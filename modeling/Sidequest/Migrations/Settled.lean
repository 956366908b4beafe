import Sidequest.Lib.Effect
import Sidequest.Lib.Except
import Sidequest.Lib.PyValue

namespace Sidequest.Migrations

open Lib
open PyDict

/-!
# Migrating what was migrated

A rewrite touches some keys of the dictionary, and leaves these such that it has nothing more to
do there. The rewrites after it keep that.

* `migrateS1WorldConfrontations` — legacy confrontations move into the magic state;
* `Touches` — the keys that a rewrite touches;
* `Canonical` — no rewrite has anything to do: `Canonical.migrated_eq`;
* `canonical_of_migrated` — that is so of everything that was migrated.
-/

section

variable (F : CaseFold)

/-! ### Names -/

/-- The case-folded name, if there is one; what is no text cannot be folded. -/
def foldedName (name : PyValue) : Except PyError (Option String) :=
  if !name.truthy then .ok none
  else match name with
    | .str s => .ok (some (F.casefold s))
    | _ => .error .attributeError

/-- The name of a registry entry or a pool member. -/
def memberName (member : PyValue) : PyValue := (get? member.entries "name").getD (.str "")

/-- The name of an NPC. -/
def npcName (npc : PyValue) : PyValue :=
  (get? (getD npc.entries "core").entries "name").getD (.str "")

/-! ### S1: confrontations -/

variable (out entry : PyDict)

/-- The identifier of a confrontation. -/
def confrontationId : Except PyError PyKey := (getD entry "id").key

/-- The identifiers that the magic state knows. -/
def existingIds (existing : List PyValue) : Except PyError (List PyKey) :=
  (existing.filterMap fun c => match c with
    | .dict entry => some entry
    | _ => none).mapM confrontationId

/-- Take over one legacy entry, unless its identifier is known. -/
def mergeConfrontation (acc : PyValue × List PyKey) : PyValue → Except PyError (PyValue × List PyKey)
  | .dict entry => do
    let id ← confrontationId entry
    if id ∈ acc.2 then .ok acc
    else do
      let existing ← acc.1.append (.dict entry)
      .ok (existing, id :: acc.2)
  | _ => .ok acc

/-- Take over the legacy entries. -/
def mergeConfrontations (legacy : PyValue) (magicState : PyDict) : Except PyError PyDict := do
  let existing := (get? magicState "confrontations").getD (.list [])
  let ids ← existingIds (← existing.iterate)
  let merged ← (← legacy.iterate).foldlM mergeConfrontation (existing, ids)
  .ok (put magicState "confrontations" merged.1)

/-- S1: merge the legacy confrontations into those of the magic state, if there is one. -/
def migrateS1WorldConfrontations : Except PyError PyDict :=
  match get? out "world_confrontations" with
  | none => .ok out
  | some legacy =>
    let out := pop out "world_confrontations"
    if !legacy.truthy then .ok out
    else match get? out "magic_state" with
      | some (.dict magicState) => do
        let magicState ← mergeConfrontations legacy magicState
        .ok (put out "magic_state" (.dict magicState))
      -- the entries are dropped, and only counted
      | _ => do
        let _ ← legacy.iterate
        .ok out

/-! ### S2: the registry of NPCs -/

/-- Where each name is among the NPCs, the last of a name winning. -/
def byName (npcs : List PyValue) : Except PyError (List (String × Nat)) :=
  npcs.zipIdx.foldlM (fun names p => do
    match ← foldedName F (npcName p.1) with
    | none => .ok names
    | some name => .ok ((name, p.2) :: names)) []

/-- Merge what a registry entry has seen onto the NPC. -/
def seen (npc : PyDict) : PyDict :=
  let located := match (getD entry "last_seen_location").notNone with
    | none => npc
    | some location => put npc "last_seen_location" location
  setDefault (put located "last_seen_turn" ((get? entry "last_seen_turn").getD (.num 0)))
    "pool_origin" .null

/-- The same for an NPC that is a dictionary; nothing else has a name. -/
def mergeSeen : PyValue → PyValue
  | .dict npc => .dict (seen entry npc)
  | npc => npc

/-- A registry entry has HP. -/
def hasHp : Bool :=
  (getD entry "hp").notNone.isSome || (getD entry "max_hp").notNone.isSome

/-- The pool member that a registry entry becomes. -/
def poolMember : PyValue :=
  .dict
    [("name", (get? entry "name").getD (.str "")),
      ("role", getD entry "role"),
      ("pronouns", getD entry "pronouns"),
      ("appearance", getD entry "appearance"),
      ("archetype_id", .null),
      ("drawn_from", .str "legacy_registry")]

/-- Put one registry entry where it belongs: onto the NPC of its name, or into the pool. What is no
    dictionary or has no name is dropped, and so is a stat block without an NPC. -/
def splitEntry (names : List (String × Nat)) (acc : List PyValue × PyValue) :
    PyValue → Except PyError (List PyValue × PyValue)
  | .dict entry => do
    match ← foldedName F (memberName (.dict entry)) with
    | none => .ok acc
    | some name =>
      match names.lookup name with
      | some i => .ok (acc.1.modify i (mergeSeen entry), acc.2)
      | none =>
        if hasHp entry then .ok acc
        else do
          let pool ← acc.2.append (poolMember entry)
          .ok (acc.1, pool)
  | _ => .ok acc

/-- The items of a list after they were changed in place; anything else has none to change. -/
def replaceItems (v : PyValue) (items : List PyValue) : PyValue :=
  match v with
  | .list _ => .list items
  | v => v

/-- Split a registry that is not empty. -/
def splitRegistry (legacy : PyValue) (out : PyDict) : Except PyError PyDict := do
  let npcs := getD out "npcs"
  let names ← byName F (← npcs.iterate)
  let split ← (← legacy.iterate).foldlM (splitEntry F names) (npcs.items, getD out "npc_pool")
  .ok (put (put out "npcs" (replaceItems npcs split.1)) "npc_pool" split.2)

/-- S2: split the registry into the NPCs and the pool. -/
def migrateS2NpcRegistrySplit : Except PyError PyDict :=
  match get? out "npc_registry" with
  | none => .ok out
  | some legacy =>
    if !legacy.truthy && has out "npc_pool" then .ok out
    else
      let out := setDefault (setDefault (pop out "npc_registry") "npcs" (.list []))
        "npc_pool" (.list [])
      if !legacy.truthy then .ok out
      else splitRegistry F legacy out

/-! ### S3 and S4: where the seated PCs are -/

/-- Seed the entry of one seated PC, unless it has one. -/
def seedSeat (value : PyValue) (known : PyDict) (name : PyValue) : Except PyError PyDict :=
  if !name.truthy then .ok known
  else do
    let key ← name.key
    .ok (if has known key then known else put known key value)

/-- Seed the entries of the seated PCs with the party's value. -/
def seedSeats (field : String) (value : PyValue) (out : PyDict) : Except PyError PyDict :=
  match get? out "player_seats" with
  | some (.dict seats) =>
    if seats.isEmpty then .ok out
    else match (get? out field).getD (.dict []) with
      | .dict known => do
        let known ← (seats.map Prod.snd).foldlM (seedSeat value) known
        .ok (put out field (.dict known))
      | _ => .ok out
  | _ => .ok out

/-- S3: the party's location becomes that of the seated PCs without one. -/
def migrateS3PartyLocation : Except PyError PyDict :=
  match get? out "location" with
  | none => .ok out
  | some location =>
    let out := pop out "location"
    if !location.truthy then .ok out
    else seedSeats "character_locations" location out

/-- S4: the party's region becomes that of the seated PCs, if no PC has one. -/
def migrateS4PcRegions : Except PyError PyDict :=
  if (getD out "pc_regions").truthy then .ok out
  else
    let region := getD out "current_region"
    if !region.truthy then .ok out
    else seedSeats "pc_regions" region out

/-! ### S5: the pool -/

/-- A pool member is to be kept: it is no dictionary, or has no name that is an NPC's. -/
def keepMember (names : List String) : PyValue → Except PyError Bool
  | .dict member => do
    match ← foldedName F (memberName (.dict member)) with
    | none => .ok true
    | some name => .ok (!names.contains name)
  | _ => .ok true

/-- Keep one pool member, or remove it. -/
def keepUnshadowed (names : List String) (kept : List PyValue) (member : PyValue) :
    Except PyError (List PyValue) := do
  let keep ← keepMember F names member
  .ok (if keep then kept ++ [member] else kept)

/-- The names of the NPCs. -/
def npcNames (npcs : List PyValue) : Except PyError (List String) := do
  let names ← npcs.mapM (fun npc => foldedName F (npcName npc))
  .ok (names.filterMap id)

/-- S5: remove the pool members that an NPC shadows. -/
def migrateS5ReconcileNpcPool : Except PyError PyDict :=
  match get? out "npcs", get? out "npc_pool" with
  | some (.list npcs), some (.list pool) =>
    if npcs.isEmpty || pool.isEmpty then .ok out
    else do
      let names ← npcNames F npcs
      if names.isEmpty then .ok out
      else do
        let kept ← pool.foldlM (keepUnshadowed F names) []
        if kept.length = pool.length then .ok out
        else .ok (put out "npc_pool" (.list kept))
  | _, _ => .ok out

/-! ### S6: voices -/

/-- An NPC without a voice. -/
def stripVoice : PyValue → PyValue
  | .dict npc => .dict (pop npc "voice_id")
  | npc => npc

/-- S6: strip the voices of the NPCs. -/
def migrateS6StripNpcVoiceId : Except PyError PyDict :=
  match get? out "npcs" with
  | some (.list npcs) => .ok (put out "npcs" (.list (npcs.map stripVoice)))
  | _ => .ok out

/-! ### The rewrites in a row -/

/-- The rewrites, in order. -/
def migrations : List (PyDict → Except PyError PyDict) :=
  [migrateS1WorldConfrontations, migrateS2NpcRegistrySplit F, migrateS3PartyLocation,
    migrateS4PcRegions, migrateS5ReconcileNpcPool F, migrateS6StripNpcVoiceId]

/-- The dictionary that is migrated, and the copy that the rewrites work on. -/
structure Store where
  (data out : PyDict)

/-- Run one rewrite on the copy. -/
def rewriteOut (sub : PyDict → Except PyError PyDict) : Effect PyError Store PUnit := do
  let s ← get
  let out ← ofExcept (sub s.out)
  set { s with out := out }

/-- Rewrite a legacy snapshot into the canonical shape: a copy of it. -/
def migrateLegacySnapshot : Effect PyError Store PyDict := do
  modify fun s => { s with out := s.data }
  (migrations F).forM rewriteOut
  let s ← get
  pure s.out

end

variable {F : CaseFold} {out out' : PyDict}

/-! ### What a rewrite touches -/

/-- Every other key is as it was. -/
def Touches (keys : List PyKey) (d d' : PyDict) : Prop := ∀ k, k ∉ keys → get? d' k = get? d k

section Touches

variable {keys : List PyKey} {d d' d'' : PyDict} {k : PyKey}

theorem Touches.refl (keys : List PyKey) (d : PyDict) : Touches keys d d := fun _ _ => rfl

theorem Touches.trans (h : Touches keys d d') (h' : Touches keys d' d'') : Touches keys d d'' :=
  fun k hk => (h' k hk).trans (h k hk)

theorem Touches.mono {keys' : List PyKey} (h : Touches keys d d') (hkeys : keys ⊆ keys') :
    Touches keys' d d' := fun k hk => h k (fun hmem => hk (hkeys hmem))

/-- A key that is not touched is there after as it was before. -/
theorem Touches.has (h : Touches keys d d') (hk : k ∉ keys) : has d' k = has d k := by
  unfold PyDict.has
  rw [h k hk]

theorem touches_put (hk : k ∈ keys) (v : PyValue) : Touches keys d (put d k v) := by
  intro k' hk'
  apply get?_put_of_ne
  rintro rfl
  exact hk' hk

theorem touches_pop (hk : k ∈ keys) : Touches keys d (pop d k) := by
  intro k' hk'
  apply get?_pop_of_ne
  rintro rfl
  exact hk' hk

theorem touches_setDefault (hk : k ∈ keys) (v : PyValue) : Touches keys d (setDefault d k v) := by
  unfold setDefault
  split
  · exact Touches.refl keys d
  · exact touches_put hk v

end Touches

/-- The first stage touches the world confrontations and the magic state. -/
theorem touches_migrateS1 (h : migrateS1WorldConfrontations out = .ok out') :
    Touches ["world_confrontations", "magic_state"] out out' := by
  unfold migrateS1WorldConfrontations at h
  have hpop : Touches ["world_confrontations", "magic_state"] out
      (pop out "world_confrontations") := touches_pop (by simp)
  split at h
  · cases h
    exact Touches.refl _ _
  · dsimp only at h
    split at h
    · cases h
      exact hpop
    · split at h
      · obtain ⟨magicState, -, h⟩ := bind_eq_ok.mp h
        cases h
        exact hpop.trans (touches_put (by simp) _)
      · obtain ⟨_, -, h⟩ := bind_eq_ok.mp h
        cases h
        exact hpop

theorem touches_splitRegistry {legacy : PyValue} (h : splitRegistry F legacy out = .ok out') :
    Touches ["npcs", "npc_pool"] out out' := by
  unfold splitRegistry at h
  obtain ⟨npcs, -, h⟩ := bind_eq_ok.mp h
  obtain ⟨names, -, h⟩ := bind_eq_ok.mp h
  obtain ⟨entries, -, h⟩ := bind_eq_ok.mp h
  obtain ⟨split, -, h⟩ := bind_eq_ok.mp h
  cases h
  exact (touches_put (by simp) _).trans (touches_put (by simp) _)

/-- The dictionary that the registry is split in. -/
def seededNpcs (out : PyDict) : PyDict :=
  setDefault (setDefault (pop out "npc_registry") "npcs" (.list [])) "npc_pool" (.list [])

theorem touches_seededNpcs (out : PyDict) :
    Touches ["npc_registry", "npcs", "npc_pool"] out (seededNpcs out) :=
  ((touches_pop (by simp)).trans (touches_setDefault (by simp) _)).trans
    (touches_setDefault (by simp) _)

/-- The second stage touches the registry and what it is split into. -/
theorem touches_migrateS2 (h : migrateS2NpcRegistrySplit F out = .ok out') :
    Touches ["npc_registry", "npcs", "npc_pool"] out out' := by
  unfold migrateS2NpcRegistrySplit at h
  split at h
  · cases h
    exact Touches.refl _ _
  · split at h
    · cases h
      exact Touches.refl _ _
    · split at h
      · cases h
        exact touches_seededNpcs out
      · exact (touches_seededNpcs out).trans ((touches_splitRegistry h).mono (by simp))

theorem touches_seedSeats {field : String} {value : PyValue}
    (h : seedSeats field value out = .ok out') : Touches [PyKey.str field] out out' := by
  unfold seedSeats at h
  split at h
  · split at h
    · cases h
      exact Touches.refl _ _
    · split at h
      · obtain ⟨known, -, h⟩ := bind_eq_ok.mp h
        cases h
        exact touches_put (by simp) _
      · cases h
        exact Touches.refl _ _
  · cases h
    exact Touches.refl _ _

/-- The third stage touches the location and what it is handed on to. -/
theorem touches_migrateS3 (h : migrateS3PartyLocation out = .ok out') :
    Touches ["location", "character_locations"] out out' := by
  unfold migrateS3PartyLocation at h
  split at h
  · cases h
    exact Touches.refl _ _
  · split at h
    · cases h
      exact touches_pop (by simp)
    · exact (touches_pop (by simp)).trans ((touches_seedSeats h).mono (by simp))

/-- The fourth stage touches the regions of the PCs. -/
theorem touches_migrateS4 (h : migrateS4PcRegions out = .ok out') :
    Touches ["pc_regions"] out out' := by
  unfold migrateS4PcRegions at h
  split at h
  · cases h
    exact Touches.refl _ _
  · dsimp only at h
    split at h
    · cases h
      exact Touches.refl _ _
    · exact touches_seedSeats h

/-- The fifth stage touches the pool. -/
theorem touches_migrateS5 (h : migrateS5ReconcileNpcPool F out = .ok out') :
    Touches ["npc_pool"] out out' := by
  unfold migrateS5ReconcileNpcPool at h
  split at h
  · split at h
    · cases h
      exact Touches.refl _ _
    · obtain ⟨names, -, h⟩ := bind_eq_ok.mp h
      split at h
      · cases h
        exact Touches.refl _ _
      · obtain ⟨kept, -, h⟩ := bind_eq_ok.mp h
        split at h
        · cases h
          exact Touches.refl _ _
        · cases h
          exact touches_put (by simp) _
  · cases h
    exact Touches.refl _ _

/-- The sixth stage touches the NPCs. -/
theorem touches_migrateS6 (h : migrateS6StripNpcVoiceId out = .ok out') :
    Touches ["npcs"] out out' := by
  unfold migrateS6StripNpcVoiceId at h
  split at h
  · cases h
    exact touches_put (by simp) _
  · cases h
    exact Touches.refl _ _

/-! ### What a rewrite leaves to do -/

/-- The first stage leaves no world confrontations at the top. -/
theorem get?_migrateS1 (h : migrateS1WorldConfrontations out = .ok out') :
    get? out' "world_confrontations" = none := by
  unfold migrateS1WorldConfrontations at h
  split at h
  · rename_i hnone
    cases h
    exact hnone
  · dsimp only at h
    split at h
    · rw [← Except.ok.inj h, get?_pop_self]
    · split at h
      · obtain ⟨magicState, -, h⟩ := bind_eq_ok.mp h
        rw [← Except.ok.inj h, get?_put_of_ne _ (by decide), get?_pop_self]
      · obtain ⟨_, -, h⟩ := bind_eq_ok.mp h
        rw [← Except.ok.inj h, get?_pop_self]

/-- A registry that is still there is empty, and the pool is there. -/
def RegistrySettled (out : PyDict) : Prop :=
  ∀ legacy, get? out "npc_registry" = some legacy → legacy.truthy = false ∧ has out "npc_pool" = true

theorem registrySettled_of_none (h : get? out "npc_registry" = none) : RegistrySettled out :=
  fun legacy hsome => absurd (h.symm.trans hsome) (by simp)

/-- The second stage settles the registry. -/
theorem registrySettled_migrateS2 (h : migrateS2NpcRegistrySplit F out = .ok out') :
    RegistrySettled out' := by
  have hseeded : get? (seededNpcs out) "npc_registry" = none := by
    unfold seededNpcs
    rw [get?_setDefault, if_neg (by decide), get?_setDefault, if_neg (by decide), get?_pop_self]
  unfold migrateS2NpcRegistrySplit at h
  split at h
  · rename_i hnone
    cases h
    exact registrySettled_of_none hnone
  · rename_i legacy hlegacy
    split at h
    · rename_i hdone
      cases h
      intro legacy' hlegacy'
      rw [← Option.some.inj (hlegacy.symm.trans hlegacy')]
      simpa using hdone
    · apply registrySettled_of_none
      split at h
      · cases h
        exact hseeded
      · rw [touches_splitRegistry h _ (by decide)]
        exact hseeded

/-- With a settled registry the second stage changes nothing. -/
theorem RegistrySettled.migrateS2_eq (h : RegistrySettled out) :
    migrateS2NpcRegistrySplit F out = .ok out := by
  unfold migrateS2NpcRegistrySplit
  cases hlegacy : get? out "npc_registry" with
  | none => rfl
  | some legacy =>
    obtain ⟨hfalsy, hpool⟩ := h legacy hlegacy
    simp [hfalsy, hpool]

/-- The third stage leaves no location. -/
theorem get?_migrateS3 (h : migrateS3PartyLocation out = .ok out') :
    get? out' "location" = none := by
  unfold migrateS3PartyLocation at h
  split at h
  · rename_i hnone
    cases h
    exact hnone
  · split at h
    · rw [← Except.ok.inj h, get?_pop_self]
    · rw [touches_seedSeats h _ (by decide), get?_pop_self]

/-- Seeding that changed nothing changes nothing wherever the seats and the field are the same. -/
theorem seedSeats_congr {field : String} {value : PyValue} (h : seedSeats field value out = .ok out)
    (hseats : get? out' "player_seats" = get? out "player_seats")
    (hfield : get? out' field = get? out field) : seedSeats field value out' = .ok out' := by
  unfold seedSeats at h ⊢
  rw [hseats, hfield]
  split at h
  · split at h
    · rename_i hempty
      rw [if_pos hempty]
    · rename_i hseated
      rw [if_neg hseated]
      split at h
      · obtain ⟨known, hknown, h⟩ := bind_eq_ok.mp h
        rw [Except.ok.injEq, put_eq_self_iff, ← hfield, ← put_eq_self_iff] at h
        exact bind_eq_ok.mpr ⟨known, hknown, congrArg Except.ok h⟩
      · rfl
  · rfl

/-- Whether the fourth stage changes anything is up to the seats, the current region and the regions
    of the PCs. -/
theorem migrateS4_congr (h : migrateS4PcRegions out = .ok out)
    (hseats : get? out' "player_seats" = get? out "player_seats")
    (hregion : get? out' "current_region" = get? out "current_region")
    (hregions : get? out' "pc_regions" = get? out "pc_regions") :
    migrateS4PcRegions out' = .ok out' := by
  unfold migrateS4PcRegions getD at h ⊢
  rw [hregions, hregion]
  split at h
  · rename_i htruthy
    rw [if_pos htruthy]
  · rename_i hfalsy
    rw [if_neg hfalsy]
    dsimp only at h ⊢
    split at h
    · rename_i hnowhere
      rw [if_pos hnowhere]
    · rename_i hsomewhere
      rw [if_neg hsomewhere]
      exact seedSeats_congr h hseats hregions

/-- Regions that were seeded are there, or there is no PC to seed one for. -/
theorem migrateS4_self (h : migrateS4PcRegions out = .ok out') :
    migrateS4PcRegions out' = .ok out' := by
  have hstart := h
  have hsame : out' = out → migrateS4PcRegions out' = .ok out' := by
    rintro rfl
    exact hstart
  unfold migrateS4PcRegions at h
  split at h
  · exact hsame (Except.ok.inj h).symm
  rename_i hfalsy
  dsimp only at h
  split at h
  · exact hsame (Except.ok.inj h).symm
  rename_i hregion
  unfold seedSeats at h
  split at h
  · rename_i seats hseats
    split at h
    · exact hsame (Except.ok.inj h).symm
    rename_i hseated
    split at h
    · rename_i known hknown
      -- no PC had a region, so that the second run starts from what the first one started from
      obtain rfl : known = [] := by
        unfold getD at hfalsy
        cases hget : get? out "pc_regions" with
        | none =>
          rw [hget] at hknown
          exact (PyValue.dict.inj hknown).symm
        | some v =>
          rw [hget] at hknown hfalsy
          obtain rfl : v = .dict known := hknown
          simpa [PyValue.truthy] using hfalsy
      obtain ⟨known', hfold, h⟩ := bind_eq_ok.mp h
      have hout' := (Except.ok.inj h).symm
      have hget : get? out' "pc_regions" = some (.dict known') := by
        rw [hout', get?_put_self]
      unfold migrateS4PcRegions
      by_cases htruthy : (getD out' "pc_regions").truthy = true
      · rw [if_pos htruthy]
      · have hempty : known' = [] := by
          unfold getD at htruthy
          rw [hget] at htruthy
          simpa [PyValue.truthy] using htruthy
        have hregion' : getD out' "current_region" = getD out "current_region" := by
          unfold getD
          rw [hout', get?_put_of_ne _ (by decide)]
        rw [if_neg htruthy]
        rw [hregion', if_neg hregion]
        unfold seedSeats
        rw [hout', get?_put_of_ne _ (by decide), hseats, ← hout']
        dsimp only
        rw [if_neg hseated, hget, hempty]
        refine bind_eq_ok.mpr ⟨known', hfold, congrArg Except.ok ?_⟩
        rw [put_eq_self_iff]
        exact hget
    · exact hsame (Except.ok.inj h).symm
  · exact hsame (Except.ok.inj h).symm

/-! ### The pool -/

variable {names : List String}

/-- The body of the loop over the pool, where it does not raise. -/
theorem keepUnshadowed_eq_ok {kept kept' : List PyValue} {member : PyValue} :
    keepUnshadowed F names kept member = .ok kept' ↔
      ∃ keep, keepMember F names member = .ok keep ∧
        kept' = if keep = true then kept ++ [member] else kept := by
  unfold keepUnshadowed
  rw [bind_eq_ok]
  simp [eq_comm]

variable {pool : List PyValue}

/-- The loop over the pool keeps the members that are to be kept. -/
theorem mem_kept_iff {kept : List PyValue} (h : pool.foldlM (keepUnshadowed F names) [] = .ok kept)
    (member : PyValue) : member ∈ kept ↔ member ∈ pool ∧ keepMember F names member = .ok true := by
  refine foldlM_invariant (fun taken kept => ∀ member, member ∈ kept ↔
    member ∈ taken ∧ keepMember F names member = .ok true) (by simp) ?_ h member
  rintro taken m rest acc acc' - hacc hstep member
  obtain ⟨keep, hkeep, rfl⟩ := keepUnshadowed_eq_ok.mp hstep
  cases keep with
  | true =>
    simp only [if_true, List.mem_append, List.mem_singleton, hacc]
    constructor
    · rintro (h | rfl)
      · exact ⟨.inl h.1, h.2⟩
      · exact ⟨.inr rfl, hkeep⟩
    · rintro ⟨h | h, hkept⟩
      · exact .inl ⟨h, hkept⟩
      · exact .inr h
  | false =>
    simp only [Bool.false_eq_true, if_false, List.mem_append, List.mem_singleton, hacc]
    constructor
    · exact fun h => ⟨.inl h.1, h.2⟩
    · rintro ⟨h | rfl, hkept⟩
      · exact ⟨h, hkept⟩
      · rw [hkeep] at hkept
        exact absurd (Except.ok.inj hkept) (by decide)

/-- Members that are all to be kept are kept. -/
theorem foldlM_keepUnshadowed (h : ∀ member ∈ pool, keepMember F names member = .ok true)
    (acc : List PyValue) : pool.foldlM (keepUnshadowed F names) acc = .ok (acc ++ pool) := by
  induction pool generalizing acc with
  | nil =>
    rw [List.append_nil]
    rfl
  | cons m pool ih =>
    rw [List.forall_mem_cons] at h
    refine bind_eq_ok.mpr ⟨acc ++ [m], keepUnshadowed_eq_ok.mpr ⟨true, h.1, rfl⟩, ?_⟩
    rw [ih h.2, List.append_assoc]
    rfl

variable {npcs : List PyValue}

/-- A pool of which every member is kept stays as it is. -/
theorem migrateS5_of_kept (hnpcs : get? out "npcs" = some (.list npcs))
    (hpool : get? out "npc_pool" = some (.list pool)) (hnames : npcNames F npcs = .ok names)
    (hkeep : ∀ member ∈ pool, keepMember F names member = .ok true) :
    migrateS5ReconcileNpcPool F out = .ok out := by
  unfold migrateS5ReconcileNpcPool
  rw [hnpcs, hpool]
  dsimp only
  split
  · rfl
  · refine bind_eq_ok.mpr ⟨names, hnames, ?_⟩
    split
    · rfl
    · refine bind_eq_ok.mpr ⟨pool, foldlM_keepUnshadowed hkeep [], ?_⟩
      rw [if_pos rfl]

/-- Without NPCs, members or names the fifth stage changes nothing. -/
theorem migrateS5_of_nameless (hnpcs : get? out "npcs" = some (.list npcs))
    (hpool : get? out "npc_pool" = some (.list pool))
    (h : npcs = [] ∨ pool = [] ∨ npcNames F npcs = .ok []) :
    migrateS5ReconcileNpcPool F out = .ok out := by
  unfold migrateS5ReconcileNpcPool
  rw [hnpcs, hpool]
  dsimp only
  rcases h with rfl | rfl | hnames
  · rfl
  · rw [if_pos (by simp)]
  · split
    · rfl
    · exact bind_eq_ok.mpr ⟨[], hnames, rfl⟩

/-- What the fifth stage leaves of a pool. -/
theorem kept_migrateS5 (h : migrateS5ReconcileNpcPool F out = .ok out')
    (hnpcs : get? out "npcs" = some (.list npcs)) (hpool : get? out "npc_pool" = some (.list pool)) :
    out' = out ∧ (npcs = [] ∨ pool = [] ∨ npcNames F npcs = .ok []) ∨
      ∃ names kept, npcNames F npcs = .ok names ∧ get? out' "npc_pool" = some (.list kept) ∧
        ∀ member, member ∈ kept ↔ member ∈ pool ∧ keepMember F names member = .ok true := by
  unfold migrateS5ReconcileNpcPool at h
  rw [hnpcs, hpool] at h
  dsimp only at h
  split at h
  · rename_i hempty
    refine .inl ⟨(Except.ok.inj h).symm, ?_⟩
    simp only [Bool.or_eq_true, List.isEmpty_iff] at hempty
    rcases hempty with hempty | hempty
    · exact .inl hempty
    · exact .inr (.inl hempty)
  · obtain ⟨names, hnames, h⟩ := bind_eq_ok.mp h
    split at h
    · rename_i hempty
      rw [List.isEmpty_iff] at hempty
      exact .inl ⟨(Except.ok.inj h).symm, .inr (.inr (hempty ▸ hnames))⟩
    · obtain ⟨kept, hkept, h⟩ := bind_eq_ok.mp h
      refine .inr ⟨names, kept, hnames, ?_, mem_kept_iff hkept⟩
      split at h
      · rename_i hlength
        -- nothing was removed
        have hsub : kept.Sublist pool := by
          refine foldlM_invariant (fun taken kept => kept.Sublist taken) (List.Sublist.refl []) ?_
            hkept
          rintro taken m rest acc acc' - hacc hstep
          obtain ⟨keep, -, rfl⟩ := keepUnshadowed_eq_ok.mp hstep
          split
          · exact hacc.append (List.Sublist.refl [m])
          · exact hacc.trans (List.sublist_append_left taken [m])
        rw [← Except.ok.inj h, hpool, hsub.eq_of_length hlength]
      · rw [← Except.ok.inj h, get?_put_self]

/-- The fifth stage looks at lists only. -/
theorem migrateS5_of_not_lists (h : ∀ npcs pool, get? out "npcs" = some (.list npcs) →
    get? out "npc_pool" ≠ some (.list pool)) : migrateS5ReconcileNpcPool F out = .ok out := by
  unfold migrateS5ReconcileNpcPool
  split
  · rename_i npcs pool hnpcs hpool
    exact absurd hpool (h npcs pool hnpcs)
  · rfl

/-- **The fifth stage, run again**, changes nothing. -/
theorem migrateS5_self (h : migrateS5ReconcileNpcPool F out = .ok out') :
    migrateS5ReconcileNpcPool F out' = .ok out' := by
  by_cases hlists : ∀ npcs pool, get? out "npcs" = some (.list npcs) →
      get? out "npc_pool" ≠ some (.list pool)
  · cases (migrateS5_of_not_lists hlists).symm.trans h
    exact h
  · push Not at hlists
    obtain ⟨npcs, pool, hnpcs, hpool⟩ := hlists
    rcases kept_migrateS5 h hnpcs hpool with ⟨rfl, -⟩ | ⟨names, kept, hnames, hkept, hmem⟩
    · exact h
    · have hnpcs' := (touches_migrateS5 h _ (by decide)).trans hnpcs
      exact migrateS5_of_kept hnpcs' hkept hnames (fun member hmember => ((hmem member).mp hmember).2)

/-- The pool stays where it is. -/
theorem has_migrateS5 (h : migrateS5ReconcileNpcPool F out = .ok out')
    (hpool : has out "npc_pool" = true) : has out' "npc_pool" = true := by
  by_cases hlists : ∀ npcs pool, get? out "npcs" = some (.list npcs) →
      get? out "npc_pool" ≠ some (.list pool)
  · cases (migrateS5_of_not_lists hlists).symm.trans h
    exact hpool
  · push Not at hlists
    obtain ⟨npcs, pool, hnpcs, hpool'⟩ := hlists
    rcases kept_migrateS5 h hnpcs hpool' with ⟨rfl, -⟩ | ⟨names, kept, -, hkept, -⟩
    · exact hpool
    · exact has_iff.mpr ⟨_, hkept⟩

/-! ### The voices -/

/-- A voice is no part of a name. -/
theorem npcName_stripVoice (npc : PyValue) : npcName (stripVoice npc) = npcName npc := by
  cases npc with
  | dict npc =>
    unfold npcName stripVoice getD
    rw [PyValue.entries_dict, PyValue.entries_dict, get?_pop_of_ne (by decide)]
  | _ => rfl

theorem stripVoice_stripVoice (npc : PyValue) : stripVoice (stripVoice npc) = stripVoice npc := by
  cases npc with
  | dict npc => exact congrArg PyValue.dict (pop_eq_self (get?_pop_self npc "voice_id"))
  | _ => rfl

/-- What keeps the names one by one keeps them all. -/
theorem npcNames_map {f : PyValue → PyValue} (h : ∀ npc, npcName (f npc) = npcName npc)
    (npcs : List PyValue) : npcNames F (npcs.map f) = npcNames F npcs := by
  unfold npcNames
  have hsame : (npcs.map f).mapM (fun npc => foldedName F (npcName npc)) =
      npcs.mapM (fun npc => foldedName F (npcName npc)) := by
    induction npcs with
    | nil => rfl
    | cons npc npcs ih => rw [List.map_cons, List.mapM_cons, List.mapM_cons, ih, h]
  rw [hsame]

/-- The sixth stage strips the voices of all NPCs. -/
theorem get?_migrateS6 (h : migrateS6StripNpcVoiceId out = .ok out')
    (hnpcs : get? out "npcs" = some (.list npcs)) :
    get? out' "npcs" = some (.list (npcs.map stripVoice)) := by
  unfold migrateS6StripNpcVoiceId at h
  rw [hnpcs] at h
  rw [← Except.ok.inj h, get?_put_self]

/-- The sixth stage looks at a list only. -/
theorem eq_of_migrateS6 (h : migrateS6StripNpcVoiceId out = .ok out')
    (hnpcs : ∀ npcs, get? out "npcs" ≠ some (.list npcs)) : out' = out := by
  unfold migrateS6StripNpcVoiceId at h
  split at h
  · rename_i npcs hsome
    exact absurd hsome (hnpcs npcs)
  · exact (Except.ok.inj h).symm

/-- **The sixth stage, run again**, changes nothing. -/
theorem migrateS6_self (h : migrateS6StripNpcVoiceId out = .ok out') :
    migrateS6StripNpcVoiceId out' = .ok out' := by
  by_cases hnpcs : ∀ npcs, get? out "npcs" ≠ some (.list npcs)
  · obtain rfl := eq_of_migrateS6 h hnpcs
    exact h
  · push Not at hnpcs
    obtain ⟨npcs, hnpcs⟩ := hnpcs
    have hstripped := get?_migrateS6 h hnpcs
    unfold migrateS6StripNpcVoiceId
    rw [hstripped]
    dsimp only
    rw [List.map_map, Except.ok.injEq, put_eq_self_iff, hstripped]
    congr 3
    funext npc
    exact (stripVoice_stripVoice npc).symm

/-- Stripping the voices leaves nothing more to reconcile. -/
theorem migrateS5_of_migrateS6 (h5 : migrateS5ReconcileNpcPool F out = .ok out)
    (h6 : migrateS6StripNpcVoiceId out = .ok out') :
    migrateS5ReconcileNpcPool F out' = .ok out' := by
  have hpool := touches_migrateS6 h6 "npc_pool" (by decide)
  by_cases hnpcs : ∀ npcs, get? out "npcs" ≠ some (.list npcs)
  · rw [eq_of_migrateS6 h6 hnpcs]
    exact h5
  · push Not at hnpcs
    obtain ⟨npcs, hnpcs⟩ := hnpcs
    have hstripped := get?_migrateS6 h6 hnpcs
    have hnames : npcNames F (npcs.map stripVoice) = npcNames F npcs :=
      npcNames_map npcName_stripVoice npcs
    by_cases hlist : ∀ pool, get? out "npc_pool" ≠ some (.list pool)
    · apply migrateS5_of_not_lists
      intro npcs' pool _
      rw [hpool]
      exact hlist pool
    · push Not at hlist
      obtain ⟨pool, hlist⟩ := hlist
      rcases kept_migrateS5 h5 hnpcs hlist with ⟨-, hempty⟩ | ⟨names, kept, hfound, hkept, hmem⟩
      · refine migrateS5_of_nameless hstripped (hpool.trans hlist) ?_
        rw [hnames, List.map_eq_nil_iff]
        exact hempty
      · refine migrateS5_of_kept hstripped (hpool.trans hkept) (hnames.trans hfound) ?_
        exact fun member hmember => ((hmem member).mp hmember).2

/-! ### All of them -/

/-- Some rewrites of a dictionary, in order. -/
def runAll (subs : List (PyDict → Except PyError PyDict)) (data : PyDict) :
    Except PyError PyDict := subs.foldlM (fun out sub => sub out) data

/-- All of them. -/
def migrated (F : CaseFold) (data : PyDict) : Except PyError PyDict := runAll (migrations F) data

/-- What each rewrite has made of the dictionary. -/
structure Stages (F : CaseFold) (data d₁ d₂ d₃ d₄ d₅ out : PyDict) : Prop where
  s1 : migrateS1WorldConfrontations data = .ok d₁
  s2 : migrateS2NpcRegistrySplit F d₁ = .ok d₂
  s3 : migrateS3PartyLocation d₂ = .ok d₃
  s4 : migrateS4PcRegions d₃ = .ok d₄
  s5 : migrateS5ReconcileNpcPool F d₄ = .ok d₅
  s6 : migrateS6StripNpcVoiceId d₅ = .ok out

/-- A migration that returns goes through its six stages. -/
theorem migrated_eq_ok_iff {data : PyDict} :
    migrated F data = .ok out ↔ ∃ d₁ d₂ d₃ d₄ d₅, Stages F data d₁ d₂ d₃ d₄ d₅ out := by
  unfold migrated runAll migrations
  simp only [List.foldlM_cons, List.foldlM_nil, bind_eq_ok]
  constructor
  · rintro ⟨d₁, h1, d₂, h2, d₃, h3, d₄, h4, d₅, h5, d₆, h6, hout⟩
    cases hout
    exact ⟨d₁, d₂, d₃, d₄, d₅, h1, h2, h3, h4, h5, h6⟩
  · rintro ⟨d₁, d₂, d₃, d₄, d₅, h⟩
    exact ⟨d₁, h.s1, d₂, h.s2, d₃, h.s3, d₄, h.s4, d₅, h.s5, out, h.s6, rfl⟩

/-- No rewrite has anything to do. -/
structure Canonical (F : CaseFold) (out : PyDict) : Prop where
  confrontations : get? out "world_confrontations" = none
  registry : RegistrySettled out
  location : get? out "location" = none
  regions : migrateS4PcRegions out = .ok out
  pool : migrateS5ReconcileNpcPool F out = .ok out
  voices : migrateS6StripNpcVoiceId out = .ok out

/-- **A canonical save** is migrated to itself. -/
theorem Canonical.migrated_eq (h : Canonical F out) : migrated F out = .ok out := by
  refine migrated_eq_ok_iff.mpr ⟨out, out, out, out, out, ?_, h.registry.migrateS2_eq, ?_,
    h.regions, h.pool, h.voices⟩
  · unfold migrateS1WorldConfrontations
    rw [h.confrontations]
  · unfold migrateS3PartyLocation
    rw [h.location]

/-- **What was migrated** leaves no rewrite anything to do. -/
theorem canonical_of_migrated {data : PyDict} (h : migrated F data = .ok out) :
    Canonical F out := by
  obtain ⟨d₁, d₂, d₃, d₄, d₅, h⟩ := migrated_eq_ok_iff.mp h
  have t2 := touches_migrateS2 h.s2
  have t3 := touches_migrateS3 h.s3
  have t4 := touches_migrateS4 h.s4
  have t5 := touches_migrateS5 h.s5
  have t6 := touches_migrateS6 h.s6
  refine ⟨?_, ?_, ?_, ?_, ?_, migrateS6_self h.s6⟩
  · rw [t6 _ (by decide), t5 _ (by decide), t4 _ (by decide), t3 _ (by decide), t2 _ (by decide)]
    exact get?_migrateS1 h.s1
  · have hsettled := registrySettled_migrateS2 h.s2
    intro legacy hlegacy
    rw [t6 _ (by decide), t5 _ (by decide), t4 _ (by decide), t3 _ (by decide)] at hlegacy
    obtain ⟨hfalsy, hpool⟩ := hsettled legacy hlegacy
    refine ⟨hfalsy, ?_⟩
    rw [← t3.has (by decide), ← t4.has (by decide)] at hpool
    rw [t6.has (by decide)]
    exact has_migrateS5 h.s5 hpool
  · rw [t6 _ (by decide), t5 _ (by decide), t4 _ (by decide)]
    exact get?_migrateS3 h.s3
  · refine migrateS4_congr (migrateS4_self h.s4) ?_ ?_ ?_
    · rw [t6 _ (by decide), t5 _ (by decide)]
    · rw [t6 _ (by decide), t5 _ (by decide)]
    · rw [t6 _ (by decide), t5 _ (by decide)]
  · exact migrateS5_of_migrateS6 (migrateS5_self h.s5) h.s6

end Sidequest.Migrations
