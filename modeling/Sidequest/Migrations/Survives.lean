import Mathlib.Data.List.Induction
import Sidequest.Migrations.Settled

namespace Sidequest.Migrations

open Lib Effect
open PyDict

/-!
# What survives a migration

Each registry entry with a name is merged onto the NPC of that name, and where there is none it
becomes a pool member, unless it is a stat block; no later rewrite removes it. What a seated PC
has is not overwritten.

* `Migrated` — a dictionary and what it was migrated to: `migrated_of_eq_ok`;
* `migrateLegacySnapshot_spec` — a migration that returns.
-/

variable {F : CaseFold} {out out' : PyDict}

/-! ### Names -/

theorem foldedName_of_falsy {v : PyValue} (h : v.truthy = false) : foldedName F v = .ok none := by
  unfold foldedName
  rw [h]
  rfl

variable {name : String} {npc : PyValue}

/-- What has a name is a dictionary. -/
theorem exists_dict_of_npcName (h : foldedName F (npcName npc) = .ok (some name)) :
    ∃ d, npc = .dict d := by
  cases npc with
  | dict d => exact ⟨d, rfl⟩
  | _ => cases h.symm.trans (foldedName_of_falsy rfl)

theorem exists_dict_of_memberName {member : PyValue}
    (h : foldedName F (memberName member) = .ok (some name)) : ∃ d, member = .dict d := by
  cases member with
  | dict d => exact ⟨d, rfl⟩
  | _ => cases h.symm.trans (foldedName_of_falsy rfl)

/-- Only a list has dictionaries to loop over. -/
theorem eq_list_of_iterate {v : PyValue} {items : List PyValue} {d : PyDict}
    (h : v.iterate = .ok items) (hmem : .dict d ∈ items) : v = .list items := by
  cases v with
  | list xs => exact congrArg PyValue.list (Except.ok.inj h)
  | dict entries =>
    cases h
    obtain ⟨p, -, hp⟩ := List.mem_map.mp hmem
    cases hkey : p.1 with
    | null => exact absurd (hkey ▸ hp) (by simp [PyValue.ofKey])
    | num q => exact absurd (hkey ▸ hp) (by simp [PyValue.ofKey])
    | str s => exact absurd (hkey ▸ hp) (by simp [PyValue.ofKey])
  | str s =>
    cases h
    obtain ⟨c, -, hc⟩ := List.mem_map.mp hmem
    simp at hc
  | null => simp [PyValue.iterate] at h
  | bool b => simp [PyValue.iterate] at h
  | num q => simp [PyValue.iterate] at h

/-! ### What is merged onto an NPC -/

/-- The turn that a registry entry was last seen. -/
def turnOf (entry : PyValue) : PyValue := (get? entry.entries "last_seen_turn").getD (.num 0)

/-- The location that it was last seen at, if it says. -/
def locationOf (entry : PyValue) : Option PyValue :=
  (getD entry.entries "last_seen_location").notNone

/-- The keys of an NPC that a migration touches. -/
def seenKeys : List PyKey := ["last_seen_location", "last_seen_turn", "pool_origin", "voice_id"]

/-- The last turn in which an entry was seen. -/
theorem get?_seen_turn (entry : PyDict) (npc : PyDict) :
    get? (seen entry npc) "last_seen_turn" = some (turnOf (.dict entry)) := by
  unfold seen
  rw [get?_setDefault, if_neg (by decide), get?_put_self]
  rfl

/-- The last place at which an entry was seen, if it tells one. -/
theorem get?_seen_location (entry : PyDict) (npc : PyDict) :
    get? (seen entry npc) "last_seen_location" =
      (locationOf (.dict entry)).or (get? npc "last_seen_location") := by
  unfold seen locationOf
  rw [PyValue.entries_dict, get?_setDefault, if_neg (by decide), get?_put_of_ne _ (by decide)]
  cases (getD entry "last_seen_location").notNone with
  | none => rw [Option.none_or]
  | some location => rw [get?_put_self, Option.some_or]

/-- Being seen touches the keys of that, and no other. -/
theorem touches_seen (entry npc : PyDict) : Touches seenKeys npc (seen entry npc) := by
  unfold seen
  have hlast : ∀ located : PyDict, Touches seenKeys npc located → Touches seenKeys npc
      (setDefault (put located "last_seen_turn" ((get? entry "last_seen_turn").getD (.num 0)))
        "pool_origin" .null) := fun located h =>
    (h.trans (touches_put (by decide) _)).trans (touches_setDefault (by decide) _)
  split
  · exact hlast npc (Touches.refl _ _)
  · exact hlast _ (touches_put (by decide) _)

/-- An NPC and what became of it: it has seen what the last of the entries has, and is at the
    location that the last one that says has given. -/
structure MergedInto (entries : List PyValue) (npc npc' : PyDict) : Prop where
  touched : Touches seenKeys npc npc'
  turn : ∀ entry, entries.getLast? = some entry → get? npc' "last_seen_turn" = some (turnOf entry)
  location : get? npc' "last_seen_location" =
    (entries.filterMap locationOf).getLast?.or (get? npc "last_seen_location")

variable {entries : List PyValue}

/-- One more entry is merged. -/
theorem MergedInto.seen {npc npc' : PyDict} (h : MergedInto entries npc npc') (entry : PyDict) :
    MergedInto (entries ++ [.dict entry]) npc (seen entry npc') := by
  refine ⟨h.touched.trans (touches_seen entry npc'), fun last hlast => ?_, ?_⟩
  · rw [List.getLast?_concat] at hlast
    rw [get?_seen_turn, Option.some.inj hlast]
  · rw [get?_seen_location, h.location, List.filterMap_append, List.getLast?_append]
    cases hlocation : locationOf (.dict entry) with
    | none => simp [hlocation]
    | some location => simp [hlocation]

/-- Stripping the voice loses nothing of what was merged. -/
theorem MergedInto.stripVoice {npc npc' : PyDict} (h : MergedInto entries npc npc') :
    MergedInto entries npc (pop npc' "voice_id") := by
  refine ⟨h.touched.trans (touches_pop (by decide)), fun last hlast => ?_, ?_⟩
  · rw [get?_pop_of_ne (by decide), h.turn last hlast]
  · rw [get?_pop_of_ne (by decide), h.location]

/-- An NPC that was merged keeps its name. -/
theorem npcName_of_touches {npc npc' : PyDict} (h : Touches seenKeys npc npc') :
    npcName (.dict npc') = npcName (.dict npc) := by
  unfold npcName getD
  rw [PyValue.entries_dict, PyValue.entries_dict, h _ (by decide)]

/-! ### Splitting the registry -/

variable {entry : PyValue}

section Split

variable {names : List (String × Nat)} {npcs : List PyValue}

/-- The index finds NPCs of the name, and every name that there is. -/
theorem byName_spec (h : byName F npcs = .ok names) :
    (∀ name i, names.lookup name = some i → ∃ npc, npcs[i]? = some npc ∧
      foldedName F (npcName npc) = .ok (some name)) ∧
    ∀ npc ∈ npcs, ∀ name, foldedName F (npcName npc) = .ok (some name) →
      names.lookup name ≠ none := by
  have hinvariant := foldlM_invariant (fun taken names =>
    (∀ name i, names.lookup name = some i → ∃ npc, npcs[i]? = some npc ∧
      foldedName F (npcName npc) = .ok (some name)) ∧
    ∀ p ∈ taken, ∀ name, foldedName F (npcName p.1) = .ok (some name) →
      names.lookup name ≠ none) ⟨by simp, by simp⟩ ?_ h
  · refine ⟨hinvariant.1, fun npc hnpc => ?_⟩
    obtain ⟨i, hi⟩ := List.mem_iff_getElem?.mp hnpc
    exact hinvariant.2 (npc, i) (List.mem_zipIdx_iff_getElem?.mpr hi)
  · rintro taken ⟨npc, i⟩ rest names names' hsplit ⟨hfound, htaken⟩ hstep
    have hnpc : npcs[i]? = some npc := by
      have hmem : (npc, i) ∈ npcs.zipIdx := by
        rw [hsplit]
        simp
      exact List.mem_zipIdx_iff_getElem?.mp hmem
    obtain ⟨folded, hfolded, hstep⟩ := bind_eq_ok.mp hstep
    cases folded with
    | none =>
      cases hstep
      refine ⟨hfound, fun p hp name hname => ?_⟩
      rcases List.mem_append.mp hp with hp | hp
      · exact htaken p hp name hname
      · obtain rfl := List.mem_singleton.mp hp
        cases hfolded.symm.trans hname
    | some name =>
      cases hstep
      constructor
      · intro name' j hj
        rw [List.lookup_cons] at hj
        by_cases hname : name' = name
        · subst hname
          rw [beq_self_eq_true] at hj
          cases hj
          exact ⟨npc, hnpc, hfolded⟩
        · rw [beq_eq_false_iff_ne.mpr hname] at hj
          exact hfound name' j hj
      · intro p hp name' hname'
        rw [List.lookup_cons]
        by_cases hname : name' = name
        · simp [hname]
        · rw [beq_eq_false_iff_ne.mpr hname]
          rcases List.mem_append.mp hp with hp | hp
          · exact htaken p hp name' hname'
          · obtain rfl := List.mem_singleton.mp hp
            rw [hfolded] at hname'
            exact absurd (Option.some.inj (Except.ok.inj hname')).symm hname

/-- A registry entry has this name. -/
def Named (F : CaseFold) (name : String) (entry : PyValue) : Prop :=
  foldedName F (memberName entry) = .ok (some name)

instance (name : String) (entry : PyValue) : Decidable (Named F name entry) :=
  inferInstanceAs (Decidable (_ = _))

/-- The place of the NPC that a registry entry is merged onto. -/
def owner (F : CaseFold) (names : List (String × Nat)) (entry : PyValue) : Option Nat :=
  match foldedName F (memberName entry) with
  | .ok (some name) => names.lookup name
  | _ => none

/-- The owner of a named entry is the NPC of that name. -/
theorem owner_of_named (h : Named F name entry) : owner F names entry = names.lookup name := by
  unfold owner
  rw [h]

theorem named_of_owner {i : Nat} (h : owner F names entry = some i) :
    ∃ name, Named F name entry ∧ names.lookup name = some i := by
  unfold owner at h
  split at h
  · rename_i name hname
    exact ⟨name, hname, h⟩
  · simp at h

/-- What becomes of one registry entry. -/
theorem splitEntry_eq_ok {acc acc' : List PyValue × PyValue}
    (h : splitEntry F names acc entry = .ok acc') : acc'.1 = (owner F names entry).elim acc.1
        (fun i => acc.1.modify i (mergeSeen entry.entries)) ∧
      acc.2.items ⊆ acc'.2.items ∧
      ∀ name, Named F name entry → names.lookup name = none → hasHp entry.entries = false →
        poolMember entry.entries ∈ acc'.2.items := by
  cases entry with
  | dict entry =>
    obtain ⟨folded, hfolded, h⟩ := bind_eq_ok.mp h
    cases folded with
    | none =>
      cases h
      refine ⟨?_, List.Subset.refl _, fun name hname => ?_⟩
      · unfold owner
        rw [hfolded]
        rfl
      · cases hfolded.symm.trans hname
    | some name =>
      have hsame : ∀ name', Named F name' (.dict entry) → name' = name := fun name' hname' =>
        (Option.some.inj (Except.ok.inj (hfolded.symm.trans hname'))).symm
      rw [owner_of_named hfolded]
      dsimp only at h
      -- an NPC has the name, or the entry is new, with hit points or without
      split at h
      · rename_i i hi
        cases h
        refine ⟨by rw [hi]; rfl, List.Subset.refl _, fun name' hname' hnone => ?_⟩
        rw [hsame name' hname', hi] at hnone
        simp at hnone
      · rename_i hnone
        rw [hnone]
        split at h
        · rename_i hhp
          cases h
          refine ⟨rfl, List.Subset.refl _, fun _ _ _ hfree => ?_⟩
          exact absurd (hhp.symm.trans hfree) (by decide)
        · obtain ⟨pool, hpool, h⟩ := bind_eq_ok.mp h
          cases h
          obtain ⟨items, hitems⟩ : ∃ items, acc.2 = .list items := by
            cases hacc : acc.2 with
            | list items => exact ⟨items, rfl⟩
            | _ =>
              rw [hacc] at hpool
              simp [PyValue.append] at hpool
          rw [hitems] at hpool ⊢
          cases hpool
          exact ⟨rfl, by simp, fun _ _ _ _ => by simp⟩
  | _ =>
    cases h
    refine ⟨rfl, List.Subset.refl _, fun name hname => ?_⟩
    obtain ⟨d, hd⟩ := exists_dict_of_memberName hname
    simp at hd

/-- An NPC after the entries that are its own were merged onto it. -/
def mergedOnto (F : CaseFold) (names : List (String × Nat)) (entries : List PyValue) (i : Nat)
    (npc : PyValue) : PyValue :=
  (entries.filter (fun entry => owner F names entry = some i)).foldl
    (fun npc entry => mergeSeen entry.entries npc) npc

/-- The last entry is merged onto its owner. -/
theorem mergedOnto_concat (entries : List PyValue) (entry : PyValue) (i : Nat) (npc : PyValue) :
    mergedOnto F names (entries ++ [entry]) i npc =
      if owner F names entry = some i then
        mergeSeen entry.entries (mergedOnto F names entries i npc)
      else mergedOnto F names entries i npc := by
  unfold mergedOnto
  by_cases h : owner F names entry = some i
  · simp [h]
  · simp [h]

/-- **The entries of a registry**: onto each NPC its own are merged in order, and those without an
    NPC and without HP are in the pool. -/
theorem split_spec {pool : PyValue} {split : List PyValue × PyValue}
    (h : entries.foldlM (splitEntry F names) (npcs, pool) = .ok split) :
    (∀ i : Nat, split.1[i]? = npcs[i]?.map (mergedOnto F names entries i)) ∧
      ∀ entry ∈ entries, ∀ name, Named F name entry → names.lookup name = none →
        hasHp entry.entries = false → poolMember entry.entries ∈ split.2.items := by
  refine foldlM_invariant (fun taken acc =>
    (∀ i : Nat, acc.1[i]? = npcs[i]?.map (mergedOnto F names taken i)) ∧
      ∀ entry ∈ taken, ∀ name, Named F name entry → names.lookup name = none →
        hasHp entry.entries = false → poolMember entry.entries ∈ acc.2.items) ?_ ?_ h
  · refine ⟨fun i => ?_, by simp⟩
    have hid : mergedOnto F names [] i = id := rfl
    rw [hid, Option.map_id]
    rfl
  · rintro taken entry rest acc acc' - ⟨hmerged, hpooled⟩ hstep
    obtain ⟨hnpcs, hpool, hemitted⟩ := splitEntry_eq_ok hstep
    constructor
    · intro i
      have hconcat : mergedOnto F names (taken ++ [entry]) i = fun npc =>
          if owner F names entry = some i then
            mergeSeen entry.entries (mergedOnto F names taken i npc)
          else mergedOnto F names taken i npc := funext (mergedOnto_concat taken entry i)
      rw [hnpcs, hconcat]
      cases howner : owner F names entry with
      | none =>
        rw [Option.elim_none, hmerged i]
        simp
      | some j =>
        rw [Option.elim_some, List.getElem?_modify, hmerged i]
        by_cases hij : j = i
        · simp [Function.comp_def]
        · have hne : ¬ some j = some i := fun h => hij (Option.some.inj h)
          simp [hij]
    · intro entry' hentry' name hname hnone hfree
      rcases List.mem_append.mp hentry' with hmem | hmem
      · exact hpool (hpooled entry' hmem name hname hnone hfree)
      · obtain rfl := List.mem_singleton.mp hmem
        exact hemitted name hname hnone hfree

/-- **Entries are merged** one after the other. -/
theorem mergedInto_foldl (npc : PyDict) (h : ∀ entry ∈ entries, ∃ d, entry = .dict d) :
    ∃ npc', entries.foldl (fun npc entry => mergeSeen entry.entries npc) (.dict npc) = .dict npc' ∧
      MergedInto entries npc npc' := by
  induction entries using List.reverseRecOn with
  | nil => exact ⟨npc, rfl, Touches.refl _ _, by simp, by simp⟩
  | append_singleton entries entry ih =>
    obtain ⟨npc', hfold, hmerged⟩ := ih (fun e he => h e (List.mem_append_left _ he))
    obtain ⟨d, rfl⟩ := h entry (by simp)
    refine ⟨seen d npc', ?_, hmerged.seen d⟩
    rw [List.foldl_append, hfold]
    rfl

end Split

/-! ### What was migrated -/

/-- The NPCs of a dictionary. -/
def npcsOf (d : PyDict) : List PyValue := (getD d "npcs").items

/-- Its pool. -/
def poolOf (d : PyDict) : List PyValue := (getD d "npc_pool").items

/-- Its legacy registry. -/
def registryOf (d : PyDict) : List PyValue := (getD d "npc_registry").items

/-- An NPC has this name. -/
def NpcNamed (F : CaseFold) (name : String) (npc : PyValue) : Prop :=
  foldedName F (npcName npc) = .ok (some name)

/-- A dictionary and what it was migrated to. -/
structure Migrated (F : CaseFold) (data out : PyDict) : Prop where
  /-- No name is an NPC's and a pool member's. -/
  apart : ∀ name, ∀ npc ∈ npcsOf out, ∀ member ∈ poolOf out,
    ¬ (NpcNamed F name npc ∧ Named F name member)
  /-- The registry entries of an NPC's name are merged onto it. -/
  merged : ∀ name, ∀ entry ∈ registryOf data, Named F name entry →
    (∃ npc ∈ npcsOf data, NpcNamed F name npc) →
      ∃ npc npc', PyValue.dict npc ∈ npcsOf data ∧ PyValue.dict npc' ∈ npcsOf out ∧
        NpcNamed F name (.dict npc) ∧ NpcNamed F name (.dict npc') ∧
        MergedInto ((registryOf data).filter (fun e => Named F name e)) npc npc'
  /-- Those without an NPC and without HP are in the pool. -/
  pooled : ∀ name, ∀ entry ∈ registryOf data, Named F name entry →
    hasHp entry.entries = false → (∀ npc ∈ npcsOf data, ¬ NpcNamed F name npc) →
      poolMember entry.entries ∈ poolOf out
  /-- A location that a character has is kept. -/
  locations : ∀ known, get? data "character_locations" = some (.dict known) →
    ∃ known', get? out "character_locations" = some (.dict known') ∧
      ∀ name location, get? known name = some location → get? known' name = some location
  /-- A region that a character has is kept. -/
  regions : ∀ known, get? data "pc_regions" = some (.dict known) →
    ∃ known', get? out "pc_regions" = some (.dict known') ∧
      ∀ name region, get? known name = some region → get? known' name = some region

section Stages

variable {data d₁ d₂ d₃ d₄ d₅ : PyDict}

theorem getD_of_touches {keys : List PyKey} {d d' : PyDict} {k : PyKey} (h : Touches keys d d')
    (hk : k ∉ keys) : getD d' k = getD d k := by
  unfold getD
  rw [h k hk]

variable {known : PyDict}

/-- Seeding keeps what is there. -/
theorem foldlM_seedSeat_kept {value : PyValue} {names : List PyValue} {known' : PyDict}
    (h : names.foldlM (seedSeat value) known = .ok known') {name : PyKey} {v : PyValue}
    (hv : get? known name = some v) : get? known' name = some v := by
  refine foldlM_invariant (fun _ known => get? known name = some v) hv ?_ h
  rintro taken n rest acc acc' - hacc hstep
  unfold seedSeat at hstep
  split at hstep
  · cases hstep
    exact hacc
  · obtain ⟨key, -, hstep⟩ := bind_eq_ok.mp hstep
    cases hstep
    split
    · exact hacc
    · rename_i hnew
      rw [get?_put_of_ne, hacc]
      rintro rfl
      exact hnew (has_iff.mpr ⟨v, hacc⟩)

/-- Seeding the seats keeps what is known. -/
theorem seedSeats_kept {field : String} {value : PyValue} (h : seedSeats field value out = .ok out')
    (hknown : get? out field = some (.dict known)) :
    ∃ known', get? out' field = some (.dict known') ∧
      ∀ name v, get? known name = some v → get? known' name = some v := by
  have hsame : out' = out → ∃ known', get? out' field = some (.dict known') ∧
      ∀ name v, get? known name = some v → get? known' name = some v := by
    rintro rfl
    exact ⟨known, hknown, fun _ _ h => h⟩
  unfold seedSeats at h
  rw [hknown] at h
  split at h
  · split at h
    · exact hsame (Except.ok.inj h).symm
    · obtain ⟨known', hfold, h⟩ := bind_eq_ok.mp h
      cases h
      exact ⟨known', get?_put_self _ _ _, fun name v hv => foldlM_seedSeat_kept hfold hv⟩
  · exact hsame (Except.ok.inj h).symm

/-- The third stage keeps the locations that are known. -/
theorem migrateS3_kept (h : migrateS3PartyLocation out = .ok out')
    (hknown : get? out "character_locations" = some (.dict known)) :
    ∃ known', get? out' "character_locations" = some (.dict known') ∧
      ∀ name v, get? known name = some v → get? known' name = some v := by
  unfold migrateS3PartyLocation at h
  have hpop : get? (pop out "location") "character_locations" = some (.dict known) := by
    rw [get?_pop_of_ne (by decide), hknown]
  split at h
  · cases h
    exact ⟨known, hknown, fun _ _ h => h⟩
  · split at h
    · cases h
      exact ⟨known, hpop, fun _ _ h => h⟩
    · exact seedSeats_kept h hpop

/-- The fourth stage keeps the regions that are known. -/
theorem migrateS4_kept (h : migrateS4PcRegions out = .ok out')
    (hknown : get? out "pc_regions" = some (.dict known)) :
    ∃ known', get? out' "pc_regions" = some (.dict known') ∧
      ∀ name v, get? known name = some v → get? known' name = some v := by
  unfold migrateS4PcRegions at h
  split at h
  · cases h
    exact ⟨known, hknown, fun _ _ h => h⟩
  · dsimp only at h
    split at h
    · cases h
      exact ⟨known, hknown, fun _ _ h => h⟩
    · exact seedSeats_kept h hknown

/-- **The locations of characters** survive. -/
theorem Stages.locations (h : Stages F data d₁ d₂ d₃ d₄ d₅ out)
    (hknown : get? data "character_locations" = some (.dict known)) :
    ∃ known', get? out "character_locations" = some (.dict known') ∧
      ∀ name location, get? known name = some location → get? known' name = some location := by
  rw [← touches_migrateS1 h.s1 _ (by decide), ← touches_migrateS2 h.s2 _ (by decide)] at hknown
  obtain ⟨known', hknown', hkept⟩ := migrateS3_kept h.s3 hknown
  refine ⟨known', ?_, hkept⟩
  rw [touches_migrateS6 h.s6 _ (by decide), touches_migrateS5 h.s5 _ (by decide),
    touches_migrateS4 h.s4 _ (by decide), hknown']

/-- **The regions of PCs** survive. -/
theorem Stages.regions (h : Stages F data d₁ d₂ d₃ d₄ d₅ out)
    (hknown : get? data "pc_regions" = some (.dict known)) :
    ∃ known', get? out "pc_regions" = some (.dict known') ∧
      ∀ name region, get? known name = some region → get? known' name = some region := by
  rw [← touches_migrateS1 h.s1 _ (by decide), ← touches_migrateS2 h.s2 _ (by decide),
    ← touches_migrateS3 h.s3 _ (by decide)] at hknown
  obtain ⟨known', hknown', hkept⟩ := migrateS4_kept h.s4 hknown
  refine ⟨known', ?_, hkept⟩
  rw [touches_migrateS6 h.s6 _ (by decide), touches_migrateS5 h.s5 _ (by decide), hknown']

/-! The registry -/

theorem eq_list_of_mem_items {v item : PyValue} (h : item ∈ v.items) : v = .list v.items := by
  cases v with
  | list items => rfl
  | _ => simp [PyValue.items] at h

theorem get?_of_mem_items {d : PyDict} {k : PyKey} {item : PyValue} (h : item ∈ (getD d k).items) :
    get? d k = some (.list (getD d k).items) := by
  have hlist := eq_list_of_mem_items h
  unfold getD at hlist ⊢
  cases hget : get? d k with
  | none =>
    rw [hget] at hlist
    simp at hlist
  | some v =>
    rw [hget] at hlist
    exact congrArg some hlist

/-- The NPCs and the pool that the registry is split into. -/
structure Splits (F : CaseFold) (out out' : PyDict) (names : List (String × Nat))
    (items : List PyValue) (split : List PyValue × PyValue) : Prop where
  iterated : (getD (seededNpcs out) "npcs").iterate = .ok items
  keyed : byName F items = .ok names
  ran : (registryOf out).foldlM (splitEntry F names)
    (npcsOf out, getD (seededNpcs out) "npc_pool") = .ok split
  npcs : get? out' "npcs" = some (replaceItems (getD (seededNpcs out) "npcs") split.1)
  pool : get? out' "npc_pool" = some split.2

theorem npcsOf_seededNpcs (out : PyDict) : npcsOf (seededNpcs out) = npcsOf out := by
  unfold npcsOf getD seededNpcs
  rw [get?_setDefault, if_neg (by decide), get?_setDefault, if_pos rfl, get?_pop_of_ne (by decide)]
  cases get? out "npcs" with
  | none => rfl
  | some v => rfl

/-- A registry with an entry is split. -/
theorem splits_of_mem_registryOf (h : migrateS2NpcRegistrySplit F out = .ok out')
    (hentry : entry ∈ registryOf out) :
    ∃ names items split, Splits F out out' names items split := by
  have hregistry := get?_of_mem_items hentry
  have htruthy : (PyValue.list (getD out "npc_registry").items).truthy = true := by
    cases hitems : (getD out "npc_registry").items with
    | nil =>
      unfold registryOf at hentry
      rw [hitems] at hentry
      simp at hentry
    | cons item items => rfl
  unfold migrateS2NpcRegistrySplit at h
  rw [hregistry] at h
  dsimp only at h
  rw [htruthy, if_neg (by simp), if_neg (by decide)] at h
  obtain ⟨items, hitems, h⟩ := bind_eq_ok.mp h
  obtain ⟨names, hnames, h⟩ := bind_eq_ok.mp h
  obtain ⟨entries, hentries, h⟩ := bind_eq_ok.mp h
  obtain ⟨split, hsplit, h⟩ := bind_eq_ok.mp h
  have hnpcs : (getD (seededNpcs out) "npcs").items = npcsOf out := npcsOf_seededNpcs out
  rw [← Except.ok.inj hentries] at hsplit
  refine ⟨names, items, split, hitems, hnames, ?_, ?_, ?_⟩
  · rw [← hnpcs]
    exact hsplit
  · rw [← Except.ok.inj h, get?_put_of_ne _ (by decide), get?_put_self]
    rfl
  · rw [← Except.ok.inj h, get?_put_self]

section Splits

variable {names : List (String × Nat)} {items : List PyValue} {split : List PyValue × PyValue}

theorem Splits.list_of_named (h : Splits F out out' names items split) (hnpc : npc ∈ items)
    (hnamed : NpcNamed F name npc) :
    getD (seededNpcs out) "npcs" = .list items ∧ items = npcsOf out := by
  obtain ⟨d, rfl⟩ := exists_dict_of_npcName hnamed
  have hlist := eq_list_of_iterate h.iterated hnpc
  refine ⟨hlist, ?_⟩
  rw [← npcsOf_seededNpcs]
  unfold npcsOf
  rw [hlist, PyValue.items_list]

theorem Splits.items_of_mem (h : Splits F out out' names items split) (hnpc : npc ∈ npcsOf out) :
    getD (seededNpcs out) "npcs" = .list items ∧ items = npcsOf out := by
  rw [← npcsOf_seededNpcs] at hnpc ⊢
  have hlist := eq_list_of_mem_items hnpc
  have hitems := h.iterated
  rw [hlist] at hitems
  cases hitems
  exact ⟨hlist, rfl⟩

/-- The names lead to NPCs of the dictionary that have them. -/
theorem Splits.lookup (h : Splits F out out' names items split) {i : Nat}
    (hi : names.lookup name = some i) :
    ∃ npc, (npcsOf out)[i]? = some npc ∧ NpcNamed F name npc := by
  obtain ⟨npc, hnpc, hnamed⟩ := (byName_spec h.keyed).1 name i hi
  rw [← (h.list_of_named (List.mem_of_getElem? hnpc) hnamed).2]
  exact ⟨npc, hnpc, hnamed⟩

/-- The entries of an NPC are those of its name. -/
theorem Splits.owner_iff (h : Splits F out out' names items split) {i : Nat}
    (hi : names.lookup name = some i) (entry : PyValue) :
    owner F names entry = some i ↔ Named F name entry := by
  constructor
  · intro howner
    obtain ⟨name', hnamed, hi'⟩ := named_of_owner howner
    obtain ⟨npc, hnpc, hname⟩ := h.lookup hi
    obtain ⟨npc', hnpc', hname'⟩ := h.lookup hi'
    cases hnpc.symm.trans hnpc'
    rw [Option.some.inj (Except.ok.inj (hname.symm.trans hname'))]
    exact hnamed
  · intro hnamed
    rw [owner_of_named hnamed, hi]

/-- **Merged.** The entries of an NPC's name are merged onto it. -/
theorem Splits.merged (h : Splits F out out' names items split)
    (hnpc : ∃ npc ∈ npcsOf out, NpcNamed F name npc) :
    get? out' "npcs" = some (.list split.1) ∧ ∃ npc npc', PyValue.dict npc ∈ npcsOf out ∧
      PyValue.dict npc' ∈ split.1 ∧ NpcNamed F name (.dict npc) ∧
      MergedInto ((registryOf out).filter (fun e => Named F name e)) npc npc' := by
  obtain ⟨npc, hmem, hnamed⟩ := hnpc
  obtain ⟨hlist, hitems⟩ := h.items_of_mem hmem
  have hfound := (byName_spec h.keyed).2 npc (hitems ▸ hmem) name hnamed
  obtain ⟨i, hi⟩ := Option.ne_none_iff_exists'.mp hfound
  obtain ⟨npc, hnpc, hnamed⟩ := h.lookup hi
  obtain ⟨d, rfl⟩ := exists_dict_of_npcName hnamed
  -- its own entries are those of its name
  have hown : (registryOf out).filter (fun e => owner F names e = some i) =
      (registryOf out).filter (fun e => Named F name e) := by
    apply List.filter_congr
    intro entry _
    exact decide_eq_decide.mpr (h.owner_iff hi entry)
  have hdicts : ∀ entry ∈ (registryOf out).filter (fun e => Named F name e),
      ∃ d, entry = .dict d := by
    intro entry hentry
    have hnamed' := (List.mem_filter.mp hentry).2
    exact exists_dict_of_memberName (of_decide_eq_true hnamed')
  obtain ⟨d', hfold, hmerged⟩ := mergedInto_foldl d hdicts
  have hsplit := (split_spec h.ran).1 i
  rw [hnpc, Option.map_some] at hsplit
  unfold mergedOnto at hsplit
  rw [hown, hfold] at hsplit
  refine ⟨?_, d, d', List.mem_of_getElem? hnpc, List.mem_of_getElem? hsplit, hnamed, hmerged⟩
  rw [h.npcs, hlist]
  rfl

/-- Being merged onto changes no name. -/
theorem npcName_mergedOnto (entries : List PyValue) (i : Nat) (npc : PyValue) :
    npcName (mergedOnto F names entries i npc) = npcName npc := by
  induction entries using List.reverseRecOn with
  | nil => rfl
  | append_singleton entries entry ih =>
    rw [mergedOnto_concat]
    split
    · rw [← ih]
      cases mergedOnto F names entries i npc with
      | dict d => exact npcName_of_touches (touches_seen entry.entries d)
      | _ => rfl
    · exact ih

theorem Splits.npcNamed (h : Splits F out out' names items split) (hnpc : npc ∈ split.1)
    (hnamed : NpcNamed F name npc) :
    ∃ npc ∈ npcsOf out, NpcNamed F name npc := by
  obtain ⟨i, hi⟩ := List.mem_iff_getElem?.mp hnpc
  rw [(split_spec h.ran).1 i] at hi
  obtain ⟨npc', hnpc', rfl⟩ := Option.map_eq_some_iff.mp hi
  unfold NpcNamed at hnamed
  rw [npcName_mergedOnto] at hnamed
  exact ⟨npc', List.mem_of_getElem? hnpc', hnamed⟩

/-- **Pooled.** The entries without an NPC and without HP are in the pool. -/
theorem Splits.pooled (h : Splits F out out' names items split) (hentry : entry ∈ registryOf out)
    (hnamed : Named F name entry) (hfree : hasHp entry.entries = false)
    (hnone : ∀ npc ∈ npcsOf out, ¬ NpcNamed F name npc) :
    poolMember entry.entries ∈ split.2.items := by
  refine (split_spec h.ran).2 entry hentry name hnamed ?_ hfree
  cases hi : names.lookup name with
  | none => rfl
  | some i =>
    obtain ⟨npc, hnpc, hname⟩ := h.lookup hi
    exact absurd hname (hnone npc (List.mem_of_getElem? hnpc))

end Splits

/-- **An entry of a named NPC** is merged into it. -/
theorem Stages.merged (h : Stages F data d₁ d₂ d₃ d₄ d₅ out) (hentry : entry ∈ registryOf data)
    (hnpc : ∃ npc ∈ npcsOf data, NpcNamed F name npc) :
    ∃ npc npc', PyValue.dict npc ∈ npcsOf data ∧ PyValue.dict npc' ∈ npcsOf out ∧
      NpcNamed F name (.dict npc) ∧ NpcNamed F name (.dict npc') ∧
      MergedInto ((registryOf data).filter (fun e => Named F name e)) npc npc' := by
  have t1 := touches_migrateS1 h.s1
  have hregistry : registryOf d₁ = registryOf data :=
    congrArg PyValue.items (getD_of_touches t1 (by decide))
  have hnpcs : npcsOf d₁ = npcsOf data := congrArg PyValue.items (getD_of_touches t1 (by decide))
  rw [← hregistry] at hentry ⊢
  rw [← hnpcs] at hnpc ⊢
  obtain ⟨names, items, split, hsplits⟩ := splits_of_mem_registryOf h.s2 hentry
  obtain ⟨hget, npc, npc', hmem, hmem', hnamed, hmerged⟩ := hsplits.merged hnpc
  rw [← touches_migrateS3 h.s3 _ (by decide), ← touches_migrateS4 h.s4 _ (by decide),
    ← touches_migrateS5 h.s5 _ (by decide)] at hget
  have hout := get?_migrateS6 h.s6 hget
  have hstripped := hmerged.stripVoice
  refine ⟨npc, pop npc' "voice_id", hmem, ?_, hnamed, ?_, hstripped⟩
  · unfold npcsOf getD
    rw [hout]
    exact List.mem_map_of_mem hmem'
  · unfold NpcNamed
    rw [npcName_of_touches hstripped.touched]
    exact hnamed

/-- The names of a list of NPCs. -/
theorem mem_npcNames {npcs : List PyValue} {names : List String} (h : npcNames F npcs = .ok names) :
    name ∈ names ↔ ∃ npc ∈ npcs, NpcNamed F name npc := by
  unfold npcNames at h
  rw [bind_eq_ok] at h
  obtain ⟨folded, hfolded, h⟩ := h
  have hmem : name ∈ names ↔ some name ∈ folded := by
    cases h
    simp
  rw [hmem]
  clear hmem h
  rw [mapM_eq_ok_iff] at hfolded
  induction hfolded with
  | nil => simp
  | @cons npc name' npcs folded hname hrest ih =>
    have hhead : NpcNamed F name npc ↔ some name = name' := by
      unfold NpcNamed
      rw [hname, Except.ok.injEq, eq_comm]
    simp [hhead, ih]

/-- A member with a name is kept if and only if it is no NPC's. -/
theorem keepMember_eq_ok_true_iff {names : List String} {member : PyValue} (h : Named F name member) :
    keepMember F names member = .ok true ↔ name ∉ names := by
  obtain ⟨d, rfl⟩ := exists_dict_of_memberName h
  unfold keepMember
  rw [bind_eq_ok]
  constructor
  · rintro ⟨folded, hfolded, hkeep⟩
    cases hfolded.symm.trans h
    simpa using hkeep
  · intro hnew
    exact ⟨some name, h, by simpa using hnew⟩

/-- **An entry without hit points** that no NPC has the name of goes to the pool. -/
theorem Stages.pooled (h : Stages F data d₁ d₂ d₃ d₄ d₅ out) (hentry : entry ∈ registryOf data)
    (hnamed : Named F name entry) (hfree : hasHp entry.entries = false)
    (hnone : ∀ npc ∈ npcsOf data, ¬ NpcNamed F name npc) :
    poolMember entry.entries ∈ poolOf out := by
  have t1 := touches_migrateS1 h.s1
  have hregistry : registryOf d₁ = registryOf data :=
    congrArg PyValue.items (getD_of_touches t1 (by decide))
  have hnpcs : npcsOf d₁ = npcsOf data := congrArg PyValue.items (getD_of_touches t1 (by decide))
  rw [← hregistry] at hentry
  rw [← hnpcs] at hnone
  obtain ⟨names, items, split, hsplits⟩ := splits_of_mem_registryOf h.s2 hentry
  have hmem := hsplits.pooled hentry hnamed hfree hnone
  have hpool : get? d₄ "npc_pool" = some (.list split.2.items) := by
    rw [touches_migrateS4 h.s4 _ (by decide), touches_migrateS3 h.s3 _ (by decide), hsplits.pool]
    exact congrArg some (eq_list_of_mem_items hmem)
  have hnpcs₄ : get? d₄ "npcs" =
      some (replaceItems (getD (seededNpcs d₁) "npcs") split.1) := by
    rw [touches_migrateS4 h.s4 _ (by decide), touches_migrateS3 h.s3 _ (by decide), hsplits.npcs]
  -- the later rewrites keep it
  have hkept : ∀ pool, get? d₅ "npc_pool" = some (.list pool) →
      poolMember entry.entries ∈ pool → poolMember entry.entries ∈ poolOf out := by
    intro pool hpool hin
    unfold poolOf getD
    rw [touches_migrateS6 h.s6 _ (by decide), hpool]
    exact hin
  by_cases hlist : ∀ npcs, get? d₄ "npcs" ≠ some (.list npcs)
  · have hsame : migrateS5ReconcileNpcPool F d₄ = .ok d₄ :=
      migrateS5_of_not_lists (fun npcs _ hnpcs _ => hlist npcs hnpcs)
    cases hsame.symm.trans h.s5
    exact hkept _ hpool hmem
  · push Not at hlist
    obtain ⟨npcs, hlist⟩ := hlist
    rcases kept_migrateS5 h.s5 hlist hpool with ⟨rfl, -⟩ | ⟨names₅, kept, hnames, hget, hiff⟩
    · exact hkept _ hpool hmem
    · refine hkept kept hget ((hiff _).mpr ⟨hmem, ?_⟩)
      obtain ⟨d, rfl⟩ := exists_dict_of_memberName hnamed
      have hmember : Named F name (poolMember (PyValue.dict d).entries) := hnamed
      rw [keepMember_eq_ok_true_iff hmember, mem_npcNames hnames]
      rintro ⟨npc, hnpc, hname⟩
      -- the NPCs are those of the registry's split
      have hsplit : npcs = split.1 := by
        rw [hnpcs₄] at hlist
        have hreplaced := Option.some.inj hlist
        unfold replaceItems at hreplaced
        split at hreplaced
        · exact (PyValue.list.inj hreplaced).symm
        · rename_i hnot
          exact absurd hreplaced (hnot npcs)
      obtain ⟨npc', hnpc', hname'⟩ := hsplits.npcNamed (hsplit ▸ hnpc) hname
      exact hnone npc' hnpc' hname'

/-- **No name is in both lists** in the end. -/
theorem Stages.apart (h : Stages F data d₁ d₂ d₃ d₄ d₅ out) {member : PyValue}
    (hnpc : npc ∈ npcsOf out) (hmember : member ∈ poolOf out) :
    ¬ (NpcNamed F name npc ∧ Named F name member) := by
  rintro ⟨hname, hname'⟩
  have hpool := get?_of_mem_items hmember
  rw [touches_migrateS6 h.s6 _ (by decide)] at hpool
  -- the NPC had its name before its voice was stripped
  obtain ⟨npcs, hnpcs, npc', hnpc', hnamed⟩ : ∃ npcs, get? d₅ "npcs" = some (.list npcs) ∧
      ∃ npc' ∈ npcs, NpcNamed F name npc' := by
    by_cases hlist : ∀ npcs, get? d₅ "npcs" ≠ some (.list npcs)
    · obtain rfl := eq_of_migrateS6 h.s6 hlist
      exact absurd (get?_of_mem_items hnpc) (hlist _)
    · push Not at hlist
      obtain ⟨npcs, hlist⟩ := hlist
      have hstripped := get?_migrateS6 h.s6 hlist
      unfold npcsOf getD at hnpc
      rw [hstripped] at hnpc
      obtain ⟨npc', hnpc', rfl⟩ := List.mem_map.mp hnpc
      unfold NpcNamed at hname
      rw [npcName_stripVoice] at hname
      exact ⟨npcs, hlist, npc', hnpc', hname⟩
  rw [touches_migrateS5 h.s5 _ (by decide)] at hnpcs
  by_cases hlist : ∀ pool, get? d₄ "npc_pool" ≠ some (.list pool)
  · have hsame : migrateS5ReconcileNpcPool F d₄ = .ok d₄ :=
      migrateS5_of_not_lists (fun _ pool _ => hlist pool)
    cases hsame.symm.trans h.s5
    exact hlist _ hpool
  · push Not at hlist
    obtain ⟨pool, hlist⟩ := hlist
    rcases kept_migrateS5 h.s5 hnpcs hlist with ⟨rfl, hnil | hnil | hnames⟩ |
      ⟨names, kept, hnames, hget, hiff⟩
    · rw [hnil] at hnpc'
      simp at hnpc'
    · have hempty := PyValue.list.inj (Option.some.inj (hpool.symm.trans hlist))
      unfold poolOf at hmember
      rw [hempty, hnil] at hmember
      simp at hmember
    · cases (mem_npcNames hnames).mpr ⟨npc', hnpc', hnamed⟩
    · have hkept := PyValue.list.inj (Option.some.inj (hget.symm.trans hpool))
      have hmem := (hiff member).mp (hkept ▸ hmember)
      rw [keepMember_eq_ok_true_iff hname', mem_npcNames hnames] at hmem
      exact hmem.2 ⟨npc', hnpc', hnamed⟩

end Stages

/-- **What a migration keeps**, whenever it returns. -/
theorem migrated_of_eq_ok {data : PyDict} (h : migrated F data = .ok out) : Migrated F data out := by
  obtain ⟨d₁, d₂, d₃, d₄, d₅, h⟩ := migrated_eq_ok_iff.mp h
  exact
    { apart := fun _ _ hnpc _ hmember => h.apart hnpc hmember
      merged := fun _ _ hentry _ hnpc => h.merged hentry hnpc
      pooled := fun _ _ hentry hnamed hfree hnone => h.pooled hentry hnamed hfree hnone
      locations := fun _ hknown => h.locations hknown
      regions := fun _ hknown => h.regions hknown }

/-! ### The migration -/

theorem exec_rewriteOut (sub : PyDict → Except PyError PyDict) (s : Store) :
    ∃ out, (rewriteOut sub).exec s = ((sub s.out).map (fun _ => ⟨⟩), { s with out := out }) ∧
      ∀ out', sub s.out = .ok out' → out = out' := by
  unfold rewriteOut
  rw [exec_get_bind]
  cases hsub : sub s.out with
  | error e => exact ⟨s.out, rfl, fun _ h => nomatch h⟩
  | ok out => exact ⟨out, rfl, fun _ h => Except.ok.inj h⟩

/-- Running the rewrites on the copy is running them one after the other. -/
theorem exec_forM_rewriteOut (subs : List (PyDict → Except PyError PyDict)) (s : Store) :
    ∃ out, (subs.forM rewriteOut).exec s =
        ((runAll subs s.out).map (fun _ => ⟨⟩), { s with out := out }) ∧
      ∀ out', runAll subs s.out = .ok out' → out = out' := by
  induction subs generalizing s with
  | nil => exact ⟨s.out, rfl, fun _ h => Except.ok.inj h⟩
  | cons sub subs ih =>
    obtain ⟨out, hsub, hout⟩ := exec_rewriteOut sub s
    unfold runAll
    rw [List.foldlM_cons, exec_forM_cons, exec_bind, hsub]
    cases hresult : sub s.out with
    | error e => exact ⟨out, rfl, fun _ h => absurd h (by simp [bind, Except.bind])⟩
    | ok out' =>
      obtain rfl := hout out' hresult
      exact ih { s with out := out }

/-- The migration is that of the copy. -/
theorem exec_migrateLegacySnapshot (F : CaseFold) (s : Store) :
    ∃ out, (migrateLegacySnapshot F).exec s = (migrated F s.data, { s with out := out }) := by
  obtain ⟨out, hsubs, hout⟩ := exec_forM_rewriteOut (migrations F) { s with out := s.data }
  refine ⟨out, ?_⟩
  unfold migrateLegacySnapshot migrated
  rw [exec_modify_bind, exec_bind, hsubs]
  cases hfold : runAll (migrations F) s.data with
  | error e => rfl
  | ok out' =>
    obtain rfl := hout out' hfold
    rfl

/-- **A migration that returns** is idempotent and leaves its input; no name is an NPC's and a pool
    member's; every named entry without HP survives; and no character's place is overwritten. -/
theorem migrateLegacySnapshot_spec {s s' : Store}
    (h : (migrateLegacySnapshot F).exec s = (.ok out, s')) : s'.data = s.data ∧
      (∀ t : Store, t.data = out → ∃ t', (migrateLegacySnapshot F).exec t = (.ok out, t')) ∧
      Migrated F s.data out := by
  obtain ⟨copy, hexec⟩ := exec_migrateLegacySnapshot F s
  obtain ⟨hmigrated, rfl⟩ := Prod.mk.inj (hexec.symm.trans h)
  refine ⟨rfl, ?_, migrated_of_eq_ok hmigrated⟩
  rintro t rfl
  obtain ⟨copy', hagain⟩ := exec_migrateLegacySnapshot F t
  rw [(canonical_of_migrated hmigrated).migrated_eq] at hagain
  exact ⟨_, hagain⟩

/-- Folding the letters of ASCII. -/
def asciiFold : CaseFold := ⟨fun c => [c.toLower], fun _ => List.cons_ne_nil _ _⟩

/-- A legacy snapshot: an NPC, and a registry with an entry of that NPC and one of another. -/
def legacySave : PyDict :=
  [("npcs", .list [.dict [("core", .dict [("name", .str "Mara")])]]),
    ("npc_registry", .list
      [.dict [("name", .str "MARA"), ("last_seen_turn", .num 3)], .dict [("name", .str "Gus")]]),
    ("location", .str "Quay"),
    ("player_seats", .dict [("p1", .str "Ann")])]

/-- It is migrated. -/
theorem migrateLegacySnapshot_legacySave :
    ∃ out s', (migrateLegacySnapshot asciiFold).exec ⟨legacySave, []⟩ = (.ok out, s') ∧
      Migrated asciiFold legacySave out := by
  obtain ⟨out, s', h⟩ : ∃ out s',
      (migrateLegacySnapshot asciiFold).exec ⟨legacySave, []⟩ = (.ok out, s') := ⟨_, _, rfl⟩
  exact ⟨out, s', h, (migrateLegacySnapshot_spec h).2.2⟩

end Sidequest.Migrations
