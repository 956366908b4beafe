import Sidequest.Lib.Run
import Sidequest.World.Regions

namespace Sidequest.World

open Lib

/-!
# The ledger of relocations

Every genuine move of a single character stamps a receipt. Over a run of patches, a character's
receipts lead from the region it had before it was first moved to the region it has at the end,
unless a patch gave it an empty region: an empty region is set without a receipt, and the next
receipt comes from nowhere.

* `SamePlaces` — what the other branches leave alone;
* `patched` — one patch of a run, which may raise;
* `explains_trail` — the receipts of every run explain the map;
* `noticesTrue_iff_accountable` — these are the patches whose notices match.
-/

section

section

variable {F : Type} (ctx : PatchContext F)

/-! ### The other branches -/

/-- Nobody moved, and nobody was told of anything. -/
structure SamePlaces (s s' : Session) : Prop where
  pcRegions : s'.pcRegions = s.pcRegions
  regionTransitions : s'.regionTransitions = s.regionTransitions
  notified : s'.notified = s.notified

instance : IsPreorder Session SamePlaces where
  refl _ := ⟨rfl, rfl, rfl⟩
  trans _ _ _ h h' := ⟨h'.pcRegions.trans h.pcRegions,
    h'.regionTransitions.trans h.regionTransitions, h'.notified.trans h.notified⟩

variable (patch : WorldStatePatch F)

variable (s : Session)

/-- The scene is set without a move. -/
theorem samePlaces_applyScene : SamePlaces s (applyScene patch s) := by
  unfold applyScene applyLocation
  cases patch.location with
  | none => exact ⟨rfl, rfl, rfl⟩
  | some location => exact ⟨rfl, rfl, rfl⟩

theorem currentRegion_applyScene : (applyScene patch s).currentRegion = s.currentRegion := by
  unfold applyScene applyLocation
  cases patch.location with
  | none => rfl
  | some location => rfl

theorem party_applyScene : (applyScene patch s).party = s.party := by
  unfold applyScene applyLocation
  cases patch.location with
  | none => rfl
  | some location => rfl

theorem interaction_applyScene : (applyScene patch s).interaction = s.interaction := by
  unfold applyScene applyLocation
  cases patch.location with
  | none => rfl
  | some location => rfl

/-- Characters, creatures and the ids drawn may differ, and nothing else. -/
structure SameButCast (s s' : Session) : Prop where
  eq : s' = { s with characters := s'.characters, npcs := s'.npcs, idsDrawn := s'.idsDrawn }

instance : IsPreorder Session SameButCast where
  refl _ := ⟨rfl⟩
  trans _ _ _ h h' := ⟨by rw [h'.eq, h.eq]⟩

theorem SameButCast.samePlaces {s s' : Session} (h : SameButCast s s') : SamePlaces s s' := by
  rw [h.eq]
  exact ⟨rfl, rfl, rfl⟩

theorem sameButCast_validateFact (fact : F) : Preserves SameButCast (validateFact ctx fact) := by
  unfold validateFact
  cases ctx.modelValidate fact with
  | none => exact preserves_throw PatchError.invalidFact
  | some build =>
    refine preserves_get.bind (fun s => ?_)
    exact (preserves_modify (fun s => ⟨rfl⟩)).bind (fun _ => preserves_pure _)

theorem sameButCast_applyDiscoveredFacts :
    Preserves SameButCast (applyDiscoveredFacts ctx patch) := by
  refine preserves_forM (fun df => preserves_get.bind (fun s => ?_)) _
  refine preserves_forM (fun ch => ?_) _
  refine Preserves.ite ?_ (preserves_pure ())
  exact (sameButCast_validateFact ctx df.fact).bind (fun fact => preserves_modify (fun s => ⟨rfl⟩))

theorem sameButCast_applyCreatures : SameButCast s (applyCreatures patch s) := by
  have hhp : ∀ (changes : List (String × Int)) (s : Session),
      SameButCast s (changes.foldl applyHpChange s) := by
    intro changes
    induction changes with
    | nil => exact fun s => refl_of SameButCast s
    | cons change changes ih =>
      intro s
      have hfirst : SameButCast s (applyHpChange s change) := by
        unfold applyHpChange
        split
        · exact ⟨rfl⟩
        · exact ⟨rfl⟩
      exact trans_of SameButCast hfirst (ih (applyHpChange s change))
  have hattitude : ∀ (changes : List (String × Int)) (s : Session),
      SameButCast s (changes.foldl applyAttitude s) := by
    intro changes
    induction changes with
    | nil => exact fun s => refl_of SameButCast s
    | cons change changes ih =>
      intro s
      have hfirst : SameButCast s (applyAttitude s change) := ⟨rfl⟩
      exact trans_of SameButCast hfirst (ih (applyAttitude s change))
  exact trans_of SameButCast (hhp _ s) (hattitude _ _)

variable (patch : WorldStatePatch F)

/-- The branches behind the region branches. -/
def applyRest : Effect PatchError Session Unit := do
  modify (applyMap ctx patch)
  applyDiscoveredFacts ctx patch
  modify (applyCreatures patch)

theorem samePlaces_applyRest : Preserves SamePlaces (applyRest ctx patch) := by
  refine (preserves_modify (fun s => ⟨rfl, rfl, rfl⟩)).bind (fun _ => ?_)
  have hcast : ∀ s s', SameButCast s s' → SamePlaces s s' := fun _ _ h => h.samePlaces
  refine ((sameButCast_applyDiscoveredFacts ctx patch).mono hcast).bind (fun _ => ?_)
  exact preserves_modify (fun s => (sameButCast_applyCreatures patch s).samePlaces)

/-! ### Gatherings -/

/-- A move of the anchor: where it was, where it is, and for whom the seam was fired. -/
structure Gathering where
  fromRegion : Option String
  toRegion : String
  told : List String

variable (s : Session)

/-- The gathering the `current_region` branch calls for, from the state it starts in. -/
def gatheringAt : Option Gathering :=
  match patch.currentRegion with
  | none => none
  | some region =>
    if region ≠ "" ∧ region ≠ s.currentRegion then
      some
        { fromRegion := orNone (some s.currentRegion)
          toRegion := region
          told := told ctx (orNone (some s.currentRegion)) region (setAnchor region s) }
    else none

/-- The gathering a patch calls for: none where the `pc_region` branch raises. -/
def gathering : Option Gathering :=
  match (applyPcRegion ctx patch).exec (applyScene patch s) with
  | (.ok _, s') => gatheringAt ctx patch s'
  | (.error _, _) => none

/-- The region of a character, when those of the party who have none are gathered. -/
def Gathering.place (g : Gathering) (s : Session) (regions : Dict String String)
    (pcName : String) : Option String :=
  if pcName ∈ s.party ∧ regions.get? pcName = none then some g.toRegion else regions.get? pcName

/-- The notices of a gathering. -/
def Gathering.notices (g : Gathering) : List RegionNotice :=
  g.told.map (anchorNotice g.fromRegion g.toRegion)

/-- The map after a gathering, if there was one. -/
structure Gathered (s s' : Session) (g : Option Gathering) : Prop where
  sameCast : SameCast s s'
  pcRegions : ∀ pcName, s'.pcRegions.get? pcName =
    g.elim (s.pcRegions.get? pcName) (fun g => g.place s s.pcRegions pcName)
  regionTransitions : s'.regionTransitions = s.regionTransitions
  notified : s'.notified = s.notified ++ g.elim [] Gathering.notices

/-- **The `current_region` branch** is the gathering it calls for. -/
theorem gathered_applyCurrentRegion :
    Gathered s ((applyCurrentRegion ctx patch).exec s).2 (gatheringAt ctx patch s) := by
  unfold applyCurrentRegion gatheringAt
  cases patch.currentRegion with
  | none => exact ⟨SameCast.refl s, fun _ => rfl, rfl, (List.append_nil s.notified).symm⟩
  | some region =>
    have hanchor : SameCast s (setAnchor region s) :=
      ⟨rfl, rfl, rfl, rfl, rfl, rfl, rfl, rfl, rfl, rfl⟩
    rw [Effect.exec_bind, Effect.exec_get]
    dsimp only
    rw [Effect.exec_bind, Effect.exec_modify]
    by_cases hmoves : region ≠ "" ∧ region ≠ s.currentRegion
    · rw [if_pos hmoves, if_pos hmoves]
      have hquiet := quiet_gatherParty ctx (orNone (some s.currentRegion)) region
        (setAnchor region s)
      exact
        { sameCast :=
            hanchor.trans ((sameCast_gatherOnMap _ _ _ _).trans hquiet.toSameCast)
          pcRegions := by
            intro pcName
            rw [hquiet.pcRegions, pcRegions_gatherOnMap, get?_seedMissing]
            rfl
          regionTransitions := by
            rw [hquiet.regionTransitions, regionTransitions_gatherOnMap]
            rfl
          notified := by
            rw [hquiet.notified, notified_gatherOnMap]
            rfl }
    · rw [if_neg hmoves, if_neg hmoves]
      exact ⟨hanchor, fun _ => rfl, rfl, (List.append_nil s.notified).symm⟩

/-- The map of a party that has moved, as the gathering finds it. -/
theorem place_congr {g : Option Gathering} {s s' : Session} {regions : Dict String String}
    {pcName : String} (h : s'.party = s.party) :
    g.elim (regions.get? pcName) (·.place s' regions pcName)
      = g.elim (regions.get? pcName) (·.place s regions pcName) := by
  cases g with
  | none => rfl
  | some g =>
    show g.place s' regions pcName = g.place s regions pcName
    unfold Gathering.place
    rw [h]

/-! ### The whole patch -/

/-- The moves a patch comes to. -/
def movesOf : List (String × String) :=
  movesReached ctx patch (applyScene patch s)

theorem nodup_movesOf : ((movesOf ctx patch s).map Prod.fst).Nodup := by
  unfold movesOf movesReached
  cases patch.pcRegion with
  | none => exact List.nodup_nil
  | some moves => exact moves.nodup.sublist ((reached_sublist _ _ _).map Prod.fst)

/-- The map of a state after the patch: who was moved is there, who had no region is gathered, and
    notices and receipts are those of the moves, and of the gathering. -/
structure Relocated (s s' : Session) (moves : List (String × String)) (g : Option Gathering) :
    Prop where
  pcRegions : ∀ pcName, s'.pcRegions.get? pcName =
    g.elim ((moves.foldl moveOnMap s).pcRegions.get? pcName)
      (fun g => g.place s (moves.foldl moveOnMap s).pcRegions pcName)
  regionTransitions : s'.regionTransitions = s.regionTransitions
    ++ (moves.filterMap (crossing s.pcRegions)).map (receipt s.interaction)
  notified : s'.notified
    = s.notified ++ (moves.filterMap (crossing s.pcRegions) ++ g.elim [] Gathering.notices)

theorem foldl_moveOnMap_applyScene (moves : List (String × String)) (patch : WorldStatePatch F)
    (s : Session) : (moves.foldl moveOnMap (applyScene patch s)).pcRegions
      = (moves.foldl moveOnMap s).pcRegions := by
  have h : ∀ s' s'' : Session, s''.pcRegions = s'.pcRegions →
      (moves.foldl moveOnMap s'').pcRegions = (moves.foldl moveOnMap s').pcRegions := by
    induction moves with
    | nil => exact fun _ _ heq => heq
    | cons move moves ih =>
      intro s' s'' heq
      apply ih
      rw [pcRegions_moveOnMap, pcRegions_moveOnMap, heq]
  exact h s (applyScene patch s) (samePlaces_applyScene patch s).pcRegions

/-- The map when the `pc_region` branch ends. -/
structure Arrived (s s' : Session) (moves : List (String × String)) : Prop where
  party : s'.party = s.party
  pcRegions : s'.pcRegions = (moves.foldl moveOnMap s).pcRegions
  regionTransitions : s'.regionTransitions = s.regionTransitions
    ++ (moves.filterMap (crossing s.pcRegions)).map (receipt s.interaction)
  notified : s'.notified = s.notified ++ moves.filterMap (crossing s.pcRegions)

/-- **The moves of a patch.** The scene that is set before does not matter to the map, nor does the
    anchor's sync behind the moves. -/
theorem arrived_applyPcRegion :
    Arrived s ((applyPcRegion ctx patch).exec (applyScene patch s)).2 (movesOf ctx patch s) := by
  have hscene := samePlaces_applyScene patch s
  have hmoved : Arrived s ((movesOf ctx patch s).foldl moveOnMap (applyScene patch s))
      (movesOf ctx patch s) :=
    { party := (sameCast_moves _ (applyScene patch s)).party_eq.trans (party_applyScene patch s)
      pcRegions := foldl_moveOnMap_applyScene (movesOf ctx patch s) patch s
      regionTransitions := by
        rw [regionTransitions_moves _ (nodup_movesOf ctx patch s), hscene.regionTransitions,
          hscene.pcRegions, interaction_applyScene]
      notified := by
        rw [notified_moves _ (nodup_movesOf ctx patch s), hscene.notified, hscene.pcRegions] }
  have hbranch := quiet_applyPcRegion ctx patch (applyScene patch s)
  rcases hexec : (applyPcRegion ctx patch).exec (applyScene patch s) with ⟨e | u, s'⟩
  · rw [hexec] at hbranch
    exact
      { party := hbranch.toSameCast.party_eq.trans hmoved.party
        pcRegions := hbranch.pcRegions.trans hmoved.pcRegions
        regionTransitions := hbranch.regionTransitions.trans hmoved.regionTransitions
        notified := hbranch.notified.trans hmoved.notified }
  · rw [hexec] at hbranch
    have hsynced : Arrived s (afterMoves patch (applyScene patch s)) (movesOf ctx patch s) := by
      have hall := movesReached_of_ok ctx hexec
      unfold movesOf at hmoved ⊢
      unfold afterMoves
      rw [hall] at hmoved ⊢
      cases hpatch : patch.pcRegion with
      | none =>
        rw [hpatch] at hmoved
        exact hmoved
      | some moves =>
        rw [hpatch] at hmoved
        exact ⟨hmoved.party, hmoved.pcRegions, hmoved.regionTransitions, hmoved.notified⟩
    exact
      { party := hbranch.toSameCast.party_eq.trans hsynced.party
        pcRegions := hbranch.pcRegions.trans hsynced.pcRegions
        regionTransitions := hbranch.regionTransitions.trans hsynced.regionTransitions
        notified := hbranch.notified.trans hsynced.notified }

/-- **A patch on the map.** Whether it returns or raises, a patch makes the moves it comes to and
    the gathering it calls for. -/
theorem relocated_applyWorldPatch :
    Relocated s ((applyWorldPatch ctx patch).exec s).2 (movesOf ctx patch s)
      (gathering ctx patch s) := by
  have harrived := arrived_applyPcRegion ctx patch s
  have hexec : (applyWorldPatch ctx patch).exec s =
      (applyPcRegion ctx patch >>= fun _ => applyCurrentRegion ctx patch >>= fun _ =>
        applyRest ctx patch).exec (applyScene patch s) := rfl
  rw [hexec, Effect.exec_bind]
  unfold gathering
  rcases hmoves : (applyPcRegion ctx patch).exec (applyScene patch s) with ⟨e | u, s₁⟩
  · -- the moves raise, and nothing is gathered
    rw [hmoves] at harrived
    exact
      { pcRegions := fun pcName => congrArg (Dict.get? · pcName) harrived.pcRegions
        regionTransitions := harrived.regionTransitions
        notified := by
          rw [Option.elim_none, List.append_nil]
          exact harrived.notified }
  · rw [hmoves] at harrived
    have hgather := gathered_applyCurrentRegion ctx patch s₁
    -- the branches behind the anchor move nobody
    have hrest : SamePlaces ((applyCurrentRegion ctx patch).exec s₁).2
        ((applyCurrentRegion ctx patch >>= fun _ => applyRest ctx patch).exec s₁).2 := by
      rw [Effect.exec_bind]
      rcases (applyCurrentRegion ctx patch).exec s₁ with ⟨e | u', s₂⟩
      · exact refl_of SamePlaces s₂
      · exact samePlaces_applyRest ctx patch s₂
    exact
      { pcRegions := by
          intro pcName
          rw [hrest.pcRegions, hgather.pcRegions, place_congr harrived.party, harrived.pcRegions]
        regionTransitions := by
          rw [hrest.regionTransitions, hgather.regionTransitions, harrived.regionTransitions]
        notified := by
          rw [hrest.notified, hgather.notified, harrived.notified, List.append_assoc] }

/-- A character that is moved is where it is moved to, and no gathering takes it elsewhere. -/
theorem Relocated.get?_of_mem {ctx : PatchContext F} {patch : WorldStatePatch F} {s s' : Session} {g : Option Gathering}
    (h : Relocated s s' (movesOf ctx patch s) g) {move : String × String}
    (hmem : move ∈ movesOf ctx patch s) : s'.pcRegions.get? move.1 = some move.2 := by
  have hmoved := get?_moves_of_mem s (nodup_movesOf ctx patch s) hmem
  rw [h.pcRegions]
  cases g with
  | none => exact hmoved
  | some g =>
    show g.place s _ move.1 = some move.2
    unfold Gathering.place
    rw [hmoved, if_neg (fun hno => nomatch hno.2)]

/-- A gathering is at a region, and those told of it are elsewhere until then, if they are of the
    party. -/
theorem gathering_eq_some {patch : WorldStatePatch F} {s : Session} {g : Gathering}
    (h : gathering ctx patch s = some g) :
    g.toRegion ≠ "" ∧ ∀ pcName ∈ g.told, pcName ≠ anchorName → pcName ∈ s.party ∧
      ((movesOf ctx patch s).foldl moveOnMap s).pcRegions.get? pcName ≠ some g.toRegion := by
  have harrived := arrived_applyPcRegion ctx patch s
  unfold gathering at h
  rcases hmoves : (applyPcRegion ctx patch).exec (applyScene patch s) with ⟨e | u, s₁⟩
  · rw [hmoves] at h
    simp at h
  · rw [hmoves] at h harrived
    unfold gatheringAt at h
    cases hpatch : patch.currentRegion with
    | none =>
      rw [hpatch] at h
      simp at h
    | some region =>
      rw [hpatch] at h
      dsimp only at h
      by_cases hgo : region ≠ "" ∧ region ≠ s₁.currentRegion
      · rw [if_pos hgo] at h
        cases h
        refine ⟨hgo.1, fun pcName hpc hne => ?_⟩
        have hherald : pcName ∈ heralded region (setAnchor region s₁).toGameSnapshot :=
          (reached_sublist _ _ _).subset hpc
        unfold heralded at hherald
        split at hherald
        · exact absurd (List.mem_singleton.mp hherald) hne
        · unfold absentees at hherald
          rw [List.mem_filter] at hherald
          rw [← harrived.party, ← harrived.pcRegions]
          exact ⟨hherald.1, of_decide_eq_true hherald.2⟩
      · rw [if_neg hgo] at h
        simp at h

end

variable {F : Type}

/-- One patch of a run, with what it is applied with. A patch that raises stays half-applied. -/
def patched (s : Session) (e : PatchContext F × WorldStatePatch F) : Session :=
  ((applyWorldPatch e.1 e.2).exec s).2

/-- The character's receipts from one state to the next. -/
def trail (pcName : String) (s s' : Session) : List RegionTransition :=
  (s'.regionTransitions.drop s.regionTransitions.length).filter (fun r => r.pcName = pcName)

/-- The character's region before a patch of the run moves it for the first time. Until then it is
    the one it starts with, or the one it is seeded with. -/
def homeRegion (pcName : String) :
    Session → List (PatchContext F × WorldStatePatch F) → Option String
  | s, [] => s.pcRegions.get? pcName
  | s, e :: es =>
    if pcName ∈ (movesOf e.1 e.2 s).map Prod.fst then s.pcRegions.get? pcName
    else homeRegion pcName (patched s e) es

variable (es : List (PatchContext F × WorldStatePatch F))

/-- A patch of the run gives the character an empty region. -/
def ClearedBy (pcName : String) : Prop :=
  ∃ e ∈ es, ∃ moves, e.2.pcRegion = some moves ∧ (pcName, "") ∈ moves.entries

/-- The receipts lead from region to region, each from where the one before it went, and the last
    to where the character is; for a character whose region may have been cleared, a receipt may
    come from nowhere, and the character may be nowhere. -/
def Explains (cleared : Prop) : Option String → List RegionTransition → Option String → Prop
  | home, [], now => now = home ∨ (cleared ∧ now = some "")
  | home, r :: rs, now =>
    (r.fromRegion = orNone home ∨ (cleared ∧ r.fromRegion = none)) ∧ r.toRegion ≠ "" ∧
      Explains cleared (some r.toRegion) rs now

theorem Explains.mono {cleared cleared' : Prop} (hc : cleared → cleared') {home now : Option String}
    {rs : List RegionTransition} (h : Explains cleared home rs now) :
    Explains cleared' home rs now := by
  induction rs generalizing home with
  | nil => exact h.imp_right (fun hcl => ⟨hc hcl.1, hcl.2⟩)
  | cons r rs ih => exact ⟨h.1.imp_right (fun hcl => ⟨hc hcl.1, hcl.2⟩), h.2.1, ih h.2.2⟩

/-- Receipts that lead on from where others led to. -/
theorem Explains.append {cleared : Prop} {home mid now : Option String}
    {rs rs' : List RegionTransition} (h : Explains cleared home rs mid)
    (h' : Explains cleared mid rs' now) : Explains cleared home (rs ++ rs') now := by
  induction rs generalizing home with
  | cons r rs ih => exact ⟨h.1, h.2.1, ih h.2.2⟩
  | nil =>
    rcases h with rfl | ⟨hcl, rfl⟩
    · exact h'
    · -- from a cleared region, one is nowhere or comes from nowhere
      cases rs' with
      | nil => exact .inr ⟨hcl, h'.elim id And.right⟩
      | cons r rs' =>
        have hfrom : r.fromRegion = none := h'.1.elim id And.right
        exact ⟨.inr ⟨hcl, hfrom⟩, h'.2⟩

/-! ### One patch -/

theorem filter_receipts_of_not_mem {regions : Dict String String} {turn : Nat} {pcName : String}
    {moves : List (String × String)} (h : pcName ∉ moves.map Prod.fst) :
    ((moves.filterMap (crossing regions)).map (receipt turn)).filter (·.pcName = pcName)
      = [] := by
  rw [List.filter_eq_nil_iff]
  intro r hr
  obtain ⟨notice, hnotice, rfl⟩ := List.mem_map.mp hr
  obtain ⟨move, hmem, hmove⟩ := List.mem_filterMap.mp hnotice
  have hne : notice.pcName ≠ pcName := by
    intro heq
    exact h (heq ▸ (crossing_eq_some hmove).1 ▸ List.mem_map_of_mem hmem)
  show ¬ decide (notice.pcName = pcName) = true
  simpa using hne

variable {move : String × String}

theorem filter_receipts_of_mem {regions : Dict String String} {turn : Nat}
    {moves : List (String × String)} (hnd : (moves.map Prod.fst).Nodup) (h : move ∈ moves) :
    ((moves.filterMap (crossing regions)).map (receipt turn)).filter (·.pcName = move.1)
      = ((crossing regions move).map (receipt turn)).toList := by
  obtain ⟨before, after, rfl⟩ := List.append_of_mem h
  rw [List.map_append, List.map_cons, List.nodup_middle, List.nodup_cons, List.mem_append,
    not_or] at hnd
  have hothers : ∀ others : List (String × String), move.1 ∉ others.map Prod.fst →
      ((others.filterMap (crossing regions)).map (receipt turn)).filter
        (·.pcName = move.1) = [] := fun _ hno => filter_receipts_of_not_mem hno
  have hbefore := hothers before hnd.1.1
  have hafter := hothers after hnd.1.2
  rw [List.filterMap_append, List.map_append, List.filter_append, hbefore, List.nil_append]
  cases hcross : crossing regions move with
  | none =>
    rw [List.filterMap_cons_none hcross, hafter]
    rfl
  | some notice =>
    have hname : notice.pcName = move.1 := (crossing_eq_some hcross).1
    have hkeep : decide ((receipt turn notice).pcName = move.1) = true := decide_eq_true hname
    rw [List.filterMap_cons_some hcross, List.map_cons, List.filter_cons, if_pos hkeep, hafter]
    rfl

section Patch

variable (e : PatchContext F × WorldStatePatch F) (s : Session) (pcName : String)

theorem trail_patched : trail pcName s (patched s e)
    = (((movesOf e.1 e.2 s).filterMap (crossing s.pcRegions)).map
        (receipt s.interaction)).filter (·.pcName = pcName) := by
  have hrel := relocated_applyWorldPatch e.1 e.2 s
  unfold trail patched
  rw [hrel.regionTransitions, List.drop_left]

theorem get?_patched_of_some {region : String} (hmem : pcName ∉ (movesOf e.1 e.2 s).map Prod.fst)
    (hregion : s.pcRegions.get? pcName = some region) :
    (patched s e).pcRegions.get? pcName = some region := by
  have hrel := relocated_applyWorldPatch e.1 e.2 s
  have hmoved := (get?_moves_of_not_mem s hmem).trans hregion
  unfold patched
  rw [hrel.pcRegions]
  cases gathering e.1 e.2 s with
  | none => exact hmoved
  | some g =>
    show g.place s _ pcName = some region
    unfold Gathering.place
    rw [hmoved, if_neg (fun hno => nomatch hno.2)]

theorem get?_patched_of_mem (hmem : move ∈ movesOf e.1 e.2 s) :
    (patched s e).pcRegions.get? move.1 = some move.2 :=
  (relocated_applyWorldPatch e.1 e.2 s).get?_of_mem hmem

/-- An empty region that a patch comes to is one that it gives. -/
theorem clearedBy_of_move (hmem : move ∈ movesOf e.1 e.2 s) (hempty : move.2 = "") :
    ClearedBy [e] move.1 := by
  unfold movesOf movesReached at hmem
  cases hpatch : e.2.pcRegion with
  | none =>
    rw [hpatch] at hmem
    simp at hmem
  | some moves =>
    rw [hpatch] at hmem
    have hentry := (reached_sublist _ _ _).subset hmem
    refine ⟨e, List.mem_singleton.mpr rfl, moves, hpatch, ?_⟩
    rw [← hempty]
    exact hentry

/-- **One patch.** The receipts of a character that is moved lead from its region before the patch
    to its region after it. -/
theorem explains_patched (hmem : pcName ∈ (movesOf e.1 e.2 s).map Prod.fst) :
    Explains (ClearedBy [e] pcName) (s.pcRegions.get? pcName) (trail pcName s (patched s e))
      ((patched s e).pcRegions.get? pcName) := by
  obtain ⟨move, hmove, rfl⟩ := List.mem_map.mp hmem
  rw [trail_patched, filter_receipts_of_mem (nodup_movesOf e.1 e.2 s) hmove,
    get?_patched_of_mem e s hmove]
  unfold crossing
  by_cases hgo : move.2 ≠ "" ∧ s.pcRegions.get? move.1 ≠ some move.2
  · rw [if_pos hgo]
    exact ⟨.inl rfl, hgo.1, .inl rfl⟩
  · rw [if_neg hgo]
    by_cases hempty : move.2 = ""
    · exact .inr ⟨clearedBy_of_move e s hmove hempty, congrArg some hempty⟩
    · have hsame : s.pcRegions.get? move.1 = some move.2 := by
        by_contra hne
        exact hgo ⟨hempty, hne⟩
      exact .inl hsame.symm

end Patch

/-! ### Runs -/

/-- A character that has a region has it until it is moved for the first time. -/
theorem homeRegion_of_some {pcName region : String} {s : Session}
    (h : s.pcRegions.get? pcName = some region) : homeRegion pcName s es = some region := by
  induction es generalizing s with
  | nil => exact h
  | cons e es ih =>
    unfold homeRegion
    by_cases hmem : pcName ∈ (movesOf e.1 e.2 s).map Prod.fst
    · rw [if_pos hmem]
      exact h
    · rw [if_neg hmem]
      exact ih (get?_patched_of_some e s pcName hmem h)

/-- The ledger only grows. -/
theorem regionTransitions_prefix_run (s : Session) :
    s.regionTransitions <+: (run patched s es).regionTransitions := by
  induction es generalizing s with
  | nil => exact List.prefix_refl _
  | cons e es ih =>
    have hfirst : s.regionTransitions <+: (patched s e).regionTransitions := by
      unfold patched
      rw [(relocated_applyWorldPatch e.1 e.2 s).regionTransitions]
      exact List.prefix_append _ _
    exact hfirst.trans (ih (patched s e))

/-- The receipts of a run are those of its first patch and those of the rest. -/
theorem trail_append {pcName : String} {s s' s'' : Session}
    (h : s.regionTransitions <+: s'.regionTransitions)
    (h' : s'.regionTransitions <+: s''.regionTransitions) :
    trail pcName s s'' = trail pcName s s' ++ trail pcName s' s'' := by
  obtain ⟨first, hfirst⟩ := h
  obtain ⟨rest, hrest⟩ := h'
  unfold trail
  rw [← hrest, List.drop_left, ← hfirst, List.append_assoc, List.drop_left, List.drop_left,
    List.filter_append]

theorem ClearedBy.mono {es es' : List (PatchContext F × WorldStatePatch F)} {pcName : String}
    (hsub : ∀ e ∈ es, e ∈ es') (h : ClearedBy es pcName) : ClearedBy es' pcName := by
  obtain ⟨e, he, hclear⟩ := h
  exact ⟨e, hsub e he, hclear⟩

/-- **The ledger explains the map.** In every run of patches, from every state, a character's
    receipts lead from its region before it was first moved to its region at the end, each from
    where the one before it went; only a character to whom a patch of the run gives an empty region
    may be nowhere, and may come from nowhere. -/
theorem explains_trail (pcName : String) (es : List (PatchContext F × WorldStatePatch F))
    (s : Session) :
    Explains (ClearedBy es pcName) (homeRegion pcName s es) (trail pcName s (run patched s es))
      ((run patched s es).pcRegions.get? pcName) := by
  induction es generalizing s with
  | nil =>
    have hnil : trail pcName s s = [] := by
      unfold trail
      rw [List.drop_length, List.filter_nil]
    show Explains _ _ (trail pcName s s) _
    rw [hnil]
    exact .inl rfl
  | cons e es ih =>
    have hrest := (ih (patched s e)).mono
      (ClearedBy.mono (fun e' he' => List.mem_cons_of_mem e he'))
    have hsplit : trail pcName s (run patched s (e :: es))
        = trail pcName s (patched s e) ++ trail pcName (patched s e) (run patched s (e :: es)) :=
      trail_append (regionTransitions_prefix_run [e] s)
        (regionTransitions_prefix_run es (patched s e))
    rw [hsplit]
    unfold homeRegion
    by_cases hmem : pcName ∈ (movesOf e.1 e.2 s).map Prod.fst
    · -- the patch moves the character, and the rest starts from where it is then
      rw [if_pos hmem]
      obtain ⟨move, hmove, rfl⟩ := List.mem_map.mp hmem
      have hplace := get?_patched_of_mem e s hmove
      rw [homeRegion_of_some es hplace, ← hplace] at hrest
      have hcleared : ClearedBy [e] move.1 → ClearedBy (e :: es) move.1 :=
        ClearedBy.mono (fun e' he' => List.mem_singleton.mp he' ▸ List.mem_cons_self)
      exact ((explains_patched e s move.1 hmem).mono hcleared).append hrest
    · -- a character that is not moved gets no receipt
      rw [if_neg hmem, trail_patched, filter_receipts_of_not_mem hmem, List.nil_append]
      exact hrest

/-! ### A blank -/

/-- Ann is moved to the road, and then to nowhere. -/
def roadToNowhere : List (PatchContext Unit × WorldStatePatch Unit) :=
  [(bareContext, { pcRegion := some (Dict.empty.insert "Ann" "road") }),
   (bareContext, { pcRegion := some (Dict.empty.insert "Ann" "") })]

/-- Ann's one receipt leads to the road, but she is not there. -/
theorem not_explains_of_blank :
    ¬ Explains False (homeRegion "Ann" {} roadToNowhere)
      (trail "Ann" {} (run patched {} roadToNowhere))
      ((run patched {} roadToNowhere).pcRegions.get? "Ann") := by
  intro h
  rcases h.2.2 with hsame | hcleared
  · exact absurd hsame (by decide)
  · exact hcleared.1

end

variable {F : Type} (ctx : PatchContext F)

/-- The notices that went out from one state to the next. -/
def sent (s s' : Session) : List RegionNotice := s'.notified.drop s.notified.length

/-- The notices match what happened to the map. -/
structure NoticesTrue (s s' : Session) : Prop where
  genuine : ∀ notice ∈ sent s s', notice.pcName ≠ anchorName →
    notice.fromRegion = orNone (s.pcRegions.get? notice.pcName) ∧
      s'.pcRegions.get? notice.pcName = some notice.toRegion ∧
      notice.fromRegion ≠ some notice.toRegion
  complete : ∀ pcName, pcName ≠ anchorName →
    s'.pcRegions.get? pcName ≠ s.pcRegions.get? pcName → ∃ notice ∈ sent s s', notice.pcName = pcName

/-- A character that has no region and is not moved by the patch. -/
def Unplaced (patch : WorldStatePatch F) (s : Session) (pcName : String) : Prop :=
  s.pcRegions.get? pcName = none ∧ pcName ∉ (movesOf ctx patch s).map Prod.fst

/-- What a patch must look like for its notices to match. -/
structure Accountable (patch : WorldStatePatch F) (s : Session) : Prop where
  /-- Empty regions are given to those only whose region is empty. -/
  blanks : ∀ move ∈ movesOf ctx patch s, move.1 ≠ anchorName → move.2 = "" →
    s.pcRegions.get? move.1 = some ""
  /-- The anchor's move is told of characters without a region, and comes from nowhere. -/
  gathered : ∀ g, gathering ctx patch s = some g → ∀ pcName ∈ g.told, pcName ≠ anchorName →
    Unplaced ctx patch s pcName ∧ g.fromRegion = none
  /-- It is told of all of them, and no observer raises before. -/
  unheard : ∀ g, gathering ctx patch s = some g → ∀ pcName ∈ s.party, pcName ≠ anchorName →
    Unplaced ctx patch s pcName → pcName ∈ g.told

/-! ### Crossings -/

/-- Nobody comes from the region somebody is not in. -/
theorem orNone_ne_some {place : Option String} {region : String} (h : place ≠ some region) :
    orNone place ≠ some region := by
  intro heq
  exact h (Option.filter_eq_some_iff.mp heq).1

variable {moves : List (String × String)}

/-- What is no notice of a character's move is no change, unless the move leaves a blank. -/
theorem exists_crossing {regions : Dict String String} {move : String × String}
    (hmem : move ∈ moves) (hblank : move.2 ≠ "") (hchange : regions.get? move.1 ≠ some move.2) :
    ∃ notice ∈ moves.filterMap (crossing regions), notice.pcName = move.1 := by
  have hcross : crossing regions move = some
      { pcName := move.1, fromRegion := orNone (regions.get? move.1), toRegion := move.2 } :=
    if_pos ⟨hblank, hchange⟩
  exact ⟨_, List.mem_filterMap.mpr ⟨move, hmem, hcross⟩, rfl⟩

/-- A character's notice among the crossings is that of its one move. -/
theorem move_of_notice {regions : Dict String String} (hnd : (moves.map Prod.fst).Nodup)
    {notice : RegionNotice} (hnotice : notice ∈ moves.filterMap (crossing regions))
    {move : String × String} (hmem : move ∈ moves) (hname : notice.pcName = move.1) :
    crossing regions move = some notice := by
  obtain ⟨move', hmem', hcross⟩ := List.mem_filterMap.mp hnotice
  have hsame : move'.1 = move.1 := (crossing_eq_some hcross).1.symm.trans hname
  have heq : move' = move := List.inj_on_of_nodup_map hnd hmem' hmem hsame
  exact heq ▸ hcross

/-! ### Characters without a region -/

theorem get?_moves_eq_none {patch : WorldStatePatch F} {s : Session} {pcName : String} :
    ((movesOf ctx patch s).foldl moveOnMap s).pcRegions.get? pcName = none ↔
      Unplaced ctx patch s pcName := by
  unfold Unplaced
  by_cases hmem : pcName ∈ (movesOf ctx patch s).map Prod.fst
  · obtain ⟨move, hmove, rfl⟩ := List.mem_map.mp hmem
    rw [get?_moves_of_mem s (nodup_movesOf ctx patch s) hmove]
    simp [hmem]
  · rw [get?_moves_of_not_mem s hmem]
    simp [hmem]

section Match

variable {ctx} {patch : WorldStatePatch F} {s s' : Session}

/-- The notices of a patch are those of its moves and of its gathering. -/
theorem Relocated.mem_sent {g : Option Gathering} (h : Relocated s s' moves g)
    {notice : RegionNotice} : notice ∈ sent s s' ↔ notice ∈ moves.filterMap (crossing s.pcRegions) ∨
      ∃ g', g = some g' ∧ ∃ pcName ∈ g'.told,
        anchorNotice g'.fromRegion g'.toRegion pcName = notice := by
  unfold sent
  rw [h.notified, List.drop_left, List.mem_append]
  cases g with
  | none => simp
  | some g => simp [Gathering.notices]

/-- **Accountable patches.** Their notices match what happens to the map. -/
theorem noticesTrue_of_accountable
    (h : Relocated s s' (movesOf ctx patch s) (gathering ctx patch s))
    (hacc : Accountable ctx patch s) : NoticesTrue s s' where
  genuine := by
    intro notice hnotice hne
    rcases h.mem_sent.mp hnotice with hcross | ⟨g, hg, pcName, htold, rfl⟩
    · obtain ⟨move, hmem, hmove⟩ := List.mem_filterMap.mp hcross
      obtain ⟨hname, hto, _, hfrom, hchange⟩ := crossing_eq_some hmove
      rw [hname, hto, hfrom]
      exact ⟨rfl, h.get?_of_mem hmem, orNone_ne_some hchange⟩
    · obtain ⟨hunplaced, hnowhere⟩ := hacc.gathered g hg pcName htold hne
      have hparty := ((gathering_eq_some ctx hg).2 pcName htold hne).1
      have hplace : s'.pcRegions.get? pcName = some g.toRegion := by
        rw [h.pcRegions, hg]
        exact if_pos ⟨hparty, (get?_moves_eq_none ctx).mpr hunplaced⟩
      show g.fromRegion = orNone (s.pcRegions.get? pcName) ∧
        s'.pcRegions.get? pcName = some g.toRegion ∧ g.fromRegion ≠ some g.toRegion
      rw [hnowhere, hunplaced.1]
      exact ⟨rfl, hplace, by simp⟩
  complete := by
    intro pcName hne hchange
    by_cases hmem : pcName ∈ (movesOf ctx patch s).map Prod.fst
    · -- who is moved is told of, for the move leaves no blank
      obtain ⟨move, hmove, rfl⟩ := List.mem_map.mp hmem
      rw [h.get?_of_mem hmove] at hchange
      have hblank : move.2 ≠ "" := by
        intro hempty
        rw [hacc.blanks move hmove hne hempty, hempty] at hchange
        exact hchange rfl
      obtain ⟨notice, hnotice, hname⟩ := exists_crossing hmove hblank hchange.symm
      exact ⟨notice, h.mem_sent.mpr (.inl hnotice), hname⟩
    · -- who is not moved changes by a gathering only
      rw [h.pcRegions, get?_moves_of_not_mem s hmem] at hchange
      cases hg : gathering ctx patch s with
      | none =>
        rw [hg] at hchange
        exact absurd rfl hchange
      | some g =>
        rw [hg] at hchange
        have hseeded : pcName ∈ s.party ∧
            ((movesOf ctx patch s).foldl moveOnMap s).pcRegions.get? pcName = none := by
          by_contra hno
          apply hchange
          show g.place s _ pcName = _
          unfold Gathering.place
          rw [if_neg hno, get?_moves_of_not_mem s hmem]
        have htold := hacc.unheard g hg pcName hseeded.1 hne ((get?_moves_eq_none ctx).mp hseeded.2)
        exact ⟨anchorNotice g.fromRegion g.toRegion pcName,
          h.mem_sent.mpr (.inr ⟨g, hg, pcName, htold, rfl⟩), rfl⟩

/-- **Only they.** A patch whose notices match what happens to the map is accountable. -/
theorem accountable_of_noticesTrue
    (h : Relocated s s' (movesOf ctx patch s) (gathering ctx patch s))
    (htrue : NoticesTrue s s') : Accountable ctx patch s where
  blanks := by
    intro move hmem hne hempty
    by_contra hno
    have hafter : s'.pcRegions.get? move.1 = some "" := by rw [h.get?_of_mem hmem, hempty]
    have hchange : s'.pcRegions.get? move.1 ≠ s.pcRegions.get? move.1 := by
      rw [hafter]
      exact fun heq => hno heq.symm
    obtain ⟨notice, hnotice, hname⟩ := htrue.complete move.1 hne hchange
    rcases h.mem_sent.mp hnotice with hcross | ⟨g, hg, pcName, _, rfl⟩
    · -- a blank is no crossing
      have hmove := move_of_notice (nodup_movesOf ctx patch s) hcross hmem hname
      exact (crossing_eq_some hmove).2.2.1 hempty
    · -- and a gathering leaves no blank
      have hgenuine := (htrue.genuine _ hnotice (hname ▸ hne)).2.1
      rw [hname, hafter] at hgenuine
      exact (gathering_eq_some ctx hg).1 (Option.some.inj hgenuine).symm
  gathered := by
    intro g hg pcName htold hne
    obtain ⟨hfrom, hto, _⟩ :=
      htrue.genuine _ (h.mem_sent.mpr (.inr ⟨g, hg, pcName, htold, rfl⟩)) hne
    obtain ⟨hparty, helsewhere⟩ := (gathering_eq_some ctx hg).2 pcName htold hne
    -- who has been placed by a move does not stand where the notice says
    have hunplaced : Unplaced ctx patch s pcName := by
      rw [← get?_moves_eq_none]
      by_contra hplaced
      rw [h.pcRegions, hg] at hto
      change g.place s _ pcName = some g.toRegion at hto
      unfold Gathering.place at hto
      rw [if_neg (fun hno => hplaced hno.2)] at hto
      exact helsewhere hto
    refine ⟨hunplaced, ?_⟩
    change g.fromRegion = orNone (s.pcRegions.get? pcName) at hfrom
    rw [hfrom, hunplaced.1]
    rfl
  unheard := by
    intro g hg pcName hparty hne hunplaced
    have hafter : s'.pcRegions.get? pcName = some g.toRegion := by
      rw [h.pcRegions, hg]
      exact if_pos ⟨hparty, (get?_moves_eq_none ctx).mpr hunplaced⟩
    have hchange : s'.pcRegions.get? pcName ≠ s.pcRegions.get? pcName := by
      rw [hafter, hunplaced.1]
      simp
    obtain ⟨notice, hnotice, hname⟩ := htrue.complete pcName hne hchange
    rcases h.mem_sent.mp hnotice with hcross | ⟨g', hg', pcName', htold, rfl⟩
    · obtain ⟨move, hmem, hmove⟩ := List.mem_filterMap.mp hcross
      have hmoved := (crossing_eq_some hmove).1.symm.trans hname
      exact absurd (hmoved ▸ List.mem_map_of_mem hmem) hunplaced.2
    · rw [hg] at hg'
      cases hg'
      exact hname ▸ htold

end Match

/-- **Notices and the map.** The notices of a patch match what happens to the map if and only if
    the patch is accountable. -/
theorem noticesTrue_iff_accountable (patch : WorldStatePatch F) (s : Session) :
    NoticesTrue s ((applyWorldPatch ctx patch).exec s).2 ↔ Accountable ctx patch s := by
  have h := relocated_applyWorldPatch ctx patch s
  exact ⟨accountable_of_noticesTrue h, noticesTrue_of_accountable h⟩

/-! ### A teleport -/

/-- Ann sits at the table, and she is on the road, where the anchor is, too. -/
def onTheRoad : Session where
  playerSeats := Dict.empty.insert "p1" "Ann"
  pcRegions := Dict.empty.insert "Ann" "road"
  currentRegion := "road"

/-- The anchor moves to the keep. -/
def teleport : WorldStatePatch Unit := { currentRegion := some "keep" }

/-- The observers are told that Ann is in the keep, but she is still on the road. -/
theorem not_noticesTrue_of_teleport :
    ¬ NoticesTrue onTheRoad ((applyWorldPatch bareContext teleport).exec onTheRoad).2 := by
  intro htrue
  have hnotice : anchorNotice (some "road") "keep" "Ann" ∈
      sent onTheRoad ((applyWorldPatch bareContext teleport).exec onTheRoad).2 := by decide
  have hplace := (htrue.genuine _ hnotice (by decide)).2.1
  exact absurd hplace (by decide)

end Sidequest.World
