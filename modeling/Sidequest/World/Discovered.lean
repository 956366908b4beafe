import Sidequest.World.Trail

namespace Sidequest.World

open Lib Effect

/-!
# The list of discovered regions

Patches write to the list in three ways: it is started anew, names are offered to it, and regions
are entered. A name that is offered is compared by its slug with what is there, a region that is
entered letter by letter; and names without any ASCII letter or digit all have the empty slug.

* `RaisedMoving`, `RaisedGathering`, `RaisedLearning` — what each of the three leaves;
* `RegionWrite`, `writeRegion` — a write, and what it does to the list;
* `tidyRun_iff` — a run of patches is as it should be exactly if all of its writes are.
-/

section

variable {F : Type} (ctx : PatchContext F)

/-- No creature was hurt, and none of the narrator's creatures changed. -/
structure SameCreatures (s s' : Session) : Prop where
  npcs : s'.npcs = s.npcs
  cores : s'.characters.map Character.core = s.characters.map Character.core

instance : IsPreorder Session SameCreatures where
  refl _ := ⟨rfl, rfl⟩
  trans _ _ _ h h' := ⟨h'.npcs.trans h.npcs, h'.cores.trans h.cores⟩

variable {s' s : Session}

theorem SameCast.sameCreatures (h : SameCast s s') : SameCreatures s s' :=
  ⟨h.npcs, congrArg (List.map Character.core) h.characters⟩

/-- The `pc_region` branch raised: the scene is set, the moves up to a crossing are on the map and in
    the ledger, and nothing else of the cast or the anchor changed. -/
structure RaisedMoving (patch : WorldStatePatch F) (s : Session) (e : PatchError) (s' : Session) :
    Prop where
  raised : (applyPcRegion ctx patch).exec (applyScene patch s) = (.error e, s')
  sameCast : SameCast (applyScene patch s) s'
  currentRegion : s'.currentRegion = s.currentRegion
  arrived : Arrived s s' (movesOf ctx patch s)
  crossed : ∃ before last, movesOf ctx patch s = before ++ [last] ∧
    ∃ notice, crossing s.pcRegions last = some notice

/-- The `current_region` branch raised: the scene is set, all moves are on the map and in the
    ledger, the anchor is moved, the party is seeded, and nothing else of the cast changed. -/
structure RaisedGathering (patch : WorldStatePatch F) (s : Session) (e : PatchError)
    (s' : Session) : Prop where
  raised : ∃ s₁, (applyPcRegion ctx patch).exec (applyScene patch s) = (.ok (), s₁) ∧
    (applyCurrentRegion ctx patch).exec s₁ = (.error e, s')
  sameCast : SameCast (applyScene patch s) s'
  gathered : ∃ g, gathering ctx patch s = some g ∧ s'.currentRegion = g.toRegion ∧
    Relocated s s' (movesOf ctx patch s) (some g)

/-- The patch with these facts only, and without the branches behind the facts. -/
def WorldStatePatch.upTo (patch : WorldStatePatch F) (facts : List (DiscoveredFact F)) :
    WorldStatePatch F :=
  { patch with discoveredFacts := some facts, hpChanges := none, npcAttitudes := none }

/-- The `discovered_facts` branch raised: a character's fact is invalid, and the state is the one
    the patch leaves that ends before it. -/
structure RaisedLearning (patch : WorldStatePatch F) (s : Session) (e : PatchError) (s' : Session) :
    Prop where
  invalid : e = .invalidFact
  learned : ∃ learned df rest, patch.discoveredFacts = some (learned ++ df :: rest) ∧
    ctx.modelValidate df.fact = none ∧
    (∃ ch ∈ s.characters, ch.core.name = df.characterName) ∧
    (applyWorldPatch ctx (patch.upTo learned)).exec s = (.ok (), s')

/-! ### Moves -/

/-- Only a crossing can raise. -/
theorem crossing_of_movePc_error {move : String × String} {e : PatchError}
    (h : (movePc ctx move).exec s = (.error e, s')) :
    ∃ notice, crossing s.pcRegions move = some notice := by
  by_cases hgo : move.2 ≠ "" ∧ s.pcRegions.get? move.1 ≠ some move.2
  · exact ⟨_, if_pos hgo⟩
  · unfold movePc at h
    rw [Effect.exec_bind, Effect.exec_get] at h
    dsimp only at h
    rw [Effect.exec_bind, Effect.exec_modify] at h
    dsimp only at h
    rw [if_neg hgo, Effect.exec_pure] at h
    simp at h

variable {patch : WorldStatePatch F}

/-- **A move that raises** leaves the moves before it. -/
theorem raisedMoving_of_error {e : PatchError}
    (h : (applyPcRegion ctx patch).exec (applyScene patch s) = (.error e, s')) :
    RaisedMoving ctx patch s e s' := by
  have hbranch := quiet_applyPcRegion ctx patch (applyScene patch s)
  have harrived := arrived_applyPcRegion ctx patch s
  rw [h] at hbranch harrived
  refine
    { raised := h
      sameCast := (sameCast_moves _ _).trans hbranch.toSameCast
      currentRegion := ?_
      arrived := harrived
      crossed := ?_ }
  · rw [hbranch.currentRegion, currentRegion_moves, currentRegion_applyScene]
  · -- the raising element of the loop is its last one, and it is a crossing
    have hnd := nodup_movesOf ctx patch s
    unfold movesOf movesReached at hnd ⊢
    unfold applyPcRegion at h
    cases hpatch : patch.pcRegion with
    | none =>
      rw [hpatch] at h
      simp at h
    | some moves =>
      rw [hpatch] at h hnd
      dsimp only at h hnd ⊢
      rw [Effect.exec_bind] at h
      rcases hloop : (moves.entries.forM (movePc ctx)).exec (applyScene patch s) with ⟨e' | u, s₂⟩
      · rw [hloop] at h
        have hloop' := hloop.trans h
        obtain ⟨before, last, after, s₁, -, hbefore, hlast, hreached⟩ := exists_of_forM_error hloop'
        obtain ⟨notice, hnotice⟩ := crossing_of_movePc_error ctx hlast
        refine ⟨before, last, hreached, notice, ?_⟩
        -- the moves before it are of other characters
        rw [hreached, List.map_append, List.nodup_append] at hnd
        have hne : last.1 ∉ before.map Prod.fst :=
          fun hmem => hnd.2.2 last.1 hmem last.1 (by simp) rfl
        have hquiet := quiet_forM_movePc ctx before (applyScene patch s)
        rw [hbefore, reached_eq_of_ok hbefore] at hquiet
        rw [← hnotice]
        apply crossing_congr
        rw [hquiet.pcRegions, get?_moves_of_not_mem _ hne, (samePlaces_applyScene patch s).pcRegions]
      · rw [hloop] at h
        simp at h

/-! ### The anchor -/

/-- **A gathering that raises** leaves all moves, and part of the gathering. -/
theorem raisedGathering_of_error {s₁ : Session} {e : PatchError}
    (hmoves : (applyPcRegion ctx patch).exec (applyScene patch s) = (.ok (), s₁))
    (h : (applyCurrentRegion ctx patch).exec s₁ = (.error e, s'))
    (hrel : Relocated s s' (movesOf ctx patch s) (gathering ctx patch s)) :
    RaisedGathering ctx patch s e s' := by
  have hmoved := sameCast_applyPcRegion ctx patch (applyScene patch s)
  rw [hmoves] at hmoved
  have hgathered := (gathered_applyCurrentRegion ctx patch s₁).sameCast
  rw [h] at hgathered
  have hwhole := h
  unfold applyCurrentRegion at h
  cases hpatch : patch.currentRegion with
  | none =>
    rw [hpatch] at h
    simp at h
  | some region =>
    rw [hpatch] at h
    rw [Effect.exec_bind, Effect.exec_get] at h
    dsimp only at h
    rw [Effect.exec_bind, Effect.exec_modify] at h
    dsimp only at h
    by_cases hgo : region ≠ "" ∧ region ≠ s₁.currentRegion
    · rw [if_pos hgo] at h
      have hquiet := quiet_gatherParty ctx (orNone (some s₁.currentRegion)) region
        (setAnchor region s₁)
      rw [h] at hquiet
      have hgathering : gathering ctx patch s = some
          { fromRegion := orNone (some s₁.currentRegion)
            toRegion := region
            told := told ctx (orNone (some s₁.currentRegion)) region (setAnchor region s₁) } := by
        unfold gathering gatheringAt
        rw [hmoves, hpatch]
        exact if_pos hgo
      exact
        { raised := ⟨s₁, hmoves, hwhole⟩
          sameCast := hmoved.trans hgathered
          gathered := ⟨_, hgathering,
            hquiet.currentRegion.trans (currentRegion_gatherOnMap _ _ _ _),
            hgathering ▸ hrel⟩ }
    · rw [if_neg hgo] at h
      simp at h

/-! ### Facts -/

/-- A fact that is not valid raises, and draws no id. -/
theorem exec_validateFact_of_invalid {fact : F} (h : ctx.modelValidate fact = none) (s : Session) :
    (validateFact ctx fact).exec s = (.error .invalidFact, s) := by
  unfold validateFact
  rw [h]
  rfl

/-- A valid fact draws an id. -/
theorem exec_validateFact_of_valid {fact : F} {build : String → KnownFact}
    (h : ctx.modelValidate fact = some build) (s : Session) : (validateFact ctx fact).exec s
      = (.ok (build (ctx.freshId s.idsDrawn)), { s with idsDrawn := s.idsDrawn + 1 }) := by
  unfold validateFact
  rw [h]
  rfl

/-- A fact raises where it is invalid and a character of the name is there, and it raises before
    anybody has learned it. -/
theorem deliverFact_error {df : DiscoveredFact F} {e : PatchError}
    (h : (deliverFact ctx df).exec s = (.error e, s')) :
    s' = s ∧ e = .invalidFact ∧ ctx.modelValidate df.fact = none ∧
      ∃ ch ∈ s.characters, ch.core.name = df.characterName := by
  have hloop : (s.characters.zipIdx.forM (learnFact ctx df)).exec s = (.error e, s') := h
  obtain ⟨before, ch, after, s₁, hl, -, hlast, -⟩ := exists_of_forM_error hloop
  have hmem : ch.1 ∈ s.characters := by
    have hch : ch ∈ s.characters.zipIdx := by
      rw [hl]
      simp
    exact List.fst_mem_of_mem_zipIdx hch
  unfold learnFact at hlast
  by_cases hname : ch.1.core.name = df.characterName
  · rw [if_pos hname, Effect.exec_bind] at hlast
    cases hvalid : ctx.modelValidate df.fact with
    | some build =>
      -- a valid fact is learned
      rw [exec_validateFact_of_valid ctx hvalid] at hlast
      simp at hlast
    | none =>
      rw [exec_validateFact_of_invalid ctx hvalid] at hlast
      -- an invalid fact is not learned by anybody
      have hsame : Preserves Eq (s.characters.zipIdx.forM (learnFact ctx df)) := by
        refine preserves_forM (fun ch' => Preserves.ite ?_ (preserves_pure ())) _
        intro s₂
        rw [Effect.exec_bind, exec_validateFact_of_invalid ctx hvalid]
      have hs := hsame s
      rw [hloop] at hs
      exact ⟨hs.symm, (Except.error.inj (congrArg Prod.fst hlast)).symm, rfl, ch.1, hmem, hname⟩
  · rw [if_neg hname] at hlast
    simp at hlast

theorem sameCreatures_applyScene (patch : WorldStatePatch F) (s : Session) :
    SameCreatures s (applyScene patch s) := by
  unfold applyScene applyLocation
  cases patch.location with
  | none => exact ⟨rfl, rfl⟩
  | some location => exact ⟨rfl, rfl⟩

/-- Learning changes nobody's core. -/
theorem map_core_learn (characters : List Character) (i : Nat) (fact : KnownFact) :
    (characters.modify i (Character.learn fact)).map Character.core
      = characters.map Character.core := by
  apply List.ext_getElem?
  intro j
  rw [List.getElem?_map, List.getElem?_map, List.getElem?_modify]
  cases characters[j]? with
  | none => rfl
  | some ch =>
    show some (if i = j then Character.learn fact ch else ch).core = some ch.core
    by_cases hij : i = j
    · rw [if_pos hij]
      rfl
    · rw [if_neg hij]

/-- Delivering a fact hurts nobody. -/
theorem sameCreatures_deliverFact (df : DiscoveredFact F) :
    Preserves SameCreatures (deliverFact ctx df) := by
  refine preserves_get.bind (fun s => ?_)
  refine preserves_forM (fun ch => Preserves.ite ?_ (preserves_pure ())) _
  refine Preserves.bind ?_ (fun fact => preserves_modify
    (fun s => ⟨rfl, map_core_learn s.characters ch.2 fact⟩))
  intro s
  cases hvalid : ctx.modelValidate df.fact with
  | none =>
    rw [exec_validateFact_of_invalid ctx hvalid]
    exact refl_of SameCreatures s
  | some build =>
    rw [exec_validateFact_of_valid ctx hvalid]
    exact ⟨rfl, rfl⟩

/-- The branches up to the facts do not read what the patch has behind them. -/
theorem exec_upTo {learned : List (DiscoveredFact F)} {s₁ s₂ : Session}
    (hmoves : (applyPcRegion ctx patch).exec (applyScene patch s) = (.ok (), s₁))
    (hanchor : (applyCurrentRegion ctx patch).exec s₁ = (.ok (), s₂))
    (hfacts : (learned.forM (deliverFact ctx)).exec (applyMap ctx patch s₂) = (.ok (), s')) :
    (applyWorldPatch ctx (patch.upTo learned)).exec s = (.ok (), s') := by
  have hexec : (applyWorldPatch ctx (patch.upTo learned)).exec s =
      (applyPcRegion ctx patch >>= fun _ => applyCurrentRegion ctx patch >>= fun _ =>
        applyRest ctx (patch.upTo learned)).exec (applyScene patch s) := rfl
  rw [hexec, Effect.exec_bind, hmoves]
  dsimp only
  rw [Effect.exec_bind, hanchor]
  show (learned.forM (deliverFact ctx) >>= fun _ =>
    modify (applyCreatures (patch.upTo learned))).exec (applyMap ctx patch s₂) = _
  rw [Effect.exec_bind, hfacts]
  rfl

/-! ### Patches -/

/-- **Patches that raise.** A patch that raises has not come to the hit points and attitudes. It
    raises in one of three branches, and it leaves what the branches before have done and the raising
    one has done up to there. -/
theorem raised_applyWorldPatch {patch : WorldStatePatch F} {s s' : Session} {e : PatchError}
    (h : (applyWorldPatch ctx patch).exec s = (.error e, s')) :
    SameCreatures s s' ∧ (RaisedMoving ctx patch s e s' ∨ RaisedGathering ctx patch s e s' ∨
      RaisedLearning ctx patch s e s') := by
  have hrel := relocated_applyWorldPatch ctx patch s
  rw [h] at hrel
  have hexec : (applyPcRegion ctx patch >>= fun _ => applyCurrentRegion ctx patch >>= fun _ =>
      applyRest ctx patch).exec (applyScene patch s) = (.error e, s') := h
  have hscene := sameCreatures_applyScene patch s
  rw [Effect.exec_bind] at hexec
  -- the moves, the gathering and the facts come in this order
  rcases hmoves : (applyPcRegion ctx patch).exec (applyScene patch s) with ⟨e₁ | u, s₁⟩
  · rw [hmoves] at hexec
    have hraised := raisedMoving_of_error ctx (hmoves.trans hexec)
    exact ⟨trans_of SameCreatures hscene hraised.sameCast.sameCreatures, .inl hraised⟩
  · rw [hmoves] at hexec
    dsimp only at hexec
    rw [Effect.exec_bind] at hexec
    rcases hanchor : (applyCurrentRegion ctx patch).exec s₁ with ⟨e₂ | u', s₂⟩
    · rw [hanchor] at hexec
      have hraised := raisedGathering_of_error ctx hmoves (hanchor.trans hexec) hrel
      exact ⟨trans_of SameCreatures hscene hraised.sameCast.sameCreatures, .inr (.inl hraised)⟩
    · rw [hanchor] at hexec
      change (applyDiscoveredFacts ctx patch >>= fun _ =>
        modify (applyCreatures patch)).exec (applyMap ctx patch s₂) = _ at hexec
      have hmoved := sameCast_applyPcRegion ctx patch (applyScene patch s)
      rw [hmoves] at hmoved
      have hgathered := (gathered_applyCurrentRegion ctx patch s₁).sameCast
      rw [hanchor] at hgathered
      have hbefore : SameCreatures s s₂ :=
        trans_of SameCreatures hscene (hmoved.trans hgathered).sameCreatures
      have hmap : SameCreatures s (applyMap ctx patch s₂) := ⟨hbefore.npcs, hbefore.cores⟩
      rw [Effect.exec_bind] at hexec
      rcases hfacts : (applyDiscoveredFacts ctx patch).exec (applyMap ctx patch s₂)
        with ⟨e₃ | u'', s₃⟩
      · rw [hfacts] at hexec
        obtain ⟨learned, df, rest, s₄, hl, hlearned, hlast, -⟩ :=
          exists_of_forM_error (hfacts.trans hexec)
        obtain ⟨rfl, rfl, hinvalid, ch, hch, hname⟩ := deliverFact_error ctx hlast
        have hlearning := preserves_forM (sameCreatures_deliverFact ctx) learned
          (applyMap ctx patch s₂)
        rw [hlearned] at hlearning
        have hsame : SameCreatures s s' := trans_of SameCreatures hmap hlearning
        refine ⟨hsame, .inr (.inr ⟨rfl, learned, df, rest, ?_, hinvalid, ?_, ?_⟩)⟩
        · cases hpatch : patch.discoveredFacts with
          | none =>
            rw [hpatch] at hl
            simp at hl
          | some facts =>
            rw [hpatch] at hl
            exact congrArg some hl
        · -- who has the name now had it before
          have hcore : ch.core ∈ s.characters.map Character.core :=
            hsame.cores ▸ List.mem_map_of_mem hch
          obtain ⟨ch', hch', hcore'⟩ := List.mem_map.mp hcore
          exact ⟨ch', hch', by rw [hcore', hname]⟩
        · exact exec_upTo ctx hmoves hanchor hlearned
      · rw [hfacts] at hexec
        simp at hexec

/-! ### A fact that is none -/

/-- Ann is at the table. -/
def annAlone : Session where
  characters := [{ core := { name := "Ann", hp := { current := 6, max := 6, baseMax := 6 } } }]

/-- Night falls, and Ann learns something that is no fact. -/
def nightfall : WorldStatePatch Unit where
  timeOfDay := some "night"
  discoveredFacts := some [{ characterName := "Ann", fact := () }]

theorem raised_nightfall :
    (applyWorldPatch bareContext nightfall).exec annAlone
      = (.error .invalidFact, { annAlone with timeOfDay := "night" }) := rfl

/-- The patch raised at the fact, and Ann is unhurt. -/
theorem raised_applyWorldPatch_nightfall :
    SameCreatures annAlone { annAlone with timeOfDay := "night" } ∧
      (RaisedMoving bareContext nightfall annAlone .invalidFact
          { annAlone with timeOfDay := "night" } ∨
        RaisedGathering bareContext nightfall annAlone .invalidFact
          { annAlone with timeOfDay := "night" } ∨
        RaisedLearning bareContext nightfall annAlone .invalidFact
          { annAlone with timeOfDay := "night" }) :=
  raised_applyWorldPatch bareContext raised_nightfall

/-- A patch that raises may have changed the snapshot. -/
theorem not_unchanged_of_invalidFact :
    ¬ ∀ (patch : WorldStatePatch Unit) (s s' : Session) (e : PatchError),
      (applyWorldPatch bareContext patch).exec s = (.error e, s') →
        s'.toGameSnapshot = s.toGameSnapshot := by
  intro h
  have hsame := h nightfall annAlone _ _ raised_nightfall
  exact absurd (congrArg GameSnapshot.timeOfDay hsame) (by decide)

end

/-! ### Writes -/

/-- A write to the list of discovered regions. -/
inductive RegionWrite where
  /-- The list is started anew. -/
  | reset
  /-- A name is offered by a patch. -/
  | discover (name : String)
  /-- A region is entered. -/
  | enter (region : String)
deriving DecidableEq

/-- Take a region in, unless just this text is on the list. -/
def enterRegion (discovered : List String) (region : String) : List String :=
  if region ∈ discovered then discovered else discovered ++ [region]

/-- The list after a write. -/
def writeRegion (nfkd : String → String) (discovered : List String) : RegionWrite → List String
  | .reset => []
  | .discover name => discoverRegion nfkd discovered name
  | .enter region => enterRegion discovered region

/-- The names a write brings. -/
def RegionWrite.names : RegionWrite → List String
  | .reset => []
  | .discover name => [name]
  | .enter region => [region]

/-- No two entries have the same slug. -/
def SlugsDistinct (nfkd : String → String) (discovered : List String) : Prop :=
  (discovered.map (canonicalizeRegionName nfkd)).Nodup

instance (nfkd : String → String) (discovered : List String) :
    Decidable (SlugsDistinct nfkd discovered) :=
  inferInstanceAs (Decidable (List.Nodup _))

/-- An entry is a spelling of a name: they have the same slug, which is not empty. -/
def SpellingOf (nfkd : String → String) (name entry : String) : Prop :=
  canonicalizeRegionName nfkd entry = canonicalizeRegionName nfkd name ∧
    canonicalizeRegionName nfkd name ≠ ""

/-- The slugs stay distinct, and a valid name is left out only where a spelling of it is there. -/
structure Tidy (nfkd : String → String) (discovered : List String) (write : RegionWrite) : Prop where
  distinct : SlugsDistinct nfkd (writeRegion nfkd discovered write)
  kept : ∀ name ∈ write.names, validateRegionName name = none →
    name ∈ writeRegion nfkd discovered write ∨ ∃ entry ∈ discovered, SpellingOf nfkd name entry

/-- A region that is entered is on the list letter by letter, or no entry has its slug; and a valid
    name without a slug that is offered is on the list, or all entries have slugs. -/
def Fits (nfkd : String → String) (discovered : List String) : RegionWrite → Prop
  | .reset => True
  | .discover name => validateRegionName name = none → canonicalizeRegionName nfkd name = "" →
      name ∈ discovered ∨ ∀ entry ∈ discovered, canonicalizeRegionName nfkd entry ≠ ""
  | .enter region => region ∈ discovered ∨
      ∀ entry ∈ discovered, canonicalizeRegionName nfkd entry ≠ canonicalizeRegionName nfkd region

section Writes

variable {nfkd : String → String} {discovered : List String}

/-- A new name keeps the slugs distinct if it has none of theirs. -/
theorem slugsDistinct_append {name : String} (h : SlugsDistinct nfkd discovered) :
    SlugsDistinct nfkd (discovered ++ [name]) ↔ ∀ entry ∈ discovered,
      canonicalizeRegionName nfkd entry ≠ canonicalizeRegionName nfkd name := by
  unfold SlugsDistinct at *
  rw [List.map_append, List.map_singleton, List.nodup_append]
  constructor
  · rintro ⟨-, -, hdisjoint⟩ entry hentry
    exact hdisjoint _ (List.mem_map_of_mem hentry) _ (List.mem_singleton_self _)
  · intro hnew
    refine ⟨h, List.nodup_singleton _, fun slug hslug other hother => ?_⟩
    obtain ⟨entry, hentry, rfl⟩ := List.mem_map.mp hslug
    rw [List.mem_singleton.mp hother]
    exact hnew entry hentry

/-- A name that is offered never gets in beside another spelling of it. -/
theorem slugsDistinct_discoverRegion (h : SlugsDistinct nfkd discovered) (name : String) :
    SlugsDistinct nfkd (discoverRegion nfkd discovered name) := by
  unfold discoverRegion
  split
  · exact h
  · split
    · exact h
    · rename_i hnew
      rw [slugsDistinct_append h]
      simpa using hnew

/-- **A write** is as it should be exactly if it fits. -/
theorem tidy_iff_fits (h : SlugsDistinct nfkd discovered) (write : RegionWrite) :
    Tidy nfkd discovered write ↔ Fits nfkd discovered write := by
  cases write with
  | reset => exact iff_of_true ⟨List.nodup_nil, by simp [RegionWrite.names]⟩ trivial
  | discover name =>
    constructor
    · intro htidy hvalid hslug
      rcases htidy.kept name (List.mem_singleton_self name) hvalid with hin | ⟨entry, -, -, hne⟩
      · by_contra hfits
        push Not at hfits
        obtain ⟨hout, entry, hentry, hempty⟩ := hfits
        -- the entry without a slug keeps the name out
        have hany : discovered.any (fun known => canonicalizeRegionName nfkd known
            = canonicalizeRegionName nfkd name) = true :=
          List.any_eq_true.mpr ⟨entry, hentry, by simp [hempty, hslug]⟩
        change name ∈ discoverRegion nfkd discovered name at hin
        unfold discoverRegion at hin
        rw [hvalid, if_neg (by simp), if_pos hany] at hin
        exact hout hin
      · exact absurd hslug hne
    · intro hfits
      refine ⟨slugsDistinct_discoverRegion h name, fun other hother hvalid => ?_⟩
      obtain rfl := List.mem_singleton.mp hother
      show other ∈ discoverRegion nfkd discovered other ∨ _
      unfold discoverRegion
      rw [hvalid, if_neg (by simp)]
      by_cases hany : discovered.any (fun known => canonicalizeRegionName nfkd known
          = canonicalizeRegionName nfkd other) = true
      · rw [if_pos hany]
        obtain ⟨entry, hentry, hsame⟩ := List.any_eq_true.mp hany
        have hslugs := of_decide_eq_true hsame
        by_cases hempty : canonicalizeRegionName nfkd other = ""
        · rcases hfits hvalid hempty with hin | hslugged
          · exact .inl hin
          · exact absurd (hslugs.trans hempty) (hslugged entry hentry)
        · exact .inr ⟨entry, hentry, hslugs, hempty⟩
      · rw [if_neg hany]
        exact .inl (List.mem_append_right _ (List.mem_singleton_self other))
  | enter region =>
    have hdistinct : SlugsDistinct nfkd (enterRegion discovered region) ↔
        Fits nfkd discovered (.enter region) := by
      show _ ↔ region ∈ discovered ∨ _
      unfold enterRegion
      by_cases hin : region ∈ discovered
      · rw [if_pos hin]
        exact iff_of_true h (.inl hin)
      · rw [if_neg hin, slugsDistinct_append h, or_iff_right hin]
    refine ⟨fun htidy => hdistinct.mp htidy.distinct, fun hfits => ⟨hdistinct.mpr hfits, ?_⟩⟩
    intro other hother _
    obtain rfl := List.mem_singleton.mp hother
    left
    show other ∈ enterRegion discovered other
    unfold enterRegion
    by_cases hin : other ∈ discovered
    · rw [if_pos hin]
      exact hin
    · rw [if_neg hin]
      exact List.mem_append_right _ (List.mem_singleton_self other)

/-! ### Runs of writes -/

/-- At each of some writes, the list that it is made to and the write are so. -/
def Along (nfkd : String → String) (P : List String → RegionWrite → Prop) (discovered : List String)
    (writes : List RegionWrite) : Prop :=
  ∀ before write after, writes = before ++ write :: after →
    P (before.foldl (writeRegion nfkd) discovered) write

theorem along_cons {P : List String → RegionWrite → Prop} {write : RegionWrite}
    {writes : List RegionWrite} : Along nfkd P discovered (write :: writes) ↔
      P discovered write ∧ Along nfkd P (writeRegion nfkd discovered write) writes := by
  constructor
  · intro h
    refine ⟨h [] write writes rfl, fun before other after hwrites => ?_⟩
    exact h (write :: before) other after (by rw [hwrites, List.cons_append])
  · rintro ⟨hfirst, hrest⟩ before other after hwrites
    cases before with
    | nil =>
      cases hwrites
      exact hfirst
    | cons first before =>
      obtain ⟨rfl, htail⟩ := List.cons.inj hwrites
      exact hrest before other after htail

/-- **Writes** are as they should be exactly if each of them fits. -/
theorem along_tidy_iff (h : SlugsDistinct nfkd discovered) (writes : List RegionWrite) :
    Along nfkd (Tidy nfkd) discovered writes ↔ Along nfkd (Fits nfkd) discovered writes := by
  induction writes generalizing discovered with
  | nil =>
    have hnone : ∀ P, Along nfkd P discovered [] :=
      fun _ before write after hwrites => by simp at hwrites
    exact iff_of_true (hnone _) (hnone _)
  | cons write writes ih =>
    rw [along_cons, along_cons, tidy_iff_fits h]
    refine and_congr_right (fun hfits => ih ?_)
    exact ((tidy_iff_fits h write).mpr hfits).distinct

/-- Tidy writes keep the slugs distinct. -/
theorem slugsDistinct_of_along (h : SlugsDistinct nfkd discovered) {writes : List RegionWrite}
    (hwrites : Along nfkd (Tidy nfkd) discovered writes) :
    SlugsDistinct nfkd (writes.foldl (writeRegion nfkd) discovered) := by
  induction writes generalizing discovered with
  | nil => exact h
  | cons write writes ih =>
    obtain ⟨hfirst, hrest⟩ := along_cons.mp hwrites
    exact ih hfirst.distinct hrest

end Writes

/-! ### What a patch writes -/

variable {F : Type} (ctx : PatchContext F)

variable (patch : WorldStatePatch F)

/-- The region branches of a patch. -/
def applyTransitions : Effect PatchError Session Unit := do
  applyPcRegion ctx patch
  applyCurrentRegion ctx patch

/-- What the branches for discovered regions write. -/
def mapWrites : List RegionWrite :=
  (match patch.discoveredRegions with
    | none => []
    | some names => .reset :: names.map .discover) ++
  (patch.discoverRegions.getD []).map .discover

variable (s : Session)

/-- What a patch writes: the regions whose entering it announces, and then, unless it raised, what
    its branches for discovered regions write. -/
def patchWrites : List RegionWrite :=
  let moved := (applyTransitions ctx patch).exec (applyScene patch s)
  (moved.2.notified.drop s.notified.length).map (fun notice => .enter notice.toRegion) ++
    match moved.1 with
    | .ok _ => mapWrites patch
    | .error _ => []

/-- What is announced is entered, and nothing else happens to the list. -/
structure Entered (s s' : Session) : Prop where
  exists_new : ∃ new, s'.notified = s.notified ++ new ∧
    s'.discoveredRegions = (new.map RegionNotice.toRegion).foldl enterRegion s.discoveredRegions

instance : IsPreorder Session Entered where
  refl _ := ⟨[], (List.append_nil _).symm, rfl⟩
  trans _ _ _ h h' := by
    obtain ⟨new, hnew, hlist⟩ := h
    obtain ⟨new', hnew', hlist'⟩ := h'
    refine ⟨new ++ new', by rw [hnew', hnew, List.append_assoc], ?_⟩
    rw [hlist', hlist, List.map_append, List.foldl_append]

theorem Entered.of_same {s s' : Session} (hnotified : s'.notified = s.notified)
    (hlist : s'.discoveredRegions = s.discoveredRegions) : Entered s s' :=
  ⟨[], by rw [hnotified, List.append_nil], hlist⟩

/-- What leaves the notices and the list alone. -/
theorem entered_modify (f : Session → Session) (hnotified : ∀ s, (f s).notified = s.notified)
    (hlist : ∀ s, (f s).discoveredRegions = s.discoveredRegions) :
    Preserves Entered (modify f : Effect PatchError Session PUnit) :=
  fun s => Entered.of_same (hnotified s) (hlist s)

theorem entered_announce (notice : RegionNotice) (s : Session) : Entered s (announce notice s) :=
  ⟨[notice], rfl, rfl⟩

/-- A transition enters what it tells of. -/
theorem entered_notifyRegionTransition (notice : RegionNotice) :
    Preserves Entered (notifyRegionTransition ctx notice) := by
  refine (preserves_modify (entered_announce notice)).bind (fun _ => ?_)
  refine preserves_forM (fun observer s => ?_) _
  have hsame := observer.sameButQuests notice s.toGameSnapshot
  refine Entered.of_same rfl ?_
  show ((observer.observe notice).exec s.toGameSnapshot).2.discoveredRegions = _
  rw [hsame]

theorem entered_mintOnAnchorCrossing (fromRegion : Option String) (toRegion : String) :
    Preserves Entered (mintOnAnchorCrossing fromRegion toRegion) := by
  have hmint : ∀ questId, Preserves Entered (mintQuestOffer questId) := by
    intro questId s
    unfold mintQuestOffer
    rw [exec_get_bind]
    split
    · exact Entered.of_same rfl rfl
    · split
      · exact refl_of Entered s
      · split
        · exact refl_of Entered s
        · exact Entered.of_same rfl rfl
  refine preserves_get.bind (fun s => Preserves.ite (preserves_pure []) ?_)
  refine preserves_foldlM (fun minted questId => ?_) _ _
  exact (hmint questId).bind (fun entry => preserves_pure _)

/-- So does a move. -/
theorem entered_movePc (move : String × String) : Preserves Entered (movePc ctx move) := by
  refine preserves_get.bind (fun s => ?_)
  refine (entered_modify (setPcRegion _ _) (fun _ => rfl) (fun _ => rfl)).bind (fun _ => ?_)
  refine Preserves.ite ?_ (preserves_pure ())
  refine (entered_modify (stampTransition _) (fun _ => rfl) (fun _ => rfl)).bind (fun _ => ?_)
  refine (entered_notifyRegionTransition ctx _).bind (fun _ => ?_)
  exact (entered_mintOnAnchorCrossing _ _).bind (fun _ => preserves_pure ())

/-- So does a gathering. -/
theorem entered_gatherParty (fromRegion : Option String) (toRegion : String) :
    Preserves Entered (gatherParty ctx fromRegion toRegion) := by
  refine preserves_get.bind (fun s => ?_)
  refine (entered_modify (seedMissing toRegion) (fun _ => rfl) (fun _ => rfl)).bind (fun _ => ?_)
  exact preserves_forM (fun _ => entered_notifyRegionTransition ctx _) _

/-- **The region branches**, whether they raise or not. -/
theorem entered_applyTransitions : Preserves Entered (applyTransitions ctx patch) := by
  have hmoves : Preserves Entered (applyPcRegion ctx patch) := by
    unfold applyPcRegion
    cases patch.pcRegion with
    | none => exact preserves_pure ()
    | some moves =>
      refine (preserves_forM (entered_movePc ctx) _).bind (fun _ => ?_)
      exact entered_modify syncAnchor (fun _ => rfl) (fun _ => rfl)
  have hanchor : Preserves Entered (applyCurrentRegion ctx patch) := by
    unfold applyCurrentRegion
    cases patch.currentRegion with
    | none => exact preserves_pure ()
    | some region =>
      refine preserves_get.bind (fun s => ?_)
      refine (entered_modify (setAnchor region) (fun _ => rfl) (fun _ => rfl)).bind (fun _ => ?_)
      exact (entered_gatherParty ctx _ _).ite (preserves_pure ())
  exact hmoves.bind (fun _ => hanchor)

/-- The regions of a patch are written one by one. -/
theorem foldl_mapWrites (discovered : List String) :
    (mapWrites patch).foldl (writeRegion ctx.nfkd) discovered
      = applyDiscoveredRegions ctx patch discovered := by
  have hoffered : ∀ (names : List String) (l : List String),
      (names.map RegionWrite.discover).foldl (writeRegion ctx.nfkd) l
        = names.foldl (discoverRegion ctx.nfkd) l := by
    intro names l
    rw [List.foldl_map]
    rfl
  unfold mapWrites applyDiscoveredRegions
  rw [List.foldl_append, hoffered]
  cases patch.discoveredRegions with
  | none => rfl
  | some names =>
    show List.foldl _ ((names.map RegionWrite.discover).foldl (writeRegion ctx.nfkd) []) _ = _
    rw [hoffered]

/-- **A patch** leaves the list as its writes leave it, whether it raises or not. -/
theorem discoveredRegions_applyWorldPatch : ((applyWorldPatch ctx patch).exec s).2.discoveredRegions
      = (patchWrites ctx patch s).foldl (writeRegion ctx.nfkd) s.discoveredRegions := by
  have hscene : (applyScene patch s).discoveredRegions = s.discoveredRegions ∧
      (applyScene patch s).notified = s.notified := by
    unfold applyScene applyLocation
    cases patch.location with
    | none => exact ⟨rfl, rfl⟩
    | some location => exact ⟨rfl, rfl⟩
  have hsplit : (applyWorldPatch ctx patch).exec s
      = (applyTransitions ctx patch >>= fun _ => applyRest ctx patch).exec (applyScene patch s) := by
    unfold applyTransitions
    rw [bind_assoc]
    rfl
  obtain ⟨new, hnew, hlist⟩ := (entered_applyTransitions ctx patch (applyScene patch s)).exists_new
  rw [hscene.2] at hnew
  rw [hscene.1] at hlist
  have hentered : ((new.map (fun notice => RegionWrite.enter notice.toRegion)).foldl
      (writeRegion ctx.nfkd) s.discoveredRegions)
        = (new.map RegionNotice.toRegion).foldl enterRegion s.discoveredRegions := by
    rw [List.foldl_map, List.foldl_map]
    rfl
  unfold patchWrites
  rw [hsplit, exec_bind]
  rcases hexec : (applyTransitions ctx patch).exec (applyScene patch s) with ⟨e | u, s₁⟩
  · rw [hexec] at hnew hlist
    dsimp only at hnew hlist ⊢
    rw [hnew, List.drop_left, List.append_nil, hentered]
    exact hlist
  · rw [hexec] at hnew hlist
    dsimp only at hnew hlist ⊢
    rw [hnew, List.drop_left, List.foldl_append, hentered, ← hlist, foldl_mapWrites]
    have hrest : SameButCast (applyMap ctx patch s₁) ((applyRest ctx patch).exec s₁).2 := by
      have hcast := (sameButCast_applyDiscoveredFacts ctx patch).bind
        (fun _ => preserves_modify (ε := PatchError) (sameButCast_applyCreatures patch))
      exact hcast (applyMap ctx patch s₁)
    rw [hrest.eq]
    rfl

/-! ### Runs of patches -/

/-- The session after some patches, of which any may have raised. -/
def afterPatches (patches : List (WorldStatePatch F)) : Session :=
  patches.foldl (fun s patch => ((applyWorldPatch ctx patch).exec s).2) s

/-- What the patches write, one after another. -/
def runWrites : Session → List (WorldStatePatch F) → List RegionWrite
  | _, [] => []
  | s, patch :: patches =>
    patchWrites ctx patch s ++ runWrites ((applyWorldPatch ctx patch).exec s).2 patches

/-- **The discovered regions of a run** are those of its writes. -/
theorem discoveredRegions_patched (patches : List (WorldStatePatch F)) (s : Session) :
    (afterPatches ctx s patches).discoveredRegions
      = (runWrites ctx s patches).foldl (writeRegion ctx.nfkd) s.discoveredRegions := by
  induction patches generalizing s with
  | nil => rfl
  | cons patch patches ih =>
    unfold runWrites
    rw [List.foldl_append, ← discoveredRegions_applyWorldPatch]
    exact ih _

theorem runWrites_append (done rest : List (WorldStatePatch F)) (s : Session) :
    runWrites ctx s (done ++ rest)
      = runWrites ctx s done ++ runWrites ctx (afterPatches ctx s done) rest := by
  induction done generalizing s with
  | nil => rfl
  | cons patch done ih =>
    show patchWrites ctx patch s ++ runWrites ctx _ (done ++ rest) = _
    rw [ih, ← List.append_assoc]
    rfl

/-- The list after each patch of a run has distinct slugs, and each write was as it should be. -/
structure TidyRun (s : Session) (patches : List (WorldStatePatch F)) : Prop where
  distinct : ∀ done rest, patches = done ++ rest →
    SlugsDistinct ctx.nfkd (afterPatches ctx s done).discoveredRegions
  writes : Along ctx.nfkd (Tidy ctx.nfkd) s.discoveredRegions (runWrites ctx s patches)

/-- **A run of patches** is as it should be exactly if it starts with distinct slugs and each write
    fits the list that it is made to. -/
theorem tidyRun_iff (s : Session) (patches : List (WorldStatePatch F)) :
    TidyRun ctx s patches ↔ SlugsDistinct ctx.nfkd s.discoveredRegions ∧
      Along ctx.nfkd (Fits ctx.nfkd) s.discoveredRegions (runWrites ctx s patches) := by
  constructor
  · intro h
    have hstart : SlugsDistinct ctx.nfkd s.discoveredRegions := h.distinct [] patches rfl
    exact ⟨hstart, (along_tidy_iff hstart _).mp h.writes⟩
  · rintro ⟨hstart, hfits⟩
    have htidy := (along_tidy_iff hstart _).mpr hfits
    refine ⟨fun done rest hsplit => ?_, htidy⟩
    rw [discoveredRegions_patched]
    refine slugsDistinct_of_along hstart (fun before write after hwrites => ?_)
    -- what is written up to some patch is written in the run
    refine htidy before write (after ++ runWrites ctx (afterPatches ctx s done) rest) ?_
    rw [hsplit, runWrites_append, hwrites, List.append_assoc, List.cons_append]

/-! ### Two ways to go wrong -/

/-- Ann enters a hall that is on the list in lower case. -/
def hallPatches : List (WorldStatePatch Unit) :=
  [{ discoverRegions := some ["the hall"] },
    { pcRegion := some (Dict.empty.insert "Ann" "The Hall") }]

/-- Two cities are discovered; compatibility decomposition leaves their names alone. -/
def cityPatch : WorldStatePatch Unit := { discoverRegions := some ["東京", "京都"] }

/-- The hall is on the list twice, and one of two cities is not on it. -/
theorem not_tidyRun_hall :
    ¬ TidyRun bareContext annAlone hallPatches ∧ ¬ TidyRun bareContext annAlone [cityPatch] := by
  constructor
  · intro h
    exact absurd (h.distinct hallPatches [] rfl) (by decide +kernel)
  · intro h
    have hwrite := h.writes [.discover "東京"] (.discover "京都") [] (by decide +kernel)
    rcases hwrite.kept "京都" (List.mem_singleton_self _) (by decide +kernel) with hin | hspelling
    · exact absurd hin (by decide +kernel)
    · obtain ⟨-, -, -, hne⟩ := hspelling
      exact hne (by decide +kernel)

end Sidequest.World
