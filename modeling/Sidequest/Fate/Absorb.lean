import Sidequest.Fate.Encounter

namespace Sidequest.Fate

open Lib

/-!
# What a sheet can absorb

The economy never changes which tracks and slots a sheet has, and a hit on a sheet that has the
track and no level of consequence twice is absorbed without a raise.

* `FateSheet.Shape` — the tracks and slots of a sheet, which every computation of the economy
  preserves, whether it returns or raises;
* `meets_absorbShifts` — absorbing a hit of at least one shift on a sound sheet never raises;
* `absorbShifts_covers` — it survives exactly if anything admissible covers the hit.
-/

section

/-! ### The shape of a sheet -/

/-- The sheet has the tracks and the levels of consequence that `base` has. -/
def FateSheet.Shape (base sheet : FateSheet) : Prop :=
  (∀ track, (sheet.stress.get? track).isSome = (base.stress.get? track).isSome) ∧
    sheet.consequences.map Consequence.level = base.consequences.map Consequence.level

theorem FateSheet.Shape.refl (base : FateSheet) : base.Shape base := ⟨fun _ => rfl, rfl⟩

instance : IsPreorder FateSheet FateSheet.Shape where
  refl := FateSheet.Shape.refl
  trans _ _ _ h h' := ⟨fun track => (h'.1 track).trans (h.1 track), h'.2.trans h.2⟩

theorem shape_spendFatePoint (actor reason : String) :
    Preserves FateSheet.Shape (spendFatePoint actor reason) := by
  refine preserves_get.bind (fun sheet => ?_)
  exact (preserves_throw _).ite (preserves_modify FateSheet.Shape.refl)

theorem shape_earnFatePoint : Preserves FateSheet.Shape earnFatePoint :=
  preserves_modify FateSheet.Shape.refl

theorem shape_updateConsequence (sheet : FateSheet) (p : Consequence → Bool)
    {f : Consequence → Consequence} (hf : ∀ c, (f c).level = c.level) :
    sheet.Shape { sheet with consequences := updateFirst p f sheet.consequences } :=
  ⟨fun _ => rfl, map_updateFirst hf sheet.consequences⟩

theorem level_fill (aspect : Option Aspect) (c : Consequence) :
    ({ c with aspect := aspect } : Consequence).level = c.level := rfl

theorem shape_fillConsequence (sheet : FateSheet) (level : ConsequenceLevel) (aspect : Aspect) :
    sheet.Shape { sheet with
      consequences := updateFirst (·.level = level)
        (fun slot => { slot with aspect := some aspect }) sheet.consequences } :=
  shape_updateConsequence sheet _ (level_fill (some aspect))

theorem shape_useFreeInvoke (sheet : FateSheet) (text : String) :
    sheet.Shape (sheet.useFreeInvoke text) := by
  unfold FateSheet.useFreeInvoke
  split
  · exact FateSheet.Shape.refl sheet
  · exact shape_updateConsequence sheet _ (fun _ => rfl)

theorem shape_invokeAspect (actor text : String) (mode : InvokeMode) :
    Preserves FateSheet.Shape (invokeAspect actor text mode) := by
  refine preserves_get.bind (fun sheet => ?_)
  cases sheet.allAspects.find? (·.text = text) with
  | none => exact preserves_throw _
  | some aspect =>
    have hpay : Preserves FateSheet.Shape (payInvocation actor aspect) :=
      (preserves_modify (fun s => shape_useFreeInvoke s aspect.text)).ite
        (shape_spendFatePoint actor "invoke")
    exact hpay.bind (fun _ => preserves_pure _)

/-- Marking stress keeps the shape of a sheet. -/
theorem shape_markStress (actor : String) (track : StressTrackName) (value : Int) :
    Preserves FateSheet.Shape (markStress actor track value) := by
  refine preserves_get.bind (fun sheet => ?_)
  cases sheet.stress.get? track with
  | none => exact preserves_throw _
  | some boxes =>
    refine Preserves.ite (preserves_modify (fun s => ⟨fun t => ?_, rfl⟩)) (preserves_throw _)
    rw [Dict.get?_modify]
    by_cases ht : t = track
    · rw [if_pos ht, ht, Option.isSome_map]
    · rw [if_neg ht]

/-- So does taking a consequence. -/
theorem shape_takeConsequence (actor : String) (level : ConsequenceLevel) (text : String) :
    Preserves FateSheet.Shape (takeConsequence actor level text) := by
  refine preserves_get.bind (fun sheet => ?_)
  cases sheet.consequences.find? (·.level = level) with
  | none => exact preserves_throw _
  | some slot =>
    obtain ⟨level', value, aspect⟩ := slot
    cases aspect with
    | some aspect => exact preserves_throw _
    | none => exact preserves_modify (fun s => shape_fillConsequence s level _)

theorem shape_takeConsequences (actor source : String) (slots : List Consequence)
    (remaining : Int) : Preserves FateSheet.Shape (takeConsequences actor source slots remaining) := by
  induction slots generalizing remaining with
  | nil => exact preserves_pure _
  | cons slot slots ih =>
    exact (preserves_pure _).ite
      ((shape_takeConsequence actor slot.level _).bind (fun _ => ih _))

theorem shape_markBox (track : StressTrackName) (boxes : List StressBox) (shifts : Int)
    (actor : String) : Preserves FateSheet.Shape (markBox track boxes shifts actor) := by
  unfold markBox
  cases chooseBox boxes shifts with
  | none => exact preserves_pure _
  | some value => exact (shape_markStress actor track value).bind (fun _ => preserves_pure _)

/-- **Absorbing** a hit keeps the tracks and the slots. -/
theorem shape_absorbShifts (track : StressTrackName) (shifts : Int) (actor source : String) :
    Preserves FateSheet.Shape (absorbShifts track shifts actor source) := by
  refine (preserves_throw _).ite (preserves_get.bind (fun sheet => ?_))
  cases sheet.stress.get? track with
  | none => exact preserves_throw _
  | some boxes =>
    refine (shape_markBox track boxes shifts actor).bind (fun remaining => ?_)
    refine preserves_get.bind (fun sheet' => ?_)
    exact (shape_takeConsequences actor source _ remaining).bind (fun _ => preserves_pure _)

/-! ### Hits on sound sheets -/

/-- The sheet has the track, and no level of consequence twice. -/
def FateSheet.Sound (sheet : FateSheet) (track : StressTrackName) : Prop :=
  (sheet.stress.get? track).isSome = true ∧ (sheet.consequences.map Consequence.level).Nodup

instance (sheet : FateSheet) (track : StressTrackName) : Decidable (sheet.Sound track) :=
  inferInstanceAs (Decidable (_ ∧ _))

variable {sheet : FateSheet} {track : StressTrackName}

/-- A sheet of the shape of a sound one is sound. -/
theorem FateSheet.Sound.of_shape {base : FateSheet} (h : base.Sound track)
    (hshape : base.Shape sheet) : sheet.Sound track := by
  refine ⟨(hshape.1 track).trans h.1, ?_⟩
  rw [hshape.2]
  exact h.2

/-- The slots are of different levels, and the sheet has them open. -/
def Takeable (slots : List Consequence) (sheet : FateSheet) : Prop :=
  (sheet.consequences.map Consequence.level).Nodup ∧ (slots.map Consequence.level).Nodup ∧
    ∀ slot ∈ slots, ∃ c ∈ sheet.consequences, c.level = slot.level ∧ c.aspect = none

/-- Where no level stands twice, the slot of a level is the first one found. -/
theorem find?_level {l : List Consequence} (hnodup : (l.map Consequence.level).Nodup)
    {c : Consequence} (hc : c ∈ l) : l.find? (·.level = c.level) = some c := by
  have hsome : (l.find? (·.level = c.level)).isSome = true := by
    rw [List.find?_isSome]
    exact ⟨c, hc, by simp⟩
  obtain ⟨d, hd⟩ := Option.isSome_iff_exists.mp hsome
  have hlevel : d.level = c.level := by simpa using List.find?_some hd
  have hmem := List.mem_of_find?_eq_some hd
  rw [hd, List.inj_on_of_nodup_map hnodup hmem hc hlevel]

/-- Taking the first of some takeable slots leaves the others takeable. -/
theorem meets_takeConsequence (actor text : String) (slot : Consequence)
    (slots : List Consequence) :
    Meets (Takeable (slot :: slots)) (takeConsequence actor slot.level text)
      (fun _ => Takeable slots) (Never FateError FateSheet) := by
  refine meets_get_bind (fun sheet hready => ?_)
  obtain ⟨hnodup, hslots, hopen⟩ := hready
  obtain ⟨c, hc, hlevel, hnone⟩ := hopen slot (.head _)
  rw [← hlevel, find?_level hnodup hc]
  simp only [hnone]
  rintro s rfl
  rw [List.map_cons, List.nodup_cons] at hslots
  refine ⟨?_, hslots.2, fun slot' hslot' => ?_⟩
  · show ((updateFirst _ _ s.consequences).map Consequence.level).Nodup
    rw [map_updateFirst (level_fill _)]
    exact hnodup
  · obtain ⟨c', hc', hlevel', hnone'⟩ := hopen slot' (.tail slot hslot')
    refine ⟨c', mem_updateFirst_of_mem hc' ?_, hlevel', hnone'⟩
    -- the level was taken once only
    have hne : c'.level ≠ c.level := by
      rw [hlevel', hlevel]
      intro heq
      exact hslots.1 (heq ▸ List.mem_map_of_mem hslot')
    simpa using hne

/-- Slots that can be taken are taken without a raise. -/
theorem meets_takeConsequences (actor source : String) (slots : List Consequence)
    (remaining : Int) : Meets (Takeable slots) (takeConsequences actor source slots remaining)
      (fun _ _ => True) (Never FateError FateSheet) := by
  induction slots generalizing remaining with
  | nil => exact fun _ _ => trivial
  | cons slot slots ih =>
    refine meets_ite (fun _ _ _ => trivial) (fun _ => ?_)
    exact meets_bind (meets_takeConsequence actor _ slot slots) (fun _ => ih _)

variable {boxes : List StressBox}

/-- The box that is chosen is there and not checked. -/
theorem exists_box_of_chooseBox {shifts value : Int} (h : chooseBox boxes shifts = some value) :
    boxes.any (fun box => box.value = value && !box.checked) = true := by
  have hmem : value ∈ (boxes.filter (!·.checked)).map StressBox.value := by
    unfold chooseBox at h
    dsimp only at h
    split at h
    · rename_i v hv
      cases h
      exact List.mem_of_mem_filter (List.min?_mem hv)
    · exact List.max?_mem h
  obtain ⟨box, hbox, hvalue⟩ := List.mem_map.mp hmem
  obtain ⟨hin, hopen⟩ := List.mem_filter.mp hbox
  rw [List.any_eq_true]
  exact ⟨box, hin, by simp [hvalue, hopen]⟩

/-- Where no level stands twice, the open slots can be taken one after the other. -/
theorem takeable_openSlots (hnodup : (sheet.consequences.map Consequence.level).Nodup) :
    Takeable sheet.openSlots sheet := by
  have hperm : sheet.openSlots.Perm (sheet.consequences.filter (·.aspect = none)) :=
    List.perm_insertionSort _ _
  refine ⟨hnodup, ?_, fun slot hslot => ?_⟩
  · rw [(hperm.map Consequence.level).nodup_iff]
    exact hnodup.sublist (List.filter_sublist.map Consequence.level)
  · obtain ⟨hmem, hopen⟩ := List.mem_filter.mp (hperm.mem_iff.mp hslot)
    exact ⟨slot, hmem, rfl, of_decide_eq_true hopen⟩

/-- Check the first unused box of a value on a track. -/
def FateSheet.check (sheet : FateSheet) (track : StressTrackName) (value : Int) : FateSheet :=
  { sheet with
    stress := sheet.stress.modify track
      (updateFirst (fun box => box.value = value && !box.checked)
        (fun box => { box with checked := true })) }

/-- Marking an open box checks it. -/
theorem exec_markStress (actor : String) {value : Int}
    (hboxes : sheet.stress.get? track = some boxes)
    (hbox : boxes.any (fun box => box.value = value && !box.checked) = true) :
    (markStress actor track value).exec sheet = (.ok ⟨⟩, sheet.check track value) := by
  unfold markStress
  rw [Effect.exec_get_bind, hboxes]
  dsimp only
  rw [if_pos hbox]
  rfl

/-- **Marking a box** raises nothing, and leaves open slots that can be taken. -/
theorem meets_markBox (shifts : Int) (actor : String) (base : FateSheet) (hsound : base.Sound track)
    (hboxes : base.stress.get? track = some boxes) :
    Meets (fun s => s = base) (markBox track boxes shifts actor)
      (fun _ s => Takeable s.openSlots s) (Never FateError FateSheet) := by
  unfold markBox
  cases hchoose : chooseBox boxes shifts with
  | none =>
    rintro s rfl
    exact takeable_openSlots hsound.2
  | some value =>
    have hmark : Meets (fun s => s = base) (markStress actor track value)
        (fun _ s => Takeable s.openSlots s) (Never FateError FateSheet) := by
      rintro s rfl
      rw [exec_markStress actor hboxes (exists_box_of_chooseBox hchoose)]
      have hchecked : Takeable (s.check track value).openSlots (s.check track value) :=
        takeable_openSlots hsound.2
      exact hchecked
    exact meets_bind hmark (fun _ _ hs => hs)

/-- **A hit on a sound sheet** of at least one shift is absorbed, or not, without a raise. -/
theorem meets_absorbShifts {shifts : Int} (hshifts : 0 < shifts) (actor source : String) :
    Meets (fun s : FateSheet => s.Sound track) (absorbShifts track shifts actor source)
      (fun _ _ => True) (Never FateError FateSheet) := by
  unfold absorbShifts
  rw [if_neg (by omega)]
  refine meets_get_bind (fun sheet hsound => ?_)
  obtain ⟨boxes, hboxes⟩ := Option.isSome_iff_exists.mp hsound.1
  rw [hboxes]
  refine meets_bind (meets_markBox shifts actor sheet hsound hboxes) (fun remaining => ?_)
  refine meets_get_bind (fun sheet' htake => ?_)
  refine meets_bind (Q := fun _ _ => True) ?_ (fun _ _ _ => trivial)
  refine (meets_takeConsequences actor source sheet'.openSlots remaining).weaken ?_
    (fun _ _ h => h) (fun _ _ h => h)
  rintro s rfl
  exact htake

/-! ### What a hit changes -/

/-- What harm is marked on: the stress tracks and the consequence slots. -/
def FateSheet.harm (sheet : FateSheet) :
    Dict StressTrackName (List StressBox) × List Consequence := (sheet.stress, sheet.consequences)

/-- The smallest open slot is the first of its level, so that it can be filled. -/
def FateSheet.canFill (sheet : FateSheet) : Bool :=
  sheet.openSlots.head?.any (fun slot =>
    (sheet.consequences.find? (fun c => c.level = slot.level)).any (fun c => c.aspect = none))

/-- A hit on the track leaves a mark: there is an unchecked box, or a slot that can be filled. -/
def FateSheet.room (sheet : FateSheet) (track : StressTrackName) : Bool :=
  (sheet.stress.get? track).any
    (fun boxes => boxes.any (fun box => !box.checked) || sheet.canFill)

/-- How many slots are filled. -/
def FateSheet.filled (sheet : FateSheet) : Int :=
  (sheet.consequences.map (fun slot => if slot.aspect.isSome then (1 : Int) else 0)).sum

/-- The stress is the same, and no slot has been emptied. -/
def OnlyFills (sheet sheet' : FateSheet) : Prop :=
  sheet'.stress = sheet.stress ∧ sheet.filled ≤ sheet'.filled

instance : IsPreorder FateSheet OnlyFills where
  refl _ := ⟨rfl, le_rfl⟩
  trans _ _ _ h h' := ⟨h'.1.trans h.1, h.2.trans h'.2⟩

/-- The sheet with the first slot of a level filled. -/
def FateSheet.fill (sheet : FateSheet) (level : ConsequenceLevel) (aspect : Aspect) : FateSheet :=
  { sheet with
    consequences := updateFirst (fun slot => slot.level = level)
      (fun slot => { slot with aspect := some aspect }) sheet.consequences }

/-- A consequence in an open slot is one more that is filled. -/
theorem filled_fill {level : ConsequenceLevel} {slot : Consequence} (aspect : Aspect)
    (hfind : sheet.consequences.find? (·.level = level) = some slot)
    (hopen : slot.aspect = none) : (sheet.fill level aspect).filled = sheet.filled + 1 := by
  unfold FateSheet.fill FateSheet.filled
  rw [sum_map_updateFirst _ hfind, hopen]
  simp

section Consequences

variable (actor source : String) (level : ConsequenceLevel) (text : String)

/-- A consequence fills its slot if that is open. -/
theorem exec_takeConsequence_of_open {slot : Consequence}
    (hfind : sheet.consequences.find? (·.level = level) = some slot)
    (hopen : slot.aspect = none) : (takeConsequence actor level text).exec sheet =
      (.ok ⟨⟩, sheet.fill level ⟨text, .consequence, 1⟩) := by
  unfold takeConsequence
  rw [Effect.exec_get_bind, hfind]
  dsimp only
  rw [hopen]
  rfl

/-- Where the first slot of the level is missing or filled, nothing is taken. -/
theorem exec_takeConsequence_of_not_open
    (hnot : (sheet.consequences.find? (·.level = level)).any
      (·.aspect = none) = false) :
    ∃ e, (takeConsequence actor level text).exec sheet = (.error e, sheet) := by
  unfold takeConsequence
  rw [Effect.exec_get_bind]
  cases hfind : sheet.consequences.find? (·.level = level) with
  | none => exact ⟨_, rfl⟩
  | some slot =>
    rw [hfind, Option.any_some] at hnot
    dsimp only
    cases hopen : slot.aspect with
    | none => exact absurd hopen (of_decide_eq_false hnot)
    | some aspect => exact ⟨_, rfl⟩

theorem onlyFills_takeConsequence : Preserves OnlyFills (takeConsequence actor level text) := by
  intro sheet
  cases hopen : (sheet.consequences.find? (·.level = level)).any
      (·.aspect = none) with
  | false =>
    obtain ⟨e, hexec⟩ := exec_takeConsequence_of_not_open actor level text hopen
    rw [hexec]
    exact refl_of OnlyFills sheet
  | true =>
    obtain ⟨slot, hfind, hnone⟩ := exists_of_any hopen
    rw [exec_takeConsequence_of_open actor level text hfind (of_decide_eq_true hnone)]
    refine ⟨rfl, ?_⟩
    rw [filled_fill _ hfind (of_decide_eq_true hnone)]
    omega

/-- Consequences only fill slots. -/
theorem onlyFills_takeConsequences (slots : List Consequence) (remaining : Int) :
    Preserves OnlyFills (takeConsequences actor source slots remaining) := by
  induction slots generalizing remaining with
  | nil => exact preserves_pure _
  | cons slot slots ih =>
    exact (preserves_pure _).ite
      ((onlyFills_takeConsequence actor slot.level _).bind (fun _ => ih _))

/-- Shifts that are left over change the slots exactly where the smallest open one can be filled. -/
theorem harm_takeConsequences_iff (sheet : FateSheet) {remaining : Int}
    (hremaining : 0 < remaining) :
    ((takeConsequences actor source sheet.openSlots remaining).exec sheet).2.harm ≠ sheet.harm ↔
      sheet.canFill = true := by
  unfold FateSheet.canFill
  cases sheet.openSlots with
  | nil => exact iff_of_false (fun h => h rfl) (by simp)
  | cons slot slots =>
    unfold takeConsequences
    rw [if_neg (by omega), List.head?_cons, Option.any_some, Effect.exec_bind]
    cases hopen : (sheet.consequences.find? (·.level = slot.level)).any
        (·.aspect = none) with
    | false =>
      obtain ⟨e, hexec⟩ := exec_takeConsequence_of_not_open actor slot.level _ hopen
      rw [hexec]
      exact iff_of_false (fun h => h rfl) (by simp)
    | true =>
      obtain ⟨c, hfind, hnone⟩ := exists_of_any hopen
      rw [exec_takeConsequence_of_open actor slot.level _ hfind (of_decide_eq_true hnone)]
      refine iff_of_true (fun h => ?_) rfl
      -- one more slot is filled, and none is emptied after that
      have hrest := (onlyFills_takeConsequences actor source slots (max 0 (remaining - slot.value))
        (sheet.fill slot.level ⟨slot.level.title ++ " consequence inflicted by " ++ source,
          .consequence, 1⟩)).2
      rw [filled_fill _ hfind (of_decide_eq_true hnone)] at hrest
      have hsame : ∀ sheet' : FateSheet, sheet'.harm = sheet.harm →
          sheet'.filled = sheet.filled := by
        intro sheet' heq
        unfold FateSheet.filled
        rw [(Prod.mk.inj heq).2]
      have hfilled := hsame _ h
      dsimp only at hfilled
      omega

end Consequences

/-- No box is chosen exactly if all are checked. -/
theorem chooseBox_eq_none_iff (boxes : List StressBox) (shifts : Int) :
    chooseBox boxes shifts = none ↔ boxes.any (!·.checked) = false := by
  unfold chooseBox
  dsimp only
  constructor
  · intro h
    split at h
    · simp at h
    · rw [List.max?_eq_none_iff, List.map_eq_nil_iff, List.filter_eq_nil_iff] at h
      rw [List.any_eq_false]
      exact h
  · intro h
    rw [List.any_eq_false] at h
    rw [List.filter_eq_nil_iff.mpr h]
    rfl

/-- **What a hit changes.** It leaves a mark exactly where there is room for one. -/
theorem harm_absorbShifts_iff (sheet : FateSheet) (track : StressTrackName) {shifts : Int}
    (hshifts : 0 < shifts) (actor source : String) :
    ((absorbShifts track shifts actor source).exec sheet).2.harm ≠ sheet.harm ↔
      sheet.room track = true := by
  unfold absorbShifts FateSheet.room
  rw [if_neg (by omega), Effect.exec_get_bind]
  cases hboxes : sheet.stress.get? track with
  | none => exact iff_of_false (fun h => h rfl) (by simp)
  | some boxes =>
    dsimp only [Option.any_some]
    rw [Effect.exec_bind]
    unfold markBox
    cases hchoose : chooseBox boxes shifts with
    | none =>
      -- the slots take all of it
      rw [(chooseBox_eq_none_iff boxes shifts).mp hchoose, Bool.false_or,
        ← harm_takeConsequences_iff actor source sheet hshifts]
      dsimp only [Effect.exec_pure]
      rw [Effect.exec_get_bind, Effect.exec_bind]
      rcases (takeConsequences actor source sheet.openSlots shifts).exec sheet with ⟨e | r, sheet'⟩
      · exact Iff.rfl
      · exact Iff.rfl
    | some value =>
      -- a box is checked, and stays checked
      have hbox := exists_box_of_chooseBox hchoose
      have hmark := exec_markStress actor hboxes hbox
      have hroom : boxes.any (!·.checked) = true := by
        rw [List.any_eq_true] at hbox ⊢
        obtain ⟨box, hmem, hopen⟩ := hbox
        rw [Bool.and_eq_true] at hopen
        exact ⟨box, hmem, hopen.2⟩
      rw [hroom, Bool.true_or]
      refine iff_of_true (fun h => ?_) rfl
      obtain ⟨box, hfind⟩ := Option.isSome_iff_exists.mp
        ((List.find?_isSome).mpr (List.any_eq_true.mp hbox))
      rw [Effect.exec_bind, hmark] at h
      have hrest : Preserves OnlyFills (do
          let sheet ← get
          let remaining ← takeConsequences actor source sheet.openSlots (max 0 (shifts - value))
          pure (decide (remaining ≤ 0)) : SheetM Bool) :=
        preserves_get.bind (fun sheet' => (onlyFills_takeConsequences actor source _ _).bind
          (fun _ => preserves_pure _))
      have hsame := (hrest _).1.symm.trans (Prod.mk.inj h).1
      have hget : (sheet.check track value).stress.get? track = sheet.stress.get? track :=
        congrArg (·.get? track) hsame
      unfold FateSheet.check at hget
      rw [Dict.get?_modify, if_pos rfl, hboxes] at hget
      have hchecked := (updateFirst_eq_self_iff hfind).mp (Option.some.inj hget)
      have hopen := List.find?_some hfind
      rw [Bool.and_eq_true, ← hchecked] at hopen
      exact absurd hopen.2 (by simp)

end

/-! ### The box -/

/-- The unchecked box to be marked: the smallest one that covers the shifts, or else the largest. -/
def BestBox (boxes : List StressBox) (shifts : Int) (b : StressBox) : Prop :=
  b.checked = false ∧
    ((shifts ≤ b.value ∧
        ∀ c ∈ boxes, c.checked = false → shifts ≤ c.value → b.value ≤ c.value) ∨
      (b.value < shifts ∧ ∀ c ∈ boxes, c.checked = false → c.value ≤ b.value))

/-- The boxes of a track after a hit, and what they took: nothing if all were checked before, and
    otherwise the value of the best box, which is checked now. -/
inductive Relieved (boxes : List StressBox) (shifts : Int) : List StressBox → Int → Prop
  | full (h : ∀ b ∈ boxes, b.checked = true) : Relieved boxes shifts boxes 0
  | best (before : List StressBox) (b : StressBox) (after : List StressBox)
      (hsplit : boxes = before ++ b :: after) (hbest : BestBox boxes shifts b) :
      Relieved boxes shifts (before ++ { b with checked := true } :: after) b.value

variable {boxes : List StressBox} {shifts : Int}

/-- **The chosen box** is the best of the open ones. -/
theorem bestBox_of_chooseBox {value : Int} (h : chooseBox boxes shifts = some value) {b : StressBox}
    (hvalue : b.value = value) (hopen : b.checked = false) : BestBox boxes shifts b := by
  have hmem : ∀ c ∈ boxes, c.checked = false →
      c.value ∈ (boxes.filter (!·.checked)).map StressBox.value := by
    intro c hc hfree
    exact List.mem_map_of_mem (List.mem_filter.mpr ⟨hc, by simp [hfree]⟩)
  refine ⟨hopen, ?_⟩
  unfold chooseBox at h
  dsimp only at h
  split at h
  · rename_i v hv
    obtain rfl := Option.some.inj h
    obtain ⟨hin, hleast⟩ := List.min?_eq_some_iff.mp hv
    have hcovers : shifts ≤ v := by simpa using (List.mem_filter.mp hin).2
    refine .inl ⟨hvalue ▸ hcovers, fun c hc hfree hcover => ?_⟩
    rw [hvalue]
    exact hleast c.value (List.mem_filter.mpr ⟨hmem c hc hfree, by simpa using hcover⟩)
  · rename_i hnone
    obtain ⟨hin, hlargest⟩ := List.max?_eq_some_iff.mp h
    rw [List.min?_eq_none_iff, List.filter_eq_nil_iff] at hnone
    have hshort : value < shifts := by simpa using hnone value hin
    refine .inr ⟨hvalue ▸ hshort, fun c hc hfree => ?_⟩
    rw [hvalue]
    exact hlargest c.value (hmem c hc hfree)

/-- **Checking it** relieves the track. -/
theorem relieved_of_chooseBox {value : Int} (h : chooseBox boxes shifts = some value) :
    Relieved boxes shifts (updateFirst (fun box => box.value = value && !box.checked)
      (fun box => { box with checked := true }) boxes) value := by
  obtain ⟨b, hfind⟩ := Option.isSome_iff_exists.mp
    (List.find?_isSome.mpr (List.any_eq_true.mp (exists_box_of_chooseBox h)))
  obtain ⟨before, after, hsplit, hupdate⟩ :=
    exists_split_updateFirst (fun box : StressBox => { box with checked := true }) hfind
  have hmatch := List.find?_some hfind
  simp only [Bool.and_eq_true, decide_eq_true_eq, Bool.not_eq_true'] at hmatch
  rw [hupdate, ← hmatch.1]
  exact Relieved.best before b after hsplit (bestBox_of_chooseBox h hmatch.1 hmatch.2)

/-! ### The slots -/

/-- The slots that are filled for the shifts left, in the order given. -/
def needed : List Consequence → Int → List Consequence
  | [], _ => []
  | slot :: slots, remaining =>
    if remaining ≤ 0 then [] else slot :: needed slots (remaining - slot.value)

variable (slots : List Consequence)

/-- What slots absorb. -/
def absorbed : Int := (slots.map Consequence.value).sum

@[simp] theorem absorbed_nil : absorbed [] = 0 := rfl

@[simp] theorem absorbed_cons (slot : Consequence) (slots : List Consequence) :
    absorbed (slot :: slots) = slot.value + absorbed slots := rfl

/-- **No slot too many.** The first slots are filled; they cover the shifts, or are all; fewer do
    not. -/
theorem needed_spec (remaining : Int) : needed slots remaining <+: slots ∧
    (remaining ≤ absorbed (needed slots remaining) ∨ needed slots remaining = slots) ∧
    ∀ fewer, fewer <+: slots → fewer.length < (needed slots remaining).length →
      absorbed fewer < remaining := by
  induction slots generalizing remaining with
  | nil =>
    refine ⟨List.prefix_refl [], .inr rfl, fun fewer _ hlength => ?_⟩
    exact absurd hlength (Nat.not_lt_zero _)
  | cons slot slots ih =>
    unfold needed
    split
    · rename_i hdone
      refine ⟨List.nil_prefix, .inl ?_, fun fewer _ hlength => ?_⟩
      · simpa using hdone
      · exact absurd hlength (Nat.not_lt_zero _)
    obtain ⟨hfront, hcovers, hfewer⟩ := ih (remaining - slot.value)
    refine ⟨List.cons_prefix_cons.mpr ⟨rfl, hfront⟩, ?_, fun fewer hsub hlength => ?_⟩
    · rcases hcovers with h | h
      · rw [absorbed_cons]
        omega
      · right
        rw [h]
    · cases fewer with
      | nil =>
        rw [absorbed_nil]
        omega
      | cons first fewer =>
        obtain ⟨rfl, hrest⟩ := List.cons_prefix_cons.mp hsub
        have hless := hfewer fewer hrest (Nat.lt_of_succ_lt_succ hlength)
        rw [absorbed_cons]
        omega

/-- A hit of which nothing is left needs no slot. -/
theorem needed_of_nonpos {remaining : Int} (h : remaining ≤ 0) : needed slots remaining = [] := by
  cases slots with
  | nil => rfl
  | cons slot slots =>
    unfold needed
    rw [if_pos h]

theorem needed_max (remaining : Int) : needed slots (max 0 remaining) = needed slots remaining := by
  rcases le_or_gt remaining 0 with h | h
  · rw [max_eq_left h, needed_of_nonpos slots (le_refl 0), needed_of_nonpos slots h]
  · rw [max_eq_right h.le]

/-- The wound that is written on a slot. -/
def wound (source : String) (level : ConsequenceLevel) : Aspect :=
  ⟨level.title ++ " consequence inflicted by " ++ source, .consequence, 1⟩

/-- The sheet with wounds on the slots of some levels. -/
def FateSheet.inflict (sheet : FateSheet) (source : String) (taken : List Consequence) : FateSheet :=
  { sheet with
    consequences := sheet.consequences.map (fun c =>
      if c.level ∈ taken.map Consequence.level then { c with aspect := some (wound source c.level) }
      else c) }

@[simp] theorem inflict_nil (sheet : FateSheet) (source : String) :
    sheet.inflict source [] = sheet := by
  simp [FateSheet.inflict]

variable {sheet : FateSheet}

/-- One slot after the other. -/
theorem inflict_cons (hnodup : (sheet.consequences.map Consequence.level).Nodup) (source : String)
    (slot : Consequence) (taken : List Consequence) :
    (sheet.fill slot.level (wound source slot.level)).inflict source taken
      = sheet.inflict source (slot :: taken) := by
  unfold FateSheet.inflict FateSheet.fill
  rw [updateFirst_eq_map _ hnodup, List.map_map]
  congr 1
  refine List.map_congr_left (fun c _ => ?_)
  rw [Function.comp_apply, List.map_cons]
  by_cases hlevel : c.level = slot.level
  · rw [if_pos hlevel, if_pos (List.mem_cons.mpr (.inl hlevel)), ← hlevel]
    split <;> rfl
  · rw [if_neg hlevel]
    simp only [List.mem_cons, hlevel, false_or]

/-- **What a list of slots takes**: as many as are needed, in their order. -/
theorem exec_takeConsequences (actor source : String) (slots : List Consequence) {remaining : Int}
    (hremaining : 0 ≤ remaining) (htake : Takeable slots sheet) :
    (takeConsequences actor source slots remaining).exec sheet =
      (.ok (max 0 (remaining - absorbed (needed slots remaining))),
        sheet.inflict source (needed slots remaining)) := by
  induction slots generalizing remaining sheet with
  | nil =>
    unfold takeConsequences needed
    rw [inflict_nil, absorbed_nil, sub_zero, max_eq_right hremaining]
    rfl
  | cons slot slots ih =>
    unfold takeConsequences needed
    split
    · rw [inflict_nil, absorbed_nil, sub_zero, max_eq_right hremaining]
      rfl
    have hopen := htake.2.2 slot (.head _)
    obtain ⟨c, hc, hlevel, hnone⟩ := hopen
    have hfind := find?_level htake.1 hc
    rw [hlevel] at hfind
    have hexec := exec_takeConsequence_of_open actor slot.level
      (slot.level.title ++ " consequence inflicted by " ++ source) hfind hnone
    have hnext : Takeable slots (sheet.fill slot.level (wound source slot.level)) := by
      have hmeets := meets_takeConsequence actor
        (slot.level.title ++ " consequence inflicted by " ++ source) slot slots sheet htake
      rw [hexec] at hmeets
      exact hmeets
    rw [Effect.exec_bind, hexec]
    dsimp only
    rw [show (⟨slot.level.title ++ " consequence inflicted by " ++ source, .consequence, 1⟩ : Aspect)
        = wound source slot.level from rfl, ih (le_max_left 0 _) hnext, needed_max,
      inflict_cons htake.1, absorbed_cons]
    congr 2
    rcases le_or_gt (remaining - slot.value) 0 with h | h
    · -- the slot covers what was left, and no other one is taken
      rw [needed_of_nonpos slots h, absorbed_nil]
      omega
    · omega

/-! ### The sheet after a hit -/

/-- A hit is absorbed if the slots that are open come to it. -/
theorem exec_fillSlots (actor source : String)
    (hnodup : (sheet.consequences.map Consequence.level).Nodup) (left : Int) : (do
      let sheet ← get
      let remaining ← takeConsequences actor source sheet.openSlots (max 0 left)
      pure (decide (remaining ≤ 0)) : SheetM Bool).exec sheet =
      (.ok (decide (left ≤ absorbed (needed sheet.openSlots left))),
        sheet.inflict source (needed sheet.openSlots left)) := by
  rw [Effect.exec_get_bind, Effect.exec_bind, exec_takeConsequences actor source _ (le_max_left 0 left)
    (takeable_openSlots hnodup), needed_max]
  dsimp only
  congr 2
  rw [decide_eq_decide]
  rcases le_or_gt left 0 with h | h
  · rw [needed_of_nonpos _ h, absorbed_nil]
    omega
  · omega

/-- **A hit on a sound sheet.** The best box is checked, and the slots needed for what it leaves are
    filled; the answer is whether this covers the hit. -/
theorem exec_absorbShifts {track : StressTrackName} (hshifts : 0 < shifts)
    (hboxes : sheet.stress.get? track = some boxes)
    (hnodup : (sheet.consequences.map Consequence.level).Nodup) (actor source : String) :
    ∃ boxes' relief, Relieved boxes shifts boxes' relief ∧
      (absorbShifts track shifts actor source).exec sheet =
        (.ok (decide (shifts - relief ≤ absorbed (needed sheet.openSlots (shifts - relief)))),
          { sheet.inflict source (needed sheet.openSlots (shifts - relief)) with
            stress := sheet.stress.modify track (fun _ => boxes') }) := by
  unfold absorbShifts
  rw [if_neg (by omega), Effect.exec_get_bind, hboxes]
  dsimp only
  unfold markBox
  cases hchoose : chooseBox boxes shifts with
  | none =>
    have hfull := (chooseBox_eq_none_iff boxes shifts).mp hchoose
    refine ⟨boxes, 0, Relieved.full (fun b hb => ?_), ?_⟩
    · rw [List.any_eq_false] at hfull
      simpa using hfull b hb
    have hstress : sheet.stress.modify track (fun _ => boxes) = sheet.stress :=
      Dict.modify_eq_self_iff.mpr (fun v hv => Option.some.inj (hboxes.symm.trans hv))
    have hslots := exec_fillSlots actor source hnodup shifts
    rw [max_eq_right hshifts.le] at hslots
    rw [sub_zero, hstress]
    exact hslots
  | some value =>
    refine ⟨_, value, relieved_of_chooseBox hchoose, ?_⟩
    have hmark := exec_markStress actor hboxes (exists_box_of_chooseBox hchoose)
    -- a box changes no slot
    have hchecked : ((sheet.check track value).consequences.map Consequence.level).Nodup := hnodup
    have hslots := exec_fillSlots actor source hchecked (shifts - value)
    have hstress : (sheet.check track value).stress = sheet.stress.modify track (fun _ =>
        updateFirst (fun box => box.value = value && !box.checked)
          (fun box => { box with checked := true }) boxes) := by
      unfold FateSheet.check Dict.modify
      rw [hboxes]
    rw [← hstress]
    rw [Effect.exec_bind, Effect.exec_bind, hmark]
    exact hslots

/-! ### What could be marked -/

/-- What a sheet may absorb a hit with: one unchecked box at most, and open slots. -/
def Admissible (sheet : FateSheet) (boxes : List StressBox) (box? : Option StressBox)
    (slots : List Consequence) : Prop :=
  (∀ b, box? = some b → b ∈ boxes ∧ b.checked = false) ∧
    slots.Sublist (sheet.consequences.filter (fun slot => slot.aspect = none))

/-- What a box takes, if there is one. -/
def boxValue (box? : Option StressBox) : Int := (box?.map StressBox.value).getD 0

theorem absorbed_perm {l l' : List Consequence} (h : l.Perm l') : absorbed l = absorbed l' :=
  (h.map Consequence.value).sum_eq

/-- More slots absorb more, if none has a negative value. -/
theorem absorbed_le_of_sublist {l l' : List Consequence} (h : l.Sublist l')
    (hvalues : ∀ slot ∈ l', 0 ≤ slot.value) : absorbed l ≤ absorbed l' := by
  induction h with
  | slnil => exact le_rfl
  | cons slot _ ih =>
    have hslot := hvalues slot (.head _)
    have hrest := ih (fun c hc => hvalues c (.tail slot hc))
    rw [absorbed_cons]
    omega
  | cons_cons slot _ ih =>
    have hrest := ih (fun c hc => hvalues c (.tail slot hc))
    rw [absorbed_cons, absorbed_cons]
    omega

/-- What the best box takes could be taken by a box, and no box takes more, unless the best one
    covers the hit. -/
theorem Relieved.best_of_all {boxes' : List StressBox} {relief : Int}
    (h : Relieved boxes shifts boxes' relief) (hvalues : ∀ b ∈ boxes, 0 ≤ b.value) :
    (∃ box?, (∀ b, box? = some b → b ∈ boxes ∧ b.checked = false) ∧ boxValue box? = relief) ∧
    ∀ box?, (∀ b, box? = some b → b ∈ boxes ∧ b.checked = false) →
      shifts ≤ relief ∨ boxValue box? ≤ relief := by
  cases h with
  | full hfull =>
    refine ⟨⟨none, fun b hb => (by cases hb), rfl⟩, fun box? hbox => .inr ?_⟩
    cases box? with
    | none => exact le_refl 0
    | some b =>
      obtain ⟨hb, hopen⟩ := hbox b rfl
      rw [hfull b hb] at hopen
      cases hopen
  | best before b after hsplit hbest =>
    have hb : b ∈ boxes := by
      rw [hsplit]
      exact List.mem_append_right before (.head _)
    obtain ⟨hopen, hcase⟩ := hbest
    refine ⟨⟨some b, fun c hc => ?_, rfl⟩, fun box? hbox => ?_⟩
    · cases hc
      exact ⟨hb, hopen⟩
    rcases hcase with ⟨hcovers, _⟩ | ⟨_, hlargest⟩
    · exact .inl hcovers
    · right
      cases box? with
      | none => exact hvalues b hb
      | some c =>
        obtain ⟨hc, hfree⟩ := hbox c rfl
        exact hlargest c hc hfree

/-- What becomes of a slot: one that is taken was open and is filled, every other one stays. -/
def FilledTo (source : String) (taken : List Consequence) (c c' : Consequence) : Prop :=
  (c ∈ taken ∧ c.aspect = none ∧ c' = { c with aspect := some (wound source c.level) }) ∨
    (c ∉ taken ∧ c' = c)

/-- The open slots are those without an aspect. -/
theorem mem_openSlots_iff {c : Consequence} :
    c ∈ sheet.openSlots ↔ c ∈ sheet.consequences ∧ c.aspect = none := by
  unfold FateSheet.openSlots
  rw [(List.perm_insertionSort _ _).mem_iff, List.mem_filter, decide_eq_true_eq]

/-- **Each consequence** is filled if its slot was taken, and else as it was. -/
theorem filledTo_inflict (hnodup : (sheet.consequences.map Consequence.level).Nodup)
    (source : String) {taken : List Consequence} (htaken : ∀ c ∈ taken, c ∈ sheet.openSlots) :
    List.Forall₂ (FilledTo source taken) sheet.consequences
      (sheet.inflict source taken).consequences := by
  unfold FateSheet.inflict
  rw [List.forall₂_map_right_iff, List.forall₂_same]
  intro c hc
  by_cases hlevel : c.level ∈ taken.map Consequence.level
  · obtain ⟨d, hd, hsame⟩ := List.mem_map.mp hlevel
    obtain ⟨hmem, hopen⟩ := mem_openSlots_iff.mp (htaken d hd)
    obtain rfl : d = c := List.inj_on_of_nodup_map hnodup hmem hc hsame
    rw [if_pos hlevel]
    exact .inl ⟨hd, hopen, rfl⟩
  · rw [if_neg hlevel]
    exact .inr ⟨fun hmem => hlevel (List.mem_map_of_mem hmem), rfl⟩

/-- **Covering a hit.** On a sound sheet a hit checks the best unchecked box and fills the smallest
    open slots, none too many; the hit is covered exactly if anything admissible covers it. -/
theorem absorbShifts_covers {sheet : FateSheet} {track : StressTrackName} {boxes : List StressBox}
    {shifts : Int} (hshifts : 0 < shifts) (hboxes : sheet.stress.get? track = some boxes)
    (hnodup : (sheet.consequences.map Consequence.level).Nodup)
    (hvalues : (∀ b ∈ boxes, 0 ≤ b.value) ∧ ∀ c ∈ sheet.consequences, 0 ≤ c.value)
    (actor source : String) :
    ∃ boxes' relief taken consequences',
      Relieved boxes shifts boxes' relief ∧ taken <+: sheet.openSlots ∧
      List.Forall₂ (FilledTo source taken) sheet.consequences consequences' ∧
      (∀ fewer, fewer <+: sheet.openSlots → fewer.length < taken.length →
        relief + absorbed fewer < shifts) ∧
      (absorbShifts track shifts actor source).exec sheet =
        (.ok (decide (shifts ≤ relief + absorbed taken)),
          { sheet with
            stress := sheet.stress.modify track (fun _ => boxes')
            consequences := consequences' }) ∧
      (shifts ≤ relief + absorbed taken ↔ ∃ box? slots, Admissible sheet boxes box? slots ∧
        shifts ≤ boxValue box? + absorbed slots) := by
  obtain ⟨boxes', relief, hrelieved, hexec⟩ := exec_absorbShifts hshifts hboxes hnodup actor source
  obtain ⟨hfront, hall, hfewer⟩ := needed_spec sheet.openSlots (shifts - relief)
  obtain ⟨⟨box?, hbox, hvalue⟩, hlargest⟩ := hrelieved.best_of_all hvalues.1
  have hperm : sheet.openSlots.Perm (sheet.consequences.filter (·.aspect = none)) :=
    List.perm_insertionSort _ _
  have hopen : ∀ c ∈ sheet.openSlots, 0 ≤ c.value := fun c hc =>
    hvalues.2 c (mem_openSlots_iff.mp hc).1
  refine ⟨boxes', relief, needed sheet.openSlots (shifts - relief), _, hrelieved, hfront,
    filledTo_inflict hnodup source (fun c hc => hfront.subset hc), fun fewer hsub hlength => ?_, ?_,
    ?_⟩
  · have hless := hfewer fewer hsub hlength
    omega
  · rw [hexec]
    congr 2
    rw [decide_eq_decide]
    omega
  · constructor
    · intro hcovers
      -- the slots taken are open slots in another order
      obtain ⟨slots, hslots, hsub⟩ := hfront.sublist.subperm.trans hperm.subperm
      refine ⟨box?, slots, ⟨hbox, hsub⟩, ?_⟩
      rw [hvalue, absorbed_perm hslots]
      exact hcovers
    · rintro ⟨box?, slots, ⟨hbox', hsub⟩, hcovers⟩
      rcases hall with h | h
      · omega
      -- all slots were taken, and the best box takes as much as any
      have htotal : absorbed slots ≤ absorbed sheet.openSlots := by
        rw [absorbed_perm hperm]
        exact absorbed_le_of_sublist hsub (fun c hc => hvalues.2 c (List.mem_of_mem_filter hc))
      have hnonneg : 0 ≤ absorbed sheet.openSlots :=
        absorbed_le_of_sublist (List.nil_sublist _) hopen
      rw [h]
      rcases hlargest box? hbox' with hrelief | hrelief
      · omega
      · omega

/-- A hit of five on a fresh sheet: the second box takes two, and the mild and the moderate slot
    take the rest. -/
theorem absorbShifts_covers_five : ∃ boxes' relief taken consequences',
    Relieved [⟨1, false⟩, ⟨2, false⟩] 5 boxes' relief ∧
    taken <+: ({} : FateSheet).openSlots ∧
    List.Forall₂ (FilledTo "Gob" taken) ({} : FateSheet).consequences consequences' ∧
    (∀ fewer, fewer <+: ({} : FateSheet).openSlots → fewer.length < taken.length →
      relief + absorbed fewer < 5) ∧
    (absorbShifts .physical 5 "Ann" "Gob").exec {} =
      (.ok (decide (5 ≤ relief + absorbed taken)),
        { ({} : FateSheet) with
          stress := ({} : FateSheet).stress.modify .physical (fun _ => boxes')
          consequences := consequences' }) ∧
    (5 ≤ relief + absorbed taken ↔ ∃ box? slots,
      Admissible {} [⟨1, false⟩, ⟨2, false⟩] box? slots ∧ 5 ≤ boxValue box? + absorbed slots) :=
  absorbShifts_covers (by decide) (by decide) (by decide) (by decide) "Ann" "Gob"

/-! ### Hits that are not absorbed like this -/

/-- Two slots of one level. -/
def twice : FateSheet :=
  { stress := Dict.empty.insert .physical []
    consequences := [⟨.mild, 2, none⟩, ⟨.mild, 2, none⟩] }

/-- A box of negative value and a slot. -/
def hollow : FateSheet :=
  { stress := Dict.empty.insert .physical [⟨-1, false⟩]
    consequences := [⟨.mild, 2, none⟩] }

/-- Nothing to absorb, a missing track and a double level raise; with a negative box an open slot is
    not used. -/
theorem absorbShifts_not_covers :
    ((absorbShifts .physical 0 "Ann" "Gob").exec {}).1.toBool = false ∧
    ((absorbShifts .physical 1 "Ann" "Gob").exec { stress := Dict.empty }).1.toBool = false ∧
    ((absorbShifts .physical 4 "Ann" "Gob").exec twice).1.toBool = false ∧
    ((absorbShifts .physical 2 "Ann" "Gob").exec hollow).1.toOption = some false ∧
    Admissible hollow [⟨-1, false⟩] none [⟨.mild, 2, none⟩] ∧
    2 ≤ boxValue none + absorbed [⟨.mild, 2, none⟩] := by
  refine ⟨by decide, by decide, by decide +kernel, by decide +kernel, ⟨?_, ?_⟩, by decide⟩
  · intro b hb
    cases hb
  · decide

end Sidequest.Fate
