import Sidequest.Fate.Barrier
import Sidequest.Fate.Firing

namespace Sidequest.Fate

open Lib Effect
open Protocol (sanitizePlayerText)
open GameSnapshot

/-!
# What a rejected action leaves behind

A player's action is checked, flavored, paid for, sealed and fired, in this order, and can be
rejected after each of these.

* `Unchanged` — nothing but the dice of the server has moved;
* `RejectsWhole` — where an action that is rejected has cost nothing;
* `unchanged_of_rejected_iff` — over every action; `not_unchanged_doubled` — a fate point is paid
  for an action that is rejected.
-/

/-- The snapshot and the encounter are what they were. The dice are no part of either. -/
structure Unchanged (s s' : GameSnapshot) : Prop where
  cast : s'.cast = s.cast
  sheets : s'.sheets = s.sheets
  encounter : s'.encounter = s.encounter
  fateRuleset : s'.fateRuleset = s.fateRuleset

variable (s : GameSnapshot)

theorem Unchanged.refl : Unchanged s s := ⟨rfl, rfl, rfl, rfl⟩

/-! ### Paying for an invocation -/

/-- Using up a free invocation that is there changes the sheet. -/
theorem useFreeInvoke_ne {sheet : FateSheet} {aspect : Aspect}
    (hfind : sheet.allAspects.find? (·.text = aspect.text) = some aspect) :
    sheet.useFreeInvoke aspect.text ≠ sheet := by
  have huse : ∀ a : Aspect, ({ a with freeInvokes := a.freeInvokes - 1 } : Aspect) ≠ a := by
    intro a h
    have hinvokes := congrArg Aspect.freeInvokes h
    dsimp only at hinvokes
    omega
  unfold FateSheet.useFreeInvoke
  split
  · -- it is an aspect of the sheet itself
    rename_i hany
    intro h
    obtain ⟨a, ha⟩ := Option.isSome_iff_exists.mp (List.find?_isSome.mpr (List.any_eq_true.mp hany))
    exact huse a ((updateFirst_eq_self_iff ha).mp (congrArg FateSheet.aspects h))
  · -- it is that of a consequence
    rename_i hnone
    intro h
    have hmem : aspect ∈ sheet.consequences.filterMap Consequence.aspect := by
      rcases List.mem_append.mp (List.mem_of_find?_eq_some hfind) with hin | hin
      · exact absurd (List.any_eq_true.mpr ⟨aspect, hin, decide_eq_true rfl⟩) hnone
      · exact hin
    obtain ⟨slot, hslot, haspect⟩ := List.mem_filterMap.mp hmem
    have hany : sheet.consequences.any
        (fun c => c.aspect.any (·.text = aspect.text)) = true := by
      refine List.any_eq_true.mpr ⟨slot, hslot, ?_⟩
      rw [haspect, Option.any_some]
      exact decide_eq_true rfl
    obtain ⟨c, hc⟩ := Option.isSome_iff_exists.mp (List.find?_isSome.mpr (List.any_eq_true.mp hany))
    have hsame := (updateFirst_eq_self_iff hc).mp (congrArg FateSheet.consequences h)
    have htext : c.aspect.any (·.text = aspect.text) = true := by
      simpa using List.find?_some hc
    obtain ⟨a, ha, -⟩ := exists_of_any htext
    have haspects := congrArg Consequence.aspect hsame
    rw [ha] at haspects
    exact huse a (Option.some.inj haspects)

section Invoke

variable (actor text : String) (mode : InvokeMode) {sheet : FateSheet}

theorem exec_spendFatePoint (reason : String) (sheet : FateSheet) :
    (spendFatePoint actor reason).exec sheet = if sheet.fatePoints ≤ 0
      then (.error (.noFatePoint actor reason), sheet)
      else (.ok ⟨⟩, { sheet with fatePoints := sheet.fatePoints - 1 }) := by
  unfold spendFatePoint
  rw [exec_get_bind]
  split
  · rfl
  · rfl

/-- An invocation that cannot be paid costs nothing. -/
theorem exec_invokeAspect_of_cannot (hcannot : sheet.canInvoke text = false) :
    ∃ e, (invokeAspect actor text mode).exec sheet = (.error e, sheet) := by
  unfold FateSheet.canInvoke at hcannot
  unfold invokeAspect
  rw [exec_get_bind]
  cases hfind : sheet.allAspects.find? (·.text = text) with
  | none => exact ⟨_, rfl⟩
  | some aspect =>
    rw [hfind, Option.any_some, Bool.or_eq_false_iff] at hcannot
    dsimp only
    unfold payInvocation
    rw [if_neg (of_decide_eq_false hcannot.1), exec_bind, exec_spendFatePoint,
      if_pos (not_lt.mp (of_decide_eq_false hcannot.2))]
    exact ⟨_, rfl⟩

theorem exec_invokeAspect_of_can (hcan : sheet.canInvoke text = true) :
    ∃ bonus sheet', sheet' ≠ sheet ∧
      (invokeAspect actor text mode).exec sheet = (.ok bonus, sheet') := by
  unfold FateSheet.canInvoke at hcan
  obtain ⟨aspect, hfind, hpayable⟩ := exists_of_any hcan
  have htext : aspect.text = text := by simpa using List.find?_some hfind
  unfold invokeAspect
  rw [exec_get_bind, hfind]
  dsimp only
  unfold payInvocation
  by_cases hfree : 0 < aspect.freeInvokes
  · rw [if_pos hfree]
    refine ⟨_, sheet.useFreeInvoke aspect.text, ?_, rfl⟩
    rw [← htext] at hfind
    exact useFreeInvoke_ne hfind
  · have hpoints : ¬ sheet.fatePoints ≤ 0 := by
      rw [Bool.or_eq_true, decide_eq_true_eq, decide_eq_true_eq] at hpayable
      omega
    rw [if_neg hfree, exec_bind, exec_spendFatePoint, if_neg hpoints]
    refine ⟨_, _, fun h => ?_, rfl⟩
    have hsame := congrArg FateSheet.fatePoints h
    dsimp only at hsame
    omega

end Invoke

/-! ### Preparing an action -/

variable (payload : FateActionPayload)

/-- The text typed beside the action reaches the narrator. -/
def FateActionPayload.flourishes : Bool :=
  stripChars payload.playerAction.toList ≠ [] && sanitizePlayerText payload.playerAction ≠ ""

variable (actor : String)

/-- The snapshot with that text among the hints, if it reaches the narrator. -/
def GameSnapshot.flavored : GameSnapshot :=
  if payload.flourishes then { s with encounter := { s.encounter with
    narratorHints := s.encounter.narratorHints ++
      [actor ++ " (flourish): " ++ sanitizePlayerText payload.playerAction] } }
  else s

theorem exec_attachFlavor :
    (attachFlavor actor payload.playerAction).exec s = (.ok ⟨⟩, s.flavored payload actor) := by
  have hiff : payload.flourishes = true ↔ stripChars payload.playerAction.toList ≠ [] ∧
      sanitizePlayerText payload.playerAction ≠ "" := by
    unfold FateActionPayload.flourishes
    rw [Bool.and_eq_true, decide_eq_true_eq, decide_eq_true_eq]
  unfold attachFlavor GameSnapshot.flavored
  by_cases hflourishes : payload.flourishes = true
  · rw [if_pos (hiff.mp hflourishes), if_pos hflourishes]
    rfl
  · rw [if_neg (fun h => hflourishes (hiff.mpr h)), if_neg hflourishes]
    rfl

/-- The hints are what they were exactly where no text reaches the narrator. -/
theorem encounter_flavored_iff :
    (s.flavored payload actor).encounter = s.encounter ↔ payload.flourishes = false := by
  unfold GameSnapshot.flavored
  cases payload.flourishes with
  | false => exact iff_of_true rfl rfl
  | true =>
    refine iff_of_false (fun h => ?_) (by decide)
    have hhints := congrArg StructuredEncounter.narratorHints h
    simp at hhints

/-- The flavor is in the hints, and nowhere else. -/
theorem frame_flavored :
    (s.flavored payload actor).cast = s.cast ∧ (s.flavored payload actor).sheets = s.sheets ∧
      (s.flavored payload actor).fateRuleset = s.fateRuleset ∧
      (s.flavored payload actor).encounter.fateCommits = s.encounter.fateCommits := by
  unfold GameSnapshot.flavored
  split
  · exact ⟨rfl, rfl, rfl, rfl⟩
  · exact ⟨rfl, rfl, rfl, rfl⟩

theorem fateSheet_flavored (name : String) :
    (s.flavored payload actor).fateSheet name = s.fateSheet name := by
  obtain ⟨hcast, hsheets, -, -⟩ := frame_flavored s payload actor
  unfold GameSnapshot.fateSheet
  rw [hcast, hsheets]

/-- A sheet that is put back where it came from changes nothing. -/
theorem putFateSheet_self {s : GameSnapshot} {name : String} {sheet : FateSheet}
    (h : s.fateSheet name = some sheet) : s.putFateSheet name sheet = s := by
  obtain ⟨ref, href, hsheet⟩ := Option.bind_eq_some_iff.mp h
  unfold GameSnapshot.putFateSheet
  rw [href]
  dsimp only
  rw [← hsheet, Function.update_eq_self]

/-- Another one changes the sheets. -/
theorem sheets_putFateSheet_ne {s : GameSnapshot} {name : String} {sheet sheet' : FateSheet}
    (h : s.fateSheet name = some sheet) (hne : sheet' ≠ sheet) :
    (s.putFateSheet name sheet').sheets ≠ s.sheets := by
  obtain ⟨ref, href, hsheet⟩ := Option.bind_eq_some_iff.mp h
  unfold GameSnapshot.putFateSheet
  rw [href]
  intro heq
  have hat := congrFun heq ref
  dsimp only at hat
  rw [Function.update_self, hsheet] at hat
  exact hne (Option.some.inj hat)

/-- The roll moves the dice on, and nothing else. -/
theorem exec_rollAction (thrownFaces : Option Dice) (invokeBonus : Int) (s : GameSnapshot) :
    ∃ outcome rolls,
      (rollAction payload actor thrownFaces invokeBonus).exec s =
        (.ok outcome, { s with rolls := rolls }) := by
  unfold rollAction
  cases thrownFaces with
  | some faces => exact ⟨_, _, rfl⟩
  | none =>
    cases (payload.invokeAspect ≠ "" && payload.invokeMode = .reroll : Bool) with
    | true => exact ⟨_, _, rfl⟩
    | false => exact ⟨_, _, rfl⟩

section Prepare

variable {s : GameSnapshot} {payload : FateActionPayload} {actor : String} {sheet : FateSheet}

/-- An action whose invocation cannot be paid leaves the flavor behind. -/
theorem exec_prepareAction_of_cannot (hsheet : s.fateSheet actor = some sheet)
    (hcannot : s.canInvoke payload actor = false) (thrownFaces : Option Dice) :
    ∃ e, (prepareAction payload actor thrownFaces).exec s =
      (.error e, s.flavored payload actor) := by
  unfold GameSnapshot.canInvoke at hcannot
  rw [Bool.or_eq_false_iff, hsheet, Option.any_some] at hcannot
  have hflavored := (fateSheet_flavored s payload actor actor).trans hsheet
  obtain ⟨e, hinvoke⟩ := exec_invokeAspect_of_cannot actor payload.invokeAspect payload.invokeMode
    hcannot.2
  refine ⟨e, ?_⟩
  unfold prepareAction payInvoke
  rw [exec_bind, exec_attachFlavor]
  dsimp only
  rw [if_neg (of_decide_eq_false hcannot.1), exec_bind, exec_onSheet_of_some hflavored, hinvoke]
  rw [putFateSheet_self hflavored]

/-- One whose invocation can be paid leaves the flavor, and what it paid. -/
theorem exec_prepareAction_of_can (hsheet : s.fateSheet actor = some sheet)
    (hcan : s.canInvoke payload actor = true) (thrownFaces : Option Dice) :
    ∃ outcome s', (prepareAction payload actor thrownFaces).exec s = (.ok outcome, s') ∧
      s'.encounter = (s.flavored payload actor).encounter ∧
      (Unchanged s s' ↔ payload.flourishes = false ∧ payload.invokeAspect = "") := by
  obtain ⟨hcast, hsheets, hruleset, -⟩ := frame_flavored s payload actor
  have hflavored := (fateSheet_flavored s payload actor actor).trans hsheet
  unfold prepareAction payInvoke
  by_cases hfree : payload.invokeAspect = ""
  · -- nothing is paid
    obtain ⟨outcome, rolls, hroll⟩ := exec_rollAction payload actor thrownFaces 0
      (s.flavored payload actor)
    refine ⟨outcome, { s.flavored payload actor with rolls := rolls }, ?_, rfl, ?_⟩
    · rw [exec_bind, exec_attachFlavor]
      dsimp only
      rw [if_pos hfree, exec_bind, exec_pure]
      exact hroll
    · constructor
      · exact fun h => ⟨(encounter_flavored_iff s payload actor).mp h.encounter, hfree⟩
      · exact fun h => ⟨hcast, hsheets, (encounter_flavored_iff s payload actor).mpr h.1, hruleset⟩
  · have hpayable : sheet.canInvoke payload.invokeAspect = true := by
      unfold GameSnapshot.canInvoke at hcan
      rw [hsheet, Option.any_some, decide_eq_false hfree, Bool.false_or] at hcan
      exact hcan
    obtain ⟨bonus, sheet', hne, hinvoke⟩ := exec_invokeAspect_of_can actor payload.invokeAspect
      payload.invokeMode hpayable
    obtain ⟨outcome, rolls, hroll⟩ := exec_rollAction payload actor thrownFaces bonus
      ((s.flavored payload actor).putFateSheet actor sheet')
    refine ⟨outcome, { (s.flavored payload actor).putFateSheet actor sheet' with rolls := rolls },
      ?_, encounter_putFateSheet _ actor sheet', ?_⟩
    · rw [exec_bind, exec_attachFlavor]
      dsimp only
      rw [if_neg hfree, exec_bind, exec_onSheet_of_some hflavored, hinvoke]
      exact hroll
    · refine iff_of_false (fun h => ?_) (fun h => hfree h.2)
      exact sheets_putFateSheet_ne hflavored hne (h.sheets.trans hsheets.symm)

end Prepare

/-! ### Sealing and firing -/

/-- The snapshot after an action was prepared and sealed. -/
def GameSnapshot.sealedBy (action : FateAction) (actor : String) (thrownFaces : Option Dice) :
    GameSnapshot :=
  ((do
    let outcome ← prepareAction payload actor thrownFaces
    sealFateCommit (payload.commit action actor outcome) : FateM PUnit).exec s).2

/-- Where a rejected proactive action has cost nothing: no text beside an unpaid invocation, nothing
    with a second commit, and no raise of what a sealed one fires. -/
structure CommitsWhole (s : GameSnapshot) (payload : FateActionPayload) (action : FateAction)
    (actor : String) (roundNumber : Nat) (thrownFaces : Option Dice) : Prop where
  unpaid : s.canInvoke payload actor = false → payload.flourishes = false
  doubled : s.canInvoke payload actor = true → s.committed actor = true →
    payload.flourishes = false ∧ payload.invokeAspect = ""
  fired : s.canInvoke payload actor = true → s.committed actor = false →
    FiresWhole (s.sealedBy payload action actor thrownFaces) roundNumber

variable {s' : GameSnapshot}

section Commit

variable {s : GameSnapshot} {payload : FateActionPayload} {action : FateAction} {actor : String}
  {roundNumber : Nat} {thrownFaces : Option Dice}

/-- What raises after it was sealed has changed the ledger. -/
theorem not_unchanged_of_sealed {s₁ : GameSnapshot} {commit : FateSealedCommit}
    (hsealed : s₁.encounter.fateCommits = s.encounter.fateCommits ++ [commit])
    (hlonger : Longer s₁ s') : s'.encounter.fateCommits ≠ s.encounter.fateCommits := by
  intro h
  unfold Longer at hlonger
  rw [h, hsealed, List.length_append, List.length_singleton] at hlonger
  omega

theorem exec_commitFateAction (hsheet : (s.fateSheet actor).isSome = true) :
    (commitFateAction payload action actor roundNumber thrownFaces).exec s = (do
        let outcome ← prepareAction payload actor thrownFaces
        sealFateCommit (payload.commit action actor outcome)
        fireBarrier roundNumber outcome : FateM FateDispatchResult).exec s := by
  unfold commitFateAction
  rw [exec_get_bind, if_neg]
  rw [Option.isNone_iff_eq_none, ← ne_eq, ← Option.isSome_iff_ne_none]
  exact hsheet

theorem committed_of_fateCommits (h : s'.encounter.fateCommits = s.encounter.fateCommits)
    (name : String) : s'.committed name = s.committed name := by
  unfold GameSnapshot.committed
  rw [h]

section Prepared

variable (action) (roundNumber) (thrownFaces)

theorem exec_commitFateAction_of_committed (hsheet : (s.fateSheet actor).isSome = true)
    (hcan : s.canInvoke payload actor = true) (hdouble : s.committed actor = true) :
    ∃ s', (commitFateAction payload action actor roundNumber thrownFaces).exec s =
        (.error (.alreadyCommitted actor), s') ∧
      (Unchanged s s' ↔ payload.flourishes = false ∧ payload.invokeAspect = "") := by
  rw [exec_commitFateAction hsheet]
  obtain ⟨sheet, hsheet⟩ := Option.isSome_iff_exists.mp hsheet
  obtain ⟨-, -, -, hcommits⟩ := frame_flavored s payload actor
  obtain ⟨outcome, prepared, hprepare, hencounter, hunchanged⟩ :=
    exec_prepareAction_of_can hsheet hcan thrownFaces
  have hkept : prepared.encounter.fateCommits = s.encounter.fateCommits := by
    rw [hencounter, hcommits]
  have hclosed : prepared.committed (payload.commit action actor outcome).actor = true := by
    rw [committed_of_fateCommits hkept]
    exact hdouble
  refine ⟨prepared, ?_, hunchanged⟩
  rw [exec_bind, hprepare]
  dsimp only
  rw [exec_bind, exec_sealFateCommit, if_pos hclosed]
  rfl

/-- An action that is sealed is in the ledger, and then fires. -/
theorem exec_commitFateAction_of_sealed (hsheet : (s.fateSheet actor).isSome = true)
    (hcan : s.canInvoke payload actor = true) (hfree : s.committed actor = false) :
    ∃ outcome, (s.sealedBy payload action actor thrownFaces).encounter.fateCommits =
        s.encounter.fateCommits ++ [payload.commit action actor outcome] ∧
      (commitFateAction payload action actor roundNumber thrownFaces).exec s =
        (fireBarrier roundNumber outcome).exec (s.sealedBy payload action actor thrownFaces) := by
  rw [exec_commitFateAction hsheet]
  obtain ⟨sheet, hsheet⟩ := Option.isSome_iff_exists.mp hsheet
  obtain ⟨-, -, -, hcommits⟩ := frame_flavored s payload actor
  obtain ⟨outcome, prepared, hprepare, hencounter, -⟩ :=
    exec_prepareAction_of_can hsheet hcan thrownFaces
  have hkept : prepared.encounter.fateCommits = s.encounter.fateCommits := by
    rw [hencounter, hcommits]
  have hopen : ¬ prepared.committed (payload.commit action actor outcome).actor = true := by
    rw [committed_of_fateCommits hkept]
    exact Bool.not_eq_true _ ▸ hfree
  have hsealed : s.sealedBy payload action actor thrownFaces =
      { prepared with encounter := { prepared.encounter with
        fateCommits := prepared.encounter.fateCommits ++
          [payload.commit action actor outcome] } } := by
    unfold GameSnapshot.sealedBy
    rw [exec_bind, hprepare]
    dsimp only
    rw [exec_sealFateCommit, if_neg hopen]
  refine ⟨outcome, by rw [hsealed, ← hkept], ?_⟩
  rw [exec_bind, hprepare]
  dsimp only
  rw [exec_bind, exec_sealFateCommit, if_neg hopen, hsealed]

end Prepared

/-- **Committing.** A proactive action that is rejected leaves everything unchanged if and only if
    it costs nothing where it is. -/
theorem commitFateAction_unchanged_iff (hsheet : (s.fateSheet actor).isSome = true) :
    (∀ e s', (commitFateAction payload action actor roundNumber thrownFaces).exec s
        = (.error e, s') → Unchanged s s') ↔
      CommitsWhole s payload action actor roundNumber thrownFaces := by
  cases hcan : s.canInvoke payload actor with
  | false =>
    -- the flavor is left behind
    obtain ⟨sheet, hsheet'⟩ := Option.isSome_iff_exists.mp hsheet
    obtain ⟨hcast, hsheets, hruleset, -⟩ := frame_flavored s payload actor
    obtain ⟨e, hprepare⟩ := exec_prepareAction_of_cannot hsheet' hcan thrownFaces
    have hno : ∀ {φ : Prop}, s.canInvoke payload actor = true → φ :=
      fun h => absurd (hcan.symm.trans h) (by decide)
    rw [exec_commitFateAction hsheet, exec_bind, hprepare]
    constructor
    · intro h
      exact ⟨fun _ => (encounter_flavored_iff s payload actor).mp (h e _ rfl).encounter,
        fun h' => hno h', fun h' => hno h'⟩
    · rintro h e' s' heq
      cases heq
      exact ⟨hcast, hsheets, (encounter_flavored_iff s payload actor).mpr (h.unpaid hcan), hruleset⟩
  | true =>
    have hno : ∀ {φ : Prop}, s.canInvoke payload actor = false → φ :=
      fun h => absurd (hcan.symm.trans h) (by decide)
    cases hdouble : s.committed actor with
    | true =>
      obtain ⟨s', hexec, hunchanged⟩ := exec_commitFateAction_of_committed action roundNumber
        thrownFaces hsheet hcan hdouble
      rw [hexec]
      constructor
      · intro h
        refine ⟨fun h' => hno h', fun _ _ => hunchanged.mp (h _ _ rfl), fun _ h' => ?_⟩
        exact absurd (hdouble.symm.trans h') (by decide)
      · rintro h e' s'' heq
        cases heq
        exact hunchanged.mpr (h.doubled hcan hdouble)
    | false =>
      -- the action is sealed, and what it fires decides
      obtain ⟨outcome, hgrown, hexec⟩ := exec_commitFateAction_of_sealed action roundNumber
        thrownFaces hsheet hcan hdouble
      have hfires := fireBarrier_raises_iff (s.sealedBy payload action actor thrownFaces)
        roundNumber outcome
      rw [hexec]
      constructor
      · intro h
        refine ⟨fun h' => hno h', fun _ h' => absurd (hdouble.symm.trans h') (by decide),
          fun _ _ => ?_⟩
        by_contra hraises
        obtain ⟨e, s', hraise⟩ := hfires.mpr hraises
        exact not_unchanged_of_sealed hgrown (longer_of_fireBarrier hraise)
          (congrArg StructuredEncounter.fateCommits (h e s' hraise).encounter)
      · intro h e s' hraise
        exact absurd (h.fired hcan hdouble) (hfires.mp ⟨e, s', hraise⟩)

end Commit

/-! ### Dispatching -/

/-- A creature's sheet with a number of points. -/
def FateSheet.withPoints (sheet : FateSheet) (points : Int) : FateSheet :=
  { sheet with fatePoints := points }

theorem exec_earnFatePoints (n : Nat) (sheet : FateSheet) :
    (earnFatePoints n).exec sheet = (.ok ⟨⟩, sheet.withPoints (sheet.fatePoints + n)) := by
  induction n generalizing sheet with
  | zero =>
    rw [Nat.cast_zero, add_zero]
    rfl
  | succ n ih =>
    have hstep : (earnFatePoints (n + 1)).exec sheet
        = (earnFatePoints n).exec (sheet.withPoints (sheet.fatePoints + 1)) := rfl
    have hsum : sheet.fatePoints + 1 + (n : Int) = sheet.fatePoints + ((n + 1 : Nat) : Int) := by
      omega
    rw [hstep, ih, ← hsum]
    rfl

/-- A concession that is rejected was rejected before anything was earned. -/
theorem unchanged_concedeInConflict {s : GameSnapshot} {actor : String} {e : FateError}
    (h : (concedeInConflict actor).exec s = (.error e, s')) : s' = s := by
  unfold concedeInConflict at h
  rw [exec_get_bind] at h
  cases hsheet : s.fateSheet actor with
  | none =>
    rw [hsheet] at h
    exact (congrArg Prod.snd h).symm
  | some sheet =>
    rw [hsheet] at h
    dsimp only at h
    split at h
    · exact (congrArg Prod.snd h).symm
    · -- what is earned is earned, and the seat withdraws
      rw [exec_bind, exec_onSheet_of_some hsheet, exec_earnFatePoints] at h
      exact (not_returned_of_raised h rfl).elim

/-- A compel that is refused without a fate point to pay costs nothing. -/
theorem unchanged_resolveCompel {s : GameSnapshot} {accept : Bool} {actor aspectText : String}
    {e : FateError} (h : (resolveCompel accept actor aspectText).exec s = (.error e, s')) :
    s' = s := by
  unfold resolveCompel at h
  rw [exec_get_bind] at h
  cases hfind : s.encounter.findPendingCompel actor aspectText with
  | none =>
    rw [hfind] at h
    exact (congrArg Prod.snd h).symm
  | some compel =>
    rw [hfind] at h
    rw [exec_bind] at h
    cases hsheet : s.fateSheet actor with
    | none =>
      rw [exec_onSheet_of_none hsheet] at h
      exact (congrArg Prod.snd h).symm
    | some sheet =>
      rw [exec_onSheet_of_some hsheet] at h
      cases accept with
      | true => exact (not_returned_of_raised h rfl).elim
      | false =>
        rw [if_neg (by decide), exec_spendFatePoint] at h
        by_cases hbroke : sheet.fatePoints ≤ 0
        · rw [if_pos hbroke] at h
          rw [putFateSheet_self hsheet] at h
          exact (congrArg Prod.snd h).symm
        · rw [if_neg hbroke] at h
          exact (not_returned_of_raised h rfl).elim

/-- The action a proactive verb seals. -/
def FateVerb.fateAction : FateVerb → FateAction
  | .createAdvantage => .createAdvantage
  | .attack => .attack
  | .overcome => .overcome
  | .concede => .overcome
  | .compelAccept => .overcome
  | .compelRefuse => .overcome

/-- Where a rejected action has cost nothing: it is no proactive one, not routed, without a sheet,
    or costs nothing there. -/
def RejectsWhole (roundNumber : Nat) (thrownFaces : Option Dice) : Prop :=
  payload.action.proactive = true → s.routes payload actor = true →
    (s.fateSheet actor).isSome = true →
      CommitsWhole s payload payload.action.fateAction actor roundNumber thrownFaces

theorem exec_commitFateAction_of_none {s : GameSnapshot} {actor : String}
    (hsheet : s.fateSheet actor = none) (payload : FateActionPayload) (action : FateAction)
    (roundNumber : Nat) (thrownFaces : Option Dice) :
    (commitFateAction payload action actor roundNumber thrownFaces).exec s =
      (.error (.noSheetToAct actor), s) := by
  unfold commitFateAction
  rw [exec_get_bind, hsheet]
  rfl

section Dispatch

variable (s : GameSnapshot) (payload : FateActionPayload) (actor : String) (roundNumber : Nat)
  (thrownFaces : Option Dice)

/-- What is not routed is rejected as it came. -/
theorem exec_dispatchFateAction_of_not_routes (hroutes : s.routes payload actor = false) :
    ∃ e, (dispatchFateAction payload actor roundNumber thrownFaces).exec s = (.error e, s) := by
  unfold GameSnapshot.routes at hroutes
  unfold dispatchFateAction
  rw [exec_get_bind]
  split_ifs with hruleset hresolved hseated hattack
  · exact ⟨_, rfl⟩
  · exact ⟨_, rfl⟩
  · exact ⟨_, rfl⟩
  · exact ⟨_, rfl⟩
  · simp_all

theorem exec_dispatchFateAction_of_routes (hroutes : s.routes payload actor = true) :
    (dispatchFateAction payload actor roundNumber thrownFaces).exec s =
      (routeFateAction payload actor roundNumber thrownFaces).exec s := by
  unfold GameSnapshot.routes at hroutes
  simp only [Bool.and_eq_true, Bool.not_eq_true'] at hroutes
  obtain ⟨⟨⟨hruleset, hresolved⟩, hseated⟩, hattack⟩ := hroutes
  have hfound : ¬ (s.encounter.findActor actor).isNone = true := by
    rw [Option.isNone_iff_eq_none, ← ne_eq, ← Option.isSome_iff_ne_none]
    exact hseated
  unfold dispatchFateAction
  rw [exec_get_bind, hruleset, hresolved, if_neg (by decide), if_neg (by decide), if_neg hfound,
    hattack, if_neg (by decide)]

/-- Only a proactive action can be rejected after it has cost something. -/
theorem unchanged_of_not_proactive (hverb : payload.action.proactive = false) {e : FateError}
    (h : (routeFateAction payload actor roundNumber thrownFaces).exec s
      = (.error e, s')) : s' = s := by
  unfold routeFateAction at h
  cases haction : payload.action with
  | overcome =>
    rw [haction] at hverb
    exact absurd hverb (by decide)
  | createAdvantage =>
    rw [haction] at hverb
    exact absurd hverb (by decide)
  | attack =>
    rw [haction] at hverb
    exact absurd hverb (by decide)
  | concede =>
    rw [haction] at h
    rcases exec_bind_error h with h | ⟨earned, t, -, h⟩
    · exact unchanged_concedeInConflict h
    · exact (not_returned_of_raised h rfl).elim
  | compelAccept =>
    rw [haction] at h
    rcases exec_bind_error h with h | ⟨delta, t, -, h⟩
    · exact unchanged_resolveCompel h
    · exact (not_returned_of_raised h rfl).elim
  | compelRefuse =>
    rw [haction] at h
    rcases exec_bind_error h with h | ⟨delta, t, -, h⟩
    · exact unchanged_resolveCompel h
    · exact (not_returned_of_raised h rfl).elim

theorem routeFateAction_of_proactive (hverb : payload.action.proactive = true) :
    routeFateAction payload actor roundNumber thrownFaces =
      commitFateAction payload payload.action.fateAction actor roundNumber thrownFaces := by
  unfold routeFateAction
  cases haction : payload.action with
  | overcome => rfl
  | createAdvantage => rfl
  | attack => rfl
  | concede =>
    rw [haction] at hverb
    exact absurd hverb (by decide)
  | compelAccept =>
    rw [haction] at hverb
    exact absurd hverb (by decide)
  | compelRefuse =>
    rw [haction] at hverb
    exact absurd hverb (by decide)

/-- **An action that is rejected** leaves the snapshot and the encounter unchanged if and only if
    it costs nothing where it is rejected. -/
theorem unchanged_of_rejected_iff :
    (∀ e s', (dispatchFateAction payload actor roundNumber thrownFaces).exec s = (.error e, s') →
      Unchanged s s') ↔ RejectsWhole s payload actor roundNumber thrownFaces := by
  unfold RejectsWhole
  cases hroutes : s.routes payload actor with
  | false =>
    obtain ⟨e, hreject⟩ := exec_dispatchFateAction_of_not_routes s payload actor roundNumber
      thrownFaces hroutes
    rw [hreject]
    refine iff_of_true ?_ (fun _ h => absurd h (by decide))
    rintro e' s' heq
    cases heq
    exact Unchanged.refl s
  | true =>
    rw [exec_dispatchFateAction_of_routes s payload actor roundNumber thrownFaces hroutes]
    cases hverb : payload.action.proactive with
    | false =>
      refine iff_of_true (fun e s' h => ?_) (fun h => absurd h (by decide))
      rw [unchanged_of_not_proactive s payload actor roundNumber thrownFaces hverb h]
      exact Unchanged.refl s
    | true =>
      rw [routeFateAction_of_proactive payload actor roundNumber thrownFaces hverb]
      cases hsheet : s.fateSheet actor with
      | none =>
        rw [exec_commitFateAction_of_none hsheet]
        refine iff_of_true ?_ (fun _ _ h => nomatch h)
        rintro e s' heq
        cases heq
        exact Unchanged.refl s
      | some sheet =>
        have hsome : (s.fateSheet actor).isSome = true := by
          rw [hsheet]
          rfl
        rw [commitFateAction_unchanged_iff hsome]
        exact ⟨fun h _ _ _ => h, fun h => h rfl rfl rfl⟩

end Dispatch

/-- Ann has committed, and has an aspect and a fate point. -/
def doubled : GameSnapshot :=
  { skirmish with
    sheets := fun _ => some { aspects := [⟨"Fearless", .highConcept, 0⟩] }
    encounter := { skirmish.encounter with
      fateCommits := [{ actor := "Ann", action := .overcome, skill := "Athletics" }] } }

/-- Ann acts again and invokes the aspect: the fate point is paid, and the action rejected. -/
theorem not_unchanged_doubled : ∃ e s', (dispatchFateAction
    { action := .attack, skill := "Fight", target := some "Gob", invokeAspect := "Fearless" }
    "Ann" 1 none).exec doubled = (.error e, s') ∧
      (doubled.fateSheet "Ann").map FateSheet.fatePoints = some 3 ∧
      (s'.fateSheet "Ann").map FateSheet.fatePoints = some 2 ∧ ¬ Unchanged doubled s' := by
  refine ⟨_, _, rfl, by decide, by decide, fun h => ?_⟩
  have hsheet := congrFun h.sheets (.character 0)
  exact absurd (congrArg (Option.map FateSheet.fatePoints) hsheet) (by decide)

end Sidequest.Fate
