import Sidequest.Fate.Rejected

namespace Sidequest.Fate

open Lib Effect

/-!
# The fate-point economy over whole runs

Points are paid for invocations and for refusing a compel, and earned by accepting one, by conceding
and by the refresh of a session. A compel waits among those offered until it is answered, and an
aspect has its free invocations.

* `refreshFatePoints`, `offerCompel` — the refresh and the offer;
* `economy_spec` — these over every run.
-/

/-! ### The operations -/

/-- The refresh of a session: points rise to the refresh of the sheet, and never fall to it. -/
def refreshFatePoints (refresh : Int) : SheetM PUnit :=
  modify fun sheet => { sheet with fatePoints := max sheet.fatePoints refresh }

/-- The narrator offers a compel. It waits for an answer if an encounter is given that is not
    over. -/
def offerCompel (given : Bool) (target aspectText reason : String) : FateM PUnit := do
  let snapshot ← get
  if given && !snapshot.encounter.resolved then
    modifyEncounter fun encounter =>
      { encounter with pendingCompels := encounter.pendingCompels ++ [⟨target, aspectText, reason⟩] }
  else pure ⟨⟩

/-- One operation of the economy. The refresh of a sheet stands with the operation: nothing else
    here reads it. -/
inductive EconomyEvent where
  | invoke (actor text : String) (mode : InvokeMode)
  | offer (given : Bool) (target aspectText reason : String)
  | answer (accept : Bool) (actor aspectText : String)
  | concede (actor : String)
  | refresh (actor : String) (least : Int)

/-- What the operation does. -/
def EconomyEvent.dispatch : EconomyEvent → FateM PUnit
  | .invoke actor text mode => do
    let _ ← onSheet actor (.noSheetToAct actor) (invokeAspect actor text mode)
    pure ⟨⟩
  | .offer given target aspectText reason => offerCompel given target aspectText reason
  | .answer accept actor aspectText => do
    let _ ← resolveCompel accept actor aspectText
    pure ⟨⟩
  | .concede actor => do
    let _ ← concedeInConflict actor
    pure ⟨⟩
  | .refresh actor least => onSheet actor (.noSheetToAct actor) (refreshFatePoints least)

/-- The snapshot after an operation; what was changed before a raise stays changed. -/
def trade (snapshot : GameSnapshot) (event : EconomyEvent) : GameSnapshot :=
  (event.dispatch.exec snapshot).2

/-! ### Free invocations -/

/-- The free invocations of the first aspect with a text. -/
def FateSheet.charge (sheet : FateSheet) (text : String) : Int :=
  ((sheet.allAspects.find? (fun aspect => aspect.text = text)).map Aspect.freeInvokes).getD 0

/-- The free invocations of the first aspect with a text, on the sheet of a creature. -/
def charges (ref : CoreRef) (text : String) (s : GameSnapshot) : Int :=
  ((s.sheets ref).map (fun sheet => sheet.charge text)).getD 0

/-- An aspect with a free invocation less. -/
def Aspect.useOne (aspect : Aspect) : Aspect := { aspect with freeInvokes := aspect.freeInvokes - 1 }

theorem find?_useOne (text text' : String) (l : List Aspect) :
    (updateFirst (·.text = text) Aspect.useOne l).find? (·.text = text')
      = if text' = text then (l.find? (·.text = text')).map Aspect.useOne
        else l.find? (·.text = text') := by
  have hkept : ∀ (text : String) (a : Aspect),
      decide (a.useOne.text = text) = decide (a.text = text) := fun _ _ => rfl
  by_cases htext : text' = text
  · subst htext
    rw [if_pos rfl]
    exact find?_updateFirst (hkept text') l
  · rw [if_neg htext]
    refine find?_updateFirst_of_disjoint (hkept text') (fun a ha => ?_) l
    rw [decide_eq_true_eq] at ha
    rw [decide_eq_false_iff_not, ha]
    exact fun h => htext h.symm

theorem filterMap_updateFirst {p : Aspect → Bool} {use : Aspect → Aspect}
    (cs : List Consequence) :
    (updateFirst (fun c : Consequence => c.aspect.any p)
      (fun c => { c with aspect := c.aspect.map use }) cs).filterMap Consequence.aspect
      = updateFirst p use (cs.filterMap Consequence.aspect) := by
  induction cs with
  | nil => rfl
  | cons c cs ih =>
    obtain ⟨level, value, aspect⟩ := c
    rw [updateFirst]
    cases aspect with
    | none =>
      exact ih
    | some aspect =>
      show _ = updateFirst p use (aspect :: cs.filterMap Consequence.aspect)
      rw [updateFirst]
      by_cases hp : p aspect = true
      · rw [if_pos (by simpa using hp), if_pos hp]
        rfl
      · rw [if_neg (by simpa using hp), if_neg hp, ← ih]
        rfl

/-- Using a free invocation takes one of those of its aspect, and none of another one. -/
theorem charge_useFreeInvoke {sheet : FateSheet} {text : String} {aspect : Aspect}
    (hfind : sheet.allAspects.find? (·.text = text) = some aspect) (text' : String) :
    (sheet.useFreeInvoke text).charge text' + (if text' = text then 1 else 0)
      = sheet.charge text' := by
  have huse : sheet.useFreeInvoke text =
      if sheet.aspects.any (·.text = text) then
        { sheet with aspects := updateFirst (·.text = text) Aspect.useOne sheet.aspects }
      else
        { sheet with
          consequences := updateFirst (fun c => c.aspect.any (·.text = text))
            (fun c => { c with aspect := c.aspect.map Aspect.useOne }) sheet.consequences } := rfl
  rw [huse]
  unfold FateSheet.charge FateSheet.allAspects at *
  split
  · -- it is an aspect of the sheet itself
    rename_i hany
    obtain ⟨a, ha⟩ := Option.isSome_iff_exists.mp (List.find?_isSome.mpr (List.any_eq_true.mp hany))
    rw [List.find?_append, List.find?_append, find?_useOne]
    by_cases htext : text' = text
    · subst htext
      rw [if_pos rfl, if_pos rfl, ha]
      simp [Aspect.useOne]
    · rw [if_neg htext, if_neg htext, add_zero]
  · -- it is that of a consequence
    rename_i hany
    have hnone : sheet.aspects.find? (·.text = text) = none := by
      rw [List.find?_eq_none]
      exact List.any_eq_false.mp (Bool.eq_false_iff.mpr hany)
    rw [List.find?_append, List.find?_append, filterMap_updateFirst, find?_useOne]
    by_cases htext : text' = text
    · subst htext
      rw [List.find?_append, hnone, Option.none_or] at hfind
      rw [if_pos rfl, if_pos rfl, hnone, Option.none_or, Option.none_or, hfind]
      simp [Aspect.useOne]
    · rw [if_neg htext, if_neg htext, add_zero]

/-! ### Everything an operation can do -/

/-- The free invocations of the creature's aspect with the text an operation uses: an invocation of
    it uses one where there is one. -/
def usesFree (ref : CoreRef) (text : String) (s : GameSnapshot) : EconomyEvent → Nat
  | .invoke actor text' _ =>
    if text = text' ∧ s.cast.findCreatureCore actor = some ref ∧ 0 < charges ref text s then 1
    else 0
  | .offer .. => 0
  | .answer .. => 0
  | .concede _ => 0
  | .refresh .. => 0

/-- The answer can be given: the compel waits for it, and a refusal can be paid for. -/
def Answerable (s : GameSnapshot) (accept : Bool) (actor aspectText : String) : Prop :=
  ∃ compel sheet, s.encounter.findPendingCompel actor aspectText = some compel ∧
    s.fateSheet actor = some sheet ∧ (accept = false → 0 < sheet.fatePoints)

/-- Everything an operation can do to a snapshot. -/
inductive Moves (s : GameSnapshot) : EconomyEvent → GameSnapshot → Prop
  | stays (event : EconomyEvent) (hfree : ∀ ref text, usesFree ref text s event = 0)
      (hanswer : ∀ accept actor aspectText, event = .answer accept actor aspectText →
        ¬ Answerable s accept actor aspectText) : Moves s event s
  | offered (target aspectText reason : String) : Moves s (.offer true target aspectText reason)
      { s with
        encounter := { s.encounter with
          pendingCompels := s.encounter.pendingCompels ++ [⟨target, aspectText, reason⟩] } }
  | usedFree (actor text : String) (mode : InvokeMode) (sheet : FateSheet) (aspect : Aspect)
      (hsheet : s.fateSheet actor = some sheet)
      (hfind : sheet.allAspects.find? (fun a => a.text = text) = some aspect)
      (hfree : 0 < aspect.freeInvokes) :
      Moves s (.invoke actor text mode) (s.putFateSheet actor (sheet.useFreeInvoke text))
  | paid (actor text : String) (mode : InvokeMode) (sheet : FateSheet)
      (hsheet : s.fateSheet actor = some sheet) (hfree : sheet.charge text ≤ 0)
      (hpoints : 0 < sheet.fatePoints) :
      Moves s (.invoke actor text mode)
        (s.putFateSheet actor (sheet.withPoints (sheet.fatePoints - 1)))
  | answered (accept : Bool) (actor aspectText : String) (sheet : FateSheet)
      (compel : PendingCompel) (hsheet : s.fateSheet actor = some sheet)
      (hfind : s.encounter.findPendingCompel actor aspectText = some compel)
      (hpoints : accept = false → 0 < sheet.fatePoints) :
      Moves s (.answer accept actor aspectText)
        { s.putFateSheet actor
            (sheet.withPoints (sheet.fatePoints + if accept then 1 else -1)) with
          encounter := { s.encounter with
            pendingCompels := s.encounter.pendingCompels.erase compel } }
  | conceded (actor : String) (sheet : FateSheet) (earned : Nat) (encounter : StructuredEncounter)
      (hsheet : s.fateSheet actor = some sheet)
      (hearned : earned = 1 + (sheet.consequences.filter (fun slot => slot.aspect.isSome)).length)
      (hcompels : encounter.pendingCompels = s.encounter.pendingCompels) :
      Moves s (.concede actor)
        { s.putFateSheet actor (sheet.withPoints (sheet.fatePoints + earned)) with
          encounter := encounter }
  | refreshed (actor : String) (least : Int) (sheet : FateSheet)
      (hsheet : s.fateSheet actor = some sheet) :
      Moves s (.refresh actor least)
        (s.putFateSheet actor (sheet.withPoints (max sheet.fatePoints least)))

/-- The free invocations of a creature are those of the sheet its name resolves to. -/
theorem charges_of_fateSheet {s : GameSnapshot} {actor : String} {ref : CoreRef}
    (href : s.cast.findCreatureCore actor = some ref) (text : String) :
    charges ref text s = ((s.fateSheet actor).map (·.charge text)).getD 0 := by
  unfold charges GameSnapshot.fateSheet
  rw [href, Option.bind_some]

/-- An aspect without a free invocation has none to use. -/
theorem usesFree_of_charge {s : GameSnapshot} {actor text : String}
    (h : ∀ sheet, s.fateSheet actor = some sheet → sheet.charge text ≤ 0) (mode : InvokeMode)
    (ref : CoreRef) (text' : String) : usesFree ref text' s (.invoke actor text mode) = 0 := by
  refine if_neg ?_
  rintro ⟨rfl, href, hpos⟩
  rw [charges_of_fateSheet href] at hpos
  cases hsheet : s.fateSheet actor with
  | none =>
    rw [hsheet] at hpos
    exact absurd hpos (lt_irrefl 0)
  | some sheet =>
    rw [hsheet] at hpos
    exact absurd hpos (not_lt.mpr (h sheet hsheet))

/-- A free invocation is used only where there is one. -/
theorem usesFree_le (ref : CoreRef) (text : String) (s : GameSnapshot) (event : EconomyEvent)
    (h : 0 < usesFree ref text s event) : (usesFree ref text s event : Int) ≤ charges ref text s := by
  cases event with
  | invoke actor text' mode =>
    unfold usesFree at h ⊢
    dsimp only at h ⊢
    by_cases hthere : text = text' ∧ s.cast.findCreatureCore actor = some ref ∧
        0 < charges ref text s
    · rw [if_pos hthere]
      exact hthere.2.2
    · rw [if_neg hthere] at h
      exact absurd h (lt_irrefl 0)
  | offer given target aspectText reason => exact absurd h (lt_irrefl 0)
  | answer accept actor aspectText => exact absurd h (lt_irrefl 0)
  | concede actor => exact absurd h (lt_irrefl 0)
  | refresh actor least => exact absurd h (lt_irrefl 0)

/-- What an operation returns is not kept. -/
theorem exec_ignored {α : Type} (m : FateM α) (s : GameSnapshot) :
    ((do let _ ← m; pure ⟨⟩ : FateM PUnit).exec s).2 = (m.exec s).2 := by
  rw [exec_bind]
  rcases m.exec s with ⟨_ | _, _⟩
  · rfl
  · rfl

/-- An invocation changes nothing, or takes a free one, or takes a point. -/
theorem exec_invokeAspect_cases (actor text : String) (mode : InvokeMode) (sheet : FateSheet) :
    (sheet.charge text ≤ 0 ∧ ((invokeAspect actor text mode).exec sheet).2 = sheet) ∨
    (∃ aspect, sheet.allAspects.find? (·.text = text) = some aspect ∧
      0 < aspect.freeInvokes ∧
      ((invokeAspect actor text mode).exec sheet).2 = sheet.useFreeInvoke text) ∨
    (sheet.charge text ≤ 0 ∧ 0 < sheet.fatePoints ∧
      ((invokeAspect actor text mode).exec sheet).2 = sheet.withPoints (sheet.fatePoints - 1)) := by
  unfold invokeAspect FateSheet.charge
  rw [exec_get_bind]
  cases hfind : sheet.allAspects.find? (·.text = text) with
  | none => exact .inl ⟨le_refl 0, rfl⟩
  | some aspect =>
    have htext : aspect.text = text := by simpa using List.find?_some hfind
    dsimp only
    unfold payInvocation
    by_cases hfree : 0 < aspect.freeInvokes
    · rw [if_pos hfree, htext]
      exact .inr (.inl ⟨aspect, rfl, hfree, rfl⟩)
    · rw [if_neg hfree, exec_bind, exec_spendFatePoint]
      by_cases hbroke : sheet.fatePoints ≤ 0
      · rw [if_pos hbroke]
        exact .inl ⟨not_lt.mp hfree, rfl⟩
      · rw [if_neg hbroke]
        exact .inr (.inr ⟨not_lt.mp hfree, not_le.mp hbroke, rfl⟩)

section Step

variable (s : GameSnapshot) (actor : String)

theorem moves_invoke (text : String) (mode : InvokeMode) :
    Moves s (.invoke actor text mode) (trade s (.invoke actor text mode)) := by
  have htrade : trade s (.invoke actor text mode)
      = ((onSheet actor (.noSheetToAct actor) (invokeAspect actor text mode)).exec s).2 :=
    exec_ignored _ s
  rw [htrade]
  cases hsheet : s.fateSheet actor with
  | none =>
    rw [exec_onSheet_of_none hsheet]
    refine Moves.stays _ (usesFree_of_charge (fun sheet h => ?_) mode) (fun _ _ _ h => by cases h)
    rw [hsheet] at h
    cases h
  | some sheet =>
    rw [exec_onSheet_of_some hsheet]
    rcases exec_invokeAspect_cases actor text mode sheet with ⟨hfree, hexec⟩ |
      ⟨aspect, hfind, hfree, hexec⟩ | ⟨hfree, hpoints, hexec⟩
    · rw [hexec, putFateSheet_self hsheet]
      refine Moves.stays _ (usesFree_of_charge (fun sheet' h => ?_) mode)
        (fun _ _ _ h => by cases h)
      cases hsheet.symm.trans h
      exact hfree
    · rw [hexec]
      exact Moves.usedFree actor text mode sheet aspect hsheet hfind hfree
    · rw [hexec]
      exact Moves.paid actor text mode sheet hsheet hfree hpoints

theorem moves_offer (given : Bool) (target aspectText reason : String) :
    Moves s (.offer given target aspectText reason)
      (trade s (.offer given target aspectText reason)) := by
  have hstays : Moves s (.offer given target aspectText reason) s :=
    Moves.stays _ (fun _ _ => rfl) (fun _ _ _ h => by cases h)
  unfold trade EconomyEvent.dispatch offerCompel
  rw [exec_get_bind]
  cases given with
  | false => exact hstays
  | true =>
    cases hresolved : s.encounter.resolved with
    | true =>
      exact hstays
    | false =>
      exact Moves.offered target aspectText reason

theorem moves_answer (accept : Bool) (aspectText : String) :
    Moves s (.answer accept actor aspectText) (trade s (.answer accept actor aspectText)) := by
  have hstays : ¬ Answerable s accept actor aspectText →
      Moves s (.answer accept actor aspectText) s := by
    refine fun hnot => Moves.stays _ (fun _ _ => rfl) (fun accept' actor' aspectText' h => ?_)
    cases h
    exact hnot
  have htrade : trade s (.answer accept actor aspectText)
      = ((resolveCompel accept actor aspectText).exec s).2 := exec_ignored _ s
  rw [htrade]
  unfold resolveCompel
  rw [exec_get_bind]
  cases hfind : s.encounter.findPendingCompel actor aspectText with
  | none =>
    refine hstays ?_
    rintro ⟨compel, sheet, hcompel, -⟩
    cases hfind.symm.trans hcompel
  | some compel =>
    rw [exec_bind]
    cases hsheet : s.fateSheet actor with
    | none =>
      rw [exec_onSheet_of_none hsheet]
      refine hstays ?_
      rintro ⟨compel', sheet, -, hsheet', -⟩
      cases hsheet.symm.trans hsheet'
    | some sheet =>
      rw [exec_onSheet_of_some hsheet]
      have hanswered := Moves.answered accept actor aspectText sheet compel hsheet hfind
      rw [← encounter_putFateSheet s actor
        (sheet.withPoints (sheet.fatePoints + if accept then 1 else -1))] at hanswered
      cases accept with
      | true => exact hanswered (fun h => absurd h (by decide))
      | false =>
        rw [if_neg (by decide), exec_spendFatePoint]
        by_cases hbroke : sheet.fatePoints ≤ 0
        · -- the compel stays on the table
          rw [if_pos hbroke]
          rw [putFateSheet_self hsheet]
          refine hstays ?_
          rintro ⟨compel', sheet', -, hsheet', hpoints⟩
          cases hsheet.symm.trans hsheet'
          exact absurd (hpoints rfl) (not_lt.mpr hbroke)
        · rw [if_neg hbroke]
          exact hanswered (fun _ => not_le.mp hbroke)

theorem moves_concede : Moves s (.concede actor) (trade s (.concede actor)) := by
  have hstays : Moves s (.concede actor) s :=
    Moves.stays _ (fun _ _ => rfl) (fun _ _ _ h => by cases h)
  have htrade : trade s (.concede actor) = ((concedeInConflict actor).exec s).2 := exec_ignored _ s
  rw [htrade]
  unfold concedeInConflict
  rw [exec_get_bind]
  cases hsheet : s.fateSheet actor with
  | none => exact hstays
  | some sheet =>
    dsimp only
    by_cases hseat : (s.encounter.findActor actor).isNone = true
    · rw [if_pos hseat]
      exact hstays
    · have hcompels : (s.encounter.withdraw actor).maybeResolveSideCleared.pendingCompels
          = s.encounter.pendingCompels :=
        field_maybeResolveSideCleared StructuredEncounter.pendingCompels (fun _ _ => rfl) _
      have hconceded := Moves.conceded actor sheet _ _ hsheet rfl hcompels
      rw [← encounter_putFateSheet s actor (sheet.withPoints _)] at hconceded
      rw [if_neg hseat, exec_bind, exec_onSheet_of_some hsheet, exec_earnFatePoints]
      exact hconceded

theorem moves_refresh (least : Int) :
    Moves s (.refresh actor least) (trade s (.refresh actor least)) := by
  have htrade : trade s (.refresh actor least)
      = ((onSheet actor (.noSheetToAct actor) (refreshFatePoints least)).exec s).2 := rfl
  rw [htrade]
  cases hsheet : s.fateSheet actor with
  | none =>
    rw [exec_onSheet_of_none hsheet]
    exact Moves.stays _ (fun _ _ => rfl) (fun _ _ _ h => by cases h)
  | some sheet =>
    rw [exec_onSheet_of_some hsheet]
    exact Moves.refreshed actor least sheet hsheet

end Step

/-- Everything an operation does is among them. -/
theorem moves_trade (s : GameSnapshot) (event : EconomyEvent) : Moves s event (trade s event) := by
  cases event with
  | invoke actor text mode => exact moves_invoke s actor text mode
  | offer given target aspectText reason => exact moves_offer s given target aspectText reason
  | answer accept actor aspectText => exact moves_answer s actor accept aspectText
  | concede actor => exact moves_concede s actor
  | refresh actor least => exact moves_refresh s actor least

/-! ### The invariants -/

/-- The creature owes no fate point. -/
def Solvent (ref : CoreRef) (s : GameSnapshot) : Prop :=
  ∀ sheet, s.sheets ref = some sheet → 0 ≤ sheet.fatePoints

/-- An answer that can be given takes its compel and moves its point; one that cannot does nothing;
    nothing else touches the compels. -/
def CompelPaid (s s' : GameSnapshot) : EconomyEvent → Prop
  | .answer accept actor aspectText =>
    (¬ Answerable s accept actor aspectText ∧ s' = s) ∨
    ∃ compel sheet, s.encounter.findPendingCompel actor aspectText = some compel ∧
      s.fateSheet actor = some sheet ∧ (accept = false → 0 < sheet.fatePoints) ∧
      s'.encounter.pendingCompels = s.encounter.pendingCompels.erase compel ∧
      s'.fateSheet actor = some (sheet.withPoints (sheet.fatePoints + if accept then 1 else -1))
  | .offer _ target aspectText reason =>
    s'.encounter.pendingCompels = s.encounter.pendingCompels ∨
      s'.encounter.pendingCompels = s.encounter.pendingCompels ++ [⟨target, aspectText, reason⟩]
  | .invoke .. => s'.encounter.pendingCompels = s.encounter.pendingCompels
  | .concede _ => s'.encounter.pendingCompels = s.encounter.pendingCompels
  | .refresh .. => s'.encounter.pendingCompels = s.encounter.pendingCompels

section Put

variable {s : GameSnapshot} {actor : String} {sheet sheet' : FateSheet}

/-- A sheet put back is where it came from, and the others are where they were. -/
theorem exists_putFateSheet (hsheet : s.fateSheet actor = some sheet) (sheet' : FateSheet) :
    ∃ ref, s.cast.findCreatureCore actor = some ref ∧ s.sheets ref = some sheet ∧
      s.putFateSheet actor sheet'
        = { s with sheets := Function.update s.sheets ref (some sheet') } := by
  obtain ⟨ref, href, hat⟩ := Option.bind_eq_some_iff.mp hsheet
  refine ⟨ref, href, hat, ?_⟩
  unfold GameSnapshot.putFateSheet
  rw [href]

theorem fateSheet_putFateSheet (hsheet : s.fateSheet actor = some sheet) (sheet' : FateSheet) :
    (s.putFateSheet actor sheet').fateSheet actor = some sheet' := by
  obtain ⟨ref, href, -, hput⟩ := exists_putFateSheet hsheet sheet'
  rw [hput]
  unfold GameSnapshot.fateSheet
  rw [href, Option.bind_some]
  exact Function.update_self ref _ s.sheets

theorem solvent_putFateSheet {ref : CoreRef} (hs : Solvent ref s)
    (hsheet : s.fateSheet actor = some sheet)
    (hpoints : 0 ≤ sheet.fatePoints → 0 ≤ sheet'.fatePoints) :
    Solvent ref (s.putFateSheet actor sheet') := by
  obtain ⟨ref', href, hat, hput⟩ := exists_putFateSheet hsheet sheet'
  rw [hput]
  intro found hfound
  dsimp only at hfound
  by_cases heq : ref = ref'
  · subst heq
    rw [Function.update_self] at hfound
    cases hfound
    exact hpoints (hs sheet hat)
  · rw [Function.update_of_ne heq] at hfound
    exact hs found hfound

/-- Points do not change free invocations. -/
theorem charges_putFateSheet (hsheet : s.fateSheet actor = some sheet) (points : Int)
    (ref : CoreRef) (text : String) :
    charges ref text (s.putFateSheet actor (sheet.withPoints points)) = charges ref text s := by
  obtain ⟨ref', href, hat, hput⟩ := exists_putFateSheet hsheet (sheet.withPoints points)
  rw [hput]
  unfold charges
  dsimp only
  by_cases heq : ref = ref'
  · subst heq
    rw [Function.update_self, hat]
    rfl
  · rw [Function.update_of_ne heq]

end Put

section Moves

variable {s s' : GameSnapshot} {event : EconomyEvent}

/-- Nobody goes into debt: a point is paid where there is one. -/
theorem Moves.solvent {ref : CoreRef} (h : Moves s event s') (hs : Solvent ref s) :
    Solvent ref s' := by
  cases h with
  | stays _ hfree hanswer => exact hs
  | offered target aspectText reason => exact hs
  | usedFree actor text mode sheet aspect hsheet hfind hfree =>
    refine solvent_putFateSheet hs hsheet (fun h => ?_)
    unfold FateSheet.useFreeInvoke
    split
    · exact h
    · exact h
  | paid actor text mode sheet hsheet hfree hpoints =>
    refine solvent_putFateSheet hs hsheet (fun _ => ?_)
    show 0 ≤ sheet.fatePoints - 1
    omega
  | answered accept actor aspectText sheet compel hsheet hfind hpoints =>
    refine solvent_putFateSheet hs hsheet (fun h => ?_)
    show 0 ≤ sheet.fatePoints + if accept then 1 else -1
    cases accept with
    | true =>
      rw [if_pos rfl]
      omega
    | false =>
      have hpaid := hpoints rfl
      omega
  | conceded actor sheet earned encounter hsheet hearned hcompels =>
    refine solvent_putFateSheet hs hsheet (fun h => ?_)
    show 0 ≤ sheet.fatePoints + earned
    omega
  | refreshed actor least sheet hsheet =>
    refine solvent_putFateSheet hs hsheet (fun h => ?_)
    exact le_trans h (le_max_left sheet.fatePoints least)

/-- What an operation takes of the free invocations is what it uses. -/
theorem Moves.conserves (h : Moves s event s') (ref : CoreRef) (text : String) :
    charges ref text s' + usesFree ref text s event = charges ref text s := by
  cases h with
  | stays _ hfree hanswer =>
    rw [hfree]
    exact add_zero _
  | offered target aspectText reason => exact add_zero _
  | usedFree actor text' mode sheet aspect hsheet hfind hfree =>
    obtain ⟨ref', href, hat, hput⟩ := exists_putFateSheet hsheet (sheet.useFreeInvoke text')
    have hcharge := charge_useFreeInvoke hfind text
    have hthere : sheet.charge text' = aspect.freeInvokes := by
      unfold FateSheet.charge
      rw [hfind]
      rfl
    rw [hput]
    unfold charges usesFree
    dsimp only
    -- only the sheet that holds the aspect is charged, and only for its text
    by_cases heq : ref' = ref
    · subst heq
      rw [Function.update_self, hat]
      show (sheet.useFreeInvoke text').charge text + _ = sheet.charge text
      by_cases htext : text = text'
      · subst htext
        have hpos : 0 < charges ref' text s := by
          unfold charges
          rw [hat]
          exact lt_of_lt_of_eq hfree hthere.symm
        rw [if_pos ⟨rfl, href, hpos⟩]
        rw [if_pos rfl] at hcharge
        exact hcharge
      · rw [if_neg (fun h => htext h.1)]
        rw [if_neg htext] at hcharge
        exact hcharge
    · rw [Function.update_of_ne (fun h => heq h.symm), if_neg]
      · exact add_zero _
      · rintro ⟨-, hother, -⟩
        exact heq (Option.some.inj (href.symm.trans hother))
  | paid actor text' mode sheet hsheet hfree hpoints =>
    have hzero : usesFree ref text s (.invoke actor text' mode) = 0 :=
      usesFree_of_charge (fun sheet' h => by
        cases hsheet.symm.trans h
        exact hfree) mode ref text
    rw [hzero, charges_putFateSheet hsheet]
    exact add_zero _
  | answered accept actor aspectText sheet compel hsheet hfind hpoints =>
    exact (add_zero _).trans (charges_putFateSheet hsheet _ ref text)
  | conceded actor sheet earned encounter hsheet hearned hcompels =>
    exact (add_zero _).trans (charges_putFateSheet hsheet _ ref text)
  | refreshed actor least sheet hsheet =>
    exact (add_zero _).trans (charges_putFateSheet hsheet _ ref text)

/-- Every operation leaves the compels as it should. -/
theorem Moves.compelPaid (h : Moves s event s') : CompelPaid s s' event := by
  cases h with
  | stays _ hfree hanswer =>
    cases event with
    | invoke actor text mode => exact rfl
    | offer given target aspectText reason => exact .inl rfl
    | answer accept actor aspectText => exact .inl ⟨hanswer accept actor aspectText rfl, rfl⟩
    | concede actor => exact rfl
    | refresh actor least => exact rfl
  | offered target aspectText reason => exact .inr rfl
  | usedFree actor text mode sheet aspect hsheet hfind hfree =>
    exact congrArg StructuredEncounter.pendingCompels (encounter_putFateSheet s actor _)
  | paid actor text mode sheet hsheet hfree hpoints =>
    exact congrArg StructuredEncounter.pendingCompels (encounter_putFateSheet s actor _)
  | answered accept actor aspectText sheet compel hsheet hfind hpoints =>
    exact .inr ⟨compel, sheet, hfind, hsheet, hpoints, rfl, fateSheet_putFateSheet hsheet _⟩
  | conceded actor sheet earned encounter hsheet hearned hcompels => exact hcompels
  | refreshed actor least sheet hsheet =>
    exact congrArg StructuredEncounter.pendingCompels (encounter_putFateSheet s actor _)

end Moves

/-! ### The runs -/

/-- **The economy.** Over every run nobody comes to owe a point, a compel is gone exactly if its
    point moved, and free invocations are used at most as often as there were. -/
theorem economy_spec (s : GameSnapshot) (es : List EconomyEvent) :
    (∀ ref, Solvent ref s → Throughout trade (Solvent ref) s es) ∧
    StepsMeet trade (fun s event => CompelPaid s (trade s event) event) s es ∧
    ∀ ref text,
      charges ref text (run trade s es) + tally trade (usesFree ref text) s es
        = charges ref text s ∧
      (tally trade (usesFree ref text) s es : Int) ≤ max 0 (charges ref text s) := by
  have hconserves : ∀ ref text s event, charges ref text (trade s event)
      + usesFree ref text s event = charges ref text s :=
    fun ref text s event => (moves_trade s event).conserves ref text
  refine ⟨fun ref hs => ?_, ?_, fun ref text => ⟨?_, ?_⟩⟩
  · exact throughout_of_step (fun s event h => (moves_trade s event).solvent h) hs es
  · exact stepsMeet_of_forall (fun s event => (moves_trade s event).compelPaid) s es
  · exact tally_conserved (hconserves ref text) s es
  · exact tally_le (hconserves ref text) (usesFree_le ref text) s es

/-- Ann has no fate point left, and an aspect that can be invoked once for free. -/
def broke : GameSnapshot :=
  { skirmish with
    sheets := fun _ => some
      { aspects := [{ text := "Quick", kind := .character, freeInvokes := 1 }], fatePoints := 0 } }

/-- She cannot refuse a compel, nor invoke her aspect twice. -/
def errands : List EconomyEvent :=
  [.offer true "Ann" "Quick" "a trap", .answer false "Ann" "Quick", .invoke "Ann" "Quick" .bonus,
    .invoke "Ann" "Quick" .bonus, .answer true "Ann" "Quick"]

theorem economy_spec_errands : Throughout trade (Solvent (.character 0)) broke errands ∧
    (tally trade (usesFree (.character 0) "Quick") broke errands : Int)
      ≤ max 0 (charges (.character 0) "Quick" broke) ∧
    charges (.character 0) "Quick" broke = 1 := by
  refine ⟨(economy_spec broke errands).1 _ ?_, ((economy_spec broke errands).2.2 _ _).2, by decide⟩
  intro sheet hsheet
  cases hsheet
  decide

end Sidequest.Fate
