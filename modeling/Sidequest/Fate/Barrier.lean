import Sidequest.Fate.Completion

namespace Sidequest.Fate

open Lib
open Protocol (sanitizePlayerText)
open GameSnapshot

/-!
# The barrier over whole runs

* `meets_dispatch` — the step lemma: a message that returns keeps the table standing, and one
  that raises leaves all that the barrier depends on as it was;
* `runsThrough_of_resolvable` — no accepted action wedges the exchange, in runs whose sealed
  attacks are on seats that can be hit;
* `not_unfired_of_keepsBarrier` — a closed barrier always fires, in runs where, besides, nobody
  concedes as the last one waited on.
-/

variable (s : GameSnapshot) (actor : String)

section

/-! ### Sealing an action -/

/-- An invocation that returns could be paid. -/
theorem meets_invokeAspect (sheet : FateSheet) (actor text : String) (mode : InvokeMode) :
    Meets (fun sheet' => sheet' = sheet) (invokeAspect actor text mode)
      (fun _ _ => sheet.canInvoke text = true) (fun _ _ => True) := by
  refine meets_get_bind ?_
  rintro sheet' rfl
  cases hfind : sheet'.allAspects.find? (fun aspect => aspect.text = text) with
  | none => exact fun _ _ => trivial
  | some aspect =>
    have hcan : (0 < aspect.freeInvokes ∨ 0 < sheet'.fatePoints) →
        sheet'.canInvoke text = true := by
      unfold FateSheet.canInvoke
      rw [hfind]
      simp
    have hpay : Meets (fun s => s = sheet') (payInvocation actor aspect)
        (fun _ _ => sheet'.canInvoke text = true) (fun _ _ => True) := by
      refine meets_ite (fun hfree _ _ => hcan (Or.inl hfree)) (fun _ => ?_)
      refine meets_get_bind ?_
      rintro s rfl
      exact meets_ite (fun _ _ _ => trivial) (fun hpoints _ _ => hcan (Or.inr (by omega)))
    exact meets_bind hpay (fun _ _ hq => hq)

theorem sheets_attachFlavor (text : String) (s : GameSnapshot) :
    Meets (fun s' => s' = s) (attachFlavor actor text)
      (fun _ s' => Quiet s s' ∧ ∀ name, s'.fateSheet name = s.fateSheet name)
      (Never FateError GameSnapshot) := by
  refine meets_ite (fun _ => ?_) (fun _ => ?_)
  · rintro s' rfl
    exact ⟨⟨rfl, SameSheets.refl s', rfl, rfl, rfl, rfl, rfl, rfl⟩, fun _ => rfl⟩
  · rintro s' rfl
    exact ⟨refl_of Quiet s', fun _ => rfl⟩

theorem quiet_rollAction (payload : FateActionPayload) (actor : String)
    (thrownFaces : Option Dice) (invokeBonus : Int) :
    Preserves Quiet (rollAction payload actor thrownFaces invokeBonus) := by
  refine preserves_get.bind (fun s => ?_)
  cases thrownFaces with
  | some faces => exact preserves_pure _
  | none =>
    exact (quiet_resolveAction _ _ _).bind
      (fun _ => (quiet_resolveAction _ _ _).ite (preserves_pure _))

/-- An action that could be prepared had its invocation paid. -/
theorem meets_prepareAction {s : GameSnapshot} (payload : FateActionPayload) {actor : String}
    (hsheet : (s.fateSheet actor).isSome = true) (thrownFaces : Option Dice) :
    Meets (fun s' => s' = s) (prepareAction payload actor thrownFaces)
      (fun _ s' => Quiet s s' ∧ s.canInvoke payload actor = true) (fun _ s' => Quiet s s') := by
  obtain ⟨sheet, hsheet⟩ := Option.isSome_iff_exists.mp hsheet
  have hflavor := (sheets_attachFlavor actor payload.playerAction s).weaken (fun _ h => h)
    (fun _ _ hq => hq) (fun _ s' he => (he.elim : Quiet s s'))
  refine meets_bind hflavor (fun _ => ?_)
  have hpay : Meets (fun s' => Quiet s s' ∧ ∀ name, s'.fateSheet name = s.fateSheet name)
      (payInvoke payload actor) (fun _ s' => Quiet s s' ∧ s.canInvoke payload actor = true)
      (fun _ s' => Quiet s s') := by
    refine meets_ite (fun hnone => ?_) (fun _ => ?_)
    · rintro s' ⟨hquiet, -⟩
      refine ⟨hquiet, ?_⟩
      unfold GameSnapshot.canInvoke
      rw [hnone]
      rfl
    · have hboth : Meets (fun sheet' => sheet' = sheet)
          (invokeAspect actor payload.invokeAspect payload.invokeMode)
          (fun _ sheet' => sheet.canInvoke payload.invokeAspect = true ∧ sheet.Shape sheet')
          (fun _ sheet' => sheet.Shape sheet') := by
        intro sheet' heq
        subst heq
        have hcan := meets_invokeAspect sheet' actor payload.invokeAspect payload.invokeMode
          sheet' rfl
        have hshape := shape_invokeAspect actor payload.invokeAspect payload.invokeMode sheet'
        rcases hexec : (invokeAspect actor payload.invokeAspect payload.invokeMode).exec sheet'
          with ⟨e | a, sheet''⟩
        · rw [hexec] at hshape
          exact hshape
        · rw [hexec] at hcan hshape
          exact ⟨hcan, hshape⟩
      refine meets_onPart hboth (fun s' hs' => ⟨sheet, (hs'.2 actor).trans hsheet, rfl⟩) ?_ ?_
      · rintro s' t _ t' ⟨hquiet, hsame⟩ ht ⟨hcan, hshape⟩
        have hsheet' := (hsame actor).trans hsheet
        obtain rfl : t = sheet := Option.some.inj (ht.symm.trans hsheet')
        refine ⟨trans_of Quiet hquiet (quiet_putFateSheet ht hshape), ?_⟩
        unfold GameSnapshot.canInvoke
        rw [hsheet]
        simp [hcan]
      · rintro s' t _ t' ⟨hquiet, hsame⟩ ht hshape
        have hsheet' := (hsame actor).trans hsheet
        obtain rfl : t = sheet := Option.some.inj (ht.symm.trans hsheet')
        exact trans_of Quiet hquiet (quiet_putFateSheet ht hshape)
  exact meets_bind hpay (fun bonus => (quiet_rollAction payload actor thrownFaces bonus).meets s _)

/-- **Sealing.** A proactive action that is dispatched raises before it is sealed, or not at
    all. -/
theorem meets_commitFateAction {s : GameSnapshot} (hs : Standing s) {payload : FateActionPayload}
    {action : FateAction} {actor : String} (hproactive : payload.action.proactive = true)
    (hattack : action = .attack → payload.action = .attack)
    (hroutes : s.routes payload actor = true) {roundNumber : Nat} {thrownFaces : Option Dice}
    (hok : Resolvable s (.act payload actor roundNumber thrownFaces)) :
    Meets (fun s' => s' = s) (commitFateAction payload action actor roundNumber thrownFaces)
      Fired (fun _ s' => Quiet s s') := by
  refine meets_get_bind ?_
  rintro s' rfl
  refine meets_ite (fun _ => ?_) (fun hsheet => ?_)
  · rintro s'' rfl
    exact refl_of Quiet s''
  rw [Bool.not_eq_true, Option.isNone_eq_false_iff] at hsheet
  refine meets_bind (meets_prepareAction payload hsheet thrownFaces) (fun outcome => ?_)
  have hseal : Meets (fun s₁ => Quiet s' s₁ ∧ s'.canInvoke payload actor = true)
      (sealFateCommit (payload.commit action actor outcome))
      (fun _ => Ready s'.encounter.mental []) (fun _ s₁ => Quiet s' s₁) := by
    refine meets_get_bind ?_
    rintro s₁ ⟨hquiet, hcan⟩
    refine meets_ite (fun _ => ?_) (fun hfree => ?_)
    · rintro s₂ rfl
      exact hquiet
    -- the dispatch seals the action: it could be resolved when it came in
    have hseals : s'.seals payload actor = true := by
      unfold GameSnapshot.seals GameSnapshot.committed
      rw [hquiet.fateCommits] at hfree
      simp only [Bool.not_eq_true] at hfree
      rw [hproactive, hroutes, hsheet, hcan]
      show (!s'.encounter.fateCommits.any _) = true
      rw [Bool.not_eq_true']
      exact hfree
    obtain ⟨hparked, htargets⟩ := hok hseals
    have haimed : s₁.Aimed (payload.commit action actor outcome) := by
      intro haction
      have hhit := htargets (hattack haction)
      obtain ⟨target, htarget, hhit⟩ := exists_of_any hhit
      refine ⟨sanitizePlayerText target, ?_, hquiet.sameTable.canBeHit hhit⟩
      show payload.target.map sanitizePlayerText = _
      rw [htarget]
      rfl
    have hready := (hs.ready.of_sameLedgers hquiet.sameLedgers).seal haimed
    rw [hparked] at hready
    rintro s₂ rfl
    exact hready
  refine meets_bind hseal (fun _ => ?_)
  exact (meets_fireBarrier roundNumber outcome).weaken (fun _ h => h) (fun _ _ hq => hq)
    (fun _ _ he => he.elim)

/-! ### Concessions and compels -/

theorem shape_earnFatePoints (n : Nat) : Preserves FateSheet.Shape (earnFatePoints n) := by
  induction n with
  | zero => exact preserves_pure _
  | succ n ih => exact shape_earnFatePoint.bind (fun _ => ih)

/-- The seat has withdrawn, and the side is cleared if it was the last one. -/
def Conceded (s' : GameSnapshot) : Prop :=
  ∃ s₁, Quiet s s₁ ∧
    s' = { s₁ with encounter := (s₁.encounter.withdraw actor).maybeResolveSideCleared }

theorem meets_concedeInConflict :
    Meets (fun s' => s' = s) (concedeInConflict actor) (fun _ s' => Conceded s actor s')
      (fun _ s' => Quiet s s') := by
  refine meets_get_bind ?_
  rintro s' rfl
  cases s'.fateSheet actor with
  | none =>
    rintro s'' rfl
    exact refl_of Quiet s''
  | some sheet =>
    refine meets_ite (fun _ => ?_) (fun _ => ?_)
    · rintro s'' rfl
      exact refl_of Quiet s''
    · have hearn := (quiet_onSheet actor (.noSheetToConcede actor) (shape_earnFatePoints
        (1 + (sheet.consequences.filter (fun slot => slot.aspect.isSome)).length))).meets_of_state s'
      exact meets_bind hearn (fun _ s₁ hquiet => ⟨s₁, hquiet, rfl⟩)

theorem actors_maybeResolveSideCleared (encounter : StructuredEncounter) :
    encounter.maybeResolveSideCleared.actors = encounter.actors ∧
      encounter.maybeResolveSideCleared.fateCommits = encounter.fateCommits ∧
      encounter.maybeResolveSideCleared.pendingDefenses = encounter.pendingDefenses :=
  ⟨field_maybeResolveSideCleared StructuredEncounter.actors (fun _ _ => rfl) encounter,
    field_maybeResolveSideCleared StructuredEncounter.fateCommits (fun _ _ => rfl) encounter,
    field_maybeResolveSideCleared StructuredEncounter.pendingDefenses (fun _ _ => rfl) encounter⟩

theorem resolved_withdraw_congr {encounter encounter' : StructuredEncounter}
    (hactors : encounter'.actors = encounter.actors)
    (hresolved : encounter'.resolved = encounter.resolved) (actor : String) :
    (encounter'.withdraw actor).maybeResolveSideCleared.resolved =
      (encounter.withdraw actor).maybeResolveSideCleared.resolved := by
  unfold StructuredEncounter.maybeResolveSideCleared StructuredEncounter.sideOf
    StructuredEncounter.withdraw
  dsimp only
  rw [hactors, hresolved]
  split_ifs
  all_goals rfl

section Conceded

variable {s s' : GameSnapshot} {actor : String}

theorem Conceded.sameLedgers (h : Conceded s actor s') : SameLedgers s s' := by
  obtain ⟨s₁, hquiet, rfl⟩ := h
  refine trans_of SameLedgers hquiet.sameLedgers (trans_of SameLedgers
    (sameLedgers_withdraw actor s₁) (sameLedgers_maybeResolveSideCleared _))

/-- **Conceding** leaves a barrier that was not the actor's alone to close. -/
theorem Conceded.not_unfired (h : Conceded s actor s')
    (hkeeps : (∃ name ∈ s.fateWaitingActors, name ≠ actor) ∨ s.encounter.fateCommits = []
      ∨ s.encounter.ledgerFull = false
      ∨ (s.encounter.withdraw actor).maybeResolveSideCleared.resolved = true) : ¬ Unfired s' := by
  have hsame := h.sameLedgers
  obtain ⟨s₁, hquiet, rfl⟩ := h
  intro hunfired
  rcases hkeeps with ⟨name, hname, hne⟩ | hnone | hopen | hcleared
  · -- the barrier still waits on somebody else
    obtain ⟨seat, hseat, rfl⟩ := List.mem_map.mp hname
    obtain ⟨hmem, hwaits⟩ := List.mem_filter.mp hseat
    have hclosed := of_decide_eq_true hunfired.closed
    have hstill : seat ∈ (s₁.encounter.withdraw actor).maybeResolveSideCleared.actors := by
      rw [(actors_maybeResolveSideCleared _).1]
      refine mem_updateFirst_of_mem ?_ (decide_eq_false hne)
      rw [hquiet.actors]
      exact hmem
    rw [← waitsOn_congr hsame.table.cast hsame.fateCommits] at hwaits
    have hwaiting := List.mem_map_of_mem (f := EncounterActor.name)
      (List.mem_filter.mpr ⟨hstill, hwaits⟩)
    unfold GameSnapshot.fateWaitingActors at hclosed
    rw [hclosed] at hwaiting
    exact absurd hwaiting (by simp)
  · exact hunfired.sealed (hsame.fateCommits.trans hnone)
  · have hfull := hunfired.defended
    unfold StructuredEncounter.ledgerFull at hfull hopen
    rw [hsame.pendingDefenses, hopen] at hfull
    exact absurd hfull (by decide)
  · have hresolved := hunfired.unresolved
    rw [resolved_withdraw_congr hquiet.actors hquiet.resolved, hcleared] at hresolved
    exact absurd hresolved (by decide)

end Conceded

/-- **A compel** changes nothing the barrier depends on. -/
theorem quiet_resolveCompel (accept : Bool) (actor aspectText : String) :
    Preserves Quiet (resolveCompel accept actor aspectText) := by
  refine preserves_get.bind (fun s => ?_)
  cases s.encounter.findPendingCompel actor aspectText with
  | none => exact preserves_throw _
  | some compel =>
    have hpoint : Preserves FateSheet.Shape
        (if accept then earnFatePoint else spendFatePoint actor "compel_refused") :=
      shape_earnFatePoint.ite (shape_spendFatePoint actor _)
    have hremove : Preserves Quiet (modifyEncounter fun encounter =>
        { encounter with pendingCompels := encounter.pendingCompels.erase compel }) :=
      preserves_modify (fun s => ⟨rfl, SameSheets.refl s, rfl, rfl, rfl, rfl, rfl, rfl⟩)
    exact (quiet_onSheet actor _ hpoint).bind (fun _ => hremove.bind (fun _ => preserves_pure _))

/-! ### Defenses -/

/-- Recording a defense changes the ledger of defenses only; a defense that is rejected changes
    nothing. -/
theorem meets_dispatchFateDefense (requestId skill : String) (thrownFaces : Option Dice)
    (conceded : Bool) : Meets (fun s' => s' = s)
      (dispatchFateDefense actor requestId skill thrownFaces conceded)
      (fun result s' => (∃ defenses, s' = { s with encounter := { s.encounter with
        pendingDefenses := defenses } }) ∧ result.ledgerFull = s'.encounter.ledgerFull)
      (fun _ s' => s' = s) := by
  have hrecord : ∀ answer roll conceded, Meets (fun s' => s' = s)
      (recordDefense requestId answer roll conceded)
      (fun result s' => (∃ defenses, s' = { s with encounter := { s.encounter with
        pendingDefenses := defenses } }) ∧ result.ledgerFull = s'.encounter.ledgerFull)
      (fun _ s' => s' = s) := by
    rintro answer roll conceded s' rfl
    exact ⟨⟨_, rfl⟩, rfl⟩
  refine meets_get_bind ?_
  rintro s' rfl
  cases s'.encounter.findPendingDefense requestId with
  | none => exact fun _ heq => heq
  | some entry =>
    refine meets_ite (fun _ _ heq => heq) (fun _ => meets_ite (fun _ _ heq => heq) (fun _ => ?_))
    refine meets_ite (fun _ => hrecord _ _ _) (fun _ => ?_)
    cases thrownFaces with
    | none => exact fun _ heq => heq
    | some faces => exact hrecord _ _ _

theorem meets_handleDefend {s : GameSnapshot} (hs : Standing s) (actor requestId skill : String)
    (thrownFaces : Option Dice) (conceded : Bool) :
    Meets (fun s' => s' = s) (handleDefend actor requestId skill thrownFaces conceded)
      Fired (fun _ s' => Quiet s s') := by
  refine meets_bind ((meets_dispatchFateDefense s actor requestId skill thrownFaces
    conceded).weaken (fun _ h => h) (fun _ _ hq => hq) (fun _ s' he => he ▸ refl_of Quiet s))
    (fun defense => ?_)
  refine meets_of_forall (fun s₁ hs₁ => ?_)
  obtain ⟨⟨defenses, heq⟩, hfull⟩ := hs₁
  have hready : Ready s.encounter.mental defenses s₁ := by
    subst heq
    refine ⟨SameTable.wellSeated (s := s) ⟨rfl, SameSheets.refl s, rfl, rfl⟩ hs.seated,
      fun commit hcommit => ?_, rfl, rfl⟩
    exact SameTable.aimed (s := s) ⟨rfl, SameSheets.refl s, rfl, rfl⟩ (hs.aimed commit hcommit)
  refine meets_ite (fun hledger => ?_) (fun hledger => ?_)
  · -- every defense is in: the exchange is resumed
    have hanswered : ∀ entry ∈ defenses, entry.answered = true := by
      rw [hfull, StructuredEncounter.ledgerFull, hready.parked] at hledger
      exact List.all_eq_true.mp hledger
    refine meets_bind (((meets_resumeFateExchange hanswered).of_state hready).weaken
      (fun _ h => h) (fun _ _ hq => hq) (fun _ _ he => he.elim)) (fun result s' hs' => hs'.fired _)
  · rintro s' rfl
    rw [hfull, Bool.not_eq_true] at hledger
    refine ⟨⟨hready.seated, hready.aimed, fun h => ?_⟩, fun h => absurd h (by simp), fun h => ?_⟩
    · rw [hledger] at h
      exact absurd h (by decide)
    · have hdefended := h.defended
      rw [hledger] at hdefended
      exact absurd hdefended (by decide)

/-! ### One message -/

variable {event : FateEvent}

theorem Fired.after {s s' : GameSnapshot} {result : FateDispatchResult} (h : Fired result s') :
    After s event result s' := ⟨h.standing, h.cleared, fun _ _ => h.fired⟩

/-- A compel that is answered leaves the table as it stood. -/
theorem meets_compel {s : GameSnapshot} (hs : Standing s) (accept : Bool)
    (actor aspectText : String) (event : FateEvent) :
    Meets (fun s' => s' = s)
      (do
        let delta ← resolveCompel accept actor aspectText
        pure { commitmentPending := false, exchange := none, fatePointDelta := delta })
      (After s event) (fun _ s' => Quiet s s') := by
  have hcompel := (quiet_resolveCompel accept actor aspectText).meets_of_state s
  refine meets_bind hcompel (fun delta s' hquiet => ?_)
  exact ⟨hs.of_sameLedgers hquiet.sameLedgers, fun h => absurd h (by simp),
    fun _ hfired hunfired => hfired (hquiet.unfired hunfired)⟩

theorem meets_routeFateAction {s : GameSnapshot} (hs : Standing s) {payload : FateActionPayload}
    {actor : String} (hroutes : s.routes payload actor = true) {roundNumber : Nat}
    {thrownFaces : Option Dice} (hok : Resolvable s (.act payload actor roundNumber thrownFaces)) :
    Meets (fun s' => s' = s) (routeFateAction payload actor roundNumber thrownFaces)
      (After s (.act payload actor roundNumber thrownFaces)) (fun _ s' => Quiet s s') := by
  have hcommit : ∀ action, payload.action.proactive = true →
      (action = .attack → payload.action = .attack) →
      Meets (fun s' => s' = s) (commitFateAction payload action actor roundNumber thrownFaces)
        (After s (.act payload actor roundNumber thrownFaces)) (fun _ s' => Quiet s s') :=
    fun action hproactive hattack =>
      (meets_commitFateAction hs hproactive hattack hroutes hok).weaken (fun _ h => h)
        (fun _ _ hq => hq.after) (fun _ _ he => he)
  unfold routeFateAction
  cases haction : payload.action with
  | overcome => exact hcommit .overcome (by rw [haction]; rfl) (by simp)
  | createAdvantage => exact hcommit .createAdvantage (by rw [haction]; rfl) (by simp)
  | attack => exact hcommit .attack (by rw [haction]; rfl) (fun _ => haction)
  | compelAccept => exact meets_compel hs true actor payload.aspectText _
  | compelRefuse => exact meets_compel hs false actor payload.aspectText _
  | concede =>
    refine meets_bind (meets_concedeInConflict s actor) (fun _ s' hconceded => ?_)
    exact ⟨hs.of_sameLedgers hconceded.sameLedgers, fun h => absurd h (by simp),
      fun hkeeps _ => hconceded.not_unfired (hkeeps haction hroutes)⟩

/-- **The step lemma.** A message that returns keeps the table standing; one that raises leaves
    all that the barrier depends on as it was. -/
theorem meets_dispatch {s : GameSnapshot} (hs : Standing s) (hok : Resolvable s event) :
    Meets (fun s' => s' = s) event.dispatch (After s event) (fun _ s' => Quiet s s') := by
  cases event with
  | defend actor requestId skill thrownFaces conceded =>
    exact (meets_handleDefend hs actor requestId skill thrownFaces conceded).weaken
      (fun _ h => h) (fun _ _ hq => hq.after) (fun _ _ he => he)
  | act payload actor roundNumber thrownFaces =>
    have hrejected : ∀ error : FateError, Meets (fun s' => s' = s)
        (throw error : FateM FateDispatchResult)
        (After s (.act payload actor roundNumber thrownFaces)) (fun _ s' => Quiet s s') := by
      rintro error s' rfl
      exact refl_of Quiet s'
    refine meets_get_bind ?_
    rintro s' rfl
    refine meets_ite (fun _ => hrejected _) (fun hfate => ?_)
    refine meets_ite (fun _ => hrejected _) (fun hresolved => ?_)
    refine meets_ite (fun _ => hrejected _) (fun hseated => ?_)
    refine meets_ite (fun _ => hrejected _) (fun hcontest => ?_)
    refine meets_routeFateAction hs ?_ hok
    unfold GameSnapshot.routes
    simp only [Bool.not_eq_true', Bool.not_eq_false, Bool.not_eq_true, Option.isNone_eq_false_iff]
      at hfate hresolved hseated hcontest
    rw [hfate, hresolved, hseated, hcontest]
    rfl

theorem standing_step {s : GameSnapshot} (hs : Standing s) (hok : Resolvable s event) :
    Standing (step s event) := by
  have hdispatch := meets_dispatch hs hok s rfl
  unfold step
  rcases hexec : event.dispatch.exec s with ⟨e | result, s'⟩
  · rw [hexec] at hdispatch
    exact hs.of_sameLedgers hdispatch.sameLedgers
  · rw [hexec] at hdispatch
    exact hdispatch.standing

theorem not_unfired_step {s : GameSnapshot} (hs : Standing s) (hok : Resolvable s event)
    (hkeeps : KeepsBarrier s event) (hfired : ¬ Unfired s) : ¬ Unfired (step s event) := by
  have hdispatch := meets_dispatch hs hok s rfl
  unfold step
  rcases hexec : event.dispatch.exec s with ⟨e | result, s'⟩
  · rw [hexec] at hdispatch
    exact fun hunfired => hfired (hdispatch.unfired hunfired)
  · rw [hexec] at hdispatch
    exact hdispatch.fired hkeeps hfired

end

/-- A well-seated table before its first exchange. -/
structure Fresh (s : GameSnapshot) : Prop where
  seated : s.WellSeated
  fateCommits : s.encounter.fateCommits = []
  pendingDefenses : s.encounter.pendingDefenses = []

theorem Fresh.standing {s : GameSnapshot} (h : Fresh s) : Standing s := by
  refine ⟨h.seated, fun commit hcommit => ?_, fun _ => h.pendingDefenses⟩
  rw [h.fateCommits] at hcommit
  exact absurd hcommit (by simp)

/-- Once the barrier is closed and no defense is outstanding, the exchange runs to its end and
    leaves no commit behind. -/
def RunsThrough : Prop :=
  s.fateBarrierClosed = true → s.encounter.ledgerFull = true →
    ∃ result s', runFateExchange.exec s = (.ok result, s') ∧ s'.encounter.fateCommits = []

/-- A message that raises has sealed nothing, and one that ran the exchange left no commit. -/
def AcceptsWhole (event : FateEvent) : Prop :=
  match event.dispatch.exec s with
  | (.ok result, s') => result.exchange.isSome = true → s'.encounter.fateCommits = []
  | (.error _, s') => s'.encounter.fateCommits = s.encounter.fateCommits

/-- From a standing table the exchange runs to its end. -/
theorem Standing.runsThrough {s : GameSnapshot} (h : Standing s) : RunsThrough s := by
  intro _ hfull
  have hanswered : ∀ entry ∈ s.encounter.pendingDefenses, entry.answered = true :=
    List.all_eq_true.mp hfull
  obtain ⟨result, s', hexec, hsettled⟩ := (meets_runFateExchange hanswered).exists_ok h.ready
  exact ⟨result, s', hexec, hsettled.fateCommits⟩

theorem Standing.acceptsWhole {s : GameSnapshot} {event : FateEvent} (h : Standing s)
    (hok : Resolvable s event) : AcceptsWhole s event := by
  have hdispatch := meets_dispatch h hok s rfl
  unfold AcceptsWhole
  rcases hexec : event.dispatch.exec s with ⟨e | result, s'⟩
  · rw [hexec] at hdispatch
    exact hdispatch.fateCommits
  · rw [hexec] at hdispatch
    exact hdispatch.cleared

/-! ### No accepted action wedges the exchange -/

/-- **Exchanges complete.** Where no action is sealed while a defense is pending and every attack is
    on a seat that can be hit, a closed barrier runs to its end and no message raises after sealing.
    -/
theorem runsThrough_of_resolvable {s : GameSnapshot} {es : List FateEvent} (hs : Fresh s)
    (hes : StepsMeet step Resolvable s es) :
    Throughout step RunsThrough s es ∧ StepsMeet step AcceptsWhole s es := by
  have hstep : ∀ s e, Standing s → Resolvable s e → Standing (step s e) := fun _ _ => standing_step
  constructor
  · exact (throughout_of_invariant hstep hs.standing hes).mono (fun _ h => h.runsThrough)
  · exact stepsMeet_of_invariant hstep (fun _ _ h hok => h.acceptsWhole hok) hs.standing hes

/-- Two PCs against one opponent, everybody with the default sheet, all dice blank. -/
def skirmish : GameSnapshot :=
  { cast :=
      { characters := ["Ann", "Bob"]
        npcs := [{ name := "Gob" }]
        normalizeName := id }
    sheets := fun _ => some {}
    encounter :=
      { actors := [⟨"Ann", .player, false⟩, ⟨"Bob", .player, false⟩, ⟨"Gob", .opponent, false⟩] }
    rolls := fun _ => ⟨.blank, .blank, .blank, .blank⟩ }

theorem fresh_skirmish : Fresh skirmish := ⟨by decide, rfl, rfl⟩

/-- An attack on the target. -/
def attackOn (target : Option String) : FateActionPayload :=
  { action := .attack, skill := "Fight", target := target }

/-- Ann's attack, Bob's attack on the opponent, and Bob's defense against the attack it provokes,
    all dice blank. -/
def attackRound (target : Option String) : List FateEvent :=
  [.act (attackOn target) "Ann" 0 (some ⟨.blank, .blank, .blank, .blank⟩),
    .act (attackOn (some "Gob")) "Bob" 0 (some ⟨.blank, .blank, .blank, .blank⟩),
    .defend "Bob" "def:0:Gob->Bob" "Athletics" (some ⟨.blank, .blank, .blank, .blank⟩) false]

/-- Attacks on the opponent are resolved. -/
theorem runsThrough_of_attack_on_opponent :
    StepsMeet step Resolvable skirmish (attackRound (some "Gob")) ∧
      Throughout step RunsThrough skirmish (attackRound (some "Gob")) ∧
      StepsMeet step AcceptsWhole skirmish (attackRound (some "Gob")) := by
  have hround : StepsMeet step Resolvable skirmish (attackRound (some "Gob")) := by decide
  exact ⟨hround, runsThrough_of_resolvable fresh_skirmish hround⟩

/-- An attack that names no target is accepted and sealed, and then its exchange raises, every
    time it is run. -/
theorem not_runsThrough_of_untargeted_attack :
    Fresh skirmish ∧
      ((FateEvent.act (attackOn none) "Ann" 0
        (some ⟨.blank, .blank, .blank, .blank⟩)).dispatch.exec skirmish).1.toBool = true ∧
      ¬ Throughout step RunsThrough skirmish (attackRound none) := by
  refine ⟨fresh_skirmish, by decide, fun hruns => ?_⟩
  obtain ⟨result, s', hexec, -⟩ := hruns.last (by decide) (by decide)
  have hraised : (runFateExchange.exec (run step skirmish (attackRound none))).1.toBool = false := by
    decide
  rw [hexec] at hraised
  exact Bool.noConfusion hraised

/-! ### A closed barrier fires -/

/-- **A closed barrier fires.** Where sealed actions can be resolved and nobody concedes as the last
    one waited on, no state has all live PCs committed and the commits still there. -/
theorem not_unfired_of_keepsBarrier {s : GameSnapshot} {es : List FateEvent} (hs : Fresh s)
    (hes : StepsMeet step (fun s e => Resolvable s e ∧ KeepsBarrier s e) s es) :
    Throughout step (fun s => ¬ Unfired s) s es := by
  have hstep : ∀ s e, (Standing s ∧ ¬ Unfired s) → (Resolvable s e ∧ KeepsBarrier s e) →
      (Standing (step s e) ∧ ¬ Unfired (step s e)) :=
    fun s e hinv hok => ⟨standing_step hinv.1 hok.1, not_unfired_step hinv.1 hok.1 hok.2 hinv.2⟩
  have hstart : ¬ Unfired s := fun hunfired => hunfired.sealed hs.fateCommits
  exact (throughout_of_invariant hstep ⟨hs.standing, hstart⟩ hes).mono (fun _ h => h.2)

/-- Ann seals an action, and Bob concedes. -/
def sealThenConcede : List FateEvent :=
  [.act { action := .overcome, skill := "Athletics" } "Ann" 0
      (some ⟨.blank, .blank, .blank, .blank⟩),
    .act { action := .concede } "Bob" 0 none]

/-- Who concedes first, while the other PC is still waited on, leaves no barrier unfired. -/
theorem not_unfired_of_early_concession :
    StepsMeet step (fun s e => Resolvable s e ∧ KeepsBarrier s e) skirmish sealThenConcede.reverse ∧
      Throughout step (fun s => ¬ Unfired s) skirmish sealThenConcede.reverse := by
  have hsteps : StepsMeet step (fun s e => Resolvable s e ∧ KeepsBarrier s e) skirmish
      sealThenConcede.reverse := by decide
  exact ⟨hsteps, not_unfired_of_keepsBarrier fresh_skirmish hsteps⟩

/-- The last one waited on concedes after the other has sealed: everybody who is left has
    committed, and the exchange is never run. -/
theorem unfired_of_late_concession : Fresh skirmish ∧ Unfired (run step skirmish sealThenConcede) :=
  ⟨fresh_skirmish, by decide⟩

end Sidequest.Fate
