import Sidequest.Fate.Absorb
import Sidequest.Fate.Exchange
import Sidequest.Lib.Run

namespace Sidequest.Fate

open Lib
open Protocol (sanitizePlayerText)

/-!
# Dispatching Fate actions and defenses

The two entry points of the Fate channel, over an encounter that is there.

* `dispatchFateAction` — concessions and compels act at once; a proactive action is sealed, and
  the one that closes the barrier fires the exchange or parks it;
* `dispatchFateDefense`, `handleDefend` — a PC's answer to one parked attack, and the exchange
  resumed when every answer is in;
* `FateEvent`, `step` — the channel as a system that takes one message at a time;
* `Quiet` — all that the barrier depends on;
* `safe_resolveCommit` — an aimed commit is resolved without a raise where every recorded
  defense is answered.
-/

section

section

/-! ### Payloads and results -/

/-- What a player can ask for. -/
inductive FateVerb where
  | overcome
  | createAdvantage
  | attack
  | concede
  | compelAccept
  | compelRefuse
deriving DecidableEq

/-- A player's submission. -/
structure FateActionPayload where
  action : FateVerb
  skill : String := ""
  target : Option String := none
  difficulty : Int := 0
  invokeAspect : String := ""
  invokeMode : InvokeMode := .bonus
  aspectText : String := ""
  playerAction : String := ""

/-- An exchange that ran, of a conflict or of a contest. -/
inductive ExchangeResult where
  | conflict (result : FateExchangeResult)
  | contest (result : FateContestResult)

/-- What one dispatch produced. -/
structure FateDispatchResult where
  commitmentPending : Bool
  exchange : Option ExchangeResult
  actionRoll : Option FateOutcome := none
  fatePointDelta : Int := 0
  defendRequests : List FateDefendRequestPayload := []
  awaitingDefense : Bool := false

/-! ### Actions that are not sealed -/

/-- Earn several fate points. -/
def earnFatePoints : Nat → SheetM PUnit
  | 0 => pure ⟨⟩
  | n + 1 => do
    earnFatePoint
    earnFatePoints n

variable (payload : FateActionPayload) (actor : String)

/-- Concede: one fate point and one for each consequence taken, and the seat withdraws. -/
def concedeInConflict : FateM Nat := do
  let snapshot ← get
  match snapshot.fateSheet actor with
  | none => throw (.noSheetToConcede actor)
  | some sheet =>
    if (snapshot.encounter.findActor actor).isNone then throw (.notSeated actor)
    else do
      let earned := 1 + (sheet.consequences.filter (fun slot => slot.aspect.isSome)).length
      onSheet actor (.noSheetToConcede actor) (earnFatePoints earned)
      modifyEncounter (fun encounter => encounter.withdraw actor)
      modifyEncounter StructuredEncounter.maybeResolveSideCleared
      pure earned

/-- Answer a compel: accepting earns a fate point, refusing costs one, and then it is gone. -/
def resolveCompel (accept : Bool) (actor aspectText : String) : FateM Int := do
  let snapshot ← get
  match snapshot.encounter.findPendingCompel actor aspectText with
  | none => throw (.noPendingCompel actor aspectText)
  | some compel => do
    onSheet actor (.noSheetToCompel actor)
      (if accept then earnFatePoint else spendFatePoint actor "compel_refused")
    modifyEncounter fun encounter =>
      { encounter with pendingCompels := encounter.pendingCompels.erase compel }
    pure (if accept then 1 else -1)

/-! ### Actions that are sealed -/

/-- The text typed beside the action goes to the narrator, sanitized, and into nothing else. -/
def attachFlavor (text : String) : FateM PUnit :=
  let rider := sanitizePlayerText text
  if stripChars text.toList ≠ [] ∧ rider ≠ "" then
    modifyEncounter fun encounter => { encounter with
      narratorHints := encounter.narratorHints ++ [actor ++ " (flourish): " ++ rider] }
  else pure ⟨⟩

/-- Pay for the invocation before the roll, if one is asked for. -/
def payInvoke : FateM Int :=
  if payload.invokeAspect = "" then pure 0
  else onSheet actor (.noSheetToAct actor)
    (invokeAspect actor payload.invokeAspect payload.invokeMode)

/-- The server's roll of a player's action; a reroll that was paid for replaces it. -/
def rollOnServer (rating : Int) (opposition : Opposition) (invokeBonus : Int) (reroll : Bool) :
    FateM FateOutcome := do
  let outcome ← resolveAction rating opposition invokeBonus
  if reroll then resolveAction rating opposition invokeBonus
  else pure outcome

variable (roundNumber : Nat) (thrownFaces : Option Dice)

/-- The roll of a player's action: thrown faces are the roll. -/
def rollAction (invokeBonus : Int) : FateM FateOutcome := do
  let snapshot ← get
  let rating := snapshot.rating actor payload.skill
  let opposition : Opposition :=
    ⟨payload.difficulty, if payload.target.isSome then .active else .passive⟩
  match thrownFaces with
  | some faces => pure (buildOutcome faces rating opposition invokeBonus)
  | none =>
    rollOnServer rating opposition invokeBonus
      (payload.invokeAspect ≠ "" && payload.invokeMode = .reroll)

/-- The commit of an action: what a player typed is sealed sanitized. -/
def FateActionPayload.commit (action : FateAction) (actor : String) (outcome : FateOutcome) :
    FateSealedCommit :=
  { actor := actor
    action := action
    skill := sanitizePlayerText payload.skill
    target := payload.target.map sanitizePlayerText
    difficulty := payload.difficulty
    ladderTotal := outcome.ladderTotal
    dice := outcome.dice
    aspectText := sanitizePlayerText payload.aspectText }

/-- Park the exchange if a live PC is attacked, and run it otherwise. -/
def parkOrRun (outcome : FateOutcome) : FateM FateDispatchResult := do
  let snapshot ← get
  seatOpponentCommits snapshot.encounter.mental
  let requests ← buildPendingDefenses roundNumber
  if requests ≠ [] then
    pure
      { commitmentPending := false
        exchange := none
        actionRoll := some outcome
        defendRequests := requests
        awaitingDefense := true }
  else do
    let result ← runFateExchange
    pure
      { commitmentPending := false
        exchange := some (.conflict result)
        actionRoll := some outcome }

/-- Fire the exchange if the barrier is closed. -/
def fireBarrier (outcome : FateOutcome) : FateM FateDispatchResult := do
  let snapshot ← get
  if !snapshot.fateBarrierClosed then
    pure { commitmentPending := true, exchange := none, actionRoll := some outcome }
  else if snapshot.encounter.contest.isSome then do
    let result ← runFateContestExchange
    pure
      { commitmentPending := false
        exchange := some (.contest result)
        actionRoll := some outcome }
  else parkOrRun roundNumber outcome

/-- What comes before a proactive action is sealed: the flavor text, the invocation, the roll. -/
def prepareAction : FateM FateOutcome := do
  attachFlavor actor payload.playerAction
  let invokeBonus ← payInvoke payload actor
  rollAction payload actor thrownFaces invokeBonus

/-- Prepare, roll and seal a proactive action, and fire the exchange if it was the last one. -/
def commitFateAction (action : FateAction) (actor : String) (roundNumber : Nat)
    (thrownFaces : Option Dice) : FateM FateDispatchResult := do
  let snapshot ← get
  if (snapshot.fateSheet actor).isNone then throw (.noSheetToAct actor)
  else do
    let outcome ← prepareAction payload actor thrownFaces
    sealFateCommit (payload.commit action actor outcome)
    fireBarrier roundNumber outcome

/-- Route a player's action by its verb. -/
def routeFateAction : FateM FateDispatchResult :=
  match payload.action with
  | .concede => do
    let _ ← concedeInConflict actor
    pure { commitmentPending := false, exchange := none }
  | .compelAccept => do
    let delta ← resolveCompel true actor payload.aspectText
    pure { commitmentPending := false, exchange := none, fatePointDelta := delta }
  | .compelRefuse => do
    let delta ← resolveCompel false actor payload.aspectText
    pure { commitmentPending := false, exchange := none, fatePointDelta := delta }
  | .overcome => commitFateAction payload .overcome actor roundNumber thrownFaces
  | .createAdvantage => commitFateAction payload .createAdvantage actor roundNumber thrownFaces
  | .attack => commitFateAction payload .attack actor roundNumber thrownFaces

/-- Dispatch a player's action. -/
def dispatchFateAction : FateM FateDispatchResult := do
  let snapshot ← get
  if !snapshot.fateRuleset then throw .nonFateRuleset
  else if snapshot.encounter.resolved then throw .noActiveEncounter
  else if (snapshot.encounter.findActor actor).isNone then throw (.notSeated actor)
  else if snapshot.encounter.contest.isSome && payload.action = .attack then
    throw .attackInContest
  else routeFateAction payload actor roundNumber thrownFaces

/-! ### Defenses -/

/-- What recording one defense produced. -/
structure FateDefenseResult where
  defenseRoll : Option FateOutcome
  (ledgerFull conceded : Bool)

variable (requestId : String)

/-- Put a defense into the ledger. -/
def recordDefense (answer : FatePendingDefense → FatePendingDefense) (roll : Option FateOutcome)
    (conceded : Bool) : FateM FateDefenseResult := do
  modifyEncounter (fun encounter => encounter.updatePendingDefense requestId answer)
  let snapshot ← get
  pure ⟨roll, snapshot.encounter.ledgerFull, conceded⟩

/-- Record a PC's answer to one parked attack: a concession, or four thrown faces. -/
def dispatchFateDefense (skill : String) (thrownFaces : Option Dice) (conceded : Bool) :
    FateM FateDefenseResult := do
  let snapshot ← get
  match snapshot.encounter.findPendingDefense requestId with
  | none => throw (.unknownRequest requestId)
  | some entry =>
    if entry.defender ≠ actor then throw (.notYourDefense requestId actor entry.defender)
    else if entry.answered then throw (.defenseRecorded requestId)
    else if conceded then
      recordDefense requestId (fun entry => { entry with conceded := true }) none true
    else match thrownFaces with
      | none => throw .noFaces
      | some faces =>
        let outcome := buildOutcome faces (snapshot.rating actor skill) ⟨0, .active⟩ 0
        recordDefense requestId
          (fun entry => { entry with
            defenseTotal := some outcome.ladderTotal
            defenseSkill := sanitizePlayerText skill }) (some outcome) false

/-- Record a defense and resume the exchange once the ledger is full. -/
def handleDefend (skill : String) (thrownFaces : Option Dice) (conceded : Bool) :
    FateM FateDispatchResult := do
  let defense ← dispatchFateDefense actor requestId skill thrownFaces conceded
  if defense.ledgerFull then do
    let result ← resumeFateExchange
    pure
      { commitmentPending := false
        exchange := some (.conflict result)
        actionRoll := defense.defenseRoll }
  else pure { commitmentPending := false, exchange := none, actionRoll := defense.defenseRoll }

/-! ### The channel as a system -/

/-- A message on the Fate channel, with the PC the server attributes it to. -/
inductive FateEvent where
  | act (payload : FateActionPayload) (actor : String) (roundNumber : Nat)
      (thrownFaces : Option Dice)
  | defend (actor requestId skill : String) (thrownFaces : Option Dice) (conceded : Bool)

/-- What the server does on a message. -/
def FateEvent.dispatch : FateEvent → FateM FateDispatchResult
  | .act payload actor roundNumber thrownFaces =>
    dispatchFateAction payload actor roundNumber thrownFaces
  | .defend actor requestId skill thrownFaces conceded =>
    handleDefend actor requestId skill thrownFaces conceded

/-- The snapshot after a message; what was changed before a raise stays changed. -/
def step (snapshot : GameSnapshot) (event : FateEvent) : GameSnapshot :=
  (event.dispatch.exec snapshot).2

end

/-! ### The relations -/

/-- Who a seat is. -/
def EncounterActor.seat (actor : EncounterActor) : String × ActorSide := (actor.name, actor.side)

/-- Every sheet is still there, in the shape it had. -/
def SameSheets (s s' : GameSnapshot) : Prop :=
  ∀ ref sheet, s.sheets ref = some sheet → ∃ sheet', s'.sheets ref = some sheet' ∧ sheet.Shape sheet'

theorem SameSheets.refl (s : GameSnapshot) : SameSheets s s :=
  fun _ sheet h => ⟨sheet, h, FateSheet.Shape.refl sheet⟩

theorem SameSheets.trans {s s' s'' : GameSnapshot} (h : SameSheets s s') (h' : SameSheets s' s'') :
    SameSheets s s'' := by
  intro ref sheet hsheet
  obtain ⟨sheet', hsheet', hshape⟩ := h ref sheet hsheet
  obtain ⟨sheet'', hsheet'', hshape'⟩ := h' ref sheet' hsheet'
  exact ⟨sheet'', hsheet'', trans_of FateSheet.Shape hshape hshape'⟩

/-- The cast, the category and the seats are the same, and so are the shapes of the sheets. -/
structure SameTable (s s' : GameSnapshot) : Prop where
  cast : s'.cast = s.cast
  sheets : SameSheets s s'
  category : s'.encounter.category = s.encounter.category
  seats : s'.encounter.actors.map EncounterActor.seat = s.encounter.actors.map EncounterActor.seat

/-- The table is the same, and so are the sealed commits and the pending defenses. -/
structure SameLedgers (s s' : GameSnapshot) : Prop where
  table : SameTable s s'
  fateCommits : s'.encounter.fateCommits = s.encounter.fateCommits
  pendingDefenses : s'.encounter.pendingDefenses = s.encounter.pendingDefenses

/-- Nothing changed that the barrier, the ledgers or the outcome depend on. -/
structure Quiet (s s' : GameSnapshot) : Prop where
  cast : s'.cast = s.cast
  sheets : SameSheets s s'
  category : s'.encounter.category = s.encounter.category
  actors : s'.encounter.actors = s.encounter.actors
  fateCommits : s'.encounter.fateCommits = s.encounter.fateCommits
  pendingDefenses : s'.encounter.pendingDefenses = s.encounter.pendingDefenses
  contest : s'.encounter.contest = s.encounter.contest
  resolved : s'.encounter.resolved = s.encounter.resolved

instance : IsPreorder GameSnapshot SameTable where
  refl s := ⟨rfl, SameSheets.refl s, rfl, rfl⟩
  trans _ _ _ h h' := ⟨h'.cast.trans h.cast, h.sheets.trans h'.sheets,
    h'.category.trans h.category, h'.seats.trans h.seats⟩

instance : IsPreorder GameSnapshot SameLedgers where
  refl s := ⟨refl_of SameTable s, rfl, rfl⟩
  trans _ _ _ h h' := ⟨trans_of SameTable h.table h'.table,
    h'.fateCommits.trans h.fateCommits, h'.pendingDefenses.trans h.pendingDefenses⟩

instance : IsPreorder GameSnapshot Quiet where
  refl s := ⟨rfl, SameSheets.refl s, rfl, rfl, rfl, rfl, rfl, rfl⟩
  trans _ _ _ h h' := ⟨h'.cast.trans h.cast, h.sheets.trans h'.sheets,
    h'.category.trans h.category, h'.actors.trans h.actors, h'.fateCommits.trans h.fateCommits,
    h'.pendingDefenses.trans h.pendingDefenses, h'.contest.trans h.contest,
    h'.resolved.trans h.resolved⟩

theorem Quiet.sameLedgers {s s' : GameSnapshot} (h : Quiet s s') : SameLedgers s s' :=
  ⟨⟨h.cast, h.sheets, h.category, congrArg (List.map EncounterActor.seat) h.actors⟩,
    h.fateCommits, h.pendingDefenses⟩

theorem Quiet.sameTable {s s' : GameSnapshot} (h : Quiet s s') : SameTable s s' :=
  h.sameLedgers.table

variable {α : Type}

/-! ### Sheets and dice -/

/-- A sheet of the same shape can be put in place of another one. -/
theorem sheets_putFateSheet {s : GameSnapshot} {name : String} {sheet sheet' : FateSheet}
    (h : s.fateSheet name = some sheet) (hshape : sheet.Shape sheet') :
    SameSheets s (s.putFateSheet name sheet') := by
  obtain ⟨ref, href, hsheet⟩ := Option.bind_eq_some_iff.mp h
  intro ref' old hold
  simp only [GameSnapshot.putFateSheet, href]
  by_cases heq : ref' = ref
  · subst heq
    rw [hsheet] at hold
    cases hold
    exact ⟨sheet', by rw [Function.update_self], hshape⟩
  · exact ⟨old, by rw [Function.update_of_ne heq, hold], FateSheet.Shape.refl old⟩

/-- Putting a sheet back touches the sheets only. -/
theorem quiet_putFateSheet {s : GameSnapshot} {name : String} {sheet sheet' : FateSheet}
    (h : s.fateSheet name = some sheet) (hshape : sheet.Shape sheet') :
    Quiet s (s.putFateSheet name sheet') := by
  have hsheets := sheets_putFateSheet h hshape
  obtain ⟨ref, href, -⟩ := Option.bind_eq_some_iff.mp h
  have hput : s.putFateSheet name sheet' =
      { s with sheets := Function.update s.sheets ref (some sheet') } := by
    simp only [GameSnapshot.putFateSheet, href]
  rw [hput] at hsheets ⊢
  exact ⟨rfl, hsheets, rfl, rfl, rfl, rfl, rfl, rfl⟩

section OnSheet

variable {s : GameSnapshot} {name : String}

/-- A computation on a sheet that is not there raises. -/
theorem exec_onSheet_of_none (hsheet : s.fateSheet name = none) (absent : FateError)
    (m : SheetM α) : (onSheet name absent m).exec s = (.error absent, s) := by
  unfold onSheet
  rw [exec_onPart, hsheet]

/-- On one that is there, it leaves its sheet, also where it raises. -/
theorem exec_onSheet_of_some {sheet : FateSheet} (hsheet : s.fateSheet name = some sheet)
    (absent : FateError) (m : SheetM α) : (onSheet name absent m).exec s
      = ((m.exec sheet).1, s.putFateSheet name (m.exec sheet).2) := by
  unfold onSheet
  rw [exec_onPart, hsheet]

end OnSheet

/-- What is done on a sheet is quiet if it keeps the shape of sheets. -/
theorem quiet_onSheet (name : String) (absent : FateError) {m : SheetM α}
    (hm : Preserves FateSheet.Shape m) : Preserves Quiet (onSheet name absent m) :=
  preserves_onPart hm (fun _ _ _ hsheet hshape => quiet_putFateSheet hsheet hshape)

/-- Rolling an action is quiet. -/
theorem quiet_resolveAction (skillRating : Int) (opposition : Opposition) (invokeBonus : Int) :
    Preserves Quiet (resolveAction skillRating opposition invokeBonus) := by
  have hroll : Preserves Quiet roll4df :=
    preserves_get.bind (fun snapshot =>
      (preserves_modify (fun s => ⟨rfl, SameSheets.refl s, rfl, rfl, rfl, rfl, rfl, rfl⟩)).bind
        (fun _ => preserves_pure _))
  exact hroll.bind (fun _ => preserves_pure _)

/-! ### What resolving is made of -/

theorem quiet_logLine (line : FateExchangeLine) : Preserves Quiet (logLine line) :=
  preserves_modify (fun s => ⟨rfl, SameSheets.refl s, rfl, rfl, rfl, rfl, rfl, rfl⟩)

theorem quiet_addSituationAspect (aspect : Aspect) : Preserves Quiet (addSituationAspect aspect) :=
  preserves_modify (fun s => ⟨rfl, SameSheets.refl s, rfl, rfl, rfl, rfl, rfl, rfl⟩)

theorem seat_withdraw (actor : EncounterActor) :
    ({ actor with withdrawn := true } : EncounterActor).seat = actor.seat := rfl

/-- Withdrawing keeps all names and sides. -/
theorem sameLedgers_withdraw (name : String) :
    Preserves SameLedgers (modifyEncounter (·.withdraw name)) :=
  preserves_modify (fun s => ⟨⟨rfl, SameSheets.refl s, rfl,
    map_updateFirst seat_withdraw s.encounter.actors⟩, rfl, rfl⟩)

/-- Clearing a side changes how the encounter ended, and no more than that. -/
theorem maybeResolveSideCleared_cases (encounter : StructuredEncounter) :
    encounter.maybeResolveSideCleared = encounter ∨
      ∃ outcome, encounter.maybeResolveSideCleared = encounter.resolve outcome := by
  unfold StructuredEncounter.maybeResolveSideCleared
  dsimp only
  split_ifs
  · exact .inl rfl
  · exact .inr ⟨_, rfl⟩
  · exact .inr ⟨_, rfl⟩
  · exact .inl rfl

/-- What resolving an encounter does not touch, clearing a side does not touch either. -/
theorem field_maybeResolveSideCleared {β : Type} (f : StructuredEncounter → β)
    (hf : ∀ encounter outcome, f (encounter.resolve outcome) = f encounter)
    (encounter : StructuredEncounter) : f encounter.maybeResolveSideCleared = f encounter := by
  rcases maybeResolveSideCleared_cases encounter with heq | ⟨outcome, heq⟩
  · rw [heq]
  · rw [heq, hf]

theorem sameLedgers_maybeResolveSideCleared :
    Preserves SameLedgers (modifyEncounter StructuredEncounter.maybeResolveSideCleared) :=
  preserves_modify (fun s => ⟨⟨rfl, SameSheets.refl s,
    field_maybeResolveSideCleared StructuredEncounter.category (fun _ _ => rfl) s.encounter,
    congrArg (List.map EncounterActor.seat) (field_maybeResolveSideCleared
      StructuredEncounter.actors (fun _ _ => rfl) s.encounter)⟩,
    field_maybeResolveSideCleared StructuredEncounter.fateCommits (fun _ _ => rfl) s.encounter,
    field_maybeResolveSideCleared StructuredEncounter.pendingDefenses (fun _ _ => rfl) s.encounter⟩)

/-! ### Seating the opponents -/

/-- **Seating** preserves what a roll of the server and a sealed commit preserve. -/
theorem preserves_seatOpponentCommits {R : GameSnapshot → GameSnapshot → Prop}
    [IsPreorder GameSnapshot R] (hroll : ∀ s rolls, R s { s with rolls := rolls })
    (hseal : ∀ commit, Preserves R (sealFateCommit commit)) (mental : Bool) :
    Preserves R (seatOpponentCommits mental) := by
  refine preserves_get.bind (fun s => preserves_forM (fun opponent => ?_) _)
  have hdecide : Preserves R (decideOpponentAction opponent mental) := by
    refine preserves_get.bind (fun s' => ?_)
    cases s'.fateSheet opponent.name with
    | none => exact preserves_throw _
    | some sheet => exact preserves_pure _
  have hresolve : ∀ skillRating opposition invokeBonus,
      Preserves R (resolveAction skillRating opposition invokeBonus) := fun _ _ _ s => hroll s _
  refine hdecide.bind (fun decision => ?_)
  cases decision with
  | none => exact preserves_pure _
  | some decision =>
    exact preserves_get.bind (fun _ => (hresolve _ _ _).bind (fun _ => hseal _))

end

/-! ### Seats that can be hit -/

namespace GameSnapshot

variable (s : GameSnapshot)

/-- The creature a name resolves to can take a hit of this conflict. -/
def canAbsorb (name : String) : Bool :=
  (s.fateSheet name).any (fun sheet => sheet.Sound s.track)

/-- The name is that of a seat, and its creature can take a hit. -/
def canBeHit (name : String) : Bool :=
  (s.encounter.findActor name).isSome && s.canAbsorb name

/-- No two opponents share a name, and every player and opponent can take a hit. -/
structure WellSeated (s : GameSnapshot) : Prop where
  opponents : ((s.encounter.sideOf .opponent).map EncounterActor.name).Nodup
  sheets : ∀ actor ∈ s.encounter.actors, actor.side ≠ .neutral → s.canAbsorb actor.name = true

instance (s : GameSnapshot) : Decidable s.WellSeated :=
  decidable_of_iff (_ ∧ _) ⟨fun h => ⟨h.1, h.2⟩, fun h => ⟨h.opponents, h.sheets⟩⟩

/-- An attack names a seat whose creature can take a hit. -/
def Aimed (commit : FateSealedCommit) : Prop :=
  commit.action = .attack → ∃ target, commit.target = some target ∧ s.canBeHit target = true

end GameSnapshot

open GameSnapshot

/-- A target that can absorb has a sound sheet. -/
theorem exists_sound_of_canAbsorb {s : GameSnapshot} {name : String} (h : s.canAbsorb name = true) :
    ∃ sheet, s.fateSheet name = some sheet ∧ sheet.Sound s.track := by
  obtain ⟨sheet, hsheet, hsound⟩ := exists_of_any h
  exact ⟨sheet, hsheet, of_decide_eq_true hsound⟩

/-- A name finds an actor exactly if it is seated. -/
theorem isSome_findActor_iff (encounter : StructuredEncounter) (name : String) :
    (encounter.findActor name).isSome = true ↔
      name ∈ (encounter.actors.map EncounterActor.seat).map Prod.fst := by
  unfold StructuredEncounter.findActor
  simp [EncounterActor.seat]

/-! ### The table stays fit -/

variable {commit : FateSealedCommit}

section SameTable

variable {s s' : GameSnapshot} {name : String}

theorem SameTable.mental (h : SameTable s s') : s'.encounter.mental = s.encounter.mental := by
  unfold StructuredEncounter.mental
  rw [h.category]

/-- At the same table, who could absorb still can. -/
theorem SameTable.canAbsorb (h : SameTable s s') (hname : s.canAbsorb name = true) :
    s'.canAbsorb name = true := by
  obtain ⟨sheet, hsheet, hsound⟩ := exists_sound_of_canAbsorb hname
  obtain ⟨ref, href, hold⟩ := Option.bind_eq_some_iff.mp hsheet
  obtain ⟨sheet', hnew, hshape⟩ := h.sheets ref sheet hold
  have hsheet' : s'.fateSheet name = some sheet' := by
    unfold GameSnapshot.fateSheet
    rw [h.cast, href]
    exact hnew
  have htrack : s'.track = s.track := congrArg trackOf h.mental
  unfold GameSnapshot.canAbsorb
  rw [hsheet', htrack]
  exact decide_eq_true (hsound.of_shape hshape)

theorem SameTable.canBeHit (h : SameTable s s') (hname : s.canBeHit name = true) :
    s'.canBeHit name = true := by
  unfold GameSnapshot.canBeHit at hname ⊢
  rw [Bool.and_eq_true, isSome_findActor_iff] at hname ⊢
  rw [h.seats]
  exact ⟨hname.1, h.canAbsorb hname.2⟩

/-- At the same table, a commit is still aimed at somebody who can be hit. -/
theorem SameTable.aimed (h : SameTable s s') (hc : s.Aimed commit) : s'.Aimed commit := by
  intro hattack
  obtain ⟨target, htarget, hhit⟩ := hc hattack
  exact ⟨target, htarget, h.canBeHit hhit⟩

theorem names_sideOf (encounter : StructuredEncounter) (side : ActorSide) :
    (encounter.sideOf side).map EncounterActor.name =
      ((encounter.actors.map EncounterActor.seat).filter (·.2 = side)).map
        Prod.fst := by
  rw [List.filter_map, List.map_map]
  rfl

theorem SameTable.wellSeated (h : SameTable s s') (hs : s.WellSeated) : s'.WellSeated := by
  refine ⟨?_, fun actor hactor hside => ?_⟩
  · rw [names_sideOf, h.seats, ← names_sideOf]
    exact hs.opponents
  · have hseat : actor.seat ∈ s.encounter.actors.map EncounterActor.seat :=
      h.seats ▸ List.mem_map_of_mem hactor
    obtain ⟨old, hold, heq⟩ := List.mem_map.mp hseat
    obtain ⟨hname, hsame⟩ := Prod.mk.inj heq
    have hsound := hs.sheets old hold (hsame ▸ hside)
    rw [hname] at hsound
    exact h.canAbsorb hsound

end SameTable

/-! ### Resolving an action -/

variable (mental : Bool)

section Resolving

/- `s₀` is the snapshot when the walk begins; resolving leaves its table and its ledgers alone. -/
variable {s₀ : GameSnapshot}

theorem safe_logLine (line : FateExchangeLine) : Safe (SameLedgers s₀) (logLine line) :=
  fun s hs => trans_of SameLedgers hs (quiet_logLine line s).sameLedgers

theorem safe_addSituationAspect (aspect : Aspect) :
    Safe (SameLedgers s₀) (addSituationAspect aspect) :=
  fun s hs => trans_of SameLedgers hs (quiet_addSituationAspect aspect s).sameLedgers

theorem safe_takeOut (target : String) (line : FateExchangeLine) :
    Safe (SameLedgers s₀) (takeOut target line) := by
  have hwithdraw : Safe (SameLedgers s₀)
      (modifyEncounter (·.withdraw target)) :=
    fun s hs => trans_of SameLedgers hs (sameLedgers_withdraw target s)
  have hclear : Safe (SameLedgers s₀)
      (modifyEncounter StructuredEncounter.maybeResolveSideCleared) :=
    fun s hs => trans_of SameLedgers hs (sameLedgers_maybeResolveSideCleared s)
  exact hwithdraw.bind (fun _ => (safe_logLine line).bind (fun _ => hclear))

theorem safe_resolveAction (skillRating : Int) (opposition : Opposition) (invokeBonus : Int) :
    Safe (SameLedgers s₀) (resolveAction skillRating opposition invokeBonus) :=
  fun s hs => trans_of SameLedgers hs
    (quiet_resolveAction skillRating opposition invokeBonus s).sameLedgers

theorem safe_rollDefense (defender : String) (mental : Bool) :
    Safe (SameLedgers s₀) (rollDefense defender mental) :=
  safe_get_bind (fun _ _ => (safe_resolveAction _ _ _).bind (fun _ => safe_pure _))

theorem safe_oppositionTotal (commit : FateSealedCommit) :
    Safe (SameLedgers s₀) (oppositionTotal mental commit) := by
  unfold oppositionTotal
  cases commit.target with
  | none => exact safe_pure _
  | some target => exact safe_rollDefense target mental

variable {target : String}

/-- **A hit can be absorbed** by a target that can be hit. -/
theorem safe_absorb (hhit : s₀.canBeHit target = true) {shifts : Int} (hshifts : 0 < shifts)
    (absent : FateError) (source : String) : Safe (SameLedgers s₀) (onSheet target absent
      (absorbShifts (trackOf s₀.encounter.mental) shifts target source)) := by
  have hreturns : Meets (SameLedgers s₀)
      (onSheet target absent (absorbShifts (trackOf s₀.encounter.mental) shifts target source))
      (fun _ _ => True) (Never FateError GameSnapshot) := by
    refine meets_onPart (meets_absorbShifts hshifts target source) (fun s hs => ?_)
      (fun _ _ _ _ _ _ _ => trivial) (fun _ _ _ _ _ _ he => he)
    have hsound : s.canAbsorb target = true := (Bool.and_eq_true _ _ ▸ hs.table.canBeHit hhit).2
    obtain ⟨sheet, hsheet, htrack⟩ := exists_sound_of_canAbsorb hsound
    refine ⟨sheet, hsheet, ?_⟩
    rw [← hs.table.mental]
    exact htrack
  exact hreturns.safe (quiet_onSheet target absent (shape_absorbShifts _ _ _ _))
    (fun _ _ hs hquiet => trans_of SameLedgers hs hquiet.sameLedgers)

/-- Harm is dealt, and what the defender cannot absorb takes it out. -/
theorem safe_dealHarm (commit : FateSealedCommit) (hhit : s₀.canBeHit target = true)
    (skill : String) (defenseTotal : Int) {shifts : Int} (hshifts : 0 < shifts) :
    Safe (SameLedgers s₀)
      (dealHarm commit target s₀.encounter.mental skill defenseTotal shifts) := by
  refine (safe_absorb hhit hshifts _ _).bind (fun survived => safe_get_bind (fun s hs => ?_))
  refine Safe.ite (fun _ => (safe_logLine _).bind (fun _ => safe_pure _)) (fun _ => ?_)
  refine Safe.ite (fun hnone => ?_) (fun _ => (safe_takeOut target _).bind (fun _ => safe_pure _))
  -- the seat is still there
  have hseat := (Bool.and_eq_true _ _ ▸ hs.table.canBeHit hhit).1
  rw [Option.isNone_iff_eq_none] at hnone
  rw [hnone] at hseat
  simp at hseat

/-- An attack ties, fails or deals harm, and goes through. -/
theorem safe_landAttack (commit : FateSealedCommit) (hhit : s₀.canBeHit target = true)
    (skill : String) (defenseTotal : Int) :
    Safe (SameLedgers s₀) (landAttack commit target s₀.encounter.mental skill defenseTotal) := by
  refine Safe.ite (fun _ => ?_) (fun hne => Safe.ite (fun _ => ?_) (fun hnonneg => ?_))
  · exact (safe_addSituationAspect _).bind (fun _ =>
      (safe_logLine _).bind (fun _ => safe_pure _))
  · exact (safe_logLine _).bind (fun _ => safe_pure _)
  · exact safe_dealHarm commit hhit skill defenseTotal (by omega)

/-- An attack on a target goes through, with an answered defense or a rolled one. -/
theorem safe_resolveAttackOn {recorded : Option FatePendingDefense}
    (hrecorded : ∀ entry, recorded = some entry → entry.answered = true) (commit : FateSealedCommit)
    (hhit : s₀.canBeHit target = true) :
    Safe (SameLedgers s₀) (resolveAttackOn recorded s₀.encounter.mental commit target) := by
  cases recorded with
  | none =>
    exact (safe_rollDefense target _).bind (fun total => safe_landAttack commit hhit _ total)
  | some entry =>
    refine Safe.ite (fun _ => (safe_takeOut target _).bind (fun _ => safe_pure _))
      (fun hconceded => ?_)
    have hanswered := hrecorded entry rfl
    cases htotal : entry.defenseTotal with
    | none => simp [FatePendingDefense.answered, htotal, hconceded] at hanswered
    | some total => exact safe_landAttack commit hhit _ total

variable {recorded : String → Option FatePendingDefense}

/-- **An attack** goes through if its target can be hit. -/
theorem safe_resolveAttack
    (hrecorded : ∀ name entry, recorded name = some entry → entry.answered = true)
    (htarget : commit.target = some target) (hhit : s₀.canBeHit target = true) :
    Safe (SameLedgers s₀) (resolveAttack recorded s₀.encounter.mental commit) := by
  unfold resolveAttack
  rw [htarget]
  refine safe_get_bind (fun s hs => Safe.ite (fun hnone => ?_) (fun _ =>
    safe_resolveAttackOn (hrecorded target) commit hhit))
  -- the sheet is still there
  have hsound : s.canAbsorb target = true := (Bool.and_eq_true _ _ ▸ hs.table.canBeHit hhit).2
  obtain ⟨sheet, hsheet, -⟩ := exists_sound_of_canAbsorb hsound
  rw [hsheet] at hnone
  simp at hnone

theorem safe_resolveCreateAdvantage (commit : FateSealedCommit) :
    Safe (SameLedgers s₀) (resolveCreateAdvantage mental commit) := by
  refine (safe_oppositionTotal mental commit).bind (fun opposition => ?_)
  refine Safe.ite (fun _ => ?_) (fun _ => Safe.ite (fun _ => ?_) (fun _ => ?_))
  · exact (safe_addSituationAspect _).bind (fun _ =>
      (safe_logLine _).bind (fun _ => safe_pure _))
  · exact (safe_addSituationAspect _).bind (fun _ =>
      (safe_logLine _).bind (fun _ => safe_pure _))
  · exact (safe_logLine _).bind (fun _ => safe_pure _)

theorem safe_resolveOvercome (commit : FateSealedCommit) :
    Safe (SameLedgers s₀) (resolveOvercome mental commit) := by
  refine (safe_oppositionTotal mental commit).bind (fun opposition => ?_)
  refine Safe.ite (fun _ => ?_) (fun _ => Safe.ite (fun _ => ?_) (fun _ => ?_))
  all_goals exact (safe_logLine _).bind (fun _ => safe_pure _)

/-- **Resolving** an aimed commit never raises, and leaves the table and the ledgers alone. -/
theorem safe_resolveCommit
    (hrecorded : ∀ name entry, recorded name = some entry → entry.answered = true)
    (haimed : s₀.Aimed commit) :
    Safe (SameLedgers s₀) (resolveCommit recorded s₀.encounter.mental commit) := by
  unfold resolveCommit
  cases haction : commit.action with
  | attack =>
    obtain ⟨target, htarget, hhit⟩ := haimed haction
    exact safe_resolveAttack hrecorded htarget hhit
  | createAdvantage => exact safe_resolveCreateAdvantage _ commit
  | overcome => exact safe_resolveOvercome _ commit

/-- **A slot** goes through if all defenses are answered and all commits are aimed. -/
theorem safe_walkSlot (hrecorded : ∀ name entry, recorded name = some entry → entry.answered = true)
    {commits : String → Option FateSealedCommit}
    (hcommits : ∀ name commit, commits name = some commit → s₀.Aimed commit)
    (hints : List String) (name : String) :
    Safe (SameLedgers s₀) (walkSlot recorded commits s₀.encounter.mental hints name) := by
  refine safe_get_bind (fun s _ => ?_)
  cases hcommit : commits name with
  | none => exact safe_pure _
  | some commit =>
    exact Safe.ite (fun _ => (safe_resolveCommit hrecorded (hcommits name commit hcommit)).bind
      (fun _ => safe_pure _)) (fun _ => safe_pure _)

end Resolving

end Sidequest.Fate
