import Sidequest.Combat.Walk
import Sidequest.Lib.Run

namespace Sidequest.Combat

open Lib Effect
open Fate (ActorSide Cast CoreRef EncounterActor)

/-!
# The barrier of a sealed round

A throw that closes the barrier runs the round, and a yield does not look at the barrier.

* `Event.marksRound` — the seals, and the beginnings of rounds;
* `dispatchDiceThrow` — a throw: its shape is checked, and then it seals a Main Action; the throw
  that closes the barrier runs the round. Without an order of initiative it is applied at once;
* `Stuck` — everybody who can has sealed an action, and nobody will run the round;
* `Strands` — the yield of the one PC the barrier still waits on;
* `not_stuck_iff` — no throw gets a fight stuck, and of the yields exactly those that strand it.
-/

section

/-- A seal says that its round has still to run, and the beginning of a round that it has. -/
def Event.marksRound : Event → Option Bool
  | .commitSealed .. => some false
  | .roundCommitted .. => some true
  | _ => none

/-- Who sits where: the seats without their withdrawals. -/
def StructuredEncounter.roster (encounter : StructuredEncounter) : List (String × ActorSide) :=
  encounter.actors.map (fun actor => (actor.name, actor.side))

/-- What of a creature a slot leaves alone; an item may be gone. -/
structure CreatureCore.Kept (core core' : CreatureCore) : Prop where
  armorClass : core'.armorClass = core.armorClass
  level : core'.level = core.level
  stats : core'.stats = core.stats
  caster : core'.spellcasting.isSome = core.spellcasting.isSome
  items : core'.items ⊆ core.items

theorem CreatureCore.Kept.refl (core : CreatureCore) : core.Kept core :=
  ⟨rfl, rfl, rfl, rfl, List.Subset.refl _⟩

theorem CreatureCore.Kept.trans {a b c : CreatureCore} (h : a.Kept b) (h' : b.Kept c) : a.Kept c :=
  ⟨h'.armorClass.trans h.armorClass, h'.level.trans h.level, h'.stats.trans h.stats,
    h'.caster.trans h.caster, fun _ hitem => h.items (h'.items hitem)⟩

/-- The same sheet is a kept one. -/
theorem CreatureCore.SameSheet.kept {core core' : CreatureCore} (h : core.SameSheet core') :
    core.Kept core' := ⟨h.armorClass, h.level, h.stats, h.caster, h.items ▸ List.Subset.refl _⟩

/-- The cast, what of it is kept, the roster, the order of initiative and the ledger have stayed,
    and no round has begun. -/
structure Played (s s' : GameSnapshot) : Prop where
  cast : s'.cast = s.cast
  kept : ∀ ref, (s.cores ref).Kept (s'.cores ref)
  roster : s'.encounter.roster = s.encounter.roster
  initiative : s'.encounter.initiative = s.encounter.initiative
  wnCommits : s'.encounter.wnCommits = s.encounter.wnCommits
  events : ∃ new, s'.events = s.events ++ new ∧ ∀ event ∈ new, event.marksRound = none

theorem Played.refl (s : GameSnapshot) : Played s s :=
  ⟨rfl, fun _ => .refl _, rfl, rfl, rfl, [], (List.append_nil _).symm, by simp⟩

variable {s' s : GameSnapshot}

theorem Played.trans {s'' : GameSnapshot} (h : Played s s') (h' : Played s' s'') :
    Played s s'' := by
  obtain ⟨new, hnew, hmarks⟩ := h.events
  obtain ⟨new', hnew', hmarks'⟩ := h'.events
  refine ⟨h'.cast.trans h.cast, fun ref => (h.kept ref).trans (h'.kept ref),
    h'.roster.trans h.roster, h'.initiative.trans h.initiative, h'.wnCommits.trans h.wnCommits, new ++ new', ?_,
    fun event hevent => ?_⟩
  · rw [hnew', hnew, List.append_assoc]
  · rcases List.mem_append.mp hevent with hevent | hevent
    · exact hmarks event hevent
    · exact hmarks' event hevent

instance : IsPreorder GameSnapshot Played where
  refl := Played.refl
  trans _ _ _ := Played.trans

/-- The event neither seals nor begins a round. -/
def Event.Unmarked (event : Event) : Prop := event.marksRound = none

/-- What stays within events that mark no round is play. -/
theorem Within.played (h : Within Event.Unmarked s s') : Played s s' :=
  ⟨h.cast, fun ref => (h.sheets ref).kept, congrArg (List.map _) h.board.actors, h.board.initiative, h.board.wnCommits, h.events⟩

/-- A step that leaves the creatures and the board alone. -/
theorem Played.of_cores (hcast : s'.cast = s.cast) (hcores : s'.cores = s.cores)
    (hroster : s'.encounter.roster = s.encounter.roster)
    (hinitiative : s'.encounter.initiative = s.encounter.initiative)
    (hcommits : s'.encounter.wnCommits = s.encounter.wnCommits)
    (hevents : ∃ new, s'.events = s.events ++ new ∧ ∀ event ∈ new, event.marksRound = none) :
    Played s s' := by
  refine ⟨hcast, fun ref => ?_, hroster, hinitiative, hcommits, hevents⟩
  rw [hcores]
  exact .refl _

theorem played_publish (s : GameSnapshot) {event : Event} (h : event.marksRound = none) :
    Played s (s.publish event) := .of_cores rfl rfl rfl rfl rfl ⟨[event], rfl, by simpa using h⟩

theorem Event.unmarked_of_skips {event : Event} (h : event.skips = true) : event.Unmarked := by
  cases event <;> first | rfl | simp [Event.skips] at h

theorem Idle.played (h : Idle s s') : Played s s' := by
  obtain ⟨new, hnew, hskips⟩ := h.events
  have hevents : ∀ event ∈ new, event.marksRound = none :=
    fun event hevent => Event.unmarked_of_skips (hskips event hevent)
  refine .of_cores ?_ ?_ ?_ ?_ ?_ ⟨new, hnew, hevents⟩
  · rw [h.same]
  · rw [h.same]
  · rw [h.same]
    rfl
  · rw [h.same]
  · rw [h.same]

theorem Event.unmarked_of_clerical {event : Event} (h : event.clerical = true) :
    event.Unmarked := by
  cases event <;> first | rfl | simp [Event.clerical] at h

variable (rules : Rules) (target : CoreRef)

theorem unmarked_hpPatched (delta current maximum : Int) (source : String) :
    (Event.hpPatched target delta current maximum source).Unmarked := rfl

theorem unmarked_statusAdded (status : String) : (Event.statusAdded target status).Unmarked := rfl

theorem unmarked_mortalInjuryDeclared (superseded : Bool) :
    (Event.mortalInjuryDeclared target superseded).Unmarked := rfl

/-- **A committed beat** is play: it marks no round. -/
theorem played_applyCommittedPlayerBeat (name : String) (actor : EncounterActor)
    (commitment : Commitment) :
    Preserves Played (applyCommittedPlayerBeat rules name actor commitment) := by
  have hcarry : Preserves Played (carryOutBeat rules name actor commitment) :=
    (within_carryOutBeat (fun _ => Event.unmarked_of_clerical) unmarked_mortalInjuryDeclared
      unmarked_hpPatched rules name actor commitment).mono (fun _ _ => Within.played)
  refine hcarry.bind (fun removed => ?_)
  refine Preserves.bind (preserves_modify (fun s => played_publish s rfl)) (fun _ => ?_)
  exact preserves_get.bind (fun _ => preserves_pure _)

theorem played_emitPlayerBeatResolutionClose (application : PlayerBeatApplication)
    (source : String) : Preserves Played (emitPlayerBeatResolutionClose application source) :=
  (within_emitPlayerBeatResolutionClose (fun _ => Event.unmarked_of_clerical) application
    source).mono (fun _ _ => Within.played)

/-- So is all that a committed beat brings. -/
theorem played_resolveCommittedBeat (token : String) (actor : EncounterActor)
    (commit : WnSealedCommit) :
    Preserves Played (resolveCommittedBeat rules token actor commit) := by
  unfold resolveCommittedBeat
  split
  · exact preserves_throw _
  · have htell : ∀ application : PlayerBeatApplication,
        Preserves Played (tellRefusal token application.mutationRefusal) :=
      fun application => (within_tellRefusal token _).mono (fun _ _ => Within.played)
    exact (played_applyCommittedPlayerBeat rules token actor _).bind (fun application =>
      (htell application).bind (fun _ => played_emitPlayerBeatResolutionClose application _))

theorem Drunk.played {target : CoreRef} (h : Drunk target s s') : Played s s' := by
  obtain ⟨new, hnew, hpatches⟩ := h.events
  refine ⟨h.cast, fun ref => ?_, by rw [h.encounter], by rw [h.encounter], by rw [h.encounter],
    new, hnew, fun event hevent => ?_⟩
  · by_cases href : ref = target
    · rw [href]
      exact h.sheet.kept
    · rw [h.others ref href]
      exact .refl _
  · obtain ⟨_, _, _, _, rfl⟩ := hpatches event hevent
    rfl

/-- **The use of an item** is play. -/
theorem played_applyItemUse (name : String) (target : CoreRef) (index : Nat) :
    Preserves Played (applyItemUse name target index) := by
  refine preserves_get.bind (fun s => ?_)
  refine ((drunk_applyConsumableHeal target _).mono (fun _ _ => Drunk.played)).bind
    (fun healed => preserves_modify (fun t => ?_))
  -- the item leaves the inventory, which is all that changes of the creature
  have hcores : ∀ ref, ((t.consumeItem name target index
      ((s.cores target).items[index]?.getD {}) healed).cores ref) =
      if ref = target then { t.cores target with items := (t.cores target).items.eraseIdx index }
      else t.cores ref := by
    intro ref
    by_cases href : ref = target
    · subst href
      simp [GameSnapshot.consumeItem, GameSnapshot.hint, GameSnapshot.modifyEncounter,
        GameSnapshot.publish, GameSnapshot.modifyCore]
    · simp [GameSnapshot.consumeItem, GameSnapshot.hint, GameSnapshot.modifyEncounter,
        GameSnapshot.publish, GameSnapshot.modifyCore, href]
  refine ⟨rfl, fun ref => ?_, rfl, rfl, rfl, _, rfl, by simp [Event.marksRound]⟩
  rw [hcores ref]
  split_ifs with href
  · rw [href]
    exact ⟨rfl, rfl, rfl, rfl, fun _ hitem => List.mem_of_mem_eraseIdx hitem⟩
  · exact .refl _

/-- **A reprisal** is play. -/
theorem played_reprisal (playerName attacker : String) (defenderCommit : Option WnSealedCommit)
    (source : String) :
    Preserves Played (resolveOpponentReprisal rules playerName attacker defenderCommit source) :=
  (within_resolveOpponentReprisal (fun _ => Event.unmarked_of_clerical)
    unmarked_mortalInjuryDeclared unmarked_hpPatched unmarked_statusAdded rules _ _ _ _).mono
    (fun _ _ => Within.played)

/-- What a player does beside attacks is play. -/
theorem played_resolveNonoffensive (token : String) (commit : WnSealedCommit) :
    Preserves Played (resolveNonoffensive rules token commit) := by
  have hattacks : Preserves Played (opportunityAttacks rules token commit) :=
    (within_opportunityAttacks (fun _ => Event.unmarked_of_clerical)
      unmarked_mortalInjuryDeclared unmarked_hpPatched unmarked_statusAdded rules token commit).mono
      (fun _ _ => Within.played)
  refine hattacks.bind (fun _ => Preserves.bind (preserves_modify (fun s => ?_)) (fun _ =>
    preserves_modify (fun s => .of_cores rfl rfl rfl rfl rfl ⟨_, rfl, by simp [Event.marksRound]⟩)))
  split_ifs
  · -- a withdrawal leaves the name and the side of its seat
    refine .of_cores rfl rfl ?_ rfl rfl ⟨[], (List.append_nil _).symm, by simp⟩
    show (updateFirst _ (fun actor : EncounterActor => { actor with withdrawn := true })
      s.encounter.actors).map (fun actor => (actor.name, actor.side)) = _
    apply map_updateFirst
    intro actor
    rfl
  · exact .refl s

/-- **A slot** neither seals nor begins a round, whether it returns or raises. -/
theorem played_takeSlot (commits : String → Option WnSealedCommit) (entry : InitiativeEntry) :
    Preserves Played (takeSlot rules commits entry) := by
  refine preserves_get.bind (fun s => ?_)
  by_cases hacts : (s.slotAction commits entry.tokenId).acts = true
  · cases haction : s.slotAction commits entry.tokenId with
    | opponentAttack target => exact played_reprisal rules _ _ _ _
    | useItem commit =>
      refine preserves_get.bind (fun s => (preserves_ofExcept _).bind (fun found => ?_))
      exact played_applyItemUse _ _ _
    | nonoffensive commit => exact played_resolveNonoffensive rules _ commit
    | applyBeat commit actor => exact played_resolveCommittedBeat rules _ actor commit
    | _ =>
      rw [haction] at hacts
      simp [SlotAction.acts] at hacts
  · intro t
    obtain ⟨t', hexec, hidle⟩ :=
      idle_perform rules commits entry.tokenId (Bool.eq_false_iff.mpr hacts) t
    rw [hexec]
    exact hidle.played

end

section

/-! ### Throws -/

/-- A throw, with the beat that was selected. `check` is what resolving its dice against the
    target comes to: a tier, or an error. -/
structure DiceThrowPayload where
  (characterName beatId : String)
  check : Except DispatchError RollOutcome
  spellId : Option String := none
  mutationId : Option String := none

variable (s : GameSnapshot) (rules : Rules) (payload : DiceThrowPayload)

namespace Rules

/-- The shape of a cast: a spell on a cast and on no other beat, and one the catalog has. -/
def checkSpell : Except DispatchError PUnit :=
  if rules.isWwnCast payload.beatId then
    match payload.spellId, rules.spellCatalog with
    | none, _ => throw .castWithoutSpellId
    | some _, none => throw .noSpellCatalog
    | some spellId, some catalog =>
      if (catalog spellId).isSome then pure ⟨⟩ else throw (.unknownSpell spellId)
  else match payload.spellId with
    | some spellId => throw (.spellIdOnOtherBeat spellId)
    | none => pure ⟨⟩

/-- The shape of a mutation: an id on a mutation beat and on no other. What is returned is an id
    that the catalog does not have. -/
def checkMutation (beat : BeatDef) (payload : DiceThrowPayload) :
    Except DispatchError (Option String) :=
  if rules.isAwnMutationBeat beat then
    match payload.mutationId, rules.mutationCatalog with
    | none, _ => throw .mutationWithoutId
    | some _, none => throw .noMutationCatalog
    | some mutationId, some catalog =>
      pure (if catalog mutationId then none else some mutationId)
  else match payload.mutationId with
    | some mutationId => throw (.mutationIdOnOtherBeat mutationId)
    | none => pure none

/-- The beat of a throw and an unknown mutation it names, or what is wrong with its shape. -/
def checkThrow : Except DispatchError (BeatDef × Option String) :=
  match rules.findBeat payload.beatId with
  | none => throw (.unknownBeat payload.beatId)
  | some beat => do
    rules.checkSpell payload
    let unknown ← rules.checkMutation beat payload
    pure (beat, unknown)

end Rules

variable (name : String)

/-- The seat that acts for a character: its own, or the first on the player side. -/
def GameSnapshot.actingSeat : Except DispatchError EncounterActor :=
  match (s.encounter.findActor name).or
      (s.encounter.actors.find? (fun actor => actor.side = .player)) with
  | some actor => pure actor
  | none => throw (.noPlayerActor name)

/-- Run the round, if the barrier is closed. -/
def runClosedRound : CombatM PUnit := do
  let s ← get
  if s.wnBarrierClosed then do
    let _ ← runWnRound rules
    pure ⟨⟩
  else pure ⟨⟩

/-- Seal a Main Action, and run the round if that closed the barrier. -/
def sealAndRun (actor : EncounterActor) (beatId : String) (outcome : RollOutcome)
    (spellId mutationId : Option String) : CombatM PUnit := do
  sealWnCommit actor beatId outcome spellId mutationId
  runClosedRound rules

/-- The first opponent answers a throw that was applied at once. -/
def opponentAnswers : CombatM PUnit := do
  let s ← get
  match s.encounter.oppositeSideFirstActor .player with
  | none => pure ⟨⟩
  | some attacker =>
    if s.encounter.resolved then pure ⟨⟩
    else resolveOpponentReprisal rules name attacker none "opponent_reprisal"

/-- A throw that uses an item. Nothing is rolled. -/
def dispatchItemUse : CombatM PUnit := do
  let s ← get
  let (target, index) ← ofExcept (s.resolveItemUse payload.characterName payload.beatId)
  let actor ← ofExcept (s.actingSeat payload.characterName)
  if s.encounter.initiative ≠ [] then
    sealAndRun rules actor payload.beatId .success none none
  else do
    applyItemUse payload.characterName target index
    opponentAnswers rules payload.characterName

/-- Apply a throw at once. -/
def applyAtOnce (actor : EncounterActor) (beat : BeatDef) (outcome : RollOutcome) :
    CombatM PUnit := do
  let application ← applyCommittedPlayerBeat rules payload.characterName actor
    ⟨beat, outcome, payload.spellId, payload.mutationId⟩
  opponentAnswers rules payload.characterName
  emitPlayerBeatResolutionClose application "dice_throw_beat"

/-- A mutation that the catalog does not have is refused before anything is sealed. -/
def GameSnapshot.refuseUnknownMutation (mutationId : String) : GameSnapshot :=
  (s.publish (.mutationRefused name mutationId "unknown_mutation")).hint
    (.mutationRefused name mutationId "unknown_mutation")

/-- A throw whose beat is known. A `wwn` fight resolves nothing without an order of initiative. -/
def dispatchBeat (beat : BeatDef) : CombatM PUnit := do
  let s ← get
  let outcome ← ofExcept payload.check
  let actor ← ofExcept (s.actingSeat payload.characterName)
  if s.encounter.initiative ≠ [] then
    sealAndRun rules actor payload.beatId outcome payload.spellId payload.mutationId
  else if rules.slug = .wwn then throw .noInitiative
  else applyAtOnce rules payload actor beat outcome

/-- **A payload.** -/
def dispatchDiceThrow : CombatM PUnit := do
  let s ← get
  if s.encounter.resolved then throw .noActiveEncounter
  else if isItemUseBeat payload.beatId then dispatchItemUse rules payload
  else do
    let (beat, unknown) ← ofExcept (rules.checkThrow payload)
    match unknown with
    | some mutationId => modify (·.refuseUnknownMutation payload.characterName mutationId)
    | none => dispatchBeat rules payload beat

/-! ### Yields -/

namespace GameSnapshot

/-- The seats on the player side that somebody sits at; of a table without a seat map all of
    them. -/
def seatedPlayerActors : List EncounterActor :=
  (s.encounter.actors.filter (fun actor => actor.side = .player)).filter
    (fun actor => s.playerSeats = [] || actor.name ∈ s.playerSeats)

/-- The player's seat withdraws. -/
def withdrawPlayer : GameSnapshot :=
  s.modifyEncounter (fun encounter => { encounter with
    actors := updateFirst (fun actor => actor.side = .player && actor.name = name)
      (fun actor => { actor with withdrawn := true }) encounter.actors })

/-- The statuses a creature took in the encounter. -/
def statusesTaken (ref : CoreRef) : Nat :=
  (s.cores ref).statuses.countP (fun status =>
    status.createdInEncounter = some s.encounter.encounterType)

/-- Refund a yielder: 1 HP, and 1 for each status it took. -/
def refund : GameSnapshot :=
  match s.cast.characters.findIdx? (fun character => character = name) with
  | none => s
  | some i => s.modifyCore (.character i) (fun core =>
      { core with hp := core.hp.applyDelta (1 + s.statusesTaken (.character i)) })

/-- The names of those who have withdrawn on the player side. -/
def yieldedNames : List String :=
  (s.encounter.actors.filter (fun actor => actor.side = .player && actor.withdrawn)).map
    EncounterActor.name

/-- The fight ends with the yield of the last PC. -/
def endByYield : GameSnapshot :=
  ((s.yieldedNames.foldl refund s).modifyEncounter (·.resolve "yielded")).publish
    (.yieldResolved s.yieldedNames)

/-- Withdraw, and end the fight if no seated PC is left in it. -/
def yieldSeat : GameSnapshot :=
  let s := (s.publish (.yieldReceived name)).withdrawPlayer name
  if s.seatedPlayerActors.all EncounterActor.withdrawn then s.endByYield else s

end GameSnapshot

/-- **A yield.** To yield twice changes nothing. -/
def handleYield : CombatM PUnit := do
  let s ← get
  if s.encounter.resolved then throw .yieldWithoutEncounter
  else match s.encounter.findActorForPlayer name with
  | none => throw (.yieldWithoutActor name)
  | some actor => if actor.withdrawn then pure ⟨⟩ else set (s.yieldSeat name)

end

/-! ### A round that nobody runs -/

/-- A round has begun since the last seal. -/
def roundRun (events : List Event) : Bool :=
  events.foldl (fun begun event => event.marksRound.getD begun) false

/-- Events that mark no round do not change which round was run. -/
theorem roundRun_append {new : List Event} (events : List Event)
    (h : ∀ event ∈ new, event.marksRound = none) : roundRun (events ++ new) = roundRun events := by
  unfold roundRun
  rw [List.foldl_append]
  induction new using List.reverseRecOn with
  | nil => rfl
  | append_singleton new event ih =>
    have hevent : event.marksRound = none := h event (by simp)
    rw [List.foldl_append, ih (fun e he => h e (List.mem_append_left _ he))]
    simp [hevent]

/-- A commit is waiting for a round that has not been run. -/
def GameSnapshot.awaitsRound (s : GameSnapshot) : Bool :=
  s.encounter.wnCommits ≠ [] && !roundRun s.events

/-- Every live PC that has not withdrawn has sealed an action, a commit is waiting, and its round
    has not been run. -/
structure Stuck (s : GameSnapshot) : Prop where
  unresolved : s.encounter.resolved = false
  closed : s.wnBarrierClosed = true
  awaits : s.awaitsRound = true

/-- The yield of the only PC the barrier waits on, while a commit is waiting and another seated PC
    is still in the fight. -/
structure Strands (s : GameSnapshot) (name : String) : Prop where
  unresolved : s.encounter.resolved = false
  awaits : s.awaitsRound = true
  last : s.wnWaitingActors = [name]
  seated : (s.encounter.findActorForPlayer name).any (fun actor => !actor.withdrawn) = true
  other : ∃ actor ∈ s.seatedPlayerActors, actor.withdrawn = false ∧ actor.name ≠ name

variable {s : GameSnapshot}

theorem Played.roundRun {s' : GameSnapshot} (h : Played s s') :
    roundRun s'.events = roundRun s.events := by
  obtain ⟨new, hnew, hmarks⟩ := h.events
  rw [hnew]
  exact roundRun_append s.events hmarks

/-- A round that began is not waited for, wherever it ends. -/
theorem roundRun_of_raise {rules : Rules} {s' : GameSnapshot} {e : DispatchError}
    (hexec : (runWnRound rules).exec s = (.error e, s')) :
    roundRun s'.events = true ∧ s'.encounter.initiative = s.encounter.initiative := by
  have hwalk := walk_of_exec_runWnRound_error rules hexec
  have hplayed : Played s.announceRound s' :=
    (preserves_forM (played_takeSlot rules s.commitOf) s.roundOrder).of_exec hwalk
  refine ⟨?_, hplayed.initiative⟩
  rw [hplayed.roundRun]
  show roundRun (s.events ++ [_] ++ [_]) = true
  simp [roundRun, List.foldl_append, Event.marksRound]

/-! ### What throws keep -/

/-- What every throw keeps: the fight is not stuck, and without an order of initiative nothing is
    sealed. -/
structure Flows (s : GameSnapshot) : Prop where
  notStuck : ¬ Stuck s
  unsealed : s.encounter.initiative = [] → s.encounter.wnCommits = []

/-- With an empty ledger nobody waits for a round. -/
theorem flows_of_empty (h : s.encounter.wnCommits = []) : Flows s := by
  refine ⟨fun hstuck => ?_, fun _ => h⟩
  have hawaits := hstuck.awaits
  simp [GameSnapshot.awaitsRound, h] at hawaits

/-- Without an order of initiative nothing is sealed, and play on does not change that. -/
theorem Flows.of_played {s' : GameSnapshot} (hs : Flows s) (hinit : s.encounter.initiative = [])
    (h : Played s s') : Flows s' := flows_of_empty (h.wnCommits.trans (hs.unsealed hinit))

variable (rules : Rules)

/-- A closed barrier runs the round; a round that returns empties the ledger, and one that raises
    has begun. -/
theorem flows_runClosedRound (hinit : s.encounter.initiative ≠ []) :
    Flows ((runClosedRound rules).exec s).2 := by
  unfold runClosedRound
  rw [exec_get_bind]
  by_cases hclosed : s.wnBarrierClosed = true
  · rw [if_pos hclosed, exec_bind]
    rcases hexec : (runWnRound rules).exec s with ⟨e | order, s'⟩
    · obtain ⟨hrun, hsame⟩ := roundRun_of_raise hexec
      refine ⟨fun hstuck => ?_, fun hnone => absurd (hsame.symm.trans hnone) hinit⟩
      have hawaits := hstuck.awaits
      simp [GameSnapshot.awaitsRound, hrun] at hawaits
    · obtain ⟨t, -, rfl⟩ := walk_of_exec_runWnRound rules hexec
      exact flows_of_empty rfl
  · rw [if_neg hclosed]
    exact ⟨fun hstuck => hclosed hstuck.closed, fun hnone => absurd hnone hinit⟩

/-- A sealed commit keeps the table flowing, whether it runs the round or waits. -/
theorem flows_sealAndRun (actor : EncounterActor) (beatId : String) (outcome : RollOutcome)
    (spellId mutationId : Option String) (hs : Flows s) (hinit : s.encounter.initiative ≠ []) :
    Flows ((sealAndRun rules actor beatId outcome spellId mutationId).exec s).2 := by
  unfold sealAndRun sealWnCommit
  rw [exec_bind, exec_get_bind]
  by_cases hcommitted : s.committed actor.name = true
  · rw [if_pos hcommitted]
    exact hs
  · rw [if_neg hcommitted]
    exact flows_runClosedRound rules hinit

theorem played_opponentAnswers (name : String) : Preserves Played (opponentAnswers rules name) := by
  refine preserves_get.bind (fun s => ?_)
  split
  · exact preserves_pure _
  · exact (preserves_pure _).ite (played_reprisal rules _ _ _ _)

variable (payload : DiceThrowPayload)

theorem played_applyAtOnce (actor : EncounterActor) (beat : BeatDef) (outcome : RollOutcome) :
    Preserves Played (applyAtOnce rules payload actor beat outcome) :=
  (played_applyCommittedPlayerBeat rules _ actor _).bind (fun application =>
    (played_opponentAnswers rules _).bind (fun _ =>
      played_emitPlayerBeatResolutionClose application _))

/-- The dispatch of an item keeps it flowing. -/
theorem flows_dispatchItemUse (hs : Flows s) :
    Flows ((dispatchItemUse rules payload).exec s).2 := by
  unfold dispatchItemUse
  rw [exec_get_bind]
  refine exec_ofExcept_bind_of hs (fun found _ => ?_)
  obtain ⟨target, index⟩ := found
  refine exec_ofExcept_bind_of hs (fun actor _ => ?_)
  by_cases hinit : s.encounter.initiative ≠ []
  · rw [if_pos hinit]
    exact flows_sealAndRun rules actor payload.beatId .success none none hs hinit
  · rw [if_neg hinit]
    have hplayed : Played s _ :=
      ((played_applyItemUse payload.characterName target index).bind
        (fun _ => played_opponentAnswers rules payload.characterName)) s
    exact hs.of_played (not_not.mp hinit) hplayed

/-- The dispatch of a beat keeps it flowing. -/
theorem flows_dispatchBeat (beat : BeatDef) (hs : Flows s) :
    Flows ((dispatchBeat rules payload beat).exec s).2 := by
  unfold dispatchBeat
  rw [exec_get_bind]
  refine exec_ofExcept_bind_of hs (fun outcome _ => ?_)
  refine exec_ofExcept_bind_of hs (fun actor _ => ?_)
  by_cases hinit : s.encounter.initiative ≠ []
  · rw [if_pos hinit]
    exact flows_sealAndRun rules actor payload.beatId outcome _ _ hs hinit
  · split_ifs
    · exact hs
    · exact hs.of_played (not_not.mp hinit) (played_applyAtOnce rules payload actor beat outcome s)

/-- A refusal is an event and a hint. -/
theorem flows_refuseUnknownMutation (hs : Flows s) (name mutationId : String) :
    Flows (s.refuseUnknownMutation name mutationId) := by
  refine ⟨fun hstuck => hs.notStuck ⟨hstuck.unresolved, hstuck.closed, ?_⟩, hs.unsealed⟩
  have hawaits := hstuck.awaits
  have hsame : roundRun (s.refuseUnknownMutation name mutationId).events = roundRun s.events :=
    (played_publish s rfl).roundRun
  show (decide (s.encounter.wnCommits ≠ []) && !roundRun s.events) = true
  rw [← hsame]
  exact hawaits

/-- **No throw gets a fight stuck**, whether it is refused, applied, sealed or runs the round. -/
theorem flows_dispatchDiceThrow (hs : Flows s) :
    Flows ((dispatchDiceThrow rules payload).exec s).2 := by
  unfold dispatchDiceThrow
  rw [exec_get_bind]
  split_ifs
  · exact hs
  · exact flows_dispatchItemUse rules payload hs
  · refine exec_ofExcept_bind_of hs (fun checked _ => ?_)
    obtain ⟨beat, unknown⟩ := checked
    cases unknown with
    | some mutationId => exact flows_refuseUnknownMutation hs payload.characterName mutationId
    | none => exact flows_dispatchBeat rules payload beat hs

/-! ### What yields keep -/

theorem encounter_refund (s : GameSnapshot) (name : String) :
    (s.refund name).encounter = s.encounter := by
  unfold GameSnapshot.refund
  split
  · rfl
  · rfl

/-- The refunds change no more than hit points. -/
theorem encounter_refunds (names : List String) (s : GameSnapshot) :
    (names.foldl GameSnapshot.refund s).encounter = s.encounter := by
  induction names generalizing s with
  | nil => rfl
  | cons name names ih => exact (ih (s.refund name)).trans (encounter_refund s name)

/-- The snapshot after the seat of the name withdrew. -/
def GameSnapshot.withYield (s : GameSnapshot) (name : String) : GameSnapshot :=
  (s.publish (.yieldReceived name)).withdrawPlayer name

/-- A yield does not look at the round. -/
theorem awaitsRound_withYield (s : GameSnapshot) (name : String) :
    (s.withYield name).awaitsRound = s.awaitsRound := by
  have hsame : roundRun (s.withYield name).events = roundRun s.events :=
    (played_publish s rfl).roundRun
  show (decide (s.encounter.wnCommits ≠ []) && !roundRun (s.withYield name).events) = _
  rw [hsame]
  rfl

variable {actor : EncounterActor} {name : String}

/-- A yield withdraws the first actor of the name. -/
theorem exists_split_withYield (h : s.encounter.findActorForPlayer name = some actor) :
    ∃ before after, s.encounter.actors = before ++ actor :: after ∧
      (s.withYield name).encounter.actors = before ++ { actor with withdrawn := true } :: after :=
  exists_split_updateFirst (fun actor : EncounterActor => { actor with withdrawn := true }) h

theorem exists_waiting_split (h : s.encounter.findActorForPlayer name = some actor) :
    ∃ before after, s.encounter.actors = before ++ actor :: after ∧
      (s.withYield name).encounter.actors = before ++ { actor with withdrawn := true } :: after ∧
      s.wnWaitingActors = (before.filter s.waitsOn).map EncounterActor.name ++
        ((if s.waitsOn actor then [actor.name] else []) ++
          (after.filter s.waitsOn).map EncounterActor.name) ∧
      (s.withYield name).wnWaitingActors = (before.filter s.waitsOn).map EncounterActor.name ++
        (after.filter s.waitsOn).map EncounterActor.name := by
  obtain ⟨before, after, hactors, hyield⟩ := exists_split_withYield h
  refine ⟨before, after, hactors, hyield, ?_, ?_⟩
  · show (s.encounter.actors.filter s.waitsOn).map EncounterActor.name = _
    rw [hactors, List.filter_append, List.filter_cons, List.map_append]
    split_ifs <;> rfl
  · -- nobody waits for a seat that has withdrawn
    have hwithdrawn : s.waitsOn { actor with withdrawn := true } = false := by
      simp [GameSnapshot.waitsOn]
    show ((s.withYield name).encounter.actors.filter s.waitsOn).map EncounterActor.name = _
    rw [hyield, List.filter_append, List.filter_cons_of_neg (by simp [hwithdrawn]), List.map_append]

/-- Whether the barrier waits on a seat that is in the fight is a matter of its name. -/
theorem waitsOn_of_name {other : EncounterActor} (h : s.waitsOn other = true)
    (hside : actor.side = .player) (hin : actor.withdrawn = false) (hname : actor.name = other.name) :
    s.waitsOn actor = true := by
  simp only [GameSnapshot.waitsOn, Bool.and_eq_true] at h ⊢
  rw [hname]
  simp [hside, hin, h.1.1.2, h.1.2, h.2]

/-- The players with a seat; all of them, if there are no seats. -/
theorem mem_seatedPlayerActors :
    actor ∈ s.seatedPlayerActors ↔ actor ∈ s.encounter.actors ∧ actor.side = .player ∧
      (s.playerSeats = [] ∨ actor.name ∈ s.playerSeats) := by
  simp only [GameSnapshot.seatedPlayerActors, List.mem_filter, Bool.or_eq_true, decide_eq_true_eq]
  tauto

theorem findActorForPlayer_some (h : s.encounter.findActorForPlayer name = some actor) :
    actor.side = .player ∧ actor.name = name := by
  have hfound := List.find?_some h
  simpa using hfound

/-- **A yield that leaves the fight open gets it stuck exactly if it strands it.** -/
theorem stuck_withYield_iff (hs : ¬ Stuck s)
    (hactor : s.encounter.findActorForPlayer name = some actor) (hin : actor.withdrawn = false)
    (hopen : (s.withYield name).seatedPlayerActors.all EncounterActor.withdrawn = false) :
    Stuck (s.withYield name) ↔ Strands s name := by
  obtain ⟨before, after, hactors, hyield, hwaiting, hwaiting'⟩ := exists_waiting_split hactor
  obtain ⟨hside, hname⟩ := findActorForPlayer_some hactor
  constructor
  · intro hstuck
    have hawaits : s.awaitsRound = true := (awaitsRound_withYield s name).symm.trans hstuck.awaits
    have hempty : (s.withYield name).wnWaitingActors = [] := by
      simpa [GameSnapshot.wnBarrierClosed] using hstuck.closed
    rw [hwaiting', List.append_eq_nil_iff] at hempty
    -- before the yield the barrier was open, so that it waited on the one who yields
    have hopened : s.wnWaitingActors ≠ [] := fun hnone => hs
      ⟨hstuck.unresolved, by simp [GameSnapshot.wnBarrierClosed, hnone], hawaits⟩
    have hlast : s.wnWaitingActors = [name] := by
      rw [hwaiting, hempty.1, hempty.2] at hopened ⊢
      by_cases hwaits : s.waitsOn actor = true
      · simp [hwaits, hname]
      · simp [hwaits] at hopened
    have hwaits : s.waitsOn actor = true := by
      by_contra hwaits
      rw [hwaiting, hempty.1, hempty.2] at hopened
      simp [hwaits] at hopened
    obtain ⟨other, hother, hstays⟩ : ∃ other ∈ (s.withYield name).seatedPlayerActors,
        other.withdrawn = false := by simpa using hopen
    obtain ⟨hmem, hplayer, hseat⟩ := mem_seatedPlayerActors.mp hother
    have hrest : other ∈ before ∨ other ∈ after := by
      rw [hyield, List.mem_append, List.mem_cons] at hmem
      rcases hmem with hmem | rfl | hmem
      · exact .inl hmem
      · simp at hstays
      · exact .inr hmem
    refine ⟨hstuck.unresolved, hawaits, hlast, by simp [hactor, hin], other, ?_, hstays, ?_⟩
    · refine mem_seatedPlayerActors.mpr ⟨?_, hplayer, hseat⟩
      rw [hactors]
      rcases hrest with hmem | hmem
      · exact List.mem_append_left _ hmem
      · exact List.mem_append_right _ (.tail _ hmem)
    · -- another seat of the same name would still be waited on
      intro hsame
      have hother' : s.waitsOn other = true :=
        waitsOn_of_name hwaits hplayer hstays (hsame.trans hname.symm)
      have hnone : before.filter s.waitsOn = [] ∧ after.filter s.waitsOn = [] := by
        simpa using hempty
      rcases hrest with hmem | hmem
      · exact absurd hother' (List.filter_eq_nil_iff.mp hnone.1 other hmem)
      · exact absurd hother' (List.filter_eq_nil_iff.mp hnone.2 other hmem)
  · intro hstrands
    have hlast := hstrands.last
    have hwaits : s.waitsOn actor = true := by
      obtain ⟨other, hother, hothername⟩ :
          ∃ other, other ∈ s.encounter.actors.filter s.waitsOn ∧ other.name = name := by
        have hmem : name ∈ s.wnWaitingActors := by simp [hlast]
        exact List.mem_map.mp hmem
      exact waitsOn_of_name (List.mem_filter.mp hother).2 hside hin (hname.trans hothername.symm)
    have hempty : (s.withYield name).wnWaitingActors = [] := by
      have hlength := congrArg List.length (hwaiting.symm.trans hlast)
      rw [hwaiting', List.append_eq_nil_iff]
      simp only [hwaits, if_pos, List.length_append, List.length_cons, List.length_nil] at hlength
      exact ⟨List.length_eq_zero_iff.mp (by omega), List.length_eq_zero_iff.mp (by omega)⟩
    exact ⟨hstrands.unresolved, by simp [GameSnapshot.wnBarrierClosed, hempty],
      (awaitsRound_withYield s name).trans hstrands.awaits⟩

/-- A fight that a yield ended waits for no round. -/
theorem flows_endByYield (hs : Flows s) (name : String) : Flows (s.withYield name).endByYield := by
  have hresolved : (s.withYield name).endByYield.encounter.resolved = true := rfl
  refine ⟨fun hstuck => ?_, fun hinit => ?_⟩
  · cases hresolved.symm.trans hstuck.unresolved
  · have hencounter := encounter_refunds (s.withYield name).yieldedNames (s.withYield name)
    change ((s.withYield name).yieldedNames.foldl GameSnapshot.refund
      (s.withYield name)).encounter.initiative = [] at hinit
    show ((s.withYield name).yieldedNames.foldl GameSnapshot.refund
      (s.withYield name)).encounter.wnCommits = []
    rw [hencounter] at hinit ⊢
    exact hs.unsealed hinit

/-- **The yields that are safe.** Every yield but one that strands the fight keeps it going. -/
theorem flows_handleYield (hs : Flows s) (hsafe : ¬ Strands s name) :
    Flows ((handleYield name).exec s).2 := by
  unfold handleYield
  rw [exec_get_bind]
  by_cases hresolved : s.encounter.resolved = true
  · rw [if_pos hresolved]
    exact hs
  · rw [if_neg hresolved]
    cases hactor : s.encounter.findActorForPlayer name with
    | none => exact hs
    | some actor =>
      dsimp only
      by_cases hwithdrawn : actor.withdrawn = true
      · rw [if_pos hwithdrawn]
        exact hs
      · rw [if_neg hwithdrawn, exec_set]
        show Flows (if (s.withYield name).seatedPlayerActors.all EncounterActor.withdrawn then
          (s.withYield name).endByYield else s.withYield name)
        by_cases hall : (s.withYield name).seatedPlayerActors.all EncounterActor.withdrawn = true
        · rw [if_pos hall]
          exact flows_endByYield hs name
        · rw [if_neg hall]
          have hiff := stuck_withYield_iff hs.notStuck hactor (Bool.eq_false_iff.mpr hwithdrawn)
            (Bool.eq_false_iff.mpr hall)
          exact ⟨fun hstuck => hsafe (hiff.mp hstuck), hs.unsealed⟩

/-- **The yield that is not.** -/
theorem stuck_handleYield (hs : Flows s) (hstrands : Strands s name) :
    Stuck ((handleYield name).exec s).2 := by
  unfold handleYield
  rw [exec_get_bind, if_neg (by simp [hstrands.unresolved])]
  obtain ⟨actor, hactor, hin⟩ := exists_of_any hstrands.seated
  have hin' : actor.withdrawn = false := by simpa using hin
  rw [hactor]
  dsimp only
  rw [if_neg (by simp [hin']), exec_set]
  obtain ⟨other, hother, hstays, hname⟩ := hstrands.other
  have hopen : (s.withYield name).seatedPlayerActors.all EncounterActor.withdrawn = false := by
    -- the other seat is untouched by the yield
    obtain ⟨hmem, hside, hseat⟩ := mem_seatedPlayerActors.mp hother
    have hkept : other ∈ (s.withYield name).seatedPlayerActors :=
      mem_seatedPlayerActors.mpr
        ⟨mem_updateFirst_of_mem hmem (by simp [hname]), hside, hseat⟩
    rw [List.all_eq_false]
    exact ⟨other, hkept, by simp [hstays]⟩
  show Stuck (if (s.withYield name).seatedPlayerActors.all EncounterActor.withdrawn then
    (s.withYield name).endByYield else s.withYield name)
  rw [if_neg (by simp [hopen])]
  exact (stuck_withYield_iff hs.notStuck hactor hin' hopen).mpr hstrands

/-! ### Runs -/

/-- What a seated player sends into a fight. -/
inductive FightMessage where
  | diceThrow (payload : DiceThrowPayload)
  | yield (playerName : String)

namespace FightMessage

/-- The snapshot a message leaves, whether its dispatch returns or raises. -/
def step (rules : Rules) (s : GameSnapshot) : FightMessage → GameSnapshot
  | .diceThrow payload => ((dispatchDiceThrow rules payload).exec s).2
  | .yield playerName => ((handleYield playerName).exec s).2

/-- The message is a yield that strands the fight. -/
def Strands (s : GameSnapshot) : FightMessage → Prop
  | .diceThrow _ => False
  | .yield playerName => Combat.Strands s playerName

end FightMessage

/-- **The barrier over whole runs.** A fight with an empty ledger gets stuck in no state exactly if
    no yield of the run strands it. -/
theorem not_stuck_iff (rules : Rules) {s : GameSnapshot} (hfresh : s.encounter.wnCommits = [])
    (messages : List FightMessage) :
    Throughout (FightMessage.step rules) (fun s => ¬ Stuck s) s messages ↔
      StepsMeet (FightMessage.step rules) (fun s message => ¬ message.Strands s) s messages := by
  refine throughout_iff_stepsMeet (I := Flows) (fun s message hs hsafe => ?_)
    (fun s hs => hs.notStuck) (fun s message hs hunsafe => ?_) (flows_of_empty hfresh)
  · cases message with
    | diceThrow payload => exact flows_dispatchDiceThrow rules payload hs
    | yield playerName => exact flows_handleYield hs hsafe
  · cases message with
    | diceThrow payload => exact absurd (fun h : False => h) hunsafe
    | yield playerName =>
      rw [not_not] at hunsafe ⊢
      exact stuck_handleYield hs hunsafe

/-- A throw that hits. -/
def hittingThrow (name : String) : FightMessage :=
  .diceThrow { characterName := name, beatId := "attack", check := .ok .success }

/-- Both PCs throw: the second throw runs the round. -/
theorem not_stuck_of_throws :
    Throughout (FightMessage.step duelRules) (fun s => ¬ Stuck s) openSkirmish
      [hittingThrow "Rux", hittingThrow "Vex"] :=
  (not_stuck_iff duelRules (s := openSkirmish) rfl [hittingThrow "Rux", hittingThrow "Vex"]).mpr
    ⟨id, id, trivial⟩

/-- One PC throws, and the other one yields instead. -/
theorem stuck_of_last_yield : ¬ ∀ (rules : Rules) (s : GameSnapshot) (messages : List FightMessage),
      s.encounter.wnCommits = [] →
        Throughout (FightMessage.step rules) (fun s => ¬ Stuck s) s messages := by
  intro h
  have hrun := h duelRules openSkirmish [hittingThrow "Rux", .yield "Vex"] rfl
  exact hrun.last ⟨rfl, by decide, by decide⟩

end Sidequest.Combat
