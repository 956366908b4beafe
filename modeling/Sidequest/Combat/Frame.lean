import Sidequest.Combat.Round

namespace Sidequest.Combat

open Lib
open Fate (ActorSide Cast CoreRef EncounterActor)

/-!
# What the engine leaves alone

* `Within K s s'` — between the two snapshots the seats, the ledger and the sheets of the creatures
  have stayed, a resolved fight has stayed resolved, no commit was said to have failed, and the
  new events are among `K`; what the fight is made of stays within it, whether it returns or
  raises.
-/

/-! ### Accounts of a commit -/

/-- The event says that a commit of the actor was carried out. -/
def Event.resolves (name : String) : Event → Bool
  | .beatApplied actor _ _ => actor = name
  | .itemUsed actor _ _ => actor = name
  | .nonoffensiveAction actor _ _ => actor = name
  | _ => false

/-- The hint says that a commit of the actor did not resolve. -/
def Hint.unresolved (name : String) : Hint → Bool
  | .deadPremise actor _ => actor = name
  | .actorDowned actor _ _ => actor = name
  | .fightOver actor _ _ => actor = name
  | _ => false

/-- Neither damage, nor a verdict, nor a Mortal Injury, nor a seal, a round or an account of a
    commit. -/
def Event.clerical : Event → Bool
  | .hpPatched .. => false
  | .statusAdded .. => false
  | .mortalInjuryDeclared .. => false
  | .beatApplied .. => false
  | .itemUsed .. => false
  | .nonoffensiveAction .. => false
  | .commitSealed .. => false
  | .roundCommitted .. => false
  | _ => true

variable (encounter : StructuredEncounter)

/-- How many of the narrator's hints say that a commit of the actor did not resolve. -/
def StructuredEncounter.unresolvedHints (name : String) : Nat :=
  encounter.narratorHints.countP (Hint.unresolved name)

/-! ### The relation -/

/-- What of a creature no blow, spell or verdict changes. -/
structure CreatureCore.SameSheet (core core' : CreatureCore) : Prop where
  max : core'.hp.max = core.hp.max
  armorClass : core'.armorClass = core.armorClass
  level : core'.level = core.level
  items : core'.items = core.items
  stats : core'.stats = core.stats
  charClass : core'.charClass = core.charClass
  caster : core'.spellcasting.isSome = core.spellcasting.isSome

theorem CreatureCore.SameSheet.refl (core : CreatureCore) : core.SameSheet core :=
  ⟨rfl, rfl, rfl, rfl, rfl, rfl, rfl⟩

theorem CreatureCore.SameSheet.trans {a b c : CreatureCore} (h : a.SameSheet b)
    (h' : b.SameSheet c) : a.SameSheet c :=
  ⟨h'.max.trans h.max, h'.armorClass.trans h.armorClass, h'.level.trans h.level,
    h'.items.trans h.items, h'.stats.trans h.stats, h'.charClass.trans h.charClass,
    h'.caster.trans h.caster⟩

/-- What of the encounter the slots of a round leave alone, withdrawals apart. -/
structure StructuredEncounter.SameBoard (encounter encounter' : StructuredEncounter) : Prop where
  encounterType : encounter'.encounterType = encounter.encounterType
  actors : encounter'.actors = encounter.actors
  initiative : encounter'.initiative = encounter.initiative
  wnCommits : encounter'.wnCommits = encounter.wnCommits
  activeTaunter : encounter'.activeTaunter = encounter.activeTaunter
  resolved : encounter.resolved = true → encounter'.resolved = true
  unresolvedHints : ∀ name, encounter'.unresolvedHints name = encounter.unresolvedHints name

theorem StructuredEncounter.SameBoard.refl : encounter.SameBoard encounter :=
  ⟨rfl, rfl, rfl, rfl, rfl, id, fun _ => rfl⟩

theorem StructuredEncounter.SameBoard.trans {a b c : StructuredEncounter} (h : a.SameBoard b)
    (h' : b.SameBoard c) : a.SameBoard c :=
  ⟨h'.encounterType.trans h.encounterType, h'.actors.trans h.actors,
    h'.initiative.trans h.initiative, h'.wnCommits.trans h.wnCommits,
    h'.activeTaunter.trans h.activeTaunter, fun hr => h'.resolved (h.resolved hr),
    fun name => (h'.unresolvedHints name).trans (h.unresolvedHints name)⟩

/-- An event among `K` says that the hit points of the creature changed. -/
def Patched (K : Event → Prop) (ref : CoreRef) : Prop :=
  (∃ delta current maximum source, K (.hpPatched ref delta current maximum source)) ∨
    ∃ text, K (.statusAdded ref text)

/-- The cast, the board and the sheets have stayed, the new events are among `K`, and hit points
    have changed only where such an event says so. Nobody gets up but by a status among `K`. -/
structure Within (K : Event → Prop) (s s' : GameSnapshot) : Prop where
  cast : s'.cast = s.cast
  playerSeats : s'.playerSeats = s.playerSeats
  board : s.encounter.SameBoard s'.encounter
  sheets : ∀ ref, (s.cores ref).SameSheet (s'.cores ref)
  events : ∃ new, s'.events = s.events ++ new ∧ ∀ event ∈ new, K event
  hp : ∀ ref, (s'.cores ref).hp = (s.cores ref).hp ∨ Patched K ref
  sinks : ∀ ref, (s.cores ref).down = true →
    (s'.cores ref).down = true ∨ ∃ text, K (.statusAdded ref text)

variable {K : Event → Prop}

variable {s' s : GameSnapshot}

/-- A step that leaves the creatures alone. -/
theorem Within.of_cores (hcast : s'.cast = s.cast) (hseats : s'.playerSeats = s.playerSeats)
    (hboard : s.encounter.SameBoard s'.encounter) (hcores : s'.cores = s.cores)
    (hevents : ∃ new, s'.events = s.events ++ new ∧ ∀ event ∈ new, K event) : Within K s s' := by
  refine ⟨hcast, hseats, hboard, fun ref => ?_, hevents, fun ref => .inl ?_,
    fun ref hdown => .inl ?_⟩
  · rw [hcores]
    exact .refl _
  · rw [hcores]
  · rw [hcores]
    exact hdown

theorem Within.refl (s : GameSnapshot) : Within K s s :=
  .of_cores rfl rfl (.refl _) rfl ⟨[], (List.append_nil _).symm, by simp⟩

theorem Within.trans {s'' : GameSnapshot} (h : Within K s s') (h' : Within K s' s'') :
    Within K s s'' := by
  obtain ⟨new, hnew, hK⟩ := h.events
  obtain ⟨new', hnew', hK'⟩ := h'.events
  refine ⟨h'.cast.trans h.cast, h'.playerSeats.trans h.playerSeats, h.board.trans h'.board,
    fun ref => (h.sheets ref).trans (h'.sheets ref), ⟨new ++ new', ?_, ?_⟩, fun ref => ?_, ?_⟩
  · rw [hnew', hnew, List.append_assoc]
  · intro event hevent
    rcases List.mem_append.mp hevent with hevent | hevent
    · exact hK event hevent
    · exact hK' event hevent
  · rcases h'.hp ref with hsame' | hpatched
    · rcases h.hp ref with hsame | hpatched
      · exact .inl (hsame'.trans hsame)
      · exact .inr hpatched
    · exact .inr hpatched
  · intro ref hdown
    rcases h.sinks ref hdown with hdown' | hstatus
    · exact h'.sinks ref hdown'
    · exact .inr hstatus

instance : IsPreorder GameSnapshot (Within K) where
  refl := Within.refl
  trans _ _ _ := Within.trans

/-- With more events allowed, what is patched is patched. -/
theorem Patched.mono {K' : Event → Prop} {ref : CoreRef} (h : Patched K ref)
    (hmono : ∀ event, K event → K' event) : Patched K' ref := by
  rcases h with ⟨delta, current, maximum, source, hK⟩ | ⟨text, hK⟩
  · exact .inl ⟨delta, current, maximum, source, hmono _ hK⟩
  · exact .inr ⟨text, hmono _ hK⟩

theorem Within.mono {K' : Event → Prop} (h : Within K s s') (hmono : ∀ event, K event → K' event) :
    Within K' s s' := by
  obtain ⟨new, hnew, hK⟩ := h.events
  exact ⟨h.cast, h.playerSeats, h.board, h.sheets,
    ⟨new, hnew, fun event hevent => hmono event (hK event hevent)⟩,
    fun ref => (h.hp ref).imp id (·.mono hmono), fun ref hdown =>
      (h.sinks ref hdown).imp id (fun ⟨text, hstatus⟩ => ⟨text, hmono _ hstatus⟩)⟩

/-- Nobody is found elsewhere than before. -/
theorem Within.findCreatureCore (h : Within K s s') (name : String) :
    s'.cast.findCreatureCore name = s.cast.findCreatureCore name := by rw [h.cast]

/-- The primary target stays the same. -/
theorem Within.oppositeSideFirstActor (h : Within K s s') (side : ActorSide) :
    s'.encounter.oppositeSideFirstActor side = s.encounter.oppositeSideFirstActor side := by
  unfold StructuredEncounter.oppositeSideFirstActor StructuredEncounter.oppositeCandidates
  rw [h.board.actors, h.board.activeTaunter]

theorem Within.primaryTarget (h : Within K s s') (side : ActorSide) :
    s'.primaryTarget side = s.primaryTarget side := by
  unfold GameSnapshot.primaryTarget
  rw [h.oppositeSideFirstActor, h.cast]

/-! ### The snapshot -/

/-- An event that is among `K` may be published. -/
theorem within_publish (s : GameSnapshot) {event : Event} (hK : K event) :
    Within K s (s.publish event) :=
  .of_cores rfl rfl (.refl _) rfl ⟨[event], rfl, by simpa using hK⟩

/-- A creature may change off its sheet; a change of its hit points is said, and so is its getting
    up. -/
theorem within_modifyCore (s : GameSnapshot) (ref : CoreRef) {f : CreatureCore → CreatureCore}
    (hf : (s.cores ref).SameSheet (f (s.cores ref)))
    (hhp : (f (s.cores ref)).hp = (s.cores ref).hp ∨ Patched K ref)
    (hdown : (s.cores ref).down = true →
      (f (s.cores ref)).down = true ∨ ∃ text, K (.statusAdded ref text)) :
    Within K s (s.modifyCore ref f) := by
  have hcores : ∀ other, (s.modifyCore ref f).cores other =
      if other = ref then f (s.cores ref) else s.cores other := by
    intro other
    by_cases hother : other = ref
    · subst hother
      simp [GameSnapshot.modifyCore]
    · simp [GameSnapshot.modifyCore, hother]
  refine ⟨rfl, rfl, .refl _, fun other => ?_, ⟨[], (List.append_nil _).symm, by simp⟩,
    fun other => ?_, fun other hother => ?_⟩
  · rw [hcores other]
    split_ifs with heq
    · rw [heq]
      exact hf
    · exact .refl _
  · rw [hcores other]
    split_ifs with heq
    · rw [heq]
      exact hhp
    · exact .inl rfl
  · rw [hcores other]
    split_ifs with heq
    · rw [heq] at hother ⊢
      exact hdown hother
    · exact .inl hother

/-- A creature may change off its sheet and its hit points. -/
theorem within_offSheet (s : GameSnapshot) (ref : CoreRef) {f : CreatureCore → CreatureCore}
    (hf : (s.cores ref).SameSheet (f (s.cores ref)))
    (hhp : (f (s.cores ref)).hp = (s.cores ref).hp) : Within K s (s.modifyCore ref f) := by
  refine within_modifyCore s ref hf (.inl hhp) (fun hdown => .inl ?_)
  unfold CreatureCore.down at hdown ⊢
  rw [hhp]
  exact hdown

/-- The encounter may change off the board. -/
theorem within_modifyEncounter (s : GameSnapshot)
    {f : StructuredEncounter → StructuredEncounter} (hf : s.encounter.SameBoard (f s.encounter)) :
    Within K s (s.modifyEncounter f) :=
  .of_cores rfl rfl hf rfl ⟨[], (List.append_nil _).symm, by simp⟩

/-- A hint may be given that speaks of no failed commit. -/
theorem within_hint (s : GameSnapshot) {hint : Hint} (h : ∀ name, hint.unresolved name = false) :
    Within K s (s.hint hint) := by
  refine within_modifyEncounter s ⟨rfl, rfl, rfl, rfl, rfl, id, fun name => ?_⟩
  simp [StructuredEncounter.unresolvedHints, List.countP_append, h name]

theorem sameBoard_resolve (outcome : String) : encounter.SameBoard (encounter.resolve outcome) :=
  ⟨rfl, rfl, rfl, rfl, rfl, fun _ => rfl, fun _ => rfl⟩

/-! ### Negated saves -/

/-- A text that begins otherwise is not dropped. -/
theorem not_isPrefixOf_of_head {lead text : List Char} {c d : Char} (hlead : lead.head? = some c)
    (htext : text.head? = some d) (hne : c ≠ d) : lead.isPrefixOf text = false := by
  cases lead with
  | nil => simp at hlead
  | cons a lead =>
    cases text with
    | nil => rfl
    | cons b text =>
      cases hlead
      cases htext
      simp [List.isPrefixOf, hne]

/-- A text begins as its first part does. -/
theorem head_toList_append {lead rest : String} {c : Char} (h : lead.toList.head? = some c) :
    (lead ++ rest).toList.head? = some c := by
  rw [String.toList_append, List.head?_append, h, Option.some_or]

theorem head_negatedSaveHintLead (actor : String) :
    (negatedSaveHintLead actor).toList.head? = some 'M' := by
  unfold negatedSaveHintLead
  exact head_toList_append (head_toList_append (by decide))

/-- A hint that says a commit failed does not begin like a negated save. -/
theorem Hint.head_text_of_unresolved {hint : Hint} {name : String}
    (h : hint.unresolved name = true) :
    ∃ c, hint.text.toList.head? = some c ∧ 'M' ≠ c := by
  have hdead : "DEAD PREMISE: ".toList.head? = some 'D' := by decide
  have hgate : "LIVENESS GATE (ADR-139): ".toList.head? = some 'L' := by decide
  cases hint with
  | deadPremise actor target =>
    refine ⟨'D', ?_, by decide⟩
    unfold Hint.text
    repeat with_reducible apply head_toList_append
    exact hdead
  | actorDowned actor beatId resolved =>
    refine ⟨'L', ?_, by decide⟩
    unfold Hint.text
    repeat with_reducible apply head_toList_append
    exact hgate
  | fightOver actor beatId outcome =>
    refine ⟨'L', ?_, by decide⟩
    unfold Hint.text
    repeat with_reducible apply head_toList_append
    exact hgate
  | _ => simp [Hint.unresolved] at h

theorem sameBoard_dropStaleNegatedSaveHints (actor : String) :
    encounter.SameBoard (encounter.dropStaleNegatedSaveHints actor) := by
  refine ⟨rfl, rfl, rfl, rfl, rfl, id, fun name => ?_⟩
  show (encounter.narratorHints.filter _).countP _ = _
  rw [List.countP_filter]
  refine List.countP_congr (fun hint _ => ?_)
  simp only [Bool.and_eq_true, Bool.not_eq_true', and_iff_left_iff_imp]
  intro hunresolved
  obtain ⟨c, hc, hne⟩ := Hint.head_text_of_unresolved hunresolved
  exact not_isPrefixOf_of_head (head_negatedSaveHintLead actor) hc hne

/-! ### Dice -/

/-- Nothing but the dice that are still to roll has changed. -/
def OnlyDice (s s' : GameSnapshot) : Prop := ∃ rng, s' = { s with rng := rng }

instance : IsPreorder GameSnapshot OnlyDice where
  refl s := ⟨s.rng, rfl⟩
  trans := by
    rintro _ _ _ ⟨_, rfl⟩ ⟨rng, rfl⟩
    exact ⟨rng, rfl⟩

theorem OnlyDice.within (h : OnlyDice s s') : Within K s s' := by
  obtain ⟨rng, rfl⟩ := h
  exact .of_cores rfl rfl (.refl _) rfl ⟨[], (List.append_nil _).symm, by simp⟩

theorem onlyDice_rollDie (faces : Nat) : Preserves OnlyDice (rollDie faces) := fun _ => ⟨_, rfl⟩

variable (spec : DamageSpec)

/-- Rolls only use up dice. -/
theorem onlyDice_generateServerFaces :
    Preserves OnlyDice (generateServerFaces spec) := preserves_mapM onlyDice_rollDie _

theorem onlyDice_roll : Preserves OnlyDice spec.roll :=
  (onlyDice_generateServerFaces spec).bind (fun _ => preserves_pure _)

theorem within_rollDie (faces : Nat) : Preserves (Within K) (rollDie faces) :=
  (onlyDice_rollDie faces).mono (fun _ _ => OnlyDice.within)

theorem within_generateServerFaces : Preserves (Within K) (generateServerFaces spec) :=
  (onlyDice_generateServerFaces spec).mono (fun _ _ => OnlyDice.within)

theorem within_roll : Preserves (Within K) spec.roll :=
  (onlyDice_roll spec).mono (fun _ _ => OnlyDice.within)

/-- A trauma roll stays within any events. -/
theorem within_resolveTrauma (rules : Rules) (spec : DamageSpec) (baseTotal : Int) :
    Preserves (Within K) (rules.resolveTrauma spec baseTotal) := by
  unfold Rules.resolveTrauma
  split
  · exact preserves_pure _
  · refine Preserves.ite ((preserves_ofExcept _).bind (fun die => ?_)) (preserves_throw _)
    exact (within_roll die).bind (fun _ => Preserves.ite (preserves_pure _) (preserves_pure _))

theorem within_tagTraumaticHit (s : GameSnapshot) : Within K s s.tagTraumaticHit := by
  refine within_modifyEncounter s ?_
  split_ifs
  · exact .refl _
  · exact ⟨rfl, rfl, rfl, rfl, rfl, id, fun _ => rfl⟩

/-- So does the roll of a strike. -/
theorem within_strikeDamage (rules : Rules) (name : String) (beat : BeatDef) :
    Preserves (Within K) (strikeDamage rules name beat) := by
  refine preserves_get.bind (fun s => (within_generateServerFaces _).bind (fun faces => ?_))
  refine (within_resolveTrauma rules _ _).bind (fun result => ?_)
  refine (preserves_modify within_tagTraumaticHit).onlyIf.bind (fun _ => ?_)
  split
  · exact Preserves.ite (preserves_pure _) (preserves_pure _)
  · exact preserves_pure _

/-! ### Damage and the win check -/

theorem within_resolve (s : GameSnapshot) (outcome : String) :
    Within K s (s.modifyEncounter (·.resolve outcome)) :=
  within_modifyEncounter s (sameBoard_resolve s.encounter outcome)

section Operations

variable (hclerical : ∀ event : Event, event.clerical = true → K event)

include hclerical

/-- What the win check publishes was read before the fight was resolved. -/
theorem within_publish? (before s : GameSnapshot) (outcome : String) :
    Within K s (s.publish? (before.winConditionEvent outcome)) := by
  unfold GameSnapshot.winConditionEvent
  dsimp only
  split_ifs
  · exact .refl s
  · exact within_publish s (hclerical _ rfl)

/-- The end of a fight by depletion brings clerical events only. -/
theorem within_checkHpDepletion (s : GameSnapshot) : Within K s s.checkHpDepletion.2 := by
  unfold GameSnapshot.checkHpDepletion
  split_ifs
  · exact .refl s
  · split
    · exact within_publish? hclerical s s ""
    · rename_i depletion _
      have hresolve := within_resolve (K := K) s depletion.outcome
      have hevent := within_publish? hclerical s
        (s.modifyEncounter (·.resolve depletion.outcome))
        depletion.outcome
      exact (hresolve.trans hevent).trans (within_publish _ (hclerical _ rfl))

end Operations

section Damage

variable {target : CoreRef}
  (hpatch : ∀ delta current maximum source, K (.hpPatched target delta current maximum source))

include hpatch

/-- A loss of hit points is a patch, and no more. -/
theorem within_applyHpDelta (s : GameSnapshot) {delta : Int} (hdelta : delta ≤ 0)
    (source : String) : Within K s (s.applyHpDelta target delta source) := by
  refine (within_modifyCore s target ⟨rfl, rfl, rfl, rfl, rfl, rfl, rfl⟩
    (.inr (.inl ⟨delta, 0, 0, source, hpatch delta 0 0 source⟩)) (fun hdown => .inl ?_)).trans
    (within_publish _ (hpatch _ _ _ _))
  have hcurrent : (s.cores target).hp.current ≤ 0 := of_decide_eq_true hdown
  have hlower : max 0 (min (s.cores target).hp.max ((s.cores target).hp.current + delta)) ≤ 0 := by
    omega
  exact decide_eq_true hlower

theorem within_applyBeatHpChannel (s : GameSnapshot) (damageTotal mitigation : Int)
    (source : String) : Within K s (s.applyBeatHpChannel target damageTotal mitigation source).2 := by
  have hpos : 0 ≤ GameSnapshot.mitigated damageTotal mitigation := by
    unfold GameSnapshot.mitigated
    split_ifs <;> omega
  unfold GameSnapshot.applyBeatHpChannel
  dsimp only
  split_ifs
  · exact .refl s
  · exact within_applyHpDelta hpatch s (by omega) source

/-- Damage that lands is a patch of its target. -/
theorem within_landDamage (damage : Int) (source : String) :
    Preserves (Within K) (landDamage target damage source) :=
  preserves_modify (fun s => within_applyBeatHpChannel hpatch s damage 0 source)

end Damage

/-! ### Going down -/

/-- A status that is added is told. -/
theorem within_addStatus (s : GameSnapshot) (target : CoreRef) (status : Status) :
    Within K s (s.addStatus target status) :=
  within_offSheet s target ⟨rfl, rfl, rfl, rfl, rfl, rfl, rfl⟩ rfl

section Downed

variable (hclerical : ∀ event : Event, event.clerical = true → K event)

section Verdict

variable (hstatus : ∀ target status, K (.statusAdded target status))

include hstatus

/-- The verdict on a PC may bring it back, and says so. -/
theorem within_applyVerdict (s : GameSnapshot) (rules : Rules) (verdict : String) (i : Nat) :
    Within K s (s.applyVerdict rules verdict i) := by
  unfold GameSnapshot.applyVerdict
  split_ifs
  · exact (within_addStatus s _ _).trans (within_publish _ (hstatus _ _))
  · refine ((within_modifyCore s _ ⟨rfl, rfl, rfl, rfl, rfl, rfl, rfl⟩
      (.inr (.inr ⟨"", hstatus _ _⟩)) (fun _ => .inr ⟨"", hstatus _ _⟩)).trans
      (within_addStatus _ _ _)).trans (within_publish _ (hstatus _ _))
  · exact .refl s

theorem within_applyVerdicts (rules : Rules) (verdict : String) (pcs : List Nat)
    (s : GameSnapshot) : Within K s (pcs.foldl (fun s i => s.applyVerdict rules verdict i) s) := by
  induction pcs generalizing s with
  | nil => exact .refl s
  | cons i pcs ih => exact (within_applyVerdict hstatus s rules verdict i).trans (ih _)

include hclerical

omit hstatus in
theorem within_flagPlayerDead (s : GameSnapshot) (fallen : List Nat) :
    Within K s (s.flagPlayerDead fallen) := by
  unfold GameSnapshot.flagPlayerDead
  split_ifs
  · refine .of_cores rfl rfl (.refl _) rfl ⟨_, rfl, fun event hevent => ?_⟩
    obtain ⟨i, -, rfl⟩ := List.mem_map.mp hevent
    exact hclerical _ rfl
  · exact .refl s

/-- The verdicts after a fight bring clerical events and statuses. -/
theorem within_applyPostResolutionLethality (s : GameSnapshot) (rules : Rules) :
    Within K s (s.applyPostResolutionLethality rules) := by
  unfold GameSnapshot.applyPostResolutionLethality
  split_ifs
  · split
    · exact .refl s
    · exact (within_applyVerdicts hstatus rules _ _ s).trans
        (within_flagPlayerDead hclerical _ _)
  · exact .refl s

end Verdict

include hclerical

theorem within_rollMajorInjury (rules : Rules) (encounterType : String) (target : CoreRef)
    (saveTarget : Int) :
    Preserves (Within K) (rollMajorInjury rules encounterType target saveTarget) := by
  refine (within_rollDie 20).bind (fun saveRoll => Preserves.ite ?_ ?_)
  · exact preserves_modify (fun s => within_publish s (hclerical _ rfl))
  · refine (within_rollDie 12).bind (fun injury => preserves_modify (fun s => ?_))
    exact (within_addStatus s _ _).trans (within_publish _ (hclerical _ rfl))

/-- A creature that is down is injured, and the injury is declared. -/
theorem within_resolveDowned (rules : Rules) (encounterType : String) {target : CoreRef}
    (hmortal : ∀ superseded, K (.mortalInjuryDeclared target superseded)) (saveTarget : Int)
    (sceneTraumatic superseded dyingWindow : Bool) :
    Preserves (Within K) (resolveDowned rules encounterType target saveTarget sceneTraumatic
      superseded dyingWindow) := by
  refine Preserves.bind (preserves_modify (fun s => ?_))
    (fun _ => (within_rollMajorInjury hclerical rules encounterType target saveTarget).onlyIf)
  cases superseded with
  | true => exact within_publish s (hmortal true)
  | false => exact (within_addStatus s _ _).trans (within_publish _ (hmortal false))

/-- The seam declares Mortal Injuries of the actor it derives, and changes nothing on the board. -/
theorem within_runCwnWwnDownedSeam (rules : Rules) (actorSide : ActorSide)
    (hmortal : ∀ target superseded, K (.mortalInjuryDeclared target superseded)) :
    Preserves (Within K) (runCwnWwnDownedSeam rules actorSide) := by
  refine preserves_get.bind (fun s => ?_)
  split
  · exact preserves_pure _
  · refine (preserves_ofExcept _).bind (fun saveTarget => ?_)
    refine (within_resolveDowned hclerical rules _ (hmortal _) _ _ _ _).bind (fun _ => ?_)
    exact (preserves_modify (fun s => within_publish s (hclerical _ rfl))).onlyIf

/-! ### The opponent's attack -/

/-- The close of a reprisal tells of statuses and injuries. -/
theorem within_closeReprisalDepletion (rules : Rules)
    (hstatus : ∀ target status, K (.statusAdded target status))
    (hmortal : ∀ target superseded, K (.mortalInjuryDeclared target superseded)) :
    Preserves (Within K) (closeReprisalDepletion rules) := by
  refine Preserves.bind (preserves_modify (fun s => ?_))
    (fun _ => within_runCwnWwnDownedSeam hclerical rules .opponent hmortal)
  exact (within_checkHpDepletion hclerical s).trans
    (within_applyPostResolutionLethality hclerical hstatus _ rules)

end Downed

theorem within_reprisalDamage (targetMeleeAc : Int) (hit shockImmune : Bool) :
    Preserves (Within K) (reprisalDamage spec targetMeleeAc hit shockImmune) :=
  ((within_generateServerFaces spec).bind (fun _ => preserves_pure _)).ite (preserves_pure _)

section Operations

variable (hclerical : ∀ event : Event, event.clerical = true → K event)
  (hmortal : ∀ target superseded, K (.mortalInjuryDeclared target superseded))
  (hpatch : ∀ target delta current maximum source,
    K (.hpPatched target delta current maximum source))

include hclerical hmortal hpatch

omit hmortal hpatch in
/-- The dice of an attack stay within clerical events. -/
theorem within_reprisalRoll (rules : Rules) (playerName attacker : String)
    (defenderCommit : Option WnSealedCommit) (source : String) :
    Preserves (Within K) (reprisalRoll rules playerName attacker defenderCommit source) := by
  refine preserves_get.bind (fun s => ?_)
  split
  · exact preserves_pure _
  · refine Preserves.ite (preserves_pure _) ((within_rollDie 20).bind (fun d20 => ?_))
    refine (preserves_ofExcept _).bind (fun roll => ?_)
    refine Preserves.bind (preserves_modify (fun s => within_publish s (hclerical _ rfl)))
      (fun _ => Preserves.ite (preserves_throw _) ?_)
    exact (within_reprisalDamage _ _ _ _).bind (fun damage => preserves_pure _)

/-- **The opponent's attack** stays within damage, verdicts, Mortal Injuries and clerical events. -/
theorem within_resolveOpponentReprisal (hstatus : ∀ target status, K (.statusAdded target status))
    (rules : Rules) (playerName attacker : String)
    (defenderCommit : Option WnSealedCommit) (source : String) : Preserves (Within K)
      (resolveOpponentReprisal rules playerName attacker defenderCommit source) := by
  refine (within_reprisalRoll hclerical rules _ _ _ _).bind (fun blow => ?_)
  cases blow with
  | none => exact preserves_pure _
  | some found =>
    refine (within_landDamage (hpatch _) _ _).bind (fun _ => ?_)
    exact within_closeReprisalDepletion hclerical rules hstatus hmortal

/-! ### A player's beat -/

omit hclerical hmortal hpatch in
theorem within_shockChip (s : GameSnapshot) (rules : Rules) (name : String) (side : ActorSide)
    (beat : BeatDef)
    (hpatch : ∀ target, s.primaryTarget side = some target → ∀ delta current maximum source,
      K (.hpPatched target delta current maximum source)) :
    Within K s (s.shockChip rules name side beat).2 := by
  unfold GameSnapshot.shockChip
  split
  · exact .refl s
  · rename_i target htarget
    exact within_applyBeatHpChannel (hpatch target htarget) s _ _ _

omit hclerical hmortal hpatch in
/-- A strike that lands patches the target of its side. -/
theorem within_landStrike (s : GameSnapshot) (side : ActorSide) (beat : BeatDef) (damage : Int)
    (hpatch : ∀ target, s.primaryTarget side = some target → ∀ delta current maximum source,
      K (.hpPatched target delta current maximum source)) :
    Within K s (s.landStrike side beat damage).2 := by
  unfold GameSnapshot.landStrike
  split
  · exact .refl s
  · rename_i target htarget
    exact within_applyBeatHpChannel (hpatch target htarget) s _ _ _

omit hmortal hpatch in
theorem within_resolutionBeatExit (s : GameSnapshot) (actor : String) (beat : BeatDef)
    (outcome : RollOutcome) : Within K s (s.resolutionBeatExit actor beat outcome) := by
  unfold GameSnapshot.resolutionBeatExit
  split_ifs
  · exact (within_resolve s _).trans (within_publish _ (hclerical _ rfl))
  · exact .refl s

omit hmortal hpatch in
/-- So does a committed action, at most. -/
theorem within_resolveWnCommittedAction (s : GameSnapshot) (actor : EncounterActor)
    (beat : BeatDef) (outcome : RollOutcome) (damage : Option Int)
    (hpatch : ∀ target, s.primaryTarget actor.side = some target →
      ∀ delta current maximum source, K (.hpPatched target delta current maximum source)) :
    Within K s (s.resolveWnCommittedAction actor beat outcome damage).2 := by
  have hstruck : Within K s (s.landRolled actor.side beat damage).2 := by
    cases damage with
    | some total => exact within_landStrike s actor.side beat total hpatch
    | none => exact .refl s
  exact (hstruck.trans (within_checkHpDepletion hclerical _)).trans
    (within_resolutionBeatExit hclerical _ _ _ _)

omit hclerical hmortal hpatch in
theorem within_beatDamage (rules : Rules) (name : String) (actor : EncounterActor)
    (commitment : Commitment) (s : GameSnapshot)
    (hpatch : ∀ target, s.primaryTarget actor.side = some target →
      ∀ delta current maximum source, K (.hpPatched target delta current maximum source)) :
    Within K s ((beatDamage rules name actor commitment).exec s).2 := by
  unfold beatDamage
  split_ifs
  · exact within_shockChip s rules name actor.side commitment.beat hpatch
  · exact ((within_strikeDamage rules name commitment.beat).bind (fun _ => preserves_pure _)) s
  · exact .refl s

omit hclerical hmortal hpatch in
theorem within_spellSave (rules : Rules) (s : GameSnapshot) (spell : Spell)
    (target : Option (String × CoreRef)) : Preserves (Within K) (spellSave rules s spell target) := by
  unfold spellSave
  dsimp only
  split
  · exact (preserves_ofExcept _).bind (fun _ => (within_rollDie 20).bind
      (fun _ => preserves_pure _))
  · exact preserves_pure _

omit hclerical hmortal hpatch in
theorem within_spellDamage (spell : Spell) (casterLevel : Int) (saveMade : Bool) :
    Preserves (Within K) (spellDamage spell casterLevel saveMade) := by
  unfold spellDamage
  split
  · exact preserves_pure _
  · exact preserves_throw _
  · exact (preserves_ofExcept _).bind (fun _ => (within_roll _).bind (fun _ => preserves_pure _))

omit hmortal hpatch in
/-- **A spell** patches its target, and tells of itself. -/
theorem within_resolveSpellcast (rules : Rules) (caster : CoreRef) (casterName spellId : String)
    (spell : Spell) (target : Option (String × CoreRef)) :
    Preserves (Within K) (resolveSpellcast rules caster casterName spellId spell target) := by
  have hcast : ∀ refused, Preserves (Within K)
      (modify (·.publish (.spellCast casterName spellId refused)) : CombatM PUnit) :=
    fun refused => preserves_modify (fun s => within_publish s (hclerical _ rfl))
  intro s
  unfold resolveSpellcast
  rw [Effect.exec_bind, Effect.exec_get]
  dsimp only
  split
  · exact .refl s
  · rename_i state hstate
    -- the caster had a casting state, and keeps one
    have hspend : Within K s (s.modifyCore caster (fun core => { core with
        spellcasting := some { state with castsRemaining := state.castsRemaining - 1 } })) :=
      within_offSheet s caster ⟨rfl, rfl, rfl, rfl, rfl, rfl, by rw [hstate]; rfl⟩ rfl
    split_ifs
    · exact ((hcast true).bind (fun _ => preserves_pure _)) s
    · rw [Effect.exec_bind, Effect.exec_modify]
      refine hspend.trans ?_
      exact ((within_spellSave rules s spell target).bind (fun _ =>
        (within_spellDamage spell _ _).bind (fun _ =>
          (hcast false).bind (fun _ => preserves_pure _)))) _

/-- **A cast** stays within damage, Mortal Injuries and clerical events. -/
theorem within_resolveWwnCastForBeat (rules : Rules) (actor : EncounterActor)
    (spellId : Option String) :
    Preserves (Within K) (resolveWwnCastForBeat rules actor spellId) := by
  refine preserves_get.bind (fun s => ?_)
  split
  · split
    · exact preserves_pure _
    · refine (within_resolveSpellcast hclerical rules _ _ _ _ _).bind (fun damage => ?_)
      split
      · refine ((within_landDamage (hpatch _) _ _).bind (fun _ => ?_)).onlyIf
        exact (within_runCwnWwnDownedSeam hclerical rules actor.side hmortal).bind
          (fun _ => preserves_modify (fun s => within_checkHpDepletion hclerical s))
      · exact preserves_pure _
  · exact preserves_pure _

omit hmortal hpatch in
/-- **A mutation** brings clerical events only. -/
theorem within_resolveMutationForBeat (rules : Rules) (actor : EncounterActor)
    (mutationId : Option String) :
    Preserves (Within K) (resolveMutationForBeat rules actor mutationId) := by
  have hdrop : Preserves (Within K) (modify
      (·.modifyEncounter (·.dropStaleNegatedSaveHints actor.name)) : CombatM PUnit) :=
    preserves_modify (fun s =>
      within_modifyEncounter s (sameBoard_dropStaleNegatedSaveHints s.encounter actor.name))
  have hrefused : ∀ mutationId reason, Preserves (Within K)
      (modify (·.publish (.mutationRefused actor.name mutationId reason)) : CombatM PUnit) :=
    fun _ _ => preserves_modify (fun s => within_publish s (hclerical _ rfl))
  have hsaved : ∀ rest, Preserves (Within K)
      (modify (·.hint (.negatedSave actor.name rest)) : CombatM PUnit) :=
    fun _ => preserves_modify (fun s => within_hint s (fun _ => rfl))
  refine hdrop.bind (fun _ => ?_)
  intro s
  have huse : Within K s { s with mutationUses := s.mutationUses ++ [(⟨actor.name,
      s.encounter.oppositeSideFirstActor actor.side, mutationId⟩ : MutationUse)] } :=
    .of_cores rfl rfl (.refl _) rfl ⟨[], (List.append_nil _).symm, by simp⟩
  rw [Effect.exec_bind, Effect.exec_get]
  dsimp only
  rw [Effect.exec_bind, Effect.exec_set]
  refine huse.trans ?_
  dsimp only
  split
  · exact .refl _
  · exact ((hrefused _ _).bind (fun _ => preserves_pure _)) _
  · exact ((hsaved _).bind (fun _ => preserves_pure _)) _

/-- **The effects of a beat** stay within damage, Mortal Injuries and clerical events. -/
theorem within_carryOutBeat (rules : Rules) (name : String) (actor : EncounterActor)
    (commitment : Commitment) :
    Preserves (Within K) (carryOutBeat rules name actor commitment) := by
  have hdrop : Preserves (Within K) (modify
      (·.modifyEncounter (·.dropStaleNegatedSaveHints actor.name)) : CombatM PUnit) :=
    preserves_modify (fun s =>
      within_modifyEncounter s (sameBoard_dropStaleNegatedSaveHints s.encounter actor.name))
  have hdamage : Preserves (Within K) (beatDamage rules name actor commitment) :=
    fun s => within_beatDamage rules name actor commitment s (fun _ _ => hpatch _)
  refine hdrop.bind (fun _ => hdamage.bind (fun rolled => ?_))
  obtain ⟨damage, shockHpRemoved⟩ := rolled
  intro s
  rw [Effect.exec_bind, Effect.exec_get]
  dsimp only
  rw [Effect.exec_bind, Effect.exec_set]
  refine (within_resolveWnCommittedAction hclerical s actor commitment.beat commitment.outcome
    damage (fun _ _ => hpatch _)).trans ?_
  refine ((within_runCwnWwnDownedSeam hclerical rules actor.side hmortal).bind (fun _ => ?_)) _
  refine (within_resolveWwnCastForBeat hclerical hmortal hpatch rules actor
    commitment.spellId).onlyIf.bind (fun _ => Preserves.bind ?_ (fun _ => preserves_pure _))
  exact (within_resolveMutationForBeat hclerical rules actor commitment.mutationId).ite
    (preserves_pure _)

/-! ### Slots -/

/-- **Opportunity attacks** are reprisals, and stay within their events. -/
theorem within_opportunityAttacks (hstatus : ∀ target status, K (.statusAdded target status))
    (rules : Rules) (token : String) (commit : WnSealedCommit) :
    Preserves (Within K) (opportunityAttacks rules token commit) := by
  have hattack : ∀ opponent, Preserves (Within K) (opportunityAttack rules token commit opponent) :=
    fun opponent => preserves_get.bind (fun s => (preserves_pure _).ite
      ((preserves_pure _).ite
        (within_resolveOpponentReprisal hclerical hmortal hpatch hstatus rules _ _ _ _)))
  exact preserves_get.bind (fun s => (preserves_forM hattack _).ite (preserves_pure _))

omit hmortal hpatch in
theorem within_emitPlayerBeatResolutionClose (application : PlayerBeatApplication)
    (source : String) : Preserves (Within K) (emitPlayerBeatResolutionClose application source) :=
  (preserves_modify (fun s => within_publish s (hclerical _ rfl))).onlyIf

omit hclerical hmortal hpatch in
theorem within_tellRefusal (token : String) (refusal : Option (String × String)) :
    Preserves (Within K) (tellRefusal token refusal) := by
  unfold tellRefusal
  split
  · exact preserves_modify (fun s => within_hint s (fun _ => rfl))
  · exact preserves_pure _

end Operations

/-! ### Drinks -/

/-- What a drink leaves alone: all but the hit points of the creature that drinks. -/
structure Drunk (target : CoreRef) (s s' : GameSnapshot) : Prop where
  cast : s'.cast = s.cast
  playerSeats : s'.playerSeats = s.playerSeats
  encounter : s'.encounter = s.encounter
  others : ∀ ref, ref ≠ target → s'.cores ref = s.cores ref
  sheet : (s.cores target).SameSheet (s'.cores target)
  events : ∃ new, s'.events = s.events ++ new ∧
    ∀ event ∈ new, ∃ delta current maximum source,
      event = .hpPatched target delta current maximum source

theorem Drunk.refl (target : CoreRef) (s : GameSnapshot) : Drunk target s s :=
  ⟨rfl, rfl, rfl, fun _ _ => rfl, .refl _, [], (List.append_nil _).symm, by simp⟩

/-- A draught changes the hit points of its drinker. -/
theorem drunk_applyConsumableHeal (target : CoreRef) (item : Item) :
    Preserves (Drunk target) (applyConsumableHeal target item) := by
  intro s
  unfold applyConsumableHeal
  split
  · rename_i spec _
    rw [Effect.exec_bind]
    obtain ⟨rng, hrng⟩ := onlyDice_roll spec s
    rcases hroll : spec.roll.exec s with ⟨e | rolled, t⟩
    · rw [hroll] at hrng
      subst hrng
      exact ⟨rfl, rfl, rfl, fun _ _ => rfl, .refl _, [], (List.append_nil _).symm, by simp⟩
    · rw [hroll] at hrng
      subst hrng
      refine ⟨rfl, rfl, rfl, fun ref href => ?_, ?_, _, rfl, ?_⟩
      · exact Function.update_of_ne href _ _
      · show (s.cores target).SameSheet (Function.update s.cores target _ target)
        rw [Function.update_self]
        exact ⟨rfl, rfl, rfl, rfl, rfl, rfl, rfl⟩
      · intro event hevent
        exact ⟨_, _, _, _, List.mem_singleton.mp hevent⟩
  · exact .refl target s
  · exact .refl target s
  · exact .refl target s

end Sidequest.Combat
