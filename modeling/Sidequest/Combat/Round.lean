import Sidequest.Combat.Rules

namespace Sidequest.Combat

open Lib
open Fate (ActorSide Cast CoreRef EncounterActor)

/-!
# The sealed round

Every seated PC seals one Main Action; when the last of them has, the round walks the initiative
order and resolves what was sealed.

* `runCwnWwnDownedSeam` — the seam every damage path runs: it derives the downed actor anew and
  declares the Mortal Injury, with a Major Injury where a Traumatic Hit landed in the scene;
* `sealWnCommit`, `wnWaitingActors`, `wnBarrierClosed` — the ledger and its barrier;
* `SlotAction`, `slotAction` — what a slot comes to, by the state it finds;
* `takeSlot` — one slot, and `runWnRound` the walk.
-/

section Rounds

section Targets

variable (s : GameSnapshot) (rules : Rules) (encounterType : String) (target : CoreRef)

namespace GameSnapshot

/-- Give a creature a status. -/
def addStatus (status : Status) : GameSnapshot :=
  s.modifyCore target (fun core => { core with statuses := core.statuses ++ [status] })

/-- Somebody on the side has not withdrawn and is above 0 HP. -/
def hasLiveHostileOnSide (hostileSide : ActorSide) : Bool :=
  s.encounter.actors.any (fun actor =>
    actor.side = hostileSide && !actor.withdrawn && (s.hp actor.name).any (fun hp => 0 < hp))

/-- The actor the seam works on: the primary actor of the other side, if it is down. -/
def seamVictim (actorSide : ActorSide) : Option (String × CoreRef) :=
  if rules.lethal then
    (s.encounter.oppositeSideFirstActor actorSide).bind fun name =>
      (s.cast.findCreatureCore name).bind fun ref =>
        if (s.cores ref).down then some (name, ref) else none
  else none

/-- The number a downed actor's Physical save has to reach: from the stat block of a PC, else from
    the ability scores the confrontation gives its opponents. -/
def physicalSaveTargetFor (name : String) (ref : CoreRef) : Except DispatchError Int := do
  let core := s.cores ref
  let stats := if name ∈ s.cast.characters then core.stats
    else rules.opponentAbilityScores.getD []
  if name ∉ s.cast.characters ∧ stats = [] then throw (.noAbilityScores name)
  else do
    let params ← rules.saveParams stats rules.majorInjurySave
      (if core.level = 0 then 1 else core.level)
    pure params.difficulty

end GameSnapshot

/-! ### The downed seam -/

/-- The status of a Mortal Injury. -/
def mortalInjury (dyingWindow : Bool) : Status :=
  { text := "Mortal Injury — dies in " ++ toString rules.mortalInjuryRounds
      ++ " rounds unless stabilized"
    createdInEncounter := some encounterType
    incapacitating := dyingWindow
    stabilizable := dyingWindow }

/-- Roll the Physical save of a traumatic scene, and the Major Injury of a failed one. -/
def rollMajorInjury (saveTarget : Int) : CombatM PUnit := do
  let saveRoll ← rollDie 20
  if saveTarget ≤ saveRoll then modify (·.publish (.majorInjuryRoll target true))
  else do
    let injury ← rollDie 12
    modify fun s => (s.addStatus target
      { text := "Major Injury — " ++ rules.majorInjuryEntry injury
        createdInEncounter := some encounterType }).publish (.majorInjuryRoll target false)

/-- Resolve a creature dropped to 0 HP. A terminal verdict supersedes the status, not the
    declaration. -/
def resolveDowned (saveTarget : Int) (sceneTraumatic superseded dyingWindow : Bool) :
    CombatM PUnit := do
  modify fun s =>
    (if superseded then s else s.addStatus target (mortalInjury rules encounterType dyingWindow))
      |>.publish (.mortalInjuryDeclared target superseded)
  onlyIf sceneTraumatic (rollMajorInjury rules encounterType target saveTarget)

/-- The downed seam: the dying window opens for an actor without a terminal verdict that nobody on
    the acting side threatens. -/
def runCwnWwnDownedSeam (actorSide : ActorSide) : CombatM PUnit := do
  let s ← get
  match s.seamVictim rules actorSide with
  | none => pure ⟨⟩
  | some (name, ref) => do
    let saveTarget ← ofExcept (s.physicalSaveTargetFor rules name ref)
    let superseded := (s.cores ref).incapacitated
    let openWindow := !superseded && !s.hasLiveHostileOnSide actorSide
    resolveDowned rules s.encounter.encounterType ref saveTarget
      ("Traumatic Hit Landed" ∈ s.encounter.tags) superseded openWindow
    onlyIf openWindow (modify (·.publish (.dyingWindowOpened name)))

/-! ### The genre's verdict -/

variable (verdict : String)

/-- The verdicts that take a PC out of play. -/
def isLethalVerdict : Bool := verdict ∈ ["dead", "dying"]

/-- The text begins with the prefix. -/
def startsWith (lead text : String) : Bool := lead.toList.isPrefixOf text.toList

/-- The verdict was already applied in this encounter. -/
def CreatureCore.alreadyHandled (core : CreatureCore) (encounterType : String) : Bool :=
  core.statuses.any (fun status => status.createdInEncounter = some encounterType &&
    (startsWith "Recovering" status.text || startsWith "Downed" status.text))

namespace GameSnapshot

/-- A PC this encounter took to 0 HP and that no verdict has reached yet. -/
def isCasualty (i : Nat) : Bool :=
  let core := s.cores (.character i)
  s.cast.characters[i]?.any (fun name =>
      s.encounter.actors.any (fun actor => actor.side = .player && actor.name = name))
    && core.down && !core.alreadyHandled s.encounter.encounterType

/-- Apply the verdict to a PC: a lethal one marks it as out of play, any other brings it back to
    1 HP. -/
def applyVerdict (i : Nat) : GameSnapshot :=
  let ref := CoreRef.character i
  let encounterType := some s.encounter.encounterType
  if s.isCasualty i then
    if isLethalVerdict verdict then
      let text := "Downed — " ++ verdict ++ " (mortally wounded)"
      (s.addStatus ref
        { text := text, createdInEncounter := encounterType, incapacitating := true }).publish
        (.statusAdded ref text)
    else
      let text := "Recovering — " ++ verdict ++ "; " ++ rules.defaultReversibility
      ((s.modifyCore ref (fun core => { core with hp := { core.hp with current := 1 } })).addStatus
        ref { text := text, createdInEncounter := encounterType }).publish (.statusAdded ref text)
  else s

/-- The PCs a lethal verdict takes out of play. -/
def incapacitations : List Nat :=
  if isLethalVerdict verdict then (List.range s.cast.characters.length).filter s.isCasualty else []

/-- A seated PC of the player side is above 0 HP. -/
def anyPlayerSideStanding : Bool :=
  s.cast.characters.zipIdx.any (fun character =>
    s.encounter.actors.any (fun actor => actor.side = .player && actor.name = character.1)
      && !(s.cores (.character character.2)).down)

/-- Set the death flag, and say so for each PC the verdict took out. -/
def flagPlayerDead (fallen : List Nat) : GameSnapshot :=
  if fallen ≠ [] ∧ s.anyPlayerSideStanding = false then
    { s with
      playerDead := true
      events := s.events ++ fallen.map (fun i => .playerDead (.character i)) }
  else s

/-- The genre's verdict on every PC left at 0 HP, once the fight is lost. -/
def applyPostResolutionLethality : GameSnapshot :=
  if s.encounter.resolved ∧ s.encounter.outcome ∈
      [some "opponent_victory", some "mutual_destruction"] then
    match rules.verdictOnZeroHp with
    | none => s
    | some verdict =>
      ((List.range s.cast.characters.length).foldl
          (fun s i => s.applyVerdict rules verdict i) s).flagPlayerDead
        (s.incapacitations verdict)
  else s

end GameSnapshot

end Targets

/-! ### The attack -/

variable (rules : Rules) (s : GameSnapshot)

section

/-- Add up the Armor Class bonus and the Shock immunity of the target's sealed action. -/
def defensivePosture (defenderCommit : Option WnSealedCommit) : Int × Bool :=
  match defenderCommit with
  | some commit => if commit.beatId = "total_defense" then (2, true) else (0, false)
  | none => (0, false)

/-- The beat an opponent attacks with: the first strike of the confrontation, else the synthesized
    attack. -/
def Rules.opponentBeat : BeatDef :=
  (rules.beats.find? BeatDef.strike).getD (wnActionBeat "attack")

/-- The damage of an opponent: what the confrontation authors, else what its weapon does. -/
def Rules.opponentSpec (attacker : String) : DamageSpec :=
  rules.opponentDamage.getD (rules.resolveDamage rules.opponentBeat (s.findCreatureCore attacker))

/-- Damage without mitigation. -/
def landDamage (target : CoreRef) (damage : Int) (source : String) : CombatM PUnit :=
  modify fun s => (s.applyBeatHpChannel target damage 0 source).2

/-- Close a reprisal that did damage. The verdict comes before the seam, so that a PC it brings
    back to 1 HP takes no Mortal Injury. -/
def closeReprisalDepletion : CombatM PUnit := do
  modify fun s => s.checkHpDepletion.2.applyPostResolutionLethality rules
  runCwnWwnDownedSeam rules .opponent

/-- The opponent's to-hit roll against an Armor Class. -/
def resolveOpponentAttack (d20 targetAc : Int) : Except DispatchError (Int × Bool) := do
  let modifier ← statModifier (rules.opponentAbilityScores.getD [])
    rules.opponentBeat.statCheck
  let total := d20 + rules.opponentBeat.attackBonus + rules.opponentBeat.combatSkill + modifier
  pure (total, targetAc ≤ total)

/-- The damage of an attack: the weapon's on a hit, Shock on a miss, none for a target that is
    immune to it. -/
def reprisalDamage (spec : DamageSpec) (targetMeleeAc : Int) (hit shockImmune : Bool) :
    CombatM Int :=
  if hit then do
    let faces ← generateServerFaces spec
    pure (reprisalTotal spec faces)
  else pure (if shockImmune then 0 else Rules.resolveShock spec targetMeleeAc)

/-- The dice of an opponent's attack on a player: the creature that its blow strikes, the damage and
    the label; or none for a clean miss, or without ability scores for the opponent or a creature
    behind the player's name. The table is shown the roll to hit, whose target must be at least 1. -/
def reprisalRoll (playerName attacker : String) (defenderCommit : Option WnSealedCommit)
    (source : String) : CombatM (Option (CoreRef × Int × String)) := do
  let s ← get
  match s.cast.findCreatureCore playerName with
  | none => pure none
  | some target =>
    if rules.opponentAbilityScores.getD [] = [] then pure none else do
    let (acBonus, shockImmune) := defensivePosture defenderCommit
    let targetAc := (s.cores target).armorClass + acBonus
    let d20 ← rollDie 20
    let (total, hit) ← ofExcept (resolveOpponentAttack rules d20 targetAc)
    modify (·.publish (.opponentAttackResolved attacker playerName total targetAc hit source))
    if targetAc < 1 then throw (.difficultyBelowOne targetAc) else do
    let damage ← reprisalDamage (rules.opponentSpec s attacker) (s.cores target).armorClass hit
      shockImmune
    pure (if hit || 0 < damage then
      some (target, damage,
        rules.opponentBeat.id ++ if hit then ":opponent_attack" else ":opponent_shock")
    else none)

/-- What follows the dice of an attack. -/
def landBlow : Option (CoreRef × Int × String) → CombatM PUnit
  | none => pure ⟨⟩
  | some (target, damage, label) => do
    landDamage target damage label
    closeReprisalDepletion rules

/-- An opponent attacks a player. -/
def resolveOpponentReprisal (playerName attacker : String) (defenderCommit : Option WnSealedCommit)
    (source : String) : CombatM PUnit := do
  let blow ← reprisalRoll rules playerName attacker defenderCommit source
  landBlow rules blow

end

/-- A beat as its player committed it. -/
structure Commitment where
  beat : BeatDef
  outcome : RollOutcome
  spellId : Option String := none
  mutationId : Option String := none

/-! ### Strikes -/

variable (actor : EncounterActor) (name : String) (side : ActorSide)

namespace GameSnapshot

/-- The creature of the primary target on the other side. -/
def primaryTarget : Option CoreRef :=
  (s.encounter.oppositeSideFirstActor side).bind s.cast.findCreatureCore

/-- Flag the scene as traumatic. -/
def tagTraumaticHit : GameSnapshot :=
  s.modifyEncounter (fun encounter =>
    if "Traumatic Hit Landed" ∈ encounter.tags then encounter
    else { encounter with tags := encounter.tags ++ ["Traumatic Hit Landed"] })

end GameSnapshot

/-- The level of a creature; without a creature it is 1. -/
def CreatureCore.levelOrOne (core : Option CreatureCore) : Int :=
  match core with
  | some core => core.level
  | none => 1

variable (beat : BeatDef)

/-- Roll the damage of a hit: the weapon, its Trauma Die, and the Killing Blow of a warrior. -/
def strikeDamage : CombatM Int := do
  let s ← get
  let core := s.findCreatureCore name
  let spec := rules.resolveDamage beat core
  let faces ← generateServerFaces spec
  let (total, traumatic) ← rules.resolveTrauma spec (strikeTotal spec faces)
  onlyIf traumatic (modify GameSnapshot.tagTraumaticHit)
  match core with
  | some core =>
    if rules.isWwnWarrior s name then pure (rules.applyKillingBlow total core.level)
    else pure total
  | none => pure total

namespace GameSnapshot

/-- The Shock of a miss against a creature, with the Killing Blow of a warrior. -/
def shockDamage (rules : Rules) (name : String) (beat : BeatDef) (target : CoreRef) : Int :=
  let core := s.findCreatureCore name
  let chip := Rules.resolveShock (rules.resolveDamage beat core) (s.cores target).armorClass
  if 0 < chip ∧ rules.isWwnWarrior s name then
    rules.applyKillingBlow chip (CreatureCore.levelOrOne core)
  else chip

/-- Chip the primary target on a miss. -/
def shockChip (rules : Rules) (name : String) (side : ActorSide) (beat : BeatDef) :
    Int × GameSnapshot :=
  match s.primaryTarget side with
  | none => (0, s)
  | some target =>
    s.applyBeatHpChannel target (s.shockDamage rules name beat target) (0) (beat.id ++ ":shock")

/-- The flat mitigation of a target: the beat's own, else that of its first armor. -/
def targetMitigation (core : CreatureCore) : Int :=
  beat.mitigationOverride.getD ((core.items.findSome? Item.mitigation).getD 0)

/-- Land a strike on the primary target. -/
def landStrike (damage : Int) : Int × GameSnapshot :=
  match s.primaryTarget side with
  | none => (0, s)
  | some target =>
    s.applyBeatHpChannel target damage (targetMitigation beat (s.cores target)) beat.id

/-- Land the damage that was rolled, if any was. -/
def landRolled (damage : Option Int) : Int × GameSnapshot :=
  match damage with
  | some total => s.landStrike side beat total
  | none => (0, s)

/-- A beat that ends fights, when it succeeds, ends this one. -/
def resolutionBeatExit (s : GameSnapshot) (actor : String) (beat : BeatDef)
    (outcome : RollOutcome) : GameSnapshot :=
  if s.encounter.resolved = false ∧ beat.resolution ∧ outcome.succeeded then
    (s.modifyEncounter (fun encounter => encounter.resolve ("resolution_beat:" ++ beat.id))).publish
      (.resolutionBeatExit actor beat.id)
  else s

/-- The Without-Number core of an application: the rolled damage of a strike, the win check, and
    the voluntary exit. -/
def resolveWnCommittedAction (outcome : RollOutcome) (damage : Option Int) : Int × GameSnapshot :=
  let struck := s.landRolled actor.side beat damage
  (struck.1, struck.2.checkHpDepletion.2.resolutionBeatExit actor.name beat outcome)

end GameSnapshot

/-! ### Casts -/

/-- The defender's save against a spell; without a defender or its stats there is none. -/
def spellSave (spell : Spell) (target : Option (String × CoreRef)) : CombatM Bool :=
  let stats := target.bind fun (name, ref) =>
    if name ∈ s.cast.characters then some (s.cores ref).stats else rules.opponentAbilityScores
  match spell.save, target, stats with
  | some save, some (_, ref), some stats => do
    let params ← ofExcept (rules.saveParams stats save (s.cores ref).level)
    let roll ← rollDie 20
    pure (params.difficulty ≤ roll + params.modifier)
  | _, _, _ => pure false

/-- Roll the damage of a spell, halved by a save that was made. Its die is checked here only. -/
def spellDamage (spell : Spell) (casterLevel : Int) (saveMade : Bool) : CombatM Int :=
  match spell.damageDie with
  | none => pure 0
  | some .malformed => throw .malformedSpellDie
  | some (.dice count faces) => do
    let spec ← ofExcept (damageDice (if spell.damagePerLevel then casterLevel else count) faces)
    let damage ← spec.roll
    pure (if saveMade then damage / 2 else damage)

/-- The cast is refused: none left, not prepared, or too high a level. -/
def SpellcastingState.refuses (state : SpellcastingState) (spellId : String) (spell : Spell) :
    Bool :=
  state.castsRemaining ≤ 0 || spellId ∉ state.prepared || state.maxSpellLevel < spell.level

/-- Cast: spend one cast, let the defender save, and roll the damage. A refusal spends nothing. -/
def resolveSpellcast (caster : CoreRef) (casterName spellId : String) (spell : Spell)
    (target : Option (String × CoreRef)) : CombatM Int := do
  let s ← get
  match (s.cores caster).spellcasting with
  | none => throw (.noSpellcastingState casterName)
  | some state =>
    if state.refuses spellId spell then do
      modify (·.publish (.spellCast casterName spellId true))
      pure 0
    else do
      modify (·.modifyCore caster (fun core => { core with
        spellcasting := some { state with castsRemaining := state.castsRemaining - 1 } }))
      let saveMade ← spellSave rules s spell target
      let damage ← spellDamage spell (s.cores caster).level saveMade
      modify (·.publish (.spellCast casterName spellId false))
      pure damage

/-- The cast spine: the spell's damage on the primary target, the downed seam and the win check. -/
def resolveWwnCastForBeat (spellId : Option String) : CombatM PUnit := do
  let s ← get
  match spellId, rules.spellCatalog, s.cast.findCreatureCore actor.name with
  | some spellId, some catalog, some caster =>
    match catalog spellId with
    | none => pure ⟨⟩
    | some spell => do
      let target := (s.encounter.oppositeSideFirstActor actor.side).bind fun name =>
        (s.cast.findCreatureCore name).map fun ref => (name, ref)
      let damage ← resolveSpellcast rules caster actor.name spellId spell target
      match target with
      | some (_, ref) =>
        onlyIf (0 < damage) do
          landDamage ref damage ("cast_spell:" ++ spellId)
          runCwnWwnDownedSeam rules actor.side
          modify fun s => s.checkHpDepletion.2
      | none => pure ⟨⟩
  | _, _, _ => pure ⟨⟩

/-! ### Mutations -/

/-- The mutation spine. What is returned is a refusal. -/
def resolveMutationForBeat (mutationId : Option String) : CombatM (Option (String × String)) := do
  modify (·.modifyEncounter (·.dropStaleNegatedSaveHints actor.name))
  let s ← get
  let use : MutationUse := ⟨actor.name, s.encounter.oppositeSideFirstActor actor.side, mutationId⟩
  set { s with mutationUses := s.mutationUses ++ [use] }
  match rules.useMutation s.mutationUses use with
  | .applied => pure none
  | .refused mutationId reason => do
    modify (·.publish (.mutationRefused actor.name mutationId reason))
    pure (some (mutationId, reason))
  | .saved rest => do
    modify (·.hint (.negatedSave actor.name rest))
    pure none

/-! ### The application -/

/-- What an application did. -/
structure PlayerBeatApplication where
  (strikeHpRemoved shockHpRemoved : Int)
  encounterResolved : Bool
  mutationRefusal : Option (String × String)

variable (actor : EncounterActor) (commitment : Commitment)

/-- The damage of a beat, and the hit points a chip removed: a strike that hit rolls, one that
    missed may chip. -/
def beatDamage : CombatM (Option Int × Int) :=
  if commitment.beat.strike then
    if commitment.outcome.missed then do
      let s ← get
      let chip := s.shockChip rules name actor.side commitment.beat
      set chip.2
      pure (none, chip.1)
    else do
      let damage ← strikeDamage rules name commitment.beat
      pure (some damage, 0)
  else pure (none, 0)

/-- Route a mutation beat to its spine. -/
def routeMutation : CombatM (Option (String × String)) :=
  if rules.isAwnMutationBeat commitment.beat then
    resolveMutationForBeat rules actor commitment.mutationId
  else pure none

/-- The effects of a player's resolved beat: damage, win check, downed seam, and the cast or
    mutation it routes to. What is returned are the hit points removed, and a refusal. -/
def carryOutBeat : CombatM (Int × Int × Option (String × String)) := do
  modify (·.modifyEncounter (·.dropStaleNegatedSaveHints actor.name))
  let (damage, shockHpRemoved) ← beatDamage rules name actor commitment
  let s ← get
  let struck := s.resolveWnCommittedAction actor commitment.beat commitment.outcome damage
  set struck.2
  runCwnWwnDownedSeam rules actor.side
  onlyIf (rules.isWwnCast commitment.beat.id)
    (resolveWwnCastForBeat rules actor commitment.spellId)
  let refusal ← routeMutation rules actor commitment
  pure (struck.1, shockHpRemoved, refusal)

/-- Apply one player's resolved beat. -/
def applyCommittedPlayerBeat : CombatM PlayerBeatApplication := do
  let (strikeHpRemoved, shockHpRemoved, refusal) ← carryOutBeat rules name actor commitment
  modify (·.publish (.beatApplied name commitment.beat.id (strikeHpRemoved + shockHpRemoved)))
  let s ← get
  pure ⟨strikeHpRemoved, shockHpRemoved, s.encounter.resolved, refusal⟩

/-- Say that a beat closed the fight. -/
def emitPlayerBeatResolutionClose (application : PlayerBeatApplication) (source : String) :
    CombatM PUnit :=
  onlyIf application.encounterResolved
    (modify fun s => s.publish (.encounterResolved (s.encounter.outcome.getD "") source))

end Rounds

/-! ### The ledger -/

variable (s : GameSnapshot) (rules : Rules) (commits : String → Option WnSealedCommit)
  (token : String) (actor : EncounterActor) (commit : WnSealedCommit) (name : String)

namespace GameSnapshot

/-- The actor has sealed an action. -/
def committed : Bool :=
  s.encounter.wnCommits.any (fun commit => commit.actor = name)

/-- The creature behind a name is at 0 HP. A name without a creature is not. -/
def isDown : Bool :=
  (s.findCreatureCore name).any CreatureCore.down

/-- The barrier waits on the seat: a PC's, on the player side, not withdrawn, without a commit and
    not down. -/
def waitsOn : Bool :=
  actor.side = .player && !actor.withdrawn && !s.committed actor.name
    && actor.name ∈ s.cast.characters && !s.isDown actor.name

/-- The PCs the barrier is waiting on. -/
def wnWaitingActors : List String :=
  (s.encounter.actors.filter s.waitsOn).map EncounterActor.name

/-- Every live seated PC has committed. -/
def wnBarrierClosed : Bool := s.wnWaitingActors = []

/-- The player-side allies the barrier does not wait on. -/
def wnBarrierExemptAllies : List String :=
  (s.encounter.actors.filter (fun actor => actor.side = .player && !actor.withdrawn
    && actor.name ∉ s.cast.characters)).map EncounterActor.name

/-- The first actor of a side that has not withdrawn and is not down. -/
def firstLiveActor (side : ActorSide) : Option String :=
  (s.encounter.actors.find? (fun actor =>
    actor.side = side && !actor.withdrawn && !s.isDown actor.name)).map EncounterActor.name

/-- The commit of an actor; of several the last. -/
def commitOf : Option WnSealedCommit :=
  lastBy WnSealedCommit.actor s.encounter.wnCommits name

end GameSnapshot

/-- The premise of a commit: none for a drink, else the primary target of the moment. -/
def StructuredEncounter.premise (encounter : StructuredEncounter) (actor : EncounterActor)
    (beatId : String) : Option String :=
  if isItemUseBeat beatId then none else encounter.oppositeSideFirstActor actor.side

/-- Seal one player's Main Action. -/
def sealWnCommit (beatId : String) (outcome : RollOutcome) (spellId mutationId : Option String) :
    CombatM PUnit := do
  let s ← get
  if s.committed actor.name then throw (.alreadyCommitted actor.name) else do
  let target := s.encounter.premise actor beatId
  modify fun s => (s.modifyEncounter (fun encounter => { encounter with
      wnCommits := encounter.wnCommits ++
        [⟨actor.name, beatId, outcome, target, spellId, mutationId⟩] })).publish
    (.commitSealed actor.name beatId target)

/-! ### Items -/

namespace GameSnapshot

/-- The item that a beat uses: an item of the PC that heals and has the beat's slug. -/
def usableItem (ref : CoreRef) (beatId : String) : Option Nat :=
  (s.cores ref).items.findIdx? (fun item =>
    itemSlug item.name = itemUseSlug beatId && item.consumable && item.heal ≠ .absent)

/-- Find the PC and the carried item of an item-use beat. -/
def resolveItemUse (beatId : String) : Except DispatchError (CoreRef × Nat) :=
  match s.cast.characters.findIdx? (fun character => character = name) with
  | none => throw (.notASeatedPc beatId name)
  | some i =>
    match s.usableItem (.character i) beatId with
    | none => throw (.itemNotCarried beatId name)
    | some index => pure (.character i, index)

end GameSnapshot

variable (target : CoreRef)

/-- Roll what an item heals. An expression that does not parse heals nothing; one that parses into
    dice no spec allows raises. -/
def applyConsumableHeal (item : Item) : CombatM Int :=
  match item.heal with
  | .dice spec => do
    let rolled ← spec.roll
    let s ← get
    let pool := (s.cores target).hp.applyDelta rolled
    let delta := pool.current - (s.cores target).hp.current
    set ((s.modifyCore target (fun core => { core with hp := pool })).publish
      (.hpPatched target delta pool.current pool.max "consumable_heal"))
    pure delta
  | .unsupported => throw (.unsupportedDice item.name)
  | .malformed => pure 0
  | .absent => pure 0

/-- Take a used item out of the inventory, and say so. -/
def GameSnapshot.consumeItem (index : Nat) (item : Item) (healed : Int) : GameSnapshot :=
  let s := (s.modifyCore target
      (fun core => { core with items := core.items.eraseIdx index })).publish
    (.itemUsed name item.name healed)
  s.hint (.itemUsed name item.name healed (s.cores target).hp.current (s.cores target).hp.max)

/-- Heal by an item, and consume it. -/
def applyItemUse (index : Nat) : CombatM PUnit := do
  let s ← get
  let item := (s.cores target).items[index]?.getD {}
  let healed ← applyConsumableHeal target item
  modify (·.consumeItem name target index item healed)

/-! ### Slots -/

/-- What a slot comes to. -/
inductive SlotAction where
  | tokenNotSeated
  | actorDowned (actor : EncounterActor)
  | withdrawn
  | opponentAfterEnd
  | noLivePlayerTarget
  | opponentAttack (target : String)
  | neutral
  | noSealedCommit
  | deadPremise (commit : WnSealedCommit) (target : String)
  | fightOver (commit : WnSealedCommit)
  | useItem (commit : WnSealedCommit)
  | nonoffensive (commit : WnSealedCommit)
  | applyBeat (commit : WnSealedCommit) (actor : EncounterActor)

namespace GameSnapshot

/-- What the slot of a player with a commit comes to. -/
def commitAction : SlotAction :=
  match commit.target.filter (fun target => target ≠ "" && s.isDown target) with
  | some target => .deadPremise commit target
  | none =>
    if s.encounter.resolved then .fightOver commit
    else if isItemUseBeat commit.beatId then .useItem commit
    else if isWnNonoffensiveAction commit.beatId then .nonoffensive commit
    else .applyBeat commit actor

/-- What the slot of an actor who is seated, up and in the fight comes to. -/
def standingAction (token : String) : SlotAction :=
  match actor.side with
  | .opponent =>
    if s.encounter.resolved then .opponentAfterEnd
    else match s.firstLiveActor .player with
      | none => .noLivePlayerTarget
      | some target => .opponentAttack target
  | .neutral => .neutral
  | .player =>
    match commits token with
    | none => .noSealedCommit
    | some commit => s.commitAction actor commit

/-- What a slot comes to. Every guard reads the state the slot finds. -/
def slotAction : SlotAction :=
  match s.encounter.findActor token with
  | none => .tokenNotSeated
  | some actor =>
    if s.isDown token then .actorDowned actor
    else if actor.withdrawn then .withdrawn
    else s.standingAction commits actor token

/-- Pass over an actor at 0 HP; a player's commit is said not to have resolved. -/
def skipDowned (commit : Option WnSealedCommit) : GameSnapshot :=
  let s := s.publish (.slotSkippedDowned token ((commit.map WnSealedCommit.beatId).getD ""))
  match commit with
  | some commit =>
    if actor.side = .player then
      s.hint (.actorDowned token commit.beatId s.encounter.resolved)
    else s
  | none => s

/-- The seat leaves the melee. -/
def withdrawActor : GameSnapshot :=
  s.modifyEncounter (fun encounter => { encounter with
    actors := updateFirst (fun actor => actor.name = name)
      (fun actor => { actor with withdrawn := true }) encounter.actors })

end GameSnapshot

/-- One opponent's free attack on a player who runs. None is made once the fight is over or the
    runner is down. -/
def opportunityAttack (fleer : String) (commit : WnSealedCommit) (opponent : EncounterActor) :
    CombatM PUnit := do
  let s ← get
  if s.encounter.resolved || s.isDown fleer then pure ⟨⟩
  else if opponent.side ≠ .opponent || opponent.withdrawn || s.isDown opponent.name then pure ⟨⟩
  else resolveOpponentReprisal rules fleer opponent.name (some commit) "opportunity_attack"

/-- The free attacks a Run provokes. -/
def opportunityAttacks : CombatM PUnit := do
  let s ← get
  if commit.beatId = "run" then
    s.encounter.actors.forM (opportunityAttack rules token commit)
  else pure ⟨⟩

/-- A non-offensive action: a Run provokes the opponents, and a Run or a Fighting Withdrawal leaves
    the melee. -/
def resolveNonoffensive : CombatM PUnit := do
  opportunityAttacks rules token commit
  modify fun s => if isWnFleeAction commit.beatId then s.withdrawActor token else s
  modify fun s => (s.hint (.nonoffensive token commit.beatId)).publish
    (.nonoffensiveAction token commit.beatId (isWnFleeAction commit.beatId))

/-- Tell the narrator of a mutation that was refused. -/
def tellRefusal (refusal : Option (String × String)) : CombatM PUnit :=
  match refusal with
  | some (mutationId, reason) => modify (·.hint (.mutationRefused token mutationId reason))
  | none => pure ⟨⟩

/-- Apply a player's committed beat at its slot. -/
def resolveCommittedBeat : CombatM PUnit :=
  match rules.findBeat commit.beatId with
  | none => throw (.unknownBeat commit.beatId)
  | some beat => do
    let application ← applyCommittedPlayerBeat rules token actor
      ⟨beat, commit.outcome, commit.spellId, commit.mutationId⟩
    tellRefusal token application.mutationRefusal
    emitPlayerBeatResolutionClose application "wn_round"

/-- Use the item of a committed drink. -/
def resolveCommittedItem : CombatM PUnit := do
  let s ← get
  let (target, index) ← ofExcept (s.resolveItemUse token commit.beatId)
  applyItemUse token target index

/-- Carry out what a slot comes to. -/
def perform : SlotAction → CombatM PUnit
  | .tokenNotSeated => pure ⟨⟩
  | .actorDowned actor => modify (·.skipDowned token actor (commits token))
  | .withdrawn => pure ⟨⟩
  | .opponentAfterEnd => pure ⟨⟩
  | .noLivePlayerTarget => pure ⟨⟩
  | .opponentAttack target =>
    resolveOpponentReprisal rules target token (commits target) "opponent_reprisal"
  | .neutral => pure ⟨⟩
  | .noSealedCommit => pure ⟨⟩
  | .deadPremise commit target => modify fun s =>
    (s.hint (.deadPremise token target)).publish (.deadPremise token target commit.beatId)
  | .fightOver commit => modify fun s =>
    (s.publish (.slotSkippedEncounterResolved token commit.beatId)).hint
      (.fightOver token commit.beatId s.encounter.outcome)
  | .useItem commit => resolveCommittedItem token commit
  | .nonoffensive commit => resolveNonoffensive rules token commit
  | .applyBeat commit actor => resolveCommittedBeat rules token actor commit

/-- One slot of the walk. -/
def takeSlot (entry : InitiativeEntry) : CombatM PUnit := do
  let s ← get
  perform rules commits entry.tokenId (s.slotAction commits entry.tokenId)

/-! ### The walk -/

/-- The slots of a round, best initiative first. -/
def GameSnapshot.roundOrder : List InitiativeEntry :=
  s.encounter.initiative.insertionSort (fun a b => b.value ≤ a.value)

/-- Walk the slots of a round. -/
def walk (order : List InitiativeEntry) : CombatM PUnit :=
  order.forM (takeSlot rules commits)

/-- The spans a round begins with. -/
def GameSnapshot.announceRound : GameSnapshot :=
  (s.publish (.roundCommitted (s.encounter.wnCommits.map WnSealedCommit.actor)
    s.wnBarrierExemptAllies)).publish
    (.roundInitiative (s.roundOrder.map InitiativeEntry.tokenId))

/-- The ledger is emptied. -/
def GameSnapshot.clearCommits : GameSnapshot :=
  s.modifyEncounter (fun encounter => { encounter with wnCommits := [] })

/-- Resolve one sealed round. What is returned is the order that was walked. -/
def runWnRound : CombatM (List String) := do
  let s ← get
  let walked := s.roundOrder.map InitiativeEntry.tokenId
  set s.announceRound
  walk rules s.commitOf s.roundOrder
  modify GameSnapshot.clearCommits
  modify (·.publish (.roundResolved walked))
  pure walked

end Sidequest.Combat
