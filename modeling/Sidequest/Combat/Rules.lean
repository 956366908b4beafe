import Sidequest.Fate.Encounter
import Sidequest.Lib.Draws
import Sidequest.Protocol.Sanitized

namespace Sidequest.Combat

open Lib
open Fate (ActorSide Cast CoreRef EncounterActor)
open Protocol (sanitizePlayerText)

/-!
# The rules of a fight

* `CreatureCore`, `HpPool` — the mutable part of a creature;
* `Rules` — the content and the module a fight is bound to;
* `applyBeatHpChannel` — damage, after flat mitigation;
* `hpDepletion` — which side has nobody standing, for any seats and any resolver of hit points;
* `checkHpDepletion` — the win check on the snapshot.
-/

section

/-! ### Creatures -/

/-- The outcome tier of a check. -/
inductive RollOutcome where
  | critSuccess
  | success
  | tie
  | fail
  | critFail
  | unknown
deriving DecidableEq

/-- A `Fail` or a `CritFail`. -/
def RollOutcome.missed (outcome : RollOutcome) : Bool := outcome = .fail || outcome = .critFail

/-- A `Success` or a `CritSuccess`. -/
def RollOutcome.succeeded (outcome : RollOutcome) : Bool :=
  outcome = .success || outcome = .critSuccess

/-- The damage of a weapon, its `NdM` dice parsed. -/
structure DamageSpec where
  (count faces : Nat)
  bonus : Int := 0
  traumaDie : Option (Nat × Nat) := none
  traumaRating : Int := 1
  traumaTarget : Option Int := none
  shock : Int := 0
  shockAc : Option Int := none
deriving DecidableEq

/-- What an item heals: nothing, an expression that does not parse, dice that no spec allows, or
    dice. -/
inductive HealAmount where
  | absent
  | malformed
  | unsupported
  | dice (spec : DamageSpec)
deriving DecidableEq

/-- A carried item. -/
structure Item where
  id : Option String := none
  name : String := ""
  consumable : Bool := false
  heal : HealAmount := .absent
  damage : Option DamageSpec := none
  mitigation : Option Int := none

/-- A status of a creature. -/
structure Status where
  text : String
  createdInEncounter : Option String := none
  incapacitating : Bool := false
  stabilizable : Bool := false

/-- Hit points. -/
structure HpPool where
  (current max : Int)

/-- Add to the hit points, between zero and the maximum. -/
def HpPool.applyDelta (pool : HpPool) (delta : Int) : HpPool :=
  { pool with current := Max.max 0 (min pool.max (pool.current + delta)) }

/-- The casting state of a caster. -/
structure SpellcastingState where
  castsRemaining : Int
  prepared : List String
  maxSpellLevel : Int

/-- A creature. The stat block and the class are those of its character; an NPC has neither. -/
structure CreatureCore where
  hp : HpPool
  armorClass : Int := 10
  level : Int := 1
  statuses : List Status := []
  items : List Item := []
  spellcasting : Option SpellcastingState := none
  stats : List (String × Int) := []
  charClass : String := ""

/-- At no more than 0 HP. -/
def CreatureCore.down (core : CreatureCore) : Bool := core.hp.current ≤ 0

/-- Out of play, or held in the dying window. -/
def CreatureCore.incapacitated (core : CreatureCore) : Bool :=
  core.statuses.any Status.incapacitating

/-! ### The encounter -/

/-- A slot of the initiative order. -/
structure InitiativeEntry where
  tokenId : String
  value : Int

/-- One sealed Main Action. -/
structure WnSealedCommit where
  (actor beatId : String)
  outcome : RollOutcome
  target : Option String := none
  spellId : Option String := none
  mutationId : Option String := none
deriving DecidableEq

/-- What a hint replaces a text by of which sanitizing leaves nothing. -/
def sanitizedEmptyPlaceholder : String := "«redacted by input sanitization»"

/-- A sanitized text, or the placeholder. -/
def sanitizedOrPlaceholder (text : String) : String :=
  if sanitizePlayerText text = "" then sanitizedEmptyPlaceholder else sanitizePlayerText text

variable (encounter : StructuredEncounter) (s : GameSnapshot) (actor : String)

/-- How the hint of a negated save begins. -/
def negatedSaveHintLead : String :=
  "MECHANICAL TRUTH: the save against " ++ sanitizedOrPlaceholder actor ++ "'s mutation "

/-- A standing instruction to the narrator. -/
inductive Hint where
  /-- The target of a commit was down when its slot arrived. -/
  | deadPremise (actor target : String)
  /-- The actor of a commit was down when its slot arrived. -/
  | actorDowned (actor beatId : String) (resolved : Bool)
  /-- The fight was over when the slot of a commit arrived. -/
  | fightOver (actor beatId : String) (outcome : Option String)
  | itemUsed (actor item : String) (healed current max : Int)
  | nonoffensive (actor beatId : String)
  | mutationRefused (actor mutationId reason : String)
  | negatedSave (actor rest : String)
  | other (text : String)

/-- The hint of a non-offensive action. -/
def wnNonoffensiveNarratorHint (beatId : String) : String :=
  if beatId = "total_defense" then
    "TOTAL DEFENSE: " ++ actor ++ " gave up their attack to go fully on the defensive — +2 Melee "
      ++ "& Ranged AC and immune to Shock until their next turn (WWN SRD 2.4.4). Narrate the "
      ++ "guarded stance; the bonus already applied mechanically."
  else if beatId = "fighting_withdrawal" then
    "FIGHTING WITHDRAWAL: " ++ actor ++ " carefully disengaged from melee and moved clear WITHOUT "
      ++ "provoking a free attack (WWN SRD 2.4.4). Narrate the controlled retreat; no opportunity "
      ++ "attack was provoked."
  else
    "RUN: " ++ actor ++ " broke and fled from melee, provoking a free attack from each adjacent "
      ++ "enemy as they ran (WWN SRD 2.4.4). Narrate the flight and any parting blow the dice "
      ++ "already resolved."

/-- The hint, as the narrator reads it. -/
def Hint.text : Hint → String
  | .deadPremise actor target =>
    "DEAD PREMISE: " ++ actor ++ "'s committed action targeted " ++ target
      ++ ", who was already down when " ++ actor ++ "'s initiative slot arrived. Adjudicate it in "
      ++ "fiction — a redirect or a fizzle is the player's/narrator's call. The action did NOT "
      ++ "resolve mechanically and hit no one else."
  | .actorDowned actor beatId resolved =>
    "LIVENESS GATE (ADR-139): " ++ actor ++ "'s committed " ++ beatId ++ " did NOT resolve — "
      ++ actor ++ " was already down (0 HP) when their initiative slot arrived. Do not narrate "
      ++ actor ++ " performing that action or its outcome; "
      ++ (if resolved then "narrate their fall and the fight's close instead."
          else "narrate their fall; the fight continues around them.")
  | .fightOver actor beatId outcome =>
    "LIVENESS GATE (ADR-139): " ++ actor ++ "'s committed " ++ beatId ++ " did NOT resolve — the "
      ++ "confrontation had already resolved (" ++ outcome.getD "None" ++ ") before " ++ actor
      ++ "'s initiative slot. Do not narrate that action succeeding; narrate the fight's close."
  | .itemUsed actor item healed current max =>
    "ITEM USED: " ++ actor ++ " drank " ++ item ++ ", restoring " ++ toString healed ++ " HP (now "
      ++ toString current ++ "/" ++ toString max ++ "). Describe the drink and its relief in "
      ++ "fiction; the heal already applied mechanically."
  | .nonoffensive actor beatId => wnNonoffensiveNarratorHint actor beatId
  | .mutationRefused actor mutationId reason =>
    "MECHANICAL TRUTH: " ++ sanitizedOrPlaceholder actor ++ "'s mutation "
      ++ sanitizedOrPlaceholder mutationId ++ " was REFUSED (" ++ reason ++ ") and did NOT "
      ++ "manifest. Do not narrate the power firing or any effect from it; narrate the attempt "
      ++ "failing or fizzling instead."
  | .negatedSave actor rest => negatedSaveHintLead actor ++ rest
  | .other text => text

/-- The encounter, as far as a Without-Number fight uses it. `tags` are the texts of its tags and
    `activeTaunter` is `taunt.active_actor`. -/
structure StructuredEncounter where
  encounterType : String := "combat"
  actors : List EncounterActor := []
  initiative : List InitiativeEntry := []
  wnCommits : List WnSealedCommit := []
  tags : List String := []
  activeTaunter : Option String := none
  narratorHints : List Hint := []
  outcome : Option String := none
  resolved : Bool := false

namespace StructuredEncounter

/-- The first seat with the name. -/
def findActor (name : String) : Option EncounterActor :=
  encounter.actors.find? (fun actor => actor.name = name)

/-- The first player's seat with the name. -/
def findActorForPlayer (name : String) : Option EncounterActor :=
  encounter.actors.find? (fun actor => actor.side = .player && actor.name = name)

/-- The encounter is over. -/
def resolve (outcome : String) : StructuredEncounter :=
  { encounter with resolved := true, outcome := some outcome }

/-- The seats that `_opposite_side_first_actor` chooses from: those of the other side that have
    not withdrawn. -/
def oppositeCandidates (side : ActorSide) : List String :=
  let other : ActorSide := if side = .player then .opponent else .player
  (encounter.actors.filter (fun actor => actor.side = other && !actor.withdrawn)).map
    EncounterActor.name

/-- The primary target on the other side: the taunter, if it is among the candidates, else the
    first of them. -/
def oppositeSideFirstActor (side : ActorSide) : Option String :=
  match encounter.activeTaunter with
  | some taunter =>
    if taunter ∈ encounter.oppositeCandidates side then some taunter
    else (encounter.oppositeCandidates side).head?
  | none => (encounter.oppositeCandidates side).head?

/-- Drop the actor's negated-save hints. -/
def dropStaleNegatedSaveHints : StructuredEncounter :=
  { encounter with
    narratorHints := encounter.narratorHints.filter
      (fun hint => !(negatedSaveHintLead actor).toList.isPrefixOf hint.text.toList) }

end StructuredEncounter

/-! ### Events -/

/-- What the watcher sees, spans included. -/
inductive Event where
  | hpPatched (target : CoreRef) (delta current maximum : Int) (source : String)
  | winConditionEvaluated (outcome : String) (down standing : List String)
  | encounterResolved (outcome source : String)
  | resolutionBeatExit (actor beatId : String)
  | mortalInjuryDeclared (target : CoreRef) (superseded : Bool)
  | majorInjuryRoll (target : CoreRef) (saveMade : Bool)
  | dyingWindowOpened (actor : String)
  | statusAdded (target : CoreRef) (status : String)
  | playerDead (target : CoreRef)
  | opponentAttackResolved (attacker target : String) (attackTotal targetAc : Int) (hit : Bool)
      (source : String)
  | spellCast (actor spellId : String) (refused : Bool)
  | mutationRefused (actor mutationId reason : String)
  | commitSealed (actor beatId : String) (target : Option String)
  | roundCommitted (committed exemptAllies : List String)
  | roundInitiative (order : List String)
  | slotSkippedDowned (actor beatId : String)
  | slotSkippedEncounterResolved (actor beatId : String)
  | deadPremise (actor target beatId : String)
  | itemUsed (actor item : String) (healed : Int)
  | nonoffensiveAction (actor beatId : String) (withdrawn : Bool)
  | beatApplied (actor beatId : String) (opponentHpRemoved : Int)
  | roundResolved (order : List String)
  | yieldReceived (actor : String)
  | yieldResolved (actors : List String)

/-! ### Errors -/

/-- Why a dispatch raises. -/
inductive DispatchError where
  | noActiveEncounter
  | alreadyCommitted (actor : String)
  | unknownBeat (beatId : String)
  | spellIdOnOtherBeat (spellId : String)
  | castWithoutSpellId
  | noSpellCatalog
  | unknownSpell (spellId : String)
  | mutationIdOnOtherBeat (mutationId : String)
  | mutationWithoutId
  | noMutationCatalog
  | noPlayerActor (actor : String)
  | noInitiative
  | notASeatedPc (beatId actor : String)
  | itemNotCarried (beatId actor : String)
  | unsupportedDice (item : String)
  | malformedSpellDie
  | unsupportedDamageDice (count : Int) (faces : Nat)
  | difficultyBelowOne (difficulty : Int)
  | statNotInBlock (stat : String)
  | noAbilityScores (actor : String)
  | unknownSaveCategory (save : String)
  | attributeMapMissing (key : String)
  | traumaWithoutConfig
  | noSpellcastingState (actor : String)
  | yieldWithoutEncounter
  | yieldWithoutActor (actor : String)

/-! ### The snapshot -/

/-- One use of a mutation. -/
structure MutationUse where
  actor : String
  (target mutationId : Option String)

/-- The state of a fight. `rng` holds the dice the server has still to roll, `playerSeats` the
    values of `player_seats`, `interaction` the turn that statuses are stamped with. -/
structure GameSnapshot where
  cast : Cast
  cores : CoreRef → CreatureCore
  encounter : StructuredEncounter
  playerSeats : List String := []
  playerDead : Bool := false
  mutationUses : List MutationUse := []
  rng : Rng
  events : List Event := []

namespace GameSnapshot

/-- The creature a name resolves to. -/
def findCreatureCore (s : GameSnapshot) (name : String) : Option CreatureCore :=
  (s.cast.findCreatureCore name).map s.cores

/-- Change a creature. -/
def modifyCore (ref : CoreRef) (f : CreatureCore → CreatureCore) : GameSnapshot :=
  { s with cores := Function.update s.cores ref (f (s.cores ref)) }

/-- Change the encounter. -/
def modifyEncounter (f : StructuredEncounter → StructuredEncounter) : GameSnapshot :=
  { s with encounter := f s.encounter }

/-- Publish an event. -/
def publish (event : Event) : GameSnapshot :=
  { s with events := s.events ++ [event] }

/-- Append a hint for the narrator. -/
def hint (h : Hint) : GameSnapshot :=
  s.modifyEncounter (fun encounter =>
    { encounter with narratorHints := encounter.narratorHints ++ [h] })

end GameSnapshot

/-- A computation on the snapshot that may raise. -/
abbrev CombatM := Effect DispatchError GameSnapshot

end

/-! ### Content -/

/-- The modules of the Without-Number family. -/
inductive WnSlug where
  | swn
  | cwn
  | awn
  | wwn
deriving DecidableEq

/-- A beat of the confrontation. `strike` is the damage channel. -/
structure BeatDef where
  id : String
  label : String := ""
  strike : Bool := false
  resolution : Bool := false
  mutationResolution : Bool := false
  statCheck : String := "STR"
  attackBonus : Int := 0
  combatSkill : Int := 0
  damageOverride : Option DamageSpec := none
  mitigationOverride : Option Int := none

/-- The damage die of a spell, a text that the catalog does not check: dice, or no dice. -/
inductive SpellDie where
  | malformed
  | dice (count faces : Nat)

/-- A spell of the catalog. -/
structure Spell where
  level : Int := 1
  save : Option String := none
  damageDie : Option SpellDie := none
  damagePerLevel : Bool := false

/-- What using a mutation comes to. -/
inductive MutationVerdict where
  | applied
  | refused (mutationId reason : String)
  /-- The defender's save negates the mutation; the narrator is told so. -/
  | saved (rest : String)

/-- What a fight is bound to: module, config, confrontation and pack. The mutation engine answers
    from the uses before; which answer that is does not matter. -/
structure Rules where
  slug : WnSlug
  saveBase : Int := 16
  attributeMap : List (String × String) := []
  defaultTraumaTarget : Int := 6
  majorInjurySave : String := "physical"
  mortalInjuryRounds : Nat := 6
  majorInjuryEntry : Int → String := fun _ => ""
  killingBlowDivisor : Nat := 2
  beats : List BeatDef := []
  opponentDamage : Option DamageSpec := none
  opponentAbilityScores : Option (List (String × Int)) := none
  itemCatalog : String → Option DamageSpec := fun _ => none
  unarmedDamage : Option DamageSpec := none
  spellCatalog : Option (String → Option Spell) := none
  warriorClass : String → Bool := fun _ => false
  verdictOnZeroHp : Option String := some "dead"
  defaultReversibility : String := ""
  mutationCatalog : Option (String → Bool) := some fun _ => true
  useMutation : List MutationUse → MutationUse → MutationVerdict := fun _ _ => .applied

variable (rules : Rules)

/-- The config carries Mortal Injuries: a `CwnConfig`, which `AwnConfig` extends, or a
    `WwnConfig`. -/
def Rules.lethal : Bool := rules.slug ≠ .swn

/-! ### Beats -/

/-- The slug of an item's name: its runs of letters and digits in lower case, joined by `_`. -/
def itemSlug (name : String) : String :=
  "_".intercalate (((name.toList.map Char.toLower).splitOnP (fun c => !c.isAlphanum)).filterMap
    (fun run => if run = [] then none else some (String.ofList run)))

variable (beatId : String)

/-- A transient beat that uses an item. -/
def isItemUseBeat : Bool := "use_item:".toList.isPrefixOf beatId.toList

/-- The slug of the item such a beat uses. -/
def itemUseSlug : String := String.ofList (beatId.toList.drop "use_item:".length)

/-- The Without-Number actions. -/
def isWnActionBeat : Bool :=
  beatId ∈ ["attack", "total_defense", "fighting_withdrawal", "run"]

/-- The actions that leave the melee. -/
def isWnFleeAction : Bool := beatId ∈ ["fighting_withdrawal", "run"]

/-- The actions that resolve no strike on the actor's own slot. -/
def isWnNonoffensiveAction : Bool :=
  beatId ∈ ["total_defense", "fighting_withdrawal", "run"]

/-- The beat of a Without-Number action: only the attack strikes. -/
def wnActionBeat : BeatDef :=
  if beatId = "attack" then { id := beatId, label := "Attack", strike := true }
  else if beatId = "total_defense" then
    { id := beatId, label := "Total Defense", statCheck := "DEX" }
  else if beatId = "fighting_withdrawal" then
    { id := beatId, label := "Fighting Withdrawal", statCheck := "DEX" }
  else { id := beatId, label := "Run", statCheck := "DEX" }

/-- The beat of a cast; the spell does its damage itself. -/
def wnCastBeat : BeatDef := { id := "cast_spell", label := "Cast Spell", statCheck := "INT" }

/-- The beat a commit names: synthesized for the Without-Number actions and the `wwn` cast, else
    looked up among the confrontation's beats. -/
def Rules.findBeat : Option BeatDef :=
  if isWnActionBeat beatId then some (wnActionBeat beatId)
  else if beatId = "cast_spell" ∧ rules.slug = .wwn then some wnCastBeat
  else rules.beats.find? (fun beat => beat.id = beatId)

/-- The beat casts a spell. -/
def Rules.isWwnCast : Bool :=
  beatId = "cast_spell" && rules.slug = .wwn

/-- The beat routes to the mutation engine. -/
def Rules.isAwnMutationBeat (beat : BeatDef) : Bool :=
  beat.mutationResolution && rules.slug = .awn

/-! ### Stats -/

/-- The modifier of an attribute score. -/
def swnAttributeModifier (score : Int) : Int :=
  if score ≤ 3 then -2
  else if score ≤ 7 then -1
  else if score ≤ 13 then 0
  else if score ≤ 17 then 1
  else 2

variable (s : GameSnapshot) (spec : DamageSpec) (stats : List (String × Int)) (key : String)

/-- A score of a stat block, by its key or, failing that, by its key in any case. -/
def stat : Except DispatchError Int :=
  match (stats.find? (fun entry => entry.1 = key)).or
      (stats.find? (fun entry => entry.1.toUpper = key.toUpper)) with
  | some entry => pure entry.2
  | none => throw (.statNotInBlock key)

/-- The modifier of a stat. -/
def statModifier : Except DispatchError Int := do
  let score ← stat stats key
  pure (swnAttributeModifier score)

/-- The attributes a save goes by. -/
def saveAttributes : String → Option (String × String)
  | "physical" => some ("STRENGTH", "CONSTITUTION")
  | "evasion" => some ("DEXTERITY", "INTELLIGENCE")
  | "mental" => some ("WISDOM", "CHARISMA")
  | _ => none

/-- A saving throw: its modifier and the number to reach. -/
structure SaveParams where
  (modifier difficulty : Int)

namespace Rules

/-- The name the pack gives an attribute. -/
def flavor : Except DispatchError String :=
  match rules.attributeMap.find? (fun entry => entry.1 = key) with
  | some entry => pure entry.2
  | none => throw (.attributeMapMissing key)

/-- A saving throw. Only `swn` knows no luck save. -/
def saveParams (save : String) (level : Int) : Except DispatchError SaveParams := do
  if save = "luck" then
    if rules.slug = .swn then throw (.unknownSaveCategory save)
    else pure ⟨0, rules.saveBase - (level - 1)⟩
  else match saveAttributes save with
    | none => throw (.unknownSaveCategory save)
    | some (first, second) => do
      let first ← rules.flavor first
      let second ← rules.flavor second
      let firstModifier ← statModifier stats first
      let secondModifier ← statModifier stats second
      pure ⟨max firstModifier secondModifier, rules.saveBase - (level - 1)⟩

end Rules

/-! ### Dice -/

/-- One server-side die. -/
def rollDie (faces : Nat) : CombatM Int := do
  let s ← get
  set { s with rng := (s.rng.randint 1 faces).2 }
  pure (s.rng.randint 1 faces).1

/-- Server-side dice, one by one. -/
def rollDice (count faces : Nat) : CombatM (List Int) :=
  (List.replicate count faces).mapM rollDie

/-- A d2 read off a d6: even is 1, odd is 2. -/
def parityValue (face : Int) : Int := if face % 2 = 0 then 1 else 2

/-- The faces of a damage roll. A d2 is thrown as a d6. -/
def generateServerFaces : CombatM (List Int) :=
  rollDice spec.count (if spec.faces = 2 then 6 else spec.faces)

/-- The damage of a player's strike: parity dice are read as d2. -/
def strikeTotal (faces : List Int) : Int :=
  (if spec.faces = 2 then (faces.map parityValue).sum else faces.sum) + spec.bonus

/-- The damage of an opponent's hit: the faces as they fell. -/
def reprisalTotal (faces : List Int) : Int := faces.sum + spec.bonus

/-- `DamageSpec.roll`. -/
def DamageSpec.roll : CombatM Int := do
  let faces ← generateServerFaces spec
  pure (strikeTotal spec faces)

/-- The dice there are; a d2 is the parity of a d6. -/
def supportedFaces : List Nat := [2, 4, 6, 8, 10, 12, 20, 100]

/-- `DamageSpec(dice="NdM")` at the table: at least one die, of a kind there is. -/
def damageDice (count : Int) (faces : Nat) : Except DispatchError DamageSpec :=
  if count < 1 ∨ faces ∉ supportedFaces then throw (.unsupportedDamageDice count faces)
  else pure { count := count.toNat, faces := faces }

/-! ### Damage specs -/

/-- The unarmed strike of the SRD. -/
def srdUnarmed : DamageSpec := { count := 1, faces := 2 }

namespace Rules

/-- The damage spec of a strike: the beat's own, the first item with damage, the first item with
    damage in the catalog, the pack's unarmed damage, and last the SRD's. -/
def resolveDamage (beat : BeatDef) (actor : Option CreatureCore) : DamageSpec :=
  let items := (actor.map CreatureCore.items).getD []
  match beat.damageOverride with
  | some spec => spec
  | none =>
    ((items.findSome? Item.damage).or
      ((items.findSome? (fun item => item.id.bind rules.itemCatalog)).or
        rules.unarmedDamage)).getD srdUnarmed

/-- Shock chips damage on a miss against a low Melee AC. -/
def resolveShock (targetMeleeAc : Int) : Int :=
  match spec.shockAc with
  | none => 0
  | some shockAc => if spec.shock ≤ 0 ∨ shockAc < targetMeleeAc then 0 else spec.shock

/-- Roll the Trauma Die of a weapon that has one: the damage, and whether the hit is traumatic. -/
def resolveTrauma (baseTotal : Int) : CombatM (Int × Bool) :=
  match spec.traumaDie with
  | none => pure (baseTotal, false)
  | some (count, faces) =>
    if rules.lethal then do
      -- the weapon's own check lets a Trauma Die of no dice pass
      let die ← ofExcept (damageDice count faces)
      let roll ← die.roll
      if spec.traumaTarget.getD rules.defaultTraumaTarget ≤ roll then
        pure (baseTotal * spec.traumaRating, true)
      else pure (baseTotal, false)
    else throw .traumaWithoutConfig

/-- `ceil(level / divisor)`. -/
def killingBlowBonus (level : Int) : Int :=
  -((-level) / (rules.killingBlowDivisor : Int))

/-- The Killing Blow of a `wwn` warrior. -/
def applyKillingBlow (baseTotal level : Int) : Int :=
  baseTotal + rules.killingBlowBonus level

/-- The character is a warrior of a `wwn` pack. -/
def isWwnWarrior (name : String) : Bool :=
  rules.slug = .wwn && (s.cast.characters.findIdx? (fun character => character = name)).any
    (fun i => rules.warriorClass (s.cores (.character i)).charClass)

end Rules

/-! ### The win condition -/

section Depletion

variable (actors : List EncounterActor) (hp : String → Option Int)

/-- The seats of a side that have not withdrawn and whose hit points resolve. -/
def pools (side : ActorSide) : List (String × Int) :=
  (actors.filter (fun actor => actor.side = side && !actor.withdrawn)).filterMap
    (fun actor => (hp actor.name).map (fun current => (actor.name, current)))

/-- Somebody's hit points resolve on the side, and nobody of them stands. -/
def sideDown (side : ActorSide) : Bool :=
  pools actors hp side ≠ [] && (pools actors hp side).all (fun pool => pool.2 ≤ 0)

/-- How a fight ends on hit points. -/
inductive Depletion where
  | playerVictory
  | opponentVictory
  | mutualDestruction

/-- The outcome, as the encounter keeps it. -/
def Depletion.outcome : Depletion → String
  | .playerVictory => "player_victory"
  | .opponentVictory => "opponent_victory"
  | .mutualDestruction => "mutual_destruction"

/-- The end of a fight one of whose sides is down. -/
def hpDepletion : Option Depletion :=
  match sideDown actors hp .player, sideDown actors hp .opponent with
  | true, true => some .mutualDestruction
  | false, true => some .playerVictory
  | true, false => some .opponentVictory
  | false, false => none

end Depletion

namespace GameSnapshot

/-- The hit points of a name. -/
def hp (s : GameSnapshot) (name : String) : Option Int :=
  (s.findCreatureCore name).map (fun core => core.hp.current)

/-- The pools both sides are counted by. -/
def bothPools : List (String × Int) :=
  pools s.encounter.actors s.hp .player ++ pools s.encounter.actors s.hp .opponent

/-- What the win check publishes: nothing, unless somebody is down. -/
def winConditionEvent (outcome : String) : Option Event :=
  let down := s.bothPools.filter (fun pool => pool.2 ≤ 0)
  let standing := s.bothPools.filter (fun pool => 0 < pool.2)
  if down = [] then none
  else some (.winConditionEvaluated outcome (down.map Prod.fst) (standing.map Prod.fst))

/-- Publish an event, if there is one. -/
def publish? (event : Option Event) : GameSnapshot :=
  match event with
  | none => s
  | some event => s.publish event

/-- The win check on hit points: the end it finds, if any, and the snapshot after it. -/
def checkHpDepletion : Option Depletion × GameSnapshot :=
  if s.encounter.resolved then (none, s)
  else match hpDepletion s.encounter.actors s.hp with
    | none => (none, s.publish? (s.winConditionEvent ""))
    | some depletion =>
      (some depletion, (((s.modifyEncounter (fun encounter => encounter.resolve depletion.outcome))
        |>.publish? (s.winConditionEvent depletion.outcome))
        |>.publish (.encounterResolved depletion.outcome "hp_depletion")))

/-! ### Damage -/

/-- Change the hit points of a creature, and publish that. -/
def applyHpDelta (target : CoreRef) (delta : Int) (source : String) : GameSnapshot :=
  let pool := (s.cores target).hp.applyDelta delta
  (s.modifyCore target (fun core => { core with hp := pool })).publish
    (.hpPatched target delta pool.current pool.max source)

/-- The damage that mitigation leaves. -/
def mitigated (damageTotal targetMitigation : Int) : Int :=
  if damageTotal ≤ 0 then 0 else max 0 (damageTotal - max 0 targetMitigation)

/-- Damage on the strike channel: the hit points it removed, and the snapshot after it. -/
def applyBeatHpChannel (target : CoreRef) (damageTotal targetMitigation : Int) (source : String) :
    Int × GameSnapshot :=
  let applied := mitigated damageTotal targetMitigation
  if applied = 0 then (0, s)
  else
    let s' := s.applyHpDelta target (-applied) source
    ((s.cores target).hp.current - (s'.cores target).hp.current, s')

end GameSnapshot

end Sidequest.Combat
