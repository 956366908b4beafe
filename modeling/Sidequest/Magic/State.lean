import Mathlib.Data.Rat.Floor
import Sidequest.Lib.Dict
import Sidequest.Lib.Effect
import Sidequest.Lib.First

namespace Sidequest.Magic

open Lib Effect

/-!
# The magic state

The ledger of a world's magic: bars that belong to characters, to the world or to items, and what
a working costs them.

* `LedgerBarSpec` — a declared bar: its range, its direction and its thresholds, as validated;
* `fromConfig`, `addCharacter`, `addItem`, `setBarValue`, `learnSpell` — everything else that
  writes to it;
* `applyMandatoryOutputs` — apply the identifiers in order; one that is not known raises;
* `applyMandatoryOutputs_stops` — a branch raises exactly if one of its outputs is refused, and
  leaves what the outputs before the first such one have done.
-/

section States

section Ledgers

/-! ### Bars -/

/-- What a bar belongs to. -/
inductive Scope where
  | character
  | world
  | item
  | faction
  | location
  | bondPair
deriving DecidableEq

/-- The scope as it is written in a key. -/
def Scope.name : Scope → String
  | .character => "character"
  | .world => "world"
  | .item => "item"
  | .faction => "faction"
  | .location => "location"
  | .bondPair => "bond_pair"

/-- Which way a bar moves when it is charged. -/
inductive Direction where
  | up
  | down
  | bidirectional
deriving DecidableEq

/-- Where a bar starts: at one value, or at one for each class. -/
inductive StartsAtChargen where
  | scalar (value : ℚ)
  | byClass (values : Dict String ℚ)

namespace StartsAtChargen

/-- The values it may start at. -/
def values : StartsAtChargen → List ℚ
  | .scalar value => [value]
  | .byClass values => values.values

/-- It is keyed by class. -/
def classKeyed : StartsAtChargen → Bool
  | .scalar _ => false
  | .byClass _ => true

end StartsAtChargen

/-- A declared bar, and what the validators of its declaration have checked. -/
structure LedgerBarSpec where
  id : String
  scope : Scope
  direction : Direction
  (lo hi : ℚ)
  thresholdHigh : Option ℚ := none
  thresholdLow : Option ℚ := none
  consequenceOnHighCross : Option String := none
  consequenceOnLowCross : Option String := none
  startsAtChargen : StartsAtChargen
  lo_lt_hi : lo < hi
  low_declared : direction ≠ .up → thresholdLow.isSome = true
  high_declared : direction ≠ .down → thresholdHigh.isSome = true
  low_mem : ∀ t ∈ thresholdLow, lo ≤ t ∧ t ≤ hi
  high_mem : ∀ t ∈ thresholdHigh, lo ≤ t ∧ t ≤ hi
  starts_mem : ∀ v ∈ startsAtChargen.values, lo ≤ v ∧ v ≤ hi
  starts_ne_nil : startsAtChargen.values ≠ []
  starts_scope : startsAtChargen.classKeyed = true → scope = .character

/-- A bar that goes down needs no high threshold. -/
theorem high_declared_down : Direction.down ≠ .down → (none : Option ℚ).isSome = true :=
  fun h => absurd rfl h

/-- A key into the ledger. -/
structure BarKey where
  scope : Scope
  (ownerId barId : String)
deriving DecidableEq

variable (spec : LedgerBarSpec) (key : BarKey)

/-- The key as the ledger has it. -/
def BarKey.serialize : String :=
  key.scope.name ++ "|" ++ key.ownerId ++ "|" ++ key.barId

/-- A bar of the ledger. -/
structure LedgerBar where
  spec : LedgerBarSpec
  value : ℚ

/-- A threshold that a working has crossed. -/
structure ThresholdCrossingEvent where
  barKey : BarKey
  direction : Direction
  consequence : String
  newValue : ℚ

namespace LedgerBarSpec

/-- A value within the bar's range. -/
def clamp (value : ℚ) : ℚ := max spec.lo (min spec.hi value)

/-- The value after a cost: a bar that goes up is raised by it, any other one is lowered. -/
def charge (prev amount : ℚ) : ℚ :=
  if spec.direction = .up then spec.clamp (prev + amount) else spec.clamp (prev - amount)

/-- The threshold that a bar crosses when it is charged: the low one of a bar that goes down, the
    high one of a bar that goes up. A bidirectional bar crosses none. -/
def crossing (prev new : ℚ) : Option ThresholdCrossingEvent :=
  match spec.direction with
  | .down =>
    if spec.thresholdLow.any (fun t => t < prev && new ≤ t) then
      some ⟨key, .down, spec.consequenceOnLowCross.getD "", new⟩
    else none
  | .up =>
    if spec.thresholdHigh.any (fun t => prev < t && t ≤ new) then
      some ⟨key, .up, spec.consequenceOnHighCross.getD "", new⟩
    else none
  | .bidirectional => none

end LedgerBarSpec

/-! ### The state -/

/-- What a world's configuration says of its magic. -/
structure WorldMagicConfig where
  worldSlug : String
  ledgerBars : List LedgerBarSpec

/-- One magic event. Its costs are not negative, as its validator has checked. -/
structure MagicWorking where
  actor : String
  costs : Dict String ℚ := .empty
  itemId : Option String := none
  spellId : Option String := none
  slotLevel : Option Int := none
  costs_nonneg : ∀ v ∈ costs.values, 0 ≤ v

/-- A status to be promoted when the turn is over. -/
structure StatusPromotion where
  (actor text severity : String)

/-- The magic of a session. -/
structure MagicState where
  config : WorldMagicConfig
  ledger : Dict String LedgerBar := .empty
  workingLog : List MagicWorking := []
  controlTier : Dict String Int := .empty
  pendingStatusPromotions : List StatusPromotion := []
  knownSpells : Dict String (List String) := .empty
  preparedSpells : Dict String (Dict Int (List String)) := .empty
  spentSpells : Dict String (Dict Int (List String)) := .empty

/-- Why an operation on the magic state raises. -/
inductive MagicError where
  | unknownActor (actor : String)
  | noBar (key : String)
  | noCharacterClass (bar character : String)
  | classMissing (bar characterClass character : String)
  | classKeyedItem (bar : String)
  | unknownSpell (spell actor : String)
  | noSlotBar (actor : String) (level : Int)
  | overBudget (level : Int) (count : Nat) (budget : Int)
  | noSpellNamed
  | notPrepared (spell actor : String) (level : Int)
  | noSlotsRemaining (actor : String) (level : Int)
  | noLevel (text : String)
  | unknownOutput (outputId : String)
  | noMagicState
  | rig (message : String)

/-- A computation on the magic state. -/
abbrev MagicM := Effect MagicError MagicState

/-- `text.startswith(lead)`. -/
def startsWith (lead text : String) : Bool := lead.toList.isPrefixOf text.toList

variable (s : MagicState) (working : MagicWorking)

namespace MagicState

/-- The bar of a key. -/
def bar? (key : BarKey) : Option LedgerBar := s.ledger.get? key.serialize

/-- The state with another value on a bar that is there. -/
def putValue (key : String) (value : ℚ) : MagicState :=
  { s with ledger := s.ledger.modify key (fun bar => { bar with value := value }) }

/-- The bar that a cost is charged to: that of the actor, of the world, or of the item named. -/
def routeCost (costType : String) : Option BarKey :=
  match s.config.ledgerBars.find? (fun spec => spec.id = costType) with
  | none => none
  | some spec =>
    match spec.scope with
    | .character => some ⟨.character, working.actor, costType⟩
    | .world => some ⟨.world, s.config.worldSlug, costType⟩
    | .item =>
      match working.itemId with
      | none => none
      | some itemId => if itemId = "" then none else some ⟨.item, itemId, costType⟩
    -- declared, but not wired
    | .faction => none
    | .location => none
    | .bondPair => none

end MagicState

/-- What a working has done to the ledger. -/
structure ApplyWorkingResult where
  crossings : List ThresholdCrossingEvent := []
  barChanges : Dict String (ℚ × ℚ) := .empty

/-- Charge one cost. What is not routed to a bar of the ledger is only logged. -/
def applyCost (acc : MagicState × ApplyWorkingResult) (cost : String × ℚ) :
    MagicState × ApplyWorkingResult :=
  match acc.1.routeCost working cost.1 with
  | none => acc
  | some key =>
    match acc.1.bar? key with
    | none => acc
    | some bar =>
      let new := bar.spec.charge bar.value cost.2
      (acc.1.putValue key.serialize new,
        { crossings := acc.2.crossings ++ (bar.spec.crossing key bar.value new).toList
          barChanges := acc.2.barChanges.insert cost.1 (bar.value, new) })

/-- Charge the costs of a working, in order, and log it. -/
def applyWorking : MagicM ApplyWorkingResult := do
  let s ← get
  if !s.ledger.keys.any (startsWith ("character|" ++ working.actor ++ "|")) then
    throw (.unknownActor working.actor)
  else do
    let charged := working.costs.entries.foldl (applyCost working) (s, {})
    set { charged.1 with workingLog := charged.1.workingLog ++ [working] }
    pure charged.2

/-! ### Everything else that writes to it -/

/-- `get_bar`. -/
def getBar : MagicM LedgerBar := do
  let s ← get
  match s.bar? key with
  | none => throw (.noBar key.serialize)
  | some bar => pure bar

/-- Set a bar, within its range. -/
def setBarValue (value : ℚ) : MagicM PUnit := do
  let bar ← getBar key
  modify fun s => s.putValue key.serialize (bar.spec.clamp value)

/-- The value a bar starts at, for a character of a class. -/
def resolveStartsAtChargen (characterClass : Option String) (characterId : String) :
    Except MagicError ℚ :=
  match spec.startsAtChargen with
  | .scalar value => .ok value
  | .byClass values =>
    match characterClass with
    | none => .error (.noCharacterClass spec.id characterId)
    | some name =>
      match values.get? name with
      | none => .error (.classMissing spec.id name characterId)
      | some value => .ok value

/-- Add one bar of the world. It has one start: none is keyed by class. -/
def addWorldBar (worldSlug : String) (ledger : Dict String LedgerBar) (spec : LedgerBarSpec) :
    Dict String LedgerBar :=
  match spec.scope, spec.startsAtChargen with
  | .world, .scalar value =>
    ledger.insert (BarKey.serialize ⟨.world, worldSlug, spec.id⟩) ⟨spec, value⟩
  | _, _ => ledger

/-- The empty state of a world, with the bars of the world. -/
def fromConfig (config : WorldMagicConfig) : MagicState :=
  { config := config
    ledger := config.ledgerBars.foldl (addWorldBar config.worldSlug) .empty }

/-- Add one bar of a character, unless it is there. -/
def addBar (characterId : String) (characterClass : Option String) (spec : LedgerBarSpec) :
    MagicM PUnit := do
  let s ← get
  let key := BarKey.serialize ⟨.character, characterId, spec.id⟩
  if spec.scope ≠ .character ∨ key ∈ s.ledger.keys then pure ⟨⟩
  else do
    let value ← ofExcept (resolveStartsAtChargen spec characterClass characterId)
    set { s with ledger := s.ledger.insert key ⟨spec, value⟩ }

/-- Add the bars of a character. -/
def addCharacter (characterId : String) (characterClass : Option String) : MagicM PUnit := do
  let s ← get
  s.config.ledgerBars.forM (addBar characterId characterClass)

/-- Add one bar of an item, in the place of the one that is there. -/
def addItemBar (itemId : String) (template : LedgerBarSpec) : MagicM PUnit :=
  match template.startsAtChargen with
  | .scalar value => modify fun s => { s with
      ledger := s.ledger.insert (BarKey.serialize ⟨.item, itemId, template.id⟩) ⟨template, value⟩ }
  | .byClass _ => throw (.classKeyedItem template.id)

/-- Add the bars of an item. -/
def addItem (itemId : String) (bondTemplate historyTemplate : Option LedgerBarSpec) :
    MagicM PUnit := (bondTemplate.toList ++ historyTemplate.toList).forM (addItemBar itemId)

/-- Learn a spell. -/
def learnSpell (actor spell : String) : MagicM PUnit := modify fun s =>
  let known := (s.knownSpells.get? actor).getD []
  let learned := if spell ∈ known then known else known ++ [spell]
  { s with knownSpells := s.knownSpells.insert actor learned }

end Ledgers

/-- The outputs that act on a chassis, and not on the magic state. -/
inductive RigOutput where
  | bondStrengthGrowthViaIntimacy
  | chassisLineageIntimate

/-- What the caller gives beside the identifiers, as far as the magic state is concerned. -/
structure OutputContext where
  statusText : Option String := none

/-- What the handler of an output does. -/
inductive OutputHandler where
  | shiftBar (barId : String) (amount : ℚ)
  | shiftWorldBar (barId : String) (amount : ℚ)
  | queueStatus (severity fallback : String)
  | controlTierAdvance
  | clearBleedingThrough
  | noop
  | rig (output : RigOutput)

def sanityDecrementDefault : ℚ := 1 / 10
def sanityIncrementDefault : ℚ := 1 / 10
def noticeDecrementDefault : ℚ := 15 / 100
def noticeIncrementDefault : ℚ := 1 / 10
def hegemonyHeatIncrementDefault : ℚ := 1 / 10
def hegemonyHeatDecrementDefault : ℚ := 1 / 10
def sanityFloorLoweredDefault : ℚ := 5 / 100

/-- The registry of outputs. -/
def outputHandlers : List (String × OutputHandler) :=
  [("sanity_decrement", .shiftBar "sanity" (-sanityDecrementDefault)),
    ("sanity_increment", .shiftBar "sanity" sanityIncrementDefault),
    ("notice_decrement", .shiftBar "notice" (-noticeDecrementDefault)),
    ("notice_increment", .shiftBar "notice" noticeIncrementDefault),
    ("hegemony_heat_increment", .shiftWorldBar "hegemony_heat" hegemonyHeatIncrementDefault),
    ("hegemony_heat_decrement", .shiftWorldBar "hegemony_heat" (-hegemonyHeatDecrementDefault)),
    ("status_add_scratch", .queueStatus "Scratch" "Marked"),
    ("status_add_wound", .queueStatus "Wound" "Wounded"),
    ("status_add_scar", .queueStatus "Scar" "Scarred"),
    ("control_tier_advance", .controlTierAdvance),
    ("lore_revealed", .noop),
    ("lore_revealed_major", .noop),
    ("item_acquired", .noop),
    ("item_acquired_alien", .noop),
    ("item_acquired_with_low_bond", .noop),
    ("item_history_increment", .noop),
    ("bond_increment", .noop),
    ("bond_decrement", .noop),
    ("bond_increment_to_alien", .noop),
    ("scar_political", .queueStatus "Scar" "Scarred"),
    ("character_scar_extracted", .queueStatus "Scar" "Scarred"),
    ("sanity_floor_lowered", .shiftBar "sanity" (-sanityFloorLoweredDefault)),
    ("status_clear_bleeding_through", .clearBleedingThrough),
    ("bond_strength_growth_via_intimacy", .rig .bondStrengthGrowthViaIntimacy),
    ("chassis_lineage_intimate", .rig .chassisLineageIntimate)]

namespace MagicState

/-- `_shift_bar`: move a bar within its range; one that is not in the ledger is skipped. -/
def shiftBar (s : MagicState) (key : BarKey) (amount : ℚ) : MagicState :=
  match s.bar? key with
  | none => s
  | some bar => s.putValue key.serialize (bar.spec.clamp (bar.value + amount))

/-- A text speaks of bleeding. No letter beyond ASCII is lowered to one of these. -/
def mentionsBleeding (text : String) : Bool :=
  (text.toList.map Char.toLower).tails.any (fun rest => "bleeding".toList.isPrefixOf rest)

/-- What the handler of an output does to the magic state. -/
def runHandler (s : MagicState) (actor : String) (context : OutputContext) :
    OutputHandler → MagicState
  | .shiftBar barId amount => s.shiftBar ⟨.character, actor, barId⟩ amount
  | .shiftWorldBar barId amount => s.shiftBar ⟨.world, s.config.worldSlug, barId⟩ amount
  | .queueStatus severity fallback => { s with
      pendingStatusPromotions := s.pendingStatusPromotions ++
        [⟨actor, context.statusText.getD fallback, severity⟩] }
  | .controlTierAdvance => { s with
      controlTier := s.controlTier.insert actor ((s.controlTier.get? actor).getD 0 + 1) }
  | .clearBleedingThrough => { s with
      pendingStatusPromotions := s.pendingStatusPromotions.filter
        (fun p => !(p.actor = actor && mentionsBleeding p.text)) }
  | .noop => s
  | .rig _ => s

end MagicState

/-- The snapshot, as far as the outputs see it: the magic state, if the world has one, and the
    chassis. -/
structure Snapshot (ρ : Type) where
  magicState : Option MagicState
  chassisRegistry : ρ

section Outputs

variable {ρ : Type}

-- what an output does to the chassis: it may raise
variable (rig : RigOutput → String → Effect MagicError ρ PUnit)

/-- Run a handler on the snapshot. -/
def OutputHandler.apply (handler : OutputHandler) (actor : String) (context : OutputContext) :
    Effect MagicError (Snapshot ρ) PUnit :=
  match handler with
  | .rig output => onPart (fun s => some s.chassisRegistry)
      (fun chassis s => { s with chassisRegistry := chassis }) .noMagicState (rig output actor)
  | handler => modify fun s => { s with
      magicState := s.magicState.map (fun magic => magic.runHandler actor context handler) }

/-- Apply the outputs of a branch, in order. -/
def applyMandatoryOutputs (outputs : List String) (actor : String) (context : OutputContext) :
    Effect MagicError (Snapshot ρ) PUnit :=
  outputs.forM fun outputId =>
    match outputHandlers.lookup outputId with
    | none => throw (.unknownOutput outputId)
    | some handler => handler.apply rig actor context

end Outputs

end States

/-! ### The chassis -/

/-- How close a chassis and a character are. -/
inductive BondTier where
  | severed
  | hostile
  | strained
  | neutral
  | familiar
  | trusted
  | fused

/-- The tiers, each with the strength it ends below. -/
def tierThresholds : List (ℚ × BondTier) :=
  [(-85 / 100, .severed), (-45 / 100, .hostile), (-10 / 100, .strained), (10 / 100, .neutral),
    (40 / 100, .familiar), (80 / 100, .trusted), (101 / 100, .fused)]

/-- The tier of a strength. -/
def deriveBondTier (strength : ℚ) : BondTier :=
  ((tierThresholds.find? (fun tier => strength < tier.1)).map Prod.snd).getD .fused

/-- What has changed a bond. -/
structure BondHistoryEvent where
  turnId : Int
  (deltaCharacter deltaChassis : ℚ)
  reason : String
  confrontationId : Option String

/-- The bond of a chassis and a character, seen from either side. -/
structure BondLedgerEntry where
  characterId : String
  bondStrengthCharacterToChassis : ℚ := 0
  bondStrengthChassisToCharacter : ℚ := 0
  bondTierCharacter : BondTier := .neutral
  bondTierChassis : BondTier := .neutral
  history : List BondHistoryEvent := []

/-- An event in the life of a chassis. -/
structure ChassisLineageEntry where
  turnId : Int
  (kind narrativeSeed : String)
  confrontationId : Option String

/-- A chassis, as far as the outputs see it. -/
structure ChassisInstance where
  id : String
  bondLedger : List BondLedgerEntry := []
  lineage : List ChassisLineageEntry := []

/-- The chassis of a snapshot, by their identifiers. -/
abbrev ChassisRegistry := Dict String ChassisInstance

variable (chassis : ChassisInstance) (textContext : OutputContext) (characterId : String)

namespace ChassisInstance

/-- The first bond with the character. -/
def bondFor : Option BondLedgerEntry :=
  chassis.bondLedger.find? (fun entry => entry.characterId = characterId)

end ChassisInstance

/-- What happens to a bond: the strengths move within [-1, 1], and the tiers follow. -/
def BondLedgerEntry.shift (entry : BondLedgerEntry) (event : BondHistoryEvent) : BondLedgerEntry :=
  let toChassis := max (-1) (min 1 (entry.bondStrengthCharacterToChassis + event.deltaCharacter))
  let toCharacter := max (-1) (min 1 (entry.bondStrengthChassisToCharacter + event.deltaChassis))
  { entry with
    bondStrengthCharacterToChassis := toChassis
    bondStrengthChassisToCharacter := toCharacter
    bondTierCharacter := deriveBondTier toChassis
    bondTierChassis := deriveBondTier toCharacter
    history := entry.history ++ [event] }

/-- Change the bond with the character, if there is one. -/
def applyBondEvent (event : BondHistoryEvent) : Option ChassisInstance :=
  match chassis.bondFor characterId with
  | none => none
  | some _ => some { chassis with
      bondLedger := updateFirst (fun entry => entry.characterId = characterId)
        (fun entry => entry.shift event) chassis.bondLedger }

/-- Note an intimate event. -/
def applyChassisLineageIntimate (narrativeSeed : String) (turnId : Int)
    (confrontationId : Option String) : ChassisInstance :=
  { chassis with lineage := chassis.lineage ++
      [⟨turnId, "intimate", narrativeSeed, confrontationId⟩] }

/-! ### The handlers -/

def bondIntimateDeltaCharacter : ℚ := 4 / 100
def bondIntimateDeltaChassis : ℚ := 6 / 100

/-- What the caller gives beside the identifiers, as far as the chassis are concerned. -/
structure RigContext where
  chassisId : Option String := none
  confrontationId : Option String := none
  turnId : Int := 0
  narrativeSeed : String := ""

/-- The bond event of a brew that was won. An absent confrontation is written out as `None`. -/
def RigContext.clearWin (context : RigContext) : BondHistoryEvent where
  turnId := context.turnId
  deltaCharacter := bondIntimateDeltaCharacter
  deltaChassis := bondIntimateDeltaChassis
  reason := context.confrontationId.getD "None" ++ " clear_win"
  confrontationId := context.confrontationId

/-- The output as it is declared. -/
def RigOutput.name : RigOutput → String
  | .bondStrengthGrowthViaIntimacy => "bond_strength_growth_via_intimacy"
  | .chassisLineageIntimate => "chassis_lineage_intimate"

section Refusal

-- `repr` of a text
variable (reprStr : String → String) (context : RigContext)

/-- What is said of a chassis that has no bond with the character. -/
def noBondMessage (chassisId characterId : String) : String :=
  "chassis " ++ reprStr chassisId ++ " has no bond ledger entry for character " ++
    reprStr characterId ++ " — was world-load bond_seed run?"

/-- The chassis that the caller names. -/
def namedChassis (output : RigOutput) (registry : ChassisRegistry) :
    Except MagicError (String × ChassisInstance) :=
  match context.chassisId with
  | none => .error (.rig (output.name ++ " requires chassis_id in context"))
  | some chassisId =>
    match registry.get? chassisId with
    | none => .error (.rig (reprStr chassisId))
    | some chassis => .ok (chassisId, chassis)

/-- What an output does to the chassis. -/
def rigHandler (output : RigOutput) (actor : String) : Effect MagicError ChassisRegistry PUnit := do
  let (chassisId, chassis) ← ofExcept (namedChassis reprStr context output (← get))
  match output with
  | .bondStrengthGrowthViaIntimacy =>
    match applyBondEvent chassis actor context.clearWin with
    | none => throw (.rig (noBondMessage reprStr chassis.id actor))
    | some changed => modify fun registry => registry.modify chassisId (fun _ => changed)
  | .chassisLineageIntimate =>
    modify fun registry => registry.modify chassisId (fun chassis =>
      applyChassisLineageIntimate chassis context.narrativeSeed context.turnId
        context.confrontationId)

/-- Why an output on a chassis is refused, if it is. -/
def rigRefusal (output : RigOutput) (actor : String) (registry : ChassisRegistry) :
    Option MagicError :=
  match namedChassis reprStr context output registry with
  | .error e => some e
  | .ok (_, chassis) =>
    match output with
    | .bondStrengthGrowthViaIntimacy =>
      if (chassis.bondFor actor).isNone then some (.rig (noBondMessage reprStr chassis.id actor))
      else none
    | .chassisLineageIntimate => none

/-- Why an output is refused, if it is: it is unknown, or has no chassis to act on. -/
def refusal (actor : String) (s : Snapshot ChassisRegistry) (outputId : String) :
    Option MagicError :=
  match outputHandlers.lookup outputId with
  | none => some (.unknownOutput outputId)
  | some (.rig output) => rigRefusal reprStr context output actor s.chassisRegistry
  | some _ => none

end Refusal

/-! ### What an output leaves of the others -/

/-- What decides whether a chassis takes an output: its name, and whom it has a bond with. -/
def ChassisInstance.parties : String × List String :=
  (chassis.id, chassis.bondLedger.map BondLedgerEntry.characterId)

theorem isNone_bondFor :
    (chassis.bondFor characterId).isNone = true ↔ characterId ∉ chassis.parties.2 := by
  unfold ChassisInstance.bondFor ChassisInstance.parties
  simp only [Option.isNone_iff_eq_none, List.find?_eq_none, decide_eq_true_eq, List.mem_map,
    not_exists, not_and]

theorem parties_of_applyBondEvent {chassis changed : ChassisInstance} {characterId : String}
    {event : BondHistoryEvent} (h : applyBondEvent chassis characterId event = some changed) :
    changed.parties = chassis.parties := by
  unfold applyBondEvent at h
  split at h
  · simp at h
  · cases h
    exact congrArg (Prod.mk chassis.id)
      (map_updateFirst (f := fun entry => entry.shift event) (fun _ => rfl) chassis.bondLedger)

/-- The same chassis are there, with bonds to the same characters. -/
def SameParties (registry registry' : ChassisRegistry) : Prop :=
  ∀ chassisId, (registry'.get? chassisId).map ChassisInstance.parties =
    (registry.get? chassisId).map ChassisInstance.parties

theorem SameParties.refl (registry : ChassisRegistry) : SameParties registry registry :=
  fun _ => rfl

variable {registry : ChassisRegistry}

theorem sameParties_modify {chassisId : String} {f : ChassisInstance → ChassisInstance}
    (h : ∀ chassis, registry.get? chassisId = some chassis → (f chassis).parties = chassis.parties) :
    SameParties registry (registry.modify chassisId f) := by
  intro k
  rw [Dict.get?_modify]
  by_cases hk : k = chassisId
  · subst hk
    rw [if_pos rfl]
    cases hget : registry.get? k with
    | none => rfl
    | some chassis =>
      show some (f chassis).parties = some chassis.parties
      rw [h chassis hget]
  · rw [if_neg hk]

section Stops

variable {reprStr : String → String} {context : RigContext} {output : RigOutput}
  {actor outputId : String}

theorem get?_of_namedChassis {chassisId : String} {chassis : ChassisInstance}
    (h : namedChassis reprStr context output registry = .ok (chassisId, chassis)) :
    registry.get? chassisId = some chassis := by
  unfold namedChassis at h
  split at h
  · simp at h
  · split at h
    · simp at h
    · rename_i hget
      cases Except.ok.inj h
      exact hget

/-- What is refused goes by the chassis' names and bonds only. -/
theorem rigRefusal_congr {registry' : ChassisRegistry} (h : SameParties registry registry') :
    rigRefusal reprStr context output actor registry' =
      rigRefusal reprStr context output actor registry := by
  unfold rigRefusal namedChassis
  cases context.chassisId with
  | none => rfl
  | some chassisId =>
    have hparties := h chassisId
    cases hold : registry.get? chassisId with
    | none =>
      rw [hold, Option.map_none, Option.map_eq_none_iff] at hparties
      simp only [hold, hparties]
    | some chassis =>
      rw [hold] at hparties
      obtain ⟨chassis', hnew, hsame⟩ := Option.map_eq_some_iff.mp hparties
      have hid : chassis'.id = chassis.id := congrArg Prod.fst hsame
      have hbond : (chassis'.bondFor actor).isNone = (chassis.bondFor actor).isNone := by
        rw [Bool.eq_iff_iff, isNone_bondFor, isNone_bondFor, hsame]
      simp only [hold, hnew, hid, hbond]

/-- An output that is refused raises and changes no chassis. -/
theorem exec_rigHandler_of_refused {e : MagicError}
    (h : rigRefusal reprStr context output actor registry = some e) :
    (rigHandler reprStr context output actor).exec registry = (.error e, registry) := by
  unfold rigRefusal at h
  unfold rigHandler
  rw [exec_get_bind]
  split at h
  · rename_i e' hnamed
    cases h
    rw [hnamed]
    rfl
  · rename_i chassisId chassis hnamed
    rw [hnamed, exec_ofExcept_ok_bind]
    cases output with
    | chassisLineageIntimate => simp at h
    | bondStrengthGrowthViaIntimacy =>
      dsimp only at h ⊢
      split at h
      · rename_i hnone
        cases h
        have happly : applyBondEvent chassis actor context.clearWin = none := by
          unfold applyBondEvent
          rw [Option.isNone_iff_eq_none.mp hnone]
        rw [happly]
        rfl
      · simp at h

/-- An output that is not refused returns, and leaves the chassis their names and bonds. -/
theorem exec_rigHandler_of_accepted (h : rigRefusal reprStr context output actor registry = none) :
    ∃ registry', (rigHandler reprStr context output actor).exec registry = (.ok ⟨⟩, registry') ∧
      SameParties registry registry' := by
  unfold rigRefusal at h
  unfold rigHandler
  rw [exec_get_bind]
  split at h
  · simp at h
  · rename_i chassisId chassis hnamed
    have hget := get?_of_namedChassis hnamed
    rw [hnamed, exec_ofExcept_ok_bind]
    cases output with
    | chassisLineageIntimate => exact ⟨_, rfl, sameParties_modify (fun _ _ => rfl)⟩
    | bondStrengthGrowthViaIntimacy =>
      dsimp only at h ⊢
      split at h
      · simp at h
      · rename_i hsome
        have happly : ∃ changed, applyBondEvent chassis actor context.clearWin = some changed := by
          unfold applyBondEvent
          cases hbond : chassis.bondFor actor with
          | none => exact absurd (by rw [hbond]; rfl) hsome
          | some entry => exact ⟨_, rfl⟩
        obtain ⟨changed, hchanged⟩ := happly
        rw [hchanged]
        refine ⟨_, rfl, sameParties_modify (fun chassis' hget' => ?_)⟩
        -- the chassis that is written back is the one that was read
        cases hget.symm.trans hget'
        exact parties_of_applyBondEvent hchanged

variable {s : Snapshot ChassisRegistry}

/-- Why an output is refused does not depend on the magic state. -/
theorem refusal_congr {s' : Snapshot ChassisRegistry}
    (h : SameParties s.chassisRegistry s'.chassisRegistry) :
    refusal reprStr context actor s' = refusal reprStr context actor s := by
  funext outputId
  unfold refusal
  split
  · rfl
  · exact rigRefusal_congr h
  · rfl

/-- One round: look the output up and run its handler. -/
def applyOutput (reprStr : String → String) (rigContext : RigContext) (actor : String)
    (context : OutputContext) (outputId : String) :
    Effect MagicError (Snapshot ChassisRegistry) PUnit :=
  match outputHandlers.lookup outputId with
  | none => throw (.unknownOutput outputId)
  | some handler => handler.apply (rigHandler reprStr rigContext) actor context

theorem exec_apply_rig (s : Snapshot ChassisRegistry) :
    (OutputHandler.apply (rigHandler reprStr context) (.rig output) actor textContext).exec s =
      (((rigHandler reprStr context output actor).exec s.chassisRegistry).1,
        { s with chassisRegistry :=
          ((rigHandler reprStr context output actor).exec s.chassisRegistry).2 }) := rfl

theorem exec_applyOutput_of_refused {e : MagicError}
    (h : refusal reprStr context actor s outputId = some e) :
    (applyOutput reprStr context actor textContext outputId).exec s = (.error e, s) := by
  unfold refusal at h
  unfold applyOutput
  split at h
  · rename_i hnone
    cases h
    rw [hnone]
    rfl
  · rename_i output hrig
    rw [hrig]
    show (OutputHandler.apply _ (.rig output) actor textContext).exec s = _
    rw [exec_apply_rig, exec_rigHandler_of_refused h]
  · simp at h

theorem exec_applyOutput_of_accepted (h : refusal reprStr context actor s outputId = none) :
    ∃ s', (applyOutput reprStr context actor textContext outputId).exec s = (.ok ⟨⟩, s') ∧
      refusal reprStr context actor s' = refusal reprStr context actor s := by
  unfold refusal at h
  unfold applyOutput
  split at h
  · simp at h
  · rename_i output hrig
    obtain ⟨registry, hexec, hsame⟩ := exec_rigHandler_of_accepted h
    rw [hrig]
    refine ⟨{ s with chassisRegistry := registry }, ?_, refusal_congr hsame⟩
    show (OutputHandler.apply _ (.rig output) actor textContext).exec s = _
    rw [exec_apply_rig, hexec]
  · rename_i handler hrig hsome
    rw [hsome]
    -- every other handler writes to the magic state alone
    have happly : OutputHandler.apply (rigHandler reprStr context) handler actor textContext =
        modify fun s => { s with
          magicState := s.magicState.map (fun magic =>
            magic.runHandler actor textContext handler) } := by
      cases handler with
      | rig output => exact absurd rfl (hrig output)
      | _ => rfl
    dsimp only
    rw [happly]
    exact ⟨_, exec_modify _ s, refusal_congr (SameParties.refl _)⟩

/-- The branch ends where the outputs before its first refused one do, with its error. -/
def StopsAtRefused (reprStr : String → String) (rigContext : RigContext) (outputs : List String)
    (actor : String) (context : OutputContext) (s s' : Snapshot ChassisRegistry)
    (e : MagicError) : Prop :=
  ∃ before refused after, outputs = before ++ refused :: after ∧
    (∀ accepted ∈ before, refusal reprStr rigContext actor s accepted = none) ∧
    refusal reprStr rigContext actor s refused = some e ∧
    (applyMandatoryOutputs (rigHandler reprStr rigContext) before actor context).exec s =
      (.ok ⟨⟩, s') ∧
    (before = [] → s' = s)

/-- **A branch raises exactly if one of its outputs is refused** of the snapshot it starts from, and
    leaves what the outputs before the first such one have done. -/
theorem applyMandatoryOutputs_stops (reprStr : String → String) (rigContext : RigContext)
    (outputs : List String) (actor : String) (context : OutputContext)
    (s : Snapshot ChassisRegistry) :
    ((∃ e s', (applyMandatoryOutputs (rigHandler reprStr rigContext) outputs actor context).exec s =
        (.error e, s')) ↔
      ∃ outputId ∈ outputs, refusal reprStr rigContext actor s outputId ≠ none) ∧
    ∀ e s', (applyMandatoryOutputs (rigHandler reprStr rigContext) outputs actor context).exec s =
        (.error e, s') →
      StopsAtRefused reprStr rigContext outputs actor context s s' e := by
  have hcases := forM_stops_at_refused (refusal reprStr rigContext actor)
    (applyOutput reprStr rigContext actor context)
    (fun outputId s e => exec_applyOutput_of_refused context)
    (fun outputId s => exec_applyOutput_of_accepted context) outputs s
  rcases hcases with ⟨hall, s₁, hexec⟩ | ⟨before, x, after, e₁, s₁, hsplit, hbefore, hx, hpart, hexec⟩
  · -- nothing is refused: the branch returns
    have hreturns : ∀ e s', (applyMandatoryOutputs (rigHandler reprStr rigContext) outputs actor
        context).exec s ≠ (.error e, s') := fun e s' h => not_returned_of_raised h hexec
    constructor
    · refine iff_of_false ?_ ?_
      · rintro ⟨e, s', h⟩
        exact hreturns e s' h
      · rintro ⟨outputId, hmem, hrefused⟩
        exact hrefused (hall outputId hmem)
    · intro e s' h
      exact absurd h (hreturns e s')
  · constructor
    · refine iff_of_true ⟨e₁, s₁, hexec⟩ ⟨x, ?_, ?_⟩
      · simp [hsplit]
      · simp [hx]
    · intro e s' h
      obtain ⟨he, rfl⟩ := Prod.mk.inj (hexec.symm.trans h)
      cases he
      refine ⟨before, x, after, hsplit, hbefore, hx, hpart, ?_⟩
      rintro rfl
      exact (congrArg Prod.snd hpart).symm

end Stops

/-- A world with magic and nothing else. -/
def quietWorld : Snapshot ChassisRegistry where
  magicState := some { config := { worldSlug := "coyote", ledgerBars := [] } }
  chassisRegistry := .empty

/-- **A branch that raises may leave a part of its outputs done**: an unknown identifier after a
    known one. -/
theorem not_unchanged_quietWorld :
    ¬ ∀ (rigContext : RigContext) (outputs : List String) (actor : String)
      (context : OutputContext) (s s' : Snapshot ChassisRegistry) (e : MagicError),
      (applyMandatoryOutputs (rigHandler id rigContext) outputs actor context).exec s =
        (.error e, s') → s' = s := by
  intro hunchanged
  have hsame := hunchanged {} ["control_tier_advance", "bogus"] "rux" {} quietWorld _ _ rfl
  have htier := congrArg (fun s => s.magicState.map (·.controlTier.keys)) hsame
  exact absurd htier (by decide)

end Sidequest.Magic
