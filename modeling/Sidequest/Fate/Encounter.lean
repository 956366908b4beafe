import Mathlib.Data.List.Sort
import Sidequest.Lib.Dict
import Sidequest.Lib.Effect
import Sidequest.Lib.First

namespace Sidequest.Fate

open Lib

/-!
# Fate sheets and encounters

The Fate facet of a creature, the ladder arithmetic of a roll of four Fudge dice, and the
mutators of a sheet.

* `FateSheet` — aspects, skills, fate points, stress tracks and consequence slots;
* `absorbShifts` — one stress box and then consequences against a hit;
* `GameSnapshot` — the cast, the sheets of its creatures, the encounter and the server's dice.
-/

section

/-! ### Dice and the ladder -/

/-- A face of a Fudge die. -/
inductive Face where
  | minus
  | blank
  | plus
deriving DecidableEq

/-- What a face counts. -/
def Face.value : Face → Int
  | .minus => -1
  | .blank => 0
  | .plus => 1

/-- Four Fudge dice. -/
structure Dice where
  (first second third fourth : Face)
deriving DecidableEq

/-- The sum of the faces. -/
def Dice.total (dice : Dice) : Int :=
  dice.first.value + dice.second.value + dice.third.value + dice.fourth.value

/-- The four outcomes, by shifts. -/
inductive FateTier where
  | fail
  | tie
  | succeed
  | succeedWithStyle

/-- Whether an opposition was rolled by somebody or is a set difficulty. -/
inductive OppositionKind where
  | active
  | passive

/-- The number a roll has to meet. -/
structure Opposition where
  value : Int
  kind : OppositionKind

/-- One resolved roll. -/
structure FateOutcome where
  dice : Dice
  (rollTotal ladderTotal opposition shifts : Int)
  tier : FateTier

/-- Shifts and tier of a ladder total against an opposition. -/
def classifyOutcome (ladderTotal opposition : Int) : Int × FateTier :=
  let shifts := ladderTotal - opposition
  if shifts < 0 then (shifts, .fail)
  else if shifts = 0 then (shifts, .tie)
  else if shifts ≤ 2 then (shifts, .succeed)
  else (shifts, .succeedWithStyle)

/-- The arithmetic that thrown and server-rolled dice share. -/
def buildOutcome (dice : Dice) (skillRating : Int) (opposition : Opposition)
    (invokeBonus : Int) : FateOutcome :=
  let ladderTotal := dice.total + skillRating + invokeBonus
  let outcome := classifyOutcome ladderTotal opposition.value
  ⟨dice, dice.total, ladderTotal, opposition.value, outcome.1, outcome.2⟩

/-! ### The sheet -/

/-- What an aspect is about. -/
inductive AspectKind where
  | highConcept
  | trouble
  | character
  | situation
  | consequence
  | boost
  | permission
deriving DecidableEq

/-- A phrase with unused free invocations. -/
structure Aspect where
  text : String
  kind : AspectKind
  freeInvokes : Int := 0
deriving DecidableEq

/-- A stress box of a fixed value. -/
structure StressBox where
  value : Int
  checked : Bool := false
deriving DecidableEq

/-- The severity of a consequence. -/
inductive ConsequenceLevel where
  | mild
  | moderate
  | severe
  | extreme
deriving DecidableEq

/-- The level's name, capitalized. -/
def ConsequenceLevel.title : ConsequenceLevel → String
  | .mild => "Mild"
  | .moderate => "Moderate"
  | .severe => "Severe"
  | .extreme => "Extreme"

/-- A consequence slot, open while it has no aspect. -/
structure Consequence where
  level : ConsequenceLevel
  value : Int
  aspect : Option Aspect := none
deriving DecidableEq

/-- The two sides of a creature a conflict can hurt. -/
inductive StressTrackName where
  | physical
  | mental
deriving DecidableEq

/-- The track of a conflict. -/
def trackOf (mental : Bool) : StressTrackName := if mental then .mental else .physical

/-- The default stress: two boxes on either track. -/
def defaultStress : Dict StressTrackName (List StressBox) :=
  (Dict.empty.insert .physical [⟨1, false⟩, ⟨2, false⟩]).insert .mental [⟨1, false⟩, ⟨2, false⟩]

/-- The default consequences: one open slot of every level. -/
def defaultConsequences : List Consequence :=
  [⟨.mild, 2, none⟩, ⟨.moderate, 4, none⟩, ⟨.severe, 6, none⟩, ⟨.extreme, 8, none⟩]

/-- The Fate facet of a creature. -/
structure FateSheet where
  aspects : List Aspect := []
  skills : Dict String Int := .empty
  fatePoints : Int := 3
  stress : Dict StressTrackName (List StressBox) := defaultStress
  consequences : List Consequence := defaultConsequences

variable (sheet : FateSheet)

/-- The rating of a skill, zero where it is not on the sheet. -/
def FateSheet.rating (skill : String) : Int :=
  (sheet.skills.get? skill).getD 0

/-- Every aspect on the sheet, those of the filled consequences included. -/
def FateSheet.allAspects : List Aspect :=
  sheet.aspects ++ sheet.consequences.filterMap Consequence.aspect

/-! ### What can go wrong -/

/-- What the Fate engine raises. -/
inductive FateError where
  -- the economy
  | noFatePoint (actor reason : String)
  | unknownAspect (actor aspect : String)
  | noStressTrack (actor : String) (track : StressTrackName)
  | noStressBox (actor : String) (track : StressTrackName) (value : Int)
  | noConsequenceSlot (actor : String) (level : ConsequenceLevel)
  | consequenceFilled (actor : String) (level : ConsequenceLevel) (aspect : String)
  -- the conflict
  | nonFateRuleset
  | noActiveEncounter
  | notSeated (actor : String)
  | attackInContest
  | noSheetToConcede (actor : String)
  | noSheetToAct (actor : String)
  | noSheetToCompel (actor : String)
  | noPendingCompel (actor aspect : String)
  | alreadyCommitted (actor : String)
  | nothingToAbsorb (shifts : Int)
  | noTrackToAbsorb (actor : String) (track : StressTrackName)
  | attackWithoutTarget
  | targetWithoutSheet (target : String)
  | unfilledDefense (target : String)
  | targetNotSeated (target : String)
  | opponentWithoutSheet (opponent : String)
  | contestRequired
  -- the defense
  | unknownRequest (requestId : String)
  | notYourDefense (requestId actor defender : String)
  | defenseRecorded (requestId : String)
  | noFaces

/-! ### The economy -/

/-- A computation on a sheet. -/
abbrev SheetM := Effect FateError FateSheet

variable (actor : String)

/-- Pay one fate point. -/
def spendFatePoint (reason : String) : SheetM PUnit := do
  let sheet ← get
  if sheet.fatePoints ≤ 0 then throw (.noFatePoint actor reason)
  else modify fun sheet => { sheet with fatePoints := sheet.fatePoints - 1 }

/-- Earn one fate point. -/
def earnFatePoint : SheetM PUnit :=
  modify fun sheet => { sheet with fatePoints := sheet.fatePoints + 1 }

/-- What an invocation is used for. -/
inductive InvokeMode where
  | bonus
  | reroll
deriving DecidableEq

/-- Use up one free invocation of the first aspect with the text. -/
def FateSheet.useFreeInvoke (text : String) : FateSheet :=
  let use (aspect : Aspect) : Aspect := { aspect with freeInvokes := aspect.freeInvokes - 1 }
  if sheet.aspects.any (fun aspect => aspect.text = text) then
    { sheet with aspects := updateFirst (fun aspect => aspect.text = text) use sheet.aspects }
  else
    { sheet with
      consequences := updateFirst (fun c => c.aspect.any (fun aspect => aspect.text = text))
        (fun c => { c with aspect := c.aspect.map use }) sheet.consequences }

/-- What an invocation costs: a free one if the aspect has it, and a fate point otherwise. -/
def payInvocation (aspect : Aspect) : SheetM PUnit :=
  if 0 < aspect.freeInvokes then modify fun sheet => sheet.useFreeInvoke aspect.text
  else spendFatePoint actor "invoke"

/-- Invoke an aspect for a bonus or a reroll. -/
def invokeAspect (text : String) (mode : InvokeMode) : SheetM Int := do
  let sheet ← get
  match sheet.allAspects.find? (fun aspect => aspect.text = text) with
  | none => throw (.unknownAspect actor text)
  | some aspect => do
    payInvocation actor aspect
    pure (match mode with
      | .bonus => 2
      | .reroll => 0)

variable (track : StressTrackName)

/-- Check the unused stress box of a value. -/
def markStress (value : Int) : SheetM PUnit := do
  let sheet ← get
  match sheet.stress.get? track with
  | none => throw (.noStressTrack actor track)
  | some boxes =>
    if boxes.any (fun box => box.value = value && !box.checked) then
      modify fun sheet => { sheet with
        stress := sheet.stress.modify track
          (updateFirst (fun box => box.value = value && !box.checked)
            (fun box => { box with checked := true })) }
    else throw (.noStressBox actor track value)

/-- Fill the slot of a level: its aspect has one free invocation. -/
def takeConsequence (level : ConsequenceLevel) (text : String) : SheetM PUnit := do
  let sheet ← get
  match sheet.consequences.find? (fun slot => slot.level = level) with
  | none => throw (.noConsequenceSlot actor level)
  | some slot =>
    match slot.aspect with
    | some aspect => throw (.consequenceFilled actor level aspect.text)
    | none =>
      modify fun sheet => { sheet with
        consequences := updateFirst (fun slot => slot.level = level)
          (fun slot => { slot with aspect := some ⟨text, .consequence, 1⟩ }) sheet.consequences }

/-- Fill open slots in the order given until the shifts are covered; the rest is returned. -/
def takeConsequences (actor source : String) : List Consequence → Int → SheetM Int
  | [], remaining => pure remaining
  | slot :: slots, remaining =>
    if remaining ≤ 0 then pure remaining
    else do
      takeConsequence actor slot.level
        (slot.level.title ++ " consequence inflicted by " ++ source)
      takeConsequences actor source slots (max 0 (remaining - slot.value))

/-- The value of the one stress box that takes a hit: the smallest that covers it, else the
    largest there is. -/
def chooseBox (boxes : List StressBox) (shifts : Int) : Option Int :=
  let values := (boxes.filter (fun box => !box.checked)).map StressBox.value
  match (values.filter (fun value => shifts ≤ value)).min? with
  | some value => some value
  | none => values.max?

/-- Mark the box that takes a hit, if there is one; the shifts it leaves are returned. -/
def markBox (boxes : List StressBox) (shifts : Int) (actor : String) : SheetM Int :=
  match chooseBox boxes shifts with
  | some value => do
    markStress actor track value
    pure (max 0 (shifts - value))
  | none => pure shifts

/-- The open slots, smallest first. -/
def FateSheet.openSlots : List Consequence :=
  (sheet.consequences.filter (fun slot => slot.aspect = none)).insertionSort
    (fun a b => a.value ≤ b.value)

/-- Absorb a hit with at most one stress box and any number of consequences, smallest first.
    The answer is whether nothing is left of it. -/
def absorbShifts (shifts : Int) (actor source : String) : SheetM Bool :=
  if shifts ≤ 0 then throw (.nothingToAbsorb shifts)
  else do
    let sheet ← get
    match sheet.stress.get? track with
    | none => throw (.noTrackToAbsorb actor track)
    | some boxes => do
      let remaining ← markBox track boxes shifts actor
      let sheet ← get
      let remaining ← takeConsequences actor source sheet.openSlots remaining
      pure (decide (remaining ≤ 0))

end

/-! ### Seats -/

/-- The side of a seat. -/
inductive ActorSide where
  | player
  | opponent
  | neutral
deriving DecidableEq

/-- A seat of the encounter. -/
structure EncounterActor where
  name : String
  side : ActorSide
  withdrawn : Bool := false

/-- How far an encounter has come. -/
inductive EncounterPhase where
  | setup
  | opening
  | escalation
  | climax
  | resolution

/-! ### The ledgers of an exchange -/

/-- The three actions that can be committed. -/
inductive FateAction where
  | overcome
  | createAdvantage
  | attack
deriving DecidableEq

/-- The action as it stands in the resolution log. -/
def FateAction.wire : FateAction → String
  | .overcome => "overcome"
  | .createAdvantage => "create_advantage"
  | .attack => "attack"

/-- One sealed action, its roll included. -/
structure FateSealedCommit where
  actor : String
  action : FateAction
  skill : String
  target : Option String := none
  difficulty : Int := 0
  ladderTotal : Int := 0
  dice : Dice := ⟨.blank, .blank, .blank, .blank⟩
  aspectText : String := ""
deriving DecidableEq

/-- One attack on a PC that waits for the PC's defense. -/
structure FatePendingDefense where
  (requestId attacker defender attackSkill : String)
  attackTotal : Int
  mental : Bool := false
  defenseTotal : Option Int := none
  conceded : Bool := false
  defenseSkill : String := ""
deriving DecidableEq

/-- The defense was thrown, or conceded. -/
def FatePendingDefense.answered (entry : FatePendingDefense) : Bool :=
  entry.defenseTotal.isSome || entry.conceded

/-- The victories of a contest. -/
structure ContestState where
  target : Int := 3
  playerVictories : Int := 0
  opponentVictories : Int := 0
deriving DecidableEq

/-- A compel the narrator offered. -/
structure PendingCompel where
  (target aspect : String)
  reason : String := ""
deriving DecidableEq

/-- One resolved action of the last exchange. -/
structure FateExchangeLine where
  (actor action skill target defenseSkill : String)
  (actorTotal oppositionTotal shifts : Int)
  (outcome detail : String)

/-! ### The encounter -/

/-- An encounter, as far as the Fate engine uses it. -/
structure StructuredEncounter where
  category : String := ""
  structuredPhase : Option EncounterPhase := none
  actors : List EncounterActor := []
  fateCommits : List FateSealedCommit := []
  pendingDefenses : List FatePendingDefense := []
  contest : Option ContestState := none
  situationAspects : List Aspect := []
  pendingCompels : List PendingCompel := []
  outcome : Option String := none
  resolved : Bool := false
  narratorHints : List String := []
  fateResolutionLog : List FateExchangeLine := []

variable (encounter : StructuredEncounter) (name : String)

namespace StructuredEncounter

/-- A social conflict hurts the mind, every other one the body. -/
def mental : Bool := encounter.category = "social"

/-- The first seat with the name. -/
def findActor : Option EncounterActor :=
  encounter.actors.find? (fun actor => actor.name = name)

/-- The first seat with the name withdraws, if there is one. -/
def withdraw : StructuredEncounter :=
  { encounter with
    actors := updateFirst (fun actor => actor.name = name)
      (fun actor => { actor with withdrawn := true }) encounter.actors }

/-- The seats of a side. -/
def sideOf (side : ActorSide) : List EncounterActor :=
  encounter.actors.filter (fun actor => actor.side = side)

/-- The encounter is over. -/
def resolve (outcome : String) : StructuredEncounter :=
  { encounter with
    resolved := true
    outcome := some outcome
    structuredPhase := some .resolution }

/-- End the encounter when one side is wholly withdrawn. -/
def maybeResolveSideCleared : StructuredEncounter :=
  let players := encounter.sideOf .player
  let opponents := encounter.sideOf .opponent
  if encounter.resolved then encounter
  else if opponents ≠ [] ∧ opponents.all EncounterActor.withdrawn then
    encounter.resolve "opponent_yielded"
  else if players ≠ [] ∧ players.all EncounterActor.withdrawn then
    encounter.resolve "yielded"
  else encounter

/-- The compel on the aspect offered to the target. -/
def findPendingCompel (target aspect : String) : Option PendingCompel :=
  encounter.pendingCompels.find? (fun compel => compel.target = target ∧ compel.aspect = aspect)

/-- The pending defense of a request. -/
def findPendingDefense (requestId : String) : Option FatePendingDefense :=
  encounter.pendingDefenses.find? (fun entry => entry.requestId = requestId)

/-- Change the pending defense of a request. -/
def updatePendingDefense (requestId : String) (f : FatePendingDefense → FatePendingDefense) :
    StructuredEncounter :=
  { encounter with
    pendingDefenses := updateFirst (fun entry => entry.requestId = requestId) f
      encounter.pendingDefenses }

/-- Every pending defense is answered. -/
def ledgerFull : Bool :=
  encounter.pendingDefenses.all FatePendingDefense.answered

end StructuredEncounter

/-! ### The cast -/

/-- An NPC of the roster. -/
structure Npc where
  name : String
  aliases : List String := []
  inventedFrom : Option String := none

/-- The creatures that names are resolved to. The normalization that the roster lookup compares
    names by is any function: nothing here depends on which. -/
structure Cast where
  characters : List String
  npcs : List Npc
  normalizeName : String → String

/-- A creature, by its place in the cast. -/
inductive CoreRef where
  | character (i : Nat)
  | npc (i : Nat)
deriving DecidableEq

namespace Cast

/-- The roster lookup: by normalized name, by alias, by the name an NPC was invented from. -/
def resolveRosterNpc (cast : Cast) (name : String) : Option CoreRef :=
  let query := cast.normalizeName name
  let named (npc : Npc) : Bool := cast.normalizeName npc.name = query
  let aliased (npc : Npc) : Bool := npc.aliases.any (fun other => cast.normalizeName other = query)
  let invented (npc : Npc) : Bool :=
    npc.inventedFrom.any (fun origin => origin ≠ "" && cast.normalizeName origin = query)
  if query = "" then none
  else ((cast.npcs.findIdx? named).or
    ((cast.npcs.findIdx? aliased).or (cast.npcs.findIdx? invented))).map .npc

/-- Resolve a name: exact among the characters, exact among the NPCs, then the roster lookup. -/
def findCreatureCore (cast : Cast) (name : String) : Option CoreRef :=
  ((cast.characters.findIdx? (fun character => character = name)).map CoreRef.character).or
    (((cast.npcs.findIdx? (fun npc => npc.name = name)).map CoreRef.npc).or
      (cast.resolveRosterNpc name))

end Cast

/-! ### The snapshot -/

/-- The state the Fate engine works on. The dice are those the server will roll, in order. -/
structure GameSnapshot where
  cast : Cast
  sheets : CoreRef → Option FateSheet
  encounter : StructuredEncounter
  fateRuleset : Bool := true
  rolls : Nat → Dice

namespace GameSnapshot

/-- The Fate sheet of the creature a name resolves to. -/
def fateSheet (snapshot : GameSnapshot) (name : String) : Option FateSheet :=
  (snapshot.cast.findCreatureCore name).bind snapshot.sheets

/-- Replace the Fate sheet of the creature a name resolves to. -/
def putFateSheet (sheet : FateSheet) (snapshot : GameSnapshot) : GameSnapshot :=
  match snapshot.cast.findCreatureCore name with
  | none => snapshot
  | some ref => { snapshot with sheets := Function.update snapshot.sheets ref (some sheet) }

/-- The rating of a skill of the creature a name resolves to; without a sheet it is zero. -/
def rating (snapshot : GameSnapshot) (name skill : String) : Int :=
  ((snapshot.fateSheet name).map (fun sheet => sheet.rating skill)).getD 0

/-- The track the encounter hurts. -/
def track (snapshot : GameSnapshot) : StressTrackName := trackOf snapshot.encounter.mental

end GameSnapshot

/-- A computation on the snapshot that may raise. -/
abbrev FateM := Effect FateError GameSnapshot

/-- Run a computation on the sheet of the creature a name resolves to. -/
def onSheet {α : Type} (absent : FateError) (m : SheetM α) : FateM α :=
  onPart (fun snapshot => snapshot.fateSheet name) (GameSnapshot.putFateSheet name) absent m

/-- Change the encounter. -/
def modifyEncounter (f : StructuredEncounter → StructuredEncounter) : FateM PUnit :=
  modify fun snapshot => { snapshot with encounter := f snapshot.encounter }

/-- Roll four Fudge dice on the server. -/
def roll4df : FateM Dice := do
  let snapshot ← get
  modify fun snapshot => { snapshot with rolls := fun n => snapshot.rolls (n + 1) }
  pure (snapshot.rolls 0)

/-- Roll on the server against an opposition. -/
def resolveAction (skillRating : Int) (opposition : Opposition) (invokeBonus : Int) :
    FateM FateOutcome := do
  let dice ← roll4df
  pure (buildOutcome dice skillRating opposition invokeBonus)

end Sidequest.Fate
