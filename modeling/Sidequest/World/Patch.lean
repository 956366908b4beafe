import Sidequest.Lib.Dict
import Sidequest.Lib.Effect
import Sidequest.Lib.First
import Sidequest.Lib.PyString

namespace Sidequest.World

open Lib

/-!
# World patches

A patch sets fields of the world; only the fields it has are applied, one after another on the
live snapshot. Where a field raises, the fields before it stay applied.

* `Disposition`, `HpPool` — the two clamped numbers of a creature;
* `validateRegionName`, `canonicalizeRegionName`, `discoverRegion` — what may stand on the list of
  discovered regions, when two names are the same region, and how the list takes a name in;
  compatibility decomposition of Unicode is a parameter;
* `applyWorldPatch` — all fields in their order.
-/

section

/-! ### Creatures -/

/-- A relationship score, clamped when it is built. -/
structure Disposition where
  value : Int
  ge : -100 ≤ value
  le : value ≤ 100

/-- The score closest to a number. -/
def Disposition.clamp (value : Int) : Disposition where
  value := max (-100) (min 100 value)
  ge := le_max_left _ _
  le := max_le (by omega) (min_le_left _ _)

/-- How many shifts a creature remembers. -/
def dispositionLogCap : Nat := 10

/-- The reason a patch gives for a shift. -/
def patchBeatReason : String := "shifted by unfolding events"

/-- One persisted disposition shift. -/
structure DispositionBeat where
  turn : Nat
  delta : Int
  reason : String
  location : Option String := none

/-- A pool of hit points. -/
structure HpPool where
  (current max baseMax : Int)

/-- Apply a delta: capped at the maximum, floored at zero. -/
def HpPool.applyDelta (hp : HpPool) (delta : Int) : HpPool :=
  { hp with current := Max.max 0 (min hp.max (hp.current + delta)) }

/-- What all creatures have. -/
structure CreatureCore where
  name : String
  hp : HpPool

/-- Apply a delta to the hit points. -/
def CreatureCore.applyHpDelta (core : CreatureCore) (delta : Int) : CreatureCore :=
  { core with hp := core.hp.applyDelta delta }

/-- How sure a fact is. -/
inductive FactConfidence where
  | certain
  | suspected
  | rumored
  | discovered

/-- What a fact is about. -/
inductive FactCategory where
  | lore
  | place
  | person
  | quest
  | ability

/-- A fact a character has learned. -/
structure KnownFact where
  content : String
  confidence : FactConfidence := .certain
  source : String := "GameEvent"
  learnedTurn : Int := 0
  factId : String
  category : FactCategory := .lore

/-- A player's character. -/
structure Character where
  core : CreatureCore
  knownFacts : List KnownFact := []

/-- A creature the narrator plays. -/
structure Npc where
  core : CreatureCore
  disposition : Disposition
  dispositionLog : List DispositionBeat := []

/-- Record a shift and trim to the cap; a shift by nothing leaves no beat. -/
def Npc.recordDispositionBeat (npc : Npc) (beat : DispositionBeat) : Npc :=
  if beat.delta = 0 then npc
  else
    let log := npc.dispositionLog ++ [beat]
    { npc with dispositionLog := log.drop (log.length - dispositionLogCap) }

/-- Somebody the narrator may cite. -/
structure NpcPoolMember where
  name : String
  drawnFrom : Option String := none

/-! ### Quests and the map -/

/-- The most quests the log takes. -/
def questLogCardinalityCap : Nat := 32

/-- A quest of the campaign. -/
structure QuestEntry where
  title : String := ""
  objective : String := ""
  status : String := "active"
  anchorId : Option String := none
deriving DecidableEq

/-- An authored quest on offer. -/
structure QuestSeed where
  (questId title objective : String)
  stakes : String := ""
  anchor : Option String := none
  giver : String := ""

/-- One relocation receipt. -/
structure RegionTransition where
  turn : Nat
  pcName : String
  fromRegion : Option String := none
  (toRegion via : String)

/-! ### The snapshot -/

/-- The part of the snapshot that a world patch reads and writes. -/
structure GameSnapshot where
  playerSeats : Dict String String := .empty
  characters : List Character := []
  npcs : List Npc := []
  npcPool : List NpcPoolMember := []
  characterLocations : Dict String String := .empty
  timeOfDay : String := ""
  atmosphere : String := ""
  questLog : Dict String QuestEntry := .empty
  questAnchors : List String := []
  notes : List String := []
  pcRegions : Dict String String := .empty
  regionTransitions : List RegionTransition := []
  currentRegion : String := ""
  discoveredRegions : List String := []
  discoveredRoutes : List String := []
  activeStakes : String := ""
  loreEstablished : List String := []
  pendingQuestOffers : Dict String QuestSeed := .empty
  interaction : Nat := 0

namespace GameSnapshot

variable (s : GameSnapshot)

/-- The names on the seats. -/
def seated : List String := s.playerSeats.values.filter (· ≠ "")

/-- The seated characters, or all of them while nobody is seated. -/
def party : List String :=
  if s.seated.isEmpty then s.characters.map (fun ch => ch.core.name) else s.seated

end GameSnapshot

/-- The place all names have an entry of and agree on; none for no name. -/
def consensus (places : Dict String String) (names : List String) : Option String :=
  let found := names.map places.get?
  if found.any Option.isNone || found.dedup.length ≠ 1 then none else found.head?.join

namespace GameSnapshot

variable (s : GameSnapshot)

/-- Where the party is: the seated characters' common location. -/
def partyLocation : Option String := consensus s.characterLocations s.seated

/-- Which region the party is in: the seated characters' common region. -/
def regionFor : Option String := consensus s.pcRegions s.seated

/-- Seed one name, and count it if it was; with `onlyMissing`, a name that has an entry keeps
    it. -/
def seedName (regionId : String) (onlyMissing : Bool) (acc : Dict String String × Nat)
    (name : String) : Dict String String × Nat :=
  if onlyMissing = true ∧ name ∈ acc.1.keys then acc
  else (acc.1.insert name regionId, acc.2 + 1)

/-- Seed the party's regions, and count those that were. -/
def seedPcRegions (regionId : String) (onlyMissing : Bool) : GameSnapshot × Nat :=
  let seeded := s.party.foldl (seedName regionId onlyMissing) (s.pcRegions, 0)
  ({ s with pcRegions := seeded.1 }, seeded.2)

end GameSnapshot

/-! ### The running session -/

/-- A region transition as the observers are told of it. -/
structure RegionNotice where
  pcName : String
  fromRegion : Option String
  toRegion : String
deriving DecidableEq

/-- The name notices bear that are about nobody. -/
def anchorName : String := "__anchor__"

/-- The snapshot of a running session, with the notices that went out and the count of the ids
    that were drawn. -/
structure Session extends GameSnapshot where
  notified : List RegionNotice := []
  idsDrawn : Nat := 0

end

/-! ### Region names -/

section

/-- Why a text is no region name. -/
inductive RegionRejection where
  | empty
  | multiline
  | bracketed
  | tooLong

/-- The longest region name, in characters. -/
def maxRegionNameLength : Nat := 80

/-- Opening punctuation of commentary. -/
def bracketPrefixes : List Char := ['(', '[', '\x7b', '<']

/-- The reason why the text is no region name; none for a name. -/
def validateRegionName (name : String) : Option RegionRejection :=
  let stripped := strip name
  if stripped = "" then some .empty
  else if stripped.toList.any (fun c => c = '\n' || c = '\r') then some .multiline
  else if stripped.toList.head?.any (fun c => c ∈ bracketPrefixes) then some .bracketed
  else if stripped.length > maxRegionNameLength then some .tooLong
  else none

/-- Unicode separators count as word boundaries: dashes and hyphens as `-`, the no-break space and
    the ellipsis as a blank. -/
def translateSeparator (c : Char) : Char :=
  if c.toNat ∈ [0x2013, 0x2014, 0x2015, 0x2010, 0x2011, 0x2012] then '-'
  else if c.toNat ∈ [0xa0, 0x2026] then ' '
  else c

/-- What a run of other characters is collapsed into a single `-` between. -/
def isSlugChar (c : Char) : Bool := c.isLower || c.isDigit

/-- Runs of characters outside the slug alphabet become one `-` each. -/
def collapseRuns : List Char → List Char
  | [] => []
  | c :: l =>
    if isSlugChar c then c :: collapseRuns l
    else match collapseRuns l with
      | '-' :: l' => '-' :: l'
      | l' => '-' :: l'

/-- The slug of a name: decomposed, reduced to ASCII, lowered, runs of other characters collapsed,
    and the dashes trimmed off its ends. -/
def canonicalizeRegionName (nfkd : String → String) (name : String) : String :=
  let pre := String.ofList (name.toList.map translateSeparator)
  let ascii := (nfkd pre).toList.filter (fun c => c.toNat < 128)
  let slug := collapseRuns (ascii.map Char.toLower)
  String.ofList ((slug.dropWhile (· = '-')).rdropWhile (· = '-'))

/-- Take a name into a list of regions: no invalid name, no second spelling of one that is in. -/
def discoverRegion (nfkd : String → String) (discovered : List String) (name : String) :
    List String :=
  if (validateRegionName name).isSome then discovered
  else if discovered.any
      (fun known => canonicalizeRegionName nfkd known = canonicalizeRegionName nfkd name) then
    discovered
  else discovered ++ [name]

end

/-! ### Patches -/

/-- Why applying a patch raises. -/
inductive PatchError where
  /-- The quest log is full, and the offer cannot be minted. -/
  | questLogFull (questId : String)
  /-- An observer of region transitions raised. -/
  | observerRaised
  /-- A discovered fact is no `KnownFact`. -/
  | invalidFact

/-- A fact a character discovered, not validated yet. -/
structure DiscoveredFact (F : Type) where
  characterName : String
  fact : F

/-- A patch of the world; `none` is no change. -/
structure WorldStatePatch (F : Type) where
  location : Option String := none
  timeOfDay : Option String := none
  atmosphere : Option String := none
  questLog : Option (Dict String QuestEntry) := none
  notes : Option (List String) := none
  currentRegion : Option String := none
  pcRegion : Option (Dict String String) := none
  discoveredRegions : Option (List String) := none
  discoveredRoutes : Option (List String) := none
  discoverRegions : Option (List String) := none
  discoverRoutes : Option (List String) := none
  hpChanges : Option (Dict String Int) := none
  npcAttitudes : Option (Dict String Int) := none
  activeStakes : Option String := none
  loreEstablished : Option (List String) := none
  discoveredFacts : Option (List (DiscoveredFact F)) := none
  questAnchors : Option (List String) := none

/-! ### Observers -/

/-- The states differ in quests, quest anchors and the pool of citable names at most. -/
def SameButQuests (s s' : GameSnapshot) : Prop :=
  s' = { s with questLog := s'.questLog, questAnchors := s'.questAnchors, npcPool := s'.npcPool }

/-- An observer of region transitions: it stages names or projects quests, and it may raise. -/
structure FrontierObserver where
  observe : RegionNotice → Effect PatchError GameSnapshot Unit
  sameButQuests : ∀ notice, Preserves SameButQuests (observe notice)

/-- An entity of an authored region, with the kind of what it is bound to. -/
structure RegionEntity where
  label : String
  bindingKind : Option String := none

/-- Cite the region's cast; a name that can be cited is not staged again. -/
def stageCast (entities : List RegionEntity) (s : GameSnapshot) : GameSnapshot :=
  { s with
    npcPool := entities.foldl (fun pool entity =>
      if entity.bindingKind = some "npc" ∧ pool.all (fun member => member.name ≠ entity.label) then
        pool ++ [{ name := entity.label, drawnFrom := some "world_authored" }]
      else pool) s.npcPool }

/-- The observer that stages a region's authored cast. It raises for a genre that cannot be loaded,
    and stages nothing in a world without cartography or in a region the cartography does not
    have. -/
def stageRegionCast (cartography : Option (Option (Dict String (List RegionEntity)))) :
    FrontierObserver where
  observe notice :=
    match cartography with
    | none => throw .observerRaised
    | some none => pure ()
    | some (some regions) =>
      match regions.get? notice.toRegion with
      | none => pure ()
      | some entities => modify (stageCast entities)
  sameButQuests notice := by
    intro s
    rcases cartography with _ | _ | regions
    · exact rfl
    · exact rfl
    · dsimp only
      rcases regions.get? notice.toRegion with _ | entities
      · exact rfl
      · exact rfl

/-- What a patch is applied with: the registered observers, compatibility decomposition, the fresh
    ids, and the validation of a fact, which gives the fact for the id it takes if it brings none. -/
structure PatchContext (F : Type) where
  observers : List FrontierObserver
  nfkd : String → String
  freshId : Nat → String
  modelValidate : F → Option (String → KnownFact)

/-- Run a computation on the snapshot of the session. -/
def onSnapshot (m : Effect PatchError GameSnapshot Unit) : Effect PatchError Session Unit :=
  ExceptT.mk (m := StateM Session) fun s =>
    ((m.exec s.toGameSnapshot).1, { s with toGameSnapshot := (m.exec s.toGameSnapshot).2 })

variable {F : Type} (ctx : PatchContext F)

variable (patch : WorldStatePatch F) (s : Session) (notice : RegionNotice)

/-- The notice goes out, and the region it is about is a discovered one from now on. -/
def announce (s : Session) : Session :=
  { s with
    notified := s.notified ++ [notice]
    discoveredRegions :=
      if notice.toRegion ∈ s.discoveredRegions then s.discoveredRegions
      else s.discoveredRegions ++ [notice.toRegion] }

/-- Fire the frontier seam for one region transition: every observer is told, in the order of
    registration. -/
def notifyRegionTransition : Effect PatchError Session Unit := do
  modify (announce notice)
  ctx.observers.forM (fun observer => onSnapshot (observer.observe notice))

/-! ### Minting -/

/-- The entry of a quest that is accepted. -/
def QuestSeed.toEntry (seed : QuestSeed) : QuestEntry :=
  { title := seed.title, objective := seed.objective, status := "active", anchorId := seed.anchor }

variable (fromRegion : Option String) (region questId : String)

/-- The quest is in the log, its anchor is known, its stakes fill empty ones, and the offer is
    consumed. -/
def acceptOffer (seed : QuestSeed) (s : Session) : Session :=
  { s with
    questLog := s.questLog.insert questId seed.toEntry
    questAnchors :=
      match seed.anchor with
      | some anchor =>
        if anchor = "" ∨ anchor ∈ s.questAnchors then s.questAnchors else s.questAnchors ++ [anchor]
      | none => s.questAnchors
    activeStakes :=
      if seed.stakes ≠ "" ∧ s.activeStakes = "" then seed.stakes else s.activeStakes
    pendingQuestOffers := s.pendingQuestOffers.erase questId }

/-- The offer is taken off the pending ones. -/
def consumeOffer (s : Session) : Session :=
  { s with pendingQuestOffers := s.pendingQuestOffers.erase questId }

/-- Mint a pending offer. A quest that is in the log is not minted again, but its offer is
    consumed; an offer nobody made is ignored; past the cap the mint raises before it consumes. -/
def mintQuestOffer : Effect PatchError Session (Option QuestEntry) := do
  let s ← get
  if (s.questLog.get? questId).isSome then do
    modify (consumeOffer questId)
    pure none
  else match s.pendingQuestOffers.get? questId with
    | none => pure none
    | some seed =>
      if s.questLog.keys.length ≥ questLogCardinalityCap then
        throw (.questLogFull questId)
      else do
        modify (acceptOffer questId seed)
        pure (some seed.toEntry)

/-- The pending offers whose anchor is the region. -/
def anchoredOffers (offers : Dict String QuestSeed) (toRegion : String) : List String :=
  (offers.entries.filter
    (fun offer => offer.2.anchor.any (fun anchor => anchor ≠ "" && anchor = toRegion))).map Prod.fst

/-- `x or None` of an optional text. -/
def orNone (x : Option String) : Option String := x.filter (· ≠ "")

variable (toRegion : String)

/-- Crossing from a region into the anchor of pending offers mints them, all of them. -/
def mintOnAnchorCrossing : Effect PatchError Session (List QuestEntry) := do
  let s ← get
  if orNone fromRegion = none ∨ toRegion = "" then pure []
  else
    (anchoredOffers s.pendingQuestOffers toRegion).foldlM (fun minted questId => do
      let entry ← mintQuestOffer questId
      pure (minted ++ entry.toList)) []

/-! ### Regions of single characters -/

/-- Set a character's region. -/
def setPcRegion (pcName toRegion : String) (s : Session) : Session :=
  { s with pcRegions := s.pcRegions.insert pcName toRegion }

/-- Stamp a relocation receipt. -/
def stampTransition (s : Session) : Session :=
  { s with
    regionTransitions := s.regionTransitions ++
      [{ turn := s.interaction
         pcName := notice.pcName
         fromRegion := notice.fromRegion
         toRegion := notice.toRegion
         via := "world_patch" }] }

/-- A genuine crossing: the receipt, the notice, and the quests it accepts. -/
def crossInto : Effect PatchError Session Unit := do
  modify (stampTransition notice)
  notifyRegionTransition ctx notice
  let _minted ← mintOnAnchorCrossing notice.fromRegion notice.toRegion
  pure ()

/-- One entry of `pc_region`: the character's region is set, and a genuine change to a non-empty
    region is a crossing. -/
def movePc (move : String × String) : Effect PatchError Session Unit := do
  let s ← get
  modify (setPcRegion move.1 move.2)
  if move.2 ≠ "" ∧ s.pcRegions.get? move.1 ≠ some move.2 then
    crossInto ctx
      { pcName := move.1, fromRegion := orNone (s.pcRegions.get? move.1), toRegion := move.2 }
  else pure ()

/-- The anchor follows a party that agrees on a region. -/
def syncAnchor : Session :=
  { s with currentRegion := (orNone s.regionFor).getD s.currentRegion }

/-- The `pc_region` branch. -/
def applyPcRegion : Effect PatchError Session Unit :=
  match patch.pcRegion with
  | none => pure ()
  | some moves => do
    moves.entries.forM (movePc ctx)
    modify syncAnchor

/-! ### The anchor -/

/-- Those of the party whose region is another one. -/
def absentees (s : GameSnapshot) : List String :=
  s.party.filter (fun name => s.pcRegions.get? name ≠ some region)

/-- Those the seam is fired for when the anchor moves: everybody who is elsewhere, or nobody. -/
def heralded (s : GameSnapshot) : List String :=
  if absentees region s = [] then [anchorName] else absentees region s

/-- Seed the party where it has no region. -/
def seedMissing (s : Session) : Session :=
  { s with toGameSnapshot := (s.seedPcRegions region true).1 }

/-- The notice about a character when the anchor moves. -/
def anchorNotice (pcName : String) : RegionNotice where
  pcName := pcName
  fromRegion := fromRegion
  toRegion := toRegion

/-- The anchor moved: the party is seeded, and the seam is fired for everybody who was elsewhere. -/
def gatherParty : Effect PatchError Session Unit := do
  let s ← get
  modify (seedMissing toRegion)
  (heralded toRegion s.toGameSnapshot).forM
    (fun pcName => notifyRegionTransition ctx (anchorNotice fromRegion toRegion pcName))

/-- Set the anchor. -/
def setAnchor (s : Session) : Session := { s with currentRegion := region }

/-- The `current_region` branch. -/
def applyCurrentRegion : Effect PatchError Session Unit :=
  match patch.currentRegion with
  | none => pure ()
  | some region => do
    let s ← get
    modify (setAnchor region)
    if region ≠ "" ∧ region ≠ s.currentRegion then
      gatherParty ctx (orNone (some s.currentRegion)) region
    else pure ()

/-! ### Fields that are set -/

/-- `location`: everybody in the party is there. -/
def applyLocation : Session :=
  match patch.location with
  | none => s
  | some location =>
    { s with
      characterLocations :=
        s.party.foldl (fun places name => places.insert name location) s.characterLocations }

/-- Append what is not on the list yet. -/
def unionList (l new : List String) : List String :=
  new.foldl (fun l x => if x ∈ l then l else l ++ [x]) l

/-- The branches before the regions: `location`, `time_of_day`, `atmosphere`, `quest_log` (which is
    replaced), `quest_anchors` (which are united), `notes`. -/
def applyScene : Session :=
  { applyLocation patch s with
    timeOfDay := patch.timeOfDay.getD s.timeOfDay
    atmosphere := patch.atmosphere.getD s.atmosphere
    questLog := patch.questLog.getD s.questLog
    questAnchors := unionList s.questAnchors (patch.questAnchors.getD [])
    notes := patch.notes.getD s.notes }

/-- `discovered_regions`, which are replaced by the valid names among them, and `discover_regions`,
    which are added. -/
def applyDiscoveredRegions (discovered : List String) : List String :=
  (patch.discoverRegions.getD []).foldl (discoverRegion ctx.nfkd)
    (match patch.discoveredRegions with
    | none => discovered
    | some regions => regions.foldl (discoverRegion ctx.nfkd) [])

/-- The branches between the regions and the facts: discovered regions and routes, stakes, lore. -/
def applyMap : Session :=
  { s with
    discoveredRegions := applyDiscoveredRegions ctx patch s.discoveredRegions
    discoveredRoutes :=
      unionList (patch.discoveredRoutes.getD s.discoveredRoutes) (patch.discoverRoutes.getD [])
    activeStakes := patch.activeStakes.getD s.activeStakes
    loreEstablished := s.loreEstablished ++ patch.loreEstablished.getD [] }

/-! ### Facts -/

/-- Validate a fact. -/
def validateFact (fact : F) : Effect PatchError Session KnownFact :=
  match ctx.modelValidate fact with
  | none => throw .invalidFact
  | some build => do
    let s ← get
    modify (fun s => { s with idsDrawn := s.idsDrawn + 1 })
    pure (build (ctx.freshId s.idsDrawn))

/-- The character learns a fact. -/
def Character.learn (fact : KnownFact) (ch : Character) : Character :=
  { ch with knownFacts := ch.knownFacts ++ [fact] }

/-- The character at a place of the list learns a fact. -/
def learnAt (i : Nat) (fact : KnownFact) (s : Session) : Session :=
  { s with characters := s.characters.modify i (Character.learn fact) }

/-- A character of the name learns the fact, which is validated for each of them. -/
def learnFact (df : DiscoveredFact F) (ch : Character × Nat) : Effect PatchError Session Unit :=
  if ch.1.core.name = df.characterName then do
    let fact ← validateFact ctx df.fact
    modify (learnAt ch.2 fact)
  else pure ()

/-- All characters of the name learn the fact. -/
def deliverFact (df : DiscoveredFact F) : Effect PatchError Session Unit := do
  let s ← get
  s.characters.zipIdx.forM (learnFact ctx df)

/-- The `discovered_facts` branch. -/
def applyDiscoveredFacts : Effect PatchError Session Unit :=
  (patch.discoveredFacts.getD []).forM (deliverFact ctx)

/-! ### Hit points and attitudes -/

/-- A change of hit points goes to the first character of the name, else to the first creature. -/
def applyHpChange (change : String × Int) : Session :=
  if s.characters.any (fun ch => ch.core.name = change.1) then
    { s with
      characters := updateFirst (fun ch => ch.core.name = change.1)
        (fun ch => { ch with core := ch.core.applyHpDelta change.2 }) s.characters }
  else
    { s with
      npcs := updateFirst (fun npc => npc.core.name = change.1)
        (fun npc => { npc with core := npc.core.applyHpDelta change.2 }) s.npcs }

/-- Shift a creature's disposition and record what the clamp left of the shift. -/
def shiftDisposition (turn : Nat) (location : Option String) (delta : Int) (npc : Npc) : Npc :=
  let disposition := Disposition.clamp (npc.disposition.value + delta)
  { npc with disposition }.recordDispositionBeat
    { turn := turn
      delta := disposition.value - npc.disposition.value
      reason := patchBeatReason
      location := location }

/-- A change of attitude goes to every creature of the name. -/
def applyAttitude (change : String × Int) : Session :=
  { s with
    npcs := s.npcs.map (fun npc =>
      if npc.core.name = change.1 then
        shiftDisposition s.interaction s.partyLocation change.2 npc
      else npc) }

/-- The last branches: `hp_changes` and `npc_attitudes`. -/
def applyCreatures : Session :=
  let changed := ((patch.hpChanges.map Dict.entries).getD []).foldl applyHpChange s
  ((patch.npcAttitudes.map Dict.entries).getD []).foldl applyAttitude changed

/-! ### The patch -/

/-- Apply a patch of the world. Only fields that are set are applied. -/
def applyWorldPatch : Effect PatchError Session Unit := do
  modify (applyScene patch)
  applyPcRegion ctx patch
  applyCurrentRegion ctx patch
  modify (applyMap ctx patch)
  applyDiscoveredFacts ctx patch
  modify (applyCreatures patch)

/-- A context in which no fact is valid, with the cast-staging observer of a world without
    cartography. -/
def bareContext : PatchContext Unit where
  observers := [stageRegionCast (some none)]
  nfkd := id
  freshId n := toString n
  modelValidate _ := none

end Sidequest.World
