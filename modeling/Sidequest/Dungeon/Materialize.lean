import Sidequest.Dungeon.Expanded
import Sidequest.Dungeon.Generator
import Sidequest.Dungeon.SetPiece
import Sidequest.Projection.Payload

namespace Sidequest.Dungeon

open Lib Effect
open Projection (Json Fields)
open Trope (Pack)

/-!
# Materialization

One expansion is made in five stages. Design, fill and curate are computed; attach and commit write,
and what they write to the store is one transaction.

* `MapStore` — the tables: regions have a primary key, edges are numbered;
* `ThemePalette`, `stageDesign` — the themes, and an expansion whose regions fit their depths;
* `materialize` — the coordinator.
-/

section

/-! ### Payloads -/

/-- A member that has to be there, read by its type. -/
def readField {α : Type} (read : Json → Option α) (fields : Fields) (name : String) :
    Except GraphError α :=
  match (Json.get? fields name).bind read with
  | some a => .ok a
  | none => .error (.missingKey name)

def readInt : Json → Option Int
  | .num q => if q.den = 1 then some q.num else none
  | _ => none

def readBool : Json → Option Bool
  | .bool b => some b
  | _ => none

def readScore : Json → Option (Option ℚ)
  | .num q => some (some q)
  | .null => some none
  | _ => none

/-- The members of an object; anything else has none. -/
def fieldsOf : Json → Fields
  | .obj fields => fields
  | _ => []

namespace RegionNode

def toDict (node : RegionNode) : Json :=
  .obj [("id", .str node.id), ("expansion_id", .num node.expansionId), ("theme", .str node.theme),
    ("depth_score", match node.depthScore with
      | some score => .num score
      | none => .null)]

def fromDict (d : Json) : Except GraphError RegionNode := do
  let id ← readField Json.str? (fieldsOf d) "id"
  let expansionId ← readField readInt (fieldsOf d) "expansion_id"
  let theme ← readField Json.str? (fieldsOf d) "theme"
  let depthScore ← readField readScore (fieldsOf d) "depth_score"
  .ok { id := id, expansionId := expansionId, theme := theme, depthScore := depthScore }

/-- **Round trip** of a region. -/
theorem fromDict_toDict (node : RegionNode) : fromDict node.toDict = .ok node := by
  obtain ⟨id, expansionId, theme, depthScore⟩ := node
  cases depthScore with
  | none =>
    simp [fromDict, toDict, readField, fieldsOf, Json.get?_cons, Json.str?, readInt, readScore,
      bind_eq_ok]
  | some score =>
    simp [fromDict, toDict, readField, fieldsOf, Json.get?_cons, Json.str?, readInt, readScore,
      bind_eq_ok]

end RegionNode

namespace RegionEdge

def toDict (e : RegionEdge) : Json :=
  .obj [("a", .str e.a), ("b", .str e.b), ("kind", .str e.kind), ("hidden", .bool e.hidden),
    ("shortcut", .bool e.shortcut)]

def fromDict (d : Json) : Except GraphError RegionEdge := do
  let a ← readField Json.str? (fieldsOf d) "a"
  let b ← readField Json.str? (fieldsOf d) "b"
  let kind ← readField Json.str? (fieldsOf d) "kind"
  let hidden ← readField readBool (fieldsOf d) "hidden"
  let shortcut ← readField readBool (fieldsOf d) "shortcut"
  .ok { a := a, b := b, kind := kind, hidden := hidden, shortcut := shortcut }

/-- **Round trip** of an edge. -/
theorem fromDict_toDict (e : RegionEdge) : fromDict e.toDict = .ok e := by
  simp [fromDict, toDict, readField, fieldsOf, Json.get?_cons, Json.str?, readBool, bind_eq_ok]

end RegionEdge

/-! ### Tables -/

/-- What the store raises. -/
inductive StoreError where
  | notFound (regionId : String)
  | persist (expansionId : Int)
  | serialization (cause : GraphError)
deriving DecidableEq

/-- A row of `dungeon_map`. -/
structure MapRow where
  (siteId regionId : String)
  expansionId : Int
  depthScore : Option ℚ
  payload : Json

/-- The primary key. -/
def MapRow.key (row : MapRow) : String × String := (row.siteId, row.regionId)

/-- A row of `dungeon_edge`. -/
structure EdgeRow where
  edgeId : Nat
  siteId : String
  expansionId : Int
  (a b kind : String)
  (hidden shortcut : Nat)
  payload : Json

/-- The two tables. Edges are numbered as they are inserted. -/
structure MapStore where
  mapRows : List MapRow
  edgeRows : List EdgeRow
  nextEdgeId : Nat
  unique : (mapRows.map MapRow.key).Nodup
  numbered : edgeRows.Pairwise (fun r r' => r.edgeId < r'.edgeId)
  next : ∀ row ∈ edgeRows, row.edgeId < nextEdgeId

variable (siteId : String) (store : MapStore)

namespace MapStore

/-- Empty tables. -/
def empty : MapStore where
  mapRows := []
  edgeRows := []
  nextEdgeId := 1
  unique := List.nodup_nil
  numbered := List.Pairwise.nil
  next := fun _ h => nomatch h

/-- The tables with more rows of regions. -/
def insertRegions (rows : List MapRow) (h : ((store.mapRows ++ rows).map MapRow.key).Nodup) :
    MapStore where
  mapRows := store.mapRows ++ rows
  edgeRows := store.edgeRows
  nextEdgeId := store.nextEdgeId
  unique := h
  numbered := store.numbered
  next := store.next

/-- The tables with one more edge. -/
def insertEdge (expansionId : Int) (store : MapStore) (e : RegionEdge) : MapStore where
  mapRows := store.mapRows
  edgeRows := store.edgeRows ++ [{
    edgeId := store.nextEdgeId, siteId := siteId, expansionId := expansionId, a := e.a, b := e.b,
    kind := e.kind, hidden := e.hidden.toNat, shortcut := e.shortcut.toNat,
    payload := e.toDict }]
  nextEdgeId := store.nextEdgeId + 1
  unique := store.unique
  numbered := by
    rw [List.pairwise_append]
    refine ⟨store.numbered, List.pairwise_singleton _ _, fun row hrow row' hrow' => ?_⟩
    rw [List.mem_singleton.mp hrow']
    exact store.next row hrow
  next := by
    intro row hrow
    rcases List.mem_append.mp hrow with hrow | hrow
    · exact Nat.lt_succ_of_lt (store.next row hrow)
    · rw [List.mem_singleton.mp hrow]
      exact Nat.lt_succ_self _

/-- The regions of a site. -/
def mapRowsAt (siteId : String) : List MapRow :=
  store.mapRows.filter (·.siteId = siteId)

/-- The edges of a site. -/
def edgeRowsAt (siteId : String) : List EdgeRow :=
  store.edgeRows.filter (·.siteId = siteId)

end MapStore

/-! ### Committing -/

/-- The row of a region as it is on the map. -/
def mapRow (live : RegionNode) : MapRow where
  siteId := siteId
  regionId := live.id
  expansionId := live.expansionId
  depthScore := live.depthScore
  payload := live.toDict

/-- A region of an expansion has to be on the map, and is written as it is there. -/
def liveRow (graph : RegionGraph) (node : RegionNode) : Except StoreError MapRow :=
  match graph.nodes.get? node.id with
  | none => .error (.notFound node.id)
  | some live => .ok (mapRow siteId live)

/-- Write an expansion. A region that was written before refuses all of it. -/
def commitExpansion (exp : Expansion) (graph : RegionGraph) : Effect StoreError MapStore PUnit := do
  let rows ← ofExcept (exp.newNodes.mapM (liveRow siteId graph))
  let store ← get
  if h : ((store.mapRows ++ rows).map MapRow.key).Nodup then
    set (exp.newEdges.foldl (MapStore.insertEdge siteId exp.expansionId)
      (store.insertRegions rows h))
  else throw (.persist exp.expansionId)

/-! ### Loading -/

/-- The order in which rows are returned where none is asked for. -/
structure Scan where
  order : {α : Type} → List α → List α
  perm : ∀ {α : Type} (l : List α), (order l).Perm l

/-- One row of either table: what its payload holds is added to the map. -/
def loadRow {δ : Type} (fromDict : Json → Except GraphError δ)
    (add : δ → Effect GraphError RegionGraph PUnit) (payload : Json) :
    Effect GraphError RegionGraph PUnit := do
  let d ← ofExcept (fromDict payload)
  add d

/-- The map of a site: its regions in any order, then its edges by their numbers. -/
def loadMap (scan : Scan) (entranceId siteId : String) (store : MapStore) :
    Except StoreError RegionGraph :=
  let nodeRows := scan.order (store.mapRowsAt siteId)
  let edgeRows := (scan.order (store.edgeRowsAt siteId)).insertionSort (·.edgeId ≤ ·.edgeId)
  let loading : Effect GraphError RegionGraph PUnit := do
    (nodeRows.map (·.payload)).forM (loadRow RegionNode.fromDict RegionGraph.addNode)
    (edgeRows.map (·.payload)).forM (loadRow RegionEdge.fromDict RegionGraph.addEdge)
  match loading.exec (RegionGraph.empty entranceId) with
  | (.ok _, graph) => .ok graph
  | (.error e, _) => .error (.serialization e)

end

/-! ### Themes -/

/-- The depths a theme is for. -/
structure DepthBand where
  min : ℚ := 0
  max : Option ℚ := none

/-- The template of an expansion's quest. -/
structure ExpansionQuestTemplate where
  signature : SignatureKind
  (title objective : String)
  setPieceId : Option String := none

/-- What materialization takes of a theme. -/
structure DungeonTheme where
  id : String
  depthBand : DepthBand := {}
  setPieces : List SetPiece := []
  questTemplate : Option ExpansionQuestTemplate := none

/-- The themes under their ids. -/
abbrev ThemePalette := Dict String DungeonTheme

def themeEligibleAtDepth (theme : DungeonTheme) (depthScore : ℚ) : Bool :=
  theme.depthBand.min ≤ depthScore && theme.depthBand.max.all (fun max => depthScore ≤ max)

/-- The themes for a depth, in the order of their ids. -/
def themesForDepth (palette : ThemePalette) (depthScore : ℚ) : List DungeonTheme :=
  ((palette.keys.insertionSort (· ≤ ·)).filterMap palette.get?).filter
    (fun theme => themeEligibleAtDepth theme depthScore)

/-! ### Requests and raises -/

/-- One run of the pipeline. -/
structure MaterializationRequest where
  (campaignSeed expansionId : Int)
  frontierEdge : FrontierEdge
  attachRegionIds : List String
  heading : String
  (burstMagnitude lookaheadBreadth : Int)
  genreSlug : String := ""
  worldSlug : String := ""
  siteId : String := "frontier"

/-- What the pipeline raises. -/
inductive MaterializeError where
  | graph (cause : GraphError)
  | store (cause : StoreError)
  | setPiece (cause : SetPieceError)
  | noEligibleTheme (depthScore : ℚ)
  | themeAbsent (themeId : String)
  | noManifest (regionId : String)
  | noDepthScore (regionId : String)
  | entranceMissing (entranceId : String)
  | stage (message : String)
deriving DecidableEq

/-! ### Design -/

section Design

variable (entropy : Entropy) (palette : ThemePalette) (request : MaterializationRequest)

/-- Which of the eligible themes a region gets. -/
def pickIndex (regionId : String) (n : Nat) : Nat :=
  (entropy.blake2b (toString request.campaignSeed ++ "|theme_resolve|" ++
    toString request.expansionId ++ "|" ++ regionId)).val % n

/-- A new region keeps its theme if it fits the depth the region came to lie at, and gets another
    one otherwise. -/
def resolveTheme (graph : RegionGraph) (original : RegionNode) :
    Except MaterializeError RegionNode :=
  match graph.nodes.get? original.id with
  | none => .error (.graph (.missingKey original.id))
  | some scored =>
    match scored.depthScore with
    | none => .error (.noDepthScore original.id)
    | some depth =>
      match palette.get? scored.theme with
      | none => .error (.themeAbsent scored.theme)
      | some current =>
        if themeEligibleAtDepth current depth then .ok original
        else
          let eligible := themesForDepth palette depth
          match eligible[pickIndex entropy request original.id eligible.length]? with
          | none => .error (.noEligibleTheme depth)
          | some theme => .ok { original with theme := theme.id }

/-- Put an expansion on the map, and score it. -/
def placeExpansion (expansion : Expansion) : Effect GraphError RegionGraph DepthReport := do
  attachExpansion expansion
  assignDepthScores entropy request.campaignSeed {}

/-- The design stage: an expansion of themes for the depth it grows from, which are fitted to the
    depths that its regions have on a copy of the map. -/
def stageDesign (graph : RegionGraph) : Except MaterializeError Expansion :=
  let themePool := (themesForDepth palette request.frontierEdge.spawnDepthScore).map (·.id)
  if themePool = [] then .error (.noEligibleTheme request.frontierEdge.spawnDepthScore)
  else
    match generateExpansion entropy graph request.campaignSeed request.expansionId
      request.attachRegionIds themePool { connectionBurst := request.burstMagnitude } with
    | .error cause => .error (.graph cause)
    | .ok (expansion, _) =>
      match (placeExpansion entropy request expansion).exec graph with
      | (.error cause, _) => .error (.graph cause)
      | (.ok _, depthProbe) => do
        let newNodes ← expansion.newNodes.mapM (resolveTheme entropy palette request depthProbe)
        .ok { expansion with newNodes := newNodes }

end Design

/-! ### What the stages hand on -/

/-- What is composed for a region, as far as later stages read it: the name of its big bad, and the
    descriptions of its rooms. -/
structure RegionContentManifest where
  bigBad : Option String := none
  roomDescriptions : List String := []

/-- What the curate stage comes to; creatures are there as they are written. -/
structure RegionCuration where
  regionManifests : Dict String RegionContentManifest
  regionCreatures : Dict String (List String) := .empty
  regionBigBad : Dict String String := .empty

/-- One row of the mutation overlay. -/
structure DungeonMutation where
  (siteId regionId kind : String)
  payload : List (String × String)

/-- The tables a materialization writes. Frontier edges stand under their site and their id. -/
structure Tables where
  map : MapStore
  frontier : Dict (String × String) FrontierEdge
  ledger : ThreadLedger
  mutations : List DungeonMutation

/-- A running campaign: the map and the snapshot in memory, and the store. -/
structure Campaign where
  graph : RegionGraph
  snapshot : LiveSnapshot
  tables : Tables

/-- What a materialization is run with. The stages that compute are given by what they return or
    raise: none of them is handed the snapshot or the store. -/
structure Materializer (F : Type) where
  entropy : Entropy
  scan : Scan
  palette : ThemePalette
  packTropes : Pack
  stageFill : MaterializationRequest → Expansion → Except String (Dict String F)
  masked : F → Bool
  stageCurate : MaterializationRequest → Expansion → Dict String F → Except String RegionCuration
  stageTactical : Expansion → RegionGraph → Dict String F → RegionCuration → List AttachReport →
    Except String Unit
  resolveWorldDir : MaterializationRequest → Except String (Option String)
  stageEmitRoomYamls : String → List (String × String) → Except String Unit

/-! ### The quest of an expansion -/

/-- The signature of an expansion's quest. -/
structure SignatureBinding where
  kind : SignatureKind
  (refId anchorRegion title objective : String)

/-- Regions without a score lie above all others. -/
def shallower (a b : RegionNode) : Bool :=
  match a.depthScore, b.depthScore with
  | _, none => false
  | none, some _ => true
  | some x, some y => x < y

/-- The first of the deepest regions. -/
def deepestOf : List RegionNode → Option RegionNode
  | [] => none
  | node :: rest => some (rest.foldl (fun best n => if shallower best n then n else best) node)

/-- `text.replace(old, new)`, with fuel for the characters of the text. -/
def replaceChars (old new : List Char) : (fuel : Nat) → List Char → List Char
  | 0, l => l
  | _ + 1, [] => []
  | fuel + 1, c :: cs =>
    if old <+: c :: cs then new ++ replaceChars old new fuel ((c :: cs).drop old.length)
    else c :: replaceChars old new fuel cs

def replaceText (old new text : String) : String :=
  String.ofList (replaceChars old.toList new.toList text.toList.length text.toList)

/-- A slot of a template. -/
def slot (name : String) : String := "\x7b" ++ name ++ "\x7d"

def fillTemplate (text theme bigBad anchor depth : String) : String :=
  replaceText (slot "depth") depth (replaceText (slot "anchor") anchor
    (replaceText (slot "big_bad") bigBad (replaceText (slot "theme") theme text)))

/-- What tells the quests of two expansions apart. -/
def depthToken (node : RegionNode) : String :=
  match node.depthScore with
  | some score => "Depth " ++ toString (score.num.tdiv score.den)
  | none => node.id

def distinguishedTitle (templateTitle theme bigBad : String) (anchorNode : RegionNode) : String :=
  let token := depthToken anchorNode
  let title := fillTemplate templateTitle theme bigBad anchorNode.id token
  if ¬ (slot "depth").toList <:+: templateTitle.toList ∧ token ≠ "" then title ++ " — " ++ token
  else title

/-- A signature at a region. -/
def bindSignature (template : ExpansionQuestTemplate) (theme : String) (kind : SignatureKind)
    (refId bigBad : String) (node : RegionNode) : SignatureBinding where
  kind := kind
  refId := refId
  anchorRegion := node.id
  title := distinguishedTitle template.title theme bigBad node
  objective := fillTemplate template.objective theme bigBad node.id ""

/-- The signature of the deepest region's template: the deepest big bad, a set-piece, or the
    deepest region itself. -/
def selectSignature (expansion : Expansion) (manifests : Dict String RegionContentManifest)
    (template : ExpansionQuestTemplate) (deepest : RegionNode) : SignatureBinding :=
  let bigBadOf (node : RegionNode) := (manifests.get? node.id).bind (·.bigBad)
  let reachDeep := bindSignature template deepest.theme .reachDeep deepest.id "" deepest
  match template.signature with
  | .bigBad =>
    match deepestOf (expansion.newNodes.filter (fun node => (bigBadOf node).isSome)) with
    | none => reachDeep
    | some node =>
      let cleaned := sanitizeDisplayName ((bigBadOf node).getD "")
      let name := if cleaned = "" then "the master of this place" else cleaned
      bindSignature template deepest.theme .bigBad name name node
  | .setPiece =>
    bindSignature template deepest.theme .setPiece (strip (template.setPieceId.getD "")) "" deepest
  | .reachDeep => reachDeep

def expansionQuestThreadId (entropy : Entropy) (campaignSeed expansionId : Int) : String :=
  "q.exp" ++ toString expansionId ++ "." ++ hexDigest (entropy.blake2b
    (toString campaignSeed ++ ":" ++ toString expansionId ++ ":expansion_quest"))

/-- The thread of an expansion's quest. -/
def expansionQuestThread (entropy : Entropy) (campaignSeed : Int) (expansion : Expansion)
    (b : SignatureBinding) : ComplicationThread where
  threadId := expansionQuestThreadId entropy campaignSeed expansion.expansionId
  originRegionId := b.anchorRegion
  kind := .quest
  refId := b.refId
  expansion := some {
    expansionId := expansion.expansionId.toNat
    signatureKind := b.kind
    anchorRegion := b.anchorRegion
    title := b.title
    objective := b.objective }

/-! ### The parts of a run -/

/-- The attach stage with its counters: the threads that are lit, and the reports. -/
structure AttachLoop extends Attaching where
  threadsAlreadyLit : Nat := 0
  attachReports : List AttachReport := []

/-- A campaign as its attach stage starts with it. -/
def Campaign.attaching (c : Campaign) : AttachLoop :=
  { snapshot := c.snapshot, ledger := c.tables.ledger }

/-- A campaign after its attach stage. -/
def Campaign.putAttaching (s : AttachLoop) (c : Campaign) : Campaign :=
  { c with snapshot := s.snapshot, tables := { c.tables with ledger := s.ledger } }

/-- What the stages before the transaction come to. -/
structure Prepared (F : Type) where
  expansion : Expansion
  fills : Dict String F
  curation : RegionCuration
  isFreshSave : Bool

/-- A transaction: where it raises, the tables are as they were. What it did in memory stays. -/
def transaction {α : Type} (body : Effect MaterializeError Campaign α) :
    Effect MaterializeError Campaign α :=
  ExceptT.mk (m := StateM Campaign) fun c => match body.exec c with
    | (.ok a, c') => (.ok a, c')
    | (.error e, c') => (.error e, { c' with tables := c.tables })

namespace Materializer

variable {F : Type} (m : Materializer F) (request : MaterializationRequest)

/-! ### Attach -/

/-- Where a set-piece of a region is attached. -/
def placement (regionId setpieceId : String) : Placement :=
  ⟨request.campaignSeed, request.expansionId, regionId, setpieceId⟩

/-- Attach one set-piece, out of the budget of the expansion. -/
def attachPiece (regionId : String) (piece : SetPiece) :
    Effect MaterializeError AttachLoop PUnit := do
  let s ← get
  let report ← zoom AttachLoop.toAttaching (fun t s => { s with toAttaching := t })
    (ExceptT.adapt MaterializeError.setPiece
      (attachSetPiece m.entropy m.packTropes (placement request regionId piece.id) piece
        request.burstMagnitude s.threadsAlreadyLit))
  modify (fun s => { s with
    threadsAlreadyLit := s.threadsAlreadyLit + report.threadsWritten
    attachReports := s.attachReports ++ [report] })

/-- Look up what the attachment of a region needs: its theme, that it has a manifest, and that it
    has a score. -/
def regionTheme (graph : RegionGraph) (curation : RegionCuration) (node : RegionNode) :
    Except MaterializeError DungeonTheme :=
  match m.palette.get? node.theme with
  | none => .error (.themeAbsent node.theme)
  | some theme =>
    if node.id ∉ curation.regionManifests.keys then .error (.noManifest node.id)
    else
      match graph.nodes.get? node.id with
      | none => .error (.graph (.missingKey node.id))
      | some live =>
        match live.depthScore with
        | none => .error (.noDepthScore node.id)
        | some _ => .ok theme

/-- Attach the set-pieces of a region. -/
def attachRegion (graph : RegionGraph) (curation : RegionCuration) (node : RegionNode) :
    Effect MaterializeError AttachLoop PUnit := do
  let theme ← ofExcept (regionTheme m graph curation node)
  theme.setPieces.forM (attachPiece m request node.id)

/-- The thread of the quest that the theme of the deepest region has a template for. -/
def deepestQuest (graph : RegionGraph) (expansion : Expansion) (curation : RegionCuration) :
    Except MaterializeError (Option ComplicationThread) :=
  match deepestOf expansion.newNodes with
  | none => .error (.graph .emptySequence)
  | some deepest =>
    match m.palette.get? deepest.theme with
    | none => .error (.themeAbsent deepest.theme)
    | some theme =>
      match theme.questTemplate with
      | none => .ok none
      | some template =>
        match graph.nodes.get? deepest.id with
        | none => .error (.graph (.missingKey deepest.id))
        | some live =>
          match live.depthScore with
          | none => .error (.noDepthScore deepest.id)
          | some _ => .ok (some (expansionQuestThread m.entropy request.campaignSeed expansion
              (selectSignature expansion curation.regionManifests template deepest)))

/-- Seed the quest of an expansion, if it gets one. -/
def seedExpansionQuest (graph : RegionGraph) (expansion : Expansion) (curation : RegionCuration) :
    Effect MaterializeError AttachLoop PUnit := do
  let thread? ← ofExcept (deepestQuest m request graph expansion curation)
  zoom AttachLoop.toAttaching (fun t s => { s with toAttaching := t })
    (ExceptT.adapt MaterializeError.setPiece (thread?.toList.forM openInLedger))

/-- The set-pieces of all regions, and then the quest. -/
def attachAll (graph : RegionGraph) (expansion : Expansion) (curation : RegionCuration) :
    Effect MaterializeError AttachLoop (List AttachReport) := do
  expansion.newNodes.forM (attachRegion m request graph curation)
  seedExpansionQuest m request graph expansion curation
  let s ← get
  pure s.attachReports

/-- The attach stage. -/
def stageAttach (expansion : Expansion) (curation : RegionCuration) :
    Effect MaterializeError Campaign (List AttachReport) := do
  let _depthReport ← zoom Campaign.graph (fun graph c => { c with graph := graph })
    (ExceptT.adapt MaterializeError.graph (placeExpansion m.entropy request expansion))
  let c ← get
  zoom Campaign.attaching Campaign.putAttaching (attachAll m request c.graph expansion curation)

/-! ### Commit -/

/-- Each new region is one new edge of the frontier. -/
def frontierEdgeOf (graph : RegionGraph) (node : RegionNode) :
    Except MaterializeError FrontierEdge :=
  match graph.nodes.get? node.id with
  | none => .error (.graph (.notInGraph node.id))
  | some live =>
    match live.depthScore with
    | none => .error (.noDepthScore node.id)
    | some depthScore => .ok {
        frontierEdgeId := "fe_" ++ hexDigest (m.entropy.blake2b ("frontier|" ++
          toString request.campaignSeed ++ "|" ++ toString request.expansionId ++ "|" ++ node.id))
        fromRegionId := node.id
        heading := request.heading
        spawnDepthScore := depthScore }

/-- Write the rows of an expansion. -/
def commitRows (expansion : Expansion) (graph : RegionGraph) :
    Effect MaterializeError Tables PUnit :=
  zoom Tables.map (fun map t => { t with map := map })
    (ExceptT.adapt MaterializeError.store (commitExpansion request.siteId expansion graph))

def recordMutation (regionId kind : String) (payload : List (String × String)) :
    Effect MaterializeError Tables PUnit :=
  modify (fun t => { t with
    mutations := t.mutations ++ [⟨request.siteId, regionId, kind, payload⟩] })

/-- The roster of a region, if it has anything in it. -/
def recordPopulation (curation : RegionCuration) (node : RegionNode) :
    Effect MaterializeError Tables PUnit :=
  let roster := (curation.regionCreatures.get? node.id).getD []
  let bigBad := curation.regionBigBad.get? node.id
  if roster = [] ∧ bigBad = none then pure ⟨⟩
  else recordMutation request node.id "region_population"
    (roster.map (fun c => ("creature", c)) ++ bigBad.toList.map (fun c => ("big_bad", c)))

/-- The frontier is that of the default site. -/
def putFrontierRow (fe : FrontierEdge) : Effect MaterializeError Tables PUnit :=
  modify (fun t => { t with frontier := t.frontier.insert ("frontier", fe.frontierEdgeId) fe })

/-- The entrance of a fresh save. -/
def commitEntrance (graph : RegionGraph) : Effect MaterializeError Tables PUnit :=
  match graph.nodes.get? graph.entranceId with
  | none => throw (.entranceMissing graph.entranceId)
  | some entrance =>
    commitRows request { expansionId := 0, newNodes := [entrance], newEdges := [] } graph

/-- The first description of a region, if it has one. -/
def composedOf (curation : RegionCuration) (node : RegionNode) : Option (String × String) :=
  ((curation.regionManifests.get? node.id).bind (·.roomDescriptions.head?)).map
    (fun description => (node.id, description))

/-- The commit stage. It answers with the room files that are to be written after it. -/
def stageCommit (graph : RegionGraph) (expansion : Expansion) (fills : Dict String F)
    (curation : RegionCuration) (attachReports : List AttachReport) (isFreshSave : Bool) :
    Effect MaterializeError Tables (Option String × List (String × String)) := do
  let newFrontier ← ofExcept (if 0 < request.lookaheadBreadth then
    expansion.newNodes.mapM (frontierEdgeOf m request graph) else .ok [])
  onlyIf isFreshSave (commitEntrance request graph)
  onlyIf (fills.values.any m.masked) (ofExcept
    ((m.stageTactical expansion graph fills curation attachReports).mapError .stage))
  commitRows request expansion graph
  attachReports.forM (fun report => recordMutation request report.regionId "setpiece_state"
    (("setpiece_id", report.setpieceId) :: report.rolled.entries))
  expansion.newNodes.forM (recordPopulation request curation)
  newFrontier.forM putFrontierRow
  let composed := expansion.newNodes.filterMap (composedOf curation)
  if composed = [] then pure (none, composed)
  else do
    let worldDir ← ofExcept ((m.resolveWorldDir request).mapError .stage)
    pure (worldDir, composed)

/-! ### The coordinator -/

/-- Design, fill and curate, and whether anything was written for the site before. -/
def prepare (c : Campaign) : Except MaterializeError (Prepared F) := do
  let expansion ← stageDesign m.entropy m.palette request c.graph
  let fills ← (m.stageFill request expansion).mapError .stage
  let curation ← (m.stageCurate request expansion fills).mapError .stage
  let existingMap ← (loadMap m.scan c.graph.entranceId request.siteId c.tables.map).mapError .store
  let existingFrontier := c.tables.frontier.keys.filter (fun key => key.1 = request.siteId)
  .ok { expansion, fills, curation
        isFreshSave := existingMap.nodes.entries.isEmpty && existingFrontier.isEmpty }

/-- Attach and commit. -/
def attachAndCommit (prepared : Prepared F) :
    Effect MaterializeError Campaign (Option String × List (String × String)) := do
  let attachReports ← stageAttach m request prepared.expansion prepared.curation
  let c ← get
  zoom Campaign.tables (fun tables c => { c with tables := tables })
    (stageCommit m request c.graph prepared.expansion prepared.fills prepared.curation
      attachReports prepared.isFreshSave)

/-- The room files are written after the commit, where the world has a directory. -/
def emitRooms : Option String × List (String × String) → Except MaterializeError Unit
  | (some worldDir, composed) =>
    if composed = [] then .ok ()
    else (m.stageEmitRoomYamls worldDir composed).mapError .stage
  | (none, _) => .ok ()

/-- **Materialize** one expansion. -/
def materialize : Effect MaterializeError Campaign Unit := do
  let c ← get
  let prepared ← ofExcept (prepare m request c)
  let emit ← transaction (attachAndCommit m request prepared)
  ofExcept (emitRooms m emit)

end Materializer

end Sidequest.Dungeon
