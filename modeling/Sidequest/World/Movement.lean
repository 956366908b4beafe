import Sidequest.Dungeon.Expanded
import Sidequest.Dungeon.WayFinding
import Sidequest.World.Watched

namespace Sidequest.World

open Lib Effect
open Dungeon (Reading RegionGraph RegionExit Resolved GraphError ProjectionError FrontierEdge Theme)

/-!
# Movement

A movement intent is resolved against the real map, and the character moves there with those of the
party who stood with it.

* `siteEntranceId`, `siteIdOf`, `isProceduralRegionId` — the ids of nodes, and what they say;
* `resolveCartographyLateral` — travel between the regions of a world's map;
* `regionMode`, `navigate` — the two halves of the resolution, up to a `Verdict`;
* `advanceColocatedPeers`, `runMovementDispatch` — the moves of the acting character and its peers.
-/

/-! ### The ids of nodes -/

/-- The entrance of the first site. -/
def entranceId : String := "entrance"

/-- The first site. -/
def defaultSiteId : String := "frontier"

/-- The entrance of a site. -/
def siteEntranceId (siteId : String) : String := siteId ++ ":entrance"

/-- A pattern's end may stand before a final line break. -/
def dropFinalNewline (l : List Char) : List Char :=
  if l.getLast? = some '\n' then l.dropLast else l

variable (regionId : String) (reading : Reading) (c : Char)

/-- The characters of a site's id in a node's. -/
def isSiteChar : Bool := ('a' ≤ c && c ≤ 'z') || ('0' ≤ c && c ≤ '9') || c = '_'

/-- The characters after it. -/
def isSuffixChar : Bool := isSiteChar c || c = '.'

/-- The site of a node with a namespace; a bare id has none. -/
def siteIdOf (nodeId : String) : Option String :=
  let chars := dropFinalNewline nodeId.toList
  let site := chars.takeWhile (· ≠ ':')
  match chars.dropWhile (· ≠ ':') with
  | [] => none
  | _ :: suffix =>
    if site ≠ [] ∧ site.all isSiteChar ∧ suffix ≠ [] ∧ suffix.all isSuffixChar then
      some (String.ofList site)
    else none

/-- A character is a decimal digit of some script. -/
def isDecimal : Bool := (decimalValue? c).isSome

/-- A room of an expansion: `exp`, at least three digits, `.r`, and digits. -/
def isExpansionRegion : Bool :=
  match dropFinalNewline regionId.toList with
  | 'e' :: 'x' :: 'p' :: rest =>
    let digits := rest.takeWhile isDecimal
    match rest.dropWhile isDecimal with
    | '.' :: 'r' :: room => 3 ≤ digits.length && !room.isEmpty && room.all isDecimal
    | _ => false
  | _ => false

/-- The id is one that the dungeon gives its regions. -/
def isProceduralRegionId : Bool :=
  regionId ≠ "" && (regionId = entranceId || isExpansionRegion regionId)

/-! ### The map of a world -/

/-- How the party finds its way in a world. -/
inductive NavigationMode where
  | region
  | roomGraph
  | hierarchical
deriving DecidableEq

/-- Whether a site is made as a whole or grows. -/
inductive SiteExtent where
  | bounded
  | frontier

/-- A site as it is declared, and as it is resolved. -/
structure SiteDescriptor where
  (siteId name archetype attachedTo : String)
  extent : SiteExtent := .bounded

/-- The entrance of the site. -/
def SiteDescriptor.entranceNodeId (site : SiteDescriptor) : String := siteEntranceId site.siteId

/-- A region of the map. -/
structure Region where
  name : String
  adjacent : List String := []

/-- The map of a world. -/
structure Cartography where
  navigationMode : NavigationMode := .region
  regions : Dict String Region := .empty
  sites : List SiteDescriptor := []

/-! ### The registry -/

/-- The sites of a world, with the neighbours of each of its regions. -/
structure SiteRegistry where
  sites : List SiteDescriptor
  adjacency : Dict String (List String)

namespace SiteRegistry

/-- The registry of a map; without a map it knows of no site. -/
def fromCartography (cart : Option Cartography) : SiteRegistry :=
  match cart with
  | none => ⟨[], .empty⟩
  | some cart =>
    ⟨cart.sites, cart.regions.entries.foldl
      (fun adjacency entry => adjacency.insert entry.1 entry.2.adjacent) .empty⟩

variable (registry : SiteRegistry)

/-- The site of an id; the last one counts. -/
def byId (siteId : String) : Option SiteDescriptor :=
  registry.sites.reverse.find? (fun s => s.siteId = siteId)

/-- The sites on a region, in the order of their declaration. -/
def byOwner (regionId : String) : List SiteDescriptor :=
  registry.sites.filter (fun s => s.attachedTo = regionId)

/-- The sites that can be entered from a region: those on it, and those on its neighbours. -/
def sitesForNode (regionId : String) : List SiteDescriptor :=
  (regionId :: (registry.adjacency.get? regionId).getD []).foldl (fun out owner =>
    (registry.byOwner owner).foldl (fun out s =>
      if s.siteId ∈ out.map (·.siteId) then out else out ++ [s]) out) []

/-- Whether a text contains another one. -/
def textContains (text part : String) : Bool := decide (part.toList <:+: text.toList)

/-- Match a description with the sites that can be entered. The second component says whether
    several are meant. -/
def resolveDescriptor (reading : Reading) (regionId descriptor : String) :
    Option SiteDescriptor × Bool :=
  let desc := reading.lower (strip descriptor)
  match registry.sitesForNode regionId with
  | [] => (none, false)
  | candidates =>
    let named := if desc = "" then candidates else candidates.filter (fun s =>
      textContains (reading.lower s.name) desc || textContains (reading.lower s.siteId) desc ||
        textContains desc (reading.lower s.name))
    match named with
    | [s] => (some s, false)
    | [] => (none, false)
    | _ => (none, true)

/-- The site whose namespace a node belongs to. -/
def siteOwningNode (nodeId : String) : Option SiteDescriptor :=
  match siteIdOf nodeId with
  | none => none
  | some siteId => registry.byId siteId

end SiteRegistry

/-- A movement intent. -/
structure MovementDispatch where
  direction : String := ""
  exitDescriptor : String := ""
  action : String := ""
  siteDescriptor : String := ""

/-- What the handler answers: the directives for the narrator, and the data. -/
structure SubsystemOutput where
  directives : List String := []
  error : Option String := none
  toRegion : Option String := none
  fromRegion : Option String := none
  resolvedVia : Option String := none

/-- A crossing that cannot be resolved. -/
structure SeamCrossingError where
  (reason surface : String)

/-- What the handler does not catch. -/
inductive MovementError where
  | patch (cause : PatchError)
  | store (message : String)
  | projection (cause : ProjectionError)
  | graph (cause : GraphError)
  | escapedNeighbors (toRegionId fromRegion : String)

/-- What making a bounded site raises: a crossing error, or anything else. -/
inductive SiteFailure where
  | crossing (cause : SeamCrossingError)
  | other (message : String)

/-! ### What a dispatch is run with -/

/-- A pack: the maps of its worlds, and its archetypes of sites. -/
structure GenrePack (A : Type) where
  worlds : Dict String Cartography := .empty
  siteArchetypes : Dict String A := .empty

/-- The dungeon store as the handler uses it: what it reads, and the making of a bounded site. -/
structure DungeonRepository (W A : Type) where
  loadMap : (entranceId siteId : String) → W → Except String RegionGraph
  loadFrontier : W → Except String (List FrontierEdge)
  materializeBounded : SiteDescriptor → A → Effect SiteFailure W Unit

/-- The look-ahead worker as the handler uses it: the making of one expansion, and the wait for
    what is being made. Both go to the store; of the snapshot they write the tropes, which no move
    reads. -/
structure LookaheadHandle (W : Type) where
  materializeEdge : FrontierEdge → String → Effect String W Unit
  drain : W → W

/-- What a dispatch is run with. -/
structure MovementContext (W A : Type) where
  reading : Reading
  observers : List (StoreObserver W)
  worldSlug : String
  pack : Option (GenrePack A) := none
  dungeonStore : Option (DungeonRepository W A) := none
  palette : Option (Dict String Theme) := none
  lookahead : Option (LookaheadHandle W) := none

/-- The map of the world that is played. -/
def cartographyFor {A : Type} (pack : Option (GenrePack A)) (worldSlug : String) :
    Option Cartography :=
  if worldSlug = "" then none else pack.bind (fun pack => pack.worlds.get? worldSlug)

variable (s : GameSnapshot)

/-- Which region a character is in. -/
def GameSnapshot.regionForPerspective (name : String) : Option String :=
  if name = "" then none else s.pcRegions.get? name

/-- Where a character stands; the blank region is nowhere. -/
def GameSnapshot.standing (name : String) : String :=
  (s.regionForPerspective name).getD ""

/-! ### Travel on the map of a world -/

/-- The words that say nothing of a region's name. -/
def stopwords : List String :=
  ["a", "an", "the", "of", "in", "on", "at", "to", "for", "and", "or", "but", "by", "from", "with",
    "into", "onto", "upon", "i", "me", "my", "you", "your", "we", "our", "it", "its", "is", "are",
    "was", "were", "be", "been", "being", "do", "does", "did", "have", "has", "had", "this", "that",
    "these", "those", "there", "here"]

/-- The words of a text that say something. -/
def contentTokens (text : String) : List String :=
  (Dungeon.tokens reading text).filter (· ∉ stopwords)

/-- The name of a region, or its id. -/
def displayName (cart : Cartography) (regionId : String) : String :=
  match cart.regions.get? regionId with
  | some region => if region.name = "" then regionId else region.name
  | none => regionId

/-- What a lateral move comes to. -/
structure Lateral where
  target : Option String := none
  via : String := "region_lateral"
  ambiguous : Bool := false
  candidateIds : List String := []
  surface : String := ""

/-- How well a region's id and name match the words, if they do. -/
def lateralScore (cart : Cartography) (want : List String) (regionId : String) :
    Option (Int ×ₗ String) :=
  let surface := contentTokens reading regionId ++
    ((cart.regions.get? regionId).map (fun region => contentTokens reading region.name)).getD []
  let score := Dungeon.overlap want surface
  if score = 0 then none else some (toLex (-(score : Int), regionId))

/-- Resolve a lateral move against the neighbours of a region. -/
def resolveCartographyLateral (cart : Cartography) (fromRegion : String)
    (exitDescriptor direction : String) (discoveredRegions : List String) : Lateral :=
  match cart.regions.get? fromRegion with
  | none => {}
  | some region =>
    let candidateIds := region.adjacent.dedup.insertionSort (· ≤ ·)
    if candidateIds = [] then {}
    else if Dungeon.isBlank exitDescriptor then
      if direction = "back" then
        let prior := candidateIds.filterMap (fun c =>
          (Dungeon.recency discoveredRegions c).map (fun i => (-(i : Int), c)))
        match (prior.insertionSort (fun a b => a.1 ≤ b.1)).head? with
        | some best => { target := some best.2, via := "region_back", candidateIds }
        | none => { candidateIds }
      else { candidateIds }
    else
      let scored := (candidateIds.filterMap
        (lateralScore reading cart (contentTokens reading exitDescriptor))).insertionSort (· ≤ ·)
      match scored with
      | [] => { candidateIds }
      | [best] => { target := some (ofLex best).2, candidateIds }
      | best :: second :: _ =>
        if (ofLex best).1 = (ofLex second).1 then
          { ambiguous := true
            candidateIds
            surface := displayName cart fromRegion ++ " could go more than one way: " ++
              ", ".intercalate (scored.map (fun s => displayName cart (ofLex s).2)) ++
              ". Which way?" }
        else { target := some (ofLex best).2, candidateIds }

/-! ### Answers -/

/-- The honest answer to a move that is refused. -/
def unresolved (playerName reason surface : String) : SubsystemOutput where
  directives := ["MOVEMENT REFUSED (" ++ reason ++ "): " ++ playerName ++
    " has NOT moved and is still in the same region. Do NOT change the location title or scene " ++
    "heading, do NOT describe entering/traversing/arriving anywhere, and do NOT introduce a new " ++
    "room or its contents. In fiction, surface this honestly and — if the way was ambiguous — " ++
    "ask which of the listed exits they take (name them by their bearings). Honest text to " ++
    "voice: " ++ surface]
  error := some reason

/-- The answer that leaves a move to the narration. -/
def deferRegionMode : SubsystemOutput where
  resolvedVia := some "region_mode_deferred"

/-- What a resolution comes to: an answer, or a region to go to, after which the worker's tasks are
    awaited or not. -/
inductive Verdict where
  | stay (output : SubsystemOutput)
  | go (fromRegion toRegion via : String) (drains : Bool)

/-- An answer to a crossing that cannot be resolved. -/
def refuse (playerName : String) (err : SeamCrossingError) : Verdict :=
  .stay (unresolved playerName err.reason err.surface)

variable {W A : Type} (ctx : MovementContext W A)

/-- Read the store; a failure is not caught. -/
def readStore {α : Type} (read : W → Except String α) : Effect MovementError (Watched W) α := do
  let w ← get
  match read w.store with
  | .ok a => pure a
  | .error message => throw (.store message)

/-! ### Sites -/

/-- Where a site is left to. -/
def resolveExitSite (site : SiteDescriptor) (cartography : Cartography) :
    Except SeamCrossingError String :=
  if site.attachedTo = "" ∨ site.attachedTo ∉ cartography.regions.keys then
    .error ⟨"dangling_site_owner", "There is a way out of " ++ site.name ++
      ", but it returns to a place that isn't on the map — a wiring fault, not a sealed door."⟩
  else .ok site.attachedTo

/-- Where a site is entered: its entrance, or the entrance that bears no namespace. -/
def resolveEnterSite (site : SiteDescriptor) (graph : RegionGraph) :
    Except SeamCrossingError String :=
  if site.entranceNodeId ∈ graph.nodes.keys then .ok site.entranceNodeId
  else if entranceId ∈ graph.nodes.keys then .ok entranceId
  else .error ⟨"no_site_entrance", "The interior of " ++ site.name ++ " has not yet formed."⟩

/-- Run a computation on the store, and hand out what it raised. -/
def tryStore {ε : Type} (m : Effect ε W Unit) : Effect MovementError (Watched W) (Except ε Unit) :=
  ExceptT.mk (m := StateM (Watched W)) fun w =>
    (.ok (m.exec w.store).1, { w with store := (m.exec w.store).2 })

/-- Make a bounded site before it is entered. -/
def ensureBoundedSiteMaterialized (site : SiteDescriptor) (archetype : A) :
    Effect MovementError (Watched W) (Except SiteFailure Unit) :=
  match ctx.dungeonStore with
  | none => pure (.error (.crossing ⟨"no_site_store", site.name ++ " cannot be opened."⟩))
  | some repository => tryStore (repository.materializeBounded site archetype)

/-- Bind the character onto the entrance of a site. -/
def enterSite (playerName fromRegion : String) (site : SiteDescriptor) :
    Effect MovementError (Watched W) Verdict :=
  match ctx.dungeonStore with
  | none => pure (refuse playerName ⟨"no_site_store", "The way into " ++ site.name ++
      " exists, but its interior has not been opened — a wiring fault, not a closed door."⟩)
  | some repository => do
    let graph ← readStore (repository.loadMap site.entranceNodeId site.siteId)
    match resolveEnterSite site graph with
    | .error err => pure (refuse playerName err)
    | .ok toRegion => pure (.go fromRegion toRegion "site_enter" false)

/-- Enter a site; a bounded one is made first. -/
def openSite (playerName fromRegion : String) (site : SiteDescriptor) :
    Effect MovementError (Watched W) Verdict :=
  match site.extent with
  | .frontier => enterSite ctx playerName fromRegion site
  | .bounded =>
    match ctx.pack.bind (fun pack => pack.siteArchetypes.get? site.archetype) with
    | none =>
      pure (refuse playerName ⟨"unknown_archetype", site.name ++ " cannot be opened."⟩)
    | some archetype => do
      let made ← ensureBoundedSiteMaterialized ctx site archetype
      match made with
      | .error (.crossing err) => pure (refuse playerName err)
      | .error (.other _) =>
        pure (refuse playerName ⟨"site_materialize_failed", site.name ++ " isn't ready yet."⟩)
      | .ok _ => enterSite ctx playerName fromRegion site

/-- The site a region belongs to; the bare ids are the first site's. -/
def owningSite (registry : SiteRegistry) (fromRegion : String) : Option SiteDescriptor :=
  match registry.siteOwningNode fromRegion with
  | some site => some site
  | none => if isProceduralRegionId fromRegion then registry.byId defaultSiteId else none

/-- Leave a site. -/
def exitSite (cart : Cartography) (playerName fromRegion : String) (site : SiteDescriptor) :
    Verdict :=
  match resolveExitSite site cart with
  | .error err => refuse playerName err
  | .ok toRegion => .go fromRegion toRegion "site_exit" false

/-! ### Worlds with a map -/

/-- A region is one of the dungeon's. -/
def inDungeon (fromRegion : String) : Effect MovementError (Watched W) Bool :=
  match ctx.dungeonStore with
  | none => pure false
  | some repository =>
    if fromRegion = "" then pure false
    else do
      let graph ← readStore (repository.loadMap entranceId defaultSiteId)
      pure (decide (fromRegion ∈ graph.nodes.keys))

/-- Travel from a region of the map, or leave the move to the narration. -/
def travel (cart : Cartography) (playerName fromRegion : String) (dispatch : MovementDispatch)
    (discoveredRegions : List String) : Verdict :=
  let lateral := resolveCartographyLateral ctx.reading cart fromRegion dispatch.exitDescriptor
    dispatch.direction discoveredRegions
  match lateral.target with
  | some target => .go fromRegion target lateral.via false
  | none =>
    if lateral.ambiguous then
      .stay (unresolved playerName "ambiguous_region_exit" lateral.surface)
    else .stay deferRegionMode

/-- The resolution in a world with a map, where the regions are: sites are left and entered, and
    neighbours are travelled to. In the dungeon it is left to the navigator. -/
def regionMode (cart : Cartography) (playerName : String) (dispatch : MovementDispatch) :
    Effect MovementError (Watched W) (Option Verdict) := do
  let w ← get
  let registry := SiteRegistry.fromCartography (some cart)
  let fromRegion := w.standing playerName
  match owningSite registry fromRegion, dispatch.action with
  | some site, "exit_site" => pure (some (exitSite cart playerName fromRegion site))
  | none, "exit_site" =>
    if isProceduralRegionId fromRegion then
      pure (some (.stay (unresolved playerName "frontier_site_undeclared"
        "There is no way out mapped from here — this place was never declared as a site.")))
    else underway w fromRegion
  | none, "enter_site" =>
    match registry.resolveDescriptor ctx.reading fromRegion dispatch.siteDescriptor with
    | (_, true) =>
      pure (some (.stay (unresolved playerName "ambiguous_site" ("Which way in — " ++
        ", ".intercalate ((registry.sitesForNode fromRegion).map (·.name)) ++ "?"))))
    | (none, false) => pure (some (.stay deferRegionMode))
    | (some site, false) => do
      let verdict ← openSite ctx playerName fromRegion site
      pure (some verdict)
  | _, _ => underway w fromRegion
where
  /-- Neither into a site nor out of one. -/
  underway (w : Watched W) (fromRegion : String) :
      Effect MovementError (Watched W) (Option Verdict) := do
    let below ← inDungeon ctx fromRegion
    if below then pure none
    else pure (some (travel ctx cart playerName fromRegion dispatch w.discoveredRegions))

/-! ### The dungeon -/

/-- Make the expansion at the edge of the map that the way leads over. Its failures are caught; the
    answer is whether the target is there now. -/
def syncMaterialize (fromRegion targetId : String) : Effect MovementError (Watched W) Bool :=
  match ctx.lookahead, ctx.dungeonStore with
  | some handle, some repository => do
    let frontier ← readStore repository.loadFrontier
    match (frontier.filter (fun fe => fe.fromRegionId = fromRegion)).insertionSort Dungeon.nearer with
    | [] => pure false
    | edge :: _ => do
      let made ← tryStore (handle.materializeEdge edge fromRegion)
      match made with
      | .error _ => pure false
      | .ok _ => do
        let fresh ← readStore (repository.loadMap entranceId defaultSiteId)
        pure (decide (targetId ∈ fresh.nodes.keys))
  | _, _ => pure false

/-- A way as it is described to the players. -/
def wayPhrase (e : RegionExit) : String :=
  if e.bearing = "up" ∨ e.bearing = "down" then "the " ++ e.kind ++ " leading " ++ e.bearing
  else if e.bearing = "" then "the " ++ e.kind
  else "the " ++ e.bearing ++ " " ++ e.kind

/-- From the surface there is one way on: down, to the entrance of the dungeon. -/
def surfaceDescent (playerName fromRegion : String) (dispatch : MovementDispatch)
    (graph : RegionGraph) : Verdict :=
  if dispatch.direction ≠ "deeper" then
    .stay (unresolved playerName "surface_no_route" (playerName ++
      " stands on the surface; the only way on from here is down, into the dark below."))
  else if graph.entranceId ∈ graph.nodes.keys then
    .go fromRegion graph.entranceId "surface_descent" false
  else refuse playerName ⟨"no_dungeon_entrance", "The descent into the depths has not yet formed."⟩

/-- Take the way that was resolved, once the region beyond it is there. -/
def takeWay (playerName fromRegion : String) (graph : RegionGraph) (chosen : RegionExit)
    (via : String) : Effect MovementError (Watched W) Verdict :=
  match graph.neighbors fromRegion with
  | .error err => throw (.graph err)
  | .ok neighbors =>
    if chosen.toRegionId ∉ neighbors then
      throw (.escapedNeighbors chosen.toRegionId fromRegion)
    else if chosen.toRegionId ∈ graph.nodes.keys then
      pure (.go fromRegion chosen.toRegionId via true)
    else do
      let formed ← syncMaterialize ctx fromRegion chosen.toRegionId
      if formed then pure (.go fromRegion chosen.toRegionId via true)
      else pure (refuse playerName ⟨"no_candidate_edges",
        "The way to " ++ chosen.toRegionId ++ " has not yet formed."⟩)

/-- The way out of a region of the dungeon. -/
def wayOut (playerName fromRegion : String) (dispatch : MovementDispatch) (graph : RegionGraph)
    (palette : Dict String Theme) (w : Watched W) : Effect MovementError (Watched W) Verdict :=
  match Dungeon.projectRegion ctx.reading.digest graph fromRegion palette with
  | .error err => throw (.projection err)
  | .ok proj =>
    let candidates := proj.exits.filter
      (fun e => !e.hidden || decide (e.toRegionId ∈ w.discoveredRoutes))
    let noWay : Verdict := refuse playerName
      ⟨"no_candidate_edges", playerName ++ " finds no such way from here."⟩
    if candidates = [] then pure noWay
    else match Dungeon.resolve ctx.reading candidates graph proj.depthScore dispatch.direction
        dispatch.exitDescriptor w.discoveredRegions with
      | .error err => throw (.graph err)
      | .ok resolved =>
        if resolved.ambiguous then
          pure (refuse playerName ⟨"ambiguous_descriptor", playerName ++
            " could go more than one way from here: " ++
            ", ".intercalate ((candidates.insertionSort (fun a b =>
              toLex (a.bearing, a.toRegionId) ≤ toLex (b.bearing, b.toRegionId))).map wayPhrase) ++
            ". Which way?"⟩)
        else match resolved.chosen with
          | none => pure noWay
          | some chosen => takeWay ctx playerName fromRegion graph chosen resolved.via

/-- The navigator of the dungeon. -/
def navigate (playerName : String) (dispatch : MovementDispatch) :
    Effect MovementError (Watched W) Verdict :=
  match ctx.dungeonStore, ctx.palette with
  | some repository, some palette => do
    let w ← get
    match w.regionForPerspective playerName with
    | none | some "" => pure (refuse playerName
        ⟨"no_pc_region", "The way ahead is unknown — your bearings have not been set."⟩)
    | some fromRegion => do
      let graph ← readStore (repository.loadMap entranceId defaultSiteId)
      if fromRegion ∉ graph.nodes.keys then
        pure (surfaceDescent playerName fromRegion dispatch graph)
      else wayOut ctx playerName fromRegion dispatch graph palette w
  | _, _ => pure (refuse playerName ⟨"no_dungeon_store",
      "There is no mapped passage here to travel through; this place has no further depths to " ++
      "descend into."⟩)

/-! ### The dispatch -/

/-- Resolve an intent: an answer, or where the character goes. Nobody moves yet. -/
def resolveMovement (playerName : String) (dispatch : MovementDispatch) :
    Effect MovementError (Watched W) Verdict :=
  match cartographyFor ctx.pack ctx.worldSlug with
  | some cart =>
    if cart.navigationMode = .region then do
      let verdict? ← regionMode ctx cart playerName dispatch
      match verdict? with
      | some verdict => pure verdict
      | none => navigate ctx playerName dispatch
    else navigate ctx playerName dispatch
  | none => navigate ctx playerName dispatch

/-- Those of the party who stand where the acting character stood. -/
def colocatedPeers (actingPc fromRegion : String) (names : List String) : List String :=
  names.filter (fun name => name ≠ actingPc ∧ s.pcRegions.get? name = some fromRegion)

/-- They move along, one after another. -/
def advanceColocatedPeers (actingPc fromRegion toRegion : String) (names : List String) :
    Effect PatchError (Watched W) Unit := do
  let w ← get
  let peers :=
    if toRegion = "" then [] else colocatedPeers w.toGameSnapshot actingPc fromRegion names
  peers.forM (fun peer => patchPcRegion ctx.observers (peer, toRegion))

/-- Wait for what the worker is making. -/
def drain (w : Watched W) : Watched W :=
  match ctx.lookahead with
  | none => w
  | some handle => { w with store := handle.drain w.store }

/-- The party goes: first the acting character, then its peers. -/
def partyMove (actingPc fromRegion toRegion : String) (drains : Bool) (names : List String) :
    Effect PatchError (Watched W) Unit := do
  patchPcRegion ctx.observers (actingPc, toRegion)
  onlyIf drains (modify (drain ctx))
  advanceColocatedPeers ctx actingPc fromRegion toRegion names

/-- Run a movement dispatch. -/
def runMovementDispatch (playerName : String) (dispatch : MovementDispatch)
    (additionalPlayerNames : List String) :
    Effect MovementError (Watched W) SubsystemOutput := do
  let verdict ← resolveMovement ctx playerName dispatch
  match verdict with
  | .stay output => pure output
  | .go fromRegion toRegion via drains => do
    ExceptT.adapt MovementError.patch
      (partyMove ctx playerName fromRegion toRegion drains additionalPlayerNames)
    pure { toRegion := some toRegion, fromRegion := some fromRegion, resolvedVia := some via }

end Sidequest.World
