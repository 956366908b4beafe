import Sidequest.Dungeon.Attach
import Sidequest.Dungeon.Contiguous
import Sidequest.Dungeon.Materialize

namespace Sidequest.Dungeon

open Lib Effect
open World (RegionNotice GameSnapshot)

/-!
# Many saves in one process

The observers of region transitions stand in one list of the process. Every save that is attached
adds two: its look-ahead worker and its quest observer, each with the store of its save. A
transition is told to all of them, with the snapshot of the party that moved.

* `Save`, `WorkerState`, `Server` — snapshots and stores under the slugs of their saves, the workers
  of the attached ones, and the seam with the observers;
* `ServerEvent`, `Server.step` — all of it, in any order.
-/

/-! ### Saves and workers -/

/-- A save: the snapshot in memory, and the dungeon in the store. -/
structure Save where
  (genreSlug worldSlug : String)
  snapshot : LiveSnapshot
  tables : Tables
  campaignSeed : Option Int := none

/-- A background task: its edges, those it has not come to yet, and the save whose snapshot it was
    given. -/
structure SnapshotTask where
  (edges pending : List FrontierEdge)
  snapshotOf : String

/-- What the look-ahead worker of an attached save keeps. -/
structure WorkerState where
  campaignSeed : Int
  lookaheadBreadth : Int := 1
  inFlight : Dict String Nat := .empty
  tasks : Dict Nat SnapshotTask := .empty
  nextTask : Nat := 0

/-- A process: the saves it serves, the workers of those that are attached, and the seam. -/
structure Server where
  saves : Dict String Save
  workers : Dict String WorkerState := .empty
  seam : Seam := {}

namespace Server

def modifySave (slug : String) (f : Save → Save) (p : Server) : Server :=
  { p with saves := p.saves.modify slug f }

def modifyWorker (slug : String) (f : WorkerState → WorkerState) (p : Server) : Server :=
  { p with workers := p.workers.modify slug f }

end Server

/-! ### Observers -/

/-- The edges of the frontier in the order of their ids. -/
def Tables.loadFrontier (t : Tables) : List FrontierEdge :=
  ((t.frontier.entries.filter (fun entry => entry.1.1 = "frontier")).map Prod.snd).insertionSort
    (fun a b => a.frontierEdgeId ≤ b.frontierEdgeId)

namespace WorkerState

/-- The edges of a store that a party approaches as it enters a region. -/
def targets (w : WorkerState) (tables : Tables) (toRegion : String) : List FrontierEdge :=
  selectFrontierEdges tables.loadFrontier toRegion w.lookaheadBreadth

/-- Start one task for those edges that are not in flight, and mark them. -/
def schedule (edges : List FrontierEdge) (snapshotOf : String) (w : WorkerState) : WorkerState :=
  let fresh := edges.filter (fun edge => edge.frontierEdgeId ∉ w.inFlight.keys)
  if fresh.isEmpty then w
  else
    { w with
      inFlight := fresh.foldl (fun marks edge => marks.insert edge.frontierEdgeId w.nextTask)
        w.inFlight
      tasks := w.tasks.insert w.nextTask ⟨fresh, fresh, snapshotOf⟩
      nextTask := w.nextTask + 1 }

end WorkerState

/-- The look-ahead of a save, told of a transition on the snapshot of some save. -/
def callLookahead (owner slug : String) (notice : RegionNotice) (p : Server) : Server :=
  match p.saves.get? owner with
  | none => p
  | some save =>
    p.modifyWorker owner (fun w => w.schedule (w.targets save.tables notice.toRegion) slug)

/-- The quest observer of a save, told of a transition on the snapshot of some save. -/
def callExpansionQuest (owner slug : String) (notice : RegionNotice) (p : Server) : Server :=
  match p.saves.get? slug, p.saves.get? owner with
  | some save, some store =>
    let q := expansionQuestObserver notice.fromRegion notice.toRegion
      ⟨save.snapshot.toGameSnapshot, store.tables.ledger⟩
    (p.modifySave slug (fun save =>
      { save with snapshot := { save.snapshot with toGameSnapshot := q.snapshot } })).modifySave
        owner (fun store => { store with tables := { store.tables with ledger := q.ledger } })
  | _, _ => p

/-- Tell an observer of a transition on the snapshot of a save. -/
def callObserver (slug : String) (notice : RegionNotice) (p : Server) : Observer → Server
  | .lookahead handle => callLookahead handle.gameSlug slug notice p
  | .quest handle => callExpansionQuest handle.gameSlug slug notice p

/-- A region that is entered is a discovered one. -/
def promote (toRegion : String) (save : Save) : Save :=
  if toRegion ∈ save.snapshot.discoveredRegions then save
  else { save with snapshot := { save.snapshot with
    discoveredRegions := save.snapshot.discoveredRegions ++ [toRegion] } }

/-- Stage the authored cast of a region: those who are not in the pool yet. This observer is
    registered as the process starts. -/
def stageRegionCast (regionCast : String → String → String → List String) (notice : RegionNotice)
    (save : Save) : Save :=
  let cast := regionCast save.genreSlug save.worldSlug notice.toRegion
  { save with snapshot := { save.snapshot with
    npcPool := cast.foldl (fun pool name =>
      if name ∈ pool.map (·.name) then pool
      else pool ++ [{ name := name, drawnFrom := some "world_authored" }]) save.snapshot.npcPool } }

/-- A server on which a party has entered a region, before the observers of saves are told. -/
def Server.enter (regionCast : String → String → String → List String) (slug : String)
    (notice : RegionNotice) (p : Server) : Server :=
  p.modifySave slug (fun save => stageRegionCast regionCast notice (promote notice.toRegion save))

/-- **A region transition** on the snapshot of a save: all observers are told, in the order of their
    registration. -/
def notifyRegionTransition (regionCast : String → String → String → List String) (slug : String)
    (notice : RegionNotice) (p : Server) : Server :=
  run (callObserver slug notice) (p.enter regionCast slug notice) p.seam.observers

/-! ### Attachment -/

variable {F : Type}

/-- The theme of the entrance: the first by id of those for the surface. -/
def selectEntranceThemeId (palette : ThemePalette) : Option String :=
  (((themesForDepth palette 0).map (·.id)).insertionSort (· ≤ ·)).head?

/-- The request of the first expansion. -/
def buildExpansionOneRequest (campaignSeed : Int) (genreSlug worldSlug : String) :
    MaterializationRequest where
  campaignSeed := campaignSeed
  expansionId := 1
  frontierEdge := ⟨"seed_fe1", entranceId, "down", 0⟩
  attachRegionIds := [entranceId]
  heading := "down"
  burstMagnitude := 3
  lookaheadBreadth := 1
  genreSlug := genreSlug
  worldSlug := worldSlug

/-- A campaign that stands nowhere yet stands at the entrance. -/
def bindEntrance (snapshot : LiveSnapshot) : LiveSnapshot :=
  if snapshot.currentRegion ≠ "" then snapshot
  else
    let bound : GameSnapshot := { snapshot.toGameSnapshot with
      currentRegion := entranceId
      discoveredRegions := if entranceId ∈ snapshot.discoveredRegions then
        snapshot.discoveredRegions else snapshot.discoveredRegions ++ [entranceId] }
    { snapshot with toGameSnapshot := (bound.seedPcRegions entranceId false).1 }

namespace Save

/-- Read the map of the default site. -/
def loadedMap (scan : Scan) (save : Save) : Except String RegionGraph :=
  (loadMap scan entranceId "frontier" save.tables.map).mapError (fun _ => "load_map")

/-- What is done before a worker is registered: a fresh dungeon is made, and a campaign that stands
    nowhere is put at its entrance. -/
def bootstrap (m : Materializer F) (drawnSeed : Int) (save : Save) : Save × Except String Unit :=
  let campaignSeed := save.campaignSeed.getD drawnSeed
  let seeded := { save with campaignSeed := some campaignSeed }
  match save.loadedMap m.scan with
  | .error e => (seeded, .error e)
  | .ok graph =>
    if graph.nodes.entries ≠ [] then
      ({ seeded with snapshot := bindEntrance seeded.snapshot }, .ok ())
    else
      match selectEntranceThemeId m.palette with
      | none => (seeded, .error "no theme covers the surface entrance")
      | some theme =>
        let entrance : RegionNode := { id := entranceId, expansionId := 0, theme := theme }
        match (m.materialize (buildExpansionOneRequest campaignSeed save.genreSlug
            save.worldSlug)).exec ⟨seedGraph entrance, seeded.snapshot, seeded.tables⟩ with
        | (.error _, c) =>
          ({ seeded with snapshot := c.snapshot, tables := c.tables }, .error "materialize")
        | (.ok _, c) =>
          ({ seeded with snapshot := bindEntrance c.snapshot, tables := c.tables }, .ok ())

/-- What an attach reads and writes of its save. In another world it does nothing; for a save that
    is attached it only reads the map. -/
def attached (m : Materializer F) (drawnSeed : Int) (isAttached : Bool) (save : Save) :
    Save × Except String Unit :=
  if save.genreSlug ≠ dungeonGenre ∨ save.worldSlug ≠ dungeonWorld then (save, .ok ())
  else if isAttached then (save, (save.loadedMap m.scan).map (fun _ => ()))
  else save.bootstrap m drawnSeed

end Save

/-- **Attach** the dungeon of a save. Its first handle comes with a worker. -/
def Server.attach (m : Materializer F) (drawnSeed : Int) (slug : String) (p : Server) : Server :=
  match p.saves.get? slug with
  | none => p
  | some save =>
    let r := save.attached m drawnSeed (slug ∈ p.seam.attachedSaves.keys)
    let p' := p.modifySave slug (fun _ => r.1)
    match attachDungeonToSession save.genreSlug save.worldSlug slug r.2 p.seam with
    | .error _ => p'
    | .ok (none, seam) => { p' with seam := seam }
    | .ok (some _, seam) =>
      if slug ∈ p.seam.attachedSaves.keys then { p' with seam := seam }
      else { p' with
        seam := seam
        workers := p.workers.insert slug { campaignSeed := save.campaignSeed.getD drawnSeed } }

/-! ### Background tasks -/

/-- The regions that an expansion from a region is attached to: itself, and its neighbours. -/
def attachRegionIds (graph : RegionGraph) (fromRegionId : String) :
    Except GraphError (List String) := do
  let neighbors ← graph.neighbors fromRegionId
  .ok (neighbors.foldl (fun attach nb => if nb ∈ attach then attach else attach ++ [nb])
    [fromRegionId])

/-- The request of the next expansion, one past the highest on the map. -/
def lookaheadRequest (w : WorkerState) (save : Save) (graph : RegionGraph) (edge : FrontierEdge) :
    Except MaterializeError MaterializationRequest :=
  let expansionId := match graph.nodes.values.map (·.expansionId) with
    | [] => 1
    | n :: rest => rest.foldl max n + 1
  match attachRegionIds graph edge.fromRegionId with
  | .error cause => .error (.graph cause)
  | .ok attach =>
    if expansionId < 1 then .error (.stage "expansion_id must be >= 1")
    else .ok {
      campaignSeed := w.campaignSeed
      expansionId := expansionId
      frontierEdge := edge
      attachRegionIds := attach
      heading := edge.heading
      burstMagnitude := 3
      lookaheadBreadth := w.lookaheadBreadth
      genreSlug := save.genreSlug
      worldSlug := save.worldSlug }

/-- What became of one edge: the snapshot, the store, and whether it raised. -/
structure EdgeOutcome where
  snapshot : LiveSnapshot
  tables : Tables
  raised : Bool

/-- Materialize the expansion of one edge, out of the store of a save and with some snapshot. -/
def Save.materializeEdge (m : Materializer F) (w : WorkerState) (edge : FrontierEdge)
    (snapshot : LiveSnapshot) (save : Save) : EdgeOutcome :=
  match save.loadedMap m.scan with
  | .error _ => ⟨snapshot, save.tables, true⟩
  | .ok graph =>
    match lookaheadRequest w save graph edge with
    | .error _ => ⟨snapshot, save.tables, true⟩
    | .ok request =>
      match (m.materialize request).exec ⟨graph, snapshot, save.tables⟩ with
      | (.error _, c) => ⟨c.snapshot, c.tables, true⟩
      | (.ok _, c) => ⟨c.snapshot, c.tables, false⟩

/-- A task of a save's worker comes to its next edge. An exception ends the task. -/
def materializeNextEdge (m : Materializer F) (slug : String) (taskNo : Nat) (p : Server) : Server :=
  match p.saves.get? slug, p.workers.get? slug with
  | some save, some w =>
    match w.tasks.get? taskNo with
    | some ⟨edges, edge :: rest, snapshotOf⟩ =>
      match p.saves.get? snapshotOf with
      | none => p
      | some source =>
        let outcome := save.materializeEdge m w edge source.snapshot
        let task : SnapshotTask := ⟨edges, if outcome.raised then [] else rest, snapshotOf⟩
        ((p.modifySave snapshotOf (fun s => { s with snapshot := outcome.snapshot })).modifySave slug
          (fun s => { s with tables := outcome.tables })).modifyWorker slug
            (fun w => { w with tasks := w.tasks.insert taskNo task })
    | _ => p
  | _, _ => p

/-- The callback of a task that has ended: its markers are cleared. -/
def WorkerState.done (taskNo : Nat) (w : WorkerState) : WorkerState :=
  match w.tasks.get? taskNo with
  | some ⟨edges, [], _⟩ =>
    { w with
      inFlight := edges.foldl (fun marks edge => marks.erase edge.frontierEdgeId) w.inFlight
      tasks := w.tasks.erase taskNo }
  | _ => w

/-! ### The process -/

/-- What happens in a process. Apart from attaching, transitions and background tasks, a session
    does with its own snapshot and store whatever it does. -/
inductive ServerEvent (F : Type) where
  | attach (slug : String) (m : Materializer F) (drawnSeed : Int)
  | play (slug : String) (f : LiveSnapshot × Tables → LiveSnapshot × Tables)
  | transition (slug : String) (notice : RegionNotice)
  | materializeNext (slug : String) (m : Materializer F) (taskNo : Nat)
  | done (slug : String) (taskNo : Nat)

/-- The save an event is of. -/
def ServerEvent.slug : ServerEvent F → String
  | .attach slug _ _ => slug
  | .play slug _ => slug
  | .transition slug _ => slug
  | .materializeNext slug _ _ => slug
  | .done slug _ => slug

/-- One event. -/
def Server.step (regionCast : String → String → String → List String) (p : Server) :
    ServerEvent F → Server
  | .attach slug m drawnSeed => p.attach m drawnSeed slug
  | .play slug f => p.modifySave slug (fun save =>
      { save with
        snapshot := (f (save.snapshot, save.tables)).1
        tables := (f (save.snapshot, save.tables)).2 })
  | .transition slug notice => notifyRegionTransition regionCast slug notice p
  | .materializeNext slug m taskNo => materializeNextEdge m slug taskNo p
  | .done slug taskNo => p.modifyWorker slug (WorkerState.done taskNo)

end Sidequest.Dungeon
