import Mathlib.Algebra.Order.Ring.Rat
import Mathlib.Data.Prod.Lex
import Mathlib.Data.String.Basic
import Sidequest.Lib.Effect
import Sidequest.Lib.Hops
import Sidequest.Lib.Sort

namespace Sidequest.Dungeon

open Lib

/-!
# The region graph

One contiguous map: regions, and typed edges between them that may be hidden, or shortcuts.

* `RegionGraph` — the map; the ends of its edges are regions of it;
* `isConnected`, `cyclomaticNumber` — whether everything hangs together, and how many loops there
  are;
* `mem_neighbors_of_mem_exits` — every way out leads to a neighbour.
-/

section

/-- What the generator and the map raise. -/
inductive GraphError where
  | duplicateRegion (regionId : String)
  | selfLoop (regionId : String)
  | unknownEndpoint (regionId : String)
  | notInGraph (regionId : String)
  | unknownSource (source : String)
  | missingKey (key : String)
  | emptySequence
  | badConfig (message : String)
  | emptyThemePool
  | attachNotExplored (regionId : String)
  | tooFewAttachRegions (expansionId : Int) (attachRegionIds : List String)
  | expansionGeneration (expansionId : Int) (attempts : Int) (failing : List String)
  | disconnected (expansionId : Int) (reached total : Nat) (entranceId : String)
  | lessLoopful (expansionId : Int) (before after : Int)
  | offOrdinaryRoute (regionIds : List String) (entranceId : String)
deriving DecidableEq

/-- A region: a themed zone. Its depth is scored when it is attached. -/
structure RegionNode where
  id : String
  expansionId : Int
  theme : String
  depthScore : Option ℚ := none
deriving DecidableEq

/-- A typed connection. -/
structure RegionEdge where
  (a b kind : String)
  hidden : Bool := false
  shortcut : Bool := false
deriving DecidableEq

variable (graph : RegionGraph) (e : RegionEdge)

namespace RegionEdge

/-- The ends of an edge, without repetition. -/
def endpoints : List String := if e.a = e.b then [e.a] else [e.a, e.b]

/-- Where an edge leads from a region. -/
def ends (regionId : String) : List String :=
  (if e.a = regionId then [e.b] else []) ++ if e.b = regionId then [e.a] else []

/-- Neither hidden nor a shortcut. -/
def ordinary : Bool := !(e.hidden || e.shortcut)

end RegionEdge

/-- A batch of new regions, and of edges between them and to regions that were there before. -/
structure Expansion where
  expansionId : Int
  newNodes : List RegionNode
  newEdges : List RegionEdge
deriving DecidableEq

def Expansion.newRegionIds (exp : Expansion) : List String := (exp.newNodes.map (·.id)).dedup

/-- The map: its regions under their ids, and its edges, each between two of them. -/
structure RegionGraph where
  entranceId : String
  nodes : Dict String RegionNode
  edges : List RegionEdge
  keyed : ∀ entry ∈ nodes.entries, entry.2.id = entry.1
  known : ∀ e ∈ edges, e.a ≠ e.b ∧ e.a ∈ nodes.keys ∧ e.b ∈ nodes.keys

namespace RegionGraph

/-- A map without regions. -/
def empty (entranceId : String) : RegionGraph where
  entranceId := entranceId
  nodes := .empty
  edges := []
  keyed := fun _ h => nomatch h
  known := fun _ h => nomatch h

/-! ### Growing -/

/-- The map with one more region. -/
def withNode (node : RegionNode) : RegionGraph where
  entranceId := graph.entranceId
  nodes := graph.nodes.insert node.id node
  edges := graph.edges
  keyed := by
    intro entry hentry
    have hget : (graph.nodes.insert node.id node).get? entry.1 = some entry.2 :=
      Dict.get?_eq_some_iff.mpr hentry
    rw [Dict.get?_insert] at hget
    by_cases hkey : entry.1 = node.id
    · rw [if_pos hkey] at hget
      rw [← Option.some.inj hget, hkey]
    · rw [if_neg hkey] at hget
      exact graph.keyed entry (Dict.get?_eq_some_iff.mp hget)
  known := by
    intro e he
    obtain ⟨hne, ha, hb⟩ := graph.known e he
    exact ⟨hne, Dict.mem_keys_insert.mpr (.inr ha), Dict.mem_keys_insert.mpr (.inr hb)⟩

/-- The map with one more edge between two of its regions. -/
def withEdge (edge : RegionEdge)
    (h : edge.a ≠ edge.b ∧ edge.a ∈ graph.nodes.keys ∧ edge.b ∈ graph.nodes.keys) :
    RegionGraph where
  entranceId := graph.entranceId
  nodes := graph.nodes
  edges := graph.edges ++ [edge]
  keyed := graph.keyed
  known := by
    intro e he
    rcases List.mem_append.mp he with he | he
    · exact graph.known e he
    · rw [List.mem_singleton.mp he]
      exact h

/-- Add a region; its id has to be new. -/
def addNode (node : RegionNode) : Effect GraphError RegionGraph PUnit := do
  let graph ← get
  if node.id ∈ graph.nodes.keys then throw (.duplicateRegion node.id)
  else set (graph.withNode node)

/-- Add an edge between two different regions of the map. -/
def addEdge (edge : RegionEdge) : Effect GraphError RegionGraph PUnit := do
  let graph ← get
  if hloop : edge.a = edge.b then throw (.selfLoop edge.a)
  else if ha : edge.a ∈ graph.nodes.keys then
    if hb : edge.b ∈ graph.nodes.keys then set (graph.withEdge edge ⟨hloop, ha, hb⟩)
    else throw (.unknownEndpoint edge.b)
  else throw (.unknownEndpoint edge.a)

/-! ### Distances -/

/-- How many edges meet a region. -/
def degree (regionId : String) : Except GraphError Nat :=
  if regionId ∈ graph.nodes.keys then
    .ok (graph.edges.countP (fun e => regionId = e.a || regionId = e.b))
  else .error (.notInGraph regionId)

/-- The edges at the places that are not skipped. -/
def keptEdges (skip : List Nat) : List RegionEdge :=
  (graph.edges.zipIdx.filter (fun p => p.2 ∉ skip)).map Prod.fst

/-- The neighbours of a region over some edges, in the order of the edges; a blocked region is
    nobody's neighbour. -/
def adjacent (edges : List RegionEdge) (blocked : Option String) (regionId : String) : List String :=
  (edges.flatMap (fun e => e.ends regionId)).filter (fun r => blocked ≠ some r)

/-- The hop distances from a region, around a blocked region and without some edges. -/
def distances (source : String) (blocked : Option String) (skip : List Nat) : Dict String Nat :=
  bfs (adjacent (graph.keptEdges skip) blocked) graph.nodes.keys source

/-- The hop distances from a source, which has to be a region of the map. -/
def bfsDist (source : String) (blocked : Option String) (skip : List Nat) :
    Except GraphError (Dict String Nat) :=
  if source ∈ graph.nodes.keys then .ok (graph.distances source blocked skip)
  else .error (.unknownSource source)

def reachableFromEntrance : Except GraphError (List String) := do
  let dist ← graph.bfsDist graph.entranceId none []
  .ok dist.keys

/-- Every region can be reached from the entrance. -/
def isConnected : Except GraphError Bool :=
  if graph.nodes.keys = [] then .ok true
  else do
    let reached ← graph.reachableFromEntrance
    .ok (decide (reached.length = graph.nodes.keys.length))

/-- One more region: a new component, with all it can reach, unless it was seen before. -/
def countComponent (acc : List String × Nat) (regionId : String) : List String × Nat :=
  if regionId ∈ acc.1 then acc
  else (acc.1 ∪ (graph.distances regionId none []).keys, acc.2 + 1)

def componentCount : Nat :=
  (graph.nodes.keys.foldl graph.countComponent ([], 0)).2

/-- Edges less regions plus components: 0 for a forest, at least 1 where there is a loop. -/
def cyclomaticNumber : Int :=
  graph.edges.length - graph.nodes.keys.length + graph.componentCount

end RegionGraph

end

/-- What the players see of a theme. -/
structure Theme where
  (displayName register flavor : String)
  motifs : List String := []

/-- A way out of a region. -/
structure RegionExit where
  (toRegionId kind : String)
  hidden : Bool := false
  shortcut : Bool := false
  bearing : String := ""

/-- The current region, projected for one turn. -/
structure RegionProjection where
  (regionId themeId themeDisplay register flavor : String)
  motifs : List String
  depthScore : Option ℚ
  exits : List RegionExit
  isDungeon : Bool

/-- Why a projection raises. -/
inductive ProjectionError where
  | blankRegion
  | phantomRegion (regionId : String)
  | unknownTheme (themeId : String)

variable (digest : String → Nat) (graph : RegionGraph) (regionId : String)

namespace RegionGraph

/-- The other end of an edge, seen from a region. -/
def otherEnd (e : RegionEdge) : Option String :=
  if e.a = regionId then some e.b else if e.b = regionId then some e.a else none

/-- The neighbours of a region, once for every edge. -/
def neighbors : Except GraphError (List String) :=
  if regionId ∈ graph.nodes.keys then .ok (graph.edges.filterMap (otherEnd regionId))
  else .error (.notInGraph regionId)

/-- The depth of a region, if it is known and has one. -/
def depthOf? : Option ℚ :=
  (graph.nodes.get? regionId).bind RegionNode.depthScore

end RegionGraph

/-! ### Bearings -/

/-- The slots of the compass, in the order they are tried. -/
def compassOrder : List String :=
  ["north", "east", "south", "west", "northeast", "southeast", "southwest", "northwest"]

/-- The bearings given out so far, with the ways that are left for the compass. -/
structure Bearings where
  bearings : Dict String String := .empty
  used : List String := []
  horizontals : List String := []

namespace Bearings

/-- Give a way a bearing. -/
def assign (b : Bearings) (other label : String) : Bearings :=
  { b with bearings := b.bearings.insert other label, used := b.used ++ [label] }

/-- The vertical label of a way, by its kind and the depth it leads to. -/
def verticalLabel? (curDepth ndepth : ℚ) (kind : String) : Option String :=
  if kind = "shaft" ∨ kind = "chute" then some (if curDepth ≤ ndepth then "down" else "up")
  else if kind = "stairs" then some (if curDepth < ndepth then "down" else "up")
  else none

/-- A vertical way takes its label, unless another way has it. -/
def addVertical (curDepth : ℚ) (b : Bearings) (way : String × String) : Bearings :=
  match verticalLabel? curDepth ((graph.depthOf? way.1).getD curDepth) way.2 with
  | none => { b with horizontals := b.horizontals ++ [way.1] }
  | some label =>
    if label ∈ b.used then { b with horizontals := b.horizontals ++ [way.1] }
    else b.assign way.1 label

/-- A horizontal way takes the first free slot of the compass from its home slot on, or a label of
    its own. -/
def addHorizontal (homeSlot : String → Nat) (b : Bearings) (other : String) : Bearings :=
  match (compassOrder.rotate (homeSlot other)).find? (· ∉ b.used) with
  | some slot => b.assign other slot
  | none => { b with bearings := b.bearings.insert other ("passage-" ++ other) }

end Bearings

/-- The home slot of a way on the compass. `digest` is the hash of a text, read as a number. -/
def bearingHomeSlot (otherId : String) : Nat :=
  digest (regionId ++ "|" ++ otherId) % compassOrder.length

/-- Every way out of a region gets a bearing: first the vertical ones, then the others in the order
    of their home slots. -/
def assignBearings : Dict String String :=
  let ways := graph.edges.filterMap
    (fun e => (RegionGraph.otherEnd regionId e).map (fun other => (other, e.kind)))
  let ordered := ways.insertionSort (fun a b => toLex a ≤ toLex b)
  let vertical := ordered.foldl
    (Bearings.addVertical graph ((graph.depthOf? regionId).getD 0)) {}
  let slot := bearingHomeSlot digest regionId
  (((vertical.horizontals.insertionSort
    (fun a b => toLex (slot a, a) ≤ toLex (slot b, b))).foldl
      (Bearings.addHorizontal slot) vertical)).bearings

/-! ### Ways out -/

/-- Of parallel ways the visible one is kept, and of these the shortcut. -/
def RegionExit.rank (e : RegionExit) : Bool ×ₗ Bool ×ₗ String ×ₗ String ×ₗ String :=
  toLex (e.hidden, toLex (!e.shortcut, toLex (e.kind, toLex (e.bearing, e.toRegionId))))

/-- The first exit to each region. -/
def collapse (exits : List RegionExit) : List RegionExit :=
  exits.foldl (fun kept e => if e.toRegionId ∈ kept.map (·.toRegionId) then kept else kept ++ [e]) []

/-- The exit an edge gives a region. -/
def exitOf (bearings : Dict String String) (regionId : String) (e : RegionEdge) :
    Option RegionExit :=
  (RegionGraph.otherEnd regionId e).map (fun other =>
    { toRegionId := other, kind := e.kind, hidden := e.hidden, shortcut := e.shortcut
      bearing := (bearings.get? other).getD "" })

/-- The ways out of a region: one for each neighbour, the visible ones first. -/
def projectExits : List RegionExit :=
  let exits := graph.edges.filterMap (exitOf (assignBearings digest graph regionId) regionId)
  let single :=
    if (exits.map (·.toRegionId)).Nodup then exits
    else collapse (exits.insertionSort (fun a b => a.rank ≤ b.rank))
  single.insertionSort (fun a b => toLex (a.hidden, a.toRegionId) ≤ toLex (b.hidden, b.toRegionId))

/-- Project a region against the map and the palette. -/
def projectRegion (currentRegion : String) (palette : Dict String Theme) :
    Except ProjectionError RegionProjection :=
  if currentRegion = "" then .error .blankRegion
  else match graph.nodes.get? currentRegion with
    | none => .error (.phantomRegion currentRegion)
    | some node => match palette.get? node.theme with
      | none => .error (.unknownTheme node.theme)
      | some theme => .ok {
          regionId := node.id
          themeId := node.theme
          themeDisplay := theme.displayName
          register := theme.register
          flavor := theme.flavor
          motifs := theme.motifs
          depthScore := node.depthScore
          exits := projectExits digest graph currentRegion
          isDungeon := true }

section Projected

variable {digest : String → Nat} {graph : RegionGraph} {currentRegion : String}
  {palette : Dict String Theme}

theorem unknownTheme_of_projectRegion {e : ProjectionError} (hblank : currentRegion ≠ "")
    (hnode : currentRegion ∈ graph.nodes.keys)
    (h : projectRegion digest graph currentRegion palette = .error e) :
    ∃ themeId, e = .unknownTheme themeId := by
  obtain ⟨node, hget⟩ := Dict.mem_keys_iff_get?.mp hnode
  unfold projectRegion at h
  rw [if_neg hblank, hget] at h
  dsimp only at h
  split at h
  · exact ⟨node.theme, (Except.error.inj h).symm⟩
  · cases h

theorem exits_of_projectRegion {proj : RegionProjection}
    (h : projectRegion digest graph currentRegion palette = .ok proj) :
    proj.exits = projectExits digest graph currentRegion := by
  unfold projectRegion at h
  split_ifs at h
  split at h
  · cases h
  · split at h
    · cases h
    · rw [← Except.ok.inj h]

end Projected

/-! ### Where the ways out lead -/

theorem mem_of_mem_collapse {exits : List RegionExit} {e : RegionExit} (h : e ∈ collapse exits) :
    e ∈ exits := by
  have hfold : ∀ (l kept : List RegionExit), (∀ x ∈ kept, x ∈ exits) → (∀ x ∈ l, x ∈ exits) →
      ∀ x ∈ l.foldl (fun kept e =>
        if e.toRegionId ∈ kept.map (·.toRegionId) then kept else kept ++ [e]) kept, x ∈ exits := by
    intro l
    induction l with
    | nil => exact fun kept hkept _ => hkept
    | cons a l ih =>
      intro kept hkept hl
      rw [List.foldl_cons]
      refine ih _ ?_ (fun x hx => hl x (.tail a hx))
      split
      · exact hkept
      · intro x hx
        rcases List.mem_append.mp hx with hx | hx
        · exact hkept x hx
        · rw [List.mem_singleton.mp hx]
          exact hl a (.head _)
  exact hfold exits [] (by simp) (fun _ h => h) e h

theorem exists_edge_of_mem_exits {digest : String → Nat} {graph : RegionGraph} {regionId : String}
    {e : RegionExit} (h : e ∈ projectExits digest graph regionId) :
    ∃ edge ∈ graph.edges, RegionGraph.otherEnd regionId edge = some e.toRegionId := by
  unfold projectExits at h
  rw [List.mem_insertionSort] at h
  have hexit : e ∈ graph.edges.filterMap
      (exitOf (assignBearings digest graph regionId) regionId) := by
    split at h
    · exact h
    · exact (List.mem_insertionSort _).mp (mem_of_mem_collapse h)
  obtain ⟨edge, hedge, hof⟩ := List.mem_filterMap.mp hexit
  obtain ⟨other, hother, rfl⟩ := Option.map_eq_some_iff.mp hof
  exact ⟨edge, hedge, hother⟩

/-- **Every way out leads to a neighbour.** -/
theorem mem_neighbors_of_mem_exits {digest : String → Nat} {graph : RegionGraph}
    {regionId : String} {e : RegionExit} (h : e ∈ projectExits digest graph regionId) :
    e.toRegionId ∈ graph.edges.filterMap (RegionGraph.otherEnd regionId) := by
  obtain ⟨edge, hedge, hother⟩ := exists_edge_of_mem_exits h
  exact List.mem_filterMap.mpr ⟨edge, hedge, hother⟩

/-- A neighbour is a region of the map. -/
theorem mem_keys_of_otherEnd {graph : RegionGraph} {regionId other : String} {edge : RegionEdge}
    (hedge : edge ∈ graph.edges) (h : RegionGraph.otherEnd regionId edge = some other) :
    other ∈ graph.nodes.keys := by
  obtain ⟨-, ha, hb⟩ := graph.known edge hedge
  unfold RegionGraph.otherEnd at h
  split_ifs at h with h₁ h₂
  · cases h
    exact hb
  · cases h
    exact ha

end Sidequest.Dungeon
