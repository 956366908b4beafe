import Mathlib.Data.List.Sort
import Sidequest.Dungeon.RegionGraph
import Sidequest.Lib.Draws
import Sidequest.Lib.Except

namespace Sidequest.Dungeon

open Lib

/-!
# Generating and attaching expansions

A candidate is a random tree of new regions, stitched to explored ones in several places, with
hidden edges, a shortcut to each of its deepest regions and some loops. Candidates are drawn until
one passes the check.

* `JaquaysConfig` — the floors and the knobs; `JaquaysConfig.validate`;
* `buildCandidate` — one candidate, piece by piece;
* `ordinaryRouteDist`, `assignDepthScores` — a region is scored when it is attached, by its hop
  distance from the entrance without hidden edges and shortcuts, and the score is frozen.
-/

section

/-! ### Floors and knobs -/

/-- The least of everything, and how far above it the generator may go. -/
structure JaquaysConfig where
  minStitchEdges : Int := 2
  minLoopsIntoExplored : Int := 1
  minHiddenEdges : Int := 1
  minShortcutEdges : Int := 1
  minShortcutGain : Int := 1
  connectionBurst : Int := 3
  newRegionsPerExpansion : Int × Int := (3, 6)
  maxRerollAttempts : Int := 64
  edgeKinds : List String := ["corridor", "stairs", "shaft", "chute", "secret"]

/-- A check of a knob, with what is said where it fails. -/
def refuse (bad : Prop) [Decidable bad] (message : String) : Except GraphError Unit :=
  if bad then .error (.badConfig message) else .ok ()

/-- A floor has to be at least 1. -/
def atLeastOne (name : String) (value : Int) : Except GraphError Unit :=
  refuse (value < 1) (name ++ " must be >= 1")

variable (explored : RegionGraph) (exp : Expansion) (config : JaquaysConfig)

def JaquaysConfig.validate : Except GraphError Unit := do
  refuse (config.edgeKinds = []) "edge_kinds must be non-empty"
  refuse ("secret" ∉ config.edgeKinds) "edge_kinds must include 'secret' (needed for hidden edges)"
  atLeastOne "min_stitch_edges" config.minStitchEdges
  atLeastOne "min_loops_into_explored" config.minLoopsIntoExplored
  atLeastOne "min_hidden_edges" config.minHiddenEdges
  atLeastOne "min_shortcut_edges" config.minShortcutEdges
  atLeastOne "min_shortcut_gain" config.minShortcutGain
  refuse (config.connectionBurst < 0) "connection_burst must be >= 0"
  atLeastOne "max_reroll_attempts" config.maxRerollAttempts
  let lo := config.newRegionsPerExpansion.1
  let hi := config.newRegionsPerExpansion.2
  refuse (lo < 1 ∨ hi < lo) ("new_regions_per_expansion must be (lo>=1, hi>=lo); got (" ++
    toString lo ++ ", " ++ toString hi ++ ")")
  refuse (lo < config.minStitchEdges) ("new_regions_per_expansion lower bound must be " ++
    ">= min_stitch_edges (need that many distinct new regions to form independent entries)")
  refuse (lo < config.minStitchEdges + config.minShortcutEdges)
    ("new_regions_per_expansion lower bound must be >= min_stitch_edges + min_shortcut_edges " ++
      "(need distinct new regions for >=2 independent entries AND distinct shortcut targets)")

theorem refuse_eq_ok {bad : Prop} [Decidable bad] {message : String} {u : Unit} :
    refuse bad message = .ok u ↔ ¬ bad := by
  unfold refuse
  by_cases h : bad
  · simp [h]
  · simp [h]

theorem JaquaysConfig.floors_of_validate {config : JaquaysConfig} {u : Unit}
    (h : config.validate = .ok u) :
    1 ≤ config.minStitchEdges ∧ 1 ≤ config.minHiddenEdges ∧ 1 ≤ config.minShortcutEdges ∧
      1 ≤ config.newRegionsPerExpansion.1 := by
  unfold JaquaysConfig.validate at h
  simp only [bind_eq_ok, atLeastOne, refuse_eq_ok] at h
  obtain ⟨-, -, -, -, -, hstitch, -, -, -, hhidden, -, hshortcut, -, -, -, -, -, -, -, hregions,
    -⟩ := h
  omega

/-! ### The map with an expansion -/

namespace RegionGraph

/-- The regions of an expansion, then its edges. -/
def applyExpansion : Effect GraphError RegionGraph PUnit := do
  exp.newNodes.forM addNode
  exp.newEdges.forM addEdge

/-- A copy of the map with the expansion applied. -/
def postAttachGraph : Except GraphError RegionGraph :=
  match (applyExpansion exp).exec explored with
  | (.ok _, post) => .ok post
  | (.error e, _) => .error e

/-- Nothing but the entrance is there. -/
def isSeed (graph : RegionGraph) : Bool := decide (graph.nodes.keys = [graph.entranceId])

end RegionGraph

/-! ### The check -/

/-- What is checked. -/
inductive Invariant where
  | twoIndependentEntries
  | loopsIntoExplored
  | mixedKindsWithHidden
  | shortcutCollapsesDistance
  | noSingleEntrance
  | noSingleChokepoint
deriving DecidableEq

def Invariant.name : Invariant → String
  | .twoIndependentEntries => "two_independent_entries"
  | .loopsIntoExplored => "loops_into_explored"
  | .mixedKindsWithHidden => "mixed_kinds_with_hidden"
  | .shortcutCollapsesDistance => "shortcut_collapses_distance"
  | .noSingleEntrance => "no_single_entrance"
  | .noSingleChokepoint => "no_single_chokepoint"

/-- All of them, in the order they are checked. -/
def invariants : List Invariant :=
  [.twoIndependentEntries, .loopsIntoExplored, .mixedKindsWithHidden, .shortcutCollapsesDistance,
    .noSingleEntrance, .noSingleChokepoint]

/-- The report on an expansion. -/
structure GenerationReport where
  (expansionId attempts : Int)
  (stitchEdges loopsIntoExplored hiddenEdges shortcutEdges newRegions : Nat)
  invariantsPassed : Invariant → Bool

def GenerationReport.allPassed (rep : GenerationReport) : Bool :=
  invariants.all rep.invariantsPassed

def GenerationReport.failing (rep : GenerationReport) : List String :=
  (invariants.filter (fun i => !rep.invariantsPassed i)).map Invariant.name

/-- The ends of an edge among some regions. -/
def RegionEdge.endsIn (e : RegionEdge) (ids : List String) : List String :=
  e.endpoints.filter (· ∈ ids)

/-- The ordinary edges between what is explored and what is new. -/
def stitchOf : List RegionEdge :=
  exp.newEdges.filter (fun e =>
    decide ((e.endsIn exp.newRegionIds).length = 1) &&
      decide ((e.endsIn explored.nodes.keys).length = 1) && e.ordinary)

/-- The ends of some edges among some regions, without repetition. -/
def endpointsIn (edges : List RegionEdge) (ids : List String) : List String :=
  (edges.flatMap (fun e => (e.endsIn ids).head?.toList)).dedup

/-- There are enough ordinary edges, to enough new regions, from enough explored ones; from the
    entrance alone where nothing else is explored. -/
def twoIndependentEntries : Bool :=
  let stitch := stitchOf explored exp
  let exploredOk :=
    if explored.isSeed then
      decide (2 ≤ (endpointsIn (stitch.filter (fun e => explored.entranceId ∈ e.endpoints))
        exp.newRegionIds).length)
    else decide (2 ≤ (endpointsIn stitch explored.nodes.keys).length)
  decide (config.minStitchEdges ≤ stitch.length) &&
    decide (config.minStitchEdges ≤ (endpointsIn stitch exp.newRegionIds).length) && exploredOk

/-- Only known kinds, two of them at least, and enough hidden edges. -/
def mixedKindsWithHidden : Bool :=
  let kinds := (exp.newEdges.map (·.kind)).dedup
  kinds.all (· ∈ config.edgeKinds) && decide (2 ≤ kinds.length) &&
    decide (config.minHiddenEdges ≤ exp.newEdges.countP (·.hidden))

variable (post : RegionGraph)

/-- How much farther some region is from the entrance without the edge at a place. -/
def shortcutGain (base : Dict String Nat) (i : Nat) : Except GraphError Int := do
  let alt ← post.bfsDist post.entranceId none [i]
  let big := post.nodes.keys.length + 1
  match (post.nodes.keys.map (fun r =>
      (((alt.get? r).getD big : Nat) : Int) - ((base.get? r).getD big : Nat))).max? with
  | none => .error .emptySequence
  | some gain => .ok gain

/-- The shortcuts that shorten some way by as much as they should. -/
def shortcutHits (config : JaquaysConfig) : Except GraphError Nat := do
  let base ← post.bfsDist post.entranceId none []
  let gains ← (post.edges.zipIdx.filter (fun p => p.1.shortcut)).mapM
    (fun p => shortcutGain post base p.2)
  .ok (gains.countP (fun gain => config.minShortcutGain ≤ gain))

/-- Every new region has two edges at least. -/
def noSingleEntrance (exp : Expansion) : Except GraphError Bool := do
  let degrees ← exp.newRegionIds.mapM post.degree
  .ok (degrees.all (2 ≤ ·))

/-- A region at an end of a stitch edge, other than the entrance, can be done without: another new
    region is reached around it. -/
def avoidable (exp : Expansion) (v : String) : Except GraphError Bool :=
  if v = post.entranceId then .ok true
  else do
    let reached ← post.bfsDist post.entranceId (some v) []
    .ok (exp.newRegionIds.any (fun r => r ≠ v ∧ r ∈ reached.keys))

def noSingleChokepoint (exp : Expansion) : Except GraphError Bool := do
  let stitch := stitchOf explored exp
  let free ← (endpointsIn stitch exp.newRegionIds ∪ endpointsIn stitch explored.nodes.keys).mapM
    (avoidable post exp)
  .ok (free.all id)

/-- Check an expansion of the explored map. -/
def checkInvariants : Except GraphError GenerationReport := do
  config.validate
  let post ← explored.postAttachGraph exp
  let stitch := stitchOf explored exp
  let loops := stitch.length - 1
  let hits ← shortcutHits post config
  let entrances ← noSingleEntrance post exp
  let chokepointFree ← noSingleChokepoint explored post exp
  .ok {
    expansionId := exp.expansionId
    attempts := 1
    stitchEdges := stitch.length
    loopsIntoExplored := loops
    hiddenEdges := exp.newEdges.countP (·.hidden)
    shortcutEdges := hits
    newRegions := exp.newNodes.length
    invariantsPassed := fun
      | .twoIndependentEntries => twoIndependentEntries explored exp config
      | .loopsIntoExplored => decide (config.minLoopsIntoExplored ≤ loops)
      | .mixedKindsWithHidden => mixedKindsWithHidden exp config
      | .shortcutCollapsesDistance => decide (config.minShortcutEdges ≤ hits)
      | .noSingleEntrance => entrances
      | .noSingleChokepoint => chokepointFree }

end

variable (explored : RegionGraph) (newIds attach : List String)

section

/-- What is taken from the standard library: the 8-byte digest of a text as a number, and the
    generator of a seed. -/
structure Entropy where
  blake2b : String → Fin (2 ^ 64)
  random : Nat → Rng

variable (entropy : Entropy)

def subseed (campaignSeed expansionId : Int) (attempt : Nat) : Fin (2 ^ 64) :=
  entropy.blake2b (toString campaignSeed ++ "|" ++ toString expansionId ++ "|" ++ toString attempt)

/-! ### The pieces of a candidate -/

/-- A computation of the generator. -/
abbrev Drawing := Effect GraphError Rng

/-- A number with zeros in front, up to a width. -/
def zeroPadded (width n : Nat) : String := "".pushn '0' (width - (toString n).length) ++ toString n

variable (expansionId : Int)

/-- The id of the `i`-th region of an expansion, whose number is padded to three characters. -/
def regionId (i : Nat) : String :=
  "exp" ++ (if expansionId < 0 then "-" ++ zeroPadded 2 expansionId.natAbs
    else zeroPadded 3 expansionId.natAbs) ++ ".r" ++ toString i

/-- Different elements of a pool: `k` of them, or all if there are no more. -/
def pickDistinct (pool : List String) (k : Nat) : Drawing (List String) :=
  if k ≥ pool.length then shuffled pool else sample .emptySequence k pool

/-- More elements of a pool, up to a number of them. -/
def fillUp (pool : List String) (count : Nat) (picked : List String) : Drawing (List String) := do
  let more ← (List.range (count - picked.length)).mapM (fun _ => choice .emptySequence pool)
  pure (picked ++ more)

/-- The explored regions an expansion may hang from: the entrance alone at first, later at least
    two. -/
def attachRegions (attachRegionIds : List String) : Except GraphError (List String) :=
  match attachRegionIds.find? (· ∉ explored.nodes.keys) with
  | some rid => .error (.attachNotExplored rid)
  | none =>
    if explored.isSeed then .ok [explored.entranceId]
    else
      let attach := attachRegionIds.dedup.insertionSort (· ≤ ·)
      if attach.length < 2 then .error (.tooFewAttachRegions expansionId attachRegionIds)
      else .ok attach

/-- The new regions, each with a theme of the pool. -/
def newNodes (themePool : List String) (n : Nat) : Drawing (List RegionNode) :=
  (List.range n).mapM (fun i => do
    let theme ← choice .emptySequence themePool
    pure { id := regionId expansionId i, expansionId := expansionId, theme := theme })

/-- An edge from the `i`-th new region back to an earlier one. -/
def treeEdge (i : Nat) : Drawing RegionEdge := do
  let k ← randrange .emptySequence i
  match newIds[k]?, newIds[i]? with
  | some parent, some child => pure { a := parent, b := child, kind := "corridor" }
  | _, _ => throw .emptySequence

/-- A tree over the new regions, with random parents. -/
def spanningTree : Drawing (List RegionEdge) :=
  (List.range' 1 (newIds.length - 1)).mapM (treeEdge newIds)

/-- The depth of a new region in the tree. -/
def treeDepth (tree : List RegionEdge) (regionId : String) : Nat :=
  match newIds with
  | [] => 0
  | root :: _ => ((bfs (RegionGraph.adjacent tree none) newIds root).get? regionId).getD 0

/-- The deepest new regions: one for each shortcut. -/
def shortcutTargets (tree : List RegionEdge) (config : JaquaysConfig) : List String :=
  (newIds.insertionSort (fun r s => treeDepth newIds tree s ≤ treeDepth newIds tree r)).take
    config.minShortcutEdges.toNat

/-- The new regions other than these, if there are any. -/
def stitchable (targets : List String) : List String :=
  let others := newIds.filter (· ∉ targets)
  if others = [] then newIds else others

/-- Not all edges hang from one explored region, if there is another. -/
def spread (sources : List String) : Except GraphError (List String) :=
  match sources with
  | first :: second :: rest =>
    if sources.dedup.length < 2 ∧ 2 ≤ attach.length then
      match attach.find? (· ≠ first) with
      | some other => .ok (first :: other :: rest)
      | none => .error .emptySequence
    else .ok (first :: second :: rest)
  | _ => .ok sources

/-- The explored ends of the stitch edges. -/
def stitchSources (count : Nat) : Drawing (List String) :=
  if explored.isSeed then pure (List.replicate count explored.entranceId)
  else do
    let base ← pickDistinct attach (min attach.length count)
    let sources ← fillUp attach count base
    ofExcept (spread attach sources)

/-- The kind of the `j`-th stitch edge: the first is a corridor. -/
def stitchKind (config : JaquaysConfig) (j : Nat) : Drawing String :=
  if j = 0 then pure "corridor" else choice .emptySequence config.edgeKinds

/-- The stitch edges: from explored regions to new ones. -/
def stitchEdges (stitchable : List String) (config : JaquaysConfig) :
    Drawing (List RegionEdge) := do
  let burst ← randint .emptySequence 0 config.connectionBurst
  let count := (config.minStitchEdges + burst).toNat
  let picked ← pickDistinct stitchable (min stitchable.length count)
  let targets ← fillUp stitchable count picked
  let sources ← stitchSources explored attach count
  (sources.zip targets).zipIdx.mapM (fun p => do
    let kind ← stitchKind config p.2
    pure { a := p.1.1, b := p.1.2, kind := kind })

/-- The hidden edges, which spare the targets of shortcuts. -/
def hiddenEdges (stitchable : List String) (config : JaquaysConfig) : Drawing (List RegionEdge) :=
  (List.range config.minHiddenEdges.toNat).mapM (fun _ => do
    let a ← choice .emptySequence attach
    let b ← choice .emptySequence stitchable
    pure { a := a, b := b, kind := "secret", hidden := true })

/-- Of the entrance and the regions to attach to, the one closest to the entrance. -/
def nearestRegion : Except GraphError String := do
  let dist ← explored.bfsDist explored.entranceId none []
  let ranked ← (explored.entranceId :: attach).mapM (fun r =>
    match dist.get? r with
    | some d => .ok (r, d)
    | none => .error (.missingKey r))
  match ranked with
  | [] => .error .emptySequence
  | first :: rest => .ok (rest.foldl (fun best p => if p.2 < best.2 then p else best) first).1

/-- One shortcut for each target, all of one kind. -/
def shortcutEdges (nearest : String) (targets : List String) (config : JaquaysConfig) :
    Drawing (List RegionEdge) := do
  let vertical := ["shaft", "chute", "stairs", "secret"].filter (· ∈ config.edgeKinds)
  let kind ← choice .emptySequence (if vertical = [] then config.edgeKinds else vertical)
  pure (targets.map (fun t =>
    { a := nearest, b := t, kind := kind, hidden := decide (kind = "secret"), shortcut := true }))

/-- A corridor between two new regions, if there are two. -/
def loopEdge : Drawing (List RegionEdge) :=
  if 2 ≤ newIds.length then do
    let ends ← sample .emptySequence 2 newIds
    match ends with
    | [x, y] => pure [{ a := x, b := y, kind := "corridor" }]
    | _ => pure []
  else pure []

/-- Some more loops. -/
def loopEdges (config : JaquaysConfig) : Drawing (List RegionEdge) := do
  let count ← randint .emptySequence 0 config.connectionBurst
  let loops ← (List.range count.toNat).mapM (fun _ => loopEdge newIds)
  pure loops.flatten

/-- One more edge, of another kind, where there is but one kind so far. -/
def secondKind (newIds : List String) (edges : List RegionEdge) (config : JaquaysConfig) :
    List RegionEdge :=
  if (edges.map (·.kind)).dedup.length < 2 then
    match attach, newIds, config.edgeKinds.filter (· ≠ "corridor") with
    | a :: _, b :: _, kind :: _ => [{ a := a, b := b, kind := kind }]
    | _, _, _ => []
  else []

/-! ### Candidates -/

/-- The edges of a candidate. -/
def candidateEdges (newIds : List String) (config : JaquaysConfig) : Drawing (List RegionEdge) := do
  let tree ← spanningTree newIds
  let targets := shortcutTargets newIds tree config
  let stitch ← stitchEdges explored attach (stitchable newIds targets) config
  let secrets ← hiddenEdges attach (stitchable newIds targets) config
  let nearest ← ofExcept (nearestRegion explored attach)
  let shortcuts ← shortcutEdges nearest targets config
  let loops ← loopEdges newIds config
  let edges := tree ++ stitch ++ secrets ++ shortcuts ++ loops
  pure (edges ++ secondKind attach newIds edges config)

/-- One candidate. -/
def buildCandidate (attachRegionIds : List String) (themePool : List String)
    (config : JaquaysConfig) : Drawing Expansion := do
  ofExcept config.validate
  if themePool = [] then throw .emptyThemePool
  let attach ← ofExcept (attachRegions explored expansionId attachRegionIds)
  let n ← randint .emptySequence config.newRegionsPerExpansion.1 config.newRegionsPerExpansion.2
  let nodes ← newNodes expansionId themePool n.toNat
  let edges ← candidateEdges explored attach (nodes.map (·.id)) config
  pure ⟨expansionId, nodes, edges⟩

/-! ### The re-roll loop -/

/-- The attempts that are left, after some that have failed. -/
def reroll (graph : RegionGraph) (campaignSeed expansionId : Int) (attachRegionIds : List String)
    (themePool : List String) (config : JaquaysConfig) :
    Nat → Nat → Option GenerationReport → Except GraphError (Expansion × GenerationReport)
  | _, 0, last => .error (.expansionGeneration expansionId config.maxRerollAttempts
      (match last with
        | some report => report.failing
        | none => []))
  | attempt, left + 1, _ => do
    let candidate ← ((buildCandidate graph expansionId attachRegionIds themePool config).exec
      (entropy.random (subseed entropy campaignSeed expansionId attempt))).1
    let checked ← checkInvariants graph candidate config
    let report := { checked with attempts := attempt + 1 }
    if report.allPassed then .ok (candidate, report)
    else
      reroll graph campaignSeed expansionId attachRegionIds themePool config (attempt + 1) left
        (some report)

/-- Generate one expansion that passes the check. -/
def generateExpansion (graph : RegionGraph) (campaignSeed expansionId : Int)
    (attachRegionIds themePool : List String) (config : JaquaysConfig) :
    Except GraphError (Expansion × GenerationReport) := do
  config.validate
  reroll entropy graph campaignSeed expansionId attachRegionIds themePool config 0
    config.maxRerollAttempts.toNat none

/-! ### Attaching -/

/-- Add an expansion to the map, and verify that the map is connected and no less loopful. -/
def attachExpansion (exp : Expansion) : Effect GraphError RegionGraph PUnit := do
  let pre ← get
  RegionGraph.applyExpansion exp
  let graph ← get
  let connected ← ofExcept graph.isConnected
  if !connected then do
    let reached ← ofExcept graph.reachableFromEntrance
    throw (.disconnected exp.expansionId reached.length graph.nodes.keys.length graph.entranceId)
  let floor : Int := if 1 < pre.nodes.keys.length ∨ exp.newNodes ≠ [] then 1 else 0
  if graph.cyclomaticNumber < max floor pre.cyclomaticNumber then
    throw (.lessLoopful exp.expansionId pre.cyclomaticNumber graph.cyclomaticNumber)

end

/-- The knobs of depth. -/
structure DepthConfig where
  depthPerHop : ℚ := 10
  jitterMax : ℚ := 3
  bucketSize : ℚ := 30

def DepthConfig.validate (config : DepthConfig) : Except GraphError Unit := do
  refuse (config.depthPerHop ≤ 0) "depth_per_hop must be > 0"
  refuse (config.jitterMax < 0) "jitter_max must be >= 0"
  refuse (config.jitterMax ≥ config.depthPerHop)
    ("jitter_max must be < depth_per_hop (else a dist-1 region can jitter below 0 and " ++
      "level_bucket floors it to the surface — a silent depth collapse)")
  refuse (config.bucketSize < config.depthPerHop)
    ("bucket_size must be >= depth_per_hop (a player-facing 'level' must be coarser than a " ++
      "single hop, else it is a floor index — the explicitly-rejected concept)")

/-- What was scored. -/
structure DepthReport where
  regionsScored : Nat := 0
  depthMin : ℚ := 0
  depthMax : ℚ := 0
  depthMean : ℚ := 0

namespace RegionGraph

variable (graph : RegionGraph)

/-- The places of the edges that are hidden or shortcuts. -/
def offRoute : List Nat :=
  (graph.edges.zipIdx.filter (fun p => !p.1.ordinary)).map Prod.snd

/-- The hop distances over ordinary edges, which have to lead to every region. -/
def ordinaryRouteDist : Except GraphError (Dict String Nat) := do
  let dist ← graph.bfsDist graph.entranceId none graph.offRoute
  let missing := (graph.nodes.keys.filter (· ∉ dist.keys)).insertionSort (· ≤ ·)
  if missing ≠ [] then .error (.offOrdinaryRoute missing graph.entranceId) else .ok dist

/-- The map with a region scored. -/
def withScore (regionId : String) (score : ℚ) : RegionGraph where
  entranceId := graph.entranceId
  nodes := graph.nodes.modify regionId (fun node => { node with depthScore := some score })
  edges := graph.edges
  keyed := by
    intro entry hentry
    have hget := Dict.get?_eq_some_iff.mpr hentry
    rw [Dict.get?_modify] at hget
    by_cases hkey : entry.1 = regionId
    · rw [if_pos hkey] at hget
      obtain ⟨node, hnode, hscored⟩ := Option.map_eq_some_iff.mp hget
      rw [← hscored, hkey]
      exact graph.keyed (regionId, node) (Dict.get?_eq_some_iff.mp hnode)
    · rw [if_neg hkey] at hget
      exact graph.keyed entry (Dict.get?_eq_some_iff.mp hget)
  known := by
    intro e he
    rw [Dict.keys_modify]
    exact graph.known e he

end RegionGraph

/-! ### Scoring -/

variable (entropy : Entropy)

/-- How far a score is off, between `-jitterMax` and `jitterMax`. -/
def depthJitter (campaignSeed : Int) (regionId : String) (jitterMax : ℚ) : ℚ :=
  if jitterMax = 0 then 0
  else
    let digest := entropy.blake2b (toString campaignSeed ++ "|depth|" ++ regionId)
    (((digest.val : Nat) : ℚ) / 2 ^ 64 * 2 - 1) * jitterMax

/-- The score of a region that is so many hops away; the entrance is the origin. -/
def depthScore (graph : RegionGraph) (campaignSeed : Int) (config : DepthConfig)
    (dist : Dict String Nat) (regionId : String) : Except GraphError ℚ :=
  if regionId = graph.entranceId then .ok 0
  else
    match dist.get? regionId with
    | none => .error (.missingKey regionId)
    | some hops => .ok (hops * config.depthPerHop +
        depthJitter entropy campaignSeed regionId config.jitterMax)

/-- The regions without a score. -/
def RegionGraph.unscored (graph : RegionGraph) : List String :=
  (graph.nodes.entries.filter (fun p => p.2.depthScore = none)).map Prod.fst

/-- What is reported of the scores given. -/
def reportOf (scores : List ℚ) : DepthReport where
  regionsScored := scores.length
  depthMin := scores.min?.getD 0
  depthMax := scores.max?.getD 0
  depthMean := scores.sum / scores.length

/-- Score one region, from the distances on the map as it was. -/
def scoreRegion (graph : RegionGraph) (campaignSeed : Int) (config : DepthConfig)
    (dist : Dict String Nat) (regionId : String) : Effect GraphError RegionGraph ℚ := do
  let score ← ofExcept (depthScore entropy graph campaignSeed config dist regionId)
  modify (fun g => g.withScore regionId score)
  pure score

/-- Score the regions that have no score. -/
def assignDepthScores (campaignSeed : Int) (config : DepthConfig) :
    Effect GraphError RegionGraph DepthReport := do
  ofExcept config.validate
  let graph ← get
  if graph.unscored = [] then pure {}
  else do
    let dist ← ofExcept graph.ordinaryRouteDist
    let scores ← graph.unscored.mapM (scoreRegion entropy graph campaignSeed config dist)
    pure (reportOf scores)

end Sidequest.Dungeon
