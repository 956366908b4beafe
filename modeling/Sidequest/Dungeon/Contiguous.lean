import Mathlib.Combinatorics.SimpleGraph.Acyclic
import Sidequest.Dungeon.Stitched

namespace Sidequest.Dungeon

open Lib Effect

/-!
# One contiguous map

From the entrance on, every expansion that is generated can be attached, and the map stays in one
piece, along ordinary edges too.

* `applyExpansion_spec` — what an expansion adds to the map;
* `attached_of_explored` — what holds of every expansion of such a map;
* `loops_le_growth_iff` — when the map gets the loops that the check reports;
* `not_loops_le_growth` — three dead ends with two ways into each of them.
-/

section

/-! ### Adding an expansion -/

/-- The map on its way: with what is left to be added, it has these regions and edges. -/
structure Growing (entranceId : String) (keys : List String) (edges : List RegionEdge)
    (nodesLeft : List RegionNode) (edgesLeft : List RegionEdge) (graph : RegionGraph) : Prop where
  entrance : graph.entranceId = entranceId
  keys : graph.nodes.keys ++ nodesLeft.map (·.id) = keys
  edges : graph.edges ++ edgesLeft = edges

section Growing

variable {entranceId : String} {keys : List String} {edges edgesLeft : List RegionEdge}
  {nodesLeft : List RegionNode}

theorem meets_addNode (node : RegionNode) :
    Meets (Growing entranceId keys edges (node :: nodesLeft) edgesLeft) (RegionGraph.addNode node)
      (fun _ => Growing entranceId keys edges nodesLeft edgesLeft) (fun _ _ => True) := by
  intro graph h
  unfold RegionGraph.addNode
  rw [exec_bind, exec_get]
  dsimp only
  by_cases hknown : node.id ∈ graph.nodes.keys
  · rw [if_pos hknown]
    trivial
  · rw [if_neg hknown, exec_set]
    refine ⟨h.entrance, ?_, h.edges⟩
    have hkeys : (graph.withNode node).nodes.keys = graph.nodes.keys ++ [node.id] := by
      show (graph.nodes.insert node.id node).keys = _
      rw [Dict.keys_insert, if_neg hknown]
    rw [hkeys, List.append_assoc]
    exact h.keys

theorem meets_addEdge (edge : RegionEdge) :
    Meets (Growing entranceId keys edges [] (edge :: edgesLeft)) (RegionGraph.addEdge edge)
      (fun _ => Growing entranceId keys edges [] edgesLeft) (fun _ _ => True) := by
  intro graph h
  unfold RegionGraph.addEdge
  rw [exec_bind, exec_get]
  dsimp only
  by_cases hloop : edge.a = edge.b
  · rw [dif_pos hloop]
    trivial
  · rw [dif_neg hloop]
    by_cases ha : edge.a ∈ graph.nodes.keys
    · rw [dif_pos ha]
      by_cases hb : edge.b ∈ graph.nodes.keys
      · rw [dif_pos hb, exec_set]
        refine ⟨h.entrance, h.keys, ?_⟩
        show (graph.edges ++ [edge]) ++ edgesLeft = edges
        rw [List.append_assoc]
        exact h.edges
      · rw [dif_neg hb]
        trivial
    · rw [dif_neg ha]
      trivial

end Growing

section Attach

variable {graph post : RegionGraph} {exp : Expansion}

theorem applyExpansion_spec {u : PUnit}
    (h : (RegionGraph.applyExpansion exp).exec graph = (.ok u, post)) :
    post.entranceId = graph.entranceId ∧
      post.nodes.keys = graph.nodes.keys ++ exp.newNodes.map (·.id) ∧
      post.edges = graph.edges ++ exp.newEdges := by
  have hmeets : Meets (Growing graph.entranceId (graph.nodes.keys ++ exp.newNodes.map (·.id))
      (graph.edges ++ exp.newEdges) exp.newNodes exp.newEdges) (RegionGraph.applyExpansion exp)
      (fun _ => Growing graph.entranceId (graph.nodes.keys ++ exp.newNodes.map (·.id))
        (graph.edges ++ exp.newEdges) [] []) (fun _ _ => True) := by
    refine meets_bind (meets_forM (I := fun l => Growing graph.entranceId
      (graph.nodes.keys ++ exp.newNodes.map (·.id)) (graph.edges ++ exp.newEdges) l exp.newEdges)
      (fun node _ => meets_addNode node) exp.newNodes) (fun _ => ?_)
    exact meets_forM (I := fun l => Growing graph.entranceId
      (graph.nodes.keys ++ exp.newNodes.map (·.id)) (graph.edges ++ exp.newEdges) [] l)
      (fun edge _ => meets_addEdge edge) exp.newEdges
  obtain ⟨hentrance, hkeys, hedges⟩ := hmeets.of_ok ⟨rfl, rfl, rfl⟩ h
  rw [List.map_nil, List.append_nil] at hkeys
  rw [List.append_nil] at hedges
  exact ⟨hentrance, hkeys, hedges⟩

/-- An expansion that can be applied adds its regions and its edges. -/
theorem postAttachGraph_spec (h : graph.postAttachGraph exp = .ok post) :
    post.entranceId = graph.entranceId ∧
      post.nodes.keys = graph.nodes.keys ++ exp.newNodes.map (·.id) ∧
      post.edges = graph.edges ++ exp.newEdges := by
  unfold RegionGraph.postAttachGraph at h
  split at h
  · rename_i happly
    cases h
    exact applyExpansion_spec happly
  · simp at h

theorem mem_newRegionIds {r : String} :
    r ∈ exp.newRegionIds ↔ r ∈ exp.newNodes.map (·.id) := List.mem_dedup

theorem not_mem_explored (h : graph.postAttachGraph exp = .ok post) {r : String}
    (hr : r ∈ exp.newRegionIds) : r ∉ graph.nodes.keys := by
  have hnodup := post.nodes.nodup_keys
  rw [(postAttachGraph_spec h).2.1] at hnodup
  exact fun hold => List.disjoint_of_nodup_append hnodup hold (mem_newRegionIds.mp hr)

/-- The map stays contiguous, and gets more loops. -/
theorem Contiguous.applyExpansion (hgraph : Contiguous graph)
    (hstitched : Stitched graph (exp.newNodes.map (·.id)) exp.newEdges) {u : PUnit}
    (h : (RegionGraph.applyExpansion exp).exec graph = (.ok u, post)) :
    Contiguous post ∧ graph.cyclomaticNumber + 1 ≤ post.cyclomaticNumber := by
  obtain ⟨hentrance, hkeys, hedges⟩ := applyExpansion_spec h
  have hold : ∀ e ∈ graph.edges.filter RegionEdge.ordinary,
      e ∈ post.edges.filter RegionEdge.ordinary := by
    intro e he
    rw [hedges, List.filter_append]
    exact List.mem_append_left _ he
  have hnew : ∀ e ∈ exp.newEdges.filter RegionEdge.ordinary,
      e ∈ post.edges.filter RegionEdge.ordinary := by
    intro e he
    rw [hedges, List.filter_append]
    exact List.mem_append_right _ he
  have hloops := hstitched.loops
  have hpost : Contiguous post := by
    constructor
    · rw [hentrance, hkeys]
      exact List.mem_append_left _ hgraph.entrance
    · have hspanned := hgraph.spanned
      rw [hkeys, hedges, List.length_append, List.length_append]
      omega
    · intro r hr
      rw [hkeys] at hr
      rw [hentrance]
      rcases List.mem_append.mp hr with hr | hr
      · exact (hgraph.ordinary r hr).mono hold
      · obtain ⟨v, hv, hpath⟩ := hstitched.hung r hr
        exact ((hgraph.ordinary v hv).mono hold).trans (hpath.mono hnew)
  refine ⟨hpost, ?_⟩
  rw [hgraph.cyclomaticNumber, hpost.cyclomaticNumber, hkeys, hedges, List.length_append,
    List.length_append]
  omega

/-- **Attaching.** An expansion that hangs on a contiguous map is attached. -/
theorem attachExpansion_of_stitched (hgraph : Contiguous graph)
    (hstitched : Stitched graph (exp.newNodes.map (·.id)) exp.newEdges) {u : PUnit}
    (h : (RegionGraph.applyExpansion exp).exec graph = (.ok u, post)) :
    (attachExpansion exp).exec graph = (.ok ⟨⟩, post) := by
  obtain ⟨hpost, hloops⟩ := hgraph.applyExpansion hstitched h
  unfold attachExpansion
  rw [exec_bind, exec_get]
  dsimp only
  rw [exec_bind, h]
  dsimp only
  rw [exec_bind, exec_get]
  dsimp only
  have hfloor : ¬ post.cyclomaticNumber < max
      (if 1 < graph.nodes.keys.length ∨ exp.newNodes ≠ [] then 1 else 0)
      graph.cyclomaticNumber := by
    have hspanned := hgraph.spanned
    rw [hgraph.cyclomaticNumber] at hloops ⊢
    split <;> omega
  rw [hpost.isConnected]
  show (if post.cyclomaticNumber < max
      (if 1 < graph.nodes.keys.length ∨ exp.newNodes ≠ [] then 1 else 0) graph.cyclomaticNumber
    then throw (.lessLoopful exp.expansionId graph.cyclomaticNumber post.cyclomaticNumber)
    else pure ⟨⟩ : Effect GraphError RegionGraph PUnit).exec post = (.ok ⟨⟩, post)
  rw [if_neg hfloor]
  rfl

end Attach

/-! ### Scoring -/

/-- A map that differs in its scores at most. -/
structure SameShape (graph graph' : RegionGraph) : Prop where
  entrance : graph'.entranceId = graph.entranceId
  keys : graph'.nodes.keys = graph.nodes.keys
  edges : graph'.edges = graph.edges

theorem Contiguous.of_sameShape {graph graph' : RegionGraph} (h : Contiguous graph)
    (hsame : SameShape graph graph') : Contiguous graph' := by
  constructor
  · rw [hsame.entrance, hsame.keys]
    exact h.entrance
  · rw [hsame.keys, hsame.edges]
    exact h.spanned
  · rw [hsame.entrance, hsame.keys, hsame.edges]
    exact h.ordinary

section Scoring

variable (entropy : Entropy) {graph : RegionGraph} (campaignSeed : Int) {config : DepthConfig}
  {dist : Dict String Nat} {regionId : String}

theorem exists_depthScore (graph : RegionGraph) (config : DepthConfig) (h : regionId ∈ dist.keys) :
    ∃ score, depthScore entropy graph campaignSeed config dist regionId = .ok score := by
  obtain ⟨hops, hhops⟩ := Dict.mem_keys_iff_get?.mp h
  unfold depthScore
  by_cases hentrance : regionId = graph.entranceId
  · exact ⟨0, if_pos hentrance⟩
  · rw [if_neg hentrance, hhops]
    exact ⟨_, rfl⟩

/-- A region that is reached is scored, and nothing else changes. -/
theorem safe_scoreRegion (h : regionId ∈ dist.keys) :
    Safe (SameShape graph) (scoreRegion entropy graph campaignSeed config dist regionId) := by
  obtain ⟨score, hscore⟩ := exists_depthScore entropy campaignSeed graph config h
  intro graph' hsame
  unfold scoreRegion
  rw [hscore]
  refine ⟨hsame.entrance, ?_, hsame.edges⟩
  show (graph'.nodes.modify regionId _).keys = graph.nodes.keys
  rw [Dict.keys_modify]
  exact hsame.keys

/-- **Scoring.** The regions of a contiguous map are scored, and nothing else changes. -/
theorem Contiguous.assignDepthScores (h : Contiguous graph) {u : Unit}
    (hvalid : config.validate = .ok u) :
    ∃ report graph', (Dungeon.assignDepthScores entropy campaignSeed config).exec graph
      = (.ok report, graph') ∧ SameShape graph graph' := by
  obtain ⟨dist, hdist, hreached⟩ := h.ordinaryRouteDist
  have hround : ∀ regionId ∈ graph.unscored,
      Safe (SameShape graph) (scoreRegion entropy graph campaignSeed config dist regionId) := by
    intro regionId hregion
    obtain ⟨p, hp, rfl⟩ := List.mem_map.mp hregion
    have hknown : p.1 ∈ graph.nodes.keys := List.mem_map_of_mem (List.mem_filter.mp hp).1
    exact safe_scoreRegion entropy campaignSeed (hreached p.1 hknown)
  have hscores := (safe_mapM hround).bind (fun scores => safe_pure (reportOf scores))
  unfold Dungeon.assignDepthScores
  rw [hvalid]
  by_cases hnone : graph.unscored = []
  · refine ⟨{}, graph, ?_, ⟨rfl, rfl, rfl⟩⟩
    show (if graph.unscored = [] then pure {} else _ :
      Effect GraphError RegionGraph DepthReport).exec graph = _
    rw [if_pos hnone]
    rfl
  · obtain ⟨report, graph', hexec, hsame⟩ := hscores.exists_ok ⟨rfl, rfl, rfl⟩
    refine ⟨report, graph', ?_, hsame⟩
    show (if graph.unscored = [] then pure {} else do
      let dist ← ofExcept graph.ordinaryRouteDist
      let scores ← graph.unscored.mapM (scoreRegion entropy graph campaignSeed config dist)
      pure (reportOf scores) : Effect GraphError RegionGraph DepthReport).exec graph = _
    rw [if_neg hnone, hdist]
    exact hexec

end Scoring

/-! ### Rounds -/

section Rounds

variable {entropy : Entropy} {graph : RegionGraph} {campaignSeed expansionId : Int}
  {attachRegionIds themePool : List String} {config : JaquaysConfig} {exp : Expansion}

/-- What an attempt returns was drawn, and can be applied to the map. -/
theorem exists_of_reroll {attempt left : Nat} {last : Option GenerationReport}
    {report : GenerationReport}
    (h : reroll entropy graph campaignSeed expansionId attachRegionIds themePool config attempt left
      last = .ok (exp, report)) :
    (∃ rng rng', (buildCandidate graph expansionId attachRegionIds themePool config).exec rng
      = (.ok exp, rng')) ∧
      ∃ post, graph.postAttachGraph exp = .ok post := by
  induction left generalizing attempt last with
  | zero => simp [reroll] at h
  | succ left ih =>
    unfold reroll at h
    rw [bind_eq_ok] at h
    obtain ⟨candidate, hbuild, h⟩ := h
    rw [bind_eq_ok] at h
    obtain ⟨checked, hchecked, h⟩ := h
    dsimp only at h
    split at h
    · cases h
      refine ⟨⟨_, _, Prod.ext hbuild rfl⟩, ?_⟩
      unfold checkInvariants at hchecked
      rw [bind_eq_ok] at hchecked
      obtain ⟨-, -, hchecked⟩ := hchecked
      rw [bind_eq_ok] at hchecked
      obtain ⟨post, hpost, -⟩ := hchecked
      exact ⟨post, hpost⟩
    · exact ih h

theorem stitched_of_generateExpansion {report : GenerationReport} (hgraph : Contiguous graph)
    (h : generateExpansion entropy graph campaignSeed expansionId attachRegionIds themePool config
      = .ok (exp, report)) : Stitched graph (exp.newNodes.map (·.id)) exp.newEdges ∧
      ∃ post, (RegionGraph.applyExpansion exp).exec graph = (.ok ⟨⟩, post) := by
  unfold generateExpansion at h
  rw [bind_eq_ok] at h
  obtain ⟨-, -, h⟩ := h
  obtain ⟨⟨rng, rng', hbuild⟩, post, hpost⟩ := exists_of_reroll h
  refine ⟨yields_buildCandidate hgraph.entrance attachRegionIds themePool rng exp rng' hbuild, post,
    ?_⟩
  unfold RegionGraph.postAttachGraph at hpost
  split at hpost
  · rename_i happly
    rw [happly, Except.ok.inj hpost]
  · simp at hpost

/-- The map with nothing but its entrance. -/
def seedGraph (entrance : RegionNode) : RegionGraph :=
  (RegionGraph.empty entrance.id).withNode entrance

/-- The maps that rounds lead to: expansions are generated and attached, and regions scored, with
    any seeds and knobs. -/
inductive Explored (entropy : Entropy) : RegionGraph → Prop
  | seed (entrance : RegionNode) : Explored entropy (seedGraph entrance)
  | attached {graph graph' : RegionGraph} {campaignSeed expansionId : Int}
      {attachRegionIds themePool : List String} {config : JaquaysConfig} {exp : Expansion}
      {report : GenerationReport} : Explored entropy graph →
      generateExpansion entropy graph campaignSeed expansionId attachRegionIds themePool config
        = .ok (exp, report) →
      (attachExpansion exp).exec graph = (.ok ⟨⟩, graph') → Explored entropy graph'
  | scored {graph graph' : RegionGraph} {campaignSeed : Int} {config : DepthConfig}
      {report : DepthReport} : Explored entropy graph →
      (assignDepthScores entropy campaignSeed config).exec graph = (.ok report, graph') →
      Explored entropy graph'

theorem contiguous_seedGraph (entrance : RegionNode) : Contiguous (seedGraph entrance) := by
  constructor
  · exact List.mem_singleton_self entrance.id
  · exact Nat.le_add_left 1 _
  · intro v hv
    rw [List.mem_singleton.mp hv]
    exact Relation.ReflTransGen.refl

theorem sameShape_of_assignDepthScores (h : Contiguous graph) {graph' : RegionGraph}
    {depth : DepthConfig} {report : DepthReport}
    (hscored : (assignDepthScores entropy campaignSeed depth).exec graph = (.ok report, graph')) :
    SameShape graph graph' := by
  rcases hvalid : depth.validate with e | u
  · unfold assignDepthScores at hscored
    rw [hvalid] at hscored
    have hraised : Except.error e = Except.ok report := congrArg Prod.fst hscored
    simp at hraised
  · obtain ⟨report', graph'', hexec, hsame⟩ :=
      h.assignDepthScores entropy campaignSeed hvalid
    rw [hexec] at hscored
    cases hscored
    exact hsame

/-- **Every map** that rounds lead to is contiguous. -/
theorem Explored.contiguous (h : Explored entropy graph) : Contiguous graph := by
  induction h with
  | seed entrance => exact contiguous_seedGraph entrance
  | attached _ hgenerated hattached ih =>
    obtain ⟨hstitched, post, happly⟩ := stitched_of_generateExpansion ih hgenerated
    rw [attachExpansion_of_stitched ih hstitched happly] at hattached
    cases hattached
    exact (ih.applyExpansion hstitched happly).1
  | scored _ hscored ih => exact ih.of_sameShape (sameShape_of_assignDepthScores ih hscored)

/-- **One contiguous map.** An expansion generated for an explored map is attached, the map is
    connected over ordinary edges with one loop more, and can be scored. -/
theorem attached_of_explored {report : GenerationReport} (hgraph : Explored entropy graph)
    (h : generateExpansion entropy graph campaignSeed expansionId attachRegionIds themePool config
      = .ok (exp, report)) :
    ∃ graph', (attachExpansion exp).exec graph = (.ok ⟨⟩, graph') ∧
      graph'.isConnected = .ok true ∧
      (∀ r ∈ graph'.nodes.keys, Joined (graph'.edges.filter RegionEdge.ordinary)
        graph'.entranceId r) ∧
      graph.cyclomaticNumber + 1 ≤ graph'.cyclomaticNumber ∧
      (∃ dist, graph'.ordinaryRouteDist = .ok dist) ∧
      ∀ seed (depth : DepthConfig), depth.validate = .ok () → ∃ report' graph'',
        (assignDepthScores entropy seed depth).exec graph' = (.ok report', graph'') := by
  have hcontiguous := hgraph.contiguous
  obtain ⟨hstitched, post, happly⟩ := stitched_of_generateExpansion hcontiguous h
  obtain ⟨hpost, hloops⟩ := hcontiguous.applyExpansion hstitched happly
  obtain ⟨dist, hdist, -⟩ := hpost.ordinaryRouteDist
  refine ⟨post, attachExpansion_of_stitched hcontiguous hstitched happly, hpost.isConnected,
    hpost.ordinary, hloops, ⟨dist, hdist⟩, fun seed depth hvalid => ?_⟩
  obtain ⟨report', graph'', hscored, -⟩ := hpost.assignDepthScores entropy seed hvalid
  exact ⟨report', graph'', hscored⟩

end Rounds

/-! ### A first expansion -/

/-- Digests of nothing but zeros, and rising draws. -/
def risingDraws : Entropy where
  blake2b := fun _ => 0
  random := fun _ n => n

/-- The entrance of a crypt. -/
def cryptEntrance : RegionNode := { id := "entrance", expansionId := 0, theme := "crypt" }

/-- Three new regions at a time. -/
def threeRegions : JaquaysConfig := { newRegionsPerExpansion := (3, 3) }

/-- A first expansion of three regions is attached to the entrance. -/
theorem attached_firstExpansion : ∃ exp graph',
    (attachExpansion exp).exec (seedGraph cryptEntrance) = (.ok ⟨⟩, graph') ∧
      graph'.isConnected = .ok true ∧
      (seedGraph cryptEntrance).cyclomaticNumber + 1 ≤ graph'.cyclomaticNumber := by
  have hreturns : (generateExpansion risingDraws (seedGraph cryptEntrance) 1 1 ["entrance"]
      ["crypt"] threeRegions).isOk = true := by
    decide +kernel
  rcases hgenerated : generateExpansion risingDraws (seedGraph cryptEntrance) 1 1 ["entrance"]
    ["crypt"] threeRegions with e | ⟨exp, report⟩
  · rw [hgenerated] at hreturns
    simp [Except.isOk, Except.toBool] at hreturns
  · obtain ⟨graph', hattached, hconnected, -, hloops, -⟩ :=
      attached_of_explored (Explored.seed cryptEntrance) hgenerated
    exact ⟨exp, graph', hattached, hconnected, hloops⟩

end

/-! ### Clusters of new regions -/

namespace Expansion

variable (exp : Expansion) (explored : RegionGraph)

/-- The new edges between new regions. -/
def innerEdges : List RegionEdge :=
  exp.newEdges.filter (fun e => decide (e.a ∈ exp.newRegionIds ∧ e.b ∈ exp.newRegionIds))

/-- The new edges that neither lead between new regions nor are stitch edges: hidden ways and
    shortcuts to the explored map, and ways within it. -/
def sideEdges : List RegionEdge :=
  exp.newEdges.filter (fun e =>
    !decide (e ∈ stitchOf explored exp) && !decide (e ∈ exp.innerEdges))

/-- The new regions that are joined to one by edges between new regions. -/
def cluster (regionId : String) : List String :=
  (bfs (RegionGraph.adjacent exp.innerEdges none) exp.newRegionIds regionId).keys

/-- The new regions in clusters, each cluster under its first region. -/
def clusters : List String := firsts exp.cluster [] exp.newRegionIds

/-- Some new edge leads from the cluster of a region to the explored map. -/
def hangs (regionId : String) : Bool :=
  (exp.cluster regionId).any (fun v => exp.newEdges.any (fun e =>
    (e.ends v).any (fun w => decide (w ∈ explored.nodes.keys))))

/-- The independent loops of the new regions among themselves: edges less regions plus clusters. -/
def innerLoops : Int :=
  exp.innerEdges.length - exp.newRegionIds.length + exp.clusters.length

end Expansion

section Clusters

variable {explored post : RegionGraph} {exp : Expansion}

theorem mem_innerEdges {e : RegionEdge} : e ∈ exp.innerEdges ↔
    e ∈ exp.newEdges ∧ e.a ∈ exp.newRegionIds ∧ e.b ∈ exp.newRegionIds := by
  unfold Expansion.innerEdges
  rw [List.mem_filter, decide_eq_true_eq]

theorem Linked.new {v w : String} (h : Linked exp.innerEdges v w) :
    w ∈ exp.newRegionIds := by
  obtain ⟨e, he, hends⟩ := h
  obtain ⟨-, ha, hb⟩ := mem_innerEdges.mp he
  rcases RegionEdge.mem_ends.mp hends with ⟨-, rfl⟩ | ⟨-, rfl⟩
  · exact hb
  · exact ha

theorem mem_cluster_iff {v w : String} (hv : v ∈ exp.newRegionIds) :
    w ∈ exp.cluster v ↔ Joined exp.innerEdges v w := by
  unfold Expansion.cluster
  rw [mem_keys_bfs_iff (fun v _ w hw => (mem_adjacent_iff.mp hw).new) hv,
    reaches_adjacent_iff]

theorem Joined.new {v w : String} (h : Joined exp.innerEdges v w)
    (hv : v ∈ exp.newRegionIds) : w ∈ exp.newRegionIds := by
  cases h with
  | refl => exact hv
  | tail _ hlast => exact hlast.new

/-- The new regions have ids of their own. -/
theorem newRegionIds_eq (hpost : explored.postAttachGraph exp = .ok post) :
    exp.newRegionIds = exp.newNodes.map (·.id) := by
  have hnodup := post.nodes.nodup_keys
  rw [(postAttachGraph_spec hpost).2.1] at hnodup
  exact (List.nodup_append.mp hnodup).2.1.dedup

/-- Every new edge is a stitch edge, or leads between new regions, or is on the side. -/
theorem length_newEdges (hpost : explored.postAttachGraph exp = .ok post) :
    (stitchOf explored exp).length + exp.innerEdges.length + (exp.sideEdges explored).length
      = exp.newEdges.length := by
  obtain ⟨-, -, hedges⟩ := postAttachGraph_spec hpost
  have hapart : ∀ e ∈ exp.newEdges, e ∈ stitchOf explored exp → e ∉ exp.innerEdges := by
    intro e he hstitch hinner
    obtain ⟨-, ha, hb⟩ := mem_innerEdges.mp hinner
    have hne : e.a ≠ e.b := (post.known e (hedges ▸ List.mem_append_right _ he)).1
    have hone := (List.mem_filter.mp hstitch).2
    simp [RegionEdge.endsIn, RegionEdge.endpoints, hne, ha, hb] at hone
  have hstitch : stitchOf explored exp =
      exp.newEdges.filter (fun e => decide (e ∈ stitchOf explored exp)) := by
    conv_lhs => unfold stitchOf
    exact List.filter_congr (fun e he => by simp [stitchOf, he])
  have hinner : exp.innerEdges = (exp.newEdges.filter
      (fun e => !decide (e ∈ stitchOf explored exp))).filter (fun e => decide (e ∈ exp.innerEdges)) := by
    rw [List.filter_filter]
    conv_lhs => unfold Expansion.innerEdges
    refine List.filter_congr (fun e he => ?_)
    by_cases hin : e ∈ exp.innerEdges
    · have hnot : e ∉ stitchOf explored exp := fun hs => hapart e he hs hin
      simp [hin, hnot, (mem_innerEdges.mp hin).2]
    · have hends : ¬ (e.a ∈ exp.newRegionIds ∧ e.b ∈ exp.newRegionIds) :=
        fun h => hin (mem_innerEdges.mpr ⟨he, h⟩)
      simp [hin, hends]
  have hside : exp.sideEdges explored = (exp.newEdges.filter
      (fun e => !decide (e ∈ stitchOf explored exp))).filter (fun e => !decide (e ∈ exp.innerEdges)) := by
    rw [List.filter_filter]
    exact List.filter_congr (fun e _ => Bool.and_comm _ _)
  rw [hside, List.length_eq_length_filter_add (l := exp.newEdges)
    (fun e => decide (e ∈ stitchOf explored exp)), ← hstitch, Nat.add_assoc]
  rw [List.length_eq_length_filter_add (l := exp.newEdges.filter
    (fun e => !decide (e ∈ stitchOf explored exp))) (fun e => decide (e ∈ exp.innerEdges)), ← hinner]

theorem hangs_iff {v : String} (hv : v ∈ exp.newRegionIds) : exp.hangs explored v = true ↔
    ∃ w, Joined exp.innerEdges v w ∧
      ∃ e ∈ exp.newEdges, ∃ u ∈ e.ends w, u ∈ explored.nodes.keys := by
  unfold Expansion.hangs
  simp only [List.any_eq_true, decide_eq_true_eq, mem_cluster_iff hv]

/-- From a new region one comes to the explored map, or on to a new region. -/
theorem Linked.of_new (hpost : explored.postAttachGraph exp = .ok post) {v u : String}
    (h : Linked post.edges v u) (hv : v ∈ exp.newRegionIds) :
    (∃ e ∈ exp.newEdges, u ∈ e.ends v ∧ u ∈ explored.nodes.keys) ∨
      (Linked exp.innerEdges v u ∧ u ∈ exp.newRegionIds) := by
  obtain ⟨-, hkeys, hedges⟩ := postAttachGraph_spec hpost
  obtain ⟨e, he, hu⟩ := h
  obtain ⟨-, ha, hb⟩ := post.known e he
  have hnew : e ∈ exp.newEdges := by
    rw [hedges] at he
    refine (List.mem_append.mp he).resolve_left (fun hin => ?_)
    obtain ⟨-, ha, hb⟩ := explored.known e hin
    rcases RegionEdge.mem_ends.mp hu with ⟨rfl, -⟩ | ⟨rfl, -⟩
    · exact not_mem_explored hpost hv ha
    · exact not_mem_explored hpost hv hb
  by_cases hexplored : u ∈ explored.nodes.keys
  · exact .inl ⟨e, hnew, hu, hexplored⟩
  · have hmem : ∀ w ∈ post.nodes.keys, w ∉ explored.nodes.keys → w ∈ exp.newRegionIds := by
      intro w hw hnot
      rw [hkeys] at hw
      exact mem_newRegionIds.mpr ((List.mem_append.mp hw).resolve_left hnot)
    rcases RegionEdge.mem_ends.mp hu with ⟨rfl, rfl⟩ | ⟨rfl, rfl⟩
    · exact .inr ⟨⟨e, mem_innerEdges.mpr ⟨hnew, hv, hmem _ hb hexplored⟩, hu⟩, hmem _ hb hexplored⟩
    · exact .inr ⟨⟨e, mem_innerEdges.mpr ⟨hnew, hmem _ ha hexplored, hv⟩, hu⟩, hmem _ ha hexplored⟩

/-- **What hangs on the map** is joined to its entrance, and nothing else that is new. -/
theorem hangs_iff_joined (hpost : explored.postAttachGraph exp = .ok post)
    (hentrance : explored.entranceId ∈ explored.nodes.keys)
    (hjoined : ∀ v ∈ explored.nodes.keys, Joined explored.edges explored.entranceId v)
    {v : String} (hv : v ∈ exp.newRegionIds) :
    exp.hangs explored v = true ↔ Joined post.edges explored.entranceId v := by
  obtain ⟨-, hkeys, hedges⟩ := postAttachGraph_spec hpost
  have hold : ∀ e ∈ explored.edges, e ∈ post.edges := by
    intro e he
    rw [hedges]
    exact List.mem_append_left _ he
  have hnew : ∀ e ∈ exp.newEdges, e ∈ post.edges := by
    intro e he
    rw [hedges]
    exact List.mem_append_right _ he
  constructor
  · intro h
    obtain ⟨w, hvw, e, he, u, hu, hexplored⟩ := (hangs_iff hv).mp h
    have hinner : Joined post.edges v w :=
      hvw.mono (fun e he => hnew e (mem_innerEdges.mp he).1)
    have hstitch : Joined post.edges w u := Relation.ReflTransGen.single ⟨e, hnew e he, hu⟩
    exact ((hjoined u hexplored).mono hold).trans (Joined.symm (hinner.trans hstitch))
  · intro h
    -- along the way to the entrance, a new region hangs on the map with the next one
    have hway := h.symm
    clear h
    induction hway using Relation.ReflTransGen.head_induction_on with
    | refl => exact absurd hentrance (not_mem_explored hpost hv)
    | head hlink _ ih =>
      rcases hlink.of_new hpost hv with ⟨e, he, hu, hexplored⟩ | ⟨hinner, hu⟩
      · exact (hangs_iff hv).mpr ⟨_, Relation.ReflTransGen.refl, e, he, _, hu, hexplored⟩
      · obtain ⟨w, huw, hrest⟩ := (hangs_iff hu).mp (ih hu)
        exact (hangs_iff hv).mpr ⟨w, Relation.ReflTransGen.head hinner huw, hrest⟩

theorem componentCount_eq_length_firsts (graph : RegionGraph) : graph.componentCount =
    (firsts (fun v => (graph.distances v none []).keys) [] graph.nodes.keys).length := by
  have hfold : ∀ (l seen : List String) (n : Nat), (l.foldl graph.countComponent (seen, n)).2 =
      n + (firsts (fun v => (graph.distances v none []).keys) seen l).length := by
    intro l
    induction l with
    | nil => exact fun _ _ => rfl
    | cons v l ih =>
      intro seen n
      rw [List.foldl_cons, firsts]
      by_cases hseen : v ∈ seen
      · rw [show graph.countComponent (seen, n) v = (seen, n) from if_pos hseen, if_pos hseen, ih]
      · rw [show graph.countComponent (seen, n) v =
          (seen ∪ (graph.distances v none []).keys, n + 1) from if_neg hseen, if_neg hseen, ih,
          List.length_cons]
        omega
  exact (hfold _ _ _).trans (Nat.zero_add _)

/-- **The components afterwards** are the explored map, and each cluster that does not hang on
    it. -/
theorem componentCount_post (hpost : explored.postAttachGraph exp = .ok post)
    (hentrance : explored.entranceId ∈ explored.nodes.keys)
    (hjoined : ∀ v ∈ explored.nodes.keys, Joined explored.edges explored.entranceId v) :
    post.componentCount = (exp.clusters.filter (fun v => !exp.hangs explored v)).length + 1 := by
  obtain ⟨-, hkeys, hedges⟩ := postAttachGraph_spec hpost
  have hold : ∀ v ∈ explored.nodes.keys, Joined post.edges explored.entranceId v := fun v hv =>
    (hjoined v hv).mono (fun e he => hedges ▸ List.mem_append_left _ he)
  have hids := newRegionIds_eq hpost
  -- a search finds what is joined to its start
  have hreach : ∀ {v w : String}, v ∈ post.nodes.keys →
      (w ∈ (post.distances v none []).keys ↔ Joined post.edges v w) := by
    intro v w hv
    rw [RegionGraph.mem_distances_iff hv, RegionGraph.keptEdges_nil]
  have hknown : ∀ v ∈ exp.newRegionIds, v ∈ post.nodes.keys := by
    intro v hv
    rw [hkeys]
    exact List.mem_append_right _ (mem_newRegionIds.mp hv)
  rw [componentCount_eq_length_firsts, hkeys, ← hids]
  rcases hfirst : explored.nodes.keys with _ | ⟨v₀, rest⟩
  · rw [hfirst] at hentrance
    cases hentrance
  · have hv₀ : v₀ ∈ explored.nodes.keys := hfirst ▸ .head _
    have hv₀' : v₀ ∈ post.nodes.keys := by
      rw [hkeys]
      exact List.mem_append_left _ hv₀
    -- the explored regions are one component, which the first search sees
    have hseen : ∀ v ∈ rest, v ∈ [] ∪ (post.distances v₀ none []).keys := fun v hv =>
      List.mem_union_iff.mpr (.inr ((hreach hv₀').mpr
        ((hold v₀ hv₀).symm.trans (hold v (hfirst ▸ .tail v₀ hv)))))
    rw [List.cons_append, firsts, if_neg List.not_mem_nil, firsts_append_of_seen _ hseen,
      List.length_cons]
    refine congrArg (fun l : List String => l.length + 1) ?_
    refine firsts_eq_filter _ (exp.hangs explored) (fun v hv hhung w hw => ?_)
      (fun v hv hhung w hw => ?_) (fun v hv => ?_)
    · have hvw := (mem_cluster_iff hv).mp hw
      obtain ⟨u, hvu, hrest⟩ := (hangs_iff hv).mp hhung
      exact (hangs_iff (hvw.new hv)).mpr ⟨u, hvw.symm.trans hvu, hrest⟩
    · rw [hreach (hknown v hv), mem_cluster_iff hv]
      refine ⟨fun hvw => ?_, fun hvw => hvw.mono (fun e he => ?_)⟩
      · -- the way does not leave the cluster, which does not hang on the map
        clear hw
        induction hvw with
        | refl => exact Relation.ReflTransGen.refl
        | tail _ hlast ih =>
          rcases hlast.of_new hpost (ih.new hv) with ⟨e, he, hu, hexplored⟩ | ⟨hinner, -⟩
          · have hhung' := (hangs_iff hv).mpr ⟨_, ih, e, he, _, hu, hexplored⟩
            rw [hhung] at hhung'
            cases hhung'
          · exact ih.tail hinner
      · rw [hedges]
        exact List.mem_append_right _ (mem_innerEdges.mp he).1
    · -- the first search has seen what is joined to the entrance
      rw [List.mem_union_iff, hreach hv₀', hangs_iff_joined hpost hentrance hjoined hv]
      constructor
      · rintro (hnone | hreached)
        · cases hnone
        · exact .inl ((hold v₀ hv₀).trans hreached)
      · rintro (hhung | hnone)
        · exact .inr ((hold v₀ hv₀).symm.trans hhung)
        · cases hnone

end Clusters

/-! ### Loops -/

section Loops

variable {explored post : RegionGraph} {exp : Expansion} {config : JaquaysConfig}
  {rep : GenerationReport}

/-- A report counts the stitch edges, less one, and an expansion that passes has one at least. -/
theorem loops_of_allPassed (hcheck : checkInvariants explored exp config = .ok rep)
    (hpassed : rep.allPassed = true) : rep.loopsIntoExplored = (stitchOf explored exp).length - 1 ∧
      1 ≤ (stitchOf explored exp).length := by
  unfold checkInvariants at hcheck
  simp only [bind_eq_ok] at hcheck
  obtain ⟨u, hvalid, post, -, hits, -, entrances, -, free, -, hrep⟩ := hcheck
  cases hrep
  refine ⟨rfl, ?_⟩
  obtain ⟨hfloor, -⟩ := JaquaysConfig.floors_of_validate hvalid
  have hentries : twoIndependentEntries explored exp config = true :=
    List.all_eq_true.mp hpassed .twoIndependentEntries (by decide)
  unfold twoIndependentEntries at hentries
  simp only [Bool.and_eq_true, decide_eq_true_eq] at hentries
  omega

theorem ne_nil_of_stitchOf (hstitch : 1 ≤ (stitchOf explored exp).length) :
    explored.nodes.keys ≠ [] := by
  intro hnil
  obtain ⟨e, he⟩ := List.exists_mem_of_length_pos hstitch
  have hexplored := (List.mem_filter.mp he).2
  simp [RegionEdge.endsIn, hnil] at hexplored

/-- **The loops that are reported.** A connected map gets at least as many as reported exactly if
    the clusters of new regions that hang on it are one at most, or as many more as there are loops
    among the new regions and new edges on the side. -/
theorem loops_le_growth_iff (hconnected : explored.isConnected = .ok true)
    (hpost : explored.postAttachGraph exp = .ok post)
    (hcheck : checkInvariants explored exp config = .ok rep) (hpassed : rep.allPassed = true) :
    (rep.loopsIntoExplored : Int) ≤ post.cyclomaticNumber - explored.cyclomaticNumber ↔
      ((exp.clusters.filter (exp.hangs explored)).length : Int) ≤
        1 + exp.innerLoops + (exp.sideEdges explored).length := by
  obtain ⟨hloops, hstitch⟩ := loops_of_allPassed hcheck hpassed
  obtain ⟨hentrance, hjoined⟩ :=
    (RegionGraph.isConnected_iff (ne_nil_of_stitchOf hstitch)).mp hconnected
  have hone := RegionGraph.componentCount_of_joined hentrance hjoined
  have hcomponents := componentCount_post hpost hentrance hjoined
  obtain ⟨-, hkeys, hedges⟩ := postAttachGraph_spec hpost
  have hsplit := length_newEdges hpost
  have hclusters := List.length_eq_length_filter_add (l := exp.clusters) (exp.hangs explored)
  unfold RegionGraph.cyclomaticNumber Expansion.innerLoops
  rw [hloops, hone, hcomponents, hkeys, hedges, newRegionIds_eq hpost]
  simp only [List.length_append, List.length_map]
  omega

end Loops

/-! ### Three dead ends -/

/-- A hall behind the entrance. -/
def hall : Expansion where
  expansionId := 1
  newNodes := [{ id := "hall", expansionId := 1, theme := "crypt" }]
  newEdges := [{ a := "entrance", b := "hall", kind := "corridor" }]

/-- Three regions, none of which leads to another one, with two ways into each; and a hidden
    shortcut to the one that is farthest. -/
def deadEnds : Expansion where
  expansionId := 2
  newNodes := [{ id := "vault", expansionId := 2, theme := "crypt" },
    { id := "well", expansionId := 2, theme := "crypt" },
    { id := "attic", expansionId := 2, theme := "crypt" }]
  newEdges := [{ a := "entrance", b := "vault", kind := "corridor" },
    { a := "entrance", b := "vault", kind := "stairs" },
    { a := "entrance", b := "well", kind := "corridor" },
    { a := "entrance", b := "well", kind := "stairs" },
    { a := "hall", b := "attic", kind := "corridor" },
    { a := "hall", b := "attic", kind := "stairs" },
    { a := "entrance", b := "attic", kind := "secret", hidden := true, shortcut := true }]

/-- The entrance and the hall. -/
def hallGraph : RegionGraph := ((RegionGraph.applyExpansion hall).exec (seedGraph cryptEntrance)).2

/-- **A false pass.** The dead ends pass the check with five loops, and the map gets four. -/
theorem not_loops_le_growth : hallGraph.isConnected = .ok true ∧ ∃ post rep,
    hallGraph.postAttachGraph deadEnds = .ok post ∧
      checkInvariants hallGraph deadEnds {} = .ok rep ∧ rep.allPassed = true ∧
      ¬ (rep.loopsIntoExplored : Int) ≤ post.cyclomaticNumber - hallGraph.cyclomaticNumber := by
  have hchecked : (checkInvariants hallGraph deadEnds {}).toOption.map
      (fun rep => (rep.allPassed, rep.loopsIntoExplored)) = some (true, 5) := by
    decide +kernel
  have hpost : (hallGraph.postAttachGraph deadEnds).toOption.map RegionGraph.cyclomaticNumber
      = some 4 := by
    decide +kernel
  have hhall : hallGraph.cyclomaticNumber = 0 := by decide +kernel
  obtain ⟨post, hpost, hfour⟩ := Option.map_eq_some_iff.mp hpost
  obtain ⟨rep, hchecked, hrep⟩ := Option.map_eq_some_iff.mp hchecked
  obtain ⟨hpassed, hfive⟩ := Prod.mk.inj hrep
  refine ⟨by decide +kernel, post, rep, toOption_eq_some.mp hpost, toOption_eq_some.mp hchecked,
    hpassed, ?_⟩
  rw [hfive, hfour, hhall]
  decide

/-- The three regions, with ways between them. -/
def joinedEnds : Expansion where
  expansionId := 2
  newNodes := deadEnds.newNodes
  newEdges := deadEnds.newEdges ++
    [{ a := "vault", b := "well", kind := "corridor" },
      { a := "well", b := "attic", kind := "corridor" }]

/-- Where the three regions are joined, the five loops are there. -/
theorem loops_joinedEnds : ∃ post rep, hallGraph.postAttachGraph joinedEnds = .ok post ∧
    checkInvariants hallGraph joinedEnds {} = .ok rep ∧ rep.allPassed = true ∧
      (rep.loopsIntoExplored : Int) ≤ post.cyclomaticNumber - hallGraph.cyclomaticNumber := by
  have hchecked : (checkInvariants hallGraph joinedEnds {}).toOption.map
      GenerationReport.allPassed = some true := by
    decide +kernel
  have hposts : (hallGraph.postAttachGraph joinedEnds).toOption.isSome = true := by
    decide +kernel
  obtain ⟨post, hpost⟩ := Option.isSome_iff_exists.mp hposts
  obtain ⟨rep, hchecked, hpassed⟩ := Option.map_eq_some_iff.mp hchecked
  rw [toOption_eq_some] at hpost hchecked
  exact ⟨post, rep, hpost, hchecked, hpassed,
    (loops_le_growth_iff (by decide +kernel) hpost hchecked hpassed).mpr (by decide +kernel)⟩

end Sidequest.Dungeon
