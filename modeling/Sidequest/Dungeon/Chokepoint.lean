import Mathlib.Data.List.TakeWhile
import Sidequest.Dungeon.Frozen

namespace Sidequest.Dungeon

open Lib Effect

/-!
# What the search for chokepoints finds

A chokepoint is a region other than the entrance without which no other new region can be reached.
The check takes away the ends of the stitch edges only, and finds the chokepoints among those. A
region that no stitch edge touches is a chokepoint where nothing of the expansion is hung from what
the entrance reaches around it.

* `insertedNodes`, `insertedEdges` — what gets in, read off the map and the expansion;
* `JoinedAround` — paths around a region; `ChokepointFree` — every region can be walked around;
* `chokepointFree_iff` — where the check is passed, that is what is left to ask for.
-/

section

/-! ### What gets in -/

/-- The regions up to one whose id is taken: all of them, if there is none. -/
def admittedNodes : List String → List RegionNode → List RegionNode
  | _, [] => []
  | keys, node :: nodes =>
    if node.id ∈ keys then [] else node :: admittedNodes (keys ++ [node.id]) nodes

/-- An edge between two different regions of those. -/
def RegionEdge.Joins (edge : RegionEdge) (keys : List String) : Prop :=
  edge.a ≠ edge.b ∧ edge.a ∈ keys ∧ edge.b ∈ keys

instance (edge : RegionEdge) (keys : List String) : Decidable (edge.Joins keys) :=
  inferInstanceAs (Decidable (_ ∧ _ ∧ _))

/-- The edges up to one that does not join two regions. -/
def admittedEdges (keys : List String) (edges : List RegionEdge) : List RegionEdge :=
  edges.takeWhile (fun edge => edge.Joins keys)

variable (graph : RegionGraph)

/-- The regions of an expansion that get into the map. -/
def insertedNodes (exp : Expansion) : List RegionNode :=
  admittedNodes graph.nodes.keys exp.newNodes

/-- The edges of an expansion that get into the map: none before all regions are there. -/
def insertedEdges (exp : Expansion) : List RegionEdge :=
  if insertedNodes graph exp = exp.newNodes then
    admittedEdges (graph.nodes.keys ++ exp.newNodes.map (·.id)) exp.newEdges
  else []

/-- The first insertion fails, or there is nothing to insert. -/
def InsertsNothing (exp : Expansion) : Prop :=
  match exp.newNodes, exp.newEdges with
  | node :: _, _ => node.id ∈ graph.nodes.keys
  | [], edge :: _ => ¬ edge.Joins graph.nodes.keys
  | [], [] => True

/-! ### The loops -/

/-- Some regions and some edges are added at the end of the map. -/
structure Inserted (nodes : List RegionNode) (edges : List RegionEdge) (graph graph' : RegionGraph) :
    Prop where
  entrance : graph'.entranceId = graph.entranceId
  nodes : graph'.nodes.entries = graph.nodes.entries ++ nodes.map (fun node => (node.id, node))
  edges : graph'.edges = graph.edges ++ edges

section Loops

variable {graph graph' : RegionGraph} {exp : Expansion}

variable {nodes : List RegionNode} {edges : List RegionEdge}

theorem Inserted.keys (h : Inserted nodes edges graph graph') :
    graph'.nodes.keys = graph.nodes.keys ++ nodes.map (·.id) := by
  unfold Dict.keys
  rw [h.nodes, List.map_append, List.map_map]
  rfl

theorem Inserted.trans {withNodes : RegionGraph} (h : Inserted nodes [] graph withNodes)
    (h' : Inserted [] edges withNodes graph') : Inserted nodes edges graph graph' where
  entrance := h'.entrance.trans h.entrance
  nodes := by
    rw [h'.nodes, List.map_nil, List.append_nil]
    exact h.nodes
  edges := by rw [h'.edges, h.edges, List.append_nil]

/-- **Regions.** The loop gets to the first id that is taken, and raises there. -/
theorem exec_forM_addNode (nodes : List RegionNode) (graph : RegionGraph) :
    Inserted (admittedNodes graph.nodes.keys nodes) [] graph
        ((nodes.forM RegionGraph.addNode).exec graph).2 ∧
      (((nodes.forM RegionGraph.addNode).exec graph).1 = .ok ⟨⟩ ↔
        admittedNodes graph.nodes.keys nodes = nodes) := by
  induction nodes generalizing graph with
  | nil => exact ⟨⟨rfl, by simp [admittedNodes], by simp⟩, iff_of_true rfl rfl⟩
  | cons node nodes ih =>
    rw [exec_forM_cons, exec_bind]
    unfold RegionGraph.addNode admittedNodes
    rw [exec_get_bind]
    by_cases hknown : node.id ∈ graph.nodes.keys
    · rw [if_pos hknown, if_pos hknown, exec_throw]
      exact ⟨⟨rfl, by simp, by simp⟩, iff_of_false (by simp) (by simp)⟩
    · rw [if_neg hknown, if_neg hknown, exec_set]
      have hkeys : (graph.withNode node).nodes.keys = graph.nodes.keys ++ [node.id] := by
        show (graph.nodes.insert node.id node).keys = _
        rw [Dict.keys_insert, if_neg hknown]
      obtain ⟨hinserted, hok⟩ := ih (graph.withNode node)
      rw [hkeys] at hinserted hok
      refine ⟨⟨hinserted.entrance, ?_, hinserted.edges⟩, ?_⟩
      · refine hinserted.nodes.trans ?_
        show (graph.nodes.insert node.id node).entries ++ _ = _
        rw [Dict.entries_insert_of_not_mem node hknown, List.append_assoc]
        rfl
      · refine hok.trans ?_
        rw [List.cons.injEq, and_iff_right rfl]

/-- Regions with different new ids all get in. -/
theorem admittedNodes_of_nodup {keys : List String} (h : (keys ++ nodes.map (·.id)).Nodup) :
    admittedNodes keys nodes = nodes := by
  induction nodes generalizing keys with
  | nil => rfl
  | cons node nodes ih =>
    have hnew : node.id ∉ keys := by
      intro hmem
      exact List.disjoint_of_nodup_append h hmem (.head _)
    have hrest : ((keys ++ [node.id]) ++ nodes.map (·.id)).Nodup := by
      rw [List.append_assoc]
      exact h
    unfold admittedNodes
    rw [if_neg hnew, ih hrest]

/-- **Edges.** The loop gets to the first edge that does not join two regions, and raises there. -/
theorem exec_forM_addEdge (edges : List RegionEdge) (graph : RegionGraph) :
    Inserted [] (admittedEdges graph.nodes.keys edges) graph
        ((edges.forM RegionGraph.addEdge).exec graph).2 ∧
      (((edges.forM RegionGraph.addEdge).exec graph).1 = .ok ⟨⟩ ↔
        admittedEdges graph.nodes.keys edges = edges) := by
  induction edges generalizing graph with
  | nil => exact ⟨⟨rfl, by simp, by simp [admittedEdges]⟩, iff_of_true rfl rfl⟩
  | cons edge edges ih =>
    have hkept : ∀ e : GraphError, ¬ edge.Joins graph.nodes.keys →
        Inserted [] (admittedEdges graph.nodes.keys (edge :: edges)) graph graph ∧
          ((.error e : Except GraphError PUnit) = .ok ⟨⟩ ↔
            admittedEdges graph.nodes.keys (edge :: edges) = edge :: edges) := by
      intro e hbad
      have hnone : admittedEdges graph.nodes.keys (edge :: edges) = [] := by
        exact List.takeWhile_cons_of_neg (by simpa using hbad)
      rw [hnone]
      exact ⟨⟨rfl, by simp, by simp⟩, iff_of_false (by simp) (by simp)⟩
    rw [exec_forM_cons, exec_bind]
    unfold RegionGraph.addEdge
    rw [exec_get_bind]
    by_cases hloop : edge.a = edge.b
    · rw [dif_pos hloop]
      exact hkept _ (·.1 hloop)
    · by_cases ha : edge.a ∈ graph.nodes.keys
      · by_cases hb : edge.b ∈ graph.nodes.keys
        · rw [dif_neg hloop, dif_pos ha, dif_pos hb]
          have hjoins : edge.Joins graph.nodes.keys := ⟨hloop, ha, hb⟩
          have hcons : admittedEdges graph.nodes.keys (edge :: edges)
              = edge :: admittedEdges graph.nodes.keys edges := by
            exact List.takeWhile_cons_of_pos (by simpa using hjoins)
          obtain ⟨hrest, hok⟩ := ih (graph.withEdge edge hjoins)
          rw [hcons, List.cons.injEq, and_iff_right rfl]
          exact ⟨⟨hrest.entrance, hrest.nodes, hrest.edges.trans (List.append_assoc _ _ _)⟩, hok⟩
        · rw [dif_neg hloop, dif_pos ha, dif_neg hb]
          exact hkept _ (fun h => hb h.2.2)
      · rw [dif_neg hloop, dif_neg ha]
        exact hkept _ (fun h => ha h.2.1)

/-- Edges between different regions of the map all get in. -/
theorem admittedEdges_of_joins {keys : List String} (h : ∀ edge ∈ edges, edge.Joins keys) :
    admittedEdges keys edges = edges :=
  List.takeWhile_eq_self_iff.mpr (fun edge hedge => decide_eq_true (h edge hedge))

theorem exists_forM_add (hfresh : (graph.nodes.keys ++ nodes.map (·.id)).Nodup)
    (hjoins : ∀ edge ∈ edges, edge.Joins (graph.nodes.keys ++ nodes.map (·.id))) :
    ∃ withNodes graph', (nodes.forM RegionGraph.addNode).exec graph = (.ok ⟨⟩, withNodes) ∧
      (edges.forM RegionGraph.addEdge).exec withNodes = (.ok ⟨⟩, graph') ∧
      Inserted nodes edges graph graph' := by
  obtain ⟨hnodes, hnodesOk⟩ := exec_forM_addNode nodes graph
  rw [admittedNodes_of_nodup hfresh] at hnodes hnodesOk
  rcases hexec : (nodes.forM RegionGraph.addNode).exec graph with ⟨added, withNodes⟩
  rw [hexec] at hnodes hnodesOk
  obtain rfl : added = .ok ⟨⟩ := hnodesOk.mpr rfl
  obtain ⟨hedges, hedgesOk⟩ := exec_forM_addEdge edges withNodes
  rw [hnodes.keys, admittedEdges_of_joins hjoins] at hedges hedgesOk
  rcases hexec' : (edges.forM RegionGraph.addEdge).exec withNodes with ⟨joined, graph'⟩
  rw [hexec'] at hedges hedgesOk
  obtain rfl : joined = .ok ⟨⟩ := hedgesOk.mpr rfl
  exact ⟨withNodes, graph', rfl, hexec', hnodes.trans hedges⟩

/-- **Both loops**, whether they raise or not. -/
theorem exec_applyExpansion_inserted (exp : Expansion) (graph : RegionGraph) :
    Inserted (insertedNodes graph exp) (insertedEdges graph exp) graph
      ((RegionGraph.applyExpansion exp).exec graph).2 := by
  obtain ⟨hnodes, hok⟩ := exec_forM_addNode exp.newNodes graph
  unfold RegionGraph.applyExpansion insertedEdges
  rw [exec_bind]
  rcases hexec : (exp.newNodes.forM RegionGraph.addNode).exec graph with ⟨e | u, post⟩
  · rw [hexec] at hnodes hok
    have hpart : insertedNodes graph exp ≠ exp.newNodes :=
      fun hall => absurd (hok.mpr hall) (by simp)
    rw [if_neg hpart]
    exact hnodes
  · rw [hexec] at hnodes hok
    have hall : insertedNodes graph exp = exp.newNodes := hok.mp rfl
    have hkeys := hnodes.keys
    rw [show admittedNodes graph.nodes.keys exp.newNodes = exp.newNodes from hall] at hkeys
    rw [if_pos hall, ← hkeys]
    exact hnodes.trans (exec_forM_addEdge exp.newEdges post).1

/-- What comes after the loops only reads the map. -/
theorem exec_attachExpansion_inserted (exp : Expansion) (graph : RegionGraph) :
    Inserted (insertedNodes graph exp) (insertedEdges graph exp) graph
      ((attachExpansion exp).exec graph).2 := by
  have hinserted := exec_applyExpansion_inserted exp graph
  unfold attachExpansion
  rw [exec_get_bind, exec_bind]
  rcases hexec : (RegionGraph.applyExpansion exp).exec graph with ⟨e | u, post⟩
  · rw [hexec] at hinserted
    exact hinserted
  · rw [hexec] at hinserted
    have hkeep : ∀ {m : Effect GraphError RegionGraph PUnit}, Preserves Eq m →
        Inserted (insertedNodes graph exp) (insertedEdges graph exp) graph (m.exec post).2 := by
      intro m hm
      rw [← hm post]
      exact hinserted
    have hverified : ∀ (loops floor : Int) (e : GraphError), Preserves Eq
        (if loops < floor then throw e else pure ⟨⟩ : Effect GraphError RegionGraph PUnit) :=
      fun _ _ _ => (preserves_throw _).ite (preserves_pure _)
    refine hkeep (preserves_get.bind (fun _ => (preserves_ofExcept _).bind (fun _ => ?_)))
    exact Preserves.ite ((preserves_ofExcept _).bind (fun _ => (preserves_throw _).bind
      (fun _ => hverified _ _ _))) (hverified _ _ _)

/-! ### Attaching -/

/-- Nothing gets in where the first insertion fails, and where there is nothing to insert. -/
theorem inserts_nothing_iff :
    insertedNodes graph exp = [] ∧ insertedEdges graph exp = [] ↔ InsertsNothing graph exp := by
  unfold insertedEdges insertedNodes InsertsNothing
  rcases exp.newNodes with _ | ⟨node, nodes⟩
  · rcases exp.newEdges with _ | ⟨edge, edges⟩
    · simp [admittedNodes, admittedEdges]
    · simp [admittedNodes, admittedEdges, List.takeWhile_cons]
  · unfold admittedNodes
    by_cases hknown : node.id ∈ graph.nodes.keys
    · simp [hknown]
    · simp [hknown]

/-- The map is the same exactly if nothing got in. -/
theorem Inserted.eq_iff (h : Inserted nodes edges graph graph') :
    graph' = graph ↔ nodes = [] ∧ edges = [] := by
  constructor
  · intro heq
    have hnodes := h.nodes
    have hedges := h.edges
    rw [heq, List.self_eq_append_right] at hnodes hedges
    exact ⟨List.map_eq_nil_iff.mp hnodes, hedges⟩
  · rintro ⟨rfl, rfl⟩
    have hnodes := h.nodes
    have hedges := h.edges
    rw [List.map_nil, List.append_nil] at hnodes
    rw [List.append_nil] at hedges
    have hentrance := h.entrance
    cases graph
    cases graph'
    obtain rfl := Dict.ext hnodes
    cases hentrance
    cases hedges
    rfl

/-- **A raise.** The map has got what comes before the first insertion that fails; it is what it was
    exactly if nothing does. -/
theorem attachExpansion_raised {e : GraphError}
    (h : (attachExpansion exp).exec graph = (.error e, graph')) :
    Inserted (insertedNodes graph exp) (insertedEdges graph exp) graph graph' ∧
      (graph' = graph ↔ InsertsNothing graph exp) := by
  have hinserted := exec_attachExpansion_inserted exp graph
  rw [h] at hinserted
  exact ⟨hinserted, hinserted.eq_iff.trans inserts_nothing_iff⟩

end Loops

/-! ### Runs -/

/-- Two regions that nothing joins to the map. -/
def island : Expansion where
  expansionId := 9
  newNodes := [{ id := "f0", expansionId := 9, theme := "vault" },
    { id := "f1", expansionId := 9, theme := "vault" }]
  newEdges := [{ a := "f0", b := "f1", kind := "corridor" }]

/-- They stay in the map where attaching raises. -/
theorem attachExpansion_raised_island :
    ((attachExpansion island).exec (seedGraph cryptEntrance)).2.nodes.keys
        = ["entrance", "f0", "f1"] ∧
      ¬ InsertsNothing (seedGraph cryptEntrance) island := by
  have hraised : (attachExpansion island).exec (seedGraph cryptEntrance)
      = (.error (.disconnected 9 1 3 "entrance"),
        ((attachExpansion island).exec (seedGraph cryptEntrance)).2) :=
    Prod.ext (by decide +kernel) rfl
  obtain ⟨hinserted, -⟩ := attachExpansion_raised hraised
  exact ⟨hinserted.keys, by simp [InsertsNothing, island, seedGraph]; decide⟩

/-- The map that was passed in is not what it was. -/
theorem not_unchanged_island : ∃ e graph',
    (attachExpansion island).exec (seedGraph cryptEntrance) = (.error e, graph') ∧
      graph' ≠ seedGraph cryptEntrance := by
  refine ⟨.disconnected 9 1 3 "entrance", _, Prod.ext (by decide +kernel) rfl, fun h => ?_⟩
  have hkeys := congrArg (·.nodes.keys.length) h
  exact absurd hkeys (by decide +kernel)

end

/-! ### Paths around a region -/

/-- A path of edges that does not come to a region. -/
def JoinedAround (edges : List RegionEdge) (avoided : String) : String → String → Prop :=
  Relation.ReflTransGen (fun v w => Linked edges v w ∧ w ≠ avoided)

section Paths

variable {edges edges' : List RegionEdge} {avoided v w : String}

theorem JoinedAround.mono (h : JoinedAround edges avoided v w)
    (hsub : ∀ e ∈ edges, e ∈ edges') : JoinedAround edges' avoided v w := by
  have hstep : ∀ x y, Linked edges x y ∧ y ≠ avoided → Linked edges' x y ∧ y ≠ avoided := by
    rintro x y ⟨⟨e, he, hy⟩, hne⟩
    exact ⟨⟨e, hsub e he, hy⟩, hne⟩
  exact Relation.ReflTransGen.mono hstep _ _ h

theorem reaches_adjacent_around_iff :
    Reaches (RegionGraph.adjacent edges (some avoided)) v w ↔ JoinedAround edges avoided v w := by
  have hsame : (fun x y => y ∈ RegionGraph.adjacent edges (some avoided) x)
      = fun x y => Linked edges x y ∧ y ≠ avoided := by
    ext x y
    unfold RegionGraph.adjacent Linked
    rw [List.mem_filter, List.mem_flatMap]
    refine and_congr_right (fun _ => ?_)
    simp only [ne_eq, Option.some.injEq, decide_not, Bool.not_eq_true', decide_eq_false_iff_not]
    exact not_congr eq_comm
  unfold Reaches JoinedAround
  rw [hsame]

/-- **A search** around a region finds what is joined to its source around that region. -/
theorem mem_distances_around_iff {graph : RegionGraph} {source : String}
    (hsource : source ∈ graph.nodes.keys) (avoided r : String) :
    r ∈ (graph.distances source (some avoided) []).keys
      ↔ JoinedAround graph.edges avoided source r := by
  have hclosed : ∀ x ∈ graph.nodes.keys,
      ∀ y ∈ RegionGraph.adjacent (graph.keptEdges []) (some avoided) x, y ∈ graph.nodes.keys := by
    intro x hx y hy
    rw [RegionGraph.keptEdges_nil] at hy
    obtain ⟨hmem, -⟩ := List.mem_filter.mp hy
    obtain ⟨e, he, hends⟩ := List.mem_flatMap.mp hmem
    exact RegionGraph.mem_keys_of_joined hx (Relation.ReflTransGen.single ⟨e, he, hends⟩)
  unfold RegionGraph.distances
  rw [mem_keys_bfs_iff hclosed hsource, RegionGraph.keptEdges_nil, reaches_adjacent_around_iff]

end Paths

/-! ### The check -/

/-- Each region other than the entrance can be walked around, to another new region. -/
def ChokepointFree (post : RegionGraph) (newIds : List String) : Prop :=
  ∀ v ∈ post.nodes.keys, v ≠ post.entranceId →
    ∃ r ∈ newIds, r ≠ v ∧ JoinedAround post.edges v post.entranceId r

variable (explored : RegionGraph) (exp : Expansion)

/-- The edges between explored regions, old ones and new ones. -/
def exploredEdges : List RegionEdge :=
  explored.edges ++ exp.newEdges.filter
    (fun e => e.a ∈ explored.nodes.keys ∧ e.b ∈ explored.nodes.keys)

/-- An edge leads to a new region, other than this one, from an explored region that the entrance
    reaches around it. -/
def HungAround (v : String) : Prop :=
  ∃ e ∈ exp.newEdges, ∃ u ∈ explored.nodes.keys, ∃ w ∈ exp.newRegionIds, w ∈ e.ends u ∧ w ≠ v ∧
    JoinedAround (exploredEdges explored exp) v explored.entranceId u

/-- The expansion hangs around every region that no stitch edge touches; or the entrance itself is
    new. -/
def HangsAround : Prop :=
  explored.entranceId ∈ exp.newRegionIds ∨
    ∀ v ∈ explored.nodes.keys ++ exp.newRegionIds, v ≠ explored.entranceId →
      (∀ e ∈ stitchOf explored exp, v ∉ e.endpoints) → HungAround explored exp v

section Check

variable {explored post : RegionGraph} {exp : Expansion} {config : JaquaysConfig}
  {report : GenerationReport}

/-- **The way in.** A path to a new region leaves what is explored over one of the new edges, and
    until then it has come over explored regions. -/
theorem joinedAround_post_iff (h : explored.postAttachGraph exp = .ok post)
    (hentrance : explored.entranceId ∈ explored.nodes.keys) (v : String) :
    (∃ r ∈ exp.newRegionIds, r ≠ v ∧ JoinedAround post.edges v explored.entranceId r) ↔
      HungAround explored exp v := by
  obtain ⟨-, hkeys, hedges⟩ := postAttachGraph_spec h
  constructor
  · rintro ⟨r, hr, -, hpath⟩
    -- the way from the entrance stays among explored regions, or leaves them first
    have hway : ∀ x, JoinedAround post.edges v explored.entranceId x →
        (x ∈ explored.nodes.keys ∧
          JoinedAround (exploredEdges explored exp) v explored.entranceId x) ∨
        HungAround explored exp v := by
      intro x hx
      induction hx with
      | refl => exact .inl ⟨hentrance, Relation.ReflTransGen.refl⟩
      | @tail x y _ hlast ih =>
        rcases ih with ⟨hx, hxpath⟩ | hhung
        · obtain ⟨⟨e, he, hends⟩, hy⟩ := hlast
          have hstays : e ∈ exploredEdges explored exp →
              JoinedAround (exploredEdges explored exp) v explored.entranceId y :=
            fun he' => Relation.ReflTransGen.tail hxpath ⟨⟨e, he', hends⟩, hy⟩
          have hxpost : x ∈ post.nodes.keys := by
            rw [hkeys]
            exact List.mem_append_left _ hx
          have hypost : y ∈ post.nodes.keys := RegionGraph.mem_keys_of_joined hxpost
            (Relation.ReflTransGen.single ⟨e, he, hends⟩)
          rw [hedges] at he
          rcases List.mem_append.mp he with he | he
          · exact .inl ⟨RegionGraph.mem_keys_of_joined hx
              (Relation.ReflTransGen.single ⟨e, he, hends⟩), hstays (List.mem_append_left _ he)⟩
          · rw [hkeys] at hypost
            rcases List.mem_append.mp hypost with hy' | hy'
            · -- a new edge between explored regions
              have hinside : e.a ∈ explored.nodes.keys ∧ e.b ∈ explored.nodes.keys := by
                rcases RegionEdge.mem_ends.mp hends with ⟨rfl, rfl⟩ | ⟨rfl, rfl⟩
                · exact ⟨hx, hy'⟩
                · exact ⟨hy', hx⟩
              refine .inl ⟨hy', hstays (List.mem_append_right _ ?_)⟩
              exact List.mem_filter.mpr ⟨he, by simpa using hinside⟩
            · exact .inr ⟨e, he, x, hx, y, mem_newRegionIds.mpr hy', hends, hy, hxpath⟩
        · exact .inr hhung
    rcases hway r hpath with ⟨hold, -⟩ | hhung
    · exact absurd hold (not_mem_explored h hr)
    · exact hhung
  · rintro ⟨e, he, u, -, w, hw, hends, hne, hpath⟩
    refine ⟨w, hw, hne, Relation.ReflTransGen.tail (hpath.mono ?_) ⟨⟨e, ?_, hends⟩, hne⟩⟩
    · intro e' he'
      rw [hedges]
      rcases List.mem_append.mp he' with he' | he'
      · exact List.mem_append_left _ he'
      · exact List.mem_append_right _ (List.mem_filter.mp he').1
    · rw [hedges]
      exact List.mem_append_right _ he

theorem walkedAround_of_touched (h : explored.postAttachGraph exp = .ok post)
    (hpassed : noSingleChokepoint explored post exp = .ok true)
    (hentrance : post.entranceId ∈ post.nodes.keys) {v : String} (hv : v ∈ post.nodes.keys)
    (hne : v ≠ post.entranceId) {e : RegionEdge} (he : e ∈ stitchOf explored exp)
    (htouched : v ∈ e.endpoints) :
    ∃ r ∈ exp.newRegionIds, r ≠ v ∧ JoinedAround post.edges v post.entranceId r := by
  obtain ⟨-, hkeys, -⟩ := postAttachGraph_spec h
  obtain ⟨-, hcounts⟩ := List.mem_filter.mp he
  simp only [Bool.and_eq_true, decide_eq_true_eq] at hcounts
  obtain ⟨⟨hnew, hold⟩, -⟩ := hcounts
  -- the only end among some regions is the one that is looked at
  have hend : ∀ {ids : List String}, (e.endsIn ids).length = 1 → v ∈ ids →
      v ∈ endpointsIn (stitchOf explored exp) ids := by
    intro ids hone hmem
    have hvin : v ∈ e.endsIn ids := List.mem_filter.mpr ⟨htouched, by simpa using hmem⟩
    obtain ⟨x, hx⟩ := List.length_eq_one_iff.mp hone
    rw [hx, List.mem_singleton] at hvin
    refine List.mem_dedup.mpr (List.mem_flatMap.mpr ⟨e, he, ?_⟩)
    rw [hx, hvin]
    exact List.mem_singleton_self x
  have hlooked : v ∈ endpointsIn (stitchOf explored exp) exp.newRegionIds ∪
      endpointsIn (stitchOf explored exp) explored.nodes.keys := by
    rw [hkeys] at hv
    rw [List.mem_union_iff]
    rcases List.mem_append.mp hv with hv | hv
    · exact .inr (hend hold hv)
    · exact .inl (hend hnew (mem_newRegionIds.mpr hv))
  unfold noSingleChokepoint at hpassed
  rw [bind_eq_ok] at hpassed
  obtain ⟨free, hfree, hall⟩ := hpassed
  obtain ⟨b, hb, hfreeOfV⟩ := exists_mem_of_mapM hfree hlooked
  obtain rfl : b = true := List.all_eq_true.mp (Except.ok.inj hall) b hb
  unfold avoidable RegionGraph.bfsDist at hfreeOfV
  rw [if_neg hne, if_pos hentrance] at hfreeOfV
  obtain ⟨r, hr, hreached⟩ := List.any_eq_true.mp (Except.ok.inj hfreeOfV)
  obtain ⟨hrv, hrkeys⟩ := of_decide_eq_true hreached
  exact ⟨r, hr, hrv, (mem_distances_around_iff hentrance v r).mp hrkeys⟩

/-- What a check that was made has looked at. -/
theorem exists_post_of_checkInvariants (hcheck : checkInvariants explored exp config = .ok report) :
    ∃ post, explored.postAttachGraph exp = .ok post ∧ post.entranceId ∈ post.nodes.keys ∧
      noSingleChokepoint explored post exp = .ok (report.invariantsPassed .noSingleChokepoint) := by
  unfold checkInvariants at hcheck
  simp only [bind_eq_ok] at hcheck
  obtain ⟨-, -, post, hpost, hits, hhits, entrances, -, free, hfree, hreport⟩ := hcheck
  cases hreport
  refine ⟨post, hpost, ?_, hfree⟩
  unfold shortcutHits RegionGraph.bfsDist at hhits
  by_contra hmissing
  rw [if_neg hmissing] at hhits
  simp [bind, Except.bind] at hhits

/-- **The check.** Where it is passed, there is no chokepoint exactly if the expansion hangs around
    every region that no stitch edge touches. -/
theorem chokepointFree_iff (hcheck : checkInvariants explored exp config = .ok report)
    (hpassed : report.invariantsPassed .noSingleChokepoint = true) :
    (∃ post, explored.postAttachGraph exp = .ok post ∧ ChokepointFree post exp.newRegionIds) ↔
      HangsAround explored exp := by
  obtain ⟨post, hpost, hentrance, hfree⟩ := exists_post_of_checkInvariants hcheck
  rw [hpassed] at hfree
  obtain ⟨hsame, hkeys, -⟩ := postAttachGraph_spec hpost
  have hregions : ∀ v, v ∈ post.nodes.keys ↔ v ∈ explored.nodes.keys ++ exp.newRegionIds := by
    intro v
    rw [hkeys, List.mem_append, List.mem_append, mem_newRegionIds]
  have hunique : (∃ post, explored.postAttachGraph exp = .ok post ∧
      ChokepointFree post exp.newRegionIds) ↔ ChokepointFree post exp.newRegionIds := by
    constructor
    · rintro ⟨post', hpost', h⟩
      rw [hpost] at hpost'
      cases hpost'
      exact h
    · exact fun h => ⟨post, hpost, h⟩
  rw [hunique]
  unfold ChokepointFree HangsAround
  by_cases hnew : explored.entranceId ∈ exp.newRegionIds
  · -- the entrance is new, and cannot be cut off from itself
    refine iff_of_true (fun v _ hne => ?_) (.inl hnew)
    rw [hsame] at hne ⊢
    exact ⟨explored.entranceId, hnew, Ne.symm hne, Relation.ReflTransGen.refl⟩
  · have hold : explored.entranceId ∈ explored.nodes.keys := by
      rw [hregions, hsame] at hentrance
      exact (List.mem_append.mp hentrance).resolve_right hnew
    rw [or_iff_right hnew]
    constructor
    · intro h v hv hne _
      have hpath := h v ((hregions v).mpr hv) (hsame ▸ hne)
      rw [hsame] at hpath
      exact (joinedAround_post_iff hpost hold v).mp hpath
    · intro h v hv hne
      by_cases htouched : ∃ e ∈ stitchOf explored exp, v ∈ e.endpoints
      · obtain ⟨e, he, hend⟩ := htouched
        exact walkedAround_of_touched hpost hfree hentrance hv hne he hend
      · have hhung := h v ((hregions v).mp hv) (hsame ▸ hne)
          (fun e he hend => htouched ⟨e, he, hend⟩)
        rw [hsame]
        exact (joinedAround_post_iff hpost hold v).mpr hhung

end Check

/-! ### Two expansions -/

/-- A foyer behind the entrance, with two doors. -/
def foyer : Expansion where
  expansionId := 1
  newNodes := ["foyer", "east", "west"].map
    (fun id => { id := id, expansionId := 1, theme := "crypt" })
  newEdges := [{ a := "entrance", b := "foyer", kind := "corridor" },
    { a := "foyer", b := "east", kind := "corridor" },
    { a := "foyer", b := "west", kind := "corridor" },
    { a := "east", b := "west", kind := "corridor" }]

def foyerGraph : RegionGraph := ((attachExpansion foyer).exec (seedGraph cryptEntrance)).2

/-- Two regions behind the two doors, with all that is asked for. -/
def annex : Expansion where
  expansionId := 2
  newNodes := ["n0", "n1"].map (fun id => { id := id, expansionId := 2, theme := "crypt" })
  newEdges := [{ a := "n0", b := "n1", kind := "corridor" },
    { a := "east", b := "n0", kind := "corridor" },
    { a := "west", b := "n1", kind := "stairs" },
    { a := "east", b := "n0", kind := "secret", hidden := true },
    { a := "foyer", b := "n1", kind := "shaft", shortcut := true }]

/-- The same regions, behind the entrance. -/
def porch : Expansion where
  expansionId := 1
  newNodes := ["n0", "n1"].map (fun id => { id := id, expansionId := 1, theme := "crypt" })
  newEdges := [{ a := "entrance", b := "n0", kind := "corridor" },
    { a := "entrance", b := "n1", kind := "corridor" }]

/-- Behind the entrance there is no chokepoint. -/
theorem chokepointFree_porch : ∃ post, (seedGraph cryptEntrance).postAttachGraph porch = .ok post ∧
    ChokepointFree post porch.newRegionIds := by
  have hpassed : ((checkInvariants (seedGraph cryptEntrance) porch {}).toOption.map
      (·.invariantsPassed .noSingleChokepoint)) = some true := by
    decide +kernel
  obtain ⟨report, hreport, htrue⟩ := Option.map_eq_some_iff.mp hpassed
  refine (chokepointFree_iff (toOption_eq_some.mp hreport) htrue).mpr (.inr ?_)
  intro v hv hne _
  have hporch : v = "n0" ∨ v = "n1" := by
    have hmem : v ∈ ["entrance", "n0", "n1"] := hv
    simpa [show v ≠ "entrance" from hne] using hmem
  rcases hporch with rfl | rfl
  · exact ⟨{ a := "entrance", b := "n1", kind := "corridor" }, by decide, "entrance", by decide,
      "n1", by decide, by decide, by decide, Relation.ReflTransGen.refl⟩
  · exact ⟨{ a := "entrance", b := "n0", kind := "corridor" }, by decide, "entrance", by decide,
      "n0", by decide, by decide, by decide, Relation.ReflTransGen.refl⟩

/-- The foyer is the only way to the annex, which passes every check. -/
theorem not_chokepointFree_annex : foyerGraph.isConnected = .ok true ∧
    (∃ report, checkInvariants foyerGraph annex {} = .ok report ∧ report.allPassed = true) ∧
    ¬ ∃ post, foyerGraph.postAttachGraph annex = .ok post ∧
      ChokepointFree post annex.newRegionIds := by
  refine ⟨by decide +kernel, ?_, ?_⟩
  · have hpassed : ((checkInvariants foyerGraph annex {}).toOption.map GenerationReport.allPassed)
        = some true := by decide +kernel
    obtain ⟨report, hreport, htrue⟩ := Option.map_eq_some_iff.mp hpassed
    exact ⟨report, toOption_eq_some.mp hreport, htrue⟩
  · rintro ⟨post, hpost, hfree⟩
    have hcut : ((foyerGraph.postAttachGraph annex).toOption.map (fun g => decide (
        "foyer" ∈ g.nodes.keys ∧ g.entranceId = "entrance" ∧ g.entranceId ∈ g.nodes.keys ∧
        (g.distances "entrance" (some "foyer") []).keys = ["entrance"]))) = some true := by
      decide +kernel
    rw [hpost] at hcut
    obtain ⟨hfoyer, hentrance, hregion, hreached⟩ := of_decide_eq_true (Option.some.inj hcut)
    obtain ⟨r, hr, -, hpath⟩ := hfree "foyer" hfoyer (by rw [hentrance]; decide)
    rw [hentrance] at hpath hregion
    rw [← mem_distances_around_iff hregion, hreached] at hpath
    rw [List.mem_singleton.mp hpath] at hr
    exact absurd hr (by decide)

end Sidequest.Dungeon
