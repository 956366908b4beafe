import Sidequest.Dungeon.Chokepoint
import Sidequest.Dungeon.Materialize

namespace Sidequest.Dungeon

open Lib Effect

/-!
# What is saved is loaded

Expansions are attached, scored and committed, each once its regions are scored. When all of them
are committed, the map that is loaded is the one in memory.

* `Saved` — the runs: a map, its expansions, those that are committed so far, and the tables;
* `loaded_of_saved` — what is loaded.
-/

/-! ### Runs -/

/-- All regions of an expansion have their scores. -/
def Expansion.Scored (graph : RegionGraph) (exp : Expansion) : Prop :=
  ∀ node ∈ exp.newNodes, graph.score node.id ≠ none

instance (graph : RegionGraph) (exp : Expansion) : Decidable (exp.Scored graph) :=
  inferInstanceAs (Decidable (∀ node ∈ exp.newNodes, graph.score node.id ≠ none))

/-- The entrance as an expansion. -/
def seedExpansion (entrance : RegionNode) : Expansion := ⟨entrance.expansionId, [entrance], []⟩

/-- A map is grown, scored and saved at a site, with its expansions, those committed, in this order,
    and the tables. -/
inductive Saved (entropy : Entropy) (siteId : String) :
    RegionGraph → List Expansion → List Expansion → MapStore → Prop
  | seed (entrance : RegionNode) {store : MapStore} :
      store.mapRowsAt siteId = [] → store.edgeRowsAt siteId = [] →
      Saved entropy siteId (seedGraph entrance) [seedExpansion entrance] [] store
  | attached {graph graph' : RegionGraph} {exps committed : List Expansion} {store : MapStore}
      {exp : Expansion} : Saved entropy siteId graph exps committed store → exp.newNodes ≠ [] →
      (attachExpansion exp).exec graph = (.ok ⟨⟩, graph') →
      Saved entropy siteId graph' (exps ++ [exp]) committed store
  | scored {graph : RegionGraph} {exps committed : List Expansion} {store : MapStore}
      (campaignSeed : Int) (config : DepthConfig) :
      Saved entropy siteId graph exps committed store →
      Saved entropy siteId ((assignDepthScores entropy campaignSeed config).exec graph).2 exps
        committed store
  | committed {graph : RegionGraph} {exps committed : List Expansion} {store store' : MapStore}
      {exp : Expansion} : Saved entropy siteId graph exps committed store → exp ∈ exps →
      exp.Scored graph → (commitExpansion siteId exp graph).exec store = (.ok ⟨⟩, store') →
      Saved entropy siteId graph exps (committed ++ [exp]) store'
  | refused {graph : RegionGraph} {exps committed : List Expansion} {store store' : MapStore}
      {exp : Expansion} {e : StoreError} : Saved entropy siteId graph exps committed store →
      (commitExpansion siteId exp graph).exec store = (.error e, store') →
      Saved entropy siteId graph exps committed store'
  | elsewhere {graph : RegionGraph} {exps committed : List Expansion} {store : MapStore}
      {siteId' : String} (exp : Expansion) (graph' : RegionGraph) :
      Saved entropy siteId graph exps committed store → siteId' ≠ siteId →
      Saved entropy siteId graph exps committed
        ((commitExpansion siteId' exp graph').exec store).2

/-! ### Committing -/

section Committing

variable {siteId : String} {exp : Expansion} {graph : RegionGraph} {store store' : MapStore}

theorem mapRows_foldl_insertEdge (siteId : String) (expansionId : Int) (edges : List RegionEdge)
    (store : MapStore) :
    (edges.foldl (MapStore.insertEdge siteId expansionId) store).mapRows = store.mapRows := by
  induction edges generalizing store with
  | nil => rfl
  | cons e edges ih => exact ih (store.insertEdge siteId expansionId e)

theorem map_edgeRowsAt_foldl {β : Type} {column : EdgeRow → β} {cell : RegionEdge → β}
    {expansionId : Int} (h : ∀ (store : MapStore) (e : RegionEdge),
      ((store.insertEdge siteId expansionId e).edgeRowsAt siteId).map column
        = (store.edgeRowsAt siteId).map column ++ [cell e])
    (edges : List RegionEdge) (store : MapStore) :
    ((edges.foldl (MapStore.insertEdge siteId expansionId) store).edgeRowsAt siteId).map column
      = (store.edgeRowsAt siteId).map column ++ edges.map cell := by
  induction edges generalizing store with
  | nil => exact (List.append_nil _).symm
  | cons e edges ih =>
    rw [List.foldl_cons, ih, h, List.append_assoc]
    rfl

theorem payload_edgeRowsAt_foldl (expansionId : Int) (edges : List RegionEdge) (store : MapStore) :
    ((edges.foldl (MapStore.insertEdge siteId expansionId) store).edgeRowsAt siteId).map (·.payload)
      = (store.edgeRowsAt siteId).map (·.payload) ++ edges.map RegionEdge.toDict := by
  refine map_edgeRowsAt_foldl (fun store e => ?_) edges store
  unfold MapStore.edgeRowsAt MapStore.insertEdge
  simp

/-- Nothing is written at other sites. -/
theorem edgeRowsAt_foldl_elsewhere {siteId' : String} (h : siteId' ≠ siteId) (expansionId : Int)
    (edges : List RegionEdge) (store : MapStore) :
    (edges.foldl (MapStore.insertEdge siteId' expansionId) store).edgeRowsAt siteId
      = store.edgeRowsAt siteId := by
  induction edges generalizing store with
  | nil => rfl
  | cons e edges ih =>
    rw [List.foldl_cons, ih]
    unfold MapStore.edgeRowsAt MapStore.insertEdge
    simp [h]

theorem exec_commitExpansion_of_error {e : StoreError}
    (hrows : exp.newNodes.mapM (liveRow siteId graph) = .error e) :
    (commitExpansion siteId exp graph).exec store = (.error e, store) := by
  unfold commitExpansion
  rw [hrows]
  rfl

theorem exec_commitExpansion_of_ok {rows : List MapRow}
    (hrows : exp.newNodes.mapM (liveRow siteId graph) = .ok rows) :
    (commitExpansion siteId exp graph).exec store =
      if hunique : ((store.mapRows ++ rows).map MapRow.key).Nodup then
        (.ok ⟨⟩, exp.newEdges.foldl (MapStore.insertEdge siteId exp.expansionId)
          (store.insertRegions rows hunique)) else (.error (.persist exp.expansionId), store) := by
  unfold commitExpansion
  rw [hrows, exec_ofExcept_ok_bind, exec_get_bind]
  split
  · rfl
  · rfl

/-- **A commit** that is refused writes nothing. -/
theorem store_eq_of_refused {e : StoreError}
    (h : (commitExpansion siteId exp graph).exec store = (.error e, store')) : store' = store := by
  rcases hrows : exp.newNodes.mapM (liveRow siteId graph) with e' | rows
  · rw [exec_commitExpansion_of_error hrows] at h
    exact (congrArg Prod.snd h).symm
  · rw [exec_commitExpansion_of_ok hrows] at h
    split at h
    · simp at h
    · exact (congrArg Prod.snd h).symm

/-- **A commit** that is accepted writes the regions as they are on the map, which were not written
    before, and then the edges. -/
theorem commitExpansion_spec
    (h : (commitExpansion siteId exp graph).exec store = (.ok ⟨⟩, store')) :
    ∃ rows hunique, List.Forall₂ (fun node row => liveRow siteId graph node = .ok row)
        exp.newNodes rows ∧
      store' = exp.newEdges.foldl (MapStore.insertEdge siteId exp.expansionId)
        (store.insertRegions rows hunique) := by
  rcases hrows : exp.newNodes.mapM (liveRow siteId graph) with e' | rows
  · rw [exec_commitExpansion_of_error hrows] at h
    simp at h
  · rw [exec_commitExpansion_of_ok hrows] at h
    split at h
    · rename_i hunique
      exact ⟨rows, hunique, mapM_eq_ok_iff.mp hrows, (congrArg Prod.snd h).symm⟩
    · simp at h

theorem rows_eq_of_forall₂ {nodes : List RegionNode} {rows : List MapRow}
    (h : List.Forall₂ (fun node row => liveRow siteId graph node = .ok row) nodes rows) :
    rows = (nodes.filterMap (fun node => graph.nodes.get? node.id)).map (mapRow siteId) := by
  induction h with
  | nil => rfl
  | @cons node row nodes rows hrow _ ih =>
    unfold liveRow at hrow
    cases hlive : graph.nodes.get? node.id with
    | none =>
      rw [hlive] at hrow
      simp at hrow
    | some live =>
      rw [hlive] at hrow
      rw [List.filterMap_cons, hlive, List.map_cons, ← ih, ← Except.ok.inj hrow]

/-- A commit at another site changes nothing at this one. -/
theorem rowsAt_elsewhere {siteId' : String} (hsite : siteId' ≠ siteId) (exp : Expansion)
    (graph : RegionGraph) (store : MapStore) :
    ((commitExpansion siteId' exp graph).exec store).2.mapRowsAt siteId = store.mapRowsAt siteId ∧
      ((commitExpansion siteId' exp graph).exec store).2.edgeRowsAt siteId
        = store.edgeRowsAt siteId := by
  rcases hexec : (commitExpansion siteId' exp graph).exec store with ⟨e | u, store'⟩
  · rw [store_eq_of_refused hexec]
    exact ⟨rfl, rfl⟩
  · obtain ⟨rows, hunique, hrows, rfl⟩ := commitExpansion_spec hexec
    constructor
    · unfold MapStore.mapRowsAt
      rw [mapRows_foldl_insertEdge]
      show (store.mapRows ++ rows).filter (·.siteId = siteId) = store.mapRows.filter _
      have hnone : rows.filter (·.siteId = siteId) = [] := by
        rw [rows_eq_of_forall₂ hrows, List.filter_eq_nil_iff]
        intro row hrow
        obtain ⟨live, -, rfl⟩ := List.mem_map.mp hrow
        exact fun h => hsite (of_decide_eq_true h)
      rw [List.filter_append, hnone, List.append_nil]
    · rw [edgeRowsAt_foldl_elsewhere hsite]
      rfl

end Committing

/-! ### What stays on the map -/

/-- The regions that are there stay as they are. -/
def KeepsNodes (graph graph' : RegionGraph) : Prop :=
  ∀ r ∈ graph.nodes.keys, r ∈ graph'.nodes.keys ∧ graph'.nodes.get? r = graph.nodes.get? r

instance : IsPreorder RegionGraph KeepsNodes where
  refl _ := fun _ hr => ⟨hr, rfl⟩
  trans _ _ _ h h' := fun r hr => by
    obtain ⟨hr', hget⟩ := h r hr
    obtain ⟨hr'', hget'⟩ := h' r hr'
    exact ⟨hr'', hget'.trans hget⟩

theorem keepsNodes_addNode (node : RegionNode) : Preserves KeepsNodes (RegionGraph.addNode node) := by
  intro graph
  unfold RegionGraph.addNode
  rw [exec_get_bind]
  by_cases hknown : node.id ∈ graph.nodes.keys
  · rw [if_pos hknown, exec_throw]
    exact refl_of KeepsNodes graph
  · rw [if_neg hknown, exec_set]
    intro r hr
    refine ⟨Dict.mem_keys_insert.mpr (.inr hr), ?_⟩
    have hne : r ≠ node.id := fun h => hknown (h ▸ hr)
    show (graph.nodes.insert node.id node).get? r = graph.nodes.get? r
    rw [Dict.get?_insert, if_neg hne]

theorem keepsNodes_addEdge (edge : RegionEdge) : Preserves KeepsNodes (RegionGraph.addEdge edge) := by
  intro graph
  unfold RegionGraph.addEdge
  rw [exec_get_bind]
  split
  · exact refl_of KeepsNodes graph
  · split
    · split
      · exact fun r hr => ⟨hr, rfl⟩
      · exact refl_of KeepsNodes graph
    · exact refl_of KeepsNodes graph

theorem attachExpansion_spec {exp : Expansion} {graph graph' : RegionGraph}
    (h : (attachExpansion exp).exec graph = (.ok ⟨⟩, graph')) :
    graph'.nodes.keys = graph.nodes.keys ++ exp.newNodes.map (·.id) ∧
      graph'.edges = graph.edges ++ exp.newEdges ∧ KeepsNodes graph graph' ∧
      graph'.isConnected = .ok true := by
  unfold attachExpansion at h
  rw [exec_get_bind] at h
  obtain ⟨u, post, happly, h⟩ := exists_of_exec_bind h
  rw [exec_get_bind] at h
  have hkept : KeepsNodes graph post := by
    have hpreserves : Preserves KeepsNodes (RegionGraph.applyExpansion exp) :=
      (preserves_forM keepsNodes_addNode _).bind (fun _ => preserves_forM keepsNodes_addEdge _)
    have hpost := hpreserves graph
    rw [happly] at hpost
    exact hpost
  obtain ⟨-, hkeys, hedges⟩ := applyExpansion_spec happly
  rcases hconnected : post.isConnected with e | connected
  · rw [hconnected] at h
    exact absurd (congrArg Prod.fst h) (by simp [ofExcept])
  · rw [hconnected, exec_ofExcept_ok_bind] at h
    cases connected with
    | false =>
      obtain ⟨reached, t, -, h⟩ := exists_of_exec_bind h
      obtain ⟨u', t', hthrow, -⟩ := exists_of_exec_bind h
      simp at hthrow
    | true =>
      have hverified : ∀ (floor : Int) (e : GraphError), (if post.cyclomaticNumber < floor then
          throw e else pure ⟨⟩ : Effect GraphError RegionGraph PUnit).exec post
            = (.ok ⟨⟩, graph') → graph' = post := by
        intro floor e hexec
        split at hexec
        · simp at hexec
        · exact (congrArg Prod.snd hexec).symm
      obtain rfl := hverified _ _ h
      exact ⟨hkeys, hedges, hkept, hconnected⟩

/-- What is scored stays as it is, and the shape of the map does. -/
structure KeepsScored (graph graph' : RegionGraph) : Prop extends SameShape graph graph' where
  scored : ∀ r, graph.score r ≠ none → graph'.nodes.get? r = graph.nodes.get? r

/-- **Scoring** touches regions without scores only, also where it raises. -/
theorem keepsScored_assignDepthScores (entropy : Entropy) (campaignSeed : Int)
    (config : DepthConfig) (graph : RegionGraph) :
    KeepsScored graph ((assignDepthScores entropy campaignSeed config).exec graph).2 := by
  have hsame : KeepsScored graph graph := ⟨⟨rfl, rfl, rfl⟩, fun _ _ => rfl⟩
  have : IsPreorder RegionGraph (fun g g' => KeepsScored graph g → KeepsScored graph g') :=
    { refl := fun _ h => h, trans := fun _ _ _ h h' hg => h' (h hg) }
  have hregion : ∀ (dist : Dict String Nat), ∀ regionId ∈ graph.unscored,
      Preserves (fun g g' => KeepsScored graph g → KeepsScored graph g')
        (scoreRegion entropy graph campaignSeed config dist regionId) := by
    intro dist regionId hmem g hg
    refine exec_ofExcept_bind_of hg (fun score _ => ?_)
    show KeepsScored graph (g.withScore regionId score)
    refine ⟨⟨hg.entrance, ?_, hg.edges⟩, fun r hr => ?_⟩
    · exact (Dict.keys_modify _ _ _).trans hg.keys
    · have hne : r ≠ regionId := fun h => hr (h ▸ score_of_mem_unscored hmem)
      show (g.nodes.modify regionId _).get? r = graph.nodes.get? r
      rw [Dict.get?_modify, if_neg hne]
      exact hg.scored r hr
  refine exec_ofExcept_bind_of hsame (fun _ _ => ?_)
  rw [exec_get_bind]
  by_cases hnone : graph.unscored = []
  · rw [if_pos hnone]
    exact hsame
  · rw [if_neg hnone]
    refine exec_ofExcept_bind_of hsame (fun dist _ => ?_)
    have hscores := preserves_mapM_of_mem (hregion dist)
    exact (hscores.bind (fun scores => preserves_pure (reportOf scores))) graph hsame

/-! ### The tables and the map -/

/-- The regions of some expansions, as they are on the map. -/
def liveNodes (graph : RegionGraph) (exps : List Expansion) : List RegionNode :=
  (exps.flatMap (·.newNodes)).filterMap (fun node => graph.nodes.get? node.id)

/-- The map consists of its expansions, and the tables hold those that are committed. -/
structure Mirrored (siteId : String) (graph : RegionGraph) (exps committed : List Expansion)
    (store : MapStore) : Prop where
  connected : graph.isConnected = .ok true
  keys : graph.nodes.keys = (exps.flatMap (·.newNodes)).map (·.id)
  edges : graph.edges = exps.flatMap (·.newEdges)
  nonempty : ∀ exp ∈ exps, exp.newNodes ≠ []
  known : ∀ exp ∈ committed, exp ∈ exps ∧ exp.Scored graph
  once : committed.Nodup
  mapRows : store.mapRowsAt siteId = (liveNodes graph committed).map (mapRow siteId)
  edgeRows : (store.edgeRowsAt siteId).map (·.payload)
    = (committed.flatMap (·.newEdges)).map RegionEdge.toDict

variable {node : RegionNode}

section Mirrored

variable {entropy : Entropy} {siteId : String} {graph graph' : RegionGraph}
  {exps committed : List Expansion} {store store' : MapStore} {exp : Expansion}

/-- The regions of an expansion that is on the map are on it. -/
theorem Mirrored.mem_keys (h : Mirrored siteId graph exps committed store) (hexp : exp ∈ exps)
    (hnode : node ∈ exp.newNodes) : node.id ∈ graph.nodes.keys := by
  rw [h.keys]
  exact List.mem_map_of_mem (List.mem_flatMap.mpr ⟨exp, hexp, hnode⟩)

theorem liveNodes_congr (hget : ∀ e ∈ committed, ∀ node ∈ e.newNodes,
    graph'.nodes.get? node.id = graph.nodes.get? node.id) :
    liveNodes graph' committed = liveNodes graph committed := by
  unfold liveNodes
  refine List.filterMap_congr (fun node hnode => ?_)
  obtain ⟨e, he, hmem⟩ := List.mem_flatMap.mp hnode
  exact hget e he node hmem

/-- **Attaching** leaves what is committed as it is. -/
theorem Mirrored.attach (h : Mirrored siteId graph exps committed store)
    (hnew : exp.newNodes ≠ []) (hattach : (attachExpansion exp).exec graph = (.ok ⟨⟩, graph')) :
    Mirrored siteId graph' (exps ++ [exp]) committed store := by
  obtain ⟨hkeys, hedges, hkept, hconnected⟩ := attachExpansion_spec hattach
  have hget : ∀ e ∈ committed, ∀ node ∈ e.newNodes,
      graph'.nodes.get? node.id = graph.nodes.get? node.id := by
    intro e he node hnode
    exact (hkept node.id (h.mem_keys (h.known e he).1 hnode)).2
  refine ⟨hconnected, ?_, ?_, ?_, ?_, h.once, ?_, h.edgeRows⟩
  · rw [hkeys, h.keys, List.flatMap_append, List.map_append, List.flatMap_singleton]
  · rw [hedges, h.edges, List.flatMap_append, List.flatMap_singleton]
  · intro e he
    rcases List.mem_append.mp he with he | he
    · exact h.nonempty e he
    · rw [List.mem_singleton.mp he]
      exact hnew
  · intro e he
    refine ⟨List.mem_append_left _ (h.known e he).1, fun node hnode => ?_⟩
    unfold RegionGraph.score
    rw [hget e he node hnode]
    exact (h.known e he).2 node hnode
  · rw [liveNodes_congr hget]
    exact h.mapRows

/-- **Scoring** leaves what is committed as it is: it had its scores. -/
theorem Mirrored.score (h : Mirrored siteId graph exps committed store)
    (hkept : KeepsScored graph graph') : Mirrored siteId graph' exps committed store := by
  have hget : ∀ e ∈ committed, ∀ node ∈ e.newNodes,
      graph'.nodes.get? node.id = graph.nodes.get? node.id :=
    fun e he node hnode => hkept.scored node.id ((h.known e he).2 node hnode)
  have hconnected : graph'.isConnected = .ok true := by
    by_cases hne : graph.nodes.keys = []
    · unfold RegionGraph.isConnected
      rw [if_pos (hkept.keys.trans hne)]
    · rw [RegionGraph.isConnected_iff (hkept.keys ▸ hne), hkept.entrance, hkept.keys, hkept.edges]
      exact (RegionGraph.isConnected_iff hne).mp h.connected
  refine ⟨hconnected, hkept.keys.trans h.keys, hkept.edges.trans h.edges, h.nonempty, ?_, h.once,
    ?_, h.edgeRows⟩
  · intro e he
    refine ⟨(h.known e he).1, fun node hnode => ?_⟩
    unfold RegionGraph.score
    rw [hget e he node hnode]
    exact (h.known e he).2 node hnode
  · rw [liveNodes_congr hget]
    exact h.mapRows

/-- What is committed already is refused. -/
theorem Mirrored.not_mem_committed (h : Mirrored siteId graph exps committed store)
    (hexp : exp ∈ exps) (hcommit : (commitExpansion siteId exp graph).exec store = (.ok ⟨⟩, store')) :
    exp ∉ committed := by
  intro hmem
  obtain ⟨rows, hunique, hrows, -⟩ := commitExpansion_spec hcommit
  -- its first region has a row in the tables, and would get another one
  obtain ⟨node, rest, hnodes⟩ := List.exists_cons_of_ne_nil (h.nonempty exp hexp)
  have hnode : node ∈ exp.newNodes := hnodes ▸ (.head _)
  obtain ⟨live, hlive⟩ := Dict.mem_keys_iff_get?.mp (h.mem_keys hexp hnode)
  have hold : mapRow siteId live ∈ store.mapRows := by
    have hat : mapRow siteId live ∈ store.mapRowsAt siteId := by
      rw [h.mapRows]
      apply List.mem_map_of_mem
      unfold liveNodes
      rw [List.mem_filterMap]
      exact ⟨node, List.mem_flatMap.mpr ⟨exp, hmem, hnode⟩, hlive⟩
    exact (List.mem_filter.mp hat).1
  have hnew : mapRow siteId live ∈ rows := by
    rw [rows_eq_of_forall₂ hrows]
    apply List.mem_map_of_mem
    rw [List.mem_filterMap]
    exact ⟨node, hnode, hlive⟩
  rw [List.map_append] at hunique
  exact List.disjoint_of_nodup_append hunique (List.mem_map_of_mem hold) (List.mem_map_of_mem hnew)

/-- **Committing** writes one more expansion. -/
theorem Mirrored.commit (h : Mirrored siteId graph exps committed store) (hexp : exp ∈ exps)
    (hscored : exp.Scored graph)
    (hcommit : (commitExpansion siteId exp graph).exec store = (.ok ⟨⟩, store')) :
    Mirrored siteId graph exps (committed ++ [exp]) store' := by
  have hnot := h.not_mem_committed hexp hcommit
  obtain ⟨rows, hunique, hrows, rfl⟩ := commitExpansion_spec hcommit
  have heq := rows_eq_of_forall₂ hrows
  refine ⟨h.connected, h.keys, h.edges, h.nonempty, ?_, ?_, ?_, ?_⟩
  · intro e he
    rcases List.mem_append.mp he with he | he
    · exact h.known e he
    · rw [List.mem_singleton.mp he]
      exact ⟨hexp, hscored⟩
  · rw [List.nodup_append]
    refine ⟨h.once, List.nodup_singleton exp, fun e he e' he' => ?_⟩
    rw [List.mem_singleton.mp he']
    exact fun heq => hnot (heq ▸ he)
  · have hall : rows.filter (·.siteId = siteId) = rows := by
      rw [List.filter_eq_self, heq]
      intro row hrow
      obtain ⟨live, -, rfl⟩ := List.mem_map.mp hrow
      exact decide_eq_true rfl
    unfold MapStore.mapRowsAt
    rw [mapRows_foldl_insertEdge]
    show (store.mapRows ++ rows).filter (·.siteId = siteId) = _
    rw [List.filter_append, hall, heq]
    have hmapRows : store.mapRows.filter (·.siteId = siteId) = _ := h.mapRows
    rw [hmapRows]
    unfold liveNodes
    rw [List.flatMap_append, List.filterMap_append, List.map_append, List.flatMap_singleton]
  · rw [payload_edgeRowsAt_foldl]
    show (store.edgeRowsAt siteId).map (·.payload) ++ _ = _
    rw [h.edgeRows, List.flatMap_append, List.map_append, List.flatMap_singleton]

/-- **Every run** mirrors its map in the tables. -/
theorem Saved.mirrored (h : Saved entropy siteId graph exps committed store) :
    Mirrored siteId graph exps committed store := by
  induction h with
  | seed entrance hmapRows hedgeRows =>
    refine ⟨(contiguous_seedGraph entrance).isConnected, rfl, rfl, ?_, ?_, List.nodup_nil, hmapRows,
      ?_⟩
    · intro exp hexp
      rw [List.mem_singleton.mp hexp]
      exact List.cons_ne_nil entrance []
    · exact fun exp hexp => nomatch hexp
    · rw [hedgeRows]
      rfl
  | attached _ hnew hattach ih => exact ih.attach hnew hattach
  | @scored graph _ _ _ campaignSeed config _ ih =>
    exact ih.score (keepsScored_assignDepthScores entropy campaignSeed config graph)
  | committed _ hexp hscored hcommit ih => exact ih.commit hexp hscored hcommit
  | refused _ hrefused ih =>
    rw [store_eq_of_refused hrefused]
    exact ih
  | elsewhere exp graph' _ hsite ih =>
    obtain ⟨hmap, hedge⟩ := rowsAt_elsewhere hsite exp graph' _
    exact ⟨ih.connected, ih.keys, ih.edges, ih.nonempty, ih.known, ih.once, hmap.trans ih.mapRows,
      (congrArg _ hedge).trans ih.edgeRows⟩

end Mirrored

/-! ### Loading -/

/-- What was written by `toDict` and is read by `fromDict` is added as it was. -/
theorem exec_forM_loadRow {δ : Type} {toDict : δ → Projection.Json}
    {fromDict : Projection.Json → Except GraphError δ} (h : ∀ d, fromDict (toDict d) = .ok d)
    (add : δ → Effect GraphError RegionGraph PUnit) (l : List δ) (graph : RegionGraph) :
    ((l.map toDict).forM (loadRow fromDict add)).exec graph = (l.forM add).exec graph := by
  induction l generalizing graph with
  | nil => rfl
  | cons d l ih =>
    rw [List.map_cons, exec_forM_cons, exec_forM_cons]
    have hrow : loadRow fromDict add (toDict d) = add d := by
      unfold loadRow
      rw [h d]
      rfl
    rw [hrow, exec_bind, exec_bind]
    rcases (add d).exec graph with ⟨e | u, graph'⟩
    · rfl
    · exact ih graph'

/-! ### Measures -/

section Measures

variable {graph graph' : RegionGraph}

/-- **Distances** depend on which edges there are, and not on their order. -/
theorem get?_distances_congr (hkeys : ∀ r, r ∈ graph'.nodes.keys ↔ r ∈ graph.nodes.keys)
    (hedges : ∀ e, e ∈ graph'.edges ↔ e ∈ graph.edges) {source : String}
    (hsource : source ∈ graph.nodes.keys) (blocked : Option String) :
    (graph'.distances source blocked []).get? = (graph.distances source blocked []).get? := by
  have hclosed : ∀ g : RegionGraph, ∀ v ∈ g.nodes.keys,
      ∀ w ∈ RegionGraph.adjacent (g.keptEdges []) blocked v, w ∈ g.nodes.keys := by
    intro g v hv w hw
    have hlinked : Linked g.edges v w := by
      rw [RegionGraph.keptEdges_nil] at hw
      exact List.mem_flatMap.mp (List.mem_filter.mp hw).1
    exact RegionGraph.mem_keys_of_joined hv (Relation.ReflTransGen.single hlinked)
  have hadj : ∀ u x, x ∈ RegionGraph.adjacent (graph'.keptEdges []) blocked u ↔
      x ∈ RegionGraph.adjacent (graph.keptEdges []) blocked u := by
    intro u x
    rw [RegionGraph.keptEdges_nil, RegionGraph.keptEdges_nil]
    unfold RegionGraph.adjacent
    simp only [List.mem_filter, List.mem_flatMap, hedges]
  funext v
  refine Option.ext (fun n => ?_)
  unfold RegionGraph.distances
  rw [get?_bfs_iff (hclosed graph') ((hkeys source).mpr hsource),
    get?_bfs_iff (hclosed graph) hsource]
  exact hops_congr hadj

/-! ### What is loaded -/

variable {entropy : Entropy} {siteId : String} {exps committed : List Expansion}
  {store : MapStore}

theorem mem_liveNodes_iff : node ∈ liveNodes graph exps ↔
    ∃ exp ∈ exps, ∃ n ∈ exp.newNodes, graph.nodes.get? n.id = some node := by
  unfold liveNodes
  simp only [List.mem_filterMap, List.mem_flatMap]
  constructor
  · rintro ⟨n, ⟨exp, hexp, hn⟩, hget⟩
    exact ⟨exp, hexp, n, hn, hget⟩
  · rintro ⟨exp, hexp, n, hn, hget⟩
    exact ⟨n, ⟨exp, hexp, hn⟩, hget⟩

/-- Regions stand on the map under their ids. -/
theorem id_of_get? {r : String} (h : graph.nodes.get? r = some node) :
    node.id = r := graph.keyed (r, node) (Dict.get?_eq_some_iff.mp h)

theorem map_id_filterMap_get? {nodes : List RegionNode}
    (h : ∀ node ∈ nodes, node.id ∈ graph.nodes.keys) :
    (nodes.filterMap (fun node => graph.nodes.get? node.id)).map (·.id) = nodes.map (·.id) := by
  induction nodes with
  | nil => rfl
  | cons node nodes ih =>
    obtain ⟨live, hlive⟩ := Dict.mem_keys_iff_get?.mp (h node (.head _))
    rw [List.filterMap_cons, hlive, List.map_cons, List.map_cons, id_of_get? hlive,
      ih (fun n hn => h n (.tail node hn))]

/-- Expansions that have regions with different ids are different. -/
theorem nodup_of_nodup_ids (hnonempty : ∀ exp ∈ exps, exp.newNodes ≠ [])
    (hnodup : ((exps.flatMap (·.newNodes)).map (·.id)).Nodup) : exps.Nodup := by
  induction exps with
  | nil => exact List.nodup_nil
  | cons exp exps ih =>
    rw [List.flatMap_cons, List.map_append] at hnodup
    have hrest := ih (fun e he => hnonempty e (.tail exp he))
      hnodup.of_append_right
    refine List.nodup_cons.mpr ⟨fun hmem => ?_, hrest⟩
    obtain ⟨node, rest, hnodes⟩ := List.exists_cons_of_ne_nil (hnonempty exp (.head _))
    have hnode : node ∈ exp.newNodes := hnodes ▸ (.head _)
    exact List.disjoint_of_nodup_append hnodup (List.mem_map_of_mem hnode)
      (List.mem_map_of_mem (List.mem_flatMap.mpr ⟨exp, hmem, hnode⟩))

/-- There are regions on the map. -/
theorem Saved.keys_ne_nil (h : Saved entropy siteId graph exps committed store) :
    graph.nodes.keys ≠ [] := by
  have hmirrored := h.mirrored
  have hexps : exps ≠ [] := by
    induction h with
    | seed entrance _ _ => exact List.cons_ne_nil _ _
    | attached _ _ _ _ => exact List.append_ne_nil_of_right_ne_nil _ (List.cons_ne_nil _ _)
    | scored _ _ h ih => exact ih h.mirrored
    | committed h _ _ _ ih => exact ih h.mirrored
    | refused h _ ih => exact ih h.mirrored
    | elsewhere _ _ h _ ih => exact ih h.mirrored
  obtain ⟨exp, rest, rfl⟩ := List.exists_cons_of_ne_nil hexps
  obtain ⟨node, nodes, hnodes⟩ :=
    List.exists_cons_of_ne_nil (hmirrored.nonempty exp (.head _))
  exact List.ne_nil_of_mem (hmirrored.mem_keys List.mem_cons_self (hnodes ▸ List.mem_cons_self))

/-- Once all expansions are committed, so is every region. -/
theorem Mirrored.mem_liveNodes_iff_get? (h : Mirrored siteId graph exps committed store)
    (hall : ∀ exp ∈ exps, exp ∈ committed) :
    node ∈ liveNodes graph committed ↔ graph.nodes.get? node.id = some node := by
  rw [mem_liveNodes_iff]
  constructor
  · rintro ⟨exp, hexp, n, hn, hget⟩
    rw [id_of_get? hget]
    exact hget
  · intro hget
    have hmem : node.id ∈ graph.nodes.keys := Dict.mem_keys_of_get? hget
    rw [h.keys] at hmem
    obtain ⟨n, hn, hid⟩ := List.mem_map.mp hmem
    obtain ⟨exp, hexp, hnew⟩ := List.mem_flatMap.mp hn
    exact ⟨exp, hall exp hexp, n, hnew, hid ▸ hget⟩

/-- They are as many as the regions of the map, and those. -/
theorem Mirrored.ids_liveNodes_perm (h : Mirrored siteId graph exps committed store)
    (hperm : committed.Perm exps) :
    ((liveNodes graph committed).map (·.id)).Perm graph.nodes.keys := by
  have hids : (liveNodes graph committed).map (·.id)
      = (committed.flatMap (·.newNodes)).map (·.id) := by
    refine map_id_filterMap_get? (fun node hnode => ?_)
    obtain ⟨exp, hexp, hmem⟩ := List.mem_flatMap.mp hnode
    exact h.mem_keys (h.known exp hexp).1 hmem
  rw [hids, h.keys]
  exact (hperm.flatMap_right _).map _

theorem Mirrored.exists_scanned (h : Mirrored siteId graph exps committed store) (scan : Scan) :
    ∃ nodes : List RegionNode, nodes.Perm (liveNodes graph committed) ∧
      (scan.order (store.mapRowsAt siteId)).map (·.payload) = nodes.map RegionNode.toDict := by
  have hrows := scan.perm (store.mapRowsAt siteId)
  rw [h.mapRows] at hrows
  obtain ⟨nodes, hperm, hmap⟩ := exists_perm_of_perm_map hrows
  refine ⟨nodes, hperm, ?_⟩
  rw [h.mapRows, hmap, List.map_map]
  rfl

/-- The rows of the edges, whatever the order they are returned in: by their numbers they are those
    of the commits. -/
theorem Mirrored.scanned_edgeRows (h : Mirrored siteId graph exps committed store) (scan : Scan) :
    ((scan.order (store.edgeRowsAt siteId)).insertionSort (·.edgeId ≤ ·.edgeId)).map (·.payload)
      = (committed.flatMap (·.newEdges)).map RegionEdge.toDict := by
  have : Std.Total (fun r r' : EdgeRow => r.edgeId ≤ r'.edgeId) :=
    ⟨fun r r' => Nat.le_total r.edgeId r'.edgeId⟩
  have : IsTrans EdgeRow (fun r r' => r.edgeId ≤ r'.edgeId) := ⟨fun _ _ _ => Nat.le_trans⟩
  have hnumbered : (store.edgeRowsAt siteId).Pairwise
      (fun r r' => r.edgeId ≤ r'.edgeId ∧ ¬ r'.edgeId ≤ r.edgeId) :=
    (store.numbered.filter _).imp (fun hlt => ⟨hlt.le, not_le.mpr hlt⟩)
  rw [insertionSort_eq_of_perm (scan.perm _) hnumbered]
  exact h.edgeRows

/-- **What is loaded**, once all expansions are committed: the regions as they are on the map, and
    its edges, in the order of the commits. -/
theorem Mirrored.loaded (h : Mirrored siteId graph exps committed store)
    (hall : ∀ exp ∈ exps, exp ∈ committed) (scan : Scan) :
    ∃ graph', loadMap scan graph.entranceId siteId store = .ok graph' ∧
      graph'.entranceId = graph.entranceId ∧
      (∀ r, graph'.nodes.get? r = graph.nodes.get? r) ∧
      graph'.nodes.keys.Perm graph.nodes.keys ∧
      graph'.edges = committed.flatMap (·.newEdges) ∧ committed.Perm exps := by
  have hkeysNodup : ((exps.flatMap (·.newNodes)).map (·.id)).Nodup :=
    h.keys ▸ Dict.nodup_keys graph.nodes
  have hperm : committed.Perm exps := by
    refine (List.perm_ext_iff_of_nodup h.once (nodup_of_nodup_ids h.nonempty hkeysNodup)).mpr
      (fun exp => ⟨fun hexp => (h.known exp hexp).1, hall exp⟩)
  obtain ⟨nodes, hnodesPerm, hnodes⟩ := h.exists_scanned scan
  have hids : (nodes.map (·.id)).Perm graph.nodes.keys :=
    (hnodesPerm.map _).trans (h.ids_liveNodes_perm hperm)
  have hfresh : ((RegionGraph.empty graph.entranceId).nodes.keys ++ nodes.map (·.id)).Nodup :=
    hids.nodup_iff.mpr (Dict.nodup_keys _)
  have hjoins : ∀ e ∈ committed.flatMap (·.newEdges),
      e.Joins ((RegionGraph.empty graph.entranceId).nodes.keys ++ nodes.map (·.id)) := by
    intro e he
    have hmem : e ∈ graph.edges := by
      rw [h.edges]
      exact (hperm.flatMap_right _).mem_iff.mp he
    obtain ⟨hne, ha, hb⟩ := graph.known e hmem
    exact ⟨hne, hids.mem_iff.mpr ha, hids.mem_iff.mpr hb⟩
  obtain ⟨withNodes, graph', hexecNodes, hexecEdges, hinserted⟩ := exists_forM_add hfresh hjoins
  have hentries : graph'.nodes.entries = nodes.map (fun node => (node.id, node)) := hinserted.nodes
  refine ⟨graph', ?_, hinserted.entrance, fun r => ?_, ?_, hinserted.edges, hperm⟩
  · unfold loadMap
    dsimp only
    rw [hnodes, h.scanned_edgeRows scan, exec_bind, exec_forM_loadRow RegionNode.fromDict_toDict,
      hexecNodes]
    dsimp only
    rw [exec_forM_loadRow RegionEdge.fromDict_toDict, hexecEdges]
  · refine Option.ext (fun node => ?_)
    rw [Dict.get?_eq_some_iff, hentries, List.mem_map]
    constructor
    · rintro ⟨live, hlive, hpair⟩
      cases hpair
      exact (h.mem_liveNodes_iff_get? hall).mp (hnodesPerm.mem_iff.mp hlive)
    · intro hget
      have hid : node.id = r := id_of_get? hget
      have hlive : node ∈ liveNodes graph committed :=
        (h.mem_liveNodes_iff_get? hall).mpr (hid.symm ▸ hget)
      exact ⟨node, hnodesPerm.mem_iff.mpr hlive, by rw [hid]⟩
  · rw [hinserted.keys]
    exact hids

/-- **What is saved is loaded**, with the same regions and edges, each as often; distances, degrees
    and loops are the same, and so is the order of the edges if the commits came in order. -/
theorem loaded_of_saved (h : Saved entropy siteId graph exps committed store)
    (hall : ∀ exp ∈ exps, exp ∈ committed) (scan : Scan) :
    ∃ graph', loadMap scan graph.entranceId siteId store = .ok graph' ∧
      graph'.entranceId = graph.entranceId ∧
      (∀ r, graph'.nodes.get? r = graph.nodes.get? r) ∧ graph'.edges.Perm graph.edges ∧
      (∀ source blocked, (graph'.bfsDist source blocked []).map Dict.get?
        = (graph.bfsDist source blocked []).map Dict.get?) ∧
      (∀ r, graph'.degree r = graph.degree r) ∧
      graph'.cyclomaticNumber = graph.cyclomaticNumber ∧
      (committed = exps → graph'.edges = graph.edges ∧
        ∀ source blocked skip, graph'.bfsDist source blocked skip
          = graph.bfsDist source blocked skip) := by
  have hmirrored := h.mirrored
  obtain ⟨graph', hload, hentrance, hnodes, hkeys, hedges, hperm⟩ := hmirrored.loaded hall scan
  have hedgesPerm : graph'.edges.Perm graph.edges := by
    rw [hedges, hmirrored.edges]
    exact hperm.flatMap_right _
  refine ⟨graph', hload, hentrance, hnodes, hedgesPerm, fun source blocked => ?_, fun r => ?_, ?_,
    fun heq => ?_⟩
  · unfold RegionGraph.bfsDist
    by_cases hsource : source ∈ graph.nodes.keys
    · rw [if_pos hsource, if_pos (hkeys.mem_iff.mpr hsource)]
      exact congrArg Except.ok (get?_distances_congr (fun r => hkeys.mem_iff)
        (fun e => hedgesPerm.mem_iff) hsource blocked)
    · rw [if_neg hsource, if_neg (fun hmem => hsource (hkeys.mem_iff.mp hmem))]
  · unfold RegionGraph.degree
    simp only [hkeys.mem_iff, hedgesPerm.countP_eq]
  · by_cases hne : graph.nodes.keys = []
    · -- there is an entrance at least
      exact absurd hne h.keys_ne_nil
    · obtain ⟨hmem, hjoined⟩ := (RegionGraph.isConnected_iff hne).mp hmirrored.connected
      have hone := RegionGraph.componentCount_of_joined hmem hjoined
      have hone' : graph'.componentCount = 1 := by
        refine RegionGraph.componentCount_of_joined ?_ (fun v hv => ?_)
        · rw [hentrance]
          exact hkeys.mem_iff.mpr hmem
        · rw [hentrance]
          exact (hjoined v (hkeys.mem_iff.mp hv)).mono (fun e he => hedgesPerm.mem_iff.mpr he)
      unfold RegionGraph.cyclomaticNumber
      rw [hone, hone', hedgesPerm.length_eq, hkeys.length_eq]
  · have hsame : graph'.edges = graph.edges := by
      rw [hedges, hmirrored.edges, heq]
    refine ⟨hsame, fun source blocked skip => ?_⟩
    unfold RegionGraph.bfsDist RegionGraph.distances RegionGraph.keptEdges bfs
    simp only [hkeys.mem_iff, hsame, hkeys.length_eq]

end Measures

/-! ### A region behind the entrance -/

/-- Rows are returned as they were inserted. -/
def asInserted : Scan := ⟨fun l => l, fun l => List.Perm.refl l⟩

/-- The entrance and the closet behind it, scored. -/
def closetGraph : RegionGraph := ((assignDepthScores risingDraws 1 {}).exec
  ((attachExpansion closet).exec (seedGraph cryptEntrance)).2).2

/-- The closet is committed, and then the entrance. -/
def closetStore : MapStore :=
  ((commitExpansion "frontier" (seedExpansion cryptEntrance) closetGraph).exec
    ((commitExpansion "frontier" closet closetGraph).exec MapStore.empty).2).2

/-- The closet is loaded with both ways to it. -/
theorem loaded_closet : ∃ graph', loadMap asInserted "entrance" "frontier" closetStore = .ok graph' ∧
    (∀ r, graph'.nodes.get? r = closetGraph.nodes.get? r) ∧
    graph'.edges.Perm closetGraph.edges ∧ closetGraph.edges.length = 2 := by
  have hseed : Saved risingDraws "frontier" (seedGraph cryptEntrance)
      [seedExpansion cryptEntrance] [] MapStore.empty := Saved.seed cryptEntrance rfl rfl
  have hattached := hseed.attached (by decide : closet.newNodes ≠ [])
    (Prod.ext (by decide +kernel) rfl)
  have hscored : Saved risingDraws "frontier" closetGraph _ _ _ := hattached.scored 1 {}
  have hcloset : closet ∈ [seedExpansion cryptEntrance] ++ [closet] := by decide
  have hfirst := hscored.committed hcloset (by decide +kernel) (Prod.ext (by decide +kernel) rfl)
  have hentrance : seedExpansion cryptEntrance ∈ [seedExpansion cryptEntrance] ++ [closet] := by
    decide
  have hboth : Saved risingDraws "frontier" closetGraph _ _ closetStore :=
    hfirst.committed hentrance (by decide +kernel) (Prod.ext (by decide +kernel) rfl)
  obtain ⟨graph', hload, -, hnodes, hedges, -⟩ := loaded_of_saved hboth (by decide) asInserted
  exact ⟨graph', hload, hnodes, hedges, by decide +kernel⟩

/-- The entrance is committed before it is scored: what is loaded has no score. -/
theorem not_loaded_unscored :
    ((commitExpansion "frontier" (seedExpansion cryptEntrance) (seedGraph cryptEntrance)).exec
      MapStore.empty).1 = .ok ⟨⟩ ∧
    ((assignDepthScores risingDraws 1 {}).exec (seedGraph cryptEntrance)).2.score "entrance"
      = some 0 ∧
    ∃ graph', loadMap asInserted "entrance" "frontier"
        ((commitExpansion "frontier" (seedExpansion cryptEntrance) (seedGraph cryptEntrance)).exec
          MapStore.empty).2 = .ok graph' ∧ graph'.score "entrance" = none := by
  refine ⟨by decide +kernel, by decide +kernel, ?_⟩
  have hload : (loadMap asInserted "entrance" "frontier"
      ((commitExpansion "frontier" (seedExpansion cryptEntrance) (seedGraph cryptEntrance)).exec
        MapStore.empty).2).toOption.map (fun g => (g.nodes.keys, g.score "entrance"))
        = some (["entrance"], none) := by
    decide +kernel
  obtain ⟨graph', hgraph', hscore⟩ := Option.map_eq_some_iff.mp hload
  exact ⟨graph', toOption_eq_some.mp hgraph', (Prod.mk.inj hscore).2⟩

end Sidequest.Dungeon
