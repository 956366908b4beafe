import Sidequest.Dungeon.Generator

namespace Sidequest.Dungeon

open Lib Effect

/-!
# How a candidate hangs on the map

Whatever is drawn, the new regions of a candidate are a tree of corridors with a corridor to an
explored region, and there are more edges than regions.

* `Joined edges v w` — there is a path of some edges;
* `yields_spanningTree` — the tree joins all new regions;
* `yields_stitchEdges` — the first stitch edge is ordinary, and leads to a new region;
* `Stitched` — what holds of every candidate; `yields_buildCandidate`.
-/

/-! ### Paths -/

/-- An edge between two regions. -/
def Linked (edges : List RegionEdge) (v w : String) : Prop := ∃ e ∈ edges, w ∈ e.ends v

/-- A path of edges between two regions. -/
def Joined (edges : List RegionEdge) : String → String → Prop :=
  Relation.ReflTransGen (Linked edges)

theorem RegionEdge.mem_ends {e : RegionEdge} {v w : String} :
    w ∈ e.ends v ↔ (e.a = v ∧ w = e.b) ∨ (e.b = v ∧ w = e.a) := by
  unfold RegionEdge.ends
  by_cases ha : e.a = v
  · by_cases hb : e.b = v
    · simp [ha, hb]
    · simp [ha, hb]
  · by_cases hb : e.b = v
    · simp [ha, hb]
    · simp [ha, hb]

section Paths

variable {edges edges' : List RegionEdge} {v w : String}

theorem Linked.symm (h : Linked edges v w) : Linked edges w v := by
  obtain ⟨e, he, hw⟩ := h
  refine ⟨e, he, ?_⟩
  rw [RegionEdge.mem_ends] at hw ⊢
  rcases hw with ⟨ha, hb⟩ | ⟨hb, ha⟩
  · exact .inr ⟨hb.symm, ha.symm⟩
  · exact .inl ⟨ha.symm, hb.symm⟩

theorem Joined.symm (h : Joined edges v w) : Joined edges w v := by
  induction h with
  | refl => exact Relation.ReflTransGen.refl
  | tail _ hlast ih => exact Relation.ReflTransGen.head hlast.symm ih

/-- Regions stay joined when edges are added. -/
theorem Joined.mono (h : Joined edges v w) (hsub : ∀ e ∈ edges, e ∈ edges') :
    Joined edges' v w := by
  have hlinked : ∀ x y, Linked edges x y → Linked edges' x y := by
    rintro x y ⟨e, he, hy⟩
    exact ⟨e, hsub e he, hy⟩
  induction h with
  | refl => exact Relation.ReflTransGen.refl
  | tail _ hlast ih => exact ih.tail (hlinked _ _ hlast)

theorem joined_of_mem {e : RegionEdge} (he : e ∈ edges) : Joined edges e.a e.b :=
  Relation.ReflTransGen.single ⟨e, he, RegionEdge.mem_ends.mpr (.inl ⟨rfl, rfl⟩)⟩

theorem mem_adjacent_iff : w ∈ RegionGraph.adjacent edges none v ↔ Linked edges v w := by
  unfold RegionGraph.adjacent
  rw [List.mem_filter, List.mem_flatMap]
  constructor
  · rintro ⟨hw, -⟩
    exact hw
  · intro hw
    exact ⟨hw, by simp⟩

theorem reaches_adjacent_iff :
    Reaches (RegionGraph.adjacent edges none) v w ↔ Joined edges v w := by
  have hsame : (fun x y => y ∈ RegionGraph.adjacent edges none x) = Linked edges := by
    ext x y
    exact mem_adjacent_iff
  unfold Reaches Joined
  rw [hsame]

end Paths

/-! ### Searching the map -/

namespace RegionGraph

variable {graph : RegionGraph}

theorem mem_keptEdges {skip : List Nat} {e : RegionEdge} (h : e ∈ graph.keptEdges skip) :
    e ∈ graph.edges := by
  obtain ⟨p, hp, rfl⟩ := List.mem_map.mp h
  exact List.fst_mem_of_mem_zipIdx (List.mem_filter.mp hp).1

theorem keptEdges_nil : graph.keptEdges [] = graph.edges := by
  unfold keptEdges
  rw [List.filter_eq_self.mpr (by simp), List.zipIdx_map_fst]

theorem keptEdges_offRoute :
    graph.keptEdges graph.offRoute = graph.edges.filter RegionEdge.ordinary := by
  -- an edge stands at one place only, so its place tells whether it is ordinary
  have hplace : ∀ p ∈ graph.edges.zipIdx,
      decide (p.2 ∉ graph.offRoute) = (RegionEdge.ordinary ∘ Prod.fst) p := by
    intro p hp
    have hoff : p.2 ∈ graph.offRoute ↔ p.1.ordinary = false := by
      unfold offRoute
      rw [List.mem_map]
      constructor
      · rintro ⟨q, hq, hqp⟩
        obtain ⟨hqmem, hqord⟩ := List.mem_filter.mp hq
        have hsame : q.1 = p.1 := by
          have hqat := List.mem_zipIdx_iff_getElem?.mp hqmem
          have hpat := List.mem_zipIdx_iff_getElem?.mp hp
          rw [hqp] at hqat
          exact Option.some.inj (hqat.symm.trans hpat)
        rw [← hsame]
        simpa using hqord
      · intro hord
        exact ⟨p, List.mem_filter.mpr ⟨hp, by simp [hord]⟩, rfl⟩
    cases hord : p.1.ordinary with
    | false => simp [hoff, hord]
    | true => simp [hoff, hord]
  unfold keptEdges
  rw [List.filter_congr hplace, ← List.filter_map, List.zipIdx_map_fst]

/-- Edges do not lead out of the map. -/
theorem mem_keys_of_joined {v w : String} (hv : v ∈ graph.nodes.keys)
    (h : Joined graph.edges v w) : w ∈ graph.nodes.keys := by
  induction h with
  | refl => exact hv
  | tail _ hlast _ =>
    obtain ⟨e, he, hends⟩ := hlast
    obtain ⟨-, ha, hb⟩ := graph.known e he
    rcases RegionEdge.mem_ends.mp hends with ⟨-, rfl⟩ | ⟨-, rfl⟩
    · exact hb
    · exact ha

/-- **A search** finds the regions that are joined to its source. -/
theorem mem_distances_iff {source : String} (hsource : source ∈ graph.nodes.keys) (skip : List Nat)
    (v : String) :
    v ∈ (graph.distances source none skip).keys ↔ Joined (graph.keptEdges skip) source v := by
  have hclosed : ∀ v ∈ graph.nodes.keys, ∀ w ∈ adjacent (graph.keptEdges skip) none v,
      w ∈ graph.nodes.keys := by
    intro v hv w hw
    obtain ⟨e, he, hends⟩ := mem_adjacent_iff.mp hw
    exact mem_keys_of_joined hv (Relation.ReflTransGen.single ⟨e, mem_keptEdges he, hends⟩)
  unfold distances
  rw [mem_keys_bfs_iff hclosed hsource, reaches_adjacent_iff]

/-- Regions that were seen before do not make a component. -/
theorem foldl_countComponent (l : List String) (acc : List String × Nat)
    (hseen : ∀ v ∈ l, v ∈ acc.1) : l.foldl graph.countComponent acc = acc := by
  induction l with
  | nil => rfl
  | cons v l ih =>
    have hv : graph.countComponent acc v = acc := if_pos (hseen v (.head _))
    rw [List.foldl_cons, hv]
    exact ih (fun w hw => hseen w (.tail v hw))

/-- **The map is connected** where every region is joined to the entrance. -/
theorem isConnected_iff (hne : graph.nodes.keys ≠ []) : graph.isConnected = .ok true ↔
    graph.entranceId ∈ graph.nodes.keys ∧
      ∀ v ∈ graph.nodes.keys, Joined graph.edges graph.entranceId v := by
  unfold isConnected reachableFromEntrance bfsDist
  rw [if_neg hne]
  by_cases hentrance : graph.entranceId ∈ graph.nodes.keys
  · rw [if_pos hentrance]
    show Except.ok (decide ((graph.distances graph.entranceId none []).keys.length
      = graph.nodes.keys.length)) = .ok true ↔ _
    have hmem : ∀ v, v ∈ (graph.distances graph.entranceId none []).keys ↔
        Joined graph.edges graph.entranceId v := by
      intro v
      rw [mem_distances_iff hentrance, keptEdges_nil]
    have hsub : (graph.distances graph.entranceId none []).keys ⊆ graph.nodes.keys :=
      fun v hv => mem_keys_of_joined hentrance ((hmem v).mp hv)
    have hsubperm : (graph.distances graph.entranceId none []).keys.Subperm graph.nodes.keys :=
      List.subperm_of_subset (Dict.nodup_keys _) hsub
    constructor
    · intro hlength
      have hlength' := of_decide_eq_true (Except.ok.inj hlength)
      have hperm := hsubperm.perm_of_length_le hlength'.ge
      exact ⟨hentrance, fun v hv => (hmem v).mp (hperm.mem_iff.mpr hv)⟩
    · rintro ⟨-, hjoined⟩
      have hperm : (graph.distances graph.entranceId none []).keys.Perm graph.nodes.keys :=
        (List.perm_ext_iff_of_nodup (Dict.nodup_keys _) (Dict.nodup_keys _)).mpr
          (fun v => ⟨fun hv => hsub hv, fun hv => (hmem v).mpr (hjoined v hv)⟩)
      rw [hperm.length_eq, decide_eq_true rfl]
  · rw [if_neg hentrance]
    constructor
    · intro h
      simp [Bind.bind, Except.bind] at h
    · rintro ⟨h, -⟩
      exact absurd h hentrance

theorem componentCount_of_joined (hentrance : graph.entranceId ∈ graph.nodes.keys)
    (hjoined : ∀ v ∈ graph.nodes.keys, Joined graph.edges graph.entranceId v) :
    graph.componentCount = 1 := by
  unfold componentCount
  rcases hkeys : graph.nodes.keys with _ | ⟨v, rest⟩
  · rw [hkeys] at hentrance
    cases hentrance
  · have hv : v ∈ graph.nodes.keys := hkeys ▸ (.head _)
    have hfirst : graph.countComponent ([], 0) v
        = ([] ∪ (graph.distances v none []).keys, 1) := if_neg List.not_mem_nil
    rw [List.foldl_cons, hfirst, foldl_countComponent]
    intro w hw
    -- the search from the first region has seen all the others
    have hw' : w ∈ graph.nodes.keys := hkeys ▸ .tail v hw
    refine List.mem_union_iff.mpr (.inr ?_)
    rw [mem_distances_iff hv, keptEdges_nil]
    exact (hjoined v hv).symm.trans (hjoined w hw')

end RegionGraph

/-! ### Contiguous maps -/

/-- Every region is joined to the entrance by ordinary edges, and there are edges enough for it. -/
structure Contiguous (graph : RegionGraph) : Prop where
  entrance : graph.entranceId ∈ graph.nodes.keys
  spanned : graph.nodes.keys.length ≤ graph.edges.length + 1
  ordinary : ∀ v ∈ graph.nodes.keys,
    Joined (graph.edges.filter RegionEdge.ordinary) graph.entranceId v

namespace Contiguous

variable {graph : RegionGraph} (h : Contiguous graph)

include h

/-- All the more by edges of any kind. -/
theorem joined {v : String} (hv : v ∈ graph.nodes.keys) : Joined graph.edges graph.entranceId v :=
  (h.ordinary v hv).mono (fun _ he => (List.mem_filter.mp he).1)

/-- All regions are reached from the entrance. -/
theorem isConnected : graph.isConnected = .ok true :=
  (RegionGraph.isConnected_iff (List.ne_nil_of_mem h.entrance)).mpr
    ⟨h.entrance, fun _ hv => h.joined hv⟩

/-- A map that hangs together is one component. -/
theorem componentCount : graph.componentCount = 1 :=
  RegionGraph.componentCount_of_joined h.entrance (fun _ hv => h.joined hv)

theorem cyclomaticNumber :
    graph.cyclomaticNumber = graph.edges.length - graph.nodes.keys.length + 1 := by
  unfold RegionGraph.cyclomaticNumber
  rw [h.componentCount]
  rfl

/-- Ordinary edges lead to every region. -/
theorem ordinaryRouteDist : ∃ dist, graph.ordinaryRouteDist = .ok dist ∧
    ∀ v ∈ graph.nodes.keys, v ∈ dist.keys := by
  have hall : ∀ v ∈ graph.nodes.keys,
      v ∈ (graph.distances graph.entranceId none graph.offRoute).keys := by
    intro v hv
    rw [RegionGraph.mem_distances_iff h.entrance, RegionGraph.keptEdges_offRoute]
    exact h.ordinary v hv
  have hmissing : graph.nodes.keys.filter
      (· ∉ (graph.distances graph.entranceId none graph.offRoute).keys) = [] := by
    rw [List.filter_eq_nil_iff]
    intro v hv
    simpa using hall v hv
  refine ⟨graph.distances graph.entranceId none graph.offRoute, ?_, hall⟩
  unfold RegionGraph.ordinaryRouteDist RegionGraph.bfsDist
  rw [if_pos h.entrance]
  show (if ((graph.nodes.keys.filter (· ∉ (graph.distances graph.entranceId none
    graph.offRoute).keys)).insertionSort (· ≤ ·)) ≠ [] then _ else _) = _
  rw [hmissing]
  rfl

end Contiguous

/-! ### The tree -/

theorem yields_treeEdge (newIds : List String) (i : Nat) :
    Yields (treeEdge newIds i) (fun e => e.ordinary = true ∧
      ∃ k < i, newIds[k]? = some e.a ∧ newIds[i]? = some e.b) := by
  refine yields_bind (yields_randrange _ i) (fun k hk => ?_)
  rcases hparent : newIds[k]? with _ | parent
  · exact yields_throw _
  · rcases newIds[i]? with _ | child
    · exact yields_throw _
    · exact yields_pure ⟨rfl, k, hk, hparent, rfl⟩

/-- The tree has an edge for each region but the first, and joins them all. -/
theorem yields_spanningTree (newIds : List String) :
    Yields (spanningTree newIds) (fun tree => tree.length = newIds.length - 1 ∧
      (∀ e ∈ tree, e.ordinary = true) ∧ ∀ r ∈ newIds, ∀ s ∈ newIds, Joined tree r s) := by
  refine (yields_mapM (yields_treeEdge newIds) _).mono (fun tree htree => ?_)
  obtain ⟨hlength, hfrom, hto⟩ := htree
  have hordinary : ∀ e ∈ tree, e.ordinary = true := by
    intro e he
    obtain ⟨i, -, hi, -⟩ := hfrom e he
    exact hi
  -- every region is joined to the first one, by induction on its place
  have hroot : ∀ (i : Nat) (r : String), newIds[i]? = some r → ∀ root, newIds[0]? = some root →
      Joined tree root r := by
    intro i
    induction i using Nat.strong_induction_on with
    | _ i ih =>
      intro r hr root hroot
      rcases Nat.eq_zero_or_pos i with rfl | hpos
      · rw [Option.some.inj (hroot.symm.trans hr)]
        exact Relation.ReflTransGen.refl
      · obtain ⟨hlt, -⟩ := List.getElem?_eq_some_iff.mp hr
        have hi : i ∈ List.range' 1 (newIds.length - 1) := by
          rw [List.mem_range'_1]
          omega
        obtain ⟨e, he, -, k, hk, hparent, hchild⟩ := hto i hi
        have hb : e.b = r := Option.some.inj (hchild.symm.trans hr)
        have hedge : Joined tree e.a r := hb ▸ joined_of_mem he
        exact (ih k hk e.a hparent root hroot).trans hedge
  refine ⟨?_, hordinary, ?_⟩
  · rw [hlength, List.length_range']
  · intro r hr s hs
    obtain ⟨i, hi⟩ := List.mem_iff_getElem?.mp hr
    obtain ⟨j, hj⟩ := List.mem_iff_getElem?.mp hs
    have hne : newIds ≠ [] := List.ne_nil_of_mem hr
    have hfirst : newIds[0]? = some (newIds.head hne) := by
      rw [← List.head?_eq_getElem?, List.head?_eq_some_head]
    exact (hroot i r hi _ hfirst).symm.trans (hroot j s hj _ hfirst)

/-! ### Picking regions -/

theorem yields_pickDistinct (pool : List String) (k : Nat) :
    Yields (pickDistinct pool k) (fun l => ∀ r ∈ l, r ∈ pool) := by
  refine yields_ite (fun _ => ?_) (fun _ => ?_)
  · exact (yields_shuffled pool).mono (fun l hl r hr => hl.subset hr)
  · exact (yields_sample _ k pool).mono (fun l hl r hr => hl.2.subset hr)

theorem yields_fillUp {pool picked : List String} (hpicked : ∀ r ∈ picked, r ∈ pool) (count : Nat) :
    Yields (fillUp pool count picked) (fun l => count ≤ l.length ∧ ∀ r ∈ l, r ∈ pool) := by
  refine yields_bind (yields_mapM (fun _ => yields_choice _ pool) _) (fun more hmore => ?_)
  obtain ⟨hlength, hfrom, -⟩ := hmore
  refine yields_pure ⟨?_, fun r hr => ?_⟩
  · rw [List.length_append, hlength, List.length_range]
    omega
  · rcases List.mem_append.mp hr with hr | hr
    · exact hpicked r hr
    · obtain ⟨-, -, hmem⟩ := hfrom r hr
      exact hmem

section Candidate

variable {explored : RegionGraph} {expansionId : Int} {attach newIds stitchTo : List String}
  {config : JaquaysConfig}

theorem mem_of_attachRegions (hentrance : explored.entranceId ∈ explored.nodes.keys)
    {attachRegionIds : List String}
    (h : attachRegions explored expansionId attachRegionIds = .ok attach) :
    ∀ r ∈ attach, r ∈ explored.nodes.keys := by
  unfold attachRegions at h
  rcases hfind : attachRegionIds.find? (· ∉ explored.nodes.keys) with _ | rid
  · rw [hfind] at h
    have hall : ∀ r ∈ attachRegionIds, r ∈ explored.nodes.keys := by
      simpa using hfind
    dsimp only at h
    split at h
    · cases h
      intro r hr
      rw [List.mem_singleton.mp hr]
      exact hentrance
    · split at h
      · simp at h
      · cases h
        intro r hr
        rw [List.mem_insertionSort, List.mem_dedup] at hr
        exact hall r hr
  · rw [hfind] at h
    simp at h

/-- Spreading the sources keeps their number, and uses regions to attach to. -/
theorem spread_spec {sources sources' : List String} (h : spread attach sources = .ok sources') :
    sources'.length = sources.length ∧ ∀ r ∈ sources', r ∈ sources ∨ r ∈ attach := by
  unfold spread at h
  split at h
  · rename_i first second rest
    split at h
    · rcases hfind : attach.find? (· ≠ first) with _ | other
      · rw [hfind] at h
        simp at h
      · rw [hfind] at h
        cases h
        refine ⟨rfl, fun r hr => ?_⟩
        rcases List.mem_cons.mp hr with rfl | hr
        · exact .inl (.head _)
        · rcases List.mem_cons.mp hr with rfl | hr
          · exact .inr (List.mem_of_find?_eq_some hfind)
          · exact .inl (.tail first (.tail second hr))
    · cases h
      exact ⟨rfl, fun r hr => .inl hr⟩
  · cases h
    exact ⟨rfl, fun r hr => .inl hr⟩

theorem yields_stitchSources (hentrance : explored.entranceId ∈ explored.nodes.keys)
    (hattach : ∀ r ∈ attach, r ∈ explored.nodes.keys) (count : Nat) :
    Yields (stitchSources explored attach count)
      (fun l => count ≤ l.length ∧ ∀ r ∈ l, r ∈ explored.nodes.keys) := by
  refine yields_ite (fun _ => yields_pure ?_) (fun _ => ?_)
  · refine ⟨List.length_replicate.ge, fun r hr => ?_⟩
    rw [List.eq_of_mem_replicate hr]
    exact hentrance
  · refine yields_bind (yields_pickDistinct attach _) (fun base hbase => ?_)
    refine yields_bind (yields_fillUp hbase count) (fun sources hsources => ?_)
    refine yields_ofExcept (fun sources' hspread => ?_)
    obtain ⟨hlength, hmem⟩ := spread_spec hspread
    refine ⟨hlength ▸ hsources.1, fun r hr => ?_⟩
    rcases hmem r hr with h | h
    · exact hattach r (hsources.2 r h)
    · exact hattach r h

/-- There is a stitch edge, and they are all ordinary, from explored regions to new ones. -/
theorem yields_stitchEdges (hentrance : explored.entranceId ∈ explored.nodes.keys)
    (hattach : ∀ r ∈ attach, r ∈ explored.nodes.keys) (hfloor : 1 ≤ config.minStitchEdges) :
    Yields (stitchEdges explored attach stitchTo config) (fun l => l ≠ [] ∧
      ∀ e ∈ l, e.ordinary = true ∧ e.a ∈ explored.nodes.keys ∧ e.b ∈ stitchTo) := by
  refine yields_bind (yields_randint _ _ _) (fun burst hburst => ?_)
  refine yields_bind (yields_pickDistinct stitchTo _) (fun picked hpicked => ?_)
  refine yields_bind (yields_fillUp hpicked _) (fun targets htargets => ?_)
  refine yields_bind (yields_stitchSources hentrance hattach _) (fun sources hsources => ?_)
  have hedge : ∀ p : (String × String) × Nat, Yields (do
      let kind ← stitchKind config p.2
      pure { a := p.1.1, b := p.1.2, kind := kind } : Drawing RegionEdge)
      (fun e => e.ordinary = true ∧ e.a = p.1.1 ∧ e.b = p.1.2) := by
    intro p
    exact yields_bind (yields_any _) (fun kind _ => yields_pure ⟨rfl, rfl, rfl⟩)
  refine (yields_mapM hedge _).mono (fun l hl => ?_)
  obtain ⟨hlength, hfrom, -⟩ := hl
  refine ⟨?_, fun e he => ?_⟩
  · have hcount : 1 ≤ (config.minStitchEdges + burst).toNat := by omega
    have hpos : 1 ≤ l.length := by
      rw [hlength, List.length_zipIdx, List.length_zip]
      exact le_min (hcount.trans hsources.1) (hcount.trans htargets.1)
    exact List.ne_nil_of_length_pos hpos
  · obtain ⟨p, hp, hordinary, ha, hb⟩ := hfrom e he
    have hzip := List.fst_mem_of_mem_zipIdx hp
    refine ⟨hordinary, ?_, ?_⟩
    · rw [ha]
      exact hsources.2 _ (List.of_mem_zip hzip).1
    · rw [hb]
      exact htargets.2 _ (List.of_mem_zip hzip).2

theorem yields_hiddenEdges : Yields (hiddenEdges attach stitchTo config)
      (·.length = config.minHiddenEdges.toNat) := by
  refine (yields_mapM (fun _ => yields_any _) _).mono (fun l hl => ?_)
  rw [hl.1, List.length_range]

theorem yields_shortcutEdges (nearest : String) (targets : List String) :
    Yields (shortcutEdges nearest targets config) (·.length = targets.length) := by
  refine yields_bind (yields_any _) (fun kind _ => yields_pure ?_)
  exact List.length_map _

theorem length_shortcutTargets (tree : List RegionEdge) :
    (shortcutTargets newIds tree config).length
      = min config.minShortcutEdges.toNat newIds.length := by
  unfold shortcutTargets
  rw [List.length_take, List.length_insertionSort]

theorem mem_of_stitchable {targets : List String} {r : String} (h : r ∈ stitchable newIds targets) :
    r ∈ newIds := by
  unfold stitchable at h
  dsimp only at h
  split at h
  · exact h
  · exact (List.mem_filter.mp h).1

/-! ### Candidates -/

/-- How new regions hang on the map: each is joined to an explored region by new ordinary edges;
    and with every region comes an edge, and one more. -/
structure Stitched (explored : RegionGraph) (newIds : List String) (newEdges : List RegionEdge) :
    Prop where
  nonempty : newIds ≠ []
  loops : newIds.length + 1 ≤ newEdges.length
  hung : ∀ r ∈ newIds, ∃ v ∈ explored.nodes.keys, Joined (newEdges.filter RegionEdge.ordinary) v r

theorem yields_candidateEdges (hentrance : explored.entranceId ∈ explored.nodes.keys)
    (hattach : ∀ r ∈ attach, r ∈ explored.nodes.keys) (hnew : newIds ≠ [])
    {u : Unit} (hvalid : config.validate = .ok u) :
    Yields (candidateEdges explored attach newIds config) (Stitched explored newIds) := by
  obtain ⟨hstitchFloor, hhiddenFloor, hshortcutFloor, -⟩ := JaquaysConfig.floors_of_validate hvalid
  refine yields_bind (yields_spanningTree newIds) (fun tree htree => ?_)
  obtain ⟨htreeLength, htreeOrdinary, hjoined⟩ := htree
  refine yields_bind (yields_stitchEdges hentrance hattach hstitchFloor) (fun stitch hstitch => ?_)
  obtain ⟨hstitchNe, hstitchEdges⟩ := hstitch
  refine yields_bind yields_hiddenEdges (fun secrets hsecrets => ?_)
  refine yields_bind (yields_any _) (fun nearest _ => ?_)
  refine yields_bind (yields_shortcutEdges nearest _) (fun shortcuts hshortcuts => ?_)
  refine yields_bind (yields_any _) (fun loops _ => yields_pure ?_)
  have hpos : 1 ≤ newIds.length := List.length_pos_iff.mpr hnew
  refine ⟨hnew, ?_, fun r hr => ?_⟩
  · have hstitchPos : 1 ≤ stitch.length := List.length_pos_iff.mpr hstitchNe
    simp only [List.length_append]
    omega
  · -- along the first stitch edge to a new region, and on through the tree
    obtain ⟨e, rest, rfl⟩ := List.exists_cons_of_ne_nil hstitchNe
    obtain ⟨hordinary, ha, hb⟩ := hstitchEdges e (.head _)
    refine ⟨e.a, ha, ?_⟩
    have htreePath : Joined tree e.b r := hjoined e.b (mem_of_stitchable hb) r hr
    refine Relation.ReflTransGen.trans (joined_of_mem ?_) (htreePath.mono (fun e' he' => ?_))
    · rw [List.mem_filter]
      exact ⟨by simp, hordinary⟩
    · rw [List.mem_filter]
      exact ⟨by simp [he'], htreeOrdinary e' he'⟩

/-- **Every candidate** hangs on the map. -/
theorem yields_buildCandidate (hentrance : explored.entranceId ∈ explored.nodes.keys)
    (attachRegionIds themePool : List String) :
    Yields (buildCandidate explored expansionId attachRegionIds themePool config)
      (fun exp => Stitched explored (exp.newNodes.map (·.id)) exp.newEdges) := by
  unfold buildCandidate
  refine yields_bind (yields_ofExcept (fun u hvalid => hvalid)) (fun u hvalid => ?_)
  obtain ⟨-, -, -, hregions⟩ := JaquaysConfig.floors_of_validate hvalid
  refine yields_ite (fun _ => ?_) (fun _ => ?_)
  · exact yields_bind (Q := fun _ => False) (yields_throw _) (fun _ h => h.elim)
  · refine yields_bind (yields_ofExcept (fun _ hattach => hattach)) (fun attach hattach => ?_)
    refine yields_bind (yields_randint _ _ _) (fun n hn => ?_)
    refine yields_bind (yields_mapM (fun _ => yields_any _) _) (fun nodes hnodes => ?_)
    have hnew : nodes.map RegionNode.id ≠ [] := by
      have hlength : (nodes.map RegionNode.id).length = n.toNat := by
        rw [List.length_map, hnodes.1, List.length_range]
      apply List.ne_nil_of_length_pos
      omega
    have hmem := mem_of_attachRegions hentrance hattach
    refine yields_bind (yields_candidateEdges hentrance hmem hnew hvalid) (fun edges hedges => ?_)
    exact yields_pure hedges

end Candidate

end Sidequest.Dungeon
