import Sidequest.Dungeon.Contiguous
import Sidequest.Dungeon.Reloaded
import Sidequest.Lib.Hops

namespace Sidequest.Dungeon

open Lib Effect

/-!
# Whose shortcuts the check counts

The check counts all shortcuts of the map with the expansion, old ones and new ones. What a new
shortcut is worth is a hop at least; where more is asked for, old shortcuts that are worth it are
counted in the place of new ones.

* `Shortens` — what a shortcut is worth; `le_gain_iff` — it is what the check computes;
* `EnoughShortcuts` — there are enough new shortcuts that are worth what they should be;
* `enoughShortcuts_of_explored` — there are enough, unless old ones are counted.
-/

section

/-! ### Distances without an edge -/

variable (graph : RegionGraph)

/-- There is a shortcut at a place. -/
def ShortcutAt (i : Nat) : Prop :=
  ∃ e, graph.edges[i]? = some e ∧ e.shortcut = true

/-- How far a region is from the entrance. -/
def Away (r : String) (d : Nat) : Prop :=
  Hops (RegionGraph.adjacent graph.edges none) graph.entranceId r d

/-- How far it is without the edge at a place. -/
def AwayWithout (i : Nat) (r : String) (d : Nat) : Prop :=
  Hops (RegionGraph.adjacent (graph.keptEdges [i]) none) graph.entranceId r d

/-- Without the edge at a place, some region is farther from the entrance by so much. -/
def Shortens (gain : Int) (i : Nat) : Prop :=
  ∃ r d d', Away graph r d ∧ AwayWithout graph i r d' ∧ d + gain ≤ d'

section Gain

variable {graph : RegionGraph} {i : Nat} {r : String}

theorem mem_keptEdges_singleton_iff {e : RegionEdge} :
    e ∈ graph.keptEdges [i] ↔ ∃ j, j ≠ i ∧ graph.edges[j]? = some e := by
  unfold RegionGraph.keptEdges
  rw [List.mem_map]
  constructor
  · rintro ⟨p, hp, rfl⟩
    obtain ⟨hmem, hkept⟩ := List.mem_filter.mp hp
    exact ⟨p.2, by simpa using hkept, List.mem_zipIdx_iff_getElem?.mp hmem⟩
  · rintro ⟨j, hj, he⟩
    exact ⟨(e, j), List.mem_filter.mpr ⟨List.mem_zipIdx_iff_getElem?.mpr he, by simpa using hj⟩, rfl⟩

/-- An edge is left, or it stands at the place. -/
theorem mem_adjacent_keptEdges {e : RegionEdge} (hi : graph.edges[i]? = some e) {u x : String}
    (hx : x ∈ RegionGraph.adjacent graph.edges none u) :
    x ∈ RegionGraph.adjacent (graph.keptEdges [i]) none u ∨ (u = e.a ∧ x = e.b) ∨
      (u = e.b ∧ x = e.a) := by
  obtain ⟨f, hf, hends⟩ := mem_adjacent_iff.mp hx
  obtain ⟨j, hj⟩ := List.mem_iff_getElem?.mp hf
  by_cases hplace : j = i
  · right
    rw [hplace, hi] at hj
    cases hj
    rcases RegionEdge.mem_ends.mp hends with ⟨rfl, rfl⟩ | ⟨rfl, rfl⟩
    · exact .inl ⟨rfl, rfl⟩
    · exact .inr ⟨rfl, rfl⟩
  · left
    exact mem_adjacent_iff.mpr ⟨f, mem_keptEdges_singleton_iff.mpr ⟨j, hplace, hj⟩, hends⟩

theorem get?_distances_iff (hentrance : graph.entranceId ∈ graph.nodes.keys) (skip : List Nat)
    (d : Nat) : (graph.distances graph.entranceId none skip).get? r = some d ↔
      Hops (RegionGraph.adjacent (graph.keptEdges skip) none) graph.entranceId r d := by
  have hclosed : ∀ v ∈ graph.nodes.keys,
      ∀ w ∈ RegionGraph.adjacent (graph.keptEdges skip) none v, w ∈ graph.nodes.keys := by
    intro v hv w hw
    obtain ⟨e, he, hends⟩ := mem_adjacent_iff.mp hw
    exact RegionGraph.mem_keys_of_joined hv
      (Relation.ReflTransGen.single ⟨e, RegionGraph.mem_keptEdges he, hends⟩)
  exact get?_bfs_iff hclosed hentrance r d

theorem Away.mem_keys (hentrance : graph.entranceId ∈ graph.nodes.keys) {d : Nat}
    (h : Away graph r d) : r ∈ graph.nodes.keys := by
  have hpath := reaches_iff_exists_walk.mpr ⟨d, h.walk⟩
  exact RegionGraph.mem_keys_of_joined hentrance (reaches_adjacent_iff.mp hpath)

/-- No region of a contiguous map is cut off by a shortcut that is missing. -/
theorem Contiguous.exists_awayWithout (h : Contiguous graph) (hi : ShortcutAt graph i)
    (hr : r ∈ graph.nodes.keys) : ∃ d, AwayWithout graph i r d := by
  obtain ⟨e, he, hshortcut⟩ := hi
  have hkept : ∀ f ∈ graph.edges.filter RegionEdge.ordinary, f ∈ graph.keptEdges [i] := by
    intro f hf
    obtain ⟨hmem, hordinary⟩ := List.mem_filter.mp hf
    obtain ⟨j, hj⟩ := List.mem_iff_getElem?.mp hmem
    refine mem_keptEdges_singleton_iff.mpr ⟨j, fun hplace => ?_, hj⟩
    rw [hplace, he] at hj
    cases hj
    simp [RegionEdge.ordinary, hshortcut] at hordinary
  obtain ⟨n, hn⟩ := reaches_iff_exists_walk.mp
    (reaches_adjacent_iff.mpr ((h.ordinary r hr).mono hkept))
  obtain ⟨d, -, hd⟩ := hn.exists_hops
  exact ⟨d, hd⟩

theorem Contiguous.exists_away (h : Contiguous graph) (hr : r ∈ graph.nodes.keys) :
    ∃ d, Away graph r d := by
  obtain ⟨n, hn⟩ := reaches_iff_exists_walk.mp (reaches_adjacent_iff.mpr (h.joined hr))
  obtain ⟨d, -, hd⟩ := hn.exists_hops
  exact ⟨d, hd⟩

/-- **The gain** that the check computes is what the shortcut is worth. -/
theorem le_gain_iff (h : Contiguous graph) (hi : ShortcutAt graph i) {computed : Int}
    (hgain : shortcutGain graph (graph.distances graph.entranceId none []) i = .ok computed)
    (gain : Int) : gain ≤ computed ↔ Shortens graph gain i := by
  unfold shortcutGain RegionGraph.bfsDist at hgain
  rw [if_pos h.entrance, bind_eq_ok] at hgain
  obtain ⟨alt, halt, hgain⟩ := hgain
  cases halt
  -- both distances of a region are noted
  have hdists : ∀ s ∈ graph.nodes.keys, ∃ d d', Away graph s d ∧ AwayWithout graph i s d' ∧
      (graph.distances graph.entranceId none []).get? s = some d ∧
      (graph.distances graph.entranceId none [i]).get? s = some d' := by
    intro s hs
    obtain ⟨d, hd⟩ := h.exists_away hs
    obtain ⟨d', hd'⟩ := h.exists_awayWithout hi hs
    refine ⟨d, d', hd, hd', ?_, (get?_distances_iff h.entrance [i] d').mpr hd'⟩
    rw [get?_distances_iff h.entrance, RegionGraph.keptEdges_nil]
    exact hd
  dsimp only at hgain
  split at hgain
  · simp at hgain
  · rename_i most hmost
    cases hgain
    obtain ⟨hmem, hmax⟩ := List.max?_eq_some_iff.mp hmost
    constructor
    · intro hle
      obtain ⟨s, hs, hsgain⟩ := List.mem_map.mp hmem
      obtain ⟨d, d', hd, hd', hbase, halt⟩ := hdists s hs
      rw [hbase, halt, Option.getD_some, Option.getD_some] at hsgain
      exact ⟨s, d, d', hd, hd', by omega⟩
    · rintro ⟨s, d, d', hd, hd', hle⟩
      obtain ⟨e, e', he, he', hbase, halt⟩ := hdists s (hd.mem_keys h.entrance)
      have hbound := hmax _ (List.mem_map_of_mem (hd.mem_keys h.entrance))
      rw [hbase, halt, Option.getD_some, Option.getD_some, he.unique hd, he'.unique hd'] at hbound
      omega

/-- A shortcut is worth a hop at least, if the entrance is not next to its end without it. -/
theorem shortens_of_alone (h : Contiguous graph) {e : RegionEdge} (he : graph.edges[i]? = some e)
    (hshortcut : e.shortcut = true) (ha : e.a = graph.entranceId)
    (halone : ∀ f ∈ graph.keptEdges [i], e.b ∉ f.ends graph.entranceId) : Shortens graph 1 i := by
  have hmem := List.mem_of_getElem? he
  obtain ⟨hne, -, hb⟩ := graph.known e hmem
  rw [ha] at hne
  obtain ⟨d', hd'⟩ := h.exists_awayWithout ⟨e, he, hshortcut⟩ hb
  have hstep : Walk (RegionGraph.adjacent graph.edges none) 1 graph.entranceId e.b :=
    ⟨graph.entranceId, rfl, mem_adjacent_iff.mpr ⟨e, hmem, RegionEdge.mem_ends.mpr
      (.inl ⟨ha, rfl⟩)⟩⟩
  obtain ⟨d, hle, hd⟩ := hstep.exists_hops
  -- the end is neither the entrance nor next to it
  have hfar : 2 ≤ d' := by
    have hpos := hd'.pos hne
    have hone : d' ≠ 1 := by
      rintro rfl
      obtain ⟨u, hu, hw⟩ := hd'.walk
      obtain rfl : graph.entranceId = u := hu
      obtain ⟨f, hf, hends⟩ := mem_adjacent_iff.mp hw
      exact halone f hf hends
    omega
  exact ⟨e.b, d, d', hd, hd', by omega⟩

end Gain

/-- **An old shortcut** is worth no more on a map that has grown. -/
theorem Shortens.of_attached {explored post : RegionGraph} (hexplored : Contiguous explored)
    (hpost : Contiguous post) {newEdges : List RegionEdge}
    (hedges : post.edges = explored.edges ++ newEdges)
    (hentrance : post.entranceId = explored.entranceId) {i : Nat} {e : RegionEdge}
    (he : explored.edges[i]? = some e) (hshortcut : e.shortcut = true)
    (ha : e.a = explored.entranceId) {gain : Int} (hpos : 1 ≤ gain) (h : Shortens post gain i) :
    Shortens explored gain i := by
  obtain ⟨r, d, d', hd, hd', hle⟩ := h
  have hkeptAt : ∀ (j : Nat) (f : RegionEdge), explored.edges[j]? = some f →
      post.edges[j]? = some f := by
    intro j f hf
    have hj : j < explored.edges.length := (List.getElem?_eq_some_iff.mp hf).choose
    rw [hedges, List.getElem?_append_left hj]
    exact hf
  have hpostAt := hkeptAt i e he
  obtain ⟨hne, -, hb⟩ := explored.known e (List.mem_of_getElem? he)
  -- the shortest path that is lost leads over the shortcut, and on from its end
  obtain ⟨m, hm, hrest⟩ : ∃ m, m + 1 ≤ d ∧
      Walk (RegionGraph.adjacent (post.keptEdges [i]) none) m e.b r := by
    have hadj : ∀ u x, x ∈ RegionGraph.adjacent post.edges none u →
        x ∈ RegionGraph.adjacent (post.keptEdges [i]) none u ∨
          (u = post.entranceId ∧ x = e.b) ∨ (u = e.b ∧ x = post.entranceId) := by
      intro u x hx
      rw [hentrance, ← ha]
      exact mem_adjacent_keptEdges hpostAt hx
    rcases hd.walk.without hadj with ⟨m, hm, hwalk⟩ | hrest
    · have hshort := hd'.shortest m hwalk
      omega
    · exact hrest
  have hbpost : e.b ∈ post.nodes.keys := (post.known e (List.mem_of_getElem? hpostAt)).2.2
  obtain ⟨k, hk⟩ := hpost.exists_awayWithout ⟨e, hpostAt, hshortcut⟩ hbpost
  have hfar : d' ≤ k + m := hd'.shortest _ (hk.walk.trans hrest)
  -- on the old map, the end is no nearer without the shortcut
  obtain ⟨k', hk'⟩ := hexplored.exists_awayWithout ⟨e, he, hshortcut⟩ hb
  have hgrown : k ≤ k' := by
    refine hk.shortest k' ?_
    have hwalk := hk'.walk
    rw [← hentrance] at hwalk
    refine hwalk.mono (fun u x hx => ?_)
    obtain ⟨f, hf, hends⟩ := mem_adjacent_iff.mp hx
    obtain ⟨j, hj, hfj⟩ := mem_keptEdges_singleton_iff.mp hf
    exact mem_adjacent_iff.mpr ⟨f, mem_keptEdges_singleton_iff.mpr ⟨j, hj, hkeptAt j f hfj⟩, hends⟩
  have hstep : Walk (RegionGraph.adjacent explored.edges none) 1 explored.entranceId e.b :=
    ⟨explored.entranceId, rfl, mem_adjacent_iff.mpr ⟨e, List.mem_of_getElem? he,
      RegionEdge.mem_ends.mpr (.inl ⟨ha, rfl⟩)⟩⟩
  obtain ⟨n, hn, hnear⟩ := hstep.exists_hops
  exact ⟨e.b, n, k', hnear, hk', by omega⟩

/-! ### The shortcuts of a candidate -/

/-- A shortcut to a new region. -/
def shortcutTo (nearest kind target : String) : RegionEdge :=
  { a := nearest, b := target, kind := kind, hidden := decide (kind = "secret"), shortcut := true }

/-- An edge that is no shortcut: from an explored region to a new one that no shortcut leads to, or
    between new regions. -/
structure Sparing (explored : RegionGraph) (newIds targets : List String) (e : RegionEdge) :
    Prop where
  plain : e.shortcut = false
  apart : (e.a ∈ explored.nodes.keys ∧ e.b ∈ newIds ∧ e.b ∉ targets) ∨ (e.a ∈ newIds ∧ e.b ∈ newIds)

/-- Shortcuts lead from the entrance to different new regions, as many as there have to be, and all
    other edges spare those. -/
def Shortcutted (explored : RegionGraph) (config : JaquaysConfig) (newIds : List String)
    (newEdges : List RegionEdge) : Prop :=
  ∃ before targets kind after,
    newEdges = before ++ targets.map (shortcutTo explored.entranceId kind) ++ after ∧
    targets.Nodup ∧ targets.length = config.minShortcutEdges.toNat ∧ (∀ t ∈ targets, t ∈ newIds) ∧
    ∀ e ∈ before ++ after, Sparing explored newIds targets e

section Candidate

variable {explored : RegionGraph} {expansionId : Int} {attach newIds targets stitchTo : List String}
  {config : JaquaysConfig}

theorem yields_tree_inner (newIds : List String) :
    Yields (spanningTree newIds) (fun tree => tree.length = newIds.length - 1 ∧
      ∀ e ∈ tree, e.kind = "corridor" ∧ e.shortcut = false ∧ e.a ∈ newIds ∧ e.b ∈ newIds) := by
  have hedge : ∀ i, Yields (treeEdge newIds i) (fun e =>
      e.kind = "corridor" ∧ e.shortcut = false ∧ e.a ∈ newIds ∧ e.b ∈ newIds) := by
    intro i
    refine yields_bind (yields_any _) (fun k _ => ?_)
    rcases hparent : newIds[k]? with _ | parent
    · exact yields_throw _
    · rcases hchild : newIds[i]? with _ | child
      · exact yields_throw _
      · exact yields_pure ⟨rfl, rfl, List.mem_of_getElem? hparent, List.mem_of_getElem? hchild⟩
  refine (yields_mapM hedge _).mono (fun tree htree => ?_)
  obtain ⟨hlength, hfrom, -⟩ := htree
  refine ⟨by rw [hlength, List.length_range'], fun e he => ?_⟩
  obtain ⟨-, -, hinner⟩ := hfrom e he
  exact hinner

theorem yields_hidden_spared :
    Yields (hiddenEdges attach stitchTo config) (fun l => l.length = config.minHiddenEdges.toNat ∧
      ∀ e ∈ l, e.kind = "secret" ∧ e.shortcut = false ∧ e.a ∈ attach ∧ e.b ∈ stitchTo) := by
  have hedge : ∀ _ : Nat, Yields (do
      let a ← choice .emptySequence attach
      let b ← choice .emptySequence stitchTo
      pure { a := a, b := b, kind := "secret", hidden := true } : Drawing RegionEdge)
      (fun e => e.kind = "secret" ∧ e.shortcut = false ∧ e.a ∈ attach ∧ e.b ∈ stitchTo) := by
    intro _
    exact yields_bind (yields_choice _ attach) (fun a ha => yields_bind (yields_choice _ stitchTo)
      (fun b hb => yields_pure ⟨rfl, rfl, ha, hb⟩))
  refine (yields_mapM hedge _).mono (fun l hl => ?_)
  obtain ⟨hlength, hfrom, -⟩ := hl
  refine ⟨by rw [hlength, List.length_range], fun e he => ?_⟩
  obtain ⟨-, -, hspared⟩ := hfrom e he
  exact hspared

theorem yields_shortcuts (nearest : String) (targets : List String) :
    Yields (shortcutEdges nearest targets config)
      (fun l => ∃ kind, l = targets.map (shortcutTo nearest kind)) :=
  yields_bind (yields_any _) (fun kind _ => yields_pure ⟨kind, rfl⟩)

theorem yields_loops_inner (newIds : List String) : Yields (loopEdges newIds config)
      (fun l => ∀ e ∈ l, e.shortcut = false ∧ e.a ∈ newIds ∧ e.b ∈ newIds) := by
  have hloop : Yields (loopEdge newIds)
      (fun l => ∀ e ∈ l, e.shortcut = false ∧ e.a ∈ newIds ∧ e.b ∈ newIds) := by
    refine yields_ite (fun _ => ?_) (fun _ => yields_pure (by simp))
    refine yields_bind (yields_sample _ 2 newIds) (fun ends hends => ?_)
    have hmem := hends.2.subset
    split
    · refine yields_pure (fun e he => ?_)
      rw [List.mem_singleton.mp he]
      exact ⟨rfl, hmem (by simp), hmem (by simp)⟩
    · exact yields_pure (by simp)
  refine yields_bind (yields_any _) (fun count _ => ?_)
  refine yields_bind (yields_mapM (fun _ => hloop) _) (fun loops hloops => yields_pure ?_)
  intro e he
  obtain ⟨l, hl, hel⟩ := List.mem_flatten.mp he
  obtain ⟨-, -, hinner⟩ := hloops.2.1 l hl
  exact hinner e hel

/-- Nothing is closer to the entrance than the entrance. -/
theorem nearestRegion_eq {nearest : String} (h : nearestRegion explored attach = .ok nearest) :
    nearest = explored.entranceId := by
  unfold nearestRegion RegionGraph.bfsDist at h
  by_cases hentrance : explored.entranceId ∈ explored.nodes.keys
  · rw [if_pos hentrance, bind_eq_ok] at h
    obtain ⟨dist, hdist, h⟩ := h
    cases hdist
    have hzero : (explored.distances explored.entranceId none []).get? explored.entranceId
        = some 0 := (get?_distances_iff hentrance [] 0).mpr ⟨rfl, fun _ _ => Nat.zero_le _⟩
    rw [bind_eq_ok] at h
    obtain ⟨ranked, hranked, h⟩ := h
    rw [List.mapM_cons, bind_eq_ok] at hranked
    obtain ⟨first, hfirst, hranked⟩ := hranked
    rw [bind_eq_ok] at hranked
    obtain ⟨rest, -, hranked⟩ := hranked
    rw [hzero] at hfirst
    cases hfirst
    cases hranked
    -- nothing has a distance below 0
    have hfold : ∀ l : List (String × Nat), l.foldl (fun best p => if p.2 < best.2 then p else best)
        (explored.entranceId, 0) = (explored.entranceId, 0) := by
      intro l
      induction l with
      | nil => rfl
      | cons p l ih => rw [List.foldl_cons, if_neg (Nat.not_lt_zero _), ih]
    rw [← Except.ok.inj h, hfold]
  · rw [if_neg hentrance] at h
    simp [bind, Except.bind] at h

/-- Where there are more new regions than targets, the others are stitched. -/
theorem mem_stitchable {r : String} (hnodup : newIds.Nodup) (hroom : targets.length < newIds.length)
    (h : r ∈ stitchable newIds targets) : r ∈ newIds ∧ r ∉ targets := by
  have hothers : newIds.filter (· ∉ targets) ≠ [] := by
    intro hnone
    rw [List.filter_eq_nil_iff] at hnone
    have hsub : newIds ⊆ targets := fun t ht => by simpa using hnone t ht
    exact absurd (List.subperm_of_subset hnodup hsub).length_le (by omega)
  unfold stitchable at h
  rw [if_neg hothers] at h
  obtain ⟨hmem, hspared⟩ := List.mem_filter.mp h
  exact ⟨hmem, by simpa using hspared⟩

/-- A valid configuration leaves room for shortcuts, which have to be worth a hop. -/
theorem JaquaysConfig.room_of_validate {u : Unit} (h : config.validate = .ok u) :
    1 ≤ config.minShortcutGain ∧
      config.minStitchEdges + config.minShortcutEdges ≤ config.newRegionsPerExpansion.1 := by
  unfold JaquaysConfig.validate at h
  simp only [bind_eq_ok, atLeastOne, refuse_eq_ok] at h
  omega

/-- **The edges of a candidate.** -/
theorem yields_candidateEdges_shortcutted (hentrance : explored.entranceId ∈ explored.nodes.keys)
    (hattach : ∀ r ∈ attach, r ∈ explored.nodes.keys) {u : Unit} (hvalid : config.validate = .ok u)
    (hnodup : newIds.Nodup) (hroom : config.newRegionsPerExpansion.1 ≤ newIds.length) :
    Yields (candidateEdges explored attach newIds config) (Shortcutted explored config newIds) := by
  obtain ⟨hstitchFloor, hhiddenFloor, hshortcutFloor, -⟩ := JaquaysConfig.floors_of_validate hvalid
  obtain ⟨-, hlarge⟩ := JaquaysConfig.room_of_validate hvalid
  refine yields_bind (yields_tree_inner newIds) (fun tree htree => ?_)
  obtain ⟨htreeLength, htree⟩ := htree
  have hcount : (shortcutTargets newIds tree config).length = config.minShortcutEdges.toNat := by
    rw [length_shortcutTargets]
    omega
  have hlt : (shortcutTargets newIds tree config).length < newIds.length := by omega
  have hspared := fun r (h : r ∈ stitchable newIds (shortcutTargets newIds tree config)) =>
    mem_stitchable hnodup hlt h
  refine yields_bind (yields_stitchEdges hentrance hattach hstitchFloor) (fun stitch hstitch => ?_)
  refine yields_bind yields_hidden_spared (fun secrets hsecrets => ?_)
  refine yields_bind (yields_ofExcept (fun _ h => nearestRegion_eq h)) (fun nearest hnearest => ?_)
  refine yields_bind (yields_shortcuts nearest _) (fun shortcuts hshortcuts => ?_)
  refine yields_bind (yields_loops_inner newIds) (fun loops hloops => yields_pure ?_)
  obtain ⟨kind, rfl⟩ := hshortcuts
  subst hnearest
  -- there are corridors and secrets, so no second kind is needed
  have hsecond : secondKind attach newIds (tree ++ stitch ++ secrets ++
      (shortcutTargets newIds tree config).map (shortcutTo explored.entranceId kind) ++ loops)
        config = [] := by
    obtain ⟨e, he⟩ := List.exists_mem_of_length_pos (show 0 < tree.length by omega)
    obtain ⟨f, hf⟩ := List.exists_mem_of_length_pos (show 0 < secrets.length by omega)
    unfold secondKind
    rw [if_neg]
    have hsub : ["corridor", "secret"] ⊆ ((tree ++ stitch ++ secrets ++
        (shortcutTargets newIds tree config).map (shortcutTo explored.entranceId kind) ++
          loops).map (·.kind)).dedup := by
      intro k hk
      rw [List.mem_dedup, List.mem_map]
      rcases List.mem_cons.mp hk with rfl | hk
      · exact ⟨e, by simp [he], (htree e he).1⟩
      · rw [List.mem_singleton.mp hk]
        exact ⟨f, by simp [hf], (hsecrets.2 f hf).1⟩
    have hle := (List.subperm_of_subset (by decide) hsub).length_le
    rw [List.length_cons, List.length_singleton] at hle
    omega
  rw [hsecond, List.append_nil]
  refine ⟨tree ++ stitch ++ secrets, shortcutTargets newIds tree config, kind, loops, rfl, ?_,
    hcount, fun t ht => ?_, fun e he => ?_⟩
  · have hsorted := (List.perm_insertionSort
      (fun r s => treeDepth newIds tree s ≤ treeDepth newIds tree r) newIds).nodup_iff.mpr hnodup
    exact hsorted.sublist (List.take_sublist _ _)
  · exact (List.mem_insertionSort _).mp (List.mem_of_mem_take ht)
  · rcases List.mem_append.mp he with he | he
    · rcases List.mem_append.mp he with he | he
      · rcases List.mem_append.mp he with he | he
        · obtain ⟨-, hplain, ha, hb⟩ := htree e he
          exact ⟨hplain, .inr ⟨ha, hb⟩⟩
        · obtain ⟨hordinary, ha, hb⟩ := hstitch.2 e he
          have hplain : e.shortcut = false := by
            unfold RegionEdge.ordinary at hordinary
            simp only [Bool.not_eq_true', Bool.or_eq_false_iff] at hordinary
            exact hordinary.2
          exact ⟨hplain, .inl ⟨ha, hspared e.b hb⟩⟩
      · obtain ⟨-, hplain, ha, hb⟩ := hsecrets.2 e he
        exact ⟨hplain, .inl ⟨hattach e.a ha, hspared e.b hb⟩⟩
    · obtain ⟨hplain, ha, hb⟩ := hloops e he
      exact ⟨hplain, .inr ⟨ha, hb⟩⟩

/-- **Every candidate**, if its regions have different ids. -/
theorem yields_shortcutted (hentrance : explored.entranceId ∈ explored.nodes.keys)
    (attachRegionIds themePool : List String) :
    Yields (buildCandidate explored expansionId attachRegionIds themePool config)
      (fun exp => (exp.newNodes.map (·.id)).Nodup →
        Shortcutted explored config (exp.newNodes.map (·.id)) exp.newEdges) := by
  unfold buildCandidate
  refine yields_bind (yields_ofExcept (fun u hvalid => hvalid)) (fun u hvalid => ?_)
  refine yields_ite (fun _ => ?_) (fun _ => ?_)
  · exact yields_bind (Q := fun _ => False) (yields_throw _) (fun _ h => h.elim)
  · refine yields_bind (yields_ofExcept (fun _ hattach => hattach)) (fun attach hattach => ?_)
    refine yields_bind (yields_randint _ _ _) (fun n hn => ?_)
    refine yields_bind (yields_mapM (fun _ => yields_any _) _) (fun nodes hnodes => ?_)
    have hroom : config.newRegionsPerExpansion.1 ≤ (nodes.map RegionNode.id).length := by
      rw [List.length_map, hnodes.1, List.length_range]
      omega
    have hmem := mem_of_attachRegions hentrance hattach
    by_cases hnodup : (nodes.map RegionNode.id).Nodup
    · refine yields_bind (yields_candidateEdges_shortcutted hentrance hmem hvalid hnodup hroom)
        (fun edges hedges => yields_pure (fun _ => hedges))
    · exact yields_bind (yields_any _) (fun _ _ => yields_pure (fun h => absurd h hnodup))

end Candidate

end

/-- Enough of the edges that are new on a map are shortcuts, and shorten some way by as much as they
    should. -/
def EnoughShortcuts (explored attached : RegionGraph) (config : JaquaysConfig) : Prop :=
  ∃ places : List Nat, places.Nodup ∧ config.minShortcutEdges ≤ places.length ∧
    ∀ i ∈ places, explored.edges.length ≤ i ∧ ShortcutAt attached i ∧
      Shortens attached config.minShortcutGain i

/-- A hop is enough, or no old shortcut is worth what is asked for. -/
def NothingToCredit (explored : RegionGraph) (config : JaquaysConfig) : Prop :=
  config.minShortcutGain = 1 ∨
    ∀ i, ShortcutAt explored i → ¬ Shortens explored config.minShortcutGain i

/-! ### The check -/

section Check

variable {explored post : RegionGraph} {exp : Expansion} {config : JaquaysConfig}
  {report : GenerationReport}

theorem exists_places_of_checkInvariants (hcontiguous : Contiguous post)
    (hpost : explored.postAttachGraph exp = .ok post)
    (hcheck : checkInvariants explored exp config = .ok report) (hpassed : report.allPassed = true) :
    ∃ places : List Nat, places.Nodup ∧ config.minShortcutEdges ≤ places.length ∧
      ∀ i ∈ places, ShortcutAt post i ∧ Shortens post config.minShortcutGain i := by
  unfold checkInvariants at hcheck
  simp only [bind_eq_ok] at hcheck
  obtain ⟨u, -, post', hpost', hits, hhits, entrances, -, free, -, hreport⟩ := hcheck
  rw [hpost] at hpost'
  cases hpost'
  cases hreport
  have henough : config.minShortcutEdges ≤ hits := by
    have hone := List.all_eq_true.mp hpassed .shortcutCollapsesDistance (by decide)
    exact of_decide_eq_true hone
  unfold shortcutHits RegionGraph.bfsDist at hhits
  rw [if_pos hcontiguous.entrance, bind_eq_ok] at hhits
  obtain ⟨base, hbase, hhits⟩ := hhits
  cases hbase
  rw [bind_eq_ok] at hhits
  obtain ⟨gains, hgains, hhits⟩ := hhits
  cases hhits
  rw [countP_of_mapM hgains, List.countP_eq_length_filter] at henough
  refine ⟨((post.edges.zipIdx.filter (·.1.shortcut)).filter (fun p =>
      (shortcutGain post (post.distances post.entranceId none []) p.2).toOption.any
        (fun gain => config.minShortcutGain ≤ gain))).map Prod.snd, ?_, ?_, fun i hi => ?_⟩
  · have hplaces : (post.edges.zipIdx.map Prod.snd).Nodup := by
      rw [List.zipIdx_map_snd]
      exact List.nodup_range'
    exact hplaces.sublist ((List.filter_sublist.trans List.filter_sublist).map _)
  · rw [List.length_map]
    exact henough
  · obtain ⟨p, hp, rfl⟩ := List.mem_map.mp hi
    obtain ⟨hp, hworth⟩ := List.mem_filter.mp hp
    obtain ⟨hp, hshortcut⟩ := List.mem_filter.mp hp
    have hat : ShortcutAt post p.2 := ⟨p.1, List.mem_zipIdx_iff_getElem?.mp hp, hshortcut⟩
    refine ⟨hat, ?_⟩
    rcases hgain : shortcutGain post (post.distances post.entranceId none []) p.2 with e | gain
    · rw [hgain] at hworth
      simp [Except.toOption] at hworth
    · rw [hgain] at hworth
      exact (le_gain_iff hcontiguous hat hgain _).mp (of_decide_eq_true hworth)

end Check

/-! ### What is generated -/

section Generated

variable {entropy : Entropy} {graph graph' post : RegionGraph} {campaignSeed expansionId : Int}
  {attachRegionIds themePool : List String} {config : JaquaysConfig} {exp : Expansion}
  {report : GenerationReport}

theorem checked_of_reroll {attempt left : Nat} {last : Option GenerationReport}
    (h : reroll entropy graph campaignSeed expansionId attachRegionIds themePool config attempt left
      last = .ok (exp, report)) :
    ∃ checked, checkInvariants graph exp config = .ok checked ∧ checked.allPassed = true := by
  induction left generalizing attempt last with
  | zero => simp [reroll] at h
  | succ left ih =>
    unfold reroll at h
    rw [bind_eq_ok] at h
    obtain ⟨candidate, -, h⟩ := h
    rw [bind_eq_ok] at h
    obtain ⟨checked, hchecked, h⟩ := h
    dsimp only at h
    split at h
    · rename_i hpassed
      cases h
      exact ⟨checked, hchecked, hpassed⟩
    · exact ih h

theorem shortcutted_of_generateExpansion (hentrance : graph.entranceId ∈ graph.nodes.keys)
    (h : generateExpansion entropy graph campaignSeed expansionId attachRegionIds themePool config
      = .ok (exp, report)) :
    config.validate = .ok ⟨⟩ ∧ Shortcutted graph config (exp.newNodes.map (·.id)) exp.newEdges ∧
      (∃ checked, checkInvariants graph exp config = .ok checked ∧ checked.allPassed = true) ∧
      ∃ post, graph.postAttachGraph exp = .ok post := by
  unfold generateExpansion at h
  rw [bind_eq_ok] at h
  obtain ⟨u, hvalid, h⟩ := h
  obtain ⟨⟨rng, rng', hbuild⟩, post, hpost⟩ := exists_of_reroll h
  refine ⟨hvalid, ?_, checked_of_reroll h, post, hpost⟩
  refine yields_shortcutted hentrance attachRegionIds themePool rng exp rng' hbuild ?_
  have hnodup := post.nodes.nodup_keys
  rw [(postAttachGraph_spec hpost).2.1] at hnodup
  exact (List.nodup_append.mp hnodup).2.1

/-- **All shortcuts** of a map lead from its entrance, whatever was generated and attached. -/
theorem Explored.shortcuts_from_entrance (h : Explored entropy graph) :
    ∀ e ∈ graph.edges, e.shortcut = true → e.a = graph.entranceId := by
  induction h with
  | seed entrance => exact fun e he => nomatch he
  | @attached graph graph' _ _ _ _ _ exp _ hgraph hgenerated hattached ih =>
    intro e he hshortcut
    have hinserted := exec_attachExpansion_inserted exp graph
    rw [hattached] at hinserted
    rw [(attachExpansion_spec hattached).2.1] at he
    rw [hinserted.entrance]
    rcases List.mem_append.mp he with he | he
    · exact ih e he hshortcut
    · obtain ⟨-, ⟨before, targets, kind, after, hedges, -, -, -, hspared⟩, -⟩ :=
        shortcutted_of_generateExpansion hgraph.contiguous.entrance hgenerated
      rw [hedges, List.mem_append, List.mem_append] at he
      rcases he with (he | he) | he
      · have hplain := (hspared e (List.mem_append_left _ he)).plain
        simp [hplain] at hshortcut
      · obtain ⟨t, -, rfl⟩ := List.mem_map.mp he
        rfl
      · have hplain := (hspared e (List.mem_append_right _ he)).plain
        simp [hplain] at hshortcut
  | scored hgraph hscored ih =>
    intro e he hshortcut
    have hsame := sameShape_of_assignDepthScores hgraph.contiguous hscored
    rw [hsame.edges] at he
    rw [hsame.entrance]
    exact ih e he hshortcut

/-! ### Enough shortcuts -/

theorem mem_keptEdges_split {left right : List RegionEdge} {e f : RegionEdge}
    (hedges : graph.edges = left ++ e :: right) :
    f ∈ graph.keptEdges [left.length] ↔ f ∈ left ∨ f ∈ right := by
  rw [mem_keptEdges_singleton_iff, hedges]
  constructor
  · rintro ⟨j, hj, hf⟩
    rcases Nat.lt_or_ge j left.length with hlt | hge
    · rw [List.getElem?_append_left hlt] at hf
      exact .inl (List.mem_of_getElem? hf)
    · obtain ⟨k, rfl⟩ := Nat.exists_eq_add_of_lt (show left.length < j by omega)
      rw [List.getElem?_append_right (by omega),
        show left.length + k + 1 - left.length = k + 1 by omega, List.getElem?_cons_succ] at hf
      exact .inr (List.mem_of_getElem? hf)
  · rintro (hf | hf)
    · obtain ⟨j, hj⟩ := List.mem_iff_getElem?.mp hf
      have hlt : j < left.length := (List.getElem?_eq_some_iff.mp hj).choose
      exact ⟨j, by omega, by rw [List.getElem?_append_left hlt, hj]⟩
    · obtain ⟨k, hk⟩ := List.mem_iff_getElem?.mp hf
      refine ⟨left.length + (k + 1), by omega, ?_⟩
      rw [List.getElem?_append_right (by omega),
        show left.length + (k + 1) - left.length = k + 1 by omega, List.getElem?_cons_succ, hk]

/-- **A hop.** Each of the shortcuts that are drawn is worth a hop at least. -/
theorem enoughShortcuts_of_shortcutted (hpost : graph.postAttachGraph exp = .ok post)
    (hcontiguous : Contiguous post) (hentrance : graph.entranceId ∈ graph.nodes.keys)
    (hshortcutted : Shortcutted graph config (exp.newNodes.map (·.id)) exp.newEdges)
    (hhop : config.minShortcutGain = 1) : EnoughShortcuts graph post config := by
  obtain ⟨hsame, hkeys, hedges⟩ := postAttachGraph_spec hpost
  obtain ⟨before, targets, kind, after, hdrawn, hnodup, hlength, htargets, hspared⟩ := hshortcutted
  have hnew : ∀ t ∈ exp.newNodes.map (·.id), t ∉ graph.nodes.keys :=
    fun t ht => not_mem_explored hpost (mem_newRegionIds.mpr ht)
  refine ⟨List.range' (graph.edges.length + before.length) targets.length, List.nodup_range', ?_,
    fun i hi => ?_⟩
  · rw [List.length_range', hlength]
    omega
  · rw [List.mem_range'_1] at hi
    obtain ⟨j, rfl⟩ := Nat.exists_eq_add_of_le hi.1
    have hj : j < targets.length := by omega
    obtain ⟨earlier, t, later, rfl, rfl⟩ : ∃ earlier t later,
        targets = earlier ++ t :: later ∧ earlier.length = j :=
      ⟨targets.take j, targets[j], targets.drop (j + 1),
        by rw [← List.drop_eq_getElem_cons hj, List.take_append_drop],
        List.length_take_of_le hj.le⟩
    have hsplit : post.edges = (graph.edges ++ (before ++ earlier.map
        (shortcutTo graph.entranceId kind))) ++ shortcutTo graph.entranceId kind t ::
        (later.map (shortcutTo graph.entranceId kind) ++ after) := by
      rw [hedges, hdrawn]
      simp only [List.map_append, List.map_cons, List.append_assoc, List.cons_append]
    have hplace : graph.edges.length + before.length + earlier.length
        = (graph.edges ++ (before ++ earlier.map (shortcutTo graph.entranceId kind))).length := by
      simp only [List.length_append, List.length_map]
      omega
    have hmid : t ∈ earlier ++ t :: later := List.mem_append_right _ (.head _)
    have htnew := htargets t hmid
    rw [hplace, hhop]
    have hat : post.edges[(graph.edges ++ (before ++ earlier.map
        (shortcutTo graph.entranceId kind))).length]? = some (shortcutTo graph.entranceId kind t) := by
      rw [hsplit, List.getElem?_append_right (Nat.le_refl _), Nat.sub_self, List.getElem?_cons_zero]
    refine ⟨by rw [List.length_append]; omega, ⟨_, hat, rfl⟩, ?_⟩
    refine shortens_of_alone hcontiguous hat rfl hsame.symm (fun f hf hends => ?_)
    -- no other edge joins the target of the shortcut to the entrance
    rw [mem_keptEdges_split hsplit] at hf
    have hcases : f ∈ graph.edges ∨ f ∈ before ++ after ∨
        ∃ t' ∈ earlier ++ later, f = shortcutTo graph.entranceId kind t' := by
      simp only [List.mem_append, List.mem_map] at hf ⊢
      rcases hf with (hf | hf | ⟨t', ht', rfl⟩) | ⟨t', ht', rfl⟩ | hf
      · exact .inl hf
      · exact .inr (.inl (.inl hf))
      · exact .inr (.inr ⟨t', .inl ht', rfl⟩)
      · exact .inr (.inr ⟨t', .inr ht', rfl⟩)
      · exact .inr (.inl (.inr hf))
    have hends' := RegionEdge.mem_ends.mp hends
    rw [hsame] at hends'
    dsimp only [shortcutTo] at hends'
    rcases hcases with hold | hplain | ⟨t', ht', rfl⟩
    · -- what was there leads to no new region
      obtain ⟨-, ha, hb⟩ := graph.known f hold
      rcases hends' with ⟨-, rfl⟩ | ⟨-, rfl⟩
      · exact hnew _ htnew hb
      · exact hnew _ htnew ha
    · rcases (hspared f hplain).apart with ⟨ha, hb, hspare⟩ | ⟨ha, hb⟩
      · rcases hends' with ⟨-, rfl⟩ | ⟨-, rfl⟩
        · exact hspare hmid
        · exact hnew _ htnew ha
      · rcases hends' with ⟨hentr, -⟩ | ⟨hentr, -⟩
        · exact hnew _ ha (hentr ▸ hentrance)
        · exact hnew _ hb (hentr ▸ hentrance)
    · -- the targets are different regions
      have hother : t' ≠ t := by
        rw [List.nodup_middle, List.nodup_cons] at hnodup
        exact fun heq => hnodup.1 (heq ▸ ht')
      rcases hends' with ⟨-, heq⟩ | ⟨-, heq⟩
      · exact hother heq.symm
      · exact hnew _ htnew (heq ▸ hentrance)

/-- **The shortcuts of an expansion.** Enough of them are worth what is asked for, if that is a hop,
    or if no shortcut of the map is worth as much. -/
theorem enoughShortcuts_of_explored (hgraph : Explored entropy graph)
    (h : generateExpansion entropy graph campaignSeed expansionId attachRegionIds themePool config
      = .ok (exp, report)) (hcredit : NothingToCredit graph config) :
    ∃ graph', (attachExpansion exp).exec graph = (.ok ⟨⟩, graph') ∧
      EnoughShortcuts graph graph' config := by
  have hcontiguous := hgraph.contiguous
  obtain ⟨hvalid, hshortcutted, ⟨checked, hcheck, hpassed⟩, -⟩ :=
    shortcutted_of_generateExpansion hcontiguous.entrance h
  obtain ⟨hstitched, post, happly⟩ := stitched_of_generateExpansion hcontiguous h
  have hattached := attachExpansion_of_stitched hcontiguous hstitched happly
  obtain ⟨hgrown, -⟩ := hcontiguous.applyExpansion hstitched happly
  have hpost : graph.postAttachGraph exp = .ok post := by
    unfold RegionGraph.postAttachGraph
    rw [happly]
  refine ⟨post, hattached, ?_⟩
  rcases hcredit with hhop | hnone
  · exact enoughShortcuts_of_shortcutted hpost hgrown hcontiguous.entrance hshortcutted hhop
  · obtain ⟨places, hnodup, henough, hworth⟩ :=
      exists_places_of_checkInvariants hgrown hpost hcheck hpassed
    refine ⟨places, hnodup, henough, fun i hi => ?_⟩
    obtain ⟨hat, hshortens⟩ := hworth i hi
    refine ⟨?_, hat, hshortens⟩
    -- an old shortcut that is worth it now was worth it before
    by_contra hlt
    obtain ⟨hsame, -, hedges⟩ := postAttachGraph_spec hpost
    obtain ⟨e, he, hshortcut⟩ := hat
    rw [hedges, List.getElem?_append_left (by omega)] at he
    refine hnone i ⟨e, he, hshortcut⟩ (hshortens.of_attached hcontiguous hgrown hedges hsame he
      hshortcut (hgraph.shortcuts_from_entrance e (List.mem_of_getElem? he) hshortcut) ?_)
    exact (JaquaysConfig.room_of_validate hvalid).1

end Generated

/-! ### Two rounds -/

/-- A generator with these draws. -/
def drawsOf (draws : List Nat) : Rng := fun n => draws.getD n 0

theorem neZero_digests : NeZero (2 ^ 64) := ⟨by decide⟩

/-- A digest by its number. -/
def digestOf (n : Nat) : Fin (2 ^ 64) := @Fin.ofNat (2 ^ 64) neZero_digests n

/-- What the seeds of the first two expansions of campaign 6 lead to. -/
def sixthCampaign : Entropy where
  blake2b := fun text =>
    if text = "6|1|0" then digestOf 1561253093462034117
    else if text = "6|2|0" then digestOf 6169961667231424514
    else digestOf 0
  random := fun seed =>
    if seed = 1561253093462034117 then drawsOf [1, 0, 0, 0, 0, 0, 0, 1, 0, 0, 1, 4, 0, 0, 2, 0]
    else if seed = 6169961667231424514 then drawsOf [2, 0, 0, 0, 0, 0, 0, 0, 2, 3, 3, 0, 0, 1, 0, 0,
      0, 1, 0, 4, 0, 3, 1, 0, 0, 0, 3, 0, 3, 4, 1, 0, 0]
    else drawsOf []

/-- A shortcut has to be worth two hops. -/
def twoHops : JaquaysConfig := { minShortcutGain := 2 }

/-- The first expansion, with a shortcut to its far end. -/
def stairwell : Expansion where
  expansionId := 1
  newNodes := ["exp001.r0", "exp001.r1", "exp001.r2", "exp001.r3"].map
    (fun id => { id := id, expansionId := 1, theme := "crypt" })
  newEdges := [{ a := "exp001.r0", b := "exp001.r1", kind := "corridor" },
    { a := "exp001.r0", b := "exp001.r2", kind := "corridor" },
    { a := "exp001.r1", b := "exp001.r3", kind := "corridor" },
    { a := "entrance", b := "exp001.r0", kind := "corridor" },
    { a := "entrance", b := "exp001.r2", kind := "secret" },
    { a := "entrance", b := "exp001.r0", kind := "secret", hidden := true },
    { a := "entrance", b := "exp001.r3", kind := "stairs", shortcut := true }]

def stairGraph : RegionGraph := ((attachExpansion stairwell).exec (seedGraph cryptEntrance)).2

/-- The second one, with a shortcut to a region that is next to those behind the entrance. -/
def gallery : Expansion where
  expansionId := 2
  newNodes := ["exp002.r0", "exp002.r1", "exp002.r2", "exp002.r3", "exp002.r4"].map
    (fun id => { id := id, expansionId := 2, theme := "crypt" })
  newEdges := [{ a := "exp002.r0", b := "exp002.r1", kind := "corridor" },
    { a := "exp002.r0", b := "exp002.r2", kind := "corridor" },
    { a := "exp002.r2", b := "exp002.r3", kind := "corridor" },
    { a := "exp002.r3", b := "exp002.r4", kind := "corridor" },
    { a := "exp001.r0", b := "exp002.r2", kind := "corridor" },
    { a := "entrance", b := "exp002.r1", kind := "secret" },
    { a := "entrance", b := "exp002.r3", kind := "corridor" },
    { a := "exp001.r0", b := "exp002.r0", kind := "chute" },
    { a := "entrance", b := "exp002.r0", kind := "stairs" },
    { a := "entrance", b := "exp002.r0", kind := "secret", hidden := true },
    { a := "entrance", b := "exp002.r4", kind := "shaft", shortcut := true },
    { a := "exp002.r0", b := "exp002.r4", kind := "corridor" },
    { a := "exp002.r4", b := "exp002.r1", kind := "corridor" },
    { a := "exp002.r0", b := "exp002.r1", kind := "corridor" }]

/-- What a computation returns, and the state it ends in. -/
theorem eq_of_fst_eq {α σ : Type} {x : α × σ} {a : α} (h : x.1 = a) : x = (a, x.2) := by
  subst h
  rfl

theorem exists_report_stairwell : ∃ report, generateExpansion sixthCampaign
    (seedGraph cryptEntrance) 6 1 ["entrance"] ["crypt"] twoHops = .ok (stairwell, report) := by
  have hgenerated : ((generateExpansion sixthCampaign (seedGraph cryptEntrance) 6 1 ["entrance"]
      ["crypt"] twoHops).toOption.map Prod.fst) = some stairwell := by decide +kernel
  obtain ⟨⟨exp, report⟩, hreport, rfl⟩ := Option.map_eq_some_iff.mp hgenerated
  exact ⟨report, toOption_eq_some.mp hreport⟩

/-- The shortcut of the first expansion is worth two hops. -/
theorem enoughShortcuts_stairwell : ∃ graph',
    (attachExpansion stairwell).exec (seedGraph cryptEntrance) = (.ok ⟨⟩, graph') ∧
      EnoughShortcuts (seedGraph cryptEntrance) graph' twoHops := by
  obtain ⟨report, hreport⟩ := exists_report_stairwell
  refine enoughShortcuts_of_explored (Explored.seed cryptEntrance) hreport (.inr ?_)
  rintro i ⟨e, he, -⟩
  exact absurd (List.mem_of_getElem? he) List.not_mem_nil

theorem explored_stairGraph : Explored sixthCampaign stairGraph := by
  obtain ⟨report, hreport⟩ := exists_report_stairwell
  have hattached : ((attachExpansion stairwell).exec (seedGraph cryptEntrance)).1 = .ok ⟨⟩ := by
    decide +kernel
  exact Explored.attached (Explored.seed cryptEntrance) hreport (eq_of_fst_eq hattached)

/-- The shortcut of the second expansion is worth one hop, and the first one is counted instead. -/
theorem not_enoughShortcuts_gallery : Explored sixthCampaign stairGraph ∧
    twoHops.validate = .ok ⟨⟩ ∧
    (∃ report, generateExpansion sixthCampaign stairGraph 6 2 ["entrance", "exp001.r0"] ["crypt"]
      twoHops = .ok (gallery, report)) ∧
    ∃ graph', (attachExpansion gallery).exec stairGraph = (.ok ⟨⟩, graph') ∧
      ¬ EnoughShortcuts stairGraph graph' twoHops := by
  have hgenerated : ((generateExpansion sixthCampaign stairGraph 6 2 ["entrance", "exp001.r0"]
      ["crypt"] twoHops).toOption.map Prod.fst) = some gallery := by decide +kernel
  obtain ⟨⟨exp, report⟩, hreport, rfl⟩ := Option.map_eq_some_iff.mp hgenerated
  have hattached : ((attachExpansion gallery).exec stairGraph).1 = .ok ⟨⟩ := by decide +kernel
  -- the only new shortcut, and what it is worth
  have hcomputed : let g := ((attachExpansion gallery).exec stairGraph).2
      (g.edges.zipIdx.all (fun p => !p.1.shortcut || p.2 < stairGraph.edges.length || p.2 = 17)) ∧
        shortcutGain g (g.distances g.entranceId none []) 17 = .ok 1 := by
    decide +kernel
  have hcontiguous := (Explored.attached explored_stairGraph (toOption_eq_some.mp hreport)
    (eq_of_fst_eq hattached)).contiguous
  refine ⟨explored_stairGraph, by decide +kernel, ⟨report, toOption_eq_some.mp hreport⟩, _,
    eq_of_fst_eq hattached, ?_⟩
  rintro ⟨places, -, henough, hworth⟩
  obtain ⟨i, hi⟩ := List.exists_mem_of_length_pos (show 0 < places.length by
    have htwo : (1 : Int) ≤ places.length := henough
    omega)
  obtain ⟨hold, hat, hshortens⟩ := hworth i hi
  obtain ⟨honly, hgain⟩ := hcomputed
  obtain rfl : i = 17 := by
    obtain ⟨e, he, hshortcut⟩ := hat
    have hplace := List.all_eq_true.mp honly (e, i) (List.mem_zipIdx_iff_getElem?.mpr he)
    simpa [hshortcut, not_lt.mpr hold] using hplace
  have htwo : (2 : Int) ≤ 1 := (le_gain_iff hcontiguous hat hgain 2).mpr hshortens
  simp at htwo

end Sidequest.Dungeon
