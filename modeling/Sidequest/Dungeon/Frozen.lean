import Mathlib.Tactic.Linarith
import Sidequest.Dungeon.Contiguous
import Sidequest.Lib.Hops
import Sidequest.Lib.Run

namespace Sidequest.Dungeon

open Lib Effect

/-!
# Scores are frozen

Expansions are attached and regions are scored, in any order and any number of times. A score that
was given stays, and it tells how far its region was from the entrance when it was given.

* `MapEvent`, `MapEvent.step` — the map as a system; what a raise leaves behind stays;
* `frozen_scores` — what holds in every run.
-/

/-! ### The map as a system -/

/-- The score of a region, if it has one. -/
def RegionGraph.score (graph : RegionGraph) (regionId : String) : Option ℚ :=
  (graph.nodes.get? regionId).bind RegionNode.depthScore

/-- What is done to the map. -/
inductive MapEvent where
  | attach (exp : Expansion)
  | assign (campaignSeed : Int) (config : DepthConfig)

variable (entropy : Entropy)

/-- The map after an event. -/
def MapEvent.step (graph : RegionGraph) : MapEvent → RegionGraph
  | .attach exp => ((attachExpansion exp).exec graph).2
  | .assign campaignSeed config => ((assignDepthScores entropy campaignSeed config).exec graph).2

/-- The regions of an expansion come without scores. -/
def Expansion.Unscored (exp : Expansion) : Prop := ∀ node ∈ exp.newNodes, node.depthScore = none

/-- An event attaches no region that has a score. -/
def MapEvent.Unscored : MapEvent → Prop
  | .attach exp => exp.Unscored
  | .assign _ _ => True

/-! ### What is generated -/

theorem yields_newNodes (expansionId : Int) (themePool : List String) (n : Nat) :
    Yields (newNodes expansionId themePool n) (fun l => ∀ node ∈ l, node.depthScore = none) := by
  have hnode : ∀ i, Yields (do
      let theme ← choice .emptySequence themePool
      pure { id := regionId expansionId i, expansionId := expansionId, theme := theme } :
        Drawing RegionNode) (·.depthScore = none) :=
    fun i => yields_bind (yields_any _) (fun _ _ => yields_pure rfl)
  refine (yields_mapM hnode (List.range n)).mono (fun l hl node hmem => ?_)
  obtain ⟨-, hfrom, -⟩ := hl
  obtain ⟨-, -, hnone⟩ := hfrom node hmem
  exact hnone

/-- **What is generated** comes without scores. -/
theorem unscored_of_generateExpansion {graph : RegionGraph} {campaignSeed expansionId : Int}
    {attachRegionIds themePool : List String} {config : JaquaysConfig} {exp : Expansion}
    {report : GenerationReport}
    (h : generateExpansion entropy graph campaignSeed expansionId attachRegionIds themePool config
      = .ok (exp, report)) : exp.Unscored := by
  unfold generateExpansion at h
  rw [bind_eq_ok] at h
  obtain ⟨-, -, h⟩ := h
  obtain ⟨⟨rng, rng', hbuild⟩, -⟩ := exists_of_reroll h
  have hyields : Yields (buildCandidate graph expansionId attachRegionIds themePool config)
      Expansion.Unscored := by
    refine yields_bind (yields_any _) (fun _ _ => yields_ite (fun _ => ?_) (fun _ => ?_))
    · exact yields_bind (Q := fun _ => False) (yields_throw _) (fun _ h => h.elim)
    · refine yields_bind (yields_any _) (fun _ _ => yields_bind (yields_any _) (fun n _ => ?_))
      refine yields_bind (yields_newNodes expansionId themePool n.toNat) (fun nodes hnodes => ?_)
      exact yields_bind (yields_any _) (fun _ _ => yields_pure hnodes)
  exact hyields rng exp rng' hbuild

/-! ### Attaching -/

/-- The entrance and all scores are what they were. -/
structure SameScores (graph graph' : RegionGraph) : Prop where
  entrance : graph'.entranceId = graph.entranceId
  score : ∀ r, graph'.score r = graph.score r

instance : IsPreorder RegionGraph SameScores where
  refl _ := ⟨rfl, fun _ => rfl⟩
  trans _ _ _ h h' := ⟨h'.entrance.trans h.entrance, fun r => (h'.score r).trans (h.score r)⟩

section Attaching

variable {exp : Expansion}

theorem sameScores_addNode {node : RegionNode} (hnode : node.depthScore = none) :
    Preserves SameScores (RegionGraph.addNode node) := by
  intro graph
  unfold RegionGraph.addNode
  rw [exec_get_bind]
  by_cases hknown : node.id ∈ graph.nodes.keys
  · rw [if_pos hknown, exec_throw]
    exact refl_of SameScores graph
  · rw [if_neg hknown, exec_set]
    refine ⟨rfl, fun r => ?_⟩
    show ((graph.nodes.insert node.id node).get? r).bind RegionNode.depthScore = graph.score r
    rw [Dict.get?_insert]
    by_cases hr : r = node.id
    · rw [if_pos hr, Option.bind_some, hnode]
      unfold RegionGraph.score
      rw [hr, Dict.get?_eq_none_iff.mpr hknown, Option.bind_none]
    · rw [if_neg hr]
      rfl

theorem sameScores_addEdge (edge : RegionEdge) :
    Preserves SameScores (RegionGraph.addEdge edge) := by
  intro graph
  unfold RegionGraph.addEdge
  rw [exec_get_bind]
  by_cases hloop : edge.a = edge.b
  · rw [dif_pos hloop]
    exact refl_of SameScores graph
  · rw [dif_neg hloop]
    by_cases ha : edge.a ∈ graph.nodes.keys
    · rw [dif_pos ha]
      by_cases hb : edge.b ∈ graph.nodes.keys
      · rw [dif_pos hb]
        exact ⟨rfl, fun _ => rfl⟩
      · rw [dif_neg hb]
        exact refl_of SameScores graph
    · rw [dif_neg ha]
      exact refl_of SameScores graph

theorem sameScores_applyExpansion (hexp : exp.Unscored) :
    Preserves SameScores (RegionGraph.applyExpansion exp) :=
  (preserves_forM_of_mem (fun node hnode => sameScores_addNode (hexp node hnode))).bind
    (fun _ => preserves_forM sameScores_addEdge _)

/-- **Attaching** an expansion, or failing to, gives and takes no scores. -/
theorem sameScores_attachExpansion (hexp : exp.Unscored) :
    Preserves SameScores (attachExpansion exp) := by
  unfold attachExpansion
  refine preserves_get.bind (fun _ => ?_)
  refine (sameScores_applyExpansion hexp).bind (fun _ => preserves_get.bind (fun graph => ?_))
  refine (preserves_ofExcept _).bind (fun connected => ?_)
  have hverified : ∀ (loops floor : Int) (e : GraphError), Preserves SameScores
      (if loops < floor then throw e else pure ⟨⟩ : Effect GraphError RegionGraph PUnit) :=
    fun _ _ _ => (preserves_throw _).ite (preserves_pure _)
  exact Preserves.ite ((preserves_ofExcept _).bind (fun _ => (preserves_throw _).bind
    (fun _ => hverified _ _ _))) (hverified _ _ _)

end Attaching

/-! ### Scoring -/

/-- A score within the jitter of what so many hops are worth, and above the surface. -/
structure Worth (config : DepthConfig) (hops : Nat) (score : ℚ) : Prop where
  near : |score - hops * config.depthPerHop| ≤ config.jitterMax
  pos : 0 < score

/-- The score a region is given on a map: nothing at the entrance, and elsewhere what its hops over
    ordinary edges are worth. -/
def RightScore (graph : RegionGraph) (config : DepthConfig) (r : String) (score : ℚ) : Prop :=
  (r = graph.entranceId → score = 0) ∧
    (r ≠ graph.entranceId → ∃ hops, Hops
      (RegionGraph.adjacent (graph.edges.filter RegionEdge.ordinary) none) graph.entranceId r hops ∧
      Worth config hops score)

/-- Scores stay, and what is scored now is scored right for the map as it is, by a valid
    configuration. -/
structure Freezes (config : DepthConfig) (graph graph' : RegionGraph) : Prop where
  entrance : graph'.entranceId = graph.entranceId
  score : ∀ r, graph'.score r = graph.score r ∨
    (graph.score r = none ∧ config.validate = .ok () ∧
      ∃ score, graph'.score r = some score ∧ RightScore graph config r score)

/-- A valid configuration has a jitter of less than a hop. -/
theorem DepthConfig.bounds_of_validate {config : DepthConfig} (h : config.validate = .ok ()) :
    0 ≤ config.jitterMax ∧ config.jitterMax < config.depthPerHop := by
  unfold DepthConfig.validate at h
  simp only [bind_eq_ok, refuse_eq_ok] at h
  obtain ⟨-, -, -, hneg, -, hlarge, -⟩ := h
  exact ⟨not_lt.mp hneg, not_le.mp hlarge⟩

variable (campaignSeed : Int)

theorem abs_depthJitter_le (regionId : String) {jitterMax : ℚ} (hmax : 0 ≤ jitterMax) :
    |depthJitter entropy campaignSeed regionId jitterMax| ≤ jitterMax := by
  unfold depthJitter
  by_cases hzero : jitterMax = 0
  · rw [if_pos hzero, abs_zero]
    exact hmax
  · rw [if_neg hzero]
    -- the digest is a fraction of one
    generalize entropy.blake2b (toString campaignSeed ++ "|depth|" ++ regionId) = digest
    have hlow : (0 : ℚ) ≤ ((digest.val : Nat) : ℚ) / 2 ^ 64 := by positivity
    have hhigh : ((digest.val : Nat) : ℚ) / 2 ^ 64 ≤ 1 := by
      rw [div_le_one (by positivity)]
      exact_mod_cast digest.isLt.le
    have hunit : |((digest.val : Nat) : ℚ) / 2 ^ 64 * 2 - 1| ≤ 1 := by
      rw [abs_le]
      constructor <;> linarith
    rw [abs_mul, abs_of_nonneg hmax]
    calc |((digest.val : Nat) : ℚ) / 2 ^ 64 * 2 - 1| * jitterMax
        ≤ 1 * jitterMax := mul_le_mul_of_nonneg_right hunit hmax
      _ = jitterMax := one_mul _

section Scoring

variable {graph : RegionGraph} {config : DepthConfig} {dist : Dict String Nat} {r : String}

/-- The distances a map is scored by are its hop distances over ordinary edges. -/
theorem hops_of_ordinaryRouteDist (h : graph.ordinaryRouteDist = .ok dist) {hops : Nat}
    (hget : dist.get? r = some hops) :
    Hops (RegionGraph.adjacent (graph.edges.filter RegionEdge.ordinary) none) graph.entranceId r
      hops := by
  unfold RegionGraph.ordinaryRouteDist at h
  rw [bind_eq_ok] at h
  obtain ⟨found, hfound, h⟩ := h
  dsimp only at h
  split at h
  · simp at h
  · cases h
    unfold RegionGraph.bfsDist at hfound
    split at hfound
    · rename_i hentrance
      cases hfound
      have hclosed : ∀ v ∈ graph.nodes.keys,
          ∀ w ∈ RegionGraph.adjacent (graph.edges.filter RegionEdge.ordinary) none v,
            w ∈ graph.nodes.keys := by
        intro v hv w hw
        have hlinked := mem_adjacent_iff.mp hw
        have hjoined : Joined graph.edges v w :=
          Joined.mono (Relation.ReflTransGen.single hlinked)
            (fun _ he => (List.mem_filter.mp he).1)
        exact RegionGraph.mem_keys_of_joined hv hjoined
      unfold RegionGraph.distances at hget
      rw [RegionGraph.keptEdges_offRoute] at hget
      exact (get?_bfs_iff hclosed hentrance r hops).mp hget
    · simp at hfound

theorem rightScore_of_depthScore (hvalid : config.validate = .ok ())
    (hdist : graph.ordinaryRouteDist = .ok dist) {score : ℚ}
    (h : depthScore entropy graph campaignSeed config dist r = .ok score) :
    RightScore graph config r score := by
  unfold depthScore at h
  by_cases hentrance : r = graph.entranceId
  · rw [if_pos hentrance] at h
    exact ⟨fun _ => (Except.ok.inj h).symm, fun hne => absurd hentrance hne⟩
  · rw [if_neg hentrance] at h
    cases hget : dist.get? r with
    | none =>
      rw [hget] at h
      simp at h
    | some hops =>
      rw [hget] at h
      cases h
      have hhops := hops_of_ordinaryRouteDist hdist hget
      obtain ⟨hnonneg, hless⟩ := DepthConfig.bounds_of_validate hvalid
      have hjitter := abs_depthJitter_le entropy campaignSeed r hnonneg
      refine ⟨fun heq => absurd heq hentrance, fun _ => ⟨hops, hhops, ?_, ?_⟩⟩
      · rw [add_sub_cancel_left]
        exact hjitter
      · -- the region is a hop away at least, which is more than the jitter
        have hone : (1 : ℚ) ≤ hops := by
          exact_mod_cast hhops.pos (fun heq => hentrance heq.symm)
        have hfar : config.depthPerHop ≤ hops * config.depthPerHop := by
          have hpos : (0 : ℚ) ≤ config.depthPerHop := by linarith
          calc config.depthPerHop = 1 * config.depthPerHop := (one_mul _).symm
            _ ≤ hops * config.depthPerHop := mul_le_mul_of_nonneg_right hone hpos
        have hlow := (abs_le.mp hjitter).1
        linarith

theorem score_withScore (graph : RegionGraph) (regionId : String) (score : ℚ) (r : String) :
    (graph.withScore regionId score).score r =
      if r = regionId then (graph.nodes.get? regionId).map (fun _ => score) else graph.score r := by
  unfold RegionGraph.score RegionGraph.withScore
  rw [Dict.get?_modify]
  by_cases hr : r = regionId
  · rw [if_pos hr, if_pos hr]
    cases graph.nodes.get? regionId with
    | none => rfl
    | some node => rfl
  · rw [if_neg hr, if_neg hr]

/-- A region that is to be scored has no score. -/
theorem score_of_mem_unscored (h : r ∈ graph.unscored) : graph.score r = none := by
  obtain ⟨p, hp, rfl⟩ := List.mem_map.mp h
  obtain ⟨hmem, hnone⟩ := List.mem_filter.mp hp
  unfold RegionGraph.score
  rw [Dict.get?_eq_some_iff.mpr hmem, Option.bind_some]
  exact of_decide_eq_true hnone

/-- Scoring one of the regions that had no score keeps what scoring has kept so far. -/
theorem freezes_scoreRegion (hvalid : config.validate = .ok ())
    (hdist : graph.ordinaryRouteDist = .ok dist) {regionId : String}
    (hregion : regionId ∈ graph.unscored) :
    Preserves (fun g g' => Freezes config graph g → Freezes config graph g')
      (scoreRegion entropy graph campaignSeed config dist regionId) := by
  intro g hg
  refine exec_ofExcept_bind_of hg (fun score hscore => ?_)
  show Freezes config graph (g.withScore regionId score)
  refine ⟨hg.entrance, fun r => ?_⟩
  rw [score_withScore]
  by_cases hr : r = regionId
  · rw [if_pos hr]
    have hnone : graph.score r = none := hr ▸ score_of_mem_unscored hregion
    cases hnode : g.nodes.get? regionId with
    | none =>
      left
      rw [hnone]
      rfl
    | some node =>
      right
      refine ⟨hnone, hvalid, score, rfl, ?_⟩
      rw [hr]
      exact rightScore_of_depthScore entropy campaignSeed hvalid hdist hscore
  · rw [if_neg hr]
    exact hg.score r

/-- **Scoring** freezes: also where it raises. -/
theorem freezes_assignDepthScores (config : DepthConfig) (graph : RegionGraph) :
    Freezes config graph ((assignDepthScores entropy campaignSeed config).exec graph).2 := by
  have hsame : Freezes config graph graph := ⟨rfl, fun _ => .inl rfl⟩
  refine exec_ofExcept_bind_of hsame (fun _ hvalid => ?_)
  rw [exec_get_bind]
  by_cases hnone : graph.unscored = []
  · rw [if_pos hnone]
    exact hsame
  · rw [if_neg hnone]
    refine exec_ofExcept_bind_of hsame (fun dist hdist => ?_)
    have : IsPreorder RegionGraph
        (fun g g' => Freezes config graph g → Freezes config graph g') :=
      { refl := fun _ h => h, trans := fun _ _ _ h h' hg => h' (h hg) }
    have hscores := preserves_mapM_of_mem (fun regionId hregion =>
      freezes_scoreRegion entropy campaignSeed hvalid hdist hregion)
    exact (hscores.bind (fun scores => preserves_pure (reportOf scores))) graph hsame

end Scoring

/-! ### Runs -/

section Runs

variable {graph : RegionGraph} {r : String} {score : ℚ}

/-- A region has got its score in the run: when it had none, by a valid configuration, and right
    for the map of that moment. -/
def ScoredRight (graph : RegionGraph) (es : List MapEvent) (r : String) (score : ℚ) : Prop :=
  ∃ before campaignSeed config after, es = before ++ .assign campaignSeed config :: after ∧
    config.validate = .ok () ∧
    (run (MapEvent.step entropy) graph before).score r = none ∧
    (run (MapEvent.step entropy) graph (before ++ [.assign campaignSeed config])).score r
      = some score ∧
    RightScore (run (MapEvent.step entropy) graph before) config r score

theorem entranceId_step (graph : RegionGraph) {e : MapEvent} (he : e.Unscored) :
    (e.step entropy graph).entranceId = graph.entranceId := by
  cases e with
  | attach exp => exact (sameScores_attachExpansion he graph).entrance
  | assign campaignSeed config =>
    exact (freezes_assignDepthScores entropy campaignSeed config graph).entrance

/-- **A score stays** in every step. -/
theorem score_step (h : graph.score r = some score) {e : MapEvent} (he : e.Unscored) :
    (e.step entropy graph).score r = some score := by
  cases e with
  | attach exp =>
    show (((attachExpansion exp).exec graph).2).score r = some score
    rw [(sameScores_attachExpansion he graph).score r]
    exact h
  | assign campaignSeed config =>
    rcases (freezes_assignDepthScores entropy campaignSeed config graph).score r with hsame | hnew
    · show (((assignDepthScores entropy campaignSeed config).exec graph).2).score r = some score
      rw [hsame]
      exact h
    · rw [hnew.1] at h
      simp at h

theorem score_run {es : List MapEvent} (hes : ∀ e ∈ es, e.Unscored)
    (h : graph.score r = some score) :
    (run (MapEvent.step entropy) graph es).score r = some score := by
  induction es generalizing graph with
  | nil => exact h
  | cons e es ih =>
    have hnext := score_step entropy h (hes e (.head _))
    exact ih (fun e' he' => hes e' (.tail e he')) hnext

theorem entranceId_run {es : List MapEvent} (hes : ∀ e ∈ es, e.Unscored) :
    (run (MapEvent.step entropy) graph es).entranceId = graph.entranceId := by
  induction es generalizing graph with
  | nil => rfl
  | cons e es ih =>
    rw [run_cons, ih (fun e' he' => hes e' (.tail e he'))]
    exact entranceId_step entropy graph (hes e (.head _))

/-- Every score was given in the run, or was there when it began. -/
theorem scoredRight_of_run {es : List MapEvent} (hes : ∀ e ∈ es, e.Unscored)
    (h : (run (MapEvent.step entropy) graph es).score r = some score) :
    graph.score r = some score ∨ ScoredRight entropy graph es r score := by
  induction es generalizing graph with
  | nil => exact .inl h
  | cons e es ih =>
    have htail : ∀ e' ∈ es, e'.Unscored := fun e' he' => hes e' (.tail e he')
    rcases ih htail h with hstep | ⟨before, campaignSeed, config, after, hsplit, hgiven⟩
    · -- the score was there after the first event
      cases e with
      | attach exp =>
        left
        rw [← (sameScores_attachExpansion (hes _ (.head _)) graph).score r]
        exact hstep
      | assign campaignSeed config =>
        rcases (freezes_assignDepthScores entropy campaignSeed config graph).score r with
          hsame | ⟨hnone, hvalid, score', hscore', hright⟩
        · left
          rw [← hsame]
          exact hstep
        · right
          obtain rfl : score' = score := Option.some.inj (hscore'.symm.trans hstep)
          exact ⟨[], campaignSeed, config, es, rfl, hvalid, hnone, hstep, hright⟩
    · right
      refine ⟨e :: before, campaignSeed, config, after, ?_, hgiven⟩
      rw [hsplit]
      rfl

/-- **Scores are frozen.** From a map without scores a score never changes; the entrance's is 0, and
    others were given within the jitter of their hops on the map of that moment. -/
theorem frozen_scores (hgraph : ∀ r, graph.score r = none) {es : List MapEvent}
    (hes : ∀ e ∈ es, e.Unscored) (r : String) (score : ℚ) : (∀ before after, es = before ++ after →
      (run (MapEvent.step entropy) graph before).score r = some score →
        (run (MapEvent.step entropy) graph es).score r = some score) ∧
    ((run (MapEvent.step entropy) graph es).score r = some score →
      ScoredRight entropy graph es r score ∧ (r = graph.entranceId → score = 0) ∧
        (r ≠ graph.entranceId → 0 < score)) := by
  constructor
  · intro before after hsplit hscore
    have hafter : ∀ e ∈ after, e.Unscored := by
      intro e he
      apply hes
      rw [hsplit]
      exact List.mem_append_right before he
    have hrun : run (MapEvent.step entropy) graph es =
        run (MapEvent.step entropy) (run (MapEvent.step entropy) graph before) after := by
      rw [hsplit]
      exact List.foldl_append
    rw [hrun]
    exact score_run entropy hafter hscore
  · intro hscore
    rcases scoredRight_of_run entropy hes hscore with hold | hgiven
    · rw [hgraph r] at hold
      simp at hold
    · refine ⟨hgiven, ?_⟩
      obtain ⟨before, campaignSeed, config, after, hsplit, -, -, -, hright⟩ := hgiven
      have hbefore : ∀ e ∈ before, e.Unscored := by
        intro e he
        apply hes
        rw [hsplit]
        exact List.mem_append_left _ he
      unfold RightScore at hright
      rw [entranceId_run entropy hbefore] at hright
      refine ⟨hright.1, fun hne => ?_⟩
      obtain ⟨hops, -, hworth⟩ := hright.2 hne
      exact hworth.pos

end Runs

/-- A region behind the entrance, with two ways to it. -/
def closet : Expansion where
  expansionId := 1
  newNodes := [{ id := "closet", expansionId := 1, theme := "crypt" }]
  newEdges := [{ a := "entrance", b := "closet", kind := "corridor" },
    { a := "entrance", b := "closet", kind := "chute" }]

/-- The entrance is scored, then the region is attached and scored, and scored again. -/
def closetEvents : List MapEvent := [.assign 1 {}, .attach closet, .assign 1 {}, .assign 2 {}]

/-- The region behind the entrance is a hop away, less the jitter. -/
theorem score_closet :
    (run (MapEvent.step risingDraws) (seedGraph cryptEntrance) closetEvents).score "closet"
        = some 7 ∧
      ScoredRight risingDraws (seedGraph cryptEntrance) closetEvents "closet" 7 ∧ (0 : ℚ) < 7 := by
  have hscore : (run (MapEvent.step risingDraws) (seedGraph cryptEntrance) closetEvents).score
      "closet" = some 7 := by
    decide +kernel
  have hgraph : ∀ r, (seedGraph cryptEntrance).score r = none := by
    intro r
    by_cases hr : r = "entrance"
    · rw [hr]
      decide
    · have hget : (seedGraph cryptEntrance).nodes.get? r = none := by
        rw [Dict.get?_eq_none_iff]
        show r ∉ ["entrance"]
        simpa using hr
      unfold RegionGraph.score
      rw [hget, Option.bind_none]
  have hes : ∀ e ∈ closetEvents, e.Unscored := by
    intro e he
    simp only [closetEvents, List.mem_cons, List.not_mem_nil, or_false] at he
    rcases he with rfl | rfl | rfl | rfl
    · trivial
    · intro node hnode
      rw [List.mem_singleton.mp hnode]
    · trivial
    · trivial
  obtain ⟨hgiven, -, hpos⟩ := (frozen_scores risingDraws hgraph hes "closet" 7).2 hscore
  exact ⟨hscore, hgiven, hpos (by decide)⟩

end Sidequest.Dungeon
