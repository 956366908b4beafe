import Sidequest.Dungeon.Leftover
import Sidequest.World.BoundedSite

namespace Sidequest.Dungeon

open Lib Effect

/-!
# Placing an expansion

What the map is once an expansion was put on it and scored, to the last field of each region. A
score goes by the entrance, the edges and the id of the region; what the region is themed does not
matter for it.

* `Inserted.of_ok` — attaching that returns has added all regions and edges;
* `cases_of_materialize` — a materialization has run, or has raised and left the tables.
-/

/-! ### Attaching -/

variable {node : RegionNode} {edges : List RegionEdge}

section Attaching

variable {exp : Expansion} {graph graph' : RegionGraph}

/-- Applying that returns has added everything. -/
theorem Inserted.of_applied {u : PUnit}
    (h : (RegionGraph.applyExpansion exp).exec graph = (.ok u, graph')) :
    Inserted exp.newNodes exp.newEdges graph graph' := by
  unfold RegionGraph.applyExpansion at h
  obtain ⟨v, withNodes, hnodes, hedges⟩ := exists_of_exec_bind h
  obtain ⟨hinsertedNodes, hallNodes⟩ := exec_forM_addNode exp.newNodes graph
  rw [hnodes] at hinsertedNodes hallNodes
  rw [hallNodes.mp rfl] at hinsertedNodes
  obtain ⟨hinsertedEdges, hallEdges⟩ := exec_forM_addEdge exp.newEdges withNodes
  rw [hedges] at hinsertedEdges hallEdges
  rw [hallEdges.mp rfl] at hinsertedEdges
  exact hinsertedNodes.trans hinsertedEdges

/-- Attaching that returns has added everything; the checks after it only read the map. -/
theorem Inserted.of_ok {u : PUnit} (h : (attachExpansion exp).exec graph = (.ok u, graph')) :
    Inserted exp.newNodes exp.newEdges graph graph' := by
  have hstate := congrArg Prod.snd h
  unfold attachExpansion at h
  rw [exec_get_bind] at h
  obtain ⟨v, post, happly, -⟩ := exists_of_exec_bind h
  have hinserted := Inserted.of_applied happly
  -- every round of the checks leaves the map as it was applied
  have hsame : ((attachExpansion exp).exec graph).2 = post := by
    have hread : ∀ {m : Effect GraphError RegionGraph PUnit}, Preserves Eq m →
        (m.exec post).2 = post := fun hm => (hm post).symm
    have hverified : ∀ (loops floor : Int) (e : GraphError), Preserves Eq
        (if loops < floor then throw e else pure ⟨⟩ : Effect GraphError RegionGraph PUnit) :=
      fun _ _ _ => (preserves_throw _).ite (preserves_pure _)
    unfold attachExpansion
    rw [exec_get_bind, exec_bind, happly]
    refine hread (preserves_get.bind (fun _ => (preserves_ofExcept _).bind (fun _ => ?_)))
    exact Preserves.ite ((preserves_ofExcept _).bind (fun _ => (preserves_throw _).bind
      (fun _ => hverified _ _ _))) (hverified _ _ _)
  have hpost : post = graph' := hsame.symm.trans hstate
  rw [← hpost]
  exact hinserted

theorem Inserted.get?_old {nodes : List RegionNode} (h : Inserted nodes edges graph graph')
    {id : String} (hnode : graph.nodes.get? id = some node) : graph'.nodes.get? id = some node := by
  rw [Dict.get?_eq_some_iff] at hnode ⊢
  rw [h.nodes]
  exact List.mem_append_left _ hnode

theorem Inserted.get?_new {nodes : List RegionNode} (h : Inserted nodes edges graph graph')
    (hnode : node ∈ nodes) : graph'.nodes.get? node.id = some node := by
  rw [Dict.get?_eq_some_iff, h.nodes]
  exact List.mem_append_right _ (List.mem_map_of_mem hnode)

end Attaching

/-! ### Scoring -/

section Scoring

variable (entropy : Entropy) (campaignSeed : Int)

/-- A loop that scores regions and returns has scored each of them, and has changed nothing else. -/
theorem exec_mapM_scoreRegion {graph : RegionGraph} {config : DepthConfig} {dist : Dict String Nat}
    {l : List String} {g g' : RegionGraph} {scores : List ℚ}
    (h : (l.mapM (scoreRegion entropy graph campaignSeed config dist)).exec g = (.ok scores, g')) :
    SameShape g g' ∧
      (∀ r ∈ l, ∃ score, depthScore entropy graph campaignSeed config dist r = .ok score ∧
        g'.nodes.get? r = (g.nodes.get? r).map
          (fun node => { node with depthScore := some score })) ∧
      ∀ r ∉ l, g'.nodes.get? r = g.nodes.get? r := by
  induction l generalizing g scores with
  | nil =>
    obtain rfl : g = g' := congrArg Prod.snd h
    exact ⟨⟨rfl, rfl, rfl⟩, fun r hr => by simp at hr, fun r _ => rfl⟩
  | cons first l ih =>
    rw [List.mapM_cons] at h
    obtain ⟨score, next, hfirst, hrest⟩ := exists_of_exec_bind h
    obtain ⟨rest, last, hloop, hlast⟩ := exists_of_exec_bind hrest
    obtain rfl : last = g' := congrArg Prod.snd hlast
    obtain ⟨hshape, hscored, hother⟩ := ih hloop
    -- what the round of the first region does
    have hround : depthScore entropy graph campaignSeed config dist first = .ok score ∧
        next = g.withScore first score := by
      unfold scoreRegion at hfirst
      cases hdepth : depthScore entropy graph campaignSeed config dist first with
      | error e =>
        rw [hdepth] at hfirst
        exact absurd (congrArg Prod.fst hfirst) (by simp [ofExcept])
      | ok s =>
        rw [hdepth, exec_ofExcept_ok_bind, exec_modify_bind, exec_pure] at hfirst
        obtain ⟨hscore, hnext⟩ := Prod.mk.inj hfirst
        cases hscore
        exact ⟨rfl, hnext.symm⟩
    obtain ⟨hdepth, rfl⟩ := hround
    have hget : ∀ r, (g.withScore first score).nodes.get? r =
        if r = first then (g.nodes.get? first).map
          (fun node => { node with depthScore := some score }) else g.nodes.get? r := by
      intro r
      show (g.nodes.modify first _).get? r = _
      rw [Dict.get?_modify]
    refine ⟨⟨hshape.entrance, ?_, hshape.edges⟩, ?_, ?_⟩
    · rw [hshape.keys]
      exact Dict.keys_modify _ _ _
    · intro r hr
      by_cases hagain : r ∈ l
      · obtain ⟨s, hs, hg⟩ := hscored r hagain
        refine ⟨s, hs, ?_⟩
        rw [hg, hget]
        by_cases hr : r = first
        · subst hr
          rw [if_pos rfl, Option.map_map]
          rfl
        · rw [if_neg hr]
      · have hfirst : r = first := (List.mem_cons.mp hr).resolve_right hagain
        refine ⟨score, hfirst ▸ hdepth, ?_⟩
        rw [hother r hagain, hget, if_pos hfirst, hfirst]
    · intro r hr
      rw [List.mem_cons, not_or] at hr
      rw [hother r hr.2, hget, if_neg hr.1]

theorem mem_unscored_iff {graph : RegionGraph} {r : String} (hnode : graph.nodes.get? r = some node) :
    r ∈ graph.unscored ↔ node.depthScore = none := by
  constructor
  · intro hr
    have hnone := score_of_mem_unscored hr
    unfold RegionGraph.score at hnone
    rw [hnode] at hnone
    exact hnone
  · intro hnone
    refine List.mem_map.mpr ⟨(r, node), List.mem_filter.mpr ⟨?_, decide_eq_true hnone⟩, rfl⟩
    exact Dict.get?_eq_some_iff.mp hnode

/-- What so many hops from the entrance are worth for a region. -/
def depthWorth (regionId : String) (hops : Nat) : ℚ :=
  hops * ({} : DepthConfig).depthPerHop +
    depthJitter entropy campaignSeed regionId ({} : DepthConfig).jitterMax

/-- The score of a region on a map with this entrance and these edges: the entrance is the origin,
    and any other region is worth its hops over ordinary edges. -/
def WorthAt (entrance : String) (edges : List RegionEdge) (regionId : String) (score : ℚ) : Prop :=
  (regionId = entrance ∧ score = 0) ∨
    (regionId ≠ entrance ∧ ∃ hops,
      Hops (RegionGraph.adjacent (edges.filter RegionEdge.ordinary) none) entrance regionId hops ∧
        score = depthWorth entropy campaignSeed regionId hops)

variable {entropy campaignSeed}

theorem WorthAt.unique {entrance : String} {regionId : String} {score score' : ℚ}
    (h : WorthAt entropy campaignSeed entrance edges regionId score)
    (h' : WorthAt entropy campaignSeed entrance edges regionId score') : score = score' := by
  rcases h with ⟨hentrance, rfl⟩ | ⟨hne, hops, hhops, rfl⟩
  · rcases h' with ⟨-, rfl⟩ | ⟨hne, -⟩
    · rfl
    · exact absurd hentrance hne
  · rcases h' with ⟨hentrance, -⟩ | ⟨-, hops', hhops', rfl⟩
    · exact absurd hentrance hne
    · rw [hhops.unique hhops']

theorem worthAt_of_depthScore {graph : RegionGraph} {dist : Dict String Nat} {r : String} {score : ℚ}
    (hdist : graph.ordinaryRouteDist = .ok dist)
    (h : depthScore entropy graph campaignSeed {} dist r = .ok score) :
    WorthAt entropy campaignSeed graph.entranceId graph.edges r score := by
  unfold depthScore at h
  by_cases hentrance : r = graph.entranceId
  · rw [if_pos hentrance] at h
    exact .inl ⟨hentrance, (Except.ok.inj h).symm⟩
  · rw [if_neg hentrance] at h
    cases hget : dist.get? r with
    | none =>
      rw [hget] at h
      simp at h
    | some hops =>
      rw [hget] at h
      exact .inr ⟨hentrance, hops, hops_of_ordinaryRouteDist hdist hget, (Except.ok.inj h).symm⟩

/-- A region as it is once all regions are scored: a score stays, and a new one is what the region
    is worth. -/
structure Scored (entropy : Entropy) (campaignSeed : Int) (graph graph' : RegionGraph)
    (node : RegionNode) (score : ℚ) : Prop where
  live : graph'.nodes.get? node.id = some { node with depthScore := some score }
  kept : ∀ frozen, node.depthScore = some frozen → score = frozen
  worth : node.depthScore = none →
    WorthAt entropy campaignSeed graph.entranceId graph.edges node.id score

/-- **Scoring that returns** scores every region. -/
theorem scored_of_assignDepthScores {graph graph' : RegionGraph} {report : DepthReport}
    (h : (assignDepthScores entropy campaignSeed {}).exec graph = (.ok report, graph')) :
    SameShape graph graph' ∧ ∀ id node, graph.nodes.get? id = some node →
      ∃ score, Scored entropy campaignSeed graph graph' node score := by
  have hid : ∀ id node, graph.nodes.get? id = some node → node.id = id :=
    fun id node hnode => graph.keyed (id, node) (Dict.get?_eq_some_iff.mp hnode)
  obtain ⟨u, g, hvalid, h⟩ := exists_of_exec_bind h
  obtain rfl : graph = g := congrArg Prod.snd hvalid
  rw [exec_get_bind] at h
  by_cases hnone : graph.unscored = []
  · -- there is nothing to score
    rw [if_pos hnone] at h
    obtain rfl : graph = graph' := congrArg Prod.snd h
    refine ⟨⟨rfl, rfl, rfl⟩, fun id node hnode => ?_⟩
    obtain rfl := hid id node hnode
    have hscored : node.depthScore ≠ none := by
      rw [ne_eq, ← mem_unscored_iff hnode, hnone]
      exact List.not_mem_nil
    obtain ⟨score, hscore⟩ := Option.ne_none_iff_exists'.mp hscored
    refine ⟨score, ?_, fun frozen hfrozen => ?_, fun hunscored => absurd hunscored hscored⟩
    · rw [hnode, ← hscore]
    · exact Option.some.inj (hscore.symm.trans hfrozen)
  · rw [if_neg hnone] at h
    obtain ⟨dist, g, hdist, h⟩ := exists_of_exec_bind h
    obtain ⟨scores, last, hloop, hlast⟩ := exists_of_exec_bind h
    obtain rfl : last = graph' := congrArg Prod.snd hlast
    have hroute : graph.ordinaryRouteDist = .ok dist ∧ g = graph := by
      cases hd : graph.ordinaryRouteDist with
      | error e =>
        rw [hd] at hdist
        exact absurd (congrArg Prod.fst hdist) (by simp [ofExcept])
      | ok d =>
        rw [hd] at hdist
        obtain ⟨hsame, hstate⟩ := Prod.mk.inj hdist
        exact ⟨congrArg Except.ok (Except.ok.inj hsame), hstate.symm⟩
    -- an unscored region gets its worth, and a scored one keeps its score
    obtain ⟨hroute, rfl⟩ := hroute
    obtain ⟨hshape, hin, hout⟩ := exec_mapM_scoreRegion entropy campaignSeed hloop
    refine ⟨hshape, fun id node hnode => ?_⟩
    obtain rfl := hid id node hnode
    by_cases hr : node.id ∈ g.unscored
    · obtain ⟨score, hdepth, hlive⟩ := hin node.id hr
      refine ⟨score, ?_, fun frozen hfrozen => ?_, fun _ => ?_⟩
      · rw [hlive, hnode]
        rfl
      · rw [(mem_unscored_iff hnode).mp hr] at hfrozen
        simp at hfrozen
      · exact worthAt_of_depthScore hroute hdepth
    · have hscored : node.depthScore ≠ none := fun hnone => hr ((mem_unscored_iff hnode).mpr hnone)
      obtain ⟨score, hscore⟩ := Option.ne_none_iff_exists'.mp hscored
      refine ⟨score, ?_, fun frozen hfrozen => ?_, fun hunscored => absurd hunscored hscored⟩
      · rw [hout node.id hr, hnode, ← hscore]
      · exact Option.some.inj (hscore.symm.trans hfrozen)

end Scoring

/-! ### Placing -/

section Placing

variable {entropy : Entropy} {request : MaterializationRequest} {exp : Expansion}
  {graph graph' : RegionGraph}

/-- A map with an expansion on it: its regions are those that were there and those of the expansion,
    all of them scored. -/
structure Placed (entropy : Entropy) (campaignSeed : Int) (exp : Expansion)
    (graph graph' : RegionGraph) : Prop where
  entrance : graph'.entranceId = graph.entranceId
  keys : graph'.nodes.keys = graph.nodes.keys ++ exp.newNodes.map (·.id)
  edges : graph'.edges = graph.edges ++ exp.newEdges
  old : ∀ id node, graph.nodes.get? id = some node →
    ∃ score, Scored entropy campaignSeed graph' graph' node score
  new : ∀ node ∈ exp.newNodes, ∃ score, Scored entropy campaignSeed graph' graph' node score

/-- **Placing that returns** puts all of an expansion on the map, and scores it. -/
theorem placed_of_placeExpansion {report : DepthReport}
    (h : (placeExpansion entropy request exp).exec graph = (.ok report, graph')) :
    Placed entropy request.campaignSeed exp graph graph' := by
  unfold placeExpansion at h
  obtain ⟨u, post, hattach, hassign⟩ := exists_of_exec_bind h
  have hinserted := Inserted.of_ok hattach
  obtain ⟨hshape, hscored⟩ := scored_of_assignDepthScores hassign
  -- what a region is worth is read off the map before it was scored, which has the same edges
  have hworth : ∀ node score, Scored entropy request.campaignSeed post graph' node score →
      Scored entropy request.campaignSeed graph' graph' node score := fun node score hs =>
    ⟨hs.live, hs.kept, fun hnone => by
      rw [hshape.entrance, hshape.edges]
      exact hs.worth hnone⟩
  constructor
  · exact hshape.entrance.trans hinserted.entrance
  · rw [hshape.keys, hinserted.keys]
  · rw [hshape.edges, hinserted.edges]
  · intro id node hnode
    obtain ⟨score, hs⟩ := hscored id node (hinserted.get?_old hnode)
    exact ⟨score, hworth node score hs⟩
  · intro node hnode
    obtain ⟨score, hs⟩ := hscored node.id node (hinserted.get?_new hnode)
    exact ⟨score, hworth node score hs⟩

variable {campaignSeed : Int}

theorem Scored.score_eq {graph : RegionGraph} {score : ℚ}
    (h : Scored entropy campaignSeed graph graph' node score) :
    graph'.score node.id = some score := by
  unfold RegionGraph.score
  rw [h.live]
  rfl

/-- A region that is on the map, or new, keeps all but its score. -/
theorem Placed.mem_keys_iff (h : Placed entropy campaignSeed exp graph graph') {r : String} :
    r ∈ graph'.nodes.keys ↔ r ∈ graph.nodes.keys ∨ ∃ node ∈ exp.newNodes, node.id = r := by
  rw [h.keys, List.mem_append, List.mem_map]

/-- **Themes do not matter for scores**: expansions with the same edges and ids leave the same
    scores. -/
theorem Placed.score_congr {exp' : Expansion} {graph'' : RegionGraph}
    (h : Placed entropy campaignSeed exp graph graph')
    (h' : Placed entropy campaignSeed exp' graph graph'')
    (hids : exp'.newNodes.map (·.id) = exp.newNodes.map (·.id))
    (hedges : exp'.newEdges = exp.newEdges) (hexp : exp.Unscored) (hexp' : exp'.Unscored)
    (r : String) : graph''.score r = graph'.score r := by
  have hentrance : graph''.entranceId = graph'.entranceId := h'.entrance.trans h.entrance.symm
  have hways : graph''.edges = graph'.edges := by rw [h'.edges, h.edges, hedges]
  by_cases hr : r ∈ graph'.nodes.keys
  · rcases h.mem_keys_iff.mp hr with hold | ⟨node, hnode, rfl⟩
    · -- a region that was there before
      obtain ⟨node, hget⟩ := Dict.mem_keys_iff_get?.mp hold
      obtain rfl : node.id = r := graph.keyed (r, node) (Dict.get?_eq_some_iff.mp hget)
      obtain ⟨score, hs⟩ := h.old _ node hget
      obtain ⟨score', hs'⟩ := h'.old _ node hget
      rw [hs.score_eq, hs'.score_eq]
      cases hfrozen : node.depthScore with
      | some frozen => rw [hs.kept frozen hfrozen, hs'.kept frozen hfrozen]
      | none =>
        have hworth' := hs'.worth hfrozen
        rw [hentrance, hways] at hworth'
        rw [hworth'.unique (hs.worth hfrozen)]
    · -- a region of the expansion, and the one of its id in the other
      obtain ⟨node', hnode', hid⟩ : ∃ node' ∈ exp'.newNodes, node'.id = node.id := by
        rw [← List.mem_map, hids]
        exact List.mem_map_of_mem hnode
      obtain ⟨score, hs⟩ := h.new node hnode
      obtain ⟨score', hs'⟩ := h'.new node' hnode'
      have hworth' := hs'.worth (hexp' node' hnode')
      rw [hentrance, hways, hid] at hworth'
      rw [hs.score_eq, ← hid, hs'.score_eq, hworth'.unique (hs.worth (hexp node hnode))]
  · -- no region of either map
    have hr' : r ∉ graph''.nodes.keys := by
      rw [h'.keys, hids, ← h.keys]
      exact hr
    unfold RegionGraph.score
    rw [Dict.get?_eq_none_iff.mpr hr, Dict.get?_eq_none_iff.mpr hr']

end Placing

/-! ### What is designed -/

section Design

variable {entropy : Entropy} {palette : ThemePalette} {request : MaterializationRequest}

/-- A region whose theme is resolved: nothing but its theme changes, to one that fits its depth. -/
structure Rethemed (palette : ThemePalette) (graph : RegionGraph) (original node : RegionNode)
    (depth : ℚ) : Prop where
  same : node = { original with theme := node.theme }
  scored : graph.score original.id = some depth
  fits : (∃ live theme, graph.nodes.get? original.id = some live ∧
      palette.get? live.theme = some theme ∧ themeEligibleAtDepth theme depth = true ∧
        node.theme = original.theme) ∨
    ∃ theme ∈ themesForDepth palette depth, node.theme = theme.id

theorem rethemed_of_resolveTheme {graph : RegionGraph} {original : RegionNode}
    (h : resolveTheme entropy palette request graph original = .ok node) :
    ∃ depth, Rethemed palette graph original node depth := by
  unfold resolveTheme at h
  cases hlive : graph.nodes.get? original.id with
  | none =>
    rw [hlive] at h
    simp at h
  | some live =>
    rw [hlive] at h
    dsimp only at h
    cases hdepth : live.depthScore with
    | none =>
      rw [hdepth] at h
      simp at h
    | some depth =>
      rw [hdepth] at h
      have hscore : graph.score original.id = some depth := by
        unfold RegionGraph.score
        rw [hlive]
        exact hdepth
      refine ⟨depth, ?_⟩
      cases htheme : palette.get? live.theme with
      | none =>
        rw [htheme] at h
        simp at h
      | some current =>
        rw [htheme] at h
        dsimp only at h
        by_cases hfits : themeEligibleAtDepth current depth = true
        · rw [if_pos hfits] at h
          cases h
          exact ⟨rfl, hscore, .inl ⟨live, current, hlive, htheme, hfits, rfl⟩⟩
        · rw [if_neg hfits] at h
          split at h
          · simp at h
          · rename_i theme hpick
            cases h
            exact ⟨rfl, hscore, .inr ⟨theme, List.mem_of_getElem? hpick, rfl⟩⟩

/-- An expansion that comes out of a design stage: generated, placed on a copy of the map, its
    themes resolved there. -/
def Designed (entropy : Entropy) (palette : ThemePalette) (request : MaterializationRequest)
    (graph probe : RegionGraph) (exp : Expansion) : Prop :=
  ∃ generated themePool config report placed newNodes,
    generateExpansion entropy graph request.campaignSeed request.expansionId request.attachRegionIds
      themePool config = .ok (generated, report) ∧
    (placeExpansion entropy request generated).exec graph = (.ok placed, probe) ∧
    generated.newNodes.mapM (resolveTheme entropy palette request probe) = .ok newNodes ∧
    exp = { generated with newNodes := newNodes }

theorem designed_of_stageDesignWith {graph : RegionGraph} {config : JaquaysConfig} {exp : Expansion}
    (h : World.stageDesignWith entropy palette request config graph = .ok exp) :
    ∃ probe, Designed entropy palette request graph probe exp := by
  unfold World.stageDesignWith at h
  dsimp only at h
  split at h
  · simp at h
  · split at h
    · simp at h
    · rename_i generated report hgenerated
      split at h
      · simp at h
      · rename_i placed probe hplace
        obtain ⟨newNodes, hresolve, hexp⟩ := bind_eq_ok.mp h
        exact ⟨probe, generated, _, _, report, placed, newNodes, hgenerated, hplace, hresolve,
          (Except.ok.inj hexp).symm⟩

theorem Designed.forall₂ {graph probe : RegionGraph} {exp : Expansion}
    (h : Designed entropy palette request graph probe exp) :
    ∃ generated report, (placeExpansion entropy request generated).exec graph = (.ok report, probe) ∧
      generated.Unscored ∧ exp.newEdges = generated.newEdges ∧
      List.Forall₂ (fun original node => ∃ depth, Rethemed palette probe original node depth)
        generated.newNodes exp.newNodes := by
  obtain ⟨generated, _, _, _, report, newNodes, hgenerated, hplace, hresolve, rfl⟩ := h
  refine ⟨generated, report, hplace, unscored_of_generateExpansion entropy hgenerated, rfl, ?_⟩
  exact (mapM_eq_ok_iff.mp hresolve).imp (fun _ _ hnode => rethemed_of_resolveTheme hnode)

/-- What is designed comes without scores. -/
theorem Designed.unscored {graph probe : RegionGraph} {exp : Expansion}
    (h : Designed entropy palette request graph probe exp) : exp.Unscored := by
  obtain ⟨generated, report, -, hunscored, -, hnodes⟩ := h.forall₂
  intro node hnode
  obtain ⟨original, horiginal, depth, hrethemed⟩ := exists_of_forall₂ hnodes hnode
  rw [hrethemed.same]
  exact hunscored original horiginal

end Design

/-! ### Materializations -/

section Stages

variable {F : Type} {m : Materializer F} {request : MaterializationRequest} {c c' : Campaign}

/-- A run has prepared, placed, attached and committed, one after another, and each of these
    returned. -/
def Ran (m : Materializer F) (request : MaterializationRequest) (c c' : Campaign)
    (prepared : Prepared F) : Prop :=
  m.prepare request c = .ok prepared ∧
    (∃ report, (placeExpansion m.entropy request prepared.expansion).exec c.graph =
      (.ok report, c'.graph)) ∧
    ∃ reports s emit, (m.attaching request prepared c'.graph).exec c.attaching = (.ok reports, s) ∧
      (m.committing request prepared c'.graph s).exec (c.putAttaching s).tables =
        (.ok emit, c'.tables)

variable {prepared : Prepared F}

/-- A transaction that returns has run. -/
theorem ran_of_transaction (hprepare : m.prepare request c = .ok prepared)
    {emit : Option String × List (String × String)}
    (h : (transaction (m.attachAndCommit request prepared)).exec c = (.ok emit, c')) :
    Ran m request c c' prepared := by
  rcases hplace : (placeExpansion m.entropy request prepared.expansion).exec c.graph
    with ⟨cause | report, graph⟩
  · have hraised : (m.attachAndCommit request prepared).exec c =
        (.error (.graph cause), { c with graph := graph }) := by
      unfold Materializer.attachAndCommit Materializer.stageAttach
      rw [exec_bind, exec_bind, exec_zoom, exec_adapt, hplace]
    rw [Materializer.exec_transaction, hraised] at h
    simp at h
  · rw [Materializer.exec_transaction, Materializer.exec_attachAndCommit m request hplace] at h
    rcases hattach : (m.attaching request prepared graph).exec c.attaching with ⟨e | reports, s⟩
    · rw [hattach] at h
      simp at h
    · rw [hattach] at h
      dsimp only at h
      rw [exec_zoom] at h
      rcases hcommit : (m.committing request prepared graph s).exec (c.putAttaching s).tables
        with ⟨e | emit', tables⟩
      · have hraised : (m.committing request prepared graph s).exec
            ({ c with graph := graph }.putAttaching s).tables = (.error e, tables) := hcommit
        rw [hraised] at h
        simp at h
      · have hreturned : (m.committing request prepared graph s).exec
            ({ c with graph := graph }.putAttaching s).tables = (.ok emit', tables) := hcommit
        rw [hreturned] at h
        obtain ⟨-, rfl⟩ := Prod.mk.inj h
        exact ⟨hprepare, ⟨report, hplace⟩, reports, s, emit', hattach, hcommit⟩

/-- **A materialization** has run, or it has raised and left the tables; both have grown where only
    room files fail. -/
theorem cases_of_materialize {x : Except MaterializeError Unit}
    (h : (m.materialize request).exec c = (x, c')) :
    ((∃ e, x = .error e) ∧ c'.tables = c.tables) ∨ ∃ prepared, Ran m request c c' prepared := by
  unfold Materializer.materialize at h
  rw [exec_get_bind] at h
  cases hprepare : m.prepare request c with
  | error e =>
    rw [hprepare] at h
    cases h
    exact .inl ⟨⟨e, rfl⟩, rfl⟩
  | ok prepared =>
    rw [hprepare, exec_ofExcept_ok_bind, exec_bind] at h
    rcases htransaction : (transaction (m.attachAndCommit request prepared)).exec c
      with ⟨e | emit, c₁⟩
    · rw [htransaction] at h
      cases h
      refine .inl ⟨⟨e, rfl⟩, ?_⟩
      rw [Materializer.exec_transaction] at htransaction
      rcases hbody : (m.attachAndCommit request prepared).exec c with ⟨e' | a, c₂⟩
      · rw [hbody] at htransaction
        rw [← (Prod.mk.inj htransaction).2]
      · rw [hbody] at htransaction
        simp at htransaction
    · rw [htransaction] at h
      dsimp only at h
      have hstate : c₁ = c' := by
        cases hrooms : m.emitRooms emit with
        | error e =>
          rw [hrooms] at h
          exact congrArg Prod.snd h
        | ok v =>
          rw [hrooms] at h
          exact congrArg Prod.snd h
      exact .inr ⟨prepared, ran_of_transaction hprepare (hstate ▸ htransaction)⟩

/-- A materialization that returns has run. -/
theorem ran_of_materialize {u : Unit} (h : (m.materialize request).exec c = (.ok u, c')) :
    ∃ prepared, Ran m request c c' prepared := by
  rcases cases_of_materialize h with ⟨⟨e, he⟩, -⟩ | hran
  · simp at he
  · exact hran

/-- What a run has placed was designed. -/
theorem Ran.designed (h : Ran m request c c' prepared) :
    ∃ probe, Designed m.entropy m.palette request c.graph probe prepared.expansion := by
  have hprepare := h.1
  obtain ⟨expansion, hdesign, hprepare⟩ := bind_eq_ok.mp hprepare
  obtain ⟨_, -, hprepare⟩ := bind_eq_ok.mp hprepare
  obtain ⟨_, -, hprepare⟩ := bind_eq_ok.mp hprepare
  obtain ⟨_, -, hprepare⟩ := bind_eq_ok.mp hprepare
  cases hprepare
  exact designed_of_stageDesignWith hdesign

theorem Ran.placed (h : Ran m request c c' prepared) :
    Placed m.entropy request.campaignSeed prepared.expansion c.graph c'.graph := by
  obtain ⟨report, hplace⟩ := h.2.1
  exact placed_of_placeExpansion hplace

end Stages

end Sidequest.Dungeon
