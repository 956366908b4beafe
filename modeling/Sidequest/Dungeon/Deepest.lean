import Sidequest.Dungeon.Placed

namespace Sidequest.Dungeon

open Lib Effect

/-!
# The deepest region of an expansion

The quest of an expansion is anchored at its deepest region. But scores are frozen on the regions
of the map, and the quest is picked from those of the expansion, which have none: it is always the
first region that counts as the deepest.

* `deepestOf_eq_head?` — of regions without scores, the first is the deepest;
* `questAtDeepest_iff` — the one holds exactly if the other does.
-/

/-! ### What is picked -/

/-- **Of regions without scores** the first counts as the deepest. -/
theorem deepestOf_eq_head? {l : List RegionNode} (h : ∀ node ∈ l, node.depthScore = none) :
    deepestOf l = l.head? := by
  cases l with
  | nil => rfl
  | cons first rest =>
    have hrest : ∀ node ∈ rest, node.depthScore = none :=
      fun node hnode => h node (.tail first hnode)
    -- no later region is found to be deeper than the one that was picked so far
    have hkept : ∀ l : List RegionNode, (∀ node ∈ l, node.depthScore = none) →
        l.foldl (fun best n => if shallower best n then n else best) first = first := by
      intro l hl
      induction l with
      | nil => rfl
      | cons node l ih =>
        have hnot : shallower first node = false := by
          unfold shallower
          rw [hl node (.head _)]
        rw [List.foldl_cons, hnot]
        exact ih (fun n hn => hl n (.tail node hn))
    show some (rest.foldl _ first) = some first
    rw [hkept rest hrest]

/-- A region has rolled a big bad. -/
def rolledBigBad (curation : RegionCuration) (node : RegionNode) : Bool :=
  ((curation.regionManifests.get? node.id).bind (·.bigBad)).isSome

/-- The regions that a quest of this kind is anchored among. -/
def questRegions (expansion : Expansion) (curation : RegionCuration) : SignatureKind →
    List RegionNode
  | .bigBad => expansion.newNodes.filter (rolledBigBad curation)
  | _ => expansion.newNodes

variable {expansion : Expansion}

theorem anchor_of_selectSignature (hunscored : expansion.Unscored) (curation : RegionCuration)
    (template : ExpansionQuestTemplate) {deepest : RegionNode}
    (hdeepest : expansion.newNodes.head? = some deepest) :
    ∃ anchor, (questRegions expansion curation
        (selectSignature expansion curation.regionManifests template deepest).kind).head?
          = some anchor ∧
      (selectSignature expansion curation.regionManifests template deepest).anchorRegion
        = anchor.id := by
  unfold selectSignature
  cases template.signature with
  | reachDeep => exact ⟨deepest, hdeepest, rfl⟩
  | setPiece => exact ⟨deepest, hdeepest, rfl⟩
  | bigBad =>
    have hrolled : ∀ node ∈ expansion.newNodes.filter (rolledBigBad curation),
        node.depthScore = none := fun node hnode => hunscored node (List.mem_filter.mp hnode).1
    have hpick := deepestOf_eq_head? hrolled
    dsimp only
    split
    · exact ⟨deepest, hdeepest, rfl⟩
    · rename_i node hnode
      exact ⟨node, hpick.symm.trans hnode, rfl⟩

/-! ### What lies deepest -/

/-- A region of the list is on the map, and no other one of the list lies deeper. -/
def DeepestAmong (graph : RegionGraph) (l : List RegionNode) (regionId : String) : Prop :=
  regionId ∈ l.map (·.id) ∧ ∃ score, graph.score regionId = some score ∧
    ∀ node ∈ l, ∀ other, graph.score node.id = some other → other ≤ score

/-- The first region of the list is worth as much as any other one. -/
def FirstDeepest (worth : String → ℚ → Prop) (l : List RegionNode) : Prop :=
  ∀ first, l.head? = some first → ∀ node ∈ l, ∀ score other,
    worth first.id score → worth node.id other → other ≤ score

variable {graph : RegionGraph}

theorem deepestAmong_head_iff {worth : String → ℚ → Prop}
    (hunique : ∀ id score score', worth id score → worth id score' → score = score')
    {l : List RegionNode} (hworth : ∀ node ∈ l, ∃ score, graph.score node.id = some score ∧
      worth node.id score) {first : RegionNode} (hfirst : l.head? = some first) :
    DeepestAmong graph l first.id ↔ FirstDeepest worth l := by
  have hmem : first ∈ l := List.mem_of_head? hfirst
  obtain ⟨top, htop, htopWorth⟩ := hworth first hmem
  constructor
  · rintro ⟨-, score, hscore, hall⟩ first' hfirst' node hnode s other hs hother
    cases hfirst.symm.trans hfirst'
    obtain ⟨o, ho, hoWorth⟩ := hworth node hnode
    cases hscore.symm.trans htop
    rw [hunique _ _ _ hs htopWorth, hunique _ _ _ hother hoWorth]
    exact hall node hnode o ho
  · intro hdeepest
    refine ⟨List.mem_map_of_mem hmem, top, htop, fun node hnode other hother => ?_⟩
    obtain ⟨o, ho, hoWorth⟩ := hworth node hnode
    obtain rfl := Option.some.inj (ho.symm.trans hother)
    exact hdeepest first hfirst node hnode top o htopWorth hoWorth

section Quest

variable {F : Type} (m : Materializer F) (request : MaterializationRequest)

/-- **The quest is at the deepest region**: what counts as the deepest lies deepest on the map, and
    the quest is anchored at the deepest of the regions it may be anchored at. -/
structure QuestAtDeepest (graph : RegionGraph) (expansion : Expansion) (curation : RegionCuration) :
    Prop where
  deepest : ∀ node, deepestOf expansion.newNodes = some node →
    DeepestAmong graph expansion.newNodes node.id
  anchored : ∀ thread, m.deepestQuest request graph expansion curation = .ok (some thread) →
    ∃ quest, thread.expansion = some quest ∧ thread.originRegionId = quest.anchorRegion ∧
      DeepestAmong graph (questRegions expansion curation quest.signatureKind) quest.anchorRegion

/-- The template that the first region's theme has for a quest calls for a big bad. -/
def CallsForBigBad (expansion : Expansion) : Prop :=
  ∃ first theme template, expansion.newNodes.head? = some first ∧
    m.palette.get? first.theme = some theme ∧ theme.questTemplate = some template ∧
      template.signature = .bigBad

/-- **The first region is the deepest**, by hops and jitter; and so is, if the quest calls for a big
    bad, the first that rolled one among those that did. -/
structure FirstIsDeepest (graph : RegionGraph) (expansion : Expansion) (curation : RegionCuration) :
    Prop where
  first : FirstDeepest (WorthAt m.entropy request.campaignSeed graph.entranceId
    (graph.edges ++ expansion.newEdges)) expansion.newNodes
  bigBad : CallsForBigBad m expansion →
    FirstDeepest (WorthAt m.entropy request.campaignSeed graph.entranceId
      (graph.edges ++ expansion.newEdges)) (expansion.newNodes.filter (rolledBigBad curation))

variable {m request}

theorem Placed.worth_new {entropy : Entropy} {campaignSeed : Int} {exp : Expansion}
    {graph' : RegionGraph} (h : Placed entropy campaignSeed exp graph graph')
    (hunscored : exp.Unscored) {node : RegionNode} (hnode : node ∈ exp.newNodes) :
    ∃ score, graph'.score node.id = some score ∧
      WorthAt entropy campaignSeed graph.entranceId (graph.edges ++ exp.newEdges) node.id score := by
  obtain ⟨score, hs⟩ := h.new node hnode
  refine ⟨score, hs.score_eq, ?_⟩
  rw [← h.entrance, ← h.edges]
  exact hs.worth (hunscored node hnode)

theorem exists_signature_of_deepestQuest {curation : RegionCuration} {thread : ComplicationThread}
    (h : m.deepestQuest request graph expansion curation = .ok (some thread)) :
    ∃ deepest theme template, deepestOf expansion.newNodes = some deepest ∧
      m.palette.get? deepest.theme = some theme ∧ theme.questTemplate = some template ∧
      thread = expansionQuestThread m.entropy request.campaignSeed expansion
        (selectSignature expansion curation.regionManifests template deepest) := by
  unfold Materializer.deepestQuest at h
  split at h
  · simp at h
  · rename_i deepest hdeepest
    split at h
    · simp at h
    · rename_i theme htheme
      split at h
      · simp at h
      · rename_i template htemplate
        split at h
        · simp at h
        · split at h
          · simp at h
          · exact ⟨deepest, theme, template, hdeepest, htheme, htemplate,
              (Option.some.inj (Except.ok.inj h)).symm⟩

theorem deepestQuest_eq (request : MaterializationRequest) (curation : RegionCuration)
    {deepest : RegionNode} {theme : DungeonTheme} {template : ExpansionQuestTemplate} {score : ℚ}
    (hdeepest : deepestOf expansion.newNodes = some deepest)
    (htheme : m.palette.get? deepest.theme = some theme)
    (htemplate : theme.questTemplate = some template) (hscore : graph.score deepest.id = some score) :
    m.deepestQuest request graph expansion curation = .ok (some (expansionQuestThread m.entropy
      request.campaignSeed expansion
        (selectSignature expansion curation.regionManifests template deepest))) := by
  obtain ⟨live, hlive, hdepth⟩ := Option.bind_eq_some_iff.mp hscore
  unfold Materializer.deepestQuest
  rw [hdeepest]
  dsimp only
  rw [htheme]
  dsimp only
  rw [htemplate]
  rw [hlive]
  dsimp only
  rw [hdepth]

theorem kind_of_selectSignature (hunscored : expansion.Unscored) (curation : RegionCuration)
    {template : ExpansionQuestTemplate} (deepest : RegionNode)
    (hsignature : template.signature = .bigBad) {rolled : RegionNode}
    (hrolled : (expansion.newNodes.filter (rolledBigBad curation)).head? = some rolled) :
    (selectSignature expansion curation.regionManifests template deepest).kind = .bigBad := by
  have hpick : deepestOf (expansion.newNodes.filter (rolledBigBad curation)) = some rolled :=
    (deepestOf_eq_head? (fun node hnode => hunscored node (List.mem_filter.mp hnode).1)).trans
      hrolled
  have hpick' : deepestOf (expansion.newNodes.filter
      (fun node => ((curation.regionManifests.get? node.id).bind (·.bigBad)).isSome))
      = some rolled := hpick
  unfold selectSignature
  rw [hsignature]
  dsimp only
  rw [hpick']
  rfl

/-- **The quest is at the deepest region** of a materialized expansion exactly if the first region
    is the deepest. -/
theorem questAtDeepest_iff (m : Materializer F) (request : MaterializationRequest)
    (c c' : Campaign) (u : Unit) (h : (m.materialize request).exec c = (.ok u, c')) :
    ∃ prepared, m.prepare request c = .ok prepared ∧
      (QuestAtDeepest m request c'.graph prepared.expansion prepared.curation ↔
        FirstIsDeepest m request c.graph prepared.expansion prepared.curation) := by
  obtain ⟨prepared, hran⟩ := ran_of_materialize h
  refine ⟨prepared, hran.1, ?_⟩
  obtain ⟨probe, hdesigned⟩ := hran.designed
  have hunscored := hdesigned.unscored
  have hplaced := hran.placed
  have hunique : ∀ id score score', WorthAt m.entropy request.campaignSeed c.graph.entranceId
      (c.graph.edges ++ prepared.expansion.newEdges) id score → WorthAt m.entropy
      request.campaignSeed c.graph.entranceId (c.graph.edges ++ prepared.expansion.newEdges) id score'
      → score = score' := fun _ _ _ hs hs' => hs.unique hs'
  have hworth : ∀ node ∈ prepared.expansion.newNodes, ∃ score, c'.graph.score node.id = some score ∧
      WorthAt m.entropy request.campaignSeed c.graph.entranceId
        (c.graph.edges ++ prepared.expansion.newEdges) node.id score :=
    fun node hnode => hplaced.worth_new hunscored hnode
  have hworthRolled : ∀ node ∈ prepared.expansion.newNodes.filter (rolledBigBad prepared.curation),
      ∃ score, c'.graph.score node.id = some score ∧
      WorthAt m.entropy request.campaignSeed c.graph.entranceId
        (c.graph.edges ++ prepared.expansion.newEdges) node.id score :=
    fun node hnode => hworth node (List.mem_filter.mp hnode).1
  have hhead := deepestOf_eq_head? hunscored
  constructor
  · intro hquest
    constructor
    · intro first hfirst
      exact (deepestAmong_head_iff hunique hworth hfirst).mp
        (hquest.deepest first (hhead.trans hfirst)) first hfirst
    · rintro ⟨first, theme, template, hfirst, htheme, htemplate, hsignature⟩ rolled hrolled
      obtain ⟨score, hscore, -⟩ := hworth first (List.mem_of_head? hfirst)
      -- some region rolled a big bad, so that there is a quest for one
      have hseeded := deepestQuest_eq request prepared.curation (hhead.trans hfirst) htheme htemplate
        hscore
      obtain ⟨quest, hexpansion, -, hdeepest⟩ := hquest.anchored _ hseeded
      cases hexpansion
      have hkind := kind_of_selectSignature hunscored prepared.curation first hsignature hrolled
      obtain ⟨anchor, hanchor, hid⟩ := anchor_of_selectSignature hunscored prepared.curation template
        hfirst
      rw [hkind] at hanchor hdeepest
      rw [hid] at hdeepest
      exact (deepestAmong_head_iff hunique hworthRolled hanchor).mp hdeepest rolled hrolled
  · intro hfirst
    constructor
    · intro node hnode
      have hnode' := hhead.symm.trans hnode
      exact (deepestAmong_head_iff hunique hworth hnode').mpr hfirst.first
    · intro thread hthread
      obtain ⟨deepest, theme, template, hdeepest, htheme, htemplate, rfl⟩ :=
        exists_signature_of_deepestQuest hthread
      have hdeepest' := hhead.symm.trans hdeepest
      obtain ⟨anchor, hanchor, hid⟩ := anchor_of_selectSignature hunscored prepared.curation template
        hdeepest'
      refine ⟨_, rfl, rfl, ?_⟩
      rw [hid]
      generalize hkind : (selectSignature prepared.expansion prepared.curation.regionManifests
        template deepest).kind = kind at hanchor ⊢
      cases kind with
      | reachDeep => exact (deepestAmong_head_iff hunique hworth hanchor).mpr hfirst.first
      | setPiece => exact (deepestAmong_head_iff hunique hworth hanchor).mpr hfirst.first
      | bigBad =>
        refine (deepestAmong_head_iff hunique hworthRolled hanchor).mpr (hfirst.bigBad ?_)
        refine ⟨deepest, theme, template, hdeepest', htheme, htemplate, ?_⟩
        -- only a template for a big bad makes a quest for one
        unfold selectSignature at hkind
        cases hsignature : template.signature with
        | bigBad => rfl
        | setPiece =>
          rw [hsignature] at hkind
          simp [bindSignature] at hkind
        | reachDeep =>
          rw [hsignature] at hkind
          simp [bindSignature] at hkind

end Quest

/-! ### Regions one behind the other -/

/-- Materialization of crypts whose quest is to reach their deepest region. -/
def stairsMaterializer : Materializer Unit :=
  { cryptMaterializer "flood" with
    palette := Dict.empty.insert "crypt" {
      id := "crypt"
      questTemplate := some { signature := .reachDeep, title := "The descent", objective := "" } } }

/-- What they come to: the regions in their order, and the map. -/
def stairs : Option (List RegionNode × RegionGraph) :=
  match stairsMaterializer.prepare cryptRequest cryptCampaign,
    (stairsMaterializer.materialize cryptRequest).exec cryptCampaign with
  | .ok prepared, (.ok _, c) => some (prepared.expansion.newNodes, c.graph)
  | _, _ => none

/-- The third region lies behind the second one, but it is the first that the quest is to reach. -/
theorem not_questAtDeepest_stairs :
    ∃ prepared c', stairsMaterializer.prepare cryptRequest cryptCampaign = .ok prepared ∧
      (stairsMaterializer.materialize cryptRequest).exec cryptCampaign = (.ok (), c') ∧
      ¬ QuestAtDeepest stairsMaterializer cryptRequest c'.graph prepared.expansion
        prepared.curation := by
  have hids : stairs.map (fun s => s.1.map (·.id)) =
      some ["exp001.r0", "exp001.r1", "exp001.r2"] := by decide +kernel
  have hpicked : stairs.map (fun s => (deepestOf s.1).map (·.id)) = some (some "exp001.r0") := by
    decide +kernel
  have hscores : stairs.map (fun s => (s.2.score "exp001.r0", s.2.score "exp001.r2")) =
      some (some 7, some 17) := by decide +kernel
  unfold stairs at hids hpicked hscores
  rcases hprepare : stairsMaterializer.prepare cryptRequest cryptCampaign with e | prepared
  · rw [hprepare] at hids
    simp at hids
  · rcases hexec : (stairsMaterializer.materialize cryptRequest).exec cryptCampaign with ⟨e | u, c'⟩
    · rw [hprepare, hexec] at hids
      simp at hids
    · rw [hprepare, hexec] at hids hpicked hscores
      refine ⟨prepared, c', rfl, rfl, fun hquest => ?_⟩
      obtain ⟨picked, hpicked, hid⟩ := Option.map_eq_some_iff.mp (Option.some.inj hpicked)
      obtain ⟨hfirst, hthird⟩ := Prod.mk.inj (Option.some.inj hscores)
      obtain ⟨-, score, hscore, hall⟩ := hquest.deepest picked hpicked
      rw [hid] at hscore
      cases hscore.symm.trans hfirst
      have hmem : "exp001.r2" ∈ prepared.expansion.newNodes.map (·.id) := by
        rw [show prepared.expansion.newNodes.map (·.id) = _ from Option.some.inj hids]
        decide
      obtain ⟨node, hnode, hnodeId⟩ := List.mem_map.mp hmem
      rw [← hnodeId] at hthird
      exact absurd (hall node hnode 17 hthird) (by decide)

/-- For the stairs the law fails on either side. -/
theorem questAtDeepest_iff_stairs :
    ∃ prepared c', (stairsMaterializer.materialize cryptRequest).exec cryptCampaign = (.ok (), c') ∧
      stairsMaterializer.prepare cryptRequest cryptCampaign = .ok prepared ∧
      (QuestAtDeepest stairsMaterializer cryptRequest c'.graph prepared.expansion prepared.curation ↔
        FirstIsDeepest stairsMaterializer cryptRequest cryptCampaign.graph prepared.expansion
          prepared.curation) := by
  have hreturns : ((stairsMaterializer.materialize cryptRequest).exec cryptCampaign).1.toBool
      = true := by decide +kernel
  rcases hexec : (stairsMaterializer.materialize cryptRequest).exec cryptCampaign with ⟨e | u, c'⟩
  · rw [hexec] at hreturns
    simp [Except.toBool] at hreturns
  · obtain ⟨prepared, hprepare, hiff⟩ :=
      questAtDeepest_iff stairsMaterializer cryptRequest cryptCampaign c' u hexec
    exact ⟨prepared, c', rfl, hprepare, hiff⟩

end Sidequest.Dungeon
