import Sidequest.Dungeon.Placed
import Sidequest.Dungeon.Server

namespace Sidequest.Dungeon

open Lib Effect

/-!
# Themes fit depths

A region is themed for the depth its expansion grows from, and comes to lie elsewhere. The design
stage finds out where on a copy of the map, and gives it another theme if it has to: the copy has
the scores that the map will have.

* `ThemeFits`, `RegionNode.Fits` — a theme for a depth, and a region that wears one;
* `fits_of_ran` — a materialization leaves a map, and rows, whose regions fit.
-/

/-- A palette has each theme under its id. -/
def ThemePalette.Keyed (palette : ThemePalette) : Prop :=
  ∀ id theme, palette.get? id = some theme → theme.id = id

/-- A theme of the palette, and for this depth. -/
def ThemeFits (palette : ThemePalette) (themeId : String) (depth : ℚ) : Prop :=
  ∃ theme, palette.get? themeId = some theme ∧ themeEligibleAtDepth theme depth = true

/-- A region wears a theme for the depth that is frozen on it. -/
def RegionNode.Fits (palette : ThemePalette) (node : RegionNode) : Prop :=
  ∃ depth, node.depthScore = some depth ∧ ThemeFits palette node.theme depth

section Themes

variable {palette : ThemePalette}

theorem mem_themesForDepth {theme : DungeonTheme} {depth : ℚ}
    (h : theme ∈ themesForDepth palette depth) :
    (∃ id, palette.get? id = some theme) ∧ themeEligibleAtDepth theme depth = true := by
  unfold themesForDepth at h
  obtain ⟨hmem, heligible⟩ := List.mem_filter.mp h
  obtain ⟨id, -, hget⟩ := List.mem_filterMap.mp hmem
  exact ⟨⟨id, hget⟩, heligible⟩

theorem fits_of_mem_themesForDepth (hkeyed : palette.Keyed) {theme : DungeonTheme} {depth : ℚ}
    (h : theme ∈ themesForDepth palette depth) : ThemeFits palette theme.id depth := by
  obtain ⟨⟨id, hget⟩, heligible⟩ := mem_themesForDepth h
  refine ⟨theme, ?_, heligible⟩
  rw [hkeyed id theme hget]
  exact hget

theorem fits_of_selectEntranceThemeId (hkeyed : palette.Keyed) {themeId : String}
    (h : selectEntranceThemeId palette = some themeId) : ThemeFits palette themeId 0 := by
  unfold selectEntranceThemeId at h
  have hmem : themeId ∈ (themesForDepth palette 0).map (·.id) :=
    (List.perm_insertionSort _ _).mem_iff.mp (List.mem_of_head? h)
  obtain ⟨theme, htheme, rfl⟩ := List.mem_map.mp hmem
  exact fits_of_mem_themesForDepth hkeyed htheme

end Themes

/-! ### An expansion -/

section Expansions

variable {entropy : Entropy} {palette : ThemePalette} {request : MaterializationRequest}
  {graph probe graph' : RegionGraph} {exp : Expansion}

/-- **The scores on the copy** that themes are resolved with are those that are frozen. -/
theorem scores_of_probe (hdesigned : Designed entropy palette request graph probe exp)
    (hplaced : Placed entropy request.campaignSeed exp graph graph') (r : String) :
    graph'.score r = probe.score r := by
  obtain ⟨generated, report, hplace, hunscored, hedges, hnodes⟩ := hdesigned.forall₂
  refine (placed_of_placeExpansion hplace).score_congr hplaced ?_ hedges hunscored
    hdesigned.unscored r
  rw [← List.forall₂_eq_eq_eq, List.forall₂_map_left_iff, List.forall₂_map_right_iff]
  refine hnodes.flip.imp (fun node original hnode => ?_)
  obtain ⟨depth, hrethemed⟩ := hnode
  rw [hrethemed.same]

/-- **The regions of an expansion fit** once it is placed. -/
theorem fits_of_designed (hkeyed : palette.Keyed)
    (hdesigned : Designed entropy palette request graph probe exp)
    (hplaced : Placed entropy request.campaignSeed exp graph graph') :
    ∀ node ∈ exp.newNodes, ∃ live, graph'.nodes.get? node.id = some live ∧ live.Fits palette := by
  intro node hnode
  obtain ⟨generated, report, hplace, hunscored, -, hnodes⟩ := hdesigned.forall₂
  obtain ⟨original, horiginal, depth, hrethemed⟩ := exists_of_forall₂ hnodes hnode
  have hid : node.id = original.id := by rw [hrethemed.same]
  obtain ⟨score, hscored⟩ := hplaced.new node hnode
  -- the region lies as deep as it did on the copy
  have hdepth : score = depth := by
    have hsame := scores_of_probe hdesigned hplaced node.id
    rw [hscored.score_eq, hid, hrethemed.scored] at hsame
    exact Option.some.inj hsame
  refine ⟨_, hscored.live, score, rfl, ?_⟩
  show ThemeFits palette node.theme score
  rw [hdepth]
  rcases hrethemed.fits with ⟨live, theme, hlive, htheme, heligible, hkept⟩ | ⟨theme, hmem, hnew⟩
  · obtain ⟨score', hscored'⟩ := (placed_of_placeExpansion hplace).new original horiginal
    have hsame : live.theme = original.theme := by
      rw [hscored'.live] at hlive
      rw [← Option.some.inj hlive]
    rw [hkept, ← hsame]
    exact ⟨theme, htheme, heligible⟩
  · rw [hnew]
    exact fits_of_mem_themesForDepth hkeyed hmem

end Expansions

/-! ### A map and its rows -/

/-- A region fits, or it is the entrance of a map that is not scored yet, themed for the surface. -/
def RegionNode.WillFit (palette : ThemePalette) (entrance : String) (node : RegionNode) : Prop :=
  node.Fits palette ∨ (node.id = entrance ∧ node.depthScore = none ∧ ThemeFits palette node.theme 0)

/-- All regions of a map fit, once it is scored. -/
def MapFits (palette : ThemePalette) (graph : RegionGraph) : Prop :=
  ∀ id node, graph.nodes.get? id = some node → node.WillFit palette graph.entranceId

/-- All regions of a map fit. -/
def MapFitted (palette : ThemePalette) (graph : RegionGraph) : Prop :=
  ∀ id node, graph.nodes.get? id = some node → node.Fits palette

/-- All regions that are stored of a site fit. -/
def RowsFit (palette : ThemePalette) (siteId : String) (store : MapStore) : Prop :=
  ∀ row ∈ store.mapRowsAt siteId, ∃ node, row = mapRow siteId node ∧ node.Fits palette

theorem MapFitted.mapFits {palette : ThemePalette} {graph : RegionGraph}
    (h : MapFitted palette graph) : MapFits palette graph :=
  fun id node hnode => .inl (h id node hnode)

section Maps

variable {entropy : Entropy} {palette : ThemePalette} {request : MaterializationRequest}
  {graph probe graph' : RegionGraph} {exp : Expansion}

theorem mapFits_seedGraph {entrance : RegionNode} (hnone : entrance.depthScore = none)
    (htheme : ThemeFits palette entrance.theme 0) : MapFits palette (seedGraph entrance) := by
  intro id node hnode
  have hmem : (id, node) ∈ [(entrance.id, entrance)] := Dict.get?_eq_some_iff.mp hnode
  cases List.mem_singleton.mp hmem
  exact .inr ⟨rfl, hnone, htheme⟩

/-- **A map whose regions fit** still is one once a designed expansion is placed on it. -/
theorem mapFitted_of_designed (hkeyed : palette.Keyed) (hgraph : MapFits palette graph)
    (hdesigned : Designed entropy palette request graph probe exp)
    (hplaced : Placed entropy request.campaignSeed exp graph graph') :
    MapFitted palette graph' := by
  intro id node hnode
  have hkey : id ∈ graph'.nodes.keys := Dict.mem_keys_of_get? hnode
  rcases hplaced.mem_keys_iff.mp hkey with hold | ⟨new, hnew, rfl⟩
  · obtain ⟨old, hget⟩ := Dict.mem_keys_iff_get?.mp hold
    obtain rfl : old.id = id := graph.keyed (id, old) (Dict.get?_eq_some_iff.mp hget)
    obtain ⟨score, hscored⟩ := hplaced.old _ old hget
    cases hscored.live.symm.trans hnode
    refine ⟨score, rfl, ?_⟩
    show ThemeFits palette old.theme score
    rcases hgraph _ old hget with ⟨depth, hdepth, htheme⟩ | ⟨hentrance, hnone, htheme⟩
    · rw [hscored.kept depth hdepth]
      exact htheme
    · -- the entrance is the origin
      have hzero : WorthAt entropy request.campaignSeed graph'.entranceId graph'.edges old.id 0 :=
        .inl ⟨hentrance.trans hplaced.entrance.symm, rfl⟩
      rw [(hscored.worth hnone).unique hzero]
      exact htheme
  · obtain ⟨live, hlive, hfits⟩ := fits_of_designed hkeyed hdesigned hplaced new hnew
    cases hlive.symm.trans hnode
    exact hfits

end Maps

section Rows

variable {palette : ThemePalette} (siteId : String) {graph : RegionGraph}

/-- Rows that fit are followed by rows that fit. -/
def KeepsRows (palette : ThemePalette) (siteId : String) (store store' : MapStore) : Prop :=
  RowsFit palette siteId store → RowsFit palette siteId store'

instance : IsPreorder MapStore (KeepsRows palette siteId) where
  refl _ := id
  trans _ _ _ h h' := fun hfit => h' (h hfit)

/-- **A commit** out of a map whose regions fit writes rows that fit, and none at other sites. -/
theorem keepsRows_commitExpansion (hgraph : MapFitted palette graph) (siteId' : String)
    (exp : Expansion) : Preserves (KeepsRows palette siteId) (commitExpansion siteId' exp graph) := by
  intro store hstore
  rcases hexec : (commitExpansion siteId' exp graph).exec store with ⟨e | u, store'⟩
  · rw [store_eq_of_refused hexec]
    exact hstore
  · obtain ⟨rows, hunique, hrows, rfl⟩ := commitExpansion_spec hexec
    intro row hrow
    obtain ⟨hmem, hsite⟩ := List.mem_filter.mp hrow
    rw [mapRows_foldl_insertEdge] at hmem
    rcases List.mem_append.mp hmem with hold | hnew
    · exact hstore row (List.mem_filter.mpr ⟨hold, hsite⟩)
    · obtain ⟨node, -, hlive⟩ := exists_of_forall₂ hrows hnew
      unfold liveRow at hlive
      split at hlive
      · simp at hlive
      · rename_i live hget
        cases hlive
        obtain rfl : siteId' = siteId := of_decide_eq_true hsite
        exact ⟨live, rfl, hgraph _ live hget⟩

end Rows

/-! ### The commit stage -/

section Commit

variable {F : Type} (m : Materializer F) (request : MaterializationRequest) (siteId : String)
  {palette : ThemePalette} {graph : RegionGraph}

/-- Rows that fit are followed by rows that fit. -/
def KeepsTables (palette : ThemePalette) (siteId : String) (t t' : Tables) : Prop :=
  KeepsRows palette siteId t.map t'.map

instance : IsPreorder Tables (KeepsTables palette siteId) where
  refl _ := id
  trans _ _ _ h h' := fun hfit => h' (h hfit)

theorem keepsTables_of_map {t t' : Tables} (h : t'.map = t.map) :
    KeepsTables palette siteId t t' := by
  intro hfit
  rw [h]
  exact hfit

theorem keepsTables_commitRows (hgraph : MapFitted palette graph) (exp : Expansion) :
    Preserves (KeepsTables palette siteId) (Materializer.commitRows request exp graph) :=
  preserves_zoom (preserves_adapt (keepsRows_commitExpansion siteId hgraph request.siteId exp))
    (fun _ _ h => h)

theorem keepsTables_commitEntrance (hgraph : MapFitted palette graph) :
    Preserves (KeepsTables palette siteId) (Materializer.commitEntrance request graph) := by
  unfold Materializer.commitEntrance
  split
  · exact preserves_throw _
  · exact keepsTables_commitRows request siteId hgraph _

theorem keepsTables_recordMutation (regionId kind : String) (payload : List (String × String)) :
    Preserves (KeepsTables palette siteId)
      (Materializer.recordMutation request regionId kind payload) :=
  preserves_modify (fun _ => keepsTables_of_map siteId rfl)

/-- **The commit stage** writes rows that fit, out of a map whose regions do. -/
theorem keepsRows_stageCommit (hgraph : MapFitted palette graph) (expansion : Expansion)
    (fills : Dict String F) (curation : RegionCuration) (attachReports : List AttachReport)
    (isFreshSave : Bool) : Preserves (KeepsTables palette siteId)
      (m.stageCommit request graph expansion fills curation attachReports isFreshSave) := by
  have hpopulation : ∀ node, Preserves (KeepsTables palette siteId)
      (Materializer.recordPopulation request curation node) := fun node =>
    Preserves.ite (preserves_pure _) (keepsTables_recordMutation request siteId _ _ _)
  have hfrontier : ∀ fe : FrontierEdge, Preserves (KeepsTables palette siteId)
      (Materializer.putFrontierRow fe) := fun _ =>
    preserves_modify (fun _ => keepsTables_of_map siteId rfl)
  refine (preserves_ofExcept _).bind (fun newFrontier => ?_)
  refine (keepsTables_commitEntrance request siteId hgraph).onlyIf.bind (fun _ => ?_)
  refine (preserves_ofExcept _).onlyIf.bind (fun _ => ?_)
  refine (keepsTables_commitRows request siteId hgraph expansion).bind (fun _ => ?_)
  refine (preserves_forM (fun _ => keepsTables_recordMutation request siteId _ _ _) _).bind (fun _ => ?_)
  refine (preserves_forM hpopulation _).bind (fun _ => ?_)
  refine (preserves_forM hfrontier _).bind (fun _ => ?_)
  exact Preserves.ite (preserves_pure _)
    ((preserves_ofExcept _).bind (fun _ => preserves_pure _))

/-- **A run** leaves a map whose regions fit, and rows that fit. -/
theorem fits_of_ran {m : Materializer F} {request : MaterializationRequest} {c c' : Campaign}
    {prepared : Prepared F} (hkeyed : m.palette.Keyed) (hgraph : MapFits m.palette c.graph)
    (hrows : RowsFit m.palette siteId c.tables.map) (hran : Ran m request c c' prepared) :
    MapFitted m.palette c'.graph ∧ RowsFit m.palette siteId c'.tables.map := by
  obtain ⟨probe, hdesigned⟩ := hran.designed
  have hfitted := mapFitted_of_designed hkeyed hgraph hdesigned hran.placed
  obtain ⟨-, -, reports, s, emit, -, hcommit⟩ := hran
  have hkept := (keepsRows_stageCommit m request siteId hfitted prepared.expansion
    prepared.fills prepared.curation s.attachReports prepared.isFreshSave).of_exec hcommit
  exact ⟨hfitted, hkept hrows⟩

end Commit

end Sidequest.Dungeon
