import Sidequest.Dungeon.ThemeFit
import Sidequest.World.SiteRuns

namespace Sidequest.World

open Lib Effect
open Dungeon

/-!
# Themes fit depths throughout

The dungeon grows one expansion after another, out of a map that is loaded each time, and a bounded
site is made at once. Wherever either gets to, each region that is stored wears a theme for the depth
that is stored with it.

* `SiteBuilder.materializeBoundedWith` — the making of an interior, with any palette;
* `Coherent`, `coherent_of_materializes` — what a materialization leaves, and how themes were chosen.
-/

/-! ### Any palette -/

namespace SiteBuilder

variable (b : SiteBuilder)

/-- What is prepared before the commit, with themes of this palette. -/
def prepareBoundedWith (palette : ThemePalette) (request : MaterializationRequest)
    (graph : RegionGraph) (archetype : SiteArchetype) (s : SiteStore) :
    Except MaterializeError (Commit × RegionGraph × Dict String MaskDict) := do
  let expansion ← stageDesignWith b.entropy palette request
    { connectionBurst := request.burstMagnitude
      newRegionsPerExpansion := (archetype.roomCountMin, archetype.roomCountMax) } graph
  let fills ← (b.stageFill archetype request expansion).mapError .stage
  match (placeExpansion b.entropy request expansion).exec graph with
  | (.error cause, _) => .error (.graph cause)
  | (.ok _, graph') => do
    let existingMap ← (loadMap b.scan graph.entranceId request.siteId s.map).mapError .store
    let existingFrontier := s.frontier.keys.filter (fun key => key.1 = request.siteId)
    let c : Commit := {
      campaignSeed := request.campaignSeed
      expansion := expansion
      fills := fills
      attachReports := []
      curation := { regionManifests := .empty }
      isFreshSave := existingMap.nodes.entries.isEmpty && existingFrontier.isEmpty }
    let maskDicts ← (masksOf b.digests c graph').mapError .graph
    .ok (c, graph', maskDicts)

/-- Make the interior of a bounded site, with themes of this palette; the map comes with the
    expansion. -/
def materializeBoundedWith (palette : ThemePalette) (request : MaterializationRequest)
    (graph : RegionGraph) (archetype : SiteArchetype) :
    Effect MaterializeError SiteStore RegionGraph := do
  let s ← get
  let (c, graph', maskDicts) ← ofExcept (prepareBoundedWith b palette request graph archetype s)
  siteTransaction (commitBounded b request.siteId archetype c graph' maskDicts)
  pure graph'

theorem materializeBounded_eq (request : MaterializationRequest) (graph : RegionGraph)
    (archetype : SiteArchetype) : b.materializeBounded request graph archetype =
      b.materializeBoundedWith (buildBoundedPalette archetype) request graph archetype >>=
        fun _ => pure () := by
  unfold materializeBounded materializeBoundedWith
  have hprepare : ∀ s, b.prepareBounded request graph archetype s
      = b.prepareBoundedWith (buildBoundedPalette archetype) request graph archetype s :=
    fun _ => rfl
  simp only [hprepare, bind_assoc, pure_bind, bind_pure_unit]

end SiteBuilder

/-! ### Loading -/

/-- **Rows that fit** are loaded as regions that fit. -/
theorem mapFitted_of_loadMap {palette : ThemePalette} {scan : Scan} {entrance siteId : String}
    {store : MapStore} {graph : RegionGraph} (hrows : RowsFit palette siteId store)
    (h : loadMap scan entrance siteId store = .ok graph) : MapFitted palette graph := by
  have hwritten : ∀ row ∈ store.mapRowsAt siteId, ∃ live, row = mapRow siteId live := by
    intro row hrow
    obtain ⟨live, hlive, -⟩ := hrows row hrow
    exact ⟨live, hlive⟩
  obtain ⟨nodes, hnodes, hentries⟩ := entries_of_loadMap hwritten h
  intro id node hget
  have hmem : (id, node) ∈ nodes.map (fun node => (node.id, node)) := by
    rw [← hentries]
    exact Dict.get?_eq_some_iff.mp hget
  obtain ⟨node', hnode, heq⟩ := List.mem_map.mp hmem
  obtain ⟨-, rfl⟩ := Prod.mk.inj heq
  have hrow : mapRow siteId node' ∈ store.mapRowsAt siteId := by
    rw [← (scan.perm _).mem_iff, ← hnodes]
    exact List.mem_map_of_mem hnode
  obtain ⟨live, hlive, hfits⟩ := hrows _ hrow
  -- a row holds all of its region
  have hsame : node' = live := by
    have hread := RegionNode.fromDict_toDict node'
    rw [show node'.toDict = live.toDict from congrArg MapRow.payload hlive,
      RegionNode.fromDict_toDict] at hread
    exact (Except.ok.inj hread).symm
  rw [hsame]
  exact hfits

/-! ### Materializations -/

/-- One materialization that returns, of the dungeon or of a bounded site: the map and the rows before
    it, and after it. -/
inductive Materializes : ThemePalette → Entropy → MaterializationRequest → RegionGraph → MapStore →
    RegionGraph → MapStore → Prop
  | dungeon {F : Type} {m : Materializer F} {request : MaterializationRequest} {c c' : Campaign}
      (run : (m.materialize request).exec c = (.ok (), c')) :
      Materializes m.palette m.entropy request c.graph c.tables.map c'.graph c'.tables.map
  | bounded {b : SiteBuilder} {palette : ThemePalette} {request : MaterializationRequest}
      {archetype : SiteArchetype} {graph graph' : RegionGraph} {s s' : SiteStore}
      (run : (b.materializeBoundedWith palette request graph archetype).exec s = (.ok graph', s')) :
      Materializes palette b.entropy request graph s.map graph' s'.map

/-- The maps and the rows of a site that materializations with this palette lead to. A map starts as
    the entrance of the dungeon, or of a bounded site, of which nothing is stored. Where the dungeon's
    materialization raises, the map is loaded again. -/
inductive Delved (palette : ThemePalette) (siteId : String) : RegionGraph → MapStore → Prop
  | entrance {entrance : RegionNode} {store : MapStore}
      (theme : selectEntranceThemeId palette = some entrance.theme)
      (unscored : entrance.depthScore = none) (fresh : store.mapRowsAt siteId = []) :
      Delved palette siteId (seedGraph entrance) store
  | site {site : SiteDescriptor} {archetype : SiteArchetype} {store : MapStore}
      (bounded : palette = buildBoundedPalette archetype) (fresh : store.mapRowsAt siteId = []) :
      Delved palette siteId (SiteBuilder.boundedSeed site archetype) store
  | materialized {entropy : Entropy} {request : MaterializationRequest} {graph graph' : RegionGraph}
      {store store' : MapStore} (before : Delved palette siteId graph store)
      (step : Materializes palette entropy request graph store graph' store') :
      Delved palette siteId graph' store'
  | raised {F : Type} {m : Materializer F} {request : MaterializationRequest} {c c' : Campaign}
      {e : MaterializeError} {scan : Scan} {entranceId : String} {graph : RegionGraph}
      (same : m.palette = palette) (before : Delved palette siteId c.graph c.tables.map)
      (run : (m.materialize request).exec c = (.error e, c'))
      (load : loadMap scan entranceId siteId c'.tables.map = .ok graph) :
      Delved palette siteId graph c'.tables.map
  | loaded {scan : Scan} {entranceId : String} {graph graph' : RegionGraph} {store : MapStore}
      (before : Delved palette siteId graph store)
      (load : loadMap scan entranceId siteId store = .ok graph') : Delved palette siteId graph' store
  | elsewhere {graph : RegionGraph} {store store' : MapStore}
      (before : Delved palette siteId graph store)
      (same : store'.mapRowsAt siteId = store.mapRowsAt siteId) : Delved palette siteId graph store'

/-- What a materialization should leave: all regions of the map wear themes for the depths that are
    frozen on them, so do those that are stored, and the copy of the map on which the themes were
    chosen has the scores that are frozen. -/
structure Coherent (entropy : Entropy) (palette : ThemePalette) (request : MaterializationRequest)
    (siteId : String) (graph graph' : RegionGraph) (store' : MapStore) : Prop where
  regions : MapFitted palette graph'
  rows : RowsFit palette siteId store'
  scores : ∃ probe exp report, Designed entropy palette request graph probe exp ∧
    (placeExpansion entropy request exp).exec graph = (.ok report, graph') ∧
      ∀ r, graph'.score r = probe.score r

section Runs

variable {palette : ThemePalette} {siteId : String} {entropy : Entropy}
  {request : MaterializationRequest} {graph graph' : RegionGraph} {store store' : MapStore}

theorem mapFits_boundedSeed (site : SiteDescriptor) (archetype : SiteArchetype) :
    MapFits (buildBoundedPalette archetype) (SiteBuilder.boundedSeed site archetype) := by
  refine mapFits_seedGraph rfl ⟨{ id := boundedThemeId archetype }, ?_, rfl⟩
  unfold buildBoundedPalette
  rw [Dict.get?_insert, if_pos rfl]

theorem rowsFit_of_fresh (h : store.mapRowsAt siteId = []) : RowsFit palette siteId store := by
  intro row hrow
  rw [h] at hrow
  simp at hrow

/-! ### One materialization -/

theorem keepsRows_commitBounded (siteId : String) (b : SiteBuilder) (siteId' : String) (archetype : SiteArchetype)
    (c : Commit) (maskDicts : Dict String MaskDict) (hgraph : MapFitted palette graph)
    {s s' : SiteStore} {u : Unit}
    (h : (b.commitBounded siteId' archetype c graph maskDicts).exec s = (.ok u, s')) :
    KeepsRows palette siteId s.map s'.map := by
  have hwrites : Preserves (KeepsRows palette siteId) (do
      commitSeed siteId' c graph
      ExceptT.adapt MaterializeError.store (commitExpansion siteId' c.expansion graph)) := by
    have hseed : Preserves (KeepsRows palette siteId) (commitSeed siteId' c graph) := by
      refine Preserves.ite ?_ (preserves_pure _)
      split
      · exact preserves_throw _
      · exact preserves_adapt (keepsRows_commitExpansion siteId hgraph siteId' _)
    exact hseed.bind (fun _ =>
      preserves_adapt (keepsRows_commitExpansion siteId hgraph siteId' c.expansion))
  obtain ⟨u₁, s₁, hfirst, h⟩ := exists_of_exec_bind h
  obtain ⟨map', hwritten, rfl⟩ := exec_of_zoom hfirst
  obtain rfl := congrArg Prod.snd h
  exact hwrites.of_exec hwritten

/-- A transaction that returns has done what is in it. -/
theorem exec_of_siteTransaction {body : Effect MaterializeError SiteStore Unit} {s s' : SiteStore}
    {u : Unit} (h : (siteTransaction body).exec s = (.ok u, s')) : body.exec s = (.ok u, s') := by
  rcases hbody : body.exec s with ⟨e | a, t⟩
  · have hexec : (siteTransaction body).exec s = (.error e, s) := by
      show (siteTransaction body) s = _
      simp only [siteTransaction, ExceptT.mk, hbody]
    rw [hexec] at h
    simp at h
  · have hexec : (siteTransaction body).exec s = (.ok a, t) := by
      show (siteTransaction body) s = _
      simp only [siteTransaction, ExceptT.mk, hbody]
    rw [hexec] at h
    exact h

theorem designed_of_prepareBoundedWith {b : SiteBuilder} {archetype : SiteArchetype} {s : SiteStore}
    {c : Commit} {maskDicts : Dict String MaskDict}
    (h : b.prepareBoundedWith palette request graph archetype s = .ok (c, graph', maskDicts)) :
    (∃ probe, Designed b.entropy palette request graph probe c.expansion) ∧
      ∃ report, (placeExpansion b.entropy request c.expansion).exec graph = (.ok report, graph') := by
  unfold SiteBuilder.prepareBoundedWith at h
  obtain ⟨expansion, hdesign, h⟩ := bind_eq_ok.mp h
  obtain ⟨fills, -, h⟩ := bind_eq_ok.mp h
  split at h
  · simp at h
  · rename_i report graph'' hplace
    obtain ⟨existingMap, -, h⟩ := bind_eq_ok.mp h
    obtain ⟨maskDicts', -, h⟩ := bind_eq_ok.mp h
    obtain ⟨rfl, heq⟩ := Prod.mk.inj (Except.ok.inj h)
    cases heq
    exact ⟨designed_of_stageDesignWith hdesign, report, hplace⟩

/-- **One materialization** out of a map and rows that fit is coherent. -/
theorem coherent_of_fits (hkeyed : palette.Keyed) (hgraph : MapFits palette graph)
    (hrows : RowsFit palette siteId store)
    (h : Materializes palette entropy request graph store graph' store') :
    Coherent entropy palette request siteId graph graph' store' := by
  cases h with
  | dungeon run =>
    obtain ⟨prepared, hran⟩ := ran_of_materialize run
    obtain ⟨hfitted, hrows'⟩ := fits_of_ran siteId hkeyed hgraph hrows hran
    obtain ⟨probe, hdesigned⟩ := hran.designed
    obtain ⟨report, hplace⟩ := hran.2.1
    exact ⟨hfitted, hrows', probe, prepared.expansion, report, hdesigned, hplace,
      scores_of_probe hdesigned hran.placed⟩
  | @bounded b _ _ archetype _ _ s s' run =>
    unfold SiteBuilder.materializeBoundedWith at run
    rw [exec_get_bind] at run
    cases hprepared : b.prepareBoundedWith palette request graph archetype s with
    | error e =>
      rw [hprepared] at run
      have hraised : Except.error e = Except.ok graph' := congrArg Prod.fst run
      simp at hraised
    | ok prepared =>
      obtain ⟨c, graph'', maskDicts⟩ := prepared
      rw [hprepared, exec_ofExcept_ok_bind] at run
      obtain ⟨u, t, hcommit, hreturn⟩ := exists_of_exec_bind run
      obtain ⟨heq, rfl⟩ := Prod.mk.inj hreturn
      cases heq
      obtain ⟨⟨probe, hdesigned⟩, report, hplace⟩ := designed_of_prepareBoundedWith hprepared
      have hplaced := placed_of_placeExpansion hplace
      have hfitted := mapFitted_of_designed hkeyed hgraph hdesigned hplaced
      have hkept := keepsRows_commitBounded siteId b request.siteId archetype c maskDicts
        hfitted (exec_of_siteTransaction hcommit)
      exact ⟨hfitted, hkept hrows, probe, c.expansion, report, hdesigned, hplace,
        scores_of_probe hdesigned hplaced⟩

/-! ### All materializations -/

/-- **Every map and all rows** that materializations lead to fit. -/
theorem Delved.fits (hkeyed : palette.Keyed) (h : Delved palette siteId graph store) :
    MapFits palette graph ∧ RowsFit palette siteId store := by
  induction h with
  | entrance theme unscored fresh =>
    exact ⟨mapFits_seedGraph unscored (fits_of_selectEntranceThemeId hkeyed theme),
      rowsFit_of_fresh fresh⟩
  | @site site archetype _ bounded fresh =>
    subst bounded
    exact ⟨mapFits_boundedSeed site archetype, rowsFit_of_fresh fresh⟩
  | materialized before step ih =>
    obtain ⟨hregions, hrows, -⟩ := coherent_of_fits hkeyed ih.1 ih.2 step
    exact ⟨hregions.mapFits, hrows⟩
  | raised same before run load ih =>
    subst same
    -- it raised before the commit, and the tables are as they were, or after it
    rcases cases_of_materialize run with ⟨-, htables⟩ | ⟨prepared, hran⟩
    · rw [htables] at load ⊢
      exact ⟨(mapFitted_of_loadMap ih.2 load).mapFits, ih.2⟩
    · obtain ⟨-, hrows⟩ := fits_of_ran siteId hkeyed ih.1 ih.2 hran
      exact ⟨(mapFitted_of_loadMap hrows load).mapFits, hrows⟩
  | loaded before load ih => exact ⟨(mapFitted_of_loadMap ih.2 load).mapFits, ih.2⟩
  | elsewhere before same ih =>
    refine ⟨ih.1, ?_⟩
    unfold RowsFit
    rw [same]
    exact ih.2

/-- **Themes fit depths**: what any materialization leaves is coherent. -/
theorem coherent_of_materializes (hkeyed : palette.Keyed)
    (hdelved : Delved palette siteId graph store)
    (h : Materializes palette entropy request graph store graph' store') :
    Coherent entropy palette request siteId graph graph' store' := by
  obtain ⟨hgraph, hrows⟩ := hdelved.fits hkeyed
  exact coherent_of_fits hkeyed hgraph hrows h

end Runs

/-! ### A crypt over an abyss -/

/-- Materialization with one theme down to a depth of ten, and another one below. -/
def bandedMaterializer : Materializer Unit :=
  { cryptMaterializer "flood" with
    palette := (Dict.empty.insert "crypt" { id := "crypt", depthBand := { max := some 10 } }).insert
      "abyss" { id := "abyss", depthBand := { min := 10 } } }

theorem keyed_bandedMaterializer : bandedMaterializer.palette.Keyed := by
  intro id theme hget
  unfold bandedMaterializer at hget
  rw [Dict.get?_insert, Dict.get?_insert] at hget
  split at hget
  · rename_i hid
    cases hget
    exact hid.symm
  · split at hget
    · rename_i hid
      cases hget
      exact hid.symm
    · simp at hget

/-- The first expansion reaches the abyss: its last region was generated as a crypt, and is none. -/
theorem coherent_banded :
    ∃ c', (bandedMaterializer.materialize cryptRequest).exec cryptCampaign = (.ok (), c') ∧
      (c'.graph.nodes.get? "exp001.r2").map (fun node => (node.theme, node.depthScore)) =
        some ("abyss", some 17) ∧
      Coherent bandedMaterializer.entropy bandedMaterializer.palette cryptRequest "frontier"
        cryptCampaign.graph c'.graph c'.tables.map := by
  have hlast : ((bandedMaterializer.materialize cryptRequest).exec cryptCampaign).map
      Except.isOk (fun c => (c.graph.nodes.get? "exp001.r2").map
        (fun node => (node.theme, node.depthScore))) = (true, some ("abyss", some 17)) := by
    decide +kernel
  rcases hexec : (bandedMaterializer.materialize cryptRequest).exec cryptCampaign with ⟨e | u, c'⟩
  · rw [hexec] at hlast
    simp [Except.isOk, Except.toBool] at hlast
  · rw [hexec] at hlast
    replace hlast := congrArg Prod.snd hlast
    have hdelved : Delved bandedMaterializer.palette "frontier" cryptCampaign.graph
        cryptCampaign.tables.map := .entrance (by decide) rfl rfl
    exact ⟨c', rfl, hlast, coherent_of_materializes keyed_bandedMaterializer hdelved
      (.dungeon hexec)⟩

end Sidequest.World
