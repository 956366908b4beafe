import Sidequest.World.BoundedSite

namespace Sidequest.World

open Lib Effect
open Dungeon

/-!
# Sites apart

The regions of different sites should bear different ids, each room of a bounded site should be
that site's, and whoever enters a site should come back to where it is. The rooms of a bounded site
bear the ids of the dungeon's, without the namespace: so the first bounded site that is made ends
all of it.

* `SiteWorld.step` — the dungeon grows, and movement dispatches are run;
* `Keeps`, `throughout_sitesApart_iff` — it holds throughout exactly if no bounded site is made, and
  whoever enters the dungeon does it where it is left.
-/

/-! ### Sessions -/

/-- A world as it is played, with what its sites are made with. -/
structure SiteWorld where
  builder : SiteBuilder
  reading : Reading
  worldSlug : String
  pack : GenrePack SiteArchetype
  palette : Option (Dict String Theme)

namespace SiteWorld

variable (world : SiteWorld)

/-- Dispatches are run on the store of the session; what the look-ahead worker writes there is an
    event of its own. -/
def context : MovementContext SiteStore SiteArchetype where
  reading := world.reading
  observers := []
  worldSlug := world.worldSlug
  pack := some world.pack
  dungeonStore := some world.builder.repository
  palette := world.palette

/-- The map of the world. -/
def cartography : Option Cartography := cartographyFor (some world.pack) world.worldSlug

/-- The sites of the world. -/
def registry : SiteRegistry := SiteRegistry.fromCartography world.cartography

/-- The region is on the map. -/
def Charted (region : String) : Prop :=
  match world.cartography with
  | none => False
  | some cart => region ∈ cart.regions.keys

end SiteWorld

/-- An expansion of the dungeon, with the map it is committed with. -/
structure Growth where
  expansion : Expansion
  graph : RegionGraph
  named : ∀ node ∈ expansion.newNodes, FrontierId node.id

/-- A session: who plays and what is stored, which bounded sites were made, and who is inside which
    site. -/
structure SiteSession where
  watched : Watched SiteStore
  opened : List SiteDescriptor
  inside : Dict String SiteDescriptor

/-- A session before anything is made. -/
def SiteSession.start (session : Session) (campaignSeeds : Dict String Nat) : SiteSession where
  watched := { session with store := { SiteStore.empty with campaignSeeds := campaignSeeds } }
  opened := []
  inside := .empty

/-- Who dispatches has a name. -/
inductive SiteEvent where
  | grow (growth : Growth)
  | dispatch (playerName : String) (named : playerName ≠ "") (dispatch : MovementDispatch)
      (names : List String)

/-- Which way a dispatch asks to go: into a site, out of one, or neither. -/
inductive Passage where
  | into (site : SiteDescriptor)
  | outOf
  | within

variable (store : SiteStore)

namespace SiteWorld

variable (world : SiteWorld)

/-- The way of a dispatch, by where the character stands. -/
def passage (w : Watched SiteStore) (playerName : String) (dispatch : MovementDispatch) : Passage :=
  match world.cartography with
  | none => .within
  | some cart =>
    if cart.navigationMode = .region then
      match owningSite world.registry (w.standing playerName), dispatch.action with
      | some _, "exit_site" => .outOf
      | none, "enter_site" =>
        match world.registry.resolveDescriptor world.reading (w.standing playerName)
          dispatch.siteDescriptor with
        | (some site, false) => .into site
        | _ => .within
      | _, _ => .within
    else .within

variable (store : SiteStore) (site : SiteDescriptor)

/-- The store once a site was asked to be there. -/
def opening : SiteStore :=
  match site.extent, world.pack.siteArchetypes.get? site.archetype with
  | .bounded, some archetype => ((world.builder.ensureMaterialized site archetype).exec store).2
  | _, _ => store

/-- A bounded site is made: it gets rows. -/
def Makes : Prop :=
  store.map.mapRows.length < (world.opening store site).map.mapRows.length

instance (store : SiteStore) (site : SiteDescriptor) : Decidable (world.Makes store site) :=
  inferInstanceAs (Decidable (_ < _))

/-- The entrance that bears no namespace is found on the map of a site. -/
def Finds : Prop :=
  ∃ graph, world.builder.repository.loadMap site.entranceNodeId site.siteId store = .ok graph ∧
    entranceId ∈ graph.nodes.keys

/-- The region the dungeon is left to. -/
def LeftTo (region : String) : Prop :=
  (world.registry.byId defaultSiteId).map (·.attachedTo) = some region ∧ region ≠ ""

/-- Who goes along with a dispatch, and is there afterwards. -/
def movers (w w' : Watched SiteStore) (playerName : String) (dispatch : MovementDispatch)
    (names : List String) : List String :=
  match ((resolveMovement world.context playerName dispatch).exec w).1 with
  | .ok (.go fromRegion toRegion _ _) =>
    (playerName :: followers w.toGameSnapshot playerName fromRegion toRegion names).filter
      (fun name => w'.pcRegions.get? name = some toRegion)
  | _ => []

/-- One dispatch of a session. -/
def dispatch (s : SiteSession) (playerName : String) (dispatch : MovementDispatch)
    (names : List String) : SiteSession :=
  let w' := ((runMovementDispatch world.context playerName dispatch names).exec s.watched).2
  let moved := world.movers s.watched w' playerName dispatch names
  match world.passage s.watched playerName dispatch with
  | .within => { s with watched := w' }
  | .outOf => { s with watched := w', inside := moved.foldl Dict.erase s.inside }
  | .into site => {
      watched := w'
      opened := if world.Makes s.watched.store site then s.opened ++ [site] else s.opened
      inside := moved.foldl (fun inside name => inside.insert name site) s.inside }

/-- One step of a session. A commit that raises is undone. -/
def step (s : SiteSession) : SiteEvent → SiteSession
  | .grow growth =>
    match (commitExpansion defaultSiteId growth.expansion growth.graph).exec
      s.watched.store.map with
    | (.ok _, map') =>
      { s with watched := { s.watched with store := { s.watched.store with map := map' } } }
    | (.error _, _) => s
  | .dispatch playerName _ dispatch names => world.dispatch s playerName dispatch names

end SiteWorld

/-! ### What should hold -/

/-- Leaving brings the character to a region. -/
def LeavesTo (world : SiteWorld) (w : Watched SiteStore) (name region : String) : Prop :=
  ∀ (dispatch : MovementDispatch) (names : List String), dispatch.action = "exit_site" →
    (∃ fromRegion via drains, ((resolveMovement world.context name dispatch).exec w).1
      = .ok (.go fromRegion region via drains)) ∧
    ((runMovementDispatch world.context name dispatch names).exec w).2.pcRegions.get? name
      = some region

/-- Different sites have no region in common; the regions of a bounded site that was made are that
    site's; and whoever entered a site comes back to where it is. -/
structure SitesApart (world : SiteWorld) (s : SiteSession) : Prop where
  disjoint : ∀ row ∈ s.watched.store.map.mapRows, ∀ row' ∈ s.watched.store.map.mapRows,
    row.regionId = row'.regionId → row.siteId = row'.siteId
  owned : ∀ site ∈ s.opened, ∀ row ∈ s.watched.store.map.mapRows, row.siteId = site.siteId →
    world.registry.siteOwningNode row.regionId = some site
  returns : ∀ name site, name ≠ "" → s.inside.get? name = some site →
    world.Charted site.attachedTo → LeavesTo world s.watched name site.attachedTo

/-! ### The regions of the dungeon -/

/-- The row is one that the dungeon wrote. -/
def DungeonRow (row : MapRow) : Prop := ∃ live, row = mapRow defaultSiteId live ∧ FrontierId live.id

/-- Only the dungeon has rows. -/
def DungeonRows (map : MapStore) : Prop := ∀ row ∈ map.mapRows, DungeonRow row

/-- There is a row of the region. -/
def OnRow (regionId : String) : Prop :=
  ∃ row ∈ store.map.mapRows, row.regionId = regionId

section Loading

variable {scan : Scan} {entrance siteId : String} {map : MapStore} {graph : RegionGraph}

/-- The regions stay. -/
def NodesKept (graph graph' : RegionGraph) : Prop := graph'.nodes = graph.nodes

instance : IsPreorder RegionGraph NodesKept where
  refl _ := rfl
  trans _ _ _ h h' := h'.trans h

theorem nodesKept_forM_loadEdge (payloads : List Projection.Json) :
    Preserves NodesKept (payloads.forM (loadRow RegionEdge.fromDict RegionGraph.addEdge)) := by
  refine preserves_forM (fun payload => (preserves_ofExcept _).bind (fun edge graph => ?_)) payloads
  unfold RegionGraph.addEdge
  rw [exec_get_bind]
  split
  · exact rfl
  · split
    · split <;> exact rfl
    · exact rfl

/-- **What is loaded** of a site whose rows were written are the regions of the rows. -/
theorem entries_of_loadMap (hrows : ∀ row ∈ map.mapRowsAt siteId, ∃ live, row = mapRow siteId live)
    (h : loadMap scan entrance siteId map = .ok graph) :
    ∃ nodes : List RegionNode, nodes.map (mapRow siteId) = scan.order (map.mapRowsAt siteId) ∧
      graph.nodes.entries = nodes.map (fun node => (node.id, node)) := by
  obtain ⟨nodes, hnodes⟩ : ∃ nodes : List RegionNode,
      nodes.map (mapRow siteId) = scan.order (map.mapRowsAt siteId) := by
    have hmem : scan.order (map.mapRowsAt siteId) ∈ {l | ∀ row ∈ l,
        row ∈ Set.range (mapRow siteId)} := by
      intro row hrow
      obtain ⟨live, hlive⟩ := hrows row ((scan.perm _).mem_iff.mp hrow)
      exact ⟨live, hlive.symm⟩
    rw [← Set.range_list_map] at hmem
    exact hmem
  refine ⟨nodes, hnodes, ?_⟩
  have hpayloads : (scan.order (map.mapRowsAt siteId)).map (·.payload)
      = nodes.map RegionNode.toDict := by
    rw [← hnodes, List.map_map]
    rfl
  -- the loop over the rows returned, so all of the regions are on the map, and edges add none
  unfold loadMap at h
  dsimp only at h
  rw [hpayloads, exec_bind, exec_forM_loadRow RegionNode.fromDict_toDict] at h
  obtain ⟨hinserted, hok⟩ := exec_forM_addNode nodes (RegionGraph.empty entrance)
  rcases hexec : (nodes.forM RegionGraph.addNode).exec (RegionGraph.empty entrance)
    with ⟨e | u, withNodes⟩
  · rw [hexec] at h
    simp at h
  · rw [hexec] at h hinserted hok
    have hall := hok.mp rfl
    rw [hall] at hinserted
    dsimp only at h
    generalize hpayloads' : ((scan.order (map.edgeRowsAt siteId)).insertionSort
      (·.edgeId ≤ ·.edgeId)).map (·.payload) = payloads at h
    have hkept := nodesKept_forM_loadEdge payloads withNodes
    rcases hedges : (payloads.forM (loadRow RegionEdge.fromDict RegionGraph.addEdge)).exec
      withNodes with ⟨e | u', withEdges⟩
    · rw [hedges] at h
      simp at h
    · rw [hedges] at h hkept
      cases h
      exact (congrArg Dict.entries hkept).trans hinserted.nodes

theorem mem_keys_iff_of_loadMap (hrows : DungeonRows map)
    (h : loadMap scan entrance siteId map = .ok graph) (r : String) :
    r ∈ graph.nodes.keys ↔ ∃ row ∈ map.mapRows, row.siteId = siteId ∧ row.regionId = r := by
  have hwritten : ∀ row ∈ map.mapRowsAt siteId, ∃ live, row = mapRow siteId live := by
    intro row hrow
    obtain ⟨hmem, hsite⟩ := List.mem_filter.mp hrow
    obtain ⟨live, rfl, -⟩ := hrows row hmem
    obtain rfl : defaultSiteId = siteId := of_decide_eq_true hsite
    exact ⟨live, rfl⟩
  obtain ⟨nodes, hnodes, hentries⟩ := entries_of_loadMap hwritten h
  have hkeys : graph.nodes.keys = nodes.map (·.id) := by
    rw [Dict.keys, hentries, List.map_map]
    rfl
  rw [hkeys, List.mem_map]
  constructor
  · rintro ⟨node, hnode, rfl⟩
    have hrow : mapRow siteId node ∈ scan.order (map.mapRowsAt siteId) := by
      rw [← hnodes]
      exact List.mem_map_of_mem hnode
    obtain ⟨hmem, hsite⟩ := List.mem_filter.mp ((scan.perm _).mem_iff.mp hrow)
    exact ⟨_, hmem, of_decide_eq_true hsite, rfl⟩
  · rintro ⟨row, hmem, hsite, rfl⟩
    have hrow : row ∈ nodes.map (mapRow siteId) := by
      rw [hnodes]
      exact (scan.perm _).mem_iff.mpr (List.mem_filter.mpr ⟨hmem, decide_eq_true hsite⟩)
    obtain ⟨node, hnode, rfl⟩ := List.mem_map.mp hrow
    exact ⟨node, hnode, rfl⟩

end Loading

/-! ### Passages -/

variable {site : SiteDescriptor}

section Passages

variable {world : SiteWorld} {w : Watched SiteStore} {playerName : String}
  {dispatch : MovementDispatch}

theorem passage_eq_into_iff :
    world.passage w playerName dispatch = .into site ↔
      ∃ cart, world.cartography = some cart ∧ cart.navigationMode = .region ∧
        owningSite world.registry (w.standing playerName) = none ∧
        dispatch.action = "enter_site" ∧
        world.registry.resolveDescriptor world.reading (w.standing playerName)
          dispatch.siteDescriptor = (some site, false) := by
  unfold SiteWorld.passage
  cases world.cartography with
  | none => simp
  | some cart =>
    dsimp only
    by_cases hmode : cart.navigationMode = .region
    · rw [if_pos hmode]
      constructor
      · intro h
        split at h
        · simp at h
        · rename_i howning haction
          split at h
          · rename_i site' hresolved
            cases h
            exact ⟨cart, rfl, hmode, howning, haction, hresolved⟩
          · simp at h
        · simp at h
      · rintro ⟨cart', -, -, howning, haction, hresolved⟩
        rw [howning, haction]
        show (match world.registry.resolveDescriptor world.reading (w.standing playerName)
          dispatch.siteDescriptor with
          | (some site, false) => Passage.into site
          | _ => .within) = _
        rw [hresolved]
    · rw [if_neg hmode]
      refine iff_of_false (by simp) ?_
      rintro ⟨cart', hcart, hmode', -⟩
      exact hmode (Option.some.inj hcart ▸ hmode')

theorem passage_eq_outOf_iff :
    world.passage w playerName dispatch = .outOf ↔
      ∃ cart site, world.cartography = some cart ∧ cart.navigationMode = .region ∧
        owningSite world.registry (w.standing playerName) = some site ∧
        dispatch.action = "exit_site" := by
  unfold SiteWorld.passage
  cases world.cartography with
  | none => simp
  | some cart =>
    dsimp only
    by_cases hmode : cart.navigationMode = .region
    · rw [if_pos hmode]
      constructor
      · intro h
        split at h
        · rename_i site howning haction
          exact ⟨cart, site, rfl, hmode, howning, haction⟩
        · split at h <;> simp at h
        · simp at h
      · rintro ⟨cart', site, -, -, howning, haction⟩
        rw [howning, haction]
        rfl
    · rw [if_neg hmode]
      refine iff_of_false (by simp) ?_
      rintro ⟨cart', site, hcart, hmode', -⟩
      exact hmode (Option.some.inj hcart ▸ hmode')

end Passages

/-! ### What a resolution reads -/

/-- The computation changes nothing, and what it returns is good. -/
def Reads {α : Type} (w : Watched SiteStore) (m : Effect MovementError (Watched SiteStore) α)
    (good : α → Prop) : Prop :=
  Meets (fun w' => w' = w) m (fun a w' => w' = w ∧ good a) (fun _ w' => w' = w)

section Reads

variable {w : Watched SiteStore} {α β : Type} {good : α → Prop} {good' : β → Prop}

theorem reads_pure {a : α} (h : good a) :
    Reads w (pure a : Effect MovementError (Watched SiteStore) α) good := fun _ hw => ⟨hw, h⟩

theorem reads_throw (e : MovementError) :
    Reads w (throw e : Effect MovementError (Watched SiteStore) α) good := fun _ hw => hw

variable {m : Effect MovementError (Watched SiteStore) α}

theorem Reads.bind {f : α → Effect MovementError (Watched SiteStore) β} (hm : Reads w m good)
    (hf : ∀ a, good a → Reads w (f a) good') : Reads w (m >>= f) good' := by
  refine meets_bind hm (fun a => ?_)
  intro w' hw'
  exact hf a hw'.2 w' hw'.1

theorem reads_get_bind {f : Watched SiteStore → Effect MovementError (Watched SiteStore) β}
    (hf : Reads w (f w) good') : Reads w (get >>= f) good' := by
  intro w' hw'
  rw [exec_get_bind, hw']
  exact hf w rfl

theorem reads_readStore (read : SiteStore → Except String α) :
    Reads w (readStore read) (fun a => read w.store = .ok a) := by
  refine reads_get_bind ?_
  split
  · rename_i a ha
    exact reads_pure ha
  · exact reads_throw _

theorem Reads.state (hm : Reads w m good) : (m.exec w).2 = w := by
  have hpost := hm w rfl
  rcases hexec : m.exec w with ⟨e | a, w'⟩
  · rw [hexec] at hpost
    exact hpost
  · rw [hexec] at hpost
    exact hpost.1

theorem Reads.mono {good₂ : α → Prop} (hm : Reads w m good) (h : ∀ a, good a → good₂ a) :
    Reads w m good₂ :=
  hm.weaken (fun _ hw => hw) (fun a _ ha => ⟨ha.1, h a ha.2⟩) (fun _ _ he => he)

end Reads

/-- A region to go to meets the predicate. -/
def Verdict.Lands (P : String → Prop) : Verdict → Prop
  | .stay _ => True
  | .go _ toRegion _ _ => P toRegion

theorem FrontierId.ne_blank {id : String} (h : FrontierId id) : id ≠ "" := by
  rintro rfl
  exact absurd h.isProcedural (by decide)

/-- Who stands in the dungeon is not led out of it. -/
def StaysInside (w : Watched SiteStore) (playerName : String) (verdict? : Option Verdict) : Prop :=
  OnRow w.store (w.standing playerName) →
    ∀ verdict, verdict? = some verdict → verdict.Lands (OnRow w.store)

section Moves

variable {world : SiteWorld} {w : Watched SiteStore} {playerName fromRegion : String}

theorem OnRow.frontierId (hrows : DungeonRows w.store.map)
    (h : OnRow w.store fromRegion) : FrontierId fromRegion := by
  obtain ⟨row, hmem, rfl⟩ := h
  obtain ⟨live, rfl, hlive⟩ := hrows row hmem
  exact hlive

theorem loadMap_of_repository {entrance siteId : String} {store : SiteStore} {graph : RegionGraph}
    (h : world.builder.repository.loadMap entrance siteId store = .ok graph) :
    loadMap world.builder.scan entrance siteId store.map = .ok graph := by
  have hload : (loadMap world.builder.scan entrance siteId store.map).mapError
      (fun _ => "corrupt dungeon payload") = .ok graph := h
  cases hmap : loadMap world.builder.scan entrance siteId store.map with
  | error e =>
    rw [hmap] at hload
    simp [Except.mapError] at hload
  | ok graph' =>
    rw [hmap] at hload
    rw [Except.ok.inj hload]

theorem not_mem_keys_of_loadMap (hrows : DungeonRows w.store.map) {graph : RegionGraph}
    (h : loadMap world.builder.scan site.entranceNodeId site.siteId w.store.map = .ok graph) :
    site.entranceNodeId ∉ graph.nodes.keys := by
  intro hown
  obtain ⟨row, hmem, -, hid⟩ := (mem_keys_iff_of_loadMap hrows h _).mp hown
  exact not_frontierId_siteEntranceId site.siteId (OnRow.frontierId hrows ⟨row, hmem, hid⟩)

theorem onRow_of_finds (hrows : DungeonRows w.store.map) (h : world.Finds w.store site) :
    OnRow w.store entranceId := by
  obtain ⟨graph, hload, hmem⟩ := h
  obtain ⟨row, hrow, -, hid⟩ :=
    (mem_keys_iff_of_loadMap hrows (loadMap_of_repository hload) _).mp hmem
  exact ⟨row, hrow, hid⟩

/-- **A site that is entered** where only the dungeon has rows is entered by the dungeon's
    entrance. -/
theorem reads_enterSite (site : SiteDescriptor) :
    Reads w (enterSite world.context playerName fromRegion site) (fun verdict =>
      DungeonRows w.store.map → verdict.Lands (fun toRegion =>
        toRegion = entranceId ∧ world.Finds w.store site)) := by
  unfold enterSite
  refine (reads_readStore (world.builder.repository.loadMap site.entranceNodeId site.siteId)).bind
    (fun graph hload => ?_)
  unfold resolveEnterSite
  by_cases hown : site.entranceNodeId ∈ graph.nodes.keys
  · rw [if_pos hown]
    exact reads_pure (fun hrows =>
      absurd hown (not_mem_keys_of_loadMap hrows (loadMap_of_repository hload)))
  · rw [if_neg hown]
    by_cases hbare : entranceId ∈ graph.nodes.keys
    · rw [if_pos hbare]
      exact reads_pure (fun _ => ⟨rfl, graph, hload, hbare⟩)
    · rw [if_neg hbare]
      exact reads_pure (fun _ => trivial)

theorem reads_wayOut (dispatch : MovementDispatch) {graph : RegionGraph}
    (palette : Dict String Theme) (hnode : fromRegion ∈ graph.nodes.keys)
    (hkeys : ∀ r, r ∈ graph.nodes.keys → OnRow w.store r) :
    Reads w (wayOut world.context playerName fromRegion dispatch graph palette w)
      (Verdict.Lands (OnRow w.store)) := by
  unfold wayOut
  split
  · exact reads_throw _
  · rename_i proj hproj
    dsimp only
    split
    · exact reads_pure trivial
    · split
      · exact reads_throw _
      · rename_i resolved hresolved
        split
        · exact reads_pure trivial
        · split
          · exact reads_pure trivial
          · rename_i chosen hchosen
            have hmem := List.mem_of_mem_filter
              (Dungeon.mem_of_resolve world.context.reading hresolved hchosen)
            rw [Dungeon.exits_of_projectRegion hproj] at hmem
            rw [takeWay_of_mem_exits world.context resolved.via hnode hmem]
            obtain ⟨edge, hedge, hother⟩ := Dungeon.exists_edge_of_mem_exits hmem
            exact reads_pure (hkeys _ (Dungeon.mem_keys_of_otherEnd hedge hother))

theorem registry_eq {cart : Cartography} (hcart : world.cartography = some cart) :
    SiteRegistry.fromCartography (some cart) = world.registry := by
  rw [← hcart]
  rfl

/-- What the first half of the resolution settles is settled. -/
theorem exec_resolveMovement_of_region {dispatch : MovementDispatch} {cart : Cartography}
    (hcart : world.cartography = some cart) (hmode : cart.navigationMode = .region)
    {m : Effect MovementError (Watched SiteStore) Verdict}
    (h : (regionMode world.context cart playerName dispatch).exec w
      = (m >>= fun verdict => pure (some verdict)).exec w) :
    (resolveMovement world.context playerName dispatch).exec w = m.exec w := by
  have hplayed : cartographyFor world.context.pack world.context.worldSlug = some cart := hcart
  unfold resolveMovement
  rw [hplayed]
  dsimp only
  rw [if_pos hmode, exec_bind, h, exec_bind]
  rcases m.exec w with ⟨e | verdict, w'⟩
  · rfl
  · rfl

theorem exec_resolveMovement_into {dispatch : MovementDispatch}
    (hinto : world.passage w playerName dispatch = .into site) :
    (resolveMovement world.context playerName dispatch).exec w
      = (openSite world.context playerName (w.standing playerName) site).exec w := by
  obtain ⟨cart, hcart, hmode, howning, haction, hresolved⟩ := passage_eq_into_iff.mp hinto
  refine exec_resolveMovement_of_region hcart hmode ?_
  unfold regionMode
  rw [exec_get_bind]
  dsimp only
  rw [registry_eq hcart]
  split
  · rename_i _ hsite _
    rw [howning] at hsite
    simp at hsite
  · rename_i _ hexit
    rw [haction] at hexit
    simp at hexit
  · split
    · rename_i hboth
      have hambiguous := congrArg Prod.snd (hboth.symm.trans hresolved)
      simp at hambiguous
    · rename_i hnone
      have hnobody := congrArg Prod.fst (hnone.symm.trans hresolved)
      simp at hnobody
    · rename_i site' hsite
      have hsame := congrArg Prod.fst (hsite.symm.trans hresolved)
      rw [Option.some.inj hsame]
  · rename_i hother
    exact (hother howning haction).elim

theorem exec_resolveMovement_outOf {dispatch : MovementDispatch} {cart : Cartography}
    (hcart : world.cartography = some cart) (hmode : cart.navigationMode = .region)
    (howning : owningSite world.registry (w.standing playerName) = some site)
    (haction : dispatch.action = "exit_site") :
    (resolveMovement world.context playerName dispatch).exec w
      = (.ok (exitSite cart playerName (w.standing playerName) site), w) := by
  refine exec_resolveMovement_of_region hcart hmode (m := pure _) ?_
  unfold regionMode
  rw [exec_get_bind]
  dsimp only
  rw [registry_eq hcart, howning, haction]
  rfl

theorem mapRows_opening (world : SiteWorld) (store : SiteStore) (site : SiteDescriptor) :
    (world.opening store site).map.mapRows = store.map.mapRows ∨
      Furnished site.siteId store (world.opening store site) := by
  unfold SiteWorld.opening
  split
  · rename_i archetype _ _
    have hmeets := meets_ensureMaterialized world.builder site archetype store store rfl
    rcases hexec : (world.builder.ensureMaterialized site archetype).exec store with ⟨e | u, s'⟩
    · rw [hexec] at hmeets
      exact hmeets.imp_left (congrArg MapStore.mapRows)
    · rw [hexec] at hmeets
      exact hmeets.imp_left (fun h => congrArg (fun s : SiteStore => s.map.mapRows) h.2)
  · exact .inl rfl

theorem mapRows_opening_of_not_makes (h : ¬ world.Makes w.store site) :
    (world.opening w.store site).map.mapRows = w.store.map.mapRows := by
  rcases mapRows_opening world w.store site with hsame | ⟨rows, hrows', row, hrow, -⟩
  · exact hsame
  · refine absurd ?_ h
    unfold SiteWorld.Makes
    rw [hrows', List.length_append]
    have := List.length_pos_of_mem hrow
    omega

variable (hrows : DungeonRows w.store.map)
include hrows

theorem mem_keys_iff_onRow {graph : RegionGraph}
    (h : world.builder.repository.loadMap entranceId defaultSiteId w.store = .ok graph)
    (r : String) : r ∈ graph.nodes.keys ↔ OnRow w.store r := by
  rw [mem_keys_iff_of_loadMap hrows (loadMap_of_repository h)]
  constructor
  · rintro ⟨row, hmem, -, hid⟩
    exact ⟨row, hmem, hid⟩
  · rintro ⟨row, hmem, hid⟩
    obtain ⟨live, hlive, -⟩ := hrows row hmem
    exact ⟨row, hmem, by rw [hlive]; rfl, hid⟩

theorem exec_enterSite_of_finds (h : world.Finds w.store site) :
    (enterSite world.context playerName fromRegion site).exec w
      = (.ok (.go fromRegion entranceId "site_enter" false), w) := by
  obtain ⟨graph, hload, hbare⟩ := h
  have hown := not_mem_keys_of_loadMap hrows (loadMap_of_repository hload)
  have hread : (readStore (world.builder.repository.loadMap site.entranceNodeId site.siteId)).exec w
      = (.ok graph, w) := by
    unfold readStore
    rw [exec_get_bind, hload]
    rfl
  have hstore : world.context.dungeonStore = some world.builder.repository := rfl
  unfold enterSite
  rw [hstore]
  rw [exec_bind, hread]
  unfold resolveEnterSite
  dsimp only
  rw [if_neg hown, if_pos hbare]
  rfl

/-- Who is in the dungeon is found there. -/
theorem reads_inDungeon : Reads w (inDungeon world.context fromRegion)
      (fun below => OnRow w.store fromRegion → below = true) := by
  unfold inDungeon
  show Reads w (if fromRegion = "" then pure false
    else do
      let graph ← readStore (world.builder.repository.loadMap entranceId defaultSiteId)
      pure (decide (fromRegion ∈ graph.nodes.keys))) _
  by_cases hblank : fromRegion = ""
  · rw [if_pos hblank]
    exact reads_pure (fun hon => absurd hblank (hon.frontierId hrows).ne_blank)
  · rw [if_neg hblank]
    refine (reads_readStore _).bind (fun graph hload => reads_pure (fun hon => ?_))
    exact decide_eq_true ((mem_keys_iff_onRow hrows hload _).mpr hon)

theorem reads_underway (cart : Cartography) (dispatch : MovementDispatch) :
    Reads w (regionMode.underway world.context cart playerName dispatch w (w.standing playerName))
      (StaysInside w playerName) := by
  unfold regionMode.underway
  refine (reads_inDungeon hrows).bind (fun below hbelow => ?_)
  split
  · exact reads_pure (fun _ _ hsome => nomatch hsome)
  · rename_i hout
    exact reads_pure (fun hon => absurd (hbelow hon) hout)

/-- **The navigator** keeps who is in the dungeon there. -/
theorem reads_navigate (dispatch : MovementDispatch) :
    Reads w (navigate world.context playerName dispatch) (fun verdict =>
      OnRow w.store (w.standing playerName) → verdict.Lands (OnRow w.store)) := by
  unfold navigate
  split
  · rename_i repository palette hstore hpalette
    obtain rfl : world.builder.repository = repository := Option.some.inj hstore
    refine reads_get_bind ?_
    split
    · exact reads_pure (fun _ => trivial)
    · exact reads_pure (fun _ => trivial)
    · rename_i start hnone hstart
      have hstanding : w.standing playerName = start := congrArg (Option.getD · "") hstart
      rw [hstanding]
      refine (reads_readStore _).bind (fun graph hload => ?_)
      have hkeys := mem_keys_iff_onRow hrows hload
      by_cases hnode : start ∈ graph.nodes.keys
      · rw [if_neg (not_not.mpr hnode)]
        exact (reads_wayOut dispatch palette hnode (fun r => (hkeys r).mp)).mono
          (fun _ hlands _ => hlands)
      · rw [if_pos hnode]
        exact reads_pure (fun hon => absurd ((hkeys start).mpr hon) hnode)
  · exact reads_pure (fun _ => trivial)

/-- **Neither into a site nor out of one**, a move keeps who is in the dungeon there. -/
theorem reads_resolveMovement (dispatch : MovementDispatch)
    (hwithin : world.passage w playerName dispatch = .within) :
    Reads w (resolveMovement world.context playerName dispatch) (fun verdict =>
      OnRow w.store (w.standing playerName) → verdict.Lands (OnRow w.store)) := by
  unfold resolveMovement
  split
  · rename_i cart hcart
    split
    · rename_i hmode
      have hregion : Reads w (regionMode world.context cart playerName dispatch)
          (StaysInside w playerName) := by
        have hunderway : Reads w (regionMode.underway world.context cart playerName dispatch w
          (w.standing playerName)) (StaysInside w playerName) := reads_underway hrows cart dispatch
        have hstay : ∀ output : SubsystemOutput, Reads w
            (pure (some (.stay output)) : Effect MovementError (Watched SiteStore) (Option Verdict))
            (StaysInside w playerName) := by
          intro output
          refine reads_pure (fun _ verdict hsome => ?_)
          cases hsome
          trivial
        refine reads_get_bind ?_
        dsimp only
        rw [registry_eq hcart]
        split
        · rename_i site howning haction
          rw [passage_eq_outOf_iff.mpr ⟨cart, site, hcart, hmode, howning, haction⟩] at hwithin
          simp at hwithin
        · split
          · exact hstay _
          · exact hunderway
        · rename_i howning haction
          split
          · exact hstay _
          · exact hstay _
          · rename_i site hresolved
            rw [passage_eq_into_iff.mpr ⟨cart, hcart, hmode, howning, haction, hresolved⟩]
              at hwithin
            simp at hwithin
        · exact hunderway
      refine hregion.bind (fun verdict? hverdict => ?_)
      split
      · exact reads_pure (fun hon => hverdict hon _ rfl)
      · exact reads_navigate hrows dispatch
    · exact reads_navigate hrows dispatch
  · exact reads_navigate hrows dispatch

/-- **Opening a site** leaves the store as it is once the site was asked to be there. If nothing is
    made, it leads to the dungeon's entrance, and into a site that grows. -/
theorem meets_openSite (site : SiteDescriptor) :
    Meets (fun w' => w' = w) (openSite world.context playerName fromRegion site)
      (fun verdict w' => w' = { w with store := world.opening w.store site } ∧
        (¬ world.Makes w.store site → verdict.Lands (fun toRegion =>
          toRegion = entranceId ∧ site.extent = .frontier ∧ world.Finds w.store site)))
      (fun _ w' => w' = { w with store := world.opening w.store site }) := by
  unfold openSite
  cases hextent : site.extent with
  | frontier =>
    -- a frontier site has its map already, and nothing is materialized
    have hopening : world.opening w.store site = w.store := by
      unfold SiteWorld.opening
      rw [hextent]
    rw [hopening]
    refine (reads_enterSite site).weaken (fun _ h => h) (fun verdict w' h => ?_)
      (fun _ _ h => h)
    refine ⟨h.1, fun _ => ?_⟩
    have hlands := h.2 hrows
    cases verdict with
    | stay output => trivial
    | go start toRegion via drains => exact ⟨hlands.1, rfl, hlands.2⟩
  | bounded =>
    have hlookup : world.context.pack.bind (·.siteArchetypes.get? site.archetype)
      = world.pack.siteArchetypes.get? site.archetype := rfl
    rw [hlookup]
    cases harchetype : world.pack.siteArchetypes.get? site.archetype with
    | none =>
      have hopening : world.opening w.store site = w.store := by
        unfold SiteWorld.opening
        rw [hextent, harchetype]
      rw [hopening]
      exact reads_pure (fun _ => trivial)
    | some archetype =>
      have hopening : world.opening w.store site
          = ((world.builder.ensureMaterialized site archetype).exec w.store).2 := by
        unfold SiteWorld.opening
        rw [hextent, harchetype]
      set opened : Watched SiteStore := { w with store := world.opening w.store site } with hopened
      -- whether it returns or raises, the site is materialized before it is entered
      have hmade : Meets (fun w' => w' = w)
          (ensureBoundedSiteMaterialized world.context site archetype)
          (fun made w' => w' = opened ∧ ∀ u, made = .ok u → world.Makes w.store site)
          (fun _ w' => w' = opened) := by
        rintro w' rfl
        have hmeets := meets_ensureMaterialized world.builder site archetype w'.store w'.store rfl
        have hexec : (ensureBoundedSiteMaterialized world.context site archetype).exec w'
            = (.ok ((world.builder.repository.materializeBounded site archetype).exec w'.store).1,
              { w' with store :=
                ((world.builder.repository.materializeBounded site archetype).exec w'.store).2 }) :=
          rfl
        have hadapt : world.builder.repository.materializeBounded site archetype
            = ExceptT.adapt (fun _ => SiteFailure.other "materialize_bounded")
                (world.builder.ensureMaterialized site archetype) := rfl
        rw [hexec, hadapt, exec_adapt]
        rw [hopening] at hopened
        rcases hmaking : (world.builder.ensureMaterialized site archetype).exec w'.store
          with ⟨e | u, s'⟩
        · rw [hmaking] at hopened
          exact ⟨hopened.symm, fun u h => nomatch h⟩
        · rw [hmaking] at hopened hmeets
          refine ⟨hopened.symm, fun _ _ => ?_⟩
          rcases hmeets with ⟨⟨existing, hload, hknown⟩, -⟩ | ⟨rows, hrows', row, hrow, -⟩
          · exact absurd hknown (not_mem_keys_of_loadMap hrows hload)
          · unfold SiteWorld.Makes
            rw [hopening, hmaking, hrows', List.length_append]
            have := List.length_pos_of_mem hrow
            omega
      refine meets_bind hmade (fun made => ?_)
      split
      · exact fun _ h => ⟨h.1, fun _ => trivial⟩
      · exact fun _ h => ⟨h.1, fun _ => trivial⟩
      · rename_i u
        refine meets_of_forall (fun w' h => ?_)
        have hmakes := h.2 u rfl
        rw [h.1]
        exact (reads_enterSite site).weaken (fun _ h => h)
          (fun _ _ h => ⟨h.1, fun hnot => absurd hmakes hnot⟩) (fun _ _ h => h)

theorem state_openSite (site : SiteDescriptor) :
    ((openSite world.context playerName fromRegion site).exec w).2
      = { w with store := world.opening w.store site } := by
  have hmeets : Meets (fun w' => w' = w) (openSite world.context playerName fromRegion site)
      (fun _ w' => w' = { w with store := world.opening w.store site })
      (fun _ w' => w' = { w with store := world.opening w.store site }) :=
    (meets_openSite hrows site).weaken (fun _ h => h) (fun _ _ h => h.1) (fun _ _ h => h)
  have hpost := hmeets w rfl
  rcases hexec : (openSite world.context playerName fromRegion site).exec w with ⟨e | v, w'⟩
  · rw [hexec] at hpost
    exact hpost
  · rw [hexec] at hpost
    exact hpost

end Moves

/-! ### Where everybody is -/

/-- The store stays, and nobody moves but some, who go to a region. -/
def Carries (who : List String) (toRegion : String) (w w' : Watched SiteStore) : Prop :=
  w'.store = w.store ∧ ∀ name, w'.pcRegions.get? name = w.pcRegions.get? name ∨
    name ∈ who ∧ w'.pcRegions.get? name = some toRegion

instance (who : List String) (toRegion : String) :
    IsPreorder (Watched SiteStore) (Carries who toRegion) where
  refl _ := ⟨rfl, fun _ => .inl rfl⟩
  trans _ _ _ h h' := by
    refine ⟨h'.1.trans h.1, fun name => ?_⟩
    rcases h'.2 name with hsame | hmoved
    · rcases h.2 name with hsame' | hmoved
      · exact .inl (hsame.trans hsame')
      · exact .inr ⟨hmoved.1, hsame.trans hmoved.2⟩
    · exact .inr hmoved

/-- The store stays. -/
def StoreKept (w w' : Watched SiteStore) : Prop := w'.store = w.store

instance : IsPreorder (Watched SiteStore) StoreKept where
  refl _ := rfl
  trans _ _ _ h h' := h'.trans h

theorem storeKept_mapSession (f : Session → Session) : Preserves StoreKept
    (modify (Watched.mapSession f) : Effect PatchError (Watched SiteStore) PUnit) :=
  preserves_modify (fun _ => rfl)

/-- Nobody observes, so nothing is stored. -/
theorem storeKept_moveObserved (move : String × String) :
    Preserves StoreKept (moveObserved ([] : List (StoreObserver SiteStore)) move) := by
  refine preserves_get.bind (fun w => (storeKept_mapSession _).bind (fun _ => ?_))
  cases crossing w.pcRegions move with
  | none => exact preserves_pure ()
  | some notice =>
    refine (storeKept_mapSession _).bind (fun _ => Preserves.bind ?_ (fun _ => fun _ => rfl))
    exact (storeKept_mapSession _).bind (fun _ => preserves_pure ())

section Parties

variable {world : SiteWorld} {who : List String} {toRegion : String}

theorem carries_patchPcRegion {name : String} (hname : name ∈ who) :
    Preserves (Carries who toRegion)
      (patchPcRegion ([] : List (StoreObserver SiteStore)) (name, toRegion)) := by
  intro w
  refine ⟨((storeKept_moveObserved (name, toRegion)).bind
    (fun _ => storeKept_mapSession syncAnchor)) w, fun other => ?_⟩
  rcases hexec : (patchPcRegion ([] : List (StoreObserver SiteStore)) (name, toRegion)).exec w
  rw [get?_patchPcRegion hexec other]
  by_cases heq : other = name
  · exact .inr ⟨heq ▸ hname, if_pos heq⟩
  · exact .inl (if_neg heq)

/-- **The party moves.** Wherever its move ends, the acting character is at the new region, and the
    others are there or where they were. -/
theorem carries_partyMove (world : SiteWorld) (actingPc fromRegion toRegion : String)
    (drains : Bool) (names : List String) (w : Watched SiteStore) :
    Carries (actingPc :: followers w.toGameSnapshot actingPc fromRegion toRegion names) toRegion w
        ((partyMove world.context actingPc fromRegion toRegion drains names).exec w).2 ∧
      ((partyMove world.context actingPc fromRegion toRegion drains names).exec w).2.pcRegions.get?
        actingPc = some toRegion := by
  set who := actingPc :: followers w.toGameSnapshot actingPc fromRegion toRegion names with hwho
  have hacting : Carries who toRegion w
      ((patchPcRegion world.context.observers (actingPc, toRegion)).exec w).2 :=
    carries_patchPcRegion (.head _) w
  have hwaited : afterActing world.context actingPc toRegion drains w
      = ((patchPcRegion world.context.observers (actingPc, toRegion)).exec w).2 := by
    cases drains <;> rfl
  have hothers : ∀ gone, Carries who toRegion gone
      (((followers w.toGameSnapshot actingPc fromRegion toRegion names).forM
        (fun peer => patchPcRegion world.context.observers (peer, toRegion))).exec gone).2 :=
    preserves_forM_of_mem (fun peer hpeer =>
      carries_patchPcRegion (.tail actingPc hpeer))
  rw [exec_partyMove, hwaited]
  rcases hgone : (patchPcRegion world.context.observers (actingPc, toRegion)).exec w
    with ⟨e | u, gone⟩
  · rw [hgone] at hacting
    exact ⟨hacting, (get?_patchPcRegion hgone actingPc).trans (if_pos rfl)⟩
  · rw [hgone] at hacting
    have hthere := (get?_patchPcRegion hgone actingPc).trans (if_pos rfl)
    have hrest := hothers gone
    refine ⟨trans_of (Carries who toRegion) hacting hrest, ?_⟩
    rcases hrest.2 actingPc with hsame | hmoved
    · exact hsame.trans hthere
    · exact hmoved.2

/-- **A dispatch** is its resolution, and the move of the party if it names a region. -/
theorem runMovementDispatch_cases (world : SiteWorld) (playerName : String) (dispatch : MovementDispatch)
    (names : List String) (w : Watched SiteStore) :
    (∃ x w₁, (resolveMovement world.context playerName dispatch).exec w = (x, w₁) ∧
        (∀ verdict, x = .ok verdict → verdict.Lands (fun _ => False)) ∧
        ((runMovementDispatch world.context playerName dispatch names).exec w).2 = w₁) ∨
      ∃ fromRegion toRegion via drains w₁,
        (resolveMovement world.context playerName dispatch).exec w
          = (.ok (.go fromRegion toRegion via drains), w₁) ∧
        ((runMovementDispatch world.context playerName dispatch names).exec w).2
          = ((partyMove world.context playerName fromRegion toRegion drains names).exec w₁).2 := by
  unfold runMovementDispatch
  rw [exec_bind]
  rcases (resolveMovement world.context playerName dispatch).exec w with ⟨e | verdict, w₁⟩
  · exact .inl ⟨_, _, rfl, fun _ h => by simp at h, rfl⟩
  · cases verdict with
    | stay output =>
      refine .inl ⟨_, _, rfl, fun verdict h => ?_, rfl⟩
      cases h
      trivial
    | go fromRegion toRegion via drains =>
      refine .inr ⟨fromRegion, toRegion, via, drains, w₁, rfl, ?_⟩
      dsimp only
      rw [exec_bind, exec_adapt]
      rcases (partyMove world.context playerName fromRegion toRegion drains names).exec w₁
        with ⟨e | u, w'⟩ <;> rfl

end Parties

/-! ### Leaving -/

section Leaving

variable {world : SiteWorld} {w : Watched SiteStore} {name region : String} {cart : Cartography}

theorem standing_of_get? {s : GameSnapshot} (hname : name ≠ "")
    (h : s.pcRegions.get? name = some region) : s.standing name = region := by
  unfold GameSnapshot.standing GameSnapshot.regionForPerspective
  rw [if_neg hname, h]
  rfl

/-- Every region of the dungeon is the first site's. -/
theorem owningSite_of_frontierId (registry : SiteRegistry) (h : FrontierId region) :
    owningSite registry region = registry.byId defaultSiteId := by
  unfold owningSite SiteRegistry.siteOwningNode
  rw [h.siteIdOf]
  rw [if_pos h.isProcedural]

/-- There is no way out of a dungeon that is not declared. -/
theorem exec_resolveMovement_undeclared {dispatch : MovementDispatch}
    (hcart : world.cartography = some cart) (hmode : cart.navigationMode = .region)
    (hid : FrontierId (w.standing name)) (hnone : world.registry.byId defaultSiteId = none)
    (haction : dispatch.action = "exit_site") :
    ∃ output, (resolveMovement world.context name dispatch).exec w = (.ok (.stay output), w) := by
  have howning : owningSite world.registry (w.standing name) = none :=
    (owningSite_of_frontierId _ hid).trans hnone
  refine ⟨unresolved name "frontier_site_undeclared"
    "There is no way out mapped from here — this place was never declared as a site.",
    exec_resolveMovement_of_region hcart hmode (m := pure _) ?_⟩
  unfold regionMode
  rw [exec_get_bind]
  dsimp only
  rw [registry_eq hcart, howning, haction]
  show Effect.exec (if isProceduralRegionId (w.standing name) = true then _ else _) w = _
  rw [if_pos hid.isProcedural]
  rfl

/-- **From the dungeon** one comes back to a region of the map exactly if the dungeon is left to
    it. -/
theorem leavesTo_iff (hcart : world.cartography = some cart) (hmode : cart.navigationMode = .region)
    (hname : name ≠ "") (hstands : w.pcRegions.get? name = some region) (hid : FrontierId region)
    {back : String} (hcharted : world.Charted back) :
    LeavesTo world w name back ↔ world.LeftTo back := by
  have hstanding : w.standing name = region := standing_of_get? hname hstands
  have howning := owningSite_of_frontierId world.registry hid
  unfold SiteWorld.LeftTo
  -- no default site is declared, so an exit is refused
  cases hsite : world.registry.byId defaultSiteId with
  | none =>
    refine iff_of_false (fun h => ?_) (by simp)
    obtain ⟨⟨fromRegion, via, drains, hgo⟩, -⟩ := h { action := "exit_site" } [] rfl
    have hundeclared : ∃ output, (resolveMovement world.context name
        { action := "exit_site" }).exec w = (.ok (.stay output), w) :=
      exec_resolveMovement_undeclared hcart hmode (hstanding ▸ hid) hsite rfl
    obtain ⟨output, hstay⟩ := hundeclared
    rw [hstay] at hgo
    simp at hgo
  | some site =>
    rw [hsite, ← hstanding] at howning
    have hexec : ∀ dispatch : MovementDispatch, dispatch.action = "exit_site" →
        (resolveMovement world.context name dispatch).exec w
          = (.ok (exitSite cart name (w.standing name) site), w) :=
      fun dispatch haction => exec_resolveMovement_outOf hcart hmode howning haction
    rw [Option.map_some, Option.some.injEq]
    constructor
    · intro h
      obtain ⟨⟨fromRegion, via, drains, hgo⟩, -⟩ := h { action := "exit_site" } [] rfl
      rw [hexec _ rfl] at hgo
      have hexit := Except.ok.inj hgo
      unfold exitSite resolveExitSite at hexit
      split at hexit
      · simp [refuse] at hexit
      · rename_i toRegion hto
        split at hto
        · simp at hto
        · rename_i hok
          have hback : toRegion = back := (Verdict.go.inj hexit).2.1
          rw [← hback, ← Except.ok.inj hto]
          exact ⟨rfl, fun hblank => hok (.inl hblank)⟩
    · rintro ⟨rfl, hblank⟩ dispatch names haction
      -- the way back is charted, so the exit resolves to it
      have hkeys : site.attachedTo ∈ cart.regions.keys := by
        unfold SiteWorld.Charted at hcharted
        rw [hcart] at hcharted
        exact hcharted
      have hgo : exitSite cart name (w.standing name) site
          = .go (w.standing name) site.attachedTo "site_exit" false := by
        unfold exitSite resolveExitSite
        rw [if_neg (by simp [hblank, hkeys])]
      have hresolved := hexec dispatch haction
      rw [hgo] at hresolved
      refine ⟨⟨_, _, _, congrArg Prod.fst hresolved⟩, ?_⟩
      rcases runMovementDispatch_cases world name dispatch names w with
        ⟨x, w₁, hx, hlands, -⟩ | ⟨fromRegion, toRegion, via, drains, w₁, hx, hfinal⟩
      · rw [hresolved] at hx
        exact (hlands _ (Prod.mk.inj hx).1.symm).elim
      · rw [hresolved] at hx
        obtain ⟨hverdict, rfl⟩ := Prod.mk.inj hx
        cases hverdict
        rw [hfinal]
        exact (carries_partyMove _ _ _ _ _ _ _).2

end Leaving

/-! ### One step -/

section Steps

variable {world : SiteWorld} {s : SiteSession}

/-- **What a dispatch does.** The store is as the resolution left it, and whoever does not go along
    stays. -/
theorem exec_runMovementDispatch (world : SiteWorld) (playerName : String) (dispatch : MovementDispatch)
    (names : List String) (w : Watched SiteStore) :
    let w' := ((runMovementDispatch world.context playerName dispatch names).exec w).2
    w'.store = ((resolveMovement world.context playerName dispatch).exec w).2.store ∧
      (∀ name, name ∉ world.movers w w' playerName dispatch names →
        w'.pcRegions.get? name = w.pcRegions.get? name) ∧
      ∀ name ∈ world.movers w w' playerName dispatch names, ∃ toRegion via drains w₁,
        (resolveMovement world.context playerName dispatch).exec w
          = (.ok (.go (w.standing playerName) toRegion via drains), w₁) ∧
        w'.pcRegions.get? name = some toRegion ∧
        (name = playerName ∨ w.pcRegions.get? name = some (w.standing playerName)) := by
  dsimp only
  have hresolves := resolves_resolveMovement world.context playerName dispatch w w rfl
  rcases runMovementDispatch_cases world playerName dispatch names w with
    ⟨x, w₁, hx, hlands, hfinal⟩ | ⟨fromRegion, toRegion, via, drains, w₁, hx, hfinal⟩
  · have hsame : w₁.toSession = w.toSession := by
      rw [hx] at hresolves
      cases x with
      | error e => exact hresolves.1
      | ok verdict => exact hresolves.1
    -- where nothing is resolved to go, nobody moves
    have hnobody : ∀ w', world.movers w w' playerName dispatch names = [] := by
      intro w'
      unfold SiteWorld.movers
      rw [hx]
      cases x with
      | error e => rfl
      | ok verdict =>
        cases verdict with
        | stay output => rfl
        | go start toRegion via drains => exact (hlands _ rfl).elim
    rw [hfinal, hx]
    refine ⟨rfl, fun name _ => by rw [hsame], fun name hname => ?_⟩
    rw [hnobody] at hname
    simp at hname
  · rw [hx] at hresolves
    obtain ⟨hsame, hstart⟩ := hresolves
    obtain rfl : fromRegion = w.standing playerName := hstart
    have hcarries := (carries_partyMove world playerName (w.standing playerName) toRegion drains
      names w₁).1
    rw [← hfinal] at hcarries
    set w' := ((runMovementDispatch world.context playerName dispatch names).exec w).2
    have hmovers : world.movers w w' playerName dispatch names
        = (playerName :: followers w.toGameSnapshot playerName (w.standing playerName) toRegion
          names).filter (fun name => w'.pcRegions.get? name = some toRegion) := by
      unfold SiteWorld.movers
      rw [hx]
    rw [hmovers, hx]
    obtain ⟨hstore, hregions⟩ := hcarries
    rw [hsame] at hregions
    refine ⟨hstore, fun name hname => ?_, fun name hname => ?_⟩
    · rcases hregions name with hstays | ⟨hgoes, hthere⟩
      · exact hstays
      · exact absurd (List.mem_filter.mpr ⟨hgoes, decide_eq_true hthere⟩) hname
    · obtain ⟨hgoes, hthere⟩ := List.mem_filter.mp hname
      refine ⟨toRegion, via, drains, w₁, rfl, of_decide_eq_true hthere, ?_⟩
      -- a follower stood where the acting character did
      rcases List.mem_cons.mp hgoes with hacting | hfollows
      · exact .inl hacting
      · right
        unfold followers at hfollows
        split at hfollows
        · simp at hfollows
        · have hcolocated := (List.mem_filter.mp hfollows).2
          rw [decide_eq_true_eq] at hcolocated
          exact hcolocated.2

/-- The acting character gets where the resolution leads. -/
theorem mem_movers_of_go {playerName : String} {dispatch : MovementDispatch} (names : List String)
    {w w₁ : Watched SiteStore} {fromRegion toRegion via : String} {drains : Bool}
    (h : (resolveMovement world.context playerName dispatch).exec w
      = (.ok (.go fromRegion toRegion via drains), w₁)) :
    let w' := ((runMovementDispatch world.context playerName dispatch names).exec w).2
    w'.pcRegions.get? playerName = some toRegion ∧
      playerName ∈ world.movers w w' playerName dispatch names := by
  have hthere : ((runMovementDispatch world.context playerName dispatch names).exec w).2.pcRegions.get?
      playerName = some toRegion := by
    rcases runMovementDispatch_cases world playerName dispatch names w with
      ⟨x, w₂, hx, hlands, -⟩ | ⟨fromRegion', toRegion', via', drains', w₂, hx, hfinal⟩
    · rw [h] at hx
      exact (hlands _ (Prod.mk.inj hx).1.symm).elim
    · rw [h] at hx
      obtain ⟨hverdict, rfl⟩ := Prod.mk.inj hx
      cases hverdict
      rw [hfinal]
      exact (carries_partyMove _ _ _ _ _ _ _).2
  refine ⟨hthere, ?_⟩
  unfold SiteWorld.movers
  rw [h]
  exact List.mem_filter.mpr ⟨.head _, decide_eq_true hthere⟩

/-- Only the dungeon was made, and whoever is inside a site is in the dungeon, by a way that leads
    back. -/
structure OnlyDungeon (world : SiteWorld) (s : SiteSession) : Prop where
  rows : DungeonRows s.watched.store.map
  unopened : s.opened = []
  inside : ∀ name site, s.inside.get? name = some site →
    (∃ region, s.watched.pcRegions.get? name = some region ∧ OnRow s.watched.store region) ∧
      (∃ cart, world.cartography = some cart ∧ cart.navigationMode = .region) ∧
      (world.Charted site.attachedTo → world.LeftTo site.attachedTo)

/-- No bounded site is made, and a site that is entered is where the dungeon is left to, if it is
    anywhere on the map. -/
def Keeps (world : SiteWorld) (s : SiteSession) : SiteEvent → Prop
  | .grow _ => True
  | .dispatch playerName _ dispatch _ => ∀ site,
    world.passage s.watched playerName dispatch = .into site →
      ¬ world.Makes s.watched.store site ∧
        (site.extent = .frontier → world.Finds s.watched.store site →
          world.Charted site.attachedTo → world.LeftTo site.attachedTo)

/-- While only the dungeon is made, everything holds. -/
theorem OnlyDungeon.sitesApart (h : OnlyDungeon world s) : SitesApart world s where
  disjoint := by
    intro row hrow row' hrow' _
    obtain ⟨live, rfl, -⟩ := h.rows row hrow
    obtain ⟨live', rfl, -⟩ := h.rows row' hrow'
    rfl
  owned := by
    intro site hsite
    rw [h.unopened] at hsite
    simp at hsite
  returns := by
    intro name site hname hinside hcharted
    obtain ⟨⟨region, hregion, hrow⟩, ⟨cart, hcart, hmode⟩, hleft⟩ := h.inside name site hinside
    exact (leavesTo_iff hcart hmode hname hregion (hrow.frontierId h.rows) hcharted).mpr
      (hleft hcharted)

theorem OnlyDungeon.grow (h : OnlyDungeon world s) (growth : Growth) :
    OnlyDungeon world (world.step s (.grow growth)) := by
  unfold SiteWorld.step
  dsimp only
  rcases hexec : (commitExpansion defaultSiteId growth.expansion growth.graph).exec
    s.watched.store.map with ⟨e | u, map'⟩
  · exact h
  · obtain ⟨rows, hrows, hids, hlive⟩ := mapRows_commitExpansion hexec
    refine ⟨fun row hrow => ?_, h.unopened, fun name site hinside => ?_⟩
    · have hmem : row ∈ s.watched.store.map.mapRows ++ rows := hrows ▸ hrow
      rcases List.mem_append.mp hmem with hold | hnew
      · exact h.rows row hold
      · obtain ⟨live, rfl⟩ := hlive row hnew
        have hid : live.id ∈ growth.expansion.newNodes.map (·.id) := by
          rw [← hids]
          exact List.mem_map_of_mem hnew
        obtain ⟨node, hnode, heq⟩ := List.mem_map.mp hid
        exact ⟨live, rfl, heq ▸ growth.named node hnode⟩
    · obtain ⟨⟨region, hregion, row, hrow, hid⟩, hplayed, hleft⟩ := h.inside name site hinside
      refine ⟨⟨region, hregion, row, ?_, hid⟩, hplayed, hleft⟩
      show row ∈ map'.mapRows
      rw [hrows]
      exact List.mem_append_left rows hrow

/-- The rows stay, unless a bounded site is made. -/
theorem mapRows_resolveMovement {w : Watched SiteStore} (hrows : DungeonRows w.store.map)
    (playerName : String) (dispatch : MovementDispatch)
    (hmakes : ∀ site, world.passage w playerName dispatch = .into site →
      ¬ world.Makes w.store site) :
    ((resolveMovement world.context playerName dispatch).exec w).2.store.map.mapRows
      = w.store.map.mapRows := by
  cases hpassage : world.passage w playerName dispatch with
  | within =>
    rw [(reads_resolveMovement hrows dispatch hpassage).state]
  | outOf =>
    obtain ⟨cart, site, hcart, hmode, howning, haction⟩ := passage_eq_outOf_iff.mp hpassage
    rw [exec_resolveMovement_outOf hcart hmode howning haction]
  | into site =>
    rw [exec_resolveMovement_into hpassage, state_openSite hrows]
    exact mapRows_opening_of_not_makes (hmakes site hpassage)

/-- **A dispatch** that keeps to it leaves only the dungeon made. -/
theorem OnlyDungeon.dispatch (h : OnlyDungeon world s) (playerName : String)
    (named : playerName ≠ "") (dispatch : MovementDispatch) (names : List String)
    (hkeeps : Keeps world s (.dispatch playerName named dispatch names)) :
    OnlyDungeon world (world.step s (.dispatch playerName named dispatch names)) := by
  obtain ⟨hstore, hstay, hgo⟩ := exec_runMovementDispatch world playerName dispatch names
    s.watched
  have hmapRows := mapRows_resolveMovement h.rows playerName dispatch
    (fun site hsite => (hkeeps site hsite).1)
  rw [← hstore] at hmapRows
  show OnlyDungeon world (world.dispatch s playerName dispatch names)
  unfold SiteWorld.dispatch
  set w' := ((runMovementDispatch world.context playerName dispatch names).exec s.watched).2
  set moved := world.movers s.watched w' playerName dispatch names with hmoved
  have hrows : DungeonRows w'.store.map := by
    unfold DungeonRows
    rw [hmapRows]
    exact h.rows
  -- a move adds no rows, so who stays has one as before
  have honRow : ∀ region, OnRow s.watched.store region → OnRow w'.store region := by
    intro region
    unfold OnRow
    rw [hmapRows]
    exact id
  have hsame : ∀ name region, s.watched.pcRegions.get? name = some region →
      OnRow s.watched.store region → name ∉ moved →
      ∃ region', w'.pcRegions.get? name = some region' ∧ OnRow w'.store region' :=
    fun name region hregion hrow hmem => ⟨region, (hstay name hmem).trans hregion, honRow _ hrow⟩
  cases hpassage : world.passage s.watched playerName dispatch with
  | within =>
    refine ⟨hrows, h.unopened, fun name site hinside => ?_⟩
    obtain ⟨⟨region, hregion, hrow⟩, hplayed, hleft⟩ := h.inside name site hinside
    refine ⟨?_, hplayed, hleft⟩
    by_cases hmem : name ∈ moved
    · -- who goes along stood where the acting character did, so that one was in the dungeon
      obtain ⟨toRegion, via, drains, w₁, hx, hthere, hwho⟩ := hgo name hmem
      have hstanding : s.watched.standing playerName = region := by
        rcases hwho with rfl | hbeside
        · exact standing_of_get? named hregion
        · exact Option.some.inj (hbeside.symm.trans hregion)
      have hlands := ((reads_resolveMovement h.rows dispatch hpassage).of_ok rfl hx).2
      exact ⟨toRegion, hthere, honRow _ (hlands (hstanding ▸ hrow))⟩
    · exact hsame name region hregion hrow hmem
  | outOf =>
    refine ⟨hrows, h.unopened, fun name site hinside => ?_⟩
    -- who has left is inside no site any more
    rw [Dict.get?_foldl_erase] at hinside
    split at hinside
    · simp at hinside
    · rename_i hmem
      obtain ⟨⟨region, hregion, hrow⟩, hrest⟩ := h.inside name site hinside
      exact ⟨hsame name region hregion hrow hmem, hrest⟩
  | into site =>
    obtain ⟨hmakes, hleft⟩ := hkeeps site hpassage
    refine ⟨hrows, ?_, fun name site' hinside => ?_⟩
    · dsimp only
      rw [if_neg hmakes]
      exact h.unopened
    · rw [Dict.get?_foldl_insert_same] at hinside
      split at hinside
      · rename_i hmem
        cases hinside
        obtain ⟨toRegion, via, drains, w₁, hx, hthere, -⟩ := hgo name hmem
        rw [exec_resolveMovement_into hpassage] at hx
        obtain ⟨rfl, hfrontier, hfinds⟩ := ((meets_openSite h.rows site).of_ok rfl hx).2 hmakes
        obtain ⟨cart, hcart, hmode, -⟩ := passage_eq_into_iff.mp hpassage
        exact ⟨⟨_, hthere, honRow _ (onRow_of_finds h.rows hfinds)⟩, ⟨cart, hcart, hmode⟩,
          hleft hfrontier hfinds⟩
      · rename_i hmem
        obtain ⟨⟨region, hregion, hrow⟩, hrest⟩ := h.inside name site' hinside
        exact ⟨hsame name region hregion hrow hmem, hrest⟩

/-- **A dispatch** that does not keep to it ends what should hold. -/
theorem OnlyDungeon.not_sitesApart (h : OnlyDungeon world s) (playerName : String)
    (named : playerName ≠ "") (dispatch : MovementDispatch) (names : List String)
    (hkeeps : ¬ Keeps world s (.dispatch playerName named dispatch names)) :
    ¬ SitesApart world (world.step s (.dispatch playerName named dispatch names)) := by
  obtain ⟨site, hsite⟩ := not_forall.mp hkeeps
  obtain ⟨hpassage, hsite⟩ := Classical.not_imp.mp hsite
  obtain ⟨hstore, -, -⟩ := exec_runMovementDispatch world playerName dispatch names
    s.watched
  rw [exec_resolveMovement_into hpassage, state_openSite h.rows] at hstore
  show ¬ SitesApart world (world.dispatch s playerName dispatch names)
  unfold SiteWorld.dispatch
  rw [hpassage]
  set w' := ((runMovementDispatch world.context playerName dispatch names).exec s.watched).2
  intro hapart
  by_cases hmakes : world.Makes s.watched.store site
  · -- the room that is written bears no namespace, so it is no site's
    rcases mapRows_opening world s.watched.store site with hrows |
      ⟨rows, hrows, row, hrow, hrowSite, i, hid⟩
    · unfold SiteWorld.Makes at hmakes
      rw [hrows] at hmakes
      exact absurd hmakes (lt_irrefl _)
    · have hmem : row ∈ w'.store.map.mapRows := by
        rw [hstore]
        show row ∈ (world.opening s.watched.store site).map.mapRows
        rw [hrows]
        exact List.mem_append_right _ hrow
      have hopened : site ∈ if world.Makes s.watched.store site then s.opened ++ [site]
          else s.opened := by
        rw [if_pos hmakes]
        exact List.mem_append_right _ (.head _)
      have howned := hapart.owned site hopened row hmem hrowSite
      unfold SiteRegistry.siteOwningNode at howned
      have hbare : siteIdOf (Dungeon.regionId 1 i) = none := siteIdOf_regionId 1 i
      rw [hid, hbare] at howned
      simp at howned
  · -- the site is the dungeon by another way, and the dungeon is left elsewhere
    have hentered := fun himp => hsite ⟨hmakes, himp⟩
    obtain ⟨hfrontier, hrest⟩ := Classical.not_imp.mp hentered
    obtain ⟨hfinds, hrest⟩ := Classical.not_imp.mp hrest
    obtain ⟨hcharted, hleft⟩ := Classical.not_imp.mp hrest
    have hresolved : (resolveMovement world.context playerName dispatch).exec s.watched
        = (.ok (.go (s.watched.standing playerName) entranceId "site_enter" false), s.watched) := by
      rw [exec_resolveMovement_into hpassage]
      unfold openSite
      rw [hfrontier]
      exact exec_enterSite_of_finds h.rows hfinds
    obtain ⟨hthere, hmoves⟩ := mem_movers_of_go names hresolved
    obtain ⟨cart, hcart, hmode, -⟩ := passage_eq_into_iff.mp hpassage
    refine hleft ((leavesTo_iff hcart hmode named hthere (.inl rfl) hcharted).mp
      (hapart.returns playerName site named ?_ hcharted))
    rw [Dict.get?_foldl_insert_same, if_pos hmoves]

end Steps

/-- **Sites apart.** In a session the regions of sites are kept apart, and whoever enters a site
    comes back to where it is, throughout exactly if no bounded site is made, and every site that is
    entered is where the dungeon is left to. -/
theorem throughout_sitesApart_iff (world : SiteWorld) (session : Session)
    (campaignSeeds : Dict String Nat) (es : List SiteEvent) :
    Throughout world.step (SitesApart world) (SiteSession.start session campaignSeeds) es ↔
      StepsMeet world.step (Keeps world) (SiteSession.start session campaignSeeds) es := by
  refine throughout_iff_stepsMeet (I := OnlyDungeon world) ?_ (fun _ h => h.sitesApart) ?_ ?_
  · intro s e h hkeeps
    cases e with
    | grow growth => exact h.grow growth
    | dispatch playerName named dispatch names =>
      exact h.dispatch playerName named dispatch names hkeeps
  · intro s e h hkeeps
    cases e with
    | grow growth => exact absurd trivial hkeeps
    | dispatch playerName named dispatch names =>
      exact h.not_sitesApart playerName named dispatch names hkeeps
  · exact ⟨fun row hrow => absurd hrow (by simp [SiteSession.start, SiteStore.empty, MapStore.empty]),
      rfl, fun name site hinside => absurd hinside (by simp [SiteSession.start])⟩

/-! ### Two houses on a square -/

/-- A village with two bounded sites of three rooms each. -/
def village : SiteWorld where
  builder := {
    entropy := risingDraws
    digests := zeroDigests
    scan := asInserted
    randomSeed := 7
    stageFill := fun _ _ _ => .ok .empty }
  reading := { lower := id, digest := String.length }
  worldSlug := "vale"
  pack := {
    worlds := Dict.empty.insert "vale" {
      regions := Dict.empty.insert "square" { name := "The Square" }
      sites := [⟨"boar", "The Boar", "house", "square", .bounded⟩,
        ⟨"mill", "The Mill", "house", "square", .bounded⟩] }
    siteArchetypes := Dict.empty.insert "house" ⟨"house", 3, 3, [], [], by decide, by decide⟩ }
  palette := none

/-- Ann and Bob on the square. -/
def onTheSquare : Session where
  pcRegions := (Dict.empty.insert "Ann" "square").insert "Bob" "square"

/-- Ann goes into the one house, and Bob into the other. -/
def visitsToHouses : List SiteEvent :=
  [.dispatch "Ann" (by decide) { action := "enter_site", siteDescriptor := "Boar" } [],
    .dispatch "Bob" (by decide) { action := "enter_site", siteDescriptor := "Mill" } []]

/-- The rooms of both houses bear the same ids, and none of them is owned by its house. -/
theorem not_sitesApart_village :
    ¬ SitesApart village
        (run village.step (SiteSession.start onTheSquare .empty) visitsToHouses) ∧
      (run village.step (SiteSession.start onTheSquare .empty)
        visitsToHouses).watched.store.map.mapRows.map (fun row => (row.siteId, row.regionId))
        = [("boar", "boar:entrance"), ("boar", "exp001.r0"), ("boar", "exp001.r1"),
          ("boar", "exp001.r2"), ("mill", "mill:entrance"), ("mill", "exp001.r0"),
          ("mill", "exp001.r1"), ("mill", "exp001.r2")] ∧
      village.registry.siteOwningNode "exp001.r0" = none := by
  have hrows : (run village.step (SiteSession.start onTheSquare .empty)
      visitsToHouses).watched.store.map.mapRows.map (fun row => (row.siteId, row.regionId))
      = [("boar", "boar:entrance"), ("boar", "exp001.r0"), ("boar", "exp001.r1"),
        ("boar", "exp001.r2"), ("mill", "mill:entrance"), ("mill", "exp001.r0"),
        ("mill", "exp001.r1"), ("mill", "exp001.r2")] := by decide +kernel
  refine ⟨fun hapart => ?_, hrows, by decide⟩
  have hrow : ∀ pair ∈ [("boar", "exp001.r0"), ("mill", "exp001.r0")],
      ∃ row ∈ (run village.step (SiteSession.start onTheSquare .empty)
        visitsToHouses).watched.store.map.mapRows, (row.siteId, row.regionId) = pair := by
    intro pair hpair
    refine List.mem_map.mp ?_
    rw [hrows]
    revert pair
    decide
  obtain ⟨row, hmem, heq⟩ := hrow ("boar", "exp001.r0") (by decide)
  obtain ⟨row', hmem', heq'⟩ := hrow ("mill", "exp001.r0") (by decide)
  obtain ⟨hsite, hid⟩ := Prod.mk.inj heq
  obtain ⟨hsite', hid'⟩ := Prod.mk.inj heq'
  have hsame := hapart.disjoint row hmem row' hmem' (hid.trans hid'.symm)
  rw [hsite, hsite'] at hsame
  simp at hsame

end Sidequest.World
