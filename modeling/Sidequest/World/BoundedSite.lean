import Sidequest.Dungeon.Exits
import Sidequest.World.PartyMove

namespace Sidequest.World

open Lib Effect
open Dungeon

/-!
# Bounded sites

A bounded site is made as a whole when it is entered first: an entrance under the namespace of the
site, and rooms behind it, which are generated and named as those of the dungeon are.

* `SiteArchetype`, `buildBoundedPalette` — what a site is made from;
* `meets_ensureMaterialized` — the making of a site writes a room, or nothing of the map.
-/

/-! ### What a site is made from -/

/-- A kind of site: how many rooms there are, and what they may be called. -/
structure SiteArchetype where
  archetypeId : String
  (roomCountMin roomCountMax : Int)
  roomVocabulary : List String := []
  featurePalette : List String := []
  atLeastOne : 1 ≤ roomCountMin
  ordered : roomCountMin ≤ roomCountMax

/-- The only theme of a bounded site. -/
def boundedThemeId (archetype : SiteArchetype) : String := "bounded_" ++ archetype.archetypeId

/-- One theme, for every depth. -/
def buildBoundedPalette (archetype : SiteArchetype) : ThemePalette :=
  Dict.empty.insert (boundedThemeId archetype) { id := boundedThemeId archetype }

/-- The tables of a session. What is stored of a site stands under its id. -/
structure SiteStore where
  map : MapStore
  masks : Dict (String × String) MaskDict
  frontier : Dict (String × String) FrontierEdge
  campaignSeeds : Dict String Nat
  mutations : List DungeonMutation

/-- A session without a dungeon. -/
def SiteStore.empty : SiteStore := ⟨.empty, .empty, .empty, .empty, []⟩

/-- What sites are made with: digests and draws, the order of rows, a random seed, and the filling of
    regions with interiors. -/
structure SiteBuilder where
  entropy : Entropy
  digests : TacticalEntropy
  scan : Scan
  randomSeed : Nat
  stageFill : SiteArchetype → MaterializationRequest → Expansion →
    Except String (Dict String RegionFill)

/-! ### The making of a site -/

/-- The design stage with these knobs. -/
def stageDesignWith (entropy : Entropy) (palette : ThemePalette) (request : MaterializationRequest)
    (config : JaquaysConfig) (graph : RegionGraph) : Except MaterializeError Expansion :=
  let themePool := (themesForDepth palette request.frontierEdge.spawnDepthScore).map (·.id)
  if themePool = [] then .error (.noEligibleTheme request.frontierEdge.spawnDepthScore)
  else
    match generateExpansion entropy graph request.campaignSeed request.expansionId
      request.attachRegionIds themePool config with
    | .error cause => .error (.graph cause)
    | .ok (expansion, _) =>
      match (placeExpansion entropy request expansion).exec graph with
      | (.error cause, _) => .error (.graph cause)
      | (.ok _, depthProbe) => do
        let newNodes ← expansion.newNodes.mapM (resolveTheme entropy palette request depthProbe)
        .ok { expansion with newNodes := newNodes }

/-- The dungeon's design stage is the one with the knobs of the dungeon. -/
theorem stageDesign_eq (entropy : Entropy) (palette : ThemePalette)
    (request : MaterializationRequest) (graph : RegionGraph) :
    stageDesign entropy palette request graph
      = stageDesignWith entropy palette request { connectionBurst := request.burstMagnitude }
          graph := rfl

/-- What a room is called, and up to two things in it. -/
def boundedRoomIdentity (entropy : Entropy) (archetype : SiteArchetype) (campaignSeed : Int)
    (siteId regionId : String) : Option (List (String × String)) :=
  let mix := (entropy.blake2b ("roomid|" ++ toString campaignSeed ++ "|" ++ siteId ++ "|" ++
    regionId)).val
  archetype.roomVocabulary[mix % archetype.roomVocabulary.length]?.map (fun label =>
    let features := archetype.featurePalette
    let chosen := (List.range (min 2 features.length)).filterMap
      (fun i => features[(mix % features.length + i) % features.length]?)
    ("region_id", regionId) :: ("label", label) :: chosen.map (fun f => ("features", f)))

/-- A transaction: where it raises, the tables are as they were. -/
def siteTransaction (body : Effect MaterializeError SiteStore Unit) :
    Effect MaterializeError SiteStore Unit :=
  ExceptT.mk (m := StateM SiteStore) fun s => match body.exec s with
    | (.ok a, s') => (.ok a, s')
    | (.error e, _) => (.error e, s)

/-- Write one more row of the mutation overlay. -/
def recordIdentity (siteId : String) (identity : String → Option (List (String × String)))
    (mutations : List DungeonMutation) (node : RegionNode) : List DungeonMutation :=
  match identity node.id with
  | none => mutations
  | some payload => mutations ++ [⟨siteId, node.id, "room_identity", payload⟩]

namespace SiteBuilder

variable (b : SiteBuilder)

variable (siteId : String)

/-- The commit of a bounded site: its entrance, its rooms with their masks, and what they are
    called. -/
def commitBounded (archetype : SiteArchetype) (c : Commit) (graph : RegionGraph)
    (maskDicts : Dict String MaskDict) : Effect MaterializeError SiteStore Unit := do
  zoom SiteStore.map (fun map s => { s with map := map }) (do
    commitSeed siteId c graph
    ExceptT.adapt MaterializeError.store (commitExpansion siteId c.expansion graph))
  modify (fun s => { s with
    masks := c.expansion.newNodes.foldl (writeMask siteId maskDicts) s.masks
    mutations := c.expansion.newNodes.foldl (recordIdentity siteId
      (boundedRoomIdentity b.entropy archetype c.campaignSeed siteId)) s.mutations })

/-- What is prepared before the commit: the expansion and the map with it, and what was filled in. -/
def prepareBounded (request : MaterializationRequest) (graph : RegionGraph)
    (archetype : SiteArchetype) (s : SiteStore) :
    Except MaterializeError (Commit × RegionGraph × Dict String MaskDict) := do
  let expansion ← stageDesignWith b.entropy (buildBoundedPalette archetype) request
    { connectionBurst := request.burstMagnitude
      newRegionsPerExpansion := (archetype.roomCountMin, archetype.roomCountMax) } graph
  let fills ← (b.stageFill archetype request expansion).mapError .stage
  match (placeExpansion b.entropy request expansion).exec graph with
  | (.error cause, _) => .error (.graph cause)
  | (.ok _, graph') => do
    let existingMap ← (loadMap b.scan graph.entranceId request.siteId s.map).mapError .store
    let existingFrontier := s.frontier.keys.filter (fun key => key.1 = request.siteId)
    let c : Commit := {
      campaignSeed := request.campaignSeed
      expansion := expansion
      fills := fills
      attachReports := []
      curation := { regionManifests := .empty }
      isFreshSave := existingMap.nodes.entries.isEmpty && existingFrontier.isEmpty }
    let maskDicts ← (masksOf b.digests c graph').mapError .graph
    .ok (c, graph', maskDicts)

/-- Make the interior of a bounded site. -/
def materializeBounded (request : MaterializationRequest) (graph : RegionGraph)
    (archetype : SiteArchetype) : Effect MaterializeError SiteStore Unit := do
  let s ← get
  let (c, graph', maskDicts) ← ofExcept (prepareBounded b request graph archetype s)
  siteTransaction (commitBounded b request.siteId archetype c graph' maskDicts)

/-- The seed of a site, folded out of the seed of the session. -/
def deriveSiteSeed (baseSeed : Nat) (siteId : String) : Nat :=
  (b.entropy.blake2b (toString baseSeed ++ "|" ++ siteId)).val % 2 ^ 63

/-- A seed is written once. -/
def setCampaignSeed (seed : Nat) : Effect MaterializeError SiteStore PUnit := do
  let s ← get
  if siteId ∈ s.campaignSeeds.keys then
    throw (.stage ("campaign_seed already set — it is write-once (save-is-truth); " ++
      "refusing to overwrite a frozen seed"))
  else set { s with campaignSeeds := s.campaignSeeds.insert siteId seed }

/-- The seed of the session; it is drawn if there is none. -/
def sessionSeed : Effect MaterializeError SiteStore Nat := do
  let s ← get
  match s.campaignSeeds.get? defaultSiteId with
  | some base => pure base
  | none => do
    setCampaignSeed defaultSiteId b.randomSeed
    pure b.randomSeed

/-- The seed of a site. -/
def siteSeed : Effect MaterializeError SiteStore Nat := do
  let s ← get
  match s.campaignSeeds.get? siteId with
  | some seed => pure seed
  | none => do
    let base ← sessionSeed b
    setCampaignSeed siteId (deriveSiteSeed b base siteId)
    pure (deriveSiteSeed b base siteId)

variable (site : SiteDescriptor) (archetype : SiteArchetype)

/-- The one expansion of a bounded site hangs from its entrance. -/
def boundedRequest (seed : Nat) : MaterializationRequest where
  campaignSeed := seed
  expansionId := 1
  frontierEdge := ⟨site.siteId ++ ":seed_fe1", site.entranceNodeId, "in", 0⟩
  attachRegionIds := [site.entranceNodeId]
  heading := "in"
  burstMagnitude := archetype.roomCountMax
  lookaheadBreadth := 0
  siteId := site.siteId

/-- The entrance of a site, alone. -/
def boundedSeed : RegionGraph :=
  seedGraph { id := site.entranceNodeId, expansionId := 0, theme := boundedThemeId archetype }

/-- Make a site, unless it was made before. -/
def ensureMaterialized : Effect MaterializeError SiteStore Unit := do
  let s ← get
  let existing ← ofExcept ((loadMap b.scan site.entranceNodeId site.siteId s.map).mapError .store)
  if site.entranceNodeId ∈ existing.nodes.keys then pure ()
  else do
    let seed ← siteSeed b site.siteId
    materializeBounded b (boundedRequest site archetype seed) (boundedSeed site archetype) archetype
    let s ← get
    let _committed ← ofExcept
      ((loadMap b.scan site.entranceNodeId site.siteId s.map).mapError MaterializeError.store)
    pure ()

/-- The store as movement uses it. -/
def repository : DungeonRepository SiteStore SiteArchetype where
  loadMap := fun entranceId siteId s =>
    (loadMap b.scan entranceId siteId s.map).mapError (fun _ => "corrupt dungeon payload")
  loadFrontier := fun s =>
    .ok (((s.frontier.entries.filter (fun entry => entry.1.1 = defaultSiteId)).map
      Prod.snd).insertionSort (fun fe fe' => fe.frontierEdgeId ≤ fe'.frontierEdgeId))
  materializeBounded := fun site archetype =>
    ExceptT.adapt (fun _ => SiteFailure.other "materialize_bounded")
      (ensureMaterialized b site archetype)

end SiteBuilder

/-! ### The ids of rooms -/

/-- The id of a region of the dungeon: the entrance's, or one that the generator gives. -/
def FrontierId (id : String) : Prop :=
  id = entranceId ∨ ∃ expansionId i : Nat, id = Dungeon.regionId expansionId i

theorem isDigit_of_mem_toString {n : Nat} {c : Char} (h : c ∈ (toString n).toList) :
    c.isDigit = true := by
  rw [Nat.toString_eq_repr, Nat.toList_repr] at h
  exact Nat.isDigit_of_mem_toDigits (by decide) (by decide) h

theorem toList_pushn (c : Char) (n : Nat) : ("".pushn c n).toList = List.replicate n c := by
  rw [String.pushn_eq_repeat_push]
  induction n with
  | zero => rfl
  | succ n ih =>
    rw [Nat.repeat, String.toList_push, ih, List.replicate_succ']

variable (expansionId : Nat)

/-- The characters of a room's id. -/
theorem toList_regionId (i : Nat) : ∃ digits : List Char,
    3 ≤ digits.length ∧ (∀ c ∈ digits, c.isDigit = true) ∧
      (Dungeon.regionId expansionId i).toList
        = 'e' :: 'x' :: 'p' :: (digits ++ '.' :: 'r' :: (toString i).toList) := by
  have hpadded : (zeroPadded 3 expansionId).toList
      = List.replicate (3 - (toString expansionId).length) '0' ++ (toString expansionId).toList := by
    rw [zeroPadded, String.toList_append, toList_pushn]
  refine ⟨(zeroPadded 3 expansionId).toList, ?_, ?_, ?_⟩
  · rw [hpadded, List.length_append, List.length_replicate, String.length_toList]
    omega
  · intro c hc
    rw [hpadded, List.mem_append] at hc
    rcases hc with hc | hc
    · rw [List.eq_of_mem_replicate hc]
      decide
    · exact isDigit_of_mem_toString hc
  · have hneg : ¬ ((expansionId : Int) < 0) := by omega
    have hexp : "exp".toList = ['e', 'x', 'p'] := by decide
    have hroom : ".r".toList = ['.', 'r'] := by decide
    unfold Dungeon.regionId
    rw [if_neg hneg, Int.natAbs_natCast, String.toList_append, String.toList_append,
      String.toList_append, hexp, hroom]
    simp only [List.cons_append, List.nil_append, List.append_assoc]

theorem ne_colon_of_isDigit {c : Char} (h : c.isDigit = true) : c ≠ ':' := by
  rintro rfl
  simp at h

theorem colon_not_mem_regionId (i : Nat) : ':' ∉ (Dungeon.regionId expansionId i).toList := by
  obtain ⟨digits, -, hdigits, hchars⟩ := toList_regionId expansionId i
  rw [hchars]
  intro hmem
  rcases List.mem_cons.mp hmem with heq | hmem
  · simp at heq
  rcases List.mem_cons.mp hmem with heq | hmem
  · simp at heq
  rcases List.mem_cons.mp hmem with heq | hmem
  · simp at heq
  rcases List.mem_append.mp hmem with hmem | hmem
  · exact ne_colon_of_isDigit (hdigits _ hmem) rfl
  rcases List.mem_cons.mp hmem with heq | hmem
  · simp at heq
  rcases List.mem_cons.mp hmem with heq | hmem
  · simp at heq
  · exact ne_colon_of_isDigit (isDigit_of_mem_toString hmem) rfl

/-- An id without a colon has no namespace. -/
theorem siteIdOf_eq_none {nodeId : String} (h : ':' ∉ nodeId.toList) : siteIdOf nodeId = none := by
  have hdrop : (dropFinalNewline nodeId.toList).dropWhile (· ≠ ':') = [] := by
    rw [List.dropWhile_eq_nil_iff]
    intro c hc
    have hmem : c ∈ nodeId.toList := by
      unfold dropFinalNewline at hc
      split at hc
      · exact List.mem_of_mem_dropLast hc
      · exact hc
    exact decide_eq_true (fun heq => h (heq ▸ hmem))
  unfold siteIdOf
  dsimp only
  rw [hdrop]

theorem siteIdOf_regionId (i : Nat) : siteIdOf (Dungeon.regionId expansionId i) = none :=
  siteIdOf_eq_none (colon_not_mem_regionId expansionId i)

theorem isDecimal_of_isDigit {c : Char} (h : c.isDigit = true) : isDecimal c = true := by
  unfold isDecimal
  rw [decimalValue?_of_isDigit h]
  rfl

/-- Rooms are named as the dungeon names its regions. -/
theorem isProceduralRegionId_regionId (i : Nat) :
    isProceduralRegionId (Dungeon.regionId expansionId i) = true := by
  obtain ⟨digits, hlength, hdigits, hchars⟩ := toList_regionId expansionId i
  have hroomNe : (toString i).toList ≠ [] := by
    rw [Nat.toString_eq_repr, Nat.toList_repr]
    exact List.ne_nil_of_length_pos Nat.length_toDigits_pos
  have hroom : ∀ c ∈ (toString i).toList, c.isDigit = true := fun c hc => isDigit_of_mem_toString hc
  -- an id ends in a digit, so no newline is dropped
  have hkept : dropFinalNewline (Dungeon.regionId expansionId i).toList
      = 'e' :: 'x' :: 'p' :: (digits ++ '.' :: 'r' :: (toString i).toList) := by
    unfold dropFinalNewline
    rw [hchars, if_neg]
    intro hlast
    obtain ⟨c, hc⟩ : ∃ c, (toString i).toList.getLast? = some c := by
      rw [← Option.isSome_iff_exists, List.getLast?_isSome]
      exact hroomNe
    have hdigit := hroom c (List.mem_of_getLast? hc)
    generalize (toString i).toList = room at hc hlast
    have hend : ('e' :: 'x' :: 'p' :: (digits ++ '.' :: 'r' :: room)).getLast? = some c := by
      simp [List.getLast?_cons, List.getLast?_append, hc]
    rw [hend] at hlast
    rw [Option.some.inj hlast] at hdigit
    simp at hdigit
  -- the digits of the expansion end at the dot
  have htake : (digits ++ '.' :: 'r' :: (toString i).toList).takeWhile isDecimal = digits := by
    rw [List.takeWhile_append_of_pos (fun c hc => isDecimal_of_isDigit (hdigits c hc)),
      List.takeWhile_cons_of_neg (by decide), List.append_nil]
  have hdrop : (digits ++ '.' :: 'r' :: (toString i).toList).dropWhile isDecimal
      = '.' :: 'r' :: (toString i).toList := by
    rw [List.dropWhile_append_of_pos (fun c hc => isDecimal_of_isDigit (hdigits c hc)),
      List.dropWhile_cons_of_neg (by decide)]
  have hregion : isExpansionRegion (Dungeon.regionId expansionId i) = true := by
    unfold isExpansionRegion
    rw [hkept]
    split
    · rename_i _ rest hrest
      obtain rfl : digits ++ '.' :: 'r' :: (toString i).toList = rest :=
        (List.cons.inj (List.cons.inj (List.cons.inj hrest).2).2).2
      split
      · rename_i _ room heq
        rw [hdrop] at heq
        obtain rfl : (toString i).toList = room := (List.cons.inj (List.cons.inj heq).2).2
        rw [htake]
        simp only [Bool.and_eq_true, decide_eq_true_eq, Bool.not_eq_true',
          List.isEmpty_eq_false_iff, List.all_eq_true]
        exact ⟨⟨hlength, hroomNe⟩, fun c hc => isDecimal_of_isDigit (hroom c hc)⟩
      · rename_i hother
        exact (hother _ hdrop).elim
    · rename_i hother
      exact (hother _ rfl).elim
  unfold isProceduralRegionId
  rw [hregion, Bool.or_true, Bool.and_true, decide_eq_true_eq]
  intro hempty
  rw [hempty] at hchars
  simp at hchars

theorem FrontierId.siteIdOf {id : String} (h : FrontierId id) : World.siteIdOf id = none := by
  rcases h with rfl | ⟨expansionId, i, rfl⟩
  · decide
  · exact siteIdOf_regionId expansionId i

theorem FrontierId.isProcedural {id : String} (h : FrontierId id) :
    isProceduralRegionId id = true := by
  rcases h with rfl | ⟨expansionId, i, rfl⟩
  · decide
  · exact isProceduralRegionId_regionId expansionId i

/-- An entrance with a namespace is none of the dungeon's regions. -/
theorem not_frontierId_siteEntranceId (siteId : String) : ¬ FrontierId (siteEntranceId siteId) := by
  have hcolon : ':' ∈ (siteEntranceId siteId).toList := by
    unfold siteEntranceId
    rw [String.toList_append]
    exact List.mem_append_right _ (by decide)
  rintro (heq | ⟨expansionId, i, heq⟩)
  · rw [heq] at hcolon
    exact absurd hcolon (by decide)
  · rw [heq] at hcolon
    exact colon_not_mem_regionId expansionId i hcolon

/-! ### What is generated -/

variable {request : MaterializationRequest}

section Generated

variable {entropy : Entropy} {graph : RegionGraph} {config : JaquaysConfig}

/-- There are regions, and all of them are numbered. -/
def Numbered (expansionId : Int) (nodes : List RegionNode) : Prop :=
  nodes ≠ [] ∧ ∀ node ∈ nodes, ∃ i : Nat, node.id = Dungeon.regionId expansionId i

theorem numbered_of_generateExpansion (hentrance : graph.entranceId ∈ graph.nodes.keys)
    {campaignSeed expansionId : Int} {attachRegionIds themePool : List String} {exp : Expansion}
    {report : GenerationReport}
    (h : generateExpansion entropy graph campaignSeed expansionId attachRegionIds themePool config
      = .ok (exp, report)) : Numbered expansionId exp.newNodes := by
  unfold generateExpansion at h
  rw [bind_eq_ok] at h
  obtain ⟨u, -, h⟩ := h
  obtain ⟨⟨rng, rng', hbuild⟩, -⟩ := exists_of_reroll h
  have hstitched := yields_buildCandidate hentrance attachRegionIds themePool rng exp rng' hbuild
  have hids : Yields (buildCandidate graph expansionId attachRegionIds themePool config)
      (fun exp => ∀ node ∈ exp.newNodes, ∃ i : Nat, node.id = Dungeon.regionId expansionId i) := by
    have hnode : ∀ i : Nat, Yields (do
        let theme ← choice .emptySequence themePool
        pure { id := Dungeon.regionId expansionId i, expansionId := expansionId, theme := theme } :
          Drawing RegionNode) (·.id = Dungeon.regionId expansionId i) :=
      fun i => yields_bind (yields_any _) (fun _ _ => yields_pure rfl)
    refine yields_bind (yields_any _) (fun _ _ => yields_ite (fun _ => ?_) (fun _ => ?_))
    · exact yields_bind (Q := fun _ => False) (yields_throw _) (fun _ h => h.elim)
    · refine yields_bind (yields_any _) (fun _ _ => yields_bind (yields_any _) (fun n _ => ?_))
      refine yields_bind (yields_mapM hnode (List.range n.toNat)) (fun nodes hnodes => ?_)
      refine yields_bind (yields_any _) (fun edges _ => yields_pure (fun node hmem => ?_))
      obtain ⟨i, -, hid⟩ := hnodes.2.1 node hmem
      exact ⟨i, hid⟩
  refine ⟨fun hnil => hstitched.nonempty ?_, hids rng exp rng' hbuild⟩
  rw [hnil]
  rfl

theorem id_of_resolveTheme {palette : ThemePalette} {original node : RegionNode}
    (h : resolveTheme entropy palette request graph original = .ok node) :
    node.id = original.id := by
  unfold resolveTheme at h
  split at h
  · simp at h
  · split at h
    · simp at h
    · split at h
      · simp at h
      · split at h
        · rw [Except.ok.inj h]
        · dsimp only at h
          split at h
          · simp at h
          · rw [← Except.ok.inj h]

theorem numbered_of_stageDesignWith {palette : ThemePalette} {expansion : Expansion}
    (hentrance : graph.entranceId ∈ graph.nodes.keys)
    (h : stageDesignWith entropy palette request config graph = .ok expansion) :
    Numbered request.expansionId expansion.newNodes := by
  unfold stageDesignWith at h
  dsimp only at h
  split at h
  · simp at h
  · split at h
    · simp at h
    · rename_i generated report hgenerated
      obtain ⟨hne, hids⟩ := numbered_of_generateExpansion hentrance hgenerated
      split at h
      · simp at h
      · rw [bind_eq_ok] at h
        obtain ⟨nodes, hnodes, h⟩ := h
        cases h
        have hsame : generated.newNodes.map (·.id) = nodes.map (·.id) := by
          rw [← List.forall₂_eq_eq_eq, List.forall₂_map_left_iff, List.forall₂_map_right_iff]
          exact (mapM_eq_ok_iff.mp hnodes).imp (fun _ _ hnode => (id_of_resolveTheme hnode).symm)
        refine ⟨fun hnil => hne ?_, fun node hmem => ?_⟩
        · have hnil' : nodes = [] := hnil
          rw [hnil'] at hsame
          exact List.map_eq_nil_iff.mp hsame
        · have hid : node.id ∈ generated.newNodes.map (·.id) := by
            rw [hsame]
            exact List.mem_map_of_mem hmem
          obtain ⟨original, horiginal, heq⟩ := List.mem_map.mp hid
          rw [← heq]
          exact hids original horiginal

end Generated

/-! ### What is written -/

section Written

variable {siteId : String}

/-- **A commit** adds the rows of its regions, if it goes through. -/
theorem mapRows_commitExpansion {exp : Expansion} {graph : RegionGraph} {store store' : MapStore}
    (h : (commitExpansion siteId exp graph).exec store = (.ok ⟨⟩, store')) :
    ∃ rows, store'.mapRows = store.mapRows ++ rows ∧
      rows.map (·.regionId) = exp.newNodes.map (·.id) ∧
        ∀ row ∈ rows, ∃ live, row = mapRow siteId live := by
  obtain ⟨rows, hunique, hrows, rfl⟩ := commitExpansion_spec h
  refine ⟨rows, mapRows_foldl_insertEdge siteId exp.expansionId exp.newEdges _, ?_, ?_⟩
  · rw [← List.forall₂_eq_eq_eq, List.forall₂_map_left_iff, List.forall₂_map_right_iff]
    refine hrows.flip.imp (fun row node hrow => ?_)
    unfold liveRow at hrow
    split at hrow
    · simp at hrow
    · rename_i live hlive
      cases hrow
      exact id_of_get? hlive
  · intro row hrow
    rw [rows_eq_of_forall₂ hrows] at hrow
    obtain ⟨live, -, rfl⟩ := List.mem_map.mp hrow
    exact ⟨live, rfl⟩

/-- Rows are added, and one of them is that of a room at a site. -/
def Furnished (siteId : String) (s s' : SiteStore) : Prop :=
  ∃ rows, s'.map.mapRows = s.map.mapRows ++ rows ∧
    ∃ row ∈ rows, row.siteId = siteId ∧ ∃ i : Nat, row.regionId = Dungeon.regionId 1 i

variable (b : SiteBuilder)

/-- A commit of numbered rooms adds a row of one of them. -/
theorem furnished_commitBounded {archetype : SiteArchetype} {c : Commit} {graph : RegionGraph}
    {maskDicts : Dict String MaskDict} (hnumbered : Numbered 1 c.expansion.newNodes)
    {s s' : SiteStore} {u : Unit}
    (h : (b.commitBounded siteId archetype c graph maskDicts).exec s = (.ok u, s')) :
    Furnished siteId s s' := by
  unfold SiteBuilder.commitBounded at h
  obtain ⟨u₁, s₁, hfirst, h⟩ := exists_of_exec_bind h
  obtain ⟨map', hwritten, rfl⟩ := exec_of_zoom hfirst
  obtain ⟨u₂, map₁, hseeded, hrooms⟩ := exists_of_exec_bind hwritten
  obtain rfl := congrArg Prod.snd h
  obtain ⟨rows, hrows, hids, hlive⟩ := mapRows_commitExpansion (exec_of_adapt hrooms)
  obtain ⟨seedRows, hseedRows⟩ : ∃ seedRows, map₁.mapRows = s.map.mapRows ++ seedRows := by
    unfold commitSeed at hseeded
    split at hseeded
    · split at hseeded
      · simp at hseeded
      · obtain ⟨seedRows, hseedRows, -⟩ := mapRows_commitExpansion (exec_of_adapt hseeded)
        exact ⟨seedRows, hseedRows⟩
    · obtain rfl : s.map = map₁ := congrArg Prod.snd hseeded
      exact ⟨[], (List.append_nil _).symm⟩
  obtain ⟨node, nodes, hnodes⟩ := List.exists_cons_of_ne_nil hnumbered.1
  have hnode : node ∈ c.expansion.newNodes := hnodes ▸ (.head _)
  obtain ⟨i, hi⟩ := hnumbered.2 node hnode
  have hid : node.id ∈ rows.map (·.regionId) := by
    rw [hids]
    exact List.mem_map_of_mem hnode
  obtain ⟨row, hrow, hrowId⟩ := List.mem_map.mp hid
  obtain ⟨live, rfl⟩ := hlive row hrow
  refine ⟨seedRows ++ rows, ?_, mapRow siteId live, List.mem_append_right _ hrow, rfl, i,
    hrowId.trans hi⟩
  show map'.mapRows = _
  rw [hrows, hseedRows, List.append_assoc]

theorem Furnished.of_map {s s₁ s' : SiteStore} (hmap : s₁.map = s.map)
    (h : Furnished siteId s₁ s') : Furnished siteId s s' := by
  unfold Furnished at h ⊢
  rw [← hmap]
  exact h

/-- The regions and edges stay. -/
def MapKept (s s' : SiteStore) : Prop := s'.map = s.map

instance : IsPreorder SiteStore MapKept where
  refl _ := rfl
  trans _ _ _ h h' := h'.trans h

theorem mapKept_setCampaignSeed (siteId : String) (seed : Nat) :
    Preserves MapKept (SiteBuilder.setCampaignSeed siteId seed) := by
  intro s
  unfold SiteBuilder.setCampaignSeed
  rw [exec_get_bind]
  split <;> exact rfl

theorem mapKept_sessionSeed : Preserves MapKept b.sessionSeed := by
  intro s
  unfold SiteBuilder.sessionSeed
  rw [exec_get_bind]
  split
  · exact rfl
  · exact (mapKept_setCampaignSeed defaultSiteId b.randomSeed).bind (fun _ => preserves_pure _) s

theorem mapKept_siteSeed (siteId : String) : Preserves MapKept (b.siteSeed siteId) := by
  intro s
  unfold SiteBuilder.siteSeed
  rw [exec_get_bind]
  split
  · exact rfl
  · exact (mapKept_sessionSeed b).bind
      (fun base => (mapKept_setCampaignSeed siteId (b.deriveSiteSeed base siteId)).bind
        (fun _ => preserves_pure _)) s

/-- What is prepared holds the rooms of the design stage. -/
theorem numbered_of_prepareBounded {graph graph' : RegionGraph} {archetype : SiteArchetype}
    {s : SiteStore} {c : Commit} {maskDicts : Dict String MaskDict}
    (hentrance : graph.entranceId ∈ graph.nodes.keys)
    (h : b.prepareBounded request graph archetype s = .ok (c, graph', maskDicts)) :
    Numbered request.expansionId c.expansion.newNodes := by
  unfold SiteBuilder.prepareBounded at h
  rw [bind_eq_ok] at h
  obtain ⟨expansion, hdesign, h⟩ := h
  rw [bind_eq_ok] at h
  obtain ⟨fills, -, h⟩ := h
  have hnumbered := numbered_of_stageDesignWith hentrance hdesign
  split at h
  · simp at h
  · rw [bind_eq_ok] at h
    obtain ⟨existingMap, -, h⟩ := h
    rw [bind_eq_ok] at h
    obtain ⟨maskDicts', -, h⟩ := h
    cases h
    exact hnumbered

/-- A transaction that raises leaves everything as it was. -/
theorem meets_siteTransaction {body : Effect MaterializeError SiteStore Unit} {s : SiteStore}
    {Q : Unit → SiteStore → Prop} (h : ∀ u s', body.exec s = (.ok u, s') → Q u s') :
    Meets (fun s' => s' = s) (siteTransaction body) Q (fun _ s' => s' = s) := by
  rintro s' rfl
  have hexec : (siteTransaction body).exec s' = match body.exec s' with
      | (.ok a, t) => (.ok a, t)
      | (.error e, _) => (.error e, s') := rfl
  rw [hexec]
  rcases hbody : body.exec s' with ⟨e | u, t⟩
  · exact rfl
  · exact h u t hbody

/-- The interior of a site is written as a whole, or nothing is. -/
theorem meets_materializeBounded {graph : RegionGraph} (archetype : SiteArchetype) (s : SiteStore)
    (hfirst : request.expansionId = 1) (hentrance : graph.entranceId ∈ graph.nodes.keys) :
    Meets (fun s' => s' = s) (b.materializeBounded request graph archetype)
      (fun _ s' => Furnished request.siteId s s') (fun _ s' => s' = s) := by
  refine meets_get_bind ?_
  rintro t rfl
  rcases hprepared : b.prepareBounded request graph archetype t with e | ⟨c, graph', maskDicts⟩
  · exact fun _ ht => ht
  · have hnumbered := numbered_of_prepareBounded b hentrance hprepared
    rw [hfirst] at hnumbered
    exact meets_siteTransaction (fun u s' h => furnished_commitBounded b hnumbered h)

/-- The entrance of the site is on its map. -/
def SiteBuilder.Known (site : SiteDescriptor) (s : SiteStore) : Prop :=
  ∃ existing, loadMap b.scan site.entranceNodeId site.siteId s.map = .ok existing ∧
    site.entranceNodeId ∈ existing.nodes.keys

/-- **Making a bounded site** writes a room, if it returns and the site was not there before. -/
theorem meets_ensureMaterialized (site : SiteDescriptor) (archetype : SiteArchetype)
    (s : SiteStore) : Meets (fun s' => s' = s) (b.ensureMaterialized site archetype)
      (fun _ s' => b.Known site s ∧ s' = s ∨ Furnished site.siteId s s')
      (fun _ s' => s'.map = s.map ∨ Furnished site.siteId s s') := by
  refine meets_get_bind ?_
  rintro t rfl
  cases hload : loadMap b.scan site.entranceNodeId site.siteId t.map with
  | error e =>
    rintro t' rfl
    exact .inl rfl
  | ok existing =>
    show Meets _ (if site.entranceNodeId ∈ existing.nodes.keys then _ else _ :
      Effect MaterializeError SiteStore Unit) _ _
    by_cases hknown : site.entranceNodeId ∈ existing.nodes.keys
    · rw [if_pos hknown]
      rintro t' rfl
      exact .inl ⟨⟨existing, hload, hknown⟩, rfl⟩
    · rw [if_neg hknown]
      have hseed : Meets (fun s' => s' = t) (b.siteSeed site.siteId)
          (fun _ s' => s'.map = t.map) (fun _ s' => s'.map = t.map ∨ Furnished site.siteId t s') :=
        ((mapKept_siteSeed b site.siteId).meets_of_state t).weaken (fun _ h => h)
          (fun _ _ h => h) (fun _ _ h => .inl h)
      refine meets_bind hseed (fun seed => meets_of_forall (fun t₁ hkept => ?_))
      have hmade : Meets (fun s' => s' = t₁) (b.materializeBounded
          (SiteBuilder.boundedRequest site archetype seed) (SiteBuilder.boundedSeed site archetype)
          archetype) (fun _ s' => Furnished site.siteId t s')
          (fun _ s' => s'.map = t.map ∨ Furnished site.siteId t s') :=
        (meets_materializeBounded b archetype t₁ rfl
          (Dict.mem_keys_insert.mpr (.inl rfl))).weaken (fun _ h => h)
            (fun _ _ h => Furnished.of_map hkept h) (fun _ _ h => .inl (h ▸ hkept))
      refine meets_bind hmade (fun _ => meets_get_bind (fun t₂ hfurnished => ?_))
      cases (loadMap b.scan site.entranceNodeId site.siteId t₂.map).mapError
        MaterializeError.store with
      | error e =>
        rintro t' rfl
        exact .inr hfurnished
      | ok committed =>
        rintro t' rfl
        exact .inr hfurnished

end Written

end Sidequest.World
