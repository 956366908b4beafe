import Sidequest.Dungeon.Credited
import Sidequest.Dungeon.Tactical

namespace Sidequest.Dungeon

open Lib Effect

/-!
# Exits on both sides

The tactical record of a region is derived once, when its expansion is committed, and stored with
its mask. Later expansions hang new edges from old regions, whose records stay as they are.

* `stageTactical`, `expansionMasks`, `tacticalIntoMaskDicts` — what is stored of an expansion;
* `throughout_exitsKnown_iff` — exits are known exactly where both ends of every new edge know each
  other.
-/

/-! ### What is stored of an expansion -/

/-- A filled region: its grid, and whether a mask was made of it. -/
structure RegionFill where
  grid : Grid
  masked : Bool
deriving DecidableEq

/-- What is stored with a region: the grid of its mask, and its record. -/
structure MaskDict where
  grid : Grid
  tactical : Option RegionTactical := none

/-- What is committed: an expansion, and what its stages came to. -/
structure Commit where
  campaignSeed : Int
  expansion : Expansion
  fills : Dict String RegionFill
  attachReports : List AttachReport
  curation : RegionCuration
  isFreshSave : Bool

section Stage

variable (digests : TacticalEntropy) (c : Commit)

/-- The record of a new region. -/
def tacticalOf (node : RegionNode) (grid : Grid) (neighborIds : List String) : RegionTactical :=
  deriveRegionTactical digests node.id grid node.theme neighborIds
    ((c.attachReports.filter (fun report => report.regionId = node.id)).map (·.setpieceId))
    ((c.curation.regionCreatures.get? node.id).getD []).length

variable (graph : RegionGraph)

/-- One more region: a record, if there is a mask. -/
def stageRegion (out : Dict String RegionTactical) (node : RegionNode) :
    Except GraphError (Dict String RegionTactical) :=
  match c.fills.get? node.id with
  | none => .ok out
  | some fill =>
    if fill.masked then do
      let neighborIds ← graph.neighbors node.id
      .ok (out.insert node.id (tacticalOf digests c node fill.grid neighborIds))
    else .ok out

def stageTactical : Except GraphError (Dict String RegionTactical) :=
  c.expansion.newNodes.foldlM (stageRegion digests c graph) .empty

/-- The masks of the regions that have one. -/
def expansionMasks (fills : Dict String RegionFill) : Dict String MaskDict :=
  (fills.entries.filter (fun p => p.2.masked)).foldl
    (fun d p => d.insert p.1 { grid := p.2.grid }) .empty

/-- A record goes to its mask, if it is there. -/
def tacticalIntoMaskDicts (maskDicts : Dict String MaskDict)
    (tactical : Dict String RegionTactical) : Dict String MaskDict :=
  tactical.entries.foldl
    (fun d p => d.modify p.1 (fun mask => { mask with tactical := some p.2 })) maskDicts

/-- The masks of an expansion with the records in them. -/
def masksOf : Except GraphError (Dict String MaskDict) :=
  let masks := expansionMasks c.fills
  if masks.entries = [] then .ok masks
  else do
    let tactical ← stageTactical digests c graph
    .ok (tacticalIntoMaskDicts masks tactical)

end Stage

/-! ### Runs -/

/-- A map in memory, and what is stored of it. Masks stand under their site and their region. -/
structure Delve where
  graph : RegionGraph
  map : MapStore
  masks : Dict (String × String) MaskDict

/-- The mask of a region is stored with it, if there is one. -/
def writeMask (siteId : String) (maskDicts : Dict String MaskDict)
    (masks : Dict (String × String) MaskDict) (node : RegionNode) :
    Dict (String × String) MaskDict :=
  match maskDicts.get? node.id with
  | none => masks
  | some mask => masks.insert (siteId, node.id) mask

section Runs

variable (entropy : Entropy) (digests : TacticalEntropy) (siteId : String)

/-- The entrance is committed with the first expansion. -/
def commitSeed (c : Commit) (graph : RegionGraph) : Effect MaterializeError MapStore PUnit :=
  if c.isFreshSave then
    match graph.nodes.get? graph.entranceId with
    | none => throw (.entranceMissing graph.entranceId)
    | some entrance => ExceptT.adapt MaterializeError.store
        (commitExpansion siteId { expansionId := 0, newNodes := [entrance], newEdges := [] } graph)
  else pure ⟨⟩

/-- Attach and score an expansion. -/
def placeCommit (c : Commit) : Effect GraphError RegionGraph DepthReport := do
  attachExpansion c.expansion
  assignDepthScores entropy c.campaignSeed {}

/-- Attach and score an expansion, derive the records of its regions, and write it all. -/
def commitDelve (c : Commit) : Effect MaterializeError Delve PUnit := do
  let _report ← zoom Delve.graph (fun graph s => { s with graph := graph })
    (ExceptT.adapt MaterializeError.graph (placeCommit entropy c))
  let s ← get
  zoom Delve.map (fun map s => { s with map := map }) (commitSeed siteId c s.graph)
  let maskDicts ← ofExcept ((masksOf digests c s.graph).mapError MaterializeError.graph)
  zoom Delve.map (fun map s => { s with map := map })
    (ExceptT.adapt MaterializeError.store (commitExpansion siteId c.expansion s.graph))
  modify (fun s => { s with
    masks := c.expansion.newNodes.foldl (writeMask siteId maskDicts) s.masks })

/-- What is refused leaves everything as it was. -/
def Delve.step (s : Delve) (c : Commit) : Delve :=
  match (commitDelve entropy digests siteId c).exec s with
  | (.ok _, s') => s'
  | (.error _, _) => s

/-- Nothing is stored at the site of a map with nothing but an entrance. -/
structure Delve.Starts (entrance : RegionNode) (s : Delve) : Prop where
  graph : s.graph = seedGraph entrance
  edgeRows : s.map.edgeRowsAt siteId = []
  masks : ∀ r, s.masks.get? (siteId, r) = none

end Runs

/-! ### What is asked for -/

/-- The record of a region, if one is stored. -/
def Delve.tactical? (siteId : String) (s : Delve) (r : String) : Option RegionTactical :=
  (s.masks.get? (siteId, r)).bind (·.tactical)

/-- Both ends of every stored edge have an exit to the other, if both have a record; and the exits
    of a region are different floor cells of its grid. -/
structure ExitsKnown (siteId : String) (s : Delve) : Prop where
  paired : ∀ row ∈ s.map.edgeRowsAt siteId, ∀ record record',
    s.tactical? siteId row.a = some record → s.tactical? siteId row.b = some record' →
      row.b ∈ record.exitThresholds.keys ∧ row.a ∈ record'.exitThresholds.keys
  distinct : ∀ r mask record, s.masks.get? (siteId, r) = some mask → mask.tactical = some record →
    record.exitThresholds.values.Nodup ∧
      ∀ cell ∈ record.exitThresholds.values, cell ∈ floorCells mask.grid

/-- The neighbours of a region over some edges, once for every edge. -/
def neighborsOver (edges : List RegionEdge) (r : String) : List String :=
  edges.filterMap (RegionGraph.otherEnd r)

/-- The regions of an expansion. -/
def Commit.newIds (c : Commit) : List String := c.expansion.newNodes.map (·.id)

/-- The floor cells of a region that is filled. -/
def Commit.floorOf (c : Commit) (r : String) : List Cell :=
  match c.fills.get? r with
  | none => []
  | some fill => floorCells fill.grid

/-- An expansion is committed, and all its regions have masks with at least as many floor cells as
    neighbours. -/
structure Roomy (entropy : Entropy) (digests : TacticalEntropy) (siteId : String) (s : Delve)
    (c : Commit) : Prop where
  committed : ∃ s', (commitDelve entropy digests siteId c).exec s = (.ok ⟨⟩, s')
  masked : ∀ r ∈ c.newIds, ∃ fill, c.fills.get? r = some fill ∧ fill.masked = true
  room : ∀ r ∈ c.newIds, (neighborsOver c.expansion.newEdges r).dedup.length ≤ (c.floorOf r).length

/-- A region that has a record once the expansion is committed. -/
def Recorded (siteId : String) (s : Delve) (c : Commit) (r : String) : Prop :=
  r ∈ c.newIds ∨ (s.tactical? siteId r).isSome

/-- An end of a new edge knows the other end: a new region by one of the edges that a floor cell is
    left for, an old one from before. -/
def Knows (s : Delve) (c : Commit) (r other : String) : Prop :=
  if r ∈ c.newIds then other ∈ (neighborsOver c.expansion.newEdges r).take (c.floorOf r).length
  else other ∈ neighborsOver s.graph.edges r

/-- Both ends of every new edge know each other, if both have a record. -/
def EndsKnown (siteId : String) (s : Delve) (c : Commit) : Prop :=
  ∀ e ∈ c.expansion.newEdges, Recorded siteId s c e.a → Recorded siteId s c e.b →
    Knows s c e.a e.b ∧ Knows s c e.b e.a

/-! ### What is staged -/

section Staged

variable {digests : TacticalEntropy} {c : Commit} {graph : RegionGraph} {r : String}

theorem get?_expansionMasks {fills : Dict String RegionFill} {fill : RegionFill}
    (hfill : fills.get? r = some fill) (hmasked : fill.masked = true) :
    (expansionMasks fills).get? r = some { grid := fill.grid } := by
  have hpairs : expansionMasks fills = ((fills.entries.filter (·.2.masked)).map
      (fun p => (p.1, ({ grid := p.2.grid } : MaskDict)))).foldl
        (fun d p => d.insert p.1 p.2) .empty := by
    unfold expansionMasks
    rw [List.foldl_map]
  rw [hpairs]
  refine Dict.get?_foldl_insert ?_ ?_
  · rw [List.map_map]
    exact fills.nodup.sublist (List.filter_sublist.map _)
  · refine List.mem_map.mpr ⟨(r, fill), List.mem_filter.mpr ⟨?_, hmasked⟩, rfl⟩
    exact Dict.get?_eq_some_iff.mp hfill

/-- The records of regions with different ids. -/
theorem foldlM_stageRegion {nodes : List RegionNode} {out out' : Dict String RegionTactical}
    (hknown : ∀ node ∈ nodes, node.id ∈ graph.nodes.keys) (hnodup : (nodes.map (·.id)).Nodup)
    (h : nodes.foldlM (stageRegion digests c graph) out = .ok out') :
    (∀ r ∉ nodes.map (·.id), out'.get? r = out.get? r) ∧
      ∀ node ∈ nodes, ∀ fill, c.fills.get? node.id = some fill → fill.masked = true →
        out'.get? node.id = some (tacticalOf digests c node fill.grid
          (neighborsOver graph.edges node.id)) := by
  -- on the nodes: each writes its own record, and later ones write others
  induction nodes generalizing out with
  | nil =>
    cases h
    exact ⟨fun r _ => rfl, fun node hnode => nomatch hnode⟩
  | cons node nodes ih =>
    rw [List.foldlM_cons, bind_eq_ok] at h
    obtain ⟨mid, hmid, h⟩ := h
    rw [List.map_cons, List.nodup_cons] at hnodup
    obtain ⟨hothers, hrecords⟩ := ih (fun n hn => hknown n (.tail node hn)) hnodup.2 h
    have hstaged : (∀ r ≠ node.id, mid.get? r = out.get? r) ∧
        ∀ fill, c.fills.get? node.id = some fill → fill.masked = true →
          mid.get? node.id = some (tacticalOf digests c node fill.grid
            (neighborsOver graph.edges node.id)) := by
      unfold stageRegion at hmid
      cases hfill : c.fills.get? node.id with
      | none =>
        rw [hfill] at hmid
        cases hmid
        exact ⟨fun r _ => rfl, fun fill hsome => nomatch hsome⟩
      | some fill =>
        rw [hfill] at hmid
        dsimp only at hmid
        split at hmid
        · unfold RegionGraph.neighbors at hmid
          rw [if_pos (hknown node (.head _)), bind_eq_ok] at hmid
          obtain ⟨neighborIds, hneighbors, hmid⟩ := hmid
          rw [← Except.ok.inj hmid, ← Except.ok.inj hneighbors]
          refine ⟨fun r hr => ?_, fun fill' hfill' _ => ?_⟩
          · rw [Dict.get?_insert, if_neg hr]
          · rw [Dict.get?_insert, if_pos rfl, ← Option.some.inj hfill']
            rfl
        · rename_i hbare
          cases hmid
          refine ⟨fun r _ => rfl, fun fill' hfill' hmasked => ?_⟩
          rw [← Option.some.inj hfill'] at hmasked
          exact absurd hmasked hbare
    constructor
    · intro r hr
      rw [List.map_cons, List.mem_cons, not_or] at hr
      rw [hothers r hr.2, hstaged.1 r hr.1]
    · intro n hn fill hfill hmasked
      rcases List.mem_cons.mp hn with rfl | hn
      · rw [hothers n.id hnodup.1]
        exact hstaged.2 fill hfill hmasked
      · exact hrecords n hn fill hfill hmasked

theorem get?_foldl_modify {pairs : List (String × RegionTactical)} {maskDicts : Dict String MaskDict}
    {record : RegionTactical} (hnodup : (pairs.map Prod.fst).Nodup) (hmem : (r, record) ∈ pairs) :
    (pairs.foldl (fun d p => d.modify p.1 (fun mask => { mask with tactical := some p.2 }))
      maskDicts).get? r
        = (maskDicts.get? r).map (fun mask => { mask with tactical := some record }) := by
  have hsame : ∀ (l : List (String × RegionTactical)) (d : Dict String MaskDict),
      r ∉ l.map Prod.fst → (l.foldl (fun d p => d.modify p.1
        (fun mask => { mask with tactical := some p.2 })) d).get? r = d.get? r := by
    intro l
    induction l with
    | nil => exact fun d _ => rfl
    | cons p l ih =>
      intro d hr
      rw [List.map_cons, List.mem_cons, not_or] at hr
      rw [List.foldl_cons, ih _ hr.2, Dict.get?_modify, if_neg hr.1]
  induction pairs generalizing maskDicts with
  | nil => cases hmem
  | cons p pairs ih =>
    rw [List.map_cons, List.nodup_cons] at hnodup
    rw [List.foldl_cons]
    rcases List.mem_cons.mp hmem with rfl | hmem
    · rw [hsame _ _ hnodup.1, Dict.get?_modify, if_pos rfl]
    · have hne : r ≠ p.1 := by
        intro heq
        exact hnodup.1 (heq ▸ List.mem_map_of_mem (f := Prod.fst) hmem)
      rw [ih hnodup.2 hmem, Dict.get?_modify, if_neg hne]

theorem get?_masksOf {maskDicts : Dict String MaskDict}
    (hknown : ∀ node ∈ c.expansion.newNodes, node.id ∈ graph.nodes.keys) (hnodup : c.newIds.Nodup)
    (h : masksOf digests c graph = .ok maskDicts) {node : RegionNode}
    (hnode : node ∈ c.expansion.newNodes) {fill : RegionFill}
    (hfill : c.fills.get? node.id = some fill) (hmasked : fill.masked = true) :
    maskDicts.get? node.id = some ⟨fill.grid, some (tacticalOf digests c node fill.grid
      (neighborsOver graph.edges node.id))⟩ := by
  have hmask := get?_expansionMasks hfill hmasked
  have hsome : (expansionMasks c.fills).entries ≠ [] :=
    List.ne_nil_of_mem (Dict.get?_eq_some_iff.mp hmask)
  unfold masksOf at h
  rw [if_neg hsome, bind_eq_ok] at h
  obtain ⟨tactical, htactical, h⟩ := h
  have hrecord := (foldlM_stageRegion hknown hnodup htactical).2 node hnode fill hfill hmasked
  cases h
  unfold tacticalIntoMaskDicts
  rw [get?_foldl_modify tactical.nodup (Dict.get?_eq_some_iff.mp hrecord), hmask]
  rfl

theorem get?_foldl_writeMask (siteId : String) (maskDicts : Dict String MaskDict)
    (nodes : List RegionNode) (masks : Dict (String × String) MaskDict) : (r ∉ nodes.map (·.id) →
      (nodes.foldl (writeMask siteId maskDicts) masks).get? (siteId, r) = masks.get? (siteId, r)) ∧
    ∀ mask, maskDicts.get? r = some mask → r ∈ nodes.map (·.id) →
      (nodes.foldl (writeMask siteId maskDicts) masks).get? (siteId, r) = some mask := by
  induction nodes generalizing masks with
  | nil => exact ⟨fun _ => rfl, fun mask _ hr => nomatch hr⟩
  | cons node nodes ih =>
    obtain ⟨hothers, hwritten⟩ := ih (writeMask siteId maskDicts masks node)
    rw [List.foldl_cons, List.map_cons]
    constructor
    · intro hr
      rw [List.mem_cons, not_or] at hr
      rw [hothers hr.2]
      unfold writeMask
      split
      · rfl
      · rw [Dict.get?_insert, if_neg (fun h => hr.1 (Prod.mk.inj h).2)]
    · intro mask hmask hr
      by_cases hlater : r ∈ nodes.map (·.id)
      · exact hwritten mask hmask hlater
      · obtain rfl : r = node.id := by
          rcases List.mem_cons.mp hr with hr | hr
          · exact hr
          · exact absurd hr hlater
        rw [hothers hlater]
        unfold writeMask
        rw [hmask, Dict.get?_insert, if_pos rfl]

end Staged

/-! ### A commit -/

/-- The ends of an edge as they are stored. -/
def EdgeRow.ends (row : EdgeRow) : String × String := (row.a, row.b)

theorem ends_edgeRowsAt_commitExpansion {siteId : String} {exp : Expansion} {graph : RegionGraph}
    {store store' : MapStore}
    (h : (commitExpansion siteId exp graph).exec store = (.ok ⟨⟩, store')) :
    (store'.edgeRowsAt siteId).map EdgeRow.ends
      = (store.edgeRowsAt siteId).map EdgeRow.ends ++ exp.newEdges.map (fun e => (e.a, e.b)) := by
  obtain ⟨rows, hunique, -, rfl⟩ := commitExpansion_spec h
  refine map_edgeRowsAt_foldl (fun store e => ?_) exp.newEdges _
  unfold MapStore.edgeRowsAt MapStore.insertEdge
  simp [EdgeRow.ends]

section Commits

variable {entropy : Entropy} {digests : TacticalEntropy} {siteId : String} {c : Commit}
  {s s' : Delve}

/-- The entrance comes without edges. -/
theorem ends_commitSeed {graph : RegionGraph} {map map' : MapStore}
    (h : (commitSeed siteId c graph).exec map = (.ok ⟨⟩, map')) :
    (map'.edgeRowsAt siteId).map EdgeRow.ends = (map.edgeRowsAt siteId).map EdgeRow.ends := by
  unfold commitSeed at h
  split at h
  · split at h
    · simp at h
    · rw [ends_edgeRowsAt_commitExpansion (exec_of_adapt h)]
      exact List.append_nil _
  · obtain rfl : map = map' := congrArg Prod.snd h
    rfl

theorem placeCommit_spec {graph graph' : RegionGraph} {report : DepthReport}
    (h : (placeCommit entropy c).exec graph = (.ok report, graph')) :
    graph'.nodes.keys = graph.nodes.keys ++ c.newIds ∧
      graph'.edges = graph.edges ++ c.expansion.newEdges := by
  unfold placeCommit at h
  obtain ⟨u, attached, hattached, hscored⟩ := exists_of_exec_bind h
  obtain ⟨hkeys, hedges, -, -⟩ := attachExpansion_spec hattached
  have hshape := (keepsScored_assignDepthScores entropy c.campaignSeed {} attached).toSameShape
  rw [hscored] at hshape
  exact ⟨hshape.keys.trans hkeys, hshape.edges.trans hedges⟩

/-- What a map and what is stored of it come to with an expansion. -/
structure Grown (digests : TacticalEntropy) (siteId : String) (c : Commit) (s s' : Delve) :
    Prop where
  keys : s'.graph.nodes.keys = s.graph.nodes.keys ++ c.newIds
  edges : s'.graph.edges = s.graph.edges ++ c.expansion.newEdges
  edgeRows : (s'.map.edgeRowsAt siteId).map EdgeRow.ends
    = (s.map.edgeRowsAt siteId).map EdgeRow.ends ++ c.expansion.newEdges.map (fun e => (e.a, e.b))
  masks : ∃ maskDicts, masksOf digests c s'.graph = .ok maskDicts ∧
    s'.masks = c.expansion.newNodes.foldl (writeMask siteId maskDicts) s.masks

/-- **A commit** that goes through. -/
theorem grown_of_commitDelve (h : (commitDelve entropy digests siteId c).exec s = (.ok ⟨⟩, s')) :
    Grown digests siteId c s s' := by
  unfold commitDelve at h
  obtain ⟨report, s₁, hfirst, h⟩ := exists_of_exec_bind h
  obtain ⟨graph', hplaced, rfl⟩ := exec_of_zoom hfirst
  obtain ⟨hkeys, hedges⟩ := placeCommit_spec (exec_of_adapt hplaced)
  rw [exec_get_bind] at h
  obtain ⟨u, s₂, hsecond, h⟩ := exists_of_exec_bind h
  obtain ⟨map₁, hseeded, rfl⟩ := exec_of_zoom hsecond
  obtain ⟨maskDicts, s₃, hthird, h⟩ := exists_of_exec_bind h
  obtain ⟨u', s₄, hfourth, h⟩ := exists_of_exec_bind h
  obtain ⟨hmasks, rfl⟩ : masksOf digests c graph' = .ok maskDicts ∧ s₃ = ⟨graph', map₁, s.masks⟩ := by
    rcases hm : masksOf digests c graph' with e | masks
    · rw [hm] at hthird
      exact absurd (congrArg Prod.fst hthird) (by simp [Except.mapError, ofExcept])
    · rw [hm] at hthird
      obtain ⟨hok, hstate⟩ := Prod.mk.inj hthird
      exact ⟨congrArg Except.ok (Except.ok.inj hok), hstate.symm⟩
  obtain ⟨map₂, hcommitted, rfl⟩ := exec_of_zoom hfourth
  obtain rfl := (congrArg Prod.snd h).symm
  refine ⟨hkeys, hedges, ?_, maskDicts, hmasks, rfl⟩
  have hrows := ends_edgeRowsAt_commitExpansion (exec_of_adapt hcommitted)
  rw [ends_commitSeed hseeded] at hrows
  exact hrows

/-! ### New regions and old ones -/

theorem mem_neighborsOver {edges : List RegionEdge} {r other : String} :
    other ∈ neighborsOver edges r ↔
      ∃ e ∈ edges, (e.a = r ∧ e.b = other) ∨ (e.a ≠ r ∧ e.b = r ∧ e.a = other) := by
  unfold neighborsOver
  rw [List.mem_filterMap]
  constructor
  · rintro ⟨e, he, hother⟩
    refine ⟨e, he, ?_⟩
    unfold RegionGraph.otherEnd at hother
    split at hother
    · rename_i ha
      exact .inl ⟨ha, Option.some.inj hother⟩
    · split at hother
      · rename_i ha hb
        exact .inr ⟨ha, hb, Option.some.inj hother⟩
      · simp at hother
  · rintro ⟨e, he, ⟨ha, hb⟩ | ⟨ha, hb, hother⟩⟩
    · exact ⟨e, he, by rw [RegionGraph.otherEnd, if_pos ha, hb]⟩
    · exact ⟨e, he, by rw [RegionGraph.otherEnd, if_neg ha, if_pos hb, hother]⟩

/-- A region that is not on a map has no neighbours there. -/
theorem neighborsOver_eq_nil {graph : RegionGraph} {r : String} (h : r ∉ graph.nodes.keys) :
    neighborsOver graph.edges r = [] := by
  rw [List.eq_nil_iff_forall_not_mem]
  intro other hother
  obtain ⟨e, he, ⟨rfl, -⟩ | ⟨-, rfl, -⟩⟩ := mem_neighborsOver.mp hother
  · exact h (graph.known e he).2.1
  · exact h (graph.known e he).2.2

namespace Grown

theorem nodup_newIds (h : Grown digests siteId c s s') : c.newIds.Nodup := by
  have hnodup := Dict.nodup_keys s'.graph.nodes
  rw [h.keys] at hnodup
  exact hnodup.of_append_right

theorem not_mem_keys (h : Grown digests siteId c s s') {r : String} (hr : r ∈ c.newIds) :
    r ∉ s.graph.nodes.keys := by
  have hnodup := Dict.nodup_keys s'.graph.nodes
  rw [h.keys] at hnodup
  exact fun hold => List.disjoint_of_nodup_append hnodup hold hr

theorem mask_of_new (h : Grown digests siteId c s s')
    (hmasked : ∀ r ∈ c.newIds, ∃ fill, c.fills.get? r = some fill ∧ fill.masked = true)
    {r : String} (hr : r ∈ c.newIds) : ∃ grid record,
      s'.masks.get? (siteId, r) = some ⟨grid, some record⟩ ∧ c.floorOf r = floorCells grid ∧
        record.exitThresholds
          = exitThresholds digests r grid (neighborsOver c.expansion.newEdges r) := by
  obtain ⟨fill, hfill, hmask⟩ := hmasked r hr
  obtain ⟨maskDicts, hmasks, hwritten⟩ := h.masks
  obtain ⟨node, hnode, rfl⟩ := List.mem_map.mp hr
  have hknown : ∀ node ∈ c.expansion.newNodes, node.id ∈ s'.graph.nodes.keys := by
    intro n hn
    rw [h.keys]
    exact List.mem_append_right _ (List.mem_map_of_mem hn)
  have hget := get?_masksOf hknown h.nodup_newIds hmasks hnode hfill hmask
  have hnew : neighborsOver s'.graph.edges node.id = neighborsOver c.expansion.newEdges node.id := by
    have hold := neighborsOver_eq_nil (h.not_mem_keys hr)
    unfold neighborsOver at hold ⊢
    rw [h.edges, List.filterMap_append, hold, List.nil_append]
  refine ⟨fill.grid, tacticalOf digests c node fill.grid (neighborsOver s'.graph.edges node.id), ?_,
    ?_, ?_⟩
  · rw [hwritten]
    exact (get?_foldl_writeMask siteId maskDicts _ s.masks).2 _ hget hr
  · unfold Commit.floorOf
    rw [hfill]
  · rw [hnew]
    rfl

/-- What is stored of other regions stays as it is. -/
theorem mask_of_old (h : Grown digests siteId c s s') {r : String} (hr : r ∉ c.newIds) :
    s'.masks.get? (siteId, r) = s.masks.get? (siteId, r) := by
  obtain ⟨maskDicts, -, hwritten⟩ := h.masks
  rw [hwritten]
  exact (get?_foldl_writeMask siteId maskDicts _ s.masks).1 hr

end Grown

/-- The stored edges are those of the map; who has a record is on the map, and has exits to
    neighbours only, at different floor cells. -/
structure Delve.Holds (siteId : String) (s : Delve) : Prop where
  edgeRows : (s.map.edgeRowsAt siteId).map EdgeRow.ends = s.graph.edges.map (fun e => (e.a, e.b))
  known : ∀ r mask, s.masks.get? (siteId, r) = some mask → r ∈ s.graph.nodes.keys
  records : ∀ r mask record, s.masks.get? (siteId, r) = some mask → mask.tactical = some record →
    (∀ other ∈ record.exitThresholds.keys, other ∈ neighborsOver s.graph.edges r) ∧
      record.exitThresholds.values.Nodup ∧
        ∀ cell ∈ record.exitThresholds.values, cell ∈ floorCells mask.grid

theorem Delve.holds_of_starts {entrance : RegionNode} (h : s.Starts siteId entrance) :
    s.Holds siteId := by
  refine ⟨?_, fun r mask hmask => ?_, fun r mask record hmask _ => ?_⟩
  · rw [h.edgeRows, h.graph]
    rfl
  · cases hmask.symm.trans (h.masks r)
  · cases hmask.symm.trans (h.masks r)

/-- An expansion keeps the records in line with the map. -/
theorem Grown.holds (h : Grown digests siteId c s s')
    (hmasked : ∀ r ∈ c.newIds, ∃ fill, c.fills.get? r = some fill ∧ fill.masked = true)
    (hs : s.Holds siteId) : s'.Holds siteId := by
  refine ⟨?_, fun r mask hmask => ?_, fun r mask record hmask hrecord => ?_⟩
  · rw [h.edgeRows, hs.edgeRows, h.edges, List.map_append]
  · rw [h.keys, List.mem_append]
    by_cases hr : r ∈ c.newIds
    · exact .inr hr
    · rw [h.mask_of_old hr] at hmask
      exact .inl (hs.known r mask hmask)
  · by_cases hr : r ∈ c.newIds
    · obtain ⟨grid, record', hget, -, hexits⟩ := h.mask_of_new hmasked hr
      cases hmask.symm.trans hget
      cases hrecord
      rw [hexits]
      refine ⟨fun other hother => ?_, exitThresholds_distinct _ _ _ _⟩
      have hnew := List.mem_of_mem_take ((mem_keys_exitThresholds _ _ _ _).mp hother)
      obtain ⟨e, he, hends⟩ := mem_neighborsOver.mp hnew
      refine mem_neighborsOver.mpr ⟨e, ?_, hends⟩
      rw [h.edges]
      exact List.mem_append_right _ he
    · rw [h.mask_of_old hr] at hmask
      obtain ⟨hneighbors, hdistinct⟩ := hs.records r mask record hmask hrecord
      refine ⟨fun other hother => ?_, hdistinct⟩
      obtain ⟨e, he, hends⟩ := mem_neighborsOver.mp (hneighbors other hother)
      refine mem_neighborsOver.mpr ⟨e, ?_, hends⟩
      rw [h.edges]
      exact List.mem_append_left _ he

/-! ### Who knows whom -/

/-- Who has a record afterwards. -/
theorem Grown.recorded_iff (h : Grown digests siteId c s s')
    (hmasked : ∀ r ∈ c.newIds, ∃ fill, c.fills.get? r = some fill ∧ fill.masked = true)
    {r : String} : Recorded siteId s c r ↔ ∃ record, s'.tactical? siteId r = some record := by
  unfold Recorded
  by_cases hr : r ∈ c.newIds
  · obtain ⟨grid, record, hget, -, -⟩ := h.mask_of_new hmasked hr
    refine iff_of_true (.inl hr) ⟨record, ?_⟩
    rw [Delve.tactical?, hget]
    rfl
  · rw [or_iff_right hr, Option.isSome_iff_exists]
    unfold Delve.tactical?
    rw [h.mask_of_old hr]

/-- The old exits of a map are those between neighbours. -/
theorem mem_keys_of_neighbor (hs : s.Holds siteId) (hknown : ExitsKnown siteId s) {r other : String}
    {record record' : RegionTactical} (hrecord : s.tactical? siteId r = some record)
    (hrecord' : s.tactical? siteId other = some record')
    (hneighbor : other ∈ neighborsOver s.graph.edges r) : other ∈ record.exitThresholds.keys := by
  obtain ⟨e, he, hends⟩ := mem_neighborsOver.mp hneighbor
  have hrow : (e.a, e.b) ∈ (s.map.edgeRowsAt siteId).map EdgeRow.ends := by
    rw [hs.edgeRows]
    exact List.mem_map_of_mem he
  obtain ⟨row, hrow, heq⟩ := List.mem_map.mp hrow
  obtain ⟨ha, hb⟩ := Prod.mk.inj heq
  rcases hends with ⟨rfl, rfl⟩ | ⟨-, rfl, rfl⟩
  · rw [← ha] at hrecord
    rw [← hb] at hrecord' ⊢
    exact (hknown.paired row hrow record record' hrecord hrecord').1
  · rw [← hb] at hrecord
    rw [← ha] at hrecord' ⊢
    exact (hknown.paired row hrow record' record hrecord' hrecord).2

/-- **An exit** is known after a commit exactly where its end knows the other end. -/
theorem Grown.knows_iff (h : Grown digests siteId c s s')
    (hmasked : ∀ r ∈ c.newIds, ∃ fill, c.fills.get? r = some fill ∧ fill.masked = true)
    (hs : s.Holds siteId) (hknown : ExitsKnown siteId s) {r other : String}
    {record record' : RegionTactical} (hrecord : s'.tactical? siteId r = some record)
    (hrecord' : s'.tactical? siteId other = some record') :
    Knows s c r other ↔ other ∈ record.exitThresholds.keys := by
  unfold Knows
  by_cases hr : r ∈ c.newIds
  · obtain ⟨grid, record'', hget, hfloor, hexits⟩ := h.mask_of_new hmasked hr
    obtain rfl : record'' = record := by
      rw [Delve.tactical?, hget] at hrecord
      exact Option.some.inj hrecord
    rw [if_pos hr, hexits, mem_keys_exitThresholds, hfloor]
  · rw [if_neg hr]
    have hrecordOld : s.tactical? siteId r = some record := by
      rw [Delve.tactical?, ← h.mask_of_old hr]
      exact hrecord
    constructor
    · intro hneighbor
      -- the other end was there before, and its record with it
      have hother : other ∉ c.newIds := by
        intro hnew
        obtain ⟨e, he, ⟨-, rfl⟩ | ⟨-, -, rfl⟩⟩ := mem_neighborsOver.mp hneighbor
        · exact h.not_mem_keys hnew (s.graph.known e he).2.2
        · exact h.not_mem_keys hnew (s.graph.known e he).2.1
      have hrecordOld' : s.tactical? siteId other = some record' := by
        rw [Delve.tactical?, ← h.mask_of_old hother]
        exact hrecord'
      exact mem_keys_of_neighbor hs hknown hrecordOld hrecordOld' hneighbor
    · intro hkey
      obtain ⟨mask, hmask, htactical⟩ := Option.bind_eq_some_iff.mp hrecordOld
      exact (hs.records r mask record hmask htactical).1 other hkey

/-- **A commit** keeps the exits known exactly where both ends of its edges know each other. -/
theorem Grown.exitsKnown_iff (h : Grown digests siteId c s s')
    (hmasked : ∀ r ∈ c.newIds, ∃ fill, c.fills.get? r = some fill ∧ fill.masked = true)
    (hs : s.Holds siteId) (hknown : ExitsKnown siteId s) :
    ExitsKnown siteId s' ↔ EndsKnown siteId s c := by
  constructor
  -- a new edge is a row, and the rows are paired
  · intro hnext e he ha hb
    obtain ⟨record, hrecord⟩ := (h.recorded_iff hmasked).mp ha
    obtain ⟨record', hrecord'⟩ := (h.recorded_iff hmasked).mp hb
    have hrow : (e.a, e.b) ∈ (s'.map.edgeRowsAt siteId).map EdgeRow.ends := by
      rw [h.edgeRows]
      exact List.mem_append_right _ (List.mem_map_of_mem he)
    obtain ⟨row, hrow, heq⟩ := List.mem_map.mp hrow
    obtain ⟨hrowA, hrowB⟩ := Prod.mk.inj heq
    rw [← hrowA] at hrecord ⊢
    rw [← hrowB] at hrecord' ⊢
    obtain ⟨hforth, hback⟩ := hnext.paired row hrow record record' hrecord hrecord'
    exact ⟨(h.knows_iff hmasked hs hknown hrecord hrecord').mpr hforth,
      (h.knows_iff hmasked hs hknown hrecord' hrecord).mpr hback⟩
  · intro hends
    refine ⟨fun row hrow record record' hrecord hrecord' => ?_, fun r mask record hmask hrecord =>
      ((h.holds hmasked hs).records r mask record hmask hrecord).2⟩
    have hmem : row.ends ∈ (s'.map.edgeRowsAt siteId).map EdgeRow.ends := List.mem_map_of_mem hrow
    rw [h.edgeRows, List.mem_append] at hmem
    rcases hmem with hold | hnew
    · -- both ends of an old edge were there before
      have hedge : row.ends ∈ s.graph.edges.map (fun e => (e.a, e.b)) := by
        rw [← hs.edgeRows]
        exact hold
      obtain ⟨e, he, heq⟩ := List.mem_map.mp hedge
      obtain ⟨hrowA, hrowB⟩ := Prod.mk.inj heq
      obtain ⟨-, hkeyA, hkeyB⟩ := s.graph.known e he
      have hsame : ∀ r ∈ s.graph.nodes.keys, s'.tactical? siteId r = s.tactical? siteId r := by
        intro r hr
        unfold Delve.tactical?
        rw [h.mask_of_old (fun hmem => h.not_mem_keys hmem hr)]
      rw [hsame row.a (hrowA ▸ hkeyA)] at hrecord
      rw [hsame row.b (hrowB ▸ hkeyB)] at hrecord'
      obtain ⟨row', hrow', heq'⟩ := List.mem_map.mp hold
      obtain ⟨hrowA', hrowB'⟩ := Prod.mk.inj heq'
      rw [← hrowA'] at hrecord ⊢
      rw [← hrowB'] at hrecord' ⊢
      exact hknown.paired row' hrow' record record' hrecord hrecord'
    · obtain ⟨e, he, heq⟩ := List.mem_map.mp hnew
      obtain ⟨hrowA, hrowB⟩ := Prod.mk.inj heq
      rw [← hrowA] at hrecord ⊢
      rw [← hrowB] at hrecord' ⊢
      obtain ⟨hforth, hback⟩ := hends e he ((h.recorded_iff hmasked).mpr ⟨record, hrecord⟩)
        ((h.recorded_iff hmasked).mpr ⟨record', hrecord'⟩)
      exact ⟨(h.knows_iff hmasked hs hknown hrecord hrecord').mp hforth,
        (h.knows_iff hmasked hs hknown hrecord' hrecord).mp hback⟩

/-- A commit that goes through is a step. -/
theorem Roomy.grown (h : Roomy entropy digests siteId s c) :
    Grown digests siteId c s (s.step entropy digests siteId c) := by
  obtain ⟨s', hexec⟩ := h.committed
  have hstep : s.step entropy digests siteId c = s' := by
    unfold Delve.step
    rw [hexec]
  rw [hstep]
  exact grown_of_commitDelve hexec

/-- Nothing is known at first, and nothing is asked for. -/
theorem exitsKnown_of_starts {entrance : RegionNode} (h : s.Starts siteId entrance) :
    ExitsKnown siteId s := by
  refine ⟨fun row hrow => ?_, fun r mask record hmask _ => ?_⟩
  · rw [h.edgeRows] at hrow
    cases hrow
  · cases hmask.symm.trans (h.masks r)

/-- **Exits on both sides.** Where all regions have masks with room for their neighbours, exits are
    known throughout exactly if both ends of every edge know each other when it is committed. -/
theorem throughout_exitsKnown_iff {entrance : RegionNode} (hs : s.Starts siteId entrance)
    {cs : List Commit} (hcs : StepsMeet (Delve.step entropy digests siteId)
      (Roomy entropy digests siteId) s cs) :
    Throughout (Delve.step entropy digests siteId) (ExitsKnown siteId) s cs ↔
      StepsMeet (Delve.step entropy digests siteId) (EndsKnown siteId) s cs := by
  refine throughout_iff_stepsMeet_of_given (I := Delve.Holds siteId) ?_ ?_
    (Delve.holds_of_starts hs) (exitsKnown_of_starts hs) hcs
  · intro s c hholds hroomy
    exact hroomy.grown.holds hroomy.masked hholds
  · intro s c hholds hroomy hknown
    exact hroomy.grown.exitsKnown_iff hroomy.masked hholds hknown

end Commits

/-! ### Two expansions of a campaign -/

/-- A room of three by three. -/
def openRoom : RegionFill := ⟨[[0, 0, 0], [0, 0, 0], [0, 0, 0]], true⟩

/-- Digests of nothing but zeros. -/
def zeroDigests : TacticalEntropy := ⟨fun _ => digestOf 0, fun n => n * 18 / 100⟩

/-- An expansion whose regions are open rooms with nothing in them. -/
def openRooms (exp : Expansion) (isFreshSave : Bool) : Commit where
  campaignSeed := 6
  expansion := exp
  fills := (exp.newNodes.map (·.id)).foldl (fun d r => d.insert r openRoom) .empty
  attachReports := []
  curation := { regionManifests := .empty }
  isFreshSave := isFreshSave

/-- The entrance, and empty tables. -/
def doorstep : Delve := ⟨seedGraph cryptEntrance, .empty, .empty⟩

theorem starts_doorstep : doorstep.Starts "frontier" cryptEntrance :=
  ⟨rfl, rfl, fun _ => rfl⟩

theorem masked_openRooms {exp : Expansion} {isFreshSave : Bool}
    (h : ∀ r ∈ (openRooms exp isFreshSave).newIds,
      (openRooms exp isFreshSave).fills.get? r = some openRoom) :
    ∀ r ∈ (openRooms exp isFreshSave).newIds, ∃ fill,
      (openRooms exp isFreshSave).fills.get? r = some fill ∧ fill.masked = true :=
  fun r hr => ⟨openRoom, h r hr, rfl⟩

theorem roomy_stairwell :
    Roomy sixthCampaign zeroDigests "frontier" doorstep (openRooms stairwell true) :=
  ⟨⟨_, eq_of_fst_eq (by decide +kernel)⟩, masked_openRooms (by decide +kernel), by decide +kernel⟩

/-- After the first expansion all exits are known. -/
theorem exitsKnown_stairwell :
    Throughout (Delve.step sixthCampaign zeroDigests "frontier") (ExitsKnown "frontier") doorstep
      [openRooms stairwell true] := by
  have hrooms : StepsMeet (Delve.step sixthCampaign zeroDigests "frontier")
      (Roomy sixthCampaign zeroDigests "frontier") doorstep [openRooms stairwell true] :=
    ⟨roomy_stairwell, trivial⟩
  refine (throughout_exitsKnown_iff starts_doorstep hrooms).mpr ⟨?_, trivial⟩
  -- the entrance has no record, and all rooms have a cell for each of their edges
  have hends : ∀ e ∈ stairwell.newEdges, e.a = "entrance" ∨
      Knows doorstep (openRooms stairwell true) e.a e.b ∧
        Knows doorstep (openRooms stairwell true) e.b e.a := by
    unfold Knows
    decide +kernel
  intro e he ha hb
  rcases hends e he with hentrance | hknows
  · rw [hentrance] at ha
    exact absurd ha (by unfold Recorded; decide +kernel)
  · exact hknows

/-- The second expansion hangs a region from one of the first, which has no exit to it. -/
theorem not_exitsKnown_gallery :
    (∃ report, generateExpansion sixthCampaign (seedGraph cryptEntrance) 6 1 ["entrance"] ["crypt"]
      twoHops = .ok (stairwell, report)) ∧
    (∃ report, generateExpansion sixthCampaign stairGraph 6 2 ["entrance", "exp001.r0"] ["crypt"]
      twoHops = .ok (gallery, report)) ∧
    doorstep.Starts "frontier" cryptEntrance ∧
    StepsMeet (Delve.step sixthCampaign zeroDigests "frontier")
      (Roomy sixthCampaign zeroDigests "frontier") doorstep
      [openRooms stairwell true, openRooms gallery false] ∧
    ¬ Throughout (Delve.step sixthCampaign zeroDigests "frontier") (ExitsKnown "frontier") doorstep
      [openRooms stairwell true, openRooms gallery false] := by
  have hgenerated : ((generateExpansion sixthCampaign stairGraph 6 2 ["entrance", "exp001.r0"]
      ["crypt"] twoHops).toOption.map Prod.fst) = some gallery := by decide +kernel
  obtain ⟨⟨exp, report⟩, hreport, rfl⟩ := Option.map_eq_some_iff.mp hgenerated
  refine ⟨exists_report_stairwell, ⟨report, toOption_eq_some.mp hreport⟩, starts_doorstep,
    ⟨roomy_stairwell, ⟨⟨_, eq_of_fst_eq (by decide +kernel)⟩, masked_openRooms (by decide +kernel),
      by decide +kernel⟩, trivial⟩, fun h => ?_⟩
  have hlast := h.last
  have hrow : ("exp001.r0", "exp002.r2") ∈ ((run (Delve.step sixthCampaign zeroDigests "frontier")
      doorstep [openRooms stairwell true, openRooms gallery false]).map.edgeRowsAt "frontier").map
        EdgeRow.ends := by
    decide +kernel
  have hrecord : ((run (Delve.step sixthCampaign zeroDigests "frontier") doorstep
      [openRooms stairwell true, openRooms gallery false]).tactical? "frontier" "exp001.r0").map
        (·.exitThresholds.keys)
      = some ["exp001.r1", "exp001.r2", "entrance"] := by
    decide +kernel
  have hrecord' : ((run (Delve.step sixthCampaign zeroDigests "frontier") doorstep
      [openRooms stairwell true, openRooms gallery false]).tactical? "frontier" "exp002.r2").isSome
        = true := by
    decide +kernel
  obtain ⟨row, hmem, heq⟩ := List.mem_map.mp hrow
  obtain ⟨ha, hb⟩ := Prod.mk.inj heq
  obtain ⟨record, hsome, hkeys⟩ := Option.map_eq_some_iff.mp hrecord
  obtain ⟨record', hsome'⟩ := Option.isSome_iff_exists.mp hrecord'
  have hexit := (hlast.paired row hmem record record' (ha ▸ hsome) (hb ▸ hsome')).1
  rw [hkeys, hb] at hexit
  simp at hexit

end Sidequest.Dungeon
