import Mathlib.Algebra.Order.Ring.Rat
import Mathlib.Data.List.Sort
import Mathlib.Data.String.Basic
import Sidequest.Lib.Dict
import Sidequest.Lib.Run

namespace Sidequest.Dungeon

open Lib

/-!
# How often a frontier edge is expanded

The frontier never loses an edge, and the markers of a task are cleared when it ends. So what
keeps an edge from being expanded again is that no region transition offers it again.

* `DungeonStore` — the map, the frontier and the writes of a commit;
* `ExpandedOnce` — no edge was expanded twice, and none is about to be;
* `expandedOnce_iff` — the runs that expand no edge twice are those whose transitions offer none.
-/

section

/-! ### The dungeon store -/

/-- An edge of the frontier: where an expansion can be pushed outward from. -/
structure FrontierEdge where
  (frontierEdgeId fromRegionId heading : String)
  spawnDepthScore : Rat

/-- The store of a campaign: the expansion every committed region belongs to, and the frontier
    under the ids of its edges. -/
structure DungeonStore where
  map : Dict String Nat
  frontier : Dict String FrontierEdge
  keyed : ∀ entry ∈ frontier.entries, entry.2.frontierEdgeId = entry.1

/-- Why a commit is rolled back. -/
inductive PersistError where
  | entranceMissing (entranceId : String)
  | frozenRegion (regionId : String)
  | noDepthScore (regionId : String)

variable (config : WorkerConfig) (store : DungeonStore) (expansionId : Nat)

namespace DungeonStore

/-- Upsert a frontier edge. -/
def putFrontier (fe : FrontierEdge) : DungeonStore where
  map := store.map
  frontier := store.frontier.insert fe.frontierEdgeId fe
  keyed := by
    intro entry hentry
    have hget : (store.frontier.insert fe.frontierEdgeId fe).get? entry.1 = some entry.2 :=
      Dict.get?_eq_some_iff.mpr hentry
    rw [Dict.get?_insert] at hget
    by_cases hkey : entry.1 = fe.frontierEdgeId
    · rw [if_pos hkey] at hget
      rw [← Option.some.inj hget, hkey]
    · rw [if_neg hkey] at hget
      exact store.keyed entry (Dict.get?_eq_some_iff.mp hget)

/-- The frontier edges in the order of their ids. -/
def loadFrontier : List FrontierEdge :=
  store.frontier.values.insertionSort (fun a b => a.frontierEdgeId ≤ b.frontierEdgeId)

/-- Put one region on the map; a region that is there is frozen. -/
def commitRegion (store : DungeonStore) (regionId : String) : Except PersistError DungeonStore :=
  if regionId ∈ store.map.keys then .error (.frozenRegion regionId)
  else .ok { store with map := store.map.insert regionId expansionId }

/-- One past the highest expansion on the map. -/
def nextExpansionId : Nat := store.map.values.foldr max 0 + 1

end DungeonStore

/-! ### One expansion -/

/-- A region of an expansion, with the depth it was given when it was attached. -/
structure NewRegion where
  regionId : String
  depthScore : Option Rat

/-- What the stages before the commit come to: they raise, or hand their new regions to the commit.
    -/
inductive Stages where
  | raised
  | attached (newNodes : List NewRegion) (emitRaises : Bool)

/-- The worker's own settings. `digest` is the hash that edge ids are made of. -/
structure WorkerConfig where
  (campaignSeed lookaheadBreadth : Int)
  digest : String → String

/-- The region that stands for the surface. -/
def entranceId : String := "entrance"

/-- The id of the frontier edge of a region: the same whenever it is derived again. -/
def frontierEdgeId (regionId : String) : String :=
  "fe_" ++ config.digest ("frontier|" ++ toString config.campaignSeed ++ "|" ++
    toString expansionId ++ "|" ++ regionId)

/-- Each new region is one new frontier edge, with the heading of the party. -/
def newFrontierEdges (config : WorkerConfig) (expansionId : Nat) (heading : String) :
    List NewRegion → Except PersistError (List FrontierEdge)
  | [] => .ok []
  | node :: rest =>
    match node.depthScore with
    | none => .error (.noDepthScore node.regionId)
    | some depthScore => do
      let edges ← newFrontierEdges config expansionId heading rest
      .ok (⟨frontierEdgeId config expansionId node.regionId, node.regionId, heading, depthScore⟩
        :: edges)

/-- The commit of an expansion: its regions and its frontier edges, or nothing. -/
def stageCommit (heading : String) (newNodes : List NewRegion) (store : DungeonStore) :
    Except PersistError DungeonStore := do
  let newFrontier ←
    if 0 < config.lookaheadBreadth then newFrontierEdges config expansionId heading newNodes
    else .ok []
  let isFreshSave := store.map.entries.isEmpty && store.frontier.entries.isEmpty
  if isFreshSave then .error (.entranceMissing entranceId)
  else
    let store ← newNodes.foldlM
      (fun store node => store.commitRegion expansionId node.regionId) store
    .ok (newFrontier.foldl DungeonStore.putFrontier store)

/-- What became of one edge: whether an expansion was committed for it, with the store that left,
    and whether the pipeline raised. -/
structure Outcome where
  store : DungeonStore
  (committed raised : Bool)

/-- Materialize the expansion of one frontier edge. -/
def materializeEdge (edge : FrontierEdge) (stages : Stages) (store : DungeonStore) : Outcome :=
  match stages with
  | .raised => ⟨store, false, true⟩
  | .attached newNodes emitRaises =>
    match stageCommit config store.nextExpansionId edge.heading newNodes store with
    | .error _ => ⟨store, false, true⟩
    -- the room files are written after the commit, which stays when that raises
    | .ok store' => ⟨store', true, emitRaises⟩

/-! ### The worker -/

/-- Nearer first, and by id where two are as near. -/
def nearer (a b : FrontierEdge) : Prop :=
  a.spawnDepthScore < b.spawnDepthScore ∨
    a.spawnDepthScore = b.spawnDepthScore ∧ a.frontierEdgeId ≤ b.frontierEdgeId

instance : DecidableRel nearer := fun a b => by
  unfold nearer
  infer_instance

/-- The nearest edges rooted in the region a party enters. -/
def selectFrontierEdges (frontier : List FrontierEdge) (toRegion : String)
    (lookaheadBreadth : Int) : List FrontierEdge :=
  ((frontier.filter (fun fe => fe.fromRegionId = toRegion)).insertionSort nearer).take
    lookaheadBreadth.toNat

/-- A background task: the edges it was made for, and those it has not come to yet. -/
structure Task where
  (edges pending : List FrontierEdge)

/-- The worker of a campaign with its store; `expanded` lists the frontier edges committed for, and
    is no data of the program. -/
structure Worker where
  store : DungeonStore
  inFlight : Dict String Nat
  tasks : Dict Nat Task
  nextTask : Nat
  expanded : List String

/-- A worker over a store, with nothing going on and nothing expanded. -/
def Worker.register : Worker := ⟨store, .empty, .empty, 0, []⟩

/-- Start one task for those of the edges that are not in flight, and mark them. -/
def schedule (edges : List FrontierEdge) (w : Worker) : Worker :=
  let fresh := edges.filter (fun edge => edge.frontierEdgeId ∉ w.inFlight.keys)
  if fresh.isEmpty then w
  else
    { w with
      inFlight := fresh.foldl (fun marks edge => marks.insert edge.frontierEdgeId w.nextTask)
        w.inFlight
      tasks := w.tasks.insert w.nextTask ⟨fresh, fresh⟩
      nextTask := w.nextTask + 1 }

variable (w : Worker)

/-- The edges a party that enters a region approaches. -/
def approached (toRegion : String) : List FrontierEdge :=
  selectFrontierEdges w.store.loadFrontier toRegion config.lookaheadBreadth

/-- A region transition: whatever is approached is scheduled. -/
def observer (toRegion : String) (w : Worker) : Worker :=
  schedule (approached config w toRegion) w

/-- A task comes to its next edge. An exception ends the task. -/
def materializeNext (taskNo : Nat) (stages : Stages) (w : Worker) : Worker :=
  match w.tasks.get? taskNo with
  | some ⟨edges, edge :: rest⟩ =>
    let outcome := materializeEdge config edge stages w.store
    { w with
      store := outcome.store
      tasks := w.tasks.insert taskNo ⟨edges, if outcome.raised then [] else rest⟩
      expanded := if outcome.committed then w.expanded ++ [edge.frontierEdgeId] else w.expanded }
  | _ => w

/-- The callback of a task that has ended, in success or failure: its markers are cleared. -/
def done (taskNo : Nat) (w : Worker) : Worker :=
  match w.tasks.get? taskNo with
  | some ⟨edges, []⟩ =>
    { w with
      inFlight := edges.foldl (fun marks edge => marks.erase edge.frontierEdgeId) w.inFlight
      tasks := w.tasks.erase taskNo }
  | _ => w

/-- A new process: what was committed is there, the markers and the tasks are gone. -/
def restart : Worker := { w with inFlight := .empty, tasks := .empty }

/-- What happens to a worker. -/
inductive Event where
  | transition (toRegion : String)
  | materializeNext (taskNo : Nat) (stages : Stages)
  | done (taskNo : Nat)
  | restart

/-- The worker after an event. -/
def step : Event → Worker
  | .transition toRegion => observer config toRegion w
  | .materializeNext taskNo stages => materializeNext config taskNo stages w
  | .done taskNo => done taskNo w
  | .restart => restart w

end

variable {config : WorkerConfig} {w : Worker}

/-- No edge was expanded twice, and no task is still to expand one that was. -/
structure ExpandedOnce (w : Worker) : Prop where
  nodup : w.expanded.Nodup
  pending : ∀ no task, w.tasks.get? no = some task →
    ∀ edge ∈ task.pending, edge.frontierEdgeId ∉ w.expanded

/-- A transition approaches no edge that was expanded, save one that is in flight. -/
def OffersUnexpanded (config : WorkerConfig) (w : Worker) : Event → Prop
  | .transition toRegion => ∀ edge ∈ approached config w toRegion,
      edge.frontierEdgeId ∈ w.expanded → edge.frontierEdgeId ∈ w.inFlight.keys
  | _ => True

/-- The edges of every task carry its number as their marker, and the tasks' edges differ. -/
structure Tracked (w : Worker) : Prop extends ExpandedOnce w where
  distinct : ∀ no task, w.tasks.get? no = some task →
    (task.pending.map FrontierEdge.frontierEdgeId).Nodup
  part : ∀ no task, w.tasks.get? no = some task → task.pending ⊆ task.edges
  marked : ∀ no task, w.tasks.get? no = some task →
    ∀ edge ∈ task.edges, w.inFlight.get? edge.frontierEdgeId = some no
  numbered : ∀ no task, w.tasks.get? no = some task → no < w.nextTask

/-! ### Markers -/

variable (edges : List FrontierEdge)

/-- Marking edges sets their markers and leaves the others. -/
theorem get?_mark (no : Nat) (marks : Dict String Nat) (feid : String) :
    (edges.foldl (fun marks edge => marks.insert edge.frontierEdgeId no) marks).get? feid
      = if feid ∈ edges.map FrontierEdge.frontierEdgeId then some no else marks.get? feid := by
  induction edges generalizing marks with
  | nil => simp
  | cons edge rest ih =>
    rw [List.foldl_cons, ih, Dict.get?_insert]
    by_cases hrest : feid ∈ rest.map FrontierEdge.frontierEdgeId
    · simp [hrest]
    · by_cases hhead : feid = edge.frontierEdgeId
      · simp [hhead]
      · simp [hrest, hhead]

/-- Clearing markers leaves the others. -/
theorem get?_clear (marks : Dict String Nat) (feid : String) :
    (edges.foldl (fun marks edge => marks.erase edge.frontierEdgeId) marks).get? feid
      = if feid ∈ edges.map FrontierEdge.frontierEdgeId then none else marks.get? feid := by
  induction edges generalizing marks with
  | nil => simp
  | cons edge rest ih =>
    rw [List.foldl_cons, ih, Dict.get?_erase]
    by_cases hrest : feid ∈ rest.map FrontierEdge.frontierEdgeId
    · simp [hrest]
    · by_cases hhead : feid = edge.frontierEdgeId
      · simp [hhead]
      · simp [hrest, hhead]

/-! ### What a transition approaches -/

theorem nodup_loadFrontier (store : DungeonStore) :
    (store.loadFrontier.map FrontierEdge.frontierEdgeId).Nodup := by
  have hkeys : store.frontier.values.map FrontierEdge.frontierEdgeId = store.frontier.keys := by
    unfold Dict.values Dict.keys
    rw [List.map_map]
    exact List.map_congr_left store.keyed
  have hperm := (List.perm_insertionSort (fun a b : FrontierEdge =>
    a.frontierEdgeId ≤ b.frontierEdgeId) store.frontier.values).map FrontierEdge.frontierEdgeId
  unfold DungeonStore.loadFrontier
  rw [hperm.nodup_iff, hkeys]
  exact store.frontier.nodup_keys

theorem nodup_approached (config : WorkerConfig) (w : Worker) (toRegion : String) :
    ((approached config w toRegion).map FrontierEdge.frontierEdgeId).Nodup := by
  have hrooted := (nodup_loadFrontier w.store).sublist ((List.filter_sublist
    (p := fun fe => decide (fe.fromRegionId = toRegion))).map FrontierEdge.frontierEdgeId)
  have hsorted := ((List.perm_insertionSort nearer _).map FrontierEdge.frontierEdgeId).nodup_iff.mpr
    hrooted
  exact hsorted.sublist ((List.take_sublist _ _).map FrontierEdge.frontierEdgeId)

/-! ### One event -/

/-- The edges a signal starts a task for. -/
def freshOf (w : Worker) : List FrontierEdge :=
  edges.filter (fun edge => edge.frontierEdgeId ∉ w.inFlight.keys)

variable {edges : List FrontierEdge} {edge : FrontierEdge}

theorem mem_freshOf :
    edge ∈ freshOf edges w ↔ edge ∈ edges ∧ edge.frontierEdgeId ∉ w.inFlight.keys := by
  unfold freshOf
  rw [List.mem_filter, decide_eq_true_iff]

theorem get?_tasks_schedule (h : edge ∈ freshOf edges w) :
    (schedule edges w).tasks.get? w.nextTask = some ⟨freshOf edges w, freshOf edges w⟩ := by
  have hne : (freshOf edges w).isEmpty = false := by
    rw [List.isEmpty_eq_false_iff]
    exact List.ne_nil_of_mem h
  unfold schedule
  rw [if_neg (by rw [← freshOf, hne]; simp)]
  show (w.tasks.insert w.nextTask _).get? w.nextTask = _
  rw [Dict.get?_insert, if_pos rfl]
  rfl

/-- A signal expands nothing by itself. -/
theorem expanded_schedule (w : Worker) : (schedule edges w).expanded = w.expanded := by
  unfold schedule
  by_cases hempty : (freshOf edges w).isEmpty = true
  · rw [if_pos (by exact hempty)]
  · rw [if_neg (by exact hempty)]

theorem Tracked.schedule (h : Tracked w) (hdistinct : (edges.map FrontierEdge.frontierEdgeId).Nodup)
    (hoffers : ∀ edge ∈ edges, edge.frontierEdgeId ∈ w.expanded →
      edge.frontierEdgeId ∈ w.inFlight.keys) : Tracked (schedule edges w) := by
  by_cases hempty : (freshOf edges w).isEmpty = true
  · have hsame : Dungeon.schedule edges w = w := by
      unfold Dungeon.schedule
      rw [if_pos (by exact hempty)]
    rw [hsame]
    exact h
  · have hnew : Dungeon.schedule edges w =
        { w with
          inFlight := (freshOf edges w).foldl
            (fun marks edge => marks.insert edge.frontierEdgeId w.nextTask) w.inFlight
          tasks := w.tasks.insert w.nextTask ⟨freshOf edges w, freshOf edges w⟩
          nextTask := w.nextTask + 1 } := by
      unfold Dungeon.schedule
      rw [if_neg (by exact hempty)]
      rfl
    -- a task is the new one or one that was there
    have htask : ∀ no task, (w.tasks.insert w.nextTask ⟨freshOf edges w, freshOf edges w⟩).get? no
        = some task → (no = w.nextTask ∧ task = ⟨freshOf edges w, freshOf edges w⟩) ∨
          w.tasks.get? no = some task := by
      intro no task hget
      rw [Dict.get?_insert] at hget
      by_cases hno : no = w.nextTask
      · rw [if_pos hno] at hget
        exact .inl ⟨hno, (Option.some.inj hget).symm⟩
      · rw [if_neg hno] at hget
        exact .inr hget
    rw [hnew]
    refine ⟨⟨h.nodup, ?_⟩, ?_, ?_, ?_, ?_⟩
    · intro no task hget edge hedge
      rcases htask no task hget with ⟨-, rfl⟩ | hold
      · obtain ⟨hmem, hfree⟩ := mem_freshOf.mp hedge
        exact fun hexpanded => hfree (hoffers edge hmem hexpanded)
      · exact h.pending no task hold edge hedge
    · intro no task hget
      rcases htask no task hget with ⟨-, rfl⟩ | hold
      · exact hdistinct.sublist (List.filter_sublist.map FrontierEdge.frontierEdgeId)
      · exact h.distinct no task hold
    · intro no task hget
      rcases htask no task hget with ⟨-, rfl⟩ | hold
      · exact List.Subset.refl _
      · exact h.part no task hold
    · intro no task hget edge hedge
      show (List.foldl _ w.inFlight (freshOf edges w)).get? edge.frontierEdgeId = some no
      rw [get?_mark]
      rcases htask no task hget with ⟨rfl, rfl⟩ | hold
      · rw [if_pos (List.mem_map_of_mem hedge)]
      · have hmark := h.marked no task hold edge hedge
        have hnot : edge.frontierEdgeId ∉ (freshOf edges w).map FrontierEdge.frontierEdgeId := by
          intro hmem
          obtain ⟨other, hother, hid⟩ := List.mem_map.mp hmem
          apply (mem_freshOf.mp hother).2
          rw [hid]
          exact Dict.mem_keys_of_get? hmark
        rw [if_neg hnot]
        exact hmark
    · intro no task hget
      show no < w.nextTask + 1
      rcases htask no task hget with ⟨rfl, -⟩ | hold
      · omega
      · have hlt := h.numbered no task hold
        omega

theorem Tracked.no_eq {no no' : Nat} {task task' : Task} {edge' : FrontierEdge} (h : Tracked w)
    (htask : w.tasks.get? no = some task) (htask' : w.tasks.get? no' = some task')
    (hedge : edge ∈ task.edges) (hedge' : edge' ∈ task'.edges)
    (hid : edge.frontierEdgeId = edge'.frontierEdgeId) : no = no' := by
  have hmark := h.marked no task htask edge hedge
  have hmark' := h.marked no' task' htask' edge' hedge'
  rw [hid, hmark'] at hmark
  exact (Option.some.inj hmark).symm

/-- A task at its next edge: whatever was committed, what is left to do is part of what came after
    the edge. -/
theorem Tracked.advance (h : Tracked w) {taskNo : Nat} {rest left : List FrontierEdge}
    (htask : w.tasks.get? taskNo = some ⟨edges, edge :: rest⟩) (hleft : left.Sublist rest)
    (store : DungeonStore) (committed : Bool) :
    Tracked { w with
      store := store
      tasks := w.tasks.insert taskNo ⟨edges, left⟩
      expanded := if committed then w.expanded ++ [edge.frontierEdgeId] else w.expanded } := by
  have hpart := h.part taskNo _ htask
  have hdistinct := h.distinct taskNo _ htask
  have hfresh := h.pending taskNo _ htask edge (.head _)
  rw [List.map_cons, List.nodup_cons] at hdistinct
  have htasks : ∀ no task, (w.tasks.insert taskNo ⟨edges, left⟩).get? no = some task →
      (no = taskNo ∧ task = ⟨edges, left⟩) ∨ (no ≠ taskNo ∧ w.tasks.get? no = some task) := by
    intro no task hget
    rw [Dict.get?_insert] at hget
    by_cases hno : no = taskNo
    · rw [if_pos hno] at hget
      exact .inl ⟨hno, (Option.some.inj hget).symm⟩
    · rw [if_neg hno] at hget
      exact .inr ⟨hno, hget⟩
  -- no task is left with the edge that was come to
  have hold : ∀ no task, (w.tasks.insert taskNo ⟨edges, left⟩).get? no = some task →
      ∀ other ∈ task.pending, other.frontierEdgeId ∉ w.expanded ∧
        other.frontierEdgeId ≠ edge.frontierEdgeId := by
    intro no task hget other hother
    rcases htasks no task hget with ⟨-, rfl⟩ | ⟨hno, hget⟩
    · have hrest := hleft.subset hother
      refine ⟨h.pending taskNo _ htask other (.tail edge hrest), fun heq => ?_⟩
      apply hdistinct.1
      rw [← heq]
      exact List.mem_map_of_mem hrest
    · refine ⟨h.pending no task hget other hother, fun heq => hno ?_⟩
      exact h.no_eq hget htask (h.part no task hget hother) (hpart (.head _)) heq
  refine ⟨⟨?_, ?_⟩, ?_, ?_, ?_, ?_⟩
  · show (if committed then w.expanded ++ [edge.frontierEdgeId] else w.expanded).Nodup
    by_cases hcommitted : committed = true
    · rw [if_pos hcommitted, List.nodup_append]
      refine ⟨h.nodup, List.nodup_singleton _, fun a ha b hb heq => hfresh ?_⟩
      rw [← List.mem_singleton.mp hb, ← heq]
      exact ha
    · rw [if_neg hcommitted]
      exact h.nodup
  · intro no task hget other hother
    obtain ⟨hexpanded, hne⟩ := hold no task hget other hother
    show other.frontierEdgeId ∉
      (if committed then w.expanded ++ [edge.frontierEdgeId] else w.expanded)
    by_cases hcommitted : committed = true
    · rw [if_pos hcommitted]
      simp [hexpanded, hne]
    · rw [if_neg hcommitted]
      exact hexpanded
  · intro no task hget
    rcases htasks no task hget with ⟨-, rfl⟩ | ⟨-, hget⟩
    · exact hdistinct.2.sublist (hleft.map FrontierEdge.frontierEdgeId)
    · exact h.distinct no task hget
  · intro no task hget
    rcases htasks no task hget with ⟨-, rfl⟩ | ⟨-, hget⟩
    · exact fun other hother => hpart (.tail edge (hleft.subset hother))
    · exact h.part no task hget
  · intro no task hget
    rcases htasks no task hget with ⟨rfl, rfl⟩ | ⟨-, hget⟩
    · exact fun other hother => h.marked _ _ htask other hother
    · exact h.marked no task hget
  · intro no task hget
    rcases htasks no task hget with ⟨rfl, rfl⟩ | ⟨-, hget⟩
    · exact h.numbered _ _ htask
    · exact h.numbered no task hget

theorem Tracked.materializeNext (h : Tracked w) (taskNo : Nat) (stages : Stages) :
    Tracked (materializeNext config taskNo stages w) := by
  unfold Dungeon.materializeNext
  rcases htask : w.tasks.get? taskNo with _ | ⟨edges, _ | ⟨edge, rest⟩⟩
  · exact h
  · exact h
  · have hleft : (if (materializeEdge config edge stages w.store).raised then [] else rest).Sublist
        rest := by
      by_cases hraised : (materializeEdge config edge stages w.store).raised = true
      · rw [if_pos hraised]
        exact List.nil_sublist rest
      · rw [if_neg hraised]
    exact h.advance htask hleft _ _

theorem Tracked.done (h : Tracked w) (taskNo : Nat) : Tracked (done taskNo w) := by
  unfold Dungeon.done
  rcases htask : w.tasks.get? taskNo with _ | ⟨edges, _ | ⟨edge, rest⟩⟩
  · exact h
  · have hothers : ∀ no task, (w.tasks.erase taskNo).get? no = some task →
        no ≠ taskNo ∧ w.tasks.get? no = some task := by
      intro no task hget
      rw [Dict.get?_erase] at hget
      by_cases hno : no = taskNo
      · rw [if_pos hno] at hget
        simp at hget
      · rw [if_neg hno] at hget
        exact ⟨hno, hget⟩
    refine ⟨⟨h.nodup, fun no task hget => h.pending no task (hothers no task hget).2⟩,
      fun no task hget => h.distinct no task (hothers no task hget).2,
      fun no task hget => h.part no task (hothers no task hget).2, ?_,
      fun no task hget => h.numbered no task (hothers no task hget).2⟩
    intro no task hget edge hedge
    obtain ⟨hno, hold⟩ := hothers no task hget
    show (List.foldl _ w.inFlight edges).get? edge.frontierEdgeId = some no
    rw [get?_clear]
    have hnot : edge.frontierEdgeId ∉ edges.map FrontierEdge.frontierEdgeId := by
      intro hmem
      obtain ⟨other, hother, hid⟩ := List.mem_map.mp hmem
      exact hno (h.no_eq hold htask hedge hother hid.symm)
    rw [if_neg hnot]
    exact h.marked no task hold edge hedge
  · exact h

theorem tracked_of_no_tasks (htasks : w.tasks = .empty) (hnodup : w.expanded.Nodup) :
    Tracked w := by
  have hnone : ∀ no task, w.tasks.get? no ≠ some task := by
    intro no task
    rw [htasks, Dict.get?_empty]
    simp
  refine ⟨⟨hnodup, ?_⟩, ?_, ?_, ?_, ?_⟩
  all_goals exact fun no task hget => absurd hget (hnone no task)

/-- **Step.** An event that offers no expanded edge keeps track. -/
theorem Tracked.step (h : Tracked w) {e : Event} (hoffers : OffersUnexpanded config w e) :
    Tracked (step config w e) := by
  cases e with
  | transition toRegion => exact h.schedule (nodup_approached config w toRegion) hoffers
  | materializeNext taskNo stages => exact h.materializeNext taskNo stages
  | done taskNo => exact h.done taskNo
  | restart => exact tracked_of_no_tasks rfl h.nodup

/-- A transition that offers an expanded edge starts a task for it. -/
theorem not_expandedOnce_step {e : Event} (hoffers : ¬ OffersUnexpanded config w e) :
    ¬ ExpandedOnce (step config w e) := by
  intro honce
  cases e with
  | transition toRegion =>
    simp only [OffersUnexpanded, not_forall] at hoffers
    obtain ⟨edge, hmem, hexpanded, hfree⟩ := hoffers
    have hfresh : edge ∈ freshOf (approached config w toRegion) w := mem_freshOf.mpr ⟨hmem, hfree⟩
    apply honce.pending w.nextTask _ (get?_tasks_schedule hfresh) edge hfresh
    show edge.frontierEdgeId ∈ (schedule (approached config w toRegion) w).expanded
    rw [expanded_schedule]
    exact hexpanded
  | materializeNext taskNo stages => exact hoffers trivial
  | done taskNo => exact hoffers trivial
  | restart => exact hoffers trivial

/-- **Each edge is expanded at most once**, along every run, exactly if no transition approaches an
    edge that was expanded and is not in flight any more. -/
theorem expandedOnce_iff (config : WorkerConfig) (store : DungeonStore) (es : List Event) :
    Throughout (step config) ExpandedOnce (.register store) es ↔
      StepsMeet (step config) (OffersUnexpanded config) (.register store) es :=
  throughout_iff_stepsMeet (fun _ _ h hoffers => h.step hoffers)
    (fun _ h => h.toExpandedOnce) (fun _ _ _ hoffers => not_expandedOnce_step hoffers)
    (tracked_of_no_tasks rfl List.nodup_nil)

/-! ### A party that comes back -/

/-- A campaign whose first expansion is one region. -/
def firstDungeon : DungeonStore where
  map := (Dict.empty.insert "entrance" 0).insert "exp001.r0" 1
  frontier := Dict.empty.insert "fe_3414b74d6c008281"
    ⟨"fe_3414b74d6c008281", "exp001.r0", "down", 1⟩
  keyed := by decide

/-- The worker of that campaign, with the hashes of the regions it comes to. -/
def firstConfig : WorkerConfig where
  campaignSeed := 7
  lookaheadBreadth := 1
  digest text :=
    if text = "frontier|7|2|exp002.r0" then "5e78601c74b9c573"
    else if text = "frontier|7|3|exp003.r0" then "371d0d82783c7003"
    else "3414b74d6c008281"

/-- **An edge may be expanded twice**: the party goes back and enters the region once more. -/
theorem not_nodup_expanded : ¬ ∀ (config : WorkerConfig) (store : DungeonStore) (es : List Event),
        (run (step config) (.register store) es).expanded.Nodup := by
  intro hall
  have htwice := hall firstConfig firstDungeon
    [.transition "exp001.r0", .materializeNext 0 (.attached [⟨"exp002.r0", some 2⟩] false), .done 0,
      .transition "entrance", .transition "exp001.r0",
      .materializeNext 1 (.attached [⟨"exp003.r0", some 2⟩] false)]
  have hexpanded : ["fe_3414b74d6c008281", "fe_3414b74d6c008281"].Nodup := htwice
  simp at hexpanded

end Sidequest.Dungeon
