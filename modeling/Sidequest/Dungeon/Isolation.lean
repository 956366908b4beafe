import Sidequest.Dungeon.Server
import Sidequest.Dungeon.Leftover

namespace Sidequest.Dungeon

open Lib Effect
open World (RegionNotice GameSnapshot)

/-!
# Saves that leave each other alone

Whatever other saves a process serves, a save should be as if it were alone. But every observer is
told of every transition, and region ids are the same in all saves.

* `observer_eq_self_iff`, `schedule_eq_self_iff` — when an observer has nothing to do;
* `alone_run_of_apart` — over every run: the saves are as if alone while all observers of other
  saves have nothing to do.
-/

/-! ### Observers with nothing to do -/

section Untold

variable {reached : Finset Int} {beats : Beats} {skip : List Int}

/-- Of a transition the quest observer has nothing to tell: the quests of all reached expansions are
    in the log, and no beat of a quest fires. -/
def Untold (notice : RegionNotice) (q : Questing) : Prop :=
  ∀ t ∈ q.ledger.openThreads,
    (∀ key, t.reachedKey? (reachedExpansions notice.fromRegion notice.toRegion) = some key →
      key ∈ q.snapshot.questLog.keys) ∧
    firedQuest? (transitionBeats notice.toRegion q.snapshot) [] t = none

/-- A quest that is in the log is not projected again. -/
theorem projectThread_eq_self {acc : GameSnapshot × Nat} {t : ComplicationThread}
    (h : ∀ key, t.reachedKey? reached = some key → key ∈ acc.1.questLog.keys) :
    projectThread reached acc t = acc := by
  unfold ComplicationThread.reachedKey? at h
  unfold projectThread
  cases hquest : t.expansionQuest? with
  | none => rfl
  | some quest =>
    rw [hquest] at h
    dsimp only
    by_cases hin : (quest.expansionId : Int) ∈ reached
    · obtain ⟨entry, hentry⟩ := Dict.mem_keys_iff_get?.mp
        (h (questKey quest.expansionId) (by simp [hin]))
      rw [if_neg (not_not.mpr hin), hentry]
    · rw [if_pos hin]

/-- So where all are in the log, nothing is projected. -/
theorem foldl_projectThread_eq_self (threads : List ComplicationThread) (acc : GameSnapshot × Nat)
    (h : ∀ t ∈ threads, ∀ key, t.reachedKey? reached = some key → key ∈ acc.1.questLog.keys) :
    threads.foldl (projectThread reached) acc = acc := by
  induction threads with
  | nil => rfl
  | cons t threads ih =>
    rw [List.foldl_cons, projectThread_eq_self (h t (.head _))]
    exact ih (fun u hu => h u (.tail t hu))

/-- Where no beat fires, nothing is resolved. -/
theorem foldl_resolve_eq_self (threads : List ComplicationThread) (acc : Questing × Nat)
    (h : ∀ t ∈ threads, firedQuest? beats skip t = none) :
    threads.foldl (resolveQuestThread beats skip) acc = acc := by
  induction threads with
  | nil => rfl
  | cons t threads ih =>
    rw [List.foldl_cons, resolveQuestThread, h t (.head _)]
    exact ih (fun u hu => h u (.tail t hu))

theorem newlyMinted_self (s : GameSnapshot) : newlyMinted s.questLog.keys s = [] := by
  unfold newlyMinted
  rw [List.filterMap_eq_nil_iff]
  intro key hkey
  obtain ⟨hmem, hnew⟩ := List.mem_filter.mp hkey
  exact absurd hmem (of_decide_eq_true hnew)

/-- **The quest observer has nothing to do** exactly if it has nothing to tell. -/
theorem observer_eq_self_iff (notice : RegionNotice) (q : Questing) :
    expansionQuestObserver notice.fromRegion notice.toRegion q = q ↔ Untold notice q := by
  have hproject : (∀ t ∈ q.ledger.openThreads, ∀ key,
      t.reachedKey? (reachedExpansions notice.fromRegion notice.toRegion) = some key →
        key ∈ q.snapshot.questLog.keys) →
      (reconcileDungeonQuestsIntoLog q.ledger
        (reachedExpansions notice.fromRegion notice.toRegion) q.snapshot).1 = q.snapshot := by
    intro h
    unfold reconcileDungeonQuestsIntoLog
    rw [foldl_projectThread_eq_self _ _ h]
  constructor
  · intro hsame
    have hkeys : ∀ t ∈ q.ledger.openThreads, ∀ key,
        t.reachedKey? (reachedExpansions notice.fromRegion notice.toRegion) = some key →
          key ∈ q.snapshot.questLog.keys := by
      intro t ht key hkey
      -- the observer adds the key, and nothing takes it out
      have hset : (expansionQuestObserver notice.fromRegion notice.toRegion q).snapshot.questLog.keySet
          = q.snapshot.questLog.keySet ∪
            reachedKeys q.ledger (reachedExpansions notice.fromRegion notice.toRegion) := by
        unfold expansionQuestObserver
        rw [keySet_resolveExpansionQuests, keySet_reconcile]
      rw [hsame] at hset
      rw [← Dict.mem_keySet, hset]
      exact Finset.mem_union_right _
        (List.mem_toFinset.mpr (List.mem_filterMap.mpr ⟨t, ht, hkey⟩))
    intro t ht
    refine ⟨hkeys t ht, ?_⟩
    have hopen : t ∈ (expansionQuestObserver notice.fromRegion notice.toRegion q).ledger.openThreads
        := by
      rw [hsame]
      exact ht
    unfold expansionQuestObserver at hopen
    rw [hproject hkeys] at hopen
    dsimp only at hopen
    rw [newlyMinted_self] at hopen
    exact (mem_openThreads_resolveExpansionQuests.mp hopen).2
  · intro h
    unfold expansionQuestObserver
    rw [hproject (fun t ht => (h t ht).1)]
    dsimp only
    rw [newlyMinted_self]
    unfold resolveExpansionQuests
    rw [foldl_resolve_eq_self _ _ (fun t ht => (h t ht).2)]

end Untold

/-- **The look-ahead has nothing to do** exactly if all edges that are approached are in flight. -/
theorem schedule_eq_self_iff (edges : List FrontierEdge) (slug : String) (w : WorkerState) :
    w.schedule edges slug = w ↔ ∀ edge ∈ edges, edge.frontierEdgeId ∈ w.inFlight.keys := by
  unfold WorkerState.schedule
  dsimp only
  have hfresh : (edges.filter (·.frontierEdgeId ∉ w.inFlight.keys)).isEmpty = true ↔
      ∀ edge ∈ edges, edge.frontierEdgeId ∈ w.inFlight.keys := by
    simp
  rw [← hfresh]
  split
  · rename_i hempty
    exact iff_of_true rfl hempty
  · rename_i hsome
    refine iff_of_false (fun hsame => ?_) hsome
    have hnext : w.nextTask + 1 = w.nextTask := congrArg WorkerState.nextTask hsame
    omega

/-! ### Observers of other saves -/

/-- An observer has nothing to do with a transition on the snapshot of a save. -/
def Quiet (slug : String) (notice : RegionNotice) (p : Server) : Observer → Prop
  | .lookahead handle => ∀ save ∈ p.saves.get? handle.gameSlug,
    ∀ w ∈ p.workers.get? handle.gameSlug, ∀ edge ∈ w.targets save.tables notice.toRegion,
      edge.frontierEdgeId ∈ w.inFlight.keys
  | .quest handle => ∀ save ∈ p.saves.get? slug, ∀ store ∈ p.saves.get? handle.gameSlug,
    Untold notice ⟨save.snapshot.toGameSnapshot, store.tables.ledger⟩

/-- A lookahead of a save does nothing exactly if all its targets are in flight. -/
theorem callLookahead_eq_self_iff {owner slug : String} {notice : RegionNotice} {p : Server} :
    callLookahead owner slug notice p = p ↔ ∀ save ∈ p.saves.get? owner,
      ∀ w ∈ p.workers.get? owner, ∀ edge ∈ w.targets save.tables notice.toRegion,
        edge.frontierEdgeId ∈ w.inFlight.keys := by
  unfold callLookahead
  cases hsave : p.saves.get? owner with
  | none => simp
  | some save =>
    have hworkers : p.modifyWorker owner (fun w =>
        w.schedule (w.targets save.tables notice.toRegion) slug) = p ↔
          p.workers.modify owner (fun w =>
            w.schedule (w.targets save.tables notice.toRegion) slug) = p.workers := by
      constructor
      · exact congrArg Server.workers
      · intro h
        unfold Server.modifyWorker
        rw [h]
    rw [hworkers, Dict.modify_eq_self_iff]
    simp only [schedule_eq_self_iff, Option.mem_def, Option.some.injEq, forall_eq']

/-- An observer of another save does nothing exactly if it has nothing to tell. -/
theorem callExpansionQuest_eq_self_iff {owner slug : String} (hne : owner ≠ slug)
    {notice : RegionNotice} {p : Server} :
    callExpansionQuest owner slug notice p = p ↔ ∀ save ∈ p.saves.get? slug,
      ∀ store ∈ p.saves.get? owner,
        Untold notice ⟨save.snapshot.toGameSnapshot, store.tables.ledger⟩ := by
  unfold callExpansionQuest
  cases hsave : p.saves.get? slug with
  | none => simp
  | some save =>
    cases hstore : p.saves.get? owner with
    | none => simp
    | some store =>
      simp only [Option.mem_def, Option.some.injEq, forall_eq']
      rw [← observer_eq_self_iff]
      have hsaves : ∀ f g, (p.modifySave slug f).modifySave owner g = p ↔
          (p.saves.modify slug f).modify owner g = p.saves := by
        intro f g
        constructor
        · exact congrArg Server.saves
        · intro h
          unfold Server.modifySave
          rw [h]
      rw [hsaves, Dict.modify_modify_eq_self_iff hne, hsave, hstore]
      simp only [Option.some.injEq, forall_eq']
      constructor
      · rintro ⟨hsnapshot, hledger⟩
        have hsnapshot' := congrArg (·.snapshot.toGameSnapshot) hsnapshot
        have hledger' := congrArg (·.tables.ledger) hledger
        exact congrArg₂ Questing.mk hsnapshot' hledger'
      · intro hsame
        rw [hsame]
        exact ⟨rfl, rfl⟩

/-- **Another save's observer** does nothing exactly if it is quiet. -/
theorem callObserver_eq_self_iff {slug : String} {notice : RegionNotice} {p : Server} {o : Observer}
    (hne : o.gameSlug ≠ slug) : callObserver slug notice p o = p ↔ Quiet slug notice p o := by
  cases o with
  | lookahead handle => exact callLookahead_eq_self_iff
  | quest handle => exact callExpansionQuest_eq_self_iff hne

/-! ### What a save sees -/

/-- Two processes look the same to a save: its snapshot, its store and its worker are. -/
structure SameView (slug : String) (p p' : Server) : Prop where
  save : p.saves.get? slug = p'.saves.get? slug
  worker : p.workers.get? slug = p'.workers.get? slug

variable {slug other : String} {notice : RegionNotice} {p p' p'' : Server}

theorem SameView.refl (slug : String) (p : Server) : SameView slug p p := ⟨rfl, rfl⟩

theorem SameView.trans (h : SameView slug p p') (h' : SameView slug p' p'') : SameView slug p p'' :=
  ⟨h.save.trans h'.save, h.worker.trans h'.worker⟩

/-- The tasks of a worker work with the snapshot of a save. -/
def WorkerState.WorksFor (slug : String) (w : WorkerState) : Prop :=
  ∀ n task, w.tasks.get? n = some task → task.snapshotOf = slug

/-- Every task of a worker works with the snapshot of the worker's own save. -/
def OwnTasks (p : Server) : Prop :=
  ∀ slug w, p.workers.get? slug = some w → ∀ n task, w.tasks.get? n = some task →
    task.snapshotOf = slug

/-- What is done for a save, while all tasks are of their own saves: it goes by what the save sees,
    other saves see nothing of it, and nobody is registered. -/
structure OwnWork (slug : String) (f : Server → Server) : Prop where
  own : ∀ {p p'}, OwnTasks p → SameView slug p p' → SameView slug (f p) (f p')
  others : ∀ {p other}, OwnTasks p → other ≠ slug → SameView other (f p) p
  tasks : ∀ {p}, OwnTasks p → OwnTasks (f p)
  seam : ∀ {p}, OwnTasks p → (f p).seam = p.seam

theorem ownWork_id (slug : String) : OwnWork slug id where
  own _ h := h
  others _ _ := SameView.refl _ _
  tasks h := h
  seam _ := rfl

theorem OwnWork.comp {f g : Server → Server} (hg : OwnWork slug g) (hf : OwnWork slug f) :
    OwnWork slug (g ∘ f) where
  own hown h := hg.own (hf.tasks hown) (hf.own hown h)
  others hown hne := (hg.others (hf.tasks hown) hne).trans (hf.others hown hne)
  tasks hown := hg.tasks (hf.tasks hown)
  seam hown := (hg.seam (hf.tasks hown)).trans (hf.seam hown)

/-- Changing a save is its own work. -/
theorem ownWork_modifySave (slug : String) (f : Save → Save) :
    OwnWork slug (Server.modifySave slug f) where
  own {p p'} _ h := by
    refine ⟨?_, h.worker⟩
    show (p.saves.modify slug f).get? slug = (p'.saves.modify slug f).get? slug
    rw [Dict.get?_modify, Dict.get?_modify, h.save]
  others {p other} _ hne := by
    refine ⟨?_, rfl⟩
    show (p.saves.modify slug f).get? other = p.saves.get? other
    rw [Dict.get?_modify, if_neg hne]
  tasks h := h
  seam _ := rfl

/-- Changing its worker is, too, if the worker works on for it. -/
theorem ownWork_modifyWorker {f : WorkerState → WorkerState}
    (hf : ∀ w : WorkerState, w.WorksFor slug → (f w).WorksFor slug) :
    OwnWork slug (Server.modifyWorker slug f) where
  own {p p'} _ h := by
    refine ⟨h.save, ?_⟩
    show (p.workers.modify slug f).get? slug = (p'.workers.modify slug f).get? slug
    rw [Dict.get?_modify, Dict.get?_modify, h.worker]
  others {p other} _ hne := by
    refine ⟨rfl, ?_⟩
    show (p.workers.modify slug f).get? other = p.workers.get? other
    rw [Dict.get?_modify, if_neg hne]
  tasks {p} h := by
    intro s w hw
    have hget : (p.workers.modify slug f).get? s = some w := hw
    rw [Dict.get?_modify] at hget
    by_cases hs : s = slug
    · rw [if_pos hs] at hget
      obtain ⟨v, hv, rfl⟩ := Option.map_eq_some_iff.mp hget
      rw [hs]
      exact hf v (h slug v (hs ▸ hv))
    · rw [if_neg hs] at hget
      exact h s w hget
  seam _ := rfl

/-- What goes by the view of a save, and does work of the save by each view. -/
theorem ownWork_of_view {f : Server → Server} (h : ∀ p, OwnTasks p →
      ∃ g, OwnWork slug g ∧ ∀ p', SameView slug p p' → f p' = g p') : OwnWork slug f where
  own {p p'} hown hview := by
    obtain ⟨g, hg, hf⟩ := h p hown
    rw [hf p (.refl slug p), hf p' hview]
    exact hg.own hown hview
  others {p other} hown hne := by
    obtain ⟨g, hg, hf⟩ := h p hown
    rw [hf p (.refl slug p)]
    exact hg.others hown hne
  tasks {p} hown := by
    obtain ⟨g, hg, hf⟩ := h p hown
    rw [hf p (.refl slug p)]
    exact hg.tasks hown
  seam {p} hown := by
    obtain ⟨g, hg, hf⟩ := h p hown
    rw [hf p (.refl slug p)]
    exact hg.seam hown

/-! ### The observers of a save itself -/

/-- Its lookahead starts tasks of its own. -/
theorem ownWork_callLookahead (slug : String) (notice : RegionNotice) :
    OwnWork slug (callLookahead slug slug notice) := by
  refine ownWork_of_view (fun p _ => ?_)
  cases hsave : p.saves.get? slug with
  | none =>
    refine ⟨id, ownWork_id slug, fun p' h => ?_⟩
    rw [callLookahead, ← h.save, hsave]
    rfl
  | some save =>
    refine ⟨_, ownWork_modifyWorker (f := fun w =>
      w.schedule (w.targets save.tables notice.toRegion) slug) (fun w hw n task htask => ?_),
      fun p' h => by rw [callLookahead, ← h.save, hsave]⟩
    unfold WorkerState.schedule at htask
    dsimp only at htask
    split at htask
    · exact hw n task htask
    · rw [Dict.get?_insert] at htask
      split at htask
      · rw [← Option.some.inj htask]
      · exact hw n task htask

/-- Its quests are resolved in its own store. -/
theorem ownWork_callExpansionQuest (slug : String) (notice : RegionNotice) :
    OwnWork slug (callExpansionQuest slug slug notice) := by
  refine ownWork_of_view (fun p _ => ?_)
  cases hsave : p.saves.get? slug with
  | none =>
    refine ⟨id, ownWork_id slug, fun p' h => ?_⟩
    rw [callExpansionQuest, ← h.save, hsave]
    rfl
  | some save =>
    exact ⟨_, (ownWork_modifySave slug _).comp (ownWork_modifySave slug _), fun p' h => by
      rw [callExpansionQuest, ← h.save, hsave]
      rfl⟩

/-- The observers of a save itself, one after the other. -/
def callOwn (slug : String) (notice : RegionNotice) (p : Server) : Server :=
  callExpansionQuest slug slug notice (callLookahead slug slug notice p)

theorem ownWork_callOwn (slug : String) (notice : RegionNotice) :
    OwnWork slug (callOwn slug notice) :=
  (ownWork_callExpansionQuest slug notice).comp (ownWork_callLookahead slug notice)

/-! ### Background tasks -/

theorem ownWork_done (slug : String) (taskNo : Nat) :
    OwnWork slug (Server.modifyWorker slug (WorkerState.done taskNo)) := by
  refine ownWork_modifyWorker (fun w hw n task htask => ?_)
  unfold WorkerState.done at htask
  split at htask
  · rw [Dict.get?_erase] at htask
    split at htask
    · cases htask
    · exact hw n task htask
  · exact hw n task htask

/-- Its tasks materialize in its own store. -/
theorem ownWork_materializeNextEdge {F : Type} (m : Materializer F) (slug : String)
    (taskNo : Nat) : OwnWork slug (materializeNextEdge m slug taskNo) := by
  refine ownWork_of_view (fun p hown => ?_)
  have hidle : (∀ p', SameView slug p p' → materializeNextEdge m slug taskNo p' = p') →
      ∃ g, OwnWork slug g ∧ ∀ p', SameView slug p p' → materializeNextEdge m slug taskNo p' = g p' :=
    fun h => ⟨id, ownWork_id slug, h⟩
  unfold materializeNextEdge at hidle ⊢
  cases hsave : p.saves.get? slug with
  | none => exact hidle (fun p' h => by rw [← h.save, hsave])
  | some save =>
    cases hworker : p.workers.get? slug with
    | none => exact hidle (fun p' h => by rw [← h.save, ← h.worker, hsave, hworker])
    | some w =>
      cases htask : w.tasks.get? taskNo with
      | none => exact hidle (fun p' h => by simp only [← h.save, ← h.worker, hsave, hworker, htask])
      | some task =>
        obtain ⟨edges, pending, snapshotOf⟩ := task
        obtain rfl : snapshotOf = slug := hown slug w hworker taskNo _ htask
        cases pending with
        | nil => exact hidle (fun p' h => by simp only [← h.save, ← h.worker, hsave, hworker, htask])
        | cons edge rest =>
          refine ⟨_, (ownWork_modifyWorker (fun v hv n task' htask' => ?_)).comp
            ((ownWork_modifySave snapshotOf _).comp (ownWork_modifySave snapshotOf _)),
            fun p' h => by
              simp only [← h.save, ← h.worker, hsave, hworker, htask]
              rfl⟩
          rw [Dict.get?_insert] at htask'
          split at htask'
          · rw [← Option.some.inj htask']
          · exact hv n task' htask'

/-! ### Registration -/

/-- The observers of a save are those of its attachment, in their order. -/
structure Registered (seam : Seam) : Prop where
  own : ∀ slug, seam.observers.filter (fun o => o.gameSlug = slug)
    = match seam.attachedSaves.get? slug with
      | none => []
      | some claim => [.lookahead claim.1, .quest claim.1]
  fresh : ∀ o ∈ seam.observers, o.handle.number < seam.nextHandle

theorem registered_empty : Registered {} := ⟨fun _ => rfl, by simp⟩

/-- The seam with the two observers of a new handle. -/
def Seam.register (slug : String) (seam : Seam) : Seam :=
  let handle : Handle := ⟨seam.nextHandle, slug⟩
  { observers := seam.observers ++ [.lookahead handle, .quest handle]
    attachedSaves := seam.attachedSaves.insert slug (handle, .quest handle)
    nextHandle := seam.nextHandle + 1 }

/-- A save that is new to the seam can be registered. -/
theorem Registered.register {seam : Seam} (h : Registered seam)
    (hnew : slug ∉ seam.attachedSaves.keys) : Registered (seam.register slug) := by
  refine ⟨fun s => ?_, fun o ho => ?_⟩
  · unfold Seam.register
    rw [List.filter_append, h.own, Dict.get?_insert]
    by_cases hs : s = slug
    · rw [if_pos hs, hs, Dict.get?_eq_none_iff.mpr hnew]
      simp [Observer.gameSlug, Observer.handle]
    · rw [if_neg hs]
      have hnone : ([.lookahead ⟨seam.nextHandle, slug⟩, .quest ⟨seam.nextHandle, slug⟩] :
          List Observer).filter (·.gameSlug = s) = [] := by
        simp [Observer.gameSlug, Observer.handle, Ne.symm hs]
      rw [hnone, List.append_nil]
  · show o.handle.number < seam.nextHandle + 1
    rcases List.mem_append.mp ho with hold | hnew
    · have := h.fresh o hold
      omega
    · simp only [List.mem_cons, List.not_mem_nil, or_false] at hnew
      rcases hnew with rfl | rfl <;> exact Nat.lt_succ_self _

/-- **What attaching does**, if the seam is in order. -/
theorem attach_eq {F : Type} (hregistered : Registered p.seam) (m : Materializer F)
    (drawnSeed : Int) {save : Save} (hsave : p.saves.get? slug = some save) :
    p.attach m drawnSeed slug =
      if save.genreSlug ≠ dungeonGenre ∨ save.worldSlug ≠ dungeonWorld ∨
          slug ∈ p.seam.attachedSaves.keys ∨
          (save.attached m drawnSeed (slug ∈ p.seam.attachedSaves.keys)).2.isOk = false then
        p.modifySave slug
          (fun _ => (save.attached m drawnSeed (slug ∈ p.seam.attachedSaves.keys)).1)
      else
        { p.modifySave slug
            (fun _ => (save.attached m drawnSeed (slug ∈ p.seam.attachedSaves.keys)).1) with
          seam := p.seam.register slug
          workers := p.workers.insert slug
            { campaignSeed := save.campaignSeed.getD drawnSeed } } := by
  unfold Server.attach
  rw [hsave]
  dsimp only
  by_cases hworld : save.genreSlug ≠ dungeonGenre ∨ save.worldSlug ≠ dungeonWorld
  · unfold attachDungeonToSession
    rw [if_pos hworld, if_pos (by tauto)]
    rfl
  -- the next handle has not been given to an observer yet
  · have hseam : ∀ o : Observer, o.handle = ⟨p.seam.nextHandle, slug⟩ →
        o ∉ p.seam.observers := by
      intro o ho hmem
      have hlt := hregistered.fresh o hmem
      rw [ho] at hlt
      exact absurd hlt (lt_irrefl _)
    cases hreads : (save.attached m drawnSeed (slug ∈ p.seam.attachedSaves.keys)).2 with
    | error e =>
      have hraised : attachDungeonToSession save.genreSlug save.worldSlug slug (.error e) p.seam
          = .error e := by
        unfold attachDungeonToSession
        rw [if_neg hworld]
        split <;> rfl
      have hfails : (Except.error e : Except String Unit).isOk = false := rfl
      rw [hraised, if_pos (.inr (.inr (.inr hfails)))]
    | ok u =>
      by_cases hattached : slug ∈ p.seam.attachedSaves.keys
      · obtain ⟨claim, hclaim⟩ := Dict.mem_keys_iff_get?.mp hattached
        have hshared : attachDungeonToSession save.genreSlug save.worldSlug slug (.ok u) p.seam
            = .ok (some claim.1, p.seam) := by
          unfold attachDungeonToSession
          rw [if_neg hworld, hclaim]
          rfl
        rw [hshared, if_pos (.inr (.inr (.inl hattached)))]
        dsimp only
        rw [if_pos hattached]
        rfl
      · have hfirst : attachDungeonToSession save.genreSlug save.worldSlug slug (.ok u) p.seam
            = .ok (some ⟨p.seam.nextHandle, slug⟩, p.seam.register slug) := by
          unfold attachDungeonToSession Seam.register registerFrontierObserver
          rw [if_neg hworld, Dict.get?_eq_none_iff.mpr hattached]
          dsimp only
          rw [if_neg (hseam (.lookahead _) rfl), if_neg, List.append_assoc]
          · rfl
          · simp [hseam (.quest ⟨p.seam.nextHandle, slug⟩) rfl]
        rw [hfirst, if_neg (by tauto)]
        dsimp only
        rw [if_neg hattached]

/-! ### Attaching -/

/-- Attaching a save is not seen by another one. -/
theorem sameView_attach {F : Type} (hown : OwnTasks p) (hne : other ≠ slug) (h : Registered p.seam)
    (m : Materializer F) (drawnSeed : Int) : SameView other (p.attach m drawnSeed slug) p := by
  cases hsave : p.saves.get? slug with
  | none =>
    unfold Server.attach
    rw [hsave]
    exact SameView.refl other p
  | some save =>
    rw [attach_eq h m drawnSeed hsave]
    have hsaved := fun f => (ownWork_modifySave slug f).others hown hne
    split
    · exact hsaved _
    · refine ⟨(hsaved _).save, ?_⟩
      show (p.workers.insert slug _).get? other = p.workers.get? other
      rw [Dict.get?_insert, if_neg hne]

/-- Attaching registers a save once. -/
theorem seam_attach {F : Type} (h : Registered p.seam) (m : Materializer F) (drawnSeed : Int)
    (slug : String) : (p.attach m drawnSeed slug).seam = p.seam ∨
      slug ∉ p.seam.attachedSaves.keys ∧
        (p.attach m drawnSeed slug).seam = p.seam.register slug := by
  cases hsave : p.saves.get? slug with
  | none =>
    unfold Server.attach
    rw [hsave]
    exact .inl rfl
  | some save =>
    rw [attach_eq h m drawnSeed hsave]
    split
    · exact .inl rfl
    · rename_i hfirst
      exact .inr ⟨fun hattached => hfirst (.inr (.inr (.inl hattached))), rfl⟩

/-- Attaching a save gives nobody tasks of others. -/
theorem OwnTasks.attach {F : Type} (hown : OwnTasks p) (h : Registered p.seam)
    (m : Materializer F) (drawnSeed : Int) : OwnTasks (p.attach m drawnSeed slug) := by
  cases hsave : p.saves.get? slug with
  | none =>
    unfold Server.attach
    rw [hsave]
    exact hown
  | some save =>
    rw [attach_eq h m drawnSeed hsave]
    split
    · exact hown
    · intro s w hw n task htask
      have hget : (p.workers.insert slug
        { campaignSeed := save.campaignSeed.getD drawnSeed }).get? s = some w := hw
      rw [Dict.get?_insert] at hget
      split at hget
      · -- a new worker has no task
        rw [← Option.some.inj hget] at htask
        cases htask
      · exact hown s w hget n task htask

/-- An attach does the same in processes that look the same to the save. -/
theorem SameView.attach {F : Type} (hview : SameView slug p p') (hown : OwnTasks p) (h : Registered p.seam)
    (h' : Registered p'.seam)
    (hattached : slug ∈ p.seam.attachedSaves.keys ↔ slug ∈ p'.seam.attachedSaves.keys)
    (m : Materializer F) (drawnSeed : Int) :
    SameView slug (p.attach m drawnSeed slug) (p'.attach m drawnSeed slug) ∧
      (slug ∈ (p.attach m drawnSeed slug).seam.attachedSaves.keys ↔
        slug ∈ (p'.attach m drawnSeed slug).seam.attachedSaves.keys) := by
  cases hsave : p.saves.get? slug with
  | none =>
    have hsave' := hview.save.symm.trans hsave
    unfold Server.attach
    rw [hsave, hsave']
    exact ⟨hview, hattached⟩
  | some save =>
    have hsave' := hview.save.symm.trans hsave
    rw [attach_eq h m drawnSeed hsave, attach_eq h' m drawnSeed hsave']
    simp only [← hattached]
    have hsaved := fun f => (ownWork_modifySave slug f).own hown hview
    split
    · exact ⟨hsaved _, hattached⟩
    · refine ⟨⟨(hsaved _).save, ?_⟩, ?_⟩
      · show (p.workers.insert slug _).get? slug = (p'.workers.insert slug _).get? slug
        rw [Dict.get?_insert, Dict.get?_insert, if_pos rfl, if_pos rfl]
      · show slug ∈ (p.seam.attachedSaves.insert slug _).keys ↔
          slug ∈ (p'.seam.attachedSaves.insert slug _).keys
        simp

/-! ### Steps -/

/-- The observers of all saves are registered, and every task is of its own save. -/
structure Orderly (p : Server) : Prop where
  registered : Registered p.seam
  ownTasks : OwnTasks p

section Steps

variable {F : Type} (regionCast : String → String → String → List String)

/-- The observers of other saves leave everything as it is, and all other events leave alone what
    other saves see. -/
def Isolated (p : Server) : ServerEvent F → Prop
  | .transition slug notice =>
    StepsMeet (callObserver slug notice)
      (fun q o => o.gameSlug = slug ∨ callObserver slug notice q o = q)
      (p.enter regionCast slug notice) p.seam.observers
  | e => ∀ other, other ≠ e.slug → SameView other (p.step regionCast e) p

/-- On a transition, the observers of other saves have nothing to do: no edge that is not in flight
    leads on from the region in their frontier, and their quests have nothing to tell. -/
def Apart (p : Server) : ServerEvent F → Prop
  | .transition slug notice =>
    StepsMeet (callObserver slug notice) (fun q o => o.gameSlug = slug ∨ Quiet slug notice q o)
      (p.enter regionCast slug notice) p.seam.observers
  | _ => True

variable {regionCast}

/-- **A step isolates** the saves exactly if they are apart at it. -/
theorem isolated_iff_apart (h : Orderly p) (e : ServerEvent F) :
    Isolated regionCast p e ↔ Apart regionCast p e := by
  have hothers {slug : String} {f : Server → Server} (hf : OwnWork slug f) :
      (∀ other, other ≠ slug → SameView other (f p) p) ↔ True :=
    iff_of_true (fun other hne => hf.others h.ownTasks hne) trivial
  cases e with
  | attach slug m drawnSeed =>
    exact iff_of_true (fun other hne => sameView_attach h.ownTasks hne h.registered m drawnSeed)
      trivial
  | play slug f => exact hothers (ownWork_modifySave slug _)
  | transition slug notice =>
    refine stepsMeet_congr (fun o _ q => ?_) _
    by_cases ho : o.gameSlug = slug
    · exact iff_of_true (.inl ho) (.inl ho)
    · rw [callObserver_eq_self_iff ho]
  | materializeNext slug m taskNo => exact hothers (ownWork_materializeNextEdge m slug taskNo)
  | done slug taskNo => exact hothers (ownWork_done slug taskNo)

/-- On a transition at which the saves are apart only the observers of the save itself do
    anything. -/
theorem notify_eq_callOwn (h : Registered p.seam)
    (hapart : Apart regionCast p (.transition slug notice : ServerEvent F)) :
    notifyRegionTransition regionCast slug notice p =
      if slug ∈ p.seam.attachedSaves.keys then callOwn slug notice (p.enter regionCast slug notice)
      else p.enter regionCast slug notice := by
  have hidle : StepsMeet (callObserver slug notice)
      (fun q o => decide (o.gameSlug = slug) = true ∨ callObserver slug notice q o = q)
      (p.enter regionCast slug notice) p.seam.observers := by
    refine StepsMeet.mono hapart (fun q o hquiet => ?_)
    by_cases ho : o.gameSlug = slug
    · exact .inl (decide_eq_true ho)
    · exact .inr ((callObserver_eq_self_iff ho).mpr (hquiet.resolve_left ho))
  unfold notifyRegionTransition
  rw [run_filter_of_idle hidle]
  have hown := h.own slug
  cases hclaim : p.seam.attachedSaves.get? slug with
  | none =>
    rw [hclaim] at hown
    rw [hown, if_neg (Dict.get?_eq_none_iff.mp hclaim), run_nil]
  | some claim =>
    rw [hclaim] at hown
    have hslug : claim.1.gameSlug = slug := by
      have hmem : Observer.lookahead claim.1 ∈
          p.seam.observers.filter (·.gameSlug = slug) := by
        rw [hown]
        exact .head _
      exact of_decide_eq_true (List.mem_filter.mp hmem).2
    rw [hown, if_pos (Dict.mem_keys_of_get? hclaim), run_cons, run_cons, run_nil]
    show callExpansionQuest claim.1.gameSlug slug notice
      (callLookahead claim.1.gameSlug slug notice _) = _
    rw [hslug]
    rfl

theorem ownWork_enter (slug : String) (notice : RegionNotice) :
    OwnWork slug (Server.enter regionCast slug notice) := ownWork_modifySave slug _

/-- A save's own work keeps the order. -/
theorem Orderly.of_own (h : Orderly p) {f : Server → Server} (hf : OwnWork slug f) :
    Orderly (f p) where
  registered := by
    rw [hf.seam h.ownTasks]
    exact h.registered
  ownTasks := hf.tasks h.ownTasks

/-- **The order is kept** by every event that keeps the casts apart. -/
theorem Orderly.step (h : Orderly p) (e : ServerEvent F) (hapart : Apart regionCast p e) :
    Orderly (p.step regionCast e) := by
  cases e with
  | attach slug m drawnSeed =>
    refine ⟨?_, h.ownTasks.attach h.registered m drawnSeed⟩
    show Registered (p.attach m drawnSeed slug).seam
    rcases seam_attach h.registered m drawnSeed slug with hsame | ⟨hnew, hregister⟩
    · rw [hsame]
      exact h.registered
    · rw [hregister]
      exact h.registered.register hnew
  | play slug f => exact h.of_own (ownWork_modifySave slug _)
  | transition slug notice =>
    show Orderly (notifyRegionTransition regionCast slug notice p)
    rw [notify_eq_callOwn h.registered hapart]
    split
    · exact h.of_own ((ownWork_callOwn slug notice).comp (ownWork_enter slug notice))
    · exact h.of_own (ownWork_enter slug notice)
  | materializeNext slug m taskNo => exact h.of_own (ownWork_materializeNextEdge m slug taskNo)
  | done slug taskNo => exact h.of_own (ownWork_done slug taskNo)

/-! ### As if alone -/

/-- A process next to one that serves only a single save: they look the same to it. -/
structure Alone (slug : String) (p p' : Server) : Prop where
  view : SameView slug p p'
  attached : slug ∈ p.seam.attachedSaves.keys ↔ slug ∈ p'.seam.attachedSaves.keys
  orderly : Orderly p
  orderly' : Orderly p'
  alone : ∀ o ∈ p'.seam.observers, o.gameSlug = slug

/-- The save that is served alone is apart from all others. -/
theorem Alone.apart (h : Alone slug p p') {e : ServerEvent F} (he : e.slug = slug) :
    Apart regionCast p' e := by
  cases e with
  | transition s notice =>
    refine stepsMeet_iff_forall.mpr (fun pre o post heq => .inl ?_)
    have hmem : o ∈ p'.seam.observers := by
      rw [heq]
      exact List.mem_append_right pre (.head _)
    rw [h.alone o hmem]
    exact he.symm
  | attach s m drawnSeed => trivial
  | play s f => trivial
  | materializeNext s m taskNo => trivial
  | done s taskNo => trivial

/-- The observers of the save that is served alone stay the only ones. -/
theorem Alone.alone_attach (h : Alone slug p p') (m : Materializer F) (drawnSeed : Int) :
    ∀ o ∈ (p'.attach m drawnSeed slug).seam.observers, o.gameSlug = slug := by
  intro o ho
  rcases seam_attach h.orderly'.registered m drawnSeed slug with hsame | ⟨_, hregister⟩
  · rw [hsame] at ho
    exact h.alone o ho
  · rw [hregister] at ho
    rcases List.mem_append.mp ho with hold | hnew
    · exact h.alone o hold
    · simp only [List.mem_cons, List.not_mem_nil, or_false] at hnew
      rcases hnew with rfl | rfl <;> rfl

/-- Work of the save itself does the same in both processes. -/
theorem Alone.of_own (h : Alone slug p p') {f : Server → Server} (hf : OwnWork slug f) :
    Alone slug (f p) (f p') where
  view := hf.own h.orderly.ownTasks h.view
  attached := by
    rw [hf.seam h.orderly.ownTasks, hf.seam h.orderly'.ownTasks]
    exact h.attached
  orderly := h.orderly.of_own hf
  orderly' := h.orderly'.of_own hf
  alone := by
    rw [hf.seam h.orderly'.ownTasks]
    exact h.alone

/-- Work of another save changes nothing that the save sees. -/
theorem Alone.of_other (h : Alone slug p p') {f : Server → Server} (hne : slug ≠ other)
    (hf : OwnWork other f) : Alone slug (f p) p' where
  view := (hf.others h.orderly.ownTasks hne).trans h.view
  attached := by
    rw [hf.seam h.orderly.ownTasks]
    exact h.attached
  orderly := h.orderly.of_own hf
  orderly' := h.orderly'
  alone := h.alone

/-- An event of the save does the same in both processes. -/
theorem Alone.step_own (h : Alone slug p p') {e : ServerEvent F} (he : e.slug = slug)
    (hapart : Apart regionCast p e) : Alone slug (p.step regionCast e) (p'.step regionCast e) := by
  have hapart' : Apart regionCast p' e := h.apart he
  cases e with
  | attach s m drawnSeed =>
    obtain rfl : s = slug := he
    obtain ⟨hview, hattached⟩ := h.view.attach h.orderly.ownTasks h.orderly.registered
      h.orderly'.registered h.attached m drawnSeed
    exact ⟨hview, hattached, h.orderly.step _ hapart, h.orderly'.step _ hapart',
      h.alone_attach m drawnSeed⟩
  | play s f =>
    obtain rfl : s = slug := he
    exact h.of_own (ownWork_modifySave s _)
  | transition s notice =>
    obtain rfl : s = slug := he
    show Alone s (notifyRegionTransition regionCast s notice p)
      (notifyRegionTransition regionCast s notice p')
    rw [notify_eq_callOwn h.orderly.registered hapart,
      notify_eq_callOwn h.orderly'.registered hapart']
    simp only [← h.attached]
    split
    · exact h.of_own ((ownWork_callOwn s notice).comp (ownWork_enter s notice))
    · exact h.of_own (ownWork_enter s notice)
  | materializeNext s m taskNo =>
    obtain rfl : s = slug := he
    exact h.of_own (ownWork_materializeNextEdge m s taskNo)
  | done s taskNo =>
    obtain rfl : s = slug := he
    exact h.of_own (ownWork_done s taskNo)

/-- An event of another save changes nothing that the save sees. -/
theorem Alone.step_other (h : Alone slug p p') {e : ServerEvent F} (he : e.slug ≠ slug)
    (hapart : Apart regionCast p e) : Alone slug (p.step regionCast e) p' := by
  have hne : slug ≠ e.slug := Ne.symm he
  cases e with
  | attach s m drawnSeed =>
    refine ⟨(sameView_attach h.orderly.ownTasks hne h.orderly.registered m drawnSeed).trans h.view,
      ?_, h.orderly.step _ hapart, h.orderly', h.alone⟩
    rw [← h.attached]
    show slug ∈ (p.attach m drawnSeed s).seam.attachedSaves.keys ↔ _
    rcases seam_attach h.orderly.registered m drawnSeed s with hsame | ⟨_, hregister⟩
    · rw [hsame]
    · rw [hregister]
      have hother : slug ≠ s := hne
      simp [Seam.register, hother]
  | play s f => exact h.of_other hne (ownWork_modifySave s _)
  | transition s notice =>
    show Alone slug (notifyRegionTransition regionCast s notice p) p'
    rw [notify_eq_callOwn h.orderly.registered hapart]
    split
    · exact h.of_other hne ((ownWork_callOwn s notice).comp (ownWork_enter s notice))
    · exact h.of_other hne (ownWork_enter s notice)
  | materializeNext s m taskNo => exact h.of_other hne (ownWork_materializeNextEdge m s taskNo)
  | done s taskNo => exact h.of_other hne (ownWork_done s taskNo)

variable (saves : Dict String Save)

/-- A process that has just started: it holds saves, and none is attached. -/
def Server.boot : Server := { saves := saves }

theorem orderly_boot : Orderly (Server.boot saves) :=
  ⟨registered_empty, fun _ _ hw => by cases hw⟩

theorem alone_boot (slug : String) (saves : Dict String Save) :
    Alone slug (Server.boot saves) (Server.boot saves) where
  view := SameView.refl slug _
  attached := Iff.rfl
  orderly := orderly_boot saves
  orderly' := orderly_boot saves
  alone o ho := by cases ho

/-- **A save in a run** is as it is in the run of its own events. -/
theorem alone_run (slug : String) {es : List (ServerEvent F)}
    (hes : StepsMeet (Server.step regionCast) (Apart regionCast) (Server.boot saves) es) :
    Alone slug (run (Server.step regionCast) (Server.boot saves) es)
      (run (Server.step regionCast) (Server.boot saves) (es.filter (·.slug = slug))) := by
  refine sim_run_filter ?_ ?_ (alone_boot slug saves) hes
  · intro p p' e h hapart he
    exact h.step_own (of_decide_eq_true he) hapart
  · intro p p' e h hapart he
    exact h.step_other (of_decide_eq_false he) hapart

/-- **Saves leave each other alone** in exactly the runs at whose transitions the observers of other
    saves have nothing to do. -/
theorem alone_run_of_apart (regionCast : String → String → String → List String)
    (saves : Dict String Save) (es : List (ServerEvent F)) :
    (StepsMeet (Server.step regionCast) (Isolated regionCast) (Server.boot saves) es ↔
      StepsMeet (Server.step regionCast) (Apart regionCast) (Server.boot saves) es) ∧
    (StepsMeet (Server.step regionCast) (Apart regionCast) (Server.boot saves) es →
      ∀ pre, pre <+: es → ∀ slug,
        SameView slug (run (Server.step regionCast) (Server.boot saves) pre)
          (run (Server.step regionCast) (Server.boot saves)
            (pre.filter (fun e => e.slug = slug)))) := by
  refine ⟨⟨fun h => ?_, fun h => ?_⟩, fun h pre hpre slug => ?_⟩
  · exact stepsMeet_of_invariant (I := Orderly)
      (fun p e hp hiso => hp.step e ((isolated_iff_apart hp e).mp hiso))
      (fun p e hp hiso => (isolated_iff_apart hp e).mp hiso) (orderly_boot saves) h
  · exact stepsMeet_of_invariant (I := Orderly) (fun p e hp hapart => hp.step e hapart)
      (fun p e hp hapart => (isolated_iff_apart hp e).mpr hapart) (orderly_boot saves) h
  · exact (alone_run saves slug (h.of_prefix hpre)).view

end Steps

/-! ### Two parties in the same dungeon -/

/-- A save with no dungeon yet. -/
def freshSave : Save where
  genreSlug := dungeonGenre
  worldSlug := dungeonWorld
  snapshot := { activeTropes := [] }
  tables := cryptCampaign.tables

/-- Two saves of one world. -/
def strangers : Server := Server.boot ((Dict.empty.insert "elm" freshSave).insert "oak" freshSave)

/-- Both are attached. Then the one party goes down to where the map ends, and the worker of the
    other does what it was told to. -/
def elmDescends : List (ServerEvent Unit) :=
  [.attach "elm" (cryptMaterializer "flood") 1, .attach "oak" (cryptMaterializer "flood") 1,
    .transition "elm" ⟨"Ada", some "exp001.r1", "exp001.r2"⟩,
    .materializeNext "oak" (cryptMaterializer "flood") 0]

/-- The part of a save in that run. -/
def elmDescendsOf (slug : String) : List (ServerEvent Unit) :=
  elmDescends.filter (fun e => e.slug = slug)

/-- No region has an authored cast. -/
def noCast : String → String → String → List String := fun _ _ _ => []

/-- How many tropes run in a save. -/
def Server.tropeCount? (slug : String) (p : Server) : Option Nat :=
  (p.saves.get? slug).map (fun save => save.snapshot.activeTropes.length)

/-- How many threads are open in the store of a save. -/
def Server.openCount? (slug : String) (p : Server) : Option Nat :=
  (p.saves.get? slug).map (fun save => save.tables.ledger.openThreads.length)

/-- The party that stood still has a second expansion in its store, and the tropes of it run in the
    save of the party that moved. -/
theorem not_alone_strangers :
    ¬ SameView "elm" (run (Server.step noCast) strangers elmDescends)
        (run (Server.step noCast) strangers (elmDescendsOf "elm")) ∧
      ¬ SameView "oak" (run (Server.step noCast) strangers elmDescends)
        (run (Server.step noCast) strangers (elmDescendsOf "oak")) := by
  have htropes : (run (Server.step noCast) strangers elmDescends).tropeCount? "elm" = some 6 := by
    decide +kernel
  have htropes' : (run (Server.step noCast) strangers (elmDescendsOf "elm")).tropeCount? "elm"
      = some 3 := by
    decide +kernel
  have hopen : (run (Server.step noCast) strangers elmDescends).openCount? "oak" = some 6 := by
    decide +kernel
  have hopen' : (run (Server.step noCast) strangers (elmDescendsOf "oak")).openCount? "oak"
      = some 3 := by
    decide +kernel
  refine ⟨fun hsame => ?_, fun hsame => ?_⟩
  · unfold Server.tropeCount? at htropes htropes'
    rw [hsame.save, htropes'] at htropes
    simp at htropes
  · unfold Server.openCount? at hopen hopen'
    rw [hsame.save, hopen'] at hopen
    simp at hopen

end Sidequest.Dungeon
