import Sidequest.Dungeon.Leftover

namespace Sidequest.Dungeon

open Lib Effect
open Trope (TropeState)

/-!
# Tropes and their threads

A materialization starts tropes and opens threads for them. Whatever it raises at, it never opens
more threads of an id than it started tropes of, it closes none, and it does nothing else to the
tropes.

* `resolveComplicationsForResolvedTropes` — the worklists of the open threads, and the walk over
  the listed tropes;
* `Walked` — a relation that each of the three keeps;
* `Opens` — tropes were started, and no more threads opened than that;
* `opens_attachSetPiece`, `walked_opens` — what set-pieces, quests and rollbacks do;
* `opens_materialize` — a whole run, also where its transaction is rolled back.
-/

section

/-! ### The walk -/

/-- The thread is of a trope with the id. -/
def ComplicationThread.IsOf (tropeId : String) (t : ComplicationThread) : Prop :=
  t.kind = .trope ∧ t.refId = tropeId

instance (tropeId : String) (t : ComplicationThread) : Decidable (t.IsOf tropeId) :=
  inferInstanceAs (Decidable (_ ∧ _))

/-- The ids of the open threads of a trope, in their order. -/
def ThreadLedger.openOf (l : ThreadLedger) (tropeId : String) : List String :=
  (l.openThreads.filter (fun t => t.IsOf tropeId)).map ComplicationThread.threadId

/-- The open trope threads under the ids of their tropes. -/
abbrev Worklists := Dict String (List String)

variable (w : Worklists)

/-- The worklist of a trope; none is as good as an empty one. -/
def Worklists.of (tropeId : String) : List String := (w.get? tropeId).getD []

/-- `setdefault(ref_id, []).append(thread_id)`, for trope threads. -/
def Worklists.add (t : ComplicationThread) : Worklists :=
  if t.kind ≠ .trope then w else w.insert t.refId (Worklists.of w t.refId ++ [t.threadId])

/-- Resolve the first thread on the worklist of a trope, if there is one. -/
def consumeOne (acc : Worklists × ThreadLedger) (tropeId : String) :
    Except LedgerError (Worklists × ThreadLedger) :=
  match Worklists.of acc.1 tropeId with
  | [] => .ok acc
  | threadId :: rest =>
    match acc.2.resolveThread threadId with
    | .error cause => .error cause
    | .ok ledger => .ok (acc.1.insert tropeId rest, ledger)

/-- Resolve one open thread for each listed trope. -/
def resolveComplicationsForResolvedTropes (resolvedTropeIds : List String) (store : ThreadLedger) :
    Except LedgerError ThreadLedger :=
  if resolvedTropeIds = [] then .ok store
  else (resolvedTropeIds.foldlM consumeOne
    (store.openThreads.foldl Worklists.add .empty, store)).map Prod.snd

/-! ### Worklists -/

variable {l : ThreadLedger} {r : String}

theorem of_insert (k : String) (ids : List String) (r : String) :
    Worklists.of (w.insert k ids) r = if r = k then ids else Worklists.of w r := by
  unfold Worklists.of
  rw [Dict.get?_insert]
  split <;> rfl

theorem of_add (t : ComplicationThread) (r : String) : Worklists.of (Worklists.add w t) r
      = Worklists.of w r ++ if t.IsOf r then [t.threadId] else [] := by
  unfold Worklists.add
  by_cases hkind : t.kind = .trope
  · rw [if_neg (not_not.mpr hkind), of_insert]
    by_cases href : t.refId = r
    · rw [if_pos href.symm, if_pos ⟨hkind, href⟩, href]
    · rw [if_neg (Ne.symm href), if_neg (fun h => href h.2), List.append_nil]
  · rw [if_pos hkind, if_neg (fun h => hkind h.1), List.append_nil]

/-- The worklists hold what they are built from, in its order. -/
theorem of_foldl_add (threads : List ComplicationThread) (w : Worklists) (r : String) :
    Worklists.of (threads.foldl Worklists.add w) r = Worklists.of w r ++
        (threads.filter (·.IsOf r)).map ComplicationThread.threadId := by
  induction threads generalizing w with
  | nil => simp
  | cons t threads ih =>
    rw [List.foldl_cons, ih, of_add, List.append_assoc, List.filter_cons]
    by_cases ht : t.IsOf r
    · rw [if_pos ht, if_pos (decide_eq_true ht)]
      rfl
    · rw [if_neg ht, if_neg (by simpa using ht)]
      rfl

/-- The worklists are what is open. -/
def UpToDate (l : ThreadLedger) : Prop := ∀ r, Worklists.of w r = l.openOf r

/-- The worklists that are built at first are up to date. -/
theorem upToDate_openThreads (l : ThreadLedger) :
    UpToDate (l.openThreads.foldl Worklists.add .empty) l := by
  intro r
  rw [of_foldl_add]
  rfl

/-! ### One thread -/

/-- The open threads of a trope. -/
theorem mem_openOf {id : String} :
    id ∈ l.openOf r ↔ ∃ t ∈ l.openThreads, t.IsOf r ∧ t.threadId = id := by
  simp [ThreadLedger.openOf, and_assoc]

theorem nodup_openOf (l : ThreadLedger) (r : String) : (l.openOf r).Nodup :=
  ThreadLedger.nodup_openThreads.sublist (List.filter_sublist.map _)

/-- A thread that is resolved is open no more. -/
theorem openOf_markResolved (l : ThreadLedger) (id r : String) :
    (l.markResolved id).openOf r = (l.openOf r).filter (· ≠ id) := by
  unfold ThreadLedger.openOf
  rw [ThreadLedger.openThreads_markResolved, List.filter_map, List.filter_filter,
    List.filter_filter]
  simp [Bool.and_comm]

/-- The first thread of a trope is resolved: the rest of the trope's stay open, and those of
    all others. -/
theorem openOf_markResolved_head {id : String} {rest : List String} {k : String}
    (h : l.openOf k = id :: rest) (r : String) :
    (l.markResolved id).openOf r = if r = k then rest else l.openOf r := by
  rw [openOf_markResolved]
  have hid : id ∈ l.openOf k := by
    rw [h]
    exact .head _
  by_cases hr : r = k
  · have hnodup := nodup_openOf l k
    rw [h, List.nodup_cons] at hnodup
    rw [if_pos hr, hr, h, List.filter_cons_of_neg (by simp), List.filter_eq_self]
    intro other hother
    exact decide_eq_true (fun heq => hnodup.1 (heq ▸ hother))
  · rw [if_neg hr, List.filter_eq_self]
    intro other hother
    refine decide_eq_true (fun heq => hr ?_)
    -- one thread would be of two tropes
    obtain ⟨t, ht, htk, htid⟩ := mem_openOf.mp hid
    obtain ⟨u, hu, hur, huid⟩ := mem_openOf.mp hother
    obtain rfl := List.inj_on_of_nodup_map ThreadLedger.nodup_openThreads ht hu
      (htid.trans (heq.symm.trans huid.symm))
    exact hur.2.symm.trans htk.2

/-- **One id** resolves the first open thread of its trope. -/
theorem consumeOne_spec {w : Worklists} (h : UpToDate w l) (k : String) :
    ∃ w' l', consumeOne (w, l) k = .ok (w', l') ∧ UpToDate w' l' ∧
      ∀ r, l'.openOf r = if r = k then (l.openOf k).tail else l.openOf r := by
  have hk := h k
  unfold consumeOne
  cases hids : Worklists.of w k with
  | nil =>
    refine ⟨w, l, rfl, h, fun r => ?_⟩
    rw [← hk, hids, List.tail_nil]
    split
    · rename_i hr
      rw [hr, ← hk, hids]
    · rfl
  | cons id rest =>
    rw [hids] at hk
    have hopen : id ∈ l.openOf k := by
      rw [← hk]
      exact .head _
    obtain ⟨t, ht, -, rfl⟩ := mem_openOf.mp hopen
    dsimp only
    rw [ThreadLedger.resolveThread_of_open ht]
    have hafter := openOf_markResolved_head hk.symm
    refine ⟨_, _, rfl, fun r => ?_, fun r => ?_⟩
    · rw [of_insert, hafter, h r]
    · rw [hafter, ← hk, List.tail_cons]

/-- **A list of ids** resolves as many threads of a trope as it has its id. -/
theorem foldlM_consumeOne_spec (ids : List String) {w : Worklists} (h : UpToDate w l) :
    ∃ w' l', ids.foldlM consumeOne (w, l) = .ok (w', l') ∧
      ∀ r, l'.openOf r = (l.openOf r).drop (ids.count r) := by
  induction ids generalizing w l with
  | nil => exact ⟨w, l, rfl, fun r => rfl⟩
  | cons k ids ih =>
    obtain ⟨w', l', hone, hup, hopen⟩ := consumeOne_spec h k
    obtain ⟨w'', l'', hrest, hdrop⟩ := ih hup
    refine ⟨w'', l'', ?_, fun r => ?_⟩
    · rw [List.foldlM_cons, hone]
      exact hrest
    · rw [hdrop, hopen, List.count_cons]
      by_cases hr : r = k
      · rw [if_pos hr, if_pos (by simp [hr]), hr, ← List.drop_one, List.drop_drop, Nat.add_comm]
      · rw [if_neg hr, if_neg (by simpa using Ne.symm hr), Nat.add_zero]

/-- **Complications are resolved** without a raise: of the open threads of each trope, as many as
    it is listed for, the first ones. -/
theorem resolveComplications_spec (ids : List String) (l : ThreadLedger) :
    ∃ l', resolveComplicationsForResolvedTropes ids l = .ok l' ∧
      ∀ r, l'.openOf r = (l.openOf r).drop (ids.count r) := by
  unfold resolveComplicationsForResolvedTropes
  by_cases hnone : ids = []
  · rw [if_pos hnone, hnone]
    exact ⟨l, rfl, fun r => rfl⟩
  · rw [if_neg hnone]
    obtain ⟨w', l', hfold, hdrop⟩ := foldlM_consumeOne_spec ids (upToDate_openThreads l)
    rw [hfold]
    exact ⟨l', rfl, hdrop⟩

/-! ### Other writes -/

/-- How many threads of a trope are open. -/
def ThreadLedger.openCount (l : ThreadLedger) (tropeId : String) : Nat := (l.openOf tropeId).length

/-- Quests are no tropes: resolving them leaves the threads of tropes open. -/
theorem openOf_resolveExpansionQuests (beats : Beats) (skip : List Int) (q : Questing)
    (r : String) : (resolveExpansionQuests beats skip q).1.ledger.openOf r = q.ledger.openOf r := by
  apply congrArg (List.map ComplicationThread.threadId)
  apply ThreadLedger.filter_openThreads_congr
  intro t ht
  have hkind : t.kind = .trope := (of_decide_eq_true ht).1
  have hnone : firedQuest? beats skip t = none := by
    simp [firedQuest?, ComplicationThread.expansionQuest?, hkind]
  rw [mem_openThreads_resolveExpansionQuests, and_iff_left hnone]

theorem openCount_eq_countP (l : ThreadLedger) (r : String) : l.openCount r
      = l.threads.values.countP (fun t => decide (t.IsOf r) && decide (t.status = .opened)) := by
  have hperm : l.openThreads.Perm (l.threads.values.filter (·.status = .opened)) :=
    List.perm_insertionSort _ _
  unfold ThreadLedger.openCount ThreadLedger.openOf
  rw [List.length_map, ← List.countP_eq_length_filter, hperm.countP_eq, List.countP_filter]

/-- A thread that is opened counts for its own trope. -/
theorem openCount_openThread {t : ComplicationThread} {l l' : ThreadLedger}
    (h : l.openThread t = .ok l') (r : String) :
    l'.openCount r = l.openCount r + if t.IsOf r ∧ t.status = .opened then 1 else 0 := by
  unfold ThreadLedger.openThread at h
  split at h
  · cases h
  · rename_i hnew
    cases h
    rw [openCount_eq_countP, openCount_eq_countP, Dict.values,
      Dict.entries_insert_of_not_mem _ hnew, List.map_append, List.countP_append]
    simp [Dict.values]

end

/-- A relation of the snapshot and the ledger that set-pieces, quests and rollbacks keep. -/
structure Walked (R : Attaching → Attaching → Prop) : Prop where
  piece : ∀ entropy pack p piece budget lit,
    Preserves R (attachSetPiece entropy pack p piece budget lit)
  quest : ∀ t : ComplicationThread, t.kind = .quest → Preserves R (openInLedger t)
  rollback : ∀ s s', R s s' → R s ⟨s'.snapshot, s.ledger⟩

variable {R : Attaching → Attaching → Prop} [IsPreorder Attaching R]

/-- The same of states with more in them. -/
instance invImage_isPreorder {σ : Type} (view : σ → Attaching) : IsPreorder σ (InvImage R view) where
  refl s := refl_of R (view s)
  trans _ _ _ h h' := trans_of R h h'

namespace Materializer

variable {F : Type} (m : Materializer F) (request : MaterializationRequest)

/-! ### What the attach stage preserves -/

/-- What set-pieces and rollbacks keep, an attached set-piece keeps. -/
theorem preserves_attachPiece (h : Walked R) (regionId : String) (piece : SetPiece) :
    Preserves (InvImage R AttachLoop.toAttaching) (attachPiece m request regionId piece) := by
  unfold attachPiece
  refine preserves_get.bind (fun s => Preserves.bind ?_ (fun report => ?_))
  · exact preserves_zoom (preserves_adapt (h.piece _ _ _ _ _ _)) (fun _ _ h => h)
  · exact preserves_modify (fun s => refl_of R s.toAttaching)

theorem preserves_attachRegion (h : Walked R) (graph : RegionGraph) (curation : RegionCuration)
    (node : RegionNode) : Preserves (InvImage R AttachLoop.toAttaching)
      (attachRegion m request graph curation node) :=
  (preserves_ofExcept _).bind
    (fun _ => preserves_forM (fun piece => preserves_attachPiece m request h node.id piece) _)

/-- The thread of a deepest quest is one of a quest. -/
theorem kind_of_deepestQuest {graph : RegionGraph} {expansion : Expansion}
    {curation : RegionCuration} {t : ComplicationThread}
    (h : deepestQuest m request graph expansion curation = .ok (some t)) : t.kind = .quest := by
  unfold deepestQuest at h
  repeat' split at h
  all_goals first
    | cases h; done
    | cases h; rfl

theorem preserves_seedExpansionQuest (h : Walked R) (graph : RegionGraph) (expansion : Expansion)
    (curation : RegionCuration) : Preserves (InvImage R AttachLoop.toAttaching)
      (seedExpansionQuest m request graph expansion curation) := by
  unfold seedExpansionQuest
  cases hquest : deepestQuest m request graph expansion curation with
  | error e => exact fun s => refl_of R s.toAttaching
  | ok thread? =>
    have hopens : Preserves R (thread?.toList.forM openInLedger) := by
      refine preserves_forM_of_mem (fun t ht => h.quest t ?_)
      rw [Option.mem_toList] at ht
      rw [ht] at hquest
      exact kind_of_deepestQuest m request hquest
    have hadapted : Preserves R (ExceptT.adapt MaterializeError.setPiece
        (thread?.toList.forM openInLedger) : Effect MaterializeError Attaching PUnit) :=
      preserves_adapt hopens
    intro s
    exact hadapted s.toAttaching

/-- **The attach stage** is set-pieces, and a quest. -/
theorem preserves_attachAll (h : Walked R) (graph : RegionGraph) (expansion : Expansion)
    (curation : RegionCuration) : Preserves (InvImage R AttachLoop.toAttaching)
      (attachAll m request graph expansion curation) :=
  (preserves_forM (fun node => preserves_attachRegion m request h graph curation node) _).bind
    (fun _ => (preserves_seedExpansionQuest m request h graph expansion curation).bind
      (fun _ => preserves_get.bind (fun _ => preserves_pure _)))

/-! ### The commit stage -/

/-- The ledger is as it was. -/
def SameLedger (t t' : Tables) : Prop := t'.ledger = t.ledger

instance : IsPreorder Tables SameLedger where
  refl _ := rfl
  trans _ _ _ h h' := Eq.trans h' h

theorem ledger_commitRows (expansion : Expansion) (graph : RegionGraph) :
    Preserves SameLedger (commitRows request expansion graph) := fun _ => rfl

theorem ledger_putFrontierRow (fe : FrontierEdge) : Preserves SameLedger (putFrontierRow fe) :=
  preserves_modify (fun _ => rfl)

theorem ledger_recordMutation (regionId kind : String) (payload : List (String × String)) :
    Preserves SameLedger (recordMutation request regionId kind payload) :=
  preserves_modify (fun _ => rfl)

theorem ledger_recordPopulation (curation : RegionCuration) (node : RegionNode) :
    Preserves SameLedger (recordPopulation request curation node) :=
  Preserves.ite (preserves_pure _) (ledger_recordMutation request _ _ _)

theorem ledger_commitEntrance (graph : RegionGraph) :
    Preserves SameLedger (commitEntrance request graph) := by
  unfold commitEntrance
  split
  · exact preserves_throw _
  · exact ledger_commitRows request _ graph

theorem ledger_stageCommit (graph : RegionGraph) (expansion : Expansion) (fills : Dict String F)
    (curation : RegionCuration) (attachReports : List AttachReport) (isFreshSave : Bool) :
    Preserves SameLedger
      (stageCommit m request graph expansion fills curation attachReports isFreshSave) := by
  unfold stageCommit
  refine (preserves_ofExcept _).bind (fun _ => ?_)
  refine (ledger_commitEntrance request graph).onlyIf.bind (fun _ => ?_)
  refine (preserves_ofExcept _).onlyIf.bind (fun _ => ?_)
  refine (ledger_commitRows request expansion graph).bind (fun _ => ?_)
  have hmutations : Preserves SameLedger (attachReports.forM (fun report =>
      recordMutation request report.regionId "setpiece_state"
        (("setpiece_id", report.setpieceId) :: report.rolled.entries))) :=
    preserves_forM (fun _ => ledger_recordMutation request _ _ _) _
  have hpopulation : Preserves SameLedger
      (expansion.newNodes.forM (recordPopulation request curation)) :=
    preserves_forM (ledger_recordPopulation request curation) _
  have hfrontier : ∀ newFrontier : List FrontierEdge,
      Preserves SameLedger (newFrontier.forM putFrontierRow) :=
    fun _ => preserves_forM ledger_putFrontierRow _
  refine hmutations.bind (fun _ => hpopulation.bind (fun _ => (hfrontier _).bind (fun _ => ?_)))
  exact Preserves.ite (preserves_pure _)
    ((preserves_ofExcept _).bind (fun _ => preserves_pure _))

/-! ### A whole run -/

/-- The snapshot and the ledger of a campaign. -/
abbrev complicated (c : Campaign) : Attaching := c.attaching.toAttaching

/-- **The stage that attaches** keeps what its parts keep. -/
theorem preserves_stageAttach (h : Walked R) (expansion : Expansion) (curation : RegionCuration) :
    Preserves (InvImage R complicated) (stageAttach m request expansion curation) := by
  unfold stageAttach
  refine Preserves.bind ?_ (fun _ => preserves_get.bind (fun c => ?_))
  · exact fun c => refl_of R (complicated c)
  · exact preserves_zoom (preserves_attachAll m request h c.graph expansion curation)
      (fun _ _ h => h)

/-- **Attaching and committing** keeps it too, whether it rolls back or not. -/
theorem preserves_attachAndCommit (h : Walked R) (prepared : Prepared F) :
    Preserves (InvImage R complicated) (attachAndCommit m request prepared) := by
  unfold attachAndCommit
  refine (preserves_stageAttach m request h _ _).bind (fun _ => preserves_get.bind (fun c => ?_))
  refine preserves_zoom (ledger_stageCommit m request _ _ _ _ _ _) (fun c t hsame => ?_)
  have hboth : complicated { c with tables := t } = complicated c := by
    show (⟨c.snapshot, t.ledger⟩ : Attaching) = ⟨c.snapshot, c.tables.ledger⟩
    rw [show t.ledger = c.tables.ledger from hsame]
  show R (complicated c) (complicated { c with tables := t })
  rw [hboth]
  exact refl_of R _

omit [IsPreorder Attaching R] in
/-- A transaction that is rolled back keeps what it did to the snapshot. -/
theorem preserves_transaction (h : Walked R) {α : Type} {body : Effect MaterializeError Campaign α}
    (hbody : Preserves (InvImage R complicated) body) :
    Preserves (InvImage R complicated) (transaction body) := by
  intro c
  have hone := hbody c
  rw [exec_transaction]
  rcases hexec : body.exec c with ⟨e | a, c'⟩
  · rw [hexec] at hone
    exact h.rollback _ _ hone
  · rw [hexec] at hone
    exact hone

/-- **A materialization** keeps what set-pieces, quests and rollbacks keep, also where it raises. -/
theorem preserves_materialize (h : Walked R) :
    Preserves (InvImage R complicated) (materialize m request) := by
  unfold materialize
  refine preserves_get.bind (fun c => (preserves_ofExcept _).bind (fun prepared => ?_))
  exact (preserves_transaction h (preserves_attachAndCommit m request h prepared)).bind
    (fun emit => preserves_ofExcept _)

end Materializer

/-! ### Starting and opening -/

/-- The tropes with an id. -/
def tropeCount (l : List TropeState) (tropeId : String) : Nat := l.countP (fun t => t.id = tropeId)

/-- Tropes were started, none of them resolved; threads were opened, not more than that, and none
    was closed. -/
structure Opens (s s' : Attaching) : Prop where
  started : ∃ new, s'.snapshot.activeTropes = s.snapshot.activeTropes ++ new ∧
    (∀ t ∈ new, t.status ≠ .resolved) ∧
      ∀ r, s'.ledger.openCount r ≤ s.ledger.openCount r + tropeCount new r
  kept : ∀ r, s.ledger.openCount r ≤ s'.ledger.openCount r

instance : IsPreorder Attaching Opens where
  refl s := ⟨⟨[], (List.append_nil _).symm, by simp, fun r => le_rfl⟩, fun r => le_rfl⟩
  trans s t u h h' := by
    obtain ⟨new, htropes, hnew, hcount⟩ := h.started
    obtain ⟨new', htropes', hnew', hcount'⟩ := h'.started
    refine ⟨⟨new ++ new', ?_, ?_, ?_⟩, fun r => (h.kept r).trans (h'.kept r)⟩
    · rw [htropes', htropes, List.append_assoc]
    · intro t ht
      rcases List.mem_append.mp ht with ht | ht
      · exact hnew t ht
      · exact hnew' t ht
    · intro r
      have hsum : tropeCount (new ++ new') r = tropeCount new r + tropeCount new' r :=
        List.countP_append
      have := hcount r
      have := hcount' r
      omega

/-- The same of states with more in them. -/
def OpensBy {σ : Type} (view : σ → Attaching) (s s' : σ) : Prop := Opens (view s) (view s')

instance {σ : Type} (view : σ → Attaching) : IsPreorder σ (OpensBy view) where
  refl s := refl_of Opens (view s)
  trans _ _ _ h h' := trans_of Opens h h'

/-! ### Threads -/

/-- Threads are opened, each counting for its trope at most once; nothing is started. -/
structure Adds (threads : List ComplicationThread) (s s' : Attaching) : Prop where
  snapshot : s'.snapshot = s.snapshot
  kept : ∀ r, s.ledger.openCount r ≤ s'.ledger.openCount r
  added : ∀ r, s'.ledger.openCount r
    ≤ s.ledger.openCount r + threads.countP (fun t => decide (t.IsOf r))

/-- A thread is opened, unless its id is taken. -/
theorem adds_openInLedger (thread : ComplicationThread) (s : Attaching) :
    Adds [thread] s ((openInLedger thread).exec s).2 := by
  have hsnapshot : ((openInLedger thread).exec s).2.snapshot = s.snapshot :=
    snapshot_openInLedger thread s
  unfold openInLedger at hsnapshot ⊢
  rw [exec_get_bind] at hsnapshot ⊢
  cases hopen : s.ledger.openThread thread with
  | error cause => exact ⟨rfl, fun r => le_rfl, fun r => Nat.le_add_right _ _⟩
  | ok ledger =>
    have hcount := openCount_openThread hopen
    refine ⟨rfl, fun r => ?_, fun r => ?_⟩
    · show s.ledger.openCount r ≤ ledger.openCount r
      rw [hcount]
      exact Nat.le_add_right _ _
    · show ledger.openCount r ≤ _
      rw [hcount, List.countP_singleton]
      by_cases hof : thread.IsOf r
      · simp only [hof, true_and, decide_true]
        split <;> simp
      · simp [hof]

theorem adds_forM_openInLedger (threads : List ComplicationThread) (s : Attaching) :
    Adds threads s ((threads.forM openInLedger).exec s).2 := by
  induction threads generalizing s with
  | nil => exact ⟨rfl, fun r => le_rfl, fun r => le_rfl⟩
  | cons thread threads ih =>
    have hfirst := adds_openInLedger thread s
    have hcons : ∀ r, (thread :: threads).countP (fun t => decide (t.IsOf r))
        = [thread].countP (fun t => decide (t.IsOf r))
          + threads.countP (fun t => decide (t.IsOf r)) := by
      intro r
      rw [← List.countP_append]
      rfl
    rw [exec_forM_cons, exec_bind]
    rcases hexec : (openInLedger thread).exec s with ⟨e | u, t⟩
    · rw [hexec] at hfirst
      refine ⟨hfirst.snapshot, hfirst.kept, fun r => ?_⟩
      have := hfirst.added r
      rw [hcons]
      dsimp only at this ⊢
      omega
    · rw [hexec] at hfirst
      have hrest := ih t
      refine ⟨hrest.snapshot.trans hfirst.snapshot, fun r => (hfirst.kept r).trans (hrest.kept r),
        fun r => ?_⟩
      have := hfirst.added r
      have := hrest.added r
      rw [hcons]
      dsimp only at *
      omega

/-- Threads of quests open nothing for tropes. -/
theorem opens_of_adds_quests {threads : List ComplicationThread} {s s' : Attaching}
    (h : Adds threads s s') (hquests : ∀ t ∈ threads, t.kind = .quest) : Opens s s' := by
  refine ⟨⟨[], ?_, by simp, fun r => ?_⟩, h.kept⟩
  · rw [h.snapshot, List.append_nil]
  · have hnone : threads.countP (fun t => decide (t.IsOf r)) = 0 := by
      rw [List.countP_eq_zero]
      intro t ht
      simp [ComplicationThread.IsOf, hquests t ht]
    have := h.added r
    rw [hnone] at this
    exact this

/-! ### The attach stage -/

variable {F : Type} (m : Materializer F) (request : MaterializationRequest)

/-- The threads of an attachment are of the tropes it starts. -/
theorem countP_attachThreads (entropy : Entropy) (p : Placement) (piece : SetPiece)
    (budget lit : Int) (r : String) :
    (attachThreads entropy p piece budget lit).countP (fun t => decide (t.IsOf r))
      = (startable entropy p piece.tropeComponents budget lit).countP (·.tropeId = r) := by
  unfold attachThreads tropeThreads questThreads
  have htropes : ∀ started : List TropeComponent,
      started.countP (·.tropeId = r)
        = started.zipIdx.countP (fun c => decide (c.1.tropeId = r)) := by
    intro started
    conv_lhs => rw [← List.zipIdx_map_fst 0 started, List.countP_map]
    rfl
  rw [htropes]
  simp [ComplicationThread.IsOf, Function.comp_def]

/-- **An attachment** starts tropes, and opens no more threads than that. -/
theorem opens_attachSetPiece (entropy : Entropy) (pack : Trope.Pack) (p : Placement)
    (piece : SetPiece) (budget lit : Int) :
    Preserves Opens (attachSetPiece entropy pack p piece budget lit) := by
  intro s
  by_cases hknown : KnownTropes pack piece.tropeComponents budget lit
  · have hadds := adds_forM_openInLedger (attachThreads entropy p piece budget lit)
      ⟨s.snapshot.startTropes (startable entropy p piece.tropeComponents budget lit), s.ledger⟩
    have hstate : ((attachSetPiece entropy pack p piece budget lit).exec s).2
        = (((attachThreads entropy p piece budget lit).forM openInLedger).exec
          ⟨s.snapshot.startTropes (startable entropy p piece.tropeComponents budget lit),
            s.ledger⟩).2 := by
      rw [exec_attachSetPiece_of_known entropy pack hknown, exec_bind]
      rcases ((attachThreads entropy p piece budget lit).forM openInLedger).exec _
        with ⟨e | u, t⟩ <;> rfl
    rw [hstate]
    refine ⟨⟨(startable entropy p piece.tropeComponents budget lit).map
      (fun c => { id := c.tropeId, status := .progressing, progress := 0 }), ?_, ?_, fun r => ?_⟩,
      hadds.kept⟩
    · rw [hadds.snapshot]
      rfl
    · intro t ht
      obtain ⟨c, -, rfl⟩ := List.mem_map.mp ht
      simp
    · have := hadds.added r
      rw [countP_attachThreads] at this
      unfold tropeCount
      rw [List.countP_map]
      exact this
  · obtain ⟨e, hrefused⟩ := exec_startTropeComponents_of_unknown entropy pack (p := p) hknown s
    unfold attachSetPiece
    rw [exec_bind, hrefused]
    exact refl_of Opens s

/-- Set-pieces and quests start tropes and open no more threads than that. A rollback leaves the
    tropes that were started, and no thread of them. -/
theorem walked_opens : Walked Opens where
  piece := opens_attachSetPiece
  quest t ht := by
    intro s
    have hadds : Adds [t] s ((openInLedger t).exec s).2 := adds_openInLedger t s
    refine opens_of_adds_quests hadds (fun t' ht' => ?_)
    rw [List.mem_singleton.mp ht', ht]
  rollback s s' h := by
    obtain ⟨new, htropes, hnew, -⟩ := h.started
    exact ⟨⟨new, htropes, hnew, fun r => Nat.le_add_right _ _⟩, fun r => le_rfl⟩

namespace Materializer

/-- **A materialization** starts tropes, opens no more threads than that, and closes none, also
    where it raises. -/
theorem opens_materialize : Preserves (OpensBy complicated) (materialize m request) :=
  preserves_materialize m request walked_opens

end Materializer

end Sidequest.Dungeon
