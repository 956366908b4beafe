import Mathlib.Data.Int.Interval
import Mathlib.Data.List.Sort
import Mathlib.Data.String.Basic
import Sidequest.Lib.Run
import Sidequest.World.Patch
import Sidequest.World.Watched

namespace Sidequest.Dungeon

open Lib World Effect

/-!
# The quests of expansions

Every expansion seeds one quest as a thread of the ledger. A party that reaches the expansion gets
the quest into its log, and the quest is completed by its signature beat.

* `ThreadLedger` — the rows, with the writes `openThread` and `resolveThread`;
* `reconcileDungeonQuestsIntoLog` — open quests of reached expansions are projected into the log;
* `get?_observer_of_some`, `active_observer_of_none` — what a call of the observer does to it;
* `capped_iff_fits` — the log stays within the cap over exactly those runs in which every
  projection finds room for the quests it brings; a refused mint changes nothing in any run.
-/

section Quests

section Threads

/-- What a thread is of. -/
inductive ThreadKind where
  | trope
  | quest
deriving DecidableEq

inductive ThreadStatus where
  | opened
  | resolved
deriving DecidableEq

/-- What completes the quest of an expansion. -/
inductive SignatureKind where
  | bigBad
  | setPiece
  | reachDeep
deriving DecidableEq

/-- The payload of a thread of the scope `expansion`. -/
structure ExpansionPayload where
  expansionId : Nat
  signatureKind : SignatureKind
  (anchorRegion title objective : String)
deriving DecidableEq

/-- A thread that was started. `refId` names its trope, quest or signature element; `expansion` is
    there for the quest of an expansion, and for no component of a set-piece. -/
structure ComplicationThread where
  (threadId originRegionId : String)
  kind : ThreadKind
  status : ThreadStatus := .opened
  refId : String
  expansion : Option ExpansionPayload := none
deriving DecidableEq

/-- Why a write of the ledger raises. -/
inductive LedgerError where
  | alreadyOpen (threadId : String)
  | notFound (threadId : String)
deriving DecidableEq

/-- The rows of the ledger under their ids. -/
structure ThreadLedger where
  threads : Dict String ComplicationThread
  keyed : ∀ entry ∈ threads.entries, entry.2.threadId = entry.1

namespace ThreadLedger

/-- A ledger without threads. -/
def empty : ThreadLedger := ⟨.empty, by simp⟩

/-- Rows are keyed if lookup finds each under its own id. -/
theorem keyed_of_get? {d : Dict String ComplicationThread}
    (h : ∀ id t, d.get? id = some t → t.threadId = id) :
    ∀ entry ∈ d.entries, entry.2.threadId = entry.1 := by
  intro entry hentry
  exact h entry.1 entry.2 (Dict.get?_eq_some_iff.mpr hentry)

theorem threadId_of_get? (l : ThreadLedger) {id : String} {t : ComplicationThread}
    (h : l.threads.get? id = some t) : t.threadId = id :=
  l.keyed (id, t) (Dict.get?_eq_some_iff.mp h)

/-- Insert a new thread. -/
def openThread (thread : ComplicationThread) (l : ThreadLedger) : Except LedgerError ThreadLedger :=
  if thread.threadId ∈ l.threads.keys then .error (.alreadyOpen thread.threadId)
  else .ok {
    threads := l.threads.insert thread.threadId thread
    keyed := keyed_of_get? (by
      intro id t h
      rw [Dict.get?_insert] at h
      by_cases hid : id = thread.threadId
      · rw [if_pos hid] at h
        rw [← Option.some.inj h, hid]
      · rw [if_neg hid] at h
        exact l.threadId_of_get? h) }

theorem keys_openThread {thread : ComplicationThread} {l l' : ThreadLedger}
    (h : l.openThread thread = .ok l') : l'.threads.keys = l.threads.keys ++ [thread.threadId] := by
  unfold openThread at h
  split at h
  · simp at h
  · rename_i hnew
    cases h
    rw [Dict.keys_insert, if_neg hnew]

/-- The open threads in the order of their ids. -/
def openThreads (l : ThreadLedger) : List ComplicationThread :=
  (l.threads.values.filter (fun t => t.status = .opened)).insertionSort
    (fun a b => a.threadId ≤ b.threadId)

/-- Mark a thread resolved. -/
def markResolved (threadId : String) (l : ThreadLedger) : ThreadLedger where
  threads := l.threads.modify threadId (fun t => { t with status := .resolved })
  keyed := keyed_of_get? (by
    intro id t h
    rw [Dict.get?_modify] at h
    by_cases hid : id = threadId
    · rw [if_pos hid] at h
      obtain ⟨row, hrow, rfl⟩ := Option.map_eq_some_iff.mp h
      exact (l.threadId_of_get? hrow).trans hid.symm
    · rw [if_neg hid] at h
      exact l.threadId_of_get? h)

/-- Resolve a thread; an unknown id raises. -/
def resolveThread (threadId : String) (l : ThreadLedger) : Except LedgerError ThreadLedger :=
  if threadId ∈ l.threads.keys then .ok (l.markResolved threadId) else .error (.notFound threadId)

variable {l : ThreadLedger} {t : ComplicationThread} {id : String}

theorem mem_openThreads :
    t ∈ l.openThreads ↔ l.threads.get? t.threadId = some t ∧ t.status = .opened := by
  rw [openThreads, List.mem_insertionSort, List.mem_filter, decide_eq_true_eq]
  refine and_congr_left (fun _ => ?_)
  rw [Dict.values, List.mem_map]
  constructor
  · rintro ⟨entry, hentry, rfl⟩
    rw [Dict.get?_eq_some_iff, l.keyed entry hentry]
    exact hentry
  · intro h
    exact ⟨(t.threadId, t), Dict.get?_eq_some_iff.mp h, rfl⟩

theorem nodup_openThreads : (l.openThreads.map ComplicationThread.threadId).Nodup := by
  have hperm : l.openThreads.Perm (l.threads.values.filter (·.status = .opened)) :=
    List.perm_insertionSort _ _
  rw [(hperm.map _).nodup_iff]
  have hkeys : l.threads.values.map ComplicationThread.threadId = l.threads.keys := by
    rw [Dict.values, Dict.keys, List.map_map]
    exact List.map_congr_left l.keyed
  have hall : (l.threads.values.map ComplicationThread.threadId).Nodup := by
    rw [hkeys]
    exact l.threads.nodup
  exact hall.sublist (List.filter_sublist.map _)

/-- Resolving a thread closes it and leaves the others as they are. -/
theorem mem_openThreads_markResolved :
    t ∈ (l.markResolved id).openThreads ↔ t ∈ l.openThreads ∧ t.threadId ≠ id := by
  rw [mem_openThreads, mem_openThreads]
  simp only [markResolved, Dict.get?_modify]
  by_cases hid : t.threadId = id
  · rw [if_pos hid]
    refine iff_of_false ?_ (·.2 hid)
    rintro ⟨hrow, hopen⟩
    obtain ⟨row, -, hmark⟩ := Option.map_eq_some_iff.mp hrow
    rw [← hmark] at hopen
    simp at hopen
  · simp [hid]

/-- The open threads stand in the order of their ids. -/
theorem pairwise_openThreads (l : ThreadLedger) :
    l.openThreads.Pairwise (fun a b => a.threadId ≤ b.threadId) := by
  have : Std.Total (fun a b : ComplicationThread => a.threadId ≤ b.threadId) :=
    ⟨fun a b => le_total a.threadId b.threadId⟩
  have : IsTrans ComplicationThread (fun a b => a.threadId ≤ b.threadId) := ⟨fun _ _ _ => le_trans⟩
  exact List.pairwise_insertionSort _ _

theorem filter_openThreads_congr {l l' : ThreadLedger} {p : ComplicationThread → Bool}
    (h : ∀ t, p t = true → (t ∈ l.openThreads ↔ t ∈ l'.openThreads)) :
    l.openThreads.filter p = l'.openThreads.filter p := by
  have hmem : ∀ t, t ∈ l.openThreads.filter p ↔ t ∈ l'.openThreads.filter p := by
    intro t
    rw [List.mem_filter, List.mem_filter]
    exact and_congr_left (h t)
  have hperm : (l.openThreads.filter p).Perm (l'.openThreads.filter p) :=
    (List.perm_ext_iff_of_nodup (nodup_openThreads.of_map.filter p)
      (nodup_openThreads.of_map.filter p)).mpr hmem
  refine List.Perm.eq_of_pairwise ?_ ((pairwise_openThreads l).filter p)
    ((pairwise_openThreads l').filter p) hperm
  intro a b ha hb hab hba
  have hb' := (List.mem_filter.mp ((hmem b).mpr hb)).1
  exact List.inj_on_of_nodup_map nodup_openThreads (List.mem_filter.mp ha).1 hb'
    (le_antisymm hab hba)

theorem openThreads_markResolved (l : ThreadLedger) (id : String) :
    (l.markResolved id).openThreads = l.openThreads.filter (·.threadId ≠ id) := by
  have hsame : (l.markResolved id).openThreads.filter (·.threadId ≠ id)
      = l.openThreads.filter (·.threadId ≠ id) := by
    apply filter_openThreads_congr
    intro t ht
    rw [mem_openThreads_markResolved, and_iff_left (of_decide_eq_true ht)]
  rw [← hsame, List.filter_eq_self.mpr]
  intro t ht
  exact decide_eq_true (mem_openThreads_markResolved.mp ht).2

theorem resolveThread_of_open (h : t ∈ l.openThreads) :
    l.resolveThread t.threadId = .ok (l.markResolved t.threadId) :=
  if_pos (Dict.mem_keys_of_get? (mem_openThreads.mp h).1)

end ThreadLedger

end Threads

/-! ### Names -/

variable (acc : GameSnapshot × Nat) (fromRegion : Option String) (toRegion : String) (c : Char)

def isOpening : Bool := c = '(' || c = '[' || c = '{'

def isClosing : Bool := c = ')' || c = ']' || c = '}'

/-- Replace each bracketed segment by a blank; a bracket that nothing closes stays. -/
def dropBracketed : (fuel : Nat) → List Char → List Char
  | 0, l => l
  | _ + 1, [] => []
  | fuel + 1, c :: cs =>
    if isOpening c && cs.any isClosing then
      ' ' :: dropBracketed fuel ((cs.dropWhile (fun d => !isClosing d)).drop 1)
    else c :: dropBracketed fuel cs

/-- Drop the blanks before a comma or semicolon. -/
def closeUp (l : List Char) : List Char :=
  l.foldr (fun c rest =>
    if isSpace c && (rest.head? = some ',' || rest.head? = some ';') then rest else c :: rest) []

def isDangling : Bool := c = ' ' || c = ',' || c = ';' || c = '-'

/-- Strip bracketed junk from a display name. -/
def sanitizeDisplayName (name : String) : String :=
  let cleaned := dropBracketed name.toList.length name.toList
  let cleaned := cleaned.map (fun c => if isOpening c || isClosing c then ' ' else c)
  let words := ((closeUp cleaned).splitOnP isSpace).filter (· ≠ [])
  String.ofList (((List.intercalate [' '] words).dropWhile isDangling).rdropWhile isDangling)

/-- The names of the creatures that are down. -/
def collectDefeatedNpcNames (snapshot : GameSnapshot) : List String :=
  (snapshot.npcs.filter (fun npc => npc.core.hp.current = 0)).map
    (fun npc => sanitizeDisplayName npc.core.name)

/-! ### Projection -/

/-- The key of an expansion's quest in the log. -/
def questKey (expansionId : Nat) : String := "dungeon:exp" ++ toString expansionId

namespace ComplicationThread

/-- The quest of an expansion, if the thread is one. -/
def expansionQuest? (t : ComplicationThread) : Option ExpansionPayload :=
  if t.kind = .quest then t.expansion else none

/-- The log's key for the thread, if it is the quest of a reached expansion. -/
def reachedKey? (reached : Finset Int) (t : ComplicationThread) : Option String :=
  t.expansionQuest?.bind fun quest =>
    if (quest.expansionId : Int) ∈ reached then some (questKey quest.expansionId) else none

end ComplicationThread

/-- The entry of a quest that is projected. -/
def ExpansionPayload.toEntry (quest : ExpansionPayload) : QuestEntry :=
  { title := quest.title, objective := quest.objective, status := "active",
    anchorId := some quest.anchorRegion }

/-- Project one thread: a quest that is in the log already stays as it is. -/
def projectThread (reached : Finset Int) (acc : GameSnapshot × Nat) (t : ComplicationThread) :
    GameSnapshot × Nat :=
  match t.expansionQuest? with
  | none => acc
  | some quest =>
    if (quest.expansionId : Int) ∉ reached then acc
    else
      match acc.1.questLog.get? (questKey quest.expansionId) with
      | some _ => acc
      | none =>
        ({ acc.1 with
            questLog := acc.1.questLog.insert (questKey quest.expansionId) quest.toEntry
            questAnchors :=
              if quest.anchorRegion = "" ∨ quest.anchorRegion ∈ acc.1.questAnchors then
                acc.1.questAnchors
              else acc.1.questAnchors ++ [quest.anchorRegion] }, acc.2 + 1)

/-- Project the open quests of the reached expansions into the log, and count the new entries. -/
def reconcileDungeonQuestsIntoLog (store : ThreadLedger) (reachedExpansionIds : Finset Int)
    (snapshot : GameSnapshot) : GameSnapshot × Nat :=
  store.openThreads.foldl (projectThread reachedExpansionIds) (snapshot, 0)

/-! ### Resolution -/

/-- What has happened that a signature beat may be: regions entered, tropes resolved, creatures
    down. -/
structure Beats where
  (reachedRegionIds resolvedTropeIds defeatedNpcNames : List String)

/-- The event that completes a quest, if its beat fired. -/
def beatFired (beats : Beats) (refId : String) (quest : ExpansionPayload) : Option String :=
  match quest.signatureKind with
  | .reachDeep => if quest.anchorRegion ∈ beats.reachedRegionIds then some "reach_deep" else none
  | .setPiece => if refId ∈ beats.resolvedTropeIds then some "set_piece" else none
  | .bigBad => if refId ∈ beats.defeatedNpcNames then some "hp_depletion" else none

/-- The thread is an expansion's quest whose beat fired, and the expansion is not skipped. -/
def firedQuest? (beats : Beats) (skip : List Int) (t : ComplicationThread) :
    Option ExpansionPayload :=
  t.expansionQuest?.filter fun quest =>
    (quest.expansionId : Int) ∉ skip ∧ (beatFired beats t.refId quest).isSome

/-- The snapshot with the ledger of its dungeon. -/
structure Questing where
  snapshot : GameSnapshot
  ledger : ThreadLedger

/-- Complete a quest's entry, if it has one. -/
def completeEntry (expansionId : Nat) (snapshot : GameSnapshot) : GameSnapshot :=
  { snapshot with
    questLog := snapshot.questLog.modify (questKey expansionId)
      (fun entry => { entry with status := "completed" }) }

/-- Resolve one thread, if its beat fired. It was read from the ledger as open, so that it is
    there: resolving it does not raise. -/
def resolveQuestThread (beats : Beats) (skip : List Int) (acc : Questing × Nat)
    (t : ComplicationThread) : Questing × Nat :=
  match firedQuest? beats skip t with
  | none => acc
  | some quest =>
    (⟨completeEntry quest.expansionId acc.1.snapshot, acc.1.ledger.markResolved t.threadId⟩,
      acc.2 + 1)

/-- Resolve every open quest whose beat fired, save those of skipped expansions, and count them. -/
def resolveExpansionQuests (beats : Beats) (skipExpansionIds : List Int) (q : Questing) :
    Questing × Nat :=
  q.ledger.openThreads.foldl (resolveQuestThread beats skipExpansionIds) (q, 0)

/-! ### What projection does to the log -/

variable {reached : Finset Int} {store : ThreadLedger} {s : GameSnapshot} {t : ComplicationThread}
  {k : String} {beats : Beats} {skip : List Int} {q : Questing}

theorem keySet_projectThread : (projectThread reached acc t).1.questLog.keySet
      = acc.1.questLog.keySet ∪ (t.reachedKey? reached).toFinset := by
  unfold projectThread ComplicationThread.reachedKey?
  cases t.expansionQuest? with
  | none => simp
  | some quest =>
    dsimp only [Option.bind_some]
    by_cases hin : (quest.expansionId : Int) ∈ reached
    · rw [if_neg (not_not.mpr hin), if_pos hin]
      cases hget : acc.1.questLog.get? (questKey quest.expansionId) with
      | some entry =>
        -- the key is there already
        have hmem := Dict.mem_keys_of_get? hget
        ext j
        simp only [Finset.mem_union, Dict.mem_keySet, Option.toFinset_some, Finset.mem_singleton]
        refine ⟨.inl, ?_⟩
        rintro (hj | rfl)
        · exact hj
        · exact hmem
      | none =>
        rw [Dict.keySet_insert, Option.toFinset_some, Finset.union_comm]
        rfl
    · rw [if_pos hin, if_neg hin]
      simp

variable (threads : List ComplicationThread)

theorem keySet_foldl_projectThread : (threads.foldl (projectThread reached) acc).1.questLog.keySet
      = acc.1.questLog.keySet ∪ (threads.filterMap (·.reachedKey? reached)).toFinset := by
  induction threads generalizing acc with
  | nil => simp
  | cons t threads ih =>
    rw [List.foldl_cons, ih, keySet_projectThread, Finset.union_assoc]
    cases h : t.reachedKey? reached with
    | none => rw [List.filterMap_cons_none h, Option.toFinset_none, Finset.empty_union]
    | some key =>
      rw [List.filterMap_cons_some h, List.toFinset_cons, Option.toFinset_some, Finset.insert_eq]

/-- The keys of the reached quests that are open. -/
def reachedKeys (store : ThreadLedger) (reached : Finset Int) : Finset String :=
  (store.openThreads.filterMap (fun t => t.reachedKey? reached)).toFinset

theorem keySet_reconcile : (reconcileDungeonQuestsIntoLog store reached s).1.questLog.keySet
      = s.questLog.keySet ∪ reachedKeys store reached :=
  keySet_foldl_projectThread _ _

variable {entry : QuestEntry}

theorem get?_projectThread (h : (projectThread reached acc t).1.questLog.get? k = some entry) :
    acc.1.questLog.get? k = some entry ∨
      acc.1.questLog.get? k = none ∧ entry.status = "active" := by
  unfold projectThread at h
  cases hq : t.expansionQuest? with
  | none =>
    rw [hq] at h
    exact .inl h
  | some quest =>
    rw [hq] at h
    dsimp only at h
    split at h
    · exact .inl h
    · split at h
      · exact .inl h
      · rename_i hget
        rw [Dict.get?_insert] at h
        by_cases hk : k = questKey quest.expansionId
        · rw [if_pos hk] at h
          rw [← Option.some.inj h, hk]
          exact .inr ⟨hget, rfl⟩
        · rw [if_neg hk] at h
          exact .inl h

theorem get?_foldl_projectThread
    (h : (threads.foldl (projectThread reached) acc).1.questLog.get? k = some entry) :
    acc.1.questLog.get? k = some entry ∨
      acc.1.questLog.get? k = none ∧ entry.status = "active" := by
  induction threads generalizing acc with
  | nil => exact .inl h
  | cons t threads ih =>
    rcases ih _ h with hstay | ⟨hnone, hactive⟩
    · exact get?_projectThread acc hstay
    · refine .inr ⟨?_, hactive⟩
      rw [Dict.get?_eq_none_iff, ← Dict.mem_keySet, keySet_projectThread] at hnone
      rw [Dict.get?_eq_none_iff, ← Dict.mem_keySet]
      exact fun hmem => hnone (Finset.mem_union_left _ hmem)

/-- What is in the log after projection was there before, or is new and active. -/
theorem get?_reconcile
    (h : (reconcileDungeonQuestsIntoLog store reached s).1.questLog.get? k = some entry) :
    s.questLog.get? k = some entry ∨ s.questLog.get? k = none ∧ entry.status = "active" :=
  get?_foldl_projectThread _ _ h

/-- Projection writes quests and their anchors only. -/
theorem projectThread_eq : (projectThread reached acc t).1 = { acc.1 with
      questLog := (projectThread reached acc t).1.questLog
      questAnchors := (projectThread reached acc t).1.questAnchors } := by
  unfold projectThread
  cases t.expansionQuest? with
  | none => rfl
  | some quest =>
    dsimp only
    split
    · rfl
    · split
      · rfl
      · rfl

theorem foldl_projectThread_eq : (threads.foldl (projectThread reached) acc).1 = { acc.1 with
      questLog := (threads.foldl (projectThread reached) acc).1.questLog
      questAnchors := (threads.foldl (projectThread reached) acc).1.questAnchors } := by
  induction threads generalizing acc with
  | nil => rfl
  | cons t threads ih =>
    rw [List.foldl_cons, ih, projectThread_eq]

theorem reconcile_eq : (reconcileDungeonQuestsIntoLog store reached s).1 = { s with
    questLog := (reconcileDungeonQuestsIntoLog store reached s).1.questLog
    questAnchors := (reconcileDungeonQuestsIntoLog store reached s).1.questAnchors } :=
  foldl_projectThread_eq _ _

/-! ### What resolution does to the log and the ledger -/

/-- Some open quest under the key has its beat fired. -/
def FiredUnder (beats : Beats) (skip : List Int) (threads : List ComplicationThread)
    (key : String) : Prop :=
  ∃ t ∈ threads, ∃ quest, firedQuest? beats skip t = some quest ∧ questKey quest.expansionId = key

/-- A completed entry. -/
def QuestEntry.complete (entry : QuestEntry) : QuestEntry := { entry with status := "completed" }

open Classical in
theorem get?_foldl_resolve (acc : Questing × Nat) :
    (threads.foldl (resolveQuestThread beats skip) acc).1.snapshot.questLog.get? k
      = if FiredUnder beats skip threads k then
          (acc.1.snapshot.questLog.get? k).map QuestEntry.complete
        else acc.1.snapshot.questLog.get? k := by
  induction threads generalizing acc with
  | nil => simp [FiredUnder]
  | cons t threads ih =>
    rw [List.foldl_cons, ih]
    cases hfired : firedQuest? beats skip t with
    | none =>
      have hiff : FiredUnder beats skip (t :: threads) k ↔ FiredUnder beats skip threads k := by
        simp [FiredUnder, hfired]
      rw [resolveQuestThread, hfired]
      simp only [hiff]
    | some quest =>
      have hiff : FiredUnder beats skip (t :: threads) k ↔
          questKey quest.expansionId = k ∨ FiredUnder beats skip threads k := by
        simp [FiredUnder, hfired]
      rw [resolveQuestThread, hfired]
      simp only [hiff, completeEntry, Dict.get?_modify]
      by_cases hk : k = questKey quest.expansionId
      · subst hk
        -- completing an entry twice completes it
        cases acc.1.snapshot.questLog.get? (questKey quest.expansionId) <;>
          simp [QuestEntry.complete]
      · simp [hk, Ne.symm hk]

open Classical in
theorem get?_resolveExpansionQuests :
    (resolveExpansionQuests beats skip q).1.snapshot.questLog.get? k
      = if FiredUnder beats skip q.ledger.openThreads k then
          (q.snapshot.questLog.get? k).map QuestEntry.complete else q.snapshot.questLog.get? k :=
  get?_foldl_resolve _ _

/-- Resolution writes the log only. -/
theorem snapshot_foldl_resolve (acc : Questing × Nat) :
    (threads.foldl (resolveQuestThread beats skip) acc).1.snapshot = { acc.1.snapshot with
      questLog := (threads.foldl (resolveQuestThread beats skip) acc).1.snapshot.questLog } := by
  induction threads generalizing acc with
  | nil => rfl
  | cons t threads ih =>
    have hone : (resolveQuestThread beats skip acc t).1.snapshot = { acc.1.snapshot with
        questLog := (resolveQuestThread beats skip acc t).1.snapshot.questLog } := by
      unfold resolveQuestThread
      split <;> rfl
    rw [List.foldl_cons, ih, hone]

theorem keySet_foldl_resolve (acc : Questing × Nat) :
    (threads.foldl (resolveQuestThread beats skip) acc).1.snapshot.questLog.keySet
      = acc.1.snapshot.questLog.keySet := by
  induction threads generalizing acc with
  | nil => rfl
  | cons t threads ih =>
    rw [List.foldl_cons, ih, resolveQuestThread]
    cases firedQuest? beats skip t with
    | none => rfl
    | some quest => exact Dict.keySet_modify _ _ _

/-- Resolution adds nothing to the log. -/
theorem keySet_resolveExpansionQuests :
    (resolveExpansionQuests beats skip q).1.snapshot.questLog.keySet = q.snapshot.questLog.keySet :=
  keySet_foldl_resolve _ _

theorem mem_openThreads_foldl_resolve (acc : Questing × Nat) :
    t ∈ (threads.foldl (resolveQuestThread beats skip) acc).1.ledger.openThreads ↔
      t ∈ acc.1.ledger.openThreads ∧
        ∀ t' ∈ threads, t'.threadId = t.threadId → firedQuest? beats skip t' = none := by
  induction threads generalizing acc with
  | nil => simp
  | cons u threads ih =>
    rw [List.foldl_cons, ih, resolveQuestThread]
    cases hfired : firedQuest? beats skip u with
    | none =>
      simp [hfired]
    | some quest =>
      rw [ThreadLedger.mem_openThreads_markResolved]
      simp only [List.forall_mem_cons, hfired, reduceCtorEq, imp_false]
      exact ⟨fun h => ⟨h.1.1, fun heq => h.1.2 heq.symm, h.2⟩,
        fun h => ⟨⟨h.1, fun heq => h.2.1 heq.symm⟩, h.2.2⟩⟩

theorem mem_openThreads_resolveExpansionQuests :
    t ∈ (resolveExpansionQuests beats skip q).1.ledger.openThreads ↔
      t ∈ q.ledger.openThreads ∧ firedQuest? beats skip t = none := by
  rw [resolveExpansionQuests, mem_openThreads_foldl_resolve]
  refine and_congr_right (fun ht => ⟨fun h => h t ht rfl, fun h t' ht' hid => ?_⟩)
  -- two open threads of one id are one thread
  have heq : t' = t := List.inj_on_of_nodup_map ThreadLedger.nodup_openThreads ht' ht hid
  rw [heq]
  exact h

/-! ### The observer -/

/-- The expansion a region id names. -/
def expansionIdOf (regionId : String) : Option Int :=
  match regionId.toList with
  | 'e' :: 'x' :: 'p' :: rest => pyInt? (rest.takeWhile (· ≠ '.'))
  | _ => none

/-- The expansions a transition passes: from the one it leaves to the one it enters. -/
def reachedExpansions : Finset Int :=
  match expansionIdOf toRegion, fromRegion.bind expansionIdOf with
  | none, _ => ∅
  | some toExp, none => {toExp}
  | some toExp, some fromExp =>
    -- numbers are ordered by several instances, not all of which compute
    @Finset.Icc Int Int.instLinearOrder.toPreorder _ (min fromExp toExp) (max fromExp toExp)

/-- The expansion a key of the log is about. -/
def keyExpansion? (key : String) : Option Int :=
  if "dungeon:exp".toList <+: key.toList then pyInt? (key.toList.drop "dungeon:exp".length)
  else none

/-- The expansions whose quests have come into the log since it had the keys `before`. -/
def newlyMinted (before : List String) (snapshot : GameSnapshot) : List Int :=
  (snapshot.questLog.keys.filter (· ∉ before)).filterMap keyExpansion?

/-- What a transition can complete: quests of reaching the region, and of creatures that are
    down. -/
def transitionBeats (snapshot : GameSnapshot) : Beats where
  reachedRegionIds := [toRegion]
  resolvedTropeIds := []
  defeatedNpcNames := collectDefeatedNpcNames snapshot

/-- The quest observer: what the transition reaches is projected, and what it completes is
    resolved, save the quests that have just been projected. -/
def expansionQuestObserver (q : Questing) : Questing :=
  let projected :=
    (reconcileDungeonQuestsIntoLog q.ledger (reachedExpansions fromRegion toRegion) q.snapshot).1
  (resolveExpansionQuests (transitionBeats toRegion projected)
    (newlyMinted q.snapshot.questLog.keys projected) ⟨projected, q.ledger⟩).1

/-! ### What a call of the observer does -/

theorem questKey_inj {m n : Nat} : questKey m = questKey n ↔ m = n := by
  unfold questKey
  rw [String.append_right_inj, toString_inj]

theorem keyExpansion?_questKey (e : Nat) : keyExpansion? (questKey e) = some (e : Int) := by
  have hchars : (questKey e).toList = "dungeon:exp".toList ++ (toString e).toList :=
    String.toList_append
  unfold keyExpansion?
  rw [hchars, if_pos (List.prefix_append _ _)]
  have hdrop : ("dungeon:exp".toList ++ (toString e).toList).drop "dungeon:exp".length
      = (toString e).toList := List.drop_left' rfl
  rw [hdrop, pyInt?_toString]
  rfl

theorem mem_newlyMinted_iff {e : Nat} :
    (e : Int) ∈ newlyMinted s.questLog.keys (reconcileDungeonQuestsIntoLog store reached s).1 ↔
      questKey e ∉ s.questLog.keys ∧
        questKey e ∈ (reconcileDungeonQuestsIntoLog store reached s).1.questLog.keys := by
  unfold newlyMinted
  rw [List.mem_filterMap]
  constructor
  · rintro ⟨key, hkey, hparse⟩
    obtain ⟨hmem, hnew⟩ := List.mem_filter.mp hkey
    have hnew := of_decide_eq_true hnew
    -- a new key is the key of a reached quest, whose expansion it names
    have hset := Dict.mem_keySet.mpr hmem
    rw [keySet_reconcile, Finset.mem_union] at hset
    rcases hset with hold | hreached
    · exact absurd (Dict.mem_keySet.mp hold) hnew
    · obtain ⟨t, -, ht⟩ := List.mem_filterMap.mp (List.mem_toFinset.mp hreached)
      obtain ⟨quest, -, hquest⟩ := Option.bind_eq_some_iff.mp ht
      split_ifs at hquest
      cases hquest
      rw [keyExpansion?_questKey, Option.some.injEq, Int.natCast_inj] at hparse
      rw [hparse] at hmem hnew
      exact ⟨hnew, hmem⟩
  · rintro ⟨hnew, hmem⟩
    exact ⟨questKey e, List.mem_filter.mpr ⟨hmem, decide_eq_true hnew⟩, keyExpansion?_questKey e⟩

/-- An entry that was there stays through projection. -/
theorem get?_reconcile_of_some {k : String} (h : s.questLog.get? k = some entry) :
    (reconcileDungeonQuestsIntoLog store reached s).1.questLog.get? k = some entry := by
  have hmem : k ∈ (reconcileDungeonQuestsIntoLog store reached s).1.questLog.keys := by
    rw [← Dict.mem_keySet, keySet_reconcile]
    exact Finset.mem_union_left _ (Dict.mem_keySet.mpr (Dict.mem_keys_of_get? h))
  obtain ⟨entry', hentry'⟩ := Dict.mem_keys_iff_get?.mp hmem
  rcases get?_reconcile hentry' with hold | ⟨hnone, -⟩
  · rw [hentry', ← hold, h]
  · rw [h] at hnone
    cases hnone

/-- The creatures that are down are those of before. -/
theorem transitionBeats_reconcile :
    transitionBeats toRegion (reconcileDungeonQuestsIntoLog store reached s).1
      = transitionBeats toRegion s := by
  rw [reconcile_eq]
  rfl

/-- A thread has the quest of an expansion whose beat fires as the region is entered. -/
def FiresOn (s : GameSnapshot) (e : Nat) (t : ComplicationThread) : Prop :=
  ∃ quest, t.expansionQuest? = some quest ∧ quest.expansionId = e ∧
    (beatFired (transitionBeats toRegion s) t.refId quest).isSome

theorem firedUnder_iff {toRegion : String} {skip : List Int} {threads : List ComplicationThread}
    {e : Nat} : FiredUnder (transitionBeats toRegion s) skip threads (questKey e) ↔
      (e : Int) ∉ skip ∧ ∃ t ∈ threads, FiresOn toRegion s e t := by
  unfold FiredUnder firedQuest? FiresOn
  constructor
  · rintro ⟨t, ht, quest, hfired, hkey⟩
    obtain ⟨hquest, hcond⟩ := Option.filter_eq_some_iff.mp hfired
    obtain ⟨hskip, hbeat⟩ := of_decide_eq_true hcond
    have he := questKey_inj.mp hkey
    rw [he] at hskip
    exact ⟨hskip, t, ht, quest, hquest, he, hbeat⟩
  · rintro ⟨hskip, t, ht, quest, hquest, rfl, hbeat⟩
    exact ⟨t, ht, quest, Option.filter_eq_some_iff.mpr ⟨hquest, decide_eq_true ⟨hskip, hbeat⟩⟩, rfl⟩

theorem get?_observer_of_some {q : Questing} {e : Nat}
    (h : q.snapshot.questLog.get? (questKey e) = some entry) :
    ∃ entry', (expansionQuestObserver fromRegion toRegion q).snapshot.questLog.get? (questKey e)
        = some entry' ∧ (entry'.status = "completed" ↔ entry.status = "completed" ∨
          ∃ t ∈ q.ledger.openThreads, FiresOn toRegion q.snapshot e t) := by
  have hold : (e : Int) ∉ newlyMinted q.snapshot.questLog.keys (reconcileDungeonQuestsIntoLog
      q.ledger (reachedExpansions fromRegion toRegion) q.snapshot).1 :=
    fun hmem => (mem_newlyMinted_iff.mp hmem).1 (Dict.mem_keys_of_get? h)
  unfold expansionQuestObserver
  rw [get?_resolveExpansionQuests, transitionBeats_reconcile]
  rw [get?_reconcile_of_some h, Option.map_some]
  by_cases hfires : ∃ t ∈ q.ledger.openThreads, FiresOn toRegion q.snapshot e t
  · rw [if_pos (firedUnder_iff.mpr ⟨hold, hfires⟩)]
    exact ⟨QuestEntry.complete entry, rfl, iff_of_true rfl (.inr hfires)⟩
  · rw [if_neg (fun hfired => hfires (firedUnder_iff.mp hfired).2)]
    exact ⟨entry, rfl, (or_iff_left hfires).symm⟩

theorem active_observer_of_none {q : Questing} {e : Nat}
    (h : q.snapshot.questLog.get? (questKey e) = none)
    (hentry : (expansionQuestObserver fromRegion toRegion q).snapshot.questLog.get? (questKey e)
      = some entry) : entry.status = "active" := by
  unfold expansionQuestObserver at hentry
  rw [get?_resolveExpansionQuests, transitionBeats_reconcile] at hentry
  set projected := (reconcileDungeonQuestsIntoLog q.ledger
    (reachedExpansions fromRegion toRegion) q.snapshot).1 with hprojected
  have hspared : ¬ FiredUnder (transitionBeats toRegion q.snapshot)
      (newlyMinted q.snapshot.questLog.keys projected) q.ledger.openThreads (questKey e) ∨
      projected.questLog.get? (questKey e) = none := by
    by_cases hmem : questKey e ∈ projected.questLog.keys
    · left
      rw [firedUnder_iff]
      exact fun hfired => hfired.1 (mem_newlyMinted_iff.mpr ⟨Dict.get?_eq_none_iff.mp h, hmem⟩)
    · exact .inr (Dict.get?_eq_none_iff.mpr hmem)
  rcases hspared with hspared | hnone
  · rw [if_neg hspared] at hentry
    rcases get?_reconcile hentry with hsome | ⟨-, hactive⟩
    · rw [h] at hsome
      cases hsome
    · exact hactive
  · rw [hnone] at hentry
    split at hentry <;> cases hentry

/-- A call of the observer writes quests and their anchors only. -/
theorem snapshot_expansionQuestObserver (q : Questing) :
    (expansionQuestObserver fromRegion toRegion q).snapshot = { q.snapshot with
      questLog := (expansionQuestObserver fromRegion toRegion q).snapshot.questLog
      questAnchors := (expansionQuestObserver fromRegion toRegion q).snapshot.questAnchors } := by
  unfold expansionQuestObserver resolveExpansionQuests
  rw [snapshot_foldl_resolve]
  rw [reconcile_eq]

/-! ### Projecting what is reached bit by bit -/

/-- The entry that a thread has for a key. -/
def ComplicationThread.entryFor (key : String) (t : ComplicationThread) : Option QuestEntry :=
  (t.expansionQuest?.filter (questKey ·.expansionId = key)).map ExpansionPayload.toEntry

/-- The key is that of a reached expansion. -/
def KeyReached (reached : Finset Int) (key : String) : Prop :=
  ∃ e : Nat, questKey e = key ∧ (e : Int) ∈ reached

open Classical in
theorem get?_projectThread_eq : (projectThread reached acc t).1.questLog.get? k
      = (acc.1.questLog.get? k).or (if KeyReached reached k then t.entryFor k else none) := by
  unfold projectThread ComplicationThread.entryFor
  cases t.expansionQuest? with
  | none => simp
  | some quest =>
    dsimp only
    by_cases hk : questKey quest.expansionId = k
    · subst hk
      have hreached : KeyReached reached (questKey quest.expansionId) ↔
          (quest.expansionId : Int) ∈ reached := by
        refine ⟨?_, fun hin => ⟨_, rfl, hin⟩⟩
        rintro ⟨e, he, hin⟩
        exact questKey_inj.mp he ▸ hin
      by_cases hin : (quest.expansionId : Int) ∈ reached
      · cases hget : acc.1.questLog.get? (questKey quest.expansionId) <;> simp [hreached, hin, hget]
      · simp [hreached, hin]
    · have hkeep : (if KeyReached reached k then
          ((some quest).filter (questKey ·.expansionId = k)).map ExpansionPayload.toEntry
          else none) = none := by simp [hk]
      rw [hkeep, Option.or_none]
      split
      · rfl
      · split
        · rfl
        · rw [Dict.get?_insert, if_neg (Ne.symm hk)]

open Classical in
theorem get?_foldl_projectThread_eq : (threads.foldl (projectThread reached) acc).1.questLog.get? k
      = (acc.1.questLog.get? k).or
        (if KeyReached reached k then threads.findSome? (·.entryFor k) else none) := by
  induction threads generalizing acc with
  | nil => simp
  | cons t threads ih =>
    rw [List.foldl_cons, ih, get?_projectThread_eq, Option.or_assoc, List.findSome?_cons]
    congr 1
    split
    · cases t.entryFor k <;> rfl
    · rfl

/-- **In whatever steps the expansions are reached**, projecting what a first set and then a second
    one reach gives each key the entry it has when all are reached at once; and projecting what has
    been projected changes nothing. -/
theorem reconcile_union (store : ThreadLedger) (r₁ r₂ : Finset Int) (s : GameSnapshot) :
    (∀ k, (reconcileDungeonQuestsIntoLog store r₂
        (reconcileDungeonQuestsIntoLog store r₁ s).1).1.questLog.get? k
      = (reconcileDungeonQuestsIntoLog store (r₁ ∪ r₂) s).1.questLog.get? k) ∧
    reconcileDungeonQuestsIntoLog store r₁ (reconcileDungeonQuestsIntoLog store r₁ s).1
      = ((reconcileDungeonQuestsIntoLog store r₁ s).1, 0) := by
  classical
  constructor
  · intro k
    have hunion : KeyReached (r₁ ∪ r₂) k ↔ KeyReached r₁ k ∨ KeyReached r₂ k := by
      simp only [KeyReached, Finset.mem_union, and_or_left, exists_or]
    simp only [reconcileDungeonQuestsIntoLog, get?_foldl_projectThread_eq, Option.or_assoc, hunion]
    congr 1
    by_cases h₁ : KeyReached r₁ k <;> by_cases h₂ : KeyReached r₂ k <;> simp [h₁, h₂]
  · have hkeys := @keySet_reconcile r₁ store s
    generalize (reconcileDungeonQuestsIntoLog store r₁ s).1 = after at hkeys ⊢
    refine List.foldlRecOn (motive := (· = (after, 0))) _ _ rfl (fun acc hacc t ht => ?_)
    subst hacc
    unfold projectThread
    split
    · rfl
    · rename_i quest hquest
      split
      · rfl
      · rename_i hin
        have hmem : questKey quest.expansionId ∈ after.questLog.keySet := by
          rw [hkeys]
          refine Finset.mem_union_right _ (List.mem_toFinset.mpr (List.mem_filterMap.mpr ⟨t, ht, ?_⟩))
          simp [ComplicationThread.reachedKey?, hquest, not_not.mp hin]
        obtain ⟨entry, hentry⟩ := Dict.mem_keys_iff_get?.mp (Dict.mem_keySet.mp hmem)
        simp [hentry]

end Quests

/-- A call that writes the quest log, or the offers it is written from. -/
inductive QuestWriter where
  | stash (questId : String) (seed : QuestSeed)
  | accept (questId : String)
  | cross (fromRegion : Option String) (toRegion : String)
  | project (store : ThreadLedger) (reachedExpansionIds : Finset Int)
  | resolve (store : ThreadLedger) (beats : Beats) (skipExpansionIds : List Int)

/-- The session after a call, whether it returns or raises. -/
def writeQuest (s : Session) : QuestWriter → Session
  | .stash questId seed =>
    { s with pendingQuestOffers := s.pendingQuestOffers.insert questId seed }
  | .accept questId => ((mintQuestOffer questId).exec s).2
  | .cross fromRegion toRegion => ((mintOnAnchorCrossing fromRegion toRegion).exec s).2
  | .project store reached =>
    { s with toGameSnapshot := (reconcileDungeonQuestsIntoLog store reached s.toGameSnapshot).1 }
  | .resolve store beats skip =>
    { s with toGameSnapshot :=
        (resolveExpansionQuests beats skip ⟨s.toGameSnapshot, store⟩).1.snapshot }

/-- The log is no larger than its cap. -/
def Capped (s : Session) : Prop := s.questLog.keys.length ≤ questLogCardinalityCap

/-- A refused mint leaves log, anchors, stakes and its own offer as they were; of the offers of a
    crossing those before it are minted. -/
def RefusalUnchanged (s : Session) : QuestWriter → Prop
  | .accept questId => ∀ e s', (mintQuestOffer questId).exec s = (.error e, s') → s' = s
  | .cross fromRegion toRegion =>
    ∀ e s', (mintOnAnchorCrossing fromRegion toRegion).exec s = (.error e, s') →
      ∃ minted refused left,
        anchoredOffers s.pendingQuestOffers toRegion = minted ++ refused :: left ∧
        (minted.forM mintOffer).exec s = (.ok ⟨⟩, s') ∧
        (mintQuestOffer refused).exec s' = (.error e, s') ∧
        s'.pendingQuestOffers.get? refused = s.pendingQuestOffers.get? refused
  | _ => True

/-- A projection finds room in the log for the quests it brings. -/
def Fits (s : Session) : QuestWriter → Prop
  | .project store reached =>
    (s.questLog.keySet ∪ reachedKeys store reached).card ≤ questLogCardinalityCap
  | _ => True

instance decidableFits (s : Session) : (w : QuestWriter) → Decidable (Fits s w)
  | .stash _ _ => .isTrue trivial
  | .accept _ => .isTrue trivial
  | .cross _ _ => .isTrue trivial
  | .project _ _ => inferInstanceAs (Decidable (_ ≤ _))
  | .resolve _ _ _ => .isTrue trivial

/-! ### Minting -/

variable {s s' : Session} {questId : String}

theorem capped_iff_card : Capped s ↔ s.questLog.keySet.card ≤ questLogCardinalityCap := by
  rw [Capped, Dict.keySet, List.toFinset_card_of_nodup s.questLog.nodup_keys]

/-- A mint never takes the log over the cap. -/
theorem capped_mintQuestOffer (questId : String) (hs : Capped s) :
    Capped ((mintQuestOffer questId).exec s).2 := by
  rcases mintQuestOffer_cases questId s with ⟨-, hx⟩ | ⟨-, hx⟩ | ⟨-, hx⟩ | ⟨seed, hlt, hnot, hx⟩
  · rw [hx]
    exact hs
  · rw [hx]
    exact hs
  · rw [hx]
    exact hs
  · rw [hx]
    show (s.questLog.insert questId seed.toEntry).keys.length ≤ questLogCardinalityCap
    rw [Dict.keys_insert, if_neg hnot, List.length_append, List.length_singleton]
    omega

/-- A round of mints keeps within the cap whatever it comes to. -/
theorem capped_foldlM_mintRound (questIds : List String) (minted : List QuestEntry)
    (hs : Capped s) : Capped ((questIds.foldlM mintRound minted).exec s).2 := by
  induction questIds generalizing minted s with
  | nil => exact hs
  | cons questId questIds ih =>
    rw [List.foldlM_cons, exec_bind, exec_mintRound]
    have hmint := capped_mintQuestOffer questId hs
    rcases hx : (mintQuestOffer questId).exec s with ⟨e | entry, t⟩
    · rw [hx] at hmint
      exact hmint
    · rw [hx] at hmint
      exact ih _ hmint

/-! ### The cap over runs -/

theorem refusalUnchanged (s : Session) (w : QuestWriter) : RefusalUnchanged s w := by
  cases w with
  | accept questId => exact fun e s' h => eq_of_mintQuestOffer_error h
  | cross fromRegion toRegion => exact fun e s' h => mintOnAnchorCrossing_refused h
  | stash questId seed => trivial
  | project store reached => trivial
  | resolve store beats skip => trivial

/-- A projection leaves the log within the cap exactly if its quests fit. -/
theorem capped_project_iff (store : ThreadLedger) (reached : Finset Int) :
    Capped (writeQuest s (.project store reached)) ↔ Fits s (.project store reached) := by
  rw [capped_iff_card]
  show (reconcileDungeonQuestsIntoLog store reached s.toGameSnapshot).1.questLog.keySet.card ≤ _
    ↔ _
  rw [keySet_reconcile]
  exact Iff.rfl

/-- The step lemma: every writer keeps to the cap, a projection if its quests fit. -/
theorem capped_writeQuest (s : Session) (w : QuestWriter) (hs : Capped s) (hfits : Fits s w) :
    Capped (writeQuest s w) := by
  cases w with
  | stash questId seed => exact hs
  | accept questId => exact capped_mintQuestOffer questId hs
  | cross fromRegion toRegion =>
    show Capped ((mintOnAnchorCrossing fromRegion toRegion).exec s).2
    rw [exec_mintOnAnchorCrossing]
    split
    · exact hs
    · exact capped_foldlM_mintRound _ _ hs
  | project store reached => exact capped_project_iff store reached |>.mpr hfits
  | resolve store beats skip =>
    rw [capped_iff_card] at hs ⊢
    show
      (resolveExpansionQuests beats skip ⟨s.toGameSnapshot, store⟩).1.snapshot.questLog.keySet.card
        ≤ _
    rw [keySet_resolveExpansionQuests]
    exact hs

/-- **The cap of the quest log.** A run keeps a log within the cap, and refused mints change
    nothing, exactly if each projection finds room. -/
theorem capped_iff_fits (s : Session) (ws : List QuestWriter) (hs : Capped s) :
    (Throughout writeQuest Capped s ws ∧ StepsMeet writeQuest RefusalUnchanged s ws) ↔
      StepsMeet writeQuest Fits s ws := by
  have hrefusal : StepsMeet writeQuest RefusalUnchanged s ws :=
    stepsMeet_of_forall refusalUnchanged s ws
  rw [and_iff_left hrefusal]
  refine throughout_iff_stepsMeet capped_writeQuest (fun _ h => h) ?_ hs
  intro s w _ hnot
  cases w with
  | project store reached => exact fun h => hnot (capped_project_iff store reached |>.mp h)
  | stash questId seed => exact absurd trivial hnot
  | accept questId => exact absurd trivial hnot
  | cross fromRegion toRegion => exact absurd trivial hnot
  | resolve store beats skip => exact absurd trivial hnot

/-! ### A log that is full -/

/-- A thread with the quest of an expansion. -/
def descentThread (expansionId : Nat) : ComplicationThread where
  threadId := "q.exp" ++ toString expansionId
  originRegionId := "exp001.r0"
  kind := .quest
  refId := "exp001.r0"
  expansion := some {
    expansionId
    signatureKind := .reachDeep
    anchorRegion := "exp001.r0"
    title := "The way down"
    objective := "Find the way down." }

/-- A ledger with one thread. -/
def oneThread (t : ComplicationThread) : ThreadLedger where
  threads := Dict.empty.insert t.threadId t
  keyed := ThreadLedger.keyed_of_get? (by
    intro id t' h
    rw [Dict.get?_insert] at h
    by_cases hid : id = t.threadId
    · rw [if_pos hid] at h
      rw [← Option.some.inj h, hid]
    · rw [if_neg hid] at h
      cases h)

/-- A party that comes to one expansion after another, each with its quest. -/
def longDescent (expansions : Nat) : List QuestWriter :=
  (List.range expansions).map
    (fun expansionId => .project (oneThread (descentThread expansionId)) {(expansionId : Int)})

instance (s : Session) : Decidable (Capped s) := inferInstanceAs (Decidable (_ ≤ _))

/-- The thirty-third quest of a dungeon is past the cap. -/
theorem not_capped_longDescent :
    Capped {} ∧ ¬ Throughout writeQuest Capped {} (longDescent 33) := by
  refine ⟨by decide, fun h => ?_⟩
  have hlast : Capped (run writeQuest {} (longDescent 33)) := h.last
  exact absurd hlast (by decide +kernel)

/-- Thirty-two of them fit. -/
theorem capped_longDescent : Throughout writeQuest Capped {} (longDescent 32) ∧
      StepsMeet writeQuest RefusalUnchanged {} (longDescent 32) :=
  (capped_iff_fits {} (longDescent 32) (by decide)).mpr (by decide +kernel)

end Sidequest.Dungeon
