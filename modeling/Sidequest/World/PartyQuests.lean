import Sidequest.Dungeon.ExpansionQuest
import Sidequest.World.PartyMove

namespace Sidequest.World

open Lib Effect
open Dungeon (ThreadLedger Questing questKey expansionQuestObserver FiresOn RegionGraph)

/-!
# Quests on a party's way

A quest that comes into the log as its expansion is reached should be completed on a later move. The
quest observer spares the quests of its own call; but it is called once for each of the party.

* `questObserver`, `Bystander` — the quest observer in the list, and observers beside it;
* `noneCompleted_iff_noneRipens` — a whole dispatch.
-/

variable {V A : Type}

/-! ### The observers of a dungeon -/

/-- The quest observer, over the ledger of its dungeon. -/
def questObserver : StoreObserver (ThreadLedger × V) where
  observe notice := modify (fun p =>
    let q := expansionQuestObserver notice.fromRegion notice.toRegion ⟨p.1, p.2.1⟩
    (q.snapshot, (q.ledger, p.2.2)))
  sameButQuests notice := by
    intro p
    have hsame := Dungeon.snapshot_expansionQuestObserver notice.fromRegion notice.toRegion
      ⟨p.1, p.2.1⟩
    unfold StoreSameButQuests SameButQuests
    rw [exec_modify]
    dsimp only
    rw [hsame]

/-- The quests and the ledger are as they were, and so are the creatures. -/
structure SameQuests (p p' : GameSnapshot × ThreadLedger × V) : Prop where
  questLog : p'.1.questLog = p.1.questLog
  npcs : p'.1.npcs = p.1.npcs
  ledger : p'.2.1 = p.2.1

/-- An observer that leaves the quests and the ledger alone: the staging of a cast, the look-ahead
    worker. -/
structure Bystander (V : Type) extends StoreObserver (ThreadLedger × V) where
  leaves : ∀ notice, Preserves SameQuests (observe notice)

/-- The observers of a dungeon in the order of their registration. -/
def observedBy (before after : List (Bystander V)) : List (StoreObserver (ThreadLedger × V)) :=
  before.map Bystander.toStoreObserver ++ questObserver :: after.map Bystander.toStoreObserver

/-! ### One call of the quest observer -/

/-- No quest of an expansion that is not among the known ones is completed. -/
def NoneCompleted (known : List String) (s : GameSnapshot) : Prop :=
  ∀ e : Nat, questKey e ∉ known → ∀ entry, s.questLog.get? (questKey e) = some entry →
    entry.status ≠ "completed"

/-- A quest that is not among the known ones, but in the log, has an open thread whose beat fires as
    the region is entered. -/
def Ripe (known : List String) (toRegion : String) (s : GameSnapshot) (ledger : ThreadLedger) :
    Prop :=
  ∃ e : Nat, questKey e ∉ known ∧ questKey e ∈ s.questLog.keys ∧
    ∃ t ∈ ledger.openThreads, FiresOn toRegion s e t

variable {known : List String}

/-- **One call of the quest observer** keeps new quests from being completed exactly if none of them
    is ripe. -/
theorem noneCompleted_observer_iff (fromRegion : Option String) (toRegion : String) (q : Questing) :
    NoneCompleted known (expansionQuestObserver fromRegion toRegion q).snapshot ↔
      NoneCompleted known q.snapshot ∧ ¬ Ripe known toRegion q.snapshot q.ledger := by
  constructor
  · intro hnone
    constructor
    · intro e hnew entry hentry hcompleted
      obtain ⟨entry', hentry', hiff⟩ := Dungeon.get?_observer_of_some fromRegion toRegion hentry
      exact hnone e hnew entry' hentry' (hiff.mpr (.inl hcompleted))
    · rintro ⟨e, hnew, hmem, hfires⟩
      obtain ⟨entry, hentry⟩ := Dict.mem_keys_iff_get?.mp hmem
      obtain ⟨entry', hentry', hiff⟩ := Dungeon.get?_observer_of_some fromRegion toRegion hentry
      exact hnone e hnew entry' hentry' (hiff.mpr (.inr hfires))
  · rintro ⟨h, hripe⟩ e hnew entry' hentry' hcompleted
    cases hentry : q.snapshot.questLog.get? (questKey e) with
    | none =>
      have hactive := Dungeon.active_observer_of_none fromRegion toRegion hentry hentry'
      rw [hcompleted] at hactive
      simp at hactive
    | some entry =>
      obtain ⟨entry'', hentry'', hiff⟩ := Dungeon.get?_observer_of_some fromRegion toRegion hentry
      rw [hentry'] at hentry''
      cases hentry''
      rcases hiff.mp hcompleted with hold | hfires
      · exact h e hnew entry hentry hold
      · exact hripe ⟨e, hnew, Dict.mem_keys_of_get? hentry, hfires⟩

theorem ripe_congr {p p' : GameSnapshot × ThreadLedger × V} (h : SameQuests p p')
    (toRegion : String) : Ripe known toRegion p'.1 p'.2.1 ↔ Ripe known toRegion p.1 p.2.1 := by
  unfold Ripe FiresOn Dungeon.transitionBeats Dungeon.collectDefeatedNpcNames
  rw [h.questLog, h.npcs, h.ledger]

/-! ### Beside the quest observer -/

/-- Whether no new quest is completed is as it was. -/
def SameNone (known : List String) (s s' : Session) : Prop :=
  NoneCompleted known s'.toGameSnapshot ↔ NoneCompleted known s.toGameSnapshot

instance : IsPreorder Session (SameNone known) where
  refl _ := Iff.rfl
  trans _ _ _ h h' := h'.trans h

theorem sameNone_of_questLog {s s' : Session} (h : s'.questLog = s.questLog) :
    SameNone known s s' := by
  unfold SameNone NoneCompleted
  rw [h]

/-- A mint completes nothing: what it adds is active. -/
theorem sameNone_mintQuestOffer (questId : String) :
    Preserves (SameNone known) (mintQuestOffer questId) := by
  intro s
  rcases mintQuestOffer_cases questId s with ⟨-, hx⟩ | ⟨-, hx⟩ | ⟨-, hx⟩ | ⟨seed, -, hnot, hx⟩
  · rw [hx]
    exact sameNone_of_questLog rfl
  · rw [hx]
    exact refl_of (SameNone known) s
  · rw [hx]
    exact refl_of (SameNone known) s
  · rw [hx]
    have hget : ∀ k, (acceptOffer questId seed s).questLog.get? k
        = if k = questId then some seed.toEntry else s.questLog.get? k :=
      fun k => Dict.get?_insert _ _ _ _
    constructor
    · intro h e hnew entry hentry
      have hne : questKey e ≠ questId := by
        rintro rfl
        exact hnot (Dict.mem_keys_of_get? hentry)
      refine h e hnew entry ?_
      rw [hget, if_neg hne]
      exact hentry
    · intro h e hnew entry hentry
      rw [hget] at hentry
      by_cases heq : questKey e = questId
      · rw [if_pos heq] at hentry
        cases hentry
        show seed.toEntry.status ≠ "completed"
        show "active" ≠ "completed"
        decide
      · rw [if_neg heq] at hentry
        exact h e hnew entry hentry

theorem sameNone_mintOnAnchorCrossing (fromRegion : Option String) (toRegion : String) :
    Preserves (SameNone known) (mintOnAnchorCrossing fromRegion toRegion) := by
  unfold mintOnAnchorCrossing
  refine preserves_get.bind (fun s => ?_)
  refine Preserves.ite (preserves_pure []) ?_
  refine preserves_foldlM (fun minted questId => ?_) _ _
  exact (sameNone_mintQuestOffer questId).bind (fun entry => preserves_pure _)

/-- What observers beside the quest observer leave alone. -/
def WatchedSameQuests (w w' : Watched (ThreadLedger × V)) : Prop :=
  SameQuests w.observed w'.observed

instance : IsPreorder (Watched (ThreadLedger × V)) WatchedSameQuests where
  refl _ := ⟨rfl, rfl, rfl⟩
  trans _ _ _ h h' := ⟨h'.questLog.trans h.questLog, h'.npcs.trans h.npcs, h'.ledger.trans h.ledger⟩

theorem sameQuests_tellObservers (told : List (Bystander V)) (notice : RegionNotice) :
    Preserves WatchedSameQuests (tellObservers (told.map Bystander.toStoreObserver) notice) := by
  refine preserves_forM_of_mem (fun observer hmem => ?_)
  obtain ⟨bystander, -, rfl⟩ := List.mem_map.mp hmem
  exact fun w => bystander.leaves notice w.observed

/-! ### One leg -/

variable (before after : List (Bystander V))

variable (notice : RegionNotice)

theorem tellObservers_observedBy : tellObservers (observedBy before after) notice = (do
      tellObservers (before.map Bystander.toStoreObserver) notice
      onSnapshotAndStore (questObserver.observe notice)
      tellObservers (after.map Bystander.toStoreObserver) notice) := by
  unfold tellObservers observedBy
  exact List.forM_append

/-- The quest observer is told of the leg, and finds a quest that is ripe. -/
def LegRipens (known : List String) (move : String × String) (w : Watched (ThreadLedger × V)) :
    Prop :=
  ∃ notice told, crossing w.pcRegions move = some notice ∧
    (tellObservers (before.map Bystander.toStoreObserver) notice).exec (announced notice move w)
      = (.ok (), told) ∧
    Ripe known notice.toRegion w.toGameSnapshot w.store.1

/-- What comes after the quest observer completes nothing and restores nothing. -/
theorem sameNone_afterQuests (w : Watched (ThreadLedger × V)) : SameNone known w.toSession ((do
      tellObservers (after.map Bystander.toStoreObserver) notice
      onSession (do
        let _minted ← mintOnAnchorCrossing notice.fromRegion notice.toRegion
        pure ()) : Effect PatchError (Watched (ThreadLedger × V)) Unit).exec w).2.toSession := by
  have htold := sameQuests_tellObservers after notice w
  rw [exec_bind]
  rcases hexec : (tellObservers (after.map Bystander.toStoreObserver) notice).exec w
    with ⟨e | u, w'⟩
  · rw [hexec] at htold
    exact sameNone_of_questLog htold.questLog
  · rw [hexec] at htold
    refine trans_of (SameNone known) (sameNone_of_questLog htold.questLog) ?_
    exact (sameNone_mintOnAnchorCrossing notice.fromRegion notice.toRegion).bind
      (fun _ => preserves_pure ()) w'.toSession

/-- A leg is its crossing, if it is one, and then the anchor follows: which changes no quest. -/
theorem sameNone_patchPcRegion (observers : List (StoreObserver (ThreadLedger × V)))
    (move : String × String) (w : Watched (ThreadLedger × V)) :
    SameNone known ((moveObserved observers move).exec w).2.toSession
      ((patchPcRegion observers move).exec w).2.toSession := by
  unfold patchPcRegion
  rw [exec_bind]
  rcases (moveObserved observers move).exec w with ⟨e | u, w'⟩
  · exact refl_of (SameNone known) w'.toSession
  · exact sameNone_of_questLog rfl

theorem exec_crossObserved_observedBy (move : String × String) (w : Watched (ThreadLedger × V)) :
    (crossObserved (observedBy before after) notice).exec (w.mapSession (setPcRegion move.1 move.2))
      = match (tellObservers (before.map Bystander.toStoreObserver) notice).exec
          (announced notice move w) with
        | (.error e, told) => (.error e, told)
        | (.ok _, told) => (do
            tellObservers (after.map Bystander.toStoreObserver) notice
            onSession (do
              let _minted ← mintOnAnchorCrossing notice.fromRegion notice.toRegion
              pure ()) : Effect PatchError (Watched (ThreadLedger × V)) Unit).exec
            (told.putObserved ((questObserver.observe notice).exec told.observed).2) := by
  rw [exec_crossObserved, tellObservers_observedBy, exec_bind, exec_bind]
  rcases (tellObservers (before.map Bystander.toStoreObserver) notice).exec
    (announced notice move w) with ⟨e | u, told⟩
  · rfl
  · dsimp only
    rw [exec_bind, exec_bind]
    rfl

/-- **One leg** of a party's way keeps new quests from being completed exactly if it ripens none. -/
theorem noneCompleted_patch_iff (move : String × String) (w : Watched (ThreadLedger × V)) :
    NoneCompleted known ((patchPcRegion (observedBy before after) move).exec w).2.toGameSnapshot ↔
      NoneCompleted known w.toGameSnapshot ∧ ¬ LegRipens before known move w := by
  have hanchor : NoneCompleted known _ ↔ NoneCompleted known _ :=
    sameNone_patchPcRegion (observedBy before after) move w
  rw [hanchor]
  unfold moveObserved LegRipens
  rw [exec_get_bind, exec_modify_bind]
  cases hcross : crossing w.pcRegions move with
  | none =>
    refine (and_iff_left ?_).symm
    rintro ⟨notice, told, hnotice, -⟩
    cases hnotice
  | some notice =>
    rw [exec_crossObserved_observedBy]
    have htold := sameQuests_tellObservers before notice (announced notice move w)
    rcases hexec : (tellObservers (before.map Bystander.toStoreObserver) notice).exec
      (announced notice move w) with ⟨e | ⟨⟩, told⟩
    · -- an observer before the quest observer raised: it was not told
      rw [hexec] at htold
      refine Iff.trans (sameNone_of_questLog htold.questLog) (and_iff_left ?_).symm
      rintro ⟨notice', told', hnotice, hok, -⟩
      cases hnotice
      exact not_returned_of_raised hexec hok
    · rw [hexec] at htold
      have hquests : NoneCompleted known _ ↔ _ := noneCompleted_observer_iff notice.fromRegion
        notice.toRegion ⟨told.toGameSnapshot, told.store.1⟩
      have hripe : Ripe known notice.toRegion told.toGameSnapshot told.store.1 ↔
          Ripe known notice.toRegion w.toGameSnapshot w.store.1 :=
        ripe_congr (p := w.observed) ⟨htold.questLog, htold.npcs, htold.ledger⟩ notice.toRegion
      have hlog : NoneCompleted known told.toGameSnapshot ↔ NoneCompleted known w.toGameSnapshot :=
        sameNone_of_questLog htold.questLog
      refine Iff.trans (sameNone_afterQuests after notice _) (Iff.trans hquests ?_)
      rw [hripe, hlog]
      refine and_congr_right (fun _ => not_congr ⟨fun h => ⟨notice, told, rfl, hexec, h⟩, ?_⟩)
      rintro ⟨notice', told', hnotice, -, h⟩
      cases hnotice
      exact h

/-! ### A whole dispatch -/

/-- A dispatch that is observed by the dungeon of its save. -/
def MovementContext.inDungeon (ctx : MovementContext (ThreadLedger × V) A) :
    MovementContext (ThreadLedger × V) A :=
  { ctx with observers := observedBy before after }

variable (ctx : MovementContext (ThreadLedger × V) A)

@[simp] theorem observers_inDungeon :
    (ctx.inDungeon before after).observers = observedBy before after := rfl

/-- No leg of the peers ripens a quest that the log did not know when the dispatch began. -/
def NoneRipens (playerName : String) (dispatch : MovementDispatch) (names : List String)
    (w : Watched (ThreadLedger × V)) : Prop :=
  match (resolveMovement (ctx.inDungeon before after) playerName dispatch).exec w with
  | (.ok (.go fromRegion toRegion _ drains), w₁) =>
    Passes (observedBy before after) w₁ (playerName, toRegion) →
      ∀ leg ∈ visits (fun peer => patchPcRegion (observedBy before after) (peer, toRegion))
        (followers w₁.toGameSnapshot playerName fromRegion toRegion names)
        (afterActing (ctx.inDungeon before after) playerName toRegion drains w₁),
        ¬ LegRipens before w.questLog.keys (leg.1, toRegion) leg.2
  | _ => True

theorem noneCompleted_keys (s : GameSnapshot) : NoneCompleted s.questLog.keys s := by
  intro e hnew entry hentry
  exact absurd (Dict.mem_keys_of_get? hentry) hnew

theorem not_legRipens_keys (move : String × String) (w : Watched (ThreadLedger × V)) :
    ¬ LegRipens before w.questLog.keys move w := by
  rintro ⟨notice, told, -, -, e, hnew, hmem, -⟩
  exact hnew hmem

theorem noneCompleted_partyMove_iff (actingPc fromRegion toRegion : String) (drains : Bool)
    (names : List String) (w : Watched (ThreadLedger × V)) :
    NoneCompleted w.questLog.keys ((partyMove (ctx.inDungeon before after) actingPc fromRegion
        toRegion drains names).exec w).2.toGameSnapshot ↔
      (Passes (observedBy before after) w (actingPc, toRegion) →
        ∀ leg ∈ visits (fun peer => patchPcRegion (observedBy before after) (peer, toRegion))
          (followers w.toGameSnapshot actingPc fromRegion toRegion names)
          (afterActing (ctx.inDungeon before after) actingPc toRegion drains w),
          ¬ LegRipens before w.questLog.keys (leg.1, toRegion) leg.2) := by
  have hacting : NoneCompleted w.questLog.keys
      ((patchPcRegion (observedBy before after) (actingPc, toRegion)).exec w).2.toGameSnapshot :=
    (noneCompleted_patch_iff before after (actingPc, toRegion) w).mpr
      ⟨noneCompleted_keys w.toGameSnapshot, not_legRipens_keys before (actingPc, toRegion) w⟩
  have hraises := patchPcRegion_raises_iff (observedBy before after) (actingPc, toRegion) w
  rw [exec_partyMove]
  rw [observers_inDungeon]
  rcases hgone : (patchPcRegion (observedBy before after) (actingPc, toRegion)).exec w
    with ⟨e | ⟨⟩, gone⟩
  · rw [hgone] at hacting
    refine iff_of_true hacting (fun hpasses => ?_)
    exact absurd hpasses (hraises.mp ⟨e, gone, hgone⟩)
  · have hpasses : Passes (observedBy before after) w (actingPc, toRegion) := by
      by_contra hnot
      obtain ⟨e, w', hraised⟩ := hraises.mpr hnot
      exact not_returned_of_raised hraised hgone
    have hwait := toSession_afterActing (ctx.inDungeon before after) drains hgone
    rw [hgone] at hacting
    -- the wait changes the store only, so the peers start with no new quest completed
    have hstart : NoneCompleted w.questLog.keys
        (afterActing (ctx.inDungeon before after) actingPc toRegion drains w).toGameSnapshot := by
      rw [hwait]
      exact hacting
    rw [forall_prop_of_true hpasses]
    refine exec_forM_keeps_iff
      (I := fun t : Watched (ThreadLedger × V) => NoneCompleted w.questLog.keys t.toGameSnapshot)
      (fun peer t ht => ?_) (fun peer t ht hafter => ?_) hstart
    · exact (noneCompleted_patch_iff before after (peer, toRegion) t).trans (and_iff_right ht)
    · exact ht ((noneCompleted_patch_iff before after (peer, toRegion) t).mp hafter).1

/-- **A new quest waits for a later dispatch** exactly if no peer's leg ripens one. -/
theorem noneCompleted_iff_noneRipens (playerName : String) (dispatch : MovementDispatch)
    (names : List String) (w : Watched (ThreadLedger × V)) :
    NoneCompleted w.questLog.keys ((runMovementDispatch (ctx.inDungeon before after) playerName
        dispatch names).exec w).2.toGameSnapshot ↔
      NoneRipens before after ctx playerName dispatch names w := by
  have hresolves :=
    resolves_resolveMovement (ctx.inDungeon before after) playerName dispatch w w rfl
  unfold runMovementDispatch NoneRipens
  rw [exec_bind]
  rcases hres : (resolveMovement (ctx.inDungeon before after) playerName dispatch).exec w
    with ⟨e | verdict, w₁⟩
  · rw [hres] at hresolves
    have hsame : w₁.toSession = w.toSession := hresolves.1
    refine iff_of_true ?_ trivial
    rw [hsame]
    exact noneCompleted_keys w.toGameSnapshot
  · rw [hres] at hresolves
    have hsame : w₁.toSession = w.toSession := hresolves.1
    cases verdict with
    | stay output =>
      refine iff_of_true ?_ trivial
      show NoneCompleted w.questLog.keys w₁.toGameSnapshot
      rw [hsame]
      exact noneCompleted_keys w.toGameSnapshot
    | go fromRegion toRegion via drains =>
      have hparty := noneCompleted_partyMove_iff before after ctx playerName fromRegion toRegion
        drains names w₁
      rw [hsame] at hparty
      rw [← hsame] at hparty ⊢
      dsimp only
      rw [exec_bind, exec_adapt]
      refine Iff.trans ?_ hparty
      rcases (partyMove (ctx.inDungeon before after) playerName fromRegion toRegion drains
        names).exec w₁ with ⟨e | u, w'⟩
      · exact Iff.rfl
      · exact Iff.rfl

/-! ### Two who go down together -/

/-- A stair from the entrance down to the first region of an expansion. -/
def shaft : RegionGraph :=
  ((RegionGraph.empty "entrance").withNode
    { id := "entrance", expansionId := 0, theme := "stone", depthScore := some 0 }).withNode
    { id := "exp001.r0", expansionId := 1, theme := "stone", depthScore := some 1 } |>.withEdge
    { a := "entrance", b := "exp001.r0", kind := "stair" } (by decide)

/-- The dispatches of a world that is that dungeon. -/
def shaftContext : MovementContext (ThreadLedger × Unit) Unit where
  reading := { lower := id, digest := String.length }
  observers := []
  worldSlug := ""
  dungeonStore := some {
    loadMap := fun _ _ _ => .ok shaft
    loadFrontier := fun _ => .ok []
    materializeBounded := fun _ _ => pure () }
  palette := some (Dict.empty.insert "stone"
    { displayName := "Stone", register := "grave", flavor := "Bare walls." })

/-- Ann and Bob at the entrance, with a quest that waits down the stair. -/
def pairAtEntrance : Watched (ThreadLedger × Unit) where
  pcRegions := (Dict.empty.insert "Ann" "entrance").insert "Bob" "entrance"
  store := (Dungeon.oneThread (Dungeon.descentThread 1), ())

/-- Ann's step brings the quest into the log and Bob's completes it; had Ann gone alone, it would
    wait. -/
theorem not_noneCompleted_pair :
    ¬ NoneCompleted pairAtEntrance.questLog.keys
        ((runMovementDispatch (shaftContext.inDungeon [] []) "Ann" { direction := "deeper" }
          ["Bob"]).exec pairAtEntrance).2.toGameSnapshot ∧
      ((runMovementDispatch (shaftContext.inDungeon [] []) "Ann" { direction := "deeper" }
        []).exec pairAtEntrance).2.questLog.get? (questKey 1) = some
          { title := "The way down", objective := "Find the way down.", status := "active",
            anchorId := some "exp001.r0" } := by
  refine ⟨fun h => ?_, by decide +kernel⟩
  have hcompleted : ((runMovementDispatch (shaftContext.inDungeon [] []) "Ann"
      { direction := "deeper" } ["Bob"]).exec pairAtEntrance).2.questLog.get? (questKey 1) = some
        { title := "The way down", objective := "Find the way down.", status := "completed",
          anchorId := some "exp001.r0" } := by decide +kernel
  exact h 1 (by decide +kernel) _ hcompleted rfl

end Sidequest.World
