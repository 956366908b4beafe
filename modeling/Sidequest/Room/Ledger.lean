import Sidequest.Room.Table

namespace Sidequest.Room

open Lib

/-!
# The ledger of recorded actions

While a turn collects input, a player has an action in the room's buffer if and only if the
barrier has counted them. `roundExact_iff_recordsEmptyBuffer` says when a run keeps this up,
and with it the accounts of every recorded action:

* every action is in one place: buffered, drained by one dispatch, or replaced
  (`Ledger.Accounted`, which no event breaks);
* it is drained, or replaced by its own player, in the interaction it was recorded in
  (`Ledger.InTurn`).

A run keeps all of it exactly when no interaction is recorded, and no world bound again, over a
buffer that still holds an action. An action that arrives between the drain and the end of the
narration does just that.
-/

variable (l : Ledger)

namespace Ledger

/-! ### The accounts -/

/-- All tickets, wherever they are. -/
def tickets : List Ticket :=
  l.buffered.values ++ l.drained.map Prod.fst ++ l.replaced.map Prod.fst

/-- Every ticket handed out is in exactly one place. -/
def Accounted : Prop :=
  (l.tickets.map Ticket.number).Perm (List.range l.nextTicket)

/-- Tickets are drained, and replaced by their own player, in their own interaction. -/
def InTurn : Prop :=
  (∀ d ∈ l.drained, d.1.interaction = d.2) ∧
  ∀ r ∈ l.replaced, r.1.playerId = r.2.playerId ∧ r.1.interaction = r.2.interaction

/-- The buffered tickets are their players' own and of the interaction `i`. -/
def BufferedIn (i : Nat) : Prop :=
  ∀ p k, l.buffered.get? p = some k → k.playerId = p ∧ k.interaction = i

variable {l : Ledger} {i : Nat} {p a : String}

theorem accounted_record (h : l.Accounted) (p a : String) (i : Nat) :
    (l.record p a i).Accounted := by
  have hbuf := Dict.perm_values_insert l.buffered p (l.issue p a i)
  have hmap : (((l.buffered.get? p).toList.map (·, l.issue p a i)).map Prod.fst)
      = (l.buffered.get? p).toList := by
    rw [List.map_map]
    exact List.map_id _
  -- the new ticket joins the buffer, and the one it replaces only changes its place
  have hperm : (l.record p a i).tickets.Perm (l.issue p a i :: l.tickets) := by
    show ((l.buffered.insert p (l.issue p a i)).values ++ l.drained.map Prod.fst
      ++ (l.replaced ++ (l.buffered.get? p).toList.map (·, l.issue p a i)).map Prod.fst).Perm _
    rw [List.map_append, hmap, ← List.append_assoc]
    have hcomm : ((l.drained.map Prod.fst ++ l.replaced.map Prod.fst)
        ++ (l.buffered.get? p).toList).Perm
          ((l.buffered.get? p).toList ++ (l.drained.map Prod.fst ++ l.replaced.map Prod.fst)) :=
      List.perm_append_comm
    have hmove := hcomm.append_left (l.buffered.insert p (l.issue p a i)).values
    have hjoin := hbuf.append_right (l.drained.map Prod.fst ++ l.replaced.map Prod.fst)
    simp only [List.append_assoc, List.cons_append, tickets] at hmove hjoin ⊢
    exact hmove.trans hjoin
  have hnum := (hperm.map Ticket.number).trans (h.cons (l.issue p a i).number)
  refine hnum.trans ?_
  show (l.nextTicket :: List.range l.nextTicket).Perm (List.range (l.nextTicket + 1))
  rw [List.range_succ]
  exact (List.perm_append_singleton _ _).symm

theorem accounted_drain (h : l.Accounted) (i : Nat) : (l.drain i).Accounted := by
  have hmap : (l.buffered.values.map (·, i)).map Prod.fst = l.buffered.values := by
    rw [List.map_map]
    exact List.map_id _
  have hperm : (l.drain i).tickets.Perm l.tickets := by
    show ([] ++ (l.drained ++ l.buffered.values.map (·, i)).map Prod.fst
      ++ l.replaced.map Prod.fst).Perm _
    rw [List.map_append, hmap, List.nil_append]
    exact List.perm_append_comm.append_right _
  exact (hperm.map Ticket.number).trans h

theorem inTurn_record (h : l.InTurn) (hb : l.BufferedIn i) : (l.record p a i).InTurn := by
  refine ⟨h.1, ?_⟩
  intro r hr
  rcases List.mem_append.mp hr with hr | hr
  · exact h.2 r hr
  · obtain ⟨k, hk, rfl⟩ := List.mem_map.mp hr
    exact hb p k (Option.mem_toList.mp hk)

theorem inTurn_drain (h : l.InTurn) (hb : l.BufferedIn i) : (l.drain i).InTurn := by
  refine ⟨?_, h.2⟩
  intro d hd
  rcases List.mem_append.mp hd with hd | hd
  · exact h.1 d hd
  · obtain ⟨k, hk, rfl⟩ := List.mem_map.mp hd
    obtain ⟨⟨q, k'⟩, hmem, rfl⟩ := List.mem_map.mp hk
    exact (hb q k' (Dict.get?_eq_some_iff.mpr hmem)).2

theorem bufferedIn_record (hb : l.BufferedIn i) : (l.record p a i).BufferedIn i := by
  intro q k hk
  change (l.buffered.insert p (l.issue p a i)).get? q = some k at hk
  rw [Dict.get?_insert] at hk
  by_cases hq : q = p
  · rw [if_pos hq] at hk
    cases hk
    exact ⟨hq.symm, rfl⟩
  · rw [if_neg hq] at hk
    exact hb q k hk

theorem bufferedIn_of_empty (h : l.buffered = .empty) (i : Nat) : l.BufferedIn i := by
  intro q k hk
  rw [h] at hk
  simp at hk

end Ledger

variable (t : Table)

namespace Table

/-! ### What a run should keep -/

/-- While input is collected, the players with a buffered action are the submitted ones. -/
def SealedExactly : Prop :=
  t.turnManager.phase = .inputCollection → t.room.pendingActions.keySet = t.turnManager.submitted

/-- The buffered tickets are the buffered actions. -/
def Mirrored : Prop :=
  ∀ p, (t.room.pendingActions.get? p).map PendingAction.action
    = (t.ledger.buffered.get? p).map Ticket.action

/-- The round is exact: the buffer holds the submitted players' actions, each recorded action
    is in one place, and none leaves its interaction. -/
structure RoundExact (t : Table) : Prop where
  sealedExactly : t.SealedExactly
  mirrored : t.Mirrored
  accounted : t.ledger.Accounted
  inTurn : t.ledger.InTurn

/-- The event does not record an interaction, or bind the world again during input collection,
    while an action is buffered. -/
def RecordsEmptyBuffer : Event → Prop
  | .narrationEnds i c =>
    i < t.inFlight.length → c = true → t.room.hasPendingActions = false
  | .otherNarration => t.room.hasPendingActions = false
  | .rebindWorld =>
    t.room.connected.keys = [] → t.inFlight = [] → t.turnManager.phase = .inputCollection →
      t.room.hasPendingActions = false
  | _ => True

/-- A table whose round is exact and whose buffered tickets are of the running interaction. -/
structure RoundInv (t : Table) : Prop extends RoundExact t where
  bufferedIn : t.ledger.BufferedIn t.turnManager.interaction

variable {t : Table}

theorem hasPendingActions_eq_false_iff :
    t.room.hasPendingActions = false ↔ t.room.pendingActions = .empty := by
  rw [SessionRoom.hasPendingActions, Bool.not_eq_false', List.isEmpty_iff]
  exact ⟨fun h => Dict.ext h, fun h => by rw [h]; rfl⟩

theorem keySet_eq_empty_iff :
    t.room.pendingActions.keySet = ∅ ↔ t.room.hasPendingActions = false := by
  rw [hasPendingActions_eq_false_iff]
  constructor
  · intro h
    apply Dict.ext
    rw [Dict.keySet, List.toFinset_eq_empty_iff] at h
    exact List.map_eq_nil_iff.mp h
  · intro h
    rw [h]
    rfl

theorem buffered_eq_empty (h : t.Mirrored) (he : t.room.hasPendingActions = false) :
    t.ledger.buffered = .empty := by
  rw [hasPendingActions_eq_false_iff] at he
  apply Dict.ext
  rw [Dict.entries_empty, List.eq_nil_iff_forall_not_mem]
  rintro ⟨p, k⟩ hk
  have hp := h p
  rw [he, Dict.get?_eq_some_iff.mpr hk] at hp
  simp at hp

/-! ### One event keeps the round exact -/

/-- An event that touches neither the buffer nor the ledger, and leaves the interaction as it
    is, keeps the round exact if it keeps the phase and the submitted players or leaves input
    collection. -/
theorem RoundInv.congr {t' : Table} (h : t.RoundInv)
    (hpend : t'.room.pendingActions = t.room.pendingActions) (hled : t'.ledger = t.ledger)
    (hint : t'.turnManager.interaction = t.turnManager.interaction)
    (hphase : t'.turnManager.phase = .inputCollection →
      t.turnManager.phase = .inputCollection ∧
        t'.turnManager.submitted = t.turnManager.submitted) : t'.RoundInv := by
  refine ⟨⟨?_, ?_, by rw [hled]; exact h.accounted, by rw [hled]; exact h.inTurn⟩, ?_⟩
  · intro hp
    obtain ⟨hp', hsub⟩ := hphase hp
    rw [hpend, hsub]
    exact h.sealedExactly hp'
  · intro p
    rw [hpend, hled]
    exact h.mirrored p
  · rw [hled, hint]
    exact h.bufferedIn

/-- Recording an interaction over an empty buffer starts the next round exact. -/
theorem RoundInv.recordInteraction (h : t.RoundInv) (he : t.room.hasPendingActions = false)
    (inFlight : List Nat) :
    ({ t with inFlight, turnManager := t.turnManager.recordInteraction } : Table).RoundInv :=
  ⟨⟨fun _ => keySet_eq_empty_iff.mpr he, h.mirrored, h.accounted, h.inTurn⟩,
    Ledger.bufferedIn_of_empty (buffered_eq_empty h.mirrored he) _⟩

/-- A dispatch outside input collection drains the whole buffer or leaves it. -/
theorem RoundInv.dispatch (h : t.RoundInv) (hphase : t.turnManager.phase ≠ .inputCollection) :
    t.dispatchFiredBarrier.RoundInv := by
  rcases dispatchFiredBarrier_cases with ⟨-, ht⟩ | ⟨-, ht⟩ <;> rw [ht]
  · exact h
  · exact ⟨⟨fun hp => absurd hp hphase, fun _ => rfl, Ledger.accounted_drain h.accounted _,
      Ledger.inTurn_drain h.inTurn h.bufferedIn⟩, Ledger.bufferedIn_of_empty rfl _⟩

/-- Buffering an action and counting its player keep the buffer and the submitted set equal. -/
theorem RoundInv.recordAction (h : t.RoundInv) (p n a : String) {turnManager : TurnManager}
    (hint : turnManager.interaction = t.turnManager.interaction)
    (hphase : turnManager.phase = .inputCollection →
      t.turnManager.phase = .inputCollection ∧
        turnManager.submitted = insert p t.turnManager.submitted) :
    (t.recordAction p n a turnManager).RoundInv := by
  refine ⟨⟨?_, ?_, Ledger.accounted_record h.accounted _ _ _,
    Ledger.inTurn_record h.inTurn h.bufferedIn⟩, ?_⟩
  · intro hp
    obtain ⟨hp', hsub⟩ := hphase hp
    show (t.room.pendingActions.insert p ⟨n, a⟩).keySet = turnManager.submitted
    rw [Dict.keySet_insert, hsub, h.sealedExactly hp']
  · intro q
    show ((t.room.pendingActions.insert p ⟨n, a⟩).get? q).map PendingAction.action
      = ((t.ledger.buffered.insert p _).get? q).map Ticket.action
    rw [Dict.get?_insert, Dict.get?_insert]
    by_cases hq : q = p
    · rw [if_pos hq, if_pos hq]
      rfl
    · rw [if_neg hq, if_neg hq]
      exact h.mirrored q
  · show (t.ledger.record p a t.turnManager.interaction).BufferedIn turnManager.interaction
    rw [hint]
    exact Ledger.bufferedIn_record h.bufferedIn

theorem RoundInv.playerAction (h : t.RoundInv) (p n a : String) :
    (t.playerAction p n a).RoundInv := by
  rcases playerAction_cases p n a with ⟨hp, ht⟩ | ⟨hp, -, ht⟩ | ⟨hp, -, ht⟩ <;> rw [ht]
  · refine RoundInv.dispatch (h.recordAction p n a ?_ ?_) hp
    · rfl
    · intro hp'
      exact absurd hp' hp
  · exact h.recordAction p n a rfl (fun _ => ⟨hp, rfl⟩)
  · have hrouting : TurnPhase.intentRouting ≠ .inputCollection := by decide
    refine RoundInv.dispatch (h.recordAction p n a ?_ ?_) hrouting
    · rfl
    · intro hp'
      exact absurd hp' hrouting

theorem RoundInv.clientError (h : t.RoundInv) (p : String) : (t.clientError p).RoundInv := by
  rcases clientError_cases p with ⟨-, ht⟩ | ⟨-, ht⟩ | ⟨-, -, -, ht⟩ <;> rw [ht]
  · exact h
  · exact h.congr rfl rfl rfl (fun hp => ⟨hp, rfl⟩)
  · have hrouting : TurnPhase.intentRouting ≠ .inputCollection := by decide
    exact RoundInv.dispatch (h.congr rfl rfl rfl (fun hp => absurd hp hrouting)) hrouting

/-- **Step lemma.** An event that records no interaction over a buffered action keeps the round
    exact. -/
theorem RoundInv.step (h : t.RoundInv) {e : Event} (hok : t.RecordsEmptyBuffer e) :
    (t.step e).RoundInv := by
  cases e with
  | connect p k c =>
    rcases step_connect_cases p k c with ht | ⟨room, hroom, ht⟩ <;> rw [ht]
    · exact h
    · exact h.congr hroom.pendingActions rfl rfl (fun hp => ⟨hp, rfl⟩)
  | disconnect pick k =>
    exact h.congr (SessionRoom.sameRound_disconnect pick k).pendingActions rfl rfl
      (fun hp => ⟨hp, rfl⟩)
  | playerAction p n a => exact h.playerAction p n a
  | clientError p => exact h.clientError p
  | narrationEnds i c =>
    show (t.narrationEnds i c).RoundInv
    rcases narrationEnds_cases i c with ht | ⟨-, ht⟩ | ⟨hi, hc, ht⟩ <;> rw [ht]
    · exact h
    · exact h.congr rfl rfl rfl (fun hp => ⟨hp, rfl⟩)
    · exact h.recordInteraction (hok hi hc) _
  | otherNarration => exact h.recordInteraction hok t.inFlight
  | rebindWorld =>
    show t.rebindWorld.RoundInv
    unfold rebindWorld
    split
    · rename_i hempty
      refine h.congr rfl rfl rfl (fun hp => ⟨hp, ?_⟩)
      rw [← h.sealedExactly hp]
      exact (keySet_eq_empty_iff.mpr (hok hempty.1 hempty.2 hp)).symm
    · exact h
  | _ => exact h.congr rfl rfl rfl (fun hp => ⟨hp, rfl⟩)

/-- An event that misses the condition leaves an action in the buffer of a turn that has counted
    nobody. -/
theorem not_sealedExactly_step {e : Event} (hnot : ¬ t.RecordsEmptyBuffer e) :
    ¬ (t.step e).SealedExactly := by
  intro hseal
  apply hnot
  cases e with
  | narrationEnds i c =>
    intro hi hc
    have ht : t.step (.narrationEnds i c) =
        { t with
          inFlight := t.inFlight.eraseIdx i
          turnManager := t.turnManager.recordInteraction } := by
      show t.narrationEnds i c = _
      rw [narrationEnds, if_pos hi, if_pos hc]
    rw [ht] at hseal
    exact keySet_eq_empty_iff.mp (hseal rfl)
  | otherNarration => exact keySet_eq_empty_iff.mp (hseal rfl)
  | rebindWorld =>
    intro hconn hfly hp
    have ht : t.step .rebindWorld =
        { t with turnManager := { t.turnManager with submitted := ∅ } } := if_pos ⟨hconn, hfly⟩
    rw [ht] at hseal
    exact keySet_eq_empty_iff.mp (hseal hp)
  | _ => trivial

/-! ### Whole runs -/

/-- A fresh room has recorded nothing. -/
theorem roundInv_init (slug : String) (mode : GameMode) (round interaction : Nat)
    (phase : TurnPhase) (playerCount : Nat) :
    (Table.init slug mode round interaction phase playerCount).RoundInv :=
  ⟨⟨fun _ => rfl, fun _ => rfl, List.Perm.refl _, by simp [Ledger.InTurn, init]⟩,
    Ledger.bufferedIn_of_empty rfl _⟩

/-- **The round is exact over a run** from a fresh room if and only if no event of the run
    records an interaction, or binds the world again during input collection, while an action
    is buffered. -/
theorem roundExact_iff_recordsEmptyBuffer (slug : String) (mode : GameMode)
    (round interaction : Nat) (phase : TurnPhase) (playerCount : Nat) (es : List Event) :
    Throughout step RoundExact (Table.init slug mode round interaction phase playerCount) es ↔
      StepsMeet step RecordsEmptyBuffer
        (Table.init slug mode round interaction phase playerCount) es :=
  throughout_iff_stepsMeet (fun (t : Table) _ (h : t.RoundInv) hok => h.step hok)
    (fun _ h => h.toRoundExact)
    (fun _ _ _ hnot h => not_sealedExactly_step hnot h.sealedExactly)
    (roundInv_init slug mode round interaction phase playerCount)

/-- Two players play a round; one acts again while the narrator is still at work. -/
def lateAction : List Event :=
  [.connect "a" "s1" none, .connect "b" "s2" none,
    .seat "a" none, .transitionToPlaying "a", .seat "b" none, .transitionToPlaying "b",
    .playerAction "a" "Ana" "look", .playerAction "b" "Bo" "hide",
    .playerAction "a" "Ana" "leave", .narrationEnds 0 true]

/-- The late action is buffered, not counted, and outlives its interaction: the next turn starts
    with an action in the buffer of a player it has not counted, and a crash signal then sends
    that action to the dispatch of a later interaction. -/
theorem not_roundExact_of_lateAction :
    ¬ Throughout step SealedExactly
      (Table.init "den" .multiplayer 1 1 .inputCollection 1) lateAction ∧
    ¬ Throughout step (fun t => t.ledger.InTurn)
      (Table.init "den" .multiplayer 1 1 .inputCollection 1)
      (lateAction ++ [.playerAction "b" "Bo" "follow", .clientError "a"]) := by
  constructor
  · intro h
    have hlast := h.last
    revert hlast
    unfold SealedExactly
    decide
  · intro h
    have hlast := h.last
    revert hlast
    unfold Ledger.InTurn
    decide

end Table

end Sidequest.Room
