import Sidequest.Room.Table

namespace Sidequest.Room

open Lib

/-!
# Dispatches of the narrator

Two questions about the dispatches of a table, over every run:

* is the table always able to take a turn again (`Unwedged`)?
  `unwedged_iff_endsRecorded`: exactly while no narration ends unrecorded as the last one in
  flight of a closed turn;
* is the narrator dispatched at most once for an interaction? `Election` lets every handler that
  has seen a fired barrier wait for the dispatch lock as long as it likes;
  `dispatches_increasing`: the compare-and-set of `last_dispatched_round` lets only dispatches
  of increasing interactions through, in any interleaving.
-/

namespace Table

/-! ### The round data of an event -/

/-- The data a dispatch reads and writes stays as it is. -/
structure SameTurn (t t' : Table) : Prop where
  phase : t'.turnManager.phase = t.turnManager.phase
  interaction : t'.turnManager.interaction = t.turnManager.interaction
  lastDispatchedRound : t'.room.lastDispatchedRound = t.room.lastDispatchedRound
  inFlight : t'.inFlight = t.inFlight

variable {t t' : Table}

theorem SameTurn.refl (t : Table) : SameTurn t t := ⟨rfl, rfl, rfl, rfl⟩

/-- A change of the room that leaves its round alone leaves the turn alone. -/
theorem SameTurn.of_sameRound {room : SessionRoom} (h : SessionRoom.SameRound t.room room) :
    SameTurn t { t with room } := ⟨rfl, rfl, h.lastDispatchedRound, rfl⟩

theorem sameTurn_connect (p k : String) (c : Option String) :
    SameTurn t (t.step (.connect p k c)) := by
  rcases step_connect_cases p k c with ht | ⟨room, hroom, ht⟩ <;> rw [ht]
  · exact SameTurn.refl t
  · exact SameTurn.of_sameRound hroom

theorem sameTurn_disconnect (pick : Finset String → String) (k : String) :
    SameTurn t (t.step (.disconnect pick k)) :=
  SameTurn.of_sameRound (SessionRoom.sameRound_disconnect pick k)

theorem sameTurn_rebindWorld : SameTurn t t.rebindWorld := by
  rcases rebindWorld_cases (t := t) with ht | ht <;> rw [ht]
  · exact SameTurn.refl t
  · exact ⟨rfl, rfl, rfl, rfl⟩

/-! ### A table that can take a turn again -/

/-- While no narration is in flight, the turn collects input and its interaction has not been
    dispatched yet. -/
def Unwedged (t : Table) : Prop :=
  t.inFlight = [] →
    t.turnManager.phase = .inputCollection ∧ t.room.lastDispatchedRound < t.turnManager.interaction

/-- A narration that ends without recording its interaction is not the last one in flight of a
    closed turn. -/
def EndsRecorded (t : Table) : Event → Prop
  | .narrationEnds i completed =>
    completed = false → i < t.inFlight.length → t.inFlight.length = 1 →
      t.turnManager.phase = .inputCollection
  | _ => True

instance (t : Table) (e : Event) : Decidable (t.EndsRecorded e) :=
  match e with
  | .narrationEnds i completed =>
    decidable_of_iff
      (¬ (completed = false ∧ i < t.inFlight.length ∧ t.inFlight.length = 1) ∨
        t.turnManager.phase = .inputCollection)
      (by unfold EndsRecorded; tauto)
  | .connect .. | .setPlayerIdentity .. | .disconnect .. | .seat .. | .transitionToPlaying ..
  | .unseat .. | .playerAction .. | .clientError .. | .markTableFolded .. | .clearTableFolds
  | .otherNarration | .rebindWorld => .isTrue trivial

/-- What a turn goes through: an open turn has not been dispatched, a closed one has its
    narration in flight, and no interaction to come has been dispatched. -/
structure TurnInv (t : Table) : Prop where
  opened : t.turnManager.phase = .inputCollection →
    t.room.lastDispatchedRound < t.turnManager.interaction
  closed : t.turnManager.phase ≠ .inputCollection → t.inFlight ≠ []
  le : t.room.lastDispatchedRound ≤ t.turnManager.interaction

theorem TurnInv.unwedged (h : t.TurnInv) : t.Unwedged := by
  intro hfly
  have hphase : t.turnManager.phase = .inputCollection := by
    by_contra hne
    exact h.closed hne hfly
  exact ⟨hphase, h.opened hphase⟩

theorem TurnInv.sameTurn (h : t.TurnInv) (hs : SameTurn t t') : t'.TurnInv := by
  obtain ⟨hphase, hint, hlast, hfly⟩ := hs
  refine ⟨?_, ?_, ?_⟩
  · rw [hphase, hint, hlast]
    exact h.opened
  · rw [hphase, hfly]
    exact h.closed
  · rw [hint, hlast]
    exact h.le

theorem intentRouting_ne : TurnPhase.intentRouting ≠ .inputCollection := by decide

theorem inFlight_dispatchFiredBarrier (h : t.room.lastDispatchedRound < t.turnManager.interaction) :
    t.dispatchFiredBarrier.inFlight = t.inFlight ++ [t.turnManager.interaction] := by
  rw [dispatchFiredBarrier, if_neg (Nat.not_le.mpr h)]

/-- A dispatch from a closed turn keeps the invariant: either it is elected and its narration is
    in flight, or it loses and some narration was in flight before. -/
theorem TurnInv.dispatch (hclosed : t.turnManager.phase ≠ .inputCollection)
    (hle : t.room.lastDispatchedRound ≤ t.turnManager.interaction)
    (hfly : t.room.lastDispatchedRound < t.turnManager.interaction ∨ t.inFlight ≠ []) :
    t.dispatchFiredBarrier.TurnInv := by
  rcases dispatchFiredBarrier_cases (t := t) with ⟨hlost, ht⟩ | ⟨-, ht⟩ <;> rw [ht]
  · have hne : t.inFlight ≠ [] := hfly.resolve_left (Nat.not_lt.mpr hlost)
    exact ⟨fun hp => absurd hp hclosed, fun _ => hne, hle⟩
  · refine ⟨fun hp => absurd hp hclosed, ?_, Nat.le_refl _⟩
    intro _
    show t.inFlight ++ [t.turnManager.interaction] ≠ []
    simp

theorem TurnInv.playerAction (h : t.TurnInv) (p n a : String) : (t.playerAction p n a).TurnInv := by
  rcases playerAction_cases p n a with ⟨hp, ht⟩ | ⟨hp, -, ht⟩ | ⟨hp, -, ht⟩ <;> rw [ht]
  · exact TurnInv.dispatch hp h.le (.inr (h.closed hp))
  · exact ⟨fun _ => h.opened hp, fun hne => absurd hp hne, h.le⟩
  · -- the barrier fires out of an open turn, whose interaction nobody has dispatched
    exact TurnInv.dispatch intentRouting_ne h.le (.inl (h.opened hp))

theorem TurnInv.clientError (h : t.TurnInv) (p : String) : (t.clientError p).TurnInv := by
  rcases clientError_cases p with ⟨-, ht⟩ | ⟨-, ht⟩ | ⟨hr, -, -, ht⟩ <;> rw [ht]
  · exact h
  · exact h.sameTurn ⟨rfl, rfl, rfl, rfl⟩
  · exact TurnInv.dispatch intentRouting_ne h.le (.inl (h.opened hr.2.2.1))

theorem TurnInv.recordInteraction (h : t.TurnInv) (fly : List Nat) :
    { t with inFlight := fly, turnManager := t.turnManager.recordInteraction }.TurnInv := by
  have hlt : t.room.lastDispatchedRound < t.turnManager.interaction + 1 := Nat.lt_succ_of_le h.le
  exact ⟨fun _ => hlt, fun hne => absurd rfl hne, Nat.le_of_lt hlt⟩

/-- A narration that ends keeps the invariant, unless it leaves a closed turn with no narration
    in flight. -/
theorem TurnInv.narrationEnds (h : t.TurnInv) {i : Nat} {c : Bool}
    (hok : t.EndsRecorded (.narrationEnds i c)) : (t.narrationEnds i c).TurnInv := by
  unfold Table.narrationEnds
  by_cases hi : i < t.inFlight.length
  · rw [if_pos hi]
    cases c with
    | true => exact h.recordInteraction _
    | false =>
      refine ⟨h.opened, ?_, h.le⟩
      intro hne hfly
      have hlen : (t.inFlight.eraseIdx i).length = t.inFlight.length - 1 :=
        List.length_eraseIdx_of_lt hi
      have hzero : (t.inFlight.eraseIdx i).length = 0 := List.length_eq_zero_iff.mpr hfly
      have hone : t.inFlight.length = 1 := by omega
      exact hne (hok rfl hi hone)
  · rw [if_neg hi]
    exact h

/-- **Step lemma.** -/
theorem TurnInv.step (h : t.TurnInv) {e : Event} (hok : t.EndsRecorded e) : (t.step e).TurnInv := by
  cases e with
  | connect p k c => exact h.sameTurn (sameTurn_connect p k c)
  | disconnect pick k => exact h.sameTurn (sameTurn_disconnect pick k)
  | playerAction p n a => exact h.playerAction p n a
  | clientError p => exact h.clientError p
  | narrationEnds i c => exact h.narrationEnds hok
  | otherNarration => exact h.recordInteraction t.inFlight
  | rebindWorld => exact h.sameTurn sameTurn_rebindWorld
  | _ => exact h.sameTurn ⟨rfl, rfl, rfl, rfl⟩

/-- The event that misses the condition wedges the table. -/
theorem not_unwedged_step {e : Event} (hnot : ¬ t.EndsRecorded e) : ¬ (t.step e).Unwedged := by
  intro hun
  apply hnot
  cases e with
  | narrationEnds i c =>
    intro hc hi hone
    subst hc
    have ht : t.step (.narrationEnds i false) = { t with inFlight := t.inFlight.eraseIdx i } := by
      show t.narrationEnds i false = _
      rw [Table.narrationEnds, if_pos hi]
      rfl
    rw [ht] at hun
    have hlen : (t.inFlight.eraseIdx i).length = t.inFlight.length - 1 :=
      List.length_eraseIdx_of_lt hi
    have hnil : t.inFlight.eraseIdx i = [] := List.length_eq_zero_iff.mp (by omega)
    exact (hun hnil).1
  | _ => trivial

/-- A turn that is open and not dispatched is dispatched by the action that completes it. -/
theorem inFlight_playerAction_of_complete (h : t.Unwedged) (hfly : t.inFlight = []) {p n a : String}
    (hfull : t.room.effectiveBarrierCount ≤ (insert p t.turnManager.submitted).card) :
    (t.playerAction p n a).inFlight = [t.turnManager.interaction] := by
  obtain ⟨hphase, hlt⟩ := h hfly
  rcases playerAction_cases p n a with ⟨hne, -⟩ | ⟨-, hfew, -⟩ | ⟨-, -, ht⟩
  · exact absurd hphase hne
  · exact absurd hfull (Nat.not_le.mpr hfew)
  · have helected : (t.playerAction p n a).inFlight
        = t.inFlight ++ [t.turnManager.interaction] := by
      rw [ht]
      exact inFlight_dispatchFiredBarrier hlt
    rw [helected, hfly, List.nil_append]

/-- **The round is never wedged**, over a run of a fresh room, if and only if the room opens over
    a world that collects input for a numbered interaction, and no narration ends unrecorded as
    the last one in flight of a closed turn; and in every state that is not wedged and has no
    narration in flight, the action that completes the submissions starts a dispatch. -/
theorem unwedged_iff_endsRecorded (slug : String) (mode : GameMode) (round interaction : Nat)
    (phase : TurnPhase) (playerCount : Nat) (es : List Event) :
    (Throughout step Unwedged (Table.init slug mode round interaction phase playerCount) es ↔
      (phase = .inputCollection ∧ 0 < interaction) ∧
        StepsMeet step EndsRecorded (Table.init slug mode round interaction phase playerCount) es) ∧
    ∀ t : Table, t.Unwedged → t.inFlight = [] → ∀ p n a : String,
      t.room.effectiveBarrierCount ≤ (insert p t.turnManager.submitted).card →
        (t.playerAction p n a).inFlight = [t.turnManager.interaction] := by
  refine ⟨?_, fun t ht hfly p n a hfull => inFlight_playerAction_of_complete ht hfly hfull⟩
  have hexact : phase = .inputCollection ∧ 0 < interaction →
      (Throughout step Unwedged (Table.init slug mode round interaction phase playerCount) es ↔
        StepsMeet step EndsRecorded
          (Table.init slug mode round interaction phase playerCount) es) := by
    intro hinit
    have hinv : (Table.init slug mode round interaction phase playerCount).TurnInv :=
      ⟨fun _ => hinit.2, fun hne => absurd hinit.1 hne, Nat.zero_le _⟩
    exact throughout_iff_stepsMeet (fun (t : Table) _ (h : t.TurnInv) hok => h.step hok)
      (fun _ h => h.unwedged) (fun _ _ _ hnot => not_unwedged_step hnot) hinv
  constructor
  · intro h
    have hfirst := throughout_iff_initial.mp h [] List.nil_prefix rfl
    exact ⟨hfirst, (hexact hfirst).mp h⟩
  · rintro ⟨hinit, hes⟩
    exact (hexact hinit).mpr hes

/-- Two players play a round, and the narrator gives up on it. -/
def abandonedRound : List Event :=
  [.connect "a" "s1" none, .connect "b" "s2" none,
    .seat "a" none, .transitionToPlaying "a", .seat "b" none, .transitionToPlaying "b",
    .playerAction "a" "Ana" "look", .playerAction "b" "Bo" "hide", .narrationEnds 0 false]

/-- After the narrator has given up the table is wedged: the turn stays closed, its interaction
    counts as dispatched, and the next complete set of submissions starts nothing. -/
theorem not_unwedged_of_abandonedRound :
    ¬ Throughout step Unwedged
      (Table.init "den" .multiplayer 1 1 .inputCollection 1) abandonedRound ∧
    (run step (Table.init "den" .multiplayer 1 1 .inputCollection 1)
      (abandonedRound ++
        [.playerAction "a" "Ana" "run", .playerAction "b" "Bo" "run"])).inFlight = [] := by
  constructor
  · intro h
    have hlast := h.last
    revert hlast
    unfold Unwedged
    decide
  · decide

/-- A round whose narration is recorded leaves the table open for the next one. -/
theorem unwedged_of_recordedRound :
    Throughout step Unwedged
      (Table.init "den" .multiplayer 1 1 .inputCollection 1)
      [.connect "a" "s1" none, .connect "b" "s2" none,
        .seat "a" none, .transitionToPlaying "a", .seat "b" none, .transitionToPlaying "b",
        .playerAction "a" "Ana" "look", .playerAction "b" "Bo" "hide", .narrationEnds 0 true,
        .playerAction "b" "Bo" "run"] :=
  (unwedged_iff_endsRecorded "den" .multiplayer 1 1 .inputCollection 1 _).1.mpr
    ⟨by decide, by decide⟩

/-! ### A handler split at the dispatch lock -/

/-- What a handler does up to the dispatch lock, and whether it goes on to ask for the lock. -/
def barrierSection (t : Table) : Event → Table × Bool
  | .playerAction p n a =>
    let turnManager :=
      (t.turnManager.setPlayerCount
        (t.room.recordPendingAction p n a).effectiveBarrierCount).submitInput p
    (t.recordAction p n a turnManager, turnManager.phase ≠ .inputCollection)
  | .clientError p =>
    if t.CrashReleases p then
      let room := t.room.markCrashReleased p
      let (turnManager, fired) := t.turnManager.recheckBarrier room.effectiveBarrierCount
      ({ t with room, turnManager }, fired)
    else (t, false)
  | e => (t.step e, false)

/-- A handler is its section up to the lock, followed by the dispatch if it asks for one. -/
theorem step_eq_barrierSection (e : Event) : t.step e =
      if (t.barrierSection e).2 then (t.barrierSection e).1.dispatchFiredBarrier
      else (t.barrierSection e).1 := by
  cases e with
  | playerAction p n a =>
    show t.playerAction p n a = _
    unfold playerAction barrierSection
    by_cases hphase : ((t.turnManager.setPlayerCount
        (t.room.recordPendingAction p n a).effectiveBarrierCount).submitInput p).phase
        = .inputCollection
    · rw [if_pos hphase, if_neg (by simp [hphase])]
      rfl
    · rw [if_neg hphase, if_pos (by simp [hphase])]
      rfl
  | clientError p =>
    show t.clientError p = _
    by_cases hr : t.CrashReleases p
    · have hsection : t.barrierSection (.clientError p) =
          let check :=
            t.turnManager.recheckBarrier (t.room.markCrashReleased p).effectiveBarrierCount
          ({ t with room := t.room.markCrashReleased p, turnManager := check.1 }, check.2) :=
        if_pos hr
      obtain ⟨hp, hpend, hphase, hsub⟩ := hr
      rw [hsection, clientError, if_neg hp, if_neg (by simp [hpend]),
        if_neg (not_not_intro hphase), if_neg hsub]
    · have hsection : t.barrierSection (.clientError p) = (t, false) := if_neg hr
      rw [hsection]
      rcases clientError_cases p with ⟨-, ht⟩ | ⟨hr', -⟩ | ⟨hr', -⟩
      · rw [ht]
        rfl
      · exact absurd hr' hr
      · exact absurd hr' hr
  | _ => rfl

/-- Up to the lock nothing is dispatched: the mark of the last dispatch stays, and no narration
    joins those in flight. -/
theorem barrierSection_undispatched (e : Event) :
    (t.barrierSection e).1.room.lastDispatchedRound = t.room.lastDispatchedRound ∧
      (t.barrierSection e).1.inFlight.length ≤ t.inFlight.length := by
  have hsame : ∀ t' : Table, SameTurn t t' →
      t'.room.lastDispatchedRound = t.room.lastDispatchedRound ∧
        t'.inFlight.length ≤ t.inFlight.length := by
    intro t' hs
    rw [hs.lastDispatchedRound, hs.inFlight]
    exact ⟨rfl, Nat.le_refl _⟩
  cases e with
  | connect p k c => exact hsame _ (sameTurn_connect p k c)
  | disconnect pick k => exact hsame _ (sameTurn_disconnect pick k)
  | playerAction p n a => exact ⟨rfl, Nat.le_refl _⟩
  | clientError p =>
    unfold barrierSection
    dsimp only
    split
    · exact ⟨rfl, Nat.le_refl _⟩
    · exact hsame t (SameTurn.refl t)
  | narrationEnds i c =>
    show (t.narrationEnds i c).room.lastDispatchedRound = _ ∧
      (t.narrationEnds i c).inFlight.length ≤ _
    rcases narrationEnds_cases i c with ht | ⟨-, ht⟩ | ⟨-, -, ht⟩ <;> rw [ht]
    · exact ⟨rfl, Nat.le_refl _⟩
    · exact ⟨rfl, List.length_eraseIdx_le _ _⟩
    · exact ⟨rfl, List.length_eraseIdx_le _ _⟩
  | rebindWorld => exact hsame _ sameTurn_rebindWorld
  | _ => exact ⟨rfl, Nat.le_refl _⟩

end Table

/-! ### The election of a dispatcher -/

/-- A table with the handlers that have seen a fired barrier and have not got the dispatch lock
    yet. -/
structure Election where
  table : Table
  waiting : Nat := 0

/-- One move of an interleaving: a handler runs up to the lock, or a waiting one gets it. -/
inductive Move where
  | arrive (e : Table.Event)
  | dispatch

namespace Election

/-- One move. -/
def step (c : Election) : Move → Election
  | .arrive e =>
    { table := (c.table.barrierSection e).1
      waiting := if (c.table.barrierSection e).2 then c.waiting + 1 else c.waiting }
  | .dispatch =>
    if c.waiting = 0 then c
    else { table := c.table.dispatchFiredBarrier, waiting := c.waiting - 1 }

/-- The interactions whose narration a move puts in flight. -/
def started (c : Election) (m : Move) : List Nat :=
  (c.step m).table.inFlight.drop c.table.inFlight.length

/-- The interactions dispatched by an interleaving, in order. -/
def dispatches : Election → List Move → List Nat
  | _, [] => []
  | c, m :: ms => c.started m ++ (c.step m).dispatches ms

/-- The values of `last_dispatched_round` after the first one, one for each change. -/
def newRounds : Election → List Move → List Nat
  | _, [] => []
  | c, m :: ms =>
    let next := (c.step m).table.room.lastDispatchedRound
    if next = c.table.room.lastDispatchedRound then (c.step m).newRounds ms
    else next :: (c.step m).newRounds ms

/-- The sequence of values taken by `last_dispatched_round`. -/
def rounds (c : Election) (ms : List Move) : List Nat :=
  c.table.room.lastDispatchedRound :: c.newRounds ms

variable {c : Election}

/-- **Step lemma.** A move starts nothing and leaves the mark of the last dispatch, or it starts
    one dispatch, of a later interaction than the mark, and moves the mark there. -/
theorem step_cases (m : Move) : (c.started m = [] ∧
      (c.step m).table.room.lastDispatchedRound = c.table.room.lastDispatchedRound) ∨
    ∃ n, c.started m = [n] ∧ (c.step m).table.room.lastDispatchedRound = n ∧
      c.table.room.lastDispatchedRound < n := by
  cases m with
  | arrive e =>
    left
    have hframe := Table.barrierSection_undispatched (t := c.table) e
    refine ⟨?_, hframe.1⟩
    exact List.drop_eq_nil_of_le hframe.2
  | dispatch =>
    by_cases hwait : c.waiting = 0
    · left
      have hstep : c.step .dispatch = c := if_pos hwait
      rw [started, hstep]
      exact ⟨List.drop_length, rfl⟩
    · have hstep : (c.step .dispatch).table = c.table.dispatchFiredBarrier := by
        rw [step, if_neg hwait]
      rw [started, hstep]
      rcases Table.dispatchFiredBarrier_cases (t := c.table) with ⟨-, ht⟩ | ⟨hlt, ht⟩ <;> rw [ht]
      · left
        exact ⟨List.drop_length, rfl⟩
      · right
        exact ⟨c.table.turnManager.interaction, List.drop_left, rfl, hlt⟩

/-- Every change of the mark is a dispatch, and every dispatch changes the mark. -/
theorem newRounds_eq_dispatches (c : Election) (ms : List Move) :
    c.newRounds ms = c.dispatches ms := by
  induction ms generalizing c with
  | nil => rfl
  | cons m ms ih =>
    rw [newRounds, dispatches]
    rcases step_cases (c := c) m with ⟨hs, hl⟩ | ⟨n, hs, hl, hlt⟩
    · rw [if_pos hl, hs, ih, List.nil_append]
    · have hne : (c.step m).table.room.lastDispatchedRound ≠ c.table.room.lastDispatchedRound := by
        omega
      rw [if_neg hne, hs, ih, hl]
      rfl

/-- The dispatches of an interleaving lie above the mark it starts from, in increasing order. -/
theorem pairwise_dispatches (c : Election) (ms : List Move) :
    (c.table.room.lastDispatchedRound :: c.dispatches ms).Pairwise (· < ·) := by
  induction ms generalizing c with
  | nil => exact List.pairwise_singleton _ _
  | cons m ms ih =>
    have htail := ih (c.step m)
    rw [dispatches]
    rcases step_cases (c := c) m with ⟨hs, hl⟩ | ⟨n, hs, hl, hlt⟩
    · rw [hs, List.nil_append, ← hl]
      exact htail
    · rw [hl] at htail
      rw [hs]
      refine List.pairwise_cons.mpr ⟨?_, htail⟩
      intro k hk
      rcases List.mem_cons.mp hk with rfl | hk
      · exact hlt
      · exact lt_trans hlt (List.rel_of_pairwise_cons htail hk)

/-- **One dispatch per interaction.** In every interleaving of handlers and waiting dispatchers,
    from any state of a room, no interaction is dispatched twice, the dispatched interactions
    increase, and so do the values taken by `last_dispatched_round`. -/
theorem dispatches_increasing (c : Election) (ms : List Move) :
    (∀ n, (c.dispatches ms).count n ≤ 1) ∧ (c.dispatches ms).Pairwise (· < ·) ∧
      (c.rounds ms).Pairwise (· < ·) := by
  have hall := pairwise_dispatches c ms
  have hincr : (c.dispatches ms).Pairwise (· < ·) := (List.pairwise_cons.mp hall).2
  refine ⟨?_, hincr, ?_⟩
  · have hnodup : (c.dispatches ms).Nodup := hincr.imp Nat.ne_of_lt
    exact List.nodup_iff_count_le_one.mp hnodup
  · rw [rounds, newRounds_eq_dispatches]
    exact hall

end Election

end Sidequest.Room
