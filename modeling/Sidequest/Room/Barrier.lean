import Sidequest.Room.Table

namespace Sidequest.Room

open Lib

/-!
# The turn barrier

The barrier compares the number of submitted players with a difference of sizes. Two questions
about it, over every run of a table:

* is the count the number of players the turn waits for (`CountExact`)?
  `countExact_of_releasesPlaying`: yes while only playing seats are released and no released
  player gives a seat up. A release of any other player makes it too small;
* does a fired barrier leave nobody out (`SealsWhole`)? `sealsWhole_of_countsReady`: yes while,
  besides, only awaited players submit and nobody who has submitted is taken out of the turn.
-/

variable (t : Table) (e : Event)

namespace Table

/-! ### The questions -/

/-- The count of the barrier is the number of players the turn waits for. -/
def CountExact : Prop := t.room.effectiveBarrierCount = t.room.awaited.card

/-- The submitted players the barrier counts at an event: those submitted before it, and the
    player who submits with it. -/
def counted : Event → Finset String
  | .playerAction p _ _ =>
    if t.turnManager.phase = .inputCollection then insert p t.turnManager.submitted
    else t.turnManager.submitted
  | _ => t.turnManager.submitted

/-- The room the barrier reads at an event: a crash signal releases its player first. -/
def roomAtBarrier : Event → SessionRoom
  | .clientError p => t.room.markCrashReleased p
  | _ => t.room

/-- If the event moves the turn from input collection to routing, every player the turn waits
    for is among the submitted players the barrier counted. -/
def SealsWhole : Prop :=
  t.turnManager.phase = .inputCollection →
  (t.step e).turnManager.phase = .intentRouting →
  (t.roomAtBarrier e).awaited ⊆ t.counted e

/-! ### The conditions on events -/

/-- The player an event takes out of the turn, if any: by a release, or by a seat claimed anew
    or given up. -/
def withdraws : Event → Option String
  | .clientError p => if t.CrashReleases p then some p else none
  | .markTableFolded p => some p
  | .seat p _ => some p
  | .unseat p => some p
  | _ => none

/-- The event keeps released players playing: a release is of a playing player, and a seat
    claimed anew or given up is not a released player's. -/
def ReleasesPlaying : Event → Prop
  | .clientError p => t.CrashReleases p → p ∈ t.room.playing
  | .markTableFolded p => p ∈ t.room.playing
  | .seat p _ => p ∉ t.room.released
  | .unseat p => p ∉ t.room.released
  | _ => True

/-- An action counted by the barrier is an awaited player's. -/
def SubmitsAwaited : Event → Prop
  | .playerAction p _ _ => t.turnManager.phase = .inputCollection → p ∈ t.room.awaited
  | _ => True

/-- The event keeps the count honest: released players stay playing, awaited players only are
    counted, and nobody who has submitted is taken out. -/
def CountsReady : Prop :=
  t.ReleasesPlaying e ∧ t.SubmitsAwaited e ∧ ∀ p ∈ t.withdraws e, p ∉ t.turnManager.submitted

instance (t : Table) (e : Event) : Decidable (t.ReleasesPlaying e) := by
  cases e <;> unfold ReleasesPlaying <;> infer_instance

instance (t : Table) (e : Event) : Decidable (t.SubmitsAwaited e) := by
  cases e <;> unfold SubmitsAwaited <;> infer_instance

instance (t : Table) (e : Event) : Decidable (t.CountsReady e) :=
  inferInstanceAs (Decidable (_ ∧ _))

/-! ### One event keeps the counting discipline -/

/-- The counting discipline for a set of arrivals at a table. -/
def Disciplined (s : Finset String) : Prop :=
  Counted t.room.playing t.room.released s

variable {t : Table} {s : Finset String}

theorem Disciplined.sameRound (h : t.Disciplined s) {room : SessionRoom}
    (hr : SessionRoom.SameRound t.room room) : Counted room.playing room.released s := by
  rw [hr.playing, hr.released]
  exact h

/-- A dispatch only takes releases back. -/
theorem Disciplined.dispatch (h : t.Disciplined s) : t.dispatchFiredBarrier.Disciplined s := by
  refine Counted.mono h ?_ released_dispatchFiredBarrier_subset (Finset.Subset.refl s)
  rw [playing_dispatchFiredBarrier]

/-- Buffering an action moves neither seats nor releases. -/
theorem Disciplined.playerAction (h : t.Disciplined s) (p n a : String) :
    (t.playerAction p n a).Disciplined s := by
  have hrecord : ∀ tm, (t.recordAction p n a tm).Disciplined s := fun _ => h
  rcases playerAction_cases p n a with ⟨-, ht⟩ | ⟨-, -, ht⟩ | ⟨-, -, ht⟩ <;> rw [ht]
  · exact (hrecord _).dispatch
  · exact hrecord _
  · exact (hrecord _).dispatch

/-- The release of a crashed player who is playing and has not arrived. -/
theorem Disciplined.clientError (h : t.Disciplined s) {p : String}
    (hplay : t.CrashReleases p → p ∈ t.room.playing) (hs : t.CrashReleases p → p ∉ s) :
    (t.clientError p).Disciplined s := by
  have hmark : t.CrashReleases p →
      Counted (t.room.markCrashReleased p).playing (t.room.markCrashReleased p).released s := by
    intro hr
    rw [SessionRoom.playing_markCrashReleased, SessionRoom.released_markCrashReleased]
    exact Counted.release h (hplay hr) (hs hr)
  rcases clientError_cases p with ⟨-, ht⟩ | ⟨hr, ht⟩ | ⟨hr, -, -, ht⟩ <;> rw [ht]
  · exact h
  · exact hmark hr
  · exact Disciplined.dispatch (hmark hr)

/-- **Step lemma.** An event that keeps released players playing keeps the discipline for every
    set of arrivals it takes nobody out of. -/
theorem Disciplined.step (h : t.Disciplined s) {e : Event} (hok : t.ReleasesPlaying e)
    (hs : ∀ p ∈ t.withdraws e, p ∉ s) : (t.step e).Disciplined s := by
  cases e with
  | connect p k c =>
    rcases step_connect_cases p k c with ht | ⟨room, hroom, ht⟩ <;> rw [ht]
    · exact h
    · exact h.sameRound hroom
  | setPlayerIdentity p i => exact h.sameRound (SessionRoom.sameRound_setPlayerIdentity p i)
  | disconnect pick k => exact h.sameRound (SessionRoom.sameRound_disconnect pick k)
  | seat p c =>
    show Counted (t.room.seat p c).playing t.room.released s
    rw [SessionRoom.playing_seat]
    exact Counted.leave h hok (hs p rfl)
  | transitionToPlaying p =>
    exact Counted.mono h (SessionRoom.playing_subset_transitionToPlaying p)
      (Finset.Subset.refl _) (Finset.Subset.refl _)
  | unseat p =>
    show Counted (t.room.unseat p).playing t.room.released s
    rw [SessionRoom.playing_unseat]
    exact Counted.leave h hok (hs p rfl)
  | playerAction p n a => exact h.playerAction p n a
  | clientError p => exact h.clientError hok (fun hr => hs p (if_pos hr))
  | markTableFolded p =>
    show Counted t.room.playing (t.room.markTableFolded p).released s
    rw [SessionRoom.released_markTableFolded]
    exact Counted.release h hok (hs p rfl)
  | clearTableFolds =>
    exact Counted.mono h (Finset.Subset.refl _) SessionRoom.released_clearTableFolds_subset
      (Finset.Subset.refl _)
  | narrationEnds i c =>
    show (t.narrationEnds i c).Disciplined s
    rcases narrationEnds_cases i c with ht | ⟨-, ht⟩ | ⟨-, -, ht⟩ <;> rw [ht] <;> exact h
  | otherNarration => exact h
  | rebindWorld =>
    show t.rebindWorld.Disciplined s
    rcases rebindWorld_cases with ht | ht <;> rw [ht] <;> exact h

theorem counted_playerAction_of_phase (p n a : String)
    (h : t.turnManager.phase = .inputCollection) :
    t.counted (.playerAction p n a) = insert p t.turnManager.submitted := if_pos h

theorem counted_playerAction_of_phase_ne (p n a : String)
    (h : t.turnManager.phase ≠ .inputCollection) :
    t.counted (.playerAction p n a) = t.turnManager.submitted := if_neg h

/-- Nothing but the counted players stays submitted after an event. -/
theorem submitted_step_subset : (t.step e).turnManager.submitted ⊆ t.counted e := by
  cases e with
  | connect p k c =>
    rcases step_connect_cases p k c with ht | ⟨room, -, ht⟩ <;> rw [ht] <;> rfl
  | playerAction p n a =>
    show (t.playerAction p n a).turnManager.submitted ⊆ t.counted (.playerAction p n a)
    rcases playerAction_cases p n a with ⟨hp, ht⟩ | ⟨hp, -, ht⟩ | ⟨hp, -, ht⟩ <;> rw [ht]
    · rw [turnManager_dispatchFiredBarrier, counted_playerAction_of_phase_ne p n a hp]
      rfl
    · rw [counted_playerAction_of_phase p n a hp]
      rfl
    · rw [turnManager_dispatchFiredBarrier]
      exact Finset.empty_subset _
  | clientError p =>
    show (t.clientError p).turnManager.submitted ⊆ t.turnManager.submitted
    rcases clientError_cases p with ⟨-, ht⟩ | ⟨-, ht⟩ | ⟨-, -, -, ht⟩ <;> rw [ht]
    rw [turnManager_dispatchFiredBarrier]
    exact Finset.empty_subset _
  | narrationEnds i c =>
    show (t.narrationEnds i c).turnManager.submitted ⊆ t.turnManager.submitted
    rcases narrationEnds_cases i c with ht | ⟨-, ht⟩ | ⟨-, -, ht⟩ <;> rw [ht]
    exact Finset.empty_subset _
  | otherNarration => exact Finset.empty_subset _
  | rebindWorld =>
    show t.rebindWorld.turnManager.submitted ⊆ t.turnManager.submitted
    rcases rebindWorld_cases with ht | ht <;> rw [ht]
    exact Finset.empty_subset _
  | _ => exact Finset.Subset.refl _

theorem Disciplined.counted (h : t.Disciplined t.turnManager.submitted) {e : Event}
    (hok : t.SubmitsAwaited e) : t.Disciplined (t.counted e) := by
  cases e with
  | playerAction p n a =>
    by_cases hphase : t.turnManager.phase = .inputCollection
    · rw [counted_playerAction_of_phase p n a hphase]
      apply Counted.arrive h
      rw [← SessionRoom.awaited_eq_sdiff]
      exact hok hphase
    · rw [counted_playerAction_of_phase_ne p n a hphase]
      exact h
  | _ => exact h

/-- The discipline of the submitted players survives an event that keeps the count honest. -/
theorem Disciplined.step_submitted (h : t.Disciplined t.turnManager.submitted) {e : Event}
    (hok : t.CountsReady e) : (t.step e).Disciplined (t.step e).turnManager.submitted := by
  obtain ⟨hrel, hsub, hwith⟩ := hok
  have hcounted : (t.step e).Disciplined (t.counted e) := by
    apply (h.counted hsub).step hrel
    -- an event that counts a new player takes nobody out of the turn
    cases e with
    | playerAction p n a => exact fun q hq => absurd hq (by simp [withdraws])
    | _ => exact hwith
  exact Counted.mono hcounted (Finset.Subset.refl _) (Finset.Subset.refl _)
    (submitted_step_subset e)

/-! ### The barrier at one event -/

theorem awaited_subset_of_count_le {room : SessionRoom}
    (h : Counted room.playing room.released s) (hle : room.effectiveBarrierCount ≤ s.card) :
    room.awaited ⊆ s := by
  rw [SessionRoom.effectiveBarrierCount_eq_card_sub] at hle
  rw [SessionRoom.awaited_eq_sdiff]
  exact h.complete hle

theorem Disciplined.sealsWhole (h : t.Disciplined t.turnManager.submitted) {e : Event}
    (hok : t.CountsReady e) : t.SealsWhole e := by
  intro hphase hfired
  obtain ⟨hrel, hsub, hwith⟩ := hok
  have hstay : ∀ phase : TurnPhase, phase = .inputCollection → phase ≠ .intentRouting := by
    intro phase h
    rw [h]
    decide
  cases e with
  | playerAction p n a =>
    have hcounted := h.counted hsub
    rw [counted_playerAction_of_phase p n a hphase] at hcounted
    show t.room.awaited ⊆ t.counted (.playerAction p n a)
    rw [counted_playerAction_of_phase p n a hphase]
    change (t.playerAction p n a).turnManager.phase = .intentRouting at hfired
    rcases playerAction_cases p n a with ⟨hp, -⟩ | ⟨-, -, ht⟩ | ⟨-, hle, -⟩
    · exact absurd hphase hp
    · -- the barrier went on waiting, so the phase did not move
      rw [ht] at hfired
      exact absurd hfired (hstay _ hphase)
    · exact awaited_subset_of_count_le hcounted hle
  | clientError p =>
    show (t.room.markCrashReleased p).awaited ⊆ t.turnManager.submitted
    change (t.clientError p).turnManager.phase = .intentRouting at hfired
    rcases clientError_cases p with ⟨-, ht⟩ | ⟨-, ht⟩ | ⟨hr, -, hle, -⟩
    · rw [ht] at hfired
      exact absurd hfired (hstay _ hphase)
    · rw [ht] at hfired
      exact absurd hfired (hstay _ hphase)
    · refine awaited_subset_of_count_le ?_ hle
      rw [SessionRoom.playing_markCrashReleased, SessionRoom.released_markCrashReleased]
      exact Counted.release h (hrel hr) hr.2.2.2
  | connect p k c =>
    rcases step_connect_cases p k c with ht | ⟨room, -, ht⟩ <;> rw [ht] at hfired
    · exact absurd hfired (hstay _ hphase)
    · exact absurd hfired (hstay _ hphase)
  | narrationEnds i c =>
    change (t.narrationEnds i c).turnManager.phase = .intentRouting at hfired
    rcases narrationEnds_cases i c with ht | ⟨-, ht⟩ | ⟨-, -, ht⟩ <;> rw [ht] at hfired
    · exact absurd hfired (hstay _ hphase)
    · exact absurd hfired (hstay _ hphase)
    · exact absurd hfired (hstay _ rfl)
  | otherNarration => exact absurd hfired (hstay _ rfl)
  | rebindWorld =>
    change t.rebindWorld.turnManager.phase = .intentRouting at hfired
    rcases rebindWorld_cases with ht | ht <;> rw [ht] at hfired
    · exact absurd hfired (hstay _ hphase)
    · exact absurd hfired (hstay _ hphase)
  | _ => exact absurd hfired (hstay _ hphase)

/-! ### Whole runs -/

/-- Nothing is released and nothing submitted at a fresh room. -/
theorem disciplined_init (slug : String) (mode : GameMode) (round interaction : Nat)
    (phase : TurnPhase) (playerCount : Nat) :
    (Table.init slug mode round interaction phase playerCount).Disciplined ∅ :=
  ⟨Finset.empty_subset _, Finset.empty_subset _⟩

theorem Disciplined.countExact (h : t.Disciplined s) : t.CountExact :=
  SessionRoom.effectiveBarrierCount_eq_iff.mpr (.inl h.released)

/-- **The count over a run.** It is the number of awaited players in every state exactly if the
    released players are always all playing or include everybody who is. -/
theorem countExact_of_releasesPlaying (slug : String) (mode : GameMode) (round interaction : Nat)
    (phase : TurnPhase) (playerCount : Nat) (es : List Event) :
    (Throughout step CountExact (Table.init slug mode round interaction phase playerCount) es ↔
      Throughout step (fun t => t.room.released ⊆ t.room.playing ∨ t.room.playing ⊆ t.room.released)
        (Table.init slug mode round interaction phase playerCount) es) ∧
    (StepsMeet step ReleasesPlaying (Table.init slug mode round interaction phase playerCount) es →
      Throughout step CountExact
        (Table.init slug mode round interaction phase playerCount) es) := by
  refine ⟨⟨fun h => h.mono fun _ => SessionRoom.effectiveBarrierCount_eq_iff.mp,
    fun h => h.mono fun _ => SessionRoom.effectiveBarrierCount_eq_iff.mpr⟩, ?_⟩
  intro hes
  have hinv := throughout_of_invariant
    (fun (t : Table) e (h : t.Disciplined ∅) hok => h.step hok (fun p _ => Finset.notMem_empty p))
    (disciplined_init slug mode round interaction phase playerCount) hes
  exact hinv.mono fun _ h => h.countExact

/-- Three players at the table and a fourth still in character generation. -/
def threeAndANewcomer : List Event :=
  [.connect "a" "s1" none, .connect "b" "s2" none, .connect "c" "s3" none,
    .connect "d" "s4" none,
    .seat "a" none, .transitionToPlaying "a", .seat "b" none, .transitionToPlaying "b",
    .seat "c" none, .transitionToPlaying "c", .seat "d" none]

/-- The newcomer's client crashes while the table waits: the barrier then counts two players
    where it waits for three. -/
theorem not_countExact_of_chargen_crash :
    ¬ Throughout step CountExact
      (Table.init "den" .multiplayer 1 1 .inputCollection 1)
      (threeAndANewcomer ++ [.playerAction "a" "Ana" "look", .clientError "d"]) := by
  intro h
  have hlast := h.last
  revert hlast
  unfold CountExact
  decide

/-- A crash of a playing player keeps the count exact. -/
theorem countExact_of_playing_crash :
    Throughout step CountExact
      (Table.init "den" .multiplayer 1 1 .inputCollection 1)
      (threeAndANewcomer ++ [.playerAction "a" "Ana" "look", .clientError "b"]) :=
  (countExact_of_releasesPlaying "den" .multiplayer 1 1 .inputCollection 1 _).2
    (by decide)

/-- **No awaited player is left out** in runs whose events keep the count honest. -/
theorem sealsWhole_of_countsReady (slug : String) (mode : GameMode) (round interaction : Nat)
    (phase : TurnPhase) (playerCount : Nat) (es : List Event) (hes : StepsMeet step CountsReady
      (Table.init slug mode round interaction phase playerCount) es) :
    StepsMeet step SealsWhole (Table.init slug mode round interaction phase playerCount) es :=
  stepsMeet_of_invariant
    (fun (t : Table) _ (h : t.Disciplined t.turnManager.submitted) hok => h.step_submitted hok)
    (fun _ _ h hok => h.sealsWhole hok)
    (disciplined_init slug mode round interaction phase playerCount) hes

/-- The newcomer acts out of character generation and is counted: the barrier fires without the
    third player. -/
theorem not_sealsWhole_of_chargen_action :
    ¬ StepsMeet step SealsWhole
      (Table.init "den" .multiplayer 1 1 .inputCollection 1)
      (threeAndANewcomer ++ [.playerAction "d" "Dee" "wave", .playerAction "a" "Ana" "look",
        .playerAction "b" "Bo" "hide"]) := by
  intro h
  have hseal := stepsMeet_iff_forall.mp h (threeAndANewcomer ++
    [.playerAction "d" "Dee" "wave", .playerAction "a" "Ana" "look"])
    (.playerAction "b" "Bo" "hide") [] rfl
  revert hseal
  unfold SealsWhole
  decide

/-- A full round of the three players seals whole. -/
theorem sealsWhole_of_round :
    StepsMeet step SealsWhole
      (Table.init "den" .multiplayer 1 1 .inputCollection 1)
      (threeAndANewcomer ++ [.playerAction "c" "Cy" "wait", .playerAction "a" "Ana" "look",
        .playerAction "b" "Bo" "hide"]) :=
  sealsWhole_of_countsReady "den" .multiplayer 1 1 .inputCollection 1 _ (by decide)

end Table

end Sidequest.Room
