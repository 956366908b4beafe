import Sidequest.Lib.Barrier
import Sidequest.Lib.Dict
import Sidequest.Lib.PyString
import Sidequest.Lib.Run

namespace Sidequest.Room

open Lib

/-!
# The table: a room, its turn manager and the narrations in flight

The handlers of a multiplayer room as one transition system. An event is the part of a handler
that runs without giving up the event loop; a fired barrier elects its dispatcher and drains
the buffer in the same part, since nothing inside the dispatch lock waits.

* the operations of the room, under the source's names;
* `TurnManager.submitInput` / `recheckBarrier` — the two checks of the barrier;
* `Ledger` — what becomes of every recorded action: a ghost of the room's buffer that gives
  each recorded action a number of its own;
* `Table.playerAction`, `Table.clientError`, `Table.dispatchFiredBarrier` — the handlers;
* `Table.step` — one event; an event its handler rejects changes nothing.
-/

section

/-- Single-player rooms admit one player; multiplayer rooms any number. -/
inductive GameMode where
  | solo
  | multiplayer

/-- Lifecycle of a peer's lobby slot. -/
inductive LobbyState where
  | connected
  | claimingSeat
  | chargen
  | playing
  | abandoned
deriving DecidableEq

/-- A claimed seat. A fresh claim starts in character generation. -/
structure Seat where
  playerId : String
  characterSlot : Option String := none
  state : LobbyState := .chargen

/-- A buffered player action awaiting the round barrier. -/
structure PendingAction where
  (characterName action : String)

/-- The room of one game slug. -/
structure SessionRoom where
  slug : String
  mode : GameMode
  connected : Dict String String := .empty
  sockets : Dict String String := .empty
  playerSockets : Dict String (Finset String) := .empty
  seated : Dict String Seat := .empty
  playerIdentities : Dict String String := .empty
  pendingActions : Dict String PendingAction := .empty
  lastDispatchedRound : Nat := 0
  crashReleased : Finset String := ∅
  tableFolded : Finset String := ∅

/-- Raised when a second player tries to connect to a solo game. -/
structure SoloSlotConflict where
  message : String

namespace SessionRoom

variable (room : SessionRoom)

/-! ### Presence -/

variable (playerId : String)

/-- Bind a socket to a player. A solo room turns away a second player, unless the player names,
    as the owner of their companion bond, the resolved identity of an occupant. -/
def connect (socketId : String) (companionOf : Option String) :
    Except SoloSlotConflict SessionRoom :=
  let others := room.connected.keys.filter (· ≠ playerId)
  let claimedOwner := strip (companionOf.getD "")
  let bondedOwner :=
    others.find? (fun p => claimedOwner ≠ "" ∧ room.playerIdentities.get? p = some claimedOwner)
  match room.mode, others, bondedOwner with
  | .solo, other :: _, none =>
    .error ⟨"solo game " ++ room.slug ++ " already occupied by " ++ other⟩
  | _, _, _ =>
    .ok { room with
      connected := room.connected.insert playerId socketId
      sockets := room.sockets.insert socketId playerId
      playerSockets := room.playerSockets.insert playerId
        (insert socketId ((room.playerSockets.get? playerId).getD ∅)) }

/-- Bind the identity resolved for a player's connection. -/
def setPlayerIdentity (identity : String) : SessionRoom :=
  { room with playerIdentities := room.playerIdentities.insert playerId identity }

/-- Close a seat whose player left during character generation. -/
def abandonChargen : SessionRoom :=
  { room with
    seated := room.seated.modify playerId
      (fun s => if s.state = .chargen then { s with state := .abandoned } else s) }

/-- Close a socket. Presence is counted per player: only the last socket of a player ends it,
    and then a seat still in character generation is abandoned. `pick` chooses the socket that
    stands in for a closed one among those still open. Returns the player who left, if any. -/
def disconnect (pick : Finset String → String) (socketId : String) : SessionRoom × Option String :=
  match room.sockets.get? socketId with
  | none => (room, none)
  | some playerId =>
    let room := { room with sockets := room.sockets.erase socketId }
    match room.playerSockets.get? playerId with
    | some live =>
      let live := live.erase socketId
      if live = ∅ then
        let room := { room with
          playerSockets := room.playerSockets.erase playerId
          playerIdentities := room.playerIdentities.erase playerId }
        (leave room playerId, some playerId)
      else
        let room := { room with playerSockets := room.playerSockets.insert playerId live }
        if room.connected.get? playerId = some socketId then
          ({ room with connected := room.connected.insert playerId (pick live) }, none)
        else (room, none)
    | none => (leave room playerId, some playerId)
where
  /-- Presence ends: the handle is dropped if it is this socket's, the seat if uncommitted. -/
  leave (room : SessionRoom) (playerId : String) : SessionRoom :=
    abandonChargen
      (if room.connected.get? playerId = some socketId then
        { room with connected := room.connected.erase playerId } else room)
      playerId

/-! ### Seats -/

/-- Claim a seat; a claim always restarts at character generation. -/
def seat (characterSlot : Option String) : SessionRoom :=
  { room with seated := room.seated.insert playerId { playerId, characterSlot } }

/-- Flip a seat to playing; nothing happens without a seat. -/
def transitionToPlaying : SessionRoom :=
  { room with seated := room.seated.modify playerId (fun s => { s with state := .playing }) }

/-- Give a seat up. -/
def unseat : SessionRoom :=
  { room with seated := room.seated.erase playerId }

/-- The players whose character is committed and in the world. -/
def playingPlayerIds : List String :=
  (room.seated.entries.filter (fun e => e.2.state = .playing)).map Prod.fst

/-! ### The round's buffer and its releases -/

/-- Buffer one player's action for the current round; the last write wins. -/
def recordPendingAction (characterName action : String) : SessionRoom :=
  { room with pendingActions := room.pendingActions.insert playerId { characterName, action } }

/-- Some action is buffered. -/
def hasPendingActions : Bool := !room.pendingActions.entries.isEmpty

/-- Drop a crashed player from this interaction's count. -/
def markCrashReleased : SessionRoom :=
  { room with crashReleased := insert playerId room.crashReleased }

/-- Drop a folded table seat from the count until the hand ends. -/
def markTableFolded : SessionRoom :=
  { room with tableFolded := insert playerId room.tableFolded }

/-- The hand has ended: folded seats count again. -/
def clearTableFolds : SessionRoom := { room with tableFolded := ∅ }

/-- The players in either release set. -/
def released : Finset String := room.crashReleased ∪ room.tableFolded

/-- The submissions the barrier needs: playing seats less released players, by size. The
    truncated subtraction is the source's `max(0, playing - released)`. -/
def effectiveBarrierCount : Nat :=
  (room.seated.values.filter (fun s => s.state = .playing)).length - room.released.card

/-- Empty the buffer in order of submission; crash releases end with the interaction. -/
def drainPendingActions : SessionRoom × List (String × PendingAction) :=
  ({ room with pendingActions := .empty, crashReleased := ∅ }, room.pendingActions.entries)

/-! ### The players a turn waits for -/

/-- The playing players, as a set. -/
def playing : Finset String := room.playingPlayerIds.toFinset

/-- The players a turn is meant to wait for: playing, not crash-released, not folded. -/
def awaited : Finset String :=
  room.playing.filter (fun p => p ∉ room.crashReleased ∧ p ∉ room.tableFolded)

variable {room}

theorem nodup_playingPlayerIds : room.playingPlayerIds.Nodup :=
  room.seated.nodup.sublist (List.Sublist.map Prod.fst List.filter_sublist)

theorem mem_playing {p : String} :
    p ∈ room.playing ↔ ∃ s, room.seated.get? p = some s ∧ s.state = .playing := by
  simp only [playing, playingPlayerIds, List.mem_toFinset, List.mem_map, List.mem_filter,
    decide_eq_true_eq, Prod.exists, Dict.get?_eq_some_iff]
  constructor
  · rintro ⟨a, s, ⟨hmem, hs⟩, rfl⟩
    exact ⟨s, hmem, hs⟩
  · rintro ⟨s, hmem, hs⟩
    exact ⟨p, s, ⟨hmem, hs⟩, rfl⟩

theorem awaited_eq_sdiff : room.awaited = room.playing \ room.released := by
  ext p
  simp only [awaited, released, Finset.mem_filter, Finset.mem_sdiff, Finset.mem_union, not_or]

/-- The count is a difference of the sizes of the two sets. -/
theorem effectiveBarrierCount_eq_card_sub :
    room.effectiveBarrierCount = room.playing.card - room.released.card := by
  have hlen : (room.seated.values.filter (·.state = .playing)).length
      = room.playing.card := by
    rw [playing, List.toFinset_card_of_nodup nodup_playingPlayerIds, playingPlayerIds,
      Dict.values, List.filter_map, List.length_map, List.length_map]
    rfl
  rw [effectiveBarrierCount, hlen]

/-- **What the count counts.** It is the number of awaited players exactly when the released
    players are all playing, or include every player who is. -/
theorem effectiveBarrierCount_eq_iff : room.effectiveBarrierCount = room.awaited.card ↔
      room.released ⊆ room.playing ∨ room.playing ⊆ room.released := by
  rw [effectiveBarrierCount_eq_card_sub, awaited_eq_sdiff]
  exact card_sub_card_eq_card_sdiff_iff

/-! ### What each operation moves -/

/-- The round data of a room that presence operations leave alone. -/
structure SameRound (room room' : SessionRoom) : Prop where
  playing : room'.playing = room.playing
  pendingActions : room'.pendingActions = room.pendingActions
  lastDispatchedRound : room'.lastDispatchedRound = room.lastDispatchedRound
  crashReleased : room'.crashReleased = room.crashReleased
  tableFolded : room'.tableFolded = room.tableFolded

namespace SameRound

variable {room' room'' : SessionRoom}

theorem refl (room : SessionRoom) : SameRound room room := ⟨rfl, rfl, rfl, rfl, rfl⟩

theorem trans (h : SameRound room room') (h' : SameRound room' room'') : SameRound room room'' :=
  ⟨h'.1.trans h.1, h'.2.trans h.2, h'.3.trans h.3, h'.4.trans h.4, h'.5.trans h.5⟩

theorem released (h : SameRound room room') : room'.released = room.released := by
  rw [SessionRoom.released, SessionRoom.released, h.crashReleased, h.tableFolded]

end SameRound

theorem sameRound_connect {room' : SessionRoom} {p s : String} {c : Option String}
    (h : room.connect p s c = .ok room') : SameRound room room' := by
  unfold connect at h
  dsimp only at h
  split at h
  · simp at h
  · cases h
    exact ⟨rfl, rfl, rfl, rfl, rfl⟩

variable (p : String)

theorem sameRound_setPlayerIdentity (i : String) :
    SameRound room (room.setPlayerIdentity p i) := ⟨rfl, rfl, rfl, rfl, rfl⟩

theorem sameRound_abandonChargen : SameRound room (room.abandonChargen p) := by
  refine ⟨?_, rfl, rfl, rfl, rfl⟩
  ext q
  simp only [mem_playing, abandonChargen, Dict.get?_modify]
  -- only a seat in character generation moves, and it does not move to or from playing
  by_cases hq : q = p
  · subst hq
    cases room.seated.get? q with
    | none => simp
    | some s =>
      by_cases hs : s.state = .chargen <;> simp [hs]
  · rw [if_neg hq]

/-- The end of a presence leaves the round alone. -/
theorem sameRound_leave (s p : String) : SameRound room (disconnect.leave s room p) := by
  unfold disconnect.leave
  split
  · have h : SameRound room { room with connected := room.connected.erase p } :=
      ⟨rfl, rfl, rfl, rfl, rfl⟩
    exact h.trans (sameRound_abandonChargen p)
  · exact sameRound_abandonChargen p

theorem sameRound_disconnect (pick : Finset String → String) (s : String) :
    SameRound room (room.disconnect pick s).1 := by
  unfold disconnect
  cases hp : room.sockets.get? s with
  | none => exact .refl room
  | some p =>
    have hsock : SameRound room { room with sockets := room.sockets.erase s } :=
      ⟨rfl, rfl, rfl, rfl, rfl⟩
    dsimp only
    cases room.playerSockets.get? p with
    | none => exact hsock.trans (sameRound_leave s p)
    | some live =>
      dsimp only
      split
      · have hlast : SameRound room { room with
            sockets := room.sockets.erase s
            playerSockets := room.playerSockets.erase p
            playerIdentities := room.playerIdentities.erase p } := ⟨rfl, rfl, rfl, rfl, rfl⟩
        exact hlast.trans (sameRound_leave s p)
      · split
        · exact ⟨rfl, rfl, rfl, rfl, rfl⟩
        · exact ⟨rfl, rfl, rfl, rfl, rfl⟩

@[simp] theorem playing_markCrashReleased : (room.markCrashReleased p).playing = room.playing := rfl

@[simp] theorem released_markCrashReleased :
    (room.markCrashReleased p).released = insert p room.released :=
  Finset.insert_union _ _ _

@[simp] theorem released_markTableFolded :
    (room.markTableFolded p).released = insert p room.released :=
  Finset.union_insert _ _ _

theorem released_clearTableFolds_subset : room.clearTableFolds.released ⊆ room.released :=
  Finset.union_subset_union (Finset.Subset.refl _) (Finset.empty_subset _)

@[simp] theorem playing_seat (c : Option String) :
    (room.seat p c).playing = room.playing.erase p := by
  ext q
  simp only [mem_playing, Finset.mem_erase, seat, Dict.get?_insert]
  by_cases hq : q = p <;> simp [hq]

@[simp] theorem playing_unseat : (room.unseat p).playing = room.playing.erase p := by
  ext q
  simp only [mem_playing, Finset.mem_erase, unseat, Dict.get?_erase]
  by_cases hq : q = p <;> simp [hq]

/-- Nobody stops playing when a seat starts to. -/
theorem playing_subset_transitionToPlaying :
    room.playing ⊆ (room.transitionToPlaying p).playing := by
  intro q hq
  obtain ⟨s, hs, hplay⟩ := mem_playing.mp hq
  rw [mem_playing, transitionToPlaying, Dict.get?_modify]
  by_cases hqp : q = p
  · subst hqp
    exact ⟨{ s with state := .playing }, by rw [if_pos rfl, hs]; rfl, rfl⟩
  · exact ⟨s, by rw [if_neg hqp]; exact hs, hplay⟩

end SessionRoom

end

/-- The phases of a game turn. -/
inductive TurnPhase where
  | inputCollection
  | intentRouting
  | agentExecution
  | statePatch
  | broadcast
deriving DecidableEq

/-- Round and interaction counters, the phase, and the input barrier. `submitted` lives only
    at run time: a loaded save starts with it empty. -/
structure TurnManager where
  round : Nat := 1
  interaction : Nat := 1
  phase : TurnPhase := .inputCollection
  playerCount : Nat := 1
  submitted : Finset String := ∅

namespace TurnManager

variable (tm : TurnManager)

/-- The number of players the next submission is measured against. -/
def setPlayerCount (count : Nat) : TurnManager := { tm with playerCount := count }

/-- Submit input for a player; the phase moves on when enough players have submitted. -/
def submitInput (playerId : String) : TurnManager :=
  if tm.phase ≠ .inputCollection then tm
  else if tm.playerCount ≤ (insert playerId tm.submitted).card then
    { tm with phase := .intentRouting, submitted := ∅ }
  else { tm with submitted := insert playerId tm.submitted }

/-- Check the barrier again against a reduced count; `true` when it fired. Nothing happens
    outside input collection, or when nobody is left to act. -/
def recheckBarrier (effectiveCount : Nat) : TurnManager × Bool :=
  if tm.phase ≠ .inputCollection then (tm, false)
  else if effectiveCount = 0 then (tm, false)
  else if effectiveCount ≤ tm.submitted.card then
    ({ tm with phase := .intentRouting, submitted := ∅ }, true)
  else (tm, false)

/-- Record a player-narrator interaction: both counters advance and input opens again. -/
def recordInteraction : TurnManager :=
  { tm with
    interaction := tm.interaction + 1
    round := tm.round + 1
    phase := .inputCollection
    submitted := ∅ }

/-! ### What one check can do -/

variable {tm}

theorem submitInput_of_phase_ne (h : tm.phase ≠ .inputCollection) (p : String) :
    tm.submitInput p = tm := by
  rw [submitInput, if_pos h]

/-- A submission during input collection either fires the barrier, having counted at least
    `playerCount` players, or is kept in `submitted`. -/
theorem submitInput_cases (h : tm.phase = .inputCollection) (p : String) :
    (tm.playerCount ≤ (insert p tm.submitted).card ∧
      tm.submitInput p = { tm with phase := .intentRouting, submitted := ∅ }) ∨
    ((insert p tm.submitted).card < tm.playerCount ∧
      tm.submitInput p = { tm with submitted := insert p tm.submitted }) := by
  unfold submitInput
  rw [if_neg (not_not_intro h)]
  by_cases hc : tm.playerCount ≤ (insert p tm.submitted).card
  · left
    exact ⟨hc, if_pos hc⟩
  · right
    exact ⟨Nat.lt_of_not_le hc, if_neg hc⟩

/-- A recheck either leaves the turn as it is, or fires during input collection, having counted
    at least `effectiveCount` players. -/
theorem recheckBarrier_cases (n : Nat) : tm.recheckBarrier n = (tm, false) ∨
    (tm.phase = .inputCollection ∧ 0 < n ∧ n ≤ tm.submitted.card ∧
      tm.recheckBarrier n = ({ tm with phase := .intentRouting, submitted := ∅ }, true)) := by
  unfold recheckBarrier
  by_cases hp : tm.phase = .inputCollection
  · rw [if_neg (not_not_intro hp)]
    by_cases hn : n = 0
    · left
      exact if_pos hn
    · rw [if_neg hn]
      by_cases hc : n ≤ tm.submitted.card
      · right
        exact ⟨hp, Nat.pos_of_ne_zero hn, hc, if_pos hc⟩
      · left
        exact if_neg hc
  · left
    exact if_pos hp

end TurnManager

/-! ### The ledger of recorded actions -/

/-- One recorded action, told apart from every other by its number. -/
structure Ticket where
  number : Nat
  (playerId action : String)
  interaction : Nat

/-- Where every ticket handed out so far is: still buffered, drained by the dispatch of some
    interaction, or replaced by a later ticket. -/
structure Ledger where
  nextTicket : Nat := 0
  buffered : Dict String Ticket := .empty
  drained : List (Ticket × Nat) := []
  replaced : List (Ticket × Ticket) := []

namespace Ledger

variable (l : Ledger)

/-- The ticket the next recorded action gets. -/
def issue (playerId action : String) (interaction : Nat) : Ticket :=
  { number := l.nextTicket, playerId, action, interaction }

/-- An action is recorded: it takes the place of the player's buffered one, if any. -/
def record (playerId action : String) (interaction : Nat) : Ledger :=
  { nextTicket := l.nextTicket + 1
    buffered := l.buffered.insert playerId (l.issue playerId action interaction)
    drained := l.drained
    replaced := l.replaced ++
      (l.buffered.get? playerId).toList.map (·, l.issue playerId action interaction) }

/-- The dispatch of an interaction takes the whole buffer. -/
def drain (interaction : Nat) : Ledger :=
  { l with
    buffered := .empty
    drained := l.drained ++ l.buffered.values.map (·, interaction) }

end Ledger

/-! ### The handlers -/

/-- A room bound to a world: its turn manager, the interactions whose narration is still
    running, and the ledger of the actions recorded so far. -/
structure Table where
  room : SessionRoom
  turnManager : TurnManager
  inFlight : List Nat := []
  ledger : Ledger := {}

namespace Table

variable (t : Table)

/-- A fresh room over a world as it was saved: nobody is connected, nothing is submitted. -/
def init (slug : String) (mode : GameMode) (round interaction : Nat) (phase : TurnPhase)
    (playerCount : Nat) : Table :=
  { room := { slug, mode }
    turnManager := { round, interaction, phase, playerCount } }

/-- Elect one dispatcher for the interaction, drain the buffer and start the narration. A loser
    of the election does nothing. -/
def dispatchFiredBarrier : Table :=
  if t.turnManager.interaction ≤ t.room.lastDispatchedRound then t
  else
    { t with
      room := { t.room with
        lastDispatchedRound := t.turnManager.interaction }.drainPendingActions.1
      inFlight := t.inFlight ++ [t.turnManager.interaction]
      ledger := t.ledger.drain t.turnManager.interaction }

/-- The barrier section of a player action: buffer it, count it, and dispatch when the phase
    has left input collection. -/
def playerAction (playerId characterName action : String) : Table :=
  let room := t.room.recordPendingAction playerId characterName action
  let turnManager := (t.turnManager.setPlayerCount room.effectiveBarrierCount).submitInput playerId
  let t' := { t with
    room, turnManager, ledger := t.ledger.record playerId action t.turnManager.interaction }
  if turnManager.phase = .inputCollection then t' else t'.dispatchFiredBarrier

/-- A client reports a render crash: a player the turn still waits for is released, and the
    barrier is checked again. -/
def clientError (crashedId : String) : Table :=
  if crashedId = "" then t
  else if ¬ t.room.hasPendingActions then t
  else if t.turnManager.phase ≠ .inputCollection then t
  else if crashedId ∈ t.turnManager.submitted then t
  else
    let room := t.room.markCrashReleased crashedId
    let (turnManager, fired) := t.turnManager.recheckBarrier room.effectiveBarrierCount
    let t' := { t with room, turnManager }
    if fired then t'.dispatchFiredBarrier else t'

/-- A narration returns. One that ran to the end records its interaction; one that failed on
    the way does not. -/
def narrationEnds (index : Nat) (completed : Bool) : Table :=
  if index < t.inFlight.length then
    { t with
      inFlight := t.inFlight.eraseIdx index
      turnManager :=
        if completed then t.turnManager.recordInteraction else t.turnManager }
  else t

/-- A narration started elsewhere (a dice throw, say) records an interaction of its own. -/
def otherNarration : Table := { t with turnManager := t.turnManager.recordInteraction }

/-- Everybody has left, the world was saved and unbound, and the next connection loads it
    again: the counters and the phase come back, the submitted set does not. -/
def rebindWorld : Table :=
  if t.room.connected.keys = [] ∧ t.inFlight = [] then
    { t with turnManager := { t.turnManager with submitted := ∅ } }
  else t

/-! ### The transition system -/

/-- What can happen at a table. -/
inductive Event where
  | connect (playerId socketId : String) (companionOf : Option String)
  | setPlayerIdentity (playerId identity : String)
  | disconnect (pick : Finset String → String) (socketId : String)
  | seat (playerId : String) (characterSlot : Option String)
  | transitionToPlaying (playerId : String)
  | unseat (playerId : String)
  | playerAction (playerId characterName action : String)
  | clientError (playerId : String)
  | markTableFolded (playerId : String)
  | clearTableFolds
  | narrationEnds (index : Nat) (completed : Bool)
  | otherNarration
  | rebindWorld

/-- One event. -/
def step (t : Table) : Event → Table
  | .connect p s c =>
    match t.room.connect p s c with
    | .ok room => { t with room }
    | .error _ => t
  | .setPlayerIdentity p i => { t with room := t.room.setPlayerIdentity p i }
  | .disconnect pick s => { t with room := (t.room.disconnect pick s).1 }
  | .seat p c => { t with room := t.room.seat p c }
  | .transitionToPlaying p => { t with room := t.room.transitionToPlaying p }
  | .unseat p => { t with room := t.room.unseat p }
  | .playerAction p n a => t.playerAction p n a
  | .clientError p => t.clientError p
  | .markTableFolded p => { t with room := t.room.markTableFolded p }
  | .clearTableFolds => { t with room := t.room.clearTableFolds }
  | .narrationEnds i c => t.narrationEnds i c
  | .otherNarration => t.otherNarration
  | .rebindWorld => t.rebindWorld

/-! ### What each handler can do -/

variable {t}

/-- A dispatch either loses the election and changes nothing, or drains the buffer. -/
theorem dispatchFiredBarrier_cases :
    (t.turnManager.interaction ≤ t.room.lastDispatchedRound ∧ t.dispatchFiredBarrier = t) ∨
    (t.room.lastDispatchedRound < t.turnManager.interaction ∧
      t.dispatchFiredBarrier =
        { t with
          room := { t.room with
            lastDispatchedRound := t.turnManager.interaction }.drainPendingActions.1
          inFlight := t.inFlight ++ [t.turnManager.interaction]
          ledger := t.ledger.drain t.turnManager.interaction }) := by
  unfold dispatchFiredBarrier
  by_cases h : t.turnManager.interaction ≤ t.room.lastDispatchedRound
  · left
    exact ⟨h, if_pos h⟩
  · right
    exact ⟨Nat.lt_of_not_le h, if_neg h⟩

@[simp] theorem turnManager_dispatchFiredBarrier :
    t.dispatchFiredBarrier.turnManager = t.turnManager := by
  rcases dispatchFiredBarrier_cases with ⟨-, h⟩ | ⟨-, h⟩ <;> rw [h]

@[simp] theorem playing_dispatchFiredBarrier :
    t.dispatchFiredBarrier.room.playing = t.room.playing := by
  rcases dispatchFiredBarrier_cases with ⟨-, h⟩ | ⟨-, h⟩
  · rw [h]
  · rw [h]
    rfl

theorem released_dispatchFiredBarrier_subset :
    t.dispatchFiredBarrier.room.released ⊆ t.room.released := by
  rcases dispatchFiredBarrier_cases with ⟨-, h⟩ | ⟨-, h⟩
  · rw [h]
  · rw [h]
    exact Finset.union_subset_union (Finset.empty_subset _) (Finset.Subset.refl _)

/-- A crash signal that gets to release its player: the turn is in flight and still waits for
    input, and the player has not submitted. -/
def CrashReleases (t : Table) (p : String) : Prop :=
  p ≠ "" ∧ t.room.hasPendingActions = true ∧ t.turnManager.phase = .inputCollection ∧
    p ∉ t.turnManager.submitted

instance (t : Table) (p : String) : Decidable (t.CrashReleases p) :=
  inferInstanceAs (Decidable (_ ∧ _))

/-- A crash signal is ignored, or releases its player and leaves the barrier waiting, or
    releases its player and fires the barrier. -/
theorem clientError_cases (p : String) :
    (¬ t.CrashReleases p ∧ t.clientError p = t) ∨
    (t.CrashReleases p ∧ t.clientError p = { t with room := t.room.markCrashReleased p }) ∨
    (t.CrashReleases p ∧
      0 < (t.room.markCrashReleased p).effectiveBarrierCount ∧
      (t.room.markCrashReleased p).effectiveBarrierCount ≤ t.turnManager.submitted.card ∧
      t.clientError p = dispatchFiredBarrier
        { t with
          room := t.room.markCrashReleased p
          turnManager := { t.turnManager with phase := .intentRouting, submitted := ∅ } }) := by
  by_cases hr : t.CrashReleases p
  · right
    obtain ⟨hp, hpend, hphase, hsub⟩ := hr
    have hrun : t.clientError p =
        let check := t.turnManager.recheckBarrier (t.room.markCrashReleased p).effectiveBarrierCount
        let t' := { t with room := t.room.markCrashReleased p, turnManager := check.1 }
        if check.2 then t'.dispatchFiredBarrier else t' := by
      unfold clientError
      rw [if_neg hp, if_neg (by simp [hpend]), if_neg (not_not_intro hphase), if_neg hsub]
    rcases TurnManager.recheckBarrier_cases
      (t.room.markCrashReleased p).effectiveBarrierCount with h | ⟨-, hpos, hle, h⟩
    · left
      refine ⟨⟨hp, hpend, hphase, hsub⟩, ?_⟩
      rw [hrun, h]
      rfl
    · right
      refine ⟨⟨hp, hpend, hphase, hsub⟩, hpos, hle, ?_⟩
      rw [hrun, h]
      rfl
  · left
    refine ⟨hr, ?_⟩
    unfold clientError
    by_cases hp : p = ""
    · rw [if_pos hp]
    · rw [if_neg hp]
      by_cases hpend : t.room.hasPendingActions = true
      · rw [if_neg (not_not_intro hpend)]
        by_cases hphase : t.turnManager.phase = .inputCollection
        · rw [if_neg (not_not_intro hphase)]
          by_cases hsub : p ∈ t.turnManager.submitted
          · rw [if_pos hsub]
          · exact absurd ⟨hp, hpend, hphase, hsub⟩ hr
        · rw [if_pos hphase]
      · rw [if_pos hpend]

/-- The table after an action is buffered, before the phase decides what follows. -/
def recordAction (t : Table) (p n a : String) (turnManager : TurnManager) : Table :=
  { t with
    room := t.room.recordPendingAction p n a
    turnManager
    ledger := t.ledger.record p a t.turnManager.interaction }

theorem playerAction_cases (p n a : String) :
    (t.turnManager.phase ≠ .inputCollection ∧
      t.playerAction p n a = (t.recordAction p n a
        (t.turnManager.setPlayerCount t.room.effectiveBarrierCount)).dispatchFiredBarrier) ∨
    (t.turnManager.phase = .inputCollection ∧
      (insert p t.turnManager.submitted).card < t.room.effectiveBarrierCount ∧
      t.playerAction p n a = t.recordAction p n a
        { t.turnManager with
          playerCount := t.room.effectiveBarrierCount
          submitted := insert p t.turnManager.submitted }) ∨
    (t.turnManager.phase = .inputCollection ∧
      t.room.effectiveBarrierCount ≤ (insert p t.turnManager.submitted).card ∧
      t.playerAction p n a = (t.recordAction p n a
        { t.turnManager with
          playerCount := t.room.effectiveBarrierCount
          phase := .intentRouting
          submitted := ∅ }).dispatchFiredBarrier) := by
  have hrun : t.playerAction p n a =
      let tm := (t.turnManager.setPlayerCount t.room.effectiveBarrierCount).submitInput p
      if tm.phase = .inputCollection then t.recordAction p n a tm
      else (t.recordAction p n a tm).dispatchFiredBarrier := rfl
  by_cases hphase : t.turnManager.phase = .inputCollection
  · right
    have hset : (t.turnManager.setPlayerCount t.room.effectiveBarrierCount).phase
        = .inputCollection := hphase
    rcases TurnManager.submitInput_cases hset p with ⟨hle, h⟩ | ⟨hlt, h⟩
    · right
      refine ⟨hphase, hle, ?_⟩
      rw [hrun, h]
      rfl
    · left
      refine ⟨hphase, hlt, ?_⟩
      rw [hrun, h]
      exact if_pos hphase
  · left
    refine ⟨hphase, ?_⟩
    have hset : (t.turnManager.setPlayerCount t.room.effectiveBarrierCount).phase
        ≠ .inputCollection := hphase
    rw [hrun, TurnManager.submitInput_of_phase_ne hset]
    exact if_neg hphase

theorem narrationEnds_cases (i : Nat) (c : Bool) :
    t.narrationEnds i c = t ∨
    (i < t.inFlight.length ∧ t.narrationEnds i c = { t with inFlight := t.inFlight.eraseIdx i }) ∨
    (i < t.inFlight.length ∧ c = true ∧ t.narrationEnds i c =
      { t with
        inFlight := t.inFlight.eraseIdx i
        turnManager := t.turnManager.recordInteraction }) := by
  unfold narrationEnds
  by_cases hi : i < t.inFlight.length
  · right
    rw [if_pos hi]
    cases c with
    | false => exact .inl ⟨hi, rfl⟩
    | true => exact .inr ⟨hi, rfl, rfl⟩
  · left
    exact if_neg hi

/-- A connection is turned away, or changes the room's presence and nothing of the round. -/
theorem step_connect_cases (p k : String) (c : Option String) : t.step (.connect p k c) = t ∨
    ∃ room, SessionRoom.SameRound t.room room ∧ t.step (.connect p k c) = { t with room } := by
  have hstep : t.step (.connect p k c) =
      match t.room.connect p k c with
      | .ok room => { t with room }
      | .error _ => t := rfl
  rw [hstep]
  cases hc : t.room.connect p k c with
  | error _ => exact .inl rfl
  | ok room => exact .inr ⟨room, SessionRoom.sameRound_connect hc, rfl⟩

/-- A world is bound again with nothing submitted, or stays bound. -/
theorem rebindWorld_cases : t.rebindWorld = t ∨
    t.rebindWorld = { t with turnManager := { t.turnManager with submitted := ∅ } } := by
  unfold rebindWorld
  split
  · exact .inr rfl
  · exact .inl rfl

end Table

end Sidequest.Room
