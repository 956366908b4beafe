import Mathlib.Data.Finset.Max
import Mathlib.Data.String.Basic
import Sidequest.Room.Table

namespace Sidequest.Room

open Lib

/-!
# Presence

A player may hold several sockets in one room: a reload or a tab switch opens the new one before
the old one closes. `connect` and `disconnect` keep three maps for this, the player's current
handle, the owner of each socket, and the sockets of each player.

* `Attendance` — a room next to the record of what is open: the pairs `(player, socket)` with an
  accepted connect and no disconnect since;
* `Attendance.Tracked` — the three maps all tell what the record tells;
* `presence_tracks_sockets` — they do so in every state of every run in which a socket is only
  ever connected for one player, and the disconnect of a player's last socket, no other step,
  reports them gone and abandons their character generation;
* `guarded_iff_ownerAlone` — the runs in which the guard lets the owner in beside companions, and
  keeps strangers out, are those in which the owner only connects to a room without companions, or
  as somebody's companion.
-/

section

/-- The choice of an open socket: any member of a nonempty set. -/
structure SocketChoice where
  pick : Finset String → String
  mem : ∀ live : Finset String, live.Nonempty → pick live ∈ live

/-- A call on the room. `disconnect` carries the choice of the socket that stands in. -/
inductive RoomCall where
  | connect (playerId socketId : String) (companionOf : Option String)
  | disconnect (socketId : String) (choice : SocketChoice)
  | setPlayerIdentity (playerId identity : String)
  | seat (playerId : String) (characterSlot : Option String)
  | transitionToPlaying (playerId : String)
  | unseat (playerId : String)

variable (room : SessionRoom)

namespace SessionRoom

/-- The room after a call, and the player a disconnect reports gone. A refused connect leaves
    the room as it is. -/
def call : RoomCall → SessionRoom × Option String
  | .connect playerId socketId companionOf =>
    match room.connect playerId socketId companionOf with
    | .ok room => (room, none)
    | .error _ => (room, none)
  | .disconnect socketId choice => room.disconnect choice.pick socketId
  | .setPlayerIdentity playerId identity => (room.setPlayerIdentity playerId identity, none)
  | .seat playerId characterSlot => (room.seat playerId characterSlot, none)
  | .transitionToPlaying playerId => (room.transitionToPlaying playerId, none)
  | .unseat playerId => (room.unseat playerId, none)

/-- The sockets the room counts for a player. -/
def liveOf (playerId : String) : Finset String :=
  (room.playerSockets.get? playerId).getD ∅

/-- The player's seat is in the lobby state `st`. -/
def SeatIn (playerId : String) (st : LobbyState) : Prop :=
  ∃ s, room.seated.get? playerId = some s ∧ s.state = st

end SessionRoom

/-- A room and the sockets that are open on it, each with its player. -/
structure Attendance where
  room : SessionRoom
  live : Finset (String × String)

namespace Attendance

/-- An accepted connect opens a socket, a disconnect closes it. -/
def step (a : Attendance) (c : RoomCall) : Attendance where
  room := (a.room.call c).1
  live := match c with
    | .connect playerId socketId companionOf =>
      match a.room.connect playerId socketId companionOf with
      | .ok _ => insert (playerId, socketId) a.live
      | .error _ => a.live
    | .disconnect socketId _ => a.live.filter (fun l => l.2 ≠ socketId)
    | _ => a.live

/-- A room before anybody has connected; seats and identities may be there already. -/
structure Fresh (a : Attendance) : Prop where
  connected : a.room.connected = .empty
  sockets : a.room.sockets = .empty
  playerSockets : a.room.playerSockets = .empty
  live : a.live = ∅

/-- The call does not connect a socket for somebody other than its owner. -/
def OwnSocket (owner : String → String) (a : Attendance) : RoomCall → Prop
  | .connect playerId socketId companionOf =>
    ∀ room, a.room.connect playerId socketId companionOf = .ok room → owner socketId = playerId
  | _ => True

/-- The call closes the last open socket of the player. -/
def ClosesLast (a : Attendance) (c : RoomCall) (playerId : String) : Prop :=
  ∃ socketId choice, c = .disconnect socketId choice ∧ (playerId, socketId) ∈ a.live ∧
    ∀ s, (playerId, s) ∈ a.live → s = socketId

/-- What the three maps of the room tell of the open sockets. -/
structure Tracked (a : Attendance) : Prop where
  present : ∀ p, p ∈ a.room.connected.keys ↔ ∃ s, (p, s) ∈ a.live
  handle : ∀ p s, a.room.connected.get? p = some s → (p, s) ∈ a.live
  sockets : ∀ p s, a.room.sockets.get? s = some p ↔ (p, s) ∈ a.live
  playerSockets : ∀ p s, s ∈ a.room.liveOf p ↔ (p, s) ∈ a.live

/-- What a call reports and does to the seats: only the end of a presence is reported, and only
    it abandons a seat in character generation. -/
structure Reported (a : Attendance) (c : RoomCall) : Prop where
  answer : ∀ p, (a.room.call c).2 = some p ↔ a.ClosesLast c p
  abandons : ∀ p, a.room.SeatIn p .chargen →
    ((a.room.call c).1.SeatIn p .abandoned ↔ a.ClosesLast c p)

end Attendance

/-! ### What connect and disconnect do -/

namespace SessionRoom

variable {room room' : SessionRoom} {p q s : String} {c : Option String} {l : Finset String}
  {st : LobbyState}

theorem connect_eq_ok (h : room.connect p s c = .ok room') :
    room' = { room with
      connected := room.connected.insert p s
      sockets := room.sockets.insert s p
      playerSockets := room.playerSockets.insert p (insert s (room.liveOf p)) } := by
  unfold connect at h
  dsimp only at h
  split at h
  · simp at h
  · exact (Except.ok.inj h).symm

variable (pick : Finset String → String)

theorem disconnect_unknown (hs : room.sockets.get? s = none) :
    room.disconnect pick s = (room, none) := by
  rw [disconnect, hs]

theorem disconnect_last (hs : room.sockets.get? s = some p)
    (hl : room.playerSockets.get? p = some l) (hlast : l.erase s = ∅) :
    room.disconnect pick s = (disconnect.leave s { room with
      sockets := room.sockets.erase s
      playerSockets := room.playerSockets.erase p
      playerIdentities := room.playerIdentities.erase p } p, some p) := by
  rw [disconnect, hs]
  dsimp only
  rw [hl]
  dsimp only
  rw [if_pos hlast]

theorem disconnect_absorbed (hs : room.sockets.get? s = some p)
    (hl : room.playerSockets.get? p = some l) (hmore : l.erase s ≠ ∅) :
    room.disconnect pick s = ({ room with
      sockets := room.sockets.erase s
      playerSockets := room.playerSockets.insert p (l.erase s)
      connected := if room.connected.get? p = some s then
          room.connected.insert p (pick (l.erase s)) else room.connected }, none) := by
  rw [disconnect, hs]
  dsimp only
  rw [hl]
  dsimp only
  rw [if_neg hmore]
  by_cases hc : room.connected.get? p = some s
  · rw [if_pos hc, if_pos hc]
  · rw [if_neg hc, if_neg hc]

/-- The end of a presence drops the handle if it is the closed socket. -/
theorem get?_connected_leave (hc : room.connected.get? p = some s) :
    (disconnect.leave s room p).connected.get? q
      = if q = p then none else room.connected.get? q := by
  rw [disconnect.leave, if_pos hc]
  exact Dict.get?_erase room.connected p q

@[simp] theorem sockets_leave : (disconnect.leave s room p).sockets = room.sockets := by
  unfold disconnect.leave
  split <;> rfl

@[simp] theorem playerSockets_leave :
    (disconnect.leave s room p).playerSockets = room.playerSockets := by
  unfold disconnect.leave
  split <;> rfl

theorem seated_leave : (disconnect.leave s room p).seated = (room.abandonChargen p).seated := by
  unfold disconnect.leave
  split <;> rfl

theorem seatIn_abandonChargen (hq : room.SeatIn q .chargen) :
    (room.abandonChargen p).SeatIn q .abandoned ↔ q = p := by
  obtain ⟨seat, hseat, hst⟩ := hq
  unfold SeatIn abandonChargen
  rw [Dict.get?_modify]
  by_cases hqp : q = p
  · subst hqp
    simp [hseat, hst]
  · simp [hqp, hseat, hst]

theorem SeatIn.unique {st' : LobbyState} (h : room.SeatIn p st) (h' : room.SeatIn p st') :
    st = st' := by
  obtain ⟨seat, hseat, rfl⟩ := h
  obtain ⟨seat', hseat', rfl⟩ := h'
  rw [Option.some.inj (hseat.symm.trans hseat')]

end SessionRoom

/-! ### The invariant, call by call -/

namespace Attendance

variable {owner : String → String} {a : Attendance} {p q s s' : String} {c : Option String}
  {l : Finset String} {room' : SessionRoom} {choice : SocketChoice}

/-- The maps track the open sockets, each open socket is its owner's, and no player is on the
    books with an empty set of sockets. -/
structure Kept (owner : String → String) (a : Attendance) : Prop extends Tracked a where
  owned : ∀ p s, (p, s) ∈ a.live → owner s = p
  nonempty : ∀ p l, a.room.playerSockets.get? p = some l → l.Nonempty

theorem kept_fresh (h : a.Fresh) : Kept owner a where
  present p := by simp [h.connected, h.live]
  handle p s hp := by simp [h.connected] at hp
  sockets p s := by simp [h.sockets, h.live]
  playerSockets p s := by simp [SessionRoom.liveOf, h.playerSockets, h.live]
  owned p s hp := by simp [h.live] at hp
  nonempty p l hp := by simp [h.playerSockets] at hp

theorem Kept.exists_liveOf (h : Kept owner a) (hs : (p, s) ∈ a.live) :
    ∃ l, a.room.playerSockets.get? p = some l ∧ ∀ t, t ∈ l ↔ (p, t) ∈ a.live := by
  have hmem : s ∈ a.room.liveOf p := (h.playerSockets p s).mpr hs
  cases hl : a.room.playerSockets.get? p with
  | none =>
    rw [SessionRoom.liveOf, hl] at hmem
    exact absurd hmem (Finset.notMem_empty s)
  | some l =>
    refine ⟨l, rfl, fun t => ?_⟩
    rw [← h.playerSockets, SessionRoom.liveOf, hl]
    exact Iff.rfl

/-- A player who is present has a handle, and it is one of their open sockets. -/
theorem Kept.exists_handle (h : Kept owner a) (hs : (p, s) ∈ a.live) :
    ∃ t, a.room.connected.get? p = some t :=
  Dict.mem_keys_iff_get?.mp ((h.present p).mpr ⟨s, hs⟩)

theorem kept_connect (h : Kept owner a) (how : a.OwnSocket owner (.connect p s c)) :
    Kept owner (a.step (.connect p s c)) := by
  cases hc : a.room.connect p s c with
  | error e =>
    have hsame : a.step (.connect p s c) = a := by simp [step, SessionRoom.call, hc]
    rw [hsame]
    exact h
  | ok room' =>
    have hown : owner s = p := how room' hc
    have hroom := SessionRoom.connect_eq_ok hc
    have hstep : a.step (.connect p s c) = ⟨room', insert (p, s) a.live⟩ := by
      simp [step, SessionRoom.call, hc]
    rw [hstep, hroom]
    -- the parts of the invariant, in their order: what the new pair adds to each
    refine ⟨⟨fun q => ?_, fun q t hq => ?_, fun q t => ?_, fun q t => ?_⟩, fun q t hq => ?_,
      fun q l hl => ?_⟩
    · show q ∈ (a.room.connected.insert p s).keys ↔ ∃ t, (q, t) ∈ insert (p, s) a.live
      rw [Dict.mem_keys_insert, h.present q]
      constructor
      · rintro (rfl | ⟨t, ht⟩)
        · exact ⟨s, Finset.mem_insert_self _ _⟩
        · exact ⟨t, Finset.mem_insert_of_mem ht⟩
      · rintro ⟨t, ht⟩
        rcases Finset.mem_insert.mp ht with heq | ht
        · exact .inl (Prod.mk.inj heq).1
        · exact .inr ⟨t, ht⟩
    · rw [Dict.get?_insert] at hq
      by_cases hqp : q = p
      · rw [if_pos hqp] at hq
        rw [hqp, ← Option.some.inj hq]
        exact Finset.mem_insert_self _ _
      · rw [if_neg hqp] at hq
        exact Finset.mem_insert_of_mem (h.handle q t hq)
    · show (a.room.sockets.insert s p).get? t = some q ↔ (q, t) ∈ insert (p, s) a.live
      rw [Dict.get?_insert, Finset.mem_insert, Prod.mk.injEq]
      by_cases hts : t = s
      · -- the socket has one owner, so no earlier pair names it for anybody else
        subst hts
        rw [if_pos rfl, Option.some.injEq]
        constructor
        · rintro rfl
          exact .inl ⟨rfl, rfl⟩
        · rintro (⟨rfl, -⟩ | hlive)
          · rfl
          · exact hown.symm.trans (h.owned q t hlive)
      · rw [if_neg hts, h.sockets q t]
        simp [hts]
    · show t ∈ ((a.room.playerSockets.insert p (insert s (a.room.liveOf p))).get? q).getD ∅
        ↔ (q, t) ∈ insert (p, s) a.live
      rw [Dict.get?_insert, Finset.mem_insert, Prod.mk.injEq]
      by_cases hqp : q = p
      · subst hqp
        rw [if_pos rfl, Option.getD_some, Finset.mem_insert, h.playerSockets q t]
        simp
      · simpa [hqp, SessionRoom.liveOf] using h.playerSockets q t
    · rcases Finset.mem_insert.mp hq with heq | hlive
      · cases heq
        exact hown
      · exact h.owned q t hlive
    · replace hl :
          (a.room.playerSockets.insert p (insert s (a.room.liveOf p))).get? q = some l := hl
      rw [Dict.get?_insert] at hl
      by_cases hqp : q = p
      · rw [if_pos hqp] at hl
        cases hl
        exact Finset.insert_nonempty _ _
      · rw [if_neg hqp] at hl
        exact h.nonempty q l hl

/-- A socket that nobody has opened closes nothing. -/
theorem step_disconnect_unknown (h : Kept owner a) (hs : a.room.sockets.get? s = none) :
    a.step (.disconnect s choice) = a := by
  have hlive : a.live.filter (·.2 ≠ s) = a.live := by
    refine Finset.filter_true_of_mem (fun e he heq => ?_)
    have hsome := (h.sockets e.1 s).mpr (by rw [← heq]; exact he)
    cases hs.symm.trans hsome
  simp only [step, SessionRoom.call, SessionRoom.disconnect_unknown choice.pick hs, hlive]

/-- The open sockets once `s` is closed. -/
theorem mem_live_disconnect :
    (q, s') ∈ (a.step (.disconnect s choice)).live ↔ (q, s') ∈ a.live ∧ s' ≠ s := by
  simp [step]

/-- Nobody else has the socket of a player. -/
theorem Kept.ne_of_ne (h : Kept owner a) (hps : (p, s) ∈ a.live) (hqp : q ≠ p)
    (ht : (q, s') ∈ a.live) : s' ≠ s := by
  rintro rfl
  exact hqp ((h.owned q s' ht).symm.trans (h.owned p s' hps))

/-- A closed socket is struck off, whoever has others. -/
theorem Kept.sockets_erase (h : Kept owner a) : (a.room.sockets.erase s).get? s' = some q ↔
      (q, s') ∈ (a.step (.disconnect s choice)).live := by
  rw [Dict.get?_erase, mem_live_disconnect]
  by_cases hts : s' = s
  · simp [hts]
  · simp [hts, h.sockets q s']

/-- Closing a socket of one player leaves the sockets of the others. -/
theorem Kept.mem_live_of_ne (h : Kept owner a) (hps : (p, s) ∈ a.live) (hqp : q ≠ p) :
    (q, s') ∈ (a.step (.disconnect s choice)).live ↔ (q, s') ∈ a.live := by
  rw [mem_live_disconnect]
  exact ⟨And.left, fun ht => ⟨ht, h.ne_of_ne hps hqp ht⟩⟩

theorem kept_disconnect_last (h : Kept owner a) (hs : a.room.sockets.get? s = some p)
    (hl : a.room.playerSockets.get? p = some l) (hlast : l.erase s = ∅) :
    Kept owner (a.step (.disconnect s choice)) := by
  have hps : (p, s) ∈ a.live := (h.sockets p s).mp hs
  have honly : ∀ t, (p, t) ∈ a.live → t = s := by
    intro t ht
    obtain ⟨l', hl', hmem⟩ := h.exists_liveOf ht
    cases hl.symm.trans hl'
    by_contra hne
    exact absurd (Finset.mem_erase.mpr ⟨hne, (hmem t).mpr ht⟩) (hlast ▸ Finset.notMem_empty t)
  obtain ⟨t, hct⟩ := h.exists_handle hps
  have hc : a.room.connected.get? p = some s := by rw [hct, honly t (h.handle p t hct)]
  have hcall := SessionRoom.disconnect_last choice.pick hs hl hlast
  have hconn : ∀ q, (a.step (.disconnect s choice)).room.connected.get? q
      = if q = p then none else a.room.connected.get? q := by
    intro q
    simp only [step, SessionRoom.call, hcall]
    exact SessionRoom.get?_connected_leave hc
  have hsock : (a.step (.disconnect s choice)).room.sockets = a.room.sockets.erase s := by
    simp only [step, SessionRoom.call, hcall, SessionRoom.sockets_leave]
  have hplay : (a.step (.disconnect s choice)).room.playerSockets
      = a.room.playerSockets.erase p := by
    simp only [step, SessionRoom.call, hcall, SessionRoom.playerSockets_leave]
  refine ⟨⟨fun q => ?_, fun q t hq => ?_, fun q t => ?_, fun q t => ?_⟩, fun q t hq => ?_,
    fun q l hq => ?_⟩
  · rw [Dict.mem_keys_iff_get?]
    simp only [hconn, mem_live_disconnect]
    by_cases hqp : q = p
    · subst hqp
      simp only [if_pos, reduceCtorEq, exists_false, false_iff, not_exists, not_and, not_not]
      exact honly
    · rw [if_neg hqp, ← Dict.mem_keys_iff_get?, h.present q]
      exact exists_congr (fun t => ⟨fun ht => ⟨ht, h.ne_of_ne hps hqp ht⟩, And.left⟩)
  · rw [hconn] at hq
    by_cases hqp : q = p
    · simp [hqp] at hq
    · rw [if_neg hqp] at hq
      exact (h.mem_live_of_ne hps hqp).mpr (h.handle q t hq)
  · rw [hsock]
    exact h.sockets_erase
  · rw [SessionRoom.liveOf, hplay, Dict.get?_erase]
    by_cases hqp : q = p
    · subst hqp
      rw [mem_live_disconnect]
      simpa using honly t
    · rw [if_neg hqp, ← SessionRoom.liveOf, h.playerSockets q t]
      exact (h.mem_live_of_ne hps hqp).symm
  · exact h.owned q t (mem_live_disconnect.mp hq).1
  · rw [hplay, Dict.get?_erase] at hq
    by_cases hqp : q = p
    · simp [hqp] at hq
    · rw [if_neg hqp] at hq
      exact h.nonempty q l hq

/-- The player's books after `s` is closed and another socket stays: it stands in. -/
theorem kept_disconnect_absorbed (h : Kept owner a) (hs : a.room.sockets.get? s = some p)
    (hl : a.room.playerSockets.get? p = some l) (hmore : l.erase s ≠ ∅) :
    Kept owner (a.step (.disconnect s choice)) := by
  have hps : (p, s) ∈ a.live := (h.sockets p s).mp hs
  have hlive : ∀ t, t ∈ l ↔ (p, t) ∈ a.live := by
    intro t
    rw [← h.playerSockets, SessionRoom.liveOf, hl]
    exact Iff.rfl
  have hpick := choice.mem (l.erase s) (Finset.nonempty_iff_ne_empty.mpr hmore)
  have hstand := Finset.mem_erase.mp hpick
  have hcall := SessionRoom.disconnect_absorbed choice.pick hs hl hmore
  -- another live socket of the player takes its place in each of the tables
  have hconn : ∀ q, (a.step (.disconnect s choice)).room.connected.get? q
      = if q = p ∧ a.room.connected.get? p = some s then some (choice.pick (l.erase s))
        else a.room.connected.get? q := by
    simp only [step, SessionRoom.call, hcall]
    by_cases hc : a.room.connected.get? p = some s
    · simp [hc]
    · simp [hc]
  have hsock : (a.step (.disconnect s choice)).room.sockets = a.room.sockets.erase s := by
    simp only [step, SessionRoom.call, hcall]
  have hplay : (a.step (.disconnect s choice)).room.playerSockets
      = a.room.playerSockets.insert p (l.erase s) := by
    simp only [step, SessionRoom.call, hcall]
  refine ⟨⟨fun q => ?_, fun q t hq => ?_, fun q t => ?_, fun q t => ?_⟩, fun q t hq => ?_,
    fun q l' hq => ?_⟩
  · rw [Dict.mem_keys_iff_get?]
    simp only [hconn, mem_live_disconnect]
    by_cases hqp : q = p
    · subst hqp
      refine iff_of_true ?_ ⟨choice.pick (l.erase s), (hlive _).mp hstand.2, hstand.1⟩
      by_cases hc : a.room.connected.get? q = some s
      · exact ⟨_, if_pos ⟨rfl, hc⟩⟩
      · obtain ⟨t, ht⟩ := h.exists_handle hps
        exact ⟨t, by rw [if_neg (fun hand => hc hand.2), ht]⟩
    · simp only [hqp, false_and, if_false]
      rw [← Dict.mem_keys_iff_get?, h.present q]
      exact exists_congr (fun t => ⟨fun ht => ⟨ht, h.ne_of_ne hps hqp ht⟩, And.left⟩)
  · rw [hconn] at hq
    by_cases hc : q = p ∧ a.room.connected.get? p = some s
    · rw [if_pos hc] at hq
      rw [hc.1, ← Option.some.inj hq, mem_live_disconnect]
      exact ⟨(hlive _).mp hstand.2, hstand.1⟩
    · rw [if_neg hc] at hq
      refine mem_live_disconnect.mpr ⟨h.handle q t hq, ?_⟩
      rintro rfl
      have hqp : q = p := (h.owned q t (h.handle q t hq)).symm.trans (h.owned p t hps)
      exact hc ⟨hqp, hqp ▸ hq⟩
  · rw [hsock]
    exact h.sockets_erase
  · rw [SessionRoom.liveOf, hplay, Dict.get?_insert]
    by_cases hqp : q = p
    · subst hqp
      rw [if_pos rfl, Option.getD_some, Finset.mem_erase, hlive, mem_live_disconnect]
      exact and_comm
    · rw [if_neg hqp, ← SessionRoom.liveOf, h.playerSockets q t]
      exact (h.mem_live_of_ne hps hqp).symm
  · exact h.owned q t (mem_live_disconnect.mp hq).1
  · rw [hplay, Dict.get?_insert] at hq
    by_cases hqp : q = p
    · rw [if_pos hqp] at hq
      cases hq
      exact Finset.nonempty_iff_ne_empty.mpr hmore
    · rw [if_neg hqp] at hq
      exact h.nonempty q l' hq

theorem kept_disconnect (h : Kept owner a) : Kept owner (a.step (.disconnect s choice)) := by
  cases hs : a.room.sockets.get? s with
  | none =>
    rw [step_disconnect_unknown h hs]
    exact h
  | some p =>
    obtain ⟨l, hl, -⟩ := h.exists_liveOf ((h.sockets p s).mp hs)
    by_cases hlast : l.erase s = ∅
    · exact kept_disconnect_last h hs hl hlast
    · exact kept_disconnect_absorbed h hs hl hlast

/-- The step lemma: every call keeps the books. -/
theorem kept_step (h : Kept owner a) (e : RoomCall) (how : a.OwnSocket owner e) :
    Kept owner (a.step e) := by
  cases e with
  | connect p s c => exact kept_connect h how
  | disconnect s choice => exact kept_disconnect h
  | setPlayerIdentity p i =>
    exact ⟨⟨h.present, h.handle, h.sockets, h.playerSockets⟩, h.owned, h.nonempty⟩
  | seat p c => exact ⟨⟨h.present, h.handle, h.sockets, h.playerSockets⟩, h.owned, h.nonempty⟩
  | transitionToPlaying p =>
    exact ⟨⟨h.present, h.handle, h.sockets, h.playerSockets⟩, h.owned, h.nonempty⟩
  | unseat p => exact ⟨⟨h.present, h.handle, h.sockets, h.playerSockets⟩, h.owned, h.nonempty⟩

/-! ### Who is reported gone, and whose seat is abandoned -/

/-- A seat in character generation that a call leaves as it is has not been abandoned. -/
theorem not_abandoned_of_seated_eq {room room' : SessionRoom} (hq : room.SeatIn q .chargen)
    (hseat : room'.seated.get? q = room.seated.get? q) : ¬ room'.SeatIn q .abandoned := by
  rintro ⟨seat, hs, hst⟩
  have hsame : room.SeatIn q .abandoned := ⟨seat, hseat ▸ hs, hst⟩
  exact absurd (hq.unique hsame) (by decide)

theorem not_closesLast {e : RoomCall} (he : ∀ s choice, e ≠ .disconnect s choice) :
    ¬ a.ClosesLast e q := by
  rintro ⟨s, choice, heq, -⟩
  exact he s choice heq

/-- A disconnect closes the last socket of the player whose only open socket it is. -/
theorem closesLast_disconnect : a.ClosesLast (.disconnect s choice) q ↔
    (q, s) ∈ a.live ∧ ∀ t, (q, t) ∈ a.live → t = s := by
  constructor
  · rintro ⟨t, choice', heq, hlive⟩
    cases heq
    exact hlive
  · intro hlive
    exact ⟨s, choice, rfl, hlive⟩

theorem reported_disconnect (h : Kept owner a) : a.Reported (.disconnect s choice) := by
  cases hs : a.room.sockets.get? s with
  | none =>
    -- a socket that is not registered closes nobody
    have hcall : a.room.call (.disconnect s choice) = (a.room, none) :=
      SessionRoom.disconnect_unknown choice.pick hs
    have hnot : ∀ q, ¬ a.ClosesLast (.disconnect s choice) q := by
      intro q hq
      have hsome := (h.sockets q s).mpr (closesLast_disconnect.mp hq).1
      cases hs.symm.trans hsome
    refine ⟨fun q => ?_, fun q hq => ?_⟩
    · rw [hcall]
      exact iff_of_false (by simp) (hnot q)
    · rw [hcall]
      exact iff_of_false (not_abandoned_of_seated_eq hq rfl) (hnot q)
  | some p =>
    have hps : (p, s) ∈ a.live := (h.sockets p s).mp hs
    obtain ⟨l, hl, hmem⟩ := h.exists_liveOf hps
    have howner : ∀ q, (q, s) ∈ a.live → q = p := fun q hq =>
      (h.owned q s hq).symm.trans (h.owned p s hps)
    by_cases hlast : l.erase s = ∅
    · have hcall := SessionRoom.disconnect_last choice.pick hs hl hlast
      have hcloses : ∀ q, a.ClosesLast (.disconnect s choice) q ↔ q = p := by
        intro q
        rw [closesLast_disconnect]
        constructor
        · exact fun hq => howner q hq.1
        · rintro rfl
          refine ⟨hps, fun t ht => ?_⟩
          by_contra hne
          have hin := Finset.mem_erase.mpr ⟨hne, (hmem t).mpr ht⟩
          exact absurd hin (hlast ▸ Finset.notMem_empty t)
      refine ⟨fun q => ?_, fun q hq => ?_⟩
      · rw [hcloses]
        show (a.room.disconnect choice.pick s).2 = some q ↔ q = p
        rw [hcall, Option.some.injEq]
        exact eq_comm
      · rw [hcloses]
        show (a.room.disconnect choice.pick s).1.SeatIn q .abandoned ↔ q = p
        rw [hcall, ← SessionRoom.seatIn_abandonChargen hq, SessionRoom.SeatIn,
          SessionRoom.seated_leave]
        exact Iff.rfl
    -- another socket of the player lives on, so nobody is announced
    · have hcall := SessionRoom.disconnect_absorbed choice.pick hs hl hlast
      have hnot : ∀ q, ¬ a.ClosesLast (.disconnect s choice) q := by
        intro q hq
        obtain ⟨hqs, honly⟩ := closesLast_disconnect.mp hq
        obtain rfl := howner q hqs
        obtain ⟨t, ht⟩ := Finset.nonempty_iff_ne_empty.mpr hlast
        rw [Finset.mem_erase, hmem] at ht
        exact ht.1 (honly t ht.2)
      refine ⟨fun q => ?_, fun q hq => ?_⟩
      · show (a.room.disconnect choice.pick s).2 = some q ↔ _
        rw [hcall]
        exact iff_of_false (by simp) (hnot q)
      · show (a.room.disconnect choice.pick s).1.SeatIn q .abandoned ↔ _
        rw [hcall]
        exact iff_of_false (not_abandoned_of_seated_eq hq rfl) (hnot q)

theorem reported_of_other {e : RoomCall} (he : ∀ s choice, e ≠ .disconnect s choice)
    (hans : (a.room.call e).2 = none)
    (hseat : ∀ q, a.room.SeatIn q .chargen → ¬ (a.room.call e).1.SeatIn q .abandoned) :
    a.Reported e where
  answer q := by
    rw [hans]
    exact iff_of_false (by simp) (not_closesLast he)
  abandons q hq := iff_of_false (hseat q hq) (not_closesLast he)

theorem seated_connect {room : SessionRoom} (p s : String) (c : Option String) :
    (room.call (.connect p s c)).1.seated = room.seated := by
  cases hc : room.connect p s c with
  | error e => simp only [SessionRoom.call, hc]
  | ok room' =>
    simp only [SessionRoom.call, hc]
    rw [SessionRoom.connect_eq_ok hc]

theorem answer_connect {room : SessionRoom} (p s : String) (c : Option String) :
    (room.call (.connect p s c)).2 = none := by
  cases hc : room.connect p s c with
  | error e => simp only [SessionRoom.call, hc]
  | ok room' => simp only [SessionRoom.call, hc]

theorem reported_step (h : Kept owner a) (e : RoomCall) : a.Reported e := by
  cases e with
  | disconnect s choice => exact reported_disconnect h
  | connect p s c =>
    refine reported_of_other (by simp) (answer_connect p s c) (fun q hq => ?_)
    exact not_abandoned_of_seated_eq hq (by rw [seated_connect])
  | setPlayerIdentity p i =>
    exact reported_of_other (by simp) rfl (fun q hq => not_abandoned_of_seated_eq hq rfl)
  | seat p c =>
    refine reported_of_other (by simp) rfl (fun q hq => ?_)
    by_cases hqp : q = p
    · -- a claim restarts the seat in character generation
      subst hqp
      rintro ⟨seat, hs, hst⟩
      simp only [SessionRoom.call, SessionRoom.seat, Dict.get?_insert, if_true,
        Option.some.injEq] at hs
      rw [← hs] at hst
      simp at hst
    · refine not_abandoned_of_seated_eq hq ?_
      simp [SessionRoom.call, SessionRoom.seat, hqp]
  | transitionToPlaying p =>
    refine reported_of_other (by simp) rfl (fun q hq => ?_)
    by_cases hqp : q = p
    · subst hqp
      obtain ⟨seat₀, hs₀, -⟩ := hq
      rintro ⟨seat, hs, hst⟩
      simp only [SessionRoom.call, SessionRoom.transitionToPlaying, Dict.get?_modify, if_true, hs₀,
        Option.map_some, Option.some.injEq] at hs
      rw [← hs] at hst
      simp at hst
    · refine not_abandoned_of_seated_eq hq ?_
      simp [SessionRoom.call, SessionRoom.transitionToPlaying, Dict.get?_modify, hqp]
  | unseat p =>
    refine reported_of_other (by simp) rfl (fun q hq => ?_)
    by_cases hqp : q = p
    · subst hqp
      rintro ⟨seat, hs, -⟩
      simp [SessionRoom.call, SessionRoom.unseat] at hs
    · refine not_abandoned_of_seated_eq hq ?_
      simp [SessionRoom.call, SessionRoom.unseat, hqp]

/-- **Presence counts sockets.** In every run from a room without sockets in which a socket is
    only ever connected for its owner, the three maps tell in every state who has a socket open,
    and a player is reported gone, and their character generation abandoned, exactly by the
    disconnect of their last open socket. -/
theorem presence_tracks_sockets (owner : String → String) (a : Attendance) (es : List RoomCall)
    (hfresh : a.Fresh) (hown : StepsMeet step (OwnSocket owner) a es) :
    Throughout step Tracked a es ∧ StepsMeet step Reported a es := by
  have hkept : Kept owner a := kept_fresh hfresh
  have hstep : ∀ (a : Attendance) (e : RoomCall), Kept owner a → a.OwnSocket owner e →
      Kept owner (a.step e) := fun _ e h how => kept_step h e how
  constructor
  · exact (throughout_of_invariant hstep hkept hown).mono (fun _ h => h.toTracked)
  · exact stepsMeet_of_invariant hstep (fun _ e h _ => reported_step h e) hkept hown

/-- The stand-in is the least open socket. -/
def leastSocket : SocketChoice where
  pick live := if h : live.Nonempty then live.min' h else ""
  mem live h := by
    rw [dif_pos h]
    exact live.min'_mem h

/-- A player's tab reloads in the middle of character generation, and later closes for good. -/
def reload : List RoomCall :=
  [.connect "alice" "tab-1" none, .seat "alice" none, .connect "alice" "tab-2" none,
    .disconnect "tab-1" leastSocket, .disconnect "tab-2" leastSocket]

theorem presence_tracks_sockets_reload :
    Throughout step Tracked ⟨{ slug := "den", mode := .solo }, ∅⟩ reload ∧
      StepsMeet step Reported ⟨{ slug := "den", mode := .solo }, ∅⟩ reload :=
  presence_tracks_sockets (fun _ => "alice") _ reload ⟨rfl, rfl, rfl, rfl⟩
    ⟨fun _ _ => rfl, trivial, fun _ _ => rfl, trivial, trivial, trivial⟩

end Attendance

end

namespace SessionRoom

/-- The owner a handshake claims a bond to. -/
def claimedOwner (companionOf : Option String) : String := strip (companionOf.getD "")

/-- The player connects as bonded to `q`: `q` is connected under the identity they name. -/
def BondedTo (room : SessionRoom) (companionOf : Option String) (q : String) : Prop :=
  q ∈ room.connected.keys ∧ claimedOwner companionOf ≠ "" ∧
    room.playerIdentities.get? q = some (claimedOwner companionOf)

instance (room : SessionRoom) (companionOf : Option String) (q : String) :
    Decidable (room.BondedTo companionOf q) :=
  inferInstanceAs (Decidable (_ ∧ _ ∧ _))

variable {room : SessionRoom} {p q s : String} {c : Option String}

/-- A connect is refused exactly in a solo room where somebody else is connected and the player
    is bonded to none of them. -/
theorem connect_raises_iff : (∃ e, room.connect p s c = .error e) ↔
    room.mode = .solo ∧ (∃ q ∈ room.connected.keys, q ≠ p) ∧ ∀ q, q ≠ p → ¬ room.BondedTo c q := by
  have hothers : (∃ q ∈ room.connected.keys, q ≠ p) ↔
      room.connected.keys.filter (· ≠ p) ≠ [] := by
    simp
  have hbond : (∀ q, q ≠ p → ¬ room.BondedTo c q) ↔
      (room.connected.keys.filter (· ≠ p)).find?
        (fun q => claimedOwner c ≠ "" ∧ room.playerIdentities.get? q = some (claimedOwner c))
          = none := by
    rw [List.find?_eq_none]
    constructor
    · intro h q hq hclaim
      obtain ⟨hmem, hne⟩ := List.mem_filter.mp hq
      exact h q (of_decide_eq_true hne) ⟨hmem, of_decide_eq_true hclaim⟩
    · intro h q hne hbond
      exact h q (List.mem_filter.mpr ⟨hbond.1, decide_eq_true hne⟩) (decide_eq_true hbond.2)
  rw [hothers, hbond]
  unfold connect
  dsimp only [claimedOwner]
  split
  · rename_i hmode hlist hnone
    -- the one branch that raises: solo, occupied, no bond
    refine iff_of_true ⟨_, rfl⟩ ⟨hmode, ?_, hnone⟩
    rw [hlist]
    exact List.cons_ne_nil _ _
  · rename_i hother
    refine iff_of_false (by simp) ?_
    rintro ⟨hmode, hne, hnone⟩
    obtain ⟨o, os, hlist⟩ := List.exists_cons_of_ne_nil hne
    exact hother o os hmode hlist hnone

theorem mode_call (room : SessionRoom) (e : RoomCall) : (room.call e).1.mode = room.mode := by
  cases e with
  | connect p s c =>
    cases hc : room.connect p s c with
    | error e => simp only [call, hc]
    | ok room' =>
      simp only [call, hc]
      rw [connect_eq_ok hc]
  | disconnect s choice =>
    show (room.disconnect choice.pick s).1.mode = room.mode
    unfold disconnect disconnect.leave
    dsimp only
    repeat' split
    all_goals rfl
  | setPlayerIdentity p i => rfl
  | seat p c => rfl
  | transitionToPlaying p => rfl
  | unseat p => rfl

end SessionRoom

/-- A solo room, its owner, and the companions admitted so far as bonded to the owner. -/
structure SoloRoom where
  room : SessionRoom
  owner : String
  companions : Finset String := ∅
  solo : room.mode = .solo

variable (v : SoloRoom)

namespace SoloRoom

/-- A call on the room; another player who is let in as bonded to the owner is a companion from
    then on. -/
def step (e : RoomCall) : SoloRoom where
  room := (v.room.call e).1
  owner := v.owner
  companions := match e with
    | .connect playerId _ companionOf =>
      if playerId ≠ v.owner ∧ v.room.BondedTo companionOf v.owner then
        insert playerId v.companions
      else v.companions
    | _ => v.companions
  solo := (SessionRoom.mode_call v.room e).trans v.solo

/-- Everybody else who is connected is a companion of the owner. -/
def AmongCompanions : Prop :=
  ∀ q ∈ v.room.connected.keys, q ≠ v.owner → q ∈ v.companions

/-- The guard as it is meant: companions do not keep the owner out, and a player who is neither
    the owner nor bonded to anybody present is kept out while somebody else is there. -/
def Guarded : RoomCall → Prop
  | .connect playerId socketId companionOf =>
    (playerId = v.owner → v.AmongCompanions →
      ∃ room, v.room.connect playerId socketId companionOf = .ok room) ∧
    (playerId ≠ v.owner → (∀ q, q ≠ playerId → ¬ v.room.BondedTo companionOf q) →
      (∃ q ∈ v.room.connected.keys, q ≠ playerId) →
        ∃ e, v.room.connect playerId socketId companionOf = .error e)
  | _ => True

/-- The owner connects to a room without companions, or as somebody's companion. -/
def OwnerAlone : RoomCall → Prop
  | .connect playerId _ companionOf =>
    playerId = v.owner → (∃ q ∈ v.companions, q ≠ v.owner ∧ q ∈ v.room.connected.keys) →
      v.AmongCompanions → ∃ q ∈ v.companions, q ≠ v.owner ∧ v.room.BondedTo companionOf q
  | _ => True

instance (v : SoloRoom) : Decidable v.AmongCompanions :=
  inferInstanceAs (Decidable (∀ q ∈ v.room.connected.keys, q ≠ v.owner → q ∈ v.companions))

instance decidableOwnerAlone (v : SoloRoom) : (e : RoomCall) → Decidable (v.OwnerAlone e)
  | .connect _ _ _ => inferInstanceAs (Decidable (_ → _ → _ → _))
  | .disconnect _ _ => .isTrue trivial
  | .setPlayerIdentity _ _ => .isTrue trivial
  | .seat _ _ => .isTrue trivial
  | .transitionToPlaying _ => .isTrue trivial
  | .unseat _ => .isTrue trivial

variable {v : SoloRoom} {p s : String} {c : Option String}

theorem ok_iff_not_raises {room : SessionRoom} :
    (∃ room', room.connect p s c = .ok room') ↔ ¬ ∃ e, room.connect p s c = .error e := by
  cases room.connect p s c with
  | error e => simp
  | ok room' => simp

/-- Strangers are always kept out: it is what the guard asks about. -/
theorem stranger_raises (hbond : ∀ q, q ≠ p → ¬ v.room.BondedTo c q)
    (hsome : ∃ q ∈ v.room.connected.keys, q ≠ p) :
    ∃ e, v.room.connect p s c = .error e :=
  SessionRoom.connect_raises_iff.mpr ⟨v.solo, hsome, hbond⟩

theorem owner_ok_iff (hamong : v.AmongCompanions) :
    (∃ room, v.room.connect v.owner s c = .ok room) ↔
      ((∃ q ∈ v.companions, q ≠ v.owner ∧ q ∈ v.room.connected.keys) →
        ∃ q ∈ v.companions, q ≠ v.owner ∧ v.room.BondedTo c q) := by
  rw [ok_iff_not_raises, SessionRoom.connect_raises_iff]
  constructor
  · intro hok hsome
    obtain ⟨q, -, hne, hq⟩ := hsome
    by_contra hnone
    refine hok ⟨v.solo, ⟨q, hq, hne⟩, fun r hr hbond => ?_⟩
    exact hnone ⟨r, hamong r hbond.1 hr, hr, hbond⟩
  · rintro himp ⟨-, ⟨q, hq, hne⟩, hnone⟩
    obtain ⟨r, -, hr, hbond⟩ := himp ⟨q, hamong q hq hne, hne, hq⟩
    exact hnone r hr hbond

theorem guarded_iff (e : RoomCall) : v.Guarded e ↔ v.OwnerAlone e := by
  cases e with
  | connect p s c =>
    constructor
    · rintro ⟨howner, -⟩ rfl hsome hamong
      exact (owner_ok_iff hamong).mp (howner rfl hamong) hsome
    · intro halone
      refine ⟨?_, fun _ hbond hsome => stranger_raises hbond hsome⟩
      rintro rfl hamong
      exact (owner_ok_iff hamong).mpr (fun hsome => halone rfl hsome hamong)
  | disconnect s choice => exact Iff.rfl
  | setPlayerIdentity p i => exact Iff.rfl
  | seat p c => exact Iff.rfl
  | transitionToPlaying p => exact Iff.rfl
  | unseat p => exact Iff.rfl

/-- **The solo guard over runs.** The guard does what it is meant to in every step of a run
    exactly if, whenever the owner connects among companions, there are none or the owner
    connects as bonded to one. -/
theorem guarded_iff_ownerAlone (v : SoloRoom) (es : List RoomCall) :
    StepsMeet step Guarded v es ↔ StepsMeet step OwnerAlone v es :=
  stepsMeet_congr (fun e _ _ => guarded_iff e) v

/-! ### Rooms that only the owner and their companions enter -/

/-- The owner's tab reloads while their companion is there: the new socket comes first. -/
def reloadBesideCompanion : List RoomCall :=
  [.connect "alice" "tab-1" none, .setPlayerIdentity "alice" "alice@home",
    .connect "familiar" "pet" (some "alice@home"), .connect "alice" "tab-2" none]

/-- An empty solo room that `alice` is about to open. -/
def den : SoloRoom := { room := { slug := "den", mode := .solo }, owner := "alice", solo := rfl }

/-- The owner's second socket is refused. -/
theorem owner_locked_out : ¬ StepsMeet step Guarded den reloadBesideCompanion := by
  rw [stepsMeet_congr (fun e _ _ => guarded_iff e)]
  decide

end SoloRoom

end Sidequest.Room
