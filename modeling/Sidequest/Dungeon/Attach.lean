import Sidequest.Lib.Dict
import Sidequest.Lib.Run

namespace Sidequest.Dungeon

open Lib

/-!
# Attaching a dungeon to a session

Every socket of a save attaches the dungeon when it connects and detaches it when it goes. The
first attach registers two observers of region transitions, the look-ahead worker and the quest
observer; a later one is handed the handle of the first. A detach takes the handle and removes
both observers, whoever else still holds it.

* `attachDungeonToSession`, `detachDungeonFromSession` — the seam, with the process's list of
  observers and its register of attached saves;
* `Process` — the seam next to the handles that sockets hold;
* `observedOnce_iff_lastHolder` — each save has its two observers for as long as a socket holds it,
  and none afterwards, in exactly those runs in which a socket only detaches as the last holder.
-/

/-- The handle of a look-ahead worker: an object of its own, over the store of one save. -/
structure Handle where
  number : Nat
  gameSlug : String
deriving DecidableEq

/-- An observer of region transitions: a worker's, or the quest observer registered with it. -/
inductive Observer where
  | lookahead (handle : Handle)
  | quest (handle : Handle)
deriving DecidableEq

namespace Observer

/-- The handle an observer was registered with. -/
def handle : Observer → Handle
  | .lookahead handle => handle
  | .quest handle => handle

/-- The save whose store an observer closes over. -/
def gameSlug (o : Observer) : String := o.handle.gameSlug

/-- The observer is the look-ahead worker of the save. -/
def IsLookahead (slug : String) (o : Observer) : Prop := o = .lookahead o.handle ∧ o.gameSlug = slug

/-- The observer is the quest observer of the save. -/
def IsQuest (slug : String) (o : Observer) : Prop := o = .quest o.handle ∧ o.gameSlug = slug

instance (slug : String) : DecidablePred (IsLookahead slug) :=
  fun _ => inferInstanceAs (Decidable (_ ∧ _))

instance (slug : String) : DecidablePred (IsQuest slug) :=
  fun _ => inferInstanceAs (Decidable (_ ∧ _))

end Observer

/-- Register an observer; a registered one stays where it is. -/
def registerFrontierObserver (observer : Observer) (observers : List Observer) : List Observer :=
  if observer ∈ observers then observers else observers ++ [observer]

/-- Remove an observer, if it is registered. -/
def unregisterFrontierObserver (observer : Observer) (observers : List Observer) : List Observer :=
  observers.erase observer

/-- What the process keeps for all its sessions: the registered observers, the handle and the
    quest observer of each attached save, and the number of the next handle. -/
structure Seam where
  observers : List Observer := []
  attachedSaves : Dict String (Handle × Observer) := .empty
  nextHandle : Nat := 0

/-- The one world that has a dungeon. -/
def dungeonGenre : String := "caverns_and_claudes"
def dungeonWorld : String := "beneath_sunden"

/-- Attach the dungeon of a save. `reads` is what reading the content and the store, and the
    bootstrap of a fresh save, come to; all of it is done before anything is registered. -/
def attachDungeonToSession (genreSlug worldSlug gameSlug : String) (reads : Except String Unit)
    (seam : Seam) : Except String (Option Handle × Seam) :=
  if genreSlug ≠ dungeonGenre ∨ worldSlug ≠ dungeonWorld then .ok (none, seam)
  else
    match seam.attachedSaves.get? gameSlug with
    | some (existing, _) => do
      reads
      .ok (some existing, seam)
    | none => do
      reads
      let handle : Handle := ⟨seam.nextHandle, gameSlug⟩
      let observers := registerFrontierObserver (.lookahead handle) seam.observers
      let eqObserver := Observer.quest handle
      .ok (some handle, {
        observers := registerFrontierObserver eqObserver observers
        attachedSaves := seam.attachedSaves.insert gameSlug (handle, eqObserver)
        nextHandle := seam.nextHandle + 1 })

/-- Detach: the claim on the save is given up with the quest observer, and the worker of the
    handle is unregistered. -/
def detachDungeonFromSession (handle : Option Handle) (seam : Seam) : Seam :=
  match handle with
  | none => seam
  | some handle =>
    let seam :=
      match seam.attachedSaves.entries.find? (fun entry => entry.2.1 = handle) with
      | some (key, _, eqObserver) =>
        { seam with
          attachedSaves := seam.attachedSaves.erase key
          observers := unregisterFrontierObserver eqObserver seam.observers }
      | none => seam
    { seam with observers := unregisterFrontierObserver (.lookahead handle) seam.observers }

/-! ### The sockets of a process -/

/-- A socket that has attached a save and not detached it since. -/
structure Holding where
  (socketId gameSlug : String)
  handle : Handle
deriving DecidableEq

/-- A process: the seam and the handles its sockets hold. -/
structure Process where
  seam : Seam := {}
  held : List Holding := []

/-- A socket attaches a save, or the session it has on a save is cleaned up. -/
inductive SocketEvent where
  | attach (socketId genreSlug worldSlug gameSlug : String) (reads : Except String Unit)
  | detach (socketId gameSlug : String)

namespace Process

/-- What a socket holds of a save. -/
def holding? (p : Process) (socketId gameSlug : String) : Option Holding :=
  p.held.find? (fun h => h.socketId = socketId ∧ h.gameSlug = gameSlug)

/-- The process after an event. An attach that raises leaves it as it is; a socket without a
    handle detaches nothing. -/
def step (p : Process) : SocketEvent → Process
  | .attach socketId genreSlug worldSlug gameSlug reads =>
    match attachDungeonToSession genreSlug worldSlug gameSlug reads p.seam with
    | .error _ => p
    | .ok (none, seam) => { p with seam }
    | .ok (some handle, seam) => ⟨seam, p.held ++ [⟨socketId, gameSlug, handle⟩]⟩
  | .detach socketId gameSlug =>
    match p.holding? socketId gameSlug with
    | none => { p with seam := detachDungeonFromSession none p.seam }
    | some h => ⟨detachDungeonFromSession (some h.handle) p.seam, p.held.erase h⟩

/-- Some socket holds the save. -/
def Held (p : Process) (slug : String) : Prop := ∃ h ∈ p.held, h.gameSlug = slug

instance (p : Process) (slug : String) : Decidable (p.Held slug) :=
  inferInstanceAs (Decidable (∃ h ∈ p.held, h.gameSlug = slug))

/-- Each save has one look-ahead worker and one quest observer while some socket holds it, and
    neither when none does. -/
def ObservedOnce (p : Process) : Prop :=
  ∀ slug,
    p.seam.observers.countP (Observer.IsLookahead slug) = (if p.Held slug then 1 else 0) ∧
    p.seam.observers.countP (Observer.IsQuest slug) = (if p.Held slug then 1 else 0)

/-- A socket that holds a save and detaches it is the only one that holds it. -/
def LastHolder (p : Process) : SocketEvent → Prop
  | .attach _ _ _ _ _ => True
  | .detach socketId gameSlug =>
    ∀ h, p.holding? socketId gameSlug = some h → ¬ ∃ h' ∈ p.held.erase h, h'.gameSlug = gameSlug

/-! ### The invariant -/

/-- Each attached save is claimed by one handle, whose two observers are registered, and exactly the
    sockets that hold the save hold it. -/
structure Settled (p : Process) : Prop where
  nodup : p.seam.observers.Nodup
  mem : ∀ o, o ∈ p.seam.observers ↔
    p.seam.attachedSaves.get? o.gameSlug = some (o.handle, .quest o.handle)
  own : ∀ slug claim, p.seam.attachedSaves.get? slug = some claim →
    claim.1.gameSlug = slug ∧ claim.2 = .quest claim.1 ∧ claim.1.number < p.seam.nextHandle
  held : ∀ h ∈ p.held, p.seam.attachedSaves.get? h.gameSlug = some (h.handle, .quest h.handle)
  holder : ∀ slug ∈ p.seam.attachedSaves.keys, p.Held slug

variable {p : Process} {slug socketId gameSlug genreSlug worldSlug : String} {h : Holding}
  {hd : Handle} {seam : Seam}

theorem settled_empty : Settled {} where
  nodup := List.nodup_nil
  mem o := by simp
  own slug claim hc := by simp at hc
  held h hh := by simp at hh
  holder slug hs := by simp at hs

/-- In a list without repetition, a property of one member alone is counted once. -/
theorem countP_eq_one {α : Type} [DecidableEq α] {l : List α} {q : α → Prop} [DecidablePred q]
    {x : α} (hl : l.Nodup) (hx : x ∈ l) (hq : ∀ a ∈ l, q a ↔ a = x) : l.countP q = 1 := by
  have hcount : l.countP q = l.count x := by
    exact List.countP_congr (fun a ha => by simpa using hq a ha)
  rw [hcount]
  exact List.count_eq_one_of_mem hl hx

theorem Settled.claim_of_held (hp : Settled p) (hs : p.Held slug) :
    ∃ hd : Handle, p.seam.attachedSaves.get? slug = some (hd, .quest hd) ∧ hd.gameSlug = slug := by
  obtain ⟨h, hmem, rfl⟩ := hs
  have hget := hp.held h hmem
  exact ⟨h.handle, hget, (hp.own _ _ hget).1⟩

/-- A settled process has what the claim asks for: the register decides who is observing. -/
theorem Settled.observedOnce (hp : Settled p) : p.ObservedOnce := by
  intro slug
  by_cases hs : p.Held slug
  · rw [if_pos hs]
    obtain ⟨hd, hget, hslug⟩ := hp.claim_of_held hs
    have honly : ∀ o ∈ p.seam.observers, o.gameSlug = slug → o.handle = hd := by
      intro o ho hoslug
      have hclaim := (hp.mem o).mp ho
      rw [hoslug, hget] at hclaim
      exact (Prod.mk.inj (Option.some.inj hclaim)).1.symm
    have hclaim : p.seam.attachedSaves.get? hd.gameSlug = some (hd, .quest hd) := by
      rw [hslug]
      exact hget
    constructor
    · refine countP_eq_one hp.nodup ((hp.mem (.lookahead hd)).mpr hclaim) ?_
      intro o ho
      constructor
      · rintro ⟨hrole, hoslug⟩
        rw [hrole, honly o ho hoslug]
      · rintro rfl
        exact ⟨rfl, hslug⟩
    · refine countP_eq_one hp.nodup ((hp.mem (.quest hd)).mpr hclaim) ?_
      intro o ho
      constructor
      · rintro ⟨hrole, hoslug⟩
        rw [hrole, honly o ho hoslug]
      · rintro rfl
        exact ⟨rfl, hslug⟩
  · rw [if_neg hs]
    have hnone : ∀ o ∈ p.seam.observers, o.gameSlug ≠ slug := by
      rintro o ho rfl
      exact hs (hp.holder _ (Dict.mem_keys_of_get? ((hp.mem o).mp ho)))
    constructor
    · rw [List.countP_eq_zero]
      exact fun o ho hlook => hnone o ho (of_decide_eq_true hlook).2
    · rw [List.countP_eq_zero]
      exact fun o ho hquest => hnone o ho (of_decide_eq_true hquest).2

/-! ### Attaching -/

/-- What an attach can do: nothing, hand out the handle of an attached save, or register. -/
theorem attach_cases {reads : Except String Unit} {answer : Option Handle}
    (ha : attachDungeonToSession genreSlug worldSlug gameSlug reads p.seam = .ok (answer, seam)) :
    (answer = none ∧ seam = p.seam) ∨
    (∃ claim, answer = some claim.1 ∧ seam = p.seam ∧
      p.seam.attachedSaves.get? gameSlug = some claim) ∨
    (answer = some ⟨p.seam.nextHandle, gameSlug⟩ ∧ p.seam.attachedSaves.get? gameSlug = none ∧
      seam = {
        observers := registerFrontierObserver (.quest ⟨p.seam.nextHandle, gameSlug⟩)
          (registerFrontierObserver (.lookahead ⟨p.seam.nextHandle, gameSlug⟩) p.seam.observers)
        attachedSaves := p.seam.attachedSaves.insert gameSlug
          (⟨p.seam.nextHandle, gameSlug⟩, .quest ⟨p.seam.nextHandle, gameSlug⟩)
        nextHandle := p.seam.nextHandle + 1 }) := by
  unfold attachDungeonToSession at ha
  split at ha
  · cases ha
    exact .inl ⟨rfl, rfl⟩
  · cases reads with
    | error e =>
      split at ha
      · cases ha
      · cases ha
    | ok _ =>
      split at ha
      · rename_i existing observer hget
        cases ha
        exact .inr (.inl ⟨_, rfl, rfl, hget⟩)
      · rename_i hget
        cases ha
        exact .inr (.inr ⟨rfl, hget, rfl⟩)

theorem held_append {hs : List Holding} {new : Holding} (slug : String) :
    Held ⟨seam, hs ++ [new]⟩ slug ↔ Held ⟨seam, hs⟩ slug ∨ new.gameSlug = slug := by
  simp [Held, or_and_right, exists_or]

/-- One more holder of an attached save. -/
theorem settled_share (hp : Settled p) {claim : Handle × Observer}
    (hget : p.seam.attachedSaves.get? gameSlug = some claim) :
    Settled ⟨p.seam, p.held ++ [⟨socketId, gameSlug, claim.1⟩]⟩ where
  nodup := hp.nodup
  mem := hp.mem
  own := hp.own
  held h hh := by
    rcases List.mem_append.mp hh with hold | hnew
    · exact hp.held h hold
    · obtain rfl := List.mem_singleton.mp hnew
      show p.seam.attachedSaves.get? gameSlug = some (claim.1, .quest claim.1)
      rw [hget, ← (hp.own _ _ hget).2.1]
  holder slug hs := (held_append slug).mpr (.inl (hp.holder slug hs))

theorem Settled.fresh (hp : Settled p) {o : Observer} (ho : p.seam.nextHandle ≤ o.handle.number) :
    o ∉ p.seam.observers := by
  intro hmem
  have hlt : o.handle.number < p.seam.nextHandle := (hp.own _ _ ((hp.mem o).mp hmem)).2.2
  omega

/-- The first holder of a save: both observers are new, and so is the claim. -/
theorem settled_register (hp : Settled p) (hget : p.seam.attachedSaves.get? gameSlug = none)
    (hhd : hd = ⟨p.seam.nextHandle, gameSlug⟩) :
    Settled ⟨{
        observers := registerFrontierObserver (.quest hd)
          (registerFrontierObserver (.lookahead hd) p.seam.observers)
        attachedSaves := p.seam.attachedSaves.insert gameSlug (hd, .quest hd)
        nextHandle := p.seam.nextHandle + 1 }, p.held ++ [⟨socketId, gameSlug, hd⟩]⟩ := by
  subst hhd
  -- a fresh handle is in no observer yet
  have hlook := hp.fresh (o := .lookahead ⟨p.seam.nextHandle, gameSlug⟩) le_rfl
  have hquest := hp.fresh (o := .quest ⟨p.seam.nextHandle, gameSlug⟩) le_rfl
  have hobs : registerFrontierObserver (.quest ⟨p.seam.nextHandle, gameSlug⟩)
      (registerFrontierObserver (.lookahead ⟨p.seam.nextHandle, gameSlug⟩) p.seam.observers)
      = p.seam.observers ++ [.lookahead ⟨p.seam.nextHandle, gameSlug⟩]
        ++ [.quest ⟨p.seam.nextHandle, gameSlug⟩] := by
    rw [registerFrontierObserver, registerFrontierObserver, if_neg hlook, if_neg]
    simp [hquest]
  rw [hobs]
  refine ⟨?_, fun o => ?_, fun slug claim hc => ?_, fun h hh => ?_, fun slug hs => ?_⟩
  · show (p.seam.observers ++ [_] ++ [_]).Nodup
    rw [List.append_assoc, List.nodup_append]
    refine ⟨hp.nodup, by simp, ?_⟩
    rintro a ha b hb rfl
    simp only [List.cons_append, List.nil_append, List.mem_cons, List.not_mem_nil, or_false] at hb
    rcases hb with rfl | rfl
    · exact hlook ha
    · exact hquest ha
  · show o ∈ p.seam.observers ++ [_] ++ [_] ↔ (p.seam.attachedSaves.insert gameSlug _).get? _ = _
    rw [Dict.get?_insert, List.append_assoc, List.mem_append, hp.mem o]
    by_cases hslug : o.gameSlug = gameSlug
    · rw [if_pos hslug, hslug, hget]
      cases o <;> simp [Observer.handle, eq_comm]
    · rw [if_neg hslug]
      refine or_iff_left (fun hnew => hslug ?_)
      simp only [List.cons_append, List.nil_append, List.mem_cons, List.not_mem_nil,
        or_false] at hnew
      rcases hnew with rfl | rfl
      · rfl
      · rfl
  · rw [Dict.get?_insert] at hc
    by_cases hslug : slug = gameSlug
    · rw [if_pos hslug] at hc
      cases hc
      exact ⟨hslug.symm, rfl, Nat.lt_succ_self _⟩
    · rw [if_neg hslug] at hc
      obtain ⟨hown, hquest', hlt⟩ := hp.own slug claim hc
      exact ⟨hown, hquest', Nat.lt_succ_of_lt hlt⟩
  · show (p.seam.attachedSaves.insert gameSlug _).get? h.gameSlug = _
    rw [Dict.get?_insert]
    rcases List.mem_append.mp hh with hold | hnew
    · have hclaim := hp.held h hold
      have hne : h.gameSlug ≠ gameSlug := by
        rintro heq
        rw [heq, hget] at hclaim
        cases hclaim
      rw [if_neg hne, hclaim]
    · obtain rfl := List.mem_singleton.mp hnew
      rw [if_pos rfl]
  · rw [held_append]
    rcases Dict.mem_keys_insert.mp hs with rfl | hold
    · exact .inr rfl
    · exact .inl (hp.holder slug hold)

theorem settled_attach (hp : Settled p) (reads : Except String Unit) :
    Settled (p.step (.attach socketId genreSlug worldSlug gameSlug reads)) := by
  unfold step
  dsimp only
  split
  · exact hp
  · rename_i seam ha
    rcases attach_cases ha with ⟨-, rfl⟩ | ⟨claim, hne, -⟩ | ⟨hne, -⟩
    · exact hp
    · cases hne
    · cases hne
  · rename_i hd seam ha
    rcases attach_cases ha with ⟨hne, -⟩ | ⟨claim, heq, rfl, hget⟩ | ⟨heq, hget, rfl⟩
    · cases hne
    · cases heq
      exact settled_share hp hget
    · cases heq
      exact settled_register hp hget rfl

/-! ### Detaching -/

/-- A detach of the handle that claims a save gives up the claim and both observers. -/
theorem Settled.detach_eq (hp : Settled p)
    (hget : p.seam.attachedSaves.get? hd.gameSlug = some (hd, .quest hd)) :
    detachDungeonFromSession (some hd) p.seam = {
      observers := (p.seam.observers.erase (.quest hd)).erase (.lookahead hd)
      attachedSaves := p.seam.attachedSaves.erase hd.gameSlug
      nextHandle := p.seam.nextHandle } := by
  have hmem := Dict.get?_eq_some_iff.mp hget
  cases hf : p.seam.attachedSaves.entries.find? (·.2.1 = hd) with
  | none =>
    rw [List.find?_eq_none] at hf
    exact absurd (decide_eq_true rfl) (hf _ hmem)
  | some entry =>
    -- the claim of a handle stands under the save of the handle
    have hhd : entry.2.1 = hd := by simpa using List.find?_some hf
    have hentry : p.seam.attachedSaves.get? entry.1 = some entry.2 :=
      Dict.get?_eq_some_iff.mpr (List.mem_of_find?_eq_some hf)
    obtain ⟨hslug, hquest, -⟩ := hp.own _ _ hentry
    rw [hhd] at hslug hquest
    simp only [detachDungeonFromSession, hf, unregisterFrontierObserver, ← hslug, hquest]

/-- The observers that stay are those of other handles. -/
theorem Settled.mem_detach (hp : Settled p) {o : Observer}
    (hget : p.seam.attachedSaves.get? hd.gameSlug = some (hd, .quest hd)) :
    o ∈ (p.seam.observers.erase (.quest hd)).erase (.lookahead hd) ↔
      (p.seam.attachedSaves.erase hd.gameSlug).get? o.gameSlug
        = some (o.handle, .quest o.handle) := by
  rw [(hp.nodup.erase _).mem_erase_iff, hp.nodup.mem_erase_iff, hp.mem o, Dict.get?_erase]
  by_cases hslug : o.gameSlug = hd.gameSlug
  · rw [if_pos hslug, hslug, hget]
    simp only [reduceCtorEq, iff_false]
    rintro ⟨hlook, hquest, heq⟩
    have hhd : o.handle = hd := (Prod.mk.inj (Option.some.inj heq)).1.symm
    cases o with
    | lookahead handle => exact hlook (congrArg Observer.lookahead hhd)
    | quest handle => exact hquest (congrArg Observer.quest hhd)
  · rw [if_neg hslug]
    refine ⟨fun hand => hand.2.2, fun heq => ⟨?_, ?_, heq⟩⟩
    · rintro rfl
      exact hslug rfl
    · rintro rfl
      exact hslug rfl

/-- The last holder of a save takes its claim and its observers along. -/
theorem settled_release (hp : Settled p) (hh : h ∈ p.held)
    (hlast : ¬ ∃ h' ∈ p.held.erase h, h'.gameSlug = h.gameSlug) :
    Settled ⟨detachDungeonFromSession (some h.handle) p.seam, p.held.erase h⟩ := by
  have hclaim := hp.held h hh
  have hslug : h.handle.gameSlug = h.gameSlug := (hp.own _ _ hclaim).1
  have hget : p.seam.attachedSaves.get? h.handle.gameSlug = some (h.handle, .quest h.handle) := by
    rw [hslug]
    exact hclaim
  rw [hp.detach_eq hget]
  refine ⟨(hp.nodup.erase _).erase _, fun o => hp.mem_detach hget, fun slug claim hc => ?_,
    fun h' hh' => ?_, fun slug hs => ?_⟩
  · rw [Dict.get?_erase] at hc
    by_cases hs : slug = h.handle.gameSlug
    · rw [if_pos hs] at hc
      cases hc
    · rw [if_neg hs] at hc
      exact hp.own slug claim hc
  · show (p.seam.attachedSaves.erase _).get? h'.gameSlug = _
    have hne : h'.gameSlug ≠ h.handle.gameSlug := by
      rw [hslug]
      exact fun heq => hlast ⟨h', hh', heq⟩
    rw [Dict.get?_erase, if_neg hne]
    exact hp.held h' (List.mem_of_mem_erase hh')
  · obtain ⟨hne, hold⟩ := Dict.mem_keys_erase.mp hs
    obtain ⟨h', hh', hs'⟩ := hp.holder slug hold
    refine ⟨h', (List.mem_erase_of_ne ?_).mpr hh', hs'⟩
    rintro rfl
    exact hne (hs'.symm.trans hslug.symm)

/-- The step lemma: attaching, and detaching as the last holder, keep the invariant. -/
theorem settled_step (p : Process) (e : SocketEvent) (hp : Settled p) (hlast : p.LastHolder e) :
    Settled (p.step e) := by
  cases e with
  | attach socketId genreSlug worldSlug gameSlug reads => exact settled_attach hp reads
  | detach socketId gameSlug =>
    unfold step
    dsimp only
    cases hf : p.holding? socketId gameSlug with
    | none => exact hp
    | some h =>
      have hslug : h.gameSlug = gameSlug := by
        have hboth := List.find?_some hf
        simp only [decide_eq_true_eq] at hboth
        exact hboth.2
      exact settled_release hp (List.mem_of_find?_eq_some hf) (hslug ▸ hlast h hf)

/-- A detach that is not the last holder's leaves the others without observers. -/
theorem not_observedOnce_of_not_lastHolder (p : Process) (e : SocketEvent) (hp : Settled p)
    (hnot : ¬ p.LastHolder e) : ¬ (p.step e).ObservedOnce := by
  cases e with
  | attach socketId genreSlug worldSlug gameSlug reads => exact absurd trivial hnot
  | detach socketId gameSlug =>
    simp only [LastHolder, not_forall, not_not] at hnot
    obtain ⟨h, hf, hother⟩ := hnot
    have hslug : h.gameSlug = gameSlug := by
      have hboth := List.find?_some hf
      simp only [decide_eq_true_eq] at hboth
      exact hboth.2
    have hclaim := hp.held h (List.mem_of_find?_eq_some hf)
    have hown : h.handle.gameSlug = h.gameSlug := (hp.own _ _ hclaim).1
    have hget : p.seam.attachedSaves.get? h.handle.gameSlug
        = some (h.handle, .quest h.handle) := by
      rw [hown]
      exact hclaim
    have hstep : p.step (.detach socketId gameSlug)
        = ⟨detachDungeonFromSession (some h.handle) p.seam, p.held.erase h⟩ := by
      rw [step]
      simp only [hf]
    intro honce
    have hheld : Held (p.step (.detach socketId gameSlug)) gameSlug := by
      rw [hstep]
      exact hother
    have hcount := (honce gameSlug).1
    rw [if_pos hheld, hstep, hp.detach_eq hget] at hcount
    have hzero : ((p.seam.observers.erase (.quest h.handle)).erase (.lookahead h.handle)).countP
        (Observer.IsLookahead gameSlug) = 0 := by
      rw [List.countP_eq_zero]
      intro o ho hlook
      have hoslug : o.gameSlug = h.handle.gameSlug :=
        (of_decide_eq_true hlook).2.trans (hslug.symm.trans hown.symm)
      have hstay := (hp.mem_detach hget).mp ho
      rw [Dict.get?_erase, if_pos hoslug] at hstay
      cases hstay
    exact absurd (hzero.symm.trans hcount) (by decide)

/-- **One worker and one quest observer per save** throughout, exactly if every socket that detaches
    a save it holds is the last that holds it. -/
theorem observedOnce_iff_lastHolder (es : List SocketEvent) :
    Throughout step ObservedOnce {} es ↔ StepsMeet step LastHolder {} es :=
  throughout_iff_stepsMeet settled_step (fun _ hp => hp.observedOnce)
    not_observedOnce_of_not_lastHolder settled_empty

/-- Two sockets of one save, the first of which leaves. -/
def firstSocketLeaves : List SocketEvent :=
  [.attach "alice-tab" dungeonGenre dungeonWorld "den" (.ok ()),
    .attach "bob-tab" dungeonGenre dungeonWorld "den" (.ok ()), .detach "alice-tab" "den"]

/-- The second socket is left without a worker. -/
theorem not_observedOnce_firstSocketLeaves :
    ¬ Throughout step ObservedOnce {} firstSocketLeaves := by
  intro h
  have hcount := (h.last "den").1
  exact absurd hcount (by decide)

end Process

end Sidequest.Dungeon
