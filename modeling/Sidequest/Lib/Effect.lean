import Mathlib.Tactic.Common

namespace Sidequest.Lib

/-!
# Computations that change a state and may raise

What was changed before a raise stays changed. Pre- and postconditions for such computations,
with one postcondition for a result and one for what is raised.

* `Effect.exec` — the outcome of a computation and the state it leaves;
* `onPart`, `zoom` — run a computation on a part of the state.
-/

/-- A computation over a state `σ` that may raise an `ε`. -/
abbrev Effect (ε σ α : Type) := ExceptT ε (StateM σ) α

variable {ε σ α β : Type}

/-- The outcome of a computation and the state it leaves. -/
def Effect.exec (m : Effect ε σ α) (s : σ) : Except ε α × σ := StateT.run (ExceptT.run m) s

/-- Run a computation, if the condition holds. -/
def onlyIf (c : Bool) (m : Effect ε σ PUnit) : Effect ε σ PUnit := if c then m else pure ⟨⟩

variable {s s' : σ}

variable (a : α)

namespace Effect

@[simp] theorem exec_pure (s : σ) : (pure a : Effect ε σ α).exec s = (.ok a, s) := rfl

@[simp] theorem exec_throw (e : ε) (s : σ) : (throw e : Effect ε σ α).exec s = (.error e, s) := rfl

@[simp] theorem exec_get (s : σ) : (get : Effect ε σ σ).exec s = (.ok s, s) := rfl

@[simp] theorem exec_modify (f : σ → σ) (s : σ) :
    (modify f : Effect ε σ PUnit).exec s = (.ok ⟨⟩, f s) := rfl

@[simp] theorem exec_set (t s : σ) : (set t : Effect ε σ PUnit).exec s = (.ok ⟨⟩, t) := rfl

/-- A sequence goes on where its first part left the state, unless that part raised. -/
theorem exec_bind (m : Effect ε σ α) (f : α → Effect ε σ β) (s : σ) :
    (m >>= f).exec s =
      match m.exec s with
      | (.ok a, s') => (f a).exec s'
      | (.error e, s') => (.error e, s') := by
  have hbind : (m >>= f).exec s =
      (fun p : Except ε α × σ => match p with
        | (.ok a, s') => (f a).exec s'
        | (.error e, s') => (.error e, s')) (m.exec s) := by
    show (ExceptT.bindCont f (m.exec s).1).run (m.exec s).2 = _
    rcases m.exec s with ⟨_ | _, _⟩ <;> rfl
  exact hbind

/-- A sequence that returned did so in both of its parts. -/
theorem exists_of_exec_bind {m : Effect ε σ α} {f : α → Effect ε σ β} {b : β}
    (h : (m >>= f).exec s = (.ok b, s')) :
    ∃ a t, m.exec s = (.ok a, t) ∧ (f a).exec t = (.ok b, s') := by
  rw [exec_bind] at h
  rcases hm : m.exec s with ⟨e | a, t⟩
  · rw [hm] at h
    simp at h
  · rw [hm] at h
    exact ⟨a, t, rfl, h⟩

/-- A sequence that raised did so in its first part, or in its second after the first returned. -/
theorem exec_bind_error {m : Effect ε σ α} {f : α → Effect ε σ β} {e : ε}
    (h : (m >>= f).exec s = (.error e, s')) :
    m.exec s = (.error e, s') ∨ ∃ a t, m.exec s = (.ok a, t) ∧ (f a).exec t = (.error e, s') := by
  rw [exec_bind] at h
  rcases hm : m.exec s with ⟨e' | a, t⟩
  · rw [hm] at h
    obtain ⟨he, rfl⟩ := Prod.mk.inj h
    cases he
    exact .inl rfl
  · rw [hm] at h
    exact .inr ⟨a, t, rfl, h⟩

/-- What returned has not raised. -/
theorem not_returned_of_raised {r : Except ε α × σ} {a : α} {e : ε} (hraised : r = (.error e, s'))
    (hreturned : r = (.ok a, s)) : False := by
  rw [hreturned] at hraised
  simp at hraised

/-- A sequence raises if its first part does, or its second after the first returned. -/
theorem exec_bind_raises_iff (m : Effect ε σ α) (f : α → Effect ε σ β) (s : σ) :
    (∃ e s', (m >>= f).exec s = (.error e, s')) ↔
      (∃ e s', m.exec s = (.error e, s')) ∨
        ∃ a t, m.exec s = (.ok a, t) ∧ ∃ e s', (f a).exec t = (.error e, s') := by
  constructor
  · rintro ⟨e, s', h⟩
    rcases exec_bind_error h with hm | ⟨a, t, hm, hf⟩
    · exact .inl ⟨e, s', hm⟩
    · exact .inr ⟨a, t, hm, e, s', hf⟩
  · rintro (⟨e, s', h⟩ | ⟨a, t, h, e, s', hf⟩)
    · refine ⟨e, s', ?_⟩
      rw [exec_bind, h]
    · refine ⟨e, s', ?_⟩
      rw [exec_bind, h]
      exact hf

theorem eq_of_exec_modify {f : σ → σ} {x : Except ε PUnit}
    (h : (modify f : Effect ε σ PUnit).exec s = (x, s')) : s' = f s := (congrArg Prod.snd h).symm

/-- What reads the state first goes on from the state it reads. -/
theorem exec_get_bind (f : σ → Effect ε σ β) (s : σ) :
    ((get : Effect ε σ σ) >>= f).exec s = (f s).exec s := rfl

theorem exec_modify_bind (g : σ → σ) (f : PUnit → Effect ε σ β) (s : σ) :
    ((modify g : Effect ε σ PUnit) >>= f).exec s = (f ⟨⟩).exec (g s) := rfl

theorem exec_set_bind (t : σ) (f : PUnit → Effect ε σ β) (s : σ) :
    ((set t : Effect ε σ PUnit) >>= f).exec s = (f ⟨⟩).exec t := rfl

theorem exec_ofExcept_ok_bind (f : α → Effect ε σ β) (s : σ) :
    ((ofExcept (.ok a : Except ε α) : Effect ε σ α) >>= f).exec s = (f a).exec s := rfl

theorem exec_adapt {ε' : Type} (f : ε → ε') (m : Effect ε σ α) (s : σ) :
    Effect.exec (ExceptT.adapt f m) s =
      match m.exec s with
      | (.ok a, s') => (.ok a, s')
      | (.error e, s') => (.error (f e), s') := by
  show (Except.mapError f (m.exec s).1, (m.exec s).2) = _
  rcases m.exec s with ⟨_ | _, _⟩ <;> rfl

/-- What returns with its raises renamed returns without. -/
theorem exec_of_adapt {ε' : Type} {f : ε → ε'} {m : Effect ε σ α} {a : α}
    (h : Effect.exec (ExceptT.adapt f m) s = (.ok a, s')) : m.exec s = (.ok a, s') := by
  rw [exec_adapt] at h
  rcases hm : m.exec s with ⟨e | b, t⟩
  · rw [hm] at h
    simp at h
  · rw [hm] at h
    obtain ⟨hreturned, hstate⟩ := Prod.mk.inj h
    rw [Except.ok.inj hreturned, hstate]

theorem adapt_raises_iff {ε' : Type} (f : ε → ε') (m : Effect ε σ α) (s : σ) :
    (∃ e s', Effect.exec (ExceptT.adapt f m) s = (.error e, s')) ↔
      ∃ e s', m.exec s = (.error e, s') := by
  rw [exec_adapt]
  rcases m.exec s with ⟨e | a, s'⟩
  · exact iff_of_true ⟨f e, s', rfl⟩ ⟨e, s', rfl⟩
  · refine iff_of_false ?_ ?_ <;> rintro ⟨e, t, h⟩ <;>
      simp at h

theorem ofExcept_raises_iff (x : Except ε α) (s : σ) :
    (∃ e s', (ofExcept x : Effect ε σ α).exec s = (.error e, s')) ↔ ¬ ∃ a, x = .ok a := by
  cases x with
  | error e => exact iff_of_true ⟨e, s, rfl⟩ (by simp)
  | ok a =>
    refine iff_of_false ?_ (not_not.mpr ⟨a, rfl⟩)
    rintro ⟨e, t, h⟩
    have hreturned : (ofExcept (.ok a : Except ε α) : Effect ε σ α).exec s = (.ok a, s) := rfl
    exact not_returned_of_raised h hreturned

theorem exec_forM_cons (f : α → Effect ε σ PUnit) (x : α) (l : List α) (s : σ) :
    ((x :: l).forM f).exec s = (f x >>= fun _ => l.forM f).exec s := rfl

end Effect

open Effect

/-! ### Pre- and postconditions -/

/-- From every state with `P`, the computation returns into `Q` or raises into `E`. -/
def Meets (P : σ → Prop) (m : Effect ε σ α) (Q : α → σ → Prop) (E : ε → σ → Prop) : Prop :=
  ∀ s, P s → match m.exec s with
    | (.ok a, s') => Q a s'
    | (.error e, s') => E e s'

/-- Nothing is raised. -/
def Never (ε σ : Type) : ε → σ → Prop := fun _ _ => False

variable {P P' : σ → Prop} {Q Q' : α → σ → Prop} {R : β → σ → Prop} {E E' : ε → σ → Prop}
  {m : Effect ε σ α}

theorem Meets.of_ok (h : Meets P m Q E) {a : α} (hs : P s) (hexec : m.exec s = (.ok a, s')) :
    Q a s' := by
  have hpost := h s hs
  rw [hexec] at hpost
  exact hpost

/-- A computation that never raises returns. -/
theorem Meets.exists_ok (h : Meets P m Q (Never ε σ)) (hs : P s) :
    ∃ a s', m.exec s = (.ok a, s') ∧ Q a s' := by
  have hpost := h s hs
  rcases hexec : m.exec s with ⟨e | a, s'⟩
  · rw [hexec] at hpost
    exact absurd hpost id
  · rw [hexec] at hpost
    exact ⟨a, s', rfl, hpost⟩

/-- Weaker demands are met, too. -/
theorem Meets.weaken (h : Meets P m Q E) (hP : ∀ s, P' s → P s) (hQ : ∀ a s, Q a s → Q' a s)
    (hE : ∀ e s, E e s → E' e s) : Meets P' m Q' E' := by
  intro s hs
  have hpost := h s (hP s hs)
  rcases hexec : m.exec s with ⟨e | a, s'⟩
  · rw [hexec] at hpost
    exact hE e s' hpost
  · rw [hexec] at hpost
    exact hQ a s' hpost

/-- What is met from all states with `P` is met from one of them. -/
theorem Meets.of_state (h : Meets P m Q E) (hs : P s) : Meets (fun s' => s' = s) m Q E :=
  h.weaken (fun _ heq => heq ▸ hs) (fun _ _ hq => hq) (fun _ _ he => he)

theorem meets_pure : Meets (Q a) (pure a : Effect ε σ α) Q E := fun _ hs => hs

/-- **Sequence.** What holds after the first part is what the second one starts from. -/
theorem meets_bind {f : α → Effect ε σ β} (hm : Meets P m Q E) (hf : ∀ a, Meets (Q a) (f a) R E) :
    Meets P (m >>= f) R E := by
  intro s hs
  have hpost := hm s hs
  rw [exec_bind]
  rcases hexec : m.exec s with ⟨e | a, s'⟩
  · rw [hexec] at hpost
    exact hpost
  · rw [hexec] at hpost
    exact hf a s' hpost

/-- **Reading the state** fixes it: the rest starts from a state that is known. -/
theorem meets_get_bind {f : σ → Effect ε σ β} (h : ∀ s, P s → Meets (fun s' => s' = s) (f s) R E) :
    Meets P (get >>= f) R E := by
  intro s hs
  exact h s hs s rfl

/-- A precondition may be taken apart before the computation is looked at. -/
theorem meets_of_forall (h : ∀ s, P s → Meets (fun s' => s' = s) m Q E) : Meets P m Q E :=
  fun s hs => h s hs s rfl

variable {m' : Effect ε σ α}

theorem meets_ite {c : Prop} [Decidable c] (hpos : c → Meets P m Q E) (hneg : ¬ c → Meets P m' Q E) :
    Meets P (if c then m else m') Q E := by
  by_cases hc : c
  · rw [if_pos hc]
    exact hpos hc
  · rw [if_neg hc]
    exact hneg hc

variable {l : List α}

/-- **A loop with an accumulator** keeps what each of its rounds keeps. -/
theorem meets_foldlM {γ : Type} {I : γ → σ → Prop} {f : γ → α → Effect ε σ γ}
    (h : ∀ c, ∀ x ∈ l, Meets (I c) (f c x) I E) (c : γ) : Meets (I c) (l.foldlM f c) I E := by
  induction l generalizing c with
  | nil => exact meets_pure c
  | cons x l ih =>
    exact meets_bind (h c x (.head _))
      (fun c' => ih (fun c y hy => h c y (.tail x hy)) c')

variable {f : α → Effect ε σ PUnit}

/-- **A loop** keeps an invariant that speaks of what is still to be done. -/
theorem meets_forM {I : List α → σ → Prop} (h : ∀ x l, Meets (I (x :: l)) (f x) (fun _ => I l) E)
    (l : List α) : Meets (I l) (l.forM f) (fun _ => I []) E := by
  induction l with
  | nil => exact meets_pure (Q := fun (_ : PUnit) => I []) PUnit.unit
  | cons x l ih => exact meets_bind (h x l) (fun _ => ih)

/-- **A loop with an accumulator** keeps an invariant that speaks of the elements taken so far. -/
theorem meets_foldlM_taken {γ : Type} {I : List α → γ → σ → Prop} {f : γ → α → Effect ε σ γ}
    (h : ∀ taken, ∀ x ∈ l, ∀ c, Meets (I taken c) (f c x) (fun c' => I (taken ++ [x]) c') E) (c : γ) :
    Meets (I [] c) (l.foldlM f c) (fun c' => I l c') E := by
  -- generalize over what has been taken: the list is `taken ++ rest`
  have key : ∀ rest taken c, taken ++ rest = l →
      Meets (I taken c) (rest.foldlM f c) (fun c' => I l c') E := by
    intro rest
    induction rest with
    | nil =>
      intro taken c hl
      rw [List.append_nil] at hl
      subst hl
      exact meets_pure c
    | cons x rest ih =>
      intro taken c hl
      have hx : x ∈ l := by
        rw [← hl]
        simp
      refine meets_bind (h taken x hx c) (fun c' => ih (taken ++ [x]) c' ?_)
      rw [List.append_assoc]
      exact hl
  exact key l [] c rfl

/-! ### How far a loop gets -/

/-- The elements a loop comes to: all of them, or those up to the one that raises. -/
def reached (f : α → Effect ε σ PUnit) : List α → σ → List α
  | [], _ => []
  | x :: l, s => x :: match (f x).exec s with
    | (.ok _, s') => reached f l s'
    | (.error _, _) => []

theorem reached_sublist (f : α → Effect ε σ PUnit) (l : List α) (s : σ) :
    (reached f l s).Sublist l := by
  induction l generalizing s with
  | nil => exact List.Sublist.refl []
  | cons x l ih =>
    unfold reached
    rcases (f x).exec s with ⟨_ | _, s'⟩
    · exact (List.nil_sublist l).cons_cons x
    · exact (ih s').cons_cons x

/-- A loop that returns has come to all elements. -/
theorem reached_eq_of_ok {u : PUnit} (hexec : (l.forM f).exec s = (.ok u, s')) :
    reached f l s = l := by
  induction l generalizing s with
  | nil => rfl
  | cons x l ih =>
    have hcons := hexec
    rw [exec_forM_cons, exec_bind] at hcons
    unfold reached
    rcases hx : (f x).exec s with ⟨e | a, s''⟩
    · rw [hx] at hcons
      simp at hcons
    · rw [hx] at hcons
      show x :: reached f l s'' = x :: l
      rw [ih hcons]

/-- **A loop that may raise.** What speaks of the elements that were come to, and is kept by every
    round whether it returns or raises, holds wherever the loop ends. -/
theorem exec_forM_reached {I : List α → σ → Prop}
    (h : ∀ done x s, I done s → I (done ++ [x]) ((f x).exec s).2) (l done : List α) (hs : I done s) :
    I (done ++ reached f l s) ((l.forM f).exec s).2 := by
  induction l generalizing done s with
  | nil =>
    show I (done ++ []) s
    rw [List.append_nil]
    exact hs
  | cons x l ih =>
    have hx := h done x s hs
    rw [exec_forM_cons, exec_bind]
    unfold reached
    rcases hexec : (f x).exec s with ⟨e | a, s'⟩
    · rw [hexec] at hx
      exact hx
    · rw [hexec] at hx
      have hrest := ih (done ++ [x]) hx
      rw [List.append_assoc] at hrest
      exact hrest

/-- A loop that raises does so at one of its elements, after the elements before it. -/
theorem exists_of_forM_error {e : ε} (hexec : (l.forM f).exec s = (.error e, s')) :
    ∃ before x after s₁, l = before ++ x :: after ∧ (before.forM f).exec s = (.ok ⟨⟩, s₁) ∧
      (f x).exec s₁ = (.error e, s') ∧ reached f l s = before ++ [x] := by
  induction l generalizing s with
  | nil => exact absurd (congrArg Prod.fst hexec) (by simp [List.forM])
  | cons x l ih =>
    have hcons := hexec
    rw [exec_forM_cons, exec_bind] at hcons
    rcases hx : (f x).exec s with ⟨e' | a, s''⟩
    · rw [hx] at hcons
      refine ⟨[], x, l, s, rfl, rfl, hx.trans hcons, ?_⟩
      unfold reached
      rw [hx]
      rfl
    · rw [hx] at hcons
      obtain ⟨before, y, after, s₁, hl, hbefore, hy, hreached⟩ := ih hcons
      refine ⟨x :: before, y, after, s₁, by rw [hl, List.cons_append], ?_, hy, ?_⟩
      · rw [exec_forM_cons, exec_bind, hx]
        exact hbefore
      · unfold reached
        rw [hx]
        show x :: reached f l s'' = _
        rw [hreached, List.cons_append]

/-- **A loop that refuses some of its elements.** If a refused element changes nothing and others
    keep the refusals, the loop ends at the first element refused at its start. -/
theorem forM_stops_at_refused (refuses : σ → α → Option ε) (f : α → Effect ε σ PUnit)
    (hrefused : ∀ x s e, refuses s x = some e → (f x).exec s = (.error e, s))
    (hdone : ∀ x s, refuses s x = none →
      ∃ s', (f x).exec s = (.ok ⟨⟩, s') ∧ refuses s' = refuses s) (l : List α) (s : σ) :
    ((∀ x ∈ l, refuses s x = none) ∧ ∃ s', (l.forM f).exec s = (.ok ⟨⟩, s')) ∨
      ∃ before x after e s', l = before ++ x :: after ∧ (∀ y ∈ before, refuses s y = none) ∧
        refuses s x = some e ∧ (before.forM f).exec s = (.ok ⟨⟩, s') ∧
        (l.forM f).exec s = (.error e, s') := by
  induction l generalizing s with
  | nil => exact .inl ⟨fun x hx => by simp at hx, s, rfl⟩
  | cons x l ih =>
    cases hx : refuses s x with
    | some e =>
      refine .inr ⟨[], x, l, e, s, rfl, fun y hy => by simp at hy, hx, rfl, ?_⟩
      rw [exec_forM_cons, exec_bind, hrefused x s e hx]
    | none =>
      obtain ⟨t, hexec, hsame⟩ := hdone x s hx
      have hcons : ∀ m : List α, ((x :: m).forM f).exec s = (m.forM f).exec t := by
        intro m
        rw [exec_forM_cons, exec_bind, hexec]
      rcases ih t with ⟨hall, s', hl⟩ | ⟨before, y, after, e, s', hsplit, hbefore, hy, hpart, hl⟩
      · left
        rw [hsame] at hall
        exact ⟨List.forall_mem_cons.mpr ⟨hx, hall⟩, s', (hcons l).trans hl⟩
      · right
        rw [hsame] at hbefore hy
        refine ⟨x :: before, y, after, e, s', ?_, ?_, hy, (hcons before).trans hpart,
          (hcons l).trans hl⟩
        · rw [hsplit, List.cons_append]
        · exact List.forall_mem_cons.mpr ⟨hx, hbefore⟩

/-! ### The rounds of a loop -/

/-- The rounds a loop comes to, each with the state it starts from. -/
def visits (f : α → Effect ε σ PUnit) : List α → σ → List (α × σ)
  | [], _ => []
  | x :: l, s => (x, s) :: match (f x).exec s with
    | (.ok _, s') => visits f l s'
    | (.error _, _) => []

theorem map_fst_visits (f : α → Effect ε σ PUnit) (l : List α) (s : σ) :
    (visits f l s).map Prod.fst = reached f l s := by
  induction l generalizing s with
  | nil => rfl
  | cons x l ih =>
    unfold visits reached
    rcases (f x).exec s with ⟨_ | _, s'⟩
    · rfl
    · exact congrArg (x :: ·) (ih s')

/-- **A loop that may raise, round by round.** What is kept by every round, whether it returns or
    raises, holds of all rounds wherever the loop ends. -/
theorem exec_forM_visits {I : List (α × σ) → σ → Prop}
    (h : ∀ done x s, I done s → I (done ++ [(x, s)]) ((f x).exec s).2) (l : List α)
    (done : List (α × σ)) (hs : I done s) : I (done ++ visits f l s) ((l.forM f).exec s).2 := by
  induction l generalizing done s with
  | nil =>
    show I (done ++ []) s
    rw [List.append_nil]
    exact hs
  | cons x l ih =>
    have hx := h done x s hs
    rw [exec_forM_cons, exec_bind]
    unfold visits
    rcases hexec : (f x).exec s with ⟨e | a, s'⟩
    · rw [hexec] at hx
      exact hx
    · rw [hexec] at hx
      have hrest := ih (done ++ [(x, s)]) hx
      rw [List.append_assoc] at hrest
      exact hrest

/-- **A loop that returned, round by round.** Every one of its rounds has returned. -/
theorem forM_visits_of_ok {I : List (α × σ) → σ → Prop}
    (h : ∀ done x s s', I done s → (f x).exec s = (.ok ⟨⟩, s') → I (done ++ [(x, s)]) s')
    {done : List (α × σ)} {u : PUnit} (hexec : (l.forM f).exec s = (.ok u, s')) (hs : I done s) :
    I (done ++ visits f l s) s' := by
  induction l generalizing done s with
  | nil =>
    obtain rfl : s = s' := congrArg Prod.snd hexec
    show I (done ++ []) s
    rw [List.append_nil]
    exact hs
  | cons x l ih =>
    obtain ⟨_, t, hx, hrest⟩ := exists_of_exec_bind hexec
    have htail := ih hrest (h done x s t hs hx)
    unfold visits
    rw [hx]
    rw [List.append_assoc] at htail
    exact htail

/-- What every round that returns keeps holds wherever a round starts. -/
theorem of_mem_visits (h : ∀ x s s', P s → (f x).exec s = (.ok ⟨⟩, s') → P s') (hs : P s)
    {visit : α × σ} (hvisit : visit ∈ visits f l s) : P visit.2 := by
  induction l generalizing s with
  | nil => simp [visits] at hvisit
  | cons x l ih =>
    unfold visits at hvisit
    rcases hx : (f x).exec s with ⟨e | u, t⟩
    · rw [hx] at hvisit
      obtain rfl : visit = (x, s) := by simpa using hvisit
      exact hs
    · rw [hx] at hvisit
      rcases List.mem_cons.mp hvisit with rfl | hrest
      · exact hs
      · exact ih (h x s t hs hx) hrest

/-- **A loop raises exactly if one of its rounds does.** -/
theorem forM_error_iff : (∃ e s', (l.forM f).exec s = (.error e, s')) ↔
      ∃ visit ∈ visits f l s, ∃ e s', (f visit.1).exec visit.2 = (.error e, s') := by
  induction l generalizing s with
  | nil =>
    constructor
    · rintro ⟨e, s', hexec⟩
      exact absurd (congrArg Prod.fst hexec) (by simp [List.forM])
    · rintro ⟨visit, hvisit, -⟩
      simp [visits] at hvisit
  | cons x l ih =>
    rw [exec_forM_cons, exec_bind]
    unfold visits
    rcases hx : (f x).exec s with ⟨e | u, t⟩
    · refine iff_of_true ⟨e, t, rfl⟩ ⟨(x, s), .head _, e, t, hx⟩
    · rw [ih]
      constructor
      · rintro ⟨visit, hvisit, hraise⟩
        exact ⟨visit, .tail _ hvisit, hraise⟩
      · rintro ⟨visit, hvisit, e, s', hraise⟩
        rcases List.mem_cons.mp hvisit with rfl | hrest
        · rw [hx] at hraise
          simp at hraise
        · exact ⟨visit, hrest, e, s', hraise⟩

/-- A loop whose rounds raise unless they are fine raises unless all of them are. -/
theorem forM_raises_iff {fine : α × σ → Prop}
    (h : ∀ x s, (∃ e s', (f x).exec s = (.error e, s')) ↔ ¬ fine (x, s)) (l : List α) (s : σ) :
    (∃ e s', (l.forM f).exec s = (.error e, s')) ↔ ¬ ∀ visit ∈ visits f l s, fine visit := by
  rw [forM_error_iff]
  push Not
  exact exists_congr (fun visit => and_congr_right (fun _ => h visit.1 visit.2))

/-- **What a loop keeps.** If every round keeps `I` exactly if it is fine, and none restores it, then
    the loop keeps `I` exactly if all of its rounds are fine. -/
theorem exec_forM_keeps_iff {I : σ → Prop} {fine : α × σ → Prop}
    (hkeeps : ∀ x s, I s → (I ((f x).exec s).2 ↔ fine (x, s)))
    (hlost : ∀ x s, ¬ I s → ¬ I ((f x).exec s).2) (hs : I s) :
    I ((l.forM f).exec s).2 ↔ ∀ visit ∈ visits f l s, fine visit := by
  have hlostAll : ∀ (l : List α) (s : σ), ¬ I s → ¬ I ((l.forM f).exec s).2 := by
    intro l
    induction l with
    | nil => exact fun s h => h
    | cons x l ih =>
      intro s h
      have hx := hlost x s h
      rw [exec_forM_cons, exec_bind]
      rcases hexec : (f x).exec s with ⟨e | u, t⟩
      · rw [hexec] at hx
        exact hx
      · rw [hexec] at hx
        exact ih t hx
  induction l generalizing s with
  | nil => exact iff_of_true hs (fun visit hvisit => absurd hvisit (by simp [visits]))
  | cons x l ih =>
    have hx := hkeeps x s hs
    have hrest := hlostAll l
    rw [exec_forM_cons, exec_bind]
    unfold visits
    rcases hexec : (f x).exec s with ⟨e | u, t⟩
    · rw [hexec] at hx
      simpa using hx
    · rw [hexec] at hx
      rw [List.forall_mem_cons, ← hx]
      by_cases ht : I t
      · rw [and_iff_right ht]
        exact ih ht
      · exact iff_of_false (hrest t ht) (fun h => ht h.1)

/-! ### What a computation preserves -/

/-- Wherever the computation ends, returning or raising, the state is related to the old one. -/
def Preserves (R : σ → σ → Prop) (m : Effect ε σ α) : Prop := ∀ s, R s (m.exec s).2

section Preserves

variable {R : σ → σ → Prop}

theorem preserves_pure [Std.Refl R] : Preserves R (pure a : Effect ε σ α) :=
  fun s => refl_of R s

theorem preserves_throw [Std.Refl R] (e : ε) : Preserves R (throw e : Effect ε σ α) :=
  fun s => refl_of R s

theorem preserves_get [Std.Refl R] : Preserves R (get : Effect ε σ σ) := fun s => refl_of R s

theorem preserves_modify {f : σ → σ} (h : ∀ s, R s (f s)) :
    Preserves R (modify f : Effect ε σ PUnit) := h

/-- **Sequence.** What both parts preserve, the sequence preserves. -/
theorem Preserves.bind [IsTrans σ R] {f : α → Effect ε σ β} (hm : Preserves R m)
    (hf : ∀ a, Preserves R (f a)) : Preserves R (m >>= f) := by
  intro s
  have hfirst := hm s
  rw [exec_bind]
  rcases hexec : m.exec s with ⟨e | a, s'⟩
  · rw [hexec] at hfirst
    exact hfirst
  · rw [hexec] at hfirst
    exact trans_of R hfirst (hf a s')

/-- **Sequence, from one state.** The second part may rely on what the first one preserved. -/
theorem exec_bind_preserves [IsTrans σ R] {f : α → Effect ε σ β} (hm : R s (m.exec s).2)
    (hf : ∀ a t, m.exec s = (.ok a, t) → R s t → R t ((f a).exec t).2) :
    R s ((m >>= f).exec s).2 := by
  rw [exec_bind]
  rcases hexec : m.exec s with ⟨e | a, t⟩
  · rw [hexec] at hm
    exact hm
  · rw [hexec] at hm
    exact trans_of R hm (hf a t hexec hm)

theorem Preserves.ite {c : Prop} [Decidable c] (hm : Preserves R m) (hm' : Preserves R m') :
    Preserves R (if c then m else m') := by
  by_cases hc : c
  · rw [if_pos hc]
    exact hm
  · rw [if_neg hc]
    exact hm'

/-- What is preserved holds of the state a computation was seen to end in. -/
theorem Preserves.of_exec (hm : Preserves R m) {x : Except ε α} (hexec : m.exec s = (x, s')) :
    R s s' := by
  have h := hm s
  rw [hexec] at h
  exact h

theorem Preserves.onlyIf [Std.Refl R] {c : Bool} {m : Effect ε σ PUnit} (hm : Preserves R m) :
    Preserves R (onlyIf c m) := hm.ite (preserves_pure _)

/-- **A loop with an accumulator** preserves what each of its rounds preserves. -/
theorem preserves_foldlM [IsPreorder σ R] {γ : Type} {f : γ → α → Effect ε σ γ}
    (h : ∀ c x, Preserves R (f c x)) (l : List α) (c : γ) : Preserves R (l.foldlM f c) := by
  induction l generalizing c with
  | nil => exact preserves_pure c
  | cons x l ih =>
    exact (h c x).bind (fun c' => ih c')

/-- **A loop** preserves what the round of each of its elements preserves. -/
theorem preserves_forM_of_mem [IsPreorder σ R] (h : ∀ x ∈ l, Preserves R (f x)) :
    Preserves R (l.forM f) := by
  induction l with
  | nil => exact preserves_pure PUnit.unit
  | cons x l ih =>
    exact (h x (.head _)).bind (fun _ => ih (fun y hy => h y (.tail x hy)))

theorem preserves_forM [IsPreorder σ R] (h : ∀ x, Preserves R (f x)) (l : List α) :
    Preserves R (l.forM f) := preserves_forM_of_mem (fun x _ => h x)

/-- **Where a loop ends.** If rounds only go up, then a loop ends where it began exactly if each of
    its rounds does. -/
theorem exec_forM_stays_iff [IsPreorder σ R] (h : ∀ x, Preserves R (f x)) (l : List α) (s : σ) :
    R ((l.forM f).exec s).2 s ↔ ∀ visit ∈ visits f l s, R ((f visit.1).exec visit.2).2 visit.2 := by
  induction l generalizing s with
  | nil => exact iff_of_true (refl_of R s) (fun visit hvisit => absurd hvisit (by simp [visits]))
  | cons x l ih =>
    have hx := h x s
    rw [exec_forM_cons, exec_bind]
    unfold visits
    rcases hexec : (f x).exec s with ⟨e | u, t⟩
    · simp [hexec]
    · have hrest : R t ((l.forM f).exec t).2 := preserves_forM h l t
      rw [hexec] at hx
      rw [List.forall_mem_cons, hexec, ← ih]
      constructor
      · intro hend
        exact ⟨trans_of R hrest hend, trans_of R hend hx⟩
      · rintro ⟨hback, hend⟩
        exact trans_of R hend hback

/-- **A loop with results** preserves what the round of each of its elements preserves. -/
theorem preserves_mapM_of_mem [IsPreorder σ R] {f : α → Effect ε σ β}
    (h : ∀ x ∈ l, Preserves R (f x)) : Preserves R (l.mapM f) := by
  induction l with
  | nil => exact preserves_pure []
  | cons x l ih =>
    rw [List.mapM_cons]
    refine (h x (.head _)).bind (fun b => Preserves.bind ?_ (fun bs =>
      preserves_pure (b :: bs)))
    exact ih (fun y hy => h y (.tail x hy))

theorem preserves_mapM [IsPreorder σ R] {f : α → Effect ε σ β} (h : ∀ x, Preserves R (f x))
    (l : List α) : Preserves R (l.mapM f) := preserves_mapM_of_mem (fun x _ => h x)

theorem preserves_ofExcept [Std.Refl R] (x : Except ε α) :
    Preserves R (ofExcept x : Effect ε σ α) := by
  cases x with
  | ok a => exact preserves_pure a
  | error e => exact preserves_throw e

/-- What holds of the state, and of wherever the rest ends from it, holds wherever the whole ends. -/
theorem exec_ofExcept_bind_of {x : Except ε α} {f : α → Effect ε σ β} (hs : P s)
    (hf : ∀ a, x = .ok a → P ((f a).exec s).2) :
    P (((ofExcept x : Effect ε σ α) >>= f).exec s).2 := by
  cases x with
  | ok a => exact hf a rfl
  | error e => exact hs

theorem Preserves.mono {R' : σ → σ → Prop} (hm : Preserves R m) (h : ∀ s s', R s s' → R' s s') :
    Preserves R' m := fun s => h s _ (hm s)

/-- Renaming what is raised leaves the state alone. -/
theorem preserves_adapt {ε' : Type} {f : ε → ε'} (hm : Preserves R m) :
    Preserves R (ExceptT.adapt f m : Effect ε' σ α) := by
  intro s
  exact hm s

/-- What is preserved holds between the state a computation starts in and the one it ends in. -/
theorem Preserves.meets_of_state (hm : Preserves R m) (s : σ) :
    Meets (fun s' => s' = s) m (fun _ s' => R s s') (fun _ s' => R s s') := by
  intro s' heq
  subst heq
  have hrel := hm s'
  rcases hexec : m.exec s' with ⟨e | a, s''⟩
  · rw [hexec] at hrel
    exact hrel
  · rw [hexec] at hrel
    exact hrel

/-- What is preserved holds wherever the computation ends; a fact about no state stays. -/
theorem Preserves.meets [IsTrans σ R] (hm : Preserves R m) (s : σ) (φ : Prop) :
    Meets (fun s' => R s s' ∧ φ) m (fun _ s' => R s s' ∧ φ) (fun _ s' => R s s') := by
  rintro s' ⟨hrel, hφ⟩
  have hnext := trans_of R hrel (hm s')
  rcases hexec : m.exec s' with ⟨e | a, s''⟩
  · rw [hexec] at hnext
    exact hnext
  · rw [hexec] at hnext
    exact ⟨hnext, hφ⟩

end Preserves

/-! ### Safe computations -/

/-- From every state with `P`, the computation returns, and `P` holds again. -/
def Safe (P : σ → Prop) (m : Effect ε σ α) : Prop := Meets P m (fun _ => P) (Never ε σ)

theorem safe_pure : Safe P (pure a : Effect ε σ α) := fun _ hs => hs

theorem safe_get_bind {f : σ → Effect ε σ β} (h : ∀ s, P s → Safe P (f s)) : Safe P (get >>= f) :=
  meets_get_bind (fun s hs => (h s hs).of_state hs)

theorem Safe.bind {f : α → Effect ε σ β} (hm : Safe P m) (hf : ∀ a, Safe P (f a)) :
    Safe P (m >>= f) := meets_bind hm hf

theorem Safe.ite {c : Prop} [Decidable c] (hpos : c → Safe P m) (hneg : ¬ c → Safe P m') :
    Safe P (if c then m else m') := meets_ite hpos hneg

theorem safe_foldlM {γ : Type} {f : γ → α → Effect ε σ γ} (h : ∀ c, ∀ x ∈ l, Safe P (f c x)) (c : γ) :
    Safe P (l.foldlM f c) :=
  meets_foldlM (I := fun _ => P) h c

theorem safe_mapM {f : α → Effect ε σ β} (h : ∀ x ∈ l, Safe P (f x)) : Safe P (l.mapM f) := by
  induction l with
  | nil => exact safe_pure []
  | cons x l ih =>
    rw [List.mapM_cons]
    refine (h x (.head _)).bind (fun b => Safe.bind ?_ (fun bs => safe_pure (b :: bs)))
    exact ih (fun y hy => h y (.tail x hy))

theorem safe_modify {f : σ → σ} (h : ∀ s, P s → P (f s)) :
    Safe P (modify f : Effect ε σ PUnit) := fun s hs => h s hs

theorem safe_set {t : σ} (ht : P t) : Safe P (set t : Effect ε σ PUnit) := fun _ _ => ht

/-- A result that is at hand raises nothing. -/
theorem safe_ofExcept_bind {x : Except ε α} {f : α → Effect ε σ β}
    (h : ∃ a, x = .ok a ∧ Safe P (f a)) : Safe P ((ofExcept x : Effect ε σ α) >>= f) := by
  obtain ⟨a, rfl, ha⟩ := h
  exact ha

theorem Safe.onlyIf {c : Bool} {m : Effect ε σ PUnit} (hm : Safe P m) : Safe P (onlyIf c m) :=
  Safe.ite (fun _ => hm) (fun _ => safe_pure _)

theorem safe_forM (h : ∀ x, Safe P (f x)) (l : List α) : Safe P (l.forM f) :=
  meets_forM (I := fun _ => P) (fun x _ => h x) l

/-- What is safe does not raise. -/
theorem Safe.not_raises (h : Safe P m) (hs : P s) : ¬ ∃ e s', m.exec s = (.error e, s') := by
  rintro ⟨e, s', hexec⟩
  have hpost := h s hs
  rw [hexec] at hpost
  exact hpost

/-- A computation that returns is safe for all that it preserves. -/
theorem Meets.safe {R : σ → σ → Prop} (h : Meets P m Q (Never ε σ)) (hR : Preserves R m)
    (hP : ∀ s s', P s → R s s' → P s') : Safe P m := by
  intro s hs
  have hpost := h s hs
  have hrel := hR s
  rcases hexec : m.exec s with ⟨e | a, s'⟩
  · rw [hexec] at hpost
    exact hpost
  · rw [hexec] at hrel
    exact hP s s' hs hrel

/-! ### Computations that lead somewhere -/

/-- From every state with `P` the computation returns, if at all, into a state with `P'`. -/
def Leads (P : σ → Prop) (m : Effect ε σ α) (P' : σ → Prop) : Prop :=
  Meets P m (fun _ => P') (fun _ _ => True)

section Leads

variable {P'' : σ → Prop}

theorem leads_pure : Leads P (pure a : Effect ε σ α) P := fun _ hs => hs

theorem leads_get_bind {f : σ → Effect ε σ β} (h : ∀ s, P s → Leads P (f s) P') :
    Leads P (get >>= f) P' :=
  meets_get_bind (fun s hs => (h s hs).of_state hs)

/-- **Sequence.** -/
theorem Leads.bind {f : α → Effect ε σ β} (hm : Leads P m P') (hf : ∀ a, Leads P' (f a) P'') :
    Leads P (m >>= f) P'' := meets_bind hm hf

theorem Leads.ite {c : Prop} [Decidable c] (hpos : c → Leads P m P') (hneg : ¬ c → Leads P m' P') :
    Leads P (if c then m else m') P' := meets_ite hpos hneg

theorem leads_modify {f : σ → σ} (h : ∀ s, P s → P' (f s)) :
    Leads P (modify f : Effect ε σ PUnit) P' := fun s hs => h s hs

theorem leads_set {t : σ} (ht : P' t) : Leads P (set t : Effect ε σ PUnit) P' := fun _ _ => ht

/-- **A loop** leads back to where each of its rounds leads back to. -/
theorem leads_forM (h : ∀ x, Leads P (f x) P) (l : List α) : Leads P (l.forM f) P :=
  meets_forM (I := fun _ => P) (fun x _ => h x) l

theorem Leads.onlyIf {c : Bool} {m : Effect ε σ PUnit} (hm : Leads P m P) :
    Leads P (onlyIf c m) P := Leads.ite (fun _ => hm) (fun _ => leads_pure _)

/-- What a computation preserves tells where it leads. -/
theorem Preserves.leads {R : σ → σ → Prop} (hm : Preserves R m)
    (h : ∀ s s', P s → R s s' → P' s') : Leads P m P' := by
  intro s hs
  have hrel := hm s
  rcases hexec : m.exec s with ⟨e | a, s'⟩
  · exact trivial
  · rw [hexec] at hrel
    exact h s s' hs hrel

end Leads

/-! ### Parts of the state -/

variable {τ : Type}

/-- Run a computation on a part of the state; raise where the state has no such part. What the
    computation changed before a raise stays changed. -/
def onPart (part : σ → Option τ) (put : τ → σ → σ) (absent : ε) (m : Effect ε τ α) : Effect ε σ α :=
  ExceptT.mk (m := StateM σ) fun s => match part s with
    | none => (.error absent, s)
    | some t => ((m.exec t).1, put (m.exec t).2 s)

variable {part : σ → Option τ} {put : τ → σ → σ} {absent : ε} {n : Effect ε τ α}

theorem exec_onPart (part : σ → Option τ) (put : τ → σ → σ) (absent : ε) (n : Effect ε τ α)
    (s : σ) : (onPart part put absent n).exec s = match part s with
      | none => (.error absent, s)
      | some t => ((n.exec t).1, put (n.exec t).2 s) := rfl

/-- Where the part is there, the computation on it decides. -/
theorem meets_onPart {P' : τ → Prop} {Q' : α → τ → Prop} {E' : ε → τ → Prop}
    (hn : Meets P' n Q' E') (hpart : ∀ s, P s → ∃ t, part s = some t ∧ P' t)
    (hQ : ∀ s t a t', P s → part s = some t → Q' a t' → Q a (put t' s))
    (hE : ∀ s t e t', P s → part s = some t → E' e t' → E e (put t' s)) :
    Meets P (onPart part put absent n) Q E := by
  intro s hs
  obtain ⟨t, ht, hP'⟩ := hpart s hs
  have hpost := hn t hP'
  have hwhole : (onPart part put absent n).exec s = ((n.exec t).1, put (n.exec t).2 s) := by
    rw [exec_onPart, ht]
  rw [hwhole]
  rcases hexec : n.exec t with ⟨e | a, t'⟩
  · rw [hexec] at hpost
    exact hE s t e t' hs ht hpost
  · rw [hexec] at hpost
    exact hQ s t a t' hs ht hpost

/-- What is preserved of the part is preserved of the whole. -/
theorem preserves_onPart {R : σ → σ → Prop} [Std.Refl R] {S : τ → τ → Prop}
    (hn : Preserves S n) (h : ∀ s t t', part s = some t → S t t' → R s (put t' s)) :
    Preserves R (onPart part put absent n) := by
  intro s
  rw [exec_onPart]
  cases ht : part s with
  | none => exact refl_of R s
  | some t => exact h s t _ ht (hn t)

/-- Run a computation on a part of the state that is always there. -/
def zoom (part : σ → τ) (put : τ → σ → σ) (m : Effect ε τ α) : Effect ε σ α :=
  ExceptT.mk (m := StateM σ) fun s => ((m.exec (part s)).1, put (m.exec (part s)).2 s)

theorem exec_zoom (view : σ → τ) (put : τ → σ → σ) (n : Effect ε τ α) (s : σ) :
    (zoom view put n).exec s = ((n.exec (view s)).1, put (n.exec (view s)).2 s) := rfl

/-- What returns on a part. -/
theorem exec_of_zoom {view : σ → τ} {put : τ → σ → σ} {n : Effect ε τ α} {a : α}
    (h : (zoom view put n).exec s = (.ok a, s')) :
    ∃ t, n.exec (view s) = (.ok a, t) ∧ s' = put t s := by
  rw [exec_zoom] at h
  rcases hn : n.exec (view s) with ⟨b, t⟩
  rw [hn] at h
  cases h
  exact ⟨t, rfl, rfl⟩

/-- What is preserved of the part is preserved of the whole. -/
theorem preserves_zoom {R : σ → σ → Prop} {S : τ → τ → Prop} {view : σ → τ} {put : τ → σ → σ}
    {n : Effect ε τ α} (hn : Preserves S n) (h : ∀ s t, S (view s) t → R s (put t s)) :
    Preserves R (zoom view put n) := fun s => h s _ (hn (view s))

/-- A computation on a part raises where it does on the part. -/
theorem zoom_raises_iff (view : σ → τ) (put : τ → σ → σ) (n : Effect ε τ α) (s : σ) :
    (∃ e s', (zoom view put n).exec s = (.error e, s')) ↔
      ∃ e t, n.exec (view s) = (.error e, t) := by
  rw [exec_zoom]
  rcases n.exec (view s) with ⟨e | a, t⟩
  · exact iff_of_true ⟨e, put t s, rfl⟩ ⟨e, t, rfl⟩
  · refine iff_of_false ?_ ?_ <;> rintro ⟨e, s', h⟩ <;>
      simp at h

end Sidequest.Lib
