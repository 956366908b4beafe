import Mathlib.Tactic.Positivity
import Sidequest.Lib.Effect

namespace Sidequest.Lib

/-!
# Computations that draw

The draws of `random.Random` as computations over a generator, which raise where there is nothing
to draw from, and what such computations return whatever is drawn.

* `choice`, `sample`, `shuffled` — draws from a list;
* `Yields.meets_bind` — what is known of what was drawn is known in what follows.
-/

section

/-- The draws still to come. -/
def Rng := Nat → Nat

variable (rng : Rng)

namespace Rng

/-- The next draw, and the draws after it. -/
def next : Nat × Rng := (rng 0, fun n => rng (n + 1))

/-- `rng.randint(a, b)`: an integer from `a` to `b`, both included. -/
def randint (a b : Int) : Int × Rng :=
  (a + (rng.next.1 : Int) % (b - a + 1), rng.next.2)

/-- `rng.random()`: a multiple of `2⁻⁵³` from 0 up to, but not including, 1. -/
def random : ℚ × Rng := (((rng.next.1 % 2 ^ 53 : Nat) : ℚ) / 2 ^ 53, rng.next.2)

/-- The elements at positions `i` and `j`, exchanged. -/
def swap {α : Type} (l : List α) (i j : Nat) : List α :=
  match l[i]?, l[j]? with
  | some x, some y => (l.set i y).set j x
  | _, _ => l

/-- The positions from `i` down to 1, each exchanged with one that is not above it. -/
def shuffleFrom {α : Type} : Nat → List α → Rng → List α × Rng
  | 0, l, rng => (l, rng)
  | i + 1, l, rng => shuffleFrom i (swap l (i + 1) (rng.next.1 % (i + 2))) rng.next.2

/-- `rng.shuffle(l)`. -/
def shuffle {α : Type} (l : List α) : List α × Rng := shuffleFrom (l.length - 1) l rng

theorem random_nonneg : 0 ≤ rng.random.1 :=
  div_nonneg (Nat.cast_nonneg _) (by positivity)

end Rng

end

variable {ε σ α β : Type}

/-! ### What a computation returns -/

/-- From whatever state, a value that is returned has `Q`. -/
def Yields (m : Effect ε σ α) (Q : α → Prop) : Prop :=
  ∀ s a s', m.exec s = (.ok a, s') → Q a

open Effect

variable {m : Effect ε σ α} {Q Q' : α → Prop} {R : β → Prop}

theorem yields_pure {a : α} (h : Q a) : Yields (pure a : Effect ε σ α) Q := by
  intro s b s' hexec
  have hab : a = b := Except.ok.inj (congrArg Prod.fst hexec)
  exact hab ▸ h

theorem yields_throw (e : ε) : Yields (throw e : Effect ε σ α) Q := by
  intro s a s' hexec
  exact absurd (congrArg Prod.fst hexec) (by simp)

theorem yields_any (m : Effect ε σ α) : Yields m (fun _ => True) := fun _ _ _ _ => trivial

/-- A weaker law. -/
theorem Yields.mono (hm : Yields m Q) (h : ∀ a, Q a → Q' a) : Yields m Q' :=
  fun s a s' hexec => h a (hm s a s' hexec)

/-- **Sequence.** -/
theorem yields_bind {f : α → Effect ε σ β} (hm : Yields m Q) (hf : ∀ a, Q a → Yields (f a) R) :
    Yields (m >>= f) R := by
  intro s b s' hexec
  rw [exec_bind] at hexec
  rcases hfirst : m.exec s with ⟨e | a, s₁⟩
  · rw [hfirst] at hexec
    exact absurd (congrArg Prod.fst hexec) (by simp)
  · rw [hfirst] at hexec
    exact hf a (hm s a s₁ hfirst) s₁ b s' hexec

theorem yields_ite {c : Prop} [Decidable c] {m' : Effect ε σ α} (hpos : c → Yields m Q)
    (hneg : ¬ c → Yields m' Q) : Yields (if c then m else m') Q := by
  by_cases hc : c
  · rw [if_pos hc]
    exact hpos hc
  · rw [if_neg hc]
    exact hneg hc

/-- **A loop** returns one value for each of its elements. -/
theorem yields_mapM {ι : Type} {f : ι → Effect ε σ α} {P : ι → α → Prop}
    (h : ∀ i, Yields (f i) (P i)) (l : List ι) :
    Yields (l.mapM f) (fun as => as.length = l.length ∧ (∀ a ∈ as, ∃ i ∈ l, P i a) ∧
      ∀ i ∈ l, ∃ a ∈ as, P i a) := by
  induction l with
  | nil => exact yields_pure ⟨rfl, by simp, by simp⟩
  | cons i l ih =>
    rw [List.mapM_cons]
    refine yields_bind (h i) (fun a ha => yields_bind ih (fun as has => yields_pure ?_))
    obtain ⟨hlength, hfrom, hto⟩ := has
    refine ⟨by rw [List.length_cons, hlength, List.length_cons], fun b hb => ?_, fun j hj => ?_⟩
    · rcases List.mem_cons.mp hb with rfl | hb
      · exact ⟨i, List.mem_cons_self, ha⟩
      · obtain ⟨j, hj, hP⟩ := hfrom b hb
        exact ⟨j, List.mem_cons_of_mem i hj, hP⟩
    · rcases List.mem_cons.mp hj with rfl | hj
      · exact ⟨a, List.mem_cons_self, ha⟩
      · obtain ⟨b, hb, hP⟩ := hto j hj
        exact ⟨b, List.mem_cons_of_mem a hb, hP⟩

/-! ### Draws -/

/-- The next draw. -/
def draw : Effect ε Rng Nat := do
  let rng ← get
  set rng.next.2
  pure rng.next.1

/-- `rng.randrange(n)`: an integer from 0 up to, but not including, `n`. -/
def randrange (nothing : ε) (n : Nat) : Effect ε Rng Nat :=
  if n = 0 then throw nothing else do
    let k ← draw
    pure (k % n)

/-- `rng.randint(a, b)`: an integer from `a` to `b`, both included. -/
def randint (nothing : ε) (a b : Int) : Effect ε Rng Int :=
  if b < a then throw nothing else do
    let k ← draw
    pure (a + (k : Int) % (b - a + 1))

/-- `rng.random()`: a number from 0 up to, but not including, 1. -/
def uniform : Effect ε Rng ℚ := do
  let rng ← get
  set rng.random.2
  pure rng.random.1

/-- `rng.choice(l)`: one of the elements. -/
def choice (nothing : ε) (l : List α) : Effect ε Rng α := do
  let k ← randrange nothing l.length
  match l[k]? with
  | some a => pure a
  | none => throw nothing

/-- `rng.sample(l, k)`: `k` of the elements, one draw for each from those that are left. -/
def sample (nothing : ε) : Nat → List α → Effect ε Rng (List α)
  | 0, _ => pure []
  | k + 1, l => do
    let i ← randrange nothing l.length
    match l[i]? with
    | some a => do
      let rest ← sample nothing k (l.eraseIdx i)
      pure (a :: rest)
    | none => throw nothing

variable (l : List α)

/-- A shuffled copy. -/
def shuffled : Effect ε Rng (List α) := do
  let rng ← get
  set (rng.shuffle l).2
  pure (rng.shuffle l).1

theorem yields_ofExcept {x : Except ε α} (h : ∀ a, x = .ok a → Q a) :
    Yields (ofExcept x : Effect ε σ α) Q := by
  cases x with
  | ok a => exact yields_pure (h a rfl)
  | error e => exact yields_throw e

variable (nothing : ε)

/-- A draw from a range is in it. -/
theorem yields_randrange (n : Nat) : Yields (randrange nothing n) (· < n) := by
  refine yields_ite (fun _ => yields_throw nothing) (fun hn => ?_)
  exact yields_bind (yields_any draw) (fun k _ => yields_pure (Nat.mod_lt k (by omega)))

/-- A draw between two bounds is between them. -/
theorem yields_randint (a b : Int) : Yields (randint nothing a b) (fun n => a ≤ n ∧ n ≤ b) := by
  refine yields_ite (fun _ => yields_throw nothing) (fun hle => ?_)
  refine yields_bind (yields_any draw) (fun k _ => yields_pure ?_)
  have hlow := Int.emod_nonneg (k : Int) (show b - a + 1 ≠ 0 by omega)
  have hhigh := Int.emod_lt_of_pos (k : Int) (show 0 < b - a + 1 by omega)
  omega

/-- A choice from a list is one of its members. -/
theorem yields_choice (l : List α) : Yields (choice nothing l) (· ∈ l) := by
  refine yields_bind (yields_any _) (fun k _ => ?_)
  rcases hk : l[k]? with _ | a
  · exact yields_throw nothing
  · exact yields_pure (List.mem_of_getElem? hk)

/-- A sample has as many elements as were asked for, at different places of the list. -/
theorem yields_sample (k : Nat) (l : List α) :
    Yields (sample nothing k l) (fun s => s.length = k ∧ s.Subperm l) := by
  induction k generalizing l with
  | zero => exact yields_pure ⟨rfl, List.nil_subperm⟩
  | succ k ih =>
    refine yields_bind (yields_any _) (fun i _ => ?_)
    rcases hi : l[i]? with _ | a
    · exact yields_throw nothing
    · refine yields_bind (ih (l.eraseIdx i)) (fun rest hrest => yields_pure ⟨?_, ?_⟩)
      · rw [List.length_cons, hrest.1]
      · obtain ⟨hlt, ha⟩ := List.getElem?_eq_some_iff.mp hi
        have hperm : (a :: l.eraseIdx i).Perm l := by
          rw [← ha]
          exact List.getElem_cons_eraseIdx_perm hlt
        exact ((List.subperm_cons a).mpr hrest.2).trans hperm.subperm

/-! ### Shuffling -/

/-- Exchanging two elements keeps them all. -/
theorem perm_swap (i j : Nat) : (Rng.swap l i j).Perm l := by
  unfold Rng.swap
  rcases hi : l[i]? with _ | x
  · exact List.Perm.refl l
  · rcases hj : l[j]? with _ | y
    · exact List.Perm.refl l
    · obtain ⟨hilt, rfl⟩ := List.getElem?_eq_some_iff.mp hi
      obtain ⟨hjlt, rfl⟩ := List.getElem?_eq_some_iff.mp hj
      exact List.set_set_perm hilt hjlt

/-- The swaps of a shuffle permute the list. -/
theorem perm_shuffleFrom (i : Nat) (l : List α) (rng : Rng) :
    (Rng.shuffleFrom i l rng).1.Perm l := by
  induction i generalizing l rng with
  | zero => exact List.Perm.refl l
  | succ i ih => exact (ih _ _).trans (perm_swap l _ _)

/-- **A shuffled list** is a permutation of the list. -/
theorem yields_shuffled : Yields (shuffled l : Effect ε Rng (List α)) (fun s => s.Perm l) := by
  refine yields_bind (yields_any _) (fun rng _ => ?_)
  refine yields_bind (yields_any _) (fun _ _ => ?_)
  exact yields_pure (perm_shuffleFrom _ l rng)

/-! ### Draws that return -/

/-- From whatever state, the computation returns. -/
def Returns (m : Effect ε σ α) : Prop := ∀ s, ∃ a s', m.exec s = (.ok a, s')

/-- **A draw** that returns is followed by what is run with the value drawn. -/
theorem Yields.meets_bind {f : α → Effect ε σ β} {R : β → σ → Prop} {E : ε → σ → Prop}
    (hm : Yields m Q) (hreturns : Returns m) (hf : ∀ a, Q a → Meets (fun _ => True) (f a) R E) :
    Meets (fun _ => True) (m >>= f) R E := by
  intro s _
  obtain ⟨a, s', hexec⟩ := hreturns s
  rw [exec_bind, hexec]
  exact hf a (hm s a s' hexec) s' trivial

theorem returns_ofExcept {x : Except ε α} {a : α} (h : x = .ok a) :
    Returns (ofExcept x : Effect ε σ α) := by
  subst h
  exact fun s => ⟨a, s, rfl⟩

theorem returns_uniform : Returns (uniform : Effect ε Rng ℚ) := fun _ => ⟨_, _, rfl⟩

/-- A draw returns if there is something to draw from. -/
theorem returns_randint {a b : Int} (h : a ≤ b) : Returns (randint nothing a b) := by
  unfold randint
  rw [if_neg (Int.not_lt.mpr h)]
  exact fun rng => ⟨_, _, rfl⟩

theorem returns_randrange {n : Nat} (h : n ≠ 0) : Returns (randrange nothing n) := by
  unfold randrange
  rw [if_neg h]
  exact fun rng => ⟨_, _, rfl⟩

theorem returns_choice {l : List α} (h : l ≠ []) : Returns (choice nothing l) := by
  intro rng
  have hlength : l.length ≠ 0 := fun hzero => h (List.length_eq_zero_iff.mp hzero)
  obtain ⟨k, rng', hexec⟩ := returns_randrange nothing hlength rng
  have hlt : k < l.length := yields_randrange nothing l.length rng k rng' hexec
  refine ⟨l[k], rng', ?_⟩
  unfold choice
  rw [exec_bind, hexec]
  dsimp only
  rw [List.getElem?_eq_getElem hlt]
  rfl

theorem returns_shuffled : Returns (shuffled l : Effect ε Rng (List α)) :=
  fun _ => ⟨_, _, rfl⟩

end Sidequest.Lib
