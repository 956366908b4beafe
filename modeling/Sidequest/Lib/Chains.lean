import Mathlib.Data.Option.Basic
import Mathlib.Tactic.Common

namespace Sidequest.Lib

/-!
# Chains of a partial function

What is reached from a start by so many steps of a function that need not be defined everywhere.

* `nth next n a` — where `n` steps lead, if they are all defined;
* `nth_congr`, `nth_bind` — functions that agree on a chain, and two functions that take turns.
-/

variable {α β : Type*}

/-- `n` steps of a partial function. -/
def nth (next : α → Option α) : Nat → α → Option α
  | 0, a => some a
  | n + 1, a => (nth next n a).bind next

variable {next : α → Option α} {a b : α} {m n : Nat}

@[simp] theorem nth_zero : nth next 0 a = some a := rfl

theorem nth_succ : nth next (n + 1) a = (nth next n a).bind next := rfl

@[simp] theorem nth_one : nth next 1 a = next a := rfl

/-- The steps of one chain after the other. -/
theorem nth_add (m n : Nat) (a : α) : nth next (m + n) a = (nth next m a).bind (nth next n) := by
  induction n with
  | zero => cases nth next m a <;> simp
  | succ n ih =>
    rw [← Nat.add_assoc, nth_succ, ih, Option.bind_assoc]
    rfl

theorem nth_succ_left (n : Nat) (a : α) : nth next (n + 1) a = (next a).bind (nth next n) := by
  rw [Nat.add_comm, nth_add, nth_one]

theorem nth_of_le (h : nth next m a = none) (hle : m ≤ n) : nth next n a = none := by
  obtain ⟨k, rfl⟩ := Nat.exists_eq_add_of_le hle
  rw [nth_add, h, Option.bind_none]

/-- Going round once more ends at the same place. -/
theorem nth_mul (h : nth next n a = some a) (k : Nat) : nth next (k * n) a = some a := by
  induction k with
  | zero => rw [Nat.zero_mul, nth_zero]
  | succ k ih => rw [Nat.succ_mul, nth_add, ih, Option.bind_some, h]

/-- **No end.** A chain that comes back to where it was never ends. -/
theorem ne_none_of_repeats (hm : nth next m a = some b) (hn : nth next n a = some b) (hlt : m < n)
    (k : Nat) : nth next k a ≠ none := by
  intro hk
  have hround : nth next (n - m) b = some b := by
    have hsum : nth next (m + (n - m)) a = some b := by
      rw [Nat.add_sub_cancel' (Nat.le_of_lt hlt)]
      exact hn
    rw [nth_add, hm, Option.bind_some] at hsum
    exact hsum
  have hlater : nth next (m + k * (n - m)) a = some b := by
    rw [nth_add, hm, Option.bind_some]
    exact nth_mul hround k
  have hle : k ≤ m + k * (n - m) := by
    have hone : 1 ≤ n - m := by omega
    calc k = k * 1 := (Nat.mul_one k).symm
      _ ≤ k * (n - m) := Nat.mul_le_mul_left k hone
      _ ≤ m + k * (n - m) := Nat.le_add_left _ m
  rw [nth_of_le hk hle] at hlater
  cases hlater

/-- Two partial functions that agree wherever a chain gets to have the same chains. -/
theorem nth_congr {next' : α → Option α} (Inv : α → Prop)
    (hstep : ∀ x, Inv x → next x = next' x ∧ ∀ y, next x = some y → Inv y) (hinit : Inv a) (n : Nat) :
    nth next n a = nth next' n a := by
  have hboth : nth next n a = nth next' n a ∧ ∀ y, nth next n a = some y → Inv y := by
    induction n with
    | zero =>
      refine ⟨rfl, fun y hy => ?_⟩
      obtain rfl : a = y := Option.some.inj hy
      exact hinit
    | succ n ih =>
      obtain ⟨heq, hkept⟩ := ih
      rw [nth_succ, nth_succ, ← heq]
      cases hn : nth next n a with
      | none => exact ⟨rfl, fun y hy => by cases hy⟩
      | some x =>
        exact hstep x (hkept x hn)
  exact hboth.1

/-- Two partial functions that take turns: the chains of the one pair are those of the other pair,
    a half step later. -/
theorem nth_bind (f : α → Option β) (g : β → Option α) (n : Nat) (a : α) :
    (nth (fun x => (f x).bind g) n a).bind f = (f a).bind (nth (fun y => (g y).bind f) n) := by
  induction n with
  | zero => cases hf : f a <;> simp [hf]
  | succ n ih =>
    calc (nth (fun x => (f x).bind g) (n + 1) a).bind f
        = ((nth (fun x => (f x).bind g) n a).bind f).bind (fun y => (g y).bind f) := by
          rw [nth_succ]
          simp only [Option.bind_assoc]
      _ = ((f a).bind (nth (fun y => (g y).bind f) n)).bind (fun y => (g y).bind f) := by rw [ih]
      _ = (f a).bind (nth (fun y => (g y).bind f) (n + 1)) := by
          rw [Option.bind_assoc]
          rfl

end Sidequest.Lib
