import Mathlib.Order.Defs.PartialOrder
import Sidequest.Lib.Effect

namespace Sidequest.Lib

/-!
# States that only rise

A change that leaves a state as it is or raises its rank cannot be undone by more such changes. So
a loop of them that ends where it began has left the state alone in every round.

* `Rises rank a b` — `b` is `a`, or of a higher rank;
* `Steady part f l s` — every round the loop comes to leaves a part of the state alone;
* `part_exec_forM_eq_iff` — the loop leaves the part as it was exactly if every round does.
-/

universe u v

/-- Left alone, or raised. -/
def Rises {τ : Type u} {ρ : Type v} [LT ρ] (rank : τ → ρ) (a b : τ) : Prop :=
  b = a ∨ rank a < rank b

section Rises

variable {τ : Type u} {ρ : Type v} [Preorder ρ] {rank : τ → ρ} {a b c : τ}

theorem Rises.refl (a : τ) : Rises rank a a := .inl rfl

theorem Rises.trans (hab : Rises rank a b) (hbc : Rises rank b c) : Rises rank a c := by
  rcases hab with rfl | hab
  · exact hbc
  · rcases hbc with rfl | hbc
    · exact .inr hab
    · exact .inr (lt_trans hab hbc)

/-- What rises and comes back has not moved. -/
theorem Rises.antisymm (hab : Rises rank a b) (hba : Rises rank b a) : b = a := by
  rcases hab with h | hab
  · exact h
  · rcases hba with h | hba
    · exact h.symm
    · exact absurd hba (lt_asymm hab)

end Rises

variable {ε σ α : Type} {τ : Type u}

open Effect

/-- Every round that the loop comes to leaves the part alone. -/
def Steady (part : σ → τ) (f : α → Effect ε σ PUnit) : List α → σ → Prop
  | [], _ => True
  | x :: l, s => part ((f x).exec s).2 = part s ∧
    match (f x).exec s with
    | (.ok _, s') => Steady part f l s'
    | (.error _, _) => True

variable {ρ : Type v} [Preorder ρ] {rank : τ → ρ} {part : σ → τ} {f : α → Effect ε σ PUnit}

/-- A loop of rounds that let the part rise lets it rise. -/
theorem rises_exec_forM (h : ∀ x s, Rises rank (part s) (part ((f x).exec s).2)) (l : List α)
    (s : σ) : Rises rank (part s) (part ((l.forM f).exec s).2) := by
  induction l generalizing s with
  | nil => exact Rises.refl (part s)
  | cons x l ih =>
    have hx := h x s
    rw [exec_forM_cons, exec_bind]
    rcases hexec : (f x).exec s with ⟨e | u, s'⟩
    · rw [hexec] at hx
      exact hx
    · rw [hexec] at hx
      exact hx.trans (ih s')

/-- **A loop of rises.** It ends with the part as it began exactly if no round has moved it. -/
theorem part_exec_forM_eq_iff (h : ∀ x s, Rises rank (part s) (part ((f x).exec s).2))
    (l : List α) (s : σ) : part ((l.forM f).exec s).2 = part s ↔ Steady part f l s := by
  induction l generalizing s with
  | nil => exact ⟨fun _ => trivial, fun _ => rfl⟩
  | cons x l ih =>
    have hx := h x s
    rw [exec_forM_cons, exec_bind]
    unfold Steady
    rcases hexec : (f x).exec s with ⟨e | u, s'⟩
    · exact ⟨fun heq => ⟨heq, trivial⟩, fun hsteady => hsteady.1⟩
    · rw [hexec] at hx
      show part ((l.forM f).exec s').2 = part s ↔ part s' = part s ∧ Steady part f l s'
      constructor
      · intro heq
        -- the rest of the loop leads back down to where this round began
        have hback : Rises rank (part s') (part s) := heq ▸ rises_exec_forM h l s'
        have hsame : part s' = part s := hx.antisymm hback
        exact ⟨hsame, (ih s').mp (heq.trans hsame.symm)⟩
      · rintro ⟨hsame, hsteady⟩
        exact ((ih s').mpr hsteady).trans hsame

end Sidequest.Lib
