import Mathlib.Order.MinMax

namespace Sidequest.Lib

/-!
# Clamps

A value is brought between two bounds, and then between others, and so on. What such a row of clamps
comes to is known from its greatest outcome: a value falls past a level exactly if that outcome is
not above it.

* `clamp` — between two bounds; `le_clamp`, `clamp_le` — it lies there;
* `clampAll_le_iff` — which levels a value falls past.
-/

variable {α : Type*} [LinearOrder α]

/-- Bring a value between two bounds. -/
def clamp (lo hi x : α) : α := max lo (min hi x)

section Clamp

variable {lo hi x y level : α}

theorem le_clamp (lo hi x : α) : lo ≤ clamp lo hi x := le_max_left _ _

theorem clamp_le (h : lo ≤ hi) (x : α) : clamp lo hi x ≤ hi := max_le h (min_le_left _ _)

theorem clamp_mono (h : x ≤ y) : clamp lo hi x ≤ clamp lo hi y :=
  max_le_max le_rfl (min_le_min le_rfl h)

/-- A value that is not above the upper bound does not fall. -/
theorem le_clamp_of_le (h : x ≤ hi) : x ≤ clamp lo hi x := by
  unfold clamp
  rw [min_eq_right h]
  exact le_max_right _ _

theorem clamp_of_ge (h : lo ≤ hi) (hx : hi ≤ x) : clamp lo hi x = hi := by
  unfold clamp
  rw [min_eq_left hx, max_eq_right h]

end Clamp

/-- One clamp after another. -/
def clampAll (bounds : List (α × α)) (x : α) : α :=
  bounds.foldl (fun x b => clamp b.1 b.2 x) x

/-- The value that is left of the first upper bound: the greatest that comes out. -/
def ceiling : List (α × α) → Option α
  | [] => none
  | b :: bounds => some (clampAll bounds b.2)

section ClampAll

variable {bounds : List (α × α)} {b : α × α} {x y level : α}

@[simp] theorem clampAll_nil (x : α) : clampAll ([] : List (α × α)) x = x := rfl

@[simp] theorem clampAll_cons (b : α × α) (bounds : List (α × α)) (x : α) :
    clampAll (b :: bounds) x = clampAll bounds (clamp b.1 b.2 x) := rfl

theorem clampAll_mono (h : x ≤ y) : clampAll bounds x ≤ clampAll bounds y := by
  induction bounds generalizing x y with
  | nil => exact h
  | cons b bounds ih => exact ih (clamp_mono h)

/-- Nothing comes out above what is left of the first upper bound. -/
theorem clampAll_le_ceiling (h : b.1 ≤ b.2) (x : α) :
    clampAll (b :: bounds) x ≤ clampAll bounds b.2 := by
  rw [clampAll_cons]
  exact clampAll_mono (clamp_le h x)

/-- **A value above a level** comes out at the level or below it exactly if nothing comes out
    above it. -/
theorem clampAll_le_iff (hordered : ∀ b ∈ bounds, b.1 ≤ b.2) (hx : level < x) :
    clampAll bounds x ≤ level ↔ ∃ top, ceiling bounds = some top ∧ top ≤ level := by
  induction bounds generalizing x with
  | nil =>
    constructor
    · intro hle
      exact absurd hle (not_le_of_gt hx)
    · rintro ⟨top, htop, -⟩
      simp [ceiling] at htop
  | cons b bounds ih =>
    have hb := hordered b (.head _)
    have hrest : ∀ b' ∈ bounds, b'.1 ≤ b'.2 := fun b' hb' => hordered b' (.tail b hb')
    constructor
    · intro hle
      refine ⟨_, rfl, ?_⟩
      rcases le_total b.2 x with hge | hle'
      · rw [clampAll_cons, clamp_of_ge hb hge] at hle
        exact hle
      · -- the first clamp does not lower the value, so a later one does
        have habove : level < clamp b.1 b.2 x := hx.trans_le (le_clamp_of_le hle')
        obtain ⟨top, htop, hlevel⟩ := (ih hrest habove).mp hle
        cases bounds with
        | nil => simp [ceiling] at htop
        | cons b' rest =>
          cases htop
          exact (clampAll_le_ceiling (hrest b' (.head _)) b.2).trans hlevel
    · rintro ⟨top, htop, hlevel⟩
      cases htop
      exact (clampAll_le_ceiling hb x).trans hlevel

end ClampAll

end Sidequest.Lib
