import Mathlib.Data.Rat.Floor

namespace Sidequest.Lib

/-!
# Rounding

Rounding to the nearest integer with ties to the even one, and rounding to a number of decimal
places, over the exact rationals.
-/

variable (places : Nat) (q : ℚ)

/-- `round(q)`: the nearest integer, of two equally near ones the even one. -/
def roundHalfEven : ℤ :=
  let f := ⌊q⌋
  let r := q - f
  if r < 1 / 2 then f
  else if 1 / 2 < r then f + 1
  else if f % 2 = 0 then f else f + 1

/-- `round(q, places)`. -/
def roundTo : ℚ := roundHalfEven (q * 10 ^ places) / 10 ^ places

/-- Rounding moves a number by one half at most. -/
theorem sub_half_le_roundHalfEven : q - 1 / 2 ≤ roundHalfEven q := by
  have hhigh : q < ⌊q⌋ + 1 := Int.lt_floor_add_one q
  unfold roundHalfEven
  dsimp only
  split
  · linarith
  · split
    · push_cast
      linarith
    · split
      · linarith
      · push_cast
        linarith

/-- An integer is rounded to itself. -/
theorem roundHalfEven_intCast (n : ℤ) : roundHalfEven (n : ℚ) = n := by
  unfold roundHalfEven
  simp

theorem roundTo_one : roundTo places 1 = 1 := by
  have hcast : (1 : ℚ) * 10 ^ places = ((10 ^ places : ℤ) : ℚ) := by
    push_cast
    ring
  unfold roundTo
  rw [hcast, roundHalfEven_intCast]
  push_cast
  exact div_self (by positivity)

/-- Rounding does not pass an integer. -/
theorem roundHalfEven_le {q : ℚ} {n : ℤ} (h : q ≤ n) : roundHalfEven q ≤ n := by
  have hfloor : ⌊q⌋ ≤ n := Int.floor_le_iff.mpr (by linarith)
  -- where it rounds up, the number is above its floor, so the floor is below the integer
  have hup : 0 < q - ⌊q⌋ → ⌊q⌋ + 1 ≤ n := by
    intro hpos
    have hlt : (⌊q⌋ : ℚ) < n := by linarith
    have hlt' : ⌊q⌋ < n := by exact_mod_cast hlt
    omega
  unfold roundHalfEven
  dsimp only
  split
  · exact hfloor
  · split
    · exact hup (by linarith)
    · split
      · exact hfloor
      · exact hup (by linarith)

/-- Rounding rounds up what has more than half of the way up behind it, or half of it from an odd
    number on; an integer is its own ceiling. -/
theorem roundHalfEven_eq_ceil_iff : roundHalfEven q = ⌈q⌉ ↔
    q = ⌊q⌋ ∨ 1 / 2 < q - ⌊q⌋ ∨ q - ⌊q⌋ = 1 / 2 ∧ ⌊q⌋ % 2 = 1 := by
  by_cases hint : q = ⌊q⌋
  · refine iff_of_true ?_ (.inl hint)
    rw [hint, roundHalfEven_intCast, Int.ceil_intCast]
  · have hlow : (⌊q⌋ : ℚ) < q := lt_of_le_of_ne (Int.floor_le q) (Ne.symm hint)
    have hceil : ⌈q⌉ = ⌊q⌋ + 1 := by
      rw [Int.ceil_eq_iff]
      have hhigh := Int.lt_floor_add_one q
      push_cast
      exact ⟨by linarith, hhigh.le⟩
    unfold roundHalfEven
    rw [hceil]
    simp only [hint, false_or]
    split
    · refine iff_of_false (by omega) ?_
      rintro (h | h) <;> linarith
    · split
      · rename_i h
        exact iff_of_true rfl (.inl h)
      · have hhalf : q - ⌊q⌋ = 1 / 2 := by linarith
        rw [hhalf]
        split
        · refine iff_of_false (by omega) ?_
          rintro (h | h)
          · exact absurd h (lt_irrefl _)
          · omega
        · exact iff_of_true rfl (.inr ⟨rfl, by omega⟩)

/-- Rounding keeps the order. -/
theorem roundHalfEven_mono {q q' : ℚ} (h : q ≤ q') : roundHalfEven q ≤ roundHalfEven q' := by
  have hfloor : ⌊q⌋ ≤ ⌊q'⌋ := Int.floor_le_floor h
  rcases eq_or_lt_of_le hfloor with heq | hlt
  · -- on the same floor the remainders are in order
    unfold roundHalfEven
    dsimp only
    rw [heq]
    split
    · split
      · exact le_rfl
      · split
        · omega
        · split <;> omega
    · split
      · have hhalf : 1 / 2 < q' - ⌊q'⌋ := by linarith
        rw [if_neg (not_lt.mpr (le_of_lt hhalf)), if_pos hhalf]
      · have hhalf : ¬ q' - ⌊q'⌋ < 1 / 2 := by linarith
        by_cases heven : ⌊q'⌋ % 2 = 0
        · split <;> omega
        · split <;> omega
  · -- a floor apart, rounding up reaches the next floor at most
    have hup : roundHalfEven q ≤ ⌊q⌋ + 1 := by
      unfold roundHalfEven
      dsimp only
      split
      · omega
      · split
        · omega
        · split <;> omega
    have hdown : ⌊q'⌋ ≤ roundHalfEven q' := by
      unfold roundHalfEven
      dsimp only
      split
      · omega
      · split
        · omega
        · split <;> omega
    omega

/-- Rounding to decimal places does not pass 1. -/
theorem roundTo_le_one {q : ℚ} (h : q ≤ 1) : roundTo places q ≤ 1 := by
  have hpos : (0 : ℚ) < 10 ^ places := by positivity
  unfold roundTo
  rw [div_le_one hpos]
  have hle : q * 10 ^ places ≤ ((10 ^ places : ℤ) : ℚ) := by
    push_cast
    nlinarith
  exact_mod_cast roundHalfEven_le hle

/-- Rounding to decimal places moves a number by half a unit of the last place at most. -/
theorem sub_le_roundTo : q - 1 / 2 / 10 ^ places ≤ roundTo places q := by
  have hpos : (0 : ℚ) < 10 ^ places := by positivity
  have h := sub_half_le_roundHalfEven (q * 10 ^ places)
  unfold roundTo
  rw [le_div_iff₀ hpos, sub_mul, div_mul_cancel₀ _ (ne_of_gt hpos)]
  exact h

end Sidequest.Lib
