import Mathlib.Data.List.Lex
import Mathlib.Tactic.Linarith

namespace Sidequest.Lib

/-!
# Digits packed into one number

A number and a list of digits, packed into a fixed number of places of a base; a list with fewer
digits than there are places is filled up with zeros. Where no digit is zero, the packed numbers
are in the order of the number and then of the lists.

* `packed base places start digits` — the packed number;
* `packed_lt_iff` — the order of packed numbers is lexicographic.
-/

/-- The digits after a number, in so many places of a base. -/
def packed (base : Int) (places : Nat) (start : Int) (digits : List Nat) : Int :=
  ((digits ++ List.replicate places 0).take places).foldl (fun (n : Int) (v : Nat) => n * base + v) start

variable {base : Int}

theorem packed_zero (start : Int) (digits : List Nat) : packed base 0 start digits = start := by
  unfold packed
  rfl

/-- The first digit joins the number; where there is none, a zero does. -/
theorem packed_succ (places : Nat) (start : Int) (digits : List Nat) :
    packed base (places + 1) start digits
      = packed base places (start * base + digits.headD 0) digits.tail := by
  unfold packed
  cases digits with
  | nil =>
    rfl
  | cons v digits =>
    rw [List.cons_append, List.take_succ_cons, List.foldl_cons]
    -- one of the zeros that fill up is not needed after a digit
    have hfill : (digits ++ List.replicate (places + 1) 0).take places
        = (digits ++ List.replicate places 0).take places := by
      rw [List.replicate_succ', ← List.append_assoc, List.take_append_of_le_length (by simp)]
    rw [hfill]
    rfl

/-- A number and a digit are ordered by the number, then by the digit. -/
theorem mul_add_lt_iff {m n d e : Int} (hd : 0 ≤ d ∧ d < base) (he : 0 ≤ e ∧ e < base) :
    m * base + d < n * base + e ↔ m < n ∨ m = n ∧ d < e := by
  rcases lt_trichotomy m n with hlt | rfl | hgt
  · refine iff_of_true ?_ (.inl hlt)
    have hstep : (m + 1) * base ≤ n * base := mul_le_mul_of_nonneg_right (by omega) (by omega)
    linarith
  · constructor
    · intro h
      exact .inr ⟨rfl, by omega⟩
    · rintro (h | ⟨-, h⟩)
      · exact absurd h (lt_irrefl m)
      · omega
  · refine iff_of_false ?_ (by omega)
    have hstep : (n + 1) * base ≤ m * base := mul_le_mul_of_nonneg_right (by omega) (by omega)
    linarith

/-- The same number comes of the same number and digit only. -/
theorem mul_add_eq_iff {m n d e : Int} (hd : 0 ≤ d ∧ d < base) (he : 0 ≤ e ∧ e < base) :
    m * base + d = n * base + e ↔ m = n ∧ d = e := by
  have hlt := mul_add_lt_iff (m := m) (n := n) hd he
  have hgt := mul_add_lt_iff (m := n) (n := m) he hd
  constructor
  · omega
  · rintro ⟨rfl, rfl⟩
    rfl

/-- Digits of a base that are not zero. -/
def NonzeroDigits (base : Int) (digits : List Nat) : Prop :=
  ∀ v ∈ digits, 0 < v ∧ (v : Int) < base

theorem NonzeroDigits.tail {digits : List Nat} (h : NonzeroDigits base digits) :
    NonzeroDigits base digits.tail :=
  fun v hv => h v (List.mem_of_mem_tail hv)

/-- What is packed first is a digit, too. -/
theorem NonzeroDigits.headD {digits : List Nat} (h : NonzeroDigits base digits) (hbase : 0 < base) :
    0 ≤ (digits.headD 0 : Int) ∧ (digits.headD 0 : Int) < base := by
  cases digits with
  | nil => exact ⟨le_refl 0, hbase⟩
  | cons v digits =>
    have hv := h v (.head _)
    exact ⟨by simp, hv.2⟩

/-- Lists of digits are ordered by their first digits, of which a missing one is the least, and
    then by the rest. -/
theorem lt_iff_headD_tail {ds es : List Nat} (hds : NonzeroDigits base ds)
    (hes : NonzeroDigits base es) :
    ds < es ↔ ds.headD 0 < es.headD 0 ∨ ds.headD 0 = es.headD 0 ∧ ds.tail < es.tail := by
  cases ds with
  | nil =>
    cases es with
    | nil => simp
    | cons e es =>
      have he := hes e (.head _)
      exact iff_of_true (List.nil_lt_cons e es) (.inl he.1)
  | cons d ds =>
    cases es with
    | nil =>
      have hd := hds d (.head _)
      refine iff_of_false (List.not_lt_nil _) ?_
      simp only [List.headD_cons, List.headD_nil, List.tail_cons, List.tail_nil]
      omega
    | cons e es => exact List.cons_lt_cons_iff

/-- **The order of packed numbers** is that of the numbers, and of the lists of digits where the
    numbers are the same. -/
theorem packed_lt_iff (hbase : 0 < base) (places : Nat) {m n : Int} {ds es : List Nat}
    (hds : NonzeroDigits base ds) (hes : NonzeroDigits base es) (hdsLength : ds.length ≤ places)
    (hesLength : es.length ≤ places) :
    packed base places m ds < packed base places n es ↔ m < n ∨ m = n ∧ ds < es := by
  induction places generalizing m n ds es with
  | zero =>
    rw [packed_zero, packed_zero, List.length_eq_zero_iff.mp (Nat.le_zero.mp hdsLength),
      List.length_eq_zero_iff.mp (Nat.le_zero.mp hesLength)]
    simp
  | succ places ih =>
    have hd := hds.headD hbase
    have he := hes.headD hbase
    rw [packed_succ, packed_succ, ih hds.tail hes.tail (by rw [List.length_tail]; omega)
      (by rw [List.length_tail]; omega), mul_add_lt_iff hd he, mul_add_eq_iff hd he,
      lt_iff_headD_tail hds hes, Nat.cast_lt, Nat.cast_inj]
    tauto

end Sidequest.Lib
