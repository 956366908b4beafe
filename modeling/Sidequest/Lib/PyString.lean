import Mathlib.Data.List.DropRight

namespace Sidequest.Lib

/-!
# Python strings and integers

Strings as lists of characters, with the whitespace class that `str.strip`, `str.isspace` and
the pattern class `\s` share for `str` in Python.

* `isSpace` — the whitespace characters, all of them;
* `stripChars` / `strip` — both ends trimmed, and `stripChars_idem`;
* `pyInt?_toString` — a number that was printed is read back, so printing is injective
  (`toString_inj`).
-/

section

/-- The characters Python counts as whitespace: the five ASCII controls from tab to carriage
    return, the four information separators, the blank, and the Unicode separators. -/
def isSpace (c : Char) : Bool :=
  let n := c.toNat
  (9 ≤ n && n ≤ 13) || (28 ≤ n && n ≤ 32) || n == 0x85 || n == 0xa0 || n == 0x1680
    || (0x2000 ≤ n && n ≤ 0x200a) || n == 0x2028 || n == 0x2029 || n == 0x202f || n == 0x205f
    || n == 0x3000

variable (l : List Char)

/-- `str.strip()` on the characters: whitespace removed from both ends. -/
def stripChars : List Char := (l.dropWhile isSpace).rdropWhile isSpace

theorem stripChars_infix_self : stripChars l <:+: l :=
  (List.rdropWhile_prefix isSpace (l.dropWhile isSpace)).isInfix.trans
    (List.dropWhile_suffix isSpace).isInfix

/-- What is stripped off is blank. -/
theorem exists_stripChars : ∃ a b, l = a ++ (stripChars l ++ b) ∧ (∀ c ∈ a, isSpace c = true) ∧
      ∀ c ∈ b, isSpace c = true := by
  refine ⟨l.takeWhile isSpace, (l.dropWhile isSpace).rtakeWhile isSpace, ?_, ?_, ?_⟩
  · rw [stripChars, List.rdropWhile_append_rtakeWhile, List.takeWhile_append_dropWhile]
  · exact fun c hc => List.mem_takeWhile_imp hc
  · exact fun c hc => List.mem_rtakeWhile_imp hc

/-- Text that is stripped is not stripped any further. -/
theorem stripChars_idem : stripChars (stripChars l) = stripChars l := by
  unfold stripChars
  have hfront : ((l.dropWhile isSpace).rdropWhile isSpace).dropWhile isSpace
      = (l.dropWhile isSpace).rdropWhile isSpace := by
    rw [List.dropWhile_eq_self_iff]
    intro hpos
    have hpre := List.rdropWhile_prefix isSpace (l.dropWhile isSpace)
    have hlt := Nat.lt_of_lt_of_le hpos hpre.length_le
    rw [hpre.getElem hpos]
    exact List.dropWhile_get_zero_not isSpace l hlt
  rw [hfront, List.rdropWhile_idempotent]

/-- `str.strip()`. -/
def strip (s : String) : String := String.ofList (stripChars s.toList)

end

/-- The zeros of the scripts that have decimal digits; each is followed by its other nine. -/
def decimalZeros : List Nat :=
  [0x30, 0x660, 0x6f0, 0x7c0, 0x966, 0x9e6, 0xa66, 0xae6, 0xb66, 0xbe6, 0xc66, 0xce6, 0xd66,
    0xde6, 0xe50, 0xed0, 0xf20, 0x1040, 0x1090, 0x17e0, 0x1810, 0x1946, 0x19d0, 0x1a80, 0x1a90,
    0x1b50, 0x1bb0, 0x1c40, 0x1c50, 0xa620, 0xa8d0, 0xa900, 0xa9d0, 0xa9f0, 0xaa50, 0xabf0,
    0xff10, 0x104a0, 0x10d30, 0x11066, 0x110f0, 0x11136, 0x111d0, 0x112f0, 0x11450, 0x114d0,
    0x11650, 0x116c0, 0x11730, 0x118e0, 0x11950, 0x11c50, 0x11d50, 0x11da0, 0x11f50, 0x16a60,
    0x16ac0, 0x16b50, 0x1d7ce, 0x1d7d8, 0x1d7e2, 0x1d7ec, 0x1d7f6, 0x1e140, 0x1e2f0, 0x1e4f0,
    0x1e950, 0x1fbf0]

/-- The decimal digit a character stands for. -/
def decimalValue? (c : Char) : Option Nat :=
  (decimalZeros.find? (fun first => first ≤ c.toNat ∧ c.toNat < first + 10)).map (c.toNat - ·)

/-- Read digits after `acc`; an underscore stands between two digits only. `afterDigit` says
    whether the last character was a digit. -/
def readDigits (acc : Nat) : (afterDigit : Bool) → List Char → Option Nat
  | afterDigit, [] => if afterDigit then some acc else none
  | afterDigit, c :: cs =>
    if c = '_' then
      if afterDigit then readDigits acc false cs else none
    else
      match decimalValue? c with
      | some digit => readDigits (10 * acc + digit) true cs
      | none => none

/-- The separators U+001C to U+001F. -/
def isSeparator (c : Char) : Bool := 0x1C ≤ c.toNat && c.toNat ≤ 0x1F

/-- `int(text)` on the characters of a text. In ASCII text the separators are no blanks to it. -/
def pyInt? (l : List Char) : Option Int :=
  if l.any isSeparator && l.all (fun c => c.toNat < 0x80) then none
  else match stripChars l with
    | '+' :: cs => (readDigits 0 false cs).map Int.ofNat
    | '-' :: cs => (readDigits 0 false cs).map (fun n => -Int.ofNat n)
    | cs => (readDigits 0 false cs).map Int.ofNat

/-! ### Printed numbers -/

theorem decimalValue?_of_isDigit {c : Char} (h : c.isDigit = true) :
    decimalValue? c = some (c.toNat - '0'.toNat) := by
  have hrange : 0x30 ≤ c.toNat ∧ c.toNat < 0x30 + 10 := by
    rw [Char.isDigit, Bool.and_eq_true, decide_eq_true_eq, decide_eq_true_eq] at h
    have hlow : (48 : Nat) ≤ c.toNat := h.1
    have hhigh : c.toNat ≤ (57 : Nat) := h.2
    omega
  rw [decimalValue?, decimalZeros, List.find?_cons_of_pos (by simpa using hrange)]
  rfl

theorem readDigits_of_isDigit {l : List Char} (h : ∀ c ∈ l, c.isDigit = true) (acc : Nat) :
    readDigits acc true l = some (Nat.ofDigitChars 10 l acc) := by
  induction l generalizing acc with
  | nil => rfl
  | cons c cs ih =>
    have hc : c.isDigit = true := h c (.head _)
    have hne : c ≠ '_' := by
      rintro rfl
      simp at hc
    rw [readDigits, if_neg hne, decimalValue?_of_isDigit hc, Nat.ofDigitChars_cons]
    exact ih (fun d hd => h d (.tail c hd)) _

theorem isSpace_of_isDigit {c : Char} (h : c.isDigit = true) : isSpace c = false := by
  rw [Char.isDigit, Bool.and_eq_true, decide_eq_true_eq, decide_eq_true_eq] at h
  have hlow : (48 : Nat) ≤ c.toNat := h.1
  have hhigh : c.toNat ≤ (57 : Nat) := h.2
  simp only [isSpace, Bool.or_eq_false_iff, Bool.and_eq_false_iff, decide_eq_false_iff_not,
    beq_eq_false_iff_ne]
  omega

/-- Text without blanks is stripped of nothing. -/
theorem stripChars_eq_self {l : List Char} (h : ∀ c ∈ l, isSpace c = false) : stripChars l = l := by
  have hfront : l.dropWhile isSpace = l := by
    cases l with
    | nil => rfl
    | cons c cs => rw [List.dropWhile_cons_of_neg (by rw [h c (.head _)]; simp)]
  rw [stripChars, hfront, List.rdropWhile_eq_self_iff]
  intro hne
  rw [h _ (List.getLast_mem hne)]
  simp

/-- **A number that was printed is read back.** -/
theorem pyInt?_toString (n : Nat) : pyInt? (toString n).toList = some n := by
  have hdigit : ∀ c ∈ Nat.toDigits 10 n, c.isDigit = true := fun c hc =>
    Nat.isDigit_of_mem_toDigits (by decide) (by decide) hc
  have hlist : (toString n).toList = Nat.toDigits 10 n := Nat.toList_repr
  have hstrip : stripChars (Nat.toDigits 10 n) = Nat.toDigits 10 n :=
    stripChars_eq_self (fun c hc => isSpace_of_isDigit (hdigit c hc))
  have hread : readDigits 0 false (Nat.toDigits 10 n) = some n := by
    cases hl : Nat.toDigits 10 n with
    | nil =>
      have hpos : 0 < (Nat.toDigits 10 n).length := Nat.length_toDigits_pos
      rw [hl] at hpos
      exact absurd hpos (Nat.lt_irrefl 0)
    | cons c cs =>
      rw [hl] at hdigit
      have hc : c.isDigit = true := hdigit c (.head _)
      have hne : c ≠ '_' := by
        rintro rfl
        simp at hc
      have hvalue := Nat.ofDigitChars_ten_toDigits (n := n)
      rw [hl, Nat.ofDigitChars_cons] at hvalue
      rw [readDigits, if_neg hne, decimalValue?_of_isDigit hc]
      dsimp only
      rw [readDigits_of_isDigit (fun d hd => hdigit d (.tail c hd)), hvalue]
  have hseparator : (Nat.toDigits 10 n).any isSeparator = false := by
    rw [List.any_eq_false]
    intro c hc
    have hblank := isSpace_of_isDigit (hdigit c hc)
    simp only [isSpace, Bool.or_eq_false_iff, Bool.and_eq_false_iff, decide_eq_false_iff_not] at hblank
    simp only [isSeparator, Bool.and_eq_true, decide_eq_true_eq]
    omega
  rw [hlist, pyInt?, hseparator, Bool.false_and, if_neg Bool.false_ne_true, hstrip]
  split
  · rename_i cs hl
    exact absurd (hdigit '+' (by rw [hl]; exact .head _)) (by decide)
  · rename_i cs hl
    exact absurd (hdigit '-' (by rw [hl]; exact .head _)) (by decide)
  · rw [hread]
    rfl

theorem toString_inj {m n : Nat} : toString m = toString n ↔ m = n := by
  constructor
  · intro h
    have htext := congrArg (fun text : String => pyInt? text.toList) h
    have hread := (pyInt?_toString m).symm.trans (htext.trans (pyInt?_toString n))
    exact Int.ofNat.inj (Option.some.inj hread)
  · rintro rfl
    rfl

end Sidequest.Lib
