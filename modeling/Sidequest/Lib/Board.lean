import Mathlib.Data.Int.Interval

namespace Sidequest.Lib

/-!
# Boards

Rectangular arrays, row by row, whose places are addressed by column and row.

* `Board.get?`, `Board.set` — a place is read, and written; nothing happens off the board;
* `get?_set` — what is read after a place was written;
* `count`, `count_set_lt` — how many places hold a value, and that overwriting one lowers it.
-/

variable {α : Type}

/-- A place, by its column and its row. -/
abbrev Place := Int × Int

/-- A rectangular array, by its rows. -/
structure Board (α : Type) where
  (width height : Nat)
  rows : List (List α)
  tall : rows.length = height
  wide : ∀ row ∈ rows, row.length = width
deriving DecidableEq

namespace Board

/-- The same value everywhere. -/
def filled (width height : Nat) (a : α) : Board α where
  width := width
  height := height
  rows := List.replicate height (List.replicate width a)
  tall := List.length_replicate
  wide := by
    intro row hrow
    rw [List.eq_of_mem_replicate hrow]
    exact List.length_replicate

/-- A place is on the board. -/
def Inside (b : Board α) (c : Place) : Prop :=
  0 ≤ c.1 ∧ c.1 < b.width ∧ 0 ≤ c.2 ∧ c.2 < b.height

instance (b : Board α) (c : Place) : Decidable (b.Inside c) :=
  inferInstanceAs (Decidable (_ ∧ _ ∧ _ ∧ _))

/-- What stands at a place. -/
def get? (b : Board α) (c : Place) : Option α :=
  if b.Inside c then (b.rows[c.2.toNat]?).bind (fun row => row[c.1.toNat]?) else none

/-- Write a place, if it is on the board. -/
def set (b : Board α) (c : Place) (a : α) : Board α where
  width := b.width
  height := b.height
  rows := if b.Inside c then b.rows.modify c.2.toNat (fun row => row.set c.1.toNat a) else b.rows
  tall := by
    split
    · rw [List.length_modify]
      exact b.tall
    · exact b.tall
  wide := by
    intro row hrow
    split at hrow
    · obtain ⟨y, hy⟩ := List.mem_iff_getElem?.mp hrow
      rw [List.getElem?_modify] at hy
      obtain ⟨old, hold, rfl⟩ := Option.map_eq_some_iff.mp hy
      have hwide := b.wide old (List.mem_of_getElem? hold)
      split
      · rw [List.length_set]
        exact hwide
      · exact hwide
    · exact b.wide row hrow

@[simp] theorem width_set (b : Board α) (c : Place) (a : α) : (b.set c a).width = b.width := rfl

@[simp] theorem height_set (b : Board α) (c : Place) (a : α) : (b.set c a).height = b.height := rfl

variable {b : Board α}

/-- Boards of one size have the same places. -/
theorem inside_congr {β : Type} {b' : Board β} (hwidth : b'.width = b.width)
    (hheight : b'.height = b.height) (c : Place) : b'.Inside c ↔ b.Inside c := by
  unfold Inside
  rw [hwidth, hheight]

@[simp] theorem inside_set (b : Board α) (c d : Place) (a : α) :
    (b.set c a).Inside d ↔ b.Inside d := Iff.rfl

theorem get?_of_not_inside {c : Place} (h : ¬ b.Inside c) : b.get? c = none := if_neg h

/-- Something stands at every place of the board. -/
theorem exists_get? {c : Place} (h : b.Inside c) : ∃ a, b.get? c = some a := by
  obtain ⟨hleft, hright, htop, hbottom⟩ := h
  have hy : c.2.toNat < b.rows.length := by
    rw [b.tall]
    omega
  have hx : c.1.toNat < b.rows[c.2.toNat].length := by
    rw [b.wide _ (List.getElem_mem hy)]
    omega
  refine ⟨b.rows[c.2.toNat][c.1.toNat], ?_⟩
  rw [get?, if_pos ⟨hleft, hright, htop, hbottom⟩, List.getElem?_eq_getElem hy, Option.bind_some,
    List.getElem?_eq_getElem hx]

/-- What is read in rows of which one entry was replaced. -/
theorem entry_modify_set {rows : List (List α)} {x y : Nat} {old : α}
    (h : (rows[y]?).bind (fun row => row[x]?) = some old) (a : α) (x' y' : Nat) :
    ((rows.modify y (·.set x a))[y']?).bind (fun row => row[x']?)
      = if x' = x ∧ y' = y then some a else (rows[y']?).bind (fun row => row[x']?) := by
  rw [List.getElem?_modify]
  by_cases hy : y = y'
  · subst hy
    obtain ⟨row, hrow, hold⟩ := Option.bind_eq_some_iff.mp h
    obtain ⟨hx, -⟩ := List.getElem?_eq_some_iff.mp hold
    rw [hrow]
    by_cases hx' : x = x'
    · subst hx'
      simp [hx]
    · rw [if_neg (fun heq => hx' heq.1.symm)]
      simp [hx']
  · rw [if_neg (fun heq => hy heq.2.symm)]
    rcases rows[y']? with _ | row
    · rfl
    · simp [hy]

/-- What is read after a place was written. -/
theorem get?_set (b : Board α) (c d : Place) (a : α) :
    (b.set c a).get? d = if d = c ∧ b.Inside c then some a else b.get? d := by
  by_cases hc : b.Inside c
  · by_cases hd : b.Inside d
    · obtain ⟨old, hold⟩ := exists_get? hc
      rw [get?, if_pos hc] at hold
      have hrows : (b.set c a).rows = b.rows.modify c.2.toNat (·.set c.1.toNat a) :=
        if_pos hc
      have hsame : (d.1.toNat = c.1.toNat ∧ d.2.toNat = c.2.toNat) ↔ (d = c ∧ b.Inside c) := by
        obtain ⟨hleft, -, htop, -⟩ := id hc
        obtain ⟨hleft', -, htop', -⟩ := id hd
        rw [Prod.ext_iff, and_iff_left hc]
        omega
      rw [get?, get?, if_pos ((inside_set b c d a).mpr hd), if_pos hd, hrows, entry_modify_set hold]
      simp only [hsame]
    · have hne : ¬ (d = c ∧ b.Inside c) := fun h => hd (h.1 ▸ hc)
      rw [if_neg hne, get?_of_not_inside hd]
      exact get?_of_not_inside (fun h => hd ((inside_set b c d a).mp h))
  · have hsame : (b.set c a).rows = b.rows := if_neg hc
    rw [if_neg (fun h => hc h.2), get?, get?, hsame]
    rfl

/-- What stands at a place by its indices. -/
theorem get?_natCast (b : Board α) (x y : Nat) :
    b.get? ((x : Int), (y : Int)) = (b.rows[y]?).bind (fun row => row[x]?) := by
  by_cases h : b.Inside ((x : Int), (y : Int))
  · rw [get?, if_pos h]
    rfl
  · rw [get?_of_not_inside h]
    rcases hrow : b.rows[y]? with _ | row
    · rfl
    · -- the row is there, so it is the column that is not
      have hy : y < b.rows.length := (List.getElem?_eq_some_iff.mp hrow).1
      have hwide := b.wide row (List.mem_of_getElem? hrow)
      have hx : row.length ≤ x := by
        rw [b.tall] at hy
        unfold Inside at h
        omega
      rw [Option.bind_some, List.getElem?_eq_none hx]

theorem get?_filled {width height : Nat} {a : α} {c : Place}
    (h : (filled width height a).Inside c) : (filled width height a).get? c = some a := by
  obtain ⟨hleft, hright, htop, hbottom⟩ := id h
  have hx : c.1.toNat < width := by
    show c.1.toNat < (filled width height a).width
    omega
  have hy : c.2.toNat < height := by
    show c.2.toNat < (filled width height a).height
    omega
  rw [get?, if_pos h]
  simp [filled, hx, hy]

/-! ### How many places hold a value -/

/-- The places of the board. -/
def places (b : Board α) : Finset Place :=
  -- numbers are ordered by several instances, not all of which compute
  @Finset.Ico Int Int.instLinearOrder.toPreorder _ 0 b.width ×ˢ
    @Finset.Ico Int Int.instLinearOrder.toPreorder _ 0 b.height

theorem mem_places {c : Place} : c ∈ b.places ↔ b.Inside c := by
  unfold places Inside
  rw [Finset.mem_product, Finset.mem_Ico, Finset.mem_Ico, and_assoc]

variable [DecidableEq α]

/-- How many places hold a value. -/
def count (b : Board α) (a : α) : Nat := (b.places.filter (fun c => b.get? c = some a)).card

theorem count_le (b : Board α) (a : α) : b.count a ≤ b.width * b.height := by
  calc b.count a ≤ b.places.card := Finset.card_filter_le _ _
    _ = b.width * b.height := by
      rw [places, Finset.card_product, Int.card_Ico, Int.card_Ico]
      simp

/-- Another value that is written leaves a value at no other places. -/
theorem filter_set_subset (b : Board α) (c : Place) {a a' : α} (hne : a' ≠ a) :
    (b.set c a').places.filter (fun d => (b.set c a').get? d = some a) ⊆
      b.places.filter (fun d => b.get? d = some a) := by
  intro d hd
  obtain ⟨hplace, hvalue⟩ := Finset.mem_filter.mp hd
  refine Finset.mem_filter.mpr ⟨hplace, ?_⟩
  rw [get?_set] at hvalue
  split at hvalue
  · exact absurd (Option.some.inj hvalue) hne
  · exact hvalue

theorem count_set_le (b : Board α) (c : Place) {a a' : α} (hne : a' ≠ a) :
    (b.set c a').count a ≤ b.count a := Finset.card_le_card (filter_set_subset b c hne)

/-- Overwriting a value leaves it at fewer places. -/
theorem count_set_lt {c : Place} {a : α} (h : b.get? c = some a) {a' : α} (hne : a' ≠ a) :
    (b.set c a').count a < b.count a := by
  have hc : b.Inside c := by
    by_contra hnot
    rw [get?_of_not_inside hnot] at h
    simp at h
  refine Finset.card_lt_card
    ((Finset.ssubset_iff_of_subset (filter_set_subset b c hne)).mpr ⟨c, ?_, ?_⟩)
  · exact Finset.mem_filter.mpr ⟨mem_places.mpr hc, h⟩
  · intro hd
    have hvalue := (Finset.mem_filter.mp hd).2
    rw [get?_set, if_pos ⟨rfl, hc⟩] at hvalue
    exact hne (Option.some.inj hvalue)

end Board

end Sidequest.Lib
