import Mathlib.Data.Finset.Card

namespace Sidequest.Lib

/-!
# Barriers that compare cardinalities

A barrier waits for the members of a finite set `P` less a set `R` of released ones. It does
not look at the members: it counts `P.card - R.card` and opens once that many have arrived.

* `card_sub_card_eq_card_sdiff_iff` — the count is the number of awaited members exactly when
  one of the two sets contains the other;
* `Counted` — the discipline under which counting is enough: only members are released, and
  only awaited members have arrived. Its rules say which changes keep it;
* `Counted.complete` — under the discipline, as many arrivals as counted are everybody awaited.
-/

universe u

variable {α : Type u} [DecidableEq α] {P R S : Finset α}

/-- The difference of the sizes is the size of the difference exactly when the released
    players are members, or are so many that both sides are zero. -/
theorem card_sub_card_eq_card_sdiff_iff : P.card - R.card = (P \ R).card ↔ R ⊆ P ∨ P ⊆ R := by
  have hsplit : (P \ R).card + (P ∩ R).card = P.card := Finset.card_sdiff_add_card_inter P R
  have hle : (P ∩ R).card ≤ R.card := Finset.card_le_card Finset.inter_subset_right
  constructor
  · intro h
    by_cases hR : (P ∩ R).card = R.card
    · left
      have heq : P ∩ R = R := Finset.eq_of_subset_of_card_le Finset.inter_subset_right (by omega)
      exact Finset.inter_eq_right.mp heq
    · right
      have hempty : (P \ R).card = 0 := by omega
      exact Finset.sdiff_eq_empty_iff_subset.mp (Finset.card_eq_zero.mp hempty)
  · rintro (h | h)
    · exact (Finset.card_sdiff_of_subset h).symm
    · rw [Finset.sdiff_eq_empty_iff_subset.mpr h, Finset.card_empty]
      exact Nat.sub_eq_zero_of_le (Finset.card_le_card h)

/-! ### The discipline -/

/-- Only members are released, and every arrival is awaited. -/
structure Counted (P R S : Finset α) : Prop where
  released : R ⊆ P
  arrived : S ⊆ P \ R

namespace Counted

variable {P' R' S' : Finset α} {p : α}

/-- More members, fewer releases and fewer arrivals keep the discipline. -/
theorem mono (h : Counted P R S) (hP : P ⊆ P') (hR : R' ⊆ R) (hS : S' ⊆ S) : Counted P' R' S' :=
  ⟨(hR.trans h.released).trans hP, (hS.trans h.arrived).trans (Finset.sdiff_subset_sdiff hP hR)⟩

/-- A member that has not arrived may be released. -/
theorem release (h : Counted P R S) (hp : p ∈ P) (hs : p ∉ S) : Counted P (insert p R) S := by
  refine ⟨Finset.insert_subset hp h.released, ?_⟩
  intro q hq
  obtain ⟨hqP, hqR⟩ := Finset.mem_sdiff.mp (h.arrived hq)
  have hne : q ≠ p := fun heq => hs (heq ▸ hq)
  rw [Finset.mem_sdiff, Finset.mem_insert, not_or]
  exact ⟨hqP, hne, hqR⟩

/-- A member that is neither released nor arrived may leave. -/
theorem leave (h : Counted P R S) (hr : p ∉ R) (hs : p ∉ S) : Counted (P.erase p) R S := by
  refine ⟨Finset.subset_erase.mpr ⟨h.released, hr⟩, ?_⟩
  intro q hq
  obtain ⟨hqP, hqR⟩ := Finset.mem_sdiff.mp (h.arrived hq)
  have hne : q ≠ p := fun heq => hs (heq ▸ hq)
  rw [Finset.mem_sdiff, Finset.mem_erase]
  exact ⟨⟨hne, hqP⟩, hqR⟩

/-- An awaited member may arrive. -/
theorem arrive (h : Counted P R S) (hp : p ∈ P \ R) : Counted P R (insert p S) :=
  ⟨h.released, Finset.insert_subset hp h.arrived⟩

/-- **Counting is enough.** When as many have arrived as the barrier counts, everybody awaited
    has. -/
theorem complete (h : Counted P R S) (hcard : P.card - R.card ≤ S.card) : P \ R ⊆ S := by
  have hle : (P \ R).card ≤ S.card := by
    rw [Finset.card_sdiff_of_subset h.released]
    exact hcard
  rw [Finset.eq_of_subset_of_card_le h.arrived hle]

end Counted

end Sidequest.Lib
