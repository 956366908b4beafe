import Mathlib.Data.List.Pairwise
import Mathlib.Data.List.Sort

namespace Sidequest.Lib

/-!
# Lists in another order

A stable sort keeps the order of elements of a kind: `pairwise_insertionSort_of_kind`. A list whose
elements came in another order is sorted again: `insertionSort_eq_of_perm`.
-/

variable {α : Type*} {r : α → α → Prop} [DecidableRel r]

/-- **Stability.** Elements of one kind that come in their order stay in it. -/
theorem pairwise_insertionSort_of_kind {K Q : α → α → Prop} (hsymm : ∀ a b, K a b → K b a)
    {l : List α} (h : l.Pairwise (fun a b => K a b → r a b ∧ Q a b)) :
    (l.insertionSort r).Pairwise (fun a b => K a b → Q a b) := by
  induction l with
  | nil => exact List.Pairwise.nil
  | cons a l ih =>
    obtain ⟨ha, hl⟩ := List.pairwise_cons.mp h
    have hsorted := ih hl
    have hmem : ∀ b ∈ l.insertionSort r, K a b → r a b ∧ Q a b :=
      fun b hb => ha b ((List.mem_insertionSort r).mp hb)
    rw [List.insertionSort_cons]
    -- what the new element passes is not of its kind
    generalize l.insertionSort r = sorted at hsorted hmem
    induction sorted with
    | nil => exact List.pairwise_singleton _ a
    | cons b sorted ihs =>
      obtain ⟨hb, hrest⟩ := List.pairwise_cons.mp hsorted
      by_cases hab : r a b
      · rw [List.orderedInsert_cons_of_le _ _ hab]
        exact List.pairwise_cons.mpr ⟨fun c hc hk => (hmem c hc hk).2, hsorted⟩
      · rw [List.orderedInsert_of_not_le _ _ hab]
        refine List.pairwise_cons.mpr ⟨fun c hc hk => ?_,
          ihs hrest (fun c hc => hmem c (.tail b hc))⟩
        rcases (List.mem_orderedInsert r).mp hc with rfl | hc
        · exact absurd (hmem b (.head _) (hsymm b c hk)).1 hab
        · exact hb c hc hk

/-- **Sorted again.** A list in which every element comes before all later ones, and in no other
    order, is what sorting any order of it gives. -/
theorem insertionSort_eq_of_perm [Std.Total r] [IsTrans α r] {l l' : List α} (h : l'.Perm l)
    (hl : l.Pairwise (fun a b => r a b ∧ ¬ r b a)) : l'.insertionSort r = l := by
  have hsorted : l.Pairwise r := hl.imp (·.1)
  refine ((List.perm_insertionSort r l').trans h).eq_of_pairwise (fun a b ha hb hab hba => ?_)
    (List.pairwise_insertionSort r l') hsorted
  have hmem : a ∈ l := h.mem_iff.mp ((List.mem_insertionSort r).mp ha)
  have hstrict : l.Pairwise (fun a b => ¬ (r a b ∧ r b a)) := hl.imp (fun hab h => hab.2 h.2)
  have : Std.Symm (fun a b => ¬ (r a b ∧ r b a)) := ⟨fun _ _ h h' => h h'.symm⟩
  by_contra hne
  exact hstrict.forall hmem hb hne ⟨hab, hba⟩

/-- Another order of the images of some elements is the images of another order of them. -/
theorem exists_perm_of_perm_map {β : Type*} {f : α → β} {l : List β} {L : List α}
    (h : l.Perm (L.map f)) : ∃ L' : List α, L'.Perm L ∧ l = L'.map f := by
  induction L generalizing l with
  | nil => exact ⟨[], List.Perm.refl [], h.eq_nil⟩
  | cons a L ih =>
    have hmem : f a ∈ l := h.mem_iff.mpr (.head _)
    obtain ⟨front, back, rfl⟩ := List.append_of_mem hmem
    have hrest : (front ++ back).Perm (L.map f) :=
      (List.perm_cons (f a)).mp (List.perm_middle.symm.trans h)
    obtain ⟨L'', hperm, hmap⟩ := ih hrest
    obtain ⟨u, v, rfl, rfl, rfl⟩ := List.append_eq_map_iff.mp hmap
    exact ⟨u ++ a :: v, List.perm_middle.trans (hperm.cons a), by rw [List.map_append, List.map_cons]⟩

end Sidequest.Lib
