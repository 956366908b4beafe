import Mathlib.Algebra.BigOperators.Group.List.Basic
import Mathlib.Tactic.Abel

namespace Sidequest.Lib

/-!
# First and last matches in a list

Records that are looked up by walking a list and taking the first that fits, and updated where
they stand; dictionaries built from a list, where the last of several entries counts.

* `updateFirst` — change the first element with a property;
* `lastBy` — the last element with a key.
-/

variable {α κ β : Type*}

/-- Change the first element with the property. -/
def updateFirst (p : α → Bool) (f : α → α) : List α → List α
  | [] => []
  | a :: l => if p a then f a :: l else a :: updateFirst p f l

variable {p : α → Bool} {f : α → α}

/-- What a function does not see of the change stands as it was. -/
theorem map_updateFirst {g : α → β} (h : ∀ a, g (f a) = g a) (l : List α) :
    (updateFirst p f l).map g = l.map g := by
  induction l with
  | nil => rfl
  | cons a l ih =>
    unfold updateFirst
    by_cases hp : p a = true
    · rw [if_pos hp, List.map_cons, List.map_cons, h a]
    · rw [if_neg hp, List.map_cons, List.map_cons, ih]

variable {l : List α}

/-- Elements without the property stay. -/
theorem mem_updateFirst_of_mem {b : α} (h : b ∈ l) (hp : p b = false) : b ∈ updateFirst p f l := by
  induction l with
  | nil => simp at h
  | cons a l ih =>
    unfold updateFirst
    by_cases ha : p a = true
    · rw [if_pos ha]
      rcases List.mem_cons.mp h with rfl | hb
      · rw [ha] at hp
        simp at hp
      · exact .tail (f a) hb
    · rw [if_neg ha]
      rcases List.mem_cons.mp h with rfl | hb
      · exact .head _
      · exact .tail a (ih hb)

variable {a : α}

/-- The change happens at the first match, and nowhere else. -/
theorem exists_split_updateFirst (f : α → α) (h : l.find? p = some a) :
    ∃ before after, l = before ++ a :: after ∧ updateFirst p f l = before ++ f a :: after := by
  induction l with
  | nil => simp at h
  | cons b l ih =>
    unfold updateFirst
    by_cases hp : p b = true
    · rw [List.find?_cons_of_pos hp] at h
      cases h
      rw [if_pos hp]
      exact ⟨[], l, rfl, rfl⟩
    · rw [List.find?_cons_of_neg hp] at h
      obtain ⟨before, after, hl, hupdate⟩ := ih h
      rw [if_neg hp, hupdate, hl]
      exact ⟨b :: before, after, rfl, rfl⟩

/-- What is in the changed list: the changed first match, and what was there without it. -/
theorem mem_updateFirst_iff {b : α} (h : l.find? p = some a) :
    b ∈ updateFirst p f l ↔ b = f a ∨ b ∈ l.eraseP p := by
  induction l with
  | nil => simp at h
  | cons c l ih =>
    unfold updateFirst
    by_cases hp : p c = true
    · rw [List.find?_cons_of_pos hp] at h
      cases h
      rw [if_pos hp, List.eraseP_cons_of_pos hp, List.mem_cons]
    · rw [List.find?_cons_of_neg hp] at h
      rw [if_neg hp, List.eraseP_cons_of_neg hp, List.mem_cons, List.mem_cons, ih h]
      tauto

/-- What is not the first match stays when that is erased. -/
theorem mem_eraseP_of_ne {b : α} (h : l.find? p = some a) (hb : b ∈ l) (hne : b ≠ a) :
    b ∈ l.eraseP p := by
  have hmem : b ∈ updateFirst p id l := by
    obtain ⟨before, after, hl, hupdate⟩ := exists_split_updateFirst id h
    rw [hupdate]
    rw [hl] at hb
    exact hb
  exact ((mem_updateFirst_iff h).mp hmem).resolve_left hne

/-- The list stays as it was exactly if its first match does. -/
theorem updateFirst_eq_self_iff (h : l.find? p = some a) : updateFirst p f l = l ↔ f a = a := by
  induction l with
  | nil => simp at h
  | cons b l ih =>
    unfold updateFirst
    by_cases hp : p b = true
    · have hb : b = a := by
        rw [List.find?_cons_of_pos hp] at h
        exact Option.some.inj h
      rw [if_pos hp, hb]
      simp
    · rw [List.find?_cons_of_neg hp] at h
      rw [if_neg hp, ← ih h]
      simp

/-- The first match is the changed one, if the change keeps the property. -/
theorem find?_updateFirst (hf : ∀ a, p (f a) = p a) (l : List α) :
    (updateFirst p f l).find? p = (l.find? p).map f := by
  induction l with
  | nil => rfl
  | cons a l ih =>
    unfold updateFirst
    by_cases hp : p a = true
    · rw [if_pos hp, List.find?_cons_of_pos ((hf a).trans hp), List.find?_cons_of_pos hp]
      rfl
    · rw [if_neg hp, List.find?_cons_of_neg hp, List.find?_cons_of_neg hp, ih]

/-- The first element with another property is the same as before. -/
theorem find?_updateFirst_of_disjoint {q : α → Bool} (hf : ∀ a, q (f a) = q a)
    (hpq : ∀ a, p a = true → q a = false) (l : List α) :
    (updateFirst p f l).find? q = l.find? q := by
  induction l with
  | nil => rfl
  | cons a l ih =>
    unfold updateFirst
    by_cases hp : p a = true
    · have hnot : ¬ q a = true := by simp [hpq a hp]
      have hnot' : ¬ q (f a) = true := by simp [hf, hpq a hp]
      rw [if_pos hp, List.find?_cons_of_neg hnot', List.find?_cons_of_neg hnot]
    · rw [if_neg hp, List.find?_cons, List.find?_cons, ih]

/-- A sum over the list moves by what it moves by at the first match. -/
theorem sum_map_updateFirst {M : Type*} [AddCommGroup M] (g : α → M) (h : l.find? p = some a) :
    ((updateFirst p f l).map g).sum = (l.map g).sum + (g (f a) - g a) := by
  induction l with
  | nil => simp at h
  | cons b l ih =>
    unfold updateFirst
    by_cases hp : p b = true
    · have hb : b = a := by
        rw [List.find?_cons_of_pos hp] at h
        exact Option.some.inj h
      rw [if_pos hp, hb, List.map_cons, List.map_cons, List.sum_cons, List.sum_cons]
      abel
    · rw [List.find?_cons_of_neg hp] at h
      rw [if_neg hp, List.map_cons, List.map_cons, List.sum_cons, List.sum_cons, ih h]
      abel

/-- An optional value with the property is there. -/
theorem exists_of_any {o : Option α} (h : o.any p = true) : ∃ a, o = some a ∧ p a = true := by
  cases o with
  | none => simp at h
  | some a => exact ⟨a, rfl, h⟩

variable [DecidableEq κ]

/-- Where no key is repeated, changing the first element with a key changes all with that key. -/
theorem updateFirst_eq_map {key : α → κ} (f : α → α) (hnodup : (l.map key).Nodup) (k : κ) :
    updateFirst (fun a => key a = k) f l = l.map (fun a => if key a = k then f a else a) := by
  induction l with
  | nil => rfl
  | cons a l ih =>
    rw [List.map_cons, List.nodup_cons] at hnodup
    unfold updateFirst
    rw [List.map_cons]
    by_cases hk : key a = k
    · have hrest : l.map (fun b => if key b = k then f b else b) = l.map id := by
        refine List.map_congr_left (fun b hb => if_neg (fun hb' => hnodup.1 ?_))
        rw [hk, ← hb']
        exact List.mem_map_of_mem hb
      rw [if_pos (by simpa using hk), if_pos hk, hrest, List.map_id]
    · rw [if_neg (by simpa using hk), if_neg hk, ih hnodup.2]

/-- The last element with a key: `{key(x): x for x in l}.get(k)`. -/
def lastBy (key : α → κ) (l : List α) (k : κ) : Option α := l.reverse.find? (fun a => key a = k)

theorem key_of_lastBy {key : α → κ} {k : κ} (h : lastBy key l k = some a) : a ∈ l ∧ key a = k := by
  unfold lastBy at h
  refine ⟨List.mem_reverse.mp (List.mem_of_find?_eq_some h), ?_⟩
  simpa using List.find?_some h

/-- The last element of two lists is that of the second one, if it has one. -/
theorem lastBy_append (key : α → κ) (l l' : List α) (k : κ) :
    lastBy key (l ++ l') k = (lastBy key l' k).or (lastBy key l k) := by
  unfold lastBy
  rw [List.reverse_append, List.find?_append]

theorem exists_lastBy {key : α → κ} (h : a ∈ l) : ∃ b, lastBy key l (key a) = some b := by
  unfold lastBy
  have hsome : (l.reverse.find? (fun b => key b = key a)).isSome = true := by
    rw [List.find?_isSome]
    exact ⟨a, List.mem_reverse.mpr h, by simp⟩
  exact Option.isSome_iff_exists.mp hsome

end Sidequest.Lib
