import Mathlib.Data.Finset.Card

namespace Sidequest.Lib

/-!
# Insertion-ordered dictionaries

A `Dict κ ν` is a list of key/value pairs in order of insertion whose keys are pairwise
distinct; the distinctness is a field, so a dictionary with a repeated key cannot be built.

* `get?` / `insert` / `erase` — lookup, store (an existing key keeps its place, a new key goes
  to the end) and removal;
* `keySet` — the keys as a `Finset`, and how every operation moves it;
* `get?_eq_some_iff` — lookup is membership of the pair, the bridge every other lemma uses.
-/

universe u v

/-- An insertion-ordered dictionary: pairs with pairwise distinct keys. -/
structure Dict (κ : Type u) (ν : Type v) where
  entries : List (κ × ν)
  nodup : (entries.map Prod.fst).Nodup

namespace Dict

variable {κ : Type u} {ν : Type v}

@[ext] theorem ext {d e : Dict κ ν} (h : d.entries = e.entries) : d = e := by
  cases d; cases e; simpa using h

/-- The dictionary with no entry. -/
def empty : Dict κ ν := ⟨[], List.nodup_nil⟩

/-- The keys in order of insertion. -/
def keys (d : Dict κ ν) : List κ := d.entries.map Prod.fst

/-- The values in order of insertion. -/
def values (d : Dict κ ν) : List ν := d.entries.map Prod.snd

@[simp] theorem entries_empty : (empty : Dict κ ν).entries = [] := rfl
@[simp] theorem keys_empty : (empty : Dict κ ν).keys = [] := rfl

theorem nodup_keys (d : Dict κ ν) : d.keys.Nodup := d.nodup

theorem mem_keys_iff {d : Dict κ ν} {k : κ} : k ∈ d.keys ↔ ∃ v, (k, v) ∈ d.entries := by
  simp [keys]

/-- Two entries of one key are the same entry. -/
theorem eq_of_mem_entries {d : Dict κ ν} {k : κ} {v w : ν} (hv : (k, v) ∈ d.entries)
    (hw : (k, w) ∈ d.entries) : v = w := by
  have h := List.inj_on_of_nodup_map d.nodup hv hw rfl
  exact (Prod.mk.inj h).2

/-- Store the value `f` gives for each value that is there. -/
def mapValues (d : Dict κ ν) (f : ν → ν) : Dict κ ν :=
  ⟨d.entries.map (fun p => (p.1, f p.2)), by
    rw [List.map_map]
    exact d.nodup⟩

variable [DecidableEq κ]

instance [DecidableEq ν] : DecidableEq (Dict κ ν) := fun a b =>
  decidable_of_iff (a.entries = b.entries) ⟨Dict.ext, fun h => by rw [h]⟩

/-- The keys as a finite set. -/
def keySet (d : Dict κ ν) : Finset κ := d.keys.toFinset

/-- The value stored under `k`, if any. -/
def get? (d : Dict κ ν) (k : κ) : Option ν := (d.entries.find? (fun p => p.1 = k)).map Prod.snd

/-- Replace the value of every pair with key `k`. -/
private def overwrite (k : κ) (v : ν) (l : List (κ × ν)) : List (κ × ν) :=
  l.map (fun p => if p.1 = k then (k, v) else p)

private theorem map_fst_overwrite (k : κ) (v : ν) (l : List (κ × ν)) :
    (overwrite k v l).map Prod.fst = l.map Prod.fst := by
  unfold overwrite
  rw [List.map_map]
  refine List.map_congr_left (fun p _ => ?_)
  by_cases h : p.1 = k <;> simp [h]

/-- Store `v` under `k`: an existing key keeps its place, a new key goes to the end. -/
def insert (d : Dict κ ν) (k : κ) (v : ν) : Dict κ ν :=
  if h : k ∈ d.keys then
    ⟨overwrite k v d.entries, by rw [map_fst_overwrite]; exact d.nodup⟩
  else
    ⟨d.entries ++ [(k, v)], by
      rw [List.map_append, List.nodup_append]
      refine ⟨d.nodup, by simp, ?_⟩
      intro a ha b hb
      simp only [List.map_cons, List.map_nil, List.mem_singleton] at hb
      subst hb
      rintro rfl
      exact h ha⟩

/-- Remove the entry of `k`, if any. -/
def erase (d : Dict κ ν) (k : κ) : Dict κ ν :=
  ⟨d.entries.filter (fun p => p.1 ≠ k),
    d.nodup.sublist (List.Sublist.map Prod.fst List.filter_sublist)⟩

/-- Keep the entries whose key satisfies `p`. -/
def filter (d : Dict κ ν) (p : κ → Bool) : Dict κ ν :=
  ⟨d.entries.filter (fun e => p e.1),
    d.nodup.sublist (List.Sublist.map Prod.fst List.filter_sublist)⟩

/-- Store the value `f` gives for the current value of `k`; nothing happens to an absent key. -/
def modify (d : Dict κ ν) (k : κ) (f : ν → ν) : Dict κ ν :=
  match d.get? k with
  | some v => d.insert k (f v)
  | none => d

/-! ### Lookup and membership -/

@[simp] theorem keySet_empty : (empty : Dict κ ν).keySet = ∅ := rfl
@[simp] theorem get?_empty (k : κ) : (empty : Dict κ ν).get? k = none := rfl

@[simp] theorem mem_keySet {d : Dict κ ν} {k : κ} : k ∈ d.keySet ↔ k ∈ d.keys := by
  simp [keySet]

/-- Lookup finds exactly the stored pair. -/
theorem get?_eq_some_iff {d : Dict κ ν} {k : κ} {v : ν} :
    d.get? k = some v ↔ (k, v) ∈ d.entries := by
  unfold get?
  constructor
  · intro h
    obtain ⟨p, hp, rfl⟩ := Option.map_eq_some_iff.mp h
    have hk : p.1 = k := by simpa using List.find?_some hp
    have hmem := List.mem_of_find?_eq_some hp
    rw [← hk]
    exact hmem
  · intro h
    cases hf : d.entries.find? (·.1 = k) with
    | none =>
      rw [List.find?_eq_none] at hf
      exact absurd (by simp) (hf (k, v) h)
    | some p =>
      have hk : p.1 = k := by simpa using List.find?_some hf
      have hmem : (k, p.2) ∈ d.entries := by rw [← hk]; exact List.mem_of_find?_eq_some hf
      rw [Option.map_some, eq_of_mem_entries hmem h]

theorem get?_eq_none_iff {d : Dict κ ν} {k : κ} : d.get? k = none ↔ k ∉ d.keys := by
  rw [Option.eq_none_iff_forall_ne_some, mem_keys_iff]
  simp only [ne_eq, get?_eq_some_iff, not_exists]

theorem mem_keys_iff_get? {d : Dict κ ν} {k : κ} : k ∈ d.keys ↔ ∃ v, d.get? k = some v := by
  simp only [mem_keys_iff, get?_eq_some_iff]

theorem mem_keys_of_get? {d : Dict κ ν} {k : κ} {v : ν} (h : d.get? k = some v) : k ∈ d.keys :=
  mem_keys_iff_get?.mpr ⟨v, h⟩

/-! ### Store -/

/-- The keys after a store: the same list, or one more at the end. -/
theorem keys_insert (d : Dict κ ν) (k : κ) (v : ν) :
    (d.insert k v).keys = if k ∈ d.keys then d.keys else d.keys ++ [k] := by
  unfold insert
  split
  · exact map_fst_overwrite k v d.entries
  · simp [keys]

/-- The entries after a store of a fresh key. -/
theorem entries_insert_of_not_mem {d : Dict κ ν} {k : κ} (v : ν) (h : k ∉ d.keys) :
    (d.insert k v).entries = d.entries ++ [(k, v)] := by
  simp [insert, h]

@[simp] theorem mem_keys_insert {d : Dict κ ν} {k j : κ} {v : ν} :
    j ∈ (d.insert k v).keys ↔ j = k ∨ j ∈ d.keys := by
  rw [keys_insert]
  split
  · rename_i h
    constructor
    · exact .inr
    · rintro (rfl | hj)
      · exact h
      · exact hj
  · simp [or_comm]

@[simp] theorem keySet_insert (d : Dict κ ν) (k : κ) (v : ν) :
    (d.insert k v).keySet = Insert.insert k d.keySet := by
  ext j
  simp

theorem mem_entries_insert {d : Dict κ ν} {k j : κ} {v w : ν} :
    (j, w) ∈ (d.insert k v).entries ↔ (j = k ∧ w = v) ∨ (j ≠ k ∧ (j, w) ∈ d.entries) := by
  unfold insert
  split
  · rename_i h
    simp only [overwrite, List.mem_map, Prod.exists]
    constructor
    · rintro ⟨a, b, hab, he⟩
      by_cases hak : a = k
      · rw [if_pos hak] at he
        cases he
        exact .inl ⟨rfl, rfl⟩
      · rw [if_neg hak] at he
        cases he
        exact .inr ⟨hak, hab⟩
    · rintro (⟨rfl, rfl⟩ | ⟨hne, hmem⟩)
      · obtain ⟨b, hb⟩ := mem_keys_iff.mp h
        exact ⟨j, b, hb, by simp⟩
      · exact ⟨j, w, hmem, by simp [hne]⟩
  · rename_i h
    simp only [List.mem_append, List.mem_singleton, Prod.mk.injEq]
    constructor
    · rintro (hmem | ⟨rfl, rfl⟩)
      · refine .inr ⟨?_, hmem⟩
        rintro rfl
        exact h (mem_keys_iff.mpr ⟨w, hmem⟩)
      · exact .inl ⟨rfl, rfl⟩
    · rintro (⟨rfl, rfl⟩ | ⟨_, hmem⟩)
      · exact .inr ⟨rfl, rfl⟩
      · exact .inl hmem

/-- Lookup after a store. -/
@[simp] theorem get?_insert (d : Dict κ ν) (k j : κ) (v : ν) :
    (d.insert k v).get? j = if j = k then some v else d.get? j := by
  ext w
  rw [get?_eq_some_iff, mem_entries_insert]
  by_cases hj : j = k
  · simp [hj, eq_comm]
  · simp [hj, get?_eq_some_iff]

/-- A store keeps every value but the one it replaces, which it hands back. -/
theorem perm_values_insert (d : Dict κ ν) (k : κ) (v : ν) :
    ((d.insert k v).values ++ (d.get? k).toList).Perm (v :: d.values) := by
  by_cases hk : k ∈ d.keys
  · obtain ⟨w, hw⟩ := mem_keys_iff.mp hk
    obtain ⟨l₁, l₂, hsplit⟩ := List.append_of_mem hw
    have hnd := d.nodup
    rw [hsplit, List.map_append, List.map_cons, List.nodup_middle, List.nodup_cons,
      List.mem_append, not_or] at hnd
    -- the key stands once, so the overwriting map moves one pair only
    have hsame : ∀ l : List (κ × ν), k ∉ l.map Prod.fst → overwrite k v l = l := by
      intro l hl
      have hid : ∀ p ∈ l, (if p.1 = k then (k, v) else p) = p := by
        intro p hp
        have hne : p.1 ≠ k := fun heq => hl (heq ▸ List.mem_map_of_mem hp)
        rw [if_neg hne]
      unfold overwrite
      rw [List.map_congr_left hid, List.map_id']
    have hentries : (d.insert k v).entries = l₁ ++ (k, v) :: l₂ := by
      rw [insert, dif_pos hk]
      show overwrite k v d.entries = _
      have hmid : overwrite k v (l₁ ++ (k, w) :: l₂)
          = overwrite k v l₁ ++ (k, v) :: overwrite k v l₂ := by
        simp [overwrite]
      rw [hsplit, hmid, hsame l₁ hnd.1.1, hsame l₂ hnd.1.2]
    rw [values, values, hentries, hsplit, get?_eq_some_iff.mpr hw]
    simp only [List.map_append, List.map_cons, Option.toList_some, List.append_assoc,
      List.cons_append]
    have htail : (l₂.map Prod.snd ++ [w]).Perm (w :: l₂.map Prod.snd) :=
      List.perm_append_singleton w _
    exact List.perm_middle.trans ((htail.append_left _).cons v)
  · have hget : d.get? k = none := get?_eq_none_iff.mpr hk
    rw [values, entries_insert_of_not_mem v hk, hget, List.map_append, Option.toList_none,
      List.append_nil]
    exact List.perm_append_singleton v d.values

/-- Storing a value changes nothing exactly if it was stored already. -/
theorem insert_eq_self_iff {d : Dict κ ν} {k : κ} {v : ν} :
    d.insert k v = d ↔ d.get? k = some v := by
  constructor
  · intro h
    rw [← h, get?_insert, if_pos rfl]
  · intro h
    ext1
    rw [insert, dif_pos (mem_keys_of_get? h)]
    show overwrite k v d.entries = d.entries
    unfold overwrite
    have hsame : ∀ p ∈ d.entries, (if p.1 = k then (k, v) else p) = id p := by
      intro p hp
      by_cases hk : p.1 = k
      · rw [if_pos hk]
        have hv : v = p.2 := eq_of_mem_entries (get?_eq_some_iff.mp h) (hk ▸ hp)
        exact Prod.ext hk.symm hv
      · rw [if_neg hk]
        rfl
    rw [List.map_congr_left hsame, List.map_id]

/-! ### Removal -/

@[simp] theorem mem_keys_erase {d : Dict κ ν} {k j : κ} :
    j ∈ (d.erase k).keys ↔ j ≠ k ∧ j ∈ d.keys := by
  simp only [mem_keys_iff, erase, List.mem_filter, decide_eq_true_eq]
  constructor
  · rintro ⟨w, hw, hne⟩
    exact ⟨hne, w, hw⟩
  · rintro ⟨hne, w, hw⟩
    exact ⟨w, hw, hne⟩

@[simp] theorem get?_erase (d : Dict κ ν) (k j : κ) :
    (d.erase k).get? j = if j = k then none else d.get? j := by
  ext w
  rw [get?_eq_some_iff]
  by_cases hj : j = k
  · simp [erase, hj]
  · simp [erase, hj, get?_eq_some_iff]

/-- A dictionary is known by its keys in their order, and what stands under them. -/
theorem ext_of_get? {d e : Dict κ ν} (hkeys : d.keys = e.keys)
    (hget : ∀ k, d.get? k = e.get? k) : d = e := by
  have hentries : ∀ c : Dict κ ν,
      c.entries = c.keys.filterMap (fun k => (c.get? k).map (fun v => (k, v))) := by
    intro c
    unfold keys
    rw [List.filterMap_map]
    have hself : c.entries.filterMap ((fun k => (c.get? k).map (fun v => (k, v))) ∘ Prod.fst)
        = c.entries.filterMap some := by
      apply List.filterMap_congr
      rintro ⟨k, v⟩ hmem
      show (c.get? k).map _ = _
      rw [get?_eq_some_iff.mpr hmem]
      rfl
    rw [hself, List.filterMap_some]
  apply Dict.ext
  rw [hentries d, hentries e, hkeys]
  apply List.filterMap_congr
  intro k _
  rw [hget k]

/-! ### Update in place -/

@[simp] theorem get?_mapValues (d : Dict κ ν) (f : ν → ν) (k : κ) :
    (d.mapValues f).get? k = (d.get? k).map f := by
  unfold mapValues get?
  rw [List.find?_map, Option.map_map, Option.map_map]
  rfl

theorem get?_modify (d : Dict κ ν) (k j : κ) (f : ν → ν) :
    (d.modify k f).get? j = if j = k then (d.get? k).map f else d.get? j := by
  unfold modify
  cases h : d.get? k with
  | none =>
    by_cases hj : j = k
    · simp [hj, h]
    · simp [hj]
  | some v => simp

/-- Updating a value in place changes nothing exactly if the value stays. -/
theorem modify_eq_self_iff {d : Dict κ ν} {k : κ} {f : ν → ν} :
    d.modify k f = d ↔ ∀ v, d.get? k = some v → f v = v := by
  unfold modify
  cases h : d.get? k with
  | none => simp
  | some v =>
    rw [insert_eq_self_iff, h, Option.some.injEq]
    constructor
    · rintro hv w hw
      rw [← Option.some.inj hw, ← hv]
    · intro hall
      exact (hall v rfl).symm

/-- Updating two values in place changes nothing exactly if both stay. -/
theorem modify_modify_eq_self_iff {d : Dict κ ν} {k j : κ} {f g : ν → ν} (hne : j ≠ k) :
    (d.modify k f).modify j g = d ↔
      (∀ v, d.get? k = some v → f v = v) ∧ ∀ v, d.get? j = some v → g v = v := by
  constructor
  · intro hsame
    constructor
    · intro v hv
      have hget := congrArg (·.get? k) hsame
      rw [get?_modify, if_neg (Ne.symm hne), get?_modify, if_pos rfl, hv, Option.map_some] at hget
      exact Option.some.inj hget
    · intro v hv
      have hget := congrArg (·.get? j) hsame
      rw [get?_modify, if_pos rfl, get?_modify, if_neg hne, hv, Option.map_some] at hget
      exact Option.some.inj hget
  · rintro ⟨hk, hj⟩
    rw [modify_eq_self_iff.mpr hk, modify_eq_self_iff.mpr hj]

@[simp] theorem keys_modify (d : Dict κ ν) (k : κ) (f : ν → ν) : (d.modify k f).keys = d.keys := by
  unfold modify
  cases h : d.get? k with
  | none => rfl
  | some v =>
    have hk : k ∈ d.keys := mem_keys_of_get? h
    show (d.insert k (f v)).keys = d.keys
    rw [keys_insert, if_pos hk]

@[simp] theorem keySet_modify (d : Dict κ ν) (k : κ) (f : ν → ν) :
    (d.modify k f).keySet = d.keySet := by
  unfold modify
  cases h : d.get? k with
  | none => rfl
  | some v =>
    rw [keySet_insert, Finset.insert_eq_self, mem_keySet]
    exact mem_keys_of_get? h

/-! ### Many keys -/

section Many

variable {d : Dict κ ν} {k : κ} {v : ν}

variable {pairs : List (κ × ν)}

theorem mem_keys_foldl_insert : k ∈ (pairs.foldl (fun d p => d.insert p.1 p.2) d).keys ↔
      k ∈ d.keys ∨ k ∈ pairs.map Prod.fst := by
  induction pairs generalizing d with
  | nil => simp
  | cons p pairs ih =>
    rw [List.foldl_cons, ih, mem_keys_insert, List.map_cons, List.mem_cons]
    tauto

/-- What stands under a key was inserted there, or was there before. -/
theorem of_get?_foldl_insert (h : (pairs.foldl (fun d p => d.insert p.1 p.2) d).get? k = some v) :
    d.get? k = some v ∨ (k, v) ∈ pairs := by
  induction pairs generalizing d with
  | nil => exact .inl h
  | cons p pairs ih =>
    rcases ih h with hhead | htail
    · rw [get?_insert] at hhead
      split at hhead
      · rename_i hkey
        right
        rw [hkey, ← Option.some.inj hhead]
        exact .head _
      · exact .inl hhead
    · exact .inr (.tail p htail)

/-- Under different keys everything stands as it was inserted. -/
theorem get?_foldl_insert (hnodup : (pairs.map Prod.fst).Nodup) (hmem : (k, v) ∈ pairs) :
    (pairs.foldl (fun d p => d.insert p.1 p.2) (empty : Dict κ ν)).get? k = some v := by
  have hkey : k ∈ (pairs.foldl (fun d p => d.insert p.1 p.2) (empty : Dict κ ν)).keys :=
    mem_keys_foldl_insert.mpr (.inr (List.mem_map_of_mem hmem))
  obtain ⟨w, hw⟩ := mem_keys_iff_get?.mp hkey
  rcases of_get?_foldl_insert hw with hnone | hpair
  · simp at hnone
  · have hsame := List.inj_on_of_nodup_map hnodup hpair hmem rfl
    rw [hw, (Prod.mk.inj hsame).2]

/-- One value under many keys. -/
theorem get?_foldl_insert_same (ks : List κ) (v : ν) :
    (ks.foldl (fun d k => d.insert k v) d).get? k = if k ∈ ks then some v else d.get? k := by
  induction ks generalizing d with
  | nil => rfl
  | cons j ks ih =>
    rw [List.foldl_cons, ih, get?_insert]
    by_cases hmem : k ∈ ks
    · simp [hmem]
    · by_cases heq : k = j <;> simp [hmem, heq]

theorem get?_foldl_erase (ks : List κ) :
    (ks.foldl erase d).get? k = if k ∈ ks then none else d.get? k := by
  induction ks generalizing d with
  | nil => rfl
  | cons j ks ih =>
    rw [List.foldl_cons, ih, get?_erase]
    by_cases hmem : k ∈ ks
    · simp [hmem]
    · by_cases heq : k = j <;> simp [hmem, heq]

end Many

end Dict

end Sidequest.Lib
