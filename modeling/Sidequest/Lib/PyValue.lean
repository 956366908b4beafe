import Mathlib.Data.List.Basic
import Mathlib.Data.Rat.Defs

namespace Sidequest.Lib

/-!
# Python values of unknown shape

What a document holds that was loaded and not validated, and the operations on it that may
raise.

* `PyKey` — what a dictionary can be keyed by, up to `==`;
* `CaseFold`, `casefold` — `str.casefold`, over any folding of the characters.
-/

/-- A hashable value up to `==`: a boolean is the number it equals. -/
inductive PyKey where
  | null
  | num (q : Rat)
  | str (s : String)
deriving DecidableEq

instance : Coe String PyKey := ⟨PyKey.str⟩

/-- A value of a document. -/
inductive PyValue where
  | null
  | bool (b : Bool)
  | num (q : Rat)
  | str (s : String)
  | list (items : List PyValue)
  | dict (entries : List (PyKey × PyValue))

/-- A dictionary: where a key is repeated its first entry counts, so that repetitions are never
    observed. -/
abbrev PyDict := List (PyKey × PyValue)

/-- What an operation on a value of the wrong shape raises. -/
inductive PyError where
  | typeError
  | attributeError
deriving DecidableEq

namespace PyValue

/-- Truth of a value in a condition. -/
def truthy : PyValue → Bool
  | .null => false
  | .bool b => b
  | .num q => q ≠ 0
  | .str s => s ≠ ""
  | .list items => !items.isEmpty
  | .dict entries => !entries.isEmpty

/-- The value, if it is not `None`. -/
def notNone : PyValue → Option PyValue
  | .null => none
  | v => some v

/-- A value as a key; lists and dictionaries are not hashable. -/
def key : PyValue → Except PyError PyKey
  | .null => .ok .null
  | .bool b => .ok (.num (if b then 1 else 0))
  | .num q => .ok (.num q)
  | .str s => .ok (.str s)
  | .list _ => .error .typeError
  | .dict _ => .error .typeError

/-- A key as a value. -/
def ofKey : PyKey → PyValue
  | .null => .null
  | .num q => .num q
  | .str s => .str s

/-- The values a loop over a value takes: the items of a list, the keys of a dictionary, the
    characters of a text. -/
def iterate : PyValue → Except PyError (List PyValue)
  | .list items => .ok items
  | .dict entries => .ok (entries.map fun p => ofKey p.1)
  | .str s => .ok (s.toList.map fun c => .str (String.singleton c))
  | .null => .error .typeError
  | .bool _ => .error .typeError
  | .num _ => .error .typeError

/-- `value.append(item)`. -/
def append : PyValue → PyValue → Except PyError PyValue
  | .list items, item => .ok (.list (items ++ [item]))
  | _, _ => .error .attributeError

/-- The items of a list; nothing else has any. -/
def items : PyValue → List PyValue
  | .list items => items
  | _ => []

@[simp] theorem items_list (xs : List PyValue) : (list xs).items = xs := rfl

/-- The entries of a dictionary; nothing else has any. -/
def entries : PyValue → PyDict
  | .dict entries => entries
  | _ => []

@[simp] theorem entries_dict (d : PyDict) : (dict d).entries = d := rfl

end PyValue

namespace PyDict

/-- `d.get(k)`, where a stored `None` is told from an absent key. -/
def get? (d : PyDict) (k : PyKey) : Option PyValue := (d.find? (fun p => p.1 = k)).map Prod.snd

/-- `d[k] = v`: a key that is there keeps its place, a new one goes to the end. -/
def put : PyDict → PyKey → PyValue → PyDict
  | [], k, v => [(k, v)]
  | p :: rest, k, v => if p.1 = k then (p.1, v) :: rest else p :: put rest k v

/-- `d.pop(k)`. -/
def pop (d : PyDict) (k : PyKey) : PyDict := d.filter (fun p => p.1 ≠ k)

/-- `k in d`. -/
def has (d : PyDict) (k : PyKey) : Bool := (get? d k).isSome

/-- `d.setdefault(k, v)`. -/
def setDefault (d : PyDict) (k : PyKey) (v : PyValue) : PyDict := if has d k then d else put d k v

/-- `d.get(k)`, with `None` for an absent key. -/
def getD (d : PyDict) (k : PyKey) : PyValue := (get? d k).getD .null

@[simp] theorem get?_nil (k : PyKey) : get? [] k = none := rfl

theorem get?_cons (p : PyKey × PyValue) (rest : PyDict) (k : PyKey) :
    get? (p :: rest) k = if p.1 = k then some p.2 else get? rest k := by
  unfold get?
  by_cases h : p.1 = k
  · simp [h]
  · simp [h]

/-- What is stored is found; the other lookups are as they were. -/
theorem get?_put (d : PyDict) (k : PyKey) (v : PyValue) (k' : PyKey) :
    get? (put d k v) k' = if k' = k then some v else get? d k' := by
  induction d with
  | nil =>
    rw [put, get?_cons]
    simp [eq_comm]
  | cons p rest ih =>
    unfold put
    by_cases hp : p.1 = k
    · rw [if_pos hp, get?_cons, get?_cons]
      by_cases hk : k' = k
      · simp [hk, hp]
      · have hne : k ≠ k' := fun h => hk h.symm
        simp [hk, hne, hp]
    · rw [if_neg hp, get?_cons, get?_cons, ih]
      by_cases hk : k' = k
      · subst hk
        simp [hp]
      · simp [hk]

@[simp] theorem get?_put_self (d : PyDict) (k : PyKey) (v : PyValue) :
    get? (put d k v) k = some v := by
  simp [get?_put]

variable {d : PyDict}

theorem get?_put_of_ne {k k' : PyKey} (v : PyValue) (h : k' ≠ k) :
    get? (put d k v) k' = get? d k' := by
  simp [get?_put, h]

/-- A key that is popped is gone; the other lookups are as they were. -/
theorem get?_pop (d : PyDict) (k k' : PyKey) :
    get? (pop d k) k' = if k' = k then none else get? d k' := by
  induction d with
  | nil => simp [pop]
  | cons p rest ih =>
    unfold pop at ih ⊢
    by_cases hp : p.1 = k
    · rw [List.filter_cons_of_neg (by simpa using hp), ih, get?_cons]
      by_cases hk : k' = k
      · simp [hk]
      · have hne : p.1 ≠ k' := fun h => hk (h.symm.trans hp)
        simp [hk, hne]
    · rw [List.filter_cons_of_pos (by simpa using hp), get?_cons, get?_cons, ih]
      by_cases hk : k' = k
      · subst hk
        simp [hp]
      · simp [hk]

@[simp] theorem get?_pop_self (d : PyDict) (k : PyKey) : get? (pop d k) k = none := by
  simp [get?_pop]

theorem get?_pop_of_ne {k k' : PyKey} (h : k' ≠ k) : get? (pop d k) k' = get? d k' := by
  simp [get?_pop, h]

/-- A key that is not there is popped from the dictionary as it is. -/
theorem pop_eq_self {k : PyKey} (h : get? d k = none) : pop d k = d := by
  unfold pop
  rw [List.filter_eq_self]
  intro p hp
  unfold get? at h
  rw [Option.map_eq_none_iff, List.find?_eq_none] at h
  simpa using h p hp

/-- Storing what is there changes nothing, and only that. -/
theorem put_eq_self_iff {k : PyKey} {v : PyValue} : put d k v = d ↔ get? d k = some v := by
  constructor
  · intro h
    rw [← h]
    exact get?_put_self d k v
  · intro h
    induction d with
    | nil => simp at h
    | cons p rest ih =>
      rw [get?_cons] at h
      unfold put
      by_cases hp : p.1 = k
      · rw [if_pos hp] at h
        rw [if_pos hp, ← Option.some.inj h]
      · rw [if_neg hp] at h
        rw [if_neg hp, ih h]

theorem has_iff {k : PyKey} : has d k = true ↔ ∃ v, get? d k = some v :=
  Option.isSome_iff_exists

theorem get?_setDefault (d : PyDict) (k : PyKey) (v : PyValue) (k' : PyKey) :
    get? (setDefault d k v) k' = if k' = k then some ((get? d k).getD v) else get? d k' := by
  unfold setDefault
  cases hget : get? d k with
  | none =>
    rw [if_neg (by simp [has, hget]), get?_put]
    rfl
  | some w =>
    rw [if_pos (has_iff.mpr ⟨w, hget⟩)]
    by_cases hk : k' = k
    · simp [hk, hget]
    · simp [hk]

end PyDict

/-! ### Case folding -/

/-- A folding of the characters, none of which it drops. -/
structure CaseFold where
  fold : Char → List Char
  ne_nil : ∀ c, fold c ≠ []

/-- `s.casefold()`: the characters are folded one by one. -/
def CaseFold.casefold (F : CaseFold) (s : String) : String := String.ofList (s.toList.flatMap F.fold)

end Sidequest.Lib
