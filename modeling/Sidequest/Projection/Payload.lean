import Mathlib.Data.List.Basic
import Mathlib.Data.Rat.Defs

namespace Sidequest.Projection

/-!
# Payloads and field paths

JSON values as the projection filter sees them, and the dotted field paths (`a.b`, `xs[*].c`)
that its rules mask.

* `readPath` — all values a path matches;
* `applyMask` — the values a path matches, replaced by a mask;
* `MaskMade` — the values that masks alone account for. `maskMade_readPath_applyMask`: masking
  a path leaves only such values to read there, and `MaskedAt.applyMask`: so does every mask
  applied afterwards, wherever it goes.
-/

/-- A JSON value. The members of an object stand in document order; where a name is repeated
    the first one counts, so repetitions are never observed. -/
inductive Json where
  | null
  | bool (b : Bool)
  | num (q : Rat)
  | str (s : String)
  | arr (xs : List Json)
  | obj (fields : List (String × Json))

/-- The members of a JSON object. -/
abbrev Fields := List (String × Json)

variable (seg : Segment) (rest : List Segment) (fields : Fields) (name : String) (v : Json)

namespace Json

/-- `fields.get(name)`. -/
def get? : Option Json :=
  (fields.find? (fun p => p.1 = name)).map Prod.snd

/-- `fields[name] = v` for a name that is there. -/
def set : Fields → String → Json → Fields
  | [], _, _ => []
  | p :: rest, name, v => if p.1 = name then (name, v) :: rest else p :: set rest name v

/-- The string a value is, if it is one. -/
def str? : Json → Option String
  | .str s => some s
  | _ => none

/-- Truth of a value in a condition. -/
def truthy : Json → Bool
  | .null => false
  | .bool b => b
  | .num q => q ≠ 0
  | .str s => s ≠ ""
  | .arr xs => !xs.isEmpty
  | .obj fields => !fields.isEmpty

@[simp] theorem get?_nil : get? [] name = none := rfl

theorem get?_cons (p : String × Json) (rest : Fields) (name : String) :
    get? (p :: rest) name = if p.1 = name then some p.2 else get? rest name := by
  unfold get?
  by_cases h : p.1 = name <;> simp [h]

/-- A member that is set is found; the others are as they were. -/
theorem get?_set {fields : Fields} {name : String} (v : Json) (key : String)
    (h : (get? fields name).isSome = true) :
    get? (set fields name v) key = if key = name then some v else get? fields key := by
  induction fields with
  | nil => simp at h
  | cons p rest ih =>
    unfold set
    by_cases hp : p.1 = name
    · rw [if_pos hp, get?_cons, get?_cons]
      by_cases hk : key = name
      · simp [hk]
      · have hname : name ≠ key := fun h => hk h.symm
        simp [hk, hname, hp]
    · have hrest : (get? rest name).isSome = true := by
        rw [get?_cons, if_neg hp] at h
        exact h
      rw [if_neg hp, get?_cons, get?_cons, ih hrest]
      by_cases hk : key = name
      · subst hk
        simp [hp]
      · simp [hk]

/-- A member found is a member. -/
theorem mem_of_get? {fields : Fields} {name : String} {v : Json} (h : get? fields name = some v) :
    (name, v) ∈ fields := by
  unfold get? at h
  obtain ⟨p, hp, rfl⟩ := Option.map_eq_some_iff.mp h
  have hname : p.1 = name := by simpa using List.find?_some hp
  rw [← hname]
  exact List.mem_of_find?_eq_some hp

end Json

/-! ### Field paths -/

/-- One segment of a path: a member's name, with `[*]` or without. -/
structure Segment where
  name : String
  isList : Bool
deriving DecidableEq

/-- `[a-zA-Z_]`. -/
def isNameStart (c : Char) : Bool := c.isAlpha || c = '_'

/-- `[a-zA-Z0-9_]`. -/
def isNameRest (c : Char) : Bool := c.isAlphanum || c = '_'

/-- The characters of a member's name. -/
def isName : List Char → Bool
  | [] => false
  | c :: cs => isNameStart c && cs.all isNameRest

/-- One segment: a name, then `[*]` or nothing. The anchor `$` lets a final newline pass. -/
def parseSegment (seg : List Char) : Option Segment :=
  let chars := if seg.getLast? = some '\n' then seg.dropLast else seg
  let starred := (['[', '*', ']'] : List Char).isSuffixOf chars
  let name := if starred then chars.take (chars.length - 3) else chars
  if isName name then some ⟨String.ofList name, starred⟩ else none

/-- The path could not be parsed; `segment` is the first that is not one. -/
structure InvalidFieldPath where
  segment : String
deriving DecidableEq

/-- The segments of a path, in order. -/
def parse (path : String) : Except InvalidFieldPath (List Segment) :=
  (path.toList.splitOn '.').mapM fun seg =>
    match parseSegment seg with
    | some s => .ok s
    | none => .error ⟨String.ofList seg⟩

/-- All values matched by a path. -/
def readPath : List Segment → Json → List Json
  | [], node => [node]
  | seg :: rest, .obj fields =>
    match Json.get? fields seg.name with
    | none => []
    | some value =>
      if seg.isList then
        match value with
        | .arr xs => xs.flatMap (readPath rest)
        | _ => []
      else readPath rest value
  | _ :: _, _ => []

/-- The last segment: a starred list gets the mask for each element, anything else the mask. -/
def maskLast (isList : Bool) (mask value : Json) : Json :=
  match isList, value with
  | true, .arr xs => .arr (xs.map fun _ => mask)
  | _, _ => mask

/-- A segment on the way: a starred list is entered element by element, a starred value that is
    no list is left alone, and anything else is entered itself. -/
def descend (isList : Bool) (f : Json → Json) (value : Json) : Json :=
  match isList, value with
  | true, .arr xs => .arr (xs.map f)
  | true, v => v
  | false, v => f v

/-- Set everything a path matches to `mask`. A member that is not there is not made. -/
def applyMask : List Segment → Json → Json → Json
  | seg :: rest, mask, .obj fields =>
    match Json.get? fields seg.name with
    | none => .obj fields
    | some value =>
      .obj (Json.set fields seg.name
        (if rest.isEmpty then maskLast seg.isList mask value
          else descend seg.isList (applyMask rest mask) value))
  | _, _, node => node

variable (mask : Json)

/-- The value a path's first segment leads to, after the path was masked. -/
def maskedValue (value : Json) : Json :=
  if rest.isEmpty then maskLast seg.isList mask value
  else descend seg.isList (applyMask rest mask) value

theorem applyMask_obj (fields : Fields) : applyMask (seg :: rest) mask (.obj fields) =
      match Json.get? fields seg.name with
      | none => .obj fields
      | some value => .obj (Json.set fields seg.name (maskedValue seg rest mask value)) := rfl

/-- Masking an object leaves an object, whose members are as they were except for the one the
    path's first segment names, if it is there. -/
theorem applyMask_obj_get? (fields : Fields) :
    ∃ fields', applyMask (seg :: rest) mask (.obj fields) = .obj fields' ∧
      ∀ key, Json.get? fields' key =
        if key = seg.name then (Json.get? fields key).map (maskedValue seg rest mask)
        else Json.get? fields key := by
  rw [applyMask_obj]
  cases hget : Json.get? fields seg.name with
  | none =>
    refine ⟨fields, rfl, fun key => ?_⟩
    by_cases hk : key = seg.name
    · rw [if_pos hk, hk, hget]
      rfl
    · rw [if_neg hk]
  | some value =>
    refine ⟨_, rfl, fun key => ?_⟩
    rw [Json.get?_set _ _ (by rw [hget]; rfl)]
    by_cases hk : key = seg.name
    · rw [if_pos hk, if_pos hk, hk, hget]
      rfl
    · rw [if_neg hk, if_neg hk]

/-! ### Muffled spans -/

/-- `value == s` for an optional member. -/
def isStr (value : Option Json) (s : String) : Bool := value.bind Json.str? = some s

/-- `{**fields, name: v}`. -/
def put : Fields :=
  if (Json.get? fields name).isSome then Json.set fields name v else fields ++ [(name, v)]

/-- Tag an audible span as muffled. -/
def muffle : Json → Json
  | .obj span =>
    if isStr (Json.get? span "kind") "audio_only" then .obj (put span "muffled" (.bool true))
    else .obj span
  | v => v

/-! ### What masks alone account for -/

/-- A value made of masks: a mask, a part of one, or one masked again. -/
inductive MaskMade (masks : List Json) : Json → Prop
  | mask {m : Json} (h : m ∈ masks) : MaskMade masks m
  | element {xs : List Json} {x : Json} (h : MaskMade masks (.arr xs)) (hx : x ∈ xs) :
      MaskMade masks x
  | member {fields : Fields} {name : String} {x : Json} (h : MaskMade masks (.obj fields))
      (hx : (name, x) ∈ fields) : MaskMade masks x
  | masked {v m : Json} (path : List Segment) (h : MaskMade masks v) (hm : m ∈ masks) :
      MaskMade masks (applyMask path m v)
  | filled {xs : List Json} {m : Json} (h : MaskMade masks (.arr xs)) (hm : m ∈ masks) :
      MaskMade masks (.arr (xs.map fun _ => m))
  | elements {xs : List Json} {m : Json} (path : List Segment) (h : MaskMade masks (.arr xs))
      (hm : m ∈ masks) : MaskMade masks (.arr (xs.map (applyMask path m)))

/-- Nothing can be read at the path but values made of masks. -/
def MaskedAt (masks : List Json) (path : List Segment) (node : Json) : Prop :=
  ∀ v ∈ readPath path node, MaskMade masks v

variable {masks : List Json} {m node : Json}

/-- Reading an object: what the member's value gives, by the segment's kind. -/
def readValue (value : Json) : List Json :=
  if seg.isList then
    match value with
    | .arr xs => xs.flatMap (readPath rest)
    | _ => []
  else readPath rest value

theorem readPath_obj : readPath (seg :: rest) (.obj fields) =
      ((Json.get? fields seg.name).map (readValue seg rest)).getD [] := by
  rw [readPath]
  cases Json.get? fields seg.name <;> rfl

theorem readPath_arr (path : List Segment) (xs : List Json) :
    readPath path (.arr xs) = if path = [] then [.arr xs] else [] := by
  cases path <;> simp [readPath]

theorem MaskMade.readValue {seg : Segment} {rest : List Segment} {value : Json}
    (ih : ∀ node, MaskMade masks node → MaskedAt masks rest node) (h : MaskMade masks value) :
    ∀ v ∈ Projection.readValue seg rest value, MaskMade masks v := by
  intro v hv
  unfold Projection.readValue at hv
  cases hlist : seg.isList with
  | false =>
    simp only [hlist, Bool.false_eq_true, if_false] at hv
    exact ih value h v hv
  | true =>
    simp only [hlist, if_true] at hv
    cases value with
    | arr xs =>
      obtain ⟨x, hx, hvx⟩ := List.mem_flatMap.mp hv
      exact ih x (h.element hx) v hvx
    | _ => simp at hv

theorem MaskMade.maskedAt (path : List Segment) (h : MaskMade masks node) :
    MaskedAt masks path node := by
  induction path generalizing node with
  | nil =>
    intro v hv
    rw [readPath, List.mem_singleton] at hv
    rw [hv]
    exact h
  | cons seg rest ih =>
    intro v hv
    cases node with
    | obj fields =>
      rw [readPath_obj] at hv
      cases hget : Json.get? fields seg.name with
      | none =>
        rw [hget] at hv
        simp at hv
      | some value =>
        rw [hget] at hv
        have hvalue : MaskMade masks value := h.member (Json.mem_of_get? hget)
        exact hvalue.readValue (fun node hnode => ih hnode) v hv
    | _ => simp [readPath] at hv

/-- What a masked path's own reading gives at one segment. -/
theorem maskMade_readValue_maskedValue (hm : m ∈ masks)
    (ih : ∀ node, rest ≠ [] → MaskedAt masks rest (applyMask rest m node)) (value : Json) :
    ∀ v ∈ readValue seg rest (maskedValue seg rest m value), MaskMade masks v := by
  have hmask : MaskMade masks m := .mask hm
  intro v hv
  unfold readValue at hv
  unfold maskedValue at hv
  cases rest with
  | nil =>
    cases hlist : seg.isList with
    | false =>
      rw [hlist, if_neg (by decide)] at hv
      exact hmask.maskedAt [] v hv
    | true =>
      rw [hlist, if_pos rfl] at hv
      -- a starred list holds the mask only; the mask itself may be a list
      cases value with
      | arr xs =>
        obtain ⟨x, hx, hvx⟩ := List.mem_flatMap.mp hv
        obtain ⟨_, -, rfl⟩ := List.mem_map.mp hx
        exact hmask.maskedAt [] v hvx
      | _ =>
        all_goals
          simp only [maskLast] at hv
          cases m with
          | arr ys =>
            obtain ⟨y, hy, hvy⟩ := List.mem_flatMap.mp hv
            exact (hmask.element hy).maskedAt [] v hvy
          | _ => simp at hv
  | cons seg' rest' =>
    cases hlist : seg.isList with
    | false =>
      rw [hlist, if_neg (by decide)] at hv
      exact ih value (by simp) v hv
    | true =>
      rw [hlist, if_pos rfl] at hv
      cases value with
      | arr xs =>
        obtain ⟨x, hx, hvx⟩ := List.mem_flatMap.mp hv
        obtain ⟨y, -, rfl⟩ := List.mem_map.mp hx
        exact ih y (by simp) v hvx
      | _ => simp [descend] at hv

/-- **Masking masks.** After a path was masked, only values made of masks can be read there. -/
theorem maskedAt_applyMask {path : List Segment} (hpath : path ≠ []) (hm : m ∈ masks)
    (node : Json) : MaskedAt masks path (applyMask path m node) := by
  induction path generalizing node with
  | nil => exact absurd rfl hpath
  | cons seg rest ih =>
    intro v hv
    cases node with
    | obj fields =>
      obtain ⟨fields', hobj, hget⟩ := applyMask_obj_get? seg rest m fields
      rw [hobj, readPath_obj, hget, if_pos rfl] at hv
      cases hvalue : Json.get? fields seg.name with
      | none =>
        rw [hvalue] at hv
        simp at hv
      | some value =>
        rw [hvalue] at hv
        exact maskMade_readValue_maskedValue seg rest hm (fun node h => ih h node) value v hv
    | _ => simp [applyMask, readPath] at hv

theorem maskMade_readValue_of_readValue {seg : Segment} {rest : List Segment} (hm : m ∈ masks)
    (ih : ∀ node path, MaskedAt masks rest node → MaskedAt masks rest (applyMask path m node))
    (seg' : Segment) (rest' : List Segment) {value : Json}
    (h : ∀ v ∈ readValue seg rest value, MaskMade masks v) :
    ∀ v ∈ readValue seg rest (maskedValue seg' rest' m value), MaskMade masks v := by
  have hmask : ∀ v ∈ readValue seg rest m, MaskMade masks v :=
    (MaskMade.mask hm).readValue (fun _ hnode => hnode.maskedAt rest)
  unfold maskedValue
  cases rest' with
  | nil =>
    simp only [List.isEmpty_nil, if_true]
    cases hlist' : seg'.isList with
    | false => exact hmask
    | true =>
      cases value with
      | arr xs =>
        -- the list is now filled with the mask
        intro v hv
        unfold readValue at hv h
        cases hlist : seg.isList with
        | false =>
          simp only [hlist, Bool.false_eq_true, if_false, maskLast, readPath_arr] at hv h
          by_cases hrest : rest = []
          · simp only [hrest, if_true, List.mem_singleton, forall_eq] at hv h
            rw [hv]
            exact h.filled hm
          · simp only [hrest, if_false] at hv
            simp at hv
        | true =>
          simp only [hlist, if_true, maskLast] at hv
          obtain ⟨x, hx, hvx⟩ := List.mem_flatMap.mp hv
          obtain ⟨_, -, rfl⟩ := List.mem_map.mp hx
          exact (MaskMade.mask hm).maskedAt rest v hvx
      | _ => exact hmask
  | cons seg'' rest'' =>
    simp only [List.isEmpty_cons, Bool.false_eq_true, if_false]
    intro v hv
    unfold readValue at hv h
    cases hlist' : seg'.isList with
    | true =>
      rw [hlist'] at hv
      cases value with
      | arr xs =>
        cases hlist : seg.isList with
        | false =>
          simp only [hlist, Bool.false_eq_true, if_false, descend, readPath_arr] at hv h
          by_cases hrest : rest = []
          · simp only [hrest, if_true, List.mem_singleton, forall_eq] at hv h
            rw [hv]
            exact h.elements _ hm
          · simp only [hrest, if_false] at hv
            simp at hv
        | true =>
          simp only [hlist, if_true, descend] at hv h
          obtain ⟨x, hx, hvx⟩ := List.mem_flatMap.mp hv
          obtain ⟨y, hy, rfl⟩ := List.mem_map.mp hx
          have hread : MaskedAt masks rest y := fun w hw => h w (List.mem_flatMap.mpr ⟨y, hy, hw⟩)
          exact ih y _ hread v hvx
      | _ => exact h v hv
    | false =>
      rw [hlist'] at hv
      cases hlist : seg.isList with
      | false =>
        simp only [hlist, Bool.false_eq_true, if_false, descend] at hv h
        exact ih value _ h v hv
      | true =>
        -- entering a value that is no object changes nothing, and an object is no list
        cases value with
        | obj fields =>
          obtain ⟨fields', hobj, -⟩ := applyMask_obj_get? seg'' rest'' m fields
          simp only [hlist, if_true, descend, hobj] at hv
          simp at hv
        | _ =>
          simp only [hlist, if_true] at h
          simp only [hlist, if_true, descend, applyMask] at hv
          exact h v hv

/-- **Masks only add to masks.** A path where masks alone account for what is read stays so
    whatever is masked afterwards. -/
theorem MaskedAt.applyMask {path : List Segment} (h : MaskedAt masks path node) (hm : m ∈ masks)
    (path' : List Segment) : MaskedAt masks path (applyMask path' m node) := by
  induction path generalizing node path' with
  | nil =>
    intro v hv
    rw [readPath, List.mem_singleton] at hv
    rw [hv]
    exact MaskMade.masked path' (h node (by simp [readPath])) hm
  | cons seg rest ih =>
    cases path' with
    | nil => exact h
    | cons seg' rest' =>
      cases node with
      | obj fields =>
        obtain ⟨fields', hobj, hget⟩ := applyMask_obj_get? seg' rest' m fields
        intro v hv
        unfold MaskedAt at h
        rw [hobj, readPath_obj, hget] at hv
        rw [readPath_obj] at h
        cases hvalue : Json.get? fields seg.name with
        | none =>
          simp only [hvalue, Option.map_none, ite_self] at hv
          simp at hv
        | some value =>
          simp only [hvalue, Option.map_some, Option.getD_some] at h
          by_cases hname : seg.name = seg'.name
          · rw [if_pos hname, hvalue] at hv
            exact maskMade_readValue_of_readValue hm (fun _ path hnode => ih hnode path)
              seg' rest' h v hv
          · simp only [hname, hvalue, if_false, Option.map_some, Option.getD_some] at hv
            exact h v hv
      | _ => exact h

end Sidequest.Projection
