import Sidequest.Projection.Schema

namespace Sidequest.Projection

open Lib

/-!
# What accepted paths denote

A path of a flattened schema goes from field to field of a class; what it denotes in a payload is
found by the wire names of these fields. Masks and predicates find it in their own ways.

* `denoted`, `maskDenoted` — all values a path denotes, and the payload with these masked;
* `denotes_iff` — when the rules of a kind do to a payload what their schema says.
-/

/-! ### What a path denotes -/

/-- The type of what a segment leads to: a starred one leads to the items of a list. -/
def FieldShape.entered (isList : Bool) (ann : FieldShape) : FieldShape :=
  match isList, ann with
  | true, .list item => item
  | _, ann => ann

/-- The field of a class with a name. -/
def fieldNamed (fields : ClassFields) (name : String) : Option (FieldInfo × FieldShape) :=
  fields.find? (fun f => f.1.name = name)

/-- The wire name, the type and the value of a field, if the members have it. -/
def present (protocolBase : Bool) (fields : ClassFields) (members : Fields) (name : String) :
    Option (String × FieldShape × Json) :=
  (fieldNamed fields name).bind fun f =>
    (Json.get? members (f.1.wireName protocolBase)).map fun value =>
      (f.1.wireName protocolBase, f.2, value)

/-- What a segment leads to in a value: a starred one to all items of a list, and to nothing in
    anything else. -/
def collect (isList : Bool) (f : Json → List Json) (value : Json) : List Json :=
  match isList, value with
  | true, .arr xs => xs.flatMap f
  | true, _ => []
  | false, v => f v

/-- All values that a path through a type denotes. -/
def denoted : List Segment → FieldShape → Json → List Json
  | [], _, node => [node]
  | seg :: rest, .model protocolBase fields, .obj members =>
    match present protocolBase fields members seg.name with
    | none => []
    | some (_, ann, value) => collect seg.isList (denoted rest (ann.entered seg.isList)) value
  | _, _, _ => []

/-- The value with all that a path through its type denotes masked. -/
def maskDenoted (mask : Json) : List Segment → FieldShape → Json → Json
  | [], _, _ => mask
  | seg :: rest, .model protocolBase fields, .obj members =>
    match present protocolBase fields members seg.name with
    | none => .obj members
    | some (key, ann, value) => .obj (Json.set members key
        (descend seg.isList (maskDenoted mask rest (ann.entered seg.isList)) value))
  | _, _, node => node

/-- All fields on a path go by their own names on the wire. -/
def OwnNames : List Segment → FieldShape → Prop
  | seg :: rest, .model protocolBase fields =>
    match fieldNamed fields seg.name with
    | none => True
    | some (info, ann) => info.wireName protocolBase = info.name ∧
        OwnNames rest (ann.entered seg.isList)
  | _, _ => True

instance decidableOwnNames : (path : List Segment) → (ann : FieldShape) →
    Decidable (OwnNames path ann)
  | [], _ => .isTrue trivial
  | _ :: _, .scalar _ => .isTrue trivial
  | _ :: _, .list _ => .isTrue trivial
  | seg :: rest, .model protocolBase fields =>
    match h : fieldNamed fields seg.name with
    | none => .isTrue (by
        unfold OwnNames
        rw [h]
        trivial)
    | some (info, ann) =>
      have := decidableOwnNames rest (ann.entered seg.isList)
      decidable_of_iff (info.wireName protocolBase = info.name ∧
        OwnNames rest (ann.entered seg.isList)) (by
          rw [OwnNames, h])

/-! ### Setting members -/

namespace Json

theorem set_eq_self {fields : Fields} {name : String} {v : Json} (h : get? fields name = some v) :
    set fields name v = fields := by
  induction fields with
  | nil => rfl
  | cons p rest ih =>
    rw [get?_cons] at h
    unfold set
    by_cases hp : p.1 = name
    · rw [if_pos hp] at h
      rw [if_pos hp, ← Option.some.inj h, ← hp]
    · rw [if_neg hp] at h
      rw [if_neg hp, ih h]

theorem eq_of_set_eq_self {fields : Fields} {name : String} {v w : Json}
    (hget : get? fields name = some v) (h : set fields name w = fields) : w = v := by
  have hset := @get?_set fields name w name (by rw [hget]; rfl)
  rw [h, if_pos rfl, hget] at hset
  exact (Option.some.inj hset).symm

end Json

/-! ### Masking what is denoted -/

variable {ann : FieldShape}

theorem get?_of_present {protocolBase : Bool} {fields : ClassFields} {members : Fields}
    {name key : String} {value : Json}
    (h : present protocolBase fields members name = some (key, ann, value)) :
    Json.get? members key = some value := by
  obtain ⟨f, -, hf⟩ := Option.bind_eq_some_iff.mp h
  obtain ⟨v, hv, heq⟩ := Option.map_eq_some_iff.mp hf
  obtain ⟨rfl, -, rfl⟩ := Prod.mk.inj heq |>.imp_right Prod.mk.inj
  exact hv

/-- A segment that changes nothing it leads to, changes nothing. -/
theorem descend_eq_self {isList : Bool} {f : Json → Json} {value : Json}
    (hitems : isList = true → ∀ xs, value = .arr xs → ∀ x ∈ xs, f x = x)
    (hplain : isList = false → f value = value) : descend isList f value = value := by
  cases isList with
  | false => exact hplain rfl
  | true =>
    cases value with
    | arr xs =>
      have hmap : xs.map f = xs.map id := List.map_congr_left (hitems rfl xs rfl)
      show Json.arr (xs.map f) = Json.arr xs
      rw [hmap, List.map_id]
    | _ => rfl

/-- Where nothing is denoted, there is nothing to mask. -/
theorem maskDenoted_eq_self {path : List Segment} {node : Json} (h : denoted path ann node = [])
    (mask : Json) : maskDenoted mask path ann node = node := by
  induction path generalizing ann node with
  | nil => simp [denoted] at h
  | cons seg rest ih =>
    unfold maskDenoted
    split
    · rename_i hnil
      simp at hnil
    · rename_i protocolBase fields members heq
      cases heq
      rw [denoted] at h
      split
      · rfl
      · rename_i key ann value hpresent
        rw [hpresent] at h
        rw [descend_eq_self, Json.set_eq_self (get?_of_present hpresent)]
        · rintro hlist xs rfl x hx
          refine ih ?_
          rw [hlist] at h
          rw [hlist]
          exact List.flatMap_eq_nil_iff.mp h x hx
        · intro hplain
          refine ih ?_
          rw [hplain] at h
          rw [hplain]
          exact h
    · rfl

/-- No value is a list with itself alone. -/
theorem arr_singleton_ne (node : Json) : Json.arr [node] ≠ node := by
  intro h
  have hsize := congrArg sizeOf h
  simp only [Json.arr.sizeOf_spec, List.cons.sizeOf_spec, List.nil.sizeOf_spec] at hsize
  omega

/-- Where something is denoted, a mask can be told from it. -/
theorem exists_maskDenoted_ne {path : List Segment} {node : Json} (h : denoted path ann node ≠ []) :
    ∃ mask, maskDenoted mask path ann node ≠ node := by
  induction path generalizing ann node with
  | nil => exact ⟨.arr [node], arr_singleton_ne node⟩
  | cons seg rest ih =>
    unfold denoted at h
    split at h
    · rename_i hnil
      simp at hnil
    · rename_i protocolBase fields members heq
      cases heq
      split at h
      · exact absurd rfl h
      · rename_i key ann value hpresent
        -- a mask that changes the field's value changes the object
        have hobj : ∀ mask, descend seg.isList
            (maskDenoted mask rest (ann.entered seg.isList)) value ≠ value →
              ∃ mask, maskDenoted mask (seg :: rest) (.model protocolBase fields) (.obj members) ≠
                .obj members := by
          intro mask hne
          refine ⟨mask, fun hself => hne ?_⟩
          rw [maskDenoted, hpresent] at hself
          exact Json.eq_of_set_eq_self (get?_of_present hpresent) (Json.obj.inj hself)
        cases hlist : seg.isList with
        | false =>
          rw [hlist] at h hobj
          obtain ⟨mask, hmask⟩ := ih h
          exact hobj mask hmask
        | true =>
          rw [hlist] at h hobj
          cases value with
          | arr xs =>
            obtain ⟨x, hx, hne⟩ : ∃ x ∈ xs, denoted rest (ann.entered true) x ≠ [] := by
              by_contra hnone
              push Not at hnone
              exact h (List.flatMap_eq_nil_iff.mpr hnone)
            obtain ⟨mask, hmask⟩ := ih hne
            refine hobj mask (fun hself => hmask ?_)
            have hmap : xs.map (maskDenoted mask rest (ann.entered true)) = xs.map id := by
              rw [List.map_id]
              exact Json.arr.inj hself
            exact List.map_inj_left.mp hmap x hx
          | _ => exact absurd rfl h
    · exact absurd rfl h

/-- **Masking changes nothing**, whatever the mask, exactly if nothing is denoted. -/
theorem maskDenoted_eq_self_iff {path : List Segment} {node : Json} :
    (∀ mask, maskDenoted mask path ann node = node) ↔ denoted path ann node = [] := by
  constructor
  · intro hself
    by_contra hne
    obtain ⟨mask, hmask⟩ := exists_maskDenoted_ne hne
    exact hmask (hself mask)
  · exact maskDenoted_eq_self

/-! ### Regular classes -/

section Regular

variable {protocolBase : Bool} {fields : ClassFields} {members : Fields} {info : FieldInfo}
  {ann : FieldShape}

theorem regular_model (h : (FieldShape.model protocolBase fields).regular = true) :
    namesRegular protocolBase (fields.map Prod.fst) = true ∧
      fieldsRegular protocolBase fields = true := by
  rw [FieldShape.regular, Bool.and_eq_true] at h
  exact h

theorem regular_of_mem (h : fieldsRegular protocolBase fields = true)
    (hmem : (info, ann) ∈ fields) : ann.regular = true ∧
      (ann.isList = true → info.optional = true →
        protocolBase = true ∧ info.includeWhenNone = false) := by
  induction fields with
  | nil => simp at hmem
  | cons field rest ih =>
    rw [fieldsRegular, Bool.and_eq_true, Bool.and_eq_true] at h
    obtain ⟨⟨hnone, hann⟩, hrest⟩ := h
    rcases List.mem_cons.mp hmem with heq | hin
    · cases heq
      refine ⟨hann, fun hlist hopt => ?_⟩
      rw [hlist, hopt] at hnone
      simpa using hnone
    · exact ih hrest hin

theorem fieldNamed_of_mem (h : namesRegular protocolBase (fields.map Prod.fst) = true)
    (hmem : (info, ann) ∈ fields) : fieldNamed fields info.name = some (info, ann) := by
  have hnodup : ((fields.map Prod.fst).map FieldInfo.name).Nodup := (of_decide_eq_true h).1
  rw [List.map_map] at hnodup
  have hsome : (fieldNamed fields info.name).isSome := by
    unfold fieldNamed
    rw [List.find?_isSome]
    exact ⟨_, hmem, by simp⟩
  obtain ⟨found, hfound⟩ := Option.isSome_iff_exists.mp hsome
  have hname : found.1.name = info.name := by simpa using List.find?_some hfound
  rw [hfound, List.inj_on_of_nodup_map hnodup (List.mem_of_find?_eq_some hfound) hmem hname]

theorem eq_of_wireName_eq (h : namesRegular protocolBase (fields.map Prod.fst) = true)
    {info' : FieldInfo} {ann' : FieldShape} (hmem : (info, ann) ∈ fields)
    (hmem' : (info', ann') ∈ fields)
    (heq : info.wireName protocolBase = info'.wireName protocolBase) :
    info = info' ∧ ann = ann' := by
  have hnodup : ((fields.map Prod.fst).map (·.wireName protocolBase)).Nodup :=
    (of_decide_eq_true h).2.1
  rw [List.map_map] at hnodup
  exact Prod.mk.inj (List.inj_on_of_nodup_map hnodup hmem hmem' heq)

theorem Shaped.value (hshape : Shaped protocolBase fields members)
    (h : namesRegular protocolBase (fields.map Prod.fst) = true) (hmem : (info, ann) ∈ fields)
    {value : Json} (hget : Json.get? members (info.wireName protocolBase) = some value) :
    (Dumps ann value ∨ info.optional = true ∧ value = .null) ∧
      (protocolBase && info.leftOut value) = false := by
  obtain ⟨info', ann', hmem', hkey, hvalue, hin⟩ := hshape _ _ hget
  obtain ⟨rfl, rfl⟩ := eq_of_wireName_eq h hmem hmem' hkey
  exact ⟨hvalue, hin⟩

theorem Shaped.get?_name_eq_none (hshape : Shaped protocolBase fields members)
    (h : namesRegular protocolBase (fields.map Prod.fst) = true) (hmem : (info, ann) ∈ fields)
    (hother : info.wireName protocolBase ≠ info.name) : Json.get? members info.name = none := by
  by_contra hget
  obtain ⟨value, hget⟩ := Option.ne_none_iff_exists'.mp hget
  obtain ⟨info', ann', hmem', hkey, -, -⟩ := hshape _ _ hget
  have hinfo' : info' ∈ fields.map Prod.fst := List.mem_map_of_mem hmem'
  have hname : info.name ∈ (fields.map Prod.fst).map FieldInfo.name :=
    List.mem_map_of_mem (List.mem_map_of_mem (f := Prod.fst) hmem)
  rcases (of_decide_eq_true h).2.2.2 info' hinfo' with hown | hnot
  · have hsame := fieldNamed_of_mem h hmem
    rw [hkey, hown, fieldNamed_of_mem h hmem'] at hsame
    cases hsame
    exact hother hkey.symm
  · rw [hkey] at hname
    exact hnot hname

end Regular

/-! ### Where a mask goes -/

section Masks

variable {protocolBase : Bool} {fields : ClassFields} {members : Fields} {path : List Segment}

/-- A member that is set to what it is, changes nothing. -/
theorem applyMask_cons_eq_self {seg : Segment} {rest : List Segment} {mask : Json}
    (h : ∀ value, Json.get? members seg.name = some value →
      maskedValue seg rest mask value = value) :
    applyMask (seg :: rest) mask (.obj members) = .obj members := by
  rw [applyMask_obj]
  cases hget : Json.get? members seg.name with
  | none => rfl
  | some value =>
    show Json.obj (Json.set members seg.name (maskedValue seg rest mask value)) = _
    rw [h value hget, Json.set_eq_self hget]

/-- The type that a segment leads to, of a field that is an object or a list of objects. -/
theorem entered_of_eq {isList : Bool} {sub : FieldShape}
    (h : ann = if isList then .list sub else sub) : ann.entered isList = sub := by
  cases isList with
  | false =>
    rw [h]
    rfl
  | true =>
    rw [h]
    rfl

theorem regular_of_entered {isList : Bool} {sub : FieldShape}
    (h : ann = if isList then .list sub else sub) (hann : ann.regular = true) :
    sub.regular = true := by
  cases isList with
  | false =>
    rw [h] at hann
    exact hann
  | true =>
    rw [h] at hann
    exact hann

theorem maskedValue_nil {seg : Segment} {info : FieldInfo} {mask value : Json}
    (hlist : seg.isList = true → ∃ item, ann = .list item)
    (hlists : ann.isList = true → info.optional = true →
      protocolBase = true ∧ info.includeWhenNone = false)
    (hvalue : (Dumps ann value ∨ info.optional = true ∧ value = .null) ∧
      (protocolBase && info.leftOut value) = false) : maskedValue seg [] mask value =
      descend seg.isList (maskDenoted mask [] (ann.entered seg.isList)) value := by
  unfold maskedValue
  cases hstar : seg.isList with
  | false => rfl
  | true =>
    obtain ⟨item, rfl⟩ := hlist hstar
    rcases hvalue with ⟨hdump | ⟨hopt, rfl⟩, hin⟩
    · obtain ⟨xs, rfl, -⟩ := hdump
      rfl
    · -- a list that is `None` is not in the payload
      obtain ⟨rfl, hwhen⟩ := hlists rfl hopt
      rw [FieldInfo.leftOut, hwhen] at hin
      simp at hin

/-- A segment on the way leads to objects, or to `None`. -/
theorem maskedValue_of_isPath {seg : Segment} {rest : List Segment} {info : FieldInfo} {b : Bool}
    {sub : ClassFields} {mask value : Json} (hsub : IsPath rest sub)
    (hann : ann = if seg.isList then .list (.model b sub) else .model b sub)
    (hvalue : Dumps ann value ∨ info.optional = true ∧ value = .null)
    (h : ∀ v, Dumps (.model b sub) v →
      applyMask rest mask v = maskDenoted mask rest (.model b sub) v) :
    maskedValue seg rest mask value =
      descend seg.isList (maskDenoted mask rest (ann.entered seg.isList)) value := by
  rw [entered_of_eq hann]
  cases rest with
  | nil => exact absurd hsub id
  | cons next rest =>
    unfold maskedValue
    cases hstar : seg.isList with
    | false =>
      rw [hstar] at hann
      subst hann
      rcases hvalue with hdump | ⟨-, rfl⟩
      · exact h value hdump
      · rfl
    | true =>
      rw [hstar] at hann
      subst hann
      rcases hvalue with hdump | ⟨-, rfl⟩
      · obtain ⟨xs, rfl, hxs⟩ := hdump
        show Json.arr (xs.map (applyMask (next :: rest) mask)) =
          Json.arr (xs.map (maskDenoted mask (next :: rest) (.model b sub)))
        rw [List.map_congr_left (fun x hx => h x (hxs x hx))]
      · rfl

/-- **Along own names** a mask goes exactly where the path does. -/
theorem applyMask_of_ownNames (hpath : IsPath path fields)
    (hreg : (FieldShape.model protocolBase fields).regular = true)
    (hshape : Shaped protocolBase fields members)
    (hown : OwnNames path (.model protocolBase fields)) (mask : Json) :
    applyMask path mask (.obj members) =
      maskDenoted mask path (.model protocolBase fields) (.obj members) := by
  induction path generalizing protocolBase fields members with
  | nil => exact absurd hpath id
  | cons seg rest ih =>
    obtain ⟨hnames, hfields⟩ := regular_model hreg
    obtain ⟨info, ann, hmem, hname, hrest⟩ := hpath
    have hnamed := fieldNamed_of_mem hnames hmem
    rw [hname] at hnamed
    rw [OwnNames, hnamed] at hown
    obtain ⟨hwire, hown⟩ := hown
    rw [hname] at hwire
    obtain ⟨hann, hlists⟩ := regular_of_mem hfields hmem
    -- what the path goes on in is an object of the class it goes through, or `None`
    have hgoesOn : ∀ b sub value, IsPath rest sub → (FieldShape.model b sub).regular = true →
        OwnNames rest (.model b sub) → Dumps (.model b sub) value →
          applyMask rest mask value = maskDenoted mask rest (.model b sub) value := by
      intro b sub value hsub hregular howns hdump
      obtain ⟨inner, rfl, hinner⟩ := shaped_of_dumps hdump
      exact ih hsub hregular hinner howns
    rw [applyMask_obj, maskDenoted]
    unfold present
    rw [hnamed]
    cases hget : Json.get? members seg.name with
    | none =>
      simp only [Option.bind_some, hwire, hget, Option.map_none]
    | some value =>
      simp only [Option.bind_some, hwire, hget, Option.map_some]
      rw [← hwire] at hget
      have hvalue := hshape.value hnames hmem hget
      have hinside : maskedValue seg rest mask value =
          descend seg.isList (maskDenoted mask rest (ann.entered seg.isList)) value := by
        rcases hrest with ⟨rfl, hlist⟩ | ⟨b, sub, hsub, hannsub⟩
        · exact maskedValue_nil hlist hlists hvalue
        · exact maskedValue_of_isPath hsub hannsub hvalue.1
            (fun v hdump => hgoesOn b sub v hsub (regular_of_entered hannsub hann)
              (by rw [entered_of_eq hannsub] at hown; exact hown) hdump)
      rw [hinside]

/-- **A field with another name** on the wire stops a mask. -/
theorem applyMask_of_not_ownNames (hpath : IsPath path fields)
    (hreg : (FieldShape.model protocolBase fields).regular = true)
    (hshape : Shaped protocolBase fields members)
    (hother : ¬ OwnNames path (.model protocolBase fields)) (mask : Json) :
    applyMask path mask (.obj members) = .obj members := by
  induction path generalizing protocolBase fields members with
  | nil => exact absurd hpath id
  | cons seg rest ih =>
    obtain ⟨hnames, hfields⟩ := regular_model hreg
    obtain ⟨info, ann, hmem, hname, hrest⟩ := hpath
    have hnamed := fieldNamed_of_mem hnames hmem
    rw [hname] at hnamed
    rw [OwnNames, hnamed] at hother
    refine applyMask_cons_eq_self (fun value hget => ?_)
    by_cases hwire : info.wireName protocolBase = info.name
    · have hdeeper : ¬ OwnNames rest (ann.entered seg.isList) := fun h => hother ⟨hwire, h⟩
      rw [hname] at hwire
      rw [← hwire] at hget
      have hvalue := hshape.value hnames hmem hget
      rcases hrest with ⟨rfl, -⟩ | ⟨b, sub, hsub, hann⟩
      · exact absurd trivial hdeeper
      · have hregular := regular_of_entered hann (regular_of_mem hfields hmem).1
        rw [entered_of_eq hann] at hdeeper
        have hgoesOn : ∀ v, Dumps (.model b sub) v → applyMask rest mask v = v := by
          intro v hdump
          obtain ⟨inner, rfl, hinner⟩ := shaped_of_dumps hdump
          exact ih hsub hregular hinner hdeeper
        cases rest with
        | nil => exact absurd hsub id
        | cons next rest =>
          refine descend_eq_self (fun hstar xs hxs x hx => ?_) (fun hstar => ?_)
          · rw [hstar, if_pos rfl] at hann
            subst hann hxs
            rcases hvalue.1 with hdump | ⟨-, hnull⟩
            · obtain ⟨ys, hys, hall⟩ := hdump
              cases hys
              exact hgoesOn x (hall x hx)
            · simp at hnull
          · rw [hstar, if_neg (by decide)] at hann
            subst hann
            rcases hvalue.1 with hdump | ⟨-, rfl⟩
            · exact hgoesOn value hdump
            · rfl
    · rw [← hname, hshape.get?_name_eq_none hnames hmem hwire] at hget
      simp at hget

end Masks

/-! ### What is read at the top level -/

/-- A path of one field, without a star. -/
def TopLevel : List Segment → Prop
  | [seg] => seg.isList = false
  | _ => False

instance : (path : List Segment) → Decidable (TopLevel path)
  | [] => .isFalse id
  | [seg] => inferInstanceAs (Decidable (seg.isList = false))
  | _ :: _ :: _ => .isFalse id

theorem exists_of_topLevel {path : List Segment} (h : TopLevel path) :
    ∃ name, path = [⟨name, false⟩] := by
  match path, h with
  | [seg], h => exact ⟨seg.name, by rw [← (h : seg.isList = false)]⟩

section TopLevel

variable {protocolBase : Bool} {fields : ClassFields} {members : Fields} {path : List Segment}

theorem isName_of_isPath (hpath : IsPath path fields)
    (hreg : (FieldShape.model protocolBase fields).regular = true) :
    ∀ seg ∈ path, isName seg.name.toList = true := by
  induction path generalizing protocolBase fields with
  | nil => exact absurd hpath id
  | cons seg rest ih =>
    obtain ⟨hnames, hfields⟩ := regular_model hreg
    obtain ⟨info, ann, hmem, hname, hrest⟩ := hpath
    intro seg' hseg'
    rcases List.mem_cons.mp hseg' with rfl | hin
    · rw [← hname]
      exact (of_decide_eq_true hnames).2.2.1 _ (List.mem_append_left _
        (List.mem_map_of_mem (List.mem_map_of_mem (f := Prod.fst) hmem)))
    · rcases hrest with ⟨rfl, -⟩ | ⟨b, sub, hsub, hann⟩
      · simp at hin
      · exact ih hsub (regular_of_entered hann (regular_of_mem hfields hmem).1) seg' hin

theorem get?_toList_eq_denoted (hpath : IsPath path fields)
    (hreg : (FieldShape.model protocolBase fields).regular = true) (htop : TopLevel path)
    (hown : OwnNames path (.model protocolBase fields)) : (Json.get? members (render path)).toList =
      denoted path (.model protocolBase fields) (.obj members) := by
  obtain ⟨hnames, -⟩ := regular_model hreg
  obtain ⟨name, rfl⟩ := exists_of_topLevel htop
  obtain ⟨info, ann, hmem, hname, -⟩ := hpath
  have hnamed := fieldNamed_of_mem hnames hmem
  obtain rfl : info.name = name := hname
  rw [OwnNames, hnamed] at hown
  have hrender : render [⟨info.name, false⟩] = info.name := String.append_empty
  rw [hrender, denoted]
  unfold present
  rw [hnamed]
  simp only [Option.bind_some, hown.1]
  cases Json.get? members info.name <;> rfl

/-- Nothing else is read there. -/
theorem get?_render_eq_none (hpath : IsPath path fields)
    (hreg : (FieldShape.model protocolBase fields).regular = true)
    (hshape : Shaped protocolBase fields members)
    (h : ¬ (TopLevel path ∧ OwnNames path (.model protocolBase fields))) :
    Json.get? members (render path) = none := by
  obtain ⟨hnames, -⟩ := regular_model hreg
  by_contra hget
  obtain ⟨value, hget⟩ := Option.ne_none_iff_exists'.mp hget
  -- the text is the wire name of a field, so the path has one segment without a star
  obtain ⟨info, ann, hmem, hkey, -, -⟩ := hshape _ _ hget
  have hname : isName (render path).toList = true := by
    rw [hkey]
    exact (of_decide_eq_true hnames).2.2.1 _ (List.mem_append_right _
      (List.mem_map_of_mem (List.mem_map_of_mem (f := Prod.fst) hmem)))
  have hne : path ≠ [] := by
    rintro rfl
    exact hpath
  rw [toList_render hne] at hname
  cases path with
  | nil => exact hne rfl
  | cons seg rest =>
    cases rest with
    | cons next rest =>
      refine not_mem_of_isName hname (c := '.') (by decide) ?_
      simp [List.intercalate_cons_cons]
    | nil =>
      cases hstar : seg.isList with
      | true =>
        refine not_mem_of_isName hname (c := '[') (by decide) ?_
        simp [Segment.chars, hstar]
      | false =>
        obtain ⟨info', ann', hmem', hname', -⟩ := hpath
        have hrender : render [seg] = info'.name := by
          rw [render, hstar, hname']
          exact String.append_empty
        have hnamed := fieldNamed_of_mem hnames hmem'
        rw [hname'] at hnamed
        refine h ⟨hstar, ?_⟩
        rw [OwnNames, hnamed]
        refine ⟨?_, trivial⟩
        by_contra hother
        rw [hrender, hshape.get?_name_eq_none hnames hmem' hother] at hget
        simp at hget

end TopLevel

/-! ### Rules -/

section Rules

variable (cls : ClassFields) (payload : Fields)

/-- What a path of a class denotes in a payload. -/
def denotedIn (path : List Segment) : List Json := denoted path (.model true cls) (.obj payload)

/-- The predicate reads the one value that its argument, if any, denotes. -/
def CallDenotes (call : PredicateCall) : Prop :=
  ∀ arg, call.arg = some arg → ∃ path value, parse arg = .ok path ∧
    readField payload (some arg) = some value ∧ denotedIn cls payload path = [value]

/-- A rule does to a payload what the schema says: a target field is read where it is, a mask goes
    to all that its path denotes and nowhere else, and predicates read what their arguments
    denote. -/
def Denotes : ProjectionRule → Prop
  | .targetOnly _ field => ∃ path, parse field = .ok path ∧
      (Json.get? payload field).toList = denotedIn cls payload path
  | .includeIf _ call => CallDenotes cls payload call
  | .redactFields _ specs => ∀ spec ∈ specs,
      (∃ path, parse spec.field = .ok path ∧ ∀ mask, applyMask path mask (.obj payload) =
        maskDenoted mask path (.model true cls) (.obj payload)) ∧
      CallDenotes cls payload spec.«unless»
  | .visibilityTag _ => True

/-- The argument, if any, is a field of the payload itself, by its own name, and it is there. -/
def CallPlain (call : PredicateCall) : Prop :=
  ∀ arg, call.arg = some arg → ∀ path, parse arg = .ok path →
    TopLevel path ∧ OwnNames path (.model true cls) ∧ denotedIn cls payload path ≠ []

/-- Whatever paths are found in the payload: a target field is one of the payload itself, by its own
    name, and what is masked is found along own names; and the arguments are plain. -/
def Plain : ProjectionRule → Prop
  | .targetOnly _ field => ∀ path, parse field = .ok path → denotedIn cls payload path ≠ [] →
      TopLevel path ∧ OwnNames path (.model true cls)
  | .includeIf _ call => CallPlain cls payload call
  | .redactFields _ specs => ∀ spec ∈ specs,
      (∀ path, parse spec.field = .ok path → denotedIn cls payload path ≠ [] →
        OwnNames path (.model true cls)) ∧ CallPlain cls payload spec.«unless»
  | .visibilityTag _ => True

end Rules

section Accepted

variable {cls : ClassFields} {payload : Fields}

/-- A path of the schema, as it is read when a rule is applied. -/
theorem exists_path_of_schema (hreg : (FieldShape.model true cls).regular = true) {key : String}
    {type : FieldType} (h : (schemaFieldsForKind cls).get? key = some type) :
    ∃ path, IsPath path cls ∧ key = render path ∧ parse key = .ok path := by
  rcases mem_keys_flattenSchema (Dict.mem_keys_of_get? h) with hnone | ⟨path, hpath, hkey⟩
  · simp at hnone
  · refine ⟨path, hpath, hkey, ?_⟩
    rw [hkey]
    refine parse_render ?_ (isName_of_isPath hpath hreg)
    rintro rfl
    exact hpath

theorem exists_mem_schema_of_checkPredicate {call : PredicateCall} {kind : String} {ruleIdx : Nat}
    {schema : Dict String FieldType} (h : checkPredicate call kind ruleIdx schema = .ok ())
    {arg : String} (harg : call.arg = some arg) : ∃ type, schema.get? arg = some type := by
  unfold checkPredicate at h
  split at h
  · simp at h
  · rw [harg] at h
    cases hget : schema.get? arg with
    | none =>
      simp only [hget, Option.isNone_none, if_true] at h
      simp at h
    | some type => exact ⟨type, rfl⟩

/-- **Arguments.** A predicate reads what its argument denotes exactly if the argument is plain. -/
theorem callDenotes_iff (hreg : (FieldShape.model true cls).regular = true)
    (hshape : Shaped true cls payload) {call : PredicateCall} {kind : String} {ruleIdx : Nat}
    (hcheck : checkPredicate call kind ruleIdx (schemaFieldsForKind cls) = .ok ()) :
    CallDenotes cls payload call ↔ CallPlain cls payload call := by
  refine forall₂_congr (fun arg harg => ?_)
  obtain ⟨type, htype⟩ := exists_mem_schema_of_checkPredicate hcheck harg
  obtain ⟨path, hpath, rfl, hparse⟩ := exists_path_of_schema hreg htype
  have hread : readField payload (some (render path)) = Json.get? payload (render path) := rfl
  constructor
  · rintro ⟨path', value, hparse', hvalue, hdenoted⟩ path'' hparse''
    cases hparse.symm.trans hparse'
    cases hparse.symm.trans hparse''
    by_contra hnot
    have hplain : TopLevel path ∧ OwnNames path (.model true cls) := by
      by_contra hother
      rw [hread, get?_render_eq_none hpath hreg hshape hother] at hvalue
      simp at hvalue
    exact hnot ⟨hplain.1, hplain.2, by rw [hdenoted]; simp⟩
  · intro hplain
    obtain ⟨htop, hown, hthere⟩ := hplain path hparse
    have hsame : (Json.get? payload (render path)).toList = denotedIn cls payload path :=
      get?_toList_eq_denoted hpath hreg htop hown
    cases hget : Json.get? payload (render path) with
    | none =>
      rw [hget] at hsame
      exact absurd hsame.symm hthere
    | some value =>
      rw [hget] at hsame
      exact ⟨path, value, hparse, hread.trans hget, hsame.symm⟩

/-- **Masks.** A mask goes where its path does exactly if nothing is found along other names. -/
theorem maskDenotes_iff (hreg : (FieldShape.model true cls).regular = true)
    (hshape : Shaped true cls payload) {field : String} {type : FieldType}
    (h : (schemaFieldsForKind cls).get? field = some type) :
    (∃ path, parse field = .ok path ∧ ∀ mask, applyMask path mask (.obj payload) =
        maskDenoted mask path (.model true cls) (.obj payload)) ↔
      ∀ path, parse field = .ok path → denotedIn cls payload path ≠ [] →
        OwnNames path (.model true cls) := by
  obtain ⟨path, hpath, rfl, hparse⟩ := exists_path_of_schema hreg h
  constructor
  · rintro ⟨path', hparse', hmasks⟩ path'' hparse'' hthere
    cases hparse.symm.trans hparse'
    cases hparse.symm.trans hparse''
    by_contra hother
    refine hthere (maskDenoted_eq_self_iff.mp (fun mask => ?_))
    rw [← hmasks mask]
    exact applyMask_of_not_ownNames hpath hreg hshape hother mask
  · intro hown
    refine ⟨path, hparse, fun mask => ?_⟩
    by_cases hthere : denotedIn cls payload path = []
    · rw [maskDenoted_eq_self hthere mask]
      by_cases hnames : OwnNames path (.model true cls)
      · rw [applyMask_of_ownNames hpath hreg hshape hnames mask]
        exact maskDenoted_eq_self hthere mask
      · exact applyMask_of_not_ownNames hpath hreg hshape hnames mask
    · exact applyMask_of_ownNames hpath hreg hshape (hown path hparse hthere) mask

/-- **Targets.** A target field is read where it is exactly if it is plain or not there. -/
theorem targetDenotes_iff (hreg : (FieldShape.model true cls).regular = true)
    (hshape : Shaped true cls payload) {field : String} {type : FieldType}
    (h : (schemaFieldsForKind cls).get? field = some type) : (∃ path, parse field = .ok path ∧
        (Json.get? payload field).toList = denotedIn cls payload path) ↔
      ∀ path, parse field = .ok path → denotedIn cls payload path ≠ [] →
        TopLevel path ∧ OwnNames path (.model true cls) := by
  obtain ⟨path, hpath, rfl, hparse⟩ := exists_path_of_schema hreg h
  constructor
  · rintro ⟨path', hparse', hread⟩ path'' hparse'' hthere
    cases hparse.symm.trans hparse'
    cases hparse.symm.trans hparse''
    by_contra hother
    rw [get?_render_eq_none hpath hreg hshape hother] at hread
    exact hthere hread.symm
  · intro hplain
    refine ⟨path, hparse, ?_⟩
    by_cases hnames : TopLevel path ∧ OwnNames path (.model true cls)
    · exact get?_toList_eq_denoted hpath hreg hnames.1 hnames.2
    · rw [get?_render_eq_none hpath hreg hshape hnames]
      by_contra hne
      exact hnames (hplain path hparse (fun hnil => hne hnil.symm))

/-- The checks of one rule, as they are made against the classes. -/
theorem denotes_iff_of_validateRule (hreg : (FieldShape.model true cls).regular = true)
    (hshape : Shaped true cls payload) {rule : ProjectionRule}
    (hcls : kindToMessageCls.get? rule.kind = some cls) {seen seen' : SeenRedactions}
    {ruleIdx : Nat} (h : validateRule registry seen ruleIdx rule = .ok seen') :
    Denotes cls payload rule ↔ Plain cls payload rule := by
  unfold validateRule at h
  split at h
  · simp at h
  · rw [get?_schemas, hcls] at h
    cases rule with
    | visibilityTag kind => exact Iff.rfl
    | targetOnly kind field =>
      cases htype : (schemaFieldsForKind cls).get? field with
      | none =>
        simp only [Option.map_some, htype, Option.isNone_none, if_true] at h
        simp at h
      | some type => exact targetDenotes_iff hreg hshape htype
    | includeIf kind call =>
      obtain ⟨_, hcheck, -⟩ := bind_eq_ok.mp h
      exact callDenotes_iff hreg hshape hcheck
    | redactFields kind specs =>
      refine forall₂_congr (fun spec hspec => ?_)
      obtain ⟨t, t', hvalid⟩ := exists_ok_of_foldlM h hspec
      obtain ⟨type, htype⟩ := isSome_get?_of_validateSpec hvalid
      unfold validateSpec at hvalid
      rw [htype] at hvalid
      obtain ⟨_, hcheck, -⟩ := bind_eq_ok.mp hvalid
      exact and_congr (maskDenotes_iff hreg hshape htype) (callDenotes_iff hreg hshape hcheck)

end Accepted

/-- **Accepted rules.** On an emitted payload, the rules of its kind do what the schema says exactly
    if they are plain there. -/
theorem denotes_iff {rules : ProjectionRules} (h : validateProjectionRules registry rules = .ok ())
    {kind : String} {cls : ClassFields} (hcls : kindToMessageCls.get? kind = some cls)
    {payload : Fields} (hdump : Dumped cls payload) :
    (∀ rule ∈ rules.rules, rule.kind = kind → Denotes cls payload rule) ↔
      ∀ rule ∈ rules.rules, rule.kind = kind → Plain cls payload rule := by
  refine forall₃_congr (fun rule hrule hkind => ?_)
  subst hkind
  obtain ⟨idx, seen, seen', hvalid⟩ := validateRule_of_validateFrom h hrule
  exact denotes_iff_of_validateRule (regular_of_kind hcls) (shaped_of_dumped hdump) hcls hvalid

/-! ### Fields inside others, and other names -/

/-- A narration of the way into the vault, for Alice alone. -/
def vaultValues : List (FieldInfo × Json) :=
  [({ name := "text" }, .str "The door gives way."),
   ({ name := "state_delta", optional := true }, .obj [("location", .str "vault")]),
   ({ name := "footnotes", emptyDefault := true }, .arr []),
   (seq.1, .num 0),
   (visibilitySidecar.1, .obj [("visible_to", .arr [.str "alice"])])]

/-- The same, as it is emitted. -/
def vaultPayload : Fields :=
  [("text", .str "The door gives way."),
   ("state_delta", .obj [("location", .str "vault")]),
   ("_visibility", .obj [("visible_to", .arr [.str "alice"])])]

theorem dumps_vault : Dumps stateDelta (.obj [("location", .str "vault")]) := by
  refine ⟨[({ name := "location", optional := true }, .str "vault"),
    ({ name := "characters", optional := true }, .null),
    ({ name := "quests", optional := true }, .null),
    ({ name := "items_gained", optional := true }, .null),
    ({ name := "encounter_id", optional := true }, .null),
    ({ name := "party_formation", optional := true }, .null),
    ({ name := "magic_state", optional := true }, .null)], ?_, rfl⟩
  have hlocation : Dumps (.scalar .text) (.str "vault") := ⟨"vault", rfl⟩
  exact ⟨_, _, rfl, .inl hlocation, _, _, rfl, .inr ⟨rfl, rfl⟩, _, _, rfl, .inr ⟨rfl, rfl⟩,
    _, _, rfl, .inr ⟨rfl, rfl⟩, _, _, rfl, .inr ⟨rfl, rfl⟩, _, _, rfl, .inr ⟨rfl, rfl⟩,
    _, _, rfl, .inr ⟨rfl, rfl⟩, rfl⟩

theorem dumped_vault : Dumped narrationPayload vaultPayload := by
  have htext : Dumps (.scalar .nonBlankText) (.str "The door gives way.") :=
    ⟨_, rfl, by decide +kernel, by decide⟩
  have hfootnotes : Dumps (.list footnote) (.arr []) := ⟨[], rfl, by simp⟩
  have hseq : Dumps (.scalar .int) (.num 0) := ⟨0, rfl⟩
  have hsidecar : Dumps (.scalar .dict) (.obj [("visible_to", .arr [.str "alice"])]) := ⟨_, rfl⟩
  refine ⟨vaultValues, ?_, rfl⟩
  exact ⟨_, _, rfl, .inl htext, _, _, rfl, .inl dumps_vault, _, _, rfl, .inl hfootnotes,
    _, _, rfl, .inl hseq, _, _, rfl, .inl hsidecar, rfl⟩

/-- The text is masked for all but those who see whom it names. -/
def textRules : ProjectionRules where
  rules := [.redactFields "NARRATION"
    [{ field := "text", «unless» := ⟨"visible_to", some "text"⟩, mask := .str "***" }]]

/-- Rules that name a field inside the state delta, and the sidecar as the class does. -/
def sidecarRules : ProjectionRules where
  rules :=
    [.includeIf "NARRATION" ⟨"visible_to", some "state_delta.location"⟩,
     .redactFields "NARRATION"
       [{ field := "visibility_sidecar", «unless» := ⟨"is_self", none⟩, mask := .null }]]

/-- The text, which is a field of the payload itself, may be both masked and asked for. -/
theorem denotes_iff_text :
    validateProjectionRules registry textRules = .ok () ∧
      ∀ rule ∈ textRules.rules, rule.kind = "NARRATION" →
        Denotes narrationPayload vaultPayload rule := by
  have hvalid : validateProjectionRules registry textRules = .ok () := by decide +kernel
  have hparse : parse "text" = .ok [⟨"text", false⟩] := by decide +kernel
  have hown : OwnNames [⟨"text", false⟩] (.model true narrationPayload) := by decide +kernel
  have hkind : kindToMessageCls.get? "NARRATION" = some narrationPayload := rfl
  refine ⟨hvalid, (denotes_iff hvalid hkind dumped_vault).mpr (fun rule hrule _ => ?_)⟩
  obtain rfl := List.mem_singleton.mp hrule
  intro spec hspec
  obtain rfl := List.mem_singleton.mp hspec
  refine ⟨fun path hpath _ => ?_, fun arg harg path hpath => ?_⟩
  · cases hparse.symm.trans hpath
    exact hown
  · cases harg
    cases hparse.symm.trans hpath
    exact ⟨rfl, hown, by
      show [Json.str "The door gives way."] ≠ []
      simp⟩

/-- A field inside another is never read, and a mask on the sidecar goes nowhere. -/
theorem not_denotes_sidecar :
    validateProjectionRules registry sidecarRules = .ok () ∧ Dumped narrationPayload vaultPayload ∧
      ∀ rule ∈ sidecarRules.rules, ¬ Denotes narrationPayload vaultPayload rule := by
  refine ⟨by decide +kernel, dumped_vault, ?_⟩
  rintro rule hrule hdenotes
  rcases List.mem_cons.mp hrule with rfl | hrule
  · obtain ⟨path, value, -, hread, -⟩ := hdenotes "state_delta.location" rfl
    have hnone : readField vaultPayload (some "state_delta.location") = none := rfl
    rw [hnone] at hread
    simp at hread
  · obtain rfl := List.mem_singleton.mp hrule
    obtain ⟨⟨path, hpath, hmasks⟩, -⟩ := hdenotes _ (List.mem_singleton_self _)
    have hparse : parse "visibility_sidecar" = .ok [⟨"visibility_sidecar", false⟩] := by
      decide +kernel
    cases hparse.symm.trans hpath
    -- the mask `null` leaves the sidecar as it is
    have hsame := hmasks .null
    have hleft : applyMask [⟨"visibility_sidecar", false⟩] .null (.obj vaultPayload) =
      .obj vaultPayload := rfl
    have hright : maskDenoted .null [⟨"visibility_sidecar", false⟩] (.model true narrationPayload)
      (.obj vaultPayload) = .obj [("text", .str "The door gives way."),
        ("state_delta", .obj [("location", .str "vault")]), ("_visibility", .null)] := rfl
    rw [hleft, hright] at hsame
    simp [vaultPayload] at hsame

end Sidequest.Projection
