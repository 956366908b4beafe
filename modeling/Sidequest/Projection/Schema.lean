import Sidequest.Lib.PyString
import Sidequest.Projection.Rules

namespace Sidequest.Projection

open Lib

/-!
# Payload classes and their flattened schemas

The classes whose payloads reach the projection filter: what a payload of a class looks like once it
was dumped, and the flat schema that rules are validated against.

* `FieldShape`, `FieldInfo` — the types of fields, and what else a class declares of a field;
* `parse_render` — and is read as that path when a rule is applied;
* `regular_of_kind` — the names in these classes can be told apart.
-/

section

/-! ### Classes -/

/-- The types that are not taken apart. -/
inductive Scalar where
  | text
  | nonBlankText
  | enum (options : List String)
  | literal (options : List String)
  | int
  | float
  | bool
  | dict
  | pair

/-- What a class declares of a field besides its type; `optional` fields may be `None`. -/
structure FieldInfo where
  name : String
  wireAlias : Option String := none
  optional : Bool := false
  /-- The declared default is an empty list, dict or text. -/
  emptyDefault : Bool := false
  includeWhenNone : Bool := false

/-- The type of a field, as unwrapping leaves it: a root model counts as its root. The classes on
    `ProtocolBase` have a serializer of their own. -/
inductive FieldShape where
  | scalar (type : Scalar)
  | list (item : FieldShape)
  | model (protocolBase : Bool) (fields : List (FieldInfo × FieldShape))

/-- The fields of a class, in order. -/
abbrev ClassFields := List (FieldInfo × FieldShape)

namespace Scalar

/-- The broad type a mask is checked against. -/
def fieldType : Scalar → FieldType
  | .text | .nonBlankText | .enum _ => .str
  | .int | .float => .number
  | .bool => .bool
  | .literal _ | .dict | .pair => .other

/-- A value of the type, dumped. -/
def Accepts : Scalar → Json → Prop
  | .text, v => ∃ s, v = .str s
  | .nonBlankText, v => ∃ s, v = .str s ∧ strip s = s ∧ s ≠ ""
  | .enum options, v => ∃ s ∈ options, v = .str s
  | .literal options, v => ∃ s ∈ options, v = .str s
  | .int, v => ∃ n : Int, v = .num n
  | .float, v => ∃ q, v = .num q
  | .bool, v => ∃ b, v = .bool b
  | .dict, v => ∃ fields, v = .obj fields
  | .pair, v => ∃ a b : Int, v = .arr [.num a, .num b]

end Scalar

/-! ### Dumps -/

/-- The name a field goes by in a dump. -/
def FieldInfo.wireName (info : FieldInfo) (protocolBase : Bool) : String :=
  if protocolBase then info.wireAlias.getD info.name else info.name

/-- `ProtocolBase` leaves a value out: `None`, and what is empty if the default is, too. -/
def FieldInfo.leftOut (info : FieldInfo) : Json → Bool
  | .null => !info.includeWhenNone
  | .arr [] => info.emptyDefault
  | .obj [] => info.emptyDefault
  | .str s => s = "" && info.emptyDefault
  | _ => false

variable (protocolBase : Bool)

/-- The members of the dump of an object, from the dumps of its fields' values. -/
def serialize (values : List (FieldInfo × Json)) : Fields :=
  values.filterMap fun p =>
    if protocolBase && p.1.leftOut p.2 then none else some (p.1.wireName protocolBase, p.2)

mutual

/-- The value is a dump of something of the type. -/
def Dumps : FieldShape → Json → Prop
  | .scalar type, v => type.Accepts v
  | .list item, v => ∃ xs, v = .arr xs ∧ ∀ x ∈ xs, Dumps item x
  | .model protocolBase fields, v =>
    ∃ values, DumpsAll fields values ∧ v = .obj (serialize protocolBase values)

/-- The values are dumps of values of the fields, one for each. -/
def DumpsAll : ClassFields → List (FieldInfo × Json) → Prop
  | [], values => values = []
  | (info, ann) :: rest, values =>
    ∃ v tail, values = (info, v) :: tail ∧
      (Dumps ann v ∨ info.optional = true ∧ v = .null) ∧ DumpsAll rest tail

end

/-- The payload of a message as it is emitted: its sequence number is not dumped. -/
def Dumped (cls : ClassFields) (payload : Fields) : Prop :=
  ∃ values, DumpsAll cls values ∧
    payload = serialize true (values.filter (fun p => p.1.name ≠ "seq"))

/-- All there is in an object is the value of one of the fields, by its wire name, and none that is
    left out. -/
def Shaped (fields : ClassFields) (members : Fields) : Prop :=
  ∀ key v, Json.get? members key = some v → ∃ info ann, (info, ann) ∈ fields ∧
    key = info.wireName protocolBase ∧ (Dumps ann v ∨ info.optional = true ∧ v = .null) ∧
    (protocolBase && info.leftOut v) = false

theorem exists_mem_of_dumpsAll {fields : ClassFields} {values : List (FieldInfo × Json)}
    (h : DumpsAll fields values) {info : FieldInfo} {v : Json} (hmem : (info, v) ∈ values) :
    ∃ ann, (info, ann) ∈ fields ∧ (Dumps ann v ∨ info.optional = true ∧ v = .null) := by
  induction fields generalizing values with
  | nil =>
    subst h
    simp at hmem
  | cons field rest ih =>
    obtain ⟨info', ann⟩ := field
    obtain ⟨w, tail, rfl, hw, htail⟩ := h
    rcases List.mem_cons.mp hmem with heq | hrest
    · cases heq
      exact ⟨ann, .head _, hw⟩
    · obtain ⟨ann', hann, hv⟩ := ih htail hrest
      exact ⟨ann', .tail _ hann, hv⟩

theorem shaped_serialize {fields : ClassFields} {values kept : List (FieldInfo × Json)}
    (h : DumpsAll fields values) (hkept : kept ⊆ values) (protocolBase : Bool) :
    Shaped protocolBase fields (serialize protocolBase kept) := by
  intro key v hget
  obtain ⟨⟨info, w⟩, hmem, hsome⟩ := List.mem_filterMap.mp (Json.mem_of_get? hget)
  split at hsome
  · simp at hsome
  · rename_i hin
    cases hsome
    obtain ⟨ann, hann, hdump⟩ := exists_mem_of_dumpsAll h (hkept hmem)
    exact ⟨info, ann, hann, rfl, hdump, by simpa using hin⟩

theorem shaped_of_dumps {protocolBase : Bool} {fields : ClassFields} {v : Json}
    (h : Dumps (.model protocolBase fields) v) :
    ∃ members, v = .obj members ∧ Shaped protocolBase fields members := by
  rw [Dumps] at h
  obtain ⟨values, hvalues, rfl⟩ := h
  exact ⟨_, rfl, shaped_serialize hvalues (List.Subset.refl _) protocolBase⟩

/-- So has an emitted payload. -/
theorem shaped_of_dumped {cls : ClassFields} {payload : Fields} (h : Dumped cls payload) :
    Shaped true cls payload := by
  obtain ⟨values, hvalues, rfl⟩ := h
  exact shaped_serialize hvalues List.filter_sublist.subset true

/-! ### Flattened schemas -/

/-- The type of an item of a list. -/
def FieldShape.fieldType : FieldShape → FieldType
  | .scalar type => type.fieldType
  | .list _ => .list
  | .model _ _ => .model

mutual

/-- Enter the fields of a class, with what their paths start with. -/
def flattenSchema (path : String) (out : Dict String FieldType) :
    ClassFields → Dict String FieldType
  | [] => out
  | (info, ann) :: rest => flattenSchema path (flattenField (path ++ info.name) out ann) rest

/-- Enter one field, and the fields of the class that it or its items have. -/
def flattenField (key : String) (out : Dict String FieldType) : FieldShape → Dict String FieldType
  | .list (.model _ fields) => (flattenSchema (key ++ "[*].") out fields).insert key .list
  | .list item => (out.insert (key ++ "[*]") item.fieldType).insert key .list
  | .model _ fields => (flattenSchema (key ++ ".") out fields).insert key .model
  | .scalar type => out.insert key type.fieldType

end

/-- What follows the name in the text of a path. -/
def afterName (isList : Bool) (rest : String) : String := if isList then "[*]" ++ rest else rest

/-- The text of a path. -/
def render : List Segment → String
  | [] => ""
  | [seg] => seg.name ++ afterName seg.isList ""
  | seg :: rest => seg.name ++ afterName seg.isList ("." ++ render rest)

/-- A path through a class. Only its last segment may be a field that is not taken apart. -/
def IsPath : List Segment → ClassFields → Prop
  | [], _ => False
  | seg :: rest, fields => ∃ info ann, (info, ann) ∈ fields ∧ info.name = seg.name ∧
      (rest = [] ∧ (seg.isList = true → ∃ item, ann = .list item) ∨
        ∃ protocolBase sub, IsPath rest sub ∧
          ann = if seg.isList then .list (.model protocolBase sub) else .model protocolBase sub)

/-- What can follow the name of a field of a type. -/
def Continues (ann : FieldShape) (text : String) : Prop :=
  (∃ isList, (isList = true → ∃ item, ann = .list item) ∧ text = afterName isList "") ∨
    ∃ isList rest protocolBase sub, IsPath rest sub ∧
      (ann = if isList then .list (.model protocolBase sub) else .model protocolBase sub) ∧
      text = afterName isList ("." ++ render rest)

/-- The name may be all there is. -/
theorem continues_nil (ann : FieldShape) : Continues ann "" :=
  .inl ⟨false, fun h => absurd h (by decide), rfl⟩

theorem exists_path_of_continues {fields : ClassFields} {info : FieldInfo} {ann : FieldShape}
    {text : String} (hmem : (info, ann) ∈ fields) (h : Continues ann text) :
    ∃ segs, IsPath segs fields ∧ info.name ++ text = render segs := by
  rcases h with ⟨isList, hlist, rfl⟩ | ⟨isList, rest, protocolBase, sub, hrest, hann, rfl⟩
  · exact ⟨[⟨info.name, isList⟩], ⟨info, ann, hmem, rfl, .inl ⟨rfl, hlist⟩⟩, rfl⟩
  · refine ⟨⟨info.name, isList⟩ :: rest,
      ⟨info, ann, hmem, rfl, .inr ⟨protocolBase, sub, hrest, hann⟩⟩, ?_⟩
    cases rest with
    | nil => exact absurd hrest id
    | cons seg rest => rfl

theorem mem_keys_items {start key : String} {out : Dict String FieldType} {item : FieldShape}
    (h : key ∈ ((out.insert (start ++ "[*]") item.fieldType).insert start .list).keys) :
    key ∈ out.keys ∨ ∃ text, Continues (.list item) text ∧ key = start ++ text := by
  rw [Dict.mem_keys_insert, Dict.mem_keys_insert] at h
  rcases h with rfl | rfl | hout
  · exact .inr ⟨"", continues_nil _, (String.append_empty).symm⟩
  · exact .inr ⟨"[*]", .inl ⟨true, fun _ => ⟨item, rfl⟩, rfl⟩, rfl⟩
  · exact .inl hout

mutual

theorem mem_keys_flattenSchema {path key : String} {out : Dict String FieldType} :
    ∀ {fields : ClassFields}, key ∈ (flattenSchema path out fields).keys →
      key ∈ out.keys ∨ ∃ segs, IsPath segs fields ∧ key = path ++ render segs
  | [], h => by
    rw [flattenSchema] at h
    exact .inl h
  | (info, ann) :: rest, h => by
    rw [flattenSchema] at h
    rcases mem_keys_flattenSchema h with hfield | ⟨segs, hsegs, hkey⟩
    · rcases mem_keys_flattenField hfield with hout | ⟨text, htext, hkey⟩
      · exact .inl hout
      · obtain ⟨segs, hsegs, hrender⟩ := exists_path_of_continues List.mem_cons_self htext
        exact .inr ⟨segs, hsegs, by rw [hkey, ← hrender, String.append_assoc]⟩
    · cases segs with
      | nil => exact absurd hsegs id
      | cons seg segs =>
        obtain ⟨info', ann', hmem, hrest⟩ := hsegs
        exact .inr ⟨seg :: segs, ⟨info', ann', List.mem_cons_of_mem _ hmem, hrest⟩, hkey⟩

theorem mem_keys_flattenField {start key : String} {out : Dict String FieldType} :
    ∀ {ann : FieldShape}, key ∈ (flattenField start out ann).keys →
      key ∈ out.keys ∨ ∃ text, Continues ann text ∧ key = start ++ text
  | .list (.model protocolBase fields), h => by
    rw [flattenField, Dict.mem_keys_insert] at h
    rcases h with rfl | hfields
    · exact .inr ⟨"", continues_nil _, (String.append_empty).symm⟩
    · rcases mem_keys_flattenSchema hfields with hout | ⟨segs, hsegs, rfl⟩
      · exact .inl hout
      · refine .inr ⟨afterName true ("." ++ render segs),
          .inr ⟨true, segs, protocolBase, fields, hsegs, rfl, rfl⟩, ?_⟩
        have hdot : "[*]" ++ ("." ++ render segs) = "[*]." ++ render segs := by
          rw [← String.append_assoc]
          rfl
        show start ++ "[*]." ++ render segs = start ++ ("[*]" ++ ("." ++ render segs))
        rw [hdot, String.append_assoc]
  | .list (.list item), h => by
    rw [flattenField] at h
    · exact mem_keys_items h
    · simp
  | .list (.scalar type), h => by
    rw [flattenField] at h
    · exact mem_keys_items h
    · simp
  | .model protocolBase fields, h => by
    rw [flattenField, Dict.mem_keys_insert] at h
    rcases h with rfl | hfields
    · exact .inr ⟨"", continues_nil _, (String.append_empty).symm⟩
    · rcases mem_keys_flattenSchema hfields with hout | ⟨segs, hsegs, rfl⟩
      · exact .inl hout
      · exact .inr ⟨afterName false ("." ++ render segs),
          .inr ⟨false, segs, protocolBase, fields, hsegs, rfl, rfl⟩,
          by simp [afterName, String.append_assoc]⟩
  | .scalar type, h => by
    rw [flattenField, Dict.mem_keys_insert] at h
    rcases h with rfl | hout
    · exact .inr ⟨"", continues_nil _, (String.append_empty).symm⟩
    · exact .inl hout

end

/-! ### Regular classes -/

/-- The names of a class's fields: all can be read back, no two fields share one, on the wire or
    off it, and no field goes by the name of another. -/
def namesRegular (infos : List FieldInfo) : Bool :=
  let names := infos.map FieldInfo.name
  let wireNames := infos.map (fun info => info.wireName protocolBase)
  decide (names.Nodup ∧ wireNames.Nodup ∧
    (∀ name ∈ names ++ wireNames, isName name.toList = true) ∧
    ∀ info ∈ infos, info.wireName protocolBase = info.name ∨ info.wireName protocolBase ∉ names)

/-- Whether a type is a list. -/
def FieldShape.isList : FieldShape → Bool
  | .list _ => true
  | _ => false

mutual

/-- The names of all classes inside are regular, and a list that is `None` is left out. -/
def FieldShape.regular : FieldShape → Bool
  | .scalar _ => true
  | .list item => item.regular
  | .model protocolBase fields =>
    namesRegular protocolBase (fields.map Prod.fst) && fieldsRegular protocolBase fields

/-- The types of a class's fields are. -/
def fieldsRegular (protocolBase : Bool) : ClassFields → Bool
  | [] => true
  | (info, ann) :: rest =>
    (!(ann.isList && info.optional) || protocolBase && !info.includeWhenNone) && ann.regular &&
      fieldsRegular protocolBase rest

end

/-! ### Reading a path's text -/

/-- The characters of a segment. -/
def Segment.chars (seg : Segment) : List Char :=
  seg.name.toList ++ if seg.isList then ['[', '*', ']'] else []

theorem mem_of_isName {name : List Char} (h : isName name = true) {c : Char} (hc : c ∈ name) :
    isNameRest c = true := by
  cases name with
  | nil => simp at hc
  | cons d name =>
    rw [isName, Bool.and_eq_true] at h
    obtain ⟨hstart, hrest⟩ := h
    rcases List.mem_cons.mp hc with rfl | hin
    · unfold isNameRest
      rcases Bool.or_eq_true .. |>.mp hstart with halpha | hunder
      · simp [Char.isAlphanum, halpha]
      · rw [hunder, Bool.or_true]
    · exact List.all_eq_true.mp hrest c hin

/-- None of the characters that paths are written with is in a name. -/
theorem not_mem_of_isName {name : List Char} (h : isName name = true) {c : Char}
    (hc : isNameRest c = false) : c ∉ name := by
  intro hin
  rw [mem_of_isName h hin] at hc
  simp at hc

theorem parseSegment_chars {seg : Segment} (h : isName seg.name.toList = true) :
    parseSegment seg.chars = some seg := by
  obtain ⟨name, isList⟩ := seg
  have hnewline : '\n' ∉ (Segment.mk name isList).chars := by
    intro hin
    rcases List.mem_append.mp hin with hname | hstar
    · exact not_mem_of_isName h (by decide) hname
    · revert hstar
      cases isList <;> simp
  have hlast : (Segment.mk name isList).chars.getLast? ≠ some '\n' :=
    fun hlast => hnewline (List.mem_of_getLast? hlast)
  unfold parseSegment
  rw [if_neg hlast]
  cases isList with
  | false =>
    have hstarred : (['[', '*', ']'] : List Char).isSuffixOf (Segment.mk name false).chars
        = false := by
      rw [Bool.eq_false_iff]
      intro hsuffix
      have hmem := (List.isSuffixOf_iff_suffix.mp hsuffix).subset
        (List.mem_cons_self (a := '[') (l := ['*', ']']))
      simp only [Segment.chars, Bool.false_eq_true, if_false, List.append_nil] at hmem
      exact not_mem_of_isName h (by decide) hmem
    simp only [hstarred, Bool.false_eq_true, if_false]
    simp only [Segment.chars, Bool.false_eq_true, if_false, List.append_nil]
    rw [if_pos h, String.ofList_toList]
  | true =>
    have hstarred : (['[', '*', ']'] : List Char).isSuffixOf (Segment.mk name true).chars
        = true := List.isSuffixOf_iff_suffix.mpr ⟨name.toList, by simp [Segment.chars]⟩
    have htake : (Segment.mk name true).chars.take ((Segment.mk name true).chars.length - 3)
        = name.toList := by simp [Segment.chars]
    simp only [hstarred, if_true, htake]
    rw [if_pos h, String.ofList_toList]

theorem toList_render {path : List Segment} (hne : path ≠ []) :
    (render path).toList = ['.'].intercalate (path.map Segment.chars) := by
  induction path with
  | nil => exact absurd rfl hne
  | cons seg rest ih =>
    have hafter : ∀ text, (afterName seg.isList text).toList =
        (if seg.isList then ['[', '*', ']'] else []) ++ text.toList := by
      intro text
      unfold afterName
      split
      · rw [String.toList_append]
        rfl
      · rfl
    cases rest with
    | nil => simp [render, hafter, Segment.chars]
    | cons next rest =>
      rw [render, String.toList_append, hafter, String.toList_append, ih (by simp)]
      · simp [Segment.chars, List.intercalate_cons_cons]
      · simp

/-- **A path is read back** from its text. -/
theorem parse_render {path : List Segment} (hne : path ≠ [])
    (h : ∀ seg ∈ path, isName seg.name.toList = true) : parse (render path) = .ok path := by
  have hdots : ∀ seg ∈ path.map Segment.chars, '.' ∉ seg := by
    intro chars hchars hdot
    obtain ⟨seg, hseg, rfl⟩ := List.mem_map.mp hchars
    rcases List.mem_append.mp hdot with hname | hstar
    · exact not_mem_of_isName (h seg hseg) (by decide) hname
    · revert hstar
      split <;> simp
  unfold parse
  rw [toList_render hne, List.splitOn_intercalate _ hdots (by simpa using hne)]
  clear hdots hne
  induction path with
  | nil => rfl
  | cons seg path ih =>
    have hrest := ih (fun s hs => h s (.tail seg hs))
    rw [List.map_cons, List.mapM_cons, hrest, parseSegment_chars (h seg (.head _))]
    rfl

end

/-! ### Classes of parts -/

/-- A structured footnote from narrator output. -/
def footnote : FieldShape := .model true
  [({ name := "marker", optional := true }, .scalar .int),
   ({ name := "fact_id", optional := true }, .scalar .text),
   ({ name := "summary" }, .scalar .nonBlankText),
   ({ name := "category" }, .scalar (.enum ["Lore", "Place", "Person", "Quest", "Ability"])),
   ({ name := "is_new" }, .scalar .bool)]

/-- The tiers content is resolved in. -/
def tier : FieldShape := .scalar (.enum ["global", "genre", "world", "culture"])

/-- A line range in a source file. -/
def span : FieldShape := .model true
  [({ name := "start_line" }, .scalar .int),
   ({ name := "start_col" }, .scalar .int),
   ({ name := "end_line" }, .scalar .int),
   ({ name := "end_col" }, .scalar .int)]

/-- One step in a merge trail. -/
def mergeStep : FieldShape := .model true
  [({ name := "tier" }, tier),
   ({ name := "file" }, .scalar .text),
   ({ name := "span", optional := true }, span),
   ({ name := "contribution" }, .scalar (.enum ["initial", "replaced", "appended", "merged"]))]

/-- Where a resolved value comes from. -/
def provenance : FieldShape := .model true
  [({ name := "source_tier" }, tier),
   ({ name := "source_file" }, .scalar .text),
   ({ name := "source_span", optional := true }, span),
   ({ name := "merge_trail" }, .list mergeStep)]

/-- A character as the client sees it. -/
def characterState : FieldShape := .model true
  [({ name := "name" }, .scalar .nonBlankText),
   ({ name := "hp" }, .scalar .int),
   ({ name := "max_hp" }, .scalar .int),
   ({ name := "level" }, .scalar .int),
   ({ name := "class_", wireAlias := some "class", emptyDefault := true }, .scalar .text),
   ({ name := "statuses" }, .list (.scalar .text)),
   ({ name := "inventory" }, .list (.scalar .text)),
   ({ name := "archetype_provenance", optional := true }, provenance)]

/-- An item the player gained. -/
def itemGained : FieldShape := .model true
  [({ name := "name" }, .scalar .nonBlankText),
   ({ name := "description" }, .scalar .nonBlankText),
   ({ name := "category" }, .scalar .text)]

/-- Where one character of the party is. -/
def partyFormationWireEntry : FieldShape := .model true
  [({ name := "player_id" }, .scalar .text),
   ({ name := "location" }, .scalar .text),
   ({ name := "adjacency" }, .list (.scalar .text))]

/-- The state changes of a narration. -/
def stateDelta : FieldShape := .model true
  [({ name := "location", optional := true }, .scalar .text),
   ({ name := "characters", optional := true }, .list characterState),
   ({ name := "quests", optional := true }, .scalar .dict),
   ({ name := "items_gained", optional := true }, .list itemGained),
   ({ name := "encounter_id", optional := true }, .scalar .text),
   ({ name := "party_formation", optional := true }, .list partyFormationWireEntry),
   ({ name := "magic_state", optional := true }, .scalar .dict)]

/-- Somebody a scrapbook entry mentions. -/
def scrapbookEntryNpcRef : FieldShape := .model true
  [({ name := "name" }, .scalar .text),
   ({ name := "role" }, .scalar .text),
   ({ name := "disposition", emptyDefault := true }, .scalar .text),
   ({ name := "portrait_url", optional := true }, .scalar .text)]

/-- What a cavern was grown with. -/
def cellularParams : FieldShape := .model true
  [({ name := "size" }, .scalar .pair),
   ({ name := "seed" }, .scalar .int),
   ({ name := "density" }, .scalar .float),
   ({ name := "cutoff" }, .scalar .int),
   ({ name := "passes" }, .scalar .int)]

/-- What was derived of a room. -/
def derivedRoomData : FieldShape := .model true
  [({ name := "floor_count" }, .scalar .int),
   ({ name := "exits" }, .scalar .dict),
   ({ name := "pois" }, .list (.scalar .pair))]

/-- The hit points of a token. -/
def hpPayload : FieldShape := .model true
  [({ name := "current" }, .scalar .int), ({ name := "max" }, .scalar .int)]

/-- A token on the grid. -/
def tokenPayload : FieldShape := .model true
  [({ name := "token_id" }, .scalar .text),
   ({ name := "label" }, .scalar .text),
   ({ name := "position" }, .scalar .pair),
   ({ name := "faction" }, .scalar .text),
   ({ name := "hp", optional := true }, hpPayload),
   ({ name := "ac", optional := true }, .scalar .int)]

/-- One entry of the initiative order. -/
def initiativeEntry : FieldShape := .model true
  [({ name := "token_id" }, .scalar .text), ({ name := "value" }, .scalar .int)]

/-- What a real object is bound to. This class and the next have the serializer all models have. -/
def locationEntityBinding : FieldShape := .model false
  [({ name := "kind" }, .scalar (.literal
      ["location_feature", "npc", "item", "clue", "scenario_clue"])),
   ({ name := "ref" }, .scalar .text)]

/-- An entry of a location's manifest. -/
def locationEntity : FieldShape := .model false
  [({ name := "id" }, .scalar .text),
   ({ name := "label" }, .scalar .text),
   ({ name := "tier" }, .scalar (.literal ["real_object", "yes_and", "flavor_only"])),
   ({ name := "binding", optional := true }, locationEntityBinding),
   ({ name := "affordances", emptyDefault := true }, .list (.scalar .text)),
   ({ name := "provenance" }, .scalar (.literal
      ["authored", "cookbook", "yes_and_promoted", "yes_and_minted"])),
   ({ name := "promoted_at_turn", optional := true }, .scalar .int),
   ({ name := "promoted_canon", optional := true }, .scalar .text),
   ({ name := "reference_url", optional := true }, .scalar .text)]

/-- A marker on the tactical map. -/
def tacticalFeature : FieldShape := .model true
  [({ name := "feature_type" }, .scalar .text),
   ({ name := "cell" }, .scalar .pair),
   ({ name := "label" }, .scalar .text)]

/-- An adjudication, echoed to the players. -/
def tacticalAdjudication : FieldShape := .model true
  [({ name := "actor" }, .scalar .text),
   ({ name := "kind" }, .scalar .text),
   ({ name := "valid" }, .scalar .bool),
   ({ name := "cells_spent", optional := true }, .scalar .int),
   ({ name := "cells_budget", optional := true }, .scalar .int),
   ({ name := "distance_cells", optional := true }, .scalar .int),
   ({ name := "max_cells", optional := true }, .scalar .int),
   ({ name := "mode", optional := true }, .scalar .text),
   ({ name := "reason", emptyDefault := true }, .scalar .text),
   ({ name := "cells", emptyDefault := true }, .list (.scalar .pair))]

/-- One way out of a region. -/
def siteMapExit : FieldShape := .model true
  [({ name := "target" }, .scalar .text),
   ({ name := "exit_type" }, .scalar .text),
   ({ name := "bearing", emptyDefault := true }, .scalar .text)]

/-- One discovered region. -/
def siteMapLocation : FieldShape := .model true
  [({ name := "id" }, .scalar .text),
   ({ name := "name" }, .scalar .text),
   ({ name := "x" }, .scalar .float),
   ({ name := "y" }, .scalar .float),
   ({ name := "type" }, .scalar .text),
   ({ name := "connections", emptyDefault := true }, .list (.scalar .text)),
   ({ name := "room_exits", emptyDefault := true }, .list siteMapExit),
   ({ name := "room_type" }, .scalar .text),
   ({ name := "is_current_room" }, .scalar .bool)]

/-! ### Payload classes -/

/-- The sidecar that says who may see a payload; it goes by another name on the wire. -/
def visibilitySidecar : FieldInfo × FieldShape :=
  ({ name := "visibility_sidecar", wireAlias := some "_visibility", optional := true },
    .scalar .dict)

/-- The sequence number of an event. -/
def seq : FieldInfo × FieldShape := ({ name := "seq" }, .scalar .int)

def narrationPayload : ClassFields :=
  [({ name := "text" }, .scalar .nonBlankText),
   ({ name := "state_delta", optional := true }, stateDelta),
   ({ name := "footnotes", emptyDefault := true }, .list footnote),
   seq,
   visibilitySidecar]

def narrationSegmentPayload : ClassFields :=
  [({ name := "text" }, .scalar .nonBlankText),
   ({ name := "anchor_pc", optional := true }, .scalar .text),
   ({ name := "turn_id", emptyDefault := true }, .scalar .text),
   visibilitySidecar,
   seq]

def confrontationPayload : ClassFields :=
  [({ name := "type" }, .scalar .text),
   ({ name := "label" }, .scalar .text),
   ({ name := "category" }, .scalar .text),
   ({ name := "actors", emptyDefault := true }, .list (.scalar .dict)),
   ({ name := "player_metric", emptyDefault := true }, .scalar .dict),
   ({ name := "opponent_metric", emptyDefault := true }, .scalar .dict),
   ({ name := "beats", emptyDefault := true }, .list (.scalar .dict)),
   ({ name := "secondary_stats", optional := true }, .scalar .dict),
   ({ name := "genre_slug" }, .scalar .text),
   ({ name := "mood", optional := true }, .scalar .text),
   ({ name := "active" }, .scalar .bool),
   ({ name := "win_condition", optional := true }, .scalar .text),
   ({ name := "player_hp", optional := true }, .scalar .dict),
   ({ name := "opponent_hp", optional := true }, .scalar .dict),
   ({ name := "last_beat_impact", optional := true }, .scalar .dict),
   ({ name := "opponent_last_beat_impact", optional := true }, .scalar .dict),
   seq,
   ({ name := "initiative_order", optional := true }, .list (.scalar .dict)),
   ({ name := "table_state", optional := true }, .scalar .dict),
   ({ name := "stakes", optional := true }, .scalar .text),
   ({ name := "spellcasting", optional := true }, .scalar .dict),
   ({ name := "committed_actors", optional := true }, .list (.scalar .text)),
   ({ name := "mutation_economy", optional := true }, .scalar .dict)]

def secretNotePayload : ClassFields :=
  [({ name := "turn_id" }, .scalar .text),
   ({ name := "idempotency_key" }, .scalar .text),
   ({ name := "subsystem" }, .scalar .text),
   ({ name := "params", emptyDefault := true }, .scalar .dict),
   visibilitySidecar,
   seq]

def scrapbookEntryPayload : ClassFields :=
  [({ name := "turn_id" }, .scalar .int),
   ({ name := "location" }, .scalar .text),
   ({ name := "narrative_excerpt" }, .scalar .text),
   ({ name := "scene_title", optional := true }, .scalar .text),
   ({ name := "scene_type", optional := true }, .scalar .text),
   ({ name := "image_url", optional := true }, .scalar .text),
   ({ name := "world_facts", emptyDefault := true }, .list (.scalar .text)),
   ({ name := "npcs_present", emptyDefault := true }, .list scrapbookEntryNpcRef),
   seq,
   ({ name := "render_status" }, .scalar (.literal
      ["rendered", "skipped_policy", "failed", "unavailable"]))]

def tacticalGridPayload : ClassFields :=
  [({ name := "room_id" }, .scalar .text),
   ({ name := "room_name" }, .scalar .text),
   ({ name := "room_type" }, .scalar (.literal ["cavern", "settlement"])),
   ({ name := "mask", optional := true }, .scalar .text),
   ({ name := "cavern_image_url", optional := true }, .scalar .text),
   ({ name := "cell_size", optional := true }, .scalar .int),
   ({ name := "cellular", optional := true }, cellularParams),
   ({ name := "derived", optional := true }, derivedRoomData),
   ({ name := "tokens", emptyDefault := true }, .list tokenPayload),
   ({ name := "initiative", optional := true }, .list initiativeEntry),
   ({ name := "settlement_description", optional := true }, .scalar .text),
   ({ name := "settlement_exits", optional := true }, .list (.scalar .dict)),
   ({ name := "entities", emptyDefault := true }, .list locationEntity),
   ({ name := "features", emptyDefault := true }, .list tacticalFeature),
   ({ name := "adjudications", emptyDefault := true }, .list tacticalAdjudication)]

def siteMapPayload : ClassFields :=
  [({ name := "current_location" }, .scalar .text),
   ({ name := "region" }, .scalar .text),
   ({ name := "explored", emptyDefault := true }, .list siteMapLocation),
   ({ name := "fog_bounds" }, .scalar .dict),
   ({ name := "site_id", emptyDefault := true }, .scalar .text),
   ({ name := "site_name", emptyDefault := true }, .scalar .text),
   ({ name := "archetype", emptyDefault := true }, .scalar .text),
   ({ name := "extent", emptyDefault := true }, .scalar .text)]

/-! ### The registry -/

/-- The kinds that reach the filter, with the payload of their message class. -/
def kindToMessageCls : Dict String ClassFields where
  entries :=
    [("NARRATION", narrationPayload),
     ("NARRATION_SEGMENT", narrationSegmentPayload),
     ("CONFRONTATION", confrontationPayload),
     ("SECRET_NOTE", secretNotePayload),
     ("SCRAPBOOK_ENTRY", scrapbookEntryPayload),
     ("TACTICAL_GRID", tacticalGridPayload),
     ("SITE_MAP", siteMapPayload)]
  nodup := by decide

/-- All message types. -/
def messageTypes : List String :=
  ["PLAYER_ACTION", "NARRATION", "NARRATION_SEGMENT", "NARRATION_END", "THINKING",
   "SESSION_EVENT", "CHARACTER_CREATION", "TURN_STATUS", "PARTY_STATUS", "CONFRONTATION",
   "CONFRONTATION_OUTCOME", "RENDER_QUEUED", "IMAGE", "AUDIO_CUE", "ACTION_QUEUE",
   "CHAPTER_MARKER", "ERROR", "CLIENT_ERROR", "ACTION_REVEAL", "ASIDE_ANSWER", "PLAYER_SPEECH",
   "SCENARIO_EVENT", "ACHIEVEMENT_EARNED", "JOURNAL_REQUEST", "JOURNAL_RESPONSE",
   "ITEM_DEPLETED", "RESOURCE_MIN_REACHED", "TACTICAL_STATE", "TACTICAL_ACTION", "DICE_REQUEST",
   "DICE_THROW", "DICE_RESULT", "CHECK_THROW", "FATE_ACTION", "FATE_THROW", "BEAT_SELECTION",
   "SCRAPBOOK_ENTRY", "YIELD", "PLAYER_PRESENCE", "PLAYER_SEAT", "SEAT_CONFIRMED", "GAME_PAUSED",
   "GAME_RESUMED", "SECRET_NOTE", "DISPATCH_PACKAGE", "NARRATOR_DIRECTIVE_USED",
   "VERDICT_OVERRIDE", "ORBITAL_INTENT", "ORBITAL_CHART", "TACTICAL_GRID",
   "LOCATION_DESCRIPTION", "RELATIONSHIPS", "LOCATION_OVERLAY_CHANGED", "SITE_MAP", "QUESTS",
   "FATE_STATE", "FATE_ROLL", "FATE_DEFEND_REQUEST", "CHARACTER_INCAPACITATED",
   "MUTATION_REFUSED"]

/-- The flat schema of a kind's payload. -/
def schemaFieldsForKind (cls : ClassFields) : Dict String FieldType := flattenSchema "" .empty cls

/-- What rules are validated against. -/
def registry : MessageRegistry where
  messageTypes := messageTypes
  schemas :=
    { entries := kindToMessageCls.entries.map (fun p => (p.1, schemaFieldsForKind p.2))
      nodup := by decide }

theorem get?_schemas (kind : String) :
    registry.schemas.get? kind = (kindToMessageCls.get? kind).map schemaFieldsForKind := by
  show ((kindToMessageCls.entries.map (fun p => (p.1, schemaFieldsForKind p.2))).find?
    (·.1 = kind)).map Prod.snd = _
  rw [List.find?_map, Dict.get?, Option.map_map, Option.map_map]
  rfl

/-- The names in the classes can be told apart. -/
theorem regular_of_kind {kind : String} {cls : ClassFields}
    (h : kindToMessageCls.get? kind = some cls) : (FieldShape.model true cls).regular = true := by
  have hall : ∀ p ∈ kindToMessageCls.entries, (FieldShape.model true p.2).regular = true := by
    decide +kernel
  exact hall (kind, cls) (Dict.get?_eq_some_iff.mp h)

end Sidequest.Projection
