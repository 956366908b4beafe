import Sidequest.Lib.Dict
import Sidequest.Lib.Except
import Sidequest.Projection.Payload

namespace Sidequest.Projection

open Lib

/-!
# Projection rules

The rules of a genre pack, the predicates they call, and the checks a pack's rules pass when it
is loaded.

* `predicates` — the closed catalogue; `eq_of_strAt_eq`: a predicate sees its payload only
  through the string its argument field holds at the top level;
* `validateProjectionRules` — the load-time checks, over the registry of message kinds;
* `exists_mem_schema_of_validate` — an accepted redaction masks a path of its kind's schema;
* `GenreRuleStage.evaluate` — the stage, from the text of an envelope to a decision.
-/

/-! ### The view of the session -/

/-- What the filter may ask about the session. Where something is unknown the answer is `none`
    or `false`. -/
structure GameStateView where
  (characterOf zoneOf : String → Option String)
  visibleTo : String → String → Bool
  (ownerOfItem partyOf : String → Option String)

/-! ### Predicates -/

/-- What a predicate is called with. -/
structure PredicateContext where
  view : GameStateView
  payload : Fields
  viewerPlayerId : String
  viewerCharacterId : Option String

/-- The value of the payload's member `fieldRef`, if there is one. -/
def readField (payload : Fields) (fieldRef : Option String) : Option Json :=
  fieldRef.bind (Json.get? payload)

/-- A predicate of the catalogue. -/
abbrev Predicate := PredicateContext → Option String → Bool

/-- The field names the viewer's character. -/
def isSelf : Predicate := fun ctx fieldRef =>
  match (readField ctx.payload fieldRef).bind Json.str?, ctx.viewerCharacterId with
  | some value, some character => value = character
  | _, _ => false

/-- The viewer owns the item the field names. -/
def isOwnerOf : Predicate := fun ctx fieldRef =>
  match (readField ctx.payload fieldRef).bind Json.str? with
  | some itemId => ctx.view.ownerOfItem itemId = some ctx.viewerPlayerId
  | none => false

/-- The viewer's character is in a zone, and in that of the character the field names. -/
def inSameZone : Predicate := fun ctx fieldRef =>
  match (readField ctx.payload fieldRef).bind Json.str?, ctx.viewerCharacterId with
  | some target, some character =>
    match ctx.view.zoneOf character, ctx.view.zoneOf target with
    | some viewerZone, some targetZone => viewerZone = targetZone
    | _, _ => false
  | _, _ => false

/-- The viewer's character sees the character the field names. -/
def visibleTo : Predicate := fun ctx fieldRef =>
  match (readField ctx.payload fieldRef).bind Json.str?, ctx.viewerCharacterId with
  | some target, some character => ctx.view.visibleTo character target
  | _, _ => false

/-- The viewer is in a party, and in that of the player the field names. -/
def inSameParty : Predicate := fun ctx fieldRef =>
  match (readField ctx.payload fieldRef).bind Json.str? with
  | some targetPlayer =>
    match ctx.view.partyOf ctx.viewerPlayerId, ctx.view.partyOf targetPlayer with
    | some viewerParty, some targetParty => viewerParty = targetParty
    | _, _ => false
  | none => false

/-- The catalogue, by name. -/
def predicates (name : String) : Option Predicate :=
  match name with
  | "is_self" => some isSelf
  | "is_owner_of" => some isOwnerOf
  | "in_same_zone" => some inSameZone
  | "visible_to" => some visibleTo
  | "in_same_party" => some inSameParty
  | _ => none

/-- The string a payload holds at the top level under a predicate's argument. -/
def strAt (payload : Fields) (fieldRef : Option String) : Option String :=
  (readField payload fieldRef).bind Json.str?

/-- **What a predicate sees.** Two payloads with the same string under the argument get the same
    verdict from every predicate of the catalogue. -/
theorem eq_of_strAt_eq {name : String} {pred : Predicate} (hpred : predicates name = some pred)
    {ctx ctx' : PredicateContext} {arg : Option String} (hview : ctx.view = ctx'.view)
    (hplayer : ctx.viewerPlayerId = ctx'.viewerPlayerId)
    (hchar : ctx.viewerCharacterId = ctx'.viewerCharacterId)
    (hstr : strAt ctx.payload arg = strAt ctx'.payload arg) : pred ctx arg = pred ctx' arg := by
  unfold predicates at hpred
  split at hpred
  case h_6 => simp at hpred
  all_goals
    cases hpred
    simp only [strAt] at hstr
    simp only [isSelf, isOwnerOf, inSameZone, visibleTo, inSameParty, hstr, hview, hplayer, hchar]

/-! ### Rules -/

/-- A parsed predicate invocation, such as `visible_to(target)`. -/
structure PredicateCall where
  predicate : String
  arg : Option String
deriving DecidableEq

/-- Mask a field unless a predicate holds for the viewer. -/
structure RedactSpec where
  field : String
  «unless» : PredicateCall
  mask : Json

/-- One entry of `projection.yaml`: it carries exactly one of the four actions. -/
inductive ProjectionRule where
  | targetOnly (kind field : String)
  | includeIf (kind : String) (call : PredicateCall)
  | redactFields (kind : String) (specs : List RedactSpec)
  | visibilityTag (kind : String)

/-- The kind of message a rule is for. -/
def ProjectionRule.kind : ProjectionRule → String
  | .targetOnly kind _ => kind
  | .includeIf kind _ => kind
  | .redactFields kind _ => kind
  | .visibilityTag kind => kind

/-- The redactions of a rule. -/
def ProjectionRule.specs : ProjectionRule → List RedactSpec
  | .redactFields _ specs => specs
  | _ => []

/-- A pack's rules in document order. -/
structure ProjectionRules where
  rules : List ProjectionRule

/-! ### Validation -/

/-- The broad type of a payload field, as far as a mask is checked against it. -/
inductive FieldType where
  | str
  | bool
  | number
  | list
  | model
  | other

/-- The message kinds there are, and for those that reach the filter the flattened schema of the
    payload: dotted and starred paths with the type found there. -/
structure MessageRegistry where
  messageTypes : List String
  schemas : Dict String (Dict String FieldType)

/-- Why a rule set is refused; `rule` is the position of the rule at fault. -/
inductive ValidationError where
  | unknownKind (rule : Nat) (kind : String)
  | notFilterReachable (rule : Nat) (kind : String)
  | unknownField (rule : Nat) (kind field action : String)
  | unknownPredicate (rule : Nat) (kind predicate : String)
  | unknownPredicateArg (rule : Nat) (kind arg : String)
  | incompatibleMask (rule : Nat) (kind field : String)
  | conflictingRedactions (rule : Nat) (kind field : String)
deriving DecidableEq

/-- `null` masks every field; any other mask has to be of the field's broad type. -/
def maskIsCompatible (mask : Json) (fieldType : FieldType) : Bool :=
  match mask, fieldType with
  | .null, _ => true
  | .str _, .str => true
  | .bool _, .bool => true
  | .bool _, .number => true
  | .num _, .number => true
  | .arr _, .list => true
  | .obj _, .model => true
  | _, .other => true
  | _, _ => false

/-- The predicate exists, and its argument, if any, is a field of the payload. -/
def checkPredicate (call : PredicateCall) (kind : String) (ruleIdx : Nat)
    (schema : Dict String FieldType) : Except ValidationError Unit :=
  if (predicates call.predicate).isNone then
    .error (.unknownPredicate ruleIdx kind call.predicate)
  else
    match call.arg with
    | none => .ok ()
    | some arg =>
      if (schema.get? arg).isNone then .error (.unknownPredicateArg ruleIdx kind arg) else .ok ()

/-- The predicate each masked field of a kind was redacted with so far. -/
abbrev SeenRedactions := Dict (String × String) PredicateCall

/-- The checks of one redaction. -/
def validateSpec (kind : String) (ruleIdx : Nat) (schema : Dict String FieldType)
    (seen : SeenRedactions) (spec : RedactSpec) : Except ValidationError SeenRedactions :=
  match schema.get? spec.field with
  | none => .error (.unknownField ruleIdx kind spec.field "redact_fields")
  | some fieldType => do
    checkPredicate spec.«unless» kind ruleIdx schema
    if !maskIsCompatible spec.mask fieldType then
      .error (.incompatibleMask ruleIdx kind spec.field)
    else
      match seen.get? (kind, spec.field) with
      | some existing =>
        if existing ≠ spec.«unless» then .error (.conflictingRedactions ruleIdx kind spec.field)
        else .ok (seen.insert (kind, spec.field) spec.«unless»)
      | none => .ok (seen.insert (kind, spec.field) spec.«unless»)

/-- The checks of one rule. -/
def validateRule (reg : MessageRegistry) (seen : SeenRedactions) (ruleIdx : Nat)
    (rule : ProjectionRule) : Except ValidationError SeenRedactions :=
  if rule.kind ∉ reg.messageTypes then .error (.unknownKind ruleIdx rule.kind)
  else
    match reg.schemas.get? rule.kind with
    | none => .error (.notFilterReachable ruleIdx rule.kind)
    | some schema =>
      match rule with
      | .targetOnly kind field =>
        if (schema.get? field).isNone then
          .error (.unknownField ruleIdx kind field "target_only")
        else .ok seen
      | .includeIf kind call => do
        checkPredicate call kind ruleIdx schema
        .ok seen
      | .visibilityTag _ => .ok seen
      | .redactFields kind specs => specs.foldlM (validateSpec kind ruleIdx schema) seen

/-- The rules from position `ruleIdx` on. -/
def validateFrom (reg : MessageRegistry) :
    Nat → SeenRedactions → List ProjectionRule → Except ValidationError Unit
  | _, _, [] => .ok ()
  | ruleIdx, seen, rule :: rest => do
    let seen ← validateRule reg seen ruleIdx rule
    validateFrom reg (ruleIdx + 1) seen rest

/-- All semantic checks of a rule set; the first violation is reported. -/
def validateProjectionRules (reg : MessageRegistry) (rules : ProjectionRules) :
    Except ValidationError Unit :=
  validateFrom reg 0 .empty rules.rules

/-! ### What acceptance gives -/

theorem isSome_get?_of_validateSpec {kind : String} {ruleIdx : Nat}
    {schema : Dict String FieldType} {seen seen' : SeenRedactions} {spec : RedactSpec}
    (h : validateSpec kind ruleIdx schema seen spec = .ok seen') :
    ∃ fieldType, schema.get? spec.field = some fieldType := by
  unfold validateSpec at h
  cases hf : schema.get? spec.field with
  | none =>
    rw [hf] at h
    simp at h
  | some fieldType => exact ⟨fieldType, rfl⟩

theorem validateRule_of_validateFrom {reg : MessageRegistry} {rules : List ProjectionRule}
    {ruleIdx : Nat} {seen : SeenRedactions} (h : validateFrom reg ruleIdx seen rules = .ok ())
    {rule : ProjectionRule} (hrule : rule ∈ rules) :
    ∃ idx s s', validateRule reg s idx rule = .ok s' := by
  induction rules generalizing ruleIdx seen with
  | nil => simp at hrule
  | cons r rest ih =>
    obtain ⟨seen', hr, hrest'⟩ := bind_eq_ok.mp h
    rcases List.mem_cons.mp hrule with rfl | hrest
    · exact ⟨ruleIdx, seen, seen', hr⟩
    · exact ih hrest' hrest

/-! ### Envelopes and decisions -/

/-- What the filter judges: a message kind and the text of its canonical payload. -/
structure MessageEnvelope where
  (kind payloadJson : String)

/-- Whether a recipient gets the envelope, and with which payload text. -/
structure FilterDecision where
  included : Bool
  payloadJson : String

/-- The decision not to route an envelope. -/
def FilterDecision.excluded : FilterDecision := ⟨false, ""⟩

/-- How payload text is read and written: `json.loads` on the text of an object, `json.dumps`. -/
structure JsonCodec where
  loads : String → Except String Fields
  dumps : Fields → String

/-- What a filter stage raises. -/
inductive FilterError where
  | jsonDecodeError (message : String)
  | attributeError (name : String)
  | unknownPredicate (name : String)
  | invalidFieldPath (segment : String)

/-! ### Fidelity -/

/-- Whether a span is kept at a fidelity. -/
def keepSpan (fidelity : Json) : Json → Except FilterError Bool
  | .obj span =>
    let kind := (Json.get? span "kind").getD (.str "full")
    .ok <|
      if fidelity.str? = some "audio_only" then !isStr (some kind) "visual_only"
      else if fidelity.str? = some "audio_only_muffled" then !isStr (some kind) "visual_only"
      else if fidelity.str? = some "visual_only" then !isStr (some kind) "audio_only"
      else if fidelity.str? = some "periphery_only" then
        ((Json.get? span "periphery_tolerant").getD .null).truthy
      else if fidelity.str? = some "inferred_from_aftermath" then
        ((Json.get? span "aftermath").getD .null).truthy
      else true
  | _ => .error (.attributeError "get")

/-- Strip the spans a recipient's fidelity does not carry. The result is `none` where the source
    hands its argument back, and a copy with new `spans` where it builds one. -/
def applyFidelity (payload : Fields) (fidelity : Json) : Except FilterError (Option Fields) :=
  if fidelity.str? = some "full" then .ok none
  else
    match Json.get? payload "spans" with
    | some (.arr spans) => do
      let filtered ← spans.filterM (keepSpan fidelity)
      let filtered :=
        if fidelity.str? = some "audio_only_muffled" then filtered.map muffle else filtered
      .ok (some (Json.set payload "spans" (.arr filtered)))
    | _ => .ok none

/-! ### One rule -/

/-- The state between two rules. `kept` is `none` while the rules read the very object they mask;
    after a fidelity rule it is the payload left behind, a shallow copy in which nothing a rule
    reads is masked. -/
structure Pass where
  working : Fields
  kept : Option Fields := none
  lastAppliedIdx : Option Nat := none

/-- The payload the rules read. -/
def Pass.payload (pass : Pass) : Fields := pass.kept.getD pass.working

/-- Whether a `to` field names the player: a string, or a list with it. -/
def matchToValue (toValue : Option Json) (playerId : String) : Bool :=
  match toValue with
  | some (.str s) => s = playerId
  | some (.arr xs) => xs.any (fun x => x.str? = some playerId)
  | _ => false

/-- Whether a `visible_to` list names the player. -/
def matchVisibleList (visibleTo : Option Json) (playerId : String) : Bool :=
  match visibleTo with
  | some (.arr xs) => xs.any (fun x => x.str? = some playerId)
  | _ => false

variable (view : GameStateView) (playerId : String)

/-- Call a predicate of the catalogue for a viewer. -/
def evalCall (payload : Fields) (call : PredicateCall) : Except FilterError Bool :=
  match predicates call.predicate with
  | none => .error (.unknownPredicate call.predicate)
  | some pred => .ok (pred ⟨view, payload, playerId, view.characterOf playerId⟩ call.arg)

/-- `apply_mask` on a payload. -/
def maskFields (path : List Segment) (mask : Json) (fields : Fields) : Fields :=
  match applyMask path mask (.obj fields) with
  | .obj fields' => fields'
  | _ => fields

/-- One redaction: unless its predicate holds on the payload as it is now, its field is masked. -/
def redactSpec (ruleIdx : Nat) (pass : Pass) (spec : RedactSpec) : Except FilterError Pass := do
  let holds ← evalCall view playerId pass.payload spec.«unless»
  if holds then .ok pass
  else
    match parse spec.field with
    | .error e => .error (.invalidFieldPath e.segment)
    | .ok path =>
      .ok { pass with
        working := maskFields path spec.mask pass.working
        lastAppliedIdx := some ruleIdx }

/-- The visibility sidecar of a payload: drop the envelope, shape it to the recipient's
    fidelity, or let it pass. -/
def applyVisibility (ruleIdx : Nat) (pass : Pass) : Except FilterError (Option Pass) :=
  match Json.get? pass.payload "_visibility" with
  | some (.obj viz) =>
    let visibleTo := Json.get? viz "visible_to"
    if !isStr visibleTo "all" && !matchVisibleList visibleTo playerId then .ok none
    else
      let fidelity := (Json.get? viz "fidelity").getD .null
      match if fidelity.truthy then fidelity else .obj [] with
      | .obj fidelityMap =>
        let playerFidelity := (Json.get? fidelityMap playerId).getD .null
        if playerFidelity.truthy then do
          match ← applyFidelity pass.working playerFidelity with
          | none => .ok (some { pass with lastAppliedIdx := some ruleIdx })
          | some copy =>
            .ok (some { working := copy, kept := some pass.payload,
                        lastAppliedIdx := some ruleIdx })
        else .ok (some pass)
      | _ => .error (.attributeError "get")
  | _ => .ok (some pass)

/-- One rule; `none` drops the envelope. -/
def applyRule (pass : Pass) (ruleIdx : Nat) (rule : ProjectionRule) :
    Except FilterError (Option Pass) :=
  match rule with
  | .visibilityTag _ => applyVisibility playerId ruleIdx pass
  | .targetOnly _ field =>
    .ok (if matchToValue (Json.get? pass.payload field) playerId then some pass else none)
  | .includeIf _ call => do
    let holds ← evalCall view playerId pass.payload call
    .ok (if holds then some pass else none)
  | .redactFields _ specs => do
    let pass ← specs.foldlM (redactSpec view playerId ruleIdx) pass
    .ok (some pass)

/-! ### The stage -/

/-- The rules of a kind in document order; `inl` is the position of the rule that dropped the
    envelope. -/
def applyRules (view : GameStateView) (playerId : String) :
    List (ProjectionRule × Nat) → Pass → Except FilterError (Nat ⊕ Pass)
  | [], pass => .ok (.inr pass)
  | (rule, ruleIdx) :: rest, pass => do
    match ← applyRule view playerId pass ruleIdx rule with
    | none => .ok (.inl ruleIdx)
    | some pass => applyRules view playerId rest pass

/-- A decision and the position of the last rule that had a part in it. -/
structure GenreEvalResult where
  decision : FilterDecision
  matchedRuleIndex : Option Nat

/-- The rules of a kind with their positions in the pack's list. -/
def ProjectionRules.byKind (rules : ProjectionRules) (kind : String) :
    List (ProjectionRule × Nat) :=
  rules.rules.zipIdx.filter (fun r => r.1.kind = kind)

namespace GenreRuleStage

/-- Judge an envelope for a recipient. A kind without rules passes as it is. Masks are values here;
    in the source a redaction whose path leads into another's object mask changes that mask too. -/
def evaluate (codec : JsonCodec) (rules : ProjectionRules) (envelope : MessageEnvelope)
    (view : GameStateView) (playerId : String) : Except FilterError GenreEvalResult :=
  if (rules.byKind envelope.kind).isEmpty then
    .ok ⟨⟨true, envelope.payloadJson⟩, none⟩
  else
    match codec.loads envelope.payloadJson with
    | .error message => .error (.jsonDecodeError message)
    | .ok payload => do
      match ← applyRules view playerId (rules.byKind envelope.kind) { working := payload } with
      | .inl ruleIdx => .ok ⟨.excluded, some ruleIdx⟩
      | .inr pass => .ok ⟨⟨true, codec.dumps pass.working⟩, pass.lastAppliedIdx⟩

end GenreRuleStage

end Sidequest.Projection
