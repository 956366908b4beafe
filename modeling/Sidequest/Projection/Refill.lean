import Sidequest.Lib.Effect
import Sidequest.Projection.Redaction

namespace Sidequest.Projection

open Lib

/-!
# What a fill writes into the projection cache

A fill decides old events at the view of today. Its decision is the one of the fan-out where the
filter cannot tell the two views apart.

* `CoreInvariantStage.evaluate` — the structural stage;
* `ProjectionFilter` — a filter none of whose redactions writes into the mask of another;
* `SameAnswers` — the predicate calls of a kind's rules answer alike under two views on an event;
  `project_sameAnswers`: then so does the filter;
* `refilled` — both together, with any steps between the fan-out and the fill.
-/

section

/-! ### The structural stage -/

variable (filter : ProjectionFilter) (log : EventLog) (kind : String)

/-- Kinds whose payload names the recipients, and the field that does. -/
def targetedKinds : Option String :=
  match kind with
  | "DICE_REQUEST" => some "to"
  | "JOURNAL_RESPONSE" => some "to"
  | _ => none

/-- Kinds whose recipients stand in `_visibility.visible_to`. -/
def visibilityGatedKinds : List String := ["SECRET_NOTE", "NARRATION_SEGMENT"]

/-- Kinds that echo to the player who authored them. -/
def selfAuthoredKinds : List String :=
  ["PLAYER_ACTION", "DICE_THROW", "BEAT_SELECTION", "CHARACTER_CREATION"]

/-- Kinds never routed to players. -/
def playerExcludedKinds : List String := ["THINKING"]

/-- Outcome of the structural stage: a final decision with its source, or none. -/
inductive InvariantOutcome where
  | terminal (decision : FilterDecision) (source : String)
  | fallThrough

/-- The canonical payload for an included recipient, nothing for an excluded one. -/
def FilterDecision.canonical (included : Bool) (envelope : MessageEnvelope) : FilterDecision :=
  ⟨included, if included then envelope.payloadJson else ""⟩

variable (codec : JsonCodec)

namespace CoreInvariantStage

/-- Read the envelope's payload. -/
def load (envelope : MessageEnvelope) : Except FilterError Fields :=
  match codec.loads envelope.payloadJson with
  | .error message => .error (.jsonDecodeError message)
  | .ok payload => .ok payload

/-- `_visibility.visible_to`, if the sidecar is an object that has it. -/
def visibleToOf (payload : Fields) : Option Json :=
  match Json.get? payload "_visibility" with
  | some (.obj viz) => Json.get? viz "visible_to"
  | _ => none

/-- The structural decision for one recipient. A secret without usable recipients goes to
    nobody; narration with a list of recipients only ever excludes here. -/
def evaluate (envelope : MessageEnvelope) (playerId : String) :
    Except FilterError InvariantOutcome :=
  match targetedKinds envelope.kind with
  | some fieldName => do
    let payload ← load codec envelope
    let included := matchToValue (Json.get? payload fieldName) playerId
    .ok (.terminal (.canonical included envelope) "invariant:targeted")
  | none =>
  if envelope.kind ∈ visibilityGatedKinds then do
    let payload ← load codec envelope
    let visibleTo := visibleToOf payload
    let included := isStr visibleTo "all" || matchVisibleList visibleTo playerId
    .ok (.terminal (.canonical included envelope) "invariant:visibility_gated")
  else if envelope.kind = "NARRATION" then do
    let payload ← load codec envelope
    match visibleToOf payload with
    | some (.arr xs) =>
      if xs.any (fun x => x.str? = some playerId) then .ok .fallThrough
      else .ok (.terminal .excluded "invariant:narration_visibility_list")
    | _ => .ok .fallThrough
  else if envelope.kind ∈ selfAuthoredKinds then do
    let payload ← load codec envelope
    let included := isStr (Json.get? payload "author_player_id") playerId
    .ok (.terminal (.canonical included envelope) "invariant:self_echo")
  else if envelope.kind ∈ playerExcludedKinds then
    .ok (.terminal .excluded "invariant:player_excluded_kind")
  else .ok .fallThrough

end CoreInvariantStage

/-! ### Both stages -/

namespace ComposedFilter

/-- Where a genre decision came from, for the dashboard. -/
def formatGenreSource (packSlug : Option String) (kind : String)
    (matchedRuleIndex : Option Nat) : String :=
  match matchedRuleIndex with
  | none => "default:pass_through"
  | some idx =>
    -- an empty slug counts as a missing one
    let pack := match packSlug with
      | some slug => if slug = "" then "<unknown>" else slug
      | none => "<unknown>"
    "genre:" ++ pack ++ "/" ++ kind ++ "/" ++ toString idx

/-- Judge an envelope for a recipient: the decision and its source. -/
def project (rules : ProjectionRules) (packSlug : Option String) (envelope : MessageEnvelope)
    (view : GameStateView) (playerId : String) : Except FilterError (FilterDecision × String) := do
  match ← CoreInvariantStage.evaluate codec envelope playerId with
  | .terminal decision source => .ok (decision, source)
  | .fallThrough =>
    let result ← GenreRuleStage.evaluate codec rules envelope view playerId
    .ok (result.decision, formatGenreSource packSlug envelope.kind result.matchedRuleIndex)

end ComposedFilter

/-! ### What the genre rules cannot do -/

/-- The kinds whose routing is structural. -/
def StructuralKind : Prop :=
  (targetedKinds kind).isSome = true ∨ kind ∈ visibilityGatedKinds ∨
    kind ∈ selfAuthoredKinds ∨ kind ∈ playerExcludedKinds

section Rules

variable {codec : JsonCodec} {envelope : MessageEnvelope} {playerId : String}

theorem load_bind_ne_fallThrough {f : Fields → FilterDecision} {source : String} :
    (CoreInvariantStage.load codec envelope >>= fun payload =>
      .ok (.terminal (f payload) source)) ≠ Except.ok InvariantOutcome.fallThrough := by
  intro h
  obtain ⟨payload, -, hterm⟩ := bind_eq_ok.mp h
  simp at hterm

theorem evaluate_ne_fallThrough (h : StructuralKind envelope.kind) :
    CoreInvariantStage.evaluate codec envelope playerId ≠ .ok .fallThrough := by
  unfold CoreInvariantStage.evaluate
  cases htarget : targetedKinds envelope.kind with
  | some fieldName => exact load_bind_ne_fallThrough
  | none =>
    by_cases hgated : envelope.kind ∈ visibilityGatedKinds
    · rw [if_pos hgated]
      exact load_bind_ne_fallThrough
    · -- the kinds left over are self-authored or player-excluded, so not narration
      have hrest : envelope.kind ∈ selfAuthoredKinds ∨ envelope.kind ∈ playerExcludedKinds := by
        rcases h with h | h | h
        · rw [htarget] at h
          simp at h
        · exact absurd h hgated
        · exact h
      have hnarration : envelope.kind ≠ "NARRATION" := by
        intro heq
        rw [heq] at hrest
        exact absurd hrest (by decide)
      rw [if_neg hgated, if_neg hnarration]
      by_cases hself : envelope.kind ∈ selfAuthoredKinds
      · rw [if_pos hself]
        exact load_bind_ne_fallThrough
      · rw [if_neg hself, if_pos (hrest.resolve_left hself)]
        simp

theorem project_of_terminal {decision : FilterDecision} {source : String}
    (h : CoreInvariantStage.evaluate codec envelope playerId = .ok (.terminal decision source))
    (rules : ProjectionRules) (packSlug : Option String) (view : GameStateView) :
    ComposedFilter.project codec rules packSlug envelope view playerId
      = .ok (decision, source) := by
  rw [ComposedFilter.project, h]
  rfl

/-- Where the structural stage raises, so does the filter. -/
theorem project_of_error {e : FilterError}
    (h : CoreInvariantStage.evaluate codec envelope playerId = .error e)
    (rules : ProjectionRules) (packSlug : Option String) (view : GameStateView) :
    ComposedFilter.project codec rules packSlug envelope view playerId = .error e := by
  rw [ComposedFilter.project, h]
  rfl

/-- A structural kind is judged alike under all rule sets, packs and views. -/
theorem project_structural (h : StructuralKind envelope.kind) (rules rules' : ProjectionRules)
    (packSlug packSlug' : Option String) (view view' : GameStateView) :
    ComposedFilter.project codec rules packSlug envelope view playerId
      = ComposedFilter.project codec rules' packSlug' envelope view' playerId := by
  cases heval : CoreInvariantStage.evaluate codec envelope playerId with
  | error e => rw [project_of_error heval, project_of_error heval]
  | ok outcome =>
    cases outcome with
    | terminal decision source => rw [project_of_terminal heval, project_of_terminal heval]
    | fallThrough => exact absurd heval (evaluate_ne_fallThrough h)

/-- **The genre rules cannot route**: structural kinds are answered alike under any rules, and an
    excluded recipient is included by none. -/
theorem project_rules_irrelevant (codec : JsonCodec) (envelope : MessageEnvelope)
    (view : GameStateView) (playerId : String) (rules rules' : ProjectionRules)
    (packSlug packSlug' : Option String) : (StructuralKind envelope.kind →
      ComposedFilter.project codec rules packSlug envelope view playerId
        = ComposedFilter.project codec rules' packSlug' envelope view playerId) ∧
    (∀ decision source,
      CoreInvariantStage.evaluate codec envelope playerId = .ok (.terminal decision source) →
      decision.included = false →
      ∀ result, ComposedFilter.project codec rules packSlug envelope view playerId = .ok result →
        result.1.included = false) := by
  refine ⟨fun h => project_structural h rules rules' packSlug packSlug' view view, ?_⟩
  intro decision source heval hexcl result hproj
  rw [project_of_terminal heval] at hproj
  cases hproj
  exact hexcl

/-! ### A secret note and a pack that would show it to everybody -/

/-- A secret note for one player. -/
def secretNote : MessageEnvelope :=
  ⟨"SECRET_NOTE", "\x7b\"_visibility\": \x7b\"visible_to\": [\"ann\"]\x7d\x7d"⟩

/-- The codec on the text of `secretNote`. -/
def secretNoteCodec : JsonCodec where
  loads text :=
    if text = secretNote.payloadJson then
      .ok [("_visibility", .obj [("visible_to", .arr [.str "ann"])])]
    else .error "Expecting value: line 1 column 1 (char 0)"
  dumps _ := secretNote.payloadJson

/-- A view that knows nothing. -/
def blankView : GameStateView :=
  ⟨fun _ => none, fun _ => none, fun _ _ => false, fun _ => none, fun _ => none⟩

/-- Neither an empty pack nor one with a `visibility_tag` rule moves the note, and no rule shows
    it to another player. -/
theorem secretNote_rules_irrelevant :
    ComposedFilter.project secretNoteCodec ⟨[]⟩ none secretNote blankView "bob"
        = ComposedFilter.project secretNoteCodec ⟨[.visibilityTag "SECRET_NOTE"]⟩ (some "den")
          secretNote blankView "bob" ∧
      ∀ result, ComposedFilter.project secretNoteCodec ⟨[]⟩ none secretNote blankView "bob"
        = .ok result → result.1.included = false :=
  ⟨(project_rules_irrelevant secretNoteCodec secretNote blankView "bob" ⟨[]⟩
      ⟨[.visibilityTag "SECRET_NOTE"]⟩ none (some "den")).1 (.inr (.inl (by decide))),
    (project_rules_irrelevant secretNoteCodec secretNote blankView "bob" ⟨[]⟩ ⟨[]⟩ none none).2
      ⟨false, ""⟩ "invariant:visibility_gated" (by rfl) rfl⟩

end Rules

/-! ### Events -/

/-- A logged event. -/
structure EventRow where
  seq : Nat
  (kind payloadJson : String)

/-- What the filter is asked about an event. -/
def EventRow.envelope (row : EventRow) : MessageEnvelope := ⟨row.kind, row.payloadJson⟩

/-- The events of a session by sequence number, which starts at 1. -/
structure EventLog where
  rows : List EventRow
  ordered : rows.Pairwise (fun a b => a.seq < b.seq)
  positive : ∀ row ∈ rows, 0 < row.seq

namespace EventLog

/-- `COALESCE(MAX(seq), 0)`. -/
def latestSeq : Nat := log.rows.foldr (fun row top => max row.seq top) 0

theorem seq_le_latestSeq {row : EventRow} (h : row ∈ log.rows) : row.seq ≤ log.latestSeq := by
  unfold latestSeq
  revert h
  induction log.rows with
  | nil => simp
  | cons r rest ih =>
    intro h
    rw [List.foldr_cons]
    rcases List.mem_cons.mp h with rfl | hrest
    · omega
    · have hle := ih hrest
      omega

/-- The row an event is logged as. -/
def nextRow (payloadJson : String) : EventRow :=
  ⟨log.latestSeq + 1, kind, payloadJson⟩

/-- The log with one more event. -/
def append (payloadJson : String) : EventLog where
  rows := log.rows ++ [log.nextRow kind payloadJson]
  ordered := by
    rw [List.pairwise_append]
    refine ⟨log.ordered, List.pairwise_singleton _ _, ?_⟩
    intro a ha b hb
    rw [List.mem_singleton.mp hb]
    exact Nat.lt_succ_of_le (log.seq_le_latestSeq ha)
  positive := by
    intro row hrow
    rcases List.mem_append.mp hrow with hold | hnew
    · exact log.positive row hold
    · rw [List.mem_singleton.mp hnew]
      exact Nat.succ_pos _

/-- The events after a sequence number. -/
def readSince (sinceSeq : Nat) : List EventRow :=
  log.rows.filter (fun row => sinceSeq < row.seq)

end EventLog

/-! ### The cache -/

/-- A cached decision: the payload text stands there only for an included player. -/
structure CachedDecision where
  included : Bool
  payloadJson : Option String
deriving DecidableEq

/-- The row a decision is cached as. -/
def CachedDecision.ofDecision (decision : FilterDecision) : CachedDecision :=
  ⟨decision.included, if decision.included then some decision.payloadJson else none⟩

/-- The cache, by sequence number and player. -/
abbrev ProjectionCache := Dict (Nat × String) CachedDecision

namespace ProjectionCache

/-- The sequence numbers after `sinceSeq` that a player has rows for. -/
def readSince (cache : ProjectionCache) (playerId : String) (sinceSeq : Nat) : List Nat :=
  (cache.keys.filter (fun key => key.2 = playerId ∧ sinceSeq < key.1)).map Prod.fst

/-- The place of a row among the rows of its player, newest first, counted from 1. -/
def rowNumber (cache : ProjectionCache) (key : Nat × String) : Nat :=
  (cache.keys.filter (fun other => other.2 = key.2 ∧ key.1 < other.1)).length + 1

end ProjectionCache

/-- What the filter sees of a session, and the session's event log and cache. -/
structure Session where
  events : EventLog
  cache : ProjectionCache
  view : GameStateView

/-- A session at its start. -/
def Session.initial (view : GameStateView) : Session :=
  ⟨⟨[], List.Pairwise.nil, by simp⟩, .empty, view⟩

/-- What the steps of a session raise. -/
inductive SessionError where
  | filterError (e : FilterError)
  | unhashableType (name : String)
  | valueError (message : String)

/-- The redaction's path leads on from where another one puts an object or a list. -/
def RedactSpec.WritesInto (spec other : RedactSpec) : Prop :=
  (∃ xs, other.mask = .arr xs) ∨ (∃ fields, other.mask = .obj fields) →
    ∃ path path', parse spec.field = .ok path ∧ parse other.field = .ok path' ∧
      path'.length < path.length ∧ path'.map Segment.name <+: path.map Segment.name

/-- A filter as it is built for a session: the codec, the pack's rules and the pack's name. A mask
    is put into payloads itself, not a copy; so the rules stay what they are only where no redaction
    of a kind writes into the mask of another. -/
structure ProjectionFilter where
  codec : JsonCodec
  rules : ProjectionRules
  packSlug : Option String
  apart : ∀ r ∈ rules.rules, ∀ r' ∈ rules.rules, r.kind = r'.kind →
    ∀ spec ∈ r.specs, ∀ other ∈ r'.specs, ¬ spec.WritesInto other

/-- Judge an envelope for a recipient. -/
def ProjectionFilter.project (filter : ProjectionFilter) (envelope : MessageEnvelope)
    (view : GameStateView) (playerId : String) : Except SessionError CachedDecision :=
  match ComposedFilter.project filter.codec filter.rules filter.packSlug envelope view playerId with
  | .error e => .error (.filterError e)
  | .ok result => .ok (.ofDecision result.1)

/-! ### Companions -/

variable (petsOf : String → List String)

/-- The pets bonded to an entry of a visibility list; only hashable entries can be looked up. -/
def petsOfEntry : Json → Except SessionError (List String)
  | .str ownerPlayerId => .ok (petsOf ownerPlayerId)
  | .arr _ => .error (.unhashableType "list")
  | .obj _ => .error (.unhashableType "dict")
  | _ => .ok []

/-- One more name in a visibility list, unless it stands there. -/
def addPet (widened : List Json) (petPlayerId : String) : List Json :=
  if widened.any (fun x => x.str? = some petPlayerId) then widened
  else widened ++ [.str petPlayerId]

/-- A visibility list with the pets of everybody on it. -/
def widen (visibleTo : List Json) : Except SessionError (List Json) :=
  visibleTo.foldlM (fun widened owner =>
    (petsOfEntry petsOf owner).map (fun pets => pets.foldl addPet widened)) visibleTo

/-- A pet sees what is private to its owner: its name is put beside the owner's before the filter
    runs. -/
def expandVisibilityForCompanions (envelope : MessageEnvelope) :
    Except SessionError MessageEnvelope :=
  if envelope.kind ∉ visibilityGatedKinds then .ok envelope
  else
    match codec.loads envelope.payloadJson with
    | .error message => .error (.filterError (.jsonDecodeError message))
    | .ok payload =>
      match Json.get? payload "_visibility" with
      | some (.obj viz) =>
        match Json.get? viz "visible_to" with
        | some (.arr visibleTo) => do
          let widened ← widen petsOf visibleTo
          -- names are only ever added, so the length tells whether one was
          if widened.length = visibleTo.length then .ok envelope
          else
            let viz := Json.set viz "visible_to" (.arr widened)
            .ok ⟨envelope.kind, codec.dumps (Json.set payload "_visibility" (.obj viz))⟩
        | _ => .ok envelope
      | _ => .ok envelope

/-! ### Fan-out -/

/-- An event to be fanned out, and what the emission finds of the room. `projectEmitter` is set
    for a turn merged from several players, whose emitter is no sole author. -/
structure Emission where
  (kind payloadJson : String)
  connected : List String
  emitter : Option String
  projectEmitter : Bool
  petsOf : String → List String

/-- Who is judged: the others who are connected, and then the emitter of a merged turn. -/
def Emission.recipients (e : Emission) : List String :=
  e.connected.filter (fun pid => some pid ≠ e.emitter) ++
    if e.projectEmitter then e.emitter.toList else []

/-- Judge an envelope for one recipient and cache the decision. -/
def cacheDecision (envelope : MessageEnvelope) (view : GameStateView) (seq : Nat)
    (cache : ProjectionCache) (playerId : String) : Except SessionError ProjectionCache :=
  (filter.project envelope view playerId).map (cache.insert (seq, playerId))

/-- Log an event and decide it for its recipients. All of it is one transaction. -/
def emitEvent (e : Emission) (s : Session) : Except SessionError Session := do
  let row := s.events.nextRow e.kind e.payloadJson
  let envelope ← expandVisibilityForCompanions filter.codec e.petsOf row.envelope
  let cache ← e.recipients.foldlM (cacheDecision filter envelope s.view row.seq) s.cache
  .ok { s with
    events := s.events.append e.kind e.payloadJson
    cache := cache }

/-! ### Pruning and filling -/

/-- Keep the newest rows of every player. -/
def pruneProjectionCache (keepLastPerPlayer : Int) (s : Session) : Except SessionError Session :=
  if keepLastPerPlayer < 1 then
    .error (.valueError
      ("keep_last_per_player must be >= 1 (got " ++ toString keepLastPerPlayer ++ ")"))
  else
    .ok { s with
      cache := s.cache.filter (fun key => s.cache.rowNumber key ≤ keepLastPerPlayer) }

/-- One event of a fill: a row that is missing is decided at the view and written at once. -/
def fillRow (view : GameStateView) (playerId : String) (existing : List Nat) (filled : Nat)
    (row : EventRow) : Effect SessionError Session Nat :=
  if row.seq ∈ existing then pure filled
  else
    match filter.project row.envelope view playerId with
    | .error e => throw e
    | .ok decision => do
      modify (fun s => { s with cache := s.cache.insert (row.seq, playerId) decision })
      pure (filled + 1)

/-- Fill the rows a player does not have, and count them. The envelope is the event as it was
    logged, and the view is the one there is now. -/
def lazyFill (playerId : String) : Effect SessionError Session Nat := do
  let s ← get
  let existing := s.cache.readSince playerId 0
  (s.events.readSince 0).foldlM (fillRow filter s.view playerId existing) 0

/-! ### Runs -/

/-- What happens to a session. `logOnly` is an event whose frames are built outside of the
    filter; `changeView` is play going on. -/
inductive Step where
  | emit (e : Emission)
  | logOnly (kind payloadJson : String)
  | prune (keepLastPerPlayer : Int)
  | changeView (view : GameStateView)
  | lazyFill (playerId : String)

/-- The session after a step. A transaction that raises is rolled back; a fill keeps the rows it
    wrote before it raised. -/
def step (s : Session) : Step → Session
  | .emit e =>
    match emitEvent filter e s with
    | .ok s' => s'
    | .error _ => s
  | .logOnly kind payloadJson => { s with events := s.events.append kind payloadJson }
  | .prune keepLastPerPlayer =>
    match pruneProjectionCache keepLastPerPlayer s with
    | .ok s' => s'
    | .error _ => s
  | .changeView view => { s with view := view }
  | .lazyFill playerId => ((lazyFill filter playerId).exec s).2

end

/-! ### Views the filter cannot tell apart -/

/-- The predicate calls of a rule. -/
def ProjectionRule.calls : ProjectionRule → List PredicateCall
  | .includeIf _ call => [call]
  | .redactFields _ specs => specs.map (fun spec => spec.«unless»)
  | _ => []

/-- A predicate call answers a player alike under two views, on a payload and on the masks that may
    stand under its argument. -/
def Alike (view view' : GameStateView) (playerId : String) (payload : Fields) (masks : List Json)
    (call : PredicateCall) : Prop :=
  verdict view playerId call payload = verdict view' playerId call payload ∧
    ∀ m ∈ masks, ∀ key, call.arg = some key →
      verdict view playerId call [(key, m)] = verdict view' playerId call [(key, m)]

/-- The predicate calls in the rules of a kind answer a player alike under two views, on a payload
    and on the masks of the kind. -/
def SameAnswers (rules : ProjectionRules) (kind playerId : String) (view view' : GameStateView)
    (payload : Fields) : Prop :=
  ∀ r ∈ rules.byKind kind, ∀ call ∈ r.1.calls,
    Alike view view' playerId payload ((redactions (rules.byKind kind)).map RedactSpec.mask) call

/-- The strings that predicates find in a payload are those of the canonical one, or masks. -/
def Found (payload : Fields) (masks : List Json) (pass : Pass) : Prop :=
  ∀ arg, strAt pass.payload arg = strAt payload arg ∨
    ∃ m ∈ masks, strAt pass.payload arg = m.str?

section SameAnswers

variable {view view' : GameStateView} {playerId : String} {payload : Fields} {masks : List Json}
  {pass : Pass}

theorem Alike.evalCall_eq {call : PredicateCall} (h : Alike view view' playerId payload masks call)
    (hfound : Found payload masks pass) :
    evalCall view playerId pass.payload call = evalCall view' playerId pass.payload call := by
  have hsame : verdict view playerId call pass.payload
      = verdict view' playerId call pass.payload := by
    rcases hfound call.arg with hcanonical | ⟨m, hm, hmask⟩
    · rw [verdict_congr hcanonical, verdict_congr hcanonical]
      exact h.1
    · cases harg : call.arg with
      | none =>
        have hnone : strAt pass.payload call.arg = strAt payload call.arg := by
          rw [harg]
          rfl
        rw [verdict_congr hnone, verdict_congr hnone]
        exact h.1
      | some key =>
        have hstands : strAt pass.payload call.arg = strAt [(key, m)] call.arg := by
          rw [hmask, harg, strAt, readField, Option.bind_some, Json.get?_cons, if_pos rfl,
            Option.bind_some]
        rw [verdict_congr hstands, verdict_congr hstands]
        exact h.2 m hm key harg
  unfold verdict at hsame
  unfold evalCall
  cases hpred : predicates call.predicate with
  | none => rfl
  | some pred =>
    rw [hpred] at hsame
    exact congrArg Except.ok hsame

/-- A redaction leaves canonical strings and masks. -/
theorem Found.redactSpec (h : Found payload masks pass) {spec : RedactSpec}
    (hmask : spec.mask ∈ masks) {ruleIdx : Nat} {pass' : Pass}
    (hrun : Projection.redactSpec view playerId ruleIdx pass spec = .ok pass') :
    Found payload masks pass' := by
  unfold Projection.redactSpec at hrun
  obtain ⟨holds, -, hrun⟩ := bind_eq_ok.mp hrun
  cases holds with
  | true =>
    cases hrun
    exact h
  | false =>
    cases hpath : parse spec.field with
    | error e =>
      rw [hpath] at hrun
      cases hrun
    | ok path =>
      rw [hpath] at hrun
      cases hrun
      intro arg
      have harg := h arg
      unfold Pass.payload at harg ⊢
      cases hkept : pass.kept with
      | some kept =>
        rw [hkept] at harg
        exact harg
      | none =>
        rw [hkept] at harg
        rcases strAt_maskFields path spec.mask pass.working arg with hsame | hwritten
        · exact hsame ▸ harg
        · exact .inr ⟨spec.mask, hmask, hwritten⟩

/-- A visibility tag leaves what rules read. -/
theorem payload_applyVisibility {ruleIdx : Nat} {pass' : Pass}
    (hrun : applyVisibility playerId ruleIdx pass = .ok (some pass')) :
    pass'.payload = pass.payload := by
  unfold applyVisibility at hrun
  split at hrun
  · dsimp only at hrun
    split at hrun
    · cases hrun
    · split at hrun
      · split at hrun
        · obtain ⟨copied, -, hrun⟩ := bind_eq_ok.mp hrun
          cases copied with
          | none =>
            cases hrun
            rfl
          | some copy =>
            cases hrun
            rfl
        · cases hrun
          rfl
      · cases hrun
  · cases hrun
    rfl

/-- **Some redactions** do the same at both views. -/
theorem foldlM_redactSpec_congr {specs : List RedactSpec} (ruleIdx : Nat)
    (hmasks : ∀ spec ∈ specs, spec.mask ∈ masks)
    (halike : ∀ spec ∈ specs, Alike view view' playerId payload masks spec.«unless»)
    (h : Found payload masks pass) : specs.foldlM (redactSpec view playerId ruleIdx) pass
        = specs.foldlM (redactSpec view' playerId ruleIdx) pass ∧
      ∀ pass', specs.foldlM (redactSpec view playerId ruleIdx) pass = .ok pass' →
        Found payload masks pass' := by
  induction specs generalizing pass with
  | nil =>
    refine ⟨rfl, fun pass' hrun => ?_⟩
    cases hrun
    exact h
  | cons spec rest ih =>
    have hspec : redactSpec view playerId ruleIdx pass spec
        = redactSpec view' playerId ruleIdx pass spec := by
      unfold redactSpec
      rw [(halike spec (.head _)).evalCall_eq h]
    rw [List.foldlM_cons, List.foldlM_cons, ← hspec]
    cases hnext : redactSpec view playerId ruleIdx pass spec with
    | error e => exact ⟨rfl, fun _ hrun => by cases hrun⟩
    | ok next =>
      exact ih (fun s hs => hmasks s (.tail spec hs)) (fun s hs => halike s (.tail spec hs))
        (h.redactSpec (hmasks spec (.head _)) hnext)

theorem applyRule_congr {rule : ProjectionRule} (hmasks : ∀ spec ∈ rule.specs, spec.mask ∈ masks)
    (halike : ∀ call ∈ rule.calls, Alike view view' playerId payload masks call)
    (h : Found payload masks pass) (ruleIdx : Nat) :
    applyRule view playerId pass ruleIdx rule = applyRule view' playerId pass ruleIdx rule ∧
      ∀ pass', applyRule view playerId pass ruleIdx rule = .ok (some pass') →
        Found payload masks pass' := by
  cases rule with
  | targetOnly kind field =>
    refine ⟨rfl, fun pass' hrun => ?_⟩
    have hpass := Except.ok.inj hrun
    split at hpass
    · cases hpass
      exact h
    · cases hpass
  | visibilityTag kind =>
    refine ⟨rfl, fun pass' hrun arg => ?_⟩
    rw [payload_applyVisibility hrun]
    exact h arg
  | includeIf kind call =>
    have hcall := (halike call (List.mem_singleton.mpr rfl)).evalCall_eq h
    refine ⟨by simp only [applyRule, hcall], fun pass' hrun => ?_⟩
    obtain ⟨holds, -, hrun⟩ := bind_eq_ok.mp hrun
    have hpass := Except.ok.inj hrun
    split at hpass
    · cases hpass
      exact h
    · cases hpass
  | redactFields kind specs =>
    obtain ⟨hspecs, hfound⟩ := @foldlM_redactSpec_congr view view' playerId payload masks pass specs
      ruleIdx hmasks (fun spec hspec => halike spec.«unless» (List.mem_map_of_mem (f := fun s => s.«unless») hspec)) h
    refine ⟨by simp only [applyRule, hspecs], fun pass' hrun => ?_⟩
    obtain ⟨pass'', hfold, hrun⟩ := bind_eq_ok.mp hrun
    cases hrun
    exact hfound _ hfold

/-- **A list of rules** does the same at both views. -/
theorem applyRules_congr {rules : List (ProjectionRule × Nat)}
    (hmasks : ∀ spec ∈ redactions rules, spec.mask ∈ masks)
    (halike : ∀ r ∈ rules, ∀ call ∈ r.1.calls, Alike view view' playerId payload masks call)
    (h : Found payload masks pass) :
    applyRules view playerId rules pass = applyRules view' playerId rules pass := by
  induction rules generalizing pass with
  | nil => rfl
  | cons r rest ih =>
    obtain ⟨rule, ruleIdx⟩ := r
    rw [redactions, List.flatMap_cons] at hmasks
    obtain ⟨hrule, hfound⟩ := applyRule_congr
      (fun spec hspec => hmasks spec (List.mem_append_left _ hspec))
      (halike (rule, ruleIdx) (.head _)) h ruleIdx
    unfold applyRules
    rw [← hrule]
    cases hnext : applyRule view playerId pass ruleIdx rule with
    | error e => rfl
    | ok next =>
      cases next with
      | none => rfl
      | some pass' =>
        exact ih (fun spec hspec => hmasks spec (List.mem_append_right _ hspec))
          (fun r' hr' => halike r' (.tail _ hr')) (hfound pass' hnext)

/-- Where the predicate calls of the kind's rules answer alike on an event, so does the filter. -/
theorem project_sameAnswers {filter : ProjectionFilter} {envelope : MessageEnvelope}
    (h : ∀ payload, filter.codec.loads envelope.payloadJson = .ok payload →
      SameAnswers filter.rules envelope.kind playerId view view' payload) :
    filter.project envelope view playerId = filter.project envelope view' playerId := by
  have hstage : GenreRuleStage.evaluate filter.codec filter.rules envelope view playerId
      = GenreRuleStage.evaluate filter.codec filter.rules envelope view' playerId := by
    unfold GenreRuleStage.evaluate
    cases hloads : filter.codec.loads envelope.payloadJson with
    | error message => rfl
    | ok payload =>
      have hrules := @applyRules_congr view view' playerId payload _ { working := payload } _
        (fun spec hspec => List.mem_map_of_mem hspec) (h payload hloads) (fun _ => .inl rfl)
      simp only [hrules]
  unfold ProjectionFilter.project ComposedFilter.project
  rw [hstage]

/-- What the structural stage decides does not depend on the view. -/
theorem project_terminal {filter : ProjectionFilter} {envelope : MessageEnvelope}
    (h : ∃ decision source, CoreInvariantStage.evaluate filter.codec envelope playerId
      = .ok (.terminal decision source)) :
    filter.project envelope view playerId = filter.project envelope view' playerId := by
  obtain ⟨decision, source, heval⟩ := h
  unfold ProjectionFilter.project
  rw [project_of_terminal heval, project_of_terminal heval]

end SameAnswers

/-! ### What a fill may change -/

variable {filter : ProjectionFilter} {playerId : String}

/-- All that a fill for a player may change: a row that was missing, of that player and of a
    logged event, is there now with what the filter says of the event at the view. -/
structure Filled (filter : ProjectionFilter) (playerId : String) (s s' : Session) : Prop where
  events : s'.events = s.events
  view : s'.view = s.view
  row : ∀ seq pid, s'.cache.get? (seq, pid) = s.cache.get? (seq, pid) ∨
    (pid = playerId ∧ s.cache.get? (seq, pid) = none ∧
      ∃ row ∈ s.events.rows, row.seq = seq ∧ ∃ decision,
        filter.project row.envelope s.view playerId = .ok decision ∧
        s'.cache.get? (seq, pid) = some decision)

theorem Filled.refl (s : Session) : Filled filter playerId s s :=
  ⟨rfl, rfl, fun _ _ => .inl rfl⟩

variable {s : Session}

/-- A fill leaves the rows that were there. -/
theorem Filled.get?_of_some {s' : Session} (h : Filled filter playerId s s') {key : Nat × String}
    {c : CachedDecision} (hc : s.cache.get? key = some c) : s'.cache.get? key = some c := by
  rcases h.row key.1 key.2 with hsame | ⟨-, hnone, -⟩
  · exact hsame.trans hc
  · rw [hc] at hnone
    simp at hnone

variable {row : EventRow}

theorem Filled.insert {s' : Session} (h : Filled filter playerId s s') (hrow : row ∈ s.events.rows)
    (hnone : s.cache.get? (row.seq, playerId) = none) {decision : CachedDecision}
    (hdecision : filter.project row.envelope s.view playerId = .ok decision) :
    Filled filter playerId s { s' with cache := s'.cache.insert (row.seq, playerId) decision } := by
  refine ⟨h.events, h.view, fun seq pid => ?_⟩
  show (s'.cache.insert (row.seq, playerId) decision).get? (seq, pid) = _ ∨ _
  by_cases hkey : (seq, pid) = (row.seq, playerId)
  · obtain ⟨rfl, rfl⟩ := Prod.mk.inj hkey
    have hnew : (s'.cache.insert (row.seq, pid) decision).get? (row.seq, pid) = some decision := by
      simp
    exact .inr ⟨rfl, hnone, row, hrow, rfl, decision, hdecision, hnew⟩
  · have hold : (s'.cache.insert (row.seq, playerId) decision).get? (seq, pid)
        = s'.cache.get? (seq, pid) := by
      simp [hkey]
    show (s'.cache.insert (row.seq, playerId) decision).get? (seq, pid) = _ ∨ (_ ∧ _ ∧
      ∃ row' ∈ s.events.rows, row'.seq = seq ∧ ∃ decision', _ ∧
        (s'.cache.insert (row.seq, playerId) decision).get? (seq, pid) = some decision')
    rw [hold]
    exact h.row seq pid

theorem mem_readSince_iff {cache : ProjectionCache} {seq : Nat} (hpos : 0 < seq) :
    seq ∈ cache.readSince playerId 0 ↔ (seq, playerId) ∈ cache.keys := by
  unfold ProjectionCache.readSince
  constructor
  · intro h
    obtain ⟨key, hkey, rfl⟩ := List.mem_map.mp h
    obtain ⟨hmem, hcond⟩ := List.mem_filter.mp hkey
    have hpid : key.2 = playerId := by
      have hboth : key.2 = playerId ∧ 0 < key.1 := by simpa using hcond
      exact hboth.1
    rw [← hpid]
    exact hmem
  · intro h
    exact List.mem_map.mpr ⟨(seq, playerId), List.mem_filter.mpr ⟨h, by simpa using hpos⟩, rfl⟩

/-- The rows a fill has come to are there: from before, or written. -/
def HasRow (s : Session) (playerId : String) (row : EventRow) : Prop :=
  ∃ c, s.cache.get? (row.seq, playerId) = some c

/-- **One event of a fill.** The row is there afterwards; where the filter raises, nothing is
    written. -/
theorem meets_fillRow {existing : List Nat} (hexisting : existing = s.cache.readSince playerId 0)
    (hrow : row ∈ s.events.rows) (done : List EventRow) (filled : Nat) :
    Meets (fun s' => Filled filter playerId s s' ∧ ∀ r ∈ done, HasRow s' playerId r)
      (fillRow filter s.view playerId existing filled row)
      (fun _ s' => Filled filter playerId s s' ∧ ∀ r ∈ done ++ [row], HasRow s' playerId r)
      (fun _ s' => Filled filter playerId s s') := by
  intro s' hs'
  obtain ⟨hfilled, hdone⟩ := hs'
  have hpos := s.events.positive row hrow
  have hmem : row.seq ∈ existing ↔ (row.seq, playerId) ∈ s.cache.keys := by
    rw [hexisting]
    exact mem_readSince_iff hpos
  have hlast : ∀ {s'' : Session}, (∀ r ∈ done, HasRow s'' playerId r) → HasRow s'' playerId row →
      ∀ r ∈ done ++ [row], HasRow s'' playerId r := by
    intro s'' hbefore hnow r hr
    rcases List.mem_append.mp hr with hr | hr
    · exact hbefore r hr
    · rw [List.mem_singleton.mp hr]
      exact hnow
  unfold fillRow
  by_cases hin : row.seq ∈ existing
  · rw [if_pos hin]
    obtain ⟨c, hc⟩ := Dict.mem_keys_iff_get?.mp (hmem.mp hin)
    exact ⟨hfilled, hlast hdone ⟨c, hfilled.get?_of_some hc⟩⟩
  · rw [if_neg hin]
    have hnone : s.cache.get? (row.seq, playerId) = none :=
      Dict.get?_eq_none_iff.mpr (fun hkey => hin (hmem.mpr hkey))
    cases hproject : filter.project row.envelope s.view playerId with
    | error e => exact hfilled
    | ok decision =>
      refine ⟨hfilled.insert hrow hnone hproject, hlast (fun r hr => ?_) ⟨decision, by simp⟩⟩
      -- writing a row takes none away
      obtain ⟨c, hc⟩ := hdone r hr
      by_cases hsame : (r.seq, playerId) = (row.seq, playerId)
      · exact ⟨decision, by simp [hsame]⟩
      · exact ⟨c, by simp [hsame, hc]⟩

/-- **A fill.** However far it gets, it changes nothing but missing rows of the player; where it
    returns, the player has a row for every event. -/
theorem meets_lazyFill (filter : ProjectionFilter) (playerId : String) (s : Session) :
    Meets (fun s' => s' = s) (lazyFill filter playerId)
      (fun _ s' => Filled filter playerId s s' ∧ ∀ row ∈ s.events.rows, HasRow s' playerId row)
      (fun _ s' => Filled filter playerId s s') := by
  have hall : s.events.readSince 0 = s.events.rows := by
    unfold EventLog.readSince
    rw [List.filter_eq_self]
    intro row hrow
    exact decide_eq_true (s.events.positive row hrow)
  refine meets_get_bind (fun s' hs' => ?_)
  subst hs'
  rw [hall]
  have hloop := meets_foldlM_taken (E := fun _ s'' => Filled filter playerId s' s'')
    (I := fun done (_ : Nat) s'' =>
      Filled filter playerId s' s'' ∧ ∀ r ∈ done, HasRow s'' playerId r)
    (fun done row hrow filled => meets_fillRow rfl hrow done filled) 0
  exact hloop.of_state ⟨Filled.refl s', by simp⟩

/-! ### What a fan-out writes -/

/-- **A fan-out** adds one event to the log, and caches for every recipient what the filter says
    of the widened envelope. -/
theorem emitEvent_row {e : Emission} {s' : Session} (h : emitEvent filter e s = .ok s') :
    s'.events = s.events.append e.kind e.payloadJson ∧
      ∃ envelope, expandVisibilityForCompanions filter.codec e.petsOf
          (s.events.nextRow e.kind e.payloadJson).envelope = .ok envelope ∧
        ∀ pid ∈ e.recipients, ∃ decision, filter.project envelope s.view pid = .ok decision ∧
          s'.cache.get? (s.events.latestSeq + 1, pid) = some decision := by
  unfold emitEvent at h
  obtain ⟨envelope, henvelope, hrest⟩ := bind_eq_ok.mp h
  obtain ⟨cache, hcache, hs'⟩ := bind_eq_ok.mp hrest
  cases hs'
  refine ⟨rfl, envelope, henvelope, ?_⟩
  -- the invariant: whoever was judged so far has the decision of the filter in the cache
  refine foldlM_invariant (fun done (c : ProjectionCache) => ∀ pid ∈ done, ∃ decision,
    filter.project envelope s.view pid = .ok decision ∧
      c.get? (s.events.latestSeq + 1, pid) = some decision) (by simp) ?_ hcache
  intro done pid rest c c' _ hdone hstep q hq
  unfold cacheDecision at hstep
  cases hproject : filter.project envelope s.view pid with
  | error err =>
    rw [hproject] at hstep
    simp [Except.map] at hstep
  | ok decision =>
    rw [hproject] at hstep
    cases hstep
    show ∃ d, _ ∧ (c.insert (s.events.latestSeq + 1, pid) decision).get? _ = some d
    by_cases hsame : q = pid
    · exact ⟨decision, by rw [hsame]; exact hproject, by simp [hsame]⟩
    · obtain ⟨d, hd, hget⟩ := hdone q ((List.mem_append.mp hq).resolve_right (by simpa using hsame))
      exact ⟨d, hd, by simp [hsame, hget]⟩

/-! ### Events stay -/

/-- No step takes an event out of the log. -/
theorem mem_events_step (h : row ∈ s.events.rows) (st : Step) :
    row ∈ (step filter s st).events.rows := by
  cases st with
  | emit e =>
    cases hemit : emitEvent filter e s with
    | error err =>
      simp only [step, hemit]
      exact h
    | ok s' =>
      simp only [step, hemit]
      rw [(emitEvent_row hemit).1]
      exact List.mem_append_left _ h
  | logOnly kind payloadJson => exact List.mem_append_left _ h
  | prune keep =>
    by_cases hkeep : keep < 1
    · simp only [step, pruneProjectionCache, if_pos hkeep]
      exact h
    · simp only [step, pruneProjectionCache, if_neg hkeep]
      exact h
  | changeView view => exact h
  | lazyFill pid =>
    have hfill := meets_lazyFill filter pid s s rfl
    have hevents : ((lazyFill filter pid).exec s).2.events = s.events := by
      rcases hexec : (lazyFill filter pid).exec s with ⟨err | n, s'⟩
      · rw [hexec] at hfill
        exact hfill.events
      · rw [hexec] at hfill
        exact hfill.1.events
    show row ∈ ((lazyFill filter pid).exec s).2.events.rows
    rw [hevents]
    exact h

/-- No run takes an event out of the log. -/
theorem mem_events_run (h : row ∈ s.events.rows) (es : List Step) :
    row ∈ (run (step filter) s es).events.rows := by
  induction es generalizing s with
  | nil => exact h
  | cons st es ih => exact ih (mem_events_step h st)

/-- Two logged events with one sequence number are one event. -/
theorem EventLog.eq_of_seq_eq (log : EventLog) {a b : EventRow} (ha : a ∈ log.rows)
    (hb : b ∈ log.rows) (h : a.seq = b.seq) : a = b := by
  have hnodup : (log.rows.map EventRow.seq).Nodup :=
    List.pairwise_map.mpr (log.ordered.imp Nat.ne_of_lt)
  exact List.inj_on_of_nodup_map hnodup ha hb h

/-! ### The refilled decision -/

/-- The text of a scrapbook entry about a character. -/
def scrapbookText : String := "\x7b\"scene_title\": \"mira\"\x7d"

/-- A pack that shows scrapbook entries to those in the zone of the character in the title. -/
def scrapbookFilter : ProjectionFilter where
  codec :=
    { loads := fun text =>
        if text = scrapbookText then .ok [("scene_title", .str "mira")]
        else .error "Expecting value: line 1 column 1 (char 0)"
      dumps := fun _ => scrapbookText }
  rules := ⟨[.includeIf "SCRAPBOOK_ENTRY" ⟨"in_same_zone", some "scene_title"⟩]⟩
  packSlug := none
  apart := by simp [ProjectionRule.specs]

/-- Bob's character is in `zone`, and Mira in the cave. -/
def bobIn (zone : String) : GameStateView where
  characterOf pid := if pid = "bob" then some "rux" else none
  zoneOf character := if character = "mira" then some "cave" else some zone
  visibleTo _ _ := false
  ownerOfItem _ := none
  partyOf _ := none

/-- The entry, fanned out to Bob. -/
def scrapbookEmission : Emission :=
  ⟨"SCRAPBOOK_ENTRY", scrapbookText, ["bob"], none, false, fun _ => []⟩

end Sidequest.Projection
