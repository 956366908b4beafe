import Sidequest.Combat.Rules
import Sidequest.Lib.Except

namespace Sidequest.Beat

open Lib
open Combat (CreatureCore Depletion RollOutcome hpDepletion)
open Combat.GameSnapshot (mitigated)
open Fate (ActorSide EncounterActor EncounterPhase)

/-!
# Applying a beat

One beat at one outcome: the dials, the scene tags, the debits of edge, the strike, and then
whether the encounter is over, and how.

* `TierRule` — a rule, member by member; `defaultDeltas` — the defaults;
* `StructuredEncounter` — the dials, the seats and what beats leave behind;
* `StructuredEncounter.dialThresholdOutcome` — the check of the dials, for whoever else moves them;
* `applyBeat` — piece by piece, in the order of the source.
-/

section

/-- What applying a beat raises. -/
inductive BeatError where
  | unknownOutcome
  | noTargetTag
  | noKind
  | badExpression (expr : String)
  | badTag
  | noEdgeResolver (beatId : String)
  | noCore (name : String)
deriving DecidableEq

inductive BeatKind where
  | strike
  | brace
  | push
  | angle
deriving DecidableEq

/-! ### Rules -/

/-- A rule; a member that is absent takes its default. A text may be there and be `None`. -/
structure TierRule where
  own : Option Int := none
  ownExpr : Option String := none
  opponent : Option Int := none
  opponentExpr : Option String := none
  grantsTag : Option (Option String) := none
  tagLeverage : Option Int := none
  grantsFleetingTag : Option (Option String) := none
  tagBackfire : Option Bool := none
  resolution : Option Bool := none
  grantsTagFromTarget : Option Bool := none
  grantsFleetingTagFromTarget : Option Bool := none

/-- `rule.update(overrides)`. -/
def TierRule.update (rule overrides : TierRule) : TierRule where
  own := overrides.own <|> rule.own
  ownExpr := overrides.ownExpr <|> rule.ownExpr
  opponent := overrides.opponent <|> rule.opponent
  opponentExpr := overrides.opponentExpr <|> rule.opponentExpr
  grantsTag := overrides.grantsTag <|> rule.grantsTag
  tagLeverage := overrides.tagLeverage <|> rule.tagLeverage
  grantsFleetingTag := overrides.grantsFleetingTag <|> rule.grantsFleetingTag
  tagBackfire := overrides.tagBackfire <|> rule.tagBackfire
  resolution := overrides.resolution <|> rule.resolution
  grantsTagFromTarget := overrides.grantsTagFromTarget <|> rule.grantsTagFromTarget
  grantsFleetingTagFromTarget :=
    overrides.grantsFleetingTagFromTarget <|> rule.grantsFleetingTagFromTarget

/-- The default rules of the kinds. -/
def defaultDeltas : BeatKind → RollOutcome → TierRule
  | .strike, .tie => { ownExpr := some "b // 2" }
  | .strike, .success => { ownExpr := some "b" }
  | .strike, .critSuccess => { ownExpr := some "b", grantsFleetingTag := some (some "Opening") }
  | .brace, .critFail => { opponent := some 1 }
  | .brace, .tie => { opponentExpr := some "-(b // 2)" }
  | .brace, .success => { opponentExpr := some "-b" }
  | .brace, .critSuccess =>
    { opponentExpr := some "-b", grantsFleetingTag := some (some "Counter Stance") }
  | .push, .critFail => { own := some (-1) }
  | .push, .success => { resolution := some true }
  | .push, .critSuccess =>
    { resolution := some true, grantsFleetingTag := some (some "Clean Exit") }
  | .angle, .critFail => { tagBackfire := some true, grantsFleetingTagFromTarget := some true }
  | .angle, .tie => { grantsFleetingTagFromTarget := some true }
  | .angle, .success => { grantsTagFromTarget := some true, tagLeverage := some 1 }
  | .angle, .critSuccess => { grantsTagFromTarget := some true, tagLeverage := some 2 }
  | _, _ => {}

/-- The four expressions there are, blanks aside. -/
def evalExpr (expr : String) (base : Int) : Except BeatError Int :=
  let bare := String.ofList (expr.toList.filter (· ≠ ' '))
  if bare = "b" then .ok base
  else if bare = "-b" then .ok (-base)
  else if bare = "b//2" then .ok (base / 2)
  else if bare = "-(b//2)" then .ok (-(base / 2))
  else .error (.badExpression bare)

/-! ### Deltas -/

/-- The deltas of one beat at one outcome. -/
structure ResolvedDeltas where
  own : Int := 0
  opponent : Int := 0
  grantsTag : Option String := none
  tagLeverage : Int := 0
  grantsFleetingTag : Option String := none
  tagBackfire : Bool := false
  resolution : Bool := false
deriving DecidableEq

/-- A number of a rule: its expression, or else its value. -/
def ruleNumber (value : Option Int) (expr : Option String) (base : Int) : Except BeatError Int :=
  match expr with
  | some expr => evalExpr expr base
  | none => .ok (value.getD 0)

/-- A text of a rule: that of the target, or else its own. -/
def ruleText (text : Option (Option String)) (fromTarget : Option Bool)
    (targetTag : Option String) : Option String :=
  if fromTarget.getD false then targetTag else text.join

/-- The deltas of a beat: the defaults of its kind, and its overrides. -/
def resolveTierDeltas (kind : Option BeatKind) (base : Int) (outcome : RollOutcome)
    (overrides : RollOutcome → Option TierRule) (targetTag : Option String) :
    Except BeatError ResolvedDeltas := do
  if outcome = .unknown then throw .unknownOutcome
  if kind = some .angle ∧ (targetTag = none ∨ targetTag = some "") then throw .noTargetTag
  match kind with
  | none => throw .noKind
  | some kind => do
    let rule := (defaultDeltas kind outcome).update ((overrides outcome).getD {})
    let own ← ruleNumber rule.own rule.ownExpr base
    let opponent ← ruleNumber rule.opponent rule.opponentExpr base
    .ok {
      own := own
      opponent := opponent
      grantsTag := ruleText rule.grantsTag rule.grantsTagFromTarget targetTag
      tagLeverage := rule.tagLeverage.getD 0
      grantsFleetingTag :=
        ruleText rule.grantsFleetingTag rule.grantsFleetingTagFromTarget targetTag
      tagBackfire := rule.tagBackfire.getD false
      resolution := rule.resolution.getD false }

example : resolveTierDeltas (some .strike) 5 .tie (fun _ => none) none = .ok { own := 2 } := by
  decide

/-! ### What the player is told -/

inductive BeatEffect where
  | advance
  | setback
  | resolution
  | tag
  | backfire
  | inert

structure BeatImpact where
  effect : BeatEffect
  dialMoved : Bool
  summary : String
  own : Int := 0
  opponent : Int := 0
  resolution : Bool := false
  tag : Option String := none

/-- A text that is there and not empty. -/
def present (text : Option String) : Option String := text.filter (· ≠ "")

/-- What a beat did, in one word and one line. Under hit points no dial moves, and the hit points
    removed stand in for it. -/
def describeBeatImpact (deltas : ResolvedDeltas) (hpDepletionSuppressed : Bool) (hpRemoved : Int) :
    BeatImpact :=
  let own := if hpDepletionSuppressed then 0 else deltas.own
  let opponent := if hpDepletionSuppressed then 0 else deltas.opponent
  let tag := (present deltas.grantsTag).orElse (fun _ => deltas.grantsFleetingTag)
  let tagged := (present tag).map (fun text => " (" ++ text ++ ")")
  let readout : BeatEffect × String :=
    if hpDepletionSuppressed ∧ 0 < hpRemoved then
      (.advance, "−" ++ toString hpRemoved ++ " to their HP" ++ tagged.getD "")
    else if 0 < own ∨ opponent < 0 then
      let detail := (if 0 < own then ["+" ++ toString own ++ " to your edge"] else []) ++
        (if opponent < 0 then [toString opponent ++ " to their edge"] else [])
      (.advance, "; ".intercalate detail ++ tagged.getD "")
    else if own < 0 ∨ 0 < opponent then
      (.setback, if own < 0 then "Setback — your edge slips (" ++ toString own ++ ")"
        else "Setback — their edge rises (+" ++ toString opponent ++ ")")
    else if deltas.tagBackfire then
      (.backfire, match present tag with
        | some text => "Backfire — your angle rebounds (" ++ text ++ ")"
        | none => "Backfire — your angle rebounds onto you")
    else if deltas.resolution then
      (.resolution, match present tag with
        | some text => text ++ " — resolves the confrontation (no dial change by design)"
        | none => "Resolves the confrontation (no dial change by design)")
    else match present tag with
      | some text => (.tag, "Sets up a scene tag: " ++ text ++ " (no dial change by design)")
      | none =>
        (.inert, if hpDepletionSuppressed ∧ (deltas.own ≠ 0 ∨ deltas.opponent ≠ 0)
          then "Dial held — HP channel resolved this beat"
          else "No change — the beat landed but moved nothing")
  { effect := readout.1, dialMoved := decide (own ≠ 0 ∨ opponent ≠ 0), summary := readout.2,
    own := own, opponent := opponent, resolution := deltas.resolution, tag := tag }

/-! ### Layers -/

variable (text : Option (Option String)) (value : Option Int)

/-- A number in layers: the override's, or what its expression comes to, or else the kind's. -/
def layeredNumber (expr : Option String) (kind : Except BeatError Int) (base : Int) :
    Except BeatError Int :=
  match value, expr with
  | some value, _ => .ok value
  | none, some expr => evalExpr expr base
  | none, none => kind

/-- A text in layers: the override's, or else the kind's, unless the override says by a flag whether
    it is that of the target. -/
def layeredText (fromTarget : Option Bool) (kindText : Option (Option String))
    (kindFromTarget : Option Bool) (targetTag : Option String) : Option String :=
  match text with
  | some text => text
  | none => ruleText kindText (fromTarget <|> kindFromTarget) targetTag

/-- Deltas in layers: what the override says, else what the kind says, else nothing. -/
structure Layered (base : Int) (kind overrides : TierRule) (targetTag : Option String)
    (r : ResolvedDeltas) : Prop where
  own : layeredNumber overrides.own overrides.ownExpr (ruleNumber kind.own kind.ownExpr base) base
    = .ok r.own
  opponent : layeredNumber overrides.opponent overrides.opponentExpr
    (ruleNumber kind.opponent kind.opponentExpr base) base = .ok r.opponent
  grantsTag : r.grantsTag = layeredText overrides.grantsTag overrides.grantsTagFromTarget
    kind.grantsTag kind.grantsTagFromTarget targetTag
  tagLeverage : r.tagLeverage = overrides.tagLeverage.getD (kind.tagLeverage.getD 0)
  grantsFleetingTag : r.grantsFleetingTag =
    layeredText overrides.grantsFleetingTag overrides.grantsFleetingTagFromTarget
      kind.grantsFleetingTag kind.grantsFleetingTagFromTarget targetTag
  tagBackfire : r.tagBackfire = overrides.tagBackfire.getD (kind.tagBackfire.getD false)
  resolution : r.resolution = overrides.resolution.getD (kind.resolution.getD false)

/-! ### What goes before an override -/

/-- The expression that the merged rule has, if any, can be evaluated, and to the number that the
    override names, if it names one. -/
def InForce (expr : Option String) (base : Int) : Prop :=
  ∀ e, expr = some e →
    match value with
    | some value => evalExpr e base = .ok value
    | none => ∃ n, evalExpr e base = .ok n

/-- If the merged rule takes a text from the target, and the override names a text, it names the
    target's. -/
def Untargeted (fromTarget : Option Bool) (targetTag : Option String) : Prop :=
  ∀ named, text = some named → fromTarget.getD false = true → named = targetTag

/-- Nothing of the kind goes before what a beat overrides. -/
structure OverridesDecide (base : Int) (kind overrides : TierRule) (targetTag : Option String) :
    Prop where
  own : InForce overrides.own (overrides.ownExpr <|> kind.ownExpr) base
  opponent : InForce overrides.opponent (overrides.opponentExpr <|> kind.opponentExpr) base
  grantsTag : Untargeted overrides.grantsTag
    (overrides.grantsTagFromTarget <|> kind.grantsTagFromTarget) targetTag
  grantsFleetingTag : Untargeted overrides.grantsFleetingTag
    (overrides.grantsFleetingTagFromTarget <|> kind.grantsFleetingTagFromTarget) targetTag

/-- **A number** of the merged rule is the layered one exactly if it is in force. -/
theorem number_layered_iff (kindValue : Option Int) (expr kindExpr : Option String) (base : Int) :
    (∃ n, ruleNumber (value <|> kindValue) (expr <|> kindExpr) base = .ok n ∧
      layeredNumber value expr (ruleNumber kindValue kindExpr base) base = .ok n) ↔
        InForce value (expr <|> kindExpr) base := by
  cases value with
  | some v =>
    cases hexpr : (expr <|> kindExpr) with
    | none =>
      refine iff_of_true ⟨v, rfl, rfl⟩ (fun e he => ?_)
      cases he
    | some e =>
      constructor
      · rintro ⟨n, hrule, hlayered⟩ e' he'
        cases he'
        cases hlayered
        exact hrule
      · intro h
        exact ⟨v, h e rfl, rfl⟩
  | none =>
    cases expr with
    | some e =>
      constructor
      · rintro ⟨n, hrule, _⟩ e' he'
        cases he'
        exact ⟨n, hrule⟩
      · intro h
        obtain ⟨n, hn⟩ := h e rfl
        exact ⟨n, hn, hn⟩
    | none =>
      cases kindExpr with
      | none =>
        refine iff_of_true ⟨kindValue.getD 0, rfl, rfl⟩ (fun e he => ?_)
        cases he
      | some e =>
        constructor
        · rintro ⟨n, hrule, _⟩ e' he'
          cases he'
          exact ⟨n, hrule⟩
        · intro h
          obtain ⟨n, hn⟩ := h e rfl
          exact ⟨n, hn, hn⟩

/-- **A text** of the merged rule is the layered one exactly if no flag goes before it. -/
theorem text_layered_iff (kindText : Option (Option String))
    (fromTarget kindFromTarget : Option Bool) (targetTag : Option String) :
    ruleText (text <|> kindText) (fromTarget <|> kindFromTarget) targetTag =
      layeredText text fromTarget kindText kindFromTarget targetTag ↔
        Untargeted text (fromTarget <|> kindFromTarget) targetTag := by
  cases text with
  | none =>
    refine iff_of_true rfl (fun named hnamed => ?_)
    cases hnamed
  | some named =>
    show (if (fromTarget <|> kindFromTarget).getD false then targetTag else named) = named ↔ _
    constructor
    · intro h named' hnamed hflag
      cases hnamed
      rw [if_pos hflag] at h
      exact h.symm
    · intro h
      split
      · rename_i hflag
        exact (h named rfl hflag).symm
      · rfl

/-- What a rule that has not been refused comes to. -/
theorem resolveTierDeltas_eq (kind : BeatKind) (base : Int)
    (overrides : RollOutcome → Option TierRule) {targetTag : Option String}
    (houtcome : outcome ≠ .unknown) (htag : kind = .angle → (present targetTag).isSome = true) :
    let rule := (defaultDeltas kind outcome).update ((overrides outcome).getD {})
    resolveTierDeltas (some kind) base outcome overrides targetTag =
      (ruleNumber rule.own rule.ownExpr base).bind (fun own =>
        (ruleNumber rule.opponent rule.opponentExpr base).bind (fun opponent => .ok {
          own := own
          opponent := opponent
          grantsTag := ruleText rule.grantsTag rule.grantsTagFromTarget targetTag
          tagLeverage := rule.tagLeverage.getD 0
          grantsFleetingTag :=
            ruleText rule.grantsFleetingTag rule.grantsFleetingTagFromTarget targetTag
          tagBackfire := rule.tagBackfire.getD false
          resolution := rule.resolution.getD false })) := by
  have htarget : ¬ (some kind = some BeatKind.angle ∧ (targetTag = none ∨ targetTag = some "")) := by
    rintro ⟨hkind, hmissing⟩
    have hpresent := htag (Option.some.inj hkind)
    rcases hmissing with rfl | rfl <;> exact absurd hpresent (by decide)
  unfold resolveTierDeltas
  rw [if_neg houtcome, if_neg htarget]
  rfl

/-- On a success the beat is worth five. -/
def worthFive : RollOutcome → Option TierRule := fun outcome =>
  if outcome = .success then some { own := some 5 } else none

end

/-! ### The encounter -/

/-- A dial. It advances toward its threshold. -/
structure EncounterMetric where
  (current threshold : Int)

def EncounterMetric.met (metric : EncounterMetric) : Bool := metric.threshold ≤ metric.current

/-- The dial, moved but not below zero. -/
def EncounterMetric.advance (metric : EncounterMetric) (delta : Int) : EncounterMetric :=
  if delta = 0 then metric else { metric with current := max 0 (metric.current + delta) }

inductive WinCondition where
  | dialThreshold
  | hpDepletion
  | tableShowdown
  | fateConflict
deriving DecidableEq

/-- Who draws the hits of a round, and how many hits it drew. -/
structure TauntState where
  activeActor : Option String := none
  remainingRounds : Int := 0
  redirectsThisRound : Int := 0

def TauntState.activate (actorId : String) : TauntState :=
  { activeActor := some actorId, remainingRounds := 1, redirectsThisRound := 0 }

/-- A redirect, if one is left in this round. -/
def TauntState.tryConsumeRedirect (taunt : TauntState) : Bool × TauntState :=
  if taunt.activeActor = none then (false, taunt)
  else if 1 ≤ taunt.redirectsThisRound then (false, taunt)
  else (true, { taunt with redirectsThisRound := taunt.redirectsThisRound + 1 })

structure EncounterTag where
  (text createdBy : String)
  target : Option String
  leverage : Int
  fleeting : Bool
  createdTurn : Int

/-- An encounter, as far as beats use it. -/
structure StructuredEncounter where
  winCondition : WinCondition := .dialThreshold
  (playerMetric opponentMetric : EncounterMetric)
  actors : List EncounterActor
  tags : List EncounterTag := []
  taunt : TauntState := {}
  beat : Int := 0
  structuredPhase : Option EncounterPhase := none
  lastBeatImpacts : Dict ActorSide BeatImpact := .empty
  resolved : Bool := false
  outcome : Option String := none

namespace StructuredEncounter

variable (enc : StructuredEncounter)

/-- The end that a met dial means, the player's first; only where dials decide. -/
def dialThresholdOutcome : Option String :=
  if enc.winCondition ≠ .dialThreshold then none
  else if enc.playerMetric.met then some "player_victory"
  else if enc.opponentMetric.met then some "opponent_victory"
  else none

/-- The encounter, over. -/
def resolve (outcome : String) : StructuredEncounter :=
  { enc with resolved := true, outcome := some outcome, structuredPhase := some .resolution }

variable (side : ActorSide)

/-- The other side of a seat; a player's is the opponent's, and everybody else's the player's. -/
def opposite : ActorSide :=
  if side = .player then .opponent else .player

/-- The seats of the other side that have not withdrawn. -/
def oppositeSideLiveActors : List String :=
  (enc.actors.filter (fun a => a.side = opposite side && !a.withdrawn)).map (·.name)

/-- The taunter, if it is among them, and else the first of them. -/
def oppositeSideFirstActor : Option String :=
  let candidates := enc.oppositeSideLiveActors side
  match enc.taunt.activeActor with
  | some taunter => if taunter ∈ candidates then some taunter else candidates.head?
  | none => candidates.head?

end StructuredEncounter

def phaseForBeat (beat : Int) : EncounterPhase :=
  if beat = 0 then .setup
  else if beat = 1 then .opening
  else if beat = 2 ∨ beat = 3 ∨ beat = 4 then .escalation
  else .climax

/-! ### Beats -/

inductive TargetSelect where
  | focus
  | spread
  | swarm
deriving DecidableEq

inductive DamageChannel where
  | none
  | strike
  | brace
deriving DecidableEq

/-- A beat, as far as applying it uses it. -/
structure BeatDef where
  id : String
  kind : Option BeatKind
  base : Int := 1
  deltas : RollOutcome → Option TierRule := fun _ => .none
  targetTag : Option String := .none
  resolution : Option Bool := .none
  edgeDelta : Option Int := .none
  targetEdgeDelta : Option Int := .none
  targetSelect : Option TargetSelect := .none
  damageChannel : DamageChannel := .none
  mitigationOverride : Option Int := .none

/-- What a beat came to. A skipped one has its reason and nothing else. -/
structure ApplyResult where
  deltas : Option ResolvedDeltas := none
  resolved : Bool := false
  skippedReason : Option String := none
  impact : Option BeatImpact := none
  hpRemoved : Int := 0

/-- The encounter, and the creatures behind the names. -/
structure BeatState (ι : Type) where
  enc : StructuredEncounter
  cores : ι → CreatureCore

variable {ι : Type} [DecidableEq ι]

/-- A computation on the encounter that may raise. -/
abbrev BeatM (ι : Type) := Effect BeatError (BeatState ι)

def modifyEnc (f : StructuredEncounter → StructuredEncounter) : BeatM ι PUnit :=
  modify (fun s => { s with enc := f s.enc })

/-! ### Dials and tags -/

/-- The dials after a beat; where hit points decide they stand still. -/
def moveDials (side : ActorSide) (deltas : ResolvedDeltas) (enc : StructuredEncounter) :
    StructuredEncounter :=
  if enc.winCondition = .hpDepletion then enc
  else if side = .player then
    { enc with playerMetric := enc.playerMetric.advance deltas.own
               opponentMetric := enc.opponentMetric.advance deltas.opponent }
  else
    { enc with opponentMetric := enc.opponentMetric.advance deltas.own
               playerMetric := enc.playerMetric.advance deltas.opponent }

/-- One more tag; its leverage is not negative, and it has a text. -/
def appendTag (actor : EncounterActor) (turn : Int) (text : Option String) (leverage : Int)
    (fleeting : Bool) : BeatM ι PUnit :=
  match text with
  | none => throw .badTag
  | some text =>
    if leverage < 0 then throw .badTag
    else modifyEnc (fun enc => { enc with tags := enc.tags ++ [{
      text := text, createdBy := actor.name, target := enc.oppositeSideFirstActor actor.side,
      leverage := leverage, fleeting := fleeting, createdTurn := turn }] })

/-- A backfire, or else the tag that is granted; and a fleeting one, unless it backfired. -/
def grantTags (actor : EncounterActor) (beat : BeatDef) (turn : Int) (deltas : ResolvedDeltas) :
    BeatM ι PUnit := do
  if deltas.tagBackfire then appendTag actor turn beat.targetTag 1 true
  else if (present deltas.grantsTag).isSome then
    appendTag actor turn deltas.grantsTag
      (if deltas.tagLeverage = 0 then 1 else deltas.tagLeverage) false
  if (present deltas.grantsFleetingTag).isSome ∧ deltas.tagBackfire = false then
    appendTag actor turn deltas.grantsFleetingTag 1 true

/-! ### Debits of edge -/

/-- The resolver of names to creatures. -/
abbrev EdgeResolver (ι : Type) := String → Option ι

/-- The creatures after one of them has lost so much. -/
def hurt (cores : ι → CreatureCore) (ref : ι) (amount : Int) : ι → CreatureCore :=
  Function.update cores ref { cores ref with hp := (cores ref).hp.applyDelta (-amount) }

variable (edgeResolver : EdgeResolver ι)

/-- Debit a name's creature; the break that is known so far, or this one. -/
def debit (amount : Int) (composureBreak : Option String) (name : String) :
    BeatM ι (Option String) := do
  match edgeResolver name with
  | none => throw (.noCore name)
  | some ref => do
    modify (fun s => { s with cores := hurt s.cores ref amount })
    let s ← get
    pure (composureBreak.or (if (s.cores ref).hp.current ≤ 0 then some name else none))

/-- Whom a hit meant for one of several lands on, and the taunt after it. -/
def redirect (live : List String) (taunt : TauntState) (name : String) : String × TauntState :=
  match taunt.activeActor with
  | none => (name, taunt)
  | some taunter =>
    if taunter ≠ "" ∧ name ≠ taunter ∧ taunter ∈ live then
      let consumed := taunt.tryConsumeRedirect
      (if consumed.1 then taunter else name, consumed.2)
    else (name, taunt)

/-- One hit of a debit that is spread. -/
def spreadHit (live : List String) (amount : Int) (composureBreak : Option String) (name : String) :
    BeatM ι (Option String) := do
  let s ← get
  let redirected := redirect live s.enc.taunt name
  modifyEnc (fun enc => { enc with taunt := redirected.2 })
  debit edgeResolver amount composureBreak redirected.1

/-- The debit of the other side: spread over all of it, or on one of it. -/
def targetDebits (actor : EncounterActor) (beat : BeatDef) (targetEdgeDelta : Int)
    (composureBreak : Option String) : BeatM ι (Option String) := do
  let s ← get
  if beat.targetSelect = some .spread then
    let live := s.enc.oppositeSideLiveActors actor.side
    let perTarget := targetEdgeDelta / live.length
    if live ≠ [] ∧ 0 < perTarget then
      live.foldlM (spreadHit edgeResolver live perTarget) composureBreak
    else pure composureBreak
  else
    match s.enc.oppositeSideFirstActor actor.side with
    | some name => debit edgeResolver targetEdgeDelta composureBreak name
    | none => pure composureBreak

/-- All debits of a beat, and whose composure broke first. -/
def edgeDebits (edgeResolver : Option (EdgeResolver ι)) (actor : EncounterActor) (beat : BeatDef) :
    BeatM ι (Option String) := do
  let selfEdgeDelta := beat.edgeDelta.getD 0
  let targetEdgeDelta := beat.targetEdgeDelta.getD 0
  if selfEdgeDelta = 0 ∧ targetEdgeDelta = 0 then pure none
  else
    match edgeResolver with
    | none => throw (.noEdgeResolver beat.id)
    | some edgeResolver => do
      let composureBreak ←
        if selfEdgeDelta ≠ 0 then debit edgeResolver selfEdgeDelta none actor.name else pure none
      if targetEdgeDelta ≠ 0 then targetDebits edgeResolver actor beat targetEdgeDelta composureBreak
      else pure composureBreak

/-! ### The strike -/

/-- What is taken off a strike: by the beat, or by the first armor its target carries. -/
def mitigationOf (beat : BeatDef) (target : CreatureCore) : Int :=
  match beat.mitigationOverride with
  | some mitigation => mitigation
  | none => (target.items.findSome? (·.mitigation)).getD 0

/-- Damage on the strike channel, on the primary target if its creature is known; the hit points
    that it removed. -/
def strikeChannel (edgeResolver : Option (EdgeResolver ι)) (damageResolver : Option Int)
    (actor : EncounterActor) (beat : BeatDef) : BeatM ι Int := do
  let s ← get
  match damageResolver, edgeResolver, s.enc.oppositeSideFirstActor actor.side with
  | some damageTotal, some edgeResolver, some name =>
    match edgeResolver name with
    | some ref =>
      let applied := mitigated damageTotal (mitigationOf beat (s.cores ref))
      if beat.damageChannel = .strike ∧ applied ≠ 0 then do
        set { s with cores := hurt s.cores ref applied }
        pure ((s.cores ref).hp.current - (hurt s.cores ref applied ref).hp.current)
      else pure 0
    | none => pure 0
  | _, _, _ => pure 0

/-! ### The end of an encounter -/

/-- The hit points of a name. -/
def hpOf (cores : ι → CreatureCore) (name : String) : Option Int :=
  (edgeResolver name).map (fun ref => (cores ref).hp.current)

def composureOutcome (name : String) : String := "composure_break:" ++ name

def resolutionOutcome (beatId : String) : String := "resolution_beat:" ++ beatId

/-- The win check on hit points, where they decide. -/
def depletion (edgeResolver : Option (EdgeResolver ι)) (s : BeatState ι) : Option Depletion :=
  if s.enc.winCondition = .hpDepletion ∧ s.enc.resolved = false then
    edgeResolver.bind (fun edgeResolver => hpDepletion s.enc.actors (hpOf edgeResolver s.cores))
  else none

/-- How the encounter ends with a beat, if it does: by composure, on hit points, by a dial, the
    player's first, or by the beat. -/
def ending (edgeResolver : Option (EdgeResolver ι)) (beat : BeatDef) (deltas : ResolvedDeltas)
    (composureBreak : Option String) (s : BeatState ι) : Option String :=
  match composureBreak, depletion edgeResolver s with
  | some name, _ => some (composureOutcome name)
  | none, some depletion => some depletion.outcome
  | none, none =>
    if s.enc.winCondition ≠ .hpDepletion ∧ s.enc.playerMetric.met then some "player_victory"
    else if s.enc.winCondition ≠ .hpDepletion ∧ s.enc.opponentMetric.met then
      some "opponent_victory"
    else if deltas.resolution ∨ beat.resolution = some true then some (resolutionOutcome beat.id)
    else none

/-- The encounter takes another beat, in the phase for it. -/
def countBeat (enc : StructuredEncounter) : StructuredEncounter :=
  { enc with beat := enc.beat + 1, structuredPhase := some (phaseForBeat (enc.beat + 1)) }

/-- The taunt of an actor that did not fail at it. -/
def taunted (actor : EncounterActor) (beat : BeatDef) (outcome : RollOutcome)
    (enc : StructuredEncounter) : StructuredEncounter :=
  if beat.id = "taunt" ∧ outcome ≠ .fail ∧ outcome ≠ .critFail then
    { enc with taunt := TauntState.activate actor.name }
  else enc

/-- The encounter as it ends, if it does. -/
def resolved? (ending : Option String) (enc : StructuredEncounter) : StructuredEncounter :=
  match ending with
  | some outcome => enc.resolve outcome
  | none => enc

/-! ### Beats that are applied -/

/-- Why a beat is skipped, if it is. -/
def skipReason (enc : StructuredEncounter) (actor : EncounterActor) : Option String :=
  if enc.resolved then some "encounter_resolved"
  else if actor.side = .neutral then some "neutral_actor"
  else if actor.withdrawn then some "withdrawn_actor"
  else if enc.winCondition = .fateConflict then some "fate_conflict_suppressed"
  else none

/-- The readout of a side's last beat. -/
def stampImpact (side : ActorSide) (impact : BeatImpact) (enc : StructuredEncounter) :
    StructuredEncounter :=
  { enc with lastBeatImpacts := enc.lastBeatImpacts.insert side impact }

/-- The readout, once it is known that hit points were removed, where they decide. -/
def stampHpRemoved (side : ActorSide) (deltas : ResolvedDeltas) (hpRemoved : Int)
    (enc : StructuredEncounter) : StructuredEncounter :=
  if enc.winCondition = .hpDepletion ∧ 0 < hpRemoved then
    stampImpact side (describeBeatImpact deltas true hpRemoved) enc
  else enc

/-- Count the beat, let it taunt, and end the encounter if it ends. -/
def finishBeat (edgeResolver : Option (EdgeResolver ι)) (actor : EncounterActor) (beat : BeatDef)
    (outcome : RollOutcome) (deltas : ResolvedDeltas) (composureBreak : Option String) :
    BeatM ι Bool := do
  modifyEnc (fun enc => taunted actor beat outcome (countBeat enc))
  let s ← get
  let ending := ending edgeResolver beat deltas composureBreak s
  modifyEnc (resolved? ending)
  pure ending.isSome

/-- **Apply one beat** at one outcome. -/
def applyBeat (edgeResolver : Option (EdgeResolver ι)) (damageResolver : Option Int) (turn : Int)
    (actor : EncounterActor) (beat : BeatDef) (outcome : RollOutcome) : BeatM ι ApplyResult := do
  let start ← get
  match skipReason start.enc actor with
  | some reason => pure { skippedReason := some reason }
  | none => do
    let deltas ← ofExcept (resolveTierDeltas beat.kind beat.base outcome beat.deltas beat.targetTag)
    let impact := describeBeatImpact deltas (decide (start.enc.winCondition = .hpDepletion)) 0
    modifyEnc (stampImpact actor.side impact)
    modifyEnc (moveDials actor.side deltas)
    grantTags actor beat turn deltas
    let composureBreak ← edgeDebits edgeResolver actor beat
    let hpRemoved ← strikeChannel edgeResolver damageResolver actor beat
    modifyEnc (stampHpRemoved actor.side deltas hpRemoved)
    let resolved ← finishBeat edgeResolver actor beat outcome deltas composureBreak
    pure { deltas := some deltas, resolved := resolved, impact := some impact,
           hpRemoved := hpRemoved }

end Sidequest.Beat
