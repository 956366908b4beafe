import Sidequest.Lib.DepthFirst
import Sidequest.Lib.Dict
import Sidequest.Lib.Effect
import Sidequest.Lib.First
import Sidequest.Lib.PyNumber
import Sidequest.Lib.PyValue

namespace Sidequest.Agents

open Lib

/-!
# The dispatch bank

A dispatch package holds what the intent router read out of the players' actions: dispatches to
subsystems, each under an idempotency key and with the keys it depends on. The bank sorts them by
their dependencies and attempts one after the other; an attempt runs the subsystem's handler, or
degrades to a hint for the narrator, or finds no handler.

* `SubsystemDispatch`, `DispatchPackage`, `BankResult` — what the bank reads and returns;
* `runDispatchBank_order` — what is attempted, and in which order.
-/

/-! ### Packages and results -/

/-- How well somebody perceives what a tag is on. -/
inductive PerceptionFidelity where
  | full
  | audioOnly
  | audioOnlyMuffled
  | visualOnly
  | peripheryOnly
  | inferredFromAftermath

/-- Who may perceive something. Without a list of recipients it is visible to all. -/
structure VisibilityTag where
  visibleTo : Option (List String) := none
  perceptionFidelity : Dict String PerceptionFidelity := Dict.empty
  secretsFor : List String := []
  redactFromNarratorCanonical : Bool := false

/-- One dispatch to a subsystem. -/
structure SubsystemDispatch where
  subsystem : String
  params : PyDict := []
  dependsOn : List String := []
  idempotencyKey : String
  visibility : VisibilityTag := {}
  confidence : ℚ

inductive NarratorDirectiveKind where
  | mustNarrate
  | mustNotNarrate
  | distinctiveDetailForReferent
  | canonicalOnlyDoNotRevealToOthers

/-- An instruction to the narrator. -/
structure NarratorDirective where
  kind : NarratorDirectiveKind
  payload : String
  visibility : VisibilityTag := {}

/-- What the router read out of one player's action. -/
structure PlayerDispatch where
  dispatch : List SubsystemDispatch := []
  narratorInstructions : List NarratorDirective := []

/-- What the router read out of an action between players. -/
structure CrossAction where
  dispatch : List SubsystemDispatch := []

structure DispatchPackage where
  perPlayer : List PlayerDispatch := []
  crossPlayer : List CrossAction := []

/-- What a handler returns. -/
structure SubsystemOutput where
  directives : List NarratorDirective := []
  data : PyDict := []

/-- What became of an attempt. -/
inductive DecisionKind where
  | engaged
  | degradedToHint
  | unknownSubsystem

/-- The audit entry of an attempt. -/
structure DecisionEntry where
  (subsystem idempotencyKey : String)
  (confidence threshold : ℚ)
  decision : DecisionKind := .engaged
  params : PyDict
  normalizedFrom : Option String
  error : Option String := none

/-- What was caught: a circle of dependencies, with a key on it, or what a handler raised. -/
inductive BankError (ε : Type) where
  | cycle (key : String)
  | raised (e : ε)

structure BankResult (ε : Type) where
  directives : List NarratorDirective := []
  outputsByKey : Dict String SubsystemOutput := Dict.empty
  errors : List (String × BankError ε) := []
  decisions : List DecisionEntry := []

/-- What the bank runs with: the registry of handlers, the rules of the pack, and the texts of
    values. -/
structure Bank (ε σ : Type) where
  registry : String → Option (SubsystemDispatch → Effect ε σ SubsystemOutput)
  confrontations : List String := []
  dispatchConfidenceThresholds : Option (Dict String ℚ) := none
  typeName : ε → String
  str : PyValue → String

variable {ε σ : Type}

/-! ### The bank -/

def defaultDispatchConfidenceThreshold : ℚ := 3 / 5

def Bank.thresholdFor (bank : Bank ε σ) (subsystem : String) : ℚ :=
  match bank.dispatchConfidenceThresholds with
  | some thresholds => (thresholds.get? subsystem).getD defaultDispatchConfidenceThreshold
  | none => defaultDispatchConfidenceThreshold

def Bank.confrontationTypes (bank : Bank ε σ) : List String := bank.confrontations.filter (· ≠ "")

/-- Whether the subsystem of a dispatch is in truth a type of confrontation. -/
def Bank.isConfrontationType (bank : Bank ε σ) (d : SubsystemDispatch) : Bool :=
  d.subsystem ≠ "confrontation" && (bank.registry d.subsystem).isNone &&
    decide (d.subsystem ∈ bank.confrontationTypes)

variable (d : SubsystemDispatch)

/-- The dispatch to the confrontation subsystem that was meant. -/
def toConfrontation : SubsystemDispatch :=
  { d with
    subsystem := "confrontation"
    params := PyDict.setDefault d.params "type" (.str d.subsystem) }

/-- One dispatch of the list: where there is a slip it is repaired and noted. -/
def Bank.normalizeOne (bank : Bank ε σ) (p : List SubsystemDispatch × Dict String String)
    (d : SubsystemDispatch) : List SubsystemDispatch × Dict String String :=
  if bank.isConfrontationType d then
    (p.1 ++ [toConfrontation d], p.2.insert d.idempotencyKey d.subsystem)
  else (p.1 ++ [d], p.2)

/-- The dispatches with the slips repaired, and what the repaired ones were addressed to. -/
def Bank.normalizeConfrontationTypeSubsystems (bank : Bank ε σ)
    (dispatches : List SubsystemDispatch) : List SubsystemDispatch × Dict String String :=
  if bank.confrontationTypes = [] then (dispatches, Dict.empty)
  else dispatches.foldl bank.normalizeOne ([], Dict.empty)

/-- The number with two decimal places. -/
def twoPlaces (q : ℚ) : String :=
  let hundredths := (roundHalfEven (q * 100)).natAbs
  (if q < 0 then "-" else "") ++ toString (hundredths / 100) ++ "." ++
    (if hundredths % 100 < 10 then "0" else "") ++ toString (hundredths % 100)

/-- What the narrator is told where the router was not sure enough. -/
def hintFor (threshold : ℚ) : NarratorDirective :=
  { kind := .mustNarrate
    payload := "The player's action suggested the " ++ d.subsystem ++
      " subsystem, but the intent router's confidence (" ++ twoPlaces d.confidence ++
      ") was below the engagement threshold (" ++ twoPlaces threshold ++
      "). Narrate the attempt naturally; do NOT treat the " ++ d.subsystem ++
      " engine as having fired."
    visibility := d.visibility }

/-- The error code a handler returned, if it is truthy. -/
def Bank.errorCode (bank : Bank ε σ) (out : SubsystemOutput) : Option String :=
  if (PyDict.getD out.data "error").truthy then some (bank.str (PyDict.getD out.data "error"))
  else none

/-- The audit entry of an attempt, before it is known what becomes of it. -/
def Bank.entryFor (bank : Bank ε σ) (normalized : Dict String String) (d : SubsystemDispatch) :
    DecisionEntry :=
  { subsystem := d.subsystem
    idempotencyKey := d.idempotencyKey
    confidence := d.confidence
    threshold := bank.thresholdFor d.subsystem
    params := d.params
    normalizedFrom := normalized.get? d.idempotencyKey }

/-- Attempt one dispatch. What a handler changed before it raised stays changed. -/
def Bank.attempt (bank : Bank ε σ) (normalized : Dict String String)
    (r : BankResult ε × σ) (d : SubsystemDispatch) : BankResult ε × σ :=
  let entry := bank.entryFor normalized d
  if d.confidence < bank.thresholdFor d.subsystem then
    ({ r.1 with
       decisions := r.1.decisions ++ [{ entry with decision := .degradedToHint }]
       directives := r.1.directives ++ [hintFor d (bank.thresholdFor d.subsystem)] }, r.2)
  else match bank.registry d.subsystem with
    | none =>
      ({ r.1 with decisions := r.1.decisions ++ [{ entry with decision := .unknownSubsystem }] },
        r.2)
    | some fn => match (fn d).exec r.2 with
      | (.error e, world) =>
        ({ r.1 with
           decisions := r.1.decisions ++ [{ entry with error := some (bank.typeName e) }]
           errors := r.1.errors ++ [(d.idempotencyKey, .raised e)] }, world)
      | (.ok out, world) =>
        ({ r.1 with
           decisions := r.1.decisions ++ [{ entry with error := bank.errorCode out }]
           outputsByKey := r.1.outputsByKey.insert d.idempotencyKey out
           directives := r.1.directives ++ out.directives }, world)

/-- Attempt dispatches one after the other, no key twice. -/
def Bank.attemptAll (bank : Bank ε σ) (normalized : Dict String String) :
    List String → List SubsystemDispatch → BankResult ε × σ → BankResult ε × σ
  | _, [], r => r
  | seen, d :: rest, r =>
    if d.idempotencyKey ∈ seen then bank.attemptAll normalized seen rest r
    else bank.attemptAll normalized (d.idempotencyKey :: seen) rest (bank.attempt normalized r d)

/-- Every dispatch of a package. -/
def DispatchPackage.allDispatches (package : DispatchPackage) : List SubsystemDispatch :=
  package.perPlayer.flatMap PlayerDispatch.dispatch ++
    package.crossPlayer.flatMap CrossAction.dispatch

/-- The directives that were in the package. -/
def DispatchPackage.authored (package : DispatchPackage) : List NarratorDirective :=
  package.perPlayer.flatMap PlayerDispatch.narratorInstructions

/-- `by_key`: the last dispatch under each key. -/
def byKey (dispatches : List SubsystemDispatch) : String → Option SubsystemDispatch :=
  lastBy SubsystemDispatch.idempotencyKey dispatches

/-- Sort by dependencies. The search is never deeper than there are dispatches. -/
def bankOrder (dispatches : List SubsystemDispatch) : Except String (List SubsystemDispatch) :=
  topoSort (byKey dispatches) SubsystemDispatch.dependsOn (dispatches.length + 1)
    (dispatches.map SubsystemDispatch.idempotencyKey)

/-- Execute every dispatch of a package. -/
def Bank.runDispatchBank (bank : Bank ε σ) (package : DispatchPackage) (world : σ) :
    BankResult ε × σ :=
  let (dispatches, normalized) := bank.normalizeConfrontationTypeSubsystems package.allDispatches
  if dispatches = [] then ({ directives := package.authored }, world)
  else match bankOrder dispatches with
    | .error key =>
      ({ errors := [("__bank__", .cycle key)], directives := package.authored }, world)
    | .ok ordered =>
      let (result, world) := bank.attemptAll normalized [] ordered ({}, world)
      ({ result with directives := result.directives ++ package.authored }, world)

/-! ### What depends on what -/

/-- One key of a package depends on another one; a key stands for the last dispatch under it. -/
def DispatchPackage.DependsOn (package : DispatchPackage) : String → String → Prop :=
  Lib.DependsOn (byKey package.allDispatches) SubsystemDispatch.dependsOn

/-- Repair one dispatch, if there is a slip. -/
def Bank.repair (bank : Bank ε σ) (d : SubsystemDispatch) : SubsystemDispatch :=
  if bank.isConfrontationType d then toConfrontation d else d

variable (bank : Bank ε σ)

@[simp] theorem idempotencyKey_repair : (bank.repair d).idempotencyKey = d.idempotencyKey := by
  unfold Bank.repair
  split <;> rfl

@[simp] theorem dependsOn_repair : (bank.repair d).dependsOn = d.dependsOn := by
  unfold Bank.repair
  split <;> rfl

theorem fst_foldl_normalizeOne (l : List SubsystemDispatch)
    (p : List SubsystemDispatch × Dict String String) :
    (l.foldl bank.normalizeOne p).1 = p.1 ++ l.map bank.repair := by
  induction l generalizing p with
  | nil => simp
  | cons d l ih =>
    have hone : (bank.normalizeOne p d).1 = p.1 ++ [bank.repair d] := by
      unfold Bank.normalizeOne Bank.repair
      split <;> rfl
    rw [List.foldl_cons, ih, hone, List.map_cons, List.append_assoc]
    rfl

/-- The slips are repaired where they stand. -/
theorem fst_normalize (dispatches : List SubsystemDispatch) :
    (bank.normalizeConfrontationTypeSubsystems dispatches).1 = dispatches.map bank.repair := by
  unfold Bank.normalizeConfrontationTypeSubsystems
  split
  · rename_i htypes
    -- without types of confrontations there are no slips
    have hnone : bank.repair = id := by
      funext d
      simp [Bank.repair, Bank.isConfrontationType, htypes]
    rw [hnone, List.map_id]
  · rw [fst_foldl_normalizeOne]
    rfl

theorem byKey_map_repair (dispatches : List SubsystemDispatch) (k : String) :
    byKey (dispatches.map bank.repair) k = (byKey dispatches k).map bank.repair := by
  unfold byKey lastBy
  rw [← List.map_reverse, List.find?_map]
  congr 2
  funext d
  simp

/-- A repair changes no dependency. -/
theorem dependsOn_map_repair (package : DispatchPackage) :
    Lib.DependsOn (byKey (package.allDispatches.map bank.repair)) SubsystemDispatch.dependsOn
      = package.DependsOn := by
  funext k k'
  unfold DispatchPackage.DependsOn Lib.DependsOn NeedsKey
  simp [byKey_map_repair]

/-! ### The order of the attempts -/

theorem key_of_byKey {dispatches : List SubsystemDispatch} (k : String) (d : SubsystemDispatch)
    (h : byKey dispatches k = some d) : d.idempotencyKey = k := (key_of_lastBy h).2

theorem mem_keys_of_byKey {dispatches : List SubsystemDispatch} (k : String) (d : SubsystemDispatch)
    (h : byKey dispatches k = some d) : k ∈ dispatches.map SubsystemDispatch.idempotencyKey := by
  rw [← key_of_byKey k d h]
  exact List.mem_map_of_mem (key_of_lastBy h).1

/-- The handler that an attempt of a dispatch runs, if the router was sure enough and there is
    one. -/
def Bank.handlerOf (d : SubsystemDispatch) :
    Option (SubsystemDispatch → Effect ε σ SubsystemOutput) :=
  if d.confidence < bank.thresholdFor d.subsystem then none else bank.registry d.subsystem

/-- What an attempt does to the world: what its handler does, if it runs one. -/
def Bank.worldAfter (world : σ) (d : SubsystemDispatch) : σ :=
  match bank.handlerOf d with
  | none => world
  | some fn => ((fn d).exec world).2

/-- The handlers' returns along a list of attempts, each in the world that the ones before it left. -/
def Bank.returns (bank : Bank ε σ) :
    List SubsystemDispatch → σ → List (String × Except ε SubsystemOutput)
  | [], _ => []
  | d :: rest, world =>
    ((bank.handlerOf d).map (fun fn => (d.idempotencyKey, ((fn d).exec world).1))).toList ++
      bank.returns rest (bank.worldAfter world d)

/-- The error of a handler that raised. -/
def raisedError (c : String × Except ε SubsystemOutput) : Option (String × BankError ε) :=
  match c.2 with
  | .error e => some (c.1, .raised e)
  | .ok _ => none

/-- The outputs with that of a handler that returned. -/
def putOutput (outputs : Dict String SubsystemOutput) (c : String × Except ε SubsystemOutput) :
    Dict String SubsystemOutput :=
  match c.2 with
  | .error _ => outputs
  | .ok out => outputs.insert c.1 out

/-- The dispatches `l` were attempted one after the other from `r` on: there is an audit entry of
    each, the handlers ran on the world in this order, and what they returned was kept. -/
structure Bank.Attempted (l : List SubsystemDispatch) (r r' : BankResult ε × σ) : Prop where
  audited : r'.1.decisions.map DecisionEntry.idempotencyKey
    = r.1.decisions.map DecisionEntry.idempotencyKey ++ l.map SubsystemDispatch.idempotencyKey
  world : r'.2 = l.foldl bank.worldAfter r.2
  errors : r'.1.errors = r.1.errors ++ (bank.returns l r.2).filterMap raisedError
  outputs : r'.1.outputsByKey = (bank.returns l r.2).foldl putOutput r.1.outputsByKey

theorem Bank.Attempted.nil (r : BankResult ε × σ) : bank.Attempted [] r r :=
  ⟨by simp, rfl, by simp [Bank.returns], rfl⟩

/-- **One attempt** runs the handler, if any, and keeps what it returned. -/
theorem Bank.attempted_attempt (normalized : Dict String String) (r : BankResult ε × σ)
    (d : SubsystemDispatch) : bank.Attempted [d] r (bank.attempt normalized r d) := by
  unfold Bank.attempt
  by_cases hsure : d.confidence < bank.thresholdFor d.subsystem
  · have hnone : bank.handlerOf d = none := if_pos hsure
    rw [if_pos hsure]
    exact ⟨by simp [Bank.entryFor], by simp [Bank.worldAfter, hnone],
      by simp [Bank.returns, hnone], by simp [Bank.returns, hnone]⟩
  · have hhandler : bank.handlerOf d = bank.registry d.subsystem := if_neg hsure
    rw [if_neg hsure]
    cases hfn : bank.registry d.subsystem with
    | none =>
      rw [hfn] at hhandler
      exact ⟨by simp [Bank.entryFor], by simp [Bank.worldAfter, hhandler],
        by simp [Bank.returns, hhandler], by simp [Bank.returns, hhandler]⟩
    | some fn =>
      rw [hfn] at hhandler
      rcases hexec : (fn d).exec r.2 with ⟨e | out, world⟩ <;>
      · dsimp only
        rw [hexec]
        exact ⟨by simp [Bank.entryFor], by simp [Bank.worldAfter, hhandler, hexec],
          by simp [Bank.returns, hhandler, hexec, raisedError],
          by simp [Bank.returns, hhandler, hexec, putOutput]⟩

/-- Attempts follow on attempts. -/
theorem Bank.Attempted.cons {d : SubsystemDispatch} {l : List SubsystemDispatch}
    {r r' r'' : BankResult ε × σ} (hd : bank.Attempted [d] r r') (hl : bank.Attempted l r' r'') :
    bank.Attempted (d :: l) r r'' := by
  have hworld : r'.2 = bank.worldAfter r.2 d := hd.world
  have hreturns : bank.returns (d :: l) r.2 = bank.returns [d] r.2 ++ bank.returns l r'.2 := by
    simp [Bank.returns, hworld]
  refine ⟨?_, ?_, ?_, ?_⟩
  · rw [hl.audited, hd.audited, List.append_assoc]
    rfl
  · rw [hl.world, hworld, List.foldl_cons]
  · rw [hl.errors, hd.errors, hreturns, List.filterMap_append, List.append_assoc]
  · rw [hl.outputs, hd.outputs, hreturns, List.foldl_append]

/-- **The attempts of a list** whose keys are all different: each of them, in order. -/
theorem Bank.attempted_attemptAll (normalized : Dict String String) (seen : List String)
    (l : List SubsystemDispatch) (r : BankResult ε × σ)
    (hnodup : (l.map SubsystemDispatch.idempotencyKey).Nodup)
    (hfresh : ∀ d ∈ l, d.idempotencyKey ∉ seen) :
    bank.Attempted l r (bank.attemptAll normalized seen l r) := by
  induction l generalizing seen r with
  | nil => exact Bank.Attempted.nil bank r
  | cons d l ih =>
    rw [List.map_cons, List.nodup_cons] at hnodup
    rw [Bank.attemptAll, if_neg (hfresh d (.head _))]
    refine (bank.attempted_attempt normalized r d).cons bank (ih _ _ hnodup.2 ?_)
    intro e he hseen
    rcases List.mem_cons.mp hseen with hsame | hseen
    · apply hnodup.1
      rw [← hsame]
      exact List.mem_map_of_mem he
    · exact hfresh e (.tail d he) hseen

/-- What is attempted, in order: the sorted dispatches, or nothing. -/
theorem Bank.attempted_runDispatchBank (package : DispatchPackage) (world : σ)
    (hnodup : ∀ order, bankOrder (package.allDispatches.map bank.repair) = .ok order →
      (order.map SubsystemDispatch.idempotencyKey).Nodup) :
    (∀ key, bankOrder (package.allDispatches.map bank.repair) = .error key →
      bank.runDispatchBank package world =
        ({ errors := [("__bank__", .cycle key)], directives := package.authored }, world)) ∧
    ∀ order, bankOrder (package.allDispatches.map bank.repair) = .ok order →
      bank.Attempted order ({}, world) (bank.runDispatchBank package world) := by
  unfold Bank.runDispatchBank
  have hfst := fst_normalize bank package.allDispatches
  revert hfst
  cases bank.normalizeConfrontationTypeSubsystems package.allDispatches with
  | mk dispatches normalized =>
    rintro rfl
    dsimp only
    by_cases hempty : package.allDispatches.map bank.repair = []
    · rw [if_pos hempty, hempty]
      refine ⟨fun key h => ?_, fun order h => ?_⟩
      · cases h
      · cases h
        exact ⟨rfl, rfl, rfl, rfl⟩
    · rw [if_neg hempty]
      refine ⟨fun key h => by rw [h], fun order horder => ?_⟩
      rw [horder]
      obtain ⟨haudited, hworld, herrors, houtputs⟩ := bank.attempted_attemptAll normalized []
        order ({}, world) (hnodup order horder) (fun _ _ => List.not_mem_nil)
      exact ⟨haudited, hworld, herrors, houtputs⟩

/-- **The order of the attempts.** The handlers run on the last dispatches under their keys, on no
    key twice and on none before a key it depends on; on all, if no key depends on itself. Otherwise
    none runs, and nothing but the circle is reported. -/
theorem runDispatchBank_order (bank : Bank ε σ) (package : DispatchPackage) (world : σ) :
    ((∃ k, Relation.TransGen package.DependsOn k k) →
      ∃ key, bank.runDispatchBank package world =
        ({ errors := [("__bank__", .cycle key)], directives := package.authored }, world)) ∧
    ((∀ k, ¬ Relation.TransGen package.DependsOn k k) →
      ∃ order, bank.Attempted order ({}, world) (bank.runDispatchBank package world) ∧
        (order.map SubsystemDispatch.idempotencyKey).Nodup ∧
        (∀ d ∈ order, ∃ last, byKey package.allDispatches d.idempotencyKey = some last ∧
          d = bank.repair last) ∧
        (∀ pre d post, order = pre ++ d :: post →
          ∀ k', Relation.TransGen package.DependsOn d.idempotencyKey k' →
            k' ∈ pre.map SubsystemDispatch.idempotencyKey) ∧
        ∀ d ∈ package.allDispatches,
          d.idempotencyKey ∈ order.map SubsystemDispatch.idempotencyKey) := by
  obtain ⟨hraised, hsorted⟩ := topoSort_spec (byKey (package.allDispatches.map bank.repair))
    SubsystemDispatch.dependsOn key_of_byKey mem_keys_of_byKey
    (by simp : _ < (package.allDispatches.map bank.repair).length + 1)
  rw [dependsOn_map_repair] at hraised hsorted
  obtain ⟨hcyclic, hattempted⟩ := bank.attempted_runDispatchBank package world
    (fun order horder => (hsorted order horder).2.1)
  cases horder : bankOrder (package.allDispatches.map bank.repair) with
  | error key =>
    obtain ⟨k, hcircle⟩ := hraised key horder
    exact ⟨fun _ => ⟨key, hcyclic key horder⟩, fun h => absurd hcircle (h k)⟩
  | ok order =>
    obtain ⟨hacyclic, hnodup, hnamed, hall, hbehind⟩ := hsorted order horder
    refine ⟨fun ⟨k, hcircle⟩ => absurd hcircle (hacyclic k), fun _ =>
      ⟨order, hattempted order horder, hnodup, fun d hd => ?_, hbehind, fun d hd => ?_⟩⟩
    · have hlast := hnamed d hd
      rw [byKey_map_repair, Option.map_eq_some_iff] at hlast
      obtain ⟨last, hlast, hrepair⟩ := hlast
      exact ⟨last, hlast, hrepair.symm⟩
    · obtain ⟨last, hlast⟩ : ∃ last, byKey (package.allDispatches.map bank.repair)
          (bank.repair d).idempotencyKey = some last := exists_lastBy (List.mem_map_of_mem hd)
      rw [idempotencyKey_repair] at hlast
      rw [← key_of_byKey _ _ hlast]
      exact List.mem_map_of_mem (hall _ _ hlast)

end Sidequest.Agents
