import Sidequest.Lib.Dict
import Sidequest.Lib.Run

namespace Sidequest.Mutation

open Lib

/-!
# Acquiring mutations

* `CharacterMutationState`, `MutationCatalog` — the mutation points and ids of an actor, and what
  the catalogue says of them; the dice are any function into `1..sides`;
* `acquireRandomNegative`, `acquirePositive`, `rollStigma` — the operations that earn and spend;
* `Moves`, `acquisition_spec` — everything an operation can do, and what every run keeps.
-/

/-- A visible mark: on which part of the body, of what nature, and how it looks. -/
structure StigmaRecord where
  (bodyPart nature flavor : String)
  concealable : Bool := false

/-- How often the uses of a mutation come back. -/
inductive UsagePeriod
  | perScene
  | perDay
  deriving DecidableEq

/-- The uses of a mutation since they last came back. -/
structure UsageCounter where
  period : UsagePeriod
  used : Int := 0

/-- The mutations of one actor, and the mutation points it has to spend. -/
structure CharacterMutationState where
  mpRemaining : Int
  stigma : List StigmaRecord := []
  negativeIds : List String := []
  positiveIds : List String := []
  usage : Dict String UsageCounter := .empty
  acquisitionLog : List String := []

/-- The mutations of all actors, and how many dice were rolled for them. -/
structure MutationState where
  characters : Dict String CharacterMutationState
  rollSequence : Int := 0

/-- The save that a mutation allows, and what a success does. -/
structure SaveVs where
  stat : Option String := none
  effect : String := "negates"

/-- `usage` is `none` for a mutation at will. -/
structure PositiveMutationDef where
  (id category : String)
  effect : String := ""
  strainCost : Nat := 0
  usage : Option UsagePeriod := none
  usesPerPeriod : Int := 1
  save : Option SaveVs := none

/-- A negative mutation, with the faces of the die that stand for it. -/
structure NegativeMutationDef where
  id : String
  rollRange : Nat × Nat

/-- The prices of the catalogue, in mutation points. -/
structure MpEconomy where
  perNegativeMp : Int := 2
  maxNegatives : Int := 3
  concealableStigmaCost : Int := 1
  spendRandomPositive : Int := 1
  spendPickPositive : Int := 3
  spendSameCategory : Int := 3

/-- The tables of a validated catalogue have six, six and twelve entries. -/
structure StigmaTables where
  (bodyPart nature : Fin 6 → String)
  flavor : Fin 12 → String

/-- What a genre pack says of mutations. -/
structure MutationCatalog where
  mpEconomy : MpEconomy
  stigma : StigmaTables
  negatives : List NegativeMutationDef
  positives : List PositiveMutationDef

/-- What the operations raise. -/
inductive AcquireError
  | unknownActor (actor : String) (known : List String)
  | unknownPositive (mutationId : String) (known : List String)
  | noNegativeRange (roll : Nat)
  | dedupeExhausted (actor : String) (owned table : List String)

/-- What came of an operation, for the narrator and the dashboard. -/
structure AcquireResult where
  applied : Bool
  actor : String
  mutationId : String := ""
  roll : Nat := 0
  mpDelta : Int := 0
  mpRemaining : Int
  reason : String := ""

namespace MutationCatalog

variable (catalog : MutationCatalog)

/-- The positive mutation with an id. The error names the ids there are. -/
def positiveById (mutationId : String) : Except AcquireError PositiveMutationDef :=
  match catalog.positives.find? (·.id = mutationId) with
  | some m => .ok m
  | none => .error (.unknownPositive mutationId
      ((catalog.positives.map PositiveMutationDef.id).mergeSort (· ≤ ·)))

/-- The first negative mutation whose range has the roll in it. -/
def negativeForRoll (roll : Nat) : Except AcquireError NegativeMutationDef :=
  match catalog.negatives.find? (fun m => m.rollRange.1 ≤ roll ∧ roll ≤ m.rollRange.2) with
  | some m => .ok m
  | none => .error (.noNegativeRange roll)

end MutationCatalog

/-- `deterministic_roll`, less one: session, actor, purpose and sequence give a face of the die. -/
abbrev Dice := String → String → String → Int → (sides : Nat) → 0 < sides → Fin sides

/-- What an operation returns: an acquisition, or the stigma, if it could be paid for. -/
inductive Acquisition
  | negative (result : AcquireResult)
  | positive (result : AcquireResult)
  | stigma (record : Option StigmaRecord)

/-- An operation on the state of one actor and the roll sequence. -/
abbrev ActorOp := CharacterMutationState → Int →
  Except AcquireError Acquisition × CharacterMutationState × Int

variable (catalog : MutationCatalog) (dice : Dice) (actor sessionId : String)

/-- The rolls for a negative that the actor does not have. -/
def rollNegative : Nat → ActorOp
  | 0, cs, sequence =>
    (.error (.dedupeExhausted actor cs.negativeIds
      (catalog.negatives.map NegativeMutationDef.id)), cs, sequence)
  | attempts + 1, cs, sequence =>
    let roll := (dice sessionId actor "negative_d100" (sequence + 1) 100 (by decide)).val + 1
    match catalog.negativeForRoll roll with
    | .error e => (.error e, cs, sequence + 1)
    | .ok nd =>
      if nd.id ∉ cs.negativeIds then
        let mp := cs.mpRemaining + catalog.mpEconomy.perNegativeMp
        (.ok (.negative { applied := true, actor, mutationId := nd.id, roll
                          mpDelta := catalog.mpEconomy.perNegativeMp, mpRemaining := mp }),
          { cs with
            negativeIds := cs.negativeIds ++ [nd.id]
            acquisitionLog := cs.acquisitionLog ++ [nd.id]
            mpRemaining := mp }, sequence + 1)
      else rollNegative attempts cs (sequence + 1)

/-- A random negative mutation, which earns points, up to the limit on their number. -/
def acquireRandomNegative : ActorOp := fun cs sequence =>
  if catalog.mpEconomy.maxNegatives ≤ cs.negativeIds.length then
    (.ok (.negative { applied := false, actor, mpRemaining := cs.mpRemaining
                      reason := s!"max_negatives ({catalog.mpEconomy.maxNegatives}) reached" }),
      cs, sequence)
  else rollNegative catalog dice actor sessionId (catalog.negatives.length * 4) cs sequence

/-- The price of a positive mutation, by whether it is picked and whether one of its category is
    owned. -/
def positiveSpendCost (cs : CharacterMutationState) (picked : Bool) (category : String) : Int :=
  if picked then catalog.mpEconomy.spendPickPositive
  else if cs.positiveIds.any (fun id => id.toList.takeWhile (· ≠ '/') = category.toList) then
    catalog.mpEconomy.spendSameCategory
  else catalog.mpEconomy.spendRandomPositive

/-- The end of `acquire_positive`, once a mutation is chosen. -/
def payPositive (chosen : PositiveMutationDef) (picked : Bool) (roll : Nat) : ActorOp :=
  fun cs sequence =>
    let cost := positiveSpendCost catalog cs picked chosen.category
    if cs.mpRemaining < cost then
      (.ok (.positive { applied := false, actor, mutationId := chosen.id
                        mpRemaining := cs.mpRemaining
                        reason := s!"insufficient_mp (need {cost}, have {cs.mpRemaining})" }),
        cs, sequence)
    else
      (.ok (.positive { applied := true, actor, mutationId := chosen.id, roll, mpDelta := -cost
                        mpRemaining := cs.mpRemaining - cost }),
        { cs with
          mpRemaining := cs.mpRemaining - cost
          positiveIds := cs.positiveIds ++ [chosen.id]
          acquisitionLog := cs.acquisitionLog ++ [chosen.id] }, sequence)

/-- The mutations that a random pick draws from, by their ids. -/
def positivePool (cs : CharacterMutationState) (category : Option String) :
    List PositiveMutationDef :=
  (catalog.positives.filter (fun p => p.id ∉ cs.positiveIds ∧ ∀ c ∈ category, p.category = c)).mergeSort
    (fun p q => p.id ≤ q.id)

/-- A picked mutation, or a random one, optionally within a category. -/
def acquirePositive (mutationId category : Option String) : ActorOp := fun cs sequence =>
  match mutationId with
  | some mutationId =>
    match catalog.positiveById mutationId with
    | .error e => (.error e, cs, sequence)
    | .ok target =>
      if mutationId ∈ cs.positiveIds then
        (.ok (.positive { applied := false, actor, mutationId, mpRemaining := cs.mpRemaining
                          reason := "already_owned" }), cs, sequence)
      else payPositive catalog actor target true 0 cs sequence
  | none =>
    let pool := positivePool catalog cs category
    if h : 0 < pool.length then
      let face := dice sessionId actor "positive_pick" (sequence + 1) pool.length h
      payPositive catalog actor (pool.get face) false (face + 1) cs (sequence + 1)
    else
      (.ok (.positive { applied := false, actor, mpRemaining := cs.mpRemaining
                        reason := s!"pool_exhausted (category={category})" }), cs, sequence)

/-- A stigma from the tables, which costs points only if it can be concealed. -/
def rollStigma (concealable : Bool) : ActorOp := fun cs sequence =>
  let cost := if concealable then catalog.mpEconomy.concealableStigmaCost else 0
  if concealable ∧ cs.mpRemaining < cost then (.ok (.stigma none), cs, sequence)
  else
    let roll (purpose : String) := dice sessionId actor purpose
    let record : StigmaRecord :=
      { bodyPart := catalog.stigma.bodyPart (roll "stigma_body" (sequence + 1) 6 (Nat.succ_pos _))
        nature := catalog.stigma.nature (roll "stigma_nature" (sequence + 2) 6 (Nat.succ_pos _))
        flavor := catalog.stigma.flavor (roll "stigma_flavor" (sequence + 3) 12 (Nat.succ_pos _))
        concealable }
    (.ok (.stigma (some record)),
      { cs with mpRemaining := cs.mpRemaining - cost, stigma := cs.stigma ++ [record] },
      sequence + 3)

/-! ### What one operation does -/

/-- The points an outcome stands for: those of a negative, less the cost that is reported for a
    positive, less the cost of concealing a stigma. -/
def credit : Except AcquireError Acquisition → Int
  | .ok (.negative r) => if r.applied then catalog.mpEconomy.perNegativeMp else 0
  | .ok (.positive r) => if r.applied then r.mpDelta else 0
  | .ok (.stigma (some record)) =>
    if record.concealable then -catalog.mpEconomy.concealableStigmaCost else 0
  | .ok (.stigma none) | .error _ => 0

/-- The operation was carried out: neither refused nor raised. -/
def Applied : Except AcquireError Acquisition → Prop
  | .ok (.negative r) | .ok (.positive r) => r.applied = true
  | .ok (.stigma record) => record.isSome
  | .error _ => False

/-- **Everything an operation can do** to the state of its actor. -/
inductive Moves (cs : CharacterMutationState) :
    Except AcquireError Acquisition → CharacterMutationState → Prop
  | stays {x : Except AcquireError Acquisition} : ¬ Applied x → credit catalog x = 0 → Moves cs x cs
  | negative {r : AcquireResult} {id : String} : r.applied = true → id ∉ cs.negativeIds →
      (cs.negativeIds.length : Int) < catalog.mpEconomy.maxNegatives →
      Moves cs (.ok (.negative r)) { cs with
        negativeIds := cs.negativeIds ++ [id]
        acquisitionLog := cs.acquisitionLog ++ [id]
        mpRemaining := cs.mpRemaining + catalog.mpEconomy.perNegativeMp }
  | positive {r : AcquireResult} {id : String} {cost : Int} : r.applied = true → r.mpDelta = -cost →
      cost ≤ cs.mpRemaining → id ∉ cs.positiveIds →
      Moves cs (.ok (.positive r)) { cs with
        mpRemaining := cs.mpRemaining - cost
        positiveIds := cs.positiveIds ++ [id]
        acquisitionLog := cs.acquisitionLog ++ [id] }
  | stigma {record : StigmaRecord} {cost : Int} :
      cost = (if record.concealable then catalog.mpEconomy.concealableStigmaCost else 0) →
      (record.concealable → cost ≤ cs.mpRemaining) →
      Moves cs (.ok (.stigma (some record))) { cs with
        mpRemaining := cs.mpRemaining - cost, stigma := cs.stigma ++ [record] }

variable {catalog dice actor sessionId} {cs : CharacterMutationState} {sequence : Int}

theorem moves_rollNegative (attempts : Nat)
    (hroom : (cs.negativeIds.length : Int) < catalog.mpEconomy.maxNegatives) :
    Moves catalog cs (rollNegative catalog dice actor sessionId attempts cs sequence).1
      (rollNegative catalog dice actor sessionId attempts cs sequence).2.1 := by
  induction attempts generalizing sequence with
  | zero => exact .stays id rfl
  | succ attempts ih =>
    unfold rollNegative
    dsimp only
    split
    · exact .stays id rfl
    · split
      · rename_i hnew
        exact .negative rfl hnew hroom
      · exact ih

theorem moves_payPositive {chosen : PositiveMutationDef} (hnew : chosen.id ∉ cs.positiveIds)
    (picked : Bool) (roll : Nat) :
    Moves catalog cs (payPositive catalog actor chosen picked roll cs sequence).1
      (payPositive catalog actor chosen picked roll cs sequence).2.1 := by
  unfold payPositive
  dsimp only
  split
  · exact .stays (by simp [Applied]) rfl
  · rename_i hafford
    exact .positive rfl rfl (not_lt.mp hafford) hnew

theorem not_mem_of_mem_pool {category : Option String} {p : PositiveMutationDef}
    (h : p ∈ positivePool catalog cs category) : p.id ∉ cs.positiveIds := by
  have hmem := List.mem_mergeSort.mp h
  exact (by simpa using (List.mem_filter.mp hmem).2 : p.id ∉ cs.positiveIds ∧ _).1

theorem moves_acquirePositive (mutationId category : Option String) : Moves catalog cs
      (acquirePositive catalog dice actor sessionId mutationId category cs sequence).1
      (acquirePositive catalog dice actor sessionId mutationId category cs sequence).2.1 := by
  unfold acquirePositive
  cases mutationId with
  | some mutationId =>
    dsimp only
    cases htarget : catalog.positiveById mutationId with
    | error e => exact .stays id rfl
    | ok target =>
      have hid : target.id = mutationId := by
        unfold MutationCatalog.positiveById at htarget
        split at htarget
        · rename_i m hfind
          cases htarget
          simpa using List.find?_some hfind
        · cases htarget
      dsimp only
      split
      · exact .stays (by simp [Applied]) rfl
      · rename_i hnew
        exact moves_payPositive (hid ▸ hnew) true 0
  | none =>
    dsimp only
    split
    · exact moves_payPositive (not_mem_of_mem_pool (List.get_mem _ _)) false _
    · exact .stays (by simp [Applied]) rfl

theorem moves_rollStigma (concealable : Bool) :
    Moves catalog cs (rollStigma catalog dice actor sessionId concealable cs sequence).1
      (rollStigma catalog dice actor sessionId concealable cs sequence).2.1 := by
  unfold rollStigma
  generalize hcost : (if concealable then catalog.mpEconomy.concealableStigmaCost else 0) = cost
  dsimp only
  split
  · exact .stays (by simp [Applied]) rfl
  · rename_i hafford
    exact .stigma hcost.symm (fun hconceal => not_lt.mp (fun hlt => hafford ⟨hconceal, hlt⟩))

/-! ### Runs of operations -/

/-- The operations on the mutations of an actor. -/
inductive Operation
  | negative
  | positive (mutationId category : Option String)
  | stigma (concealable : Bool)

/-- One call, by any actor in any session. -/
structure Call where
  (actor sessionId : String)
  operation : Operation

variable (catalog dice)

variable (s : MutationState) (c : Call)

/-- What the call does to its actor. -/
def Call.op : ActorOp :=
  match c.operation with
  | .negative => acquireRandomNegative catalog dice c.actor c.sessionId
  | .positive mutationId category =>
    acquirePositive catalog dice c.actor c.sessionId mutationId category
  | .stigma concealable => rollStigma catalog dice c.actor c.sessionId concealable

/-- A call on the state: an actor without a state raises. -/
def Call.perform : Except AcquireError Acquisition × MutationState :=
  match s.characters.get? c.actor with
  | none => (.error (.unknownActor c.actor (s.characters.keys.mergeSort (· ≤ ·))), s)
  | some cs =>
    let (outcome, cs', sequence) := c.op catalog dice cs s.rollSequence
    (outcome, { characters := s.characters.insert c.actor cs', rollSequence := sequence })

/-- The state after a call, also if it raised. -/
def Call.step : MutationState := (c.perform catalog dice s).2

/-- The points that the calls of a run stand for, for one actor. -/
def earned (actor : String) : MutationState → List Call → Int
  | _, [] => 0
  | s, c :: calls =>
    (if c.actor = actor then credit catalog (c.perform catalog dice s).1 else 0) +
      earned actor (c.step catalog dice s) calls

variable {catalog dice}

/-- The log is made of both lists of ids, each in its order. -/
inductive Merged : List String → List String → List String → Prop
  | nil : Merged [] [] []
  | positive {p n l : List String} (id : String) : Merged p n l → Merged (p ++ [id]) n (l ++ [id])
  | negative {p n l : List String} (id : String) : Merged p n l → Merged p (n ++ [id]) (l ++ [id])

variable (catalog) in
/-- No id twice, no negative too many, and a log of all of them; and no debt, unless a negative
    costs points. -/
structure Sound (cs : CharacterMutationState) : Prop where
  positives : cs.positiveIds.Nodup
  negatives : cs.negativeIds.Nodup
  room : (cs.negativeIds.length : Int) ≤ catalog.mpEconomy.maxNegatives
  log : Merged cs.positiveIds cs.negativeIds cs.acquisitionLog
  solvent : 0 ≤ catalog.mpEconomy.perNegativeMp → 0 ≤ cs.mpRemaining

/-- **One operation** keeps the state of its actor sound, and moves its points by the credit. -/
theorem Moves.sound {x : Except AcquireError Acquisition} {cs' : CharacterMutationState}
    (h : Moves catalog cs x cs') (hs : Sound catalog cs) :
    Sound catalog cs' ∧ cs'.mpRemaining = cs.mpRemaining + credit catalog x := by
  cases h with
  | stays _ hcredit => exact ⟨hs, by omega⟩
  | negative happlied hnew hroom =>
    refine ⟨⟨hs.positives, List.concat_eq_append ▸ hs.negatives.concat hnew, ?_, hs.log.negative _,
      fun hper => ?_⟩, ?_⟩
    · simp
      omega
    · have := hs.solvent hper
      simp
      omega
    · simp [credit, happlied]
  | positive happlied hdelta hafford hnew =>
    refine ⟨⟨List.concat_eq_append ▸ hs.positives.concat hnew, hs.negatives, hs.room, hs.log.positive _,
      fun _ => Int.sub_nonneg_of_le hafford⟩, ?_⟩
    simp only [credit, happlied, if_true, hdelta]
    omega
  | @stigma record cost hcost hafford =>
    cases hconceal : record.concealable with
    | true =>
      refine ⟨⟨hs.positives, hs.negatives, hs.room, hs.log,
        fun _ => Int.sub_nonneg_of_le (hafford hconceal)⟩, ?_⟩
      simp only [credit, hconceal, if_true, hcost]
      omega
    | false =>
      have hzero : cost = 0 := by simpa [hconceal] using hcost
      refine ⟨⟨hs.positives, hs.negatives, hs.room, hs.log, fun hper => ?_⟩, ?_⟩
      · simpa [hzero] using hs.solvent hper
      · simp [credit, hconceal, hzero]

theorem Moves.eq_of_not_applied {x : Except AcquireError Acquisition} {cs' : CharacterMutationState}
    (h : Moves catalog cs x cs') (hx : ¬ Applied x) : cs' = cs := by
  cases h with
  | stays => rfl
  | negative happlied => exact absurd happlied hx
  | positive happlied => exact absurd happlied hx
  | stigma => exact absurd rfl hx

variable (catalog dice) in
theorem Call.moves (cs : CharacterMutationState) (sequence : Int) :
    Moves catalog cs (c.op catalog dice cs sequence).1 (c.op catalog dice cs sequence).2.1 := by
  unfold Call.op
  cases c.operation with
  | negative =>
    dsimp only
    unfold acquireRandomNegative
    split
    · exact .stays (by simp [Applied]) rfl
    · rename_i hroom
      exact moves_rollNegative _ (not_le.mp hroom)
  | positive mutationId category => exact moves_acquirePositive mutationId category
  | stigma concealable => exact moves_rollStigma concealable

variable (catalog dice) in
/-- **One call**: other actors are untouched, and where nothing is applied only the roll sequence
    moves. -/
theorem Call.frame : (∀ other, other ≠ c.actor →
      (c.step catalog dice s).characters.get? other = s.characters.get? other) ∧
    (¬ Applied (c.perform catalog dice s).1 → (c.step catalog dice s).characters = s.characters) := by
  unfold Call.step Call.perform
  cases hget : s.characters.get? c.actor with
  | none => exact ⟨fun _ _ => rfl, fun _ => rfl⟩
  | some cs =>
    refine ⟨fun other hne => ?_, fun hrefused => ?_⟩
    · simp [hne]
    · have hsame := (c.moves catalog dice cs s.rollSequence).eq_of_not_applied hrefused
      exact (Dict.insert_eq_self_iff).mpr (hget.trans (congrArg some hsame.symm))

/-- **Mutation points over every run**: the state of an actor stays sound, and its points are what
    it had and what its calls stand for; a call touches no other actor, and one that is refused or
    raises only moves the roll sequence. -/
theorem acquisition_spec (actor : String) {s : MutationState}
    (hget : s.characters.get? actor = some cs) (hs : Sound catalog cs) (calls : List Call) :
    (∃ cs', (run (Call.step catalog dice) s calls).characters.get? actor = some cs' ∧
      Sound catalog cs' ∧
      cs'.mpRemaining = cs.mpRemaining + earned catalog dice actor s calls) ∧
    ∀ (t : MutationState) (c : Call),
      (∀ other, other ≠ c.actor →
        (c.step catalog dice t).characters.get? other = t.characters.get? other) ∧
      (¬ Applied (c.perform catalog dice t).1 →
        (c.step catalog dice t).characters = t.characters) := by
  refine ⟨?_, fun t c => c.frame catalog dice t⟩
  induction calls generalizing s cs with
  | nil => exact ⟨_, hget, hs, by simp [earned]⟩
  | cons c calls ih =>
    rw [run_cons, earned]
    by_cases hactor : c.actor = actor
    · obtain ⟨hs', hmp⟩ := (c.moves catalog dice cs s.rollSequence).sound hs
      have hstep : (c.step catalog dice s).characters.get? actor =
          some (c.op catalog dice cs s.rollSequence).2.1 := by
        simp [Call.step, Call.perform, hactor, hget]
      obtain ⟨cs', hget', hsound, hmp'⟩ := ih hstep hs'
      refine ⟨cs', hget', hsound, ?_⟩
      have hx : (c.perform catalog dice s).1 = (c.op catalog dice cs s.rollSequence).1 := by
        simp [Call.perform, hactor, hget]
      rw [if_pos hactor, hx]
      omega
    · have hstep := (c.frame catalog dice s).1 actor (Ne.symm hactor)
      obtain ⟨cs', hget', hsound, hmp'⟩ := ih (hstep.trans hget) hs
      exact ⟨cs', hget', hsound, by rw [if_neg hactor]; omega⟩

private def blight (perNegativeMp : Int) : MutationCatalog where
  mpEconomy := { perNegativeMp }
  stigma := ⟨fun _ => "arm", fun _ => "scaled", fun _ => "grey"⟩
  negatives := [⟨"negative/blind", (1, 100)⟩]
  positives := []

private def mutant : MutationState := { characters := ⟨[("Rek", { mpRemaining := 0 })], by decide⟩ }

private theorem sound_mutant (perNegativeMp : Int) :
    Sound (blight perNegativeMp) { mpRemaining := 0 } :=
  ⟨.nil, .nil, (by decide : (0 : Int) ≤ 3), .nil, fun _ => le_rfl⟩

/-- A negative, a hidden stigma, a negative that the table does not have, and a call for nobody. -/
private def mutantCalls : List Call :=
  [⟨"Rek", "night", .negative⟩, ⟨"Rek", "night", .stigma true⟩, ⟨"Rek", "dawn", .negative⟩,
    ⟨"Sul", "dawn", .positive none none⟩]

theorem acquisition_spec_blind :
    ∃ cs', (run (Call.step (blight 2) fun _ _ _ _ _ h => ⟨0, h⟩) mutant
        mutantCalls).characters.get? "Rek" = some cs' ∧
      Sound (blight 2) cs' ∧ cs'.mpRemaining = 0 +
        earned (blight 2) (fun _ _ _ _ _ h => ⟨0, h⟩) "Rek" mutant mutantCalls :=
  (acquisition_spec "Rek" rfl (sound_mutant 2) _).1

/-- A negative that costs a point leaves an actor without points in debt. -/
theorem not_solvent : ∃ catalog dice s call cs cs', s.characters.get? "Rek" = some cs ∧
    Sound catalog cs ∧ 0 ≤ cs.mpRemaining ∧
    (Call.step catalog dice s call).characters.get? "Rek" = some cs' ∧ cs'.mpRemaining < 0 :=
  ⟨blight (-1), fun _ _ _ _ _ h => ⟨0, h⟩, mutant, ⟨"Rek", "night", .negative⟩, _, _, rfl,
    sound_mutant (-1), le_rfl, rfl, by decide⟩

end Sidequest.Mutation
