import Mathlib.Data.List.Sort
import Sidequest.Lib.Dict
import Sidequest.Lib.Draws
import Sidequest.Lib.First
import Sidequest.Lib.Packed
import Sidequest.Lib.PyNumber

namespace Sidequest.Table

open Lib

/-!
# Resolving a decision point

Every seat's sealed action is applied in resolution order. Then the hand goes to showdown, if at
most one seat is active or the decision points are used up, or on to the next decision point.

* `CommandPointPool`, `WarRigHull` — the pools of a vessel, which stand on the table for the whole
  hand; `crisisTable`, `dealWithCrisis` — the ten crises and an attempt to deal with one;
* `auctionTableGame` — secret valuations; the highest bid that its bidder can pay wins;
* `dealTable` — deal to two seats or more;
* `exec_cheatBeat` and its like — what each beat that may raise leaves.
-/

section

section

/-- Why a table raises. -/
inductive TableError where
  | tableNeedsOthers (gameKind : String) (seats : Nat)
  | unknownTableGame (kind : String)
  | popFromEmptyDeck
  | missingKey (key : String)
  | emptySequence (function : String)
  | unsupportedCheat (kind : String)
  | unsupportedRead (kind : String)
  | unknownSeat (seatId : String)
  | requiresTargetSeat (beatId seatId : String)
  | targetsUnknownSeat (beatId targetSeat : String)
  | unsupportedTableBeat (beatId seatId kind : String)
  | noStationVerb (verb seatId : String)
  | unknownCommandPointAction (action : String)
  | insufficientCommandPoints (action : String) (need available : Nat)
  | noReadableStrength (seatId : String)
  | zeroEligibleContenders

/-! ### Command points -/

/-- The command points of a vessel. -/
structure CommandPointPool where
  (current max : Nat)
  vesselId : String
  pos : 0 < max
  le : current ≤ max
deriving DecidableEq

/-- The command actions and their costs. -/
def cpActionCosts (action : String) : Option Nat :=
  match action with
  | "do_your_duty" => some 0
  | "above_and_beyond" => some 1
  | "support_department" => some 1
  | _ => none

/-- Pay for a command action; `above_and_beyond` rolls a die for its bonus. -/
def spendCommandPoints (action : String) : Effect TableError (CommandPointPool × Rng) PUnit := do
  let (pool, rng) ← get
  match cpActionCosts action with
  | none => throw (.unknownCommandPointAction action)
  | some cost =>
    if cost > pool.current then throw (.insufficientCommandPoints action cost pool.current)
    else
      set (({ pool with
        current := pool.current - cost
        le := (Nat.sub_le _ _).trans pool.le } : CommandPointPool),
        if action = "above_and_beyond" then (rng.randint 1 6).2 else rng)

/-! ### The hull -/

/-- The hull of a vessel. -/
structure WarRigHull where
  (current max baseMax : Nat)
  vesselId : String
  pos : 0 < max
  le : current ≤ max
deriving DecidableEq

/-- Damage or repair, between 0 and the maximum. -/
def WarRigHull.applyDelta (hull : WarRigHull) (delta : Int) : WarRigHull :=
  { hull with
    current := min hull.max (hull.current + delta).toNat
    le := min_le_left _ _ }

/-! ### Crises -/

/-- A face of the crisis table; a crisis that continues escalates where it is not dealt with. -/
structure CrisisEntry where
  crisisId : String
  continuing : Bool
  dc : Int
  hullPenalty : Nat

/-- The faces of the crisis table. -/
def crisisTable (roll : Int) : Option CrisisEntry :=
  match roll with
  | 1 => some ⟨"loose_cargo", false, 8, 1⟩
  | 2 => some ⟨"blinding_dust", false, 9, 1⟩
  | 3 => some ⟨"seized_gun", false, 9, 1⟩
  | 4 => some ⟨"fuel_leak", true, 10, 1⟩
  | 5 => some ⟨"engine_fire", true, 11, 2⟩
  | 6 => some ⟨"shredded_tire", true, 10, 1⟩
  | 7 => some ⟨"boarders", true, 12, 2⟩
  | 8 => some ⟨"steering_fault", true, 11, 1⟩
  | 9 => some ⟨"overheat", true, 10, 1⟩
  | 10 => some ⟨"rollover_threat", true, 13, 3⟩
  | _ => none

/-- Roll a crisis. -/
def rollCrisis (rng : Rng) : Except TableError CrisisEntry × Rng :=
  let (roll, rng) := rng.randint 1 10
  match crisisTable roll with
  | none => (.error (.missingKey (toString roll)), rng)
  | some entry => (.ok entry, rng)

/-- An attempt to deal with a crisis: a failed one that continues damages the hull. -/
def dealWithCrisis (entry : CrisisEntry) (abilityMod : Int) (hull : WarRigHull) (rng : Rng) :
    WarRigHull × Rng :=
  let (roll, rng) := rng.randint 1 10
  let success := roll + abilityMod ≥ entry.dc
  if ¬ success ∧ entry.continuing then (hull.applyDelta (-entry.hullPenalty), rng) else (hull, rng)

/-! ### Both pools together -/

/-- What the seats of a table share. -/
structure SharedState where
  commandPoints : Option CommandPointPool
  warRigHull : Option WarRigHull
deriving DecidableEq

/-- The starting pools of a vessel. -/
def defaultCommandPoints (vesselId : String) : CommandPointPool := ⟨4, 4, vesselId, by omega, by omega⟩

def defaultHull (vesselId : String) : WarRigHull := ⟨6, 6, 6, vesselId, by omega, by omega⟩

/-- The crew's command points, seeded if they are not there. -/
def SharedState.cpPool (shared : SharedState) (vesselId : String) : CommandPointPool :=
  shared.commandPoints.getD (defaultCommandPoints vesselId)

/-- The crew's hull, seeded if it is not there. -/
def SharedState.hull (shared : SharedState) (vesselId : String) : WarRigHull :=
  shared.warRigHull.getD (defaultHull vesselId)

/-! ### Cards -/

inductive Suit where
  | spade
  | heart
  | diamond
  | club
deriving DecidableEq

/-- A card: the place of its rank in `23456789TJQKA`, and its suit. -/
structure Card where
  rank : Fin 13
  suit : Suit
deriving DecidableEq

/-- The value of a rank, from 2 to 14. -/
def Card.value (c : Card) : Nat := c.rank.val + 2

/-! ### Seats -/

inductive SeatStatus where
  | active
  | folded
  | out
deriving DecidableEq

/-- What the games deal to a seat and cheats change. -/
structure Hand where
  cards : Option (List Card) := none
  strength : Option Int := none
  strengthBand : Option String := none
  cheatTrace : Option ℚ := none
  valuation : Option Int := none
  maxBid : Option Int := none
  station : Option String := none

/-- What a reader remembers of a seat. -/
structure Intel where
  (targetSeat strengthBand : String)
  suspiciousTrace : Bool

/-- What a seat keeps to itself, as far as the table reads it. -/
structure PrivateState where
  hand : Hand := {}
  currentBid : Option Int := none
  perception : Option Int := none
  concealment : Option Int := none
  readIntel : Option (List Intel) := none

/-- A seat and the party that sits in it. -/
structure TableSeat where
  (seatId partyName : String)
  isPc : Bool
  status : SeatStatus
  privateState : PrivateState

/-- What is played for, and what each seat has put in. -/
structure TablePot where
  (stakeKind stakeDescriptor : String)
  contributions : Dict String Int

/-- A table. -/
structure TableState where
  gameKind : String
  seats : List TableSeat
  pot : TablePot
  order : List String
  dealerSeat : String
  (decisionPoint maxDecisionPoints : Int)
  resolvedWinner : Option String
  sharedState : SharedState
  pendingAccusations : List (String × String)

variable (state : TableState)

namespace TableState

/-- The first seat with an id. -/
def findSeat (seatId : String) : Option TableSeat :=
  state.seats.find? (fun s => s.seatId = seatId)

/-- The ids of active seats, in resolution order. -/
def activeSeatIds : List String :=
  state.order.filter (fun sid => state.seats.any (fun s => s.seatId = sid && s.status = .active))

/-- Change the first seat with an id. -/
def updateSeat (seatId : String) (f : TableSeat → TableSeat) : TableState :=
  { state with seats := updateFirst (fun s => s.seatId = seatId) f state.seats }

end TableState

/-- The sealed action of a seat. -/
structure TableCommit where
  (seatId beatId : String)
  amount : Int := 0
  targetSeat : Option String := none

/-- What a seat learns of another; not every kind of game tells of traces. -/
structure ReadResult where
  (targetSeat strengthBand : String)
  suspiciousTrace : Option Bool

/-- What one decision point came to. -/
structure TableResolutionOutcome where
  showdown : Bool
  (resolvedWinner potAwardedTo stakeKind stakeDescriptor : Option String)
  narrationHint : String
  forfeitedSeats : List String
  readResults : Dict String ReadResult

/-- What a kind of game brings along. A cheat computes the new hand before it puts it down; a beat
    of the game's own is called with the dealer's seat and the seat that acts, and works on what
    the seats share. -/
structure TableGame where
  kind : String
  deal : List TableSeat → TablePot → Rng → Except TableError (List TableSeat × TablePot × Rng)
  strength : Hand → Option Int → Except TableError Int
  cheat : Hand → Rng → Except TableError (Hand × Rng)
  read : TableSeat → Int → Except TableError ReadResult
  customBeat : String → String → TableCommit → Effect TableError (SharedState × Rng) PUnit

end

/-! ### Hands -/

def suits : List Suit := [.spade, .heart, .diamond, .club]

/-- The deck in order of rank. -/
def fullDeck : List Card := (List.finRange 13).flatMap (fun rank => suits.map (fun s => ⟨rank, s⟩))

variable (cards : List Card)

/-- The category of a hand and the values that break ties, most telling first. -/
def categorize : Nat × List Nat :=
  let values := cards.map Card.value
  let distinct := values.dedup.insertionSort (· ≤ ·)
  let byCount := distinct.insertionSort (fun v w =>
    values.count w < values.count v ∨ values.count w = values.count v ∧ w ≤ v)
  let countShape := (distinct.map values.count).insertionSort (· ≥ ·)
  let isFlush := (cards.map Card.suit).dedup.length = 1
  let isWheel := distinct = [2, 3, 4, 5, 14]
  let isStraight := isWheel ∨ distinct.length = 5 ∧ distinct.getLastD 0 - distinct.headD 0 = 4
  let groupedVals := if isWheel then [5, 4, 3, 2, 1] else byCount
  if isStraight ∧ isFlush then (8, groupedVals)
  else if countShape = [4, 1] then (7, groupedVals)
  else if countShape = [3, 2] then (6, groupedVals)
  else if isFlush then (5, groupedVals)
  else if isStraight then (4, groupedVals)
  else if countShape = [3, 1, 1] then (3, groupedVals)
  else if countShape = [2, 2, 1] then (2, groupedVals)
  else if countShape = [2, 1, 1, 1] then (1, groupedVals)
  else (0, groupedVals)

/-- The category and five values as the digits of one number. -/
def handStrength : Int :=
  let (category, tiebreaks) := categorize cards
  let padded := (tiebreaks ++ List.replicate 5 0).take 5
  padded.foldl (fun (strength : Int) v => strength * 100 + v) category

/-- The band of a strength. -/
def bandFor (strength : Int) : String :=
  let category := strength / 100 ^ 5
  if category ≥ 7 then "monster"
  else if category ≥ 4 then "strong"
  else if category = 3 then "decent"
  else if category = 1 ∨ category = 2 then "marginal"
  else "weak"

/-! ### Dealing -/

/-- Five cards from the top of the deck, the last one first. -/
def pop5 (deck : List Card) : Except TableError (List Card × List Card) :=
  if deck.length < 5 then .error .popFromEmptyDeck
  else .ok (deck.reverse.take 5, deck.reverse.drop 5 |>.reverse)

/-- A seat with the cards it is dealt. -/
def dealtPoker (seat : TableSeat) (cards : List Card) : TableSeat :=
  { seat with privateState := { seat.privateState with hand :=
    { seat.privateState.hand with
      cards := some cards
      strength := some (handStrength cards)
      strengthBand := some (bandFor (handStrength cards))
      cheatTrace := some 0 } } }

/-- Deal to seat after seat; everybody antes one chip. -/
def dealPoker : List TableSeat → TablePot → List Card → Except TableError (List TableSeat × TablePot)
  | [], pot, _ => .ok ([], pot)
  | seat :: rest, pot, deck => do
    let (cards, deck) ← pop5 deck
    let ante := (pot.contributions.get? seat.seatId).getD 0 + 1
    let (seats, pot) ←
      dealPoker rest { pot with contributions := pot.contributions.insert seat.seatId ante } deck
    .ok (dealtPoker seat cards :: seats, pot)

/-! ### Cheating and reading -/

/-- The hand with its weakest card swapped for the best one not in it. -/
def swapWeakest : Except TableError (List Card) :=
  match cards.argmin Card.value, (fullDeck.filter (· ∉ cards)).argmax Card.value with
  | none, _ => .error (.emptySequence "min")
  | some _, none => .error (.emptySequence "max")
  | some weakest, some replacement => .ok (updateFirst (· = weakest) (fun _ => replacement) cards)

/-- The trace a cheat leaves on top of an earlier one. -/
def nextTrace (prior jitter : ℚ) : ℚ := roundTo 4 (min 1 (prior + 3 / 10 + jitter * (15 / 100)))

/-- The hand after a cheat. The swap is kept only if it makes the hand stronger. -/
def cheatedHand (hand : Hand) (before : Int) (cards swapped : List Card) (jitter : ℚ) : Hand :=
  let improved := before < handStrength swapped
  let after := if improved then handStrength swapped else before
  { hand with
    cards := some (if improved then swapped else cards)
    strength := some after
    strengthBand := some (bandFor after)
    cheatTrace := some (nextTrace (hand.cheatTrace.getD 0) jitter) }

/-- A cheat. -/
def pokerCheat (hand : Hand) (rng : Rng) : Except TableError (Hand × Rng) :=
  match hand.strength, hand.cards with
  | none, _ => .error (.missingKey "strength")
  | some _, none => .error (.missingKey "cards")
  | some before, some cards =>
    match swapWeakest cards with
    | .error e => .error e
    | .ok swapped => .ok (cheatedHand hand before cards swapped rng.random.1, rng.random.2)

/-- What a cheat that goes through has come from and to. -/
theorem pokerCheat_eq_ok {hand hand' : Hand} {rng rng' : Rng}
    (h : pokerCheat hand rng = .ok (hand', rng')) :
    ∃ before cards swapped, hand.strength = some before ∧ hand.cards = some cards ∧
      swapWeakest cards = .ok swapped ∧ hand' = cheatedHand hand before cards swapped rng.random.1 ∧
      rng' = rng.random.2 := by
  unfold pokerCheat at h
  rcases hstrength : hand.strength with _ | before
  · rw [hstrength] at h
    simp at h
  · rcases hcards : hand.cards with _ | cards
    · rw [hstrength, hcards] at h
      simp at h
    · rw [hstrength, hcards] at h
      dsimp only at h
      rcases hswap : swapWeakest cards with e | swapped
      · rw [hswap] at h
        simp at h
      · rw [hswap] at h
        obtain ⟨hhand, hrng⟩ := Prod.mk.inj (Except.ok.inj h)
        exact ⟨before, cards, swapped, rfl, rfl, hswap, hhand.symm, hrng.symm⟩

/-- What a reader learns: the band of the target, and whether its trace shows. -/
def pokerRead (target : TableSeat) (readerStat : Int) : Except TableError ReadResult :=
  let threshold : ℚ := max (1 / 10) (6 / 10 - 3 / 100 * readerStat)
  let hand := target.privateState.hand
  .ok ⟨target.seatId, hand.strengthBand.getD "unknown",
    some (decide (threshold ≤ hand.cheatTrace.getD 0))⟩

/-- A kind of game with no beats of its own. -/
def noCustomBeat (kind _dealerSeat seatId : String) (commit : TableCommit) :
    Effect TableError (SharedState × Rng) PUnit :=
  throw (.unsupportedTableBeat commit.beatId seatId kind)

def pokerTableGame : TableGame where
  kind := "poker"
  deal seats pot rng := do
    let (deck, rng) := rng.shuffle fullDeck
    let (seats, pot) ← dealPoker seats pot deck
    .ok (seats, pot, rng)
  strength hand _ :=
    match hand.strength with
    | none => .error (.missingKey "strength")
    | some strength => .ok strength
  cheat := pokerCheat
  read := pokerRead
  customBeat := noCustomBeat "poker"

/-- A lower category, or the same one and lower values, from the most telling on. -/
def Weaker (a b : Nat × List Nat) : Prop := a.1 < b.1 ∨ a.1 = b.1 ∧ a.2 < b.2

/-- Of two hands one is weaker, unless they agree. -/
theorem weaker_trichotomy (a b : Nat × List Nat) : Weaker a b ∨ a = b ∨ Weaker b a := by
  unfold Weaker
  rcases lt_trichotomy a.1 b.1 with hlt | heq | hgt
  · exact .inl (.inl hlt)
  · rcases lt_trichotomy a.2 b.2 with hlt' | heq' | hgt'
    · exact .inl (.inr ⟨heq, hlt'⟩)
    · exact .inr (.inl (Prod.ext heq heq'))
    · exact .inr (.inr (.inr ⟨heq.symm, hgt'⟩))
  · exact .inr (.inr (.inl hgt))

/-! ### The values that break ties -/

theorem Card.value_bounds (c : Card) : 2 ≤ c.value ∧ c.value ≤ 14 := by
  have hrank := c.rank.isLt
  unfold Card.value
  omega

/-- The values of a hand, grouped: those that come up more often first, then the higher ones. -/
def grouped : List Nat :=
  ((cards.map Card.value).dedup.insertionSort (· ≤ ·)).insertionSort (fun v w =>
    (cards.map Card.value).count w < (cards.map Card.value).count v ∨
      (cards.map Card.value).count w = (cards.map Card.value).count v ∧ w ≤ v)

theorem perm_grouped : (grouped cards).Perm (cards.map Card.value).dedup :=
  (List.perm_insertionSort _ _).trans (List.perm_insertionSort _ _)

/-- Ties are broken by the grouped values, or by those of the straight from the ace. -/
theorem categorize_snd :
    (categorize cards).2 = [5, 4, 3, 2, 1] ∨ (categorize cards).2 = grouped cards := by
  unfold categorize
  dsimp only
  by_cases hwheel : (cards.map Card.value).dedup.insertionSort (· ≤ ·) = [2, 3, 4, 5, 14]
  · left
    split_ifs <;> rfl
  · right
    split_ifs <;> rfl

/-- The values that break ties fit into the places of base 100, and none is zero. -/
theorem nonzeroDigits_categorize : NonzeroDigits 100 (categorize cards).2 := by
  rcases categorize_snd cards with h | h
  · rw [h]
    unfold NonzeroDigits
    decide
  · rw [h]
    intro v hv
    have hmem := List.mem_dedup.mp ((perm_grouped cards).subset hv)
    obtain ⟨c, -, rfl⟩ := List.mem_map.mp hmem
    have hbounds := c.value_bounds
    omega

/-- Five cards have five values at most. -/
theorem length_categorize_le {cards : List Card} (h : cards.length = 5) :
    (categorize cards).2.length ≤ 5 := by
  rcases categorize_snd cards with h' | h'
  · rw [h']
    decide
  · rw [h', (perm_grouped cards).length_eq]
    calc (cards.map Card.value).dedup.length ≤ (cards.map Card.value).length :=
          (List.dedup_sublist _).length_le
      _ = 5 := by rw [List.length_map, h]

/-! ### The strength -/

theorem handStrength_eq_packed :
    handStrength cards = packed 100 5 (categorize cards).1 (categorize cards).2 := by
  unfold handStrength packed
  dsimp only
  rw [List.bind_eq_flatMap]
  simp only [List.pure_def, ← List.map_eq_flatMap, List.foldl_map]

variable {cards cards' : List Card}

/-- **Strengths compare like hands.** -/
theorem handStrength_lt_iff (h : cards.length = 5) (h' : cards'.length = 5) :
    handStrength cards < handStrength cards' ↔ Weaker (categorize cards) (categorize cards') := by
  rw [handStrength_eq_packed, handStrength_eq_packed, packed_lt_iff (by norm_num) 5
    (nonzeroDigits_categorize cards) (nonzeroDigits_categorize cards') (length_categorize_le h)
    (length_categorize_le h'), Nat.cast_lt, Nat.cast_inj]
  exact Iff.rfl

/-- Hands are equally strong exactly if their categories and values agree. -/
theorem handStrength_eq_iff (h : cards.length = 5) (h' : cards'.length = 5) :
    handStrength cards = handStrength cards' ↔ categorize cards = categorize cards' := by
  constructor
  · intro heq
    have hnot : ¬ Weaker (categorize cards) (categorize cards') := by
      rw [← handStrength_lt_iff h h', heq]
      exact lt_irrefl _
    have hnot' : ¬ Weaker (categorize cards') (categorize cards) := by
      rw [← handStrength_lt_iff h' h, heq]
      exact lt_irrefl _
    exact ((weaker_trichotomy _ _).resolve_left hnot).resolve_right hnot'
  · intro heq
    rw [handStrength_eq_packed, handStrength_eq_packed, heq]

end

variable (state : TableState) (commits : Dict String TableCommit) (dealerSeat kind : String)

/-- A game without cheats. -/
def noCheat (_hand : Hand) (_rng : Rng) : Except TableError (Hand × Rng) :=
  .error (.unsupportedCheat kind)

/-- A game without reads. -/
def noRead (_target : TableSeat) (_readerStat : Int) : Except TableError ReadResult :=
  .error (.unsupportedRead kind)

/-! ### Auctions -/

def auctionBands : List String := ["weak", "marginal", "decent", "strong", "monster"]

/-- The band of a valuation: the fifth of the ceiling it lies in. -/
def bandForValuation (valuation ceiling : Int) : String :=
  let idx := min (auctionBands.length - 1) (valuation * auctionBands.length / ceiling).toNat
  auctionBands.getD idx "monster"

def auctionCeiling : Int := 100

/-- Each seat is dealt a valuation, above which it will not bid. -/
def dealAuction : List TableSeat → Rng → List TableSeat × Rng
  | [], rng => ([], rng)
  | seat :: rest, rng =>
    let (valuation, rng) := rng.randint 10 auctionCeiling
    let dealt := { seat with privateState := { seat.privateState with
      hand := { seat.privateState.hand with
        valuation := some valuation
        maxBid := some valuation
        strengthBand := some (bandForValuation valuation auctionCeiling) }
      currentBid := some 0 } }
    let (seats, rng) := dealAuction rest rng
    (dealt :: seats, rng)

/-- The standing bid; one above the seat's own limit loses. -/
def auctionStrength (hand : Hand) (currentBid : Option Int) : Int :=
  let bid := currentBid.getD 0
  if bid ≤ hand.maxBid.getD 0 then bid else -1

def auctionTableGame : TableGame where
  kind := "auction"
  deal seats pot rng :=
    let (seats, rng) := dealAuction seats rng
    .ok (seats, pot, rng)
  strength hand currentBid := .ok (auctionStrength hand currentBid)
  cheat := noCheat "auction"
  read target _ := .ok ⟨target.seatId, target.privateState.hand.strengthBand.getD "unknown", none⟩
  customBeat := noCustomBeat "auction"

/-! ### The crewed war rig -/

def warRigStations : List String := ["driver", "gunner", "wrench", "spotter", "road_boss"]

def warRigStationVerbs : List String := ["steer", "shoot", "repair", "scan"]

/-- The `i`-th seat and those after it take the stations in turn. -/
def dealStations : Nat → List TableSeat → List TableSeat
  | _, [] => []
  | i, seat :: rest =>
    { seat with privateState := { seat.privateState with
      hand := { seat.privateState.hand with
        station := some (warRigStations.getD (i % warRigStations.length) "") } } }
      :: dealStations (i + 1) rest

/-- The id of the vessel, made from the dealer's seat. -/
def vesselId : String := "war_rig_crew:" ++ dealerSeat

/-- Seed the crew's command points. -/
def seedCpPool : Effect TableError (SharedState × Rng) CommandPointPool := do
  let (shared, rng) ← get
  let pool := shared.cpPool (vesselId dealerSeat)
  set ({ shared with commandPoints := some pool }, rng)
  pure pool

/-- Seed the crew's hull. -/
def seedHull : Effect TableError (SharedState × Rng) WarRigHull := do
  let (shared, rng) ← get
  let hull := shared.hull (vesselId dealerSeat)
  set ({ shared with warRigHull := some hull }, rng)
  pure hull

/-- A command action is paid from the crew's pool, which is seeded first. -/
def commandBeat (action : String) : Effect TableError (SharedState × Rng) PUnit := do
  let pool ← seedCpPool dealerSeat
  let (shared, rng) ← get
  match (spendCommandPoints action).exec (pool, rng) with
  | (.error e, _) => throw e
  | (.ok _, (pool, rng)) => set ({ shared with commandPoints := some pool }, rng)

/-- A crisis is rolled and dealt with, at the cost of the crew's hull, which is seeded first. -/
def crisisBeat : Effect TableError (SharedState × Rng) PUnit := do
  let hull ← seedHull dealerSeat
  let (shared, rng) ← get
  match rollCrisis rng with
  | (.error e, _) => throw e
  | (.ok entry, rng) =>
    let (hull, rng) := dealWithCrisis entry 0 hull rng
    set ({ shared with warRigHull := some hull }, rng)

variable (game : TableGame) (seatId : String) (seat : TableSeat) (commit : TableCommit)

/-- The beats of the crew: station verbs, which change nothing, and the two command verbs. -/
def warRigBeat : Effect TableError (SharedState × Rng) PUnit :=
  if commit.beatId ∈ warRigStationVerbs then pure ()
  else if (cpActionCosts commit.beatId).isSome then commandBeat dealerSeat commit.beatId
  else if commit.beatId = "deal_with_crisis" then crisisBeat dealerSeat
  else throw (.noStationVerb commit.beatId seatId)

def warRigCrewTableGame : TableGame where
  kind := "war_rig_crew"
  deal seats pot rng := .ok (dealStations 0 seats, pot, rng)
  strength _ _ := .ok 0
  cheat := noCheat "war_rig_crew"
  read := noRead "war_rig_crew"
  customBeat := warRigBeat

/-! ### The registry -/

/-- A registered kind of game. -/
def getTableGame : Except TableError TableGame :=
  match kind with
  | "poker" => .ok pokerTableGame
  | "auction" => .ok auctionTableGame
  | "war_rig_crew" => .ok warRigCrewTableGame
  | _ => .error (.unknownTableGame kind)

theorem getTableGame_cases {kind : String} {game : TableGame} (h : getTableGame kind = .ok game) :
    (kind = "poker" ∧ game = pokerTableGame) ∨ game = auctionTableGame ∨
      game = warRigCrewTableGame := by
  unfold getTableGame at h
  split at h
  · exact .inl ⟨rfl, (Except.ok.inj h).symm⟩
  · exact .inr (.inl (Except.ok.inj h).symm)
  · exact .inr (.inr (Except.ok.inj h).symm)
  · simp at h

theorem pokerCheat_of_cheat {kind : String} {game : TableGame} (h : getTableGame kind = .ok game)
    {hand hand' : Hand} {rng rng' : Rng} (hcheat : game.cheat hand rng = .ok (hand', rng')) :
    pokerCheat hand rng = .ok (hand', rng') := by
  rcases getTableGame_cases h with ⟨-, rfl⟩ | rfl | rfl
  · exact hcheat
  · simp [auctionTableGame, noCheat] at hcheat
  · simp [warRigCrewTableGame, noCheat] at hcheat

/-- A table while a decision point is resolved: with the draws to come and what was read. -/
structure Round where
  table : TableState
  rng : Rng
  readResults : Dict String ReadResult

/-! ### Beats -/

/-- The kinds of beats the engine tells apart. -/
inductive BeatKind where
  | fold
  | pot
  | cheat
  | read
  | accuse
  | custom

def beatKind (beatId : String) : BeatKind :=
  if beatId ∈ ["fold", "withdraw"] then .fold
  else if beatId ∈ ["bet", "raise", "call", "bluff", "raise_bid"] then .pot
  else if beatId = "cheat" then .cheat
  else if beatId ∈ ["read_table", "read_room"] then .read
  else if beatId = "accuse" then .accuse
  else .custom

/-- A seat out of the hand. -/
def foldSeat : TableSeat := { seat with status := .folded }

/-- A seat with its standing bid. -/
def setBid (bid : Int) (seat : TableSeat) : TableSeat :=
  { seat with privateState := { seat.privateState with currentBid := some bid } }

/-- A seat with another hand. -/
def setHand (hand : Hand) (seat : TableSeat) : TableSeat :=
  { seat with privateState := { seat.privateState with hand := hand } }

/-- A seat that has learned something. -/
def addIntel (intel : Intel) (seat : TableSeat) : TableSeat :=
  { seat with privateState := { seat.privateState with
    readIntel := some (seat.privateState.readIntel.getD [] ++ [intel]) } }

/-- Chips into the pot, and the standing bid beside them. -/
def contribute (amount : Int) (state : TableState) : TableState :=
  let contribution := (state.pot.contributions.get? seatId).getD 0 + max 0 amount
  { state with pot := { state.pot with
    contributions := state.pot.contributions.insert seatId contribution } }.updateSeat seatId
      (setBid contribution)

/-- The seat a beat is aimed at. -/
def requireTarget : Except TableError TableSeat :=
  match commit.targetSeat with
  | none => .error (.requiresTargetSeat commit.beatId seatId)
  | some targetSeat =>
    match state.findSeat targetSeat with
    | none => .error (.targetsUnknownSeat commit.beatId targetSeat)
    | some target => .ok target

/-- Change the table of a round. -/
def onTable (f : TableState → TableState) : Effect TableError Round PUnit :=
  modify (fun r => { r with table := f r.table })

/-- A cheat. -/
def cheatBeat : Effect TableError Round PUnit := do
  let r ← get
  match game.cheat seat.privateState.hand r.rng with
  | .error e => throw e
  | .ok (hand, rng) => set { r with
      table := r.table.updateSeat seatId (setHand hand)
      rng := rng }

/-- What the reader notes of a read. -/
def ReadResult.intel (read : ReadResult) : Intel :=
  ⟨read.targetSeat, read.strengthBand, read.suspiciousTrace.getD false⟩

/-- A read: the reader notes what it learns. -/
def readBeat : Effect TableError Round PUnit := do
  let r ← get
  match requireTarget r.table seatId commit with
  | .error e => throw e
  | .ok target =>
    match game.read target (seat.privateState.perception.getD 0) with
    | .error e => throw e
    | .ok read => set { r with
        table := r.table.updateSeat seatId (addIntel read.intel)
        readResults := r.readResults.insert seatId read }

/-- An accusation is recorded, and resolved at showdown. -/
def accuseBeat : Effect TableError Round PUnit := do
  let r ← get
  match requireTarget r.table seatId commit with
  | .error e => throw e
  | .ok target => onTable (fun state =>
      { state with pendingAccusations := state.pendingAccusations ++ [(seatId, target.seatId)] })

/-- A beat of the game's own. -/
def customBeat (game : TableGame) (seatId : String) (commit : TableCommit) :
    Effect TableError Round PUnit :=
  ExceptT.mk (m := StateM Round) fun r =>
    let out := (game.customBeat r.table.dealerSeat seatId commit).exec (r.table.sharedState, r.rng)
    (out.1, { r with
      table := { r.table with sharedState := out.2.1 }
      rng := out.2.2 })

/-- One action of an active seat. -/
def applyCommit : Effect TableError Round PUnit :=
  match beatKind commit.beatId with
  | .fold => onTable (fun state => state.updateSeat seatId foldSeat)
  | .pot => onTable (contribute seatId commit.amount)
  | .cheat => cheatBeat game seatId seat
  | .read => readBeat game seatId seat commit
  | .accuse => accuseBeat seatId commit
  | .custom => customBeat game seatId commit

/-- The active seat of an id and its commit, if it has one. -/
def sealed : Option (TableSeat × TableCommit) :=
  match commits.get? seatId, state.findSeat seatId with
  | some commit, some seat => if seat.status = .active then some (seat, commit) else none
  | _, _ => none

/-- The turn of one seat; a folded seat's commit is passed over. -/
def applyTurn (commits : Dict String TableCommit) (seatId : String) :
    Effect TableError Round PUnit := do
  let r ← get
  match sealed r.table commits seatId with
  | none => pure ()
  | some (seat, commit) => applyCommit game seatId seat commit

/-! ### Showdown -/

/-- One accusation: it lands, and the target forfeits, or it does not, and the accuser does. -/
def resolveAccusation (acc : List String × Rng) (accusation : String × String) :
    List String × Rng :=
  match state.findSeat accusation.1, state.findSeat accusation.2 with
  | some accuser, some target =>
    let (roll, rng) := acc.2.randint 1 20
    let accuserTotal := roll + accuser.privateState.perception.getD 0
    let traceVal := target.privateState.hand.cheatTrace.getD 0
    let dc := 10 + target.privateState.concealment.getD 0 - roundHalfEven (traceVal * 8)
    let forfeits := if accuserTotal ≥ dc then accusation.2 else accusation.1
    (if forfeits ∈ acc.1 then acc.1 else acc.1 ++ [forfeits], rng)
  -- a seat that has left the table: the accusation lapses
  | _, _ => acc

/-- The seats that forfeit. -/
def forfeitedSeats (rng : Rng) : List String × Rng :=
  state.pendingAccusations.foldl (resolveAccusation state) ([], rng)

/-- The active seats that do not forfeit. -/
def contendersOf (forfeited : List String) : List TableSeat :=
  state.seats.filter (fun s => s.status = .active && decide (s.seatId ∉ forfeited))

/-- Each contender with its strength, which has to be readable. -/
def strengths (game : TableGame) :
    List TableSeat → Except TableError (List (TableSeat × Int))
  | [] => .ok []
  | s :: rest =>
    match game.strength s.privateState.hand s.privateState.currentBid with
    | .error _ => .error (.noReadableStrength s.seatId)
    | .ok strength => do
      let rest ← strengths game rest
      .ok ((s, strength) :: rest)

/-- How the hand is told to have ended. -/
def narrationHint (winner : TableSeat) (forfeited : List String) : String :=
  winner.partyName ++ " takes " ++ state.pot.stakeDescriptor ++
    if forfeited.isEmpty then "" else " (forfeits: " ++ ", ".intercalate forfeited ++ ")"

/-- The winner of the contenders: the strongest, and the first of several. -/
def winnerOf (ranked : List (TableSeat × Int)) : Option TableSeat :=
  -- of the orders on the integers, the one that computes
  letI : Preorder Int := Int.instLinearOrder.toPreorder
  (ranked.argmax Prod.snd).map Prod.fst

/-- The outcome of a showdown. -/
def outcomeOf (winner : TableSeat) (forfeited : List String) (readResults : Dict String ReadResult) :
    TableResolutionOutcome where
  showdown := true
  resolvedWinner := some winner.seatId
  potAwardedTo := some winner.seatId
  stakeKind := some state.pot.stakeKind
  stakeDescriptor := some state.pot.stakeDescriptor
  narrationHint := narrationHint state winner forfeited
  forfeitedSeats := forfeited
  readResults := readResults

/-- The showdown: the accusations are resolved and dropped, and of those who are left the
    strongest wins. -/
def showdown : Effect TableError Round TableResolutionOutcome := do
  let r ← get
  let (forfeited, rng) := forfeitedSeats r.table r.rng
  let table := { r.table with pendingAccusations := [] }
  set { r with
    table := table
    rng := rng }
  match strengths game (contendersOf table forfeited) with
  | .error e => throw e
  | .ok ranked =>
    match winnerOf ranked with
    | none => throw .zeroEligibleContenders
    | some winner =>
      set { r with
        table := { table with resolvedWinner := some winner.seatId }
        rng := rng }
      pure (outcomeOf table winner forfeited r.readResults)

/-! ### One decision point -/

/-- At most one seat is active, or this is the last decision point. -/
def isShowdown : Bool :=
  decide (state.activeSeatIds.length ≤ 1) || decide (state.decisionPoint ≥ state.maxDecisionPoints - 1)

/-- The outcome of a decision point with another one to come. -/
def onward (readResults : Dict String ReadResult) : TableResolutionOutcome where
  showdown := false
  resolvedWinner := none
  potAwardedTo := none
  stakeKind := none
  stakeDescriptor := none
  narrationHint := ""
  forfeitedSeats := []
  readResults := readResults

/-- After the commits: the showdown, or the next decision point. -/
def conclude : Effect TableError Round TableResolutionOutcome := do
  let r ← get
  if isShowdown r.table then showdown game
  else
    set { r with table := { r.table with decisionPoint := r.table.decisionPoint + 1 } }
    pure (onward r.readResults)

/-- The first commit for a seat that is not at the table. -/
def ghostCommit : Option String :=
  commits.keys.find? (fun seatId => (state.findSeat seatId).isNone)

/-- The commits, up to the first that raises. A commit for a seat that is not at the table is
    refused before anything is applied. -/
def applyCommits : Effect TableError Round TableGame := do
  let r ← get
  match getTableGame r.table.gameKind with
  | .error e => throw e
  | .ok game =>
    match ghostCommit r.table commits with
    | some seatId => throw (.unknownSeat seatId)
    | none => do
      r.table.order.forM (applyTurn game commits)
      pure game

/-- Resolve one decision point. -/
def resolveTable : Effect TableError Round TableResolutionOutcome := do
  modify (fun r => { r with readResults := .empty })
  let game ← applyCommits commits
  conclude game

/-- Deal a table of two seats or more. -/
def dealTable (rng : Rng) : Except TableError (TableState × Rng) :=
  if state.seats.length < 2 then .error (.tableNeedsOthers state.gameKind state.seats.length)
  else
    match getTableGame state.gameKind with
    | .error e => .error e
    | .ok game => do
      let (seats, pot, rng) ← game.deal state.seats state.pot rng
      .ok ({ state with
        seats := seats
        pot := pot }, rng)

/-! ### What the beats leave -/

open Effect

variable (game : TableGame) (seatId : String) (seat : TableSeat) (commit : TableCommit) (r : Round)

theorem exec_cheatBeat : (cheatBeat game seatId seat).exec r =
    match game.cheat seat.privateState.hand r.rng with
    | .error e => (.error e, r)
    | .ok (hand, rng) => (.ok ⟨⟩, { r with
        table := r.table.updateSeat seatId (setHand hand)
        rng := rng }) := by
  unfold cheatBeat
  rw [exec_bind, exec_get]
  dsimp only
  rcases game.cheat seat.privateState.hand r.rng with e | ⟨hand, rng⟩
  · rfl
  · rfl

theorem exec_readBeat : (readBeat game seatId seat commit).exec r =
    match requireTarget r.table seatId commit with
    | .error e => (.error e, r)
    | .ok target =>
      match game.read target (seat.privateState.perception.getD 0) with
      | .error e => (.error e, r)
      | .ok read => (.ok ⟨⟩, { r with
          table := r.table.updateSeat seatId (addIntel read.intel)
          readResults := r.readResults.insert seatId read }) := by
  unfold readBeat
  rw [exec_bind, exec_get]
  dsimp only
  rcases requireTarget r.table seatId commit with e | target
  · rfl
  · dsimp only
    rcases game.read target (seat.privateState.perception.getD 0) with e | read
    · rfl
    · rfl

theorem exec_accuseBeat : (accuseBeat seatId commit).exec r =
    match requireTarget r.table seatId commit with
    | .error e => (.error e, r)
    | .ok target => (.ok ⟨⟩, { r with table := { r.table with
        pendingAccusations := r.table.pendingAccusations ++ [(seatId, target.seatId)] } }) := by
  unfold accuseBeat
  rw [exec_bind, exec_get]
  dsimp only
  rcases requireTarget r.table seatId commit with e | target
  · rfl
  · rfl

theorem exec_customBeat {outcome : Except TableError PUnit} {shared : SharedState} {rng : Rng}
    (h : (game.customBeat r.table.dealerSeat seatId commit).exec (r.table.sharedState, r.rng)
      = (outcome, (shared, rng))) :
    (customBeat game seatId commit).exec r = (outcome, { r with
      table := { r.table with sharedState := shared }
      rng := rng }) := by
  have hexec : (customBeat game seatId commit).exec r =
      (((game.customBeat r.table.dealerSeat seatId commit).exec (r.table.sharedState, r.rng)).1,
        { r with
          table := { r.table with sharedState := ((game.customBeat r.table.dealerSeat seatId
            commit).exec (r.table.sharedState, r.rng)).2.1 }
          rng := ((game.customBeat r.table.dealerSeat seatId commit).exec
            (r.table.sharedState, r.rng)).2.2 }) := rfl
  rw [hexec, h]

theorem exec_applyTurn : (applyTurn game commits seatId).exec r =
      match sealed r.table commits seatId with
      | none => (.ok ⟨⟩, r)
      | some (seat, commit) => (applyCommit game seatId seat commit).exec r := by
  unfold applyTurn
  rw [exec_bind, exec_get]
  dsimp only
  rcases sealed r.table commits seatId with _ | ⟨seat, commit⟩
  · rfl
  · rfl

end Sidequest.Table
