import Sidequest.Lib.Except
import Sidequest.Lib.Run
import Sidequest.Table.Engine
import Sidequest.Table.Wreck

namespace Sidequest.Table

open Lib Effect

/-!
# How a hand ends

A dealt hand keeps its strengths readable, so once the commits have passed, the one thing a
decision point can raise at is a showdown that nobody is left for.

* `SeatsKept` — the seats stay, and hands are changed by cheating only: `seatsKept_resolveTable`;
* `decided_hand` — every decision point of a hand ends so;
* `pokerHands_sound` — the invariant over every hand that is played.
-/

section

/-! ### Readable strengths -/

/-- Every seat has been dealt what its strength is read from. -/
def Dealt (table : TableState) : Prop :=
  table.gameKind = "poker" → ∀ seat ∈ table.seats, seat.privateState.hand.strength.isSome = true

/-- The kind of game stays, and so does what was dealt. -/
structure Kept (r r' : Round) : Prop where
  gameKind : r'.table.gameKind = r.table.gameKind
  dealt : Dealt r.table → Dealt r'.table

variable {kind : String} {game : TableGame}

/-- The strength of a seat that was dealt to is readable. -/
theorem exists_strength (hgame : getTableGame kind = .ok game) {hand : Hand} (bid : Option Int)
    (h : kind = "poker" → hand.strength.isSome = true) : ∃ n, game.strength hand bid = .ok n := by
  rcases getTableGame_cases hgame with ⟨hpoker, rfl⟩ | rfl | rfl
  · obtain ⟨n, hn⟩ := Option.isSome_iff_exists.mp (h hpoker)
    refine ⟨n, ?_⟩
    unfold pokerTableGame
    dsimp only
    rw [hn]
  · exact ⟨_, rfl⟩
  · exact ⟨_, rfl⟩

/-! ### What the commits keep -/

/-- The hand was left alone, or it was cheated with, once or more. -/
def Cheats : Hand → Hand → Prop :=
  Relation.ReflTransGen (fun hand hand' => ∃ rng rng', pokerCheat hand rng = .ok (hand', rng'))

/-- The seat is the same one, and its hand was left alone or cheated with. -/
def SameSeat (seat seat' : TableSeat) : Prop :=
  seat'.seatId = seat.seatId ∧ Cheats seat.privateState.hand seat'.privateState.hand

/-- The kind of game stays, and so do the seats with their hands, as far as nobody cheats. -/
structure SeatsKept (r r' : Round) : Prop where
  gameKind : r'.table.gameKind = r.table.gameKind
  seats : List.Forall₂ SameSeat r.table.seats r'.table.seats

instance : IsPreorder TableSeat SameSeat where
  refl _ := ⟨rfl, .refl⟩
  trans _ _ _ h h' := ⟨h'.1.trans h.1, h.2.trans h'.2⟩

instance : IsPreorder Round SeatsKept where
  refl _ := ⟨rfl, List.forall₂_refl _⟩
  trans _ _ _ h h' := ⟨h'.gameKind.trans h.gameKind, forall₂_trans h.seats h'.seats⟩

theorem Cheats.keeps {P : Hand → Prop} {hand hand' : Hand} (h : Cheats hand hand')
    (hP : ∀ hand hand' rng rng', pokerCheat hand rng = .ok (hand', rng') → P hand → P hand')
    (hhand : P hand) : P hand' := by
  induction h with
  | refl => exact hhand
  | tail _ hcheat ih =>
    obtain ⟨rng, rng', hcheat⟩ := hcheat
    exact hP _ _ rng rng' hcheat ih

/-- What a cheat keeps of a hand holds of all hands as long as it held of all of them. -/
theorem SeatsKept.hands {P : Hand → Prop} {r r' : Round} (h : SeatsKept r r')
    (hP : ∀ hand hand' rng rng', pokerCheat hand rng = .ok (hand', rng') → P hand → P hand')
    (hall : ∀ seat ∈ r.table.seats, P seat.privateState.hand) :
    ∀ seat ∈ r'.table.seats, P seat.privateState.hand := by
  intro seat' hseat'
  obtain ⟨seat, hseat, -, hcheats⟩ := exists_of_forall₂ h.seats hseat'
  exact hcheats.keeps hP (hall seat hseat)

theorem SeatsKept.kept {r r' : Round} (h : SeatsKept r r') : Kept r r' := by
  refine ⟨h.gameKind, fun hdealt hpoker => ?_⟩
  refine h.hands (P := fun hand => hand.strength.isSome = true) (fun _ _ _ _ hcheat _ => ?_)
    (hdealt (h.gameKind ▸ hpoker))
  obtain ⟨before, cards, swapped, -, -, -, rfl, -⟩ := pokerCheat_eq_ok hcheat
  rfl

theorem forall₂_updateSeat {table : TableState} {seatId : String} {seat : TableSeat}
    (hseat : table.findSeat seatId = some seat) {f : TableSeat → TableSeat}
    (hf : SameSeat seat (f seat)) :
    List.Forall₂ SameSeat table.seats (table.updateSeat seatId f).seats := by
  obtain ⟨before, after, hold, hnew⟩ := exists_split_updateFirst f hseat
  show List.Forall₂ SameSeat table.seats (updateFirst (·.seatId = seatId) f table.seats)
  rw [hnew, hold]
  exact List.rel_append (List.forall₂_refl before) (.cons hf (List.forall₂_refl after))

/-- **The action of an active seat** keeps the seats. -/
theorem seatsKept_applyCommit (hgame : getTableGame kind = .ok game) {seatId : String}
    {seat : TableSeat} {r : Round} (hseat : r.table.findSeat seatId = some seat)
    (commit : TableCommit) : SeatsKept r ((applyCommit game seatId seat commit).exec r).2 := by
  unfold applyCommit
  cases beatKind commit.beatId with
  | fold => exact ⟨rfl, forall₂_updateSeat hseat ⟨rfl, .refl⟩⟩
  | pot => exact ⟨rfl, forall₂_updateSeat hseat ⟨rfl, .refl⟩⟩
  | cheat =>
    rw [exec_cheatBeat]
    rcases hcheat : game.cheat seat.privateState.hand r.rng with e | ⟨hand, rng⟩
    · exact refl_of SeatsKept r
    · refine ⟨rfl, forall₂_updateSeat hseat ⟨rfl, .single ?_⟩⟩
      exact ⟨r.rng, rng, pokerCheat_of_cheat hgame hcheat⟩
  | read =>
    rw [exec_readBeat]
    rcases requireTarget r.table seatId commit with e | target
    · exact refl_of SeatsKept r
    · dsimp only
      rcases game.read target (seat.privateState.perception.getD 0) with e | read
      · exact refl_of SeatsKept r
      · exact ⟨rfl, forall₂_updateSeat hseat ⟨rfl, .refl⟩⟩
  | accuse =>
    rw [exec_accuseBeat]
    rcases requireTarget r.table seatId commit with e | target
    · exact refl_of SeatsKept r
    · exact ⟨rfl, List.forall₂_refl _⟩
  | custom => exact ⟨rfl, List.forall₂_refl _⟩

theorem sealed_eq_some {table : TableState} {commits : Dict String TableCommit} {seatId : String}
    {seat : TableSeat} {commit : TableCommit} (h : sealed table commits seatId = some (seat, commit)) :
    table.findSeat seatId = some seat ∧ seat.status = .active := by
  unfold sealed at h
  split at h
  · split at h
    · rename_i hactive
      cases h
      exact ⟨by assumption, hactive⟩
    · simp at h
  · simp at h

theorem seatsKept_applyTurn (hgame : getTableGame kind = .ok game)
    (commits : Dict String TableCommit) (seatId : String) :
    Preserves SeatsKept (applyTurn game commits seatId) := by
  intro r
  rw [exec_applyTurn]
  rcases hsealed : sealed r.table commits seatId with _ | ⟨seat, commit⟩
  · exact refl_of SeatsKept r
  · exact seatsKept_applyCommit hgame ((sealed_eq_some hsealed).1) commit

variable (r : Round) (commits : Dict String TableCommit)

theorem meets_applyCommits (r : Round) : Meets (fun s => s = r) (applyCommits commits)
      (fun game r' => SeatsKept r r' ∧ getTableGame r.table.gameKind = .ok game)
      (fun _ => SeatsKept r) := by
  unfold applyCommits
  refine meets_get_bind (fun s hs => ?_)
  subst hs
  rcases hgame : getTableGame s.table.gameKind with e | game
  · exact fun s' hs' => hs' ▸ refl_of SeatsKept s
  · rcases ghostCommit s.table commits with _ | seatId
    · have hloop := (preserves_forM (seatsKept_applyTurn hgame commits)
        s.table.order).meets_of_state s
      exact meets_bind hloop (fun _ s' hs' => ⟨hs', rfl⟩)
    · exact fun s' hs' => hs' ▸ refl_of SeatsKept s

theorem exec_showdown : (showdown game).exec r =
    match strengths game (contendersOf r.table (forfeitedSeats r.table r.rng).1) with
    | .error e => (.error e, { r with
        table := { r.table with pendingAccusations := [] }
        rng := (forfeitedSeats r.table r.rng).2 })
    | .ok ranked =>
      match winnerOf ranked with
      | none => (.error .zeroEligibleContenders, { r with
          table := { r.table with pendingAccusations := [] }
          rng := (forfeitedSeats r.table r.rng).2 })
      | some winner => (.ok (outcomeOf r.table winner (forfeitedSeats r.table r.rng).1
          r.readResults), { r with
            table := { r.table with
              pendingAccusations := []
              resolvedWinner := some winner.seatId }
            rng := (forfeitedSeats r.table r.rng).2 }) := by
  unfold showdown
  rw [exec_bind, exec_get]
  dsimp only
  have hsame : contendersOf { r.table with pendingAccusations := [] }
      (forfeitedSeats r.table r.rng).1
        = contendersOf r.table (forfeitedSeats r.table r.rng).1 := rfl
  rw [hsame]
  rcases strengths game (contendersOf r.table (forfeitedSeats r.table r.rng).1) with e | ranked
  · rfl
  · dsimp only
    rcases winnerOf ranked with _ | winner
    · rfl
    · rfl

theorem exec_conclude : (conclude game).exec r =
    if isShowdown r.table then (showdown game).exec r else (.ok (onward r.readResults), { r with
      table := { r.table with decisionPoint := r.table.decisionPoint + 1 } }) := by
  unfold conclude
  rw [exec_bind, exec_get]
  dsimp only
  by_cases hshow : isShowdown r.table = true
  · rw [if_pos hshow, if_pos hshow]
  · rw [if_neg hshow, if_neg hshow]
    rfl

theorem seatsKept_conclude : Preserves SeatsKept (conclude game) := by
  intro r
  rw [exec_conclude]
  by_cases hshow : isShowdown r.table = true
  · rw [if_pos hshow, exec_showdown]
    rcases strengths game (contendersOf r.table (forfeitedSeats r.table r.rng).1) with e | ranked
    · exact ⟨rfl, List.forall₂_refl _⟩
    · dsimp only
      rcases winnerOf ranked with _ | winner
      · exact ⟨rfl, List.forall₂_refl _⟩
      · exact ⟨rfl, List.forall₂_refl _⟩
  · rw [if_neg hshow]
    exact ⟨rfl, List.forall₂_refl _⟩

/-- A decision point keeps the seats, wherever it ends. -/
theorem seatsKept_resolveTable : Preserves SeatsKept (resolveTable commits) := by
  have hcommits : Preserves SeatsKept (applyCommits commits) := by
    intro r
    have hpost := meets_applyCommits commits r r rfl
    rcases hexec : (applyCommits commits).exec r with ⟨e | game, r'⟩
    · rw [hexec] at hpost
      exact hpost
    · rw [hexec] at hpost
      exact hpost.1
  have hstart : Preserves SeatsKept (modify (fun r : Round => { r with readResults := .empty }) :
      Effect TableError Round PUnit) := fun r => ⟨rfl, List.forall₂_refl _⟩
  exact hstart.bind (fun _ => hcommits.bind (fun _ => seatsKept_conclude))

/-! ### Ranking the contenders -/

/-- Readable seats are ranked in their order. -/
theorem exists_strengths {seats : List TableSeat}
    (h : ∀ seat ∈ seats, ∃ n, game.strength seat.privateState.hand seat.privateState.currentBid
      = .ok n) :
    ∃ ranked, strengths game seats = .ok ranked ∧ ranked.map Prod.fst = seats ∧
      ∀ p ∈ ranked, game.strength p.1.privateState.hand p.1.privateState.currentBid = .ok p.2 := by
  induction seats with
  | nil => exact ⟨[], rfl, rfl, by simp⟩
  | cons seat rest ih =>
    obtain ⟨n, hn⟩ := h seat (.head _)
    obtain ⟨ranked, hranked, hfst, hall⟩ := ih (fun s hs => h s (.tail seat hs))
    refine ⟨(seat, n) :: ranked, ?_, by rw [List.map_cons, hfst], ?_⟩
    · unfold strengths
      rw [hn, hranked]
      rfl
    · intro p hp
      rcases List.mem_cons.mp hp with rfl | hp
      · exact hn
      · exact hall p hp

/-- The winner is the strongest of those ranked; only of nobody there is none. -/
theorem winnerOf_spec (ranked : List (TableSeat × Int)) : (winnerOf ranked = none ↔ ranked = []) ∧
      ∀ winner, winnerOf ranked = some winner →
        ∃ n, (winner, n) ∈ ranked ∧ ∀ p ∈ ranked, p.2 ≤ n := by
  unfold winnerOf
  constructor
  · rw [Option.map_eq_none_iff, List.argmax_eq_none]
  · intro winner hwinner
    obtain ⟨p, hp, rfl⟩ := Option.map_eq_some_iff.mp hwinner
    exact ⟨p.2, List.argmax_mem hp, fun q hq => List.le_of_mem_argmax hq hp⟩

/-! ### A decision point -/

/-- The seats a showdown is between. -/
def contendersAt : List TableSeat :=
  contendersOf r.table (forfeitedSeats r.table r.rng).1

/-- How a decision point ends once its commits have passed, at `r₁`: another one is to come; or
    nobody is left, and it raises; or one of the contenders wins, and none is stronger. -/
inductive EndsAs (game : TableGame) (r₁ : Round) :
    Except TableError TableResolutionOutcome × Round → Prop
  | onward {r'} : isShowdown r₁.table = false → EndsAs game r₁ (.ok (onward r₁.readResults), r')
  | nobody {r'} : isShowdown r₁.table = true → contendersAt r₁ = [] →
      EndsAs game r₁ (.error .zeroEligibleContenders, r')
  | winner {r'} (winner : TableSeat) : isShowdown r₁.table = true → winner ∈ contendersAt r₁ →
      (∃ n, game.strength winner.privateState.hand winner.privateState.currentBid = .ok n ∧
        ∀ s ∈ contendersAt r₁, ∀ m,
          game.strength s.privateState.hand s.privateState.currentBid = .ok m → m ≤ n) →
      r'.table.resolvedWinner = some winner.seatId →
      EndsAs game r₁ (.ok (outcomeOf r₁.table winner (forfeitedSeats r₁.table r₁.rng).1
        r₁.readResults), r')

/-- A decision point whose commits pass ends in one of the three ways. -/
def Decided : Prop :=
  ∀ game r₁, (applyCommits commits).exec { r with readResults := .empty } = (.ok game, r₁) →
    EndsAs game r₁ ((resolveTable commits).exec r)

theorem decided_of_dealt {r : Round} (hdealt : Dealt r.table)
    (commits : Dict String TableCommit) : Decided r commits := by
  intro game r₁ hexec
  have hpost := meets_applyCommits commits _ { r with readResults := .empty } rfl
  rw [hexec] at hpost
  obtain ⟨hkept, hgame⟩ := hpost
  have hdealt₁ : Dealt r₁.table := hkept.kept.dealt hdealt
  have hresolve : (resolveTable commits).exec r = (conclude game).exec r₁ := by
    unfold resolveTable
    rw [exec_bind, exec_modify]
    dsimp only
    rw [exec_bind, hexec]
  rw [hresolve, exec_conclude]
  by_cases hshow : isShowdown r₁.table = true
  · rw [if_pos hshow, exec_showdown]
    -- all contenders are seats that were dealt to
    have hreadable : ∀ seat ∈ contendersAt r₁, ∃ n,
        game.strength seat.privateState.hand seat.privateState.currentBid = .ok n := by
      intro seat hseat
      refine exists_strength hgame _ (fun hpoker => hdealt₁ ?_ seat (List.mem_filter.mp hseat).1)
      exact hkept.gameKind.trans hpoker
    obtain ⟨ranked, hranked, hfst, hall⟩ := exists_strengths hreadable
    have hcontenders : contendersOf r₁.table (forfeitedSeats r₁.table r₁.rng).1
        = contendersAt r₁ := rfl
    rw [hcontenders, hranked]
    obtain ⟨hnone, hsome⟩ := winnerOf_spec ranked
    dsimp only
    rcases hwinner : winnerOf ranked with _ | winner
    · refine EndsAs.nobody hshow ?_
      rw [← hfst, hnone.mp hwinner]
      rfl
    · obtain ⟨n, hmem, hmax⟩ := hsome winner hwinner
      refine EndsAs.winner winner hshow ?_ ⟨n, hall _ hmem, ?_⟩ rfl
      · rw [← hfst]
        exact List.mem_map_of_mem hmem
      · intro s hs m hm
        rw [← hfst] at hs
        obtain ⟨p, hp, rfl⟩ := List.mem_map.mp hs
        rw [Except.ok.inj (hm.symm.trans (hall p hp))]
        exact hmax p hp
  · rw [if_neg hshow]
    exact EndsAs.onward (by simpa using hshow)

/-! ### Hands that are dealt -/

theorem isSome_strength_of_dealPoker {seats seats' : List TableSeat} {pot pot' : TablePot}
    {deck : List Card} (h : dealPoker seats pot deck = .ok (seats', pot')) :
    ∀ seat ∈ seats', seat.privateState.hand.strength.isSome = true := by
  induction seats generalizing seats' pot pot' deck with
  | nil =>
    have hseats : [] = seats' := congrArg Prod.fst (Except.ok.inj h)
    intro seat hseat
    rw [← hseats] at hseat
    simp at hseat
  | cons seat rest ih =>
    obtain ⟨⟨cards, deck'⟩, -, hrest⟩ := bind_eq_ok.mp h
    obtain ⟨⟨seats'', pot''⟩, hdealt, hall⟩ := bind_eq_ok.mp hrest
    have hseats : dealtPoker seat cards :: seats'' = seats' :=
      congrArg Prod.fst (Except.ok.inj hall)
    intro s hs
    rw [← hseats] at hs
    rcases List.mem_cons.mp hs with rfl | hs
    · rfl
    · exact ih hdealt s hs

theorem dealt_of_dealTable {state dealt : TableState} {rng rng' : Rng}
    (h : dealTable state rng = .ok (dealt, rng')) : Dealt dealt := by
  unfold dealTable at h
  by_cases hseats : state.seats.length < 2
  · rw [if_pos hseats] at h
    simp at h
  · rw [if_neg hseats] at h
    rcases hgame : getTableGame state.gameKind with e | game
    · rw [hgame] at h
      simp at h
    · rw [hgame] at h
      obtain ⟨⟨seats, pot, rng''⟩, hdeal, hrest⟩ := bind_eq_ok.mp h
      have htable : { state with
          seats := seats
          pot := pot } = dealt := congrArg Prod.fst (Except.ok.inj hrest)
      rw [← htable]
      intro hpoker
      have hkind : state.gameKind = "poker" := hpoker
      rw [hkind] at hgame
      obtain rfl : pokerTableGame = game := Except.ok.inj hgame
      obtain ⟨⟨seats', pot'⟩, hcards, hall⟩ := bind_eq_ok.mp hdeal
      have hsame : seats' = seats := congrArg Prod.fst (Except.ok.inj hall)
      rw [← hsame]
      exact isSome_strength_of_dealPoker hcards

/-- One decision point after the other. -/
def nextPoint : Round :=
  ((resolveTable commits).exec r).2

/-- **How a hand ends.** From the deal on, every decision point whose commits pass goes on to the
    next one, or raises at a showdown that no seat is left for, or is won by the strongest of the
    seats that are active and do not forfeit. -/
theorem decided_hand {state dealt : TableState} {rng rng' : Rng}
    (h : dealTable state rng = .ok (dealt, rng')) (points : List (Dict String TableCommit)) :
    StepsMeet nextPoint Decided ⟨dealt, rng', .empty⟩ points := by
  have hstep : ∀ (r : Round) (commits : Dict String TableCommit), Dealt r.table → True →
      Dealt (nextPoint r commits).table :=
    fun r commits hdealt _ => (seatsKept_resolveTable commits r).kept.dealt hdealt
  exact stepsMeet_of_invariant hstep (fun _ commits hdealt _ => decided_of_dealt hdealt commits)
    (dealt_of_dealTable h) (stepsMeet_of_forall (fun _ _ => trivial) _ points)

/-! ### Two seats that both fold -/

/-- Two parties at an auction. -/
def twoBidders : TableState where
  gameKind := "auction"
  seats := [⟨"seat_1", "Ann", true, .active, {}⟩, ⟨"seat_2", "Rux", false, .active, {}⟩]
  pot := ⟨"item", "the deed to the Bar-T", (Dict.empty.insert "seat_1" 0).insert "seat_2" 0⟩
  order := ["seat_1", "seat_2"]
  dealerSeat := "seat_1"
  decisionPoint := 0
  maxDecisionPoints := 3
  resolvedWinner := none
  sharedState := ⟨none, none⟩
  pendingAccusations := []

/-- Draws of nothing but zeros. -/
def zeros : Rng := fun _ => 0

/-- The two parties with their valuations. -/
def twoBidding : TableState :=
  { twoBidders with seats := (dealAuction twoBidders.seats zeros).1 }

/-- Both withdraw. -/
def bothWithdraw : Dict String TableCommit :=
  (Dict.empty.insert "seat_1" { seatId := "seat_1", beatId := "withdraw" }).insert "seat_2"
    { seatId := "seat_2", beatId := "withdraw" }

/-- Every decision point of an auction between the two ends as it should. -/
theorem decided_twoBidders :
    StepsMeet nextPoint Decided ⟨twoBidding, zeros, .empty⟩ [bothWithdraw] := by
  have hdeal : dealTable twoBidders zeros = .ok (twoBidding, zeros) := rfl
  exact decided_hand hdeal [bothWithdraw]

/-- **A showdown may be left with nobody.** Both parties may withdraw, which no check of the
    commits forbids, and the decision point raises. -/
theorem not_never_raises :
    ¬ ∀ (state dealt : TableState) (rng rng' : Rng) (commits : Dict String TableCommit),
        dealTable state rng = .ok (dealt, rng') →
        (∃ game r₁, (applyCommits commits).exec ⟨dealt, rng', .empty⟩ = (.ok game, r₁)) →
        ∃ outcome, ((resolveTable commits).exec ⟨dealt, rng', .empty⟩).1 = .ok outcome := by
  intro hall
  obtain ⟨outcome, houtcome⟩ := hall twoBidders twoBidding zeros zeros bothWithdraw rfl
    ⟨auctionTableGame, _, rfl⟩
  exact absurd houtcome (by simp [show ((resolveTable bothWithdraw).exec
    ⟨twoBidding, zeros, .empty⟩).1 = .error .zeroEligibleContenders from rfl])

end

/-! ### A hand -/

/-- Five different cards, with their strength, its band, and a trace from 0 to 1. -/
def FiveCards (hand : Hand) : Prop :=
  ∃ cards trace, hand.cards = some cards ∧ cards.length = 5 ∧ cards.Nodup ∧
    hand.strength = some (handStrength cards) ∧
    hand.strengthBand = some (bandFor (handStrength cards)) ∧
    hand.cheatTrace = some trace ∧ 0 ≤ trace ∧ trace ≤ 1

/-- Neither the strength nor the trace has fallen. -/
def NoWorse (hand hand' : Hand) : Prop :=
  (∀ n ∈ hand.strength, ∃ n' ∈ hand'.strength, n ≤ n') ∧
    ∀ t ∈ hand.cheatTrace, ∃ t' ∈ hand'.cheatTrace, t ≤ t'

instance : IsPreorder Hand NoWorse where
  refl _ := ⟨fun n hn => ⟨n, hn, le_refl n⟩, fun t ht => ⟨t, ht, le_refl t⟩⟩
  trans _ _ _ h h' := by
    constructor
    · intro n hn
      obtain ⟨n', hn', hle⟩ := h.1 n hn
      obtain ⟨n'', hn'', hle'⟩ := h'.1 n' hn'
      exact ⟨n'', hn'', hle.trans hle'⟩
    · intro t ht
      obtain ⟨t', ht', hle⟩ := h.2 t ht
      obtain ⟨t'', ht'', hle'⟩ := h'.2 t' ht'
      exact ⟨t'', ht'', hle.trans hle'⟩

/-- The weakest card makes room for one that is not in the hand. -/
theorem swapWeakest_spec {cards swapped : List Card} (h : swapWeakest cards = .ok swapped)
    (hnodup : cards.Nodup) : swapped.length = cards.length ∧ swapped.Nodup := by
  unfold swapWeakest at h
  split at h
  · simp at h
  · simp at h
  · rename_i weakest replacement hweakest hreplacement
    cases h
    have hnew : replacement ∉ cards := by
      exact of_decide_eq_true (List.mem_filter.mp (List.argmax_mem hreplacement)).2
    have hfind : cards.find? (fun c => decide (c = weakest)) = some weakest := by
      have hsome : (cards.find? (fun c => decide (c = weakest))).isSome = true :=
        List.find?_isSome.mpr ⟨weakest, List.argmin_mem hweakest, decide_eq_true rfl⟩
      obtain ⟨c, hc⟩ := Option.isSome_iff_exists.mp hsome
      have hsame := List.find?_some hc
      rw [hc, of_decide_eq_true hsame]
    obtain ⟨before, after, hold, hswapped⟩ := exists_split_updateFirst (fun _ => replacement) hfind
    rw [hswapped]
    rw [hold] at hnodup hnew ⊢
    rw [List.nodup_middle, List.nodup_cons] at hnodup ⊢
    refine ⟨by simp, fun hmem => hnew ?_, hnodup.2⟩
    rcases List.mem_append.mp hmem with hmem | hmem
    · exact List.mem_append_left _ hmem
    · exact List.mem_append_right _ (.tail _ hmem)

/-- A trace grows, up to 1. -/
theorem nextTrace_bounds {prior jitter : ℚ} (hprior : prior ≤ 1) (hjitter : 0 ≤ jitter) :
    prior ≤ nextTrace prior jitter ∧ nextTrace prior jitter ≤ 1 := by
  obtain ⟨hstay, hnear⟩ := nextTrace_spec prior hjitter
  have hle : nextTrace prior jitter ≤ 1 := roundTo_le_one 4 (min_le_left _ _)
  refine ⟨?_, hle⟩
  by_cases hone : prior = 1
  · rw [hstay hone, hone]
  · have hcloser := hnear hone
    rw [abs_of_nonpos (by linarith), abs_of_nonpos (by linarith)] at hcloser
    linarith

/-- **A cheat** leaves five different cards with their strength, and makes no hand worse. -/
theorem fiveCards_pokerCheat {hand hand' : Hand} {rng rng' : Rng}
    (h : pokerCheat hand rng = .ok (hand', rng')) (hhand : FiveCards hand) :
    FiveCards hand' ∧ NoWorse hand hand' := by
  obtain ⟨cards, trace, hcards, hlength, hnodup, hstrength, -, htrace, hlow, hhigh⟩ := hhand
  obtain ⟨before, cards', swapped, hbefore, hcards', hswap, rfl, -⟩ := pokerCheat_eq_ok h
  cases hcards.symm.trans hcards'
  cases hstrength.symm.trans hbefore
  obtain ⟨hlength', hnodup'⟩ := swapWeakest_spec hswap hnodup
  obtain ⟨hgrows, hone⟩ := nextTrace_bounds hhigh (Rng.random_nonneg rng)
  have hprior : hand.cheatTrace.getD 0 = trace := by rw [htrace]; rfl
  have htraces : ∀ t ∈ hand.cheatTrace, t ≤ nextTrace trace rng.random.1 := by
    intro t ht
    cases htrace.symm.trans ht
    exact hgrows
  unfold cheatedHand NoWorse
  simp only [hprior, hstrength]
  -- the swap is kept only where it makes the hand stronger
  by_cases himproved : handStrength cards < handStrength swapped
  · simp only [if_pos himproved]
    refine ⟨⟨swapped, _, rfl, hlength'.trans hlength, hnodup', rfl, rfl, rfl, hlow.trans hgrows,
      hone⟩, ?_, fun t ht => ⟨_, rfl, htraces t ht⟩⟩
    intro n hn
    cases hn
    exact ⟨_, rfl, himproved.le⟩
  · simp only [if_neg himproved]
    exact ⟨⟨cards, _, rfl, hlength, hnodup, rfl, rfl, rfl, hlow.trans hgrows, hone⟩,
      fun n hn => ⟨n, hn, le_refl n⟩, fun t ht => ⟨_, rfl, htraces t ht⟩⟩

theorem fiveCards_of_cheats {hand hand' : Hand} (h : Cheats hand hand') (hhand : FiveCards hand) :
    FiveCards hand' ∧ NoWorse hand hand' := by
  refine h.keeps (P := fun hand' => FiveCards hand' ∧ NoWorse hand hand') ?_
    ⟨hhand, refl_of NoWorse hand⟩
  rintro _ _ _ _ hcheat ⟨hfive, hworse⟩
  obtain ⟨hfive', hworse'⟩ := fiveCards_pokerCheat hcheat hfive
  exact ⟨hfive', trans_of NoWorse hworse hworse'⟩

/-! ### The deal -/

/-- **The deal.** A deck of different cards with five for every seat is dealt. -/
theorem fiveCards_of_dealPoker (seats : List TableSeat) (pot : TablePot) {deck : List Card}
    (hnodup : deck.Nodup) (henough : 5 * seats.length ≤ deck.length) :
    ∃ dealt pot', dealPoker seats pot deck = .ok (dealt, pot') ∧
      dealt.map TableSeat.seatId = seats.map TableSeat.seatId ∧
      ∀ seat ∈ dealt, FiveCards seat.privateState.hand := by
  induction seats generalizing pot deck with
  | nil => exact ⟨[], pot, rfl, rfl, by simp⟩
  | cons seat seats ih =>
    rw [List.length_cons] at henough
    have hpop : pop5 deck = .ok (deck.reverse.take 5, (deck.reverse.drop 5).reverse) :=
      if_neg (by omega)
    have hreversed : deck.reverse.Nodup := List.nodup_reverse.mpr hnodup
    obtain ⟨dealt, pot', hdealt, hids, hall⟩ := ih
      { pot with contributions :=
        pot.contributions.insert seat.seatId ((pot.contributions.get? seat.seatId).getD 0 + 1) }
      (List.nodup_reverse.mpr (hreversed.sublist (List.drop_sublist 5 _)))
      (by simp only [List.length_reverse, List.length_drop]; omega)
    refine ⟨dealtPoker seat (deck.reverse.take 5) :: dealt, pot', ?_, ?_, ?_⟩
    · unfold dealPoker
      simp only [hpop, hdealt, bind, Except.bind]
    · rw [List.map_cons, List.map_cons, hids]
      rfl
    · intro s hs
      rcases List.mem_cons.mp hs with rfl | hs
      · refine ⟨deck.reverse.take 5, 0, rfl, ?_, hreversed.sublist (List.take_sublist 5 _), rfl,
          rfl, rfl, le_refl 0, zero_le_one⟩
        rw [List.length_take, List.length_reverse]
        omega
      · exact hall s hs

/-! ### A hand that is played -/

/-- The seats are the same ones. Each has five cards, and is no worse off. -/
def InOrder (seats : List TableSeat) (r : Round) : Prop :=
  List.Forall₂ (fun seat seat' : TableSeat => seat'.seatId = seat.seatId ∧
    FiveCards seat'.privateState.hand ∧
    NoWorse seat.privateState.hand seat'.privateState.hand) seats r.table.seats

/-- A showdown is won by one of the contenders, and none of them has a better hand. -/
def WonByBest (r : Round) (commits : Dict String TableCommit) : Prop :=
  ∀ outcome r', (resolveTable commits).exec r = (.ok outcome, r') → outcome.showdown = true →
    ∃ game r₁, (applyCommits commits).exec { r with readResults := .empty } = (.ok game, r₁) ∧
      ∃ winner ∈ contendersAt r₁, outcome.resolvedWinner = some winner.seatId ∧
        ∃ cards, winner.privateState.hand.cards = some cards ∧
          ∀ seat ∈ contendersAt r₁, ∃ cards', seat.privateState.hand.cards = some cards' ∧
            ¬ Weaker (categorize cards) (categorize cards')

/-- A round with poker hands that are in order. -/
def Playing (r : Round) : Prop :=
  r.table.gameKind = "poker" ∧ ∀ seat ∈ r.table.seats, FiveCards seat.privateState.hand

variable {r r' : Round}

theorem SeatsKept.inOrder (h : SeatsKept r r') (hr : Playing r) : InOrder r.table.seats r' := by
  refine ((List.forall₂_and_left _ _).mpr ⟨hr.2, h.seats⟩).imp ?_
  rintro seat seat' ⟨hfive, hid, hcheats⟩
  exact ⟨hid, fiveCards_of_cheats hcheats hfive⟩

theorem SeatsKept.playing (h : SeatsKept r r') (hr : Playing r) : Playing r' :=
  ⟨h.gameKind.trans hr.1, h.hands (fun _ _ _ _ hcheat hfive => (fiveCards_pokerCheat hcheat hfive).1)
    hr.2⟩

/-- **The showdown** finds a best hand, since strengths compare like hands. -/
theorem wonByBest_of_playing (hr : Playing r) (commits : Dict String TableCommit) :
    WonByBest r commits := by
  intro outcome r' hexec hshowdown
  have hdealt : Dealt r.table := by
    intro _ seat hseat
    obtain ⟨cards, trace, -, -, -, hstrength, -⟩ := hr.2 seat hseat
    rw [hstrength]
    rfl
  have hpost := meets_applyCommits commits _ { r with readResults := .empty } rfl
  rcases happly : (applyCommits commits).exec { r with readResults := .empty } with ⟨e | game, r₁⟩
  · have hraised : (resolveTable commits).exec r = (.error e, r₁) := by
      unfold resolveTable
      rw [exec_bind, exec_modify]
      dsimp only
      rw [exec_bind, happly]
    cases hraised.symm.trans hexec
  · rw [happly] at hpost
    obtain ⟨hkept, hgame⟩ := hpost
    have hr₁ : Playing r₁ := SeatsKept.playing (r := { r with readResults := .empty }) hkept hr
    have hends := decided_of_dealt hdealt commits game r₁ happly
    rw [hexec] at hends
    refine ⟨game, r₁, rfl, ?_⟩
    have hpoker : getTableGame r.table.gameKind = .ok game := hgame
    rw [hr.1] at hpoker
    obtain rfl : pokerTableGame = game := Except.ok.inj hpoker
    have hstrength : ∀ seat ∈ contendersAt r₁, ∃ cards, seat.privateState.hand.cards = some cards ∧
        cards.length = 5 ∧ pokerTableGame.strength seat.privateState.hand
          seat.privateState.currentBid = .ok (handStrength cards) := by
      intro seat hseat
      obtain ⟨cards, trace, hcards, hlength, -, hstrength, -⟩ :=
        hr₁.2 seat (List.mem_filter.mp hseat).1
      refine ⟨cards, hcards, hlength, ?_⟩
      unfold pokerTableGame
      dsimp only
      rw [hstrength]
    cases hends with
    | onward _ => simp [onward] at hshowdown
    | winner winner _ hmem hbest _ =>
      obtain ⟨n, hn, hmax⟩ := hbest
      obtain ⟨cards, hcards, hlength, hwinner⟩ := hstrength winner hmem
      cases hn.symm.trans hwinner
      refine ⟨winner, hmem, rfl, cards, hcards, fun seat hseat => ?_⟩
      obtain ⟨cards', hcards', hlength', hseat'⟩ := hstrength seat hseat
      refine ⟨cards', hcards', fun hweaker => ?_⟩
      have hlt := (handStrength_lt_iff hlength hlength').mpr hweaker
      exact absurd (hmax seat hseat _ hseat') (not_le.mpr hlt)

/-- **Poker hands are sound.** At a table of two to ten seats every order of the deck is dealt, the
    engine deals one of them, and at every decision point of the hand that follows, whatever is
    committed, every seat has five different cards with their strength, band and trace, no seat is
    worse off than before, and a showdown is won by a best hand. -/
theorem pokerHands_sound (state : TableState) (hkind : state.gameKind = "poker")
    (hmin : 2 ≤ state.seats.length) (hmax : state.seats.length ≤ 10) :
    (∀ deck : List Card, deck.Perm fullDeck →
      ∃ seats pot, dealPoker state.seats state.pot deck = .ok (seats, pot) ∧
        seats.map TableSeat.seatId = state.seats.map TableSeat.seatId ∧
        ∀ (rng : Rng) (points : List (Dict String TableCommit)),
          let start : Round := ⟨{ state with
            seats := seats
            pot := pot }, rng, .empty⟩
          Throughout nextPoint (InOrder seats) start points ∧
            StepsMeet nextPoint (fun r commits => InOrder r.table.seats (nextPoint r commits) ∧
              WonByBest r commits) start points) ∧
    (∀ rng, ∃ deck rng', deck.Perm fullDeck ∧ dealTable state rng
      = (dealPoker state.seats state.pot deck).map (fun p =>
        ({ state with
          seats := p.1
          pot := p.2 }, rng'))) ∧
    (∀ hand hand' rng rng', pokerCheat hand rng = .ok (hand', rng') → FiveCards hand →
      FiveCards hand' ∧ NoWorse hand hand') ∧
    ∀ cards cards' : List Card, cards.length = 5 → cards'.length = 5 →
      (handStrength cards < handStrength cards' ↔ Weaker (categorize cards) (categorize cards')) ∧
      (handStrength cards = handStrength cards' ↔ categorize cards = categorize cards') := by
  refine ⟨fun deck hdeck => ?_, fun rng => ?_, fun hand hand' rng rng' => fiveCards_pokerCheat,
    fun cards cards' h h' => ⟨handStrength_lt_iff h h', handStrength_eq_iff h h'⟩⟩
  · have hnodup : deck.Nodup := hdeck.nodup_iff.mpr (by decide +kernel)
    have hlength : deck.length = 52 := hdeck.length_eq.trans (by decide +kernel)
    obtain ⟨seats, pot, hdealt, hids, hall⟩ :=
      fiveCards_of_dealPoker state.seats state.pot hnodup (by omega)
    refine ⟨seats, pot, hdealt, hids, fun rng points => ?_⟩
    intro start
    have hstart : Playing start := ⟨hkind, hall⟩
    constructor
    · refine (throughout_of_step (I := SeatsKept start) (fun r commits hr => ?_)
        (refl_of SeatsKept start) points).mono (fun r hr => hr.inOrder hstart)
      exact trans_of SeatsKept hr (seatsKept_resolveTable commits r)
    · have hstep : ∀ (r : Round) (commits : Dict String TableCommit), Playing r → True →
          Playing (nextPoint r commits) :=
        fun r commits hr _ => (seatsKept_resolveTable commits r).playing hr
      refine stepsMeet_of_invariant hstep (fun r commits hr _ => ?_) hstart
        (stepsMeet_of_forall (fun _ _ => trivial) _ points)
      exact ⟨(seatsKept_resolveTable commits r).inOrder hr, wonByBest_of_playing hr commits⟩
  · refine ⟨(rng.shuffle fullDeck).1, (rng.shuffle fullDeck).2, perm_shuffleFrom _ _ rng, ?_⟩
    unfold dealTable
    rw [if_neg (by omega), hkind]
    show (pokerTableGame.deal state.seats state.pot rng >>= _) = _
    unfold pokerTableGame
    dsimp only
    rcases dealPoker state.seats state.pot (rng.shuffle fullDeck).1 with e | ⟨seats, pot⟩ <;> rfl

/-- A table of two. -/
theorem pokerHands_sound_twoSeats :
    ∃ seats pot, dealPoker twoBidders.seats twoBidders.pot fullDeck = .ok (seats, pot) ∧
      seats.map TableSeat.seatId = ["seat_1", "seat_2"] := by
  obtain ⟨hdeck, -⟩ := pokerHands_sound { twoBidders with gameKind := "poker" } rfl (by decide)
    (by decide)
  obtain ⟨seats, pot, hdealt, hids, -⟩ := hdeck fullDeck (List.Perm.refl _)
  exact ⟨seats, pot, hdealt, hids⟩

end Sidequest.Table
