import Sidequest.Table.Wreck
import Sidequest.Table.Showdown

namespace Sidequest.Table

open Lib Effect

/-!
# A decision point that raises

Nothing is taken back when a commit is refused, so the table is as it was before the call only if
no commit that came before it had anything to change.

* `Refused` — a commit the table refuses;
* `resolveTable_raise_eq_iff` — when a decision point that raises leaves the table alone.
-/

/-! ### Commits that are refused, and commits that change nothing -/

/-- The table of a decision point refuses a commit. -/
def Refused (game : TableGame) (table : TableState) (seatId : String) (seat : TableSeat)
    (commit : TableCommit) (rng : Rng) : Prop :=
  match beatKind commit.beatId with
  | .fold => False
  | .pot => False
  | .cheat => ∃ e, game.cheat seat.privateState.hand rng = .error e
  | .read =>
    (∃ e, requireTarget table seatId commit = .error e) ∨
      ∃ target e, requireTarget table seatId commit = .ok target ∧
        game.read target (seat.privateState.perception.getD 0) = .error e
  | .accuse => ∃ e, requireTarget table seatId commit = .error e
  | .custom => ∃ e, ((game.customBeat table.dealerSeat seatId commit).exec
      (table.sharedState, rng)).1 = .error e

/-- A commit changes nothing, but may draw. Where the hand is closing, an accusation leaves nothing
    behind either. -/
inductive Idle (game : TableGame) (table : TableState) (closing : Bool) (seatId : String)
    (seat : TableSeat) (commit : TableCommit) : Rng → Rng → Prop
  | pot {rng} (c : Int) : beatKind commit.beatId = .pot → commit.amount ≤ 0 →
      table.pot.contributions.get? seatId = some c → seat.privateState.currentBid = some c →
      Idle game table closing seatId seat commit rng rng
  | cheat {rng rng'} : beatKind commit.beatId = .cheat →
      game.cheat seat.privateState.hand rng = .ok (seat.privateState.hand, rng') →
      Idle game table closing seatId seat commit rng rng'
  | accuse {rng} (target : TableSeat) : beatKind commit.beatId = .accuse → closing = true →
      requireTarget table seatId commit = .ok target →
      Idle game table closing seatId seat commit rng rng
  | custom {rng rng'} : beatKind commit.beatId = .custom →
      (game.customBeat table.dealerSeat seatId commit).exec (table.sharedState, rng)
        = (.ok ⟨⟩, (table.sharedState, rng')) →
      Idle game table closing seatId seat commit rng rng'

/-- Every commit the seats come to is idle, up to one that is refused; or all of them are, and at
    a showdown there are no accusations to drop. -/
inductive Quiet (game : TableGame) (table : TableState) (commits : Dict String TableCommit)
    (closing : Bool) : List String → Rng → Prop
  | shown {rng} : closing = true → table.pendingAccusations = [] →
      Quiet game table commits closing [] rng
  | skipped {seatId rest rng} : sealed table commits seatId = none →
      Quiet game table commits closing rest rng →
      Quiet game table commits closing (seatId :: rest) rng
  | idle {seatId rest seat commit rng rng'} : sealed table commits seatId = some (seat, commit) →
      Idle game table closing seatId seat commit rng rng' →
      Quiet game table commits closing rest rng' →
      Quiet game table commits closing (seatId :: rest) rng
  | refused {seatId rest seat commit rng} : closing = false →
      sealed table commits seatId = some (seat, commit) →
      Refused game table seatId seat commit rng →
      Quiet game table commits closing (seatId :: rest) rng

/-! ### One turn -/

/-- The table with its accusations dropped. -/
def cleared (table : TableState) : TableState := { table with pendingAccusations := [] }

/-- What a raise has to leave alone: the table, less its accusations if the hand is closing. -/
def counted (closing : Bool) (table : TableState) : TableState :=
  if closing then cleared table else table

/-- Tables that count the same differ in their accusations at most. -/
theorem exists_pending_of_counted {closing : Bool} {table table' : TableState}
    (h : counted closing table' = counted closing table) :
    ∃ pending, table' = { table with pendingAccusations := pending } := by
  cases closing with
  | false => exact ⟨table.pendingAccusations, h⟩
  | true =>
    refine ⟨table'.pendingAccusations, ?_⟩
    have hcleared : cleared table' = cleared table := h
    exact congrArg
      (fun t : TableState => { t with pendingAccusations := table'.pendingAccusations }) hcleared

section Turn

variable {game : TableGame} {table : TableState} {closing : Bool} {seatId : String}
  {seat : TableSeat} {commit : TableCommit} {r : Round}

/-- Which commits are idle does not depend on the accusations. -/
theorem Idle.of_pending {rng rng' : Rng} {pending : List (String × String)}
    (h : Idle game { table with pendingAccusations := pending } closing seatId seat commit rng rng') :
    Idle game table closing seatId seat commit rng rng' := by
  cases h with
  | pot c hkind hamount hget hbid => exact Idle.pot c hkind hamount hget hbid
  | cheat hkind hcheat => exact Idle.cheat hkind hcheat
  | accuse target hkind hclosing htarget => exact Idle.accuse target hkind hclosing htarget
  | custom hkind hexec => exact Idle.custom hkind hexec

theorem exec_applyCommit_of_refused {kind : String} (hgame : getTableGame kind = .ok game)
    (h : Refused game r.table seatId seat commit r.rng) :
    ∃ e rng', (applyCommit game seatId seat commit).exec r = (.error e, { r with rng := rng' }) := by
  unfold Refused at h
  unfold applyCommit
  cases hkind : beatKind commit.beatId with
  | fold => simp [hkind] at h
  | pot => simp [hkind] at h
  | cheat =>
    simp only [hkind] at h
    obtain ⟨e, hcheat⟩ := h
    refine ⟨e, r.rng, ?_⟩
    show (cheatBeat game seatId seat).exec r = _
    rw [exec_cheatBeat, hcheat]
  | read =>
    simp only [hkind] at h
    show ∃ e rng', (readBeat game seatId seat commit).exec r = _
    rw [exec_readBeat]
    rcases h with ⟨e, htarget⟩ | ⟨target, e, htarget, hread⟩
    · refine ⟨e, r.rng, ?_⟩
      rw [htarget]
    · refine ⟨e, r.rng, ?_⟩
      rw [htarget]
      dsimp only
      rw [hread]
  | accuse =>
    simp only [hkind] at h
    obtain ⟨e, htarget⟩ := h
    refine ⟨e, r.rng, ?_⟩
    show (accuseBeat seatId commit).exec r = _
    rw [exec_accuseBeat, htarget]
  | custom =>
    simp only [hkind] at h
    obtain ⟨e, hraise⟩ := h
    have hshared := (customBeat_spec hgame r.table.dealerSeat seatId commit r.table.sharedState
      r.rng).2 e hraise
    have hout : (game.customBeat r.table.dealerSeat seatId commit).exec (r.table.sharedState, r.rng)
        = (.error e, (r.table.sharedState, _)) := Prod.ext hraise (Prod.ext hshared rfl)
    exact ⟨e, _, exec_customBeat game seatId commit r hout⟩

theorem exec_applyCommit_of_idle (hseat : r.table.findSeat seatId = some seat) {rng' : Rng}
    (h : Idle game r.table closing seatId seat commit r.rng rng') :
    ∃ table' reads', (applyCommit game seatId seat commit).exec r = (.ok ⟨⟩, ⟨table', rng', reads'⟩) ∧
      counted closing table' = counted closing r.table := by
  unfold applyCommit
  cases h with
  | pot c hkind hamount hget hbid =>
    refine ⟨contribute seatId commit.amount r.table, r.readResults, ?_, ?_⟩
    · rw [hkind]
      rfl
    · rw [(contribute_eq_self_iff hseat commit.amount).mpr ⟨hamount, c, hget, hbid⟩]
  | cheat hkind hcheat =>
    refine ⟨r.table.updateSeat seatId (setHand seat.privateState.hand), r.readResults, ?_, ?_⟩
    · rw [hkind]
      show (cheatBeat game seatId seat).exec r = _
      rw [exec_cheatBeat, hcheat]
    · rw [(updateSeat_eq_self_iff hseat _).mpr rfl]
  | accuse target hkind hclosing htarget =>
    refine ⟨{ r.table with
      pendingAccusations := r.table.pendingAccusations ++ [(seatId, target.seatId)] },
      r.readResults, ?_, ?_⟩
    · rw [hkind]
      show (accuseBeat seatId commit).exec r = _
      rw [exec_accuseBeat, htarget]
    · rw [hclosing]
      rfl
  | custom hkind hexec =>
    refine ⟨r.table, r.readResults, ?_, rfl⟩
    rw [hkind]
    exact exec_customBeat game seatId commit r hexec

theorem findSeat_counted : (counted closing table).findSeat seatId = table.findSeat seatId := by
  cases closing with
  | false => rfl
  | true => rfl

theorem counted_updateSeat (f : TableSeat → TableSeat) :
    counted closing (table.updateSeat seatId f) = (counted closing table).updateSeat seatId f := by
  cases closing with
  | false => rfl
  | true => rfl

theorem counted_contribute (amount : Int) : counted closing (contribute seatId amount table)
      = contribute seatId amount (counted closing table) := by
  cases closing with
  | false => rfl
  | true => rfl

/-- **One commit.** It is refused, or what counts of the table rises; and where that stays, the
    commit is idle. -/
theorem applyCommit_cases (closing : Bool) {kind : String} (hgame : getTableGame kind = .ok game)
    (hseat : r.table.findSeat seatId = some seat) (hactive : seat.status = .active) :
    (∃ e rng', Refused game r.table seatId seat commit r.rng ∧
      (applyCommit game seatId seat commit).exec r = (.error e, { r with rng := rng' })) ∨
    ∃ table' rng' reads',
      (applyCommit game seatId seat commit).exec r = (.ok ⟨⟩, ⟨table', rng', reads'⟩) ∧
      Rises tableRank (counted closing r.table) (counted closing table') ∧
      (counted closing table' = counted closing r.table →
        Idle game r.table closing seatId seat commit r.rng rng') := by
  have hcounted : (counted closing r.table).findSeat seatId = some seat :=
    findSeat_counted.trans hseat
  -- a seat that is really changed has changed the table
  have hchanged : ∀ f : TableSeat → TableSeat,
      counted closing (r.table.updateSeat seatId f) = counted closing r.table → f seat = seat := by
    intro f h
    rw [counted_updateSeat] at h
    exact (updateSeat_eq_self_iff hcounted f).mp h
  unfold applyCommit
  cases hkind : beatKind commit.beatId with
  | fold =>
    refine .inr ⟨_, _, _, rfl, ?_, fun h => ?_⟩
    · rw [counted_updateSeat]
      exact rises_updateSeat hcounted (.inr (seatRank_lt_foldSeat hactive))
    · have hsame := congrArg seatRank (hchanged foldSeat h)
      exact absurd hsame (seatRank_lt_foldSeat hactive).ne'
  | pot =>
    refine .inr ⟨_, _, _, rfl, ?_, fun h => ?_⟩
    · rw [counted_contribute]
      exact rises_contribute hcounted commit.amount
    · rw [counted_contribute] at h
      obtain ⟨hamount, c, hget, hbid⟩ := (contribute_eq_self_iff hcounted commit.amount).mp h
      refine Idle.pot c hkind hamount ?_ hbid
      cases closing with
      | false => exact hget
      | true => exact hget
  | cheat =>
    show (∃ e rng', Refused _ _ _ _ _ _ ∧ (cheatBeat game seatId seat).exec r = _) ∨
      ∃ table' rng' reads', (cheatBeat game seatId seat).exec r = _ ∧ _
    rw [exec_cheatBeat]
    rcases hcheat : game.cheat seat.privateState.hand r.rng with e | ⟨hand, rng'⟩
    · refine .inl ⟨e, r.rng, ?_, rfl⟩
      unfold Refused
      rw [hkind]
      exact ⟨e, hcheat⟩
    · refine .inr ⟨_, _, _, rfl, ?_, fun h => ?_⟩
      · rw [counted_updateSeat]
        exact rises_updateSeat hcounted (rises_setHand (rises_cheat hgame hcheat))
      · have hhand : hand = seat.privateState.hand :=
          congrArg (fun s : TableSeat => s.privateState.hand) (hchanged (setHand hand) h)
        exact Idle.cheat hkind (hhand ▸ hcheat)
  | read =>
    show (∃ e rng', Refused _ _ _ _ _ _ ∧ (readBeat game seatId seat commit).exec r = _) ∨
      ∃ table' rng' reads', (readBeat game seatId seat commit).exec r = _ ∧ _
    rw [exec_readBeat]
    rcases htarget : requireTarget r.table seatId commit with e | target
    · refine .inl ⟨e, r.rng, ?_, rfl⟩
      unfold Refused
      rw [hkind]
      exact .inl ⟨e, htarget⟩
    · dsimp only
      rcases hread : game.read target (seat.privateState.perception.getD 0) with e | read
      · refine .inl ⟨e, r.rng, ?_, rfl⟩
        unfold Refused
        rw [hkind]
        exact .inr ⟨target, e, htarget, hread⟩
      · refine .inr ⟨_, _, _, rfl, ?_, fun h => ?_⟩
        · rw [counted_updateSeat]
          exact rises_updateSeat hcounted (.inr (seatRank_lt_addIntel read.intel seat))
        · have hsame := congrArg seatRank (hchanged (addIntel read.intel) h)
          exact absurd hsame (seatRank_lt_addIntel read.intel seat).ne'
  | accuse =>
    show (∃ e rng', Refused _ _ _ _ _ _ ∧ (accuseBeat seatId commit).exec r = _) ∨
      ∃ table' rng' reads', (accuseBeat seatId commit).exec r = _ ∧ _
    rw [exec_accuseBeat]
    rcases htarget : requireTarget r.table seatId commit with e | target
    · refine .inl ⟨e, r.rng, ?_, rfl⟩
      unfold Refused
      rw [hkind]
      exact ⟨e, htarget⟩
    · refine .inr ⟨_, _, _, rfl, ?_, fun h => ?_⟩
      · cases closing with
        | false => exact .inr (tableRank_lt_accuse (seatId, target.seatId))
        | true => exact Rises.refl _
      · cases closing with
        | false =>
          have hpending := congrArg (fun t : TableState => t.pendingAccusations.length) h
          exact absurd hpending (by simp [counted])
        | true => exact Idle.accuse target hkind rfl htarget
  | custom =>
    obtain ⟨hrises, hraise⟩ := customBeat_spec hgame r.table.dealerSeat seatId commit
      r.table.sharedState r.rng
    rcases hout : (game.customBeat r.table.dealerSeat seatId commit).exec
      (r.table.sharedState, r.rng) with ⟨e | u, shared, rng'⟩
    · have hshared : shared = r.table.sharedState := by
        rw [hout] at hraise
        exact hraise e rfl
      rw [hshared] at hout
      refine .inl ⟨e, rng', ?_, exec_customBeat game seatId commit r hout⟩
      unfold Refused
      rw [hkind]
      exact ⟨e, congrArg Prod.fst hout⟩
    · rw [hout] at hrises
      refine .inr ⟨_, _, _, exec_customBeat game seatId commit r hout, ?_, fun h => ?_⟩
      · cases closing with
        | false => exact rises_shared hrises
        | true => exact rises_shared hrises
      · have hshared : shared = r.table.sharedState := by
          cases closing with
          | false => exact congrArg TableState.sharedState h
          | true => exact congrArg TableState.sharedState h
        exact Idle.custom hkind (hshared ▸ hout)

end Turn

/-! ### All turns -/

section Turns

variable {kind : String} {game : TableGame} {commits : Dict String TableCommit} {closing : Bool}

theorem rises_applyTurn (hgame : getTableGame kind = .ok game) (seatId : String) (r : Round) :
    Rises tableRank (counted closing r.table)
      (counted closing ((applyTurn game commits seatId).exec r).2.table) := by
  rw [exec_applyTurn]
  rcases hsealed : sealed r.table commits seatId with _ | ⟨seat, commit⟩
  · exact Rises.refl _
  · obtain ⟨hseat, hactive⟩ := sealed_eq_some hsealed
    dsimp only
    rcases applyCommit_cases closing hgame hseat hactive with
      ⟨e, rng', -, hexec⟩ | ⟨table', rng', reads', hexec, hrises, -⟩
    · rw [hexec]
      exact Rises.refl _
    · rw [hexec]
      exact hrises

/-- How a loop of turns ends that is to be followed by a raise: at once in one, unless the hand is
    closing without accusations. -/
def EndsFor (closing : Bool) (table : TableState) (outcome : Except TableError PUnit) : Prop :=
  if closing then outcome = .ok ⟨⟩ ∧ table.pendingAccusations = [] else ∃ e, outcome = .error e

/-- A quiet loop leaves the table alone. -/
theorem exec_forM_of_quiet (hgame : getTableGame kind = .ok game) {table : TableState}
    {order : List String} {rng : Rng} (h : Quiet game table commits closing order rng) :
    ∀ r : Round, counted closing r.table = counted closing table → r.rng = rng →
      counted closing ((order.forM (applyTurn game commits)).exec r).2.table = counted closing table ∧
        EndsFor closing table ((order.forM (applyTurn game commits)).exec r).1 := by
  -- on the quiet loop: each turn of it is made at a table that counts as the same
  induction h with
  | shown hclosing hpending =>
    intro r hr hrng
    refine ⟨hr, ?_⟩
    unfold EndsFor
    rw [if_pos hclosing]
    exact ⟨rfl, hpending⟩
  | @skipped seatId rest rng hsealed hrest ih =>
    intro r hr hrng
    obtain ⟨pending, htable⟩ := exists_pending_of_counted hr
    have hturn : (applyTurn game commits seatId).exec r = (.ok ⟨⟩, r) := by
      have hsealed' : sealed r.table commits seatId = none := by
        rw [htable]
        exact hsealed
      rw [exec_applyTurn, hsealed']
    have hloop : ((seatId :: rest).forM (applyTurn game commits)).exec r
        = (rest.forM (applyTurn game commits)).exec r := by
      rw [exec_forM_cons, exec_bind, hturn]
    rw [hloop]
    exact ih r hr hrng
  | @idle seatId rest seat commit rng rng' hsealed hidle hrest ih =>
    intro r hr hrng
    subst hrng
    obtain ⟨pending, htable⟩ := exists_pending_of_counted hr
    have hsealed' : sealed r.table commits seatId = some (seat, commit) := by
      rw [htable]
      exact hsealed
    have hidle' : Idle game r.table closing seatId seat commit r.rng rng' := by
      rw [htable]
      exact Idle.of_pending hidle
    obtain ⟨table', reads', hexec, hsame⟩ :=
      exec_applyCommit_of_idle (sealed_eq_some hsealed').1 hidle'
    have hloop : ((seatId :: rest).forM (applyTurn game commits)).exec r
        = (rest.forM (applyTurn game commits)).exec ⟨table', rng', reads'⟩ := by
      rw [exec_forM_cons, exec_bind, exec_applyTurn, hsealed']
      dsimp only
      rw [hexec]
    rw [hloop]
    exact ih _ (hsame.trans hr) rfl
  | @refused seatId rest seat commit rng hclosing hsealed hrefused =>
    intro r hr hrng
    subst hrng hclosing
    have htable : r.table = table := hr
    subst htable
    obtain ⟨e, rng', hexec⟩ := exec_applyCommit_of_refused hgame hrefused
    have hloop : ((seatId :: rest).forM (applyTurn game commits)).exec r
        = (.error e, { r with rng := rng' }) := by
      rw [exec_forM_cons, exec_bind, exec_applyTurn, hsealed]
      dsimp only
      rw [hexec]
    rw [hloop]
    exact ⟨rfl, e, rfl⟩

theorem quiet_of_steady (hgame : getTableGame kind = .ok game) {table : TableState}
    {order : List String} {r : Round} (hr : counted closing r.table = counted closing table)
    (h : Steady (fun r : Round => counted closing r.table) (applyTurn game commits) order r)
    (hends : EndsFor closing table ((order.forM (applyTurn game commits)).exec r).1) :
    Quiet game table commits closing order r.rng := by
  induction order generalizing r with
  | nil =>
    cases closing with
    | false =>
      obtain ⟨e, he⟩ := hends
      exact absurd he (by simp)
    | true => exact Quiet.shown rfl hends.2
  | cons seatId rest ih =>
    obtain ⟨hsame, hrest⟩ := h
    obtain ⟨pending, htable⟩ := exists_pending_of_counted hr
    rw [exec_forM_cons, exec_bind] at hends
    rcases hsealed : sealed r.table commits seatId with _ | ⟨seat, commit⟩
    · have hturn : (applyTurn game commits seatId).exec r = (.ok ⟨⟩, r) := by
        rw [exec_applyTurn, hsealed]
      rw [hturn] at hrest hends
      rw [htable] at hsealed
      exact Quiet.skipped hsealed (ih hr hrest hends)
    · obtain ⟨hseat, hactive⟩ := sealed_eq_some hsealed
      have hturn : (applyTurn game commits seatId).exec r
          = (applyCommit game seatId seat commit).exec r := by
        rw [exec_applyTurn, hsealed]
      rw [hturn] at hsame hrest hends
      have hsealed' : sealed table commits seatId = some (seat, commit) := by
        rw [htable] at hsealed
        exact hsealed
      rcases applyCommit_cases closing hgame hseat hactive with
        ⟨e, rng', hrefused, hexec⟩ | ⟨table', rng', reads', hexec, -, hidle⟩
      · rw [hexec] at hends
        cases closing with
        | false =>
          have htable : r.table = table := hr
          rw [htable] at hrefused
          exact Quiet.refused rfl hsealed' hrefused
        | true => exact absurd hends.1 (by simp)
      · rw [hexec] at hsame hrest hends
        have hidle := hidle hsame
        rw [htable] at hidle
        exact Quiet.idle hsealed' (Idle.of_pending hidle) (ih (hsame.trans hr) hrest hends)

/-- **All turns.** What counts of the table is left alone, and the loop ends as it should, exactly
    if the commits are quiet. -/
theorem quiet_iff (hgame : getTableGame kind = .ok game) (commits : Dict String TableCommit)
    (closing : Bool) (order : List String) (r : Round) :
    Quiet game r.table commits closing order r.rng ↔
      counted closing ((order.forM (applyTurn game commits)).exec r).2.table
        = counted closing r.table ∧
      EndsFor closing r.table ((order.forM (applyTurn game commits)).exec r).1 := by
  constructor
  · intro h
    exact exec_forM_of_quiet hgame h r rfl rfl
  · rintro ⟨hsame, hends⟩
    have hrises : ∀ (seatId : String) (r : Round), Rises tableRank (counted closing r.table)
        (counted closing ((applyTurn game commits seatId).exec r).2.table) :=
      fun seatId r => rises_applyTurn hgame seatId r
    have hsteady := (part_exec_forM_eq_iff hrises order r).mp hsame
    exact quiet_of_steady hgame rfl hsteady hends

end Turns

/-! ### The decision point -/

/-- A showdown that raises drops the accusations, and leaves the rest of the table alone. -/
theorem table_of_conclude_error {game : TableGame} {r r' : Round} {e : TableError}
    (h : (conclude game).exec r = (.error e, r')) : r'.table = cleared r.table := by
  rw [exec_conclude] at h
  by_cases hshow : isShowdown r.table = true
  · rw [if_pos hshow, exec_showdown] at h
    rcases hranked : strengths game (contendersOf r.table (forfeitedSeats r.table r.rng).1) with
      e' | ranked
    · rw [hranked] at h
      cases h
      rfl
    · rw [hranked] at h
      dsimp only at h
      rcases hwinner : winnerOf ranked with _ | winner
      · rw [hwinner] at h
        cases h
        rfl
      · rw [hwinner] at h
        cases congrArg Prod.fst h
  · rw [if_neg hshow] at h
    cases congrArg Prod.fst h

/-- Nothing is applied before a commit for a seat that is not there is refused, and nothing at all
    at a table of no registered kind. -/
def RefusedAtOnce (table : TableState) (commits : Dict String TableCommit) : Prop :=
  (∃ e, getTableGame table.gameKind = .error e) ∨ ∃ seatId, ghostCommit table commits = some seatId

/-- **When a raise leaves the table alone.** A decision point that raises leaves the table as it
    was exactly if it raises before any commit is applied, or every commit up to the one that is
    refused, or to the showdown, is idle. -/
theorem resolveTable_raise_eq_iff {commits : Dict String TableCommit} {r r' : Round} {e : TableError}
    (h : (resolveTable commits).exec r = (.error e, r')) :
    r'.table = r.table ↔ RefusedAtOnce r.table commits ∨
      ∃ game closing, getTableGame r.table.gameKind = .ok game ∧
        Quiet game r.table commits closing r.table.order r.rng := by
  unfold resolveTable at h
  rw [exec_bind, exec_modify] at h
  dsimp only at h
  rw [exec_bind] at h
  unfold applyCommits at h
  rw [exec_bind, exec_get] at h
  dsimp only at h
  rcases hgame : getTableGame r.table.gameKind with e' | game
  · rw [hgame] at h
    obtain ⟨-, rfl⟩ := Prod.mk.inj h
    exact ⟨fun _ => .inl (.inl ⟨e', hgame⟩), fun _ => rfl⟩
  · rw [hgame] at h
    rcases hghost : ghostCommit r.table commits with _ | seatId
    · rw [hghost] at h
      rw [exec_bind] at h
      -- past both refusals, only a quiet loop can leave the table as it was
      have hlater : ¬ RefusedAtOnce r.table commits := by
        rintro (⟨e', he'⟩ | ⟨seatId, hseatId⟩)
        · cases hgame.symm.trans he'
        · cases hghost.symm.trans hseatId
      have hclosing : (∃ game' closing, getTableGame r.table.gameKind = .ok game' ∧
          Quiet game' r.table commits closing r.table.order r.rng)
          ↔ ∃ closing, Quiet game r.table commits closing r.table.order r.rng := by
        constructor
        · rintro ⟨game', closing, hgame', hquiet⟩
          cases hgame.symm.trans hgame'
          exact ⟨closing, hquiet⟩
        · rintro ⟨closing, hquiet⟩
          exact ⟨game, closing, hgame, hquiet⟩
      rw [or_iff_right hlater, ← hgame, hclosing]
      have hquiet := fun closing => quiet_iff hgame commits closing r.table.order
        { r with readResults := Dict.empty }
      rcases hloop : (r.table.order.forM (applyTurn game commits)).exec
          { r with readResults := Dict.empty } with ⟨e₁ | u, r₁⟩
      · -- a commit was refused
        rw [hloop] at h hquiet
        obtain ⟨-, rfl⟩ := Prod.mk.inj h
        constructor
        · intro hsame
          exact ⟨false, (hquiet false).mpr ⟨hsame, e₁, rfl⟩⟩
        · rintro ⟨closing, hq⟩
          obtain ⟨hsame, hends⟩ := (hquiet closing).mp hq
          cases closing with
          | false => exact hsame
          | true => exact absurd hends.1 (by simp)
      · -- all commits were applied, and the showdown has raised
        rw [hloop] at h hquiet
        have htable : r'.table = cleared r₁.table := table_of_conclude_error h
        rw [htable]
        constructor
        · intro hsame
          have hpending : r.table.pendingAccusations = [] :=
            (congrArg TableState.pendingAccusations hsame).symm
          have hcleared : cleared (cleared r₁.table) = cleared r.table := congrArg cleared hsame
          exact ⟨true, (hquiet true).mpr ⟨hcleared, rfl, hpending⟩⟩
        · rintro ⟨closing, hq⟩
          obtain ⟨hsame, hends⟩ := (hquiet closing).mp hq
          cases closing with
          | false =>
            obtain ⟨e', he'⟩ := hends
            exact absurd he' (by simp)
          | true =>
            have hcleared : cleared r₁.table = cleared r.table := hsame
            rw [hcleared]
            unfold cleared
            rw [← hends.2]
    · rw [hghost] at h
      cases h
      exact ⟨fun _ => .inl (.inr ⟨seatId, hghost⟩), fun _ => rfl⟩

/-! ### Two seats, the second of which accuses nobody -/

/-- Seat 1 acts, and seat 2 accuses without saying whom. -/
def thenAccuseNobody (beatId : String) : Dict String TableCommit :=
  (Dict.empty.insert "seat_1" { seatId := "seat_1", beatId := beatId }).insert "seat_2"
    { seatId := "seat_2", beatId := "accuse" }

/-- A bid raised by nothing leaves the table as it was when the accusation is refused. -/
theorem resolveTable_raise_eq_thenAccuseNobody :
    ((resolveTable (thenAccuseNobody "raise_bid")).exec ⟨twoBidding, zeros, .empty⟩).2.table
      = twoBidding := by
  have hraise : (resolveTable (thenAccuseNobody "raise_bid")).exec ⟨twoBidding, zeros, .empty⟩
      = (.error (.requiresTargetSeat "accuse" "seat_2"), ⟨twoBidding, zeros, .empty⟩) := rfl
  have hidle : Quiet auctionTableGame twoBidding (thenAccuseNobody "raise_bid") false
      twoBidding.order zeros := by
    apply Quiet.idle rfl (Idle.pot 0 rfl le_rfl rfl rfl)
    exact Quiet.refused rfl rfl ⟨_, rfl⟩
  exact (resolveTable_raise_eq_iff hraise).mpr (.inr ⟨auctionTableGame, false, rfl, hidle⟩)

/-- **What was applied stays applied.** When seat 2's accusation is refused, seat 1 has already
    withdrawn. -/
theorem not_unchanged_on_raise :
    ¬ ∀ (commits : Dict String TableCommit) (r r' : Round) (e : TableError),
        (resolveTable commits).exec r = (.error e, r') → r'.table = r.table := by
  intro hall
  have hsame := hall (thenAccuseNobody "withdraw") ⟨twoBidding, zeros, .empty⟩ _ _ rfl
  have hstatus := congrArg (fun table : TableState => table.seats.map TableSeat.status) hsame
  exact absurd hstatus (by decide)

end Sidequest.Table
