import Mathlib.Data.Prod.Lex
import Mathlib.Tactic.IntervalCases
import Sidequest.Lib.Rises
import Sidequest.Lib.Run
import Sidequest.Table.Engine
import Sidequest.World.Patch

namespace Sidequest.Table

open Lib Effect
open World (HpPool)

/-!
# Tables that rise, and the wreck of the war rig

Beats fold seats, improve hands, fill the pot and spend what the crew shares: each leaves the table
as it is, or higher in rank. A hit on the crew's hull may crash all aboard.

* `handRank`, `sharedRank`, `seatRank`, `tableRank` — the ranks;
* `applyWarRigHullDamage` — a hit on the crew's hull; a hull that goes to zero crashes all aboard;
* `lawfulRun_iff` — every run keeps the books of points and crashes, unless a crisis wrecks the rig.
-/

section

/-! ### Traces and hands -/

/-- A trace moves towards 1, and stays there. -/
theorem nextTrace_spec (prior : ℚ) {jitter : ℚ} (hjitter : 0 ≤ jitter) :
    (prior = 1 → nextTrace prior jitter = 1) ∧
      (prior ≠ 1 → |nextTrace prior jitter - 1| < |prior - 1|) := by
  -- from 1 on the raised trace is cut off at 1
  have hcut : 1 ≤ prior → nextTrace prior jitter = 1 := by
    intro hprior
    unfold nextTrace
    rw [min_eq_left (by linarith), roundTo_one]
  refine ⟨fun heq => hcut heq.ge, fun hne => ?_⟩
  rcases lt_or_gt_of_ne hne with hlt | hgt
  · have hle : nextTrace prior jitter ≤ 1 := roundTo_le_one 4 (min_le_left _ _)
    have hlow := sub_le_roundTo 4 (min 1 (prior + 3 / 10 + jitter * (15 / 100)))
    have hup : prior < nextTrace prior jitter := by
      unfold nextTrace
      rcases min_choice 1 (prior + 3 / 10 + jitter * (15 / 100)) with hmin | hmin
      · rw [hmin, roundTo_one]
        exact hlt
      · linarith
    rw [abs_of_nonpos (by linarith), abs_of_neg (by linarith)]
    linarith
  · rw [hcut hgt.le, sub_self, abs_zero, abs_pos]
    exact sub_ne_zero.mpr hne

/-- The strength, how near the trace is to 1, and whether the band is the strength's own. -/
def handRank (hand : Hand) : ℚ :=
  hand.strength.getD 0 - |hand.cheatTrace.getD 0 - 1| +
    if hand.strengthBand = some (bandFor (hand.strength.getD 0)) then 1 else 0

/-- A cheat at poker makes the hand stronger or its trace grow, or it is at its end already. -/
theorem rises_pokerCheat {hand hand' : Hand} {rng rng' : Rng}
    (h : pokerCheat hand rng = .ok (hand', rng')) : Rises handRank hand hand' := by
  obtain ⟨before, cards, swapped, hstrength, hcards, -, rfl, -⟩ := pokerCheat_eq_ok h
  obtain ⟨hstay, hnear⟩ := nextTrace_spec (hand.cheatTrace.getD 0) (Rng.random_nonneg rng)
  have hclose : |nextTrace (hand.cheatTrace.getD 0) rng.random.1 - 1|
      ≤ |hand.cheatTrace.getD 0 - 1| := by
    by_cases hprior : hand.cheatTrace.getD 0 = 1
    · rw [hstay hprior, hprior]
    · exact (hnear hprior).le
  have hflag : (if hand.strengthBand = some (bandFor before) then (1 : ℚ) else 0) ≤ 1 := by
    split
    · exact le_rfl
    · exact zero_le_one
  unfold Rises handRank cheatedHand
  rw [hstrength]
  by_cases himproved : before < handStrength swapped
  · right
    have hup : (before : ℚ) < handStrength swapped := by exact_mod_cast himproved
    simp only [if_pos himproved, Option.getD_some, if_true]
    linarith
  · simp only [if_neg himproved, Option.getD_some, if_true]
    by_cases hprior : hand.cheatTrace.getD 0 = 1
    · have htrace : hand.cheatTrace = some 1 := by
        rcases ht : hand.cheatTrace with _ | t
        · rw [ht] at hprior
          exact absurd hprior (by norm_num)
        · rw [ht] at hprior
          exact congrArg some hprior
      rw [hstay hprior, htrace]
      by_cases hband : hand.strengthBand = some (bandFor before)
      · left
        rw [← hband, ← hstrength, ← hcards, ← htrace]
      · rw [if_neg hband]
        simp
    · right
      have hstrict := hnear hprior
      linarith

/-! ### What the crew shares -/

variable (contributions : Dict String Int) (shared : SharedState)

/-- The less is left of the pools, the higher; a pool that is not seeded is below all. -/
def sharedRank : ℚ :=
  (match shared.commandPoints with
    | none => -5
    | some pool => -pool.current) +
  match shared.warRigHull with
    | none => -7
    | some hull => -hull.current

/-- The crew's command points are seeded, or fewer than before. -/
theorem rises_commandPoints (vesselId : String) {pool : CommandPointPool}
    (h : pool = shared.cpPool vesselId ∨ pool.current < (shared.cpPool vesselId).current) :
    Rises sharedRank shared { shared with commandPoints := some pool } := by
  unfold SharedState.cpPool at h
  rcases shared with ⟨_ | old, hull⟩
  · right
    -- four command points are seeded, and the rank of none is below that
    have hle : (pool.current : ℚ) ≤ 4 := by
      rcases h with rfl | h
      · norm_num [defaultCommandPoints]
      · have hlt : pool.current < 4 := h
        exact_mod_cast hlt.le
    simp only [sharedRank]
    linarith
  · rcases h with rfl | h
    · exact .inl rfl
    · right
      have hlt : (pool.current : ℚ) < old.current := by exact_mod_cast h
      simp only [sharedRank]
      linarith

/-- The crew's hull is seeded, or damaged. -/
theorem rises_hull (vesselId : String) {hull : WarRigHull}
    (h : hull = shared.hull vesselId ∨ hull.current < (shared.hull vesselId).current) :
    Rises sharedRank shared { shared with warRigHull := some hull } := by
  unfold SharedState.hull at h
  rcases shared with ⟨points, _ | old⟩
  · right
    have hle : (hull.current : ℚ) ≤ 6 := by
      rcases h with rfl | h
      · norm_num [defaultHull]
      · have hlt : hull.current < 6 := h
        exact_mod_cast hlt.le
    simp only [sharedRank]
    linarith
  · rcases h with rfl | h
    · exact .inl rfl
    · right
      have hlt : (hull.current : ℚ) < old.current := by exact_mod_cast h
      simp only [sharedRank]
      linarith

/-- What is paid for a command action leaves fewer points, or it was free. -/
theorem spendCommandPoints_spec (action : String) (pool : CommandPointPool) (rng : Rng) :
    (∃ e, (spendCommandPoints action).exec (pool, rng) = (.error e, (pool, rng)) ∧
      (∀ cost, cpActionCosts action = some cost → pool.current < cost)) ∨
    (∃ pool' rng', (spendCommandPoints action).exec (pool, rng) = (.ok ⟨⟩, (pool', rng')) ∧
      (pool' = pool ∨ pool'.current < pool.current)) := by
  unfold spendCommandPoints
  rw [exec_bind, exec_get]
  rcases hcost : cpActionCosts action with _ | cost
  · exact .inl ⟨_, rfl, by simp⟩
  · dsimp only
    by_cases hafford : cost > pool.current
    · rw [if_pos hafford]
      refine .inl ⟨_, rfl, fun c hc => ?_⟩
      cases hc
      exact hafford
    · rw [if_neg hafford]
      refine .inr ⟨_, _, rfl, ?_⟩
      by_cases hfree : cost = 0
      · subst hfree
        exact .inl rfl
      · right
        show pool.current - cost < pool.current
        omega

variable (dealerSeat : String)

theorem commandBeat_spec (action : String) {cost : Nat} (hcost : cpActionCosts action = some cost)
    (shared : SharedState) (rng : Rng) :
    Rises sharedRank shared ((commandBeat dealerSeat action).exec (shared, rng)).2.1 ∧
      ∀ e, ((commandBeat dealerSeat action).exec (shared, rng)).1 = .error e →
        ((commandBeat dealerSeat action).exec (shared, rng)).2.1 = shared := by
  have hraises : ∀ {e s}, (spendCommandPoints action).exec
      (shared.cpPool (vesselId dealerSeat), rng) = (.error e, s) →
      (commandBeat dealerSeat action).exec (shared, rng) = (.error e,
        ({ shared with commandPoints := some (shared.cpPool (vesselId dealerSeat)) }, rng)) := by
    intro e s hspend
    unfold commandBeat seedCpPool
    simp only [exec_bind, exec_get, exec_set, exec_pure, hspend]
    rfl
  have hreturns : ∀ {pool rng'}, (spendCommandPoints action).exec
      (shared.cpPool (vesselId dealerSeat), rng) = (.ok ⟨⟩, (pool, rng')) →
      (commandBeat dealerSeat action).exec (shared, rng) =
        (.ok ⟨⟩, ({ shared with commandPoints := some pool }, rng')) := by
    intro pool rng' hspend
    unfold commandBeat seedCpPool
    simp only [exec_bind, exec_get, exec_set, exec_pure, hspend]
  rcases spendCommandPoints_spec action (shared.cpPool (vesselId dealerSeat)) rng with
    ⟨e, hspend, hshort⟩ | ⟨pool, rng', hspend, hpool⟩
  · rw [hraises hspend]
    refine ⟨rises_commandPoints shared _ (.inl rfl), fun _ _ => ?_⟩
    have hshort := hshort cost hcost
    -- only a pool that was there before can be short
    rcases shared with ⟨_ | old, hull⟩
    · have hfour : 4 < cost := hshort
      unfold cpActionCosts at hcost
      split at hcost <;> simp at hcost <;> omega
    · rfl
  · rw [hreturns hspend]
    exact ⟨rises_commandPoints shared _ hpool, fun e he => nomatch he⟩

/-- Every face of the die has its crisis. -/
theorem exists_rollCrisis (rng : Rng) : ∃ entry, rollCrisis rng = (.ok entry, rng.next.2) := by
  have hlow : 0 ≤ (rng.next.1 : ℤ) % (10 - 1 + 1) := Int.emod_nonneg _ (by norm_num)
  have hhigh : (rng.next.1 : ℤ) % (10 - 1 + 1) < 10 := Int.emod_lt_of_pos _ (by norm_num)
  unfold rollCrisis Rng.randint
  generalize (rng.next.1 : ℤ) % (10 - 1 + 1) = m at hlow hhigh
  interval_cases m
  all_goals exact ⟨_, rfl⟩

theorem dealWithCrisis_spec (entry : CrisisEntry) (hull : WarRigHull) (rng : Rng) :
    (dealWithCrisis entry 0 hull rng).1 = hull ∨
      (dealWithCrisis entry 0 hull rng).1.current < hull.current := by
  unfold dealWithCrisis
  dsimp only
  split
  · -- the damage, as far as there is hull to damage
    have hle := hull.le
    have hcurrent : (hull.applyDelta (-entry.hullPenalty)).current
        = hull.current - entry.hullPenalty := by
      show min hull.max ((hull.current : ℤ) + -(entry.hullPenalty : ℤ)).toNat = _
      omega
    by_cases hdamage : hull.current - entry.hullPenalty = hull.current
    · left
      rw [hdamage] at hcurrent
      unfold WarRigHull.applyDelta at hcurrent ⊢
      rcases hull with ⟨current, max, baseMax, vessel, hpos, hmax⟩
      simpa using hcurrent
    · rw [hcurrent]
      omega
  · exact .inl rfl

theorem exec_crisisBeat (shared : SharedState) (rng : Rng) :
    ∃ entry, rollCrisis rng = (.ok entry, rng.next.2) ∧
      (crisisBeat dealerSeat).exec (shared, rng) =
        (.ok ⟨⟩, ({ shared with warRigHull := some (dealWithCrisis entry 0
          (shared.hull (vesselId dealerSeat)) rng.next.2).1 },
          (dealWithCrisis entry 0 (shared.hull (vesselId dealerSeat)) rng.next.2).2)) := by
  obtain ⟨entry, hroll⟩ := exists_rollCrisis rng
  refine ⟨entry, hroll, ?_⟩
  unfold crisisBeat seedHull
  simp only [exec_bind, exec_get, exec_set, exec_pure, hroll]

theorem crisisBeat_spec (shared : SharedState) (rng : Rng) :
    Rises sharedRank shared ((crisisBeat dealerSeat).exec (shared, rng)).2.1 ∧
      ∀ e, ((crisisBeat dealerSeat).exec (shared, rng)).1 = .error e →
        ((crisisBeat dealerSeat).exec (shared, rng)).2.1 = shared := by
  obtain ⟨entry, -, hexec⟩ := exec_crisisBeat dealerSeat shared rng
  rw [hexec]
  exact ⟨rises_hull shared _ (dealWithCrisis_spec entry _ _), fun e he => nomatch he⟩

/-- A beat of a registered game's own rises; one that raises has changed nothing. -/
theorem customBeat_spec {kind : String} {game : TableGame} (hgame : getTableGame kind = .ok game)
    (dealerSeat seatId : String) (commit : TableCommit) (shared : SharedState) (rng : Rng) :
    Rises sharedRank shared ((game.customBeat dealerSeat seatId commit).exec (shared, rng)).2.1 ∧
      ∀ e, ((game.customBeat dealerSeat seatId commit).exec (shared, rng)).1 = .error e →
        ((game.customBeat dealerSeat seatId commit).exec (shared, rng)).2.1 = shared := by
  rcases getTableGame_cases hgame with ⟨-, rfl⟩ | rfl | rfl
  · exact ⟨Rises.refl shared, fun _ _ => rfl⟩
  · exact ⟨Rises.refl shared, fun _ _ => rfl⟩
  · show Rises sharedRank shared ((warRigBeat dealerSeat seatId commit).exec (shared, rng)).2.1 ∧
      ∀ e, ((warRigBeat dealerSeat seatId commit).exec (shared, rng)).1 = .error e →
        ((warRigBeat dealerSeat seatId commit).exec (shared, rng)).2.1 = shared
    unfold warRigBeat
    by_cases hstation : commit.beatId ∈ warRigStationVerbs
    · rw [if_pos hstation]
      exact ⟨Rises.refl shared, fun _ _ => rfl⟩
    · rw [if_neg hstation]
      by_cases hcommand : (cpActionCosts commit.beatId).isSome = true
      · rw [if_pos hcommand]
        obtain ⟨cost, hcost⟩ := Option.isSome_iff_exists.mp hcommand
        exact commandBeat_spec dealerSeat commit.beatId hcost shared rng
      · rw [if_neg hcommand]
        by_cases hcrisis : commit.beatId = "deal_with_crisis"
        · rw [if_pos hcrisis]
          exact crisisBeat_spec dealerSeat shared rng
        · rw [if_neg hcrisis]
          exact ⟨Rises.refl shared, fun _ _ => rfl⟩

theorem rises_cheat {kind : String} {game : TableGame} (hgame : getTableGame kind = .ok game)
    {hand hand' : Hand} {rng rng' : Rng} (h : game.cheat hand rng = .ok (hand', rng')) :
    Rises handRank hand hand' :=
  rises_pokerCheat (pokerCheat_of_cheat hgame h)

/-! ### The table -/

/-- A seat rises by folding, by learning, and with its hand. -/
def seatRank (seat : TableSeat) : ℚ :=
  (if seat.status = .active then 0 else 1) + ((seat.privateState.readIntel.getD []).length : ℚ) +
    handRank seat.privateState.hand

/-- The chips in the pot, and who has put some in at all. -/
def potRank : ℚ :=
  contributions.values.length + (contributions.values.map (fun v : Int => (v : ℚ))).sum

/-- Whether a seat's standing bid is what it has put in. -/
def synced (seat : TableSeat) : ℚ :=
  if seat.privateState.currentBid = contributions.get? seat.seatId then 1 else 0

/-- All that rises; bids follow the pot, so they count where the pot stays. -/
def tableRank (table : TableState) : ℚ ×ₗ ℚ :=
  toLex (potRank table.pot.contributions + (table.seats.map seatRank).sum +
      table.pendingAccusations.length + sharedRank table.sharedState,
    (table.seats.map (synced table.pot.contributions)).sum)

theorem tableRank_lt {a b : TableState}
    (h : potRank a.pot.contributions + (a.seats.map seatRank).sum + a.pendingAccusations.length +
        sharedRank a.sharedState
      < potRank b.pot.contributions + (b.seats.map seatRank).sum + b.pendingAccusations.length +
        sharedRank b.sharedState) : tableRank a < tableRank b :=
  Prod.Lex.toLex_lt_toLex.mpr (.inl h)

section Beats

variable {table : TableState} {seatId : String} {seat : TableSeat}

theorem updateSeat_eq_self_iff (hseat : table.findSeat seatId = some seat)
    (f : TableSeat → TableSeat) : table.updateSeat seatId f = table ↔ f seat = seat := by
  rw [← updateFirst_eq_self_iff hseat]
  constructor
  · intro h
    exact congrArg TableState.seats h
  · intro h
    unfold TableState.updateSeat
    rw [h]

/-- **A seat that rises** raises the table. -/
theorem rises_updateSeat (hseat : table.findSeat seatId = some seat) {f : TableSeat → TableSeat}
    (h : Rises seatRank seat (f seat)) : Rises tableRank table (table.updateSeat seatId f) := by
  rcases h with hsame | hlt
  · exact .inl ((updateSeat_eq_self_iff hseat f).mpr hsame)
  · right
    apply tableRank_lt
    have hsum := sum_map_updateFirst (f := f) seatRank hseat
    show potRank table.pot.contributions + (table.seats.map seatRank).sum +
        table.pendingAccusations.length + sharedRank table.sharedState
      < potRank table.pot.contributions +
        ((updateFirst (fun s => decide (s.seatId = seatId)) f table.seats).map seatRank).sum +
        table.pendingAccusations.length + sharedRank table.sharedState
    linarith

theorem seatRank_lt_foldSeat (hactive : seat.status = .active) :
    seatRank seat < seatRank (foldSeat seat) := by
  unfold seatRank foldSeat
  rw [hactive]
  simp

theorem seatRank_lt_addIntel (intel : Intel) (seat : TableSeat) :
    seatRank seat < seatRank (addIntel intel seat) := by
  unfold seatRank addIntel
  simp

theorem rises_setHand {hand : Hand} (h : Rises handRank seat.privateState.hand hand) :
    Rises seatRank seat (setHand hand seat) := by
  rcases h with hsame | hlt
  · left
    rw [hsame]
    rfl
  · right
    unfold seatRank setHand
    simpa using hlt

theorem potRank_insert (seatId : String) (v : Int) :
    potRank (contributions.insert seatId v) = potRank contributions +
      match contributions.get? seatId with
      | none => 1 + (v : ℚ)
      | some w => (v : ℚ) - w := by
  have hperm := contributions.perm_values_insert seatId v
  have hlength := hperm.length_eq
  have hsum := (hperm.map (fun v : Int => (v : ℚ))).sum_eq
  unfold potRank
  rcases hget : contributions.get? seatId with _ | w
  · rw [hget] at hlength hsum
    simp only [Option.toList_none, List.append_nil, List.length_cons, List.map_cons,
      List.sum_cons] at hlength hsum
    rw [hlength, hsum]
    push_cast
    ring
  · rw [hget] at hlength hsum
    simp only [Option.toList_some, List.length_append, List.length_cons, List.length_nil,
      List.map_append, List.map_cons, List.map_nil, List.sum_append, List.sum_cons,
      List.sum_nil] at hlength hsum
    have hlength' : (contributions.insert seatId v).values.length
        = contributions.values.length := by omega
    rw [hlength']
    linarith

theorem contribute_eq_self_iff (hseat : table.findSeat seatId = some seat) (amount : Int) :
    contribute seatId amount table = table ↔ amount ≤ 0 ∧ ∃ c,
      table.pot.contributions.get? seatId = some c ∧ seat.privateState.currentBid = some c := by
  unfold contribute
  constructor
  · intro h
    have hpot : table.pot.contributions.insert seatId
        ((table.pot.contributions.get? seatId).getD 0 + max 0 amount) = table.pot.contributions :=
      congrArg (fun t : TableState => t.pot.contributions) h
    have hseats := congrArg TableState.seats h
    have hget := Dict.insert_eq_self_iff.mp hpot
    have hbid := (updateFirst_eq_self_iff hseat).mp hseats
    have hbid' : some ((table.pot.contributions.get? seatId).getD 0 + max 0 amount)
        = seat.privateState.currentBid :=
      congrArg (fun s : TableSeat => s.privateState.currentBid) hbid
    rcases hc : table.pot.contributions.get? seatId with _ | c
    · rw [hc] at hget
      simp at hget
    · rw [hc, Option.getD_some] at hget hbid'
      have hamount := Option.some.inj hget
      refine ⟨by omega, c, rfl, ?_⟩
      rw [← hbid', ← hamount]
  · rintro ⟨hamount, c, hget, hbid⟩
    have hnone : (table.pot.contributions.get? seatId).getD 0 + max 0 amount = c := by
      rw [hget, Option.getD_some]
      omega
    have hpot : table.pot.contributions.insert seatId c = table.pot.contributions :=
      Dict.insert_eq_self_iff.mpr hget
    dsimp only
    rw [hnone, hpot]
    apply (updateSeat_eq_self_iff hseat _).mpr
    unfold setBid
    rw [← hbid]

/-- Chips raise the table, or the bid beside them does. -/
theorem rises_contribute (hseat : table.findSeat seatId = some seat) (amount : Int) :
    Rises tableRank table (contribute seatId amount table) := by
  have hid : seat.seatId = seatId := by simpa using List.find?_some hseat
  -- what a seat puts in does not show in its own rank
  have hseats : ∀ bid, ((updateFirst (fun s => decide (s.seatId = seatId)) (setBid bid)
      table.seats).map seatRank).sum = (table.seats.map seatRank).sum := by
    intro bid
    have hsum := sum_map_updateFirst (f := setBid bid) seatRank hseat
    have hsame : seatRank (setBid bid seat) = seatRank seat := rfl
    rw [hsum, hsame, sub_self, add_zero]
  -- so where the pot rises, the table does
  have hpot : ∀ v, potRank table.pot.contributions
      < potRank (table.pot.contributions.insert seatId v) →
      v = (table.pot.contributions.get? seatId).getD 0 + max 0 amount →
      Rises tableRank table (contribute seatId amount table) := by
    intro v hlt hv
    right
    apply tableRank_lt
    unfold contribute
    rw [← hv]
    show _ < potRank (table.pot.contributions.insert seatId v) +
      ((updateFirst (fun s => decide (s.seatId = seatId)) (setBid v) table.seats).map seatRank).sum +
      table.pendingAccusations.length + sharedRank table.sharedState
    rw [hseats]
    linarith
  rcases hget : table.pot.contributions.get? seatId with _ | c
  · refine hpot _ ?_ rfl
    have hnonneg : (0 : ℚ) ≤ ((0 + max 0 amount : Int) : ℚ) := by
      have hmax : 0 ≤ 0 + max 0 amount := by omega
      exact_mod_cast hmax
    rw [potRank_insert, hget, Option.getD_none]
    linarith
  · by_cases hamount : 0 < amount
    · refine hpot _ ?_ rfl
      rw [potRank_insert, hget, Option.getD_some]
      have hgain : (c : ℚ) < ((c + max 0 amount : Int) : ℚ) := by
        have hmax : c < c + max 0 amount := by omega
        exact_mod_cast hmax
      linarith
    · by_cases hbid : seat.privateState.currentBid = some c
      · exact .inl ((contribute_eq_self_iff hseat amount).mpr ⟨by omega, c, hget, hbid⟩)
      · -- the pot stays, and the bid falls in with it
        right
        have hc : (table.pot.contributions.get? seatId).getD 0 + max 0 amount = c := by
          rw [hget, Option.getD_some]
          omega
        have hsame : table.pot.contributions.insert seatId c = table.pot.contributions :=
          Dict.insert_eq_self_iff.mpr hget
        have hsum := sum_map_updateFirst (f := setBid c) (synced table.pot.contributions) hseat
        have hnow : synced table.pot.contributions (setBid c seat) = 1 := by
          unfold synced setBid
          rw [hid, hget, if_pos rfl]
        have hbefore : synced table.pot.contributions seat = 0 := by
          unfold synced
          rw [hid, hget, if_neg hbid]
        unfold contribute tableRank
        dsimp only
        rw [hc, hsame]
        refine Prod.Lex.toLex_lt_toLex.mpr (.inr ⟨?_, ?_⟩)
        · show _ = potRank table.pot.contributions + ((updateFirst
            (fun s => decide (s.seatId = seatId)) (setBid c) table.seats).map seatRank).sum +
            table.pendingAccusations.length + sharedRank table.sharedState
          rw [hseats]
        · show _ < ((updateFirst (fun s => decide (s.seatId = seatId)) (setBid c)
            table.seats).map (synced table.pot.contributions)).sum
          linarith

theorem tableRank_lt_accuse (accusation : String × String) :
    tableRank table < tableRank { table with
      pendingAccusations := table.pendingAccusations ++ [accusation] } := by
  apply tableRank_lt
  simp

theorem rises_shared {shared : SharedState} (h : Rises sharedRank table.sharedState shared) :
    Rises tableRank table { table with sharedState := shared } := by
  rcases h with hsame | hlt
  · left
    rw [hsame]
  · right
    apply tableRank_lt
    show _ < potRank table.pot.contributions + (table.seats.map seatRank).sum +
      table.pendingAccusations.length + sharedRank shared
    linarith

end Beats

end

inductive HullError
  | negativeAmount (amount : Int)
  | negativeArmor (armor : Int)

/-- Somebody aboard, with the texts of their statuses. -/
structure Occupant where
  name : String
  hp : HpPool
  statuses : List String := []

/-- Half the hit points for each failed save, and a major injury for two. -/
def resolveCrashSaves (physicalPassed luckPassed : Bool) (occ : Occupant) : Occupant :=
  let half := occ.hp.max / 2
  let failed : Int := (if physicalPassed then 0 else 1) + (if luckPassed then 0 else 1)
  let hurt := if failed = 0 then occ else { occ with hp := occ.hp.applyDelta (-half * failed) }
  if failed = 2 then { hurt with statuses := hurt.statuses ++ ["major_injury"] } else hurt

/-- A status is appended unless there is one with its text. -/
def Occupant.mark (occ : Occupant) (text : String) : Occupant :=
  if text ∈ occ.statuses then occ else { occ with statuses := occ.statuses ++ [text] }

def crashOccupant (saves : Option (Bool × Bool)) (occ : Occupant) : Occupant :=
  let saved := saves.elim occ (fun passed => resolveCrashSaves passed.1 passed.2 occ)
  (saved.mark "injury").mark "dismounted"

/-- What the crew shares, its dice, all aboard, and those a crash event was sent for. -/
structure WarRig where
  shared : SharedState
  rng : Rng
  occupants : List Occupant
  crashEvents : List String := []

namespace WarRig

variable (dealerSeat : String) (rig : WarRig)

def hull : WarRigHull := rig.shared.hull (vesselId dealerSeat)

def commandPoints : CommandPointPool := rig.shared.cpPool (vesselId dealerSeat)

def withHull (hull : WarRigHull) : WarRig :=
  { rig with shared := { rig.shared with warRigHull := some hull } }

def crash (saves : Option (Bool × Bool)) : WarRig :=
  { rig with
    occupants := rig.occupants.map (crashOccupant saves)
    crashEvents := rig.crashEvents ++ rig.occupants.map Occupant.name }

def applyWarRigHullDamage (amount armor : Int) (saves : Option (Bool × Bool)) :
    Except HullError WarRig :=
  if amount < 0 then .error (.negativeAmount amount)
  else if armor < 0 then .error (.negativeArmor armor)
  else
    let realized := if 0 < amount then max 1 (amount - armor) else 0
    let damaged := (rig.hull dealerSeat).applyDelta (-realized)
    let rig' := rig.withHull damaged
    .ok (if 0 < (rig.hull dealerSeat).current ∧ damaged.current = 0 then rig'.crash saves else rig')

end WarRig

/-- A beat of a seat, or a hit on the hull. -/
inductive RigEvent
  | beat (seatId : String) (commit : TableCommit)
  | hit (amount armor : Int) (saves : Option (Bool × Bool))

namespace RigEvent

variable (dealerSeat : String) (rig : WarRig)

def step : RigEvent → WarRig
  | .beat seatId commit =>
    let after := ((warRigBeat dealerSeat seatId commit).exec (rig.shared, rig.rng)).2
    { rig with shared := after.1, rng := after.2 }
  | .hit amount armor saves =>
    match rig.applyWarRigHullDamage dealerSeat amount armor saves with
    | .ok rig => rig
    | .error _ => rig

/-- The cost of a command action that was accepted. -/
def paid : RigEvent → Nat
  | .beat seatId commit =>
    match ((warRigBeat dealerSeat seatId commit).exec (rig.shared, rig.rng)).1 with
    | .ok _ => (cpActionCosts commit.beatId).getD 0
    | .error _ => 0
  | .hit .. => 0

/-- A step pays for its action and no more, keeps the bounds of both pools, and crashes all aboard
    once if it wrecks the rig, and nobody if it does not. -/
def Lawful (e : RigEvent) : Prop :=
  let rig' := e.step dealerSeat rig
  ((rig'.hull dealerSeat).current ≤ (rig.hull dealerSeat).max ∧
    (rig'.hull dealerSeat).max = (rig.hull dealerSeat).max) ∧
  ((rig'.commandPoints dealerSeat).max = (rig.commandPoints dealerSeat).max ∧
    (rig'.commandPoints dealerSeat).current + e.paid dealerSeat rig =
      (rig.commandPoints dealerSeat).current) ∧
  if 0 < (rig.hull dealerSeat).current ∧ (rig'.hull dealerSeat).current = 0 then
    (∃ saves, rig'.occupants = rig.occupants.map (crashOccupant saves)) ∧
      rig'.crashEvents = rig.crashEvents ++ rig.occupants.map Occupant.name
  else rig'.occupants = rig.occupants ∧ rig'.crashEvents = rig.crashEvents

/-- A crisis that continues is not dealt with, and takes what is left of the hull from a crew. -/
def WrecksByCrisis : RigEvent → Prop
  | .beat _ commit =>
    commit.beatId = "deal_with_crisis" ∧ rig.occupants ≠ [] ∧ 0 < (rig.hull dealerSeat).current ∧
      ∃ entry rng, rollCrisis rig.rng = (.ok entry, rng) ∧ entry.continuing ∧
        (rng.randint 1 10).1 < entry.dc ∧ (rig.hull dealerSeat).current ≤ entry.hullPenalty
  | .hit .. => False

end RigEvent

open RigEvent

variable {dealerSeat : String} {rig : WarRig}

/-- A command beat is paid for if it is accepted, and leaves the hull. -/
theorem exec_commandBeat (dealerSeat : String) {action : String} {cost : Nat}
    (hcost : cpActionCosts action = some cost) (shared : SharedState) (rng : Rng) :
    ∃ x pool rng', (commandBeat dealerSeat action).exec (shared, rng) =
        (x, ({ shared with commandPoints := some pool }, rng')) ∧
      pool.max = (shared.cpPool (vesselId dealerSeat)).max ∧
      pool.current + (match x with | .ok _ => cost | .error _ => 0) =
        (shared.cpPool (vesselId dealerSeat)).current := by
  unfold commandBeat seedCpPool spendCommandPoints
  simp only [exec_bind, exec_get, exec_set, exec_pure, hcost]
  by_cases hafford : cost > (shared.cpPool (vesselId dealerSeat)).current
  · simp only [if_pos hafford]
    exact ⟨_, _, _, rfl, rfl, rfl⟩
  · simp only [if_neg hafford]
    refine ⟨_, _, _, rfl, rfl, ?_⟩
    exact Nat.sub_add_cancel (not_lt.mp hafford)

theorem warRigBeat_cases (dealerSeat seatId : String) (commit : TableCommit) (shared : SharedState)
    (rng : Rng) :
    ∃ x shared' rng', (warRigBeat dealerSeat seatId commit).exec (shared, rng) =
        (x, (shared', rng')) ∧
      ((shared'.cpPool (vesselId dealerSeat)).max = (shared.cpPool (vesselId dealerSeat)).max ∧
        (shared'.cpPool (vesselId dealerSeat)).current +
          (match x with | .ok _ => (cpActionCosts commit.beatId).getD 0 | .error _ => 0) =
            (shared.cpPool (vesselId dealerSeat)).current) ∧
      (commit.beatId ≠ "deal_with_crisis" ∧ shared'.warRigHull = shared.warRigHull ∨
        commit.beatId = "deal_with_crisis" ∧ ∃ entry, rollCrisis rng = (.ok entry, rng.next.2) ∧
          shared'.warRigHull = some
            (dealWithCrisis entry 0 (shared.hull (vesselId dealerSeat)) rng.next.2).1) := by
  unfold warRigBeat
  by_cases hstation : commit.beatId ∈ warRigStationVerbs
  · rw [if_pos hstation]
    have hcost : (cpActionCosts commit.beatId).getD 0 = 0 := by
      revert hstation
      generalize commit.beatId = verb
      simp only [warRigStationVerbs, List.mem_cons, List.not_mem_nil, or_false]
      rintro (rfl | rfl | rfl | rfl) <;> rfl
    refine ⟨.ok ⟨⟩, shared, rng, rfl, ⟨rfl, ?_⟩, .inl ⟨?_, rfl⟩⟩
    · simp [hcost]
    · rintro heq
      rw [heq] at hstation
      exact absurd hstation (by decide)
  · rw [if_neg hstation]
    cases hcost : cpActionCosts commit.beatId with
    | some cost =>
      obtain ⟨x, pool, rng', hexec, hmax, hpaid⟩ := exec_commandBeat dealerSeat hcost shared rng
      rw [Option.isSome_some, if_pos rfl]
      refine ⟨x, _, rng', hexec, ⟨hmax, hpaid⟩, .inl ⟨?_, rfl⟩⟩
      rintro heq
      rw [heq] at hcost
      simp [cpActionCosts] at hcost
    | none =>
      rw [Option.isSome_none, if_neg (by simp)]
      by_cases hcrisis : commit.beatId = "deal_with_crisis"
      · obtain ⟨entry, hroll, hexec⟩ := exec_crisisBeat dealerSeat shared rng
        rw [if_pos hcrisis]
        exact ⟨_, _, _, hexec, ⟨rfl, rfl⟩, .inr ⟨hcrisis, entry, hroll, rfl⟩⟩
      · rw [if_neg hcrisis]
        exact ⟨_, shared, rng, rfl, ⟨rfl, rfl⟩, .inl ⟨hcrisis, rfl⟩⟩

theorem dealWithCrisis_wrecks_iff {entry : CrisisEntry} {hull : WarRigHull} {rng : Rng}
    (hcurrent : 0 < hull.current) : (dealWithCrisis entry 0 hull rng).1.current = 0 ↔
      entry.continuing ∧ (rng.randint 1 10).1 < entry.dc ∧ hull.current ≤ entry.hullPenalty := by
  have hmax := hull.pos
  unfold dealWithCrisis
  dsimp only
  split
  · next hfailed =>
    rw [not_le, add_zero] at hfailed
    show min hull.max ((hull.current : ℤ) + -(entry.hullPenalty : ℤ)).toNat = 0 ↔ _
    simp only [hfailed.1, hfailed.2, true_and]
    omega
  · next hfine =>
    rw [not_le, add_zero] at hfine
    exact iff_of_false hcurrent.ne' (fun h => hfine ⟨h.2.1, h.1⟩)

theorem max_dealWithCrisis (entry : CrisisEntry) (hull : WarRigHull) (rng : Rng) :
    (dealWithCrisis entry 0 hull rng).1.max = hull.max := by
  unfold dealWithCrisis
  dsimp only
  split <;> rfl

theorem lawful_beat_iff (seatId : String) (commit : TableCommit) :
    Lawful dealerSeat rig (.beat seatId commit) ↔
      ¬ WrecksByCrisis dealerSeat rig (.beat seatId commit) := by
  obtain ⟨x, shared', rng', hexec, hpool, hcases⟩ :=
    warRigBeat_cases dealerSeat seatId commit rig.shared rig.rng
  have hmax : (shared'.hull (vesselId dealerSeat)).max = (rig.hull dealerSeat).max := by
    rcases hcases with ⟨-, hhull⟩ | ⟨-, entry, -, hhull⟩
    · unfold SharedState.hull
      rw [hhull]
      rfl
    · unfold SharedState.hull
      rw [hhull]
      exact max_dealWithCrisis _ _ _
  have hwrecks : WrecksByCrisis dealerSeat rig (.beat seatId commit) ↔ rig.occupants ≠ [] ∧
      0 < (rig.hull dealerSeat).current ∧ (shared'.hull (vesselId dealerSeat)).current = 0 := by
    unfold WrecksByCrisis
    rcases hcases with ⟨hother, hhull⟩ | ⟨hcrisis, entry, hroll, hhull⟩
    · have hsame : shared'.hull (vesselId dealerSeat) = rig.hull dealerSeat := by
        unfold SharedState.hull
        rw [hhull]
        rfl
      rw [hsame]
      exact iff_of_false (fun h => hother h.1) (fun h => h.2.1.ne' h.2.2)
    · have hleft : shared'.hull (vesselId dealerSeat) =
          (dealWithCrisis entry 0 (rig.hull dealerSeat) rig.rng.next.2).1 := by
        unfold SharedState.hull
        rw [hhull]
        rfl
      rw [hleft]
      constructor
      · rintro ⟨-, haboard, hcurrent, entry', rng', hroll', hfailed⟩
        obtain ⟨hentry, rfl⟩ := Prod.mk.inj (hroll.symm.trans hroll')
        cases hentry
        exact ⟨haboard, hcurrent, (dealWithCrisis_wrecks_iff hcurrent).mpr hfailed⟩
      · rintro ⟨haboard, hcurrent, hzero⟩
        exact ⟨hcrisis, haboard, hcurrent, entry, _, hroll,
          (dealWithCrisis_wrecks_iff hcurrent).mp hzero⟩
  rw [hwrecks]
  unfold Lawful step paid
  simp only [hexec]
  -- a beat touches nobody aboard: it is lawful unless there is somebody to crash
  constructor
  · rintro ⟨-, -, hcrash⟩ ⟨haboard, hcrossed⟩
    split at hcrash
    · exact haboard (List.map_eq_nil_iff.mp (List.self_eq_append_right.mp hcrash.2))
    · next hnot => exact hnot hcrossed
  · intro hspared
    refine ⟨⟨?_, hmax⟩, hpool, ?_⟩
    · exact (shared'.hull (vesselId dealerSeat)).le.trans_eq hmax
    · split
      · next hcrossed =>
        have hnobody : rig.occupants = [] := not_not.mp (fun h => hspared ⟨h, hcrossed⟩)
        rw [hnobody]
        exact ⟨⟨none, rfl⟩, (List.append_nil _).symm⟩
      · exact ⟨trivial, trivial⟩

/-- A hit is raised for, or it damages the hull and crashes all aboard if that wrecks it. -/
theorem hit_cases (dealerSeat : String) (rig : WarRig) (amount armor : Int)
    (saves : Option (Bool × Bool)) :
    (RigEvent.hit amount armor saves).step dealerSeat rig = rig ∨
      ∃ delta, (RigEvent.hit amount armor saves).step dealerSeat rig =
        if 0 < (rig.hull dealerSeat).current ∧ ((rig.hull dealerSeat).applyDelta delta).current = 0
        then (rig.withHull ((rig.hull dealerSeat).applyDelta delta)).crash saves
        else rig.withHull ((rig.hull dealerSeat).applyDelta delta) := by
  simp only [step, WarRig.applyWarRigHullDamage]
  by_cases hamount : amount < 0
  · exact .inl (by rw [if_pos hamount])
  · by_cases harmor : armor < 0
    · exact .inl (by rw [if_neg hamount, if_pos harmor])
    · exact .inr ⟨_, by rw [if_neg hamount, if_neg harmor]⟩

theorem lawful_hit (amount armor : Int) (saves : Option (Bool × Bool)) :
    Lawful dealerSeat rig (.hit amount armor saves) := by
  unfold Lawful
  rcases hit_cases dealerSeat rig amount armor saves with hstep | ⟨delta, hstep⟩
  · rw [hstep]
    refine ⟨⟨(rig.hull dealerSeat).le, rfl⟩, ⟨rfl, rfl⟩, ?_⟩
    split
    · next hboth => exact absurd hboth.2 hboth.1.ne'
    · exact ⟨rfl, rfl⟩
  · rw [hstep]
    have hle := ((rig.hull dealerSeat).applyDelta delta).le
    by_cases hcrossed : 0 < (rig.hull dealerSeat).current ∧
        ((rig.hull dealerSeat).applyDelta delta).current = 0
    · rw [if_pos hcrossed]
      refine ⟨⟨hle, rfl⟩, ⟨rfl, rfl⟩, ?_⟩
      split
      · exact ⟨⟨saves, rfl⟩, rfl⟩
      · next hnot => exact absurd hcrossed hnot
    · rw [if_neg hcrossed]
      refine ⟨⟨hle, rfl⟩, ⟨rfl, rfl⟩, ?_⟩
      split
      · next hyes => exact absurd hyes hcrossed
      · exact ⟨rfl, rfl⟩

/-- **Every step of a run is lawful** exactly if no crisis of the run wrecks a crewed rig. -/
theorem lawfulRun_iff (dealerSeat : String) (rig : WarRig) (events : List RigEvent) :
    StepsMeet (fun rig e => e.step dealerSeat rig) (Lawful dealerSeat) rig events ↔
      StepsMeet (fun rig e => e.step dealerSeat rig)
        (fun rig e => ¬ WrecksByCrisis dealerSeat rig e) rig events := by
  refine stepsMeet_congr (fun e _ rig => ?_) rig
  cases e with
  | beat seatId commit => exact lawful_beat_iff seatId commit
  | hit amount armor saves => exact iff_of_true (lawful_hit amount armor saves) id

/-- A leak that is not stopped takes the last of the hull, and the driver sits in the wreck. -/
theorem not_lawfulRun : ∃ rig commit,
    ¬ StepsMeet (fun rig e => RigEvent.step "Rek" rig e) (Lawful "Rek") rig [.beat "Rek" commit] := by
  refine ⟨⟨⟨none, some ⟨1, 6, 6, vesselId "Rek", by omega, by omega⟩⟩, fun _ => 3,
    [⟨"Rek", ⟨4, 4, 4⟩, []⟩], []⟩, { seatId := "Rek", beatId := "deal_with_crisis" }, ?_⟩
  rintro ⟨hlawful, -⟩
  refine (lawful_beat_iff "Rek" _).mp hlawful ⟨rfl, by simp, by decide, ⟨"fuel_leak", true, 10, 1⟩,
    _, rfl, rfl, by decide, by decide⟩

end Sidequest.Table
