import Sidequest.Fate.Rejected

namespace Sidequest.Fate

open Lib Effect
open GameSnapshot

/-!
# The contest over whole runs

In an exchange of a contest the best total of a side is held against that of the other, and the
first side to reach the target wins. Whoever concedes leaves the contest, and a side that is left by
everybody yields.

* `StructuredEncounter.victories` — what an exchange is worth to a side, by the totals of those who
  still take part;
* `contest_spec` — tallies and endings over every run.
-/

/-! ### What an exchange is worth -/

variable (side : ActorSide) (commit : FateSealedCommit)

namespace StructuredEncounter

variable (encounter : StructuredEncounter)

/-- The commit is that of an actor of the side. -/
def isOf : Bool :=
  (encounter.findActor commit.actor).any (fun actor => actor.side = side)

/-- The commit is that of an actor who still takes part. -/
def takesPart : Bool :=
  (encounter.findActor commit.actor).any (fun actor => !actor.withdrawn)

/-- The best total of a side, of those who still take part. -/
def sideTotal : Option Int :=
  ((encounter.fateCommits.filter
    (fun commit => encounter.isOf side commit && encounter.takesPart commit)).map
      FateSealedCommit.ladderTotal).max?

/-- The victories of a total over another one: two for a margin of three, and otherwise one. -/
def victoriesOver : Option Int → Option Int → Int
  | some own, some other => if own ≤ other then 0 else if own < other + 3 then 1 else 2
  | some _, none => 0
  | none, _ => 0

/-- The victories of a side over the other one. -/
def victories (other : ActorSide) : Int :=
  victoriesOver (encounter.sideTotal side) (encounter.sideTotal other)

/-- The tallies with the victories of both sides. -/
def award (contest : ContestState) : ContestState :=
  { contest with
    playerVictories := contest.playerVictories + encounter.victories .player .opponent
    opponentVictories := contest.opponentVictories + encounter.victories .opponent .player }

/-- Nobody who has withdrawn has a commit in the ledger. -/
def nobodyLeft : Bool :=
  encounter.fateCommits.all (fun commit =>
    (encounter.findActor commit.actor).all (fun actor => !actor.withdrawn))

/-- A tally has reached the target. -/
def reached : Bool :=
  encounter.contest.any (fun contest =>
    contest.target ≤ contest.playerVictories || contest.target ≤ contest.opponentVictories)

/-- Everybody on a side has withdrawn. -/
def cleared : Bool :=
  encounter.sideOf side ≠ [] && (encounter.sideOf side).all EncounterActor.withdrawn

end StructuredEncounter

theorem map_foldl_pick {p : FateSealedCommit → Bool}
    {pick : Option FateSealedCommit → FateSealedCommit → Option FateSealedCommit}
    (hnone : ∀ commit, pick none commit = some commit) (hsome : ∀ top commit, pick (some top) commit
      = if top.ladderTotal < commit.ladderTotal then some commit else some top)
    (l : List FateSealedCommit) (best : Option FateSealedCommit) :
    (l.foldl (fun best commit => if p commit then pick best commit else best) best).map
        FateSealedCommit.ladderTotal = (best.toList.map FateSealedCommit.ladderTotal
          ++ (l.filter p).map FateSealedCommit.ladderTotal).max? := by
  induction l generalizing best with
  | nil => cases best <;> rfl
  | cons commit l ih =>
    rw [List.foldl_cons, ih]
    by_cases hp : p commit = true
    · rw [if_pos hp, List.filter_cons_of_pos hp]
      cases best with
      | none => rw [hnone]; rfl
      | some top =>
        -- the greater of the two stands for both
        have hmax : max top.ladderTotal commit.ladderTotal =
            (if top.ladderTotal < commit.ladderTotal then commit else top).ladderTotal := by
          split
          · exact max_eq_right (by omega)
          · exact max_eq_left (by omega)
        rw [hsome, ← apply_ite some]
        show (_ :: _ : List Int).max? = (_ :: _ :: _ : List Int).max?
        rw [List.max?_cons', List.max?_cons', List.foldl_cons, hmax]
        rfl
    · rw [if_neg hp, List.filter_cons_of_neg hp]

variable {encounter : StructuredEncounter}

theorem map_bestCommit (h : encounter.nobodyLeft = true) (side : ActorSide) :
    (encounter.bestCommit side).map FateSealedCommit.ladderTotal = encounter.sideTotal side := by
  have hfilter : encounter.fateCommits.filter
      (fun commit => encounter.isOf side commit && encounter.takesPart commit)
      = encounter.fateCommits.filter (encounter.isOf side) := by
    refine List.filter_congr (fun commit hcommit => ?_)
    have hstays := (List.all_eq_true.mp h) commit hcommit
    unfold StructuredEncounter.isOf StructuredEncounter.takesPart
    cases hactor : encounter.findActor commit.actor with
    | none => rfl
    | some actor =>
      rw [hactor, Option.all_some] at hstays
      rw [Option.any_some, Option.any_some, hstays, Bool.and_true]
  unfold StructuredEncounter.sideTotal
  rw [hfilter]
  exact map_foldl_pick (fun _ => rfl) (fun _ _ => rfl) encounter.fateCommits none

/-- An exchange gives both sides their victories. -/
theorem scoreContest_eq_award (h : encounter.nobodyLeft = true) (contest : ContestState) :
    (scoreContest contest (encounter.bestCommit .player) (encounter.bestCommit .opponent)).1
      = encounter.award contest := by
  unfold StructuredEncounter.award StructuredEncounter.victories
  rw [← map_bestCommit h .player, ← map_bestCommit h .opponent]
  have hcontest : ∀ x y : Int, x = 0 → y = 0 → ({ contest with
      playerVictories := contest.playerVictories + x
      opponentVictories := contest.opponentVictories + y } : ContestState) = contest := by
    rintro x y rfl rfl
    rw [add_zero, add_zero]
  cases encounter.bestCommit .player with
  | none => exact (hcontest 0 _ rfl (by cases encounter.bestCommit .opponent <;> rfl)).symm
  | some p =>
    cases encounter.bestCommit .opponent with
    | none => exact (hcontest 0 0 rfl rfl).symm
    | some o =>
      unfold scoreContest victoryDelta
      dsimp only [Option.map_some, StructuredEncounter.victoriesOver]
      split_ifs <;> simp <;> omega

/-! ### What leaves a contest as it is -/

/-- The tallies, the seats and the parked defenses are the same, and the encounter is as open. -/
structure SameContest (s s' : GameSnapshot) : Prop where
  contest : s'.encounter.contest = s.encounter.contest
  actors : s'.encounter.actors = s.encounter.actors
  resolved : s'.encounter.resolved = s.encounter.resolved
  pendingDefenses : s'.encounter.pendingDefenses = s.encounter.pendingDefenses

instance : IsPreorder GameSnapshot SameContest where
  refl _ := ⟨rfl, rfl, rfl, rfl⟩
  trans _ _ _ h h' := ⟨h'.contest.trans h.contest, h'.actors.trans h.actors,
    h'.resolved.trans h.resolved, h'.pendingDefenses.trans h.pendingDefenses⟩

variable {s' : GameSnapshot}

theorem Quiet.sameContest {s : GameSnapshot} (h : Quiet s s') : SameContest s s' :=
  ⟨h.contest, h.actors, h.resolved, h.pendingDefenses⟩

theorem sameContest_of_encounter {s : GameSnapshot} (h : s'.encounter = s.encounter) :
    SameContest s s' := by
  constructor
  all_goals rw [h]

theorem sameContest_sealFateCommit : Preserves SameContest (sealFateCommit commit) := by
  intro s
  rw [exec_sealFateCommit]
  split
  · exact refl_of SameContest s
  · exact ⟨rfl, rfl, rfl, rfl⟩

/-- The opponents' attacks go into the ledger of commits. -/
theorem sameContest_seatOpponentCommits (mental : Bool) :
    Preserves SameContest (seatOpponentCommits mental) :=
  preserves_seatOpponentCommits (fun _ _ => sameContest_of_encounter rfl)
    sameContest_sealFateCommit mental

theorem sameContest_prepareAction (payload : FateActionPayload) (actor : String)
    (thrownFaces : Option Dice) :
    Preserves SameContest (prepareAction payload actor thrownFaces) := by
  have hflavor : Preserves SameContest (attachFlavor actor payload.playerAction) :=
    Preserves.ite (preserves_modify (fun s => ⟨rfl, rfl, rfl, rfl⟩)) (preserves_pure _)
  have hpay : Preserves SameContest (payInvoke payload actor) :=
    Preserves.ite (preserves_pure _) (preserves_onPart (S := fun _ _ => True) (fun _ => trivial)
      (fun s _ _ _ _ => sameContest_of_encounter (encounter_putFateSheet s actor _)))
  exact hflavor.bind (fun _ => hpay.bind (fun bonus =>
    (quiet_rollAction payload actor thrownFaces bonus).mono (fun _ _ h => h.sameContest)))

/-- Leaving changes the seats and how the encounter ended, and no more than that. -/
theorem frame_leave (encounter : StructuredEncounter) (actor : String) :
    (encounter.withdraw actor).maybeResolveSideCleared.contest = encounter.contest ∧
      (encounter.withdraw actor).maybeResolveSideCleared.actors
        = (encounter.withdraw actor).actors ∧
      (encounter.withdraw actor).maybeResolveSideCleared.pendingDefenses
        = encounter.pendingDefenses :=
  ⟨field_maybeResolveSideCleared StructuredEncounter.contest (fun _ _ => rfl) _,
    field_maybeResolveSideCleared StructuredEncounter.actors (fun _ _ => rfl) _,
    field_maybeResolveSideCleared StructuredEncounter.pendingDefenses (fun _ _ => rfl) _⟩

theorem sameContest_leave {s : GameSnapshot} (h : SameContest s s') (actor : String) :
    SameContest
      { s with encounter := (s.encounter.withdraw actor).maybeResolveSideCleared }
      { s' with encounter := (s'.encounter.withdraw actor).maybeResolveSideCleared } := by
  obtain ⟨hcontest, hactors, hdefenses⟩ := frame_leave s.encounter actor
  obtain ⟨hcontest', hactors', hdefenses'⟩ := frame_leave s'.encounter actor
  constructor
  · exact (hcontest'.trans h.contest).trans hcontest.symm
  · rw [hactors, hactors']
    unfold StructuredEncounter.withdraw
    rw [h.actors]
  · exact resolved_withdraw_congr h.actors h.resolved actor
  · exact (hdefenses'.trans h.pendingDefenses).trans hdefenses.symm

/-! ### What a message does to a contest -/

/-- An exchange of a contest was run. -/
def FateDispatchResult.ranContest (result : FateDispatchResult) : Bool :=
  match result.exchange with
  | some (.contest _) => true
  | some (.conflict _) => false
  | none => false

/-- The exchange of a contest that a message runs, with everything in its ledger. -/
def GameSnapshot.contestExchange (s : GameSnapshot) : FateEvent → Option StructuredEncounter
  | .act payload actor roundNumber thrownFaces =>
    match (dispatchFateAction payload actor roundNumber thrownFaces).exec s with
    | (.ok result, _) =>
      if result.ranContest then
        some (s.sealedBy payload payload.action.fateAction actor thrownFaces).revealed.encounter
      else none
    | (.error _, _) => none
  | .defend .. => none

/-- The snapshot after a contest's exchange was scored. -/
def GameSnapshot.scored (t : GameSnapshot) (contest : ContestState) : GameSnapshot :=
  ((closeContest contest).exec t).2

/-- Everything a message can do to a contest. -/
inductive ContestMoves (s : GameSnapshot) (event : FateEvent) : GameSnapshot → Prop
  | keeps (s' : GameSnapshot) (hnone : s.contestExchange event = none) (h : SameContest s s') :
      ContestMoves s event s'
  | leaves (s' : GameSnapshot) (actor : String) (hnone : s.contestExchange event = none)
      (hopen : s.encounter.resolved = false)
      (h : SameContest { s with
        encounter := (s.encounter.withdraw actor).maybeResolveSideCleared } s') :
      ContestMoves s event s'
  | scores (t : GameSnapshot) (contest : ContestState)
      (hsome : s.contestExchange event = some t.encounter)
      (hopen : s.encounter.resolved = false) (hcontest : s.encounter.contest = some contest)
      (h : SameContest s t) : ContestMoves s event (t.scored contest)

section Contest

variable {s : GameSnapshot} {contest : ContestState}

/-- Firing in a contest keeps it as it is, or scores it with the opponents' commits. -/
theorem exec_fireBarrier_contest (hcontest : s.encounter.contest = some contest)
    (roundNumber : Nat) (outcome : FateOutcome) :
    (∃ e s', (fireBarrier roundNumber outcome).exec s = (.error e, s') ∧ SameContest s s') ∨
    (∃ result, (fireBarrier roundNumber outcome).exec s = (.ok result, s) ∧
      result.ranContest = false) ∨
    (∃ result, (fireBarrier roundNumber outcome).exec s
      = (.ok result, s.revealed.scored contest) ∧ result.ranContest = true) := by
  unfold fireBarrier
  rw [exec_get_bind]
  by_cases hclosed : s.fateBarrierClosed = true
  · rw [if_neg (by rw [hclosed]; decide), if_pos (by rw [hcontest]; rfl)]
    unfold runFateContestExchange
    rw [exec_bind, exec_get_bind, hcontest]
    rw [exec_bind]
    have hseat := sameContest_seatOpponentCommits s.encounter.mental s
    have hrevealed : s.revealed = ((seatOpponentCommits s.encounter.mental).exec s).2 := rfl
    rw [hrevealed]
    rcases hexec : (seatOpponentCommits s.encounter.mental).exec s with ⟨e | u, t⟩
    · rw [hexec] at hseat
      exact .inl ⟨e, t, rfl, hseat⟩
    · exact .inr (.inr ⟨_, rfl, rfl⟩)
  · rw [if_pos (by simpa using hclosed)]
    exact .inr (.inl ⟨_, rfl, rfl⟩)

theorem sameContest_sealedBy (s : GameSnapshot) (payload : FateActionPayload) (action : FateAction)
    (actor : String) (thrownFaces : Option Dice) :
    SameContest s (s.sealedBy payload action actor thrownFaces) :=
  ((sameContest_prepareAction payload actor thrownFaces).bind
    (fun _ => sameContest_sealFateCommit _)) s

/-- Committing in a contest: the action is rejected before it fires, or fires. -/
theorem exec_commitFateAction_cases (s : GameSnapshot) (payload : FateActionPayload)
    (action : FateAction) (actor : String) (roundNumber : Nat) (thrownFaces : Option Dice) :
    (∃ e s', (commitFateAction payload action actor roundNumber thrownFaces).exec s
      = (.error e, s') ∧ SameContest s s') ∨
    ∃ outcome, (commitFateAction payload action actor roundNumber thrownFaces).exec s
      = (fireBarrier roundNumber outcome).exec (s.sealedBy payload action actor thrownFaces) := by
  cases hsheet : s.fateSheet actor with
  | none => exact .inl ⟨_, s, exec_commitFateAction_of_none hsheet payload action roundNumber
      thrownFaces, refl_of SameContest s⟩
  | some sheet =>
    rw [exec_commitFateAction (by rw [hsheet]; rfl)]
    have hprepare := sameContest_prepareAction payload actor thrownFaces s
    unfold GameSnapshot.sealedBy
    rw [exec_bind, exec_bind]
    rcases hexec : (prepareAction payload actor thrownFaces).exec s with ⟨e | outcome, prepared⟩
    · rw [hexec] at hprepare
      exact .inl ⟨e, prepared, rfl, hprepare⟩
    · rw [hexec] at hprepare
      have hseal := sameContest_sealFateCommit (payload.commit action actor outcome) prepared
      dsimp only
      rw [exec_bind]
      rcases hsealed : (sealFateCommit (payload.commit action actor outcome)).exec prepared with
        ⟨e | u, s₁⟩
      · rw [hsealed] at hseal
        exact .inl ⟨e, s₁, rfl, trans_of SameContest hprepare hseal⟩
      · exact .inr ⟨outcome, rfl⟩

/-- What the exchange of a message is, by what it returns. -/
theorem contestExchange_of_exec {payload : FateActionPayload} {actor : String} {roundNumber : Nat}
    {thrownFaces : Option Dice} {result : FateDispatchResult}
    (h : (dispatchFateAction payload actor roundNumber thrownFaces).exec s = (.ok result, s')) :
    s.contestExchange (.act payload actor roundNumber thrownFaces) = if result.ranContest then
      some (s.sealedBy payload payload.action.fateAction actor thrownFaces).revealed.encounter
      else none := by
  unfold GameSnapshot.contestExchange
  dsimp only
  rw [h]

theorem contestExchange_of_error {payload : FateActionPayload} {actor : String} {roundNumber : Nat}
    {thrownFaces : Option Dice} {e : FateError}
    (h : (dispatchFateAction payload actor roundNumber thrownFaces).exec s = (.error e, s')) :
    s.contestExchange (.act payload actor roundNumber thrownFaces) = none := by
  unfold GameSnapshot.contestExchange
  dsimp only
  rw [h]

section Route

variable {payload : FateActionPayload} {actor : String} {roundNumber : Nat}
  {thrownFaces : Option Dice}

variable {x : Except FateError FateDispatchResult}

/-- A message that ends in an error, or runs no exchange, and keeps the contest. -/
theorem contestMoves_of_kept
    (h : (dispatchFateAction payload actor roundNumber thrownFaces).exec s = (x, s'))
    (hsame : SameContest s s') (hx : ∀ result, x = .ok result → result.ranContest = false) :
    ContestMoves s (.act payload actor roundNumber thrownFaces) s' := by
  refine ContestMoves.keeps s' ?_ hsame
  cases x with
  | error e => exact contestExchange_of_error h
  | ok result => rw [contestExchange_of_exec h, hx result rfl, if_neg (by decide)]

theorem contestMoves_commit (hcontest : s.encounter.contest = some contest)
    (hopen : s.encounter.resolved = false)
    (h : (dispatchFateAction payload actor roundNumber thrownFaces).exec s = (x, s'))
    (hcommit : (commitFateAction payload payload.action.fateAction actor roundNumber
      thrownFaces).exec s = (x, s')) :
    ContestMoves s (.act payload actor roundNumber thrownFaces) s' := by
  have hsealed := sameContest_sealedBy s payload payload.action.fateAction actor thrownFaces
  rcases exec_commitFateAction_cases s payload payload.action.fateAction actor roundNumber
    thrownFaces with ⟨e, s₁, hexec, hsame⟩ | ⟨outcome, hexec⟩
  · cases hcommit.symm.trans hexec
    exact contestMoves_of_kept h hsame (fun _ h => by cases h)
  · rw [hexec] at hcommit
    rcases exec_fireBarrier_contest (hsealed.contest.trans hcontest) roundNumber outcome with
      ⟨e, s₁, hfire, hsame⟩ | ⟨result, hfire, hran⟩ | ⟨result, hfire, hran⟩
    · cases hcommit.symm.trans hfire
      exact contestMoves_of_kept h (trans_of SameContest hsealed hsame) (fun _ h => by cases h)
    · cases hcommit.symm.trans hfire
      refine contestMoves_of_kept h hsealed (fun result' h => ?_)
      cases h
      exact hran
    · cases hcommit.symm.trans hfire
      refine ContestMoves.scores _ contest ?_ hopen hcontest (trans_of SameContest hsealed
        (sameContest_seatOpponentCommits _ _))
      rw [contestExchange_of_exec h, hran, if_pos rfl]

theorem contestMoves_concede (hopen : s.encounter.resolved = false)
    (hverb : payload.action = .concede)
    (h : (dispatchFateAction payload actor roundNumber thrownFaces).exec s = (x, s'))
    (hroute : (routeFateAction payload actor roundNumber thrownFaces).exec s = (x, s')) :
    ContestMoves s (.act payload actor roundNumber thrownFaces) s' := by
  unfold routeFateAction at hroute
  rw [hverb] at hroute
  rw [exec_bind] at hroute
  have hconcede := meets_concedeInConflict s actor s rfl
  rcases hexec : (concedeInConflict actor).exec s with ⟨e | earned, t⟩
  · rw [hexec] at hroute hconcede
    cases hroute
    exact contestMoves_of_kept h hconcede.sameContest (fun _ h => by cases h)
  · rw [hexec] at hroute hconcede
    cases hroute
    obtain ⟨s₁, hquiet, rfl⟩ := hconcede
    exact ContestMoves.leaves _ actor (contestExchange_of_exec h) hopen
      (sameContest_leave hquiet.sameContest actor)

theorem contestMoves_compel {accept : Bool}
    (h : (dispatchFateAction payload actor roundNumber thrownFaces).exec s = (x, s'))
    (hroute : (resolveCompel accept actor payload.aspectText >>= fun delta =>
      pure { commitmentPending := false, exchange := none, fatePointDelta := delta }).exec s
        = (x, s')) :
    ContestMoves s (.act payload actor roundNumber thrownFaces) s' := by
  have hcompel := quiet_resolveCompel accept actor payload.aspectText s
  rw [exec_bind] at hroute
  rcases hexec : (resolveCompel accept actor payload.aspectText).exec s with ⟨e | delta, t⟩
  · rw [hexec] at hroute hcompel
    cases hroute
    exact contestMoves_of_kept h hcompel.sameContest (fun _ h => by cases h)
  · rw [hexec] at hroute hcompel
    cases hroute
    refine contestMoves_of_kept h hcompel.sameContest (fun result h => ?_)
    cases h
    rfl

theorem contestMoves_act (hcontest : s.encounter.contest = some contest)
    (h : (dispatchFateAction payload actor roundNumber thrownFaces).exec s = (x, s')) :
    ContestMoves s (.act payload actor roundNumber thrownFaces) s' := by
  cases hroutes : s.routes payload actor with
  | false =>
    obtain ⟨e, hexec⟩ := exec_dispatchFateAction_of_not_routes s payload actor roundNumber
      thrownFaces hroutes
    cases h.symm.trans hexec
    exact contestMoves_of_kept h (refl_of SameContest _) (fun _ h => by cases h)
  | true =>
    have hopen : s.encounter.resolved = false := by
      unfold GameSnapshot.routes at hroutes
      simp only [Bool.and_eq_true, Bool.not_eq_true'] at hroutes
      exact hroutes.1.1.2
    have hroute := (exec_dispatchFateAction_of_routes s payload actor roundNumber thrownFaces
      hroutes).symm.trans h
    have hcommit : payload.action.proactive = true →
        ContestMoves s (.act payload actor roundNumber thrownFaces) s' := fun hproactive => by
      rw [routeFateAction_of_proactive payload actor roundNumber thrownFaces hproactive] at hroute
      exact contestMoves_commit hcontest hopen h hroute
    cases hverb : payload.action with
    | concede => exact contestMoves_concede hopen hverb h hroute
    | compelAccept =>
      unfold routeFateAction at hroute
      rw [hverb] at hroute
      exact contestMoves_compel h hroute
    | compelRefuse =>
      unfold routeFateAction at hroute
      rw [hverb] at hroute
      exact contestMoves_compel h hroute
    | overcome => exact hcommit (by rw [hverb]; rfl)
    | createAdvantage => exact hcommit (by rw [hverb]; rfl)
    | attack => exact hcommit (by rw [hverb]; rfl)

end Route

/-- **Everything a message does** to a contest in which nothing is parked is among the moves. -/
theorem contestMoves_step (hcontest : s.encounter.contest = some contest)
    (hparked : s.encounter.pendingDefenses = []) (event : FateEvent) :
    ContestMoves s event (step s event) := by
  cases event with
  | act payload actor roundNumber thrownFaces => exact contestMoves_act hcontest rfl
  | defend actor requestId skill thrownFaces conceded =>
    have hstays : step s (.defend actor requestId skill thrownFaces conceded) = s := by
      unfold step FateEvent.dispatch handleDefend dispatchFateDefense
      rw [exec_bind, exec_get_bind]
      unfold StructuredEncounter.findPendingDefense
      rw [hparked]
      rfl
    rw [hstays]
    exact ContestMoves.keeps s rfl (refl_of SameContest s)

end Contest

/-! ### Tallies and endings -/

/-- The tallies grow by the victories of the exchange that the message runs, if it runs one. -/
def GrowsByVictories (s : GameSnapshot) (event : FateEvent) : Prop :=
  ∀ contest, s.encounter.contest = some contest → (step s event).encounter.contest
    = some ((s.contestExchange event).elim contest (fun encounter => encounter.award contest))

/-- The message ends the contest exactly if a tally is at the target after an exchange, or everybody
    on a side has left. -/
def EndsContest (s : GameSnapshot) (event : FateEvent) : Prop :=
  (step s event).encounter.resolved = (s.encounter.resolved
    || ((s.contestExchange event).isSome && (step s event).encounter.reached)
    || (step s event).encounter.cleared .player || (step s event).encounter.cleared .opponent)

/-- A contest in which nothing is parked, and that nobody has left while it is open. -/
structure Contesting (s : GameSnapshot) : Prop where
  contest : s.encounter.contest.isSome = true
  parked : s.encounter.pendingDefenses = []
  manned : s.encounter.resolved = false →
    s.encounter.cleared .player = false ∧ s.encounter.cleared .opponent = false

theorem cleared_congr {encounter' : StructuredEncounter} (h : encounter'.actors = encounter.actors)
    (side : ActorSide) : encounter'.cleared side = encounter.cleared side := by
  unfold StructuredEncounter.cleared StructuredEncounter.sideOf
  rw [h]

theorem reached_congr {encounter' : StructuredEncounter}
    (h : encounter'.contest = encounter.contest) : encounter'.reached = encounter.reached := by
  unfold StructuredEncounter.reached
  rw [h]

/-- Leaving an open contest ends it exactly if it leaves a side to nobody. -/
theorem resolved_leave (hopen : encounter.resolved = false) (actor : String) :
    (encounter.withdraw actor).maybeResolveSideCleared.resolved
      = ((encounter.withdraw actor).cleared .player
        || (encounter.withdraw actor).cleared .opponent) := by
  have hstill : (encounter.withdraw actor).resolved = false := hopen
  unfold StructuredEncounter.maybeResolveSideCleared StructuredEncounter.cleared
  rw [hstill, if_neg (by decide)]
  split_ifs with hopponents hplayers
  · have hcleared : ((encounter.withdraw actor).sideOf .opponent ≠ [] &&
        ((encounter.withdraw actor).sideOf .opponent).all EncounterActor.withdrawn) = true := by
      simpa using hopponents
    rw [hcleared, Bool.or_true]
    rfl
  · have hcleared : ((encounter.withdraw actor).sideOf .player ≠ [] &&
        ((encounter.withdraw actor).sideOf .player).all EncounterActor.withdrawn) = true := by
      simpa using hplayers
    rw [hcleared, Bool.true_or]
    rfl
  · rw [hstill]
    symm
    rw [Bool.or_eq_false_iff]
    constructor
    · simpa using hplayers
    · simpa using hopponents

theorem frame_scored (t : GameSnapshot) (contest : ContestState) :
    (t.scored contest).encounter.contest = some (scoreContest contest
        (t.encounter.bestCommit .player) (t.encounter.bestCommit .opponent)).1 ∧
      (t.scored contest).encounter.actors = t.encounter.actors ∧
      (t.scored contest).encounter.pendingDefenses = t.encounter.pendingDefenses ∧
      (t.scored contest).encounter.resolved
        = (t.encounter.resolved || (t.scored contest).encounter.reached) := by
  have hscored : (t.scored contest).encounter = StructuredEncounter.settleContest
      { t.encounter.closeExchange (scoreContest contest (t.encounter.bestCommit .player)
          (t.encounter.bestCommit .opponent)).2.2 with
        contest := some (scoreContest contest (t.encounter.bestCommit .player)
          (t.encounter.bestCommit .opponent)).1
        situationAspects := t.encounter.situationAspects ++ (scoreContest contest
          (t.encounter.bestCommit .player) (t.encounter.bestCommit .opponent)).2.1 }
      (scoreContest contest (t.encounter.bestCommit .player)
        (t.encounter.bestCommit .opponent)).1 := rfl
  rw [hscored]
  unfold StructuredEncounter.settleContest StructuredEncounter.reached
  split_ifs with hplayer hopponent
  · exact ⟨rfl, rfl, rfl, by simp [hplayer]⟩
  · exact ⟨rfl, rfl, rfl, by simp [hopponent]⟩
  · exact ⟨rfl, rfl, rfl, by simp [StructuredEncounter.closeExchange, hplayer, hopponent]⟩

section Step

variable {s : GameSnapshot}

theorem Contesting.moves (h : Contesting s) (event : FateEvent) :
    ContestMoves s event (step s event) := by
  obtain ⟨contest, hcontest⟩ := Option.isSome_iff_exists.mp h.contest
  exact contestMoves_step hcontest h.parked event

/-- An exchange without a commit of somebody who has left adds what it is worth, and nothing else
    adds anything. -/
theorem Contesting.grows (h : Contesting s) (event : FateEvent)
    (hleft : ∀ encounter, s.contestExchange event = some encounter → encounter.nobodyLeft = true) :
    GrowsByVictories s event := by
  have hmoves := h.moves event
  unfold GrowsByVictories
  generalize step s event = s' at hmoves ⊢
  intro contest hcontest
  cases hmoves with
  | keeps _ hnone hsame =>
    rw [hsame.contest, hcontest, hnone]
    rfl
  | leaves _ actor hnone hopen hsame =>
    obtain ⟨hframe, -, -⟩ := frame_leave s.encounter actor
    rw [hsame.contest, hnone]
    exact hframe.trans hcontest
  | scores t contest' hsome hopen hcontest' hsame =>
    cases hcontest.symm.trans hcontest'
    obtain ⟨hscored, -, -, -⟩ := frame_scored t contest
    rw [hscored, scoreContest_eq_award (hleft t.encounter hsome), hsome]
    rfl

theorem Contesting.ends (h : Contesting s) (event : FateEvent) : EndsContest s event := by
  have hmoves := h.moves event
  unfold EndsContest
  generalize step s event = s' at hmoves ⊢
  cases hmoves with
  | keeps _ hnone hsame =>
    rw [hsame.resolved, hnone, cleared_congr hsame.actors, cleared_congr hsame.actors]
    cases hresolved : s.encounter.resolved with
    | true => rfl
    | false =>
      obtain ⟨hplayer, hopponent⟩ := h.manned hresolved
      rw [hplayer, hopponent]
      rfl
  | leaves _ actor hnone hopen hsame =>
    obtain ⟨-, hactors, -⟩ := frame_leave s.encounter actor
    rw [hsame.resolved, hnone, hopen, cleared_congr (hsame.actors.trans hactors),
      cleared_congr (hsame.actors.trans hactors), Option.isSome_none, Bool.false_and,
      Bool.false_or, Bool.false_or]
    exact resolved_leave hopen actor
  | scores t contest hsome hopen hcontest hsame =>
    obtain ⟨-, hactors, -, hresolved⟩ := frame_scored t contest
    obtain ⟨hplayer, hopponent⟩ := h.manned hopen
    have hkept := hactors.trans hsame.actors
    rw [hresolved, hsame.resolved, hopen, hsome, cleared_congr hkept, cleared_congr hkept,
      hplayer, hopponent, Option.isSome_some, Bool.true_and, Bool.or_false, Bool.or_false]

theorem contesting_step (h : Contesting s) (event : FateEvent) : Contesting (step s event) := by
  have hends := h.ends event
  have hmoves := h.moves event
  unfold EndsContest at hends
  generalize step s event = s' at hmoves hends ⊢
  refine ⟨?_, ?_, fun hopen => ?_⟩
  · cases hmoves with
    | keeps _ hnone hsame => rw [hsame.contest, h.contest]
    | leaves _ actor hnone hopen hsame =>
      obtain ⟨hframe, -, -⟩ := frame_leave s.encounter actor
      rw [hsame.contest]
      exact (congrArg Option.isSome hframe).trans h.contest
    | scores t contest hsome hopen hcontest hsame =>
      obtain ⟨hscored, -, -, -⟩ := frame_scored t contest
      rw [hscored]
      rfl
  · cases hmoves with
    | keeps _ hnone hsame => rw [hsame.pendingDefenses, h.parked]
    | leaves _ actor hnone hopen hsame =>
      obtain ⟨-, -, hdefenses⟩ := frame_leave s.encounter actor
      rw [hsame.pendingDefenses]
      exact hdefenses.trans h.parked
    | scores t contest hsome hopen hcontest hsame =>
      obtain ⟨-, -, hdefenses, -⟩ := frame_scored t contest
      rw [hdefenses, hsame.pendingDefenses, h.parked]
  · -- a side without anybody would have ended it
    rw [hopen] at hends
    obtain ⟨hrest, hopponent⟩ := Bool.or_eq_false_iff.mp hends.symm
    obtain ⟨-, hplayer⟩ := Bool.or_eq_false_iff.mp hrest
    exact ⟨hplayer, hopponent⟩

/-- The contest is over exactly if a tally has reached the target, or everybody on a side has
    left. -/
def OverAtTarget (s : GameSnapshot) : Prop :=
  s.encounter.resolved = (s.encounter.reached || s.encounter.cleared .player
    || s.encounter.cleared .opponent)

/-- What is over in time stays so: only an exchange of an open contest moves a tally. -/
theorem overAtTarget_step (h : Contesting s) (hover : OverAtTarget s) (event : FateEvent) :
    OverAtTarget (step s event) := by
  have hends := h.ends event
  have hmoves := h.moves event
  unfold OverAtTarget EndsContest at *
  generalize step s event = s' at hmoves hends ⊢
  cases hmoves with
  | keeps _ hnone hsame =>
    rw [hsame.resolved, hover, reached_congr hsame.contest, cleared_congr hsame.actors,
      cleared_congr hsame.actors]
  | leaves _ actor hnone hopen hsame =>
    obtain ⟨hframe, -, -⟩ := frame_leave s.encounter actor
    have hunreached : s'.encounter.reached = false := by
      rw [hopen] at hover
      rw [reached_congr (hsame.contest.trans hframe)]
      exact (Bool.or_eq_false_iff.mp (Bool.or_eq_false_iff.mp hover.symm).1).1
    rw [hends, hopen, hnone, hunreached]
    rfl
  | scores t contest hsome hopen hcontest hsame =>
    rw [hends, hopen, hsome]
    rfl

end Step

/-! ### The runs -/

/-- A contest as it is seated: open, with nobody gone and nothing parked. The tallies may have a
    head start. -/
structure FreshContest (s : GameSnapshot) : Prop where
  contest : s.encounter.contest.isSome = true
  unresolved : s.encounter.resolved = false
  present : ∀ actor ∈ s.encounter.actors, actor.withdrawn = false
  parked : s.encounter.pendingDefenses = []

theorem FreshContest.cleared {s : GameSnapshot} (h : FreshContest s) (side : ActorSide) :
    s.encounter.cleared side = false := by
  unfold StructuredEncounter.cleared
  cases hside : s.encounter.sideOf side with
  | nil => rfl
  | cons actor rest =>
    have hmem : actor ∈ s.encounter.sideOf side := by
      rw [hside]
      exact .head _
    rw [List.all_cons, h.present actor (List.mem_of_mem_filter hmem), Bool.false_and,
      Bool.and_false]

theorem FreshContest.contesting {s : GameSnapshot} (h : FreshContest s) : Contesting s :=
  ⟨h.contest, h.parked, fun _ => ⟨h.cleared .player, h.cleared .opponent⟩⟩

/-- **The contest.** Over every run, an exchange in which nobody has left a commit behind adds to
    each tally what it is worth; a message ends the contest exactly if a tally is at the target or
    everybody on a side has left; and the contest is over in exactly those states. -/
theorem contest_spec {s : GameSnapshot} (hs : FreshContest s) (es : List FateEvent) :
    StepsMeet step (fun s event => (∀ encounter, s.contestExchange event = some encounter →
      encounter.nobodyLeft = true) → GrowsByVictories s event) s es ∧
    StepsMeet step EndsContest s es ∧
    (s.encounter.reached = false → Throughout step OverAtTarget s es) := by
  have hkept : ∀ s event, Contesting s → True → Contesting (step s event) :=
    fun s event h _ => contesting_step h event
  have hany : StepsMeet step (fun _ _ => True) s es := stepsMeet_of_forall (fun _ _ => trivial) s es
  refine ⟨?_, ?_, fun hunreached => ?_⟩
  · exact stepsMeet_of_invariant hkept (fun s event h _ hleft => h.grows event hleft) hs.contesting hany
  · exact stepsMeet_of_invariant hkept (fun s event h _ => h.ends event) hs.contesting hany
  · have hstart : OverAtTarget s := by
      unfold OverAtTarget
      rw [hs.unresolved, hunreached, hs.cleared .player, hs.cleared .opponent]
      rfl
    have hboth : Throughout step (fun s => Contesting s ∧ OverAtTarget s) s es :=
      throughout_of_step (fun s event h => ⟨contesting_step h.1 event,
        overAtTarget_step h.1 h.2 event⟩) ⟨hs.contesting, hstart⟩ es
    exact hboth.mono (fun s h => h.2)

/-- Ann and Bob against Gob, first to three victories. -/
def debate : GameSnapshot :=
  { skirmish with encounter := { skirmish.encounter with contest := some {} } }

theorem fresh_debate : FreshContest debate := ⟨rfl, rfl, by decide, rfl⟩

/-- A player's move in the contest, all four dice showing the same face. -/
def argues (actor : String) (face : Face) : FateEvent :=
  .act { action := .overcome, skill := "Rapport" } actor 0 (some ⟨face, face, face, face⟩)

/-- A player gives up the contest. -/
def givesUp (actor : String) : FateEvent := .act { action := .concede } actor 0 none

/-- Both argue, and win two victories; then both give up, and the contest is over without a tally at
    the target. -/
theorem contest_spec_debate :
    StepsMeet step EndsContest debate
      [argues "Ann" .plus, argues "Bob" .blank, givesUp "Ann", givesUp "Bob"] ∧
    Throughout step OverAtTarget debate
      [argues "Ann" .plus, argues "Bob" .blank, givesUp "Ann", givesUp "Bob"] := by
  obtain ⟨-, hends, hover⟩ := contest_spec fresh_debate
    [argues "Ann" .plus, argues "Bob" .blank, givesUp "Ann", givesUp "Bob"]
  exact ⟨hends, hover rfl⟩

/-- A contest that everybody gives up is over without a tally at the target, and a victory is won by
    the commit of somebody who has given up. -/
theorem not_contest_spec_of_givesUp : FreshContest debate ∧
    ¬ Throughout step (fun s => s.encounter.resolved = s.encounter.reached) debate
      [givesUp "Ann", givesUp "Bob"] ∧
    ¬ StepsMeet step GrowsByVictories debate
      [argues "Ann" .plus, givesUp "Ann", argues "Bob" .blank] := by
  refine ⟨fresh_debate, ?_, ?_⟩
  · intro h
    have hover := h.last
    exact absurd hover (by decide)
  · rintro ⟨-, -, hlast, -⟩
    have hgrown := hlast {} (by decide)
    exact absurd hgrown (by decide)

end Sidequest.Fate
