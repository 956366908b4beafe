import Sidequest.Fate.Completion
import Sidequest.Fate.Withdrawn

namespace Sidequest.Fate

open Lib Effect
open GameSnapshot

/-!
# When firing raises

What a sealed action fires raises exactly where an opponent cannot be seated, or the commit of a
slot cannot be resolved; and whatever raises leaves the sealed commits in the ledger.

* `SeatsWhole` — the opponents can be seated: `seatOpponentCommits_raises_iff`;
* `Longer` — the ledger of a fire that raised.
-/

/-! ### Seating the opponents -/

/-- The opponents without a commit have sheets, and, where there is somebody to attack, different
    names. -/
structure SeatsWhole (s : GameSnapshot) : Prop where
  sheets : ∀ opponent ∈ s.idleOpponents, (s.fateSheet opponent.name).isSome = true
  nodup : s.livePlayerActors ≠ [] → (s.idleOpponents.map EncounterActor.name).Nodup

/-- So far as they are still to be seated: besides, none of them has committed. -/
structure Seatable (l : List EncounterActor) (s : GameSnapshot) : Prop where
  sheets : ∀ opponent ∈ l, (s.fateSheet opponent.name).isSome = true
  nodup : s.livePlayerActors ≠ [] → (l.map EncounterActor.name).Nodup
  idle : s.livePlayerActors ≠ [] → ∀ opponent ∈ l, s.committed opponent.name = false

/-- An opponent has nobody to attack where nobody lives. -/
theorem selectTarget_eq_none_iff (s : GameSnapshot) (opponent : EncounterActor) (mental : Bool) :
    s.selectTarget opponent mental = none ↔ s.livePlayerActors = [] := by
  unfold GameSnapshot.selectTarget
  cases s.livePlayerActors with
  | nil => exact iff_of_true rfl rfl
  | cons first rest =>
    dsimp only
    split
    · simp
    · split
      · simp
      · simp

/-- The commit of an opponent that decided. -/
def opponentCommit (s : GameSnapshot) (opponent : EncounterActor) (decision : OpponentDecision) :
    FateSealedCommit :=
  let outcome := buildOutcome (s.rolls 0) (s.rating opponent.name decision.skill) ⟨0, .active⟩ 0
  { actor := opponent.name
    action := .attack
    skill := decision.skill
    target := some decision.target
    ladderTotal := outcome.ladderTotal
    dice := outcome.dice }

theorem exec_sealDecision (s : GameSnapshot) (opponent : EncounterActor)
    (decision : OpponentDecision) : (sealDecision opponent decision).exec s =
      (sealFateCommit (opponentCommit s opponent decision)).exec
        { s with rolls := fun n => s.rolls (n + 1) } := rfl

theorem exec_sealFateCommit (commit : FateSealedCommit) (s : GameSnapshot) :
    (sealFateCommit commit).exec s = if s.committed commit.actor = true
      then (.error (.alreadyCommitted commit.actor), s)
      else (.ok ⟨⟩, { s with encounter := { s.encounter with
        fateCommits := s.encounter.fateCommits ++ [commit] } }) := by
  unfold sealFateCommit GameSnapshot.committed
  rw [exec_get_bind]
  split
  · rfl
  · rfl

theorem committed_seal (s : GameSnapshot) (commit : FateSealedCommit) (name : String) :
    GameSnapshot.committed { s with encounter := { s.encounter with
      fateCommits := s.encounter.fateCommits ++ [commit] } } name
        = (s.committed name || decide (commit.actor = name)) := by
  unfold GameSnapshot.committed
  rw [List.any_append, List.any_cons, List.any_nil, Bool.or_false]

variable {s : GameSnapshot} {opponent : EncounterActor}

variable (mental : Bool)

theorem exec_seatOpponentCommit_of_none (hsheet : s.fateSheet opponent.name = none) :
    (seatOpponentCommit mental opponent).exec s =
      (.error (.opponentWithoutSheet opponent.name), s) := by
  unfold seatOpponentCommit decideOpponentAction
  rw [exec_bind, exec_get_bind, hsheet]
  rfl

theorem exec_seatOpponentCommit_of_nobody {sheet : FateSheet}
    (hsheet : s.fateSheet opponent.name = some sheet) (hlive : s.livePlayerActors = []) :
    (seatOpponentCommit mental opponent).exec s = (.ok ⟨⟩, s) := by
  unfold seatOpponentCommit decideOpponentAction
  rw [exec_bind, exec_get_bind, hsheet]
  rw [(selectTarget_eq_none_iff s opponent mental).mpr hlive]
  rfl

theorem exec_seatOpponentCommit_of_live {sheet : FateSheet}
    (hsheet : s.fateSheet opponent.name = some sheet) (hlive : s.livePlayerActors ≠ []) :
    ∃ commit : FateSealedCommit, commit.actor = opponent.name ∧
      (seatOpponentCommit mental opponent).exec s =
        (sealFateCommit commit).exec { s with rolls := fun n => s.rolls (n + 1) } := by
  obtain ⟨target, htarget⟩ := Option.ne_none_iff_exists'.mp
    (fun hnone => hlive ((selectTarget_eq_none_iff s opponent mental).mp hnone))
  refine ⟨opponentCommit s opponent ⟨.attack, selectSkill sheet mental, target⟩, rfl, ?_⟩
  unfold seatOpponentCommit decideOpponentAction
  rw [exec_bind, exec_get_bind, hsheet]
  rw [htarget]
  exact exec_sealDecision s opponent ⟨.attack, selectSkill sheet mental, target⟩

/-- Where nobody lives only the sheets count. -/
theorem seatable_cons_of_nobody {l : List EncounterActor}
    (hsheet : (s.fateSheet opponent.name).isSome = true) (hlive : s.livePlayerActors = []) :
    Seatable (opponent :: l) s ↔ Seatable l s := by
  constructor
  · intro h
    exact ⟨(List.forall_mem_cons.mp h.sheets).2, fun hne => absurd hlive hne,
      fun hne => absurd hlive hne⟩
  · intro h
    exact ⟨List.forall_mem_cons.mpr ⟨hsheet, h.sheets⟩, fun hne => absurd hlive hne,
      fun hne => absurd hlive hne⟩

/-- Who is still to be seated has another name than the one just seated. -/
theorem seatable_cons_of_seated {s' : GameSnapshot} {l : List EncounterActor}
    (hsheet : (s.fateSheet opponent.name).isSome = true) (hlive : s.livePlayerActors ≠ [])
    (hidle : s.committed opponent.name = false) (hsheets : s'.fateSheet = s.fateSheet)
    (hplayers : s'.livePlayerActors = s.livePlayerActors) (hcommitted : ∀ name, s'.committed name
      = (s.committed name || decide (opponent.name = name))) :
    Seatable (opponent :: l) s ↔ Seatable l s' := by
  constructor
  · intro h
    have hnodup := h.nodup hlive
    rw [List.map_cons, List.nodup_cons] at hnodup
    refine ⟨?_, fun _ => hnodup.2, fun _ other hother => ?_⟩
    · rw [hsheets]
      exact (List.forall_mem_cons.mp h.sheets).2
    · rw [hcommitted, Bool.or_eq_false_iff]
      refine ⟨(List.forall_mem_cons.mp (h.idle hlive)).2 other hother, ?_⟩
      refine decide_eq_false (fun hname => hnodup.1 ?_)
      rw [hname]
      exact List.mem_map_of_mem hother
  · intro h
    have hidle' := h.idle (hplayers ▸ hlive)
    refine ⟨List.forall_mem_cons.mpr ⟨hsheet, hsheets ▸ h.sheets⟩, fun _ => ?_, fun _ => ?_⟩
    · rw [List.map_cons, List.nodup_cons]
      refine ⟨fun hmem => ?_, h.nodup (hplayers ▸ hlive)⟩
      obtain ⟨other, hother, hname⟩ := List.mem_map.mp hmem
      have hfree := hidle' other hother
      rw [hcommitted, hname, decide_eq_true rfl, Bool.or_true] at hfree
      simp at hfree
    · refine List.forall_mem_cons.mpr ⟨hidle, fun other hother => ?_⟩
      have hfree := hidle' other hother
      rw [hcommitted, Bool.or_eq_false_iff] at hfree
      exact hfree.1

/-- **Seating** some opponents raises exactly where they are not seatable. -/
theorem forM_seatOpponentCommit_raises_iff (l : List EncounterActor) (s : GameSnapshot) :
    (∃ e s', (l.forM (seatOpponentCommit mental)).exec s = (.error e, s')) ↔ ¬ Seatable l s := by
  induction l generalizing s with
  | nil =>
    refine iff_of_false ?_ (not_not.mpr ⟨by simp, by simp, by simp⟩)
    rintro ⟨e, s', h⟩
    exact absurd (congrArg Prod.fst h) (by simp [List.forM])
  | cons opponent l ih =>
    rw [exec_forM_cons, exec_bind]
    cases hsheet : s.fateSheet opponent.name with
    | none =>
      rw [exec_seatOpponentCommit_of_none mental hsheet]
      refine iff_of_true ⟨_, _, rfl⟩ (fun h => ?_)
      have hsome := h.sheets opponent (.head _)
      rw [hsheet] at hsome
      simp at hsome
    | some sheet =>
      have hhas : (s.fateSheet opponent.name).isSome = true := by
        rw [hsheet]
        rfl
      by_cases hlive : s.livePlayerActors = []
      · rw [exec_seatOpponentCommit_of_nobody mental hsheet hlive]
        rw [ih, seatable_cons_of_nobody hhas hlive]
      · obtain ⟨commit, hactor, hexec⟩ := exec_seatOpponentCommit_of_live mental hsheet hlive
        rw [hexec, exec_sealFateCommit, hactor]
        have hrolled : GameSnapshot.committed { s with rolls := fun n => s.rolls (n + 1) }
            opponent.name = s.committed opponent.name := rfl
        rw [hrolled]
        cases hidle : s.committed opponent.name with
        | true =>
          refine iff_of_true ⟨_, _, rfl⟩ (fun h => ?_)
          have hfree := h.idle hlive opponent (.head _)
          rw [hidle] at hfree
          simp at hfree
        | false =>
          refine (ih _).trans (not_congr (Iff.symm ?_))
          refine seatable_cons_of_seated hhas hlive hidle rfl rfl (fun name => ?_)
          rw [← hactor]
          exact committed_seal s commit name

/-- **Seating the opponents** raises exactly where they cannot all be seated. -/
theorem seatOpponentCommits_raises_iff (s : GameSnapshot) :
    (∃ e s', (seatOpponentCommits mental).exec s = (.error e, s')) ↔ ¬ SeatsWhole s := by
  unfold seatOpponentCommits
  rw [exec_get_bind, forM_seatOpponentCommit_raises_iff, not_iff_not]
  constructor
  · exact fun h => ⟨h.sheets, h.nodup⟩
  · intro h
    refine ⟨h.sheets, h.nodup, fun _ opponent hopponent => ?_⟩
    have hidle := (List.mem_filter.mp hopponent).2
    rw [Bool.and_eq_true, Bool.not_eq_true'] at hidle
    exact hidle.2

/-! ### Running the exchange -/

/-- The commit of a slot can be resolved in the snapshot that the slot finds. -/
def SlotWhole (s : GameSnapshot) (visit : String × GameSnapshot) : Prop :=
  ∀ commit, turn s.exchangeStart.encounter.commits visit.2 visit.1 = some commit →
    ¬ Stuck s.exchangeStart.encounter.recordedDefenses s.encounter.mental visit.2 commit

/-- The exchange can be run: its opponents can be seated, and the commit of every slot that it
    comes to can be resolved. -/
structure ExchangeWhole (s : GameSnapshot) : Prop where
  seats : SeatsWhole s
  slots : ∀ visit ∈ s.exchangeVisits, SlotWhole s visit

theorem slot_raises_iff (s : GameSnapshot) (visit : String × GameSnapshot) :
    (∃ e s', (s.exchangeSlot visit.1).exec visit.2 = (.error e, s')) ↔ ¬ SlotWhole s visit := by
  cases hturn : turn s.exchangeStart.encounter.commits visit.2 visit.1 with
  | none =>
    have hexec : (s.exchangeSlot visit.1).exec visit.2 = (.ok ⟨⟩, visit.2) :=
      exec_slot_of_none _ _ _ hturn
    refine iff_of_false ?_ (not_not.mpr (fun commit h => absurd (hturn.symm.trans h) (by simp)))
    rintro ⟨e, s', h⟩
    cases congrArg Prod.fst (hexec.symm.trans h)
  | some commit =>
    refine (slot_wounds s.exchangeStart.encounter.recordedDefenses
      s.exchangeStart.encounter.commits s.encounter.mental hturn).2.trans ?_
    constructor
    · exact fun hstuck h => h commit hturn hstuck
    · intro h
      by_contra hfree
      refine h (fun commit' hturn' => ?_)
      rw [← Option.some.inj (hturn.symm.trans hturn')]
      exact hfree

theorem seatExchange_raises_iff (s : GameSnapshot) :
    (∃ e s', (seatExchange s.encounter.mental).exec s = (.error e, s')) ↔ ¬ SeatsWhole s := by
  have hcleared : SeatsWhole { s with encounter := { s.encounter with fateResolutionLog := [] } } ↔
      SeatsWhole s := by
    constructor
    · exact fun h => ⟨h.sheets, h.nodup⟩
    · exact fun h => ⟨h.sheets, h.nodup⟩
  rw [← hcleared, ← seatOpponentCommits_raises_iff s.encounter.mental]
  rfl

theorem exec_finishExchange (order told : List String) (s : GameSnapshot) :
    (finishExchange order told).exec s =
      (.ok ⟨", ".intercalate order, s.encounter.resolved, told⟩,
        { s with encounter := s.encounter.closeExchange told }) := rfl

theorem walkExchange_raises_iff (start : GameSnapshot) :
    (∃ e s', (walkExchange mental).exec start = (.error e, s')) ↔
      ∃ visit ∈ visits (start.slotOf mental) (start.fateTurnOrder mental) start,
        ∃ e s', (start.slotOf mental visit.1).exec visit.2 = (.error e, s') := by
  obtain ⟨told, hwalk⟩ := exec_walkExchange mental start
  rw [hwalk, exec_bind_raises_iff, ← forM_error_iff]
  refine ⟨fun h => h.resolve_right ?_, .inl⟩
  rintro ⟨_, t, -, e, s', hfinish⟩
  rw [exec_finishExchange] at hfinish
  simp at hfinish

/-- **The exchange** raises exactly where it cannot be run. -/
theorem runFateExchange_raises_iff (s : GameSnapshot) :
    (∃ e s', runFateExchange.exec s = (.error e, s')) ↔ ¬ ExchangeWhole s := by
  have hwhole : ExchangeWhole s ↔
      SeatsWhole s ∧ ∀ visit ∈ s.exchangeVisits, SlotWhole s visit :=
    ⟨fun h => ⟨h.seats, h.slots⟩, fun h => ⟨h.1, h.2⟩⟩
  rw [exec_runFateExchange, exec_bind_raises_iff, seatExchange_raises_iff, hwhole, not_and_or]
  refine or_congr_right ?_
  unfold GameSnapshot.exchangeVisits
  rcases hseat : (seatExchange s.encounter.mental).exec s with ⟨e | u, start⟩
  · refine iff_of_false ?_ (not_not.mpr (by simp))
    rintro ⟨a, t, h, -⟩
    simp at h
  · have hstart : s.exchangeStart = start := congrArg Prod.snd hseat
    have hslots : ∀ visit, (∃ e s', (start.slotOf s.encounter.mental visit.1).exec visit.2
        = (.error e, s')) ↔ ¬ SlotWhole s visit := by
      intro visit
      rw [← slot_raises_iff]
      unfold GameSnapshot.exchangeSlot
      rw [hstart]
    have hwalk := walkExchange_raises_iff s.encounter.mental start
    simp only [hslots] at hwalk
    constructor
    · rintro ⟨_, t, hok, hraise⟩
      cases hok
      obtain ⟨visit, hvisit, hstuck⟩ := hwalk.mp hraise
      exact fun h => hstuck (h visit hvisit)
    · intro h
      push Not at h
      exact ⟨u, start, rfl, hwalk.mpr h⟩

/-! ### Firing -/

/-- The snapshot with the opponents' attacks in the ledger. -/
def GameSnapshot.revealed (s : GameSnapshot) : GameSnapshot :=
  ((seatOpponentCommits s.encounter.mental).exec s).2

/-- An attack on a live PC is in the ledger, so that the exchange waits for its defense. -/
def GameSnapshot.parks (s : GameSnapshot) (roundNumber : Nat) : Bool :=
  s.encounter.fateCommits.any (fun commit => (s.parkedDefense roundNumber commit).isSome)

/-- What a closed barrier fires raises nothing: the opponents can be seated, and if no PC is to
    defend itself, the exchange can be run. -/
def FiresWhole (s : GameSnapshot) (roundNumber : Nat) : Prop :=
  s.fateBarrierClosed = true → SeatsWhole s ∧
    (s.encounter.contest = none → s.revealed.parks roundNumber = false → ExchangeWhole s.revealed)

theorem exec_closeContest (contest : ContestState) (s : GameSnapshot) :
    ∃ result s', (closeContest contest).exec s = (.ok result, s') := ⟨_, _, rfl⟩

theorem runFateContestExchange_raises_iff (hcontest : s.encounter.contest.isSome = true) :
    (∃ e s', runFateContestExchange.exec s = (.error e, s')) ↔ ¬ SeatsWhole s := by
  obtain ⟨contest, hcontest⟩ := Option.isSome_iff_exists.mp hcontest
  unfold runFateContestExchange
  rw [exec_get_bind, hcontest]
  rw [exec_bind_raises_iff, ← seatOpponentCommits_raises_iff s.encounter.mental]
  refine ⟨fun h => h.resolve_right ?_, .inl⟩
  rintro ⟨_, t, -, e, s', hraise⟩
  obtain ⟨result, s'', hclose⟩ := exec_closeContest contest t
  cases congrArg Prod.fst (hclose.symm.trans hraise)

/-- Where no defense is parked, parking changes nothing. -/
theorem exec_buildPendingDefenses_of_not_parks {roundNumber : Nat} (h : s.parks roundNumber = false) :
    (buildPendingDefenses roundNumber).exec s = (.ok [], s) := by
  have hnone : s.encounter.fateCommits.filterMap (s.parkedDefense roundNumber) = [] := by
    rw [List.filterMap_eq_nil_iff]
    intro commit hcommit
    have hno := (List.any_eq_false.mp h) commit hcommit
    rw [Bool.not_eq_true, Option.isSome_eq_false_iff, Option.isNone_iff_eq_none] at hno
    exact hno
  have hexec : (buildPendingDefenses roundNumber).exec s =
      (.ok ((s.encounter.fateCommits.filterMap (s.parkedDefense roundNumber)).map
        FatePendingDefense.request), { s with encounter := { s.encounter with
          pendingDefenses := s.encounter.pendingDefenses ++
            s.encounter.fateCommits.filterMap (s.parkedDefense roundNumber) } }) := rfl
  rw [hexec, hnone, List.append_nil]
  rfl

/-- Where one is, there is a request for it. -/
theorem exec_buildPendingDefenses_of_parks {roundNumber : Nat} (h : s.parks roundNumber = true) :
    ∃ requests s', requests ≠ [] ∧ (buildPendingDefenses roundNumber).exec s = (.ok requests, s') := by
  refine ⟨_, _, ?_, rfl⟩
  intro hnone
  obtain ⟨commit, hcommit, hparked⟩ := List.any_eq_true.mp h
  obtain ⟨entry, hentry⟩ := Option.isSome_iff_exists.mp hparked
  rw [List.map_eq_nil_iff, List.filterMap_eq_nil_iff] at hnone
  cases hentry.symm.trans (hnone commit hcommit)

theorem parkOrRun_raises_iff (s : GameSnapshot) (roundNumber : Nat) (outcome : FateOutcome) :
    (∃ e s', (parkOrRun roundNumber outcome).exec s = (.error e, s')) ↔
      ¬ (SeatsWhole s ∧ (s.revealed.parks roundNumber = false → ExchangeWhole s.revealed)) := by
  unfold parkOrRun
  rw [exec_get_bind, exec_bind_raises_iff, seatOpponentCommits_raises_iff, not_and_or]
  refine or_congr_right' (fun hwhole => ?_)
  rw [not_not] at hwhole
  -- the opponents have been seated
  obtain ⟨u, hseated⟩ : ∃ u, (seatOpponentCommits s.encounter.mental).exec s
      = (.ok u, s.revealed) := by
    rcases hexec : (seatOpponentCommits s.encounter.mental).exec s with ⟨e | u, s'⟩
    · exact absurd ((seatOpponentCommits_raises_iff s.encounter.mental s).mp ⟨e, s', hexec⟩)
        (not_not.mpr hwhole)
    · unfold GameSnapshot.revealed
      rw [hexec]
      exact ⟨u, rfl⟩
  rw [hseated]
  cases hparks : s.revealed.parks roundNumber with
  | true =>
    obtain ⟨requests, s'', hne, hbuild⟩ := exec_buildPendingDefenses_of_parks hparks
    refine iff_of_false ?_ (not_not.mpr (fun h => absurd h (by decide)))
    rintro ⟨_, t, ht, e, s', hraise⟩
    cases ht
    rw [exec_bind, hbuild] at hraise
    dsimp only at hraise
    rw [if_pos hne] at hraise
    simp at hraise
  | false =>
    have hbuild := exec_buildPendingDefenses_of_not_parks hparks
    have hrun := runFateExchange_raises_iff s.revealed
    constructor
    · rintro ⟨_, t, ht, e, s', hraise⟩ h
      cases ht
      rw [exec_bind, hbuild] at hraise
      rcases exec_bind_error hraise with hexchange | ⟨result, t, -, hpure⟩
      · exact hrun.mp ⟨e, s', hexchange⟩ (h rfl)
      · simp at hpure
    · intro h
      obtain ⟨e, s', hexchange⟩ := hrun.mpr (fun hwhole => h (fun _ => hwhole))
      refine ⟨u, s.revealed, rfl, e, s', ?_⟩
      rw [exec_bind, hbuild]
      dsimp only
      rw [if_neg (by simp), exec_bind, hexchange]

/-- **Firing** raises exactly where what is fired does. -/
theorem fireBarrier_raises_iff (s : GameSnapshot) (roundNumber : Nat) (outcome : FateOutcome) :
    (∃ e s', (fireBarrier roundNumber outcome).exec s = (.error e, s')) ↔
      ¬ FiresWhole s roundNumber := by
  unfold fireBarrier FiresWhole
  rw [exec_get_bind]
  cases hclosed : s.fateBarrierClosed with
  | false =>
    refine iff_of_false ?_ (not_not.mpr (fun h => absurd h (by decide)))
    rintro ⟨e, s', h⟩
    simp at h
  | true =>
    rw [if_neg (by decide)]
    by_cases hcontest : s.encounter.contest.isSome = true
    · -- a contest parks nothing, and its scoring raises nothing
      have hsome : s.encounter.contest ≠ none := Option.isSome_iff_ne_none.mp hcontest
      rw [if_pos hcontest, exec_bind_raises_iff, runFateContestExchange_raises_iff hcontest]
      constructor
      · rintro (hseats | ⟨result, t, -, e, s', hpure⟩) h
        · exact hseats (h rfl).1
        · simp at hpure
      · intro h
        refine .inl (fun hseats => h (fun _ => ⟨hseats, fun hnone => absurd hnone hsome⟩))
    · rw [Bool.not_eq_true, Option.isSome_eq_false_iff, Option.isNone_iff_eq_none] at hcontest
      rw [hcontest, if_neg (by simp), parkOrRun_raises_iff, not_iff_not]
      constructor
      · exact fun h _ => ⟨h.1, fun _ => h.2⟩
      · exact fun h => ⟨(h rfl).1, (h rfl).2 rfl⟩

/-! ### What a raise leaves in the ledger -/

/-- The ledger has lost no commit. -/
def Longer (s s' : GameSnapshot) : Prop :=
  s.encounter.fateCommits.length ≤ s'.encounter.fateCommits.length

instance : IsPreorder GameSnapshot Longer where
  refl _ := le_rfl
  trans _ _ _ h h' := le_trans h h'

theorem longer_sealFateCommit (commit : FateSealedCommit) :
    Preserves Longer (sealFateCommit commit) := by
  intro s
  rw [exec_sealFateCommit]
  unfold Longer
  split
  · exact le_rfl
  · simp

theorem longer_seatOpponentCommits : Preserves Longer (seatOpponentCommits mental) :=
  preserves_seatOpponentCommits (fun _ _ => le_rfl) longer_sealFateCommit mental

theorem longer_buildPendingDefenses (roundNumber : Nat) :
    Preserves Longer (buildPendingDefenses roundNumber) := fun _ => le_rfl

theorem longer_slot (recorded : String → Option FatePendingDefense)
    (commits : String → Option FateSealedCommit) (mental : Bool) (name : String) :
    Preserves Longer (slot recorded commits mental name) := by
  intro s
  cases hturn : turn commits s name with
  | none =>
    rw [exec_slot_of_none recorded commits mental hturn]
    exact refl_of Longer s
  | some commit =>
    have hwounds := (slot_wounds recorded commits mental hturn).1
    have hkept : (woundedBy mental s commit.actor
        (hitOf recorded mental s commit)).encounter = s.encounter := by
      cases hitOf recorded mental s commit with
      | none => rfl
      | some hit => exact encounter_putFateSheet s hit.target _
    unfold Longer
    rw [hwounds.fateCommits, hkept]

/-- An exchange that raised has not cleared the ledger. -/
theorem longer_of_runFateExchange {s' : GameSnapshot} {e : FateError}
    (h : runFateExchange.exec s = (.error e, s')) : Longer s s' := by
  have hclear : Preserves Longer
      (modifyEncounter fun encounter => { encounter with fateResolutionLog := [] }) :=
    preserves_modify (fun s => le_refl s.encounter.fateCommits.length)
  have hseat : Preserves Longer (seatExchange s.encounter.mental) :=
    hclear.bind (fun _ => longer_seatOpponentCommits _)
  rw [exec_runFateExchange] at h
  rcases exec_bind_error h with h | ⟨_, start, hstart, h⟩
  · exact hseat.of_exec h
  · obtain ⟨told, hwalk⟩ := exec_walkExchange s.encounter.mental start
    rw [hwalk] at h
    have hslots : Preserves Longer ((start.fateTurnOrder s.encounter.mental).forM
        (start.slotOf s.encounter.mental)) := preserves_forM (fun name => longer_slot _ _ _ name) _
    rcases exec_bind_error h with h | ⟨_, t, -, h⟩
    · exact trans_of Longer (hseat.of_exec hstart) (hslots.of_exec h)
    · rw [exec_finishExchange] at h
      simp at h

/-- **A fire that raised** has lost no commit. -/
theorem longer_of_fireBarrier {s' : GameSnapshot} {e : FateError} {roundNumber : Nat}
    {outcome : FateOutcome} (h : (fireBarrier roundNumber outcome).exec s = (.error e, s')) :
    Longer s s' := by
  unfold fireBarrier at h
  rw [exec_get_bind] at h
  split at h
  · simp at h
  split at h
  · rename_i hcontest
    obtain ⟨contest, hcontest⟩ := Option.isSome_iff_exists.mp hcontest
    rcases exec_bind_error h with h | ⟨_, t, -, h⟩
    · unfold runFateContestExchange at h
      rw [exec_get_bind, hcontest] at h
      rcases exec_bind_error h with h | ⟨_, t, -, h⟩
      · exact (longer_seatOpponentCommits _).of_exec h
      · obtain ⟨result, s'', hclose⟩ := exec_closeContest contest t
        cases congrArg Prod.fst (hclose.symm.trans h)
    · simp at h
  · unfold parkOrRun at h
    rw [exec_get_bind] at h
    rcases exec_bind_error h with h | ⟨_, t, hseat, h⟩
    · exact (longer_seatOpponentCommits _).of_exec h
    have hseated := (longer_seatOpponentCommits _).of_exec hseat
    rcases exec_bind_error h with h | ⟨requests, t', hbuild, h⟩
    · obtain ⟨requests, s'', hok⟩ : ∃ requests s'',
          (buildPendingDefenses roundNumber).exec t = (.ok requests, s'') := ⟨_, _, rfl⟩
      cases congrArg Prod.fst (hok.symm.trans h)
    have hbuilt := trans_of Longer hseated ((longer_buildPendingDefenses _).of_exec hbuild)
    split at h
    · simp at h
    · rcases exec_bind_error h with h | ⟨_, t'', -, h⟩
      · exact trans_of Longer hbuilt (longer_of_runFateExchange h)
      · simp at h

end Sidequest.Fate
