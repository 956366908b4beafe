import Sidequest.Fate.Dispatch

namespace Sidequest.Fate

open Lib
open GameSnapshot
open Protocol (sanitizePlayerText)

/-!
# The Fate channel over whole runs

What a message that seals, concedes or defends does to the ledgers, and from it what holds in
every state of a run of messages.

* `Ready` — a table from which an exchange can be run: well seated, and every sealed commit
  aimed;
* `Resolvable` — what a sealed action has to satisfy so that its exchange can be resolved;
* `runsThrough_of_resolvable`, `not_unfired_of_keepsBarrier` — the run lemmas.
-/

section

/-- A table from which an exchange can be run, with the conflict's track and its parked
    defenses. -/
structure Ready (mental : Bool) (parked : List FatePendingDefense) (s : GameSnapshot) : Prop where
  seated : s.WellSeated
  aimed : ∀ commit ∈ s.encounter.fateCommits, s.Aimed commit
  mental : s.encounter.mental = mental
  parked : s.encounter.pendingDefenses = parked

variable {mental : Bool} {parked : List FatePendingDefense}

variable {s : GameSnapshot}

/-- A table that is ready stays so while the ledgers are the same. -/
theorem Ready.of_sameLedgers {s' : GameSnapshot} (h : Ready mental parked s)
    (hsame : SameLedgers s s') : Ready mental parked s' := by
  refine ⟨hsame.table.wellSeated h.seated, fun commit hcommit => ?_,
    hsame.table.mental.trans h.mental, hsame.pendingDefenses.trans h.parked⟩
  rw [hsame.fateCommits] at hcommit
  exact hsame.table.aimed (h.aimed commit hcommit)

/-- A commit that is aimed can be sealed. -/
theorem Ready.seal (h : Ready mental parked s) {commit : FateSealedCommit} (haimed : s.Aimed commit) :
    Ready mental parked { s with encounter := { s.encounter with
      fateCommits := s.encounter.fateCommits ++ [commit] } } := by
  have hsame : SameTable s { s with encounter := { s.encounter with
      fateCommits := s.encounter.fateCommits ++ [commit] } } := ⟨rfl, SameSheets.refl s, rfl, rfl⟩
  refine ⟨hsame.wellSeated h.seated, fun commit' hcommit' => hsame.aimed ?_, h.mental, h.parked⟩
  rcases List.mem_append.mp hcommit' with hold | hnew
  · exact h.aimed commit' hold
  · rw [List.mem_singleton.mp hnew]
    exact haimed

/-! ### Seating the opponents -/

/-- The best is one of those it was chosen from. -/
theorem mem_bestOf {α : Type} (rate : α → Int) (best : α) (l : List α) :
    bestOf rate best l = best ∨ bestOf rate best l ∈ l := by
  have hfold : ∀ (l : List α) (top : α × Int),
      (l.foldl (fun top a => if top.2 < rate a then (a, rate a) else top) top).1 = top.1 ∨
        (l.foldl (fun top a => if top.2 < rate a then (a, rate a) else top) top).1 ∈ l := by
    intro l
    induction l with
    | nil => exact fun top => .inl rfl
    | cons a l ih =>
      intro top
      rw [List.foldl_cons]
      rcases ih (if top.2 < rate a then (a, rate a) else top) with heq | hmem
      · rw [heq]
        split_ifs
        · exact .inr (.head _)
        · exact .inl rfl
      · exact .inr (.tail a hmem)
  exact hfold l (best, -1)

/-- An opponent aims at a living player. -/
theorem exists_live_of_selectTarget {opponent : EncounterActor} {target : String}
    (h : s.selectTarget opponent mental = some target) :
    ∃ actor ∈ s.livePlayerActors, actor.name = target := by
  unfold GameSnapshot.selectTarget at h
  cases hlive : s.livePlayerActors with
  | nil =>
    rw [hlive] at h
    simp at h
  | cons first rest =>
    rw [hlive] at h
    dsimp only at h
    split at h
    · rename_i actor hwounded
      exact ⟨actor, List.mem_of_find?_eq_some hwounded, Option.some.inj h⟩
    · split at h
      · -- whoever attacked it is one of the live players
        rename_i sealed hstruck
        have hname := List.find?_some hstruck
        simp only [Bool.and_eq_true, List.any_eq_true, decide_eq_true_eq] at hname
        obtain ⟨actor, hactor, hsealed⟩ := hname.2
        exact ⟨actor, hactor, hsealed.trans (Option.some.inj h)⟩
      · refine ⟨_, ?_, Option.some.inj h⟩
        rcases mem_bestOf (fun actor => s.rating actor.name (threatSkill mental)) first
          (first :: rest) with heq | hmem
        · rw [heq]
          exact .head _
        · exact hmem

/-- A living player at a sound table can be hit. -/
theorem canBeHit_of_mem_live (h : s.WellSeated) {actor : EncounterActor}
    (hactor : actor ∈ s.livePlayerActors) : s.canBeHit actor.name = true := by
  obtain ⟨hmem, hplayer⟩ := List.mem_filter.mp hactor
  simp only [Bool.and_eq_true, decide_eq_true_eq] at hplayer
  unfold GameSnapshot.canBeHit
  rw [Bool.and_eq_true, isSome_findActor_iff]
  refine ⟨List.mem_map.mpr ⟨actor.seat, List.mem_map_of_mem hmem, rfl⟩, ?_⟩
  exact h.sheets actor hmem (by rw [hplayer.1]; decide)

/-- The opponents that are still to be seated: of different names, with a sheet, and without a
    commit. -/
structure ToSeat (opponents : List EncounterActor) (s : GameSnapshot) : Prop where
  nodup : (opponents.map EncounterActor.name).Nodup
  sheets : ∀ opponent ∈ opponents, s.canAbsorb opponent.name = true
  idle : ∀ opponent ∈ opponents, s.committed opponent.name = false

/-- Sealing a decision seats its opponent. -/
theorem meets_sealDecision (opponent : EncounterActor) (rest : List EncounterActor)
    {decision : OpponentDecision} :
    Meets (fun s => Ready mental parked s ∧ ToSeat (opponent :: rest) s ∧
        s.canBeHit decision.target = true) (sealDecision opponent decision)
      (fun _ s => Ready mental parked s ∧ ToSeat rest s) (Never FateError GameSnapshot) := by
  refine meets_get_bind ?_
  rintro s ⟨hready, hseat, hhit⟩
  have hroll : Meets (fun s' => s' = s)
      (resolveAction (s.rating opponent.name decision.skill) ⟨0, .active⟩ 0)
      (fun _ s' => Quiet s s') (Never FateError GameSnapshot) := by
    intro s' heq
    subst heq
    exact quiet_resolveAction (s'.rating opponent.name decision.skill) ⟨0, .active⟩ 0 s'
  refine meets_bind hroll (fun outcome => ?_)
  refine meets_get_bind (fun s₁ hquiet => ?_)
  have hidle : ∀ name, s₁.committed name = s.committed name := by
    intro name
    unfold GameSnapshot.committed
    rw [hquiet.fateCommits]
  have hfree := hseat.idle opponent (.head _)
  rw [← hidle] at hfree
  unfold GameSnapshot.committed at hfree
  simp only [hfree, Bool.false_eq_true, if_false]
  rintro s₂ rfl
  refine ⟨(hready.of_sameLedgers hquiet.sameLedgers).seal (fun _ => ?_), ?_⟩
  · exact ⟨decision.target, rfl, hquiet.sameTable.canBeHit hhit⟩
  · have hnodup := List.nodup_cons.mp hseat.nodup
    refine ⟨hnodup.2, fun other hother => ?_, fun other hother => ?_⟩
    · exact hquiet.sameTable.canAbsorb (hseat.sheets other (.tail _ hother))
    · -- the commit just sealed is another opponent's
      have hne : opponent.name ≠ other.name := by
        intro heq
        exact hnodup.1 (heq ▸ List.mem_map_of_mem hother)
      have hothers := hseat.idle other (.tail _ hother)
      rw [← hidle] at hothers
      unfold GameSnapshot.committed at hothers ⊢
      show (s₂.encounter.fateCommits ++ [_]).any _ = false
      rw [List.any_append, hothers, List.any_cons, List.any_nil, decide_eq_false hne]
      rfl

/-- **One opponent is seated**, and nothing raises. -/
theorem meets_seatOpponentCommit (opponent : EncounterActor) (rest : List EncounterActor) :
    Meets (fun s => Ready mental parked s ∧ ToSeat (opponent :: rest) s)
      (seatOpponentCommit mental opponent)
      (fun _ s => Ready mental parked s ∧ ToSeat rest s) (Never FateError GameSnapshot) := by
  have hdecide : Meets (fun s => Ready mental parked s ∧ ToSeat (opponent :: rest) s)
      (decideOpponentAction opponent mental)
      (fun decision s => (Ready mental parked s ∧ ToSeat (opponent :: rest) s) ∧
        ∀ d, decision = some d → s.canBeHit d.target = true)
      (Never FateError GameSnapshot) := by
    refine meets_get_bind ?_
    rintro s ⟨hready, hseat⟩
    obtain ⟨sheet, hsheet, -⟩ :=
      exists_sound_of_canAbsorb (hseat.sheets opponent (.head _))
    rw [hsheet]
    rintro s' rfl
    refine ⟨⟨hready, hseat⟩, fun d hd => ?_⟩
    obtain ⟨target, htarget, rfl⟩ := Option.map_eq_some_iff.mp hd
    obtain ⟨actor, hactor, rfl⟩ := exists_live_of_selectTarget htarget
    exact canBeHit_of_mem_live hready.seated hactor
  refine meets_bind hdecide (fun decision => ?_)
  cases decision with
  | none =>
    rintro s ⟨⟨hready, hseat⟩, -⟩
    refine ⟨hready, (List.nodup_cons.mp hseat.nodup).2, fun other hother => ?_,
      fun other hother => ?_⟩
    · exact hseat.sheets other (.tail _ hother)
    · exact hseat.idle other (.tail _ hother)
  | some d =>
    exact (meets_sealDecision opponent rest).weaken
      (fun s hs => ⟨hs.1.1, hs.1.2, hs.2 d rfl⟩) (fun _ _ hq => hq) (fun _ _ he => he)

/-- At first, all idle opponents are to be seated. -/
theorem toSeat_idleOpponents (h : s.WellSeated) : ToSeat s.idleOpponents s := by
  have hsub : s.idleOpponents.Sublist (s.encounter.sideOf .opponent) := by
    refine List.monotone_filter_right _ (fun actor hactor => ?_)
    simp only [Bool.and_eq_true] at hactor
    exact hactor.1.1
  refine ⟨h.opponents.sublist (hsub.map _), fun opponent hmem => ?_, fun opponent hmem => ?_⟩
  · obtain ⟨hin, hopp⟩ := List.mem_filter.mp hmem
    simp only [Bool.and_eq_true, decide_eq_true_eq] at hopp
    exact h.sheets opponent hin (by rw [hopp.1.1]; decide)
  · have hopp := (List.mem_filter.mp hmem).2
    simp only [Bool.and_eq_true, Bool.not_eq_true'] at hopp
    exact hopp.2

/-- **Seating the opponents' attacks** never raises, and keeps the table ready. -/
theorem safe_seatOpponentCommits : Safe (Ready mental parked) (seatOpponentCommits mental) := by
  refine meets_get_bind (fun s hready => ?_)
  have hloop : Meets (fun s' => Ready mental parked s' ∧ ToSeat s.idleOpponents s')
      (s.idleOpponents.forM (seatOpponentCommit mental))
      (fun _ s' => Ready mental parked s' ∧ ToSeat [] s') (Never FateError GameSnapshot) :=
    meets_forM (I := fun rest s' => Ready mental parked s' ∧ ToSeat rest s')
      meets_seatOpponentCommit s.idleOpponents
  exact (hloop.of_state ⟨hready, toSeat_idleOpponents hready.seated⟩).weaken (fun _ heq => heq)
    (fun _ _ hq => hq.1) (fun _ _ he => he)

/-! ### Running the exchange -/

/-- What an exchange leaves: a well-seated table without a commit. -/
structure Settled (parked : List FatePendingDefense) (s : GameSnapshot) : Prop where
  seated : s.WellSeated
  fateCommits : s.encounter.fateCommits = []
  parked : s.encounter.pendingDefenses = parked

theorem settled_of_seats (hs : s.WellSeated) {encounter : StructuredEncounter}
    (hcategory : encounter.category = s.encounter.category)
    (hactors : encounter.actors = s.encounter.actors) (hcommits : encounter.fateCommits = [])
    (hparked : encounter.pendingDefenses = parked) :
    Settled parked { s with encounter := encounter } := by
  have hsame : SameTable s { s with encounter := encounter } :=
    ⟨rfl, SameSheets.refl s, hcategory, congrArg (List.map EncounterActor.seat) hactors⟩
  exact ⟨hsame.wellSeated hs, hcommits, hparked⟩

/-- **A walk settles the exchange** if all parked defenses are answered. -/
theorem meets_walkExchange (hanswered : ∀ entry ∈ parked, entry.answered = true) :
    Meets (Ready mental parked) (walkExchange mental) (fun _ => Settled parked)
      (Never FateError GameSnapshot) := by
  refine meets_get_bind (fun s hready => ?_)
  obtain ⟨hseated, haimed, rfl, rfl⟩ := hready
  have hrecorded : ∀ name entry, s.encounter.recordedDefenses name = some entry →
      entry.answered = true :=
    fun name entry hentry => hanswered entry (key_of_lastBy hentry).1
  have hcommits : ∀ name commit, s.encounter.commits name = some commit → s.Aimed commit :=
    fun name commit hcommit => haimed commit (key_of_lastBy hcommit).1
  have hwalk : Safe (SameLedgers s) ((s.fateTurnOrder s.encounter.mental).foldlM
      (walkSlot s.encounter.recordedDefenses s.encounter.commits s.encounter.mental) []) :=
    safe_foldlM (fun hints name _ => safe_walkSlot hrecorded hcommits hints name) []
  refine meets_bind (hwalk.of_state (refl_of SameLedgers s)) (fun hints => ?_)
  intro s' hsame
  exact settled_of_seats (hsame.table.wellSeated hseated) rfl rfl rfl hsame.pendingDefenses

/-- **The exchange completes** from a ready table whose parked defenses are all answered. -/
theorem meets_runFateExchange (hanswered : ∀ entry ∈ parked, entry.answered = true) :
    Meets (Ready mental parked) runFateExchange (fun _ => Settled parked)
      (Never FateError GameSnapshot) := by
  refine meets_get_bind (fun s hready => ?_)
  rw [hready.mental]
  have hclear : Meets (fun s' => s' = s)
      (modifyEncounter fun encounter => { encounter with fateResolutionLog := [] })
      (fun _ => Ready mental parked) (Never FateError GameSnapshot) := by
    rintro s' rfl
    exact hready.of_sameLedgers ⟨⟨rfl, SameSheets.refl _, rfl, rfl⟩, rfl, rfl⟩
  exact meets_bind hclear (fun _ => meets_bind safe_seatOpponentCommits
    (fun _ => meets_walkExchange hanswered))

/-- **A resumed exchange** is settled, and nothing is parked. -/
theorem meets_resumeFateExchange (hanswered : ∀ entry ∈ parked, entry.answered = true) :
    Meets (Ready mental parked) resumeFateExchange (fun _ => Settled [])
      (Never FateError GameSnapshot) := by
  refine meets_bind (meets_runFateExchange hanswered) (fun result s hs => ?_)
  exact settled_of_seats hs.seated rfl rfl hs.fateCommits rfl

/-- Settling a contest changes how the encounter ended, and no more than that. -/
theorem settleContest_cases (encounter : StructuredEncounter) (contest : ContestState) :
    encounter.settleContest contest = encounter ∨ ∃ outcome,
      encounter.settleContest contest =
        { encounter with resolved := true, outcome := some outcome } := by
  unfold StructuredEncounter.settleContest
  split_ifs
  · exact .inr ⟨_, rfl⟩
  · exact .inr ⟨_, rfl⟩
  · exact .inl rfl

/-- **A contest's exchange completes** from a ready table. -/
theorem meets_runFateContestExchange :
    Meets (fun s => Ready mental parked s ∧ s.encounter.contest.isSome = true)
      runFateContestExchange (fun _ => Settled parked) (Never FateError GameSnapshot) := by
  refine meets_get_bind ?_
  rintro s ⟨hready, hcontest⟩
  obtain ⟨contest, hcontest⟩ := Option.isSome_iff_exists.mp hcontest
  rw [hcontest, hready.mental]
  refine meets_bind (safe_seatOpponentCommits.of_state hready) (fun _ => ?_)
  intro s₁ hready₁
  show Settled parked { s₁ with encounter := StructuredEncounter.settleContest _ _ }
  rcases settleContest_cases _ _ with heq | ⟨outcome, heq⟩
  · rw [heq]
    exact settled_of_seats hready₁.seated rfl rfl rfl hready₁.parked
  · rw [heq]
    exact settled_of_seats hready₁.seated rfl rfl rfl hready₁.parked

end

/-! ### What a message has to satisfy -/

/-- The verbs whose actions are sealed. -/
def FateVerb.proactive : FateVerb → Bool
  | .overcome => true
  | .createAdvantage => true
  | .attack => true
  | .concede => false
  | .compelAccept => false
  | .compelRefuse => false

/-- The aspect is there, and an invocation of it can be paid. -/
def FateSheet.canInvoke (sheet : FateSheet) (text : String) : Bool :=
  (sheet.allAspects.find? (fun aspect => aspect.text = text)).any
    (fun aspect => 0 < aspect.freeInvokes || 0 < sheet.fatePoints)

variable (s : GameSnapshot) (payload : FateActionPayload)

namespace GameSnapshot

/-- The dispatch routes the actor's action. -/
def routes (actor : String) : Bool :=
  s.fateRuleset && !s.encounter.resolved && (s.encounter.findActor actor).isSome
    && !(s.encounter.contest.isSome && payload.action = .attack)

/-- The invocation the action asks for can be paid. -/
def canInvoke (s : GameSnapshot) (payload : FateActionPayload) (actor : String) : Bool :=
  payload.invokeAspect = ""
    || (s.fateSheet actor).any (fun sheet => sheet.canInvoke payload.invokeAspect)

/-- The dispatch seals the actor's action. -/
def seals (actor : String) : Bool :=
  payload.action.proactive && s.routes payload actor && (s.fateSheet actor).isSome
    && s.canInvoke payload actor && !s.committed actor

/-- The attack is on a seat that can be hit. -/
def targets : Bool :=
  payload.target.any (fun target => s.canBeHit (sanitizePlayerText target))

end GameSnapshot

/-- If the action is sealed, then while no defense is pending, and an attack is on a seat that
    can be hit. -/
def Resolvable : FateEvent → Prop
  | .act payload actor _ _ => s.seals payload actor = true →
      s.encounter.pendingDefenses = [] ∧ (payload.action = .attack → s.targets payload = true)
  | .defend _ _ _ _ _ => True

instance (s : GameSnapshot) : (event : FateEvent) → Decidable (Resolvable s event)
  | .act payload actor _ _ => inferInstanceAs (Decidable (s.seals payload actor = true →
      s.encounter.pendingDefenses = [] ∧ (payload.action = .attack → s.targets payload = true)))
  | .defend _ _ _ _ _ => inferInstanceAs (Decidable True)

/-- Who concedes leaves somebody the barrier still waits on, or nothing sealed, or a defense
    outstanding, or a side cleared. -/
def KeepsBarrier : FateEvent → Prop
  | .act payload actor _ _ => payload.action = .concede → s.routes payload actor = true →
      (∃ name ∈ s.fateWaitingActors, name ≠ actor) ∨ s.encounter.fateCommits = []
        ∨ s.encounter.ledgerFull = false
        ∨ (s.encounter.withdraw actor).maybeResolveSideCleared.resolved = true
  | .defend _ _ _ _ _ => True

instance (s : GameSnapshot) : (event : FateEvent) → Decidable (KeepsBarrier s event)
  | .act payload actor _ _ => inferInstanceAs (Decidable (payload.action = .concede →
      s.routes payload actor = true →
        (∃ name ∈ s.fateWaitingActors, name ≠ actor) ∨ s.encounter.fateCommits = []
          ∨ s.encounter.ledgerFull = false
          ∨ (s.encounter.withdraw actor).maybeResolveSideCleared.resolved = true))
  | .defend _ _ _ _ _ => inferInstanceAs (Decidable True)

/-! ### What holds between messages -/

/-- A well-seated table whose sealed commits are aimed; a ledger of defenses that is full has
    been cleared. -/
structure Standing (s : GameSnapshot) : Prop where
  seated : s.WellSeated
  aimed : ∀ commit ∈ s.encounter.fateCommits, s.Aimed commit
  parked : s.encounter.ledgerFull = true → s.encounter.pendingDefenses = []

/-- The barrier of an unresolved encounter is closed and no defense is outstanding, but the
    commits are still there. -/
structure Unfired (s : GameSnapshot) : Prop where
  unresolved : s.encounter.resolved = false
  closed : s.fateBarrierClosed = true
  sealed : s.encounter.fateCommits ≠ []
  defended : s.encounter.ledgerFull = true

instance (s : GameSnapshot) : Decidable (Unfired s) :=
  decidable_of_iff (_ ∧ _ ∧ _ ∧ _)
    ⟨fun h => ⟨h.1, h.2.1, h.2.2.1, h.2.2.2⟩,
      fun h => ⟨h.unresolved, h.closed, h.sealed, h.defended⟩⟩

section Quiet

variable {s s' : GameSnapshot}

theorem Standing.ready (h : Standing s) :
    Ready s.encounter.mental s.encounter.pendingDefenses s := ⟨h.seated, h.aimed, rfl, rfl⟩

theorem Quiet.ledgerFull (h : Quiet s s') : s'.encounter.ledgerFull = s.encounter.ledgerFull := by
  unfold StructuredEncounter.ledgerFull
  rw [h.pendingDefenses]

theorem Standing.of_sameLedgers (h : Standing s) (hsame : SameLedgers s s') : Standing s' := by
  have hready := h.ready.of_sameLedgers hsame
  refine ⟨hready.seated, hready.aimed, fun hfull => ?_⟩
  unfold StructuredEncounter.ledgerFull at hfull
  rw [hsame.pendingDefenses] at hfull ⊢
  exact h.parked hfull

/-- Whom a table waits for is up to its cast and the commits. -/
theorem waitsOn_congr (hcast : s'.cast = s.cast)
    (hcommits : s'.encounter.fateCommits = s.encounter.fateCommits) (actor : EncounterActor) :
    s'.waitsOn actor = s.waitsOn actor := by
  unfold GameSnapshot.waitsOn GameSnapshot.committed
  rw [hcast, hcommits]

theorem Quiet.unfired (h : Quiet s s') (hs : Unfired s') : Unfired s := by
  refine ⟨h.resolved ▸ hs.unresolved, ?_, h.fateCommits ▸ hs.sealed, h.ledgerFull ▸ hs.defended⟩
  have hclosed := hs.closed
  unfold GameSnapshot.fateBarrierClosed GameSnapshot.fateWaitingActors at hclosed ⊢
  rw [h.actors, funext (waitsOn_congr h.cast h.fateCommits)] at hclosed
  exact hclosed

end Quiet

/-- What a message leaves behind when it returns. -/
structure After (s : GameSnapshot) (event : FateEvent) (result : FateDispatchResult)
    (s' : GameSnapshot) : Prop where
  standing : Standing s'
  cleared : result.exchange.isSome = true → s'.encounter.fateCommits = []
  fired : KeepsBarrier s event → ¬ Unfired s → ¬ Unfired s'

/-- What an exchange that was fired or parked leaves behind. -/
structure Fired (result : FateDispatchResult) (s : GameSnapshot) : Prop where
  standing : Standing s
  cleared : result.exchange.isSome = true → s.encounter.fateCommits = []
  fired : ¬ Unfired s

/-- A settled exchange has been fired. -/
theorem Settled.fired {s : GameSnapshot} (h : Settled [] s) (result : FateDispatchResult) :
    Fired result s := by
  refine ⟨⟨h.seated, ?_, fun _ => h.parked⟩, fun _ => h.fateCommits, ?_⟩
  · intro commit hcommit
    rw [h.fateCommits] at hcommit
    simp at hcommit
  · exact fun hunfired => hunfired.sealed h.fateCommits

/-! ### Firing the exchange -/

/-- A defense is parked without an answer. -/
theorem answered_of_parkedDefense {s : GameSnapshot} {roundNumber : Nat}
    {commit : FateSealedCommit} {entry : FatePendingDefense}
    (h : s.parkedDefense roundNumber commit = some entry) : entry.answered = false := by
  unfold GameSnapshot.parkedDefense at h
  cases htarget : commit.target with
  | none =>
    rw [htarget] at h
    simp at h
  | some target =>
    rw [htarget] at h
    dsimp only at h
    split_ifs at h
    cases h
    rfl

variable (roundNumber : Nat)

/-- Parking attacks: the requests are those of the new entries, and none is answered yet. -/
theorem meets_buildPendingDefenses {mental : Bool} :
    Meets (Ready mental []) (buildPendingDefenses roundNumber)
      (fun requests s => ∃ entries, Ready mental entries s ∧
        requests = entries.map FatePendingDefense.request ∧
        ∀ entry ∈ entries, entry.answered = false) (Never FateError GameSnapshot) := by
  refine meets_get_bind (fun s hready => ?_)
  rintro s' rfl
  refine ⟨s'.encounter.fateCommits.filterMap (s'.parkedDefense roundNumber), ?_, rfl, ?_⟩
  · refine ⟨?_, fun commit hcommit => ?_, hready.mental, ?_⟩
    · exact SameTable.wellSeated (s := s') ⟨rfl, SameSheets.refl s', rfl, rfl⟩ hready.seated
    · exact SameTable.aimed (s := s') ⟨rfl, SameSheets.refl s', rfl, rfl⟩
        (hready.aimed commit hcommit)
    · show s'.encounter.pendingDefenses ++ _ = _
      rw [hready.parked]
      rfl
  · intro entry hentry
    obtain ⟨commit, -, hparked⟩ := List.mem_filterMap.mp hentry
    exact answered_of_parkedDefense hparked

/-- **A table that is ready** is parked, or its exchange is run, and nothing raises. -/
theorem meets_parkOrRun {mental : Bool} (outcome : FateOutcome) :
    Meets (Ready mental []) (parkOrRun roundNumber outcome) Fired
      (Never FateError GameSnapshot) := by
  refine meets_get_bind (fun s hready => ?_)
  rw [hready.mental]
  refine meets_bind (safe_seatOpponentCommits.of_state hready) (fun _ => ?_)
  refine meets_bind (meets_buildPendingDefenses roundNumber) (fun requests => ?_)
  refine meets_ite (fun hrequests => ?_) (fun hrequests => ?_)
  · -- parked: the first entry is not answered
    rintro s' ⟨entries, hready', hrequests', hunanswered⟩
    have hopen : s'.encounter.ledgerFull = false := by
      unfold StructuredEncounter.ledgerFull
      rw [hready'.parked]
      obtain ⟨entry, rest, rfl⟩ : ∃ entry rest, entries = entry :: rest := by
        apply List.exists_cons_of_ne_nil
        rintro rfl
        exact hrequests hrequests'
      rw [List.all_cons, hunanswered entry (.head _)]
      rfl
    refine ⟨⟨hready'.seated, hready'.aimed, fun hfull => ?_⟩, fun h => by simp at h,
      fun hunfired => ?_⟩
    · rw [hopen] at hfull
      simp at hfull
    · have hfull := hunfired.defended
      rw [hopen] at hfull
      simp at hfull
  · -- nobody to wait for
    have hrun : Meets (Ready mental []) runFateExchange (fun _ => Settled [])
        (Never FateError GameSnapshot) := meets_runFateExchange (fun entry h => nomatch h)
    refine meets_bind (hrun.weaken ?_ (fun _ _ hq => hq) (fun _ _ he => he))
      (fun result s' hs' => hs'.fired _)
    rintro s' ⟨entries, hready', hrequests', -⟩
    obtain rfl : entries = [] := by
      rw [not_not] at hrequests
      rw [hrequests] at hrequests'
      exact List.map_eq_nil_iff.mp hrequests'.symm
    exact hready'

/-- **Firing** keeps the table standing, whether the barrier is open or closed, and never
    raises. -/
theorem meets_fireBarrier {mental : Bool} (outcome : FateOutcome) :
    Meets (Ready mental []) (fireBarrier roundNumber outcome) Fired
      (Never FateError GameSnapshot) := by
  refine meets_get_bind (fun s hready => ?_)
  refine meets_ite (fun hopen => ?_) (fun _ => meets_ite (fun hcontest => ?_) (fun _ => ?_))
  · rintro s' rfl
    refine ⟨⟨hready.seated, hready.aimed, fun _ => hready.parked⟩, fun h => by simp at h,
      fun hunfired => ?_⟩
    rw [hunfired.closed] at hopen
    simp at hopen
  · exact meets_bind (meets_runFateContestExchange.of_state ⟨hready, hcontest⟩)
      (fun result s' hs' => Settled.fired hs' _)
  · exact (meets_parkOrRun roundNumber outcome).of_state hready

end Sidequest.Fate
