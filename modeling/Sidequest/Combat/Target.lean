import Sidequest.Combat.Walk

namespace Sidequest.Combat

open Lib Effect
open Fate (ActorSide Cast CoreRef EncounterActor)

/-!
# The primary target

One helper chooses the target of every attack, by the seats alone: the taunter, or the first of
the opponents in the fight. It does not look at hit points.

* `LeadStands` — the opponent who leads the seats is above 0 HP;
* `within_carryOutBeat_of_primaryTarget` — a strike and its Shock land on the primary target;
* `targets_stand_iff` — commits are pinned on, and blows land on, somebody who stands exactly if
  the lead does.
-/

/-! ### The choice -/

namespace StructuredEncounter

variable {encounter : StructuredEncounter} {side : ActorSide} {name : String}

/-- The primary target is one of the candidates. -/
theorem mem_of_oppositeSideFirstActor (h : encounter.oppositeSideFirstActor side = some name) :
    name ∈ encounter.oppositeCandidates side := by
  unfold oppositeSideFirstActor at h
  split at h
  · split_ifs at h with hmem
    · cases h
      exact hmem
    · exact List.mem_of_head? h
  · exact List.mem_of_head? h

/-- Where there are candidates there is a primary target. -/
theorem exists_oppositeSideFirstActor (h : name ∈ encounter.oppositeCandidates side) :
    ∃ target, encounter.oppositeSideFirstActor side = some target := by
  have hhead : ∃ target, (encounter.oppositeCandidates side).head? = some target := by
    cases hcandidates : encounter.oppositeCandidates side with
    | nil =>
      rw [hcandidates] at h
      simp at h
    | cons target rest => exact ⟨target, rfl⟩
  unfold oppositeSideFirstActor
  split
  · split_ifs
    · exact ⟨_, rfl⟩
    · exact hhead
  · exact hhead

end StructuredEncounter

namespace GameSnapshot

/-- The creature behind the name is above 0 HP. -/
def stands (s : GameSnapshot) (name : String) : Bool := (s.hp name).any (fun hp => 0 < hp)

/-- The name is that of an opponent in the fight who is above 0 HP. -/
def StandingOpponent (s : GameSnapshot) (name : String) : Prop :=
  name ∈ s.encounter.oppositeCandidates .player ∧ s.stands name = true

/-- The taunter, where an opponent in the fight taunts, and else the first seated opponent in the
    fight, is above 0 HP. -/
structure LeadStands (s : GameSnapshot) : Prop where
  taunter : ∀ name, s.encounter.activeTaunter = some name →
    name ∈ s.encounter.oppositeCandidates .player → s.stands name = true
  first : (∀ name, s.encounter.activeTaunter = some name →
      name ∉ s.encounter.oppositeCandidates .player) →
    ∀ name rest, s.encounter.oppositeCandidates .player = name :: rest → s.stands name = true

variable {s : GameSnapshot}

theorem leadStands_iff : s.LeadStands ↔
    ∀ name, s.encounter.oppositeSideFirstActor .player = some name → s.stands name = true := by
  unfold StructuredEncounter.oppositeSideFirstActor
  cases htaunter : s.encounter.activeTaunter with
  | none =>
    constructor
    · intro h name hfirst
      obtain ⟨rest, hrest⟩ := List.head?_eq_some_iff.mp hfirst
      exact h.first (by simp [htaunter]) name rest hrest
    · intro h
      exact ⟨by simp [htaunter], fun _ name rest hrest => h name (by simp [hrest])⟩
  | some taunter =>
    dsimp only
    by_cases hmem : taunter ∈ s.encounter.oppositeCandidates .player
    · rw [if_pos hmem]
      constructor
      · rintro h name hname
        cases hname
        exact h.taunter taunter htaunter hmem
      · intro h
        refine ⟨fun name hname _ => ?_, fun hnone => absurd hmem (hnone taunter htaunter)⟩
        rw [htaunter] at hname
        exact h name hname
    · rw [if_neg hmem]
      constructor
      · intro h name hfirst
        obtain ⟨rest, hrest⟩ := List.head?_eq_some_iff.mp hfirst
        refine h.first (fun other hother => ?_) name rest hrest
        rw [htaunter] at hother
        cases hother
        exact hmem
      · intro h
        refine ⟨fun name hname hin => ?_, fun _ name rest hrest => h name (by simp [hrest])⟩
        rw [htaunter] at hname
        cases hname
        exact absurd hin hmem

/-- Somebody in the fight who stands is a candidate. -/
theorem exists_standingOpponent (h : s.hasLiveHostileOnSide .opponent = true) :
    ∃ name, s.StandingOpponent name := by
  obtain ⟨actor, hmem, hactor⟩ := List.any_eq_true.mp h
  simp only [Bool.and_eq_true] at hactor
  refine ⟨actor.name, List.mem_map.mpr ⟨actor, List.mem_filter.mpr ⟨hmem, ?_⟩, rfl⟩, hactor.2⟩
  simpa using hactor.1

end GameSnapshot

/-! ### Where blows land -/

/-- The event patches the hit points of no other creature than the target. -/
def Event.PatchesOnly (target : Option CoreRef) (event : Event) : Prop :=
  ∀ ref delta current maximum source, event = .hpPatched ref delta current maximum source →
    target = some ref

variable (rules : Rules)

/-- **A beat's blows.** A strike and its Shock patch the primary target and nobody else; only a
    cast chooses its target in a later state. -/
theorem within_carryOutBeat_of_primaryTarget (name : String) (actor : EncounterActor)
    (commitment : Commitment) (hcast : rules.isWwnCast commitment.beat.id = false)
    (s : GameSnapshot) : Within (Event.PatchesOnly (s.primaryTarget actor.side)) s
      ((carryOutBeat rules name actor commitment).exec s).2 := by
  have hclerical : ∀ event : Event, event.clerical = true →
      event.PatchesOnly (s.primaryTarget actor.side) := by
    rintro event hevent ref delta current maximum source rfl
    simp [Event.clerical] at hevent
  have hmortal : ∀ target superseded,
      (Event.mortalInjuryDeclared target superseded).PatchesOnly (s.primaryTarget actor.side) := by
    intro target superseded ref delta current maximum source heq
    simp at heq
  have hpatch : ∀ target, s.primaryTarget actor.side = some target →
      ∀ delta current maximum source,
        (Event.hpPatched target delta current maximum source).PatchesOnly
          (s.primaryTarget actor.side) := by
    intro target htarget delta current maximum source ref _ _ _ _ heq
    rw [htarget, (Event.hpPatched.inj heq).1]
  unfold carryOutBeat
  rw [exec_modify_bind]
  have hdropped : Within (Event.PatchesOnly (s.primaryTarget actor.side)) s
      (s.modifyEncounter (·.dropStaleNegatedSaveHints actor.name)) :=
    within_modifyEncounter s (sameBoard_dropStaleNegatedSaveHints s.encounter actor.name)
  refine hdropped.trans (exec_bind_preserves ?_ (fun rolled t _ hrolled => ?_))
  · exact within_beatDamage rules name actor commitment _ hpatch
  · obtain ⟨damage, shockHpRemoved⟩ := rolled
    show Within _ t ((get >>= _ : CombatM _).exec t).2
    rw [exec_get_bind, exec_set_bind]
    have htarget : t.primaryTarget actor.side = s.primaryTarget actor.side :=
      (hdropped.trans hrolled).primaryTarget actor.side
    refine (within_resolveWnCommittedAction hclerical t actor commitment.beat commitment.outcome
      damage (fun target h => hpatch target (htarget.symm.trans h))).trans ?_
    refine ((within_runCwnWwnDownedSeam hclerical rules actor.side hmortal).bind (fun _ => ?_)) _
    rw [hcast]
    refine Preserves.bind (preserves_pure _) (fun _ => Preserves.bind ?_
      (fun _ => preserves_pure _))
    exact (within_resolveMutationForBeat hclerical rules actor commitment.mutationId).ite
      (preserves_pure _)

/-! ### Targets that stand -/

/-- The commit that is sealed for the actor is pinned on an opponent who stands. -/
def PinsStanding (s : GameSnapshot) (actor : EncounterActor) (beatId : String)
    (outcome : RollOutcome) (spellId mutationId : Option String) : Prop :=
  ∀ commit ∈ ((sealWnCommit actor beatId outcome spellId mutationId).exec s).2.encounter.wnCommits,
    commit.actor = actor.name → ∃ name, commit.target = some name ∧ s.StandingOpponent name

/-- Every blow of a player's beat, strike or Shock, lands on an opponent who stands. -/
def BlowsLandStanding (s : GameSnapshot) : Prop :=
  ∀ (name : String) (striker : EncounterActor) (commitment : Commitment),
    striker.side = .player → rules.isWwnCast commitment.beat.id = false →
    ∀ new, ((carryOutBeat rules name striker commitment).exec s).2.events = s.events ++ new →
    ∀ ref delta current maximum source, .hpPatched ref delta current maximum source ∈ new →
      ∃ opponent, s.StandingOpponent opponent ∧ s.cast.findCreatureCore opponent = some ref

theorem blowsLandStanding_of_leadStands {s : GameSnapshot} (h : s.LeadStands) :
    BlowsLandStanding rules s := by
  intro name striker commitment hside hcast new hnew ref delta current maximum source hmem
  obtain ⟨new', hnew', hpatches⟩ :=
    (within_carryOutBeat_of_primaryTarget rules name striker commitment hcast s).events
  obtain rfl : new = new' := List.append_cancel_left (hnew.symm.trans hnew')
  have htarget := hpatches _ hmem ref delta current maximum source rfl
  rw [hside] at htarget
  -- the creature patched is the one behind the primary target
  obtain ⟨opponent, hopponent, hcore⟩ := Option.bind_eq_some_iff.mp htarget
  exact ⟨opponent, ⟨StructuredEncounter.mem_of_oppositeSideFirstActor hopponent,
    GameSnapshot.leadStands_iff.mp h opponent hopponent⟩, hcore⟩

section Seal

variable {s : GameSnapshot} {actor : EncounterActor} (hfree : s.committed actor.name = false)

include hfree

theorem mem_sealed_iff (beatId : String) (outcome : RollOutcome) (spellId mutationId : Option String)
    (commit : WnSealedCommit) :
    (commit ∈ ((sealWnCommit actor beatId outcome spellId mutationId).exec s).2.encounter.wnCommits ∧
      commit.actor = actor.name) ↔
      commit = ⟨actor.name, beatId, outcome, s.encounter.premise actor beatId, spellId,
        mutationId⟩ := by
  have hexec : ((sealWnCommit actor beatId outcome spellId mutationId).exec s).2.encounter.wnCommits
      = s.encounter.wnCommits ++ [⟨actor.name, beatId, outcome,
        s.encounter.premise actor beatId, spellId, mutationId⟩] := by
    unfold sealWnCommit
    rw [exec_get_bind, if_neg (by simp [hfree])]
    rfl
  rw [hexec, List.mem_append, List.mem_singleton]
  constructor
  · rintro ⟨hold | hnew, hactor⟩
    · have hcommitted : s.committed actor.name = true :=
        List.any_eq_true.mpr ⟨commit, hold, by simp [hactor]⟩
      rw [hfree] at hcommitted
      simp at hcommitted
    · exact hnew
  · rintro rfl
    exact ⟨.inr rfl, rfl⟩

/-- **The targets of a player's attack.** Commits are pinned and blows land on standing opponents
    exactly if the lead of the opponents stands. -/
theorem targets_stand_iff (rules : Rules) (hside : actor.side = .player) {beatId : String}
    (hoffensive : isItemUseBeat beatId = false) (outcome : RollOutcome)
    (spellId mutationId : Option String) : (s.hasLiveHostileOnSide .opponent = true →
      PinsStanding s actor beatId outcome spellId mutationId ∧ BlowsLandStanding rules s) ↔
    (s.hasLiveHostileOnSide .opponent = true → s.LeadStands) := by
  have hpremise : s.encounter.premise actor beatId =
      s.encounter.oppositeSideFirstActor .player := by
    unfold StructuredEncounter.premise
    rw [hoffensive, hside]
    rfl
  refine forall_congr' (fun hlive => ?_)
  constructor
  · rintro ⟨hpins, -⟩
    refine GameSnapshot.leadStands_iff.mpr (fun name hname => ?_)
    have hsealed := (mem_sealed_iff hfree beatId outcome spellId mutationId _).mpr rfl
    obtain ⟨target, htarget, -, hstands⟩ := hpins _ hsealed.1 hsealed.2
    rw [hpremise, hname] at htarget
    cases htarget
    exact hstands
  · intro hlead
    refine ⟨fun commit hmem hactor => ?_, blowsLandStanding_of_leadStands rules hlead⟩
    obtain rfl := (mem_sealed_iff hfree beatId outcome spellId mutationId commit).mp ⟨hmem, hactor⟩
    obtain ⟨candidate, hcandidate, -⟩ := GameSnapshot.exists_standingOpponent hlive
    obtain ⟨name, hname⟩ := StructuredEncounter.exists_oppositeSideFirstActor hcandidate
    exact ⟨name, hpremise.trans hname, StructuredEncounter.mem_of_oppositeSideFirstActor hname,
      GameSnapshot.leadStands_iff.mp hlead name hname⟩

end Seal

/-- The skirmish after its first opponent fell, with the ledger of the next round still empty. -/
def ghoulDown : GameSnapshot :=
  { openSkirmish with
    cores := fun ref => if ref = .npc 0 then { hp := ⟨0, 2⟩ } else { hp := ⟨2, 2⟩ } }

/-- In the skirmish as it begins the lead stands. -/
theorem targets_stand_of_open_skirmish :
    PinsStanding openSkirmish ⟨"Rux", .player, false⟩ "attack" .success none none ∧
      BlowsLandStanding duelRules openSkirmish :=
  (targets_stand_iff (by decide) duelRules rfl (by decide) .success none none).mpr
    (fun _ => GameSnapshot.leadStands_iff.mpr (fun name h => by
      obtain rfl : "Ghoul" = name := Option.some.inj h
      decide)) (by decide)

/-- A dead first opponent is pinned while the second one stands. -/
theorem not_targets_stand_of_ghoulDown :
    ¬ ∀ (rules : Rules) (s : GameSnapshot) (actor : EncounterActor) (beatId : String)
      (outcome : RollOutcome) (spellId mutationId : Option String), actor.side = .player →
        s.committed actor.name = false → isItemUseBeat beatId = false →
        s.hasLiveHostileOnSide .opponent = true →
          PinsStanding s actor beatId outcome spellId mutationId ∧ BlowsLandStanding rules s := by
  intro h
  have hpins := (h duelRules ghoulDown ⟨"Rux", .player, false⟩ "attack" .success none none rfl
    (by decide) (by decide) (by decide)).1
  obtain ⟨name, htarget, -, hstands⟩ := hpins
    ⟨"Rux", "attack", .success, some "Ghoul", none, none⟩ (by decide) rfl
  obtain rfl : "Ghoul" = name := Option.some.inj htarget
  exact absurd hstands (by decide)

end Sidequest.Combat
