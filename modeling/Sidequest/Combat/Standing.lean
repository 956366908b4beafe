import Sidequest.Combat.Barrier

namespace Sidequest.Combat

open Lib Effect
open Fate (ActorSide Cast CoreRef EncounterActor)

/-!
# Who is left standing

Damage is always followed by the win check, withdrawals and drinks never are.

* `SideStands`, `Continues` — an unresolved fight has somebody standing on each side;
* `continues_iff` — a round leaves a fight that can go on exactly if all its slots are such.
-/

/-! ### Sides -/

variable {side : ActorSide}

namespace GameSnapshot

variable (s : GameSnapshot)

/-- Somebody on the side has not withdrawn and is not at 0 HP. -/
def SideStands (side : ActorSide) : Prop :=
  ∃ actor ∈ s.encounter.actors, actor.side = side ∧ actor.withdrawn = false ∧
    s.isDown actor.name = false

instance (s : GameSnapshot) (side : ActorSide) : Decidable (s.SideStands side) :=
  inferInstanceAs (Decidable (∃ actor ∈ s.encounter.actors, actor.side = side ∧
    actor.withdrawn = false ∧ s.isDown actor.name = false))

/-- The fight is over, or somebody stands on each side. -/
def Continues : Prop :=
  s.encounter.resolved = true ∨ s.SideStands .player ∧ s.SideStands .opponent

instance (s : GameSnapshot) : Decidable s.Continues :=
  inferInstanceAs (Decidable (s.encounter.resolved = true ∨
    s.SideStands .player ∧ s.SideStands .opponent))

/-- Each side has a seat that has not withdrawn. -/
def Manned : Prop :=
  ∀ side : ActorSide, side ≠ .neutral →
    ∃ actor ∈ s.encounter.actors, actor.side = side ∧ actor.withdrawn = false

/-- The fight can go on, and each side has a seat that has not withdrawn. -/
structure Fighting (s : GameSnapshot) : Prop where
  manned : s.Manned
  continues : s.Continues

variable {s s' : GameSnapshot}

theorem SideStands.of_same (h : s.SideStands side)
    (hactors : s'.encounter.actors = s.encounter.actors)
    (hdown : ∀ name, s'.isDown name = s.isDown name) : s'.SideStands side := by
  obtain ⟨actor, hmem, hside, hin, hup⟩ := h
  refine ⟨actor, ?_, hside, hin, ?_⟩
  · rw [hactors]
    exact hmem
  · rw [hdown]
    exact hup

theorem Continues.of_same (h : s.Continues) (hactors : s'.encounter.actors = s.encounter.actors)
    (hdown : ∀ name, s'.isDown name = s.isDown name)
    (hresolved : s.encounter.resolved = true → s'.encounter.resolved = true) : s'.Continues := by
  rcases h with hover | ⟨hplayers, hopponents⟩
  · exact .inl (hresolved hover)
  · exact .inr ⟨hplayers.of_same hactors hdown, hopponents.of_same hactors hdown⟩

/-- A fight that is not over and can go on is manned. -/
theorem Continues.fighting (h : s.Continues) (hopen : s.encounter.resolved = false) :
    s.Fighting := by
  refine ⟨fun side hside => ?_, h⟩
  rcases h with hover | ⟨hplayers, hopponents⟩
  · rw [hopen] at hover
    exact absurd hover (by simp)
  · cases side with
    | player =>
      obtain ⟨actor, hmem, hactor, hin, -⟩ := hplayers
      exact ⟨actor, hmem, hactor, hin⟩
    | opponent =>
      obtain ⟨actor, hmem, hactor, hin, -⟩ := hopponents
      exact ⟨actor, hmem, hactor, hin⟩
    | neutral => exact absurd rfl hside

/-- The seats have stayed. -/
theorem Manned.of_actors (h : s.Manned) (hactors : s'.encounter.actors = s.encounter.actors) :
    s'.Manned := by
  intro side hside
  rw [hactors]
  exact h side hside

end GameSnapshot

open GameSnapshot

/-! ### The win check -/

theorem sideStands_of_sideDown {s : GameSnapshot}
    (hmanned : ∃ actor ∈ s.encounter.actors, actor.side = side ∧ actor.withdrawn = false)
    (h : sideDown s.encounter.actors s.hp side = false) : s.SideStands side := by
  by_contra hnobody
  obtain ⟨actor, hmem, hside, hin⟩ := hmanned
  -- everybody on the side is down, and so has hit points
  have hall : ∀ other ∈ s.encounter.actors, other.side = side → other.withdrawn = false →
      ∃ core, s.findCreatureCore other.name = some core ∧ core.down = true := by
    intro other hother hside hin
    have hdown : s.isDown other.name = true := by
      by_contra hup
      exact hnobody ⟨other, hother, hside, hin, Bool.eq_false_iff.mpr hup⟩
    exact exists_of_any hdown
  have hpools : ∀ pool ∈ pools s.encounter.actors s.hp side, pool.2 ≤ 0 := by
    intro pool hpool
    obtain ⟨other, hother, hsome⟩ := List.mem_filterMap.mp hpool
    obtain ⟨hin', hfilter⟩ := List.mem_filter.mp hother
    simp only [Bool.and_eq_true, decide_eq_true_eq, Bool.not_eq_true'] at hfilter
    obtain ⟨core, hcore, hdown⟩ := hall other hin' hfilter.1 hfilter.2
    rw [GameSnapshot.hp, hcore] at hsome
    cases hsome
    exact of_decide_eq_true hdown
  have hsome : pools s.encounter.actors s.hp side ≠ [] := by
    obtain ⟨core, hcore, -⟩ := hall actor hmem hside hin
    refine List.ne_nil_of_mem (a := (actor.name, core.hp.current)) (List.mem_filterMap.mpr
      ⟨actor, List.mem_filter.mpr ⟨hmem, by simp [hside, hin]⟩, ?_⟩)
    rw [GameSnapshot.hp, hcore]
    rfl
  have hdown : sideDown s.encounter.actors s.hp side = true := by
    unfold sideDown
    rw [Bool.and_eq_true, decide_eq_true_eq, List.all_eq_true]
    exact ⟨hsome, fun pool hpool => decide_eq_true (hpools pool hpool)⟩
  rw [h] at hdown
  exact absurd hdown (by simp)

theorem sideDown_of_hpDepletion {actors : List EncounterActor} {hp : String → Option Int}
    (h : hpDepletion actors hp = none) :
    sideDown actors hp .player = false ∧ sideDown actors hp .opponent = false := by
  unfold hpDepletion at h
  split at h
  · exact absurd h (by simp)
  · exact absurd h (by simp)
  · exact absurd h (by simp)
  · rename_i hplayer hopponent
    exact ⟨hplayer, hopponent⟩

/-- **The win check** leaves a fight that can go on. -/
theorem continues_checkHpDepletion {s : GameSnapshot} (hmanned : s.Manned) :
    s.checkHpDepletion.2.Continues := by
  unfold GameSnapshot.checkHpDepletion
  split_ifs with hover
  · exact .inl hover
  · cases hdepletion : hpDepletion s.encounter.actors s.hp with
    | none =>
      obtain ⟨hplayer, hopponent⟩ := sideDown_of_hpDepletion hdepletion
      have hcontinues : s.Continues :=
        .inr ⟨sideStands_of_sideDown (hmanned .player (by simp)) hplayer,
          sideStands_of_sideDown (hmanned .opponent (by simp)) hopponent⟩
      show (s.publish? (s.winConditionEvent "")).Continues
      cases s.winConditionEvent "" with
      | none => exact hcontinues
      | some event => exact hcontinues
    | some depletion =>
      refine .inl ?_
      dsimp only
      cases s.winConditionEvent depletion.outcome with
      | none => rfl
      | some event => rfl

/-! ### Play without blood -/

/-- The event says of nobody that its hit points changed. -/
def Event.Bloodless (event : Event) : Prop := ∀ ref,
  (∀ delta current maximum source, event ≠ .hpPatched ref delta current maximum source) ∧
    ∀ text, event ≠ .statusAdded ref text

theorem Event.bloodless_of_clerical {event : Event} (h : event.clerical = true) :
    event.Bloodless := by
  refine fun ref => ⟨?_, ?_⟩
  · rintro _ _ _ _ rfl
    exact absurd h (by simp [Event.clerical])
  · rintro _ rfl
    exact absurd h (by simp [Event.clerical])

theorem bloodless_mortalInjuryDeclared (target : CoreRef) (superseded : Bool) :
    (Event.mortalInjuryDeclared target superseded).Bloodless := fun _ => ⟨by simp, by simp⟩

theorem not_patched_of_bloodless (ref : CoreRef) : ¬ Patched Event.Bloodless ref := by
  rintro (⟨delta, current, maximum, source, h⟩ | ⟨text, h⟩)
  · exact (h ref).1 delta current maximum source rfl
  · exact (h ref).2 text rfl

variable {s s' : GameSnapshot}

/-- Without blood nobody goes down and nobody gets up. -/
theorem Within.isDown (h : Within Event.Bloodless s s') (name : String) :
    s'.isDown name = s.isDown name := by
  unfold GameSnapshot.isDown GameSnapshot.findCreatureCore
  rw [h.cast]
  cases s.cast.findCreatureCore name with
  | none => rfl
  | some ref =>
    have hhp : (s'.cores ref).hp = (s.cores ref).hp :=
      (h.hp ref).resolve_right (not_patched_of_bloodless ref)
    show (s'.cores ref).down = (s.cores ref).down
    unfold CreatureCore.down
    rw [hhp]

theorem Within.continues (h : Within Event.Bloodless s s') (hs : s.Continues) : s'.Continues :=
  hs.of_same h.board.actors h.isDown h.board.resolved

theorem Within.fighting (h : Within Event.Bloodless s s') (hs : s.Fighting) : s'.Fighting :=
  ⟨hs.manned.of_actors h.board.actors, h.continues hs.continues⟩

/-- What sheds no blood leaves a fight that can go on as it is. -/
theorem leads_of_within {α : Type} {m : CombatM α} (h : Preserves (Within Event.Bloodless) m) :
    Leads Fighting m Fighting := h.leads (fun _ _ hs hwithin => hwithin.fighting hs)

theorem leads_manned_of_within {α : Type} {K : Event → Prop} {m : CombatM α}
    (h : Preserves (Within K) m) : Leads Manned m Manned :=
  h.leads (fun _ _ hs hwithin => hs.of_actors hwithin.board.actors)

/-! ### Attacks -/

theorem leads_runCwnWwnDownedSeam (rules : Rules) (actorSide : ActorSide) :
    Leads Fighting (runCwnWwnDownedSeam rules actorSide) Fighting :=
  leads_of_within (within_runCwnWwnDownedSeam (fun _ => Event.bloodless_of_clerical) rules actorSide
    bloodless_mortalInjuryDeclared)

theorem leads_landDamage (target : CoreRef) (damage : Int) (source : String) :
    Leads Fighting (landDamage target damage source) Manned :=
  (within_landDamage (K := fun _ => True) (fun _ _ _ _ => trivial) damage source).leads
    (fun _ _ hs hwithin => hs.manned.of_actors hwithin.board.actors)

theorem fighting_checkHpDepletion (hs : s.Manned) : s.checkHpDepletion.2.Fighting :=
  ⟨hs.of_actors (within_checkHpDepletion (K := fun _ => True) (fun _ _ => trivial) s).board.actors,
    continues_checkHpDepletion hs⟩

/-- The verdict on a lost fight comes when it is over. -/
theorem fighting_applyPostResolutionLethality (rules : Rules) (hs : s.Fighting) :
    (s.applyPostResolutionLethality rules).Fighting := by
  have hwithin := within_applyPostResolutionLethality (K := fun _ => True) (fun _ _ => trivial)
    (fun _ _ => trivial) s rules
  refine ⟨hs.manned.of_actors hwithin.board.actors, ?_⟩
  by_cases hover : s.encounter.resolved = true
  · exact .inl (hwithin.board.resolved hover)
  · unfold GameSnapshot.applyPostResolutionLethality
    rw [if_neg (fun hlost => hover hlost.1)]
    exact hs.continues

theorem leads_closeReprisalDepletion (rules : Rules) :
    Leads Manned (closeReprisalDepletion rules) Fighting :=
  (leads_modify (fun _ hs => fighting_applyPostResolutionLethality rules
    (fighting_checkHpDepletion hs))).bind (fun _ => leads_runCwnWwnDownedSeam rules .opponent)

/-- **An opponent's attack** leaves a fight that can go on. -/
theorem leads_resolveOpponentReprisal (rules : Rules) (playerName attacker : String)
    (defenderCommit : Option WnSealedCommit) (source : String) :
    Leads Fighting (resolveOpponentReprisal rules playerName attacker defenderCommit source)
      Fighting := by
  refine (leads_of_within (within_reprisalRoll (fun _ => Event.bloodless_of_clerical) rules _ _ _
    _)).bind (fun blow => ?_)
  cases blow with
  | none => exact leads_pure _
  | some found =>
    exact (leads_landDamage _ _ _).bind (fun _ => leads_closeReprisalDepletion rules)

theorem leads_opportunityAttacks (rules : Rules) (token : String) (commit : WnSealedCommit) :
    Leads Fighting (opportunityAttacks rules token commit) Fighting := by
  refine leads_get_bind (fun s _ => Leads.ite (fun _ => ?_) (fun _ => leads_pure _))
  refine leads_forM (fun opponent => leads_get_bind (fun s _ => ?_)) _
  exact Leads.ite (fun _ => leads_pure _) (fun _ => Leads.ite (fun _ => leads_pure _)
    (fun _ => leads_resolveOpponentReprisal rules _ _ _ _))

/-! ### Beats -/

theorem fighting_resolveWnCommittedAction (hs : s.Manned) (actor : EncounterActor) (beat : BeatDef)
    (outcome : RollOutcome) (damage : Option Int) :
    (s.resolveWnCommittedAction actor beat outcome damage).2.Fighting := by
  have hlanded : (s.landRolled actor.side beat damage).2.Manned := by
    cases damage with
    | some total =>
      have hwithin := within_landStrike (K := fun _ => True) s actor.side beat total
        (fun _ _ _ _ _ _ => trivial)
      exact hs.of_actors hwithin.board.actors
    | none => exact hs
  exact (within_resolutionBeatExit (fun _ => Event.bloodless_of_clerical) _ actor.name beat
    outcome).fighting (fighting_checkHpDepletion hlanded)

/-- The damage of a cast is followed by the seam, and then by the win check. -/
theorem leads_resolveWwnCastForBeat (rules : Rules) (actor : EncounterActor)
    (spellId : Option String) :
    Leads Fighting (resolveWwnCastForBeat rules actor spellId) Fighting := by
  refine leads_get_bind (fun s _ => ?_)
  split
  · split
    · exact leads_pure _
    · refine (leads_of_within (within_resolveSpellcast (fun _ => Event.bloodless_of_clerical) rules
        _ _ _ _ _)).bind (fun damage => ?_)
      split
      · have hseam : Leads Manned (runCwnWwnDownedSeam rules actor.side) Manned :=
          leads_manned_of_within (within_runCwnWwnDownedSeam (K := fun _ => True)
            (fun _ _ => trivial) rules actor.side (fun _ _ => trivial))
        refine ((leads_landDamage _ _ _).bind (fun _ => hseam.bind (fun _ => ?_))).onlyIf
        exact leads_modify (fun _ hs => fighting_checkHpDepletion hs)
      · exact leads_pure _
  · exact leads_pure _

/-- **The effects of a beat** leave a fight that can go on. -/
theorem leads_carryOutBeat (rules : Rules) (name : String) (actor : EncounterActor)
    (commitment : Commitment) :
    Leads Fighting (carryOutBeat rules name actor commitment) Fighting := by
  refine (leads_of_within (preserves_modify (fun s => within_modifyEncounter s
    (sameBoard_dropStaleNegatedSaveHints s.encounter actor.name)))).bind (fun _ => ?_)
  have hdamage : Leads Fighting (beatDamage rules name actor commitment) Manned :=
    (show Preserves (Within fun _ => True) (beatDamage rules name actor commitment) from
      fun s => within_beatDamage rules name actor commitment s (fun _ _ _ _ _ _ => trivial)).leads
        (fun _ _ hs hwithin => hs.manned.of_actors hwithin.board.actors)
  refine hdamage.bind (fun rolled => leads_get_bind (fun s hs => ?_))
  refine (leads_set (fighting_resolveWnCommittedAction hs _ _ _ _)).bind (fun _ => ?_)
  refine (leads_runCwnWwnDownedSeam rules actor.side).bind (fun _ => ?_)
  refine (leads_resolveWwnCastForBeat rules actor commitment.spellId).onlyIf.bind (fun _ => ?_)
  refine (leads_of_within ?_).bind (fun _ => leads_pure _)
  exact (within_resolveMutationForBeat (fun _ => Event.bloodless_of_clerical) rules actor
    commitment.mutationId).ite (preserves_pure _)

theorem leads_resolveCommittedBeat (rules : Rules) (token : String) (actor : EncounterActor)
    (commit : WnSealedCommit) :
    Leads Fighting (resolveCommittedBeat rules token actor commit) Fighting := by
  unfold resolveCommittedBeat
  split
  · exact fun _ _ => trivial
  · rename_i beat _
    have happly : Leads Fighting (applyCommittedPlayerBeat rules token actor
        ⟨beat, commit.outcome, commit.spellId, commit.mutationId⟩) Fighting :=
      (leads_carryOutBeat rules token actor _).bind (fun removed =>
        (leads_modify (fun _ hs => ⟨hs.manned, hs.continues⟩)).bind (fun _ =>
          leads_get_bind (fun _ _ => leads_pure _)))
    refine happly.bind (fun application => ?_)
    refine (leads_of_within (within_tellRefusal token _)).bind (fun _ => ?_)
    exact leads_of_within (within_emitPlayerBeatResolutionClose
      (fun _ => Event.bloodless_of_clerical) application "wn_round")

/-! ### Withdrawals and drinks -/

variable {token : String} {actor : EncounterActor}

namespace GameSnapshot

/-- Somebody stands on the player side besides the first seat of the name. -/
def OthersStand (s : GameSnapshot) (name : String) : Prop :=
  ∃ actor ∈ s.encounter.actors.eraseP (fun actor => actor.name = name),
    actor.side = .player ∧ actor.withdrawn = false ∧ s.isDown actor.name = false

/-- Somebody stands on the side who is not the creature. -/
def StandsBeside (s : GameSnapshot) (side : ActorSide) (ref : CoreRef) : Prop :=
  ∃ actor ∈ s.encounter.actors, actor.side = side ∧ actor.withdrawn = false ∧
    s.isDown actor.name = false ∧ s.cast.findCreatureCore actor.name ≠ some ref

/-- **A withdrawal** leaves somebody standing exactly if somebody else stood. -/
theorem sideStands_withdrawActor_iff {s : GameSnapshot}
    (h : s.encounter.findActor token = some actor) :
    (s.withdrawActor token).SideStands .player ↔ s.OthersStand token := by
  have hmem := fun other : EncounterActor => mem_updateFirst_iff (b := other)
    (f := fun actor : EncounterActor => { actor with withdrawn := true }) h
  constructor
  · rintro ⟨other, hother, hside, hin, hup⟩
    rcases (hmem other).mp hother with rfl | herased
    · exact absurd hin (by simp)
    · exact ⟨other, herased, hside, hin, hup⟩
  · rintro ⟨other, herased, hside, hin, hup⟩
    exact ⟨other, (hmem other).mpr (.inr herased), hside, hin, hup⟩

theorem sideStands_withdrawActor_opponent {s : GameSnapshot}
    (h : s.encounter.findActor token = some actor) (hside : actor.side = .player)
    (hs : s.SideStands .opponent) : (s.withdrawActor token).SideStands .opponent := by
  obtain ⟨other, hother, hopponent, hin, hup⟩ := hs
  refine ⟨other, (mem_updateFirst_iff h).mpr (.inr (mem_eraseP_of_ne h hother ?_)), hopponent,
    hin, hup⟩
  rintro rfl
  rw [hside] at hopponent
  exact absurd hopponent (by simp)

end GameSnapshot

/-- **The slots that keep the sides**: a flight leaves somebody else on the player side, a drink
    leaves its drinker up or somebody else on each side. -/
def SlotAction.KeepsSides (rules : Rules) (s : GameSnapshot) (token : String) : SlotAction → Prop
  | .nonoffensive commit => isWnFleeAction commit.beatId = true →
    ∀ t, (opportunityAttacks rules token commit).exec s = (.ok ⟨⟩, t) →
      t.encounter.resolved = true ∨ t.OthersStand token
  | .useItem commit => ∀ target index spec rolled t,
    s.resolveItemUse token commit.beatId = .ok (target, index) →
    ((s.cores target).items[index]?.getD {}).heal = .dice spec →
    spec.roll.exec s = (.ok rolled, t) →
      0 < ((s.cores target).hp.applyDelta rolled).current ∨
        s.StandsBeside .player target ∧ s.StandsBeside .opponent target
  | _ => True

/-- What a drink does to the seats and the hit points. -/
structure DrinkFelt (target : CoreRef) (item : Item) (s s' : GameSnapshot) : Prop where
  cast : s'.cast = s.cast
  actors : s'.encounter.actors = s.encounter.actors
  resolved : s'.encounter.resolved = s.encounter.resolved
  others : ∀ ref, ref ≠ target → (s'.cores ref).hp = (s.cores ref).hp
  drinker : ((∀ spec, item.heal ≠ .dice spec) ∧ (s'.cores target).hp = (s.cores target).hp) ∨
    ∃ spec rolled t, item.heal = .dice spec ∧ spec.roll.exec s = (.ok rolled, t) ∧
      (s'.cores target).hp = (s.cores target).hp.applyDelta rolled

/-- The roll heals, or harms, the drinker. -/
theorem drinkFelt_applyConsumableHeal {target : CoreRef} {item : Item} {healed : Int}
    (hexec : (applyConsumableHeal target item).exec s = (.ok healed, s')) :
    DrinkFelt target item s s' := by
  unfold applyConsumableHeal at hexec
  split at hexec
  · rename_i spec hspec
    obtain ⟨rolled, t, hroll, hrest⟩ := exists_of_exec_bind hexec
    obtain ⟨rng, rfl⟩ := (onlyDice_roll spec).of_exec hroll
    rw [exec_get_bind, exec_set_bind] at hrest
    obtain rfl := congrArg Prod.snd hrest
    refine ⟨rfl, rfl, rfl, fun ref href => ?_, .inr ⟨spec, rolled, _, hspec, hroll, ?_⟩⟩
    · simp [GameSnapshot.publish, GameSnapshot.modifyCore, href]
    · simp [GameSnapshot.publish, GameSnapshot.modifyCore]
  · cases congrArg Prod.fst hexec
  · rename_i hmalformed
    obtain rfl := congrArg Prod.snd hexec
    exact ⟨rfl, rfl, rfl, fun _ _ => rfl, .inl ⟨by simp [hmalformed], rfl⟩⟩
  · rename_i habsent
    obtain rfl := congrArg Prod.snd hexec
    exact ⟨rfl, rfl, rfl, fun _ _ => rfl, .inl ⟨by simp [habsent], rfl⟩⟩

variable {commit : WnSealedCommit} {u : PUnit}

theorem exists_drinkFelt (hexec : (resolveCommittedItem token commit).exec s = (.ok u, s')) :
    ∃ target index, s.resolveItemUse token commit.beatId = .ok (target, index) ∧
      DrinkFelt target ((s.cores target).items[index]?.getD {}) s s' := by
  unfold resolveCommittedItem at hexec
  rw [exec_get_bind] at hexec
  cases hfound : s.resolveItemUse token commit.beatId with
  | error e =>
    rw [hfound] at hexec
    cases show Except.error e = Except.ok _ from congrArg Prod.fst hexec
  | ok found =>
    obtain ⟨target, index⟩ := found
    rw [hfound] at hexec
    change (applyItemUse token target index).exec s = _ at hexec
    unfold applyItemUse at hexec
    rw [exec_get_bind] at hexec
    obtain ⟨healed, t, hheal, hconsume⟩ := exists_of_exec_bind hexec
    obtain rfl := eq_of_exec_modify hconsume
    have hfelt := drinkFelt_applyConsumableHeal hheal
    -- the item leaves the inventory, and nobody's hit points change
    have hhp : ∀ ref, ((t.consumeItem token target index
        ((s.cores target).items[index]?.getD {}) healed).cores ref).hp = (t.cores ref).hp := by
      intro ref
      by_cases href : ref = target
      · subst href
        simp [GameSnapshot.consumeItem, GameSnapshot.hint, GameSnapshot.modifyEncounter,
          GameSnapshot.publish, GameSnapshot.modifyCore]
      · simp [GameSnapshot.consumeItem, GameSnapshot.hint, GameSnapshot.modifyEncounter,
          GameSnapshot.publish, GameSnapshot.modifyCore, href]
    refine ⟨target, index, rfl, hfelt.cast, hfelt.actors, hfelt.resolved, fun ref href => ?_, ?_⟩
    · rw [hhp]
      exact hfelt.others ref href
    · rw [hhp]
      exact hfelt.drinker

namespace DrinkFelt

variable {target : CoreRef} {item : Item} (h : DrinkFelt target item s s')

include h

/-- Whoever is not the drinker is up or down as before. -/
theorem isDown_of_ne {name : String} (hname : s.cast.findCreatureCore name ≠ some target) :
    s'.isDown name = s.isDown name := by
  unfold GameSnapshot.isDown GameSnapshot.findCreatureCore
  rw [h.cast]
  cases hcore : s.cast.findCreatureCore name with
  | none => rfl
  | some ref =>
    have hne : ref ≠ target := fun heq => hname (by rw [hcore, heq])
    show (s'.cores ref).down = (s.cores ref).down
    unfold CreatureCore.down
    rw [h.others ref hne]

theorem isDown_target {name : String} (hname : s.cast.findCreatureCore name = some target) :
    s'.isDown name = (s'.cores target).down := by
  unfold GameSnapshot.isDown GameSnapshot.findCreatureCore
  rw [h.cast, hname]
  rfl

/-- Somebody besides the drinker still stands after the drink. -/
theorem sideStands_of_beside (hs : s.StandsBeside side target) : s'.SideStands side := by
  obtain ⟨actor, hmem, hside, hin, hup, hother⟩ := hs
  refine ⟨actor, ?_, hside, hin, ?_⟩
  · rw [h.actors]
    exact hmem
  · rw [h.isDown_of_ne hother]
    exact hup

/-- While the drinker is up, nobody is worse off. -/
theorem sideStands_of_up (hup : (s'.cores target).down = false) (hs : s.SideStands side) :
    s'.SideStands side := by
  obtain ⟨actor, hmem, hside, hin, hstands⟩ := hs
  refine ⟨actor, ?_, hside, hin, ?_⟩
  · rw [h.actors]
    exact hmem
  · by_cases hname : s.cast.findCreatureCore actor.name = some target
    · rw [h.isDown_target hname]
      exact hup
    · rw [h.isDown_of_ne hname]
      exact hstands

/-- Once the drinker is down, whoever stands is somebody else. -/
theorem standsBeside_of_down (hdown : (s'.cores target).down = true) (hs : s'.SideStands side) :
    s.StandsBeside side target := by
  obtain ⟨actor, hmem, hside, hin, hup⟩ := hs
  rw [h.actors] at hmem
  have hname : s.cast.findCreatureCore actor.name ≠ some target := by
    intro hname
    rw [h.isDown_target hname, hdown] at hup
    exact absurd hup (by simp)
  refine ⟨actor, hmem, hside, hin, ?_, hname⟩
  rw [← h.isDown_of_ne hname]
  exact hup

end DrinkFelt

/-! ### Slots -/

variable {commits : String → Option WnSealedCommit}

/-- Nobody acts once the fight is over. -/
theorem open_of_acts (h : (s.slotAction commits token).acts = true) :
    s.encounter.resolved = false := by
  by_contra hover
  have hbarred : s.barred token := .inr (.inr (Bool.not_eq_false _ ▸ hover))
  have hidle := acts_eq_false_of_barred commits hbarred
  rw [h] at hidle
  exact absurd hidle (by simp)

theorem Idle.continues (h : Idle s s') (hs : s.Continues) : s'.Continues := by
  refine hs.of_same ?_ (fun name => ?_) (fun hover => ?_)
  · rw [h.same]
  · rw [h.same]
    rfl
  · rw [h.same]
    exact hover

variable {rules : Rules}

/-- **A drink that keeps the sides** leaves a fight that can go on. -/
theorem continues_of_drink (hopen : s.encounter.resolved = false) (hs : s.Continues)
    (hkeeps : (SlotAction.useItem commit).KeepsSides rules s token)
    (hexec : (resolveCommittedItem token commit).exec s = (.ok u, s')) : s'.Continues := by
  obtain ⟨target, index, hfound, hfelt⟩ := exists_drinkFelt hexec
  rcases hfelt.drinker with ⟨-, hsame⟩ | ⟨spec, rolled, t, hheal, hroll, hhp⟩
  · -- an item without dice changes nobody's hit points
    have hdown : (s'.cores target).down = (s.cores target).down := by
      unfold CreatureCore.down
      rw [hsame]
    refine hs.of_same hfelt.actors (fun name => ?_) hfelt.resolved.trans
    by_cases hname : s.cast.findCreatureCore name = some target
    · rw [hfelt.isDown_target hname, hdown]
      unfold GameSnapshot.isDown GameSnapshot.findCreatureCore
      rw [hname]
      rfl
    · exact hfelt.isDown_of_ne hname
  · have hsides := hs.resolve_left (by simp [hopen])
    rcases hkeeps target index spec rolled t hfound hheal hroll with hpos | ⟨hplayers, hopponents⟩
    · have hup : (s'.cores target).down = false := by
        rw [← hhp] at hpos
        exact decide_eq_false (by omega)
      exact .inr ⟨hfelt.sideStands_of_up hup hsides.1, hfelt.sideStands_of_up hup hsides.2⟩
    · exact .inr ⟨hfelt.sideStands_of_beside hplayers, hfelt.sideStands_of_beside hopponents⟩

/-- The snapshot after a non-offensive action, from the one after the free attacks. -/
def GameSnapshot.afterNonoffensive (t : GameSnapshot) (token : String) (commit : WnSealedCommit) :
    GameSnapshot :=
  ((if isWnFleeAction commit.beatId then t.withdrawActor token else t).hint
    (.nonoffensive token commit.beatId)).publish
    (.nonoffensiveAction token commit.beatId (isWnFleeAction commit.beatId))

theorem exists_of_exec_resolveNonoffensive
    (hexec : (resolveNonoffensive rules token commit).exec s = (.ok u, s')) :
    ∃ t, (opportunityAttacks rules token commit).exec s = (.ok ⟨⟩, t) ∧
      s' = t.afterNonoffensive token commit := by
  obtain ⟨_, t, hattacks, hrest⟩ := exists_of_exec_bind hexec
  exact ⟨t, hattacks, eq_of_exec_modify hrest⟩

/-- **An action that keeps the sides** leaves a fight that can go on. -/
theorem continues_of_nonoffensive (hseat : s.encounter.findActor token = some actor)
    (hside : actor.side = .player) (hopen : s.encounter.resolved = false) (hs : s.Continues)
    (hkeeps : (SlotAction.nonoffensive commit).KeepsSides rules s token)
    (hexec : (resolveNonoffensive rules token commit).exec s = (.ok u, s')) : s'.Continues := by
  obtain ⟨t, hattacks, rfl⟩ := exists_of_exec_resolveNonoffensive hexec
  have hfighting : t.Fighting :=
    (leads_opportunityAttacks rules token commit).of_ok (hs.fighting hopen) hattacks
  have hwithin : Within (fun _ => True) s t :=
    (within_opportunityAttacks (fun _ _ => trivial) (fun _ _ => trivial) (fun _ _ _ _ _ => trivial)
      (fun _ _ => trivial) rules token commit).of_exec hattacks
  have hseat' : t.encounter.findActor token = some actor := by
    unfold StructuredEncounter.findActor
    rw [hwithin.board.actors]
    exact hseat
  show (if isWnFleeAction commit.beatId then t.withdrawActor token else t).Continues
  by_cases hflee : isWnFleeAction commit.beatId = true
  · rw [if_pos hflee]
    rcases hfighting.continues with hover | ⟨-, hopponents⟩
    · exact .inl hover
    · rcases hkeeps hflee t hattacks with hover | hothers
      · exact .inl hover
      · exact .inr ⟨(sideStands_withdrawActor_iff hseat').mpr hothers,
          sideStands_withdrawActor_opponent hseat' hside hopponents⟩
  · rw [if_neg hflee]
    exact hfighting.continues

variable {entry : InitiativeEntry}

/-- **A slot that keeps the sides** leaves a fight that can go on. -/
theorem continues_of_takeSlot (hs : s.Continues)
    (hkeeps : (s.slotAction commits entry.tokenId).KeepsSides rules s entry.tokenId)
    (hexec : (takeSlot rules commits entry).exec s = (.ok ⟨⟩, s')) : s'.Continues := by
  rw [exec_takeSlot] at hexec
  by_cases hacts : (s.slotAction commits entry.tokenId).acts = true
  · have hopen := open_of_acts hacts
    have hfighting := hs.fighting hopen
    cases haction : s.slotAction commits entry.tokenId with
    | opponentAttack target =>
      rw [haction] at hexec
      exact ((leads_resolveOpponentReprisal rules _ _ _ _).of_ok hfighting hexec).continues
    | useItem commit =>
      rw [haction] at hexec hkeeps
      exact continues_of_drink hopen hs hkeeps hexec
    | nonoffensive commit =>
      have hcommit : (s.slotAction commits entry.tokenId).commit? = some commit := by
        rw [haction]
        rfl
      obtain ⟨actor, hseat, -, -, hside, -⟩ := exists_of_commit? hcommit
      rw [haction] at hexec hkeeps
      exact continues_of_nonoffensive hseat hside hopen hs hkeeps hexec
    | applyBeat commit actor =>
      rw [haction] at hexec
      exact ((leads_resolveCommittedBeat rules _ actor commit).of_ok hfighting hexec).continues
    | _ =>
      rw [haction] at hacts
      exact absurd hacts (by simp [SlotAction.acts])
  · obtain ⟨t, hok, hidle⟩ := idle_perform rules commits entry.tokenId
      (Bool.eq_false_iff.mpr hacts) s
    rw [hok] at hexec
    obtain rfl := congrArg Prod.snd hexec
    exact hidle.continues hs

/-! ### Slots that leave nobody -/

/-- The fight is not over, and nobody stands on the player side. -/
structure GameSnapshot.Lost (s : GameSnapshot) : Prop where
  unresolved : s.encounter.resolved = false
  nobody : ¬ s.SideStands .player

theorem GameSnapshot.Lost.not_continues (h : s.Lost) : ¬ s.Continues := by
  rintro (hover | ⟨hplayers, -⟩)
  · rw [h.unresolved] at hover
    exact absurd hover (by simp)
  · exact h.nobody hplayers

/-- **Nobody acts any more** once nobody stands on the player side: the players are down or
    withdrawn, and the opponents find no target. -/
theorem acts_eq_false_of_lost (commits : String → Option WnSealedCommit) (token : String)
    (h : s.Lost) : (s.slotAction commits token).acts = false := by
  unfold GameSnapshot.slotAction
  cases hseat : s.encounter.findActor token with
  | none => rfl
  | some actor =>
    dsimp only
    split_ifs with hdown hwithdrawn
    · rfl
    · rfl
    · have hmem : actor ∈ s.encounter.actors := List.mem_of_find?_eq_some hseat
      have hname : actor.name = token := by simpa using List.find?_some hseat
      unfold GameSnapshot.standingAction
      cases hside : actor.side with
      | player =>
        refine absurd ⟨actor, hmem, hside, Bool.eq_false_iff.mpr hwithdrawn, ?_⟩ h.nobody
        rw [hname]
        exact Bool.eq_false_iff.mpr hdown
      | opponent =>
        have hnone : s.firstLiveActor .player = none := by
          refine Option.map_eq_none_iff.mpr (List.find?_eq_none.mpr (fun other hother hlive => ?_))
          simp only [Bool.and_eq_true, decide_eq_true_eq, Bool.not_eq_true'] at hlive
          exact h.nobody ⟨other, hother, hlive.1.1, hlive.1.2, hlive.2⟩
        rw [if_neg (by simp [h.unresolved]), hnone]
        rfl
      | neutral => rfl

/-- **A lost fight stays lost**, slot after slot. -/
theorem lost_takeSlot (h : s.Lost) (hexec : (takeSlot rules commits entry).exec s = (.ok ⟨⟩, s')) :
    s'.Lost := by
  obtain ⟨t, hok, hidle⟩ := idle_perform rules commits entry.tokenId
    (acts_eq_false_of_lost commits entry.tokenId h) s
  rw [exec_takeSlot, hok] at hexec
  obtain rfl := congrArg Prod.snd hexec
  refine ⟨?_, fun hstands => h.nobody (hstands.of_same ?_ (fun name => ?_))⟩
  · rw [hidle.same]
    exact h.unresolved
  · rw [hidle.same]
  · rw [hidle.same]
    rfl

/-- No opponent bears the name of a PC. -/
def GameSnapshot.ProperNames (s : GameSnapshot) : Prop :=
  ∀ actor ∈ s.encounter.actors, actor.side = .opponent → actor.name ∉ s.cast.characters

instance (s : GameSnapshot) : Decidable s.ProperNames :=
  inferInstanceAs (Decidable (∀ actor ∈ s.encounter.actors, actor.side = .opponent →
    actor.name ∉ s.cast.characters))

theorem Played.properNames (h : Played s s') (hs : s.ProperNames) : s'.ProperNames := by
  intro actor hmem hside
  have hseat : (actor.name, actor.side) ∈ s.encounter.roster := by
    rw [← h.roster]
    exact List.mem_map.mpr ⟨actor, hmem, rfl⟩
  obtain ⟨actor', hmem', heq⟩ := List.mem_map.mp hseat
  obtain ⟨hname, hside'⟩ := Prod.mk.inj heq
  rw [h.cast, ← hname]
  exact hs actor' hmem' (hside'.trans hside)

/-- A name that is no PC's resolves to no PC. -/
theorem exists_npc_of_findCreatureCore {cast : Cast} {name : String} {ref : CoreRef}
    (hname : name ∉ cast.characters) (h : cast.findCreatureCore name = some ref) :
    ∃ i, ref = .npc i := by
  have hnone : cast.characters.findIdx? (fun character => character = name) = none := by
    rw [List.findIdx?_eq_none_iff]
    intro character hcharacter
    exact decide_eq_false (fun heq => hname (heq ▸ hcharacter))
  unfold Cast.findCreatureCore at h
  rw [hnone, Option.map_none, Option.none_or, Option.or_eq_some_iff] at h
  rcases h with hexact | ⟨-, hroster⟩
  · obtain ⟨i, -, rfl⟩ := Option.map_eq_some_iff.mp hexact
    exact ⟨i, rfl⟩
  · unfold Cast.resolveRosterNpc at hroster
    dsimp only at hroster
    split_ifs at hroster
    obtain ⟨i, -, rfl⟩ := Option.map_eq_some_iff.mp hroster
    exact ⟨i, rfl⟩

/-- A drink is drunk by a PC. -/
theorem exists_character_of_resolveItemUse {beatId : String} {target : CoreRef} {index : Nat}
    (h : s.resolveItemUse token beatId = .ok (target, index)) : ∃ i, target = .character i := by
  unfold GameSnapshot.resolveItemUse at h
  split at h
  · exact absurd h (by simp [throw, throwThe, MonadExceptOf.throw])
  · split at h
    · exact absurd h (by simp [throw, throwThe, MonadExceptOf.throw])
    · cases h
      exact ⟨_, rfl⟩

/-- A PC's drink is none of the opponents'. -/
theorem standsBeside_opponent_of_properNames {beatId : String} {target : CoreRef} {index : Nat}
    (hs : s.ProperNames) (hstands : s.SideStands .opponent)
    (hfound : s.resolveItemUse token beatId = .ok (target, index)) :
    s.StandsBeside .opponent target := by
  obtain ⟨actor, hmem, hside, hin, hup⟩ := hstands
  refine ⟨actor, hmem, hside, hin, hup, fun hcore => ?_⟩
  obtain ⟨i, rfl⟩ := exists_character_of_resolveItemUse hfound
  obtain ⟨j, hnpc⟩ := exists_npc_of_findCreatureCore (hs actor hmem hside) hcore
  exact absurd hnpc (by simp)

/-- The withdrawal of the last player who stands. -/
theorem lost_of_nonoffensive (hseat : s.encounter.findActor token = some actor)
    (hkeeps : ¬ (SlotAction.nonoffensive commit).KeepsSides rules s token)
    (hexec : (resolveNonoffensive rules token commit).exec s = (.ok u, s')) : s'.Lost := by
  unfold SlotAction.KeepsSides at hkeeps
  push Not at hkeeps
  obtain ⟨hflee, t, hattacks, hopen, hothers⟩ := hkeeps
  obtain ⟨t', hattacks', rfl⟩ := exists_of_exec_resolveNonoffensive hexec
  obtain rfl : t = t' := congrArg Prod.snd (hattacks.symm.trans hattacks')
  have hwithin : Within (fun _ => True) s t :=
    (within_opportunityAttacks (fun _ _ => trivial) (fun _ _ => trivial) (fun _ _ _ _ _ => trivial)
      (fun _ _ => trivial) rules token commit).of_exec hattacks
  have hseat' : t.encounter.findActor token = some actor := by
    unfold StructuredEncounter.findActor
    rw [hwithin.board.actors]
    exact hseat
  have hafter : (t.withdrawActor token).Lost :=
    ⟨Bool.eq_false_iff.mpr hopen, fun hstands =>
      hothers ((sideStands_withdrawActor_iff hseat').mp hstands)⟩
  unfold GameSnapshot.afterNonoffensive
  rw [if_pos hflee]
  exact ⟨hafter.unresolved, hafter.nobody⟩

/-- A drink that fells the last player who stands. -/
theorem lost_of_drink (hnames : s.ProperNames) (hopen : s.encounter.resolved = false)
    (hs : s.Continues) (hkeeps : ¬ (SlotAction.useItem commit).KeepsSides rules s token)
    (hexec : (resolveCommittedItem token commit).exec s = (.ok u, s')) : s'.Lost := by
  unfold SlotAction.KeepsSides at hkeeps
  push Not at hkeeps
  obtain ⟨target, index, spec, rolled, t, hfound, hheal, hroll, hfells, hbeside⟩ := hkeeps
  obtain ⟨target', index', hfound', hfelt⟩ := exists_drinkFelt hexec
  cases Except.ok.inj (hfound.symm.trans hfound')
  have hdown : (s'.cores target).down = true := by
    rcases hfelt.drinker with ⟨hnone, -⟩ | ⟨spec', rolled', t', hheal', hroll', hhp⟩
    · exact absurd hheal (hnone spec)
    · cases hheal.symm.trans hheal'
      cases congrArg Prod.fst (hroll.symm.trans hroll')
      rw [← hhp] at hfells
      exact decide_eq_true hfells
  refine ⟨hfelt.resolved.trans hopen, fun hstands => ?_⟩
  -- the opponents stand beside the drinker, so that the players do not
  have hopponents := standsBeside_opponent_of_properNames hnames
    (hs.resolve_left (by simp [hopen])).2 hfound
  exact hbeside (hfelt.standsBeside_of_down hdown hstands) hopponents

/-- **A slot that does not keep the sides** leaves nobody on the player side. -/
theorem lost_of_not_keepsSides (hnames : s.ProperNames) (hs : s.Continues)
    (hkeeps : ¬ (s.slotAction commits entry.tokenId).KeepsSides rules s entry.tokenId)
    (hexec : (takeSlot rules commits entry).exec s = (.ok ⟨⟩, s')) : s'.Lost := by
  rw [exec_takeSlot] at hexec
  cases haction : s.slotAction commits entry.tokenId with
  | nonoffensive commit =>
    have hcommit : (s.slotAction commits entry.tokenId).commit? = some commit := by
      rw [haction]
      rfl
    obtain ⟨actor, hseat, -⟩ := exists_of_commit? hcommit
    rw [haction] at hexec hkeeps
    exact lost_of_nonoffensive hseat hkeeps hexec
  | useItem commit =>
    have hopen : s.encounter.resolved = false := open_of_acts (by rw [haction]; rfl)
    rw [haction] at hexec hkeeps
    exact lost_of_drink hnames hopen hs hkeeps hexec
  | _ =>
    rw [haction] at hkeeps
    exact absurd trivial hkeeps

/-! ### Rounds -/

/-- Every one of the slots keeps the sides. -/
def AllKeepSides (rules : Rules) (commits : String → Option WnSealedCommit)
    (slots : List (InitiativeEntry × GameSnapshot)) : Prop :=
  ∀ slot ∈ slots, (slot.2.slotAction commits slot.1.tokenId).KeepsSides rules slot.2 slot.1.tokenId

theorem allKeepSides_concat {slots : List (InitiativeEntry × GameSnapshot)} :
    AllKeepSides rules commits (slots ++ [(entry, s)]) ↔ AllKeepSides rules commits slots ∧
      (s.slotAction commits entry.tokenId).KeepsSides rules s entry.tokenId := by
  simp [AllKeepSides, or_imp, forall_and]

/-- What the slots of a round come to: a fight that can go on if they all keep the sides, and else
    one that is lost. -/
theorem walk_keeps_or_loses {entries : List InitiativeEntry} (hs : s.Continues)
    (hexec : (walk rules commits entries).exec s = (.ok u, s')) :
    (AllKeepSides rules commits (visits (takeSlot rules commits) entries s) → s'.Continues) ∧
      (s.ProperNames →
        ¬ AllKeepSides rules commits (visits (takeSlot rules commits) entries s) → s'.Lost) := by
  have hbegins : Played s s ∧ (AllKeepSides rules commits [] → s.Continues) ∧
      (s.ProperNames → ¬ AllKeepSides rules commits [] → s.Lost) :=
    ⟨.refl s, fun _ => hs, fun _ hall => absurd (by simp [AllKeepSides]) hall⟩
  have hwalked := forM_visits_of_ok
    (I := fun done t => Played s t ∧ (AllKeepSides rules commits done → t.Continues) ∧
      (s.ProperNames → ¬ AllKeepSides rules commits done → t.Lost))
    (fun done entry t t' hdone hslot => by
      obtain ⟨hplayed, hcontinues, hlost⟩ := hdone
      refine ⟨hplayed.trans ((played_takeSlot rules commits entry).of_exec hslot), fun hall => ?_,
        fun hnames hall => ?_⟩
      · obtain ⟨hbefore, hkeeps⟩ := allKeepSides_concat.mp hall
        exact continues_of_takeSlot (hcontinues hbefore) hkeeps hslot
      · by_cases hbefore : AllKeepSides rules commits done
        · -- this slot is the first that does not keep the sides
          have hkeeps := fun hkeeps => hall (allKeepSides_concat.mpr ⟨hbefore, hkeeps⟩)
          exact lost_of_not_keepsSides (hplayed.properNames hnames) (hcontinues hbefore) hkeeps hslot
        · exact lost_takeSlot (hlost hnames hbefore) hslot)
    hexec hbegins
  exact ⟨hwalked.2.1, hwalked.2.2⟩

/-- **The fight after a round.** A round that returns leaves a fight that can go on if every slot
    keeps the sides; and only then, if no opponent has the name of a PC. -/
theorem continues_iff (rules : Rules) {s s' : GameSnapshot} {order : List String}
    (hexec : (runWnRound rules).exec s = (.ok order, s')) (hs : s.Continues) :
    (AllKeepSides rules s.commitOf (s.slots rules) → s'.Continues) ∧
      (s.ProperNames → (s'.Continues ↔ AllKeepSides rules s.commitOf (s.slots rules))) := by
  obtain ⟨t, hwalk, rfl⟩ := walk_of_exec_runWnRound rules hexec
  have hbegins : s.announceRound.Continues := hs
  obtain ⟨hkept, hlost⟩ := walk_keeps_or_loses hbegins hwalk
  refine ⟨hkept, fun hnames => ⟨fun hcontinues => ?_, hkept⟩⟩
  by_contra hnone
  exact (hlost hnames hnone).not_continues hcontinues

/-- The skirmish with its second PC down, and the first one withdrawing. -/
def lastWithdrawal : GameSnapshot :=
  { skirmish with
    cores := fun ref => if ref = .character 1 then { hp := ⟨0, 2⟩ } else { hp := ⟨2, 2⟩ }
    encounter := { skirmish.encounter with
      wnCommits := [⟨"Rux", "fighting_withdrawal", .success, some "Ghoul", none, none⟩] } }

/-- Two attacks keep the sides. -/
theorem keepSides_of_skirmish :
    AllKeepSides duelRules skirmish.commitOf (skirmish.slots duelRules) :=
  have hexec : (runWnRound duelRules).exec skirmish = (.ok ["Rux", "Vex", "Ghoul", "Wight"], _) :=
    rfl
  ((continues_iff duelRules hexec (by decide)).2 (by decide)).mp (by decide)

/-- The last PC who stands withdraws: the fight is not over, and nobody is left in it. -/
theorem not_continues_of_lastWithdrawal :
    ¬ ∀ (rules : Rules) (s s' : GameSnapshot) (order : List String), s.Continues →
      (runWnRound rules).exec s = (.ok order, s') → s'.Continues := by
  intro h
  have hcontinues := h duelRules lastWithdrawal _ ["Rux", "Vex", "Ghoul", "Wight"] (by decide) rfl
  exact absurd hcontinues (by decide)

end Sidequest.Combat
