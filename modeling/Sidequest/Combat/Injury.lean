import Sidequest.Combat.Standing
import Sidequest.Lib.Run

namespace Sidequest.Combat

open Lib Effect
open Fate (ActorSide Cast CoreRef EncounterActor)

/-!
# Mortal Injuries

The downed seam is not told who was struck. It derives the primary actor of the struck side anew,
and asks no more than whether that one is at 0 HP.

* `DeclaresFelled` — a Mortal Injury is declared for who was felled, once, and for nobody else;
* `declaresFelled_iff` — over every sequence of beats and reprisals.
-/

/-! ### Declarations -/

/-- The event declares a Mortal Injury of the creature. -/
def Event.declares (ref : CoreRef) : Event → Bool
  | .mortalInjuryDeclared target _ => target = ref
  | _ => false

/-- How many Mortal Injuries of the creature were declared. -/
def GameSnapshot.declared (s : GameSnapshot) (ref : CoreRef) : Nat :=
  s.events.countP (Event.declares ref)

/-- The creature was above 0 HP, and is no more. -/
def felled (s s' : GameSnapshot) (ref : CoreRef) : Bool :=
  !(s.cores ref).down && (s'.cores ref).down

/-- Between the two snapshots a Mortal Injury was declared for each creature that was felled, once,
    and for no other. -/
def DeclaresFelled (s s' : GameSnapshot) : Prop :=
  ∀ ref, s'.declared ref = s.declared ref + (felled s s' ref).toNat

/-- The event declares no Mortal Injury. -/
def Event.Undeclared (event : Event) : Prop := ∀ ref, event.declares ref = false

/-- The event declares no Mortal Injury, and says of nobody's hit points that they changed but of the
    target's. -/
structure Event.StrikesOnly (target : Option CoreRef) (event : Event) : Prop where
  undeclared : event.Undeclared
  status : ∀ ref text, event ≠ .statusAdded ref text
  patch : ∀ ref delta current maximum source, event = .hpPatched ref delta current maximum source →
    target = some ref

theorem Event.strikesOnly_of_clerical {target : Option CoreRef} {event : Event}
    (h : event.clerical = true) : event.StrikesOnly target := by
  refine ⟨fun ref => ?_, ?_, ?_⟩
  · cases event <;> first | rfl | simp [Event.clerical] at h
  · rintro ref text rfl
    simp [Event.clerical] at h
  · rintro ref delta current maximum source rfl
    simp [Event.clerical] at h

theorem Event.undeclared_of_clerical {event : Event} (h : event.clerical = true) :
    event.Undeclared :=
  (show event.StrikesOnly none from Event.strikesOnly_of_clerical h).undeclared

variable {ref : CoreRef}

theorem strikesOnly_hpPatched {target : Option CoreRef} (h : target = some ref)
    (delta current maximum : Int) (source : String) :
    (Event.hpPatched ref delta current maximum source).StrikesOnly target := by
  refine ⟨fun _ => rfl, by simp, fun other _ _ _ _ heq => ?_⟩
  rw [h, (Event.hpPatched.inj heq).1]

variable {s t u s' : GameSnapshot} {target : Option CoreRef}

theorem Within.declared (h : Within Event.Undeclared s s') (ref : CoreRef) :
    s'.declared ref = s.declared ref := by
  obtain ⟨new, hnew, hnone⟩ := h.events
  have hzero : new.countP (Event.declares ref) = 0 :=
    List.countP_eq_zero.mpr (fun event hevent => by simp [hnone event hevent ref])
  unfold GameSnapshot.declared
  rw [hnew, List.countP_append, hzero, Nat.add_zero]

theorem Within.undeclared (h : Within (Event.StrikesOnly target) s s') :
    Within Event.Undeclared s s' := h.mono (fun _ hevent => hevent.undeclared)

/-- Who is not the target is up or down as before. -/
theorem Within.down_of_ne (h : Within (Event.StrikesOnly target) s s') (hne : target ≠ some ref) :
    (s'.cores ref).down = (s.cores ref).down := by
  have hhp : (s'.cores ref).hp = (s.cores ref).hp := by
    rcases h.hp ref with hsame | ⟨delta, current, maximum, source, hK⟩ | ⟨text, hK⟩
    · exact hsame
    · exact absurd (hK.patch ref delta current maximum source rfl) hne
    · exact absurd rfl (hK.status ref text)
  unfold CreatureCore.down
  rw [hhp]

/-- A strike brings nobody back. -/
theorem Within.down_of_down (h : Within (Event.StrikesOnly target) s s')
    (hdown : (s.cores ref).down = true) : (s'.cores ref).down = true := by
  rcases h.sinks ref hdown with hdown' | ⟨text, hK⟩
  · exact hdown'
  · exact absurd rfl (hK.status ref text)

/-! ### The seam -/

/-- The seam of a side can declare: the module has Mortal Injuries, and the creature that the seam
    derives, if there is one, has a Physical save. -/
def GameSnapshot.declaring (s : GameSnapshot) (rules : Rules) (actorSide : ActorSide) : Bool :=
  rules.lethal && (((s.encounter.oppositeSideFirstActor actorSide).bind (fun name =>
    (s.cast.findCreatureCore name).map (s.physicalSaveTargetFor rules name))).all Except.isOk)

/-- The creature is the one that the seam derives and declares, at 0 HP. -/
def GameSnapshot.seamDeclares (s : GameSnapshot) (rules : Rules) (actorSide : ActorSide)
    (ref : CoreRef) : Bool :=
  s.declaring rules actorSide && s.primaryTarget actorSide = some ref && (s.cores ref).down

variable {actorSide : ActorSide}

/-- Play within the sheets takes nobody's save. -/
theorem Within.declaring {K : Event → Prop} (h : Within K s s') (rules : Rules)
    (actorSide : ActorSide) : s'.declaring rules actorSide = s.declaring rules actorSide := by
  have hsave : ∀ name ref, s'.physicalSaveTargetFor rules name ref =
      s.physicalSaveTargetFor rules name ref := by
    intro name ref
    unfold GameSnapshot.physicalSaveTargetFor
    simp only [h.cast, (h.sheets ref).stats, (h.sheets ref).level]
  unfold GameSnapshot.declaring
  rw [h.oppositeSideFirstActor, h.cast]
  simp only [funext (fun name => funext (hsave name))]

theorem seamDeclares_of_none {rules : Rules} (h : s.seamVictim rules actorSide = none)
    (ref : CoreRef) : s.seamDeclares rules actorSide ref = false := by
  by_contra hdeclares
  simp only [GameSnapshot.seamDeclares, GameSnapshot.declaring, Bool.not_eq_false, Bool.and_eq_true,
    decide_eq_true_eq] at hdeclares
  obtain ⟨⟨⟨hlethal, -⟩, htarget⟩, hdown⟩ := hdeclares
  obtain ⟨name, hname, hcore⟩ := Option.bind_eq_some_iff.mp htarget
  unfold GameSnapshot.seamVictim at h
  rw [if_pos hlethal, hname, Option.bind_some, hcore, Option.bind_some, if_pos hdown] at h
  simp at h

theorem seamDeclares_of_some {rules : Rules} {name : String} {victim : CoreRef}
    (h : s.seamVictim rules actorSide = some (name, victim)) (ref : CoreRef) :
    s.seamDeclares rules actorSide ref =
      ((s.physicalSaveTargetFor rules name victim).isOk && decide (victim = ref)) := by
  unfold GameSnapshot.seamVictim at h
  split_ifs at h with hlethal
  obtain ⟨name', hname, hbind⟩ := Option.bind_eq_some_iff.mp h
  obtain ⟨ref', hcore, hdown⟩ := Option.bind_eq_some_iff.mp hbind
  split_ifs at hdown with hisDown
  obtain ⟨rfl, rfl⟩ := Prod.mk.inj (Option.some.inj hdown)
  have htarget : s.primaryTarget actorSide = some ref' := by
    unfold GameSnapshot.primaryTarget
    rw [hname, Option.bind_some, hcore]
  unfold GameSnapshot.seamDeclares GameSnapshot.declaring
  rw [hlethal, htarget, hname, Option.bind_some, hcore]
  by_cases href : ref' = ref
  · subst href
    simp [hisDown]
  · simp [href]

theorem declared_publish_mortalInjuryDeclared (s : GameSnapshot) (victim : CoreRef)
    (superseded : Bool) (ref : CoreRef) :
    (s.publish (.mortalInjuryDeclared victim superseded)).declared ref =
      s.declared ref + (decide (victim = ref)).toNat := by
  unfold GameSnapshot.declared GameSnapshot.publish
  by_cases href : victim = ref
  · simp [Event.declares, href]
  · simp [Event.declares, href]

variable {x : PUnit}

/-- **What the seam declares**: one Mortal Injury, of the creature it derives, if that is at 0 HP,
    whoever was struck. A seam that raises declares none. -/
theorem declared_runCwnWwnDownedSeam {rules : Rules} {x : Except DispatchError PUnit}
    (hexec : (runCwnWwnDownedSeam rules actorSide).exec s = (x, s')) (ref : CoreRef) :
    s'.declared ref = s.declared ref + (s.seamDeclares rules actorSide ref).toNat := by
  unfold runCwnWwnDownedSeam at hexec
  rw [exec_get_bind] at hexec
  cases hvictim : s.seamVictim rules actorSide with
  | none =>
    rw [hvictim] at hexec
    obtain rfl : s = s' := congrArg Prod.snd hexec
    simp [seamDeclares_of_none hvictim]
  | some found =>
    obtain ⟨name, victim⟩ := found
    rw [hvictim] at hexec
    rw [seamDeclares_of_some hvictim]
    dsimp only at hexec
    cases hsave : s.physicalSaveTargetFor rules name victim with
    | error e =>
      rw [hsave] at hexec
      obtain rfl : s = s' := congrArg Prod.snd hexec
      simp [Except.isOk, Except.toBool]
    | ok saveTarget =>
      rw [hsave, exec_ofExcept_ok_bind] at hexec
      unfold resolveDowned at hexec
      rw [bind_assoc, exec_modify_bind] at hexec
      -- after the declaration only the Major Injury and the dying window are left
      have hmajor := within_rollMajorInjury (K := Event.Undeclared)
        (fun _ => Event.undeclared_of_clerical) rules s.encounter.encounterType victim saveTarget
      have hrest := (hmajor.onlyIf.bind (fun _ => (preserves_modify (fun s => within_publish s
        (Event.undeclared_of_clerical rfl))).onlyIf)).of_exec hexec
      rw [hrest.declared, declared_publish_mortalInjuryDeclared]
      split_ifs
      · rfl
      · rfl

/-- The seam fells nobody. -/
theorem down_runCwnWwnDownedSeam {rules : Rules} {x : Except _ PUnit}
    (hexec : (runCwnWwnDownedSeam rules actorSide).exec s = (x, s')) (ref : CoreRef) :
    (s'.cores ref).down = (s.cores ref).down := by
  have hwithin : Within Event.Bloodless s s' :=
    (within_runCwnWwnDownedSeam (fun _ => Event.bloodless_of_clerical) rules actorSide
      bloodless_mortalInjuryDeclared).of_exec hexec
  have hhp : (s'.cores ref).hp = (s.cores ref).hp :=
    (hwithin.hp ref).resolve_right (not_patched_of_bloodless ref)
  unfold CreatureCore.down
  rw [hhp]

/-- Who was felled is felled by the blow. -/
theorem felled_of_seam {rules : Rules} {x : Except _ PUnit}
    (hseam : (runCwnWwnDownedSeam rules actorSide).exec t = (x, u))
    (hclose : Within (Event.StrikesOnly none) u s') (ref : CoreRef) :
    felled s s' ref = felled s t ref := by
  unfold felled
  rw [hclose.down_of_ne (by simp), down_runCwnWwnDownedSeam hseam]

theorem toNat_eq_toNat_iff : ∀ a b : Bool, a.toNat = b.toNat ↔ a = b := by decide

/-- **A blow and its seam.** What is declared between the blow and its close is what the seam
    declares of the snapshot that the blow left. -/
theorem declaresFelled_iff_of_seam {rules : Rules} {x : Except DispatchError PUnit} (hblow : Within Event.Undeclared s t)
    (hseam : (runCwnWwnDownedSeam rules actorSide).exec t = (x, u))
    (hclose : Within (Event.StrikesOnly none) u s') :
    DeclaresFelled s s' ↔ ∀ ref, t.seamDeclares rules actorSide ref = felled s t ref := by
  refine forall_congr' (fun ref => ?_)
  rw [hclose.undeclared.declared, declared_runCwnWwnDownedSeam hseam, hblow.declared,
    felled_of_seam hseam hclose]
  rw [Nat.add_left_cancel_iff]
  exact toNat_eq_toNat_iff _ _

/-- Where the seam cannot declare, nothing is declared. -/
theorem declaresFelled_iff_of_not_declaring {rules : Rules} {x : Except DispatchError PUnit}
    (hnone : s.declaring rules actorSide = false) (hblow : Within Event.Undeclared s t)
    (hseam : (runCwnWwnDownedSeam rules actorSide).exec t = (x, u))
    (hclose : Within (Event.StrikesOnly none) u s') :
    DeclaresFelled s s' ↔ ∀ ref, felled s s' ref = false := by
  rw [declaresFelled_iff_of_seam hblow hseam hclose]
  refine forall_congr' (fun ref => ?_)
  rw [felled_of_seam hseam hclose]
  have hsilent : t.seamDeclares rules actorSide ref = false := by
    simp [GameSnapshot.seamDeclares, hblow.declaring, hnone]
  rw [hsilent]
  exact eq_comm

/-! ### Beats -/

/-- The snapshot in which a beat's damage is rolled. -/
def GameSnapshot.atBeat (s : GameSnapshot) (actor : EncounterActor) : GameSnapshot :=
  s.modifyEncounter (·.dropStaleNegatedSaveHints actor.name)

/-- **A beat** whose damage is rolled comes to the seam, whether that raises or not; one that raises
    at its dice strikes nobody. -/
theorem exists_seam_of_carryOutBeat {rules : Rules} {name : String} {actor : EncounterActor}
    {commitment : Commitment} {x : Except DispatchError (Int × Int × Option (String × String))}
    (hcast : rules.isWwnCast commitment.beat.id = false)
    (hexec : (carryOutBeat rules name actor commitment).exec s = (x, s')) :
    (∃ e t, (beatDamage rules name actor commitment).exec (s.atBeat actor) = (.error e, t) ∧
      Within (Event.StrikesOnly none) s s') ∨
    (∃ rolled t, (beatDamage rules name actor commitment).exec (s.atBeat actor) = (.ok rolled, t)) ∧
      ∃ y t u, Within (Event.StrikesOnly (s.primaryTarget actor.side)) s t ∧
      (runCwnWwnDownedSeam rules actor.side).exec t = (y, u) ∧
      Within (Event.StrikesOnly none) u s' := by
  unfold carryOutBeat at hexec
  rw [exec_modify_bind] at hexec
  change (beatDamage rules name actor commitment >>= _).exec (s.atBeat actor) = _ at hexec
  -- dropping a stale hint strikes nobody
  have hdropped : ∀ target, Within (Event.StrikesOnly target) s (s.atBeat actor) := fun _ =>
    within_modifyEncounter s (sameBoard_dropStaleNegatedSaveHints s.encounter actor.name)
  rw [exec_bind] at hexec
  rcases hdamage : (beatDamage rules name actor commitment).exec (s.atBeat actor) with ⟨e | rolled, t⟩
  · rw [hdamage] at hexec
    obtain rfl : t = s' := congrArg Prod.snd hexec
    refine .inl ⟨e, t, rfl, (hdropped none).trans ?_⟩
    unfold beatDamage at hdamage
    split_ifs at hdamage
    · -- a chip is no dice
      cases congrArg Prod.fst hdamage
    · exact ((within_strikeDamage rules name commitment.beat).bind
        (fun _ => preserves_pure _)).of_exec hdamage
    · cases congrArg Prod.fst hdamage
  · rw [hdamage] at hexec
    obtain ⟨damage, shockHpRemoved⟩ := rolled
    have hchipped : Within (Event.StrikesOnly (s.primaryTarget actor.side)) s t := by
      have hwithin := within_beatDamage (K := Event.StrikesOnly (s.primaryTarget actor.side)) rules
        name actor commitment (s.atBeat actor) (fun ref href => strikesOnly_hpPatched
          (((hdropped none).primaryTarget actor.side).symm.trans href))
      rw [hdamage] at hwithin
      exact (hdropped _).trans hwithin
    dsimp only at hexec
    rw [exec_get_bind, exec_set_bind] at hexec
    have hstruck := within_resolveWnCommittedAction (fun _ => Event.strikesOnly_of_clerical) t actor
      commitment.beat commitment.outcome damage (fun ref href => strikesOnly_hpPatched
        ((hchipped.primaryTarget actor.side).symm.trans href))
    rcases hseam : (runCwnWwnDownedSeam rules actor.side).exec
      (t.resolveWnCommittedAction actor commitment.beat commitment.outcome damage).2 with ⟨y, u⟩
    refine .inr ⟨⟨_, t, rfl⟩, y, _, u, hchipped.trans hstruck, hseam, ?_⟩
    rw [exec_bind, hseam] at hexec
    cases y with
    | error e =>
      obtain rfl : u = s' := congrArg Prod.snd hexec
      exact .refl u
    | ok _ =>
      -- behind the seam there is no cast, and a mutation strikes nobody
      rw [hcast] at hexec
      refine ((preserves_pure _).bind (fun _ => Preserves.bind ?_
        (fun _ => preserves_pure _))).of_exec hexec
      exact (within_resolveMutationForBeat (fun _ => Event.strikesOnly_of_clerical) rules actor
        commitment.mutationId).ite (preserves_pure _)

/-- The primary target, if there is one, is above 0 HP. -/
def GameSnapshot.TargetUp (s : GameSnapshot) (side : ActorSide) : Prop :=
  ∀ ref, s.primaryTarget side = some ref → (s.cores ref).down = false

/-- **The declarations of a strike.** Where the seam can declare, a strike declares who it felled
    exactly if the target was up. -/
theorem declaresFelled_strike_iff {rules : Rules} {x : Except DispatchError PUnit}
    (hdeclaring : s.declaring rules actorSide = true)
    (hblow : Within (Event.StrikesOnly (s.primaryTarget actorSide)) s t)
    (hseam : (runCwnWwnDownedSeam rules actorSide).exec t = (x, u))
    (hclose : Within (Event.StrikesOnly none) u s') :
    DeclaresFelled s s' ↔ s.TargetUp actorSide := by
  rw [declaresFelled_iff_of_seam hblow.undeclared hseam hclose]
  have hdeclares : ∀ ref, t.seamDeclares rules actorSide ref =
      (decide (s.primaryTarget actorSide = some ref) && (t.cores ref).down) := by
    intro ref
    unfold GameSnapshot.seamDeclares
    rw [hblow.declaring, hdeclaring, hblow.primaryTarget, Bool.true_and]
  refine forall_congr' (fun ref => ?_)
  rw [hdeclares]
  by_cases htarget : s.primaryTarget actorSide = some ref
  · cases hdown : (s.cores ref).down with
    | true =>
      -- nobody gets up by a strike
      have hdown' := hblow.down_of_down hdown
      simp [felled, htarget, hdown, hdown']
    | false => simp [felled, htarget, hdown]
  · have hsame := hblow.down_of_ne htarget
    simp [felled, htarget, hsame]

/-! ### Reprisals -/

/-- The snapshot in which the seam finds who was struck: after the damage, the win check and the
    genre's verdict. -/
def GameSnapshot.afterBlow (s : GameSnapshot) (rules : Rules) (target : CoreRef) (damage : Int)
    (label : String) : GameSnapshot :=
  (s.applyBeatHpChannel target damage 0 label).2.checkHpDepletion.2.applyPostResolutionLethality rules

/-- The genre's verdict fells nobody. -/
theorem down_of_applyVerdict {rules : Rules} {verdict : String} {i : Nat}
    (h : ((s.applyVerdict rules verdict i).cores ref).down = true) : (s.cores ref).down = true := by
  unfold GameSnapshot.applyVerdict at h
  by_cases href : ref = .character i
  · subst href
    split_ifs at h
    · simpa [GameSnapshot.addStatus, GameSnapshot.publish, GameSnapshot.modifyCore,
        CreatureCore.down] using h
    · -- a PC that is brought back is at 1 HP
      simp [GameSnapshot.addStatus, GameSnapshot.publish, GameSnapshot.modifyCore,
        CreatureCore.down] at h
    · exact h
  · split_ifs at h
    · simpa [GameSnapshot.addStatus, GameSnapshot.publish, GameSnapshot.modifyCore, href] using h
    · simpa [GameSnapshot.addStatus, GameSnapshot.publish, GameSnapshot.modifyCore, href] using h
    · exact h

theorem down_of_applyVerdicts {rules : Rules} {verdict : String} (pcs : List Nat) {s : GameSnapshot}
    (h : ((pcs.foldl (fun s i => s.applyVerdict rules verdict i) s).cores ref).down = true) :
    (s.cores ref).down = true := by
  induction pcs generalizing s with
  | nil => exact h
  | cons i pcs ih => exact down_of_applyVerdict (ih h)

theorem down_of_applyPostResolutionLethality {rules : Rules}
    (h : ((s.applyPostResolutionLethality rules).cores ref).down = true) :
    (s.cores ref).down = true := by
  unfold GameSnapshot.applyPostResolutionLethality at h
  split_ifs at h
  · cases hverdict : rules.verdictOnZeroHp with
    | none =>
      rw [hverdict] at h
      exact h
    | some verdict =>
      rw [hverdict] at h
      dsimp only at h
      unfold GameSnapshot.flagPlayerDead at h
      -- the flag is no creature's
      split_ifs at h
      · exact down_of_applyVerdicts _ h
      · exact down_of_applyVerdicts _ h
  · exact h

/-- **A blow fells nobody but whom it strikes.** -/
theorem eq_of_felled_afterBlow {rules : Rules} {struck : CoreRef} {damage : Int} {label : String}
    (h : felled s (s.afterBlow rules struck damage label) ref = true) : ref = struck := by
  unfold felled at h
  rw [Bool.and_eq_true, Bool.not_eq_true'] at h
  have hdown := down_of_applyPostResolutionLethality h.2
  have hwithin : Within (Event.StrikesOnly (some struck)) s
      (s.applyBeatHpChannel struck damage 0 label).2.checkHpDepletion.2 :=
    (within_applyBeatHpChannel (strikesOnly_hpPatched rfl) s damage 0 label).trans
      (within_checkHpDepletion (fun _ => Event.strikesOnly_of_clerical) _)
  by_contra hne
  rw [hwithin.down_of_ne (fun heq => hne (Option.some.inj heq).symm), h.1] at hdown
  simp at hdown

/-- What leads to the seam of an attack declares nothing. -/
theorem undeclared_afterBlow (s : GameSnapshot) (rules : Rules) (struck : CoreRef) (damage : Int)
    (label : String) : Within Event.Undeclared s (s.afterBlow rules struck damage label) := by
  have hstruck : Within Event.Undeclared s (s.applyBeatHpChannel struck damage 0 label).2 :=
    within_applyBeatHpChannel (fun _ _ _ _ _ => rfl) s damage 0 label
  have hchecked := hstruck.trans
    (within_checkHpDepletion (fun _ => Event.undeclared_of_clerical) _)
  exact hchecked.trans (within_applyPostResolutionLethality (fun _ => Event.undeclared_of_clerical)
    (fun _ _ _ => rfl) _ rules)

/-- The blow strikes the creature that leads the players, while that is up; or it fells nobody, and
    whoever leads the players is up after it. -/
def GameSnapshot.BlowAims (s : GameSnapshot) (rules : Rules) (struck : CoreRef) (damage : Int)
    (label : String) : Prop :=
  (s.primaryTarget .opponent = some struck ∧ (s.cores struck).down = false) ∨
    (felled s (s.afterBlow rules struck damage label) struck = false ∧
      (s.afterBlow rules struck damage label).TargetUp .opponent)

/-- **The declarations of a blow** on a PC: those of who was felled exactly if the blow aims. -/
theorem declaresFelled_blow_iff {rules : Rules} (hdeclaring : s.declaring rules .opponent = true)
    {struck : CoreRef} {damage : Int} {label : String} {x : Except DispatchError PUnit}
    (hexec : (landBlow rules (some (struck, damage, label))).exec s = (x, s')) :
    DeclaresFelled s s' ↔ s.BlowAims rules struck damage label := by
  have hblow := undeclared_afterBlow s rules struck damage label
  have hseam : (runCwnWwnDownedSeam rules .opponent).exec (s.afterBlow rules struck damage label) =
    (x, s') := hexec
  rw [declaresFelled_iff_of_seam hblow hseam (.refl s')]
  have hdeclares : ∀ ref, (s.afterBlow rules struck damage label).seamDeclares rules .opponent ref =
      (decide (s.primaryTarget .opponent = some ref) &&
        ((s.afterBlow rules struck damage label).cores ref).down) := by
    intro ref
    unfold GameSnapshot.seamDeclares
    rw [hblow.declaring, hdeclaring, hblow.primaryTarget, Bool.true_and]
  have htargetUp : (s.afterBlow rules struck damage label).TargetUp .opponent ↔
      ∀ ref, s.primaryTarget .opponent = some ref →
        ((s.afterBlow rules struck damage label).cores ref).down = false := by
    unfold GameSnapshot.TargetUp
    rw [hblow.primaryTarget]
  unfold GameSnapshot.BlowAims
  rw [htargetUp]
  constructor
  · intro h
    by_cases hfelled : felled s (s.afterBlow rules struck damage label) struck = true
    · -- who was felled is whom the seam derives
      have hstruck := h struck
      rw [hdeclares, hfelled, Bool.and_eq_true, decide_eq_true_eq] at hstruck
      rw [felled, Bool.and_eq_true, Bool.not_eq_true'] at hfelled
      exact .inl ⟨hstruck.1, hfelled.1⟩
    · refine .inr ⟨Bool.eq_false_iff.mpr hfelled, fun ref hlead => ?_⟩
      -- whom the seam derives was not felled, and so is up
      by_contra hdown
      have hnamed := h ref
      rw [hdeclares, hlead, Bool.eq_true_of_not_eq_false hdown] at hnamed
      obtain rfl := eq_of_felled_afterBlow (hnamed.symm.trans (by simp))
      exact hfelled (hnamed.symm.trans (by simp))
  · rintro (⟨hlead, hup⟩ | ⟨hnobody, hleads⟩) ref
    · rw [hdeclares, hlead]
      by_cases href : struck = ref
      · subst href
        simp [felled, hup]
      · have hother : felled s (s.afterBlow rules struck damage label) ref = false :=
          Bool.eq_false_iff.mpr (fun hfelled => href (eq_of_felled_afterBlow hfelled).symm)
        simp [hother, href]
    · rw [hdeclares]
      have hnone : felled s (s.afterBlow rules struck damage label) ref = false := by
        by_contra hfelled
        have hfelled' := Bool.eq_true_of_not_eq_false hfelled
        obtain rfl := eq_of_felled_afterBlow hfelled'
        exact hfelled hnobody
      rw [hnone]
      by_cases hlead : s.primaryTarget .opponent = some ref
      · simp [hleads ref hlead]
      · simp [hlead]

/-! ### Sequences of blows -/

/-- What sheds blood in a fight, casts apart: a player's beat, or an opponent's attack. -/
inductive Blow where
  | beat (name : String) (actor : EncounterActor) (commitment : Commitment)
  | reprisal (playerName attacker : String) (defenderCommit : Option WnSealedCommit)
      (source : String)

namespace Blow

variable (rules : Rules)

/-- Carry out the blow. -/
def dispatch : Blow → CombatM PUnit
  | .beat name actor commitment => do
    let _ ← applyCommittedPlayerBeat rules name actor commitment
    pure ⟨⟩
  | .reprisal playerName attacker defenderCommit source =>
    resolveOpponentReprisal rules playerName attacker defenderCommit source

variable (s : GameSnapshot) (blow : Blow)

/-- The snapshot a blow leaves, whether it returns or raises. -/
def step : GameSnapshot := ((blow.dispatch rules).exec s).2

/-- The side that strikes. -/
def side : Blow → ActorSide
  | .beat _ actor _ => actor.side
  | .reprisal .. => .opponent

/-- The beat is a cast. -/
def casts : Blow → Bool
  | .beat _ _ commitment => rules.isWwnCast commitment.beat.id
  | .reprisal .. => false

/-- A beat whose damage is rolled finds its primary target up; the blow of an attack strikes whoever
    leads the players, or leaves the lead up. -/
def Aims : Blow → Prop
  | .beat name actor commitment => ∀ rolled t,
    (beatDamage rules name actor commitment).exec (s.atBeat actor) = (.ok rolled, t) →
      s.TargetUp actor.side
  | .reprisal playerName attacker defenderCommit source => ∀ struck damage label t,
    (reprisalRoll rules playerName attacker defenderCommit source).exec s =
      (.ok (some (struck, damage, label)), t) → t.BlowAims rules struck damage label

/-- The blow aims; where the seam cannot declare, it fells nobody. -/
def Sound : Prop :=
  (s.declaring rules blow.side = true → blow.Aims rules s) ∧
    (s.declaring rules blow.side = false → ∀ ref, felled s (blow.step rules s) ref = false)

end Blow

/-- What neither declares nor fells may come before. -/
theorem declaresFelled_congr_left (h : Within (Event.StrikesOnly none) s t) :
    DeclaresFelled s s' ↔ DeclaresFelled t s' := by
  refine forall_congr' (fun ref => ?_)
  have hfelled : felled s s' ref = felled t s' ref := by
    unfold felled
    rw [h.down_of_ne (by simp)]
  rw [h.undeclared.declared, hfelled]

theorem exists_seam_of_dispatch_beat {rules : Rules} {name : String} {actor : EncounterActor}
    {commitment : Commitment} (hcast : rules.isWwnCast commitment.beat.id = false) :
    (∃ e t, (beatDamage rules name actor commitment).exec (s.atBeat actor) = (.error e, t) ∧
      Within (Event.StrikesOnly none) s ((Blow.beat name actor commitment).step rules s)) ∨
    (∃ rolled t, (beatDamage rules name actor commitment).exec (s.atBeat actor) = (.ok rolled, t)) ∧
      ∃ y t u, Within (Event.StrikesOnly (s.primaryTarget actor.side)) s t ∧
      (runCwnWwnDownedSeam rules actor.side).exec t = (y, u) ∧
      Within (Event.StrikesOnly none) u ((Blow.beat name actor commitment).step rules s) := by
  rcases hcarry : (carryOutBeat rules name actor commitment).exec s with ⟨x, t⟩
  -- what comes after the effects is said, and strikes nobody
  have hsaid : Within (Event.StrikesOnly none) t ((Blow.beat name actor commitment).step rules s) := by
    have hrest : ∀ removed : Int × Int × Option (String × String), Preserves
        (Within (Event.StrikesOnly none)) (modify (·.publish (.beatApplied name commitment.beat.id
          (removed.1 + removed.2.1))) : CombatM PUnit) := fun removed =>
      preserves_modify (fun s => within_publish s ⟨fun _ => rfl, by simp, by simp⟩)
    show Within _ t ((applyCommittedPlayerBeat rules name actor commitment >>=
      fun _ => pure ⟨⟩ : CombatM PUnit).exec s).2
    unfold applyCommittedPlayerBeat
    rw [bind_assoc, exec_bind, hcarry]
    cases x with
    | error e => exact .refl t
    | ok removed =>
      exact ((hrest removed).bind (fun _ => preserves_get.bind (fun _ => preserves_pure _))).bind
        (fun _ => preserves_pure _) t
  rcases exists_seam_of_carryOutBeat hcast hcarry with ⟨e, u, hraised, hquiet⟩ |
      ⟨hrolled, y, t', u, hblow, hseam, hclose⟩
  · exact .inl ⟨e, u, hraised, hquiet.trans hsaid⟩
  · exact .inr ⟨hrolled, y, t', u, hblow, hseam, hclose.trans hsaid⟩

/-- An attack that fells nobody and declares nothing. -/
theorem declaresFelled_of_miss (h : Within (Event.StrikesOnly none) s s') :
    DeclaresFelled s s' ∧ ∀ ref, felled s s' ref = false := by
  have hnobody : ∀ ref, felled s s' ref = false := by
    intro ref
    unfold felled
    rw [h.down_of_ne (by simp)]
    simp
  refine ⟨fun ref => ?_, hnobody⟩
  rw [h.undeclared.declared, hnobody]
  rfl

theorem declaresFelled_beat_iff {rules : Rules} {name : String} {actor : EncounterActor}
    {commitment : Commitment} (hcast : rules.isWwnCast commitment.beat.id = false) :
    DeclaresFelled s ((Blow.beat name actor commitment).step rules s) ↔
      (Blow.beat name actor commitment).Sound rules s := by
  rcases exists_seam_of_dispatch_beat (s := s) hcast with ⟨e, t, hraised, hquiet⟩ |
      ⟨⟨rolled, t₀, hrolled⟩, y, t, u, hblow, hseam, hclose⟩
  · obtain ⟨hdeclares, hnobody⟩ := declaresFelled_of_miss hquiet
    refine iff_of_true hdeclares ⟨fun _ rolled u hrolled => ?_, fun _ => hnobody⟩
    cases congrArg Prod.fst (hraised.symm.trans hrolled)
  · cases hdeclaring : s.declaring rules actor.side with
    | true =>
      rw [declaresFelled_strike_iff hdeclaring hblow hseam hclose]
      refine ⟨fun hup => ⟨fun _ _ _ _ => hup, fun hnone => ?_⟩, fun h => ?_⟩
      · cases hdeclaring.symm.trans hnone
      · exact h.1 hdeclaring rolled t₀ hrolled
    | false =>
      rw [declaresFelled_iff_of_not_declaring hdeclaring hblow.undeclared hseam hclose]
      refine ⟨fun hnobody => ⟨fun hdeclares => ?_, fun _ => hnobody⟩, fun h => h.2 hdeclaring⟩
      cases hdeclaring.symm.trans hdeclares

theorem declaresFelled_reprisal_iff {rules : Rules} {playerName attacker : String}
    {defenderCommit : Option WnSealedCommit} {source : String} :
    DeclaresFelled s ((Blow.reprisal playerName attacker defenderCommit source).step rules s) ↔
      (Blow.reprisal playerName attacker defenderCommit source).Sound rules s := by
  have hstep : (Blow.reprisal playerName attacker defenderCommit source).step rules s =
      ((reprisalRoll rules playerName attacker defenderCommit source >>= landBlow rules).exec s).2 :=
    rfl
  unfold Blow.Sound
  rw [hstep, exec_bind]
  rcases hroll : (reprisalRoll rules playerName attacker defenderCommit source).exec s with ⟨x, t⟩
  have hdice : Within (Event.StrikesOnly none) s t :=
    (within_reprisalRoll (fun _ => Event.strikesOnly_of_clerical) rules _ _ _ _).of_exec hroll
  -- without a blow nobody is felled and nothing declared
  have hmiss : (∀ found, x ≠ .ok (some found)) → (DeclaresFelled s t ↔
      (s.declaring rules .opponent = true →
        (Blow.reprisal playerName attacker defenderCommit source).Aims rules s) ∧
      (s.declaring rules .opponent = false → ∀ ref, felled s t ref = false)) := by
    intro hnone
    obtain ⟨hdeclares, hnobody⟩ := declaresFelled_of_miss hdice
    refine iff_of_true hdeclares ⟨fun _ struck damage label u hsome => ?_, fun _ => hnobody⟩
    exact absurd (congrArg Prod.fst (hroll.symm.trans hsome)) (hnone _)
  rcases x with e | _ | ⟨struck, damage, label⟩
  · exact hmiss (by simp)
  · exact hmiss (by simp)
  · rcases hland : (landBlow rules (some (struck, damage, label))).exec t with ⟨y, s'⟩
    show DeclaresFelled s ((landBlow rules (some (struck, damage, label))).exec t).2 ↔
      _ ∧ (_ → ∀ ref, felled s ((landBlow rules (some (struck, damage, label))).exec t).2 ref = false)
    rw [hland, declaresFelled_congr_left hdice]
    cases hdeclaring : s.declaring rules .opponent with
    | true =>
      rw [declaresFelled_blow_iff ((hdice.declaring rules .opponent).trans hdeclaring) hland]
      refine ⟨fun haims => ⟨fun _ struck' damage' label' t' hroll' => ?_, fun hnone => ?_⟩, fun h =>
        h.1 hdeclaring struck damage label t hroll⟩
      · -- the dice come to one blow only
        obtain ⟨hblow, rfl⟩ := Prod.mk.inj (hroll.symm.trans hroll')
        cases hblow
        exact haims
      · cases hdeclaring.symm.trans hnone
    | false =>
      have hblow := undeclared_afterBlow t rules struck damage label
      have hseam : (runCwnWwnDownedSeam rules .opponent).exec
        (t.afterBlow rules struck damage label) = (y, s') := hland
      rw [declaresFelled_iff_of_not_declaring ((hdice.declaring rules .opponent).trans hdeclaring)
        hblow hseam (.refl s')]
      have hfelled : ∀ ref, felled t s' ref = felled s s' ref := by
        intro ref
        unfold felled
        rw [hdice.down_of_ne (by simp)]
      simp only [hfelled]
      refine ⟨fun hnobody => ⟨fun hdeclares => ?_, fun _ => hnobody⟩, fun h => h.2 hdeclaring⟩
      cases hdeclaring.symm.trans hdeclares

/-- **One blow**, whether it returns or raises, declares who it felled, and nobody else, exactly if
    it is sound. -/
theorem declaresFelled_step_iff {rules : Rules} {blow : Blow} (hcast : blow.casts rules = false) :
    DeclaresFelled s (blow.step rules s) ↔ blow.Sound rules s := by
  cases blow with
  | beat name actor commitment => exact declaresFelled_beat_iff hcast
  | reprisal playerName attacker defenderCommit source => exact declaresFelled_reprisal_iff

/-- **The declarations of a fight.** Every blow, also one that raises, declares a Mortal Injury for
    who it felled, once and for nobody else, exactly if every one is sound. -/
theorem declaresFelled_iff (rules : Rules) (s : GameSnapshot) {blows : List Blow}
    (hcasts : ∀ blow ∈ blows, blow.casts rules = false) : StepsMeet (Blow.step rules)
      (fun s blow => DeclaresFelled s (blow.step rules s)) s blows ↔
    StepsMeet (Blow.step rules) (fun s blow => blow.Sound rules s) s blows :=
  stepsMeet_congr (fun blow hblow t => declaresFelled_step_iff (s := t) (hcasts blow hblow)) s

/-- A PC's attack that hits. -/
def ruxAttacks : Blow :=
  .beat "Rux" ⟨"Rux", .player, false⟩ { beat := wnActionBeat "attack", outcome := .success }

/-- The skirmish of PCs who are nearly down, easy to hit, and have the scores of a Physical save. -/
def frailSkirmish : GameSnapshot :=
  { skirmish with
    cores := fun _ => { hp := ⟨1, 2⟩, armorClass := 1, stats := [("STR", 10), ("CON", 10)] } }

/-- In the frail skirmish an attack and the answer to it, which fells, are sound. -/
theorem declaresFelled_of_skirmish :
    StepsMeet (Blow.step duelRules)
      (fun s blow => DeclaresFelled s (blow.step duelRules s)) frailSkirmish
      [ruxAttacks, .reprisal "Rux" "Wight" none "opponent_reprisal"] :=
  (declaresFelled_iff duelRules frailSkirmish (by decide)).mpr
    ⟨⟨fun _ rolled t _ ref href => by
        obtain rfl : CoreRef.npc 0 = ref := Option.some.inj href
        decide, fun hno => absurd hno (by decide)⟩,
      ⟨fun _ struck damage label t hroll => by
        obtain ⟨hblow, rfl⟩ := Prod.mk.inj hroll
        cases hblow
        exact .inl (by decide), fun hno => absurd hno (by decide)⟩, trivial⟩

/-- Three PCs, the first of them down, the second nearly so and easy to hit. -/
def falteringParty : GameSnapshot :=
  { skirmish with
    cast := { skirmish.cast with characters := ["Rux", "Vex", "Zed"] }
    cores := fun ref =>
      if ref = .character 0 then { hp := ⟨0, 2⟩, stats := [("STR", 10), ("CON", 10)] }
      else if ref = .character 1 then { hp := ⟨1, 2⟩, armorClass := 1 }
      else { hp := ⟨2, 2⟩ }
    encounter := { skirmish.encounter with
      actors := [⟨"Rux", .player, false⟩, ⟨"Vex", .player, false⟩, ⟨"Zed", .player, false⟩,
        ⟨"Ghoul", .opponent, false⟩, ⟨"Wight", .opponent, false⟩] } }

/-- The opponent fells the second PC, and the seam declares the first one's Mortal Injury anew. -/
theorem not_declaresFelled_of_falteringParty :
    ¬ ∀ (rules : Rules) (s : GameSnapshot) (blows : List Blow),
      (∀ blow ∈ blows, blow.casts rules = false) →
        StepsMeet (Blow.step rules)
          (fun s blow => DeclaresFelled s (blow.step rules s)) s blows := by
  intro h
  obtain ⟨hdeclares, -⟩ := h duelRules falteringParty
    [.reprisal "Vex" "Ghoul" none "opponent_reprisal"] (by decide)
  -- of the second PC nothing is declared
  exact absurd (hdeclares (.character 1)) (by decide)

end Sidequest.Combat
