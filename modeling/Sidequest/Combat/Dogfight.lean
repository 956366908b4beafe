import Sidequest.Combat.Rules
import Sidequest.Lib.Except
import Mathlib.Algebra.BigOperators.Group.List.Basic

namespace Sidequest.Combat

open Lib
open Fate (ActorSide EncounterActor)

/-!
# Dogfight shots

Every gun solution is resolved against the frames as they were before the exchange.

* `resolveDogfightShots` — hits and damage of all shots, then the frames, then the win check;
* `dogfight_spec` — the order of the shots does not matter, and the dead shoot back.
-/

/-- The hit points of a fighter frame. -/
structure FrameHp where
  (current max : Nat)
  le : current ≤ max

/-- The frame after a hit, never below 0. -/
def FrameHp.applyHpDelta (frame : FrameHp) (damage : Nat) : FrameHp :=
  { frame with current := min frame.max (frame.current - damage), le := min_le_left _ _ }

/-- A seat with its role and its frame, if one was seeded. -/
structure Pilot extends EncounterActor where
  role : String
  frame : Option FrameHp := none

/-- A dogfight: its pilots, and how it has ended. -/
structure DogfightEncounter where
  pilots : List Pilot
  resolved : Bool := false
  outcome : Option String := none

/-- `raw` is what the weapon rolls if it hits. -/
structure GunSolution where
  (shooterRole shooterName targetName : String)
  (modifier targetNumber : Int)
  armorPiercing : Nat := 0
  (targetArmor raw : Int)

/-- What came of a shot. -/
structure ShotResult where
  (shooterRole shooterName targetName : String)
  (d20Total targetAc : Int)
  hit : Bool
  applied : Nat
  source : String

/-- What the exchange raises. -/
inductive DogfightError
  | noD20 (role : String)
  | noTargetCore (name : String)
  | noShooterActor (role : String)

/-- The frame of the last seat with a name. -/
def frameOf (name : String) : List Pilot → Option FrameHp
  | [] => none
  | p :: rest => if p.name = name ∧ rest.all (·.name ≠ name) then p.frame else frameOf name rest

/-- The last seats with their names take the damage of their name. -/
def ablate (damage : String → Nat) : List Pilot → List Pilot
  | [] => []
  | p :: rest =>
    (if rest.all (·.name ≠ p.name) then
      { p with frame := p.frame.map (·.applyHpDelta (damage p.name)) } else p) :: ablate damage rest

/-- What is left of armor that is pierced. -/
def effectiveArmorAfterAp (armor : Int) (armorPiercing : Nat) : Int := max 0 (armor - armorPiercing)

variable (enc : DogfightEncounter) (d20ByShooter : Dict String Int)

/-- The hit and the damage of one solution, or what is missing for it. -/
def computeShot (gs : GunSolution) : Except DogfightError ShotResult :=
  match d20ByShooter.get? gs.shooterRole with
  | none => .error (.noD20 gs.shooterRole)
  | some d20 =>
    if (frameOf gs.targetName enc.pilots).isNone then .error (.noTargetCore gs.targetName)
    else
      match enc.pilots.find? (·.role = gs.shooterRole) with
      | none => .error (.noShooterActor gs.shooterRole)
      | some shooter =>
        let total := d20 + gs.modifier
        let hit := gs.targetNumber ≤ total
        .ok { shooterRole := gs.shooterRole, shooterName := gs.shooterName
              targetName := gs.targetName, d20Total := total, targetAc := gs.targetNumber, hit
              applied := if hit then
                (gs.raw - effectiveArmorAfterAp gs.targetArmor gs.armorPiercing).toNat else 0
              source := if shooter.side = .player then "player" else "npc" }

/-- The damage of one shot, to its target alone. -/
def ShotResult.damage (shot : ShotResult) (name : String) : Nat :=
  if shot.targetName = name then shot.applied else 0

/-- The hit points that the resolver of frames finds for a name. -/
def frameHp (name : String) : Option Int :=
  (frameOf name enc.pilots).map (fun frame => (frame.current : Int))

/-- The seats of the pilots. -/
def DogfightEncounter.actors : List EncounterActor := enc.pilots.map Pilot.toEncounterActor

/-- The fight ends if the frames of one side are down. -/
def checkHpDepletion : Option Depletion × DogfightEncounter :=
  if enc.resolved then (none, enc)
  else match hpDepletion enc.actors (frameHp enc) with
    | none => (none, enc)
    | some depletion =>
      (some depletion, { enc with resolved := true, outcome := some depletion.outcome })

/-- **An exchange of shots**: all are judged by the frames as they were, and then all damage is
    taken. -/
def resolveDogfightShots (gunSolutions : List GunSolution) :
    Except DogfightError (List ShotResult × Option Depletion) × DogfightEncounter :=
  match gunSolutions.mapM (computeShot enc d20ByShooter) with
  | .error e => (.error e, enc)
  | .ok shots =>
    let pilots := shots.foldl (fun pilots shot =>
      if 0 < shot.applied then ablate shot.damage pilots else pilots) enc.pilots
    let checked := checkHpDepletion { enc with pilots }
    (.ok (shots, checked.1), checked.2)

/-! ### Damage adds up -/

variable {enc d20ByShooter}

/-- Damage leaves the seats themselves. -/
theorem map_ablate (damage : String → Nat) (pilots : List Pilot) :
    (ablate damage pilots).map Pilot.toEncounterActor = pilots.map Pilot.toEncounterActor := by
  induction pilots with
  | nil => rfl
  | cons p rest ih =>
    rw [ablate, List.map_cons, List.map_cons, ih]
    split <;> rfl

/-- Whether a name comes again is not changed by damage. -/
theorem all_ablate (damage : String → Nat) (pilots : List Pilot) (name : String) :
    (ablate damage pilots).all (·.name ≠ name) = pilots.all (·.name ≠ name) := by
  have hmap : ∀ l : List Pilot, l.all (·.name ≠ name) =
      (l.map Pilot.toEncounterActor).all (·.name ≠ name) := fun l => by rw [List.all_map]; rfl
  rw [hmap, map_ablate, hmap]

theorem FrameHp.applyHpDelta_add (frame : FrameHp) (a b : Nat) :
    (frame.applyHpDelta a).applyHpDelta b = frame.applyHpDelta (a + b) := by
  have hle := frame.le
  simp only [applyHpDelta, FrameHp.mk.injEq, and_true]
  omega

theorem FrameHp.applyHpDelta_zero (frame : FrameHp) : frame.applyHpDelta 0 = frame := by
  have hle := frame.le
  cases frame
  simp only [applyHpDelta, FrameHp.mk.injEq, and_true]
  omega

theorem ablate_ablate (f g : String → Nat) (pilots : List Pilot) :
    ablate g (ablate f pilots) = ablate (f + g) pilots := by
  induction pilots with
  | nil => rfl
  | cons p rest ih =>
    rw [ablate, ablate, ablate, ih, all_ablate]
    by_cases hlast : rest.all (·.name ≠ p.name) = true
    · have hadd : (fun frame : FrameHp => frame.applyHpDelta (g p.name)) ∘
          (fun frame => FrameHp.applyHpDelta frame (f p.name)) =
            fun frame => FrameHp.applyHpDelta frame ((f + g) p.name) :=
        funext (fun frame => FrameHp.applyHpDelta_add frame _ _)
      simp only [if_pos hlast, Option.map_map, hadd]
    · simp only [if_neg hlast]

theorem ablate_zero (pilots : List Pilot) : ablate 0 pilots = pilots := by
  induction pilots with
  | nil => rfl
  | cons p rest ih =>
    have hzero : (fun frame : FrameHp => frame.applyHpDelta ((0 : String → Nat) p.name)) = id :=
      funext FrameHp.applyHpDelta_zero
    rw [ablate, ih, hzero, Option.map_id, id, ite_self]

theorem frameOf_ablate (damage : String → Nat) (pilots : List Pilot) (name : String) :
    frameOf name (ablate damage pilots) =
      (frameOf name pilots).map (·.applyHpDelta (damage name)) := by
  induction pilots with
  | nil => rfl
  | cons p rest ih =>
    rw [ablate, frameOf, frameOf, all_ablate, ih]
    by_cases hname : p.name = name
    · subst hname
      cases hlast : rest.all (·.name ≠ p.name) with
      | true => simp only [if_true, and_self]
      | false => simp only [Bool.false_eq_true, if_false, and_false]
    · split <;> simp only [hname, false_and, if_false]

/-- What all shots do to those who bear a name. -/
def totalDamage (shots : List ShotResult) (name : String) : Nat :=
  (shots.map (fun shot => shot.damage name)).sum

theorem foldl_ablate (shots : List ShotResult) (pilots : List Pilot) :
    shots.foldl (fun pilots shot =>
      if 0 < shot.applied then ablate shot.damage pilots else pilots) pilots =
        ablate (totalDamage shots) pilots := by
  induction shots generalizing pilots with
  | nil => exact (ablate_zero pilots).symm
  | cons shot shots ih =>
    have hmore : totalDamage (shot :: shots) = shot.damage + totalDamage shots :=
      funext (fun name => by simp [totalDamage])
    rw [List.foldl_cons, ih, hmore]
    split
    · exact ablate_ablate _ _ _
    · next hnone =>
      have hzero : shot.damage = 0 := funext (fun name => by simp [ShotResult.damage]; omega)
      rw [hzero, zero_add]

/-! ### Order -/

theorem totalDamage_perm {shots shots' : List ShotResult} (h : shots.Perm shots') :
    totalDamage shots = totalDamage shots' :=
  funext (fun _ => (h.map _).sum_eq)

variable {solutions solutions' : List GunSolution} {shots : List ShotResult}

theorem resolveDogfightShots_ok (h : solutions.mapM (computeShot enc d20ByShooter) = .ok shots) :
    let checked := checkHpDepletion { enc with pilots := ablate (totalDamage shots) enc.pilots }
    resolveDogfightShots enc d20ByShooter solutions = (.ok (shots, checked.1), checked.2) := by
  unfold resolveDogfightShots
  rw [h]
  dsimp only
  rw [foldl_ablate]

/-- An exchange comes to the same in every order. -/
theorem resolveDogfightShots_perm (h : solutions.Perm solutions') :
    (resolveDogfightShots enc d20ByShooter solutions').2 =
      (resolveDogfightShots enc d20ByShooter solutions).2 := by
  have hlacks : ∀ l, (∃ e, l.mapM (computeShot enc d20ByShooter) = .error e) →
      (resolveDogfightShots enc d20ByShooter l).2 = enc := by
    rintro l ⟨e, he⟩
    rw [resolveDogfightShots, he]
  cases hshots : solutions.mapM (computeShot enc d20ByShooter) with
  | error e =>
    obtain ⟨gs, hgs, hlack⟩ := mapM_eq_error_iff.mp ⟨e, hshots⟩
    rw [hlacks _ ⟨e, hshots⟩, hlacks _ (mapM_eq_error_iff.mpr ⟨gs, h.subset hgs, hlack⟩)]
  | ok shots =>
    obtain ⟨shots', hshots', hperm⟩ := List.perm_comp_forall₂ h.symm (mapM_eq_ok_iff.mp hshots)
    rw [resolveDogfightShots_ok hshots, resolveDogfightShots_ok (mapM_eq_ok_iff.mpr hshots'),
      totalDamage_perm hperm]

/-! ### The end of an exchange -/

/-- A seat that has not withdrawn, and its frame. -/
def DogfightEncounter.Flies (enc : DogfightEncounter) (side : ActorSide) (frame : FrameHp) : Prop :=
  ∃ actor ∈ enc.actors, actor.side = side ∧ actor.withdrawn = false ∧
    frameOf actor.name enc.pilots = some frame

theorem exists_pool_iff {side : ActorSide} {current : Int} :
    (∃ name, (name, current) ∈ pools enc.actors (frameHp enc) side) ↔
      ∃ frame, enc.Flies side frame ∧ (frame.current : Int) = current := by
  simp only [pools, List.mem_filterMap, List.mem_filter, frameHp, Option.map_map,
    Option.map_eq_some_iff, Bool.and_eq_true, decide_eq_true_eq, Bool.not_eq_true',
    Function.comp_apply, Prod.mk.injEq]
  constructor
  · rintro ⟨name, actor, ⟨hmem, hside, hstays⟩, frame, hframe, -, hcurrent⟩
    exact ⟨frame, ⟨actor, hmem, hside, hstays, hframe⟩, hcurrent⟩
  · rintro ⟨frame, ⟨actor, hmem, hside, hstays, hframe⟩, hcurrent⟩
    exact ⟨actor.name, actor, ⟨hmem, hside, hstays⟩, frame, hframe, rfl, hcurrent⟩

theorem sideDown_iff {side : ActorSide} (h : ∃ frame, enc.Flies side frame) :
    sideDown enc.actors (frameHp enc) side = true ↔
      ∀ frame, enc.Flies side frame → frame.current = 0 := by
  obtain ⟨frame, hflies⟩ := h
  obtain ⟨name, hname⟩ := exists_pool_iff.mpr ⟨frame, hflies, rfl⟩
  simp only [sideDown, Bool.and_eq_true, decide_eq_true_eq, List.all_eq_true]
  constructor
  · rintro ⟨-, hdown⟩ frame hflies
    obtain ⟨name, hname⟩ := exists_pool_iff.mpr ⟨frame, hflies, rfl⟩
    have hle := hdown _ hname
    dsimp only at hle
    omega
  · intro hzero
    refine ⟨List.ne_nil_of_mem hname, fun pool hpool => ?_⟩
    obtain ⟨frame, hflies, hcurrent⟩ := exists_pool_iff.mp ⟨pool.1, hpool⟩
    rw [← hcurrent, hzero frame hflies]
    exact le_rfl

theorem flies_ablate_iff {damage : String → Nat} {side : ActorSide} {frame : FrameHp} :
    DogfightEncounter.Flies { enc with pilots := ablate damage enc.pilots } side frame ↔
      ∃ actor ∈ enc.actors, actor.side = side ∧ actor.withdrawn = false ∧
        (frameOf actor.name enc.pilots).map (·.applyHpDelta (damage actor.name)) = some frame := by
  unfold DogfightEncounter.Flies DogfightEncounter.actors
  dsimp only
  rw [map_ablate]
  simp only [frameOf_ablate]

/-- Somebody of a side who flies still does after damage. -/
theorem exists_flies_ablate (damage : String → Nat) {side : ActorSide}
    (h : ∃ frame, enc.Flies side frame) :
    ∃ frame, DogfightEncounter.Flies { enc with pilots := ablate damage enc.pilots } side frame := by
  obtain ⟨frame, actor, hmem, hside, hstays, hframe⟩ := h
  exact ⟨frame.applyHpDelta (damage actor.name), flies_ablate_iff.mpr
    ⟨actor, hmem, hside, hstays, by rw [hframe]; rfl⟩⟩

/-- The win check of an open encounter reads both sides, and leaves the seats. -/
theorem checkHpDepletion_open (hopen : enc.resolved = false) :
    (checkHpDepletion enc).1 = hpDepletion enc.actors (frameHp enc) ∧
      (checkHpDepletion enc).2.pilots = enc.pilots ∧ (checkHpDepletion enc).2.outcome =
        ((checkHpDepletion enc).1.map Depletion.outcome).or enc.outcome := by
  unfold checkHpDepletion
  rw [hopen]
  cases hpDepletion enc.actors (frameHp enc) with
  | none => exact ⟨rfl, rfl, rfl⟩
  | some depletion => exact ⟨rfl, rfl, rfl⟩

theorem hpDepletion_eq_mutual_iff {actors : List EncounterActor} {hp : String → Option Int} :
    hpDepletion actors hp = some .mutualDestruction ↔
      ∀ side ∈ [ActorSide.player, .opponent], sideDown actors hp side = true := by
  unfold hpDepletion
  cases hplayer : sideDown actors hp .player <;> cases hopponent : sideDown actors hp .opponent <;>
    simp [hplayer, hopponent]

/-- **An exchange of shots.** Its order does not matter; what lacks anything changes nothing; every
    shot hits the frame as it was before, whatever becomes of the shooter; and both sides destroy
    each other exactly if nobody of either is left. -/
theorem dogfight_spec (enc : DogfightEncounter) (d20ByShooter : Dict String Int)
    (solutions : List GunSolution) (hopen : enc.resolved = false) :
    let resolved := resolveDogfightShots enc d20ByShooter solutions
    (∀ solutions', solutions.Perm solutions' →
      (resolveDogfightShots enc d20ByShooter solutions').2 = resolved.2) ∧
    (∀ e, resolved.1 = .error e → resolved.2 = enc) ∧
    ∀ shots depletion, resolved.1 = .ok (shots, depletion) →
      solutions.mapM (computeShot enc d20ByShooter) = .ok shots ∧
      resolved.2.pilots = ablate (totalDamage shots) enc.pilots ∧
      (∀ name, frameOf name resolved.2.pilots =
        (frameOf name enc.pilots).map (·.applyHpDelta (totalDamage shots name))) ∧
      resolved.2.outcome = (depletion.map Depletion.outcome).or enc.outcome ∧
      ((∃ frame, enc.Flies .player frame) → (∃ frame, enc.Flies .opponent frame) →
        (depletion = some .mutualDestruction ↔ ∀ side ∈ [ActorSide.player, .opponent],
          ∀ frame, resolved.2.Flies side frame → frame.current = 0)) := by
  intro resolved
  refine ⟨fun solutions' h => resolveDogfightShots_perm h, fun e herror => ?_,
    fun shots depletion hresolved => ?_⟩
  · cases hshots : solutions.mapM (computeShot enc d20ByShooter) with
    | error e' => simp only [resolved, resolveDogfightShots, hshots]
    | ok shots => simp [resolved, resolveDogfightShots_ok hshots] at herror
  cases hshots : solutions.mapM (computeShot enc d20ByShooter) with
  | error e => simp [resolved, resolveDogfightShots, hshots] at hresolved
  | ok shots' =>
    set damaged : DogfightEncounter := { enc with pilots := ablate (totalDamage shots') enc.pilots }
      with hdamaged
    have hok : resolved = (.ok (shots', (checkHpDepletion damaged).1), (checkHpDepletion damaged).2) :=
      resolveDogfightShots_ok hshots
    rw [hok] at hresolved ⊢
    cases hresolved
    have hopen : damaged.resolved = false := hopen
    obtain ⟨hdepletion, hpilots, houtcome⟩ := checkHpDepletion_open hopen
    refine ⟨rfl, hpilots, fun name => ?_, houtcome, fun hplayer hopponent => ?_⟩
    · rw [hpilots]
      exact frameOf_ablate _ _ name
    · have hflies : ∀ side frame, (checkHpDepletion damaged).2.Flies side frame ↔
          damaged.Flies side frame := fun side frame => by
        unfold DogfightEncounter.Flies DogfightEncounter.actors
        rw [hpilots]
      -- the ends of the two sides are read off the frames after all damage
      have hdown : ∀ side ∈ [ActorSide.player, .opponent],
          (sideDown damaged.actors (frameHp damaged) side = true ↔
            ∀ frame, damaged.Flies side frame → frame.current = 0) := by
        intro side hside
        refine sideDown_iff (exists_flies_ablate _ ?_)
        rcases List.mem_pair.mp hside with rfl | rfl
        · exact hplayer
        · exact hopponent
      rw [hdepletion, hpDepletion_eq_mutual_iff]
      simp only [hflies]
      exact forall₂_congr hdown

/-- Two that shoot each other down. -/
def headOn : DogfightEncounter :=
  { pilots := [
      { name := "Vex", side := .player, role := "wing", frame := some ⟨4, 9, by decide⟩ },
      { name := "Rook", side := .opponent, role := "raider", frame := some ⟨3, 8, by decide⟩ }] }

/-- Each shoots the other. -/
def headOnShots : List GunSolution :=
  [⟨"wing", "Vex", "Rook", 2, 12, 0, 0, 6⟩, ⟨"raider", "Rook", "Vex", 1, 12, 0, 0, 5⟩]

theorem dogfight_spec_headOn : (resolveDogfightShots headOn
    ⟨[("wing", 15), ("raider", 18)], by simp⟩ headOnShots.reverse).2 =
      (resolveDogfightShots headOn ⟨[("wing", 15), ("raider", 18)], by simp⟩ headOnShots).2 :=
  (dogfight_spec headOn _ headOnShots rfl).1 _ (List.reverse_perm _).symm

end Sidequest.Combat
