import Mathlib.Tactic.Linarith
import Sidequest.Lib.Dict
import Sidequest.Lib.Effect
import Sidequest.Lib.Run

namespace Sidequest.Ruleset

open Lib Effect

/-!
# System Strain and Effort

* `applySystemStrain` — a change of the strain pool of a creature, of one of four kinds;
* `activateDiscipline` — a psionic discipline commits Effort and pushes strain;
* `strain_bounds_iff`, `atomicActivation_iff` — when the pool keeps its bounds, and when both
  resources move or neither.
-/

/-- `SystemStrainConfig`, as far as changes of strain read it. -/
structure SystemStrainConfig where
  restRecoveryPerNight : Int := 1
  firstAidCost : Int := 1

/-- The config of a ruleset; only those of CWN and WWN have a strain section. -/
inductive RulesetConfig
  | none
  | swn
  | cwn (systemStrain : SystemStrainConfig)
  | wwn (systemStrain : SystemStrainConfig)

/-- The strain section of a config. -/
def RulesetConfig.systemStrain? : RulesetConfig → Option SystemStrainConfig
  | .cwn s | .wwn s => some s
  | .none | .swn => Option.none

/-- The strain of a creature: how much it has, how much it bears, and what of it stays. -/
structure SystemStrainPool where
  current : ℚ := 0
  max : Int
  permanent : ℚ := 0

/-- What came of a change of strain. -/
structure StrainResult where
  applied : Bool
  current : ℚ
  max : Int
  (permanent delta : ℚ)
  reason : String := ""

/-- How long Effort stays committed. -/
inductive EffortDuration
  | maintained
  | scene
  | day

/-- Points of Effort that are bound to something. -/
structure EffortCommitment where
  points : Int
  duration : EffortDuration
  label : String := ""

/-- The Effort of one source, and what of it is committed. -/
structure EffortPool where
  max : Int
  commitments : List EffortCommitment := []

namespace EffortPool

/-- The points that are committed. -/
def committed (pool : EffortPool) : Int := (pool.commitments.map EffortCommitment.points).sum

/-- The points that are left. -/
def available (pool : EffortPool) : Int := pool.max - pool.committed

end EffortPool

/-- What the two engines read and write of a creature. -/
structure CreatureCore where
  name : String
  systemStrain : Option SystemStrainPool
  effort : Dict String EffortPool

/-- The kinds of changes of strain, and any other text. -/
inductive StrainKind
  | firstAid
  | temporary
  | permanent
  | rest
  | unknown (kind : String)

/-- What the two engines raise. -/
inductive WnError
  | noStrainPool (name : String)
  | wrongConfig
  | unknownKind (kind : String)
  | noEffortPool (name source : String)
  | invalidDuration (duration : String)

/-! ### The strain pool -/

/-- The pool after a change, unless the change would exceed its maximum or its kind is unknown. -/
def strainChange (scfg : SystemStrainConfig) (amount : ℚ) (pool : SystemStrainPool) :
    StrainKind → Option SystemStrainPool
  | .firstAid =>
    if pool.max < pool.current + scfg.firstAidCost then none
    else some { pool with current := pool.current + scfg.firstAidCost }
  | .temporary =>
    if pool.max < pool.current + amount then none
    else some { pool with current := pool.current + amount }
  | .permanent =>
    let newPerm := max 0 (pool.permanent + amount)
    if 0 < amount ∧ pool.max < pool.current + amount then none
    else some { pool with permanent := newPerm, current := max newPerm (pool.current + amount) }
  | .rest =>
    let requested := -scfg.restRecoveryPerNight * max 0 amount
    some { pool with current := max pool.permanent (pool.current + requested) }
  | .unknown _ => none

/-- The pool and the result once the pool and the config are found. -/
def changeStrain (scfg : SystemStrainConfig) (amount : ℚ) (pool : SystemStrainPool)
    (kind : StrainKind) : StrainResult × SystemStrainPool :=
  let after := (strainChange scfg amount pool kind).getD pool
  let applied := (strainChange scfg amount pool kind).isSome
  ({ applied
     current := after.current
     max := after.max
     permanent := after.permanent
     delta := after.current - pool.current
     reason := if applied then "" else s!"would exceed max ({pool.max})" }, after)

/-- **A change of strain.** A kind that is not known raises, and so does a creature or a config
    without strain. -/
def applySystemStrain (kind : StrainKind) (amount : ℚ) (cfg : RulesetConfig) :
    Effect WnError CreatureCore StrainResult := do
  let core ← get
  match core.systemStrain, cfg.systemStrain?, kind with
  | none, _, _ => throw (.noStrainPool core.name)
  | some _, none, _ => throw .wrongConfig
  | some _, some _, .unknown kind => throw (.unknownKind kind)
  | some pool, some scfg, kind =>
    let (result, after) := changeStrain scfg amount pool kind
    set { core with systemStrain := some after }
    pure result

/-- **What a temporary change does**: it raises, or refuses, or adds its amount. -/
theorem applySystemStrain_temporary (amount : ℚ) (cfg : RulesetConfig) (core : CreatureCore) :
    ((core.systemStrain = none ∨ cfg.systemStrain? = none) ∧
      ∃ e, (applySystemStrain .temporary amount cfg).exec core = (.error e, core)) ∨
    ∃ pool scfg, core.systemStrain = some pool ∧ cfg.systemStrain? = some scfg ∧
      ((pool.max < pool.current + amount ∧ ∃ r, r.applied = false ∧
          (applySystemStrain .temporary amount cfg).exec core = (.ok r, core)) ∨
        (pool.current + amount ≤ pool.max ∧ ∃ r, r.applied = true ∧
          (applySystemStrain .temporary amount cfg).exec core = (.ok r, { core with
            systemStrain := some { pool with current := pool.current + amount } }))) := by
  rw [applySystemStrain, exec_get_bind]
  cases hpool : core.systemStrain with
  | none => exact .inl ⟨.inl rfl, _, rfl⟩
  | some pool =>
    cases cfg.systemStrain? with
    | none => exact .inl ⟨.inr rfl, _, rfl⟩
    | some scfg =>
      refine .inr ⟨pool, scfg, rfl, rfl, ?_⟩
      by_cases hmax : pool.max < pool.current + amount
      · refine .inl ⟨hmax, (changeStrain scfg amount pool .temporary).1, ?_, ?_⟩
        · simp [changeStrain, strainChange, hmax]
        · have hsame : (changeStrain scfg amount pool .temporary).2 = pool := by
            simp [changeStrain, strainChange, hmax]
          show (Except.ok _, { core with
            systemStrain := some (changeStrain scfg amount pool .temporary).2 }) = _
          rw [hsame, ← hpool]
          rfl
      · refine .inr ⟨not_lt.mp hmax, (changeStrain scfg amount pool .temporary).1, ?_, ?_⟩
        · simp [changeStrain, strainChange, hmax]
        · show (Except.ok _, { core with
            systemStrain := some (changeStrain scfg amount pool .temporary).2 }) = _
          simp [changeStrain, strainChange, hmax]

/-! ### The bounds of the pool -/

/-- The floor is not negative, what is strained lies on it, and below the maximum. -/
def SystemStrainPool.InBounds (pool : SystemStrainPool) : Prop :=
  0 ≤ pool.permanent ∧ pool.permanent ≤ pool.current ∧ pool.current ≤ pool.max

/-- A change of one of the four kinds; what is temporary is not negative. -/
structure StrainCall where
  kind : StrainKind
  amount : ℚ
  known : ∀ k, kind ≠ .unknown k
  nonneg : kind = .temporary → 0 ≤ amount

variable (scfg : SystemStrainConfig)

/-- The pool after a change. -/
def StrainCall.step (pool : SystemStrainPool) (c : StrainCall) : SystemStrainPool :=
  (changeStrain scfg c.amount pool c.kind).2

/-- A rest does not lead past the maximum; only a negative recovery could. -/
def StrainCall.RestFits (pool : SystemStrainPool) (c : StrainCall) : Prop :=
  c.kind = .rest → pool.current - scfg.restRecoveryPerNight * max 0 c.amount ≤ pool.max

/-- What a call reports is what it did, and it keeps the temporary part where it should. -/
structure StrainCall.Faithful (pool : SystemStrainPool) (c : StrainCall) : Prop where
  refused : (changeStrain scfg c.amount pool c.kind).1.applied = false → c.step scfg pool = pool
  delta : (changeStrain scfg c.amount pool c.kind).1.delta = (c.step scfg pool).current - pool.current
  temporary : c.kind = .permanent → 0 ≤ pool.permanent + c.amount → pool.InBounds →
    (c.step scfg pool).current - (c.step scfg pool).permanent = pool.current - pool.permanent

variable {scfg}

/-- **One change of a pool within its bounds** keeps them, unless it is a rest that does not fit. -/
theorem StrainCall.inBounds_step_iff (hcost : 0 ≤ scfg.firstAidCost) {pool : SystemStrainPool}
    (h : pool.InBounds) (c : StrainCall) : (c.step scfg pool).InBounds ↔ c.RestFits scfg pool := by
  obtain ⟨hperm, hcur, hmax⟩ := h
  obtain ⟨kind, amount, hknown, hnonneg⟩ := c
  have hcost' : (0 : ℚ) ≤ scfg.firstAidCost := by exact_mod_cast hcost
  cases kind with
  | firstAid =>
    refine iff_of_true ?_ (by simp [RestFits])
    simp only [step, changeStrain, strainChange]
    split <;> refine ⟨?_, ?_, ?_⟩ <;> simp <;> linarith
  | temporary =>
    have hamount := hnonneg rfl
    refine iff_of_true ?_ (by simp [RestFits])
    simp only [step, changeStrain, strainChange]
    split <;> refine ⟨?_, ?_, ?_⟩ <;> simp <;> linarith
  | permanent =>
    refine iff_of_true ?_ (by simp [RestFits])
    simp only [step, changeStrain, strainChange]
    split
    · exact ⟨hperm, hcur, hmax⟩
    · rename_i hfits
      -- a positive amount fits under the maximum, and any other one lowers the pool
      have hle : pool.current + amount ≤ pool.max := by
        by_cases hpos : 0 < amount
        · exact not_lt.mp (fun hlt => hfits ⟨hpos, hlt⟩)
        · linarith
      refine ⟨le_max_left _ _, le_max_left _ _, ?_⟩
      show max (max 0 (pool.permanent + amount)) (pool.current + amount) ≤ (pool.max : ℚ)
      exact max_le (max_le (by linarith) (by linarith)) hle
  | rest =>
    have hstep : (step scfg pool ⟨.rest, amount, hknown, hnonneg⟩).InBounds ↔
        max pool.permanent (pool.current + -scfg.restRecoveryPerNight * max 0 amount) ≤ pool.max :=
      ⟨fun h => h.2.2, fun h => ⟨hperm, le_max_left _ _, h⟩⟩
    rw [hstep, max_le_iff]
    constructor
    · rintro ⟨-, hle⟩ -
      linarith
    · intro hfits
      have hle := hfits rfl
      exact ⟨by linarith, by linarith⟩
  | unknown k => exact absurd rfl (hknown k)

theorem StrainCall.faithful (pool : SystemStrainPool) (c : StrainCall) : c.Faithful scfg pool where
  refused happlied := by
    simp only [changeStrain, Option.isSome_eq_false_iff, Option.isNone_iff_eq_none]
      at happlied
    simp [step, changeStrain, happlied]
  delta := rfl
  temporary hkind hfloor hbounds := by
    obtain ⟨kind, amount, hknown, hnonneg⟩ := c
    subst hkind
    simp only [step, changeStrain, strainChange]
    split
    · rfl
    · have hle : pool.permanent + amount ≤ pool.current + amount := by linarith [hbounds.2.1]
      simp [max_eq_right hfloor, max_eq_right hle]

/-- A rest that recovers leads no higher. -/
theorem StrainCall.restFits_of_recovery (hrate : 0 ≤ scfg.restRecoveryPerNight)
    {pool : SystemStrainPool} (h : pool.InBounds) (c : StrainCall) : c.RestFits scfg pool := by
  intro _
  have hrate' : (0 : ℚ) ≤ scfg.restRecoveryPerNight := by exact_mod_cast hrate
  have hrecovered := mul_nonneg hrate' (le_max_left 0 c.amount)
  linarith [h.2.2]

/-- **The strain pool over whole runs.** From a pool within its bounds, the bounds hold in every
    state exactly if every rest fits under the maximum, as it does where rests recover; and every
    call is faithful. -/
theorem strain_bounds_iff (hcost : 0 ≤ scfg.firstAidCost) {pool : SystemStrainPool}
    (h : pool.InBounds) (calls : List StrainCall) :
    (Throughout (StrainCall.step scfg) SystemStrainPool.InBounds pool calls ↔
      StepsMeet (StrainCall.step scfg) (fun p c => c.RestFits scfg p) pool calls) ∧
    (0 ≤ scfg.restRecoveryPerNight →
      Throughout (StrainCall.step scfg) SystemStrainPool.InBounds pool calls) ∧
    ∀ p c, StrainCall.Faithful scfg p c := by
  refine ⟨throughout_iff_stepsMeet ?_ (fun _ h => h) ?_ h, fun hrate => ?_, StrainCall.faithful⟩
  · intro p c hp hfits
    exact (c.inBounds_step_iff hcost hp).mpr hfits
  · intro p c hp hfits hstep
    exact hfits ((c.inBounds_step_iff hcost hp).mp hstep)
  · refine throughout_of_step (fun p c hp => ?_) h calls
    exact (c.inBounds_step_iff hcost hp).mpr (c.restFits_of_recovery hrate hp)

/-- A rest at a negative recovery leads past the maximum. -/
theorem not_strain_inBounds : ¬ ∀ (scfg : SystemStrainConfig) (pool : SystemStrainPool)
    (calls : List StrainCall), 0 ≤ scfg.firstAidCost → pool.InBounds →
    Throughout (StrainCall.step scfg) SystemStrainPool.InBounds pool calls := by
  intro h
  have hrun := h { restRecoveryPerNight := -1 } { max := 0 }
    [⟨.rest, 1, by simp, by simp⟩] (by decide) ⟨le_rfl, le_rfl, by simp⟩
  have hmax : ((1 : ℚ)) ≤ 0 := by simpa [StrainCall.step, changeStrain, strainChange] using hrun.2.2.2
  linarith

theorem strain_bounds_iff_night :
    Throughout (StrainCall.step {}) SystemStrainPool.InBounds ⟨3, 10, 1⟩
        [⟨.rest, 1, by simp, by simp⟩] ↔
      StepsMeet (StrainCall.step {}) (fun p c => c.RestFits {} p) ⟨3, 10, 1⟩
        [⟨.rest, 1, by simp, by simp⟩] :=
  (strain_bounds_iff (by decide) ⟨by decide, by decide, by decide⟩ _).1

/-! ### Psionic disciplines -/

/-- `PsionicDiscipline`, as far as activation reads it. -/
structure PsionicDiscipline where
  (id name : String)
  effortCost : Int
  duration : String := "scene"
  strainCost : Int := 0

/-- What came of an activation. -/
structure DisciplineActivationResult where
  applied : Bool
  disciplineId : String
  (available strained : Int)
  reason : String

/-- The durations that an `EffortCommitment` accepts. -/
def effortDuration? : String → Option EffortDuration
  | "maintained" => some .maintained
  | "scene" => some .scene
  | "day" => some .day
  | _ => none

variable (discipline : PsionicDiscipline) (source : String)

namespace CreatureCore

variable (core : CreatureCore)

/-- The creature with a commitment in the pool of `source`. -/
def withCommitment (source : String) (c : EffortCommitment) : CreatureCore :=
  { core with effort := core.effort.modify source (fun pool =>
      { pool with commitments := pool.commitments ++ [c] }) }

/-- The creature with its strain raised. -/
def strainedBy (amount : ℚ) : CreatureCore :=
  { core with systemStrain := core.systemStrain.map (fun pool =>
      { pool with current := pool.current + amount }) }

theorem withCommitment_ne {source : String} {pool : EffortPool}
    (h : core.effort.get? source = some pool) (c : EffortCommitment) :
    core.withCommitment source c ≠ core := by
  intro heq
  have hpool := congrArg (fun k : CreatureCore => k.effort.get? source) heq
  simp only [withCommitment, Dict.get?_modify, h, if_true, Option.map_some] at hpool
  simpa using congrArg (fun p : EffortPool => p.commitments.length) (Option.some.inj hpool)

end CreatureCore

/-- `commit_effort`, and whether it was applied; a commitment of no known duration raises. -/
def commitEffort (points : Int) (duration label : String) : Effect WnError CreatureCore Bool := do
  let core ← get
  match core.effort.get? source with
  | none => throw (.noEffortPool core.name source)
  | some pool =>
    if points ≤ pool.available then
      match effortDuration? duration with
      | none => throw (.invalidDuration duration)
      | some duration => modify (·.withCommitment source { points, duration, label })
    pure (points ≤ pool.available)

variable (cfg : RulesetConfig)

/-- **An activation** commits the Effort first, and then pays the strain. -/
def activateDiscipline : Effect WnError CreatureCore DisciplineActivationResult := do
  let core ← get
  match core.effort.get? source with
  | none => throw (.noEffortPool core.name source)
  | some pool =>
    let cost := discipline.effortCost
    let refused (reason : String) : DisciplineActivationResult :=
      { applied := false, disciplineId := discipline.id, available := pool.available
        strained := 0, reason }
    if 0 < discipline.strainCost ∧ core.systemStrain = none then
      pure (refused (s!"'{discipline.id}' costs {discipline.strainCost} System Strain but " ++
        s!"'{core.name}' has no System Strain pool — this ruleset has no " ++
        "Strain engine (SWN psionics is Effort-only); author the strain " ++
        "discipline on a WWN/CWN/AWN pack"))
    else if cost ≤ pool.available then
      let _ ← commitEffort source cost discipline.duration discipline.name
      let mut strained := 0
      if 0 < discipline.strainCost then
        -- whether the push was applied is not looked at
        let _ ← applySystemStrain .temporary discipline.strainCost cfg
        strained := discipline.strainCost
      pure { applied := true, disciplineId := discipline.id, available := pool.available - cost
             strained, reason := "" }
    else pure (refused s!"only {pool.available} of {cost} Effort available")

variable (core : CreatureCore)

/-- Both resources move, and by what is reported; or neither does. -/
def AtomicActivation : Prop :=
  match (activateDiscipline discipline source cfg).exec core with
  | (.ok result, core') =>
    if result.applied then
      result.strained = discipline.strainCost ∧ ∃ duration,
        core' = (core.withCommitment source { points := discipline.effortCost, duration
                                              label := discipline.name }).strainedBy
          discipline.strainCost
    else core' = core
  | (.error _, core') => core' = core

/-- The Effort is committed: the pool affords it, the duration is one, and where strain is pushed
    there is a pool for it. -/
def CommitsEffort : Prop :=
  (∃ pool, core.effort.get? source = some pool ∧ discipline.effortCost ≤ pool.available) ∧
    (effortDuration? discipline.duration).isSome ∧
    (0 < discipline.strainCost → core.systemStrain.isSome)

/-- The push goes through: it is none, or it fits under the maximum and the ruleset has strain. -/
def PushFits : Prop :=
  0 ≤ discipline.strainCost ∧ (0 < discipline.strainCost → cfg.systemStrain?.isSome ∧
    ∀ pool, core.systemStrain = some pool → pool.current + discipline.strainCost ≤ pool.max)

theorem exec_commitEffort {source : String} {points : Int} {duration label : String}
    {core : CreatureCore} {pool : EffortPool} (hpool : core.effort.get? source = some pool)
    (hafford : points ≤ pool.available) :
    (commitEffort source points duration label).exec core =
      match effortDuration? duration with
      | none => (.error (.invalidDuration duration), core)
      | some duration => (.ok true, core.withCommitment source { points, duration, label }) := by
  rw [commitEffort, exec_get_bind, hpool]
  dsimp only
  rw [if_pos hafford]
  cases effortDuration? duration with
  | none => rfl
  | some d =>
    show (Except.ok (decide (points ≤ pool.available)), _) = _
    rw [decide_eq_true hafford]

/-- **Both resources or neither**: an activation is atomic exactly if it commits no Effort, or
    its push goes through. -/
theorem atomicActivation_iff (discipline : PsionicDiscipline) (source : String)
    (cfg : RulesetConfig) (core : CreatureCore) : AtomicActivation discipline source cfg core ↔
      (CommitsEffort discipline source core → PushFits discipline cfg core) := by
  unfold AtomicActivation activateDiscipline
  rw [exec_get_bind]
  cases hpool : core.effort.get? source with
  | none => exact iff_of_true rfl (fun h => by simp [CommitsEffort, hpool] at h)
  | some pool =>
    dsimp only
    -- who has no pool of strain cannot pay any, and is refused before the Effort
    by_cases hless : 0 < discipline.strainCost ∧ core.systemStrain = none
    · rw [if_pos hless]
      refine iff_of_true rfl (fun h => ?_)
      have hstrain := h.2.2 hless.1
      rw [hless.2] at hstrain
      simp at hstrain
    · rw [if_neg hless]
      by_cases hafford : discipline.effortCost ≤ pool.available
      · rw [if_pos hafford, exec_bind, exec_commitEffort hpool hafford]
        cases hduration : effortDuration? discipline.duration with
        | none => exact iff_of_true rfl (fun h => by simp [CommitsEffort, hduration] at h)
        | some duration =>
          have hcommits : CommitsEffort discipline source core := by
            refine ⟨⟨pool, hpool, hafford⟩, by simp [hduration], fun hpos => ?_⟩
            rw [Option.isSome_iff_ne_none]
            exact fun hnone => hless ⟨hpos, hnone⟩
          rw [imp_iff_right hcommits]
          dsimp only
          by_cases hpos : 0 < discipline.strainCost
          · rw [if_pos hpos, exec_bind]
            rcases applySystemStrain_temporary discipline.strainCost cfg (core.withCommitment source
                ⟨discipline.effortCost, duration, discipline.name⟩) with
              ⟨hmissing, e, hexec⟩ | ⟨sp, scfg, hsp, hcfg, ⟨hmax, r, -, hexec⟩ | ⟨hle, r, -, hexec⟩⟩
            all_goals rw [hexec]
            · -- the push raises when the Effort is committed
              refine iff_of_false (core.withCommitment_ne hpool _) (fun hfits => ?_)
              rcases hmissing with hnone | hnone
              · exact hless ⟨hpos, hnone⟩
              · simpa [hnone] using (hfits.2 hpos).1
            · refine iff_of_false ?_ (fun hfits => not_lt.mpr ((hfits.2 hpos).2 sp hsp) hmax)
              -- past the maximum the push is refused, with the Effort committed
              rintro ⟨-, d, heq⟩
              have hstrain := congrArg CreatureCore.systemStrain heq
              rw [hsp, CreatureCore.strainedBy, show (core.withCommitment source
                ⟨discipline.effortCost, d, discipline.name⟩).systemStrain = some sp from hsp] at hstrain
              have hcurrent := congrArg SystemStrainPool.current (Option.some.inj hstrain)
              have hzero : (discipline.strainCost : ℚ) = 0 := left_eq_add.mp hcurrent
              exact hpos.ne' (by exact_mod_cast hzero)
            · refine iff_of_true ⟨rfl, duration, ?_⟩ ⟨hpos.le, fun _ => ⟨by simp [hcfg], ?_⟩⟩
              · rw [CreatureCore.strainedBy, hsp]
                rfl
              · intro pool' hpool'
                rw [Option.some.inj (hpool'.symm.trans hsp)]
                exact hle
          · rw [if_neg hpos]
            -- nothing is pushed: the law holds where the cost is 0, and not below it
            have hlaw : ((0 : Int) = discipline.strainCost ∧ ∃ d, core.withCommitment source
                ⟨discipline.effortCost, duration, discipline.name⟩ = (core.withCommitment source
                  ⟨discipline.effortCost, d, discipline.name⟩).strainedBy discipline.strainCost) ↔
                PushFits discipline cfg core := by
              constructor
              · rintro ⟨hzero, -⟩
                exact ⟨hzero.le, fun h => absurd h hpos⟩
              · intro hfits
                have hzero : discipline.strainCost = 0 := le_antisymm (not_lt.mp hpos) hfits.1
                refine ⟨hzero.symm, duration, ?_⟩
                simp [CreatureCore.strainedBy, hzero]
            exact hlaw
      · rw [if_neg hafford]
        exact iff_of_true rfl (fun h => by simp [CommitsEffort, hpool, hafford] at h)

/-- A push refused at the maximum, after the Effort for it was committed. -/
theorem not_atomicActivation : ¬ AtomicActivation ⟨"surge", "Surge", 1, "scene", 1⟩ "Psychic"
    (.cwn {}) ⟨"Mara", some { current := 3, max := 3 }, ⟨[("Psychic", { max := 1 })], by simp⟩⟩ := by
  intro h
  unfold AtomicActivation at h
  split at h
  · rename_i result core' hexec
    have hactive := congrArg (fun r => r.1.toOption.map DisciplineActivationResult.applied) hexec
    have hstrain := congrArg (fun r => r.2.systemStrain.map SystemStrainPool.current) hexec
    have hthree := (by decide +kernel : some (3 : ℚ) = _).trans hstrain
    rw [if_pos (Option.some.inj hactive).symm] at h
    obtain ⟨-, d, rfl⟩ := h
    have hfour : some (3 : ℚ) = some (3 + ((1 : Int) : ℚ)) := hthree
    norm_num at hfour
  · rename_i hexec
    exact Option.some_ne_none _ (congrArg (·.1.toOption.map fun _ => ()) hexec)

end Sidequest.Ruleset
