import Sidequest.Mutation.Acquire
import Sidequest.Ruleset.Strain

namespace Sidequest.Mutation

open Lib Effect
open Ruleset (CreatureCore RulesetConfig StrainResult WnError applySystemStrain
  applySystemStrain_temporary)

/-!
# Using mutations

* `useMutation` — ownership, the limit of uses, System Strain, and the save of the target, one
  after another; the save is resolved by a function of the caller;
* `useMutation_allOrNothing_iff` — a use costs both its strain and its use, or neither, exactly
  where no save raises behind a strain that was paid; and no period sees more uses than it has.
-/

inductive SaveResult
  | success
  | fail
  deriving DecidableEq

inductive UseError (ε : Type)
  | noCatalogEntry (e : AcquireError)
  | noSaveResolver (mutationId stat : String)
  | strain (e : WnError)
  | save (e : ε)

def UsagePeriod.text : UsagePeriod → String
  | .perScene => "per_scene"
  | .perDay => "per_day"

structure UseMutationResult where
  applied : Bool
  (actor mutationId : String)
  reason : String := ""
  strain : Option StrainResult := none
  usesRemaining : Int := -1
  saveStat : Option String := none
  saveResult : Option SaveResult := none
  effect : String := ""

namespace MutationState

variable (s : MutationState)

def counter? (actor mutationId : String) : Option UsageCounter :=
  (s.characters.get? actor).bind (·.usage.get? mutationId)

/-- How often a mutation was used since its counter was reset. -/
def uses (actor mutationId : String) : Int :=
  ((s.counter? actor mutationId).map UsageCounter.used).getD 0

/-- The counters that `reset` picks start anew. -/
def resetCounters (reset : UsageCounter → Bool) : MutationState :=
  { s with characters := s.characters.mapValues (fun cs =>
      { cs with usage := cs.usage.mapValues (fun c => if reset c then { c with used := 0 } else c) }) }

def resetScene : MutationState := s.resetCounters (·.period = .perScene)

def resetDay : MutationState := s.resetCounters (fun _ => true)

theorem uses_resetCounters (reset : UsageCounter → Bool) (a m : String) :
    (s.resetCounters reset).uses a m = if (s.counter? a m).any reset then 0 else s.uses a m := by
  have hcounter : (s.resetCounters reset).counter? a m =
      (s.counter? a m).map (fun c => if reset c then { c with used := 0 } else c) := by
    unfold counter? resetCounters
    rw [Dict.get?_mapValues]
    cases s.characters.get? a with
    | none => rfl
    | some cs => exact Dict.get?_mapValues _ _ _
  unfold uses
  rw [hcounter]
  cases s.counter? a m with
  | none => rfl
  | some c => cases h : reset c <;> simp [h]

/-- The state with a counter written. -/
def withCounter (actor mutationId : String) (counter : UsageCounter) : MutationState :=
  { s with characters := s.characters.modify actor (fun cs =>
      { cs with usage := cs.usage.insert mutationId counter }) }

theorem uses_withCounter {actor : String} {cs : CharacterMutationState}
    (h : s.characters.get? actor = some cs) (mutationId : String) (counter : UsageCounter)
    (a m : String) : (s.withCounter actor mutationId counter).uses a m =
      if a = actor ∧ m = mutationId then counter.used else s.uses a m := by
  unfold uses counter? withCounter
  rw [Dict.get?_modify]
  by_cases ha : a = actor
  · subst ha
    by_cases hm : m = mutationId <;> simp [h, hm]
  · simp [ha]

end MutationState

/-- What a use writes: the mutation state and the creature. -/
structure UseState where
  mutations : MutationState
  core : CreatureCore

def UseState.withCounter (s : UseState) (actor mutationId : String) (counter : UsageCounter) :
    UseState :=
  ⟨s.mutations.withCounter actor mutationId counter, s.core⟩

/-- The save that a mutation asks for, if it asks for one. -/
def PositiveMutationDef.saveStat (md : PositiveMutationDef) : Option String :=
  md.save.bind SaveVs.stat

/-- `setdefault` on the counters: the one that is there, or a new one; none at will. -/
def CharacterMutationState.counter (cs : CharacterMutationState) (md : PositiveMutationDef) :
    Option UsageCounter :=
  md.usage.map (fun period => (cs.usage.get? md.id).getD { period })

variable {ε : Type}

/-- The state after a use that was carried out, its strain paid. -/
def UseState.counted (s : UseState) (actor mutationId : String) (counter : Option UsageCounter) :
    UseState :=
  counter.elim s (fun c => s.withCounter actor mutationId { c with used := c.used + 1 })

theorem UseState.counted_core (s : UseState) (actor mutationId : String)
    (counter : Option UsageCounter) : (s.counted actor mutationId counter).core = s.core := by
  cases counter <;> rfl

/-- The end of `use_mutation`: the cost is paid, the power fires, and the target saves. -/
def finishUse (md : PositiveMutationDef) (actor targetId : String)
    (saveResolver : Option (String → String → Except ε SaveResult))
    (counter : Option UsageCounter) (strain : Option StrainResult) (s : UseState) :
    Except (UseError ε) UseMutationResult × UseState :=
  let saved := match md.saveStat, saveResolver with
    | some stat, some resolve => (resolve stat targetId).map some
    | _, _ => .ok none
  match saved with
  | .error e => (.error (.save e), s)
  | .ok saveResult =>
    let negated := saveResult = some .success ∧ md.save.map SaveVs.effect = some "negates"
    (.ok { applied := true, actor, mutationId := md.id, strain
           usesRemaining := counter.elim (-1) (fun c => md.usesPerPeriod - (c.used + 1))
           saveStat := md.saveStat, saveResult, effect := if negated then "" else md.effect },
      s.counted actor md.id counter)

/-- A use that passed ownership and limit: the strain, and then the rest. -/
def payUse (md : PositiveMutationDef) (cfg : RulesetConfig) (actor targetId : String)
    (saveResolver : Option (String → String → Except ε SaveResult))
    (counter : Option UsageCounter) (s : UseState) :
    Except (UseError ε) UseMutationResult × UseState :=
  if 0 < md.strainCost then
    match (applySystemStrain .temporary md.strainCost cfg).exec s.core with
    | (.error e, core) => (.error (.strain e), { s with core })
    | (.ok strain, core) =>
      if strain.applied then
        finishUse md actor targetId saveResolver counter (some strain) { s with core }
      else
        (.ok { applied := false, actor, mutationId := md.id, strain := some strain
               reason := s!"strain_over_max ({strain.reason})" }, { s with core })
  else finishUse md actor targetId saveResolver counter none s

def useMutation (catalog : MutationCatalog) (cfg : RulesetConfig)
    (actor mutationId targetId : String)
    (saveResolver : Option (String → String → Except ε SaveResult)) (s : UseState) :
    Except (UseError ε) UseMutationResult × UseState :=
  let refused (reason : String) : UseMutationResult :=
    { applied := false, actor, mutationId, reason }
  match s.mutations.characters.get? actor with
  | none => (.ok (refused "not_owned (actor has no mutation state)"), s)
  | some cs =>
    if mutationId ∉ cs.positiveIds then (.ok (refused "not_owned"), s)
    else
      match catalog.positiveById mutationId with
      | .error e => (.error (.noCatalogEntry e), s)
      | .ok md =>
        let counter := cs.counter md
        let s := counter.elim s (s.withCounter actor md.id)
        if counter.any (fun c => md.usesPerPeriod ≤ c.used) then
          let count := (counter.map UsageCounter.used).getD 0
          let period := (md.usage.map UsagePeriod.text).getD ""
          (.ok (refused s!"limit_exhausted ({period}: {count}/{md.usesPerPeriod})"), s)
        else
          match md.saveStat, saveResolver with
          | some stat, none => (.error (.noSaveResolver mutationId stat), s)
          | _, _ => payUse md cfg actor targetId saveResolver counter s

/-! ### All or nothing -/

/-- The use was carried out. -/
def Carried : Except (UseError ε) UseMutationResult → Prop
  | .ok r => r.applied = true
  | .error _ => False

instance : (x : Except (UseError ε) UseMutationResult) → Decidable (Carried x)
  | .ok r => inferInstanceAs (Decidable (r.applied = true))
  | .error _ => .isFalse id

/-- The save of the target is resolved by a raise. -/
def SaveRaises (md : PositiveMutationDef) (targetId : String)
    (saveResolver : Option (String → String → Except ε SaveResult)) : Prop :=
  ∃ stat resolve e, md.saveStat = some stat ∧ saveResolver = some resolve ∧
    resolve stat targetId = .error e

/-- The strain of a mutation can be pushed. -/
def CanPay (md : PositiveMutationDef) (cfg : RulesetConfig) (core : CreatureCore) : Prop :=
  cfg.systemStrain?.isSome ∧ ∃ pool, core.systemStrain = some pool ∧
    pool.current + md.strainCost ≤ pool.max

variable {md : PositiveMutationDef} {cfg : RulesetConfig} {actor targetId : String}
  {saveResolver : Option (String → String → Except ε SaveResult)} {counter : Option UsageCounter}

theorem finishUse_cases (md : PositiveMutationDef) (strain : Option StrainResult) (s : UseState) :
    (SaveRaises md targetId saveResolver ∧
      ∃ e, finishUse md actor targetId saveResolver counter strain s = (.error e, s)) ∨
    ¬ SaveRaises md targetId saveResolver ∧ ∃ r, r.applied = true ∧
      finishUse md actor targetId saveResolver counter strain s =
        (.ok r, s.counted actor md.id counter) := by
  unfold finishUse SaveRaises
  cases md.saveStat with
  | none => exact .inr ⟨by simp, _, rfl, rfl⟩
  | some stat =>
    cases saveResolver with
    | none => exact .inr ⟨by simp, _, rfl, rfl⟩
    | some resolve =>
      dsimp only
      cases hsave : resolve stat targetId with
      | error e => exact .inl ⟨⟨stat, resolve, e, rfl, rfl, hsave⟩, .save e, rfl⟩
      | ok result =>
        refine .inr ⟨?_, _, rfl, rfl⟩
        rintro ⟨_, _, e, hstat, hresolve, he⟩
        cases hstat
        cases hresolve
        cases hsave.symm.trans he

/-- The strain of a use is paid. -/
def UseState.paid (s : UseState) (md : PositiveMutationDef) : UseState :=
  { s with core := s.core.strainedBy md.strainCost }

/-- **What paying for a use comes to**: it raises behind the strain, or it is carried out, or it
    leaves everything as it was. -/
theorem payUse_cases (s : UseState) :
    ((0 < md.strainCost ∧ CanPay md cfg s.core ∧ SaveRaises md targetId saveResolver) ∧
      ∃ e, payUse md cfg actor targetId saveResolver counter s = (.error e, s.paid md)) ∨
    ¬ (0 < md.strainCost ∧ CanPay md cfg s.core ∧ SaveRaises md targetId saveResolver) ∧
      ((∃ r, r.applied = true ∧ payUse md cfg actor targetId saveResolver counter s =
          (.ok r, (s.paid md).counted actor md.id counter)) ∨
        ∃ x, ¬ Carried x ∧ payUse md cfg actor targetId saveResolver counter s = (x, s)) := by
  unfold payUse
  by_cases hcost : 0 < md.strainCost
  · rw [if_pos hcost]
    rcases applySystemStrain_temporary md.strainCost cfg s.core with
      ⟨hmissing, e, hexec⟩ | ⟨pool, scfg, hpool, hcfg, ⟨hmax, r, happlied, hexec⟩ |
        ⟨hle, r, happlied, hexec⟩⟩
    all_goals rw [hexec]
    · refine .inr ⟨?_, .inr ⟨_, id, rfl⟩⟩
      rintro ⟨-, ⟨hsome, pool, hpool, -⟩, -⟩
      rcases hmissing with hnone | hnone
      · simp [hnone] at hpool
      · simp [hnone] at hsome
    · dsimp only
      rw [if_neg (by simp [happlied])]
      refine .inr ⟨?_, .inr ⟨_, by simp [Carried], rfl⟩⟩
      rintro ⟨-, ⟨-, pool', hpool', hle⟩, -⟩
      cases hpool.symm.trans hpool'
      exact not_lt.mpr hle hmax
    · have hpaid : ({ s with core := { s.core with
          systemStrain := some { pool with current := pool.current + md.strainCost } } } : UseState)
            = s.paid md := by
        rw [UseState.paid, CreatureCore.strainedBy, hpool]
        rfl
      have hcan : CanPay md cfg s.core := ⟨by simp [hcfg], pool, hpool, hle⟩
      dsimp only
      rw [if_pos happlied, hpaid]
      rcases finishUse_cases md (some r) (s.paid md) with ⟨hsave, e, heq⟩ | ⟨hsave, r', hr', heq⟩
      · exact .inl ⟨⟨hcost, hcan, hsave⟩, e, heq⟩
      · exact .inr ⟨fun h => hsave h.2.2, .inl ⟨r', hr', heq⟩⟩
  · rw [if_neg hcost]
    have hpaid : s.paid md = s := by
      have hzero : md.strainCost = 0 := by omega
      simp [UseState.paid, CreatureCore.strainedBy, hzero]
    rw [hpaid]
    refine .inr ⟨fun h => hcost h.1, ?_⟩
    rcases finishUse_cases md none s with ⟨-, e, heq⟩ | ⟨-, r, hr, heq⟩
    · exact .inr ⟨_, id, heq⟩
    · exact .inl ⟨r, hr, heq⟩

/-- Nothing was paid and nothing was used. -/
def UseState.Same (t s : UseState) : Prop :=
  t.core = s.core ∧ ∀ a m, t.mutations.uses a m = s.mutations.uses a m

/-- The use is allowed: the mutation is owned and its limit is not reached. -/
def Allowed (catalog : MutationCatalog) (actor mutationId : String) (s : MutationState)
    (md : PositiveMutationDef) : Prop :=
  catalog.positiveById mutationId = .ok md ∧ ∃ cs, s.characters.get? actor = some cs ∧
    mutationId ∈ cs.positiveIds ∧ (md.usage.isSome → s.uses actor mutationId < md.usesPerPeriod)

/-- What a use costs: both its strain and, if it is limited, one use; or nothing. -/
def AllOrNothing (catalog : MutationCatalog) (actor mutationId : String) (s : UseState)
    (after : Except (UseError ε) UseMutationResult × UseState) : Prop :=
  (Carried after.1 → ∃ md, Allowed catalog actor mutationId s.mutations md ∧
    after.2.core = s.core.strainedBy md.strainCost ∧ ∀ a m, after.2.mutations.uses a m =
      s.mutations.uses a m + if a = actor ∧ m = mutationId ∧ md.usage.isSome then 1 else 0) ∧
  (¬ Carried after.1 → after.2.Same s)

variable {catalog : MutationCatalog} {mutationId : String} {s : UseState}

theorem positiveById_id (h : catalog.positiveById mutationId = .ok md) : md.id = mutationId := by
  unfold MutationCatalog.positiveById at h
  split at h
  · next hfind =>
    cases h
    simpa using List.find?_some hfind
  · cases h

/-- Looking a counter up may write it, unused; it counts no use. -/
theorem same_of_counter (md : PositiveMutationDef) {cs : CharacterMutationState}
    (h : s.mutations.characters.get? actor = some cs) :
    ((cs.counter md).elim s (s.withCounter actor md.id)).Same s ∧
      (∃ cs', ((cs.counter md).elim s (s.withCounter actor md.id)).mutations.characters.get? actor
        = some cs') ∧
      ∀ c, cs.counter md = some c → c.used = s.mutations.uses actor md.id := by
  unfold CharacterMutationState.counter
  cases md.usage with
  | none => exact ⟨⟨rfl, fun _ _ => rfl⟩, ⟨cs, h⟩, by simp⟩
  | some period =>
    have hused : ((cs.usage.get? md.id).getD { period }).used = s.mutations.uses actor md.id := by
      unfold MutationState.uses MutationState.counter?
      rw [h, Option.bind_some]
      cases cs.usage.get? md.id <;> rfl
    refine ⟨⟨rfl, fun a m => ?_⟩, ?_, ?_⟩
    · refine (MutationState.uses_withCounter _ h _ _ a m).trans ?_
      split
      · next heq => rw [hused, heq.1, heq.2]
      · rfl
    · refine Option.isSome_iff_exists.mp ?_
      simp [UseState.withCounter, MutationState.withCounter, Dict.get?_modify, h]
    · rintro c ⟨⟩
      exact hused

theorem uses_counted {t : UseState} {cs : CharacterMutationState}
    (h : t.mutations.characters.get? actor = some cs)
    (hused : ∀ c, counter = some c → c.used = t.mutations.uses actor mutationId) (a m : String) :
    (t.counted actor mutationId counter).mutations.uses a m = t.mutations.uses a m +
      if a = actor ∧ m = mutationId ∧ counter.isSome then 1 else 0 := by
  cases counter with
  | none => simp [UseState.counted]
  | some c =>
    refine (MutationState.uses_withCounter _ h _ _ a m).trans ?_
    by_cases heq : a = actor ∧ m = mutationId
    · rw [if_pos heq, if_pos ⟨heq.1, heq.2, rfl⟩, heq.1, heq.2]
      exact congrArg (· + 1) (hused c rfl)
    · rw [if_neg heq, if_neg (fun h => heq ⟨h.1, h.2.1⟩), add_zero]

theorem limitReached_iff {cs : CharacterMutationState}
    (hused : ∀ c, cs.counter md = some c → c.used = s.mutations.uses actor md.id) :
    (cs.counter md).any (fun c => md.usesPerPeriod ≤ c.used) = true ↔
      ¬ (md.usage.isSome → s.mutations.uses actor md.id < md.usesPerPeriod) := by
  rw [Option.any_eq_true]
  constructor
  · rintro ⟨c, hc, hle⟩ hlt
    have hsome : md.usage.isSome = true := by
      simpa [CharacterMutationState.counter] using congrArg Option.isSome hc
    rw [hused c hc] at hle
    exact absurd (hlt hsome) (not_lt.mpr (of_decide_eq_true hle))
  · intro hreached
    obtain ⟨hsome, hle⟩ := Classical.not_imp.mp hreached
    obtain ⟨c, hc⟩ : ∃ c, cs.counter md = some c :=
      Option.isSome_iff_exists.mp (by simpa [CharacterMutationState.counter] using hsome)
    refine ⟨c, hc, decide_eq_true ?_⟩
    rw [hused c hc]
    exact not_lt.mp hle

theorem CanPay.strainedBy_ne {core : CreatureCore} (h : CanPay md cfg core)
    (hcost : 0 < md.strainCost) : core.strainedBy md.strainCost ≠ core := by
  obtain ⟨-, pool, hpool, -⟩ := h
  intro heq
  have hpools := congrArg CreatureCore.systemStrain heq
  rw [CreatureCore.strainedBy, hpool] at hpools
  have hcurrent := congrArg Ruleset.SystemStrainPool.current (Option.some.inj hpools)
  have hzero : (md.strainCost : ℚ) = 0 := left_eq_add.mp hcurrent.symm
  exact hcost.ne' (by exact_mod_cast hzero)

/-- A use that passed ownership and limit is paid for in a state that may have a new counter. -/
theorem useMutation_allowed {cs : CharacterMutationState}
    (hcs : s.mutations.characters.get? actor = some cs) (howned : md.id ∈ cs.positiveIds)
    (hmd : catalog.positiveById md.id = .ok md)
    (hlimit : (cs.counter md).any (fun c => md.usesPerPeriod ≤ c.used) ≠ true) :
    let t := (cs.counter md).elim s (s.withCounter actor md.id)
    let after := useMutation catalog cfg actor md.id targetId saveResolver s
    (saveResolver = none ∧ ∃ e, after = (.error e, t)) ∨
      after = payUse md cfg actor targetId saveResolver (cs.counter md) t := by
  unfold useMutation
  simp only [hcs, hmd]
  rw [if_neg (not_not.mpr howned), if_neg hlimit]
  cases md.saveStat with
  | none => exact .inr rfl
  | some stat =>
    cases saveResolver with
    | none => exact .inl ⟨rfl, _, rfl⟩
    | some resolve => exact .inr rfl

/-- **What a use comes to**: a save raises behind strain that was paid, and then no use is counted;
    or the use is all or nothing. -/
theorem useMutation_cases (catalog : MutationCatalog) (cfg : RulesetConfig)
    (actor mutationId targetId : String)
    (saveResolver : Option (String → String → Except ε SaveResult)) (s : UseState) :
    let after := useMutation catalog cfg actor mutationId targetId saveResolver s
    let unpaid := ∃ md, Allowed catalog actor mutationId s.mutations md ∧ 0 < md.strainCost ∧
      CanPay md cfg s.core ∧ SaveRaises md targetId saveResolver
    (unpaid ∧ ¬ Carried after.1 ∧ after.2.core ≠ s.core ∧
      ∀ a m, after.2.mutations.uses a m = s.mutations.uses a m) ∨
    ¬ unpaid ∧ AllOrNothing catalog actor mutationId s after := by
  intro after unpaid
  -- a refusal before anything was paid
  have hrefused : ∀ x t, after = (x, t) → ¬ Carried x → t.Same s → ¬ unpaid →
      ¬ unpaid ∧ AllOrNothing catalog actor mutationId s after := by
    intro x t heq hx ht hun
    rw [heq]
    exact ⟨hun, fun h => absurd h hx, fun _ => ht⟩
  have hsame : s.Same s := ⟨rfl, fun _ _ => rfl⟩
  cases hcs : s.mutations.characters.get? actor with
  | none =>
    refine .inr (hrefused _ s (by simp only [after, useMutation, hcs]; rfl) (by simp [Carried])
      hsame ?_)
    rintro ⟨_, ⟨-, cs, hcs', -⟩, -⟩
    cases hcs.symm.trans hcs'
  | some cs =>
    by_cases howned : mutationId ∉ cs.positiveIds
    · refine .inr (hrefused _ s (by simp only [after, useMutation, hcs]; rw [if_pos howned])
        (by simp [Carried]) hsame ?_)
      rintro ⟨_, ⟨-, cs', hcs', hmem, -⟩, -⟩
      rw [Option.some.inj (hcs'.symm.trans hcs)] at hmem
      exact howned hmem
    · cases hmd : catalog.positiveById mutationId with
      | error e =>
        refine .inr (hrefused _ s (by simp only [after, useMutation, hcs, hmd]; rw [if_neg howned])
          id hsame ?_)
        rintro ⟨_, ⟨hmd', -⟩, -⟩
        cases hmd.symm.trans hmd'
      | ok md =>
        obtain rfl := positiveById_id hmd
        obtain ⟨ht, ⟨cs', hcs'⟩, hused⟩ := same_of_counter md hcs
        set t := (cs.counter md).elim s (s.withCounter actor md.id)
        have hmd' : ∀ {md'}, Allowed catalog actor md.id s.mutations md' → md' = md := fun h =>
          Except.ok.inj (h.1.symm.trans hmd)
        by_cases hlimit : (cs.counter md).any (fun c => md.usesPerPeriod ≤ c.used) = true
        · refine .inr (hrefused _ t (by
            simp only [after, useMutation, hcs, hmd]
            rw [if_neg howned, if_pos hlimit]) (by simp [Carried]) ht ?_)
          rintro ⟨md', hallowed, -⟩
          obtain rfl := hmd' hallowed
          obtain ⟨-, -, -, -, hlt⟩ := hallowed
          exact (limitReached_iff hused).mp hlimit hlt
        · have hallowed : Allowed catalog actor md.id s.mutations md :=
            ⟨hmd, cs, hcs, not_not.mp howned,
              not_not.mp (fun h => hlimit ((limitReached_iff hused).mpr h))⟩
          rcases useMutation_allowed hcs (not_not.mp howned) hmd hlimit with
            ⟨hnone, e, heq⟩ | heq
          · refine .inr (hrefused _ t heq id ht ?_)
            rintro ⟨_, -, -, -, _, _, _, -, hsome, -⟩
            cases hnone.symm.trans hsome
          rcases payUse_cases t with ⟨⟨hcost, hcan, hraises⟩, e, hpaid⟩ |
            ⟨hnot, ⟨r, hr, hpaid⟩ | ⟨x, hx, hpaid⟩⟩
          all_goals replace heq : after = _ := heq.trans hpaid
          · rw [heq]
            refine .inl ⟨⟨md, hallowed, hcost, ht.1 ▸ hcan, hraises⟩, id, ?_, ht.2⟩
            exact fun hcore => hcan.strainedBy_ne hcost (hcore.trans ht.1.symm)
          all_goals
            have hun : ¬ unpaid := by
              rintro ⟨md', hallowed', hcost, hcan, hraises⟩
              obtain rfl := hmd' hallowed'
              exact hnot ⟨hcost, ht.1 ▸ hcan, hraises⟩
          · rw [heq]
            refine .inr ⟨hun, fun _ => ⟨md, hallowed, ?_, fun a m => ?_⟩, fun h => absurd hr h⟩
            · rw [UseState.counted_core, UseState.paid, ht.1]
            · have hcount := uses_counted (t := t.paid md) hcs'
                (fun c hc => (hused c hc).trans (ht.2 actor md.id).symm) a m
              rw [hcount, show (t.paid md).mutations.uses a m = s.mutations.uses a m from ht.2 a m,
                CharacterMutationState.counter, Option.isSome_map]
          · exact .inr (hrefused x t heq hx ht hun)

/-- What happens at the table: a use by anyone, of any creature, or a reset of the counters. -/
inductive UseEvent (ε : Type)
  | use (cfg : RulesetConfig) (core : CreatureCore) (actor mutationId targetId : String)
      (saveResolver : Option (String → String → Except ε SaveResult))
  | resetScene
  | resetDay

/-- The state, and how often an actor used a mutation since its counter was last reset. -/
def UseEvent.step (catalog : MutationCatalog) (actor mutationId : String) :
    MutationState × Nat → UseEvent ε → MutationState × Nat
  | (s, n), .use cfg core a m targetId saveResolver =>
    let after := useMutation catalog cfg a m targetId saveResolver ⟨s, core⟩
    (after.2.mutations, if a = actor ∧ m = mutationId ∧ Carried after.1 then n + 1 else n)
  | (s, n), .resetScene => (s.resetScene,
      if (s.counter? actor mutationId).any (·.period = .perScene) then 0 else n)
  | (s, _), .resetDay => (s.resetDay, 0)

/-- The uses since the reset are counted, and are no more than the limit. -/
def WithinLimit (md : PositiveMutationDef) (actor mutationId : String) (x : MutationState × Nat) :
    Prop :=
  (x.2 : Int) ≤ x.1.uses actor mutationId ∧ x.2 ≤ md.usesPerPeriod.toNat

theorem WithinLimit.step (hmd : catalog.positiveById mutationId = .ok md)
    (hlimited : md.usage.isSome) {x : MutationState × Nat} (h : WithinLimit md actor mutationId x)
    (event : UseEvent ε) :
    WithinLimit md actor mutationId (event.step catalog actor mutationId x) := by
  obtain ⟨s, n⟩ := x
  obtain ⟨hcounted, hlimit⟩ := h
  cases event with
  | use cfg core a m targetId saveResolver =>
    have hcases := useMutation_cases catalog cfg a m targetId saveResolver ⟨s, core⟩
    unfold UseEvent.step WithinLimit
    dsimp only at hcases hcounted hlimit ⊢
    set after := useMutation catalog cfg a m targetId saveResolver ⟨s, core⟩
    by_cases hcarried : Carried after.1
    · obtain ⟨md', ⟨hmd', -, -, -, hlt⟩, -, huses⟩ :=
        (hcases.resolve_left (·.2.1 hcarried)).2.1 hcarried
      rw [huses]
      by_cases heq : a = actor ∧ m = mutationId
      · obtain ⟨rfl, rfl⟩ := heq
        obtain rfl := Except.ok.inj (hmd'.symm.trans hmd)
        have hleft : s.uses a m < md'.usesPerPeriod := hlt hlimited
        rw [if_pos ⟨rfl, rfl, hcarried⟩, if_pos ⟨rfl, rfl, hlimited⟩]
        exact ⟨Int.add_le_add_right hcounted 1, Int.le_toNat (by omega) |>.mpr (by omega)⟩
      · rw [if_neg (fun h => heq ⟨h.1, h.2.1⟩), if_neg (fun h => heq ⟨h.1.symm, h.2.1.symm⟩)]
        exact ⟨hcounted.trans (le_of_eq (add_zero _).symm), hlimit⟩
    · have huses : after.2.mutations.uses actor mutationId = s.uses actor mutationId := by
        rcases hcases with ⟨-, -, -, huses⟩ | ⟨-, -, hsame⟩
        · exact huses _ _
        · exact (hsame hcarried).2 _ _
      rw [huses, if_neg (fun h => hcarried h.2.2)]
      exact ⟨hcounted, hlimit⟩
  | resetScene =>
    change ((if _ then 0 else n : Nat) : Int) ≤ s.resetScene.uses _ _ ∧ (if _ then 0 else n) ≤ _
    rw [MutationState.resetScene, MutationState.uses_resetCounters]
    split
    · exact ⟨le_rfl, Nat.zero_le _⟩
    · exact ⟨hcounted, hlimit⟩
  | resetDay =>
    refine ⟨?_, Nat.zero_le _⟩
    change (0 : Int) ≤ s.resetDay.uses _ _
    rw [MutationState.resetDay, MutationState.uses_resetCounters]
    split
    · exact le_rfl
    · exact (Int.natCast_nonneg n).trans hcounted

/-- **A use costs both its strain and its use, or neither**, exactly where no save raises behind
    strain that was paid; and between two resets there are no more uses than the limit. -/
theorem useMutation_allOrNothing_iff (hmd : catalog.positiveById mutationId = .ok md)
    (hlimited : md.usage.isSome) {start : MutationState} (hstart : 0 ≤ start.uses actor mutationId)
    (events : List (UseEvent ε)) : (∀ (cfg : RulesetConfig) (a m targetId : String)
      (saveResolver : Option (String → String → Except ε SaveResult)) (s : UseState),
      AllOrNothing catalog a m s (useMutation catalog cfg a m targetId saveResolver s) ↔
        ¬ ∃ md, Allowed catalog a m s.mutations md ∧ 0 < md.strainCost ∧ CanPay md cfg s.core ∧
          SaveRaises md targetId saveResolver) ∧
    Throughout (UseEvent.step catalog actor mutationId) (fun x => x.2 ≤ md.usesPerPeriod.toNat)
      (start, 0) events := by
  constructor
  · intro cfg a m targetId saveResolver s
    rcases useMutation_cases catalog cfg a m targetId saveResolver s with
      ⟨hraises, hnot, hcore, -⟩ | ⟨hfine, hlaw⟩
    · exact iff_of_false (fun h => hcore (h.2 hnot).1) (not_not.mpr hraises)
    · exact iff_of_true hlaw hfine
  · have hall : Throughout (UseEvent.step catalog actor mutationId)
        (WithinLimit md actor mutationId) (start, 0) events :=
      throughout_of_step (fun x event h => h.step hmd hlimited event)
        ⟨hstart, Nat.zero_le _⟩ events
    exact hall.mono (fun x h => h.2)

/-- A lash that strains its actor once a scene, and that its target may save against. -/
def lash : PositiveMutationDef :=
  { id := "lash", category := "body", strainCost := 1, usage := some .perScene
    save := some { stat := some "physical" } }

def lashing : MutationCatalog :=
  ⟨{}, ⟨fun _ => "", fun _ => "", fun _ => ""⟩, [], [lash]⟩

def lasher : MutationState :=
  ⟨⟨[("Rek", { mpRemaining := 0, positiveIds := ["lash"] })], by simp⟩, 0⟩

/-- Two lashes in one scene, of which the second is refused, and one in the next scene. -/
def lashes : List (UseEvent Unit) :=
  let lashOnce := .use (.cwn {}) ⟨"Rek", some { max := 3 }, .empty⟩ "Rek" "lash" "foe" none
  [lashOnce, lashOnce, .resetScene, lashOnce, .resetDay]

theorem useMutation_allOrNothing_iff_lash :
    (∀ (cfg : RulesetConfig) (a m targetId : String)
      (saveResolver : Option (String → String → Except Unit SaveResult)) (s : UseState),
      AllOrNothing lashing a m s (useMutation lashing cfg a m targetId saveResolver s) ↔
        ¬ ∃ md, Allowed lashing a m s.mutations md ∧ 0 < md.strainCost ∧ CanPay md cfg s.core ∧
          SaveRaises md targetId saveResolver) ∧
    Throughout (UseEvent.step lashing "Rek" "lash") (fun x => x.2 ≤ lash.usesPerPeriod.toNat)
      (lasher, 0) lashes :=
  useMutation_allOrNothing_iff rfl rfl (by decide) _

/-- The strain for a lash at a target that is not there is paid, and its use is not counted. -/
theorem not_allOrNothing : ∃ cfg core,
    ∃ resolver : Option (String → String → Except Unit SaveResult), ¬ AllOrNothing lashing "Rek" "lash"
    ⟨lasher, core⟩ (useMutation lashing cfg "Rek" "lash" "gone" resolver
      ⟨lasher, core⟩) := by
  refine ⟨.cwn {}, ⟨"Rek", some { max := 3 }, .empty⟩, some (fun _ _ => .error ()), fun h => ?_⟩
  rcases useMutation_cases lashing (.cwn {}) "Rek" "lash" "gone" (some (fun _ _ => .error ()))
    ⟨lasher, ⟨"Rek", some { max := 3 }, .empty⟩⟩ with ⟨-, hnot, hcore, -⟩ | ⟨hfine, -⟩
  · exact hcore (h.2 hnot).1
  · refine hfine ⟨lash, ⟨rfl, _, rfl, by decide, fun _ => by decide⟩, by decide,
      ⟨rfl, _, rfl, ?_⟩, "physical", _, (), rfl, rfl, rfl⟩
    norm_num [lash]

end Sidequest.Mutation
