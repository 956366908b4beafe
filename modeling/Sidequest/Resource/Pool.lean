import Mathlib.Algebra.Order.Ring.Rat
import Sidequest.Lib.Clamp
import Sidequest.Lib.Dict
import Sidequest.Lib.Effect
import Sidequest.Lib.Run

namespace Sidequest.Resource

open Lib Effect

/-!
# Resource pools

Each value should stay between its bounds, and each threshold that a value passes should be
reported, once for each step that passes it. Patches and ticks do so. A declaration brings a value
between other bounds, but reports nothing.

* `ResourcePool.applyAndClamp` — a change of one value, with the thresholds that are crossed;
* `ResourcePool.Within`, `AllWithin` — values between their bounds;
* `kept_iff` — runs.
-/

/-! ### Thresholds -/

/-- Which way a value has to go to cross a threshold. -/
inductive Direction where
  | down
  | up
deriving DecidableEq

/-- A threshold, with its event and a hint for the narrator. -/
structure ResourceThreshold where
  «at» : ℚ
  (eventId narratorHint : String)
  direction : Direction := .down
deriving DecidableEq

/-- The thresholds that a change of a value crosses: it falls from above to the threshold or below
    it, or rises from below to the threshold or above it. -/
def detectCrossings (thresholds : List ResourceThreshold) (oldValue newValue : ℚ) :
    List ResourceThreshold :=
  thresholds.filter (fun t =>
    (t.direction = .down && oldValue > t.at && newValue ≤ t.at) ||
      (t.direction = .up && oldValue < t.at && newValue ≥ t.at))

/-! ### Pools -/

/-- What a patch does. -/
inductive ResourcePatchOp where
  | add
  | subtract
  | set
deriving DecidableEq

/-- A patch of one pool. -/
structure ResourcePatch where
  resourceName : String
  operation : ResourcePatchOp
  value : ℚ

/-- Why a patch is refused. -/
inductive ResourcePatchError where
  | unknownResource (name : String)
  | notVoluntary (name : String)

/-- What a patch has done. -/
structure ResourcePatchResult where
  (oldValue newValue : ℚ)
  crossedThresholds : List ResourceThreshold

/-- A pool. -/
structure ResourcePool where
  name : String
  label : String := ""
  (current min max : ℚ)
  voluntary : Bool
  decayPerTurn : ℚ
  thresholds : List ResourceThreshold := []

variable (pool : ResourcePool)

/-- Change the value, bring it between the bounds, and see which thresholds were crossed. -/
def ResourcePool.applyAndClamp (op : ResourcePatchOp) (value : ℚ) :
    ResourcePatchResult × ResourcePool :=
  let raw := match op with
    | .add => pool.current + value
    | .subtract => pool.current - value
    | .set => value
  let current := clamp pool.min pool.max raw
  ({ oldValue := pool.current
     newValue := current
     crossedThresholds := detectCrossings pool.thresholds pool.current current },
    { pool with current := current })

/-- The pools of a snapshot, by their names. -/
abbrev Resources := Dict String ResourcePool

/-! ### Patches -/

/-- Patch a pool as the engine does. -/
def applyResourcePatch (patch : ResourcePatch) :
    Effect ResourcePatchError Resources ResourcePatchResult := do
  let resources ← get
  match resources.get? patch.resourceName with
  | none => throw (.unknownResource patch.resourceName)
  | some pool =>
    let (result, pool') := pool.applyAndClamp patch.operation patch.value
    set (resources.insert patch.resourceName pool')
    pure result

/-- Patch a pool for a player, who spends only what may be spent voluntarily. -/
def applyResourcePatchPlayer (patch : ResourcePatch) :
    Effect ResourcePatchError Resources ResourcePatchResult := do
  if patch.operation = .subtract then
    let resources ← get
    match resources.get? patch.resourceName with
    | none => throw (.unknownResource patch.resourceName)
    | some pool => if !pool.voluntary then throw (.notVoluntary patch.resourceName)
  applyResourcePatch patch

/-! ### Decay -/

/-- The difference between one and the next floating point number. -/
def epsilon : ℚ := 1 / 2 ^ 52

/-- One tick of a pool; what decays by next to nothing is left alone. -/
def ResourcePool.decay : List ResourceThreshold × ResourcePool :=
  if |pool.decayPerTurn| < epsilon then ([], pool)
  else
    let (result, pool') := pool.applyAndClamp .add pool.decayPerTurn
    (result.crossedThresholds, pool')

/-- One tick of all pools, with all thresholds that are crossed. -/
def applyPoolDecay (resources : Resources) : List ResourceThreshold × Resources :=
  (resources.values.flatMap (fun pool => pool.decay.1), resources.mapValues (fun pool => pool.decay.2))

/-! ### Declarations -/

/-- A threshold as it is declared. -/
structure ResourceThresholdDecl where
  «at» : ℚ
  (eventId narratorHint : String)

/-- A pool as a genre pack declares it. The bounds are in order, and it starts between them. -/
structure ResourceDeclaration where
  (name label : String)
  (min max starting : ℚ)
  voluntary : Bool
  decayPerTurn : ℚ
  thresholds : List ResourceThresholdDecl := []
  ordered : min ≤ max
  startsWithin : min ≤ starting ∧ starting ≤ max

/-- The thresholds of a pool that is declared so. -/
def ResourceDeclaration.poolThresholds (decl : ResourceDeclaration) : List ResourceThreshold :=
  decl.thresholds.map (fun t => { «at» := t.at, eventId := t.eventId, narratorHint := t.narratorHint })

/-- Lay one declaration over the pools: a pool that is there keeps its value as far as the bounds
    let it, and another one starts. -/
def initResourcePool (resources : Resources) (decl : ResourceDeclaration) : Resources :=
  match resources.get? decl.name with
  | some existing => resources.insert decl.name { existing with
      label := decl.label
      min := decl.min
      max := decl.max
      voluntary := decl.voluntary
      decayPerTurn := decl.decayPerTurn
      thresholds := decl.poolThresholds
      current := clamp decl.min decl.max existing.current }
  | none => resources.insert decl.name {
      name := decl.name
      label := decl.label
      current := decl.starting
      min := decl.min
      max := decl.max
      voluntary := decl.voluntary
      decayPerTurn := decl.decayPerTurn
      thresholds := decl.poolThresholds }

/-- Lay the declarations of a genre pack over the pools. -/
def initResourcePools (resources : Resources) (declarations : List ResourceDeclaration) : Resources :=
  declarations.foldl initResourcePool resources

/-! ### Events -/

/-- What may happen to the pools. -/
inductive Event where
  | patch (patch : ResourcePatch)
  | playerPatch (patch : ResourcePatch)
  | decay
  | init (declarations : List ResourceDeclaration)

/-- The outcome of a patch, as it is seen by whoever asked for it. -/
def patched (m : Effect ResourcePatchError Resources ResourcePatchResult) (resources : Resources) :
    List ResourceThreshold × Resources :=
  match m.exec resources with
  | (.ok result, resources') => (result.crossedThresholds, resources')
  | (.error _, resources') => ([], resources')

/-- What is reported of an event, and the pools after it. -/
def outcome (resources : Resources) : Event → List ResourceThreshold × Resources
  | .patch patch => patched (applyResourcePatch patch) resources
  | .playerPatch patch => patched (applyResourcePatchPlayer patch) resources
  | .decay => applyPoolDecay resources
  | .init declarations => ([], initResourcePools resources declarations)

/-- The pools after an event. -/
def step (resources : Resources) (event : Event) : Resources := (outcome resources event).2

/-- The thresholds that are reported of an event. -/
def reports (resources : Resources) (event : Event) : List ResourceThreshold :=
  (outcome resources event).1

/-! ### What should hold -/

/-- The value lies between the bounds. -/
def ResourcePool.Within : Prop :=
  pool.min ≤ pool.current ∧ pool.current ≤ pool.max

/-- All values lie between their bounds. -/
def AllWithin (resources : Resources) : Prop :=
  ∀ name pool, resources.get? name = some pool → pool.Within

/-- A change passes the threshold, the way the threshold goes. -/
def ResourceThreshold.Passed (t : ResourceThreshold) (oldValue newValue : ℚ) : Prop :=
  match t.direction with
  | .down => t.at < oldValue ∧ newValue ≤ t.at
  | .up => oldValue < t.at ∧ t.at ≤ newValue

instance (t : ResourceThreshold) (oldValue newValue : ℚ) : Decidable (t.Passed oldValue newValue) := by
  unfold ResourceThreshold.Passed
  cases t.direction with
  | down => exact inferInstanceAs (Decidable (_ ∧ _))
  | up => exact inferInstanceAs (Decidable (_ ∧ _))

/-- The thresholds of a pool that its value has passed. -/
def passedBy (pool' : ResourcePool) : List ResourceThreshold :=
  pool'.thresholds.filter (fun t => t.Passed pool.current pool'.current)

/-- The thresholds that are passed between two states, pool by pool. -/
def passed (resources resources' : Resources) : List ResourceThreshold :=
  resources.entries.flatMap (fun entry =>
    match resources'.get? entry.1 with
    | none => []
    | some pool' => passedBy entry.2 pool')

/-- An event reports each threshold that it passes, once, and no other. -/
def ReportsExactly (resources : Resources) (event : Event) : Prop :=
  (reports resources event).Perm (passed resources (step resources event))

instance (resources : Resources) (event : Event) : Decidable (ReportsExactly resources event) :=
  inferInstanceAs (Decidable (List.Perm _ _))

/-! ### What is crossed -/

section Thresholds

variable {resources resources' : Resources} {name : String} {pool pool' : ResourcePool}

theorem detectCrossings_eq (thresholds : List ResourceThreshold) (oldValue newValue : ℚ) :
    detectCrossings thresholds oldValue newValue =
      thresholds.filter (·.Passed oldValue newValue) := by
  refine List.filter_congr (fun t _ => ?_)
  obtain ⟨level, eventId, hint, direction⟩ := t
  rw [Bool.eq_iff_iff, decide_eq_true_iff]
  cases direction with
  | down => simp [ResourceThreshold.Passed]
  | up => simp [ResourceThreshold.Passed]

/-- What does not change passes nothing. -/
theorem passedBy_of_current (h : pool'.current = pool.current) : passedBy pool pool' = [] := by
  refine List.filter_eq_nil_iff.mpr (fun t _ hpassed => ?_)
  have hpassed := of_decide_eq_true hpassed
  unfold ResourceThreshold.Passed at hpassed
  rw [h] at hpassed
  split at hpassed
  · exact absurd hpassed.1 (not_lt_of_ge hpassed.2)
  · exact absurd hpassed.1 (not_lt_of_ge hpassed.2)

theorem passed_eq_nil_iff : passed resources resources' = [] ↔
    ∀ name pool pool', resources.get? name = some pool → resources'.get? name = some pool' →
      passedBy pool pool' = [] := by
  unfold passed
  rw [List.flatMap_eq_nil_iff]
  constructor
  · intro h name pool pool' hget hget'
    have hentry := h (name, pool) (Dict.get?_eq_some_iff.mp hget)
    simp only [hget'] at hentry
    exact hentry
  · rintro h ⟨name, pool⟩ hmem
    split
    · rfl
    · rename_i pool' hget'
      exact h name pool pool' (Dict.get?_eq_some_iff.mpr hmem) hget'

theorem passed_self (resources : Resources) : passed resources resources = [] := by
  refine passed_eq_nil_iff.mpr (fun name pool pool' hget hget' => ?_)
  cases hget.symm.trans hget'
  exact passedBy_of_current rfl

theorem passed_insert (hget : resources.get? name = some pool) :
    passed resources (resources.insert name pool') = passedBy pool pool' := by
  obtain ⟨before, after, hsplit⟩ := List.append_of_mem (Dict.get?_eq_some_iff.mp hget)
  have hnodup := resources.nodup
  rw [hsplit, List.map_append, List.map_cons] at hnodup
  obtain ⟨-, hafter, hdisjoint⟩ := List.nodup_append.mp hnodup
  -- all other entries bear other names
  have hother : ∀ entry ∈ resources.entries, entry.1 ≠ name →
      (match (resources.insert name pool').get? entry.1 with
        | none => []
        | some pool'' => passedBy entry.2 pool'') = [] := by
    rintro ⟨other, pool''⟩ hmem hne
    rw [Dict.get?_insert, if_neg hne, Dict.get?_eq_some_iff.mpr hmem]
    exact passedBy_of_current rfl
  have hbefore : ∀ entry ∈ before, entry.1 ≠ name := fun entry hmem =>
    hdisjoint _ (List.mem_map_of_mem hmem) _ (.head _)
  have hbehind : ∀ entry ∈ after, entry.1 ≠ name := by
    rintro ⟨other, pool''⟩ hmem rfl
    exact (List.nodup_cons.mp hafter).1 (List.mem_map.mpr ⟨_, hmem, rfl⟩)
  unfold passed
  rw [hsplit] at hother ⊢
  rw [List.flatMap_append, List.flatMap_cons,
    List.flatMap_eq_nil_iff.mpr (fun entry hmem => hother entry (by simp [hmem]) (hbefore entry hmem)),
    List.flatMap_eq_nil_iff.mpr (fun entry hmem => hother entry (by simp [hmem]) (hbehind entry hmem))]
  simp

end Thresholds

/-! ### Patches and ticks -/

section Patches

variable {resources : Resources} {patch : ResourcePatch}

theorem applyAndClamp_crossed (op : ResourcePatchOp) (value : ℚ) :
    (pool.applyAndClamp op value).1.crossedThresholds =
      passedBy pool (pool.applyAndClamp op value).2 :=
  detectCrossings_eq _ _ _

theorem within_applyAndClamp {pool : ResourcePool} (h : pool.Within) (op : ResourcePatchOp)
    (value : ℚ) : (pool.applyAndClamp op value).2.Within :=
  ⟨le_clamp _ _ _, clamp_le (h.1.trans h.2) _⟩

/-- **A patch** changes the pool it names, or nothing. -/
theorem patched_applyResourcePatch (patch : ResourcePatch) (resources : Resources) :
    patched (applyResourcePatch patch) resources =
      match resources.get? patch.resourceName with
      | none => ([], resources)
      | some pool => ((pool.applyAndClamp patch.operation patch.value).1.crossedThresholds,
          resources.insert patch.resourceName (pool.applyAndClamp patch.operation patch.value).2) := by
  unfold patched applyResourcePatch
  rw [exec_get_bind]
  cases resources.get? patch.resourceName with
  | none => rfl
  | some pool => rfl

/-- **A player's patch** is refused, or is the engine's. -/
theorem patched_applyResourcePatchPlayer (patch : ResourcePatch) (resources : Resources) :
    patched (applyResourcePatchPlayer patch) resources = ([], resources) ∨
      patched (applyResourcePatchPlayer patch) resources =
        patched (applyResourcePatch patch) resources := by
  unfold patched applyResourcePatchPlayer
  by_cases hspend : patch.operation = .subtract
  · rw [if_pos hspend]
    rw [exec_get_bind]
    cases resources.get? patch.resourceName with
    | none => exact .inl rfl
    | some pool =>
      cases hvoluntary : pool.voluntary with
      | false =>
        simp only [hvoluntary]
        exact .inl rfl
      | true =>
        simp only [hvoluntary]
        exact .inr rfl
  · rw [if_neg hspend]
    exact .inr rfl

/-- The engine's patch reports what it passes. -/
theorem patched_perm_passed (patch : ResourcePatch) (resources : Resources) :
    (patched (applyResourcePatch patch) resources).1.Perm
      (passed resources (patched (applyResourcePatch patch) resources).2) := by
  rw [patched_applyResourcePatch]
  cases hget : resources.get? patch.resourceName with
  | none =>
    rw [passed_self]
  | some pool =>
    dsimp only
    rw [passed_insert hget, applyAndClamp_crossed]

/-- **A patch** reports what it passes. -/
theorem reportsExactly_patch (patch : ResourcePatch) (resources : Resources) :
    ReportsExactly resources (.patch patch) ∧ ReportsExactly resources (.playerPatch patch) := by
  refine ⟨patched_perm_passed patch resources, ?_⟩
  show (patched (applyResourcePatchPlayer patch) resources).1.Perm
    (passed resources (patched (applyResourcePatchPlayer patch) resources).2)
  rcases patched_applyResourcePatchPlayer patch resources with hrefused | hsame
  · rw [hrefused, passed_self]
  · rw [hsame]
    exact patched_perm_passed patch resources

/-- One tick of a pool adds to it, or leaves it alone. -/
theorem decay_cases : pool.decay = ([], pool) ∨
    pool.decay = ((pool.applyAndClamp .add pool.decayPerTurn).1.crossedThresholds,
      (pool.applyAndClamp .add pool.decayPerTurn).2) := by
  unfold ResourcePool.decay
  by_cases hsmall : |pool.decayPerTurn| < epsilon
  · exact .inl (if_pos hsmall)
  · exact .inr (if_neg hsmall)

theorem decay_crossed : pool.decay.1 = passedBy pool pool.decay.2 := by
  rcases decay_cases pool with hstays | hdecays
  · rw [hstays]
    exact (passedBy_of_current rfl).symm
  · rw [hdecays]
    exact applyAndClamp_crossed pool .add pool.decayPerTurn

/-- **A tick** reports what it passes, of all pools. -/
theorem reportsExactly_decay (resources : Resources) : ReportsExactly resources .decay := by
  show (resources.values.flatMap (·.decay.1)).Perm
    (passed resources (resources.mapValues (·.decay.2)))
  unfold passed Dict.values
  rw [List.flatMap_map]
  refine List.Perm.of_eq (List.flatMap_congr ?_)
  rintro ⟨name, pool⟩ hmem
  rw [Dict.get?_mapValues, Dict.get?_eq_some_iff.mpr hmem]
  exact decay_crossed pool

theorem allWithin_insert {name : String} {pool : ResourcePool} (h : AllWithin resources)
    (hpool : pool.Within) : AllWithin (resources.insert name pool) := by
  intro other pool' hget
  rw [Dict.get?_insert] at hget
  split at hget
  · cases hget
    exact hpool
  · exact h other pool' hget

theorem allWithin_applyResourcePatch (h : AllWithin resources) (patch : ResourcePatch) :
    AllWithin (patched (applyResourcePatch patch) resources).2 := by
  rw [patched_applyResourcePatch]
  cases hget : resources.get? patch.resourceName with
  | none => exact h
  | some pool => exact allWithin_insert h (within_applyAndClamp (h _ _ hget) _ _)

theorem allWithin_applyPoolDecay (h : AllWithin resources) :
    AllWithin (applyPoolDecay resources).2 := by
  intro name pool hget
  have hget' : (resources.mapValues (·.decay.2)).get? name = some pool := hget
  rw [Dict.get?_mapValues] at hget'
  obtain ⟨old, hold, rfl⟩ := Option.map_eq_some_iff.mp hget'
  rcases decay_cases old with hstays | hdecays
  · rw [hstays]
    exact h name old hold
  · rw [hdecays]
    exact within_applyAndClamp (h name old hold) .add old.decayPerTurn

end Patches

/-! ### What runs declare -/

/-- The declarations of one pool. -/
def declared (name : String) (declarations : List ResourceDeclaration) : List ResourceDeclaration :=
  declarations.filter (fun decl => decl.name = name)

/-- The bounds of declarations. -/
def bounds (declarations : List ResourceDeclaration) : List (ℚ × ℚ) :=
  declarations.map (fun decl => (decl.min, decl.max))

/-- Declarations pass nothing: of a pool that is there, and whose value is above a threshold it is
    declared with, they leave more than the threshold at most. -/
def ReclampsQuietly (resources : Resources) : Event → Prop
  | .init declarations => ∀ name pool top decl, resources.get? name = some pool →
      ceiling (bounds (declared name declarations)) = some top →
      (declared name declarations).getLast? = some decl →
      ∀ t ∈ decl.thresholds, ¬ (top ≤ t.at ∧ t.at < pool.current)
  | _ => True

section Declarations

variable {resources : Resources} {declarations : List ResourceDeclaration} {name : String}
  {pool : ResourcePool}

theorem ordered_of_mem_bounds : ∀ b ∈ bounds declarations, b.1 ≤ b.2 := by
  intro b hb
  obtain ⟨decl, -, rfl⟩ := List.mem_map.mp hb
  exact decl.ordered

variable {decl : ResourceDeclaration}

/-- One declaration of a pool that is there. -/
theorem get?_initResourcePool_same (hget : resources.get? decl.name = some pool) :
    ∃ pool', (initResourcePool resources decl).get? decl.name = some pool' ∧
      pool'.current = clamp decl.min decl.max pool.current ∧
      pool'.thresholds = decl.poolThresholds := by
  unfold initResourcePool
  rw [hget]
  rw [Dict.get?_insert, if_pos rfl]
  exact ⟨_, rfl, rfl, rfl⟩

theorem get?_initResourcePool_other (hne : name ≠ decl.name) :
    (initResourcePool resources decl).get? name = resources.get? name := by
  unfold initResourcePool
  split
  · rw [Dict.get?_insert, if_neg hne]
  · rw [Dict.get?_insert, if_neg hne]

/-- **A pool after declarations**: its value was brought between their bounds, one after another,
    and its thresholds are those of the last one. -/
theorem get?_initResourcePools (declarations : List ResourceDeclaration)
    (hget : resources.get? name = some pool) :
    ∃ pool', (initResourcePools resources declarations).get? name = some pool' ∧
      pool'.current = clampAll (bounds (declared name declarations)) pool.current ∧
      pool'.thresholds = match (declared name declarations).getLast? with
        | none => pool.thresholds
        | some decl => decl.poolThresholds := by
  unfold initResourcePools
  induction declarations generalizing resources pool with
  | nil => exact ⟨pool, hget, rfl, rfl⟩
  | cons decl declarations ih =>
    by_cases hname : decl.name = name
    · subst hname
      obtain ⟨pool', hget', hcurrent, hthresholds⟩ := get?_initResourcePool_same hget
      obtain ⟨pool'', hget'', hcurrent', hthresholds'⟩ := ih hget'
      have hdeclared : declared decl.name (decl :: declarations) =
          decl :: declared decl.name declarations := List.filter_cons_of_pos (by simp)
      refine ⟨pool'', hget'', ?_, ?_⟩
      · rw [hcurrent', hcurrent, hdeclared]
        rfl
      · rw [hthresholds', hdeclared, hthresholds]
        cases declared decl.name declarations with
        | nil => rfl
        | cons next rest =>
          obtain ⟨last, hlast⟩ : ∃ last, (next :: rest).getLast? = some last :=
            ⟨_, List.getLast?_eq_some_getLast (by simp)⟩
          rw [List.getLast?_cons_cons, hlast]
    · have hdeclared : declared name (decl :: declarations) = declared name declarations :=
        List.filter_cons_of_neg (by simpa using hname)
      rw [hdeclared]
      exact ih ((get?_initResourcePool_other (Ne.symm hname)).trans hget)

theorem allWithin_initResourcePools (h : AllWithin resources) :
    AllWithin (initResourcePools resources declarations) := by
  unfold initResourcePools
  induction declarations generalizing resources with
  | nil => exact h
  | cons decl declarations ih =>
    refine ih ?_
    unfold initResourcePool
    split
    · exact allWithin_insert h ⟨le_clamp _ _ _, clamp_le decl.ordered _⟩
    · exact allWithin_insert h decl.startsWithin

theorem passedBy_declared_eq_nil_iff {pool' : ResourcePool}
    (h : pool'.thresholds = decl.poolThresholds) : passedBy pool pool' = [] ↔
      ∀ t ∈ decl.thresholds, ¬ (t.at < pool.current ∧ pool'.current ≤ t.at) := by
  unfold passedBy ResourceDeclaration.poolThresholds at *
  rw [h, List.filter_eq_nil_iff, List.forall_mem_map]
  simp only [decide_eq_true_eq]
  exact Iff.rfl

/-- **Declarations** report what they pass exactly if they pass nothing. -/
theorem reportsExactly_init_iff (resources : Resources) (declarations : List ResourceDeclaration) :
    ReportsExactly resources (.init declarations) ↔ ReclampsQuietly resources (.init declarations) := by
  show [].Perm (passed resources (initResourcePools resources declarations)) ↔ _
  rw [List.nil_perm, passed_eq_nil_iff]
  constructor
  · intro h name pool top decl hget htop hlast t ht hfalls
    obtain ⟨pool', hget', hcurrent, hthresholds⟩ := get?_initResourcePools declarations hget
    rw [hlast] at hthresholds
    refine (passedBy_declared_eq_nil_iff hthresholds).mp (h name pool pool' hget hget') t ht
      ⟨hfalls.2, ?_⟩
    rw [hcurrent]
    exact (clampAll_le_iff ordered_of_mem_bounds hfalls.2).mpr ⟨top, htop, hfalls.1⟩
  · intro h name pool pool' hget hget'
    obtain ⟨pool'', hget'', hcurrent, hthresholds⟩ := get?_initResourcePools declarations hget
    cases hget''.symm.trans hget'
    cases hlast : (declared name declarations).getLast? with
    | none =>
      -- the pool is not declared, and keeps its value
      rw [List.getLast?_eq_none_iff.mp hlast] at hcurrent
      exact passedBy_of_current hcurrent
    | some decl =>
      rw [hlast] at hthresholds
      refine (passedBy_declared_eq_nil_iff hthresholds).mpr (fun t ht hfalls => ?_)
      rw [hcurrent] at hfalls
      obtain ⟨top, htop, hle⟩ := (clampAll_le_iff ordered_of_mem_bounds hfalls.1).mp hfalls.2
      exact h name pool top decl hget htop hlast t ht ⟨hle, hfalls.1⟩

end Declarations

/-! ### Runs -/

section Runs

variable {resources : Resources}

theorem allWithin_step (h : AllWithin resources) (event : Event) :
    AllWithin (step resources event) := by
  cases event with
  | patch patch => exact allWithin_applyResourcePatch h patch
  | playerPatch patch =>
    show AllWithin (patched (applyResourcePatchPlayer patch) resources).2
    rcases patched_applyResourcePatchPlayer patch resources with hrefused | hsame
    · rw [hrefused]
      exact h
    · rw [hsame]
      exact allWithin_applyResourcePatch h patch
  | decay => exact allWithin_applyPoolDecay h
  | init declarations => exact allWithin_initResourcePools h

theorem reportsExactly_iff (resources : Resources) (event : Event) :
    ReportsExactly resources event ↔ ReclampsQuietly resources event := by
  cases event with
  | patch patch => exact iff_of_true (reportsExactly_patch patch resources).1 trivial
  | playerPatch patch => exact iff_of_true (reportsExactly_patch patch resources).2 trivial
  | decay => exact iff_of_true (reportsExactly_decay resources) trivial
  | init declarations => exact reportsExactly_init_iff resources declarations

/-- Along a run all values lie between their bounds, and what each step passes is reported. -/
def Kept (resources : Resources) (events : List Event) : Prop :=
  Throughout step AllWithin resources events ∧ StepsMeet step ReportsExactly resources events

/-- **The values stay between their bounds in every run, and all that they pass is reported exactly
    if no declarations pass anything.** -/
theorem kept_iff (h : AllWithin resources) (events : List Event) :
    Kept resources events ↔ StepsMeet step ReclampsQuietly resources events := by
  have hstep : ∀ s event, AllWithin s → AllWithin (step s event) :=
    fun s event hs => allWithin_step hs event
  have hwithin := throughout_of_step hstep h events
  constructor
  · rintro ⟨-, hreports⟩
    exact hreports.mono (fun s event => (reportsExactly_iff s event).mp)
  · intro hquiet
    exact ⟨hwithin, hquiet.mono (fun s event => (reportsExactly_iff s event).mpr)⟩

end Runs

/-! ### A smaller lamp -/

/-- Light, as a pack declares it: it warns of what falls to sixty. -/
def light (max : ℚ) (ordered : 0 ≤ max) : ResourceDeclaration where
  name := "light"
  label := "Light"
  min := 0
  max := max
  starting := max
  voluntary := false
  decayPerTurn := -10
  thresholds := [⟨60, "light_dim", "The lamp burns low."⟩]
  ordered := ordered
  startsWithin := ⟨ordered, le_rfl⟩

/-- A full lamp. -/
def lampFull : Resources := initResourcePools .empty [light 100 (by decide)]

theorem allWithin_lampFull : AllWithin lampFull := by
  refine allWithin_initResourcePools (fun name pool hget => ?_)
  simp at hget

/-- **A lamp that is declared to be smaller** falls past its threshold, and nobody is told. -/
theorem not_kept_dimmedLight : ¬ Kept lampFull [.init [light 50 (by decide)]] := by
  rintro ⟨-, hreports, -⟩
  revert hreports
  decide +kernel

/-- It burns down until it is dim, is declared anew, and burns on. -/
theorem kept_iff_lampFull :
    Kept lampFull (List.replicate 4 .decay ++ [.init [light 95 (by decide)], .decay]) ↔
      StepsMeet step ReclampsQuietly lampFull
        (List.replicate 4 .decay ++ [.init [light 95 (by decide)], .decay]) :=
  kept_iff allWithin_lampFull _

end Sidequest.Resource
