import Mathlib.Algebra.Order.Ring.Rat
import Mathlib.Data.Nat.Find
import Sidequest.Lib.Chains
import Sidequest.Lib.Except
import Sidequest.Lib.First

namespace Sidequest.Genre

open Lib

/-!
# Trope inheritance

Tropes of a world may extend another trope, of the genre or of the world, which is named by its slug.
Resolving the inheritance checks that the trope extended is there and that its own chain comes to an
end, and fills what a trope leaves empty from the trope it extends.

* `resolveTropeInheritance`, `detectCycle`, `mergeTrope` — the pass, its check and its merge;
* `inherited_iff_reachesTwo` — a field is inherited from the nearest trope of the chain that declares
  it exactly if that one is the trope itself or the one it extends;
* `resolveTropeInheritance_raises_iff` — when the pass rejects just the lists with faulty chains.
-/

section

/-! ### Tropes -/

structure TropeEscalation where
  escalatesAt : ℚ
  event : String
  npcsInvolved : List String := []
  stakes : String := ""
  roles : List String := []
deriving DecidableEq

structure PassiveProgression where
  ratePerTurn : ℚ := 0
  ratePerDay : ℚ := 0
  accelerators : List String := []
  decelerators : List String := []
  acceleratorBonus : ℚ := 0
  deceleratorPenalty : ℚ := 0
deriving DecidableEq

/-- A trope as it is written, of a genre or of a world. -/
structure TropeDefinition where
  id : Option String := none
  name : String
  description : Option String := none
  category : String := ""
  triggers : List String := []
  narrativeHints : List String := []
  tensionLevel : Option ℚ := none
  resolutionHints : Option (List String) := none
  resolutionPatterns : Option (List String) := none
  tags : List String := []
  escalation : List TropeEscalation := []
  passiveProgression : Option PassiveProgression := none
  isAbstract : Bool := false
  extends? : Option String := none
  factions : List String := []
deriving DecidableEq

inductive GenreError where
  | missingParent (trope parent : String)
  | cycle (trope : String)
  | validation (message : String)
deriving DecidableEq

def maxInheritanceDepth : Nat := 64

section Pass

-- `lower` stands for `str.lower`
variable (lower : String → String)

/-- The slug of a name: in lower case, with hyphens for spaces. -/
def slugify (name : String) : String :=
  String.ofList ((lower name).toList.map (fun c => if c = ' ' then '-' else c))

/-- The trope behind a slug: the last one of the world, or else the last one of the genre. -/
def parentMap (genre world : List TropeDefinition) (slug : String) : Option TropeDefinition :=
  lastBy (fun t : TropeDefinition => slugify lower t.name) (genre ++ world) slug

/-- Follow the chain from a slug, for the depth that is left. -/
def detectCycle (parents : String → Option TropeDefinition) :
    Nat → String → List String → Except GenreError PUnit
  | 0, _, _ => .error (.validation
      s!"trope inheritance chain exceeds maximum depth of {maxInheritanceDepth}")
  | depth + 1, slug, visited =>
    if slug ∈ visited then .error (.cycle slug)
    else match (parents slug).bind TropeDefinition.extends? with
      | some name => detectCycle parents depth (slugify lower name) (slug :: visited)
      | none => .ok ⟨⟩

/-- What the child leaves empty is filled from the parent. -/
def mergeTrope (parent child : TropeDefinition) : TropeDefinition where
  id := if child.id.isSome then child.id else parent.id
  name := child.name
  description := if child.description.isSome then child.description else parent.description
  category := if child.category ≠ "" then child.category else parent.category
  triggers := if child.triggers ≠ [] then child.triggers else parent.triggers
  narrativeHints := if child.narrativeHints ≠ [] then child.narrativeHints else parent.narrativeHints
  tensionLevel := if child.tensionLevel.isSome then child.tensionLevel else parent.tensionLevel
  resolutionHints :=
    if child.resolutionHints.isSome then child.resolutionHints else parent.resolutionHints
  resolutionPatterns :=
    if child.resolutionPatterns.isSome then child.resolutionPatterns else parent.resolutionPatterns
  tags := if child.tags ≠ [] then child.tags else parent.tags
  factions := if child.factions ≠ [] then child.factions else parent.factions
  escalation := if child.escalation ≠ [] then child.escalation else parent.escalation
  passiveProgression :=
    if child.passiveProgression.isSome then child.passiveProgression else parent.passiveProgression
  isAbstract := false
  extends? := none

/-- Resolve one trope of the world. The parent is found at depth 0. -/
def resolveTrope (parents : String → Option TropeDefinition) (trope : TropeDefinition) :
    Except GenreError TropeDefinition :=
  match trope.extends? with
  | some name =>
    match parents (slugify lower name) with
    | none => .error (.missingParent trope.name name)
    | some parent => do
      detectCycle lower parents (maxInheritanceDepth + 1) (slugify lower name)
        [slugify lower trope.name]
      return mergeTrope parent trope
  | none => .ok trope

/-- Resolve the tropes of the world. -/
def resolveTropeInheritance (genre world : List TropeDefinition) :
    Except GenreError (List TropeDefinition) :=
  world.mapM (resolveTrope lower (parentMap lower genre world))

end Pass

/-! ### Inherited fields -/

/-- The fields that a trope inherits. -/
inductive TropeField where
  | id
  | description
  | category
  | triggers
  | narrativeHints
  | tensionLevel
  | resolutionHints
  | resolutionPatterns
  | tags
  | factions
  | escalation
  | passiveProgression

variable {t : TropeDefinition}

namespace TropeField

/-- What a field holds. -/
def Value : TropeField → Type
  | id | description => Option String
  | category => String
  | triggers | narrativeHints | tags | factions => List String
  | tensionLevel => Option ℚ
  | resolutionHints | resolutionPatterns => Option (List String)
  | escalation => List TropeEscalation
  | passiveProgression => Option PassiveProgression

/-- What a trope holds in a field. -/
def value : (f : TropeField) → TropeDefinition → f.Value
  | id, t => t.id
  | description, t => t.description
  | category, t => t.category
  | triggers, t => t.triggers
  | narrativeHints, t => t.narrativeHints
  | tensionLevel, t => t.tensionLevel
  | resolutionHints, t => t.resolutionHints
  | resolutionPatterns, t => t.resolutionPatterns
  | tags, t => t.tags
  | factions, t => t.factions
  | escalation, t => t.escalation
  | passiveProgression, t => t.passiveProgression

/-- A trope says something in a field: it is not `None`, or not empty. -/
def declares : TropeField → TropeDefinition → Bool
  | id, t => t.id.isSome
  | description, t => t.description.isSome
  | category, t => t.category ≠ ""
  | triggers, t => t.triggers ≠ []
  | narrativeHints, t => t.narrativeHints ≠ []
  | tensionLevel, t => t.tensionLevel.isSome
  | resolutionHints, t => t.resolutionHints.isSome
  | resolutionPatterns, t => t.resolutionPatterns.isSome
  | tags, t => t.tags ≠ []
  | factions, t => t.factions ≠ []
  | escalation, t => t.escalation ≠ []
  | passiveProgression, t => t.passiveProgression.isSome

/-- Whether a trope says something in a field can be read off what the field holds. -/
theorem declares_congr {f : TropeField} {t' : TropeDefinition} (h : f.value t = f.value t') :
    f.declares t = f.declares t' := by
  cases f <;>
  · simp only [value] at h
    simp only [declares, h]

/-- **The merge.** A field is the child's own where it says something, and else the parent's. -/
theorem value_mergeTrope (f : TropeField) (parent child : TropeDefinition) :
    f.value (mergeTrope parent child) =
      if f.declares child then f.value child else f.value parent := by
  by_cases h : f.declares child = true
  · rw [if_pos h]
    cases f <;>
    · refine if_pos ?_
      simpa [declares] using h
  · rw [if_neg h]
    cases f <;>
    · refine if_neg ?_
      simpa [declares] using h

end TropeField

/-! ### Chains -/

section Chains

variable (lower : String → String) (parents : String → Option TropeDefinition)

/-- The trope that a trope extends, if it is there. -/
def parentOf (t : TropeDefinition) : Option TropeDefinition :=
  t.extends?.bind (fun name => parents (slugify lower name))

/-- The trope so many steps up the chain. -/
def ancestor (n : Nat) (t : TropeDefinition) : Option TropeDefinition :=
  nth (parentOf lower parents) n t

/-- The field of `r` is inherited along the whole chain of `t`: it is that of the nearest trope on
    the chain that declares it, and undeclared if there is none. -/
structure Inherited (f : TropeField) (t r : TropeDefinition) : Prop where
  nearest : ∀ n q, ancestor lower parents n t = some q → f.declares q = true →
    (∀ m < n, ∀ p, ancestor lower parents m t = some p → f.declares p = false) →
    f.value r = f.value q
  undeclared : (∀ n q, ancestor lower parents n t = some q → f.declares q = false) →
    f.declares r = false

/-- Where neither a trope nor the one it extends declares the field, nothing above them does. -/
def ReachesTwo (f : TropeField) (t : TropeDefinition) : Prop :=
  f.declares t = false → (∀ p, parentOf lower parents t = some p → f.declares p = false) →
    ∀ n q, ancestor lower parents n t = some q → f.declares q = false

end Chains

variable {lower : String → String} {parents : String → Option TropeDefinition}

variable {r : TropeDefinition}

/-- What the pass returns for one trope: the trope itself, or its merge with the one it extends. -/
theorem resolveTrope_spec (h : resolveTrope lower parents t = .ok r) :
    (parentOf lower parents t = none ∧ r = t) ∨
    ∃ p, parentOf lower parents t = some p ∧ r = mergeTrope p t := by
  unfold resolveTrope at h
  unfold parentOf
  cases hextends : t.extends? with
  | none =>
    rw [hextends] at h
    exact .inl ⟨rfl, (Except.ok.inj h).symm⟩
  | some name =>
    rw [hextends] at h
    dsimp only at h
    rw [Option.bind_some]
    cases hparent : parents (slugify lower name) with
    | none =>
      rw [hparent] at h
      cases h
    | some p =>
      rw [hparent] at h
      rw [bind_eq_ok] at h
      obtain ⟨_, _, hmerged⟩ := h
      exact .inr ⟨p, rfl, (Except.ok.inj hmerged).symm⟩

theorem value_of_declares (h : resolveTrope lower parents t = .ok r) {f : TropeField}
    (hown : f.declares t = true) : f.value r = f.value t := by
  rcases resolveTrope_spec h with ⟨_, rfl⟩ | ⟨p, _, rfl⟩
  · rfl
  · rw [TropeField.value_mergeTrope, if_pos hown]

/-- A trope that does not declare a field takes it from the one it extends. -/
theorem value_of_parentOf {p : TropeDefinition} (h : resolveTrope lower parents t = .ok r)
    {f : TropeField} (hown : f.declares t = false) (hparent : parentOf lower parents t = some p) :
    f.value r = f.value p := by
  rcases resolveTrope_spec h with ⟨hnone, _⟩ | ⟨p', hsome, rfl⟩
  · rw [hnone] at hparent
    cases hparent
  · rw [hsome] at hparent
    cases hparent
    rw [TropeField.value_mergeTrope, if_neg (by simp [hown])]

/-- What neither a trope nor the one it extends declares is not declared after the pass. -/
theorem not_declares_of_resolveTrope (h : resolveTrope lower parents t = .ok r) {f : TropeField}
    (hown : f.declares t = false)
    (hparent : ∀ p, parentOf lower parents t = some p → f.declares p = false) :
    f.declares r = false := by
  cases hp : parentOf lower parents t with
  | none =>
    rcases resolveTrope_spec h with ⟨_, rfl⟩ | ⟨p, hsome, _⟩
    · exact hown
    · rw [hp] at hsome
      cases hsome
  | some p =>
    rw [TropeField.declares_congr (value_of_parentOf h hown hp)]
    exact hparent p hp

/-- **Two levels.** A field is inherited along the whole chain exactly if the chain declares it in
    its first two tropes or nowhere. -/
theorem inherited_iff_reachesTwo (h : resolveTrope lower parents t = .ok r) (f : TropeField) :
    Inherited lower parents f t r ↔ ReachesTwo lower parents f t := by
  constructor
  · intro hinherited hown hparent n q hq
    by_contra hdeclares
    -- the nearest of those that declare the field lends its value, which the pass does not see
    have hexists : ∃ n q, ancestor lower parents n t = some q ∧ f.declares q = true :=
      ⟨n, q, hq, by simpa using hdeclares⟩
    obtain ⟨q', hq', hfirst⟩ := Nat.find_spec hexists
    have hvalue : f.value r = f.value q' :=
      hinherited.nearest (Nat.find hexists) q' hq' hfirst (fun m hm p hp => by
        by_contra hdeclared
        exact Nat.find_min hexists hm ⟨p, hp, by simpa using hdeclared⟩)
    have hnone := not_declares_of_resolveTrope h hown hparent
    rw [TropeField.declares_congr hvalue, hfirst] at hnone
    cases hnone
  · intro htwo
    constructor
    · intro n q hq hdeclares hbefore
      match n with
      | 0 =>
        cases hq
        exact value_of_declares h hdeclares
      | 1 => exact value_of_parentOf h (hbefore 0 Nat.zero_lt_one t rfl) hq
      | n + 2 =>
        have hown : f.declares t = false := hbefore 0 (Nat.succ_pos _) t rfl
        have hparent : ∀ p, parentOf lower parents t = some p → f.declares p = false :=
          hbefore 1 (by omega)
        rw [htwo hown hparent (n + 2) q hq] at hdeclares
        cases hdeclares
    · intro hnone
      exact not_declares_of_resolveTrope h (hnone 0 t rfl) (hnone 1)

/-! ### The pass -/

/-- **What is inherited.** Every field is inherited along the whole chain exactly if each chain
    declares it in its first two tropes or nowhere. -/
theorem resolveTropeInheritance_inherited_iff (lower : String → String)
    {genre world resolved : List TropeDefinition}
    (h : resolveTropeInheritance lower genre world = .ok resolved) :
    List.Forall₂ (fun t r => ∀ f, Inherited lower (parentMap lower genre world) f t r)
        world resolved ↔
      ∀ t ∈ world, ∀ f, ReachesTwo lower (parentMap lower genre world) f t := by
  have hall := mapM_eq_ok_iff.mp h
  clear h
  -- the table of parents is that of the whole list, while the list is walked
  generalize parentMap lower genre world = parents at hall ⊢
  induction hall with
  | nil => simp
  | cons hone _ ih =>
    rw [List.forall₂_cons, List.forall_mem_cons]
    exact and_congr (forall_congr' (fun f => inherited_iff_reachesTwo hone f)) ih

/-! ### A grandparent -/

/-- A trope of a genre with a category. -/
def archetypeRoot : TropeDefinition := { name := "archetype root", category := "recurring" }

/-- It extends the root, without a category. -/
def midTrope : TropeDefinition := { name := "mid trope", extends? := some "archetype-root" }

/-- It extends the trope that extends the root. -/
def leafTrope : TropeDefinition := { name := "leaf trope", extends? := some "mid-trope" }

theorem resolveTropeInheritance_inherited_leaf :
    List.Forall₂ (fun t r => ∀ f, Inherited id (parentMap id [archetypeRoot] [midTrope]) f t r)
        [midTrope] [mergeTrope archetypeRoot midTrope] ↔
      ∀ t ∈ [midTrope], ∀ f, ReachesTwo id (parentMap id [archetypeRoot] [midTrope]) f t :=
  resolveTropeInheritance_inherited_iff id (by decide)

/-- The leaf has no category, although the chain declares one. -/
theorem not_inherited_leaf : ∃ resolved,
    resolveTropeInheritance id [archetypeRoot] [midTrope, leafTrope] = .ok resolved ∧
    ¬ List.Forall₂ (fun t r => ∀ f,
      Inherited id (parentMap id [archetypeRoot] [midTrope, leafTrope]) f t r)
      [midTrope, leafTrope] resolved := by
  refine ⟨[mergeTrope archetypeRoot midTrope, mergeTrope midTrope leafTrope], by decide, ?_⟩
  intro hall
  rw [List.forall₂_cons, List.forall₂_cons] at hall
  have hcategory : (mergeTrope midTrope leafTrope).category = archetypeRoot.category :=
    (hall.2.1 .category).nearest 2 archetypeRoot (by decide) (by decide)
      (fun m hm p hp => by
        match m with
        | 0 =>
          cases hp
          decide
        | 1 =>
          have hmid : some midTrope = some p := hp
          cases hmid
          decide)
  exact absurd hcategory (by decide)

end

/-! ### Chains in the terms of the authors -/

/-- A trope and where it stands. -/
structure Placed where
  ofWorld : Bool
  trope : TropeDefinition
deriving DecidableEq

section Chains

variable (lower : String → String) (genre world : List TropeDefinition)

variable (t : TropeDefinition)

/-- The slug of a trope. -/
def slugOf : String := slugify lower t.name

/-- The genre trope behind a slug. -/
def ofGenre (slug : String) : Option Placed := (lastBy (slugOf lower) genre slug).map (⟨false, ·⟩)

/-- The trope behind a slug, of the world before the genre. -/
def placed (slug : String) : Option Placed :=
  ((lastBy (slugOf lower) world slug).map (⟨true, ·⟩)).or (ofGenre lower genre slug)

/-- The trope that a trope links to. A world trope that extends its own name links to the genre
    trope of that name, or else to itself. -/
def linkedTo (p : Placed) : Option Placed :=
  p.trope.extends?.bind (fun name =>
    if p.ofWorld = true ∧ slugify lower name = slugOf lower p.trope then
      (ofGenre lower genre (slugify lower name)).or (some p)
    else placed lower genre world (slugify lower name))

/-- The trope so many links up the chain of a world trope. -/
def chain (n : Nat) : Option Placed :=
  nth (linkedTo lower genre world) n ⟨true, t⟩

/-- After so many links there is a trope that extends one that is not there. -/
def MissingParent (n : Nat) (t : TropeDefinition) : Prop :=
  ∃ p, chain lower genre world t n = some p ∧ p.trope.extends?.isSome = true ∧
    linkedTo lower genre world p = none

/-- The chain comes to one place twice. -/
def CyclicChain : Prop :=
  ∃ m n p q, m < n ∧ chain lower genre world t m = some p ∧ chain lower genre world t n = some q ∧
    p.ofWorld = q.ofWorld ∧ slugOf lower p.trope = slugOf lower q.trope

/-- The chain has more links than the depth limit allows, where the parent is at depth 0. -/
def TooLong : Prop :=
  ∃ p, chain lower genre world t (maxInheritanceDepth + 1) = some p ∧ p.trope.extends?.isSome = true

def BadChain : Prop :=
  CyclicChain lower genre world t ∨ TooLong lower genre world t ∨
    ∃ n, MissingParent lower genre world n t

def ExtendsOwnName : Prop :=
  ∃ name, t.extends? = some name ∧ slugify lower name = slugOf lower t

end Chains

variable {lower : String → String} {genre world : List TropeDefinition}

theorem parentMap_eq (slug : String) :
    parentMap lower genre world slug = (placed lower genre world slug).map Placed.trope := by
  show lastBy (slugOf lower) (genre ++ world) slug = _
  unfold placed ofGenre
  rw [lastBy_append]
  cases lastBy (slugOf lower) world slug with
  | some t => rfl
  | none =>
    rw [Option.none_or, Option.map_none, Option.none_or, Option.map_map]
    exact Option.map_id'.symm

theorem of_placed {slug : String} {p : Placed} (h : placed lower genre world slug = some p) :
    slugOf lower p.trope = slug ∧ (p.ofWorld = true → p.trope ∈ world) := by
  unfold placed at h
  cases hworld : lastBy (slugOf lower) world slug with
  | some t =>
    rw [hworld] at h
    cases h
    exact ⟨(key_of_lastBy hworld).2, fun _ => (key_of_lastBy hworld).1⟩
  | none =>
    rw [hworld] at h
    obtain ⟨t, ht, rfl⟩ := Option.map_eq_some_iff.mp h
    exact ⟨(key_of_lastBy ht).2, fun h => by cases h⟩

variable {t : TropeDefinition}

theorem exists_placed (lower : String → String) (genre : List TropeDefinition) (ht : t ∈ world) :
    ∃ q, placed lower genre world (slugOf lower t) = some ⟨true, q⟩ := by
  obtain ⟨q, hq⟩ : ∃ q, lastBy (slugOf lower) world (slugOf lower t) = some q := exists_lastBy ht
  refine ⟨q, ?_⟩
  unfold placed
  rw [hq]
  rfl

/-! ### The check -/

section Check

variable (parents : String → Option TropeDefinition)

/-- The slug that the trope behind a slug extends. -/
def nextSlug (lower : String → String) (slug : String) : Option String :=
  ((parents slug).bind TropeDefinition.extends?).map (slugify lower)

/-- **The check.** It passes exactly if the slugs come to an end within the depth, and none of them
    was seen before. -/
theorem detectCycle_iff (depth : Nat) (slug : String) (visited : List String) :
    detectCycle lower parents depth slug visited = .ok ⟨⟩ ↔
      ∃ k < depth, nth (nextSlug parents lower) (k + 1) slug = none ∧
        ∀ i ≤ k, ∀ s, nth (nextSlug parents lower) i slug = some s → s ∉ visited := by
  induction depth generalizing slug visited with
  | zero =>
    constructor
    · intro h
      cases h
    · rintro ⟨k, hk, _⟩
      exact absurd hk (Nat.not_lt_zero k)
  | succ depth ih =>
    unfold detectCycle
    split
    · rename_i hseen
      constructor
      · intro h
        cases h
      · rintro ⟨k, _, _, hfresh⟩
        exact absurd hseen (hfresh 0 (Nat.zero_le k) slug rfl)
    rename_i hseen
    -- the chain ends here, or goes on from the parent
    cases hextends : (parents slug).bind TropeDefinition.extends? with
    | none =>
      have hend : nextSlug parents lower slug = none := by
        unfold nextSlug
        rw [hextends, Option.map_none]
      refine ⟨fun _ => ⟨0, Nat.succ_pos depth, hend, fun i hi s hs => ?_⟩, fun _ => rfl⟩
      obtain rfl := Nat.le_zero.mp hi
      cases hs
      exact hseen
    | some name =>
      have hnext : nextSlug parents lower slug = some (slugify lower name) := by
        unfold nextSlug
        rw [hextends, Option.map_some]
      have hleft : ∀ n, nth (nextSlug parents lower) (n + 1) slug
          = nth (nextSlug parents lower) n (slugify lower name) := by
        intro n
        rw [nth_succ_left, hnext, Option.bind_some]
      rw [ih]
      constructor
      · rintro ⟨k, hk, hend, hfresh⟩
        refine ⟨k + 1, Nat.succ_lt_succ hk, (hleft (k + 1)).trans hend, fun i hi s hs => ?_⟩
        cases i with
        | zero =>
          cases hs
          exact hseen
        | succ i =>
          rw [hleft] at hs
          exact fun hmem => hfresh i (Nat.le_of_succ_le_succ hi) s hs (.tail slug hmem)
      · rintro ⟨k, hk, hend, hfresh⟩
        cases k with
        | zero =>
          rw [nth_one, hnext] at hend
          cases hend
        | succ k =>
          refine ⟨k, Nat.lt_of_succ_lt_succ hk, (hleft (k + 1)).symm.trans hend,
            fun i hi s hs hmem => ?_⟩
          rw [← hleft] at hs
          rcases List.mem_cons.mp hmem with rfl | hmem
          · -- a chain that comes back to its start has no end
            exact ne_none_of_repeats nth_zero hs (Nat.succ_pos i) (k + 1 + 1) hend
          · exact hfresh (i + 1) (Nat.succ_le_succ hi) s hs hmem

end Check

/-! ### What the check sees -/

theorem chain_succ (hown : ∀ t ∈ world, ¬ ExtendsOwnName lower t) (ht : t ∈ world) {name : String}
    (hextends : t.extends? = some name) (n : Nat) : chain lower genre world t (n + 1) =
      (nth (nextSlug (parentMap lower genre world) lower) n (slugify lower name)).bind
        (placed lower genre world) := by
  have hslug : (Placed.mk true t).trope.extends?.map (slugify lower) = some (slugify lower name) := by
    show t.extends?.map (slugify lower) = _
    rw [hextends, Option.map_some]
  -- the slugs and the places of the tropes behind them take turns
  have hnext : nextSlug (parentMap lower genre world) lower = fun slug =>
      (placed lower genre world slug).bind (fun p => p.trope.extends?.map (slugify lower)) := by
    funext slug
    unfold nextSlug
    rw [parentMap_eq]
    cases placed lower genre world slug <;> rfl
  have hlinked : nth (linkedTo lower genre world) (n + 1) ⟨true, t⟩
      = nth (fun p : Placed => (p.trope.extends?.map (slugify lower)).bind
          (placed lower genre world)) (n + 1) ⟨true, t⟩ := by
    refine nth_congr (fun p => p.ofWorld = true → p.trope ∈ world) (fun p hp => ?_) (fun _ => ht) _
    have hsame : linkedTo lower genre world p
        = (p.trope.extends?.map (slugify lower)).bind (placed lower genre world) := by
      unfold linkedTo
      cases hname : p.trope.extends? with
      | none => rfl
      | some name =>
        exact if_neg (fun h => hown p.trope (hp h.1) ⟨name, hname, h.2⟩)
    refine ⟨hsame, fun q hq => ?_⟩
    rw [hsame] at hq
    obtain ⟨slug, _, hplaced⟩ := Option.bind_eq_some_iff.mp hq
    exact (of_placed hplaced).2
  unfold chain
  rw [hlinked, hnext, nth_bind, nth_succ_left, hslug, Option.bind_some]

/-- A trope that extends nothing has no faults. -/
theorem chain_of_extends_none (hextends : t.extends? = none) (n : Nat) :
    chain lower genre world t (n + 1) = none := by
  have hlast : linkedTo lower genre world ⟨true, t⟩ = none := by
    unfold linkedTo
    rw [hextends, Option.bind_none]
  unfold chain
  rw [nth_succ_left, hlast, Option.bind_none]

theorem sound_of_ends (hown : ∀ t ∈ world, ¬ ExtendsOwnName lower t) (ht : t ∈ world)
    {name : String} (hextends : t.extends? = some name) {k : Nat} (hk : k < maxInheritanceDepth + 1)
    (hend : nth (nextSlug (parentMap lower genre world) lower) (k + 1) (slugify lower name) = none)
    (hfresh : ∀ i ≤ k, ∀ s, nth (nextSlug (parentMap lower genre world) lower) i
      (slugify lower name) = some s → s ∉ [slugOf lower t]) :
    ¬ CyclicChain lower genre world t ∧ ¬ TooLong lower genre world t := by
  have hslugs : ∀ n p, chain lower genre world t (n + 1) = some p →
      nth (nextSlug (parentMap lower genre world) lower) n (slugify lower name)
        = some (slugOf lower p.trope) ∧
      placed lower genre world (slugOf lower p.trope) = some p := by
    intro n p hp
    rw [chain_succ hown ht hextends] at hp
    obtain ⟨slug, hslug, hplaced⟩ := Option.bind_eq_some_iff.mp hp
    rw [(of_placed hplaced).1]
    exact ⟨hslug, hplaced⟩
  constructor
  · rintro ⟨m, n, p, q, hlt, hp, hq, _, hsame⟩
    obtain ⟨n, rfl⟩ := Nat.exists_eq_succ_of_ne_zero (Nat.ne_zero_of_lt hlt)
    have hlater := (hslugs n q hq).1
    cases m with
    | zero =>
      obtain rfl : ⟨true, t⟩ = p := Option.some.inj hp
      have hle : n ≤ k := by
        by_contra hgt
        rw [nth_of_le hend (by omega)] at hlater
        cases hlater
      exact hfresh n hle _ hlater (by simp [← hsame])
    | succ m =>
      have hearlier := (hslugs m p hp).1
      rw [hsame] at hearlier
      exact ne_none_of_repeats hearlier hlater (Nat.lt_of_succ_lt_succ hlt) (k + 1) hend
  · rintro ⟨p, hp, hmore⟩
    obtain ⟨hslug, hplaced⟩ := hslugs maxInheritanceDepth p hp
    obtain ⟨next, hnext⟩ := Option.isSome_iff_exists.mp hmore
    have hdefined : nth (nextSlug (parentMap lower genre world) lower) (maxInheritanceDepth + 1)
        (slugify lower name) = some (slugify lower next) := by
      rw [nth_succ, hslug, Option.bind_some]
      unfold nextSlug
      rw [parentMap_eq, hplaced, Option.map_some, Option.bind_some, hnext, Option.map_some]
    rw [nth_of_le hend (by omega)] at hdefined
    cases hdefined

theorem ends_of_sound (hown : ∀ t ∈ world, ¬ ExtendsOwnName lower t) (ht : t ∈ world)
    {name : String} (hextends : t.extends? = some name)
    (hcyclic : ¬ CyclicChain lower genre world t) (hlong : ¬ TooLong lower genre world t) :
    nth (nextSlug (parentMap lower genre world) lower) (maxInheritanceDepth + 1)
        (slugify lower name) = none ∧
      ∀ i s, nth (nextSlug (parentMap lower genre world) lower) i (slugify lower name) = some s →
        s ∉ [slugOf lower t] := by
  constructor
  · by_contra hdefined
    obtain ⟨slug, hslug⟩ := Option.ne_none_iff_exists'.mp hdefined
    rw [nth_succ] at hslug
    obtain ⟨last, hlast, hnext⟩ := Option.bind_eq_some_iff.mp hslug
    obtain ⟨next, hextends', _⟩ := Option.map_eq_some_iff.mp hnext
    rw [parentMap_eq] at hextends'
    obtain ⟨p, hp, hmore⟩ := Option.bind_eq_some_iff.mp hextends'
    obtain ⟨place, hplace, rfl⟩ := Option.map_eq_some_iff.mp hp
    refine hlong ⟨place, ?_, by rw [hmore]; rfl⟩
    rw [chain_succ hown ht hextends, hlast, Option.bind_some, hplace]
  · intro i s hs hmem
    obtain rfl := List.mem_singleton.mp hmem
    obtain ⟨q, hq⟩ := exists_placed lower genre ht
    refine hcyclic ⟨0, i + 1, ⟨true, t⟩, ⟨true, q⟩, Nat.succ_pos i, rfl, ?_, rfl,
      (of_placed hq).1.symm⟩
    rw [chain_succ hown ht hextends, hs, Option.bind_some, hq]

/-- **The check of one trope.** Where no world trope extends its own name, it rejects a chain that
    is cyclic, too long, or whose first link leads nowhere. -/
theorem resolveTrope_raises_iff (hown : ∀ t ∈ world, ¬ ExtendsOwnName lower t) (ht : t ∈ world) :
    (∃ e, resolveTrope lower (parentMap lower genre world) t = .error e) ↔
      CyclicChain lower genre world t ∨ TooLong lower genre world t ∨
        MissingParent lower genre world 0 t := by
  unfold resolveTrope
  cases hextends : t.extends? with
  | none =>
    refine ⟨fun ⟨e, he⟩ => (by cases he), ?_⟩
    rintro (⟨m, n, p, q, hlt, _, hq, _⟩ | ⟨p, hp, _⟩ | ⟨p, hp, hmore, _⟩)
    · obtain ⟨n, rfl⟩ := Nat.exists_eq_succ_of_ne_zero (Nat.ne_zero_of_lt hlt)
      rw [chain_of_extends_none hextends] at hq
      cases hq
    · rw [chain_of_extends_none hextends] at hp
      cases hp
    · obtain rfl : ⟨true, t⟩ = p := Option.some.inj hp
      rw [hextends] at hmore
      cases hmore
  | some name =>
    have hfirst : linkedTo lower genre world ⟨true, t⟩
        = placed lower genre world (slugify lower name) := by
      have hone : chain lower genre world t 1 = _ := chain_succ hown ht hextends 0
      exact hone
    dsimp only
    rw [parentMap_eq]
    cases hplaced : placed lower genre world (slugify lower name) with
    | none =>
      refine ⟨fun _ => .inr (.inr ⟨⟨true, t⟩, rfl, ?_, hfirst.trans hplaced⟩),
        fun _ => ⟨_, rfl⟩⟩
      rw [hextends]
      rfl
    | some p =>
      have hfound : ¬ MissingParent lower genre world 0 t := by
        rintro ⟨q, hq, _, hmissing⟩
        obtain rfl : ⟨true, t⟩ = q := Option.some.inj hq
        rw [hfirst, hplaced] at hmissing
        cases hmissing
      cases hcheck : detectCycle lower (parentMap lower genre world) (maxInheritanceDepth + 1)
          (slugify lower name) [slugify lower t.name] with
      | ok _ =>
        obtain ⟨k, hk, hend, hfresh⟩ := (detectCycle_iff _ _ _ _).mp hcheck
        obtain ⟨hcyclic, hlong⟩ := sound_of_ends hown ht hextends hk hend hfresh
        refine ⟨fun ⟨e, he⟩ => (by cases he), ?_⟩
        rintro (h | h | h)
        · exact absurd h hcyclic
        · exact absurd h hlong
        · exact absurd h hfound
      | error e =>
        refine ⟨fun _ => ?_, fun _ => ⟨e, rfl⟩⟩
        by_contra hsound
        rw [not_or, not_or] at hsound
        -- a chain that is sound ends within the depth, so the check would have passed
        obtain ⟨hend, hfresh⟩ := ends_of_sound hown ht hextends hsound.1 hsound.2.1
        have hpassed := (detectCycle_iff (parentMap lower genre world) _ _ _).mpr
          ⟨maxInheritanceDepth, Nat.lt_succ_self _, hend, fun i _ s hs => hfresh i s hs⟩
        have hsame : [slugify lower t.name] = [slugOf lower t] := rfl
        rw [hsame, hpassed] at hcheck
        cases hcheck

/-! ### What the pass rejects -/

theorem raises_of_extendsOwnName (ht : t ∈ world) (hown : ExtendsOwnName lower t) :
    ∃ e, resolveTrope lower (parentMap lower genre world) t = .error e := by
  obtain ⟨name, hextends, hsame⟩ := hown
  obtain ⟨q, hq⟩ := exists_placed lower genre ht
  have hseen : slugify lower name ∈ [slugify lower t.name] := by
    rw [hsame]
    exact List.mem_singleton_self _
  unfold resolveTrope
  rw [hextends]
  dsimp only
  rw [parentMap_eq, hsame, hq, ← hsame]
  rw [detectCycle, if_pos hseen]
  exact ⟨_, rfl⟩

/-- The pass rejects what it rejects for one of the tropes. -/
theorem raises_iff_exists : (∃ e, resolveTropeInheritance lower genre world = .error e) ↔
      ∃ t ∈ world, ∃ e, resolveTrope lower (parentMap lower genre world) t = .error e :=
  mapM_eq_error_iff

theorem raises_iff_of_not_extendsOwnName (hown : ∀ t ∈ world, ¬ ExtendsOwnName lower t) :
    (∃ e, resolveTropeInheritance lower genre world = .error e) ↔
      ∃ t ∈ world, CyclicChain lower genre world t ∨ TooLong lower genre world t ∨
        MissingParent lower genre world 0 t := by
  rw [raises_iff_exists]
  constructor
  · rintro ⟨t, ht, h⟩
    exact ⟨t, ht, (resolveTrope_raises_iff hown ht).mp h⟩
  · rintro ⟨t, ht, h⟩
    exact ⟨t, ht, (resolveTrope_raises_iff hown ht).mpr h⟩

/-- **What is rejected** are just the faulty lists, but for two kinds: where a world trope extends
    its own name, and where only a parent past the first link is missing. -/
theorem resolveTropeInheritance_raises_iff (lower : String → String)
    (genre world : List TropeDefinition) :
    ((∃ e, resolveTropeInheritance lower genre world = .error e) ↔
        ∃ t ∈ world, BadChain lower genre world t) ↔
      ((∃ t ∈ world, ExtendsOwnName lower t) → ∃ t ∈ world, BadChain lower genre world t) ∧
      ((∃ t ∈ world, ∃ n, MissingParent lower genre world (n + 1) t) →
        (∃ t ∈ world, ExtendsOwnName lower t) ∨
        ∃ t ∈ world, CyclicChain lower genre world t ∨ TooLong lower genre world t ∨
          MissingParent lower genre world 0 t) := by
  by_cases hown : ∃ t ∈ world, ExtendsOwnName lower t
  · -- the pass raises, rightly or not
    have hraises : ∃ e, resolveTropeInheritance lower genre world = .error e := by
      obtain ⟨t, ht, h⟩ := hown
      exact raises_iff_exists.mpr ⟨t, ht, raises_of_extendsOwnName ht h⟩
    constructor
    · intro hiff
      exact ⟨fun _ => hiff.mp hraises, fun _ => .inl hown⟩
    · rintro ⟨hbad, _⟩
      exact ⟨fun _ => hbad hown, fun _ => hraises⟩
  · have hnone : ∀ t ∈ world, ¬ ExtendsOwnName lower t := fun t ht h => hown ⟨t, ht, h⟩
    rw [raises_iff_of_not_extendsOwnName hnone]
    constructor
    · intro hiff
      refine ⟨fun h => absurd h hown, ?_⟩
      rintro ⟨t, ht, n, hmissing⟩
      exact .inr (hiff.mpr ⟨t, ht, .inr (.inr ⟨n + 1, hmissing⟩)⟩)
    · rintro ⟨_, hseen⟩
      constructor
      · rintro ⟨t, ht, h | h | h⟩
        · exact ⟨t, ht, .inl h⟩
        · exact ⟨t, ht, .inr (.inl h)⟩
        · exact ⟨t, ht, .inr (.inr ⟨0, h⟩)⟩
      · rintro ⟨t, ht, h | h | ⟨n, h⟩⟩
        · exact ⟨t, ht, .inl h⟩
        · exact ⟨t, ht, .inr (.inl h)⟩
        · cases n with
          | zero => exact ⟨t, ht, .inr (.inr h)⟩
          | succ n => exact (hseen ⟨t, ht, n, h⟩).resolve_left hown

/-! ### Both kinds of lists -/

/-- A genre trope that extends one that nobody wrote. -/
def orphanTrope : TropeDefinition := { name := "orphan", extends? := some "ghost" }

/-- A world trope that extends it. -/
def heirTrope : TropeDefinition := { name := "heir", extends? := some "orphan" }

/-- A genre trope, and a world trope that overrides and extends it. -/
def feudTrope : TropeDefinition := { name := "feud", category := "conflict" }

def ownFeudTrope : TropeDefinition := { name := "feud", extends? := some "feud" }

/-- A missing grandparent is accepted, and an override is rejected. -/
theorem not_raises_iff_badChain :
    ¬ ((∃ e, resolveTropeInheritance id [orphanTrope] [heirTrope] = .error e) ↔
        ∃ t ∈ [heirTrope], BadChain id [orphanTrope] [heirTrope] t) ∧
    ¬ ((∃ e, resolveTropeInheritance id [feudTrope] [ownFeudTrope] = .error e) ↔
        ∃ t ∈ [ownFeudTrope], BadChain id [feudTrope] [ownFeudTrope] t) := by
  constructor
  -- the missing parent is a grandparent, which nobody looks for
  · intro hiff
    have hbad : BadChain id [orphanTrope] [heirTrope] heirTrope :=
      .inr (.inr ⟨1, ⟨false, orphanTrope⟩, by decide, by decide, by decide⟩)
    obtain ⟨e, he⟩ := hiff.mpr ⟨heirTrope, List.mem_singleton_self _, hbad⟩
    cases he
  -- the chain ends at the genre's trope, whose name is the child's own
  · intro hiff
    have hraises : ∃ e, resolveTropeInheritance id [feudTrope] [ownFeudTrope] = .error e :=
      ⟨.cycle "feud", by decide⟩
    have hstart : chain id [feudTrope] [ownFeudTrope] ownFeudTrope 0
        = some ⟨true, ownFeudTrope⟩ := rfl
    have hlast : chain id [feudTrope] [ownFeudTrope] ownFeudTrope 1
        = some ⟨false, feudTrope⟩ := by decide
    have hend : ∀ n, chain id [feudTrope] [ownFeudTrope] ownFeudTrope (n + 2) = none := by
      intro n
      have htwo : chain id [feudTrope] [ownFeudTrope] ownFeudTrope 2 = none := by decide
      exact nth_of_le htwo (Nat.le_add_left 2 n)
    obtain ⟨t, ht, hbad⟩ := hiff.mp hraises
    obtain rfl := List.mem_singleton.mp ht
    rcases hbad with ⟨m, n, p, q, hlt, hp, hq, hplace, _⟩ | ⟨p, hp, _⟩ | ⟨n, p, hp, hmore, hmissing⟩
    · match n with
      | 0 => exact absurd hlt (Nat.not_lt_zero m)
      | 1 =>
        obtain rfl := Nat.lt_one_iff.mp hlt
        cases hstart.symm.trans hp
        cases hlast.symm.trans hq
        cases hplace
      | n + 2 =>
        rw [hend] at hq
        cases hq
    · have hnone := hend 63
      rw [show 63 + 2 = maxInheritanceDepth + 1 from rfl, hp] at hnone
      cases hnone
    · match n with
      | 0 =>
        cases hstart.symm.trans hp
        have hlinked : linkedTo id [feudTrope] [ownFeudTrope] ⟨true, ownFeudTrope⟩ ≠ none := by
          decide
        exact hlinked hmissing
      | 1 =>
        cases hlast.symm.trans hp
        cases hmore
      | n + 2 =>
        rw [hend] at hp
        cases hp

end Sidequest.Genre
