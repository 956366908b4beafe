import Mathlib.Logic.Function.Basic

namespace Sidequest.World

/-!
# What has changed between two states

* `StateSnapshot`, `computeDelta` — the field groups of two states, most of them compared as JSON;
* `told_iff` — when the flags tell what has changed.
-/

/-- The groups that `_to_json` captures. -/
inductive Group
  | characters | npcs | characterLocations | questLog | notes | activeTropes
  | pendingTimeSkipSummary | discoveredRegions | discoveredRoutes | loreEstablished

/-- All groups, in the order in which they are captured. -/
def Group.all : List Group :=
  [characters, npcs, characterLocations, questLog, notes, activeTropes, pendingTimeSkipSummary,
    discoveredRegions, discoveredRoutes, loreEstablished]

/-- `json.dumps`, which raises on some values, and `model_dump_json`. A text tells what it is of. -/
structure Texts (α : Type) where
  dumps : α → Option String
  modelDumpJson : α → String
  dumps_inj : ∀ {v w text}, dumps v = some text → dumps w = some text → v = w
  dumps_ne : ∀ v, dumps v ≠ some ""
  modelDumpJson_inj : Function.Injective modelDumpJson

/-- What is captured of a game. -/
@[ext] structure Captured (α : Type) where
  group : Group → α
  (timeOfDay atmosphere currentRegion activeStakes : String)
  daysElapsed : Int
  magicState : Option α

/-- A captured state: most groups as JSON, the others as they are. -/
structure StateSnapshot where
  json : Group → String
  (timeOfDay atmosphere currentRegion activeStakes : String)
  daysElapsed : Int
  magicStateJson : Option String

/-- Which groups of two states differ. -/
structure StateDelta where
  group : Group → Bool
  (timeOfDay atmosphere activeStakes magic daysElapsed : Bool)
  newLocation : Option String := none

/-- No flag is up; `newLocation` does not count. -/
def StateDelta.isEmpty (d : StateDelta) : Bool :=
  !(Group.all.any d.group || d.timeOfDay || d.atmosphere || d.activeStakes || d.magic ||
    d.daysElapsed)

variable {α : Type} (texts : Texts α)

/-- `_to_json`: "" on error. -/
def toJson (v : α) : String := (texts.dumps v).getD ""

/-- Capture a game. -/
def snapshot (s : Captured α) : StateSnapshot where
  json g := toJson texts (s.group g)
  timeOfDay := s.timeOfDay
  atmosphere := s.atmosphere
  currentRegion := s.currentRegion
  activeStakes := s.activeStakes
  daysElapsed := s.daysElapsed
  magicStateJson := s.magicState.map texts.modelDumpJson

/-- Compare two captured states, group by group. -/
def computeDelta (before after : StateSnapshot) : StateDelta where
  group g := before.json g != after.json g
  timeOfDay := before.timeOfDay != after.timeOfDay
  atmosphere := before.atmosphere != after.atmosphere
  activeStakes := before.activeStakes != after.activeStakes
  magic := before.magicStateJson != after.magicStateJson
  daysElapsed := before.daysElapsed != after.daysElapsed

/-- The delta is empty exactly if nothing differs, and has the flags of what differs. -/
structure Told (s s' : Captured α) (d : StateDelta) : Prop where
  isEmpty : d.isEmpty = true ↔ s = s'
  group : ∀ g, d.group g = true ↔ s.group g ≠ s'.group g
  timeOfDay : d.timeOfDay = true ↔ s.timeOfDay ≠ s'.timeOfDay
  atmosphere : d.atmosphere = true ↔ s.atmosphere ≠ s'.atmosphere
  activeStakes : d.activeStakes = true ↔ s.activeStakes ≠ s'.activeStakes
  magic : d.magic = true ↔ s.magicState ≠ s'.magicState
  daysElapsed : d.daysElapsed = true ↔ s.daysElapsed ≠ s'.daysElapsed

variable {texts}

theorem toJson_eq_iff {v w : α} :
    toJson texts v = toJson texts w ↔ v = w ∨ texts.dumps v = none ∧ texts.dumps w = none := by
  have hv := texts.dumps_ne v
  have hw := texts.dumps_ne w
  unfold toJson
  cases hdumps : texts.dumps v with
  | none => cases hdumps' : texts.dumps w <;> grind
  | some text => cases hdumps' : texts.dumps w <;> grind [texts.dumps_inj]

theorem StateDelta.isEmpty_iff (d : StateDelta) : d.isEmpty = true ↔ (∀ g, ¬ d.group g = true) ∧
    ¬ d.timeOfDay = true ∧ ¬ d.atmosphere = true ∧ ¬ d.activeStakes = true ∧ ¬ d.magic = true ∧
    ¬ d.daysElapsed = true := by
  have hall : Group.all.any d.group = false ↔ ∀ g, ¬ d.group g = true := by
    rw [List.any_eq_false]
    exact ⟨fun h g => h g (by cases g <;> simp [Group.all]), fun h g _ => h g⟩
  simp only [isEmpty, Bool.not_eq_true', Bool.or_eq_false_iff, hall, Bool.not_eq_true, and_assoc]

/-- **A delta tells what has changed** exactly if no group changes from one value without a JSON
    text to another, and the region changes only where something else does. -/
theorem told_iff (s s' : Captured α) :
    Told s s' (computeDelta (snapshot texts s) (snapshot texts s')) ↔
      (∀ g, texts.dumps (s.group g) = none → texts.dumps (s'.group g) = none →
        s.group g = s'.group g) ∧
      (s' = { s with currentRegion := s'.currentRegion } → s'.currentRegion = s.currentRegion) := by
  have hflag : ∀ g, (computeDelta (snapshot texts s) (snapshot texts s')).group g = true ↔
      ¬ (s.group g = s'.group g ∨
        texts.dumps (s.group g) = none ∧ texts.dumps (s'.group g) = none) := fun g => by
    rw [← toJson_eq_iff]
    exact bne_iff_ne
  constructor
  · intro h
    refine ⟨fun g hnone hnone' => ?_, fun heq => ?_⟩
    · by_contra hne
      exact (hflag g).mp ((h.group g).mpr hne) (.inr ⟨hnone, hnone'⟩)
    · have hsame : s = s' := by
        rw [← h.isEmpty, StateDelta.isEmpty_iff]
        simp only [h.group, h.timeOfDay, h.atmosphere, h.activeStakes, h.magic, h.daysElapsed]
        rw [heq]
        simp
      rw [hsame]
  · rintro ⟨hgroups, hregion⟩
    have hgroup : ∀ g, (computeDelta (snapshot texts s) (snapshot texts s')).group g = true ↔
        s.group g ≠ s'.group g := fun g =>
      (hflag g).trans (not_congr (or_iff_left_of_imp (fun h => hgroups g h.1 h.2)))
    have hmagic : (computeDelta (snapshot texts s) (snapshot texts s')).magic = true ↔
        s.magicState ≠ s'.magicState :=
      bne_iff_ne.trans (Option.map_injective texts.modelDumpJson_inj).ne_iff
    have hempty : (computeDelta (snapshot texts s) (snapshot texts s')).isEmpty = true ↔
        (∀ g, s.group g = s'.group g) ∧ s.timeOfDay = s'.timeOfDay ∧
          s.atmosphere = s'.atmosphere ∧ s.activeStakes = s'.activeStakes ∧
          s.magicState = s'.magicState ∧ s.daysElapsed = s'.daysElapsed := by
      rw [StateDelta.isEmpty_iff]
      simp only [hgroup, hmagic, not_not]
      simp [computeDelta, snapshot]
    refine ⟨hempty.trans ⟨?_, ?_⟩, hgroup, bne_iff_ne, bne_iff_ne,
      bne_iff_ne, hmagic, bne_iff_ne⟩
    · rintro ⟨hg, ht, ha, hs, hm, hd⟩
      have hregion := hregion (Captured.ext (funext hg).symm ht.symm ha.symm rfl hs.symm hd.symm
        hm.symm)
      exact Captured.ext (funext hg) ht ha hregion.symm hs hd hm
    · rintro rfl
      simp

/-- A moved party, and nothing else. -/
theorem not_told : ∃ (texts : Texts Bool) (s s' : Captured Bool),
    ¬ Told s s' (computeDelta (snapshot texts s) (snapshot texts s')) := by
  refine ⟨⟨fun b => some (toString b), toString, by rintro v w _ ⟨⟩; revert v w; decide, by decide,
    by intro v w; revert v w; decide⟩,
    ⟨fun _ => true, "", "", "hall", "", 0, none⟩, ⟨fun _ => true, "", "", "attic", "", 0, none⟩,
    fun h => ?_⟩
  have hsame := congrArg Captured.currentRegion (h.isEmpty.mp (by decide))
  simp at hsame

end Sidequest.World
