import Sidequest.Trope.Ladder

namespace Sidequest.Trope

open Lib

/-!
# What a tick cannot do

Activation, progression, firing, resolution and cooldown run over the whole population in one
tick. Their bounds (`TickBounds`), for a tick from any state:

* the progress of a trope whose turns do not take progress away rises, to 1 at most;
* one beat fires at most, besides those that skipped days cross;
* activation does not bring the progressing tropes above the ceiling;
* no trope starts while the cooldown of some trope covers the turn.

`tickBounds_of_run` gives them for every tick of every run, and the bounds on progress and on
the progressing tropes for all the states of the run.
-/

variable {pack : Pack} {t t' : TropeState} {l : List TropeState} {s : Engine} {tick : Tick}

/-- The tropes in progress. -/
def progressing (l : List TropeState) : Nat := l.countP (fun t => t.status = .progressing)

/-- The turns of a trope do not take progress away. -/
def Steady (pack : Pack) (t : TropeState) : Prop := ∀ d ∈ pack.byId t.id, 0 ≤ d.ratePerTurn

/-- The beats a tick fires, of all tropes. -/
def beatsFiredIn (pack : Pack) (s : Engine) (tick : Tick) : Nat :=
  (s.activeTropes.zipIdx.map (fun c => (firings pack s tick c.2).length)).sum

/-- A tick starts the trope at a place. -/
def Starts (pack : Pack) (s : Engine) (tick : Tick) (i : Nat) : Prop :=
  ∃ t t' : TropeState, s.activeTropes[i]? = some t ∧
    (tickTropes pack s tick).activeTropes[i]? = some t' ∧
      t.status = .dormant ∧ t'.status = .progressing

/-- The bounds of a tick. -/
structure TickBounds (pack : Pack) (s : Engine) (tick : Tick) : Prop where
  progress : ∀ (i : Nat) (t t' : TropeState), s.activeTropes[i]? = some t →
    (tickTropes pack s tick).activeTropes[i]? = some t' → Steady pack t → t.progress ≤ 1 →
      t.progress ≤ t'.progress ∧ t'.progress ≤ 1
  beats : beatsFiredIn pack s tick + s.pendingTimeSkipSummary.length
    ≤ (tickTropes pack s tick).pendingTimeSkipSummary.length + 1
  noSkip : tick.daysAdvanced ≤ 0 → beatsFiredIn pack s tick ≤ 1
  ceiling : (∃ i, Starts pack s tick i) →
    progressing (tickTropes pack s tick).activeTropes ≤ maxSimultaneousActive
  noRise : progressing (tickTropes pack s tick).activeTropes
    ≤ max maxSimultaneousActive (progressing s.activeTropes)
  cooldown : (∃ i, Starts pack s tick i) →
    ∀ t ∈ (tickTropes pack s tick).activeTropes, ∀ c ∈ t.fireCooldownUntil, c < tick.nowTurn

/-! ### Progress -/

/-- Progress that is not taken away rises to 1 at most. -/
theorem le_min_one {p r : ℚ} (hp : p ≤ 1) (hr : 0 ≤ r) : p ≤ min 1 (p + r) ∧ min 1 (p + r) ≤ 1 :=
  ⟨le_min hp (by linarith), min_le_left _ _⟩

/-- The turn of a steady trope raises its progress. -/
theorem progress_le_advance (h : Steady pack t) (hle : t.progress ≤ 1) :
    t.progress ≤ (advance pack t).progress ∧ (advance pack t).progress ≤ 1 := by
  unfold advance
  split
  · exact ⟨le_rfl, hle⟩
  · cases hd : pack.byId t.id with
    | none => exact ⟨le_rfl, hle⟩
    | some d =>
      dsimp only
      split
      · exact ⟨le_rfl, hle⟩
      · have hrate : 0 ≤ turnDelta d := by
          have := h d hd
          unfold turnDelta progressionRateMultiplier
          linarith
        exact le_min_one hle hrate

/-- Skipped days raise the progress of a trope. -/
theorem progress_le_drift (pack : Pack) (tick : Tick) (hle : t.progress ≤ 1) :
    t.progress ≤ (drift pack tick t).progress ∧ (drift pack tick t).progress ≤ 1 := by
  rw [drift_eq_skipped]
  rcases skipped_cases pack tick t with ⟨hsame, -, -⟩ | ⟨d, -, -, hdays, hrate, -, -, hpr, -⟩
  · rw [hsame]
    exact ⟨le_rfl, hle⟩
  · rw [hpr]
    have hpos : (0 : ℚ) < daysApplied tick.daysAdvanced := by
      exact_mod_cast daysApplied_pos hdays
    exact le_min_one hle (by positivity)

/-- The stagger and the gate leave the progress. -/
theorem Ticks.progress_eq (h : Ticks pack tick t t') :
    t'.progress = (drift pack tick (advance pack t)).progress := by
  obtain ⟨u, hstagger, hgate⟩ := h
  have hu : u.progress = (drift pack tick (advance pack t)).progress := by
    rcases hstagger with rfl | ⟨-, rfl⟩
    · rfl
    · unfold fire
      dsimp only
      split
      · rfl
      · split <;> rfl
  rcases hgate with rfl | ⟨-, rfl⟩
  · exact hu
  · exact hu

/-- The tropes at one place before and after a tick. -/
theorem ticks_of_getElem? {i : Nat} (ht : s.activeTropes[i]? = some t)
    (ht' : (tickTropes pack s tick).activeTropes[i]? = some t') : Ticks pack tick t t' := by
  obtain ⟨hlt, hget⟩ := List.getElem?_eq_some_iff.mp ht
  obtain ⟨hlt', hget'⟩ := List.getElem?_eq_some_iff.mp ht'
  have h := (List.forall₂_iff_get.mp (forall₂_tickTropes pack s tick)).2 i hlt hlt'
  rw [List.get_eq_getElem, List.get_eq_getElem, hget, hget'] at h
  exact h

theorem progress_tickTropes {i : Nat} (ht : s.activeTropes[i]? = some t)
    (ht' : (tickTropes pack s tick).activeTropes[i]? = some t') (hsteady : Steady pack t)
    (hle : t.progress ≤ 1) : t.progress ≤ t'.progress ∧ t'.progress ≤ 1 := by
  obtain ⟨hup, hone⟩ := progress_le_advance hsteady hle
  obtain ⟨hup', hone'⟩ := progress_le_drift pack tick hone
  rw [(ticks_of_getElem? ht ht').progress_eq]
  exact ⟨hup.trans hup', hone'⟩

/-! ### Beats -/

/-- The stagger chooses one place at most. -/
theorem sum_chosen_le_one (o : Option Nat) {places : List Nat} (h : places.Nodup) :
    (places.map (fun i => if o = some i then 1 else 0)).sum ≤ 1 := by
  induction places with
  | nil => simp
  | cons i places ih =>
    obtain ⟨hi, hnodup⟩ := List.nodup_cons.mp h
    rw [List.map_cons, List.sum_cons]
    by_cases ho : o = some i
    · have hzero : (places.map (fun i => if o = some i then 1 else 0)).sum = 0 := by
        apply List.sum_eq_zero
        intro x hx
        obtain ⟨j, hj, rfl⟩ := List.mem_map.mp hx
        rw [if_neg]
        intro hoj
        rw [ho, Option.some.injEq] at hoj
        exact hi (hoj ▸ hj)
      rw [hzero, if_pos ho]
    · rw [if_neg ho, Nat.zero_add]
      exact ih hnodup

theorem beatsFiredIn_le (pack : Pack) (s : Engine) (tick : Tick) : beatsFiredIn pack s tick
      ≤ (s.activeTropes.flatMap (fun t => (skipped pack tick (advance pack t)).2)).length + 1 := by
  have hsplit : s.activeTropes.zipIdx.map (fun c => (firings pack s tick c.2).length)
      = s.activeTropes.zipIdx.map (fun c => (skipped pack tick (advance pack c.1)).2.length
          + if staggered pack (drifted pack s tick) = some c.2 then 1 else 0) := by
    apply List.map_congr_left
    intro c hc
    rw [firings_eq (List.mem_zipIdx_iff_getElem?.mp hc), List.length_append, List.length_map,
      List.length_insertionSort]
    split <;> rfl
  have hskipped : (s.activeTropes.zipIdx.map
      (fun c => (skipped pack tick (advance pack c.1)).2.length)).sum
      = (s.activeTropes.flatMap (fun t => (skipped pack tick (advance pack t)).2)).length := by
    rw [List.length_flatMap]
    conv_rhs => rw [← List.zipIdx_map_fst 0 s.activeTropes, List.map_map]
    rfl
  have hchosen : (s.activeTropes.zipIdx.map
      (fun c => if staggered pack (drifted pack s tick) = some c.2 then 1 else 0)).sum ≤ 1 := by
    have hplaces := sum_chosen_le_one (staggered pack (drifted pack s tick))
      (List.nodup_range' (s := 0) (n := s.activeTropes.length))
    rw [← List.zipIdx_map_snd 0 s.activeTropes, List.map_map] at hplaces
    exact hplaces
  rw [beatsFiredIn, hsplit, List.sum_map_add, hskipped]
  omega

/-- Without skipped days no trope drifts, so none crosses a beat. -/
theorem flatMap_skipped_of_noSkip (h : tick.daysAdvanced ≤ 0) :
    l.flatMap (fun t => (skipped pack tick (advance pack t)).2) = [] := by
  rw [List.flatMap_eq_nil_iff]
  intro t _
  rw [skipped, if_neg (not_lt.mpr h)]

/-! ### Activation -/

/-- The cooldown in force is the latest of all tropes. -/
theorem le_cooldownUntil (ht : t ∈ l) {c : Int} (hc : t.fireCooldownUntil = some c) :
    c ≤ cooldownUntil l := by
  have hmem : c ∈ l.map (·.fireCooldownUntil.getD 0) := by
    refine List.mem_map.mpr ⟨t, ht, ?_⟩
    rw [hc]
    rfl
  unfold cooldownUntil
  cases hl : l.map (·.fireCooldownUntil.getD 0) with
  | nil =>
    rw [hl] at hmem
    simp at hmem
  | cons d ds =>
    have hfold : d ≤ ds.foldl max d ∧ ∀ x ∈ ds, x ≤ ds.foldl max d := by
      clear hl
      induction ds generalizing d with
      | nil => exact ⟨le_refl d, by simp⟩
      | cons e ds ih =>
        obtain ⟨hd, hds⟩ := ih (max d e)
        refine ⟨(le_max_left d e).trans hd, ?_⟩
        intro x hx
        rcases List.mem_cons.mp hx with rfl | hx
        · exact (le_max_right d x).trans hd
        · exact hds x hx
    rw [hl] at hmem
    rcases List.mem_cons.mp hmem with rfl | hmem
    · exact hfold.1
    · exact hfold.2 c hmem

theorem progressing_cons (t : TropeState) (l : List TropeState) :
    progressing (t :: l) = progressing l + if t.status = .progressing then 1 else 0 := by
  unfold progressing
  rw [List.countP_cons]
  simp

/-- The gate starts nothing, or it is not held by the cooldown and stops at the ceiling. -/
theorem gateFrom_spec (pack : Pack) (tick : Tick) (cooldownActive : Bool) (count : Nat)
    (l : List TropeState) : gateFrom pack tick cooldownActive count l = l ∨
    (cooldownActive = false ∧
      progressing (gateFrom pack tick cooldownActive count l) + count
        ≤ progressing l + maxSimultaneousActive) := by
  -- a trope that is left stands before a gate of the rest
  have hleave : ∀ (t : TropeState) (l' l : List TropeState) (count : Nat),
      (l' = l ∨ (cooldownActive = false ∧
        progressing l' + count ≤ progressing l + maxSimultaneousActive)) →
      (t :: l' = t :: l ∨ (cooldownActive = false ∧
        progressing (t :: l') + count ≤ progressing (t :: l) + maxSimultaneousActive)) := by
    rintro t l' l count (rfl | ⟨hcool, hle⟩)
    · exact .inl rfl
    · right
      rw [progressing_cons, progressing_cons]
      exact ⟨hcool, by omega⟩
  induction l generalizing count with
  | nil => exact .inl rfl
  | cons t l ih =>
    unfold gateFrom
    dsimp only
    split
    · exact hleave t _ l count (ih count)
    · rename_i hdormant
      rw [not_not] at hdormant
      split
      · exact hleave t _ l count (ih count)
      · split
        · exact hleave t _ l count (ih count)
        · rename_i hcool
          split
          · exact hleave t _ l count (ih count)
          · right
            refine ⟨by simpa using hcool, ?_⟩
            rw [progressing_cons, progressing_cons, if_pos rfl, hdormant, if_neg (by decide)]
            rcases ih (count + 1) with hsame | ⟨-, hle⟩
            · rw [hsame]
              omega
            · omega

/-- What the stagger leaves of a trope in progress may be resolved, never started. -/
theorem progressing_fireOneStaggeredBeat (pack : Pack) (tick : Tick) (l : List TropeState) :
    progressing (fireOneStaggeredBeat pack tick.nowTurn l) ≤ progressing l := by
  have h := forall₂_fireOneStaggeredBeat pack tick l
  generalize fireOneStaggeredBeat pack tick.nowTurn l = l' at h
  induction h with
  | nil => exact le_rfl
  | @cons t t' l l' hstep _ ih =>
    rw [progressing_cons, progressing_cons]
    rcases hstep with rfl | ⟨hdue, -⟩
    · omega
    · rw [if_pos hdue.1]
      split <;> omega

/-- Progress may resolve a trope, and starts none. -/
theorem progressing_drifted (pack : Pack) (s : Engine) (tick : Tick) :
    progressing (drifted pack s tick) ≤ progressing s.activeTropes := by
  unfold drifted
  induction s.activeTropes with
  | nil => exact le_rfl
  | cons t l ih =>
    rw [List.map_cons, progressing_cons, progressing_cons]
    by_cases hstatus : t.status = .progressing
    · split <;> omega
    · rw [drift_advance_of_idle hstatus, if_neg hstatus]
      omega

/-- The tropes a tick passes to its gate. -/
def staggeredTropes (pack : Pack) (s : Engine) (tick : Tick) : List TropeState :=
  fireOneStaggeredBeat pack tick.nowTurn (drifted pack s tick)

theorem activeTropes_tickTropes (pack : Pack) (s : Engine) (tick : Tick) :
    (tickTropes pack s tick).activeTropes
      = gateFrom pack tick (tick.nowTurn ≤ cooldownUntil (staggeredTropes pack s tick))
          (progressing (staggeredTropes pack s tick)) (staggeredTropes pack s tick) := by
  have hprogress := activeTropes_drift pack s tick
  unfold tickTropes
  dsimp only
  rw [hprogress]
  rfl

theorem gate_ne_of_starts {i : Nat} (h : Starts pack s tick i) :
    (tickTropes pack s tick).activeTropes ≠ staggeredTropes pack s tick := by
  obtain ⟨t, t', ht, ht', hdormant, hprogressing⟩ := h
  intro heq
  -- before the gate the dormant trope is as it was
  have hidle : t.status ≠ .progressing := by rw [hdormant]; decide
  have hdrifted : (drifted pack s tick)[i]? = some t := by
    unfold drifted
    rw [List.getElem?_map, ht, Option.map_some, drift_advance_of_idle hidle]
  have hstaggered : (staggeredTropes pack s tick)[i]? = some t := by
    unfold staggeredTropes
    rw [getElem?_fireOneStaggeredBeat]
    split
    · rename_i hi
      obtain ⟨u, hu, hdue⟩ := due_of_staggered hi
      rw [hdrifted, Option.some.injEq] at hu
      subst hu
      exact absurd hdue.1 hidle
    · exact hdrifted
  rw [heq, hstaggered, Option.some.injEq] at ht'
  subst ht'
  exact hidle hprogressing

/-- The gate leaves the cooldowns. -/
theorem fireCooldownUntil_tickTropes (ht : t ∈ (tickTropes pack s tick).activeTropes) :
    ∃ u ∈ staggeredTropes pack s tick, t.fireCooldownUntil = u.fireCooldownUntil := by
  rw [activeTropes_tickTropes] at ht
  obtain ⟨u, hu, hgate⟩ := exists_of_forall₂ (forall₂_gateFrom pack tick _ _ _) ht
  refine ⟨u, hu, ?_⟩
  rcases hgate with rfl | ⟨-, rfl⟩ <;> rfl

/-- **What a tick cannot do**, from any state. -/
theorem tickBounds (pack : Pack) (s : Engine) (tick : Tick) : TickBounds pack s tick := by
  have hgate := gateFrom_spec pack tick (tick.nowTurn ≤ cooldownUntil (staggeredTropes pack s tick))
    (progressing (staggeredTropes pack s tick)) (staggeredTropes pack s tick)
  rw [← activeTropes_tickTropes] at hgate
  have hfired : progressing (staggeredTropes pack s tick) ≤ progressing s.activeTropes :=
    (progressing_fireOneStaggeredBeat pack tick _).trans (progressing_drifted pack s tick)
  have hbeats := beatsFiredIn_le pack s tick
  refine ⟨?_, ?_, ?_, ?_, ?_, ?_⟩
  · intro i t t' ht ht' hsteady hle
    exact progress_tickTropes ht ht' hsteady hle
  · rw [pendingTimeSkipSummary_tickTropes, List.length_append, List.length_insertionSort]
    omega
  · intro hskip
    rw [flatMap_skipped_of_noSkip hskip] at hbeats
    exact hbeats
  · rintro ⟨i, hi⟩
    have hle := (hgate.resolve_left (gate_ne_of_starts hi)).2
    omega
  · rcases hgate with hsame | ⟨-, hle⟩
    · rw [hsame]
      exact hfired.trans (le_max_right _ _)
    · exact le_max_of_le_left (by omega)
  · rintro ⟨i, hi⟩ t ht c hc
    have hcool := (hgate.resolve_left (gate_ne_of_starts hi)).1
    rw [decide_eq_false_iff_not, not_le] at hcool
    obtain ⟨u, hu, heq⟩ := fireCooldownUntil_tickTropes ht
    have hcu : u.fireCooldownUntil = some c := heq ▸ hc
    exact lt_of_le_of_lt (le_cooldownUntil hu hcu) hcool

/-! ### Whole runs -/

/-- **The bounds of every run.** Every tick of a run is bounded; a steady trope that starts
    between 0 and 1 stays there and never falls back; and the progressing tropes, where they
    are no more than the ceiling to begin with, stay so. -/
theorem tickBounds_of_run (pack : Pack) (s : Engine) (ticks : List Tick) :
    StepsMeet (tickTropes pack) (TickBounds pack) s ticks ∧
    (∀ (i : Nat) (t : TropeState), s.activeTropes[i]? = some t → Steady pack t →
      0 ≤ t.progress ∧ t.progress ≤ 1 →
      Throughout (tickTropes pack) (fun s' => ∀ t' : TropeState, s'.activeTropes[i]? = some t' →
        t.progress ≤ t'.progress ∧ 0 ≤ t'.progress ∧ t'.progress ≤ 1) s ticks) ∧
    (progressing s.activeTropes ≤ maxSimultaneousActive →
      Throughout (tickTropes pack)
        (fun s' => progressing s'.activeTropes ≤ maxSimultaneousActive) s ticks) := by
  refine ⟨stepsMeet_of_forall (tickBounds pack) s ticks, ?_, ?_⟩
  · intro i t ht hsteady hprogress
    -- the place keeps its trope's id, so the trope stays steady
    have hinv : Throughout (tickTropes pack) (fun s' => ∀ t' : TropeState,
        s'.activeTropes[i]? = some t' → t'.id = t.id ∧
          t.progress ≤ t'.progress ∧ 0 ≤ t'.progress ∧ t'.progress ≤ 1) s ticks := by
      apply throughout_of_step
      · intro s' tick hs' t' ht'
        obtain ⟨u, hu, hid, -⟩ := getElem?_tickTropes pack s' tick ht'
        obtain ⟨huid, hup, hzero, hone⟩ := hs' u hu
        have hsteady' : Steady pack u := by
          unfold Steady
          rw [huid]
          exact hsteady
        obtain ⟨hle, hle'⟩ := progress_tickTropes hu ht' hsteady' hone
        exact ⟨hid.trans huid, hup.trans hle, hzero.trans hle, hle'⟩
      · intro t' ht'
        rw [ht, Option.some.injEq] at ht'
        subst ht'
        exact ⟨rfl, le_rfl, hprogress⟩
    exact hinv.mono (fun s' hs' t' ht' => (hs' t' ht').2)
  · intro hceiling
    apply throughout_of_step
    · intro s' tick hs'
      exact (tickBounds pack s' tick).noRise.trans (max_le le_rfl hs')
    · exact hceiling

/-- A feud that cools down by itself, and a siege that the days escalate. -/
def coolingFeud : Pack :=
  [{ id := some "feud"
     name := "The feud"
     passiveProgression := some { ratePerTurn := -1 } },
   { id := some "siege"
     name := "The siege"
     escalation := [{ atProgress := 1 / 10, event := "The gates close" },
       { atProgress := 2 / 10, event := "The wells run dry" }]
     passiveProgression := some { ratePerDay := 1 / 10 } }]

/-- Three days fire two beats of the siege in one tick, and the turn takes progress from the
    feud, below 0. -/
theorem not_bounded_of_coolingFeud :
    beatsFiredIn coolingFeud
        { activeTropes := [{ id := "siege", status := .progressing }] }
        { nowTurn := 1, daysAdvanced := 3 } = 2 ∧
    (tickTropes coolingFeud { activeTropes := [{ id := "feud", status := .progressing }] }
        { nowTurn := 1 }).activeTropes
      = [{ id := "feud", status := .progressing, progress := -1 / 2 }] := by
  decide +kernel

end Sidequest.Trope
