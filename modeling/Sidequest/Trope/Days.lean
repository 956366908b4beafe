import Sidequest.Trope.Ladder

namespace Sidequest.Trope

open Lib

/-!
# The days of a skip

A time skip should report of each beat the first day on which the progress has reached it. It
divides what is missing by the rate and rounds to the nearest day, so a beat is reported a day too
early where the fraction is rounded down.

* `Crossed`, `crossedBeats` — the beats that a skip fires; `queued_passTimeSkip`: they are queued
  by day;
* `Crossed.CrossedOn`, `Crossed.RoundsUp` — the day that should be reported, and when it is;
* `ToldByDay` — what should hold of the queue; `toldByDay_iff`: exactly where all fractions are
  rounded up.
-/

/-- A beat that a skip fires: a rung of the ladder of a trope, with the trope as it was before and
    its place among the tropes. -/
structure Crossed where
  place : Nat
  trope : TropeState
  definition : TropeDefinition
  rung : TropeEscalation × Nat
deriving DecidableEq

namespace Crossed

variable (c : Crossed)

/-- The days that the progress takes to the beat, with their fraction. -/
def span : ℚ := (c.rung.1.atProgress - c.trope.progress) / c.definition.ratePerDay

/-- What is queued of the beat. -/
def event (days : Int) (c : Crossed) : TimeSkipBeatEvent :=
  crossing c.definition c.trope.id c.trope.progress c.definition.ratePerDay days c.rung

/-- The beat is crossed on a day: the first one on which the progress has reached it. -/
def CrossedOn (day : Int) : Prop :=
  IsLeast {n : Int | 1 ≤ n ∧
    c.rung.1.atProgress ≤ c.trope.progress + c.definition.ratePerDay * n} day

/-- The days come to one at most, or are whole, or have a fraction that is rounded up: more than a
    half, or a half after an odd day. -/
def RoundsUp : Prop :=
  c.span ≤ 1 ∨ c.span = ⌊c.span⌋ ∨ 1 / 2 < c.span - ⌊c.span⌋ ∨
    c.span - ⌊c.span⌋ = 1 / 2 ∧ ⌊c.span⌋ % 2 = 1

/-- The order of the queue. -/
def chronological (days : Int) (c c' : Crossed) : Prop :=
  Trope.chronological (c.event days) (c'.event days)

instance (days : Int) : DecidableRel (Crossed.chronological days) :=
  fun _ _ => inferInstanceAs (Decidable (Trope.chronological _ _))

end Crossed

/-- The beats that a skip fires of the trope at a place. -/
def crossedOf (pack : Pack) (daysAdvanced : Int) (t : TropeState) (place : Nat) : List Crossed :=
  match pack.byId t.id with
  | none => []
  | some d =>
    let after := min 1 (t.progress + d.ratePerDay * daysApplied daysAdvanced)
    if t.status = .progressing ∧ 0 < daysAdvanced ∧ 0 < d.ratePerDay ∧ after ≠ t.progress then
      (rungs d.escalation t.beatsFired after).map (fun rung => ⟨place, t, d, rung⟩)
    else []

/-- The beats that a skip fires, trope by trope. -/
def crossedBeats (pack : Pack) (daysAdvanced : Int) (tropes : List TropeState) : List Crossed :=
  tropes.zipIdx.flatMap (fun t => crossedOf pack daysAdvanced t.1 t.2)

/-- The beats that a skip fires, in the order in which they are told. -/
def toldBeats (pack : Pack) (daysAdvanced : Int) (tropes : List TropeState) : List Crossed :=
  (crossedBeats pack daysAdvanced tropes).insertionSort
    (Crossed.chronological (daysApplied daysAdvanced))

/-- Every beat is told with the day it is crossed on, which is within the skip; the beats of a trope
    are told in the order of its ladder, and no beat before one of another trope that is crossed on
    an earlier day. -/
structure ToldByDay (days : Int) (beats : List Crossed) : Prop where
  crossedOn : ∀ c ∈ beats, c.CrossedOn (c.event days).daysIntoSkip
  within : ∀ c ∈ beats, (c.event days).daysIntoSkip ≤ days
  ladder : beats.Pairwise (fun c c' => c.place = c'.place → c.rung.2 < c'.rung.2)
  byDay : beats.Pairwise (fun c c' => c.place ≠ c'.place →
    ∀ n n', c.CrossedOn n → c'.CrossedOn n' → n ≤ n')

variable {pack : Pack} {daysAdvanced : Int} {tropes : List TropeState}

/-! ### What is queued -/

theorem map_event_crossedOf (pack : Pack) {daysAdvanced : Int} (hdays : 0 < daysAdvanced)
    (nowTurn : Int) (t : TropeState) (place : Nat) :
    (crossedOf pack daysAdvanced t place).map (Crossed.event (daysApplied daysAdvanced))
      = (skip pack (daysApplied daysAdvanced) nowTurn t).2 := by
  have hskipped : skipped pack ⟨nowTurn, daysAdvanced, false, []⟩ t
      = skip pack (daysApplied daysAdvanced) nowTurn t := if_pos hdays
  unfold crossedOf
  rcases skipped_cases pack ⟨nowTurn, daysAdvanced, false, []⟩ t with
    ⟨-, hevents, hnot⟩ | ⟨d, hd, hstatus, -, hrate, hmoved, hevents, -⟩
  · rw [← hskipped, hevents]
    rcases hd : pack.byId t.id with _ | d
    · rfl
    · dsimp only
      rw [if_neg]
      · rfl
      · rintro ⟨hstatus, -, hrate, hmoved⟩
        exact hnot ⟨hstatus, hdays, d, hd, hrate, hmoved⟩
  · rw [← hskipped, hevents, hd]
    dsimp only
    rw [if_pos ⟨hstatus, hdays, hrate, hmoved⟩, List.map_map]
    rfl

theorem map_event_toldBeats (pack : Pack) (daysAdvanced : Int) (tropes : List TropeState) :
    (toldBeats pack daysAdvanced tropes).map (Crossed.event (daysApplied daysAdvanced))
      = ((crossedBeats pack daysAdvanced tropes).map
          (Crossed.event (daysApplied daysAdvanced))).insertionSort chronological :=
  List.map_insertionSort _ _ _ _ (fun _ _ _ _ => Iff.rfl)

/-- **What a skip queues** are the beats it fires, in their order. -/
theorem queued_passTimeSkip (pack : Pack) (daysAdvanced nowTurn : Int) (s : Engine) :
    (passTimeSkip pack daysAdvanced nowTurn s).pendingTimeSkipSummary
      = s.pendingTimeSkipSummary ++ (toldBeats pack daysAdvanced s.activeTropes).map
          (Crossed.event (daysApplied daysAdvanced)) := by
  rw [map_event_toldBeats]
  unfold passTimeSkip
  by_cases hdays : 0 < daysAdvanced
  · have hfired : (crossedBeats pack daysAdvanced s.activeTropes).map
        (Crossed.event (daysApplied daysAdvanced))
          = (s.activeTropes.map (skip pack (daysApplied daysAdvanced) nowTurn)).flatMap
              Prod.snd := by
      unfold crossedBeats
      rw [List.map_flatMap, List.flatMap_map]
      simp only [map_event_crossedOf pack hdays nowTurn]
      conv_rhs => rw [← List.zipIdx_map_fst 0 s.activeTropes, List.flatMap_map]
    rw [if_neg (ne_of_gt (daysApplied_pos hdays)), hfired]
  · have hzero : daysApplied daysAdvanced = 0 := by
      unfold daysApplied
      omega
    have hnone : crossedBeats pack daysAdvanced s.activeTropes = [] := by
      unfold crossedBeats
      rw [List.flatMap_eq_nil_iff]
      intro t _
      unfold crossedOf
      split
      · rfl
      · exact if_neg (fun h => hdays h.2.1)
    rw [if_pos hzero, hnone]
    simp

/-! ### The day of a beat -/

/-- What is fired lies ahead, at some rate, and is reached within the skip. -/
theorem mem_crossedOf {t : TropeState} {place : Nat} {c : Crossed}
    (h : c ∈ crossedOf pack daysAdvanced t place) :
    c.place = place ∧ c.definition ∈ pack.byId c.trope.id ∧ 0 < c.definition.ratePerDay ∧
      c.rung ∈ c.definition.escalation.zipIdx ∧ 1 ≤ daysApplied daysAdvanced ∧
      c.span ≤ daysApplied daysAdvanced := by
  unfold crossedOf at h
  split at h
  · simp at h
  · rename_i d hd
    dsimp only at h
    split at h
    · rename_i hmoves
      obtain ⟨-, hdays, hrate, -⟩ := hmoves
      obtain ⟨rung, hrung, rfl⟩ := List.mem_map.mp h
      obtain ⟨hmem, -, hat⟩ := mem_rungs.mp hrung
      refine ⟨rfl, hd, hrate, List.mem_zipIdx_iff_getElem?.mpr hmem, daysApplied_pos hdays, ?_⟩
      have hreached := hat.trans (min_le_right _ _)
      unfold Crossed.span
      rw [div_le_iff₀ hrate]
      linarith
    · simp at h

theorem mem_crossedBeats {c : Crossed} (h : c ∈ crossedBeats pack daysAdvanced tropes) :
    ∃ t place, c ∈ crossedOf pack daysAdvanced t place := by
  obtain ⟨t, -, hc⟩ := List.mem_flatMap.mp h
  exact ⟨t.1, t.2, hc⟩

theorem Crossed.crossedOn_iff {c : Crossed} (hrate : 0 < c.definition.ratePerDay) (n : Int) :
    c.CrossedOn n ↔ n = max 1 ⌈c.span⌉ := by
  have hleast : c.CrossedOn (max 1 ⌈c.span⌉) := by
    have hiff : ∀ m : Int, c.rung.1.atProgress ≤ c.trope.progress + c.definition.ratePerDay * m ↔
        ⌈c.span⌉ ≤ m := by
      intro m
      rw [Int.ceil_le, Crossed.span, div_le_iff₀ hrate]
      constructor <;> intro h <;> linarith
    refine ⟨⟨le_max_left _ _, (hiff _).mpr (le_max_right _ _)⟩, ?_⟩
    rintro m ⟨hone, hreached⟩
    exact max_le hone ((hiff m).mp hreached)
  constructor
  · exact fun h => h.unique hleast
  · rintro rfl
    exact hleast

/-- **The day that is reported** is the one on which the beat is crossed exactly where the
    fraction is rounded up. -/
theorem crossedOn_event_iff {t : TropeState} {place : Nat} {c : Crossed}
    (h : c ∈ crossedOf pack daysAdvanced t place) :
    c.CrossedOn (c.event (daysApplied daysAdvanced)).daysIntoSkip ↔ c.RoundsUp := by
  obtain ⟨-, -, hrate, -, hone, hspan⟩ := mem_crossedOf h
  have hceil : ⌈c.span⌉ ≤ daysApplied daysAdvanced := Int.ceil_le.mpr hspan
  have hround : roundHalfEven c.span ≤ ⌈c.span⌉ := roundHalfEven_le (Int.le_ceil c.span)
  have hday : (c.event (daysApplied daysAdvanced)).daysIntoSkip
      = min (max 1 (roundHalfEven c.span)) (daysApplied daysAdvanced) := rfl
  have hfirst : c.span ≤ 1 ↔ ⌈c.span⌉ ≤ 1 := by
    rw [Int.ceil_le, Int.cast_one]
  rw [Crossed.crossedOn_iff hrate, hday, Crossed.RoundsUp, ← roundHalfEven_eq_ceil_iff, hfirst]
  omega

/-! ### The queue -/

theorem pairwise_crossedBeats (hsorted : pack.Sorted) (daysAdvanced : Int)
    (tropes : List TropeState) :
    (crossedBeats pack daysAdvanced tropes).Pairwise (fun c c' => c.place = c'.place →
      c.chronological (daysApplied daysAdvanced) c' ∧ c.rung.2 < c'.rung.2) := by
  refine List.pairwise_flatMap.mpr ⟨fun t _ => ?_, ?_⟩
  · unfold crossedOf
    split
    · exact List.Pairwise.nil
    · rename_i d hd
      dsimp only
      split
      · rename_i hmoves
        rw [List.pairwise_map]
        refine (pairwise_rungs _ _ _).imp_of_mem (fun hb hc hlt _ => ⟨?_, hlt⟩)
        have hle := hsorted.le hd (List.mem_of_mem_filter hb) (List.mem_of_mem_filter hc) hlt
        exact chronological_crossing.mpr (daysIntoSkip_mono hmoves.2.2.1 _ hle)
      · exact List.Pairwise.nil
  · have hplaces : tropes.zipIdx.Pairwise (fun t t' => t.2 < t'.2) := by
      rw [← List.pairwise_map (f := Prod.snd) (R := (· < ·)), List.zipIdx_map_snd]
      exact List.pairwise_lt_range'
    refine hplaces.imp (fun hlt c hc c' hc' hsame => ?_)
    rw [(mem_crossedOf hc).1, (mem_crossedOf hc').1] at hsame
    omega

theorem mem_toldBeats {c : Crossed} :
    c ∈ toldBeats pack daysAdvanced tropes ↔ c ∈ crossedBeats pack daysAdvanced tropes :=
  List.mem_insertionSort _

/-- **When a skip is told by day.** With sorted ladders, the beats of a time skip are queued with
    the days on which they are crossed and in the order of these days exactly if the fraction of
    days to each of them is rounded up. -/
theorem toldByDay_iff (hsorted : pack.Sorted) (daysAdvanced nowTurn : Int) (s : Engine) :
    (passTimeSkip pack daysAdvanced nowTurn s).pendingTimeSkipSummary
        = s.pendingTimeSkipSummary ++ (toldBeats pack daysAdvanced s.activeTropes).map
            (Crossed.event (daysApplied daysAdvanced)) ∧
      (ToldByDay (daysApplied daysAdvanced) (toldBeats pack daysAdvanced s.activeTropes) ↔
        ∀ c ∈ crossedBeats pack daysAdvanced s.activeTropes, c.RoundsUp) := by
  refine ⟨queued_passTimeSkip pack daysAdvanced nowTurn s, ?_⟩
  constructor
  · intro h c hc
    obtain ⟨t, place, hof⟩ := mem_crossedBeats hc
    exact (crossedOn_event_iff hof).mp (h.crossedOn c (mem_toldBeats.mpr hc))
  · intro h
    have hday : ∀ c ∈ toldBeats pack daysAdvanced s.activeTropes,
        c.CrossedOn (c.event (daysApplied daysAdvanced)).daysIntoSkip := by
      intro c hc
      obtain ⟨t, place, hof⟩ := mem_crossedBeats (mem_toldBeats.mp hc)
      exact (crossedOn_event_iff hof).mpr (h c (mem_toldBeats.mp hc))
    have hchronological : (toldBeats pack daysAdvanced s.activeTropes).Pairwise
        (Crossed.chronological (daysApplied daysAdvanced)) := by
      have hsort := List.pairwise_insertionSort chronological
        ((crossedBeats pack daysAdvanced s.activeTropes).map
          (Crossed.event (daysApplied daysAdvanced)))
      rw [← map_event_toldBeats, List.pairwise_map] at hsort
      exact hsort
    refine ⟨hday, fun c _ => min_le_right _ _, pairwise_insertionSort_of_kind
      (fun _ _ hsame => hsame.symm) (pairwise_crossedBeats hsorted _ _), ?_⟩
    refine hchronological.imp_of_mem (fun hc hc' hle _ n n' hn hn' => ?_)
    rw [hn.unique (hday _ hc), hn'.unique (hday _ hc')]
    rcases hle with hlt | ⟨heq, -⟩
    · exact hlt.le
    · exact heq.le

/-! ### A day and a quarter -/

/-- One beat, at half of the way. -/
def halfway : Pack :=
  [{ id := some "siege"
     name := "The siege"
     escalation := [{ atProgress := 1 / 2, event := "The gate falls" }]
     passiveProgression := some { ratePerDay := 2 / 5 } }]

/-- A siege that has begun. -/
def siege : TropeState := { id := "siege", status := .progressing }

def besieged : Engine := { activeTropes := [siege] }

/-- Another beat, at four fifths. -/
def keepToo : Pack :=
  halfway.map (fun d => { d with
    escalation := d.escalation ++ [{ atProgress := 4 / 5, event := "The keep falls" }] })

theorem sorted_keepToo : keepToo.Sorted := by
  intro d hd
  rw [List.mem_singleton.mp hd]
  decide +kernel

/-- With a tenth of the way made, the gate falls on the first day and the keep on the second, and
    so it is told. -/
theorem toldByDay_iff_halfway :
    ToldByDay 2 (toldBeats keepToo 2 [{ siege with progress := 1 / 10 }]) ↔
      ∀ c ∈ crossedBeats keepToo 2 [{ siege with progress := 1 / 10 }], c.RoundsUp :=
  (toldByDay_iff sorted_keepToo 2 0 { activeTropes := [{ siege with progress := 1 / 10 }] }).2

/-- **A beat is told too early.** The gate falls on the second day, and is told to fall on the first
    one, at the end of which two fifths of the way are made. -/
theorem not_toldByDay : (passTimeSkip halfway 2 0 besieged).pendingTimeSkipSummary.map
      TimeSkipBeatEvent.daysIntoSkip = [1] ∧
    ¬ ToldByDay 2 (toldBeats halfway 2 besieged.activeTropes) := by
  have hbeats : toldBeats halfway 2 besieged.activeTropes = [⟨0, siege, halfway.head (by decide),
      ({ atProgress := 1 / 2, event := "The gate falls" }, 0)⟩] := by decide +kernel
  refine ⟨by decide +kernel, fun h => ?_⟩
  have hday := h.crossedOn _ (hbeats ▸ List.mem_singleton_self _)
  have hreached := hday.1.2
  revert hreached
  decide +kernel

end Sidequest.Trope
