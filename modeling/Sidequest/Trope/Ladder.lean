import Sidequest.Lib.Sort
import Sidequest.Trope.Completion

namespace Sidequest.Trope

open Lib

/-!
# Beats in the order of their ladder

A ladder is meant to be climbed beat by beat: 0, 1, 2, and so on. The staggered pass fires the
next beat of a trope and no other one. A time skip fires every beat at or below the progress it
reaches, wherever the beat stands on the ladder, and reports the beats by day.

* `firings` — the beats a tick fires for one trope, in the order in which they are reported;
* `inLadderOrder_iff_climbsInOrder` — over every run: each trope's beats are reported as
  0, 1, 2, and so on, exactly while no time skip crosses a beat above one that it leaves out, or
  on an earlier day.
-/

variable {pack : Pack} {t t' : TropeState} {l : List TropeState} {s : Engine} {tick : Tick}

/-- A beat that has fired: its place on the ladder, and the progress of the trope then. -/
structure Firing where
  index : Nat
  progress : ℚ

/-- The skipped days of a tick, for one trope: where it drifts to, and the beats they fire. -/
def skipped (pack : Pack) (tick : Tick) (t : TropeState) : TropeState × List TimeSkipBeatEvent :=
  if 0 < tick.daysAdvanced then skip pack (daysApplied tick.daysAdvanced) tick.nowTurn t
  else (t, [])

/-- The tropes after the two passes of progress. -/
def drifted (pack : Pack) (s : Engine) (tick : Tick) : List TropeState :=
  s.activeTropes.map (fun t => drift pack tick (advance pack t))

/-- The beats a tick fires for the trope at a place, in the order in which they are reported:
    those of the skipped days by day, then the one of the stagger. -/
def firings (pack : Pack) (s : Engine) (tick : Tick) (i : Nat) : List Firing :=
  match s.activeTropes[i]? with
  | none => []
  | some t =>
    let u := drift pack tick (advance pack t)
    ((skipped pack tick (advance pack t)).2.insertionSort chronological).map
        (fun e => { index := e.beatIndex, progress := u.progress })
      ++ if staggered pack (drifted pack s tick) = some i then
          [{ index := u.beatsFired, progress := u.progress }] else []

/-- The engine with the beats it has fired so far, place by place. -/
structure Played where
  engine : Engine
  fired : Nat → List Firing := fun _ => []

/-- Play a tick. -/
def play (pack : Pack) (p : Played) (tick : Tick) : Played where
  engine := tickTropes pack p.engine tick
  fired := fun i => p.fired i ++ firings pack p.engine tick i

/-- Every trope has fired its beats in the order of the ladder: they are reported as 0, 1, 2,
    and so on, as many as it counts and no more than the ladder has, each of them when the
    progress had reached it. -/
def InLadderOrder (pack : Pack) (p : Played) : Prop :=
  ∀ i, ∀ t ∈ p.engine.activeTropes[i]?,
    (p.fired i).map Firing.index = List.range (p.fired i).length ∧
    t.beatsFired = (p.fired i).length ∧
    (∀ d ∈ pack.byId t.id, t.beatsFired ≤ d.escalation.length) ∧
    ∀ f ∈ p.fired i, ∃ d ∈ pack.byId t.id, ∃ beat ∈ d.escalation[f.index]?,
      beat.atProgress ≤ f.progress

/-- The rungs of a ladder that a skip crosses from the `n`-th on come one after the other, and
    day by day: with a beat it crosses every beat below it, on no later day. -/
def Climbs (beats : List TropeEscalation) (n : Nat) (before after rate : ℚ) (days : Int) : Prop :=
  ∀ b ∈ beats.zipIdx, ∀ c ∈ beats.zipIdx, n ≤ b.2 → b.2 < c.2 → c.1.atProgress ≤ after →
    b.1.atProgress ≤ after ∧ daysIntoSkip before rate days b.1 ≤ daysIntoSkip before rate days c.1

instance (beats : List TropeEscalation) (n : Nat) (before after rate : ℚ) (days : Int) :
    Decidable (Climbs beats n before after rate days) :=
  inferInstanceAs (Decidable (∀ _ ∈ _, ∀ _ ∈ _, _))

/-- The skipped days of a tick, if they move a trope, lead it up its ladder in order. -/
def ClimbsInOrder (pack : Pack) (tick : Tick) (t : TropeState) : Prop :=
  t.status = .progressing → 0 < tick.daysAdvanced → ∀ d ∈ pack.byId t.id, 0 < d.ratePerDay →
    let days := daysApplied tick.daysAdvanced
    let before := (advance pack t).progress
    let after := min 1 (before + d.ratePerDay * days)
    after ≠ before → Climbs d.escalation t.beatsFired before after d.ratePerDay days

instance (pack : Pack) (tick : Tick) (t : TropeState) : Decidable (ClimbsInOrder pack tick t) :=
  inferInstanceAs (Decidable (_ → _ → ∀ _ ∈ _, _ → _ → Climbs _ _ _ _ _ _))

/-! ### The beats of a skip -/

/-- What a beat of a trope reports when a skip fires it. -/
def crossing (d : TropeDefinition) (id : String) (before rate : ℚ) (days : Int)
    (c : TropeEscalation × Nat) : TimeSkipBeatEvent where
  tropeId := id
  tropeName := d.name
  beatIndex := c.2
  beatEvent := c.1.event
  stakes := c.1.stakes
  npcsInvolved := c.1.npcsInvolved
  daysIntoSkip := daysIntoSkip before rate days c.1

theorem events_fireCrossed (d : TropeDefinition) (before after rate : ℚ) (days nowTurn : Int)
    (beats : List TropeEscalation) (k : Nat) (t : TropeState) :
    (fireCrossed d before after rate days nowTurn (beats.zipIdx k) t).2 = ((beats.zipIdx k).filter
          (fun c => t.beatsFired ≤ c.2 ∧ c.1.atProgress ≤ after)).map
          (crossing d t.id before rate days) := by
  induction beats generalizing k t with
  | nil => rfl
  | cons beat beats ih =>
    rw [List.zipIdx_cons, fireCrossed]
    by_cases hfired : k < t.beatsFired
    · rw [if_pos hfired, ih, List.filter_cons_of_neg]
      simp only [decide_eq_true_eq]
      omega
    · rw [if_neg hfired]
      by_cases hat : after < beat.atProgress
      · rw [if_pos hat, ih, List.filter_cons_of_neg]
        simp only [decide_eq_true_eq, not_and, not_le]
        exact fun _ => hat
      · rw [if_neg hat, List.filter_cons_of_pos]
        · dsimp only
          rw [ih, List.map_cons]
          congr 2
          -- the beats that follow lie above the one that has just fired
          apply List.filter_congr
          intro c hc
          have hle := List.le_snd_of_mem_zipIdx hc
          have hiff : (k + 1 ≤ c.2 ∧ c.1.atProgress ≤ after) ↔
              (t.beatsFired ≤ c.2 ∧ c.1.atProgress ≤ after) := by
            constructor <;> rintro ⟨_, hc⟩ <;> exact ⟨by omega, hc⟩
          simp only [hiff]
        · simp only [decide_eq_true_eq]
          exact ⟨by omega, not_lt.mp hat⟩

theorem beatsFired_fireCrossed (d : TropeDefinition) (before after rate : ℚ)
    (days nowTurn : Int) (beats : List (TropeEscalation × Nat)) (t : TropeState) :
    (fireCrossed d before after rate days nowTurn beats t).1.beatsFired
      = ((fireCrossed d before after rate days nowTurn beats t).2.getLast?.map
          (·.beatIndex + 1)).getD t.beatsFired := by
  induction beats generalizing t with
  | nil => rfl
  | cons beat beats ih =>
    obtain ⟨beat, idx⟩ := beat
    rw [fireCrossed]
    by_cases hfired : idx < t.beatsFired
    · rw [if_pos hfired]
      exact ih t
    · rw [if_neg hfired]
      by_cases hat : after < beat.atProgress
      · rw [if_pos hat]
        exact ih t
      · rw [if_neg hat]
        rw [ih, List.getLast?_cons]
        cases (fireCrossed d before after rate days nowTurn beats
          { t with beatsFired := idx + 1, lastFiredTurn := some nowTurn }).2.getLast? <;> rfl

/-- An increasing list of places that leaves no place out from `n` on counts upwards from `n`. -/
theorem eq_range'_of_closed {l : List Nat} {n : Nat} (hlt : l.Pairwise (· < ·))
    (hle : ∀ x ∈ l, n ≤ x) (hclosed : ∀ x ∈ l, ∀ m, n ≤ m → m < x → m ∈ l) :
    l = List.range' n l.length := by
  induction l generalizing n with
  | nil => rfl
  | cons a l ih =>
    obtain ⟨ha, hlt⟩ := List.pairwise_cons.mp hlt
    have han : a = n := by
      have hna := hle a (.head _)
      rcases Nat.lt_or_ge n a with hlt | hge
      · rcases List.mem_cons.mp (hclosed a (.head _) n le_rfl hlt) with hn | hn
        · exact hn.symm
        · have := ha n hn
          omega
      · omega
    subst han
    congr 1
    apply ih hlt
    · intro x hx
      exact ha x hx
    · intro x hx m ham hmx
      rcases List.mem_cons.mp (hclosed x (.tail a hx) m (by omega) hmx) with hm | hm
      · omega
      · exact hm

/-- The rungs of a ladder are counted upwards. -/
theorem pairwise_snd_zipIdx (beats : List TropeEscalation) :
    beats.zipIdx.Pairwise (fun b c => b.2 < c.2) := by
  have h : (beats.zipIdx.map Prod.snd).Pairwise (· < ·) := by
    rw [List.zipIdx_map_snd]
    exact List.pairwise_lt_range'
  exact List.pairwise_map.mp h

/-- The rungs of a ladder from the `n`-th on that lie at or below a progress. -/
def rungs (beats : List TropeEscalation) (n : Nat) (after : ℚ) : List (TropeEscalation × Nat) :=
  beats.zipIdx.filter (fun c => n ≤ c.2 ∧ c.1.atProgress ≤ after)

variable {c : TropeEscalation × Nat}

theorem mem_rungs {beats : List TropeEscalation} {n : Nat} {after : ℚ} :
    c ∈ rungs beats n after ↔ beats[c.2]? = some c.1 ∧ n ≤ c.2 ∧ c.1.atProgress ≤ after := by
  rw [rungs, List.mem_filter, List.mem_zipIdx_iff_getElem?, decide_eq_true_eq]

theorem pairwise_rungs (beats : List TropeEscalation) (n : Nat) (after : ℚ) :
    (rungs beats n after).Pairwise (fun b c => b.2 < c.2) :=
  (pairwise_snd_zipIdx beats).filter _

instance : Std.Total chronological where
  total a b := by
    rcases lt_trichotomy a.daysIntoSkip b.daysIntoSkip with h | h | h
    · exact .inl (.inl h)
    · rcases String.le_total a.tropeId b.tropeId with hid | hid
      · exact .inl (.inr ⟨h, hid⟩)
      · exact .inr (.inr ⟨h.symm, hid⟩)
    · exact .inr (.inl h)

instance : IsTrans TimeSkipBeatEvent chronological where
  trans a b c := by
    rintro (hab | ⟨hab, hid⟩) (hbc | ⟨hbc, hid'⟩)
    · exact .inl (lt_trans hab hbc)
    · exact .inl (hbc ▸ hab)
    · exact .inl (hab ▸ hbc)
    · exact .inr ⟨hab.trans hbc, String.le_trans hid hid'⟩

variable {d : TropeDefinition} {before : ℚ}

/-- Two beats of one trope are told by day. -/
theorem chronological_crossing {id : String} {rate : ℚ} {days : Int} {b : TropeEscalation × Nat} :
    chronological (crossing d id before rate days b) (crossing d id before rate days c) ↔
      daysIntoSkip before rate days b.1 ≤ daysIntoSkip before rate days c.1 := by
  rw [le_iff_lt_or_eq]
  simp [chronological, crossing]

/-- Beats in the order of the ladder that are reported in the order of the ladder are reported as
    they are. -/
theorem insertionSort_eq_of_reported {l : List TimeSkipBeatEvent} {n k : Nat}
    (hladder : l.Pairwise (fun a b => a.beatIndex < b.beatIndex))
    (h : (l.insertionSort chronological).map TimeSkipBeatEvent.beatIndex = List.range' n k) :
    l.insertionSort chronological = l := by
  have hindex : (l.insertionSort chronological).Pairwise
      (fun a b => a.beatIndex < b.beatIndex) := by
    apply List.pairwise_map.mp
    rw [h]
    exact List.pairwise_lt_range'
  exact List.Perm.eq_of_pairwise (fun a b _ _ hab hba => absurd hab (by omega)) hindex
    hladder (List.perm_insertionSort _ _)

theorem pairwise_crossing (d : TropeDefinition) (id : String) (n : Nat) (before after rate : ℚ)
    (days : Int) : ((rungs d.escalation n after).map (crossing d id before rate days)).Pairwise
      (fun a b => a.beatIndex < b.beatIndex) := by
  rw [List.pairwise_map]
  exact pairwise_rungs _ _ _

theorem climbs_of_reported {id : String} {n : Nat} {after rate : ℚ} {days : Int}
    (h : (((rungs d.escalation n after).map (crossing d id before rate days)).insertionSort
        chronological).map TimeSkipBeatEvent.beatIndex
      = List.range' n (rungs d.escalation n after).length) :
    Climbs d.escalation n before after rate days := by
  -- reported in the order of the ladder, the beats are already in that order
  have hsorted := insertionSort_eq_of_reported (pairwise_crossing d id n before after rate days) h
  have hdays : (rungs d.escalation n after).Pairwise (fun b c =>
      daysIntoSkip before rate days b.1 ≤ daysIntoSkip before rate days c.1) := by
    have hchron := List.pairwise_insertionSort chronological
      ((rungs d.escalation n after).map (crossing d id before rate days))
    rw [hsorted, List.pairwise_map] at hchron
    exact hchron.imp chronological_crossing.mp
  have hindex : (rungs d.escalation n after).map Prod.snd
      = List.range' n (rungs d.escalation n after).length := by
    rw [← h, hsorted, List.map_map]
    rfl
  intro b hb c hc hn hlt hat
  have hcr : c ∈ rungs d.escalation n after :=
    mem_rungs.mpr ⟨List.mem_zipIdx_iff_getElem?.mp hc, by omega, hat⟩
  have hcrange : c.2 ∈ List.range' n (rungs d.escalation n after).length := by
    rw [← hindex]
    exact List.mem_map_of_mem hcr
  have hbrange : b.2 ∈ List.range' n (rungs d.escalation n after).length := by
    rw [List.mem_range'_1] at hcrange ⊢
    omega
  rw [← hindex] at hbrange
  obtain ⟨b', hbr, hb'⟩ := List.mem_map.mp hbrange
  have heq : b' = b := by
    have hget := (mem_rungs.mp hbr).1
    rw [hb', List.mem_zipIdx_iff_getElem?.mp hb] at hget
    exact Prod.ext (Option.some.inj hget).symm hb'
  rw [heq] at hbr
  refine ⟨(mem_rungs.mp hbr).2.2, ?_⟩
  -- the days do not decrease along the rungs, and `b` stands before `c`
  have hall := List.Pairwise.forall_of_forall_of_flip
    (R := fun x y : TropeEscalation × Nat => x.2 < y.2 →
      daysIntoSkip before rate days x.1 ≤ daysIntoSkip before rate days y.1)
    (fun _ _ _ => le_rfl) (hdays.imp (fun hxy => fun _ => hxy))
    ((pairwise_rungs _ _ _).imp (fun hxy hyx => absurd hxy (by omega)))
  exact hall hbr hcr hlt

theorem reported_of_climbs {n : Nat} {after rate : ℚ} {days : Int} (id : String)
    (h : Climbs d.escalation n before after rate days) :
    (((rungs d.escalation n after).map (crossing d id before rate days)).insertionSort
        chronological).map TimeSkipBeatEvent.beatIndex
      = List.range' n (rungs d.escalation n after).length := by
  have hsorted : ((rungs d.escalation n after).map
      (crossing d id before rate days)).Pairwise chronological := by
    rw [List.pairwise_map]
    apply (pairwise_rungs _ _ _).imp_of_mem
    intro b c hb hc hlt
    obtain ⟨hbget, hbn, -⟩ := mem_rungs.mp hb
    obtain ⟨hcget, -, hcat⟩ := mem_rungs.mp hc
    exact chronological_crossing.mpr (h b (List.mem_zipIdx_iff_getElem?.mpr hbget) c
      (List.mem_zipIdx_iff_getElem?.mpr hcget) hbn hlt hcat).2
  rw [hsorted.insertionSort_eq, List.map_map]
  show (rungs d.escalation n after).map Prod.snd = _
  have hlen : ((rungs d.escalation n after).map Prod.snd).length
      = (rungs d.escalation n after).length := List.length_map Prod.snd
  rw [← hlen]
  apply eq_range'_of_closed
  · exact List.pairwise_map.mpr (pairwise_rungs _ _ _)
  · intro x hx
    obtain ⟨c, hc, rfl⟩ := List.mem_map.mp hx
    exact (mem_rungs.mp hc).2.1
  · intro x hx m hnm hmx
    obtain ⟨c, hc, rfl⟩ := List.mem_map.mp hx
    obtain ⟨hcget, -, hcat⟩ := mem_rungs.mp hc
    have hm : m < d.escalation.length := by
      have := (List.getElem?_eq_some_iff.mp hcget).1
      omega
    have hget : d.escalation[m]? = some d.escalation[m] := List.getElem?_eq_getElem hm
    have hbelow := h (d.escalation[m], m) (List.mem_zipIdx_iff_getElem?.mpr hget) c
      (List.mem_zipIdx_iff_getElem?.mpr hcget) hnm hmx hcat
    exact List.mem_map.mpr ⟨(d.escalation[m], m), mem_rungs.mpr ⟨hget, hnm, hbelow.1⟩, rfl⟩

/-- **A skip reports the next rungs of a ladder, one after the other**, exactly if it crosses
    them that way. -/
theorem reported_iff_climbs (d : TropeDefinition) (id : String) (n : Nat)
    (before after rate : ℚ) (days : Int) :
    ((((rungs d.escalation n after).map (crossing d id before rate days)).insertionSort
        chronological).map TimeSkipBeatEvent.beatIndex
      = List.range' n (rungs d.escalation n after).length) ↔
      Climbs d.escalation n before after rate days :=
  ⟨climbs_of_reported, reported_of_climbs id⟩

/-! ### One trope -/

theorem drift_eq_skipped (pack : Pack) (tick : Tick) (t : TropeState) :
    drift pack tick t = (skipped pack tick t).1 := by
  unfold drift skipped
  split <;> rfl

/-- The days of a tick leave a trope, or move it along and fire the rungs they cross. -/
theorem skipped_cases (pack : Pack) (tick : Tick) (t : TropeState) :
    ((skipped pack tick t).1 = t ∧ (skipped pack tick t).2 = [] ∧
      ¬ (t.status = .progressing ∧ 0 < tick.daysAdvanced ∧ ∃ d ∈ pack.byId t.id,
        0 < d.ratePerDay ∧
          min 1 (t.progress + d.ratePerDay * daysApplied tick.daysAdvanced) ≠ t.progress)) ∨
    ∃ d, pack.byId t.id = some d ∧ t.status = .progressing ∧ 0 < tick.daysAdvanced ∧
      0 < d.ratePerDay ∧
      min 1 (t.progress + d.ratePerDay * daysApplied tick.daysAdvanced) ≠ t.progress ∧
      (skipped pack tick t).2 = (rungs d.escalation t.beatsFired
            (min 1 (t.progress + d.ratePerDay * daysApplied tick.daysAdvanced))).map
          (crossing d t.id t.progress d.ratePerDay (daysApplied tick.daysAdvanced)) ∧
      (skipped pack tick t).1.progress
        = min 1 (t.progress + d.ratePerDay * daysApplied tick.daysAdvanced) ∧
      (skipped pack tick t).1.beatsFired
        = ((skipped pack tick t).2.getLast?.map (·.beatIndex + 1)).getD t.beatsFired := by
  by_cases hdays : 0 < tick.daysAdvanced
  · rw [skipped, if_pos hdays]
    by_cases hstatus : t.status = .progressing
    · rw [skip, if_neg (not_not_intro hstatus)]
      cases hd : pack.byId t.id with
      | none =>
        left
        refine ⟨rfl, rfl, ?_⟩
        rintro ⟨-, -, d, hd', -⟩
        simp at hd'
      | some d =>
        dsimp only
        by_cases hrate : d.ratePerDay ≤ 0
        · left
          rw [if_pos hrate]
          refine ⟨rfl, rfl, ?_⟩
          rintro ⟨-, -, d', hd', hpos, -⟩
          rw [Option.mem_some_iff] at hd'
          subst hd'
          exact absurd hpos (not_lt.mpr hrate)
        · rw [if_neg hrate]
          -- at 1.0 already, or after no time, nothing moves
          by_cases hpinned : min 1 (t.progress + d.ratePerDay * daysApplied tick.daysAdvanced)
              = t.progress
          · left
            rw [if_pos hpinned]
            refine ⟨rfl, rfl, ?_⟩
            rintro ⟨-, -, d', hd', -, hmoved⟩
            rw [Option.mem_some_iff] at hd'
            subst hd'
            exact hmoved hpinned
          · right
            rw [if_neg hpinned]
            refine ⟨d, rfl, hstatus, hdays, not_le.mp hrate, hpinned, ?_, ?_, ?_⟩
            · exact events_fireCrossed d _ _ _ _ _ _ 0 _
            · have hpr := (fireCrossed_frame d t.progress
                (min 1 (t.progress + d.ratePerDay * daysApplied tick.daysAdvanced)) d.ratePerDay
                (daysApplied tick.daysAdvanced) tick.nowTurn d.escalation.zipIdx
                { t with
                  progress :=
                    min 1 (t.progress + d.ratePerDay * daysApplied tick.daysAdvanced) }).2.2
              split <;> exact hpr
            · have hbeats := beatsFired_fireCrossed d t.progress
                (min 1 (t.progress + d.ratePerDay * daysApplied tick.daysAdvanced)) d.ratePerDay
                (daysApplied tick.daysAdvanced) tick.nowTurn d.escalation.zipIdx
                { t with
                  progress := min 1 (t.progress + d.ratePerDay * daysApplied tick.daysAdvanced) }
              split <;> exact hbeats
    · left
      rw [skip, if_pos hstatus]
      exact ⟨rfl, rfl, fun h => hstatus h.1⟩
  · left
    rw [skipped, if_neg hdays]
    exact ⟨rfl, rfl, fun h => hdays h.2.1⟩

/-- The days of a tick report the next beats of a trope, one after the other, exactly if they
    lead it up its ladder in order. -/
theorem reported_iff_climbsInOrder (pack : Pack) (tick : Tick) (t : TropeState) :
    (((skipped pack tick (advance pack t)).2.insertionSort chronological).map
        TimeSkipBeatEvent.beatIndex
      = List.range' t.beatsFired (skipped pack tick (advance pack t)).2.length) ↔
      ClimbsInOrder pack tick t := by
  obtain ⟨hid, hst, hbeats⟩ := advance_frame pack t
  rcases skipped_cases pack tick (advance pack t) with ⟨-, hnil, hstill⟩ |
      ⟨d, hd, hstatus, hdays, hrate, hmoved, hevents, -, -⟩
  · rw [hnil]
    simp only [List.insertionSort_nil, List.map_nil, List.length_nil, List.range'_zero, true_iff]
    intro hstatus hdays d hd hrate
    dsimp only
    intro hmoved
    rw [hst, hid] at hstill
    exact absurd ⟨hstatus, hdays, d, hd, hrate, hmoved⟩ hstill
  · rw [hevents, List.length_map, hbeats, reported_iff_climbs]
    rw [hid] at hd
    constructor
    · intro h _ _ d' hd' _
      rw [hd, Option.mem_some_iff] at hd'
      subst hd'
      exact fun _ => h
    · intro h
      exact h (hst ▸ hstatus) hdays d hd hrate hmoved

/-- Led up its ladder in order, a trope counts exactly the beats that fired. -/
theorem beatsFired_drift (h : ClimbsInOrder pack tick t) :
    (drift pack tick (advance pack t)).beatsFired
      = t.beatsFired + (skipped pack tick (advance pack t)).2.length := by
  have hreported := (reported_iff_climbsInOrder pack tick t).mpr h
  obtain ⟨hid, -, hbeats⟩ := advance_frame pack t
  rw [drift_eq_skipped]
  rcases skipped_cases pack tick (advance pack t) with ⟨hsame, hnil, -⟩ |
      ⟨d, -, -, -, -, -, hevents, -, hcount⟩
  · rw [hsame, hnil, hbeats]
    rfl
  · -- the last beat counted is the last of the rungs, which are already in their order
    rw [hcount, hbeats]
    have hindex : (skipped pack tick (advance pack t)).2.map TimeSkipBeatEvent.beatIndex
        = List.range' t.beatsFired (skipped pack tick (advance pack t)).2.length := by
      have hladder : (skipped pack tick (advance pack t)).2.Pairwise
          (fun a b => a.beatIndex < b.beatIndex) := by
        rw [hevents]
        exact pairwise_crossing _ _ _ _ _ _ _
      rw [← hreported, insertionSort_eq_of_reported hladder hreported]
    have hlast := congrArg List.getLast? hindex
    rw [List.getLast?_map, List.getLast?_range'] at hlast
    cases hgl : (skipped pack tick (advance pack t)).2.getLast? with
    | none =>
      rw [List.getLast?_eq_none_iff] at hgl
      simp [hgl]
    | some e =>
      have hpos : (skipped pack tick (advance pack t)).2.length ≠ 0 := by
        intro hzero
        rw [List.length_eq_zero_iff.mp hzero] at hgl
        simp at hgl
      rw [hgl, if_neg hpos] at hlast
      simp only [Option.map_some, Option.some.injEq] at hlast
      simp only [Option.map_some, Option.getD_some]
      omega

theorem reached_of_mem_skipped {e : TimeSkipBeatEvent}
    (he : e ∈ (skipped pack tick (advance pack t)).2) :
    ∃ d ∈ pack.byId t.id, ∃ beat ∈ d.escalation[e.beatIndex]?,
      beat.atProgress ≤ (drift pack tick (advance pack t)).progress := by
  rw [drift_eq_skipped]
  rcases skipped_cases pack tick (advance pack t) with ⟨-, hnil, -⟩ |
      ⟨d, hd, -, -, -, -, hevents, hpr, -⟩
  · rw [hnil] at he
    simp at he
  · rw [hevents] at he
    obtain ⟨c, hc, rfl⟩ := List.mem_map.mp he
    obtain ⟨hget, -, hat⟩ := mem_rungs.mp hc
    rw [(advance_frame pack t).1] at hd
    exact ⟨d, hd, c.1, hget, hat.trans (le_of_eq hpr.symm)⟩

/-! ### One tick -/

/-- The stagger fires the beat of the place it has chosen, and leaves the others. -/
theorem getElem?_fireOneStaggeredBeat (pack : Pack) (nowTurn : Int) (l : List TropeState)
    (i : Nat) : (fireOneStaggeredBeat pack nowTurn l)[i]?
      = if staggered pack l = some i then l[i]?.map (fire pack nowTurn) else l[i]? := by
  unfold fireOneStaggeredBeat
  cases hj : staggered pack l with
  | none => simp
  | some j =>
    by_cases hij : j = i
    · simp [hij]
    · simp [hij]

/-- The gate leaves a trope's id and what it has fired. -/
theorem Gates.frame (h : Gates t t') : t'.id = t.id ∧ t'.beatsFired = t.beatsFired := by
  rcases h with rfl | ⟨-, rfl⟩ <;> exact ⟨rfl, rfl⟩

variable {i : Nat}

/-- What a tick leaves at a place: the trope after its progress, with one beat more if the
    stagger chose the place. -/
theorem getElem?_tickTropes (pack : Pack) (s : Engine) (tick : Tick)
    (h : (tickTropes pack s tick).activeTropes[i]? = some t') :
    ∃ t, s.activeTropes[i]? = some t ∧ t'.id = t.id ∧
      t'.beatsFired = (drift pack tick (advance pack t)).beatsFired
        + if staggered pack (drifted pack s tick) = some i then 1 else 0 := by
  have hprogress := activeTropes_drift pack s tick
  unfold tickTropes at h
  dsimp only at h
  rw [hprogress] at h
  -- the gate treats the tropes place by place
  have hgate := forall₂_gateFrom pack tick
    (tick.nowTurn ≤ cooldownUntil (fireOneStaggeredBeat pack tick.nowTurn (drifted pack s tick)))
    ((fireOneStaggeredBeat pack tick.nowTurn (drifted pack s tick)).countP
      (·.status = .progressing))
    (fireOneStaggeredBeat pack tick.nowTurn (drifted pack s tick))
  obtain ⟨hlt, hget⟩ := List.getElem?_eq_some_iff.mp h
  have hlt' : i < (fireOneStaggeredBeat pack tick.nowTurn (drifted pack s tick)).length := by
    rw [hgate.length_eq]
    exact hlt
  have hgates := (List.forall₂_iff_get.mp hgate).2 i hlt' hlt
  rw [List.get_eq_getElem, List.get_eq_getElem] at hgates
  have ht' : _ = t' := hget
  obtain ⟨hid, hbeats⟩ := hgates.frame
  have hfired := getElem?_fireOneStaggeredBeat pack tick.nowTurn (drifted pack s tick) i
  rw [List.getElem?_eq_getElem hlt'] at hfired
  have hdrifted : (drifted pack s tick)[i]?
      = s.activeTropes[i]?.map (fun t => drift pack tick (advance pack t)) := List.getElem?_map
  have hidDrift : ∀ t, (drift pack tick (advance pack t)).id = t.id := by
    intro t
    rw [id_drift]
    exact (advance_frame pack t).1
  cases ht : s.activeTropes[i]? with
  | none =>
    rw [hdrifted, ht] at hfired
    simp at hfired
  | some t =>
    rw [hdrifted, ht] at hfired
    refine ⟨t, rfl, ?_⟩
    subst ht'
    by_cases hi : staggered pack (drifted pack s tick) = some i
    · rw [if_pos hi] at hfired ⊢
      have heq := Option.some.inj hfired
      rw [heq] at hid hbeats
      exact ⟨hid.trans ((fire_frame pack tick.nowTurn _).1.trans (hidDrift t)),
        hbeats.trans (fire_frame pack tick.nowTurn _).2⟩
    · rw [if_neg hi] at hfired ⊢
      have heq := Option.some.inj hfired
      rw [heq] at hid hbeats
      exact ⟨hid.trans (hidDrift t), hbeats⟩

/-- The trope at a place of a tick is the trope there before it. -/
theorem exists_getElem?_tickTropes (pack : Pack) (s : Engine) (tick : Tick)
    (h : s.activeTropes[i]? = some t) :
    ∃ t', (tickTropes pack s tick).activeTropes[i]? = some t' := by
  have hlen := (forall₂_tickTropes pack s tick).length_eq
  have hlt := (List.getElem?_eq_some_iff.mp h).1
  exact ⟨_, List.getElem?_eq_getElem (hlen ▸ hlt)⟩

theorem due_of_staggered_drifted (ht : s.activeTropes[i]? = some t)
    (h : staggered pack (drifted pack s tick) = some i) :
    ∃ d ∈ pack.byId t.id,
      ∃ beat ∈ d.escalation[(drift pack tick (advance pack t)).beatsFired]?,
        beat.atProgress ≤ (drift pack tick (advance pack t)).progress := by
  obtain ⟨u, hu, -, d, hd, beat, hbeat, hat⟩ := due_of_staggered h
  have hdrifted : (drifted pack s tick)[i]?
      = s.activeTropes[i]?.map (fun t => drift pack tick (advance pack t)) := List.getElem?_map
  rw [hdrifted, ht] at hu
  have hu' : drift pack tick (advance pack t) = u := Option.some.inj hu
  subst hu'
  rw [id_drift, (advance_frame pack t).1] at hd
  exact ⟨d, hd, beat, hbeat, hat⟩

/-- The beats a tick fires for one trope. -/
theorem firings_eq (ht : s.activeTropes[i]? = some t) :
    firings pack s tick i
      = ((skipped pack tick (advance pack t)).2.insertionSort chronological).map
          (fun e => { index := e.beatIndex
                      progress := (drift pack tick (advance pack t)).progress })
        ++ if staggered pack (drifted pack s tick) = some i then
            [{ index := (drift pack tick (advance pack t)).beatsFired
               progress := (drift pack tick (advance pack t)).progress }] else [] := by
  unfold firings
  rw [ht]

theorem reached_of_mem_firings (ht : s.activeTropes[i]? = some t) {f : Firing}
    (hf : f ∈ firings pack s tick i) :
    ∃ d ∈ pack.byId t.id, ∃ beat ∈ d.escalation[f.index]?, beat.atProgress ≤ f.progress := by
  rw [firings_eq ht, List.mem_append] at hf
  rcases hf with hf | hf
  · obtain ⟨e, he, rfl⟩ := List.mem_map.mp hf
    exact reached_of_mem_skipped ((List.mem_insertionSort _).mp he)
  · by_cases hi : staggered pack (drifted pack s tick) = some i
    · rw [if_pos hi, List.mem_singleton] at hf
      subst hf
      exact due_of_staggered_drifted ht hi
    · rw [if_neg hi] at hf
      simp at hf

theorem index_firings (pack : Pack) (tick : Tick) (ht : s.activeTropes[i]? = some t) :
    (firings pack s tick i).map Firing.index
      = ((skipped pack tick (advance pack t)).2.insertionSort chronological).map
          TimeSkipBeatEvent.beatIndex ++ if staggered pack (drifted pack s tick) = some i then
            [(drift pack tick (advance pack t)).beatsFired] else [] := by
  rw [firings_eq ht, List.map_append, List.map_map]
  split <;> rfl

/-! ### Whole runs -/

/-- **Step lemma.** A tick whose skipped days lead every trope up its ladder in order keeps
    every trope in the order of its ladder. -/
theorem InLadderOrder.play {p : Played} (h : InLadderOrder pack p)
    (hok : ∀ t ∈ p.engine.activeTropes, ClimbsInOrder pack tick t) :
    InLadderOrder pack (Trope.play pack p tick) := by
  intro i t' ht'
  obtain ⟨t, ht, hid, hbeats⟩ := getElem?_tickTropes pack p.engine tick ht'
  obtain ⟨hrange, hcount, hladder, hreached⟩ := h i t ht
  have hclimb := hok t (List.mem_of_getElem? ht)
  have hreported := (reported_iff_climbsInOrder pack tick t).mpr hclimb
  have hdrift := beatsFired_drift hclimb
  have hindex := index_firings pack tick ht
  rw [hreported, hdrift] at hindex
  -- with the beat of the stagger, the tick fires the next beats of the ladder
  have hnext : (firings pack p.engine tick i).map Firing.index
      = List.range' (p.fired i).length (firings pack p.engine tick i).length := by
    have hlen := congrArg List.length hindex
    rw [List.length_map, List.length_append, List.length_range'] at hlen
    rw [hindex, hlen, ← hcount]
    split
    · rw [List.length_singleton, ← List.range'_append_1]
      rfl
    · simp
  have hlen : (firings pack p.engine tick i).length
      = (skipped pack tick (advance pack t)).2.length
        + if staggered pack (drifted pack p.engine tick) = some i then 1 else 0 := by
    rw [firings_eq ht, List.length_append, List.length_map, List.length_insertionSort]
    split <;> rfl
  have hfired : (Trope.play pack p tick).fired i
      = p.fired i ++ firings pack p.engine tick i := rfl
  rw [hfired, List.length_append]
  refine ⟨?_, by omega, ?_, ?_⟩
  · rw [List.map_append, hrange, hnext, List.range_eq_range', List.range_eq_range',
      ← List.range'_append_1, Nat.zero_add]
  · -- the ladder is not passed: the last beat fired is one of its rungs
    intro d hd
    rw [hid] at hd
    rcases List.eq_nil_or_concat (firings pack p.engine tick i) with hnil | ⟨fs, f, hfs⟩
    · have hzero : (firings pack p.engine tick i).length = 0 := by rw [hnil]; rfl
      have hbefore := hladder d hd
      omega
    · have hf : f ∈ firings pack p.engine tick i := by
        rw [hfs]
        simp
      obtain ⟨d', hd', beat, hbeat, -⟩ := reached_of_mem_firings ht hf
      have heq : d' = d := Option.some.inj ((Option.mem_def.mp hd').symm.trans hd)
      rw [heq] at hbeat
      have hlt := (List.getElem?_eq_some_iff.mp hbeat).1
      have hlast := congrArg List.getLast? hnext
      rw [hfs, List.getLast?_range'] at hlast
      simp only [List.concat_eq_append, List.map_append, List.map_cons, List.map_nil,
        List.getLast?_append, List.getLast?_singleton, List.length_append, List.length_singleton,
        Option.some_or, Nat.add_eq_zero_iff, one_ne_zero, and_false, if_false,
        Option.some.injEq] at hlast
      have hfslen := congrArg List.length hfs
      simp only [List.concat_eq_append, List.length_append, List.length_singleton] at hfslen
      omega
  · intro f hf
    rw [hid]
    rcases List.mem_append.mp hf with hf | hf
    · exact hreached f hf
    · exact reached_of_mem_firings ht hf

theorem not_inLadderOrder_play {p : Played} (h : InLadderOrder pack p)
    (hnot : ¬ ∀ t ∈ p.engine.activeTropes, ClimbsInOrder pack tick t) :
    ¬ InLadderOrder pack (play pack p tick) := by
  intro hplay
  apply hnot
  intro t hmem
  obtain ⟨i, ht⟩ := List.mem_iff_getElem?.mp hmem
  obtain ⟨t', ht'⟩ := exists_getElem?_tickTropes pack p.engine tick ht
  obtain ⟨hrange, hcount, -, -⟩ := h i t ht
  obtain ⟨hrange', -, -, -⟩ := hplay i t' ht'
  have hall : (p.fired i ++ firings pack p.engine tick i).map Firing.index
      = List.range (p.fired i ++ firings pack p.engine tick i).length := hrange'
  rw [List.map_append, hrange, List.length_append, List.range_eq_range', List.range_eq_range',
    ← List.range'_append_1, Nat.zero_add, List.append_right_inj, index_firings pack tick ht,
    firings_eq ht, List.length_append, List.length_map, List.length_insertionSort,
    ← List.range'_append_1] at hall
  -- the beats of the skipped days stand first in what the tick reports
  have hreported := (List.append_inj hall (by simp)).1
  rw [← hcount] at hreported
  exact (reported_iff_climbsInOrder pack tick t).mp hreported

/-- **Beats fire in the order of their ladder**, over every run of ticks and time skips from
    tropes that have not fired yet, if and only if in every tick the skipped days lead every
    trope up its ladder in order. -/
theorem inLadderOrder_iff_climbsInOrder (pack : Pack) (s : Engine)
    (hs : ∀ t ∈ s.activeTropes, t.beatsFired = 0) (ticks : List Tick) :
    Throughout (play pack) (InLadderOrder pack) { engine := s } ticks ↔
      StepsMeet (play pack)
        (fun p tick => ∀ t ∈ p.engine.activeTropes, ClimbsInOrder pack tick t)
        { engine := s } ticks := by
  have hfresh : InLadderOrder pack { engine := s } := by
    intro i t ht
    have hzero := hs t (List.mem_of_getElem? ht)
    refine ⟨rfl, hzero, ?_, by simp⟩
    intro d _
    rw [hzero]
    exact Nat.zero_le _
  exact throughout_iff_stepsMeet (fun _ _ h hok => h.play hok) (fun _ h => h)
    (fun _ _ h hnot => not_inLadderOrder_play h hnot) hfresh

/-- The feud's ladder with its first rung on top. -/
def topHeavyLadder : Pack :=
  [{ id := some "feud"
     name := "The feud"
     escalation := [{ atProgress := 9 / 10, event := "One house stands" },
       { atProgress := 3 / 10, event := "Blood is drawn" }]
     passiveProgression := some { ratePerDay := 1 / 10 } }]

/-- Five days fire the second beat of the feud and count two; the first one never fires. -/
theorem not_inLadderOrder_of_topHeavyLadder :
    ¬ Throughout (play topHeavyLadder) (InLadderOrder topHeavyLadder)
      { engine := { activeTropes := [{ id := "feud", status := .progressing }] } }
      [{ nowTurn := 1, daysAdvanced := 5 }] := by
  intro h
  have hcount := (h.last 0
    { id := "feud", status := .progressing, progress := 1 / 2, beatsFired := 2,
      lastFiredTurn := some 1 } (by decide +kernel)).2.1
  revert hcount
  decide +kernel

/-- The full ladder of the feud, climbed by days and turns. -/
theorem inLadderOrder_of_fullLadder :
    Throughout (play fullLadder) (InLadderOrder fullLadder)
      { engine := { activeTropes := [{ id := "feud", status := .progressing }] } }
      [{ nowTurn := 1 }, { nowTurn := 2, daysAdvanced := 3 }, { nowTurn := 3 }] :=
  (inLadderOrder_iff_climbsInOrder fullLadder _ (by decide) _).mpr (by decide +kernel)

/-! ### Sorted ladders -/

/-- The thresholds of every ladder of the pack ascend. -/
def Pack.Sorted (pack : Pack) : Prop :=
  ∀ d ∈ pack, d.escalation.Pairwise (fun a b => a.atProgress ≤ b.atProgress)

/-- In a sorted ladder a later rung is not below an earlier one. -/
theorem Pack.Sorted.le (h : pack.Sorted) {id : String} (hd : d ∈ pack.byId id)
    {b : TropeEscalation × Nat} (hb : b ∈ d.escalation.zipIdx) (hc : c ∈ d.escalation.zipIdx)
    (hlt : b.2 < c.2) : b.1.atProgress ≤ c.1.atProgress := by
  have hsorted := h d (key_of_lastBy (Option.mem_def.mp hd)).1
  obtain ⟨hbl, hbget⟩ := List.getElem?_eq_some_iff.mp (List.mem_zipIdx_iff_getElem?.mp hb)
  obtain ⟨hcl, hcget⟩ := List.getElem?_eq_some_iff.mp (List.mem_zipIdx_iff_getElem?.mp hc)
  rw [← hbget, ← hcget]
  exact List.pairwise_iff_getElem.mp hsorted _ _ hbl hcl hlt

/-- Beats that are not above others are reported on no later day. -/
theorem daysIntoSkip_mono {rate : ℚ} (hrate : 0 < rate) (days : Int) {b c : TropeEscalation}
    (h : b.atProgress ≤ c.atProgress) :
    daysIntoSkip before rate days b ≤ daysIntoSkip before rate days c := by
  have hquot : (b.atProgress - before) / rate ≤ (c.atProgress - before) / rate := by
    gcongr
  have hround := roundHalfEven_mono hquot
  unfold daysIntoSkip
  omega

theorem Pack.Sorted.climbsInOrder (h : pack.Sorted) (tick : Tick) (t : TropeState) :
    ClimbsInOrder pack tick t := by
  intro _ _ d hd hrate
  dsimp only
  intro _ b hb c hc _ hlt hat
  have hle := h.le hd hb hc hlt
  exact ⟨hle.trans hat, daysIntoSkip_mono hrate _ hle⟩

/-- **Sorted ladders are climbed in order**, over every run of ticks and time skips. -/
theorem Pack.Sorted.inLadderOrder (h : pack.Sorted) {p : Played} (hp : InLadderOrder pack p)
    (ticks : List Tick) : Throughout (play pack) (InLadderOrder pack) p ticks :=
  throughout_of_step (fun _ tick hp => hp.play (fun t _ => h.climbsInOrder tick t)) hp ticks

theorem inLadderOrder_sorted_fullLadder :
    Throughout (play fullLadder) (InLadderOrder fullLadder)
      { engine := { activeTropes := [{ id := "feud", status := .progressing }] } }
      [{ nowTurn := 1, daysAdvanced := 9 }, { nowTurn := 2 }] := by
  refine Pack.Sorted.inLadderOrder (by unfold Pack.Sorted; decide +kernel) ?_ _
  rintro (_ | _) t ⟨⟩
  exact ⟨rfl, rfl, fun _ _ => Nat.zero_le _, by simp⟩

/-! ### What the engine queues -/

/-- A tick queues the beats of its skipped days, by day. -/
theorem pendingTimeSkipSummary_tickTropes (pack : Pack) (s : Engine) (tick : Tick) :
    (tickTropes pack s tick).pendingTimeSkipSummary
      = s.pendingTimeSkipSummary ++ (s.activeTropes.flatMap
          (fun t => (skipped pack tick (advance pack t)).2)).insertionSort chronological := by
  unfold tickTropes
  dsimp only
  by_cases hdays : 0 < tick.daysAdvanced
  · have hne : daysApplied tick.daysAdvanced ≠ 0 := ne_of_gt (daysApplied_pos hdays)
    rw [if_pos hdays, passTimeSkip]
    rw [if_neg hne]
    simp only [advanceProgress, List.flatMap_map, skipped, if_pos hdays]
  · have hnone : s.activeTropes.flatMap
        (fun t => (skipped pack tick (advance pack t)).2) = [] := by
      rw [List.flatMap_eq_nil_iff]
      intro t _
      rw [skipped, if_neg hdays]
    rw [if_neg hdays, hnone, List.insertionSort_nil, List.append_nil]

end Sidequest.Trope
