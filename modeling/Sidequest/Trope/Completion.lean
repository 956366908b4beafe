import Mathlib.Data.List.Sort
import Sidequest.Lib.Except
import Sidequest.Lib.First
import Sidequest.Lib.PyNumber
import Sidequest.Lib.Run

namespace Sidequest.Trope

open Lib

/-!
# Completed tropes

A trope is complete when its whole ladder has fired and its progress is full. Does a complete
trope ever keep its slot (`NoneStuck`)?

* `advanceProgress` — passive progression of every progressing trope;
* the tick looks for a resolution only where a beat fires, so a trope whose ladder is used up
  before its progress is full climbs past the check;
* `noneStuck_iff_climbsOpen` — over every run: no complete trope keeps its slot exactly while no
  progressing trope with a used-up ladder climbs to full progress outside a time skip.
-/

section

/-! ### The pack -/

/-- One beat of an escalation ladder, with the progress it fires at. -/
structure TropeEscalation where
  atProgress : ℚ
  event : String
  npcsInvolved : List String := []
  stakes : String := ""
deriving DecidableEq

/-- Passive progression by turn and by day. -/
structure PassiveProgression where
  ratePerTurn : ℚ := 0
  ratePerDay : ℚ := 0
deriving DecidableEq

/-- A trope as the pack defines it. -/
structure TropeDefinition where
  id : Option String
  name : String
  escalation : List TropeEscalation := []
  passiveProgression : Option PassiveProgression := none
  factions : List String := []
deriving DecidableEq

namespace TropeDefinition

variable (d : TropeDefinition)

/-- The rate of the turns; nothing without a passive progression. -/
def ratePerTurn : ℚ := (d.passiveProgression.map PassiveProgression.ratePerTurn).getD 0

/-- The rate of the days; nothing without a passive progression. -/
def ratePerDay : ℚ := (d.passiveProgression.map PassiveProgression.ratePerDay).getD 0

end TropeDefinition

/-- A pack of tropes. -/
abbrev Pack := List TropeDefinition

variable (pack : Pack)

/-- The definition behind an id; of several definitions of one id the last one counts. -/
def Pack.byId (id : String) : Option TropeDefinition :=
  lastBy TropeDefinition.id pack (some id)

/-! ### The state -/

/-- The status of a trope in play. -/
inductive TropeStatus where
  | dormant
  | active
  | progressing
  | resolved
deriving DecidableEq

/-- A trope in play. -/
structure TropeState where
  id : String := ""
  status : TropeStatus := .dormant
  progress : ℚ := 0
  beatsFired : Nat := 0
  fireCooldownUntil : Option Int := none
  lastFiredTurn : Option Int := none
deriving DecidableEq

/-- A beat that fired during a time skip. -/
structure TimeSkipBeatEvent where
  (tropeId tropeName : String)
  beatIndex : Nat
  (beatEvent stakes : String)
  npcsInvolved : List String
  daysIntoSkip : Int

/-- What the engine reads and writes of the snapshot. -/
structure Engine where
  activeTropes : List TropeState
  pendingTimeSkipSummary : List TimeSkipBeatEvent := []
  daysElapsed : Int := 0

/-- The hard ceiling on progressing tropes. -/
def maxSimultaneousActive : Nat := 3

/-- The turns without a new activation after a beat has fired. -/
def fireCooldownTurns : Int := 2

/-- The global brake on progression by turn. -/
def progressionRateMultiplier : ℚ := 1 / 2

/-- The most days one tick applies. -/
def dayTickCap : Int := 14

/-! ### Pass A: progression -/

/-- One turn's progress of a trope with the definition `d`. -/
def turnDelta (d : TropeDefinition) : ℚ := d.ratePerTurn * progressionRateMultiplier

/-- Passive progression of one trope; dormant and resolved tropes are inert. -/
def advance (t : TropeState) : TropeState :=
  if t.status ≠ .progressing then t
  else
    match pack.byId t.id with
    | none => t
    | some d =>
      if d.passiveProgression.isNone then t
      else { t with progress := min 1 (t.progress + turnDelta d) }

variable (l : List TropeState)

/-- Pass A. -/
def advanceProgress : List TropeState := l.map (advance pack)

/-! ### Pass A2: skipped days -/

/-- The days a tick applies. -/
def daysApplied (daysAdvanced : Int) : Int := max 0 (min daysAdvanced dayTickCap)

/-- The day of the skip a beat is crossed on, counted from one. -/
def daysIntoSkip (before rate : ℚ) (days : Int) (beat : TropeEscalation) : Int :=
  min (max 1 (roundHalfEven ((beat.atProgress - before) / rate))) days

/-- Fire the beats of a ladder that are not fired yet and lie at or below the progress after
    the skip. -/
def fireCrossed (d : TropeDefinition) (before after rate : ℚ) (days nowTurn : Int) :
    List (TropeEscalation × Nat) → TropeState → TropeState × List TimeSkipBeatEvent
  | [], t => (t, [])
  | (beat, idx) :: rest, t =>
    if idx < t.beatsFired then fireCrossed d before after rate days nowTurn rest t
    else if after < beat.atProgress then fireCrossed d before after rate days nowTurn rest t
    else
      let (t', events) := fireCrossed d before after rate days nowTurn rest
        { t with beatsFired := idx + 1, lastFiredTurn := some nowTurn }
      (t', { tropeId := t.id
             tropeName := d.name
             beatIndex := idx
             beatEvent := beat.event
             stakes := beat.stakes
             npcsInvolved := beat.npcsInvolved
             daysIntoSkip := daysIntoSkip before rate days beat } :: events)

/-- The drift of one trope over a skip, with the beats it fires. A ladder that is fired to its
    end at full progress resolves the trope; an empty ladder never does. -/
def skip (days nowTurn : Int) (t : TropeState) : TropeState × List TimeSkipBeatEvent :=
  if t.status ≠ .progressing then (t, [])
  else
    match pack.byId t.id with
    | none => (t, [])
    | some d =>
      if d.ratePerDay ≤ 0 then (t, [])
      else
        let after := min 1 (t.progress + d.ratePerDay * days)
        if after = t.progress then (t, [])
        else
          let (t', events) :=
            fireCrossed d t.progress after d.ratePerDay days nowTurn d.escalation.zipIdx
              { t with progress := after }
          (if 1 ≤ after ∧ d.escalation ≠ [] ∧ d.escalation.length ≤ t'.beatsFired then
            { t' with status := .resolved } else t', events)

/-- The order of the beats of a skip: by day, then by trope. -/
def chronological (a b : TimeSkipBeatEvent) : Prop :=
  a.daysIntoSkip < b.daysIntoSkip ∨ (a.daysIntoSkip = b.daysIntoSkip ∧ a.tropeId ≤ b.tropeId)

instance : DecidableRel chronological := fun _ _ => inferInstanceAs (Decidable (_ ∨ _))

/-- Pass A2: every progressing trope drifts, and the beats it fires are queued for the next
    narration. -/
def passTimeSkip (daysAdvanced nowTurn : Int) (s : Engine) : Engine :=
  let days := daysApplied daysAdvanced
  if days = 0 then s
  else
    let skipped := s.activeTropes.map (skip pack days nowTurn)
    { activeTropes := skipped.map Prod.fst
      pendingTimeSkipSummary := s.pendingTimeSkipSummary ++
        (skipped.flatMap Prod.snd).insertionSort chronological
      daysElapsed := s.daysElapsed + days }

/-! ### Passes B and C: one beat, and the resolution it brings -/

/-- The next beat of a progressing trope is due. -/
def Due (t : TropeState) : Prop :=
  t.status = .progressing ∧
    ∃ d ∈ pack.byId t.id, ∃ beat ∈ d.escalation[t.beatsFired]?, beat.atProgress ≤ t.progress

instance (pack : Pack) (t : TropeState) : Decidable (Due pack t) :=
  inferInstanceAs (Decidable (_ ∧ _))

/-- The order of the candidates: the most advanced first, then by id. -/
def moreAdvanced (a b : TropeState × Nat) : Prop :=
  b.1.progress < a.1.progress ∨ (a.1.progress = b.1.progress ∧ a.1.id ≤ b.1.id)

instance : DecidableRel moreAdvanced := fun _ _ => inferInstanceAs (Decidable (_ ∨ _))

/-- The place of the trope whose beat fires this tick. -/
def staggered : Option Nat :=
  (((l.zipIdx.filter (fun c => Due pack c.1)).insertionSort moreAdvanced).head?).map Prod.snd

/-- Fire the next beat of a trope; a trope that has fired its whole ladder at full progress is
    resolved. -/
def fire (nowTurn : Int) (t : TropeState) : TropeState :=
  let t' := { t with
    beatsFired := t.beatsFired + 1
    lastFiredTurn := some nowTurn
    fireCooldownUntil := some (nowTurn + fireCooldownTurns) }
  match pack.byId t.id with
  | none => t'
  | some d =>
    if d.escalation.length ≤ t'.beatsFired ∧ 1 ≤ t'.progress then
      { t' with status := .resolved } else t'

/-- Passes B and C: of the tropes whose next beat is due only the most advanced one fires. -/
def fireOneStaggeredBeat (nowTurn : Int) (l : List TropeState) : List TropeState :=
  match staggered pack l with
  | none => l
  | some i => l.modify i (fire pack nowTurn)

/-! ### Pass D: activation -/

/-- Content is held back only when it is tagged for factions the active zone does not have. -/
def isEligible (contentFactions active : List String) (zoned : Bool) : Bool :=
  if ¬ zoned then true
  else if active = [] then true
  else if "*" ∈ contentFactions then true
  else if contentFactions = [] then true
  else contentFactions.any (· ∈ active)

/-- The last turn of the cooldown in force: the latest of all tropes. -/
def cooldownUntil : Int :=
  match l.map (fun t => t.fireCooldownUntil.getD 0) with
  | [] => 0
  | c :: cs => cs.foldl max c

/-- What a tick is given of the turn and of the party's zone. -/
structure Tick where
  nowTurn : Int
  daysAdvanced : Int := 0
  zoned : Bool := false
  active : List String := []

/-- The walk over the dormant tropes, with the number of progressing ones so far. -/
def gateFrom (pack : Pack) (tick : Tick) (cooldownActive : Bool) :
    Nat → List TropeState → List TropeState
  | _, [] => []
  | count, t :: l =>
    let factions := ((pack.byId t.id).map TropeDefinition.factions).getD []
    if t.status ≠ .dormant then t :: gateFrom pack tick cooldownActive count l
    else if ¬ isEligible factions tick.active tick.zoned then
      t :: gateFrom pack tick cooldownActive count l
    else if cooldownActive then t :: gateFrom pack tick cooldownActive count l
    else if maxSimultaneousActive ≤ count then t :: gateFrom pack tick cooldownActive count l
    else { t with status := .progressing } :: gateFrom pack tick cooldownActive (count + 1) l

/-- Pass D: dormant tropes start, one after the other, while zone, cooldown and cap let them. -/
def gateActivations (tick : Tick) (l : List TropeState) : List TropeState :=
  gateFrom pack tick (tick.nowTurn ≤ cooldownUntil l)
    (l.countP (fun t => t.status = .progressing)) l

/-! ### The tick -/

/-- Advance the engine by one turn. -/
def tickTropes (s : Engine) (tick : Tick) : Engine :=
  let s := { s with activeTropes := advanceProgress pack s.activeTropes }
  let s := if 0 < tick.daysAdvanced then passTimeSkip pack tick.daysAdvanced tick.nowTurn s else s
  let l := fireOneStaggeredBeat pack tick.nowTurn s.activeTropes
  { s with activeTropes := gateActivations pack tick l }

end

variable {pack : Pack} {t t' : TropeState} {l : List TropeState} {s : Engine} {tick : Tick}

/-- The whole ladder of the trope has fired, and its progress is full. -/
def Complete (pack : Pack) (t : TropeState) : Prop :=
  ∃ d ∈ pack.byId t.id, d.escalation.length ≤ t.beatsFired ∧ 1 ≤ t.progress

instance (pack : Pack) (t : TropeState) : Decidable (Complete pack t) :=
  inferInstanceAs (Decidable (∃ _ ∈ _, _))

/-- No complete trope is still progressing. -/
def NoneStuck (pack : Pack) (s : Engine) : Prop :=
  ∀ t ∈ s.activeTropes, t.status = .progressing → ¬ Complete pack t

instance (pack : Pack) (s : Engine) : Decidable (NoneStuck pack s) :=
  inferInstanceAs (Decidable (∀ _ ∈ _, _))

/-- No trope is complete without being resolved. -/
def Unfinished (pack : Pack) (s : Engine) : Prop :=
  ∀ t ∈ s.activeTropes, t.status ≠ .resolved → ¬ Complete pack t

instance (pack : Pack) (s : Engine) : Decidable (Unfinished pack s) :=
  inferInstanceAs (Decidable (∀ _ ∈ _, _))

/-- Every progressing trope with a used-up ladder stays below full progress over the turn, and,
    where the ladder is empty, over the days the tick skips. -/
def ClimbsOpen (pack : Pack) (s : Engine) (tick : Tick) : Prop :=
  ∀ t ∈ s.activeTropes, t.status = .progressing → ∀ d ∈ pack.byId t.id,
    d.escalation.length ≤ t.beatsFired →
      t.progress + turnDelta d < 1 ∧
      (d.escalation = [] → 0 < tick.daysAdvanced →
        t.progress + turnDelta d + d.ratePerDay * daysApplied tick.daysAdvanced < 1)

instance (pack : Pack) (s : Engine) (tick : Tick) : Decidable (ClimbsOpen pack s tick) :=
  inferInstanceAs (Decidable (∀ _ ∈ _, _))

/-! ### What a pass does to one trope -/

/-- The drift of the skipped days of a tick, if it skips any. -/
def drift (pack : Pack) (tick : Tick) (t : TropeState) : TropeState :=
  if 0 < tick.daysAdvanced then (skip pack (daysApplied tick.daysAdvanced) tick.nowTurn t).1
  else t

/-- The staggered pass leaves a trope, or fires its due beat. -/
def Staggers (pack : Pack) (tick : Tick) (t t' : TropeState) : Prop :=
  t' = t ∨ (Due pack t ∧ t' = fire pack tick.nowTurn t)

/-- The gate leaves a trope, or starts a dormant one. -/
def Gates (t t' : TropeState) : Prop :=
  t' = t ∨ (t.status = .dormant ∧ t' = { t with status := .progressing })

/-- A tick advances a trope, lets it drift, and passes it through the stagger and the gate. -/
def Ticks (pack : Pack) (tick : Tick) (t t' : TropeState) : Prop :=
  ∃ u, Staggers pack tick (drift pack tick (advance pack t)) u ∧ Gates u t'

/-- A tick of at least one skipped day applies at least one. -/
theorem daysApplied_pos {days : Int} (h : 0 < days) : 0 < daysApplied days := by
  unfold daysApplied dayTickCap
  omega

/-- The place chosen by the stagger holds a trope whose beat is due. -/
theorem due_of_staggered {i : Nat} (h : staggered pack l = some i) :
    ∃ t, l[i]? = some t ∧ Due pack t := by
  unfold staggered at h
  obtain ⟨⟨t, j⟩, hhead, hj⟩ := Option.map_eq_some_iff.mp h
  have hmem : (t, j) ∈ (l.zipIdx.filter (fun c => Due pack c.1)).insertionSort moreAdvanced :=
    List.mem_of_mem_head? hhead
  rw [List.mem_insertionSort, List.mem_filter] at hmem
  obtain ⟨hzip, hdue⟩ := hmem
  have hj' : j = i := hj
  subst hj'
  exact ⟨t, List.mem_zipIdx_iff_getElem?.mp hzip, of_decide_eq_true hdue⟩

/-- The stagger treats the tropes place by place. -/
theorem forall₂_fireOneStaggeredBeat (pack : Pack) (tick : Tick) (l : List TropeState) :
    List.Forall₂ (Staggers pack tick) l (fireOneStaggeredBeat pack tick.nowTurn l) := by
  have hrefl : List.Forall₂ (Staggers pack tick) l l := by
    apply List.forall₂_same.mpr
    exact fun t _ => .inl rfl
  unfold fireOneStaggeredBeat
  cases hi : staggered pack l with
  | none => exact hrefl
  | some i =>
    obtain ⟨t, hget, hdue⟩ := due_of_staggered hi
    apply List.forall₂_iff_get.mpr
    refine ⟨(List.length_modify _ _ _).symm, ?_⟩
    intro j hj hj'
    show Staggers pack tick l[j] (l.modify i (fire pack tick.nowTurn))[j]
    rw [List.getElem_modify]
    by_cases hij : i = j
    · subst hij
      have hlj : l[i] = t := by
        have hsome : l[i]? = some l[i] := List.getElem?_eq_getElem hj
        exact Option.some.inj (hsome.symm.trans hget)
      right
      rw [if_pos rfl, hlj]
      exact ⟨hdue, rfl⟩
    · left
      rw [if_neg hij]

/-- The gate treats the tropes place by place. -/
theorem forall₂_gateFrom (pack : Pack) (tick : Tick) (cooldownActive : Bool) (count : Nat)
    (l : List TropeState) : List.Forall₂ Gates l (gateFrom pack tick cooldownActive count l) := by
  induction l generalizing count with
  | nil => exact List.Forall₂.nil
  | cons t l ih =>
    unfold gateFrom
    by_cases hdormant : t.status = .dormant
    · rw [if_neg (not_not_intro hdormant)]
      split
      · exact List.Forall₂.cons (.inl rfl) (ih count)
      · split
        · exact List.Forall₂.cons (.inl rfl) (ih count)
        · split
          · exact List.Forall₂.cons (.inl rfl) (ih count)
          · exact List.Forall₂.cons (.inr ⟨hdormant, rfl⟩) (ih (count + 1))
    · rw [if_pos hdormant]
      exact List.Forall₂.cons (.inl rfl) (ih count)

/-- The tropes after the two passes of progress. -/
theorem activeTropes_drift (pack : Pack) (s : Engine) (tick : Tick) :
    (if 0 < tick.daysAdvanced then
        passTimeSkip pack tick.daysAdvanced tick.nowTurn
          { s with activeTropes := advanceProgress pack s.activeTropes }
      else { s with activeTropes := advanceProgress pack s.activeTropes }).activeTropes
      = s.activeTropes.map (fun t => drift pack tick (advance pack t)) := by
  by_cases hdays : 0 < tick.daysAdvanced
  · have hne : daysApplied tick.daysAdvanced ≠ 0 := ne_of_gt (daysApplied_pos hdays)
    rw [if_pos hdays, passTimeSkip]
    rw [if_neg hne]
    show ((s.activeTropes.map (advance pack)).map _).map Prod.fst = _
    rw [List.map_map, List.map_map]
    apply List.map_congr_left
    intro t _
    show _ = drift pack tick (advance pack t)
    rw [drift, if_pos hdays]
    rfl
  · rw [if_neg hdays]
    apply List.map_congr_left
    intro t _
    rw [drift, if_neg hdays]

/-- **What a tick does**, trope by trope. -/
theorem forall₂_tickTropes (pack : Pack) (s : Engine) (tick : Tick) :
    List.Forall₂ (Ticks pack tick) s.activeTropes (tickTropes pack s tick).activeTropes := by
  have hprogress := activeTropes_drift pack s tick
  unfold tickTropes
  dsimp only
  rw [hprogress]
  have hstagger := forall₂_fireOneStaggeredBeat pack tick
    (s.activeTropes.map (fun t => drift pack tick (advance pack t)))
  have hgate := forall₂_gateFrom pack tick
    (tick.nowTurn ≤ cooldownUntil (fireOneStaggeredBeat pack tick.nowTurn
      (s.activeTropes.map (fun t => drift pack tick (advance pack t)))))
    ((fireOneStaggeredBeat pack tick.nowTurn
      (s.activeTropes.map (fun t => drift pack tick (advance pack t)))).countP
        (·.status = .progressing))
    (fireOneStaggeredBeat pack tick.nowTurn
      (s.activeTropes.map (fun t => drift pack tick (advance pack t))))
  rw [List.forall₂_map_left_iff] at hstagger
  have hlen := hstagger.length_eq.trans hgate.length_eq
  apply List.forall₂_iff_get.mpr
  refine ⟨hlen, ?_⟩
  intro i hi hi'
  have hmid := hstagger.length_eq ▸ hi
  exact ⟨_, (List.forall₂_iff_get.mp hstagger).2 i hi hmid,
    (List.forall₂_iff_get.mp hgate).2 i hmid hi'⟩

/-! ### The passes of progress -/

/-- A turn moves the progress of a trope, and nothing else. -/
theorem advance_frame (pack : Pack) (t : TropeState) :
    (advance pack t).id = t.id ∧ (advance pack t).status = t.status ∧
      (advance pack t).beatsFired = t.beatsFired := by
  unfold advance
  split
  · exact ⟨rfl, rfl, rfl⟩
  · split
    · exact ⟨rfl, rfl, rfl⟩
    · split <;> exact ⟨rfl, rfl, rfl⟩

variable {d : TropeDefinition}

/-- The progress of a trope after its turn. -/
theorem progress_advance (hstatus : t.status = .progressing) (hd : pack.byId t.id = some d)
    (hlt : t.progress < 1) :
    advance pack t = { t with progress := min 1 (t.progress + turnDelta d) } := by
  unfold advance
  rw [if_neg (not_not_intro hstatus), hd]
  dsimp only
  by_cases hnone : d.passiveProgression.isNone = true
  · -- without a passive progression both rates are zero
    have hzero : turnDelta d = 0 := by
      rw [Option.isNone_iff_eq_none] at hnone
      simp [turnDelta, TropeDefinition.ratePerTurn, hnone]
    rw [if_pos hnone, hzero, add_zero, min_eq_right (le_of_lt hlt)]
  · rw [if_neg hnone]

/-- Firing the beats of a skip changes what has fired, and nothing else. -/
theorem fireCrossed_frame (d : TropeDefinition) (before after rate : ℚ) (days nowTurn : Int)
    (beats : List (TropeEscalation × Nat)) (t : TropeState) :
    (fireCrossed d before after rate days nowTurn beats t).1.id = t.id ∧
      (fireCrossed d before after rate days nowTurn beats t).1.status = t.status ∧
      (fireCrossed d before after rate days nowTurn beats t).1.progress = t.progress := by
  induction beats generalizing t with
  | nil => exact ⟨rfl, rfl, rfl⟩
  | cons beat rest ih =>
    obtain ⟨beat, idx⟩ := beat
    unfold fireCrossed
    split
    · exact ih t
    · split
      · exact ih t
      · exact ih { t with beatsFired := idx + 1, lastFiredTurn := some nowTurn }

theorem fire_frame (pack : Pack) (nowTurn : Int) (t : TropeState) :
    (fire pack nowTurn t).id = t.id ∧ (fire pack nowTurn t).beatsFired = t.beatsFired + 1 := by
  unfold fire
  dsimp only
  split
  · exact ⟨rfl, rfl⟩
  · split <;> exact ⟨rfl, rfl⟩

theorem progress_fire (pack : Pack) (nowTurn : Int) (t : TropeState) :
    (fire pack nowTurn t).progress = t.progress := by
  unfold fire
  dsimp only
  split
  · rfl
  · split <;> rfl

theorem id_drift (pack : Pack) (tick : Tick) (t : TropeState) : (drift pack tick t).id = t.id := by
  unfold drift
  split
  · unfold skip
    split
    · rfl
    · split
      · rfl
      · rename_i d _
        dsimp only
        split
        · rfl
        · split
          · rfl
          · split <;> exact (fireCrossed_frame d _ _ _ _ _ _ _).1
  · rfl

/-- A trope that is not progressing goes through the passes of progress unmoved. -/
theorem drift_advance_of_idle (h : t.status ≠ .progressing) :
    drift pack tick (advance pack t) = t := by
  have hadvance : advance pack t = t := if_pos h
  rw [hadvance, drift]
  split
  · rw [skip, if_pos h]
  · rfl

/-- A trope without a definition does too. -/
theorem drift_advance_of_absent (h : pack.byId t.id = none) :
    drift pack tick (advance pack t) = t := by
  have hadvance : advance pack t = t := by
    unfold advance
    split
    · rfl
    · rw [h]
  rw [hadvance, drift]
  split
  · unfold skip
    split
    · rfl
    · rw [h]
  · rfl

/-- A drift leaves a trope, or moves it along its days: to full progress at most, resolving it
    where a ladder has fired to its end. -/
theorem drift_cases (tick : Tick) (hstatus : t.status = .progressing) (hd : pack.byId t.id = some d) :
    drift pack tick t = t ∨
    (0 < tick.daysAdvanced ∧
      (drift pack tick t).progress
        = min 1 (t.progress + d.ratePerDay * daysApplied tick.daysAdvanced) ∧
      ((drift pack tick t).status = .resolved ∨
        ((drift pack tick t).status = .progressing ∧
          (1 ≤ (drift pack tick t).progress →
            d.escalation.length ≤ (drift pack tick t).beatsFired → d.escalation = [])))) := by
  by_cases hdays : 0 < tick.daysAdvanced
  · rw [drift, if_pos hdays, skip, if_neg (not_not_intro hstatus), hd]
    dsimp only
    by_cases hrate : d.ratePerDay ≤ 0
    · left
      rw [if_pos hrate]
    · rw [if_neg hrate]
      by_cases hpinned : min 1 (t.progress + d.ratePerDay * daysApplied tick.daysAdvanced)
          = t.progress
      · left
        rw [if_pos hpinned]
      · right
        rw [if_neg hpinned]
        obtain ⟨-, hst, hpr⟩ := fireCrossed_frame d t.progress
          (min 1 (t.progress + d.ratePerDay * daysApplied tick.daysAdvanced)) d.ratePerDay
          (daysApplied tick.daysAdvanced) tick.nowTurn d.escalation.zipIdx
          { t with
            progress := min 1 (t.progress + d.ratePerDay * daysApplied tick.daysAdvanced) }
        refine ⟨hdays, ?_⟩
        split
        · exact ⟨hpr, .inl rfl⟩
        · rename_i hopen
          refine ⟨hpr, .inr ⟨hst.trans hstatus, ?_⟩⟩
          intro hfull hfired
          by_contra hladder
          exact hopen ⟨le_of_le_of_eq hfull hpr, hladder, hfired⟩
  · left
    rw [drift, if_neg hdays]

/-- An empty ladder drifts without firing anything, and is not resolved. -/
theorem skip_of_emptyLadder {days : Int} (nowTurn : Int) (hstatus : t.status = .progressing)
    (hd : pack.byId t.id = some d) (hnil : d.escalation = []) (hrate : ¬ d.ratePerDay ≤ 0)
    (hmoved : min 1 (t.progress + d.ratePerDay * days) ≠ t.progress) : (skip pack days nowTurn t).1
      = { t with progress := min 1 (t.progress + d.ratePerDay * days) } := by
  simp [skip, hstatus, hd, hnil, hrate, hmoved, fireCrossed]

theorem not_due_of_usedUp (hd : pack.byId t.id = some d)
    (hfired : d.escalation.length ≤ t.beatsFired) : ¬ Due pack t := by
  rintro ⟨-, d', hd', beat, hbeat, -⟩
  have heq : d' = d := Option.some.inj ((Option.mem_def.mp hd').symm.trans hd)
  rw [heq, List.getElem?_eq_none hfired] at hbeat
  simp at hbeat

/-! ### One tick of one trope -/

/-- A gate never touches what has fired, nor the progress. -/
theorem Gates.complete_iff (h : Gates t t') : Complete pack t' ↔ Complete pack t := by
  rcases h with rfl | ⟨-, rfl⟩ <;> rfl

/-- A gate leaves a trope that is not dormant. -/
theorem Gates.eq_of_not_dormant (h : Gates t t') (hd : t.status ≠ .dormant) : t' = t := by
  rcases h with rfl | ⟨hdormant, -⟩
  · rfl
  · exact absurd hdormant hd

theorem not_complete_fire (h : (fire pack tick.nowTurn t).status ≠ .resolved) :
    ¬ Complete pack (fire pack tick.nowTurn t) := by
  rintro ⟨d, hd, hfired, hfull⟩
  apply h
  obtain ⟨hid, hbeats⟩ := fire_frame pack tick.nowTurn t
  have hbyId : pack.byId t.id = some d := by
    rw [← hid]
    exact hd
  rw [hbeats] at hfired
  rw [progress_fire] at hfull
  unfold fire
  rw [hbyId]
  dsimp only
  rw [if_pos ⟨hfired, hfull⟩]

theorem drift_advance_of_climbsOpen (hstatus : t.status = .progressing) (hopen : ¬ Complete pack t)
    (hclimb : ∀ d ∈ pack.byId t.id, d.escalation.length ≤ t.beatsFired →
      t.progress + turnDelta d < 1 ∧
      (d.escalation = [] → 0 < tick.daysAdvanced →
        t.progress + turnDelta d + d.ratePerDay * daysApplied tick.daysAdvanced < 1)) :
    (drift pack tick (advance pack t)).status = .resolved ∨
    ((drift pack tick (advance pack t)).status = .progressing ∧
      ¬ Complete pack (drift pack tick (advance pack t))) := by
  obtain ⟨hidAdvance, hstat, hbeats⟩ := advance_frame pack t
  rw [hstatus] at hstat
  have hid : (drift pack tick (advance pack t)).id = t.id := (id_drift _ _ _).trans hidAdvance
  cases hd : pack.byId t.id with
  | none =>
    right
    rw [drift_advance_of_absent hd]
    exact ⟨hstatus, hopen⟩
  | some d =>
    have hle : d.escalation.length ≤ t.beatsFired →
        (advance pack t).progress ≤ t.progress + turnDelta d := by
      intro hfired
      by_cases hlt : t.progress < 1
      · rw [progress_advance hstatus hd hlt]
        exact min_le_right _ _
      · -- a ladder used up at full progress would be complete already
        exact absurd ⟨d, hd, hfired, not_lt.mp hlt⟩ hopen
    have hdAdvance : pack.byId (advance pack t).id = some d := by
      rw [hidAdvance]
      exact hd
    rcases drift_cases tick hstat hdAdvance with hsame | ⟨hdays, hpr, hst⟩
    · right
      rw [hsame]
      refine ⟨hstat, ?_⟩
      rintro ⟨d', hd', hfired, hfull⟩
      have heq : d' = d := Option.some.inj ((Option.mem_def.mp hd').symm.trans hdAdvance)
      rw [heq, hbeats] at hfired
      have hbelow := (hclimb d hd hfired).1
      have habove := le_trans hfull (hle hfired)
      linarith
    · rcases hst with hres | ⟨hst, hempty⟩
      · left
        exact hres
      · right
        refine ⟨hst, ?_⟩
        rintro ⟨d', hd', hfired, hfull⟩
        rw [hid] at hd'
        have heq : d' = d := Option.some.inj ((Option.mem_def.mp hd').symm.trans hd)
        rw [heq] at hfired
        -- only an empty ladder goes unresolved, and it has nothing left to fire
        have hnil := hempty hfull hfired
        have hused : d.escalation.length ≤ t.beatsFired := by
          rw [hnil]
          exact Nat.zero_le _
        have hbelow := (hclimb d hd hused).2 hnil hdays
        have hmoved : (drift pack tick (advance pack t)).progress
            ≤ (advance pack t).progress + d.ratePerDay * daysApplied tick.daysAdvanced := by
          rw [hpr]
          exact min_le_right _ _
        have hturn := hle hused
        linarith

/-- **Step lemma for one trope.** A tick keeps a trope that climbs open from being complete
    without being resolved. -/
theorem Ticks.unfinished (h : Ticks pack tick t t')
    (hopen : t.status ≠ .resolved → ¬ Complete pack t)
    (hclimb : t.status = .progressing → ∀ d ∈ pack.byId t.id,
      d.escalation.length ≤ t.beatsFired →
        t.progress + turnDelta d < 1 ∧
        (d.escalation = [] → 0 < tick.daysAdvanced →
          t.progress + turnDelta d + d.ratePerDay * daysApplied tick.daysAdvanced < 1))
    (hres : t'.status ≠ .resolved) : ¬ Complete pack t' := by
  obtain ⟨u, hstagger, hgate⟩ := h
  rw [hgate.complete_iff]
  by_cases hstatus : t.status = .progressing
  · have hdrift := drift_advance_of_climbsOpen hstatus
      (hopen (by rw [hstatus]; decide)) (hclimb hstatus)
    have hnotResolved : u.status ≠ .resolved := by
      intro hu
      apply hres
      rw [hgate.eq_of_not_dormant (by rw [hu]; decide)]
      exact hu
    rcases hstagger with hu | ⟨-, hu⟩
    · rw [hu] at hnotResolved ⊢
      exact (hdrift.resolve_left hnotResolved).2
    · rw [hu] at hnotResolved ⊢
      exact not_complete_fire hnotResolved
  · rw [drift_advance_of_idle hstatus] at hstagger
    have hu : u = t := by
      rcases hstagger with hu | ⟨hdue, -⟩
      · exact hu
      · exact absurd hdue.1 hstatus
    rw [hu] at hgate ⊢
    apply hopen
    intro hresolved
    apply hres
    rw [hgate.eq_of_not_dormant (by rw [hresolved]; decide)]
    exact hresolved

/-- At full progress a drift moves nothing that a ladder would have to answer for. -/
theorem drift_of_full (hstatus : t.status = .progressing) (hd : pack.byId t.id = some d)
    (hone : t.progress = 1) : drift pack tick t = t := by
  unfold drift
  split
  · rename_i hdays
    have hpos : (0 : ℚ) < daysApplied tick.daysAdvanced := by
      exact_mod_cast daysApplied_pos hdays
    rw [skip, if_neg (not_not_intro hstatus), hd]
    dsimp only
    by_cases hrate : d.ratePerDay ≤ 0
    · rw [if_pos hrate]
    · have hge : (1 : ℚ) ≤ t.progress + d.ratePerDay * daysApplied tick.daysAdvanced := by
        have hmul : 0 < d.ratePerDay * daysApplied tick.daysAdvanced :=
          mul_pos (not_le.mp hrate) hpos
        linarith
      rw [if_neg hrate, if_pos ((min_eq_left hge).trans hone.symm)]
  · rfl

theorem drift_of_emptyLadder (hstatus : t.status = .progressing) (hd : pack.byId t.id = some d)
    (hnil : d.escalation = []) (hdays : 0 < tick.daysAdvanced) (hlt : t.progress < 1)
    (hge : 1 ≤ t.progress + d.ratePerDay * daysApplied tick.daysAdvanced) :
    drift pack tick t = { t with progress := 1 } := by
  have hpos : (0 : ℚ) < daysApplied tick.daysAdvanced := by
    exact_mod_cast daysApplied_pos hdays
  have hrate : ¬ d.ratePerDay ≤ 0 := by
    intro hneg
    have hmul : d.ratePerDay * daysApplied tick.daysAdvanced ≤ 0 :=
      mul_nonpos_of_nonpos_of_nonneg hneg (le_of_lt hpos)
    linarith
  have hmoved : min 1 (t.progress + d.ratePerDay * daysApplied tick.daysAdvanced)
      ≠ t.progress := by
    rw [min_eq_left hge]
    exact ne_of_gt hlt
  rw [drift, if_pos hdays, skip_of_emptyLadder tick.nowTurn hstatus hd hnil hrate hmoved,
    min_eq_left hge]

/-- What the passes of progress leave of a trope that they bring to full progress: it is still
    progressing, with the same ladder. -/
theorem drift_advance_of_full (hstatus : t.status = .progressing) (hd : pack.byId t.id = some d)
    (hlt : t.progress < 1) (hfull : ¬ (t.progress + turnDelta d < 1 ∧
      (d.escalation = [] → 0 < tick.daysAdvanced →
        t.progress + turnDelta d + d.ratePerDay * daysApplied tick.daysAdvanced < 1))) :
    drift pack tick (advance pack t) = { t with progress := 1 } := by
  rw [progress_advance hstatus hd hlt]
  by_cases hturn : t.progress + turnDelta d < 1
  · rw [min_eq_right (le_of_lt hturn)]
    have hnil : d.escalation = [] ∧ 0 < tick.daysAdvanced ∧
        1 ≤ t.progress + turnDelta d + d.ratePerDay * daysApplied tick.daysAdvanced := by
      by_contra hnot
      apply hfull
      refine ⟨hturn, fun hnil hdays => ?_⟩
      by_contra hge
      exact hnot ⟨hnil, hdays, not_lt.mp hge⟩
    obtain ⟨hnil, hdays, hge⟩ := hnil
    exact drift_of_emptyLadder hstatus hd hnil hdays hturn hge
  · rw [min_eq_left (not_lt.mp hturn)]
    exact drift_of_full hstatus hd rfl

/-- A progressing trope with a used-up ladder that climbs to full progress over its turn, or
    over skipped days with an empty ladder, is complete afterwards and still progressing. -/
theorem Ticks.stuck (h : Ticks pack tick t t') (hstatus : t.status = .progressing)
    (hd : pack.byId t.id = some d) (hfired : d.escalation.length ≤ t.beatsFired)
    (hopen : ¬ Complete pack t) (hfull : ¬ (t.progress + turnDelta d < 1 ∧
      (d.escalation = [] → 0 < tick.daysAdvanced →
        t.progress + turnDelta d + d.ratePerDay * daysApplied tick.daysAdvanced < 1))) :
    t'.status = .progressing ∧ Complete pack t' := by
  obtain ⟨u, hstagger, hgate⟩ := h
  have hlt : t.progress < 1 := by
    by_contra hge
    exact hopen ⟨d, hd, hfired, not_lt.mp hge⟩
  rw [drift_advance_of_full hstatus hd hlt hfull] at hstagger
  -- a ladder that is used up is never due
  have hu : u = { t with progress := 1 } := by
    rcases hstagger with hu | ⟨hdue, -⟩
    · exact hu
    · exact absurd hdue (not_due_of_usedUp hd hfired)
  have ht' : t' = { t with progress := 1 } := by
    rw [← hu]
    apply hgate.eq_of_not_dormant
    rw [hu]
    rw [hstatus]
    decide
  rw [ht']
  exact ⟨hstatus, d, hd, hfired, le_refl 1⟩

/-! ### Whole runs -/

/-- **Step lemma.** A tick in which every trope climbs open leaves no trope complete without
    being resolved. -/
theorem Unfinished.tickTropes (h : Unfinished pack s) (hok : ClimbsOpen pack s tick) :
    Unfinished pack (Trope.tickTropes pack s tick) := by
  intro t' ht' hres
  obtain ⟨t, ht, htick⟩ := exists_of_forall₂ (forall₂_tickTropes pack s tick) ht'
  exact Ticks.unfinished htick (h t ht) (hok t ht) hres

theorem not_noneStuck_tick (h : Unfinished pack s) (hnot : ¬ ClimbsOpen pack s tick) :
    ¬ NoneStuck pack (tickTropes pack s tick) := by
  intro hnone
  apply hnot
  intro t ht hstatus d hd hfired
  by_contra hfull
  obtain ⟨t', ht', htick⟩ := exists_of_forall₂_left (forall₂_tickTropes pack s tick) ht
  have hopen : ¬ Complete pack t := h t ht (by rw [hstatus]; decide)
  obtain ⟨hst, hcomplete⟩ := htick.stuck hstatus hd hfired hopen hfull
  exact hnone t' ht' hst hcomplete

/-- **A complete trope frees its slot**, over every run of ticks from tropes none of which is
    complete without being resolved, if and only if at every tick the progressing tropes with a
    used-up ladder stay below full progress, over their turn and, where the ladder is empty,
    over the skipped days. -/
theorem noneStuck_iff_climbsOpen (pack : Pack) (s : Engine) (hs : Unfinished pack s)
    (ticks : List Tick) : Throughout (tickTropes pack) (NoneStuck pack) s ticks ↔
      StepsMeet (tickTropes pack) (ClimbsOpen pack) s ticks :=
  throughout_iff_stepsMeet (fun _ _ h hok => Unfinished.tickTropes h hok)
    (fun s h t ht hst => h t ht (by rw [hst]; decide))
    (fun _ _ h hnot => not_noneStuck_tick h hnot) hs

/-- A ladder that ends at one half. -/
def halfLadder : Pack :=
  [{ id := some "feud"
     name := "The feud"
     escalation := [{ atProgress := 1 / 2, event := "Blood is drawn" }]
     passiveProgression := some { ratePerTurn := 1 } }]

/-- The feud fires its only beat at one half and climbs to full progress a turn later: it is
    complete and keeps its slot. -/
theorem not_noneStuck_of_halfLadder :
    ¬ Throughout (tickTropes halfLadder) (NoneStuck halfLadder)
      { activeTropes := [{ id := "feud", status := .progressing }] }
      [{ nowTurn := 1 }, { nowTurn := 2 }] := by
  intro h
  have hlast := h.last
  revert hlast
  decide +kernel

/-- A ladder whose last beat stands at full progress. -/
def fullLadder : Pack :=
  [{ id := some "feud"
     name := "The feud"
     escalation := [{ atProgress := 1 / 2, event := "Blood is drawn" },
       { atProgress := 1, event := "One house stands" }]
     passiveProgression := some { ratePerTurn := 1 } }]

/-- The feud with an end at full progress is resolved by the beat that ends it. -/
theorem noneStuck_of_fullLadder :
    Throughout (tickTropes fullLadder) (NoneStuck fullLadder)
      { activeTropes := [{ id := "feud", status := .progressing }] }
      [{ nowTurn := 1 }, { nowTurn := 2 }, { nowTurn := 3, daysAdvanced := 2 }] :=
  (noneStuck_iff_climbsOpen fullLadder _ (by decide +kernel) _).mpr (by decide +kernel)

end Sidequest.Trope
