import Sidequest.Beat.Untouched

namespace Sidequest.Beat

open Lib Effect
open Combat (CreatureCore RollOutcome)
open Fate (EncounterActor)

/-!
# Spread hits and the taunt

A debit that is spread charges each of the other side the same, rounded down. While somebody taunts,
one hit of a round that is meant for another lands on the taunter. The taunt counts its redirects; a
new taunt counts from zero again, and so does a new round.

* `BeatCall.charges`, `BeatCall.redirects` — whom a call charges, and how often it redirects;
* `fair_and_capped_of_run` — over any run: one redirect a round, unless a taunt begins after one.
-/

variable {ι : Type} [DecidableEq ι]

/-! ### The taunt over the rounds -/

/-- At the end of a round the taunt has one round less; when none is left, nobody taunts. -/
def TauntState.endOfRoundDecay (taunt : TauntState) : TauntState :=
  let remaining :=
    if 0 < taunt.remainingRounds then taunt.remainingRounds - 1 else taunt.remainingRounds
  if remaining = 0 then { activeActor := none, remainingRounds := remaining, redirectsThisRound := 0 }
  else { taunt with remainingRounds := remaining }

/-- The tick of a round's end. -/
def tickTauntRoundAdvance (s : BeatState ι) : BeatState ι :=
  { s with enc := { s.enc with taunt := s.enc.taunt.endOfRoundDecay } }

/-! ### Charges -/

instance (beat : BeatDef) (deltas : ResolvedDeltas) : Decidable (TagsGiven beat deltas) :=
  inferInstanceAs (Decidable (if deltas.tagBackfire then beat.targetTag ≠ none
    else (present deltas.grantsTag).isSome = true → 0 ≤ deltas.tagLeverage))

/-- What some hits take from the creatures, one after the other. -/
def removedBy (edgeResolver : EdgeResolver ι) : (ι → CreatureCore) → List (String × Int) → Int
  | _, [] => 0
  | cores, (name, amount) :: rest =>
    match edgeResolver name with
    | none => removedBy edgeResolver cores rest
    | some ref =>
      (cores ref).hp.current - (hurt cores ref amount ref).hp.current +
        removedBy edgeResolver (hurt cores ref amount) rest

/-- How many of some hits land on another than they were meant for. -/
def redirectCount (meant landed : List String) : Nat :=
  (meant.zip landed).countP (fun p => p.2 ≠ p.1)

namespace BeatCall

variable (call : BeatCall ι) (s : BeatState ι)

/-- Those whom a spread is over. -/
def live : List String := s.enc.oppositeSideLiveActors call.actor.side

/-- All debits that a call pays, its actor's own first. -/
def payments : List (String × Int) :=
  match skipReason s.enc call.actor, resolveTierDeltas call.beat.kind call.beat.base call.outcome
      call.beat.deltas call.beat.targetTag with
  | none, .ok deltas =>
    if TagsGiven call.beat deltas then
      paid (names call.edgeResolver) (hits s.enc call.actor call.beat)
    else []
  | _, _ => []

/-- The debits that a call pays of the other side. -/
def charges : List (String × Int) :=
  (call.payments s).drop (if call.beat.edgeDelta.getD 0 = 0 then 0 else 1)

/-- How many hits of a spread land on another than they were meant for. -/
def redirects : Nat :=
  if call.beat.targetSelect = some .spread then
    redirectCount (call.live s) ((call.charges s).map Prod.fst)
  else 0

/-- The beat is a taunt, and it begins. -/
structure Taunts : Prop where
  skip : skipReason s.enc call.actor = none
  goesThrough : call.GoesThrough s
  isTaunt : call.beat.id = "taunt"
  succeeds : call.outcome ≠ .fail ∧ call.outcome ≠ .critFail

end BeatCall

/-! ### What a call pays -/

variable {call : BeatCall ι} {s : BeatState ι}

omit [DecidableEq ι] in
/-- What a call pays of the other side: nothing, or what it comes to. Its actor, if it pays, is
    known then. -/
theorem charges_eq (call : BeatCall ι) (s : BeatState ι) : call.charges s = [] ∨
      (call.edgeResolver.isSome = true ∧
        (call.beat.edgeDelta.getD 0 = 0 ∨ (names call.edgeResolver call.actor.name).isSome = true) ∧
        call.charges s = paid (names call.edgeResolver) (targetHits s.enc call.actor call.beat).1) := by
  unfold BeatCall.charges
  have hpayments : call.payments s = [] ∨
      call.payments s = paid (names call.edgeResolver) (hits s.enc call.actor call.beat) := by
    unfold BeatCall.payments
    split
    · split
      · exact .inr rfl
      · exact .inl rfl
    · exact .inl rfl
  rcases hpayments with hnothing | hall
  · rw [hnothing]
    exact .inl (List.drop_nil)
  · rw [hall]
    cases hresolver : call.edgeResolver with
    | none =>
      have hnobody : ∀ l : List (String × Int), paid (names (none : Option (EdgeResolver ι))) l = [] := by
        intro l
        unfold paid
        rw [List.takeWhile_eq_nil_iff]
        intro hlen
        simp [names]
      rw [hnobody]
      exact .inl List.drop_nil
    | some edgeResolver =>
      by_cases hself : call.beat.edgeDelta.getD 0 = 0
      · refine .inr ⟨rfl, .inl hself, ?_⟩
        unfold hits
        rw [if_pos hself, if_pos hself, List.nil_append, List.drop_zero]
      · unfold hits
        rw [if_neg hself, if_neg hself, List.singleton_append]
        rcases hknown : edgeResolver call.actor.name with _ | ref
        · left
          rw [paid_cons_of_none (names (some edgeResolver)) _ hknown]
          rfl
        · right
          rw [paid_cons_of_some (names (some edgeResolver)) _ hknown]
          refine ⟨rfl, .inr ?_, rfl⟩
          show (edgeResolver call.actor.name).isSome = true
          rw [hknown]
          rfl

/-! ### What a spread takes -/

theorem redirect_eq (live : List String) (taunt : TauntState) (name : String) :
    redirect live taunt name = (name, taunt) ∨
      ∃ taunter, taunt.activeActor = some taunter ∧ name ≠ taunter ∧
        taunt.redirectsThisRound < 1 ∧ redirect live taunt name =
          (taunter, { taunt with redirectsThisRound := taunt.redirectsThisRound + 1 }) := by
  obtain ⟨activeActor, remainingRounds, redirectsThisRound⟩ := taunt
  unfold redirect TauntState.tryConsumeRedirect
  cases activeActor with
  | none => exact .inl rfl
  | some taunter =>
    dsimp only
    by_cases hhit : taunter ≠ "" ∧ name ≠ taunter ∧ taunter ∈ live
    · rw [if_pos hhit]
      by_cases hspent : 1 ≤ redirectsThisRound
      · rw [if_pos hspent]
        exact .inl rfl
      · rw [if_neg hspent]
        exact .inr ⟨taunter, rfl, hhit.2.1, not_le.mp hspent, rfl⟩
    · rw [if_neg hhit]
      exact .inl rfl

/-- A name that does not taunt is charged by its own hits only. -/
theorem count_spreadNames (live names : List String) (taunt : TauntState) {name : String}
    (h : taunt.activeActor ≠ some name) :
    (spreadNames live taunt names).1.count name ≤ names.count name := by
  induction names generalizing taunt with
  | nil => exact le_refl 0
  | cons first names ih =>
    have hrest := ih (redirect live taunt first).2
      (by rw [activeActor_redirect]; exact h)
    show ((redirect live taunt first).1 ::
      (spreadNames live (redirect live taunt first).2 names).1).count name ≤ _
    rcases redirect_eq live taunt first with hsame | ⟨taunter, hactive, -, -, hredirect⟩
    · rw [hsame] at hrest ⊢
      rw [List.count_cons, List.count_cons]
      exact Nat.add_le_add_right hrest _
    · have hother : taunter ≠ name := fun heq => h (heq ▸ hactive)
      rw [hredirect] at hrest ⊢
      rw [List.count_cons_of_ne hother]
      exact hrest.trans List.count_le_count_cons

/-- Every name that is hit is hit once for each that was meant to be. -/
theorem length_spreadNames (live names : List String) (taunt : TauntState) :
    (spreadNames live taunt names).1.length = names.length := by
  induction names generalizing taunt with
  | nil => rfl
  | cons name names ih => exact congrArg Nat.succ (ih _)

variable (edgeResolver : EdgeResolver ι)

omit [DecidableEq ι] in
/-- What is paid is a first part of what was to be paid. -/
theorem paid_prefix (l : List (String × Int)) : paid edgeResolver l <+: l :=
  List.takeWhile_prefix _

/-- No creature has fewer hit points than none, or more than its maximum. -/
def InRange (cores : ι → CreatureCore) : Prop :=
  ∀ ref, 0 ≤ (cores ref).hp.current ∧ (cores ref).hp.current ≤ (cores ref).hp.max

theorem InRange.hurt {cores : ι → CreatureCore} (h : InRange cores) (ref : ι) (amount : Int) :
    InRange (hurt cores ref amount) := by
  intro ref'
  unfold Beat.hurt
  by_cases hsame : ref' = ref
  · rw [hsame, Function.update_self]
    obtain ⟨hlow, hhigh⟩ := h ref
    unfold Combat.HpPool.applyDelta
    dsimp only
    omega
  · rw [Function.update_of_ne hsame]
    exact h ref'

/-- Debits take no more than they say, where hit points are in range. -/
theorem removedBy_le {l : List (String × Int)} (hl : ∀ hit ∈ l, 0 ≤ hit.2)
    {cores : ι → CreatureCore} (hcores : InRange cores) :
    removedBy edgeResolver cores l ≤ (l.map Prod.snd).sum := by
  induction l generalizing cores with
  | nil => exact le_refl 0
  | cons hit l ih =>
    obtain ⟨name, amount⟩ := hit
    have hamount : 0 ≤ amount := hl (name, amount) (.head _)
    have hrest := fun hit hhit => hl hit (.tail (name, amount) hhit)
    show (match edgeResolver name with
      | none => removedBy edgeResolver cores l
      | some ref => (cores ref).hp.current - (hurt cores ref amount ref).hp.current +
          removedBy edgeResolver (hurt cores ref amount) l) ≤ _
    cases edgeResolver name with
    | none =>
      exact (ih hrest hcores).trans (Int.le_add_of_nonneg_left hamount)
    | some ref =>
      have htail := ih hrest (hcores.hurt ref amount)
      have htaken : (cores ref).hp.current - (hurt cores ref amount ref).hp.current ≤ amount := by
        obtain ⟨hlow, hhigh⟩ := hcores ref
        unfold hurt
        rw [Function.update_self]
        unfold Combat.HpPool.applyDelta
        dsimp only
        omega
      exact Int.add_le_add htaken htail

namespace BeatCall

variable (call : BeatCall ι) (s : BeatState ι)

/-- A spread takes no more in all than its delta, and of those who do not taunt it charges each of
    its seats once at most. -/
structure SpreadFair : Prop where
  total : ((call.charges s).map Prod.snd).sum ≤ call.beat.targetEdgeDelta.getD 0
  removed : ∀ cores : ι → CreatureCore, InRange cores →
    removedBy (names call.edgeResolver) cores (call.charges s) ≤ call.beat.targetEdgeDelta.getD 0
  once : ∀ name, s.enc.taunt.activeActor ≠ some name →
    ((call.charges s).map Prod.fst).count name ≤ (call.live s).count name

end BeatCall

omit [DecidableEq ι] in
/-- What a spread charges, if anything: the same amount of each, and of as many as there are. -/
theorem charges_spread (hspread : call.beat.targetSelect = some .spread) :
    call.charges s = [] ∨ 0 < call.beat.targetEdgeDelta.getD 0 / (call.live s).length ∧
      call.charges s <+: (spreadNames (call.live s) s.enc.taunt (call.live s)).1.map
        (fun name => (name, call.beat.targetEdgeDelta.getD 0 / (call.live s).length)) := by
  rcases charges_eq call s with hnothing | ⟨-, -, hcharges⟩
  · exact .inl hnothing
  · rw [hcharges]
    have hpaid := paid_prefix (names call.edgeResolver) (targetHits s.enc call.actor call.beat).1
    unfold targetHits at hpaid ⊢
    dsimp only at hpaid ⊢
    split at hpaid
    · rename_i hzero
      rw [if_pos hzero]
      exact .inl rfl
    · rename_i hdelta
      rw [if_neg hdelta, if_pos hspread]
      split at hpaid
      · rename_i hlive
        rw [if_pos hlive]
        exact .inr ⟨hlive.2, hpaid⟩
      · rename_i hlive
        rw [if_neg hlive]
        exact .inl rfl

/-- **A spread is fair** exactly if its delta is not negative. -/
theorem spreadFair_iff (hspread : call.beat.targetSelect = some .spread) :
    call.SpreadFair s ↔ 0 ≤ call.beat.targetEdgeDelta.getD 0 := by
  -- either nothing is charged, or one share for each living target
  rcases charges_spread (s := s) hspread with hnothing | ⟨hpositive, hpaid⟩
  · constructor
    · intro h
      have htotal := h.total
      rw [hnothing] at htotal
      exact htotal
    · intro h
      refine ⟨?_, fun cores _ => ?_, fun name _ => ?_⟩
      · rw [hnothing]
        exact h
      · rw [hnothing]
        exact h
      · rw [hnothing]
        exact Nat.zero_le _
  · have hper : call.beat.targetEdgeDelta.getD 0 / (call.live s).length * (call.live s).length
        ≤ call.beat.targetEdgeDelta.getD 0 :=
      Int.ediv_mul_le _ (fun hzero => by rw [hzero, Int.ediv_zero] at hpositive; omega)
    generalize call.beat.targetEdgeDelta.getD 0 / (call.live s).length = perTarget at *
    have hlength : (call.charges s).length ≤ (call.live s).length := by
      have hle := hpaid.length_le
      rw [List.length_map, length_spreadNames] at hle
      exact hle
    have hamount : ∀ hit ∈ call.charges s, hit.2 = perTarget := by
      intro hit hhit
      obtain ⟨name, -, rfl⟩ := List.mem_map.mp (hpaid.subset hhit)
      rfl
    have htotal : ((call.charges s).map Prod.snd).sum ≤ call.beat.targetEdgeDelta.getD 0 := by
      have hreplicate : (call.charges s).map Prod.snd
          = List.replicate (call.charges s).length perTarget := by
        rw [List.eq_replicate_iff]
        refine ⟨List.length_map _, fun amount hmem => ?_⟩
        obtain ⟨hit, hhit, rfl⟩ := List.mem_map.mp hmem
        exact hamount hit hhit
      rw [hreplicate, List.sum_replicate, nsmul_eq_mul]
      calc ((call.charges s).length : Int) * perTarget
          ≤ (call.live s).length * perTarget :=
            Int.mul_le_mul_of_nonneg_right (by exact_mod_cast hlength) hpositive.le
        _ = perTarget * (call.live s).length := Int.mul_comm _ _
        _ ≤ call.beat.targetEdgeDelta.getD 0 := hper
    refine iff_of_true ⟨htotal, fun cores hcores => ?_, fun name hname => ?_⟩ ?_
    · refine (removedBy_le _ (fun hit hhit => ?_) hcores).trans htotal
      rw [hamount hit hhit]
      exact hpositive.le
    · have hsub := (hpaid.sublist.map Prod.fst).count_le name
      rw [List.map_map] at hsub
      refine hsub.trans ?_
      have hnames : (spreadNames (call.live s) s.enc.taunt (call.live s)).1.map
          (Prod.fst ∘ fun name => (name, perTarget))
            = (spreadNames (call.live s) s.enc.taunt (call.live s)).1 := List.map_id _
      rw [hnames]
      exact count_spreadNames _ _ _ hname
    · have hnonneg := mul_nonneg hpositive.le (Int.natCast_nonneg (call.live s).length)
      omega

/-! ### Redirects of a call -/

omit [DecidableEq ι] in
/-- **A debit that is spread** redirects no more often than it counts, and counts to one. -/
theorem redirectsThisRound_stoppedTaunt (live names : List String) (taunt : TauntState) :
    taunt.redirectsThisRound + redirectCount names ((spreadNames live taunt names).1.takeWhile
        (fun name => (edgeResolver name).isSome))
      ≤ (stoppedTaunt edgeResolver live taunt names).redirectsThisRound ∧
    (stoppedTaunt edgeResolver live taunt names).redirectsThisRound
      ≤ max 1 taunt.redirectsThisRound := by
  induction names generalizing taunt with
  | nil =>
    refine ⟨?_, le_max_right _ _⟩
    show taunt.redirectsThisRound + ((0 : Nat) : Int) ≤ taunt.redirectsThisRound
    omega
  | cons name names ih =>
    rcases hredirect : redirect live taunt name with ⟨target, taunt'⟩
    have hspread : (spreadNames live taunt (name :: names)).1
        = target :: (spreadNames live taunt' names).1 := by
      show (redirect live taunt name).1 ::
        (spreadNames live (redirect live taunt name).2 names).1 = _
      rw [hredirect]
    have hstopped : stoppedTaunt edgeResolver live taunt (name :: names) =
        match edgeResolver target with
        | none => taunt'
        | some _ => stoppedTaunt edgeResolver live taunt' names := by
      show (match edgeResolver (redirect live taunt name).1 with
        | none => (redirect live taunt name).2
        | some _ => stoppedTaunt edgeResolver live (redirect live taunt name).2 names) = _
      rw [hredirect]
    -- the first hit is counted if it is redirected
    have hfirst : taunt.redirectsThisRound + (if target ≠ name then 1 else 0)
        ≤ taunt'.redirectsThisRound ∧ taunt'.redirectsThisRound
          ≤ max 1 taunt.redirectsThisRound := by
      rcases redirect_eq live taunt name with hsame | ⟨taunter, -, -, hfree, htaken⟩
      · cases hredirect.symm.trans hsame
        rw [if_neg (not_not.mpr rfl)]
        omega
      · cases hredirect.symm.trans htaken
        dsimp only
        split <;> omega
    obtain ⟨hcounted, hcapped⟩ := ih taunt'
    rw [hspread, hstopped]
    cases hknown : edgeResolver target with
    | none =>
      rw [List.takeWhile_cons_of_neg (by simp [hknown])]
      refine ⟨?_, hfirst.2⟩
      show taunt.redirectsThisRound + ((0 : Nat) : Int) ≤ taunt'.redirectsThisRound
      split at hfirst <;> omega
    | some ref =>
      rw [List.takeWhile_cons_of_pos (by simp [hknown])]
      have hcons : ∀ landed, redirectCount (name :: names) (target :: landed) =
          redirectCount names landed + if target ≠ name then 1 else 0 := by
        intro landed
        unfold redirectCount
        rw [List.zip_cons_cons, List.countP_cons]
        simp
      rw [hcons]
      constructor
      · obtain ⟨hsum, -⟩ := hfirst
        push_cast
        by_cases hother : target ≠ name
        · rw [if_pos hother] at hsum ⊢
          omega
        · rw [if_neg hother] at hsum ⊢
          omega
      · exact hcapped.trans (max_le (le_max_left 1 _) hfirst.2)

omit [DecidableEq ι] in
/-- Where all that are hit are known, the debits do not stop. -/
theorem stoppedTaunt_of_known (live names : List String) (taunt : TauntState)
    (h : ∀ name ∈ (spreadNames live taunt names).1, (edgeResolver name).isSome = true) :
    stoppedTaunt edgeResolver live taunt names = (spreadNames live taunt names).2 := by
  induction names generalizing taunt with
  | nil => rfl
  | cons name names ih =>
    have hrest := ih (redirect live taunt name).2
      (fun target htarget => h target (.tail _ htarget))
    obtain ⟨ref, hknown⟩ := Option.isSome_iff_exists.mp
      (h (redirect live taunt name).1 (.head _))
    show (match edgeResolver (redirect live taunt name).1 with
      | none => (redirect live taunt name).2
      | some _ => stoppedTaunt edgeResolver live (redirect live taunt name).2 names) = _
    rw [hknown]
    exact hrest

omit [DecidableEq ι] in
theorem redirectCount_nil (meant : List String) : redirectCount meant [] = 0 := by
  unfold redirectCount
  rw [List.zip_nil_right]
  rfl

omit [DecidableEq ι] in
/-- Whom a spread charges: nobody, or those it lands on before one that nobody knows. -/
theorem charges_fst (call : BeatCall ι) (s : BeatState ι)
    (hspread : call.beat.targetSelect = some .spread) : call.charges s = [] ∨
      (call.edgeResolver.isSome = true ∧ (call.beat.edgeDelta.getD 0 = 0 ∨
          (names call.edgeResolver call.actor.name).isSome = true) ∧
        (targetHits s.enc call.actor call.beat).2
          = (spreadNames (call.live s) s.enc.taunt (call.live s)).2 ∧
        (targetHits s.enc call.actor call.beat).1.map Prod.fst
          = (spreadNames (call.live s) s.enc.taunt (call.live s)).1 ∧
        (call.charges s).map Prod.fst =
          (spreadNames (call.live s) s.enc.taunt (call.live s)).1.takeWhile
            (fun name => (names call.edgeResolver name).isSome)) := by
  rcases charges_eq call s with hnothing | ⟨hresolver, hself, hcharges⟩
  · exact .inl hnothing
  · have hhits : (targetHits s.enc call.actor call.beat).1 = [] ∨
        targetHits s.enc call.actor call.beat =
          ((spreadNames (call.live s) s.enc.taunt (call.live s)).1.map (fun name =>
              (name, call.beat.targetEdgeDelta.getD 0 / (call.live s).length)),
            (spreadNames (call.live s) s.enc.taunt (call.live s)).2) := by
      unfold targetHits
      dsimp only
      split
      · exact .inl rfl
      · split
        · exact .inr rfl
        · exact .inl rfl
    rcases hhits with hnone | hhits
    · rw [hnone] at hcharges
      exact .inl hcharges
    · have hnames : ∀ l : List String, (l.map (fun name =>
          (name, call.beat.targetEdgeDelta.getD 0 / ((call.live s).length : Int)))).map Prod.fst
            = l := by
        intro l
        rw [List.map_map]
        exact List.map_id l
      refine .inr ⟨hresolver, hself, ?_, ?_, ?_⟩
      · rw [hhits]
      · rw [hhits]
        exact hnames _
      · rw [hcharges, hhits]
        unfold paid
        rw [List.takeWhile_map, hnames]
        rfl

omit [DecidableEq ι] in
theorem redirects_of_charges_nil (h : call.charges s = []) : call.redirects s = 0 := by
  unfold BeatCall.redirects
  rw [h]
  split
  · exact redirectCount_nil _
  · rfl

omit [DecidableEq ι] in
/-- **Debits that stop** leave a taunt that has counted the redirects. -/
theorem redirects_le_atStop (call : BeatCall ι) (s : BeatState ι) :
    s.enc.taunt.redirectsThisRound + call.redirects s
        ≤ (tauntAtStop call.edgeResolver s.enc call.actor call.beat).redirectsThisRound ∧
      (tauntAtStop call.edgeResolver s.enc call.actor call.beat).redirectsThisRound
        ≤ max 1 s.enc.taunt.redirectsThisRound := by
  have hsame : s.enc.taunt.redirectsThisRound ≤ max 1 s.enc.taunt.redirectsThisRound :=
    le_max_right _ _
  unfold tauntAtStop targetTauntAtStop
  by_cases hspread : call.beat.targetSelect = some .spread
  · obtain ⟨hcounted, hcapped⟩ := redirectsThisRound_stoppedTaunt (names call.edgeResolver)
      (call.live s) (call.live s) s.enc.taunt
    rcases charges_fst call s hspread with hnothing | ⟨hresolver, hself, -, -, hcharges⟩
    · rw [redirects_of_charges_nil hnothing, if_pos hspread]
      split
      · refine ⟨le_trans ?_ hcounted, hcapped⟩
        omega
      · omega
    · rw [if_pos ⟨hresolver, hself⟩, if_pos hspread]
      unfold BeatCall.redirects
      rw [if_pos hspread, hcharges]
      exact ⟨hcounted, hcapped⟩
  · have hzero : call.redirects s = 0 := by
      unfold BeatCall.redirects
      rw [if_neg hspread]
    rw [hzero, if_neg hspread]
    split <;> omega

omit [DecidableEq ι] in
theorem targetHits_taunt (call : BeatCall ι) (s : BeatState ι) :
    (targetHits s.enc call.actor call.beat).2 = s.enc.taunt ∨
      call.beat.targetSelect = some .spread ∧ (targetHits s.enc call.actor call.beat).2
        = (spreadNames (call.live s) s.enc.taunt (call.live s)).2 := by
  unfold targetHits
  dsimp only
  split
  · exact .inl rfl
  · split
    · rename_i hspread
      split
      · exact .inr ⟨hspread, rfl⟩
      · exact .inl rfl
    · exact .inl rfl

omit [DecidableEq ι] in
/-- **Debits that are paid** leave a taunt that has counted the redirects. -/
theorem redirects_le_targetHits (call : BeatCall ι) (s : BeatState ι)
    (hknown : DebitsKnown call.edgeResolver s.enc call.actor call.beat) :
    s.enc.taunt.redirectsThisRound + call.redirects s
        ≤ (targetHits s.enc call.actor call.beat).2.redirectsThisRound ∧
      (targetHits s.enc call.actor call.beat).2.redirectsThisRound
        ≤ max 1 s.enc.taunt.redirectsThisRound := by
  have hsame : s.enc.taunt.redirectsThisRound ≤ max 1 s.enc.taunt.redirectsThisRound :=
    le_max_right _ _
  -- a spread counts as if everybody were known
  have hspreads : s.enc.taunt.redirectsThisRound ≤
      (spreadNames (call.live s) s.enc.taunt (call.live s)).2.redirectsThisRound ∧
      (spreadNames (call.live s) s.enc.taunt (call.live s)).2.redirectsThisRound
        ≤ max 1 s.enc.taunt.redirectsThisRound := by
    obtain ⟨hcounted, hcapped⟩ := redirectsThisRound_stoppedTaunt (fun _ => some ())
      (call.live s) (call.live s) s.enc.taunt
    rw [stoppedTaunt_of_known _ _ _ _ (fun _ _ => rfl)] at hcounted hcapped
    exact ⟨by omega, hcapped⟩
  have hzero : call.redirects s = 0 →
      s.enc.taunt.redirectsThisRound + call.redirects s
          ≤ (targetHits s.enc call.actor call.beat).2.redirectsThisRound ∧
        (targetHits s.enc call.actor call.beat).2.redirectsThisRound
          ≤ max 1 s.enc.taunt.redirectsThisRound := by
    intro hzero
    rw [hzero]
    rcases targetHits_taunt call s with htaunt | ⟨-, htaunt⟩
    · rw [htaunt]
      omega
    · rw [htaunt]
      omega
  by_cases hspread : call.beat.targetSelect = some .spread
  · rcases charges_fst call s hspread with hnothing | ⟨hresolver, hself, htaunt, hnames, hcharges⟩
    · exact hzero (redirects_of_charges_nil hnothing)
    · have hall : ∀ name ∈ (spreadNames (call.live s) s.enc.taunt (call.live s)).1,
          (names call.edgeResolver name).isSome = true := by
        intro name hname
        rw [← hnames] at hname
        obtain ⟨hit, hhit, rfl⟩ := List.mem_map.mp hname
        rcases hknown with ⟨-, htarget⟩ | ⟨-, hknown⟩
        · unfold targetHits at hhit
          rw [if_pos htarget] at hhit
          cases hhit
        · exact hknown hit (List.mem_append_right _ hhit)
      obtain ⟨hcounted, hcapped⟩ := redirectsThisRound_stoppedTaunt (names call.edgeResolver)
        (call.live s) (call.live s) s.enc.taunt
      rw [stoppedTaunt_of_known _ _ _ _ hall] at hcounted hcapped
      unfold BeatCall.redirects
      rw [if_pos hspread, hcharges, htaunt]
      exact ⟨hcounted, hcapped⟩
  · refine hzero ?_
    unfold BeatCall.redirects
    rw [if_neg hspread]

/-! ### The taunt after a call -/

theorem taunt_finished (ending : Option String) (actor : EncounterActor) (beat : BeatDef)
    (outcome : RollOutcome) (enc : StructuredEncounter) :
    (resolved? ending (taunted actor beat outcome (countBeat enc))).taunt =
      if beat.id = "taunt" ∧ outcome ≠ .fail ∧ outcome ≠ .critFail then
        TauntState.activate actor.name
      else enc.taunt := by
  have hended : ∀ enc' : StructuredEncounter, (resolved? ending enc').taunt = enc'.taunt := by
    intro enc'
    cases ending with
    | none => rfl
    | some outcome => rfl
  rw [hended]
  unfold taunted
  split
  · rfl
  · rfl

theorem taunt_stampHpRemoved (side : Fate.ActorSide) (deltas : ResolvedDeltas) (hpRemoved : Int)
    (enc : StructuredEncounter) : (stampHpRemoved side deltas hpRemoved enc).taunt = enc.taunt := by
  unfold stampHpRemoved
  split <;> rfl

/-- A beat that goes through leaves its debits' taunt, unless it is one itself. -/
theorem taunt_step_of_proceeds {deltas : ResolvedDeltas}
    (hskip : skipReason s.enc call.actor = none)
    (h : Proceeds call.edgeResolver call.actor call.beat call.outcome s deltas) :
    (call.step s).enc.taunt =
      if call.beat.id = "taunt" ∧ call.outcome ≠ .fail ∧ call.outcome ≠ .critFail then
        TauntState.activate call.actor.name
      else (targetHits s.enc call.actor call.beat).2 := by
  obtain ⟨hactors, htaunt, -⟩ := frame_marked call.actor deltas s.enc
  obtain ⟨new, hgiven, -⟩ := exec_grantTags_of_given call.actor call.beat call.turn deltas h.tags
    ⟨marked call.actor deltas s.enc, s.cores⟩
  -- the debits are those of the encounter as it was
  generalize htagged : ({ marked call.actor deltas s.enc with
    tags := (marked call.actor deltas s.enc).tags ++ new } : StructuredEncounter) = tagged at hgiven
  have hsame : tagged.actors = s.enc.actors ∧ tagged.taunt = s.enc.taunt := by
    rw [← htagged]
    exact ⟨hactors, htaunt⟩
  have hdebits := (exec_edgeDebits call.edgeResolver call.actor call.beat ⟨tagged, s.cores⟩).1
    (by
      unfold DebitsKnown
      rw [hits_congr hsame.1 hsame.2]
      exact h.debits)
  rw [targetHits_congr hsame.1 hsame.2] at hdebits
  obtain ⟨hpRemoved, hstrike⟩ := exec_strikeChannel call.edgeResolver call.damageResolver call.actor
    call.beat ⟨{ tagged with taunt := (targetHits s.enc call.actor call.beat).2 },
      hurtBy (names call.edgeResolver) s.cores (hits tagged call.actor call.beat)⟩
  unfold BeatCall.step BeatCall.exec
  rw [exec_applyBeat_of_tier _ _ _ _ _ _ hskip h.tier, exec_bind, hgiven]
  dsimp only
  rw [exec_bind, hdebits]
  dsimp only
  rw [exec_bind, hstrike]
  dsimp only
  rw [exec_modifyEnc_bind, exec_bind, exec_finishBeat (SameFight.refl _)]
  dsimp only
  rw [exec_pure, taunt_finished, taunt_stampHpRemoved]

/-- **The taunt after a call** has counted its redirects, up to one, unless the call begins a new
    one. -/
theorem taunt_step (call : BeatCall ι) (s : BeatState ι) :
    (∃ taunt, s.enc.taunt.redirectsThisRound + call.redirects s ≤ taunt.redirectsThisRound ∧
      taunt.redirectsThisRound ≤ max 1 s.enc.taunt.redirectsThisRound ∧
      ((call.step s).enc.taunt = taunt ∨
        (call.Taunts s ∧ taunt = (targetHits s.enc call.actor call.beat).2))) := by
  -- a beat that charges nobody leaves the counter
  have hidle : call.redirects s = 0 → (call.step s).enc.taunt = s.enc.taunt → ∃ taunt,
      s.enc.taunt.redirectsThisRound + call.redirects s ≤ taunt.redirectsThisRound ∧
      taunt.redirectsThisRound ≤ max 1 s.enc.taunt.redirectsThisRound ∧
      ((call.step s).enc.taunt = taunt ∨
        (call.Taunts s ∧ taunt = (targetHits s.enc call.actor call.beat).2)) := by
    intro hzero hsame
    refine ⟨s.enc.taunt, ?_, le_max_right _ _, .inl hsame⟩
    omega
  cases hskip : skipReason s.enc call.actor with
  | some reason =>
    refine hidle (redirects_of_charges_nil ?_) ?_
    · unfold BeatCall.charges BeatCall.payments
      rw [hskip]
      exact List.drop_nil
    · unfold BeatCall.step BeatCall.exec
      rw [exec_applyBeat_of_skipped _ _ _ _ _ _ hskip]
  | none =>
    rcases htier : resolveTierDeltas call.beat.kind call.beat.base call.outcome call.beat.deltas
      call.beat.targetTag with e | deltas
    · refine hidle (redirects_of_charges_nil ?_) ?_
      · unfold BeatCall.charges BeatCall.payments
        rw [hskip, htier]
        exact List.drop_nil
      · unfold BeatCall.step BeatCall.exec
        rw [exec_applyBeat_of_refused _ _ _ _ _ _ hskip htier]
    · by_cases htags : TagsGiven call.beat deltas
      · by_cases hknown : DebitsKnown call.edgeResolver s.enc call.actor call.beat
        · -- it goes through
          have hgoes : Proceeds call.edgeResolver call.actor call.beat call.outcome s deltas :=
            ⟨htier, htags, hknown⟩
          obtain ⟨hcounted, hcapped⟩ := redirects_le_targetHits call s hknown
          refine ⟨_, hcounted, hcapped, ?_⟩
          rw [taunt_step_of_proceeds hskip hgoes]
          split
          · rename_i htaunt
            exact .inr ⟨⟨hskip, ⟨deltas, hgoes⟩, htaunt.1, htaunt.2⟩, rfl⟩
          · exact .inl rfl
        · -- a debit raises
          obtain ⟨hcounted, hcapped⟩ := redirects_le_atStop call s
          refine ⟨_, hcounted, hcapped, .inl ?_⟩
          obtain ⟨e, new, hexec, -⟩ := exec_applyBeat_of_unknown call.damageResolver call.turn hskip
            htier htags hknown
          unfold BeatCall.step BeatCall.exec
          rw [hexec]
      · -- a tag cannot be made
        refine hidle (redirects_of_charges_nil ?_) ?_
        · unfold BeatCall.charges BeatCall.payments
          rw [hskip, htier]
          dsimp only
          rw [if_neg htags, List.drop_nil]
        · obtain ⟨e, hexec⟩ := exec_applyBeat_of_not_given call.edgeResolver call.damageResolver
            call.turn hskip htier htags
          unfold BeatCall.step BeatCall.exec
          rw [hexec]
          exact (frame_marked call.actor deltas s.enc).2.1

/-! ### Rounds -/

/-- A fight, and how many hits have been redirected in its round. The count is kept for the proofs
    only. -/
structure TauntRound (ι : Type) where
  state : BeatState ι
  redirects : Nat := 0

/-- What happens in a fight: a beat is applied, somebody taunts, or a round ends. -/
inductive TauntEvent (ι : Type) where
  | beat (call : BeatCall ι)
  | activate (actorId : String)
  | tick

namespace TauntRound

variable (r : TauntRound ι)

/-- One event. -/
def step (r : TauntRound ι) : TauntEvent ι → TauntRound ι
  | .beat call => ⟨call.step r.state, r.redirects + call.redirects r.state⟩
  | .activate actorId =>
    { r with state := { r.state with
      enc := { r.state.enc with taunt := TauntState.activate actorId } } }
  | .tick => ⟨tickTauntRoundAdvance r.state, 0⟩

/-- If the event is a spread, it is fair. -/
def Fair : TauntEvent ι → Prop
  | .beat call => call.beat.targetSelect = some .spread → call.SpreadFair r.state
  | _ => True

/-- If the event is a spread, its delta is not negative. -/
def NotNegative : TauntEvent ι → Prop
  | .beat call => call.beat.targetSelect = some .spread → 0 ≤ call.beat.targetEdgeDelta.getD 0
  | _ => True

/-- A taunt begins only in a round without a redirect so far, and its count is not negative. -/
def TauntsAfresh : TauntEvent ι → Prop
  | .beat call => 0 ≤ r.state.enc.taunt.redirectsThisRound ∧
    (call.Taunts r.state → (targetHits r.state.enc call.actor call.beat).2.redirectsThisRound ≤ 0)
  | .activate _ => r.state.enc.taunt.redirectsThisRound ≤ 0
  | .tick => True

/-- Nothing has been redirected in the round, or one hit, and the taunt knows of it. -/
def Counted : Prop :=
  r.redirects = 0 ∨ (r.redirects = 1 ∧ 1 ≤ r.state.enc.taunt.redirectsThisRound)

end TauntRound

theorem fair_iff_notNegative (r : TauntRound ι) (e : TauntEvent ι) :
    r.Fair e ↔ TauntRound.NotNegative e := by
  cases e with
  | beat call => exact forall_congr' spreadFair_iff
  | activate actorId => exact Iff.rfl
  | tick => exact Iff.rfl

theorem TauntRound.Counted.step {r : TauntRound ι} (h : r.Counted) {e : TauntEvent ι}
    (hafresh : r.TauntsAfresh e) : (r.step e).Counted := by
  cases e with
  | beat call =>
    obtain ⟨hcount, htaunts⟩ := hafresh
    obtain ⟨taunt, hcounted, hcapped, hafter⟩ := taunt_step call r.state
    show r.redirects + call.redirects r.state = 0 ∨
      (r.redirects + call.redirects r.state = 1 ∧
        1 ≤ (call.step r.state).enc.taunt.redirectsThisRound)
    rcases hafter with hsame | ⟨hbegins, hsame⟩
    · rw [hsame]
      rcases h with hzero | ⟨hone, hknows⟩ <;> omega
    · -- a taunt that begins has redirected nothing, nor has the round
      have hnone := htaunts hbegins
      rw [← hsame] at hnone
      rcases h with hzero | ⟨hone, hknows⟩ <;> omega
  | activate actorId =>
    have hnone : r.state.enc.taunt.redirectsThisRound ≤ 0 := hafresh
    rcases h with hzero | ⟨hone, hknows⟩
    · exact .inl hzero
    · omega
  | tick => exact .inl rfl

/-- **Fair and capped.** Spreads are fair exactly if none has a negative delta; and where no taunt
    begins after a redirect, at most one hit a round is redirected. -/
theorem fair_and_capped_of_run (s : BeatState ι) (es : List (TauntEvent ι)) :
    (StepsMeet TauntRound.step TauntRound.Fair ⟨s, 0⟩ es ↔
      StepsMeet TauntRound.step (fun _ e => TauntRound.NotNegative e) ⟨s, 0⟩ es) ∧
    (StepsMeet TauntRound.step TauntRound.TauntsAfresh ⟨s, 0⟩ es →
      Throughout TauntRound.step (fun r => r.redirects ≤ 1) ⟨s, 0⟩ es) := by
  refine ⟨stepsMeet_congr (fun e _ r => fair_iff_notNegative r e) _, fun h => ?_⟩
  have hcounted := throughout_of_invariant (fun r e hr hafresh => TauntRound.Counted.step hr hafresh)
    (.inl rfl) h
  refine hcounted.mono (fun r hr => ?_)
  rcases hr with hzero | ⟨hone, -⟩ <;> omega

/-! ### Brand taunts twice -/

/-- Ysolde and Brand against a ghoul, with dials that are far from met. -/
def brawl : BeatState Fighter where
  enc := {
    playerMetric := ⟨0, 100⟩
    opponentMetric := ⟨0, 100⟩
    actors := [⟨"Ysolde", .player, false⟩, ⟨"Brand", .player, false⟩, ⟨"Ghoul", .opponent, false⟩] }
  cores := cellarCores 9

/-- Brand taunts. -/
def brandTaunts : TauntEvent Fighter := .beat {
  edgeResolver := some cellarNames
  actor := ⟨"Brand", .player, false⟩
  beat := { id := "taunt", kind := some .push }
  outcome := .tie }

/-- The ghoul lashes out at both. -/
def ghoulSpreads : TauntEvent Fighter := .beat {
  edgeResolver := some cellarNames
  actor := ⟨"Ghoul", .opponent, false⟩
  beat := { id := "lash", kind := some .strike, targetEdgeDelta := some 4,
            targetSelect := some .spread }
  outcome := .fail }

/-- The round in which Brand taunts again, after he has taken a hit that was meant for Ysolde. -/
def tauntedTwice : List (TauntEvent Fighter) :=
  [brandTaunts, ghoulSpreads, brandTaunts, ghoulSpreads]

/-- Two hits are redirected in one round. -/
theorem not_capped_twice : (run TauntRound.step ⟨brawl, 0⟩ tauntedTwice).redirects = 2 ∧
      ((run TauntRound.step ⟨brawl, 0⟩ tauntedTwice).state.cores .ysolde).hp.current = 3 ∧
      ((run TauntRound.step ⟨brawl, 0⟩ tauntedTwice).state.cores .brand).hp.current = 2 ∧
      ¬ Throughout TauntRound.step (fun r => r.redirects ≤ 1) ⟨brawl, 0⟩ tauntedTwice := by
  have htwo : (run TauntRound.step ⟨brawl, 0⟩ tauntedTwice).redirects = 2 := by decide +kernel
  refine ⟨htwo, by decide +kernel, by decide +kernel, fun h => ?_⟩
  have hlast := h.last
  rw [htwo] at hlast
  simp at hlast

end Sidequest.Beat
