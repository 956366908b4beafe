import Sidequest.Beat.Hits
import Sidequest.Lib.Run

namespace Sidequest.Beat

open Lib Effect
open Combat (CreatureCore RollOutcome)
open Fate (ActorSide EncounterActor)

/-!
# Two checks of the dials

A beat looks at the dials when it is through; whoever moves them without a beat asks the encounter.
The one looks unless hit points decide, the other only where dials do.

* `SameFight` is kept by what may raise: `sameFight_of_raise`;
* `stepsMeet_agrees_iff` — over every run; `not_agrees_showdown` — a dial ends a showdown.
-/

/-! ### What a raise leaves behind -/

variable (enc : StructuredEncounter)

theorem SameFight.refl : SameFight enc enc := ⟨rfl, rfl, rfl, rfl, rfl⟩

theorem SameFight.trans {enc enc' enc'' : StructuredEncounter} (h : SameFight enc enc')
    (h' : SameFight enc' enc'') : SameFight enc enc'' where
  actors := h'.actors.trans h.actors
  winCondition := h'.winCondition.trans h.winCondition
  playerMetric := h'.playerMetric.trans h.playerMetric
  opponentMetric := h'.opponentMetric.trans h.opponentMetric
  resolved := h'.resolved.trans h.resolved

theorem SameFight.dialThresholdOutcome {enc enc' : StructuredEncounter} (h : SameFight enc enc') :
    enc'.dialThresholdOutcome = enc.dialThresholdOutcome := by
  unfold StructuredEncounter.dialThresholdOutcome
  rw [h.winCondition, h.playerMetric, h.opponentMetric]

variable {ι : Type}

/-- The fight is what it was. -/
def KeepsFight (s s' : BeatState ι) : Prop := SameFight s.enc s'.enc

instance : IsPreorder (BeatState ι) KeepsFight where
  refl s := SameFight.refl s.enc
  trans _ _ _ h h' := SameFight.trans h h'

theorem preserves_modifyEnc {f : StructuredEncounter → StructuredEncounter}
    (h : ∀ enc, SameFight enc (f enc)) : Preserves KeepsFight (modifyEnc f : BeatM ι PUnit) :=
  preserves_modify (fun s => h s.enc)

theorem preserves_appendTag (actor : EncounterActor) (turn : Int) (text : Option String)
    (leverage : Int) (fleeting : Bool) :
    Preserves KeepsFight (appendTag actor turn text leverage fleeting : BeatM ι PUnit) := by
  unfold appendTag
  cases text with
  | none => exact preserves_throw _
  | some text =>
    exact Preserves.ite (preserves_throw _)
      (preserves_modifyEnc (fun _ => ⟨rfl, rfl, rfl, rfl, rfl⟩))

theorem preserves_grantTags (actor : EncounterActor) (beat : BeatDef) (turn : Int)
    (deltas : ResolvedDeltas) :
    Preserves KeepsFight (grantTags actor beat turn deltas : BeatM ι PUnit) := by
  unfold grantTags
  have hrest : Preserves KeepsFight
      (if (present deltas.grantsFleetingTag).isSome = true ∧ deltas.tagBackfire = false then
        appendTag actor turn deltas.grantsFleetingTag 1 true else pure ⟨⟩ : BeatM ι PUnit) :=
    Preserves.ite (preserves_appendTag _ _ _ _ _) (preserves_pure _)
  refine Preserves.ite ?_ (Preserves.ite ?_ hrest)
  · exact Preserves.bind (preserves_appendTag _ _ _ _ _) (fun _ => hrest)
  · exact Preserves.bind (preserves_appendTag _ _ _ _ _) (fun _ => hrest)

variable [DecidableEq ι]

theorem preserves_debit (edgeResolver : EdgeResolver ι) (amount : Int)
    (composureBreak : Option String) (name : String) :
    Preserves KeepsFight (debit edgeResolver amount composureBreak name) := by
  unfold debit
  cases edgeResolver name with
  | none => exact preserves_throw _
  | some ref =>
    refine Preserves.bind (preserves_modify (fun s => SameFight.refl s.enc)) (fun _ => ?_)
    exact Preserves.bind preserves_get (fun _ => preserves_pure _)

theorem preserves_spreadHit (edgeResolver : EdgeResolver ι) (live : List String) (amount : Int)
    (composureBreak : Option String) (name : String) :
    Preserves KeepsFight (spreadHit edgeResolver live amount composureBreak name) := by
  unfold spreadHit
  refine Preserves.bind preserves_get (fun s => ?_)
  refine Preserves.bind (preserves_modifyEnc (fun _ => ⟨rfl, rfl, rfl, rfl, rfl⟩)) (fun _ => ?_)
  exact preserves_debit edgeResolver amount composureBreak _

/-- Debits hurt creatures, and leave the fight as it is. -/
theorem preserves_edgeDebits (edgeResolver : Option (EdgeResolver ι)) (actor : EncounterActor)
    (beat : BeatDef) : Preserves KeepsFight (edgeDebits edgeResolver actor beat) := by
  unfold edgeDebits
  refine Preserves.ite (preserves_pure _) ?_
  cases edgeResolver with
  | none => exact preserves_throw _
  | some edgeResolver =>
    have htarget : ∀ composureBreak : Option String, Preserves KeepsFight
        (if beat.targetEdgeDelta.getD 0 ≠ 0
          then targetDebits edgeResolver actor beat (beat.targetEdgeDelta.getD 0) composureBreak
          else pure composureBreak : BeatM ι (Option String)) := by
      intro composureBreak
      refine Preserves.ite ?_ (preserves_pure _)
      refine Preserves.bind preserves_get (fun s => Preserves.ite ?_ ?_)
      · refine Preserves.ite ?_ (preserves_pure _)
        exact preserves_foldlM (fun c name => preserves_spreadHit edgeResolver _ _ c name) _ _
      · cases s.enc.oppositeSideFirstActor actor.side with
        | none => exact preserves_pure _
        | some name => exact preserves_debit _ _ _ _
    refine Preserves.ite ?_ (htarget none)
    exact Preserves.bind (preserves_debit _ _ _ _) htarget

section Raise

variable {edgeResolver : Option (EdgeResolver ι)} {damageResolver : Option Int} {turn : Int}
  {actor : EncounterActor} {beat : BeatDef} {outcome : RollOutcome}

/-- The dials as a beat moves them, if its deltas are known. -/
def dialled (actor : EncounterActor) (beat : BeatDef) (outcome : RollOutcome)
    (enc : StructuredEncounter) : StructuredEncounter :=
  match resolveTierDeltas beat.kind beat.base outcome beat.deltas beat.targetTag with
  | .ok deltas => moveDials actor.side deltas enc
  | .error _ => enc

/-- **What a raise leaves behind.** The dials have moved, if the deltas were known, and the
    encounter is not over. -/
theorem sameFight_of_raise {s s' : BeatState ι} {e : BeatError}
    (hskip : skipReason s.enc actor = none)
    (h : (applyBeat edgeResolver damageResolver turn actor beat outcome).exec s = (.error e, s')) :
    SameFight (dialled actor beat outcome s.enc) s'.enc := by
  unfold dialled
  rcases htier : resolveTierDeltas beat.kind beat.base outcome beat.deltas beat.targetTag
    with e' | deltas
  · rw [exec_applyBeat_of_refused _ _ _ _ _ _ hskip htier] at h
    obtain rfl : s = s' := congrArg Prod.snd h
    exact SameFight.refl s.enc
  · rw [exec_applyBeat_of_tier _ _ _ _ _ _ hskip htier, marked_eq] at h
    have hstamp : ∀ impact, SameFight (moveDials actor.side deltas s.enc)
        (stampImpact actor.side impact (moveDials actor.side deltas s.enc)) :=
      fun _ => ⟨rfl, rfl, rfl, rfl, rfl⟩
    -- it was the tags that raised, or the debits
    rcases exec_bind_error h with htags | ⟨_, tagged, htags, h⟩
    · exact (hstamp _).trans ((preserves_grantTags actor beat turn deltas).of_exec htags)
    have htagged := (hstamp _).trans ((preserves_grantTags actor beat turn deltas).of_exec htags)
    rcases exec_bind_error h with hdebits | ⟨composureBreak, debited, hdebits, h⟩
    · exact htagged.trans ((preserves_edgeDebits edgeResolver actor beat).of_exec hdebits)
    rcases exec_bind_error h with hstrike | ⟨hpRemoved, hurt, -, h⟩
    · obtain ⟨hpRemoved, hexec⟩ := exec_strikeChannel edgeResolver damageResolver actor beat debited
      rw [hexec] at hstrike
      simp at hstrike
    · rw [exec_modifyEnc_bind] at h
      rw [exec_bind, exec_finishBeat (SameFight.refl _)] at h
      simp at h

end Raise

/-! ### Calls -/

/-- One call of `applyBeat`; the resolver of damage is its roll, where there is one. -/
structure BeatCall (ι : Type) where
  edgeResolver : Option (EdgeResolver ι) := none
  damageResolver : Option Int := none
  turn : Int := 0
  actor : EncounterActor
  beat : BeatDef
  outcome : RollOutcome

/-- The beat ended the encounter, and by a dial. -/
def EndedByDial (r : ApplyResult) (enc : StructuredEncounter) : Prop :=
  r.resolved = true ∧ enc.winCondition ≠ .hpDepletion ∧
    (enc.outcome = some "player_victory" ∨ enc.outcome = some "opponent_victory")

/-- The end that the dials mean, the player's first, whatever decides. -/
def dialOutcome : Option String :=
  if enc.playerMetric.met then some "player_victory"
  else if enc.opponentMetric.met then some "opponent_victory"
  else none

namespace BeatCall

variable (call : BeatCall ι) (s : BeatState ι)

def exec : Except BeatError ApplyResult × BeatState ι :=
  (applyBeat call.edgeResolver call.damageResolver call.turn call.actor call.beat
    call.outcome).exec s

/-- The state after a call, whether it returns or raises. -/
def step (s : BeatState ι) (call : BeatCall ι) : BeatState ι := (call.exec s).2

/-- The two checks agree on whether, and how, an encounter is over by its dials. -/
structure Agrees : Prop where
  unresolved : (step s call).enc.resolved = false → (step s call).enc.dialThresholdOutcome = none
  byDial : ∀ r, (call.exec s).1 = .ok r → EndedByDial r (step s call).enc →
    (step s call).enc.outcome = (step s call).enc.dialThresholdOutcome

/-- Nothing raises in the beat. -/
def GoesThrough : Prop :=
  ∃ deltas, Proceeds call.edgeResolver call.actor call.beat call.outcome s deltas

/-- The dials as the call moves them. -/
def dialled : StructuredEncounter := Beat.dialled call.actor call.beat call.outcome s.enc

/-- When the two checks agree: a dial that is met is neither skipped nor left by a raise, and no
    dial ends a showdown. -/
structure Checked : Prop where
  skipped : (skipReason s.enc call.actor).isSome = true →
    s.enc.resolved = true ∨ s.enc.dialThresholdOutcome = none
  raises : skipReason s.enc call.actor = none → ¬ call.GoesThrough s →
    (call.dialled s).dialThresholdOutcome = none
  showdown : skipReason s.enc call.actor = none → s.enc.winCondition = .tableShowdown →
    call.GoesThrough s → breaks call.edgeResolver call.actor call.beat s = none →
    dialOutcome (call.dialled s) = none

end BeatCall

/-! ### When they agree -/

theorem dialThresholdOutcome_eq : enc.dialThresholdOutcome =
    if enc.winCondition ≠ .dialThreshold then none else dialOutcome enc := rfl

/-- The check of the dials does not look at whether the encounter is over. -/
theorem dialThresholdOutcome_resolved? (ending : Option String) (enc : StructuredEncounter) :
    (resolved? ending enc).dialThresholdOutcome = enc.dialThresholdOutcome := by
  cases ending <;> rfl

/-- The end of a beat that breaks a composure, or resolves the encounter, is nobody's victory. -/
theorem not_victory {outcome : String} (h : outcome.toList.head? ≠ some 'p')
    (h' : outcome.toList.head? ≠ some 'o') :
    ¬ (some outcome = some "player_victory" ∨ some outcome = some "opponent_victory") := by
  rintro (heq | heq)
  · rw [Option.some.inj heq] at h
    exact h (by decide)
  · rw [Option.some.inj heq] at h'
    exact h' (by decide)

theorem not_victory_composureOutcome (name : String) :
    ¬ (some (composureOutcome name) = some "player_victory" ∨
      some (composureOutcome name) = some "opponent_victory") :=
  not_victory (by simp [composureOutcome]) (by simp [composureOutcome])

theorem not_victory_resolutionOutcome (beatId : String) :
    ¬ (some (resolutionOutcome beatId) = some "player_victory" ∨
      some (resolutionOutcome beatId) = some "opponent_victory") :=
  not_victory (by simp [resolutionOutcome]) (by simp [resolutionOutcome])

section Ending

variable {edgeResolver : Option (EdgeResolver ι)} {beat : BeatDef} {deltas : ResolvedDeltas}
  {s : BeatState ι}

omit [DecidableEq ι] in
/-- Where hit points do not decide and no composure broke, the dials are asked first. -/
theorem ending_of_dials (hwin : s.enc.winCondition ≠ .hpDepletion) :
    ending edgeResolver beat deltas none s = (dialOutcome s.enc).or
      (if deltas.resolution ∨ beat.resolution = some true then some (resolutionOutcome beat.id)
        else none) := by
  have hdepletion : depletion edgeResolver s = none := by
    unfold depletion
    rw [if_neg (fun h => hwin h.1)]
  unfold ending dialOutcome
  rw [hdepletion]
  by_cases hplayer : s.enc.playerMetric.met = true
  · rw [if_pos ⟨hwin, hplayer⟩, if_pos hplayer]
    rfl
  rw [if_neg (fun h => hplayer h.2), if_neg hplayer]
  by_cases hopponent : s.enc.opponentMetric.met = true
  · rw [if_pos ⟨hwin, hopponent⟩, if_pos hopponent]
    rfl
  rw [if_neg (fun h => hopponent h.2), if_neg hopponent]
  rfl

omit [DecidableEq ι] in
/-- **A beat ends an encounter by a dial** where no composure broke and a dial is met, and then as
    the dial means. -/
theorem ending_victory_iff (hwin : s.enc.winCondition ≠ .hpDepletion)
    (composureBreak : Option String) :
    (ending edgeResolver beat deltas composureBreak s = some "player_victory" ∨
        ending edgeResolver beat deltas composureBreak s = some "opponent_victory") ↔
      composureBreak = none ∧ dialOutcome s.enc ≠ none := by
  cases composureBreak with
  | some name =>
    refine iff_of_false (not_victory_composureOutcome name) (fun h => ?_)
    exact absurd h.1 (by simp)
  | none =>
    rw [ending_of_dials hwin]
    unfold dialOutcome
    by_cases hplayer : s.enc.playerMetric.met = true
    · simp [hplayer]
    by_cases hopponent : s.enc.opponentMetric.met = true
    · simp [hplayer, hopponent]
    · refine iff_of_false (fun h => ?_) (by simp [hplayer, hopponent])
      rw [if_neg hplayer, if_neg hopponent] at h
      split at h
      · exact not_victory_resolutionOutcome beat.id h
      · simp at h

end Ending

namespace BeatCall

variable {call : BeatCall ι} {s : BeatState ι}

theorem agrees_of_skipped {reason : String} (hskip : skipReason s.enc call.actor = some reason) :
    call.Agrees s ↔ call.Checked s := by
  have hexec : call.exec s = (.ok { skippedReason := some reason }, s) :=
    exec_applyBeat_of_skipped _ _ _ _ _ _ hskip
  have hstep : step s call = s := congrArg Prod.snd hexec
  constructor
  · intro h
    refine ⟨fun _ => ?_, fun hnone => ?_, fun hnone => ?_⟩
    · have hunresolved := h.unresolved
      rw [hstep] at hunresolved
      cases hresolved : s.enc.resolved with
      | true => exact .inl rfl
      | false => exact .inr (hunresolved hresolved)
    · cases hskip.symm.trans hnone
    · cases hskip.symm.trans hnone
  · intro h
    refine ⟨fun hresolved => ?_, fun r hr hended => ?_⟩
    · rw [hstep] at hresolved ⊢
      rcases h.skipped (by rw [hskip]; rfl) with hover | hnone
      · exact absurd (hover.symm.trans hresolved) (by decide)
      · exact hnone
    · rw [hexec] at hr
      cases hr
      exact absurd hended.1 (by simp)

omit [DecidableEq ι] in
/-- An encounter whose beats are not skipped is not over. -/
theorem resolved_of_not_skipped (hskip : skipReason s.enc call.actor = none) :
    s.enc.resolved = false := by
  unfold skipReason at hskip
  by_contra hresolved
  rw [Bool.not_eq_false] at hresolved
  rw [if_pos hresolved] at hskip
  simp at hskip

omit [DecidableEq ι] in
theorem resolved_dialled (hskip : skipReason s.enc call.actor = none) :
    (call.dialled s).resolved = false := by
  unfold BeatCall.dialled Beat.dialled
  split
  · exact (moveDials_frame _ _ _).2.2.2.trans (resolved_of_not_skipped hskip)
  · exact resolved_of_not_skipped hskip

theorem agrees_of_raises (hskip : skipReason s.enc call.actor = none)
    (hraises : ¬ call.GoesThrough s) : call.Agrees s ↔ call.Checked s := by
  rcases hexec : call.exec s with ⟨e | r, s'⟩
  · have hsame : SameFight (call.dialled s) s'.enc := sameFight_of_raise hskip hexec
    have hstep : step s call = s' := congrArg Prod.snd hexec
    constructor
    · intro h
      refine ⟨fun hsome => ?_, fun _ _ => ?_, fun _ _ hgoes => absurd hgoes hraises⟩
      · rw [hskip] at hsome
        simp at hsome
      · have hnone := h.unresolved
        rw [hstep, hsame.dialThresholdOutcome] at hnone
        exact hnone (hsame.resolved.trans (resolved_dialled hskip))
    · intro h
      refine ⟨fun _ => ?_, fun r hr => ?_⟩
      · rw [hstep, hsame.dialThresholdOutcome]
        exact h.raises hskip hraises
      · rw [hexec] at hr
        simp at hr
  · exact absurd (proceeds_of_exec hskip hexec) hraises

omit [DecidableEq ι] in
theorem not_fateConflict_of_not_skipped (hskip : skipReason s.enc call.actor = none) :
    s.enc.winCondition ≠ .fateConflict := by
  intro hwin
  unfold skipReason at hskip
  split_ifs at hskip

omit [DecidableEq ι] in
/-- The dials of a call do not change what decides. -/
theorem winCondition_dialled (call : BeatCall ι) (s : BeatState ι) :
    (call.dialled s).winCondition = s.enc.winCondition := by
  unfold BeatCall.dialled Beat.dialled
  split
  · exact (moveDials_frame _ _ _).2.1
  · rfl

/-- How a call that went through has left the encounter. -/
structure Left (call : BeatCall ι) (s : BeatState ι) (r : ApplyResult) (ending : Option String) :
    Prop where
  returned : (call.exec s).1 = .ok r
  resolved : r.resolved = ending.isSome
  settled : (step s call).enc.resolved = ending.isSome
  outcome : ∀ outcome, ending = some outcome → (step s call).enc.outcome = some outcome
  winCondition : (step s call).enc.winCondition = s.enc.winCondition
  dials : (step s call).enc.dialThresholdOutcome = (call.dialled s).dialThresholdOutcome

theorem exists_left (hskip : skipReason s.enc call.actor = none) (hgoes : call.GoesThrough s) :
    ∃ r deltas cores, Left call s r (ending call.edgeResolver call.beat deltas
      (breaks call.edgeResolver call.actor call.beat s) ⟨call.dialled s, cores⟩) := by
  obtain ⟨deltas, hproceeds⟩ := hgoes
  obtain ⟨r, enc', hexec, hresolved, hsame⟩ := @exec_applyBeat_of_proceeds ι _ call.edgeResolver
    call.damageResolver call.turn call.actor call.beat call.outcome s deltas hskip hproceeds
  have hdialled : call.dialled s = moveDials call.actor.side deltas s.enc := by
    unfold BeatCall.dialled Beat.dialled
    rw [hproceeds.tier]
  rw [← hdialled] at hexec hresolved hsame
  refine ⟨r, deltas, wounded call.edgeResolver call.damageResolver call.actor call.beat s, ?_⟩
  generalize wounded call.edgeResolver call.damageResolver call.actor call.beat s = cores at *
  generalize ending call.edgeResolver call.beat deltas
    (breaks call.edgeResolver call.actor call.beat s) ⟨call.dialled s, cores⟩ = ending at *
  have hstep : step s call = ⟨resolved? ending enc', cores⟩ := congrArg Prod.snd hexec
  have hwin : enc'.winCondition = s.enc.winCondition :=
    hsame.winCondition.trans (winCondition_dialled call s)
  have hopen : enc'.resolved = false := hsame.resolved.trans (resolved_dialled hskip)
  refine ⟨congrArg Prod.fst hexec, hresolved, ?_, ?_, ?_, ?_⟩
  · rw [hstep]
    cases ending with
    | none => exact hopen
    | some outcome => rfl
  · rintro outcome rfl
    rw [hstep]
    rfl
  · rw [hstep, ← hwin]
    cases ending <;> rfl
  · rw [hstep]
    exact (dialThresholdOutcome_resolved? ending enc').trans hsame.dialThresholdOutcome

/-- An encounter that a call leaves open is not over by its dials. -/
theorem unresolved_of_goesThrough (hskip : skipReason s.enc call.actor = none)
    (hgoes : call.GoesThrough s) (hopen : (step s call).enc.resolved = false) :
    (step s call).enc.dialThresholdOutcome = none := by
  obtain ⟨r, deltas, cores, hleft⟩ := exists_left hskip hgoes
  rw [hleft.dials, dialThresholdOutcome_eq]
  split
  · rfl
  · rename_i hdial
    rw [ne_eq, not_not] at hdial
    have hnone := hleft.settled.symm.trans hopen
    rw [Option.isSome_eq_false_iff, Option.isNone_iff_eq_none] at hnone
    cases hbreaks : breaks call.edgeResolver call.actor call.beat s with
    | some name =>
      rw [hbreaks] at hnone
      simp [ending] at hnone
    | none =>
      rw [hbreaks, ending_of_dials (by rw [hdial]; decide)] at hnone
      exact (Option.or_eq_none_iff.mp hnone).1

theorem byDial_iff_of_goesThrough (hskip : skipReason s.enc call.actor = none)
    (hgoes : call.GoesThrough s) : (∀ r, (call.exec s).1 = .ok r → EndedByDial r (step s call).enc →
      (step s call).enc.outcome = (step s call).enc.dialThresholdOutcome) ↔
    (s.enc.winCondition = .tableShowdown → breaks call.edgeResolver call.actor call.beat s = none →
      dialOutcome (call.dialled s) = none) := by
  obtain ⟨r, deltas, cores, hleft⟩ := exists_left hskip hgoes
  have hwin := winCondition_dialled call s
  have hvictory := fun hhp => @ending_victory_iff ι call.edgeResolver call.beat deltas
    ⟨call.dialled s, cores⟩ hhp (breaks call.edgeResolver call.actor call.beat s)
  generalize hending : ending call.edgeResolver call.beat deltas
    (breaks call.edgeResolver call.actor call.beat s) ⟨call.dialled s, cores⟩ = ending at *
  rw [hleft.dials, dialThresholdOutcome_eq, hwin]
  constructor
  · intro h hshowdown hbreaks
    -- a dial that is met would end the showdown, where the other check finds no end
    by_contra hmet
    have hends := (hvictory (by dsimp only; rw [hwin, hshowdown]; decide)).mpr ⟨hbreaks, hmet⟩
    obtain ⟨outcome, rfl⟩ : ∃ outcome, ending = some outcome := by
      rcases hends with hends | hends
      · exact ⟨_, hends⟩
      · exact ⟨_, hends⟩
    have houtcome := hleft.outcome outcome rfl
    have hagree := h r hleft.returned
      ⟨hleft.resolved, by rw [hleft.winCondition, hshowdown]; decide, by rw [houtcome]; exact hends⟩
    rw [houtcome, hshowdown, if_pos (by decide)] at hagree
    simp at hagree
  · intro h r' hr' hended
    obtain rfl : r = r' := Except.ok.inj (hleft.returned.symm.trans hr')
    obtain ⟨hisSome, hhp, houtcome⟩ := hended
    rw [hleft.resolved] at hisSome
    obtain ⟨outcome, rfl⟩ := Option.isSome_iff_exists.mp hisSome
    rw [hleft.winCondition] at hhp
    rw [hleft.outcome outcome rfl] at houtcome ⊢
    obtain ⟨hbreaks, hmet⟩ := (hvictory (by dsimp only; rw [hwin]; exact hhp)).mp houtcome
    -- it was no showdown, so dials decide
    have hdial : s.enc.winCondition = .dialThreshold := by
      cases hcase : s.enc.winCondition with
      | dialThreshold => rfl
      | hpDepletion => exact absurd hcase hhp
      | tableShowdown => exact absurd (h hcase hbreaks) hmet
      | fateConflict => exact absurd hcase (not_fateConflict_of_not_skipped hskip)
    rw [hdial, if_neg (by decide)]
    rw [hbreaks, ending_of_dials (by rw [hwin]; exact hhp)] at hending
    obtain ⟨means, hmeans⟩ := Option.ne_none_iff_exists'.mp hmet
    rw [hmeans] at hending ⊢
    exact hending.symm

theorem agrees_of_goesThrough (hskip : skipReason s.enc call.actor = none)
    (hgoes : call.GoesThrough s) : call.Agrees s ↔ call.Checked s := by
  have hdials := byDial_iff_of_goesThrough hskip hgoes
  constructor
  · intro h
    refine ⟨fun hsome => ?_, fun _ hraises => absurd hgoes hraises, fun _ hshowdown _ hbreaks => ?_⟩
    · rw [hskip] at hsome
      simp at hsome
    · exact hdials.mp h.byDial hshowdown hbreaks
  · intro h
    refine ⟨unresolved_of_goesThrough hskip hgoes, hdials.mpr (fun hshowdown hbreaks => ?_)⟩
    exact h.showdown hskip hshowdown hgoes hbreaks

/-- **The two checks agree** on a call if and only if no dial that is met is left alone, and no dial
    ends a showdown. -/
theorem agrees_iff_checked (call : BeatCall ι) (s : BeatState ι) :
    call.Agrees s ↔ call.Checked s := by
  cases hskip : skipReason s.enc call.actor with
  | some reason => exact agrees_of_skipped hskip
  | none =>
    by_cases hgoes : call.GoesThrough s
    · exact agrees_of_goesThrough hskip hgoes
    · exact agrees_of_raises hskip hgoes

end BeatCall

/-- **The two checks agree in a run** of beats if and only if every one of its calls meets the
    condition in the state it comes to. -/
theorem stepsMeet_agrees_iff (s : BeatState ι) (calls : List (BeatCall ι)) :
    StepsMeet BeatCall.step (fun s call => call.Agrees s) s calls ↔
      StepsMeet BeatCall.step (fun s call => call.Checked s) s calls :=
  stepsMeet_congr (fun call _ s => call.agrees_iff_checked s) s

/-! ### A beat at a table -/

/-- A game of cards. Its dials are placeholders, which one point fills. -/
def showdown : BeatState Unit where
  enc := {
    winCondition := .tableShowdown
    playerMetric := ⟨0, 1⟩
    opponentMetric := ⟨0, 1⟩
    actors := [⟨"Doc", .player, false⟩, ⟨"Dealer", .opponent, false⟩] }
  cores := fun _ => { hp := ⟨1, 1⟩ }

def bluff : BeatCall Unit where
  actor := ⟨"Doc", .player, false⟩
  beat := { id := "bluff", kind := some .strike }
  outcome := .success

/-- **A dial ends a showdown.** One beat moves a placeholder, and the game is won; the encounter
    itself would not say so. -/
theorem not_agrees_showdown : ¬ StepsMeet BeatCall.step (fun s call => call.Agrees s) showdown
    [bluff] := by
  rintro ⟨hagrees, -⟩
  have hended : (bluff.exec showdown).1.toOption.map ApplyResult.resolved = some true := by
    decide +kernel
  have houtcome : (BeatCall.step showdown bluff).enc.outcome = some "player_victory" := by
    decide +kernel
  have hcheck : (BeatCall.step showdown bluff).enc.dialThresholdOutcome = none := by decide +kernel
  obtain ⟨r, hr, hresolved⟩ := Option.map_eq_some_iff.mp hended
  have hsame := hagrees.byDial r (toOption_eq_some.mp hr)
    ⟨hresolved, by decide +kernel, .inl houtcome⟩
  rw [houtcome, hcheck] at hsame
  simp at hsame

end Sidequest.Beat
