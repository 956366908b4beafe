import Sidequest.Beat.Agreement

namespace Sidequest.Beat

open Lib Effect
open Combat (CreatureCore Depletion RollOutcome hpDepletion sideDown)
open Fate (ActorSide EncounterActor)

/-!
# What a beat that raises has written

A beat stamps its readout, moves the dials and adds its tags before it comes to its debits, and pays
these one by one. If one of them finds no creature it raises, and what has been written stays.

* `SomeSideDown` — a side is beaten; `EndedByDamage` — a beat ended the fight, and not as what
  resolves it;
* `exec_applyBeat_of_not_given`, `exec_applyBeat_of_unknown` — the state that a raise leaves;
* `unchanged_iff_harmless` — a call that raises has changed nothing if and only if its deltas were
  refused, or everything it wrote was there before;
* `not_unchanged_shade` — two foes, one without a creature.
-/

section

variable {ι : Type}

/-- Somebody of the players or of the opponents has hit points, and nobody of them any left. -/
def SomeSideDown (edgeResolver : Option (EdgeResolver ι)) (actors : List EncounterActor)
    (cores : ι → CreatureCore) : Prop :=
  sideDown actors (hpOf (names edgeResolver) cores) .player = true ∨
    sideDown actors (hpOf (names edgeResolver) cores) .opponent = true

instance (edgeResolver : Option (EdgeResolver ι)) (actors : List EncounterActor)
    (cores : ι → CreatureCore) : Decidable (SomeSideDown edgeResolver actors cores) :=
  inferInstanceAs (Decidable (_ ∨ _))

/-- The beat ended the encounter, and not because it is one that does. -/
def EndedByDamage (beat : BeatDef) (r : ApplyResult) (enc : StructuredEncounter) : Prop :=
  r.resolved = true ∧ enc.outcome ≠ some (resolutionOutcome beat.id)

theorem composureOutcome_ne_resolutionOutcome (name beatId : String) :
    composureOutcome name ≠ resolutionOutcome beatId := by
  intro h
  have hchars : (composureOutcome name).toList.head? = (resolutionOutcome beatId).toList.head? :=
    congrArg (·.toList.head?) h
  simp [composureOutcome, resolutionOutcome] at hchars

/-- A fight that ends on hit points is lost by a side. -/
theorem someSideDown_of_depletion {edgeResolver : Option (EdgeResolver ι)} {s : BeatState ι}
    {d : Depletion} (h : depletion edgeResolver s = some d) :
    SomeSideDown edgeResolver s.enc.actors s.cores := by
  unfold depletion at h
  split at h
  · cases edgeResolver with
    | none => simp at h
    | some edgeResolver =>
      have hends : hpDepletion s.enc.actors (hpOf edgeResolver s.cores) = some d := h
      have hnames : names (some edgeResolver) = edgeResolver := rfl
      unfold SomeSideDown
      rw [hnames]
      by_contra hnot
      rw [not_or, Bool.not_eq_true, Bool.not_eq_true] at hnot
      unfold hpDepletion at hends
      rw [hnot.1, hnot.2] at hends
      simp at hends
  · simp at h

section Depleted

variable [DecidableEq ι] {edgeResolver : Option (EdgeResolver ι)} {damageResolver : Option Int}
  {turn : Int} {actor : EncounterActor} {beat : BeatDef} {outcome : RollOutcome}

theorem actors_resolved? (ending : Option String) (enc : StructuredEncounter) :
    (resolved? ending enc).actors = enc.actors := by
  cases ending with
  | none => rfl
  | some outcome => rfl

/-- **Who is beaten.** On hit points an applied beat ends the encounter only where a side is beaten
    exactly if it is skipped, or no debit takes its creature to 0, or debits and strike leave nobody
    of a side standing. -/
theorem someSideDown_iff {s s' : BeatState ι} {r : ApplyResult}
    (hwin : s.enc.winCondition = .hpDepletion)
    (hexec : (applyBeat edgeResolver damageResolver turn actor beat outcome).exec s = (.ok r, s')) :
    (EndedByDamage beat r s'.enc → SomeSideDown edgeResolver s'.enc.actors s'.cores) ↔
      ((skipReason s.enc actor).isSome = true ∨ breaks edgeResolver actor beat s = none ∨
        SomeSideDown edgeResolver s.enc.actors
          (wounded edgeResolver damageResolver actor beat s)) := by
  rcases hskip : skipReason s.enc actor with _ | reason
  · obtain ⟨deltas, hproceeds⟩ := proceeds_of_exec hskip hexec
    obtain ⟨r', enc', hexec', hresolved, hsame⟩ := exec_applyBeat_of_proceeds hskip hproceeds
    rw [hexec] at hexec'
    obtain ⟨hr, hs⟩ := Prod.mk.inj hexec'
    cases hr
    subst hs
    obtain ⟨hactors, hmoved, -, -⟩ := moveDials_frame actor.side deltas s.enc
    have hactors' : enc'.actors = s.enc.actors := hsame.actors.trans hactors
    rw [actors_resolved?, hactors']
    rcases hbreak : breaks edgeResolver actor beat s with _ | name <;> rw [hbreak] at hresolved
    · -- nobody's composure broke: what ends the fight is the win check, or the beat resolves it
      refine ⟨fun _ => .inr (.inl rfl), fun _ hended => ?_⟩
      obtain ⟨hends, hdamage⟩ := hended
      rw [hresolved] at hends
      rcases hdepletion : depletion edgeResolver ⟨moveDials actor.side deltas s.enc,
          wounded edgeResolver damageResolver actor beat s⟩ with _ | d
      · unfold ending at hends hdamage
        rw [hdepletion] at hends hdamage
        rw [hmoved, hwin] at hends hdamage
        simp only [ne_eq, not_true_eq_false, false_and, if_false] at hends hdamage
        split at hends
        · rename_i hresolution
          rw [if_pos hresolution] at hdamage
          exact absurd rfl hdamage
        · simp at hends
      · have hdown := someSideDown_of_depletion hdepletion
        rw [hactors] at hdown
        exact hdown
    · -- a composure broke: that ends the fight
      have hended : EndedByDamage beat r
          (resolved? (some (composureOutcome name)) enc') := by
        refine ⟨hresolved, fun h => ?_⟩
        exact composureOutcome_ne_resolutionOutcome name beat.id (Option.some.inj h)
      constructor
      · exact fun h => .inr (.inr (h hended))
      · rintro (h | h | h)
        · simp at h
        · simp at h
        · exact fun _ => h
  · -- a beat that is skipped ends nothing
    rw [exec_applyBeat_of_skipped edgeResolver damageResolver turn actor beat outcome hskip] at hexec
    obtain ⟨hr, -⟩ := Prod.mk.inj hexec
    cases hr
    exact ⟨fun _ => .inl rfl, fun _ hended => nomatch hended.1⟩

end Depleted

/-! ### Two against one ghoul -/

/-- The creatures of a fight: two who hold a cellar, and a ghoul. -/
inductive Fighter where
  | ysolde
  | brand
  | ghoul
deriving DecidableEq

def cellarNames : EdgeResolver Fighter := fun name =>
  if name = "Ysolde" then some .ysolde
  else if name = "Brand" then some .brand
  else if name = "Ghoul" then some .ghoul
  else none

/-- The ghoul has so many hit points left. -/
def cellarCores (ghoul : Int) : Fighter → CreatureCore
  | .ysolde => { hp := ⟨3, 8⟩ }
  | .brand => { hp := ⟨10, 10⟩ }
  | .ghoul => { hp := ⟨ghoul, 9⟩ }

def cellar (ghoul : Int) : BeatState Fighter where
  enc := {
    winCondition := .hpDepletion
    playerMetric := ⟨0, 1000000⟩
    opponentMetric := ⟨0, 1000000⟩
    actors := [⟨"Ysolde", .player, false⟩, ⟨"Brand", .player, false⟩, ⟨"Ghoul", .opponent, false⟩] }
  cores := cellarCores ghoul

/-- Five, from the first of the other side. -/
def rend : BeatDef := { id := "rend", kind := some .strike, targetEdgeDelta := some 5 }

/-- Somebody rends. -/
def rending (ghoul : Int) (name : String) (side : ActorSide) :
    Except BeatError ApplyResult × BeatState Fighter :=
  (applyBeat (some cellarNames) none 1 ⟨name, side, false⟩ rend .fail).exec (cellar ghoul)

/-- Brand rends a ghoul that has 4 left, and it was the last of its side. -/
theorem someSideDown_rending : ∃ r s', rending 4 "Brand" .player = (.ok r, s') ∧
    EndedByDamage rend r s'.enc ∧ SomeSideDown (some cellarNames) s'.enc.actors s'.cores := by
  have hok : (rending 4 "Brand" .player).1.toOption.map ApplyResult.resolved = some true := by
    decide +kernel
  obtain ⟨r, hr, hresolved⟩ := Option.map_eq_some_iff.mp hok
  have hexec : rending 4 "Brand" .player = (.ok r, (rending 4 "Brand" .player).2) :=
    Prod.ext (toOption_eq_some.mp hr) rfl
  have hended : EndedByDamage rend r (rending 4 "Brand" .player).2.enc := by
    refine ⟨hresolved, ?_⟩
    decide
  refine ⟨r, _, hexec, hended, (someSideDown_iff rfl hexec).mpr (.inr (.inr ?_)) hended⟩
  decide +kernel

/-- **One falls, and the fight is over.** The ghoul rends Ysolde, who has 3 left, and Brand still
    stands; so does the ghoul. -/
theorem not_someSideDown : ∃ r s', rending 9 "Ghoul" .opponent = (.ok r, s') ∧
    EndedByDamage rend r s'.enc ∧ ¬ SomeSideDown (some cellarNames) s'.enc.actors s'.cores := by
  have hok : (rending 9 "Ghoul" .opponent).1.toOption.map ApplyResult.resolved = some true := by
    decide +kernel
  obtain ⟨r, hr, hresolved⟩ := Option.map_eq_some_iff.mp hok
  refine ⟨r, _, Prod.ext (toOption_eq_some.mp hr) rfl, ⟨hresolved, ?_⟩, by decide +kernel⟩
  decide

end

variable {ι : Type} [DecidableEq ι]

/-! ### Beats that raise -/

section Raises

variable {actor : EncounterActor} {beat : BeatDef} {outcome : RollOutcome} {deltas : ResolvedDeltas}

/-- **A beat whose tags cannot be made** has stamped its readout and moved the dials. -/
theorem exec_applyBeat_of_not_given (edgeResolver : Option (EdgeResolver ι))
    (damageResolver : Option Int) (turn : Int) {s : BeatState ι} (hskip : skipReason s.enc actor = none)
    (htier : resolveTierDeltas beat.kind beat.base outcome beat.deltas beat.targetTag = .ok deltas)
    (htags : ¬ TagsGiven beat deltas) :
    ∃ e, (applyBeat edgeResolver damageResolver turn actor beat outcome).exec s =
      (.error e, ⟨marked actor deltas s.enc, s.cores⟩) := by
  obtain ⟨e, hexec⟩ := exec_grantTags_of_not_given actor beat turn deltas htags
    ⟨marked actor deltas s.enc, s.cores⟩
  refine ⟨e, ?_⟩
  rw [exec_applyBeat_of_tier _ _ _ _ _ _ hskip htier, exec_bind, hexec]

/-- **A beat whose debits stop** has also added its tags, and paid those before. -/
theorem exec_applyBeat_of_unknown {edgeResolver : Option (EdgeResolver ι)}
    (damageResolver : Option Int) (turn : Int) {s : BeatState ι}
    (hskip : skipReason s.enc actor = none)
    (htier : resolveTierDeltas beat.kind beat.base outcome beat.deltas beat.targetTag = .ok deltas)
    (htags : TagsGiven beat deltas) (hunknown : ¬ DebitsKnown edgeResolver s.enc actor beat) :
    ∃ e new, (applyBeat edgeResolver damageResolver turn actor beat outcome).exec s =
        (.error e, ⟨{ marked actor deltas s.enc with
            tags := s.enc.tags ++ new
            taunt := tauntAtStop edgeResolver s.enc actor beat },
          hurtBy (names edgeResolver) s.cores
            (paid (names edgeResolver) (hits s.enc actor beat))⟩) ∧
      (new = [] ↔ ¬ GivesTag deltas) := by
  obtain ⟨hactors, htaunt, hsame⟩ := frame_marked actor deltas s.enc
  obtain ⟨new, hgiven, hnew⟩ := exec_grantTags_of_given actor beat turn deltas htags
    ⟨marked actor deltas s.enc, s.cores⟩
  -- the debits are those of the encounter as it was
  generalize htagged : ({ marked actor deltas s.enc with
    tags := (marked actor deltas s.enc).tags ++ new } : StructuredEncounter) = tagged at hgiven
  have hsame' : tagged.actors = s.enc.actors ∧ tagged.taunt = s.enc.taunt := by
    rw [← htagged]
    exact ⟨hactors, htaunt⟩
  have hhit := hits_congr hsame'.1 hsame'.2 actor beat
  have hstop := tauntAtStop_congr hsame'.1 hsame'.2 edgeResolver actor beat
  obtain ⟨e, hdebits⟩ := (exec_edgeDebits edgeResolver actor beat ⟨tagged, s.cores⟩).2
    (by unfold DebitsKnown; rw [hhit]; exact hunknown)
  rw [hhit, hstop] at hdebits
  refine ⟨e, new, ?_, hnew⟩
  rw [exec_applyBeat_of_tier _ _ _ _ _ _ hskip htier, exec_bind, hgiven]
  dsimp only
  rw [exec_bind, hdebits, ← htagged, hsame]

end Raises

/-! ### Calls that change nothing -/

namespace BeatCall

variable (call : BeatCall ι) (s : BeatState ι)

/-- If the call raises, everything is as it was. -/
def UnchangedIfRaised : Prop :=
  match call.exec s with
  | (.error _, s') => s' = s
  | (.ok _, _) => True

/-- All that the call writes before it raises was there before. -/
structure WritesNothing (deltas : ResolvedDeltas) : Prop where
  readout : s.enc.lastBeatImpacts.get? call.actor.side =
    some (describeBeatImpact deltas (decide (s.enc.winCondition = .hpDepletion)) 0)
  dials : moveDials call.actor.side deltas s.enc = s.enc
  tags : TagsGiven call.beat deltas → ¬ GivesTag deltas
  taunt : TagsGiven call.beat deltas →
    tauntAtStop call.edgeResolver s.enc call.actor call.beat = s.enc.taunt
  cores : TagsGiven call.beat deltas → hurtBy (names call.edgeResolver) s.cores
    (paid (names call.edgeResolver) (hits s.enc call.actor call.beat)) = s.cores

/-- The call is skipped, or its deltas are refused, or it goes through, or it writes nothing. -/
def Harmless : Prop :=
  skipReason s.enc call.actor = none → ∀ deltas,
    resolveTierDeltas call.beat.kind call.beat.base call.outcome call.beat.deltas
      call.beat.targetTag = .ok deltas →
    Proceeds call.edgeResolver call.actor call.beat call.outcome s deltas ∨
      call.WritesNothing s deltas

end BeatCall

/-- A beat leaves readouts and dials as they were if the readout was there, and the dials stand
    still. -/
theorem marked_eq_self_iff (actor : EncounterActor) (deltas : ResolvedDeltas)
    (enc : StructuredEncounter) : marked actor deltas enc = enc ↔
      enc.lastBeatImpacts.get? actor.side =
        some (describeBeatImpact deltas (decide (enc.winCondition = .hpDepletion)) 0) ∧
      moveDials actor.side deltas enc = enc := by
  unfold marked
  rw [moveDials_stampImpact]
  generalize describeBeatImpact deltas (decide (enc.winCondition = .hpDepletion)) 0 = impact
  have himpacts : (moveDials actor.side deltas enc).lastBeatImpacts = enc.lastBeatImpacts := by
    unfold moveDials
    split
    · rfl
    · split <;> rfl
  constructor
  · intro h
    have hreadout : enc.lastBeatImpacts.insert actor.side impact = enc.lastBeatImpacts := by
      have := congrArg StructuredEncounter.lastBeatImpacts h
      unfold stampImpact at this
      rwa [himpacts] at this
    refine ⟨Dict.insert_eq_self_iff.mp hreadout, ?_⟩
    unfold stampImpact at h
    rw [himpacts, hreadout, ← himpacts] at h
    exact h
  · rintro ⟨hreadout, hdials⟩
    rw [hdials]
    unfold stampImpact
    rw [Dict.insert_eq_self_iff.mpr hreadout]

omit [DecidableEq ι] in
/-- The state that debits leave as they stop is what it was if everything in it was. -/
theorem stopped_eq_self_iff {s : BeatState ι} (actor : EncounterActor) (deltas : ResolvedDeltas)
    (new : List EncounterTag) (taunt : TauntState) (cores : ι → CreatureCore) :
    (⟨{ marked actor deltas s.enc with tags := s.enc.tags ++ new, taunt := taunt }, cores⟩ :
        BeatState ι) = s ↔
      marked actor deltas s.enc = s.enc ∧ new = [] ∧ taunt = s.enc.taunt ∧ cores = s.cores := by
  obtain ⟨-, htaunt, htags⟩ := frame_marked actor deltas s.enc
  constructor
  · intro h
    have henc := congrArg BeatState.enc h
    have hmarked : marked actor deltas s.enc = s.enc :=
      calc marked actor deltas s.enc
          = { marked actor deltas s.enc with tags := s.enc.tags, taunt := s.enc.taunt } := by
            rw [← htags, ← htaunt]
        _ = s.enc := congrArg (fun enc : StructuredEncounter =>
            { enc with tags := s.enc.tags, taunt := s.enc.taunt }) henc
    have hnew : s.enc.tags ++ new = s.enc.tags := congrArg StructuredEncounter.tags henc
    exact ⟨hmarked, List.append_cancel_left (hnew.trans (List.append_nil _).symm), congrArg StructuredEncounter.taunt henc,
      congrArg BeatState.cores h⟩
  · rintro ⟨hmarked, rfl, rfl, rfl⟩
    rw [hmarked, List.append_nil]

/-- **A call that raises has changed nothing** if and only if its deltas were refused, or everything
    that it wrote was there before. -/
theorem unchanged_iff_harmless (call : BeatCall ι) (s : BeatState ι) :
    call.UnchangedIfRaised s ↔ call.Harmless s := by
  unfold BeatCall.UnchangedIfRaised BeatCall.Harmless BeatCall.exec
  cases hskip : skipReason s.enc call.actor with
  | some reason =>
    rw [exec_applyBeat_of_skipped _ _ _ _ _ _ hskip]
    exact iff_of_true trivial (fun h => by cases h)
  | none =>
    rcases htier : resolveTierDeltas call.beat.kind call.beat.base call.outcome call.beat.deltas
      call.beat.targetTag with e | deltas
    · rw [exec_applyBeat_of_refused _ _ _ _ _ _ hskip htier]
      exact iff_of_true rfl (fun _ deltas h => by cases h)
    -- the two binders of the condition are fixed by now
    · have hdeltas : ∀ P : ResolvedDeltas → Prop, ((none : Option String) = none →
          ∀ deltas', (Except.ok deltas : Except BeatError ResolvedDeltas) = .ok deltas' →
            P deltas') ↔ P deltas :=
        fun P => ⟨fun h => h rfl deltas rfl, fun h _ deltas' heq => Except.ok.inj heq ▸ h⟩
      rw [hdeltas]
      by_cases htags : TagsGiven call.beat deltas
      · by_cases hknown : DebitsKnown call.edgeResolver s.enc call.actor call.beat
        · -- it goes through
          have hgoes : Proceeds call.edgeResolver call.actor call.beat call.outcome s deltas :=
            ⟨htier, htags, hknown⟩
          obtain ⟨r, enc', hexec, -⟩ := @exec_applyBeat_of_proceeds ι _ call.edgeResolver
            call.damageResolver call.turn call.actor call.beat call.outcome s deltas hskip hgoes
          rw [hexec]
          exact iff_of_true trivial (.inl hgoes)
        · -- a debit raises
          obtain ⟨e, new, hexec, hnew⟩ := exec_applyBeat_of_unknown call.damageResolver
            call.turn hskip htier htags hknown
          rw [hexec]
          dsimp only
          rw [stopped_eq_self_iff, marked_eq_self_iff, hnew]
          constructor
          · rintro ⟨⟨hreadout, hdials⟩, htag, htaunt, hcores⟩
            exact .inr ⟨hreadout, hdials, fun _ => htag, fun _ => htaunt, fun _ => hcores⟩
          · rintro (hgoes | h)
            · exact absurd hgoes.debits hknown
            · exact ⟨⟨h.readout, h.dials⟩, h.tags htags, h.taunt htags, h.cores htags⟩
      · -- a tag cannot be made
        obtain ⟨e, hexec⟩ := exec_applyBeat_of_not_given call.edgeResolver call.damageResolver
          call.turn hskip htier htags
        rw [hexec]
        have hsame : (⟨marked call.actor deltas s.enc, s.cores⟩ : BeatState ι) = s ↔
            marked call.actor deltas s.enc = s.enc :=
          ⟨congrArg BeatState.enc, fun h => by rw [h]⟩
        dsimp only
        rw [hsame, marked_eq_self_iff]
        constructor
        · rintro ⟨hreadout, hdials⟩
          exact .inr ⟨hreadout, hdials, fun h => absurd h htags, fun h => absurd h htags,
            fun h => absurd h htags⟩
        · rintro (hgoes | h)
          · exact absurd hgoes.tags htags
          · exact ⟨h.readout, h.dials⟩

/-! ### A foe without a creature -/

/-- Brand alone against the ghoul and a shade, of which no creature is known. -/
def shadeEncounter : BeatState Fighter where
  enc := {
    playerMetric := ⟨0, 10⟩
    opponentMetric := ⟨0, 10⟩
    actors := [⟨"Brand", .player, false⟩, ⟨"Ghoul", .opponent, false⟩, ⟨"Shade", .opponent, false⟩] }
  cores := cellarCores 9

/-- Two from each of them. -/
def sweep : BeatCall Fighter where
  edgeResolver := some cellarNames
  actor := ⟨"Brand", .player, false⟩
  beat := { id := "sweep", kind := some .strike, targetEdgeDelta := some 4,
            targetSelect := some .spread }
  outcome := .success

/-- The sweep raises at the shade: the dial has moved by then, and the ghoul has paid. -/
theorem not_unchanged_shade : ¬ sweep.UnchangedIfRaised shadeEncounter ∧
    (sweep.exec shadeEncounter).2.enc.playerMetric.current = 1 ∧
    ((sweep.exec shadeEncounter).2.cores .ghoul).hp.current = 7 := by
  have hraises : (sweep.exec shadeEncounter).1.toBool = false := by decide +kernel
  have hdial : (sweep.exec shadeEncounter).2.enc.playerMetric.current = 1 := by decide +kernel
  refine ⟨?_, hdial, by decide +kernel⟩
  unfold BeatCall.UnchangedIfRaised
  rcases hexec : sweep.exec shadeEncounter with ⟨e | r, s'⟩
  · rw [hexec] at hdial
    intro hsame
    have hunchanged : s' = shadeEncounter := hsame
    rw [hunchanged] at hdial
    exact absurd hdial (show ¬ (0 : Int) = 1 by decide)
  · rw [hexec] at hraises
    cases hraises

end Sidequest.Beat
