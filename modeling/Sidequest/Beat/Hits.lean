import Sidequest.Beat.Apply

namespace Sidequest.Beat

open Lib Effect
open Combat (CreatureCore RollOutcome)
open Combat.GameSnapshot (mitigated)
open Fate (EncounterActor)

/-!
# What a beat does

Whom a beat hits, and for how much, is known before it is applied; so is what it raises. What a
beat leaves behind is read off that.

* `hits` — the debits of a beat, in their order; `hurtBy`, `firstBroken` — what they do;
* `Proceeds`, `exec_applyBeat_of_proceeds`, `proceeds_of_exec` — whether a beat returns, and with
  what.
-/

variable {ι : Type} [DecidableEq ι]

/-! ### Hits -/

/-- Whom the hits of a debit that is spread land on, and the taunt after them. -/
def spreadNames (live : List String) : TauntState → List String → List String × TauntState
  | taunt, [] => ([], taunt)
  | taunt, name :: names =>
    let redirected := redirect live taunt name
    let rest := spreadNames live redirected.2 names
    (redirected.1 :: rest.1, rest.2)

/-- The debits of the other side, and the taunt after them. -/
def targetHits (enc : StructuredEncounter) (actor : EncounterActor) (beat : BeatDef) :
    List (String × Int) × TauntState :=
  let targetEdgeDelta := beat.targetEdgeDelta.getD 0
  if targetEdgeDelta = 0 then ([], enc.taunt)
  else if beat.targetSelect = some .spread then
    let live := enc.oppositeSideLiveActors actor.side
    let perTarget := targetEdgeDelta / live.length
    if live ≠ [] ∧ 0 < perTarget then
      let spread := spreadNames live enc.taunt live
      (spread.1.map (fun name => (name, perTarget)), spread.2)
    else ([], enc.taunt)
  else ((enc.oppositeSideFirstActor actor.side).toList.map (fun name => (name, targetEdgeDelta)),
    enc.taunt)

/-- All debits of a beat, in their order: names, and amounts. -/
def hits (enc : StructuredEncounter) (actor : EncounterActor) (beat : BeatDef) :
    List (String × Int) :=
  (if beat.edgeDelta.getD 0 = 0 then [] else [(actor.name, beat.edgeDelta.getD 0)]) ++
    (targetHits enc actor beat).1

/-- The creatures after some hits. -/
def hurtBy (edgeResolver : EdgeResolver ι) (cores : ι → CreatureCore) (l : List (String × Int)) :
    ι → CreatureCore :=
  l.foldl (fun cores hit => match edgeResolver hit.1 with
    | some ref => hurt cores ref hit.2
    | none => cores) cores

/-- The first of some hits that leaves its creature at no more than 0. -/
def firstBroken (edgeResolver : EdgeResolver ι) :
    (ι → CreatureCore) → List (String × Int) → Option String
  | _, [] => none
  | cores, (name, amount) :: rest =>
    match edgeResolver name with
    | none => none
    | some ref =>
      if (hurt cores ref amount ref).hp.current ≤ 0 then some name
      else firstBroken edgeResolver (hurt cores ref amount) rest

/-- Every name that is hit has a creature. -/
def Known (edgeResolver : EdgeResolver ι) (l : List (String × Int)) : Prop :=
  ∀ hit ∈ l, (edgeResolver hit.1).isSome = true

/-- The debits before the first whose name nobody has. -/
def paid (edgeResolver : EdgeResolver ι) (l : List (String × Int)) : List (String × Int) :=
  l.takeWhile (fun hit => (edgeResolver hit.1).isSome)

/-- The taunt when a debit that is spread comes to a name that nobody has. -/
def stoppedTaunt (edgeResolver : EdgeResolver ι) (live : List String) :
    TauntState → List String → TauntState
  | taunt, [] => taunt
  | taunt, name :: names =>
    let redirected := redirect live taunt name
    match edgeResolver redirected.1 with
    | none => redirected.2
    | some _ => stoppedTaunt edgeResolver live redirected.2 names

/-- The taunt when the debits of the other side stop. Only one that is spread uses redirects. -/
def targetTauntAtStop (edgeResolver : EdgeResolver ι) (enc : StructuredEncounter)
    (actor : EncounterActor) (beat : BeatDef) : TauntState :=
  if beat.targetSelect = some .spread then
    stoppedTaunt edgeResolver (enc.oppositeSideLiveActors actor.side) enc.taunt
      (enc.oppositeSideLiveActors actor.side)
  else enc.taunt

/-! ### Debits -/

section Debits

variable (edgeResolver : EdgeResolver ι) {amount : Int} {name : String}

section

omit [DecidableEq ι]

variable (rest : List (String × Int))

theorem paid_cons_of_some {ref : ι} (h : edgeResolver name = some ref) :
    paid edgeResolver ((name, amount) :: rest) = (name, amount) :: paid edgeResolver rest := by
  unfold paid
  rw [List.takeWhile_cons_of_pos (by simp [h])]

theorem paid_cons_of_none (h : edgeResolver name = none) :
    paid edgeResolver ((name, amount) :: rest) = [] := by
  unfold paid
  rw [List.takeWhile_cons_of_neg (by simp [h])]

end

theorem firstBroken_cons {ref : ι} (cores : ι → CreatureCore) (rest : List (String × Int))
    (h : edgeResolver name = some ref) : firstBroken edgeResolver cores ((name, amount) :: rest) =
      (if (hurt cores ref amount ref).hp.current ≤ 0 then some name else none).or
        (firstBroken edgeResolver (hurt cores ref amount) rest) := by
  rw [firstBroken, h]
  dsimp only
  split <;> rfl

/-- Some debits are paid in their order, or those before the first whose name nobody has; then the
    taunt is another. -/
structure Pays (m : BeatM ι (Option String)) (composureBreak : Option String)
    (l : List (String × Int)) (s : BeatState ι) (taunt stopped : TauntState) : Prop where
  returns : Known edgeResolver l → m.exec s =
    (.ok (composureBreak.or (firstBroken edgeResolver s.cores l)),
      ⟨{ s.enc with taunt := taunt }, hurtBy edgeResolver s.cores l⟩)
  raises : ¬ Known edgeResolver l → ∃ e, m.exec s =
    (.error e, ⟨{ s.enc with taunt := stopped }, hurtBy edgeResolver s.cores (paid edgeResolver l)⟩)

variable {edgeResolver} {rest : List (String × Int)} {s : BeatState ι} {taunt stopped : TauntState}

theorem Pays.of_exec {m m' : BeatM ι (Option String)} {composureBreak : Option String}
    {l : List (String × Int)} (hexec : m.exec s = m'.exec s)
    (h : Pays edgeResolver m' composureBreak l s taunt stopped) :
    Pays edgeResolver m composureBreak l s taunt stopped where
  returns hknown := hexec.trans (h.returns hknown)
  raises hunknown := (h.raises hunknown).imp (fun _ hraises => hexec.trans hraises)

theorem pays_pure (composureBreak : Option String) :
    Pays edgeResolver (pure composureBreak) composureBreak [] s s.enc.taunt stopped where
  returns _ := by
    show (Except.ok composureBreak, s) = (.ok (composureBreak.or none), s)
    rw [Option.or_none]
  raises h := absurd (fun _ hhit => nomatch hhit) h

/-- One debit, and then the others. -/
theorem pays_debit {m : Option String → BeatM ι (Option String)} (composureBreak : Option String)
    (hnone : edgeResolver name = none → stopped = s.enc.taunt)
    (hsome : ∀ ref composureBreak, edgeResolver name = some ref → Pays edgeResolver
      (m composureBreak) composureBreak rest ⟨s.enc, hurt s.cores ref amount⟩ taunt stopped) :
    Pays edgeResolver (debit edgeResolver amount composureBreak name >>= m) composureBreak
      ((name, amount) :: rest) s taunt stopped := by
  rcases hknown : edgeResolver name with _ | ref
  · -- nobody has that name
    have hexec : (debit edgeResolver amount composureBreak name).exec s
        = (.error (.noCore name), s) := by
      unfold debit
      rw [hknown]
      rfl
    refine ⟨fun h => ?_, fun _ => ⟨.noCore name, ?_⟩⟩
    · have hsome := h (name, amount) (.head _)
      rw [hknown] at hsome
      simp at hsome
    · rw [exec_bind, hexec, paid_cons_of_none edgeResolver _ hknown, hnone hknown]
      rfl
  · have hexec : (debit edgeResolver amount composureBreak name).exec s =
        (.ok (composureBreak.or
          (if (hurt s.cores ref amount ref).hp.current ≤ 0 then some name else none)),
          { s with cores := hurt s.cores ref amount }) := by
      unfold debit
      rw [hknown]
      rfl
    have hiff : Known edgeResolver ((name, amount) :: rest) ↔ Known edgeResolver rest := by
      unfold Known
      simp [hknown]
    have hhurt : ∀ l, hurtBy edgeResolver s.cores ((name, amount) :: l)
        = hurtBy edgeResolver (hurt s.cores ref amount) l := by
      intro l
      unfold hurtBy
      rw [List.foldl_cons, hknown]
    have hrest := hsome ref (composureBreak.or
      (if (hurt s.cores ref amount ref).hp.current ≤ 0 then some name else none)) hknown
    constructor
    · rw [hiff, exec_bind, hexec, hhurt, firstBroken_cons edgeResolver _ _ hknown,
        ← Option.or_assoc]
      exact hrest.returns
    · rw [hiff, exec_bind, hexec, paid_cons_of_some edgeResolver _ hknown, hhurt]
      exact hrest.raises

/-- **A debit that is spread** hits whom the taunt lets it, one after the other. -/
theorem pays_foldlM_spreadHit (live names : List String) (composureBreak : Option String)
    (s : BeatState ι) :
    Pays edgeResolver (names.foldlM (spreadHit edgeResolver live amount) composureBreak)
      composureBreak ((spreadNames live s.enc.taunt names).1.map (fun name => (name, amount))) s
      (spreadNames live s.enc.taunt names).2
      (stoppedTaunt edgeResolver live s.enc.taunt names) := by
  induction names generalizing composureBreak s with
  | nil => exact pays_pure composureBreak
  | cons name names ih =>
    rw [List.foldlM_cons, spreadNames, stoppedTaunt, List.map_cons]
    dsimp only
    generalize hredirect : redirect live s.enc.taunt name = redirected
    have hpays : Pays edgeResolver (debit edgeResolver amount composureBreak redirected.1 >>=
        names.foldlM (spreadHit edgeResolver live amount)) composureBreak
        ((redirected.1, amount) ::
          (spreadNames live redirected.2 names).1.map (fun name => (name, amount)))
        ⟨{ s.enc with taunt := redirected.2 }, s.cores⟩
        (spreadNames live redirected.2 names).2 (match edgeResolver redirected.1 with
          | none => redirected.2
          | some _ => stoppedTaunt edgeResolver live redirected.2 names) :=
      pays_debit composureBreak (fun hnone => by rw [hnone]) (fun ref composureBreak hsome => by
        rw [hsome]
        exact ih composureBreak ⟨{ s.enc with taunt := redirected.2 }, hurt s.cores ref amount⟩)
    have hexec : (spreadHit edgeResolver live amount composureBreak name >>=
        names.foldlM (spreadHit edgeResolver live amount)).exec s =
        (debit edgeResolver amount composureBreak redirected.1 >>=
          names.foldlM (spreadHit edgeResolver live amount)).exec
          ⟨{ s.enc with taunt := redirected.2 }, s.cores⟩ := by
      rw [← hredirect]
      rfl
    exact ⟨fun h => hexec.trans (hpays.returns h), fun h => hexec ▸ hpays.raises h⟩

/-- **The debit of the other side**, if it is one. -/
theorem pays_targetDebits (actor : EncounterActor) (beat : BeatDef)
    (composureBreak : Option String) :
    Pays edgeResolver (if beat.targetEdgeDelta.getD 0 ≠ 0 then
        targetDebits edgeResolver actor beat (beat.targetEdgeDelta.getD 0) composureBreak
      else pure composureBreak) composureBreak (targetHits s.enc actor beat).1 s
      (targetHits s.enc actor beat).2 (targetTauntAtStop edgeResolver s.enc actor beat) := by
  unfold targetHits
  dsimp only
  by_cases hdelta : beat.targetEdgeDelta.getD 0 = 0
  · rw [if_neg (not_not.mpr hdelta), if_pos hdelta]
    exact pays_pure composureBreak
  rw [if_pos hdelta, if_neg hdelta]
  unfold targetTauntAtStop
  -- which debit it is is read off the encounter
  by_cases hspread : beat.targetSelect = some .spread
  · rw [if_pos hspread, if_pos hspread]
    set live := s.enc.oppositeSideLiveActors actor.side
    by_cases hshares : live ≠ [] ∧ 0 < beat.targetEdgeDelta.getD 0 / live.length
    · have hexec : (targetDebits edgeResolver actor beat (beat.targetEdgeDelta.getD 0)
          composureBreak).exec s = (live.foldlM (spreadHit edgeResolver live
            (beat.targetEdgeDelta.getD 0 / live.length)) composureBreak).exec s := by
        unfold targetDebits
        rw [exec_get_bind, if_pos hspread, if_pos hshares]
      rw [if_pos hshares]
      exact (pays_foldlM_spreadHit _ _ composureBreak s).of_exec hexec
    · have hexec : (targetDebits edgeResolver actor beat (beat.targetEdgeDelta.getD 0)
          composureBreak).exec s = (pure composureBreak : BeatM ι (Option String)).exec s := by
        unfold targetDebits
        rw [exec_get_bind, if_pos hspread, if_neg hshares]
      rw [if_neg hshares]
      exact (pays_pure composureBreak).of_exec hexec
  · rw [if_neg hspread, if_neg hspread]
    cases hfirst : s.enc.oppositeSideFirstActor actor.side with
    | none =>
      have hexec : (targetDebits edgeResolver actor beat (beat.targetEdgeDelta.getD 0)
          composureBreak).exec s = (pure composureBreak : BeatM ι (Option String)).exec s := by
        unfold targetDebits
        rw [exec_get_bind, if_neg hspread, hfirst]
      exact (pays_pure composureBreak).of_exec hexec
    | some name =>
      have hexec : (targetDebits edgeResolver actor beat (beat.targetEdgeDelta.getD 0)
          composureBreak).exec s = (debit edgeResolver (beat.targetEdgeDelta.getD 0) composureBreak
            name >>= pure).exec s := by
        unfold targetDebits
        rw [exec_get_bind, if_neg hspread, hfirst, bind_pure]
      refine Pays.of_exec hexec ?_
      exact pays_debit composureBreak (fun _ => rfl) (fun _ composureBreak _ => pays_pure composureBreak)

end Debits

/-- The resolver, which knows nobody where there is none. -/
def names (edgeResolver : Option (EdgeResolver ι)) : EdgeResolver ι :=
  fun name => edgeResolver.bind (fun edgeResolver => edgeResolver name)

/-- There is nothing to debit, or a resolver that knows everybody who is hit. -/
def DebitsKnown (edgeResolver : Option (EdgeResolver ι)) (enc : StructuredEncounter)
    (actor : EncounterActor) (beat : BeatDef) : Prop :=
  (beat.edgeDelta.getD 0 = 0 ∧ beat.targetEdgeDelta.getD 0 = 0) ∨
    (edgeResolver.isSome = true ∧ Known (names edgeResolver) (hits enc actor beat))

/-- The taunt when the debits of a beat stop. The actor's own comes first. -/
def tauntAtStop (edgeResolver : Option (EdgeResolver ι)) (enc : StructuredEncounter)
    (actor : EncounterActor) (beat : BeatDef) : TauntState :=
  if edgeResolver.isSome = true ∧
      (beat.edgeDelta.getD 0 = 0 ∨ (names edgeResolver actor.name).isSome = true) then
    targetTauntAtStop (names edgeResolver) enc actor beat
  else enc.taunt

omit [DecidableEq ι] in
theorem tauntAtStop_of_known {edgeResolver : EdgeResolver ι} {actor : EncounterActor}
    {beat : BeatDef} (h : beat.edgeDelta.getD 0 = 0 ∨ (edgeResolver actor.name).isSome = true)
    (enc : StructuredEncounter) : tauntAtStop (some edgeResolver) enc actor beat
      = targetTauntAtStop edgeResolver enc actor beat := by
  unfold tauntAtStop
  rw [if_pos ⟨rfl, h⟩]
  rfl

/-- **The debits** of a beat: they are all paid, or those before the one that raises. -/
theorem exec_edgeDebits (edgeResolver : Option (EdgeResolver ι)) (actor : EncounterActor)
    (beat : BeatDef) (s : BeatState ι) :
    (DebitsKnown edgeResolver s.enc actor beat → (edgeDebits edgeResolver actor beat).exec s =
      (.ok (firstBroken (names edgeResolver) s.cores (hits s.enc actor beat)),
        ⟨{ s.enc with taunt := (targetHits s.enc actor beat).2 },
          hurtBy (names edgeResolver) s.cores (hits s.enc actor beat)⟩)) ∧
    (¬ DebitsKnown edgeResolver s.enc actor beat →
      ∃ e, (edgeDebits edgeResolver actor beat).exec s =
        (.error e, ⟨{ s.enc with taunt := tauntAtStop edgeResolver s.enc actor beat },
          hurtBy (names edgeResolver) s.cores
            (paid (names edgeResolver) (hits s.enc actor beat))⟩)) := by
  by_cases hzero : beat.edgeDelta.getD 0 = 0 ∧ beat.targetEdgeDelta.getD 0 = 0
  · -- nothing to debit
    refine ⟨fun _ => ?_, fun h => absurd (.inl hzero) h⟩
    unfold edgeDebits hits targetHits
    rw [if_pos hzero, if_pos hzero.1, if_pos hzero.2]
    rfl
  have hiff : DebitsKnown edgeResolver s.enc actor beat ↔
      edgeResolver.isSome = true ∧ Known (names edgeResolver) (hits s.enc actor beat) := by
    unfold DebitsKnown
    simp only [hzero, false_or]
  rw [hiff]
  rcases edgeResolver with _ | edgeResolver
  · refine ⟨fun h => absurd h.1 (by simp), fun _ => ⟨.noEdgeResolver beat.id, ?_⟩⟩
    have hpaid : paid (names (none : Option (EdgeResolver ι))) (hits s.enc actor beat) = [] := by
      unfold paid
      rw [List.takeWhile_eq_nil_iff]
      exact fun _ => Bool.false_ne_true
    rw [hpaid]
    unfold edgeDebits tauntAtStop
    rw [if_neg hzero, if_neg (by simp)]
    rfl
  · have hnames : names (some edgeResolver) = edgeResolver := rfl
    have hresolver : (some edgeResolver).isSome = true := rfl
    simp only [hnames, hresolver, true_and]
    unfold edgeDebits
    dsimp only
    rw [if_neg hzero]
    suffices h : Pays edgeResolver _ none (hits s.enc actor beat) s _ _ from ⟨h.returns, h.raises⟩
    by_cases hself : beat.edgeDelta.getD 0 = 0
    · rw [hits, if_pos hself, List.nil_append, if_neg (not_not.mpr hself),
        tauntAtStop_of_known (.inl hself), pure_bind]
      exact pays_targetDebits actor beat none
    · rw [hits, if_neg hself, List.singleton_append, if_pos hself]
      refine pays_debit none (fun hnone => ?_) (fun ref composureBreak hsome => ?_)
      · -- the actor itself has no creature
        refine if_neg (fun h => h.2.elim hself (fun hsome => ?_))
        rw [hnames, hnone] at hsome
        simp at hsome
      · rw [tauntAtStop_of_known (.inr (Option.isSome_of_eq_some hsome))]
        have hrest : Pays edgeResolver _ composureBreak _
          ⟨s.enc, hurt s.cores ref (beat.edgeDelta.getD 0)⟩ _ _ :=
          pays_targetDebits actor beat composureBreak
        exact hrest

/-! ### Strikes and tags -/

/-- The creature a strike is for, if it is known. -/
def strikeRef (edgeResolver : Option (EdgeResolver ι)) (enc : StructuredEncounter)
    (actor : EncounterActor) : Option ι :=
  (enc.oppositeSideFirstActor actor.side).bind (names edgeResolver)

/-- The creatures after the strike. -/
def struck (edgeResolver : Option (EdgeResolver ι)) (damageResolver : Option Int)
    (enc : StructuredEncounter) (actor : EncounterActor) (beat : BeatDef)
    (cores : ι → CreatureCore) : ι → CreatureCore :=
  match damageResolver, strikeRef edgeResolver enc actor with
  | some damageTotal, some ref =>
    let applied := mitigated damageTotal (mitigationOf beat (cores ref))
    if beat.damageChannel = .strike ∧ applied ≠ 0 then hurt cores ref applied else cores
  | _, _ => cores

/-- **The strike** never raises. -/
theorem exec_strikeChannel (edgeResolver : Option (EdgeResolver ι)) (damageResolver : Option Int)
    (actor : EncounterActor) (beat : BeatDef) (s : BeatState ι) :
    ∃ hpRemoved, (strikeChannel edgeResolver damageResolver actor beat).exec s = (.ok hpRemoved,
        ⟨s.enc, struck edgeResolver damageResolver s.enc actor beat s.cores⟩) := by
  unfold strikeChannel struck strikeRef
  rw [exec_get_bind]
  cases damageResolver with
  | none => exact ⟨0, rfl⟩
  | some damageTotal =>
    cases edgeResolver with
    | none =>
      cases s.enc.oppositeSideFirstActor actor.side with
      | none => exact ⟨0, rfl⟩
      | some name => exact ⟨0, rfl⟩
    | some edgeResolver =>
      cases s.enc.oppositeSideFirstActor actor.side with
      | none => exact ⟨0, rfl⟩
      | some name =>
        dsimp only [Option.bind_some, names]
        cases edgeResolver name with
        | none => exact ⟨0, rfl⟩
        | some ref =>
          dsimp only
          split
          · exact ⟨_, rfl⟩
          · exact ⟨0, rfl⟩

/-- The tags of a beat can be made: a backfire has a text, and leverage is not negative. -/
def TagsGiven (beat : BeatDef) (deltas : ResolvedDeltas) : Prop :=
  if deltas.tagBackfire then beat.targetTag ≠ none
  else (present deltas.grantsTag).isSome = true → 0 ≤ deltas.tagLeverage

theorem exists_of_present {text : Option String} (h : (present text).isSome = true) :
    ∃ t, text = some t := by
  unfold present at h
  cases text with
  | none => simp at h
  | some t => exact ⟨t, rfl⟩

/-- A beat adds a tag. -/
def GivesTag (deltas : ResolvedDeltas) : Prop :=
  deltas.tagBackfire = true ∨ (present deltas.grantsTag).isSome = true ∨
    (present deltas.grantsFleetingTag).isSome = true

section Tags

variable (actor : EncounterActor) (beat : BeatDef) (turn : Int) (deltas : ResolvedDeltas)

omit [DecidableEq ι] in
/-- A tag that can be made is added to the others. -/
theorem exists_exec_appendTag (text : String) {leverage : Int} (hleverage : 0 ≤ leverage)
    (fleeting : Bool) (s : BeatState ι) :
    ∃ tag, (appendTag actor turn (some text) leverage fleeting).exec s
      = (.ok ⟨⟩, ⟨{ s.enc with tags := s.enc.tags ++ [tag] }, s.cores⟩) := by
  unfold appendTag
  dsimp only
  rw [if_neg (not_lt.mpr hleverage)]
  exact ⟨_, rfl⟩

omit [DecidableEq ι] in
theorem exists_exec_fleetingTag (s : BeatState ι) :
    ∃ new, (if (present deltas.grantsFleetingTag).isSome = true ∧ deltas.tagBackfire = false then
        appendTag actor turn deltas.grantsFleetingTag 1 true else pure ⟨⟩ : BeatM ι PUnit).exec s
          = (.ok ⟨⟩, ⟨{ s.enc with tags := s.enc.tags ++ new }, s.cores⟩) ∧
      (new = [] ↔ ¬ ((present deltas.grantsFleetingTag).isSome = true ∧
        deltas.tagBackfire = false)) := by
  by_cases hfleeting : (present deltas.grantsFleetingTag).isSome = true ∧ deltas.tagBackfire = false
  · obtain ⟨text, htext⟩ := exists_of_present hfleeting.1
    obtain ⟨tag, hexec⟩ := exists_exec_appendTag actor turn text (by decide : (0 : Int) ≤ 1) true s
    refine ⟨[tag], ?_, iff_of_false (List.cons_ne_nil tag []) (not_not.mpr hfleeting)⟩
    rw [if_pos hfleeting, htext]
    exact hexec
  · refine ⟨[], ?_, iff_of_true rfl hfleeting⟩
    rw [if_neg hfleeting, List.append_nil]
    rfl

omit [DecidableEq ι] in
/-- **The tags** of a beat, where they can be made, are added to the others. -/
theorem exec_grantTags_of_given (h : TagsGiven beat deltas) (s : BeatState ι) :
    ∃ new, (grantTags actor beat turn deltas).exec s
        = (.ok ⟨⟩, ⟨{ s.enc with tags := s.enc.tags ++ new }, s.cores⟩) ∧
      (new = [] ↔ ¬ GivesTag deltas) := by
  unfold grantTags
  unfold TagsGiven at h
  by_cases hbackfire : deltas.tagBackfire = true
  · -- a backfire is the only tag
    rw [if_pos hbackfire] at h ⊢
    obtain ⟨text, htext⟩ := Option.ne_none_iff_exists'.mp h
    obtain ⟨tag, hexec⟩ := exists_exec_appendTag actor turn text (by decide : (0 : Int) ≤ 1) true s
    refine ⟨[tag], ?_, iff_of_false (List.cons_ne_nil tag []) (not_not.mpr (.inl hbackfire))⟩
    rw [htext, exec_bind, hexec, if_neg (by rw [hbackfire]; simp)]
    rfl
  · rw [if_neg hbackfire] at h ⊢
    have hno : deltas.tagBackfire = false := Bool.not_eq_true _ |>.mp hbackfire
    by_cases hgrants : (present deltas.grantsTag).isSome = true
    · obtain ⟨text, htext⟩ := exists_of_present hgrants
      have hleverage : 0 ≤ if deltas.tagLeverage = 0 then 1 else deltas.tagLeverage := by
        have hgiven := h hgrants
        split <;> omega
      obtain ⟨tag, hexec⟩ := exists_exec_appendTag actor turn text hleverage false s
      obtain ⟨new, hexec', -⟩ := exists_exec_fleetingTag actor turn deltas
        ⟨{ s.enc with tags := s.enc.tags ++ [tag] }, s.cores⟩
      refine ⟨tag :: new, ?_,
        iff_of_false (List.cons_ne_nil tag new) (not_not.mpr (.inr (.inl hgrants)))⟩
      rw [if_pos hgrants, htext, exec_bind, hexec]
      dsimp only
      rw [hexec']
      rw [List.append_assoc]
      rfl
    · obtain ⟨new, hexec, hnew⟩ := exists_exec_fleetingTag actor turn deltas s
      refine ⟨new, ?_, hnew.trans (not_congr ?_)⟩
      · rw [if_neg hgrants]
        exact hexec
      · unfold GivesTag
        simp [hno, hgrants]

omit [DecidableEq ι] in
/-- Tags of which one cannot be made: it is the first, and nothing has been added. -/
theorem exec_grantTags_of_not_given (h : ¬ TagsGiven beat deltas) (s : BeatState ι) :
    ∃ e, (grantTags actor beat turn deltas).exec s = (.error e, s) := by
  refine ⟨.badTag, ?_⟩
  unfold grantTags
  unfold TagsGiven at h
  by_cases hbackfire : deltas.tagBackfire = true
  · rw [if_pos hbackfire] at h ⊢
    rw [not_not.mp h]
    rfl
  · rw [if_neg hbackfire] at h ⊢
    obtain ⟨hgrants, hnegative⟩ := Classical.not_imp.mp h
    obtain ⟨text, htext⟩ := exists_of_present hgrants
    have hraised : (appendTag actor turn (some text)
        (if deltas.tagLeverage = 0 then 1 else deltas.tagLeverage) false : BeatM ι PUnit).exec s
          = (.error .badTag, s) := by
      unfold appendTag
      dsimp only
      rw [if_neg (not_le.mp hnegative).ne, if_pos (not_le.mp hnegative)]
      rfl
    rw [if_pos hgrants, htext, exec_bind, hraised]

end Tags

/-! ### Beats -/

/-- The seats, the dials and the end of an encounter, and whoever taunts, are what they were. -/
structure SameFight (enc enc' : StructuredEncounter) : Prop where
  actors : enc'.actors = enc.actors
  winCondition : enc'.winCondition = enc.winCondition
  playerMetric : enc'.playerMetric = enc.playerMetric
  opponentMetric : enc'.opponentMetric = enc.opponentMetric
  resolved : enc'.resolved = enc.resolved

theorem activeActor_redirect (live : List String) (taunt : TauntState) (name : String) :
    (redirect live taunt name).2.activeActor = taunt.activeActor := by
  have hconsumed : taunt.tryConsumeRedirect.2.activeActor = taunt.activeActor := by
    unfold TauntState.tryConsumeRedirect
    split
    · rfl
    · split <;> rfl
  unfold redirect
  split
  · rfl
  · split
    · exact hconsumed
    · rfl

theorem activeActor_spreadNames (live : List String) (taunt : TauntState) (l : List String) :
    (spreadNames live taunt l).2.activeActor = taunt.activeActor := by
  induction l generalizing taunt with
  | nil => rfl
  | cons name l ih => exact (ih _).trans (activeActor_redirect live taunt name)

/-- Redirects do not change who taunts. -/
theorem activeActor_targetHits (enc : StructuredEncounter) (actor : EncounterActor)
    (beat : BeatDef) : (targetHits enc actor beat).2.activeActor = enc.taunt.activeActor := by
  unfold targetHits
  dsimp only
  split
  · rfl
  · split
    · split
      · exact activeActor_spreadNames _ _ _
      · rfl
    · rfl

variable {enc enc' : StructuredEncounter}

/-- The primary target depends on the seats and on who taunts. -/
theorem oppositeSideFirstActor_congr (hactors : enc'.actors = enc.actors)
    (htaunt : enc'.taunt.activeActor = enc.taunt.activeActor) (side : Fate.ActorSide) :
    enc'.oppositeSideFirstActor side = enc.oppositeSideFirstActor side := by
  unfold StructuredEncounter.oppositeSideFirstActor StructuredEncounter.oppositeSideLiveActors
  rw [hactors, htaunt]

/-- What a beat debits depends on the seats and on the taunt. -/
theorem targetHits_congr (hactors : enc'.actors = enc.actors) (htaunt : enc'.taunt = enc.taunt)
    (actor : EncounterActor) (beat : BeatDef) :
    targetHits enc' actor beat = targetHits enc actor beat := by
  unfold targetHits
  rw [oppositeSideFirstActor_congr hactors (congrArg TauntState.activeActor htaunt)]
  unfold StructuredEncounter.oppositeSideLiveActors
  rw [hactors, htaunt]

/-- What a beat debits depends on the seats and on the taunt. -/
theorem hits_congr (hactors : enc'.actors = enc.actors) (htaunt : enc'.taunt = enc.taunt)
    (actor : EncounterActor) (beat : BeatDef) : hits enc' actor beat = hits enc actor beat := by
  unfold hits
  rw [targetHits_congr hactors htaunt]

omit [DecidableEq ι] in
theorem tauntAtStop_congr (hactors : enc'.actors = enc.actors) (htaunt : enc'.taunt = enc.taunt)
    (edgeResolver : Option (EdgeResolver ι)) (actor : EncounterActor) (beat : BeatDef) :
    tauntAtStop edgeResolver enc' actor beat = tauntAtStop edgeResolver enc actor beat := by
  unfold tauntAtStop targetTauntAtStop StructuredEncounter.oppositeSideLiveActors
  rw [hactors, htaunt]

omit [DecidableEq ι] in
/-- How an encounter ends depends on its seats, its dials and the creatures. -/
theorem ending_congr (h : SameFight enc enc') (edgeResolver : Option (EdgeResolver ι))
    (beat : BeatDef) (deltas : ResolvedDeltas) (composureBreak : Option String)
    (cores : ι → CreatureCore) : ending edgeResolver beat deltas composureBreak ⟨enc', cores⟩
      = ending edgeResolver beat deltas composureBreak ⟨enc, cores⟩ := by
  unfold ending depletion
  rw [h.actors, h.winCondition, h.playerMetric, h.opponentMetric, h.resolved]

/-- The dials of a beat move, and nothing else of the fight does. -/
theorem moveDials_frame (side : Fate.ActorSide) (deltas : ResolvedDeltas)
    (enc : StructuredEncounter) : (moveDials side deltas enc).actors = enc.actors ∧
      (moveDials side deltas enc).winCondition = enc.winCondition ∧
      (moveDials side deltas enc).taunt = enc.taunt ∧
      (moveDials side deltas enc).resolved = enc.resolved := by
  unfold moveDials
  split
  · exact ⟨rfl, rfl, rfl, rfl⟩
  · split
    · exact ⟨rfl, rfl, rfl, rfl⟩
    · exact ⟨rfl, rfl, rfl, rfl⟩

omit [DecidableEq ι] in
theorem exec_modifyEnc_bind {α : Type} (f : StructuredEncounter → StructuredEncounter)
    (g : PUnit → BeatM ι α) (s : BeatState ι) :
    (modifyEnc f >>= g).exec s = (g ⟨⟩).exec ⟨f s.enc, s.cores⟩ := rfl

/-- Stamping a readout and moving the dials do not interfere. -/
theorem moveDials_stampImpact (side : Fate.ActorSide) (deltas : ResolvedDeltas)
    (impact : BeatImpact) (enc : StructuredEncounter) :
    moveDials side deltas (stampImpact side impact enc)
      = stampImpact side impact (moveDials side deltas enc) := by
  unfold moveDials stampImpact
  split
  · rfl
  · split <;> rfl

/-- The encounter with the readout of a beat, and with its dials moved. -/
def marked (actor : EncounterActor) (deltas : ResolvedDeltas) (enc : StructuredEncounter) :
    StructuredEncounter :=
  moveDials actor.side deltas (stampImpact actor.side
    (describeBeatImpact deltas (decide (enc.winCondition = .hpDepletion)) 0) enc)

theorem frame_marked (actor : EncounterActor) (deltas : ResolvedDeltas)
    (enc : StructuredEncounter) :
    (marked actor deltas enc).actors = enc.actors ∧ (marked actor deltas enc).taunt = enc.taunt ∧
      (marked actor deltas enc).tags = enc.tags := by
  unfold marked moveDials stampImpact
  split
  · exact ⟨rfl, rfl, rfl⟩
  · split <;> exact ⟨rfl, rfl, rfl⟩

theorem marked_eq (actor : EncounterActor) (deltas : ResolvedDeltas) (enc : StructuredEncounter) :
    marked actor deltas enc = stampImpact actor.side (describeBeatImpact deltas
      (decide (enc.winCondition = .hpDepletion)) 0) (moveDials actor.side deltas enc) :=
  moveDials_stampImpact _ _ _ _

section Beats

variable (edgeResolver : Option (EdgeResolver ι)) (damageResolver : Option Int) (turn : Int)
  (actor : EncounterActor) (beat : BeatDef) (outcome : RollOutcome)

/-- The creatures after the debits and the strike of a beat. -/
def wounded (s : BeatState ι) : ι → CreatureCore :=
  struck edgeResolver damageResolver s.enc actor beat
    (hurtBy (names edgeResolver) s.cores (hits s.enc actor beat))

/-- Whose composure a beat breaks first, if anybody's. -/
def breaks (s : BeatState ι) : Option String :=
  firstBroken (names edgeResolver) s.cores (hits s.enc actor beat)

/-- A beat that is not skipped goes through with these deltas: its tags can be made, and its debits
    are known. -/
structure Proceeds (s : BeatState ι) (deltas : ResolvedDeltas) : Prop where
  tier : resolveTierDeltas beat.kind beat.base outcome beat.deltas beat.targetTag = .ok deltas
  tags : TagsGiven beat deltas
  debits : DebitsKnown edgeResolver s.enc actor beat

variable {s : BeatState ι}

theorem exec_applyBeat_of_skipped {reason : String} (hskip : skipReason s.enc actor = some reason) :
    (applyBeat edgeResolver damageResolver turn actor beat outcome).exec s
      = (.ok { skippedReason := some reason }, s) := by
  unfold applyBeat
  rw [exec_get_bind, hskip]
  rfl

theorem exec_applyBeat_of_refused {e : BeatError} (hskip : skipReason s.enc actor = none)
    (htier : resolveTierDeltas beat.kind beat.base outcome beat.deltas beat.targetTag = .error e) :
    (applyBeat edgeResolver damageResolver turn actor beat outcome).exec s = (.error e, s) := by
  unfold applyBeat
  rw [exec_get_bind, hskip]
  rw [htier]
  rfl

theorem exec_applyBeat_of_tier {deltas : ResolvedDeltas} (hskip : skipReason s.enc actor = none)
    (htier : resolveTierDeltas beat.kind beat.base outcome beat.deltas beat.targetTag
      = .ok deltas) :
    (applyBeat edgeResolver damageResolver turn actor beat outcome).exec s = (do
      grantTags actor beat turn deltas
      let composureBreak ← edgeDebits edgeResolver actor beat
      let hpRemoved ← strikeChannel edgeResolver damageResolver actor beat
      modifyEnc (stampHpRemoved actor.side deltas hpRemoved)
      let resolved ← finishBeat edgeResolver actor beat outcome deltas composureBreak
      pure {
        deltas := some deltas, resolved := resolved, hpRemoved := hpRemoved,
        impact := some (describeBeatImpact deltas (decide (s.enc.winCondition = .hpDepletion)) 0) }
      : BeatM ι ApplyResult).exec ⟨marked actor deltas s.enc, s.cores⟩ := by
  unfold applyBeat
  rw [exec_get_bind, hskip]
  rw [htier, exec_ofExcept_ok_bind, exec_modifyEnc_bind, exec_modifyEnc_bind]
  rfl

variable {edgeResolver damageResolver turn actor beat outcome}

theorem SameFight.stampHpRemoved (h : SameFight enc enc') (side : Fate.ActorSide)
    (deltas : ResolvedDeltas) (hpRemoved : Int) :
    SameFight enc (stampHpRemoved side deltas hpRemoved enc') := by
  unfold Beat.stampHpRemoved
  split
  · exact ⟨h.actors, h.winCondition, h.playerMetric, h.opponentMetric, h.resolved⟩
  · exact h

theorem SameFight.taunted (h : SameFight enc enc') (actor : EncounterActor) (beat : BeatDef)
    (outcome : RollOutcome) : SameFight enc (taunted actor beat outcome (countBeat enc')) := by
  unfold Beat.taunted
  split
  · exact ⟨h.actors, h.winCondition, h.playerMetric, h.opponentMetric, h.resolved⟩
  · exact ⟨h.actors, h.winCondition, h.playerMetric, h.opponentMetric, h.resolved⟩

omit [DecidableEq ι] in
theorem exec_finishBeat (h : SameFight enc s.enc) (deltas : ResolvedDeltas)
    (composureBreak : Option String) :
    (finishBeat edgeResolver actor beat outcome deltas composureBreak).exec s =
      (.ok (ending edgeResolver beat deltas composureBreak ⟨enc, s.cores⟩).isSome,
        ⟨resolved? (ending edgeResolver beat deltas composureBreak ⟨enc, s.cores⟩)
          (taunted actor beat outcome (countBeat s.enc)), s.cores⟩) := by
  unfold finishBeat
  rw [exec_modifyEnc_bind, exec_get_bind, exec_modifyEnc_bind]
  rw [ending_congr (h.taunted actor beat outcome)]
  rfl

/-- **A beat that goes through** ends the encounter by what its dials and the creatures are then. -/
theorem exec_applyBeat_of_proceeds {deltas : ResolvedDeltas} (hskip : skipReason s.enc actor = none)
    (h : Proceeds edgeResolver actor beat outcome s deltas) :
    ∃ r enc', (applyBeat edgeResolver damageResolver turn actor beat outcome).exec s =
        (.ok r, ⟨resolved? (ending edgeResolver beat deltas (breaks edgeResolver actor beat s)
          ⟨moveDials actor.side deltas s.enc,
            wounded edgeResolver damageResolver actor beat s⟩) enc',
          wounded edgeResolver damageResolver actor beat s⟩) ∧
      r.resolved = (ending edgeResolver beat deltas (breaks edgeResolver actor beat s)
        ⟨moveDials actor.side deltas s.enc,
          wounded edgeResolver damageResolver actor beat s⟩).isSome ∧
      SameFight (moveDials actor.side deltas s.enc) enc' := by
  obtain ⟨hactors, -, htaunt, -⟩ := moveDials_frame actor.side deltas s.enc
  rw [exec_applyBeat_of_tier _ _ _ _ _ _ hskip h.tier, marked_eq]
  generalize describeBeatImpact deltas (decide (s.enc.winCondition = .hpDepletion)) 0 = impact
  -- the tags
  obtain ⟨tagged, hsame, htaunt, htags⟩ : ∃ tagged, SameFight (moveDials actor.side deltas s.enc)
      tagged ∧ tagged.taunt = s.enc.taunt ∧ (grantTags actor beat turn deltas).exec
        ⟨stampImpact actor.side impact (moveDials actor.side deltas s.enc), s.cores⟩
          = (.ok ⟨⟩, ⟨tagged, s.cores⟩) := by
    obtain ⟨new, hexec, -⟩ := exec_grantTags_of_given actor beat turn deltas h.tags
      ⟨stampImpact actor.side impact (moveDials actor.side deltas s.enc), s.cores⟩
    refine ⟨_, ?_, ?_, hexec⟩
    · exact ⟨rfl, rfl, rfl, rfl, rfl⟩
    · exact htaunt
  rw [exec_bind, htags]
  dsimp only
  -- the debits, which are those of the encounter as it was
  obtain ⟨debited, hsame', htaunter, hdebits⟩ : ∃ debited,
      SameFight (moveDials actor.side deltas s.enc) debited ∧
      debited.taunt.activeActor = s.enc.taunt.activeActor ∧
      (edgeDebits edgeResolver actor beat).exec ⟨tagged, s.cores⟩ =
        (.ok (breaks edgeResolver actor beat s),
          ⟨debited, hurtBy (names edgeResolver) s.cores (hits s.enc actor beat)⟩) := by
    have hhits := hits_congr (hsame.actors.trans hactors) htaunt actor beat
    have hknown : DebitsKnown edgeResolver tagged actor beat := by
      unfold DebitsKnown
      rw [hhits]
      exact h.debits
    have hexec := (exec_edgeDebits edgeResolver actor beat ⟨tagged, s.cores⟩).1 hknown
    rw [hhits] at hexec
    refine ⟨_, ?_, ?_, hexec⟩
    · exact ⟨hsame.actors, hsame.winCondition, hsame.playerMetric, hsame.opponentMetric,
        hsame.resolved⟩
    · exact (activeActor_targetHits tagged actor beat).trans (congrArg TauntState.activeActor htaunt)
  rw [exec_bind, hdebits]
  dsimp only
  -- the strike, whose target has not changed
  obtain ⟨hpRemoved, hstrike⟩ : ∃ hpRemoved,
      (strikeChannel edgeResolver damageResolver actor beat).exec
        ⟨debited, hurtBy (names edgeResolver) s.cores (hits s.enc actor beat)⟩ =
        (.ok hpRemoved, ⟨debited, wounded edgeResolver damageResolver actor beat s⟩) := by
    obtain ⟨hpRemoved, hexec⟩ := exec_strikeChannel edgeResolver damageResolver actor beat
      ⟨debited, hurtBy (names edgeResolver) s.cores (hits s.enc actor beat)⟩
    refine ⟨hpRemoved, hexec.trans ?_⟩
    unfold wounded struck strikeRef
    rw [oppositeSideFirstActor_congr (hsame'.actors.trans hactors) htaunter]
  rw [exec_bind, hstrike]
  dsimp only
  rw [exec_modifyEnc_bind]
  have hstamped := hsame'.stampHpRemoved actor.side deltas hpRemoved
  rw [exec_bind, exec_finishBeat hstamped]
  exact ⟨_, _, rfl, rfl, hstamped.taunted actor beat outcome⟩

/-- **A beat that returns** was skipped, or went through. -/
theorem proceeds_of_exec {s' : BeatState ι} {r : ApplyResult}
    (hskip : skipReason s.enc actor = none)
    (h : (applyBeat edgeResolver damageResolver turn actor beat outcome).exec s = (.ok r, s')) :
    ∃ deltas, Proceeds edgeResolver actor beat outcome s deltas := by
  rcases htier : resolveTierDeltas beat.kind beat.base outcome beat.deltas beat.targetTag
    with e | deltas
  · rw [exec_applyBeat_of_refused _ _ _ _ _ _ hskip htier] at h
    simp at h
  rw [exec_applyBeat_of_tier _ _ _ _ _ _ hskip htier] at h
  obtain ⟨hactors, htaunt, -⟩ := frame_marked actor deltas s.enc
  obtain ⟨u, tagged, htags, h⟩ := exists_of_exec_bind h
  have hgiven : TagsGiven beat deltas := by
    by_contra hnot
    obtain ⟨e, herror⟩ := exec_grantTags_of_not_given actor beat turn deltas hnot _
    rw [herror] at htags
    simp at htags
  have htagged : tagged.enc.actors = s.enc.actors ∧ tagged.enc.taunt = s.enc.taunt := by
    obtain ⟨new, hexec, -⟩ := exec_grantTags_of_given actor beat turn deltas hgiven _
    rw [hexec] at htags
    cases htags
    exact ⟨hactors, htaunt⟩
  obtain ⟨composureBreak, debited, hdebits, -⟩ := exists_of_exec_bind h
  refine ⟨deltas, htier, hgiven, ?_⟩
  by_contra hnot
  have hunknown : ¬ DebitsKnown edgeResolver tagged.enc actor beat := by
    unfold DebitsKnown
    rw [hits_congr htagged.1 htagged.2]
    exact hnot
  obtain ⟨e, herror⟩ := (exec_edgeDebits edgeResolver actor beat tagged).2 hunknown
  rw [herror] at hdebits
  simp at hdebits

end Beats

end Sidequest.Beat
