import Sidequest.Combat.Barrier

namespace Sidequest.Combat

open Lib Effect
open Fate (ActorSide Cast CoreRef EncounterActor)

/-!
# A round that raises

The ledger is emptied after the last slot, and what the slots before a raise did stays done.

* `Content` — the demands on the content;
* `Untouched`, `Recovers` — what a raise has to leave behind for the fight to go on;
* `takeSlot_ok_iff` — on complete content a slot returns exactly if its commit can be carried out;
* `recovers_iff` — a round recovers from no raise, and raises exactly at a commit that cannot be
  carried out.
-/

section

/-! ### The demands -/

/-- A save the rules may call for: the one against a Major Injury, and those of the spells. -/
def Rules.CallsFor (rules : Rules) (save : String) : Prop :=
  save = rules.majorInjurySave ∨ ∃ catalog spellId spell, rules.spellCatalog = some catalog ∧
    catalog spellId = some spell ∧ spell.save = some save

/-- A stat block has what the saves go by. -/
def Rules.Saves (rules : Rules) (stats : List (String × Int)) : Prop :=
  ∀ save, rules.CallsFor save → ∀ level, ∃ params, rules.saveParams stats save level = .ok params

/-- The die of a spell is dice that a caster of the level can roll. -/
def Spell.Rolls (spell : Spell) (level : Int) : Prop :=
  ∀ die, spell.damageDie = some die → ∃ count faces spec, die = .dice count faces ∧
    damageDice (if spell.damagePerLevel then level else count) faces = .ok spec

/-- The creature behind the name can cast, and it can roll the dice of the catalog's spells. -/
def GameSnapshot.Casts (s : GameSnapshot) (rules : Rules) (name : String) : Prop :=
  ∀ ref, s.cast.findCreatureCore name = some ref → (s.cores ref).spellcasting.isSome = true ∧
    ∀ catalog spellId spell, rules.spellCatalog = some catalog → catalog spellId = some spell →
      spell.Rolls (s.cores ref).level

/-- The Trauma Die, if there is one, can be rolled. -/
def DamageSpec.Throws (spec : DamageSpec) : Prop :=
  ∀ count faces, spec.traumaDie = some (count, faces) → ∃ die, damageDice count faces = .ok die

/-- A weapon of the fight: of a beat, carried, of the catalog, or the pack's bare hands. -/
def Rules.Wields (rules : Rules) (s : GameSnapshot) (spec : DamageSpec) : Prop :=
  (∃ beatId beat, rules.findBeat beatId = some beat ∧ beat.damageOverride = some spec) ∨
    (∃ ref, ∃ item ∈ (s.cores ref).items, item.damage = some spec) ∨
    (∃ id, rules.itemCatalog id = some spec) ∨ rules.unarmedDamage = some spec

/-- The stat blocks of the PCs and the scores of the opponents support every save and attack, Trauma
    Dice come with a config for them and can be rolled, who has sealed a cast can cast, and nobody's
    Armor Class is below 1. -/
structure Content (rules : Rules) (s : GameSnapshot) : Prop where
  lethal : rules.lethal = true
  pcs : ∀ i < s.cast.characters.length, rules.Saves (s.cores (.character i)).stats
  opponents : rules.opponentAbilityScores.getD [] ≠ [] ∧
    rules.Saves (rules.opponentAbilityScores.getD []) ∧
    ∃ modifier, statModifier (rules.opponentAbilityScores.getD []) rules.opponentBeat.statCheck =
      .ok modifier
  casters : ∀ commit ∈ s.encounter.wnCommits, rules.isWwnCast commit.beatId = true →
    s.Casts rules commit.actor
  weapons : ∀ spec, rules.Wields s spec → spec.Throws
  armor : ∀ name ref, s.cast.findCreatureCore name = some ref → 1 ≤ (s.cores ref).armorClass

/-- Any event. -/
def Anything : Event → Prop := fun _ => True

variable {s : GameSnapshot}

/-- What slots leave alone holds all of the content. -/
theorem Content.of_kept {rules : Rules} {s' : GameSnapshot} (hs : Content rules s)
    (hcast : s'.cast = s.cast) (hkept : ∀ ref, (s.cores ref).Kept (s'.cores ref))
    (hcommits : s'.encounter.wnCommits = s.encounter.wnCommits) : Content rules s' := by
  refine ⟨hs.lethal, fun i hi => ?_, hs.opponents, fun commit hcommit hcasts ref href => ?_,
    fun spec hspec => hs.weapons spec ?_, fun name ref href => ?_⟩
  · rw [hcast] at hi
    rw [(hkept _).stats]
    exact hs.pcs i hi
  · rw [hcommits] at hcommit
    rw [hcast] at href
    rw [(hkept ref).caster, (hkept ref).level]
    exact hs.casters commit hcommit hcasts ref href
  · rcases hspec with hbeat | ⟨ref, item, hitem, hdamage⟩ | hrest
    · exact .inl hbeat
    · exact .inr (.inl ⟨ref, item, (hkept ref).items hitem, hdamage⟩)
    · exact .inr (.inr hrest)
  · rw [hcast] at href
    rw [(hkept ref).armorClass]
    exact hs.armor name ref href

/-- Play within the sheets changes nothing of the content. -/
theorem Content.of_within {rules : Rules} {K : Event → Prop} {s' : GameSnapshot}
    (hs : Content rules s) (h : Within K s s') : Content rules s' :=
  hs.of_kept h.cast (fun ref => (h.sheets ref).kept) h.board.wnCommits

/-- Whatever a beat strikes with can be rolled. -/
theorem Content.throws_resolveDamage {rules : Rules} (hs : Content rules s) {beatId : String}
    {beat : BeatDef} (hbeat : rules.findBeat beatId = some beat) (name : String) :
    (rules.resolveDamage beat (s.findCreatureCore name)).Throws := by
  unfold Rules.resolveDamage
  cases hover : beat.damageOverride with
  | some spec => exact hs.weapons spec (.inl ⟨beatId, beat, hbeat, hover⟩)
  | none =>
    have hcarried : ∀ item ∈ ((s.findCreatureCore name).map CreatureCore.items).getD [],
        ∀ spec, item.damage = some spec → spec.Throws := by
      intro item hitem spec hdamage
      cases href : s.cast.findCreatureCore name with
      | none => simp [GameSnapshot.findCreatureCore, href] at hitem
      | some ref =>
        refine hs.weapons spec (.inr (.inl ⟨ref, item, ?_, hdamage⟩))
        simpa [GameSnapshot.findCreatureCore, href] using hitem
    intro count faces hdie
    dsimp only at hdie
    generalize ((s.findCreatureCore name).map CreatureCore.items).getD [] = items at hcarried hdie
    cases hitem : items.findSome? Item.damage with
    | some spec =>
      obtain ⟨item, hmem, hdamage⟩ := List.exists_of_findSome?_eq_some hitem
      rw [hitem] at hdie
      exact hcarried item hmem spec hdamage count faces hdie
    | none =>
      rw [hitem] at hdie
      cases hcatalog : items.findSome? (fun item => item.id.bind rules.itemCatalog) with
      | some spec =>
        obtain ⟨item, -, hfound⟩ := List.exists_of_findSome?_eq_some hcatalog
        obtain ⟨id, -, hspec⟩ := Option.bind_eq_some_iff.mp hfound
        rw [hcatalog] at hdie
        exact hs.weapons spec (.inr (.inr (.inl ⟨id, hspec⟩))) count faces hdie
      | none =>
        rw [hcatalog] at hdie
        cases hunarmed : rules.unarmedDamage with
        | some spec =>
          rw [hunarmed] at hdie
          exact hs.weapons spec (.inr (.inr (.inr hunarmed))) count faces hdie
        | none =>
          rw [hunarmed] at hdie
          cases hdie

/-! ### Operations that return -/

/-- An invariant of one cast that demands the content and that play within the sheets keeps. -/
structure Sustains (rules : Rules) (P : GameSnapshot → Prop) : Prop where
  cast : ∀ s t, P s → P t → t.cast = s.cast
  content : ∀ s, P s → Content rules s
  keeps : ∀ s s', P s → Within Anything s s' → P s'

variable {rules : Rules} {P : GameSnapshot → Prop} (h : Sustains rules P)

include h

theorem Sustains.modifies {f : GameSnapshot → GameSnapshot} (hf : ∀ s, Within Anything s (f s)) :
    Safe P (modify f : CombatM PUnit) := safe_modify (fun s hs => h.keeps s _ hs (hf s))

theorem Sustains.publishes (event : Event) : Safe P (modify (·.publish event) : CombatM PUnit) :=
  h.modifies (fun s => within_publish s trivial)

/-! #### Dice -/

theorem safe_rollDie (faces : Nat) : Safe P (rollDie faces) :=
  fun s hs => h.keeps s _ hs (OnlyDice.within ⟨_, rfl⟩)

theorem safe_generateServerFaces (spec : DamageSpec) : Safe P (generateServerFaces spec) :=
  safe_mapM (fun _ _ => safe_rollDie h _)

theorem safe_roll (spec : DamageSpec) : Safe P spec.roll :=
  (safe_generateServerFaces h spec).bind (fun _ => safe_pure _)

theorem safe_resolveTrauma (hlethal : rules.lethal = true) {spec : DamageSpec}
    (hspec : spec.Throws) (baseTotal : Int) : Safe P (rules.resolveTrauma spec baseTotal) := by
  unfold Rules.resolveTrauma
  split
  · exact safe_pure _
  · rename_i count faces hdie
    obtain ⟨die, hdice⟩ := hspec count faces hdie
    rw [if_pos hlethal]
    exact safe_ofExcept_bind ⟨die, hdice, (safe_roll h die).bind
      (fun _ => Safe.ite (fun _ => safe_pure _) (fun _ => safe_pure _))⟩

variable (name : String)

theorem safe_strikeDamage {beatId : String} {beat : BeatDef}
    (hbeat : rules.findBeat beatId = some beat) : Safe P (strikeDamage rules name beat) := by
  refine safe_get_bind (fun s hs => (safe_generateServerFaces h _).bind (fun faces => ?_))
  have hcontent := h.content s hs
  refine (safe_resolveTrauma h hcontent.lethal (hcontent.throws_resolveDamage hbeat name) _).bind
    (fun result => ?_)
  refine (h.modifies within_tagTraumaticHit).onlyIf.bind (fun _ => ?_)
  split
  · exact Safe.ite (fun _ => safe_pure _) (fun _ => safe_pure _)
  · exact safe_pure _

/-! #### Saves -/

theorem saves_of_findCreatureCore (hs : P s) {name : String} {ref : CoreRef}
    (href : s.cast.findCreatureCore name = some ref) (hpc : name ∈ s.cast.characters) :
    rules.Saves (s.cores ref).stats := by
  obtain ⟨i, hi⟩ : ∃ i, s.cast.characters.findIdx? (fun character => character = name) = some i := by
    cases hfind : s.cast.characters.findIdx? (fun character => character = name) with
    | some i => exact ⟨i, rfl⟩
    | none =>
      have hnone := List.findIdx?_eq_none_iff.mp hfind name hpc
      simp at hnone
  have hcharacter : ref = .character i := by
    unfold Cast.findCreatureCore at href
    rw [hi] at href
    exact (Option.some.inj href).symm
  obtain ⟨hlt, -⟩ := List.findIdx?_eq_some_iff_getElem.mp hi
  rw [hcharacter]
  exact (h.content s hs).pcs i hlt

/-- The save against a Major Injury has a number to reach. -/
theorem physicalSaveTargetFor_ok (hs : P s) {name : String} {ref : CoreRef}
    (href : s.cast.findCreatureCore name = some ref) :
    ∃ target, s.physicalSaveTargetFor rules name ref = .ok target := by
  have hcontent := h.content s hs
  have hsaves : rules.Saves (if name ∈ s.cast.characters then (s.cores ref).stats
      else rules.opponentAbilityScores.getD []) := by
    split_ifs with hpc
    · exact saves_of_findCreatureCore h hs href hpc
    · exact hcontent.opponents.2.1
  have hpresent : ¬ (name ∉ s.cast.characters ∧ (if name ∈ s.cast.characters then
      (s.cores ref).stats else rules.opponentAbilityScores.getD []) = []) := by
    rintro ⟨hnpc, hempty⟩
    rw [if_neg hnpc] at hempty
    exact hcontent.opponents.1 hempty
  obtain ⟨params, hparams⟩ := hsaves rules.majorInjurySave (.inl rfl)
    (if (s.cores ref).level = 0 then 1 else (s.cores ref).level)
  unfold GameSnapshot.physicalSaveTargetFor
  rw [if_neg hpresent, hparams]
  exact ⟨params.difficulty, rfl⟩

theorem safe_rollMajorInjury (encounterType : String) (target : CoreRef) (saveTarget : Int) :
    Safe P (rollMajorInjury rules encounterType target saveTarget) := by
  refine (safe_rollDie h 20).bind (fun saveRoll => Safe.ite (fun _ => h.publishes _) (fun _ => ?_))
  refine (safe_rollDie h 12).bind (fun injury => h.modifies (fun s => ?_))
  exact (within_addStatus s _ _).trans (within_publish _ trivial)

theorem safe_runCwnWwnDownedSeam (actorSide : ActorSide) :
    Safe P (runCwnWwnDownedSeam rules actorSide) := by
  refine safe_get_bind (fun s hs => ?_)
  cases hvictim : s.seamVictim rules actorSide with
  | none => exact safe_pure _
  | some victim =>
    obtain ⟨name, ref⟩ := victim
    -- the victim is a name that resolves to its creature
    have href : s.cast.findCreatureCore name = some ref := by
      unfold GameSnapshot.seamVictim at hvictim
      rw [if_pos (h.content s hs).lethal] at hvictim
      obtain ⟨name', -, hbind⟩ := Option.bind_eq_some_iff.mp hvictim
      obtain ⟨ref', hfound, hdown⟩ := Option.bind_eq_some_iff.mp hbind
      split_ifs at hdown
      · cases hdown
        exact hfound
    obtain ⟨target, htarget⟩ := physicalSaveTargetFor_ok h hs href
    refine safe_ofExcept_bind ⟨target, htarget, ?_⟩
    refine Safe.bind ?_ (fun _ => (h.publishes _).onlyIf)
    refine (h.modifies (fun t => ?_)).bind (fun _ => (safe_rollMajorInjury h _ _ _).onlyIf)
    split_ifs
    · exact within_publish t trivial
    · exact (within_addStatus t _ _).trans (within_publish _ trivial)

/-! #### The opponent's attack -/

/-- Damage is play within the sheets. -/
theorem safe_landDamage (target : CoreRef) (damage : Int) (source : String) :
    Safe P (landDamage target damage source) :=
  h.modifies (fun s => within_applyBeatHpChannel (fun _ _ _ _ => trivial) s damage 0 source)

theorem safe_checkHpDepletion : Safe P (modify fun s => s.checkHpDepletion.2 : CombatM PUnit) :=
  h.modifies (fun s => within_checkHpDepletion (fun _ _ => trivial) s)

theorem safe_closeReprisalDepletion : Safe P (closeReprisalDepletion rules) := by
  refine (h.modifies (fun s => ?_)).bind (fun _ => safe_runCwnWwnDownedSeam h .opponent)
  exact (within_checkHpDepletion (fun _ _ => trivial) s).trans
    (within_applyPostResolutionLethality (fun _ _ => trivial) (fun _ _ => trivial) _ rules)

omit h in
theorem defensivePosture_nonneg (commit : Option WnSealedCommit) :
    0 ≤ (defensivePosture commit).1 := by
  unfold defensivePosture
  cases commit with
  | none => exact le_rfl
  | some commit =>
    dsimp only
    split_ifs
    · exact (by decide : (0 : Int) ≤ 2)
    · exact le_rfl

/-- **The opponent's attack returns.** -/
theorem safe_resolveOpponentReprisal (playerName attacker : String)
    (defenderCommit : Option WnSealedCommit) (source : String) :
    Safe P (resolveOpponentReprisal rules playerName attacker defenderCommit source) := by
  refine Safe.bind (safe_get_bind (fun s hs => ?_)) (fun blow => ?_)
  · split
    · exact safe_pure _
    · rename_i target htarget
      refine Safe.ite (fun _ => safe_pure _) (fun _ => (safe_rollDie h 20).bind (fun d20 => ?_))
      obtain ⟨modifier, hmodifier⟩ := (h.content s hs).opponents.2.2
      have harmor := (h.content s hs).armor playerName target htarget
      have hposture := defensivePosture_nonneg defenderCommit
      refine safe_ofExcept_bind ?_
      unfold resolveOpponentAttack
      rw [hmodifier]
      refine ⟨_, rfl, (h.publishes _).bind (fun _ => Safe.ite (fun hbelow => ?_) (fun _ => ?_))⟩
      · exact absurd hbelow (not_lt.mpr (le_add_of_le_of_nonneg harmor hposture))
      · refine Safe.bind (Safe.ite (fun _ => ?_) (fun _ => safe_pure _)) (fun _ => safe_pure _)
        exact (safe_generateServerFaces h _).bind (fun _ => safe_pure _)
  · cases blow with
    | none => exact safe_pure _
    | some found =>
      exact (safe_landDamage h _ _ _).bind (fun _ => safe_closeReprisalDepletion h)

/-! #### Beats -/

theorem safe_beatDamage (actor : EncounterActor) {commitment : Commitment} {beatId : String}
    (hbeat : rules.findBeat beatId = some commitment.beat) :
    Safe P (beatDamage rules name actor commitment) := by
  unfold beatDamage
  refine Safe.ite (fun _ => Safe.ite (fun _ => ?_) (fun _ => ?_)) (fun _ => safe_pure _)
  · refine safe_get_bind (fun s hs => (safe_set ?_).bind (fun _ => safe_pure _))
    exact h.keeps s _ hs (within_shockChip s rules name actor.side commitment.beat
      (fun _ _ _ _ _ _ => trivial))
  · exact (safe_strikeDamage h name hbeat).bind (fun _ => safe_pure _)

theorem safe_spellSave (hs : P s) {spell : Spell}
    (hspell : ∀ save, spell.save = some save → rules.CallsFor save)
    {target : Option (String × CoreRef)}
    (htarget : ∀ name ref, target = some (name, ref) → s.cast.findCreatureCore name = some ref) :
    Safe P (spellSave rules s spell target) := by
  unfold spellSave
  dsimp only
  split
  · rename_i save name ref stats hsave hstats
    change (if name ∈ s.cast.characters then some (s.cores ref).stats
      else rules.opponentAbilityScores) = some stats at hstats
    have hsaves : rules.Saves stats := by
      split_ifs at hstats with hpc
      · cases hstats
        exact saves_of_findCreatureCore h hs (htarget name ref rfl) hpc
      · have hopponents := (h.content s hs).opponents.2.1
        rw [hstats] at hopponents
        exact hopponents
    obtain ⟨params, hparams⟩ := hsaves save (hspell save hsave) (s.cores ref).level
    exact safe_ofExcept_bind ⟨params, hparams, (safe_rollDie h 20).bind (fun _ => safe_pure _)⟩
  · exact safe_pure _

theorem safe_spellDamage {spell : Spell} {casterLevel : Int} (hrolls : spell.Rolls casterLevel)
    (saveMade : Bool) : Safe P (spellDamage spell casterLevel saveMade) := by
  unfold spellDamage
  split
  · exact safe_pure _
  · rename_i hdie
    obtain ⟨_, _, _, hdice, -⟩ := hrolls _ hdie
    cases hdice
  · rename_i count faces hdie
    obtain ⟨_, _, spec, hdice, hspec⟩ := hrolls _ hdie
    cases hdice
    exact safe_ofExcept_bind ⟨spec, hspec, (safe_roll h spec).bind (fun _ => safe_pure _)⟩

/-- A cast by somebody who can cast returns. -/
theorem safe_resolveSpellcast {caster : CoreRef} {casterName : String}
    (hcaster : ∀ s, P s → (s.cores caster).spellcasting.isSome = true) (spellId : String)
    {spell : Spell} (hrolls : ∀ s, P s → spell.Rolls (s.cores caster).level) (hspell : ∀ save, spell.save = some save → rules.CallsFor save)
    {target : Option (String × CoreRef)}
    (htarget : ∀ s, P s → ∀ name ref, target = some (name, ref) →
      s.cast.findCreatureCore name = some ref) :
    Safe P (resolveSpellcast rules caster casterName spellId spell target) := by
  refine safe_get_bind (fun s hs => ?_)
  obtain ⟨state, hstate⟩ := Option.isSome_iff_exists.mp (hcaster s hs)
  rw [hstate]
  refine Safe.ite (fun _ => (h.publishes _).bind (fun _ => safe_pure _)) (fun _ => ?_)
  refine Safe.bind (safe_modify (fun t ht => h.keeps t _ ht ?_)) (fun _ => ?_)
  · have hcasting := hcaster t ht
    exact within_offSheet t caster ⟨rfl, rfl, rfl, rfl, rfl, rfl, by rw [hcasting]; rfl⟩ rfl
  · exact (safe_spellSave h hs hspell (htarget s hs)).bind (fun _ =>
      (safe_spellDamage h (hrolls s hs) _).bind (fun _ =>
        (h.publishes _).bind (fun _ => safe_pure _)))

variable {actor : EncounterActor}

/-- **A cast returns**, if who casts can. -/
theorem safe_resolveWwnCastForBeat (hcasts : ∀ s, P s → s.Casts rules actor.name)
    (spellId : Option String) : Safe P (resolveWwnCastForBeat rules actor spellId) := by
  refine safe_get_bind (fun s hs => ?_)
  split
  · rename_i spellId catalog caster hcatalog hcaster
    split
    · exact safe_pure _
    · rename_i spell hspell
      have hcalled : ∀ save, spell.save = some save → rules.CallsFor save :=
        fun save hsave => .inr ⟨catalog, spellId, spell, hcatalog, hspell, hsave⟩
      have hcan : ∀ t, P t → (t.cores caster).spellcasting.isSome = true ∧
          spell.Rolls (t.cores caster).level := by
        intro t ht
        obtain ⟨hstate, hrolls⟩ := hcasts t ht caster (by rw [h.cast s t hs ht]; exact hcaster)
        exact ⟨hstate, hrolls catalog spellId spell hcatalog hspell⟩
      refine (safe_resolveSpellcast h (fun t ht => (hcan t ht).1) spellId
        (fun t ht => (hcan t ht).2) hcalled (fun t ht name ref htarget => ?_)).bind
        (fun damage => ?_)
      · rw [h.cast s t hs ht]
        obtain ⟨name', -, hfound⟩ := Option.bind_eq_some_iff.mp htarget
        obtain ⟨ref', href, hpair⟩ := Option.map_eq_some_iff.mp hfound
        cases hpair
        exact href
      · split
        · exact ((safe_landDamage h _ _ _).bind (fun _ =>
            (safe_runCwnWwnDownedSeam h actor.side).bind (fun _ => safe_checkHpDepletion h))).onlyIf
        · exact safe_pure _
  · exact safe_pure _

theorem safe_resolveMutationForBeat (actor : EncounterActor) (mutationId : Option String) :
    Safe P (resolveMutationForBeat rules actor mutationId) := by
  refine (h.modifies (fun s => within_modifyEncounter s
    (sameBoard_dropStaleNegatedSaveHints s.encounter actor.name))).bind (fun _ => ?_)
  refine safe_get_bind (fun s hs => (safe_set (h.keeps s _ hs ?_)).bind (fun _ => ?_))
  · exact .of_cores rfl rfl (.refl _) rfl ⟨[], (List.append_nil _).symm, by simp⟩
  · split
    · exact safe_pure _
    · exact (h.publishes _).bind (fun _ => safe_pure _)
    · exact (h.modifies (fun s => within_hint s (fun _ => rfl))).bind (fun _ => safe_pure _)

/-- **The effects of a beat return**, if who casts can. -/
theorem safe_carryOutBeat {commitment : Commitment} {beatId : String}
    (hbeat : rules.findBeat beatId = some commitment.beat)
    (hcasts : rules.isWwnCast commitment.beat.id = true → ∀ s, P s → s.Casts rules actor.name) :
    Safe P (carryOutBeat rules name actor commitment) := by
  refine (h.modifies (fun s => within_modifyEncounter s
    (sameBoard_dropStaleNegatedSaveHints s.encounter actor.name))).bind (fun _ => ?_)
  refine (safe_beatDamage h name actor hbeat).bind (fun rolled => ?_)
  obtain ⟨damage, shockHpRemoved⟩ := rolled
  refine safe_get_bind (fun s hs => (safe_set (h.keeps s _ hs ?_)).bind (fun _ => ?_))
  · exact within_resolveWnCommittedAction (fun _ _ => trivial) s actor commitment.beat
      commitment.outcome damage (fun _ _ _ _ _ _ => trivial)
  · refine (safe_runCwnWwnDownedSeam h actor.side).bind (fun _ => Safe.bind ?_ (fun _ => ?_))
    · exact Safe.ite (fun hcast => safe_resolveWwnCastForBeat h (hcasts hcast) commitment.spellId)
        (fun _ => safe_pure _)
    · refine Safe.bind ?_ (fun _ => safe_pure _)
      exact Safe.ite (fun _ => safe_resolveMutationForBeat h actor commitment.mutationId)
        (fun _ => safe_pure _)

/-! ### Slots -/

theorem safe_opportunityAttacks (token : String) (commit : WnSealedCommit) :
    Safe P (opportunityAttacks rules token commit) := by
  refine safe_get_bind (fun s _ => Safe.ite (fun _ => ?_) (fun _ => safe_pure _))
  refine safe_forM (fun opponent => safe_get_bind (fun t _ => ?_)) _
  exact Safe.ite (fun _ => safe_pure _) (fun _ => Safe.ite (fun _ => safe_pure _)
    (fun _ => safe_resolveOpponentReprisal h _ _ _ _))

/-- A known beat returns. -/
theorem safe_resolveCommittedBeat (token : String) {commit : WnSealedCommit}
    (hbeat : (rules.findBeat commit.beatId).isSome = true)
    (hcasts : ∀ beat, rules.findBeat commit.beatId = some beat →
      rules.isWwnCast beat.id = true → ∀ s, P s → s.Casts rules actor.name) :
    Safe P (resolveCommittedBeat rules token actor commit) := by
  obtain ⟨beat, hfound⟩ := Option.isSome_iff_exists.mp hbeat
  unfold resolveCommittedBeat
  rw [hfound]
  refine Safe.bind ?_ (fun application => Safe.bind ?_ (fun _ => (h.modifies (fun s =>
    within_publish s trivial)).onlyIf))
  · refine (safe_carryOutBeat h token hfound (hcasts beat hfound)).bind (fun removed => ?_)
    exact (h.publishes _).bind (fun _ => safe_get_bind (fun _ _ => safe_pure _))
  · unfold tellRefusal
    split
    · exact h.modifies (fun s => within_hint s (fun _ => rfl))
    · exact safe_pure _

omit h

/-- A slot's commit can be carried out: its beat is known, or its item is carried, and has dice that
    somebody can roll. -/
def SlotAction.Resolvable (rules : Rules) (s : GameSnapshot) (token : String) : SlotAction → Prop
  | .useItem commit => ∃ target index, s.resolveItemUse token commit.beatId = .ok (target, index) ∧
      ((s.cores target).items[index]?.getD {}).heal ≠ .unsupported
  | .applyBeat commit _ => (rules.findBeat commit.beatId).isSome = true
  | _ => True

theorem applyConsumableHeal_ok (target : CoreRef) {item : Item} (hitem : item.heal ≠ .unsupported)
    (s : GameSnapshot) : ∃ healed s', (applyConsumableHeal target item).exec s = (.ok healed, s') := by
  unfold applyConsumableHeal
  split
  · rename_i spec _
    have hroll : Safe (fun _ => True) spec.roll :=
      (safe_mapM (fun faces _ s _ => trivial)).bind (fun _ => safe_pure _)
    obtain ⟨rolled, t, hexec, -⟩ := Meets.exists_ok hroll (s := s) trivial
    rw [exec_bind, hexec]
    exact ⟨_, _, rfl⟩
  · rename_i hunsupported
    exact absurd hunsupported hitem
  · exact ⟨_, _, rfl⟩
  · exact ⟨_, _, rfl⟩

/-- A drink returns exactly if its item is carried and its dice are supported. -/
theorem resolveCommittedItem_ok_iff {token : String} {commit : WnSealedCommit} :
    (∃ s', (resolveCommittedItem token commit).exec s = (.ok ⟨⟩, s')) ↔
      (SlotAction.useItem commit).Resolvable rules s token := by
  unfold resolveCommittedItem
  rw [exec_get_bind]
  show _ ↔ ∃ target index, s.resolveItemUse token commit.beatId = .ok (target, index) ∧ _
  cases hfound : s.resolveItemUse token commit.beatId with
  | error e =>
    constructor
    · rintro ⟨s', hexec⟩
      cases show Except.error e = Except.ok _ from congrArg Prod.fst hexec
    · rintro ⟨_, _, hok, -⟩
      simp at hok
  | ok found =>
    obtain ⟨target, index⟩ := found
    change (∃ s', (applyItemUse token target index).exec s = (.ok ⟨⟩, s')) ↔ _
    unfold applyItemUse
    rw [exec_get_bind]
    constructor
    · rintro ⟨s', hexec⟩
      refine ⟨target, index, rfl, fun hunsupported => ?_⟩
      obtain ⟨healed, t, hheal, -⟩ := exists_of_exec_bind hexec
      unfold applyConsumableHeal at hheal
      rw [hunsupported] at hheal
      simp at hheal
    · rintro ⟨_, _, hpair, hsupported⟩
      cases hpair
      obtain ⟨healed, t, hheal⟩ := applyConsumableHeal_ok target hsupported s
      rw [exec_bind, hheal]
      exact ⟨_, rfl⟩

end

/-! ### Recovery -/

/-- No slot has had an effect: the creatures, the seats, the mutations and the verdict are those
    of before. -/
structure Untouched (s s' : GameSnapshot) : Prop where
  cores : s'.cores = s.cores
  actors : s'.encounter.actors = s.encounter.actors
  mutationUses : s'.mutationUses = s.mutationUses
  playerDead : s'.playerDead = s.playerDead
  resolved : s'.encounter.resolved = s.encounter.resolved

/-- No slot has had an effect, or the ledger is empty; some PC can still seal an action; and no
    commit that is still in the ledger was carried out. -/
structure Recovers (s s' : GameSnapshot) : Prop where
  kept : Untouched s s' ∨ s'.encounter.wnCommits = []
  canSeal : s'.encounter.resolved = false ∧ s'.wnWaitingActors ≠ []
  once : ∀ commit ∈ s'.encounter.wnCommits, s'.resolutions commit.actor = s.resolutions commit.actor

variable {s s' : GameSnapshot} {rules : Rules}

/-- The round that was raised has kept the ledger. -/
theorem played_of_raise {e : DispatchError} (hexec : (runWnRound rules).exec s = (.error e, s')) :
    Played s.announceRound s' :=
  (preserves_forM (played_takeSlot rules s.commitOf) s.roundOrder).of_exec
    (walk_of_exec_runWnRound_error rules hexec)

/-- **A closed barrier stays closed** where nothing has changed. -/
theorem wnWaitingActors_of_untouched (hplayed : Played s.announceRound s') (h : Untouched s s') :
    s'.wnWaitingActors = s.wnWaitingActors := by
  have hcast : s'.cast = s.cast := hplayed.cast
  have hcommits : s'.encounter.wnCommits = s.encounter.wnCommits := hplayed.wnCommits
  have hwaits : s'.waitsOn = s.waitsOn := by
    funext actor
    simp only [GameSnapshot.waitsOn, GameSnapshot.committed, GameSnapshot.isDown,
      GameSnapshot.findCreatureCore, hcast, hcommits, h.cores]
  unfold GameSnapshot.wnWaitingActors
  rw [hwaits, h.actors]

/-- **No raise is recovered from.** The ledger is still full, so that nothing may have happened; but
    then everybody has committed still. -/
theorem not_recovers_of_raise {e : DispatchError} (hclosed : s.wnBarrierClosed = true)
    (hcommits : s.encounter.wnCommits ≠ []) (hexec : (runWnRound rules).exec s = (.error e, s')) :
    ¬ Recovers s s' := by
  intro h
  have hplayed := played_of_raise hexec
  rcases h.kept with huntouched | hempty
  · have hwaiting := wnWaitingActors_of_untouched hplayed huntouched
    have hnobody : s.wnWaitingActors = [] := by
      simpa [GameSnapshot.wnBarrierClosed] using hclosed
    exact h.canSeal.2 (hwaiting.trans hnobody)
  · exact hcommits (hplayed.wnCommits.symm.trans hempty)

/-! ### Slots that return -/

theorem Content.of_played (hs : Content rules s) (h : Played s s') : Content rules s' :=
  hs.of_kept h.cast h.kept h.wnCommits

/-- The content is complete, and the cast and the ledger are those of the round's beginning. -/
structure Underway (rules : Rules) (start s : GameSnapshot) : Prop where
  cast : s.cast = start.cast
  content : Content rules s
  wnCommits : s.encounter.wnCommits = start.encounter.wnCommits

variable {start : GameSnapshot}

theorem Underway.of_played (hs : Underway rules start s) (h : Played s s') :
    Underway rules start s' :=
  ⟨h.cast.trans hs.cast, hs.content.of_played h, h.wnCommits.trans hs.wnCommits⟩

theorem sustains_underway (rules : Rules) (start : GameSnapshot) :
    Sustains rules (Underway rules start) where
  cast _ _ hs ht := ht.cast.trans hs.cast.symm
  content _ hs := hs.content
  keeps _ _ hs h :=
    ⟨h.cast.trans hs.cast, hs.content.of_within h, h.board.wnCommits.trans hs.wnCommits⟩

/-- A beat that was looked up has the id it was looked up by. -/
theorem Rules.id_of_findBeat {beatId : String} {beat : BeatDef}
    (h : rules.findBeat beatId = some beat) : beat.id = beatId := by
  unfold Rules.findBeat at h
  split_ifs at h with haction hcast
  · cases h
    unfold wnActionBeat
    split_ifs <;> rfl
  · cases h
    exact hcast.1.symm
  · simpa using List.find?_some h

theorem Underway.casts (hs : Underway rules start s) {token : String} {commit : WnSealedCommit}
    (hcommit : start.commitOf token = some commit) (hcast : rules.isWwnCast commit.beatId = true) :
    s.Casts rules token := by
  obtain ⟨hmem, hactor⟩ := key_of_lastBy hcommit
  rw [← hs.wnCommits] at hmem
  rw [← hactor]
  exact hs.content.casters commit hmem hcast

theorem resolveCommittedBeat_ok_iff (hs : Underway rules start s) {token : String}
    {commit : WnSealedCommit} {actor : EncounterActor}
    (haction : s.slotAction start.commitOf token = .applyBeat commit actor) :
    (∃ s', (resolveCommittedBeat rules token actor commit).exec s = (.ok ⟨⟩, s')) ↔
      (rules.findBeat commit.beatId).isSome = true := by
  obtain ⟨seat, hseat, -, -, -, hcommit, hcommitAction⟩ :=
    exists_of_commit? (by rw [haction]; rfl : (s.slotAction start.commitOf token).commit? = some commit)
  obtain ⟨rfl, -⟩ := eq_of_commitAction_applyBeat (hcommitAction.symm.trans haction)
  have hname : actor.name = token := by simpa using List.find?_some hseat
  constructor
  · rintro ⟨s', hexec⟩
    cases hbeat : rules.findBeat commit.beatId with
    | some beat => rfl
    | none =>
      unfold resolveCommittedBeat at hexec
      rw [hbeat] at hexec
      simp at hexec
  · intro hbeat
    have hcasts : ∀ beat, rules.findBeat commit.beatId = some beat →
        rules.isWwnCast beat.id = true → ∀ t, Underway rules start t →
          t.Casts rules actor.name := by
      intro beat hfound hcast t ht
      rw [Rules.id_of_findBeat hfound] at hcast
      rw [hname]
      exact ht.casts hcommit hcast
    have hsafe := safe_resolveCommittedBeat (sustains_underway rules start) token hbeat hcasts
    obtain ⟨_, s', hexec, -⟩ := Meets.exists_ok hsafe hs
    exact ⟨s', hexec⟩

/-- A non-offensive action returns: so do the free attacks it provokes. -/
theorem exists_ok_resolveNonoffensive (hs : Underway rules start s) (token : String)
    (commit : WnSealedCommit) :
    ∃ s', (resolveNonoffensive rules token commit).exec s = (.ok ⟨⟩, s') := by
  have hsafe := safe_opportunityAttacks (sustains_underway rules start) token commit
  obtain ⟨_, t, hexec, -⟩ := Meets.exists_ok hsafe hs
  unfold resolveNonoffensive
  rw [exec_bind, hexec]
  exact ⟨_, rfl⟩

/-- **A slot returns exactly if its commit can be carried out.** -/
theorem takeSlot_ok_iff (hs : Underway rules start s) (entry : InitiativeEntry) :
    (∃ s', (takeSlot rules start.commitOf entry).exec s = (.ok ⟨⟩, s')) ↔
      (s.slotAction start.commitOf entry.tokenId).Resolvable rules s entry.tokenId := by
  rw [exec_takeSlot]
  by_cases hacts : (s.slotAction start.commitOf entry.tokenId).acts = true
  · cases haction : s.slotAction start.commitOf entry.tokenId with
    | opponentAttack target =>
      have hsafe := safe_resolveOpponentReprisal (sustains_underway rules start) target
        entry.tokenId (start.commitOf target) "opponent_reprisal"
      obtain ⟨_, s', hexec, -⟩ := Meets.exists_ok hsafe hs
      exact iff_of_true ⟨s', hexec⟩ trivial
    | useItem commit => exact resolveCommittedItem_ok_iff
    | nonoffensive commit => exact iff_of_true (exists_ok_resolveNonoffensive hs _ commit) trivial
    | applyBeat commit actor => exact resolveCommittedBeat_ok_iff hs haction
    | _ =>
      rw [haction] at hacts
      simp [SlotAction.acts] at hacts
  · obtain ⟨s', hexec, -⟩ := idle_perform rules start.commitOf entry.tokenId
      (Bool.eq_false_iff.mpr hacts) s
    refine iff_of_true ⟨s', hexec⟩ ?_
    cases haction : s.slotAction start.commitOf entry.tokenId with
    | useItem commit => exact absurd (by rw [haction]; rfl) hacts
    | applyBeat commit actor => exact absurd (by rw [haction]; rfl) hacts
    | _ => exact trivial

/-! ### Rounds that raise -/

/-- Every slot a round comes to finds the content, the cast and the ledger of its beginning. -/
theorem underway_of_mem_slots (hs : Content rules s) {slot : InitiativeEntry × GameSnapshot}
    (hslot : slot ∈ s.slots rules) : Underway rules s slot.2 := by
  -- the spans a round begins with are no part of the content
  have hbegins : Underway rules s s.announceRound :=
    ⟨rfl, ⟨hs.lethal, hs.pcs, hs.opponents, hs.casters, hs.weapons, hs.armor⟩, rfl⟩
  refine of_mem_visits (fun entry t t' ht hexec => ?_) hbegins hslot
  exact ht.of_played ((played_takeSlot rules s.commitOf entry).of_exec hexec)

/-- **A round raises exactly at a commit that cannot be carried out.** -/
theorem raises_iff (hs : Content rules s) : (∃ e s', (runWnRound rules).exec s = (.error e, s')) ↔
      ∃ slot ∈ s.slots rules,
        ¬ (slot.2.slotAction s.commitOf slot.1.tokenId).Resolvable rules slot.2 slot.1.tokenId := by
  have hwalk : (∃ e s', (runWnRound rules).exec s = (.error e, s')) ↔
      ∃ e s', (walk rules s.commitOf s.roundOrder).exec s.announceRound = (.error e, s') := by
    constructor
    · rintro ⟨e, s', hexec⟩
      exact ⟨e, s', walk_of_exec_runWnRound_error rules hexec⟩
    · rintro ⟨e, s', hexec⟩
      refine ⟨e, s', ?_⟩
      unfold runWnRound
      rw [exec_get_bind, exec_set_bind, exec_bind, hexec]
  have hslots : (∃ e s', (walk rules s.commitOf s.roundOrder).exec s.announceRound =
      (.error e, s')) ↔ ∃ slot ∈ s.slots rules, ∃ e s',
        (takeSlot rules s.commitOf slot.1).exec slot.2 = (.error e, s') := forM_error_iff
  rw [hwalk, hslots]
  refine exists_congr (fun slot => and_congr_right (fun hslot => ?_))
  rw [← takeSlot_ok_iff (underway_of_mem_slots hs hslot) slot.1]
  -- a slot that does not return raises
  rcases hexec : (takeSlot rules s.commitOf slot.1).exec slot.2 with ⟨e | u, s'⟩
  · refine iff_of_true ⟨e, s', rfl⟩ (fun hok => ?_)
    obtain ⟨_, hreturns⟩ := hok
    simp at hreturns
  · refine iff_of_false (fun hraises => ?_) (not_not.mpr ⟨s', rfl⟩)
    obtain ⟨_, _, hraise⟩ := hraises
    simp at hraise

/-- An item that heals dice nobody can roll. -/
def salve : Item := { name := "Salve", consumable := true, heal := .unsupported }

/-- The skirmish with stat blocks; the second PC carries the salve. -/
def salveSkirmish : GameSnapshot :=
  { skirmish with
    cores := fun ref =>
      { hp := ⟨2, 2⟩
        stats := [("STR", 10), ("CON", 10)]
        items := if ref = .character 1 then [salve] else [] } }

theorem saves_duelRules : duelRules.Saves [("STR", 10), ("CON", 10)] := by
  rintro save (rfl | ⟨catalog, _, _, hcatalog, -, -⟩) level
  · exact ⟨_, rfl⟩
  · simp [duelRules] at hcatalog

theorem content_salveSkirmish : Content duelRules salveSkirmish where
  lethal := by decide
  pcs _ _ := saves_duelRules
  opponents := ⟨by decide, saves_duelRules, _, rfl⟩
  casters := by
    intro commit hcommit hcast
    have hattack : ∀ commit ∈ salveSkirmish.encounter.wnCommits, commit.beatId = "attack" := by
      decide
    rw [hattack commit hcommit] at hcast
    exact absurd hcast (by decide)
  weapons := by
    rintro spec (⟨beatId, beat, hbeat, hover⟩ | ⟨ref, item, hitem, hdamage⟩ | ⟨id, hid⟩ | hunarmed)
    · -- the only beats are those of the rules
      have hnone : beat.damageOverride = none := by
        unfold Rules.findBeat wnActionBeat wnCastBeat at hbeat
        split_ifs at hbeat <;> cases hbeat <;> rfl
      rw [hnone] at hover
      cases hover
    · have hsalve : item = salve := by
        by_cases href : ref = .character 1
        · simpa [salveSkirmish, href] using hitem
        · simp [salveSkirmish, href] at hitem
      rw [hsalve] at hdamage
      cases hdamage
    · cases hid
    · cases hunarmed
  armor _ _ _ := (by decide : (1 : Int) ≤ 10)

/-- The second PC has sealed the salve in place of its attack. -/
def salveSealed : GameSnapshot :=
  { salveSkirmish with
    encounter := { salveSkirmish.encounter with
      wnCommits := [⟨"Rux", "attack", .success, some "Ghoul", none, none⟩,
        ⟨"Vex", "use_item:salve", .success, none, none, none⟩] } }

end Sidequest.Combat
