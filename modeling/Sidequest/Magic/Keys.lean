import Sidequest.Lib.PyString
import Sidequest.Magic.Ledger

namespace Sidequest.Magic

open Lib Effect

/-!
# The keys of the ledger, and the rest that reads them

A rest puts back the slots whose keys begin like those of its actor. A key is written as one text,
with bars between its parts. Scopes have no bar in them; what follows the second one may have some;
an owner with a bar in its name is read back as another owner.

* `exec_restoreBars` — what the loop over the keys does, where every level can be read;
* `BarKey.deserialize` — read a key back;
* `keysApart_iff` — this holds exactly if none of the names has a bar in it.
-/

section

/-- `int(text)`. -/
def readInt (text : String) : Option Int := pyInt? text.toList

/-- The key begins like the slots of the actor. -/
def slotLike (actor key : String) : Bool := startsWith ("character|" ++ actor ++ "|slots_l") key

variable (bar : LedgerBar)

/-- A bar that a rest has refreshed. -/
def LedgerBar.rested : LedgerBar := { bar with value := bar.perRest }

@[simp] theorem LedgerBar.perRest_rested : bar.rested.perRest = bar.perRest := by
  unfold LedgerBar.perRest LedgerBar.rested LedgerBar.perRest
  cases bar.spec.startsAtChargen <;> rfl

@[simp] theorem LedgerBar.rested_rested : bar.rested.rested = bar.rested := by
  have hperRest := bar.perRest_rested
  unfold LedgerBar.rested at hperRest ⊢
  rw [hperRest]

/-! ### The loop of a rest -/

variable {key : String} {bar : LedgerBar}

variable (keys : List String) (restored : Dict Int ℚ)

section Loop

variable {actor : String} {s s' : MagicState}

/-- The value that a key is refreshed to. -/
def MagicState.restValue (s : MagicState) (key : String) : Option ℚ :=
  (s.ledger.get? key).map LedgerBar.perRest

/-- What one key adds to the result of a rest. -/
def levelStep (s : MagicState) (actor : String) (restored : Dict Int ℚ) (key : String) :
    Dict Int ℚ :=
  match s.restValue key, readInt (levelText key) with
  | some value, some level => if slotLike actor key then restored.insert level value else restored
  | _, _ => restored

theorem exec_restoreBar (key : String) (s : MagicState) :
    (restoreBar readInt actor restored key).exec s =
      if slotLike actor key then
        match s.ledger.get? key, readInt (levelText key) with
        | none, _ => (.ok restored, s)
        | some bar, none => (.error (.noLevel (levelText key)), s.putValue key bar.perRest)
        | some bar, some level => (.ok (restored.insert level bar.perRest),
            s.putValue key bar.perRest)
      else (.ok restored, s) := by
  unfold restoreBar slotLike
  rw [exec_get_bind]
  cases startsWith ("character|" ++ actor ++ "|slots_l") key with
  | false => rfl
  | true =>
    cases s.ledger.get? key with
    | none => rfl
    | some bar =>
      cases readInt (levelText key) <;> rfl

/-- Refreshing a bar changes nothing of what a rest refreshes to. -/
theorem restValue_putValue (hbar : s.ledger.get? key = some bar) (key' : String) :
    (s.putValue key bar.perRest).restValue key' = s.restValue key' := by
  unfold MagicState.restValue
  rw [MagicState.get?_putValue]
  by_cases hsame : key' = key
  · rw [if_pos hsame, hsame, hbar]
    show some bar.rested.perRest = some bar.perRest
    rw [LedgerBar.perRest_rested]
  · rw [if_neg hsame]

theorem levelStep_congr (h : ∀ key, s'.restValue key = s.restValue key) :
    levelStep s' actor = levelStep s actor := by
  funext restored key
  unfold levelStep
  rw [h key]

/-- The keys have been come to: of them, those that are slots of the actor are refreshed. -/
structure Rested (actor : String) (keys : List String) (s s' : MagicState) : Prop where
  keys_eq : s'.ledger.keys = s.ledger.keys
  get : ∀ key, s'.ledger.get? key =
    if key ∈ keys ∧ slotLike actor key = true then (s.ledger.get? key).map LedgerBar.rested
    else s.ledger.get? key
  rest : s' = { s with ledger := s'.ledger }

theorem rested_nil (s : MagicState) : Rested actor [] s s := ⟨rfl, by simp, rfl⟩

/-- One key more in front. -/
theorem Rested.cons {keys : List String} {t : MagicState} (hfirst : Rested actor [key] s t)
    (h : Rested actor keys t s') : Rested actor (key :: keys) s s' := by
  constructor
  · rw [h.keys_eq, hfirst.keys_eq]
  · intro key'
    rw [h.get, hfirst.get]
    by_cases hslot : slotLike actor key' = true
    · by_cases hkey : key' = key
      · -- refreshed once or twice, which is the same
        subst hkey
        by_cases hmem : key' ∈ keys
        · simp [hslot, hmem, Function.comp_def]
        · simp [hslot, hmem]
      · by_cases hmem : key' ∈ keys <;> simp [hslot, hkey, hmem]
    · simp [hslot]
  · rw [h.rest, hfirst.rest]

theorem rested_putValue (hslot : slotLike actor key = true) (hbar : s.ledger.get? key = some bar) :
    Rested actor [key] s (s.putValue key bar.perRest) := by
  constructor
  · exact Dict.keys_modify _ _ _
  · intro key'
    rw [MagicState.get?_putValue]
    by_cases hsame : key' = key
    · subst hsame
      simp [hslot, hbar, LedgerBar.rested]
    · simp [hsame]
  · rfl

/-- A key that is skipped is refreshed, too, where there is nothing to refresh. -/
theorem rested_skip (h : slotLike actor key = true → s.ledger.get? key = none) :
    Rested actor [key] s s := by
  constructor
  · rfl
  · intro key'
    split_ifs with hslot
    · rw [List.mem_singleton] at hslot
      rw [hslot.1, h (hslot.1 ▸ hslot.2)]
      rfl
    · rfl
  · rfl

/-- **The loop of a rest** refreshes every slot it comes to, if every level can be read. -/
theorem exec_restoreBars (s : MagicState)
    (hread : ∀ key ∈ keys, slotLike actor key = true → key ∈ s.ledger.keys →
      (readInt (levelText key)).isSome = true) :
    ∃ s', (keys.foldlM (restoreBar readInt actor) restored).exec s =
        (.ok (keys.foldl (levelStep s actor) restored), s') ∧ Rested actor keys s s' := by
  induction keys generalizing restored s with
  | nil => exact ⟨s, rfl, rested_nil s⟩
  | cons key keys ih =>
    -- what the first key comes to, and that it leaves the rest of the loop as it was
    have hfirst : ∃ t, (restoreBar readInt actor restored key).exec s =
        (.ok (levelStep s actor restored key), t) ∧ Rested actor [key] s t ∧
          ∀ key', t.restValue key' = s.restValue key' := by
      rw [exec_restoreBar]
      unfold levelStep
      by_cases hslot : slotLike actor key = true
      · cases hbar : s.ledger.get? key with
        | none =>
          refine ⟨s, ?_, rested_skip (fun _ => hbar), fun _ => rfl⟩
          simp [MagicState.restValue, hbar]
        | some bar =>
          obtain ⟨level, hlevel⟩ := Option.isSome_iff_exists.mp
            (hread key (.head _) hslot (Dict.mem_keys_of_get? hbar))
          refine ⟨s.putValue key bar.perRest, ?_, rested_putValue hslot hbar,
            restValue_putValue hbar⟩
          simp [MagicState.restValue, hbar, hlevel, hslot]
      · refine ⟨s, ?_, rested_skip (fun h => absurd h hslot), fun _ => rfl⟩
        cases s.restValue key <;> cases readInt (levelText key) <;> simp [hslot]
    obtain ⟨t, hexec, hrested, hvalues⟩ := hfirst
    obtain ⟨s', hloop, hrest⟩ := ih (levelStep s actor restored key) t (by
      intro key' hkey' hslot hmem
      rw [hrested.keys_eq] at hmem
      exact hread key' (.tail key hkey') hslot hmem)
    refine ⟨s', ?_, hrested.cons hrest⟩
    rw [levelStep_congr hvalues] at hloop
    rw [List.foldlM_cons, exec_bind, hexec, List.foldl_cons]
    exact hloop

theorem forM_restoreBars_raises (s : MagicState) (hkey : key ∈ keys)
    (hslot : slotLike actor key = true) (hmem : key ∈ s.ledger.keys)
    (hread : readInt (levelText key) = none) :
    ∃ e s', (keys.foldlM (restoreBar readInt actor) restored).exec s = (.error e, s') := by
  induction keys generalizing restored s with
  | nil => cases hkey
  | cons first keys ih =>
    rw [List.foldlM_cons, exec_bind, exec_restoreBar]
    rcases List.mem_cons.mp hkey with rfl | hkey
    · obtain ⟨bar, hbar⟩ := Dict.mem_keys_iff_get?.mp hmem
      rw [if_pos hslot, hbar, hread]
      exact ⟨_, _, rfl⟩
    · split_ifs
      · cases s.ledger.get? first with
        | none => exact ih restored s hkey hmem
        | some bar =>
          cases readInt (levelText first) with
          | none => exact ⟨_, _, rfl⟩
          | some level =>
            apply ih _ _ hkey
            show key ∈ (s.ledger.modify first _).keys
            rw [Dict.keys_modify]
            exact hmem
      · exact ih restored s hkey hmem

/-- Where the slots are refreshed already, the loop changes nothing. -/
theorem exec_restoreBars_of_rested (s : MagicState)
    (hread : ∀ key ∈ keys, slotLike actor key = true → key ∈ s.ledger.keys →
      (readInt (levelText key)).isSome = true)
    (hrested : ∀ key bar, slotLike actor key = true → s.ledger.get? key = some bar →
      bar.rested = bar) : (keys.foldlM (restoreBar readInt actor) restored).exec s =
      (.ok (keys.foldl (levelStep s actor) restored), s) := by
  obtain ⟨s', hexec, hloop⟩ := exec_restoreBars keys restored s hread
  have hledger : s'.ledger = s.ledger := by
    apply Dict.ext_of_get? hloop.keys_eq
    intro key
    rw [hloop.get]
    split_ifs with hslot
    · cases hbar : s.ledger.get? key with
      | none => rfl
      | some bar => exact congrArg some (hrested key bar hslot.2 hbar)
    · rfl
  rw [hexec, hloop.rest, hledger]

/-- The actor has nothing prepared and nothing spent any more. -/
def MagicState.forget (s : MagicState) (actor : String) : MagicState :=
  { s with
    preparedSpells := s.preparedSpells.insert actor .empty
    spentSpells := s.spentSpells.insert actor .empty }

theorem exec_rest (actor : String) (s : MagicState) :
    (rest readInt actor).exec s =
      match (s.ledger.keys.foldlM (restoreBar readInt actor) .empty).exec s with
      | (.ok restored, t) => (.ok ⟨actor, restored⟩, t.forget actor)
      | (.error e, t) => (.error e, t) := by
  unfold rest
  rw [exec_get_bind, exec_bind]
  rcases (s.ledger.keys.foldlM (restoreBar readInt actor) .empty).exec s with ⟨_ | _, _⟩ <;> rfl

/-- Every level that the keys of the actor's slots name can be read. -/
def Readable (actor : String) (s : MagicState) : Prop :=
  ∀ key ∈ s.ledger.keys, slotLike actor key = true → (readInt (levelText key)).isSome = true

/-- **Rest.** Where every level can be read, a rest returns, refreshes what is like a slot, and
    would do the same again. -/
theorem rest_spec (h : Readable actor s) :
    ∃ result s', (rest readInt actor).exec s = (.ok result, s') ∧
      (rest readInt actor).exec s' = (.ok result, s') ∧
        ∀ key, s'.ledger.get? key = if slotLike actor key = true
          then (s.ledger.get? key).map LedgerBar.rested else s.ledger.get? key := by
  obtain ⟨t, hexec, hloop⟩ := exec_restoreBars s.ledger.keys .empty s
    (fun key hkey hslot _ => h key hkey hslot)
  have hget : ∀ key, t.ledger.get? key = if slotLike actor key = true
      then (s.ledger.get? key).map LedgerBar.rested else s.ledger.get? key := by
    intro key
    rw [hloop.get]
    by_cases hmem : key ∈ s.ledger.keys
    · simp [hmem]
    · simp [hmem, Dict.get?_eq_none_iff.mpr hmem]
  have hvalues : ∀ key, (t.forget actor).restValue key = s.restValue key := by
    intro key
    unfold MagicState.restValue
    show (t.ledger.get? key).map _ = _
    rw [hget]
    split_ifs
    · cases s.ledger.get? key with
      | none => rfl
      | some bar => exact congrArg some bar.perRest_rested
    · rfl
  have hforget : (t.forget actor).forget actor = t.forget actor := by
    have hagain : ∀ d : Dict String (Dict Int (List String)),
        (d.insert actor .empty).insert actor .empty = d.insert actor .empty := by
      intro d
      rw [Dict.insert_eq_self_iff, Dict.get?_insert, if_pos rfl]
    unfold MagicState.forget
    rw [hagain, hagain]
  refine ⟨⟨actor, s.ledger.keys.foldl (levelStep s actor) .empty⟩, t.forget actor, ?_, ?_, hget⟩
  · rw [exec_rest, hexec]
  · -- everything is refreshed by now, and the same levels are reported
    rw [exec_rest]
    have hkeys : (t.forget actor).ledger.keys = s.ledger.keys := hloop.keys_eq
    rw [hkeys, exec_restoreBars_of_rested, levelStep_congr hvalues]
    · dsimp only
      rw [hforget]
    · exact fun key hkey hslot _ => h key hkey hslot
    · intro key bar hslot hbar
      have hbar' : t.ledger.get? key = some bar := hbar
      rw [hget, if_pos hslot] at hbar'
      obtain ⟨bar₀, -, rfl⟩ := Option.map_eq_some_iff.mp hbar'
      exact bar₀.rested_rested

theorem readable_of_rest {result : RestResult}
    (h : (rest readInt actor).exec s = (.ok result, s')) : Readable actor s := by
  intro key hkey hslot
  by_contra hread
  obtain ⟨e, t, hraises⟩ := forM_restoreBars_raises s.ledger.keys .empty s hkey hslot hkey
    (Option.not_isSome_iff_eq_none.mp hread)
  rw [exec_rest, hraises] at h
  simp at h

end Loop

/-! ### Characters that join, and workings -/

/-- What happens before a rest. -/
inductive PlayEvent where
  | addCharacter (characterId : String) (characterClass : Option String)
  | applyWorking (working : MagicWorking)

/-- The state afterwards; what was changed before a raise stays changed. -/
def playStep (s : MagicState) : PlayEvent → MagicState
  | .addCharacter characterId characterClass => ((addCharacter characterId characterClass).exec s).2
  | .applyWorking working => ((applyWorking working).exec s).2

/-- The character that joins. -/
def PlayEvent.joins : PlayEvent → Option String
  | .addCharacter characterId _ => some characterId
  | .applyWorking _ => none

/-- A bar that is in the ledger stays in it. -/
def Sequel (s s' : MagicState) : Prop := s.ledger.keys ⊆ s'.ledger.keys

instance : IsPreorder MagicState Sequel where
  refl s := List.Subset.refl s.ledger.keys
  trans _ _ _ h h' := List.Subset.trans h h'

theorem sequel_addCharacter (characterId : String) (characterClass : Option String) :
    Preserves Sequel (addCharacter characterId characterClass) := by
  refine preserves_get.bind (fun s => preserves_forM (fun spec s' => ?_) _)
  unfold addBar
  rw [exec_get_bind]
  dsimp only
  split
  · exact refl_of Sequel s'
  · cases resolveStartsAtChargen spec characterClass characterId with
    | error e => exact refl_of Sequel s'
    | ok value => exact fun key hkey => Dict.mem_keys_insert.mpr (.inr hkey)

theorem sequel_applyWorking (working : MagicWorking) : Preserves Sequel (applyWorking working) := by
  have hcosts : ∀ (costs : List (String × ℚ)) (acc : MagicState × ApplyWorkingResult),
      Sequel acc.1 (costs.foldl (applyCost working) acc).1 := by
    intro costs
    induction costs with
    | nil => exact fun acc => refl_of Sequel acc.1
    | cons cost costs ih =>
      intro acc
      refine trans_of Sequel ?_ (ih _)
      cases hcharged : acc.1.charged working cost.1 with
      | none =>
        rw [applyCost_of_none hcharged]
        exact refl_of Sequel acc.1
      | some charged =>
        rw [applyCost_of_some hcharged]
        intro key hkey
        show key ∈ (acc.1.ledger.modify _ _).keys
        rw [Dict.keys_modify]
        exact hkey
  intro s
  unfold applyWorking
  rw [exec_get_bind]
  split
  · exact refl_of Sequel s
  · exact hcosts working.costs.entries (s, {})

theorem sequel_run (s : MagicState) (events : List PlayEvent) :
    Sequel s (run playStep s events) := by
  induction events generalizing s with
  | nil => exact refl_of Sequel s
  | cons event events ih =>
    refine trans_of Sequel ?_ (ih (playStep s event))
    cases event with
    | addCharacter characterId characterClass => exact sequel_addCharacter _ _ s
    | applyWorking working => exact sequel_applyWorking working s

/-! ### The law of a rest -/

/-- The id of a slot bar: `slots_l` and a level. -/
def isSlotId (id : String) : Bool :=
  startsWith "slots_l" id && (pyInt? (id.toList.drop "slots_l".length)).isSome

/-- The keys of a character's bars. -/
def characterKeys (config : WorldMagicConfig) (characterId : String) : List String :=
  (config.ledgerBars.filter (fun spec => spec.scope = .character)).map
    (fun spec => BarKey.serialize ⟨.character, characterId, spec.id⟩)

/-- The keys of a character's slot bars. -/
def slotKeys (config : WorldMagicConfig) (characterId : String) : List String :=
  (config.ledgerBars.filter (fun spec => spec.scope = .character && isSlotId spec.id)).map
    (fun spec => BarKey.serialize ⟨.character, characterId, spec.id⟩)

theorem slotLike_of_mem_slotKeys {config : WorldMagicConfig} {actor : String}
    (h : key ∈ slotKeys config actor) : slotLike actor key = true := by
  obtain ⟨spec, hspec, rfl⟩ := List.mem_map.mp h
  have hslot : startsWith "slots_l" spec.id = true := by
    have hboth := (List.mem_filter.mp hspec).2
    simp only [isSlotId, Bool.and_eq_true] at hboth
    exact hboth.2.1
  unfold startsWith at hslot
  rw [List.isPrefixOf_iff_prefix] at hslot
  obtain ⟨text, htext⟩ := hslot
  unfold slotLike startsWith BarKey.serialize Scope.name
  rw [List.isPrefixOf_iff_prefix]
  refine ⟨text, ?_⟩
  have hcharacter : "character|".toList = "character".toList ++ "|".toList := by decide
  have hslots : "|slots_l".toList = "|".toList ++ "slots_l".toList := by decide
  simp only [String.toList_append, List.append_assoc, hcharacter, hslots, htext]

/-- A character that joins a campaign and rests, with all that happens before it joins and between
    the two. -/
structure Play where
  config : WorldMagicConfig
  before : List PlayEvent
  actor : String
  characterClass : Option String
  after : List PlayEvent

namespace Play

variable (p : Play)

/-- The state right after the character was added. -/
def enrolled : MagicState :=
  playStep (run playStep (fromConfig p.config) p.before) (.addCharacter p.actor p.characterClass)

/-- The state before the rest. -/
def played : MagicState := run playStep p.enrolled p.after

/-- The state after the rest. -/
def rested : MagicState := ((rest readInt p.actor).exec p.played).2

/-- The other characters that have joined. -/
def others : List String := ((p.before ++ p.after).filterMap PlayEvent.joins).filter (· ≠ p.actor)

end Play

/-- What a rest is to do: it returns, restores the actor's slots and nothing else, and a second one
    does the same. -/
structure RestLaw (p : Play) : Prop where
  returned : ∃ result, (rest readInt p.actor).exec p.played = (.ok result, p.rested)
  restored : ∀ key ∈ slotKeys p.config p.actor, ∀ bar, p.enrolled.ledger.get? key = some bar →
    (p.rested.ledger.get? key).map LedgerBar.value = some bar.value
  others : ∀ other ∈ p.others, ∀ key ∈ characterKeys p.config other,
    p.rested.ledger.get? key = p.played.ledger.get? key
  kept : ∀ key, key ∉ slotKeys p.config p.actor →
    p.rested.ledger.get? key = p.played.ledger.get? key
  idempotent : (rest readInt p.actor).exec p.rested = (rest readInt p.actor).exec p.played

/-- The value that a refresh leads to: the start of a bar, or for a class-keyed one the value it
    has. -/
def LedgerBar.RefreshesTo (value : ℚ) : Prop :=
  match bar.spec.startsAtChargen with
  | .scalar start => start = value
  | .byClass _ => bar.value = value

theorem LedgerBar.perRest_eq_iff {value : ℚ} : bar.perRest = value ↔ bar.RefreshesTo value := by
  unfold LedgerBar.perRest LedgerBar.RefreshesTo
  cases bar.spec.startsAtChargen <;> rfl

theorem LedgerBar.rested_eq_self_iff : bar.rested = bar ↔ bar.RefreshesTo bar.value := by
  rw [← bar.perRest_eq_iff]
  constructor
  · exact fun h => congrArg LedgerBar.value h
  · intro h
    show { bar with value := bar.perRest } = bar
    rw [h]

/-- What a rest can restore: levels that can be read, slots not keyed by class or not spent, and no
    bar that only begins like a slot. -/
structure Restorable (p : Play) : Prop where
  readable : Readable p.actor p.played
  own : ∀ key ∈ slotKeys p.config p.actor, ∀ bar₀ bar, p.enrolled.ledger.get? key = some bar₀ →
    p.played.ledger.get? key = some bar → bar.RefreshesTo bar₀.value
  foreign : ∀ key bar, p.played.ledger.get? key = some bar → slotLike p.actor key = true →
    (key ∉ slotKeys p.config p.actor ∨ ∃ other ∈ p.others, key ∈ characterKeys p.config other) →
      bar.RefreshesTo bar.value

/-- **The law of a rest** holds exactly of what it can restore. -/
theorem restLaw_iff (p : Play) : RestLaw p ↔ Restorable p := by
  have hspec : Readable p.actor p.played → ∃ result,
      (rest readInt p.actor).exec p.played = (.ok result, p.rested) ∧
        (rest readInt p.actor).exec p.rested = (.ok result, p.rested) ∧
          ∀ key, p.rested.ledger.get? key = if slotLike p.actor key = true
            then (p.played.ledger.get? key).map LedgerBar.rested
            else p.played.ledger.get? key := by
    intro hread
    obtain ⟨result, s', hexec, hagain, hget⟩ := rest_spec hread
    have hrested : p.rested = s' := congrArg Prod.snd hexec
    rw [hrested]
    exact ⟨result, hexec, hagain, hget⟩
  constructor
  · intro hlaw
    obtain ⟨result, hreturned⟩ := hlaw.returned
    have hread := readable_of_rest hreturned
    obtain ⟨-, -, -, hget⟩ := hspec hread
    refine ⟨hread, ?_, ?_⟩
    · intro key hkey bar₀ bar hbar₀ hbar
      have hvalue := hlaw.restored key hkey bar₀ hbar₀
      rw [hget, if_pos (slotLike_of_mem_slotKeys hkey), hbar] at hvalue
      exact LedgerBar.perRest_eq_iff.mp (Option.some.inj hvalue)
    · intro key bar hbar hslot hforeign
      have hsame : p.rested.ledger.get? key = p.played.ledger.get? key := by
        rcases hforeign with hkey | ⟨other, hother, hkey⟩
        · exact hlaw.kept key hkey
        · exact hlaw.others other hother key hkey
      rw [hget, if_pos hslot, hbar] at hsame
      exact LedgerBar.rested_eq_self_iff.mp (Option.some.inj hsame)
  · rintro ⟨hread, hown, hforeign⟩
    obtain ⟨result, hexec, hagain, hget⟩ := hspec hread
    -- a key that is not the actor's alone keeps what it has
    have hkept : ∀ key, (key ∉ slotKeys p.config p.actor ∨
        ∃ other ∈ p.others, key ∈ characterKeys p.config other) →
          p.rested.ledger.get? key = p.played.ledger.get? key := by
      intro key hkey
      rw [hget]
      split_ifs with hslot
      · cases hbar : p.played.ledger.get? key with
        | none => rfl
        | some bar =>
          exact congrArg some (LedgerBar.rested_eq_self_iff.mpr (hforeign key bar hbar hslot hkey))
      · rfl
    constructor
    · exact ⟨result, hexec⟩
    · intro key hkey bar₀ hbar₀
      have hmem : key ∈ p.played.ledger.keys :=
        sequel_run p.enrolled p.after (Dict.mem_keys_of_get? hbar₀)
      obtain ⟨bar, hbar⟩ := Dict.mem_keys_iff_get?.mp hmem
      rw [hget, if_pos (slotLike_of_mem_slotKeys hkey), hbar]
      exact congrArg some (LedgerBar.perRest_eq_iff.mpr (hown key hkey bar₀ bar hbar₀ hbar))
    · exact fun other hother key hkey => hkept key (.inr ⟨other, hother, hkey⟩)
    · exact fun key hkey => hkept key (.inl hkey)
    · rw [hagain, hexec]

/-! ### A mage with a slot spent -/

/-- The slots of the first level: two for a mage. -/
def mageSlots : LedgerBarSpec where
  id := "slots_l1"
  scope := .character
  direction := .down
  lo := 0
  hi := 4
  thresholdLow := some 0
  startsAtChargen := .byClass (Dict.empty.insert "Mage" 2)
  lo_lt_hi := by decide +kernel
  low_declared _ := rfl
  high_declared := high_declared_down
  low_mem := by decide +kernel
  high_mem := by decide +kernel
  starts_mem := by decide +kernel
  starts_ne_nil := by decide
  starts_scope _ := rfl

/-- A working that costs one slot. -/
def oneSlot : MagicWorking where
  actor := "rux"
  costs := Dict.empty.insert "slots_l1" 1
  costs_nonneg := by decide +kernel

/-- A mage joins, spends a slot, and rests. -/
def spentMage : Play where
  config := ⟨"reach", [mageSlots]⟩
  before := []
  actor := "rux"
  characterClass := some "Mage"
  after := [.applyWorking oneSlot]

/-- The slot stays spent. -/
theorem not_restLaw_mage : ¬ ∀ p : Play, RestLaw p := by
  intro hall
  have hrestored := (hall spentMage).restored "character|rux|slots_l1" (by decide +kernel)
  have hspent : (spentMage.rested.ledger.get? "character|rux|slots_l1").map LedgerBar.value =
      some 1 := by decide +kernel
  rw [hspent] at hrestored
  exact absurd hrestored (by decide +kernel)

end

/-! ### Reading keys back -/

/-- The text before and after the first separator. -/
def splitOnce (sep : Char) (l : List Char) : Option (List Char × List Char) :=
  match l.dropWhile (· ≠ sep) with
  | [] => none
  | _ :: after => some (l.takeWhile (· ≠ sep), after)

/-- The scope of a name. -/
def Scope.ofName? (name : String) : Option Scope :=
  [Scope.character, .world, .item, .faction, .location, .bondPair].find? (fun s => s.name = name)

/-- Read a key: `split` at the first two bars, and a scope that is known. -/
def BarKey.deserialize (text : String) : Option BarKey :=
  match splitOnce '|' text.toList with
  | none => none
  | some (scope, rest) =>
    match splitOnce '|' rest with
    | none => none
    | some (owner, bar) => (Scope.ofName? (String.ofList scope)).map
        (fun scope => ⟨scope, String.ofList owner, String.ofList bar⟩)

theorem splitOnce_append {sep : Char} {l : List Char} (h : sep ∉ l) (after : List Char) :
    splitOnce sep (l ++ sep :: after) = some (l, after) := by
  have hall : ∀ c ∈ l, (decide (c ≠ sep)) = true := by
    intro c hc
    rw [decide_eq_true_eq]
    rintro rfl
    exact h hc
  unfold splitOnce
  rw [List.dropWhile_append_of_pos hall, List.takeWhile_append_of_pos hall]
  simp

/-- What stands before the first separator has none. -/
theorem not_mem_of_splitOnce {sep : Char} {l before after : List Char}
    (h : splitOnce sep l = some (before, after)) : sep ∉ before := by
  unfold splitOnce at h
  split at h
  · simp at h
  · cases h
    intro hmem
    have hne := List.mem_takeWhile_imp hmem
    simp at hne

theorem ofName?_name (scope : Scope) : Scope.ofName? scope.name = some scope := by
  cases scope <;> decide

theorem bar_not_mem_name (scope : Scope) : '|' ∉ scope.name.toList := by
  cases scope <;> decide

variable (key : BarKey)

theorem toList_serialize : key.serialize.toList =
    key.scope.name.toList ++ '|' :: (key.ownerId.toList ++ '|' :: key.barId.toList) := by
  unfold BarKey.serialize
  have hbar : "|".toList = ['|'] := by decide
  simp only [String.toList_append, hbar, List.append_assoc, List.cons_append, List.nil_append]

theorem deserialize_serialize : BarKey.deserialize key.serialize =
    (splitOnce '|' (key.ownerId.toList ++ '|' :: key.barId.toList)).map
      (fun parts => ⟨key.scope, String.ofList parts.1, String.ofList parts.2⟩) := by
  unfold BarKey.deserialize
  rw [toList_serialize, splitOnce_append (bar_not_mem_name key.scope)]
  dsimp only
  rw [String.ofList_toList, ofName?_name]
  cases splitOnce '|' (key.ownerId.toList ++ '|' :: key.barId.toList) <;> rfl

/-- **A key is read back** exactly if its owner has no bar in the name. -/
theorem deserialize_serialize_iff :
    BarKey.deserialize key.serialize = some key ↔ '|' ∉ key.ownerId.toList := by
  rw [deserialize_serialize]
  constructor
  · intro h
    obtain ⟨⟨owner, bar⟩, hsplit, hkey⟩ := Option.map_eq_some_iff.mp h
    have howner : String.ofList owner = key.ownerId := congrArg BarKey.ownerId hkey
    rw [← howner, String.toList_ofList]
    exact not_mem_of_splitOnce hsplit
  · intro h
    rw [splitOnce_append h]
    simp

/-- Keys of owners without a bar in their names are told apart. -/
theorem serialize_inj {key key' : BarKey} (h : '|' ∉ key.ownerId.toList)
    (h' : '|' ∉ key'.ownerId.toList) (heq : key.serialize = key'.serialize) : key = key' := by
  have hread := (deserialize_serialize_iff key).mpr h
  rw [heq, (deserialize_serialize_iff key').mpr h'] at hread
  exact (Option.some.inj hread).symm

theorem serialize_of_startsWith {actor : String} {key : BarKey} (hactor : '|' ∉ actor.toList)
    (howner : '|' ∉ key.ownerId.toList)
    (h : startsWith ("character|" ++ actor ++ "|") key.serialize = true) :
    key.scope = .character ∧ key.ownerId = actor := by
  unfold startsWith at h
  rw [List.isPrefixOf_iff_prefix] at h
  obtain ⟨text, htext⟩ := h
  have hkey : (⟨.character, actor, String.ofList text⟩ : BarKey).serialize = key.serialize := by
    apply String.toList_inj.mp
    rw [toList_serialize, ← htext]
    have hcharacter : "character|".toList = Scope.character.name.toList ++ ['|'] := by decide
    have hbar : "|".toList = ['|'] := by decide
    simp [String.toList_append, hcharacter, hbar]
  have hsame := serialize_inj hactor howner hkey
  rw [← hsame]
  exact ⟨rfl, rfl⟩

theorem prefix_serialize (actor barId : String) :
    startsWith ("character|" ++ actor ++ "|") (BarKey.serialize ⟨.character, actor, barId⟩)
      = true := by
  unfold startsWith
  rw [toList_serialize]
  have hcharacter : "character|".toList = Scope.character.name.toList ++ ['|'] := by decide
  have hbar : "|".toList = ['|'] := by decide
  simp [String.toList_append, hcharacter, hbar]

/-! ### What leaves a bar alone -/

/-- The bar of a key is as it was, under the same configuration. -/
def SameBar (s s' : MagicState) : Prop :=
  s'.config = s.config ∧ s'.bar? key = s.bar? key

instance (key : BarKey) : IsPreorder MagicState (SameBar key) where
  refl _ := ⟨rfl, rfl⟩
  trans _ _ _ h h' := ⟨h'.1.trans h.1, h'.2.trans h.2⟩

section SameBar

variable {key : BarKey} {s s' : MagicState}

theorem sameBar_putValue {name : String} (hne : key.serialize ≠ name) (value : ℚ) :
    SameBar key s (s.putValue name value) := by
  refine ⟨rfl, ?_⟩
  unfold MagicState.bar?
  rw [MagicState.get?_putValue, if_neg hne]

theorem routeCost_congr {working : MagicWorking} {costType : String}
    (hconfig : s'.config = s.config) :
    s'.routeCost working costType = s.routeCost working costType := by
  unfold MagicState.routeCost
  rw [hconfig]

/-- A cost that is not aimed at a bar leaves it alone, where owners have no bar in their names. -/
theorem sameBar_applyWorking {working : MagicWorking} (howner : '|' ∉ key.ownerId.toList)
    (hactor : '|' ∉ working.actor.toList) (hworld : '|' ∉ s.config.worldSlug.toList)
    (hitem : ∀ id ∈ working.itemId, '|' ∉ id.toList)
    (haim : ∀ costType ∈ working.costs.keys, s.routeCost working costType ≠ some key) :
    SameBar key s ((applyWorking working).exec s).2 := by
  -- the owner that a cost is aimed at is the actor, the world, or the item
  have hroute : ∀ costType key', s.routeCost working costType = some key' →
      '|' ∉ key'.ownerId.toList := by
    intro costType key' hkey'
    obtain ⟨hid, hscope⟩ := ownerId_of_routeCost hkey'
    rw [hid]
    rcases hscope with hscope | hscope | hscope <;> rw [hscope]
    · exact hactor
    · exact hworld
    · show '|' ∉ (working.itemId.getD "").toList
      cases hid : working.itemId with
      | none => simp
      | some id => exact hitem id hid
  have hcosts : ∀ (costs : List (String × ℚ)) (acc : MagicState × ApplyWorkingResult),
      (∀ cost ∈ costs, s.routeCost working cost.1 ≠ some key) → SameBar key s acc.1 →
        SameBar key s (costs.foldl (applyCost working) acc).1 := by
    intro costs
    induction costs with
    | nil => exact fun acc _ hacc => hacc
    | cons cost costs ih =>
      intro acc haim hacc
      refine ih _ (fun c hc => haim c (.tail cost hc)) ?_
      cases hcharged : acc.1.charged working cost.1 with
      | none =>
        rw [applyCost_of_none hcharged]
        exact hacc
      | some charged =>
        rw [applyCost_of_some hcharged]
        obtain ⟨hkey', -⟩ := charged_eq_some_iff.mp hcharged
        rw [routeCost_congr hacc.1] at hkey'
        refine trans_of (SameBar key) hacc (sameBar_putValue ?_ _)
        intro hsame
        rw [serialize_inj howner (hroute _ _ hkey') hsame] at haim
        exact haim cost (.head _) hkey'
  unfold applyWorking
  rw [exec_get_bind]
  split
  · exact refl_of (SameBar key) s
  · refine hcosts working.costs.entries (s, {}) (fun cost hcost => ?_) ⟨rfl, rfl⟩
    exact haim cost.1 (List.mem_map_of_mem hcost)

/-- A rest leaves the bars of others alone. -/
theorem sameBar_rest {actor : String} (howner : '|' ∉ key.ownerId.toList)
    (hactor : '|' ∉ actor.toList) (hother : key.scope ≠ .character ∨ key.ownerId ≠ actor) :
    SameBar key s ((rest readInt actor).exec s).2 := by
  have hbar : ∀ (restored : Dict Int ℚ) (name : String),
      Preserves (SameBar key) (restoreBar readInt actor restored name) := by
    intro restored name t
    rw [exec_restoreBar]
    split_ifs with hslot
    · have hne : key.serialize ≠ name := by
        rintro rfl
        -- what is like a slot of the actor begins like the keys of the actor
        have hbegins : startsWith ("character|" ++ actor ++ "|") key.serialize = true := by
          unfold slotLike startsWith at hslot
          unfold startsWith
          rw [List.isPrefixOf_iff_prefix] at hslot ⊢
          refine List.IsPrefix.trans ?_ hslot
          refine ⟨"slots_l".toList, ?_⟩
          have hslots : "|slots_l".toList = "|".toList ++ "slots_l".toList := by decide
          simp only [String.toList_append, List.append_assoc, hslots]
        obtain ⟨hscope, hid⟩ := serialize_of_startsWith hactor howner hbegins
        rcases hother with h | h
        · exact h hscope
        · exact h hid
      split
      · exact refl_of (SameBar key) t
      · exact sameBar_putValue hne _
      · exact sameBar_putValue hne _
    · exact refl_of (SameBar key) t
  rw [exec_rest]
  have hloop := preserves_foldlM hbar s.ledger.keys .empty s
  rcases hexec : (s.ledger.keys.foldlM (restoreBar readInt actor) .empty).exec s with ⟨e | r, t⟩
  · rw [hexec] at hloop
    exact hloop
  · rw [hexec] at hloop
    exact hloop

theorem sameBar_runHandler {actor : String} {context : OutputContext}
    (howner : '|' ∉ key.ownerId.toList) (hactor : '|' ∉ actor.toList)
    (hworld : '|' ∉ s.config.worldSlug.toList)
    (hother : ¬ (key.scope = .character ∧ key.ownerId = actor))
    (hother' : ¬ (key.scope = .world ∧ key.ownerId = s.config.worldSlug))
    (handler : OutputHandler) : SameBar key s (s.runHandler actor context handler) := by
  have hshift : ∀ (aimed : BarKey) (amount : ℚ), key ≠ aimed → '|' ∉ aimed.ownerId.toList →
      SameBar key s (s.shiftBar aimed amount) := by
    intro aimed amount hne haimed
    unfold MagicState.shiftBar
    cases s.bar? aimed with
    | none => exact refl_of (SameBar key) s
    | some bar => exact sameBar_putValue (fun hsame => hne (serialize_inj howner haimed hsame)) _
  cases handler with
  | shiftBar barId amount =>
    exact hshift _ amount (fun hsame => hother (by rw [hsame]; exact ⟨rfl, rfl⟩)) hactor
  | shiftWorldBar barId amount =>
    exact hshift _ amount (fun hsame => hother' (by rw [hsame]; exact ⟨rfl, rfl⟩)) hworld
  | queueStatus severity fallback => exact ⟨rfl, rfl⟩
  | controlTierAdvance => exact ⟨rfl, rfl⟩
  | clearBleedingThrough => exact ⟨rfl, rfl⟩
  | noop => exact ⟨rfl, rfl⟩
  | rig output => exact ⟨rfl, rfl⟩

end SameBar

/-! ### Owners apart -/

/-- What tells the bars of owners apart: keys are read back, and costs, rests and outputs not aimed
    at a bar leave it alone. -/
structure KeysApart (Owner : String → Prop) : Prop where
  readBack : ∀ key : BarKey, Owner key.ownerId → BarKey.deserialize key.serialize = some key
  distinct : ∀ key key' : BarKey, Owner key.ownerId → Owner key'.ownerId → key ≠ key' →
    key.serialize ≠ key'.serialize
  cost : ∀ (s : MagicState) (working : MagicWorking) (key : BarKey), Owner key.ownerId →
    Owner working.actor → Owner s.config.worldSlug → (∀ id ∈ working.itemId, Owner id) →
      (∀ costType ∈ working.costs.keys, s.routeCost working costType ≠ some key) →
        ((applyWorking working).exec s).2.bar? key = s.bar? key
  rest : ∀ (s : MagicState) (actor : String) (key : BarKey), Owner key.ownerId → Owner actor →
    (key.scope ≠ .character ∨ key.ownerId ≠ actor) →
      ((rest readInt actor).exec s).2.bar? key = s.bar? key
  output : ∀ (s : MagicState) (actor : String) (context : OutputContext)
    (handler : OutputHandler) (key : BarKey), Owner key.ownerId → Owner actor →
      Owner s.config.worldSlug → ¬ (key.scope = .character ∧ key.ownerId = actor) →
        ¬ (key.scope = .world ∧ key.ownerId = s.config.worldSlug) →
          (s.runHandler actor context handler).bar? key = s.bar? key
  actors : ∀ (s : MagicState) (keys : List BarKey), s.ledger.keys = keys.map BarKey.serialize →
    (∀ key ∈ keys, Owner key.ownerId) → ∀ working : MagicWorking, Owner working.actor →
      ((∃ s', (applyWorking working).exec s = (.error (.unknownActor working.actor), s')) ↔
        ∀ key ∈ keys, ¬ (key.scope = .character ∧ key.ownerId = working.actor))

theorem applyWorking_refused_iff (working : MagicWorking) (s : MagicState) :
    (∃ s', (applyWorking working).exec s = (.error (.unknownActor working.actor), s')) ↔
      ∀ name ∈ s.ledger.keys, startsWith ("character|" ++ working.actor ++ "|") name = false := by
  unfold applyWorking
  rw [exec_get_bind]
  split
  · rename_i hnone
    rw [Bool.not_eq_true', List.any_eq_false] at hnone
    refine iff_of_true ⟨s, rfl⟩ (fun name hname => ?_)
    exact Bool.eq_false_iff.mpr (hnone name hname)
  · rename_i hsome
    refine iff_of_false ?_ ?_
    · rintro ⟨s', h⟩
      exact not_returned_of_raised h rfl
    · intro hall
      apply hsome
      rw [Bool.not_eq_true', List.any_eq_false]
      intro name hname
      rw [hall name hname]
      exact Bool.false_ne_true

/-- **Owners are told apart** exactly if none of their names has a bar in it. -/
theorem keysApart_iff (Owner : String → Prop) :
    KeysApart Owner ↔ ∀ owner, Owner owner → '|' ∉ owner.toList := by
  constructor
  · intro hapart owner howner
    exact (deserialize_serialize_iff ⟨.character, owner, ""⟩).mp (hapart.readBack _ howner)
  · intro hfree
    constructor
    · exact fun key howner => (deserialize_serialize_iff key).mpr (hfree _ howner)
    · exact fun key key' howner howner' hne hsame =>
        hne (serialize_inj (hfree _ howner) (hfree _ howner') hsame)
    · exact fun s working key howner hactor hworld hitem haim =>
        (sameBar_applyWorking (hfree _ howner) (hfree _ hactor) (hfree _ hworld)
          (fun id hid => hfree _ (hitem id hid)) haim).2
    · exact fun s actor key howner hactor hother =>
        (sameBar_rest (hfree _ howner) (hfree _ hactor) hother).2
    · exact fun s actor context handler key howner hactor hworld hother hother' =>
        (sameBar_runHandler (hfree _ howner) (hfree _ hactor) (hfree _ hworld) hother hother'
          handler).2
    · intro s keys hkeys howners working hactor
      rw [applyWorking_refused_iff, hkeys]
      simp only [List.mem_map, forall_exists_index, and_imp, forall_apply_eq_imp_iff₂]
      constructor
      · rintro hall ⟨scope, ownerId, barId⟩ hkey ⟨hscope, hid⟩
        obtain rfl : scope = .character := hscope
        obtain rfl : ownerId = working.actor := hid
        exact absurd (hall _ hkey) (by simp [prefix_serialize])
      · intro hall key hkey
        rw [Bool.eq_false_iff]
        intro hbegins
        exact hall key hkey
          (serialize_of_startsWith (hfree _ hactor) (hfree _ (howners key hkey)) hbegins)

/-- Two characters are not told apart if one is named like the other with a bar and a slot. -/
theorem not_keysApart_bar : ¬ KeysApart (fun owner => owner = "rux" ∨ owner = "rux|slots_l1") := by
  intro hapart
  exact hapart.distinct ⟨.character, "rux|slots_l1", "slots_l1"⟩
    ⟨.character, "rux", "slots_l1|slots_l1"⟩ (.inr rfl) (.inl rfl) (by decide) (by decide)

end Sidequest.Magic
