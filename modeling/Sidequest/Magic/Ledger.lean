import Sidequest.Lib.Run
import Sidequest.Magic.State

namespace Sidequest.Magic

open Lib Effect

/-!
# What holds of the ledger

Every writer of the ledger, preparing, casting and resting included, keeps every bar within its
range; only a working reports the thresholds it crosses, and it reports these exactly.

* `prepare`, `cast`, `rest` — the spells of an actor, and the slots they use;
* `MagicEvent`, `step` — the magic state as a system: `ledger_law`;
  `not_crossings_decrement` — a threshold that is crossed without a report.
-/

/-! ### Spells -/

variable (spec : LedgerBarSpec) (value : ℚ)

section

/-- The bar of an actor's slots of a level. -/
def slotBarKey (actor : String) (level : Int) : BarKey :=
  ⟨.character, actor, "slots_l" ++ toString level⟩

/-- The value that a slot bar is refreshed to: its start, or for a class-keyed one the value it
    has. -/
def LedgerBar.perRest (bar : LedgerBar) : ℚ :=
  match bar.spec.startsAtChargen with
  | .scalar value => value
  | .byClass _ => bar.value

/-- `int(value)`: towards zero. -/
def truncate : Int := if 0 ≤ value then ⌊value⌋ else ⌈value⌉

/-! ### Preparing -/

/-- What preparing has changed. -/
structure PrepareResult where
  actor : String
  prepared : Dict Int (List String)
  slotsUsedPerLevel : List (Int × Nat)

/-- Check one level of a preparation: its spells are known, and within the budget, which is the
    value of its slot bar. -/
def checkLevel (actor : String) (known : List String) (entry : Int × List String) :
    MagicM PUnit := do
  match entry.2.find? (fun spell => spell ∉ known) with
  | some spell => throw (.unknownSpell spell actor)
  | none => do
    let s ← get
    match s.bar? (slotBarKey actor entry.1) with
    | none => throw (.noSlotBar actor entry.1)
    | some bar =>
      if truncate bar.value < entry.2.length then
        throw (.overBudget entry.1 entry.2.length (truncate bar.value))
      else pure ⟨⟩

/-- Refresh the slot bar of one level. -/
def refreshLevel (actor : String) (entry : Int × List String) : MagicM PUnit := do
  let bar ← getBar (slotBarKey actor entry.1)
  setBarValue (slotBarKey actor entry.1) bar.perRest

/-- Replace the prepared spells of an actor. -/
def prepare (actor : String) (prep : Dict Int (List String)) : MagicM PrepareResult := do
  let s ← get
  let known := (s.knownSpells.get? actor).getD []
  prep.entries.forM (checkLevel actor known)
  modify fun s => { s with preparedSpells := s.preparedSpells.insert actor prep }
  prep.entries.forM (refreshLevel actor)
  pure ⟨actor, prep, prep.entries.map (fun entry => (entry.1, entry.2.length))⟩

/-! ### Casting -/

/-- What casting has done. -/
structure CastResult where
  (actor spellId : String)
  slotConsumed : Bool

/-- Cast a prepared spell. -/
def cast (working : MagicWorking) : MagicM CastResult :=
  match working.spellId, working.slotLevel with
  | some spell, some level => do
    let s ← get
    let prepared := (((s.preparedSpells.get? working.actor).getD .empty).get? level).getD []
    if spell ∉ prepared then throw (.notPrepared spell working.actor level)
    else do
      let bar ← getBar (slotBarKey working.actor level)
      if bar.value ≤ 0 then throw (.noSlotsRemaining working.actor level)
      else do
        let _ ← applyWorking working
        pure ⟨working.actor, spell, true⟩
  | _, _ => throw .noSpellNamed

/-! ### Resting -/

/-- What a rest has restored. -/
structure RestResult where
  actor : String
  slotsRestored : Dict Int ℚ

/-- What stands after the last occurrence of a text. -/
def afterLast (sep : List Char) : List Char → Option (List Char)
  | [] => none
  | c :: cs =>
    match afterLast sep cs with
    | some rest => some rest
    | none => if sep.isPrefixOf (c :: cs) then some ((c :: cs).drop sep.length) else none

/-- The text of the level in the key of a slot bar. -/
def levelText (key : String) : String :=
  String.ofList ((afterLast "slots_l".toList key.toList).getD [])

section Rest

-- `int(text)`, for the texts that it takes
variable (parseInt : String → Option Int)

/-- Restore one bar of the ledger, if it is a slot bar of the actor. -/
def restoreBar (actor : String) (restored : Dict Int ℚ) (key : String) :
    MagicM (Dict Int ℚ) := do
  let s ← get
  if !startsWith ("character|" ++ actor ++ "|slots_l") key then pure restored
  else
    match s.ledger.get? key with
    | none => pure restored
    | some bar => do
      set (s.putValue key bar.perRest)
      match parseInt (levelText key) with
      | none => throw (.noLevel (levelText key))
      | some level => pure (restored.insert level bar.perRest)

/-- Restore the slots of an actor. -/
def rest (actor : String) : MagicM RestResult := do
  let s ← get
  let restored ← s.ledger.keys.foldlM (restoreBar parseInt actor) .empty
  modify fun s => { s with
    preparedSpells := s.preparedSpells.insert actor .empty
    spentSpells := s.spentSpells.insert actor .empty }
  pure ⟨actor, restored⟩

end Rest

end

/-! ### Values -/

/-- The value is within the range of the bar. -/
def LedgerBar.InRange (bar : LedgerBar) : Prop :=
  bar.spec.lo ≤ bar.value ∧ bar.value ≤ bar.spec.hi

theorem LedgerBarSpec.clamp_mem : spec.lo ≤ spec.clamp value ∧ spec.clamp value ≤ spec.hi := by
  unfold LedgerBarSpec.clamp
  exact ⟨le_max_left _ _, max_le (le_of_lt spec.lo_lt_hi) (min_le_left _ _)⟩

/-- A charge ends between the bounds. -/
theorem LedgerBarSpec.charge_mem (prev amount : ℚ) :
    spec.lo ≤ spec.charge prev amount ∧ spec.charge prev amount ≤ spec.hi := by
  unfold LedgerBarSpec.charge
  split
  · exact spec.clamp_mem _
  · exact spec.clamp_mem _

/-- Every bar of a ledger is within its range. -/
def LedgerInRange (ledger : Dict String LedgerBar) : Prop :=
  ∀ key bar, ledger.get? key = some bar → bar.InRange

namespace MagicState

/-- Every bar of the state's ledger is. -/
def InRange (s : MagicState) : Prop := LedgerInRange s.ledger

/-- A value that is put onto a bar is found there; the other bars are as they were. -/
theorem get?_putValue (s : MagicState) (key : String) (value : ℚ) (key' : String) :
    (s.putValue key value).ledger.get? key' =
      if key' = key then (s.ledger.get? key).map (fun bar => { bar with value := value })
      else s.ledger.get? key' := by
  unfold putValue
  rw [Dict.get?_modify]

/-- A value between the bounds can be put on a bar. -/
theorem InRange.putValue {s : MagicState} (h : s.InRange) {key : String} {value : ℚ}
    (hvalue : ∀ bar, s.ledger.get? key = some bar → bar.spec.lo ≤ value ∧ value ≤ bar.spec.hi) :
    (s.putValue key value).InRange := by
  intro key' bar' hbar'
  rw [get?_putValue] at hbar'
  split at hbar'
  · obtain ⟨bar, hbar, rfl⟩ := Option.map_eq_some_iff.mp hbar'
    exact hvalue bar hbar
  · exact h key' bar' hbar'

end MagicState

/-! ### The writers keep the bars within their ranges -/

/-- From a state whose bars are within their ranges it leads to one. -/
def Keeps (s s' : MagicState) : Prop := s.InRange → s'.InRange

instance : IsPreorder MagicState Keeps where
  refl _ := id
  trans _ _ _ h h' := fun hs => h' (h hs)

variable {s' : MagicState}

/-- Whether the values are within their bounds is up to the ledger. -/
theorem keeps_of_ledger {s : MagicState} (h : s'.ledger = s.ledger) : Keeps s s' := by
  intro hs key bar hbar
  rw [h] at hbar
  exact hs key bar hbar

/-- Looking for a bar finds it, or raises, and changes nothing. -/
theorem exec_getBar (key : BarKey) (s : MagicState) :
    (getBar key).exec s = ((s.bar? key).elim (.error (.noBar key.serialize)) .ok, s) := by
  unfold getBar
  rw [exec_get_bind]
  cases s.bar? key with
  | none => rfl
  | some bar => rfl

/-- Setting the value of a bar keeps the values between their bounds. -/
theorem keeps_setBarValue (key : BarKey) (value : ℚ) : Preserves Keeps (setBarValue key value) := by
  intro s
  unfold setBarValue
  rw [exec_bind, exec_getBar]
  cases hbar : s.bar? key with
  | none => exact refl_of Keeps s
  | some bar =>
    intro hs
    refine hs.putValue (fun bar' hbar' => ?_)
    cases hbar.symm.trans hbar'
    exact bar.spec.clamp_mem value

theorem keeps_applyCost (working : MagicWorking) (acc : MagicState × ApplyWorkingResult)
    (cost : String × ℚ) : Keeps acc.1 (applyCost working acc cost).1 := by
  intro hs
  unfold applyCost
  split
  · exact hs
  · split
    · exact hs
    · rename_i bar hbar
      refine hs.putValue (fun bar' hbar' => ?_)
      cases hbar.symm.trans hbar'
      exact bar.spec.charge_mem bar.value cost.2

/-- **A working** keeps the values between their bounds. -/
theorem keeps_applyWorking (working : MagicWorking) : Preserves Keeps (applyWorking working) := by
  have hcosts : ∀ (costs : List (String × ℚ)) (acc : MagicState × ApplyWorkingResult),
      Keeps acc.1 (costs.foldl (applyCost working) acc).1 := by
    intro costs
    induction costs with
    | nil => exact fun acc => refl_of Keeps acc.1
    | cons cost costs ih =>
      exact fun acc => trans_of Keeps (keeps_applyCost working acc cost) (ih _)
  intro s
  unfold applyWorking
  rw [exec_get_bind]
  split
  · exact refl_of Keeps s
  · exact trans_of Keeps (hcosts working.costs.entries (s, {})) (keeps_of_ledger rfl)

/-- A start that was resolved is one of the declared ones. -/
theorem mem_values_of_resolve {spec : LedgerBarSpec} {characterClass : Option String}
    {characterId : String} {value : ℚ}
    (h : resolveStartsAtChargen spec characterClass characterId = .ok value) :
    value ∈ spec.startsAtChargen.values := by
  unfold resolveStartsAtChargen at h
  cases hstarts : spec.startsAtChargen with
  | scalar start =>
    rw [hstarts] at h
    cases h
    exact List.mem_singleton_self _
  | byClass values =>
    rw [hstarts] at h
    dsimp only at h
    split at h
    · simp at h
    · split at h
      · simp at h
      · rename_i name value' hvalue
        cases h
        exact List.mem_map.mpr ⟨_, Dict.get?_eq_some_iff.mp hvalue, rfl⟩

/-- A bar at one of its declared starts can be added. -/
theorem LedgerInRange.insert {ledger : Dict String LedgerBar} (h : LedgerInRange ledger)
    (key : String) {spec : LedgerBarSpec} {value : ℚ}
    (hvalue : value ∈ spec.startsAtChargen.values) :
    LedgerInRange (ledger.insert key ⟨spec, value⟩) := by
  intro key' bar hbar
  rw [Dict.get?_insert] at hbar
  split at hbar
  · cases hbar
    exact spec.starts_mem value hvalue
  · exact h key' bar hbar

/-- A new character brings bars that start between their bounds. -/
theorem keeps_addCharacter (characterId : String) (characterClass : Option String) :
    Preserves Keeps (addCharacter characterId characterClass) := by
  refine preserves_get.bind (fun s => preserves_forM (fun spec s' => ?_) _)
  unfold addBar
  rw [exec_get_bind]
  dsimp only
  split
  · exact refl_of Keeps s'
  · cases hvalue : resolveStartsAtChargen spec characterClass characterId with
    | error e => exact refl_of Keeps s'
    | ok value => exact fun hs => LedgerInRange.insert hs _ (mem_values_of_resolve hvalue)

/-- So does a new item. -/
theorem keeps_addItem (itemId : String) (bondTemplate historyTemplate : Option LedgerBarSpec) :
    Preserves Keeps (addItem itemId bondTemplate historyTemplate) := by
  refine preserves_forM (fun template s => ?_) _
  unfold addItemBar
  cases hstarts : template.startsAtChargen with
  | scalar value =>
    refine fun hs => LedgerInRange.insert hs _ ?_
    rw [hstarts]
    exact List.mem_singleton_self _
  | byClass values => exact refl_of Keeps s

theorem keeps_prepare (actor : String) (prep : Dict Int (List String)) :
    Preserves Keeps (prepare actor prep) := by
  have hcheck : ∀ known entry, Preserves Keeps (checkLevel actor known entry) := by
    intro known entry s
    unfold checkLevel
    split
    · exact refl_of Keeps s
    · rw [exec_get_bind]
      split
      · exact refl_of Keeps s
      · split
        · exact refl_of Keeps s
        · exact refl_of Keeps s
  have hrefresh : ∀ entry, Preserves Keeps (refreshLevel actor entry) := by
    intro entry
    refine Preserves.bind (fun s => ?_) (fun bar => keeps_setBarValue _ _)
    rw [exec_getBar]
    exact refl_of Keeps s
  refine preserves_get.bind (fun s => (preserves_forM (hcheck _) _).bind (fun _ => ?_))
  refine Preserves.bind (preserves_modify (fun s => keeps_of_ledger rfl)) (fun _ => ?_)
  exact (preserves_forM hrefresh _).bind (fun _ => preserves_pure _)

/-- **A cast** keeps the values between their bounds. -/
theorem keeps_cast (working : MagicWorking) : Preserves Keeps (cast working) := by
  unfold cast
  split
  · refine preserves_get.bind (fun s => ?_)
    refine Preserves.ite (preserves_throw _) (Preserves.bind (fun s => ?_) (fun bar => ?_))
    · rw [exec_getBar]
      exact refl_of Keeps s
    · exact Preserves.ite (preserves_throw _)
        ((keeps_applyWorking working).bind (fun _ => preserves_pure _))
  · exact preserves_throw _

/-- **A rest** keeps the values between their bounds. -/
theorem keeps_rest (parseInt : String → Option Int) (actor : String) :
    Preserves Keeps (rest parseInt actor) := by
  have hrestore : ∀ restored key, Preserves Keeps (restoreBar parseInt actor restored key) := by
    intro restored key s
    unfold restoreBar
    rw [exec_get_bind]
    split
    · exact refl_of Keeps s
    · split
      · exact refl_of Keeps s
      · rename_i bar hbar
        have hput : Keeps s (s.putValue key bar.perRest) := by
          intro hs
          refine hs.putValue (fun bar' hbar' => ?_)
          cases hbar.symm.trans hbar'
          unfold LedgerBar.perRest
          split
          · rename_i value hstarts
            refine bar.spec.starts_mem value ?_
            rw [hstarts]
            exact List.mem_singleton_self _
          · exact hs key bar hbar
        split
        · exact hput
        · exact hput
  refine preserves_get.bind (fun _ => ?_)
  refine Preserves.bind (preserves_foldlM hrestore _ _) (fun _ => ?_)
  exact Preserves.bind (preserves_modify (fun s => keeps_of_ledger rfl)) (fun _ => preserves_pure _)

theorem keeps_learnSpell (actor spell : String) : Preserves Keeps (learnSpell actor spell) :=
  preserves_modify (fun _ => keeps_of_ledger rfl)

theorem keeps_shiftBar (s : MagicState) (key : BarKey) (amount : ℚ) :
    Keeps s (s.shiftBar key amount) := by
  intro hs
  unfold MagicState.shiftBar
  split
  · exact hs
  · rename_i bar hbar
    refine hs.putValue (fun bar' hbar' => ?_)
    cases hbar.symm.trans hbar'
    exact bar.spec.clamp_mem _

/-- So does every handler of an output. -/
theorem keeps_runHandler (s : MagicState) (actor : String) (context : OutputContext)
    (handler : OutputHandler) : Keeps s (s.runHandler actor context handler) := by
  cases handler with
  | shiftBar barId amount => exact keeps_shiftBar s _ amount
  | shiftWorldBar barId amount => exact keeps_shiftBar s _ amount
  | queueStatus severity fallback => exact keeps_of_ledger rfl
  | controlTierAdvance => exact keeps_of_ledger rfl
  | clearBleedingThrough => exact keeps_of_ledger rfl
  | noop => exact refl_of Keeps s
  | rig output => exact refl_of Keeps s

theorem ledgerInRange_addWorldBar (worldSlug : String) {ledger : Dict String LedgerBar}
    (h : LedgerInRange ledger) (spec : LedgerBarSpec) :
    LedgerInRange (addWorldBar worldSlug ledger spec) := by
  unfold addWorldBar
  split
  · rename_i value _ hstarts
    refine h.insert _ ?_
    rw [hstarts]
    exact List.mem_singleton_self _
  · exact h

/-- **A new state** has all values between their bounds. -/
theorem inRange_fromConfig (config : WorldMagicConfig) : (fromConfig config).InRange := by
  have hbars : ∀ (specs : List LedgerBarSpec) (ledger : Dict String LedgerBar),
      LedgerInRange ledger → LedgerInRange (specs.foldl (addWorldBar config.worldSlug) ledger) := by
    intro specs
    induction specs with
    | nil => exact fun ledger h => h
    | cons spec specs ih =>
      exact fun ledger h => ih _ (ledgerInRange_addWorldBar config.worldSlug h spec)
  exact hbars config.ledgerBars .empty (fun key bar h => nomatch h)

/-! ### What a working reports -/

/-- The bar crosses a threshold that it is declared to fire at: the low one if it may go down, the
    high one if it may go up. -/
def LedgerBarSpec.Crosses (prev new : ℚ) : Prop :=
  (spec.direction ≠ .up ∧ ∃ t ∈ spec.thresholdLow, new ≤ t ∧ t < prev) ∨
    (spec.direction ≠ .down ∧ ∃ t ∈ spec.thresholdHigh, prev < t ∧ t ≤ new)

/-- Standing still crosses no threshold. -/
theorem LedgerBarSpec.not_crosses_self : ¬ spec.Crosses value value := by
  rintro (⟨-, t, -, hle, hlt⟩ | ⟨-, t, -, hlt, hle⟩)
  · exact absurd hle (not_le.mpr hlt)
  · exact absurd hle (not_le.mpr hlt)

/-- What is reported of a bar: that it crosses, if it goes one way only. -/
theorem LedgerBarSpec.crossing_isSome_iff (key : BarKey) (prev new : ℚ) :
    (spec.crossing key prev new).isSome = true ↔
      spec.direction ≠ .bidirectional ∧ spec.Crosses prev new := by
  unfold LedgerBarSpec.crossing LedgerBarSpec.Crosses
  cases spec.direction with
  | up =>
    cases spec.thresholdHigh with
    | none => simp
    | some t => simp
  | down =>
    cases spec.thresholdLow with
    | none => simp
    | some t => simp [and_comm]
  | bidirectional => simp

/-- An event names its bar, the direction and the new value. -/
theorem LedgerBarSpec.eq_of_crossing {spec : LedgerBarSpec} {key : BarKey} {prev new : ℚ}
    {event : ThresholdCrossingEvent} (h : spec.crossing key prev new = some event) :
    event.barKey = key ∧ event.direction = spec.direction ∧ event.newValue = new := by
  unfold LedgerBarSpec.crossing at h
  split at h
  · split at h
    · rename_i hdirection _
      cases h
      exact ⟨rfl, hdirection.symm, rfl⟩
    · simp at h
  · split at h
    · rename_i hdirection _
      cases h
      exact ⟨rfl, hdirection.symm, rfl⟩
    · simp at h
  · simp at h

/-- The bar that a cost is charged to, if it is. -/
def MagicState.charged (s : MagicState) (working : MagicWorking) (costType : String) :
    Option (BarKey × LedgerBar) :=
  (s.routeCost working costType).bind (fun key => (s.bar? key).map (fun bar => (key, bar)))

section Charges

variable {working : MagicWorking} {s : MagicState} {key : BarKey} {bar : LedgerBar}

variable {costType : String}

/-- A cost is charged to a bar that it is routed to and that is there. -/
theorem charged_eq_some_iff : s.charged working costType = some (key, bar) ↔
      s.routeCost working costType = some key ∧ s.bar? key = some bar := by
  unfold MagicState.charged
  rw [Option.bind_eq_some_iff]
  constructor
  · rintro ⟨key', hkey, h⟩
    obtain ⟨bar', hbar, heq⟩ := Option.map_eq_some_iff.mp h
    cases heq
    exact ⟨hkey, hbar⟩
  · rintro ⟨hkey, hbar⟩
    exact ⟨key, hkey, by rw [hbar]; rfl⟩

/-- A cost without a bar changes nothing. -/
theorem applyCost_of_none {acc : MagicState × ApplyWorkingResult} {cost : String × ℚ}
    (h : acc.1.charged working cost.1 = none) : applyCost working acc cost = acc := by
  unfold applyCost
  split
  · rfl
  · rename_i key hkey
    split
    · rfl
    · rename_i bar hbar
      cases h.symm.trans (charged_eq_some_iff.mpr ⟨hkey, hbar⟩)

/-- A cost with a bar is charged to it, and its crossing is reported. -/
theorem applyCost_of_some {acc : MagicState × ApplyWorkingResult} {cost : String × ℚ}
    (h : acc.1.charged working cost.1 = some (key, bar)) :
    applyCost working acc cost =
      (acc.1.putValue key.serialize (bar.spec.charge bar.value cost.2),
        { crossings := acc.2.crossings ++
            (bar.spec.crossing key bar.value (bar.spec.charge bar.value cost.2)).toList
          barChanges := acc.2.barChanges.insert cost.1
            (bar.value, bar.spec.charge bar.value cost.2) }) := by
  obtain ⟨hkey, hbar⟩ := charged_eq_some_iff.mp h
  unfold applyCost
  rw [hkey]
  dsimp only
  rw [hbar]

/-- A cost goes to the bar of its own name. -/
theorem barId_of_routeCost (h : s.routeCost working costType = some key) :
    key.barId = costType := by
  unfold MagicState.routeCost at h
  split at h
  · simp at h
  · split at h
    · rw [← Option.some.inj h]
    · rw [← Option.some.inj h]
    · split at h
      · simp at h
      · split at h
        · simp at h
        · rw [← Option.some.inj h]
    · simp at h
    · simp at h
    · simp at h

/-- The owner of a bar that a working is charged to, by the scope of the bar. -/
def MagicState.ownerOf (s : MagicState) (working : MagicWorking) : Scope → String
  | .character => working.actor
  | .world => s.config.worldSlug
  | _ => working.itemId.getD ""

/-- A cost goes to a bar of the actor, of the world or of an item. -/
theorem ownerId_of_routeCost (h : s.routeCost working costType = some key) :
    key.ownerId = s.ownerOf working key.scope ∧
      (key.scope = .character ∨ key.scope = .world ∨ key.scope = .item) := by
  unfold MagicState.routeCost at h
  split at h
  · simp at h
  · split at h
    · cases h
      exact ⟨rfl, .inl rfl⟩
    · cases h
      exact ⟨rfl, .inr (.inl rfl)⟩
    · split at h
      · simp at h
      · rename_i itemId hitem
        split at h
        · simp at h
        · cases h
          refine ⟨?_, .inr (.inr rfl)⟩
          show itemId = working.itemId.getD ""
          rw [hitem]
          rfl
    · simp at h
    · simp at h
    · simp at h

/-- The scopes that costs are routed to are told apart by their first letters. -/
theorem scope_eq_of_head {scope scope' : Scope}
    (h : scope.name.toList.head? = scope'.name.toList.head?)
    (hscope : scope = .character ∨ scope = .world ∨ scope = .item)
    (hscope' : scope' = .character ∨ scope' = .world ∨ scope' = .item) : scope = scope' := by
  rcases hscope with rfl | rfl | rfl <;> rcases hscope' with rfl | rfl | rfl <;>
    first
    | rfl
    | exact absurd h (by decide)

/-- The first letter of a key tells its scope. -/
theorem head?_serialize (key : BarKey) :
    key.serialize.toList.head? = key.scope.name.toList.head? := by
  unfold BarKey.serialize
  simp only [String.toList_append, List.append_assoc]
  cases key.scope with
  | _ => rfl

/-- In one working, bars of different types of cost have different keys. -/
theorem costType_eq_of_serialize {costType' : String} {key' : BarKey}
    (h : s.routeCost working costType = some key) (h' : s.routeCost working costType' = some key')
    (hkey : key.serialize = key'.serialize) : costType = costType' := by
  obtain ⟨howner, hscope⟩ := ownerId_of_routeCost h
  obtain ⟨howner', hscope'⟩ := ownerId_of_routeCost h'
  have hhead := congrArg (·.toList.head?) hkey
  rw [head?_serialize, head?_serialize] at hhead
  have hsame := scope_eq_of_head hhead hscope hscope'
  rw [← barId_of_routeCost h, ← barId_of_routeCost h']
  unfold BarKey.serialize at hkey
  rw [howner, howner', hsame] at hkey
  have hlist := congrArg String.toList hkey
  simp only [String.toList_append] at hlist
  exact String.toList_inj.mp (List.append_cancel_left hlist)

/-- What is charged of another type does not depend on this bar. -/
theorem charged_putValue {costType' : String} (h : s.routeCost working costType = some key)
    (hne : costType' ≠ costType) (value : ℚ) :
    (s.putValue key.serialize value).charged working costType' = s.charged working costType' := by
  have hroute : (s.putValue key.serialize value).routeCost working costType' =
      s.routeCost working costType' := rfl
  unfold MagicState.charged
  rw [hroute]
  cases hkey' : s.routeCost working costType' with
  | none => rfl
  | some key' =>
    have hother : key'.serialize ≠ key.serialize :=
      fun heq => hne (costType_eq_of_serialize hkey' h heq)
    rw [Option.bind_some, Option.bind_some]
    unfold MagicState.bar?
    rw [MagicState.get?_putValue, if_neg hother]

/-- What some charges have done to the ledger, and what was reported of them: each is made to a
    bar of its own. -/
structure Charged (working : MagicWorking) (costs : List (String × ℚ))
    (acc acc' : MagicState × ApplyWorkingResult) : Prop where
  others : ∀ name, (∀ cost ∈ costs, ∀ key bar, acc.1.charged working cost.1 = some (key, bar) →
    key.serialize ≠ name) → acc'.1.ledger.get? name = acc.1.ledger.get? name
  charged : ∀ cost ∈ costs, ∀ key bar, acc.1.charged working cost.1 = some (key, bar) →
    acc'.1.ledger.get? key.serialize = some { bar with value := bar.spec.charge bar.value cost.2 }
  reported : acc'.2.crossings = acc.2.crossings ++ costs.filterMap (fun cost =>
    (acc.1.charged working cost.1).bind (fun p =>
      p.2.spec.crossing p.1 p.2.value (p.2.spec.charge p.2.value cost.2)))

/-- **Charging.** Costs of different types are charged to different bars. -/
theorem charged_foldl {costs : List (String × ℚ)} (hnodup : (costs.map Prod.fst).Nodup)
    (acc : MagicState × ApplyWorkingResult) :
    Charged working costs acc (costs.foldl (applyCost working) acc) := by
  induction costs generalizing acc with
  | nil => exact ⟨fun _ _ => rfl, by simp, by simp⟩
  | cons cost costs ih =>
    rw [List.map_cons, List.nodup_cons] at hnodup
    rw [List.foldl_cons]
    cases hcharged : acc.1.charged working cost.1 with
    | none =>
      rw [applyCost_of_none hcharged]
      have hrest := ih hnodup.2 acc
      refine ⟨fun name hname => ?_, fun cost' hcost' key bar hkey => ?_, ?_⟩
      · exact hrest.others name (fun cost' hcost' => hname cost' (.tail _ hcost'))
      · rcases List.mem_cons.mp hcost' with rfl | hcost'
        · cases hcharged.symm.trans hkey
        · exact hrest.charged cost' hcost' key bar hkey
      · rw [hrest.reported, List.filterMap_cons, hcharged]
        rfl
    | some p =>
      obtain ⟨key, bar⟩ := p
      obtain ⟨hroute, hbar⟩ := charged_eq_some_iff.mp hcharged
      rw [applyCost_of_some hcharged]
      have hrest := ih hnodup.2 (applyCost working acc cost)
      rw [applyCost_of_some hcharged] at hrest
      -- the costs after this one have other types, and so other bars
      have hother : ∀ cost' ∈ costs,
          (acc.1.putValue key.serialize (bar.spec.charge bar.value cost.2)).charged working cost'.1
            = acc.1.charged working cost'.1 := by
        intro cost' hcost'
        refine charged_putValue hroute ?_ _
        intro heq
        exact hnodup.1 (List.mem_map.mpr ⟨cost', hcost', heq⟩)
      have hput := MagicState.get?_putValue acc.1 key.serialize (bar.spec.charge bar.value cost.2)
      refine ⟨fun name hname => ?_, fun cost' hcost' key' bar' hkey' => ?_, ?_⟩
      · have hfirst := hname cost (.head _) key bar hcharged
        rw [hrest.others name, hput, if_neg (fun heq => hfirst heq.symm)]
        intro cost' hcost' key' bar' hkey'
        rw [hother cost' hcost'] at hkey'
        exact hname cost' (.tail _ hcost') key' bar' hkey'
      · rcases List.mem_cons.mp hcost' with rfl | hcost'
        · cases Option.some.inj (hcharged.symm.trans hkey')
          unfold MagicState.bar? at hbar
          rw [hrest.others, hput, if_pos rfl, hbar]
          · rfl
          · intro later hlater key'' bar'' hkey'' heq
            obtain ⟨hroute', -⟩ := charged_eq_some_iff.mp hkey''
            refine hnodup.1 (List.mem_map.mpr ⟨later, hlater, ?_⟩)
            exact costType_eq_of_serialize hroute' hroute heq
        · refine hrest.charged cost' hcost' key' bar' ?_
          rw [hother cost' hcost']
          exact hkey'
      · rw [hrest.reported, List.filterMap_cons, hcharged]
        rw [Option.bind_some]
        have hsame : costs.filterMap (fun cost' => ((acc.1.putValue key.serialize
              (bar.spec.charge bar.value cost.2)).charged working cost'.1).bind (fun p =>
                p.2.spec.crossing p.1 p.2.value (p.2.spec.charge p.2.value cost'.2))) =
            costs.filterMap (fun cost' => (acc.1.charged working cost'.1).bind (fun p =>
              p.2.spec.crossing p.1 p.2.value (p.2.spec.charge p.2.value cost'.2))) := by
          apply List.filterMap_congr
          intro cost' hcost'
          rw [hother cost' hcost']
        rw [hsame]
        cases bar.spec.crossing key bar.value (bar.spec.charge bar.value cost.2) with
        | none => simp
        | some event => simp

end Charges

/-- The events report the crossings of the bars that go one way, each once and at its new value,
    and nothing else. -/
structure ReportsCrossings (s : MagicState) (events : List ThresholdCrossingEvent)
    (s' : MagicState) : Prop where
  exact : ∀ name, (∃ event ∈ events, event.barKey.serialize = name) ↔
    ∃ bar bar', s.ledger.get? name = some bar ∧ s'.ledger.get? name = some bar' ∧
      bar.spec.direction ≠ .bidirectional ∧ bar.spec.Crosses bar.value bar'.value
  values : ∀ event ∈ events, ∃ bar', s'.ledger.get? event.barKey.serialize = some bar' ∧
    event.newValue = bar'.value ∧ event.direction = bar'.spec.direction
  once : (events.map (fun event => event.barKey.serialize)).Nodup

/-- Where no bar moves, nothing is to be reported. -/
theorem reportsCrossings_nil {s : MagicState} (h : s'.ledger = s.ledger) :
    ReportsCrossings s [] s' := by
  refine ⟨fun name => ?_, by simp, by simp⟩
  refine iff_of_false (by simp) ?_
  rintro ⟨bar, bar', hbar, hbar', -, hcrosses⟩
  rw [h, hbar] at hbar'
  cases hbar'
  exact bar.spec.not_crosses_self bar.value hcrosses

/-- Costs of different types report exactly what they cross. -/
theorem Charged.reportsCrossings {working : MagicWorking} {costs : List (String × ℚ)}
    {s : MagicState} {acc' : MagicState × ApplyWorkingResult}
    (h : Charged working costs (s, {}) acc') (hnodup : (costs.map Prod.fst).Nodup) :
    ReportsCrossings s acc'.2.crossings acc'.1 := by
  have hreported := h.reported
  rw [show ({} : ApplyWorkingResult).crossings = [] from rfl, List.nil_append] at hreported
  rw [hreported]
  have hevent : ∀ event, event ∈ costs.filterMap (fun cost => (s.charged working cost.1).bind
      (fun p => p.2.spec.crossing p.1 p.2.value (p.2.spec.charge p.2.value cost.2))) →
        ∃ cost ∈ costs, ∃ key bar, s.charged working cost.1 = some (key, bar) ∧
          bar.spec.crossing key bar.value (bar.spec.charge bar.value cost.2) = some event := by
    intro event hevent
    obtain ⟨cost, hcost, hcrossing⟩ := List.mem_filterMap.mp hevent
    obtain ⟨⟨key, bar⟩, hcharged, hcrossing⟩ := Option.bind_eq_some_iff.mp hcrossing
    exact ⟨cost, hcost, key, bar, hcharged, hcrossing⟩
  refine ⟨fun name => ⟨?_, ?_⟩, fun event hmem => ?_, ?_⟩
  · rintro ⟨event, hmem, rfl⟩
    obtain ⟨cost, hcost, key, bar, hcharged, hcrossing⟩ := hevent event hmem
    have hsome := (bar.spec.crossing_isSome_iff key _ _).mp
      (Option.isSome_iff_exists.mpr ⟨event, hcrossing⟩)
    rw [(LedgerBarSpec.eq_of_crossing hcrossing).1]
    exact ⟨bar, _, (charged_eq_some_iff.mp hcharged).2, h.charged cost hcost key bar hcharged,
      hsome.1, hsome.2⟩
  · rintro ⟨bar, bar', hbar, hbar', hdirection, hcrosses⟩
    -- a bar that crosses has moved, and so was charged
    by_cases hcost : ∃ cost ∈ costs, ∃ key bar, s.charged working cost.1 = some (key, bar) ∧
        key.serialize = name
    · obtain ⟨cost, hcost, key, bar₀, hcharged, rfl⟩ := hcost
      obtain ⟨-, hbar₀⟩ := charged_eq_some_iff.mp hcharged
      obtain rfl := Option.some.inj (hbar₀.symm.trans hbar)
      rw [h.charged cost hcost key bar₀ hcharged] at hbar'
      rw [← Option.some.inj hbar'] at hcrosses
      obtain ⟨event, hcrossing⟩ := Option.isSome_iff_exists.mp
        ((bar₀.spec.crossing_isSome_iff key _ _).mpr ⟨hdirection, hcrosses⟩)
      refine ⟨event, List.mem_filterMap.mpr ⟨cost, hcost, ?_⟩, ?_⟩
      · rw [hcharged]
        exact hcrossing
      · rw [(LedgerBarSpec.eq_of_crossing hcrossing).1]
    · push Not at hcost
      have hsame := h.others name (fun cost hmem key bar hcharged =>
        hcost cost hmem key bar hcharged)
      rw [hsame, hbar] at hbar'
      cases hbar'
      exact absurd hcrosses (bar.spec.not_crosses_self bar.value)
  · obtain ⟨cost, hcost, key, bar, hcharged, hcrossing⟩ := hevent event hmem
    obtain ⟨hkey, hdirection, hvalue⟩ := LedgerBarSpec.eq_of_crossing hcrossing
    rw [hkey]
    exact ⟨_, h.charged cost hcost key bar hcharged, hvalue, hdirection⟩
  · unfold List.Nodup at hnodup ⊢
    rw [List.pairwise_map] at hnodup
    rw [List.pairwise_map, List.pairwise_filterMap]
    refine hnodup.imp ?_
    intro cost cost' hne event hcrossing event' hcrossing' heq
    obtain ⟨⟨key, bar⟩, hcharged, hcrossing⟩ := Option.bind_eq_some_iff.mp hcrossing
    obtain ⟨⟨key', bar'⟩, hcharged', hcrossing'⟩ := Option.bind_eq_some_iff.mp hcrossing'
    rw [(LedgerBarSpec.eq_of_crossing hcrossing).1,
      (LedgerBarSpec.eq_of_crossing hcrossing').1] at heq
    exact hne (costType_eq_of_serialize (charged_eq_some_iff.mp hcharged).1
      (charged_eq_some_iff.mp hcharged').1 heq)

/-- A working that returns has charged its costs, one after the other. -/
theorem charged_applyWorking {working : MagicWorking} {s : MagicState} {result : ApplyWorkingResult}
    (h : (applyWorking working).exec s = (.ok result, s')) :
    ∃ magic, Charged working working.costs.entries (s, {}) (magic, result) ∧
      s'.ledger = magic.ledger := by
  unfold applyWorking at h
  rw [exec_get_bind] at h
  split at h
  · exact (not_returned_of_raised rfl h).elim
  · obtain ⟨hresult, rfl⟩ := Prod.mk.inj h
    have hcharged : Charged working working.costs.entries (s, {})
        (working.costs.entries.foldl (applyCost working) (s, {})) :=
      charged_foldl working.costs.nodup (s, {})
    refine ⟨(working.costs.entries.foldl (applyCost working) (s, {})).1, ?_, rfl⟩
    cases hresult
    exact hcharged

/-- **Workings.** A working reports the crossings of the bars that go one way, and nothing
    else. -/
theorem reports_applyWorking {working : MagicWorking} {s : MagicState} {result : ApplyWorkingResult}
    (h : (applyWorking working).exec s = (.ok result, s')) :
    ReportsCrossings s result.crossings s' := by
  obtain ⟨magic, hcharged, hledger⟩ := charged_applyWorking h
  have hreports := hcharged.reportsCrossings working.costs.nodup
  refine ⟨fun name => ?_, fun event hevent => ?_, hreports.once⟩
  · rw [hledger]
    exact hreports.exact name
  · rw [hledger]
    exact hreports.values event hevent

/-- A working that raised has changed nothing. -/
theorem eq_of_applyWorking_error {working : MagicWorking} {s : MagicState} {e : MagicError}
    (h : (applyWorking working).exec s = (.error e, s')) : s' = s := by
  unfold applyWorking at h
  rw [exec_get_bind] at h
  split at h
  · exact (congrArg Prod.snd h).symm
  · exact (not_returned_of_raised h rfl).elim

/-! ### The magic state as a system -/

/-- What is done to the magic state. -/
inductive MagicEvent where
  | applyWorking (working : MagicWorking)
  | setBarValue (key : BarKey) (value : ℚ)
  | prepare (actor : String) (prep : Dict Int (List String))
  | cast (working : MagicWorking)
  | rest (actor : String)
  | mandatoryOutputs (outputs : List String) (actor : String) (context : OutputContext)
  | addCharacter (characterId : String) (characterClass : Option String)
  | addItem (itemId : String) (bondTemplate historyTemplate : Option LedgerBarSpec)
  | learnSpell (actor spell : String)

/-- Run a computation on the magic state of the snapshot. -/
def onMagic {ρ α : Type} (m : MagicM α) : Effect MagicError (Snapshot ρ) α :=
  onPart Snapshot.magicState (fun magic s => { s with magicState := some magic }) .noMagicState m

section System

variable {ρ : Type} (rig : RigOutput → String → Effect MagicError ρ PUnit)
  (parseInt : String → Option Int)

/-- Do it, and give the crossings that are reported. -/
def MagicEvent.dispatch : MagicEvent → Effect MagicError (Snapshot ρ) (List ThresholdCrossingEvent)
  | .applyWorking working => do
    let result ← onMagic (Magic.applyWorking working)
    pure result.crossings
  | .setBarValue key value => do
    onMagic (Magic.setBarValue key value)
    pure []
  | .prepare actor prep => do
    let _ ← onMagic (Magic.prepare actor prep)
    pure []
  | .cast working => do
    let _ ← onMagic (Magic.cast working)
    pure []
  | .rest actor => do
    let _ ← onMagic (Magic.rest parseInt actor)
    pure []
  | .mandatoryOutputs outputs actor context => do
    applyMandatoryOutputs rig outputs actor context
    pure []
  | .addCharacter characterId characterClass => do
    onMagic (Magic.addCharacter characterId characterClass)
    pure []
  | .addItem itemId bondTemplate historyTemplate => do
    onMagic (Magic.addItem itemId bondTemplate historyTemplate)
    pure []
  | .learnSpell actor spell => do
    onMagic (Magic.learnSpell actor spell)
    pure []

variable (s : Snapshot ρ) (event : MagicEvent)

/-- The snapshot afterwards; what was changed before a raise stays changed. -/
def step : Snapshot ρ :=
  ((event.dispatch rig parseInt).exec s).2

/-- The crossings that are reported; a raise reports none. -/
def reported : List ThresholdCrossingEvent :=
  match ((event.dispatch rig parseInt).exec s).1 with
  | .ok crossings => crossings
  | .error _ => []

/-- Every bar of the snapshot is within its range. -/
def Snapshot.InRange (s : Snapshot ρ) : Prop := ∀ magic, s.magicState = some magic → magic.InRange

/-- What an event is to report: a working its crossings, anything else nothing. -/
def Reports : MagicEvent → Prop
  | .applyWorking working => ∀ magic magic', s.magicState = some magic →
    (step rig parseInt s (.applyWorking working)).magicState = some magic' →
      ReportsCrossings magic (reported rig parseInt s (.applyWorking working)) magic'
  | event => reported rig parseInt s event = []

/-! The step lemma -/

/-- From a snapshot whose bars are within their ranges it leads to one. -/
def KeepsRange (s' : Snapshot ρ) : Prop := s.InRange → s'.InRange

instance : IsPreorder (Snapshot ρ) KeepsRange where
  refl _ := id
  trans _ _ _ h h' := fun hs => h' (h hs)

theorem keepsRange_onMagic {α : Type} {m : MagicM α} (hm : Preserves Keeps m) :
    Preserves (KeepsRange (ρ := ρ)) (onMagic m) := by
  refine preserves_onPart hm (fun s magic magic' hmagic hkeeps hs => ?_)
  rintro magic'' hmagic''
  cases hmagic''
  exact hkeeps (hs magic hmagic)

theorem keepsRange_applyMandatoryOutputs (outputs : List String) (actor : String)
    (context : OutputContext) :
    Preserves KeepsRange (applyMandatoryOutputs rig outputs actor context) := by
  have hmap : ∀ (handler : OutputHandler) (s : Snapshot ρ), KeepsRange s { s with
      magicState := s.magicState.map (·.runHandler actor context handler) } := by
    intro handler s hs magic' hmagic'
    obtain ⟨magic, hmagic, rfl⟩ := Option.map_eq_some_iff.mp hmagic'
    exact keeps_runHandler magic actor context handler (hs magic hmagic)
  refine preserves_forM (fun outputId => ?_) outputs
  split
  · exact preserves_throw _
  · unfold OutputHandler.apply
    split
    · -- the chassis is no part of the magic state
      intro s
      exact id
    · exact preserves_modify (hmap _)

/-- **An event** keeps the values between their bounds. -/
theorem keepsRange_dispatch : Preserves KeepsRange (event.dispatch rig parseInt) := by
  cases event with
  | applyWorking working =>
    exact (keepsRange_onMagic (keeps_applyWorking working)).bind (fun _ => preserves_pure _)
  | setBarValue key value =>
    exact (keepsRange_onMagic (keeps_setBarValue key value)).bind (fun _ => preserves_pure _)
  | prepare actor prep =>
    exact (keepsRange_onMagic (keeps_prepare actor prep)).bind (fun _ => preserves_pure _)
  | cast working =>
    exact (keepsRange_onMagic (keeps_cast working)).bind (fun _ => preserves_pure _)
  | rest actor =>
    exact (keepsRange_onMagic (keeps_rest parseInt actor)).bind (fun _ => preserves_pure _)
  | mandatoryOutputs outputs actor context =>
    exact (keepsRange_applyMandatoryOutputs rig outputs actor context).bind
      (fun _ => preserves_pure _)
  | addCharacter characterId characterClass =>
    exact (keepsRange_onMagic (keeps_addCharacter characterId characterClass)).bind
      (fun _ => preserves_pure _)
  | addItem itemId bondTemplate historyTemplate =>
    exact (keepsRange_onMagic (keeps_addItem itemId bondTemplate historyTemplate)).bind
      (fun _ => preserves_pure _)
  | learnSpell actor spell =>
    exact (keepsRange_onMagic (keeps_learnSpell actor spell)).bind (fun _ => preserves_pure _)

/-- What gives no crossings reports none. -/
theorem reported_eq_nil {α : Type} {m : Effect MagicError (Snapshot ρ) α} {s : Snapshot ρ}
    {event : MagicEvent} (h : event.dispatch rig parseInt = (do let _ ← m; pure [])) :
    reported rig parseInt s event = [] := by
  unfold reported
  rw [h, exec_bind]
  rcases m.exec s with ⟨e | a, s'⟩
  · rfl
  · rfl

/-- **An event** reports the crossings of a working, and nothing else. -/
theorem reports_step : Reports rig parseInt s event := by
  cases event with
  | applyWorking working =>
    intro magic magic' hmagic hmagic'
    unfold reported
    unfold step at hmagic'
    unfold MagicEvent.dispatch onMagic at hmagic' ⊢
    rw [exec_bind, exec_onPart, hmagic] at hmagic' ⊢
    dsimp only at hmagic' ⊢
    rcases hexec : (Magic.applyWorking working).exec magic with ⟨e | result, magic''⟩
    · rw [hexec] at hmagic'
      cases hmagic'
      exact reportsCrossings_nil (congrArg MagicState.ledger (eq_of_applyWorking_error hexec))
    · rw [hexec] at hmagic'
      cases hmagic'
      exact reports_applyWorking hexec
  | setBarValue key value => exact reported_eq_nil rig parseInt rfl
  | prepare actor prep => exact reported_eq_nil rig parseInt rfl
  | cast working => exact reported_eq_nil rig parseInt rfl
  | rest actor => exact reported_eq_nil rig parseInt rfl
  | mandatoryOutputs outputs actor context => exact reported_eq_nil rig parseInt rfl
  | addCharacter characterId characterClass => exact reported_eq_nil rig parseInt rfl
  | addItem itemId bondTemplate historyTemplate => exact reported_eq_nil rig parseInt rfl
  | learnSpell actor spell => exact reported_eq_nil rig parseInt rfl

/-- **The ledger.** In every run every bar is within its range, and every working reports exactly
    the crossings of the bars that go one way. -/
theorem ledger_law (config : WorldMagicConfig) (chassis : ρ) (events : List MagicEvent) :
    Throughout (step rig parseInt) Snapshot.InRange ⟨some (fromConfig config), chassis⟩ events ∧
      StepsMeet (step rig parseInt) (Reports rig parseInt)
        ⟨some (fromConfig config), chassis⟩ events := by
  have hstep : ∀ (s : Snapshot ρ) event, s.InRange → (step rig parseInt s event).InRange :=
    fun s event => keepsRange_dispatch rig parseInt event s
  constructor
  · refine throughout_of_step hstep ?_ events
    intro magic hmagic
    cases hmagic
    exact inRange_fromConfig config
  · exact stepsMeet_of_forall (reports_step rig parseInt) _ _

end System

/-! What is not reported -/

/-- A bar that goes down from above its low threshold. -/
def sanityBar : LedgerBarSpec where
  id := "sanity"
  scope := .character
  direction := .down
  lo := 0
  hi := 1
  thresholdLow := some (1 / 2)
  startsAtChargen := .scalar (55 / 100)
  lo_lt_hi := by decide +kernel
  low_declared _ := rfl
  high_declared := high_declared_down
  low_mem := by decide +kernel
  high_mem := by decide +kernel
  starts_mem := by decide +kernel
  starts_ne_nil := by decide
  starts_scope h := absurd h (by decide)

/-- An output lowers a bar through its threshold, and nothing is reported: not every step reports
    the crossings it makes. -/
theorem not_crossings_decrement : ¬ ∀ (config : WorldMagicConfig) (events : List MagicEvent),
      StepsMeet (step (fun _ _ => pure ⟨⟩) (fun _ => none)) (fun s event =>
        ∀ magic magic', s.magicState = some magic →
          (step (fun _ _ => pure ⟨⟩) (fun _ => none) s event).magicState = some magic' →
            ∀ name bar bar', magic.ledger.get? name = some bar →
              magic'.ledger.get? name = some bar' → bar.spec.Crosses bar.value bar'.value →
                ∃ crossing ∈ reported (fun _ _ => pure ⟨⟩) (fun _ => none) s event,
                  crossing.barKey.serialize = name)
        ⟨some (fromConfig config), PUnit.unit⟩ events := by
  intro hlaw
  have hsecond := (hlaw ⟨"reach", [sanityBar]⟩ [.addCharacter "rux" none,
    .mandatoryOutputs ["sanity_decrement"] "rux" {}]).2.1
  have hlowered : Option.map LedgerBar.value ((MagicState.shiftBar
      ((addCharacter "rux" none).exec (fromConfig ⟨"reach", [sanityBar]⟩)).2
      ⟨.character, "rux", "sanity"⟩ (-sanityDecrementDefault)).ledger.get? "character|rux|sanity") =
        some (45 / 100) := by decide +kernel
  obtain ⟨bar', hbar', hvalue⟩ := Option.map_eq_some_iff.mp hlowered
  have hcrosses : sanityBar.Crosses (55 / 100) bar'.value := by
    rw [hvalue]
    exact .inl ⟨by decide, 1 / 2, rfl, by decide +kernel⟩
  obtain ⟨crossing, hcrossing, -⟩ := hsecond _ _ rfl rfl "character|rux|sanity"
    ⟨sanityBar, 55 / 100⟩ bar' (by rfl) hbar' hcrosses
  cases hcrossing

end Sidequest.Magic
