import Sidequest.Magic.Keys
import Sidequest.Magic.Ledger

namespace Sidequest.Magic

open Lib Effect

/-!
# Casts between two rests

A cast says that it has consumed a slot. The slots are counted by the slot bar of the level, which
a cast lowers by the costs that its working happens to carry, and which a preparation refreshes.

* `restored_rest` — a rest puts a slot bar back to its start;
* `casts_le_slots` — the casts of a run whose steps all spend are; `not_casts_le_slots` — those of
  other runs may not be.
-/

/-! ### A rest puts a slot bar back -/

theorem startsWith_slotBarKey (actor : String) (level : Int) :
    startsWith ("character|" ++ actor ++ "|slots_l") (slotBarKey actor level).serialize = true := by
  unfold startsWith slotBarKey BarKey.serialize Scope.name
  rw [List.isPrefixOf_iff_prefix]
  refine ⟨(toString level).toList, ?_⟩
  have hcharacter : "character|".toList = "character".toList ++ "|".toList := by decide
  have hslots : "|slots_l".toList = "|".toList ++ "slots_l".toList := by decide
  simp only [String.toList_append, List.append_assoc, hcharacter, hslots]

variable (s : MagicState)

/-- The bar of a name is at its start, if it has one start. -/
def Restored (name : String) : Prop :=
  ∀ bar, s.ledger.get? name = some bar →
    ∀ value, bar.spec.startsAtChargen = .scalar value → bar.value = value

theorem restored_putValue {s : MagicState} {key : String} {bar : LedgerBar}
    (hbar : s.ledger.get? key = some bar) : Restored (s.putValue key bar.perRest) key := by
  intro bar' hbar' value hstarts
  rw [MagicState.get?_putValue, if_pos rfl, hbar] at hbar'
  rw [← Option.some.inj hbar'] at hstarts ⊢
  unfold LedgerBar.perRest
  rw [hstarts]

theorem Restored.putValue {s : MagicState} {name key : String} (h : Restored s name)
    (hne : name ≠ key) (value : ℚ) : Restored (s.putValue key value) name := by
  intro bar hbar
  rw [MagicState.get?_putValue, if_neg hne] at hbar
  exact h bar hbar

section Rest

variable {parseInt : String → Option Int} {actor : String} {keys taken : List String}
  {s : MagicState}

/-- The slot bars of an actor among the keys that have been taken are at their starts. -/
structure SlotsRestored (actor : String) (keys taken : List String) (s : MagicState) : Prop where
  keys_eq : s.ledger.keys = keys
  restored : ∀ name ∈ taken, startsWith ("character|" ++ actor ++ "|slots_l") name = true →
    Restored s name

theorem SlotsRestored.take (h : SlotsRestored actor keys taken s) {key : String}
    (hkey : startsWith ("character|" ++ actor ++ "|slots_l") key = true → Restored s key) :
    SlotsRestored actor keys (taken ++ [key]) s := by
  refine ⟨h.keys_eq, fun name hname hslot => ?_⟩
  rcases List.mem_append.mp hname with hname | hname
  · exact h.restored name hname hslot
  · obtain rfl := List.mem_singleton.mp hname
    exact hkey hslot

theorem SlotsRestored.putValue (h : SlotsRestored actor keys taken s) {key : String}
    {bar : LedgerBar} (hbar : s.ledger.get? key = some bar) :
    SlotsRestored actor keys taken (s.putValue key bar.perRest) := by
  constructor
  · unfold MagicState.putValue
    rw [Dict.keys_modify]
    exact h.keys_eq
  · intro name hname hslot
    by_cases hsame : name = key
    · rw [hsame]
      exact restored_putValue hbar
    · exact (h.restored name hname hslot).putValue hsame _

theorem meets_restoreBar (taken : List String) (restored : Dict Int ℚ) (key : String) :
    Meets (SlotsRestored actor keys taken) (restoreBar parseInt actor restored key)
      (fun _ => SlotsRestored actor keys (taken ++ [key])) (fun _ _ => True) := by
  intro s hs
  unfold restoreBar
  rw [exec_get_bind]
  cases hslot : startsWith ("character|" ++ actor ++ "|slots_l") key with
  | false => exact hs.take (fun h => absurd (hslot.symm.trans h) (by simp))
  | true =>
    cases hbar : s.ledger.get? key with
    | none =>
      refine hs.take (fun _ bar hbar' => ?_)
      cases hbar.symm.trans hbar'
    | some bar =>
      cases parseInt (levelText key) with
      | none => trivial
      | some level => exact (hs.putValue hbar).take (fun _ => restored_putValue hbar)

/-- **Rest.** After a rest a slot bar with one start is at its start. -/
theorem restored_rest {s' : MagicState} {result : RestResult}
    (h : (rest parseInt actor).exec s = (.ok result, s')) (level : Int) :
    Restored s' (slotBarKey actor level).serialize := by
  unfold rest at h
  rw [exec_get_bind] at h
  obtain ⟨restored, t, hfold, h⟩ := exists_of_exec_bind h
  obtain rfl := (congrArg Prod.snd h).symm
  have hrestored : SlotsRestored actor s.ledger.keys s.ledger.keys t :=
    (meets_foldlM_taken (fun taken key _ restored => meets_restoreBar taken restored key)
      .empty).of_ok (Q := fun _ => SlotsRestored actor s.ledger.keys s.ledger.keys)
      ⟨rfl, by simp⟩ hfold
  intro bar hbar
  have hkey : (slotBarKey actor level).serialize ∈ s.ledger.keys := by
    rw [← hrestored.keys_eq]
    exact Dict.mem_keys_of_get? hbar
  exact hrestored.restored _ hkey (startsWith_slotBarKey actor level) bar hbar

end Rest

/-! ### What a cast does to a slot bar -/

namespace MagicState

/-- A cast goes through: its spell is prepared at its level, and the slot bar is above zero. -/
def Castable (working : MagicWorking) : Prop :=
  ∃ spell ∈ working.spellId, ∃ level ∈ working.slotLevel,
    spell ∈ (((s.preparedSpells.get? working.actor).getD .empty).get? level).getD [] ∧
      ∃ bar ∈ s.bar? (slotBarKey working.actor level), 0 < bar.value

instance (s : MagicState) (working : MagicWorking) : Decidable (s.Castable working) :=
  inferInstanceAs (Decidable (∃ spell ∈ working.spellId, ∃ level ∈ working.slotLevel,
    spell ∈ (((s.preparedSpells.get? working.actor).getD .empty).get? level).getD [] ∧
      ∃ bar ∈ s.bar? (slotBarKey working.actor level), 0 < bar.value))

/-- A preparation is accepted: its spells are known, and within the values of the slot bars. -/
def Admits (actor : String) (prep : Dict Int (List String)) : Prop :=
  ∀ entry ∈ prep.entries,
    (∀ spell ∈ entry.2, spell ∈ (s.knownSpells.get? actor).getD []) ∧
      ∃ bar ∈ s.bar? (slotBarKey actor entry.1), (entry.2.length : Int) ≤ truncate bar.value

instance (s : MagicState) (actor : String) (prep : Dict Int (List String)) :
    Decidable (s.Admits actor prep) :=
  inferInstanceAs (Decidable (∀ entry ∈ prep.entries,
    (∀ spell ∈ entry.2, spell ∈ (s.knownSpells.get? actor).getD []) ∧
      ∃ bar ∈ s.bar? (slotBarKey actor entry.1), (entry.2.length : Int) ≤ truncate bar.value))

end MagicState

section Cast

variable {working : MagicWorking} {s s' : MagicState}

/-- **Cast.** A cast that raises changes nothing. One that returns was let through and has charged
    the costs of its working; it says that a slot is consumed. -/
theorem cast_cases (working : MagicWorking) (s : MagicState) :
    (∃ e, (cast working).exec s = (.error e, s)) ∨
      ∃ spell applied s', s.Castable working ∧
        (applyWorking working).exec s = (.ok applied, s') ∧
          (cast working).exec s = (.ok ⟨working.actor, spell, true⟩, s') := by
  unfold cast
  cases hspell : working.spellId with
  | none => exact .inl ⟨_, rfl⟩
  | some spell =>
    cases hlevel : working.slotLevel with
    | none => exact .inl ⟨_, rfl⟩
    | some level =>
      dsimp only
      rw [exec_get_bind]
      split
      · exact .inl ⟨_, rfl⟩
      · rename_i hprepared
        rw [exec_bind, exec_getBar]
        cases hbar : s.bar? (slotBarKey working.actor level) with
        | none => exact .inl ⟨_, rfl⟩
        | some bar =>
          dsimp only [Option.elim_some]
          split
          · exact .inl ⟨_, rfl⟩
          · rename_i hvalue
            rw [exec_bind]
            rcases happly : (applyWorking working).exec s with ⟨e | applied, s'⟩
            · rw [eq_of_applyWorking_error happly]
              exact .inl ⟨e, rfl⟩
            · refine .inr ⟨spell, applied, s', ?_, rfl, rfl⟩
              exact ⟨spell, hspell, level, hlevel, not_not.mp hprepared, bar, hbar,
                not_le.mp hvalue⟩

theorem charge_of_applyWorking {result : ApplyWorkingResult}
    (h : (applyWorking working).exec s = (.ok result, s')) {name : String} {bar : LedgerBar}
    (hbar : s.ledger.get? name = some bar) :
    s'.ledger.get? name = some bar ∨ ∃ cost ∈ working.costs.entries,
      s'.ledger.get? name = some { bar with value := bar.spec.charge bar.value cost.2 } := by
  obtain ⟨magic, hcharged, hledger⟩ := charged_applyWorking h
  rw [hledger]
  by_cases hcost : ∃ cost ∈ working.costs.entries, ∃ key bar,
      s.charged working cost.1 = some (key, bar) ∧ key.serialize = name
  · obtain ⟨cost, hcost, key, bar', hkey, rfl⟩ := hcost
    obtain rfl := Option.some.inj ((charged_eq_some_iff.mp hkey).2.symm.trans hbar)
    exact .inr ⟨cost, hcost, hcharged.charged cost hcost key bar' hkey⟩
  · push Not at hcost
    refine .inl ((hcharged.others name (fun cost hmem key bar hkey => ?_)).trans hbar)
    exact hcost cost hmem key bar hkey

end Cast

/-! ### What a preparation does to a slot bar -/

/-- A slot bar that has been refreshed. -/
def LedgerBar.refreshed (bar : LedgerBar) : LedgerBar :=
  { bar with value := bar.spec.clamp bar.perRest }

theorem LedgerBarSpec.clamp_eq_self {spec : LedgerBarSpec} {value : ℚ} (hlo : spec.lo ≤ value)
    (hhi : value ≤ spec.hi) : spec.clamp value = value := by
  unfold LedgerBarSpec.clamp
  rw [min_eq_right hhi, max_eq_right hlo]

theorem LedgerBar.refreshed_refreshed (bar : LedgerBar) :
    bar.refreshed.refreshed = bar.refreshed := by
  obtain ⟨hlo, hhi⟩ := bar.spec.clamp_mem bar.perRest
  unfold refreshed perRest at *
  cases hstarts : bar.spec.startsAtChargen with
  | scalar value => rfl
  | byClass values =>
    rw [hstarts] at hlo hhi
    rw [LedgerBarSpec.clamp_eq_self hlo hhi]

/-- The bar of a name is as it was, or it is refreshed; this only if it is named. -/
def Refreshes (named : Prop) (name : String) (s s' : MagicState) : Prop :=
  ∀ bar, s.ledger.get? name = some bar →
    s'.ledger.get? name = some bar ∨ named ∧ s'.ledger.get? name = some bar.refreshed

instance (named : Prop) (name : String) : IsPreorder MagicState (Refreshes named name) where
  refl _ _ hbar := .inl hbar
  trans _ _ _ h h' bar hbar := by
    rcases h bar hbar with hsame | ⟨hnamed, hrefreshed⟩
    · exact h' bar hsame
    · rcases h' bar.refreshed hrefreshed with hsame | ⟨-, hagain⟩
      · exact .inr ⟨hnamed, hsame⟩
      · rw [bar.refreshed_refreshed] at hagain
        exact .inr ⟨hnamed, hagain⟩

section Prepare

variable (actor : String)

theorem refreshes_refreshLevel (entry : Int × List String) (name : String) :
    Preserves (Refreshes ((slotBarKey actor entry.1).serialize = name) name)
      (refreshLevel actor entry) := by
  intro s bar hbar
  unfold refreshLevel setBarValue
  rw [exec_bind, exec_getBar]
  cases hkey : s.bar? (slotBarKey actor entry.1) with
  | none => exact .inl hbar
  | some bar₀ =>
    dsimp only [Option.elim_some]
    rw [exec_bind, exec_getBar, hkey]
    show (s.putValue _ _).ledger.get? name = some bar ∨ _
    rw [MagicState.get?_putValue]
    by_cases hname : (slotBarKey actor entry.1).serialize = name
    · refine .inr ⟨hname, ?_⟩
      subst hname
      cases hkey.symm.trans hbar
      show (s.putValue _ _).ledger.get? _ = _
      rw [MagicState.get?_putValue, if_pos rfl, hbar]
      rfl
    · rw [if_neg (fun h => hname h.symm)]
      exact .inl hbar

theorem checkLevel_cases (known : List String) (entry : Int × List String) (s : MagicState) :
    (∃ e, (checkLevel actor known entry).exec s = (.error e, s)) ∨
      (checkLevel actor known entry).exec s = (.ok ⟨⟩, s) ∧ (∀ spell ∈ entry.2, spell ∈ known) ∧
        ∃ bar ∈ s.bar? (slotBarKey actor entry.1), (entry.2.length : Int) ≤ truncate bar.value := by
  unfold checkLevel
  split
  · exact .inl ⟨_, rfl⟩
  · rename_i hknown
    rw [exec_get_bind]
    cases hbar : s.bar? (slotBarKey actor entry.1) with
    | none => exact .inl ⟨_, rfl⟩
    | some bar =>
      dsimp only
      split
      · exact .inl ⟨_, rfl⟩
      · rename_i hbudget
        refine .inr ⟨rfl, fun spell hspell => ?_, bar, rfl, not_lt.mp hbudget⟩
        have hmem := List.find?_eq_none.mp hknown spell hspell
        simpa using hmem

/-- The checks leave the state as it is, and pass only what is to be accepted. -/
theorem checks_cases (known : List String) (entries : List (Int × List String)) (s : MagicState) :
    (∃ e, (entries.forM (checkLevel actor known)).exec s = (.error e, s)) ∨
      (entries.forM (checkLevel actor known)).exec s = (.ok ⟨⟩, s) ∧ ∀ entry ∈ entries,
        (∀ spell ∈ entry.2, spell ∈ known) ∧
          ∃ bar ∈ s.bar? (slotBarKey actor entry.1),
            (entry.2.length : Int) ≤ truncate bar.value := by
  induction entries with
  | nil => exact .inr ⟨rfl, by simp⟩
  | cons entry entries ih =>
    rw [exec_forM_cons, exec_bind]
    rcases checkLevel_cases actor known entry s with ⟨e, h⟩ | ⟨h, hentry⟩
    · rw [h]
      exact .inl ⟨e, rfl⟩
    · rw [h]
      rcases ih with ⟨e, hrest⟩ | ⟨hrest, hentries⟩
      · exact .inl ⟨e, hrest⟩
      · refine .inr ⟨hrest, fun entry' hentry' => ?_⟩
        rcases List.mem_cons.mp hentry' with rfl | hentry'
        · exact hentry
        · exact hentries entry' hentry'

/-- **Prepare.** A preparation that raises changes nothing. One that is accepted refreshes the slot
    bars of its levels, and no other bar. -/
theorem prepare_cases (prep : Dict Int (List String)) (s : MagicState) :
    ((prepare actor prep).exec s).2 = s ∨ s.Admits actor prep ∧ ∀ name,
      Refreshes (∃ level ∈ prep.keys, (slotBarKey actor level).serialize = name) name s
        ((prepare actor prep).exec s).2 := by
  unfold prepare
  rw [exec_get_bind]
  rw [exec_bind]
  rcases checks_cases actor ((s.knownSpells.get? actor).getD []) prep.entries s with
    ⟨e, h⟩ | ⟨h, hadmits⟩
  · rw [h]
    exact .inl rfl
  · rw [h]
    refine .inr ⟨hadmits, fun name => ?_⟩
    have hrefresh : Preserves (Refreshes (∃ level ∈ prep.keys,
        (slotBarKey actor level).serialize = name) name) (prep.entries.forM (refreshLevel actor)) := by
      refine preserves_forM_of_mem (fun entry hentry => ?_)
      refine (refreshes_refreshLevel actor entry name).mono (fun s s' hstep bar hbar => ?_)
      refine (hstep bar hbar).imp_right (fun h => ⟨⟨entry.1, ?_, h.1⟩, h.2⟩)
      exact Dict.mem_keys_iff.mpr ⟨entry.2, hentry⟩
    -- the ledger is not touched before the slot bars are refreshed
    intro bar hbar
    exact hrefresh.bind (fun _ => preserves_pure _)
      { s with preparedSpells := s.preparedSpells.insert actor prep } bar hbar

end Prepare

/-! ### The budget of a rest -/

/-- The casts that were made and the slots that are left are within the slots of a rest. A bar that
    goes up is spent by no cast. -/
structure Budgeted (slots : ℚ) (bar : LedgerBar) (casts : ℕ) : Prop where
  inRange : bar.InRange
  up : bar.spec.direction = .up → casts = 0
  within : bar.spec.direction ≠ .up → casts + max 0 bar.value ≤ slots

section Budget

variable {slots : ℚ} {bar : LedgerBar} {casts : ℕ}

theorem LedgerBarSpec.clamp_le {spec : LedgerBarSpec} {value bound : ℚ} (hlo : spec.lo ≤ bound)
    (hvalue : value ≤ bound) : spec.clamp value ≤ bound :=
  max_le hlo (min_le_of_right_le hvalue)

/-- A cost lowers a bar that does not go up. -/
theorem LedgerBarSpec.charge_le {spec : LedgerBarSpec} {value amount bound : ℚ}
    (hdirection : spec.direction ≠ .up) (hlo : spec.lo ≤ bound) (hbound : value - amount ≤ bound) :
    spec.charge value amount ≤ bound := by
  unfold LedgerBarSpec.charge
  rw [if_neg hdirection]
  exact LedgerBarSpec.clamp_le hlo hbound

theorem Budgeted.casts_le (h : Budgeted slots bar casts) (hslots : 0 ≤ slots) :
    (casts : ℚ) ≤ slots := by
  by_cases hdirection : bar.spec.direction = .up
  · rw [h.up hdirection]
    exact_mod_cast hslots
  · have hwithin := h.within hdirection
    have hleft := le_max_left (0 : ℚ) bar.value
    linarith

/-- Some other cost is charged, or none of a whole slot. -/
theorem Budgeted.charge (h : Budgeted slots bar casts) {amount : ℚ} (hamount : 0 ≤ amount) :
    Budgeted slots { bar with value := bar.spec.charge bar.value amount } casts := by
  refine ⟨bar.spec.charge_mem _ _, h.up, fun hdirection => ?_⟩
  have hlower : bar.spec.charge bar.value amount ≤ bar.value :=
    LedgerBarSpec.charge_le hdirection h.inRange.1 (sub_le_self _ hamount)
  have hwithin := h.within hdirection
  have hmax := max_le_max_left (0 : ℚ) hlower
  show (casts : ℚ) + max 0 (bar.spec.charge bar.value amount) ≤ slots
  linarith

theorem Budgeted.spend (h : Budgeted slots bar casts) {amount : ℚ} (hamount : 1 ≤ amount)
    (hdirection : bar.spec.direction ≠ .up) (hvalue : 1 ≤ bar.value)
    (hlo : bar.spec.lo ≤ bar.value - 1) :
    Budgeted slots { bar with value := bar.spec.charge bar.value amount } (casts + 1) := by
  refine ⟨bar.spec.charge_mem _ _, fun hup => absurd hup hdirection, fun _ => ?_⟩
  have hlower : bar.spec.charge bar.value amount ≤ bar.value - 1 :=
    LedgerBarSpec.charge_le hdirection hlo (by linarith)
  have hleft : max 0 (bar.spec.charge bar.value amount) ≤ bar.value - 1 :=
    max_le (by linarith) hlower
  have hwithin := h.within hdirection
  have hbefore := le_max_right (0 : ℚ) bar.value
  show ((casts + 1 : ℕ) : ℚ) + max 0 (bar.spec.charge bar.value amount) ≤ slots
  push_cast
  linarith

/-- The bar is refreshed, before the first cast or to no more than is left. -/
theorem Budgeted.refreshed (h : Budgeted slots bar casts) (hslots : 0 ≤ slots)
    {characterClass : Option String} {actor : String}
    (hstart : resolveStartsAtChargen bar.spec characterClass actor = .ok slots)
    (hrefresh : casts = 0 ∨ bar.perRest ≤ bar.value) : Budgeted slots bar.refreshed casts := by
  refine ⟨bar.spec.clamp_mem _, h.up, fun hdirection => ?_⟩
  have hwithin := h.within hdirection
  show (casts : ℚ) + max 0 (bar.spec.clamp bar.perRest) ≤ slots
  rcases hrefresh with hcasts | hlower
  · have hslots_mem := bar.spec.starts_mem slots (mem_values_of_resolve hstart)
    have hperRest : bar.perRest ≤ slots := by
      unfold LedgerBar.perRest
      unfold resolveStartsAtChargen at hstart
      cases hstarts : bar.spec.startsAtChargen with
      | scalar value =>
        rw [hstarts] at hstart
        exact le_of_eq (Except.ok.inj hstart)
      | byClass values =>
        -- a bar that is keyed by class keeps its value
        have hvalue := le_max_right (0 : ℚ) bar.value
        show bar.value ≤ slots
        linarith
    have hclamp := max_le hslots (LedgerBarSpec.clamp_le hslots_mem.1 hperRest)
    rw [hcasts]
    push_cast
    linarith
  · have hclamp := max_le_max_left (0 : ℚ) (LedgerBarSpec.clamp_le h.inRange.1 hlower)
    linarith

end Budget

/-! ### The casts of a run -/

/-- What is done between two rests. -/
inductive SlotEvent where
  | prepare (actor : String) (prep : Dict Int (List String))
  | cast (working : MagicWorking)

/-- The magic state, and how many casts of an actor at a level have consumed a slot. -/
structure Tally where
  magic : MagicState
  casts : ℕ

section Run

variable (actor : String) (level : Int)

def tallyStep (t : Tally) : SlotEvent → Tally
  | .prepare actor' prep => { t with magic := ((prepare actor' prep).exec t.magic).2 }
  | .cast working =>
    match (cast working).exec t.magic with
    | (.ok result, magic) =>
      ⟨magic, if result.slotConsumed ∧ working.actor = actor ∧ working.slotLevel = some level then
        t.casts + 1 else t.casts⟩
    | (.error _, magic) => ⟨magic, t.casts⟩

/-- The slots are kept account of: no preparation raises the bar after a cast, and a cast pays a
    whole slot, routed to a bar that can give it. -/
def Spends (t : Tally) : SlotEvent → Prop
  | .prepare actor' prep => t.magic.Admits actor' prep →
    (∃ level' ∈ prep.keys,
      (slotBarKey actor' level').serialize = (slotBarKey actor level).serialize) →
    ∀ bar ∈ t.magic.bar? (slotBarKey actor level), t.casts = 0 ∨ bar.perRest ≤ bar.value
  | .cast working => working.actor = actor → working.slotLevel = some level →
    t.magic.Castable working → ∀ bar ∈ t.magic.bar? (slotBarKey actor level),
      bar.spec.direction ≠ .up ∧ 1 ≤ bar.value ∧ bar.spec.lo ≤ bar.value - 1 ∧
        t.magic.routeCost working (slotBarKey actor level).barId = some (slotBarKey actor level) ∧
        ∃ amount ∈ working.costs.get? (slotBarKey actor level).barId, 1 ≤ amount

instance (t : Tally) : (event : SlotEvent) → Decidable (Spends actor level t event)
  | .prepare actor' prep => inferInstanceAs (Decidable (t.magic.Admits actor' prep →
    (∃ level' ∈ prep.keys,
      (slotBarKey actor' level').serialize = (slotBarKey actor level).serialize) →
    ∀ bar ∈ t.magic.bar? (slotBarKey actor level), t.casts = 0 ∨ bar.perRest ≤ bar.value))
  | .cast working => inferInstanceAs (Decidable (working.actor = actor →
    working.slotLevel = some level → t.magic.Castable working →
    ∀ bar ∈ t.magic.bar? (slotBarKey actor level),
      bar.spec.direction ≠ .up ∧ 1 ≤ bar.value ∧ bar.spec.lo ≤ bar.value - 1 ∧
        t.magic.routeCost working (slotBarKey actor level).barId = some (slotBarKey actor level) ∧
        ∃ amount ∈ working.costs.get? (slotBarKey actor level).barId, 1 ≤ amount))

variable {actor level} {characterClass : Option String} {slots : ℚ}

/-- The slot bar of the level has the slots of a rest, and the casts are within them. -/
def Accounted (actor : String) (level : Int) (characterClass : Option String) (slots : ℚ)
    (t : Tally) : Prop :=
  ∃ bar, t.magic.bar? (slotBarKey actor level) = some bar ∧
    resolveStartsAtChargen bar.spec characterClass actor = .ok slots ∧ Budgeted slots bar t.casts

theorem accounted_prepare (hslots : 0 ≤ slots) {t : Tally}
    (ht : Accounted actor level characterClass slots t) (actor' : String)
    (prep : Dict Int (List String)) (hspends : Spends actor level t (.prepare actor' prep)) :
    Accounted actor level characterClass slots (tallyStep actor level t (.prepare actor' prep)) := by
  obtain ⟨bar, hbar, hstart, hbudget⟩ := ht
  unfold tallyStep
  rcases prepare_cases actor' prep t.magic with hsame | ⟨hadmits, hrefreshes⟩
  · dsimp only
    rw [hsame]
    exact ⟨bar, hbar, hstart, hbudget⟩
  · rcases hrefreshes (slotBarKey actor level).serialize bar hbar with hsame | ⟨hnamed, hrefreshed⟩
    · exact ⟨bar, hsame, hstart, hbudget⟩
    · have hrefresh := hspends hadmits hnamed bar hbar
      exact ⟨bar.refreshed, hrefreshed, hstart, hbudget.refreshed hslots hstart hrefresh⟩

theorem accounted_cast {t : Tally} (ht : Accounted actor level characterClass slots t)
    (working : MagicWorking) (hspends : Spends actor level t (.cast working)) :
    Accounted actor level characterClass slots (tallyStep actor level t (.cast working)) := by
  obtain ⟨bar, hbar, hstart, hbudget⟩ := ht
  unfold tallyStep
  rcases cast_cases working t.magic with ⟨e, hraised⟩ |
    ⟨spell, applied, magic, hcastable, happly, hreturned⟩
  · dsimp only
    rw [hraised]
    exact ⟨bar, hbar, hstart, hbudget⟩
  · dsimp only
    rw [hreturned]
    by_cases hcounted : working.actor = actor ∧ working.slotLevel = some level
    · obtain ⟨hdirection, hvalue, hlo, hroute, amount, hamount, hwhole⟩ :=
        hspends hcounted.1 hcounted.2 hcastable bar hbar
      obtain ⟨charged, hcharged, hledger⟩ := charged_applyWorking happly
      have hspent := hcharged.charged _ (Dict.get?_eq_some_iff.mp hamount) _ bar
        (charged_eq_some_iff.mpr ⟨hroute, hbar⟩)
      rw [← hledger] at hspent
      dsimp only
      rw [if_pos ⟨rfl, hcounted⟩]
      exact ⟨_, hspent, hstart, hbudget.spend hwhole hdirection hvalue hlo⟩
    · dsimp only
      rw [if_neg (fun h => hcounted h.2)]
      rcases charge_of_applyWorking happly hbar with hsame | ⟨cost, hcost, hcharged⟩
      · exact ⟨bar, hsame, hstart, hbudget⟩
      · have hnonneg := working.costs_nonneg cost.2 (List.mem_map.mpr ⟨cost, hcost, rfl⟩)
        exact ⟨_, hcharged, hstart, hbudget.charge hnonneg⟩

/-- After a rest nothing has been cast, and the slot bar is full. -/
theorem accounted_rest {parseInt : String → Option Int} {s₀ s : MagicState} {result : RestResult}
    (hrest : (rest parseInt actor).exec s₀ = (.ok result, s)) {bar : LedgerBar}
    (hbar : s.bar? (slotBarKey actor level) = some bar)
    (hstart : resolveStartsAtChargen bar.spec characterClass actor = .ok slots) (hslots : 0 ≤ slots)
    (hkeyed : bar.spec.startsAtChargen.classKeyed = true → bar.InRange ∧ bar.value ≤ slots) :
    Accounted actor level characterClass slots ⟨s, 0⟩ := by
  have hfull : bar.InRange ∧ bar.value ≤ slots := by
    cases hstarts : bar.spec.startsAtChargen with
    | byClass values => exact hkeyed (by rw [hstarts]; rfl)
    | scalar value =>
      have hvalue := restored_rest hrest level bar hbar value hstarts
      have hmem := bar.spec.starts_mem slots (mem_values_of_resolve hstart)
      unfold resolveStartsAtChargen at hstart
      rw [hstarts] at hstart
      cases hstart
      rw [← hvalue] at hmem ⊢
      exact ⟨hmem, le_rfl⟩
  refine ⟨bar, hbar, hstart, hfull.1, fun _ => rfl, fun _ => ?_⟩
  have hmax := max_le hslots hfull.2
  push_cast
  linarith

/-- **Slots.** In a run of preparations and casts after a rest, whose steps all spend, no more casts
    of an actor at a level consume a slot than a rest gives. -/
theorem casts_le_slots {parseInt : String → Option Int} {s₀ s : MagicState} {result : RestResult}
    (hrest : (rest parseInt actor).exec s₀ = (.ok result, s)) {bar : LedgerBar}
    (hbar : s.bar? (slotBarKey actor level) = some bar)
    (hstart : resolveStartsAtChargen bar.spec characterClass actor = .ok slots) (hslots : 0 ≤ slots)
    (hkeyed : bar.spec.startsAtChargen.classKeyed = true → bar.InRange ∧ bar.value ≤ slots)
    (events : List SlotEvent)
    (hspends : StepsMeet (tallyStep actor level) (Spends actor level) ⟨s, 0⟩ events) :
    Throughout (tallyStep actor level) (fun t => (t.casts : ℚ) ≤ slots) ⟨s, 0⟩ events := by
  have hstep : ∀ t event, Accounted actor level characterClass slots t →
      Spends actor level t event →
        Accounted actor level characterClass slots (tallyStep actor level t event) := by
    intro t event ht hspends
    cases event with
    | prepare actor' prep => exact accounted_prepare hslots ht actor' prep hspends
    | cast working => exact accounted_cast ht working hspends
  have hrun := throughout_of_invariant hstep (accounted_rest hrest hbar hstart hslots hkeyed) hspends
  refine hrun.mono ?_
  rintro t ⟨bar, -, -, hbudget⟩
  exact hbudget.casts_le hslots

end Run

/-! Two slots of the first level -/

/-- The bar of the first level, with two slots. -/
def slotsBar : LedgerBarSpec where
  __ := mageSlots
  startsAtChargen := .scalar 2
  starts_mem := by decide +kernel
  starts_ne_nil := by decide
  starts_scope h := absurd h (by decide)

/-- A mage who knows one spell. -/
def mage : MagicState :=
  ((do addCharacter "rux" none; learnSpell "rux" "magic_missile" : MagicM PUnit).exec
    (fromConfig ⟨"caverns", [slotsBar]⟩)).2

/-- `int(text)`, for the only level there is. -/
def levelOne (text : String) : Option Int := if text = "1" then some 1 else none

/-- The mage after a rest. -/
def restedMage : MagicState := ((rest levelOne "rux").exec mage).2

/-- The spell, at a cost of one slot of its level. -/
def missile : MagicWorking where
  __ := oneSlot
  spellId := some "magic_missile"
  slotLevel := some 1

/-- The spell, at no cost. -/
def freeMissile : MagicWorking where
  actor := "rux"
  spellId := some "magic_missile"
  slotLevel := some 1
  costs_nonneg := by decide

/-- The spell is prepared. -/
def prepareMissile : SlotEvent := .prepare "rux" (Dict.empty.insert 1 ["magic_missile"])

/-- Two casts spend the two slots, and a third one raises. -/
theorem casts_le_slots_mage :
    Throughout (tallyStep "rux" 1) (fun t => (t.casts : ℚ) ≤ 2) ⟨restedMage, 0⟩
      [prepareMissile, .cast missile, .cast missile, .cast missile] := by
  have hrest : (rest levelOne "rux").exec mage = (.ok _, restedMage) := rfl
  have hbar : restedMage.bar? (slotBarKey "rux" 1) = some ⟨slotsBar, 2⟩ := rfl
  have hstart : resolveStartsAtChargen slotsBar none "rux" = .ok 2 := rfl
  have hkeyed : ¬ slotsBar.startsAtChargen.classKeyed = true := by decide
  exact casts_le_slots hrest hbar hstart (by decide +kernel) (fun h => absurd h hkeyed) _
    (by decide +kernel)

/-- Three casts consume a slot of the two that the rest gave. -/
theorem not_casts_le_slots :
    (∃ result, (rest levelOne "rux").exec mage = (.ok result, restedMage)) ∧
      restedMage.bar? (slotBarKey "rux" 1) = some ⟨slotsBar, 2⟩ ∧
      resolveStartsAtChargen slotsBar none "rux" = .ok 2 ∧
      ¬ Throughout (tallyStep "rux" 1) (fun t => (t.casts : ℚ) ≤ 2) ⟨restedMage, 0⟩
        [prepareMissile, .cast freeMissile, .cast freeMissile, .cast freeMissile] ∧
      ¬ Throughout (tallyStep "rux" 1) (fun t => (t.casts : ℚ) ≤ 2) ⟨restedMage, 0⟩
        [prepareMissile, .cast missile, prepareMissile, .cast missile, .cast missile] := by
  refine ⟨⟨_, rfl⟩, rfl, rfl, fun hfree => ?_, fun hagain => ?_⟩
  · exact absurd hfree.last (by decide +kernel)
  · exact absurd hagain.last (by decide +kernel)

end Sidequest.Magic
