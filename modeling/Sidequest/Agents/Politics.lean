import Sidequest.Lib.Clamp
import Sidequest.Lib.Dict
import Sidequest.Lib.Run

namespace Sidequest.Agents

open Lib

/-!
# The political engine

Acts with witnesses drain the belief that sustains the premises of a world and raise the defiance of
its blocs. The ledger keeps what they moved.

* `applyWitnessedAct` — the drains with their coupling, the awakenings, the threshold pass;
* `politicalRun_spec` — every run keeps the dials in range, passes each threshold once, and its
  ledger replays to the dials it ends with.
-/

/-- What an act takes from the belief in a premise. -/
structure PremiseDrain where
  act : String
  beliefDelta : Nat

/-- A premise that the powerful rest on, who props it up, and when it collapses. -/
structure PremiseDef where
  premiseId : String
  proppedBy : List String
  drainedBy : List PremiseDrain
  threshold : Int
  outcome : String

/-- What an act adds to the defiance of a bloc. -/
structure BlocAwakening where
  act : String
  defianceDelta : Nat

/-- A bloc of people, what awakens it, and when it tips. -/
structure BlocDef where
  blocId : String
  awakeningActs : List BlocAwakening
  tippingThreshold : Int
  tippedOutcome : String

/-- What an act can move: a premise or a bloc. -/
inductive TargetKind
  | premise | bloc
  deriving DecidableEq

/-- What a row of the ledger, or an event, says has happened to its target. -/
inductive PoliticalEffect
  | drained | coupled | awakened | collapsed | tipped
  deriving DecidableEq

/-- A kind and an id, the key of `touched_this_turn`. -/
abbrev Target := TargetKind × String

/-- A `PremiseState`: its `belief_reserve`, and whether it `collapsed`; or a `BlocState`: its
    `defiance`, and whether it `tipped`. -/
structure Dial where
  value : Int
  done : Bool := false

/-- A row of the ledger: a target, what happened to it, and who saw the act. -/
structure BeliefLedgerEntry where
  turn : Int
  actId : String
  target : Target
  effect : PoliticalEffect
  (delta newValue : Int)
  witnesses : List String

/-- What is told of an act. -/
structure PoliticalEvent where
  effect : PoliticalEffect
  target : Target
  (delta newValue : Int)
  detail : String

/-- `premises` and `blocs` are the dials of the two kinds. -/
structure PoliticalState where
  dials : TargetKind → Dict String Dial
  ledger : List BeliefLedgerEntry

/-- An act of a turn, and who saw it. -/
structure WitnessedAct where
  actId : String
  witnesses : List String
  turn : Int

namespace PoliticalState

variable (s : PoliticalState)

/-- The dial of a target, if the session has it. -/
def dial (t : Target) : Option Dial := (s.dials t.1).get? t.2

/-- The state with another dial for a target. -/
def set (t : Target) (d : Dial) : PoliticalState :=
  { s with dials := Function.update s.dials t.1 ((s.dials t.1).insert t.2 d) }

@[simp] theorem dial_set (t u : Target) (d : Dial) :
    (s.set t d).dial u = if u = t then some d else s.dial u := by
  obtain ⟨kind, key⟩ := u
  unfold dial set
  by_cases hkind : kind = t.1
  · subst hkind
    simp [Prod.ext_iff]
  · simp [Prod.ext_iff, hkind]

end PoliticalState

/-! ### One act -/

/-- What one act has moved so far. -/
structure Acting where
  state : PoliticalState
  touched : List Target := []
  events : List PoliticalEvent := []

section Act

variable (act : WitnessedAct) (effect : PoliticalEffect)

/-- An event, and its entry in the ledger (`_record`). -/
def record (t : Target) (delta newValue : Int) (detail : String) (a : Acting) : Acting :=
  { a with
    events := a.events ++ [⟨effect, t, delta, newValue, detail⟩]
    state := { a.state with
      ledger := a.state.ledger ++
        [⟨act.turn, act.actId, t, effect, delta, newValue, act.witnesses⟩] } }

/-- Turn a dial by an amount. One that is missing or done stays, and where the clamp leaves nothing
    to apply nothing is recorded. -/
def move (t : Target) (amount : Int) (a : Acting) : Acting :=
  match a.state.dial t with
  | none => a
  | some d =>
    if d.done then a else
      let value := clamp 0 100 (d.value + amount)
      let moved := { a with state := a.state.set t { d with value } }
      if value - d.value = 0 then moved
      else record act effect t (value - d.value) value "" { moved with touched := t :: a.touched }

/-- An act drains a premise by what it says of it, and half as much awakens the blocs that prop it
    up. -/
def drainPremise (a : Acting) (p : PremiseDef) : Acting :=
  match p.drainedBy.find? (·.act = act.actId) with
  | none => a
  | some drain =>
    match a.state.dial (.premise, p.premiseId) with
    | none => a
    | some d =>
      if d.done then a else
        let a := move act .drained (.premise, p.premiseId) (-drain.beliefDelta) a
        let coupled := drain.beliefDelta / 2
        if 0 < coupled then
          p.proppedBy.foldl (fun a bloc => move act .coupled (.bloc, bloc) coupled a) a
        else a

/-- An act awakens a bloc by what it says of it. -/
def awakenBloc (a : Acting) (b : BlocDef) : Acting :=
  match b.awakeningActs.find? (·.act = act.actId) with
  | none => a
  | some awk => move act .awakened (.bloc, b.blocId) awk.defianceDelta a

/-- Where a dial is done, and what comes of it. -/
structure Limit where
  past : Int → Bool
  outcome : String

/-- `premise_by_id` and `bloc_by_id`: of definitions with one id the last counts. -/
def limit (premises : List PremiseDef) (blocs : List BlocDef) : Target → Option Limit
  | (.premise, pid) => (premises.reverse.find? (·.premiseId = pid)).map
      fun p => ⟨fun value => value ≤ p.threshold, p.outcome⟩
  | (.bloc, bid) => (blocs.reverse.find? (·.blocId = bid)).map
      fun b => ⟨fun value => b.tippingThreshold ≤ value, b.tippedOutcome⟩

/-- The threshold pass over one dial. -/
def settle (limit : Target → Option Limit) (a : Acting) (t : Target) : Acting :=
  if t ∈ a.touched then
    match limit t, a.state.dial t with
    | some l, some d =>
      if d.done then a
      else if l.past d.value then
        record act effect t 0 d.value l.outcome { a with state := a.state.set t { d with done := true } }
      else a
    | _, _ => a
  else a

/-- The threshold pass over the dials of one kind. -/
def settleAll (limit : Target → Option Limit) (kind : TargetKind) (a : Acting) : Acting :=
  ((a.state.dials kind).keys.map (kind, ·)).foldl (settle act effect limit) a

/-- **A witnessed act**: the drains, the awakenings, and then the threshold pass. -/
def applyWitnessedAct (premises : List PremiseDef) (blocs : List BlocDef) (s : PoliticalState) :
    List PoliticalEvent × PoliticalState :=
  let a := premises.foldl (drainPremise act) ⟨s, [], []⟩
  let a := blocs.foldl (awakenBloc act) a
  let a := settleAll act .collapsed (limit premises blocs) .premise a
  let a := settleAll act .tipped (limit premises blocs) .bloc a
  (a.events, a.state)

end Act

/-! ### The ledger -/

/-- Applied in order to the values, the deltas give every new value, and the values at the end. -/
def Replays : (Target → Option Int) → List BeliefLedgerEntry → (Target → Option Int) → Prop
  | v, [], v' => v = v'
  | v, e :: es, v' => ∃ x, v e.target = some x ∧ x + e.delta = e.newValue ∧
      Replays (Function.update v e.target (some e.newValue)) es v'

theorem Replays.append {es fs : List BeliefLedgerEntry} {v v' w : Target → Option Int}
    (h : Replays v es v') (hw : Replays v' fs w) : Replays v (es ++ fs) w := by
  induction es generalizing v with
  | nil =>
    cases h
    exact hw
  | cons e es ih =>
    obtain ⟨x, hx, hsum, htail⟩ := h
    exact ⟨x, hx, hsum, ih htail⟩

/-- The value of a target's dial. -/
def PoliticalState.value (s : PoliticalState) (t : Target) : Option Int :=
  (s.dial t).map Dial.value

/-- The entry moved the target. -/
def BeliefLedgerEntry.Moved (t : Target) (e : BeliefLedgerEntry) : Prop :=
  e.target = t ∧ e.delta ≠ 0

/-- The entry says that the target collapsed or tipped. -/
def BeliefLedgerEntry.marks (t : Target) (e : BeliefLedgerEntry) : Bool :=
  e.target = t ∧ (e.effect = .collapsed ∨ e.effect = .tipped)

/-! ### What an act does to one dial -/

/-- The value, if there is one, is from 0 to 100. -/
def InRange (dial : Option Dial) : Prop := ∀ d, dial = some d → 0 ≤ d.value ∧ d.value ≤ 100

/-- The premise has collapsed, or the bloc has tipped. -/
def isDone (dial : Option Dial) : Bool := dial.any Dial.done

/-- The dial has reached the value at which it is done. -/
def Past (limit : Option Limit) (dial : Option Dial) : Prop :=
  ∃ l d, limit = some l ∧ dial = some d ∧ l.past d.value = true

/-- A dial before and after: `seen` if the threshold pass has been there, `marks` entries that it
    is done. -/
structure Turned (limit : Option Limit) (seen moved : Prop) (marks : Nat) (old new : Option Dial) :
    Prop where
  there : new.isSome = old.isSome
  range : InRange old → InRange new
  frozen : isDone old = true → new = old ∧ ¬ moved
  crossed : isDone new = true ↔ isDone old = true ∨ seen ∧ moved ∧ Past limit new
  marked : marks + (isDone old).toNat = (isDone new).toNat

/-- What holds while an act that began in `s` goes on. -/
def Acted (limit : Target → Option Limit) (s : PoliticalState) (seen : Target → Prop) (a : Acting) :
    Prop :=
  ∃ es, a.state.ledger = s.ledger ++ es ∧ Replays s.value es a.state.value ∧
    (∀ t, t ∈ a.touched ↔ ∃ e ∈ es, e.Moved t) ∧
    ∀ t, Turned (limit t) (seen t) (t ∈ a.touched) (es.countP (·.marks t)) (s.dial t) (a.state.dial t)

section Turned

variable {l : Option Limit} {moved : Prop} {marks : Nat} {old new : Option Dial} {d : Dial}

/-- The threshold pass leaves a dial that is done, or did not move, or is not past its threshold. -/
theorem Turned.see (h : Turned l False moved marks old new)
    (hleft : isDone new = true ∨ ¬ (moved ∧ Past l new)) : Turned l True moved marks old new := by
  refine { h with crossed := ?_ }
  have hcrossed := h.crossed
  simp only [false_and, or_false, true_and] at hcrossed ⊢
  tauto

theorem Turned.isDone_old (h : Turned l False moved marks old (some d)) (hd : d.done = false) :
    isDone old = false := by
  have hcrossed := h.crossed
  simp only [false_and, or_false] at hcrossed
  rw [Bool.eq_false_iff, ne_eq, ← hcrossed]
  simp [isDone, hd]

theorem Turned.move (h : Turned l False moved marks old (some d)) (hd : d.done = false) (x : Int) :
    Turned l False True marks old (some { d with value := clamp 0 100 x }) where
  there := h.there
  range := by
    rintro - _ ⟨⟩
    exact ⟨le_clamp 0 100 x, clamp_le (by decide) x⟩
  frozen hold := by simp [h.isDone_old hd] at hold
  crossed := by
    rw [h.isDone_old hd]
    simp [isDone, hd]
  marked := h.marked

theorem Turned.cross (h : Turned l False moved marks old (some d)) (hd : d.done = false)
    (hmoved : moved) (hpast : Past l (some d)) :
    Turned l True moved (marks + 1) old (some { d with done := true }) where
  there := h.there
  range hold := by
    rintro _ ⟨⟩
    exact h.range hold d rfl
  frozen hold := by simp [h.isDone_old hd] at hold
  crossed := by
    obtain ⟨b, _, hb, ⟨⟩, hvalue⟩ := hpast
    exact iff_of_true rfl (.inr ⟨trivial, hmoved, b, _, hb, rfl, hvalue⟩)
  marked := by
    have hmarked := h.marked
    rw [h.isDone_old hd] at hmarked ⊢
    simp only [isDone, Option.any_some, hd, Bool.toNat_false, Bool.toNat_true] at hmarked ⊢
    omega

end Turned

section Acted

variable {limit : Target → Option Limit} {s : PoliticalState} {seen seen' : Target → Prop}
  {a b : Acting} {t : Target} {d d' : Dial} {e : BeliefLedgerEntry} {act : WitnessedAct}
  {effect : PoliticalEffect}

/-- One dial turns, and one entry says so. -/
theorem Acted.put (h : Acted limit s seen a) (hd : a.state.dial t = some d)
    (hb : b.state = { a.state.set t d' with ledger := a.state.ledger ++ [e] })
    (he : e.target = t) (hsum : d.value + e.delta = d'.value) (hnew : e.newValue = d'.value)
    (htouched : ∀ u, u ∈ b.touched ↔ u ∈ a.touched ∨ e.Moved u)
    (hseen : ∀ u ≠ t, (seen' u ↔ seen u))
    (hturned : ∀ n, Turned (limit t) (seen t) (t ∈ a.touched) n (s.dial t) (some d) →
      Turned (limit t) (seen' t) (t ∈ b.touched) (n + [e].countP (·.marks t)) (s.dial t) (some d')) :
    Acted limit s seen' b := by
  obtain ⟨es, hledger, hreplays, hmoved, hdials⟩ := h
  have hdial : ∀ u, b.state.dial u = if u = t then some d' else a.state.dial u := by
    intro u
    rw [hb]
    exact PoliticalState.dial_set a.state t u d'
  refine ⟨es ++ [e], ?_, hreplays.append ⟨d.value, ?_, hsum.trans hnew.symm, ?_⟩, ?_, ?_⟩
  · rw [hb, ← List.append_assoc, ← hledger]
  · rw [he, PoliticalState.value, hd, Option.map_some]
  · ext1 u
    rw [PoliticalState.value, hdial, he, hnew, Function.update_apply]
    split <;> rfl
  · intro u
    rw [htouched, hmoved]
    simp [or_and_right, exists_or]
  · intro u
    rw [hdial, List.countP_append]
    split
    · rename_i hu
      subst hu
      exact hturned _ (hd ▸ hdials u)
    · rename_i hu
      have hother : ¬ e.target = u := fun heq => hu (heq.symm.trans he)
      have hsame : u ∈ b.touched ↔ u ∈ a.touched := by
        rw [htouched, BeliefLedgerEntry.Moved]
        tauto
      have hcount : [e].countP (·.marks u) = 0 := by simp [BeliefLedgerEntry.marks, hother]
      rw [hcount, Nat.add_zero, propext hsame, propext (hseen u hu)]
      exact hdials u

theorem Acted.stay (h : Acted limit s seen a) (hledger : b.state.ledger = a.state.ledger)
    (hdial : b.state.dial = a.state.dial) (htouched : b.touched = a.touched)
    (hseen : ∀ u n, Turned (limit u) (seen u) (u ∈ a.touched) n (s.dial u) (a.state.dial u) →
      Turned (limit u) (seen' u) (u ∈ a.touched) n (s.dial u) (a.state.dial u)) :
    Acted limit s seen' b := by
  obtain ⟨es, hes, hreplays, hmoved, hdials⟩ := h
  have hvalue : b.state.value = a.state.value := by
    ext1 u
    rw [PoliticalState.value, PoliticalState.value, hdial]
  rw [Acted, hledger, hvalue, htouched, hdial]
  exact ⟨es, hes, hreplays, hmoved, fun u => hseen u _ (hdials u)⟩

theorem Acted.move (h : Acted limit s (fun _ => False) a) (amount : Int)
    (heffect : effect ≠ .collapsed ∧ effect ≠ .tipped) :
    Acted limit s (fun _ => False) (move act effect t amount a) := by
  unfold Agents.move
  split
  · exact h
  · rename_i d hd
    split
    · exact h
    rename_i hopen
    rw [Bool.not_eq_true] at hopen
    dsimp only
    split
    · rename_i hsame
      refine h.stay rfl ?_ rfl (fun _ _ => id)
      ext1 u
      have hvalue : clamp 0 100 (d.value + amount) = d.value := by omega
      rw [PoliticalState.dial_set, hvalue]
      split
      · rename_i hu
        rw [hu, hd]
      · rfl
    · rename_i hmoved
      refine h.put hd rfl rfl ?_ rfl ?_ (fun _ _ => Iff.rfl) (fun n hturned => ?_)
      · show d.value + (_ - d.value) = clamp 0 100 (d.value + amount)
        omega
      · intro u
        simp [record, BeliefLedgerEntry.Moved, hmoved, eq_comm, or_comm]
      · have hmarks : [(⟨act.turn, act.actId, t, effect, clamp 0 100 (d.value + amount) - d.value,
            clamp 0 100 (d.value + amount), act.witnesses⟩ : BeliefLedgerEntry)].countP
            (·.marks t) = 0 := by
          simp [BeliefLedgerEntry.marks, heffect]
        have hin : (t ∈ t :: a.touched) ↔ True := by simp
        rw [hmarks, Nat.add_zero]
        show Turned _ _ (t ∈ t :: a.touched) _ _ _
        rw [propext hin]
        exact hturned.move hopen _

theorem Acted.drainPremise (h : Acted limit s (fun _ => False) a) (p : PremiseDef) :
    Acted limit s (fun _ => False) (drainPremise act a p) := by
  unfold Agents.drainPremise
  split
  · exact h
  split
  · exact h
  split
  · exact h
  rename_i drain _ _ _ _ _
  have hdrained : Acted limit s (fun _ => False)
      (Agents.move act .drained (.premise, p.premiseId) (-drain.beliefDelta) a) :=
    h.move _ (by decide)
  dsimp only
  split
  · exact List.foldlRecOn _ _ hdrained (fun a ha bloc _ => ha.move _ (by decide))
  · exact hdrained

theorem Acted.awakenBloc (h : Acted limit s (fun _ => False) a) (b : BlocDef) :
    Acted limit s (fun _ => False) (awakenBloc act a b) := by
  unfold Agents.awakenBloc
  split
  · exact h
  · exact h.move _ (by decide)

theorem Acted.see (h : Acted limit s seen a) (ht : ¬ seen t)
    (hleft : isDone (a.state.dial t) = true ∨ ¬ (t ∈ a.touched ∧ Past (limit t) (a.state.dial t))) :
    Acted limit s (fun u => seen u ∨ u = t) a := by
  refine h.stay rfl rfl rfl (fun u n hu => ?_)
  by_cases heq : u = t
  · subst heq
    simp only [ht, false_or] at hu ⊢
    exact hu.see hleft
  · simpa only [heq, or_false] using hu

/-- The threshold pass sees a dial. -/
theorem Acted.settle (h : Acted limit s seen a) (ht : ¬ seen t)
    (heffect : effect = .collapsed ∨ effect = .tipped) :
    Acted limit s (fun u => seen u ∨ u = t) (settle act effect limit a t) := by
  unfold Agents.settle
  split
  · rename_i htouched
    split
    · rename_i l d hl hd
      split
      · rename_i hdone
        exact h.see ht (.inl (by rw [hd]; exact hdone))
      · rename_i hopen
        rw [Bool.not_eq_true] at hopen
        split
        · rename_i hpast
          refine h.put hd rfl rfl (Int.add_zero _) rfl ?_ ?_ (fun n hturned => ?_)
          · intro u
            simp [record, BeliefLedgerEntry.Moved]
          · intro u hu
            simp [hu]
          · simp only [ht, or_true] at hturned ⊢
            have hmarks : [(⟨act.turn, act.actId, t, effect, 0, d.value, act.witnesses⟩ :
                BeliefLedgerEntry)].countP (·.marks t) = 1 := by
              simp [BeliefLedgerEntry.marks, heffect]
            rw [hmarks]
            exact hturned.cross hopen htouched ⟨l, d, hl, rfl, hpast⟩
        · rename_i hshort
          refine h.see ht (.inr ?_)
          rintro ⟨-, l', d', hl', hd', hpast⟩
          rw [hl] at hl'
          rw [hd] at hd'
          cases hl'
          cases hd'
          exact hshort hpast
    · rename_i hnone
      refine h.see ht (.inr ?_)
      rintro ⟨-, l, d, hl, hd, -⟩
      exact hnone l d hl hd
  · rename_i htouched
    exact h.see ht (.inr (fun hboth => htouched hboth.1))

theorem Acted.foldl_settle (heffect : effect = .collapsed ∨ effect = .tipped) {ts : List Target}
    (hts : ts.Nodup) (hnew : ∀ t ∈ ts, ¬ seen t) (h : Acted limit s seen a) :
    Acted limit s (fun u => seen u ∨ u ∈ ts) (ts.foldl (Agents.settle act effect limit) a) := by
  induction ts generalizing a seen with
  | nil => simpa using h
  | cons t ts ih =>
    rw [List.foldl_cons]
    obtain ⟨hfresh, hts⟩ := List.nodup_cons.mp hts
    have hone : Acted limit s _ (Agents.settle act effect limit a t) :=
      h.settle (hnew t (.head _)) heffect
    have hrest := ih hts (fun u hu => ?_) hone
    · simpa only [List.mem_cons, or_assoc] using hrest
    · rintro (hseen | rfl)
      · exact hnew u (.tail t hu) hseen
      · exact hfresh hu

theorem Acted.settleAll (heffect : effect = .collapsed ∨ effect = .tipped) {kind : TargetKind}
    (hnew : ∀ t, t.1 = kind → ¬ seen t) (h : Acted limit s seen a) :
    Acted limit s (fun u => seen u ∨ u.1 = kind ∧ (s.dial u).isSome)
      (settleAll act effect limit kind a) := by
  have hts : ((a.state.dials kind).keys.map (kind, ·)).Nodup :=
    (Dict.nodup_keys _).map (Prod.mk_right_injective kind)
  obtain ⟨_, -, -, -, hdials⟩ := id h
  have hall : Acted limit s _ (Agents.settleAll act effect limit kind a) :=
    h.foldl_settle heffect hts (by
      intro t ht
      obtain ⟨_, _, rfl⟩ := List.mem_map.mp ht
      exact hnew _ rfl)
  refine hall.stay rfl rfl rfl (fun u n hu => ?_)
  have hmem : u ∈ (a.state.dials kind).keys.map (kind, ·) ↔ u.1 = kind ∧ (s.dial u).isSome := by
    rw [← (hdials u).there, Option.isSome_iff_exists, List.mem_map]
    constructor
    · rintro ⟨key, hkey, rfl⟩
      exact ⟨rfl, Dict.mem_keys_iff_get?.mp hkey⟩
    · rintro ⟨rfl, hdial⟩
      exact ⟨u.2, Dict.mem_keys_iff_get?.mpr hdial, rfl⟩
  rwa [propext hmem] at hu

end Acted

/-! ### Acts and runs -/

section Run

variable (premises : List PremiseDef) (blocs : List BlocDef)

/-- The state that an act leaves. -/
def politicalStep (s : PoliticalState) (act : WitnessedAct) : PoliticalState :=
  (applyWitnessedAct act premises blocs s).2

/-- What one act does: its entries replay, it collapses and tips exactly the open targets that it
    moved past their thresholds, and leaves those that are done. -/
def ActKept (s : PoliticalState) (act : WitnessedAct) : Prop :=
  let after := politicalStep premises blocs s act
  ∃ es, after.ledger = s.ledger ++ es ∧ Replays s.value es after.value ∧
    ∀ t, Turned (limit premises blocs t) True (∃ e ∈ es, e.Moved t) (es.countP (·.marks t))
      (s.dial t) (after.dial t)

theorem actKept (s : PoliticalState) (act : WitnessedAct) : ActKept premises blocs s act := by
  have hstart : Acted (limit premises blocs) s (fun _ => False) ⟨s, [], []⟩ := by
    refine ⟨[], (List.append_nil _).symm, rfl, by simp, fun t => ⟨rfl, id, ?_, by simp, ?_⟩⟩
    · exact fun _ => ⟨rfl, by simp⟩
    · exact Nat.zero_add _
  have hdrained : Acted (limit premises blocs) s (fun _ => False)
      (premises.foldl (drainPremise act) ⟨s, [], []⟩) :=
    List.foldlRecOn _ _ hstart (fun a ha p _ => ha.drainPremise p)
  have hawake : Acted (limit premises blocs) s (fun _ => False)
      (blocs.foldl (awakenBloc act) (premises.foldl (drainPremise act) ⟨s, [], []⟩)) :=
    List.foldlRecOn _ _ hdrained (fun a ha b _ => ha.awakenBloc b)
  have hcollapsed : Acted _ s _ (settleAll act .collapsed (limit premises blocs) .premise _) :=
    hawake.settleAll (.inl rfl) (by simp)
  have htipped : Acted _ s _ (settleAll act .tipped (limit premises blocs) .bloc _) :=
    hcollapsed.settleAll (.inr rfl) (by rintro ⟨_, _⟩ rfl; simp)
  obtain ⟨es, hledger, hreplays, hmoved, hdials⟩ := htipped
  refine ⟨es, hledger, hreplays, fun t => ?_⟩
  have ht := hdials t
  rw [propext (hmoved t)] at ht
  refine { ht with crossed := ht.crossed.trans ?_ }
  -- a target without a dial is past no threshold, so the pass has seen all that count
  have hseen : Past (limit premises blocs t) ((politicalStep premises blocs s act).dial t) →
      (False ∨ t.1 = .premise ∧ (s.dial t).isSome) ∨ t.1 = .bloc ∧ (s.dial t).isSome := by
    rintro ⟨_, d, -, hd, -⟩
    have hthere : (s.dial t).isSome := by rw [← ht.there, Option.isSome_iff_exists]; exact ⟨d, hd⟩
    cases hkind : t.1 <;> simp [hthere]
  unfold politicalStep applyWitnessedAct at hseen
  tauto

theorem politicalRun_ledger (s : PoliticalState) (acts : List WitnessedAct) :
    ∃ es, (run (politicalStep premises blocs) s acts).ledger = s.ledger ++ es ∧
      Replays s.value es (run (politicalStep premises blocs) s acts).value ∧
      ∀ t, es.countP (·.marks t) + (isDone (s.dial t)).toNat
        = (isDone ((run (politicalStep premises blocs) s acts).dial t)).toNat := by
  induction acts generalizing s with
  | nil => exact ⟨[], (List.append_nil _).symm, rfl, fun t => Nat.zero_add _⟩
  | cons act acts ih =>
    obtain ⟨es, hledger, hreplays, hturned⟩ := actKept premises blocs s act
    obtain ⟨fs, hledger', hreplays', hmarks⟩ := ih (politicalStep premises blocs s act)
    refine ⟨es ++ fs, ?_, hreplays.append hreplays', fun t => ?_⟩
    · rw [run_cons, hledger', hledger, List.append_assoc]
    · have hone := (hturned t).marked
      have hrest := hmarks t
      rw [run_cons, List.countP_append]
      omega

/-- **The political law of a run.** -/
theorem politicalRun_spec {s : PoliticalState} (hs : ∀ t, InRange (s.dial t))
    (acts : List WitnessedAct) :
    Throughout (politicalStep premises blocs) (fun s => ∀ t, InRange (s.dial t)) s acts ∧
    StepsMeet (politicalStep premises blocs) (ActKept premises blocs) s acts ∧
    (∀ pre post t, acts = pre ++ post →
      isDone ((run (politicalStep premises blocs) s pre).dial t) = true →
      (run (politicalStep premises blocs) s acts).dial t
        = (run (politicalStep premises blocs) s pre).dial t) ∧
    ∃ es, (run (politicalStep premises blocs) s acts).ledger = s.ledger ++ es ∧
      Replays s.value es (run (politicalStep premises blocs) s acts).value ∧
      ∀ t, es.countP (·.marks t) ≤ 1 := by
  refine ⟨throughout_of_step ?_ hs acts, stepsMeet_of_forall (actKept premises blocs) s acts, ?_, ?_⟩
  · intro s act hs t
    obtain ⟨_, -, -, hturned⟩ := actKept premises blocs s act
    exact (hturned t).range (hs t)
  · rintro pre post t rfl hdone
    have hrun : run (politicalStep premises blocs) s (pre ++ post)
        = run (politicalStep premises blocs) (run (politicalStep premises blocs) s pre) post :=
      List.foldl_append
    rw [hrun]
    generalize run (politicalStep premises blocs) s pre = mid at hdone ⊢
    refine (throughout_of_step (I := fun s : PoliticalState => s.dial t = mid.dial t) ?_ rfl post).last
    intro s act heq
    obtain ⟨_, -, -, hturned⟩ := actKept premises blocs s act
    exact ((hturned t).frozen (heq ▸ hdone)).1.trans heq
  · obtain ⟨es, hledger, hreplays, hmarks⟩ := politicalRun_ledger premises blocs s acts
    refine ⟨es, hledger, hreplays, fun t => ?_⟩
    have hone := hmarks t
    have hle := Bool.toNat_le (isDone ((run (politicalStep premises blocs) s acts).dial t))
    omega

end Run

/-- A throne that the citizens prop up. -/
def wizard : PremiseDef := ⟨"wizard", ["citizens"], [⟨"unmask", 40⟩], 0, "The throne is empty."⟩

/-- The citizens, whom nothing awakens but the fall of belief. -/
def citizens : BlocDef := ⟨"citizens", [], 70, "They march."⟩

/-- Little belief is left, and little patience. -/
def humbug : PoliticalState where
  dials
    | .premise => Dict.empty.insert "wizard" ⟨30, false⟩
    | .bloc => Dict.empty.insert "citizens" ⟨60, false⟩
  ledger := []

/-- The second act finds nothing left to move. -/
theorem politicalRun_spec_wizard :
    (run (politicalStep [wizard] [citizens]) humbug [⟨"unmask", ["dorothy"], 1⟩]).value
      (.premise, "wizard") = some 0 ∧
    ∃ es, (run (politicalStep [wizard] [citizens]) humbug
        [⟨"unmask", ["dorothy"], 1⟩, ⟨"unmask", ["toto"], 2⟩]).ledger = [] ++ es ∧
      ∀ t, es.countP (·.marks t) ≤ 1 := by
  have hs : ∀ t, InRange (humbug.dial t) := by
    rintro ⟨_ | _, key⟩ d hd
    all_goals
      simp only [PoliticalState.dial, humbug, Dict.get?_insert, Dict.get?_empty] at hd
      split at hd
      · cases hd
        decide
      · cases hd
  obtain ⟨-, -, -, es, hledger, -, hmarks⟩ := politicalRun_spec [wizard] [citizens] hs
    [⟨"unmask", ["dorothy"], 1⟩, ⟨"unmask", ["toto"], 2⟩]
  exact ⟨by decide, es, hledger, hmarks⟩

end Sidequest.Agents
