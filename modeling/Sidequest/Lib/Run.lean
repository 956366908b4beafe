import Mathlib.Data.List.Infix

namespace Sidequest.Lib

/-!
# Runs of a system that takes one event at a time

A system is a step function `step : σ → ε → σ`; a run is a list of events folded over it.

* `Throughout step P s es` — `P` holds in every state the run visits, first and last included;
* `throughout_iff_stepsMeet` — the exact form: when a step that misses `ok` breaks `P` at once,
  the runs that keep `P` are exactly the runs whose steps meet `ok`.
-/

universe u v

variable {σ : Type u} {ε : Type v} (step : σ → ε → σ)

/-- The state after the events `es`. -/
def run (s : σ) (es : List ε) : σ := es.foldl step s

/-- `P` holds in every state of the run, the first and the last included. -/
def Throughout (P : σ → Prop) : σ → List ε → Prop
  | s, [] => P s
  | s, e :: es => P s ∧ Throughout P (step s e) es

/-- Every event of the run meets `ok` in the state it arrives in. -/
def StepsMeet (ok : σ → ε → Prop) : σ → List ε → Prop
  | _, [] => True
  | s, e :: es => ok s e ∧ StepsMeet ok (step s e) es

instance decidableStepsMeet (ok : σ → ε → Prop) [∀ s e, Decidable (ok s e)] :
    (s : σ) → (es : List ε) → Decidable (StepsMeet step ok s es)
  | _, [] => .isTrue trivial
  | s, e :: es =>
    have := decidableStepsMeet ok (step s e) es
    inferInstanceAs (Decidable (ok s e ∧ StepsMeet step ok (step s e) es))

variable {step}

@[simp] theorem run_nil (s : σ) : run step s [] = s := rfl

@[simp] theorem run_cons (s : σ) (e : ε) (es : List ε) :
    run step s (e :: es) = run step (step s e) es := rfl

variable {es : List ε} {s : σ}

/-- `Throughout` read off the prefixes of the run. -/
theorem throughout_iff_initial {P : σ → Prop} :
    Throughout step P s es ↔ ∀ pre, pre <+: es → P (run step s pre) := by
  induction es generalizing s with
  | nil =>
    constructor
    · rintro h pre hpre
      rw [List.prefix_nil.mp hpre]
      exact h
    · intro h
      exact h [] (List.prefix_refl _)
  | cons e es ih =>
    constructor
    · rintro ⟨hs, htail⟩ pre hpre
      rcases List.prefix_cons_iff.mp hpre with rfl | ⟨t, rfl, ht⟩
      · exact hs
      · exact ih.mp htail t ht
    · intro h
      refine ⟨h [] List.nil_prefix, ih.mpr (fun pre hpre => ?_)⟩
      exact h (e :: pre) (List.prefix_cons_inj e |>.mpr hpre)

/-- `StepsMeet` read off the places of the run. -/
theorem stepsMeet_iff_forall {ok : σ → ε → Prop} : StepsMeet step ok s es ↔
      ∀ pre e post, es = pre ++ e :: post → ok (run step s pre) e := by
  induction es generalizing s with
  | nil => simp [StepsMeet]
  | cons e es ih =>
    constructor
    · rintro ⟨hs, htail⟩ pre e' post heq
      cases pre with
      | nil =>
        cases heq
        exact hs
      | cons a pre =>
        obtain ⟨rfl, heq'⟩ := List.cons.inj heq
        exact ih.mp htail pre e' post heq'
    · intro h
      refine ⟨h [] e es rfl, ih.mpr (fun pre e' post heq => ?_)⟩
      exact h (e :: pre) e' post (by rw [heq]; rfl)

theorem Throughout.mono {P Q : σ → Prop} (h : Throughout step P s es) (hPQ : ∀ s, P s → Q s) :
    Throughout step Q s es :=
  throughout_iff_initial.mpr (fun pre hpre => hPQ _ (throughout_iff_initial.mp h pre hpre))

theorem StepsMeet.mono {ok ok' : σ → ε → Prop} (h : StepsMeet step ok s es)
    (hok : ∀ s e, ok s e → ok' s e) : StepsMeet step ok' s es :=
  stepsMeet_iff_forall.mpr (fun pre e post heq => hok _ _ (stepsMeet_iff_forall.mp h pre e post heq))

/-- The steps of a first part of a run are steps of the run. -/
theorem StepsMeet.of_prefix {ok : σ → ε → Prop} {pre : List ε} (h : StepsMeet step ok s es)
    (hpre : pre <+: es) : StepsMeet step ok s pre := by
  obtain ⟨rest, rfl⟩ := hpre
  refine stepsMeet_iff_forall.mpr (fun done e post heq => ?_)
  exact stepsMeet_iff_forall.mp h done e (post ++ rest) (by rw [heq, List.append_assoc]; rfl)

theorem stepsMeet_append {ok : σ → ε → Prop} {es' : List ε} : StepsMeet step ok s (es ++ es') ↔
      StepsMeet step ok s es ∧ StepsMeet step ok (run step s es) es' := by
  induction es generalizing s with
  | nil => exact (and_iff_right trivial).symm
  | cons e es ih => exact (and_congr_right (fun _ => ih)).trans and_assoc.symm

/-- Conditions that agree on the events of a run are met by the same runs. -/
theorem stepsMeet_congr {ok ok' : σ → ε → Prop} (h : ∀ e ∈ es, ∀ s, ok s e ↔ ok' s e) (s : σ) :
    StepsMeet step ok s es ↔ StepsMeet step ok' s es := by
  induction es generalizing s with
  | nil => exact Iff.rfl
  | cons e es ih =>
    have htail := ih (fun e' he' => h e' (.tail e he')) (step s e)
    exact and_congr (h e (.head _) s) htail

/-- Every step meets a condition that holds of all states and events. -/
theorem stepsMeet_of_forall {ok : σ → ε → Prop} (h : ∀ s e, ok s e) (s : σ) (es : List ε) :
    StepsMeet step ok s es :=
  stepsMeet_iff_forall.mpr (fun _ _ _ _ => h _ _)

/-- The last state of a run has every property that holds throughout. -/
theorem Throughout.last {P : σ → Prop} (h : Throughout step P s es) : P (run step s es) :=
  throughout_iff_initial.mp h es (List.prefix_refl es)

/-! ### The induction over a run -/

section Invariant

variable {I P : σ → Prop} {ok Q : σ → ε → Prop}

/-- **Invariant rule for states.** An invariant that the steps meeting `ok` keep holds
    throughout every run of such steps. -/
theorem throughout_of_invariant (hstep : ∀ s e, I s → ok s e → I (step s e)) (hs : I s)
    (hes : StepsMeet step ok s es) : Throughout step I s es := by
  induction es generalizing s with
  | nil => exact hs
  | cons e es ih => exact ⟨hs, ih (hstep s e hs hes.1) hes.2⟩

/-- An invariant that every step keeps holds throughout every run. -/
theorem throughout_of_step (hstep : ∀ s e, I s → I (step s e)) (hs : I s) (es : List ε) :
    Throughout step I s es :=
  throughout_of_invariant (fun s e h _ => hstep s e h) hs
    (stepsMeet_of_forall (fun _ _ => trivial) s es)

/-- **Invariant rule for steps.** What an invariant gives of the single step holds of every
    step of a run that keeps the invariant. -/
theorem stepsMeet_of_invariant (hstep : ∀ s e, I s → ok s e → I (step s e))
    (hQ : ∀ s e, I s → ok s e → Q s e) (hs : I s) (hes : StepsMeet step ok s es) :
    StepsMeet step Q s es := by
  induction es generalizing s with
  | nil => trivial
  | cons e es ih => exact ⟨hQ s e hs hes.1, ih (hstep s e hs hes.1) hes.2⟩

/-- **Exact rule.** When steps that meet `ok` keep an invariant that gives `P`, and others break `P`
    at once, the runs that keep `P` are those whose steps all meet `ok`. -/
theorem throughout_iff_stepsMeet (hstep : ∀ s e, I s → ok s e → I (step s e)) (hI : ∀ s, I s → P s)
    (hbreak : ∀ s e, I s → ¬ ok s e → ¬ P (step s e)) (hs : I s) :
    Throughout step P s es ↔ StepsMeet step ok s es := by
  constructor
  · intro h
    induction es generalizing s with
    | nil => trivial
    | cons e es ih =>
      have hok : ok s e := by
        by_contra hnot
        exact hbreak s e hs hnot (throughout_iff_initial.mp h.2 [] List.nil_prefix)
      exact ⟨hok, ih (hstep s e hs hok) h.2⟩
  · intro h
    exact (throughout_of_invariant hstep hs h).mono hI

/-- **Exact rule, step by step**, for runs whose steps all meet `given`: if a step out of `P` keeps
    `P` exactly where it meets `ok`, the runs that keep `P` are those whose steps all meet `ok`. -/
theorem throughout_iff_stepsMeet_of_given {given : σ → ε → Prop}
    (hstep : ∀ s e, I s → given s e → I (step s e))
    (hP : ∀ s e, I s → given s e → P s → (P (step s e) ↔ ok s e)) (hs : I s) (hstart : P s)
    (hes : StepsMeet step given s es) : Throughout step P s es ↔ StepsMeet step ok s es := by
  induction es generalizing s with
  | nil => exact iff_of_true hstart trivial
  | cons e es ih =>
    have hone := hP s e hs hes.1 hstart
    constructor
    · intro h
      have hnext := throughout_iff_initial.mp h.2 [] List.nil_prefix
      exact ⟨hone.mp hnext, (ih (hstep s e hs hes.1) hnext hes.2).mp h.2⟩
    · intro h
      exact ⟨hstart, (ih (hstep s e hs hes.1) (hone.mpr h.1) hes.2).mpr h.2⟩

end Invariant

/-! ### Runs without some of their events -/

/-- **Unwinding.** If own events lead related states to related states and others leave the second
    one behind, the own events alone end in a related state. -/
theorem sim_run_filter {sim : σ → σ → Prop} {own : ε → Bool} {ok : σ → ε → Prop}
    (hown : ∀ s t e, sim s t → ok s e → own e = true → sim (step s e) (step t e))
    (hother : ∀ s t e, sim s t → ok s e → own e = false → sim (step s e) t) {t : σ} (h : sim s t)
    (hes : StepsMeet step ok s es) : sim (run step s es) (run step t (es.filter own)) := by
  induction es generalizing s t with
  | nil => exact h
  | cons e es ih =>
    obtain ⟨hok, hes⟩ := hes
    cases he : own e with
    | true =>
      rw [List.filter_cons_of_pos he]
      exact ih (hown s t e h hok he) hes
    | false =>
      rw [List.filter_cons_of_neg (by simp [he])]
      exact ih (hother s t e h hok he) hes

/-- A run in which all other events leave the state as it is, is the run of the own events. -/
theorem run_filter_of_idle {own : ε → Bool}
    (h : StepsMeet step (fun s e => own e = true ∨ step s e = s) s es) :
    run step s es = run step s (es.filter own) := by
  induction es generalizing s with
  | nil => rfl
  | cons e es ih =>
    obtain ⟨hidle, hes⟩ := h
    rw [run_cons, ih hes]
    cases he : own e with
    | true => rw [List.filter_cons_of_pos he, run_cons]
    | false =>
      rw [List.filter_cons_of_neg (by simp [he]), hidle.resolve_left (by simp [he])]

/-! ### What a run uses up -/

/-- What the steps of a run use up, step by step. -/
def tally (step : σ → ε → σ) (used : σ → ε → Nat) : σ → List ε → Nat
  | _, [] => 0
  | s, e :: es => used s e + tally step used (step s e) es

section Tally

variable {used : σ → ε → Nat} {stock : σ → Int}

/-- What every step takes from a stock is what the run has taken from it. -/
theorem tally_conserved (h : ∀ s e, stock (step s e) + used s e = stock s) (s : σ) (es : List ε) :
    stock (run step s es) + tally step used s es = stock s := by
  induction es generalizing s with
  | nil =>
    rw [run_nil, tally]
    omega
  | cons e es ih =>
    have hstep := h s e
    have hrest := ih (step s e)
    rw [run_cons, tally]
    omega

/-- A run uses up no more than a stock of which every step leaves no more than it did not use. -/
theorem tally_le_stock {stock : σ → Nat} (h : ∀ s e, stock (step s e) + used s e ≤ stock s) (s : σ)
    (es : List ε) : tally step used s es ≤ stock s := by
  induction es generalizing s with
  | nil => exact Nat.zero_le _
  | cons e es ih =>
    have hstep := h s e
    have hrest := ih (step s e)
    rw [tally]
    omega

/-- A run uses up no more than the stock it starts with, if no step uses what is not there. -/
theorem tally_le (h : ∀ s e, stock (step s e) + used s e = stock s)
    (hthere : ∀ s e, 0 < used s e → (used s e : Int) ≤ stock s) (s : σ) (es : List ε) :
    (tally step used s es : Int) ≤ max 0 (stock s) := by
  induction es generalizing s with
  | nil =>
    rw [tally]
    omega
  | cons e es ih =>
    have hstep := h s e
    have hrest := ih (step s e)
    have hused := hthere s e
    rw [tally]
    omega

end Tally

end Sidequest.Lib
