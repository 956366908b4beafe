import Mathlib.Data.List.Forall2

namespace Sidequest.Lib

/-!
# Computations that may fail

Rules for `Except` programs that returned a value.

* `bind_eq_ok` — a sequence returned, so its parts did;
* `foldlM_invariant` — the induction over a monadic fold that returned: what holds of the start
  and is kept by each step, of the elements taken so far and the state, holds at the end;
* `exists_foldlM` — a fold whose steps all return returns.
-/

universe u

variable {ε α β σ : Type u}

/-- What stands on the right of related lists has something related on the left. -/
theorem exists_of_forall₂ {α β : Type*} {R : α → β → Prop} {l : List α} {l' : List β}
    (h : List.Forall₂ R l l') {b : β} (hb : b ∈ l') : ∃ a ∈ l, R a b := by
  induction h with
  | nil => simp at hb
  | cons hab _ ih =>
    rcases List.mem_cons.mp hb with rfl | hb
    · exact ⟨_, .head _, hab⟩
    · obtain ⟨a, ha, hR⟩ := ih hb
      exact ⟨a, .tail _ ha, hR⟩

/-- What stands on the left of related lists has something related on the right. -/
theorem exists_of_forall₂_left {α β : Type*} {R : α → β → Prop} {l : List α} {l' : List β}
    (h : List.Forall₂ R l l') {a : α} (ha : a ∈ l) : ∃ b ∈ l', R a b :=
  exists_of_forall₂ (R := flip R) (List.Forall₂.flip h) ha

theorem forall₂_trans {R : α → α → Prop} [IsTrans α R] {l₁ l₂ l₃ : List α}
    (h : List.Forall₂ R l₁ l₂) (h' : List.Forall₂ R l₂ l₃) : List.Forall₂ R l₁ l₃ := by
  induction h generalizing l₃ with
  | nil => exact h'
  | cons hab _ ih =>
    obtain ⟨c, l, hbc, hl, rfl⟩ := List.forall₂_cons_left_iff.mp h'
    exact .cons (trans_of R hab hbc) (ih hl)

variable {f : α → Except ε β}

/-- A sequence of two computations returns exactly if both do. -/
theorem bind_eq_ok {x : Except ε α} {b : β} : x >>= f = .ok b ↔ ∃ a, x = .ok a ∧ f a = .ok b := by
  cases x with
  | error e => simp [bind, Except.bind]
  | ok a => simp [bind, Except.bind]

theorem toOption_eq_some {x : Except ε α} {a : α} : x.toOption = some a ↔ x = .ok a := by
  cases x with
  | error e => simp [Except.toOption]
  | ok b => simp [Except.toOption]

/-- A loop that collects values returned exactly if each of its steps did. -/
theorem mapM_eq_ok_iff {l : List α} {bs : List β} :
    l.mapM f = .ok bs ↔ List.Forall₂ (fun a b => f a = .ok b) l bs := by
  induction l generalizing bs with
  | nil =>
    rw [List.mapM_nil, List.forall₂_nil_left_iff]
    exact ⟨fun h => (Except.ok.inj h).symm, fun h => h ▸ rfl⟩
  | cons a l ih =>
    rw [List.mapM_cons, bind_eq_ok, List.forall₂_cons_left_iff]
    constructor
    · rintro ⟨b, hb, h⟩
      rw [bind_eq_ok] at h
      obtain ⟨rest, hrest, h⟩ := h
      exact ⟨b, rest, hb, ih.mp hrest, (Except.ok.inj h).symm⟩
    · rintro ⟨b, rest, hb, hrest, rfl⟩
      refine ⟨b, hb, ?_⟩
      rw [bind_eq_ok]
      exact ⟨rest, ih.mpr hrest, rfl⟩

/-- A loop that collects values raises exactly if one of its steps does. -/
theorem mapM_eq_error_iff {l : List α} :
    (∃ e, l.mapM f = .error e) ↔ ∃ a ∈ l, ∃ e, f a = .error e := by
  induction l with
  | nil => simp [pure, Except.pure]
  | cons a l ih =>
    rw [List.mapM_cons, List.exists_mem_cons_iff, ← ih]
    cases hstep : f a with
    | error e => simp [bind, Except.bind]
    | ok b =>
      cases hrest : l.mapM f with
      | error e => simp [bind, Except.bind]
      | ok bs => simp [bind, Except.bind, pure, Except.pure]

/-- Each step of a loop that returned has returned one of the values collected. -/
theorem exists_mem_of_mapM {l : List α} {bs : List β} (h : l.mapM f = .ok bs) {a : α} (ha : a ∈ l) :
    ∃ b ∈ bs, f a = .ok b := by
  rw [mapM_eq_ok_iff] at h
  induction h with
  | nil => cases ha
  | @cons a' b l bs hb _ ih =>
    rcases List.mem_cons.mp ha with rfl | ha
    · exact ⟨b, .head _, hb⟩
    · obtain ⟨b', hb', hstep⟩ := ih ha
      exact ⟨b', .tail b hb', hstep⟩

/-- What is counted among the values collected is counted among the elements. -/
theorem countP_of_mapM {l : List α} {bs : List β} (h : l.mapM f = .ok bs) (p : β → Bool) :
    bs.countP p = l.countP (fun a => (f a).toOption.any p) := by
  rw [mapM_eq_ok_iff] at h
  induction h with
  | nil => rfl
  | cons hb _ ih =>
    rw [List.countP_cons, List.countP_cons, ih, hb]
    rfl

/-- **Invariant rule for a fold that returned.** The invariant speaks of the elements taken so
    far and of the state they led to. -/
theorem foldlM_invariant {f : σ → α → Except ε σ} (I : List α → σ → Prop) {l : List α}
    {s s' : σ} (hinit : I [] s)
    (hstep : ∀ pre a post t t', l = pre ++ a :: post → I pre t → f t a = .ok t' →
      I (pre ++ [a]) t') (hrun : l.foldlM f s = .ok s') : I l s' := by
  -- generalize over what has been taken: the list is `taken ++ rest`
  have key : ∀ rest taken t, l = taken ++ rest → I taken t → rest.foldlM f t = .ok s' →
      I l s' := by
    intro rest
    induction rest with
    | nil =>
      intro taken t hl hI hrest
      have ht : t = s' := by
        exact Except.ok.inj hrest
      rw [hl, List.append_nil, ← ht]
      exact hI
    | cons a rest ih =>
      intro taken t hl hI hrest
      rw [List.foldlM_cons, bind_eq_ok] at hrest
      obtain ⟨t', ht', hrest'⟩ := hrest
      refine ih (taken ++ [a]) t' ?_ (hstep taken a rest t t' hl hI ht') hrest'
      rw [hl, List.append_assoc]
      rfl
  exact key l [] s rfl hinit hrun

/-- Every step of a fold that returned has returned. -/
theorem exists_ok_of_foldlM {f : σ → α → Except ε σ} {l : List α} {s s' : σ}
    (hrun : l.foldlM f s = .ok s') {a : α} (ha : a ∈ l) : ∃ t t', f t a = .ok t' := by
  have h := foldlM_invariant (fun pre _ => ∀ b ∈ pre, ∃ t t', f t b = .ok t') (by simp)
    (fun pre b _ t t' _ hI ht b' hb' => by
      rcases List.mem_append.mp hb' with hpre | hlast
      · exact hI b' hpre
      · rw [List.mem_singleton.mp hlast]
        exact ⟨t, t', ht⟩) hrun
  exact h a ha

/-- A fold whose steps all return, and keep an invariant, returns and keeps it. -/
theorem exists_foldlM {f : σ → α → Except ε σ} {I : σ → Prop} {l : List α}
    (hstep : ∀ s, I s → ∀ a ∈ l, ∃ t, f s a = .ok t ∧ I t) {s : σ} (hs : I s) :
    ∃ t, l.foldlM f s = .ok t ∧ I t := by
  induction l generalizing s with
  | nil => exact ⟨s, rfl, hs⟩
  | cons a l ih =>
    obtain ⟨t, ht, hI⟩ := hstep s hs a (.head _)
    obtain ⟨t', hrest, hI'⟩ := ih (fun u hu b hb => hstep u hu b (.tail a hb)) hI
    refine ⟨t', ?_, hI'⟩
    rw [List.foldlM_cons, bind_eq_ok]
    exact ⟨t, ht, hrest⟩

end Sidequest.Lib
