import Sidequest.Lib.Pattern

namespace Sidequest.Lib.Pat

/-!
# What the words of a pattern look like

Facts about all words of a pattern that can be computed from the pattern, and what they say
about replacing factors of a text.

* `nullable`, `has`, `starts`, `ends`, `pair` — which characters, and which two in a row, a word
  may contain; `Clear` — a factor never begins inside a word;
* `doubles`, `undoubles` — a separator may be doubled, or two of them merged, wherever it stands
  in a word;
* `Occurs.replace` — a replacement that never touches the ends of a word keeps occurrences.
-/

variable {α : Type*}

/-! ### Characters of the words -/

/-- The empty text may be a word. -/
def nullable : Pat α → Bool
  | .eps => true
  | .cls _ => false
  | .many _ => true
  | .seq a b => a.nullable && b.nullable
  | .alt a b => a.nullable || b.nullable

/-- A word may contain `x`. -/
def has (x : α) : Pat α → Bool
  | .eps => false
  | .cls p => p x
  | .many p => p x
  | .seq a b => a.has x || b.has x
  | .alt a b => a.has x || b.has x

/-- A word may begin with `x`. -/
def starts (x : α) : Pat α → Bool
  | .eps => false
  | .cls p => p x
  | .many p => p x
  | .seq a b => a.starts x || (a.nullable && b.starts x)
  | .alt a b => a.starts x || b.starts x

/-- A word may end with `x`. -/
def ends (x : α) : Pat α → Bool
  | .eps => false
  | .cls p => p x
  | .many p => p x
  | .seq a b => b.ends x || (b.nullable && a.ends x)
  | .alt a b => a.ends x || b.ends x

/-- A word may contain `x` right before `y`. -/
def pair (x y : α) : Pat α → Bool
  | .eps => false
  | .cls _ => false
  | .many p => p x && p y
  | .seq a b => a.pair x y || b.pair x y || (a.ends x && b.starts y)
  | .alt a b => a.pair x y || b.pair x y

variable {a : Pat α}

theorem nullable_of_matches (h : a.Matches []) : a.nullable = true := by
  induction a with
  | eps => rfl
  | cls p =>
    obtain ⟨c, hc, -⟩ := h
    simp at hc
  | many p => rfl
  | seq a b iha ihb =>
    obtain ⟨u, v, huv, hu, hv⟩ := h
    obtain ⟨rfl, rfl⟩ := List.append_eq_nil_iff.mp huv.symm
    rw [nullable, iha hu, ihb hv]
    rfl
  | alt a b iha ihb =>
    rw [nullable, Bool.or_eq_true]
    exact h.imp iha ihb

/-- A pattern that cannot match nothing does not. -/
theorem not_matches_nil (h : a.nullable = false) : ¬ a.Matches [] := by
  intro hm
  rw [nullable_of_matches hm] at h
  simp at h

variable {w : List α}

theorem has_of_matches {x : α} (h : a.Matches w) (hx : x ∈ w) : a.has x = true := by
  induction a generalizing w with
  | eps =>
    rw [show w = [] from h] at hx
    simp at hx
  | cls p =>
    obtain ⟨c, rfl, hc⟩ := h
    rw [List.mem_singleton.mp hx]
    exact hc
  | many p => exact h x hx
  | seq a b iha ihb =>
    obtain ⟨u, v, rfl, hu, hv⟩ := h
    rw [has, Bool.or_eq_true]
    exact (List.mem_append.mp hx).imp (iha hu) (ihb hv)
  | alt a b iha ihb =>
    rw [has, Bool.or_eq_true]
    exact h.imp (fun h => iha h hx) (fun h => ihb h hx)

variable {v : List α}

theorem starts_of_matches {x : α} (h : a.Matches (x :: v)) : a.starts x = true := by
  induction a generalizing v with
  | eps => simp [Matches] at h
  | cls p =>
    obtain ⟨c, hc, hp⟩ := h
    rw [starts, (List.cons.inj hc).1]
    exact hp
  | many p => exact h x (.head _)
  | seq a b iha ihb =>
    obtain ⟨u, u', huv, hu, hu'⟩ := h
    rw [starts, Bool.or_eq_true, Bool.and_eq_true]
    cases u with
    | nil =>
      rw [List.nil_append] at huv
      rw [← huv] at hu'
      exact .inr ⟨nullable_of_matches hu, ihb hu'⟩
    | cons c u =>
      rw [← (List.cons.inj huv).1] at hu
      exact .inl (iha hu)
  | alt a b iha ihb =>
    rw [starts, Bool.or_eq_true]
    exact h.imp iha ihb

theorem ends_of_matches {x : α} (h : a.Matches (v ++ [x])) : a.ends x = true := by
  induction a generalizing v with
  | eps => simp [Matches] at h
  | cls p =>
    obtain ⟨c, hc, hp⟩ := h
    have hxc : x = c := by
      have hlast := List.append_inj_right' (hc.trans (List.nil_append [c]).symm) rfl
      exact List.singleton_inj.mp hlast
    rw [ends, hxc]
    exact hp
  | many p => exact h x (by simp)
  | seq a b iha ihb =>
    obtain ⟨u, u', huv, hu, hu'⟩ := h
    rw [ends, Bool.or_eq_true, Bool.and_eq_true]
    rcases List.eq_nil_or_concat' u' with rfl | ⟨t, c, rfl⟩
    · rw [List.append_nil] at huv
      rw [← huv] at hu
      exact .inr ⟨nullable_of_matches hu', iha hu⟩
    · rw [← List.append_assoc] at huv
      have hlast := List.singleton_inj.mp (List.append_inj_right' huv rfl)
      rw [← hlast] at hu'
      exact .inl (ihb hu')
  | alt a b iha ihb =>
    rw [ends, Bool.or_eq_true]
    exact h.imp iha ihb

theorem pair_of_matches {x y : α} (h : a.Matches w) (hxy : [x, y] <:+: w) : a.pair x y = true := by
  induction a generalizing w with
  | eps =>
    rw [show w = [] from h] at hxy
    cases List.infix_nil.mp hxy
  | cls p =>
    obtain ⟨c, rfl, -⟩ := h
    exact absurd hxy.length_le (by simp)
  | many p =>
    rw [pair, h x (hxy.subset (by simp)), h y (hxy.subset (by simp))]
    rfl
  | seq a b iha ihb =>
    obtain ⟨u, v, rfl, hu, hv⟩ := h
    rw [pair, Bool.or_eq_true, Bool.or_eq_true, Bool.and_eq_true]
    rcases List.infix_append_iff_ne_nil.mp hxy with hl | hr | ⟨l₁, l₂, h₁, h₂, hl, hsuf, hpre⟩
    · exact .inl (.inl (iha hu hl))
    · exact .inl (.inr (ihb hv hr))
    · -- the two characters stand on either side of the seam
      have hsplit : l₁ = [x] ∧ l₂ = [y] := by
        rcases l₁ with _ | ⟨c, _ | ⟨d, t⟩⟩
        · exact absurd rfl h₁
        · obtain ⟨hx, hy⟩ := List.cons.inj hl
          exact ⟨by rw [hx], hy.symm⟩
        · obtain ⟨-, hy⟩ := List.cons.inj hl
          obtain ⟨-, hnil⟩ := List.cons.inj hy
          exact absurd (List.append_eq_nil_iff.mp hnil.symm).2 h₂
      obtain ⟨rfl, rfl⟩ := hsplit
      obtain ⟨s, rfl⟩ := hsuf
      obtain ⟨t, rfl⟩ := hpre
      exact .inr ⟨ends_of_matches hu, starts_of_matches hv⟩
  | alt a b iha ihb =>
    rw [pair, Bool.or_eq_true]
    exact h.imp (fun h => iha h hxy) (fun h => ihb h hxy)

/-! ### Patterns in a row -/

theorem matches_seqs_append {ps qs : List (Pat α)} : (seqs (ps ++ qs)).Matches w ↔
      ∃ u v, w = u ++ v ∧ (seqs ps).Matches u ∧ (seqs qs).Matches v := by
  induction ps generalizing w with
  | nil =>
    refine ⟨fun h => ⟨[], w, rfl, rfl, h⟩, ?_⟩
    rintro ⟨u, v, rfl, rfl, hv⟩
    exact hv
  | cons p ps ih =>
    refine ⟨?_, ?_⟩
    · rintro ⟨s, t, rfl, hs, ht⟩
      obtain ⟨u, v, rfl, hu, hv⟩ := ih.mp ht
      exact ⟨s ++ u, v, (List.append_assoc s u v).symm, ⟨s, u, rfl, hs, hu⟩, hv⟩
    · rintro ⟨u, v, rfl, ⟨s, t, rfl, hs, ht⟩, hv⟩
      exact ⟨s, t ++ v, List.append_assoc s t v, hs, ih.mpr ⟨t, v, rfl, ht, hv⟩⟩

/-- A row that begins with a class begins with a character of the class. -/
theorem starts_seqs_cls (p : α → Bool) (ps : List (Pat α)) (x : α) :
    (seqs (.cls p :: ps)).starts x = p x := by
  show (p x || (false && (seqs ps).starts x)) = p x
  rw [Bool.false_and, Bool.or_false]

/-- A row that ends with a class ends with a character of the class. -/
theorem ends_seqs_cls (ps : List (Pat α)) (p : α → Bool) (x : α) :
    (seqs (ps ++ [.cls p])).ends x = p x ∧ (seqs (ps ++ [.cls p])).nullable = false := by
  induction ps with
  | nil =>
    refine ⟨?_, rfl⟩
    show (false || (true && p x)) = p x
    rw [Bool.true_and, Bool.false_or]
  | cons a ps ih =>
    obtain ⟨hends, hnull⟩ := ih
    refine ⟨?_, ?_⟩
    · show ((seqs (ps ++ [.cls p])).ends x || ((seqs (ps ++ [.cls p])).nullable && a.ends x)) = p x
      rw [hends, hnull, Bool.false_and, Bool.or_false]
    · show (a.nullable && (seqs (ps ++ [.cls p])).nullable) = false
      rw [hnull, Bool.and_false]

/-! ### Factors that never begin inside a word -/

/-- Wherever a word and the factor `x` stand in one text, the word from its front, the factor
    begins behind the word. -/
def Clear (a : Pat α) (x : List α) : Prop :=
  ∀ w rest u v, a.Matches w → w ++ rest = u ++ (x ++ v) → w.length ≤ u.length

variable {x : List α}

/-- No word has the factor's first character. -/
theorem clear_of_has {c : α} (h : a.has c = false) : a.Clear (c :: x) := by
  intro w rest u v hw heq
  rcases List.append_eq_append_iff.mp heq with ⟨z, rfl, -⟩ | ⟨z, rfl, hz⟩
  · rw [List.length_append]
    omega
  · cases z with
    | nil => simp
    | cons d z =>
      obtain ⟨rfl, -⟩ := List.cons.inj hz
      rw [has_of_matches hw (by simp)] at h
      simp at h

/-- No word has the factor's first two characters in a row, or ends with the first. -/
theorem clear_of_pair {c d : α} (hpair : a.pair c d = false) (hends : a.ends c = false) :
    a.Clear (c :: d :: x) := by
  intro w rest u v hw heq
  rcases List.append_eq_append_iff.mp heq with ⟨z, rfl, -⟩ | ⟨z, rfl, hz⟩
  · rw [List.length_append]
    omega
  · rcases z with _ | ⟨e, _ | ⟨f, z⟩⟩
    · simp
    · cases hz
      rw [ends_of_matches hw] at hends
      simp at hends
    · obtain ⟨rfl, hz'⟩ := List.cons.inj hz
      obtain ⟨rfl, -⟩ := List.cons.inj hz'
      rw [pair_of_matches hw ⟨u, z, by simp⟩] at hpair
      simp at hpair

/-- A clear factor stands in no word. -/
theorem Clear.not_matches (h : a.Clear x) (hx : x ≠ []) (u v : List α) :
    ¬ a.Matches (u ++ (x ++ v)) := by
  intro hm
  have hle := h _ [] u v hm (List.append_nil _)
  have hpos := List.length_pos_iff.mpr hx
  rw [List.length_append, List.length_append] at hle
  omega

/-! ### Doubling and merging a separator -/

/-- A word stays one with the separator put in front. -/
def takesFront (s : α) : Pat α → Bool
  | .many p => p s
  | .seq a _ => a.takesFront s
  | _ => false

/-- A word stays one without a separator at its front. -/
def dropsFront (s : α) : Pat α → Bool
  | .eps => true
  | .cls p => !p s
  | .many _ => true
  | .seq a b => a.dropsFront s && (!a.nullable || b.dropsFront s)
  | .alt a b => a.dropsFront s && b.dropsFront s

/-- A word stays one without a separator at its end. -/
def dropsBack (s : α) : Pat α → Bool
  | .eps => true
  | .cls p => !p s
  | .many _ => true
  | .seq a b => b.dropsBack s && (!b.nullable || a.dropsBack s)
  | .alt a b => a.dropsBack s && b.dropsBack s

/-- The pattern is a single class. -/
def isCls : Pat α → Bool
  | .cls _ => true
  | _ => false

/-- A separator in a word may be doubled. -/
def doubles (s : α) : Pat α → Bool
  | .eps => true
  | .cls p => !p s
  | .many _ => true
  | .seq a b => b.doubles s && (a.doubles s || (a.isCls && b.takesFront s))
  | .alt a b => a.doubles s && b.doubles s

/-- Two separators in a row in a word may be merged. -/
def undoubles (s : α) : Pat α → Bool
  | .eps => true
  | .cls _ => true
  | .many _ => true
  | .seq a b => a.undoubles s && b.undoubles s && (a.dropsBack s || b.dropsFront s)
  | .alt a b => a.undoubles s && b.undoubles s

variable {s : α}

theorem matches_cons_of_takesFront (h : a.takesFront s = true) (hw : a.Matches w) :
    a.Matches (s :: w) := by
  induction a generalizing w with
  | many p => exact List.forall_mem_cons.mpr ⟨h, hw⟩
  | seq a b iha _ =>
    obtain ⟨u, v, rfl, hu, hv⟩ := hw
    exact ⟨s :: u, v, rfl, iha h hu, hv⟩
  | _ => simp [takesFront] at h

theorem matches_of_dropsFront (h : a.dropsFront s = true) (hw : a.Matches (s :: w)) :
    a.Matches w := by
  induction a generalizing w with
  | eps => simp [Matches] at hw
  | cls p =>
    obtain ⟨c, hc, hp⟩ := hw
    rw [← (List.cons.inj hc).1] at hp
    rw [dropsFront, hp] at h
    simp at h
  | many p => exact (List.forall_mem_cons.mp hw).2
  | seq a b iha ihb =>
    obtain ⟨u, v, huv, hu, hv⟩ := hw
    rw [dropsFront, Bool.and_eq_true, Bool.or_eq_true, Bool.not_eq_true'] at h
    cases u with
    | nil =>
      -- the first part is empty, so the separator is the second one's
      rw [List.nil_append] at huv
      rw [← huv] at hv
      rcases h.2 with hnull | hb
      · rw [nullable_of_matches hu] at hnull
        simp at hnull
      · exact ⟨[], w, rfl, hu, ihb hb hv⟩
    | cons c u =>
      obtain ⟨rfl, hw⟩ := List.cons.inj huv
      exact ⟨u, v, hw, iha h.1 hu, hv⟩
  | alt a b iha ihb =>
    rw [dropsFront, Bool.and_eq_true] at h
    exact hw.imp (iha h.1) (ihb h.2)

theorem matches_of_dropsBack (h : a.dropsBack s = true) (hw : a.Matches (w ++ [s])) :
    a.Matches w := by
  induction a generalizing w with
  | eps => simp [Matches] at hw
  | cls p =>
    have hp : p s = true := ends_of_matches hw
    rw [dropsBack, hp] at h
    simp at h
  | many p => exact fun c hc => hw c (List.mem_append_left [s] hc)
  | seq a b iha ihb =>
    obtain ⟨u, v, huv, hu, hv⟩ := hw
    rw [dropsBack, Bool.and_eq_true, Bool.or_eq_true, Bool.not_eq_true'] at h
    rcases List.eq_nil_or_concat' v with rfl | ⟨t, c, rfl⟩
    · -- the second part is empty, so the separator is the first one's
      rw [List.append_nil] at huv
      rw [← huv] at hu
      rcases h.2 with hnull | ha
      · rw [nullable_of_matches hv] at hnull
        simp at hnull
      · exact ⟨w, [], (List.append_nil w).symm, iha ha hu, hv⟩
    · rw [← List.append_assoc] at huv
      have hlast := List.singleton_inj.mp (List.append_inj_right' huv rfl)
      have hinit := List.append_inj_left' huv rfl
      rw [← hlast] at hv
      exact ⟨u, t, hinit, hu, ihb h.1 hv⟩
  | alt a b iha ihb =>
    rw [dropsBack, Bool.and_eq_true] at h
    exact hw.imp (iha h.1) (ihb h.2)

/-- **Doubling.** In every word of such a pattern any separator may be doubled. -/
theorem matches_double (h : a.doubles s = true) {y : List α} (hw : a.Matches (x ++ (s :: y))) :
    a.Matches (x ++ (s :: s :: y)) := by
  induction a generalizing x y with
  | eps => simp [Matches] at hw
  | cls p =>
    have hp : p s = true := has_of_matches hw (by simp)
    rw [doubles, hp] at h
    simp at h
  | many p =>
    intro c hc
    apply hw c
    simp only [List.mem_append, List.mem_cons] at hc ⊢
    tauto
  | seq a b iha ihb =>
    obtain ⟨u, v, huv, hu, hv⟩ := hw
    rw [doubles, Bool.and_eq_true, Bool.or_eq_true, Bool.and_eq_true] at h
    obtain ⟨hb, ha⟩ := h
    rcases List.append_eq_append_iff.mp huv with ⟨z, rfl, hz⟩ | ⟨z, rfl, rfl⟩
    · cases z with
      | nil =>
        rw [List.nil_append] at hz
        rw [← hz] at hv
        exact ⟨x ++ [], s :: s :: y, by simp, hu, ihb hb (x := []) hv⟩
      | cons c z =>
        cases hz
        rcases ha with ha | ⟨hcls, hfront⟩
        · exact ⟨x ++ (s :: s :: z), v, by simp, iha ha hu, hv⟩
        · -- the first part is the separator alone, and the second takes the other one
          cases a with
          | cls p =>
            obtain ⟨c, hc, hp⟩ := hu
            have hx : x = [] ∧ z = [] := by
              have hlen := congrArg List.length hc
              simp only [List.length_append, List.length_cons, List.length_nil] at hlen
              exact ⟨List.eq_nil_of_length_eq_zero (by omega),
                List.eq_nil_of_length_eq_zero (by omega)⟩
            obtain ⟨rfl, rfl⟩ := hx
            exact ⟨[s], s :: v, rfl, ⟨c, hc, hp⟩, matches_cons_of_takesFront hfront hv⟩
          | _ => simp [isCls] at hcls
    · exact ⟨u, z ++ (s :: s :: y), by simp, hu, ihb hb hv⟩
  | alt a b iha ihb =>
    rw [doubles, Bool.and_eq_true] at h
    exact hw.imp (iha h.1) (ihb h.2)

/-- **Merging.** In every word of such a pattern two separators in a row may be merged. -/
theorem matches_undouble (h : a.undoubles s = true) {y : List α}
    (hw : a.Matches (x ++ (s :: s :: y))) : a.Matches (x ++ (s :: y)) := by
  induction a generalizing x y with
  | eps => simp [Matches] at hw
  | cls p =>
    obtain ⟨c, hc, -⟩ := hw
    have hlen := congrArg List.length hc
    simp only [List.length_append, List.length_cons, List.length_nil] at hlen
    omega
  | many p =>
    intro c hc
    apply hw c
    simp only [List.mem_append, List.mem_cons] at hc ⊢
    tauto
  | seq a b iha ihb =>
    obtain ⟨u, v, huv, hu, hv⟩ := hw
    rw [undoubles, Bool.and_eq_true, Bool.and_eq_true, Bool.or_eq_true] at h
    obtain ⟨⟨ha, hb⟩, hseam⟩ := h
    rcases List.append_eq_append_iff.mp huv with ⟨z, rfl, hz⟩ | ⟨z, rfl, rfl⟩
    · rcases z with _ | ⟨c, _ | ⟨d, z⟩⟩
      · rw [List.nil_append] at hz
        rw [← hz] at hv
        exact ⟨x ++ [], s :: y, by simp, hu, ihb hb (x := []) hv⟩
      · -- the two separators stand on either side of the seam
        cases hz
        rcases hseam with hback | hfront
        · exact ⟨x, s :: y, rfl, matches_of_dropsBack hback hu, hv⟩
        · exact ⟨x ++ [s], y, by simp, hu, matches_of_dropsFront hfront hv⟩
      · obtain ⟨rfl, hz'⟩ := List.cons.inj hz
        cases hz'
        exact ⟨x ++ (s :: z), v, by simp, iha ha hu, hv⟩
    · exact ⟨u, z ++ (s :: y), by simp, hu, ihb hb hv⟩
  | alt a b iha ihb =>
    rw [undoubles, Bool.and_eq_true] at h
    exact hw.imp (iha h.1) (ihb h.2)

/-- A run of separators in a word may be merged into one. -/
theorem matches_merge (h : a.undoubles s = true) (n : Nat) {y : List α}
    (hw : a.Matches (x ++ (List.replicate (n + 1) s ++ y))) : a.Matches (x ++ (s :: y)) := by
  induction n with
  | zero => exact hw
  | succ n ih => exact ih (matches_undouble h hw)

/-- A separator in a word may be spread to a run. -/
theorem matches_spread (h : a.doubles s = true) (n : Nat) {y : List α}
    (hw : a.Matches (x ++ (s :: y))) : a.Matches (x ++ (List.replicate (n + 1) s ++ y)) := by
  induction n with
  | zero => exact hw
  | succ n ih => exact matches_double h ih

/-! ### Replacing a factor of a text -/

/-- The words of the pattern neither begin nor end with a character of `m`. -/
def EndsOutside (a : Pat α) (m : List α) : Prop :=
  ∀ c ∈ m, a.starts c = false ∧ a.ends c = false

/-- **Replacing a factor.** If words touch a factor only by containing it, and stay words when it
    is replaced, replacing it in a text keeps occurrences. -/
theorem Occurs.replace (hproper : ¬ a.Matches []) {u m r : List α} (hends : a.EndsOutside m)
    (hctx : ∀ x y, a.Matches (x ++ (m ++ y)) → a.Matches (x ++ (r ++ y)))
    (h : a.Occurs (u ++ (m ++ v))) : a.Occurs (u ++ (r ++ v)) := by
  have hback : ∀ l, l <:+: m → ∀ x, l ≠ [] → ¬ a.Matches (x ++ l) := by
    intro l hl x hne hm
    obtain ⟨t, c, rfl⟩ := (List.eq_nil_or_concat' l).resolve_left hne
    have hc : c ∈ m := hl.subset (by simp)
    rw [← List.append_assoc] at hm
    have hend := ends_of_matches hm
    rw [(hends c hc).2] at hend
    simp at hend
  have hfront : ∀ l, l <:+: m → ∀ y, l ≠ [] → ¬ a.Matches (l ++ y) := by
    intro l hl y hne hm
    cases l with
    | nil => exact absurd rfl hne
    | cons c l =>
      have hstart := starts_of_matches hm
      rw [(hends c (hl.subset (.head _))).1] at hstart
      simp at hstart
  obtain ⟨w, hw, hm⟩ := h
  rcases List.infix_append_iff_ne_nil.mp hw with hu | hmv | ⟨l₁, l₂, -, h₂, rfl, hsuf, hpre⟩
  · exact ⟨w, hu.trans List.infix_append_left, hm⟩
  · rcases List.infix_append_iff_ne_nil.mp hmv with hin | hv | ⟨l₁, l₂, h₁, -, rfl, hsuf, -⟩
    · by_cases hw0 : w = []
      · rw [hw0] at hm
        exact absurd hm hproper
      · exact absurd hm (hback w hin [] hw0)
    · exact ⟨w, hv.trans ⟨u ++ r, [], by simp⟩, hm⟩
    · exact absurd hm (hfront l₁ hsuf.isInfix l₂ h₁)
  · obtain ⟨t, ht⟩ := hpre
    rcases List.append_eq_append_iff.mp ht with ⟨z, hz, -⟩ | ⟨z, rfl, hz⟩
    · -- the word would end inside the factor
      exact absurd hm (hback l₂ ⟨[], z, by rw [hz]; rfl⟩ l₁ h₂)
    · obtain ⟨s, rfl⟩ := hsuf
      refine ⟨l₁ ++ (r ++ z), ⟨s, t, ?_⟩, hctx l₁ z hm⟩
      rw [hz]
      simp

/-- Words that begin behind a front part stand behind it. -/
theorem Occurs.of_append (hproper : ¬ a.Matches []) {m : List α}
    (hstarts : ∀ c ∈ m, a.starts c = false) (h : a.Occurs (m ++ v)) : a.Occurs v := by
  induction m with
  | nil => exact h
  | cons c m ih =>
    rcases occurs_cons.mp h with ⟨w, hw, hm⟩ | hrest
    · cases w with
      | nil => exact absurd hm hproper
      | cons d w =>
        have hstart := starts_of_matches hm
        rw [(List.cons_prefix_cons.mp hw).1, hstarts c (.head _)] at hstart
        simp at hstart
    · exact ih (fun c hc => hstarts c (.tail _ hc)) hrest

/-- Words that end before a back part stand before it. -/
theorem Occurs.of_append_right (hproper : ¬ a.Matches []) {m : List α}
    (hends : ∀ c ∈ m, a.ends c = false) (h : a.Occurs (v ++ m)) : a.Occurs v := by
  obtain ⟨w, hw, hm⟩ := h
  have hback : ∀ l, l <:+: m → ∀ x, l ≠ [] → ¬ a.Matches (x ++ l) := by
    intro l hl x hne hm
    obtain ⟨t, c, rfl⟩ := (List.eq_nil_or_concat' l).resolve_left hne
    rw [← List.append_assoc] at hm
    have hend := ends_of_matches hm
    rw [hends c (hl.subset (by simp))] at hend
    simp at hend
  rcases List.infix_append_iff_ne_nil.mp hw with hv | hin | ⟨l₁, l₂, -, h₂, rfl, -, hpre⟩
  · exact ⟨w, hv, hm⟩
  · by_cases hw0 : w = []
    · rw [hw0] at hm
      exact absurd hm hproper
    · exact absurd hm (hback w hin [] hw0)
  · exact absurd hm (hback l₂ hpre.isInfix l₁ h₂)

/-- An occurrence without a character `c` stands on one side of it. -/
theorem occurs_of_occurs_cons {c : α} (hc : a.has c = false) {u : List α}
    (h : a.Occurs (u ++ (c :: v))) : a.Occurs u ∨ a.Occurs v := by
  obtain ⟨w, hw, hm⟩ := h
  have hnot : c ∉ w := by
    intro hcw
    rw [has_of_matches hm hcw] at hc
    simp at hc
  rcases List.infix_append_iff_ne_nil.mp hw with hu | hcv | ⟨l₁, l₂, -, h₂, rfl, -, hpre⟩
  · exact .inl ⟨w, hu, hm⟩
  · rcases List.infix_cons_iff.mp hcv with hpre | hv
    · cases w with
      | nil => exact .inr ⟨[], List.nil_infix, hm⟩
      | cons d w =>
        rw [(List.cons_prefix_cons.mp hpre).1] at hnot
        exact absurd (.head _) hnot
    · exact .inr ⟨w, hv, hm⟩
  · cases l₂ with
    | nil => exact absurd rfl h₂
    | cons d l₂ =>
      rw [(List.cons_prefix_cons.mp hpre).1] at hnot
      exact absurd (by simp) hnot

end Sidequest.Lib.Pat
