import Mathlib.Data.List.Infix

namespace Sidequest.Lib

/-!
# Patterns and substitution

Backtracking patterns whose repetitions are of one character class, and the substitution of
their leftmost, non-overlapping matches.

* `Pat.Matches` — the words of a pattern; `Pat.rests` — what a match at the front may leave, in
  the order a backtracking engine tries; `mem_rests` connects the two;
* `Pat.pieces` — the text between the matches, `Pat.sub` — the pieces joined by a replacement;
* `Occurs` — some factor of a text is a word. No piece has an occurrence (`not_occurs_of_piece`),
  a text without one is left alone (`sub_of_not_occurs`), and what single replacements keep,
  substitution keeps (`sub_invariant`).
-/

variable {α : Type*}

/-- A pattern. Alternatives are tried from the left, repetitions take as much as they can. -/
inductive Pat (α : Type*) where
  | eps
  | cls (p : α → Bool)
  | many (p : α → Bool)
  | seq (a b : Pat α)
  | alt (a b : Pat α)

namespace Pat

/-- One or more of a class. -/
def many1 (p : α → Bool) : Pat α := .seq (.cls p) (.many p)

/-- At most one match of a pattern. -/
def opt (a : Pat α) : Pat α := .alt a .eps

/-- Several patterns in a row. -/
def seqs (ps : List (Pat α)) : Pat α := ps.foldr .seq .eps

/-- The words of a pattern. -/
def Matches : Pat α → List α → Prop
  | .eps, w => w = []
  | .cls p, w => ∃ c, w = [c] ∧ p c = true
  | .many p, w => ∀ c ∈ w, p c = true
  | .seq a b, w => ∃ u v, w = u ++ v ∧ a.Matches u ∧ b.Matches v
  | .alt a b, w => a.Matches w ∨ b.Matches w

/-- What a greedy run through a class may leave, longest run first. -/
def manyRests (p : α → Bool) : List α → List (List α)
  | [] => [[]]
  | c :: l => if p c then manyRests p l ++ [c :: l] else [c :: l]

/-- What a match at the front of a text may leave, in the order it is tried. -/
def rests : Pat α → List α → List (List α)
  | .eps, l => [l]
  | .cls p, l =>
    match l with
    | [] => []
    | c :: l => if p c then [l] else []
  | .many p, l => manyRests p l
  | .seq a b, l => (a.rests l).flatMap b.rests
  | .alt a b, l => a.rests l ++ b.rests l

variable {l : List α}

theorem mem_manyRests {p : α → Bool} {r : List α} :
    r ∈ manyRests p l ↔ ∃ w, l = w ++ r ∧ ∀ c ∈ w, p c = true := by
  induction l with
  | nil =>
    rw [manyRests, List.mem_singleton]
    refine ⟨fun h => ⟨[], by simp [h]⟩, ?_⟩
    rintro ⟨w, hw, -⟩
    exact (List.append_eq_nil_iff.mp hw.symm).2
  | cons c l ih =>
    unfold manyRests
    by_cases hc : p c = true
    · rw [if_pos hc, List.mem_append, ih, List.mem_singleton]
      refine ⟨?_, ?_⟩
      · rintro (⟨w, rfl, hw⟩ | rfl)
        · exact ⟨c :: w, rfl, List.forall_mem_cons.mpr ⟨hc, hw⟩⟩
        · exact ⟨[], rfl, by simp⟩
      · rintro ⟨w, hl, hw⟩
        cases w with
        | nil => exact .inr hl.symm
        | cons d w =>
          obtain ⟨-, hl⟩ := List.cons.inj hl
          exact .inl ⟨w, hl, fun c hc => hw c (.tail d hc)⟩
    · rw [if_neg hc, List.mem_singleton]
      refine ⟨fun h => ⟨[], by simp [h]⟩, ?_⟩
      rintro ⟨w, hl, hw⟩
      cases w with
      | nil => exact hl.symm
      | cons d w =>
        obtain ⟨hcd, -⟩ := List.cons.inj hl
        have hd := hw d (.head _)
        rw [← hcd] at hd
        exact absurd hd hc

/-- A greedy run leaves what is behind it, first of all. -/
theorem head?_manyRests (p : α → Bool) (l : List α) :
    (manyRests p l).head? = some (l.dropWhile p) := by
  induction l with
  | nil => rfl
  | cons c l ih =>
    unfold manyRests
    by_cases hc : p c = true
    · rw [if_pos hc, List.dropWhile_cons_of_pos hc, List.head?_append, ih]
      rfl
    · rw [if_neg hc, List.dropWhile_cons_of_neg hc]
      rfl

variable {a : Pat α}

/-- **The engine is the pattern.** A match may leave exactly what remains after a word. -/
theorem mem_rests {r : List α} : r ∈ a.rests l ↔ ∃ w, l = w ++ r ∧ a.Matches w := by
  induction a generalizing l r with
  | eps =>
    rw [rests, List.mem_singleton]
    refine ⟨fun h => ⟨[], h.symm, rfl⟩, ?_⟩
    rintro ⟨w, rfl, rfl⟩
    rfl
  | cls p =>
    cases l with
    | nil =>
      refine ⟨fun h => absurd h (by simp [rests]), ?_⟩
      rintro ⟨w, hw, c, rfl, -⟩
      simp at hw
    | cons c l =>
      rw [rests]
      by_cases hc : p c = true
      · rw [if_pos hc, List.mem_singleton]
        refine ⟨fun h => ⟨[c], by rw [h]; rfl, c, rfl, hc⟩, ?_⟩
        rintro ⟨w, hw, d, rfl, -⟩
        exact (List.cons.inj hw).2.symm
      · rw [if_neg hc]
        refine ⟨fun h => by simp at h, ?_⟩
        rintro ⟨w, hw, d, rfl, hd⟩
        rw [← (List.cons.inj hw).1] at hd
        exact absurd hd hc
  | many p => exact mem_manyRests
  | seq a b iha ihb =>
    rw [rests, List.mem_flatMap]
    refine ⟨?_, ?_⟩
    · rintro ⟨m, hm, hr⟩
      obtain ⟨u, rfl, hu⟩ := iha.mp hm
      obtain ⟨v, rfl, hv⟩ := ihb.mp hr
      exact ⟨u ++ v, (List.append_assoc u v r).symm, u, v, rfl, hu, hv⟩
    · rintro ⟨w, rfl, u, v, rfl, hu, hv⟩
      exact ⟨v ++ r, iha.mpr ⟨u, List.append_assoc u v r, hu⟩, ihb.mpr ⟨v, rfl, hv⟩⟩
  | alt a b iha ihb =>
    rw [rests, List.mem_append, iha, ihb]
    refine ⟨?_, ?_⟩
    · rintro (⟨w, hl, hw⟩ | ⟨w, hl, hw⟩)
      · exact ⟨w, hl, .inl hw⟩
      · exact ⟨w, hl, .inr hw⟩
    · rintro ⟨w, hl, hw | hw⟩
      · exact .inl ⟨w, hl, hw⟩
      · exact .inr ⟨w, hl, hw⟩

/-! ### Pieces and substitution -/

/-- The length of the match at the front of a text, if there is one. -/
def matchLength (a : Pat α) (l : List α) : Option Nat :=
  (a.rests l).head?.map (fun r => l.length - r.length)

/-- Put a character in front of the first piece. -/
def consPiece (c : α) : List (List α) → List (List α)
  | [] => [[c]]
  | k :: ks => (c :: k) :: ks

/-- The pieces of a text of which the first `skip` characters belong to a match. -/
def piecesFrom (a : Pat α) : Nat → List α → List (List α)
  | _, [] => [[]]
  | skip + 1, _ :: l => piecesFrom a skip l
  | 0, c :: l =>
    match a.matchLength (c :: l) with
    | some (n + 1) => [] :: piecesFrom a n l
    | _ => consPiece c (piecesFrom a 0 l)

/-- The text between the leftmost, non-overlapping matches. The pattern is meant to have no
    empty word; an empty match is passed over. -/
def pieces (a : Pat α) (l : List α) : List (List α) := piecesFrom a 0 l

/-- `re.sub`: the pieces joined by the replacement. -/
def sub (a : Pat α) (repl l : List α) : List α := repl.intercalate (a.pieces l)

/-- Some factor of the text is a word of the pattern. -/
def Occurs (a : Pat α) (l : List α) : Prop := ∃ w, w <:+: l ∧ a.Matches w

theorem piecesFrom_eq_drop (a : Pat α) (n : Nat) (l : List α) :
    piecesFrom a n l = piecesFrom a 0 (l.drop n) := by
  induction l generalizing n with
  | nil => cases n <;> simp [piecesFrom]
  | cons c l ih =>
    cases n with
    | zero => rfl
    | succ n =>
      rw [piecesFrom, ih, List.drop_succ_cons]

/-- At a text's front there is a match, whose word is cut out, or there is none, and the first
    character is kept. -/
theorem pieces_cases (hproper : ¬ a.Matches []) (c : α) (l : List α) :
    (∃ w r, c :: l = w ++ r ∧ w ≠ [] ∧ a.Matches w ∧ (a.rests (c :: l)).head? = some r ∧
      a.pieces (c :: l) = [] :: a.pieces r) ∨
    ((∀ w r, c :: l = w ++ r → ¬ a.Matches w) ∧ a.pieces (c :: l) = consPiece c (a.pieces l)) := by
  cases hhead : (a.rests (c :: l)).head? with
  | none =>
    right
    have hnil : a.rests (c :: l) = [] := List.head?_eq_none_iff.mp hhead
    refine ⟨fun w r hl hw => ?_, ?_⟩
    · have hmem : r ∈ a.rests (c :: l) := mem_rests.mpr ⟨w, hl, hw⟩
      rw [hnil] at hmem
      simp at hmem
    · simp only [pieces, piecesFrom, matchLength, hhead, Option.map_none]
  | some r =>
    left
    have hmem : r ∈ a.rests (c :: l) := List.mem_of_mem_head? hhead
    obtain ⟨w, hl, hw⟩ := mem_rests.mp hmem
    cases w with
    | nil => exact absurd hw hproper
    | cons d w =>
      have hlen : a.matchLength (c :: l) = some (w.length + 1) := by
        rw [matchLength, hhead, Option.map_some, hl, List.length_append, List.length_cons]
        congr 1
        omega
      have hdrop : l.drop w.length = r := by
        have htail : l = w ++ r := (List.cons.inj hl).2
        rw [htail, List.drop_left]
      refine ⟨d :: w, r, hl, by simp, hw, rfl, ?_⟩
      rw [pieces, piecesFrom, hlen]
      show [] :: piecesFrom a w.length l = [] :: piecesFrom a 0 r
      rw [piecesFrom_eq_drop, hdrop]

theorem pieces_ne_nil (a : Pat α) (l : List α) : a.pieces l ≠ [] := by
  have haux : ∀ n, piecesFrom a n l ≠ [] := by
    induction l with
    | nil => intro n; simp [piecesFrom]
    | cons c l ih =>
      intro n
      cases n with
      | succ n => exact ih n
      | zero =>
        unfold piecesFrom
        split
        · simp
        · cases h : piecesFrom a 0 l <;> simp [consPiece]
  exact haux 0

/-! ### Occurrences -/

theorem Occurs.of_infix {l' : List α} (h : a.Occurs l) (hl : l <:+: l') : a.Occurs l' := by
  obtain ⟨w, hw, hm⟩ := h
  exact ⟨w, hw.trans hl, hm⟩

/-- An occurrence in a longer text stands at its front or in the rest. -/
theorem occurs_cons {c : α} :
    a.Occurs (c :: l) ↔ (∃ w, w <+: c :: l ∧ a.Matches w) ∨ a.Occurs l := by
  refine ⟨?_, ?_⟩
  · rintro ⟨w, hw, hm⟩
    rcases List.infix_cons_iff.mp hw with hpre | hin
    · exact .inl ⟨w, hpre, hm⟩
    · exact .inr ⟨w, hin, hm⟩
  · rintro (⟨w, hpre, hm⟩ | h)
    · exact ⟨w, hpre.isInfix, hm⟩
    · exact h.of_infix (List.infix_cons List.infix_rfl)

theorem not_occurs_nil (hproper : ¬ a.Matches []) : ¬ a.Occurs [] := by
  rintro ⟨w, hw, hm⟩
  rw [List.infix_nil.mp hw] at hm
  exact hproper hm

/-- The pieces of a text, by its matches from the left. -/
theorem pieces_induction (hproper : ¬ a.Matches []) {motive : List α → Prop} (nil : motive [])
    (cut : ∀ w r, w ≠ [] → a.Matches w → (a.rests (w ++ r)).head? = some r →
      a.pieces (w ++ r) = [] :: a.pieces r → motive r → motive (w ++ r))
    (keep : ∀ c l, (∀ w r, c :: l = w ++ r → ¬ a.Matches w) →
      a.pieces (c :: l) = consPiece c (a.pieces l) → motive l → motive (c :: l)) :
    ∀ l, motive l := by
  intro l
  induction hn : l.length using Nat.strong_induction_on generalizing l with
  | _ n ih =>
    cases l with
    | nil => exact nil
    | cons c l =>
      rcases pieces_cases hproper c l with ⟨w, r, hl, hne, hw, hhead, hpieces⟩ | ⟨hno, hpieces⟩
      · have hpos := List.length_pos_iff.mpr hne
        have hlen : (w ++ r).length = n := by rw [← hl, hn]
        rw [List.length_append] at hlen
        have hr : motive r := ih r.length (by omega) r rfl
        rw [hl] at hhead hpieces ⊢
        exact cut w r hne hw hhead hpieces hr
      · have hlen : l.length < n := by
          rw [← hn, List.length_cons]
          omega
        exact keep c l hno hpieces (ih l.length hlen l rfl)

/-- The first piece is what the text begins with. -/
theorem isPrefix_head_pieces (hproper : ¬ a.Matches []) (l : List α) :
    ∀ k ks, a.pieces l = k :: ks → k <+: l := by
  induction l using pieces_induction hproper with
  | nil =>
    intro k ks h
    have hk : [] = k := (List.cons.inj h).1
    rw [← hk]
  | cut w r _ _ _ hpieces _ =>
    intro k ks h
    rw [hpieces] at h
    rw [← (List.cons.inj h).1]
    exact List.nil_prefix
  | keep c l _ hpieces ih =>
    intro k ks h
    rw [hpieces] at h
    cases hrest : a.pieces l with
    | nil => exact absurd hrest (pieces_ne_nil a l)
    | cons k' ks' =>
      rw [hrest] at h
      rw [← (List.cons.inj h).1]
      exact List.cons_prefix_cons.mpr ⟨rfl, ih k' ks' hrest⟩

/-- **Pieces are clean.** No piece has an occurrence. -/
theorem not_occurs_of_piece (hproper : ¬ a.Matches []) (l : List α) :
    ∀ k ∈ a.pieces l, ¬ a.Occurs k := by
  induction l using pieces_induction hproper with
  | nil =>
    intro k hk
    rw [List.mem_singleton.mp hk]
    exact not_occurs_nil hproper
  | cut w r _ _ _ hpieces ih =>
    intro k hk
    rw [hpieces] at hk
    rcases List.mem_cons.mp hk with rfl | hk
    · exact not_occurs_nil hproper
    · exact ih k hk
  | keep c l hno hpieces ih =>
    intro k hk
    cases hrest : a.pieces l with
    | nil => exact absurd hrest (pieces_ne_nil a l)
    | cons k' ks =>
      rw [hpieces, hrest] at hk
      rw [hrest] at ih
      rcases List.mem_cons.mp hk with rfl | hk
      · rw [occurs_cons]
        rintro (⟨w, hw, hm⟩ | hocc)
        · -- a match at the front of the piece would have been one at the front of the text
          have hpre : c :: k' <+: c :: l :=
            List.cons_prefix_cons.mpr ⟨rfl, isPrefix_head_pieces hproper l k' ks hrest⟩
          obtain ⟨r, hr⟩ := hw.trans hpre
          exact hno w r hr.symm hm
        · exact ih k' (.head _) hocc
      · exact ih k (.tail k' hk)

/-- A piece is a stretch of the text. -/
theorem infix_of_piece (hproper : ¬ a.Matches []) (l : List α) : ∀ k ∈ a.pieces l, k <:+: l := by
  induction l using pieces_induction hproper with
  | nil =>
    intro k hk
    rw [List.mem_singleton.mp hk]
  | cut w r _ _ _ hpieces ih =>
    intro k hk
    rw [hpieces] at hk
    rcases List.mem_cons.mp hk with rfl | hk
    · exact List.nil_infix
    · exact (ih k hk).trans List.infix_append_right
  | keep c l _ hpieces ih =>
    intro k hk
    cases hrest : a.pieces l with
    | nil => exact absurd hrest (pieces_ne_nil a l)
    | cons k' ks =>
      rw [hpieces, hrest] at hk
      rcases List.mem_cons.mp hk with rfl | hk
      · have hpre := isPrefix_head_pieces hproper l k' ks hrest
        exact (List.cons_prefix_cons.mpr ⟨rfl, hpre⟩).isInfix
      · rw [hrest] at ih
        exact List.infix_cons (ih k (.tail k' hk))

theorem sub_nil (a : Pat α) (repl : List α) : a.sub repl [] = [] := rfl

theorem sub_of_cut (repl : List α) {w r : List α} (h : a.pieces (w ++ r) = [] :: a.pieces r) :
    a.sub repl (w ++ r) = repl ++ a.sub repl r := by
  rw [sub, h, List.intercalate_cons_of_ne_nil (pieces_ne_nil a r)]
  rfl

theorem sub_of_keep (repl : List α) {c : α} (h : a.pieces (c :: l) = consPiece c (a.pieces l)) :
    a.sub repl (c :: l) = c :: a.sub repl l := by
  rw [sub, sub, h]
  cases hl : a.pieces l with
  | nil => exact absurd hl (pieces_ne_nil a l)
  | cons k ks =>
    cases ks with
    | nil => simp [consPiece]
    | cons k' ks => simp [consPiece, List.intercalate_cons_cons]

/-- Deleting the matches leaves the pieces. -/
theorem sub_empty (a : Pat α) (l : List α) : a.sub [] l = (a.pieces l).flatten := by
  rw [sub]
  induction a.pieces l with
  | nil => rfl
  | cons k ks ih =>
    cases ks with
    | nil => simp
    | cons k' ks =>
      rw [List.intercalate_cons_cons, ih, List.append_nil]
      rfl

/-- A text without a match is left alone. -/
theorem sub_of_not_occurs (hproper : ¬ a.Matches []) (repl : List α) (l : List α) :
    ¬ a.Occurs l → a.sub repl l = l := by
  induction l using pieces_induction hproper with
  | nil =>
    intro _
    rfl
  | cut w r _ hw _ _ _ =>
    intro hno
    exact absurd ⟨w, List.infix_append_left, hw⟩ hno
  | keep c l _ hpieces ih =>
    intro hno
    rw [sub_of_keep repl hpieces, ih (fun h => hno (occurs_cons.mpr (.inr h)))]

/-- **Substitution keeps what one replacement keeps.** -/
theorem sub_invariant (hproper : ¬ a.Matches []) {repl : List α} {Q : List α → Prop}
    (hstep : ∀ u m v, a.Matches m → Q (u ++ (m ++ v)) → Q (u ++ (repl ++ v))) (l : List α) (h : Q l) :
    Q (a.sub repl l) := by
  have haux : ∀ u, Q (u ++ l) → Q (u ++ a.sub repl l) := by
    clear h
    induction l using pieces_induction hproper with
    | nil =>
      intro u hu
      exact hu
    | cut w r _ hw _ hpieces ih =>
      intro u hu
      have hcut : Q (u ++ repl ++ r) := by
        rw [List.append_assoc]
        exact hstep u w r hw hu
      rw [sub_of_cut repl hpieces, ← List.append_assoc]
      exact ih (u ++ repl) hcut
    | keep c l _ hpieces ih =>
      intro u hu
      have hcons : Q ((u ++ [c]) ++ l) := by
        rw [List.append_assoc]
        exact hu
      have hrest := ih (u ++ [c]) hcons
      rw [List.append_assoc] at hrest
      rw [sub_of_keep repl hpieces]
      exact hrest
  exact haux [] h

/-! ### Occurrences across a seam -/

/-- Some word begins in the one text and ends in the other that follows it. -/
def Crosses (a : Pat α) (l l' : List α) : Prop :=
  ∃ u v, u ≠ [] ∧ v ≠ [] ∧ u <:+ l ∧ v <+: l' ∧ a.Matches (u ++ v)

/-- Some word stands across a seam between pieces. -/
def Straddles (a : Pat α) (ks : List (List α)) : Prop :=
  ∃ ks₁ ks₂, ks = ks₁ ++ ks₂ ∧ a.Crosses ks₁.flatten ks₂.flatten

theorem occurs_append {l' : List α} :
    a.Occurs (l ++ l') ↔ a.Occurs l ∨ a.Occurs l' ∨ a.Crosses l l' := by
  refine ⟨?_, ?_⟩
  · rintro ⟨w, hw, hm⟩
    rcases List.infix_append_iff_ne_nil.mp hw with hl | hl' | ⟨u, v, hu0, hv0, rfl, hu, hv⟩
    · exact .inl ⟨w, hl, hm⟩
    · exact .inr (.inl ⟨w, hl', hm⟩)
    · exact .inr (.inr ⟨u, v, hu0, hv0, hu, hv, hm⟩)
  · rintro (h | h | ⟨u, v, -, -, hu, hv, hm⟩)
    · exact h.of_infix List.infix_append_left
    · exact h.of_infix List.infix_append_right
    · exact ⟨u ++ v, List.infix_append_iff.mpr (.inr (.inr ⟨u, v, rfl, hu, hv⟩)), hm⟩

/-- An occurrence in the pieces put together stands in a piece or across a seam. -/
theorem occurs_flatten (hproper : ¬ a.Matches []) (ks : List (List α)) :
    a.Occurs ks.flatten ↔ (∃ k ∈ ks, a.Occurs k) ∨ a.Straddles ks := by
  induction ks with
  | nil =>
    refine ⟨fun h => absurd h (not_occurs_nil hproper), ?_⟩
    rintro (⟨k, hk, -⟩ | ⟨ks₁, ks₂, hks, hcross⟩)
    · simp at hk
    · obtain ⟨rfl, rfl⟩ := List.append_eq_nil_iff.mp hks.symm
      obtain ⟨u, v, hu0, -, hu, -⟩ := hcross
      exact absurd (List.suffix_nil.mp hu) hu0
  | cons k ks ih =>
    rw [List.flatten_cons, occurs_append, ih]
    refine ⟨?_, ?_⟩
    · rintro (hk | (⟨k', hk', hocc⟩ | ⟨ks₁, ks₂, rfl, hcross⟩) | hcross)
      · exact .inl ⟨k, .head _, hk⟩
      · exact .inl ⟨k', .tail k hk', hocc⟩
      · obtain ⟨u, v, hu0, hv0, hu, hv, hm⟩ := hcross
        refine .inr ⟨k :: ks₁, ks₂, rfl, u, v, hu0, hv0, ?_, hv, hm⟩
        exact hu.trans (List.suffix_append k ks₁.flatten)
      · refine .inr ⟨[k], ks, rfl, ?_⟩
        rw [List.flatten_singleton]
        exact hcross
    · rintro (⟨k', hk', hocc⟩ | ⟨ks₁, ks₂, hks, hcross⟩)
      · rcases List.mem_cons.mp hk' with rfl | hk'
        · exact .inl hocc
        · exact .inr (.inl (.inl ⟨k', hk', hocc⟩))
      · -- across a seam of all pieces: it begins in the first one, or in the others
        have hocc : a.Occurs (k ++ ks.flatten) := by
          rw [← List.flatten_cons, hks, List.flatten_append]
          exact occurs_append.mpr (.inr (.inr hcross))
        rw [occurs_append, ih] at hocc
        exact hocc

end Pat

end Sidequest.Lib
