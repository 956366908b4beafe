import Mathlib.Algebra.Order.BigOperators.Group.List
import Mathlib.Algebra.Order.Ring.Nat
import Mathlib.Data.List.Sort
import Sidequest.Lib.Hops

namespace Sidequest.Lib

/-!
# Least costs

What it costs to get somewhere when everything entered on the way has its toll, found by a search
that takes the cheapest vertex off its frontier and notes what its neighbours cost from there.
Nothing is entered from a vertex over the budget.

* `Way adj toll source v c` — a way to `v`, with the tolls paid on it;
* `leastCosts_spec` — within the budget, the search finds the least costs.
-/

universe u

variable {α : Type u}

/-- A way, with the tolls paid for everything that is entered on it. -/
inductive Way (adj : α → List α) (toll : α → Nat) (source : α) : α → Nat → Prop
  | start : Way adj toll source source 0
  | step {v w : α} {c : Nat} : Way adj toll source v c → w ∈ adj v →
      Way adj toll source w (c + toll w)

variable [DecidableEq α]

/-- Note what a neighbour of a vertex of cost `c` costs from there, unless it is noted for as little.
    It goes to the end of the frontier if that is within the budget. -/
def relax (toll : α → Nat) (budget c : Nat) (noted : Dict α Nat × List α) (w : α) :
    Dict α Nat × List α :=
  if (noted.1.get? w).all (fun old => c + toll w < old) then
    (noted.1.insert w (c + toll w), if c + toll w ≤ budget then noted.2 ++ [w] else noted.2)
  else noted

/-- The loop of the search, for a number of rounds. The frontier is sorted, ties as they stand. -/
def flood (adj : α → List α) (toll : α → Nat) (budget : Nat) :
    Nat → Dict α Nat → List α → Dict α Nat
  | 0, cost, _ => cost
  | rounds + 1, cost, frontier =>
    match frontier.insertionSort (fun v w => depth cost v ≤ depth cost w) with
    | [] => cost
    | v :: rest =>
      let noted := (adj v).foldl (relax toll budget (depth cost v)) (cost, rest)
      flood adj toll budget rounds noted.1 noted.2

/-- What everything in reach of a source costs, in a universe of vertices. -/
def leastCosts (adj : α → List α) (toll : α → Nat) (budget : Nat) (vertices : List α) (source : α) :
    Dict α Nat :=
  flood adj toll budget (vertices.length * (budget + 1) + 1) (Dict.empty.insert source 0) [source]

/-! ### One vertex -/

/-- What noting the neighbours `l` does: nothing gets dearer, all are noted, and what changed waits
    on the frontier if it is within the budget. -/
structure Relaxed (toll : α → Nat) (budget c : Nat) (l : List α) (noted noted' : Dict α Nat × List α) :
    Prop where
  cheaper : ∀ v d, noted.1.get? v = some d → ∃ d', noted'.1.get? v = some d' ∧ d' ≤ d
  done : ∀ w ∈ l, ∃ d, noted'.1.get? w = some d ∧ d ≤ c + toll w
  changed : ∀ v d, noted'.1.get? v = some d → noted.1.get? v = some d ∨
    (v ∈ l ∧ d = c + toll v ∧ (d ≤ budget → v ∈ noted'.2))
  waiting : ∀ v ∈ noted.2, v ∈ noted'.2
  fresh : ∀ v ∈ noted'.2, v ∈ noted.2 ∨ v ∈ noted'.1.keys

section Search

variable {adj : α → List α} {toll : α → Nat} {budget : Nat} {vertices : List α} {source : α}

theorem relaxed_relax (toll : α → Nat) (budget c : Nat) (noted : Dict α Nat × List α) (w : α) :
    Relaxed toll budget c [w] noted (relax toll budget c noted w) := by
  unfold relax
  by_cases hless : (noted.1.get? w).all (fun old => c + toll w < old) = true
  · rw [if_pos hless]
    refine ⟨fun v d hd => ?_, fun v hv => ?_, fun v d hd => ?_, fun v hv => ?_, fun v hv => ?_⟩
    · rw [Dict.get?_insert]
      by_cases hvw : v = w
      · rw [← hvw, hd, Option.all_some, decide_eq_true_eq] at hless
        rw [if_pos hvw]
        exact ⟨_, rfl, by rw [← hvw]; omega⟩
      · rw [if_neg hvw]
        exact ⟨d, hd, Nat.le_refl d⟩
    · rw [List.mem_singleton.mp hv, Dict.get?_insert, if_pos rfl]
      exact ⟨_, rfl, Nat.le_refl _⟩
    · rw [Dict.get?_insert] at hd
      by_cases hvw : v = w
      · rw [if_pos hvw] at hd
        cases hd
        refine .inr ⟨List.mem_singleton.mpr hvw, by rw [hvw], fun hwithin => ?_⟩
        rw [if_pos hwithin, hvw]
        exact List.mem_append_right _ (List.mem_singleton_self w)
      · rw [if_neg hvw] at hd
        exact .inl hd
    · split_ifs
      · exact List.mem_append_left _ hv
      · exact hv
    · rw [Dict.mem_keys_insert]
      split_ifs at hv
      · rcases List.mem_append.mp hv with hv | hv
        · exact .inl hv
        · exact .inr (.inl (List.mem_singleton.mp hv))
      · exact .inl hv
  · rw [if_neg hless]
    refine ⟨fun v d hd => ⟨d, hd, Nat.le_refl d⟩, fun v hv => ?_, fun v d hd => .inl hd,
      fun v hv => hv, fun v hv => .inl hv⟩
    rw [List.mem_singleton.mp hv]
    cases hget : noted.1.get? w with
    | none => simp [hget] at hless
    | some old =>
      rw [hget, Option.all_some, decide_eq_true_eq] at hless
      exact ⟨old, rfl, by omega⟩

/-- **All neighbours** of a vertex. -/
theorem relaxed_foldl (toll : α → Nat) (budget c : Nat) (l : List α) (noted : Dict α Nat × List α) :
    Relaxed toll budget c l noted (l.foldl (relax toll budget c) noted) := by
  induction l generalizing noted with
  | nil =>
    exact ⟨fun v d hd => ⟨d, hd, Nat.le_refl d⟩, fun v hv => absurd hv List.not_mem_nil,
      fun v d hd => .inl hd, fun v hv => hv, fun v hv => .inl hv⟩
  | cons w l ih =>
    have hone := relaxed_relax toll budget c noted w
    have hrest := ih (relax toll budget c noted w)
    refine ⟨fun v d hd => ?_, fun v hv => ?_, fun v d hd => ?_,
      fun v hv => hrest.waiting v (hone.waiting v hv), fun v hv => ?_⟩
    · obtain ⟨d', hd', hle⟩ := hone.cheaper v d hd
      obtain ⟨d'', hd'', hle'⟩ := hrest.cheaper v d' hd'
      exact ⟨d'', hd'', by omega⟩
    · rcases List.mem_cons.mp hv with rfl | hv
      · obtain ⟨d, hd, hle⟩ := hone.done v (List.mem_singleton_self v)
        obtain ⟨d', hd', hle'⟩ := hrest.cheaper v d hd
        exact ⟨d', hd', by omega⟩
      · exact hrest.done v hv
    · rcases hrest.changed v d hd with hd | ⟨hv, heq, hwait⟩
      · rcases hone.changed v d hd with hd | ⟨hv, heq, hwait⟩
        · exact .inl hd
        · refine .inr ⟨?_, heq, fun hwithin => hrest.waiting v (hwait hwithin)⟩
          rw [List.mem_singleton.mp hv]
          exact .head _
      · exact .inr ⟨.tail w hv, heq, hwait⟩
    · rcases hrest.fresh v hv with hv | hv
      · rcases hone.fresh v hv with hv | hv
        · exact .inl hv
        · obtain ⟨d, hd⟩ := Dict.mem_keys_iff_get?.mp hv
          obtain ⟨d', hd', -⟩ := hrest.cheaper v d hd
          exact .inr (Dict.mem_keys_of_get? hd')
      · exact .inr hv

/-! ### The loop -/

/-- What the loop keeps: what is noted was paid for, and whatever is within the budget waits or has
    had its neighbours noted. -/
structure Costed (adj : α → List α) (toll : α → Nat) (budget : Nat) (source : α)
    (cost : Dict α Nat) (frontier : List α) : Prop where
  start : cost.get? source = some 0
  paid : ∀ v c, cost.get? v = some c → Way adj toll source v c
  noted : ∀ v ∈ frontier, v ∈ cost.keys
  settled : ∀ v c, cost.get? v = some c → c ≤ budget → v ∈ frontier ∨
    ∀ w ∈ adj v, ∃ d, cost.get? w = some d ∧ d ≤ c + toll w

/-- The order of the frontier does not matter for what is kept. -/
theorem Costed.of_perm {cost : Dict α Nat} {frontier frontier' : List α}
    (h : Costed adj toll budget source cost frontier) (hperm : frontier'.Perm frontier) :
    Costed adj toll budget source cost frontier' :=
  ⟨h.start, h.paid, fun v hv => h.noted v (hperm.mem_iff.mp hv),
    fun v c hc hle => (h.settled v c hc hle).imp hperm.mem_iff.mpr id⟩

/-- **One round.** A vertex is taken off the frontier, and its neighbours are noted. -/
theorem Costed.round {cost : Dict α Nat} {rest : List α} {v : α}
    (h : Costed adj toll budget source cost (v :: rest)) :
    Costed adj toll budget source ((adj v).foldl (relax toll budget (depth cost v)) (cost, rest)).1
      ((adj v).foldl (relax toll budget (depth cost v)) (cost, rest)).2 := by
  obtain ⟨c, hc⟩ := Dict.mem_keys_iff_get?.mp (h.noted v (.head _))
  rw [depth_eq hc]
  have hrelaxed := relaxed_foldl toll budget c (adj v) (cost, rest)
  generalize (adj v).foldl (relax toll budget c) (cost, rest) = found at *
  refine ⟨?_, fun u d hd => ?_, fun u hu => ?_, fun u d hd hle => ?_⟩
  · obtain ⟨d, hd, hle⟩ := hrelaxed.cheaper source 0 h.start
    rwa [Nat.le_zero.mp hle] at hd
  · rcases hrelaxed.changed u d hd with hd | ⟨hadj, rfl, -⟩
    · exact h.paid u d hd
    · exact (h.paid v c hc).step hadj
  · rcases hrelaxed.fresh u hu with hu | hu
    · obtain ⟨d, hd⟩ := Dict.mem_keys_iff_get?.mp (h.noted u (.tail v hu))
      obtain ⟨d', hd', -⟩ := hrelaxed.cheaper u d hd
      exact Dict.mem_keys_of_get? hd'
    · exact hu
  · rcases hrelaxed.changed u d hd with hd | ⟨-, -, hwait⟩
    · rcases h.settled u d hd hle with hwait | hdone
      · rcases List.mem_cons.mp hwait with rfl | hwait
        · -- the vertex taken off: all its neighbours are noted now
          rw [hc] at hd
          cases hd
          exact .inr hrelaxed.done
        · exact .inl (hrelaxed.waiting u hwait)
      · right
        intro w hw
        obtain ⟨e, he, hle⟩ := hdone w hw
        obtain ⟨e', he', hle'⟩ := hrelaxed.cheaper w e he
        exact ⟨e', he', by omega⟩
    · exact .inl (hwait hle)

/-! ### What the loop uses up -/

/-- What is noted for a vertex, cut off just over the budget. -/
def owed (budget : Nat) (cost : Dict α Nat) (v : α) : Nat :=
  min ((cost.get? v).getD (budget + 1)) (budget + 1)

/-- What is noted for all vertices together, cut off just over the budget. -/
def unspent (budget : Nat) (vertices : List α) (cost : Dict α Nat) : Nat :=
  (vertices.map (owed budget cost)).sum

theorem unspent_le (budget : Nat) (vertices : List α) (cost : Dict α Nat) :
    unspent budget vertices cost ≤ vertices.length * (budget + 1) := by
  have hcard := List.sum_le_card_nsmul (vertices.map (owed budget cost)) (budget + 1) (by
    intro x hx
    obtain ⟨v, -, rfl⟩ := List.mem_map.mp hx
    exact Nat.min_le_right _ _)
  rw [List.length_map] at hcard
  exact hcard

/-- What goes to the frontier is paid for by what it costs less. -/
theorem unspent_relax (toll : α → Nat) (budget c : Nat) (noted : Dict α Nat × List α) {w : α} (hw : w ∈ vertices) :
    unspent budget vertices (relax toll budget c noted w).1 + (relax toll budget c noted w).2.length
      ≤ unspent budget vertices noted.1 + noted.2.length := by
  unfold relax
  by_cases hless : (noted.1.get? w).all (fun old => c + toll w < old) = true
  · rw [if_pos hless]
    have hle : ∀ v, owed budget (noted.1.insert w (c + toll w)) v ≤ owed budget noted.1 v := by
      intro v
      unfold owed
      rw [Dict.get?_insert]
      by_cases hvw : v = w
      · rw [if_pos hvw, hvw, Option.getD_some]
        cases hget : noted.1.get? w with
        | none => simp
        | some old =>
          rw [hget, Option.all_some, decide_eq_true_eq] at hless
          rw [Option.getD_some]
          omega
      · rw [if_neg hvw]
    dsimp only
    unfold unspent
    split_ifs with hwithin
    · have hlt : owed budget (noted.1.insert w (c + toll w)) w < owed budget noted.1 w := by
        unfold owed
        rw [Dict.get?_insert, if_pos rfl, Option.getD_some]
        cases hget : noted.1.get? w with
        | none =>
          rw [Option.getD_none]
          omega
        | some old =>
          rw [hget, Option.all_some, decide_eq_true_eq] at hless
          rw [Option.getD_some]
          omega
      have hsum := List.sum_lt_sum (owed budget (noted.1.insert w (c + toll w)))
        (owed budget noted.1) (fun v _ => hle v) ⟨w, hw, hlt⟩
      rw [List.length_append, List.length_singleton]
      omega
    · have hsum := List.sum_le_sum (fun v (_ : v ∈ vertices) => hle v)
      omega
  · rw [if_neg hless]

theorem unspent_foldl (toll : α → Nat) (budget c : Nat) {l : List α} (hl : ∀ w ∈ l, w ∈ vertices)
    (noted : Dict α Nat × List α) : unspent budget vertices (l.foldl (relax toll budget c) noted).1
        + (l.foldl (relax toll budget c) noted).2.length
      ≤ unspent budget vertices noted.1 + noted.2.length := by
  induction l generalizing noted with
  | nil => exact Nat.le_refl _
  | cons w l ih =>
    rw [List.foldl_cons]
    have hone := unspent_relax toll budget c noted (hl w (.head _))
    have hrest := ih (fun v hv => hl v (.tail w hv)) (relax toll budget c noted w)
    omega

/-- **The loop.** With enough rounds left, the frontier is worked off. -/
theorem flood_costed (hadj : ∀ v ∈ vertices, ∀ w ∈ adj v, w ∈ vertices) (rounds : Nat)
    (cost : Dict α Nat) (frontier : List α) (h : Costed adj toll budget source cost frontier)
    (hvertices : ∀ v ∈ cost.keys, v ∈ vertices)
    (hrounds : unspent budget vertices cost + frontier.length ≤ rounds) :
    Costed adj toll budget source (flood adj toll budget rounds cost frontier) [] := by
  induction rounds generalizing cost frontier with
  | zero =>
    obtain rfl : frontier = [] := List.length_eq_zero_iff.mp (by omega)
    exact h
  | succ rounds ih =>
    have hperm : (frontier.insertionSort (fun v w => depth cost v ≤ depth cost w)).Perm frontier :=
      List.perm_insertionSort _ frontier
    have hsorted := h.of_perm hperm
    have hlength := hperm.length_eq
    unfold flood
    generalize frontier.insertionSort (fun v w => depth cost v ≤ depth cost w) = sorted at *
    cases sorted with
    | nil => exact hsorted
    | cons v rest =>
      have hv : v ∈ vertices := hvertices v (hsorted.noted v (.head _))
      have hspent := unspent_foldl toll budget (depth cost v)
        (fun w hw => hadj v hv w hw) (cost, rest)
      refine ih _ _ hsorted.round (fun w hw => ?_) ?_
      · obtain ⟨d, hd⟩ := Dict.mem_keys_iff_get?.mp hw
        rcases (relaxed_foldl toll budget (depth cost v) (adj v) (cost, rest)).changed w d hd with hd | ⟨hw, -⟩
        · exact hvertices w (Dict.mem_keys_of_get? hd)
        · exact hadj v hv w hw
      · rw [List.length_cons] at hlength
        dsimp only at hspent
        omega

/-- **The search** ends with nothing on its frontier. -/
theorem leastCosts_costed (toll : α → Nat) (budget : Nat)
    (hadj : ∀ v ∈ vertices, ∀ w ∈ adj v, w ∈ vertices) (hsource : source ∈ vertices) :
    Costed adj toll budget source (leastCosts adj toll budget vertices source) [] := by
  have hstart : ∀ v c, (Dict.empty.insert source 0 : Dict α Nat).get? v = some c →
      v = source ∧ c = 0 := by
    intro v c hc
    rw [Dict.get?_insert] at hc
    by_cases hv : v = source
    · rw [if_pos hv] at hc
      exact ⟨hv, (Option.some.inj hc).symm⟩
    · simp [hv] at hc
  refine flood_costed hadj _ _ [source] ⟨by simp, fun v c hc => ?_, by simp, fun v c hc _ => ?_⟩
    (fun v hv => ?_) ?_
  · obtain ⟨rfl, rfl⟩ := hstart v c hc
    exact Way.start
  · left
    rw [(hstart v c hc).1]
    exact List.mem_singleton_self source
  · obtain ⟨c, hc⟩ := Dict.mem_keys_iff_get?.mp hv
    rw [(hstart v c hc).1]
    exact hsource
  · have hle := unspent_le budget vertices (Dict.empty.insert source 0)
    rw [List.length_singleton]
    omega

/-- **Least costs.** Within the budget, whatever a way leads to is noted, with the tolls of a way
    than which none has less. -/
theorem leastCosts_spec (hadj : ∀ v ∈ vertices, ∀ w ∈ adj v, w ∈ vertices)
    (hsource : source ∈ vertices) {v : α} {c : Nat} (hway : Way adj toll source v c)
    (hwithin : c ≤ budget) :
    ∃ d, (leastCosts adj toll budget vertices source).get? v = some d ∧ d ≤ c := by
  have hcosted := leastCosts_costed toll budget hadj hsource
  induction hway with
  | start => exact ⟨0, hcosted.start, Nat.le_refl 0⟩
  | @step u w c _ hadj ih =>
    obtain ⟨d, hd, hle⟩ := ih (by omega)
    rcases hcosted.settled u d hd (by omega) with hwait | hdone
    · cases hwait
    · obtain ⟨e, he, hle'⟩ := hdone w hadj
      exact ⟨e, he, by omega⟩

end Search

end Sidequest.Lib
