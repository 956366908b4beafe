import Mathlib.Data.Int.Basic
import Mathlib.Data.List.Basic
import Mathlib.Order.Bounds.Defs
import Sidequest.Lib.Costs

namespace Sidequest.Tactical

open Lib

/-!
# Movement

Where an actor can get to within its movement, and what a path costs. Entering difficult terrain
costs two cells, everything else one.

* `isFloor` — whether a cell is on the map and floor;
* `cellsReachable` — the search from a cell within a budget;
* `cellsReachable_spec` — the search and the verdict agree.
-/

section

/-- A cell by its column and its row. -/
abbrev Cell := Int × Int

/-- A mask by its rows, which need not be of one length. -/
abbrev Rows := List (List Char)

def floorChar : Char := '.'

/-- The king's moves. -/
def steps : List Cell :=
  [(1, 0), (-1, 0), (0, 1), (0, -1), (1, 1), (1, -1), (-1, 1), (-1, -1)]

/-- The rows of a mask. -/
def parseMask (mask : String) : Rows := mask.toList.splitOn '\n'

variable (rows : Rows)

/-- The row of a cell, if the mask has it. -/
def rowAt (y : Int) : Option (List Char) := if 0 ≤ y then rows[y.toNat]? else none

variable (cell : Cell)

/-- The cell is on the map. -/
def inBounds : Bool :=
  (rowAt rows cell.2).any (fun row => 0 ≤ cell.1 && cell.1.toNat < row.length)

/-- The cell is on the map, and floor. -/
def isFloor : Bool :=
  inBounds rows cell &&
    (rowAt rows cell.2).any (fun row => row[cell.1.toNat]? = some floorChar)

/-- The distance in king's moves on an empty board. -/
def chebyshevDistance (a b : Cell) : Nat := max (a.1 - b.1).natAbs (a.2 - b.2).natAbs

/-- The floor a king's move away. -/
def neighbors : List Cell :=
  (steps.map (fun d => (cell.1 + d.1, cell.2 + d.2))).filter (isFloor rows)

/-- All floor, row by row. -/
def floorCells : List Cell :=
  rows.zipIdx.flatMap (fun (row, y) =>
    row.zipIdx.filterMap (fun (ch, x) =>
      if ch = floorChar then some ((x : Int), (y : Int)) else none))

section Cells

variable {rows : Rows} {a b : Cell}

theorem chebyshevDistance_comm (a b : Cell) : chebyshevDistance a b = chebyshevDistance b a := by
  unfold chebyshevDistance
  omega

/-- The king's moves are to the cells at distance one. -/
theorem mem_steps_iff {d : Cell} : d ∈ steps ↔ max d.1.natAbs d.2.natAbs = 1 := by
  obtain ⟨x, y⟩ := d
  constructor
  · intro h
    simp only [steps, List.mem_cons, Prod.mk.injEq, List.not_mem_nil, or_false] at h
    omega
  · intro h
    have hx : x = -1 ∨ x = 0 ∨ x = 1 := by omega
    have hy : y = -1 ∨ y = 0 ∨ y = 1 := by omega
    -- all nine cells of the square around the king but the king's own
    rcases hx with rfl | rfl | rfl <;> rcases hy with rfl | rfl | rfl
    all_goals first
      | exact absurd h (by decide)
      | decide

theorem mem_neighbors_iff :
    b ∈ neighbors rows a ↔ isFloor rows b = true ∧ chebyshevDistance a b = 1 := by
  unfold neighbors
  rw [List.mem_filter, List.mem_map, and_comm]
  refine and_congr_right (fun _ => ?_)
  constructor
  · rintro ⟨d, hd, rfl⟩
    have hone := mem_steps_iff.mp hd
    unfold chebyshevDistance
    omega
  · intro h
    refine ⟨(b.1 - a.1, b.2 - a.2), mem_steps_iff.mpr ?_, by ext <;> dsimp only <;> omega⟩
    rw [chebyshevDistance_comm] at h
    exact h

/-- Being a king's move apart goes both ways. -/
theorem mem_neighbors_comm (ha : isFloor rows a = true) (h : b ∈ neighbors rows a) :
    a ∈ neighbors rows b := by
  rw [mem_neighbors_iff] at h ⊢
  rw [chebyshevDistance_comm]
  exact ⟨ha, h.2⟩

/-- The floor is where the mask has a `.`. -/
theorem isFloor_iff {cell : Cell} :
    isFloor rows cell = true ↔ ∃ x y : Nat, cell = ((x : Int), (y : Int)) ∧
      rows[y]?.bind (fun row => row[x]?) = some floorChar := by
  obtain ⟨x, y⟩ := cell
  unfold isFloor inBounds rowAt
  simp only [Bool.and_eq_true, Option.any_eq_true, decide_eq_true_eq, Option.bind_eq_some_iff,
    Option.ite_none_right_eq_some]
  constructor
  · rintro ⟨⟨row, ⟨hy, -⟩, hx, -⟩, row', ⟨-, hrow⟩, hch⟩
    exact ⟨x.toNat, y.toNat, by ext <;> dsimp only <;> omega, row', hrow, hch⟩
  · rintro ⟨m, n, heq, row, hrow, hch⟩
    cases heq
    obtain ⟨hlt, -⟩ := List.getElem?_eq_some_iff.mp hch
    exact ⟨⟨row, ⟨by omega, hrow⟩, by omega, hlt⟩, row, ⟨by omega, hrow⟩, hch⟩

theorem mem_floorCells_iff {cell : Cell} : cell ∈ floorCells rows ↔ isFloor rows cell = true := by
  rw [isFloor_iff]
  simp only [floorCells, List.mem_flatMap, List.mem_filterMap, Prod.exists,
    List.mem_zipIdx_iff_getElem?, Option.bind_eq_some_iff, Option.ite_none_right_eq_some,
    Option.some.injEq]
  constructor
  · rintro ⟨row, y, hrow, v, x, hv, rfl, rfl⟩
    exact ⟨x, y, rfl, row, hrow, hv⟩
  · rintro ⟨x, y, rfl, row, hrow, hv⟩
    exact ⟨row, y, hrow, floorChar, x, hv, rfl, rfl⟩

end Cells

end

/-- The cells an actor can stop on, and what is noted for everything the search has come to. -/
structure ReachResult where
  reachable : Finset Cell
  cost : Dict Cell Nat

/-- What it costs to enter a cell. -/
def stepCost (difficult : Finset Cell) (cell : Cell) : Nat := if cell ∈ difficult then 2 else 1

/-- The cells that can be reached from a cell. Cells just over the budget are noted too, but the
    search does not go on from them. -/
def cellsReachable (origin : Cell) (budget : Int) (mask : String) (difficult : Finset Cell) :
    ReachResult :=
  let rows := parseMask mask
  if budget ≤ 0 ∨ isFloor rows origin = false then ⟨∅, Dict.empty⟩
  else
    let cost := leastCosts (neighbors rows) (stepCost difficult) budget.toNat (floorCells rows) origin
    ⟨(cost.keys.filter (fun cell => cell ≠ origin ∧ depth cost cell ≤ budget)).toFinset, cost⟩

/-- What the rest of a path costs: from one cell on, with what has been spent. -/
def walkCost (rows : Rows) (difficult : Finset Cell) : Nat → Cell → List Cell → Option Nat
  | total, _, [] => some total
  | total, a, b :: rest =>
    if isFloor rows a = false ∨ isFloor rows b = false then none
    else if chebyshevDistance a b ≠ 1 then none
    else walkCost rows difficult (total + stepCost difficult b) b rest

/-- What a path costs, unless it is empty, leaves the floor or skips a cell. -/
def movementCost (path : List Cell) (mask : String) (difficult : Finset Cell) : Option Nat :=
  match path with
  | [] => none
  | [a] => if isFloor (parseMask mask) a then some 0 else none
  | a :: b :: rest => walkCost (parseMask mask) difficult 0 a (b :: rest)

/-- The verdict on a move. -/
structure MoveAdjudication where
  valid : Bool
  cellsSpent : Nat
  cellsBudget : Int
  reason : String

/-- Whether a path is a move, and within the budget. -/
def adjudicateMove (origin : Cell) (path : List Cell) (budgetCells : Int) (mask : String)
    (difficult : Finset Cell) : MoveAdjudication :=
  if path.head? ≠ some origin then
    ⟨false, 0, budgetCells, "move path must start at the actor's cell"⟩
  else
    match movementCost path mask difficult with
    | none => ⟨false, 0, budgetCells, "illegal move path (crosses a wall or skips a cell)"⟩
    | some cost =>
      if budgetCells < cost then
        ⟨false, cost, budgetCells, "that move is " ++ toString cost ++ " cells; you can move "
          ++ toString budgetCells ++ " cell" ++ (if budgetCells ≠ 1 then "s" else "")
          ++ " this turn"⟩
      else ⟨true, cost, budgetCells, ""⟩

section Paths

variable {rows : Rows} {difficult : Finset Cell} {origin : Cell}

/-- What a path costs is what the tolls of a way come to. -/
theorem way_of_walkCost {total c : Nat} {a b : Cell} {rest : List Cell}
    (ha : Way (neighbors rows) (stepCost difficult) origin a total)
    (hcost : walkCost rows difficult total a rest = some c) (hlast : (a :: rest).getLast? = some b) :
    Way (neighbors rows) (stepCost difficult) origin b c := by
  induction rest generalizing a total with
  | nil =>
    rw [← Option.some.inj hlast, ← Option.some.inj hcost]
    exact ha
  | cons next rest ih =>
    unfold walkCost at hcost
    split_ifs at hcost with hfloor hstep
    rw [not_or, Bool.not_eq_false, Bool.not_eq_false] at hfloor
    exact ih (ha.step (mem_neighbors_iff.mpr ⟨hfloor.2, not_not.mp hstep⟩)) hcost hlast

theorem walkCost_concat {total c : Nat} {a u w : Cell} {rest : List Cell}
    (hcost : walkCost rows difficult total a rest = some c) (hlast : (a :: rest).getLast? = some u)
    (hu : isFloor rows u = true) (hw : w ∈ neighbors rows u) :
    walkCost rows difficult total a (rest ++ [w]) = some (c + stepCost difficult w) := by
  obtain ⟨hfloor, hstep⟩ := mem_neighbors_iff.mp hw
  induction rest generalizing a total with
  | nil =>
    rw [List.getLast?_singleton] at hlast
    cases hlast
    cases hcost
    simp [walkCost, hu, hfloor, hstep]
  | cons next rest ih =>
    unfold walkCost at hcost
    rw [List.cons_append]
    unfold walkCost
    split_ifs at hcost ⊢ with hoff hskip
    exact ih hcost hlast

theorem isFloor_of_way {cell : Cell} {c : Nat} (horigin : isFloor rows origin = true)
    (h : Way (neighbors rows) (stepCost difficult) origin cell c) : isFloor rows cell = true := by
  cases h with
  | start => exact horigin
  | step _ hmem => exact (mem_neighbors_iff.mp hmem).1

variable {mask : String}

/-- **Ways and paths.** From the floor, the ways of the search are the paths that have a cost. -/
theorem way_iff_exists_path {cell : Cell} {c : Nat} (hne : cell ≠ origin) :
    (isFloor (parseMask mask) origin = true ∧
      Way (neighbors (parseMask mask)) (stepCost difficult) origin cell c) ↔
      ∃ path, path.head? = some origin ∧ path.getLast? = some cell ∧
        movementCost path mask difficult = some c := by
  constructor
  · rintro ⟨horigin, hway⟩
    have hwalk : ∀ {cell c}, Way (neighbors (parseMask mask)) (stepCost difficult) origin cell c →
        ∃ rest, (origin :: rest).getLast? = some cell ∧
          walkCost (parseMask mask) difficult 0 origin rest = some c := by
      intro cell c hway
      induction hway with
      | start => exact ⟨[], rfl, rfl⟩
      | @step u w c hu hw ih =>
        obtain ⟨rest, hlast, hcost⟩ := ih
        exact ⟨rest ++ [w], by rw [← List.cons_append, List.getLast?_concat],
          walkCost_concat hcost hlast (isFloor_of_way horigin hu) hw⟩
    obtain ⟨rest, hlast, hcost⟩ := hwalk hway
    refine ⟨origin :: rest, rfl, hlast, ?_⟩
    cases rest with
    | nil => exact absurd (Option.some.inj hlast).symm hne
    | cons b rest => exact hcost
  · rintro ⟨path, hhead, hlast, hcost⟩
    match path, hhead with
    | [a], rfl => exact absurd (Option.some.inj hlast).symm hne
    | a :: b :: rest, rfl =>
      have hwalk : walkCost (parseMask mask) difficult 0 a (b :: rest) = some c := hcost
      refine ⟨?_, way_of_walkCost Way.start hwalk hlast⟩
      unfold walkCost at hwalk
      split_ifs at hwalk with hoff
      rw [not_or, Bool.not_eq_false] at hoff
      exact hoff.1

theorem valid_adjudicateMove_iff {path : List Cell} {budget : Int} :
    (adjudicateMove origin path budget mask difficult).valid = true ↔
      path.head? = some origin ∧
        ∃ c : Nat, movementCost path mask difficult = some c ∧ (c : Int) ≤ budget := by
  unfold adjudicateMove
  by_cases hhead : path.head? ≠ some origin
  · rw [if_pos hhead]
    exact iff_of_false (by simp) (fun h => hhead h.1)
  · rw [if_neg hhead]
    cases hcost : movementCost path mask difficult with
    | none => simp
    | some c =>
      dsimp only
      split_ifs with hover
      · refine iff_of_false (by simp) ?_
        rintro ⟨-, d, hd, hle⟩
        cases hd
        omega
      · exact iff_of_true rfl ⟨not_not.mp hhead, c, rfl, not_lt.mp hover⟩

theorem exists_valid_path_iff {budget : Int} {cell : Cell} {c : Nat} (hne : cell ≠ origin) :
    (∃ path, path.getLast? = some cell ∧
      (adjudicateMove origin path budget mask difficult).valid = true ∧
      movementCost path mask difficult = some c) ↔
      (isFloor (parseMask mask) origin = true ∧
        Way (neighbors (parseMask mask)) (stepCost difficult) origin cell c) ∧ (c : Int) ≤ budget := by
  rw [way_iff_exists_path hne]
  constructor
  · rintro ⟨path, hlast, hvalid, hcost⟩
    obtain ⟨hhead, d, hd, hle⟩ := valid_adjudicateMove_iff.mp hvalid
    rw [hcost] at hd
    cases hd
    exact ⟨⟨path, hhead, hlast, hcost⟩, hle⟩
  · rintro ⟨⟨path, hhead, hlast, hcost⟩, hle⟩
    exact ⟨path, hlast, valid_adjudicateMove_iff.mpr ⟨hhead, c, hcost, hle⟩, hcost⟩

theorem mem_reachable_iff {budget : Int} {cell : Cell} (hbudget : 0 < budget)
    (horigin : isFloor (parseMask mask) origin = true) :
    cell ∈ (cellsReachable origin budget mask difficult).reachable ↔ cell ≠ origin ∧
      ∃ c : Nat, (cellsReachable origin budget mask difficult).cost.get? cell = some c ∧
        (c : Int) ≤ budget := by
  have hon : ¬ (budget ≤ 0 ∨ isFloor (parseMask mask) origin = false) := by
    rw [horigin, not_or]
    exact ⟨not_le.mpr hbudget, by simp⟩
  unfold cellsReachable
  rw [if_neg hon]
  rw [List.mem_toFinset, List.mem_filter, decide_eq_true_eq, Dict.mem_keys_iff_get?]
  constructor
  · rintro ⟨⟨c, hc⟩, hne, hle⟩
    rw [depth_eq hc] at hle
    exact ⟨hne, c, hc, hle⟩
  · rintro ⟨hne, c, hc, hle⟩
    exact ⟨⟨c, hc⟩, hne, by rwa [depth_eq hc]⟩

end Paths

/-- **The search and the verdict agree.** With a positive budget, a cell other than the origin is
    found exactly if the verdict accepts some path to it, and what is noted for it is the least that
    such a path costs. -/
theorem cellsReachable_spec (origin : Cell) (budget : Int) (mask : String)
    (difficult : Finset Cell) (hbudget : 0 < budget) : (∀ cell, cell ≠ origin →
      (cell ∈ (cellsReachable origin budget mask difficult).reachable ↔
        ∃ path, path.getLast? = some cell ∧
          (adjudicateMove origin path budget mask difficult).valid = true)) ∧
    ∀ cell ∈ (cellsReachable origin budget mask difficult).reachable,
      ∃ cost, (cellsReachable origin budget mask difficult).cost.get? cell = some cost ∧
        IsLeast {c : Nat | ∃ path, path.getLast? = some cell ∧
          (adjudicateMove origin path budget mask difficult).valid = true ∧
          movementCost path mask difficult = some c} cost := by
  by_cases horigin : isFloor (parseMask mask) origin = true
  · have hfloor : ∀ v ∈ floorCells (parseMask mask), ∀ w ∈ neighbors (parseMask mask) v,
        w ∈ floorCells (parseMask mask) :=
      fun v _ w hw => mem_floorCells_iff.mpr (mem_neighbors_iff.mp hw).1
    have hcost : (cellsReachable origin budget mask difficult).cost
        = leastCosts (neighbors (parseMask mask)) (stepCost difficult) budget.toNat
          (floorCells (parseMask mask)) origin := by
      unfold cellsReachable
      rw [if_neg (by rw [horigin, not_or]; exact ⟨not_le.mpr hbudget, by simp⟩)]
    have hpaid := (leastCosts_costed (stepCost difficult) budget.toNat hfloor
      (mem_floorCells_iff.mpr horigin)).paid
    -- a way costs no less than what the search has found
    have hleast : ∀ {cell c}, Way (neighbors (parseMask mask)) (stepCost difficult) origin cell c →
        (c : Int) ≤ budget → ∃ d, (cellsReachable origin budget mask difficult).cost.get? cell
          = some d ∧ d ≤ c := by
      intro cell c hway hle
      rw [hcost]
      exact leastCosts_spec hfloor (mem_floorCells_iff.mpr horigin) hway (by omega)
    rw [← hcost] at hpaid
    constructor
    · intro cell hne
      rw [mem_reachable_iff hbudget horigin]
      constructor
      · rintro ⟨-, c, hc, hle⟩
        obtain ⟨path, hlast, hvalid, -⟩ :=
          (exists_valid_path_iff hne).mpr ⟨⟨horigin, hpaid cell c hc⟩, hle⟩
        exact ⟨path, hlast, hvalid⟩
      · rintro ⟨path, hlast, hvalid⟩
        obtain ⟨-, c, hc, hle⟩ := valid_adjudicateMove_iff.mp hvalid
        obtain ⟨⟨-, hway⟩, -⟩ := (exists_valid_path_iff hne).mp ⟨path, hlast, hvalid, hc⟩
        obtain ⟨d, hd, hle'⟩ := hleast hway hle
        exact ⟨hne, d, hd, by omega⟩
    · intro cell hcell
      obtain ⟨hne, c, hc, hle⟩ := (mem_reachable_iff hbudget horigin).mp hcell
      refine ⟨c, hc, (exists_valid_path_iff hne).mpr ⟨⟨horigin, hpaid cell c hc⟩, hle⟩, ?_⟩
      intro c' hc'
      obtain ⟨⟨-, hway⟩, hle'⟩ := (exists_valid_path_iff hne).mp hc'
      obtain ⟨d, hd, hbest⟩ := hleast hway hle'
      rw [hc] at hd
      cases hd
      exact hbest
  · -- off the floor nothing is reachable, and no path is accepted
    have hempty : (cellsReachable origin budget mask difficult).reachable = ∅ := by
      unfold cellsReachable
      rw [if_pos (.inr (by simpa using horigin))]
    rw [hempty]
    refine ⟨fun cell hne => iff_of_false (Finset.notMem_empty cell) ?_,
      fun cell hcell => absurd hcell (Finset.notMem_empty cell)⟩
    rintro ⟨path, hlast, hvalid⟩
    obtain ⟨-, c, hc, -⟩ := valid_adjudicateMove_iff.mp hvalid
    exact horigin ((exists_valid_path_iff hne).mp ⟨path, hlast, hvalid, hc⟩).1.1

/-- The search around a pillar, with two cells of budget and difficult ground on one side. -/
theorem cellsReachable_spec_pillar :
    (0 : Int) < 2 ∧ (2, 1) ∈ (cellsReachable (0, 1) 2 "...\n.#.\n..." {(1, 0)}).reachable ∧
    (∀ cell, cell ≠ ((0, 1) : Cell) →
      (cell ∈ (cellsReachable (0, 1) 2 "...\n.#.\n..." {(1, 0)}).reachable ↔
        ∃ path, path.getLast? = some cell ∧
          (adjudicateMove (0, 1) path 2 "...\n.#.\n..." {(1, 0)}).valid = true)) :=
  ⟨by decide, by decide +kernel,
    (cellsReachable_spec (0, 1) 2 "...\n.#.\n..." {(1, 0)} (by decide)).1⟩

/-! ### Moves in two, and back -/

section Pieces

variable {rows : Rows} {difficult : Finset Cell} {origin u : Cell} {mask : String}

theorem walkCost_append (total : Nat) (a : Cell) (l rest : List Cell) :
    walkCost rows difficult total a (l ++ u :: rest)
      = (walkCost rows difficult total a (l ++ [u])).bind (walkCost rows difficult · u rest) := by
  induction l generalizing total a with
  | nil =>
    simp only [List.nil_append, walkCost]
    split_ifs <;> rfl
  | cons b l ih =>
    simp only [List.cons_append, walkCost]
    split_ifs
    · rfl
    · rfl
    · exact ih _ _

theorem walkCost_add (n total : Nat) (a : Cell) (rest : List Cell) :
    walkCost rows difficult (n + total) a rest
      = (walkCost rows difficult total a rest).map (n + ·) := by
  induction rest generalizing total a with
  | nil => rfl
  | cons b rest ih =>
    simp only [walkCost]
    split_ifs
    · rfl
    · rfl
    · rw [Nat.add_assoc]
      exact ih _ _

theorem isFloor_of_walkCost {total c : Nat} {a : Cell} {l : List Cell}
    (h : walkCost rows difficult total a (l ++ [u]) = some c) : isFloor rows u = true := by
  induction l generalizing total a with
  | nil =>
    simp only [List.nil_append, walkCost] at h
    split_ifs at h with hfloor
    simpa using (not_or.mp hfloor).2
  | cons b l ih =>
    simp only [List.cons_append, walkCost] at h
    split_ifs at h
    exact ih h

theorem movementCost_cons (a : Cell) (rest : List Cell) : movementCost (a :: rest) mask difficult
      = if isFloor (parseMask mask) a then walkCost (parseMask mask) difficult 0 a rest else none := by
  cases rest with
  | nil => rfl
  | cons b rest =>
    unfold movementCost walkCost
    split_ifs <;> simp_all

/-- A path costs what its two parts cost. -/
theorem movementCost_append (l rest : List Cell) :
    movementCost (l ++ u :: rest) mask difficult = (movementCost (l ++ [u]) mask difficult).bind
      fun c => (movementCost (u :: rest) mask difficult).map (c + ·) := by
  cases l with
  | nil =>
    rw [List.nil_append, List.nil_append, movementCost_cons, movementCost_cons]
    split_ifs
    · simp [walkCost]
    · rfl
  | cons a l =>
    rw [List.cons_append, List.cons_append, movementCost_cons, movementCost_cons]
    by_cases ha : isFloor (parseMask mask) a = true
    · rw [if_pos ha, if_pos ha, walkCost_append]
      refine Option.bind_congr (fun c hc => ?_)
      rw [movementCost_cons, if_pos (isFloor_of_walkCost hc), ← walkCost_add, Nat.add_zero]
    · rw [if_neg ha, if_neg ha]
      rfl

/-- **A move in two.** A path is accepted within a budget exactly if, wherever it is cut, its parts
    are accepted within budgets that come to that. -/
theorem valid_adjudicateMove_append_iff (l rest : List Cell) (budget : Int) :
    (adjudicateMove origin (l ++ u :: rest) budget mask difficult).valid = true ↔
      ∃ first second : Int, first + second = budget ∧
        (adjudicateMove origin (l ++ [u]) first mask difficult).valid = true ∧
        (adjudicateMove u (u :: rest) second mask difficult).valid = true := by
  have hhead : (l ++ u :: rest).head? = (l ++ [u]).head? := by cases l <;> rfl
  simp only [valid_adjudicateMove_iff, hhead, movementCost_append l rest]
  constructor
  · rintro ⟨hstart, c, hc, hle⟩
    obtain ⟨c₁, h₁, hrest⟩ := Option.bind_eq_some_iff.mp hc
    obtain ⟨c₂, h₂, rfl⟩ := Option.map_eq_some_iff.mp hrest
    refine ⟨c₁, budget - c₁, by omega, ⟨hstart, c₁, h₁, le_rfl⟩, rfl, c₂, h₂, by omega⟩
  · rintro ⟨first, second, rfl, ⟨hstart, c₁, h₁, hle₁⟩, -, c₂, h₂, hle₂⟩
    exact ⟨hstart, c₁ + c₂, by rw [h₁, Option.bind_some, h₂, Option.map_some], by omega⟩

theorem movementCost_pair_comm (a b : Cell) {c : Nat}
    (h : movementCost [a, b] mask difficult = some c) :
    c = stepCost difficult b ∧
      movementCost [b, a] mask difficult = some (stepCost difficult a) := by
  simp only [movementCost, walkCost, Nat.zero_add, chebyshevDistance_comm b a] at h ⊢
  split_ifs at h ⊢ <;> simp_all

/-- **There and back.** A path that can be walked can be walked back, and the two ways differ by the
    tolls of their ends. -/
theorem movementCost_reverse {a z : Cell} {path : List Cell} {c : Nat} (ha : path.head? = some a)
    (hz : path.getLast? = some z) (h : movementCost path mask difficult = some c) :
    ∃ back, movementCost path.reverse mask difficult = some back ∧
      back + stepCost difficult z = c + stepCost difficult a := by
  induction path generalizing a c with
  | nil => cases ha
  | cons b path ih =>
    cases ha
    cases path with
    | nil =>
      cases hz
      exact ⟨c, h, rfl⟩
    | cons d path =>
      have hsplit := @movementCost_append difficult d mask [b] path
      rw [List.singleton_append, h] at hsplit
      obtain ⟨c₁, h₁, hrest⟩ := Option.bind_eq_some_iff.mp hsplit.symm
      obtain ⟨c₂, h₂, rfl⟩ := Option.map_eq_some_iff.mp hrest
      obtain ⟨rfl, hpair⟩ := movementCost_pair_comm b d h₁
      obtain ⟨back, hback, hsum⟩ := ih rfl hz h₂
      refine ⟨back + stepCost difficult b, ?_, by omega⟩
      rw [List.reverse_cons, List.reverse_cons, List.append_assoc, List.singleton_append,
        movementCost_append, ← List.reverse_cons, hback, Option.bind_some, hpair, Option.map_some]

theorem movementCost_reverse_uphill : ∃ back, movementCost [(1, 0), (0, 0)] ".." {(1, 0)} = some back ∧
    back + 2 = 2 + 1 := by
  have huphill : movementCost [(0, 0), (1, 0)] ".." {(1, 0)} = some 2 := by decide
  exact movementCost_reverse rfl rfl huphill

end Pieces

end Sidequest.Tactical
