import Sidequest.Lib.Board
import Sidequest.Lib.Pieces

namespace Sidequest.Interior

open Lib

/-!
# Interiors

The grids that the maze makers carve: floor or wall at every cell. What lies off a grid counts as
wall.

* `newGrid`, `wallNeighbors`, `carveBetween` — the helpers the maze makers share;
* `Perfect` — a maze with one way between any two cells.
-/

inductive Tile where
  | floor
  | wall
deriving DecidableEq

/-- A grid of floor and wall. -/
abbrev Grid := Board Tile

/-- What stands at a cell. -/
def tile (g : Grid) (c : Place) : Tile := (g.get? c).getD .wall

/-- A grid that is all wall. -/
def newGrid (width height : Nat) : Grid := Board.filled width height .wall

/-- A cell is on the grid. -/
abbrev InBounds (g : Grid) (c : Place) : Prop := g.Inside c

/-- The cell a step away. -/
def step (c d : Place) : Place := (c.1 + d.1, c.2 + d.2)

/-- The steps to the cells that share an edge with a cell. -/
def ortho : List Place := [(1, 0), (-1, 0), (0, 1), (0, -1)]

/-- The cells two steps away that are on the grid and wall. -/
def wallNeighbors (g : Grid) (c : Place) : List Place :=
  ([(2, 0), (-2, 0), (0, 2), (0, -2)].map (step c)).filter
    (fun n => InBounds g n ∧ tile g n = .wall)

/-- The cell halfway between two cells. -/
def midpoint (c d : Place) : Place := ((c.1 + d.1) / 2, (c.2 + d.2) / 2)

/-- Both cells become floor, and the cell halfway between them. -/
def carveBetween (g : Grid) (c d : Place) : Grid :=
  ((g.set c .floor).set d .floor).set (midpoint c d) .floor

/-- The cells of a grid, row by row. -/
def cells (g : Grid) : List Place :=
  (List.range g.height).flatMap
    (fun y : Nat => (List.range g.width).map (fun x : Nat => ((x : Int), (y : Int))))

variable (t : Tile) (l : List Place)

/-- Write the cells of a list one after the other. -/
def paint (g : Grid) : Grid := l.foldl (fun g c => g.set c t) g

/-- The cells of the outermost ring: its top and its bottom, then its sides. -/
def borderCells (width height : Nat) : List Place :=
  (List.range width).flatMap (fun x : Nat => [((x : Int), 0), ((x : Int), (height : Int) - 1)]) ++
    (List.range height).flatMap (fun y : Nat => [(0, (y : Int)), ((width : Int) - 1, (y : Int))])

/-- The outermost ring becomes wall. -/
def wallBorder (g : Grid) : Grid := paint .wall (borderCells g.width g.height) g

/-- What a maze maker raises. The last one stands for a loop that does not end. -/
inductive InteriorError where
  | valueError (message : String)
  | emptyRange
  | indexError
  | outOfFuel
deriving DecidableEq

/-- A maze maker refuses a grid that is too small. -/
def tooSmall (maker : String) (least : Nat) (width height : Int) : InteriorError :=
  .valueError (maker ++ " requires width>=" ++ toString least ++ " and height>=" ++ toString least
    ++ "; got " ++ toString width ++ "x" ++ toString height)

/-! ### What is claimed of interiors -/

/-- Two cells share an edge. -/
def orthogonal : SimpleGraph Place where
  Adj c d := (c.1 = d.1 ∧ (c.2 = d.2 + 1 ∨ d.2 = c.2 + 1)) ∨
    (c.2 = d.2 ∧ (c.1 = d.1 + 1 ∨ d.1 = c.1 + 1))
  symm := ⟨by
    intro c d h
    omega⟩
  loopless := ⟨by
    intro c h
    omega⟩

/-- The floor of a grid. -/
def floor (g : Grid) : Set Place := {c | tile g c = .floor}

/-- From every cell of floor one gets to every other one over floor. -/
def OnePiece (g : Grid) : Prop := (orthogonal.induce (floor g)).Preconnected

/-- A grid has the size that was asked for. -/
def Sized (g : Grid) (width height : Int) : Prop := (g.width : Int) = width ∧ (g.height : Int) = height

/-- A cell of the outermost ring. -/
def OnBorder (g : Grid) (c : Place) : Prop :=
  c.1 = 0 ∨ c.1 = (g.width : Int) - 1 ∨ c.2 = 0 ∨ c.2 = (g.height : Int) - 1

/-- A cell inside the outermost ring of a grid of this size. -/
def Inner (width height : Int) (c : Place) : Prop :=
  0 < c.1 ∧ c.1 < width - 1 ∧ 0 < c.2 ∧ c.2 < height - 1

/-- The outermost ring is wall. -/
def Ringed (g : Grid) : Prop := ∀ c, g.Inside c → OnBorder g c → tile g c = .wall

/-- A perfect maze: every cell of odd column and odd row is floor, and just one simple path leads
    from any cell of floor to any other. -/
structure Perfect (g : Grid) : Prop where
  odd : ∀ c, g.Inside c → c.1 % 2 = 1 → c.2 % 2 = 1 → tile g c = .floor
  path : ∀ c d : floor g, ∃! path : (orthogonal.induce (floor g)).Walk c d, path.IsPath

variable {c : Place}

/-- A step of those leads to a cell that shares an edge. -/
theorem adj_of_mem_ortho {d : Place} (h : d ∈ ortho.map (step c)) : orthogonal.Adj c d := by
  simp only [ortho, List.map_cons, List.map_nil, List.mem_cons, List.not_mem_nil, or_false, step] at h
  show (_ ∨ _)
  rcases h with rfl | rfl | rfl | rfl <;> dsimp only <;> omega

/-- Every cell that shares an edge is such a step away. -/
theorem mem_ortho_steps {n : Place} (h : orthogonal.Adj c n) : n ∈ ortho.map (step c) := by
  have h' : (c.1 = n.1 ∧ (c.2 = n.2 + 1 ∨ n.2 = c.2 + 1)) ∨
    (c.2 = n.2 ∧ (c.1 = n.1 + 1 ∨ n.1 = c.1 + 1)) := h
  simp only [ortho, List.map_cons, List.map_nil, List.mem_cons, List.not_mem_nil, or_false, step,
    Prod.ext_iff]
  omega

/-! ### Reading and writing cells -/

theorem tile_set (g : Grid) (c d : Place) (t : Tile) :
    tile (g.set c t) d = if d = c ∧ g.Inside c then t else tile g d := by
  unfold tile
  rw [Board.get?_set]
  split <;> rfl

variable {g : Grid}

theorem tile_of_not_inside (h : ¬ g.Inside c) : tile g c = .wall := by
  unfold tile
  rw [Board.get?_of_not_inside h]
  rfl

theorem inside_of_floor (h : tile g c = .floor) : g.Inside c := by
  by_contra hnot
  rw [tile_of_not_inside hnot] at h
  simp at h

theorem get?_of_wall (hin : g.Inside c) (h : tile g c = .wall) : g.get? c = some .wall := by
  obtain ⟨t, ht⟩ := Board.exists_get? hin
  unfold tile at h
  rw [ht, Option.getD_some] at h
  rw [ht, h]

theorem eq_wall_of_ne_floor {t : Tile} (h : t ≠ .floor) : t = .wall := by
  cases t with
  | floor => exact absurd rfl h
  | wall => rfl

theorem tile_newGrid (width height : Nat) (c : Place) : tile (newGrid width height) c = .wall := by
  by_cases hin : (newGrid width height).Inside c
  · unfold tile newGrid
    rw [Board.get?_filled hin]
    rfl
  · exact tile_of_not_inside hin

/-- A cell that is carved is floor, and so is all that was. -/
theorem floor_set_floor (h : g.Inside c) : floor (g.set c .floor) = insert c (floor g) := by
  ext d
  show tile (g.set c .floor) d = .floor ↔ d = c ∨ tile g d = .floor
  rw [tile_set]
  by_cases hd : d = c
  · simp [hd, h]
  · simp [hd]

theorem mem_cells_iff : c ∈ cells g ↔ g.Inside c := by
  unfold cells Board.Inside
  simp only [List.mem_flatMap, List.mem_map, List.mem_range]
  constructor
  · rintro ⟨y, hy, x, hx, rfl⟩
    omega
  · rintro ⟨hleft, hright, htop, hbottom⟩
    refine ⟨c.2.toNat, by omega, c.1.toNat, by omega, ?_⟩
    exact Prod.ext (by dsimp only; omega) (by dsimp only; omega)

/-! ### Painting -/

@[simp] theorem width_paint (g : Grid) : (paint t l g).width = g.width := by
  induction l generalizing g with
  | nil => rfl
  | cons c l ih => exact (ih (g.set c t)).trans (Board.width_set g c t)

@[simp] theorem height_paint (g : Grid) : (paint t l g).height = g.height := by
  induction l generalizing g with
  | nil => rfl
  | cons c l ih => exact (ih (g.set c t)).trans (Board.height_set g c t)

theorem inside_paint (g : Grid) (c : Place) : (paint t l g).Inside c ↔ g.Inside c :=
  Board.inside_congr (width_paint t l g) (height_paint t l g) c

theorem tile_paint (g : Grid) (c : Place) :
    tile (paint t l g) c = if c ∈ l ∧ g.Inside c then t else tile g c := by
  induction l generalizing g with
  | nil => simp [paint]
  | cons d l ih =>
    show tile (paint t l (g.set d t)) c = _
    rw [ih, tile_set]
    by_cases hc : c = d
    · subst hc
      by_cases hin : g.Inside c <;> simp [hin]
    · simp [hc]

theorem mem_borderCells_iff (h : g.Inside c) : c ∈ borderCells g.width g.height ↔ OnBorder g c := by
  obtain ⟨hleft, hright, htop, hbottom⟩ := h
  unfold borderCells OnBorder
  simp only [List.mem_append, List.mem_flatMap, List.mem_range, List.mem_cons, List.not_mem_nil,
    or_false, Prod.ext_iff]
  constructor
  · rintro (⟨x, hx, h | h⟩ | ⟨y, hy, h | h⟩) <;> omega
  · rintro (h | h | h | h)
    · exact .inr ⟨c.2.toNat, by omega, .inl ⟨h, by omega⟩⟩
    · exact .inr ⟨c.2.toNat, by omega, .inr ⟨h, by omega⟩⟩
    · exact .inl ⟨c.1.toNat, by omega, .inl ⟨by omega, h⟩⟩
    · exact .inl ⟨c.1.toNat, by omega, .inr ⟨by omega, h⟩⟩

instance (g : Grid) (c : Place) : Decidable (OnBorder g c) :=
  inferInstanceAs (Decidable (_ ∨ _ ∨ _ ∨ _))

theorem tile_wallBorder (g : Grid) (c : Place) :
    tile (wallBorder g) c = if OnBorder g c then .wall else tile g c := by
  unfold wallBorder
  rw [tile_paint]
  by_cases hin : g.Inside c
  · simp only [mem_borderCells_iff hin, hin, and_true]
  · simp [hin, tile_of_not_inside hin]

theorem ringed_wallBorder (g : Grid) : Ringed (wallBorder g) := by
  intro c _ hborder
  rw [tile_wallBorder, if_pos]
  unfold OnBorder wallBorder at hborder
  rw [width_paint, height_paint] at hborder
  exact hborder

/-! ### Floor that grows -/

theorem onePiece_carve (h : OnePiece g) {d : Place} (hc : tile g c = .floor)
    (hbeside : orthogonal.Adj c d) (hd : g.Inside d) : OnePiece (g.set d .floor) := by
  unfold OnePiece
  rw [floor_set_floor hd]
  exact preconnected_insert h hc hbeside

/-- The cells from a column up to another one, and from a row up to another one. -/
def blockSet (left right top bottom : Int) : Set Place :=
  {c | left ≤ c.1 ∧ c.1 < right ∧ top ≤ c.2 ∧ c.2 < bottom}

/-- A block of cells is in one piece. -/
theorem preconnected_blockSet (left right top bottom : Int) :
    (orthogonal.induce (blockSet left right top bottom)).Preconnected := by
  by_cases hempty : left < right ∧ top < bottom
  · -- from every cell the way is to the left and then up, to the first one
    refine preconnected_of_descent (fun c => (c.1 - left + (c.2 - top)).toNat)
      (left, top) ⟨by simp, hempty.1, by simp, hempty.2⟩ ?_
    rintro ⟨x, y⟩ ⟨hleft, hright, htop, hbottom⟩
    by_cases hx : left < x
    · refine .inr ⟨(x - 1, y), ⟨by simp; omega, by simp; omega, htop, hbottom⟩, ?_, ?_⟩
      · exact .inr ⟨rfl, .inr (by simp)⟩
      · omega
    · by_cases hy : top < y
      · refine .inr ⟨(x, y - 1), ⟨hleft, hright, by simp; omega, by simp; omega⟩, ?_, ?_⟩
        · exact .inl ⟨rfl, .inr (by simp)⟩
        · omega
      · exact .inl (Prod.ext (by dsimp only; omega) (by dsimp only; omega))
  · rintro ⟨c, hc⟩
    obtain ⟨hleft, hright, htop, hbottom⟩ := hc
    exact absurd ⟨by omega, by omega⟩ hempty

end Sidequest.Interior
