import Sidequest.Interior.Grid
import Sidequest.Lib.Draws

namespace Sidequest.Interior

open Lib Effect

/-!
# Mazes

The depth-first maker carves on from the cell on top of a stack to a cell of wall two steps away;
where there is none, it goes back. The other maker starts at seed points one after the other, and
carves a walk of a bounded length from each; walks from different seed points need not meet.

* `genDepthfirst`, `backtrack` — the first maker, and its loop;
* `meets_genPrim_of_one` — with one seed point, what is carved is one piece.
-/

variable {E : InteriorError → Rng → Prop}

section

/-- The loop, for a number of rounds. The cell to go on from comes first. -/
def backtrack : Nat → Grid → List Place → Effect InteriorError Rng Grid
  | 0, _, _ => throw .outOfFuel
  | _ + 1, g, [] => pure g
  | fuel + 1, g, c :: stack =>
    if wallNeighbors g c = [] then backtrack fuel g stack
    else do
      let n ← choice .emptyRange (wallNeighbors g c)
      backtrack fuel (carveBetween g c n) (n :: c :: stack)

/-- The maker of mazes. -/
def genDepthfirst (width height : Int) : Effect InteriorError Rng Grid :=
  if width < 3 ∨ height < 3 then throw (tooSmall "gen_depthfirst" 3 width height)
  else do
    let column ← randrange .emptyRange (max 1 ((width - 1) / 2)).toNat
    let row ← randrange .emptyRange (max 1 ((height - 1) / 2)).toNat
    let start : Place := ((column : Int) * 2 + 1, (row : Int) * 2 + 1)
    backtrack (width.toNat * height.toNat + 1)
      ((newGrid width.toNat height.toNat).set start .floor) [start]

/-! ### Two steps -/

/-- From `c` it is a step to `m`, and another one in the same direction to `n`. -/
def Straight (c m n : Place) : Prop :=
  (m.1 = c.1 ∧ n.1 = c.1 ∧ ((m.2 = c.2 + 1 ∧ n.2 = c.2 + 2) ∨ (m.2 = c.2 - 1 ∧ n.2 = c.2 - 2))) ∨
    (m.2 = c.2 ∧ n.2 = c.2 ∧ ((m.1 = c.1 + 1 ∧ n.1 = c.1 + 2) ∨ (m.1 = c.1 - 1 ∧ n.1 = c.1 - 2)))

/-- A cell of odd column and odd row. -/
def Node (c : Place) : Prop := c.1 % 2 = 1 ∧ c.2 % 2 = 1

theorem mem_wallNeighbors_iff {g : Grid} {c n : Place} :
    n ∈ wallNeighbors g c ↔ Straight c (midpoint c n) n ∧ g.Inside n ∧ tile g n = .wall := by
  unfold wallNeighbors
  rw [List.mem_filter, decide_eq_true_eq]
  refine and_congr_left (fun _ => ?_)
  simp only [List.map_cons, List.map_nil, List.mem_cons, List.not_mem_nil, or_false, step,
    Prod.ext_iff, Straight, midpoint]
  omega

/-- The cell halfway is on the grid, too. -/
theorem Straight.inside {g : Grid} {c m n : Place} (h : Straight c m n) (hc : g.Inside c)
    (hn : g.Inside n) : g.Inside m := by
  unfold Straight at h
  unfold Board.Inside at hc hn ⊢
  omega

theorem Straight.adj {c m n : Place} (h : Straight c m n) :
    orthogonal.Adj c m ∧ orthogonal.Adj m n := by
  unfold Straight at h
  show (_ ∨ _) ∧ (_ ∨ _)
  omega

/-! ### The tree that is carved -/

/-- What the loop keeps. The floor is a tree of nodes and halfway cells; a node with wall two steps
    away still waits on the stack. -/
structure Maze (width height : Nat) (g : Grid) (stack : List Place) : Prop where
  wide : g.width = width
  tall : g.height = height
  piece : OnePiece g
  acyclic : (orthogonal.induce (floor g)).spanningCoe.IsAcyclic
  halfway : ∀ x y, tile g (x, y) = .floor → (x % 2 = 1 ∧ y % 2 = 1) ∨
    (x % 2 = 0 ∧ y % 2 = 1 ∧ tile g (x - 1, y) = .floor ∧ tile g (x + 1, y) = .floor) ∨
    (x % 2 = 1 ∧ y % 2 = 0 ∧ tile g (x, y - 1) = .floor ∧ tile g (x, y + 1) = .floor)
  nodes : ∀ c ∈ stack, Node c ∧ tile g c = .floor
  waiting : ∀ c, tile g c = .floor → Node c → c ∈ stack ∨ wallNeighbors g c = []
  started : ∃ c, Node c ∧ tile g c = .floor

section Carve

variable {width height : Nat} {g : Grid} {stack : List Place} {c n : Place}

/-- A step back, where there is no wall two steps away. -/
theorem Maze.back (h : Maze width height g (c :: stack)) (hnone : wallNeighbors g c = []) :
    Maze width height g stack where
  wide := h.wide
  tall := h.tall
  piece := h.piece
  acyclic := h.acyclic
  halfway := h.halfway
  nodes d hd := h.nodes d (List.mem_cons_of_mem c hd)
  waiting d hfloor hnode := by
    rcases h.waiting d hfloor hnode with hd | hd
    · rcases List.mem_cons.mp hd with rfl | hd
      · exact .inr hnone
      · exact .inl hd
    · exact .inr hd
  started := h.started

/-- What a step forward makes floor. -/
theorem floor_carveBetween (hc : tile g c = .floor) (hn : n ∈ wallNeighbors g c) :
    floor (carveBetween g c n) = insert n (insert (midpoint c n) (floor g)) := by
  obtain ⟨hstraight, hin, -⟩ := mem_wallNeighbors_iff.mp hn
  have hcin := inside_of_floor hc
  have hmin := hstraight.inside hcin hin
  unfold carveBetween
  rw [floor_set_floor (g := (g.set c .floor).set n .floor) hmin,
    floor_set_floor (g := g.set c .floor) hin, floor_set_floor hcin,
    Set.insert_eq_of_mem (show c ∈ floor g from hc), Set.insert_comm]

/-- A step forward leaves the floor in one piece. -/
theorem onePiece_carveBetween (h : OnePiece g) (hc : tile g c = .floor)
    (hn : n ∈ wallNeighbors g c) : OnePiece (carveBetween g c n) := by
  obtain ⟨hstraight, -, -⟩ := mem_wallNeighbors_iff.mp hn
  obtain ⟨hfirst, hsecond⟩ := hstraight.adj
  unfold OnePiece
  rw [floor_carveBetween hc hn]
  exact preconnected_insert (preconnected_insert h hc hfirst) (Set.mem_insert _ _) hsecond

theorem tile_carveBetween (hc : tile g c = .floor) (hn : n ∈ wallNeighbors g c) (d : Place) :
    tile (carveBetween g c n) d = .floor ↔ d = n ∨ d = midpoint c n ∨ tile g d = .floor := by
  have hset := floor_carveBetween hc hn
  exact Set.ext_iff.mp hset d

/-- There is no more wall two steps away than there was. -/
theorem wallNeighbors_carveBetween (hc : tile g c = .floor) (hn : n ∈ wallNeighbors g c) {d : Place}
    (hnone : wallNeighbors g d = []) : wallNeighbors (carveBetween g c n) d = [] := by
  refine List.eq_nil_iff_forall_not_mem.mpr (fun e he => ?_)
  obtain ⟨hstraight, hin, hwall⟩ := mem_wallNeighbors_iff.mp he
  have hold : tile g e = .wall := by
    refine eq_wall_of_ne_floor (fun hfloor => ?_)
    rw [(tile_carveBetween hc hn e).mpr (.inr (.inr hfloor))] at hwall
    simp at hwall
  have hmem : e ∈ wallNeighbors g d := mem_wallNeighbors_iff.mpr ⟨hstraight, hin, hold⟩
  rw [hnone] at hmem
  exact List.not_mem_nil hmem

/-- Of the cells around the one halfway, only the one the step starts from is floor. -/
theorem Maze.around_midpoint (h : Maze width height g stack) (hnode : Node c)
    (hn : n ∈ wallNeighbors g c) :
    midpoint c n ∉ floor g ∧ ∀ d ∈ floor g, orthogonal.Adj d (midpoint c n) → d = c := by
  obtain ⟨hstraight, -, hwall⟩ := mem_wallNeighbors_iff.mp hn
  generalize midpoint c n = m at hstraight
  obtain ⟨mx, my⟩ := m
  obtain ⟨nx, ny⟩ := n
  have hsolid : ∀ x y, tile g (x, y) = .floor → ¬ (x = nx ∧ y = ny) := by
    rintro x y hfloor ⟨rfl, rfl⟩
    rw [hfloor] at hwall
    simp at hwall
  unfold Straight at hstraight
  unfold Node at hnode
  constructor
  · -- the cell halfway would have floor on both sides, and one of them is wall
    intro hfloor
    rcases h.halfway mx my hfloor with hodd | ⟨hx, hy, hleft, hright⟩ | ⟨hx, hy, htop, hbottom⟩
    · omega
    · have hleft' := hsolid (mx - 1) my hleft
      have hright' := hsolid (mx + 1) my hright
      omega
    · have htop' := hsolid mx (my - 1) htop
      have hbottom' := hsolid mx (my + 1) hbottom
      omega
  · rintro ⟨x, y⟩ hfloor hadj
    have hadj' : (x = mx ∧ (y = my + 1 ∨ my = y + 1)) ∨ (y = my ∧ (x = mx + 1 ∨ mx = x + 1)) := hadj
    have hne := hsolid x y hfloor
    have hshape := h.halfway x y hfloor
    refine Prod.ext ?_ ?_ <;> dsimp only <;> omega

/-- Of the cells around the one a step leads to, none is floor but the one halfway. -/
theorem Maze.around_target (h : Maze width height g stack) (hnode : Node c)
    (hn : n ∈ wallNeighbors g c) : n ∉ insert (midpoint c n) (floor g) ∧
      ∀ d ∈ insert (midpoint c n) (floor g), orthogonal.Adj d n → d = midpoint c n := by
  obtain ⟨hstraight, -, hwall⟩ := mem_wallNeighbors_iff.mp hn
  obtain ⟨nx, ny⟩ := n
  have hsolid : ∀ x y, tile g (x, y) = .floor → ¬ (x = nx ∧ y = ny) := by
    rintro x y hfloor ⟨rfl, rfl⟩
    rw [hfloor] at hwall
    simp at hwall
  unfold Straight at hstraight
  unfold Node at hnode
  constructor
  · rintro (heq | hfloor)
    · rw [Prod.ext_iff] at heq
      omega
    · exact hsolid nx ny hfloor ⟨rfl, rfl⟩
  · rintro ⟨x, y⟩ hd hadj
    have hadj' : (x = nx ∧ (y = ny + 1 ∨ ny = y + 1)) ∨ (y = ny ∧ (x = nx + 1 ∨ nx = x + 1)) := hadj
    rcases hd with heq | hfloor
    · exact heq
    · -- a cell of floor beside the target lies halfway to it, which makes the target floor
      rcases h.halfway x y hfloor with hodd | ⟨hx, hy, hleft, hright⟩ | ⟨hx, hy, htop, hbottom⟩
      · omega
      · have hleft' := hsolid (x - 1) y hleft
        have hright' := hsolid (x + 1) y hright
        omega
      · have htop' := hsolid x (y - 1) htop
        have hbottom' := hsolid x (y + 1) hbottom
        omega

/-- **A step forward.** First the cell halfway and then the target grow out of the tree, each with
    just one neighbour in it. -/
theorem Maze.carve (h : Maze width height g (c :: stack)) (hn : n ∈ wallNeighbors g c) :
    Maze width height (carveBetween g c n) (n :: c :: stack) := by
  obtain ⟨hnode, hc⟩ := h.nodes c (.head _)
  obtain ⟨hstraight, -, -⟩ := mem_wallNeighbors_iff.mp hn
  obtain ⟨hnew, hone⟩ := h.around_midpoint hnode hn
  obtain ⟨hnew', hone'⟩ := h.around_target hnode hn
  have hset := floor_carveBetween hc hn
  have htile := tile_carveBetween hc hn
  -- carving takes no floor away
  have hgrows : ∀ d, tile g d = .floor → tile (carveBetween g c n) d = .floor :=
    fun d hd => (htile d).mpr (.inr (.inr hd))
  have htarget : Node n := by
    unfold Straight at hstraight
    unfold Node at hnode ⊢
    omega
  refine ⟨h.wide, h.tall, onePiece_carveBetween h.piece hc hn, ?_, fun x y hfloor => ?_,
    fun d hd => ?_, fun d hfloor hd => ?_, ?_⟩
  · rw [hset]
    exact isAcyclic_insert (isAcyclic_insert h.acyclic hc hnew hone) (Set.mem_insert _ _) hnew' hone'
  · rcases (htile (x, y)).mp hfloor with heq | heq | hold
    · rw [← heq] at htarget
      exact .inl htarget
    · -- the cell halfway has the two ends of the step on its sides
      have hends : ∀ d, d = c ∨ d = n → tile (carveBetween g c n) d = .floor := by
        rintro d (rfl | rfl)
        · exact hgrows d hc
        · exact (htile d).mpr (.inl rfl)
      rw [← heq] at hstraight
      unfold Straight at hstraight
      unfold Node at hnode
      have hside : ∀ d : Place, (d.1 = c.1 ∧ d.2 = c.2) ∨ (d.1 = n.1 ∧ d.2 = n.2) →
          tile (carveBetween g c n) d = .floor :=
        fun d hd => hends d (hd.imp (fun h => Prod.ext h.1 h.2) (fun h => Prod.ext h.1 h.2))
      by_cases hvertical : x = c.1
      · refine .inr (.inr ⟨by omega, by omega, hside _ ?_, hside _ ?_⟩) <;> dsimp only <;> omega
      · refine .inr (.inl ⟨by omega, by omega, hside _ ?_, hside _ ?_⟩) <;> dsimp only <;> omega
    · rcases h.halfway x y hold with hodd | ⟨hx, hy, hleft, hright⟩ | ⟨hx, hy, htop, hbottom⟩
      · exact .inl hodd
      · exact .inr (.inl ⟨hx, hy, hgrows _ hleft, hgrows _ hright⟩)
      · exact .inr (.inr ⟨hx, hy, hgrows _ htop, hgrows _ hbottom⟩)
  · rcases List.mem_cons.mp hd with rfl | hd
    · exact ⟨htarget, (htile d).mpr (.inl rfl)⟩
    · exact ⟨(h.nodes d hd).1, hgrows d (h.nodes d hd).2⟩
  · rcases (htile d).mp hfloor with rfl | rfl | hold
    · exact .inl (.head _)
    · -- the cell halfway is no node
      unfold Straight at hstraight
      unfold Node at hnode hd
      omega
    · rcases h.waiting d hold hd with hwait | hnone
      · exact .inl (.tail n hwait)
      · exact .inr (wallNeighbors_carveBetween hc hn hnone)
  · exact ⟨c, hnode, hgrows c hc⟩

/-- A step forward makes two cells of wall floor. -/
theorem count_carveBetween (h : Maze width height g (c :: stack)) (hn : n ∈ wallNeighbors g c) :
    (carveBetween g c n).count .wall + 2 ≤ g.count .wall := by
  obtain ⟨hnode, hc⟩ := h.nodes c (.head _)
  obtain ⟨hstraight, hin, hwall⟩ := mem_wallNeighbors_iff.mp hn
  have hcin := inside_of_floor hc
  have hmin := hstraight.inside hcin hin
  have hother : n ≠ c := by
    rintro rfl
    rw [hc] at hwall
    simp at hwall
  have hwall' : tile (g.set c .floor) n = .wall := by
    rw [tile_set, if_neg (fun heq => hother heq.1)]
    exact hwall
  have hhalf : tile ((g.set c .floor).set n .floor) (midpoint c n) = .wall := by
    refine eq_wall_of_ne_floor (fun hfloor => ?_)
    have hmem : midpoint c n ∈ floor ((g.set c .floor).set n .floor) := hfloor
    rw [floor_set_floor (g := g.set c .floor) hin, floor_set_floor hcin,
      Set.insert_eq_of_mem (show c ∈ floor g from hc)] at hmem
    rcases hmem with heq | hold
    · exact (h.around_target hnode hn).1 (.inl heq.symm)
    · exact (h.around_midpoint hnode hn).1 hold
  have hfirst := Board.count_set_le g c (show Tile.floor ≠ .wall by decide)
  have hsecond := Board.count_set_lt (get?_of_wall (g := g.set c .floor) hin hwall')
    (show Tile.floor ≠ .wall by decide)
  have hthird := Board.count_set_lt (get?_of_wall (g := (g.set c .floor).set n .floor) hmin hhalf)
    (show Tile.floor ≠ .wall by decide)
  unfold carveBetween
  omega

end Carve

/-! ### The loop -/

/-- **The loop** ends within its rounds: a round makes two cells of wall floor for one on the stack,
    or takes one off. -/
theorem meets_backtrack {width height : Nat} (fuel : Nat) {g : Grid} {stack : List Place}
    (h : Maze width height g stack) (hfuel : g.count .wall + stack.length < fuel) :
    Meets (fun _ => True) (backtrack fuel g stack) (fun g' _ => Maze width height g' []) E := by
  induction fuel generalizing g stack with
  | zero => omega
  | succ fuel ih =>
    cases stack with
    | nil => exact fun rng _ => h
    | cons c stack =>
      rw [List.length_cons] at hfuel
      refine meets_ite (fun hnone => ?_) (fun hsome => ?_)
      · exact ih (h.back hnone) (by omega)
      · refine (yields_choice _ _).meets_bind (returns_choice _ hsome) (fun n hn => ?_)
        have hless := count_carveBetween h hn
        refine ih (h.carve hn) ?_
        simp only [List.length_cons]
        omega

/-- Where nothing waits any more, every node of the grid is floor: from a node that is, it is two
    steps at a time to any other one. -/
theorem Maze.tile_of_node {width height : Nat} {g : Grid} (h : Maze width height g []) {c : Place}
    (hin : g.Inside c) (hnode : Node c) : tile g c = .floor := by
  obtain ⟨⟨a, b⟩, hstart, hfloor⟩ := h.started
  have hnext : ∀ d e, tile g d = .floor → Node d → Straight d (midpoint d e) e → g.Inside e →
      tile g e = .floor := by
    intro d e hd hdnode hstraight hein
    by_contra hwall
    have hmem := mem_wallNeighbors_iff.mpr ⟨hstraight, hein, eq_wall_of_ne_floor hwall⟩
    rcases h.waiting d hd hdnode with hwait | hnone
    · exact List.not_mem_nil hwait
    · rw [hnone] at hmem
      exact List.not_mem_nil hmem
  have hstartin := inside_of_floor hfloor
  have hreach : ∀ k x y, (x - a).natAbs + (y - b).natAbs = k → Node (x, y) → g.Inside (x, y) →
      tile g (x, y) = .floor := by
    intro k
    induction k using Nat.strong_induction_on with
    | _ k ih =>
      intro x y hk hxy hxyin
      unfold Node at hxy hstart
      unfold Board.Inside at hxyin hstartin
      -- a node that is nearer to the start, from which it is two steps to this one
      have hfrom : ∀ x' y', Straight (x', y') (midpoint (x', y') (x, y)) (x, y) →
          (x' - a).natAbs + (y' - b).natAbs < k → x' % 2 = 1 ∧ y' % 2 = 1 → g.Inside (x', y') →
          tile g (x, y) = .floor := by
        intro x' y' hstraight hless hodd hin'
        exact hnext (x', y') (x, y) (ih _ hless x' y' rfl hodd hin') hodd hstraight hxyin
      unfold Straight midpoint Board.Inside at hfrom
      rcases lt_trichotomy x a with hx | hx | hx
      · exact hfrom (x + 2) y (by omega) (by omega) (by omega) (by omega)
      · rcases lt_trichotomy y b with hy | hy | hy
        · exact hfrom x (y + 2) (by omega) (by omega) (by omega) (by omega)
        · rw [hx, hy]
          exact hfloor
        · exact hfrom x (y - 2) (by omega) (by omega) (by omega) (by omega)
      · exact hfrom (x - 2) y (by omega) (by omega) (by omega) (by omega)
  exact hreach _ c.1 c.2 rfl hnode hin

theorem Maze.perfect {width height : Nat} {g : Grid} (h : Maze width height g []) : Perfect g where
  odd _ hin hcolumn hrow := h.tile_of_node hin ⟨hcolumn, hrow⟩
  path := existsUnique_path h.piece h.acyclic

/-! ### The maker -/

theorem maze_start {width height : Nat} {c : Place} (hin : (newGrid width height).Inside c)
    (hnode : Node c) : Maze width height ((newGrid width height).set c .floor) [c] := by
  have hset : floor ((newGrid width height).set c .floor) = {c} := by
    rw [floor_set_floor hin]
    ext d
    rw [Set.mem_insert_iff, Set.mem_singleton_iff, or_iff_left]
    intro hfloor
    have hfloor' : tile (newGrid width height) d = .floor := hfloor
    rw [tile_newGrid] at hfloor'
    simp at hfloor'
  have htile : ∀ d, tile ((newGrid width height).set c .floor) d = .floor ↔ d = c :=
    Set.ext_iff.mp hset
  refine ⟨rfl, rfl, ?_, ?_, fun x y hfloor => ?_, fun d hd => ?_, fun d hfloor _ => ?_, ?_⟩
  · unfold OnePiece
    rw [hset]
    exact SimpleGraph.Preconnected.of_subsingleton
  · rw [hset]
    exact isAcyclic_singleton c
  · have heq := (htile (x, y)).mp hfloor
    rw [← heq] at hnode
    exact .inl hnode
  · rw [List.mem_singleton.mp hd]
    exact ⟨hnode, (htile c).mpr rfl⟩
  · rw [(htile d).mp hfloor]
    exact .inl (List.mem_singleton_self c)
  · exact ⟨c, hnode, (htile c).mpr rfl⟩

theorem start_inside {width height : Int} (hsize : ¬ (width < 3 ∨ height < 3)) {column row : Nat}
    (hcolumn : column < (max 1 ((width - 1) / 2)).toNat)
    (hrow : row < (max 1 ((height - 1) / 2)).toNat) :
    (newGrid width.toNat height.toNat).Inside ((column : Int) * 2 + 1, (row : Int) * 2 + 1) ∧
      Node ((column : Int) * 2 + 1, (row : Int) * 2 + 1) := by
  constructor
  · show (0 ≤ (column : Int) * 2 + 1 ∧ (column : Int) * 2 + 1 < (width.toNat : Int) ∧
      0 ≤ (row : Int) * 2 + 1 ∧ (row : Int) * 2 + 1 < (height.toNat : Int))
    omega
  · unfold Node
    omega

/-- **Mazes.** A grid of a size that is accepted becomes a maze of that size with no node waiting. -/
theorem meets_genDepthfirst {width height : Int} (hsize : ¬ (width < 3 ∨ height < 3)) :
    Meets (fun _ => True) (genDepthfirst width height)
      (fun g _ => Maze width.toNat height.toNat g []) E := by
  unfold genDepthfirst
  rw [if_neg hsize]
  refine (yields_randrange _ _).meets_bind (returns_randrange _ (by omega)) (fun column hcolumn => ?_)
  refine (yields_randrange _ _).meets_bind (returns_randrange _ (by omega)) (fun row hrow => ?_)
  obtain ⟨hin, hnode⟩ := start_inside hsize hcolumn hrow
  have hfuel : ((newGrid width.toNat height.toNat).set
      ((column : Int) * 2 + 1, (row : Int) * 2 + 1) .floor).count .wall + 1
      < width.toNat * height.toNat + 1 := by
    have hless := Board.count_set_lt (get?_of_wall hin (tile_newGrid _ _ _))
      (show Tile.floor ≠ .wall by decide)
    have hle := Board.count_le (newGrid width.toNat height.toNat) .wall
    have hbound : (newGrid width.toNat height.toNat).count .wall ≤ width.toNat * height.toNat := hle
    omega
  exact meets_backtrack _ (maze_start hin hnode) hfuel

theorem Maze.sized {width height : Int} (hsize : ¬ (width < 3 ∨ height < 3)) {g : Grid}
    {stack : List Place} (h : Maze width.toNat height.toNat g stack) : Sized g width height := by
  have hwide := h.wide
  have htall := h.tall
  unfold Sized
  omega

end

/-- Carve on from a cell for a number of steps, while there is wall two steps away. -/
def extend : Nat → Grid → Place → Effect InteriorError Rng Grid
  | 0, g, _ => pure g
  | complexity + 1, g, c =>
    if wallNeighbors g c = [] then pure g
    else do
      let n ← choice .emptyRange (wallNeighbors g c)
      extend complexity (carveBetween g c n) n

/-- A seed point, and the walk from it. -/
def sow (width height complexity : Int) (g : Grid) (_ : Nat) : Effect InteriorError Rng Grid := do
  let column ← randrange .emptyRange (max 1 ((width - 1) / 2)).toNat
  let row ← randrange .emptyRange (max 1 ((height - 1) / 2)).toNat
  let start : Place := ((column : Int) * 2 + 1, (row : Int) * 2 + 1)
  extend complexity.toNat (g.set start .floor) start

/-- The number of seed points, if none is asked for. -/
def primDensity (width height : Int) : Int := max 1 ((width + height) / 8)

/-- The length of the walks, if none is asked for. -/
def primComplexity (width height : Int) : Int := max 1 ((width + height) / 2)

/-- The maker. -/
def genPrim (width height : Int) (density complexity : Option Int) : Effect InteriorError Rng Grid :=
  if width < 3 ∨ height < 3 then throw (tooSmall "gen_prim" 3 width height)
  else
    (List.range (density.getD (primDensity width height)).toNat).foldlM
      (sow width height (complexity.getD (primComplexity width height)))
      (newGrid width.toNat height.toNat)

/-! ### One seed point -/

theorem meets_extend (complexity : Nat) {g : Grid} {c : Place} (h : OnePiece g)
    (hc : tile g c = .floor) :
    Meets (fun _ => True) (extend complexity g c) (fun g' _ => OnePiece g') E := by
  induction complexity generalizing g c with
  | zero => exact fun rng _ => h
  | succ complexity ih =>
    refine meets_ite (fun _ => fun rng _ => h) (fun hsome => ?_)
    refine (yields_choice _ _).meets_bind (returns_choice _ hsome) (fun n hn => ?_)
    exact ih (onePiece_carveBetween h hc hn) ((tile_carveBetween hc hn n).mpr (.inl rfl))

/-- **With one seed point** at most, what is carved is one piece. -/
theorem meets_genPrim_of_one {width height : Int} (hsize : ¬ (width < 3 ∨ height < 3))
    {density complexity : Option Int} (hone : density.getD (primDensity width height) ≤ 1) :
    Meets (fun _ => True) (genPrim width height density complexity) (fun g _ => OnePiece g) E := by
  unfold genPrim
  rw [if_neg hsize]
  have hblank : ∀ c, tile (newGrid width.toNat height.toNat) c ≠ .floor := by
    intro c hc
    rw [tile_newGrid] at hc
    simp at hc
  obtain hnone | hsome : (density.getD (primDensity width height)).toNat = 0 ∨
      (density.getD (primDensity width height)).toNat = 1 := by omega
  · rw [hnone]
    exact fun rng _ => fun c => absurd c.2 (hblank c.1)
  · rw [hsome]
    show Meets _ (sow width height _ _ 0 >>= pure) _ _
    rw [bind_pure]
    refine (yields_randrange _ _).meets_bind (returns_randrange _ (by omega))
      (fun column hcolumn => ?_)
    refine (yields_randrange _ _).meets_bind (returns_randrange _ (by omega)) (fun row hrow => ?_)
    obtain ⟨hin, hnode⟩ := start_inside hsize hcolumn hrow
    have hstart := maze_start hin hnode
    exact meets_extend _ hstart.piece (hstart.nodes _ (List.mem_singleton_self _)).2

end Sidequest.Interior
