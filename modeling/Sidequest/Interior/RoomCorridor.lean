import Sidequest.Interior.Grid
import Sidequest.Lib.Draws
import Sidequest.Lib.Except

namespace Sidequest.Interior

open Lib Effect

/-!
# Rooms and corridors

Rooms are placed at random, and may overlap; the centre of each is joined to the one before by a
corridor with one corner. Last, the outermost ring is walled, whatever was carved there.

* `genRoomcorridor`, `addRoom` — the maker, and the placing of one room;
* `meets_genRoomcorridor` — rooms that are not of negative size leave one piece, ringed by wall.
-/

/-- An index into so many entries; a negative one counts from their end. -/
def pyIndex (n : Nat) (i : Int) : Option Int :=
  if 0 ≤ i ∧ i < n then some i else if -(n : Int) ≤ i ∧ i < 0 then some (i + n) else none

/-- A cell becomes floor, addressed as rows of cells are. -/
def carveCell (g : Grid) (c : Place) : Except InteriorError Grid :=
  match pyIndex g.height c.2, pyIndex g.width c.1 with
  | some y, some x => .ok (g.set (x, y) .floor)
  | _, _ => .error .indexError

/-- The integers from one up to, but not including, another one. -/
def pyRange (first stop : Int) : List Int :=
  (List.range (stop - first).toNat).map (fun n : Nat => first + n)

/-- The cells from a column up to another one, and from a row up to another one, row by row. -/
def block (left right top bottom : Int) : List Place :=
  (pyRange top bottom).flatMap (fun y => (pyRange left right).map (fun x => (x, y)))

/-- A block of cells becomes floor. -/
def carveBlock (g : Grid) (left right top bottom : Int) : Except InteriorError Grid :=
  (block left right top bottom).foldlM carveCell g

/-- A room, by its first column, its first row and its extent. -/
def carveRoom (g : Grid) (x y roomWidth roomHeight : Int) : Except InteriorError Grid :=
  carveBlock g x (x + roomWidth) y (y + roomHeight)

/-- A stretch of a row, ends included. -/
def carveH (g : Grid) (a b y : Int) : Except InteriorError Grid :=
  carveBlock g (min a b) (max a b + 1) y (y + 1)

/-- A stretch of a column, ends included. -/
def carveV (g : Grid) (a b x : Int) : Except InteriorError Grid :=
  carveBlock g x (x + 1) (min a b) (max a b + 1)

/-- A corridor between two centres, along the row or along the column of the first to begin with. -/
def joinCenters (g : Grid) (p c : Place) : Effect InteriorError Rng Grid := do
  let u ← uniform
  if u < 1 / 2 then
    let g ← ofExcept (carveH g p.1 c.1 p.2)
    ofExcept (carveV g p.2 c.2 c.1)
  else
    let g ← ofExcept (carveV g p.2 c.2 p.1)
    ofExcept (carveH g p.1 c.1 c.2)

/-- Place a room, unless it reaches the last column or the last row but one. The state has the grid
    and the centres of the rooms so far. -/
def addRoom (width height roomMin roomMax : Int) (s : Grid × List Place) (_ : Nat) :
    Effect InteriorError Rng (Grid × List Place) := do
  let roomWidth ← randint .emptyRange roomMin roomMax
  let roomHeight ← randint .emptyRange roomMin roomMax
  let x ← randint .emptyRange 1 (max 1 (width - roomWidth - 1))
  let y ← randint .emptyRange 1 (max 1 (height - roomHeight - 1))
  if x + roomWidth ≥ width - 1 ∨ y + roomHeight ≥ height - 1 then pure s
  else
    let g ← ofExcept (carveRoom s.1 x y roomWidth roomHeight)
    let c : Place := (x + roomWidth / 2, y + roomHeight / 2)
    match s.2.getLast? with
    | none => pure (g, s.2 ++ [c])
    | some p =>
      let g ← joinCenters g p c
      pure (g, s.2 ++ [c])

/-- The maker of rooms and corridors. -/
def genRoomcorridor (width height maxRooms roomMin roomMax : Int) : Effect InteriorError Rng Grid :=
  if width < 5 ∨ height < 5 then throw (tooSmall "gen_roomcorridor" 5 width height)
  else do
    let s ← (List.range maxRooms.toNat).foldlM (addRoom width height roomMin roomMax)
      (newGrid width.toNat height.toNat, [])
    pure (wallBorder s.1)

/-! ### Carving blocks -/

theorem mem_pyRange_iff {first stop i : Int} : i ∈ pyRange first stop ↔ first ≤ i ∧ i < stop := by
  unfold pyRange
  rw [List.mem_map]
  constructor
  · rintro ⟨n, hn, rfl⟩
    rw [List.mem_range] at hn
    omega
  · rintro ⟨hfirst, hstop⟩
    exact ⟨(i - first).toNat, List.mem_range.mpr (by omega), by omega⟩

theorem mem_block_iff {left right top bottom : Int} {c : Place} :
    c ∈ block left right top bottom ↔ c ∈ blockSet left right top bottom := by
  unfold block blockSet
  simp only [List.mem_flatMap, List.mem_map, mem_pyRange_iff, Set.mem_ofPred_eq]
  constructor
  · rintro ⟨y, hy, x, hx, rfl⟩
    exact ⟨hx.1, hx.2, hy.1, hy.2⟩
  · rintro ⟨hleft, hright, htop, hbottom⟩
    exact ⟨c.2, ⟨htop, hbottom⟩, c.1, ⟨hleft, hright⟩, rfl⟩

variable {g : Grid}

theorem carveCell_of_inside {c : Place} (h : g.Inside c) :
    carveCell g c = .ok (g.set c .floor) := by
  obtain ⟨hleft, hright, htop, hbottom⟩ := h
  unfold carveCell pyIndex
  rw [if_pos ⟨htop, hbottom⟩, if_pos ⟨hleft, hright⟩]

variable {l : List Place}

/-- Cells on the grid are carved one after the other. -/
theorem foldlM_carveCell (h : ∀ c ∈ l, g.Inside c) :
    l.foldlM carveCell g = .ok (paint .floor l g) := by
  induction l generalizing g with
  | nil => rfl
  | cons c l ih =>
    rw [List.foldlM_cons, carveCell_of_inside (h c (.head _))]
    exact ih (fun d hd => h d (.tail c hd))

/-- What is carved is floor, and so is all that was. -/
theorem floor_paint (h : ∀ c ∈ l, g.Inside c) :
    floor (paint .floor l g) = floor g ∪ {c | c ∈ l} := by
  ext c
  show tile (paint .floor l g) c = .floor ↔ tile g c = .floor ∨ c ∈ l
  rw [tile_paint]
  by_cases hc : c ∈ l
  · simp [hc, h c hc]
  · simp [hc]

/-! ### Corridors -/

/-- The cells of a corridor: it leads from `p` to `c` in one piece, and stays within the columns and
    the rows between them. -/
structure Corridor (p c : Place) (l : List Place) : Prop where
  start : p ∈ l
  stop : c ∈ l
  piece : (orthogonal.induce {d | d ∈ l}).Preconnected
  within : ∀ d ∈ l, min p.1 c.1 ≤ d.1 ∧ d.1 ≤ max p.1 c.1 ∧ min p.2 c.2 ≤ d.2 ∧ d.2 ≤ max p.2 c.2

/-- The cells of a stretch of a row. -/
def rowCells (a b y : Int) : List Place := block (min a b) (max a b + 1) y (y + 1)

/-- The cells of a stretch of a column. -/
def columnCells (a b x : Int) : List Place := block x (x + 1) (min a b) (max a b + 1)

theorem mem_rowCells_iff {a b y : Int} {d : Place} :
    d ∈ rowCells a b y ↔ min a b ≤ d.1 ∧ d.1 ≤ max a b ∧ d.2 = y := by
  unfold rowCells
  rw [mem_block_iff]
  show (_ ∧ _ ∧ _ ∧ _) ↔ _
  omega

theorem mem_columnCells_iff {a b x : Int} {d : Place} :
    d ∈ columnCells a b x ↔ d.1 = x ∧ min a b ≤ d.2 ∧ d.2 ≤ max a b := by
  unfold columnCells
  rw [mem_block_iff]
  show (_ ∧ _ ∧ _ ∧ _) ↔ _
  omega

/-- Blocks that share a cell are one piece. -/
theorem preconnected_blocks {left right top bottom left' right' top' bottom' : Int} (q : Place)
    (hq : q ∈ block left right top bottom) (hq' : q ∈ block left' right' top' bottom') :
    (orthogonal.induce
      {d | d ∈ block left right top bottom ++ block left' right' top' bottom'}).Preconnected := by
  have hset : {d | d ∈ block left right top bottom ++ block left' right' top' bottom'}
      = blockSet left right top bottom ∪ blockSet left' right' top' bottom' := by
    ext d
    rw [Set.mem_ofPred_eq, List.mem_append, mem_block_iff, mem_block_iff, Set.mem_union]
  rw [hset]
  exact preconnected_union (preconnected_blockSet _ _ _ _) (preconnected_blockSet _ _ _ _)
    (.inr ⟨q, mem_block_iff.mp hq, mem_block_iff.mp hq'⟩)

theorem corridor_row_column (p c : Place) :
    Corridor p c (rowCells p.1 c.1 p.2 ++ columnCells p.2 c.2 c.1) where
  start := List.mem_append_left _ (mem_rowCells_iff.mpr (by omega))
  stop := List.mem_append_right _ (mem_columnCells_iff.mpr (by omega))
  piece := preconnected_blocks (c.1, p.2) (mem_rowCells_iff.mpr (by dsimp only; omega))
    (mem_columnCells_iff.mpr (by dsimp only; omega))
  within d hd := by
    rcases List.mem_append.mp hd with hd | hd
    · have hd := mem_rowCells_iff.mp hd
      omega
    · have hd := mem_columnCells_iff.mp hd
      omega

theorem corridor_column_row (p c : Place) :
    Corridor p c (columnCells p.2 c.2 p.1 ++ rowCells p.1 c.1 c.2) where
  start := List.mem_append_left _ (mem_columnCells_iff.mpr (by omega))
  stop := List.mem_append_right _ (mem_rowCells_iff.mpr (by omega))
  piece := preconnected_blocks (p.1, c.2) (mem_columnCells_iff.mpr (by dsimp only; omega))
    (mem_rowCells_iff.mpr (by dsimp only; omega))
  within d hd := by
    rcases List.mem_append.mp hd with hd | hd
    · have hd := mem_columnCells_iff.mp hd
      omega
    · have hd := mem_rowCells_iff.mp hd
      omega

/-- What lies in the columns and the rows between two cells of a grid is on the grid. -/
theorem Corridor.inside {p c : Place} (h : Corridor p c l) (hp : g.Inside p) (hc : g.Inside c)
    {d : Place} (hd : d ∈ l) : g.Inside d := by
  have hwithin := h.within d hd
  unfold Board.Inside at hp hc ⊢
  omega

theorem paint_append (t : Tile) (l l' : List Place) (g : Grid) :
    paint t (l ++ l') g = paint t l' (paint t l g) := List.foldl_append

variable {E : InteriorError → Rng → Prop}

/-- **Carving a corridor**: its two stretches lie on the grid, so both are carved. -/
theorem meets_carveBlocks {l' : List Place} {p c : Place} (h : Corridor p c (l ++ l'))
    (hp : g.Inside p) (hc : g.Inside c) : Meets (fun _ => True)
      (do let g' ← (ofExcept (l.foldlM carveCell g) : Effect InteriorError Rng Grid)
          ofExcept (l'.foldlM carveCell g'))
      (fun g' _ => ∃ l, Corridor p c l ∧ g' = paint .floor l g) E := by
  have hfirst : l.foldlM carveCell g = .ok (paint .floor l g) :=
    foldlM_carveCell (fun d hd => h.inside hp hc (List.mem_append_left l' hd))
  have hsecond : l'.foldlM carveCell (paint .floor l g) = .ok (paint .floor (l ++ l') g) := by
    rw [paint_append]
    refine foldlM_carveCell (fun d hd => (inside_paint .floor l g d).mpr ?_)
    exact h.inside hp hc (List.mem_append_right l hd)
  intro rng _
  rw [hfirst, exec_ofExcept_ok_bind, hsecond]
  exact ⟨l ++ l', h, rfl⟩

/-- **Corridors.** Between two cells of the grid, a corridor is carved. -/
theorem meets_joinCenters {p c : Place} (hp : g.Inside p) (hc : g.Inside c) :
    Meets (fun _ => True) (joinCenters g p c)
      (fun g' _ => ∃ l, Corridor p c l ∧ g' = paint .floor l g) E := by
  refine (yields_any uniform).meets_bind returns_uniform (fun u _ => ?_)
  refine meets_ite (fun _ => ?_) (fun _ => ?_)
  · exact meets_carveBlocks (corridor_row_column p c) hp hc
  · exact meets_carveBlocks (corridor_column_row p c) hp hc

/-! ### Placing rooms -/

/-- What the placing of rooms keeps: the floor is one piece inside the ring, with the last centre on
    it, if there is floor. -/
structure Furnished (width height : Int) (s : Grid × List Place) : Prop where
  wide : s.1.width = width
  tall : s.1.height = height
  inner : ∀ c ∈ floor s.1, Inner width height c
  piece : OnePiece s.1
  last : ∀ p, s.2.getLast? = some p → Inner width height p ∧ (floor s.1 = ∅ ∨ p ∈ floor s.1)
  blank : s.2.getLast? = none → floor s.1 = ∅

section Furnished

variable {width height : Int} {s : Grid × List Place} {c : Place} {room : List Place}

theorem Furnished.inside (h : Furnished width height s) {d : Place} (hd : Inner width height d) :
    s.1.Inside d := by
  have hwidth := h.wide
  have hheight := h.tall
  unfold Inner at hd
  unfold Board.Inside
  omega

/-- Floor that is added keeps the floor inside the ring, where the new centre is part of it. -/
theorem Furnished.of_floor (h : Furnished width height s) (hl : ∀ d ∈ l, Inner width height d)
    (hc : Inner width height c)
    (hpiece : (orthogonal.induce (floor s.1 ∪ {d | d ∈ l})).Preconnected)
    (hcentre : floor s.1 ∪ {d | d ∈ l} = ∅ ∨ c ∈ floor s.1 ∪ {d | d ∈ l}) :
    Furnished width height (paint .floor l s.1, s.2 ++ [c]) := by
  have hfloor := floor_paint (fun d hd => h.inside (hl d hd))
  refine ⟨?_, ?_, fun d hd => ?_, ?_, fun p hp => ?_, fun hnone => ?_⟩
  · rw [width_paint]
    exact h.wide
  · rw [height_paint]
    exact h.tall
  · rw [hfloor] at hd
    rcases hd with hd | hd
    · exact h.inner d hd
    · exact hl d hd
  · unfold OnePiece
    rw [hfloor]
    exact hpiece
  · rw [List.getLast?_concat] at hp
    cases hp
    refine ⟨hc, ?_⟩
    rw [hfloor]
    exact hcentre
  · simp at hnone

variable (hroom : ∀ d ∈ room, Inner width height d) (hc : Inner width height c)
  (hpiece : (orthogonal.induce {d | d ∈ room}).Preconnected) (hcentre : room = [] ∨ c ∈ room)

include hroom hc hpiece hcentre

theorem Furnished.first (h : Furnished width height s) (hnone : s.2.getLast? = none) :
    Furnished width height (paint .floor room s.1, s.2 ++ [c]) := by
  have hblank := h.blank hnone
  refine h.of_floor hroom hc ?_ ?_
  · rw [hblank, Set.empty_union]
    exact hpiece
  · rcases hcentre with rfl | hcentre
    · refine .inl ?_
      rw [hblank, Set.empty_union]
      exact Set.eq_empty_of_forall_notMem (fun d hd => List.not_mem_nil hd)
    · exact .inr (.inr hcentre)

/-- A room that is joined to the one before. -/
theorem Furnished.next (h : Furnished width height s) {p : Place} (hlast : s.2.getLast? = some p)
    {corridor : List Place} (hcorridor : Corridor p c corridor) :
    Furnished width height (paint .floor corridor (paint .floor room s.1), s.2 ++ [c]) := by
  obtain ⟨hp, hold⟩ := h.last p hlast
  rw [← paint_append]
  have hset : floor s.1 ∪ {d | d ∈ room ++ corridor}
      = {d | d ∈ room} ∪ (floor s.1 ∪ {d | d ∈ corridor}) := by
    ext d
    simp only [Set.mem_union, Set.mem_ofPred_eq, List.mem_append]
    exact or_left_comm
  refine h.of_floor (fun d hd => ?_) hc ?_ (.inr (.inr ?_))
  · rcases List.mem_append.mp hd with hd | hd
    · exact hroom d hd
    · have hwithin := hcorridor.within d hd
      unfold Inner at hp hc ⊢
      omega
  · rw [hset]
    -- the corridor meets what was carved before in its start, and the room in its end
    refine preconnected_union hpiece (preconnected_union h.piece hcorridor.piece ?_) ?_
    · rcases hold with hold | hold
      · exact .inl hold
      · exact .inr ⟨p, hold, hcorridor.start⟩
    · rcases hcentre with rfl | hcentre
      · exact .inl (Set.eq_empty_of_forall_notMem (fun d hd => List.not_mem_nil hd))
      · exact .inr ⟨c, hcentre, .inr hcorridor.stop⟩
  · exact List.mem_append_right room hcorridor.stop

end Furnished

/-- **One room.** Rooms that are not of negative size keep the floor in one piece. -/
theorem meets_addRoom {width height roomMin roomMax : Int} (hmin : 0 ≤ roomMin)
    (hle : roomMin ≤ roomMax) {s : Grid × List Place} (h : Furnished width height s) (n : Nat) :
    Meets (fun _ => True) (addRoom width height roomMin roomMax s n)
      (fun s' _ => Furnished width height s') E := by
  unfold addRoom
  refine (yields_randint _ _ _).meets_bind (returns_randint _ hle) (fun roomWidth hwidth => ?_)
  refine (yields_randint _ _ _).meets_bind (returns_randint _ hle) (fun roomHeight hheight => ?_)
  refine (yields_randint _ _ _).meets_bind (returns_randint _ (le_max_left _ _)) (fun x hx => ?_)
  refine (yields_randint _ _ _).meets_bind (returns_randint _ (le_max_left _ _)) (fun y hy => ?_)
  refine meets_ite (fun _ => fun rng _ => h) (fun hfits => ?_)
  have hroom : ∀ d ∈ block x (x + roomWidth) y (y + roomHeight), Inner width height d := by
    intro d hd
    have hd := mem_block_iff.mp hd
    unfold blockSet at hd
    rw [Set.mem_ofPred_eq] at hd
    unfold Inner
    omega
  have hc : Inner width height (x + roomWidth / 2, y + roomHeight / 2) := by
    unfold Inner
    omega
  have hpiece : (orthogonal.induce
      {d | d ∈ block x (x + roomWidth) y (y + roomHeight)}).Preconnected := by
    have hset : {d | d ∈ block x (x + roomWidth) y (y + roomHeight)}
        = blockSet x (x + roomWidth) y (y + roomHeight) := Set.ext (fun d => mem_block_iff)
    rw [hset]
    exact preconnected_blockSet _ _ _ _
  -- a room without extent has no cells, any other one has its centre
  have hcentre : block x (x + roomWidth) y (y + roomHeight) = [] ∨
      (x + roomWidth / 2, y + roomHeight / 2) ∈ block x (x + roomWidth) y (y + roomHeight) := by
    by_cases hextent : 0 < roomWidth ∧ 0 < roomHeight
    · refine .inr (mem_block_iff.mpr ?_)
      show (_ ∧ _ ∧ _ ∧ _)
      omega
    · refine .inl (List.eq_nil_iff_forall_not_mem.mpr (fun d hd => ?_))
      have hd := mem_block_iff.mp hd
      unfold blockSet at hd
      rw [Set.mem_ofPred_eq] at hd
      omega
  have hcarved : carveRoom s.1 x y roomWidth roomHeight
      = .ok (paint .floor (block x (x + roomWidth) y (y + roomHeight)) s.1) :=
    foldlM_carveCell (fun d hd => h.inside (hroom d hd))
  rw [hcarved]
  refine (yields_ofExcept (fun g hg => (Except.ok.inj hg).symm)).meets_bind (returns_ofExcept rfl) ?_
  rintro g rfl
  rcases hlast : s.2.getLast? with _ | p
  · exact fun rng _ => h.first hroom hc hpiece hcentre hlast
  · have hp := h.inside (h.last p hlast).1
    refine meets_bind (meets_joinCenters ((inside_paint _ _ _ _).mpr hp)
      ((inside_paint _ _ _ _).mpr (h.inside hc))) (fun g => ?_)
    rintro rng ⟨corridor, hcorridor, rfl⟩
    exact h.next hroom hc hpiece hcentre hlast hcorridor

/-! ### The maker -/

theorem furnished_newGrid {width height : Int} (hwidth : 0 ≤ width) (hheight : 0 ≤ height) :
    Furnished width height (newGrid width.toNat height.toNat, []) := by
  have hblank : floor (newGrid width.toNat height.toNat) = ∅ := by
    refine Set.eq_empty_of_forall_notMem (fun c hc => ?_)
    have hfloor : tile (newGrid width.toNat height.toNat) c = .floor := hc
    rw [tile_newGrid] at hfloor
    exact absurd hfloor (by decide)
  refine ⟨Int.toNat_of_nonneg hwidth, Int.toNat_of_nonneg hheight, fun c hc => ?_, ?_,
    fun p hp => absurd hp (by simp), fun _ => hblank⟩
  · rw [hblank] at hc
    exact absurd hc (Set.notMem_empty c)
  · unfold OnePiece
    rw [hblank]
    exact fun c => absurd c.2 (Set.notMem_empty c.1)

/-- Walling the outermost ring changes nothing where nothing was carved there. -/
theorem Furnished.wallBorder {width height : Int} {s : Grid × List Place}
    (h : Furnished width height s) : OnePiece (wallBorder s.1) := by
  have hfloor : floor (Interior.wallBorder s.1) = floor s.1 := by
    ext c
    show tile (Interior.wallBorder s.1) c = .floor ↔ tile s.1 c = .floor
    rw [tile_wallBorder]
    by_cases hborder : OnBorder s.1 c
    · rw [if_pos hborder]
      refine iff_of_false (by decide) (fun hc => ?_)
      have hinner := h.inner c hc
      have hwidth := h.wide
      have hheight := h.tall
      unfold Inner at hinner
      unfold OnBorder at hborder
      omega
    · rw [if_neg hborder]
  unfold OnePiece
  rw [hfloor]
  exact h.piece

/-- **Rooms and corridors.** With rooms of no negative size, a grid of a size that is accepted becomes
    one piece of floor of that size, ringed by wall. -/
theorem meets_genRoomcorridor {width height maxRooms roomMin roomMax : Int}
    (hsize : ¬ (width < 5 ∨ height < 5)) (hmin : 0 ≤ roomMin)
    (hle : maxRooms ≤ 0 ∨ roomMin ≤ roomMax) :
    Meets (fun _ => True) (genRoomcorridor width height maxRooms roomMin roomMax)
      (fun g _ => Sized g width height ∧ OnePiece g ∧ Ringed g) E := by
  unfold genRoomcorridor
  rw [if_neg hsize]
  have hloop := meets_foldlM (I := fun s (_ : Rng) => Furnished width height s) (E := E)
    (f := addRoom width height roomMin roomMax) (l := List.range maxRooms.toNat)
    (fun s n hn => ?_) (newGrid width.toNat height.toNat, [])
  · refine meets_bind (hloop.weaken (fun _ _ => furnished_newGrid (by omega) (by omega))
      (fun _ _ hs => hs) (fun _ _ he => he)) (fun s => ?_)
    intro rng hs
    refine ⟨⟨?_, ?_⟩, hs.wallBorder, ringed_wallBorder s.1⟩
    · rw [wallBorder, width_paint]
      exact hs.wide
    · rw [wallBorder, height_paint]
      exact hs.tall
  · -- a round is run only where rooms were asked for
    have hle' : roomMin ≤ roomMax := by
      rw [List.mem_range] at hn
      omega
    exact meets_of_forall (fun rng hs => (meets_addRoom hmin hle' hs n).of_state trivial)

/-- Where rooms are asked for but no extent can be drawn, the maker raises. -/
theorem genRoomcorridor_raises {width height maxRooms roomMin roomMax : Int}
    (hsize : ¬ (width < 5 ∨ height < 5)) (hrooms : 0 < maxRooms) (hempty : roomMax < roomMin)
    (rng : Rng) :
    (genRoomcorridor width height maxRooms roomMin roomMax).exec rng = (.error .emptyRange, rng) := by
  obtain ⟨n, hn⟩ : ∃ n, maxRooms.toNat = n + 1 := ⟨maxRooms.toNat - 1, by omega⟩
  unfold genRoomcorridor
  rw [if_neg hsize, hn, List.range_succ_eq_map, List.foldlM_cons]
  unfold addRoom randint
  rw [if_pos hempty]
  rfl

/-- What is drawn for three rooms of size -1 on five by five cells. -/
def negativeDraws : Rng := fun n =>
  [0, 0, 1, 1, 0, 0, 0, 1, 4503599627370496, 0, 0, 3, 3, 4503599627370496].getD n 0

/-- Where these rooms leave floor: the corridor between the first two ran along the ring. -/
def torn : Grid where
  width := 5
  height := 5
  rows := [[.wall, .wall, .wall, .wall, .wall], [.wall, .floor, .wall, .wall, .wall],
    [.wall, .wall, .wall, .wall, .wall], [.wall, .floor, .floor, .floor, .wall],
    [.wall, .wall, .wall, .wall, .wall]]
  tall := rfl
  wide := by decide

theorem not_onePiece_torn : ¬ OnePiece torn := by
  intro hpiece
  have hcells : ∀ c ∈ cells torn, tile torn c = .floor →
      c ∈ [((1 : Int), (1 : Int)), (1, 3), (2, 3), (3, 3)] := by decide +kernel
  have hfloor : ∀ c, tile torn c = .floor → c ∈ [((1 : Int), (1 : Int)), (1, 3), (2, 3), (3, 3)] :=
    fun c hc => hcells c (mem_cells_iff.mpr (inside_of_floor hc)) hc
  -- from the floor in the first row there is no way down
  have hstays : ((1 : Int), (3 : Int)).2 = 1 := by
    refine holds_of_reachable (P := fun c => c.2 = 1) ?_
      (hpiece ⟨(1, 1), show tile torn (1, 1) = .floor by decide +kernel⟩
        ⟨(1, 3), show tile torn (1, 3) = .floor by decide +kernel⟩) rfl
    intro c hc d hd hadj hrow
    have hc' := hfloor c hc
    have hd' := hfloor d hd
    simp only [List.mem_cons, List.not_mem_nil, or_false, Prod.ext_iff] at hc' hd'
    have hadj' : (c.1 = d.1 ∧ (c.2 = d.2 + 1 ∨ d.2 = c.2 + 1)) ∨
      (c.2 = d.2 ∧ (c.1 = d.1 + 1 ∨ d.1 = c.1 + 1)) := hadj
    show d.2 = 1
    omega
  simp at hstays

/-- Rooms of negative size can leave floor that does not hang together. -/
theorem not_onePiece_of_negative :
    ¬ ∀ (width height maxRooms roomMin roomMax : Int) (rng : Rng) (g : Grid) (rng' : Rng),
      (genRoomcorridor width height maxRooms roomMin roomMax).exec rng = (.ok g, rng') →
        OnePiece g ∧ Ringed g := by
  intro h
  have hmade : ((genRoomcorridor 5 5 3 (-1) (-1)).exec negativeDraws).1 = .ok torn := by
    decide +kernel
  exact not_onePiece_torn (h 5 5 3 (-1) (-1) negativeDraws torn _ (Prod.ext hmade rfl)).1

end Sidequest.Interior
