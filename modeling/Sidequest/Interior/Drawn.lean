import Sidequest.Dungeon.Tactical
import Sidequest.Interior.Cellular
import Sidequest.Interior.Mazes
import Sidequest.Interior.RoomCorridor
import Sidequest.Lib.PyNumber

namespace Sidequest.Interior

open Lib Effect

/-!
# Makers of interiors, and what is drawn in them

Braiding takes dead ends out of mazes; each maker guarantees its sizes. The tactical record of a
region marks cells of its interior: where one comes in, where the exits are, and where creatures
stand. They are picked from all of the floor.

* `braid`, `braidFrom` — the pass, and its loop over the dead ends;
* `Algorithm`, `make` — the makers;
* `codes`, `mem_floorCells_codes` — a grid as the record reads it, and its floor;
* `OverFloor` — one gets from one cell to another over floor;
* `overFloor_assigned` — in an interior in one piece, one gets everywhere.
-/

section

section

variable (g : Grid)

/-- The floor that shares an edge with a cell. -/
def floorNeighbors (c : Place) : List Place :=
  (ortho.map (step c)).filter (fun n => InBounds g n ∧ tile g n = .floor)

/-- The cells of floor with just one such neighbour. -/
def deadEnds : List Place :=
  (cells g).filter (fun c => tile g c = .floor ∧ (floorNeighbors g c).length = 1)

/-- The wall that shares an edge with a cell and is not on the outermost ring. -/
def innerWalls (c : Place) : List Place :=
  (ortho.map (step c)).filter (fun n => InBounds g n ∧ tile g n = .wall ∧
    0 < n.1 ∧ n.1 < (g.width : Int) - 1 ∧ 0 < n.2 ∧ n.2 < (g.height : Int) - 1)

/-- Cells are sorted by their columns, and then by their rows. -/
def Sorted (c d : Place) : Prop := c.1 < d.1 ∨ (c.1 = d.1 ∧ c.2 ≤ d.2)

instance : DecidableRel Sorted := fun _ _ => inferInstanceAs (Decidable (_ ∨ _))

/-- The loop over the dead ends that are left: one that still is a dead end loses a wall, until so
    many of them have. -/
def braidFrom (targetRemoved : Int) : List Place → Nat → Grid → Effect InteriorError Rng Grid
  | [], _, g => pure g
  | c :: pending, removed, g =>
    if (removed : Int) ≥ targetRemoved then pure g
    else if (floorNeighbors g c).length ≠ 1 then braidFrom targetRemoved pending removed g
    else if innerWalls g c = [] then braidFrom targetRemoved pending removed g
    else do
      let n ← choice .emptyRange (innerWalls g c)
      braidFrom targetRemoved pending (removed + 1) (g.set n .floor)

/-- Braid a share of the dead ends. -/
def braid (braidRatio : ℚ) : Effect InteriorError Rng Grid :=
  if braidRatio ≤ 0 then pure g
  else
    let original := deadEnds g
    let targetRemoved := roundHalfEven ((original.length : ℚ) * min 1 braidRatio)
    if targetRemoved ≤ 0 then pure g
    else do
      let pending ← shuffled (original.insertionSort Sorted)
      braidFrom targetRemoved pending 0 g

/-- A grid of the same size with more floor, which is in one piece if the old floor was. -/
structure Braided (g g' : Grid) : Prop where
  wide : g'.width = g.width
  tall : g'.height = g.height
  kept : ∀ c, tile g c = .floor → tile g' c = .floor
  piece : OnePiece g → OnePiece g'

theorem Braided.refl : Braided g g := ⟨rfl, rfl, fun _ h => h, id⟩

theorem Braided.trans {g g' g'' : Grid} (h : Braided g g') (h' : Braided g' g'') : Braided g g'' where
  wide := h'.wide.trans h.wide
  tall := h'.tall.trans h.tall
  kept c hc := h'.kept c (h.kept c hc)
  piece hpiece := h'.piece (h.piece hpiece)

/-- **One wall** beside floor is carved away. -/
theorem braided_set {g : Grid} {c n : Place} (hc : tile g c = .floor) (hn : n ∈ innerWalls g c) :
    Braided g (g.set n .floor) := by
  unfold innerWalls at hn
  rw [List.mem_filter, decide_eq_true_eq] at hn
  obtain ⟨hstep, hin, -⟩ := hn
  refine ⟨rfl, rfl, fun d hd => ?_, fun hpiece => ?_⟩
  · rw [tile_set]
    split
    · rfl
    · exact hd
  · exact onePiece_carve hpiece hc (adj_of_mem_ortho hstep) hin

/-- **The loop.** -/
theorem meets_braidFrom (targetRemoved : Int) {pending : List Place} (removed : Nat) {g : Grid}
    (hfloor : ∀ c ∈ pending, tile g c = .floor) {E : InteriorError → Rng → Prop} :
    Meets (fun _ => True) (braidFrom targetRemoved pending removed g)
      (fun g' _ => Braided g g') E := by
  induction pending generalizing removed g with
  | nil => exact fun rng _ => Braided.refl g
  | cons c pending ih =>
    have hskip := ih removed (fun d hd => hfloor d (.tail c hd))
    refine meets_ite (fun _ => fun rng _ => Braided.refl g) (fun _ => ?_)
    refine meets_ite (fun _ => hskip) (fun _ => ?_)
    refine meets_ite (fun _ => hskip) (fun hsome => ?_)
    refine (yields_choice _ _).meets_bind (returns_choice _ hsome) (fun n hn => ?_)
    have hone := braided_set (hfloor c (.head _)) hn
    -- what was floor still is, so the dead ends that are left are
    refine (ih (removed + 1) (fun d hd => hone.kept d (hfloor d (.tail c hd)))).weaken
      (fun _ h => h) (fun g' _ h => hone.trans h) (fun _ _ he => he)

/-- **Braiding** keeps floor, and keeps it in one piece. -/
theorem meets_braid (braidRatio : ℚ) {E : InteriorError → Rng → Prop} :
    Meets (fun _ => True) (braid g braidRatio) (fun g' _ => Braided g g') E := by
  unfold braid
  refine meets_ite (fun _ => fun rng _ => Braided.refl g) (fun _ => ?_)
  refine meets_ite (fun _ => fun rng _ => Braided.refl g) (fun _ => ?_)
  refine (yields_shuffled _).meets_bind (returns_shuffled _) (fun pending hpending => ?_)
  refine meets_braidFrom _ 0 (fun c hc => ?_)
  have hmem : c ∈ deadEnds g :=
    (List.perm_insertionSort Sorted (deadEnds g)).mem_iff.mp (hpending.mem_iff.mp hc)
  unfold deadEnds at hmem
  rw [List.mem_filter, decide_eq_true_eq] at hmem
  exact hmem.2.1

end

/-! ### Walls inside the ring -/

/-- One grid comes from another by carving away walls inside the outermost ring. -/
structure Opened (g g' : Grid) : Prop where
  wide : g'.width = g.width
  tall : g'.height = g.height
  kept : ∀ c, tile g c = .floor → tile g' c = .floor
  inner : ∀ c, tile g' c = .floor → tile g c = .floor ∨ Inner g.width g.height c

theorem Opened.refl (g : Grid) : Opened g g := ⟨rfl, rfl, fun _ h => h, fun _ h => .inl h⟩

variable {g : Grid}

theorem Opened.trans {g' g'' : Grid} (h : Opened g g') (h' : Opened g' g'') : Opened g g'' where
  wide := h'.wide.trans h.wide
  tall := h'.tall.trans h.tall
  kept c hc := h'.kept c (h.kept c hc)
  inner c hc := by
    rcases h'.inner c hc with hc | hc
    · exact h.inner c hc
    · rw [h.wide, h.tall] at hc
      exact .inr hc

variable {c : Place}

theorem mem_floorNeighbors_iff {n : Place} :
    n ∈ floorNeighbors g c ↔ n ∈ ortho.map (step c) ∧ tile g n = .floor := by
  unfold floorNeighbors
  rw [List.mem_filter, decide_eq_true_eq]
  exact and_congr_right (fun _ => and_iff_right_of_imp inside_of_floor)

theorem mem_innerWalls_iff {n : Place} : n ∈ innerWalls g c ↔
      n ∈ ortho.map (step c) ∧ tile g n = .wall ∧ Inner g.width g.height n := by
  unfold innerWalls
  rw [List.mem_filter, decide_eq_true_eq]
  refine and_congr_right (fun _ => ?_)
  constructor
  · rintro ⟨-, hwall, hinner⟩
    exact ⟨hwall, hinner⟩
  · rintro ⟨hwall, hinner⟩
    refine ⟨?_, hwall, hinner⟩
    unfold Inner at hinner
    show (_ ∧ _ ∧ _ ∧ _)
    omega

/-- The floor around a cell stays. -/
theorem Opened.sublist {g' : Grid} (h : Opened g g') (c : Place) :
    (floorNeighbors g c).Sublist (floorNeighbors g' c) := by
  unfold floorNeighbors
  refine List.monotone_filter_right _ (fun n hn => ?_)
  rw [decide_eq_true_eq] at hn ⊢
  exact ⟨(Board.inside_congr h.wide h.tall n).mpr hn.1, h.kept n hn.2⟩

/-- A wall inside the ring that is carved away is floor beside the cell. -/
theorem opened_set {n : Place} (hn : n ∈ innerWalls g c) : Opened g (g.set n .floor) ∧
      (floorNeighbors g c).length < (floorNeighbors (g.set n .floor) c).length := by
  obtain ⟨hstep, hwall, hinner⟩ := mem_innerWalls_iff.mp hn
  have hin : g.Inside n := by
    unfold Inner at hinner
    unfold Board.Inside
    omega
  have hopened : Opened g (g.set n .floor) := by
    refine ⟨rfl, rfl, fun d hd => ?_, fun d hd => ?_⟩
    · rw [tile_set, hd, ite_self]
    · rw [tile_set] at hd
      split at hd
      · rename_i heq
        rw [heq.1]
        exact .inr hinner
      · exact .inl hd
  refine ⟨hopened, ?_⟩
  have hsub := hopened.sublist c
  refine lt_of_le_of_ne hsub.length_le (fun hlength => ?_)
  -- lists of one length would be the same, and the new floor is in one of them only
  have hmem : n ∈ floorNeighbors (g.set n .floor) c := by
    refine mem_floorNeighbors_iff.mpr ⟨hstep, ?_⟩
    rw [tile_set, if_pos ⟨rfl, hin⟩]
  rw [← hsub.eq_of_length hlength] at hmem
  rw [(mem_floorNeighbors_iff.mp hmem).2] at hwall
  simp at hwall

/-- A dead end that still is one has the walls around it that it had. -/
theorem Opened.innerWalls {g' : Grid} (h : Opened g g')
    (hsame : (floorNeighbors g' c).length = (floorNeighbors g c).length)
    (hsome : innerWalls g c ≠ []) : Interior.innerWalls g' c ≠ [] := by
  obtain ⟨n, hn⟩ := List.exists_mem_of_ne_nil _ hsome
  obtain ⟨hstep, hwall, hinner⟩ := mem_innerWalls_iff.mp hn
  refine List.ne_nil_of_mem (a := n) (mem_innerWalls_iff.mpr ⟨hstep, ?_, ?_⟩)
  · refine eq_wall_of_ne_floor (fun hfloor => ?_)
    have hmem : n ∈ floorNeighbors g' c := mem_floorNeighbors_iff.mpr ⟨hstep, hfloor⟩
    rw [← (h.sublist c).eq_of_length hsame.symm] at hmem
    rw [(mem_floorNeighbors_iff.mp hmem).2] at hwall
    simp at hwall
  · rw [h.wide, h.tall]
    exact hinner

/-- Beside a cell with no wall inside the ring there is no new floor. -/
theorem Opened.floorNeighbors {g' : Grid} (h : Opened g g') (hnone : Interior.innerWalls g c = []) :
    Interior.floorNeighbors g' c = Interior.floorNeighbors g c := by
  unfold Interior.floorNeighbors
  refine List.filter_congr (fun n hn => ?_)
  rw [decide_eq_decide]
  constructor
  · rintro ⟨-, hfloor⟩
    rcases h.inner n hfloor with hold | hinner
    · exact ⟨inside_of_floor hold, hold⟩
    · by_cases hold : tile g n = .floor
      · exact ⟨inside_of_floor hold, hold⟩
      · have hmem := mem_innerWalls_iff.mpr ⟨hn, eq_wall_of_ne_floor hold, hinner⟩
        rw [hnone] at hmem
        cases hmem
  · rintro ⟨-, hfloor⟩
    exact ⟨inside_of_floor (h.kept n hfloor), h.kept n hfloor⟩

/-! ### The loop visits all of them -/

/-- **The loop**, with as many dead ends to open as there are: it visits all of them, and opens the
    ones with a wall inside the ring. -/
theorem meets_braidFrom_all {original : Grid} {targetRemoved : Int} {pending : List Place}
    {removed : Nat} (hopened : Opened original g)
    (hdead : ∀ c ∈ pending, (floorNeighbors original c).length = 1)
    (hcount : (removed : Int) + pending.length ≤ targetRemoved) {E : InteriorError → Rng → Prop} :
    Meets (fun _ => True) (braidFrom targetRemoved pending removed g)
      (fun g' _ => Opened g g' ∧ ∀ c ∈ pending, innerWalls original c ≠ [] →
        2 ≤ (floorNeighbors g' c).length) E := by
  induction pending generalizing removed g with
  | nil => exact fun rng _ => ⟨Opened.refl g, fun c hc => nomatch hc⟩
  | cons c pending ih =>
    rw [List.length_cons] at hcount
    have hrest : ∀ d ∈ pending, (floorNeighbors original d).length = 1 :=
      fun d hd => hdead d (.tail c hd)
    have hone := hdead c (.head _)
    have hgrown : 1 ≤ (floorNeighbors g c).length := hone ▸ (hopened.sublist c).length_le
    -- the loop does not stop before all have been visited
    refine meets_ite (fun hstop => absurd hstop (by omega)) (fun _ => ?_)
    refine meets_ite (fun hpassed => ?_) (fun hstill => ?_)
    · refine (ih hopened hrest (by omega)).weaken (fun _ h => h) (fun g' _ h => ?_) (fun _ _ he => he)
      refine ⟨h.1, fun d hd hsome => ?_⟩
      rcases List.mem_cons.mp hd with rfl | hd
      · have hle := (h.1.sublist d).length_le
        omega
      · exact h.2 d hd hsome
    · rw [not_not] at hstill
      refine meets_ite (fun hnone => ?_) (fun hsome => ?_)
      · refine (ih hopened hrest (by omega)).weaken (fun _ h => h) (fun g' _ h => ?_)
          (fun _ _ he => he)
        refine ⟨h.1, fun d hd hsome => ?_⟩
        rcases List.mem_cons.mp hd with rfl | hd
        · exact absurd hnone (hopened.innerWalls (hstill.trans hone.symm) hsome)
        · exact h.2 d hd hsome
      · refine (yields_choice _ _).meets_bind (returns_choice _ hsome) (fun n hn => ?_)
        obtain ⟨hset, hmore⟩ := opened_set hn
        refine (ih (hopened.trans hset) hrest (by push_cast; omega)).weaken (fun _ h => h)
          (fun g' _ h => ?_) (fun _ _ he => he)
        refine ⟨hset.trans h.1, fun d hd hsome => ?_⟩
        rcases List.mem_cons.mp hd with rfl | hd
        · have hle := (h.1.sublist d).length_le
          omega
        · exact h.2 d hd hsome

theorem meets_braid_one (g : Grid) {E : InteriorError → Rng → Prop} :
    Meets (fun _ => True) (braid g 1)
      (fun g' _ => Opened g g' ∧ ∀ c ∈ deadEnds g, innerWalls g c ≠ [] →
        2 ≤ (floorNeighbors g' c).length) E := by
  have htarget : roundHalfEven (((deadEnds g).length : ℚ) * min 1 1) = (deadEnds g).length := by
    rw [min_self, mul_one]
    exact roundHalfEven_intCast (deadEnds g).length
  unfold braid
  rw [if_neg (by decide)]
  dsimp only
  rw [htarget]
  refine meets_ite (fun hnone => ?_) (fun _ => ?_)
  · have hempty : deadEnds g = [] := List.length_eq_zero_iff.mp (by omega)
    rw [hempty]
    exact fun rng _ => ⟨Opened.refl g, fun c hc => nomatch hc⟩
  · refine (yields_shuffled _).meets_bind (returns_shuffled _) (fun pending hpending => ?_)
    have hperm := hpending.trans (List.perm_insertionSort Sorted (deadEnds g))
    have hdead : ∀ c ∈ pending, (floorNeighbors g c).length = 1 := by
      intro c hc
      have hmem := hperm.mem_iff.mp hc
      unfold deadEnds at hmem
      rw [List.mem_filter, decide_eq_true_eq] at hmem
      exact hmem.2.2
    have hcount : ((0 : Nat) : Int) + pending.length ≤ (deadEnds g).length := by
      rw [hperm.length_eq]
      omega
    refine (meets_braidFrom_all (Opened.refl g) hdead hcount).weaken (fun _ h => h)
      (fun g' _ h => ?_) (fun _ _ he => he)
    exact ⟨h.1, fun c hc => h.2 c (hperm.mem_iff.mpr hc)⟩

/-- Whatever is drawn, what becomes of the dead ends is decided by the walls beside them. -/
theorem braid_one_opens_iff (g : Grid) (braidRng : Rng) :
    (∃ g' braidRng', (braid g 1).exec braidRng = (.ok g', braidRng') ∧
      ∀ c ∈ deadEnds g, 2 ≤ (floorNeighbors g' c).length) ↔
    ∀ c ∈ deadEnds g, innerWalls g c ≠ [] := by
  obtain ⟨g', braidRng', hexec, hopened, hall⟩ :=
    (meets_braid_one g).exists_ok (s := braidRng) trivial
  constructor
  · rintro ⟨g'', braidRng'', hexec', hnone⟩ c hc hwalls
    rw [hexec] at hexec'
    cases congrArg Prod.fst hexec'
    have hstays := hnone c hc
    rw [hopened.floorNeighbors hwalls] at hstays
    unfold deadEnds at hc
    rw [List.mem_filter, decide_eq_true_eq] at hc
    omega
  · intro hwalls
    exact ⟨g', braidRng', hexec, fun c hc => hall c hc (hwalls c hc)⟩

/-! ### Mazes -/

/-- Two different cells of floor beside a cell. -/
theorem two_le_floorNeighbors {m n : Place} (hm : m ∈ floorNeighbors g c)
    (hn : n ∈ floorNeighbors g c) (hne : m ≠ n) : 2 ≤ (floorNeighbors g c).length := by
  have hsub : [m, n].Subperm (floorNeighbors g c) := by
    refine List.subperm_of_subset (by simp [hne]) (fun d hd => ?_)
    rcases List.mem_pair.mp hd with rfl | rfl
    · exact hm
    · exact hn
  exact hsub.length_le

theorem Maze.node_of_deadEnd {width height : Nat} {stack : List Place}
    (h : Maze width height g stack) (hc : c ∈ deadEnds g) : Node c := by
  unfold deadEnds at hc
  rw [List.mem_filter, decide_eq_true_eq] at hc
  obtain ⟨-, hfloor, hone⟩ := hc
  obtain ⟨x, y⟩ := c
  have hnot : ∀ m n : Place, orthogonal.Adj (x, y) m → orthogonal.Adj (x, y) n → m ≠ n →
      tile g m = .floor → tile g n = .floor → False := by
    intro m n hm hn hne hfloor hfloor'
    have htwo := two_le_floorNeighbors (mem_floorNeighbors_iff.mpr ⟨mem_ortho_steps hm, hfloor⟩)
      (mem_floorNeighbors_iff.mpr ⟨mem_ortho_steps hn, hfloor'⟩) hne
    omega
  rcases h.halfway x y hfloor with hodd | ⟨-, -, hleft, hright⟩ | ⟨-, -, htop, hbottom⟩
  · exact hodd
  · refine (hnot (x - 1, y) (x + 1, y) (.inr ⟨rfl, .inl ?_⟩) (.inr ⟨rfl, .inr rfl⟩) ?_
      hleft hright).elim
    · show x = x - 1 + 1
      omega
    · simp only [ne_eq, Prod.mk.injEq]
      omega
  · refine (hnot (x, y - 1) (x, y + 1) (.inl ⟨rfl, .inl ?_⟩) (.inl ⟨rfl, .inr rfl⟩) ?_
      htop hbottom).elim
    · show y = y - 1 + 1
      omega
    · simp only [ne_eq, Prod.mk.injEq]
      omega

/-- In a maze of odd size that is no corridor, there is a wall inside the ring beside every dead
    end: of a node's neighbours, one in its row and one in its column lie inside. -/
theorem Maze.innerWalls_ne_nil {width height : Nat} {stack : List Place}
    (h : Maze width height g stack) (hwidth : 5 ≤ width ∧ width % 2 = 1)
    (hheight : 5 ≤ height ∧ height % 2 = 1) (hc : c ∈ deadEnds g) : innerWalls g c ≠ [] := by
  have hnode := h.node_of_deadEnd hc
  have hwide := h.wide
  have htall := h.tall
  unfold deadEnds at hc
  rw [List.mem_filter, decide_eq_true_eq] at hc
  obtain ⟨-, hfloor, hone⟩ := hc
  have hin := inside_of_floor hfloor
  obtain ⟨x, y⟩ := c
  unfold Node at hnode
  unfold Board.Inside at hin
  obtain ⟨x', hx', hxinner⟩ : ∃ x' : Int, (x = x' + 1 ∨ x' = x + 1) ∧ 0 < x' ∧ x' < (g.width : Int) - 1 := by
    by_cases hfirst : x = 1
    · exact ⟨x + 1, by omega, by omega, by omega⟩
    · exact ⟨x - 1, by omega, by omega, by omega⟩
  obtain ⟨y', hy', hyinner⟩ : ∃ y' : Int, (y = y' + 1 ∨ y' = y + 1) ∧ 0 < y' ∧ y' < (g.height : Int) - 1 := by
    by_cases hfirst : y = 1
    · exact ⟨y + 1, by omega, by omega, by omega⟩
    · exact ⟨y - 1, by omega, by omega, by omega⟩
  have hrow : (x', y) ∈ ortho.map (step (x, y)) := mem_ortho_steps (.inr ⟨rfl, hx'⟩)
  have hcolumn : (x, y') ∈ ortho.map (step (x, y)) := mem_ortho_steps (.inl ⟨rfl, hy'⟩)
  -- not both of them are floor, as a dead end has floor on one side only
  by_cases hwall : tile g (x', y) = .floor
  · have hother : tile g (x, y') ≠ .floor := by
      intro hfloor'
      have htwo := two_le_floorNeighbors (mem_floorNeighbors_iff.mpr ⟨hrow, hwall⟩)
        (mem_floorNeighbors_iff.mpr ⟨hcolumn, hfloor'⟩) (by
          simp only [ne_eq, Prod.mk.injEq]
          omega)
      omega
    refine List.ne_nil_of_mem (mem_innerWalls_iff.mpr ⟨hcolumn, eq_wall_of_ne_floor hother, ?_⟩)
    unfold Inner
    omega
  · refine List.ne_nil_of_mem (mem_innerWalls_iff.mpr ⟨hrow, eq_wall_of_ne_floor hwall, ?_⟩)
    unfold Inner
    omega

/-- **Dead ends of mazes.** Braided with ratio 1, a maze keeps none exactly if beside each there was
    a wall inside the outermost ring; in mazes of odd size that are no corridors there is. -/
theorem maze_opened_iff (width height : Int) (rng rng' braidRng : Rng) (g : Grid)
    (hmade : (genDepthfirst width height).exec rng = (.ok g, rng')) :
    ((∃ g' braidRng', (braid g 1).exec braidRng = (.ok g', braidRng') ∧
        ∀ c ∈ deadEnds g, 2 ≤ (floorNeighbors g' c).length) ↔
      ∀ c ∈ deadEnds g, innerWalls g c ≠ []) ∧
    (5 ≤ width → width % 2 = 1 → 5 ≤ height → height % 2 = 1 →
      ∀ c ∈ deadEnds g, innerWalls g c ≠ []) := by
  refine ⟨braid_one_opens_iff g braidRng, fun hwidth hodd hheight hodd' c hc => ?_⟩
  have hsize : ¬ (width < 3 ∨ height < 3) := by omega
  have hmaze := (meets_genDepthfirst (E := Never InteriorError Rng) hsize).of_ok trivial hmade
  exact hmaze.innerWalls_ne_nil (by omega) (by omega) hc

/-- The maze of three columns and five rows. -/
def corridorMaze : Grid where
  width := 3
  height := 5
  rows := [[.wall, .wall, .wall], [.wall, .floor, .wall], [.wall, .floor, .wall],
    [.wall, .floor, .wall], [.wall, .wall, .wall]]
  tall := rfl
  wide := by decide

theorem made_corridorMaze :
    ((genDepthfirst 3 5).exec (fun _ => 0)).1 = .ok corridorMaze := by decide +kernel

/-- There is no wall to open in a maze of three columns. -/
theorem maze_opened_iff_corridor :
    ¬ ∃ g' braidRng', (braid corridorMaze 1).exec (fun _ => 0) = (.ok g', braidRng') ∧
      ∀ c ∈ deadEnds corridorMaze, 2 ≤ (floorNeighbors g' c).length := by
  have hiff := (maze_opened_iff 3 5 (fun _ => 0) _ (fun _ => 0) corridorMaze
    (Prod.ext made_corridorMaze rfl)).1
  intro hopened
  exact absurd (hiff.mp hopened) (by decide +kernel)

/-- Not every maze loses its dead ends. -/
theorem not_all_opened : ¬ ∀ (width height : Int) (rng rng' braidRng : Rng) (g : Grid),
      (genDepthfirst width height).exec rng = (.ok g, rng') →
        ∀ g' braidRng', (braid g 1).exec braidRng = (.ok g', braidRng') →
          ∀ c ∈ deadEnds g, 2 ≤ (floorNeighbors g' c).length := by
  intro h
  have hstays : ((braid corridorMaze 1).exec (fun _ => 0)).1 = .ok corridorMaze := by
    decide +kernel
  have htwo := h 3 5 (fun _ => 0) _ (fun _ => 0) corridorMaze (Prod.ext made_corridorMaze rfl)
    corridorMaze _ (Prod.ext hstays rfl) (1, 1) (by decide +kernel)
  exact absurd htwo (by decide +kernel)

end

/-- A maker of the registry with the parameters it is given. -/
inductive Algorithm where
  | cellular (density : ℚ) (cutoff passes : Int)
  | depthfirst
  | prim (density complexity : Option Int)
  | roomcorridor (maxRooms roomMin roomMax : Int)

/-- Run a maker. -/
def make : Algorithm → (width height : Int) → Effect InteriorError Rng Grid
  | .cellular density cutoff passes, width, height => do
    let rng ← get
    ofExcept (genCave width height rng density cutoff passes)
  | .depthfirst, width, height => genDepthfirst width height
  | .prim density complexity, width, height => genPrim width height density complexity
  | .roomcorridor maxRooms roomMin roomMax, width, height =>
    genRoomcorridor width height maxRooms roomMin roomMax

/-- Generate an interior. -/
def generateInterior (algorithm : Algorithm) (width height : Int) (braidRatio : ℚ)
    (rng braidRng : Rng) : Except InteriorError Grid := do
  let g ← ((make algorithm width height).exec rng).1
  if 0 < braidRatio then ((braid g braidRatio).exec braidRng).1 else return g

/-! ### What the makers guarantee -/

/-- A maker that raises nothing on some inputs returns there, and what it returns has `Q`. -/
theorem returned_of_meets {m : Effect InteriorError Rng Grid} {Q : Grid → Prop}
    (h : Meets (fun _ => True) m (fun g _ => Q g) (Never InteriorError Rng)) (rng : Rng) :
    (∃ g rng', m.exec rng = (.ok g, rng')) ∧ ∀ g rng', m.exec rng = (.ok g, rng') → Q g := by
  obtain ⟨g, rng', hexec, -⟩ := h.exists_ok (s := rng) trivial
  exact ⟨⟨g, rng', hexec⟩, fun g rng' hexec => h.of_ok trivial hexec⟩

/-- A maker that raises on some inputs returns nothing there. -/
theorem not_returned_of_raises {m : Effect InteriorError Rng Grid} {e : InteriorError}
    {rng rng' : Rng} (h : m.exec rng = (.error e, rng')) :
    ¬ ∃ g rng', m.exec rng = (.ok g, rng') := by
  rintro ⟨g, rng'', hexec⟩
  exact not_returned_of_raised h hexec

/-- The sizes of caves, and what caves are. -/
theorem genCave_sound (width height : Int) (rng : Rng) (density : ℚ) (cutoff passes : Int) :
    ((∃ g, genCave width height rng density cutoff passes = .ok g) ↔ 3 ≤ width ∧ 3 ≤ height) ∧
    ∀ g, genCave width height rng density cutoff passes = .ok g →
      Sized g width height ∧ OnePiece g ∧ Ringed g := by
  by_cases hsize : width < 3 ∨ height < 3
  · have hrefused := genCave_refuses hsize rng density cutoff passes
    rw [hrefused]
    refine ⟨iff_of_false ?_ (by omega), fun g hg => nomatch hg⟩
    rintro ⟨g, hg⟩
    exact nomatch hg
  · obtain ⟨g, hmade, hsized, hpiece, hringed⟩ := exists_genCave hsize rng density cutoff passes
    refine ⟨iff_of_true ⟨g, hmade⟩ (by omega), fun g' hg' => ?_⟩
    rw [hmade] at hg'
    cases hg'
    exact ⟨hsized, hpiece, hringed⟩

/-- The sizes and parameters of rooms and corridors, and what they are. -/
theorem genRoomcorridor_sound {roomMin : Int} (hmin : 0 ≤ roomMin)
    (width height maxRooms roomMax : Int) (rng : Rng) :
    ((∃ g rng', (genRoomcorridor width height maxRooms roomMin roomMax).exec rng = (.ok g, rng')) ↔
      5 ≤ width ∧ 5 ≤ height ∧ (maxRooms ≤ 0 ∨ roomMin ≤ roomMax)) ∧
    ∀ g rng', (genRoomcorridor width height maxRooms roomMin roomMax).exec rng = (.ok g, rng') →
      Sized g width height ∧ OnePiece g ∧ Ringed g := by
  by_cases hsize : width < 5 ∨ height < 5
  · have hraises : (genRoomcorridor width height maxRooms roomMin roomMax).exec rng
        = (.error (tooSmall "gen_roomcorridor" 5 width height), rng) := by
      unfold genRoomcorridor
      rw [if_pos hsize]
      rfl
    refine ⟨iff_of_false (not_returned_of_raises hraises) (by omega), fun g rng' hexec => ?_⟩
    exact absurd ⟨g, rng', hexec⟩ (not_returned_of_raises hraises)
  · by_cases hle : maxRooms ≤ 0 ∨ roomMin ≤ roomMax
    · obtain ⟨hreturns, hsound⟩ := returned_of_meets (meets_genRoomcorridor hsize hmin hle) rng
      exact ⟨iff_of_true hreturns ⟨by omega, by omega, hle⟩, hsound⟩
    · have hraises := genRoomcorridor_raises hsize (show 0 < maxRooms by omega)
        (show roomMax < roomMin by omega) rng
      refine ⟨iff_of_false (not_returned_of_raises hraises) (by omega), fun g rng' hexec => ?_⟩
      exact absurd ⟨g, rng', hexec⟩ (not_returned_of_raises hraises)

/-- The sizes of mazes, and what mazes are. -/
theorem genDepthfirst_sound (width height : Int) (rng : Rng) :
    ((∃ g rng', (genDepthfirst width height).exec rng = (.ok g, rng')) ↔ 3 ≤ width ∧ 3 ≤ height) ∧
    ∀ g rng', (genDepthfirst width height).exec rng = (.ok g, rng') →
      Sized g width height ∧ Perfect g := by
  by_cases hsize : width < 3 ∨ height < 3
  · have hraises : (genDepthfirst width height).exec rng
        = (.error (tooSmall "gen_depthfirst" 3 width height), rng) := by
      unfold genDepthfirst
      rw [if_pos hsize]
      rfl
    refine ⟨iff_of_false (not_returned_of_raises hraises) (by omega), fun g rng' hexec => ?_⟩
    exact absurd ⟨g, rng', hexec⟩ (not_returned_of_raises hraises)
  · obtain ⟨hreturns, hmaze⟩ := returned_of_meets (meets_genDepthfirst hsize) rng
    refine ⟨iff_of_true hreturns (by omega), fun g rng' hexec => ?_⟩
    exact ⟨(hmaze g rng' hexec).sized hsize, (hmaze g rng' hexec).perfect⟩

/-- **Interiors.** Caves and furnished rooms are one piece ringed by wall; mazes are perfect;
    braiding keeps an interior in one piece. -/
theorem interiors_sound : (∀ (width height : Int) (rng : Rng) (density : ℚ) (cutoff passes : Int),
      ((∃ g, genCave width height rng density cutoff passes = .ok g) ↔ 3 ≤ width ∧ 3 ≤ height) ∧
      ∀ g, genCave width height rng density cutoff passes = .ok g →
        Sized g width height ∧ OnePiece g ∧ Ringed g) ∧
    (∀ (width height maxRooms roomMin roomMax : Int) (rng : Rng), 0 ≤ roomMin →
      ((∃ g rng', (genRoomcorridor width height maxRooms roomMin roomMax).exec rng = (.ok g, rng')) ↔
        5 ≤ width ∧ 5 ≤ height ∧ (maxRooms ≤ 0 ∨ roomMin ≤ roomMax)) ∧
      ∀ g rng', (genRoomcorridor width height maxRooms roomMin roomMax).exec rng = (.ok g, rng') →
        Sized g width height ∧ OnePiece g ∧ Ringed g) ∧
    (∀ (width height : Int) (rng : Rng),
      ((∃ g rng', (genDepthfirst width height).exec rng = (.ok g, rng')) ↔ 3 ≤ width ∧ 3 ≤ height) ∧
      ∀ g rng', (genDepthfirst width height).exec rng = (.ok g, rng') →
        Sized g width height ∧ Perfect g) ∧
    ∀ (g : Grid) (braidRatio : ℚ) (rng : Rng), ∃ g' rng',
      (braid g braidRatio).exec rng = (.ok g', rng') ∧ (OnePiece g → OnePiece g') ∧
        ∀ c, tile g c = .floor → tile g' c = .floor := by
  refine ⟨genCave_sound, fun width height maxRooms roomMin roomMax rng hmin =>
    genRoomcorridor_sound hmin width height maxRooms roomMax rng, genDepthfirst_sound,
    fun g braidRatio rng => ?_⟩
  obtain ⟨g', rng', hexec, hbraided⟩ := (meets_braid g braidRatio).exists_ok (s := rng) trivial
  exact ⟨g', rng', hexec, hbraided.piece, hbraided.kept⟩

/-- Of the smallest sizes there are a cave, a maze and rooms. -/
theorem interiors_sound_small (rng : Rng) :
    (∃ g, genCave 3 3 rng (11 / 20) 5 4 = .ok g ∧ OnePiece g ∧ Ringed g) ∧
    (∃ g rng', (genRoomcorridor 5 5 12 3 7).exec rng = (.ok g, rng') ∧ OnePiece g ∧ Ringed g) ∧
    ∃ g rng', (genDepthfirst 3 3).exec rng = (.ok g, rng') ∧ Perfect g := by
  obtain ⟨hcave, hrooms, hmaze, -⟩ := interiors_sound
  obtain ⟨g, hg⟩ := (hcave 3 3 rng (11 / 20) 5 4).1.mpr (by decide)
  obtain ⟨g', rng', hg'⟩ := (hrooms 5 5 12 3 7 rng (by decide)).1.mpr (by decide)
  obtain ⟨g'', rng'', hg''⟩ := (hmaze 3 3 rng).1.mpr (by decide)
  exact ⟨⟨g, hg, ((hcave 3 3 rng (11 / 20) 5 4).2 g hg).2⟩,
    ⟨g', rng', hg', ((hrooms 5 5 12 3 7 rng (by decide)).2 g' rng' hg').2⟩,
    g'', rng'', hg'', ((hmaze 3 3 rng).2 g'' rng'' hg'').2⟩

/-! ### Which interiors are one piece -/

/-- The makers whose walks, rooms or caves hang together: all but the ones with several seed points,
    and with rooms of negative size. -/
def Algorithm.Joined : Algorithm → (width height : Int) → Prop
  | .cellular _ _ _, _, _ => True
  | .depthfirst, _, _ => True
  | .prim density _, width, height => density.getD (primDensity width height) ≤ 1
  | .roomcorridor _ roomMin _, _, _ => 0 ≤ roomMin

theorem onePiece_make {algorithm : Algorithm} {width height : Int}
    (hjoined : algorithm.Joined width height) {rng rng' : Rng} {g : Grid}
    (h : (make algorithm width height).exec rng = (.ok g, rng')) : OnePiece g := by
  cases algorithm with
  | cellular density cutoff passes =>
    have hcave : genCave width height rng density cutoff passes = .ok g := by
      unfold make at h
      rw [exec_get_bind] at h
      -- what raises and what returns is both what the cave maker says
      generalize genCave width height rng density cutoff passes = made at h ⊢
      cases made with
      | error e => exact congrArg Prod.fst h
      | ok g' => exact congrArg Prod.fst h
    exact ((genCave_sound width height rng density cutoff passes).2 g hcave).2.1
  | depthfirst =>
    by_cases hsize : width < 3 ∨ height < 3
    · obtain ⟨hreturns, -⟩ := genDepthfirst_sound width height rng
      exact absurd (hreturns.mp ⟨g, rng', h⟩) (by omega)
    · exact ((returned_of_meets (meets_genDepthfirst hsize) rng).2 g rng' h).piece
  | prim density complexity =>
    by_cases hsize : width < 3 ∨ height < 3
    · have hraises : (genPrim width height density complexity).exec rng
          = (.error (tooSmall "gen_prim" 3 width height), rng) := by
        unfold genPrim
        rw [if_pos hsize]
        rfl
      exact absurd ⟨g, rng', h⟩ (not_returned_of_raises hraises)
    · exact (returned_of_meets (meets_genPrim_of_one hsize hjoined) rng).2 g rng' h
  | roomcorridor maxRooms roomMin roomMax =>
    exact ((genRoomcorridor_sound hjoined width height maxRooms roomMax rng).2 g rng' h).2.1

/-- **Interiors in one piece**, braided or not. -/
theorem onePiece_generateInterior {algorithm : Algorithm} {width height : Int}
    (hjoined : algorithm.Joined width height) {braidRatio : ℚ} {rng braidRng : Rng} {g : Grid}
    (h : generateInterior algorithm width height braidRatio rng braidRng = .ok g) : OnePiece g := by
  unfold generateInterior at h
  rw [bind_eq_ok] at h
  obtain ⟨made, hmade, hbraid⟩ := h
  have hpiece := onePiece_make hjoined (Prod.ext hmade rfl)
  by_cases hratio : 0 < braidRatio
  · rw [if_pos hratio] at hbraid
    have hbraided := (returned_of_meets (meets_braid made braidRatio) braidRng).2 g _
      (Prod.ext hbraid rfl)
    exact hbraided.piece hpiece
  · rw [if_neg hratio] at hbraid
    cases hbraid
    exact hpiece

/-- How floor and wall are written. -/
def Tile.code : Tile → Nat
  | .floor => Dungeon.floorCode
  | .wall => 1

/-- A grid by its rows of codes. -/
def codes (g : Grid) : Dungeon.Grid := g.rows.map (fun row => row.map Tile.code)

/-- The cell at these indices. -/
def place (cell : Dungeon.Cell) : Place := ((cell.1 : Int), (cell.2 : Int))

theorem mem_floorCells_codes {g : Grid} {cell : Dungeon.Cell} :
    cell ∈ Dungeon.floorCells (codes g) ↔ tile g (place cell) = .floor := by
  obtain ⟨x, y⟩ := cell
  rw [Dungeon.mem_floorCells_iff]
  unfold tile place
  rw [Board.get?_natCast]
  unfold codes
  rw [List.getElem?_map]
  rcases g.rows[y]? with _ | row
  · simp
  · show ((row.map Tile.code)[x]? = some Dungeon.floorCode) ↔ (row[x]?).getD .wall = .floor
    rw [List.getElem?_map]
    rcases row[x]? with _ | t
    · simp
    · cases t
      · simp [Tile.code]
      · simp [Tile.code, Dungeon.floorCode]

/-- One gets from one cell to another by steps over floor. -/
def OverFloor (g : Grid) (c d : Place) : Prop :=
  ∃ (hc : c ∈ floor g) (hd : d ∈ floor g), (orthogonal.induce (floor g)).Reachable ⟨c, hc⟩ ⟨d, hd⟩

/-- The cells that a record assigns to who comes in, to creatures and to exits. -/
def assigned (record : Dungeon.RegionTactical) : List Dungeon.Cell :=
  record.anchors.map (·.cell) ++ record.exitThresholds.values

/-- The digest of the region "exp1.r1". -/
def regionDigest : Dungeon.TacticalEntropy where
  sha256 _ := ⟨0xfa7e0733ec7a4905, by decide⟩
  waterShare n := n * 18 / 100

theorem floor_of_assigned (digests : Dungeon.TacticalEntropy) (regionId : String) (g : Grid)
    (themeKey : String) (neighborIds hazardSetpieces : List String) (creatureCount : Nat)
    {cell : Dungeon.Cell}
    (h : cell ∈ assigned (Dungeon.deriveRegionTactical digests regionId (codes g) themeKey
      neighborIds hazardSetpieces creatureCount)) : place cell ∈ floor g := by
  refine mem_floorCells_codes.mp ?_
  rcases List.mem_append.mp h with h | h
  · obtain ⟨a, ha, rfl⟩ := List.mem_map.mp h
    exact (Dungeon.onFloor_deriveRegionTactical digests regionId (codes g) themeKey neighborIds
      hazardSetpieces creatureCount).2.1 a ha
  · exact (Dungeon.exitThresholds_distinct digests regionId (codes g) neighborIds).2 cell h

/-- **The way through an interior.** Where the floor hangs together, one gets from every cell that
    the record assigns to every other. -/
theorem overFloor_assigned (algorithm : Algorithm) (width height : Int)
    (hjoined : algorithm.Joined width height) (braidRatio : ℚ) (rng braidRng : Rng) (g : Grid)
    (hmade : generateInterior algorithm width height braidRatio rng braidRng = .ok g)
    (digests : Dungeon.TacticalEntropy) (regionId themeKey : String)
    (neighborIds hazardSetpieces : List String) (creatureCount : Nat) :
    ∀ c ∈ assigned (Dungeon.deriveRegionTactical digests regionId (codes g) themeKey neighborIds
        hazardSetpieces creatureCount),
      ∀ d ∈ assigned (Dungeon.deriveRegionTactical digests regionId (codes g) themeKey neighborIds
        hazardSetpieces creatureCount),
        OverFloor g (place c) (place d) := by
  intro c hc d hd
  exact ⟨floor_of_assigned digests regionId g themeKey neighborIds hazardSetpieces creatureCount hc,
    floor_of_assigned digests regionId g themeKey neighborIds hazardSetpieces creatureCount hd,
    onePiece_generateInterior hjoined hmade _ _⟩

/-- In the maze of three columns and five rows, one gets from the entrance to the creature. -/
theorem overFloor_assigned_corridor : OverFloor corridorMaze (1, 1) (1, 3) := by
  have hmade : generateInterior .depthfirst 3 5 0 (fun _ => 0) (fun _ => 0) = .ok corridorMaze := by
    decide +kernel
  exact overFloor_assigned .depthfirst 3 5 trivial 0 (fun _ => 0) (fun _ => 0) corridorMaze hmade
    regionDigest "exp1.r1" "crypt" [] [] 2 (1, 1) (by decide +kernel) (1, 3) (by decide +kernel)

/-! ### Interiors with pockets -/

/-- What is drawn for a maze of nine by seven cells from two seed points. -/
def pocketDraws : Rng := fun n => [3, 2, 1, 1, 0, 0, 0, 0, 1, 0, 2, 2, 0, 0].getD n 0

/-- That maze: the second walk fills a pocket that the first one left. -/
def pocketed : Grid where
  width := 9
  height := 7
  rows := [[.wall, .wall, .wall, .wall, .wall, .wall, .wall, .wall, .wall],
    [.wall, .floor, .floor, .floor, .floor, .floor, .floor, .floor, .wall],
    [.wall, .floor, .wall, .wall, .wall, .wall, .wall, .floor, .wall],
    [.wall, .floor, .wall, .floor, .floor, .floor, .wall, .floor, .wall],
    [.wall, .floor, .wall, .wall, .wall, .floor, .wall, .floor, .wall],
    [.wall, .floor, .floor, .floor, .wall, .floor, .wall, .floor, .wall],
    [.wall, .wall, .wall, .wall, .wall, .wall, .wall, .wall, .wall]]
  tall := rfl
  wide := by decide

theorem not_overFloor {g : Grid} {c d : Place} (pocket : List Place)
    (hclosed : ∀ u ∈ pocket, ∀ v ∈ cells g, tile g v = .floor → v ∈ ortho.map (step u) → v ∈ pocket)
    (hc : c ∈ pocket) (hd : d ∉ pocket) : ¬ OverFloor g c d := by
  rintro ⟨hcfloor, hdfloor, hreach⟩
  refine hd (holds_of_reachable (P := fun v => v ∈ pocket) (fun u _ v hv hadj hu => ?_) hreach hc)
  exact hclosed u hu v (mem_cells_iff.mpr (inside_of_floor hv)) hv (mem_ortho_steps hadj)

/-- There are interiors whose exits are apart, by walks from several seed points, and by rooms of
    negative size. -/
theorem not_overFloor_assigned : (¬ ∀ (width height : Int) (rng braidRng : Rng) (g : Grid),
      generateInterior (.prim none none) width height 0 rng braidRng = .ok g →
        ∀ (digests : Dungeon.TacticalEntropy) (regionId themeKey : String)
          (neighborIds hazardSetpieces : List String) (creatureCount : Nat),
          ∀ c ∈ assigned (Dungeon.deriveRegionTactical digests regionId (codes g) themeKey
              neighborIds hazardSetpieces creatureCount),
            ∀ d ∈ assigned (Dungeon.deriveRegionTactical digests regionId (codes g) themeKey
              neighborIds hazardSetpieces creatureCount), OverFloor g (place c) (place d)) ∧
    ¬ ∀ (width height : Int) (maxRooms roomMin roomMax : Int) (rng braidRng : Rng) (g : Grid),
      generateInterior (.roomcorridor maxRooms roomMin roomMax) width height 0 rng braidRng = .ok g →
        ∀ (digests : Dungeon.TacticalEntropy) (regionId themeKey : String)
          (neighborIds hazardSetpieces : List String) (creatureCount : Nat),
          ∀ c ∈ assigned (Dungeon.deriveRegionTactical digests regionId (codes g) themeKey
              neighborIds hazardSetpieces creatureCount),
            ∀ d ∈ assigned (Dungeon.deriveRegionTactical digests regionId (codes g) themeKey
              neighborIds hazardSetpieces creatureCount), OverFloor g (place c) (place d) := by
  constructor
  · intro h
    have hmade : generateInterior (.prim none none) 9 7 0 pocketDraws pocketDraws = .ok pocketed := by
      decide +kernel
    have hpath := h 9 7 pocketDraws pocketDraws pocketed hmade regionDigest "exp1.r1" "crypt"
      ["exp1.r0", "exp1.r2"] [] 2 (4, 3) (by decide +kernel) (1, 1) (by decide +kernel)
    exact not_overFloor [(3, 3), (4, 3), (5, 3), (5, 4), (5, 5)] (by decide +kernel)
      (by decide) (by decide) hpath
  · intro h
    have hmade : generateInterior (.roomcorridor 3 (-1) (-1)) 5 5 0 negativeDraws negativeDraws
        = .ok torn := by
      decide +kernel
    have hpath := h 5 5 3 (-1) (-1) negativeDraws negativeDraws torn hmade regionDigest "exp1.r1"
      "hall" [] [] 3 (1, 1) (by decide +kernel) (1, 3) (by decide +kernel)
    exact not_overFloor [(1, 1)] (by decide +kernel) (by decide) (by decide) hpath

end Sidequest.Interior
