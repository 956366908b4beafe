import Sidequest.Interior.Grid
import Sidequest.Lib.Except
import Sidequest.Lib.Draws

namespace Sidequest.Interior

open Lib

/-!
# Caves

A grid is filled at random, and smoothed by a cellular automaton; of the pieces of floor there are
then, the largest is kept.

* `genCave`, `caPass` — the maker, and a pass of the automaton;
* `exists_genCave` — a cave of a size that is accepted is one piece, ringed by wall.
-/

/-- A row of cells, each of which is floor with a chance of `density`. -/
def randomRow (density : ℚ) : Nat → Rng → List Tile × Rng
  | 0, rng => ([], rng)
  | width + 1, rng =>
    let rest := randomRow density width rng.random.2
    ((if rng.random.1 < density then .floor else .wall) :: rest.1, rest.2)

/-- Rows of such cells. -/
def randomRows (density : ℚ) (width : Nat) : Nat → Rng → List (List Tile)
  | 0, _ => []
  | height + 1, rng =>
    (randomRow density width rng).1 :: randomRows density width height (randomRow density width rng).2

variable (g : Grid) (cutoff : Int) (density : ℚ)

theorem length_randomRow (width : Nat) (rng : Rng) :
    (randomRow density width rng).1.length = width := by
  induction width generalizing rng with
  | zero => rfl
  | succ width ih => exact congrArg (· + 1) (ih rng.random.2)

theorem length_randomRows (width height : Nat) (rng : Rng) :
    (randomRows density width height rng).length = height := by
  induction height generalizing rng with
  | zero => rfl
  | succ height ih => exact congrArg (· + 1) (ih _)

theorem length_of_mem_randomRows {density : ℚ} {width height : Nat} {rng : Rng} {row : List Tile}
    (h : row ∈ randomRows density width height rng) : row.length = width := by
  induction height generalizing rng with
  | zero => cases h
  | succ height ih =>
    rcases List.mem_cons.mp h with rfl | h
    · exact length_randomRow density width rng
    · exact ih h

/-- A grid filled at random. -/
def randomGrid (width height : Nat) (rng : Rng) : Grid where
  width := width
  height := height
  rows := randomRows density width height rng
  tall := length_randomRows density width height rng
  wide _ hrow := length_of_mem_randomRows hrow

/-- The eight cells around a cell. -/
def around (c : Place) : List Place :=
  [(-1, -1), (0, -1), (1, -1), (-1, 0), (1, 0), (-1, 1), (0, 1), (1, 1)].map (step c)

/-- The cells inside the outermost ring, row by row. -/
def innerCells (width height : Nat) : List Place :=
  (List.range' 1 (height - 2)).flatMap
    (fun y : Nat => (List.range' 1 (width - 2)).map (fun x : Nat => ((x : Int), (y : Int))))

/-- A cell of the new grid, from the walls around it in the old one. -/
def caCell (old new : Grid) (c : Place) : Grid :=
  let walls := (around c).countP (fun n => tile old n = .wall)
  if cutoff ≤ walls then new.set c .wall else if walls < 4 then new.set c .floor else new

/-- A pass of the automaton. -/
def caPass (g : Grid) : Grid :=
  (innerCells g.width g.height).foldl (caCell cutoff g) g

/-- A cell was met by a flood before. -/
def met (seen : Board Bool) (c : Place) : Bool := (seen.get? c).getD false

/-- The loop of a flood. The last cell that was put on the stack comes first. -/
def flood (g : Grid) : Nat → List Place → List Place → Board Bool →
    Except InteriorError (List Place × Board Bool)
  | 0, _, _, _ => .error .outOfFuel
  | _ + 1, [], region, seen => .ok (region, seen)
  | fuel + 1, c :: stack, region, seen =>
    if ¬ g.Inside c then flood g fuel stack region seen
    else if met seen c ∨ tile g c ≠ .floor then flood g fuel stack region seen
    else flood g fuel ((ortho.map (step c)).reverse ++ stack) (region ++ [c]) (seen.set c true)

/-- How many rounds a flood is given. -/
def floodFuel : Nat := 4 * (g.width * g.height) + 2

/-- A cell of floor that no flood met starts one; what it found is the best if it is larger. -/
def regionStep (s : List Place × Board Bool) (c : Place) :
    Except InteriorError (List Place × Board Bool) :=
  if tile g c ≠ .floor ∨ met s.2 c then .ok s
  else do
    let (region, seen) ← flood g (floodFuel g) [c] [] s.2
    return (if s.1.length < region.length then region else s.1, seen)

/-- All floor becomes wall but that of the largest region. -/
def keepLargestFloorRegion : Except InteriorError Grid := do
  let (best, _) ← (cells g).foldlM (regionStep g) ([], Board.filled g.width g.height false)
  return paint .wall ((cells g).filter (fun c => tile g c = .floor ∧ c ∉ best)) g

/-- The maker of caves. -/
def genCave (width height : Int) (rng : Rng) (density : ℚ) (cutoff passes : Int) :
    Except InteriorError Grid :=
  if width < 3 ∨ height < 3 then .error (tooSmall "gen_cave" 3 width height)
  else
    keepLargestFloorRegion ((caPass cutoff)^[passes.toNat]
      (wallBorder (randomGrid density width.toNat height.toNat rng)))

/-! ### The automaton -/

theorem not_onBorder_of_mem_innerCells {g : Grid} {c : Place}
    (h : c ∈ innerCells g.width g.height) : ¬ OnBorder g c := by
  unfold innerCells at h
  simp only [List.mem_flatMap, List.mem_map, List.mem_range'_1] at h
  obtain ⟨y, hy, x, hx, rfl⟩ := h
  unfold OnBorder
  omega

/-- A pass writes no other cells than those it goes over. -/
theorem caPass_frame (old : Grid) (l : List Place) (new : Grid) :
    (l.foldl (caCell cutoff old) new).width = new.width ∧
    (l.foldl (caCell cutoff old) new).height = new.height ∧
    ∀ c, c ∉ l → tile (l.foldl (caCell cutoff old) new) c = tile new c := by
  induction l generalizing new with
  | nil => exact ⟨rfl, rfl, fun c _ => rfl⟩
  | cons d l ih =>
    have hcell : (caCell cutoff old new d).width = new.width ∧
        (caCell cutoff old new d).height = new.height ∧
        ∀ c, c ≠ d → tile (caCell cutoff old new d) c = tile new c := by
      unfold caCell
      dsimp only
      split
      · refine ⟨rfl, rfl, fun c hc => ?_⟩
        rw [tile_set, if_neg (fun h => hc h.1)]
      · split
        · refine ⟨rfl, rfl, fun c hc => ?_⟩
          rw [tile_set, if_neg (fun h => hc h.1)]
        · exact ⟨rfl, rfl, fun c _ => rfl⟩
    obtain ⟨hwidth, hheight, hothers⟩ := ih (caCell cutoff old new d)
    refine ⟨hwidth.trans hcell.1, hheight.trans hcell.2.1, fun c hc => ?_⟩
    rw [List.mem_cons, not_or] at hc
    exact (hothers c hc.2).trans (hcell.2.2 c hc.1)

theorem ringed_caPass {g : Grid} (h : Ringed g) : Ringed (caPass cutoff g) := by
  obtain ⟨hwidth, hheight, hothers⟩ := caPass_frame cutoff g (innerCells g.width g.height) g
  intro c hin hborder
  have hin' : g.Inside c := (Board.inside_congr hwidth hheight c).mp hin
  have hborder' : OnBorder g c := by
    unfold OnBorder caPass at hborder
    rw [hwidth, hheight] at hborder
    exact hborder
  have hkept : tile (caPass cutoff g) c = tile g c :=
    hothers c (fun hmem => not_onBorder_of_mem_innerCells hmem hborder')
  rw [hkept]
  exact h c hin' hborder'

theorem ringed_passes {g : Grid} (n : Nat) (h : Ringed g) : Ringed ((caPass cutoff)^[n] g) := by
  induction n with
  | zero => exact h
  | succ n ih =>
    rw [Function.iterate_succ_apply']
    exact ringed_caPass cutoff ih

/-! ### Floods -/

/-- Cells that are one piece of floor. -/
structure Region (g : Grid) (l : List Place) : Prop where
  floor : ∀ c ∈ l, tile g c = .floor
  piece : (orthogonal.induce {c | c ∈ l}).Preconnected

theorem region_nil : Region g [] where
  floor _ hc := absurd hc List.not_mem_nil
  piece := fun c => nomatch c.2

/-- A cell of floor joins a region it is beside, or starts one. -/
theorem Region.concat {g : Grid} {l : List Place} (h : Region g l) {c : Place}
    (hc : tile g c = .floor) (hbeside : l = [] ∨ ∃ d ∈ l, orthogonal.Adj d c) :
    Region g (l ++ [c]) where
  floor d hd := by
    rcases List.mem_append.mp hd with hd | hd
    · exact h.floor d hd
    · rw [List.mem_singleton.mp hd]
      exact hc
  piece := by
    have hset : {d | d ∈ l ++ [c]} = insert c {d | d ∈ l} := by
      ext d
      simp [or_comm]
    rw [hset]
    rcases hbeside with rfl | ⟨d, hd, hadj⟩
    · have hsingle : insert c {d | d ∈ ([] : List Place)} = {c} := by
        simp
      rw [hsingle]
      exact SimpleGraph.Preconnected.of_subsingleton
    · exact preconnected_insert h.piece hd hadj

/-- The marks are on a board of the size of the grid. -/
def SameSize (seen : Board Bool) : Prop :=
  seen.width = g.width ∧ seen.height = g.height

/-- A flood ends within the rounds it is given, with a region. What waits on its stack is beside the
    region, or is the cell it starts from. -/
theorem exists_flood (fuel : Nat) (stack region : List Place) (seen : Board Bool)
    (hsize : SameSize g seen) (hregion : Region g region)
    (hbeside : ∀ c ∈ stack, (region = [] ∧ stack = [c]) ∨ ∃ d ∈ region, orthogonal.Adj d c)
    (hfuel : stack.length + 4 * seen.count false < fuel) :
    ∃ r, flood g fuel stack region seen = .ok r ∧ SameSize g r.2 ∧ Region g r.1 := by
  induction fuel generalizing stack region seen with
  | zero => omega
  | succ fuel ih =>
    cases stack with
    | nil => exact ⟨(region, seen), rfl, hsize, hregion⟩
    | cons c stack =>
      rw [List.length_cons] at hfuel
      -- a cell that is passed over leaves a shorter stack
      have hskip : ∃ r, flood g fuel stack region seen = .ok r ∧ SameSize g r.2 ∧ Region g r.1 := by
        refine ih stack region seen hsize hregion (fun d hd => ?_) (by omega)
        rcases hbeside d (.tail c hd) with ⟨-, hstack⟩ | hbeside
        · cases hstack
          cases hd
        · exact .inr hbeside
      unfold flood
      by_cases hin : g.Inside c
      · rw [if_neg (not_not_intro hin)]
        by_cases hpass : met seen c ∨ tile g c ≠ .floor
        · rw [if_pos hpass]
          exact hskip
        · rw [if_neg hpass]
          rw [not_or, not_not] at hpass
          obtain ⟨hnew, hfloor⟩ := hpass
          have hfresh : seen.get? c = some false := by
            obtain ⟨b, hb⟩ := Board.exists_get? ((Board.inside_congr hsize.1 hsize.2 c).mpr hin)
            unfold met at hnew
            rw [hb, Option.getD_some] at hnew
            rw [hb, eq_false_of_ne_true hnew]
          have hjoined : Region g (region ++ [c]) := by
            refine hregion.concat hfloor ?_
            rcases hbeside c (.head _) with ⟨hempty, -⟩ | hbeside
            · exact .inl hempty
            · exact .inr hbeside
          -- one cell less is unmarked, and that pays for the four cells put on the stack
          have hless := Board.count_set_lt hfresh (show true ≠ false by decide)
          refine ih _ (region ++ [c]) (seen.set c true) hsize hjoined (fun d hd => .inr ?_) ?_
          · rcases List.mem_append.mp hd with hd | hd
            · exact ⟨c, List.mem_append_right region (List.mem_singleton_self c),
                adj_of_mem_ortho (List.mem_reverse.mp hd)⟩
            · rcases hbeside d (.tail c hd) with ⟨-, hstack⟩ | ⟨e, he, hadj⟩
              · cases hstack
                cases hd
              · exact ⟨e, List.mem_append_left [c] he, hadj⟩
          · have hfour : ortho.length = 4 := rfl
            rw [List.length_append, List.length_reverse, List.length_map, hfour]
            omega
      · rw [if_pos hin]
        exact hskip

/-! ### The largest region -/

/-- What is known while the regions are found: the best so far is one. -/
theorem exists_regionStep {g : Grid} {s : List Place × Board Bool}
    (h : SameSize g s.2 ∧ Region g s.1) (c : Place) :
    ∃ t, regionStep g s c = .ok t ∧ SameSize g t.2 ∧ Region g t.1 := by
  obtain ⟨hsize, hbest⟩ := h
  unfold regionStep
  by_cases hpass : tile g c ≠ .floor ∨ met s.2 c
  · rw [if_pos hpass]
    exact ⟨s, rfl, hsize, hbest⟩
  · rw [if_neg hpass]
    have hfuel : [c].length + 4 * s.2.count false < floodFuel g := by
      have hle := Board.count_le s.2 false
      rw [hsize.1, hsize.2] at hle
      unfold floodFuel
      simp only [List.length_singleton]
      omega
    obtain ⟨⟨region, seen⟩, hflood, hsize', hregion⟩ := exists_flood g (floodFuel g) [c] [] s.2 hsize
      (region_nil g) (fun d hd => .inl ⟨rfl, by rw [List.mem_singleton.mp hd]⟩) hfuel
    rw [hflood]
    refine ⟨_, rfl, hsize', ?_⟩
    split
    · exact hregion
    · exact hbest

theorem exists_keepLargestFloorRegion :
    ∃ g', keepLargestFloorRegion g = .ok g' ∧ g'.width = g.width ∧ g'.height = g.height ∧
      OnePiece g' ∧ ∀ c, tile g' c = .floor → tile g c = .floor := by
  obtain ⟨⟨best, seen⟩, hfold, -, hbest⟩ := exists_foldlM (f := regionStep g) (l := cells g)
    (fun s hs c _ => exists_regionStep hs c)
    (s := ([], Board.filled g.width g.height false)) ⟨⟨rfl, rfl⟩, region_nil g⟩
  refine ⟨paint .wall ((cells g).filter (fun c => tile g c = .floor ∧ c ∉ best)) g, ?_,
    width_paint _ _ _, height_paint _ _ _, ?_, fun c hc => ?_⟩
  · unfold keepLargestFloorRegion
    rw [hfold]
    rfl
  · -- the floor that is left is the best region
    have hfloor : floor (paint .wall ((cells g).filter (fun c => tile g c = .floor ∧ c ∉ best)) g)
        = {c | c ∈ best} := by
      ext c
      show tile (paint _ _ g) c = .floor ↔ c ∈ best
      have hmem : c ∈ (cells g).filter (fun c => tile g c = .floor ∧ c ∉ best) ↔
          g.Inside c ∧ tile g c = .floor ∧ c ∉ best := by
        rw [List.mem_filter, mem_cells_iff, decide_eq_true_eq]
      simp only [tile_paint, hmem]
      constructor
      · intro hc
        by_contra hnot
        by_cases hold : tile g c = .floor
        · have hin := inside_of_floor hold
          rw [if_pos ⟨⟨hin, hold, hnot⟩, hin⟩] at hc
          simp at hc
        · rw [eq_wall_of_ne_floor hold, ite_self] at hc
          simp at hc
      · intro hc
        rw [if_neg (·.1.2.2 hc)]
        exact hbest.floor c hc
    unfold OnePiece
    rw [hfloor]
    exact hbest.piece
  · rw [tile_paint] at hc
    split at hc
    · simp at hc
    · exact hc

/-! ### The maker -/

theorem sized_passes (n : Nat) :
    ((caPass cutoff)^[n] g).width = g.width ∧ ((caPass cutoff)^[n] g).height = g.height := by
  induction n with
  | zero => exact ⟨rfl, rfl⟩
  | succ n ih =>
    rw [Function.iterate_succ_apply']
    obtain ⟨hwidth, hheight, -⟩ := caPass_frame cutoff ((caPass cutoff)^[n] g)
      (innerCells ((caPass cutoff)^[n] g).width ((caPass cutoff)^[n] g).height) ((caPass cutoff)^[n] g)
    exact ⟨hwidth.trans ih.1, hheight.trans ih.2⟩

/-- **Caves.** A cave of a size that is accepted is one piece of floor of that size, ringed by
    wall. -/
theorem exists_genCave {width height : Int} (hsize : ¬ (width < 3 ∨ height < 3)) (rng : Rng)
    (density : ℚ) (cutoff passes : Int) :
    ∃ g, genCave width height rng density cutoff passes = .ok g ∧ Sized g width height ∧
      OnePiece g ∧ Ringed g := by
  unfold genCave
  rw [if_neg hsize]
  have hringed := ringed_passes cutoff passes.toNat
    (ringed_wallBorder (randomGrid density width.toNat height.toNat rng))
  have hsized := sized_passes (wallBorder (randomGrid density width.toNat height.toNat rng)) cutoff
    passes.toNat
  have hfilled : (wallBorder (randomGrid density width.toNat height.toNat rng)).width = width.toNat ∧
      (wallBorder (randomGrid density width.toNat height.toNat rng)).height = height.toNat :=
    ⟨width_paint _ _ _, height_paint _ _ _⟩
  generalize (caPass cutoff)^[passes.toNat] _ = grown at hringed hsized
  obtain ⟨g, hkept, hwidth, hheight, hpiece, hfrom⟩ := exists_keepLargestFloorRegion grown
  refine ⟨g, hkept, ⟨?_, ?_⟩, hpiece, fun c hin hborder => eq_wall_of_ne_floor (fun hc => ?_)⟩
  · omega
  · omega
  · have hborder' : OnBorder grown c := by
      unfold OnBorder at hborder ⊢
      rw [← hwidth, ← hheight]
      exact hborder
    have hwall := hringed c ((Board.inside_congr hwidth hheight c).mp hin) hborder'
    rw [hfrom c hc] at hwall
    simp at hwall

theorem genCave_refuses {width height : Int} (hsize : width < 3 ∨ height < 3) (rng : Rng)
    (density : ℚ) (cutoff passes : Int) :
    genCave width height rng density cutoff passes = .error (tooSmall "gen_cave" 3 width height) :=
  if_pos hsize

end Sidequest.Interior
