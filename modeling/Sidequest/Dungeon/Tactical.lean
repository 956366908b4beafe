import Sidequest.Dungeon.Materialize

namespace Sidequest.Dungeon

open Lib

/-!
# The tactical record of a region

What the map draws inside a region, derived from its grid, its theme, its neighbours and its
set-pieces. Cells are picked by a rotation that starts at a digest of the region's id.

* `floorCells`, `chokepoints` — the cells of a grid;
* `mem_keys_exitThresholds`, `exitThresholds_distinct` — its exits.
-/

/-! ### Grids -/

/-- A cell by its column and its row. -/
abbrev Cell := Nat × Nat

/-- A grid by its rows; a floor is 0. -/
abbrev Grid := List (List Nat)

def floorCode : Nat := 0

variable (grid : Grid)

/-- All floor cells, row by row. -/
def floorCells : List Cell :=
  grid.zipIdx.flatMap (fun (row, y) =>
    row.zipIdx.filterMap (fun (v, x) => if v = floorCode then some (x, y) else none))

/-- Whether there is a floor at a place, which may be off the grid. -/
def floorAt (x y : Int) : Bool :=
  decide (0 ≤ y) && decide (0 ≤ x) &&
    decide ((grid[y.toNat]?.bind (fun row => row[x.toNat]?)) = some floorCode)

def floorNeighbors (cell : Cell) : Nat :=
  [((1 : Int), (0 : Int)), (-1, 0), (0, 1), (0, -1)].countP
    (fun d => floorAt grid (cell.1 + d.1) (cell.2 + d.2))

/-- The floor cells of passages one cell wide. -/
def chokepoints : List Cell :=
  (floorCells grid).filter (fun cell => floorNeighbors grid cell ≤ 2)

/-! ### Picking cells -/

section Sample

variable {α : Type} [DecidableEq α]

/-- One more element, unless it is there. -/
def addNew (uniq : List α) (c : α) : List α := if c ∈ uniq then uniq else uniq ++ [c]

/-- One more element, unless there are enough. -/
def topUp (k : Nat) (uniq : List α) (c : α) : List α :=
  if k ≤ uniq.length then uniq else addNew uniq c

/-- The elements a rotation comes to in `k` steps. -/
def rotation (items : List α) (k seed : Nat) : List α :=
  let start := seed % items.length
  let step := max 1 (items.length / k)
  (List.range k).filterMap (fun i => items[(start + i * step) % items.length]?)

/-- `k` elements by rotation; what it comes to twice is replaced by the first elements it has not
    come to. -/
def deterministicSample (items : List α) (k seed : Nat) : List α :=
  if k = 0 ∨ items = [] then []
  else if items.length ≤ k then items
  else (items.foldl (topUp k) ((rotation items k seed).foldl addNew [])).take k

end Sample

/-! ### Records -/

/-- What a cell is marked as. -/
inductive FeatureType where
  | cover | hazard | difficultTerrain | water | atmosphere | interactable
deriving DecidableEq

structure TacticalFeatureCell where
  featureType : FeatureType
  cell : Cell
  label : String

/-- What a token stands for. -/
inductive TokenRole where
  | entrance | creature

structure TokenAnchor where
  cell : Cell
  role : TokenRole

structure RegionTactical where
  regionId : String
  features : List TacticalFeatureCell
  anchors : List TokenAnchor
  pois : List Cell
  exitThresholds : Dict String Cell

/-- What is taken from the standard library: the first 8 bytes of a digest as a number, and the
    whole part of a number of cells times 0.18. -/
structure TacticalEntropy where
  sha256 : String → Fin (2 ^ 64)
  waterShare : Nat → Nat

def waterThemes : List String := ["drowned_cavern"]

section Derive

variable (digests : TacticalEntropy) (regionId : String) (grid : Grid)

/-- Passages are hard to pass. -/
def chokeFeatures : List TacticalFeatureCell :=
  (chokepoints grid).map (fun c => ⟨.difficultTerrain, c, "a tight squeeze — the passage narrows"⟩)

/-- A water theme floods some of the other cells. -/
def waterFeatures (themeKey : String) : List TacticalFeatureCell :=
  if themeKey ∈ waterThemes then
    let nonChoke := (floorCells grid).filter (· ∉ chokepoints grid)
    (deterministicSample nonChoke (max 1 (digests.waterShare nonChoke.length))
      (digests.sha256 regionId)).map (fun c => ⟨.water, c, "black water, depth uncertain"⟩)
  else []

/-- One cell for each set-piece. -/
def hazardFeatures (hazardSetpieces : List String) : List TacticalFeatureCell :=
  (hazardSetpieces.zip (deterministicSample (floorCells grid) hazardSetpieces.length
    ((digests.sha256 regionId).val ^^^ 0x9E3779B9))).map
      (fun p => ⟨.hazard, p.2, replaceText "_" " " p.1 ++ " — unstable"⟩)

/-- One cell for who comes in, and one for each creature. -/
def tokenAnchors (creatureCount : Nat) : List TokenAnchor :=
  match floorCells grid with
  | [] => []
  | first :: rest =>
    ⟨first, .entrance⟩ :: (deterministicSample (if rest = [] then [first] else rest) creatureCount
      ((digests.sha256 regionId).val ^^^ 0x85EBCA6B)).map (fun c => ⟨c, .creature⟩)

/-- One cell for each neighbour; a later one stands in the place of an earlier one. -/
def exitThresholds (neighborIds : List String) : Dict String Cell :=
  if floorCells grid = [] ∨ neighborIds = [] then .empty
  else (neighborIds.zip (deterministicSample (floorCells grid) neighborIds.length
    ((digests.sha256 regionId).val ^^^ 0xC2B2AE35))).foldl (fun d p => d.insert p.1 p.2) .empty

/-- The record of a region. -/
def deriveRegionTactical (themeKey : String) (neighborIds hazardSetpieces : List String)
    (creatureCount : Nat) : RegionTactical :=
  let features := chokeFeatures grid ++ waterFeatures digests regionId grid themeKey ++
    hazardFeatures digests regionId grid hazardSetpieces
  { regionId := regionId
    features := features
    anchors := tokenAnchors digests regionId grid creatureCount
    pois := (features.filter (fun f => f.featureType = .hazard ∨ f.featureType = .interactable)).map
      (·.cell)
    exitThresholds := exitThresholds digests regionId grid neighborIds }

end Derive

/-! ### What is picked -/

section Sample

variable {α : Type} [DecidableEq α] {items uniq : List α} {c : α} {k : Nat}

@[simp] theorem mem_addNew {d : α} : d ∈ addNew uniq c ↔ d ∈ uniq ∨ d = c := by
  unfold addNew
  split
  · rename_i hmem
    constructor
    · exact .inl
    · rintro (hd | rfl)
      · exact hd
      · exact hmem
  · simp

theorem nodup_addNew (h : uniq.Nodup) (c : α) : (addNew uniq c).Nodup := by
  unfold addNew
  split
  · exact h
  · rename_i hmem
    rw [List.nodup_append]
    refine ⟨h, List.nodup_singleton c, fun d hd d' hd' heq => ?_⟩
    rw [heq, List.mem_singleton.mp hd'] at hd
    exact hmem hd

theorem nodup_topUp (h : uniq.Nodup) (k : Nat) (c : α) : (topUp k uniq c).Nodup := by
  unfold topUp
  split
  · exact h
  · exact nodup_addNew h c

theorem mem_of_mem_topUp {d : α} (h : d ∈ topUp k uniq c) : d ∈ uniq ∨ d = c := by
  unfold topUp at h
  split at h
  · exact .inl h
  · exact mem_addNew.mp h

theorem mem_topUp_of_mem {d : α} (h : d ∈ uniq) : d ∈ topUp k uniq c := by
  unfold topUp
  split
  · exact h
  · exact mem_addNew.mpr (.inl h)

omit [DecidableEq α] in
/-- Taking in elements one at a time, by a step that keeps them different and brings in nothing
    else. -/
theorem foldl_taking {f : List α → α → List α} (hnodup : ∀ l c, l.Nodup → (f l c).Nodup)
    (hmem : ∀ l c, ∀ d ∈ f l c, d ∈ l ∨ d = c) {source : List α} (hsource : ∀ c ∈ source, c ∈ items)
    (huniq : uniq.Nodup) (hsub : ∀ c ∈ uniq, c ∈ items) :
    (source.foldl f uniq).Nodup ∧ ∀ c ∈ source.foldl f uniq, c ∈ items := by
  induction source generalizing uniq with
  | nil => exact ⟨huniq, hsub⟩
  | cons c source ih =>
    refine ih (fun d hd => hsource d (.tail c hd)) (hnodup uniq c huniq)
      (fun d hd => ?_)
    rcases hmem uniq c d hd with hd | rfl
    · exact hsub d hd
    · exact hsource d (.head _)

theorem mem_foldl_topUp_of_mem {source : List α} {d : α} (h : d ∈ uniq) :
    d ∈ source.foldl (topUp k) uniq := by
  induction source generalizing uniq with
  | nil => exact h
  | cons c source ih => exact ih (mem_topUp_of_mem h)

/-- Topping up stops when there are enough, and not before all elements are there. -/
theorem enough_or_all (source uniq : List α) (k : Nat) :
    k ≤ (source.foldl (topUp k) uniq).length ∨ ∀ c ∈ source, c ∈ source.foldl (topUp k) uniq := by
  induction source generalizing uniq with
  | nil => exact .inr (fun c hc => nomatch hc)
  | cons c source ih =>
    rcases ih (topUp k uniq c) with henough | hall
    · exact .inl henough
    · by_cases hk : k ≤ uniq.length
      · -- nothing is added from here on
        have hstop : ∀ l : List α, l.foldl (topUp k) uniq = uniq := by
          intro l
          induction l with
          | nil => rfl
          | cons d l ihl =>
            have hd : topUp k uniq d = uniq := if_pos hk
            rw [List.foldl_cons, hd, ihl]
        left
        rw [hstop]
        exact hk
      · right
        intro d hd
        rcases List.mem_cons.mp hd with rfl | hd
        · have htaken : d ∈ topUp k uniq d := by
            unfold topUp
            rw [if_neg hk]
            exact mem_addNew.mpr (.inr rfl)
          show d ∈ source.foldl (topUp k) (topUp k uniq d)
          exact mem_foldl_topUp_of_mem htaken
        · exact hall d hd

omit [DecidableEq α] in
theorem mem_of_mem_rotation {seed : Nat} (h : c ∈ rotation items k seed) : c ∈ items := by
  unfold rotation at h
  obtain ⟨i, -, hi⟩ := List.mem_filterMap.mp h
  exact List.mem_of_getElem? hi

/-- **The sample** of different elements: different ones, as many as are asked for if there are as
    many. -/
theorem deterministicSample_spec (h : items.Nodup) (k seed : Nat) :
    (deterministicSample items k seed).Nodup ∧ (∀ c ∈ deterministicSample items k seed, c ∈ items) ∧
      (deterministicSample items k seed).length = min k items.length := by
  unfold deterministicSample
  by_cases hnone : k = 0 ∨ items = []
  · rcases hnone with rfl | rfl
    · simp
    · simp
  · rw [if_neg hnone]
    by_cases hall : items.length ≤ k
    · rw [if_pos hall]
      exact ⟨h, fun c hc => hc, (min_eq_right hall).symm⟩
    · rw [if_neg hall]
      have hrotation : ∀ c ∈ rotation items k seed, c ∈ items := fun c hc => mem_of_mem_rotation hc
      obtain ⟨hrotated, hwithin⟩ := foldl_taking (f := addNew) (fun l c hl => nodup_addNew hl c)
        (fun l c d hd => mem_addNew.mp hd) hrotation List.nodup_nil
        (fun c hc => nomatch hc)
      obtain ⟨htopped, hinside⟩ := foldl_taking (fun l c hl => nodup_topUp hl k c)
        (fun l c d hd => mem_of_mem_topUp hd) (fun c hc => hc) hrotated hwithin
      have henough := enough_or_all items ((rotation items k seed).foldl addNew []) k
      generalize items.foldl (topUp k) ((rotation items k seed).foldl addNew []) = topped at *
      refine ⟨htopped.sublist (List.take_sublist k topped),
        fun c hc => hinside c (List.mem_of_mem_take hc), ?_⟩
      have hlong : k ≤ topped.length := by
        rcases henough with henough | hevery
        · exact henough
        · have hle := (List.subperm_of_subset h hevery).length_le
          omega
      rw [List.length_take]
      omega

end Sample

/-! ### Where floors are -/

theorem mem_floorCells_iff {grid : Grid} {cell : Cell} : cell ∈ floorCells grid ↔
      grid[cell.2]?.bind (fun row => row[cell.1]?) = some floorCode := by
  obtain ⟨x, y⟩ := cell
  simp only [floorCells, List.mem_flatMap, List.mem_filterMap, Prod.exists,
    List.mem_zipIdx_iff_getElem?, Option.bind_eq_some_iff, Option.ite_none_right_eq_some,
    Option.some.injEq, Prod.mk.injEq]
  constructor
  · rintro ⟨row, y', hrow, v, x', hv, rfl, rfl, rfl⟩
    exact ⟨row, hrow, hv⟩
  · rintro ⟨row, hrow, hv⟩
    exact ⟨row, y, hrow, floorCode, x, hv, rfl, rfl, rfl⟩

theorem nodup_floorCells : (floorCells grid).Nodup := by
  have hrows : (grid.zipIdx.map Prod.snd).Nodup := by
    rw [List.zipIdx_map_snd]
    exact List.nodup_range'
  unfold floorCells
  rw [List.nodup_flatMap]
  constructor
  · rintro ⟨row, y⟩ -
    -- within a row, by the columns
    have hcolumns : (row.zipIdx.map Prod.snd).Nodup := by
      rw [List.zipIdx_map_snd]
      exact List.nodup_range'
    refine List.Nodup.filterMap ?_ (List.Nodup.of_map Prod.snd hcolumns)
    rintro ⟨v, x⟩ ⟨v', x'⟩ cell hcell hcell'
    simp only [Option.mem_def, Option.ite_none_right_eq_some, Option.some.injEq] at hcell hcell'
    obtain ⟨rfl, rfl⟩ := hcell
    obtain ⟨rfl, hx⟩ := hcell'
    rw [(Prod.mk.inj hx).1]
  · refine (List.pairwise_map.mp hrows).imp ?_
    rintro ⟨row, y⟩ ⟨row', y'⟩ hne
    intro cell hcell hcell'
    obtain ⟨p, -, hp⟩ := List.mem_filterMap.mp hcell
    obtain ⟨p', -, hp'⟩ := List.mem_filterMap.mp hcell'
    dsimp only at hp hp' hne
    split at hp
    · split at hp'
      · rw [← Option.some.inj hp] at hp'
        exact hne (Prod.mk.inj (Option.some.inj hp')).2.symm
      · simp at hp'
    · simp at hp

/-! ### What is drawn -/

section Drawn

variable (digests : TacticalEntropy) (regionId : String) (grid : Grid)

theorem onFloor_waterFeatures (themeKey : String) :
    ∀ f ∈ waterFeatures digests regionId grid themeKey, f.cell ∈ floorCells grid := by
  intro f hf
  unfold waterFeatures at hf
  split at hf
  · obtain ⟨c, hc, rfl⟩ := List.mem_map.mp hf
    have hnodup := (nodup_floorCells grid).filter (fun c => decide (c ∉ chokepoints grid))
    exact List.mem_of_mem_filter ((deterministicSample_spec hnodup _ _).2.1 c hc)
  · cases hf

theorem onFloor_hazardFeatures (hazardSetpieces : List String) :
    ∀ f ∈ hazardFeatures digests regionId grid hazardSetpieces, f.cell ∈ floorCells grid := by
  intro f hf
  obtain ⟨p, hp, rfl⟩ := List.mem_map.mp hf
  exact (deterministicSample_spec (nodup_floorCells grid) _ _).2.1 p.2 (List.of_mem_zip hp).2

theorem onFloor_tokenAnchors (creatureCount : Nat) :
    ∀ a ∈ tokenAnchors digests regionId grid creatureCount, a.cell ∈ floorCells grid := by
  intro a ha
  have hnodup := nodup_floorCells grid
  unfold tokenAnchors at ha
  cases hfloor : floorCells grid with
  | nil =>
    rw [hfloor] at ha
    cases ha
  | cons first rest =>
    rw [hfloor] at ha hnodup
    rcases List.mem_cons.mp ha with rfl | ha
    · exact .head _
    · obtain ⟨c, hc, rfl⟩ := List.mem_map.mp ha
      by_cases hrest : rest = []
      · rw [if_pos hrest] at hc
        have hfirst := (deterministicSample_spec (List.nodup_singleton first) _ _).2.1 c hc
        rw [List.mem_singleton.mp hfirst]
        exact .head _
      · rw [if_neg hrest] at hc
        exact .tail first
          ((deterministicSample_spec (List.nodup_cons.mp hnodup).2 _ _).2.1 c hc)

theorem onFloor_deriveRegionTactical (themeKey : String) (neighborIds hazardSetpieces : List String)
    (creatureCount : Nat) :
    let record := deriveRegionTactical digests regionId grid themeKey neighborIds hazardSetpieces
      creatureCount
    (∀ f ∈ record.features, f.cell ∈ floorCells grid) ∧
      (∀ a ∈ record.anchors, a.cell ∈ floorCells grid) ∧ ∀ c ∈ record.pois, c ∈ floorCells grid := by
  intro record
  have hfeatures : ∀ f ∈ record.features, f.cell ∈ floorCells grid := by
    intro f hf
    rcases List.mem_append.mp hf with hf | hf
    · rcases List.mem_append.mp hf with hf | hf
      · obtain ⟨c, hc, rfl⟩ := List.mem_map.mp hf
        exact List.mem_of_mem_filter hc
      · exact onFloor_waterFeatures digests regionId grid themeKey f hf
    · exact onFloor_hazardFeatures digests regionId grid hazardSetpieces f hf
  refine ⟨hfeatures, onFloor_tokenAnchors digests regionId grid creatureCount, fun c hc => ?_⟩
  obtain ⟨f, hf, rfl⟩ := List.mem_map.mp hc
  exact hfeatures f (List.mem_of_mem_filter hf)

end Drawn

/-! ### Exits -/

variable (digests : TacticalEntropy) (regionId : String) (grid : Grid) (neighborIds : List String)

theorem mem_keys_exitThresholds {r : String} :
    r ∈ (exitThresholds digests regionId grid neighborIds).keys ↔
      r ∈ neighborIds.take (floorCells grid).length := by
  unfold exitThresholds
  by_cases hnone : floorCells grid = [] ∨ neighborIds = []
  · rcases hnone with hnone | hnone
    · simp [hnone]
    · simp [hnone]
  · rw [if_neg hnone, Dict.mem_keys_foldl_insert]
    obtain ⟨-, -, hlength⟩ := deterministicSample_spec (nodup_floorCells grid) neighborIds.length
      ((digests.sha256 regionId).val ^^^ 0xC2B2AE35)
    have hpaired : ∀ picks : List Cell, picks.length = min neighborIds.length (floorCells grid).length →
        (neighborIds.zip picks).map Prod.fst = neighborIds.take (floorCells grid).length := by
      intro picks hpicks
      rw [List.zip_eq_zip_take_min, hpicks, List.map_fst_zip]
      · simp [Nat.min_comm]
      · simp [hpicks]
    rw [hpaired _ hlength]
    simp

/-- **Exits** stand at floor cells, no two of them at one. -/
theorem exitThresholds_distinct : (exitThresholds digests regionId grid neighborIds).values.Nodup ∧
      ∀ c ∈ (exitThresholds digests regionId grid neighborIds).values, c ∈ floorCells grid := by
  unfold exitThresholds
  by_cases hnone : floorCells grid = [] ∨ neighborIds = []
  · rw [if_pos hnone]
    exact ⟨List.nodup_nil, fun c hc => nomatch hc⟩
  · rw [if_neg hnone]
    obtain ⟨hnodup, hwithin, hlength⟩ := deterministicSample_spec (nodup_floorCells grid)
      neighborIds.length ((digests.sha256 regionId).val ^^^ 0xC2B2AE35)
    generalize deterministicSample (floorCells grid) neighborIds.length
      ((digests.sha256 regionId).val ^^^ 0xC2B2AE35) = picks at *
    have hcells : ((neighborIds.zip picks).map Prod.snd).Nodup := by
      rw [List.map_snd_zip]
      · exact hnodup
      · omega
    have hpair : ∀ p ∈ ((neighborIds.zip picks).foldl (fun d p => d.insert p.1 p.2)
        (Dict.empty (κ := String) (ν := Cell))).entries, p ∈ neighborIds.zip picks := by
      rintro ⟨r, c⟩ hmem
      rcases Dict.of_get?_foldl_insert (Dict.get?_eq_some_iff.mpr hmem) with hget | hmem
      · simp at hget
      · exact hmem
    constructor
    · refine List.Nodup.map_on (fun p hp q hq heq => ?_)
        (List.Nodup.of_map Prod.fst (Dict.nodup_keys _))
      exact List.inj_on_of_nodup_map hcells (hpair p hp) (hpair q hq) heq
    · intro c hc
      obtain ⟨p, hp, rfl⟩ := List.mem_map.mp hc
      exact hwithin p.2 (List.of_mem_zip (hpair p hp)).2

end Sidequest.Dungeon
