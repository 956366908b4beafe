import Mathlib.Data.List.Sort
import Mathlib.Data.String.Basic
import Sidequest.Lib.Spread
import Sidequest.Lib.PyString
import Sidequest.Tactical.Movement

namespace Sidequest.Tactical

open Lib

/-!
# Zones

The floor of a mask in zones: the parts of the open ground that hang together, each with the floor
nearest to it, and the floor that no open ground leads to, by what hangs together.

* `seedZones`, `nearZones`, `zoneOf` — the three floods;
* `projectZones_spec` — the projection of any mask is that.
-/

/-- How many of the four sides of a cell are floor. -/
def orthFloorCount (rows : Rows) (cell : Cell) : Nat :=
  [((1 : Int), (0 : Int)), (-1, 0), (0, 1), (0, -1)].countP
    (fun d => isFloor rows (cell.1 + d.1, cell.2 + d.2))

/-- A passage: no more than two of its sides are floor. -/
def isChoke (rows : Rows) (cell : Cell) : Bool := orthFloorCount rows cell ≤ 2

/-- The open ground. -/
def coreCells (rows : Rows) : List Cell := (floorCells rows).filter (fun cell => !isChoke rows cell)

/-- The open ground a king's move away. -/
def coreNeighbors (rows : Rows) (cell : Cell) : List Cell :=
  (neighbors rows cell).filter (fun c => !isChoke rows c)

def zoneName (zid : Nat) : String := "z" ++ toString zid

/-- The open ground by what hangs together, and how many names have been given. -/
def seedZones (rows : Rows) : Dict Cell String × Nat :=
  fill (coreNeighbors rows) (coreCells rows).length zoneName (coreCells rows) (Dict.empty, 0)

/-- By the name of the zone, then by row, then by column. -/
def seedBefore (seeds : Dict Cell String) (c d : Cell) : Prop :=
  let zone (cell : Cell) : String := (seeds.get? cell).getD ""
  zone c < zone d ∨ (zone c = zone d ∧ (c.2 < d.2 ∨ (c.2 = d.2 ∧ c.1 ≤ d.1)))

instance (seeds : Dict Cell String) : DecidableRel (seedBefore seeds) :=
  fun _ _ => inferInstanceAs (Decidable (_ ∨ (_ ∧ (_ ∨ (_ ∧ _)))))

/-- All floor that open ground leads to, by the zone it is nearest to. -/
def nearZones (rows : Rows) (seeds : Dict Cell String) : Dict Cell String :=
  spreadOwn (neighbors rows) (floorCells rows).length seeds
    (seeds.keys.insertionSort (seedBefore seeds))

/-- The zones of all floor. What no open ground leads to is named last. -/
def zoneOf (rows : Rows) : Dict Cell String :=
  let seeds := seedZones rows
  (fill (neighbors rows) (floorCells rows).length zoneName (floorCells rows)
    (nearZones rows seeds.1, seeds.2)).1

/-- The floor in zones, and the zones that touch. -/
structure ZoneProjection where
  zones : Dict String (Finset Cell)
  cellToZone : Dict Cell String
  adjacency : Dict String (Finset String)

/-- Put a cell into its zone. -/
def addToZone (zones : Dict String (Finset Cell)) (entry : Cell × String) :
    Dict String (Finset Cell) :=
  zones.insert entry.2 (insert entry.1 ((zones.get? entry.2).getD ∅))

/-- The pairs of different zones with cells a king's move apart. -/
def touching (rows : Rows) (zoneOf : Dict Cell String) : List (String × String) :=
  zoneOf.entries.flatMap (fun (cell, zone) =>
    (neighbors rows cell).filterMap (fun nb =>
      (zoneOf.get? nb).bind (fun other => if other ≠ zone then some (zone, other) else none)))

/-- Note that two zones touch, with both of them. -/
def joinZones (adjacency : Dict String (Finset String)) (pair : String × String) :
    Dict String (Finset String) :=
  (adjacency.modify pair.1 (insert pair.2)).modify pair.2 (insert pair.1)

/-- Project the floor of a mask into zones. -/
def projectZones (mask : String) : ZoneProjection :=
  let rows := parseMask mask
  if floorCells rows = [] then ⟨Dict.empty, Dict.empty, Dict.empty⟩
  else
    let cells := zoneOf rows
    let zones := cells.entries.foldl addToZone Dict.empty
    let alone := zones.keys.foldl (fun adjacency zone => adjacency.insert zone ∅) Dict.empty
    ⟨zones, cells, (touching rows cells).foldl joinZones alone⟩

/-! ### What a projection is for -/

/-- What a projection says about a mask: all floor is in just one zone, every zone hangs together,
    floor that open ground leads to is with the open ground it is nearest to, and the zones that
    touch are noted with each other. -/
structure ZonePartition (rows : Rows) (p : ZoneProjection) : Prop where
  /-- Every floor cell, and nothing else, has a zone. -/
  total : ∀ cell, isFloor rows cell = true ↔ ∃ zone, p.cellToZone.get? cell = some zone
  /-- It is in the zone it has, and in no other. -/
  zoned : ∀ cell zone, p.cellToZone.get? cell = some zone ↔
    ∃ cells, p.zones.get? zone = some cells ∧ cell ∈ cells
  /-- Any two cells of a zone are joined by king's moves in the zone. -/
  connected : ∀ zone cells, p.zones.get? zone = some cells → cells.Nonempty ∧
    ∀ a ∈ cells, ∀ b ∈ cells,
      Relation.ReflTransGen (fun u w => w ∈ neighbors rows u ∧ u ∈ cells ∧ w ∈ cells) a b
  /-- Open ground is in one zone exactly where it hangs together as open ground. -/
  cored : ∀ a ∈ coreCells rows, ∀ b ∈ coreCells rows,
    p.cellToZone.get? a = p.cellToZone.get? b ↔ Reaches (coreNeighbors rows) a b
  /-- Floor that open ground leads to has the zone of the open ground it is nearest to, and of
      equally near ones the least name. -/
  nearest : ∀ cell, (∃ k ∈ coreCells rows, Reaches (neighbors rows) k cell) →
    ∃ zone n, p.cellToZone.get? cell = some zone ∧
      (∃ k ∈ coreCells rows, p.cellToZone.get? k = some zone ∧ Walk (neighbors rows) n k cell) ∧
      ∀ k ∈ coreCells rows, ∀ other m, p.cellToZone.get? k = some other →
        Walk (neighbors rows) m k cell → n < m ∨ (n = m ∧ zone ≤ other)
  /-- Every zone has its neighbours noted. -/
  noted : ∀ zone, zone ∈ p.adjacency.keys ↔ zone ∈ p.zones.keys
  /-- The neighbours of a zone are the others that it touches. -/
  adjacent : ∀ zone others, p.adjacency.get? zone = some others → ∀ other, other ∈ others ↔
    zone ≠ other ∧ ∃ a b, p.cellToZone.get? a = some zone ∧ p.cellToZone.get? b = some other ∧
      b ∈ neighbors rows a
  /-- No zone is its own neighbour, and neighbours are noted with each other. -/
  paired : ∀ zone others, p.adjacency.get? zone = some others → zone ∉ others ∧
    ∀ other ∈ others, ∃ back, p.adjacency.get? other = some back ∧ zone ∈ back

/-! ### The floods -/

theorem zoneName_injective : Function.Injective zoneName := by
  intro m n h
  unfold zoneName at h
  rwa [String.append_right_inj, toString_inj] at h

section Floods

variable {rows : Rows}

theorem mem_coreCells_iff {cell : Cell} :
    cell ∈ coreCells rows ↔ isFloor rows cell = true ∧ isChoke rows cell = false := by
  unfold coreCells
  rw [List.mem_filter, mem_floorCells_iff]
  simp

theorem mem_coreNeighbors_iff {a b : Cell} :
    b ∈ coreNeighbors rows a ↔ b ∈ neighbors rows a ∧ isChoke rows b = false := by
  unfold coreNeighbors
  simp

theorem floor_closed : ∀ v ∈ floorCells rows, ∀ w ∈ neighbors rows v, w ∈ floorCells rows :=
  fun _ _ _ hw => mem_floorCells_iff.mpr (mem_neighbors_iff.mp hw).1

theorem floor_symm : ∀ u ∈ floorCells rows, ∀ w ∈ neighbors rows u, u ∈ neighbors rows w :=
  fun _ hu _ hw => mem_neighbors_comm (mem_floorCells_iff.mp hu) hw

theorem core_closed : ∀ v ∈ coreCells rows, ∀ w ∈ coreNeighbors rows v, w ∈ coreCells rows := by
  intro v _ w hw
  obtain ⟨hmem, hopen⟩ := mem_coreNeighbors_iff.mp hw
  exact mem_coreCells_iff.mpr ⟨(mem_neighbors_iff.mp hmem).1, hopen⟩

theorem core_symm : ∀ u ∈ coreCells rows, ∀ w ∈ coreNeighbors rows u, u ∈ coreNeighbors rows w := by
  intro u hu w hw
  obtain ⟨hfloor, hopen⟩ := mem_coreCells_iff.mp hu
  exact mem_coreNeighbors_iff.mpr
    ⟨mem_neighbors_comm hfloor (mem_coreNeighbors_iff.mp hw).1, hopen⟩

/-- Nothing is filled to begin with. -/
theorem filled_empty (adj : Cell → List Cell) (vertices : List Cell) :
    Filled adj vertices zoneName (Dict.empty, 0) :=
  ⟨fun v hv => absurd hv List.not_mem_nil, fun v hv => absurd hv List.not_mem_nil,
    fun v b h => absurd h (by simp), fun b u w h => absurd h (by simp)⟩

/-- **The open ground.** All of it is named, and nothing else, and it has one name where it hangs
    together. -/
theorem seedZones_spec (rows : Rows) :
    Filled (coreNeighbors rows) (coreCells rows) zoneName (seedZones rows) ∧
      (∀ v, v ∈ (seedZones rows).1.keys ↔ v ∈ coreCells rows) ∧
      Uniform (coreNeighbors rows) (seedZones rows).1 := by
  obtain ⟨hfilled, -, hall, huniform⟩ := filled_fill core_closed core_symm zoneName_injective
    (fun v hv => hv) (filled_empty (coreNeighbors rows) (coreCells rows))
  exact ⟨hfilled, fun v => ⟨hfilled.within v, hall v⟩, huniform (fun v w b c _ h => nomatch h)⟩

instance (seeds : Dict Cell String) : Std.Total (seedBefore seeds) where
  total c d := by
    unfold seedBefore
    dsimp only
    rcases lt_trichotomy ((seeds.get? c).getD "") ((seeds.get? d).getD "") with hlt | heq | hlt
    · exact .inl (.inl hlt)
    · rw [heq]
      have hcell : (c.2 < d.2 ∨ (c.2 = d.2 ∧ c.1 ≤ d.1)) ∨ d.2 < c.2 ∨ (d.2 = c.2 ∧ d.1 ≤ c.1) := by
        omega
      exact hcell.imp (fun h => .inr ⟨rfl, h⟩) (fun h => .inr ⟨rfl, h⟩)
    · exact .inr (.inl hlt)

instance (seeds : Dict Cell String) : IsTrans Cell (seedBefore seeds) where
  trans c d e hcd hde := by
    unfold seedBefore at *
    rcases hcd with hcd | ⟨hcd, hcell⟩
    · rcases hde with hde | ⟨hde, -⟩
      · exact .inl (lt_trans hcd hde)
      · exact .inl (hde ▸ hcd)
    · rcases hde with hde | ⟨hde, hcell'⟩
      · exact .inl (hcd ▸ hde)
      · exact .inr ⟨hcd.trans hde, by omega⟩

/-- **The floor near open ground** is named after it. -/
theorem nearZones_spec (rows : Rows) :
    Spreading (neighbors rows) (floorCells rows) (seedZones rows).1
        (nearZones rows (seedZones rows).1) [] ∧
      AllLinked (neighbors rows) (nearZones rows (seedZones rows).1) ∧
      ∀ v b, (nearZones rows (seedZones rows).1).get? v = some b ↔
        ∃ n, Nearest (neighbors rows) (seedZones rows).1 v n b := by
  obtain ⟨hfilled, hkeys, -⟩ := seedZones_spec rows
  refine spread_nearest floor_closed floor_symm (fun v hv => ?_) (fun b u w hu hw => ?_)
    (List.perm_insertionSort _ _) ?_
  · exact mem_floorCells_iff.mpr (mem_coreCells_iff.mp ((hkeys v).mp hv)).1
  · exact (hfilled.linked b u w hu hw).mono (fun _ _ h => (mem_coreNeighbors_iff.mp h).1)
      (fun _ _ h => h)
  · refine (List.pairwise_insertionSort (seedBefore (seedZones rows).1) _).imp (fun {u w} h b c hu hw => ?_)
    unfold seedBefore at h
    dsimp only at h
    rw [hu, hw, Option.getD_some, Option.getD_some] at h
    rcases h with hlt | ⟨heq, -⟩
    · exact le_of_lt hlt
    · exact le_of_eq heq

/-- **All floor** has a name, and floor that has one name hangs together; what open ground leads to
    keeps its name. -/
theorem zoneOf_spec (rows : Rows) : (∀ v, v ∈ (zoneOf rows).keys ↔ isFloor rows v = true) ∧
      AllLinked (neighbors rows) (zoneOf rows) ∧
      ∀ v b, (nearZones rows (seedZones rows).1).get? v = some b →
        (zoneOf rows).get? v = some b := by
  obtain ⟨hspreading, hlinked, hnearest⟩ := nearZones_spec rows
  have hbegin : Filled (neighbors rows) (floorCells rows) zoneName
      (nearZones rows (seedZones rows).1, (seedZones rows).2) := by
    refine ⟨hspreading.within, fun v hv => ?_, fun v b hv => ?_, hlinked⟩
    · exact (hspreading.settled v hv).resolve_left List.not_mem_nil
    · obtain ⟨n, hn⟩ := (hnearest v b).mp hv
      obtain ⟨s, hs, -⟩ := hn.walk
      exact (seedZones_spec rows).1.counted s b hs
  obtain ⟨hfilled, hkept, hall, -⟩ := filled_fill floor_closed floor_symm zoneName_injective
    (fun v hv => hv) hbegin
  refine ⟨fun v => ?_, hfilled.linked, hkept⟩
  rw [← mem_floorCells_iff]
  exact ⟨hfilled.within v, hall v⟩

/-- Open ground keeps its name. -/
theorem zoneOf_core (rows : Rows) (k : Cell) (b : String) :
    (seedZones rows).1.get? k = some b ↔ k ∈ coreCells rows ∧ (zoneOf rows).get? k = some b := by
  have hkept : ∀ v c, (seedZones rows).1.get? v = some c → (zoneOf rows).get? v = some c :=
    fun v c hv => (zoneOf_spec rows).2.2 v c ((nearZones_spec rows).1.kept v c hv)
  have hkeys := (seedZones_spec rows).2.1
  constructor
  · intro h
    exact ⟨(hkeys k).mp (Dict.mem_keys_of_get? h), hkept k b h⟩
  · rintro ⟨hcore, h⟩
    obtain ⟨c, hc⟩ := Dict.mem_keys_iff_get?.mp ((hkeys k).mpr hcore)
    rw [hkept k c hc] at h
    rw [← h]
    exact hc

/-- **Open ground** is in one zone exactly where it hangs together. -/
theorem zoneOf_eq_iff {a b : Cell} (ha : a ∈ coreCells rows) (hb : b ∈ coreCells rows) :
    (zoneOf rows).get? a = (zoneOf rows).get? b ↔ Reaches (coreNeighbors rows) a b := by
  obtain ⟨hfilled, hkeys, huniform⟩ := seedZones_spec rows
  have hnamed : ∀ c ∈ coreCells rows, ∃ z, (seedZones rows).1.get? c = some z ∧
      (zoneOf rows).get? c = some z := by
    intro c hc
    obtain ⟨z, hz⟩ := Dict.mem_keys_iff_get?.mp ((hkeys c).mpr hc)
    exact ⟨z, hz, ((zoneOf_core rows c z).mp hz).2⟩
  obtain ⟨x, hx, hxzone⟩ := hnamed a ha
  constructor
  · intro hsame
    obtain ⟨y, hy, hyzone⟩ := hnamed b hb
    rw [hxzone, hyzone] at hsame
    cases hsame
    exact Relation.ReflTransGen.mono (fun _ _ hstep => hstep.1) _ _ (hfilled.linked x a b hx hy)
  · intro hpath
    have halong : b ∈ coreCells rows ∧ (seedZones rows).1.get? b = some x := by
      clear hb
      induction hpath with
      | refl => exact ⟨ha, hx⟩
      | @tail c d _ hstep ih =>
        have hd := core_closed c ih.1 d hstep
        obtain ⟨y, hy, -⟩ := hnamed d hd
        rw [huniform c d x y hstep ih.2 hy]
        exact ⟨hd, hy⟩
    rw [hxzone, ((zoneOf_core rows b x).mp halong.2).2]

/-- **Floor that open ground leads to** has the nearest name. -/
theorem zoneOf_nearest {k cell : Cell} (hk : k ∈ coreCells rows)
    (hpath : Reaches (neighbors rows) k cell) : ∃ zone n, (zoneOf rows).get? cell = some zone ∧
      (∃ k ∈ coreCells rows, (zoneOf rows).get? k = some zone ∧ Walk (neighbors rows) n k cell) ∧
      ∀ k ∈ coreCells rows, ∀ other m, (zoneOf rows).get? k = some other →
        Walk (neighbors rows) m k cell → n < m ∨ (n = m ∧ zone ≤ other) := by
  obtain ⟨hspreading, -, hnearest⟩ := nearZones_spec rows
  have hlabelled : cell ∈ (nearZones rows (seedZones rows).1).keys := by
    induction hpath with
    | refl =>
      obtain ⟨z, hz⟩ := Dict.mem_keys_iff_get?.mp (((seedZones_spec rows).2.1 k).mpr hk)
      exact Dict.mem_keys_of_get? (hspreading.kept k z hz)
    | tail _ hstep ih => exact (hspreading.settled _ ih).resolve_left List.not_mem_nil _ hstep
  obtain ⟨zone, hzone⟩ := Dict.mem_keys_iff_get?.mp hlabelled
  obtain ⟨n, hn⟩ := (hnearest cell zone).mp hzone
  obtain ⟨s, hs, hwalk⟩ := hn.walk
  refine ⟨zone, n, (zoneOf_spec rows).2.2 cell zone hzone, ⟨s, ?_⟩, fun k' hk' other m hother hwalk' => ?_⟩
  · obtain ⟨hcore, hname⟩ := (zoneOf_core rows s zone).mp hs
    exact ⟨hcore, hname, hwalk⟩
  · exact hn.least k' other m ((zoneOf_core rows k' other).mpr ⟨hk', hother⟩) hwalk'

end Floods

/-! ### The zones and what touches -/

/-- Cells are put into their zones. -/
theorem mem_foldl_addToZone (entries : List (Cell × String)) (zones : Dict String (Finset Cell))
    (zone : String) (cell : Cell) :
    (∃ cells, (entries.foldl addToZone zones).get? zone = some cells ∧ cell ∈ cells) ↔
      (∃ cells, zones.get? zone = some cells ∧ cell ∈ cells) ∨ (cell, zone) ∈ entries := by
  induction entries generalizing zones with
  | nil => simp
  | cons entry entries ih =>
    obtain ⟨c, z⟩ := entry
    have hone : (∃ cells, (addToZone zones (c, z)).get? zone = some cells ∧ cell ∈ cells) ↔
        (∃ cells, zones.get? zone = some cells ∧ cell ∈ cells) ∨ (cell, zone) = (c, z) := by
      unfold addToZone
      rw [Dict.get?_insert]
      by_cases hz : zone = z
      · rw [if_pos hz, hz]
        cases hget : zones.get? z <;> simp [or_comm]
      · simp [hz]
    rw [List.foldl_cons, ih, hone, List.mem_cons, or_assoc]

theorem nonempty_foldl_addToZone (entries : List (Cell × String)) (zones : Dict String (Finset Cell))
    (hzones : ∀ zone cells, zones.get? zone = some cells → cells.Nonempty) (zone : String)
    (cells : Finset Cell) (h : (entries.foldl addToZone zones).get? zone = some cells) :
    cells.Nonempty := by
  induction entries generalizing zones with
  | nil => exact hzones zone cells h
  | cons entry entries ih =>
    refine ih (addToZone zones entry) (fun z cs hcs => ?_) h
    unfold addToZone at hcs
    rw [Dict.get?_insert] at hcs
    split_ifs at hcs
    · cases hcs
      exact Finset.insert_nonempty _ _
    · exact hzones z cs hcs

theorem keys_foldl_joinZones (pairs : List (String × String))
    (adjacency : Dict String (Finset String)) :
    (pairs.foldl joinZones adjacency).keys = adjacency.keys := by
  induction pairs generalizing adjacency with
  | nil => rfl
  | cons pair pairs ih =>
    rw [List.foldl_cons, ih]
    unfold joinZones
    rw [Dict.keys_modify, Dict.keys_modify]

variable {others : Finset String} {zone : String}

theorem get?_modify_insert {adjacency : Dict String (Finset String)}
    (h : adjacency.get? zone = some others) (p q : String) :
    ∃ more, (adjacency.modify p (insert q)).get? zone = some more ∧
      ∀ other, other ∈ more ↔ other ∈ others ∨ (zone = p ∧ other = q) := by
  rw [Dict.get?_modify]
  by_cases hp : zone = p
  · rw [if_pos hp, ← hp, h]
    exact ⟨insert q others, rfl, fun other => by rw [Finset.mem_insert]; tauto⟩
  · rw [if_neg hp]
    exact ⟨others, h, fun other => by tauto⟩

/-- Pairs are noted with both of their zones. -/
theorem get?_foldl_joinZones (pairs : List (String × String))
    {adjacency : Dict String (Finset String)} (h : adjacency.get? zone = some others) :
    ∃ all, (pairs.foldl joinZones adjacency).get? zone = some all ∧ ∀ other, other ∈ all ↔
      other ∈ others ∨ (zone, other) ∈ pairs ∨ (other, zone) ∈ pairs := by
  induction pairs generalizing adjacency others with
  | nil => exact ⟨others, h, by simp⟩
  | cons pair pairs ih =>
    obtain ⟨p, q⟩ := pair
    obtain ⟨some', hsome, hfirst⟩ := get?_modify_insert h p q
    obtain ⟨more, hmore, hsecond⟩ := get?_modify_insert hsome q p
    obtain ⟨all, hall, hrest⟩ := ih hmore
    refine ⟨all, hall, fun other => ?_⟩
    rw [hrest, hsecond, hfirst, List.mem_cons, List.mem_cons, Prod.mk.injEq, Prod.mk.injEq]
    tauto

theorem mem_touching_iff {rows : Rows} {zones : Dict Cell String} {other : String} :
    (zone, other) ∈ touching rows zones ↔ zone ≠ other ∧
      ∃ a b, zones.get? a = some zone ∧ zones.get? b = some other ∧ b ∈ neighbors rows a := by
  unfold touching
  rw [List.mem_flatMap]
  constructor
  · rintro ⟨⟨a, z⟩, ha, hpair⟩
    obtain ⟨b, hb, hbind⟩ := List.mem_filterMap.mp hpair
    obtain ⟨o, ho, hsome⟩ := Option.bind_eq_some_iff.mp hbind
    rw [Option.ite_none_right_eq_some, Option.some.injEq, Prod.mk.injEq] at hsome
    obtain ⟨hne, rfl, rfl⟩ := hsome
    exact ⟨hne.symm, a, b, Dict.get?_eq_some_iff.mpr ha, ho, hb⟩
  · rintro ⟨hne, a, b, ha, hb, hmem⟩
    refine ⟨(a, zone), Dict.get?_eq_some_iff.mp ha, List.mem_filterMap.mpr ⟨b, hmem, ?_⟩⟩
    rw [hb, Option.bind_some, if_pos hne.symm]

theorem mem_adjacency_iff {rows : Rows} {cells : Dict Cell String} {zones : List String}
    (hfloor : ∀ {cell zone}, cells.get? cell = some zone → isFloor rows cell = true)
    (h : ((touching rows cells).foldl joinZones (zones.foldl (fun adjacency zone =>
      adjacency.insert zone ∅) Dict.empty)).get? zone = some others) (other : String) :
    other ∈ others ↔ zone ≠ other ∧ ∃ a b, cells.get? a = some zone ∧ cells.get? b = some other ∧
      b ∈ neighbors rows a := by
  have hkey := Dict.mem_keys_of_get? h
  rw [keys_foldl_joinZones] at hkey
  obtain ⟨start, hstart⟩ := Dict.mem_keys_iff_get?.mp hkey
  obtain ⟨all, hall, hmem⟩ := get?_foldl_joinZones (touching rows cells) hstart
  rw [h] at hall
  cases hall
  rw [Dict.get?_foldl_insert_same] at hstart
  split_ifs at hstart
  · cases hstart
    rw [hmem, mem_touching_iff, mem_touching_iff]
    constructor
    · rintro (hnone | htouch | ⟨hne, a, b, ha, hb, hstep⟩)
      · exact absurd hnone (Finset.notMem_empty other)
      · exact htouch
      · exact ⟨hne.symm, b, a, hb, ha, mem_neighbors_comm (hfloor ha) hstep⟩
    · intro htouch
      exact .inr (.inl htouch)
  · simp at hstart

/-- A projection, whether there is floor or not. -/
theorem projectZones_eq (mask : String) : projectZones mask =
    let cells := zoneOf (parseMask mask)
    let zones := cells.entries.foldl addToZone Dict.empty
    ⟨zones, cells, (touching (parseMask mask) cells).foldl joinZones
      (zones.keys.foldl (fun adjacency zone => adjacency.insert zone ∅) Dict.empty)⟩ := by
  unfold projectZones
  by_cases hfloor : floorCells (parseMask mask) = []
  · have hempty : (zoneOf (parseMask mask)) = Dict.empty := by
      apply Dict.ext
      have hkeys : (zoneOf (parseMask mask)).keys = [] := by
        rw [List.eq_nil_iff_forall_not_mem]
        intro v hv
        rw [(zoneOf_spec (parseMask mask)).1, ← mem_floorCells_iff, hfloor] at hv
        exact List.not_mem_nil hv
      exact List.map_eq_nil_iff.mp hkeys
    rw [if_pos hfloor, hempty]
    rfl
  · rw [if_neg hfloor]

/-- **Zones.** The projection of a mask is a partition of its floor, in zones that hang together,
    with the floor near open ground where it is nearest. -/
theorem projectZones_spec (mask : String) : ZonePartition (parseMask mask) (projectZones mask) := by
  rw [projectZones_eq]
  generalize hrows : parseMask mask = rows
  obtain ⟨hkeys, hlinked, hkept⟩ := zoneOf_spec rows
  have hfloor : ∀ {cell zone}, (zoneOf rows).get? cell = some zone → isFloor rows cell = true :=
    fun h => (hkeys _).mp (Dict.mem_keys_of_get? h)
  -- the cells are sorted into their zones, none lost and none twice
  have hzoned : ∀ cell zone, (zoneOf rows).get? cell = some zone ↔
      ∃ cells, ((zoneOf rows).entries.foldl addToZone Dict.empty).get? zone = some cells ∧
        cell ∈ cells := by
    intro cell zone
    rw [mem_foldl_addToZone, Dict.get?_eq_some_iff]
    simp
  have hin : ∀ {zone cells}, ((zoneOf rows).entries.foldl addToZone Dict.empty).get? zone
      = some cells → ∀ cell, cell ∈ cells ↔ (zoneOf rows).get? cell = some zone := by
    intro zone cells hcells cell
    rw [hzoned]
    constructor
    · intro hmem
      exact ⟨cells, hcells, hmem⟩
    · rintro ⟨cells', hcells', hmem⟩
      rw [hcells] at hcells'
      rwa [Option.some.inj hcells']
  -- every zone has an entry, also one that touches no other
  have hnoted : ∀ zone, zone ∈ ((touching rows (zoneOf rows)).foldl joinZones
      (((zoneOf rows).entries.foldl addToZone Dict.empty).keys.foldl (fun adjacency zone =>
        adjacency.insert zone ∅) Dict.empty)).keys ↔
      zone ∈ ((zoneOf rows).entries.foldl addToZone Dict.empty).keys := by
    intro zone
    rw [keys_foldl_joinZones, Dict.mem_keys_iff_get?, Dict.get?_foldl_insert_same]
    split_ifs with hzone
    · exact iff_of_true ⟨∅, rfl⟩ hzone
    · exact iff_of_false (by simp) hzone
  refine ⟨fun cell => ?_, hzoned, fun zone cells hcells => ⟨?_, fun a ha b hb => ?_⟩,
    fun a ha b hb => ?_, ?_, fun zone => ?_, ?_, ?_⟩
  · rw [← hkeys, Dict.mem_keys_iff_get?]
  · exact nonempty_foldl_addToZone _ _ (fun z cs h => by simp at h) zone cells hcells
  · have hpath := hlinked zone a b ((hin hcells a).mp ha) ((hin hcells b).mp hb)
    refine Relation.ReflTransGen.mono (fun u w hstep => ?_) _ _ hpath
    exact ⟨hstep.1, (hin hcells u).mpr hstep.2.1, (hin hcells w).mpr hstep.2.2⟩
  · exact zoneOf_eq_iff ha hb
  · rintro cell ⟨k, hk, hpath⟩
    exact zoneOf_nearest hk hpath
  · exact hnoted zone
  · intro zone others hothers other
    exact mem_adjacency_iff hfloor hothers other
  · intro zone others hothers
    refine ⟨fun hself => ((mem_adjacency_iff hfloor hothers zone).mp hself).1 rfl,
      fun other hother => ?_⟩
    obtain ⟨hne, a, b, ha, hb, hstep⟩ := (mem_adjacency_iff hfloor hothers other).mp hother
    obtain ⟨cells, hcells, -⟩ := (hzoned b other).mp hb
    obtain ⟨back, hback⟩ := Dict.mem_keys_iff_get?.mp
      ((hnoted other).mpr (Dict.mem_keys_of_get? hcells))
    exact ⟨back, hback, (mem_adjacency_iff hfloor hback zone).mpr
      ⟨hne.symm, b, a, hb, ha, mem_neighbors_comm (hfloor ha) hstep⟩⟩

/-- The neck between two rooms is as near to one as to the other: the lesser name has it. -/
example : (projectZones "...#...\n.......\n...#...").cellToZone.get? (3, 1) = some "z0" := by
  decide +kernel

end Sidequest.Tactical
