import Sidequest.Dungeon.RegionGraph
import Sidequest.Lib.Except
import Sidequest.Lib.PyString

namespace Sidequest.Dungeon

open Lib

/-!
# Finding the way

What a player says of a move is matched with the ways out of the region, deterministically: a
bearing first, then a position, then the words of a description, and last the coarse direction.

* `tokens` — the words of a text;
* `error_of_resolve` — only the way toward the exit can raise, on a map without entrance.
-/

/-- What the Unicode tables and the hash say. -/
structure Reading where
  lower : String → String
  digest : String → Nat

variable (reading : Reading)

/-! ### Words -/

/-- Cut a text into its runs of letters from a to z. -/
def letterRuns : List Char → List (List Char)
  | [] => [[]]
  | c :: cs =>
    match letterRuns cs with
    | [] => [[]]
    | run :: runs =>
      if 'a' ≤ c ∧ c ≤ 'z' then (c :: run) :: runs else [] :: run :: runs

variable (text : String)

/-- The words of a text, in its order. -/
def tokens : List String :=
  ((letterRuns (reading.lower text).toList).filter (· ≠ [])).map String.ofList

/-- How many words two texts share. -/
def overlap (want surface : List String) : Nat := (want.dedup.filter (· ∈ surface)).length

/-- Whether a text says nothing. -/
def isBlank : Bool := (stripChars text.toList).isEmpty

/-! ### Bearings -/

/-- The words that name a bearing. -/
def bearingSynonyms : List (String × List String) :=
  [("north", ["north", "northern", "northward"]),
    ("east", ["east", "eastern", "eastward"]),
    ("south", ["south", "southern", "southward"]),
    ("west", ["west", "western", "westward"]),
    ("northeast", ["northeast", "northeastern", "northeastward"]),
    ("southeast", ["southeast", "southeastern", "southeastward"]),
    ("southwest", ["southwest", "southwestern", "southwestward"]),
    ("northwest", ["northwest", "northwestern", "northwestward"]),
    ("down", ["down", "downward", "descend", "below", "lower", "downstairs"]),
    ("up", ["up", "upward", "ascend", "above", "upstairs"])]

/-- All bearing words, the longer ones first. -/
def allBearingWords : List (String × String) :=
  (bearingSynonyms.flatMap (fun entry => entry.2.map (fun word => (word, entry.1)))).insertionSort
    (fun a b => b.1.length ≤ a.1.length)

/-- The bearing the words name. -/
def requestedBearing : Option String :=
  (allBearingWords.find? (fun entry => entry.1 ∈ tokens reading text)).map Prod.snd

/-! ### Positions -/

/-- The words for each kind of way; a secret way has none. -/
def kindSynonyms : List (String × List String) :=
  [("shaft", ["down", "drop", "shaft", "chute"]),
    ("chute", ["down", "drop", "shaft", "chute"]),
    ("stairs", ["stair", "stairs", "up", "down", "descend"]),
    ("corridor", ["corridor", "hall", "passage", "tunnel"]),
    ("secret", [])]

/-- The words for a kind. -/
def synonymsOf (kind : String) : List String :=
  ((kindSynonyms.find? (fun entry => entry.1 = kind)).map Prod.snd).getD []

/-- How a kind ranks on the way down. -/
def deeperKindRank (kind : String) : Nat :=
  if kind = "shaft" then 0 else if kind = "chute" then 1 else if kind = "stairs" then 2
  else if kind = "corridor" then 3 else if kind = "secret" then 4 else 99

/-- The index a positional word stands for; a negative one counts from the right. -/
def ordinalIndex? (word : String) : Option Int :=
  if word = "first" ∨ word = "leftmost" then some 0
  else if word = "second" then some 1
  else if word = "third" then some 2
  else if word = "fourth" then some 3
  else if word = "fifth" then some 4
  else if word = "last" ∨ word = "rightmost" then some (-1)
  else none

/-- The words for the middle. -/
def middleWords : List String := ["middle", "middlemost", "centre", "center", "central"]

/-- The rank of a bearing from left to right. -/
def bearingLrRank (bearing : String) : Nat :=
  if bearing = "west" then 0
  else if bearing = "northwest" ∨ bearing = "southwest" then 1
  else if bearing = "northeast" ∨ bearing = "southeast" then 3
  else if bearing = "east" then 4
  else 2

/-- Python's indexing: an index from the left, or a negative one from the right. -/
def pyIndex {α : Type} (l : List α) (i : Int) : Option α :=
  if 0 ≤ i then l[i.toNat]? else if -(l.length : Int) ≤ i then l[(l.length + i).toNat]? else none

variable (graph : RegionGraph) (ordered : List RegionExit)

/-- The ways a position can count: no secret ones, and those of the kinds that are named, if there
    are any. -/
def selectable (words : List String) : List RegionExit :=
  let visible := ordered.filter (fun e => e.kind ≠ "secret")
  let kinds := (kindSynonyms.filter (fun entry =>
    entry.1 ≠ "secret" ∧ entry.2.any (· ∈ words))).map Prod.fst
  let ofKind := visible.filter (fun e => e.kind ∈ kinds)
  if kinds ≠ [] ∧ ofKind ≠ [] then ofKind else visible

variable (fromDepth : Option ℚ) (direction : String) (discoveredRegions : List String)
  (exitDescriptor : String)

/-- Read a description as a position. The second component says whether it names one; a position
    past the last way is no match. -/
def resolveOrdinal : Option RegionExit × Bool :=
  let words := tokens reading exitDescriptor
  let word := words.findSome? ordinalIndex?
  if word = none ∧ ¬ words.any (· ∈ middleWords) then (none, false)
  else
    let lr := (selectable ordered words).insertionSort
      (fun a b => toLex (bearingLrRank a.bearing, a.toRegionId)
        ≤ toLex (bearingLrRank b.bearing, b.toRegionId))
    if lr = [] then (none, true)
    else (pyIndex lr (word.getD (lr.length / 2 : Nat)), true)

/-! ### Directions -/

/-- The ways with a key each, the least key first. -/
def sortKeyed {κ : Type} [LinearOrder κ] (ways : List (κ × RegionExit)) : List (κ × RegionExit) :=
  ways.insertionSort (fun a b => a.1 ≤ b.1)

/-- The way with the least key. -/
def best {κ : Type} [LinearOrder κ] (ways : List (κ × RegionExit)) : Option RegionExit :=
  (sortKeyed ways).head?.map Prod.snd

/-- The ways down, the greatest step first. -/
def deeperWays (ordered : List RegionExit) : List ((ℚ ×ₗ Nat ×ₗ String) × RegionExit) :=
  let cur := fromDepth.getD 0
  ordered.filterMap (fun e =>
    match graph.depthOf? e.toRegionId with
    | none => none
    | some depth =>
      if depth ≤ cur then none
      else some (toLex (-(depth - cur), toLex (deeperKindRank e.kind, e.toRegionId)), e))

/-- When a region was discovered last. -/
def recency (regionId : String) : Option Nat :=
  if regionId ∈ discoveredRegions then
    some (discoveredRegions.length - 1 - discoveredRegions.reverse.idxOf regionId)
  else none

/-- The ways back, the shallowest first, and of these the one discovered last. -/
def backWays (ordered : List RegionExit) : List ((ℚ ×ₗ Int ×ₗ String) × RegionExit) :=
  ordered.filterMap (fun e => (recency discoveredRegions e.toRegionId).map (fun i =>
    (toLex ((graph.depthOf? e.toRegionId).getD 0, toLex (-(i : Int), e.toRegionId)), e)))

/-- The ways toward the entrance, the nearest first. -/
def exitWays (dist : Dict String Nat) (ordered : List RegionExit) :
    List ((Nat ×ₗ String) × RegionExit) :=
  ordered.filterMap (fun e => (dist.get? e.toRegionId).map (fun d => (toLex (d, e.toRegionId), e)))

/-- What a resolution comes to: the way, how it was found, and whether several were meant. -/
structure Resolved where
  chosen : Option RegionExit
  via : String
  ambiguous : Bool := false

/-- Resolve a coarse direction. The way toward the exit raises on a map without entrance. -/
def resolveDirection (ordered : List RegionExit) : Except GraphError Resolved :=
  if direction = "deeper" then
    .ok { chosen := best (deeperWays graph fromDepth ordered), via := "depth_delta" }
  else if direction = "back" then
    .ok { chosen := best (backWays graph discoveredRegions ordered), via := "depth_delta" }
  else if direction = "toward_exit" then do
    let dist ← graph.bfsDist graph.entranceId none []
    .ok { chosen := best (exitWays dist ordered), via := "bfs_to_exit" }
  else .ok { chosen := none, via := "depth_delta" }

/-! ### The way that was meant -/

/-- A named bearing picks the one way that has it. -/
def bearingPick (direction : String) : Option RegionExit :=
  match (requestedBearing reading exitDescriptor).or (requestedBearing reading direction) with
  | none => none
  | some bearing =>
    match ordered.filter (fun e => e.bearing = bearing) with
    | [e] => some e
    | _ => none

/-- The ways a description shares words with, the best first; a secret way is not described. -/
def scoreExits : List ((Int ×ₗ String) × RegionExit) :=
  sortKeyed (ordered.filterMap (fun e =>
    let score := overlap (tokens reading exitDescriptor)
      (tokens reading e.toRegionId ++ synonymsOf e.kind)
    if e.kind = "secret" ∨ score = 0 then none
    else some (toLex (-(score : Int), e.toRegionId), e)))

/-- Resolve without a description. -/
def resolveCoarse (ordered : List RegionExit) : Except GraphError Resolved :=
  match bearingPick reading ordered "" direction with
  | some e => .ok { chosen := some e, via := "bearing" }
  | none => resolveDirection graph fromDepth direction discoveredRegions ordered

/-- Resolve by the words of a description; one that matches nothing leaves the direction. -/
def resolveDescribed (discoveredRegions : List String) (ordered : List RegionExit) :
    Except GraphError Resolved :=
  match scoreExits reading ordered exitDescriptor with
  | [] =>
    if direction = "deeper" ∨ direction = "back" ∨ direction = "toward_exit" then do
      let coarse ← resolveCoarse reading graph fromDepth direction discoveredRegions ordered
      .ok { coarse with via := "descriptor_fallback_" ++ coarse.via }
    else .ok { chosen := none, via := "descriptor_match" }
  | [first] => .ok { chosen := some first.2, via := "descriptor_match" }
  | first :: second :: _ =>
    if (ofLex first.1).1 = (ofLex second.1).1 then
      .ok { chosen := none, via := "descriptor_match", ambiguous := true }
    else .ok { chosen := some first.2, via := "descriptor_match" }

/-- Resolve an intent against the ways there are. -/
def resolve (candidates : List RegionExit) (graph : RegionGraph) (fromDepth : Option ℚ)
    (direction exitDescriptor : String) (discoveredRegions : List String) :
    Except GraphError Resolved :=
  let ordered := candidates.insertionSort (fun a b => a.toRegionId ≤ b.toRegionId)
  match bearingPick reading ordered exitDescriptor direction with
  | some e => .ok { chosen := some e, via := "bearing" }
  | none =>
    if isBlank exitDescriptor then
      resolveDirection graph fromDepth direction discoveredRegions ordered
    else match resolveOrdinal reading ordered exitDescriptor with
      | (some e, _) => .ok { chosen := some e, via := "ordinal" }
      | (none, true) => .ok { chosen := none, via := "ordinal" }
      | (none, false) =>
        resolveDescribed reading graph fromDepth direction exitDescriptor discoveredRegions ordered

/-! ### It is one of the ways there are -/

variable {e : RegionExit}

theorem mem_of_best {κ : Type} [LinearOrder κ] {ways : List (κ × RegionExit)}
    (h : best ways = some e) : ∃ key, (key, e) ∈ ways := by
  obtain ⟨way, hway, rfl⟩ := Option.map_eq_some_iff.mp h
  have hmem : way ∈ sortKeyed ways := List.mem_of_mem_head? hway
  exact ⟨way.1, (List.mem_insertionSort _).mp hmem⟩

theorem le_of_best {κ : Type} [LinearOrder κ] {ways : List (κ × RegionExit)}
    (h : best ways = some e) : ∃ key, (key, e) ∈ ways ∧ ∀ way ∈ ways, key ≤ way.1 := by
  obtain ⟨first, hfirst, rfl⟩ := Option.map_eq_some_iff.mp h
  obtain ⟨rest, hsorted⟩ : ∃ rest, sortKeyed ways = first :: rest :=
    ⟨_, List.eq_cons_of_mem_head? hfirst⟩
  have hpairwise : (sortKeyed ways).Pairwise (fun a b => a.1 ≤ b.1) :=
    List.pairwise_insertionSort (fun a b : κ × RegionExit => a.1 ≤ b.1) ways
  have hmem : ∀ way, way ∈ ways ↔ way ∈ first :: rest := fun way => by
    rw [← hsorted]
    exact (List.mem_insertionSort _).symm
  rw [hsorted] at hpairwise
  refine ⟨first.1, (hmem first).mpr (.head _), fun way hway => ?_⟩
  rcases List.mem_cons.mp ((hmem way).mp hway) with rfl | hway
  · exact le_rfl
  · exact (List.pairwise_cons.mp hpairwise).1 way hway

theorem best_eq_none_iff {κ : Type} [LinearOrder κ] {ways : List (κ × RegionExit)} :
    best ways = none ↔ ways = [] := by
  unfold best sortKeyed
  rw [Option.map_eq_none_iff, List.head?_eq_none_iff, ← List.length_eq_zero_iff,
    List.length_insertionSort, List.length_eq_zero_iff]

variable {ordered : List RegionExit}

theorem mem_of_bearingPick {exitDescriptor direction : String}
    (h : bearingPick reading ordered exitDescriptor direction = some e) : e ∈ ordered := by
  unfold bearingPick at h
  split at h
  · cases h
  · split at h
    · rename_i x hx
      obtain rfl := Option.some.inj h
      exact List.mem_of_mem_filter (hx ▸ List.mem_singleton_self x)
    · cases h

theorem mem_of_pyIndex {α : Type} {l : List α} {i : Int} {x : α} (h : pyIndex l i = some x) :
    x ∈ l := by
  unfold pyIndex at h
  split_ifs at h
  · exact List.mem_of_getElem? h
  · exact List.mem_of_getElem? h

theorem mem_of_mem_selectable {words : List String} (h : e ∈ selectable ordered words) :
    e ∈ ordered := by
  unfold selectable at h
  dsimp only at h
  split_ifs at h
  · exact List.mem_of_mem_filter (List.mem_of_mem_filter h)
  · exact List.mem_of_mem_filter h

theorem mem_of_resolveOrdinal {exitDescriptor : String} {named : Bool}
    (h : resolveOrdinal reading ordered exitDescriptor = (some e, named)) : e ∈ ordered := by
  unfold resolveOrdinal at h
  dsimp only at h
  split_ifs at h
  · cases h
  · cases h
  · exact mem_of_mem_selectable ((List.mem_insertionSort _).mp (mem_of_pyIndex (Prod.mk.inj h).1))

variable {discoveredRegions : List String}

theorem mem_of_resolveDirection {graph : RegionGraph} {fromDepth : Option ℚ} {direction : String}
    {r : Resolved}
    (h : resolveDirection graph fromDepth direction discoveredRegions ordered = .ok r)
    (he : r.chosen = some e) : e ∈ ordered := by
  unfold resolveDirection at h
  split_ifs at h
  · cases h
    obtain ⟨key, hkey⟩ := mem_of_best he
    obtain ⟨x, hx, hsome⟩ := List.mem_filterMap.mp hkey
    split at hsome
    · cases hsome
    · split_ifs at hsome
      rwa [← (Prod.mk.inj (Option.some.inj hsome)).2]
  · cases h
    obtain ⟨key, hkey⟩ := mem_of_best he
    obtain ⟨x, hx, hsome⟩ := List.mem_filterMap.mp hkey
    obtain ⟨i, -, hi⟩ := Option.map_eq_some_iff.mp hsome
    rwa [← (Prod.mk.inj hi).2]
  · obtain ⟨dist, -, hok⟩ := bind_eq_ok.mp h
    cases hok
    obtain ⟨key, hkey⟩ := mem_of_best he
    obtain ⟨x, hx, hsome⟩ := List.mem_filterMap.mp hkey
    obtain ⟨d, -, hd⟩ := Option.map_eq_some_iff.mp hsome
    rwa [← (Prod.mk.inj hd).2]
  · cases h
    cases he

theorem mem_of_resolveCoarse {graph : RegionGraph} {fromDepth : Option ℚ} {direction : String}
    {r : Resolved}
    (h : resolveCoarse reading graph fromDepth direction discoveredRegions ordered = .ok r)
    (he : r.chosen = some e) : e ∈ ordered := by
  unfold resolveCoarse at h
  split at h
  · rename_i x hx
    cases h
    cases he
    exact mem_of_bearingPick reading hx
  · exact mem_of_resolveDirection h he

theorem mem_of_mem_scoreExits {exitDescriptor : String} {scored : (Int ×ₗ String) × RegionExit}
    (h : scored ∈ scoreExits reading ordered exitDescriptor) : scored.2 ∈ ordered := by
  have hmem := (List.mem_insertionSort _).mp h
  obtain ⟨x, hx, hsome⟩ := List.mem_filterMap.mp hmem
  dsimp only at hsome
  split_ifs at hsome
  rwa [← Option.some.inj hsome]

theorem mem_of_resolveDescribed {graph : RegionGraph} {fromDepth : Option ℚ}
    {direction exitDescriptor : String} {r : Resolved}
    (h : resolveDescribed reading graph fromDepth direction exitDescriptor discoveredRegions ordered
      = .ok r) (he : r.chosen = some e) : e ∈ ordered := by
  have hscored : ∀ scored ∈ scoreExits reading ordered exitDescriptor, scored.2 ∈ ordered :=
    fun scored hs => mem_of_mem_scoreExits reading hs
  unfold resolveDescribed at h
  split at h
  · split_ifs at h
    · obtain ⟨coarse, hcoarse, hok⟩ := bind_eq_ok.mp h
      cases hok
      exact mem_of_resolveCoarse reading hcoarse he
    · cases h
      cases he
  · rename_i first hfirst
    cases h
    cases he
    exact hscored first (by rw [hfirst]; exact .head _)
  · rename_i first second rest hfirst
    split_ifs at h
    · cases h
      cases he
    · cases h
      cases he
      exact hscored first (by rw [hfirst]; exact .head _)

/-- **The way that was meant** is one of the ways there are. -/
theorem mem_of_resolve {candidates : List RegionExit} {graph : RegionGraph} {fromDepth : Option ℚ}
    {direction exitDescriptor : String} {r : Resolved}
    (h : resolve reading candidates graph fromDepth direction exitDescriptor discoveredRegions
      = .ok r) (he : r.chosen = some e) : e ∈ candidates := by
  unfold resolve at h
  dsimp only at h
  rw [← List.mem_insertionSort (fun a b : RegionExit => a.toRegionId ≤ b.toRegionId)]
  split at h
  · rename_i x hx
    cases h
    cases he
    exact mem_of_bearingPick reading hx
  · split_ifs at h
    · exact mem_of_resolveDirection h he
    · split at h
      · rename_i x named hx
        cases h
        cases he
        exact mem_of_resolveOrdinal reading hx
      · cases h
        cases he
      · exact mem_of_resolveDescribed reading h he

/-! ### What is raised -/

section Raised

variable {graph : RegionGraph} {fromDepth : Option ℚ} {direction exitDescriptor : String}
  {discoveredRegions : List String} {ordered : List RegionExit} {e : GraphError}

theorem error_of_resolveDirection
    (h : resolveDirection graph fromDepth direction discoveredRegions ordered = .error e) :
    e = .unknownSource graph.entranceId := by
  unfold resolveDirection at h
  unfold RegionGraph.bfsDist at h
  split_ifs at h
  · cases h
  · cases h
    rfl

theorem error_of_resolveCoarse
    (h : resolveCoarse reading graph fromDepth direction discoveredRegions ordered = .error e) :
    e = .unknownSource graph.entranceId := by
  unfold resolveCoarse at h
  split at h
  · cases h
  · exact error_of_resolveDirection h

theorem error_of_resolveDescribed
    (h : resolveDescribed reading graph fromDepth direction exitDescriptor discoveredRegions ordered
      = .error e) : e = .unknownSource graph.entranceId := by
  unfold resolveDescribed at h
  split at h
  · split_ifs at h
    rcases hcoarse : resolveCoarse reading graph fromDepth direction discoveredRegions ordered
    · rw [hcoarse] at h
      cases h
      exact error_of_resolveCoarse reading hcoarse
    · rw [hcoarse] at h
      cases h
  · cases h
  · split_ifs at h

/-- **Only the way toward the exit raises**, on a map without its entrance. -/
theorem error_of_resolve {candidates : List RegionExit}
    (h : resolve reading candidates graph fromDepth direction exitDescriptor discoveredRegions
      = .error e) : e = .unknownSource graph.entranceId := by
  unfold resolve at h
  dsimp only at h
  split at h
  · cases h
  · split_ifs at h
    · exact error_of_resolveDirection h
    · split at h
      · cases h
      · cases h
      · exact error_of_resolveDescribed reading h

end Raised

end Sidequest.Dungeon
