import Sidequest.Dungeon.Bearings
import Sidequest.Dungeon.Placed

namespace Sidequest.World

open Lib Effect
open Dungeon

/-!
# The way toward the exit

Who asks for the way toward the exit should come nearer to the entrance with each move. The distances
count every edge of the map, but only those are taken that are visible or discovered: where the way
nearer is hidden, and at the entrance itself, the move leads farther in.

* `MayUse` — the regions that a character may go to from a region;
* `Unhindered`, `comesHome_iff` — it holds exactly where a way nearer may be used.
-/

/-- The intent to go toward the exit, without a description. -/
def towardExit : MovementDispatch := { direction := "toward_exit" }

variable (graph : RegionGraph)

/-- From a region a character may go to another one: over an edge that is visible, or to a region the
    routes to which are discovered. -/
def MayUse (routes : List String) (regionId other : String) : Prop :=
  ∃ edge ∈ graph.edges, RegionGraph.otherEnd regionId edge = some other ∧
    (edge.hidden = false ∨ other ∈ routes)

/-- One region is nearer to the entrance than another one. -/
def Closer (regionId other : String) : Prop :=
  ∃ n m, Away graph regionId n ∧ Away graph other m ∧ n < m

/-! ### The candidates -/

section Candidates

variable {digest : String → Nat} {graph : RegionGraph} {routes : List String}
  {regionId other : String}

/-- The exits that the resolution is left with. -/
def candidates (digest : String → Nat) (graph : RegionGraph) (routes : List String)
    (regionId : String) : List RegionExit :=
  (projectExits digest graph regionId).filter
    (fun e => !e.hidden || decide (e.toRegionId ∈ routes))

/-- **The candidates** lead to the regions that may be gone to. -/
theorem mem_candidates_iff : (∃ e ∈ candidates digest graph routes regionId, e.toRegionId = other) ↔
    MayUse graph routes regionId other := by
  constructor
  · rintro ⟨e, he, rfl⟩
    obtain ⟨hexit, hshown⟩ := List.mem_filter.mp he
    obtain ⟨edge, hedge, hother, -, hhidden, -⟩ :=
      mem_edgeExits_iff.mp (kept_of_mem_projectExits hexit).1
    refine ⟨edge, hedge, hother, ?_⟩
    rw [← hhidden]
    simpa using hshown
  · rintro ⟨edge, hedge, hother, hshown⟩
    have hneighbor : other ∈ graph.neighborIds regionId := List.mem_filterMap.mpr ⟨edge, hedge, hother⟩
    obtain ⟨e, he, hto⟩ := List.mem_map.mp
      (((single_projectExits digest graph regionId).2 other).mpr hneighbor)
    refine ⟨e, List.mem_filter.mpr ⟨he, ?_⟩, hto⟩
    rcases hshown with hvisible | hdiscovered
    · -- of parallel edges the visible one is kept
      have hexit : ∃ x ∈ edgeExits digest graph regionId, x.toRegionId = other ∧ x.hidden = false := by
        obtain ⟨x, hx⟩ : ∃ x, exitOf (assignBearings digest graph regionId) regionId edge = some x :=
          ⟨_, by rw [exitOf, hother, Option.map_some]⟩
        refine ⟨x, List.mem_filterMap.mpr ⟨edge, hedge, hx⟩, ?_⟩
        rw [exitOf, hother, Option.map_some] at hx
        cases hx
        exact ⟨rfl, hvisible⟩
      obtain ⟨x, hx, hxto, hxvisible⟩ := hexit
      have hle := (kept_of_mem_projectExits he).2 x hx (hxto.trans hto.symm)
      rw [hxvisible] at hle
      simp [Bool.eq_false_of_le_false hle]
    · simp [hto, hdiscovered]

end Candidates

/-! ### The resolution -/

/-- Lower case leaves a text without letters, and one in lower case. -/
structure Plain (reading : Reading) : Prop where
  blank : reading.lower "" = ""
  towardExit : reading.lower "toward_exit" = "toward_exit"

section Resolution

variable {reading : Reading} {graph : RegionGraph}

theorem requestedBearing_eq_none (hplain : Plain reading) :
    requestedBearing reading "" = none ∧ requestedBearing reading "toward_exit" = none := by
  unfold requestedBearing tokens
  rw [hplain.blank, hplain.towardExit]
  constructor <;> decide +kernel

/-- Without a description the intent is resolved by distances. -/
theorem resolve_towardExit (hplain : Plain reading) (hentrance : graph.entranceId ∈ graph.nodes.keys)
    (exits : List RegionExit) (fromDepth : Option ℚ) (discoveredRegions : List String) :
    resolve reading exits graph fromDepth towardExit.direction towardExit.exitDescriptor
      discoveredRegions = .ok { chosen := best (exitWays (graph.distances graph.entranceId none [])
        (exits.insertionSort (fun a b => a.toRegionId ≤ b.toRegionId))), via := "bfs_to_exit" } := by
  obtain ⟨hblank, htoward⟩ := requestedBearing_eq_none hplain
  have hpick : ∀ ordered, bearingPick reading ordered "" "toward_exit" = none := by
    intro ordered
    unfold bearingPick
    rw [hblank, htoward]
    rfl
  unfold resolve towardExit
  dsimp only
  rw [hpick]
  unfold resolveDirection RegionGraph.bfsDist
  rw [if_pos hentrance]
  rfl

/-- **The nearest** of the exits is chosen. -/
theorem nearest_of_best (hgraph : Contiguous graph) {exits : List RegionExit}
    (hexits : ∀ e ∈ exits, e.toRegionId ∈ graph.nodes.keys) (hne : exits ≠ []) :
    ∃ e ∈ exits, best (exitWays (graph.distances graph.entranceId none [])
        (exits.insertionSort (fun a b => a.toRegionId ≤ b.toRegionId))) = some e ∧
      ∃ n, Away graph e.toRegionId n ∧ ∀ x ∈ exits, ∀ m, Away graph x.toRegionId m → n ≤ m := by
  have haway : ∀ r n, (graph.distances graph.entranceId none []).get? r = some n ↔ Away graph r n := by
    intro r n
    rw [get?_distances_iff hgraph.entrance, RegionGraph.keptEdges_nil]
    exact Iff.rfl
  have hmem : ∀ key e, (key, e) ∈ exitWays (graph.distances graph.entranceId none [])
      (exits.insertionSort (fun a b => a.toRegionId ≤ b.toRegionId)) ↔
      e ∈ exits ∧ ∃ n, Away graph e.toRegionId n ∧ key = toLex (n, e.toRegionId) := by
    intro key e
    unfold exitWays
    simp only [List.mem_filterMap, List.mem_insertionSort, Option.map_eq_some_iff]
    constructor
    · rintro ⟨x, hx, n, hn, heq⟩
      cases heq
      exact ⟨hx, n, (haway _ _).mp hn, rfl⟩
    · rintro ⟨he, n, hn, rfl⟩
      exact ⟨e, he, n, (haway _ _).mpr hn, rfl⟩
  obtain ⟨first, hfirst⟩ := List.exists_mem_of_ne_nil exits hne
  obtain ⟨n₀, hn₀⟩ := hgraph.exists_away (hexits first hfirst)
  cases hbest : best (exitWays (graph.distances graph.entranceId none [])
      (exits.insertionSort (fun a b => a.toRegionId ≤ b.toRegionId))) with
  | none =>
    have hway := (hmem _ first).mpr ⟨hfirst, n₀, hn₀, rfl⟩
    rw [best_eq_none_iff.mp hbest] at hway
    simp at hway
  | some e =>
    obtain ⟨key, hkey, hleast⟩ := le_of_best hbest
    obtain ⟨he, n, hn, rfl⟩ := (hmem key e).mp hkey
    refine ⟨e, he, rfl, n, hn, fun x hx m hm => ?_⟩
    have hle := hleast _ ((hmem _ x).mpr ⟨hx, m, hm, rfl⟩)
    rcases Prod.Lex.le_iff.mp hle with hlt | ⟨heq, -⟩
    · exact le_of_lt hlt
    · exact le_of_eq heq

end Resolution

/-! ### The move -/

section Move

variable {W A : Type} {ctx : MovementContext W A} {playerName regionId : String}
  {graph : RegionGraph} {palette : Dict String Theme} {w : Watched W}

/-- The region is shown, with its exits. -/
def Shown (digest : String → Nat) (palette : Dict String Theme) (graph : RegionGraph)
    (regionId : String) : Prop :=
  ∃ proj, projectRegion digest graph regionId palette = .ok proj

/-- Where a character that asks for the way toward the exit goes, if it goes anywhere. -/
def GoesTo (ctx : MovementContext W A) (playerName : String) (graph : RegionGraph)
    (palette : Dict String Theme) (w : Watched W) (regionId other : String) : Prop :=
  ∃ fromRegion via drains, ((wayOut ctx playerName regionId towardExit graph palette w).exec w).1 =
    .ok (.go fromRegion other via drains)

theorem not_goesTo_of_none (hnone : candidates ctx.reading.digest graph w.discoveredRoutes regionId = []
    ∨ ¬ Shown ctx.reading.digest palette graph regionId) (other : String) :
    ¬ GoesTo ctx playerName graph palette w regionId other := by
  rintro ⟨fromRegion, via, drains, hgo⟩
  unfold wayOut at hgo
  cases hproj : projectRegion ctx.reading.digest graph regionId palette with
  | error err =>
    rw [hproj] at hgo
    simp at hgo
  | ok proj =>
    have hcandidates : proj.exits.filter (fun e => !e.hidden ||
        decide (e.toRegionId ∈ w.discoveredRoutes)) = [] := by
      rw [exits_of_projectRegion hproj]
      exact hnone.resolve_right (not_not_intro ⟨proj, hproj⟩)
    rw [hproj] at hgo
    dsimp only at hgo
    rw [if_pos hcandidates] at hgo
    have hstay : (Except.ok (refuse playerName ⟨"no_candidate_edges", playerName ++
        " finds no such way from here."⟩) : Except MovementError Verdict) =
        .ok (.go fromRegion other via drains) := hgo
    exact absurd (Except.ok.inj hstay) (by simp [refuse])

/-- An exit that is left is taken, and it leads as near to the entrance as any. -/
theorem goes_of_candidates (playerName : String) (hplain : Plain ctx.reading) (hgraph : Contiguous graph)
    (hshown : Shown ctx.reading.digest palette graph regionId)
    (hne : candidates ctx.reading.digest graph w.discoveredRoutes regionId ≠ []) :
    ∃ e ∈ candidates ctx.reading.digest graph w.discoveredRoutes regionId,
      (wayOut ctx playerName regionId towardExit graph palette w).exec w =
        (.ok (.go regionId e.toRegionId "bfs_to_exit" true), w) ∧
      ∃ n, Away graph e.toRegionId n ∧
        ∀ x ∈ candidates ctx.reading.digest graph w.discoveredRoutes regionId,
          ∀ m, Away graph x.toRegionId m → n ≤ m := by
  obtain ⟨proj, hproj⟩ := hshown
  have hexit : ∀ e ∈ candidates ctx.reading.digest graph w.discoveredRoutes regionId,
      e ∈ projectExits ctx.reading.digest graph regionId := fun e he => List.mem_of_mem_filter he
  have hkeys : ∀ e ∈ candidates ctx.reading.digest graph w.discoveredRoutes regionId,
      e.toRegionId ∈ graph.nodes.keys := by
    intro e he
    obtain ⟨edge, hedge, hother⟩ := exists_edge_of_mem_exits (hexit e he)
    exact mem_keys_of_otherEnd hedge hother
  obtain ⟨e, he, hbest, hnearest⟩ := nearest_of_best hgraph hkeys hne
  refine ⟨e, he, ?_, hnearest⟩
  have hregion : regionId ∈ graph.nodes.keys := by
    unfold projectRegion at hproj
    split_ifs at hproj
    split at hproj
    · simp at hproj
    · rename_i node hnode
      exact Dict.mem_keys_of_get? hnode
  have hcandidates : proj.exits.filter (fun e => !e.hidden ||
      decide (e.toRegionId ∈ w.discoveredRoutes)) =
        candidates ctx.reading.digest graph w.discoveredRoutes regionId := by
    rw [exits_of_projectRegion hproj]
    rfl
  unfold wayOut
  rw [hproj]
  dsimp only
  rw [hcandidates, if_neg hne, resolve_towardExit hplain hgraph.entrance, hbest]
  show (takeWay ctx playerName regionId graph e "bfs_to_exit").exec w = _
  unfold takeWay RegionGraph.neighbors
  rw [if_pos hregion]
  dsimp only
  rw [if_neg (not_not_intro (mem_neighbors_of_mem_exits (hexit e he))), if_pos (hkeys e he)]
  rfl

/-- **The way toward the exit**: of the regions that may be gone to, one that is nearest to the
    entrance. -/
theorem nearest_of_goesTo (hplain : Plain ctx.reading) (hgraph : Contiguous graph) {other : String}
    (hgoes : GoesTo ctx playerName graph palette w regionId other) :
    MayUse graph w.discoveredRoutes regionId other ∧ ∃ n, Away graph other n ∧
      ∀ x, MayUse graph w.discoveredRoutes regionId x → ∀ m, Away graph x m → n ≤ m := by
  have hsome : candidates ctx.reading.digest graph w.discoveredRoutes regionId ≠ [] ∧
      Shown ctx.reading.digest palette graph regionId := by
    by_contra hnot
    rw [not_and_or, not_not] at hnot
    exact not_goesTo_of_none hnot other hgoes
  obtain ⟨e, he, hexec, n, hn, hleast⟩ := goes_of_candidates playerName hplain
    hgraph hsome.2 hsome.1
  obtain ⟨fromRegion, via, drains, hgo⟩ := hgoes
  rw [hexec] at hgo
  obtain ⟨-, rfl, -, -⟩ : regionId = fromRegion ∧ e.toRegionId = other ∧ _ ∧ _ := by
    simpa using hgo
  refine ⟨mem_candidates_iff.mp ⟨e, he, rfl⟩, n, hn, fun x hx m hm => ?_⟩
  obtain ⟨c, hc, rfl⟩ := mem_candidates_iff.mpr hx
  exact hleast c hc m hm

theorem exists_goesTo (playerName : String) (hplain : Plain ctx.reading) (hgraph : Contiguous graph)
    (hshown : Shown ctx.reading.digest palette graph regionId)
    (hmay : ∃ other, MayUse graph w.discoveredRoutes regionId other) :
    ∃ other, GoesTo ctx playerName graph palette w regionId other := by
  obtain ⟨other, hother⟩ := hmay
  obtain ⟨c, hc, -⟩ := mem_candidates_iff.mpr hother
  obtain ⟨e, -, hexec, -⟩ := goes_of_candidates playerName hplain hgraph hshown
    (List.ne_nil_of_mem hc)
  exact ⟨e.toRegionId, regionId, "bfs_to_exit", true, congrArg Prod.fst hexec⟩

end Move

/-! ### One move after another -/

/-- A character in the dungeon that asks for the way toward the exit, how often it has gone on it, and
    the map and everything else as they are then. -/
structure Roamer (W : Type) where
  graph : RegionGraph
  session : Watched W
  region : String
  moves : Nat := 0

/-- What happens: the character asks, the map grows or is scored, or anything else of the session
    changes. -/
inductive Turn (W : Type) where
  | towardExit
  | grow (campaignSeed expansionId : Int) (attachRegionIds themePool : List String)
      (config : JaquaysConfig)
  | score (campaignSeed : Int) (config : DepthConfig)
  | others (session : Watched W)

section Roaming

variable {W A : Type} (entropy : Entropy) (ctx : MovementContext W A) (playerName : String)
  (palette : Dict String Theme)

variable (s : Roamer W)

/-- One turn. What raises leaves the map as it was. -/
def Roamer.step : Turn W → Roamer W
  | .towardExit =>
    match (wayOut ctx playerName s.region World.towardExit s.graph palette s.session).exec s.session with
    | (.ok (.go _ toRegion _ _), session) =>
      { s with session := session, region := toRegion, moves := s.moves + 1 }
    | (_, session) => { s with session := session }
  | .grow campaignSeed expansionId attachRegionIds themePool config =>
    match generateExpansion entropy s.graph campaignSeed expansionId attachRegionIds themePool
      config with
    | .error _ => s
    | .ok (exp, _) =>
      match (attachExpansion exp).exec s.graph with
      | (.ok _, graph) => { s with graph := graph }
      | (.error _, _) => s
  | .score campaignSeed config =>
    match (assignDepthScores entropy campaignSeed config).exec s.graph with
    | (.ok _, graph) => { s with graph := graph }
    | (.error _, _) => s
  | .others session => { s with session := session }

/-- **The single move** leads nearer to the entrance, and to where the character may go. -/
def Homeward : Turn W → Prop
  | .towardExit => ∀ other, GoesTo ctx playerName s.graph palette s.session s.region other →
      MayUse s.graph s.session.discoveredRoutes s.region other ∧ Closer s.graph other s.region
  | _ => True

/-- **All moves**: with each of them a hop less is left of so many. -/
def Nears (hops : Nat) (s : Roamer W) : Prop :=
  ∃ n, Away s.graph s.region n ∧ n + s.moves ≤ hops

/-- Who asks, in a region that is shown, may go nearer to the entrance or nowhere. -/
def Unhindered : Turn W → Prop
  | .towardExit => Shown ctx.reading.digest palette s.graph s.region →
      (∃ other, MayUse s.graph s.session.discoveredRoutes s.region other) →
      ∃ other, MayUse s.graph s.session.discoveredRoutes s.region other ∧
        Closer s.graph other s.region
  | _ => True

/-- **What should hold of a run**, for a character that is so many hops from the entrance: each move is
    homeward, no more hops are left than moves that are not made, and after as many moves the
    character is at the entrance. -/
structure ComesHome (hops : Nat) (s : Roamer W) (turns : List (Turn W)) : Prop where
  homeward : StepsMeet (Roamer.step entropy ctx playerName palette)
    (Homeward ctx playerName palette) s turns
  nears : Throughout (Roamer.step entropy ctx playerName palette) (Nears (s.moves + hops)) s turns
  arrives : Throughout (Roamer.step entropy ctx playerName palette)
    (fun s' => s'.moves = s.moves + hops → s'.region = s'.graph.entranceId) s turns

/-- The map is one that generation leads to, and the character is on it. -/
structure Roamer.OnMap (s : Roamer W) : Prop where
  explored : Explored entropy s.graph
  region : s.region ∈ s.graph.nodes.keys

end Roaming

section Roams

variable {W A : Type} {entropy : Entropy} {ctx : MovementContext W A} {playerName : String}
  {palette : Dict String Theme} {s : Roamer W}

/-- After as many moves as there were hops the character is at the entrance. -/
theorem Nears.at_entrance {hops : Nat} (h : Nears hops s) (hmoves : s.moves = hops) :
    s.region = s.graph.entranceId := by
  obtain ⟨n, hn, hle⟩ := h
  obtain rfl : n = 0 := by omega
  exact hn.walk.symm

/-- The character asks: it goes somewhere, or stays. -/
theorem step_towardExit_cases (entropy : Entropy) (ctx : MovementContext W A) (playerName : String)
    (palette : Dict String Theme) (s : Roamer W) :
    (∃ other, GoesTo ctx playerName s.graph palette s.session s.region other ∧
      (s.step entropy ctx playerName palette .towardExit).graph = s.graph ∧
      (s.step entropy ctx playerName palette .towardExit).region = other ∧
      (s.step entropy ctx playerName palette .towardExit).moves = s.moves + 1) ∨
    ((s.step entropy ctx playerName palette .towardExit).graph = s.graph ∧
      (s.step entropy ctx playerName palette .towardExit).region = s.region ∧
      (s.step entropy ctx playerName palette .towardExit).moves = s.moves) := by
  unfold Roamer.step
  rcases hexec : (wayOut ctx playerName s.region towardExit s.graph palette s.session).exec s.session
    with ⟨e | verdict, session⟩
  · exact .inr ⟨rfl, rfl, rfl⟩
  · cases verdict with
    | stay output => exact .inr ⟨rfl, rfl, rfl⟩
    | go fromRegion toRegion via drains =>
      exact .inl ⟨toRegion, ⟨fromRegion, via, drains, congrArg Prod.fst hexec⟩, rfl, rfl, rfl⟩

/-- The map has grown: everything that was on it still is. -/
structure Grows (graph graph' : RegionGraph) : Prop where
  entrance : graph'.entranceId = graph.entranceId
  keys : ∀ r ∈ graph.nodes.keys, r ∈ graph'.nodes.keys
  edges : ∀ e ∈ graph.edges, e ∈ graph'.edges

theorem Grows.refl : Grows graph graph := ⟨rfl, fun _ h => h, fun _ h => h⟩

/-- On a map that has grown nothing is farther from the entrance. -/
theorem Grows.away {graph graph' : RegionGraph} (h : Grows graph graph') {r : String} {n : Nat}
    (hn : Away graph r n) : ∃ m, m ≤ n ∧ Away graph' r m := by
  have hadj : ∀ u x, x ∈ RegionGraph.adjacent graph.edges none u →
      x ∈ RegionGraph.adjacent graph'.edges none u := by
    intro u x hx
    obtain ⟨e, he, hends⟩ := mem_adjacent_iff.mp hx
    exact mem_adjacent_iff.mpr ⟨e, h.edges e he, hends⟩
  have hwalk := hn.walk.mono hadj
  rw [← h.entrance] at hwalk
  exact hwalk.exists_hops

/-- **A turn** leads to a map that generation leads to, and that has grown. -/
theorem explored_step (ctx : MovementContext W A) (playerName : String)
    (palette : Dict String Theme) (h : Explored entropy s.graph) (turn : Turn W) :
    Explored entropy (s.step entropy ctx playerName palette turn).graph ∧
      Grows s.graph (s.step entropy ctx playerName palette turn).graph := by
  cases turn with
  | towardExit =>
    have hsame : (s.step entropy ctx playerName palette .towardExit).graph = s.graph := by
      rcases step_towardExit_cases entropy ctx playerName palette s with ⟨_, _, hgraph, -⟩ | ⟨hgraph, -⟩
      · exact hgraph
      · exact hgraph
    rw [hsame]
    exact ⟨h, Grows.refl _⟩
  | grow campaignSeed expansionId attachRegionIds themePool config =>
    unfold Roamer.step
    dsimp only
    split
    · exact ⟨h, Grows.refl _⟩
    · rename_i exp report hgenerated
      split
      · rename_i u graph hattached
        have hinserted := Inserted.of_ok hattached
        refine ⟨h.attached hgenerated hattached, hinserted.entrance, ?_, ?_⟩
        · intro r hr
          rw [hinserted.keys]
          exact List.mem_append_left _ hr
        · intro e he
          rw [hinserted.edges]
          exact List.mem_append_left _ he
      · exact ⟨h, Grows.refl _⟩
  | score campaignSeed config =>
    unfold Roamer.step
    dsimp only
    split
    · rename_i report graph hscored
      have hsame := sameShape_of_assignDepthScores h.contiguous hscored
      refine ⟨h.scored hscored, hsame.entrance, ?_, ?_⟩
      · intro r hr
        rw [hsame.keys]
        exact hr
      · intro e he
        rw [hsame.edges]
        exact he
    · exact ⟨h, Grows.refl _⟩
  | others session => exact ⟨h, Grows.refl _⟩

/-- Only who asks goes anywhere. -/
theorem region_step (entropy : Entropy) (ctx : MovementContext W A) (playerName : String)
    (palette : Dict String Theme) (s : Roamer W) (turn : Turn W) (h : turn ≠ .towardExit) :
    (s.step entropy ctx playerName palette turn).region = s.region ∧
      (s.step entropy ctx playerName palette turn).moves = s.moves := by
  cases turn with
  | towardExit => exact absurd rfl h
  | grow campaignSeed expansionId attachRegionIds themePool config =>
    unfold Roamer.step
    dsimp only
    split
    · exact ⟨rfl, rfl⟩
    · split <;> exact ⟨rfl, rfl⟩
  | score campaignSeed config =>
    unfold Roamer.step
    dsimp only
    split <;> exact ⟨rfl, rfl⟩
  | others session => exact ⟨rfl, rfl⟩

theorem mem_keys_of_mayUse {graph : RegionGraph} {routes : List String} {regionId other : String}
    (h : MayUse graph routes regionId other) : other ∈ graph.nodes.keys := by
  obtain ⟨edge, hedge, hother, -⟩ := h
  exact mem_keys_of_otherEnd hedge hother

theorem Roamer.OnMap.step (hplain : Plain ctx.reading) (h : s.OnMap entropy) (turn : Turn W) :
    (s.step entropy ctx playerName palette turn).OnMap entropy := by
  obtain ⟨hexplored, hgrows⟩ := explored_step ctx playerName palette h.explored turn
  refine ⟨hexplored, ?_⟩
  by_cases hturn : turn = .towardExit
  · subst hturn
    rcases step_towardExit_cases entropy ctx playerName palette s with
      ⟨other, hgoes, hgraph, hregion, -⟩ | ⟨hgraph, hregion, -⟩
    · rw [hgraph, hregion]
      exact mem_keys_of_mayUse (nearest_of_goesTo hplain h.explored.contiguous hgoes).1
    · rw [hgraph, hregion]
      exact h.region
  · rw [(region_step entropy ctx playerName palette s turn hturn).1]
    exact hgrows.keys _ h.region

/-- **The single move** is homeward exactly if a way nearer may be used. -/
theorem homeward_iff_unhindered (hplain : Plain ctx.reading) (h : s.OnMap entropy) (turn : Turn W) :
    Homeward ctx playerName palette s turn ↔ Unhindered ctx palette s turn := by
  cases turn with
  | towardExit =>
    have hgraph := h.explored.contiguous
    constructor
    · intro hhome hshown hmay
      obtain ⟨other, hgoes⟩ := exists_goesTo playerName hplain hgraph hshown hmay
      exact ⟨other, hhome other hgoes⟩
    · intro hopen other hgoes
      obtain ⟨hmay, n, hn, hleast⟩ := nearest_of_goesTo hplain hgraph hgoes
      refine ⟨hmay, ?_⟩
      have hshown : Shown ctx.reading.digest palette s.graph s.region := by
        by_contra hnot
        exact not_goesTo_of_none (.inr hnot) other hgoes
      obtain ⟨x, hx, m, k, hm, hk, hlt⟩ := hopen hshown ⟨other, hmay⟩
      -- the region that is gone to is no farther than the one that is nearer
      exact ⟨n, k, hn, hk, (hleast x hx m hm).trans_lt hlt⟩
  | grow => exact Iff.rfl
  | score => exact Iff.rfl
  | others => exact Iff.rfl

/-- **A homeward move** leaves a hop less; the other turns leave no more hops. -/
theorem Nears.step {hops : Nat} (h : Nears hops s) (hs : s.OnMap entropy) (turn : Turn W)
    (hhome : Homeward ctx playerName palette s turn) :
    Nears hops (s.step entropy ctx playerName palette turn) := by
  obtain ⟨n, hn, hle⟩ := h
  by_cases hturn : turn = .towardExit
  · subst hturn
    rcases step_towardExit_cases entropy ctx playerName palette s with
      ⟨other, hgoes, hgraph, hregion, hmoves⟩ | ⟨hgraph, hregion, hmoves⟩
    · obtain ⟨-, m, k, hm, hk, hlt⟩ := hhome other hgoes
      obtain rfl := hn.unique hk
      refine ⟨m, ?_, ?_⟩
      · rw [hgraph, hregion]
        exact hm
      · omega
    · refine ⟨n, ?_, ?_⟩
      · rw [hgraph, hregion]
        exact hn
      · rw [hmoves]
        exact hle
  · obtain ⟨hregion, hmoves⟩ := region_step entropy ctx playerName palette s turn hturn
    obtain ⟨m, hmn, hm⟩ := (explored_step ctx playerName palette hs.explored turn).2.away hn
    refine ⟨m, ?_, ?_⟩
    · rw [hregion]
      exact hm
    · omega

/-- **The way toward the exit leads home** exactly if, whenever the character asks, it may go nearer
    to the entrance or nowhere. -/
theorem comesHome_iff (hplain : Plain ctx.reading) (hs : s.OnMap entropy) {hops : Nat}
    (hhops : Away s.graph s.region hops) (turns : List (Turn W)) :
    ComesHome entropy ctx playerName palette hops s turns ↔
      StepsMeet (Roamer.step entropy ctx playerName palette) (Unhindered ctx palette) s turns := by
  constructor
  · rintro ⟨hhome, -, -⟩
    exact stepsMeet_of_invariant (I := fun s => s.OnMap entropy)
      (fun s turn h _ => h.step hplain turn)
      (fun s turn h hhome => (homeward_iff_unhindered hplain h turn).mp hhome) hs hhome
  · intro hopen
    have hhome : StepsMeet (Roamer.step entropy ctx playerName palette)
        (Homeward ctx playerName palette) s turns :=
      stepsMeet_of_invariant (I := fun s => s.OnMap entropy) (fun s turn h _ => h.step hplain turn)
        (fun s turn h hopen => (homeward_iff_unhindered hplain h turn).mpr hopen) hs hopen
    have hnears : Nears (s.moves + hops) s := ⟨hops, hhops, by omega⟩
    have hthroughout := throughout_of_invariant
      (I := fun s' => s'.OnMap entropy ∧ Nears (s.moves + hops) s')
      (fun s' turn h hturn => ⟨h.1.step hplain turn, h.2.step h.1 turn hturn⟩) ⟨hs, hnears⟩ hhome
    exact ⟨hhome, hthroughout.mono (fun s' h => h.2),
      hthroughout.mono (fun s' h hmoves => h.2.at_entrance hmoves)⟩

end Roams

/-! ### A hidden way -/

/-- Movement in the crypts, as Ann is told of it. -/
def cryptContext : MovementContext Unit Unit where
  reading := { lower := id, digest := fun _ => 0 }
  observers := []
  worldSlug := "crypts"

/-- Crypts look like crypts. -/
def cryptPalette : Dict String Theme := Dict.empty.insert "crypt" ⟨"Crypt", "grave", "cold", []⟩

theorem plain_cryptContext : Plain cryptContext.reading := ⟨rfl, rfl⟩

/-- Nothing is discovered yet. -/
def nothingKnown : Watched Unit := { ({} : Session) with store := () }

/-- Somebody at the entrance, before there is anything else. -/
def newcomer : Roamer Unit := ⟨seedGraph cryptEntrance, nothingKnown, "entrance", 0⟩

/-- Three regions behind the entrance; of the last one only a hidden edge leads to it. -/
def threeRooms : RegionGraph :=
  (newcomer.step risingDraws cryptContext "Ann" cryptPalette
    (.grow 1 1 ["entrance"] ["crypt"] threeRegions)).graph

/-- Somebody in the last region. -/
def lost : Roamer Unit := ⟨threeRooms, nothingKnown, "exp001.r2", 0⟩

theorem onMap_newcomer : newcomer.OnMap risingDraws :=
  ⟨Explored.seed cryptEntrance, List.mem_singleton_self _⟩

theorem explored_threeRooms : Explored risingDraws threeRooms :=
  (explored_step cryptContext "Ann" cryptPalette onMap_newcomer.explored
    (.grow 1 1 ["entrance"] ["crypt"] threeRegions)).1

theorem mem_keys_threeRooms : "exp001.r2" ∈ threeRooms.nodes.keys := by decide +kernel

theorem onMap_of_explored {entropy : Entropy} {graph : RegionGraph} {region : String}
    (h : Explored entropy graph) (hregion : region ∈ graph.nodes.keys) :
    (⟨graph, nothingKnown, region, 0⟩ : Roamer Unit).OnMap entropy := ⟨h, hregion⟩

theorem onMap_lost : lost.OnMap risingDraws :=
  onMap_of_explored explored_threeRooms mem_keys_threeRooms

theorem away_lost : Away lost.graph lost.region 1 := by
  have hdist : (lost.graph.distances lost.graph.entranceId none []).get? lost.region = some 1 := by
    decide +kernel
  rw [get?_distances_iff onMap_lost.explored.contiguous.entrance, RegionGraph.keptEdges_nil] at hdist
  exact hdist

/-- **The way toward the exit may lead farther in**: from the last region, which only a hidden edge
    joins to the entrance, to a region as far off; and from the entrance to a region behind it. -/
theorem not_comesHome_threeRooms :
    (lost.OnMap risingDraws ∧ Away lost.graph lost.region 1 ∧
      ¬ ComesHome risingDraws cryptContext "Ann" cryptPalette 1 lost [.towardExit]) ∧
    (newcomer.OnMap risingDraws ∧ Away newcomer.graph newcomer.region 0 ∧
      ¬ ComesHome risingDraws cryptContext "Ann" cryptPalette 0 newcomer
        [.grow 1 1 ["entrance"] ["crypt"] threeRegions, .towardExit]) := by
  have hlost : let s := lost.step risingDraws cryptContext "Ann" cryptPalette .towardExit
      s.region ≠ s.graph.entranceId ∧ s.moves = 1 := by decide +kernel
  have hnewcomer : ((newcomer.step risingDraws cryptContext "Ann" cryptPalette
      (.grow 1 1 ["entrance"] ["crypt"] threeRegions)).step risingDraws cryptContext "Ann"
        cryptPalette .towardExit).moves = 1 := by decide +kernel
  refine ⟨⟨onMap_lost, away_lost, ?_⟩, onMap_newcomer, ⟨rfl, fun _ _ => Nat.zero_le _⟩, ?_⟩
  · rintro ⟨-, -, -, harrives⟩
    exact hlost.1 (harrives hlost.2)
  · rintro ⟨-, ⟨-, -, n, -, hle⟩, -⟩
    rw [hnewcomer] at hle
    simp [newcomer] at hle

/-- Once the routes to the entrance are discovered, the way leads home. -/
theorem comesHome_iff_lost :
    ComesHome risingDraws cryptContext "Ann" cryptPalette 1 lost
        [.others { nothingKnown with discoveredRoutes := ["entrance"] }, .towardExit] ↔
      StepsMeet (Roamer.step risingDraws cryptContext "Ann" cryptPalette)
        (Unhindered cryptContext cryptPalette) lost
        [.others { nothingKnown with discoveredRoutes := ["entrance"] }, .towardExit] :=
  comesHome_iff plain_cryptContext onMap_lost away_lost _

end Sidequest.World
