import Sidequest.World.Patch
import Sidequest.Lib.Run

namespace Sidequest.World

open Lib

/-!
# Clues that footnotes cite

A footnote that cites a clue of the bound scenario discovers it, unless a prerequisite is missing;
and whoever acts learns a fact when a clue is discovered for the first time.

* `ScenarioState.discoverClue` — the scenario's own step, with the prerequisites;
* `run_hear_credited` — over a whole run every discovered clue is credited to whoever acted when it
  was first discovered, if that was a character, and to nobody otherwise.
-/

/-! ### The scenario -/

/-- A clue of the graph. -/
structure ClueNode where
  id : String
  requires : List String := []
deriving DecidableEq

/-- The clues of a scenario. -/
structure ClueGraph where
  nodes : List ClueNode := []
deriving DecidableEq

variable (clueId : String)

namespace ClueGraph

variable (graph : ClueGraph)

/-- The ids the graph knows. -/
def ids : List String := graph.nodes.map ClueNode.id

/-- The first node with an id. -/
def node? (clueId : String) : Option ClueNode := graph.nodes.find? (fun n => n.id = clueId)

end ClueGraph

/-- The scenario of a session: its clues, and those that are discovered. -/
structure ScenarioState where
  clueGraph : ClueGraph := {}
  discoveredClues : Finset String := ∅
deriving DecidableEq

/-- A scenario starts with the clues of its pack, and none discovered. -/
def ScenarioState.fromGenrePack (clueGraph : ClueGraph) : ScenarioState where
  clueGraph := clueGraph

/-- A clue was cited before all that it requires. -/
structure PrerequisiteNotSatisfiedError where
  clueId : String
  missingPrerequisites : List String

namespace ScenarioState

variable (scenario : ScenarioState)

/-- What a clue still lacks; a clue that is not in the graph lacks nothing. -/
def missing (clueId : String) : List String :=
  match scenario.clueGraph.node? clueId with
  | none => []
  | some node => node.requires.filter (fun r => r ∉ scenario.discoveredClues)

/-- Mark a clue as discovered, unless a prerequisite is missing. -/
def discoverClue (clueId : String) : Except PrerequisiteNotSatisfiedError ScenarioState :=
  if scenario.missing clueId ≠ [] then .error ⟨clueId, scenario.missing clueId⟩
  else .ok { scenario with discoveredClues := insert clueId scenario.discoveredClues }

end ScenarioState

/-! ### Footnotes -/

/-- A text that is trimmed, and not empty. -/
structure NonBlankString where
  root : String
  trimmed : strip root = root
  notBlank : root ≠ ""

/-- A footnote of the narrator. -/
structure Footnote where
  factId : Option String := none
  summary : NonBlankString
  category : FactCategory

/-- The fact that a footnote brings when it discovers a clue. -/
def Footnote.fact (fn : Footnote) (clueId : String) (turn : Nat) : KnownFact where
  content := fn.summary.root
  confidence := .discovered
  source := "ScenarioClue"
  learnedTurn := turn
  factId := clueId
  category := fn.category

/-- A fact is added to what the character at a place knows; without a place nobody learns it. -/
def mintOn (active : Option Nat) (fact : KnownFact) (characters : List Character) :
    List Character :=
  match active with
  | none => characters
  | some place => characters.modify place
      (fun ch => { ch with knownFacts := ch.knownFacts ++ [fact] })

/-- Take one footnote: the clues of the graph it knows are `clueIds`, and `active` is the place of
    whoever acts. -/
def takeFootnote (clueIds : List String) (active : Option Nat) (turn : Nat)
    (book : ScenarioState × List Character) (fn : Footnote) : ScenarioState × List Character :=
  match fn.factId with
  | none => book
  | some clueId =>
    if clueId ∉ clueIds then book
    else
      match book.1.discoverClue clueId with
      -- the violation was reported where it was found
      | .error _ => book
      | .ok scenario =>
        if clueId ∉ book.1.discoveredClues then
          (scenario, mintOn active (fn.fact clueId turn) book.2)
        else (scenario, book.2)

/-- The snapshot of a session that may have a scenario. -/
structure ScenarioSnapshot extends GameSnapshot where
  scenarioState : Option ScenarioState := none

/-- The place of the first character with a name. -/
def activePlace (characters : List Character) (name : String) : Option Nat :=
  characters.findIdx? (fun ch => ch.core.name = name)

/-- Discover the clues that footnotes cite, and mint a fact for each that is new. -/
def consumeClueFootnotes (snapshot : ScenarioSnapshot) (footnotes : List Footnote)
    (activeCharacterName : String) : ScenarioSnapshot :=
  match snapshot.scenarioState with
  | none => snapshot
  | some scenario =>
    let active := activePlace snapshot.characters activeCharacterName
    let book := footnotes.foldl (takeFootnote scenario.clueGraph.ids active snapshot.interaction)
      (scenario, snapshot.characters)
    { snapshot with scenarioState := some book.1, characters := book.2 }

/-! ### Discovery in order -/

/-- Every discovered clue has a node, and what its node requires is discovered. -/
def InOrder (scenario : ScenarioState) : Prop :=
  ∀ clueId ∈ scenario.discoveredClues, ∃ node, scenario.clueGraph.node? clueId = some node ∧
    ∀ r ∈ node.requires, r ∈ scenario.discoveredClues

theorem exists_node?_of_mem {graph : ClueGraph} {clueId : String} (h : clueId ∈ graph.ids) :
    ∃ node, graph.node? clueId = some node := by
  obtain ⟨node, hnode, rfl⟩ := List.mem_map.mp h
  apply Option.isSome_iff_exists.mp
  rw [ClueGraph.node?, List.find?_isSome]
  exact ⟨node, hnode, by simp⟩

theorem discoverClue_eq_ok {scenario scenario' : ScenarioState} {clueId : String}
    (h : scenario.discoverClue clueId = .ok scenario') :
    (∀ node, scenario.clueGraph.node? clueId = some node →
      ∀ r ∈ node.requires, r ∈ scenario.discoveredClues) ∧
    scenario' = { scenario with discoveredClues := insert clueId scenario.discoveredClues } := by
  unfold ScenarioState.discoverClue at h
  split at h
  · simp at h
  · rename_i hmissing
    refine ⟨fun node hnode r hr => ?_, (Except.ok.inj h).symm⟩
    have hnone : scenario.missing clueId = [] := not_not.mp hmissing
    unfold ScenarioState.missing at hnone
    rw [hnode] at hnone
    have hall := List.filter_eq_nil_iff.mp hnone r hr
    simpa using hall

section Footnotes

variable {clueIds : List String} {active : Option Nat} {turn : Nat}
  {book : ScenarioState × List Character} {fn : Footnote}

/-- **What a footnote can do**: nothing, or discover a clue that is new, with all that its node
    requires, and mint the fact of it. -/
theorem takeFootnote_cases (clueIds : List String) (active : Option Nat) (turn : Nat)
    (book : ScenarioState × List Character) (fn : Footnote) :
    takeFootnote clueIds active turn book fn = book ∨
    ∃ clueId, fn.factId = some clueId ∧ clueId ∈ clueIds ∧ clueId ∉ book.1.discoveredClues ∧
      (∀ node, book.1.clueGraph.node? clueId = some node →
        ∀ r ∈ node.requires, r ∈ book.1.discoveredClues) ∧
      takeFootnote clueIds active turn book fn =
        ({ book.1 with discoveredClues := insert clueId book.1.discoveredClues },
          mintOn active (fn.fact clueId turn) book.2) := by
  unfold takeFootnote
  split
  · exact .inl rfl
  · rename_i clueId hfact
    split
    · exact .inl rfl
    · rename_i hknown
      split
      · exact .inl rfl
      · rename_i scenario' hdiscover
        obtain ⟨hrequires, rfl⟩ := discoverClue_eq_ok hdiscover
        split
        · rename_i hnew
          exact .inr ⟨clueId, hfact, not_not.mp hknown, hnew, hrequires, rfl⟩
        · rename_i hold
          -- the clue is cited again: the set is as it was
          left
          rw [Finset.insert_eq_of_mem (not_not.mp hold)]

/-- Footnotes discover clues in order. -/
theorem inOrder_takeFootnote (h : InOrder book.1) (hids : book.1.clueGraph.ids = clueIds) :
    InOrder (takeFootnote clueIds active turn book fn).1 := by
  rcases takeFootnote_cases clueIds active turn book fn with
    hsame | ⟨clueId, -, hknown, -, hrequires, htaken⟩
  · rw [hsame]
    exact h
  · rw [htaken]
    rintro other hother
    rcases Finset.mem_insert.mp hother with rfl | hold
    · rw [← hids] at hknown
      obtain ⟨node, hnode⟩ := exists_node?_of_mem hknown
      exact ⟨node, hnode, fun r hr => Finset.mem_insert_of_mem (hrequires node hnode r hr)⟩
    · obtain ⟨node, hnode, hall⟩ := h other hold
      exact ⟨node, hnode, fun r hr => Finset.mem_insert_of_mem (hall r hr)⟩

end Footnotes

/-! ### The facts about a clue -/

/-- What a character knows of a clue. -/
def factsAbout (ch : Character) : List KnownFact :=
  ch.knownFacts.filter (fun fact => fact.factId = clueId)

/-- What is known of a clue, with a fact more at one place, if there is one. -/
def withFactAt (active : Option Nat) (fact : KnownFact) (facts : List (List KnownFact)) :
    List (List KnownFact) :=
  facts.mapIdx (fun place known => if active = some place then known ++ [fact] else known)

theorem map_factsAbout_mintOn (active : Option Nat) (fact : KnownFact)
    (characters : List Character) : (mintOn active fact characters).map (factsAbout fact.factId) =
      withFactAt active fact (characters.map (factsAbout fact.factId)) := by
  unfold mintOn withFactAt
  cases active with
  | none =>
    apply List.ext_getElem <;> simp
  | some place =>
    apply List.ext_getElem
    · simp
    · intro i hi hi'
      simp only [List.getElem_map, List.getElem_modify, List.getElem_mapIdx, Option.some.injEq]
      split
      · simp [factsAbout]
      · rfl

theorem map_factsAbout_mintOn_of_ne {active : Option Nat} {fact : KnownFact} {clueId : String}
    (hne : fact.factId ≠ clueId) (characters : List Character) :
    (mintOn active fact characters).map (factsAbout clueId) =
      characters.map (factsAbout clueId) := by
  unfold mintOn
  cases active with
  | none => rfl
  | some place =>
    apply List.ext_getElem
    · simp
    · intro i hi hi'
      simp only [List.getElem_map, List.getElem_modify]
      split
      · simp [factsAbout, hne]
      · rfl

theorem map_core_mintOn (active : Option Nat) (fact : KnownFact) (characters : List Character) :
    (mintOn active fact characters).map Character.core = characters.map Character.core := by
  unfold mintOn
  cases active with
  | none => rfl
  | some place =>
    apply List.ext_getElem
    · simp
    · intro i hi hi'
      simp only [List.getElem_map, List.getElem_modify]
      split <;> rfl

/-! ### What a narration does -/

/-- What the footnotes of a narration do. A clue that was discovered before, or is still not, has
    the facts it had; one that is discovered now got the fact of a footnote that cites it. -/
structure Heard (footnotes : List Footnote) (active : Option Nat) (turn : Nat)
    (before after : ScenarioState × List Character) : Prop where
  graph : after.1.clueGraph = before.1.clueGraph
  kept : before.1.discoveredClues ⊆ after.1.discoveredClues
  cores : after.2.map Character.core = before.2.map Character.core
  same : ∀ clueId, clueId ∈ before.1.discoveredClues ∨ clueId ∉ after.1.discoveredClues →
    after.2.map (factsAbout clueId) = before.2.map (factsAbout clueId)
  credited : ∀ clueId ∈ after.1.discoveredClues, clueId ∉ before.1.discoveredClues →
    ∃ fn ∈ footnotes, fn.factId = some clueId ∧ after.2.map (factsAbout clueId) =
      withFactAt active (fn.fact clueId turn) (before.2.map (factsAbout clueId))

section Narration

variable {clueIds : List String} {active : Option Nat} {turn : Nat}
  {before between after : ScenarioState × List Character}

theorem Heard.refl (book : ScenarioState × List Character) : Heard [] active turn book book where
  graph := rfl
  kept := Finset.Subset.refl _
  cores := rfl
  same := fun _ _ => rfl
  credited := fun _ hin hout => absurd hin hout

theorem Heard.trans {first second : List Footnote} (h₁ : Heard first active turn before between)
    (h₂ : Heard second active turn between after) :
    Heard (first ++ second) active turn before after where
  graph := h₂.graph.trans h₁.graph
  kept := h₁.kept.trans h₂.kept
  cores := h₂.cores.trans h₁.cores
  same := by
    rintro clueId (hbefore | hafter)
    · rw [h₂.same clueId (.inl (h₁.kept hbefore)), h₁.same clueId (.inl hbefore)]
    · have hbetween : clueId ∉ between.1.discoveredClues := fun h => hafter (h₂.kept h)
      rw [h₂.same clueId (.inr hafter), h₁.same clueId (.inr hbetween)]
  credited := by
    intro clueId hafter hbefore
    by_cases hbetween : clueId ∈ between.1.discoveredClues
    · obtain ⟨fn, hfn, hfact, hfacts⟩ := h₁.credited clueId hbetween hbefore
      refine ⟨fn, List.mem_append_left second hfn, hfact, ?_⟩
      rw [h₂.same clueId (.inl hbetween), hfacts]
    · obtain ⟨fn, hfn, hfact, hfacts⟩ := h₂.credited clueId hafter hbetween
      refine ⟨fn, List.mem_append_right first hfn, hfact, ?_⟩
      rw [hfacts, h₁.same clueId (.inr hbetween)]

theorem heard_takeFootnote (clueIds : List String) (active : Option Nat) (turn : Nat)
    (book : ScenarioState × List Character) (fn : Footnote) :
    Heard [fn] active turn book (takeFootnote clueIds active turn book fn) := by
  rcases takeFootnote_cases clueIds active turn book fn with
    hsame | ⟨clueId, hfact, -, hnew, -, htaken⟩
  · rw [hsame]
    exact ⟨rfl, Finset.Subset.refl _, rfl, fun _ _ => rfl, fun _ hin hout => absurd hin hout⟩
  · rw [htaken]
    refine ⟨rfl, Finset.subset_insert _ _, map_core_mintOn _ _ _, ?_, ?_⟩
    · intro other hother
      refine map_factsAbout_mintOn_of_ne (fun heq => ?_) book.2
      obtain rfl : clueId = other := heq
      exact hother.elim hnew (fun hout => hout (Finset.mem_insert_self _ _))
    · intro other hin hout
      obtain rfl := (Finset.mem_insert.mp hin).resolve_right hout
      exact ⟨fn, List.mem_singleton_self fn, hfact,
        map_factsAbout_mintOn active (fn.fact other turn) book.2⟩

/-- **A narration** is heard footnote by footnote. -/
theorem heard_foldl (footnotes : List Footnote) (book : ScenarioState × List Character) :
    Heard footnotes active turn book (footnotes.foldl (takeFootnote clueIds active turn) book) := by
  induction footnotes generalizing book with
  | nil => exact Heard.refl book
  | cons fn footnotes ih =>
    exact (heard_takeFootnote clueIds active turn book fn).trans (ih _)

theorem inOrder_foldl {book : ScenarioState × List Character} (h : InOrder book.1)
    (hids : book.1.clueGraph.ids = clueIds) (footnotes : List Footnote) :
    InOrder (footnotes.foldl (takeFootnote clueIds active turn) book).1 := by
  induction footnotes generalizing book with
  | nil => exact h
  | cons fn footnotes ih =>
    refine ih (inOrder_takeFootnote h hids) ?_
    rw [(heard_takeFootnote clueIds active turn book fn).graph]
    exact hids

end Narration

/-! ### Runs -/

/-- The footnotes of one narration, with the name of whoever acts and the interaction it is. -/
structure ClueCall where
  footnotes : List Footnote
  activeCharacterName : String
  interaction : Nat

/-- The snapshot after a narration. -/
def hear (snapshot : ScenarioSnapshot) (call : ClueCall) : ScenarioSnapshot :=
  consumeClueFootnotes { snapshot with interaction := call.interaction } call.footnotes
    call.activeCharacterName

/-- Bind a scenario to the snapshot. -/
def bindScenario (snapshot : ScenarioSnapshot) (clueGraph : ClueGraph) : ScenarioSnapshot :=
  { snapshot with scenarioState := some (ScenarioState.fromGenrePack clueGraph) }

/-- The clues that are discovered. -/
def ScenarioSnapshot.discovered (snapshot : ScenarioSnapshot) : Finset String :=
  match snapshot.scenarioState with
  | none => ∅
  | some scenario => scenario.discoveredClues

/-- A narration, on the scenario and the characters alone. -/
def hearBook (book : ScenarioState × List Character) (call : ClueCall) :
    ScenarioState × List Character :=
  call.footnotes.foldl (takeFootnote book.1.clueGraph.ids
    (activePlace book.2 call.activeCharacterName) call.interaction) book

/-- A snapshot holds a scenario and some characters. -/
structure Holds (snapshot : ScenarioSnapshot) (book : ScenarioState × List Character) : Prop where
  scenario : snapshot.scenarioState = some book.1
  characters : snapshot.characters = book.2

section Run

variable {snapshot : ScenarioSnapshot} {book : ScenarioState × List Character}

theorem Holds.discovered (h : Holds snapshot book) :
    snapshot.discovered = book.1.discoveredClues := by
  unfold ScenarioSnapshot.discovered
  rw [h.scenario]

theorem holds_hear (h : Holds snapshot book) (call : ClueCall) :
    Holds (hear snapshot call) (hearBook book call) := by
  obtain ⟨scenario, characters⟩ := book
  obtain ⟨hscenario, rfl⟩ := h
  unfold hear consumeClueFootnotes
  rw [hscenario]
  exact ⟨rfl, rfl⟩

theorem holds_run (h : Holds snapshot book) (calls : List ClueCall) :
    Holds (run hear snapshot calls) (run hearBook book calls) := by
  induction calls generalizing snapshot book with
  | nil => exact h
  | cons call calls ih => exact ih (holds_hear h call)

/-- Who acts is found by the cores. -/
theorem activePlace_congr {characters characters' : List Character}
    (h : characters.map Character.core = characters'.map Character.core) (name : String) :
    activePlace characters name = activePlace characters' name := by
  have hcores : ∀ l : List Character, activePlace l name =
      (l.map Character.core).findIdx? (·.name = name) := by
    intro l
    rw [List.findIdx?_map]
    rfl
  rw [hcores, hcores, h]

end Run

/-- What a run comes to. A clue that is discovered was so by one of the narrations, and has the fact
    of a footnote that cites it, at the place of whoever acted; all others have what they had. -/
structure Tally (start : ScenarioState × List Character) (calls : List ClueCall) : Prop where
  graph : (run hearBook start calls).1.clueGraph = start.1.clueGraph
  inOrder : InOrder (run hearBook start calls).1
  cores : (run hearBook start calls).2.map Character.core = start.2.map Character.core
  same : ∀ clueId ∉ (run hearBook start calls).1.discoveredClues,
    (run hearBook start calls).2.map (factsAbout clueId) = start.2.map (factsAbout clueId)
  credited : ∀ clueId ∈ (run hearBook start calls).1.discoveredClues,
    ∃ done call later, calls = done ++ call :: later ∧
      clueId ∉ (run hearBook start done).1.discoveredClues ∧
      clueId ∈ (run hearBook start (done ++ [call])).1.discoveredClues ∧
      ∃ fn ∈ call.footnotes, fn.factId = some clueId ∧
        (run hearBook start calls).2.map (factsAbout clueId) =
          withFactAt (activePlace start.2 call.activeCharacterName)
            (fn.fact clueId call.interaction) (start.2.map (factsAbout clueId))

theorem run_hearBook_concat (start : ScenarioState × List Character) (calls : List ClueCall)
    (call : ClueCall) : run hearBook start (calls ++ [call]) =
      hearBook (run hearBook start calls) call := by
  unfold run
  rw [List.foldl_append]
  rfl

theorem Tally.concat {start : ScenarioState × List Character} {calls : List ClueCall}
    (h : Tally start calls) (call : ClueCall) : Tally start (calls ++ [call]) := by
  have hstep := run_hearBook_concat start calls call
  have hheard : Heard call.footnotes (activePlace (run hearBook start calls).2
      call.activeCharacterName) call.interaction (run hearBook start calls)
      (run hearBook start (calls ++ [call])) := by
    rw [hstep]
    exact heard_foldl _ _
  rw [activePlace_congr h.cores] at hheard
  refine ⟨hheard.graph.trans h.graph, ?_, hheard.cores.trans h.cores, ?_, ?_⟩
  · rw [hstep]
    exact inOrder_foldl h.inOrder rfl call.footnotes
  · intro clueId hout
    rw [hheard.same clueId (.inr hout)]
    exact h.same clueId (fun hin => hout (hheard.kept hin))
  · intro clueId hin
    by_cases hbefore : clueId ∈ (run hearBook start calls).1.discoveredClues
    · obtain ⟨done, first, later, hcalls, hnot, hnow, fn, hfn, hfact, hfacts⟩ :=
        h.credited clueId hbefore
      refine ⟨done, first, later ++ [call], ?_, hnot, hnow, fn, hfn, hfact, ?_⟩
      · rw [hcalls, List.append_assoc, List.cons_append]
      · rw [hheard.same clueId (.inl hbefore), hfacts]
    · obtain ⟨fn, hfn, hfact, hfacts⟩ := hheard.credited clueId hin hbefore
      refine ⟨calls, call, [], rfl, hbefore, hin, fn, hfn, hfact, ?_⟩
      rw [hfacts, h.same clueId hbefore]

/-- **A run** on a scenario without discoveries. -/
theorem tally {start : ScenarioState × List Character} (h : start.1.discoveredClues = ∅)
    (calls : List ClueCall) : Tally start calls := by
  induction calls using List.reverseRecOn with
  | nil =>
    have hnone : ∀ clueId, clueId ∉ start.1.discoveredClues := by simp [h]
    exact ⟨rfl, fun clueId hin => absurd hin (hnone clueId), rfl, fun _ _ => rfl,
      fun clueId hin => absurd hin (hnone clueId)⟩
  | append_singleton calls call ih => exact ih.concat call

/-- A clue was discovered by one narration of a run. The fact of a footnote that cites it was minted
    for the character that acted then, if one bore the name, and no other fact about the clue. -/
def Credited (start : ScenarioSnapshot) (calls : List ClueCall) (clueId : String) : Prop :=
  ∃ done call later, calls = done ++ call :: later ∧
    clueId ∉ (run hear start done).discovered ∧
    clueId ∈ (run hear start (done ++ [call])).discovered ∧
    ∃ fn ∈ call.footnotes, fn.factId = some clueId ∧
      (run hear start calls).characters.map (factsAbout clueId) =
        withFactAt (activePlace start.characters call.activeCharacterName)
          (fn.fact clueId call.interaction) (start.characters.map (factsAbout clueId))

/-- **Clue intake.** Whatever is narrated, the discovered clues have nodes in the graph and all that
    these require is discovered, and each of them is credited once. -/
theorem run_hear_credited (snapshot : ScenarioSnapshot) (clueGraph : ClueGraph)
    (calls : List ClueCall) :
    ∃ scenario, (run hear (bindScenario snapshot clueGraph) calls).scenarioState = some scenario ∧
      scenario.clueGraph = clueGraph ∧ InOrder scenario ∧
      ∀ clueId ∈ scenario.discoveredClues,
        Credited (bindScenario snapshot clueGraph) calls clueId := by
  have hstart : Holds (bindScenario snapshot clueGraph)
      (ScenarioState.fromGenrePack clueGraph, snapshot.characters) := ⟨rfl, rfl⟩
  have htally : Tally (ScenarioState.fromGenrePack clueGraph, snapshot.characters) calls :=
    tally rfl calls
  refine ⟨_, (holds_run hstart calls).scenario, htally.graph, htally.inOrder, fun clueId hin => ?_⟩
  obtain ⟨done, call, later, hcalls, hnot, hnow, fn, hfn, hfact, hfacts⟩ :=
    htally.credited clueId hin
  rw [← (holds_run hstart done).discovered] at hnot
  rw [← (holds_run hstart (done ++ [call])).discovered] at hnow
  rw [← (holds_run hstart calls).characters] at hfacts
  exact ⟨done, call, later, hcalls, hnot, hnow, fn, hfn, hfact, hfacts⟩

/-! ### Clues that nobody learned of -/

/-- Somebody has one fact about a clue, and nobody else has any. -/
def MintedOnce (snapshot : ScenarioSnapshot) (clueId : String) : Prop :=
  (snapshot.characters.flatMap (factsAbout clueId)).length = 1

/-- All that a node with a discovered id requires is discovered and in the graph. -/
def PrerequisitesClosed (scenario : ScenarioState) : Prop :=
  ∀ node ∈ scenario.clueGraph.nodes, node.id ∈ scenario.discoveredClues →
    ∀ r ∈ node.requires, r ∈ scenario.discoveredClues ∧ r ∈ scenario.clueGraph.ids

instance (snapshot : ScenarioSnapshot) (clueId : String) : Decidable (MintedOnce snapshot clueId) :=
  inferInstanceAs (Decidable (_ = _))

instance (scenario : ScenarioState) : Decidable (PrerequisitesClosed scenario) :=
  inferInstanceAs (Decidable (∀ node ∈ scenario.clueGraph.nodes,
    node.id ∈ scenario.discoveredClues → ∀ r ∈ node.requires, _))

/-- A table with one character. -/
def ruxAlone : ScenarioSnapshot where
  characters := [{ core := { name := "Rux", hp := ⟨10, 10, 10⟩ } }]

/-- The narrator cites the library key, while somebody acts. -/
def keyCited (activeCharacterName : String) : ClueCall where
  footnotes := [{
    factId := some "library_key"
    summary := ⟨"The key.", by decide +kernel, by decide⟩
    category := .lore }]
  activeCharacterName := activeCharacterName
  interaction := 5

/-- A graph with the library key alone. -/
def oneKey : ClueGraph where
  nodes := [{ id := "library_key" }]

/-- A graph with the library key twice; the second time it requires the ledger. -/
def twoKeys : ClueGraph where
  nodes := [{ id := "library_key" }, { id := "ledger" },
    { id := "library_key", requires := ["ledger"] }]

/-- A clue is discovered while nobody at the table acts, and is never minted; and a second node with
    the same id is not asked for what it requires. -/
theorem not_minted_and_not_closed :
    ("library_key" ∈ (run hear (bindScenario ruxAlone oneKey) [keyCited "Nobody"]).discovered ∧
      ¬ MintedOnce (run hear (bindScenario ruxAlone oneKey) [keyCited "Nobody", keyCited "Rux"])
        "library_key") ∧
    ∃ scenario, (run hear (bindScenario ruxAlone twoKeys) [keyCited "Rux"]).scenarioState =
      some scenario ∧ ¬ PrerequisitesClosed scenario :=
  ⟨⟨by decide +kernel, by decide +kernel⟩,
    ⟨⟨twoKeys, {"library_key"}⟩, by decide +kernel, by decide +kernel⟩⟩

end Sidequest.World
