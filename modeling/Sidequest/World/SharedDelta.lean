import Sidequest.World.Patch

namespace Sidequest.World

open Lib

/-!
# The handshake between sealed letters

* `buildSharedWorldDelta`, `mergeSharedDeltaIntoSnapshot` — the canonical places of the seated
  players, packed on one side and written over the places of the other;
* `handshake_spec` — who is next to whom, what a merge writes and counts, and when its path is told.
-/

/-- A snapshot with its encounter: the type, and whether it is resolved. -/
structure SharedSnapshot extends GameSnapshot where
  encounter : Option (String × Bool) := none

structure PartyFormationEntry where
  (playerId location : String)
  adjacency : List String := []

structure SharedWorldDelta where
  location : String := ""
  encounterId : Option String := none
  partyFormation : List PartyFormationEntry := []

inductive ResolutionPath
  | noChange
  | deltaAuthoritative
  | deltaOverwroteLocal
  deriving DecidableEq

structure MergeResult where
  deltaFields : List String
  conflictCount : Nat
  resolutionPath : ResolutionPath

namespace SharedSnapshot

variable (s : SharedSnapshot) (pid : String)

/-- The character of a player; none is "". -/
def charOf : String := (s.playerSeats.get? pid).getD ""

/-- The place of a player's character; none is "". -/
def locOf : String := (s.characterLocations.get? (s.charOf pid)).getD ""

end SharedSnapshot

/-- The players of a room that has a map from its slots to them. -/
def seatedPids (room : Option (Dict String String)) : List String :=
  (room.map Dict.values).getD []

def buildSharedWorldDelta (s : SharedSnapshot) (room : Option (Dict String String)) :
    SharedWorldDelta where
  location := s.toGameSnapshot.partyLocation.getD ""
  encounterId := s.encounter.bind (fun e => if e.2 then none else some e.1)
  partyFormation := (seatedPids room).map (fun pid =>
    { playerId := pid
      location := s.locOf pid
      adjacency := if s.locOf pid = "" then [] else
        (seatedPids room).filter (fun other => other ≠ pid ∧ s.locOf other = s.locOf pid) })

/-- What a merge has written, counted and found. -/
structure Merging where
  locations : Dict String String
  conflictCount : Nat := 0
  resolutionPath : ResolutionPath := .noChange

def mergeEntry (seats : Dict String String) (m : Merging) (entry : PartyFormationEntry) : Merging :=
  let name := (seats.get? entry.playerId).getD ""
  if entry.location = "" ∨ name = "" then m
  else
    let conflict := (m.locations.get? name).any (fun e => e ≠ "" ∧ e ≠ entry.location)
    { locations := m.locations.insert name entry.location
      conflictCount := if conflict then m.conflictCount + 1 else m.conflictCount
      resolutionPath := if conflict then .deltaOverwroteLocal
        else if m.resolutionPath = .noChange then .deltaAuthoritative else m.resolutionPath }

def mergeSharedDeltaIntoSnapshot (s : SharedSnapshot) (delta : SharedWorldDelta) :
    SharedSnapshot × MergeResult :=
  let m := delta.partyFormation.foldl (mergeEntry s.playerSeats) ⟨s.characterLocations, 0, .noChange⟩
  let told := delta.encounterId.isSome ∨ delta.partyFormation ≠ []
  ({ s with characterLocations := m.locations },
    { deltaFields := (if delta.partyFormation = [] then [] else ["location"]) ++
        (if delta.encounterId.isSome then ["encounter_id"] else []) ++
        (if delta.partyFormation = [] then [] else ["party_formation"])
      conflictCount := m.conflictCount
      resolutionPath := if m.resolutionPath = .noChange ∧ told then .deltaAuthoritative
        else m.resolutionPath })

/-! ### Adjacency -/

/-- Two players are adjacent in a delta. -/
def SharedWorldDelta.Adjacent (delta : SharedWorldDelta) (a b : String) : Prop :=
  ∃ entry ∈ delta.partyFormation, entry.playerId = a ∧ b ∈ entry.adjacency

variable {s receiver : SharedSnapshot} {room : Option (Dict String String)} {a b : String}

theorem adjacent_iff : (buildSharedWorldDelta s room).Adjacent a b ↔
    a ∈ seatedPids room ∧ b ∈ seatedPids room ∧ b ≠ a ∧ s.locOf a ≠ "" ∧ s.locOf b = s.locOf a := by
  unfold SharedWorldDelta.Adjacent buildSharedWorldDelta
  simp only [List.mem_map]
  constructor
  · rintro ⟨_, ⟨pid, hpid, rfl⟩, rfl, hb⟩
    dsimp only at hb ⊢
    split at hb
    · cases hb
    · next hloc =>
      obtain ⟨hmem, hb⟩ := List.mem_filter.mp hb
      obtain ⟨hne, heq⟩ := of_decide_eq_true hb
      exact ⟨hpid, hmem, hne, hloc, heq⟩
  · rintro ⟨ha, hb, hne, hloc, heq⟩
    refine ⟨_, ⟨a, ha, rfl⟩, rfl, ?_⟩
    dsimp only
    rw [if_neg hloc]
    exact List.mem_filter.mpr ⟨hb, decide_eq_true ⟨hne, heq⟩⟩

/-! ### Merging -/

/-- The seated characters whom the sender has placed. -/
def placed (s : SharedSnapshot) (pids : List String) : List String :=
  (pids.filter (fun pid => s.locOf pid ≠ "" ∧ s.charOf pid ≠ "")).map s.charOf

/-- Where the sender has placed a character. -/
def SharedSnapshot.placeOf (s : SharedSnapshot) (name : String) : String :=
  (s.characterLocations.get? name).getD ""

/-- A character stands somewhere else than the sender has it. -/
def Conflicts (s : SharedSnapshot) (places : Dict String String) (name : String) : Prop :=
  (places.get? name).any (fun e => e ≠ "" ∧ e ≠ s.placeOf name) = true

instance (s : SharedSnapshot) (places : Dict String String) :
    DecidablePred (Conflicts s places) := fun _ => inferInstanceAs (Decidable (_ = true))

/-- The entry of a player, as far as a merge reads it. -/
def mergePid (s : SharedSnapshot) (m : Merging) (pid : String) : Merging :=
  mergeEntry s.playerSeats m ⟨pid, s.locOf pid, []⟩

variable {pid : String} {pids : List String} {m : Merging}

theorem mergePid_of_placed (h : s.locOf pid ≠ "" ∧ s.charOf pid ≠ "") :
    mergePid s m pid =
      { locations := m.locations.insert (s.charOf pid) (s.placeOf (s.charOf pid))
        conflictCount := if Conflicts s m.locations (s.charOf pid) then m.conflictCount + 1
          else m.conflictCount
        resolutionPath := if Conflicts s m.locations (s.charOf pid) then .deltaOverwroteLocal
          else if m.resolutionPath = .noChange then .deltaAuthoritative else m.resolutionPath } :=
  if_neg (not_or.mpr h)

theorem mergePid_of_not_placed (h : ¬ (s.locOf pid ≠ "" ∧ s.charOf pid ≠ "")) :
    mergePid s m pid = m :=
  if_pos (by rwa [← not_or, not_not] at h)

/-- What the entries of a list of players leave of the places, the count and the path. -/
theorem foldl_mergePid (s : SharedSnapshot) (places : Dict String String) (pids : List String) :
    let m := pids.foldl (mergePid s) ⟨places, 0, .noChange⟩
    (∀ name, m.locations.get? name =
      if name ∈ placed s pids then some (s.placeOf name) else places.get? name) ∧
    m.conflictCount = ((placed s pids).toFinset.filter (Conflicts s places)).card ∧
    (m.resolutionPath = .noChange ↔ placed s pids = []) := by
  induction pids using List.reverseRecOn with
  | nil => exact ⟨fun _ => rfl, rfl, iff_of_true rfl rfl⟩
  | append_singleton pids pid ih =>
    obtain ⟨hget, hcount, hpath⟩ := ih
    dsimp only at hget hcount hpath ⊢
    rw [List.foldl_append]
    set m := pids.foldl (mergePid s) ⟨places, 0, .noChange⟩
    by_cases hplaced : s.locOf pid ≠ "" ∧ s.charOf pid ≠ ""
    · have hmore : placed s (pids ++ [pid]) = placed s pids ++ [s.charOf pid] := by
        simp [placed, hplaced]
      rw [hmore, List.foldl_cons, List.foldl_nil, mergePid_of_placed hplaced]
      have hconflicts : Conflicts s m.locations (s.charOf pid) ↔
          s.charOf pid ∉ placed s pids ∧ Conflicts s places (s.charOf pid) := by
        unfold Conflicts
        rw [hget]
        by_cases hmem : s.charOf pid ∈ placed s pids <;> simp [hmem]
      refine ⟨fun name => ?_, ?_, ?_⟩
      · rw [Dict.get?_insert, hget]
        by_cases hname : name = s.charOf pid <;> simp [hname]
      · rw [List.toFinset_append, List.toFinset_cons, List.toFinset_nil, hcount]
        by_cases hmem : s.charOf pid ∈ placed s pids
        · rw [if_neg (fun h => (hconflicts.mp h).1 hmem), Finset.union_eq_left.mpr (by simpa using hmem)]
        · have hnew : (placed s pids).toFinset ∪ {s.charOf pid} =
              insert (s.charOf pid) (placed s pids).toFinset := Finset.union_comm _ _
          rw [insert_empty_eq, hnew, Finset.filter_insert]
          by_cases hconflict : Conflicts s places (s.charOf pid)
          · rw [if_pos (hconflicts.mpr ⟨hmem, hconflict⟩), if_pos hconflict,
              Finset.card_insert_of_notMem (by simp [hmem])]
          · rw [if_neg (fun h => hconflict (hconflicts.mp h).2), if_neg hconflict]
      · refine iff_of_false ?_ (by simp)
        dsimp only
        split
        · simp
        · split <;> simp_all
    · have hmore : placed s (pids ++ [pid]) = placed s pids := by
        simp only [placed, List.filter_append, List.map_append]
        rw [List.filter_cons_of_neg (by simpa using hplaced), List.filter_nil, List.map_nil,
          List.append_nil]
      rw [hmore, List.foldl_cons, List.foldl_nil, mergePid_of_not_placed hplaced]
      exact ⟨hget, hcount, hpath⟩

/-- A merge of what is there already writes nothing and finds no conflict. -/
theorem foldl_mergePid_agreed (pids : List String) (m : Merging) (hagreed : ∀ name ∈ placed s pids,
    m.locations.get? name = some (s.placeOf name)) :
    (pids.foldl (mergePid s) m).locations = m.locations ∧
      (pids.foldl (mergePid s) m).conflictCount = m.conflictCount := by
  induction pids generalizing m with
  | nil => exact ⟨rfl, rfl⟩
  | cons pid pids ih =>
    rw [List.foldl_cons]
    have hstep : (mergePid s m pid).locations = m.locations ∧
        (mergePid s m pid).conflictCount = m.conflictCount := by
      by_cases hplaced : s.locOf pid ≠ "" ∧ s.charOf pid ≠ ""
      · have hthere := hagreed (s.charOf pid) (by simp [placed, hplaced])
        rw [mergePid_of_placed hplaced]
        refine ⟨Dict.insert_eq_self_iff.mpr hthere, if_neg ?_⟩
        simp [Conflicts, hthere]
      · rw [mergePid_of_not_placed hplaced]
        exact ⟨rfl, rfl⟩
    obtain ⟨hplaces, hcount⟩ := ih _ (fun name hname => by
      rw [hstep.1]
      refine hagreed name ?_
      unfold placed at hname ⊢
      rw [List.filter_cons]
      split
      · exact List.mem_cons_of_mem _ hname
      · exact hname)
    exact ⟨hplaces.trans hstep.1, hcount.trans hstep.2⟩

theorem foldl_mergeEntry (hseats : receiver.playerSeats = s.playerSeats) (m : Merging) :
    (buildSharedWorldDelta s room).partyFormation.foldl (mergeEntry receiver.playerSeats) m =
      (seatedPids room).foldl (mergePid s) m := by
  unfold buildSharedWorldDelta
  rw [List.foldl_map, hseats]
  rfl

/-- The sender has nothing to tell: nobody is seated in the room, and no encounter is live. -/
def Silent (s : SharedSnapshot) (room : Option (Dict String String)) : Prop :=
  seatedPids room = [] ∧ (buildSharedWorldDelta s room).encounterId = none

/-- **The handshake.** Its path is told truly exactly if the sender is silent, or has a character
    somewhere else than the receiver. -/
theorem handshake_spec (s receiver : SharedSnapshot) (room : Option (Dict String String))
    (hseats : receiver.playerSeats = s.playerSeats) :
    let delta := buildSharedWorldDelta s room
    let names := placed s (seatedPids room)
    let after := (mergeSharedDeltaIntoSnapshot receiver delta).1
    let result := (mergeSharedDeltaIntoSnapshot receiver delta).2
    ((∀ a, ¬ delta.Adjacent a a) ∧ (∀ a b, delta.Adjacent a b → delta.Adjacent b a) ∧
      ∀ a b c, delta.Adjacent a b → delta.Adjacent b c → a ≠ c → delta.Adjacent a c) ∧
    (after = { receiver with characterLocations := after.characterLocations } ∧
      ∀ name, after.characterLocations.get? name = if name ∈ names then some (s.placeOf name)
        else receiver.characterLocations.get? name) ∧
    result.conflictCount = (names.toFinset.filter (Conflicts s receiver.characterLocations)).card ∧
    ((mergeSharedDeltaIntoSnapshot after delta).1 = after ∧
      (mergeSharedDeltaIntoSnapshot after delta).2.conflictCount = 0) ∧
    ((result.resolutionPath = .noChange ↔ after = receiver) ↔ Silent s room ∨
      ∃ name ∈ names, receiver.characterLocations.get? name ≠ some (s.placeOf name)) := by
  intro delta names after result
  have hfold : delta.partyFormation.foldl (mergeEntry receiver.playerSeats)
      ⟨receiver.characterLocations, 0, .noChange⟩ =
        (seatedPids room).foldl (mergePid s) ⟨receiver.characterLocations, 0, .noChange⟩ :=
    foldl_mergeEntry hseats _
  obtain ⟨hget, hcount, hpath⟩ := foldl_mergePid s receiver.characterLocations (seatedPids room)
  rw [← hfold] at hget hcount hpath
  -- the delta names the same places, so a second merge finds them agreed
  have hsecond : delta.partyFormation.foldl (mergeEntry after.playerSeats)
      ⟨after.characterLocations, 0, .noChange⟩ =
        (seatedPids room).foldl (mergePid s) ⟨after.characterLocations, 0, .noChange⟩ :=
    foldl_mergeEntry hseats _
  have hagain := foldl_mergePid_agreed (seatedPids room) ⟨after.characterLocations, 0, .noChange⟩
    (fun name hname => (hget name).trans (if_pos hname))
  rw [← hsecond] at hagain
  have hsame : after = receiver ↔
      ∀ name ∈ names, receiver.characterLocations.get? name = some (s.placeOf name) := by
    constructor
    · intro heq name hname
      rw [← heq]
      exact (hget name).trans (if_pos hname)
    · intro hagreed
      have hkept := (foldl_mergePid_agreed _ ⟨receiver.characterLocations, 0, .noChange⟩ hagreed).1
      rw [← hfold] at hkept
      exact congrArg (fun places => { receiver with characterLocations := places }) hkept
  -- no change is reported where nobody is placed and nothing is told
  have hsilent : result.resolutionPath = .noChange ↔ Silent s room := by
    have hpathOf : result.resolutionPath = .noChange ↔ placed s (seatedPids room) = [] ∧
        ¬ (delta.encounterId.isSome ∨ delta.partyFormation ≠ []) := by
      rw [← hpath]
      change (if _ ∧ _ then _ else _) = _ ↔ _
      split
      · next htold => exact iff_of_false (by simp) (fun h => h.2 htold.2)
      · next hnot => exact ⟨fun h => ⟨h, fun htold => hnot ⟨h, htold⟩⟩, And.left⟩
    rw [hpathOf, not_or, not_not, Option.not_isSome_iff_eq_none,
      show delta.partyFormation = [] ↔ seatedPids room = [] from List.map_eq_nil_iff]
    exact ⟨fun h => ⟨h.2.2, h.2.1⟩, fun h => ⟨by simp [h.1, placed], h.2, h.1⟩⟩
  refine ⟨⟨fun a => ?_, fun a b => ?_, fun a b c => ?_⟩, ⟨rfl, hget⟩, hcount, ⟨?_, hagain.2⟩, ?_⟩
  · rw [adjacent_iff]
    exact fun h => h.2.2.1 rfl
  · rw [adjacent_iff, adjacent_iff]
    rintro ⟨ha, hb, hne, hloc, heq⟩
    exact ⟨hb, ha, hne.symm, heq ▸ hloc, heq.symm⟩
  · rw [adjacent_iff, adjacent_iff, adjacent_iff]
    rintro ⟨ha, -, -, hloc, hab⟩ ⟨-, hc, -, -, hbc⟩ hne
    exact ⟨ha, hc, hne.symm, hloc, hbc.trans hab⟩
  · exact congrArg (fun places => { after with characterLocations := places }) hagain.1
  · rw [hsame, hsilent]
    constructor
    · intro htold
      by_cases hquiet : Silent s room
      · exact .inl hquiet
      · right
        by_contra hall
        push Not at hall
        exact hquiet (htold.mpr hall)
    · rintro (hquiet | ⟨name, hname, hother⟩)
      · refine iff_of_true hquiet (fun name hname => ?_)
        rw [show names = [] from by simp [names, hquiet.1, placed]] at hname
        cases hname
      · refine iff_of_false (fun hquiet => ?_) (fun hall => hother (hall name hname))
        rw [show names = [] from by simp [names, hquiet.1, placed]] at hname
        cases hname

/-- Rek in a place. -/
def rekIn (place : String) : SharedSnapshot :=
  { playerSeats := ⟨[("p1", "Rek")], by simp⟩, characterLocations := ⟨[("Rek", place)], by simp⟩ }

def rekSeated : Option (Dict String String) := some ⟨[("Rek", "p1")], by simp⟩

theorem handshake_spec_moved : (mergeSharedDeltaIntoSnapshot (rekIn "attic")
    (buildSharedWorldDelta (rekIn "hall") rekSeated)).2.conflictCount = 1 :=
  (handshake_spec (rekIn "hall") (rekIn "attic") rekSeated rfl).2.2.1.trans (by decide)

/-- Nothing is altered where both have Rek in the hall, and that is not told. -/
theorem not_told_noChange :
    let merged := mergeSharedDeltaIntoSnapshot (rekIn "hall")
      (buildSharedWorldDelta (rekIn "hall") rekSeated)
    merged.1 = rekIn "hall" ∧ merged.2.resolutionPath ≠ .noChange :=
  ⟨rfl, by decide⟩

/-! ### Deltas one after another -/

/-- Merge what arrives, in the order in which it arrives. -/
def mergeDeltas (s : SharedSnapshot) (deltas : List SharedWorldDelta) : SharedSnapshot :=
  deltas.foldl (fun s delta => (mergeSharedDeltaIntoSnapshot s delta).1) s

/-- The entry has a place for the character. -/
def PartyFormationEntry.places (seats : Dict String String) (name : String)
    (entry : PartyFormationEntry) : Bool :=
  entry.location ≠ "" ∧ name ≠ "" ∧ seats.get? entry.playerId = some name

/-- Where the last entry that has a place for the character leaves it. -/
def lastPlace (seats : Dict String String) (name : String) (entries : List PartyFormationEntry) :
    Option String :=
  (entries.reverse.find? (·.places seats name)).map PartyFormationEntry.location

theorem lastPlace_cons (seats : Dict String String) (name : String) (entry : PartyFormationEntry)
    (entries : List PartyFormationEntry) : lastPlace seats name (entry :: entries)
      = (lastPlace seats name entries).or
        (if entry.places seats name then some entry.location else none) := by
  unfold lastPlace
  rw [List.reverse_cons, List.find?_append]
  cases entries.reverse.find? (·.places seats name) with
  | some other => rfl
  | none => cases h : entry.places seats name <;> simp [h]

theorem get?_mergeEntry (seats : Dict String String) (m : Merging) (entry : PartyFormationEntry)
    (name : String) : (mergeEntry seats m entry).locations.get? name
      = if entry.places seats name then some entry.location else m.locations.get? name := by
  unfold mergeEntry PartyFormationEntry.places
  cases hseat : seats.get? entry.playerId with
  | none => simp
  | some owner =>
    dsimp only [Option.getD_some]
    split
    · rename_i hnone
      rw [if_neg]
      simp only [decide_eq_true_eq, Option.some.injEq]
      rintro ⟨hplace, hname, rfl⟩
      exact hnone.elim hplace hname
    · rename_i hsome
      rw [Dict.get?_insert]
      by_cases hname : name = owner
      · subst hname
        simp [not_or.mp hsome]
      · simp [hname, Ne.symm hname]

theorem get?_foldl_mergeEntry (seats : Dict String String) (entries : List PartyFormationEntry)
    (m : Merging) (name : String) : (entries.foldl (mergeEntry seats) m).locations.get? name
      = (lastPlace seats name entries).or (m.locations.get? name) := by
  induction entries generalizing m with
  | nil => rfl
  | cons entry entries ih =>
    rw [List.foldl_cons, ih, get?_mergeEntry, lastPlace_cons]
    cases lastPlace seats name entries with
    | some place => rfl
    | none => split <;> rfl

/-- **The last writer wins.** However many deltas arrive, a character stands where the last entry
    with a place for it has it, and one without such an entry stays; nothing else changes. -/
theorem mergeDeltas_lastWriter (s : SharedSnapshot) (deltas : List SharedWorldDelta) :
    mergeDeltas s deltas
        = { s with characterLocations := (mergeDeltas s deltas).characterLocations } ∧
      ∀ name, (mergeDeltas s deltas).characterLocations.get? name
        = (lastPlace s.playerSeats name (deltas.flatMap (·.partyFormation))).or
          (s.characterLocations.get? name) := by
  induction deltas generalizing s with
  | nil => exact ⟨rfl, fun _ => rfl⟩
  | cons delta deltas ih =>
    obtain ⟨hframe, hget⟩ := ih (mergeSharedDeltaIntoSnapshot s delta).1
    refine ⟨hframe, fun name => (hget name).trans ?_⟩
    have hmerged := get?_foldl_mergeEntry s.playerSeats delta.partyFormation
      ⟨s.characterLocations, 0, .noChange⟩ name
    refine (congrArg _ hmerged).trans ?_
    rw [← Option.or_assoc, List.flatMap_cons]
    congr 1
    simp only [lastPlace, List.reverse_append, List.find?_append, Option.map_or]
    rfl

end Sidequest.World
