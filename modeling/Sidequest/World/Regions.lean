import Sidequest.World.Patch

namespace Sidequest.World

open Lib

/-!
# What a patch does to the map

The observers and the minting of quests touch nothing of where anybody is. So the two region
branches are plain functions of the map, applied to as many moves as the branch comes to.

* `SameCast`, `Quiet` — what observers, mints and the map leave alone;
* `notified_moves` — who was told after a list of moves.
-/

/-! ### What is left alone -/

/-- Nobody was hurt, taught or seated, and the scene is the same one. -/
structure SameCast (s s' : Session) : Prop where
  playerSeats : s'.playerSeats = s.playerSeats
  characters : s'.characters = s.characters
  npcs : s'.npcs = s.npcs
  characterLocations : s'.characterLocations = s.characterLocations
  timeOfDay : s'.timeOfDay = s.timeOfDay
  atmosphere : s'.atmosphere = s.atmosphere
  notes : s'.notes = s.notes
  discoveredRoutes : s'.discoveredRoutes = s.discoveredRoutes
  loreEstablished : s'.loreEstablished = s.loreEstablished
  interaction : s'.interaction = s.interaction

/-- Nobody moved, either, and nobody was told of anything. -/
structure Quiet (s s' : Session) : Prop extends SameCast s s' where
  pcRegions : s'.pcRegions = s.pcRegions
  regionTransitions : s'.regionTransitions = s.regionTransitions
  currentRegion : s'.currentRegion = s.currentRegion
  notified : s'.notified = s.notified

theorem SameCast.refl (s : Session) : SameCast s s :=
  ⟨rfl, rfl, rfl, rfl, rfl, rfl, rfl, rfl, rfl, rfl⟩

variable {s' : Session}

theorem SameCast.trans {s s'' : Session} (h : SameCast s s') (h' : SameCast s' s'') :
    SameCast s s'' where
  playerSeats := h'.playerSeats.trans h.playerSeats
  characters := h'.characters.trans h.characters
  npcs := h'.npcs.trans h.npcs
  characterLocations := h'.characterLocations.trans h.characterLocations
  timeOfDay := h'.timeOfDay.trans h.timeOfDay
  atmosphere := h'.atmosphere.trans h.atmosphere
  notes := h'.notes.trans h.notes
  discoveredRoutes := h'.discoveredRoutes.trans h.discoveredRoutes
  loreEstablished := h'.loreEstablished.trans h.loreEstablished
  interaction := h'.interaction.trans h.interaction

instance : IsPreorder Session Quiet where
  refl s := { SameCast.refl s with
    pcRegions := rfl
    regionTransitions := rfl
    currentRegion := rfl
    notified := rfl }
  trans _ _ _ h h' := { h.toSameCast.trans h'.toSameCast with
    pcRegions := h'.pcRegions.trans h.pcRegions
    regionTransitions := h'.regionTransitions.trans h.regionTransitions
    currentRegion := h'.currentRegion.trans h.currentRegion
    notified := h'.notified.trans h.notified }

/-- The same cast, the same party. -/
theorem SameCast.party_eq {s : Session} (h : SameCast s s') : s'.party = s.party := by
  unfold GameSnapshot.party GameSnapshot.seated
  rw [h.playerSeats, h.characters]

variable {F : Type} (ctx : PatchContext F)

/-! ### Observers and mints are quiet -/

/-- An observer leaves the regions and the receipts alone. -/
theorem quiet_observe (observer : FrontierObserver) (notice : RegionNotice) :
    Preserves Quiet (onSnapshot (observer.observe notice)) := by
  intro s
  have hsame := observer.sameButQuests notice s.toGameSnapshot
  show Quiet s { s with toGameSnapshot := ((observer.observe notice).exec s.toGameSnapshot).2 }
  rw [hsame]
  exact ⟨⟨rfl, rfl, rfl, rfl, rfl, rfl, rfl, rfl, rfl, rfl⟩, rfl, rfl, rfl, rfl⟩

/-- So does the offer of a quest. -/
theorem quiet_mintQuestOffer (questId : String) : Preserves Quiet (mintQuestOffer questId) := by
  intro s
  unfold mintQuestOffer
  rw [Effect.exec_bind, Effect.exec_get]
  dsimp only
  split
  · exact ⟨⟨rfl, rfl, rfl, rfl, rfl, rfl, rfl, rfl, rfl, rfl⟩, rfl, rfl, rfl, rfl⟩
  · split
    · exact refl_of Quiet s
    · split
      · exact refl_of Quiet s
      · exact ⟨⟨rfl, rfl, rfl, rfl, rfl, rfl, rfl, rfl, rfl, rfl⟩, rfl, rfl, rfl, rfl⟩

variable (fromRegion : Option String)

/-- So do all offers of a crossing. -/
theorem quiet_mintOnAnchorCrossing (toRegion : String) :
    Preserves Quiet (mintOnAnchorCrossing fromRegion toRegion) := by
  unfold mintOnAnchorCrossing
  refine preserves_get.bind (fun s => ?_)
  refine Preserves.ite (preserves_pure []) ?_
  refine preserves_foldlM (fun minted questId => ?_) _ _
  exact (quiet_mintQuestOffer questId).bind (fun entry => preserves_pure _)

/-- Telling the observers is the announcement, and quiet otherwise. -/
theorem quiet_notifyRegionTransition (notice : RegionNotice) (s : Session) :
    Quiet (announce notice s) ((notifyRegionTransition ctx notice).exec s).2 :=
  preserves_forM (fun observer => quiet_observe observer notice) ctx.observers (announce notice s)

/-! ### The region branches as functions of the map -/

/-- The notice an entry of `pc_region` calls for: none for an empty region or for no change. -/
def crossing (regions : Dict String String) (move : String × String) : Option RegionNotice :=
  if move.2 ≠ "" ∧ regions.get? move.1 ≠ some move.2 then
    some { pcName := move.1, fromRegion := orNone (regions.get? move.1), toRegion := move.2 }
  else none

/-- The receipt for a notice. -/
def receipt (turn : Nat) (notice : RegionNotice) : RegionTransition where
  turn := turn
  pcName := notice.pcName
  fromRegion := notice.fromRegion
  toRegion := notice.toRegion
  via := "world_patch"

/-- One entry of `pc_region` on the map. -/
def moveOnMap (s : Session) (move : String × String) : Session :=
  match crossing s.pcRegions move with
  | some notice => announce notice (stampTransition notice (setPcRegion move.1 move.2 s))
  | none => setPcRegion move.1 move.2 s

/-- The anchor's move on the map, of which some are told. -/
def gatherOnMap (toRegion : String) (told : List String) (s : Session) : Session :=
  told.foldl (fun s pcName => announce (anchorNotice fromRegion toRegion pcName) s)
    (seedMissing toRegion s)

theorem quiet_announce {s : Session} (h : Quiet s s') (notice : RegionNotice) :
    Quiet (announce notice s) (announce notice s') :=
  { h with
    notified := by
      show s'.notified ++ [notice] = s.notified ++ [notice]
      rw [h.notified] }

theorem quiet_setPcRegion {s : Session} (h : Quiet s s') (pcName toRegion : String) :
    Quiet (setPcRegion pcName toRegion s) (setPcRegion pcName toRegion s') :=
  { h with
    pcRegions := by
      show s'.pcRegions.insert pcName toRegion = s.pcRegions.insert pcName toRegion
      rw [h.pcRegions] }

theorem quiet_stampTransition {s : Session} (h : Quiet s s') (notice : RegionNotice) :
    Quiet (stampTransition notice s) (stampTransition notice s') :=
  { h with
    regionTransitions := by
      show s'.regionTransitions ++ [receipt s'.interaction notice]
        = s.regionTransitions ++ [receipt s.interaction notice]
      rw [h.regionTransitions, h.interaction] }

/-- What was quiet before a move on the map is so behind it. -/
theorem quiet_moveOnMap {s : Session} (h : Quiet s s') (move : String × String) :
    Quiet (moveOnMap s move) (moveOnMap s' move) := by
  unfold moveOnMap
  rw [h.pcRegions]
  cases crossing s.pcRegions move with
  | none => exact quiet_setPcRegion h move.1 move.2
  | some notice =>
    apply quiet_announce
    apply quiet_stampTransition
    exact quiet_setPcRegion h move.1 move.2

/-- **One move** is the move on the map, up to what is quiet. -/
theorem quiet_movePc (move : String × String) (s : Session) :
    Quiet (moveOnMap s move) ((movePc ctx move).exec s).2 := by
  unfold movePc moveOnMap crossing
  rw [Effect.exec_bind, Effect.exec_get]
  dsimp only
  rw [Effect.exec_bind, Effect.exec_modify]
  dsimp only
  by_cases hgenuine : move.2 ≠ "" ∧ s.pcRegions.get? move.1 ≠ some move.2
  · rw [if_pos hgenuine, if_pos hgenuine]
    set notice : RegionNotice := { pcName := move.1
                                   fromRegion := orNone (s.pcRegions.get? move.1)
                                   toRegion := move.2 }
    -- past the receipt and the notice, the observers and the mints are quiet
    unfold crossInto
    rw [Effect.exec_bind, Effect.exec_modify]
    dsimp only
    rw [Effect.exec_bind]
    have htold := quiet_notifyRegionTransition ctx notice
      (stampTransition notice (setPcRegion move.1 move.2 s))
    rcases hexec : (notifyRegionTransition ctx notice).exec
      (stampTransition notice (setPcRegion move.1 move.2 s)) with ⟨e | u, s'⟩
    · rw [hexec] at htold
      exact htold
    · rw [hexec] at htold
      have hmint := (quiet_mintOnAnchorCrossing notice.fromRegion notice.toRegion).bind
        (fun _ => preserves_pure ()) s'
      exact trans_of Quiet htold hmint
  · rw [if_neg hgenuine, if_neg hgenuine]
    exact refl_of Quiet _

/-- **Moves** come to the moves on the map that are reached, up to what is quiet. -/
theorem quiet_forM_movePc (moves : List (String × String)) (s : Session) :
    Quiet ((reached (movePc ctx) moves s).foldl moveOnMap s)
      ((moves.forM (movePc ctx)).exec s).2 := by
  refine exec_forM_reached (I := fun done s' => Quiet (done.foldl moveOnMap s) s') ?_ moves []
    (refl_of Quiet s)
  intro done move s' hdone
  rw [List.foldl_append]
  exact trans_of Quiet (quiet_moveOnMap hdone move) (quiet_movePc ctx move s')

variable (patch : WorldStatePatch F)

/-- The moves the `pc_region` branch comes to. -/
def movesReached (s : Session) : List (String × String) :=
  match patch.pcRegion with
  | none => []
  | some moves => reached (movePc ctx) moves.entries s

/-- The map after the `pc_region` branch, if it returns. -/
def afterMoves (s : Session) : Session :=
  match patch.pcRegion with
  | none => s
  | some moves => syncAnchor (moves.entries.foldl moveOnMap s)

theorem quiet_syncAnchor {s : Session} (h : Quiet s s') : Quiet (syncAnchor s) (syncAnchor s') :=
  { h with
    currentRegion := by
      show (orNone s'.regionFor).getD s'.currentRegion = (orNone s.regionFor).getD s.currentRegion
      unfold GameSnapshot.regionFor GameSnapshot.seated
      rw [h.pcRegions, h.playerSeats, h.currentRegion] }

/-- **The `pc_region` branch.** It is all its moves and the anchor's sync on the map, or, where it
    raises, the moves up to the one that raises. -/
theorem quiet_applyPcRegion (s : Session) : match (applyPcRegion ctx patch).exec s with
    | (.ok _, s') => Quiet (afterMoves patch s) s'
    | (.error _, s') => Quiet ((movesReached ctx patch s).foldl moveOnMap s) s' := by
  unfold applyPcRegion afterMoves movesReached
  cases patch.pcRegion with
  | none => exact refl_of Quiet s
  | some moves =>
    have hloop := quiet_forM_movePc ctx moves.entries s
    rw [Effect.exec_bind]
    rcases hexec : (moves.entries.forM (movePc ctx)).exec s with ⟨e | u, s'⟩
    · rw [hexec] at hloop
      exact hloop
    · rw [hexec, reached_eq_of_ok hexec] at hloop
      exact quiet_syncAnchor hloop

/-- The moves the branch comes to are all, if it returns. -/
theorem movesReached_of_ok {patch : WorldStatePatch F} {s : Session} {u : Unit}
    (hexec : (applyPcRegion ctx patch).exec s = (.ok u, s')) :
    movesReached ctx patch s = (patch.pcRegion.map Dict.entries).getD [] := by
  unfold applyPcRegion at hexec
  unfold movesReached
  cases hpatch : patch.pcRegion with
  | none => rfl
  | some moves =>
    rw [hpatch] at hexec
    rw [Effect.exec_bind] at hexec
    rcases hloop : (moves.entries.forM (movePc ctx)).exec s with ⟨e | u, s''⟩
    · rw [hloop] at hexec
      simp at hexec
    · exact reached_eq_of_ok hloop

/-! ### Where everybody is after a list of moves, and who was told -/

/-- A move on the map: the region of its PC, and of nobody else. -/
@[simp] theorem pcRegions_moveOnMap (s : Session) (move : String × String) :
    (moveOnMap s move).pcRegions = s.pcRegions.insert move.1 move.2 := by
  unfold moveOnMap
  cases crossing s.pcRegions move with
  | none => rfl
  | some notice => rfl

@[simp] theorem currentRegion_moveOnMap (s : Session) (move : String × String) :
    (moveOnMap s move).currentRegion = s.currentRegion := by
  unfold moveOnMap
  cases crossing s.pcRegions move with
  | none => rfl
  | some notice => rfl

/-- A move on the map changes no cast. -/
theorem sameCast_moveOnMap (s : Session) (move : String × String) :
    SameCast s (moveOnMap s move) := by
  unfold moveOnMap
  cases crossing s.pcRegions move with
  | none => exact ⟨rfl, rfl, rfl, rfl, rfl, rfl, rfl, rfl, rfl, rfl⟩
  | some notice => exact ⟨rfl, rfl, rfl, rfl, rfl, rfl, rfl, rfl, rfl, rfl⟩

/-- Observers are told of a crossing, and of nothing else. -/
theorem notified_moveOnMap (s : Session) (move : String × String) :
    (moveOnMap s move).notified = s.notified ++ (crossing s.pcRegions move).toList := by
  unfold moveOnMap
  cases crossing s.pcRegions move with
  | none => exact (List.append_nil s.notified).symm
  | some notice => rfl

/-- A crossing has a receipt, and nothing else has. -/
theorem regionTransitions_moveOnMap (s : Session) (move : String × String) :
    (moveOnMap s move).regionTransitions = s.regionTransitions
      ++ ((crossing s.pcRegions move).map (receipt s.interaction)).toList := by
  unfold moveOnMap
  cases crossing s.pcRegions move with
  | none => exact (List.append_nil s.regionTransitions).symm
  | some notice => rfl

variable {move : String × String}

/-- Whether a move is a crossing depends on the entry of the one who moves. -/
theorem crossing_congr {regions regions' : Dict String String}
    (h : regions'.get? move.1 = regions.get? move.1) :
    crossing regions' move = crossing regions move := by
  unfold crossing
  rw [h]

/-- The notice of a crossing says where the character was and where it goes. -/
theorem crossing_eq_some {regions : Dict String String} {notice : RegionNotice}
    (h : crossing regions move = some notice) :
    notice.pcName = move.1 ∧ notice.toRegion = move.2 ∧ move.2 ≠ "" ∧
      notice.fromRegion = orNone (regions.get? move.1) ∧ regions.get? move.1 ≠ some move.2 := by
  unfold crossing at h
  by_cases hgo : move.2 ≠ "" ∧ regions.get? move.1 ≠ some move.2
  · rw [if_pos hgo] at h
    cases h
    exact ⟨rfl, rfl, hgo.1, rfl, hgo.2⟩
  · rw [if_neg hgo] at h
    simp at h

section Moves

variable {moves : List (String × String)} (s : Session)

theorem sameCast_moves (moves : List (String × String)) (s : Session) :
    SameCast s (moves.foldl moveOnMap s) := by
  induction moves generalizing s with
  | nil => exact SameCast.refl s
  | cons move moves ih => exact (sameCast_moveOnMap s move).trans (ih (moveOnMap s move))

theorem currentRegion_moves (moves : List (String × String)) (s : Session) :
    (moves.foldl moveOnMap s).currentRegion = s.currentRegion := by
  induction moves generalizing s with
  | nil => rfl
  | cons move moves ih => exact (ih (moveOnMap s move)).trans (currentRegion_moveOnMap s move)

/-- Who is not moved stays. -/
theorem get?_moves_of_not_mem {pcName : String} (h : pcName ∉ moves.map Prod.fst) :
    (moves.foldl moveOnMap s).pcRegions.get? pcName = s.pcRegions.get? pcName := by
  induction moves generalizing s with
  | nil => rfl
  | cons move moves ih =>
    rw [List.map_cons, List.mem_cons, not_or] at h
    have hrest := ih (moveOnMap s move) h.2
    rw [pcRegions_moveOnMap, Dict.get?_insert, if_neg h.1] at hrest
    exact hrest

/-- Who is moved arrives. -/
theorem get?_moves_of_mem (hnd : (moves.map Prod.fst).Nodup) (h : move ∈ moves) :
    (moves.foldl moveOnMap s).pcRegions.get? move.1 = some move.2 := by
  induction moves generalizing s with
  | nil => simp at h
  | cons first moves ih =>
    rw [List.map_cons, List.nodup_cons] at hnd
    rcases List.mem_cons.mp h with rfl | hmem
    · have hrest := get?_moves_of_not_mem (moveOnMap s move) hnd.1
      rw [pcRegions_moveOnMap, Dict.get?_insert, if_pos rfl] at hrest
      exact hrest
    · exact ih (moveOnMap s first) hnd.2 hmem

/-- A list of moves of different characters calls for the notices that each of them calls for. -/
theorem filterMap_crossing_moveOnMap (h : move.1 ∉ moves.map Prod.fst) :
    moves.filterMap (crossing (moveOnMap s move).pcRegions)
      = moves.filterMap (crossing s.pcRegions) := by
  apply List.filterMap_congr
  intro m hm
  apply crossing_congr
  have hne : m.1 ≠ move.1 := fun heq => h (heq ▸ List.mem_map_of_mem hm)
  rw [pcRegions_moveOnMap, Dict.get?_insert, if_neg hne]

/-- Observers are told of the crossings of a party, in the order of its moves. -/
theorem notified_moves (hnd : (moves.map Prod.fst).Nodup) : (moves.foldl moveOnMap s).notified
      = s.notified ++ moves.filterMap (crossing s.pcRegions) := by
  induction moves generalizing s with
  | nil => exact (List.append_nil s.notified).symm
  | cons move moves ih =>
    rw [List.map_cons, List.nodup_cons] at hnd
    rw [List.foldl_cons, ih (moveOnMap s move) hnd.2, notified_moveOnMap,
      filterMap_crossing_moveOnMap s hnd.1, List.append_assoc]
    cases hcross : crossing s.pcRegions move with
    | none => rw [List.filterMap_cons_none hcross, Option.toList_none, List.nil_append]
    | some notice =>
      rw [List.filterMap_cons_some hcross, Option.toList_some, List.singleton_append]

/-- The receipts of a party that moves are those of its crossings. -/
theorem regionTransitions_moves (hnd : (moves.map Prod.fst).Nodup) :
    (moves.foldl moveOnMap s).regionTransitions = s.regionTransitions
      ++ (moves.filterMap (crossing s.pcRegions)).map (receipt s.interaction) := by
  induction moves generalizing s with
  | nil => exact (List.append_nil s.regionTransitions).symm
  | cons move moves ih =>
    rw [List.map_cons, List.nodup_cons] at hnd
    rw [List.foldl_cons, ih (moveOnMap s move) hnd.2, regionTransitions_moveOnMap,
      filterMap_crossing_moveOnMap s hnd.1, (sameCast_moveOnMap s move).interaction,
      List.append_assoc]
    cases hcross : crossing s.pcRegions move with
    | none =>
      rw [List.filterMap_cons_none hcross, Option.map_none, Option.toList_none, List.nil_append]
    | some notice =>
      rw [List.filterMap_cons_some hcross, Option.map_some, Option.toList_some,
        List.singleton_append, List.map_cons]

end Moves

/-- The moves change the map only. -/
theorem sameCast_applyPcRegion (s : Session) : SameCast s ((applyPcRegion ctx patch).exec s).2 := by
  have hbranch := quiet_applyPcRegion ctx patch s
  rcases hexec : (applyPcRegion ctx patch).exec s with ⟨e | u, s'⟩
  · rw [hexec] at hbranch
    exact (sameCast_moves _ s).trans hbranch.toSameCast
  · rw [hexec] at hbranch
    refine SameCast.trans ?_ hbranch.toSameCast
    unfold afterMoves
    cases patch.pcRegion with
    | none => exact SameCast.refl s
    | some moves =>
      have hmoved := sameCast_moves moves.entries s
      exact { hmoved with }

/-! ### The anchor -/

/-- A name is seeded where it has no region. -/
theorem get?_seedName (toRegion : String) (acc : Dict String String × Nat) (name pcName : String) :
    (GameSnapshot.seedName toRegion true acc name).1.get? pcName =
      if pcName = name ∧ acc.1.get? pcName = none then some toRegion else acc.1.get? pcName := by
  unfold GameSnapshot.seedName
  by_cases hkey : name ∈ acc.1.keys
  · obtain ⟨r, hr⟩ := Dict.mem_keys_iff_get?.mp hkey
    have hno : ¬ (pcName = name ∧ acc.1.get? pcName = none) := by
      intro h
      rw [h.1, hr] at h
      exact absurd h.2 (by simp)
    rw [if_pos ⟨rfl, hkey⟩, if_neg hno]
  · have hnone := Dict.get?_eq_none_iff.mpr hkey
    rw [if_neg (fun h => hkey h.2)]
    rw [Dict.get?_insert]
    by_cases heq : pcName = name
    · rw [if_pos heq, if_pos ⟨heq, heq ▸ hnone⟩]
    · rw [if_neg heq, if_neg (fun h => heq h.1)]

/-- Of the party, those who have no region are seeded, and nobody else is. -/
theorem get?_seedMissing (toRegion : String) (s : Session) (pcName : String) :
    (seedMissing toRegion s).pcRegions.get? pcName =
      if pcName ∈ s.party ∧ s.pcRegions.get? pcName = none then some toRegion
      else s.pcRegions.get? pcName := by
  have hfold : ∀ (names : List String) (acc : Dict String String × Nat),
      (names.foldl (GameSnapshot.seedName toRegion true) acc).1.get? pcName =
        if pcName ∈ names ∧ acc.1.get? pcName = none then some toRegion
        else acc.1.get? pcName := by
    intro names
    induction names with
    | nil => simp
    | cons name names ih =>
      intro acc
      rw [List.foldl_cons, ih, get?_seedName]
      by_cases hnone : acc.1.get? pcName = none
      · by_cases heq : pcName = name
        · simp [heq, heq ▸ hnone]
        · simp [heq, hnone]
      · simp [hnone]
  exact hfold s.party (s.pcRegions, 0)

/-- Those the seam is fired for when the anchor moves, until an observer raises. -/
def told (toRegion : String) (s : Session) : List String :=
  reached (fun pcName => notifyRegionTransition ctx (anchorNotice fromRegion toRegion pcName))
    (heralded toRegion s.toGameSnapshot) (seedMissing toRegion s)

/-- **The anchor's move** seeds the party and tells those it comes to. -/
theorem quiet_gatherParty (toRegion : String) (s : Session) :
    Quiet (gatherOnMap fromRegion toRegion (told ctx fromRegion toRegion s) s)
      ((gatherParty ctx fromRegion toRegion).exec s).2 := by
  unfold gatherParty gatherOnMap told
  rw [Effect.exec_bind, Effect.exec_get]
  refine exec_forM_reached (I := fun done s' => Quiet (done.foldl (fun s pcName =>
    announce (anchorNotice fromRegion toRegion pcName) s) (seedMissing toRegion s)) s') ?_ _ []
    (refl_of Quiet _)
  intro done pcName s' hdone
  rw [List.foldl_append]
  exact trans_of Quiet (quiet_announce hdone _) (quiet_notifyRegionTransition ctx _ s')

section Gather

variable (fromRegion : Option String) (toRegion : String) (names : List String) (s : Session)

theorem sameCast_gatherOnMap : SameCast s (gatherOnMap fromRegion toRegion names s) := by
  have hseed : SameCast s (seedMissing toRegion s) :=
    ⟨rfl, rfl, rfl, rfl, rfl, rfl, rfl, rfl, rfl, rfl⟩
  apply hseed.trans
  unfold gatherOnMap
  generalize seedMissing toRegion s = seeded
  induction names generalizing seeded with
  | nil => exact SameCast.refl seeded
  | cons pcName names ih =>
    have hfirst : SameCast seeded (announce (anchorNotice fromRegion toRegion pcName) seeded) :=
      ⟨rfl, rfl, rfl, rfl, rfl, rfl, rfl, rfl, rfl, rfl⟩
    exact hfirst.trans (ih (announce (anchorNotice fromRegion toRegion pcName) seeded))

/-- A gathering on the map only seeds who is missing. -/
theorem pcRegions_gatherOnMap : (gatherOnMap fromRegion toRegion names s).pcRegions
    = (seedMissing toRegion s).pcRegions := by
  unfold gatherOnMap
  generalize seedMissing toRegion s = seeded
  induction names generalizing seeded with
  | nil => rfl
  | cons pcName names ih => exact ih (announce (anchorNotice fromRegion toRegion pcName) seeded)

theorem currentRegion_gatherOnMap :
    (gatherOnMap fromRegion toRegion names s).currentRegion = s.currentRegion := by
  show _ = (seedMissing toRegion s).currentRegion
  unfold gatherOnMap
  generalize seedMissing toRegion s = seeded
  induction names generalizing seeded with
  | nil => rfl
  | cons pcName names ih => exact ih (announce (anchorNotice fromRegion toRegion pcName) seeded)

theorem regionTransitions_gatherOnMap :
    (gatherOnMap fromRegion toRegion names s).regionTransitions = s.regionTransitions := by
  show _ = (seedMissing toRegion s).regionTransitions
  unfold gatherOnMap
  generalize seedMissing toRegion s = seeded
  induction names generalizing seeded with
  | nil => rfl
  | cons pcName names ih => exact ih (announce (anchorNotice fromRegion toRegion pcName) seeded)

/-- A gathering tells the observers of every name. -/
theorem notified_gatherOnMap : (gatherOnMap fromRegion toRegion names s).notified
    = s.notified ++ names.map (anchorNotice fromRegion toRegion) := by
  show _ = (seedMissing toRegion s).notified ++ _
  unfold gatherOnMap
  generalize seedMissing toRegion s = seeded
  induction names generalizing seeded with
  | nil => exact (List.append_nil seeded.notified).symm
  | cons pcName names ih =>
    have hrest := ih (announce (anchorNotice fromRegion toRegion pcName) seeded)
    rw [List.foldl_cons, List.map_cons, hrest]
    show seeded.notified ++ [anchorNotice fromRegion toRegion pcName] ++ _ = _
    rw [List.append_assoc, List.singleton_append]

end Gather

end Sidequest.World
