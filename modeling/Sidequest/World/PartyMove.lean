import Sidequest.World.Movement

namespace Sidequest.World

open Lib Effect
open Dungeon (RegionGraph RegionExit Theme)

/-!
# The party moves as one

A dispatch should end with nobody moved, or with the acting character and all its listed
companions at the new region. It raises instead where a leg of the move is refused: the acting
character has gone by then, and those of its companions who were not reached have not.

* `Resolves` — the resolution moves nobody, and knows where the acting character stands;
* `Carried`, `allOrNothing_iff` — a dispatch is all or nothing exactly if every leg passes.
-/

variable {W A : Type}

/-! ### The resolution moves nobody -/

/-- A look-up failed: the store cannot be read, the theme of a region is not in the palette, or
    the map has no entrance. -/
def MovementError.IsLookup : MovementError → Prop
  | .store _ => True
  | .projection (.unknownTheme _) => True
  | .graph (.unknownSource _) => True
  | _ => False

/-- Wherever the computation ends the session is that of `w`, what it returns is good, and what it
    raises is a failed look-up. -/
def Resolves {α : Type} (w : Watched W) (m : Effect MovementError (Watched W) α)
    (good : α → Prop) : Prop :=
  Meets (fun w' => w'.toSession = w.toSession) m
    (fun a w' => w'.toSession = w.toSession ∧ good a)
    (fun e w' => w'.toSession = w.toSession ∧ e.IsLookup)

section Resolves

variable {w : Watched W} {α β : Type} {good : α → Prop} {good' : β → Prop}

theorem resolves_pure {a : α} (h : good a) :
    Resolves w (pure a : Effect MovementError (Watched W) α) good := fun _ hw => ⟨hw, h⟩

theorem resolves_throw {e : MovementError} (h : e.IsLookup) :
    Resolves w (throw e : Effect MovementError (Watched W) α) good := fun _ hw => ⟨hw, h⟩

theorem resolves_get : Resolves w (get : Effect MovementError (Watched W) (Watched W))
    (fun w' => w'.toSession = w.toSession) := fun _ hw => ⟨hw, hw⟩

theorem Resolves.bind {m : Effect MovementError (Watched W) α}
    {f : α → Effect MovementError (Watched W) β} (hm : Resolves w m good)
    (hf : ∀ a, good a → Resolves w (f a) good') : Resolves w (m >>= f) good' := by
  refine meets_bind hm (fun a => ?_)
  intro w' hw'
  exact hf a hw'.2 w' hw'.1

theorem resolves_readStore {read : W → Except String α} :
    Resolves w (readStore read) (fun _ => True) := by
  refine resolves_get.bind (fun w' _ => ?_)
  split
  · exact resolves_pure trivial
  · exact resolves_throw trivial

theorem resolves_tryStore {ε : Type} (m : Effect ε W Unit) :
    Resolves w (tryStore m) (fun _ => True) := fun _ hw => ⟨hw, trivial⟩

end Resolves

/-- A verdict that names no region has an answer without one, and one that names a region starts
    where the character stands. -/
def Verdict.Sound (fromRegion : String) : Verdict → Prop
  | .stay output => output.toRegion = none
  | .go start _ _ _ => start = fromRegion

variable (ctx : MovementContext W A) {w : Watched W} {playerName fromRegion : String}

theorem sound_refuse (err : SeamCrossingError) : (refuse playerName err).Sound fromRegion := rfl

variable (cart : Cartography) (dispatch : MovementDispatch) (site : SiteDescriptor)

theorem resolves_enterSite :
    Resolves w (enterSite ctx playerName fromRegion site) (Verdict.Sound fromRegion) := by
  unfold enterSite
  split
  · exact resolves_pure (sound_refuse _)
  · refine resolves_readStore.bind (fun graph _ => ?_)
    split
    · exact resolves_pure (sound_refuse _)
    · exact resolves_pure rfl

theorem resolves_openSite :
    Resolves w (openSite ctx playerName fromRegion site) (Verdict.Sound fromRegion) := by
  unfold openSite
  split
  · exact resolves_enterSite ctx site
  · split
    · exact resolves_pure (sound_refuse _)
    · rename_i archetype _
      have hmade : Resolves w (ensureBoundedSiteMaterialized ctx site archetype)
          (fun _ => True) := by
        unfold ensureBoundedSiteMaterialized
        split
        · exact resolves_pure trivial
        · exact resolves_tryStore _
      refine hmade.bind (fun made _ => ?_)
      split
      · exact resolves_pure (sound_refuse _)
      · exact resolves_pure (sound_refuse _)
      · exact resolves_enterSite ctx site

theorem sound_exitSite : (exitSite cart playerName fromRegion site).Sound fromRegion := by
  unfold exitSite
  split <;> rfl

theorem sound_travel (discoveredRegions : List String) :
    (travel ctx cart playerName fromRegion dispatch discoveredRegions).Sound fromRegion := by
  unfold travel
  dsimp only
  split
  · rfl
  · split <;> rfl

theorem resolves_underway (w' : Watched W) :
    Resolves w (regionMode.underway ctx cart playerName dispatch w' fromRegion)
      (fun verdict? => ∀ verdict, verdict? = some verdict → verdict.Sound fromRegion) := by
  unfold regionMode.underway
  have hbelow : Resolves w (inDungeon ctx fromRegion) (fun _ => True) := by
    unfold inDungeon
    split
    · exact resolves_pure trivial
    · split
      · exact resolves_pure trivial
      · exact resolves_readStore.bind (fun _ _ => resolves_pure trivial)
  refine hbelow.bind (fun below _ => ?_)
  split
  · exact resolves_pure (fun _ h => by cases h)
  · refine resolves_pure ?_
    rintro verdict h
    cases h
    exact sound_travel ctx cart dispatch w'.discoveredRegions

theorem resolves_regionMode : Resolves w (regionMode ctx cart playerName dispatch) (fun verdict? =>
      ∀ verdict, verdict? = some verdict → verdict.Sound (w.standing playerName)) := by
  unfold regionMode
  refine resolves_get.bind (fun w' hw' => ?_)
  have hone : ∀ {verdict : Verdict}, verdict.Sound (w.standing playerName) →
      Resolves w (pure (some verdict) : Effect MovementError (Watched W) (Option Verdict))
        (fun verdict? => ∀ v, verdict? = some v → v.Sound (w.standing playerName)) := by
    intro verdict h
    refine resolves_pure ?_
    rintro v hv
    cases hv
    exact h
  dsimp only
  rw [hw']
  split
  · exact hone (sound_exitSite cart _)
  · split
    · exact hone rfl
    · exact resolves_underway ctx cart dispatch w'
  · split
    · exact hone rfl
    · exact hone rfl
    · rename_i site _
      refine (resolves_openSite ctx site).bind (fun verdict hv => hone hv)
  · exact resolves_underway ctx cart dispatch w'

/-- A way out of the region is taken as it is: it leads to a neighbour, and that is on the map. -/
theorem takeWay_of_mem_exits {graph : RegionGraph} {chosen : RegionExit} (via : String)
    (hnode : fromRegion ∈ graph.nodes.keys)
    (h : chosen ∈ Dungeon.projectExits ctx.reading.digest graph fromRegion) :
    takeWay ctx playerName fromRegion graph chosen via
      = pure (.go fromRegion chosen.toRegionId via true) := by
  obtain ⟨edge, hedge, hother⟩ := Dungeon.exists_edge_of_mem_exits h
  have hneighbor := Dungeon.mem_neighbors_of_mem_exits h
  have hthere := Dungeon.mem_keys_of_otherEnd hedge hother
  unfold takeWay RegionGraph.neighbors
  rw [if_pos hnode]
  dsimp only
  rw [if_neg (not_not.mpr hneighbor), if_pos hthere]

theorem resolves_wayOut {graph : RegionGraph} (palette : Dict String Theme) (w' : Watched W)
    (hblank : fromRegion ≠ "") (hnode : fromRegion ∈ graph.nodes.keys) :
    Resolves w (wayOut ctx playerName fromRegion dispatch graph palette w')
      (Verdict.Sound fromRegion) := by
  unfold wayOut
  split
  · rename_i err herr
    obtain ⟨themeId, rfl⟩ := Dungeon.unknownTheme_of_projectRegion hblank hnode herr
    exact resolves_throw trivial
  · rename_i proj hproj
    dsimp only
    split
    · exact resolves_pure (sound_refuse _)
    · split
      · rename_i err herr
        rw [Dungeon.error_of_resolve ctx.reading herr]
        exact resolves_throw trivial
      · rename_i resolved hresolved
        split
        · exact resolves_pure (sound_refuse _)
        · split
          · exact resolves_pure (sound_refuse _)
          · rename_i chosen hchosen
            have hmem := List.mem_of_mem_filter
              (Dungeon.mem_of_resolve ctx.reading hresolved hchosen)
            rw [Dungeon.exits_of_projectRegion hproj] at hmem
            rw [takeWay_of_mem_exits ctx resolved.via hnode hmem]
            exact resolves_pure rfl

theorem sound_surfaceDescent (graph : RegionGraph) :
    (surfaceDescent playerName fromRegion dispatch graph).Sound fromRegion := by
  unfold surfaceDescent
  split
  · rfl
  · split <;> rfl

theorem resolves_navigate :
    Resolves w (navigate ctx playerName dispatch) (Verdict.Sound (w.standing playerName)) := by
  unfold navigate
  split
  · refine resolves_get.bind (fun w' hw' => ?_)
    split
    · exact resolves_pure (sound_refuse _)
    · exact resolves_pure (sound_refuse _)
    · rename_i start hnone hstart
      have hstanding : w.standing playerName = start := by
        rw [← hw']
        exact congrArg (Option.getD · "") hstart
      rw [hstanding]
      refine resolves_readStore.bind (fun graph _ => ?_)
      split
      · exact resolves_pure (sound_surfaceDescent dispatch graph)
      · rename_i hnode
        have hblank : start ≠ "" := fun heq => hnone (heq ▸ rfl)
        exact resolves_wayOut ctx dispatch _ w' hblank (not_not.mp hnode)
  · exact resolves_pure (sound_refuse _)

/-- **The resolution moves nobody** and changes nothing else of the session; a region to go to is
    gone to from where the acting character stands. -/
theorem resolves_resolveMovement (playerName : String) (dispatch : MovementDispatch)
    (w : Watched W) : Resolves w (resolveMovement ctx playerName dispatch)
      (Verdict.Sound (w.standing playerName)) := by
  unfold resolveMovement
  split
  · split
    · refine (resolves_regionMode ctx _ dispatch).bind (fun verdict? hverdict => ?_)
      split
      · exact resolves_pure (hverdict _ rfl)
      · exact resolves_navigate ctx dispatch
    · exact resolves_navigate ctx dispatch
  · exact resolves_navigate ctx dispatch

/-! ### The legs -/

/-- A leg takes the one who goes to the new region, also where it raises. -/
theorem get?_patchPcRegion {observers : List (StoreObserver W)} {move : String × String}
    {w w' : Watched W} {x : Except PatchError PUnit}
    (h : (patchPcRegion observers move).exec w = (x, w')) (name : String) :
    w'.pcRegions.get? name = if name = move.1 then some move.2 else w.pcRegions.get? name := by
  have hmoved : w'.pcRegions = (moveOnMap w.toSession move).pcRegions := by
    cases x with
    | error e => exact (quiet_patchPcRegion_raised observers h).pcRegions
    | ok u => exact (quiet_patchPcRegion observers h).pcRegions
  have hregions : w'.pcRegions = w.pcRegions.insert move.1 move.2 :=
    hmoved.trans (pcRegions_moveOnMap w.toSession move)
  rw [hregions, Dict.get?_insert]

theorem get?_forM_patchPcRegion {observers : List (StoreObserver W)} {toRegion : String}
    {peers : List String} {w w' : Watched W} {u : PUnit}
    (h : (peers.forM (fun peer => patchPcRegion observers (peer, toRegion))).exec w = (.ok u, w'))
    (name : String) :
    w'.pcRegions.get? name = if name ∈ peers then some toRegion else w.pcRegions.get? name := by
  induction peers generalizing w with
  | nil =>
    cases h
    simp
  | cons peer peers ih =>
    obtain ⟨_, t, hpeer, hrest⟩ := exists_of_exec_bind h
    rw [ih hrest, get?_patchPcRegion hpeer name]
    by_cases hmem : name ∈ peers
    · simp [hmem]
    · by_cases heq : name = peer <;> simp [hmem, heq]

/-- The wait for the worker changes the store only. -/
theorem toSession_drain (w : Watched W) : (drain ctx w).toSession = w.toSession := by
  unfold drain
  split
  · rfl
  · rfl

/-- The state the peers' legs start from, once the acting character has gone. -/
def afterActing (actingPc toRegion : String) (drains : Bool) (w : Watched W) : Watched W :=
  let gone := ((patchPcRegion ctx.observers (actingPc, toRegion)).exec w).2
  if drains then drain ctx gone else gone

variable (s : GameSnapshot)

/-- The peers that move along: nobody follows into the blank region. -/
def followers (actingPc fromRegion toRegion : String) (names : List String) : List String :=
  if toRegion = "" then [] else colocatedPeers s actingPc fromRegion names

/-- Every leg of the party's move passes: the acting character's, and then those of its peers, each
    in the state the legs before have left. -/
def PartyPasses (actingPc fromRegion toRegion : String) (drains : Bool) (names : List String)
    (w : Watched W) : Prop :=
  Passes ctx.observers w (actingPc, toRegion) ∧
    ∀ visit ∈ visits (fun peer => patchPcRegion ctx.observers (peer, toRegion))
      (followers w.toGameSnapshot actingPc fromRegion toRegion names)
      (afterActing ctx actingPc toRegion drains w),
      Passes ctx.observers visit.2 (visit.1, toRegion)

section Legs

variable {actingPc toRegion : String} {drains : Bool} {names : List String}

/-- The wait after the acting character's leg changes nothing of the session. -/
theorem toSession_afterActing (drains : Bool) {gone : Watched W}
    (h : (patchPcRegion ctx.observers (actingPc, toRegion)).exec w = (.ok (), gone)) :
    (afterActing ctx actingPc toRegion drains w).toSession = gone.toSession := by
  unfold afterActing
  rw [h]
  cases drains with
  | false => rfl
  | true => exact toSession_drain ctx gone

/-- The acting character's leg and the wait after it leave the others where they are. -/
theorem followers_afterActing (drains : Bool) {gone : Watched W}
    (h : (patchPcRegion ctx.observers (actingPc, toRegion)).exec w = (.ok (), gone)) :
    followers (afterActing ctx actingPc toRegion drains w).toGameSnapshot actingPc fromRegion
      toRegion names = followers w.toGameSnapshot actingPc fromRegion toRegion names := by
  unfold followers colocatedPeers
  split
  · rfl
  · refine List.filter_congr (fun name _ => ?_)
    rw [toSession_afterActing ctx drains h, get?_patchPcRegion h name]
    by_cases heq : name = actingPc <;> simp [heq]

/-- A party's move is the acting character's leg, and then its peers' from where that left. -/
theorem exec_partyMove (w : Watched W) :
    (partyMove ctx actingPc fromRegion toRegion drains names).exec w =
      match (patchPcRegion ctx.observers (actingPc, toRegion)).exec w with
      | (.error e, gone) => (.error e, gone)
      | (.ok _, _) => ((followers w.toGameSnapshot actingPc fromRegion toRegion names).forM
          (fun peer => patchPcRegion ctx.observers (peer, toRegion))).exec
            (afterActing ctx actingPc toRegion drains w) := by
  unfold partyMove
  rw [exec_bind]
  rcases hgone : (patchPcRegion ctx.observers (actingPc, toRegion)).exec w with ⟨e | ⟨⟩, gone⟩
  · rfl
  · rw [← followers_afterActing ctx drains hgone]
    have hwait : (onlyIf drains (modify (drain ctx)) : Effect PatchError (Watched W) PUnit).exec gone
        = (.ok ⟨⟩, afterActing ctx actingPc toRegion drains w) := by
      unfold afterActing
      rw [hgone]
      cases drains <;> rfl
    dsimp only
    rw [exec_bind, hwait]
    rfl

/-- **The party's move raises** exactly if one of its legs does not pass. -/
theorem partyMove_raises_iff (actingPc fromRegion toRegion : String) (drains : Bool)
    (names : List String) (w : Watched W) :
    (∃ e w', (partyMove ctx actingPc fromRegion toRegion drains names).exec w = (.error e, w')) ↔
      ¬ PartyPasses ctx actingPc fromRegion toRegion drains names w := by
  have hacting := patchPcRegion_raises_iff ctx.observers (actingPc, toRegion) w
  rw [exec_partyMove]
  unfold PartyPasses
  rw [not_and_or]
  rcases hgone : (patchPcRegion ctx.observers (actingPc, toRegion)).exec w with ⟨e | u, gone⟩
  · refine iff_of_true ⟨e, gone, rfl⟩ (.inl (hacting.mp ⟨e, gone, hgone⟩))
  · have hpassed : Passes ctx.observers w (actingPc, toRegion) := by
      by_contra hnot
      obtain ⟨e, w', hraised⟩ := hacting.mpr hnot
      exact not_returned_of_raised hraised hgone
    rw [forM_error_iff]
    simp only [patchPcRegion_raises_iff, hpassed, not_true, false_or, not_forall, exists_prop]

/-- **Once all legs have passed** the acting character and its followers are at the new region, and
    everybody else is where they were. -/
theorem get?_partyMove {w' : Watched W} {u : Unit}
    (h : (partyMove ctx actingPc fromRegion toRegion drains names).exec w = (.ok u, w'))
    (name : String) : w'.pcRegions.get? name =
      if name = actingPc ∨ name ∈ followers w.toGameSnapshot actingPc fromRegion toRegion names
      then some toRegion else w.pcRegions.get? name := by
  rw [exec_partyMove] at h
  rcases hgone : (patchPcRegion ctx.observers (actingPc, toRegion)).exec w with ⟨e | ⟨⟩, gone⟩
  · rw [hgone] at h
    simp at h
  · rw [hgone] at h
    rw [get?_forM_patchPcRegion h name, toSession_afterActing ctx drains hgone,
      get?_patchPcRegion hgone name]
    by_cases hfollows : name ∈ followers w.toGameSnapshot actingPc fromRegion toRegion names
    · simp [hfollows]
    · by_cases heq : name = actingPc <;> simp [hfollows, heq]

end Legs

/-! ### All or nothing -/

/-- A listed character who stands where the acting one does. -/
def Companion (playerName : String) (names : List String) (name : String) : Prop :=
  name ∈ names ∧ s.pcRegions.get? name = some (s.standing playerName)

instance (s : GameSnapshot) (playerName : String) (names : List String) (name : String) :
    Decidable (Companion s playerName names name) := inferInstanceAs (Decidable (_ ∧ _))

/-- A dispatch ends with nobody moved, or with exactly the acting character and its companions at
    the region it names. -/
def AllOrNothing (playerName : String) (names : List String) (w : Watched W) :
    Except MovementError SubsystemOutput × Watched W → Prop
  | (.error _, _) => False
  | (.ok output, w') =>
    match output.toRegion with
    | none => w'.pcRegions = w.pcRegions ∧ w'.currentRegion = w.currentRegion
    | some region => ∀ name, w'.pcRegions.get? name =
        if name = playerName ∨ Companion w.toGameSnapshot playerName names name then some region
        else w.pcRegions.get? name

/-- Nobody is left at a region while the acting character goes to the blank one. -/
def NobodyStays (playerName toRegion : String) (names : List String) : Prop :=
  toRegion = "" → s.standing playerName ≠ "" → ∀ name ∈ names,
    name ≠ playerName → s.pcRegions.get? name ≠ some (s.standing playerName)

/-- The dispatch is carried through: no look-up of its resolution fails, and if it names a region to
    go to, every leg of the way passes and nobody stays behind. -/
def Carried (playerName : String) (dispatch : MovementDispatch) (names : List String)
    (w : Watched W) : Prop :=
  match (resolveMovement ctx playerName dispatch).exec w with
  | (.error _, _) => False
  | (.ok (.stay _), _) => True
  | (.ok (.go fromRegion toRegion _ drains), w₁) =>
    PartyPasses ctx playerName fromRegion toRegion drains names w₁ ∧
      NobodyStays w.toGameSnapshot playerName toRegion names

theorem mem_followers_iff {s : GameSnapshot} {toRegion : String} {names : List String}
    {name : String} :
    name ∈ followers s playerName (s.standing playerName) toRegion names ↔
      toRegion ≠ "" ∧ name ≠ playerName ∧ Companion s playerName names name := by
  unfold followers Companion
  by_cases hto : toRegion = ""
  · simp [hto]
  · simp [hto, colocatedPeers, and_left_comm]

/-- Once a party's move has returned, everybody is where they should be exactly if nobody stayed
    behind. -/
theorem arrived_iff {toRegion : String} {names : List String} {drains : Bool} {w₁ w' : Watched W}
    {u : Unit} (hsame : w₁.toSession = w.toSession)
    (h : (partyMove ctx playerName (w.standing playerName) toRegion drains names).exec w₁
      = (.ok u, w')) : (∀ name, w'.pcRegions.get? name =
      if name = playerName ∨ Companion w.toGameSnapshot playerName names name then some toRegion
      else w.pcRegions.get? name) ↔ NobodyStays w.toGameSnapshot playerName toRegion names := by
  have hwhere : ∀ name, w'.pcRegions.get? name =
      if name = playerName ∨
        toRegion ≠ "" ∧ name ≠ playerName ∧ Companion w.toGameSnapshot playerName names name
      then some toRegion else w.pcRegions.get? name := by
    intro name
    rw [get?_partyMove ctx h name, hsame]
    simp only [mem_followers_iff]
  simp only [hwhere]
  constructor
  · intro hall hblank hstands name hname hne hget
    have hone := hall name
    rw [if_neg (by simp [hne, hblank]), if_pos (.inr ⟨hname, hget⟩), hget, hblank] at hone
    exact hstands (Option.some.inj hone)
  · intro hnobody name
    by_cases hacting : name = playerName
    · simp [hacting]
    · by_cases hwith : Companion w.toGameSnapshot playerName names name
      · by_cases hblank : toRegion = ""
        · -- who follows into the blank region stands there
          have hstands : w.standing playerName = "" := by
            by_contra hstands
            exact hnobody hblank hstands name hwith.1 hacting hwith.2
          rw [if_neg (by simp [hacting, hblank]), if_pos (.inr hwith), hwith.2, hstands, hblank]
        · rw [if_pos (.inr ⟨hblank, hacting, hwith⟩), if_pos (.inr hwith)]
      · simp [hacting, hwith]

/-- **All or nothing.** A dispatch ends with nobody moved, or with exactly the acting character and
    its companions moved, exactly if it is carried through. -/
theorem allOrNothing_iff (playerName : String) (dispatch : MovementDispatch)
    (names : List String) (w : Watched W) :
    AllOrNothing playerName names w ((runMovementDispatch ctx playerName dispatch names).exec w) ↔
      Carried ctx playerName dispatch names w := by
  have hresolves := resolves_resolveMovement ctx playerName dispatch w w rfl
  unfold runMovementDispatch Carried
  rw [exec_bind]
  rcases hres : (resolveMovement ctx playerName dispatch).exec w with ⟨e | verdict, w₁⟩
  · exact Iff.rfl
  · rw [hres] at hresolves
    obtain ⟨hsame, hsound⟩ := hresolves
    cases verdict with
    | stay output =>
      have hnone : output.toRegion = none := hsound
      refine iff_of_true ?_ trivial
      show AllOrNothing playerName names w (.ok output, w₁)
      unfold AllOrNothing
      dsimp only
      rw [hnone]
      rw [hsame]
      exact ⟨rfl, rfl⟩
    | go fromRegion toRegion via drains =>
      obtain rfl : fromRegion = w.standing playerName := hsound
      dsimp only
      rw [exec_bind, exec_adapt]
      have hraises := partyMove_raises_iff ctx playerName (w.standing playerName) toRegion drains
        names w₁
      rcases hmove : (partyMove ctx playerName (w.standing playerName) toRegion drains names).exec w₁
        with ⟨e | u, w'⟩
      · exact iff_of_false id (fun h => hraises.mp ⟨e, w', hmove⟩ h.1)
      · have hpasses : PartyPasses ctx playerName (w.standing playerName) toRegion drains names w₁ := by
          by_contra hnot
          obtain ⟨e, w'', hraised⟩ := hraises.mpr hnot
          exact not_returned_of_raised hraised hmove
        rw [and_iff_right hpasses, ← arrived_iff ctx hsame hmove]
        exact Iff.rfl

/-! ### A peer that is left behind -/

/-- A world with a camp and a mine beside it. -/
def minePack : GenrePack Unit where
  worlds := Dict.empty.insert "vale" {
    regions := (Dict.empty.insert "camp" { name := "The Camp", adjacent := ["mine"] }).insert "mine"
      { name := "The Mine" } }

/-- The dispatches of that world; it has no dungeon, and nobody observes it. -/
def mineContext : MovementContext Unit Unit where
  reading := { lower := id, digest := String.length }
  observers := []
  worldSlug := "vale"
  pack := some minePack

/-- Ann and Bob in the camp, with a full quest log and a quest that waits in the mine. -/
def crowdedCamp : Watched Unit where
  pcRegions := (Dict.empty.insert "Ann" "camp").insert "Bob" "camp"
  discoveredRegions := ["mine"]
  questLog := (List.range questLogCardinalityCap).foldl
    (fun log i => log.insert ("q." ++ toString i) {}) .empty
  pendingQuestOffers := Dict.empty.insert "vein"
    { questId := "vein", title := "The vein", objective := "Find it.", anchor := some "mine" }
  store := ()

/-- Ann goes into the mine, her crossing is refused, and Bob stays in the camp. -/
theorem not_allOrNothing_fullLog :
    ¬ AllOrNothing "Ann" ["Bob"] crowdedCamp
        ((runMovementDispatch mineContext "Ann" { direction := "back" } ["Bob"]).exec crowdedCamp) ∧
      ((runMovementDispatch mineContext "Ann" { direction := "back" } ["Bob"]).exec
        crowdedCamp).2.pcRegions.get? "Ann" = some "mine" ∧
      ((runMovementDispatch mineContext "Ann" { direction := "back" } ["Bob"]).exec
        crowdedCamp).2.pcRegions.get? "Bob" = some "camp" := by
  refine ⟨?_, by decide +kernel, by decide +kernel⟩
  have hraises : (((runMovementDispatch mineContext "Ann" { direction := "back" } ["Bob"]).exec
      crowdedCamp).1.toBool) = false := by decide +kernel
  rcases hexec : (runMovementDispatch mineContext "Ann" { direction := "back" } ["Bob"]).exec
    crowdedCamp with ⟨e | output, w'⟩
  · exact id
  · rw [hexec] at hraises
    cases hraises

end Sidequest.World
