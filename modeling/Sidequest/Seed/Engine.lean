import Sidequest.Lib.Draws
import Sidequest.Lib.Run
import Sidequest.Trope.Completion
import Sidequest.World.Patch

namespace Sidequest.Seed

open Lib World

/-!
# Seeds

A session deals seeds through four entry points, moves between zones, and is saved and reloaded
in between. The deck is not part of what is saved: it is rebuilt from the recorded ids.

* `zoneContext` — the factions of the zone the party is in, as far as the seed source tells;
* `DealtOnce` — no id is dealt twice, and a dealt seed is active or a ghost, not both; every
  event keeps it;
* `ZoneHeld` — a seed that is dealt fits the zone the party is in. It takes a call that can see
  the zone: what a draw is given must have the worlds of the pack (`ZoneResolved`), and a world
  has none;
* `dealtOnce_of_run` — both, over every run.
-/

/-! ### Packs and worlds -/

/-- A short-arc seed as it is authored. -/
structure SeedTrope where
  (id name : String)
  flavorTags : List String := []
  lifespanTurns : Int := 0
  deliveryHints : List String := []
  narrativeHint : String := ""
  factions : List String := []

/-- A region of the authored map, with the faction that holds it. -/
structure Region where
  controlledBy : Option String := none

/-- The authored map of a world. -/
structure CartographyConfig where
  regions : Dict String Region := .empty

/-- A world of a pack. -/
structure SeedWorld where
  seedTropes : List SeedTrope := []
  cartography : CartographyConfig := {}

/-- A pack with its worlds. -/
structure GenrePack where
  seedTropes : List SeedTrope := []
  worlds : Dict String SeedWorld := .empty

/-- What seeds are drawn from: a pack, or one of its worlds. -/
inductive SeedSource where
  | pack (pack : GenrePack)
  | world (world : SeedWorld)

/-- The authored seeds. -/
def SeedSource.seedTropes : SeedSource → List SeedTrope
  | .pack p => p.seedTropes
  | .world w => w.seedTropes

/-- The worlds by slug; a world has none. -/
def SeedSource.worlds : SeedSource → Option (Dict String SeedWorld)
  | .pack p => some p.worlds
  | .world _ => none

/-! ### The state -/

/-- An active seed. -/
structure SeedState where
  id : String := ""
  name : String := ""
  activatedAtTurn : Int := 0
  flavorTags : List String := []
  lifespanTurns : Int := 0
  deliveryHints : List String := []

/-- A seed whose time is up. -/
structure SeedGhost where
  id : String := ""
  name : String := ""
  expiredAtTurn : Int := 0
  deliveryHints : List String := []

namespace SeedState

variable (seed : SeedState)

/-- The turn of expiry is reached. -/
def isExpired (currentTurn : Int) : Bool := seed.activatedAtTurn + seed.lifespanTurns ≤ currentTurn

/-- The ghost of the seed. -/
def toGhost (currentTurn : Int) : SeedGhost where
  id := seed.id
  name := seed.name
  expiredAtTurn := currentTurn
  deliveryHints := seed.deliveryHints

end SeedState

/-- The part of the snapshot that the seed engine reads and writes. -/
structure Snapshot extends GameSnapshot where
  worldSlug : String := ""
  activeSeeds : List SeedState := []
  seedGhosts : List SeedGhost := []
  pendingEscalationDirective : Option String := none
  lastLullFireTurn : Option Int := none

/-! ### The zone -/

/-- A name that is given, and not empty. -/
def given (name : Option String) : Option String := name.filter (· ≠ "")

/-- Some region is held by a faction. -/
def worldIsZoned (cartography : Option CartographyConfig) : Bool :=
  match cartography with
  | none => false
  | some c => c.regions.values.any (fun r => (given r.controlledBy).isSome)

/-- The map of the bound world, looked up in what has worlds. -/
def cartographyFor (s : Snapshot) (source : SeedSource) : Option CartographyConfig :=
  if s.worldSlug = "" then none
  else (source.worlds.bind (·.get? s.worldSlug)).map SeedWorld.cartography

/-- The faction of a region. -/
def factionForRegion (c : CartographyConfig) (regionId : Option String) : Option String := do
  let id ← given regionId
  let region ← c.regions.get? id
  given region.controlledBy

/-- The factions in force: of the region the party agrees on, or of the regions of all the
    seated characters. -/
def activeFactions (s : Snapshot) (source : SeedSource) : List String :=
  match cartographyFor s source with
  | none => []
  | some c =>
    match s.regionFor with
    | some region => (factionForRegion c (some region)).toList
    | none => s.seated.filterMap (fun name => factionForRegion c (s.pcRegions.get? name))

/-- The factions in force and whether the world is zoned, as a draw reads them. -/
def zoneContext (s : Snapshot) (source : SeedSource) : List String × Bool :=
  if worldIsZoned (cartographyFor s source) then (activeFactions s source, true) else ([], false)

/-- A seed fits the zone. -/
def inZone (zone : List String × Bool) (seed : SeedTrope) : Bool :=
  Trope.isEligible seed.factions zone.1 zone.2

/-! ### The deck -/

/-- The digest behind the shuffles and selections, and the generator behind a seed number. -/
structure Hashing where
  sha256 : String → Nat
  random : Nat → Rng

/-- A deck in its shuffled order, with the ids that are drawn. -/
structure SeedDeck where
  ordered : List SeedTrope
  drawnIds : List String
  zone : List String × Bool

/-- The deck of a session. -/
def SeedDeck.new (h : Hashing) (sessionId : String) (seeds : List SeedTrope)
    (drawnIds : List String) (zone : List String × Bool) : SeedDeck where
  ordered := ((h.random (h.sha256 sessionId)).shuffle seeds).1
  drawnIds := drawnIds
  zone := zone

/-- Deal the next seed that is not drawn and fits the zone. -/
def SeedDeck.draw (deck : SeedDeck) : Option SeedTrope × SeedDeck :=
  match deck.ordered.find? (fun seed => seed.id ∉ deck.drawnIds ∧ inZone deck.zone seed) with
  | none => (none, deck)
  | some seed => (some seed, { deck with drawnIds := seed.id :: deck.drawnIds })

/-- Deal up to so many seeds. -/
def SeedDeck.drawHand : Nat → SeedDeck → List SeedTrope
  | 0, _ => []
  | n + 1, deck =>
    match deck.draw with
    | (none, _) => []
    | (some seed, deck) => seed :: SeedDeck.drawHand n deck

/-! ### The entry points -/

/-- A dealt seed becomes active. -/
def SeedTrope.activate (nowTurn : Int) (seed : SeedTrope) : SeedState where
  id := seed.id
  name := seed.name
  activatedAtTurn := nowTurn
  flavorTags := seed.flavorTags
  lifespanTurns := seed.lifespanTurns
  deliveryHints := seed.deliveryHints

/-- The ids the snapshot records as dealt. -/
def Snapshot.recordedIds (s : Snapshot) : List String :=
  s.activeSeeds.map SeedState.id ++ s.seedGhosts.map SeedGhost.id

/-- Deal the opening hand, unless a seed has been dealt before. -/
def ensureInitialDraw (h : Hashing) (source : SeedSource) (sessionId : String) (nowTurn : Int)
    (handSize : Nat) (s : Snapshot) : Snapshot × List SeedTrope :=
  if s.activeSeeds ≠ [] ∨ s.seedGhosts ≠ [] then (s, [])
  else if source.seedTropes = [] then (s, [])
  else
    let deck := SeedDeck.new h sessionId source.seedTropes [] (zoneContext s source)
    let hand := deck.drawHand handSize
    ({ s with activeSeeds := hand.map (SeedTrope.activate nowTurn) }, hand)

/-- Deal one seed to engaged players. -/
def drawEngagedSeed (h : Hashing) (source : SeedSource) (sessionId : String) (nowTurn : Int)
    (s : Snapshot) : Snapshot × List SeedTrope :=
  if source.seedTropes = [] then (s, [])
  else
    let deck := SeedDeck.new h sessionId source.seedTropes s.recordedIds (zoneContext s source)
    match deck.draw with
    | (none, _) => (s, [])
    | (some seed, _) =>
      ({ s with activeSeeds := s.activeSeeds ++ [seed.activate nowTurn] }, [seed])

/-- Turn the active seeds whose time is up into ghosts. -/
def tickSeeds (nowTurn : Int) (s : Snapshot) : Snapshot :=
  { s with
    activeSeeds := s.activeSeeds.filter (fun seed => ¬ seed.isExpired nowTurn)
    seedGhosts := s.seedGhosts ++
      (s.activeSeeds.filter (fun seed => seed.isExpired nowTurn)).map
        (fun seed => seed.toGhost nowTurn) }

/-- The id that a session and a turn select, whatever the order of the candidates. -/
def selectSeedId (h : Hashing) (sessionId : String) (nowTurn : Int) (ids : List String) :
    Option String :=
  let ordered := ids.insertionSort (· ≤ ·)
  let key := sessionId ++ "|" ++ toString nowTurn ++ "|" ++ ",".intercalate ordered
  ordered[h.sha256 key % ordered.length]?

/-- The authored hint of a seed. -/
def narrativeHintFor (source : SeedSource) (seedId : String) : String :=
  ((source.seedTropes.find? (fun seed => seed.id = seedId)).map SeedTrope.narrativeHint).getD ""

/-- Fire a seed when the game lulls, after dealing one if none is active. -/
def applyLullEscalation (h : Hashing) (source : SeedSource) (sessionId : String)
    (nowTurn boringStreak escalationStreak : Int) (s : Snapshot) : Snapshot × List SeedTrope :=
  if boringStreak < escalationStreak then (s, [])
  else if s.lastLullFireTurn.any (fun last => nowTurn - last < Trope.fireCooldownTurns) then
    (s, [])
  else
    let (s, dealt) :=
      if s.activeSeeds = [] then drawEngagedSeed h source sessionId nowTurn s else (s, [])
    match selectSeedId h sessionId nowTurn (s.activeSeeds.map SeedState.id) with
    | none => (s, dealt)
    | some seedId =>
      ({ s with
          pendingEscalationDirective := some (narrativeHintFor source seedId)
          lastLullFireTurn := some nowTurn }, dealt)

variable {h : Hashing} {s : Snapshot}

/-! ### Sessions -/

/-- What happens to the snapshot of a session. -/
inductive Event where
  | ensureInitialDraw (source : SeedSource) (sessionId : String) (nowTurn : Int) (handSize : Nat)
  | drawEngagedSeed (source : SeedSource) (sessionId : String) (nowTurn : Int)
  | tickSeeds (nowTurn : Int)
  | applyLullEscalation (source : SeedSource) (sessionId : String)
      (nowTurn boringStreak escalationStreak : Int)
  | move (world : GameSnapshot)
  | reload

/-- What an event draws from, if it may draw. -/
def Event.source : Event → Option SeedSource
  | .ensureInitialDraw source _ _ _ => some source
  | .drawEngagedSeed source _ _ => some source
  | .applyLullEscalation source _ _ _ _ => some source
  | _ => none

/-- What an event makes of the snapshot, and the seeds it deals. A reload restores the snapshot
    that was saved, without any deck. -/
def outcome (h : Hashing) (s : Snapshot) : Event → Snapshot × List SeedTrope
  | .ensureInitialDraw source sessionId nowTurn handSize =>
    ensureInitialDraw h source sessionId nowTurn handSize s
  | .drawEngagedSeed source sessionId nowTurn => drawEngagedSeed h source sessionId nowTurn s
  | .tickSeeds nowTurn => (tickSeeds nowTurn s, [])
  | .applyLullEscalation source sessionId nowTurn boringStreak escalationStreak =>
    applyLullEscalation h source sessionId nowTurn boringStreak escalationStreak s
  | .move world => ({ s with toGameSnapshot := world }, [])
  | .reload => (s, [])

/-- A session with the seeds dealt so far. -/
structure Session where
  snapshot : Snapshot
  dealt : List SeedTrope := []

/-- The session after an event. -/
def Session.step (h : Hashing) (p : Session) (e : Event) : Session where
  snapshot := (outcome h p.snapshot e).1
  dealt := p.dealt ++ (outcome h p.snapshot e).2

/-- No id has been dealt twice, and each dealt seed is recorded in exactly one place. -/
structure DealtOnce (p : Session) : Prop where
  once : (p.dealt.map SeedTrope.id).Nodup
  recorded : p.snapshot.recordedIds.Perm (p.dealt.map SeedTrope.id)

/-- The seeds an event deals fit the zone of the party in the bound pack. -/
def ZoneHeld (h : Hashing) (bound : GenrePack) (p : Session) (e : Event) : Prop :=
  ∀ seed ∈ (outcome h p.snapshot e).2, inZone (zoneContext p.snapshot (.pack bound)) seed = true

instance (h : Hashing) (bound : GenrePack) (p : Session) (e : Event) :
    Decidable (ZoneHeld h bound p e) := inferInstanceAs (Decidable (∀ _ ∈ _, _))

/-- What an event draws from tells the zone of the party, where a faction is in force there. -/
def ZoneResolved (bound : GenrePack) (p : Session) (e : Event) : Prop :=
  ∀ source ∈ e.source, zoneContext p.snapshot source = zoneContext p.snapshot (.pack bound) ∨
    (zoneContext p.snapshot (.pack bound)).1 = []

instance (bound : GenrePack) (p : Session) (e : Event) : Decidable (ZoneResolved bound p e) :=
  inferInstanceAs (Decidable (∀ _ ∈ _, _ ∨ _))

/-! ### What a deck draws -/

theorem draw_spec {deck deck' : SeedDeck} {seed : SeedTrope}
    (hdraw : deck.draw = (some seed, deck')) :
    seed.id ∉ deck.drawnIds ∧ inZone deck.zone seed = true ∧
      deck' = { deck with drawnIds := seed.id :: deck.drawnIds } := by
  unfold SeedDeck.draw at hdraw
  split at hdraw
  · simp at hdraw
  · rename_i found hfind
    obtain ⟨rfl, rfl⟩ : found = seed ∧ { deck with drawnIds := found.id :: deck.drawnIds } = deck' :=
      ⟨Option.some.inj (congrArg Prod.fst hdraw), congrArg Prod.snd hdraw⟩
    have hfits := List.find?_some hfind
    simp only [decide_eq_true_eq] at hfits
    exact ⟨hfits.1, hfits.2, rfl⟩

theorem drawHand_spec (n : Nat) (deck : SeedDeck) : ((deck.drawHand n).map SeedTrope.id).Nodup ∧
      ∀ seed ∈ deck.drawHand n, seed.id ∉ deck.drawnIds ∧ inZone deck.zone seed = true := by
  induction n generalizing deck with
  | zero => simp [SeedDeck.drawHand]
  | succ n ih =>
    unfold SeedDeck.drawHand
    split
    · simp
    · rename_i seed deck' hdraw
      obtain ⟨hnew, hzone, rfl⟩ := draw_spec hdraw
      obtain ⟨hnodup, hrest⟩ := ih { deck with drawnIds := seed.id :: deck.drawnIds }
      constructor
      · rw [List.map_cons, List.nodup_cons]
        refine ⟨?_, hnodup⟩
        intro hmem
        obtain ⟨other, hother, hid⟩ := List.mem_map.mp hmem
        apply (hrest other hother).1
        rw [hid]
        exact .head _
      · intro other hother
        rcases List.mem_cons.mp hother with rfl | hother
        · exact ⟨hnew, hzone⟩
        · obtain ⟨hdrawn, hzone'⟩ := hrest other hother
          exact ⟨fun hmem => hdrawn (.tail _ hmem), hzone'⟩

/-! ### One event -/

/-- What an event may deal: seeds of new and different ids that fit a zone, recorded in the
    snapshot beside those recorded before. -/
structure Deals (s : Snapshot) (zone : List String × Bool)
    (r : Snapshot × List SeedTrope) : Prop where
  different : (r.2.map SeedTrope.id).Nodup
  fresh : ∀ seed ∈ r.2, seed.id ∉ s.recordedIds
  inZone : ∀ seed ∈ r.2, Seed.inZone zone seed = true
  recorded : r.1.recordedIds.Perm (s.recordedIds ++ r.2.map SeedTrope.id)

/-- Nothing is dealt where the records stay, up to their order. -/
theorem deals_nothing {s' : Snapshot} (zone : List String × Bool)
    (hrec : s'.recordedIds.Perm s.recordedIds) : Deals s zone (s', []) where
  different := List.nodup_nil
  fresh := by simp
  inZone := by simp
  recorded := by simpa using hrec

theorem id_activate (nowTurn : Int) (seed : SeedTrope) : (seed.activate nowTurn).id = seed.id := rfl

theorem deals_ensureInitialDraw (h : Hashing) (source : SeedSource) (sessionId : String)
    (nowTurn : Int) (handSize : Nat) (s : Snapshot) : Deals s (zoneContext s source)
      (ensureInitialDraw h source sessionId nowTurn handSize s) := by
  unfold ensureInitialDraw
  split
  · exact deals_nothing _ (List.Perm.refl _)
  · rename_i hfresh
    split
    · exact deals_nothing _ (List.Perm.refl _)
    · obtain ⟨hactive, hghosts⟩ : s.activeSeeds = [] ∧ s.seedGhosts = [] := by
        constructor <;> by_contra hne
        · exact hfresh (.inl hne)
        · exact hfresh (.inr hne)
      have hnone : s.recordedIds = [] := by simp [Snapshot.recordedIds, hactive, hghosts]
      obtain ⟨hnodup, hhand⟩ := drawHand_spec handSize
        (SeedDeck.new h sessionId source.seedTropes [] (zoneContext s source))
      refine ⟨hnodup, ?_, fun seed hseed => (hhand seed hseed).2, ?_⟩
      · simp [hnone]
      · rw [hnone, List.nil_append]
        simp [Snapshot.recordedIds, hghosts, Function.comp_def, id_activate]

theorem deals_drawEngagedSeed (h : Hashing) (source : SeedSource) (sessionId : String)
    (nowTurn : Int) (s : Snapshot) :
    Deals s (zoneContext s source) (drawEngagedSeed h source sessionId nowTurn s) := by
  unfold drawEngagedSeed
  split
  · exact deals_nothing _ (List.Perm.refl _)
  · dsimp only
    split
    · exact deals_nothing _ (List.Perm.refl _)
    · rename_i seed deck' hdraw
      obtain ⟨hnew, hzone, -⟩ := draw_spec hdraw
      refine ⟨by simp, by simpa [SeedDeck.new] using hnew, by simpa [SeedDeck.new] using hzone, ?_⟩
      -- the new seed stands behind the active ones, before the ghosts
      simp only [Snapshot.recordedIds, List.map_append, List.map_cons, List.map_nil,
        List.append_assoc, id_activate]
      exact (List.Perm.refl _).append List.perm_append_comm

theorem deals_applyLullEscalation (h : Hashing) (source : SeedSource) (sessionId : String)
    (nowTurn boringStreak escalationStreak : Int) (s : Snapshot) : Deals s (zoneContext s source)
      (applyLullEscalation h source sessionId nowTurn boringStreak escalationStreak s) := by
  unfold applyLullEscalation
  split
  · exact deals_nothing _ (List.Perm.refl _)
  · split
    · exact deals_nothing _ (List.Perm.refl _)
    · have hdeal : Deals s (zoneContext s source)
          (if s.activeSeeds = [] then drawEngagedSeed h source sessionId nowTurn s
            else (s, [])) := by
        split
        · exact deals_drawEngagedSeed h source sessionId nowTurn s
        · exact deals_nothing _ (List.Perm.refl _)
      generalize (if s.activeSeeds = [] then drawEngagedSeed h source sessionId nowTurn s
        else (s, [])) = r at hdeal
      dsimp only
      -- firing writes the directive and the turn, not the records
      split
      · exact hdeal
      · exact ⟨hdeal.different, hdeal.fresh, hdeal.inZone, hdeal.recorded⟩

/-- A tick moves seeds from the active ones to the ghosts. -/
theorem recordedIds_tickSeeds (nowTurn : Int) (s : Snapshot) :
    (tickSeeds nowTurn s).recordedIds.Perm s.recordedIds := by
  have hghost : ∀ l : List SeedState,
      (l.map (·.toGhost nowTurn)).map SeedGhost.id = l.map SeedState.id := by
    intro l
    rw [List.map_map]
    rfl
  have hsplit : ((s.activeSeeds.filter (·.isExpired nowTurn)).map SeedState.id ++
      (s.activeSeeds.filter (fun seed => ¬ seed.isExpired nowTurn)).map SeedState.id).Perm
        (s.activeSeeds.map SeedState.id) := by
    rw [← List.map_append]
    apply List.Perm.map
    simpa using List.filter_append_perm (·.isExpired nowTurn) s.activeSeeds
  unfold Snapshot.recordedIds tickSeeds
  rw [List.map_append, hghost]
  refine (List.perm_append_comm.append_left _).trans ?_
  rw [← List.append_assoc]
  exact (List.perm_append_comm.trans hsplit).append_right _

/-- **Step lemma.** What an event deals is new, and fits the zone that the event sees. -/
theorem deals_outcome (h : Hashing) (s : Snapshot) (e : Event) :
    Deals s ((e.source.map (zoneContext s)).getD ([], false)) (outcome h s e) := by
  cases e with
  | ensureInitialDraw source sessionId nowTurn handSize =>
    exact deals_ensureInitialDraw h source sessionId nowTurn handSize s
  | drawEngagedSeed source sessionId nowTurn =>
    exact deals_drawEngagedSeed h source sessionId nowTurn s
  | tickSeeds nowTurn => exact deals_nothing _ (recordedIds_tickSeeds nowTurn s)
  | applyLullEscalation source sessionId nowTurn boringStreak escalationStreak =>
    exact deals_applyLullEscalation h source sessionId nowTurn boringStreak escalationStreak s
  | move world => exact deals_nothing _ (List.Perm.refl _)
  | reload => exact deals_nothing _ (List.Perm.refl _)

/-! ### Whole runs -/

/-- **Step lemma.** Every event keeps each id dealt once and each dealt seed in one place. -/
theorem DealtOnce.step {p : Session} (hp : DealtOnce p) (e : Event) :
    DealtOnce (Session.step h p e) := by
  have hdeals := deals_outcome h p.snapshot e
  constructor
  · show ((p.dealt ++ (outcome h p.snapshot e).2).map SeedTrope.id).Nodup
    rw [List.map_append, List.nodup_append]
    refine ⟨hp.once, hdeals.different, ?_⟩
    intro id hid id' hid' heq
    obtain ⟨seed, hseed, rfl⟩ := List.mem_map.mp hid'
    apply hdeals.fresh seed hseed
    rw [hp.recorded.mem_iff, ← heq]
    exact hid
  · show (outcome h p.snapshot e).1.recordedIds.Perm
      ((p.dealt ++ (outcome h p.snapshot e).2).map SeedTrope.id)
    rw [List.map_append]
    exact hdeals.recorded.trans (hp.recorded.append_right _)

theorem DealtOnce.xor {p : Session} (hp : DealtOnce p) {seed : SeedTrope} (hseed : seed ∈ p.dealt) :
    Xor (seed.id ∈ p.snapshot.activeSeeds.map SeedState.id)
      (seed.id ∈ p.snapshot.seedGhosts.map SeedGhost.id) := by
  have hmem : seed.id ∈ p.snapshot.recordedIds :=
    hp.recorded.mem_iff.mpr (List.mem_map_of_mem hseed)
  have hdisjoint := (List.nodup_append.mp (hp.recorded.nodup_iff.mpr hp.once)).2.2
  rcases List.mem_append.mp hmem with hactive | hghost
  · exact .inl ⟨hactive, fun hghost => hdisjoint _ hactive _ hghost rfl⟩
  · exact .inr ⟨hghost, fun hactive => hdisjoint _ hactive _ hghost rfl⟩

/-- Everything fits where no faction is in force. -/
theorem inZone_of_noFaction {zone : List String × Bool} (hzone : zone.1 = []) (seed : SeedTrope) :
    inZone zone seed = true := by
  unfold inZone Trope.isEligible
  split <;> rfl

/-- An event that sees the zone of the party deals what fits it. -/
theorem zoneHeld_of_zoneResolved {bound : GenrePack} {p : Session} {e : Event}
    (hresolved : ZoneResolved bound p e) : ZoneHeld h bound p e := by
  intro seed hseed
  have hfits := (deals_outcome h p.snapshot e).inZone seed hseed
  cases hsource : e.source with
  | none =>
    -- an event without a source deals nothing
    cases e with
    | tickSeeds nowTurn => simp [outcome] at hseed
    | move world => simp [outcome] at hseed
    | reload => simp [outcome] at hseed
    | _ => simp [Event.source] at hsource
  | some source =>
    rw [hsource] at hfits
    rcases hresolved source hsource with heq | hnone
    · rw [← heq]
      exact hfits
    · exact inZone_of_noFaction hnone seed

/-- **Seeds are dealt once and in their zone**, over every run of draws, ticks, lulls, moves and
    reloads: in every state each id has been dealt once and is recorded in one place, either
    active or a ghost; and no event deals a seed that does not fit the zone of the party, as
    long as what every draw is given tells that zone. -/
theorem dealtOnce_of_run (h : Hashing) (bound : GenrePack) (p : Session) (hp : DealtOnce p)
    (es : List Event) : Throughout (Session.step h) (fun p => DealtOnce p ∧ ∀ seed ∈ p.dealt,
      Xor (seed.id ∈ p.snapshot.activeSeeds.map SeedState.id)
        (seed.id ∈ p.snapshot.seedGhosts.map SeedGhost.id)) p es ∧
    (StepsMeet (Session.step h) (ZoneResolved bound) p es →
      StepsMeet (Session.step h) (ZoneHeld h bound) p es) := by
  constructor
  · have hdealt : Throughout (Session.step h) DealtOnce p es :=
      throughout_of_step (fun _ e hp => hp.step e) hp es
    exact hdealt.mono (fun _ hp => ⟨hp, fun _ hseed => hp.xor hseed⟩)
  · intro hes
    exact hes.mono (fun _ _ => zoneHeld_of_zoneResolved)

/-! ### A zoned world -/

/-- A world with two courts, and a seed for each of them. -/
def twoCourts : SeedWorld where
  seedTropes :=
    [{ id := "yahoo_raid", name := "A raid", lifespanTurns := 3, factions := ["assembly"] },
     { id := "court_feud", name := "A feud", lifespanTurns := 3, factions := ["court"] }]
  cartography :=
    { regions := (Dict.empty.insert "shore" { controlledBy := some "court" }).insert "downs"
        { controlledBy := some "assembly" } }

/-- The pack of the two courts. -/
def courtPack : GenrePack where
  worlds := Dict.empty.insert "gulliver" twoCourts

/-- The party on the shore, before anything was dealt. -/
def onShore : Session where
  snapshot :=
    { playerSeats := Dict.empty.insert "p1" "Gulliver"
      pcRegions := Dict.empty.insert "Gulliver" "shore"
      worldSlug := "gulliver" }

/-- A generator that draws zeroes. -/
def zeroes : Hashing where
  sha256 := fun _ => 0
  random := fun _ _ => 0

/-- Dealt from the world itself, the opening hand on the shore holds a seed of the downs: a
    world has no worlds, so the draw does not see that the map is zoned. -/
theorem not_zoneHeld_of_world :
    ¬ StepsMeet (Session.step zeroes) (ZoneHeld zeroes courtPack) onShore
      [.ensureInitialDraw (.world twoCourts) "s" 1 3] := by
  decide +kernel

/-- The pack of the two courts, with its seeds. -/
def seededPack : GenrePack := { courtPack with seedTropes := twoCourts.seedTropes }

/-- Dealt from the pack, the seed of the downs waits until the party is there. -/
theorem zoneHeld_of_pack :
    StepsMeet (Session.step zeroes) (ZoneHeld zeroes seededPack) onShore
      [.ensureInitialDraw (.pack seededPack) "s" 1 3, .reload, .tickSeeds 4,
       .drawEngagedSeed (.pack seededPack) "s" 4] :=
  (dealtOnce_of_run zeroes seededPack onShore ⟨by decide, by decide⟩ _).2 (by decide +kernel)

end Sidequest.Seed
