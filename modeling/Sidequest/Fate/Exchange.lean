import Sidequest.Fate.Encounter
import Sidequest.Protocol.Sanitized

namespace Sidequest.Fate

open Lib
open Protocol (sanitizePlayerText)

/-!
# The exchange

One exchange of a conflict: every live PC seals an action, the opponents' attacks are seated,
attacks on PCs are parked until they are defended, and the seats are walked in turn order.

* `sealFateCommit`, `fateBarrierClosed` — the sealed-commit ledger and its barrier;
* `runFateContestExchange` — the contest's exchange, which has no harm and parks nothing;
* `clearOrphanedPendingDefenses_spec` — what it concedes and what it leaves alone, that it is
  idempotent, and that the barrier depends on nobody who is gone.
-/

section

/-! ### Skills -/

/-- The defense skill of a conflict. -/
def defenseSkill (mental : Bool) : String := if mental then "Will" else "Athletics"

/-- The initiative skill of a conflict. -/
def orderSkill (mental : Bool) : String := if mental then "Empathy" else "Notice"

/-- The attack skills of a conflict; the first one is the fallback. -/
def attackSkills (mental : Bool) : List String :=
  if mental then ["Provoke"] else ["Fight", "Shoot"]

/-- The skill that rates a PC's threat. -/
def threatSkill (mental : Bool) : String := if mental then "Provoke" else "Fight"

/-! ### The ledger of commits -/

variable (commit : FateSealedCommit)

/-- Seal one actor's action: one for each actor and exchange. -/
def sealFateCommit : FateM PUnit := do
  let snapshot ← get
  if snapshot.encounter.fateCommits.any (fun sealed => sealed.actor = commit.actor) then
    throw (.alreadyCommitted commit.actor)
  else
    modifyEncounter fun encounter =>
      { encounter with fateCommits := encounter.fateCommits ++ [commit] }

namespace GameSnapshot

variable (snapshot : GameSnapshot)

/-- The actor has sealed an action. -/
def committed (name : String) : Bool :=
  snapshot.encounter.fateCommits.any (fun sealed => sealed.actor = name)

/-- The barrier waits on the seat: a player's, not withdrawn, a PC's, and not committed. -/
def waitsOn (actor : EncounterActor) : Bool :=
  actor.side = .player && !actor.withdrawn && !snapshot.committed actor.name
    && actor.name ∈ snapshot.cast.characters

/-- The PCs the barrier is waiting on. -/
def fateWaitingActors : List String :=
  (snapshot.encounter.actors.filter snapshot.waitsOn).map EncounterActor.name

/-- Every live seated PC has committed. -/
def fateBarrierClosed : Bool := snapshot.fateWaitingActors = []

/-- The live players and opponents, best initiative first; the sort is stable, so that ties keep
    the seating order. -/
def fateTurnOrder (mental : Bool) : List String :=
  let rate (actor : EncounterActor) : Int := snapshot.rating actor.name (orderSkill mental)
  let seated := snapshot.encounter.actors.filter
    (fun actor => !actor.withdrawn && (actor.side = .player || actor.side = .opponent))
  (seated.insertionSort (fun a b => rate b ≤ rate a)).map EncounterActor.name

end GameSnapshot

/-! ### What an opponent does -/

/-- A creature is wounded by a filled consequence or a checked box on the track. -/
def FateSheet.wounded (sheet : FateSheet) (track : StressTrackName) : Bool :=
  sheet.consequences.any (fun slot => slot.aspect.isSome)
    || (sheet.stress.get? track).any (fun boxes => boxes.any StressBox.checked)

/-- The first element of the highest rate; what is rated below zero does not displace `best`. -/
def bestOf {α : Type} (rate : α → Int) (best : α) (l : List α) : α :=
  (l.foldl (fun top a => if top.2 < rate a then (a, rate a) else top) (best, -1)).1

namespace GameSnapshot

/-- The live player-side seats. -/
def livePlayerActors (snapshot : GameSnapshot) : List EncounterActor :=
  snapshot.encounter.actors.filter (fun actor => actor.side = .player && !actor.withdrawn)

/-- Whom an opponent attacks: a wounded player first, then whoever attacked it, then the player
    of the highest threat. -/
def selectTarget (snapshot : GameSnapshot) (opponent : EncounterActor) (mental : Bool) :
    Option String :=
  let live := snapshot.livePlayerActors
  let wounded (actor : EncounterActor) : Bool :=
    (snapshot.fateSheet actor.name).any (fun sheet => sheet.wounded (trackOf mental))
  let struck (sealed : FateSealedCommit) : Bool :=
    sealed.action = .attack && sealed.target = some opponent.name
      && live.any (fun actor => actor.name = sealed.actor)
  match live with
  | [] => none
  | first :: _ =>
    match live.find? wounded with
    | some actor => some actor.name
    | none =>
      match snapshot.encounter.fateCommits.find? struck with
      | some sealed => some sealed.actor
      | none =>
        some (bestOf (fun actor => snapshot.rating actor.name (threatSkill mental)) first live).name

end GameSnapshot

/-- An opponent's best attack skill. -/
def selectSkill (sheet : FateSheet) (mental : Bool) : String :=
  bestOf sheet.rating (threatSkill mental) (attackSkills mental)

/-- What an opponent does. -/
structure OpponentDecision where
  action : FateAction
  (skill target : String)

/-- Pick an opponent's action; with no live player there is none. -/
def decideOpponentAction (opponent : EncounterActor) (mental : Bool) :
    FateM (Option OpponentDecision) := do
  let snapshot ← get
  match snapshot.fateSheet opponent.name with
  | none => throw (.opponentWithoutSheet opponent.name)
  | some sheet =>
    pure ((snapshot.selectTarget opponent mental).map
      (fun target => ⟨.attack, selectSkill sheet mental, target⟩))

/-- Roll and seal what an opponent decided. -/
def sealDecision (opponent : EncounterActor) (decision : OpponentDecision) : FateM PUnit := do
  let snapshot ← get
  let outcome ← resolveAction (snapshot.rating opponent.name decision.skill) ⟨0, .active⟩ 0
  sealFateCommit
    { actor := opponent.name
      action := .attack
      skill := decision.skill
      target := some decision.target
      ladderTotal := outcome.ladderTotal
      dice := outcome.dice }

/-- Seat one opponent's attack. -/
def seatOpponentCommit (mental : Bool) (opponent : EncounterActor) : FateM PUnit := do
  let decision ← decideOpponentAction opponent mental
  match decision with
  | none => pure ⟨⟩
  | some decision => sealDecision opponent decision

/-- The live opponents that have not committed. -/
def GameSnapshot.idleOpponents (snapshot : GameSnapshot) : List EncounterActor :=
  snapshot.encounter.actors.filter (fun actor => actor.side = .opponent && !actor.withdrawn
    && !snapshot.committed actor.name)

/-- Seat an attack for every live opponent that lacks one. Who lacks one is settled before the
    first is seated. -/
def seatOpponentCommits (mental : Bool) : FateM PUnit := do
  let snapshot ← get
  snapshot.idleOpponents.forM (seatOpponentCommit mental)

/-! ### Parking the attacks on PCs -/

/-- What a client is told of an attack on its PC. -/
structure FateDefendRequestPayload where
  (requestId defender attacker attackSkill : String)
  attackTotal : Int
  mental : Bool

/-- The request of a pending defense. -/
def FatePendingDefense.request (entry : FatePendingDefense) : FateDefendRequestPayload :=
  ⟨entry.requestId, entry.defender, entry.attacker, entry.attackSkill, entry.attackTotal,
    entry.mental⟩

/-- The defense a commit is parked for: that of an attack on a live seated PC. -/
def GameSnapshot.parkedDefense (snapshot : GameSnapshot) (roundNumber : Nat)
    (commit : FateSealedCommit) : Option FatePendingDefense :=
  match commit.target with
  | none => none
  | some target =>
    if commit.action = .attack ∧ target ∈ snapshot.cast.characters
        ∧ (snapshot.encounter.findActor target).any (fun actor => !actor.withdrawn) then
      some
        { requestId := "def:" ++ toString roundNumber ++ ":" ++ commit.actor ++ "->" ++ target
          attacker := commit.actor
          defender := target
          attackSkill := commit.skill
          attackTotal := commit.ladderTotal
          mental := snapshot.encounter.mental }
    else none

/-- Park every sealed attack on a live seated PC. -/
def buildPendingDefenses (roundNumber : Nat) : FateM (List FateDefendRequestPayload) := do
  let snapshot ← get
  let entries := snapshot.encounter.fateCommits.filterMap (snapshot.parkedDefense roundNumber)
  modifyEncounter fun encounter =>
    { encounter with pendingDefenses := encounter.pendingDefenses ++ entries }
  pure (entries.map FatePendingDefense.request)

/-! ### Resolving one action -/

/-- Roll a defense on the server. -/
def rollDefense (defender : String) (mental : Bool) : FateM Int := do
  let snapshot ← get
  let outcome ← resolveAction (snapshot.rating defender (defenseSkill mental)) ⟨0, .active⟩ 0
  pure outcome.ladderTotal

/-- Append a line to the resolution log. -/
def logLine (line : FateExchangeLine) : FateM PUnit :=
  modifyEncounter fun encounter =>
    { encounter with fateResolutionLog := encounter.fateResolutionLog ++ [line] }

/-- Put an aspect on the scene. -/
def addSituationAspect (aspect : Aspect) : FateM PUnit :=
  modifyEncounter fun encounter =>
    { encounter with situationAspects := encounter.situationAspects ++ [aspect] }

/-- An attack's line in the log. -/
def attackLine (defenseSkill : String) (defenseTotal shifts : Int) (outcome detail : String) :
    FateExchangeLine :=
  { actor := commit.actor
    action := "attack"
    skill := commit.skill
    target := commit.target.getD ""
    defenseSkill := defenseSkill
    actorTotal := commit.ladderTotal
    oppositionTotal := defenseTotal
    shifts := shifts
    outcome := outcome
    detail := detail }

variable (target : String)

/-- The target withdraws; a side that is wholly withdrawn loses. -/
def takeOut (line : FateExchangeLine) : FateM PUnit := do
  modifyEncounter (fun encounter => encounter.withdraw target)
  logLine line
  modifyEncounter StructuredEncounter.maybeResolveSideCleared

/-- The defender folds before any harm is counted. -/
def foldDefense : FateM (List String) := do
  takeOut target (attackLine commit "" 0 0 "conceded" (target ++ " concedes"))
  pure [target ++ " concedes to " ++ commit.actor ++ " (fold at defend)."]

/-- A hit: absorbed, or the target is taken out. -/
def dealHarm (mental : Bool) (skill : String) (defenseTotal shifts : Int) :
    FateM (List String) := do
  let survived ← onSheet target (.targetWithoutSheet target)
    (absorbShifts (trackOf mental) shifts target commit.actor)
  let snapshot ← get
  if survived then do
    logLine (attackLine commit skill defenseTotal shifts "absorbed"
      ("absorbed (" ++ toString shifts ++ " shift" ++ (if shifts ≠ 1 then "s" else "") ++ ")"))
    pure [target ++ " absorbs " ++ commit.actor ++ "'s " ++ toString shifts
      ++ "-shift hit (stress/consequences)."]
  else if (snapshot.encounter.findActor target).isNone then throw (.targetNotSeated target)
  else do
    takeOut target
      (attackLine commit skill defenseTotal shifts "taken_out" (target ++ " taken out"))
    pure [target ++ " is TAKEN OUT by " ++ commit.actor ++ " (" ++ toString shifts
      ++ " unabsorbed shifts)."]

/-- A tie gives the target a boost. -/
def tieAttack (skill : String) (defenseTotal shifts : Int) : FateM (List String) := do
  let boost : Aspect := ⟨"Momentum vs " ++ commit.actor, .boost, 1⟩
  addSituationAspect boost
  logLine (attackLine commit skill defenseTotal shifts "tie"
    ("no harm — " ++ target ++ " gains a boost"))
  pure [commit.actor ++ "'s attack on " ++ target ++ " tied — " ++ target ++ " gains a boost ("
    ++ boost.text ++ ")."]

/-- An attack against a defense total. -/
def landAttack (mental : Bool) (skill : String) (defenseTotal : Int) : FateM (List String) :=
  let shifts := commit.ladderTotal - defenseTotal
  if shifts = 0 then tieAttack commit target skill defenseTotal shifts
  else if shifts < 0 then do
    logLine (attackLine commit skill defenseTotal shifts "miss" "no harm")
    pure [commit.actor ++ "'s attack on " ++ target ++ " missed (shifts=" ++ toString shifts
      ++ ")."]
  else dealHarm commit target mental skill defenseTotal shifts

/-- An attack on a named target. A PC's number is the one recorded for it; the server rolls for
    everybody else. -/
def resolveAttackOn (recorded : Option FatePendingDefense) (mental : Bool)
    (commit : FateSealedCommit) (target : String) : FateM (List String) :=
  match recorded with
  | some entry =>
    if entry.conceded then foldDefense commit target
    else match entry.defenseTotal with
      | some total => landAttack commit target mental entry.defenseSkill total
      | none => throw (.unfilledDefense target)
  | none => do
    let total ← rollDefense target mental
    landAttack commit target mental (defenseSkill mental) total

/-- Resolve an attack. -/
def resolveAttack (recordedDefenses : String → Option FatePendingDefense) (mental : Bool)
    (commit : FateSealedCommit) : FateM (List String) :=
  match commit.target with
  | none => throw .attackWithoutTarget
  | some target => do
    let snapshot ← get
    if (snapshot.fateSheet target).isNone then throw (.targetWithoutSheet target)
    else resolveAttackOn (recordedDefenses target) mental commit target

/-- The opposition of an action: the target's defense, or the difficulty. -/
def oppositionTotal (mental : Bool) (commit : FateSealedCommit) : FateM Int :=
  match commit.target with
  | some target => rollDefense target mental
  | none => pure commit.difficulty

/-- The line of an action that is no attack. -/
def actionLine (mental : Bool) (commit : FateSealedCommit) (opposition shifts : Int)
    (outcome detail : String) : FateExchangeLine :=
  { actor := commit.actor
    action := commit.action.wire
    skill := commit.skill
    target := commit.target.getD ""
    defenseSkill := if commit.target.isSome then defenseSkill mental else ""
    actorTotal := commit.ladderTotal
    oppositionTotal := opposition
    shifts := shifts
    outcome := outcome
    detail := detail }

/-- The text of a created aspect, with what it is called where the commit names none. -/
def FateSealedCommit.aspectTextOr (default : String) : String :=
  if commit.aspectText = "" then default ++ commit.actor else commit.aspectText

/-- Create an advantage: two free invocations from three shifts on, a boost on a tie. -/
def resolveCreateAdvantage (mental : Bool) (commit : FateSealedCommit) :
    FateM (List String) := do
  let opposition ← oppositionTotal mental commit
  let shifts := commit.ladderTotal - opposition
  if 1 ≤ shifts then do
    let free : Int := if 3 ≤ shifts then 2 else 1
    let text := commit.aspectTextOr "Advantage by "
    addSituationAspect ⟨text, .situation, free⟩
    logLine (actionLine mental commit opposition shifts "advantage"
      ("advantage created (" ++ toString free ++ " free invoke(s))"))
    pure [commit.actor ++ " created an advantage: " ++ sanitizePlayerText text ++ " ("
      ++ toString free ++ " free invoke(s))."]
  else if shifts = 0 then do
    let text := commit.aspectTextOr "Fleeting Opening by "
    addSituationAspect ⟨text, .boost, 1⟩
    logLine (actionLine mental commit opposition shifts "boost" "fleeting boost (1 free invoke)")
    pure [commit.actor ++ " created an advantage: " ++ sanitizePlayerText text
      ++ " (1 free invoke(s))."]
  else do
    logLine (actionLine mental commit opposition shifts "fail" "no advantage")
    pure [commit.actor ++ "'s create-advantage failed (shifts=" ++ toString shifts ++ ")."]

/-- Overcome an obstacle, on a tie at a cost. -/
def resolveOvercome (mental : Bool) (commit : FateSealedCommit) : FateM (List String) := do
  let opposition ← oppositionTotal mental commit
  let shifts := commit.ladderTotal - opposition
  if 1 ≤ shifts then do
    logLine (actionLine mental commit opposition shifts "overcome" "overcame the obstacle")
    pure [commit.actor ++ " overcomes the obstacle (shifts=" ++ toString shifts ++ ")."]
  else if shifts = 0 then do
    logLine (actionLine mental commit opposition shifts "cost" "overcame at a minor cost")
    pure [commit.actor ++ " overcomes at a minor cost (tie)."]
  else do
    logLine (actionLine mental commit opposition shifts "fail" "failed to overcome")
    pure [commit.actor ++ " fails to overcome (shifts=" ++ toString shifts ++ ")."]

/-- Resolve a commit by its action. -/
def resolveCommit (recordedDefenses : String → Option FatePendingDefense) (mental : Bool)
    (commit : FateSealedCommit) : FateM (List String) :=
  match commit.action with
  | .attack => resolveAttack recordedDefenses mental commit
  | .createAdvantage => resolveCreateAdvantage mental commit
  | .overcome => resolveOvercome mental commit

/-! ### The walk -/

/-- What one exchange produced. -/
structure FateExchangeResult where
  resolutionOrder : String
  resolved : Bool
  narratorHints : List String

/-- One place of the turn order. Who has withdrawn or not committed is passed over, and so is
    everybody once the encounter is over. -/
def walkSlot (recordedDefenses : String → Option FatePendingDefense)
    (commits : String → Option FateSealedCommit) (mental : Bool) (hints : List String)
    (name : String) : FateM (List String) := do
  let snapshot ← get
  let live := (snapshot.encounter.findActor name).any (fun actor => !actor.withdrawn)
  match commits name with
  | none => pure hints
  | some commit =>
    if live ∧ ¬ snapshot.encounter.resolved then do
      let new ← resolveCommit recordedDefenses mental commit
      pure (hints ++ new)
    else pure hints

/-- The recorded defenses, by defender: of several entries the last one counts. -/
def StructuredEncounter.recordedDefenses (encounter : StructuredEncounter) :
    String → Option FatePendingDefense :=
  lastBy FatePendingDefense.defender encounter.pendingDefenses

/-- The sealed commits, by actor. -/
def StructuredEncounter.commits (encounter : StructuredEncounter) :
    String → Option FateSealedCommit :=
  lastBy FateSealedCommit.actor encounter.fateCommits

/-- The ledger is cleared, and the hints go to the narrator. -/
def StructuredEncounter.closeExchange (hints : List String) (encounter : StructuredEncounter) :
    StructuredEncounter :=
  { encounter with fateCommits := [], narratorHints := encounter.narratorHints ++ hints }

/-- Walk the turn order and clear the ledger of commits. -/
def walkExchange (mental : Bool) : FateM FateExchangeResult := do
  let snapshot ← get
  let order := snapshot.fateTurnOrder mental
  let hints ← order.foldlM
    (walkSlot snapshot.encounter.recordedDefenses snapshot.encounter.commits mental) []
  modifyEncounter (StructuredEncounter.closeExchange hints)
  let final ← get
  pure ⟨", ".intercalate order, final.encounter.resolved, hints⟩

/-- Resolve one sealed exchange. -/
def runFateExchange : FateM FateExchangeResult := do
  let snapshot ← get
  modifyEncounter fun encounter => { encounter with fateResolutionLog := [] }
  seatOpponentCommits snapshot.encounter.mental
  walkExchange snapshot.encounter.mental

/-- Resolve a parked exchange and clear its defenses. -/
def resumeFateExchange : FateM FateExchangeResult := do
  let result ← runFateExchange
  modifyEncounter fun encounter => { encounter with pendingDefenses := [] }
  pure result

/-! ### The contest -/

/-- What one contest exchange produced. -/
structure FateContestResult where
  resolutionOrder : String
  resolved : Bool
  (playerVictories opponentVictories : Int)
  narratorHints : List String

/-- The first commit of the highest total on a side. -/
def StructuredEncounter.bestCommit (encounter : StructuredEncounter) (side : ActorSide) :
    Option FateSealedCommit :=
  encounter.fateCommits.foldl (fun best commit =>
    if (encounter.findActor commit.actor).any (fun actor => actor.side = side) then
      match best with
      | none => some commit
      | some top => if top.ladderTotal < commit.ladderTotal then some commit else some top
    else best) none

/-- The victories for a margin. -/
def victoryDelta (margin : Int) : Int := if 3 ≤ margin then 2 else 1

/-- The text of a won exchange. -/
def winHint (winner : FateSealedCommit) (total other : Int) : String :=
  winner.actor ++ " wins the exchange (" ++ toString total ++ " vs " ++ toString other ++ ") — +"
    ++ toString (victoryDelta (total - other)) ++ " victory."

/-- The two best totals against each other: victories, boosts and hints. -/
def scoreContest (contest : ContestState) (player opponent : Option FateSealedCommit) :
    ContestState × List Aspect × List String :=
  match player, opponent with
  | some p, some o =>
    if o.ladderTotal < p.ladderTotal then
      ({ contest with
          playerVictories :=
            contest.playerVictories + victoryDelta (p.ladderTotal - o.ladderTotal) },
        [], [winHint p p.ladderTotal o.ladderTotal])
    else if p.ladderTotal < o.ladderTotal then
      ({ contest with
          opponentVictories :=
            contest.opponentVictories + victoryDelta (o.ladderTotal - p.ladderTotal) },
        [], [winHint o o.ladderTotal p.ladderTotal])
    else
      (contest,
        [⟨"Fleeting Opening by " ++ p.actor, .boost, 1⟩,
          ⟨"Fleeting Opening by " ++ o.actor, .boost, 1⟩],
        ["Tie (" ++ toString p.ladderTotal ++ "=" ++ toString o.ladderTotal
          ++ ") — no victory; each side gains a boost."])
  | _, _ => (contest, [], [])

/-- Who reaches the target wins. -/
def StructuredEncounter.settleContest (encounter : StructuredEncounter) (contest : ContestState) :
    StructuredEncounter :=
  if contest.target ≤ contest.playerVictories then
    { encounter with resolved := true, outcome := some "player_victory" }
  else if contest.target ≤ contest.opponentVictories then
    { encounter with resolved := true, outcome := some "opponent_victory" }
  else encounter

/-- Score the contest, clear the ledger, and settle. -/
def closeContest (contest : ContestState) : FateM FateContestResult := do
  let snapshot ← get
  let encounter := snapshot.encounter
  let scored := scoreContest contest (encounter.bestCommit .player)
    (encounter.bestCommit .opponent)
  let walked := (encounter.fateCommits.map FateSealedCommit.actor).filter
    (fun name => (encounter.findActor name).isSome)
  let settled := StructuredEncounter.settleContest
    { encounter.closeExchange scored.2.2 with
      contest := some scored.1
      situationAspects := encounter.situationAspects ++ scored.2.1 } scored.1
  modifyEncounter fun _ => settled
  pure ⟨", ".intercalate walked, settled.resolved, scored.1.playerVictories,
    scored.1.opponentVictories, scored.2.2⟩

/-- Resolve one sealed exchange of a contest. -/
def runFateContestExchange : FateM FateContestResult := do
  let snapshot ← get
  match snapshot.encounter.contest with
  | none => throw .contestRequired
  | some contest => do
    seatOpponentCommits snapshot.encounter.mental
    closeContest contest

end

variable (snapshot : GameSnapshot)

variable (entry : FatePendingDefense)

namespace GameSnapshot

/-- The name is a character's, and its seat is there and not withdrawn. -/
def isPresent (name : String) : Bool :=
  name ∈ snapshot.cast.characters &&
    (snapshot.encounter.findActor name).any (fun actor => !actor.withdrawn)

/-- The defense is not answered, and its defender is gone. -/
def orphaned : Bool :=
  !entry.answered && !snapshot.isPresent entry.defender

/-- The name is a character's, and a seat of that name is not withdrawn. -/
def Live (name : String) : Prop :=
  name ∈ snapshot.cast.characters ∧
    ∃ actor ∈ snapshot.encounter.actors, actor.name = name ∧ actor.withdrawn = false

instance (snapshot : GameSnapshot) (name : String) : Decidable (snapshot.Live name) :=
  inferInstanceAs (Decidable (_ ∧ _))

end GameSnapshot

/-- Concede a defense. -/
def FatePendingDefense.concede : FatePendingDefense :=
  { entry with conceded := true }

/-- The loop of the sweep: the entries as they are left, and the ones it conceded. -/
def sweepOrphans (snapshot : GameSnapshot) :
    List FatePendingDefense → List FatePendingDefense × List FatePendingDefense
  | [] => ([], [])
  | entry :: rest =>
    let (left, cleared) := sweepOrphans snapshot rest
    if snapshot.orphaned entry then (entry.concede :: left, entry.concede :: cleared)
    else (entry :: left, cleared)

/-- Concede every defense that is not answered and whose defender is gone. -/
def clearOrphanedPendingDefenses : List FatePendingDefense × GameSnapshot :=
  let (left, cleared) := sweepOrphans snapshot snapshot.encounter.pendingDefenses
  (cleared, { snapshot with encounter := { snapshot.encounter with pendingDefenses := left } })

/-! ### One entry -/

/-- What the sweep does to an entry: one that is orphaned is conceded, every other one stays. -/
def SweptTo (s : GameSnapshot) (entry entry' : FatePendingDefense) : Prop :=
  (entry.answered = false ∧ s.isPresent entry.defender = false ∧ entry' = entry.concede) ∨
    ((entry.answered = true ∨ s.isPresent entry.defender = true) ∧ entry' = entry)

variable {s : GameSnapshot}

@[simp] theorem answered_concede : entry.concede.answered = true := by
  simp [FatePendingDefense.concede, FatePendingDefense.answered]

variable {entry : FatePendingDefense}

theorem orphaned_iff : s.orphaned entry = true ↔
    entry.answered = false ∧ s.isPresent entry.defender = false := by
  simp [GameSnapshot.orphaned]

theorem not_orphaned_iff : s.orphaned entry = false ↔
    entry.answered = true ∨ s.isPresent entry.defender = true := by
  simp only [GameSnapshot.orphaned, Bool.and_eq_false_iff, Bool.not_eq_false']

theorem SweptTo.not_orphaned {entry' : FatePendingDefense} (h : SweptTo s entry entry') :
    s.orphaned entry' = false := by
  rcases h with ⟨_, _, rfl⟩ | ⟨hkept, rfl⟩
  · exact not_orphaned_iff.mpr (.inl (answered_concede entry))
  · exact not_orphaned_iff.mpr hkept

/-! ### The loop -/

theorem sweptTo_sweepOrphans (l : List FatePendingDefense) :
    List.Forall₂ (SweptTo s) l (sweepOrphans s l).1 := by
  induction l with
  | nil => exact List.Forall₂.nil
  | cons entry rest ih =>
    unfold sweepOrphans
    dsimp only
    split
    · rename_i horphan
      obtain ⟨hopen, hgone⟩ := orphaned_iff.mp horphan
      exact List.Forall₂.cons (.inl ⟨hopen, hgone, rfl⟩) ih
    · rename_i horphan
      rw [Bool.not_eq_true, not_orphaned_iff] at horphan
      exact List.Forall₂.cons (.inr ⟨horphan, rfl⟩) ih

theorem orphaned_of_mem_sweepOrphans {l : List FatePendingDefense}
    (h : entry ∈ (sweepOrphans s l).1) : s.orphaned entry = false := by
  have hswept := sweptTo_sweepOrphans (s := s) l
  generalize (sweepOrphans s l).1 = left at h hswept
  induction hswept with
  | nil => cases h
  | cons hone _ ih =>
    rcases List.mem_cons.mp h with rfl | h
    · exact hone.not_orphaned
    · exact ih h

/-- Without orphans the sweep does nothing. -/
theorem sweepOrphans_of_none {l : List FatePendingDefense}
    (h : ∀ entry ∈ l, s.orphaned entry = false) : sweepOrphans s l = (l, []) := by
  induction l with
  | nil => rfl
  | cons entry rest ih =>
    unfold sweepOrphans
    rw [ih (fun other hother => h other (List.mem_cons_of_mem entry hother))]
    rw [h entry List.mem_cons_self]
    rfl

theorem clearOrphanedPendingDefenses_of_none
    (h : ∀ entry ∈ s.encounter.pendingDefenses, s.orphaned entry = false) :
    clearOrphanedPendingDefenses s = ([], s) := by
  unfold clearOrphanedPendingDefenses
  rw [sweepOrphans_of_none h]

/-- What the sweep reports are the entries it conceded. -/
theorem snd_sweepOrphans (l : List FatePendingDefense) :
    (sweepOrphans s l).2 = (l.filter s.orphaned).map FatePendingDefense.concede := by
  induction l with
  | nil => rfl
  | cons entry rest ih =>
    unfold sweepOrphans
    dsimp only
    rw [List.filter_cons]
    split
    · rw [List.map_cons, ih]
    · exact ih

/-! ### The barrier -/

/-- Who is waited on is there. -/
theorem live_of_mem_fateWaitingActors {name : String} (h : name ∈ s.fateWaitingActors) :
    s.Live name := by
  obtain ⟨actor, hactor, rfl⟩ := List.mem_map.mp h
  obtain ⟨hseat, hwaits⟩ := List.mem_filter.mp hactor
  unfold GameSnapshot.waitsOn at hwaits
  simp only [Bool.and_eq_true, Bool.not_eq_true', decide_eq_true_eq] at hwaits
  exact ⟨hwaits.2, actor, hseat, rfl, hwaits.1.1.2⟩

/-- Whom the barrier waits on does not depend on the commits of those who are gone. -/
theorem fateWaitingActors_filter (s : GameSnapshot) :
    GameSnapshot.fateWaitingActors
        { s with
          encounter := { s.encounter with
            fateCommits := s.encounter.fateCommits.filter (fun commit => s.Live commit.actor) } }
      = s.fateWaitingActors := by
  unfold GameSnapshot.fateWaitingActors
  congr 1
  refine List.filter_congr (fun actor hactor => ?_)
  unfold GameSnapshot.waitsOn GameSnapshot.committed
  by_cases hlive : s.Live actor.name
  · -- all commits of one who is there are kept
    have hsame : (s.encounter.fateCommits.filter (fun commit => s.Live commit.actor)).any
        (·.actor = actor.name)
        = s.encounter.fateCommits.any (·.actor = actor.name) := by
      rw [List.any_filter]
      congr 1
      funext sealed
      by_cases hname : sealed.actor = actor.name
      · simp [hname, hlive]
      · simp [hname]
    rw [hsame]
  · -- and one who is gone is not waited on, committed or not
    have hgone : actor.withdrawn = true ∨ actor.name ∉ s.cast.characters := by
      by_contra hnot
      rw [not_or, not_not, Bool.not_eq_true] at hnot
      exact hlive ⟨hnot.2, actor, hactor, rfl, hnot.1⟩
    rcases hgone with h | h
    · simp [h]
    · simp [h]

/-! ### The sweep -/

/-- **The sweep** concedes exactly the unanswered defenses whose defender is gone, and a second one
    finds nothing. Afterwards defenses are complete as soon as those of the players who are there
    are. -/
theorem clearOrphanedPendingDefenses_spec (s : GameSnapshot) :
    (∃ left, (clearOrphanedPendingDefenses s).2
        = { s with encounter := { s.encounter with pendingDefenses := left } } ∧
      List.Forall₂ (SweptTo s) s.encounter.pendingDefenses left) ∧
    (clearOrphanedPendingDefenses s).1
      = (s.encounter.pendingDefenses.filter s.orphaned).map FatePendingDefense.concede ∧
    clearOrphanedPendingDefenses (clearOrphanedPendingDefenses s).2
      = ([], (clearOrphanedPendingDefenses s).2) ∧
    (∀ s', s' = (clearOrphanedPendingDefenses s).2 →
      (s'.encounter.ledgerFull = true ↔ ∀ entry ∈ s'.encounter.pendingDefenses,
        s'.isPresent entry.defender = true → entry.answered = true) ∧
      (∀ name ∈ s'.fateWaitingActors, s'.Live name) ∧
      GameSnapshot.fateWaitingActors
          { s' with
            encounter := { s'.encounter with
              fateCommits := s'.encounter.fateCommits.filter (fun commit => s'.Live commit.actor) } }
        = s'.fateWaitingActors) := by
  refine ⟨⟨_, rfl, sweptTo_sweepOrphans _⟩, snd_sweepOrphans _, ?_, ?_⟩
  · -- the sweep changes neither the cast nor the seats, so that the same players are there
    have hnone : ∀ entry ∈ (sweepOrphans s s.encounter.pendingDefenses).1,
        s.orphaned entry = false := fun _ => orphaned_of_mem_sweepOrphans
    exact clearOrphanedPendingDefenses_of_none hnone
  · rintro s' rfl
    refine ⟨?_, fun name hname => live_of_mem_fateWaitingActors hname, fateWaitingActors_filter _⟩
    unfold StructuredEncounter.ledgerFull
    rw [List.all_eq_true]
    constructor
    · intro hfull entry hentry _
      exact hfull entry hentry
    · intro hpresent entry hentry
      rcases not_orphaned_iff.mp (orphaned_of_mem_sweepOrphans hentry) with h | h
      · exact h
      · exact hpresent entry hentry h

/-! ### The entry of one who is gone -/

/-- Ann has left the table. Bob has attacked her, and she has sealed an action. -/
def abandoned : GameSnapshot :=
  { cast := { characters := ["Cid"], npcs := [], normalizeName := id }
    sheets := fun _ => none
    encounter :=
      { actors := [⟨"Ann", .player, false⟩, ⟨"Bob", .opponent, false⟩]
        fateCommits := [{ actor := "Ann", action := .overcome, skill := "Athletics" }]
        pendingDefenses := [{ requestId := "def:0:Bob->Ann", attacker := "Bob", defender := "Ann",
                              attackSkill := "Fight", attackTotal := 2 }] }
    rolls := fun _ => ⟨.blank, .blank, .blank, .blank⟩ }

/-- Neither her action nor the defense against the attack on her is removed. -/
theorem clearOrphanedPendingDefenses_abandoned :
    ¬ ((clearOrphanedPendingDefenses abandoned).2.encounter.pendingDefenses
        = abandoned.encounter.pendingDefenses.filter
            (fun entry => abandoned.isPresent entry.defender) ∧
      (clearOrphanedPendingDefenses abandoned).2.encounter.fateCommits
        = abandoned.encounter.fateCommits.filter
            (fun commit => abandoned.isPresent commit.actor)) := by
  decide

end Sidequest.Fate
