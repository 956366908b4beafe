import Sidequest.Dungeon.Generator
import Sidequest.Dungeon.ExpansionQuest
import Sidequest.Trope.Completion

namespace Sidequest.Dungeon

open Lib Effect
open Trope (TropeState Pack)

/-!
# Set-pieces

A set-piece is attached to a region: its slots are rolled, its tropes are started in the snapshot,
its quests are seeded, and every one of them gets a thread in the ledger. An expansion has a budget
of threads, which the set-pieces share.

* `SetPiece`, `rollSetPiece` — templates, and the roll of their slots;
* `attachSetPiece_raises_iff`, `snapshot_attachSetPiece` — the same for a whole attachment.
-/

/-! ### Templates -/

/-- A weighted candidate of a slot. -/
structure SlotOption where
  value : String
  weight : ℚ := 1
  positive : 0 < weight := by norm_num

/-- A slot with its candidates. -/
structure ComponentSlot where
  name : String
  options : List SlotOption
  nonempty : options ≠ []

/-- A trope that is started when its set-piece is attached. -/
structure TropeComponent where
  tropeId : String

/-- A quest that is seeded when its set-piece is attached. -/
structure QuestComponent where
  questId : String

/-- What the attachment takes of a set-piece. -/
structure SetPiece where
  id : String
  slots : List ComponentSlot := []
  tropeComponents : List TropeComponent := []
  questComponents : List QuestComponent := []

/-- The snapshot of a campaign with a dungeon: the world and the tropes in play. -/
structure LiveSnapshot extends World.GameSnapshot, Trope.Engine

/-- What an attachment writes: the snapshot, and the ledger in an open transaction. -/
structure Attaching where
  snapshot : LiveSnapshot
  ledger : ThreadLedger

/-- Why an attachment raises. -/
inductive SetPieceError where
  | tropeNotInPack (tropeId : String)
  | ledger (cause : LedgerError)
deriving DecidableEq

/-- What seeds the draws of an attachment. -/
structure Placement where
  (campaignSeed expansionId : Int)
  (regionId setpieceId : String)

/-- The report of an attachment. -/
structure AttachReport where
  (setpieceId regionId : String)
  (tropesStarted questsSeeded threadsWritten : Nat)
  rolled : Dict String String

/-! ### The roll -/

/-- What stands in front of every seed of an attachment. -/
def Placement.text (p : Placement) : String :=
  toString p.campaignSeed ++ "|" ++ toString p.expansionId ++ "|" ++ p.regionId ++ "|" ++
    p.setpieceId

variable (entropy : Entropy)

def slotSeed (p : Placement) (slotName : String) : Fin (2 ^ 64) :=
  entropy.blake2b (p.text ++ "|" ++ slotName)

/-- The candidate that a number below the sum of the weights falls to. -/
def pickWeighted : List SlotOption → ℚ → String
  | [], _ => ""
  | [option], _ => option.value
  | option :: rest, x =>
    if x < option.weight then option.value else pickWeighted rest (x - option.weight)

/-- Roll one slot. -/
def rollSlot (p : Placement) (slot : ComponentSlot) : String :=
  let rng := entropy.random (slotSeed entropy p slot.name)
  pickWeighted slot.options (rng.random.1 * (slot.options.map (·.weight)).sum)

/-- Roll each slot to one of its candidates. -/
def rollSetPiece (p : Placement) (slots : List ComponentSlot) : Dict String String :=
  slots.foldl (fun rolled slot => rolled.insert slot.name (rollSlot entropy p slot)) .empty

/-! ### The components -/

/-- The components that the budget has room for, drawn by the seeds of their places. -/
def selectComponents {α : Type} (p : Placement) (order : String) (components : List α)
    (remaining : Int) : List α :=
  ((components.zipIdx.insertionSort (fun c c' =>
    slotSeed entropy p (order ++ "|" ++ toString c.2) ≤
      slotSeed entropy p (order ++ "|" ++ toString c'.2))).take remaining.toNat).map Prod.fst

/-- The snapshot with more tropes in play. -/
def LiveSnapshot.startTropes (s : LiveSnapshot) (selected : List TropeComponent) : LiveSnapshot :=
  { s with
    activeTropes := s.activeTropes ++
      selected.map (fun c => { id := c.tropeId, status := .progressing, progress := 0 }) }

theorem LiveSnapshot.startTropes_eq_self_iff {s : LiveSnapshot} {selected : List TropeComponent} :
    s.startTropes selected = s ↔ selected = [] := by
  constructor
  · intro h
    have htropes : s.activeTropes ++ selected.map _ = s.activeTropes :=
      congrArg (fun s : LiveSnapshot => s.activeTropes) h
    simpa using htropes
  · rintro rfl
    unfold startTropes
    rw [List.map_nil, List.append_nil]

variable (pack : Pack)

/-- Start tropes, as many as the budget has room for; all of them have to be in the pack. -/
def startTropeComponents (p : Placement) (components : List TropeComponent)
    (threadsLitPerExpansion threadsAlreadyLit : Int) :
    Effect SetPieceError Attaching (List TropeComponent) :=
  let remaining := threadsLitPerExpansion - threadsAlreadyLit
  if remaining ≤ 0 ∨ components = [] then pure []
  else
    match components.find? (fun c => (pack.byId c.tropeId).isNone) with
    | some component => throw (.tropeNotInPack component.tropeId)
    | none => do
      let selected := selectComponents entropy p "trope_order" components remaining
      modify (fun s => { s with snapshot := s.snapshot.startTropes selected })
      pure selected

/-- Seed quests, as many as the budget has room for. -/
def seedQuestComponents (p : Placement) (components : List QuestComponent)
    (threadsLitPerExpansion threadsAlreadyLit : Int) : List QuestComponent :=
  let remaining := threadsLitPerExpansion - threadsAlreadyLit
  if remaining ≤ 0 ∨ components = [] then []
  else selectComponents entropy p "quest_order" components remaining

/-! ### The threads -/

/-- The sixteen hexadecimal digits of a digest. -/
def hexDigest (digest : Fin (2 ^ 64)) : String :=
  let digits := Nat.toDigits 16 digest.val
  String.ofList (List.replicate (16 - digits.length) '0' ++ digits)

def threadIdSeed (p : Placement) (kind : String) (componentIndex : Nat) : String :=
  "thread|" ++ kind ++ "|" ++ p.text ++ "|" ++ toString componentIndex ++ "|" ++
    hexDigest (entropy.blake2b (p.text ++ "|" ++ kind ++ "|" ++ toString componentIndex))

/-- The threads of the tropes that were started. -/
def tropeThreads (p : Placement) (started : List TropeComponent) : List ComplicationThread :=
  started.zipIdx.map (fun c =>
    { threadId := threadIdSeed entropy p "trope" c.2
      originRegionId := p.regionId
      kind := .trope
      refId := c.1.tropeId })

/-- The threads of the quests that were seeded. -/
def questThreads (p : Placement) (seeded : List QuestComponent) : List ComplicationThread :=
  seeded.zipIdx.map (fun c =>
    { threadId := threadIdSeed entropy p "quest" c.2
      originRegionId := p.regionId
      kind := .quest
      refId := c.1.questId })

/-- Insert a thread into the ledger. -/
def openInLedger (thread : ComplicationThread) : Effect SetPieceError Attaching PUnit := do
  let s ← get
  match s.ledger.openThread thread with
  | .ok ledger => set { s with ledger := ledger }
  | .error cause => throw (.ledger cause)

/-- The report of the tropes started and the quests seeded. -/
def attachReport (p : Placement) (piece : SetPiece) (started : List TropeComponent)
    (seeded : List QuestComponent) : AttachReport where
  setpieceId := p.setpieceId
  regionId := p.regionId
  tropesStarted := started.length
  questsSeeded := seeded.length
  threadsWritten := started.length + seeded.length
  rolled := rollSetPiece entropy p piece.slots

/-- Attach a set-piece. -/
def attachSetPiece (p : Placement) (piece : SetPiece)
    (threadsLitPerExpansion threadsAlreadyLit : Int) :
    Effect SetPieceError Attaching AttachReport := do
  let started ← startTropeComponents entropy pack p piece.tropeComponents threadsLitPerExpansion
    threadsAlreadyLit
  let seeded := seedQuestComponents entropy p piece.questComponents threadsLitPerExpansion
    (threadsAlreadyLit + started.length)
  (tropeThreads entropy p started).forM openInLedger
  (questThreads entropy p seeded).forM openInLedger
  pure (attachReport entropy p piece started seeded)

/-! ### What the steps do -/

section Steps

variable {p : Placement} {components : List TropeComponent} {budget lit : Int}

/-- The tropes that are started where the pack has them. -/
def startable (p : Placement) (components : List TropeComponent) (budget lit : Int) :
    List TropeComponent :=
  if budget - lit ≤ 0 ∨ components = [] then []
  else selectComponents entropy p "trope_order" components (budget - lit)

/-- Nothing is started without budget, and without components. -/
theorem startable_eq_nil_iff :
    startable entropy p components budget lit = [] ↔ budget ≤ lit ∨ components = [] := by
  unfold startable selectComponents
  split
  · rename_i hnone
    refine iff_of_true rfl (hnone.imp_left (fun hspent => ?_))
    omega
  · rename_i hleft
    push Not at hleft
    obtain ⟨hbudget, hsome⟩ := hleft
    refine iff_of_false ?_ (not_or.mpr ⟨by omega, hsome⟩)
    rw [List.map_eq_nil_iff, List.take_eq_nil_iff, not_or]
    constructor
    · omega
    · intro hsorted
      have hlength := congrArg List.length hsorted
      rw [List.length_insertionSort, List.length_zipIdx] at hlength
      exact hsome (List.eq_nil_of_length_eq_zero hlength)

/-- While there is budget left, the tropes of a set-piece are in the pack. -/
def KnownTropes (pack : Pack) (components : List TropeComponent) (budget lit : Int) : Prop :=
  lit < budget → ∀ c ∈ components, (pack.byId c.tropeId).isSome = true

instance : Decidable (KnownTropes pack components budget lit) :=
  inferInstanceAs (Decidable (_ → _))

theorem exec_startTropeComponents_of_known (h : KnownTropes pack components budget lit)
    (s : Attaching) : (startTropeComponents entropy pack p components budget lit).exec s
      = (.ok (startable entropy p components budget lit),
          ⟨s.snapshot.startTropes (startable entropy p components budget lit), s.ledger⟩) := by
  unfold startTropeComponents startable
  by_cases hnone : budget - lit ≤ 0 ∨ components = []
  · rw [if_pos hnone, if_pos hnone, LiveSnapshot.startTropes_eq_self_iff.mpr rfl]
    rfl
  · rw [if_neg hnone, if_neg hnone]
    have hall : components.find? (fun c => (pack.byId c.tropeId).isNone) = none := by
      rw [List.find?_eq_none]
      intro c hc
      have hknown := h (by omega) c hc
      rw [Option.isSome_iff_exists] at hknown
      obtain ⟨d, hd⟩ := hknown
      simp [hd]
    rw [hall]
    rfl

theorem exec_startTropeComponents_of_unknown (h : ¬ KnownTropes pack components budget lit)
    (s : Attaching) :
    ∃ e, (startTropeComponents entropy pack p components budget lit).exec s = (.error e, s) := by
  unfold KnownTropes at h
  push Not at h
  obtain ⟨hbudget, c, hc, hunknown⟩ := h
  unfold startTropeComponents
  have hleft : ¬ (budget - lit ≤ 0 ∨ components = []) := by
    rintro (hspent | rfl)
    · omega
    · cases hc
  rw [if_neg hleft]
  cases hfind : components.find? (fun c => (pack.byId c.tropeId).isNone) with
  | some component => exact ⟨_, rfl⟩
  | none =>
    rw [List.find?_eq_none] at hfind
    have hnone := hfind c hc
    cases hget : pack.byId c.tropeId with
    | none =>
      rw [hget] at hnone
      exact absurd rfl hnone
    | some d =>
      rw [hget] at hunknown
      exact absurd rfl hunknown

end Steps

/-- The threads have ids of their own, and the ledger has none of them. -/
def Fresh (ledger : ThreadLedger) (threads : List ComplicationThread) : Prop :=
  (ledger.threads.keys ++ threads.map ComplicationThread.threadId).Nodup

/-- **Threads are opened** without a raise exactly if they are fresh. -/
theorem openAll_raises_iff (threads : List ComplicationThread) (s : Attaching) :
    (∃ e s', (threads.forM openInLedger).exec s = (.error e, s')) ↔ ¬ Fresh s.ledger threads := by
  induction threads generalizing s with
  | nil =>
    refine iff_of_false ?_ (not_not.mpr ?_)
    · rintro ⟨e, s', h⟩
      exact absurd (congrArg Prod.fst h) (by simp [List.forM])
    · unfold Fresh
      rw [List.map_nil, List.append_nil]
      exact s.ledger.threads.nodup_keys
  | cons thread threads ih =>
    rw [exec_forM_cons, exec_bind]
    by_cases hopen : thread.threadId ∈ s.ledger.threads.keys
    · have hraised : (openInLedger thread).exec s
          = (.error (.ledger (.alreadyOpen thread.threadId)), s) := by
        unfold openInLedger ThreadLedger.openThread
        rw [exec_get_bind, if_pos hopen]
        rfl
      rw [hraised]
      refine iff_of_true ⟨_, s, rfl⟩ (fun hfresh => ?_)
      exact (List.nodup_append.mp hfresh).2.2 _ hopen _ (.head _) rfl
    · obtain ⟨ledger, hledger⟩ : ∃ ledger, s.ledger.openThread thread = .ok ledger :=
        ⟨_, if_neg hopen⟩
      have hopened : (openInLedger thread).exec s = (.ok ⟨⟩, { s with ledger := ledger }) := by
        unfold openInLedger
        rw [exec_get_bind, hledger]
        rfl
      rw [hopened]
      refine Iff.trans (ih _) (not_congr ?_)
      unfold Fresh
      rw [ThreadLedger.keys_openThread hledger, List.map_cons, List.append_assoc]
      rfl

/-- The snapshot is as it was. -/
def SameSnapshot (s s' : Attaching) : Prop := s'.snapshot = s.snapshot

instance : IsPreorder Attaching SameSnapshot where
  refl _ := rfl
  trans _ _ _ h h' := Eq.trans h' h

theorem snapshot_openInLedger (thread : ComplicationThread) :
    Preserves SameSnapshot (openInLedger thread) := by
  intro s
  unfold openInLedger
  rw [exec_get_bind]
  split <;> rfl

section Attachment

variable {p : Placement} {piece : SetPiece} {budget lit : Int}

/-- The quests an attachment seeds: tropes take from the budget first. -/
def seedable (p : Placement) (piece : SetPiece) (budget lit : Int) : List QuestComponent :=
  seedQuestComponents entropy p piece.questComponents budget
    (lit + (startable entropy p piece.tropeComponents budget lit).length)

/-- The threads an attachment opens. -/
def attachThreads (p : Placement) (piece : SetPiece) (budget lit : Int) : List ComplicationThread :=
  tropeThreads entropy p (startable entropy p piece.tropeComponents budget lit) ++
    questThreads entropy p (seedable entropy p piece budget lit)

/-- A set-piece passes if its tropes are known, and its threads are fresh. -/
def PiecePasses (p : Placement) (piece : SetPiece) (budget lit : Int) (s : Attaching) : Prop :=
  KnownTropes pack piece.tropeComponents budget lit ∧
    Fresh s.ledger (attachThreads entropy p piece budget lit)

theorem exec_attachSetPiece_of_known (h : KnownTropes pack piece.tropeComponents budget lit)
    (s : Attaching) : (attachSetPiece entropy pack p piece budget lit).exec s
      = ((attachThreads entropy p piece budget lit).forM openInLedger >>= fun _ =>
          pure (attachReport entropy p piece (startable entropy p piece.tropeComponents budget lit)
            (seedable entropy p piece budget lit))).exec
        ⟨s.snapshot.startTropes (startable entropy p piece.tropeComponents budget lit),
          s.ledger⟩ := by
  have hboth : ∀ l l' : List ComplicationThread, (l ++ l').forM openInLedger
      = (l.forM openInLedger >>= fun _ => l'.forM openInLedger) := fun _ _ => List.forM_append
  unfold attachSetPiece attachThreads
  rw [exec_bind, exec_startTropeComponents_of_known entropy pack h, hboth, bind_assoc]
  rfl

/-- **An attachment raises** exactly if its set-piece does not pass. -/
theorem attachSetPiece_raises_iff (s : Attaching) :
    (∃ e s', (attachSetPiece entropy pack p piece budget lit).exec s = (.error e, s')) ↔
      ¬ PiecePasses entropy pack p piece budget lit s := by
  unfold PiecePasses
  by_cases hknown : KnownTropes pack piece.tropeComponents budget lit
  · rw [exec_attachSetPiece_of_known entropy pack hknown, exec_bind_raises_iff,
      openAll_raises_iff, and_iff_right hknown]
    simp
  · obtain ⟨e, hrefused⟩ := exec_startTropeComponents_of_unknown entropy pack (p := p) hknown s
    refine iff_of_true ⟨e, s, ?_⟩ (fun h => hknown h.1)
    unfold attachSetPiece
    rw [exec_bind, hrefused]

/-- **An attachment starts its tropes**, also where it raises later; of the snapshot it changes
    nothing else. -/
theorem snapshot_attachSetPiece (s : Attaching) :
    ((attachSetPiece entropy pack p piece budget lit).exec s).2.snapshot
      = if KnownTropes pack piece.tropeComponents budget lit then
          s.snapshot.startTropes (startable entropy p piece.tropeComponents budget lit)
        else s.snapshot := by
  by_cases hknown : KnownTropes pack piece.tropeComponents budget lit
  · rw [if_pos hknown]
    rw [exec_attachSetPiece_of_known entropy pack hknown]
    exact (preserves_forM snapshot_openInLedger _).bind (fun _ => preserves_pure _) _
  · rw [if_neg hknown]
    obtain ⟨e, hrefused⟩ := exec_startTropeComponents_of_unknown entropy pack (p := p) hknown s
    unfold attachSetPiece
    rw [exec_bind, hrefused]

end Attachment

end Sidequest.Dungeon
