import Mathlib.Tactic.Linarith
import Sidequest.Lib.Dict
import Sidequest.Lib.Except
import Sidequest.Lib.Run

namespace Sidequest.Agents

open Lib

/-!
# Gossip between the belief states of the NPCs

* `BeliefState`, `Transmission` — what an NPC holds, and one NPC telling another;
* `Hop`, `rumourFalls_iff` — the hops of a rumour at which it loses the decay.
-/

/-- How the NPC came to hold a belief. -/
inductive BeliefSource
  | witnessed
  | toldBy (by' : String)
  | inferred
  | overheard

inductive ClaimSentiment
  | corroborating
  | contradicting
  | neutral

inductive BeliefVariant
  | fact
  | suspicion (confidence : ℚ)
  | claim (believed : Bool) (sentiment : ClaimSentiment)

structure Belief where
  (subject content : String)
  turnLearned : Int
  source : BeliefSource
  variant : BeliefVariant

/-- The confidence the engine reads off a belief. -/
def Belief.confidence (b : Belief) : ℚ :=
  match b.variant with
  | .fact => 1
  | .suspicion confidence => confidence
  | .claim believed _ => if believed then 1 else 0

def Belief.isFact (b : Belief) : Bool :=
  match b.variant with
  | .fact => true
  | _ => false

/-- `BeliefSuspicion.make`: the confidence is forced into `[0, 1]`. -/
def makeSuspicion (subject content : String) (turnLearned : Int) (source : BeliefSource)
    (confidence : ℚ) : Belief :=
  { subject, content, turnLearned, source, variant := .suspicion (max 0 (min 1 confidence)) }

structure BeliefState where
  beliefs : List Belief
  credibilityScores : Dict String ℚ

variable (s : BeliefState)

namespace BeliefState

def addBelief (b : Belief) : BeliefState :=
  { s with beliefs := s.beliefs ++ [b] }

def beliefsAbout (subject : String) : List Belief :=
  s.beliefs.filter (fun b => b.subject = subject)

def credibilityOf (npcName : String) : ℚ :=
  (s.credibilityScores.get? npcName).getD (1 / 2)

end BeliefState

/-- One NPC tells another a piece of gossip; no field is empty and nobody tells itself. -/
structure Transmission where
  (fromNpc toNpc subject content : String)
  sentiment : ClaimSentiment
  nonempty : fromNpc ≠ "" ∧ toNpc ≠ "" ∧ subject ≠ "" ∧ content ≠ ""
  noSelfLoop : fromNpc ≠ toNpc

/-- The phase-1 record of a transmission. -/
structure GossipSnapshot where
  transmission : Transmission
  (credibilityBefore credibilityAfter : ℚ)
  (accepted contradicted : Bool)

structure TransmissionOutcome where
  (fromNpc toNpc subject content : String)
  (credibilityBefore credibilityAfter : ℚ)
  (accepted contradicted : Bool)

/-- The two `KeyError`s, with the name that is missing and the sorted names of the map. -/
inductive GossipError
  | unknownToNpc (toNpc : String) (npcs : List String)
  | unknownFromNpc (fromNpc : String) (npcs : List String)

/-- The strongest confidence the sender holds about `subject`. -/
def senderConfidence (sender : BeliefState) (subject : String) : Option ℚ :=
  ((sender.beliefsAbout subject).map Belief.confidence).max?

def hasContradictingFact (receiver : BeliefState) (t : Transmission) : Bool :=
  (receiver.beliefsAbout t.subject).any (fun b => b.isFact && b.content != t.content)

variable (decayPerHop : ℚ)

/-- What the first loop reads of a transmission once both parties are found. -/
def assess (receiver sender : BeliefState) (t : Transmission) : GossipSnapshot :=
  let trust := receiver.credibilityOf t.fromNpc
  let credBefore :=
    match senderConfidence sender t.subject with
    | some sourceConfidence => min trust sourceConfidence
    | none => trust
  let credAfter := max 0 (credBefore - decayPerHop)
  let contradicted := hasContradictingFact receiver t
  { transmission := t
    credibilityBefore := credBefore
    credibilityAfter := credAfter
    accepted := decide (0 < credAfter) && !contradicted
    contradicted }

/-- The body of the first loop of `propagate`. -/
def snapshot (npcs : Dict String BeliefState) (t : Transmission) :
    Except GossipError GossipSnapshot :=
  match npcs.get? t.toNpc, npcs.get? t.fromNpc with
  | none, _ => .error (.unknownToNpc t.toNpc (npcs.keys.mergeSort (· ≤ ·)))
  | some _, none => .error (.unknownFromNpc t.fromNpc (npcs.keys.mergeSort (· ≤ ·)))
  | some receiver, some sender => .ok (assess decayPerHop receiver sender t)

variable (currentTurn : Int)

namespace GossipSnapshot

variable (snap : GossipSnapshot)

/-- The rumour the receiver stores. -/
def belief (currentTurn : Int) : Belief :=
  makeSuspicion snap.transmission.subject snap.transmission.content currentTurn
    (.toldBy snap.transmission.fromNpc) snap.credibilityAfter

def outcome : TransmissionOutcome :=
  { fromNpc := snap.transmission.fromNpc
    toNpc := snap.transmission.toNpc
    subject := snap.transmission.subject
    content := snap.transmission.content
    credibilityBefore := snap.credibilityBefore
    credibilityAfter := snap.credibilityAfter
    accepted := snap.accepted
    contradicted := snap.contradicted }

end GossipSnapshot

/-- The body of the second loop of `propagate`. -/
def integrate (npcs : Dict String BeliefState) (snap : GossipSnapshot) : Dict String BeliefState :=
  if 0 < snap.credibilityAfter then
    npcs.modify snap.transmission.toNpc (fun receiver =>
      receiver.addBelief (snap.belief currentTurn))
  else npcs

/-- `GossipEngine.propagate`: the result, and the map the call leaves. -/
def propagate (transmissions : List Transmission) (currentTurn : Int)
    (npcs : Dict String BeliefState) :
    Except GossipError (List TransmissionOutcome) × Dict String BeliefState :=
  match transmissions.mapM (snapshot decayPerHop npcs) with
  | .error e => (.error e, npcs)
  | .ok snaps => (.ok (snaps.map GossipSnapshot.outcome), snaps.foldl (integrate currentTurn) npcs)

/-! ### What a batch appends -/

variable (turn : Int) (snaps : List GossipSnapshot)

/-- The rumours of a batch that land with `name`. -/
def arrivals (name : String) : List Belief :=
  (snaps.filter (fun s => 0 < s.credibilityAfter ∧ s.transmission.toNpc = name)).map
    (fun s => s.belief currentTurn)

theorem mem_arrivals_iff {turn : Int} {snaps : List GossipSnapshot} {name : String} {b : Belief} :
    b ∈ arrivals turn snaps name ↔
      ∃ s ∈ snaps, (0 < s.credibilityAfter ∧ s.transmission.toNpc = name) ∧ s.belief turn = b := by
  simp [arrivals, and_assoc]

@[simp] theorem keys_integrate (npcs : Dict String BeliefState) (snap : GossipSnapshot) :
    (integrate turn npcs snap).keys = npcs.keys := by
  unfold integrate
  split
  · exact Dict.keys_modify _ _ _
  · rfl

theorem keys_foldl_integrate (npcs : Dict String BeliefState) :
    (snaps.foldl (integrate turn) npcs).keys = npcs.keys := by
  induction snaps generalizing npcs with
  | nil => rfl
  | cons s snaps ih => rw [List.foldl_cons, ih, keys_integrate]

/-- One snapshot reaches its receiver only. -/
theorem get?_integrate (npcs : Dict String BeliefState) (snap : GossipSnapshot) (name : String) :
    (integrate turn npcs snap).get? name = (npcs.get? name).map (fun st =>
      { st with beliefs := st.beliefs ++ arrivals turn [snap] name }) := by
  unfold integrate arrivals
  by_cases hpos : 0 < snap.credibilityAfter
  · rw [if_pos hpos, Dict.get?_modify]
    by_cases hname : snap.transmission.toNpc = name
    · simp [hpos, hname, BeliefState.addBelief]
    · simp [hname, Ne.symm hname]
  · simp [hpos]

/-- **What a batch does to a belief state**: it appends the rumours that reach it. -/
theorem get?_foldl_integrate (npcs : Dict String BeliefState) (name : String) :
    (snaps.foldl (integrate turn) npcs).get? name = (npcs.get? name).map (fun st =>
      { st with beliefs := st.beliefs ++ arrivals turn snaps name }) := by
  induction snaps generalizing npcs with
  | nil => simp [arrivals]
  | cons s snaps ih =>
    have hsplit : arrivals turn (s :: snaps) name =
        arrivals turn [s] name ++ arrivals turn snaps name := by
      simp only [arrivals, ← List.map_append, ← List.filter_append, List.singleton_append]
    rw [List.foldl_cons, ih, get?_integrate, Option.map_map, hsplit]
    congr 1
    funext st
    simp

theorem perm_arrivals {snaps snaps' : List GossipSnapshot} (h : snaps.Perm snaps') (turn : Int)
    (name : String) : (arrivals turn snaps name).Perm (arrivals turn snaps' name) :=
  (h.filter _).map _

variable {npcs : Dict String BeliefState}

/-- A transmission is read exactly when both its parties are in the map. -/
theorem snapshot_eq_ok_iff {decay : ℚ} {t : Transmission} {snap : GossipSnapshot} :
    snapshot decay npcs t = .ok snap ↔ ∃ receiver sender, npcs.get? t.toNpc = some receiver ∧
      npcs.get? t.fromNpc = some sender ∧ snap = assess decay receiver sender t := by
  unfold snapshot
  cases npcs.get? t.toNpc <;> cases npcs.get? t.fromNpc <;> simp [eq_comm]

theorem snapshot_eq_error_iff {decay : ℚ} {t : Transmission} :
    (∃ e, snapshot decay npcs t = .error e) ↔ t.fromNpc ∉ npcs.keys ∨ t.toNpc ∉ npcs.keys := by
  rw [← Dict.get?_eq_none_iff, ← Dict.get?_eq_none_iff]
  unfold snapshot
  cases npcs.get? t.toNpc <;> cases npcs.get? t.fromNpc <;> simp

/-- **What a call does**: it raises and leaves the map, or it returns the outcomes of the
    snapshots and appends the rumours. -/
theorem propagate_cases (decay : ℚ) (ts : List Transmission) (turn : Int)
    (npcs : Dict String BeliefState) : (∃ e, ts.mapM (snapshot decay npcs) = .error e ∧
      propagate decay ts turn npcs = (.error e, npcs)) ∨
    ∃ snaps, ts.mapM (snapshot decay npcs) = .ok snaps ∧ propagate decay ts turn npcs =
      (.ok (snaps.map GossipSnapshot.outcome), snaps.foldl (integrate turn) npcs) := by
  unfold propagate
  cases ts.mapM (snapshot decay npcs) with
  | error e => exact .inl ⟨e, rfl, rfl⟩
  | ok snaps => exact .inr ⟨snaps, rfl, rfl⟩

/-! ### Order, refusal and runs -/

/-- Two calls on `npcs` ended alike: the same outcomes in some order, or a raise; and the same
    beliefs appended in some order. -/
structure SameUpToOrder (npcs : Dict String BeliefState)
    (a b : Except GossipError (List TransmissionOutcome) × Dict String BeliefState) : Prop where
  result : (∃ os os', a.1 = .ok os ∧ b.1 = .ok os' ∧ os.Perm os') ∨
    ∃ e e', a.1 = .error e ∧ b.1 = .error e'
  keysLeft : a.2.keys = npcs.keys
  keysRight : b.2.keys = npcs.keys
  appended : ∀ name st, npcs.get? name = some st → ∃ added added', added.Perm added' ∧
    a.2.get? name = some { st with beliefs := st.beliefs ++ added } ∧
    b.2.get? name = some { st with beliefs := st.beliefs ++ added' }

theorem propagate_perm {decay : ℚ} {ts ts' : List Transmission} (h : ts.Perm ts') (turn : Int)
    (npcs : Dict String BeliefState) :
    SameUpToOrder npcs (propagate decay ts turn npcs) (propagate decay ts' turn npcs) := by
  rcases propagate_cases decay ts turn npcs with ⟨e, hmap, heq⟩ | ⟨snaps, hmap, heq⟩
  · obtain ⟨t, ht, ht'⟩ := mapM_eq_error_iff.mp ⟨e, hmap⟩
    obtain ⟨e', hmap'⟩ := mapM_eq_error_iff.mpr ⟨t, h.subset ht, ht'⟩
    have heq' : propagate decay ts' turn npcs = (.error e', npcs) := by
      rw [propagate, hmap']
    rw [heq, heq']
    exact ⟨.inr ⟨e, e', rfl, rfl⟩, rfl, rfl, fun name st hst => ⟨[], [], .nil, by simpa using hst⟩⟩
  · -- the reordered batch is read as the same snapshots, reordered
    obtain ⟨snaps', hread, hperm⟩ := List.perm_comp_forall₂ h.symm (mapM_eq_ok_iff.mp hmap)
    have heq' : propagate decay ts' turn npcs =
        (.ok (snaps'.map GossipSnapshot.outcome), snaps'.foldl (integrate turn) npcs) := by
      rw [propagate, mapM_eq_ok_iff.mpr hread]
    rw [heq, heq']
    refine ⟨.inl ⟨_, _, rfl, rfl, (hperm.map _).symm⟩, keys_foldl_integrate _ _ _,
      keys_foldl_integrate _ _ _, fun name st hst => ⟨_, _, perm_arrivals hperm.symm turn name, ?_⟩⟩
    rw [get?_foldl_integrate, get?_foldl_integrate, hst]
    exact ⟨rfl, rfl⟩

/-- One call of an engine: its decay, its batch and its turn. -/
structure GossipCall where
  decayPerHop : ℚ
  transmissions : List Transmission
  currentTurn : Int

/-- The map after a call, whether it returned or raised. -/
def GossipCall.step (npcs : Dict String BeliefState) (c : GossipCall) : Dict String BeliefState :=
  (propagate c.decayPerHop c.transmissions c.currentTurn npcs).2

/-- Since `npcs`, the belief states have only had suspicions appended. -/
def OnlySuspected (npcs after : Dict String BeliefState) : Prop :=
  after.keys = npcs.keys ∧ ∀ name st, npcs.get? name = some st →
    ∃ added, after.get? name = some { st with beliefs := st.beliefs ++ added } ∧
      ∀ b ∈ added, ∃ confidence, b.variant = .suspicion confidence

theorem OnlySuspected.step {after : Dict String BeliefState} (h : OnlySuspected npcs after)
    (c : GossipCall) : OnlySuspected npcs (c.step after) := by
  obtain ⟨hkeys, hadded⟩ := h
  rcases propagate_cases c.decayPerHop c.transmissions c.currentTurn after with
    ⟨e, -, heq⟩ | ⟨snaps, -, heq⟩
  · rw [GossipCall.step, heq]
    exact ⟨hkeys, hadded⟩
  · rw [GossipCall.step, heq]
    refine ⟨(keys_foldl_integrate _ _ _).trans hkeys, fun name st hst => ?_⟩
    obtain ⟨added, hget, hsus⟩ := hadded name st hst
    refine ⟨added ++ arrivals c.currentTurn snaps name, ?_, fun b hb => ?_⟩
    · rw [get?_foldl_integrate, hget]
      simp
    · rcases List.mem_append.mp hb with hb | hb
      · exact hsus b hb
      · obtain ⟨s, -, -, rfl⟩ := mem_arrivals_iff.mp hb
        exact ⟨_, rfl⟩

/-- **Order, refusal and runs** of batches: the order of a batch only orders what it appends, an
    unknown NPC raises with nothing written, and runs only append suspicions. -/
theorem propagate_sound (decay : ℚ) (npcs : Dict String BeliefState) :
    (∀ ts ts' : List Transmission, ts.Perm ts' → ∀ turn,
      SameUpToOrder npcs (propagate decay ts turn npcs) (propagate decay ts' turn npcs)) ∧
    (∀ (ts : List Transmission) (turn : Int),
      (∃ t ∈ ts, t.fromNpc ∉ npcs.keys ∨ t.toNpc ∉ npcs.keys) →
        (∃ e, (propagate decay ts turn npcs).1 = .error e) ∧
          (propagate decay ts turn npcs).2 = npcs) ∧
    ∀ calls : List GossipCall, Throughout GossipCall.step (OnlySuspected npcs) npcs calls := by
  refine ⟨fun ts ts' h turn => propagate_perm h turn npcs, fun ts turn hunknown => ?_,
    fun calls => ?_⟩
  · obtain ⟨t, ht, hmissing⟩ := hunknown
    obtain ⟨e, he⟩ : ∃ e, ts.mapM (snapshot decay npcs) = .error e :=
      mapM_eq_error_iff.mpr ⟨t, ht, snapshot_eq_error_iff.mpr hmissing⟩
    rw [propagate, he]
    exact ⟨⟨e, rfl⟩, rfl⟩
  · have hstart : OnlySuspected npcs npcs :=
      ⟨rfl, fun name st hst => ⟨[], by simpa using hst, by simp⟩⟩
    exact throughout_of_step (fun _ c h => h.step c) hstart calls

/-! ### A rumour passed on -/

/-- The strongest confidence with which `content` is held about `subject`. -/
def BeliefState.confidenceIn (subject content : String) : Option ℚ :=
  (((s.beliefsAbout subject).filter (fun b => b.content = content)).map Belief.confidence).max?

/-- One hop of a rumour: a call in which `receiver` comes to hold it, from nobody but `sender`. -/
structure RumourHop (decay : ℚ) (subject content : String) where
  npcs : Dict String BeliefState
  batch : List Transmission
  turn : Int
  (sender receiver : String)
  (senderState receiverState receiverAfter : BeliefState)
  (held stored : ℚ)
  senderAt : npcs.get? sender = some senderState
  receiverAt : npcs.get? receiver = some receiverState
  afterAt : (propagate decay batch turn npcs).2.get? receiver = some receiverAfter
  senderHolds : senderState.confidenceIn subject content = some held
  untold : receiverState.confidenceIn subject content = none
  onlyFrom : ∀ t ∈ batch, t.toNpc = receiver → t.subject = subject → t.content = content →
    t.fromNpc = sender
  landed : receiverAfter.confidenceIn subject content = some stored

/-- Each hop is sent by the receiver of the hop before, who still holds the rumour as it was
    stored; what else the map holds by then is free. -/
def Passed {decay : ℚ} {subject content : String}
    (hops : List (RumourHop decay subject content)) : Prop :=
  hops.IsChain (fun h h' => h'.sender = h.receiver ∧ h'.held = h.stored)

private theorem max?_map_eq_some_iff {l : List Belief} {c : ℚ} :
    (l.map Belief.confidence).max? = some c ↔
      (∃ b ∈ l, b.confidence = c) ∧ ∀ b ∈ l, b.confidence ≤ c := by
  rw [List.max?_eq_some_iff, List.mem_map, List.forall_mem_map]

theorem senderConfidence_eq_some_iff {s : BeliefState} {subject : String} {c : ℚ} :
    senderConfidence s subject = some c ↔
      (∃ b ∈ s.beliefs, b.subject = subject ∧ b.confidence = c) ∧
        ∀ b ∈ s.beliefs, b.subject = subject → b.confidence ≤ c := by
  rw [senderConfidence, max?_map_eq_some_iff]
  simp [BeliefState.beliefsAbout, and_assoc]

theorem confidenceIn_eq_some_iff {s : BeliefState} {subject content : String} {c : ℚ} :
    s.confidenceIn subject content = some c ↔
      (∃ b ∈ s.beliefs, b.subject = subject ∧ b.content = content ∧ b.confidence = c) ∧
        ∀ b ∈ s.beliefs, b.subject = subject → b.content = content → b.confidence ≤ c := by
  rw [BeliefState.confidenceIn, max?_map_eq_some_iff]
  simp only [BeliefState.beliefsAbout, List.mem_filter, decide_eq_true_eq, and_assoc, and_imp]

namespace RumourHop

variable {decay : ℚ} {subject content : String} (h : RumourHop decay subject content)

/-- **Nothing refreshes the rumour**: trust in the sender, or every belief of the sender about the
    subject, is within its confidence (or it is above all confidence by the decay). -/
def Unrefreshed : Prop :=
  1 + decay ≤ h.held ∨ h.receiverState.credibilityOf h.sender ≤ h.held ∨
    ∀ b ∈ h.senderState.beliefs, b.subject = subject → b.confidence ≤ h.held

theorem stored_eq : ∃ strongest, senderConfidence h.senderState subject = some strongest ∧
    0 < h.stored ∧
    h.stored = min 1 (min (h.receiverState.credibilityOf h.sender) strongest - decay) := by
  have hstate := h.afterAt
  rcases propagate_cases decay h.batch h.turn h.npcs with ⟨e, -, heq⟩ | ⟨snaps, hmap, heq⟩
  · rw [heq, h.receiverAt, Option.some.injEq] at hstate
    cases h.untold.symm.trans (hstate ▸ h.landed)
  rw [heq, get?_foldl_integrate, h.receiverAt, Option.map_some, Option.some.injEq] at hstate
  -- the stored rumour is an arrival, for the receiver did not hold it before
  obtain ⟨⟨b, hb, hsubject, hcontent, hconf⟩, -⟩ := confidenceIn_eq_some_iff.mp h.landed
  rw [← hstate] at hb
  have harrived : b ∈ arrivals h.turn snaps h.receiver := by
    refine (List.mem_append.mp hb).resolve_left (fun hold => ?_)
    have hnone := h.untold
    simp only [BeliefState.confidenceIn, BeliefState.beliefsAbout, List.max?_eq_none_iff,
      List.map_eq_nil_iff, List.filter_eq_nil_iff, List.mem_filter, decide_eq_true_eq] at hnone
    exact hnone b ⟨hold, hsubject⟩ hcontent
  obtain ⟨s, hs, ⟨hpos, hto⟩, rfl⟩ := mem_arrivals_iff.mp harrived
  obtain ⟨t, ht, hread⟩ := exists_of_forall₂ (mapM_eq_ok_iff.mp hmap) hs
  obtain ⟨receiver, sender, hr, hsnd, rfl⟩ := snapshot_eq_ok_iff.mp hread
  have hfrom : t.fromNpc = h.sender := h.onlyFrom t ht hto hsubject hcontent
  have hto' : t.toNpc = h.receiver := hto
  rw [hto', h.receiverAt, Option.some.injEq] at hr
  rw [hfrom, h.senderAt, Option.some.injEq] at hsnd
  subst hr hsnd
  have hsubject' : t.subject = subject := hsubject
  -- the sender holds the rumour, so it has a strongest confidence
  obtain ⟨strongest, hstrong⟩ : ∃ c, senderConfidence h.senderState subject = some c := by
    obtain ⟨⟨b, hb, hbs, -⟩, -⟩ := confidenceIn_eq_some_iff.mp h.senderHolds
    rw [← Option.isSome_iff_exists, senderConfidence, List.isSome_max?_iff, Ne,
      List.map_eq_nil_iff, BeliefState.beliefsAbout, List.filter_eq_nil_iff]
    intro hnil
    exact hnil b hb (by simpa using hbs)
  refine ⟨strongest, hstrong, ?_⟩
  simp only [assess, hsubject', hstrong, hfrom] at hpos
  have hpos' := (lt_max_iff.mp hpos).resolve_left (lt_irrefl 0)
  have hstored : h.stored =
      max 0 (min 1 (max 0 (min (h.receiverState.credibilityOf h.sender) strongest - decay))) := by
    rw [← hconf]
    simp only [GossipSnapshot.belief, makeSuspicion, Belief.confidence, assess, hsubject',
      hstrong, hfrom]
  rw [max_eq_right hpos'.le, max_eq_right (le_min zero_le_one hpos'.le)] at hstored
  exact ⟨hstored ▸ lt_min zero_lt_one hpos', hstored⟩

/-- **A hop costs the decay exactly where nothing refreshes the rumour.** -/
theorem stored_le_iff : h.stored ≤ h.held - decay ↔ h.Unrefreshed := by
  obtain ⟨strongest, hstrong, -, hstored⟩ := h.stored_eq
  obtain ⟨⟨b, hb, hbs, hbc⟩, hall⟩ := senderConfidence_eq_some_iff.mp hstrong
  have hbound : (∀ b ∈ h.senderState.beliefs, b.subject = subject → b.confidence ≤ h.held) ↔
      strongest ≤ h.held :=
    ⟨fun hle => hbc ▸ hle b hb hbs, fun hle b' hb' hs' => (hall b' hb' hs').trans hle⟩
  rw [hstored, Unrefreshed, hbound, min_le_iff, sub_le_sub_iff_right, min_le_iff, le_sub_iff_add_le]

end RumourHop

/-- The decays add up over a chain whose hops each cost one. -/
theorem Passed.length_mul_le {decay : ℚ} {subject content : String}
    {hops : List (RumourHop decay subject content)} (hpassed : Passed hops)
    (hlaw : ∀ h ∈ hops, h.stored ≤ h.held - decay) {first last : RumourHop decay subject content}
    (hfirst : hops.head? = some first) (hlast : hops.getLast? = some last) :
    last.stored + hops.length * decay ≤ first.held := by
  induction hops generalizing first with
  | nil => simp at hfirst
  | cons h hops ih =>
    obtain rfl : h = first := by simpa using hfirst
    have hh := hlaw h (.head _)
    cases hops with
    | nil =>
      obtain rfl : h = last := by simpa using hlast
      simp only [List.length_singleton, Nat.cast_one]
      linarith
    | cons h' hops =>
      obtain ⟨⟨-, hlink⟩, hrest⟩ := List.isChain_cons_cons.mp hpassed
      have hrec := ih hrest (fun k hk => hlaw k (.tail h hk)) rfl
        (by simpa using hlast)
      rw [List.length_cons, Nat.cast_succ]
      rw [hlink] at hrec
      linarith

/-- **A rumour loses the decay at every hop exactly when nothing refreshes it at any hop**, and
    then it dies out. -/
theorem rumourFalls_iff {decay : ℚ} (hdecay : 0 < decay) {subject content : String}
    {hops : List (RumourHop decay subject content)} (hpassed : Passed hops) :
    ((∀ h ∈ hops, h.stored ≤ h.held - decay) ↔ ∀ h ∈ hops, h.Unrefreshed) ∧
    ((∀ h ∈ hops, h.Unrefreshed) → (∀ h ∈ hops, h.stored < h.held) ∧
      ∀ first, hops.head? = some first → first.held ≤ 1 → hops.length ≤ 1 / decay) := by
  have hiff : (∀ h ∈ hops, h.stored ≤ h.held - decay) ↔ ∀ h ∈ hops, h.Unrefreshed :=
    forall₂_congr (fun h _ => h.stored_le_iff)
  refine ⟨hiff, fun hun => ⟨fun h hh => ?_, fun first hfirst hone => ?_⟩⟩
  · have hlaw := hiff.mpr hun h hh
    linarith
  · obtain ⟨last, hlast⟩ : ∃ last, hops.getLast? = some last := by
      cases hops with
      | nil => simp at hfirst
      | cons h hops => exact ⟨_, List.getLast?_eq_some_getLast (List.cons_ne_nil h hops)⟩
    have hsum := hpassed.length_mul_le (hiff.mpr hun) hfirst hlast
    obtain ⟨-, -, hpos, -⟩ := last.stored_eq
    rw [le_div_iff₀ hdecay]
    linarith

/-! ### A rumour refreshed -/

/-- Ben, who has heard that the butler fled, knows himself that the butler was in the hall. -/
private def refreshedBen : BeliefState :=
  ⟨[⟨"butler", "was in the hall", 0, .witnessed, .fact⟩,
    ⟨"butler", "fled", 1, .toldBy "Ann", .suspicion (2 / 5)⟩], .empty⟩

private def benTellsCid : Transmission :=
  ⟨"Ben", "Cid", "butler", "fled", .neutral, by decide, by decide⟩

private def refreshedNpcs : Dict String BeliefState :=
  ⟨[("Ben", refreshedBen), ("Cid", ⟨[], .empty⟩)], by decide⟩

/-- Ben's own fact lifts the rumour he passes on to Cid's trust in him. -/
def refreshedHop : RumourHop (1 / 10) "butler" "fled" where
  npcs := refreshedNpcs
  batch := [benTellsCid]
  turn := 2
  sender := "Ben"
  receiver := "Cid"
  senderState := refreshedBen
  receiverState := ⟨[], .empty⟩
  receiverAfter := ⟨[⟨"butler", "fled", 2, .toldBy "Ben", .suspicion (2 / 5)⟩], .empty⟩
  held := 2 / 5
  stored := 2 / 5
  senderAt := rfl
  receiverAt := rfl
  afterAt := by with_unfolding_all rfl
  senderHolds := rfl
  untold := rfl
  onlyFrom := by simp [benTellsCid]
  landed := rfl

private def cidTellsDot : Transmission :=
  ⟨"Cid", "Dot", "butler", "fled", .neutral, by decide, by decide⟩

/-- Cid has nothing but the rumour, and passes it on to Dot. -/
def fallingHop : RumourHop (1 / 10) "butler" "fled" where
  npcs := ⟨[("Cid", refreshedHop.receiverAfter), ("Dot", ⟨[], .empty⟩)], by decide⟩
  batch := [cidTellsDot]
  turn := 3
  sender := "Cid"
  receiver := "Dot"
  senderState := refreshedHop.receiverAfter
  receiverState := ⟨[], .empty⟩
  receiverAfter := ⟨[⟨"butler", "fled", 3, .toldBy "Cid", .suspicion (3 / 10)⟩], .empty⟩
  held := 2 / 5
  stored := 3 / 10
  senderAt := rfl
  receiverAt := rfl
  afterAt := by with_unfolding_all rfl
  senderHolds := rfl
  untold := rfl
  onlyFrom := by simp [cidTellsDot]
  landed := rfl

theorem rumourFalls_iff_refreshed :
    (∀ h ∈ [refreshedHop, fallingHop], h.stored ≤ h.held - 1 / 10) ↔
      ∀ h ∈ [refreshedHop, fallingHop], h.Unrefreshed :=
  (rumourFalls_iff (by norm_num) (List.IsChain.cons_cons ⟨rfl, rfl⟩ (List.IsChain.singleton _))).1

/-- A rumour stored with the very confidence its sender held it with. -/
theorem not_rumourFalls : ∃ hops : List (RumourHop (1 / 10) "butler" "fled"),
    Passed hops ∧ ¬ ∀ h ∈ hops, h.stored ≤ h.held - 1 / 10 := by
  refine ⟨[refreshedHop], List.IsChain.singleton _, fun hlaw => ?_⟩
  have h := hlaw refreshedHop List.mem_cons_self
  have hsame : refreshedHop.stored = refreshedHop.held := rfl
  rw [hsame] at h
  linarith

end Sidequest.Agents
