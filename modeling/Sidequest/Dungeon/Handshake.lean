import Sidequest.Dungeon.TropeThreads
import Sidequest.Trope.Ladder

namespace Sidequest.Dungeon

open Lib Effect
open Trope (TropeState TropeStatus Pack Tick tickTropes Ticks)

/-!
# The handshake of a turn

When a turn begins, the statuses of all tropes are kept by their ids. At its end the tropes that are
resolved, and by their ids were not before, are written to the log and the stakes, and close threads
of the ledger. Two tropes may have one id: then the ids tell less than the tropes do.

* `handshake` — the end of a turn;
* `settled_iff_matched` — over every run: the counts are right exactly while the ids tell them.
-/

/-! ### The end of a turn -/

/-- `{t.id: t.status for t in active_tropes}`. -/
def tropeStatusBaseline (tropes : List TropeState) : Dict String TropeStatus :=
  tropes.foldl (fun d t => d.insert t.id t.status) .empty

/-- The trope is resolved, and by its id it was not before. -/
def IsFresh (baseline : Dict String TropeStatus) (t : TropeState) : Prop :=
  t.status = .resolved ∧ baseline.get? t.id ≠ some .resolved

instance (baseline : Dict String TropeStatus) (t : TropeState) : Decidable (IsFresh baseline t) :=
  inferInstanceAs (Decidable (_ ∧ _))

/-- The length up to which the stakes are kept. -/
def activeStakesGuardrail : Nat := 1024

/-- `text[:n]`, where a negative bound counts from the end. -/
def takeTo (text : String) (n : Int) : String :=
  String.ofList (text.toList.take (if 0 ≤ n then n else text.toList.length + n).toNat)

/-- Append a marker; stakes that grow too long lose what stands before it. -/
def appendMarker (stakes marker : String) : String :=
  let stakes := if stakes ≠ "" then stakes ++ "\n" ++ marker else marker
  if activeStakesGuardrail < stakes.toList.length then
    takeTo stakes (activeStakesGuardrail - marker.toList.length - 1) ++ "\n" ++ marker
  else stakes

/-- Set the status of a quest, or add one that has nothing else. -/
def upsertQuestStatus (questLog : Dict String World.QuestEntry) (questId status : String) :
    Dict String World.QuestEntry :=
  match questLog.get? questId with
  | some existing => questLog.insert questId { existing with status := status }
  | none => questLog.insert questId { status := status }

/-- Write fresh resolutions to the stakes and the log. -/
def handshakeResolvedTropes (baseline : Dict String TropeStatus) (s : LiveSnapshot) :
    LiveSnapshot :=
  let fresh := s.activeTropes.filter (fun t => IsFresh baseline t)
  let turn := toString s.interaction
  let freshWrites : Dict String String := fresh.foldl (fun writes t =>
    writes.insert ("trope_" ++ t.id) ("Resolved at turn " ++ turn)) .empty
  { s with
    activeStakes := fresh.foldl (fun stakes t =>
      appendMarker stakes ("[Resolved: " ++ t.id ++ " on turn " ++ turn ++ "]")) s.activeStakes
    questLog := freshWrites.entries.foldl (fun log write =>
      upsertQuestStatus log write.1 write.2) s.questLog }

/-- The ids of the tropes that were resolved in the turn. -/
def resolvedThisTurn (baseline : Dict String TropeStatus) (tropes : List TropeState) :
    List String :=
  (tropes.filter (fun t => IsFresh baseline t)).map TropeState.id

/-- **The handshake** of a turn that began with some tropes. Threads are closed and quests completed
    only where the session has the store. -/
def handshake (wired : Bool) (begun : List TropeState) (c : Campaign) :
    Except LedgerError Campaign :=
  let baseline := tropeStatusBaseline begun
  let snapshot := handshakeResolvedTropes baseline c.snapshot
  if wired = false then .ok { c with snapshot := snapshot }
  else
    let resolved := resolvedThisTurn baseline snapshot.activeTropes
    match resolveComplicationsForResolvedTropes resolved c.tables.ledger with
    | .error cause => .error cause
    | .ok ledger =>
      let quests := (resolveExpansionQuests ⟨[], resolved,
        collectDefeatedNpcNames snapshot.toGameSnapshot⟩ [] ⟨snapshot.toGameSnapshot, ledger⟩).1
      .ok { c with
        snapshot := { snapshot with toGameSnapshot := quests.snapshot }
        tables := { c.tables with ledger := quests.ledger } }

/-! ### Turns -/

/-- A campaign in play, with the tropes that the turn under way began with. -/
structure InPlay where
  campaign : Campaign
  begun : Option (List TropeState) := none

/-- What happens to a campaign in play. -/
inductive PlayEvent (F : Type) where
  | materialize (m : Materializer F) (request : MaterializationRequest)
  | beginTurn
  | tick (pack : Pack) (tick : Tick)
  | handshake (wired : Bool)

namespace InPlay

/-- The tropes in play. -/
def tropes (s : InPlay) : List TropeState := s.campaign.snapshot.activeTropes

/-- How many threads of a trope are open. -/
def openCount (s : InPlay) (tropeId : String) : Nat :=
  s.campaign.tables.ledger.openCount tropeId

variable {F : Type}

/-- One event. The dungeon grows at any time; tropes tick and hands are shaken within turns. A turn
    that ends without its handshake is over when the next one begins. -/
def step (s : InPlay) : PlayEvent F → InPlay
  | .materialize m request => { s with campaign := ((m.materialize request).exec s.campaign).2 }
  | .beginTurn => { s with begun := some s.tropes }
  | .tick pack tick =>
    match s.begun with
    | none => s
    | some _ => { s with campaign := { s.campaign with snapshot := { s.campaign.snapshot with
        toEngine := tickTropes pack s.campaign.snapshot.toEngine tick } } }
  | .handshake wired =>
    match s.begun with
    | none => s
    | some begun =>
      match Dungeon.handshake wired begun s.campaign with
      | .ok c => { campaign := c }
      | .error _ => s

end InPlay

/-! ### Counts -/

/-- The resolved tropes with an id. -/
def resolvedCount (l : List TropeState) (tropeId : String) : Nat :=
  l.countP (fun t => t.id = tropeId ∧ t.status = .resolved)

/-- The tropes with an id that are not resolved. -/
def unresolvedCount (l : List TropeState) (tropeId : String) : Nat :=
  l.countP (fun t => t.id = tropeId ∧ t.status ≠ .resolved)

/-- The tropes with an id that were resolved since the turn began, place by place: tropes are only
    added at the end. -/
def newlyResolved (tropeId : String) : List TropeState → List TropeState → Nat
  | _, [] => 0
  | [], t :: now => (if t.id = tropeId ∧ t.status = .resolved then 1 else 0)
      + newlyResolved tropeId [] now
  | u :: begun, t :: now =>
    (if t.id = tropeId ∧ t.status = .resolved ∧ u.status ≠ .resolved then 1 else 0)
      + newlyResolved tropeId begun now

section Properties

variable {F : Type}

/-- The threads closed by the end of a turn, at its handshake or without one, are one for each trope
    that was resolved in it, as far as threads are open; nothing else closes threads of tropes. -/
def Exact (s : InPlay) : PlayEvent F → Prop
  | .handshake wired => ∀ begun ∈ s.begun, ∀ r,
    (s.step (.handshake wired : PlayEvent F)).openCount r
      = s.openCount r - newlyResolved r begun s.tropes
  | .beginTurn => ∀ begun ∈ s.begun, ∀ r,
    (s.step (.beginTurn : PlayEvent F)).openCount r
      = s.openCount r - newlyResolved r begun s.tropes
  | e => ∀ r, s.openCount r ≤ (s.step e).openCount r

/-- Between turns, and as one begins, no thread is left of a trope that is resolved: every open
    thread has a trope of its own that is not. -/
def NoneStale (s : InPlay) : Prop :=
  (∀ begun ∈ s.begun, begun = s.tropes) → ∀ r, s.openCount r ≤ unresolvedCount s.tropes r

/-- The id tells how many threads to close: none that were resolved before count, and as many as are
    open were resolved in the turn, or none. -/
def TellsCount (wired : Bool) (begun now : List TropeState) (openThreads : Nat) (r : String) :
    Prop :=
  if wired = true ∧ (tropeStatusBaseline begun).get? r ≠ some .resolved then
    resolvedCount begun r = 0 ∨ openThreads ≤ newlyResolved r begun now
  else newlyResolved r begun now = 0

/-- At a handshake, each id that threads are open of tells how many to close. In a turn without one,
    no trope is resolved that threads are open of. -/
def Matched (s : InPlay) : PlayEvent F → Prop
  | .handshake wired => ∀ begun ∈ s.begun, ∀ r,
    s.openCount r = 0 ∨ TellsCount wired begun s.tropes (s.openCount r) r
  | .beginTurn => ∀ begun ∈ s.begun, ∀ r,
    s.openCount r = 0 ∨ newlyResolved r begun s.tropes = 0
  | _ => True

end Properties

/-! ### What a handshake closes -/

/-- A trope is listed as often as it is resolved, or not at all where the last one with its id was
    resolved before. -/
theorem count_resolvedThisTurn (baseline : Dict String TropeStatus) (tropes : List TropeState)
    (r : String) : (resolvedThisTurn baseline tropes).count r
      = if baseline.get? r = some .resolved then 0 else resolvedCount tropes r := by
  unfold resolvedThisTurn resolvedCount
  rw [List.count_eq_countP, List.countP_map, List.countP_filter]
  by_cases hold : baseline.get? r = some .resolved
  · rw [if_pos hold, List.countP_eq_zero]
    intro t _
    simp only [Function.comp_apply, Bool.and_eq_true, beq_iff_eq, decide_eq_true_iff, not_and]
    rintro rfl hfresh
    exact hfresh.2 hold
  · rw [if_neg hold]
    apply List.countP_congr
    intro t _
    simp only [Function.comp_apply, Bool.and_eq_true, beq_iff_eq, decide_eq_true_iff]
    constructor
    · rintro ⟨hid, hresolved, -⟩
      exact ⟨hid, hresolved⟩
    · rintro ⟨rfl, hresolved⟩
      exact ⟨rfl, hresolved, hold⟩

/-- **A handshake** does not raise. It leaves the tropes, and closes a thread for each that is
    listed, if the session has the store. -/
theorem handshake_ok (wired : Bool) (begun : List TropeState) (c : Campaign) :
    ∃ c', handshake wired begun c = .ok c' ∧
      c'.snapshot.activeTropes = c.snapshot.activeTropes ∧
      ∀ r, c'.tables.ledger.openCount r = c.tables.ledger.openCount r -
        if wired = true ∧ (tropeStatusBaseline begun).get? r ≠ some .resolved then
          resolvedCount c.snapshot.activeTropes r else 0 := by
  unfold handshake
  cases wired with
  | false =>
    refine ⟨_, rfl, rfl, fun r => ?_⟩
    rw [if_neg (by simp), Nat.sub_zero]
  | true =>
    obtain ⟨ledger, hledger, hopen⟩ := resolveComplications_spec
      (resolvedThisTurn (tropeStatusBaseline begun) c.snapshot.activeTropes) c.tables.ledger
    have hsame : (handshakeResolvedTropes (tropeStatusBaseline begun) c.snapshot).activeTropes
        = c.snapshot.activeTropes := rfl
    dsimp only
    rw [if_neg (by simp), hsame, hledger]
    refine ⟨_, rfl, rfl, fun r => ?_⟩
    show ThreadLedger.openCount _ r = _
    unfold ThreadLedger.openCount
    rw [openOf_resolveExpansionQuests, hopen, List.length_drop, count_resolvedThisTurn]
    by_cases hold : (tropeStatusBaseline begun).get? r = some .resolved
    · simp [hold]
    · simp [hold]

/-! ### Tropes over a turn -/

/-- A trope under its id; resolved, it stays so. -/
def Keeps (t t' : TropeState) : Prop :=
  t'.id = t.id ∧ (t.status = .resolved → t'.status = .resolved)

theorem Keeps.trans {t u v : TropeState} (h : Keeps t u) (h' : Keeps u v) : Keeps t v :=
  ⟨h'.1.trans h.1, fun hresolved => h'.2 (h.2 hresolved)⟩

/-- The tropes there were are kept, and some may have come. -/
def Since : List TropeState → List TropeState → Prop
  | [], _ => True
  | _ :: _, [] => False
  | t :: begun, t' :: now => Keeps t t' ∧ Since begun now

theorem since_refl (tropes : List TropeState) : Since tropes tropes := by
  induction tropes with
  | nil => exact trivial
  | cons t tropes ih => exact ⟨⟨rfl, id⟩, ih⟩

theorem keeps_of_ticks {pack : Pack} {tick : Tick} {t t' : TropeState}
    (h : Ticks pack tick t t') : Keeps t t' := by
  obtain ⟨u, hstagger, hgate⟩ := h
  have hid : (Trope.drift pack tick (Trope.advance pack t)).id = t.id :=
    (Trope.id_drift pack tick _).trans (Trope.advance_frame pack t).1
  have hu : u.id = t.id := by
    rcases hstagger with rfl | ⟨-, rfl⟩
    · exact hid
    · exact (Trope.fire_frame pack tick.nowTurn _).1.trans hid
  refine ⟨hgate.frame.1.trans hu, fun hresolved => ?_⟩
  have hidle : t.status ≠ .progressing := by
    rw [hresolved]
    decide
  -- no pass does anything to a resolved trope
  rw [Trope.drift_advance_of_idle hidle] at hstagger
  have hsame : u = t := hstagger.resolve_right (fun hfired => hidle hfired.1.1)
  rw [hgate.eq_of_not_dormant (by rw [hsame, hresolved]; decide), hsame]
  exact hresolved

theorem forall₂_keeps_tick (pack : Pack) (s : Trope.Engine) (tick : Tick) :
    List.Forall₂ Keeps s.activeTropes (tickTropes pack s tick).activeTropes :=
  (Trope.forall₂_tickTropes pack s tick).imp (fun _ _ => keeps_of_ticks)

variable {begun now : List TropeState}

/-- What is kept place by place is since the same turn. -/
theorem Since.keeps {now' : List TropeState} (h : Since begun now)
    (hkeeps : List.Forall₂ Keeps now now') : Since begun now' := by
  induction hkeeps generalizing begun with
  | nil => exact h
  | @cons t t' now now' hkeep _ ih =>
    cases begun with
    | nil => exact trivial
    | cons u begun => exact ⟨h.1.trans hkeep, ih h.2⟩

/-- What comes at the end is since the turn. -/
theorem Since.append (h : Since begun now) (new : List TropeState) : Since begun (now ++ new) := by
  induction begun generalizing now with
  | nil => exact trivial
  | cons u begun ih =>
    cases now with
    | nil => exact absurd h id
    | cons t now => exact ⟨h.1, ih h.2⟩

theorem resolvedCount_cons (t : TropeState) (l : List TropeState) (r : String) :
    resolvedCount (t :: l) r
      = (if t.id = r ∧ t.status = .resolved then 1 else 0) + resolvedCount l r := by
  unfold resolvedCount
  rw [List.countP_cons, Nat.add_comm]
  simp

/-- **What is resolved** was so when the turn began, or is newly so. -/
theorem resolvedCount_since (h : Since begun now) (r : String) :
    resolvedCount now r = resolvedCount begun r + newlyResolved r begun now := by
  induction now generalizing begun with
  | nil =>
    cases begun with
    | nil => rfl
    | cons u begun => exact absurd h id
  | cons t now ih =>
    cases begun with
    | nil =>
      have hrest : resolvedCount now r = resolvedCount [] r + newlyResolved r [] now := ih trivial
      show resolvedCount (t :: now) r = _
      unfold newlyResolved
      rw [resolvedCount_cons, hrest]
      omega
    | cons u begun =>
      obtain ⟨⟨hid, hstays⟩, hrest⟩ := h
      have hcount := ih hrest
      unfold newlyResolved
      rw [resolvedCount_cons, resolvedCount_cons, hcount, hid]
      by_cases hu : u.status = .resolved
      · simp only [hu, hstays hu, ne_eq, not_true_eq_false, and_true, and_false, if_false]
        omega
      · simp only [hu, ne_eq, not_false_eq_true, and_true, and_false, if_false]
        omega

/-! ### Threads over a turn -/

/-- Between turns every open thread has an unresolved trope of its own. Within a turn it has one
    that was not resolved when the turn began. -/
def Accounted (s : InPlay) : Prop :=
  match s.begun with
  | none => ∀ r, s.openCount r ≤ unresolvedCount s.tropes r
  | some begun => Since begun s.tropes ∧
    ∀ r, s.openCount r + resolvedCount begun r ≤ tropeCount s.tropes r

theorem resolved_add_unresolved (l : List TropeState) (r : String) :
    resolvedCount l r + unresolvedCount l r = tropeCount l r := by
  unfold resolvedCount unresolvedCount tropeCount
  rw [List.countP_eq_countP_filter_add l (·.id = r) (·.status = .resolved),
    List.countP_filter, List.countP_filter]
  congr 1
  · simp
  · simp

theorem unresolvedCount_append {new : List TropeState} (hnew : ∀ t ∈ new, t.status ≠ .resolved)
    (l : List TropeState) (r : String) :
    unresolvedCount (l ++ new) r = unresolvedCount l r + tropeCount new r := by
  unfold unresolvedCount tropeCount
  rw [List.countP_append]
  congr 1
  apply List.countP_congr
  intro t ht
  simp [hnew t ht]

theorem tropeCount_keeps {l l' : List TropeState} (h : List.Forall₂ Keeps l l') (r : String) :
    tropeCount l' r = tropeCount l r := by
  unfold tropeCount
  induction h with
  | nil => rfl
  | cons hkeep _ ih => rw [List.countP_cons, List.countP_cons, ih, hkeep.1]

variable {F : Type} {s : InPlay}

namespace InPlay

/-- A turn ends with its handshake. -/
theorem step_handshake (hbegun : s.begun = some begun) (wired : Bool) :
    (s.step (.handshake wired : PlayEvent F)).begun = none ∧
      (s.step (.handshake wired : PlayEvent F)).tropes = s.tropes ∧
      ∀ r, (s.step (.handshake wired : PlayEvent F)).openCount r = s.openCount r -
        if wired = true ∧ (tropeStatusBaseline begun).get? r ≠ some .resolved then
          resolvedCount s.tropes r else 0 := by
  obtain ⟨c, hc, htropes, hopen⟩ := handshake_ok wired begun s.campaign
  unfold step
  rw [hbegun]
  dsimp only
  rw [hc]
  exact ⟨rfl, htropes, hopen⟩

end InPlay

/-- **At a handshake** the right number of threads is closed exactly if the id tells it. -/
theorem closes_iff_tellsCount (h : Since begun now) (wired : Bool) (openThreads : Nat) (r : String) :
    (openThreads - if wired = true ∧ (tropeStatusBaseline begun).get? r ≠ some .resolved then
        resolvedCount now r else 0) = openThreads - newlyResolved r begun now ↔
      openThreads = 0 ∨ TellsCount wired begun now openThreads r := by
  have hsum := resolvedCount_since h r
  unfold TellsCount
  split
  · omega
  · omega

/-- Only handshakes close threads of tropes, and they close the right number where the ids tell
    it. -/
theorem exact_iff_matched (h : Accounted s) (e : PlayEvent F) : Exact s e ↔ Matched s e := by
  cases e with
  | materialize m request =>
    have hopens : Opens (Materializer.complicated s.campaign) (Materializer.complicated _) :=
      m.opens_materialize request s.campaign
    exact iff_of_true hopens.kept trivial
  | beginTurn =>
    refine forall₂_congr (fun begun _ => forall_congr' (fun r => ?_))
    show s.openCount r = s.openCount r - newlyResolved r begun s.tropes ↔ _
    omega
  | tick pack tick =>
    refine iff_of_true (fun r => le_of_eq ?_) trivial
    unfold InPlay.step
    cases hbegun : s.begun with
    | none => rfl
    | some begun => rfl
  | handshake wired =>
    refine forall₂_congr (fun begun hbegun => forall_congr' (fun r => ?_))
    have hbegun' : s.begun = some begun := hbegun
    unfold Accounted at h
    rw [hbegun'] at h
    rw [(InPlay.step_handshake hbegun' wired).2.2 r, closes_iff_tellsCount h.1]

/-- A materialization keeps threads accounted for: each that it opens has a trope it starts. -/
theorem accounted_materialize (h : Accounted s) (m : Materializer F)
    (request : MaterializationRequest) : Accounted (s.step (.materialize m request)) := by
  have hopens : Opens (Materializer.complicated s.campaign) (Materializer.complicated _) :=
    m.opens_materialize request s.campaign
  obtain ⟨new, htropes, hnew, hcount⟩ := hopens.started
  unfold Accounted at h ⊢
  have htropes' : (s.step (.materialize m request)).tropes = s.tropes ++ new := htropes
  have hbegun' : (s.step (.materialize m request)).begun = s.begun := rfl
  rw [hbegun', htropes']
  cases hbegun : s.begun with
  | none =>
    rw [hbegun] at h
    intro r
    have hr : s.openCount r ≤ unresolvedCount s.tropes r := h r
    have hr' : (s.step (.materialize m request)).openCount r ≤ s.openCount r + tropeCount new r :=
      hcount r
    rw [unresolvedCount_append hnew]
    omega
  | some begun =>
    rw [hbegun] at h
    obtain ⟨hsince, h⟩ := h
    refine ⟨hsince.append new, fun r => ?_⟩
    have hr : s.openCount r + resolvedCount begun r ≤ tropeCount s.tropes r := h r
    have hr' : (s.step (.materialize m request)).openCount r ≤ s.openCount r + tropeCount new r :=
      hcount r
    have hsum : tropeCount (s.tropes ++ new) r = tropeCount s.tropes r + tropeCount new r :=
      List.countP_append
    omega

/-- **An exact step** keeps threads accounted for. -/
theorem Accounted.step (h : Accounted s) (e : PlayEvent F) (hexact : Exact s e) :
    Accounted (s.step e) := by
  cases e with
  | materialize m request => exact accounted_materialize h m request
  | beginTurn =>
    refine ⟨since_refl s.tropes, fun r => ?_⟩
    show s.openCount r + resolvedCount s.tropes r ≤ tropeCount s.tropes r
    have hsum := resolved_add_unresolved s.tropes r
    unfold Accounted at h
    cases hbegun : s.begun with
    | none =>
      rw [hbegun] at h
      have hr : s.openCount r ≤ unresolvedCount s.tropes r := h r
      omega
    | some begun =>
      -- the last turn ended without its handshake
      rw [hbegun] at h
      obtain ⟨hsince, h⟩ := h
      have hr := h r
      have hcloses : s.openCount r = s.openCount r - newlyResolved r begun s.tropes :=
        hexact begun hbegun r
      have hnewly := resolvedCount_since hsince r
      omega
  | tick pack tick =>
    unfold Accounted at h
    cases hbegun : s.begun with
    | none =>
      have hstep : s.step (.tick pack tick : PlayEvent F) = s := by
        unfold InPlay.step
        rw [hbegun]
      rw [hstep]
      exact h
    | some begun =>
      rw [hbegun] at h
      have hkeeps : List.Forall₂ Keeps s.tropes
          (tickTropes pack s.campaign.snapshot.toEngine tick).activeTropes :=
        forall₂_keeps_tick pack s.campaign.snapshot.toEngine tick
      unfold Accounted InPlay.step
      rw [hbegun]
      refine ⟨h.1.keeps hkeeps, fun r => ?_⟩
      show s.openCount r + resolvedCount begun r
        ≤ tropeCount (tickTropes pack s.campaign.snapshot.toEngine tick).activeTropes r
      rw [tropeCount_keeps hkeeps]
      exact h.2 r
  | handshake wired =>
    unfold Accounted at h
    cases hbegun : s.begun with
    | none =>
      have hstep : s.step (.handshake wired : PlayEvent F) = s := by
        unfold InPlay.step
        rw [hbegun]
      rw [hstep]
      exact h
    | some begun =>
      rw [hbegun] at h
      obtain ⟨hsince, h⟩ := h
      obtain ⟨hended, htropes, -⟩ := InPlay.step_handshake (F := F) hbegun wired
      unfold Accounted
      rw [hended, htropes]
      intro r
      have hcloses := hexact begun hbegun r
      have hr := h r
      have hsum := resolved_add_unresolved s.tropes r
      have hnewly := resolvedCount_since hsince r
      omega

theorem Accounted.noneStale (h : Accounted s) : NoneStale s := by
  intro hbegun r
  unfold Accounted at h
  cases hturn : s.begun with
  | none =>
    rw [hturn] at h
    exact h r
  | some begun =>
    rw [hturn] at h
    obtain rfl := hbegun begun hturn
    have hr := h.2 r
    have hsum := resolved_add_unresolved s.tropes r
    omega

/-! ### Runs -/

/-- **Threads and their tropes, over every run.** Every handshake closes the right threads exactly
    if none was stale at the start and each id with open threads tells how many to close. -/
theorem settled_iff_matched (c : Campaign) (events : List (PlayEvent F)) :
    (StepsMeet InPlay.step Exact ⟨c, none⟩ events ∧
        Throughout InPlay.step NoneStale ⟨c, none⟩ events) ↔
      NoneStale ⟨c, none⟩ ∧ StepsMeet InPlay.step Matched ⟨c, none⟩ events := by
  have hinit : NoneStale ⟨c, none⟩ → Accounted ⟨c, none⟩ := fun h => h (fun _ hnone => by cases hnone)
  constructor
  · rintro ⟨hexact, hnone⟩
    have hstart : NoneStale ⟨c, none⟩ := throughout_iff_initial.mp hnone [] List.nil_prefix
    refine ⟨hstart, ?_⟩
    exact stepsMeet_of_invariant (fun s e h => h.step e) (fun s e h => (exact_iff_matched h e).mp)
      (hinit hstart) hexact
  · rintro ⟨hstart, hmatched⟩
    have hexact : StepsMeet InPlay.step Exact ⟨c, none⟩ events :=
      stepsMeet_of_invariant (fun s e h hok => h.step e ((exact_iff_matched h e).mpr hok))
        (fun s e h => (exact_iff_matched h e).mpr) (hinit hstart) hmatched
    refine ⟨hexact, ?_⟩
    exact (throughout_of_invariant (fun s e h => h.step e) (hinit hstart) hexact).mono
      (fun _ => Accounted.noneStale)

/-! ### Three floods -/

/-- Floods that rise to the full in one turn, and have one beat. -/
def floods : Pack :=
  [{ id := some "flood"
     name := "The flood"
     escalation := [{ atProgress := 1, event := "The water is over the stairs." }]
     passiveProgression := some { ratePerTurn := 2 } }]

/-- Materialization of crypts with wells that bring floods. -/
def wellMaterializer (wells : Nat) : Materializer Unit :=
  let wellTheme : DungeonTheme := {
    id := "crypt"
    setPieces := [{ id := "wells", tropeComponents := List.replicate wells ⟨"flood"⟩ }] }
  { cryptMaterializer "flood" with palette := Dict.empty.insert "crypt" wellTheme }

/-- An expansion with a crypt of wells, as many as threads are lit. -/
def digWells (wells : Nat) : PlayEvent Unit :=
  .materialize (wellMaterializer wells) { cryptRequest with burstMagnitude := wells }

/-- A turn in which floods tick. -/
def floodTurn (wired : Bool) (nowTurn : Int) : List (PlayEvent Unit) :=
  [.beginTurn, .tick floods { nowTurn }, .handshake wired]

/-- Three floods, before the hands are shaken on their second turn. -/
def risingFloods : InPlay :=
  run InPlay.step ⟨cryptCampaign, none⟩
    (digWells 3 :: floodTurn true 1 ++ [.beginTurn, .tick floods { nowTurn := 2 }])

/-- One flood, after a turn of a session without the store. -/
def unheardFlood : InPlay := run InPlay.step ⟨cryptCampaign, none⟩ (digWells 1 :: floodTurn false 1)

theorem not_exact_of_counts {wired : Bool} {r : String} {n : Nat}
    (hnewly : s.begun.map (fun begun => newlyResolved r begun s.tropes) = some n)
    (hcloses : (s.step (.handshake wired : PlayEvent F)).openCount r ≠ s.openCount r - n) :
    ¬ Exact s (.handshake wired : PlayEvent F) := by
  obtain ⟨begun, hbegun, rfl⟩ := Option.map_eq_some_iff.mp hnewly
  exact fun hexact => hcloses (hexact begun hbegun r)

/-- Three floods resolve one by one, and all threads are closed while one still rises; without the
    store, a single thread is never closed. -/
theorem not_settled_wells : ¬ (StepsMeet InPlay.step Exact ⟨cryptCampaign, none⟩
          (digWells 3 :: floodTurn true 1 ++ floodTurn true 2) ∧
        Throughout InPlay.step NoneStale ⟨cryptCampaign, none⟩
          (digWells 3 :: floodTurn true 1 ++ floodTurn true 2)) ∧
      ¬ (StepsMeet InPlay.step Exact ⟨cryptCampaign, none⟩ (digWells 1 :: floodTurn false 1) ∧
        Throughout InPlay.step NoneStale ⟨cryptCampaign, none⟩
          (digWells 1 :: floodTurn false 1)) := by
  constructor
  · rintro ⟨hexact, -⟩
    have hlast : Exact risingFloods (.handshake true : PlayEvent Unit) :=
      stepsMeet_iff_forall.mp hexact _ _ [] rfl
    have hnewly : risingFloods.begun.map (fun begun =>
        newlyResolved "flood" begun risingFloods.tropes) = some 1 := by decide +kernel
    have hcloses : (risingFloods.step (.handshake true : PlayEvent Unit)).openCount "flood"
        ≠ risingFloods.openCount "flood" - 1 := by decide +kernel
    exact not_exact_of_counts hnewly hcloses hlast
  · rintro ⟨-, hnone⟩
    have hlast : NoneStale unheardFlood := hnone.last
    have hended : unheardFlood.begun.isNone = true := by decide +kernel
    have hstale : ¬ unheardFlood.openCount "flood"
        ≤ unresolvedCount unheardFlood.tropes "flood" := by decide +kernel
    refine hstale (hlast (fun begun hbegun => ?_) "flood")
    rw [Option.isNone_iff_eq_none.mp hended] at hbegun
    cases hbegun

end Sidequest.Dungeon
