import Sidequest.Combat.Frame

namespace Sidequest.Combat

open Lib Effect
open Fate (ActorSide Cast CoreRef EncounterActor)

/-!
# The walk

What one slot of a round does, by what it comes to, and what the whole walk does.

* `SlotAction.acts` — the slots in which somebody acts;
* `safe_of_round` — all of it over a round;
* `accounted_iff` — a commit is accounted for exactly if one slot of the round answers for it.
-/

section

/-! ### Slots without an action -/

/-- Somebody acts in the slot. -/
def SlotAction.acts : SlotAction → Bool
  | .opponentAttack _ => true
  | .useItem _ => true
  | .nonoffensive _ => true
  | .applyBeat _ _ => true
  | _ => false

/-- The event says that a slot was passed over. -/
def Event.skips : Event → Bool
  | .slotSkippedDowned .. => true
  | .slotSkippedEncounterResolved .. => true
  | .deadPremise .. => true
  | _ => false

/-- Nothing has changed but the hints and the events, and the new events say that a slot was
    passed over. -/
structure Idle (s s' : GameSnapshot) : Prop where
  same : s' = { s with
    events := s'.events
    encounter := { s.encounter with narratorHints := s'.encounter.narratorHints } }
  events : ∃ new, s'.events = s.events ++ new ∧ ∀ event ∈ new, event.skips = true

theorem Idle.refl (s : GameSnapshot) : Idle s s := ⟨rfl, [], (List.append_nil _).symm, by simp⟩

/-- The actor is at 0 HP or withdrawn, or the fight is over. -/
def GameSnapshot.barred (s : GameSnapshot) (token : String) : Prop :=
  s.isDown token = true ∨ (s.encounter.findActor token).any EncounterActor.withdrawn = true ∨
    s.encounter.resolved = true

/-- The commit that a slot deals with. -/
def SlotAction.commit? : SlotAction → Option WnSealedCommit
  | .deadPremise commit _ => some commit
  | .fightOver commit => some commit
  | .useItem commit => some commit
  | .nonoffensive commit => some commit
  | .applyBeat commit _ => some commit
  | _ => none

variable {s : GameSnapshot} {commit : WnSealedCommit}

/-- **The slots that deal with a commit** are those of a player who is seated, up and in the
    fight. -/
theorem exists_of_commit? {commits : String → Option WnSealedCommit} {token : String}
    (h : (s.slotAction commits token).commit? = some commit) :
    ∃ actor, s.encounter.findActor token = some actor ∧ s.isDown token = false ∧
      actor.withdrawn = false ∧ actor.side = .player ∧ commits token = some commit ∧
      s.slotAction commits token = s.commitAction actor commit := by
  unfold GameSnapshot.slotAction at h ⊢
  cases hactor : s.encounter.findActor token with
  | none =>
    rw [hactor] at h
    simp [SlotAction.commit?] at h
  | some actor =>
    rw [hactor] at h
    dsimp only at h ⊢
    split_ifs at h ⊢ with hdown hwithdrawn
    · simp [SlotAction.commit?] at h
    · simp [SlotAction.commit?] at h
    · refine ⟨actor, rfl, Bool.eq_false_iff.mpr hdown, Bool.eq_false_iff.mpr hwithdrawn, ?_⟩
      unfold GameSnapshot.standingAction at h ⊢
      cases hside : actor.side with
      | opponent =>
        rw [hside] at h
        dsimp only at h
        split_ifs at h
        · simp [SlotAction.commit?] at h
        · split at h
          · simp [SlotAction.commit?] at h
          · simp [SlotAction.commit?] at h
      | neutral =>
        rw [hside] at h
        simp [SlotAction.commit?] at h
      | player =>
        rw [hside] at h
        cases hcommit : commits token with
        | none =>
          rw [hcommit] at h
          simp [SlotAction.commit?] at h
        | some commit' =>
          rw [hcommit] at h
          have hsame : commit' = commit := by
            change (s.commitAction actor commit').commit? = some commit at h
            unfold GameSnapshot.commitAction at h
            split at h
            · exact Option.some.inj h
            · split_ifs at h
              · exact Option.some.inj h
              · exact Option.some.inj h
              · exact Option.some.inj h
              · exact Option.some.inj h
          subst hsame
          exact ⟨rfl, rfl, rfl⟩

/-- A commit's beat is applied for the seat itself, before the fight is over. -/
theorem eq_of_commitAction_applyBeat {actor actor' : EncounterActor} {commit' : WnSealedCommit}
    (h : s.commitAction actor commit = .applyBeat commit' actor') :
    actor' = actor ∧ s.encounter.resolved = false := by
  unfold GameSnapshot.commitAction at h
  split at h
  · simp at h
  · split_ifs at h with hresolved
    exact ⟨(SlotAction.applyBeat.inj h).2.symm, Bool.eq_false_iff.mpr hresolved⟩

theorem acts_commitAction {actor : EncounterActor} (h : s.encounter.resolved = true) :
    (s.commitAction actor commit).acts = false := by
  unfold GameSnapshot.commitAction
  split
  · rfl
  · rw [if_pos h]
    rfl

/-- **The guards of a slot.** -/
theorem acts_eq_false_of_barred {token : String} (commits : String → Option WnSealedCommit)
    (h : s.barred token) : (s.slotAction commits token).acts = false := by
  unfold GameSnapshot.slotAction
  unfold GameSnapshot.barred at h
  cases hactor : s.encounter.findActor token with
  | none => rfl
  | some actor =>
    rw [hactor] at h
    dsimp only
    by_cases hdown : s.isDown token = true
    · rw [if_pos hdown]
      rfl
    · rw [if_neg hdown]
      by_cases hwithdrawn : actor.withdrawn = true
      · rw [if_pos hwithdrawn]
        rfl
      · rw [if_neg hwithdrawn]
        have hresolved : s.encounter.resolved = true := by simpa [hdown, hwithdrawn] using h
        unfold GameSnapshot.standingAction
        split
        · rw [if_pos hresolved]
          rfl
        · rfl
        · split
          · rfl
          · exact acts_commitAction hresolved

theorem idle_skipDowned (s : GameSnapshot) (token : String) (actor : EncounterActor)
    (commit : Option WnSealedCommit) : Idle s (s.skipDowned token actor commit) := by
  unfold GameSnapshot.skipDowned
  split
  · split_ifs
    · exact ⟨rfl, _, rfl, by simp [Event.skips]⟩
    · exact ⟨rfl, _, rfl, by simp [Event.skips]⟩
  · exact ⟨rfl, _, rfl, by simp [Event.skips]⟩

/-- **A slot in which nobody acts** returns, and leaves nothing behind but a hint and an event. -/
theorem idle_perform (rules : Rules) (commits : String → Option WnSealedCommit) (token : String)
    {action : SlotAction} (h : action.acts = false) (s : GameSnapshot) :
    ∃ s', (perform rules commits token action).exec s = (.ok ⟨⟩, s') ∧ Idle s s' := by
  cases action with
  | opponentAttack target => simp [SlotAction.acts] at h
  | useItem commit => simp [SlotAction.acts] at h
  | nonoffensive commit => simp [SlotAction.acts] at h
  | applyBeat commit actor => simp [SlotAction.acts] at h
  | actorDowned actor => exact ⟨_, rfl, idle_skipDowned s token actor (commits token)⟩
  | deadPremise commit target => exact ⟨_, rfl, rfl, _, rfl, by simp [Event.skips]⟩
  | fightOver commit => exact ⟨_, rfl, rfl, _, rfl, by simp [Event.skips]⟩
  | tokenNotSeated => exact ⟨s, rfl, .refl s⟩
  | withdrawn => exact ⟨s, rfl, .refl s⟩
  | opponentAfterEnd => exact ⟨s, rfl, .refl s⟩
  | noLivePlayerTarget => exact ⟨s, rfl, .refl s⟩
  | neutral => exact ⟨s, rfl, .refl s⟩
  | noSealedCommit => exact ⟨s, rfl, .refl s⟩

theorem exec_takeSlot (rules : Rules) (commits : String → Option WnSealedCommit)
    (entry : InitiativeEntry) (s : GameSnapshot) :
    (takeSlot rules commits entry).exec s =
      (perform rules commits entry.tokenId (s.slotAction commits entry.tokenId)).exec s := rfl

/-- Once the fight is over or the runner is down, and by an opponent who is down or withdrawn, no
    free attack is made. -/
theorem exec_opportunityAttack_of_barred {fleer : String} {opponent : EncounterActor}
    (rules : Rules) (commit : WnSealedCommit)
    (h : s.encounter.resolved = true ∨ s.isDown fleer = true ∨ opponent.withdrawn = true ∨
      s.isDown opponent.name = true) :
    (opportunityAttack rules fleer commit opponent).exec s = (.ok ⟨⟩, s) := by
  show ((if _ then _ else _ : CombatM PUnit)).exec s = _
  by_cases hover : (s.encounter.resolved || s.isDown fleer) = true
  · rw [if_pos hover]
    rfl
  · rw [if_neg hover]
    have hopponent : opponent.withdrawn = true ∨ s.isDown opponent.name = true := by
      simp only [Bool.or_eq_true, not_or] at hover
      rcases h with h | h | h
      · exact absurd h hover.1
      · exact absurd h hover.2
      · exact h
    rw [if_pos (by rcases hopponent with h | h <;> simp [h])]
    rfl

/-! ### Accounts of commits -/

/-- How many events say that a commit of the actor was carried out. -/
def GameSnapshot.resolutions (s : GameSnapshot) (name : String) : Nat :=
  s.events.countP (Event.resolves name)

/-- The event says of no commit that it was carried out. -/
def Event.Quiet (event : Event) : Prop := ∀ name, event.resolves name = false

theorem Event.quiet_of_clerical {event : Event} (h : event.clerical = true) : event.Quiet := by
  intro name
  cases event <;> first | rfl | simp [Event.clerical] at h

variable {s' : GameSnapshot}

theorem Within.resolutions (h : Within Event.Quiet s s') (name : String) :
    s'.resolutions name = s.resolutions name := by
  obtain ⟨new, hnew, hquiet⟩ := h.events
  have hnone : new.countP (Event.resolves name) = 0 :=
    List.countP_eq_zero.mpr (fun event hevent => by simp [hquiet event hevent name])
  unfold GameSnapshot.resolutions
  rw [hnew, List.countP_append, hnone, Nat.add_zero]

/-- A slot in which a player's commit is carried out. -/
def SlotAction.carriesOut : SlotAction → Bool
  | .useItem _ => true
  | .nonoffensive _ => true
  | .applyBeat _ _ => true
  | _ => false

/-- A slot in which the narrator is told that a commit did not resolve. -/
def SlotAction.reports (commits : String → Option WnSealedCommit) (token : String) :
    SlotAction → Bool
  | .actorDowned actor => (commits token).isSome && actor.side = .player
  | .deadPremise _ _ => true
  | .fightOver _ => true
  | _ => false

/-- The two accounts of an actor's commits. -/
def GameSnapshot.accounts (s : GameSnapshot) (name : String) : Nat × Nat :=
  (s.resolutions name, s.encounter.unresolvedHints name)

theorem Within.accounts (h : Within Event.Quiet s s') (name : String) :
    s'.accounts name = s.accounts name :=
  Prod.ext (h.resolutions name) (h.board.unresolvedHints name)

/-- One more commit of the token was carried out. -/
def CarriedOut (token : String) (s s' : GameSnapshot) : Prop :=
  ∀ name, s'.accounts name = ((s.accounts name).1 + (if token = name then 1 else 0),
    (s.accounts name).2)

theorem CarriedOut.of_within {token : String} {t t' : GameSnapshot}
    (hbefore : Within Event.Quiet s t) (h : CarriedOut token t t')
    (hafter : Within Event.Quiet t' s') : CarriedOut token s s' := by
  intro name
  rw [hafter.accounts, h, hbefore.accounts]

theorem carriedOut_publish {token : String} (s : GameSnapshot) {event : Event}
    (h : ∀ name, event.resolves name = decide (token = name)) :
    CarriedOut token s (s.publish event) := by
  intro name
  simp only [GameSnapshot.accounts, GameSnapshot.resolutions, GameSnapshot.publish,
    List.countP_append, List.countP_singleton, h, decide_eq_true_eq]

variable (rules : Rules) (token : String)

variable (target : CoreRef)

omit rules token in
theorem quiet_hpPatched (delta current maximum : Int) (source : String) :
    (Event.hpPatched target delta current maximum source).Quiet := fun _ => rfl

omit rules token in
theorem quiet_statusAdded (status : String) :
    (Event.statusAdded target status).Quiet := fun _ => rfl

omit rules token in
theorem quiet_mortalInjuryDeclared (superseded : Bool) :
    (Event.mortalInjuryDeclared target superseded).Quiet := fun _ => rfl

/-- The effects of a beat come before the event that says it was applied, and what follows that
    event is the narrator's. -/
theorem carriedOut_resolveCommittedBeat (actor : EncounterActor) (commit : WnSealedCommit)
    {u : PUnit} (hexec : (resolveCommittedBeat rules token actor commit).exec s = (.ok u, s')) :
    CarriedOut token s s' := by
  unfold resolveCommittedBeat at hexec
  split at hexec
  · simp at hexec
  · obtain ⟨application, t, happly, hrest⟩ := exists_of_exec_bind hexec
    obtain ⟨removed, t', hcarry, hpublish⟩ := exists_of_exec_bind happly
    have hbefore : Within Event.Quiet s t' :=
      (within_carryOutBeat (fun _ => Event.quiet_of_clerical) quiet_mortalInjuryDeclared
        quiet_hpPatched rules token actor _).of_exec hcarry
    have happlied : t = t'.publish _ := (congrArg Prod.snd hpublish).symm
    have hafter : Within Event.Quiet t s' :=
      ((within_tellRefusal token _).bind (fun _ =>
        within_emitPlayerBeatResolutionClose (fun _ => Event.quiet_of_clerical) _ _)).of_exec hrest
    subst happlied
    exact .of_within hbefore (carriedOut_publish t' (fun _ => rfl)) hafter

omit rules in
/-- The item leaves the inventory, the event is published, and the narrator is told. -/
theorem carriedOut_consumeItem (s : GameSnapshot) (target : CoreRef) (index : Nat) (item : Item)
    (healed : Int) : CarriedOut token s (s.consumeItem token target index item healed) := by
  have hcarried : CarriedOut token s ((s.modifyCore target
      (fun core => { core with items := core.items.eraseIdx index })).publish
      (.itemUsed token item.name healed)) :=
    carriedOut_publish (s.modifyCore target _) (fun _ => rfl)
  exact .of_within (Within.refl s) hcarried (within_hint _ (fun _ => rfl))

omit rules token in
/-- A drink accounts for no commit before the item is consumed. -/
theorem accounts_of_drunk {target : CoreRef} (h : Drunk target s s') (name : String) :
    s'.accounts name = s.accounts name := by
  obtain ⟨new, hnew, hpatches⟩ := h.events
  have hnone : new.countP (Event.resolves name) = 0 := by
    refine List.countP_eq_zero.mpr (fun event hevent => ?_)
    obtain ⟨_, _, _, _, rfl⟩ := hpatches event hevent
    simp [Event.resolves]
  unfold GameSnapshot.accounts GameSnapshot.resolutions
  rw [hnew, List.countP_append, hnone, h.encounter, Nat.add_zero]

omit rules in
theorem carriedOut_resolveCommittedItem (commit : WnSealedCommit) {u : PUnit}
    (hexec : (resolveCommittedItem token commit).exec s = (.ok u, s')) : CarriedOut token s s' := by
  unfold resolveCommittedItem at hexec
  rw [exec_get_bind] at hexec
  obtain ⟨⟨target, index⟩, t, hitem, huse⟩ := exists_of_exec_bind hexec
  have hfound : Within Event.Quiet s t := (preserves_ofExcept _).of_exec hitem
  change (applyItemUse token target index).exec t = _ at huse
  unfold applyItemUse at huse
  rw [exec_get_bind] at huse
  obtain ⟨healed, t', hheal, hconsume⟩ := exists_of_exec_bind huse
  obtain rfl := eq_of_exec_modify hconsume
  intro name
  rw [carriedOut_consumeItem token t' target index _ healed name,
    accounts_of_drunk ((drunk_applyConsumableHeal target _).of_exec hheal), hfound.accounts]

theorem carriedOut_resolveNonoffensive (commit : WnSealedCommit) {u : PUnit}
    (hexec : (resolveNonoffensive rules token commit).exec s = (.ok u, s')) :
    CarriedOut token s s' := by
  obtain ⟨_, t, hattacks, hexec⟩ := exists_of_exec_bind hexec
  have hbefore : Within Event.Quiet s t :=
    (within_opportunityAttacks (fun _ => Event.quiet_of_clerical) quiet_mortalInjuryDeclared
      quiet_hpPatched quiet_statusAdded rules token commit).of_exec hattacks
  obtain ⟨_, t₁, hwithdraw, hexec⟩ := exists_of_exec_bind hexec
  have hwithdrawn := eq_of_exec_modify hwithdraw
  have hsame : ∀ name, t₁.accounts name = t.accounts name := by
    intro name
    rw [hwithdrawn]
    split_ifs <;> rfl
  have htold := eq_of_exec_modify hexec
  have hhint : Within Event.Quiet t₁ (t₁.hint (.nonoffensive token commit.beatId)) :=
    within_hint t₁ (fun _ => rfl)
  intro name
  rw [htold, carriedOut_publish _ (fun _ => rfl) name, hhint.accounts, hsame, hbefore.accounts]

theorem accounts_skipDowned (s : GameSnapshot) (actor : EncounterActor)
    (commit : Option WnSealedCommit) (name : String) :
    (s.skipDowned token actor commit).accounts name = ((s.accounts name).1, (s.accounts name).2 +
      if (commit.isSome && actor.side = .player) = true ∧ token = name then 1 else 0) := by
  unfold GameSnapshot.skipDowned
  cases commit with
  | none =>
    simp [GameSnapshot.accounts, GameSnapshot.resolutions, GameSnapshot.publish,
      List.countP_append, Event.resolves]
  | some commit =>
    by_cases hplayer : actor.side = .player
    · simp [hplayer, GameSnapshot.accounts, GameSnapshot.resolutions, GameSnapshot.publish,
        GameSnapshot.hint, GameSnapshot.modifyEncounter, StructuredEncounter.unresolvedHints,
        List.countP_append, List.countP_singleton, Event.resolves, Hint.unresolved]
    · simp [hplayer, GameSnapshot.accounts, GameSnapshot.resolutions, GameSnapshot.publish,
        List.countP_append, Event.resolves]

/-- **What a slot accounts for.** A slot that returns says at most once that its actor's commit was
    carried out, or that it did not resolve, and speaks of no other commit. -/
theorem accounts_perform (commits : String → Option WnSealedCommit) (action : SlotAction)
    {u : PUnit} (hexec : (perform rules commits token action).exec s = (.ok u, s')) (name : String) :
    s'.accounts name =
      ((s.accounts name).1 + (if action.carriesOut = true ∧ token = name then 1 else 0),
        (s.accounts name).2 +
          if action.reports commits token = true ∧ token = name then 1 else 0) := by
  have hsame : (pure ⟨⟩ : CombatM PUnit).exec s = (.ok u, s') → s' = s :=
    fun h => (congrArg Prod.snd h).symm
  cases action with
  | opponentAttack target =>
    have hwithin : Within Event.Quiet s s' :=
      (within_resolveOpponentReprisal (fun _ => Event.quiet_of_clerical)
        quiet_mortalInjuryDeclared quiet_hpPatched quiet_statusAdded rules _ _ _ _).of_exec hexec
    simp [hwithin.accounts, SlotAction.carriesOut, SlotAction.reports]
  | useItem commit =>
    rw [carriedOut_resolveCommittedItem token commit hexec name]
    simp [SlotAction.carriesOut, SlotAction.reports]
  | nonoffensive commit =>
    rw [carriedOut_resolveNonoffensive rules token commit hexec name]
    simp [SlotAction.carriesOut, SlotAction.reports]
  | applyBeat commit actor =>
    rw [carriedOut_resolveCommittedBeat rules token actor commit hexec name]
    simp [SlotAction.carriesOut, SlotAction.reports]
  | actorDowned actor =>
    rw [eq_of_exec_modify hexec, accounts_skipDowned]
    simp [SlotAction.carriesOut, SlotAction.reports]
  | deadPremise commit target =>
    rw [eq_of_exec_modify hexec]
    simp [SlotAction.carriesOut, SlotAction.reports, GameSnapshot.accounts,
      GameSnapshot.resolutions, GameSnapshot.publish, GameSnapshot.hint,
      GameSnapshot.modifyEncounter, StructuredEncounter.unresolvedHints, List.countP_append,
      List.countP_singleton, Event.resolves, Hint.unresolved]
  | fightOver commit =>
    rw [eq_of_exec_modify hexec]
    simp [SlotAction.carriesOut, SlotAction.reports, GameSnapshot.accounts,
      GameSnapshot.resolutions, GameSnapshot.publish, GameSnapshot.hint,
      GameSnapshot.modifyEncounter, StructuredEncounter.unresolvedHints, List.countP_append,
      List.countP_singleton, Event.resolves, Hint.unresolved]
  | tokenNotSeated => simp [hsame hexec, SlotAction.carriesOut, SlotAction.reports]
  | withdrawn => simp [hsame hexec, SlotAction.carriesOut, SlotAction.reports]
  | opponentAfterEnd => simp [hsame hexec, SlotAction.carriesOut, SlotAction.reports]
  | noLivePlayerTarget => simp [hsame hexec, SlotAction.carriesOut, SlotAction.reports]
  | neutral => simp [hsame hexec, SlotAction.carriesOut, SlotAction.reports]
  | noSealedCommit => simp [hsame hexec, SlotAction.carriesOut, SlotAction.reports]

/-! ### Slots that raise -/

variable {e : DispatchError}

theorem quiet_of_error_resolveCommittedBeat (actor : EncounterActor) (commit : WnSealedCommit)
    (hexec : (resolveCommittedBeat rules token actor commit).exec s = (.error e, s')) :
    Within Event.Quiet s s' := by
  unfold resolveCommittedBeat at hexec
  split at hexec
  · obtain rfl : s = s' := congrArg Prod.snd hexec
    exact .refl s
  · rcases exec_bind_error hexec with happly | ⟨application, t, happly, hrest⟩
    · rcases exec_bind_error happly with hcarry | ⟨⟨_, _, _⟩, t', -, hpublish⟩
      · exact (within_carryOutBeat (fun _ => Event.quiet_of_clerical) quiet_mortalInjuryDeclared
          quiet_hpPatched rules token actor _).of_exec hcarry
      · cases show Except.ok _ = Except.error e from congrArg Prod.fst hpublish
    · -- once the beat was applied, only the narrator is told
      rcases exec_bind_error hrest with htell | ⟨_, t', -, hclose⟩
      · unfold tellRefusal at htell
        split at htell
        · simp at htell
        · simp at htell
      · unfold emitPlayerBeatResolutionClose onlyIf at hclose
        split_ifs at hclose
        · simp at hclose
        · simp at hclose

omit rules in
theorem accounts_of_error_resolveCommittedItem (commit : WnSealedCommit)
    (hexec : (resolveCommittedItem token commit).exec s = (.error e, s')) (name : String) :
    s'.accounts name = s.accounts name := by
  unfold resolveCommittedItem at hexec
  rw [exec_get_bind] at hexec
  rcases exec_bind_error hexec with hitem | ⟨⟨target, index⟩, t, hitem, huse⟩
  · have hfound : Within Event.Quiet s s' := (preserves_ofExcept _).of_exec hitem
    exact hfound.accounts name
  · have hfound : Within Event.Quiet s t := (preserves_ofExcept _).of_exec hitem
    change (applyItemUse token target index).exec t = _ at huse
    unfold applyItemUse at huse
    rw [exec_get_bind] at huse
    rcases exec_bind_error huse with hheal | ⟨healed, t', -, hconsume⟩
    · rw [accounts_of_drunk ((drunk_applyConsumableHeal target _).of_exec hheal), hfound.accounts]
    · simp at hconsume

theorem quiet_of_error_resolveNonoffensive (commit : WnSealedCommit)
    (hexec : (resolveNonoffensive rules token commit).exec s = (.error e, s')) :
    Within Event.Quiet s s' := by
  rcases exec_bind_error hexec with hattacks | ⟨_, t, -, hrest⟩
  · exact (within_opportunityAttacks (fun _ => Event.quiet_of_clerical) quiet_mortalInjuryDeclared
      quiet_hpPatched quiet_statusAdded rules token commit).of_exec hattacks
  · exact absurd (congrArg Prod.fst hrest) (by simp [exec_modify_bind])

/-- **A slot that raises** has said of no commit that it was carried out, nor that it was not. -/
theorem accounts_of_error_perform (commits : String → Option WnSealedCommit) {action : SlotAction}
    (hexec : (perform rules commits token action).exec s = (.error e, s')) (name : String) :
    s'.accounts name = s.accounts name := by
  by_cases hacts : action.acts = true
  · cases action with
    | opponentAttack target =>
      have hattack : Within Event.Quiet s s' :=
        (within_resolveOpponentReprisal (fun _ => Event.quiet_of_clerical)
          quiet_mortalInjuryDeclared quiet_hpPatched quiet_statusAdded rules _ _ _ _).of_exec hexec
      exact hattack.accounts name
    | useItem commit => exact accounts_of_error_resolveCommittedItem token commit hexec name
    | nonoffensive commit =>
      exact (quiet_of_error_resolveNonoffensive rules token commit hexec).accounts name
    | applyBeat commit actor =>
      exact (quiet_of_error_resolveCommittedBeat rules token actor commit hexec).accounts name
    | _ => simp [SlotAction.acts] at hacts
  · -- a slot in which nobody acts returns
    obtain ⟨t, hok, -⟩ := idle_perform rules commits token (Bool.eq_false_iff.mpr hacts) s
    rw [hok] at hexec
    simp at hexec

/-! ### The round -/

/-- The slots a round comes to, each with the state it finds. -/
def GameSnapshot.slots (s : GameSnapshot) (rules : Rules) : List (InitiativeEntry × GameSnapshot) :=
  visits (takeSlot rules s.commitOf) s.roundOrder s.announceRound

/-- The slot carries out a commit of the actor. -/
def carriesOutFor (commits : String → Option WnSealedCommit) (name : String)
    (slot : InitiativeEntry × GameSnapshot) : Bool :=
  (slot.2.slotAction commits slot.1.tokenId).carriesOut && slot.1.tokenId = name

variable {token}

/-- What one slot adds to the number of commits carried out, whether it returns or raises. -/
theorem resolutions_takeSlot_le (commits : String → Option WnSealedCommit) (name : String)
    (entry : InitiativeEntry) (s : GameSnapshot) :
    ((takeSlot rules commits entry).exec s).2.resolutions name ≤
      s.resolutions name + if entry.tokenId = name then 1 else 0 := by
  rw [exec_takeSlot]
  rcases hexec : (perform rules commits entry.tokenId (s.slotAction commits entry.tokenId)).exec s
    with ⟨e | u, s'⟩
  · have hsame := congrArg Prod.fst (accounts_of_error_perform rules entry.tokenId commits hexec name)
    change s'.resolutions name = s.resolutions name at hsame
    show s'.resolutions name ≤ _
    omega
  · have haccounts := congrArg Prod.fst
      (accounts_perform rules entry.tokenId commits _ hexec name)
    change s'.resolutions name = s.resolutions name + _ at haccounts
    show s'.resolutions name ≤ _
    rw [haccounts]
    split_ifs <;> simp_all

/-- **A commit is carried out at most as often as its actor has slots.** -/
theorem resolutions_walk_le (commits : String → Option WnSealedCommit) (name : String)
    (order : List InitiativeEntry) (s : GameSnapshot) :
    ((walk rules commits order).exec s).2.resolutions name ≤
      s.resolutions name + (order.map InitiativeEntry.tokenId).count name := by
  have hround := exec_forM_visits
    (I := fun done t => t.resolutions name ≤
      s.resolutions name + (done.map (·.1.tokenId)).count name)
    (f := takeSlot rules commits)
    (fun done entry t hdone => by
      have hslot := resolutions_takeSlot_le rules commits name entry t
      rw [List.map_append, List.count_append, List.map_singleton, List.count_singleton]
      simp only [beq_iff_eq]
      omega)
    order [] (s := s) (by simp)
  have hreached : ((visits (takeSlot rules commits) order s).map
      (·.1.tokenId)).count name ≤
      (order.map InitiativeEntry.tokenId).count name := by
    have hsub := (reached_sublist (takeSlot rules commits) order s).map InitiativeEntry.tokenId
    rw [← map_fst_visits, List.map_map] at hsub
    exact hsub.count_le name
  rw [List.nil_append] at hround
  exact hround.trans (by omega)

/-! ### Safety -/

/-- A round that returned has walked all of its slots, and emptied the ledger. -/
theorem walk_of_exec_runWnRound {order : List String}
    (hexec : (runWnRound rules).exec s = (.ok order, s')) :
    ∃ t, (walk rules s.commitOf s.roundOrder).exec s.announceRound = (.ok ⟨⟩, t) ∧
      s' = t.clearCommits.publish (.roundResolved (s.roundOrder.map InitiativeEntry.tokenId)) := by
  unfold runWnRound at hexec
  rw [exec_get_bind, exec_set_bind] at hexec
  obtain ⟨_, t, hwalk, hrest⟩ := exists_of_exec_bind hexec
  exact ⟨t, hwalk, (congrArg Prod.snd hrest).symm⟩

/-- A round that raises leaves everything as the walk left it. -/
theorem walk_of_exec_runWnRound_error (hexec : (runWnRound rules).exec s = (.error e, s')) :
    (walk rules s.commitOf s.roundOrder).exec s.announceRound = (.error e, s') := by
  unfold runWnRound at hexec
  rw [exec_get_bind, exec_set_bind] at hexec
  rcases exec_bind_error hexec with hwalk | ⟨_, t, -, hrest⟩
  · exact hwalk
  · rw [exec_modify_bind, exec_modify_bind] at hrest
    simp at hrest

/-- The closing of a round says of no commit that it was carried out. -/
theorem resolutions_runWnRound (s : GameSnapshot) (name : String) :
    ((runWnRound rules).exec s).2.resolutions name =
      ((walk rules s.commitOf s.roundOrder).exec s.announceRound).2.resolutions name := by
  rcases hexec : (runWnRound rules).exec s with ⟨e | order, s'⟩
  · rw [walk_of_exec_runWnRound_error rules hexec]
  · obtain ⟨t, hwalk, rfl⟩ := walk_of_exec_runWnRound rules hexec
    rw [hwalk]
    simp [GameSnapshot.resolutions, GameSnapshot.publish, GameSnapshot.clearCommits,
      GameSnapshot.modifyEncounter, List.countP_append, Event.resolves]

theorem resolutions_announceRound (s : GameSnapshot) (name : String) :
    s.announceRound.resolutions name = s.resolutions name := by
  simp [GameSnapshot.announceRound, GameSnapshot.resolutions, GameSnapshot.publish,
    List.countP_append, Event.resolves]

theorem count_roundOrder_le (hnodup : (s.encounter.initiative.map InitiativeEntry.tokenId).Nodup)
    (name : String) : (s.roundOrder.map InitiativeEntry.tokenId).count name ≤ 1 := by
  have hperm := (List.perm_insertionSort (fun a b : InitiativeEntry => b.value ≤ a.value)
    s.encounter.initiative).map InitiativeEntry.tokenId
  exact List.nodup_iff_count_le_one.mp (hperm.nodup_iff.mpr hnodup) name

/-- **The safety of a sealed round.** A slot of an actor that is out, or after the end, leaves a
    hint and an event only; a commit is carried out at most once; a round that returns empties the
    ledger. -/
theorem safe_of_round (s : GameSnapshot)
    (hnodup : (s.encounter.initiative.map InitiativeEntry.tokenId).Nodup) :
    (∀ slot ∈ s.slots rules, slot.2.barred slot.1.tokenId →
      ∃ t, (takeSlot rules s.commitOf slot.1).exec slot.2 = (.ok ⟨⟩, t) ∧ Idle slot.2 t) ∧
    (∀ (t : GameSnapshot) (fleer : String) (commit : WnSealedCommit) (opponent : EncounterActor),
      t.encounter.resolved = true ∨ t.isDown fleer = true ∨ opponent.withdrawn = true ∨
        t.isDown opponent.name = true →
      (opportunityAttack rules fleer commit opponent).exec t = (.ok ⟨⟩, t)) ∧
    (∀ name, (s.slots rules).countP (carriesOutFor s.commitOf name) ≤ 1 ∧
      ((runWnRound rules).exec s).2.resolutions name ≤ s.resolutions name + 1) ∧
    ∀ order s', (runWnRound rules).exec s = (.ok order, s') → s'.encounter.wnCommits = [] := by
  refine ⟨fun slot _ hbarred => ?_, fun t fleer commit opponent h => ?_, fun name => ⟨?_, ?_⟩,
    fun order s' hexec => ?_⟩
  · rw [exec_takeSlot]
    exact idle_perform rules s.commitOf slot.1.tokenId
      (acts_eq_false_of_barred s.commitOf hbarred) slot.2
  · exact exec_opportunityAttack_of_barred rules commit h
  · -- a slot that carries out a commit of the actor is one of the actor's slots
    have hslots : (s.slots rules).countP (carriesOutFor s.commitOf name) ≤
        (s.slots rules).countP (·.1.tokenId = name) :=
      List.countP_mono_left (fun slot _ h => by
        simp only [carriesOutFor, Bool.and_eq_true] at h
        exact h.2)
    have hreached : ((s.slots rules).map (·.1.tokenId)).count name ≤
        (s.roundOrder.map InitiativeEntry.tokenId).count name := by
      have hsub := (reached_sublist (takeSlot rules s.commitOf) s.roundOrder
        s.announceRound).map InitiativeEntry.tokenId
      rw [← map_fst_visits, List.map_map] at hsub
      exact hsub.count_le name
    rw [List.count, List.countP_map] at hreached
    have hone := count_roundOrder_le hnodup name
    exact hslots.trans (hreached.trans hone)
  · have hwalk := resolutions_walk_le rules s.commitOf name s.roundOrder s.announceRound
    have hone := count_roundOrder_le hnodup name
    rw [resolutions_runWnRound]
    rw [resolutions_announceRound] at hwalk
    omega
  · obtain ⟨t, -, rfl⟩ := walk_of_exec_runWnRound rules hexec
    rfl

/-- A duel's rules: the opponents have ability scores, so that they can attack and save. -/
def duelRules : Rules where
  slug := .wwn
  attributeMap := [("STRENGTH", "STR"), ("CONSTITUTION", "CON")]
  opponentAbilityScores := some [("STR", 10), ("CON", 10)]

/-- Two PCs have sealed an attack on the first of two opponents, who falls to the first blow. -/
def skirmish : GameSnapshot where
  cast :=
    { characters := ["Rux", "Vex"]
      npcs := [{ name := "Ghoul" }, { name := "Wight" }]
      normalizeName := id }
  cores := fun _ => { hp := ⟨2, 2⟩ }
  encounter :=
    { actors := [⟨"Rux", .player, false⟩, ⟨"Vex", .player, false⟩, ⟨"Ghoul", .opponent, false⟩,
        ⟨"Wight", .opponent, false⟩]
      initiative := [⟨"Ghoul", 3⟩, ⟨"Rux", 7⟩, ⟨"Wight", 2⟩, ⟨"Vex", 5⟩]
      wnCommits := [⟨"Rux", "attack", .success, some "Ghoul", none, none⟩,
        ⟨"Vex", "attack", .success, some "Ghoul", none, none⟩] }
  rng := fun _ => 0

/-- The skirmish before anybody has sealed an action, both PCs at the table. -/
def openSkirmish : GameSnapshot :=
  { skirmish with
    encounter := { skirmish.encounter with wnCommits := [] }
    playerSeats := ["Rux", "Vex"] }

theorem safe_of_skirmish :
    ((runWnRound duelRules).exec skirmish).2.resolutions "Rux" ≤ skirmish.resolutions "Rux" + 1 ∧
      ((runWnRound duelRules).exec skirmish).2.encounter.wnCommits = [] :=
  ⟨((safe_of_round duelRules skirmish (by decide)).2.2.1 "Rux").2,
    (safe_of_round duelRules skirmish (by decide)).2.2.2 ["Rux", "Vex", "Ghoul", "Wight"] _ rfl⟩

end

/-- How often it was said of a commit of the actor that it was carried out, or the narrator was told
    that it did not resolve. -/
def GameSnapshot.told (s : GameSnapshot) (name : String) : Nat :=
  s.resolutions name + s.encounter.unresolvedHints name

/-- Between the two snapshots that was said exactly once. -/
def Accounted (s s' : GameSnapshot) (name : String) : Prop := s'.told name = s.told name + 1

instance (s s' : GameSnapshot) (name : String) : Decidable (Accounted s s' name) :=
  inferInstanceAs (Decidable (s'.told name = s.told name + 1))

/-- The slot is the actor's, and finds it on the player side, at 0 HP or not withdrawn. -/
def answers (name : String) (slot : InitiativeEntry × GameSnapshot) : Bool :=
  slot.1.tokenId = name && (slot.2.encounter.findActor name).any
    (fun actor => actor.side = .player && (slot.2.isDown name || !actor.withdrawn))

variable {commits : String → Option WnSealedCommit} {s s' : GameSnapshot} {name : String}

/-- A commit whose slot finds its actor standing is carried out or reported, and not both. -/
theorem carriesOut_commitAction (commits : String → Option WnSealedCommit) (actor : EncounterActor)
    (commit : WnSealedCommit) (token : String) : (s.commitAction actor commit).carriesOut =
      !(s.commitAction actor commit).reports commits token := by
  unfold GameSnapshot.commitAction
  split
  · rfl
  · split_ifs <;> rfl

theorem silent_standingAction (commits : String → Option WnSealedCommit) {actor : EncounterActor}
    (token : String) (hside : actor.side ≠ .player) :
    (s.standingAction commits actor token).carriesOut = false ∧
      (s.standingAction commits actor token).reports commits token = false := by
  unfold GameSnapshot.standingAction
  cases hactor : actor.side with
  | player => exact absurd hactor hside
  | neutral => exact ⟨rfl, rfl⟩
  | opponent =>
    dsimp only
    split_ifs
    · exact ⟨rfl, rfl⟩
    · split
      · exact ⟨rfl, rfl⟩
      · exact ⟨rfl, rfl⟩

variable {commit : WnSealedCommit}

/-- **What a slot says of a commit of its token**: it is carried out or reported, and not both,
    exactly if the slot answers for it. -/
theorem answers_slotAction (entry : InitiativeEntry) (hcommit : commits entry.tokenId = some commit) :
    (s.slotAction commits entry.tokenId).carriesOut.toNat +
        ((s.slotAction commits entry.tokenId).reports commits entry.tokenId).toNat =
      (answers entry.tokenId (entry, s)).toNat := by
  unfold GameSnapshot.slotAction answers
  cases hactor : s.encounter.findActor entry.tokenId with
  | none => simp [SlotAction.carriesOut, SlotAction.reports]
  | some actor =>
    dsimp only
    by_cases hdown : s.isDown entry.tokenId = true
    · simp [SlotAction.carriesOut, SlotAction.reports, hcommit, hdown]
    · rw [if_neg hdown]
      by_cases hwithdrawn : actor.withdrawn = true
      · simp [SlotAction.carriesOut, SlotAction.reports, hdown, hwithdrawn]
      · rw [if_neg hwithdrawn]
        by_cases hside : actor.side = .player
        · -- the slot of a standing player deals with the commit
          have haction : s.standingAction commits actor entry.tokenId =
              s.commitAction actor commit := by
            unfold GameSnapshot.standingAction
            rw [hside, hcommit]
          rw [haction, carriesOut_commitAction commits actor commit entry.tokenId]
          cases (s.commitAction actor commit).reports commits entry.tokenId with
          | true => simp [hside, hwithdrawn]
          | false => simp [hside, hwithdrawn]
        · obtain ⟨hcarries, hreports⟩ := silent_standingAction (s := s) commits entry.tokenId hside
          rw [hcarries, hreports]
          simp [hside]

theorem toNat_eq_ite (b : Bool) : b.toNat = if b = true then 1 else 0 := by
  cases b with
  | true => rfl
  | false => rfl

/-- **A slot** that returns adds one account if it answers, and else none. -/
theorem told_takeSlot {rules : Rules} (hcommit : commits name = some commit)
    {entry : InitiativeEntry} (hexec : (takeSlot rules commits entry).exec s = (.ok ⟨⟩, s')) :
    s'.told name = s.told name + (answers name (entry, s)).toNat := by
  rw [exec_takeSlot] at hexec
  have haccounts := accounts_perform rules entry.tokenId commits _ hexec name
  have hresolutions := congrArg Prod.fst haccounts
  have hhints := congrArg Prod.snd haccounts
  simp only [GameSnapshot.accounts] at hresolutions hhints
  unfold GameSnapshot.told
  rw [hresolutions, hhints]
  by_cases htoken : entry.tokenId = name
  · subst htoken
    have hanswers := answers_slotAction (s := s) entry hcommit
    simp only [toNat_eq_ite] at hanswers ⊢
    simp only [and_true]
    omega
  · have hnone : answers name (entry, s) = false := by simp [answers, htoken]
    simp [hnone, htoken]

/-- **A walk** that returns adds one account for each of its slots that answers. -/
theorem told_walk {rules : Rules} (hcommit : commits name = some commit)
    {entries : List InitiativeEntry} {u : PUnit}
    (hexec : (walk rules commits entries).exec s = (.ok u, s')) : s'.told name = s.told name +
      (visits (takeSlot rules commits) entries s).countP (answers name) := by
  have hbegins : s.told name = s.told name + ([] : List (InitiativeEntry × GameSnapshot)).countP
    (answers name) := rfl
  exact forM_visits_of_ok (I := fun done t => t.told name = s.told name + done.countP (answers name))
    (fun done entry t t' hdone hslot => by
      rw [told_takeSlot hcommit hslot, hdone, List.countP_append, List.countP_singleton,
        toNat_eq_ite, Nat.add_assoc])
    hexec hbegins

/-- **The accounts of a round.** A commit is accounted for exactly once, if and only if exactly one
    slot of the round answers for it. -/
theorem accounted_iff (rules : Rules) {s s' : GameSnapshot} {order : List String}
    (hexec : (runWnRound rules).exec s = (.ok order, s')) {commit : WnSealedCommit}
    (hcommit : commit ∈ s.encounter.wnCommits) :
    Accounted s s' commit.actor ↔ (s.slots rules).countP (answers commit.actor) = 1 := by
  obtain ⟨last, hlast⟩ : ∃ last, s.commitOf commit.actor = some last := exists_lastBy hcommit
  obtain ⟨t, hwalk, rfl⟩ := walk_of_exec_runWnRound rules hexec
  have htold := told_walk hlast hwalk
  -- neither the spans a round begins with nor its close are accounts
  have hbegins : s.announceRound.told commit.actor = s.told commit.actor := by
    unfold GameSnapshot.told
    rw [resolutions_announceRound]
    rfl
  have hcloses : (t.clearCommits.publish (.roundResolved
      (s.roundOrder.map InitiativeEntry.tokenId))).told commit.actor = t.told commit.actor := by
    simp [GameSnapshot.told, GameSnapshot.resolutions, GameSnapshot.publish,
      GameSnapshot.clearCommits, GameSnapshot.modifyEncounter, List.countP_append, Event.resolves,
      StructuredEncounter.unresolvedHints]
  unfold Accounted
  unfold GameSnapshot.slots
  omega

/-- The skirmish, the first PC having yielded after it sealed its attack. -/
def yieldedSkirmish : GameSnapshot :=
  { skirmish with
    encounter := { skirmish.encounter with
      actors := [⟨"Rux", .player, true⟩, ⟨"Vex", .player, false⟩, ⟨"Ghoul", .opponent, false⟩,
        ⟨"Wight", .opponent, false⟩] } }

/-- The commit of the second PC is accounted for. -/
theorem answers_of_yieldedSkirmish :
    (yieldedSkirmish.slots duelRules).countP (answers "Vex") = 1 :=
  have hexec : (runWnRound duelRules).exec yieldedSkirmish =
    (.ok ["Rux", "Vex", "Ghoul", "Wight"], _) := rfl
  (accounted_iff duelRules hexec
    (show ⟨"Vex", "attack", .success, some "Ghoul", none, none⟩ ∈ _ by decide)).mp (by decide)

/-- The commit of the first PC is dropped: nobody is told. -/
theorem not_accounted_of_yieldedSkirmish :
    ¬ ∀ (rules : Rules) (s s' : GameSnapshot) (order : List String),
      (runWnRound rules).exec s = (.ok order, s') →
        ∀ commit ∈ s.encounter.wnCommits, Accounted s s' commit.actor := by
  intro h
  have hdropped := h duelRules yieldedSkirmish _ ["Rux", "Vex", "Ghoul", "Wight"] rfl
  exact absurd hdropped (by decide)

end Sidequest.Combat
