import Sidequest.Fate.Defense
import Sidequest.Fate.Dispatch

namespace Sidequest.Fate

open Lib Effect
open GameSnapshot

/-!
# Who has withdrawn during an exchange

A seat can withdraw while the exchange is walked: its actor is taken out, or folds. What becomes of
it in the slots that are still to come.

* `Hit`, `hitOf` — the hit that an attack comes to, if it comes to one;
* `exchangeVisits` — the slots of an exchange, with the snapshots they find;
* `staysOut_iff_spares` — over every exchange; `not_staysOut_brawl` — taken out, and hit again.
-/

section

/-! ### Computations that hurt nobody -/

/-- Nobody's sheet is touched, and no commit. -/
structure Unhurt (s s' : GameSnapshot) : Prop where
  cast : s'.cast = s.cast
  sheets : s'.sheets = s.sheets
  fateCommits : s'.encounter.fateCommits = s.encounter.fateCommits

instance : IsPreorder GameSnapshot Unhurt where
  refl _ := ⟨rfl, rfl, rfl⟩
  trans _ _ _ h h' := ⟨h'.cast.trans h.cast, h'.sheets.trans h.sheets,
    h'.fateCommits.trans h.fateCommits⟩

theorem unhurt_logLine (line : FateExchangeLine) : Preserves Unhurt (logLine line) :=
  preserves_modify (fun _ => ⟨rfl, rfl, rfl⟩)

theorem unhurt_addSituationAspect (aspect : Aspect) :
    Preserves Unhurt (addSituationAspect aspect) :=
  preserves_modify (fun _ => ⟨rfl, rfl, rfl⟩)

theorem unhurt_takeOut (target : String) (line : FateExchangeLine) :
    Preserves Unhurt (takeOut target line) := by
  have hwithdraw : Preserves Unhurt
      (modifyEncounter (·.withdraw target)) :=
    preserves_modify (fun _ => ⟨rfl, rfl, rfl⟩)
  have hclear : Preserves Unhurt (modifyEncounter StructuredEncounter.maybeResolveSideCleared) := by
    exact preserves_modify (fun s => ⟨rfl, rfl, field_maybeResolveSideCleared
      StructuredEncounter.fateCommits (fun _ _ => rfl) s.encounter⟩)
  exact hwithdraw.bind (fun _ => (unhurt_logLine line).bind (fun _ => hclear))

theorem unhurt_rollDefense (defender : String) (mental : Bool) :
    Preserves Unhurt (rollDefense defender mental) := fun _ => ⟨rfl, rfl, rfl⟩

theorem unhurt_oppositionTotal (mental : Bool) (commit : FateSealedCommit) :
    Preserves Unhurt (oppositionTotal mental commit) := by
  unfold oppositionTotal
  cases commit.target with
  | none => exact preserves_pure _
  | some target => exact unhurt_rollDefense target mental

theorem unhurt_resolveCreateAdvantage (mental : Bool) (commit : FateSealedCommit) :
    Preserves Unhurt (resolveCreateAdvantage mental commit) := by
  refine (unhurt_oppositionTotal mental commit).bind (fun opposition => ?_)
  refine Preserves.ite ?_ (Preserves.ite ?_ ?_)
  · exact (unhurt_addSituationAspect _).bind (fun _ =>
      (unhurt_logLine _).bind (fun _ => preserves_pure _))
  · exact (unhurt_addSituationAspect _).bind (fun _ =>
      (unhurt_logLine _).bind (fun _ => preserves_pure _))
  · exact (unhurt_logLine _).bind (fun _ => preserves_pure _)

theorem unhurt_resolveOvercome (mental : Bool) (commit : FateSealedCommit) :
    Preserves Unhurt (resolveOvercome mental commit) := by
  refine (unhurt_oppositionTotal mental commit).bind (fun opposition => ?_)
  refine Preserves.ite ?_ (Preserves.ite ?_ ?_)
  all_goals exact (unhurt_logLine _).bind (fun _ => preserves_pure _)

/-! ### Hits -/

/-- A hit: on whose sheet, and of how many shifts. -/
structure Hit where
  target : String
  sheet : FateSheet
  shifts : Int

/-- How the target takes a hit: whether it survives, and its sheet then. -/
def Hit.absorb (hit : Hit) (mental : Bool) (source : String) : Except FateError Bool × FateSheet :=
  (absorbShifts (trackOf mental) hit.shifts hit.target source).exec hit.sheet

section Hits

variable (recorded : String → Option FatePendingDefense) (mental : Bool) (s : GameSnapshot)

/-- The number that an attack on the target is against, unless the target conceded or has not
    answered: what was recorded for it, or the server's next roll. -/
def defenseAgainst (target : String) : Option Int :=
  match recorded target with
  | some entry => if entry.conceded then none else entry.defenseTotal
  | none => some (buildOutcome (s.rolls 0) (s.rating target (defenseSkill mental)) ⟨0, .active⟩
      0).ladderTotal

/-- The target was to answer, and has not. -/
def unfilled (target : String) : Bool := (recorded target).any (fun entry => !entry.answered)

/-- The hit that a commit comes to, if it is an attack that comes to one. -/
def hitOf (commit : FateSealedCommit) : Option Hit :=
  match commit.action, commit.target with
  | .attack, some target =>
    match s.fateSheet target, defenseAgainst recorded mental s target with
    | some sheet, some total =>
      if 0 < commit.ladderTotal - total then some ⟨target, sheet, commit.ladderTotal - total⟩
      else none
    | _, _ => none
  | _, _ => none

/-- The sheets after a hit, if there is one. -/
def woundedBy (source : String) : Option Hit → GameSnapshot
  | some hit => s.putFateSheet hit.target (hit.absorb mental source).2
  | none => s

/-- The target cannot take the hit: absorbing it raises, or the hit takes out who has no seat. -/
def Hit.Stuck (source : String) (hit : Hit) : Prop :=
  match (hit.absorb mental source).1 with
  | .error _ => True
  | .ok survived => survived = false ∧ s.encounter.findActor hit.target = none

/-- The commit cannot be resolved: an attack without a target, or on one that has no sheet, has not
    answered, or cannot take the hit. -/
def Stuck (commit : FateSealedCommit) : Prop :=
  commit.action = .attack ∧ ∀ target, commit.target = some target →
    s.fateSheet target = none ∨ unfilled recorded target = true ∨
      ∃ hit, hitOf recorded mental s commit = some hit ∧ hit.Stuck mental s commit.actor

end Hits

/-! ### Resolving a commit -/

section Resolving

variable {recorded : String → Option FatePendingDefense} {mental : Bool} {s : GameSnapshot}
  {commit : FateSealedCommit} {target : String}

variable {sheet : FateSheet}

/-- **Harm** goes to the sheet of the target, and raises where the target cannot take it. -/
theorem dealHarm_wounds (hsheet : s.fateSheet target = some sheet) (skill : String)
    (defenseTotal shifts : Int) :
    let harm := (dealHarm commit target mental skill defenseTotal shifts).exec s
    Unhurt (woundedBy mental s commit.actor (some ⟨target, sheet, shifts⟩)) harm.2 ∧
      ((∃ e s', harm = (.error e, s')) ↔
        Hit.Stuck mental s commit.actor ⟨target, sheet, shifts⟩) := by
  have habsorb : (onSheet target (.targetWithoutSheet target)
      (absorbShifts (trackOf mental) shifts target commit.actor)).exec s =
      ((Hit.absorb ⟨target, sheet, shifts⟩ mental commit.actor).1,
        woundedBy mental s commit.actor (some ⟨target, sheet, shifts⟩)) := by
    rw [exec_onSheet_of_some hsheet]
    rfl
  have hencounter : (woundedBy mental s commit.actor
      (some ⟨target, sheet, shifts⟩)).encounter = s.encounter := encounter_putFateSheet s target _
  unfold dealHarm Hit.Stuck
  rw [exec_bind, habsorb]
  rcases (Hit.absorb ⟨target, sheet, shifts⟩ mental commit.actor).1 with e | survived
  · exact ⟨refl_of Unhurt _, iff_of_true ⟨e, _, rfl⟩ trivial⟩
  · dsimp only
    rw [exec_get_bind, hencounter]
    cases survived with
    | true =>
      refine ⟨((unhurt_logLine _).bind (fun _ => preserves_pure _)) _,
        iff_of_false ?_ (fun h => absurd h.1 (by decide))⟩
      exact ((safe_logLine _).bind (fun _ => safe_pure _)).not_raises (refl_of SameLedgers _)
    | false =>
      cases hseat : s.encounter.findActor target with
      | none => exact ⟨refl_of Unhurt _, iff_of_true ⟨_, _, rfl⟩ ⟨rfl, rfl⟩⟩
      | some seat =>
        refine ⟨((unhurt_takeOut target _).bind (fun _ => preserves_pure _)) _,
          iff_of_false ?_ (fun h => nomatch h.2)⟩
        exact ((safe_takeOut target _).bind (fun _ => safe_pure _)).not_raises (refl_of SameLedgers _)

/-- An attack against a total comes to a hit, or hurts nobody and does not raise. -/
theorem landAttack_wounds (hsheet : s.fateSheet target = some sheet) (skill : String) (total : Int) :
    let landed := (landAttack commit target mental skill total).exec s
    let hit := if 0 < commit.ladderTotal - total
      then some (Hit.mk target sheet (commit.ladderTotal - total)) else none
    Unhurt (woundedBy mental s commit.actor hit) landed.2 ∧
      ((∃ e s', landed = (.error e, s')) ↔ ∃ h, hit = some h ∧ h.Stuck mental s commit.actor) := by
  have hnone : ∀ {m : FateM (List String)}, Preserves Unhurt m → Safe (SameLedgers s) m →
      Unhurt (woundedBy mental s commit.actor none) (m.exec s).2 ∧
        ((∃ e s', m.exec s = (.error e, s')) ↔
          ∃ h, (none : Option Hit) = some h ∧ h.Stuck mental s commit.actor) := by
    intro m hkeeps hsafe
    refine ⟨hkeeps s, iff_of_false (hsafe.not_raises (refl_of SameLedgers s)) ?_⟩
    rintro ⟨h, hh, -⟩
    simp at hh
  unfold landAttack
  by_cases htie : commit.ladderTotal - total = 0
  · rw [if_pos htie, if_neg (by omega)]
    refine hnone ?_ ?_
    · exact (unhurt_addSituationAspect _).bind (fun _ =>
        (unhurt_logLine _).bind (fun _ => preserves_pure _))
    · exact (safe_addSituationAspect _).bind (fun _ =>
        (safe_logLine _).bind (fun _ => safe_pure _))
  rw [if_neg htie]
  by_cases hmiss : commit.ladderTotal - total < 0
  · rw [if_pos hmiss, if_neg (by omega)]
    refine hnone ?_ ?_
    · exact (unhurt_logLine _).bind (fun _ => preserves_pure _)
    · exact (safe_logLine _).bind (fun _ => safe_pure _)
  · rw [if_neg hmiss, if_pos (by omega)]
    obtain ⟨hwounds, hraises⟩ := @dealHarm_wounds mental s commit target sheet hsheet skill total
      (commit.ladderTotal - total)
    refine ⟨hwounds, hraises.trans ?_⟩
    simp

/-- Rolling dice, and whatever else hurts nobody, leaves the wounds of a hit what they are. -/
theorem Unhurt.woundedBy {s s' : GameSnapshot} (h : Unhurt s s') (mental : Bool) (source : String)
    (hit : Option Hit) : Unhurt (woundedBy mental s source hit) (Fate.woundedBy mental s' source hit) := by
  cases hit with
  | none => exact h
  | some hit =>
    show Unhurt (s.putFateSheet hit.target _) (s'.putFateSheet hit.target _)
    unfold GameSnapshot.putFateSheet
    rw [h.cast]
    cases s.cast.findCreatureCore hit.target with
    | none => exact h
    | some ref =>
      refine ⟨rfl, ?_, h.fateCommits⟩
      rw [h.sheets]

theorem hitOf_of_attack (haction : commit.action = .attack) (htarget : commit.target = some target)
    (hsheet : s.fateSheet target = some sheet) :
    hitOf recorded mental s commit = (defenseAgainst recorded mental s target).bind (fun total =>
      if 0 < commit.ladderTotal - total then some ⟨target, sheet, commit.ladderTotal - total⟩
      else none) := by
  unfold hitOf
  rw [haction, htarget]
  dsimp only
  rw [hsheet]
  cases defenseAgainst recorded mental s target <;> rfl

theorem stuck_iff_of_attack (haction : commit.action = .attack)
    (htarget : commit.target = some target) (hsheet : s.fateSheet target = some sheet) :
    Stuck recorded mental s commit ↔ unfilled recorded target = true ∨
      ∃ hit, hitOf recorded mental s commit = some hit ∧ hit.Stuck mental s commit.actor := by
  unfold Stuck
  rw [htarget]
  simp [haction, hsheet]

/-- An attack on a target with a sheet lands against its answer, or else against the dice of the
    server; it raises where the target has not answered, or cannot take the hit. -/
theorem resolveAttackOn_wounds (hsheet : s.fateSheet target = some sheet) :
    let attack := (resolveAttackOn (recorded target) mental commit target).exec s
    let hit := (defenseAgainst recorded mental s target).bind (fun total =>
      if 0 < commit.ladderTotal - total then some (Hit.mk target sheet (commit.ladderTotal - total))
      else none)
    Unhurt (woundedBy mental s commit.actor hit) attack.2 ∧
      ((∃ e s', attack = (.error e, s')) ↔ unfilled recorded target = true ∨
        ∃ h, hit = some h ∧ h.Stuck mental s commit.actor) := by
  unfold resolveAttackOn unfilled defenseAgainst
  cases hentry : recorded target with
  | none =>
    -- the server rolls: the dice move on, and nothing else does
    have hrolled : Unhurt s { s with rolls := fun n => s.rolls (n + 1) } := ⟨rfl, rfl, rfl⟩
    obtain ⟨hwounds, hraises⟩ := @landAttack_wounds mental
      { s with rolls := fun n => s.rolls (n + 1) } commit target sheet hsheet
      (defenseSkill mental) (buildOutcome (s.rolls 0) (s.rating target (defenseSkill mental))
        ⟨0, .active⟩ 0).ladderTotal
    refine ⟨trans_of Unhurt (hrolled.woundedBy mental commit.actor _) hwounds, hraises.trans ?_⟩
    simp only [Option.any_none, Bool.false_eq_true, false_or]
    rfl
  | some entry =>
    dsimp only
    by_cases hconceded : entry.conceded = true
    · rw [if_pos hconceded, if_pos hconceded]
      have hanswered : entry.answered = true := by
        unfold FatePendingDefense.answered
        rw [hconceded, Bool.or_true]
      refine ⟨((unhurt_takeOut target _).bind (fun _ => preserves_pure _)) s, iff_of_false ?_ ?_⟩
      · exact ((safe_takeOut target _).bind (fun _ => safe_pure _)).not_raises
          (refl_of SameLedgers s)
      · rintro (h | ⟨hit, hhit, -⟩)
        · simp [hanswered] at h
        · simp at hhit
    · rw [if_neg hconceded, if_neg hconceded]
      cases htotal : entry.defenseTotal with
      | none =>
        have hopen : entry.answered = false := by
          unfold FatePendingDefense.answered
          rw [htotal]
          simpa using hconceded
        refine ⟨refl_of Unhurt s, iff_of_true ⟨_, _, rfl⟩ (.inl ?_)⟩
        simp [hopen]
      | some total =>
        have hanswered : entry.answered = true := by
          unfold FatePendingDefense.answered
          rw [htotal]
          rfl
        obtain ⟨hwounds, hraises⟩ := @landAttack_wounds mental s commit target sheet hsheet
          entry.defenseSkill total
        refine ⟨hwounds, hraises.trans ?_⟩
        simp [hanswered]

/-- **An attack** hurts by its hit, and raises where it is stuck. -/
theorem resolveAttack_wounds (haction : commit.action = .attack) :
    let attack := (resolveAttack recorded mental commit).exec s
    Unhurt (woundedBy mental s commit.actor (hitOf recorded mental s commit)) attack.2 ∧
      ((∃ e s', attack = (.error e, s')) ↔ Stuck recorded mental s commit) := by
  unfold resolveAttack
  cases htarget : commit.target with
  | none =>
    have hnone : hitOf recorded mental s commit = none := by
      unfold hitOf
      rw [haction, htarget]
    rw [hnone]
    refine ⟨refl_of Unhurt s, iff_of_true ⟨_, _, rfl⟩ ⟨haction, fun target h => ?_⟩⟩
    cases htarget.symm.trans h
  | some target =>
    rw [exec_get_bind]
    cases hsheet : s.fateSheet target with
    | none =>
      have hnone : hitOf recorded mental s commit = none := by
        unfold hitOf
        rw [haction, htarget]
        dsimp only
        rw [hsheet]
      rw [hnone]
      refine ⟨refl_of Unhurt s, iff_of_true ⟨_, _, rfl⟩ ⟨haction, fun target' h => .inl ?_⟩⟩
      rw [← Option.some.inj (htarget.symm.trans h)]
      exact hsheet
    | some sheet =>
      rw [if_neg (by simp), stuck_iff_of_attack haction htarget hsheet,
        hitOf_of_attack haction htarget hsheet]
      exact resolveAttackOn_wounds hsheet

/-- **Resolving a commit** hurts by its hit, if it comes to one, and raises where it is stuck. -/
theorem resolveCommit_wounds (recorded : String → Option FatePendingDefense) (mental : Bool)
    (s : GameSnapshot) (commit : FateSealedCommit) :
    let resolved := (resolveCommit recorded mental commit).exec s
    Unhurt (woundedBy mental s commit.actor (hitOf recorded mental s commit)) resolved.2 ∧
      ((∃ e s', resolved = (.error e, s')) ↔ Stuck recorded mental s commit) := by
  unfold resolveCommit
  cases haction : commit.action with
  | attack => exact resolveAttack_wounds haction
  | createAdvantage =>
    have hnone : hitOf recorded mental s commit = none := by
      unfold hitOf
      rw [haction]
    rw [hnone]
    refine ⟨unhurt_resolveCreateAdvantage mental commit s, iff_of_false ?_ (fun h => ?_)⟩
    · exact (safe_resolveCreateAdvantage mental commit).not_raises (refl_of SameLedgers s)
    · exact absurd (haction.symm.trans h.1) (by decide)
  | overcome =>
    have hnone : hitOf recorded mental s commit = none := by
      unfold hitOf
      rw [haction]
    rw [hnone]
    refine ⟨unhurt_resolveOvercome mental commit s, iff_of_false ?_ (fun h => ?_)⟩
    · exact (safe_resolveOvercome mental commit).not_raises (refl_of SameLedgers s)
    · exact absurd (haction.symm.trans h.1) (by decide)

end Resolving

/-! ### Slots -/

section Slots

variable (recorded : String → Option FatePendingDefense)
  (commits : String → Option FateSealedCommit) (mental : Bool)

/-- One slot of the walk, without what it tells the narrator. -/
def slot (name : String) : FateM PUnit := do
  let _ ← walkSlot recorded commits mental [] name

/-- The commit whose turn a slot is: its actor's, if it is still in the fight. -/
def turn (s : GameSnapshot) (name : String) : Option FateSealedCommit :=
  if (s.encounter.findActor name).any (fun actor => !actor.withdrawn) ∧ ¬ s.encounter.resolved
  then commits name else none

variable {name : String}

theorem exec_walkSlot_of_none {s : GameSnapshot} (hints : List String)
    (hturn : turn commits s name = none) :
    (walkSlot recorded commits mental hints name).exec s = (.ok hints, s) := by
  unfold walkSlot
  rw [exec_get_bind]
  cases hcommit : commits name with
  | none => rfl
  | some commit =>
    dsimp only
    unfold turn at hturn
    split at hturn
    · rw [hcommit] at hturn
      simp at hturn
    · rename_i hout
      rw [if_neg hout]
      rfl

theorem exec_walkSlot_of_some {s : GameSnapshot} {commit : FateSealedCommit} (hints : List String)
    (hturn : turn commits s name = some commit) :
    (walkSlot recorded commits mental hints name).exec s =
      (resolveCommit recorded mental commit >>= fun new => pure (hints ++ new)).exec s := by
  unfold turn at hturn
  split at hturn
  · rename_i hin
    unfold walkSlot
    rw [exec_get_bind, hturn]
    dsimp only
    rw [if_pos hin]
  · simp at hturn

/-- What a slot tells the narrator is added to what was told before, and changes nothing else. -/
theorem exec_walkSlot (hints : List String) (name : String) (s : GameSnapshot) :
    ∃ new, (walkSlot recorded commits mental hints name).exec s =
      (((slot recorded commits mental name).exec s).1.map (fun _ => hints ++ new),
        ((slot recorded commits mental name).exec s).2) := by
  unfold slot
  cases hturn : turn commits s name with
  | none =>
    refine ⟨[], ?_⟩
    rw [exec_bind, exec_walkSlot_of_none recorded commits mental [] hturn,
      exec_walkSlot_of_none recorded commits mental hints hturn, List.append_nil]
    rfl
  | some commit =>
    rw [exec_bind, exec_walkSlot_of_some recorded commits mental [] hturn,
      exec_walkSlot_of_some recorded commits mental hints hturn, exec_bind, exec_bind]
    rcases (resolveCommit recorded mental commit).exec s with ⟨e | new, s'⟩
    · exact ⟨[], rfl⟩
    · exact ⟨new, rfl⟩

/-- **The walk** is a loop over its slots. -/
theorem exec_foldlM_walkSlot (names hints : List String) (s : GameSnapshot) :
    ∃ told, (names.foldlM (walkSlot recorded commits mental) hints).exec s =
      (((names.forM (slot recorded commits mental)).exec s).1.map (fun _ => told),
        ((names.forM (slot recorded commits mental)).exec s).2) := by
  induction names generalizing hints s with
  | nil => exact ⟨hints, rfl⟩
  | cons name names ih =>
    obtain ⟨new, hslot⟩ := exec_walkSlot recorded commits mental hints name s
    rw [List.foldlM_cons, exec_forM_cons, exec_bind, hslot, exec_bind]
    rcases (slot recorded commits mental name).exec s with ⟨e | u, s'⟩
    · exact ⟨[], rfl⟩
    · exact ih (hints ++ new) s'

/-- Who has no turn changes nothing. -/
theorem exec_slot_of_none {s : GameSnapshot} (hturn : turn commits s name = none) :
    (slot recorded commits mental name).exec s = (.ok ⟨⟩, s) := by
  unfold slot
  rw [exec_bind, exec_walkSlot_of_none recorded commits mental [] hturn]
  rfl

/-- **A turn** hurts by its hit, if it comes to one, and raises where it is stuck. -/
theorem slot_wounds {s : GameSnapshot} {commit : FateSealedCommit}
    (hturn : turn commits s name = some commit) :
    let taken := (slot recorded commits mental name).exec s
    Unhurt (woundedBy mental s commit.actor (hitOf recorded mental s commit)) taken.2 ∧
      ((∃ e s', taken = (.error e, s')) ↔ Stuck recorded mental s commit) := by
  obtain ⟨hwounds, hraises⟩ := resolveCommit_wounds recorded mental s commit
  unfold slot
  rw [← hraises, exec_bind, exec_walkSlot_of_some recorded commits mental [] hturn, exec_bind]
  rcases hexec : (resolveCommit recorded mental commit).exec s with ⟨e | new, s'⟩
  · rw [hexec] at hwounds
    exact ⟨hwounds, iff_of_true ⟨e, s', rfl⟩ ⟨e, s', rfl⟩⟩
  · rw [hexec] at hwounds
    refine ⟨hwounds, iff_of_false ?_ ?_⟩
    · rintro ⟨e, s'', h⟩
      simp at h
    · rintro ⟨e, s'', h⟩
      simp at h

end Slots

end

/-! ### The slots of an exchange -/

variable (s : GameSnapshot) (mental : Bool)

/-- What comes before the walk: a log that is empty, and the opponents' attacks. -/
def seatExchange : FateM PUnit := do
  modifyEncounter fun encounter => { encounter with fateResolutionLog := [] }
  seatOpponentCommits mental

/-- What comes after it: the ledger is cleared, and the hints go to the narrator. -/
def finishExchange (order told : List String) : FateM FateExchangeResult := do
  modifyEncounter (StructuredEncounter.closeExchange told)
  let final ← get
  pure ⟨", ".intercalate order, final.encounter.resolved, told⟩

/-- One slot of the walk from a snapshot whose opponents are seated. -/
def GameSnapshot.slotOf (start : GameSnapshot) (mental : Bool) : String → FateM PUnit :=
  slot start.encounter.recordedDefenses start.encounter.commits mental

theorem exec_walkExchange (start : GameSnapshot) : ∃ told, (walkExchange mental).exec start =
      ((start.fateTurnOrder mental).forM (start.slotOf mental) >>= fun _ =>
        finishExchange (start.fateTurnOrder mental) told).exec start := by
  obtain ⟨told, hwalk⟩ := exec_foldlM_walkSlot start.encounter.recordedDefenses
    start.encounter.commits mental (start.fateTurnOrder mental) [] start
  refine ⟨told, ?_⟩
  unfold walkExchange
  rw [exec_get_bind]
  unfold GameSnapshot.slotOf
  rw [exec_bind, hwalk, exec_bind]
  rcases ((start.fateTurnOrder mental).forM (slot start.encounter.recordedDefenses
    start.encounter.commits mental)).exec start with ⟨e | u, s'⟩
  · rfl
  · rfl

theorem exec_runFateExchange : runFateExchange.exec s =
    (seatExchange s.encounter.mental >>= fun _ => walkExchange s.encounter.mental).exec s := by
  unfold runFateExchange seatExchange
  rw [exec_get_bind, bind_assoc]

namespace GameSnapshot

/-- The snapshot that the walk of an exchange starts from. -/
def exchangeStart : GameSnapshot := ((seatExchange s.encounter.mental).exec s).2

/-- One slot of the exchange. -/
def exchangeSlot : String → FateM PUnit :=
  s.exchangeStart.slotOf s.encounter.mental

/-- **The slots of an exchange** that are come to, with the snapshots they find; an exchange whose
    opponents cannot be seated comes to none. -/
def exchangeVisits : List (String × GameSnapshot) :=
  match (seatExchange s.encounter.mental).exec s with
  | (.ok _, start) => visits (start.slotOf s.encounter.mental)
      (start.fateTurnOrder s.encounter.mental) start
  | (.error _, _) => []

/-- The actor has withdrawn. -/
def gone (name : String) : Bool :=
  (s.encounter.findActor name).any EncounterActor.withdrawn

/-- The harm on the sheet behind a name. -/
def harmOf (name : String) : Option (Dict StressTrackName (List StressBox) × List Consequence) :=
  (s.fateSheet name).map FateSheet.harm

/-! ### Staying out -/

/-- Whoever has withdrawn does not act in a slot, and is not harmed in it. Those who count are the
    actors that began the exchange. -/
structure StaysOut (s : GameSnapshot) (began : String → Prop) (visit : String × GameSnapshot) :
    Prop where
  source : began visit.1 → visit.2.gone visit.1 = true →
    (s.exchangeSlot visit.1).exec visit.2 = (.ok ⟨⟩, visit.2)
  target : ∀ name, began name → visit.2.gone name = true →
    ((s.exchangeSlot visit.1).exec visit.2).2.harmOf name = visit.2.harmOf name

/-- The attack whose turn the slot is does not hit a creature of whoever has withdrawn, unless
    there is no room for a mark. -/
def Spares (began : String → Prop) (visit : String × GameSnapshot) : Prop :=
  ∀ commit hit, turn s.exchangeStart.encounter.commits visit.2 visit.1 = some commit →
    hitOf s.exchangeStart.encounter.recordedDefenses s.encounter.mental visit.2 commit = some hit →
    hit.sheet.room (trackOf s.encounter.mental) = true →
    ∀ name, began name → visit.2.gone name = true →
      visit.2.cast.findCreatureCore name ≠ visit.2.cast.findCreatureCore hit.target

end GameSnapshot

theorem sheet_of_hitOf {recorded : String → Option FatePendingDefense} {mental : Bool}
    {s : GameSnapshot} {commit : FateSealedCommit} {hit : Hit}
    (h : hitOf recorded mental s commit = some hit) :
    s.fateSheet hit.target = some hit.sheet ∧ 0 < hit.shifts := by
  unfold hitOf at h
  split at h
  · split at h
    · rename_i sheet total hsheet htotal
      split at h
      · rename_i hpositive
        cases h
        exact ⟨hsheet, hpositive⟩
      · simp at h
    · simp at h
  · simp at h

theorem harmOf_congr {s s' : GameSnapshot} (h : Unhurt s s') (name : String) :
    s'.harmOf name = s.harmOf name := by
  unfold GameSnapshot.harmOf GameSnapshot.fateSheet
  rw [h.cast, h.sheets]

theorem harmOf_woundedBy_iff {s : GameSnapshot} {hit : Hit} (source : String)
    (hsheet : s.fateSheet hit.target = some hit.sheet) (hshifts : 0 < hit.shifts) (name : String) :
    (woundedBy mental s source (some hit)).harmOf name = s.harmOf name ↔
      (hit.sheet.room (trackOf mental) = true →
        s.cast.findCreatureCore name ≠ s.cast.findCreatureCore hit.target) := by
  obtain ⟨ref, href, hold⟩ := Option.bind_eq_some_iff.mp hsheet
  have hharm := harm_absorbShifts_iff hit.sheet (trackOf mental) hshifts hit.target source
  have hput : woundedBy mental s source (some hit) = { s with
      sheets := Function.update s.sheets ref (some (hit.absorb mental source).2) } := by
    show s.putFateSheet hit.target _ = _
    unfold GameSnapshot.putFateSheet
    rw [href]
  rw [hput, href]
  unfold GameSnapshot.harmOf GameSnapshot.fateSheet
  dsimp only
  by_cases hsame : s.cast.findCreatureCore name = some ref
  · rw [hsame, Option.bind_some, Option.bind_some, Function.update_self, hold, ← hharm]
    show some (hit.absorb mental source).2.harm = some hit.sheet.harm ↔ _
    rw [Option.some.injEq]
    constructor
    · exact fun heq hne => absurd heq hne
    · exact fun h => not_not.mp (fun hne => h hne rfl)
  · refine iff_of_true ?_ (fun _ => hsame)
    cases hname : s.cast.findCreatureCore name with
    | none => rfl
    | some ref' =>
      have hne : ref' ≠ ref := fun heq => hsame (heq ▸ hname)
      rw [Option.bind_some, Option.bind_some, Function.update_of_ne hne]

/-- **A slot** keeps whoever has withdrawn out if and only if its attack spares them. -/
theorem staysOut_iff_spares_of_slot (began : String → Prop) (visit : String × GameSnapshot) :
    s.StaysOut began visit ↔ s.Spares began visit := by
  have hsource : visit.2.gone visit.1 = true →
      (s.exchangeSlot visit.1).exec visit.2 = (.ok ⟨⟩, visit.2) := by
    intro hgone
    refine exec_slot_of_none _ _ _ (if_neg (fun hin => ?_))
    obtain ⟨actor, hactor, hwithdrawn⟩ := exists_of_any hgone
    rw [hactor, Option.any_some, hwithdrawn] at hin
    exact absurd hin.1 (by decide)
  cases hturn : turn s.exchangeStart.encounter.commits visit.2 visit.1 with
  | none =>
    -- nobody acts
    have hexec : (s.exchangeSlot visit.1).exec visit.2 = (.ok ⟨⟩, visit.2) :=
      exec_slot_of_none _ _ _ hturn
    refine iff_of_true ⟨fun _ _ => hexec, fun name _ _ => ?_⟩ (fun commit hit h => ?_)
    · rw [hexec]
    · cases hturn.symm.trans h
  | some commit =>
    have hwounds := (slot_wounds s.exchangeStart.encounter.recordedDefenses
      s.exchangeStart.encounter.commits s.encounter.mental hturn).1
    constructor
    · intro h commit' hit hturn' hhit hroom name hbegan hgone
      cases hturn.symm.trans hturn'
      obtain ⟨hsheet, hshifts⟩ := sheet_of_hitOf hhit
      rw [hhit] at hwounds
      have hsame := h.target name hbegan hgone
      unfold GameSnapshot.exchangeSlot GameSnapshot.slotOf at hsame
      rw [harmOf_congr hwounds] at hsame
      exact (harmOf_woundedBy_iff _ _ hsheet hshifts name).mp hsame hroom
    · intro h
      refine ⟨fun _ => hsource, fun name hbegan hgone => ?_⟩
      refine (harmOf_congr hwounds name).trans ?_
      cases hhit : hitOf s.exchangeStart.encounter.recordedDefenses s.encounter.mental visit.2
          commit with
      | none => rfl
      | some hit =>
        obtain ⟨hsheet, hshifts⟩ := sheet_of_hitOf hhit
        apply (harmOf_woundedBy_iff _ _ hsheet hshifts name).mpr
        exact fun hroom => h commit hit hturn hhit hroom name hbegan hgone

/-- **Staying out.** Whoever has withdrawn neither acts nor is harmed exactly if the attack of every
    slot spares them. -/
theorem staysOut_iff_spares (s : GameSnapshot) (began : String → Prop) :
    (∀ visit ∈ s.exchangeVisits, s.StaysOut began visit) ↔
      ∀ visit ∈ s.exchangeVisits, s.Spares began visit :=
  forall₂_congr (fun visit _ => staysOut_iff_spares_of_slot s began visit)

/-! ### Taken out, and hit again -/

/-- Ann and Bob both attack Gob, who has two stress boxes and no consequences to take; Gob and an
    imp attack Ann, who has defended herself. -/
def brawl : GameSnapshot :=
  let attack (actor target : String) (ladderTotal : Int) : FateSealedCommit :=
    { actor := actor, action := .attack, skill := "Fight", target := some target,
      ladderTotal := ladderTotal }
  let defense (attacker : String) : FatePendingDefense :=
    { requestId := "def:1:" ++ attacker ++ "->Ann", attacker := attacker, defender := "Ann",
      attackSkill := "Fight", attackTotal := 0, defenseTotal := some 2,
      defenseSkill := "Athletics" }
  { cast :=
      { characters := ["Ann", "Bob"]
        npcs := [{ name := "Gob" }, { name := "Imp" }]
        normalizeName := id }
    sheets := fun _ => some { consequences := [] }
    encounter :=
      { actors := [⟨"Ann", .player, false⟩, ⟨"Bob", .player, false⟩, ⟨"Gob", .opponent, false⟩,
          ⟨"Imp", .opponent, false⟩]
        fateCommits := [attack "Ann" "Gob" 3, attack "Bob" "Gob" 1, attack "Gob" "Ann" 0,
          attack "Imp" "Ann" 0]
        pendingDefenses := [defense "Gob", defense "Imp"] }
    rolls := fun _ => ⟨.blank, .blank, .blank, .blank⟩ }

/-- **Hit when down.** Ann's attack takes Gob out, and Bob's marks another of its boxes. -/
theorem not_staysOut_brawl : ∃ visit ∈ brawl.exchangeVisits,
    (brawl.exchangeStart.gone "Gob" = false ∧ visit.2.gone "Gob" = true) ∧
      ¬ brawl.StaysOut (fun name => brawl.exchangeStart.gone name = false) visit := by
  refine ⟨brawl.exchangeVisits.get ⟨1, by decide +kernel⟩, List.get_mem _ _, by decide +kernel, ?_⟩
  intro h
  have hharm := h.target "Gob" (by decide +kernel) (by decide +kernel)
  exact absurd hharm (by decide +kernel)

end Sidequest.Fate
