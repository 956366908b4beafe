import Sidequest.Fate.Dispatch

namespace Sidequest.Fate

open Lib

/-!
# Which defense an attack is resolved against

Defenses are parked for pairs of an attacker and a defender, and answered pair by pair. The
exchange looks them up by the defender alone, where of several entries the last one counts.

* `ShownBy` — a line of the log shows the answer an entry holds;
* `shows_runFateExchange` — every attack in the log of an exchange shows the entry recorded for
  its target, if there is one;
* `ownDefense_iff` — that entry is the attacker's own exactly as long as no PC has parked defenses
  against different attackers.
-/

/-! ### What a line shows -/

/-- The line shows what the entry was answered with. -/
def FatePendingDefense.ShownBy (entry : FatePendingDefense) (line : FateExchangeLine) : Prop :=
  (entry.conceded = true ∧ line.outcome = "conceded") ∨
    (entry.conceded = false ∧ entry.defenseTotal = some line.oppositionTotal ∧
      entry.defenseSkill = line.defenseSkill)

/-- An attack shows the entry recorded for its target. -/
def Shows (recorded : String → Option FatePendingDefense) (line : FateExchangeLine) : Prop :=
  line.action = "attack" → ∀ entry, recorded line.target = some entry → entry.ShownBy line

/-- The log has grown by lines that show the entries recorded for their targets. -/
def LogGrows (recorded : String → Option FatePendingDefense) (s s' : GameSnapshot) : Prop :=
  ∃ lines, s'.encounter.fateResolutionLog = s.encounter.fateResolutionLog ++ lines ∧
    ∀ line ∈ lines, Shows recorded line

variable (s : GameSnapshot)

/-- The log and the parked defenses are the same. -/
def SameLog (s' : GameSnapshot) : Prop :=
  s'.encounter.fateResolutionLog = s.encounter.fateResolutionLog ∧
    s'.encounter.pendingDefenses = s.encounter.pendingDefenses

variable {recorded : String → Option FatePendingDefense} {α : Type}

instance : IsPreorder GameSnapshot (LogGrows recorded) where
  refl s := ⟨[], (List.append_nil _).symm, fun line h => nomatch h⟩
  trans := by
    rintro s s' s'' ⟨lines, hlog, hshow⟩ ⟨lines', hlog', hshow'⟩
    refine ⟨lines ++ lines', by rw [hlog', hlog, List.append_assoc], fun line hline => ?_⟩
    rcases List.mem_append.mp hline with h | h
    · exact hshow line h
    · exact hshow' line h

instance : IsPreorder GameSnapshot SameLog where
  refl _ := ⟨rfl, rfl⟩
  trans _ _ _ h h' := ⟨h'.1.trans h.1, h'.2.trans h.2⟩

theorem logGrows_of_sameLog {m : FateM α} (h : Preserves SameLog m) :
    Preserves (LogGrows recorded) m :=
  h.mono (fun _ _ hsame => ⟨[], by rw [hsame.1, List.append_nil], fun _ hline =>
    absurd hline (by simp)⟩)

/-! ### Computations that log nothing -/

theorem encounter_putFateSheet (name : String) (sheet : FateSheet) :
    (s.putFateSheet name sheet).encounter = s.encounter := by
  unfold GameSnapshot.putFateSheet
  split
  · rfl
  · rfl

theorem sameLog_onSheet (name : String) (absent : FateError) (m : SheetM α) :
    Preserves SameLog (onSheet name absent m) := by
  refine preserves_onPart (S := fun _ _ => True) (fun _ => trivial) (fun s _ sheet _ _ => ?_)
  unfold SameLog
  rw [encounter_putFateSheet]
  exact ⟨rfl, rfl⟩

theorem sameLog_rollDefense (defender : String) (mental : Bool) :
    Preserves SameLog (rollDefense defender mental) := fun _ => ⟨rfl, rfl⟩

variable (mental : Bool) (commit : FateSealedCommit)

theorem sameLog_oppositionTotal : Preserves SameLog (oppositionTotal mental commit) := by
  unfold oppositionTotal
  cases commit.target with
  | none => exact preserves_pure _
  | some target => exact sameLog_rollDefense target mental

theorem sameLog_maybeResolveSideCleared :
    Preserves SameLog (modifyEncounter StructuredEncounter.maybeResolveSideCleared) :=
  preserves_modify (fun s =>
    ⟨field_maybeResolveSideCleared StructuredEncounter.fateResolutionLog (fun _ _ => rfl) s.encounter,
    field_maybeResolveSideCleared StructuredEncounter.pendingDefenses (fun _ _ => rfl) s.encounter⟩)

theorem sameLog_sealFateCommit : Preserves SameLog (sealFateCommit commit) :=
  preserves_get.bind (fun _ => (preserves_throw _).ite (preserves_modify (fun _ => ⟨rfl, rfl⟩)))

/-- **Seating** the opponents logs nothing and parks nothing. -/
theorem sameLog_seatOpponentCommits : Preserves SameLog (seatOpponentCommits mental) :=
  preserves_seatOpponentCommits (fun _ _ => ⟨rfl, rfl⟩) sameLog_sealFateCommit mental

/-! ### What resolving an action logs -/

theorem logGrows_logLine {line : FateExchangeLine} (h : Shows recorded line) :
    Preserves (LogGrows recorded) (logLine line) :=
  preserves_modify (fun _ => ⟨[line], rfl, fun _ hline => List.mem_singleton.mp hline ▸ h⟩)

theorem logGrows_takeOut (target : String) {line : FateExchangeLine} (h : Shows recorded line) :
    Preserves (LogGrows recorded) (takeOut target line) := by
  have hwithdraw : Preserves SameLog
      (modifyEncounter (·.withdraw target)) :=
    preserves_modify (fun _ => ⟨rfl, rfl⟩)
  exact (logGrows_of_sameLog hwithdraw).bind (fun _ => (logGrows_logLine h).bind
    (fun _ => logGrows_of_sameLog sameLog_maybeResolveSideCleared))

theorem logGrows_addSituationAspect (aspect : Aspect) :
    Preserves (LogGrows recorded) (addSituationAspect aspect) :=
  logGrows_of_sameLog (preserves_modify (fun _ => ⟨rfl, rfl⟩))

theorem logGrows_landAttack {commit : FateSealedCommit} {skill : String} {defenseTotal : Int}
    (h : ∀ shifts outcome detail,
      Shows recorded (attackLine commit skill defenseTotal shifts outcome detail))
    (target : String) (mental : Bool) :
    Preserves (LogGrows recorded) (landAttack commit target mental skill defenseTotal) := by
  have hharm : Preserves (LogGrows recorded) (dealHarm commit target mental skill defenseTotal
      (commit.ladderTotal - defenseTotal)) := by
    refine (logGrows_of_sameLog (sameLog_onSheet _ _ _)).bind
      (fun survived => preserves_get.bind (fun s => ?_))
    refine Preserves.ite ?_ ((preserves_throw _).ite ?_)
    · exact (logGrows_logLine (h _ _ _)).bind (fun _ => preserves_pure _)
    · exact (logGrows_takeOut target (h _ _ _)).bind (fun _ => preserves_pure _)
  refine Preserves.ite ?_ (Preserves.ite ?_ hharm)
  · exact (logGrows_addSituationAspect _).bind (fun _ =>
      (logGrows_logLine (h _ _ _)).bind (fun _ => preserves_pure _))
  · exact (logGrows_logLine (h _ _ _)).bind (fun _ => preserves_pure _)

/-- **An attack** is logged with the answer recorded for its target. -/
theorem logGrows_resolveAttack :
    Preserves (LogGrows recorded) (resolveAttack recorded mental commit) := by
  unfold resolveAttack
  cases htarget : commit.target with
  | none => exact preserves_throw _
  | some target =>
    refine preserves_get.bind (fun s => (preserves_throw _).ite ?_)
    have hline : ∀ skill total shifts outcome detail,
        (attackLine commit skill total shifts outcome detail).target = target := by
      intro skill total shifts outcome detail
      show commit.target.getD "" = target
      rw [htarget]
      rfl
    cases hrecorded : recorded target with
    | none =>
      -- the server rolls, and there is no entry to show
      refine (logGrows_of_sameLog (sameLog_rollDefense target mental)).bind (fun total => ?_)
      refine logGrows_landAttack (fun shifts outcome detail _ entry hentry => ?_) target mental
      rw [hline, hrecorded] at hentry
      simp at hentry
    | some entry =>
      have hshow : ∀ {skill total shifts outcome detail},
          entry.ShownBy (attackLine commit skill total shifts outcome detail) →
          Shows recorded (attackLine commit skill total shifts outcome detail) := by
        intro skill total shifts outcome detail hshown _ entry' hentry'
        rw [hline, hrecorded] at hentry'
        exact Option.some.inj hentry' ▸ hshown
      show Preserves (LogGrows recorded) (if entry.conceded then _ else _)
      by_cases hconceded : entry.conceded = true
      · rw [if_pos hconceded]
        exact (logGrows_takeOut target (hshow (.inl ⟨hconceded, rfl⟩))).bind
          (fun _ => preserves_pure _)
      · rw [if_neg hconceded]
        cases htotal : entry.defenseTotal with
        | none => exact preserves_throw _
        | some total =>
          refine logGrows_landAttack (fun shifts outcome detail => hshow (.inr ?_)) target mental
          exact ⟨Bool.not_eq_true _ ▸ hconceded, htotal, rfl⟩

theorem shows_actionLine {commit : FateSealedCommit} (hcommit : commit.action ≠ .attack)
    (mental : Bool) (opposition shifts : Int) (outcome detail : String) :
    Shows recorded (actionLine mental commit opposition shifts outcome detail) := by
  intro haction
  exfalso
  revert haction
  show ¬ commit.action.wire = "attack"
  cases haction : commit.action with
  | attack => exact absurd haction hcommit
  | createAdvantage => decide
  | overcome => decide

theorem logGrows_resolveCommit :
    Preserves (LogGrows recorded) (resolveCommit recorded mental commit) := by
  unfold resolveCommit
  have hopposition : Preserves (LogGrows recorded) (oppositionTotal mental commit) :=
    logGrows_of_sameLog (sameLog_oppositionTotal mental commit)
  cases haction : commit.action with
  | attack => exact logGrows_resolveAttack mental commit
  | createAdvantage =>
    have hline : ∀ opposition shifts outcome detail,
        Shows recorded (actionLine mental commit opposition shifts outcome detail) :=
      shows_actionLine (by rw [haction]; decide) mental
    refine hopposition.bind (fun opposition => Preserves.ite ?_ (Preserves.ite ?_ ?_))
    · exact (logGrows_addSituationAspect _).bind (fun _ =>
        (logGrows_logLine (hline _ _ _ _)).bind (fun _ => preserves_pure _))
    · exact (logGrows_addSituationAspect _).bind (fun _ =>
        (logGrows_logLine (hline _ _ _ _)).bind (fun _ => preserves_pure _))
    · exact (logGrows_logLine (hline _ _ _ _)).bind (fun _ => preserves_pure _)
  | overcome =>
    have hline : ∀ opposition shifts outcome detail,
        Shows recorded (actionLine mental commit opposition shifts outcome detail) :=
      shows_actionLine (by rw [haction]; decide) mental
    refine hopposition.bind (fun opposition => Preserves.ite ?_ (Preserves.ite ?_ ?_))
    all_goals exact (logGrows_logLine (hline _ _ _ _)).bind (fun _ => preserves_pure _)

theorem logGrows_walkSlot (commits : String → Option FateSealedCommit) (mental : Bool)
    (hints : List String) (name : String) :
    Preserves (LogGrows recorded) (walkSlot recorded commits mental hints name) := by
  refine preserves_get.bind (fun s => ?_)
  cases commits name with
  | none => exact preserves_pure _
  | some commit =>
    exact ((logGrows_resolveCommit mental commit).bind (fun _ => preserves_pure _)).ite
      (preserves_pure _)

/-- **An exchange** that runs to its end has only logged attacks that show the entries recorded
    for their targets. -/
theorem shows_runFateExchange : Meets (fun s' => s' = s) runFateExchange
      (fun _ s' => ∀ line ∈ s'.encounter.fateResolutionLog,
        Shows s.encounter.recordedDefenses line) (fun _ _ => True) := by
  refine meets_get_bind ?_
  rintro s' rfl
  have hclear : Meets (fun s => s = s')
      (modifyEncounter fun encounter => { encounter with fateResolutionLog := [] })
      (fun _ s => s.encounter.fateResolutionLog = [] ∧
        s.encounter.pendingDefenses = s'.encounter.pendingDefenses) (fun _ _ => True) := by
    rintro s rfl
    exact ⟨rfl, rfl⟩
  refine meets_bind hclear (fun _ => ?_)
  refine meets_of_forall ?_
  rintro s₁ ⟨hlog, hparked⟩
  have hseat := (sameLog_seatOpponentCommits s'.encounter.mental).meets_of_state s₁
  refine meets_bind (hseat.weaken (fun _ h => h) (fun _ _ hq => hq) (fun _ _ _ => trivial))
    (fun _ => ?_)
  refine meets_get_bind ?_
  rintro s₂ ⟨hlog₂, hparked₂⟩
  have hrecorded : s₂.encounter.recordedDefenses = s'.encounter.recordedDefenses := by
    unfold StructuredEncounter.recordedDefenses
    rw [hparked₂, hparked]
  rw [hrecorded]
  have hslot : ∀ hints name, Preserves (LogGrows s'.encounter.recordedDefenses)
      (walkSlot s'.encounter.recordedDefenses s₂.encounter.commits s'.encounter.mental hints name) :=
    logGrows_walkSlot _ _
  have hwalk := (preserves_foldlM hslot (s₂.fateTurnOrder s'.encounter.mental) []).meets_of_state s₂
  refine meets_bind (hwalk.weaken (fun _ h => h) (fun _ _ hq => hq) (fun _ _ _ => trivial))
    (fun hints => ?_)
  rintro s₃ ⟨lines, hlines, hshow⟩ line hline
  change line ∈ s₃.encounter.fateResolutionLog at hline
  rw [hlines, hlog₂, hlog, List.nil_append] at hline
  exact hshow line hline

/-! ### Whose defense that is -/

/-- What is read for the attack that a defense was parked for is a defense parked for that very
    attacker and defender. -/
def OwnDefense : Prop :=
  ∀ entry ∈ s.encounter.pendingDefenses, ∃ read ∈ s.encounter.pendingDefenses,
    s.encounter.recordedDefenses entry.defender = some read ∧
      read.attacker = entry.attacker ∧ read.defender = entry.defender

/-- No PC has parked defenses against different attackers. -/
def OneAttackerEach : Prop :=
  ∀ entry ∈ s.encounter.pendingDefenses, ∀ other ∈ s.encounter.pendingDefenses,
    entry.defender = other.defender → entry.attacker = other.attacker

instance (s : GameSnapshot) : Decidable (OneAttackerEach s) :=
  inferInstanceAs (Decidable (∀ entry ∈ s.encounter.pendingDefenses, ∀ other ∈ _, _ → _))

/-- Every attack in the later log for which a defense was parked shows what a defense against
    that very attacker was answered with. -/
def LogShowsOwn (s' : GameSnapshot) : Prop :=
  ∀ line ∈ s'.encounter.fateResolutionLog, line.action = "attack" →
    (∃ entry ∈ s.encounter.pendingDefenses,
      entry.attacker = line.actor ∧ entry.defender = line.target) →
    ∃ entry ∈ s.encounter.pendingDefenses,
      entry.attacker = line.actor ∧ entry.defender = line.target ∧ entry.ShownBy line

/-- Every parked defense is recorded under its defender, itself or one parked after it. -/
theorem exists_recordedDefense {s : GameSnapshot} {entry : FatePendingDefense}
    (h : entry ∈ s.encounter.pendingDefenses) :
    ∃ read ∈ s.encounter.pendingDefenses,
      s.encounter.recordedDefenses entry.defender = some read ∧ read.defender = entry.defender := by
  obtain ⟨read, hread⟩ : ∃ read, s.encounter.recordedDefenses entry.defender = some read :=
    exists_lastBy h
  obtain ⟨hmem, hdefender⟩ := key_of_lastBy hread
  exact ⟨read, hmem, hread, hdefender⟩

theorem ownDefense_of_oneAttackerEach {s : GameSnapshot} (h : OneAttackerEach s) :
    OwnDefense s := by
  intro entry hentry
  obtain ⟨read, hmem, hread, hdefender⟩ := exists_recordedDefense hentry
  exact ⟨read, hmem, hread, h read hmem entry hentry hdefender, hdefender⟩

/-- **Own defenses.** Every attack is read against the defense parked for that attacker exactly if
    no PC parked defenses against different ones; and then the log shows it. -/
theorem ownDefense_iff (s : GameSnapshot) : (OwnDefense s ↔ OneAttackerEach s) ∧
      (OneAttackerEach s → ∀ result s', runFateExchange.exec s = (.ok result, s') →
        LogShowsOwn s s') := by
  refine ⟨⟨fun hown => ?_, ownDefense_of_oneAttackerEach⟩, fun hone result s' hexec => ?_⟩
  · -- two entries of one defender are looked up under the same key
    intro entry hentry other hother hdefender
    obtain ⟨read, -, hread, hattacker, -⟩ := hown entry hentry
    obtain ⟨read', -, hread', hattacker', -⟩ := hown other hother
    rw [hdefender, hread'] at hread
    cases hread
    exact hattacker.symm.trans hattacker'
  · rintro line hline hattack ⟨entry, hentry, hactor, htarget⟩
    obtain ⟨read, hmem, hread, hattacker, hdefender⟩ :=
      ownDefense_of_oneAttackerEach hone entry hentry
    have hshow := (shows_runFateExchange s).of_ok rfl hexec line hline hattack
    rw [htarget] at hread
    exact ⟨read, hmem, hattacker.trans hactor, hdefender.trans htarget, hshow read hread⟩

/-- One PC against two opponents, everybody with the default sheet, the server's dice blank. -/
def ambush : GameSnapshot :=
  { cast :=
      { characters := ["Ann"]
        npcs := [{ name := "Gob" }, { name := "Orc" }]
        normalizeName := id }
    sheets := fun _ => some {}
    encounter :=
      { actors := [⟨"Ann", .player, false⟩, ⟨"Gob", .opponent, false⟩, ⟨"Orc", .opponent, false⟩] }
    rolls := fun _ => ⟨.blank, .blank, .blank, .blank⟩ }

/-- Ann acts, and then answers both attacks, four up against the first and four down against the
    second. -/
def ambushRound : List FateEvent :=
  [.act { action := .overcome, skill := "Athletics" } "Ann" 0
      (some ⟨.blank, .blank, .blank, .blank⟩),
    .defend "Ann" "def:0:Gob->Ann" "Athletics" (some ⟨.plus, .plus, .plus, .plus⟩) false,
    .defend "Ann" "def:0:Orc->Ann" "Athletics" (some ⟨.minus, .minus, .minus, .minus⟩) false]

/-- With a single opponent the attack is resolved against the defense thrown at it. -/
theorem ownDefense_of_single_opponent :
    ∃ s s', s.encounter.pendingDefenses.map FatePendingDefense.defenseTotal = [some 4] ∧
      s'.encounter.fateResolutionLog.map FateExchangeLine.oppositionTotal = [0, 4] ∧
      OwnDefense s ∧ LogShowsOwn s s' := by
  let start := { ambush with encounter := ambush.encounter.withdraw "Orc" }
  let parked := run step start [ambushRound.head (by decide)]
  let s := ((dispatchFateDefense "Ann" "def:0:Gob->Ann" "Athletics"
    (some ⟨.plus, .plus, .plus, .plus⟩) false).exec parked).2
  have hone : OneAttackerEach s := by decide
  have hran : (runFateExchange.exec s).1.toBool = true := by decide
  rcases hexec : runFateExchange.exec s with ⟨e | result, s'⟩
  · rw [hexec] at hran
    exact Bool.noConfusion hran
  · refine ⟨s, s', by decide, ?_, (ownDefense_iff s).1.mpr hone,
      (ownDefense_iff s).2 hone result s' hexec⟩
    have hlog : (runFateExchange.exec s).2.encounter.fateResolutionLog.map
        FateExchangeLine.oppositionTotal = [0, 4] := by decide
    rw [hexec] at hlog
    exact hlog

/-- With two opponents on one PC both attacks are resolved against the last defense. -/
theorem not_ownDefense_of_two_opponents :
    (run step ambush (ambushRound.take 2)).encounter.pendingDefenses.map
        (fun entry => (entry.attacker, entry.defender, entry.defenseTotal)) =
      [("Gob", "Ann", some 4), ("Orc", "Ann", none)] ∧
    ((run step ambush ambushRound).encounter.fateResolutionLog.filter
        (fun line => line.action = "attack")).map
        (fun line => (line.actor, line.target, line.oppositionTotal)) =
      [("Gob", "Ann", -4), ("Orc", "Ann", -4)] := by decide

end Sidequest.Fate
