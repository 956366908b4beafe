import Sidequest.Lib.Run
import Sidequest.Projection.Rules

namespace Sidequest.Projection

open Lib

/-!
# Redaction

A redaction is meant to mask its field for every viewer for whom its predicate is false on the
canonical payload. The stage evaluates the predicate on the payload as the earlier redactions
left it, so a mask written over the predicate's argument can turn it true.

* `Standing` — the values that predicates find under their arguments, turn by turn;
* `redacted_iff_noneMisled` — the redactions are carried out exactly if none finds its predicate
  true that is false on the canonical payload; what they mask then reads nothing but masks, in
  whatever order the rules stand;
* `not_redacted_of_mask` — an accepted rule set whose first mask lets a viewer see the second
  field in the clear.
-/

/-! ### The redactions of a kind -/

/-- The redactions of a list of rules, in document order. -/
def redactions (rules : List (ProjectionRule × Nat)) : List RedactSpec :=
  rules.flatMap (fun r => r.1.specs)

/-- The verdict of a predicate call for a viewer; an unknown predicate is never satisfied. -/
def verdict (view : GameStateView) (playerId : String) (call : PredicateCall)
    (payload : Fields) : Bool :=
  match predicates call.predicate with
  | some pred => pred ⟨view, payload, playerId, view.characterOf playerId⟩ call.arg
  | none => false

/-! ### What stands under a field -/

/-- A turn that changes what stands in a payload: a redaction's, or a visibility tag's. -/
inductive Turn where
  | redact (spec : RedactSpec)
  | shape

/-- The turns of a rule. -/
def ProjectionRule.turns : ProjectionRule → List Turn
  | .redactFields _ specs => specs.map .redact
  | .visibilityTag _ => [.shape]
  | _ => []

/-- What stands under the top-level fields, for predicates to find. Once the payload was copied,
    masks go to the copy, and predicates find what stood before. -/
structure Standing where
  value : String → Option Json
  copied : Bool := false

namespace Standing

/-- What stands in a payload that nothing was done to. -/
def canonical (payload : Fields) : Standing := { value := Json.get? payload }

variable (view : GameStateView) (playerId : String) (st : Standing)

/-- The verdict of a predicate call on what stands under its argument. -/
def verdict (call : PredicateCall) : Bool :=
  Projection.verdict view playerId call
    (call.arg.toList.flatMap (fun key => (st.value key).toList.map (Prod.mk key)))

/-- A visibility tag has the payload copied for a player who sees less than everything of its
    spans. -/
def copies : Bool :=
  match st.value "_visibility" with
  | some (.obj viz) =>
    let fidelity := (Json.get? viz "fidelity").getD .null
    match if fidelity.truthy then fidelity else .obj [] with
    | .obj fidelityMap =>
      let playerFidelity := (Json.get? fidelityMap playerId).getD .null
      playerFidelity.truthy && playerFidelity.str? ≠ some "full" &&
        match st.value "spans" with
        | some (.arr _) => true
        | _ => false
    | _ => false
  | _ => false

/-- A mask where a path leads. -/
def mask (seg : Segment) (rest : List Segment) (mask : Json) : Standing where
  value key :=
    if key = seg.name then (st.value key).map (maskedValue seg rest mask) else st.value key
  copied := st.copied

/-- A redaction masks what stands at its path unless its predicate holds. -/
def redact (spec : RedactSpec) : Standing :=
  if st.copied || st.verdict view playerId spec.«unless» then st
  else
    match parse spec.field with
    | .ok (seg :: rest) => st.mask seg rest spec.mask
    | _ => st

/-- One turn. -/
def take : Turn → Standing
  | .redact spec => st.redact view playerId spec
  | .shape => { st with copied := st.copied || st.copies playerId }

/-- At its turn a redaction does not find its predicate true if it is false on the canonical
    payload. -/
def NotMisled (payload : Fields) (st : Standing) : Turn → Prop
  | .redact spec => Projection.verdict view playerId spec.«unless» payload = false →
    st.verdict view playerId spec.«unless» = false
  | .shape => True

instance decidableNotMisled (payload : Fields) (st : Standing) :
    (turn : Turn) → Decidable (NotMisled view playerId payload st turn)
  | .redact _ => inferInstanceAs (Decidable (_ = false → _ = false))
  | .shape => .isTrue trivial

end Standing

/-- No redaction is misled at its turn: no mask that an earlier one left under its predicate's
    argument turns a predicate true. -/
def NoneMisled (view : GameStateView) (playerId : String) (payload : Fields)
    (rules : List (ProjectionRule × Nat)) : Prop :=
  StepsMeet (Standing.take view playerId)
    (Standing.NotMisled view playerId payload) (.canonical payload)
    (rules.flatMap (fun r => r.1.turns))

instance decidableNoneMisled (view : GameStateView) (playerId : String) (payload : Fields)
    (rules : List (ProjectionRule × Nat)) : Decidable (NoneMisled view playerId payload rules) :=
  inferInstanceAs (Decidable (StepsMeet _ _ _ _))

/-! ### What is carried out -/

section CarriedOut

variable (view : GameStateView) (playerId : String) (canonical : Fields)

/-- Of some redactions of a rule, each whose predicate is false on the canonical payload finds it
    false at its turn, and so is carried out. -/
def RedactsAll (ruleIdx : Nat) : List RedactSpec → Pass → Prop
  | [], _ => True
  | spec :: specs, pass =>
    (verdict view playerId spec.«unless» canonical = false →
      evalCall view playerId pass.payload spec.«unless» = .ok false) ∧
    ∀ pass', redactSpec view playerId ruleIdx pass spec = .ok pass' →
      RedactsAll ruleIdx specs pass'

/-- The same of the redactions of some rules. -/
def CarriedOut : List (ProjectionRule × Nat) → Pass → Prop
  | [], _ => True
  | (rule, ruleIdx) :: rules, pass => RedactsAll view playerId canonical ruleIdx rule.specs pass ∧
    ∀ pass', applyRule view playerId pass ruleIdx rule = .ok (some pass') → CarriedOut rules pass'

end CarriedOut

/-! ### What a mask does to the top level -/

variable {view : GameStateView} {playerId : String}

theorem maskFields_eq (seg : Segment) (rest : List Segment) (mask : Json) (fields : Fields) :
    applyMask (seg :: rest) mask (.obj fields) = .obj (maskFields (seg :: rest) mask fields) := by
  obtain ⟨fields', hobj, -⟩ := applyMask_obj_get? seg rest mask fields
  rw [maskFields, hobj]

theorem get?_maskFields (seg : Segment) (rest : List Segment) (mask : Json) (fields : Fields)
    (key : String) : Json.get? (maskFields (seg :: rest) mask fields) key =
      if key = seg.name then (Json.get? fields key).map (maskedValue seg rest mask)
      else Json.get? fields key := by
  obtain ⟨fields', hobj, hget⟩ := applyMask_obj_get? seg rest mask fields
  rw [maskFields, hobj]
  exact hget key

/-- A path with more segments never makes or unmakes a string at its first. -/
theorem str?_maskedValue_cons (seg seg' : Segment) (rest : List Segment) (mask value : Json) :
    (maskedValue seg (seg' :: rest) mask value).str? = value.str? := by
  unfold maskedValue
  cases hlist : seg.isList with
  | true => cases value <;> rfl
  | false =>
    cases value with
    | obj fields =>
      obtain ⟨fields', hobj, -⟩ := applyMask_obj_get? seg' rest mask fields
      simp only [descend, hobj]
      rfl
    | _ => rfl

theorem str?_maskedValue_nil (seg : Segment) (mask value : Json) :
    (maskedValue seg [] mask value).str? = value.str? ∨
    (maskedValue seg [] mask value).str? = mask.str? := by
  unfold maskedValue
  cases hlist : seg.isList with
  | false => exact .inr rfl
  | true => cases value <;> first | exact .inl rfl | exact .inr rfl

/-- After a mask, the string under a predicate's argument is the one before, or the mask's. -/
theorem strAt_maskFields (path : List Segment) (mask : Json) (fields : Fields)
    (arg : Option String) : strAt (maskFields path mask fields) arg = strAt fields arg ∨
      strAt (maskFields path mask fields) arg = mask.str? := by
  cases arg with
  | none => exact .inl rfl
  | some key =>
    cases path with
    | nil => exact .inl rfl
    | cons seg rest =>
      have hnew : strAt (maskFields (seg :: rest) mask fields) (some key) =
          (if key = seg.name then (Json.get? fields key).map (maskedValue seg rest mask)
            else Json.get? fields key).bind Json.str? := by
        rw [← get?_maskFields]
        rfl
      by_cases hkey : key = seg.name
      · rw [if_pos hkey] at hnew
        cases hget : Json.get? fields key with
        | none =>
          left
          rw [hnew, strAt, readField, Option.bind_some, hget]
          rfl
        | some value =>
          rw [hget, Option.map_some, Option.bind_some] at hnew
          have hold : strAt fields (some key) = value.str? := by
            rw [strAt, readField, Option.bind_some, hget, Option.bind_some]
          cases rest with
          | nil =>
            rcases str?_maskedValue_nil seg mask value with h | h
            · left
              rw [hnew, h, hold]
            · right
              rw [hnew, h]
          | cons seg' rest' =>
            left
            rw [hnew, str?_maskedValue_cons, hold]
      · left
        rw [if_neg hkey] at hnew
        exact hnew

/-! ### Verdicts -/

variable {call : PredicateCall}

theorem verdict_congr {payload payload' : Fields}
    (h : strAt payload call.arg = strAt payload' call.arg) :
    verdict view playerId call payload = verdict view playerId call payload' := by
  unfold verdict
  cases hpred : predicates call.predicate with
  | none => rfl
  | some pred => exact eq_of_strAt_eq hpred rfl rfl rfl h

theorem eq_verdict_of_evalCall {payload : Fields} {holds : Bool}
    (h : evalCall view playerId payload call = .ok holds) :
    holds = verdict view playerId call payload := by
  unfold evalCall at h
  unfold verdict
  cases hpred : predicates call.predicate with
  | none =>
    rw [hpred] at h
    simp at h
  | some pred =>
    rw [hpred] at h
    exact (Except.ok.inj h).symm

/-- A path has at least one segment. -/
theorem parse_ne_nil {field : String} : parse field ≠ .ok [] := by
  intro h
  unfold parse at h
  cases hsplit : field.toList.splitOn '.' with
  | nil => exact absurd hsplit (List.splitOnP_ne_nil _ _)
  | cons seg rest =>
    rw [hsplit, List.mapM_cons] at h
    obtain ⟨a, -, h⟩ := bind_eq_ok.mp h
    obtain ⟨b, -, h⟩ := bind_eq_ok.mp h
    cases h

theorem evalCall_eq_ok_iff {payload : Fields} {holds holds' : Bool}
    (h : evalCall view playerId payload call = .ok holds) :
    evalCall view playerId payload call = .ok holds' ↔
      verdict view playerId call payload = holds' := by
  rw [h, ← eq_verdict_of_evalCall h, Except.ok.injEq]

/-! ### Turns -/

/-- A payload between two rules, and what stands in it. -/
structure Stands (st : Standing) (pass : Pass) : Prop where
  value : ∀ key, Json.get? pass.payload key = st.value key
  copied : pass.kept.isSome = st.copied

section Turns

variable {st : Standing} {pass pass' : Pass} {ruleIdx : Nat}

theorem Stands.verdict (h : Stands st pass) (call : PredicateCall) :
    st.verdict view playerId call = Projection.verdict view playerId call pass.payload := by
  refine verdict_congr ?_
  cases hcall : call.arg with
  | none => rfl
  | some key =>
    show Option.bind (Json.get? _ key) Json.str? = Option.bind (Json.get? pass.payload key) Json.str?
    rw [h.value key]
    cases hvalue : st.value key with
    | none => simp [hvalue]
    | some value => simp [hvalue, Json.get?_cons]

/-- **A redaction's turn.** -/
theorem Stands.redactSpec (h : Stands st pass) {spec : RedactSpec}
    (hrun : Projection.redactSpec view playerId ruleIdx pass spec = .ok pass') :
    Stands (st.redact view playerId spec) pass' := by
  unfold Projection.redactSpec at hrun
  obtain ⟨holds, hholds, hrun⟩ := bind_eq_ok.mp hrun
  have hverdict : holds = st.verdict view playerId spec.«unless» :=
    (eq_verdict_of_evalCall hholds).trans (h.verdict _).symm
  unfold Standing.redact
  cases holds with
  | true =>
    cases hrun
    rw [← hverdict, Bool.or_true, if_pos rfl]
    exact h
  | false =>
    rw [← hverdict, Bool.or_false]
    rcases hpath : parse spec.field with e | _ | ⟨seg, rest⟩
    · rw [hpath] at hrun
      cases hrun
    · exact absurd hpath parse_ne_nil
    · rw [hpath] at hrun
      cases hrun
      cases hkept : pass.kept with
      | none =>
        have hcopied : st.copied = false := by
          rw [← h.copied, hkept]
          rfl
        have hpayload : pass.payload = pass.working := by
          rw [Pass.payload, hkept]
          rfl
        rw [hcopied, if_neg (by simp)]
        refine ⟨fun key => ?_, hcopied.symm⟩
        show Json.get? (maskFields (seg :: rest) spec.mask pass.working) key = _
        rw [get?_maskFields, ← hpayload, h.value key]
        rfl
      | some payload =>
        have hcopied : st.copied = true := by
          rw [← h.copied, hkept]
          rfl
        have hpayload : pass.payload = payload := by
          rw [Pass.payload, hkept]
          rfl
        rw [hcopied, if_pos rfl]
        refine ⟨fun key => ?_, hcopied.symm⟩
        rw [← h.value key, hpayload]
        rfl

/-- **A visibility tag's turn.** -/
theorem Stands.applyVisibility (h : Stands st pass)
    (hrun : Projection.applyVisibility playerId ruleIdx pass = .ok (some pass')) :
    Stands (st.take view playerId .shape) pass' := by
  -- what stands is not changed, and the payload is copied or not
  have hsame : ∀ {pass'' : Pass} {copied : Bool}, pass''.payload = pass.payload →
      pass''.kept.isSome = (st.copied || copied) → st.copies playerId = copied →
      Stands (st.take view playerId .shape) pass'' := by
    intro pass'' copied hpayload hkept hcopies
    refine ⟨fun key => ?_, ?_⟩
    · rw [hpayload]
      exact h.value key
    · show _ = (st.copied || st.copies playerId)
      rw [hkept, hcopies]
  unfold Standing.copies at hsame
  rw [← h.value "_visibility", ← h.value "spans"] at hsame
  unfold Projection.applyVisibility at hrun
  split at hrun
  · rename_i viz hviz
    rw [hviz] at hsame
    dsimp only at hrun hsame
    split at hrun
    · cases hrun
    · split at hrun
      · rename_i fidelityMap hmap
        rw [hmap] at hsame
        dsimp only at hsame
        split at hrun
        · rename_i htruthy
          obtain ⟨copied, hcopied, hrun⟩ := bind_eq_ok.mp hrun
          have hpass : pass'.payload = pass.payload ∧
              pass'.kept.isSome = (st.copied || copied.isSome) := by
            rw [← h.copied]
            cases copied with
            | none =>
              cases hrun
              exact ⟨rfl, (Bool.or_false _).symm⟩
            | some copy =>
              cases hrun
              exact ⟨rfl, (Bool.or_true _).symm⟩
          cases hkept : st.copied with
          | true => exact hsame hpass.1 (by rw [hpass.2, hkept]; rfl) rfl
          | false =>
            -- the rules still read the payload that they mask
            have hpayload : pass.payload = pass.working := by
              have hnone := Option.isSome_eq_false_iff.mp (h.copied.trans hkept)
              rw [Pass.payload, Option.isNone_iff_eq_none.mp hnone]
              rfl
            refine hsame hpass.1 hpass.2 ?_
            rw [htruthy, Bool.true_and, hpayload]
            unfold Projection.applyFidelity at hcopied
            generalize (Json.get? fidelityMap playerId).getD .null = fidelity at hcopied ⊢
            by_cases hfull : fidelity.str? = some "full"
            · rw [if_pos hfull] at hcopied
              cases hcopied
              rw [decide_eq_false (not_not.mpr hfull)]
              rfl
            · rw [if_neg hfull] at hcopied
              rw [decide_eq_true hfull, Bool.true_and]
              cases hspans : Json.get? pass.working "spans" with
              | none =>
                rw [hspans] at hcopied
                cases hcopied
                rfl
              | some value =>
                rw [hspans] at hcopied
                cases value with
                | arr spans =>
                  obtain ⟨filtered, -, hcopied⟩ := bind_eq_ok.mp hcopied
                  cases hcopied
                  rfl
                | _ =>
                  cases hcopied
                  rfl
        · rename_i hfalsy
          cases hrun
          exact hsame rfl (by rw [Bool.or_false]; exact h.copied)
            (by rw [Bool.eq_false_iff.mpr hfalsy]; rfl)
      · cases hrun
  · rename_i hnone
    cases hrun
    refine hsame rfl (by rw [Bool.or_false]; exact h.copied) ?_
    split
    · rename_i viz hviz
      exact absurd hviz (hnone viz)
    · rfl

end Turns

/-! ### Rules and rule lists -/

section Lists

variable {st : Standing} {pass pass' : Pass} {ruleIdx : Nat} {canonical : Fields}

/-- **Some redactions** are carried out exactly if none is misled. -/
theorem Stands.redactsAll_iff (h : Stands st pass) {specs : List RedactSpec}
    (hrun : specs.foldlM (Projection.redactSpec view playerId ruleIdx) pass = .ok pass') :
    (RedactsAll view playerId canonical ruleIdx specs pass ↔
      StepsMeet (Standing.take view playerId)
        (Standing.NotMisled view playerId canonical) st (specs.map .redact)) ∧
      Stands (run (Standing.take view playerId) st (specs.map .redact)) pass' := by
  induction specs generalizing st pass with
  | nil =>
    cases hrun
    exact ⟨Iff.rfl, h⟩
  | cons spec specs ih =>
    rw [List.foldlM_cons] at hrun
    obtain ⟨next, hnext, hrun⟩ := bind_eq_ok.mp hrun
    obtain ⟨hiff, hstands⟩ := ih (h.redactSpec hnext) hrun
    refine ⟨?_, hstands⟩
    obtain ⟨holds, hholds, -⟩ := bind_eq_ok.mp hnext
    refine and_congr ?_ ?_
    · rw [evalCall_eq_ok_iff hholds, ← h.verdict]
      rfl
    · refine Iff.trans ⟨fun hall => hall next hnext, fun hall next' hnext' => ?_⟩ hiff
      cases hnext.symm.trans hnext'
      exact hall

/-- **One rule.** -/
theorem Stands.redactsAll_rule_iff (h : Stands st pass) {rule : ProjectionRule}
    (hrun : applyRule view playerId pass ruleIdx rule = .ok (some pass')) :
    (RedactsAll view playerId canonical ruleIdx rule.specs pass ↔
      StepsMeet (Standing.take view playerId)
        (Standing.NotMisled view playerId canonical) st rule.turns) ∧
      Stands (run (Standing.take view playerId) st rule.turns) pass' := by
  cases rule with
  | visibilityTag kind => exact ⟨iff_of_true trivial ⟨trivial, trivial⟩, @Stands.applyVisibility view _ _ _ _ _ h hrun⟩
  | targetOnly kind field =>
    have hpass := Except.ok.inj hrun
    split at hpass
    · cases hpass
      exact ⟨Iff.rfl, h⟩
    · cases hpass
  | includeIf kind call =>
    obtain ⟨holds, -, hrun⟩ := bind_eq_ok.mp hrun
    have hpass := Except.ok.inj hrun
    split at hpass
    · cases hpass
      exact ⟨Iff.rfl, h⟩
    · cases hpass
  | redactFields kind redacts =>
    obtain ⟨pass'', hfold, hrun⟩ := bind_eq_ok.mp hrun
    cases hrun
    exact h.redactsAll_iff hfold

/-- **A list of rules** that lets the envelope pass carries its redactions out exactly if none is
    misled. -/
theorem Stands.carriedOut_iff (h : Stands st pass) {rules : List (ProjectionRule × Nat)}
    (hrun : applyRules view playerId rules pass = .ok (.inr pass')) :
    CarriedOut view playerId canonical rules pass ↔
      StepsMeet (Standing.take view playerId)
        (Standing.NotMisled view playerId canonical) st (rules.flatMap (fun r => r.1.turns)) := by
  induction rules generalizing st pass with
  | nil => exact Iff.rfl
  | cons r rest ih =>
    obtain ⟨rule, ruleIdx⟩ := r
    obtain ⟨next, hnext, hrun⟩ := bind_eq_ok.mp hrun
    cases next with
    | none => cases hrun
    | some pass'' =>
      obtain ⟨hiff, hstands⟩ := @Stands.redactsAll_rule_iff _ _ _ _ _ _ canonical h _ hnext
      rw [List.flatMap_cons, stepsMeet_append, ← hiff, ← ih hstands hrun]
      refine and_congr_right (fun _ => ⟨fun hall => hall pass'' hnext, fun hall next' hnext' => ?_⟩)
      cases hnext.symm.trans hnext'
      exact hall

end Lists

/-! ### What is masked -/

/-- Of some redactions, those whose predicates are false on the canonical payload leave nothing but
    masks to read, under any field but the spans, which a visibility tag shapes. -/
def Masked (view : GameStateView) (playerId : String) (canonical : Fields) (masks : List Json)
    (specs : List RedactSpec) (fields : Fields) : Prop :=
  ∀ spec ∈ specs, verdict view playerId spec.«unless» canonical = false →
    ∃ path, parse spec.field = .ok path ∧
      (path.head?.map Segment.name ≠ some "spans" → MaskedAt masks path (.obj fields))

section Masked

variable {canonical : Fields} {masks : List Json} {taken : List RedactSpec} {pass pass' : Pass}
  {ruleIdx : Nat}

theorem Masked.mask {fields : Fields} (h : Masked view playerId canonical masks taken fields)
    {mask : Json} (hmask : mask ∈ masks) (seg : Segment) (rest : List Segment) :
    Masked view playerId canonical masks taken (maskFields (seg :: rest) mask fields) := by
  intro spec hspec hfalse
  obtain ⟨path, hpath, hmasked⟩ := h spec hspec hfalse
  refine ⟨path, hpath, fun hspans => ?_⟩
  rw [← maskFields_eq]
  exact (hmasked hspans).applyMask hmask (seg :: rest)

/-- A redaction that is carried out masks its field, and leaves the others masked. -/
theorem Masked.redactSpec (h : Masked view playerId canonical masks taken pass.working)
    {spec : RedactSpec} (hmask : spec.mask ∈ masks)
    (hdone : verdict view playerId spec.«unless» canonical = false →
      evalCall view playerId pass.payload spec.«unless» = .ok false)
    (hrun : Projection.redactSpec view playerId ruleIdx pass spec = .ok pass') :
    Masked view playerId canonical masks (taken ++ [spec]) pass'.working := by
  unfold Projection.redactSpec at hrun
  obtain ⟨holds, hholds, hrun⟩ := bind_eq_ok.mp hrun
  cases holds with
  | true =>
    cases hrun
    intro s hs hfalse
    rcases List.mem_append.mp hs with hs | hs
    · exact h s hs hfalse
    · rw [List.mem_singleton.mp hs] at hfalse
      cases hholds.symm.trans (hdone hfalse)
  | false =>
    rcases hpath : parse spec.field with e | _ | ⟨seg, rest⟩
    · rw [hpath] at hrun
      cases hrun
    · exact absurd hpath parse_ne_nil
    · rw [hpath] at hrun
      cases hrun
      intro s hs hfalse
      rcases List.mem_append.mp hs with hs | hs
      · exact h.mask hmask seg rest s hs hfalse
      · rw [List.mem_singleton.mp hs]
        refine ⟨seg :: rest, hpath, fun _ => ?_⟩
        rw [← maskFields_eq]
        exact maskedAt_applyMask (by simp) hmask _

/-- A copy shaped to a fidelity has all members of the original but the spans. -/
theorem get?_of_applyFidelity {fields copy : Fields} {fidelity : Json}
    (hrun : applyFidelity fields fidelity = .ok (some copy)) {key : String} (hkey : key ≠ "spans") :
    Json.get? copy key = Json.get? fields key := by
  unfold applyFidelity at hrun
  split at hrun
  · cases hrun
  · split at hrun
    · rename_i spans hspans
      obtain ⟨filtered, -, hrun⟩ := bind_eq_ok.mp hrun
      rw [← Option.some.inj (Except.ok.inj hrun), Json.get?_set _ _ (by rw [hspans]; rfl),
        if_neg hkey]
    · cases hrun

theorem Masked.applyVisibility (h : Masked view playerId canonical masks taken pass.working)
    (hrun : Projection.applyVisibility playerId ruleIdx pass = .ok (some pass')) :
    Masked view playerId canonical masks taken pass'.working := by
  unfold Projection.applyVisibility at hrun
  split at hrun
  · dsimp only at hrun
    split at hrun
    · cases hrun
    · split at hrun
      · split at hrun
        · obtain ⟨copied, hcopied, hrun⟩ := bind_eq_ok.mp hrun
          cases copied with
          | none =>
            cases hrun
            exact h
          | some copy =>
            cases hrun
            intro spec hspec hfalse
            obtain ⟨path, hpath, hmasked⟩ := h spec hspec hfalse
            refine ⟨path, hpath, fun hspans => ?_⟩
            have hne : path ≠ [] := by
              rintro rfl
              exact parse_ne_nil hpath
            obtain ⟨seg, rest, rfl⟩ := List.exists_cons_of_ne_nil hne
            have hkey : seg.name ≠ "spans" := fun hname => hspans (congrArg some hname)
            intro v hv
            rw [readPath_obj, get?_of_applyFidelity hcopied hkey, ← readPath_obj] at hv
            exact hmasked hspans v hv
        · cases hrun
          exact h
      · cases hrun
  · cases hrun
    exact h

theorem Masked.redactsAll (h : Masked view playerId canonical masks taken pass.working)
    {specs : List RedactSpec} (hmasks : ∀ spec ∈ specs, spec.mask ∈ masks)
    (hdone : RedactsAll view playerId canonical ruleIdx specs pass)
    (hrun : specs.foldlM (Projection.redactSpec view playerId ruleIdx) pass = .ok pass') :
    Masked view playerId canonical masks (taken ++ specs) pass'.working := by
  induction specs generalizing taken pass with
  | nil =>
    cases hrun
    rw [List.append_nil]
    exact h
  | cons spec specs ih =>
    rw [List.foldlM_cons] at hrun
    obtain ⟨next, hnext, hrun⟩ := bind_eq_ok.mp hrun
    rw [List.append_cons]
    exact ih (h.redactSpec (hmasks spec (.head _)) hdone.1 hnext)
      (fun s hs => hmasks s (.tail spec hs)) (hdone.2 next hnext) hrun

theorem Masked.applyRule (h : Masked view playerId canonical masks taken pass.working)
    {rule : ProjectionRule} (hmasks : ∀ spec ∈ rule.specs, spec.mask ∈ masks)
    (hdone : RedactsAll view playerId canonical ruleIdx rule.specs pass)
    (hrun : Projection.applyRule view playerId pass ruleIdx rule = .ok (some pass')) :
    Masked view playerId canonical masks (taken ++ rule.specs) pass'.working := by
  cases rule with
  | visibilityTag kind =>
    show Masked view playerId canonical masks (taken ++ []) pass'.working
    rw [List.append_nil]
    exact h.applyVisibility hrun
  | targetOnly kind field =>
    show Masked view playerId canonical masks (taken ++ []) pass'.working
    rw [List.append_nil]
    have hpass := Except.ok.inj hrun
    split at hpass
    · cases hpass
      exact h
    · cases hpass
  | includeIf kind call =>
    show Masked view playerId canonical masks (taken ++ []) pass'.working
    rw [List.append_nil]
    obtain ⟨holds, -, hrun⟩ := bind_eq_ok.mp hrun
    have hpass := Except.ok.inj hrun
    split at hpass
    · cases hpass
      exact h
    · cases hpass
  | redactFields kind redacts =>
    obtain ⟨pass'', hfold, hrun⟩ := bind_eq_ok.mp hrun
    cases hrun
    exact h.redactsAll hmasks hdone hfold

/-- **Redactions that are carried out** leave nothing but masks to read. -/
theorem Masked.applyRules (h : Masked view playerId canonical masks taken pass.working)
    {rules : List (ProjectionRule × Nat)}
    (hmasks : ∀ spec ∈ redactions rules, spec.mask ∈ masks)
    (hdone : CarriedOut view playerId canonical rules pass)
    (hrun : Projection.applyRules view playerId rules pass = .ok (.inr pass')) :
    Masked view playerId canonical masks (taken ++ redactions rules) pass'.working := by
  induction rules generalizing taken pass with
  | nil =>
    cases hrun
    show Masked view playerId canonical masks (taken ++ []) pass'.working
    rw [List.append_nil]
    exact h
  | cons r rest ih =>
    obtain ⟨rule, ruleIdx⟩ := r
    obtain ⟨next, hnext, hrun⟩ := bind_eq_ok.mp hrun
    cases next with
    | none => cases hrun
    | some pass'' =>
      rw [redactions, List.flatMap_cons, ← List.append_assoc]
      rw [redactions, List.flatMap_cons] at hmasks
      exact ih (h.applyRule (fun spec hspec => hmasks spec (List.mem_append_left _ hspec)) hdone.1
        hnext) (fun spec hspec => hmasks spec (List.mem_append_right _ hspec))
        (hdone.2 pass'' hnext) hrun

end Masked

/-! ### The projected payload -/

/-- **Masked in every order.** The redactions whose predicates are false on the canonical payload
    are carried out exactly if no mask turns a predicate true; and then their fields read nothing but
    masks in the projected payload. -/
theorem redacted_iff_noneMisled (codec : JsonCodec) (rules : ProjectionRules)
    (envelope : MessageEnvelope) (view : GameStateView) (playerId : String) {payload : Fields}
    {result : GenreEvalResult} (hloads : codec.loads envelope.payloadJson = .ok payload)
    (heval : GenreRuleStage.evaluate codec rules envelope view playerId = .ok result)
    (hincluded : result.decision.included = true) :
    (CarriedOut view playerId payload (rules.byKind envelope.kind) { working := payload } ↔
      NoneMisled view playerId payload (rules.byKind envelope.kind)) ∧
    (NoneMisled view playerId payload (rules.byKind envelope.kind) →
      (rules.byKind envelope.kind).isEmpty = true ∨
      ∃ working, result.decision.payloadJson = codec.dumps working ∧
        Masked view playerId payload ((redactions (rules.byKind envelope.kind)).map RedactSpec.mask)
          (redactions (rules.byKind envelope.kind)) working) := by
  have hstart : Stands (.canonical payload) { working := payload } := ⟨fun _ => rfl, rfl⟩
  unfold GenreRuleStage.evaluate at heval
  by_cases hempty : (rules.byKind envelope.kind).isEmpty = true
  · rw [List.isEmpty_iff.mp hempty]
    exact ⟨Iff.rfl, fun _ => .inl rfl⟩
  · rw [if_neg hempty, hloads] at heval
    obtain ⟨outcome, hrun, hresult⟩ := bind_eq_ok.mp heval
    cases outcome with
    | inl ruleIdx =>
      rw [← Except.ok.inj hresult] at hincluded
      cases hincluded
    | inr pass =>
      have hiff := @Stands.carriedOut_iff _ _ _ _ _ payload hstart _ hrun
      refine ⟨hiff, fun hnone => .inr ⟨pass.working, by rw [← Except.ok.inj hresult], ?_⟩⟩
      have hinit : Masked view playerId payload
          ((redactions (rules.byKind envelope.kind)).map RedactSpec.mask) [] payload :=
        fun _ hnil => nomatch hnil
      exact @Masked.applyRules _ _ _ _ [] { working := payload } pass hinit _
        (fun spec hspec => List.mem_map_of_mem hspec) (hiff.mpr hnone) hrun

/-! ### Two redactions of a scrapbook entry -/

/-- The scrapbook entry's kind and the flattened schema of its payload. -/
def scrapbookRegistry : MessageRegistry where
  messageTypes := ["NARRATION", "SCRAPBOOK_ENTRY"]
  schemas := (Dict.empty : Dict String (Dict String FieldType)).insert "SCRAPBOOK_ENTRY"
    ([("turn_id", .number), ("location", .str), ("narrative_excerpt", .str),
      ("scene_title", .str), ("scene_type", .str), ("image_url", .str), ("world_facts", .list),
      ("world_facts[*]", .str), ("npcs_present", .list),
      ("npcs_present[*].name", .str), ("npcs_present[*].role", .str),
      ("npcs_present[*].disposition", .str), ("npcs_present[*].portrait_url", .str),
      ("seq", .number), ("render_status", .other)].foldl
      (fun schema p => schema.insert p.1 p.2) Dict.empty)

/-- Only the character the entry is about sees its title. -/
def titleSpec : RedactSpec := ⟨"scene_title", ⟨"is_self", some "scene_title"⟩, .str "The Stranger"⟩

/-- Only the character the entry is about sees what was said. -/
def excerptSpec : RedactSpec := ⟨"narrative_excerpt", ⟨"is_self", some "scene_title"⟩, .str "..."⟩

/-- The members of a scrapbook entry about Gil. -/
def gilsEntry : Fields :=
  [("turn_id", .num 3), ("location", .str "Vault"), ("narrative_excerpt", .str "The code is 194"),
    ("scene_title", .str "Gil")]

/-- The text of a JSON object whose members are integers and plain strings. -/
def flatText (fields : Fields) : String :=
  let member (p : String × Json) : String :=
    match p.2 with
    | .num q => "\"" ++ p.1 ++ "\": " ++ toString q.num
    | .str s => "\"" ++ p.1 ++ "\": \"" ++ s ++ "\""
    | _ => "\"" ++ p.1 ++ "\": null"
  "\x7b" ++ ", ".intercalate (fields.map member) ++ "\x7d"

/-- The envelope of Gil's entry. -/
def gilsEnvelope : MessageEnvelope := ⟨"SCRAPBOOK_ENTRY", flatText gilsEntry⟩

/-- The codec on Gil's entry. -/
def gilsCodec : JsonCodec where
  loads text :=
    if text = flatText gilsEntry then .ok gilsEntry
    else .error "Expecting value: line 1 column 1 (char 0)"
  dumps := flatText

/-- A session where every player plays a character called "The Stranger". -/
def strangersView : GameStateView :=
  ⟨fun _ => some "The Stranger", fun _ => none, fun _ _ => false, fun _ => none, fun _ => none⟩

/-- What the two redactions leave of Gil's entry for another player when the title comes first. -/
def unmaskedEntry : Fields :=
  [("turn_id", .num 3), ("location", .str "Vault"), ("narrative_excerpt", .str "The code is 194"),
    ("scene_title", .str "The Stranger")]

/-- Where every mask is a string, a masked field reads a mask. -/
theorem MaskMade.mem_masks {masks : List Json} {v : Json} (h : MaskMade masks v)
    (hstr : ∀ m ∈ masks, ∃ s, m = .str s) : v ∈ masks := by
  have hflat : ∀ {v : Json}, v ∈ masks →
      (∀ xs, v ≠ .arr xs) ∧ (∀ fields, v ≠ .obj fields) := by
    intro v hv
    obtain ⟨s, rfl⟩ := hstr v hv
    exact ⟨by simp, by simp⟩
  induction h with
  | mask hm => exact hm
  | element _ _ ih => exact absurd rfl ((hflat ih).1 _)
  | member _ _ ih => exact absurd rfl ((hflat ih).2 _)
  | masked path _ _ ih =>
    obtain ⟨s, rfl⟩ := hstr _ ih
    cases path <;> exact ih
  | filled _ _ ih => exact absurd rfl ((hflat ih).1 _)
  | elements _ _ _ ih => exact absurd rfl ((hflat ih).1 _)

/-- **A mask unmasks.** Bob's character bears the name that stands in for the masked title, and so
    the excerpt reaches him; in the other order it does not. -/
theorem not_redacted_of_mask :
    let rules : ProjectionRules := ⟨[.redactFields "SCRAPBOOK_ENTRY" [titleSpec, excerptSpec]]⟩
    let swapped : ProjectionRules := ⟨[.redactFields "SCRAPBOOK_ENTRY" [excerptSpec, titleSpec]]⟩
    validateProjectionRules scrapbookRegistry rules = .ok () ∧
    validateProjectionRules scrapbookRegistry swapped = .ok () ∧
    gilsCodec.loads gilsEnvelope.payloadJson = .ok gilsEntry ∧
    verdict strangersView "bob" excerptSpec.«unless» gilsEntry = false ∧
    GenreRuleStage.evaluate gilsCodec rules gilsEnvelope strangersView "bob"
      = .ok ⟨⟨true, gilsCodec.dumps unmaskedEntry⟩, some 0⟩ ∧
    parse excerptSpec.field = .ok [⟨"narrative_excerpt", false⟩] ∧
    ¬ MaskedAt [titleSpec.mask, excerptSpec.mask] [⟨"narrative_excerpt", false⟩]
      (.obj unmaskedEntry) ∧
    GenreRuleStage.evaluate gilsCodec swapped gilsEnvelope strangersView "bob"
      = .ok ⟨⟨true, gilsCodec.dumps (Json.set unmaskedEntry "narrative_excerpt" (.str "..."))⟩,
        some 0⟩ := by
  refine ⟨by rfl, by rfl, by rfl, by decide, by rfl, by rfl, ?_, by rfl⟩
  intro h
  have hread : MaskMade [titleSpec.mask, excerptSpec.mask] (.str "The code is 194") :=
    h _ List.mem_cons_self
  have hmask := hread.mem_masks (by simp [titleSpec, excerptSpec])
  simp [titleSpec, excerptSpec] at hmask

/-- With the excerpt first no mask reaches its predicate: both fields are masked for Bob. -/
theorem redacted_of_excerpt_first :
    let rules : ProjectionRules := ⟨[.redactFields "SCRAPBOOK_ENTRY" [excerptSpec, titleSpec]]⟩
    CarriedOut strangersView "bob" gilsEntry (rules.byKind "SCRAPBOOK_ENTRY")
        { working := gilsEntry } ∧
      ∃ working, flatText (Json.set unmaskedEntry "narrative_excerpt" (.str "..."))
        = flatText working ∧
        Masked strangersView "bob" gilsEntry [excerptSpec.mask, titleSpec.mask]
          [excerptSpec, titleSpec] working := by
  obtain ⟨hiff, hmasked⟩ := @redacted_iff_noneMisled gilsCodec
    ⟨[.redactFields "SCRAPBOOK_ENTRY" [excerptSpec, titleSpec]]⟩ gilsEnvelope strangersView "bob"
    gilsEntry ⟨⟨true, _⟩, some 0⟩ rfl (by rfl) rfl
  have hnone : NoneMisled strangersView "bob" gilsEntry
      [(.redactFields "SCRAPBOOK_ENTRY" [excerptSpec, titleSpec], 0)] := by
    decide
  exact ⟨hiff.mpr hnone, (hmasked hnone).resolve_left (by decide)⟩

end Sidequest.Projection
