import Sidequest.Lib.Hops

namespace Sidequest.Lib

/-!
# Spreading labels

Labels are spread over a graph from some vertices that have one: what waits is taken one by one, and
every neighbour without a label is given one and waits. What waits may be a stack or a queue. With a
queue that begins sorted by label, every vertex gets the label it is nearest to, and the least one
where several are equally near.

* `claim`, `spread` — one neighbour, and the loop; `claimed_foldl` — all neighbours of a vertex;
* `Nearest`, `Nearing` — the nearest labels, and what the loop keeps; `spread_nearest`.
-/

section

universe u v

variable {α : Type u} {β : Type v} [DecidableEq α]

/-- Give a vertex a label, unless it has one; it waits then. -/
def claim (put : List α → α → List α) (name : β) (found : Dict α β × List α) (w : α) :
    Dict α β × List α :=
  if w ∈ found.1.keys then found else (found.1.insert w name, put found.2 w)

/-- The loop, for a number of rounds. The label to spread is read off where the round starts. -/
def spread (adj : α → List α) (put : List α → α → List α) (name : Dict α β → α → β) :
    Nat → Dict α β → List α → Dict α β
  | 0, labels, _ => labels
  | _ + 1, labels, [] => labels
  | rounds + 1, labels, v :: waiting =>
    let found := (adj v).foldl (claim put (name labels v)) (labels, waiting)
    spread adj put name rounds found.1 found.2

/-- The last one comes first. -/
def push (waiting : List α) (w : α) : List α := w :: waiting

/-- The last one comes last. -/
def enqueue (waiting : List α) (w : α) : List α := waiting ++ [w]

/-- Adding to what waits adds just that. -/
def Adds (put : List α → α → List α) : Prop := ∀ waiting w, (put waiting w).Perm (w :: waiting)

omit [DecidableEq α] in
theorem adds_push : Adds (push (α := α)) := fun _ _ => List.Perm.refl _

omit [DecidableEq α] in
theorem adds_enqueue : Adds (enqueue (α := α)) := fun waiting w => List.perm_append_singleton w waiting

/-! ### One vertex -/

/-- What labelling the vertices `l` does: nothing is relabelled, all of `l` have a label, and the
    new labels are `name`, on vertices that wait. -/
structure Claimed (name : β) (l : List α) (found found' : Dict α β × List α) : Prop where
  kept : ∀ v b, found.1.get? v = some b → found'.1.get? v = some b
  done : ∀ v ∈ l, v ∈ found'.1.keys
  new : ∀ v b, found'.1.get? v = some b → found.1.get? v = some b ∨
    (v ∈ l ∧ v ∉ found.1.keys ∧ b = name ∧ v ∈ found'.2)
  waiting : ∀ v ∈ found.2, v ∈ found'.2
  fresh : ∀ v ∈ found'.2, v ∈ found.2 ∨ (v ∈ l ∧ v ∉ found.1.keys ∧ found'.1.get? v = some name)
  length : found'.2.length + found.1.keys.length = found.2.length + found'.1.keys.length

section Claim

variable {put : List α → α → List α} (hput : Adds put)

variable (name : β)

theorem Claimed.refl (found : Dict α β × List α) : Claimed name [] found found :=
  ⟨fun _ _ h => h, fun _ h => absurd h List.not_mem_nil, fun _ _ h => .inl h, fun _ h => h,
    fun _ h => .inl h, rfl⟩

/-- What is labelled stays labelled. -/
theorem Claimed.keys {name : β} {l : List α} {found found' : Dict α β × List α}
    (h : Claimed name l found found') {v : α} (hv : v ∈ found.1.keys) : v ∈ found'.1.keys := by
  obtain ⟨b, hb⟩ := Dict.mem_keys_iff_get?.mp hv
  exact Dict.mem_keys_of_get? (h.kept v b hb)

include hput in
theorem claimed_claim (found : Dict α β × List α) (w : α) :
    Claimed name [w] found (claim put name found w) := by
  unfold claim
  by_cases hw : w ∈ found.1.keys
  · rw [if_pos hw]
    exact ⟨fun v b h => h, fun v hv => List.mem_singleton.mp hv ▸ hw, fun v b h => .inl h,
      fun v h => h, fun v h => .inl h, rfl⟩
  · rw [if_neg hw]
    have hmem : ∀ v, v ∈ put found.2 w ↔ v = w ∨ v ∈ found.2 := fun v => by
      rw [(hput found.2 w).mem_iff, List.mem_cons]
    have hself : (found.1.insert w name).get? w = some name := by
      rw [Dict.get?_insert, if_pos rfl]
    refine ⟨fun v b h => ?_, fun v hv => ?_, fun v b h => ?_, fun v h => (hmem v).mpr (.inr h),
      fun v h => ?_, ?_⟩
    · dsimp only
      rw [Dict.get?_insert, if_neg]
      · exact h
      · rintro rfl
        exact hw (Dict.mem_keys_of_get? h)
    · rw [List.mem_singleton.mp hv]
      exact Dict.mem_keys_of_get? hself
    · dsimp only at h ⊢
      by_cases hvw : v = w
      · rw [hvw, hself] at h
        exact .inr ⟨List.mem_singleton.mpr hvw, hvw ▸ hw, (Option.some.inj h).symm,
          (hmem v).mpr (.inl hvw)⟩
      · rw [Dict.get?_insert, if_neg hvw] at h
        exact .inl h
    · rcases (hmem v).mp h with rfl | h
      · exact .inr ⟨List.mem_singleton_self v, hw, hself⟩
      · exact .inl h
    · dsimp only
      rw [(hput found.2 w).length_eq, Dict.keys_insert, if_neg hw, List.length_append,
        List.length_cons, List.length_singleton]
      omega

include hput in
/-- **All neighbours** of a vertex. -/
theorem claimed_foldl (l : List α) (found : Dict α β × List α) :
    Claimed name l found (l.foldl (claim put name) found) := by
  induction l generalizing found with
  | nil => exact Claimed.refl name found
  | cons w l ih =>
    have hone := claimed_claim hput name found w
    have hrest := ih (claim put name found w)
    rw [List.foldl_cons]
    refine ⟨fun v b h => hrest.kept v b (hone.kept v b h), fun v hv => ?_, fun v b h => ?_,
      fun v h => hrest.waiting v (hone.waiting v h), fun v h => ?_, ?_⟩
    · rcases List.mem_cons.mp hv with rfl | hv
      · exact hrest.keys (hone.done v (List.mem_singleton_self v))
      · exact hrest.done v hv
    · rcases hrest.new v b h with h | ⟨hv, hfresh, hname, hwait⟩
      · rcases hone.new v b h with h | ⟨hv, hfresh, hname, hwait⟩
        · exact .inl h
        · refine .inr ⟨?_, hfresh, hname, hrest.waiting v hwait⟩
          rw [List.mem_singleton.mp hv]
          exact .head _
      · exact .inr ⟨.tail w hv, fun hkey => hfresh (hone.keys hkey), hname, hwait⟩
    · rcases hrest.fresh v h with h | ⟨hv, hfresh, hname⟩
      · rcases hone.fresh v h with h | ⟨hv, hfresh, hname⟩
        · exact .inl h
        · refine .inr ⟨?_, hfresh, hrest.kept v name hname⟩
          rw [List.mem_singleton.mp hv]
          exact .head _
      · exact .inr ⟨.tail w hv, fun hkey => hfresh (hone.keys hkey), hname⟩
    · have hlength := hone.length
      have hlength' := hrest.length
      omega

end Claim

/-! ### The loop -/

/-- What the loop keeps, whatever is spread: nothing is relabelled, and the neighbours of what does
    not wait any more have labels. -/
structure Spreading (adj : α → List α) (vertices : List α) (start labels : Dict α β)
    (waiting : List α) : Prop where
  kept : ∀ v b, start.get? v = some b → labels.get? v = some b
  within : ∀ v ∈ labels.keys, v ∈ vertices
  queued : ∀ v ∈ waiting, v ∈ labels.keys
  settled : ∀ v ∈ labels.keys, v ∈ waiting ∨ ∀ w ∈ adj v, w ∈ labels.keys

section Loop

variable {adj : α → List α} {vertices : List α} {put : List α → α → List α}
  {start : Dict α β}

/-- **One round.** -/
theorem Spreading.round (hadj : ∀ v ∈ vertices, ∀ w ∈ adj v, w ∈ vertices) {labels : Dict α β}
    {v : α} {waiting : List α} (h : Spreading adj vertices start labels (v :: waiting)) {b : β}
    {found : Dict α β × List α} (hclaimed : Claimed b (adj v) (labels, waiting) found) :
    Spreading adj vertices start found.1 found.2 := by
  have hv := h.within v (h.queued v (.head _))
  refine ⟨fun w c hc => hclaimed.kept w c (h.kept w c hc), fun w hw => ?_, fun w hw => ?_,
    fun w hw => ?_⟩
  · obtain ⟨c, hc⟩ := Dict.mem_keys_iff_get?.mp hw
    rcases hclaimed.new w c hc with hold | ⟨hmem, -⟩
    · exact h.within w (Dict.mem_keys_of_get? hold)
    · exact hadj v hv w hmem
  · rcases hclaimed.fresh w hw with hold | ⟨-, -, hname⟩
    · exact hclaimed.keys (h.queued w (.tail v hold))
    · exact Dict.mem_keys_of_get? hname
  · obtain ⟨c, hc⟩ := Dict.mem_keys_iff_get?.mp hw
    rcases hclaimed.new w c hc with hold | ⟨-, -, -, hwait⟩
    · rcases h.settled w (Dict.mem_keys_of_get? hold) with hwait | hdone
      · rcases List.mem_cons.mp hwait with rfl | hwait
        · exact .inr hclaimed.done
        · exact .inl (hclaimed.waiting w hwait)
      · exact .inr (fun x hx => hclaimed.keys (hdone x hx))
    · exact .inl hwait

/-- **The loop.** With enough rounds left, what every round keeps holds when nothing waits any
    more. -/
theorem spread_induct (name : Dict α β → α → β) (hput : Adds put) (hadj : ∀ v ∈ vertices, ∀ w ∈ adj v, w ∈ vertices)
    {P : Dict α β → List α → Prop}
    (hround : ∀ labels v waiting, Spreading adj vertices start labels (v :: waiting) →
      P labels (v :: waiting) → P ((adj v).foldl (claim put (name labels v)) (labels, waiting)).1
        ((adj v).foldl (claim put (name labels v)) (labels, waiting)).2)
    (rounds : Nat) (labels : Dict α β) (waiting : List α)
    (hspreading : Spreading adj vertices start labels waiting) (h : P labels waiting)
    (hrounds : vertices.length + waiting.length ≤ rounds + labels.keys.length) :
    Spreading adj vertices start (spread adj put name rounds labels waiting) [] ∧
      P (spread adj put name rounds labels waiting) [] := by
  induction rounds generalizing labels waiting with
  | zero =>
    -- there is no vertex left that could wait
    have hle : labels.keys.length ≤ vertices.length :=
      (List.subperm_of_subset labels.nodup_keys hspreading.within).length_le
    obtain rfl : waiting = [] := List.length_eq_zero_iff.mp (by omega)
    exact ⟨hspreading, h⟩
  | succ rounds ih =>
    cases waiting with
    | nil => exact ⟨hspreading, h⟩
    | cons v waiting =>
      have hclaimed := claimed_foldl hput (name labels v) (adj v) (labels, waiting)
      refine ih _ _ (hspreading.round hadj hclaimed) (hround labels v waiting hspreading h) ?_
      have hlength := hclaimed.length
      rw [List.length_cons] at hrounds
      dsimp only at hlength
      omega

end Loop

/-! ### What hangs together -/

variable (adj : α → List α) (labels : Dict α β)

/-- There is a path through vertices of one label. -/
def Linked (b : β) : α → α → Prop :=
  Relation.ReflTransGen
    (fun u w => w ∈ adj u ∧ labels.get? u = some b ∧ labels.get? w = some b)

/-- Whatever has one label hangs together. -/
def AllLinked : Prop :=
  ∀ b u w, labels.get? u = some b → labels.get? w = some b → Linked adj labels b u w

/-- Neighbours have one label, if they have any. -/
def Uniform : Prop :=
  ∀ v w b c, w ∈ adj v → labels.get? v = some b → labels.get? w = some c → b = c

section Linked

variable {adj adj' : α → List α} {vertices : List α} {labels labels' : Dict α β} {b : β} {u w : α}

theorem Linked.mono (hadj : ∀ u w, w ∈ adj u → w ∈ adj' u)
    (hkept : ∀ v c, labels.get? v = some c → labels'.get? v = some c)
    (h : Linked adj labels b u w) : Linked adj' labels' b u w :=
  Relation.ReflTransGen.mono
    (fun _ _ hstep => ⟨hadj _ _ hstep.1, hkept _ _ hstep.2.1, hkept _ _ hstep.2.2⟩) _ _ h

theorem Linked.symm (hsymm : ∀ u ∈ vertices, ∀ w ∈ adj u, u ∈ adj w)
    (hwithin : ∀ v ∈ labels.keys, v ∈ vertices) (h : Linked adj labels b u w) :
    Linked adj labels b w u := by
  have hswap : Relation.ReflTransGen (Function.swap
      (fun u w => w ∈ adj u ∧ labels.get? u = some b ∧ labels.get? w = some b)) w u :=
    Relation.reflTransGen_swap.mpr h
  refine Relation.ReflTransGen.mono (fun x y hstep => ?_) _ _ hswap
  obtain ⟨hmem, hy, hx⟩ := hstep
  exact ⟨hsymm y (hwithin y (Dict.mem_keys_of_get? hy)) x hmem, hx, hy⟩

/-- **One round** that spreads the label of its vertex keeps what hangs together. -/
theorem AllLinked.round (hsymm : ∀ u ∈ vertices, ∀ w ∈ adj u, u ∈ adj w) {v : α}
    {waiting : List α} {found : Dict α β × List α} (h : AllLinked adj labels)
    (hv : labels.get? v = some b) (hclaimed : Claimed b (adj v) (labels, waiting) found)
    (hwithin : ∀ v ∈ found.1.keys, v ∈ vertices) : AllLinked adj found.1 := by
  have hvnew := hclaimed.kept v b hv
  -- what has the label of the vertex hangs together with it
  have hfrom : ∀ x, found.1.get? x = some b → Linked adj found.1 b v x := by
    intro x hx
    rcases hclaimed.new x b hx with hold | ⟨hmem, -⟩
    · exact (h b v x hv hold).mono (fun _ _ h => h) hclaimed.kept
    · exact Relation.ReflTransGen.single ⟨hmem, hvnew, hx⟩
  intro c x y hx hy
  by_cases hc : c = b
  · rw [hc] at hx hy ⊢
    exact ((hfrom x hx).symm hsymm hwithin).trans (hfrom y hy)
  · have hold : ∀ z, found.1.get? z = some c → labels.get? z = some c := by
      intro z hz
      rcases hclaimed.new z c hz with hold | ⟨-, -, hname, -⟩
      · exact hold
      · exact absurd hname hc
    exact (h c x y (hold x hx) (hold y hy)).mono (fun _ _ h => h) hclaimed.kept

end Linked

/-! ### One spread after the other -/

/-- Spread a label of its own from a vertex, unless it has one. -/
def fillFrom (rounds : Nat) (name : Nat → β) (filled : Dict α β × Nat) (start : α) :
    Dict α β × Nat :=
  if start ∈ filled.1.keys then filled
  else (spread adj push (fun _ _ => name filled.2) rounds (filled.1.insert start (name filled.2))
    [start], filled.2 + 1)

/-- Spread labels from all of the starts. -/
def fill (rounds : Nat) (name : Nat → β) (starts : List α) (filled : Dict α β × Nat) :
    Dict α β × Nat :=
  starts.foldl (fillFrom adj rounds name) filled

/-- What filling keeps: no edge leads out of what is labelled, the labels are those counted, and
    what has one of them hangs together. -/
structure Filled (adj : α → List α) (vertices : List α) (name : Nat → β)
    (filled : Dict α β × Nat) : Prop where
  within : ∀ v ∈ filled.1.keys, v ∈ vertices
  closed : ∀ v ∈ filled.1.keys, ∀ w ∈ adj v, w ∈ filled.1.keys
  counted : ∀ v b, filled.1.get? v = some b → ∃ i < filled.2, b = name i
  linked : AllLinked adj filled.1

/-- What spreading one label keeps: what waits has it, all that is new has it, and what has one label
    still hangs together. -/
structure Filling (adj : α → List α) (old : Dict α β) (b : β) (labels : Dict α β)
    (waiting : List α) : Prop where
  waits : ∀ v ∈ waiting, labels.get? v = some b
  new : ∀ v c, labels.get? v = some c → old.get? v = some c ∨ c = b
  linked : AllLinked adj labels
  uniform : Uniform adj old → Uniform adj labels

section Fill

variable {adj : α → List α} {vertices : List α} {name : Nat → β}

/-- **One round** of a label's spread. -/
theorem Filling.round (hadj : ∀ v ∈ vertices, ∀ w ∈ adj v, w ∈ vertices)
    (hsymm : ∀ u ∈ vertices, ∀ w ∈ adj u, u ∈ adj w) {start old labels : Dict α β} {b : β} {v : α}
    {waiting : List α} (hspreading : Spreading adj vertices start labels (v :: waiting))
    (h : Filling adj old b labels (v :: waiting)) {found : Dict α β × List α}
    (hclaimed : Claimed b (adj v) (labels, waiting) found) : Filling adj old b found.1 found.2 := by
  have hnext := hspreading.round hadj hclaimed
  have hv := h.waits v (.head _)
  refine ⟨fun w hw => ?_, fun w c hc => ?_, h.linked.round hsymm hv hclaimed hnext.within,
    fun hold x y c d hmem hc hd => ?_⟩
  · rcases hclaimed.fresh w hw with hwait | ⟨-, -, hname⟩
    · exact hclaimed.kept w b (h.waits w (.tail v hwait))
    · exact hname
  · rcases hclaimed.new w c hc with hc | ⟨-, -, hname, -⟩
    · exact h.new w c hc
    · exact .inr hname
  · -- what was labelled and has a neighbour that was not still waits, so it has the label
    have hwaits : ∀ z e, labels.get? z = some e → (∃ t ∈ adj z, t ∉ labels.keys) → e = b := by
      rintro z e he ⟨t, ht, hfresh⟩
      rcases hspreading.settled z (Dict.mem_keys_of_get? he) with hwait | hdone
      · rw [h.waits z hwait] at he
        exact (Option.some.inj he).symm
      · exact absurd (hdone t ht) hfresh
    rcases hclaimed.new x c hc with hx | ⟨-, hxfresh, hxname, -⟩
    · rcases hclaimed.new y d hd with hy | ⟨-, hyfresh, hyname, -⟩
      · exact h.uniform hold x y c d hmem hx hy
      · exact (hwaits x c hx ⟨y, hmem, hyfresh⟩).trans hyname.symm
    · rcases hclaimed.new y d hd with hy | ⟨-, -, hyname, -⟩
      · have hback := hsymm x (hnext.within x (Dict.mem_keys_of_get? hc)) y hmem
        exact hxname.trans (hwaits y d hy ⟨x, hback, hxfresh⟩).symm
      · exact hxname.trans hyname.symm

/-- A label on a vertex that had none changes no other one. -/
theorem get?_insert_of_fresh {labels : Dict α β} {start : α} (hfresh : start ∉ labels.keys) (b : β)
    {v : α} {c : β} (hv : labels.get? v = some c) : (labels.insert start b).get? v = some c := by
  rw [Dict.get?_insert, if_neg]
  · exact hv
  · rintro rfl
    exact hfresh (Dict.mem_keys_of_get? hv)

variable {filled : Dict α β × Nat}

/-- A label of its own on one vertex that nothing labelled is next to. -/
theorem Filled.insert (hsymm : ∀ u ∈ vertices, ∀ w ∈ adj u, u ∈ adj w)
    (hname : Function.Injective name) (h : Filled adj vertices name filled) {start : α}
    (hstart : start ∈ vertices) (hfresh : start ∉ filled.1.keys) :
    Spreading adj vertices (filled.1.insert start (name filled.2))
        (filled.1.insert start (name filled.2)) [start] ∧
      Filling adj filled.1 (name filled.2) (filled.1.insert start (name filled.2)) [start] := by
  have hself : (filled.1.insert start (name filled.2)).get? start = some (name filled.2) := by
    rw [Dict.get?_insert, if_pos rfl]
  have hcases : ∀ v b, (filled.1.insert start (name filled.2)).get? v = some b →
      filled.1.get? v = some b ∨ (v = start ∧ b = name filled.2) := by
    intro v b hv
    rw [Dict.get?_insert] at hv
    split_ifs at hv with heq
    · exact .inr ⟨heq, (Option.some.inj hv).symm⟩
    · exact .inl hv
  have hunused : ∀ v b, filled.1.get? v = some b → b ≠ name filled.2 := by
    rintro v b hv rfl
    obtain ⟨i, hi, heq⟩ := h.counted v _ hv
    exact absurd (hname heq) (by omega)
  refine ⟨⟨fun v b hv => hv, fun v hv => ?_, fun v hv => ?_, fun v hv => ?_⟩,
    ⟨fun v hv => ?_, fun v c hc => ?_, fun b u w hu hw => ?_, fun hold x y c d hmem hc hd => ?_⟩⟩
  · rcases Dict.mem_keys_insert.mp hv with rfl | hv
    · exact hstart
    · exact h.within v hv
  · rw [List.mem_singleton.mp hv]
    exact Dict.mem_keys_of_get? hself
  · rcases Dict.mem_keys_insert.mp hv with rfl | hv
    · exact .inl (List.mem_singleton_self v)
    · exact .inr (fun w hw => Dict.mem_keys_insert.mpr (.inr (h.closed v hv w hw)))
  · rw [List.mem_singleton.mp hv]
    exact hself
  · exact (hcases v c hc).imp_right And.right
  · rcases hcases u b hu with hu | ⟨rfl, hb⟩
    · rcases hcases w b hw with hw | ⟨-, hb⟩
      · exact (h.linked b u w hu hw).mono (fun _ _ h => h)
          (fun _ _ => get?_insert_of_fresh hfresh _)
      · exact absurd hb (hunused u b hu)
    · rcases hcases w b hw with hw | ⟨rfl, -⟩
      · exact absurd hb (hunused w b hw)
      · exact Relation.ReflTransGen.refl
  · rcases hcases x c hc with hx | ⟨rfl, hxname⟩
    · rcases hcases y d hd with hy | ⟨rfl, -⟩
      · exact hold x y c d hmem hx hy
      · exact absurd (h.closed x (Dict.mem_keys_of_get? hx) y hmem) hfresh
    · rcases hcases y d hd with hy | ⟨-, hyname⟩
      · exact absurd (h.closed y (Dict.mem_keys_of_get? hy) x (hsymm x hstart y hmem)) hfresh
      · exact hxname.trans hyname.symm

/-- **One more start** is labelled, with everything that hangs together with it. -/
theorem filled_fillFrom (hadj : ∀ v ∈ vertices, ∀ w ∈ adj v, w ∈ vertices)
    (hsymm : ∀ u ∈ vertices, ∀ w ∈ adj u, u ∈ adj w) (hname : Function.Injective name)
    (h : Filled adj vertices name filled) {start : α} (hstart : start ∈ vertices) :
    Filled adj vertices name (fillFrom adj vertices.length name filled start) ∧
    (∀ v b, filled.1.get? v = some b →
      (fillFrom adj vertices.length name filled start).1.get? v = some b) ∧
    start ∈ (fillFrom adj vertices.length name filled start).1.keys ∧
    (Uniform adj filled.1 → Uniform adj (fillFrom adj vertices.length name filled start).1) := by
  unfold fillFrom
  by_cases hlabelled : start ∈ filled.1.keys
  · rw [if_pos hlabelled]
    exact ⟨h, fun v b hv => hv, hlabelled, id⟩
  · rw [if_neg hlabelled]
    obtain ⟨hbegin, hfilling⟩ := h.insert hsymm hname hstart hlabelled
    have hlength : (filled.1.insert start (name filled.2)).keys.length = filled.1.keys.length + 1 := by
      rw [Dict.keys_insert, if_neg hlabelled, List.length_append, List.length_singleton]
    obtain ⟨hend, hdone⟩ := spread_induct (fun _ _ => name filled.2) adds_push hadj
      (fun labels v waiting hspreading hfilling => hfilling.round hadj hsymm hspreading
        (claimed_foldl adds_push _ (adj v) (labels, waiting)))
      vertices.length _ [start] hbegin hfilling (by rw [hlength, List.length_singleton]; omega)
    refine ⟨⟨hend.within, fun v hv => ?_, fun v b hv => ?_, hdone.linked⟩,
      fun v b hv => hend.kept v b (get?_insert_of_fresh hlabelled _ hv), ?_, hdone.uniform⟩
    · exact (hend.settled v hv).resolve_left List.not_mem_nil
    · rcases hdone.new v b hv with hold | rfl
      · obtain ⟨i, hi, heq⟩ := h.counted v b hold
        exact ⟨i, by dsimp only; omega, heq⟩
      · exact ⟨filled.2, Nat.lt_succ_self _, rfl⟩
    · obtain ⟨b, hb⟩ := Dict.mem_keys_iff_get?.mp
        (Dict.mem_keys_insert.mpr (.inl rfl) : start ∈ (filled.1.insert start _).keys)
      exact Dict.mem_keys_of_get? (hend.kept start b hb)

/-- **Filling** from some starts labels all of them, and keeps what it began with. -/
theorem filled_fill (hadj : ∀ v ∈ vertices, ∀ w ∈ adj v, w ∈ vertices)
    (hsymm : ∀ u ∈ vertices, ∀ w ∈ adj u, u ∈ adj w) (hname : Function.Injective name)
    {starts : List α} (hstarts : ∀ v ∈ starts, v ∈ vertices) (h : Filled adj vertices name filled) :
    Filled adj vertices name (fill adj vertices.length name starts filled) ∧
    (∀ v b, filled.1.get? v = some b →
      (fill adj vertices.length name starts filled).1.get? v = some b) ∧
    (∀ v ∈ starts, v ∈ (fill adj vertices.length name starts filled).1.keys) ∧
    (Uniform adj filled.1 → Uniform adj (fill adj vertices.length name starts filled).1) := by
  unfold fill
  induction starts generalizing filled with
  | nil => exact ⟨h, fun v b hv => hv, fun v hv => absurd hv List.not_mem_nil, id⟩
  | cons start starts ih =>
    obtain ⟨hone, hkept, hself, huniform⟩ :=
      filled_fillFrom hadj hsymm hname h (hstarts start (.head _))
    obtain ⟨hall, hkept', hrest, huniform'⟩ :=
      ih (fun v hv => hstarts v (.tail start hv)) hone
    refine ⟨hall, fun v b hv => hkept' v b (hkept v b hv), fun v hv => ?_,
      fun hold => huniform' (huniform hold)⟩
    rcases List.mem_cons.mp hv with rfl | hv
    · obtain ⟨b, hb⟩ := Dict.mem_keys_iff_get?.mp hself
      exact Dict.mem_keys_of_get? (hkept' v b hb)
    · exact hrest v hv

end Fill

end

universe u v

variable {α : Type u} {β : Type v} [LinearOrder β]

/-- Fewer edges come first, and then lesser labels. -/
def Before (n : Nat) (b : β) (m : Nat) (c : β) : Prop := n < m ∨ (n = m ∧ b ≤ c)

section Before

variable {n m k : Nat} {b c d : β}

theorem Before.refl (n : Nat) (b : β) : Before n b n b := .inr ⟨rfl, le_refl b⟩

theorem Before.trans (h : Before n b m c) (h' : Before m c k d) : Before n b k d := by
  rcases h with h | ⟨rfl, h⟩
  · rcases h' with h' | ⟨rfl, -⟩
    · exact .inl (by omega)
    · exact .inl h
  · rcases h' with h' | ⟨rfl, h'⟩
    · exact .inl h'
    · exact .inr ⟨rfl, le_trans h h'⟩

theorem Before.succ (h : Before n b m c) : Before (n + 1) b (m + 1) c :=
  h.imp Nat.succ_lt_succ (fun h => ⟨congrArg Nat.succ h.1, h.2⟩)

theorem Before.antisymm (h : Before n b m c) (h' : Before m c n b) : n = m ∧ b = c := by
  rcases h with h | ⟨rfl, h⟩
  · rcases h' with h' | ⟨heq, -⟩ <;> omega
  · rcases h' with h' | ⟨-, h'⟩
    · omega
    · exact ⟨rfl, le_antisymm h h'⟩

end Before

variable [DecidableEq α]

/-- The shortest paths to a vertex from one that has a label have `n` edges, and `b` is the least
    label they come from. -/
structure Nearest (adj : α → List α) (seeds : Dict α β) (v : α) (n : Nat) (b : β) : Prop where
  walk : ∃ s, seeds.get? s = some b ∧ Walk adj n s v
  least : ∀ s c m, seeds.get? s = some c → Walk adj m s v → Before n b m c

/-- Spread the labels that there are, with a queue. -/
def spreadOwn [Inhabited β] (adj : α → List α) (rounds : Nat) (labels : Dict α β) (queue : List α) :
    Dict α β :=
  spread adj enqueue (fun labels v => (labels.get? v).getD default) rounds labels queue

/-- What the loop keeps: what is labelled has the nearest label, the queue is sorted by how near it
    is, and nothing is more than an edge ahead of its front. -/
structure Nearing (adj : α → List α) (seeds labels : Dict α β) (queue : List α) : Prop where
  near : ∀ v b, labels.get? v = some b → ∃ n, Nearest adj seeds v n b
  rising : queue.Pairwise (fun u w => ∀ n b m c, Nearest adj seeds u n b → Nearest adj seeds w m c →
    Before n b m c)
  ahead : ∀ u ∈ queue.head?, ∀ w ∈ labels.keys, ∀ n b m c, Nearest adj seeds u n b →
    Nearest adj seeds w m c → Before m c (n + 1) b

section Nearest

variable {adj : α → List α} {vertices : List α} {seeds labels : Dict α β}

theorem Nearest.unique {v : α} {n m : Nat} {b c : β} (h : Nearest adj seeds v n b)
    (h' : Nearest adj seeds v m c) : n = m ∧ b = c := by
  obtain ⟨s, hs, hwalk⟩ := h.walk
  obtain ⟨t, ht, hwalk'⟩ := h'.walk
  exact (h.least t c m ht hwalk').antisymm (h'.least s b n hs hwalk)

omit [LinearOrder β] in
/-- Where a path leaves what is labelled. -/
theorem exists_leaving {m : Nat} {s w : α} (hwalk : Walk adj m s w) (hs : s ∈ labels.keys)
    (hw : w ∉ labels.keys) :
    ∃ i u, i + 1 ≤ m ∧ Walk adj i s u ∧ u ∈ labels.keys ∧ ∃ x ∈ adj u, x ∉ labels.keys := by
  induction m generalizing w with
  | zero =>
    obtain rfl : s = w := hwalk
    exact absurd hs hw
  | succ m ih =>
    obtain ⟨u, hu, hmem⟩ := hwalk
    by_cases hlabelled : u ∈ labels.keys
    · exact ⟨m, u, Nat.le_refl _, hu, hlabelled, w, hmem, hw⟩
    · obtain ⟨i, x, hle, hrest⟩ := ih hu hlabelled
      exact ⟨i, x, by omega, hrest⟩

/-- Every path to what has no label yet is longer by an edge than one to the front of the queue. -/
theorem Nearing.before {v w s : α} {waiting : List α} {n m : Nat} {b c : β}
    (h : Nearing adj seeds labels (v :: waiting))
    (hspreading : Spreading adj vertices seeds labels (v :: waiting))
    (hv : Nearest adj seeds v n b) (hw : w ∉ labels.keys) (hs : seeds.get? s = some c)
    (hwalk : Walk adj m s w) : Before (n + 1) b m c := by
  have hlabelled := Dict.mem_keys_of_get? (hspreading.kept s c hs)
  obtain ⟨i, u, hle, hu, hkey, x, hx, hfresh⟩ := exists_leaving hwalk hlabelled hw
  -- the path leaves from a vertex that still waits
  have hwaits : u ∈ v :: waiting :=
    (hspreading.settled u hkey).resolve_right (fun hdone => hfresh (hdone x hx))
  obtain ⟨d, hd⟩ := Dict.mem_keys_iff_get?.mp hkey
  obtain ⟨k, hk⟩ := h.near u d hd
  have hfront : Before n b k d := by
    rcases List.mem_cons.mp hwaits with rfl | hrest
    · obtain ⟨rfl, rfl⟩ := hv.unique hk
      exact Before.refl n b
    · exact (List.pairwise_cons.mp h.rising).1 u hrest n b k d hv hk
  have hnext := (hfront.trans (hk.least s c i hs hu)).succ
  rcases Nat.eq_or_lt_of_le hle with rfl | hlt
  · exact hnext
  · exact hnext.trans (.inl hlt)

/-- **One round** with a queue. -/
theorem Nearing.round {v : α} {waiting : List α} {b : β}
    (h : Nearing adj seeds labels (v :: waiting))
    (hspreading : Spreading adj vertices seeds labels (v :: waiting))
    (hv : labels.get? v = some b) {found : Dict α β × List α}
    (hclaimed : Claimed b (adj v) (labels, waiting) found)
    (hqueue : ∃ new, found.2 = waiting ++ new ∧ ∀ w ∈ new, w ∈ adj v ∧ w ∉ labels.keys) :
    Nearing adj seeds found.1 found.2 := by
  obtain ⟨n, hn⟩ := h.near v b hv
  obtain ⟨new, hqueue, hnew⟩ := hqueue
  have hnearest : ∀ w ∈ adj v, w ∉ labels.keys → Nearest adj seeds w (n + 1) b := by
    intro w hw hfresh
    obtain ⟨s, hs, hwalk⟩ := hn.walk
    exact ⟨⟨s, hs, v, hwalk, hw⟩, fun t c m ht hwalk' => h.before hspreading hn hfresh ht hwalk'⟩
  have hrest : ∀ w ∈ waiting, w ∈ labels.keys :=
    fun w hw => hspreading.queued w (.tail v hw)
  have hahead := h.ahead v rfl
  refine ⟨fun w c hc => ?_, ?_, fun u hu w hw k d m c hk hm => ?_⟩
  · rcases hclaimed.new w c hc with hold | ⟨hmem, hfresh, rfl, -⟩
    · exact h.near w c hold
    · exact ⟨n + 1, hnearest w hmem hfresh⟩
  · rw [hqueue, List.pairwise_append]
    refine ⟨(List.pairwise_cons.mp h.rising).2, ?_, ?_⟩
    · refine List.pairwise_of_forall_mem_list (fun u hu w hw k d m c hk hm => ?_)
      obtain ⟨rfl, rfl⟩ := (hnearest u (hnew u hu).1 (hnew u hu).2).unique hk
      obtain ⟨rfl, rfl⟩ := (hnearest w (hnew w hw).1 (hnew w hw).2).unique hm
      exact Before.refl _ _
    · intro u hu w hw k d m c hk hm
      obtain ⟨rfl, rfl⟩ := (hnearest w (hnew w hw).1 (hnew w hw).2).unique hm
      exact hahead u (hrest u hu) n b k d hn hk
  · -- the new front is no nearer than the old one
    have hfront : Before n b k d := by
      have hmem := List.mem_of_mem_head? hu
      rw [hqueue] at hmem
      rcases List.mem_append.mp hmem with hmem | hmem
      · exact (List.pairwise_cons.mp h.rising).1 u hmem n b k d hn hk
      · obtain ⟨rfl, rfl⟩ := (hnearest u (hnew u hmem).1 (hnew u hmem).2).unique hk
        exact .inl (Nat.lt_succ_self n)
    have hbound : Before m c (n + 1) b := by
      obtain ⟨e, he⟩ := Dict.mem_keys_iff_get?.mp hw
      rcases hclaimed.new w e he with hold | ⟨hmem, hfresh, -⟩
      · exact hahead w (Dict.mem_keys_of_get? hold) n b m c hn hm
      · obtain ⟨rfl, rfl⟩ := (hnearest w hmem hfresh).unique hm
        exact Before.refl _ _
    exact hbound.trans hfront.succ

omit [LinearOrder β] in
/-- With a queue, what is new goes to the end. -/
theorem exists_foldl_claim (name : β) (l : List α) (found : Dict α β × List α) :
    ∃ new, (l.foldl (claim enqueue name) found).2 = found.2 ++ new ∧
      ∀ w ∈ new, w ∈ l ∧ w ∉ found.1.keys := by
  induction l generalizing found with
  | nil => exact ⟨[], by simp, by simp⟩
  | cons w l ih =>
    obtain ⟨new, hqueue, hnew⟩ := ih (claim enqueue name found w)
    have hone := claimed_claim adds_enqueue name found w
    rw [List.foldl_cons]
    have hrest : ∀ v ∈ new, v ∈ w :: l ∧ v ∉ found.1.keys := fun v hv =>
      ⟨.tail w (hnew v hv).1, fun hkey => (hnew v hv).2 (hone.keys hkey)⟩
    by_cases hw : w ∈ found.1.keys
    · have hsame : claim enqueue name found w = found := if_pos hw
      rw [hsame] at hqueue ⊢
      exact ⟨new, hqueue, hrest⟩
    · have hadded : claim enqueue name found w
          = (found.1.insert w name, found.2 ++ [w]) := if_neg hw
      rw [hadded] at hqueue ⊢
      refine ⟨w :: new, by rw [hqueue, List.append_assoc]; rfl, fun v hv => ?_⟩
      rcases List.mem_cons.mp hv with rfl | hv
      · exact ⟨.head _, hw⟩
      · exact hrest v hv

/-- A vertex that is labelled from the beginning is nearest to itself. -/
theorem nearest_seed (adj : α → List α) {v : α} {b : β} (hv : seeds.get? v = some b) : Nearest adj seeds v 0 b := by
  refine ⟨⟨v, hv, rfl⟩, fun s c m hs hwalk => ?_⟩
  cases m with
  | zero =>
    obtain rfl : s = v := hwalk
    rw [hv] at hs
    cases hs
    exact Before.refl 0 b
  | succ m => exact .inl (Nat.succ_pos m)

/-- A queue of all labelled vertices that is sorted by label. -/
theorem nearing_seeds {queue : List α}
    (hsorted : queue.Pairwise (fun u w => ∀ b c, seeds.get? u = some b → seeds.get? w = some c →
      b ≤ c)) (hqueue : ∀ v ∈ queue, v ∈ seeds.keys) : Nearing adj seeds seeds queue := by
  have hzero : ∀ v ∈ seeds.keys, ∀ n b, Nearest adj seeds v n b → n = 0 ∧ seeds.get? v = some b := by
    intro v hv n b hn
    obtain ⟨c, hc⟩ := Dict.mem_keys_iff_get?.mp hv
    obtain ⟨rfl, rfl⟩ := (nearest_seed adj hc).unique hn
    exact ⟨rfl, hc⟩
  refine ⟨fun v b hv => ⟨0, nearest_seed adj hv⟩, ?_, fun u hu w hw n b m c hn hm => ?_⟩
  · refine hsorted.imp_of_mem (fun {u w} hu hw hle n b m c hn hm => ?_)
    obtain ⟨rfl, hb⟩ := hzero u (hqueue u hu) n b hn
    obtain ⟨rfl, hc⟩ := hzero w (hqueue w hw) m c hm
    exact .inr ⟨rfl, hle b c hb hc⟩
  · obtain ⟨rfl, -⟩ := hzero w hw m c hm
    exact .inl (Nat.succ_pos n)

/-- **The nearest label.** What can be reached from a seed gets the nearest label, and what has one
    label hangs together. -/
theorem spread_nearest [Inhabited β] (hadj : ∀ v ∈ vertices, ∀ w ∈ adj v, w ∈ vertices)
    (hsymm : ∀ u ∈ vertices, ∀ w ∈ adj u, u ∈ adj w)
    (hseeds : ∀ v ∈ seeds.keys, v ∈ vertices) (hlinked : AllLinked adj seeds) {queue : List α}
    (hperm : queue.Perm seeds.keys)
    (hsorted : queue.Pairwise (fun u w => ∀ b c, seeds.get? u = some b → seeds.get? w = some c →
      b ≤ c)) : Spreading adj vertices seeds (spreadOwn adj vertices.length seeds queue) [] ∧
    AllLinked adj (spreadOwn adj vertices.length seeds queue) ∧
    ∀ v b, (spreadOwn adj vertices.length seeds queue).get? v = some b ↔
      ∃ n, Nearest adj seeds v n b := by
  have hmem : ∀ v, v ∈ queue ↔ v ∈ seeds.keys := fun v => hperm.mem_iff
  obtain ⟨hend, hnearing, hlinked⟩ := spread_induct
    (fun labels v => (labels.get? v).getD default) adds_enqueue hadj
    (P := fun labels queue => Nearing adj seeds labels queue ∧ AllLinked adj labels)
    (fun labels v waiting hspreading h => by
      obtain ⟨b, hb⟩ := Dict.mem_keys_iff_get?.mp (hspreading.queued v (.head _))
      rw [hb, Option.getD_some]
      have hclaimed := claimed_foldl adds_enqueue b (adj v) (labels, waiting)
      exact ⟨h.1.round hspreading hb hclaimed (exists_foldl_claim b (adj v) (labels, waiting)),
        h.2.round hsymm hb hclaimed (hspreading.round hadj hclaimed).within⟩)
    vertices.length seeds queue
    ⟨fun v b hv => hv, hseeds, fun v hv => (hmem v).mp hv, fun v hv => .inl ((hmem v).mpr hv)⟩
    ⟨nearing_seeds hsorted (fun v hv => (hmem v).mp hv), hlinked⟩
    (by rw [hperm.length_eq])
  have hreached : ∀ n s w, s ∈ (spreadOwn adj vertices.length seeds queue).keys → Walk adj n s w →
      w ∈ (spreadOwn adj vertices.length seeds queue).keys := by
    intro n s w hs hwalk
    induction n generalizing w with
    | zero =>
      obtain rfl : s = w := hwalk
      exact hs
    | succ n ih =>
      obtain ⟨u, hu, hw⟩ := hwalk
      exact (hend.settled u (ih u hu)).resolve_left List.not_mem_nil w hw
  refine ⟨hend, hlinked, fun v b => ⟨hnearing.near v b, ?_⟩⟩
  rintro ⟨n, hn⟩
  obtain ⟨s, hs, hwalk⟩ := hn.walk
  obtain ⟨c, hc⟩ := Dict.mem_keys_iff_get?.mp
    (hreached n s v (Dict.mem_keys_of_get? (hend.kept s b hs)) hwalk)
  obtain ⟨m, hm⟩ := hnearing.near v c hc
  rw [(hn.unique hm).2]
  exact hc

end Nearest

end Sidequest.Lib
