import Mathlib.Data.List.Nodup
import Mathlib.Data.List.Perm.Subperm
import Sidequest.Lib.Except

namespace Sidequest.Lib

/-!
# Sorting by dependencies

A depth-first search that puts every item behind the items it needs. Items are named by keys; a need
for a key that names nothing is skipped. The search raises where a key is met again while its own
needs are being visited.

* `visit`, `topoSort` — the search from one key, and from a list of keys one after the other;
* `topoSort_spec` — the search returns exactly if no key depends on itself, and what it returns.
-/

universe u

variable {α β : Type u} [DecidableEq α]

/-- Where a search is: the keys whose needs are being visited, the keys that are done, and the
    items found so far. -/
structure Marks (α β : Type u) where
  (visiting visited : List α)
  order : List β

/-- Visit a key, with a bound on how deep the search may go. -/
def visit (find : α → Option β) (needs : β → List α) :
    Nat → Marks α β → α → Except α (Marks α β)
  | 0, _, k => .error k
  | depth + 1, s, k =>
    if k ∈ s.visited then .ok s
    else if k ∈ s.visiting then .error k
    else match find k with
      | none => .ok { s with visited := k :: s.visited }
      | some b => do
        let s' ← (needs b).foldlM (visit find needs depth) { s with visiting := k :: s.visiting }
        return { visiting := s'.visiting.erase k, visited := k :: s'.visited,
                 order := s'.order ++ [b] }

/-- Visit the keys of a list. -/
def topoSort (find : α → Option β) (needs : β → List α) (depth : Nat) (keys : List α) :
    Except α (List β) := do
  let s ← keys.foldlM (visit find needs depth) ⟨[], [], []⟩
  return s.order

section Relations

variable (find : α → Option β) (needs : β → List α)

/-- The item named by a key needs another key. -/
def NeedsKey (k k' : α) : Prop := ∃ b, find k = some b ∧ k' ∈ needs b

/-- The item named by a key needs another key, which names something too. -/
def DependsOn (k k' : α) : Prop := NeedsKey find needs k k' ∧ ∃ b, find k' = some b

end Relations

variable {find : α → Option β} {needs : β → List α}

variable {k : α}

omit [DecidableEq α] in
/-- A chain of needs to a key that names something is a chain of dependencies. -/
theorem dependsOn_of_needsKey {k' : α} (hneeds : Relation.TransGen (NeedsKey find needs) k k')
    (hfound : ∃ b, find k' = some b) : Relation.TransGen (DependsOn find needs) k k' := by
  induction hneeds using Relation.TransGen.head_induction_on with
  | single hstep => exact Relation.TransGen.single ⟨hstep, hfound⟩
  | head hstep hrest ih =>
    -- the key between has needs of its own, so it names something
    obtain ⟨_, ⟨b, hb, _⟩, _⟩ := Relation.TransGen.head'_iff.mp hrest
    exact Relation.TransGen.head ⟨hstep, b, hb⟩ ih

omit [DecidableEq α] in
/-- A key that needs itself, over other keys, depends on itself. -/
theorem dependsOn_self (h : Relation.TransGen (NeedsKey find needs) k k) :
    Relation.TransGen (DependsOn find needs) k k := by
  obtain ⟨_, ⟨b, hb, _⟩, _⟩ := Relation.TransGen.head'_iff.mp h
  exact dependsOn_of_needsKey h ⟨b, hb⟩

/-! ### Where a visit ends -/

variable {s : Marks α β} {depth : Nat}

theorem visit_of_visited (h : k ∈ s.visited) : visit find needs (depth + 1) s k = .ok s := by
  rw [visit, if_pos h]

theorem visit_of_visiting (h : k ∉ s.visited) (hopen : k ∈ s.visiting) :
    visit find needs (depth + 1) s k = .error k := by
  rw [visit, if_neg h, if_pos hopen]

theorem visit_of_absent (h : k ∉ s.visited) (hopen : k ∉ s.visiting) (hfind : find k = none) :
    visit find needs (depth + 1) s k = .ok { s with visited := k :: s.visited } := by
  rw [visit, if_neg h, if_neg hopen, hfind]

theorem visit_of_found {b : β} (h : k ∉ s.visited) (hopen : k ∉ s.visiting)
    (hfind : find k = some b) :
    visit find needs (depth + 1) s k =
      ((needs b).foldlM (visit find needs depth) { s with visiting := k :: s.visiting }).map
        (fun s' => { visiting := s'.visiting.erase k, visited := k :: s'.visited,
                     order := s'.order ++ [b] }) := by
  rw [visit, if_neg h, if_neg hopen, hfind]
  dsimp only
  cases (needs b).foldlM (visit find needs depth) { s with visiting := k :: s.visiting } <;> rfl

/-- What visiting the keys `ks` does: the keys being visited are the old ones, what was done stays
    done, and `ks` are done. -/
structure Visited (ks : List α) (s s' : Marks α β) : Prop where
  visiting : s'.visiting = s.visiting
  kept : ∀ k ∈ s.visited, k ∈ s'.visited
  done : ∀ k ∈ ks, k ∈ s'.visited

omit [DecidableEq α] in
theorem Visited.cons {ks : List α} {t s' : Marks α β} (hfirst : Visited [k] s t)
    (hrest : Visited ks t s') : Visited (k :: ks) s s' where
  visiting := hrest.visiting.trans hfirst.visiting
  kept j hj := hrest.kept j (hfirst.kept j hj)
  done j hj := by
    rcases List.mem_cons.mp hj with rfl | hj
    · exact hrest.kept j (hfirst.done j (List.mem_singleton_self j))
    · exact hrest.done j hj

section Finished

variable (find : α → Option β) (needs : β → List α) (key : β → α)

/-- What the search keeps. The items found so far are the ones named by the keys that are done; each
    is listed once, behind the items it needs. -/
structure Finished (s : Marks α β) : Prop where
  named : ∀ b ∈ s.order, find (key b) = some b
  listed : ∀ b ∈ s.order, key b ∈ s.visited
  found : ∀ k ∈ s.visited, ∀ b, find k = some b → b ∈ s.order
  nodup : (s.order.map key).Nodup
  behind : ∀ pre b post, s.order = pre ++ b :: post → ∀ k ∈ needs b, ∀ c, find k = some c → c ∈ pre
  closed : ∀ k ∈ s.visiting, k ∉ s.visited

end Finished

variable {key : β → α}

omit [DecidableEq α] in
/-- An item whose needs are all found may come last. -/
theorem behind_concat {order : List β} {b : β} (hbehind : ∀ pre a post, order = pre ++ a :: post →
      ∀ k ∈ needs a, ∀ c, find k = some c → c ∈ pre)
    (hlast : ∀ k ∈ needs b, ∀ c, find k = some c → c ∈ order) (pre : List β) (a : β)
    (post : List β) (heq : order ++ [b] = pre ++ a :: post) :
    ∀ k ∈ needs a, ∀ c, find k = some c → c ∈ pre := by
  rcases List.eq_nil_or_concat post with rfl | ⟨post, z, rfl⟩
  · obtain ⟨hpre, hitem⟩ := List.append_inj' heq rfl
    obtain rfl : b = a := by simpa using hitem
    rw [← hpre]
    exact hlast
  · have hsplit : order ++ [b] = (pre ++ a :: post) ++ [z] := by
      rw [heq, List.concat_eq_append, List.append_assoc]
      rfl
    exact hbehind pre a post (List.append_inj' hsplit rfl).1

omit [DecidableEq α] in
/-- A loop of visits does what its visits do. -/
theorem finished_foldlM {f : Marks α β → α → Except α (Marks α β)}
    (hf : ∀ s k s', f s k = .ok s' → Finished find needs key s →
      Finished find needs key s' ∧ Visited [k] s s')
    (ks : List α) (s s' : Marks α β) (hrun : ks.foldlM f s = .ok s')
    (hs : Finished find needs key s) : Finished find needs key s' ∧ Visited ks s s' := by
  induction ks generalizing s with
  | nil =>
    obtain rfl : s = s' := Except.ok.inj hrun
    exact ⟨hs, rfl, fun _ hj => hj, fun _ hj => nomatch hj⟩
  | cons k ks ih =>
    rw [List.foldlM_cons, bind_eq_ok] at hrun
    obtain ⟨t, hfirst, hrest⟩ := hrun
    obtain ⟨ht, hone⟩ := hf s k t hfirst hs
    obtain ⟨hs', hmore⟩ := ih t hrest ht
    exact ⟨hs', hone.cons hmore⟩

omit [DecidableEq α] in
/-- A key that is not done may be visited. -/
theorem Finished.opened (hs : Finished find needs key s) (hk : k ∉ s.visited) :
    Finished find needs key { s with visiting := k :: s.visiting } :=
  { hs with
    closed := fun j hj => by
      rcases List.mem_cons.mp hj with rfl | hj
      · exact hk
      · exact hs.closed j hj }

omit [DecidableEq α] in
/-- A key that names nothing is done at once. -/
theorem Finished.skipped (hs : Finished find needs key s) (hk : k ∉ s.visiting)
    (hfind : find k = none) : Finished find needs key { s with visited := k :: s.visited } :=
  { hs with
    listed := fun b hb => .tail k (hs.listed b hb)
    found := by
      intro j hj b hb
      rcases List.mem_cons.mp hj with rfl | hj
      · rw [hfind] at hb
        cases hb
      · exact hs.found j hj b hb
    closed := by
      intro j hj hdone
      rcases List.mem_cons.mp hdone with rfl | hdone
      · exact hk hj
      · exact hs.closed j hj hdone }

omit [DecidableEq α] in
/-- An item whose needs are done is listed. -/
theorem Finished.concat (hkey : ∀ k b, find k = some b → key b = k) {b : β} {visiting : List α}
    (hs : Finished find needs key s) (hfind : find k = some b)
    (hvisiting : s.visiting = k :: visiting) (hk : k ∉ visiting)
    (hdone : ∀ j ∈ needs b, j ∈ s.visited) :
    Finished find needs key ⟨visiting, k :: s.visited, s.order ++ [b]⟩ where
  named := by
    intro c hc
    rcases List.mem_append.mp hc with hc | hc
    · exact hs.named c hc
    · obtain rfl := List.mem_singleton.mp hc
      rw [hkey k c hfind]
      exact hfind
  listed := by
    intro c hc
    rcases List.mem_append.mp hc with hc | hc
    · exact .tail k (hs.listed c hc)
    · obtain rfl := List.mem_singleton.mp hc
      exact List.mem_cons.mpr (.inl (hkey k c hfind))
  found := by
    intro j hj c hc
    rcases List.mem_cons.mp hj with rfl | hj
    · obtain rfl : b = c := Option.some.inj (hfind.symm.trans hc)
      exact List.mem_append_right s.order (List.mem_singleton_self b)
    · exact List.mem_append_left [b] (hs.found j hj c hc)
  nodup := by
    -- the key was being visited all the while, so that its item is not listed yet
    have hfresh : k ∉ s.visited := hs.closed k (hvisiting ▸ (.head _))
    rw [List.map_append, List.nodup_append]
    refine ⟨hs.nodup, List.nodup_singleton (key b), ?_⟩
    rintro j hj _ hlast rfl
    obtain ⟨c, hc, hname⟩ := List.mem_map.mp hj
    obtain hlast : j = key b := List.mem_singleton.mp hlast
    apply hfresh
    rw [← hkey k b hfind, ← hlast, ← hname]
    exact hs.listed c hc
  behind := behind_concat hs.behind (fun j hj c hc => hs.found j (hdone j hj) c hc)
  closed := by
    intro j hj hdone'
    rcases List.mem_cons.mp hdone' with rfl | hdone'
    · exact hk hj
    · exact hs.closed j (hvisiting ▸ .tail k hj) hdone'

/-- **A visit that returns.** -/
theorem finished_visit (hkey : ∀ k b, find k = some b → key b = k) (depth : Nat) (s : Marks α β)
    (k : α) (s' : Marks α β) (hrun : visit find needs depth s k = .ok s')
    (hs : Finished find needs key s) : Finished find needs key s' ∧ Visited [k] s s' := by
  induction depth generalizing s k s' with
  | zero => cases hrun
  | succ depth ih =>
    by_cases hvisited : k ∈ s.visited
    · obtain rfl : s = s' := Except.ok.inj ((visit_of_visited hvisited).symm.trans hrun)
      refine ⟨hs, rfl, fun _ hj => hj, fun j hj => ?_⟩
      rwa [List.mem_singleton.mp hj]
    by_cases hvisiting : k ∈ s.visiting
    · rw [visit_of_visiting hvisited hvisiting] at hrun
      cases hrun
    cases hfind : find k with
    | none =>
      rw [visit_of_absent hvisited hvisiting hfind] at hrun
      cases hrun
      refine ⟨hs.skipped hvisiting hfind, rfl, ?_, ?_⟩
      · exact fun j hj => .tail k hj
      · exact fun j hj => List.mem_cons.mpr (.inl (List.mem_singleton.mp hj))
    | some b =>
      rw [visit_of_found hvisited hvisiting hfind] at hrun
      cases hloop : (needs b).foldlM (visit find needs depth)
          { s with visiting := k :: s.visiting } with
      | error e =>
        rw [hloop] at hrun
        cases hrun
      | ok t =>
        rw [hloop] at hrun
        cases hrun
        obtain ⟨ht, hdone⟩ := finished_foldlM ih (needs b) _ t hloop (hs.opened hvisited)
        have hback : t.visiting.erase k = s.visiting := by
          rw [hdone.visiting]
          exact List.erase_cons_head k s.visiting
        dsimp only
        rw [hback]
        refine ⟨ht.concat hkey hfind hdone.visiting hvisiting hdone.done, rfl, ?_, ?_⟩
        · exact fun j hj => .tail k (hdone.kept j hj)
        · exact fun j hj => List.mem_cons.mpr (.inl (List.mem_singleton.mp hj))

/-! ### Why a visit raises -/

omit [DecidableEq α] in
/-- A loop of visits that raises has a visit that raises, from where the ones before it led. -/
theorem exists_raised_of_foldlM {f : Marks α β → α → Except α (Marks α β)}
    (hf : ∀ s k s', f s k = .ok s' → Finished find needs key s →
      Finished find needs key s' ∧ Visited [k] s s')
    (ks : List α) (s : Marks α β) {e : α} (hrun : ks.foldlM f s = .error e)
    (hs : Finished find needs key s) :
    ∃ k ∈ ks, ∃ t, Finished find needs key t ∧ t.visiting = s.visiting ∧ f t k = .error e := by
  induction ks generalizing s with
  | nil => cases hrun
  | cons k ks ih =>
    rw [List.foldlM_cons] at hrun
    cases hfirst : f s k with
    | error d =>
      rw [hfirst] at hrun
      obtain rfl : d = e := Except.error.inj hrun
      exact ⟨k, .head _, s, hs, rfl, hfirst⟩
    | ok t =>
      rw [hfirst] at hrun
      obtain ⟨ht, hone⟩ := hf s k t hfirst hs
      obtain ⟨j, hj, t', ht', hvisiting, hraised⟩ := ih t hrun ht
      exact ⟨j, .tail k hj, t', ht', hvisiting.trans hone.visiting, hraised⟩

/-- **A visit that raises.** The keys being visited lead to the key visited and are fewer than the
    bound; so some key needs itself. -/
theorem circle_of_visit (hkey : ∀ k b, find k = some b → key b = k) {named : List α}
    (hnamed : ∀ k b, find k = some b → k ∈ named) (depth : Nat) (s : Marks α β) (k : α) {e : α}
    (hrun : visit find needs depth s k = .error e) (hs : Finished find needs key s)
    (hnodup : s.visiting.Nodup) (hsub : ∀ j ∈ s.visiting, j ∈ named)
    (hpath : ∀ j ∈ s.visiting, Relation.TransGen (NeedsKey find needs) j k)
    (hdepth : named.length < depth + s.visiting.length) :
    ∃ j, Relation.TransGen (NeedsKey find needs) j j := by
  induction depth generalizing s k with
  | zero =>
    have hle : s.visiting.length ≤ named.length := (List.subperm_of_subset hnodup hsub).length_le
    omega
  | succ depth ih =>
    by_cases hvisited : k ∈ s.visited
    · rw [visit_of_visited hvisited] at hrun
      cases hrun
    by_cases hvisiting : k ∈ s.visiting
    · exact ⟨k, hpath k hvisiting⟩
    cases hfind : find k with
    | none =>
      rw [visit_of_absent hvisited hvisiting hfind] at hrun
      cases hrun
    | some b =>
      rw [visit_of_found hvisited hvisiting hfind] at hrun
      cases hloop : (needs b).foldlM (visit find needs depth)
          { s with visiting := k :: s.visiting } with
      | ok t =>
        rw [hloop] at hrun
        cases hrun
      | error d =>
        rw [hloop] at hrun
        obtain rfl : d = e := Except.error.inj hrun
        obtain ⟨j, hj, t, ht, hopen, hraised⟩ := exists_raised_of_foldlM
          (finished_visit hkey depth) (needs b) _ hloop (hs.opened hvisited)
        have hstep : NeedsKey find needs k j := ⟨b, hfind, hj⟩
        refine ih t j hraised ht ?_ ?_ ?_ ?_
        · rw [hopen]
          exact List.nodup_cons.mpr ⟨hvisiting, hnodup⟩
        · intro i hi
          rw [hopen] at hi
          rcases List.mem_cons.mp hi with rfl | hi
          · exact hnamed i b hfind
          · exact hsub i hi
        · intro i hi
          rw [hopen] at hi
          rcases List.mem_cons.mp hi with rfl | hi
          · exact Relation.TransGen.single hstep
          · exact (hpath i hi).tail hstep
        · rw [hopen, List.length_cons]
          omega

/-! ### The sorted list -/

omit [DecidableEq α] in
/-- Everything a listed item depends on stands before it. -/
theorem Finished.before (hkey : ∀ k b, find k = some b → key b = k) (hs : Finished find needs key s)
    {k' : α} (hdep : Relation.TransGen (DependsOn find needs) k k') (pre : List β) (b : β)
    (post : List β) (horder : s.order = pre ++ b :: post) (hb : key b = k) : k' ∈ pre.map key := by
  have hstep : ∀ pre b post, s.order = pre ++ b :: post → ∀ j, DependsOn find needs (key b) j →
      ∃ c ∈ pre, key c = j := by
    intro pre b post horder j hj
    obtain ⟨⟨a, ha, hneed⟩, c, hc⟩ := hj
    have hmem : b ∈ s.order := by
      rw [horder]
      exact List.mem_append_right pre (.head _)
    obtain rfl : b = a := Option.some.inj ((hs.named b hmem).symm.trans ha)
    exact ⟨c, hs.behind pre b post horder j hneed c hc, hkey j c hc⟩
  induction hdep using Relation.TransGen.head_induction_on generalizing pre b post with
  | single h =>
    subst hb
    obtain ⟨c, hc, rfl⟩ := hstep pre b post horder _ h
    exact List.mem_map_of_mem hc
  | head h _ ih =>
    subst hb
    obtain ⟨c, hc, hname⟩ := hstep pre b post horder _ h
    obtain ⟨pre', post', rfl⟩ := List.append_of_mem hc
    have hearlier : s.order = pre' ++ c :: (post' ++ b :: post) := by
      rw [horder, List.append_assoc]
      rfl
    have hmem := ih pre' c (post' ++ b :: post) hearlier hname
    rw [List.map_append]
    exact List.mem_append_left _ hmem

omit [DecidableEq α] in
/-- No listed item depends on itself. -/
theorem Finished.not_dependsOn_self (hkey : ∀ k b, find k = some b → key b = k)
    (hs : Finished find needs key s) {b : β} (hfind : find k = some b) (hb : b ∈ s.order) :
    ¬ Relation.TransGen (DependsOn find needs) k k := by
  intro hself
  obtain ⟨pre, post, horder⟩ := List.append_of_mem hb
  have hname : key b = k := hkey k b hfind
  have hmem : k ∈ pre.map key := hs.before hkey hself pre b post horder hname
  have hnodup := hs.nodup
  rw [horder, List.map_append, List.map_cons, List.nodup_append] at hnodup
  exact hnodup.2.2 k hmem (key b) (.head _) hname.symm

/-- **The search** returns exactly if no key depends on itself; then every item is listed once,
    behind all it depends on. -/
theorem topoSort_spec (find : α → Option β) (needs : β → List α) {key : β → α}
    (hkey : ∀ k b, find k = some b → key b = k) {named : List α}
    (hnamed : ∀ k b, find k = some b → k ∈ named) (hdepth : named.length < depth) :
    (∀ e, topoSort find needs depth named = .error e →
      ∃ k, Relation.TransGen (DependsOn find needs) k k) ∧
    ∀ order, topoSort find needs depth named = .ok order →
      (∀ k, ¬ Relation.TransGen (DependsOn find needs) k k) ∧
      (order.map key).Nodup ∧ (∀ b ∈ order, find (key b) = some b) ∧
      (∀ k b, find k = some b → b ∈ order) ∧
      ∀ pre b post, order = pre ++ b :: post → ∀ k,
        Relation.TransGen (DependsOn find needs) (key b) k → k ∈ pre.map key := by
  have hinit : Finished find needs key ⟨[], [], []⟩ :=
    ⟨by simp, by simp, by simp, by simp, by simp, by simp⟩
  constructor
  · intro e hrun
    unfold topoSort at hrun
    cases hloop : named.foldlM (visit find needs depth) ⟨[], [], []⟩ with
    | ok s =>
      rw [hloop] at hrun
      cases hrun
    | error d =>
      obtain ⟨k, _, t, ht, hopen, hraised⟩ := exists_raised_of_foldlM (finished_visit hkey depth)
        named _ hloop hinit
      have hnone : ∀ j, j ∉ t.visiting := by simp [hopen]
      obtain ⟨j, hj⟩ := circle_of_visit hkey hnamed depth t k hraised ht (by simp [hopen])
        (fun j hj => absurd hj (hnone j)) (fun j hj => absurd hj (hnone j)) (by omega)
      exact ⟨j, dependsOn_self hj⟩
  · intro order hrun
    unfold topoSort at hrun
    rw [bind_eq_ok] at hrun
    obtain ⟨s, hloop, hend⟩ := hrun
    cases hend
    obtain ⟨hs, hdone⟩ := finished_foldlM (finished_visit hkey depth) named _ s hloop hinit
    have hall : ∀ k b, find k = some b → b ∈ s.order := fun k b hb =>
      hs.found k (hdone.done k (hnamed k b hb)) b hb
    refine ⟨fun k hself => ?_, hs.nodup, hs.named, hall, fun pre b post horder k hdep =>
      hs.before hkey hdep pre b post horder rfl⟩
    obtain ⟨_, ⟨⟨b, hb, _⟩, _⟩, _⟩ := Relation.TransGen.head'_iff.mp hself
    exact hs.not_dependsOn_self hkey hb (hall k b hb) hself

end Sidequest.Lib
