import Sidequest.Lib.Dict

namespace Sidequest.Lib

/-!
# Hop distances

How many edges the shortest paths between two vertices have, and that a breadth-first search finds
just that; and what a sweep over a list starts a search at.

* `search` — the loop: the front of the queue is taken off, its new neighbours go to the end;
* `Walk adj n v w` — a path of `n` edges;
* `get?_bfs_iff` — the search finds the hop distance of everything that can be reached;
* `firsts` — the members of a list that stand first in what is reached from them.
-/

section

universe u

variable {α : Type u} [DecidableEq α]

/-- A neighbour of a vertex at distance `d`: one that is new is noted, and queued. -/
def discover (d : Nat) (found : Dict α Nat × List α) (v : α) : Dict α Nat × List α :=
  if v ∈ found.1.keys then found else (found.1.insert v (d + 1), found.2 ++ [v])

/-- The loop of the search, for a number of rounds. -/
def search (adj : α → List α) : Nat → Dict α Nat → List α → Dict α Nat
  | 0, dist, _ => dist
  | _ + 1, dist, [] => dist
  | rounds + 1, dist, v :: queue =>
    let found := (adj v).foldl (discover ((dist.get? v).getD 0)) (dist, queue)
    search adj rounds found.1 found.2

/-- The distances from a source, in a universe of vertices. -/
def bfs (adj : α → List α) (vertices : List α) (source : α) : Dict α Nat :=
  search adj vertices.length (Dict.empty.insert source 0) [source]

/-- There is a path along the edges. -/
def Reaches (adj : α → List α) : α → α → Prop := Relation.ReflTransGen (fun v w => w ∈ adj v)

/-- What discovering a list of neighbours adds: they are all found, and what is new is queued. -/
theorem foldl_discover_spec (d : Nat) (l : List α) (found : Dict α Nat × List α) :
    (∀ v, v ∈ (l.foldl (discover d) found).1.keys ↔ v ∈ found.1.keys ∨ v ∈ l) ∧
    (∀ v, v ∈ (l.foldl (discover d) found).2 → v ∈ found.2 ∨ v ∈ l) ∧
    (∀ v ∈ found.2, v ∈ (l.foldl (discover d) found).2) ∧
    (∀ v ∈ (l.foldl (discover d) found).1.keys, v ∈ found.1.keys ∨
      v ∈ (l.foldl (discover d) found).2) ∧
    (l.foldl (discover d) found).2.length + found.1.keys.length
      = found.2.length + (l.foldl (discover d) found).1.keys.length := by
  induction l generalizing found with
  | nil => exact ⟨by simp, by simp, by simp, fun v hv => .inl hv, rfl⟩
  | cons w l ih =>
    obtain ⟨hkeys, hqueued, hkept, hnew, hlength⟩ := ih (discover d found w)
    rw [List.foldl_cons]
    by_cases hw : w ∈ found.1.keys
    · have hsame : discover d found w = found := if_pos hw
      rw [hsame] at hkeys hqueued hkept hnew hlength ⊢
      refine ⟨fun v => ?_, fun v hv => ?_, hkept, hnew, hlength⟩
      · rw [hkeys, List.mem_cons]
        constructor
        · rintro (h | h)
          · exact .inl h
          · exact .inr (.inr h)
        · rintro (h | rfl | h)
          · exact .inl h
          · exact .inl hw
          · exact .inr h
      · rcases hqueued v hv with h | h
        · exact .inl h
        · exact .inr (.tail w h)
    · have hadded : discover d found w = (found.1.insert w (d + 1), found.2 ++ [w]) := if_neg hw
      rw [hadded] at hkeys hqueued hkept hnew hlength ⊢
      have hgrown : (found.1.insert w (d + 1)).keys = found.1.keys ++ [w] := by
        rw [Dict.keys_insert, if_neg hw]
      refine ⟨fun v => ?_, fun v hv => ?_, fun v hv => ?_, fun v hv => ?_, ?_⟩
      · rw [hkeys, hgrown, List.mem_append, List.mem_singleton, List.mem_cons, or_assoc]
      · rcases hqueued v hv with h | h
        · rcases List.mem_append.mp h with h | h
          · exact .inl h
          · exact .inr (List.mem_cons.mpr (.inl (List.mem_singleton.mp h)))
        · exact .inr (.tail w h)
      · exact hkept v (List.mem_append_left [w] hv)
      · rcases hnew v hv with h | h
        · rw [hgrown, List.mem_append, List.mem_singleton] at h
          rcases h with h | rfl
          · exact .inl h
          · exact .inr (hkept v (List.mem_append_right found.2 (List.mem_singleton_self v)))
        · exact .inr h
      · rw [hgrown, List.length_append, List.length_append] at hlength
        omega

section Universe

variable {adj : α → List α} {vertices : List α}

/-- **The loop.** With enough rounds left, everything found before stays found, what is found can be
    reached from it, and no edge leads out of what is found. -/
theorem search_spec (hadj : ∀ v ∈ vertices, ∀ w ∈ adj v, w ∈ vertices) (rounds : Nat)
    (dist : Dict α Nat) (queue : List α) (hvertices : ∀ v ∈ dist.keys, v ∈ vertices)
    (hqueue : ∀ v ∈ queue, v ∈ dist.keys)
    (hclosed : ∀ v ∈ dist.keys, v ∈ queue ∨ ∀ w ∈ adj v, w ∈ dist.keys)
    (hrounds : vertices.length + queue.length ≤ rounds + dist.keys.length) :
    (∀ v ∈ dist.keys, v ∈ (search adj rounds dist queue).keys) ∧
    (∀ v ∈ (search adj rounds dist queue).keys, ∀ w ∈ adj v,
      w ∈ (search adj rounds dist queue).keys) ∧
    ∀ v ∈ (search adj rounds dist queue).keys, ∃ u ∈ dist.keys, Reaches adj u v := by
  induction rounds generalizing dist queue with
  | zero =>
    -- there is no vertex left that could be in the queue
    have hle : dist.keys.length ≤ vertices.length :=
      (List.subperm_of_subset dist.nodup_keys hvertices).length_le
    have hempty : queue = [] := List.length_eq_zero_iff.mp (by omega)
    refine ⟨fun v hv => hv, fun v hv w hw => ?_, fun v hv => ⟨v, hv, Relation.ReflTransGen.refl⟩⟩
    rcases hclosed v hv with h | h
    · rw [hempty] at h
      cases h
    · exact h w hw
  | succ rounds ih =>
    cases queue with
    | nil =>
      refine ⟨fun v hv => hv, fun v hv w hw => ?_, fun v hv => ⟨v, hv, Relation.ReflTransGen.refl⟩⟩
      rcases hclosed v hv with h | h
      · cases h
      · exact h w hw
    | cons v queue =>
      have hv : v ∈ dist.keys := hqueue v (.head _)
      obtain ⟨hkeys, hqueued, hkept, hnew, hlength⟩ :=
        foldl_discover_spec ((dist.get? v).getD 0) (adj v) (dist, queue)
      unfold search
      generalize (adj v).foldl (discover ((dist.get? v).getD 0)) (dist, queue) = found at *
      have hstep : ∀ w ∈ found.1.keys, w ∈ dist.keys ∨ w ∈ adj v := fun w hw => (hkeys w).mp hw
      have hgrows : ∀ w ∈ dist.keys, w ∈ found.1.keys := fun w hw => (hkeys w).mpr (.inl hw)
      obtain ⟨hstays, hends, hfrom⟩ := ih found.1 found.2
        (fun w hw => by
          rcases hstep w hw with h | h
          · exact hvertices w h
          · exact hadj v (hvertices v hv) w h)
        (fun w hw => by
          rcases hqueued w hw with h | h
          · exact hgrows w (hqueue w (.tail v h))
          · exact (hkeys w).mpr (.inr h))
        (fun w hw => by
          rcases hnew w hw with h | h
          · rcases hclosed w h with hwait | hdone
            · -- the vertex taken off has all its neighbours found now
              rcases List.mem_cons.mp hwait with rfl | hwait
              · exact .inr (fun x hx => (hkeys x).mpr (.inr hx))
              · exact .inl (hkept w hwait)
            · exact .inr (fun x hx => hgrows x (hdone x hx))
          · exact .inl h)
        (by
          rw [List.length_cons] at hrounds
          dsimp only at hlength
          omega)
      refine ⟨fun w hw => hstays w (hgrows w hw), hends, fun w hw => ?_⟩
      obtain ⟨u, hu, hpath⟩ := hfrom w hw
      rcases hstep u hu with h | h
      · exact ⟨u, h, hpath⟩
      · exact ⟨v, hv, Relation.ReflTransGen.head h hpath⟩

/-- **The search** finds what can be reached from its source, and nothing else. -/
theorem mem_keys_bfs_iff (hadj : ∀ v ∈ vertices, ∀ w ∈ adj v, w ∈ vertices) {source : α}
    (hsource : source ∈ vertices) (v : α) :
    v ∈ (bfs adj vertices source).keys ↔ Reaches adj source v := by
  have hkeys : (Dict.empty.insert source 0 : Dict α Nat).keys = [source] := by
    rfl
  have honly : ∀ w ∈ (Dict.empty.insert source 0 : Dict α Nat).keys, w = source := by
    intro w hw
    exact List.mem_singleton.mp hw
  obtain ⟨hstays, hends, hfrom⟩ := search_spec hadj vertices.length (Dict.empty.insert source 0)
    [source] (fun w hw => honly w hw ▸ hsource)
    (fun w hw => by rw [hkeys]; exact hw)
    (fun w hw => .inl (List.mem_singleton.mpr (honly w hw)))
    (by rw [hkeys])
  constructor
  · intro hv
    obtain ⟨u, hu, hpath⟩ := hfrom v hv
    rw [honly u hu] at hpath
    exact hpath
  · intro hpath
    have hfound : source ∈ (search adj vertices.length (Dict.empty.insert source 0) [source]).keys :=
      hstays source (by rw [hkeys]; exact List.mem_singleton_self source)
    induction hpath with
    | refl => exact hfound
    | tail _ hlast ih => exact hends _ ih _ hlast

end Universe

end

universe u

variable {α : Type u}

/-! ### Paths and their lengths -/

/-- There is a path of so many edges. -/
def Walk (adj : α → List α) : Nat → α → α → Prop
  | 0, v, w => v = w
  | n + 1, v, w => ∃ u, Walk adj n v u ∧ w ∈ adj u

/-- The hop distance: there is a path of so many edges, and no shorter one. -/
structure Hops (adj : α → List α) (v w : α) (n : Nat) : Prop where
  walk : Walk adj n v w
  shortest : ∀ m, Walk adj m v w → n ≤ m

section Paths

variable {adj adj' : α → List α} {v w : α} {n m : Nat}

theorem Hops.unique (h : Hops adj v w n) (h' : Hops adj v w m) : n = m :=
  Nat.le_antisymm (h.shortest m h'.walk) (h'.shortest n h.walk)

/-- Nothing but the vertex itself is no hop away. -/
theorem Hops.pos (h : Hops adj v w n) (hne : v ≠ w) : 0 < n := by
  rcases Nat.eq_zero_or_pos n with hn | hn
  · have hwalk := h.walk
    rw [hn] at hwalk
    exact absurd hwalk hne
  · exact hn

theorem walk_congr (hadj : ∀ u x, x ∈ adj u ↔ x ∈ adj' u) : Walk adj n v w ↔ Walk adj' n v w := by
  induction n generalizing w with
  | zero => exact Iff.rfl
  | succ n ih => exact exists_congr (fun u => and_congr ih (hadj u w))

/-- Hop distances are read off the neighbours, in whatever order they stand. -/
theorem hops_congr (hadj : ∀ u x, x ∈ adj u ↔ x ∈ adj' u) : Hops adj v w n ↔ Hops adj' v w n := by
  constructor
  · intro h
    exact ⟨(walk_congr hadj).mp h.walk, fun m hm => h.shortest m ((walk_congr hadj).mpr hm)⟩
  · intro h
    exact ⟨(walk_congr hadj).mpr h.walk, fun m hm => h.shortest m ((walk_congr hadj).mp hm)⟩

theorem Walk.mono (hadj : ∀ u x, x ∈ adj u → x ∈ adj' u) (h : Walk adj n v w) :
    Walk adj' n v w := by
  induction n generalizing w with
  | zero => exact h
  | succ n ih =>
    obtain ⟨u, hu, hw⟩ := h
    exact ⟨u, ih hu, hadj u w hw⟩

theorem Walk.trans {u : α} (h : Walk adj n u v) (h' : Walk adj m v w) : Walk adj (n + m) u w := by
  induction m generalizing w with
  | zero =>
    obtain rfl : v = w := h'
    exact h
  | succ m ih =>
    obtain ⟨x, hx, hw⟩ := h'
    exact ⟨x, ih hx, hw⟩

/-- What can be reached is reached by a path of some length. -/
theorem reaches_iff_exists_walk : Reaches adj v w ↔ ∃ n, Walk adj n v w := by
  constructor
  · intro h
    induction h with
    | refl => exact ⟨0, rfl⟩
    | tail _ hlast ih =>
      obtain ⟨n, hn⟩ := ih
      exact ⟨n + 1, _, hn, hlast⟩
  · rintro ⟨n, h⟩
    induction n generalizing w with
    | zero =>
      obtain rfl : v = w := h
      exact Relation.ReflTransGen.refl
    | succ n ih =>
      obtain ⟨u, hu, hw⟩ := h
      exact Relation.ReflTransGen.tail (ih hu) hw

/-- Where there is a path, some path is shortest. -/
theorem Walk.exists_hops (h : Walk adj n v w) : ∃ m, m ≤ n ∧ Hops adj v w m := by
  induction n using Nat.strong_induction_on with
  | _ n ih =>
    by_cases hshorter : ∃ m, m < n ∧ Walk adj m v w
    · obtain ⟨m, hlt, hm⟩ := hshorter
      obtain ⟨k, hle, hk⟩ := ih m hlt hm
      exact ⟨k, by omega, hk⟩
    · refine ⟨n, Nat.le_refl n, h, fun m hm => ?_⟩
      by_contra hlt
      exact hshorter ⟨m, by omega, hm⟩

/-- **A detour.** Without an edge from its start, a path still leads on from one of the two ends,
    with one edge less. -/
theorem Walk.without {t : α}
    (hadj : ∀ u x, x ∈ adj u → x ∈ adj' u ∨ (u = v ∧ x = t) ∨ (u = t ∧ x = v))
    (h : Walk adj n v w) : (∃ m, m ≤ n ∧ Walk adj' m v w) ∨ ∃ m, m + 1 ≤ n ∧ Walk adj' m t w := by
  induction n generalizing w with
  | zero => exact .inl ⟨0, Nat.le_refl 0, h⟩
  | succ n ih =>
    obtain ⟨u, hu, hw⟩ := h
    rcases hadj u w hw with hkept | ⟨-, rfl⟩ | ⟨-, rfl⟩
    · rcases ih hu with ⟨m, hle, hm⟩ | ⟨m, hle, hm⟩
      · exact .inl ⟨m + 1, by omega, u, hm, hkept⟩
      · exact .inr ⟨m + 1, by omega, u, hm, hkept⟩
    · exact .inr ⟨0, by omega, rfl⟩
    · exact .inl ⟨0, by omega, rfl⟩

end Paths

/-! ### The search -/

variable [DecidableEq α]

/-- The distance noted for a vertex. -/
def depth (dist : Dict α Nat) (v : α) : Nat := (dist.get? v).getD 0

theorem depth_eq {dist : Dict α Nat} {v : α} {d : Nat} (h : dist.get? v = some d) :
    depth dist v = d := by
  unfold depth
  rw [h, Option.getD_some]

/-- What discovering a list of neighbours notes: a vertex that was found keeps its distance, and a
    new one is a hop farther. -/
theorem get?_foldl_discover (d : Nat) (l : List α) (found : Dict α Nat × List α) (v : α) :
    (l.foldl (discover d) found).1.get? v
      = (found.1.get? v).or (if v ∈ l then some (d + 1) else none) := by
  induction l generalizing found with
  | nil => simp
  | cons w l ih =>
    rw [List.foldl_cons, ih]
    unfold discover
    by_cases hw : w ∈ found.1.keys
    · rw [if_pos hw]
      by_cases hv : v = w
      · obtain ⟨d', hd'⟩ := Dict.mem_keys_iff_get?.mp hw
        simp [hv, hd']
      · simp [hv]
    · rw [if_neg hw]
      by_cases hv : v = w
      · simp [hv, Dict.get?_eq_none_iff.mpr hw]
      · simp [hv]

/-- What discovering a list of neighbours queues: some that are new. -/
theorem exists_foldl_discover (d : Nat) (l : List α) (found : Dict α Nat × List α) :
    ∃ new, (l.foldl (discover d) found).2 = found.2 ++ new ∧
      ∀ v ∈ new, v ∈ l ∧ v ∉ found.1.keys := by
  induction l generalizing found with
  | nil => exact ⟨[], by simp, by simp⟩
  | cons w l ih =>
    obtain ⟨new, hqueue, hnew⟩ := ih (discover d found w)
    rw [List.foldl_cons]
    by_cases hw : w ∈ found.1.keys
    · have hsame : discover d found w = found := if_pos hw
      rw [hsame] at hqueue hnew ⊢
      refine ⟨new, hqueue, fun v hv => ?_⟩
      exact ⟨.tail w (hnew v hv).1, (hnew v hv).2⟩
    · have hadded : discover d found w = (found.1.insert w (d + 1), found.2 ++ [w]) := if_neg hw
      rw [hadded] at hqueue hnew ⊢
      refine ⟨w :: new, by rw [hqueue, List.append_assoc]; rfl, fun v hv => ?_⟩
      rcases List.mem_cons.mp hv with rfl | hv
      · exact ⟨.head _, hw⟩
      · obtain ⟨hl, hold⟩ := hnew v hv
        refine ⟨.tail w hl, fun hmem => hold ?_⟩
        exact Dict.mem_keys_insert.mpr (.inr hmem)

/-- What discovering neighbours leaves: what was noted stays, the others are noted a hop farther and
    wait at the end. -/
structure Discovered (l : List α) (d : Nat) (dist dist' : Dict α Nat) (queue queue' : List α) :
    Prop where
  kept : ∀ w e, dist.get? w = some e → dist'.get? w = some e
  noted : ∀ w e, dist'.get? w = some e → dist.get? w = some e ∨ (w ∈ l ∧ e = d + 1 ∧ w ∉ dist.keys)
  reached : ∀ w ∈ l, w ∉ dist.keys → dist'.get? w = some (d + 1)
  waits : ∀ w ∈ dist'.keys, w ∈ dist.keys ∨ w ∈ queue'
  grown : ∃ new, queue' = queue ++ new ∧ ∀ w ∈ new, dist'.get? w = some (d + 1)

theorem discovered_foldl (d : Nat) (l : List α) (dist : Dict α Nat) (queue : List α) :
    Discovered l d dist (l.foldl (discover d) (dist, queue)).1 queue
      (l.foldl (discover d) (dist, queue)).2 := by
  have hget := get?_foldl_discover d l (dist, queue)
  have hreached : ∀ w ∈ l, w ∉ dist.keys →
      (l.foldl (discover d) (dist, queue)).1.get? w = some (d + 1) := by
    intro w hw hfresh
    rw [hget]
    simp [Dict.get?_eq_none_iff.mpr hfresh, hw]
  refine ⟨fun w e he => ?_, fun w e he => ?_, hreached,
    (foldl_discover_spec d l (dist, queue)).2.2.2.1, ?_⟩
  · rw [hget]
    simp [he]
  · rw [hget] at he
    cases hw : dist.get? w with
    | some e' =>
      left
      simpa [hw] using he
    | none =>
      right
      by_cases hmem : w ∈ l
      · refine ⟨hmem, ?_, Dict.get?_eq_none_iff.mp hw⟩
        simpa [hw, hmem, eq_comm] using he
      · simp [hw, hmem] at he
  · obtain ⟨new, hqueue, hnew⟩ := exists_foldl_discover d l (dist, queue)
    exact ⟨new, hqueue, fun w hw => hreached w (hnew w hw).1 (hnew w hw).2⟩

theorem Discovered.depth_of_mem {l : List α} {d : Nat} {dist dist' : Dict α Nat}
    {queue queue' : List α} (h : Discovered l d dist dist' queue queue') {w : α}
    (hw : w ∈ dist.keys) : depth dist' w = depth dist w := by
  obtain ⟨e, he⟩ := Dict.mem_keys_iff_get?.mp hw
  rw [depth_eq he, depth_eq (h.kept w e he)]

/-- The state of the search: the queue is sorted by distance, nothing noted is more than a hop ahead
    of its front, and neighbours of what was taken off are noted a hop farther at most. -/
structure Layered (adj : α → List α) (source : α) (dist : Dict α Nat) (queue : List α) : Prop where
  start : dist.get? source = some 0
  walked : ∀ v d, dist.get? v = some d → Walk adj d source v
  queued : ∀ v ∈ queue, v ∈ dist.keys
  rising : queue.Pairwise (fun u v => depth dist u ≤ depth dist v)
  shallow : ∀ u ∈ queue.head?, ∀ v d, dist.get? v = some d → d ≤ depth dist u + 1
  settled : ∀ v d, dist.get? v = some d → v ∈ queue ∨
    ∀ w ∈ adj v, ∃ d', dist.get? w = some d' ∧ d' ≤ d + 1

section Universe

variable {adj : α → List α} {vertices : List α} {source : α}

/-- The rest of the queue is between its front and a hop farther. -/
theorem Layered.between {dist : Dict α Nat} {queue : List α} {v : α}
    (h : Layered adj source dist (v :: queue)) {w : α} (hw : w ∈ queue) :
    depth dist v ≤ depth dist w ∧ depth dist w ≤ depth dist v + 1 := by
  obtain ⟨e, he⟩ := Dict.mem_keys_iff_get?.mp (h.queued w (.tail v hw))
  have hlow := (List.pairwise_cons.mp h.rising).1 w hw
  have hhigh := h.shallow v rfl w e he
  rw [depth_eq he] at hlow ⊢
  omega

section Round

variable {dist dist' : Dict α Nat} {queue queue' : List α} {v : α}

/-- The queue stays sorted by distance. -/
theorem Layered.rising_round (h : Layered adj source dist (v :: queue))
    (hround : Discovered (adj v) (depth dist v) dist dist' queue queue') :
    queue'.Pairwise (fun u w => depth dist' u ≤ depth dist' w) := by
  obtain ⟨new, rfl, hnew⟩ := hround.grown
  have hrest : ∀ w ∈ queue, w ∈ dist.keys := fun w hw => h.queued w (.tail v hw)
  rw [List.pairwise_append]
  refine ⟨?_, ?_, ?_⟩
  · refine (List.pairwise_cons.mp h.rising).2.imp_of_mem (fun {a b} ha hb hle => ?_)
    rw [hround.depth_of_mem (hrest a ha), hround.depth_of_mem (hrest b hb)]
    exact hle
  · refine List.pairwise_of_forall_mem_list (fun a ha b hb => ?_)
    rw [depth_eq (hnew a ha), depth_eq (hnew b hb)]
  · intro a ha b hb
    rw [hround.depth_of_mem (hrest a ha), depth_eq (hnew b hb)]
    exact (h.between ha).2

/-- The new front is no nearer than the old one, and nothing is more than a hop beyond that. -/
theorem Layered.shallow_round (h : Layered adj source dist (v :: queue))
    (hround : Discovered (adj v) (depth dist v) dist dist' queue queue') :
    ∀ u ∈ queue'.head?, ∀ w e, dist'.get? w = some e → e ≤ depth dist' u + 1 := by
  intro u hu w e he
  have hfront : depth dist v ≤ depth dist' u := by
    obtain ⟨new, rfl, hnew⟩ := hround.grown
    rcases List.mem_append.mp (List.mem_of_mem_head? hu) with hmem | hmem
    · rw [hround.depth_of_mem (h.queued u (.tail v hmem))]
      exact (h.between hmem).1
    · rw [depth_eq (hnew u hmem)]
      exact Nat.le_succ _
  have hbound : e ≤ depth dist v + 1 := by
    rcases hround.noted w e he with he | ⟨-, rfl, -⟩
    · exact h.shallow v rfl w e he
    · exact Nat.le_refl _
  omega

/-- The neighbours of the vertex that was taken off were noted before, or are now. -/
theorem Layered.settled_round (h : Layered adj source dist (v :: queue))
    (hround : Discovered (adj v) (depth dist v) dist dist' queue queue') :
    ∀ w e, dist'.get? w = some e → w ∈ queue' ∨
      ∀ x ∈ adj w, ∃ e', dist'.get? x = some e' ∧ e' ≤ e + 1 := by
  intro w e he
  rcases hround.noted w e he with hdist | ⟨hadj, rfl, hfresh⟩
  · rcases h.settled w e hdist with hwait | hdone
    · rcases List.mem_cons.mp hwait with rfl | hwait
      · right
        intro x hx
        have hdepth := depth_eq hdist
        cases hx' : dist.get? x with
        | some e' =>
          have hle := h.shallow w rfl x e' hx'
          exact ⟨e', hround.kept x e' hx', by omega⟩
        | none =>
          have hnoted := hround.reached x hx (Dict.get?_eq_none_iff.mp hx')
          exact ⟨depth dist w + 1, hnoted, by omega⟩
      · left
        obtain ⟨new, rfl, -⟩ := hround.grown
        exact List.mem_append_left _ hwait
    · right
      intro x hx
      obtain ⟨e', he', hle⟩ := hdone x hx
      exact ⟨e', hround.kept x e' he', hle⟩
  · left
    exact (hround.waits w (Dict.mem_keys_of_get? he)).resolve_left hfresh

end Round

/-- **One round.** The front of the queue is taken off, and its neighbours are discovered. -/
theorem Layered.round {dist : Dict α Nat} {queue : List α} {v : α}
    (h : Layered adj source dist (v :: queue)) :
    Layered adj source ((adj v).foldl (discover (depth dist v)) (dist, queue)).1
      ((adj v).foldl (discover (depth dist v)) (dist, queue)).2 := by
  have hround := discovered_foldl (depth dist v) (adj v) dist queue
  refine ⟨hround.kept source 0 h.start, fun w e he => ?_, fun w hw => ?_, h.rising_round hround,
    h.shallow_round hround, h.settled_round hround⟩
  · rcases hround.noted w e he with he | ⟨hadj, rfl, -⟩
    · exact h.walked w e he
    · obtain ⟨d, hd⟩ := Dict.mem_keys_iff_get?.mp (h.queued v (.head _))
      rw [depth_eq hd]
      exact ⟨v, h.walked v d hd, hadj⟩
  · obtain ⟨new, hqueue, hnew⟩ := hround.grown
    rw [hqueue] at hw
    rcases List.mem_append.mp hw with hw | hw
    · obtain ⟨e, he⟩ := Dict.mem_keys_iff_get?.mp (h.queued w (.tail v hw))
      exact Dict.mem_keys_of_get? (hround.kept w e he)
    · exact Dict.mem_keys_of_get? (hnew w hw)

/-- **The loop.** With enough rounds left, the queue is worked off. -/
theorem search_layered (hadj : ∀ v ∈ vertices, ∀ w ∈ adj v, w ∈ vertices) (rounds : Nat)
    (dist : Dict α Nat) (queue : List α) (h : Layered adj source dist queue)
    (hvertices : ∀ v ∈ dist.keys, v ∈ vertices)
    (hrounds : vertices.length + queue.length ≤ rounds + dist.keys.length) :
    Layered adj source (search adj rounds dist queue) [] := by
  induction rounds generalizing dist queue with
  | zero =>
    have hle : dist.keys.length ≤ vertices.length :=
      (List.subperm_of_subset dist.nodup_keys hvertices).length_le
    obtain rfl : queue = [] := List.length_eq_zero_iff.mp (by omega)
    exact h
  | succ rounds ih =>
    cases queue with
    | nil => exact h
    | cons v queue =>
      obtain ⟨hkeys, -, -, -, hlength⟩ := foldl_discover_spec (depth dist v) (adj v) (dist, queue)
      show Layered adj source (search adj rounds
        ((adj v).foldl (discover (depth dist v)) (dist, queue)).1
        ((adj v).foldl (discover (depth dist v)) (dist, queue)).2) []
      refine ih _ _ h.round (fun w hw => ?_) ?_
      · rcases (hkeys w).mp hw with hw | hw
        · exact hvertices w hw
        · exact hadj v (hvertices v (h.queued v (.head _))) w hw
      · rw [List.length_cons] at hrounds
        dsimp only at hlength
        omega

/-- **The search** finds the hop distance of everything that can be reached, and of nothing else. -/
theorem get?_bfs_iff (hadj : ∀ v ∈ vertices, ∀ w ∈ adj v, w ∈ vertices)
    (hsource : source ∈ vertices) (v : α) (n : Nat) :
    (bfs adj vertices source).get? v = some n ↔ Hops adj source v n := by
  have hstart : ∀ w d, (Dict.empty.insert source 0 : Dict α Nat).get? w = some d →
      w = source ∧ d = 0 := by
    intro w d hw
    rw [Dict.get?_insert] at hw
    by_cases hws : w = source
    · rw [if_pos hws] at hw
      exact ⟨hws, (Option.some.inj hw).symm⟩
    · simp [hws] at hw
  have hfirst : Layered adj source (Dict.empty.insert source 0) [source] := by
    refine ⟨by simp, ?_, by simp, List.pairwise_singleton _ _, ?_, ?_⟩
    · intro w d hw
      obtain ⟨rfl, rfl⟩ := hstart w d hw
      exact rfl
    · intro u _ w d hw
      obtain ⟨-, rfl⟩ := hstart w d hw
      exact Nat.zero_le _
    · intro w d hw
      left
      rw [(hstart w d hw).1]
      exact List.mem_singleton_self source
  have hkeys : (Dict.empty.insert source 0 : Dict α Nat).keys = [source] := by
    rfl
  have hfound : Layered adj source (bfs adj vertices source) [] := by
    refine search_layered hadj vertices.length _ [source] hfirst (fun w hw => ?_) ?_
    · rw [List.mem_singleton.mp hw]
      exact hsource
    · rw [hkeys]
  -- a path never gets ahead of what is noted
  have hwithin : ∀ m w, Walk adj m source w →
      ∃ d, (bfs adj vertices source).get? w = some d ∧ d ≤ m := by
    intro m
    induction m with
    | zero =>
      rintro w rfl
      exact ⟨0, hfound.start, Nat.le_refl 0⟩
    | succ m ih =>
      rintro w ⟨u, hu, hw⟩
      obtain ⟨d, hd, hle⟩ := ih u hu
      rcases hfound.settled u d hd with hnone | hnext
      · cases hnone
      · obtain ⟨d', hd', hle'⟩ := hnext w hw
        exact ⟨d', hd', by omega⟩
  have hnoted : ∀ d, (bfs adj vertices source).get? v = some d → Hops adj source v d := by
    intro d hd
    refine ⟨hfound.walked v d hd, fun m hm => ?_⟩
    obtain ⟨d', hd', hle⟩ := hwithin m v hm
    rw [hd] at hd'
    cases hd'
    exact hle
  constructor
  · exact hnoted n
  · intro h
    obtain ⟨d, hd, -⟩ := hwithin n v h.walk
    rw [h.unique (hnoted d hd)]
    exact hd

end Universe

/-! ### Clusters -/

section Firsts

variable {α : Type} [DecidableEq α] (reach : α → List α)

/-- Of a list, the members that were not seen before, nor are reached from an earlier one. -/
def firsts : List α → List α → List α
  | _, [] => []
  | seen, v :: l =>
    if v ∈ seen then firsts seen l else v :: firsts (seen ∪ reach v) l

/-- What was seen before counts for nothing. -/
theorem firsts_append_of_seen {seen l : List α} (h : ∀ v ∈ l, v ∈ seen) (rest : List α) :
    firsts reach seen (l ++ rest) = firsts reach seen rest := by
  induction l with
  | nil => rfl
  | cons v l ih =>
    rw [List.cons_append, firsts, if_pos (h v (.head _))]
    exact ih (fun w hw => h w (.tail v hw))

/-- Where two searches differ by what one has seen from the start, the first has the firsts of the
    second that were not seen. -/
theorem firsts_eq_filter {reach' : α → List α} (hung : α → Bool) {l : List α}
    (hwhole : ∀ v ∈ l, hung v = true → ∀ w ∈ reach' v, hung w = true)
    (hsame : ∀ v ∈ l, hung v = false → ∀ w ∈ l, (w ∈ reach v ↔ w ∈ reach' v))
    {seen seen' : List α} (hseen : ∀ v ∈ l, v ∈ seen ↔ hung v = true ∨ v ∈ seen') :
    firsts reach seen l = (firsts reach' seen' l).filter (fun v => !hung v) := by
  induction l generalizing seen seen' with
  | nil => rfl
  | cons v l ih =>
    have hrest : ∀ {seen seen' : List α},
        (∀ w ∈ l, w ∈ seen ↔ hung w = true ∨ w ∈ seen') →
        firsts reach seen l = (firsts reach' seen' l).filter (fun v => !hung v) :=
      ih (fun w hw => hwhole w (.tail v hw))
        (fun w hw hnot u hu => hsame w (.tail v hw) hnot u (.tail v hu))
    rw [firsts, firsts]
    by_cases hv' : v ∈ seen'
    · rw [if_pos ((hseen v (.head _)).mpr (.inr hv')), if_pos hv']
      exact hrest (fun w hw => hseen w (.tail v hw))
    · rw [if_neg hv']
      cases hhung : hung v with
      | true =>
        rw [if_pos ((hseen v (.head _)).mpr (.inl hhung)), List.filter_cons_of_neg (by simp [hhung])]
        refine hrest (fun w hw => ?_)
        rw [hseen w (.tail v hw), List.mem_union_iff, ← or_assoc]
        refine (or_iff_left_of_imp (fun hreached => .inl ?_)).symm
        exact hwhole v (.head _) hhung w hreached
      | false =>
        have hv : v ∉ seen := fun hmem => ((hseen v (.head _)).mp hmem).elim
          (fun htrue => by rw [hhung] at htrue; cases htrue) hv'
        rw [if_neg hv, List.filter_cons_of_pos (by simp [hhung])]
        refine congrArg (v :: ·) (hrest (fun w hw => ?_))
        rw [List.mem_union_iff, List.mem_union_iff, hseen w (.tail v hw),
          hsame v (.head _) hhung w (.tail v hw), or_assoc]

end Firsts

end Sidequest.Lib
