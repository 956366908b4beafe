import Mathlib.Combinatorics.SimpleGraph.Acyclic

namespace Sidequest.Lib

open SimpleGraph

/-!
# Parts of a graph

Sets of vertices of a graph that grow one vertex at a time: when they stay in one piece, and when
they stay without cycles.

* `holds_of_reachable` — what neighbours hand on holds wherever one gets to;
* `existsUnique_path` — one path between any two vertices.
-/

variable {V : Type*} {G : SimpleGraph V} {s : Set V}

/-! ### One piece -/

/-- What every neighbour hands on to its neighbours holds wherever one gets to. -/
theorem holds_of_reachable {P : V → Prop}
    (hnext : ∀ u ∈ s, ∀ v ∈ s, G.Adj u v → P u → P v) {u v : s}
    (hreach : (G.induce s).Reachable u v) (hholds : P u) : P v := by
  obtain ⟨walk⟩ := hreach
  -- by induction on the walk, whose vertices all are in the part
  induction walk with
  | nil => exact hholds
  | cons hadj _ ih =>
    exact ih (hnext _ (Subtype.property _) _ (Subtype.property _) hadj hholds)

/-- A vertex next to a part in one piece makes a part in one piece with it. -/
theorem preconnected_insert (hs : (G.induce s).Preconnected) {u v : V} (hu : u ∈ s)
    (hadj : G.Adj u v) : (G.induce (insert v s)).Preconnected := by
  have hsingle : (G.induce {v}).Preconnected := Preconnected.of_subsingleton
  rw [← Set.union_singleton]
  exact (connected_induce_union hs hsingle hu (Set.mem_singleton v) hadj).preconnected

/-- Two parts in one piece that meet make one piece, and so they do if the first is empty. -/
theorem preconnected_union {t : Set V} (hs : (G.induce s).Preconnected)
    (ht : (G.induce t).Preconnected) (hmeet : s = ∅ ∨ (s ∩ t).Nonempty) :
    (G.induce (s ∪ t)).Preconnected := by
  rcases hmeet with rfl | hmeet
  · rw [Set.empty_union]
    exact ht
  · exact (induce_union_connected hs ht hmeet).preconnected

/-- A part is in one piece if there is a way down to the same vertex from everywhere. -/
theorem preconnected_of_descent (rank : V → Nat) (root : V) (hroot : root ∈ s)
    (hdown : ∀ v ∈ s, v = root ∨ ∃ u ∈ s, G.Adj u v ∧ rank u < rank v) :
    (G.induce s).Preconnected := by
  have hreach : ∀ n v, (hv : v ∈ s) → rank v = n →
      (G.induce s).Reachable ⟨root, hroot⟩ ⟨v, hv⟩ := by
    intro n
    induction n using Nat.strong_induction_on with
    | _ n ih =>
      intro v hv hrank
      rcases hdown v hv with rfl | ⟨u, hu, hadj, hless⟩
      · exact Reachable.refl _
      · have hlast : (G.induce s).Adj ⟨u, hu⟩ ⟨v, hv⟩ := hadj
        exact (ih (rank u) (hrank ▸ hless) u hu rfl).trans hlast.reachable
  rintro ⟨u, hu⟩ ⟨v, hv⟩
  exact (hreach _ u hu rfl).symm.trans (hreach _ v hv rfl)

/-! ### No cycles -/

theorem spanningCoe_induce_adj {u v : V} :
    (G.induce s).spanningCoe.Adj u v ↔ u ∈ s ∧ v ∈ s ∧ G.Adj u v := by
  constructor
  · intro h
    obtain ⟨⟨a, ha⟩, ⟨b, hb⟩, hadj, rfl, rfl⟩ := (SimpleGraph.map_adj _ _ _ _).mp h
    exact ⟨ha, hb, hadj⟩
  · rintro ⟨hu, hv, hadj⟩
    exact (SimpleGraph.map_adj _ _ _ _).mpr ⟨⟨u, hu⟩, ⟨v, hv⟩, hadj, rfl, rfl⟩

/-- A vertex with one neighbour in a part at most closes no cycle there. -/
theorem isAcyclic_insert (hs : (G.induce s).spanningCoe.IsAcyclic) {u v : V} (hu : u ∈ s)
    (hv : v ∉ s) (hone : ∀ w ∈ s, G.Adj w v → w = u) :
    (G.induce (insert v s)).spanningCoe.IsAcyclic := by
  have halone : ¬ (G.induce s).spanningCoe.Reachable v u := by
    rintro ⟨walk⟩
    cases walk with
    | nil => exact hv hu
    | cons hadj _ => exact hv (spanningCoe_induce_adj.mp hadj).1
  refine (hs.sup_edge_of_not_reachable halone).anti ?_
  -- a new edge has the new vertex at one of its ends, and so its one neighbour at the other
  intro a b h
  obtain ⟨ha, hb, hadj⟩ := spanningCoe_induce_adj.mp h
  have hne : v ≠ u := fun heq => hv (heq ▸ hu)
  rw [sup_adj, spanningCoe_induce_adj, edge_adj]
  rcases Set.mem_insert_iff.mp ha with rfl | hold <;> rcases Set.mem_insert_iff.mp hb with rfl | hold'
  · exact absurd hadj (G.loopless.irrefl _)
  · obtain rfl := hone b hold' hadj.symm
    exact .inr ⟨.inl ⟨rfl, rfl⟩, hne⟩
  · obtain rfl := hone a hold hadj
    exact .inr ⟨.inr ⟨rfl, rfl⟩, hne.symm⟩
  · exact .inl ⟨hold, hold', hadj⟩

theorem isAcyclic_singleton (v : V) : (G.induce {v}).spanningCoe.IsAcyclic := by
  have hbot : (G.induce {v}).spanningCoe = ⊥ := by
    ext a b
    rw [spanningCoe_induce_adj, bot_adj, iff_false]
    rintro ⟨rfl, rfl, hadj⟩
    exact G.loopless.irrefl _ hadj
  rw [hbot]
  exact isAcyclic_bot

/-- In a part in one piece without cycles, one path leads from any vertex to any other. -/
theorem existsUnique_path (hpiece : (G.induce s).Preconnected)
    (hacyclic : (G.induce s).spanningCoe.IsAcyclic) (u v : s) :
    ∃! path : (G.induce s).Walk u v, path.IsPath := by
  have hnonempty : Nonempty s := ⟨u⟩
  have htree : (G.induce s).IsTree := ⟨⟨hpiece⟩, hacyclic.of_map⟩
  exact htree.existsUnique_path u v

end Sidequest.Lib
