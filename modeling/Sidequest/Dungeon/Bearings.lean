import Mathlib.Data.List.Rotate
import Sidequest.Dungeon.RegionGraph

namespace Sidequest.Dungeon

open Lib

/-!
# One way out for each neighbour

Parallel edges are one way out, with one bearing. The slots of the compass are given to edges and
not to neighbours, so that parallel edges may use them up.

* `Bearings.Apart` — no two neighbours share a bearing, kept by every way that is added;
* `waysOut_iff` — when no neighbour of up to eight gets an overflow label;
  `not_waysOut_corridors` — one neighbour behind nine corridors does.
-/

namespace RegionGraph

variable (graph : RegionGraph) (regionId : String)

/-- The ways out of a region, once for every edge: where each leads, and of which kind it is. -/
def ways : List (String × String) :=
  graph.edges.filterMap (fun e => (otherEnd regionId e).map (fun other => (other, e.kind)))

/-- The neighbours of a region, once for every edge. -/
def neighborIds : List String :=
  graph.edges.filterMap (otherEnd regionId)

/-- The vertical label that a way out of a region asks for. -/
def labelOf (way : String × String) : Option String :=
  Bearings.verticalLabel? ((graph.depthOf? regionId).getD 0)
    ((graph.depthOf? way.1).getD ((graph.depthOf? regionId).getD 0)) way.2

/-- How many ways out need a slot of the compass: all but one for each vertical label. -/
def compassWays : Nat :=
  (graph.ways regionId).length - ((graph.ways regionId).filterMap (graph.labelOf regionId)).dedup.length

theorem map_fst_ways : (graph.ways regionId).map Prod.fst = graph.neighborIds regionId := by
  unfold ways neighborIds
  rw [List.map_filterMap]
  apply List.filterMap_congr
  intro e _
  cases otherEnd regionId e <;> rfl

end RegionGraph

/-! ### Bearings that are apart -/

/-- The words for a bearing. -/
def bearingWords : List String := "up" :: "down" :: compassOrder

/-- The label of a way that has found no slot. -/
def passage (other : String) : String := "passage-" ++ other

theorem passage_not_mem (other : String) : passage other ∉ bearingWords := by
  have hhead : ∀ word ∈ bearingWords, word.toList.head? ≠ some 'p' := by decide
  intro hmem
  apply hhead _ hmem
  show ("passage-" ++ other).toList.head? = some 'p'
  rw [String.toList_append]
  rfl

theorem passage_inj {other other' : String} (h : passage other = passage other') :
    other = other' := by
  have hchars := congrArg String.toList h
  unfold passage at hchars
  rw [String.toList_append, String.toList_append] at hchars
  exact String.toList_inj.mp (List.append_cancel_left hchars)

theorem not_passage_of_mem {word : String} (h : word ∈ bearingWords) :
    ¬ "passage-".toList <+: word.toList := by
  have hwords : ∀ word ∈ bearingWords, ¬ "passage-".toList <+: word.toList := by decide
  exact hwords word h

namespace Bearings

/-- No two neighbours share a bearing: a word is used once, and an overflow label names its
    neighbour. -/
structure Apart (b : Bearings) : Prop where
  nodup : b.used.Nodup
  words : ∀ word ∈ b.used, word ∈ bearingWords
  known : ∀ other label, b.bearings.get? other = some label → label ∈ b.used ∨ label = passage other
  apart : ∀ other other' label, b.bearings.get? other = some label →
    b.bearings.get? other' = some label → other = other'

variable {b : Bearings} {other label : String}

theorem apart_empty : Apart {} := by
  constructor <;> simp

/-- A word that is given out is new. -/
theorem Apart.assign (h : Apart b) (hword : label ∈ bearingWords) (hnew : label ∉ b.used) :
    Apart (b.assign other label) := by
  -- nobody has the word so far, under no spelling
  have hfree : ∀ other', b.bearings.get? other' ≠ some label := by
    intro other' hget
    rcases h.known other' label hget with hused | hpassage
    · exact hnew hused
    · rw [hpassage] at hword
      exact passage_not_mem other' hword
  unfold Bearings.assign
  constructor
  · show (b.used ++ [label]).Nodup
    rw [List.nodup_append]
    refine ⟨h.nodup, List.nodup_singleton label, ?_⟩
    intro word hused word' hword' heq
    rw [List.mem_singleton.mp hword'] at heq
    exact hnew (heq ▸ hused)
  · intro word hmem
    rcases List.mem_append.mp hmem with hmem | hmem
    · exact h.words word hmem
    · rw [List.mem_singleton.mp hmem]
      exact hword
  · intro other' label' hget
    rw [Dict.get?_insert] at hget
    split_ifs at hget with hsame
    · cases hget
      simp
    · rcases h.known other' label' hget with hused | hpassage
      · exact .inl (List.mem_append_left _ hused)
      · exact .inr hpassage
  · intro x y label' hx hy
    rw [Dict.get?_insert] at hx hy
    split_ifs at hx hy with hxo hyo hyo
    · rw [hxo, hyo]
    · rw [← Option.some.inj hx] at hy
      exact absurd hy (hfree y)
    · rw [← Option.some.inj hy] at hx
      exact absurd hx (hfree x)
    · exact h.apart x y label' hx hy

/-- An overflow label is nobody else's. -/
theorem Apart.overflow (h : Apart b) :
    Apart { b with bearings := b.bearings.insert other (passage other) } := by
  have hfree : ∀ other', b.bearings.get? other' = some (passage other) → other' = other := by
    intro other' hget
    rcases h.known other' _ hget with hused | hpassage
    · exact absurd (h.words _ hused) (passage_not_mem other)
    · exact (passage_inj hpassage).symm
  constructor
  · exact h.nodup
  · exact h.words
  · intro other' label' hget
    rw [Dict.get?_insert] at hget
    split_ifs at hget with hsame
    · right
      rw [hsame]
      exact (Option.some.inj hget).symm
    · exact h.known other' label' hget
  · intro x y label' hx hy
    rw [Dict.get?_insert] at hx hy
    split_ifs at hx hy with hxo hyo hyo
    · rw [hxo, hyo]
    · rw [← Option.some.inj hx] at hy
      rw [hxo, hfree y hy]
    · rw [← Option.some.inj hy] at hx
      rw [hyo, hfree x hx]
    · exact h.apart x y label' hx hy

/-- What is put off to the compass has no bearing yet. -/
theorem Apart.putOff (h : Apart b) (ways : List String) : Apart { b with horizontals := ways } :=
  ⟨h.nodup, h.words, h.known, h.apart⟩

end Bearings

/-! ### The vertical ways -/

section Vertical

variable {graph : RegionGraph} {regionId : String} {b : Bearings} {taken : List (String × String)}
  {way : String × String}

theorem vertical_of_labelOf {label : String} (h : graph.labelOf regionId way = some label) :
    label = "up" ∨ label = "down" := by
  unfold RegionGraph.labelOf Bearings.verticalLabel? at h
  split_ifs at h with hshaft hdeep hstairs hdeeper
  · exact .inr (Option.some.inj h).symm
  · exact .inl (Option.some.inj h).symm
  · exact .inr (Option.some.inj h).symm
  · exact .inl (Option.some.inj h).symm

/-- What some of the ways come to while the vertical ones are labelled. -/
structure VerticalDone (graph : RegionGraph) (regionId : String) (taken : List (String × String))
    (b : Bearings) : Prop where
  apart : b.Apart
  used : ∀ word, word ∈ b.used ↔ word ∈ taken.filterMap (graph.labelOf regionId)
  named : ∀ other label, b.bearings.get? other = some label → label ∈ b.used
  split : b.horizontals.length + b.used.length = taken.length
  covered : ∀ other, other ∈ taken.map Prod.fst ↔ other ∈ b.bearings.keys ∨ other ∈ b.horizontals

theorem VerticalDone.putOff (h : VerticalDone graph regionId taken b)
    (hlabel : ∀ label ∈ graph.labelOf regionId way, label ∈ b.used) :
    VerticalDone graph regionId (taken ++ [way])
      { b with horizontals := b.horizontals ++ [way.1] } := by
  constructor
  · exact h.apart.putOff _
  · intro word
    show word ∈ b.used ↔ _
    rw [List.filterMap_append, List.mem_append, ← h.used word]
    refine ⟨.inl, ?_⟩
    rintro (hword | hword)
    · exact hword
    · rw [List.mem_filterMap] at hword
      obtain ⟨way', hway', hword⟩ := hword
      rw [List.mem_singleton.mp hway'] at hword
      exact hlabel word hword
  · exact h.named
  · show (b.horizontals ++ [way.1]).length + b.used.length = _
    have := h.split
    simp only [List.length_append, List.length_singleton]
    omega
  · intro other
    show _ ↔ other ∈ b.bearings.keys ∨ other ∈ b.horizontals ++ [way.1]
    simp only [List.map_append, List.map_cons, List.map_nil, List.mem_append, List.mem_singleton,
      h.covered other, or_assoc]

/-- A way that gets the word it asks for. -/
theorem VerticalDone.label (h : VerticalDone graph regionId taken b) {label : String}
    (hlabel : graph.labelOf regionId way = some label) (hnew : label ∉ b.used) :
    VerticalDone graph regionId (taken ++ [way]) (b.assign way.1 label) := by
  have hword : label ∈ bearingWords := by
    rcases vertical_of_labelOf hlabel with rfl | rfl <;> decide
  constructor
  · exact h.apart.assign hword hnew
  · intro word
    show word ∈ b.used ++ [label] ↔ _
    rw [List.filterMap_append, List.mem_append, List.mem_append, h.used word]
    simp [hlabel]
  · intro other label' hget
    show label' ∈ b.used ++ [label]
    unfold Bearings.assign at hget
    rw [Dict.get?_insert] at hget
    split_ifs at hget with hsame
    · cases hget
      simp
    · exact List.mem_append_left _ (h.named other label' hget)
  · show b.horizontals.length + (b.used ++ [label]).length = _
    have := h.split
    simp only [List.length_append, List.length_singleton]
    omega
  · intro other
    show _ ↔ other ∈ (b.bearings.insert way.1 label).keys ∨ other ∈ b.horizontals
    rw [Dict.mem_keys_insert, List.map_append, List.mem_append, h.covered other]
    simp only [List.map_cons, List.map_nil, List.mem_singleton]
    tauto

/-- One more way is labelled or put off. -/
theorem verticalDone_addVertical (h : VerticalDone graph regionId taken b) :
    VerticalDone graph regionId (taken ++ [way])
      (b.addVertical graph ((graph.depthOf? regionId).getD 0) way) := by
  unfold Bearings.addVertical
  split
  · rename_i hnone
    apply h.putOff
    intro label hlabel
    cases hnone.symm.trans hlabel
  · rename_i label hsome
    by_cases hused : label ∈ b.used
    · -- the word is taken, so that the later way is put off to the compass
      rw [if_pos hused]
      apply h.putOff
      intro label' hlabel'
      rw [Option.some.inj (hlabel'.symm.trans hsome)]
      exact hused
    · rw [if_neg hused]
      exact h.label hsome hused

theorem verticalDone_foldl (taken : List (String × String)) : VerticalDone graph regionId taken
      (taken.foldl (Bearings.addVertical graph ((graph.depthOf? regionId).getD 0)) {}) := by
  induction taken using List.reverseRecOn with
  | nil =>
    constructor
    · exact Bearings.apart_empty
    · simp
    · simp
    · simp
    · simp
  | append_singleton taken way ih =>
    rw [List.foldl_append]
    exact verticalDone_addVertical ih

/-- The words that are used are those that were asked for, each once. -/
theorem VerticalDone.length_used (h : VerticalDone graph regionId taken b)
    {ways : List (String × String)} (hperm : taken.Perm ways) :
    b.used.length = (ways.filterMap (graph.labelOf regionId)).dedup.length := by
  apply List.Perm.length_eq
  apply (List.perm_ext_iff_of_nodup h.apart.nodup (List.nodup_dedup _)).mpr
  intro word
  rw [h.used word, List.mem_dedup]
  exact (hperm.filterMap _).mem_iff

end Vertical

/-! ### The compass -/

section Compass

variable {start b : Bearings} {taken : List String} {homeSlot : String → Nat} {other : String}

/-- The slots of the compass that are free. -/
def Bearings.free (b : Bearings) : List String := compassOrder.filter (· ∉ b.used)

/-- A slot that is given out is free no more. -/
theorem length_free_assign {slot : String} (hslot : slot ∈ b.free) :
    (b.assign other slot).free.length = b.free.length - 1 := by
  have hnodup : b.free.Nodup := List.Nodup.filter _ (by decide)
  have herase : (b.assign other slot).free = b.free.erase slot := by
    rw [hnodup.erase_eq_filter]
    unfold Bearings.free Bearings.assign
    rw [List.filter_filter]
    apply List.filter_congr
    intro word _
    by_cases hword : word = slot <;> simp [hword]
  rw [herase, List.length_erase_of_mem hslot]

theorem mem_free_of_find? {slot : String}
    (h : (compassOrder.rotate (homeSlot other)).find? (· ∉ b.used) = some slot) :
    slot ∈ b.free := by
  unfold Bearings.free
  rw [List.mem_filter]
  have hnew := List.find?_some h
  exact ⟨List.mem_rotate.mp (List.mem_of_find?_eq_some h), hnew⟩

theorem free_eq_nil_of_find?
    (h : (compassOrder.rotate (homeSlot other)).find? (· ∉ b.used) = none) : b.free = [] := by
  unfold Bearings.free
  rw [List.filter_eq_nil_iff]
  intro word hword
  exact List.find?_eq_none.mp h word (List.mem_rotate.mpr hword)

/-- What some of the other ways come to. Each takes a slot, until the eight are used up. -/
structure CompassDone (start : Bearings) (taken : List String) (b : Bearings) : Prop where
  apart : b.Apart
  free : b.free.length = 8 - taken.length
  named : taken.length ≤ 8 → ∀ other label, b.bearings.get? other = some label → label ∈ b.used
  overflow : 8 < taken.length → ∃ other ∈ taken, b.bearings.get? other = some (passage other)
  covered : ∀ other, other ∈ b.bearings.keys ↔ other ∈ start.bearings.keys ∨ other ∈ taken

/-- One more way takes a slot, or overflows. -/
theorem compassDone_addHorizontal (h : CompassDone start taken b) :
    CompassDone start (taken ++ [other]) (b.addHorizontal homeSlot other) := by
  have hcovered : ∀ label other', other' ∈ (b.bearings.insert other label).keys ↔
      other' ∈ start.bearings.keys ∨ other' ∈ taken ++ [other] := by
    intro label other'
    rw [Dict.mem_keys_insert, h.covered other', List.mem_append, List.mem_singleton]
    tauto
  have hlength : (taken ++ [other]).length = taken.length + 1 := by simp
  -- a slot is free, or the way gets an overflow label
  unfold Bearings.addHorizontal
  split
  · rename_i slot hfind
    have hfree := mem_free_of_find? hfind
    obtain ⟨hslot, hnew⟩ := List.mem_filter.mp hfree
    have hpos : 0 < b.free.length := List.length_pos_of_mem hfree
    constructor
    · refine h.apart.assign ?_ (by simpa using hnew)
      exact .tail _ (.tail _ hslot)
    · rw [length_free_assign hfree, h.free, hlength]
      omega
    · intro _ other' label hget
      show label ∈ b.used ++ [slot]
      unfold Bearings.assign at hget
      rw [Dict.get?_insert] at hget
      split_ifs at hget with hsame
      · cases hget
        simp
      · have hroom : taken.length ≤ 8 := by
          have := h.free
          omega
        exact List.mem_append_left _ (h.named hroom other' label hget)
    · -- a slot was free, so that at most seven ways came before
      have := h.free
      omega
    · exact hcovered slot
  · rename_i hfind
    have hnone := free_eq_nil_of_find? hfind
    have hfull : 8 ≤ taken.length := by
      have hfree := h.free
      rw [hnone] at hfree
      simp only [List.length_nil] at hfree
      omega
    constructor
    · exact h.apart.overflow
    · show b.free.length = _
      rw [h.free, hlength]
      omega
    · omega
    · intro _
      refine ⟨other, by simp, ?_⟩
      rw [Dict.get?_insert, if_pos rfl]
      rfl
    · exact hcovered _

theorem compassDone_foldl (homeSlot : String → Nat) (hapart : start.Apart)
    (hused : ∀ word ∈ start.used, word = "up" ∨ word = "down")
    (hnamed : ∀ other label, start.bearings.get? other = some label → label ∈ start.used)
    (taken : List String) :
    CompassDone start taken (taken.foldl (Bearings.addHorizontal homeSlot) start) := by
  induction taken using List.reverseRecOn with
  | nil =>
    have hfree : start.free = compassOrder := by
      unfold Bearings.free
      rw [List.filter_eq_self]
      intro word hword
      have hcompass : ∀ word ∈ compassOrder, word ≠ "up" ∧ word ≠ "down" := by decide
      rw [decide_eq_true_eq]
      intro hmem
      rcases hused word hmem with h | h
      · exact (hcompass word hword).1 h
      · exact (hcompass word hword).2 h
    constructor
    · exact hapart
    · show start.free.length = 8
      rw [hfree]
      rfl
    · exact fun _ => hnamed
    · intro h
      simp at h
    · simp
  | append_singleton taken other ih =>
    rw [List.foldl_append]
    exact compassDone_addHorizontal ih

end Compass

/-! ### All bearings of a region -/

section Assigned

variable (digest : String → Nat) (graph : RegionGraph) (regionId : String)

/-- What the bearings of a region are: one for each neighbour, no two alike, and all of them words
    unless more than eight ways need a slot of the compass. -/
structure Assigned (bearings : Dict String String) : Prop where
  keys : ∀ other, other ∈ bearings.keys ↔ other ∈ graph.neighborIds regionId
  apart : ∀ other other' label, bearings.get? other = some label →
    bearings.get? other' = some label → other = other'
  labels : ∀ other label, bearings.get? other = some label →
    label ∈ bearingWords ∨ label = passage other
  words : graph.compassWays regionId ≤ 8 → ∀ other label, bearings.get? other = some label →
    label ∈ bearingWords
  overflow : 8 < graph.compassWays regionId → ∃ other, bearings.get? other = some (passage other)

theorem assigned_assignBearings :
    Assigned graph regionId (assignBearings digest graph regionId) := by
  unfold assignBearings
  dsimp only
  have hways : graph.edges.filterMap (fun e => (RegionGraph.otherEnd regionId e).map
      (fun other => (other, e.kind))) = graph.ways regionId := rfl
  rw [hways]
  have hperm := List.perm_insertionSort (fun a b => toLex a ≤ toLex b) (graph.ways regionId)
  have hvertical : VerticalDone graph regionId _ _ := verticalDone_foldl
    ((graph.ways regionId).insertionSort (fun a b => toLex a ≤ toLex b))
  generalize (((graph.ways regionId).insertionSort (fun a b => toLex a ≤ toLex b)).foldl
    (Bearings.addVertical graph ((graph.depthOf? regionId).getD 0)) {}) = start at hvertical ⊢
  have hrank := List.perm_insertionSort (fun a b => toLex (bearingHomeSlot digest regionId a, a) ≤
    toLex (bearingHomeSlot digest regionId b, b)) start.horizontals
  have hused : ∀ word ∈ start.used, word = "up" ∨ word = "down" := by
    intro word hword
    rw [hvertical.used word, List.mem_filterMap] at hword
    obtain ⟨way, -, hlabel⟩ := hword
    exact vertical_of_labelOf hlabel
  have hcompass := compassDone_foldl (bearingHomeSlot digest regionId) hvertical.apart hused
    hvertical.named (start.horizontals.insertionSort
      (fun a b => toLex (bearingHomeSlot digest regionId a, a) ≤
        toLex (bearingHomeSlot digest regionId b, b)))
  have hcount : (start.horizontals.insertionSort
      (fun a b => toLex (bearingHomeSlot digest regionId a, a) ≤
        toLex (bearingHomeSlot digest regionId b, b))).length = graph.compassWays regionId := by
    have hsplit := hvertical.split
    rw [hvertical.length_used hperm, hperm.length_eq] at hsplit
    rw [hrank.length_eq]
    unfold RegionGraph.compassWays
    omega
  constructor
  · intro other
    rw [hcompass.covered other, hrank.mem_iff, ← hvertical.covered other,
      (hperm.map Prod.fst).mem_iff, graph.map_fst_ways]
  · exact hcompass.apart.apart
  · intro other label hget
    rcases hcompass.apart.known other label hget with h | h
    · exact .inl (hcompass.apart.words label h)
    · exact .inr h
  · intro hfew other label hget
    rw [← hcount] at hfew
    exact hcompass.apart.words label (hcompass.named hfew other label hget)
  · intro hmany
    rw [← hcount] at hmany
    obtain ⟨other, -, hget⟩ := hcompass.overflow hmany
    exact ⟨other, hget⟩

end Assigned

/-! ### Parallel ways -/

theorem collapse_concat (exits : List RegionExit) (e : RegionExit) : collapse (exits ++ [e]) =
      if e.toRegionId ∈ (collapse exits).map (·.toRegionId) then collapse exits
      else collapse exits ++ [e] := by
  unfold collapse
  rw [List.foldl_append]
  rfl

/-- Every neighbour keeps a way, and only one. -/
theorem collapse_single (exits : List RegionExit) : ((collapse exits).map (·.toRegionId)).Nodup ∧
      ∀ other, other ∈ (collapse exits).map (·.toRegionId) ↔ other ∈ exits.map (·.toRegionId) := by
  induction exits using List.reverseRecOn with
  | nil => simp [collapse]
  | append_singleton exits e ih =>
    obtain ⟨hnodup, hmem⟩ := ih
    rw [collapse_concat]
    by_cases hkept : e.toRegionId ∈ (collapse exits).map (·.toRegionId)
    · rw [if_pos hkept]
      refine ⟨hnodup, fun other => ?_⟩
      rw [hmem other, List.map_append, List.mem_append]
      refine ⟨.inl, ?_⟩
      rintro (h | h)
      · exact h
      · rw [List.map_singleton, List.mem_singleton] at h
        rw [h]
        exact (hmem _).mp hkept
    · rw [if_neg hkept]
      constructor
      · rw [List.map_append, List.nodup_append]
        refine ⟨hnodup, List.nodup_singleton _, ?_⟩
        intro a ha b hb hab
        rw [List.map_singleton, List.mem_singleton] at hb
        exact hkept (hb ▸ hab ▸ ha)
      · intro other
        rw [List.map_append, List.mem_append, List.map_append, List.mem_append, hmem other]

variable {e : RegionExit}

/-- **Of parallel ways the first is kept**: those before it lead elsewhere. -/
theorem collapse_first {exits : List RegionExit} (h : e ∈ collapse exits) :
    ∃ before after, exits = before ++ e :: after ∧ ∀ x ∈ before, x.toRegionId ≠ e.toRegionId := by
  induction exits using List.reverseRecOn with
  | nil => simp [collapse] at h
  | append_singleton exits a ih =>
    rw [collapse_concat] at h
    have hold : e ∈ collapse exits → ∃ before after, exits ++ [a] = before ++ e :: after ∧
        ∀ x ∈ before, x.toRegionId ≠ e.toRegionId := by
      intro hmem
      obtain ⟨before, after, heq, hbefore⟩ := ih hmem
      refine ⟨before, after ++ [a], ?_, hbefore⟩
      rw [heq, List.append_assoc, List.cons_append]
    split_ifs at h with hkept
    · exact hold h
    · rcases List.mem_append.mp h with h | h
      · exact hold h
      · obtain rfl := List.mem_singleton.mp h
        refine ⟨exits, [], rfl, fun x hx heq => hkept ?_⟩
        rw [(collapse_single exits).2, ← heq]
        exact List.mem_map_of_mem hx

theorem hidden_le_of_rank_le {x : RegionExit} (h : e.rank ≤ x.rank) : e.hidden ≤ x.hidden := by
  unfold RegionExit.rank at h
  rcases Prod.Lex.toLex_le_toLex.mp h with hlt | ⟨heq, -⟩
  · exact hlt.le
  · exact heq.le

section Exits

variable {digest : String → Nat} {graph : RegionGraph} {regionId : String}

/-- The exits of a region, once for every edge. -/
def edgeExits (digest : String → Nat) (graph : RegionGraph) (regionId : String) : List RegionExit :=
  graph.edges.filterMap (exitOf (assignBearings digest graph regionId) regionId)

theorem map_edgeExits : (edgeExits digest graph regionId).map (·.toRegionId)
    = graph.neighborIds regionId := by
  unfold edgeExits RegionGraph.neighborIds
  rw [List.map_filterMap]
  apply List.filterMap_congr
  intro e _
  unfold exitOf
  cases RegionGraph.otherEnd regionId e <;> rfl

/-- Every neighbour has one way out. -/
theorem single_projectExits (digest : String → Nat) (graph : RegionGraph) (regionId : String) :
    ((projectExits digest graph regionId).map (·.toRegionId)).Nodup ∧
      ∀ other, other ∈ (projectExits digest graph regionId).map (·.toRegionId) ↔
        other ∈ graph.neighborIds regionId := by
  unfold projectExits
  have hperm := fun l : List RegionExit => (List.perm_insertionSort
    (fun a b => toLex (a.hidden, a.toRegionId) ≤ toLex (b.hidden, b.toRegionId)) l).map
      (·.toRegionId)
  rw [(hperm _).nodup_iff]
  simp only [(hperm _).mem_iff]
  have hexits : graph.edges.filterMap (exitOf (assignBearings digest graph regionId) regionId)
      = edgeExits digest graph regionId := rfl
  rw [hexits]
  split_ifs with hnodup
  · exact ⟨hnodup, fun other => by rw [map_edgeExits]⟩
  · obtain ⟨hsingle, hmem⟩ := collapse_single
      ((edgeExits digest graph regionId).insertionSort (fun a b => a.rank ≤ b.rank))
    refine ⟨hsingle, fun other => ?_⟩
    rw [hmem other, ((List.perm_insertionSort (fun a b : RegionExit => a.rank ≤ b.rank)
      (edgeExits digest graph regionId)).map (·.toRegionId)).mem_iff, map_edgeExits]

theorem kept_of_mem_projectExits (h : e ∈ projectExits digest graph regionId) :
    e ∈ edgeExits digest graph regionId ∧ ∀ x ∈ edgeExits digest graph regionId,
      x.toRegionId = e.toRegionId → e.hidden ≤ x.hidden := by
  unfold projectExits at h
  have hexits : graph.edges.filterMap (exitOf (assignBearings digest graph regionId) regionId)
      = edgeExits digest graph regionId := rfl
  rw [hexits, List.mem_insertionSort] at h
  split_ifs at h with hnodup
  · refine ⟨h, fun x hx hsame => ?_⟩
    rw [List.inj_on_of_nodup_map hnodup hx h hsame]
  · -- the first of the parallel ways ranks lowest, and hidden ways rank behind visible ones
    obtain ⟨before, after, hsplit, hbefore⟩ := collapse_first h
    have hsorted := List.pairwise_insertionSort (fun a b : RegionExit => a.rank ≤ b.rank)
      (edgeExits digest graph regionId)
    have hmem : ∀ x, x ∈ edgeExits digest graph regionId ↔ x ∈ before ++ e :: after := by
      intro x
      rw [← hsplit, List.mem_insertionSort]
    refine ⟨(hmem e).mpr (by simp), fun x hx hsame => ?_⟩
    rw [hsplit, List.pairwise_append, List.pairwise_cons] at hsorted
    rcases List.mem_append.mp ((hmem x).mp hx) with hx | hx
    · exact absurd hsame (hbefore x hx)
    · rcases List.mem_cons.mp hx with rfl | hx
      · exact le_rfl
      · exact hidden_le_of_rank_le (hsorted.2.1.1 x hx)

theorem mem_edgeExits_iff : e ∈ edgeExits digest graph regionId ↔
    ∃ edge ∈ graph.edges, RegionGraph.otherEnd regionId edge = some e.toRegionId ∧
      e.kind = edge.kind ∧ e.hidden = edge.hidden ∧ e.shortcut = edge.shortcut ∧
      (assignBearings digest graph regionId).get? e.toRegionId = some e.bearing := by
  unfold edgeExits exitOf
  rw [List.mem_filterMap]
  constructor
  · rintro ⟨edge, hedge, hof⟩
    obtain ⟨other, hother, rfl⟩ := Option.map_eq_some_iff.mp hof
    refine ⟨edge, hedge, hother, rfl, rfl, rfl, ?_⟩
    have hkey : other ∈ (assignBearings digest graph regionId).keys :=
      ((assigned_assignBearings digest graph regionId).keys other).mpr
        (List.mem_filterMap.mpr ⟨edge, hedge, hother⟩)
    obtain ⟨label, hlabel⟩ := Dict.mem_keys_iff_get?.mp hkey
    show _ = some (((assignBearings digest graph regionId).get? other).getD "")
    rw [hlabel]
    rfl
  · rintro ⟨edge, hedge, hother, hkind, hhidden, hshortcut, hbearing⟩
    refine ⟨edge, hedge, ?_⟩
    cases e
    simp_all

end Exits

/-! ### The projection -/

/-- The ways out of a region as they should be: one for each neighbour, over a visible edge if there
    is one, with a bearing of its own, a word if there are at most eight. -/
structure WaysOut (graph : RegionGraph) (regionId : String) (exits : List RegionExit) : Prop where
  single : (exits.map (·.toRegionId)).Nodup
  all : ∀ other, other ∈ exits.map (·.toRegionId) ↔ other ∈ graph.neighborIds regionId
  named : ∀ e ∈ exits, e.bearing ≠ ""
  apart : (exits.map (·.bearing)).Nodup
  hidden : ∀ e ∈ exits, e.hidden = true → ∀ edge ∈ graph.edges,
    RegionGraph.otherEnd regionId edge = some e.toRegionId → edge.hidden = true
  taken : ∀ e ∈ exits, ∃ edge ∈ graph.edges,
    RegionGraph.otherEnd regionId edge = some e.toRegionId ∧
      e.kind = edge.kind ∧ e.hidden = edge.hidden ∧ e.shortcut = edge.shortcut
  slots : (graph.neighborIds regionId).dedup.length ≤ 8 →
    ∀ e ∈ exits, ¬ "passage-".toList <+: e.bearing.toList

section WaysOut

variable {digest : String → Nat} {graph : RegionGraph} {regionId : String}

theorem bearing_of_mem_projectExits (h : e ∈ projectExits digest graph regionId) :
    (assignBearings digest graph regionId).get? e.toRegionId = some e.bearing := by
  obtain ⟨-, -, -, -, -, -, hbearing⟩ := mem_edgeExits_iff.mp (kept_of_mem_projectExits h).1
  exact hbearing

/-- An overflow label is given exactly where more than eight ways need a slot. -/
theorem exists_passage_iff (digest : String → Nat) (graph : RegionGraph) (regionId : String) :
    (∃ e ∈ projectExits digest graph regionId, "passage-".toList <+: e.bearing.toList) ↔
      8 < graph.compassWays regionId := by
  have hassigned := assigned_assignBearings digest graph regionId
  constructor
  · rintro ⟨e, he, hpassage⟩
    by_contra hfew
    exact not_passage_of_mem (hassigned.words (not_lt.mp hfew) _ _
      (bearing_of_mem_projectExits he)) hpassage
  · intro hmany
    obtain ⟨other, hget⟩ := hassigned.overflow hmany
    have hother : other ∈ (projectExits digest graph regionId).map (·.toRegionId) := by
      rw [(single_projectExits digest graph regionId).2, ← hassigned.keys]
      exact Dict.mem_keys_of_get? hget
    obtain ⟨e, he, rfl⟩ := List.mem_map.mp hother
    refine ⟨e, he, ?_⟩
    have hbearing := (bearing_of_mem_projectExits he).symm.trans hget
    rw [Option.some.inj hbearing]
    unfold passage
    rw [String.toList_append]
    exact List.prefix_append _ _

/-- **The ways out of a region** are right exactly if it has more than eight neighbours, or at most
    eight edges that need a slot of the compass. -/
theorem waysOut_iff {currentRegion : String} {palette : Dict String Theme} {proj : RegionProjection}
    (h : projectRegion digest graph currentRegion palette = .ok proj) :
    WaysOut graph currentRegion proj.exits ↔
      8 < (graph.neighborIds currentRegion).dedup.length ∨ graph.compassWays currentRegion ≤ 8 := by
  rw [exits_of_projectRegion h]
  have hassigned := assigned_assignBearings digest graph currentRegion
  constructor
  · intro hways
    by_contra hnot
    rw [not_or, not_lt, not_le] at hnot
    obtain ⟨e, he, hpassage⟩ := (exists_passage_iff digest graph currentRegion).mpr hnot.2
    exact hways.slots hnot.1 e he hpassage
  · intro hroom
    obtain ⟨hsingle, hall⟩ := single_projectExits digest graph currentRegion
    constructor
    · exact hsingle
    · exact hall
    · intro e he hempty
      rcases hassigned.labels _ _ (bearing_of_mem_projectExits he) with hword | hpassage
      · rw [hempty] at hword
        exact absurd hword (by decide)
      · rw [hempty] at hpassage
        have hchars := congrArg String.toList hpassage
        unfold passage at hchars
        simp at hchars
    · apply List.Nodup.map_on _ (List.Nodup.of_map _ hsingle)
      intro e he e' he' hsame
      have hget := bearing_of_mem_projectExits he
      rw [hsame] at hget
      exact List.inj_on_of_nodup_map hsingle he he'
        (hassigned.apart _ _ _ hget (bearing_of_mem_projectExits he'))
    · intro e he hhidden edge hedge hother
      obtain ⟨-, hleast⟩ := kept_of_mem_projectExits he
      -- the exit of the other edge is parallel to the one that is kept
      have hbearing := bearing_of_mem_projectExits he
      have hx : ⟨e.toRegionId, edge.kind, edge.hidden, edge.shortcut, e.bearing⟩ ∈
          edgeExits digest graph currentRegion :=
        mem_edgeExits_iff.mpr ⟨edge, hedge, hother, rfl, rfl, rfl, hbearing⟩
      have hle : e.hidden ≤ edge.hidden := hleast _ hx rfl
      rw [hhidden] at hle
      exact top_le_iff.mp hle
    · intro e he
      obtain ⟨edge, hedge, hother, hkind, hhidden, hshortcut, -⟩ :=
        mem_edgeExits_iff.mp (kept_of_mem_projectExits he).1
      exact ⟨edge, hedge, hother, hkind, hhidden, hshortcut⟩
    · intro hfew e he hpassage
      have hmany : 8 < graph.compassWays currentRegion :=
        (exists_passage_iff digest graph currentRegion).mp ⟨e, he, hpassage⟩
      omega

/-! A neighbour behind nine corridors -/

/-- A hall, and a vault behind some corridors. -/
def corridors (count : Nat) : RegionGraph where
  entranceId := "hall"
  nodes := (Dict.empty.insert "hall" ⟨"hall", 0, "stone", some 0⟩).insert "vault"
    ⟨"vault", 1, "stone", some 10⟩
  edges := List.replicate count { a := "hall", b := "vault", kind := "corridor" }
  keyed := by decide
  known := by
    intro e he
    rw [List.eq_of_mem_replicate he]
    decide

/-- The palette of the hall and the vault. -/
def stonePalette : Dict String Theme := Dict.empty.insert "stone" ⟨"Stone", "grave", "cold", []⟩

/-- The hash of the pair of the hall and the vault. -/
def hallDigest (_ : String) : Nat := 14297931154481148639

theorem waysOut_iff_corridor :
    ∃ proj, projectRegion hallDigest (corridors 3) "hall" stonePalette = .ok proj ∧
      (WaysOut (corridors 3) "hall" proj.exits ↔
        8 < ((corridors 3).neighborIds "hall").dedup.length ∨
          (corridors 3).compassWays "hall" ≤ 8) := by
  have hproj : ∃ proj, projectRegion hallDigest (corridors 3) "hall" stonePalette = .ok proj :=
    ⟨_, rfl⟩
  obtain ⟨proj, hproj⟩ := hproj
  exact ⟨proj, hproj, waysOut_iff hproj⟩

/-- One neighbour behind nine corridors gets an overflow label. -/
theorem not_waysOut_corridors :
    ¬ ∀ (graph : RegionGraph) (currentRegion : String) (palette : Dict String Theme)
      (proj : RegionProjection), projectRegion hallDigest graph currentRegion palette = .ok proj →
        WaysOut graph currentRegion proj.exits := by
  intro hall
  have hways := hall (corridors 9) "hall" stonePalette _ rfl
  have hmany : 8 < (corridors 9).compassWays "hall" := by decide
  obtain ⟨e, he, hpassage⟩ := (exists_passage_iff hallDigest (corridors 9) "hall").mpr hmany
  exact hways.slots (by decide) e he hpassage

end WaysOut

end Sidequest.Dungeon
