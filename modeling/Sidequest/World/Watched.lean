import Sidequest.World.Regions

namespace Sidequest.World

open Lib Effect

/-!
# Observers with a store of their own

An observer of region transitions closes over a dungeon store: it reads and writes that store next
to the snapshot it is given. So the one-character branch of a patch is taken once more, over a
session together with whatever the observers keep.

* `mintQuestOffer_cases` — the four outcomes of a mint;
* `Watched`, `StoreObserver` — the session with the observers' store, and an observer of it;
* `Passes`, `patchPcRegion_raises_iff` — when it raises.
-/

section

variable {s s' : Session} {questId : String}

/-! ### One offer -/

/-- What a mint can come to. -/
theorem mintQuestOffer_cases (questId : String) (s : Session) : (questId ∈ s.questLog.keys ∧
      (mintQuestOffer questId).exec s = (.ok none, consumeOffer questId s)) ∨
    (s.pendingQuestOffers.get? questId = none ∧ (mintQuestOffer questId).exec s = (.ok none, s)) ∨
    (questLogCardinalityCap ≤ s.questLog.keys.length ∧
      (mintQuestOffer questId).exec s = (.error (.questLogFull questId), s)) ∨
    ∃ seed, s.questLog.keys.length < questLogCardinalityCap ∧ questId ∉ s.questLog.keys ∧
      (mintQuestOffer questId).exec s = (.ok (some seed.toEntry), acceptOffer questId seed s) := by
  unfold mintQuestOffer
  rw [exec_get_bind]
  by_cases hlog : (s.questLog.get? questId).isSome
  · refine .inl ⟨?_, by rw [if_pos hlog]; rfl⟩
    obtain ⟨entry, hentry⟩ := Option.isSome_iff_exists.mp hlog
    exact Dict.mem_keys_of_get? hentry
  · rw [if_neg hlog]
    have hnot : questId ∉ s.questLog.keys := by
      rw [← Dict.get?_eq_none_iff]
      simpa using hlog
    cases hoffer : s.pendingQuestOffers.get? questId with
    | none => exact .inr (.inl ⟨rfl, rfl⟩)
    | some seed =>
      dsimp only
      by_cases hfull : s.questLog.keys.length ≥ questLogCardinalityCap
      · refine .inr (.inr (.inl ⟨hfull, ?_⟩))
        rw [if_pos hfull]
        rfl
      · refine .inr (.inr (.inr ⟨seed, not_le.mp hfull, hnot, ?_⟩))
        rw [if_neg hfull]
        rfl

/-- A mint that is refused leaves the session as it found it. -/
theorem eq_of_mintQuestOffer_error {e : PatchError}
    (h : (mintQuestOffer questId).exec s = (.error e, s')) : s' = s := by
  rcases mintQuestOffer_cases questId s with ⟨-, hx⟩ | ⟨-, hx⟩ | ⟨-, hx⟩ | ⟨seed, -, -, hx⟩
  · exact (not_returned_of_raised h hx).elim
  · exact (not_returned_of_raised h hx).elim
  · exact ((Prod.mk.inj (h.symm.trans hx)).2)
  · exact (not_returned_of_raised h hx).elim

/-- A mint takes no offer off the list but its own. -/
theorem get?_pending_mintQuestOffer {other : String} (hne : other ≠ questId) :
    ((mintQuestOffer questId).exec s).2.pendingQuestOffers.get? other
      = s.pendingQuestOffers.get? other := by
  have herase : (s.pendingQuestOffers.erase questId).get? other
      = s.pendingQuestOffers.get? other := by
    rw [Dict.get?_erase, if_neg hne]
  rcases mintQuestOffer_cases questId s with ⟨-, hx⟩ | ⟨-, hx⟩ | ⟨-, hx⟩ | ⟨seed, -, -, hx⟩
  · rw [hx]
    exact herase
  · rw [hx]
  · rw [hx]
  · rw [hx]
    exact herase

/-! ### Several offers -/

/-- One round of a crossing. -/
def mintRound (minted : List QuestEntry) (questId : String) :
    Effect PatchError Session (List QuestEntry) := do
  let entry ← mintQuestOffer questId
  pure (minted ++ entry.toList)

/-- A mint whose entry nobody asks for. -/
def mintOffer (questId : String) : Effect PatchError Session Unit := do
  let _entry ← mintQuestOffer questId
  pure ()

theorem exec_mintRound (minted : List QuestEntry) (questId : String) (s : Session) :
    (mintRound minted questId).exec s = match (mintQuestOffer questId).exec s with
      | (.ok entry, s') => (.ok (minted ++ entry.toList), s')
      | (.error e, s') => (.error e, s') := by
  unfold mintRound
  rw [exec_bind]
  rcases (mintQuestOffer questId).exec s with ⟨_ | _, _⟩ <;> rfl

theorem exec_mintOffer (questId : String) (s : Session) :
    (mintOffer questId).exec s = match (mintQuestOffer questId).exec s with
      | (.ok _, s') => (.ok ⟨⟩, s')
      | (.error e, s') => (.error e, s') := by
  unfold mintOffer
  rw [exec_bind]
  rcases (mintQuestOffer questId).exec s with ⟨_ | _, _⟩ <;> rfl

variable {questIds : List String}

/-- Where a series of mints is refused, the ones before have gone through, and the refused one
    has changed nothing. -/
theorem foldlM_mintRound_error {minted : List QuestEntry} {e : PatchError}
    (h : (questIds.foldlM mintRound minted).exec s = (.error e, s')) :
    ∃ before refused left, questIds = before ++ refused :: left ∧
      (before.forM mintOffer).exec s = (.ok ⟨⟩, s') ∧
      (mintQuestOffer refused).exec s' = (.error e, s') := by
  induction questIds generalizing minted s with
  | nil => exact (not_returned_of_raised h rfl).elim
  | cons questId questIds ih =>
    rw [List.foldlM_cons, exec_bind, exec_mintRound] at h
    rcases hx : (mintQuestOffer questId).exec s with ⟨e' | entry, t⟩
    · rw [hx] at h
      obtain ⟨he, rfl⟩ := Prod.mk.inj h
      cases he
      obtain rfl := eq_of_mintQuestOffer_error hx
      exact ⟨[], questId, questIds, rfl, rfl, hx⟩
    · rw [hx] at h
      obtain ⟨before, refused, left, rfl, hbefore, hrefused⟩ := ih h
      refine ⟨questId :: before, refused, left, rfl, ?_, hrefused⟩
      rw [exec_forM_cons, exec_bind, exec_mintOffer, hx]
      exact hbefore

theorem get?_pending_forM_mintOffer {other : String} (hother : other ∉ questIds)
    (h : (questIds.forM mintOffer).exec s = (.ok ⟨⟩, s')) :
    s'.pendingQuestOffers.get? other = s.pendingQuestOffers.get? other := by
  induction questIds generalizing s with
  | nil =>
    cases h
    rfl
  | cons questId questIds ih =>
    rw [exec_forM_cons, exec_bind, exec_mintOffer] at h
    have hne : other ≠ questId := fun heq => hother (heq ▸ (.head _))
    have hmint := get?_pending_mintQuestOffer (s := s) hne
    rcases hx : (mintQuestOffer questId).exec s with ⟨e | entry, t⟩
    · rw [hx] at h
      simp at h
    · rw [hx] at h hmint
      exact (ih (fun hmem => hother (.tail questId hmem)) h).trans hmint

theorem nodup_anchoredOffers (offers : Dict String QuestSeed) (toRegion : String) :
    (anchoredOffers offers toRegion).Nodup :=
  offers.nodup.sublist (List.filter_sublist.map Prod.fst)

variable (fromRegion : Option String) (toRegion : String)

theorem exec_mintOnAnchorCrossing (s : Session) :
    (mintOnAnchorCrossing fromRegion toRegion).exec s =
      if orNone fromRegion = none ∨ toRegion = "" then (.ok [], s)
      else ((anchoredOffers s.pendingQuestOffers toRegion).foldlM mintRound []).exec s := by
  unfold mintOnAnchorCrossing
  split
  · rfl
  · rfl

theorem mintOnAnchorCrossing_refused {fromRegion : Option String} {toRegion : String}
    {e : PatchError} (h : (mintOnAnchorCrossing fromRegion toRegion).exec s = (.error e, s')) :
    ∃ minted refused left,
      anchoredOffers s.pendingQuestOffers toRegion = minted ++ refused :: left ∧
      (minted.forM mintOffer).exec s = (.ok ⟨⟩, s') ∧
      (mintQuestOffer refused).exec s' = (.error e, s') ∧
      s'.pendingQuestOffers.get? refused = s.pendingQuestOffers.get? refused := by
  rw [exec_mintOnAnchorCrossing] at h
  split at h
  · exact (not_returned_of_raised h rfl).elim
  · obtain ⟨minted, refused, left, heq, hminted, hrefused⟩ := foldlM_mintRound_error h
    have hnodup := nodup_anchoredOffers s.pendingQuestOffers toRegion
    rw [heq, List.nodup_middle, List.nodup_cons] at hnodup
    have hnot : refused ∉ minted := fun hmem => hnodup.1 (List.mem_append_left left hmem)
    exact ⟨minted, refused, left, heq, hminted, hrefused, get?_pending_forM_mintOffer hnot hminted⟩

/-! ### When a crossing is refused -/

/-- The offers of a crossing whose quests are not in the log. -/
def freshOffers (s : Session) : List String :=
  (anchoredOffers s.pendingQuestOffers toRegion).filter (· ∉ s.questLog.keys)

/-- The fresh offers of a crossing fit into the log. -/
def OffersFit (s : Session) : Prop :=
  orNone fromRegion = none ∨ toRegion = "" ∨ freshOffers toRegion s = [] ∨
    s.questLog.keys.length + (freshOffers toRegion s).length ≤ questLogCardinalityCap

instance (fromRegion : Option String) (toRegion : String) (s : Session) :
    Decidable (OffersFit fromRegion toRegion s) := inferInstanceAs (Decidable (_ ∨ _ ∨ _ ∨ _))

/-- A mint that goes through puts its quest into the log, or finds it there, or finds no offer. -/
theorem keys_mintQuestOffer {entry : Option QuestEntry}
    (hoffer : questId ∈ s.pendingQuestOffers.keys)
    (h : (mintQuestOffer questId).exec s = (.ok entry, s')) : s'.questLog.keys =
      if questId ∈ s.questLog.keys then s.questLog.keys else s.questLog.keys ++ [questId] := by
  rcases mintQuestOffer_cases questId s with
    ⟨hlog, hx⟩ | ⟨hnone, hx⟩ | ⟨-, hx⟩ | ⟨seed, -, hnot, hx⟩
  · cases h.symm.trans hx
    rw [if_pos hlog]
    rfl
  · exact absurd hoffer (Dict.get?_eq_none_iff.mp hnone)
  · exact (not_returned_of_raised hx h).elim
  · cases h.symm.trans hx
    show (s.questLog.insert questId seed.toEntry).keys = _
    rw [Dict.keys_insert, if_neg hnot]

theorem mintQuestOffer_raises_iff (hoffer : questId ∈ s.pendingQuestOffers.keys) :
    (∃ e s', (mintQuestOffer questId).exec s = (.error e, s')) ↔
      questId ∉ s.questLog.keys ∧ questLogCardinalityCap ≤ s.questLog.keys.length := by
  obtain ⟨seed, hseed⟩ := Dict.mem_keys_iff_get?.mp hoffer
  unfold mintQuestOffer
  rw [exec_get_bind]
  by_cases hlog : questId ∈ s.questLog.keys
  · obtain ⟨entry, hentry⟩ := Dict.mem_keys_iff_get?.mp hlog
    rw [hentry]
    refine iff_of_false ?_ (·.1 hlog)
    rintro ⟨e, s', h⟩
    exact not_returned_of_raised h rfl
  · rw [Dict.get?_eq_none_iff.mpr hlog, hseed]
    simp only [Option.isSome_none, Bool.false_eq_true, if_false]
    by_cases hfull : s.questLog.keys.length ≥ questLogCardinalityCap
    · rw [if_pos hfull]
      exact iff_of_true ⟨_, _, rfl⟩ ⟨hlog, hfull⟩
    · rw [if_neg hfull]
      refine iff_of_false ?_ (fun h => hfull h.2)
      rintro ⟨e, s', h⟩
      exact not_returned_of_raised h rfl

/-- A round of the crossing is refused where its mint is. -/
theorem mintRound_raises_iff (hoffer : questId ∈ s.pendingQuestOffers.keys)
    (minted : List QuestEntry) : (∃ e s', (mintRound minted questId).exec s = (.error e, s')) ↔
      questId ∉ s.questLog.keys ∧ questLogCardinalityCap ≤ s.questLog.keys.length := by
  rw [← mintQuestOffer_raises_iff hoffer, exec_mintRound]
  rcases (mintQuestOffer questId).exec s with ⟨_ | _, _⟩ <;> simp

/-- A round that goes through leaves a log with one more quest, or with the same ones; the other
    offers stay pending, and fresh where they were. -/
theorem mintRound_ok {minted minted' : List QuestEntry} (hnot : questId ∉ questIds)
    (hoffer : questId ∈ s.pendingQuestOffers.keys)
    (hoffers : ∀ id ∈ questIds, id ∈ s.pendingQuestOffers.keys)
    (h : (mintRound minted questId).exec s = (.ok minted', s')) :
    (∀ id ∈ questIds, id ∈ s'.pendingQuestOffers.keys) ∧
      questIds.filter (· ∉ s'.questLog.keys) = questIds.filter (· ∉ s.questLog.keys) ∧
      s'.questLog.keys =
        if questId ∈ s.questLog.keys then s.questLog.keys else s.questLog.keys ++ [questId] := by
  rw [exec_mintRound] at h
  rcases hx : (mintQuestOffer questId).exec s with ⟨e | entry, t⟩
  · rw [hx] at h
    simp at h
  rw [hx] at h
  cases h
  have hkeys := keys_mintQuestOffer hoffer hx
  refine ⟨fun id hid => ?_, List.filter_congr (fun id hid => ?_), hkeys⟩
  · have hne : id ≠ questId := fun heq => hnot (heq ▸ hid)
    have hsame := get?_pending_mintQuestOffer (s := s) hne
    rw [hx] at hsame
    rw [Dict.mem_keys_iff_get?, hsame, ← Dict.mem_keys_iff_get?]
    exact hoffers id hid
  · have hne : id ≠ questId := fun heq => hnot (heq ▸ hid)
    rw [hkeys]
    split
    · rfl
    · simp [hne]

/-- **All rounds.** One is refused exactly if there is a fresh offer, and not all of them fit. -/
theorem foldlM_mintRound_raises_iff (hnodup : questIds.Nodup)
    (hoffers : ∀ questId ∈ questIds, questId ∈ s.pendingQuestOffers.keys) (minted : List QuestEntry) :
    (∃ e s', (questIds.foldlM mintRound minted).exec s = (.error e, s')) ↔
      questIds.filter (· ∉ s.questLog.keys) ≠ [] ∧
        questLogCardinalityCap
          < s.questLog.keys.length + (questIds.filter (· ∉ s.questLog.keys)).length := by
  -- on the ids: each offer that is new to the log lengthens it by one
  induction questIds generalizing minted s with
  | nil =>
    refine iff_of_false ?_ (by simp)
    rintro ⟨e, s', h⟩
    exact not_returned_of_raised h rfl
  | cons questId questIds ih =>
    obtain ⟨hnot, hnodup⟩ := List.nodup_cons.mp hnodup
    obtain ⟨hoffer, hoffers⟩ := List.forall_mem_cons.mp hoffers
    have hraises := mintRound_raises_iff hoffer minted
    have hrest : ∀ a t, (mintRound minted questId).exec s = (.ok a, t) →
        ((∃ e s', (questIds.foldlM mintRound a).exec t = (.error e, s')) ↔
          questIds.filter (· ∉ s.questLog.keys) ≠ [] ∧ questLogCardinalityCap
            < t.questLog.keys.length + (questIds.filter (· ∉ s.questLog.keys)).length) ∧
        t.questLog.keys = if questId ∈ s.questLog.keys then s.questLog.keys
          else s.questLog.keys ++ [questId] := by
      intro a t ht
      obtain ⟨hpending, hfilter, hkeys⟩ := mintRound_ok hnot hoffer hoffers ht
      rw [← hfilter]
      exact ⟨ih hnodup hpending a, hkeys⟩
    rw [List.foldlM_cons, exec_bind_raises_iff, hraises]
    by_cases hlog : questId ∈ s.questLog.keys
    · rw [List.filter_cons_of_neg (by simpa using hlog)]
      constructor
      · rintro (h | ⟨a, t, ht, hrun⟩)
        · exact absurd hlog h.1
        · obtain ⟨hiff, hkeys⟩ := hrest a t ht
          rw [hkeys, if_pos hlog] at hiff
          exact hiff.mp hrun
      · intro h
        rcases hx : (mintRound minted questId).exec s with ⟨e | a, t⟩
        · exact absurd hlog (hraises.mp ⟨e, t, hx⟩).1
        · obtain ⟨hiff, hkeys⟩ := hrest a t hx
          rw [hkeys, if_pos hlog] at hiff
          exact .inr ⟨a, t, rfl, hiff.mpr h⟩
    · rw [List.filter_cons_of_pos (by simpa using hlog), List.length_cons]
      simp only [ne_eq, reduceCtorEq, not_false_eq_true, true_and]
      constructor
      · rintro (h | ⟨a, t, ht, hrun⟩)
        · omega
        · obtain ⟨hiff, hkeys⟩ := hrest a t ht
          rw [hkeys, if_neg hlog, List.length_append, List.length_singleton] at hiff
          have hover := (hiff.mp hrun).2
          omega
      · intro h
        -- the log is full now, or a later offer finds it so
        by_cases hfull : questLogCardinalityCap ≤ s.questLog.keys.length
        · exact .inl ⟨hlog, hfull⟩
        · rcases hx : (mintRound minted questId).exec s with ⟨e | a, t⟩
          · exact absurd (hraises.mp ⟨e, t, hx⟩).2 hfull
          · obtain ⟨hiff, hkeys⟩ := hrest a t hx
            rw [hkeys, if_neg hlog, List.length_append, List.length_singleton] at hiff
            refine .inr ⟨a, t, rfl, hiff.mpr ⟨?_, by omega⟩⟩
            intro hnil
            rw [hnil, List.length_nil] at h
            omega

/-- **A crossing is refused** exactly if the fresh ones among its offers do not fit. -/
theorem mintOnAnchorCrossing_raises_iff (s : Session) :
    (∃ e s', (mintOnAnchorCrossing fromRegion toRegion).exec s = (.error e, s')) ↔
      ¬ OffersFit fromRegion toRegion s := by
  rw [exec_mintOnAnchorCrossing]
  by_cases hgo : orNone fromRegion = none ∨ toRegion = ""
  · rw [if_pos hgo]
    refine iff_of_false ?_ (not_not.mpr ?_)
    · rintro ⟨e, s', h⟩
      exact not_returned_of_raised h rfl
    · rcases hgo with h | h
      · exact .inl h
      · exact .inr (.inl h)
  · rw [if_neg hgo]
    have hoffers : ∀ questId ∈ anchoredOffers s.pendingQuestOffers toRegion,
        questId ∈ s.pendingQuestOffers.keys := by
      intro questId hmem
      exact (List.filter_sublist.map Prod.fst).subset hmem
    rw [foldlM_mintRound_raises_iff (nodup_anchoredOffers _ _) hoffers]
    rw [not_or] at hgo
    simp only [OffersFit, hgo.1, hgo.2, false_or, not_or, not_le]
    exact Iff.rfl

end

variable {W : Type}

/-- A session with what the observers keep. -/
structure Watched (W : Type) extends Session where
  store : W

/-- The states differ in quests, quest anchors and the pool of citable names at most, whatever
    became of the store. -/
def StoreSameButQuests (p p' : GameSnapshot × W) : Prop := SameButQuests p.1 p'.1

/-- An observer of region transitions with a store: it may change the store, and it may raise. -/
structure StoreObserver (W : Type) where
  observe : RegionNotice → Effect PatchError (GameSnapshot × W) Unit
  sameButQuests : ∀ notice, Preserves StoreSameButQuests (observe notice)

/-- Run a computation on the session. -/
def onSession (m : Effect PatchError Session Unit) : Effect PatchError (Watched W) Unit :=
  ExceptT.mk (m := StateM (Watched W)) fun w =>
    ((m.exec w.toSession).1, { w with toSession := (m.exec w.toSession).2 })

/-- What an observer is given. -/
def Watched.observed (w : Watched W) : GameSnapshot × W := (w.toGameSnapshot, w.store)

/-- What an observer hands back. -/
def Watched.putObserved (w : Watched W) (p : GameSnapshot × W) : Watched W :=
  { w with toGameSnapshot := p.1, store := p.2 }

/-- Run a computation on the snapshot and the observers' store. -/
def onSnapshotAndStore (m : Effect PatchError (GameSnapshot × W) Unit) :
    Effect PatchError (Watched W) Unit :=
  ExceptT.mk (m := StateM (Watched W)) fun w =>
    ((m.exec w.observed).1, w.putObserved (m.exec w.observed).2)

theorem exec_onSession (m : Effect PatchError Session Unit) (w : Watched W) :
    (onSession m).exec w
      = ((m.exec w.toSession).1, { w with toSession := (m.exec w.toSession).2 }) := rfl

variable (observers : List (StoreObserver W))

/-- Change the session. -/
def Watched.mapSession (f : Session → Session) (w : Watched W) : Watched W :=
  { w with toSession := f w.toSession }

/-- Tell the observers, in the order of registration. -/
def tellObservers (notice : RegionNotice) : Effect PatchError (Watched W) Unit :=
  observers.forM (fun observer => onSnapshotAndStore (observer.observe notice))

/-- Fire the frontier seam for one region transition. -/
def notifyObserved (notice : RegionNotice) : Effect PatchError (Watched W) Unit := do
  modify (Watched.mapSession (announce notice))
  tellObservers observers notice

/-- A genuine crossing: the receipt, the notice, and the quests it accepts. -/
def crossObserved (notice : RegionNotice) : Effect PatchError (Watched W) Unit := do
  modify (Watched.mapSession (stampTransition notice))
  notifyObserved observers notice
  onSession (do
    let _minted ← mintOnAnchorCrossing notice.fromRegion notice.toRegion
    pure ())

/-- One entry of `pc_region`. -/
def moveObserved (move : String × String) : Effect PatchError (Watched W) Unit := do
  let w ← get
  modify (Watched.mapSession (setPcRegion move.1 move.2))
  match crossing w.pcRegions move with
  | some notice => crossObserved observers notice
  | none => pure ()

/-- Apply `WorldStatePatch(pc_region={pc_name: to_region})`. -/
def patchPcRegion (move : String × String) : Effect PatchError (Watched W) Unit := do
  moveObserved observers move
  modify (Watched.mapSession syncAnchor)

/-- The session and the store as the observers are told of a crossing. -/
def announced (notice : RegionNotice) (move : String × String) (w : Watched W) : Watched W :=
  w.mapSession (fun s => announce notice (stampTransition notice (setPcRegion move.1 move.2 s)))

/-! ### Moves on the map -/

/-- Quiet in the session. -/
def WatchedQuiet (w w' : Watched W) : Prop := Quiet w.toSession w'.toSession

instance : IsPreorder (Watched W) WatchedQuiet where
  refl w := refl_of Quiet w.toSession
  trans _ _ _ h h' := trans_of Quiet h h'

theorem quiet_putObserved {w : Watched W} {p : GameSnapshot × W}
    (h : StoreSameButQuests w.observed p) : WatchedQuiet w (w.putObserved p) := by
  show Quiet w.toSession { w.toSession with toGameSnapshot := p.1 }
  rw [h]
  exact ⟨⟨rfl, rfl, rfl, rfl, rfl, rfl, rfl, rfl, rfl, rfl⟩, rfl, rfl, rfl, rfl⟩

theorem quiet_onSnapshotAndStore {m : Effect PatchError (GameSnapshot × W) Unit}
    (h : Preserves StoreSameButQuests m) : Preserves WatchedQuiet (onSnapshotAndStore m) :=
  fun w => quiet_putObserved (h w.observed)

theorem quiet_tellObservers (notice : RegionNotice) :
    Preserves WatchedQuiet (tellObservers observers notice) :=
  preserves_forM (fun observer => quiet_onSnapshotAndStore (observer.sameButQuests notice))
    observers

theorem exec_crossObserved (notice : RegionNotice) (move : String × String) (w : Watched W) :
    (crossObserved observers notice).exec (w.mapSession (setPcRegion move.1 move.2))
      = (tellObservers observers notice >>= fun _ => onSession (do
          let _minted ← mintOnAnchorCrossing notice.fromRegion notice.toRegion
          pure ())).exec (announced notice move w) := by
  unfold crossObserved notifyObserved
  rfl

theorem quiet_mintObserved (fromRegion : Option String) (toRegion : String) :
    Preserves WatchedQuiet (onSession (do
      let _minted ← mintOnAnchorCrossing fromRegion toRegion
      pure ()) : Effect PatchError (Watched W) Unit) :=
  fun w => (quiet_mintOnAnchorCrossing fromRegion toRegion).bind (fun _ => preserves_pure ())
    w.toSession

/-- **One entry is a move on the map**, and quiet otherwise, wherever it ends. -/
theorem quiet_moveObserved (move : String × String) (w : Watched W) :
    Quiet (moveOnMap w.toSession move) ((moveObserved observers move).exec w).2.toSession := by
  unfold moveObserved moveOnMap
  rw [exec_get_bind, exec_modify_bind]
  cases crossing w.pcRegions move with
  | none => exact refl_of Quiet _
  | some notice =>
    rw [exec_crossObserved]
    exact ((quiet_tellObservers observers notice).bind
      (fun _ => quiet_mintObserved notice.fromRegion notice.toRegion)) (announced notice move w)

theorem quiet_patchPcRegion {move : String × String} {w w' : Watched W} {u : Unit}
    (h : (patchPcRegion observers move).exec w = (.ok u, w')) :
    Quiet (syncAnchor (moveOnMap w.toSession move)) w'.toSession := by
  obtain ⟨_, t, hmove, hsync⟩ := exists_of_exec_bind h
  have hquiet := quiet_moveObserved observers move w
  rw [hmove] at hquiet
  obtain rfl := eq_of_exec_modify hsync
  exact quiet_syncAnchor hquiet

theorem quiet_patchPcRegion_raised {move : String × String} {w w' : Watched W} {e : PatchError}
    (h : (patchPcRegion observers move).exec w = (.error e, w')) :
    Quiet (moveOnMap w.toSession move) w'.toSession := by
  rcases exec_bind_error h with hmove | ⟨_, t, -, hsync⟩
  · have hquiet := quiet_moveObserved observers move w
    rw [hmove] at hquiet
    exact hquiet
  · simp at hsync

/-! ### When a patch raises -/

/-- A move passes if it is no crossing, or if the observers, told of it one after another, all
    return and leave room in the quest log for the offers it accepts. -/
def Passes (w : Watched W) (move : String × String) : Prop :=
  match crossing w.pcRegions move with
  | none => True
  | some notice =>
    match (tellObservers observers notice).exec (announced notice move w) with
    | (.ok _, told) => OffersFit notice.fromRegion notice.toRegion told.toSession
    | (.error _, _) => False

instance (w : Watched W) (move : String × String) : Decidable (Passes observers w move) := by
  unfold Passes
  cases crossing w.pcRegions move with
  | none => exact inferInstanceAs (Decidable True)
  | some notice =>
    dsimp only
    rcases (tellObservers observers notice).exec (announced notice move w) with ⟨_ | _, told⟩
    · exact inferInstanceAs (Decidable False)
    · exact inferInstanceAs (Decidable (OffersFit _ _ _))

theorem onSession_mint_raises_iff (fromRegion : Option String) (toRegion : String) (w : Watched W) :
    (∃ e w', (onSession (do
      let _minted ← mintOnAnchorCrossing fromRegion toRegion
      pure ())).exec w = (.error e, w')) ↔ ¬ OffersFit fromRegion toRegion w.toSession := by
  rw [← mintOnAnchorCrossing_raises_iff, exec_onSession, exec_bind]
  rcases (mintOnAnchorCrossing fromRegion toRegion).exec w.toSession with ⟨_ | _, _⟩ <;> simp

/-- **A patch of one region raises** exactly if the move does not pass. -/
theorem patchPcRegion_raises_iff (move : String × String) (w : Watched W) :
    (∃ e w', (patchPcRegion observers move).exec w = (.error e, w')) ↔
      ¬ Passes observers w move := by
  have hsync : ∀ t : Watched W, ¬ ∃ e w', (modify (Watched.mapSession syncAnchor) :
      Effect PatchError (Watched W) PUnit).exec t = (.error e, w') := by
    rintro t ⟨e, w', h⟩
    simp at h
  unfold patchPcRegion moveObserved Passes
  rw [exec_bind_raises_iff, exec_get_bind, exec_modify_bind]
  simp only [hsync, and_false, exists_false, or_false]
  cases crossing w.pcRegions move with
  | none => simp
  | some notice =>
    dsimp only
    rw [exec_crossObserved, exec_bind]
    rcases (tellObservers observers notice).exec (announced notice move w) with ⟨e | u, told⟩
    · simp
    · exact onSession_mint_raises_iff notice.fromRegion notice.toRegion told

end Sidequest.World
