import Sidequest.Dungeon.Contiguous
import Sidequest.Dungeon.Materialize

namespace Sidequest.Dungeon

open Lib Effect

/-!
# What a failed materialization leaves

Where a materialization raises, the snapshot should be as it was: the store is rolled back. But the
tropes of a set-piece are started in the snapshot as the set-piece is attached, and nothing stops
them if a later step raises.

* `Grows`, `stays_attachPiece_iff` — an attachment only adds tropes, and when it adds none;
* `unchangedIfRaised_iff` — a failure leaves the snapshot alone exactly if none comes after a trope
  was started.
-/

variable {F : Type} (m : Materializer F) (request : MaterializationRequest)

/-! ### Tropes are only added -/

/-- Tropes were added, and nothing else of the snapshot changed. -/
structure Grows (s s' : AttachLoop) : Prop where
  rest : s'.snapshot = { s.snapshot with activeTropes := s'.snapshot.activeTropes }
  tropes : s.snapshot.activeTropes <+: s'.snapshot.activeTropes

instance : IsPreorder AttachLoop Grows where
  refl _ := ⟨rfl, List.prefix_refl _⟩
  trans _ _ _ h h' := ⟨by rw [h'.rest, h.rest], h.tropes.trans h'.tropes⟩

theorem grows_of_snapshot {s s' : AttachLoop} (h : s'.snapshot = s.snapshot) : Grows s s' :=
  ⟨by rw [h], by rw [h]⟩

/-- What has grown back to where it was has not changed. -/
theorem Grows.back_iff {s s' : AttachLoop} (h : Grows s s') :
    Grows s' s ↔ s'.snapshot = s.snapshot := by
  refine ⟨fun hback => ?_, fun hsame => grows_of_snapshot hsame.symm⟩
  have htropes : s'.snapshot.activeTropes = s.snapshot.activeTropes :=
    hback.tropes.eq_of_length_le h.tropes.length_le
  rw [h.rest, htropes]

namespace Materializer

/-- A set-piece starts tropes: the budget has room for one, and all are in the pack. -/
def Lights (piece : SetPiece) (s : AttachLoop) : Prop :=
  s.threadsAlreadyLit < request.burstMagnitude ∧ piece.tropeComponents ≠ [] ∧
    ∀ c ∈ piece.tropeComponents, (m.packTropes.byId c.tropeId).isSome = true

/-- A set-piece of a region passes. -/
def Passes (regionId : String) (piece : SetPiece) (s : AttachLoop) : Prop :=
  PiecePasses m.entropy m.packTropes (placement request regionId piece.id) piece
    request.burstMagnitude s.threadsAlreadyLit s.toAttaching

/-! ### One set-piece -/

variable {regionId : String} {piece : SetPiece}

theorem attachPiece_raises_iff (s : AttachLoop) :
    (∃ e s', (attachPiece m request regionId piece).exec s = (.error e, s')) ↔
      ¬ Passes m request regionId piece s := by
  unfold attachPiece Passes
  rw [exec_get_bind, exec_bind_raises_iff, zoom_raises_iff, adapt_raises_iff,
    attachSetPiece_raises_iff]
  have hcount : ∀ (report : AttachReport) (t : AttachLoop), ¬ ∃ e s',
      (modify (fun s : AttachLoop => { s with
        threadsAlreadyLit := s.threadsAlreadyLit + report.threadsWritten
        attachReports := s.attachReports ++ [report] }) :
        Effect MaterializeError AttachLoop PUnit).exec t = (.error e, s') := by
    rintro report t ⟨e, s', h⟩
    cases congrArg Prod.fst h
  simp only [hcount, and_false, exists_false, or_false]

theorem snapshot_attachPiece (s : AttachLoop) :
    ((attachPiece m request regionId piece).exec s).2.snapshot =
      ((attachSetPiece m.entropy m.packTropes (placement request regionId piece.id) piece
        request.burstMagnitude s.threadsAlreadyLit).exec s.toAttaching).2.snapshot := by
  unfold attachPiece
  rw [exec_get_bind, exec_bind, exec_zoom, exec_adapt]
  rcases (attachSetPiece m.entropy m.packTropes (placement request regionId piece.id) piece
    request.burstMagnitude s.threadsAlreadyLit).exec s.toAttaching with ⟨e | report, t⟩
  · rfl
  · rfl

theorem grows_attachPiece : Preserves Grows (attachPiece m request regionId piece) := by
  intro s
  have hsnapshot : ((attachPiece m request regionId piece).exec s).2.snapshot = _ :=
    snapshot_attachPiece m request s
  rw [snapshot_attachSetPiece] at hsnapshot
  split at hsnapshot
  · exact ⟨by rw [hsnapshot]; rfl, by rw [hsnapshot]; exact List.prefix_append _ _⟩
  · exact grows_of_snapshot hsnapshot

/-- **A set-piece adds no trope** exactly if it starts none. -/
theorem stays_attachPiece_iff (s : AttachLoop) :
    Grows ((attachPiece m request regionId piece).exec s).2 s ↔ ¬ Lights m request piece s := by
  rw [(grows_attachPiece m request s).back_iff, snapshot_attachPiece, snapshot_attachSetPiece]
  have hstarts : ¬ Lights m request piece s ↔
      (KnownTropes m.packTropes piece.tropeComponents request.burstMagnitude s.threadsAlreadyLit →
        startable m.entropy (placement request regionId piece.id) piece.tropeComponents
          request.burstMagnitude s.threadsAlreadyLit = []) := by
    rw [startable_eq_nil_iff]
    constructor
    · intro hnot hknown
      by_contra hleft
      rw [not_or, not_le] at hleft
      exact hnot ⟨hleft.1, hleft.2, hknown hleft.1⟩
    · rintro hnone ⟨hbudget, hsome, hall⟩
      rcases hnone (fun _ => hall) with hspent | hempty
      · omega
      · exact hsome hempty
  rw [hstarts]
  split
  · rename_i hknown
    rw [LiveSnapshot.startTropes_eq_self_iff, forall_prop_of_true hknown]
  · rename_i hunknown
    exact iff_of_true rfl (fun hknown => absurd hknown hunknown)

/-! ### One region -/

section Region

variable (graph : RegionGraph) (curation : RegionCuration)

/-- The set-pieces of a region, each with the state its attachment starts from. -/
def pieceVisits (node : RegionNode) (s : AttachLoop) : List (SetPiece × AttachLoop) :=
  match regionTheme m graph curation node with
  | .error _ => []
  | .ok theme => visits (attachPiece m request node.id) theme.setPieces s

/-- Some set-piece of the region starts tropes. -/
def LightsRegion (visit : RegionNode × AttachLoop) : Prop :=
  ∃ v ∈ pieceVisits m request graph curation visit.1 visit.2, Lights m request v.1 v.2

/-- A region passes: its theme, its manifest and its score are there, and its set-pieces pass. -/
def RegionPasses (visit : RegionNode × AttachLoop) : Prop :=
  (∃ theme, regionTheme m graph curation visit.1 = .ok theme) ∧
    ∀ v ∈ pieceVisits m request graph curation visit.1 visit.2, Passes m request visit.1.id v.1 v.2

variable {graph : RegionGraph} {curation : RegionCuration} (node : RegionNode) (s : AttachLoop)

theorem exec_attachRegion_of_ok {theme : DungeonTheme}
    (h : regionTheme m graph curation node = .ok theme) :
    (attachRegion m request graph curation node).exec s
      = (theme.setPieces.forM (attachPiece m request node.id)).exec s := by
  unfold attachRegion
  rw [h]
  rfl

theorem exec_attachRegion_of_error {e : MaterializeError}
    (h : regionTheme m graph curation node = .error e) :
    (attachRegion m request graph curation node).exec s = (.error e, s) := by
  unfold attachRegion
  rw [h]
  rfl

theorem attachRegion_raises_iff :
    (∃ e s', (attachRegion m request graph curation node).exec s = (.error e, s')) ↔
      ¬ RegionPasses m request graph curation (node, s) := by
  unfold RegionPasses pieceVisits
  cases htheme : regionTheme m graph curation node with
  | error e =>
    refine iff_of_true ⟨e, s, exec_attachRegion_of_error m request node s htheme⟩ ?_
    rintro ⟨⟨theme, h⟩, -⟩
    cases h
  | ok theme =>
    rw [exec_attachRegion_of_ok m request node s htheme, forM_error_iff]
    simp [attachPiece_raises_iff]

theorem grows_attachRegion : Preserves Grows (attachRegion m request graph curation node) := by
  intro s
  cases htheme : regionTheme m graph curation node with
  | error e =>
    rw [exec_attachRegion_of_error m request node s htheme]
    exact refl_of Grows s
  | ok theme =>
    rw [exec_attachRegion_of_ok m request node s htheme]
    exact preserves_forM (fun _ => grows_attachPiece m request) _ s

/-- **A region adds no trope** exactly if none of its set-pieces starts one. -/
theorem stays_attachRegion_iff : Grows ((attachRegion m request graph curation node).exec s).2 s ↔
      ¬ LightsRegion m request graph curation (node, s) := by
  unfold LightsRegion pieceVisits
  cases htheme : regionTheme m graph curation node with
  | error e =>
    rw [exec_attachRegion_of_error m request node s htheme]
    exact iff_of_true (refl_of Grows s) (by simp)
  | ok theme =>
    rw [exec_attachRegion_of_ok m request node s htheme,
      exec_forM_stays_iff (fun _ => grows_attachPiece m request)]
    simp [stays_attachPiece_iff]

end Region

/-! ### All regions, and the quest -/

section Expansion

variable (graph : RegionGraph) (curation : RegionCuration) (expansion : Expansion)

/-- Some set-piece that the attach stage comes to starts tropes. -/
def StartsTropes (s : AttachLoop) : Prop :=
  ∃ visit ∈ visits (attachRegion m request graph curation) expansion.newNodes s,
    LightsRegion m request graph curation visit

/-- The quest passes: the deepest region's theme is there, and if it has a template, the region has
    a score and the thread is fresh. -/
def QuestPasses (s : AttachLoop) : Prop :=
  ∃ thread?, deepestQuest m request graph expansion curation = .ok thread? ∧
    Fresh s.ledger thread?.toList

/-- All regions pass, and the quest does after them. -/
def AttachPasses (s : AttachLoop) : Prop :=
  (∀ visit ∈ visits (attachRegion m request graph curation) expansion.newNodes s,
    RegionPasses m request graph curation visit) ∧
  QuestPasses m request graph curation expansion
    ((expansion.newNodes.forM (attachRegion m request graph curation)).exec s).2

theorem seedExpansionQuest_raises_iff (s : AttachLoop) :
    (∃ e s', (seedExpansionQuest m request graph expansion curation).exec s = (.error e, s')) ↔
      ¬ QuestPasses m request graph curation expansion s := by
  unfold seedExpansionQuest QuestPasses
  cases hquest : deepestQuest m request graph expansion curation with
  | error e =>
    refine iff_of_true ⟨e, s, rfl⟩ ?_
    rintro ⟨thread?, h, -⟩
    cases h
  | ok thread? =>
    rw [exec_ofExcept_ok_bind, zoom_raises_iff, adapt_raises_iff, openAll_raises_iff]
    simp

theorem snapshot_seedExpansionQuest (s : AttachLoop) :
    ((seedExpansionQuest m request graph expansion curation).exec s).2.snapshot = s.snapshot := by
  unfold seedExpansionQuest
  cases hquest : deepestQuest m request graph expansion curation with
  | error e => rfl
  | ok thread? =>
    have hsame := preserves_forM snapshot_openInLedger thread?.toList s.toAttaching
    rw [exec_ofExcept_ok_bind, exec_zoom, exec_adapt]
    rcases hexec : (thread?.toList.forM openInLedger).exec s.toAttaching with ⟨e | u, t⟩
    · rw [hexec] at hsame
      exact hsame
    · rw [hexec] at hsame
      exact hsame

theorem attachAll_raises_iff (s : AttachLoop) :
    (∃ e s', (attachAll m request graph expansion curation).exec s = (.error e, s')) ↔
      ¬ AttachPasses m request graph curation expansion s := by
  have hregions : (∃ e s', (expansion.newNodes.forM
      (attachRegion m request graph curation)).exec s = (.error e, s')) ↔ _ :=
    forM_raises_iff (attachRegion_raises_iff m request) expansion.newNodes s
  unfold attachAll AttachPasses
  rw [exec_bind]
  rcases hloop : (expansion.newNodes.forM (attachRegion m request graph curation)).exec s
    with ⟨e | u, t⟩
  · exact iff_of_true ⟨e, t, rfl⟩ (fun h => hregions.mp ⟨e, t, hloop⟩ h.1)
  · have hpass : ∀ visit ∈ visits (attachRegion m request graph curation) expansion.newNodes s,
        RegionPasses m request graph curation visit := by
      by_contra hnot
      obtain ⟨e, t', hraised⟩ := hregions.mpr hnot
      exact not_returned_of_raised hraised hloop
    have hquest := seedExpansionQuest_raises_iff m request graph curation expansion t
    rw [and_iff_right hpass, ← hquest]
    dsimp only
    rw [exec_bind]
    rcases (seedExpansionQuest m request graph expansion curation).exec t with ⟨e | u, t'⟩
    · exact iff_of_true ⟨e, t', rfl⟩ ⟨e, t', rfl⟩
    · refine iff_of_false ?_ ?_
      · rintro ⟨e, t'', h⟩
        exact not_returned_of_raised h rfl
      · rintro ⟨e, t'', h⟩
        exact not_returned_of_raised h rfl

theorem snapshot_attachAll (s : AttachLoop) :
    ((attachAll m request graph expansion curation).exec s).2.snapshot =
      ((expansion.newNodes.forM (attachRegion m request graph curation)).exec s).2.snapshot := by
  unfold attachAll
  rw [exec_bind]
  rcases (expansion.newNodes.forM (attachRegion m request graph curation)).exec s with ⟨e | u, t⟩
  · rfl
  · have hquest := snapshot_seedExpansionQuest m request graph curation expansion t
    dsimp only
    rw [exec_bind]
    rcases hexec : (seedExpansionQuest m request graph expansion curation).exec t with ⟨e | u, t'⟩
    · rw [hexec] at hquest
      exact hquest
    · rw [hexec] at hquest
      exact hquest

/-- **The attach stage leaves the snapshot alone** exactly if it starts no trope. -/
theorem snapshot_attachAll_iff (s : AttachLoop) :
    ((attachAll m request graph expansion curation).exec s).2.snapshot = s.snapshot ↔
      ¬ StartsTropes m request graph curation expansion s := by
  have hgrows : Preserves Grows (expansion.newNodes.forM (attachRegion m request graph curation)) :=
    preserves_forM (grows_attachRegion m request) _
  rw [snapshot_attachAll, ← (hgrows s).back_iff, exec_forM_stays_iff (grows_attachRegion m request)]
  unfold StartsTropes
  push Not
  exact forall₂_congr (fun visit _ => stays_attachRegion_iff m request visit.1 visit.2)

end Expansion

/-! ### A whole run -/

section Run

variable {prepared : Prepared F} {graph : RegionGraph} {c : Campaign}

/-- The attach stage after the map has grown. -/
def attaching (prepared : Prepared F) (graph : RegionGraph) :
    Effect MaterializeError AttachLoop (List AttachReport) :=
  attachAll m request graph prepared.expansion prepared.curation

/-- The commit stage after an attach stage that ended in `s`. -/
def committing (prepared : Prepared F) (graph : RegionGraph) (s : AttachLoop) :
    Effect MaterializeError Tables (Option String × List (String × String)) :=
  stageCommit m request graph prepared.expansion prepared.fills prepared.curation s.attachReports
    prepared.isFreshSave

/-- Everything after the map has grown passes: the regions and the quest, then the commit, and the
    writing of the room files. -/
def Completes (prepared : Prepared F) (graph : RegionGraph) (c : Campaign) : Prop :=
  AttachPasses m request graph prepared.curation prepared.expansion c.attaching ∧
    ∃ emit tables, (committing m request prepared graph
        ((attaching m request prepared graph).exec c.attaching).2).exec
          (c.putAttaching ((attaching m request prepared graph).exec c.attaching).2).tables
        = (.ok emit, tables) ∧ ∃ u, emitRooms m emit = .ok u

/-- What the attach stage answers with is what its counter holds. -/
theorem reports_of_attaching {s s' : AttachLoop} {reports : List AttachReport}
    (h : (attaching m request prepared graph).exec s = (.ok reports, s')) :
    reports = s'.attachReports := by
  obtain ⟨_, _, -, h⟩ := exists_of_exec_bind h
  obtain ⟨_, t, -, h⟩ := exists_of_exec_bind h
  obtain ⟨hreports, rfl⟩ := Prod.mk.inj h
  exact (Except.ok.inj hreports).symm

/-- Attach and commit, once the map has grown. -/
theorem exec_attachAndCommit {report : DepthReport}
    (hplace : (placeExpansion m.entropy request prepared.expansion).exec c.graph
      = (.ok report, graph)) :
    (attachAndCommit m request prepared).exec c =
      match (attaching m request prepared graph).exec c.attaching with
      | (.error e, s) => (.error e, { c with graph := graph }.putAttaching s)
      | (.ok _, s) => (zoom Campaign.tables (fun tables c => { c with tables := tables })
          (committing m request prepared graph s)).exec
            ({ c with graph := graph }.putAttaching s) := by
  unfold attachAndCommit stageAttach
  rw [exec_bind, exec_bind, exec_zoom, exec_adapt, hplace]
  dsimp only
  rw [exec_get_bind, exec_zoom]
  have hstart : ({ c with graph := graph } : Campaign).attaching = c.attaching := rfl
  rcases hattach : (attaching m request prepared graph).exec c.attaching with ⟨e | reports, s⟩
  · have hsame : (attachAll m request graph prepared.expansion prepared.curation).exec
        c.attaching = (.error e, s) := hattach
    rw [hstart, hsame]
  · have hsame : (attachAll m request graph prepared.expansion prepared.curation).exec
        c.attaching = (.ok reports, s) := hattach
    rw [hstart, hsame]
    dsimp only
    rw [exec_get_bind, reports_of_attaching m request hattach]
    rfl

theorem exec_transaction {α : Type} (body : Effect MaterializeError Campaign α) (c : Campaign) :
    (transaction body).exec c = match body.exec c with
      | (.ok a, c') => (.ok a, c')
      | (.error e, c') => (.error e, { c' with tables := c.tables }) := rfl

/-- **The rest of a run raises** exactly if not everything passes. -/
theorem materialize_raises_iff {report : DepthReport}
    (hprepare : prepare m request c = .ok prepared)
    (hplace : (placeExpansion m.entropy request prepared.expansion).exec c.graph
      = (.ok report, graph)) : (∃ e c', (materialize m request).exec c = (.error e, c')) ↔
      ¬ Completes m request prepared graph c := by
  have hattaching := attachAll_raises_iff m request graph prepared.curation prepared.expansion
    c.attaching
  unfold materialize Completes
  rw [exec_get_bind, hprepare, exec_ofExcept_ok_bind, exec_bind, exec_transaction,
    exec_attachAndCommit m request hplace]
  rcases hattach : (attaching m request prepared graph).exec c.attaching with ⟨e | reports, s⟩
  · refine iff_of_true ⟨e, _, rfl⟩ (fun h => ?_)
    exact hattaching.mp ⟨e, s, hattach⟩ h.1
  · have hpass : AttachPasses m request graph prepared.curation prepared.expansion c.attaching := by
      by_contra hnot
      obtain ⟨e, s', hraised⟩ := hattaching.mpr hnot
      exact not_returned_of_raised hraised hattach
    rw [and_iff_right hpass]
    dsimp only
    rw [exec_zoom]
    have htables : (({ c with graph := graph } : Campaign).putAttaching s).tables
        = (c.putAttaching s).tables := rfl
    rw [htables]
    rcases hcommit : (committing m request prepared graph s).exec (c.putAttaching s).tables
      with ⟨e | emit, t⟩
    · refine iff_of_true ⟨e, _, rfl⟩ ?_
      rintro ⟨emit, tables, hreturned, -⟩
      exact not_returned_of_raised rfl hreturned
    · rw [ofExcept_raises_iff]
      refine not_congr ⟨fun hemit => ⟨emit, t, rfl, hemit⟩, ?_⟩
      rintro ⟨emit', tables, hreturned, hemit⟩
      cases congrArg Prod.fst hreturned
      exact hemit

/-- The snapshot after a run is that after its attach stage. -/
theorem snapshot_materialize {report : DepthReport} (hprepare : prepare m request c = .ok prepared)
    (hplace : (placeExpansion m.entropy request prepared.expansion).exec c.graph
      = (.ok report, graph)) : ((materialize m request).exec c).2.snapshot
      = ((attaching m request prepared graph).exec c.attaching).2.snapshot := by
  unfold materialize
  rw [exec_get_bind, hprepare, exec_ofExcept_ok_bind, exec_bind, exec_transaction,
    exec_attachAndCommit m request hplace]
  rcases hattach : (attaching m request prepared graph).exec c.attaching with ⟨e | reports, s⟩
  · rfl
  · dsimp only
    rw [exec_zoom]
    rcases (committing m request prepared graph s).exec _ with ⟨e | emit, t⟩
    · rfl
    · dsimp only
      cases emitRooms m emit with
      | error e => rfl
      | ok u => rfl

/-- The snapshot is as it was, if the run raised. -/
def UnchangedIfRaised (c : Campaign) : Except MaterializeError Unit × Campaign → Prop
  | (.error _, c') => c'.snapshot = c.snapshot
  | (.ok _, _) => True

/-- If the run comes to where a trope is started, everything after the map has grown passes. -/
def StartsOnlyIfCompletes (c : Campaign) : Prop :=
  match prepare m request c with
  | .error _ => True
  | .ok prepared =>
    match (placeExpansion m.entropy request prepared.expansion).exec c.graph with
    | (.error _, _) => True
    | (.ok _, graph) =>
      StartsTropes m request graph prepared.curation prepared.expansion c.attaching →
        Completes m request prepared graph c

/-- A raise before the map has grown leaves the snapshot alone. -/
theorem snapshot_materialize_of_error {cause : GraphError}
    (hprepare : prepare m request c = .ok prepared)
    (hplace : (placeExpansion m.entropy request prepared.expansion).exec c.graph
      = (.error cause, graph)) : ((materialize m request).exec c).2.snapshot = c.snapshot := by
  unfold materialize attachAndCommit stageAttach
  rw [exec_get_bind, hprepare, exec_ofExcept_ok_bind, exec_bind, exec_transaction, exec_bind,
    exec_bind, exec_zoom, exec_adapt, hplace]

/-- **A failed materialization** leaves the snapshot as it was exactly if tropes are started only in
    runs that are completed. -/
theorem unchangedIfRaised_iff (c : Campaign) :
    UnchangedIfRaised c ((materialize m request).exec c) ↔ StartsOnlyIfCompletes m request c := by
  unfold StartsOnlyIfCompletes
  cases hprepare : prepare m request c with
  | error e =>
    have hraised : (materialize m request).exec c = (.error e, c) := by
      unfold materialize
      rw [exec_get_bind, hprepare]
      rfl
    rw [hraised]
    exact iff_of_true rfl trivial
  | ok prepared =>
    dsimp only
    rcases hplace : (placeExpansion m.entropy request prepared.expansion).exec c.graph
      with ⟨cause | report, graph⟩
    · have hsame := snapshot_materialize_of_error m request hprepare hplace
      refine iff_of_true ?_ trivial
      rcases hexec : (materialize m request).exec c with ⟨e | u, c'⟩
      · rw [hexec] at hsame
        exact hsame
      · exact trivial
    · have hraises := materialize_raises_iff m request hprepare hplace
      have hsnapshot := snapshot_materialize m request hprepare hplace
      have hstarts :
          ((attaching m request prepared graph).exec c.attaching).2.snapshot = c.snapshot ↔
            ¬ StartsTropes m request graph prepared.curation prepared.expansion c.attaching :=
        snapshot_attachAll_iff m request graph prepared.curation prepared.expansion c.attaching
      rw [← hsnapshot] at hstarts
      rcases hexec : (materialize m request).exec c with ⟨e | u, c'⟩
      · rw [hexec] at hstarts
        have hfails := hraises.mp ⟨e, c', hexec⟩
        exact hstarts.trans ⟨fun hnone hsome => absurd hsome hnone, fun h hsome => hfails (h hsome)⟩
      · refine iff_of_true trivial (fun _ => ?_)
        by_contra hnot
        obtain ⟨e, c'', hraised⟩ := hraises.mpr hnot
        exact not_returned_of_raised hraised hexec

end Run

end Materializer

/-! ### A flood without a thread -/

/-- A crypt with a well that brings a flood, and with an altar that brings something else. -/
def cryptTheme (altarTrope : String) : DungeonTheme where
  id := "crypt"
  setPieces := [{ id := "well", tropeComponents := [⟨"flood"⟩] },
    { id := "altar", tropeComponents := [⟨altarTrope⟩] }]

/-- Materialization of crypts, in a pack that knows of floods only. -/
def cryptMaterializer (altarTrope : String) : Materializer Unit where
  entropy := risingDraws
  scan := ⟨fun l => l, fun _ => List.Perm.refl _⟩
  palette := Dict.empty.insert "crypt" (cryptTheme altarTrope)
  packTropes := [{ id := some "flood", name := "The flood" }]
  stageFill := fun _ _ => .ok .empty
  masked := fun _ => false
  stageCurate := fun _ expansion _ => .ok {
    regionManifests := expansion.newNodes.foldl (fun d node => d.insert node.id {}) .empty }
  stageTactical := fun _ _ _ _ _ => .ok ()
  resolveWorldDir := fun _ => .ok none
  stageEmitRoomYamls := fun _ _ => .ok ()

/-- The first expansion, with room for two threads. -/
def cryptRequest : MaterializationRequest where
  campaignSeed := 1
  expansionId := 1
  frontierEdge := ⟨"fe", "entrance", "north", 0⟩
  attachRegionIds := ["entrance"]
  heading := "north"
  burstMagnitude := 2
  lookaheadBreadth := 1

/-- A campaign with nothing but the entrance of a crypt. -/
def cryptCampaign : Campaign where
  graph := seedGraph cryptEntrance
  snapshot := { activeTropes := [] }
  tables := { map := .empty, frontier := .empty, ledger := .empty, mutations := [] }

/-- The altar's trope is not in the pack: the run raises, and the flood of the well is left without
    a thread. -/
theorem not_unchangedIfRaised_ghost :
    ¬ Materializer.UnchangedIfRaised cryptCampaign
        (((cryptMaterializer "ghost").materialize cryptRequest).exec cryptCampaign) ∧
      ((((cryptMaterializer "ghost").materialize cryptRequest).exec
        cryptCampaign).2.snapshot.activeTropes.map (·.id)) = ["flood"] ∧
      (((cryptMaterializer "ghost").materialize cryptRequest).exec
        cryptCampaign).2.tables.ledger.threads.keys = [] ∧
      (((cryptMaterializer "flood").materialize cryptRequest).exec
        cryptCampaign).1.toBool = true := by
  have hflood : ((((cryptMaterializer "ghost").materialize cryptRequest).exec
      cryptCampaign).2.snapshot.activeTropes.map (·.id)) = ["flood"] := by decide +kernel
  have hraises : (((cryptMaterializer "ghost").materialize cryptRequest).exec
      cryptCampaign).1.toBool = false := by decide +kernel
  refine ⟨?_, hflood, by decide +kernel, by decide +kernel⟩
  rcases hexec : ((cryptMaterializer "ghost").materialize cryptRequest).exec cryptCampaign
    with ⟨e | u, c'⟩
  · rw [hexec] at hflood
    intro hsame
    have hunchanged : c'.snapshot = cryptCampaign.snapshot := hsame
    rw [hunchanged] at hflood
    exact absurd hflood (by decide)
  · rw [hexec] at hraises
    cases hraises

end Sidequest.Dungeon
