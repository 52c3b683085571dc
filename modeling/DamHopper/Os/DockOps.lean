import DamHopper.Os.Frames
import DamHopper.Os.WindowStore

/-!
# Os — DockOps

The three ways a window is docked, taken together: `dockWindowInDesktopTree`,
`splitWindow` and the store's `placeExistingTerminal`. Each keeps everything (`Keeps`:
the result is accepted, has all the windows, and has no restore placement that the
removal of a desktop would leave dangling) exactly on the inputs `DockOpSafe` describes.
-/

namespace DamHopper.Os

open AssocMap

namespace OsSession

section

variable {s : OsSession}

/-! ## What happens to the entries -/

theorem dock_windows (hids : s.desktopIds.Nodup) (desktopId windowId : String)
    (target : TileDockTarget) (sourcePaneId : Option String) (newPaneId splitId : String) :
    (s.dockWindowInDesktopTree desktopId windowId target sourcePaneId newPaneId
        splitId).windows = s.windows ∨
      ∃ window, s.windows.get? windowId = some window ∧
        (s.dockWindowInDesktopTree desktopId windowId target sourcePaneId newPaneId
          splitId).windows =
          s.windows.insert windowId (dockedWindow window desktopId) := by
  by_cases hdocks : ∃ window desk, s.Docks desktopId windowId target window desk
  · obtain ⟨window, desk, hdocks⟩ := hdocks
    refine .inr ⟨window, hdocks.window, ?_⟩
    rw [dock_eq hids hdocks]
    rfl
  · exact .inl (by rw [dock_eq_self hdocks])

/-- A terminal placed beside its hub has no restore placement. -/
theorem placeBeside_windows (h : Tidy s) (hub : OsWindow) {desk : OsDesktop}
    (hdesk : s.findDesktop desk.id = some desk) (viewport : Viewport) (hubId : String)
    (terminal : OsWindow) (newPaneId splitId : String) :
    ∃ w, w.restorePlacement = none ∧
      (s.placeBeside viewport hubId hub desk (s.windows.get? terminal.id) terminal
        newPaneId splitId).windows = s.windows.insert terminal.id w := by
  let win := winToPlace (s.windows.get? terminal.id) terminal desk.id
  have hlifted : (s.withoutExisting (s.windows.get? terminal.id)).putWindow terminal.id win =
      s.lifted terminal.id win := lifted_eq h
  have hfloat : ∀ bounds, ∃ w : OsWindow, w.restorePlacement = none ∧
      (((s.lifted terminal.id win).placeFloat desk win bounds).focusWindow
        terminal.id).windows = s.windows.insert terminal.id w := by
    intro bounds
    refine ⟨{ win with mode := .float, floatBounds := some bounds }, rfl, ?_⟩
    rw [focusWindow_windows, show (s.lifted terminal.id win).placeFloat desk win bounds = _
      from placeFloat_eq h hdesk]
    rfl
  simp only [placeBeside]
  rw [show (winToPlace (s.windows.get? terminal.id) terminal desk.id).id = terminal.id from rfl]
  rw [hlifted]
  split
  · have hids : (s.lifted terminal.id win).desktopIds.Nodup := by
      rw [desktopIds, lifted, unplaced_ids]
      exact h.ids
    rw [focusWindow_windows]
    rcases dock_windows hids desk.id terminal.id _ none newPaneId splitId with
      hsame | ⟨window, hget, hnew⟩
    · exact ⟨win, rfl, hsame⟩
    have hwin : win = window :=
      Option.some.inj ((get?_insert_self s.windows terminal.id win).symm.trans hget)
    refine ⟨dockedWindow window desk.id, ?_, ?_⟩
    · rw [← hwin]
      rfl
    · rw [hnew, lifted, insert_insert]
  · exact hfloat _

theorem unminimize_windows (s : OsSession) (windowId : String) (window : OsWindow)
    (paneId : String) :
    ∃ w, w.restorePlacement = none ∧
      (s.unminimize windowId window paneId).windows = s.windows.insert windowId w :=
  ⟨{ window with
      minimized := false
      mode := (window.restorePlacement.map (·.mode)).getD window.mode
      desktopId := restoreDesktop window
      floatBounds := (window.restorePlacement.bind (·.floatBounds)).or window.floatBounds
      restorePlacement := none }, rfl, rfl⟩

theorem focusExisting_windows {windowId : String} {window : OsWindow} (h : Tidy s)
    (hget : s.windows.get? windowId = some window) (paneId : String) :
    (window.minimized = false → (s.focusExistingTerminal window paneId).windows = s.windows) ∧
      (window.minimized = true → ∃ w, w.restorePlacement = none ∧
        (s.focusExistingTerminal window paneId).windows = s.windows.insert windowId w) := by
  have hwindows : (if window.desktopId ≠ s.activeDesktopId then
      s.switchDesktop window.desktopId else s).windows = s.windows := by
    split
    · exact switchDesktop_windows
    · rfl
  rw [focusExistingTerminal, focusWindow_windows, h.keyed windowId window hget]
  constructor
  · intro hmin
    simp only [hmin]
    exact hwindows
  · intro hmin
    simp only [hmin, restoreWindow, hwindows, hget]
    obtain ⟨w, hw, hnew⟩ := unminimize_windows (if window.desktopId ≠ s.activeDesktopId then
      s.switchDesktop window.desktopId else s) windowId window paneId
    rw [hwindows] at hnew
    exact ⟨w, hw, hnew⟩

end

/-! ## The operations together -/

inductive DockOp where
  | dockWindowInDesktopTree (desktopId windowId : String) (target : TileDockTarget)
      (sourcePaneId : Option String) (newPaneId splitId : Uuid)
  | splitWindow (sourceWindowId targetWindowId : String) (direction : SplitPlace)
      (newPaneId splitId : Uuid)
  | placeExistingTerminal (viewport : Viewport) (sourceHubWindowId : String)
      (terminalWindow : OsWindow) (action : PlaceAction) (paneId newPaneId splitId : Uuid)

def dockStep (s : OsSession) : DockOp → OsSession
  | .dockWindowInDesktopTree desktopId windowId target sourcePaneId newPaneId splitId =>
    s.dockWindowInDesktopTree desktopId windowId target sourcePaneId newPaneId.value
      splitId.value
  | .splitWindow sourceWindowId targetWindowId direction newPaneId splitId =>
    s.splitWindow sourceWindowId targetWindowId direction newPaneId.value splitId.value
  | .placeExistingTerminal viewport sourceHubWindowId terminalWindow action paneId newPaneId
      splitId =>
      (s.placeExistingTerminal viewport sourceHubWindowId terminalWindow action paneId.value
        newPaneId.value splitId.value).1

/-- The session `s'` is accepted, no window of `s` is lost, and each restore placement
survives the removal of any desktop. -/
structure Keeps (str : Js → String) (s s' : OsSession) : Prop where
  accepted : s'.Accepted str
  windows : ∀ id, (s.windows.get? id).isSome → (s'.windows.get? id).isSome
  removal : s'.RemovalSafe

/-- When the terminal is placed so that the session stays valid. -/
def PlaceSafe (s : OsSession) (sourceHubWindowId : String) (terminal : OsWindow)
    (action : PlaceAction) : Prop :=
  ∀ hub, s.windows.get? sourceHubWindowId = some hub →
    match action, s.windows.get? terminal.id with
    | .focusExisting, some existing => restoredMode existing = .tile → terminal.id ≠ ""
    | _, _ => s.BesideSafe sourceHubWindowId hub terminal

/-- Restore placements name the desktop of their window; that of the terminal does not
matter if the call forgets it. -/
def PlaceRestores (s : OsSession) (sourceHubWindowId : String) (terminal : OsWindow)
    (action : PlaceAction) : Prop :=
  ∀ id w, s.windows.get? id = some w → ∀ placement ∈ w.restorePlacement,
    placement.desktopId = w.desktopId ∨
      id = terminal.id ∧ (s.windows.get? sourceHubWindowId).isSome ∧
        (action = .focusExisting → w.minimized = true)

def DockOpSafe (s : OsSession) : DockOp → Prop
  | .dockWindowInDesktopTree desktopId windowId target sourcePaneId _ _ =>
    s.DockSafe desktopId windowId target sourcePaneId ∧
      s.DockRestores desktopId windowId target
  | .splitWindow sourceWindowId targetWindowId direction _ _ =>
    match s.splitTarget targetWindowId direction with
    | some (desktopId, target) =>
      s.DockSafe desktopId sourceWindowId target none ∧
        s.DockRestores desktopId sourceWindowId target
    | none => NoStrays s.windows
  | .placeExistingTerminal _ sourceHubWindowId terminalWindow action _ _ _ =>
    s.PlaceSafe sourceHubWindowId terminalWindow action ∧
      s.PlaceRestores sourceHubWindowId terminalWindow action

section

variable {s s' : OsSession} {str : Js → String}

/-- No entry is dropped. -/
theorem keeps_iff (hwindows : s'.windows = s.windows ∨ ∃ id w, s'.windows = s.windows.insert id w) :
    Keeps str s s' ↔ s'.Valid ∧ NoStrays s'.windows := by
  constructor
  · intro hk
    have hvalid := accepted_iff.mp hk.accepted
    exact ⟨hvalid, (removalSafe_iff hvalid).mp hk.removal⟩
  · intro hv
    refine ⟨accepted_iff.mpr hv.1, fun id hid => ?_, (removalSafe_iff hv.1).mpr hv.2⟩
    rcases hwindows with heq | ⟨key, w, heq⟩
    · rw [heq]
      exact hid
    rw [heq, get?_insert]
    split
    · rfl
    · exact hid

variable {newPaneId splitId : Uuid} {viewport : Viewport}

theorem dock_keeps_iff (h : s.Valid) (hpanes : s.DistinctPanes) {desktopId windowId : String}
    {target : TileDockTarget} {sourcePaneId : Option String} :
    Keeps str s (s.dockWindowInDesktopTree desktopId windowId target sourcePaneId
        newPaneId.value splitId.value) ↔
      s.DockSafe desktopId windowId target sourcePaneId ∧
        s.DockRestores desktopId windowId target := by
  rw [keeps_iff, dock_valid_iff h hpanes, dock_noStrays_iff h.placed.ids]
  rcases dock_windows h.placed.ids desktopId windowId target sourcePaneId newPaneId.value
    splitId.value with hsame | ⟨window, _, hnew⟩
  · exact .inl hsame
  · exact .inr ⟨_, _, hnew⟩

variable {hubId : String} {terminal hub : OsWindow} {action : PlaceAction}

theorem placeRestores_of_forgotten (hhub : s.windows.get? hubId = some hub)
    (hforgets : ∀ w, s.windows.get? terminal.id = some w → action = .focusExisting →
      w.minimized = true) {w : OsWindow} (hw : w.restorePlacement = none) :
    NoStrays (s.windows.insert terminal.id w) ↔ s.PlaceRestores hubId terminal action := by
  refine forall_insert_iff.trans ?_
  constructor
  · intro hall id v hget placement hplacement
    by_cases hid : id = terminal.id
    · exact .inr ⟨hid, Option.isSome_of_eq_some hhub, hforgets v (hid ▸ hget)⟩
    · exact .inl (hall.2 id v hid hget placement hplacement)
  · intro hall
    constructor
    · simp [hw]
    · intro id v hid hget placement hplacement
      rcases hall id v hget placement hplacement with hown | hterminal
      · exact hown
      · exact absurd hterminal.1 hid

theorem placeRestores_of_same (hkeeps : ∀ w, s.windows.get? terminal.id = some w →
      (s.windows.get? hubId).isSome → action = .focusExisting ∧ w.minimized = false) :
    NoStrays s.windows ↔ s.PlaceRestores hubId terminal action := by
  constructor
  · intro hall id w hget placement hplacement
    exact .inl (hall id w hget placement hplacement)
  · intro hall id w hget placement hplacement
    rcases hall id w hget placement hplacement with hown | ⟨hid, hhub, hmin⟩
    · exact hown
    · obtain ⟨haction, hvisible⟩ := hkeeps w (hid ▸ hget) hhub
      rw [hmin haction] at hvisible
      cases hvisible

theorem placeBeside_keeps_iff (h : s.Valid) (hpanes : s.DistinctPanes)
    (hhub : s.windows.get? hubId = some hub) {desk : OsDesktop}
    (hfind : s.findDesktop hub.desktopId = some desk) {existing : Option OsWindow}
    (hget : s.windows.get? terminal.id = existing)
    (hforgets : ∀ w ∈ existing, action = .focusExisting → w.minimized = true) :
    Keeps str s (s.placeBeside viewport hubId hub desk existing terminal
        newPaneId.value splitId.value) ↔
      s.BesideSafe hubId hub terminal ∧ s.PlaceRestores hubId terminal action := by
  subst hget
  have htidy := h.tidy hpanes
  obtain ⟨hmem, hid⟩ := findDesktop_some hfind
  have hdesk : s.findDesktop desk.id = some desk := by
    rw [hid]
    exact hfind
  obtain ⟨w, hw, hwindows⟩ := placeBeside_windows htidy hub hdesk viewport hubId terminal
    newPaneId.value splitId.value
  rw [keeps_iff (.inr ⟨_, _, hwindows⟩), placeBeside_valid_iff h hpanes hfind, hwindows,
    placeRestores_of_forgotten hhub hforgets hw]

theorem place_keeps_iff (h : s.Valid) (hpanes : s.DistinctPanes) (hubId : String) {paneId : Uuid} :
    Keeps str s (s.placeExistingTerminal viewport hubId terminal action paneId.value
        newPaneId.value splitId.value).1 ↔
      s.PlaceSafe hubId terminal action ∧ s.PlaceRestores hubId terminal action := by
  have htidy := h.tidy hpanes
  cases hhub : s.windows.get? hubId with
  | none =>
    have heq : (s.placeExistingTerminal viewport hubId terminal action paneId.value
        newPaneId.value splitId.value).1 = s := by
      simp only [placeExistingTerminal, hhub]
    rw [heq, keeps_iff (.inl rfl)]
    refine and_congr (iff_of_true h fun hub hget => ?_) (placeRestores_of_same ?_)
    · simp [hhub] at hget
    · simp [hhub]
  | some hub =>
    obtain ⟨desk, hfind⟩ := exists_findDesktop (h.placed.homed hubId hub hhub)
    simp only [placeExistingTerminal, PlaceSafe, hhub, hfind, Option.some.injEq, forall_eq']
    cases action with
    | openBeside | moveBeside =>
      refine placeBeside_keeps_iff h hpanes hhub hfind rfl ?_
      rintro w _ ⟨⟩
    | focusExisting =>
      cases hget : s.windows.get? terminal.id with
      | none =>
        exact placeBeside_keeps_iff h hpanes hhub hfind hget fun w hw => by cases hw
      | some existing =>
        obtain ⟨hsame, hnew⟩ := focusExisting_windows htidy hget paneId.value
        cases hmin : existing.minimized with
        | false =>
          rw [keeps_iff (.inl (hsame hmin)), focusExisting_valid_iff h hpanes hget,
            hsame hmin, placeRestores_of_same]
          intro w hw _
          cases hget.symm.trans hw
          exact ⟨rfl, hmin⟩
        | true =>
          obtain ⟨w, hw, hwindows⟩ := hnew hmin
          rw [keeps_iff (.inr ⟨_, _, hwindows⟩), focusExisting_valid_iff h hpanes hget, hwindows,
            placeRestores_of_forgotten hhub ?_ hw]
          intro v hv _
          cases hget.symm.trans hv
          exact hmin

/-- **Docking, splitting, placing.** On an accepted session with distinct panes each
operation keeps everything exactly if it is safe. -/
theorem dock_op_keeps_iff (h : s.Accepted str) (hpanes : s.DistinctPanes) (op : DockOp) :
    Keeps str s (s.dockStep op) ↔ s.DockOpSafe op := by
  have hvalid := accepted_iff.mp h
  cases op with
  | dockWindowInDesktopTree desktopId windowId target sourcePaneId newPaneId splitId =>
    exact dock_keeps_iff hvalid hpanes
  | splitWindow sourceWindowId targetWindowId direction newPaneId splitId =>
    simp only [dockStep, DockOpSafe, splitWindow_eq]
    cases htarget : s.splitTarget targetWindowId direction with
    | none =>
      rw [keeps_iff (.inl rfl)]
      exact and_iff_right hvalid
    | some place => exact dock_keeps_iff hvalid hpanes
  | placeExistingTerminal viewport hubId terminal action paneId newPaneId splitId =>
    exact place_keeps_iff hvalid hpanes hubId

/-- Moving the left editor into the right pane keeps everything. -/
theorem dock_op_keeps_twoEditors : Keeps (fun _ => "") (twoEditors "p" "q")
      ((twoEditors "p" "q").dockStep (.dockWindowInDesktopTree "d1" "a" (.paneCenter "q") none
        ⟨"n", by decide⟩ ⟨"s", by decide⟩)) := by
  refine (dock_op_keeps_iff (accepted_iff.mpr (by decide +kernel)) (by decide +kernel) _).mpr
    ⟨fun window desk hdocks => ?_, fun id w hget placement hplacement => ?_⟩
  · have hdesk := hdocks.desktop
    cases hdesk
    refine ⟨fun d hd hne => ?_, (fun hnone => nomatch hnone), fun tree htree t ht => ?_⟩
    · rw [List.mem_singleton.mp hd] at hne
      exact absurd rfl hne
    · cases htree
      cases ht
      refine ⟨⟨by decide, fun _ => ?_, .inl ?_, fun origin ho _ _ => ?_⟩, fun origin ho hid => ?_⟩
      · exact ⟨_, rfl, by decide⟩
      · exact ⟨_, rfl, by decide⟩
      · cases ho
        decide
      · cases ho
        exact absurd hid (by decide)
  · have hentry := get?_eq_some_iff.mp hget
    rcases List.mem_cons.mp hentry with heq | hrest
    · cases heq
      cases hplacement
    · cases List.mem_singleton.mp hrest
      cases hplacement

/-- With the right pane named as the source, docking the left editor where it is already
drops the right pane, and the other editor with it. -/
theorem dock_stale_source_loses_editor :
    (twoEditors "p" "q").Accepted (fun _ => "") ∧ (twoEditors "p" "q").DistinctPanes ∧
      ¬ Keeps (fun _ => "") (twoEditors "p" "q")
        ((twoEditors "p" "q").dockStep (.dockWindowInDesktopTree "d1" "a" (.paneCenter "p")
          (some "q") ⟨"n", by decide⟩ ⟨"s", by decide⟩)) := by
  refine ⟨accepted_iff.mpr (by decide +kernel), by decide +kernel, fun hk => ?_⟩
  exact absurd (accepted_iff.mp hk.accepted) (by decide +kernel)

end

end OsSession

end DamHopper.Os
