import Mathlib.Data.List.Find
import DamHopper.Os.Docking

/-!
# Os — WindowStore

`placeExistingTerminal` of `os/window-store.ts`: an agent hub asks for the window of a
terminal to be focused where it is, or opened or moved beside the hub. The store state
is the session and the viewport; the result is the new session and the id returned.

Beside a tiled hub the terminal is docked: into another pane that has a terminal, if
there is one, else to the right of the hub's pane. Where the hub is in no pane the id
of the root node is taken for a pane id. Beside a floating hub the terminal floats.
-/

namespace DamHopper.Os

open OsDesktop List AssocMap
open TileNode (Sound Named LeavesNamed Docked docked_congr items? panes?)

inductive PlaceAction where
  | focusExisting | openBeside | moveBeside
  deriving Repr, DecidableEq

/-- `{ ...existingWin, ...terminalWindow, desktopId, … }`: an optional field that the
terminal window does not have is that of the existing window. -/
def winToPlace (existingWin : Option OsWindow) (terminalWindow : OsWindow)
    (destDesktopId : String) : OsWindow :=
  { terminalWindow with
    desktopId := destDesktopId, minimized := false, maximized := false
    restorePlacement := none
    floatBounds := terminalWindow.floatBounds.or (existingWin.bind (·.floatBounds))
    appState := match terminalWindow.appState with
      | .undefined => (existingWin.map (·.appState)).getD .undefined
      | state => state }

def placeTarget (windows : AssocMap String OsWindow) (tree : TileNode String)
    (sourceHubWindowId terminalId : String) : TileDockTarget :=
  match tree.findTilePaneContaining (· = sourceHubWindowId) with
  | some hubPane =>
    let adjacentTerminalsPane := tree.collectTilePanes.find? fun p =>
      p.id ≠ hubPane.id && p.items.any fun wId =>
        (windows.get? wId).any fun w => w.appId = .terminals && w.id ≠ terminalId
    match adjacentTerminalsPane with
    | some pane => .paneCenter pane.id
    | none => .paneEdge hubPane.id .right
  | none => .paneCenter tree.id

namespace OsSession

def focusExistingTerminal (session : OsSession) (existingWin : OsWindow) (paneId : String) :
    OsSession :=
  let nextSession :=
    if existingWin.desktopId ≠ session.activeDesktopId then
      session.switchDesktop existingWin.desktopId
    else session
  let nextSession :=
    if existingWin.minimized then nextSession.restoreWindow existingWin.id paneId
    else nextSession
  nextSession.focusWindow existingWin.id

def placeFloat (session : OsSession) (destDesk : OsDesktop) (win : OsWindow)
    (newBounds : FloatBounds) : OsSession :=
  let nextSession := session.putWindow win.id
    { win with mode := .float, floatBounds := some newBounds }
  let latestDestDesk := (nextSession.findDesktop destDesk.id).getD destDesk
  let currentFloats := latestDestDesk.floatingWindowIds.filter (· ≠ win.id)
  { nextSession with
    desktops := nextSession.desktops.map fun d =>
      if d.id = destDesk.id then { d with floatingWindowIds := currentFloats ++ [win.id] }
      else { d with floatingWindowIds := d.floatingWindowIds.filter (· ≠ win.id) } }

/-- The session without the placements of the window, if it exists. -/
def withoutExisting (session : OsSession) : Option OsWindow → OsSession
  | some existingWin => session.removeWindowFromAllDesktopPlacements existingWin.id
  | none => session

def placeBeside (session : OsSession) (viewport : Viewport) (sourceHubWindowId : String)
    (sourceHubWin : OsWindow) (destDesk : OsDesktop) (existingWin : Option OsWindow)
    (terminalWindow : OsWindow) (newPaneId splitId : String) : OsSession :=
  let win := winToPlace existingWin terminalWindow destDesk.id
  let nextSession := (session.withoutExisting existingWin).putWindow win.id win
  let currentDestDesk := (nextSession.findDesktop destDesk.id).getD destDesk
  let placed := match sourceHubWin.mode, currentDestDesk.tree with
    | .tile, some tree =>
      nextSession.dockWindowInDesktopTree destDesk.id win.id
        (placeTarget nextSession.windows tree sourceHubWindowId win.id) none newPaneId
        splitId
    | _, _ =>
      let sourceBounds := sourceHubWin.floatBounds.getD DEFAULT_FLOAT_BOUNDS
      nextSession.placeFloat destDesk win
        (clampFloatBounds
          { sourceBounds with x := sourceBounds.x + 28, y := sourceBounds.y + 28 }
          (some viewport))
  placed.focusWindow win.id

def placeExistingTerminal (session : OsSession) (viewport : Viewport)
    (sourceHubWindowId : String) (terminalWindow : OsWindow) (action : PlaceAction)
    (paneId newPaneId splitId : String) : OsSession × String :=
  match session.windows.get? sourceHubWindowId with
  | none => (session, terminalWindow.id)
  | some sourceHubWin =>
    match session.findDesktop sourceHubWin.desktopId with
    | none => (session, terminalWindow.id)
    | some destDesk =>
      match action, session.windows.get? terminalWindow.id with
      | .focusExisting, some existingWin =>
        (session.focusExistingTerminal existingWin paneId, existingWin.id)
      | _, existingWin =>
        (session.placeBeside viewport sourceHubWindowId sourceHubWin destDesk
          existingWin terminalWindow newPaneId splitId, terminalWindow.id)

end OsSession

/-! ## Windows that are nowhere -/

section

variable {windows : AssocMap String OsWindow} {d : OsDesktop} {windowId : String}

theorem clampFloatBounds_ok {bounds : FloatBounds} {viewport : Option Viewport} :
    (clampFloatBounds bounds viewport).Ok := by
  have hwidth : 0 < max MIN_FLOAT_WIDTH bounds.width := lt_max_of_lt_left (by decide)
  have hheight : 0 < max MIN_FLOAT_HEIGHT bounds.height := lt_max_of_lt_left (by decide)
  unfold clampFloatBounds
  split
  · exact ⟨hwidth, hheight⟩
  · split <;> exact ⟨hwidth, hheight⟩

theorem OsDesktop.unplaced_of_not_placed (htree : windowId ∉ items? d.tree)
    (hfloat : windowId ∉ d.floatingWindowIds) :
    d.unplaced windowId windows = d := by
  unfold unplaced
  rw [if_neg]
  simp only [Bool.or_eq_true, contains_iff_mem, hasInTree_iff, not_or]
  exact ⟨hfloat, htree⟩

theorem OsDesktop.not_mem_unplaced (hs : Sound d.tree) (windowId : String)
    (windows : AssocMap String OsWindow) :
    windowId ∉ items? (d.unplaced windowId windows).tree ∧
      windowId ∉ (d.unplaced windowId windows).floatingWindowIds := by
  rw [d.unplaced_tree, d.unplaced_floats, (removeWindow_sound hs windowId).2]
  constructor <;> simp

end

namespace OsSession

section

variable {s : OsSession} {windowId desktopId : String} {window : OsWindow}
  {windows : AssocMap String OsWindow} {target : TileDockTarget}
  {newPaneId splitId paneId : Uuid}

theorem findDesktop_map {f : OsDesktop → OsDesktop} (hid : ∀ d, (f d).id = d.id) :
    findDesktop { s with desktops := s.desktops.map f, windows } desktopId =
      (s.findDesktop desktopId).map f := by
  simp only [findDesktop, find?_map]
  congr 2
  funext d
  simp [hid]

/-- The session with the entry of the window stored and the window placed nowhere. -/
def lifted (s : OsSession) (windowId : String) (window : OsWindow) : OsSession :=
  { s with
    desktops := s.desktops.map (·.unplaced windowId s.windows)
    windows := s.windows.insert windowId window }

theorem lifted_eq (h : Tidy s) :
    (s.withoutExisting (s.windows.get? windowId)).putWindow windowId window =
      s.lifted windowId window := by
  cases hget : s.windows.get? windowId with
  | some existing =>
    rw [withoutExisting, h.keyed windowId existing hget,
      removeWindowFromAllDesktopPlacements_eq h.ids]
    rfl
  | none =>
    have hsame : s.desktops.map (·.unplaced windowId s.windows) = s.desktops := by
      refine (map_congr_left fun d hd => ?_).trans (map_id _)
      have hnot : ∀ mode, ¬ Shown s.windows mode d.id windowId := by
        intro mode hshown
        obtain ⟨w, hw, _⟩ := hshown
        simp [hget] at hw
      refine unplaced_of_not_placed ?_ ?_
      · rw [(h.desktops d hd).mem_tiles]
        exact hnot .tile
      · rw [(h.desktops d hd).mem_floats]
        exact hnot .float
    rw [lifted, hsame]
    rfl

theorem lifted_findDesktop {d : OsDesktop} (hfind : s.findDesktop desktopId = some d)
    (windowId : String) (window : OsWindow) :
    (s.lifted windowId window).findDesktop desktopId = some (d.unplaced windowId s.windows) := by
  rw [lifted, findDesktop_map (fun d => d.unplaced_id), hfind]
  rfl

theorem lifted_dock_eq (h : Tidy s) {desk : OsDesktop}
    (hdocks : (s.lifted windowId window).Docks desktopId windowId target window desk)
    {newPaneId splitId : String} :
    (s.lifted windowId window).dockWindowInDesktopTree desktopId windowId target none
        newPaneId splitId =
      s.withDocked desktopId windowId (dockedWindow window desktopId) fun d =>
        dockedTree (d.unplaced windowId s.windows) windowId target none newPaneId
          splitId := by
  have hids : (s.lifted windowId window).desktopIds.Nodup := by
    rw [desktopIds, lifted, unplaced_ids]
    exact h.ids
  rw [dock_eq hids hdocks]
  simp only [withDocked, lifted, insert_insert, map_map]
  congr 1
  refine map_congr_left fun d hd => ?_
  have hnot := not_mem_unplaced (h.desktops d hd).tree windowId s.windows
  simp only [Function.comp_apply, d.unplaced_id]
  split
  · -- docking fills in all that taking the window out changes
    unfold unplaced
    split
    · simp [docked, without]
    · rfl
  · exact unplaced_of_not_placed hnot.1 hnot.2

/-! ## Beside a tiled hub -/

variable {terminal : OsWindow} {desk : OsDesktop} {tree : TileNode String}

theorem winToPlace_ok_iff {existing : Option OsWindow}
    (hexisting : ∀ w ∈ existing, w.Ok s.desktopIds) (hhome : desktopId ∈ s.desktopIds) :
    (dockedWindow (winToPlace existing terminal desktopId) desktopId).Ok s.desktopIds ↔
      terminal.ctx.Ok ∧ ∀ b ∈ terminal.floatBounds, b.Ok := by
  constructor
  · intro hok
    refine ⟨hok.ctx, fun b hb => hok.bounds b ?_⟩
    simp [dockedWindow, winToPlace, Option.mem_def.mp hb]
  · intro hok
    refine ⟨hok.1, hhome, fun b hb => ?_, by rintro placement ⟨⟩⟩
    rcases Option.or_eq_some_iff.mp hb with hown | ⟨_, hold⟩
    · exact hok.2 b hown
    · obtain ⟨w, hw, hwb⟩ := Option.bind_eq_some_iff.mp hold
      exact (hexisting w hw).bounds b hwb

theorem removed_tree (h : s.Valid) (hpanes : s.DistinctPanes) (hdesk : desk ∈ s.desktops)
    (htree : removeWindowFromDesktopTree desk.tree windowId = some tree) :
    tree.Labelled ∧ Sound (some tree) ∧ windowId ∉ items? (some tree) ∧
      ∀ x ≠ windowId, (items? (some tree)).count x = (items? desk.tree).count x := by
  have hsound := ((h.tidy hpanes).desktops desk hdesk).tree
  have hlabels := ((checked_iff.mp h.checked).2 desk hdesk).tree.labelled
  obtain ⟨hsound', hitems⟩ := removeWindow_sound hsound windowId
  rw [htree] at hsound' hitems
  refine ⟨labelled_removeWindow hlabels tree htree, hsound', ?_, fun x hx => ?_⟩
  · simp [hitems]
  · rw [hitems]
    exact count_filter (by simpa using hx)

/-- A window that is docked and selected in its pane is in front already. -/
theorem focusWindow_withDocked (hfind : s.findDesktop desktopId = some desk)
    (hdesk : window.desktopId = desktopId) {result : OsDesktop → TileNode String}
    (hactive : ∀ p ∈ (result desk).collectTilePanes, windowId ∈ p.items →
      p.active = some windowId) :
    (s.withDocked desktopId windowId window result).focusWindow windowId =
      s.withDocked desktopId windowId window result := by
  subst hdesk
  refine focusWindow_of_inFront (d := desk.docked (result desk) windowId)
    (get?_insert_self _ _ _) ?_ (isInFront_iff.mpr ⟨⟨rfl, .inl (by simp [docked])⟩,
      fun p hp => hactive p (mem_of_find?_eq_some hp) (by simpa using find?_some hp)⟩)
  rw [withDocked, findDesktop_map, hfind, Option.map_some, if_pos (findDesktop_some hfind).2]
  intro d
  split
  · rfl
  · exact d.unplaced_id

/-- **A terminal docked beside its hub** leaves a valid session exactly if its entry is
well formed, the docking is safe, and the desktop it leaves keeps its names. -/
theorem lifted_dock_valid_iff (h : s.Valid) (hpanes : s.DistinctPanes)
    (hdesk : s.findDesktop desktopId = some desk)
    (htree : removeWindowFromDesktopTree desk.tree windowId = some tree) {t : TilePaneNode String}
    (ht : tree.findTilePaneById target.paneId = some t) (hkey : window.id = windowId) :
    Valid (((s.lifted windowId window).dockWindowInDesktopTree desktopId windowId target
        none newPaneId.value splitId.value).focusWindow windowId) ↔
      (dockedWindow window desktopId).Ok s.desktopIds ∧
      (∀ d ∈ s.desktops, d.id ≠ desktopId → LeavesNamed d.tree windowId) ∧
      tree.PutSafe windowId target := by
  have htidy := h.tidy hpanes
  obtain ⟨hmem, hid⟩ := findDesktop_some hdesk
  obtain ⟨hlabelled, hsound, hnot, hcount⟩ := removed_tree h hpanes hmem htree
  obtain ⟨htmem, htid⟩ := TileNode.findTilePaneById_some ht
  have hunplaced : (desk.unplaced windowId s.windows).tree = some tree := by
    rw [desk.unplaced_tree, htree]
  have hdocks : (s.lifted windowId window).Docks desktopId windowId target window
      (desk.unplaced windowId s.windows) := by
    refine ⟨get?_insert_self _ _ _, lifted_findDesktop hdesk _ _, fun r hr => ?_⟩
    cases hunplaced.symm.trans hr
    exact ⟨t, ht⟩
  have hresult : dockedTree (desk.unplaced windowId s.windows) windowId target none
      newPaneId.value splitId.value =
      tree.dockItemIntoTileTree windowId target none newPaneId.value splitId.value := by
    simp only [dockedTree, hunplaced]
  have hkey' : (dockedWindow window desktopId).id = windowId := hkey
  rw [lifted_dock_eq htidy hdocks, focusWindow_withDocked hdesk rfl
    (hresult ▸ TileNode.put_selects hsound htmem hnot htid.symm),
    withDocked_valid_iff h hpanes hdesk hkey' rfl rfl rfl]
  have hdocked : Docked desk.tree
      (dockedTree (desk.unplaced windowId s.windows) windowId target none newPaneId.value
        splitId.value) windowId ↔ tree.PutSafe windowId target := by
    rw [hresult, ← docked_congr hcount]
    exact TileNode.put_docked_iff hlabelled hsound htmem hnot htid.symm
  rw [hdocked]

/-- A window that is stored and placed nowhere leaves no valid session. -/
theorem lifted_focus_not_valid (h : s.Valid) (hpanes : s.DistinctPanes)
    (hdesk : s.findDesktop desktopId = some desk) (hmin : window.minimized = false)
    (hhome : window.desktopId = desktopId) :
    ¬ Valid ((s.lifted windowId window).focusWindow windowId) := by
  intro hvalid
  have htidy := h.tidy hpanes
  obtain ⟨hmem, hid⟩ := findDesktop_some hdesk
  have hsound : Sound (desk.unplaced windowId s.windows).tree :=
    (htidy.desktops desk hmem).unplaced.tree
  obtain ⟨htree, hfloat⟩ := not_mem_unplaced (htidy.desktops desk hmem).tree windowId s.windows
  have hget : (s.lifted windowId window).windows.get? windowId = some window :=
    get?_insert_self _ _ _
  have hfind : (s.lifted windowId window).findDesktop window.desktopId =
      some (desk.unplaced windowId s.windows) := by
    rw [hhome]
    exact lifted_findDesktop hdesk _ _
  obtain ⟨hmem', hid'⟩ := findDesktop_some hfind
  -- focusing does not place the window
  have hnowhere : ∃ d ∈ ((s.lifted windowId window).focusWindow windowId).desktops,
      d.id = window.desktopId ∧ windowId ∉ d.treeItems ∧ windowId ∉ d.floatingWindowIds := by
    by_cases hfront : (desk.unplaced windowId s.windows).isInFront windowId = true
    · rw [focusWindow_of_inFront hget hfind hfront]
      exact ⟨_, hmem', hid', htree, hfloat⟩
    simp only [focusWindow, hget, hfind]
    rw [if_neg hfront]
    refine ⟨_, mem_map.mpr ⟨_, hmem', rfl⟩, ?_⟩
    rw [if_pos hid']
    refine ⟨hid', ?_, ?_⟩
    · show windowId ∉ items? (activatePane (desk.unplaced windowId s.windows).tree windowId)
      rw [(activatePane_sound hsound windowId).2]
      exact htree
    · simp only [if_neg hfloat]
      exact hfloat
  obtain ⟨d, hd, hdid, hno, hno'⟩ := hnowhere
  have hget' : ((s.lifted windowId window).focusWindow windowId).windows.get? windowId =
      some window := by
    rw [focusWindow_windows]
    exact hget
  cases hmode : window.mode with
  | tile =>
    exact hno (((hvalid.placed.tiles d hd).2 windowId).mpr ⟨window, hget', hmin, hmode, hdid.symm⟩)
  | float =>
    exact hno' (((hvalid.placed.floats d hd).2 windowId).mpr
      ⟨window, hget', hmin, hmode, hdid.symm⟩)

/-! ## Beside a floating hub -/

theorem activatePane_of_selected {tree : Option (TileNode String)}
    (h : ∀ p ∈ panes? tree, windowId ∈ p.items → p.active = some windowId) :
    activatePane tree windowId = tree := by
  cases tree with
  | none => rfl
  | some tree =>
    simp only [activatePane, Option.map_some]
    split
    next p hfind =>
      obtain ⟨hp, hx⟩ := TileNode.findTilePaneContaining_some hfind
      rw [if_neg (not_not_intro (h p hp hx))]
    · rfl

/-- Focusing a window that is the active tab of its pane, if it is in one, changes nothing that
is checked. -/
theorem focusWindow_valid_iff_checked (h : Tidy s) (hget : s.windows.get? windowId = some window)
    (hmin : window.minimized = false)
    (hactive : ∀ d ∈ s.desktops, ∀ p ∈ d.panes, windowId ∈ p.items → p.active = some windowId) :
    Valid (s.focusWindow windowId) ↔ s.Checked := by
  have hplaced : (s.focusWindow windowId).Placed :=
    (tidy_iff.mp (h.focusWindow (by simpa [hget] using hmin))).1
  have hchecked : (s.focusWindow windowId).Checked ↔ s.Checked := by
    unfold focusWindow
    split
    · exact Iff.rfl
    split
    · exact Iff.rfl
    split
    · exact Iff.rfl
    rw [checked_iff, checked_iff, desktopIds, updateDesktop_eq, changeDesktop_ids]
    · refine and_congr_right fun _ => forall_mem_map.trans (forall₂_congr fun d hd => ?_)
      simp only [activatePane_of_selected (hactive d hd)]
      split
      · exact ⟨fun hc => ⟨hc.context, hc.tree⟩, fun hc => ⟨hc.context, hc.tree⟩⟩
      · exact Iff.rfl
    · exact fun _ => rfl
  exact ⟨fun hvalid => hchecked.mp hvalid.checked, fun h => ⟨hplaced, hchecked.mpr h⟩⟩

/-- The session with the window as the frontmost float of the desktop and nowhere
else. -/
def floated (s : OsSession) (desktopId windowId : String) (window : OsWindow) : OsSession :=
  { s with
    desktops := changeDesktop (s.desktops.map (·.unplaced windowId s.windows)) desktopId
      fun d => { d with floatingWindowIds := d.floatingWindowIds ++ [windowId] }
    windows := s.windows.insert windowId window }

theorem placeFloat_eq (h : Tidy s) (hdesk : s.findDesktop desk.id = some desk)
    {bounds : FloatBounds} :
    (s.lifted window.id window).placeFloat desk window bounds = s.floated desk.id window.id
        { window with mode := .float, floatBounds := some bounds } := by
  obtain ⟨hmem, _⟩ := findDesktop_some hdesk
  have hfind := lifted_findDesktop hdesk window.id window
  have hfilter : ∀ d ∈ s.desktops,
      (d.unplaced window.id s.windows).floatingWindowIds.filter (· ≠ window.id) =
        (d.unplaced window.id s.windows).floatingWindowIds := by
    intro d hd
    simp [d.unplaced_floats]
  have hfind' : ∀ w, findDesktop ((s.lifted window.id window).putWindow window.id w) desk.id =
      some (desk.unplaced window.id s.windows) := fun _ => hfind
  simp only [placeFloat, hfind', Option.getD_some, hfilter desk hmem]
  simp only [putWindow, lifted, floated, changeDesktop, insert_insert, map_map]
  congr 1
  refine map_congr_left fun d hd => ?_
  simp only [Function.comp_apply]
  split_ifs with hid
  · rw [d.unplaced_id] at hid
    rw [inj_on_of_nodup_map h.ids hd hmem hid]
  · rw [hfilter d hd]

theorem floated_ids (s : OsSession) (desktopId windowId : String) (window : OsWindow) :
    (s.floated desktopId windowId window).desktopIds = s.desktopIds := by
  refine (changeDesktop_ids _ _ ?_).trans (unplaced_ids _ windowId _)
  intro d
  rfl

theorem Tidy.floated (h : Tidy s) (hhome : desktopId ∈ s.desktopIds) (hkey : window.id = windowId)
    (hmin : window.minimized = false) (hmode : window.mode = .float)
    (hdesk : window.desktopId = desktopId) :
    Tidy (s.floated desktopId windowId window) := by
  refine h.put h.active hkey (hdesk ▸ hhome) (s.floated_ids desktopId windowId window) ?_
  refine (h.removed windowId).putAt hdesk fun d _ hid hd => ?_
  exact hd.putFloat hmin (hdesk.trans hid.symm) hmode (perm_append_singleton _ _)
    fun id hfocus => .inr (hd.focus id hfocus)

/-- **A terminal that floats beside its hub** leaves a valid session exactly if its
entry is well formed and the desktop it leaves keeps its names. -/
theorem floated_valid_iff (h : s.Valid) (hpanes : s.DistinctPanes)
    (hhome : desktopId ∈ s.desktopIds) (hkey : window.id = windowId)
    (hmin : window.minimized = false) (hmode : window.mode = .float)
    (hdesk : window.desktopId = desktopId) :
    Valid ((s.floated desktopId windowId window).focusWindow windowId) ↔
      window.Ok s.desktopIds ∧ ∀ d ∈ s.desktops, LeavesNamed d.tree windowId := by
  have htidy := h.tidy hpanes
  have hfloated := htidy.floated hhome hkey hmin hmode hdesk
  have hget : (s.floated desktopId windowId window).windows.get? windowId = some window :=
    get?_insert_self _ _ _
  refine (focusWindow_valid_iff_checked hfloated hget hmin fun d hd p hp hitem => ?_).trans ?_
  · have hmem : windowId ∈ items? d.tree := TileNode.mem_items?_iff.mpr ⟨p, hp, hitem⟩
    rw [(hfloated.desktops d hd).mem_tiles, shown_of_get? hget, hmode] at hmem
    cases hmem.2.1
  rw [checked_iff, s.floated_ids desktopId windowId window]
  refine and_congr ?_ (forall_mem_map.trans (forall_mem_map.trans (forall₂_congr fun d hd => ?_)))
  · exact ⟨fun hall => hall windowId window hget, forall_insert h.checked.windows⟩
  · rw [← unplaced_checked_iff (htidy.desktops d hd).tree ((checked_iff.mp h.checked).2 d hd)]
    split
    · exact ⟨fun hc => ⟨hc.context, hc.tree⟩, fun hc => ⟨hc.context, hc.tree⟩⟩
    · exact Iff.rfl

/-! ## Beside the hub -/

/-- The tree takes the terminal in the place chosen for it. -/
def TileSafe (windows : AssocMap String OsWindow) (tree : TileNode String)
    (sourceHubWindowId terminalId : String) : Prop :=
  let target := placeTarget windows tree sourceHubWindowId terminalId
  (∃ t, tree.findTilePaneById target.paneId = some t) ∧ tree.PutSafe terminalId target

/-- When placing the terminal beside its hub leaves a valid session. -/
structure BesideSafe (s : OsSession) (sourceHubWindowId : String) (sourceHubWin : OsWindow)
    (terminal : OsWindow) : Prop where
  ctx : terminal.ctx.Ok
  elsewhere : ∀ d ∈ s.desktops, d.id ≠ sourceHubWin.desktopId →
    LeavesNamed d.tree terminal.id
  beside : ∀ d ∈ s.desktops, d.id = sourceHubWin.desktopId →
    match sourceHubWin.mode, removeWindowFromDesktopTree d.tree terminal.id with
    | .tile, some tree =>
      (∀ b ∈ terminal.floatBounds, b.Ok) ∧
        TileSafe s.windows tree sourceHubWindowId terminal.id
    | _, _ => LeavesNamed d.tree terminal.id

/-- The terminal's own entry does not matter for where it goes. -/
theorem placeTarget_insert (h : windowId ∉ items? (some tree)) {sourceHubWindowId : String} :
    placeTarget (windows.insert windowId window) tree sourceHubWindowId windowId =
      placeTarget windows tree sourceHubWindowId windowId := by
  unfold placeTarget
  split
  · dsimp only
    congr 1
    refine find?_congr fun p hp => ?_
    congr 1
    rw [Bool.eq_iff_iff, any_eq_true, any_eq_true]
    refine exists_congr fun wId => and_congr_right fun hwId => ?_
    rw [get?_insert_of_ne]
    rintro rfl
    exact h (TileNode.mem_items?_iff.mpr ⟨p, hp, hwId⟩)
  · rfl

/-- **Placing a terminal beside its hub** leaves a valid session exactly if it is
safe. -/
theorem placeBeside_valid_iff (h : s.Valid) (hpanes : s.DistinctPanes) {hub : OsWindow}
    (hdesk : s.findDesktop hub.desktopId = some desk) {viewport : Viewport} (hubId : String) :
    Valid (s.placeBeside viewport hubId hub desk (s.windows.get? terminal.id) terminal
        newPaneId.value splitId.value) ↔
      s.BesideSafe hubId hub terminal := by
  have htidy := h.tidy hpanes
  obtain ⟨hmem, hid⟩ := findDesktop_some hdesk
  rw [← hid] at hdesk
  have hhome : desk.id ∈ s.desktopIds := mem_map_of_mem hmem
  have hexisting : ∀ w ∈ s.windows.get? terminal.id, w.Ok s.desktopIds :=
    fun w hw => h.checked.windows terminal.id w hw
  have hsame : ∀ d ∈ s.desktops, d.id = hub.desktopId → d = desk := fun d hd hd' =>
    inj_on_of_nodup_map h.placed.ids hd hmem (hd'.trans hid.symm)
  -- one desktop is the hub's, so the condition speaks of its tree
  have hsafe : s.BesideSafe hubId hub terminal ↔ terminal.ctx.Ok ∧
      (∀ d ∈ s.desktops, d.id ≠ desk.id → LeavesNamed d.tree terminal.id) ∧
      match hub.mode, removeWindowFromDesktopTree desk.tree terminal.id with
      | .tile, some tree =>
        (∀ b ∈ terminal.floatBounds, b.Ok) ∧ TileSafe s.windows tree hubId terminal.id
      | _, _ => LeavesNamed desk.tree terminal.id := by
    rw [hid]
    constructor
    · intro hb
      exact ⟨hb.ctx, hb.elsewhere, hb.beside desk hmem hid⟩
    · intro hb
      refine ⟨hb.1, hb.2.1, fun d hd hd' => ?_⟩
      rw [hsame d hd hd']
      exact hb.2.2
  rw [hsafe]
  let win := winToPlace (s.windows.get? terminal.id) terminal desk.id
  have hlifted : (s.withoutExisting (s.windows.get? terminal.id)).putWindow terminal.id win =
      s.lifted terminal.id win := lifted_eq htidy
  have hfind := lifted_findDesktop hdesk terminal.id win
  have hleaves : (∀ d ∈ s.desktops, d.id ≠ desk.id → LeavesNamed d.tree terminal.id) ∧
      LeavesNamed desk.tree terminal.id ↔ ∀ d ∈ s.desktops, LeavesNamed d.tree terminal.id := by
    constructor
    · intro hl d hd
      by_cases hd' : d.id = desk.id
      · rw [hsame d hd (hd'.trans hid)]
        exact hl.2
      · exact hl.1 d hd hd'
    · intro hl
      exact ⟨fun d hd _ => hl d hd, hl desk hmem⟩
  have hfloat : ∀ bounds : FloatBounds, bounds.Ok →
      (Valid (((s.lifted terminal.id win).placeFloat desk win bounds).focusWindow terminal.id) ↔
        terminal.ctx.Ok ∧
        (∀ d ∈ s.desktops, d.id ≠ desk.id → LeavesNamed d.tree terminal.id) ∧
        LeavesNamed desk.tree terminal.id) := by
    intro bounds hbounds
    rw [show (s.lifted terminal.id win).placeFloat desk win bounds = _ from
      placeFloat_eq htidy hdesk, hleaves]
    have hiff : Valid ((s.floated desk.id terminal.id { win with
        mode := .float, floatBounds := some bounds }).focusWindow terminal.id) ↔ _ :=
      floated_valid_iff h hpanes hhome rfl rfl rfl rfl
    refine hiff.trans (and_congr_left fun _ => ?_)
    refine ⟨fun hok => hok.ctx, fun hctx => ?_⟩
    refine ⟨hctx, hhome, fun b hb => ?_, fun placement hplacement => nomatch hplacement⟩
    cases hb
    exact hbounds
  simp only [placeBeside]
  rw [show (winToPlace (s.windows.get? terminal.id) terminal desk.id).id = terminal.id from rfl]
  rw [hlifted,
    hfind, Option.getD_some, desk.unplaced_tree]
  cases hmode : hub.mode with
  | float => exact hfloat _ clampFloatBounds_ok
  | tile =>
    cases htree : removeWindowFromDesktopTree desk.tree terminal.id with
    | none => exact hfloat _ clampFloatBounds_ok
    | some tree =>
      obtain ⟨_, _, hnot, _⟩ := removed_tree h hpanes hmem htree
      have htarget : placeTarget (s.lifted terminal.id win).windows tree hubId
          terminal.id = placeTarget s.windows tree hubId terminal.id :=
        placeTarget_insert hnot
      simp only [htarget, TileSafe]
      cases hpane : tree.findTilePaneById (placeTarget s.windows tree hubId terminal.id).paneId with
      | some t =>
        have hkey : win.id = terminal.id := rfl
        rw [lifted_dock_valid_iff h hpanes hdesk htree hpane hkey,
          winToPlace_ok_iff hexisting hhome]
        constructor
        · intro hv
          exact ⟨hv.1.1, hv.2.1, hv.1.2, ⟨t, rfl⟩, hv.2.2⟩
        · intro hv
          exact ⟨⟨hv.1, hv.2.2.1⟩, hv.2.1, hv.2.2.2.2⟩
      | none =>
        refine iff_of_false ?_ fun hv => ?_
        · rw [dock_eq_self]
          · exact lifted_focus_not_valid h hpanes hdesk rfl rfl
          · rintro ⟨window', desk', hdocks⟩
            have heq := hdocks.desktop.symm.trans hfind
            cases heq
            obtain ⟨t, ht⟩ := hdocks.target tree (by rw [desk.unplaced_tree, htree]; rfl)
            simp [hpane] at ht
        · obtain ⟨t, ⟨⟩⟩ := hv.2.2.2.1

/-! ## Focusing an existing terminal -/

def restoredMode (window : OsWindow) : WindowMode :=
  if window.minimized then (window.restorePlacement.map (·.mode)).getD window.mode
  else window.mode

theorem Valid.switchDesktop (h : s.Valid) (hpanes : s.DistinctPanes) (desktopId : String) :
    (s.switchDesktop desktopId).Valid ∧ (s.switchDesktop desktopId).DistinctPanes := by
  have htidy := (h.tidy hpanes).switchDesktop desktopId
  obtain ⟨hplaced, hpanes'⟩ := tidy_iff.mp htidy
  refine ⟨⟨hplaced, ?_⟩, hpanes'⟩
  unfold OsSession.switchDesktop
  split
  · exact h.checked
  · split
    · exact h.checked
    · exact { h.checked with }

theorem addWindow_selects {tree : Option (TileNode String)} (h : windowId ∉ items? tree)
    {paneId : String} :
    ∀ p ∈ (addWindowToDesktopTree tree windowId paneId).collectTilePanes,
      windowId ∈ p.items → p.active = some windowId := by
  have hsingle : ∀ p ∈ (TileNode.pane (TileNode.newTilePaneNode [windowId]
      (some windowId) paneId)).collectTilePanes, windowId ∈ p.items →
      p.active = some windowId := by
    intro p hp _
    rw [mem_singleton.mp hp]
    exact TileNode.newPane_active
  cases tree with
  | none => exact hsingle
  | some tree =>
    simp only [addWindowToDesktopTree]
    split
    · exact TileNode.insertItem_selects h
    · exact hsingle

theorem unminimize_focus_valid_iff (h : s.Valid) (hpanes : s.DistinctPanes)
    (hget : s.windows.get? windowId = some window) (hmin : window.minimized = true) :
    Valid ((s.unminimize windowId window paneId.value).focusWindow windowId) ↔
      (restoredMode window = .tile → windowId ≠ "") := by
  have htidy := h.tidy hpanes
  have hok := h.checked.windows windowId window hget
  have hplace : restoreDesktop window ∈ s.desktopIds := by
    unfold restoreDesktop
    cases hr : window.restorePlacement with
    | none => exact h.placed.homed windowId window hget
    | some placement => exact (hok.restore placement hr).desktop
  have hmode : restoredMode window =
      (window.restorePlacement.map (·.mode)).getD window.mode := if_pos hmin
  have hrestored := htidy.unminimize hget hmin hplace paneId.value
  have hhidden : ∀ d ∈ s.desktops, windowId ∉ items? d.tree ∧ windowId ∉ d.floatingWindowIds := by
    intro d hd
    rw [(htidy.desktops d hd).mem_tiles, (htidy.desktops d hd).mem_floats,
      shown_of_get? hget, shown_of_get? hget, hmin]
    simp
  -- the desktop after the restoration
  let updater : OsDesktop → OsDesktop := fun d =>
    if restoredMode window = .float then d.showFloat windowId
    else if d.hasInTree windowId then { d with focusedWindowId := some windowId }
    else d.showTile windowId paneId.value
  have hid : ∀ d, (updater d).id = d.id := by
    intro d
    simp only [updater]
    split
    · rfl
    · split <;> rfl
  have htile : ∀ d ∈ s.desktops, restoredMode window = .tile →
      updater d = d.showTile windowId paneId.value := by
    intro d hd htile
    have hno : ¬ d.hasInTree windowId = true := by
      rw [hasInTree_iff]
      exact (hhidden d hd).1
    simp only [updater, htile]
    rw [if_neg (by decide), if_neg hno]
  let updated : OsWindow := { window with
    minimized := false, mode := restoredMode window, desktopId := restoreDesktop window
    floatBounds := (window.restorePlacement.bind (·.floatBounds)).or window.floatBounds
    restorePlacement := none }
  have heq : s.unminimize windowId window paneId.value =
      { s with
        desktops := changeDesktop s.desktops (restoreDesktop window) updater
        windows := s.windows.insert windowId updated } := by
    simp only [updater, updated, hmode]
    rfl
  have hupdated : updated.Ok s.desktopIds := by
    refine ⟨hok.ctx, hplace, fun b hb => ?_, by rintro placement ⟨⟩⟩
    rcases Option.or_eq_some_iff.mp hb with hold | ⟨_, hown⟩
    · obtain ⟨placement, hp, hpb⟩ := Option.bind_eq_some_iff.mp hold
      exact (hok.restore placement hp).bounds b hpb
    · exact hok.bounds b hown
  have hchecked : (s.unminimize windowId window paneId.value).Checked ↔
      (restoredMode window = .tile → windowId ≠ "") := by
    have hdesks := (checked_iff.mp h.checked).2
    have hadd : ∀ d ∈ s.desktops,
        (DesktopChecked (d.showTile windowId paneId.value) ↔ windowId ≠ "") := by
      intro d hd
      have htree := addWindow_named_iff (hdesks d hd).tree (htidy.desktops d hd).tree
        windowId paneId.ne_empty
      exact ⟨fun hc => htree.mp hc.tree, fun hname => ⟨(hdesks d hd).context, htree.mpr hname⟩⟩
    rw [heq, checked_put_iff h.checked hupdated hid]
    constructor
    · intro hall hm
      obtain ⟨d, hd, hd'⟩ := mem_map.mp hplace
      have hc := hall d hd hd'
      rw [htile d hd hm] at hc
      exact (hadd d hd).mp hc
    · intro hname d hd _
      cases hm : restoredMode window with
      | tile =>
        rw [htile d hd hm]
        exact (hadd d hd).mpr (hname hm)
      | float =>
        simp only [updater, hm]
        exact ⟨(hdesks d hd).context, (hdesks d hd).tree⟩
  have hupdatedGet : (s.unminimize windowId window paneId.value).windows.get? windowId =
      some updated := by
    rw [heq]
    exact get?_insert_self _ _ _
  refine (focusWindow_valid_iff_checked hrestored hupdatedGet rfl ?_).trans hchecked
  rw [heq]
  refine forall_mem_map.mpr fun d hd => ?_
  have hno : ∀ p ∈ d.panes, windowId ∈ p.items → p.active = some windowId := fun p hp hitem =>
    absurd (TileNode.mem_items?_iff.mpr ⟨p, hp, hitem⟩) (hhidden d hd).1
  split
  · cases hm : restoredMode window with
    | tile =>
      rw [htile d hd hm]
      exact addWindow_selects (hhidden d hd).1
    | float =>
      simp only [updater, hm]
      exact hno
  · exact hno

/-- **Focusing an existing terminal** leaves a valid session exactly if it is not a tile
with the empty id. -/
theorem focusExisting_valid_iff (h : s.Valid) (hpanes : s.DistinctPanes)
    (hget : s.windows.get? windowId = some window) :
    Valid (s.focusExistingTerminal window paneId.value) ↔
      (restoredMode window = .tile → windowId ≠ "") := by
  have hswitched : ∃ s', (if window.desktopId ≠ s.activeDesktopId then
      s.switchDesktop window.desktopId else s) = s' ∧ s'.Valid ∧ s'.DistinctPanes ∧
      s'.windows = s.windows := by
    refine ⟨_, rfl, ?_⟩
    split
    · obtain ⟨hv, hp⟩ := h.switchDesktop hpanes window.desktopId
      exact ⟨hv, hp, switchDesktop_windows⟩
    · exact ⟨h, hpanes, rfl⟩
  obtain ⟨s', heq, hvalid, hpanes', hwindows⟩ := hswitched
  have hget' : s'.windows.get? windowId = some window := by
    rw [hwindows]
    exact hget
  rw [focusExistingTerminal, heq, h.placed.keyed windowId window hget]
  cases hmin : window.minimized with
  | true =>
    rw [restoreWindow, hget']
    simp only [hmin]
    exact unminimize_focus_valid_iff hvalid hpanes' hget' hmin
  | false =>
    have hmode : restoredMode window = window.mode := by simp [restoredMode, hmin]
    rw [if_neg (by decide), focusWindow_valid_iff hvalid hpanes' hget', hmode, hmin]
    simp

end

end OsSession

end DamHopper.Os
