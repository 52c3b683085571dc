import DamHopper.Os.Labels
import DamHopper.Os.Lifecycle

/-!
# Os — Modes

Changing a window's mode, its place in the stack and the focus. These operations place
a window without asking whether it is minimized, so they keep a session valid exactly
for windows that are not (`ModeSafe`); the window with the empty id is the other
exception, because it cannot be the active item of a pane.
-/

namespace DamHopper.Os

open OsDesktop List
open TileNode (Sound Named LeavesNamed items? panes?)

/-! ## Bounds -/

theorem calculateNextFloatBounds_ok (s : OsSession) (desktopId : String) (viewport : Viewport) :
    (calculateNextFloatBounds s desktopId viewport).Ok := by
  have hwidth : ∀ x : ℚ, 0 < min DEFAULT_FLOAT_BOUNDS.width (max 50 x) := fun x =>
    lt_min (by decide) (lt_max_of_lt_left (by decide))
  have hheight : ∀ x : ℚ, 0 < min DEFAULT_FLOAT_BOUNDS.height (max 40 x) := fun x =>
    lt_min (by decide) (lt_max_of_lt_left (by decide))
  unfold calculateNextFloatBounds
  simp only
  split <;> exact ⟨hwidth _, hheight _⟩

/-! ## One desktop -/

section

variable {windows : AssocMap String OsWindow} {d : OsDesktop} {windowId : String}

/-- Another order of the floating list, and a focus that is shown. -/
theorem DesktopTidy.permFloats (h : DesktopTidy windows d) {floats : List String}
    {focus : Option String} (hperm : floats.Perm d.floatingWindowIds)
    (hfocus : ∀ id, focus = some id → ∃ mode, Shown windows mode d.id id) :
    DesktopTidy windows { d with floatingWindowIds := floats, focusedWindowId := focus } where
  __ := h
  floats := hperm.nodup_iff.mpr h.floats
  mem_floats id := hperm.mem_iff.trans (h.mem_floats id)
  focus := hfocus

theorem removeWindow_of_not_mem {tree : Option (TileNode String)} (h : windowId ∉ items? tree) :
    removeWindowFromDesktopTree tree windowId = tree := by
  cases tree with
  | none => rfl
  | some tree =>
    simp only [removeWindowFromDesktopTree]
    split
    · rfl
    rename_i p hfind
    obtain ⟨hp, hx⟩ := TileNode.findTilePaneContaining_some hfind
    have hmem : windowId ∈ items? (some tree) := TileNode.mem_items?_iff.mpr ⟨p, hp, hx⟩
    exact absurd hmem h

/-- A window in its new mode is taken out and shown again. -/
theorem withMode_eq {mode : WindowMode} (h : mode = .tile → windowId ∉ items? d.tree)
    (paneId : String) :
    d.withMode windowId mode paneId =
      if mode = .float then (d.without windowId none).showFloat windowId
      else (d.without windowId none).showTile windowId paneId := by
  cases mode with
  | float => simp [withMode, showFloat, without, toFront]
  | tile => simp [withMode, showTile, without, removeWindow_of_not_mem (h rfl)]

end

namespace OsSession

section

variable {s : OsSession} {windowId : String} {window : OsWindow} {mode : WindowMode}
  {viewport : Option Viewport} {d : OsDesktop}

/-! ## Modes -/

/-- In its new mode the window does not make the empty id active. -/
def SwitchesNamed (tree : Option (TileNode String)) (windowId : String) :
    WindowMode → Prop
  | .tile => windowId ≠ ""
  | .float => LeavesNamed tree windowId

def Switchable (s : OsSession) (windowId : String) (window : OsWindow)
    (mode : WindowMode) : Prop :=
  window.minimized = false ∧ ∀ d ∈ s.desktops, d.id = window.desktopId →
    SwitchesNamed d.tree windowId mode

theorem withMode_id (mode : WindowMode) (paneId : String) (d : OsDesktop) :
    (d.withMode windowId mode paneId).id = d.id := by
  unfold withMode
  split <;> rfl

theorem Tidy.applyWindowMode (h : Tidy s) (hget : s.windows.get? windowId = some window)
    (hmin : window.minimized = false) (hmode : window.mode ≠ mode) (paneId : String) :
    Tidy (s.applyWindowMode windowId window mode viewport paneId) := by
  refine h.put h.active (h.keyed windowId window hget) (h.homed windowId window hget)
    (changeDesktop_ids _ _ (withMode_id mode paneId)) ?_
  refine allTidy_changeDesktop (fun d hd hid => ?_) fun d hd hid => ?_
  · have hout : DesktopTidy (s.windows.erase windowId) (d.without windowId none) :=
      (h.desktops d hd).takeOut fun id hnone => nomatch hnone
    have hnot : mode = .tile → windowId ∉ items? d.tree := by
      intro htile hmem
      rw [(h.desktops d hd).mem_tiles, shown_of_get? hget] at hmem
      exact hmode (hmem.2.1.trans htile.symm)
    rw [withMode_eq hnot]
    refine hout.show ?_ ?_ paneId
    · exact hmin
    · exact hid.symm
  · refine ((h.desktops d hd).erase_of_not_shown fun mode' hshown => hid ?_).putHidden
      (.inr (Ne.symm hid))
    exact ((shown_of_get? hget).mp hshown).2.2.symm

theorem windowWithMode_ok (hw : window.Ok s.desktopIds) (mode : WindowMode)
    (viewport : Option Viewport) :
    (s.windowWithMode window mode viewport).Ok s.desktopIds := by
  refine ⟨hw.ctx, hw.desktop, fun b hb => ?_, hw.restore⟩
  simp only [windowWithMode] at hb
  split at hb
  · cases hb
    cases hbounds : window.floatBounds with
    | none => exact calculateNextFloatBounds_ok _ _ _
    | some bounds => exact hw.bounds bounds hbounds
  · exact hw.bounds b hb

theorem withMode_checked_iff (hsound : Sound d.tree) (h : DesktopChecked d) (paneId : Uuid) :
    DesktopChecked (d.withMode windowId mode paneId.value) ↔
      SwitchesNamed d.tree windowId mode := by
  cases mode with
  | float =>
    have htree := removeWindow_named_iff h.tree hsound windowId
    exact ⟨fun hc => htree.mp hc.tree, fun hl => ⟨h.context, htree.mpr hl⟩⟩
  | tile =>
    have htree := addWindow_named_iff h.tree hsound windowId paneId.ne_empty
    exact ⟨fun hc => htree.mp hc.tree, fun hl => ⟨h.context, htree.mpr hl⟩⟩

/-- The window's desktop, and what has become of it. -/
theorem Placed.exists_home (h : s.Placed) (hget : s.windows.get? windowId = some window)
    (updater : OsDesktop → OsDesktop) : ∃ d ∈ s.desktops, d.id = window.desktopId ∧
      updater d ∈ (s.updateDesktop window.desktopId updater).desktops := by
  obtain ⟨d, hd, hid⟩ := mem_map.mp (h.homed windowId window hget)
  exact ⟨d, hd, hid, mem_map.mpr ⟨d, hd, if_pos hid⟩⟩

/-- **Changing the mode** keeps a session valid exactly if the window is switchable. -/
theorem applyWindowMode_valid_iff (h : s.Valid) (hpanes : s.DistinctPanes)
    (hget : s.windows.get? windowId = some window) (hmode : window.mode ≠ mode) (paneId : Uuid) :
    Valid (s.applyWindowMode windowId window mode viewport paneId.value) ↔
      s.Switchable windowId window mode := by
  have htidy := h.tidy hpanes
  have hchecked : Checked (s.applyWindowMode windowId window mode viewport paneId.value) ↔
      ∀ d ∈ s.desktops, d.id = window.desktopId → SwitchesNamed d.tree windowId mode :=
    (checked_put_iff h.checked
      (windowWithMode_ok (h.checked.windows windowId window hget) mode viewport)
      (withMode_id mode paneId.value)).trans <|
    forall₃_congr fun d hd _ => withMode_checked_iff (htidy.desktops d hd).tree
      ((checked_iff.mp h.checked).2 d hd) paneId
  constructor
  · intro hvalid
    refine ⟨?_, hchecked.mp hvalid.checked⟩
    -- the window has the focus of its desktop, so it is shown there
    obtain ⟨d, _, _, hmem⟩ := h.placed.exists_home hget (·.withMode windowId mode paneId.value)
    obtain ⟨_, hshown⟩ := hvalid.placed.focus _ hmem windowId (by
      unfold withMode
      split <;> rfl)
    exact (shown_insert_self.mp hshown).1
  · rintro ⟨hmin, htree⟩
    exact ⟨(tidy_iff.mp (htidy.applyWindowMode hget hmin hmode _)).1, hchecked.mpr htree⟩

/-! ## Stacking and focus -/

/-- A window put in front of the others or behind them, and perhaps focused. -/
def Restacks (windowId : String) (updater : OsDesktop → OsDesktop) : Prop :=
  ∀ d, ∃ floats focus,
    updater d = { d with floatingWindowIds := floats, focusedWindowId := focus } ∧
    floats.Perm (windowId :: d.floatingWindowIds.filter (· ≠ windowId)) ∧
    (focus = some windowId ∨ focus = d.focusedWindowId)

variable {updater : OsDesktop → OsDesktop}

theorem Tidy.restack (h : Tidy s) (hget : s.windows.get? windowId = some window)
    (hmin : window.minimized = false) (hmode : window.mode = .float)
    (hupdater : Restacks windowId updater) :
    Tidy (s.updateDesktop window.desktopId updater) := by
  refine h.changeDesktop (fun d => ?_) fun d hd hid htidy => ?_
  · obtain ⟨floats, focus, heq, _⟩ := hupdater d
    rw [heq]
  · obtain ⟨floats, focus, heq, hperm, hfocus⟩ := hupdater d
    have hshown : Shown s.windows .float d.id windowId := ⟨window, hget, hmin, hmode, hid.symm⟩
    rw [heq]
    refine htidy.permFloats (hperm.trans (filter_ne_perm htidy.floats ?_)) fun id hid => ?_
    · exact (htidy.mem_floats windowId).mpr hshown
    · rcases hfocus with hself | hsame
      · cases hself.symm.trans hid
        exact ⟨.float, hshown⟩
      · rw [hsame] at hid
        exact htidy.focus id hid

section

variable (h : s.Valid) (hpanes : s.DistinctPanes) (hget : s.windows.get? windowId = some window)
include h hpanes hget

/-- A float on the stack is shown, so the result is valid only if the window is. -/
theorem restack_valid_iff (hupdater : Restacks windowId updater) :
    Valid (if window.mode ≠ .float then s else s.updateDesktop window.desktopId updater) ↔
      (window.mode = .float → window.minimized = false) := by
  have htidy := h.tidy hpanes
  split_ifs with hmode
  · exact iff_of_true h fun hfloat => absurd hfloat hmode
  rw [not_not] at hmode
  rw [forall_prop_of_true hmode]
  constructor
  · intro hvalid
    obtain ⟨d, _, _, hmem⟩ := h.placed.exists_home hget updater
    obtain ⟨floats, focus, heq, hperm, _⟩ := hupdater d
    rw [heq] at hmem
    have hshown := ((hvalid.placed.floats _ hmem).2 windowId).mp
      (hperm.mem_iff.mpr mem_cons_self)
    exact ((shown_of_get? hget).mp hshown).1
  · intro hmin
    refine ⟨(tidy_iff.mp (htidy.restack hget hmin hmode hupdater)).1, ?_⟩
    rw [checked_changeDesktop_iff h.checked]
    · intro d hd _
      obtain ⟨_, _, heq, _⟩ := hupdater d
      have hchecked := (checked_iff.mp h.checked).2 d hd
      rw [heq]
      exact ⟨hchecked.context, hchecked.tree⟩
    · intro d
      obtain ⟨_, _, heq, _⟩ := hupdater d
      rw [heq]

end

/-- In the tree, a window in front is the active tab of the pane it is found in. -/
theorem isInFront_iff : d.isInFront windowId = true ↔
    (d.focusedWindowId = some windowId ∧ (windowId ∉ d.floatingWindowIds ∨
      d.floatingWindowIds.getLast? = some windowId)) ∧
    ∀ p, d.panes.find? (·.items.any (· = windowId)) = some p → p.active = some windowId := by
  rw [panes]
  cases htree : d.tree <;>
    simp [isInFront, htree, panes?, TileNode.findTilePaneContaining, Option.all_eq_true]

/-- Only a window that is shown is in front already. -/
theorem isInFront_shown (h : s.Valid) (hd : d ∈ s.desktops)
    (hget : s.windows.get? windowId = some window) (hfront : d.isInFront windowId = true) :
    window.minimized = false ∧ (window.mode = .tile → windowId ≠ "") := by
  obtain ⟨⟨hfocus, _⟩, hactive⟩ := isInFront_iff.mp hfront
  obtain ⟨mode', hshown⟩ := h.placed.focus d hd windowId hfocus
  obtain ⟨hmin, _, hdesk⟩ := (shown_of_get? hget).mp hshown
  refine ⟨hmin, fun htile => ?_⟩
  have hmem : windowId ∈ d.treeItems :=
    ((h.placed.tiles d hd).2 windowId).mpr ⟨window, hget, hmin, htile, hdesk⟩
  obtain ⟨q, hq, hx⟩ := TileNode.mem_items?_iff.mp hmem
  have hsome : (d.panes.find? (·.items.any (· = windowId))).isSome :=
    find?_isSome.mpr ⟨q, hq, by simpa using hx⟩
  obtain ⟨p, hfind⟩ := Option.isSome_iff_exists.mp hsome
  rintro rfl
  exact h.checked.named d hd p (mem_of_find?_eq_some hfind) (hactive p hfind)

theorem focusWindow_of_inFront (hget : s.windows.get? windowId = some window)
    (hfind : s.findDesktop window.desktopId = some d) (hfront : d.isInFront windowId = true) :
    s.focusWindow windowId = s := by
  simp only [focusWindow, hget, hfind, hfront, if_true]

theorem focusWindow_valid_iff (h : s.Valid) (hpanes : s.DistinctPanes)
    (hget : s.windows.get? windowId = some window) :
    Valid (s.focusWindow windowId) ↔
      window.minimized = false ∧ (window.mode = .tile → windowId ≠ "") := by
  have htidy := h.tidy hpanes
  have hplaced : window.minimized = false → (s.focusWindow windowId).Placed := fun hmin =>
    (tidy_iff.mp (htidy.focusWindow (by simpa [hget] using hmin))).1
  obtain ⟨current, hfind⟩ := exists_findDesktop (h.placed.homed windowId window hget)
  obtain ⟨hcurrent, _⟩ := findDesktop_some hfind
  by_cases hfront : current.isInFront windowId = true
  · rw [focusWindow_of_inFront hget hfind hfront]
    exact iff_of_true h (isInFront_shown h hcurrent hget hfront)
  have heq : s.focusWindow windowId = s.updateDesktop window.desktopId fun d =>
      { d with
        tree := activatePane d.tree windowId
        floatingWindowIds :=
          if windowId ∈ current.floatingWindowIds then
            toFront d.floatingWindowIds windowId
          else d.floatingWindowIds
        focusedWindowId := some windowId } := by
    simp only [focusWindow, hget, hfind]
    rw [if_neg hfront]
  rw [heq] at hplaced ⊢
  obtain ⟨d, hd, hid, hmem⟩ := h.placed.exists_home hget _
  constructor
  · intro hvalid
    obtain ⟨_, hshown⟩ := hvalid.placed.focus _ hmem windowId rfl
    have hmin := ((shown_of_get? hget).mp hshown).1
    refine ⟨hmin, fun htile => ?_⟩
    have htree := ((checked_iff.mp hvalid.checked).2 _ hmem).tree
    refine (activatePane_named_iff ((checked_iff.mp h.checked).2 d hd).tree
      (htidy.desktops d hd).tree).mp htree ?_
    exact ((htidy.desktops d hd).mem_tiles windowId).mpr ⟨window, hget, hmin, htile, hid.symm⟩
  · rintro ⟨hmin, hname⟩
    refine ⟨hplaced hmin, ?_⟩
    rw [checked_changeDesktop_iff h.checked]
    · intro d' hd' _
      have hchecked := (checked_iff.mp h.checked).2 d' hd'
      refine ⟨hchecked.context, ?_⟩
      refine (activatePane_named_iff hchecked.tree (htidy.desktops d' hd').tree).mpr
        fun hitem => hname ?_
      rw [(htidy.desktops d' hd').mem_tiles, shown_of_get? hget] at hitem
      exact hitem.2.1
    · exact fun _ => rfl

end

/-! ## The operations together -/

inductive ModeOp where
  | setWindowMode (windowId : String) (mode : WindowMode) (viewport : Option Viewport)
      (paneId : Uuid)
  | toggleWindowMode (windowId : String) (viewport : Option Viewport) (paneId : Uuid)
  | bringWindowToFront (windowId : String)
  | sendWindowToBack (windowId : String)
  | focusWindow (windowId : String)

def ModeOp.windowId : ModeOp → String
  | .setWindowMode windowId _ _ _ | .toggleWindowMode windowId _ _
  | .bringWindowToFront windowId | .sendWindowToBack windowId | .focusWindow windowId =>
    windowId

def modeStep (s : OsSession) : ModeOp → OsSession
  | .setWindowMode windowId mode viewport paneId =>
    s.setWindowMode windowId mode viewport paneId.value
  | .toggleWindowMode windowId viewport paneId =>
    s.toggleWindowMode windowId viewport paneId.value
  | .bringWindowToFront windowId => s.bringWindowToFront windowId
  | .sendWindowToBack windowId => s.sendWindowToBack windowId
  | .focusWindow windowId => s.focusWindow windowId

/-- When the operation keeps a session valid: the window it moves is not minimized,
and the empty id does not become the active item of a pane. -/
def WindowSafe (s : OsSession) (window : OsWindow) : ModeOp → Prop
  | .setWindowMode windowId mode _ _ =>
    window.mode ≠ mode → s.Switchable windowId window mode
  | .toggleWindowMode windowId _ _ =>
    s.Switchable windowId window (if window.mode = .tile then .float else .tile)
  | .bringWindowToFront _ | .sendWindowToBack _ =>
    window.mode = .float → window.minimized = false
  | .focusWindow windowId =>
    window.minimized = false ∧ (window.mode = .tile → windowId ≠ "")

def ModeSafe (s : OsSession) (op : ModeOp) : Prop :=
  ∀ window, s.windows.get? op.windowId = some window → s.WindowSafe window op

section

variable {s : OsSession}

theorem modeStep_of_missing (op : ModeOp) (hget : s.windows.get? op.windowId = none) :
    s.modeStep op = s := by
  cases op <;>
    simp only [ModeOp.windowId] at hget <;>
    simp only [modeStep, setWindowMode, toggleWindowMode, bringWindowToFront,
      sendWindowToBack, focusWindow, hget]

theorem modeStep_valid_iff (h : s.Valid) (hpanes : s.DistinctPanes) (op : ModeOp) :
    (s.modeStep op).Valid ↔ s.ModeSafe op := by
  cases hget : s.windows.get? op.windowId with
  | none =>
    rw [modeStep_of_missing op hget]
    exact iff_of_true h (by simp [ModeSafe, hget])
  | some window =>
    have hsafe : s.ModeSafe op ↔ s.WindowSafe window op := by
      simp [ModeSafe, hget]
    rw [hsafe]
    cases op with
    | setWindowMode windowId mode viewport paneId =>
      simp only [ModeOp.windowId] at hget
      simp only [modeStep, setWindowMode, hget]
      split_ifs with hmode
      · exact iff_of_true h fun hne => absurd hmode hne
      · rw [applyWindowMode_valid_iff h hpanes hget hmode paneId]
        exact ⟨fun hs _ => hs, fun hs => hs hmode⟩
    | toggleWindowMode windowId viewport paneId =>
      simp only [ModeOp.windowId] at hget
      simp only [modeStep, toggleWindowMode, hget]
      refine applyWindowMode_valid_iff h hpanes hget ?_ paneId
      cases window.mode <;> decide
    | bringWindowToFront windowId =>
      simp only [ModeOp.windowId] at hget
      simp only [modeStep, bringWindowToFront, hget]
      exact restack_valid_iff h hpanes hget fun d =>
        ⟨_, _, rfl, perm_append_singleton _ _, .inl rfl⟩
    | sendWindowToBack windowId =>
      simp only [ModeOp.windowId] at hget
      simp only [modeStep, sendWindowToBack, hget]
      exact restack_valid_iff h hpanes hget fun d => ⟨_, _, rfl, Perm.refl _, .inr rfl⟩
    | focusWindow windowId => exact focusWindow_valid_iff h hpanes hget

/-- Saved and loaded again, the session is not discarded, and saving not suspended. -/
def Reloads (str : Js → String) (s : OsSession) : Prop :=
  ∀ p : Persistence, p.autosaveSuspended = false →
    ∃ p', saveOsSession s none p = (true, none, p') ∧ p'.autosaveSuspended = false ∧
      loadOsSession str none p' = (sanitizeSessionForPersistence s, none, p')

/-- The operations add no window. -/
theorem get?_modeStep {id : String} (hid : s.windows.get? id = none) (op : ModeOp) :
    (s.modeStep op).windows.get? id = none := by
  have hput : ∀ {windowId : String} {window : OsWindow}, s.windows.get? windowId = some window →
      ∀ w, (s.windows.insert windowId w).get? id = none := by
    intro windowId window hget w
    rw [AssocMap.get?_insert_of_ne _ _ (by rintro rfl; simp [hid] at hget), hid]
  cases op <;> simp only [modeStep, setWindowMode, toggleWindowMode, applyWindowMode,
    bringWindowToFront, sendWindowToBack, focusWindow, updateDesktop_eq, putWindow] <;>
    repeat' split
  all_goals first | exact hid | exact hput ‹_› _

/-- **Mode, stacking and focus.** On an accepted session with distinct panes the result
is accepted exactly if the operation is safe, and is then, with no window `__proto__`,
loaded again once saved. -/
theorem mode_accepted_iff {str : Js → String} (h : s.Accepted str) (hpanes : s.DistinctPanes)
    (op : ModeOp) :
    ((s.modeStep op).Accepted str ↔ s.ModeSafe op) ∧
      (s.ModeSafe op → s.windows.get? protoKey = none → (s.modeStep op).Reloads str) := by
  have hiff := modeStep_valid_iff (accepted_iff.mp h) hpanes op
  exact ⟨accepted_iff.trans hiff, fun hsafe hkey p hp =>
    (hiff.mpr hsafe).load_save (get?_modeStep hkey op) hp⟩

def oneTerminal (minimized : Bool) : OsSession :=
  { activeDesktopId := "d1"
    desktops :=
      [{ id := "d1", name := "Main", defaultCtx := none, tree := none
         floatingWindowIds := if minimized then [] else ["w"], focusedWindowId := none }]
    windows := .ofList
      [("w", { id := "w", appId := .terminals, title := "Terminal"
               ctx := { profileId := "p", projectId := none, worktreeId := none }
               mode := .float, desktopId := "d1", maximized := false, minimized
               floatBounds := none, restorePlacement := none, appState := .undefined })] }

theorem mode_accepted_toggle_terminal : ((oneTerminal false).modeStep
      (.toggleWindowMode "w" none ⟨"pane-1", by decide⟩)).Accepted (fun _ => "") := by
  refine (mode_accepted_iff (accepted_iff.mpr (by decide +kernel)) (by decide +kernel)
    _).1.mpr fun window hget => ?_
  cases hget
  exact ⟨rfl, fun d _ _ => show "w" ≠ "" by decide⟩

/-- A minimized window that is focused makes the session unreadable. -/
theorem focus_minimized_rejected :
    (oneTerminal true).Accepted (fun _ => "") ∧ (oneTerminal true).DistinctPanes ∧
      ¬ ((oneTerminal true).modeStep (.focusWindow "w")).Accepted (fun _ => "") := by
  simp only [accepted_iff]
  decide +kernel

end

end OsSession

end DamHopper.Os
