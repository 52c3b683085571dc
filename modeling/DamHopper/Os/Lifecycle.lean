import DamHopper.Os.Placement
import DamHopper.Lib.Runs

/-!
# Os — Lifecycle

The operations that open, close, move and restore windows and that add and remove
desktops keep a session in good order, so every session reached from the default
one by them is placed correctly.
-/

namespace DamHopper.Os

open AssocMap OsDesktop TileNode OsSession List
open TileNode (Sound items? panes?)

/-! ## A desktop without a window -/

variable {windowId : String} {windows : AssocMap String OsWindow} {d : OsDesktop}

theorem OsDesktop.hasInTree_iff :
    d.hasInTree windowId = true ↔ windowId ∈ items? d.tree := by
  cases htree : d.tree with
  | none | some tree => simp [hasInTree, htree, items?, panes?, findTilePaneContaining]

def OsDesktop.unplaced (d : OsDesktop) (windowId : String)
    (windows : AssocMap String OsWindow) : OsDesktop :=
  if d.floatingWindowIds.contains windowId || d.hasInTree windowId then
    d.without windowId (d.focusAfter windowId windows)
  else d

theorem OsDesktop.unplaced_id (d : OsDesktop) :
    (d.unplaced windowId windows).id = d.id := by
  unfold unplaced
  split <;> rfl

theorem DesktopTidy.unplaced {allWindows : AssocMap String OsWindow} (h : DesktopTidy windows d) :
    DesktopTidy (windows.erase windowId) (d.unplaced windowId allWindows) := by
  unfold OsDesktop.unplaced
  split_ifs with hnot
  · exact h.takeOut fun id hfocus => h.focusAfter _ hfocus
  simp only [Bool.or_eq_true, contains_iff_mem, hasInTree_iff, not_or] at hnot
  refine h.erase_of_not_shown fun mode hshown => ?_
  have hplaced := (h.placed_iff windowId).mpr ⟨mode, hshown⟩
  exact hplaced.elim hnot.2 hnot.1

namespace OsSession

/-! ## Loops over the desktops -/

/-- A loop that updates each desktop under its own id is a map. -/
theorem foldl_updateDesktop {s : OsSession} {affected : OsDesktop → Bool}
    {update : OsDesktop → OsDesktop → OsDesktop} (hid : ∀ desk d, (update desk d).id = d.id)
    (hids : s.desktopIds.Nodup) :
    s.desktops.foldl (fun updated desk =>
          if affected desk then updated.updateDesktop desk.id (update desk) else updated) s =
      { s with desktops := s.desktops.map fun d => if affected d then update d d else d } := by
  -- the loop has done `done` and has `rest` to go
  have hloop : ∀ rest done : List OsDesktop, ((done ++ rest).map (·.id)).Nodup → rest.foldl
          (fun updated desk =>
            if affected desk then updated.updateDesktop desk.id (update desk) else updated)
          { s with desktops := done ++ rest } =
        { s with
          desktops := done ++ rest.map fun d => if affected d then update d d else d } := by
    intro rest
    induction rest with
    | nil => intro done _; rfl
    | cons desk rest ih =>
      intro done hnodup
      have hname : (if affected desk then update desk desk else desk).id = desk.id := by
        split
        · exact hid desk desk
        · rfl
      have hstep : (if affected desk then
            updateDesktop { s with desktops := done ++ desk :: rest } desk.id (update desk)
          else { s with desktops := done ++ desk :: rest }) =
          { s with
            desktops := (done ++ [if affected desk then update desk desk else desk]) ++ rest } := by
        split
        · rw [updateDesktop, map_update_of_nodup hnodup]
          simp
        · simp
      rw [foldl_cons, hstep, ih]
      · simp
      · simpa [hname] using hnodup
  simpa using hloop s.desktops [] (by simpa [desktopIds] using hids)

section

variable {s : OsSession} {windowId : String}

/-! ## One operation -/

theorem Tidy.closeWindow (h : Tidy s) (windowId : String) : Tidy (s.closeWindow windowId) := by
  unfold OsSession.closeWindow
  split
  · exact h
  rename_i window hget
  split
  next hnone =>
    have hno := findDesktop_isNone_iff.mp (Option.isNone_iff_eq_none.mpr hnone)
    exact absurd (h.homed windowId window hget) hno
  rename_i desktop hfind
  obtain ⟨_, hid⟩ := findDesktop_some hfind
  rw [hid]
  refine h.erase (changeDesktop_ids _ _ fun _ => rfl) ?_
  refine h.desktops.takeOutHome hget fun d hd _ => ?_
  exact (h.desktops d hd).takeOut fun id hpick => (h.desktops d hd).pickNextFocus _ hpick

theorem Tidy.openWindow (h : Tidy s) {config : WindowConfig}
    (hnew : s.windows.get? config.id = none) (targetDesktopId : Option String)
    (viewport : Option Viewport) (paneId : String) :
    Tidy (s.openWindow config targetDesktopId viewport paneId) := by
  unfold OsSession.openWindow
  split
  · exact h
  rename_i desktop hfound
  have hmem : desktop ∈ s.desktops := by
    rcases Option.or_eq_some_iff.mp hfound with hfind | ⟨_, hhead⟩
    · exact (findDesktop_some hfind).1
    · exact mem_of_mem_head? hhead
  have hout : AllTidy (s.windows.erase config.id) s.desktops :=
    h.desktops.erase_hidden fun w hw => by simp [hnew] at hw
  refine h.put h.active rfl (mem_map_of_mem hmem) (changeDesktop_ids _ _ fun d => ?_) ?_
  · split <;> rfl
  · refine hout.putAt rfl fun d _ hid hd => ?_
    exact hd.show rfl hid.symm paneId

theorem Tidy.focusWindow (h : Tidy s)
    (hvisible : ∀ w, s.windows.get? windowId = some w → w.minimized = false) :
    Tidy (s.focusWindow windowId) := by
  unfold OsSession.focusWindow
  split
  · exact h
  rename_i window hget
  split
  · exact h
  rename_i desktop hfind
  split
  · exact h
  obtain ⟨hmem, hdesk⟩ := findDesktop_some hfind
  refine h.changeDesktop (fun _ => rfl) fun d hd hid htidy => ?_
  -- the desktop that is updated is the one that was read
  have hsame : desktop = d := inj_on_of_nodup_map h.ids hmem hd (hdesk.trans hid.symm)
  subst hsame
  have hshown : Shown s.windows window.mode desktop.id windowId :=
    ⟨window, hget, hvisible window hget, rfl, hid.symm⟩
  have hfocus := htidy.focused hshown (decide (windowId ∈ desktop.floatingWindowIds)) (by simp)
  simpa only [decide_eq_true_eq] using hfocus

theorem Tidy.switchDesktop (h : Tidy s) (desktopId : String) :
    Tidy (s.switchDesktop desktopId) := by
  unfold OsSession.switchDesktop
  split
  · exact h
  split_ifs with hfound
  · exact h
  · rw [findDesktop_isNone_iff, not_not] at hfound
    exact ⟨h.ids, hfound, h.keyed, h.homed, h.desktops⟩

theorem Tidy.moveWindowToDesktop (h : Tidy s) (windowId targetDesktopId paneId : String) :
    Tidy (s.moveWindowToDesktop windowId targetDesktopId paneId) := by
  unfold OsSession.moveWindowToDesktop
  split
  · exact h
  rename_i window hget
  split
  · exact h
  split
  · exact h
  rename_i hfound
  rw [findDesktop_isNone_iff, not_not] at hfound
  have hout : AllTidy (s.windows.erase windowId)
      (Os.changeDesktop s.desktops window.desktopId fun d =>
        d.without windowId
          (if d.focusedWindowId = some windowId then none else d.focusedWindowId)) := by
    refine h.desktops.takeOutHome hget fun d hd _ => ?_
    refine (h.desktops d hd).takeOut fun id hfocus => ?_
    split at hfocus
    · cases hfocus
    next hne => exact ⟨fun heq => hne (heq ▸ hfocus), (h.desktops d hd).focus id hfocus⟩
  have hkey := h.keyed windowId window hget
  split_ifs with hmin
  · exact h.put h.active hkey hfound (changeDesktop_ids _ _ fun _ => rfl) (hout.putMinimized hmin)
  rw [Bool.not_eq_true] at hmin
  refine h.put h.active hkey hfound
    ((changeDesktop_ids _ _ fun d => ?_).trans (changeDesktop_ids _ _ fun _ => rfl)) ?_
  · split <;> rfl
  · refine hout.putAt rfl fun d _ hid hd => ?_
    split_ifs with hmode
    · exact hd.putFloat hmin hid.symm hmode (perm_append_singleton _ _) fun id heq =>
        .inl (Option.some.inj heq).symm
    · refine hd.showTile ?_ ?_ (WindowMode.eq_tile hmode)
      · exact hmin
      · exact hid.symm

theorem Tidy.minimizeWindow (h : Tidy s) (windowId : String) :
    Tidy (s.minimizeWindow windowId) := by
  unfold OsSession.minimizeWindow
  split
  · exact h
  rename_i window hget
  split
  · exact h
  have hkey := h.keyed windowId window hget
  have hhome := h.homed windowId window hget
  refine h.put h.active hkey hhome (changeDesktop_ids _ _ fun _ => rfl) ?_
  refine AllTidy.putMinimized ?_ rfl
  refine h.desktops.takeOutHome hget fun d hd _ => ?_
  exact (h.desktops d hd).takeOut fun id hpick => (h.desktops d hd).pickNextFocus _ hpick

def restoreDesktop (window : OsWindow) : String :=
  (window.restorePlacement.map (·.desktopId)).getD window.desktopId

variable {window w : OsWindow} {desktopId : String}

theorem Tidy.unminimize (h : Tidy s) (hget : s.windows.get? windowId = some window)
    (hmin : window.minimized = true) (hplace : restoreDesktop window ∈ s.desktopIds)
    (paneId : String) :
    Tidy (s.unminimize windowId window paneId) := by
  have hout : AllTidy (s.windows.erase windowId) s.desktops := by
    refine h.desktops.erase_hidden fun w hw => ?_
    cases hget.symm.trans hw
    exact hmin
  have hkey := h.keyed windowId window hget
  refine h.put h.active hkey hplace (changeDesktop_ids _ _ fun d => ?_) ?_
  · split
    · rfl
    · split <;> rfl
  · refine hout.putAt rfl fun d _ hid hd => ?_
    have hnot : d.hasInTree windowId ≠ true := by
      rw [Ne, hasInTree_iff, hd.mem_tiles]
      exact not_shown_erase_self
    split_ifs with hmode
    · exact hd.showFloat rfl hid.symm hmode
    · exact hd.showTile rfl hid.symm (WindowMode.eq_tile hmode)

def Restorable (s : OsSession) : Prop :=
  ∀ id w, s.windows.get? id = some w → w.minimized = true →
    restoreDesktop w ∈ s.desktopIds

section

variable (h : Tidy s) (hrestore : s.Restorable) (windowId paneId : String)
include h hrestore

theorem Tidy.restoreWindow : Tidy (s.restoreWindow windowId paneId) := by
  unfold OsSession.restoreWindow
  split
  · exact h
  rename_i window hget
  split
  next hmin => exact h.unminimize hget hmin (hrestore windowId window hget hmin) paneId
  · split
    · exact h.putSame hget rfl rfl rfl rfl
    · exact h

theorem Tidy.maximizeWindow : Tidy (s.maximizeWindow windowId paneId) := by
  unfold OsSession.maximizeWindow
  split
  · exact h
  rename_i window hget
  split
  · exact h
  have hnext : Tidy (if window.minimized then s.restoreWindow windowId paneId else s) := by
    split
    · exact h.restoreWindow hrestore windowId paneId
    · exact h
  simp only
  split
  · exact hnext
  next current hcurrent => exact hnext.putSame hcurrent rfl rfl rfl rfl

theorem Tidy.toggleMaximizeWindow : Tidy (s.toggleMaximizeWindow windowId paneId) := by
  unfold OsSession.toggleMaximizeWindow
  split
  · exact h
  · split
    · exact h.restoreWindow hrestore windowId paneId
    · exact h.maximizeWindow hrestore windowId paneId

end

theorem switchDesktop_windows :
    (s.switchDesktop desktopId).windows = s.windows := by
  unfold switchDesktop
  split
  · rfl
  · split <;> rfl

theorem Tidy.revealWindow (h : Tidy s) (hrestore : s.Restorable) (windowId paneId : String) :
    Tidy (s.revealWindow windowId paneId) := by
  unfold OsSession.revealWindow
  split
  · exact h
  rename_i target hget
  refine Tidy.focusWindow (Tidy.switchDesktop ?_ _) fun w hw => ?_
  · split
    · exact h.restoreWindow hrestore windowId paneId
    · exact h
  · rw [switchDesktop_windows] at hw
    split_ifs at hw with hmin
    · simp only [OsSession.restoreWindow, hget, hmin, if_true, OsSession.unminimize,
        updateDesktop_eq, putWindow, get?_insert_self, Option.some.injEq] at hw
      rw [← hw]
    · cases hget.symm.trans hw
      simpa using hmin

/-- The desktops once the window is placed nowhere. -/
theorem removeWindowFromAllDesktopPlacements_eq (hids : s.desktopIds.Nodup) :
    s.removeWindowFromAllDesktopPlacements windowId =
      { s with desktops := s.desktops.map (·.unplaced windowId s.windows) } :=
  foldl_updateDesktop (fun _ _ => rfl) hids

theorem unplaced_ids (desktops : List OsDesktop) (windowId : String)
    (windows : AssocMap String OsWindow) :
    (desktops.map (·.unplaced windowId windows)).map (·.id) = desktops.map (·.id) := by
  rw [map_map]
  exact map_congr_left fun d _ => d.unplaced_id

theorem Tidy.removed (h : Tidy s) (windowId : String) :
    AllTidy (s.windows.erase windowId) (s.desktops.map (·.unplaced windowId s.windows)) :=
  forall_mem_map.mpr fun d hd => (h.desktops d hd).unplaced

variable {desktopId targetDesktopId : String}

theorem Tidy.presentElsewhere (h : Tidy s) (hget : s.windows.get? windowId = some window)
    (hdesk : desktopId ∈ s.desktopIds) (viewport : Option Viewport) :
    Tidy (s.presentElsewhere windowId window desktopId viewport) := by
  unfold OsSession.presentElsewhere
  rw [removeWindowFromAllDesktopPlacements_eq h.ids]
  refine Tidy.focusWindow (Tidy.switchDesktop ?_ _) fun w hw => ?_
  · refine h.put h.active (h.keyed windowId window hget) hdesk
      ((changeDesktop_ids _ _ fun d => ?_).trans (unplaced_ids _ windowId _)) ?_
    · rfl
    · refine (h.removed windowId).putAt rfl fun d _ hid hd => ?_
      exact hd.showFloat rfl hid.symm rfl
  · simp only [switchDesktop_windows, updateDesktop_eq, putWindow,
      get?_insert_self, Option.some.injEq] at hw
    rw [← hw]

theorem Tidy.presentWindowAsFloat (h : Tidy s) (windowId desktopId : String)
    (viewport : Option Viewport) :
    Tidy (s.presentWindowAsFloat windowId desktopId viewport) := by
  unfold OsSession.presentWindowAsFloat
  split
  · exact h
  rename_i window hget
  split
  · exact h
  rename_i hexists
  have hdesk : desktopId ∈ s.desktopIds := by
    rw [not_not, any_eq_true] at hexists
    obtain ⟨d, hd, hid⟩ := hexists
    rw [decide_eq_true_eq] at hid
    exact hid ▸ mem_map_of_mem hd
  split
  next hshown =>
    refine Tidy.focusWindow ?_ fun w hw => ?_
    · split
      · exact h.switchDesktop desktopId
      · exact h
    · have hsame : s.windows.get? windowId = some w := by
        split at hw
        · rwa [switchDesktop_windows] at hw
        · exact hw
      cases hget.symm.trans hsame
      simpa using hshown.2.2.1
  · exact h.presentElsewhere hget hdesk viewport

theorem Tidy.selectPaneTab (h : Tidy s) (paneId windowId : String) :
    Tidy (s.selectPaneTab paneId windowId) := by
  unfold OsSession.selectPaneTab
  split
  · exact h
  refine h.changeDesktop (fun d => ?_) fun d _ _ htidy => ?_
  · split
    · rfl
    · split <;> rfl
  · split
    · exact htidy
    rename_i tree htree
    split_ifs with hfound
    · rw [Option.any_eq_true] at hfound
      obtain ⟨pane, hfind, hcontains⟩ := hfound
      obtain ⟨hp, hid⟩ := findTilePaneById_some hfind
      have hx : windowId ∈ pane.items := by simpa using hcontains
      have hs := htidy.tree
      rw [htree] at hs
      obtain ⟨hsound, hitems⟩ := hs.activate hp hx
      rw [hid] at hsound hitems
      have hmem : windowId ∈ items? d.tree := by
        rw [htree]
        exact mem_items?_iff.mpr ⟨pane, hp, hx⟩
      refine ⟨hsound, fun id => ?_, htidy.floats, htidy.mem_floats, fun id hfocus => ?_⟩
      · rw [hitems, ← htree]
        exact htidy.mem_tiles id
      · cases hfocus
        exact ⟨.tile, (htidy.mem_tiles windowId).mp hmem⟩
    · exact htidy

/-- A desktop that no window lives on. -/
theorem desktopTidy_empty {name : String}
    {defaultCtx : Option WindowContext} (h : ∀ mode id, ¬ Shown windows mode desktopId id) :
    DesktopTidy windows
      { id := desktopId, name, defaultCtx, tree := none, floatingWindowIds := []
        focusedWindowId := none } :=
  ⟨Sound.none, fun id => iff_of_false not_mem_nil (h _ id), nodup_nil,
    fun id => iff_of_false not_mem_nil (h _ id), nofun⟩

theorem Tidy.addDesktop (h : Tidy s) {now : Nat} (hfresh : s.newDesktopId now ∉ s.desktopIds)
    (name : Option String) (defaultCtx : Option WindowContext) :
    Tidy (s.addDesktop name defaultCtx now) := by
  have hids : (s.addDesktop name defaultCtx now).desktopIds
      = s.desktopIds ++ [s.newDesktopId now] := by
    simp [OsSession.addDesktop, desktopIds]
  refine ⟨?_, ?_, h.keyed, fun id w hget => ?_,
    forall_mem_append.mpr ⟨h.desktops, forall_mem_singleton.mpr (desktopTidy_empty ?_)⟩⟩
  · rw [hids, ← concat_eq_append]
    exact h.ids.concat hfresh
  · rw [hids]
    exact mem_append_left _ h.active
  · rw [hids]
    exact mem_append_left _ (h.homed id w hget)
  · -- no window lives on the new desktop yet
    rintro mode id ⟨w, hget, _, _, hdesk⟩
    exact hfresh (hdesk ▸ h.homed id w hget)

theorem Tidy.renameDesktop (h : Tidy s) (desktopId name : String) :
    Tidy (s.renameDesktop desktopId name) := by
  unfold OsSession.renameDesktop
  simp only
  split
  · exact h
  · exact h.changeDesktop (fun _ => rfl) fun d _ _ htidy => { htidy with }

/-! ## Removing a desktop -/

/-- What a move does besides keeping the session tidy. -/
structure Moved (s s' : OsSession) (windowId targetDesktopId : String) : Prop where
  ids : s'.desktopIds = s.desktopIds
  active : s'.activeDesktopId = s.activeDesktopId
  others : ∀ id, id ≠ windowId → s'.windows.get? id = s.windows.get? id
  home : ∀ w, s'.windows.get? windowId = some w → w.desktopId = targetDesktopId

theorem moveWindowToDesktop_moved (htarget : targetDesktopId ∈ s.desktopIds)
    (windowId paneId : String) :
    Moved s (s.moveWindowToDesktop windowId targetDesktopId paneId) windowId
      targetDesktopId := by
  unfold moveWindowToDesktop
  split
  next hnone => exact ⟨rfl, rfl, fun _ _ => rfl, fun w hw => by simp [hnone] at hw⟩
  rename_i window hget
  split
  next hsame =>
    refine ⟨rfl, rfl, fun _ _ => rfl, fun w hw => ?_⟩
    cases hget.symm.trans hw
    exact hsame
  split
  next hmiss => exact absurd htarget (findDesktop_isNone_iff.mp hmiss)
  have hothers : ∀ v id, id ≠ windowId →
      (s.windows.insert windowId v).get? id = s.windows.get? id :=
    fun v id hid => get?_insert_of_ne _ v hid
  split
  · refine ⟨changeDesktop_ids _ _ fun _ => rfl, rfl, hothers _, fun w hw => ?_⟩
    simp only [putWindow, get?_insert_self, Option.some.injEq] at hw
    rw [← hw]
  · refine ⟨(changeDesktop_ids _ _ fun d => ?_).trans (changeDesktop_ids _ _ fun _ => rfl),
      rfl, hothers _, fun w hw => ?_⟩
    · split <;> rfl
    · simp only [putWindow, updateDesktop_eq, get?_insert_self, Option.some.injEq] at hw
      rw [← hw]

def moveAll (s : OsSession) (targetDesktopId : String) (paneId : String → String)
    (wins : List OsWindow) : OsSession :=
  wins.foldl (fun updated win =>
    updated.moveWindowToDesktop win.id targetDesktopId (paneId win.id)) s

theorem moveAll_rule {P : OsSession → Prop}
    (hstep : ∀ s windowId paneId, P s → P (s.moveWindowToDesktop windowId targetDesktopId paneId))
    (h : P s) (paneId : String → String) (wins : List OsWindow) :
    P (s.moveAll targetDesktopId paneId wins) := by
  induction wins generalizing s with
  | nil => exact h
  | cons win wins ih => exact ih (hstep s win.id (paneId win.id) h)

/-- What a window of the moved session is. -/
theorem moveAll_spec (htarget : targetDesktopId ∈ s.desktopIds) (paneId : String → String)
    (wins : List OsWindow) :
    (s.moveAll targetDesktopId paneId wins).desktopIds = s.desktopIds ∧
      (s.moveAll targetDesktopId paneId wins).activeDesktopId = s.activeDesktopId ∧
      (∀ id, id ∉ wins.map (·.id) →
        (s.moveAll targetDesktopId paneId wins).windows.get? id = s.windows.get? id) ∧
      ∀ id w, id ∈ wins.map (·.id) →
        (s.moveAll targetDesktopId paneId wins).windows.get? id = some w →
        w.desktopId = targetDesktopId := by
  induction wins generalizing s with
  | nil => exact ⟨rfl, rfl, fun _ _ => rfl, fun id w hid => nomatch hid⟩
  | cons win wins ih =>
    have hstep := moveWindowToDesktop_moved htarget win.id (paneId win.id)
    obtain ⟨hids, hactive, hothers, hmoved⟩ := ih (by rw [hstep.ids]; exact htarget)
    refine ⟨hids.trans hstep.ids, hactive.trans hstep.active, fun id hid => ?_,
      fun id w hid hw => ?_⟩
    · rw [map_cons, mem_cons, not_or] at hid
      exact (hothers id hid.2).trans (hstep.others id hid.1)
    · by_cases hlater : id ∈ wins.map (·.id)
      · exact hmoved id w hlater hw
      · rw [map_cons, mem_cons] at hid
        have hwin := hid.resolve_right hlater
        have hget := (hothers id hlater).symm.trans hw
        rw [hwin] at hget
        exact hstep.home w hget

theorem moveAll_empty (hkeyed : ∀ id w, s.windows.get? id = some w → w.id = id)
    (htarget : targetDesktopId ∈ s.desktopIds) (hne : targetDesktopId ≠ desktopId)
    (paneId : String → String) {id : String}
    (hget : (s.moveAll targetDesktopId paneId
      (s.windows.values.filter (·.desktopId = desktopId))).windows.get? id = some w) :
    w.desktopId ≠ desktopId := by
  obtain ⟨_, _, hothers, hmoved⟩ := moveAll_spec htarget paneId
    (s.windows.values.filter (·.desktopId = desktopId))
  by_cases hid : id ∈ (s.windows.values.filter (·.desktopId = desktopId)).map (·.id)
  · rw [hmoved id w hid hget]
    exact hne
  rw [hothers id hid] at hget
  intro hdesk
  refine hid (mem_map.mpr ⟨w, ?_, hkeyed id w hget⟩)
  simpa [hdesk] using mem_values_iff.mpr ⟨id, hget⟩

theorem survivor_some {survivingDesktopId : Option String} {target : OsDesktop}
    (h : s.survivor desktopId survivingDesktopId = some target) :
    target ∈ s.desktops ∧ target.id ≠ desktopId := by
  unfold survivor at h
  repeat' split at h
  all_goals
    have hcond := find?_some h
    simp only [decide_eq_true_eq] at hcond
    exact ⟨mem_of_find?_eq_some h, by tauto⟩

def dropDesktop (s : OsSession) (desktopId targetDesktopId : String) : OsSession :=
  { s with
    activeDesktopId :=
      if s.activeDesktopId = desktopId then targetDesktopId else s.activeDesktopId
    desktops := s.desktops.filter (·.id ≠ desktopId) }

/-- `removeDesktop` moves the windows to the survivor and drops the desktop, or does
nothing. -/
theorem removeDesktop_cases (s : OsSession) (desktopId : String)
    (survivingDesktopId : Option String) (paneId : String → String) :
    s.removeDesktop desktopId survivingDesktopId paneId = s ∨
      ∃ target, s.survivor desktopId survivingDesktopId = some target ∧
        s.removeDesktop desktopId survivingDesktopId paneId = (s.moveAll target.id paneId
            (s.windows.values.filter (·.desktopId = desktopId))).dropDesktop desktopId
            target.id := by
  unfold removeDesktop
  split
  · exact .inl rfl
  split
  · exact .inl rfl
  split
  · exact .inl rfl
  next target htarget => exact .inr ⟨target, htarget, rfl⟩

theorem mem_dropDesktop_ids {x : String} :
    x ∈ (s.dropDesktop desktopId targetDesktopId).desktopIds ↔
      x ∈ s.desktopIds ∧ x ≠ desktopId := by
  simp only [desktopIds, dropDesktop, mem_map, mem_filter, decide_eq_true_eq]
  grind

theorem Tidy.dropDesktop (h : Tidy s) (htarget : targetDesktopId ∈ s.desktopIds)
    (hne : targetDesktopId ≠ desktopId)
    (hempty : ∀ id w, s.windows.get? id = some w → w.desktopId ≠ desktopId) :
    Tidy (s.dropDesktop desktopId targetDesktopId) := by
  refine ⟨?_, ?_, h.keyed, fun id w hw => ?_, fun d hd => ?_⟩
  · exact h.ids.sublist (filter_sublist.map _)
  · refine mem_dropDesktop_ids.mpr ?_
    simp only [OsSession.dropDesktop]
    split_ifs with hkeep
    · exact ⟨htarget, hne⟩
    · exact ⟨h.active, hkeep⟩
  · exact mem_dropDesktop_ids.mpr ⟨h.homed id w hw, hempty id w hw⟩
  · exact h.desktops d (mem_of_mem_filter hd)

theorem Tidy.removeDesktop (h : Tidy s) (desktopId : String) (survivingDesktopId : Option String)
    (paneId : String → String) :
    Tidy (s.removeDesktop desktopId survivingDesktopId paneId) := by
  rcases s.removeDesktop_cases desktopId survivingDesktopId paneId with
    heq | ⟨target, hsurvivor, heq⟩
  · rw [heq]
    exact h
  obtain ⟨hmem, hne⟩ := survivor_some hsurvivor
  have htarget : target.id ∈ s.desktopIds := mem_map_of_mem hmem
  rw [heq]
  refine Tidy.dropDesktop (moveAll_rule (P := Tidy) (fun _ _ _ h => h.moveWindowToDesktop _ _ _) h
    paneId _) ?_ hne fun id w hw => ?_
  · rw [(moveAll_spec htarget paneId _).1]
    exact htarget
  · exact moveAll_empty h.keyed htarget hne paneId hw

end

/-! ## Runs -/

/-- A minimized window is restored to the desktop it is on. -/
def RestoresHome (windows : AssocMap String OsWindow) : Prop :=
  ∀ id w, windows.get? id = some w → w.minimized = true → restoreDesktop w = w.desktopId

section

variable {s : OsSession} {windows : AssocMap String OsWindow} {windowId : String}
  {window : OsWindow}

theorem RestoresHome.restorable (h : RestoresHome s.windows) (htidy : Tidy s) : s.Restorable := by
  intro id w hget hmin
  rw [h id w hget hmin]
  exact htidy.homed id w hget

theorem focusWindow_windows : (s.focusWindow windowId).windows = s.windows := by
  unfold focusWindow
  split
  · rfl
  split
  · rfl
  · split <;> rfl

section

variable (h : RestoresHome s.windows)
include h

theorem RestoresHome.restoreWindow (windowId paneId : String) :
    RestoresHome (s.restoreWindow windowId paneId).windows := by
  unfold OsSession.restoreWindow
  split
  · exact h
  split
  · exact forall_insert h fun hmin => by cases hmin
  rename_i hmin
  split
  · exact forall_insert h fun hmin' => absurd hmin' hmin
  · exact h

theorem RestoresHome.maximizeWindow (windowId paneId : String) :
    RestoresHome (s.maximizeWindow windowId paneId).windows := by
  unfold OsSession.maximizeWindow
  split
  · exact h
  rename_i window hget
  split
  · exact h
  have hnext : RestoresHome
      (if window.minimized then s.restoreWindow windowId paneId else s).windows := by
    split
    · exact h.restoreWindow windowId paneId
    · exact h
  simp only
  split
  · exact hnext
  next current hcurrent =>
    exact forall_insert hnext fun hmin => hnext windowId current hcurrent hmin

theorem RestoresHome.moveWindowToDesktop (windowId targetDesktopId paneId : String) :
    RestoresHome (s.moveWindowToDesktop windowId targetDesktopId paneId).windows := by
  have hmoved : ∀ window : OsWindow, restoreDesktop { window with
      desktopId := targetDesktopId
      restorePlacement := window.restorePlacement.map fun placement =>
        { placement with desktopId := targetDesktopId } } = targetDesktopId := by
    intro window
    cases hplace : window.restorePlacement with
    | none | some placement => simp [restoreDesktop]
  unfold OsSession.moveWindowToDesktop
  split
  · exact h
  split
  · exact h
  split
  · exact h
  split <;> exact forall_insert h fun _ => hmoved _

end

end

inductive LifecycleOp where
  | openWindow (windowConfig : WindowConfig) (targetDesktopId : Option String)
      (viewport : Option Viewport) (paneId : String)
  | closeWindow (windowId : String)
  | minimizeWindow (windowId : String)
  | restoreWindow (windowId paneId : String)
  | maximizeWindow (windowId paneId : String)
  | toggleMaximizeWindow (windowId paneId : String)
  | moveWindowToDesktop (windowId targetDesktopId paneId : String)
  | switchDesktop (targetDesktopId : String)
  | addDesktop (name : Option String) (defaultCtx : Option WindowContext) (now : Nat)
  | removeDesktop (desktopId : String) (survivingDesktopId : Option String)
      (paneId : String → String)
  | renameDesktop (desktopId name : String)
  | revealWindow (windowId paneId : String)
  | presentWindowAsFloat (windowId desktopId : String) (viewport : Option Viewport)
  | selectPaneTab (paneId windowId : String)

def lifecycleStep (s : OsSession) : LifecycleOp → OsSession
  | .openWindow windowConfig targetDesktopId viewport paneId =>
    s.openWindow windowConfig targetDesktopId viewport paneId
  | .closeWindow windowId => s.closeWindow windowId
  | .minimizeWindow windowId => s.minimizeWindow windowId
  | .restoreWindow windowId paneId => s.restoreWindow windowId paneId
  | .maximizeWindow windowId paneId => s.maximizeWindow windowId paneId
  | .toggleMaximizeWindow windowId paneId => s.toggleMaximizeWindow windowId paneId
  | .moveWindowToDesktop windowId targetDesktopId paneId =>
    s.moveWindowToDesktop windowId targetDesktopId paneId
  | .switchDesktop targetDesktopId => s.switchDesktop targetDesktopId
  | .addDesktop name defaultCtx now => s.addDesktop name defaultCtx now
  | .removeDesktop desktopId survivingDesktopId paneId =>
    s.removeDesktop desktopId survivingDesktopId paneId
  | .renameDesktop desktopId name => s.renameDesktop desktopId name
  | .revealWindow windowId paneId => s.revealWindow windowId paneId
  | .presentWindowAsFloat windowId desktopId viewport =>
    s.presentWindowAsFloat windowId desktopId viewport
  | .selectPaneTab paneId windowId => s.selectPaneTab paneId windowId

def Fresh (s : OsSession) : LifecycleOp → Prop
  | .openWindow windowConfig _ _ _ => s.windows.get? windowConfig.id = none
  | .addDesktop _ _ now => s.newDesktopId now ∉ s.desktopIds
  | _ => True

section

variable {s : OsSession}

theorem restoresHome_lifecycleStep (htidy : Tidy s) (h : RestoresHome s.windows)
    (op : LifecycleOp) :
    RestoresHome (s.lifecycleStep op).windows := by
  cases op with
  | openWindow | closeWindow | minimizeWindow | removeDesktop | renameDesktop | selectPaneTab =>
    simp only [lifecycleStep, openWindow, closeWindow, minimizeWindow, removeDesktop,
      renameDesktop, selectPaneTab]
    repeat' split
    all_goals first
      | exact h
      | exact fun id w hget => h id w (get?_of_erase hget)
      | exact forall_insert h fun _ => rfl
      | exact forall_insert h fun hmin => by cases hmin
      | exact moveAll_rule (P := fun s => RestoresHome s.windows)
          (fun _ _ _ h => h.moveWindowToDesktop _ _ _) h _ _
  | restoreWindow windowId paneId => exact h.restoreWindow windowId paneId
  | maximizeWindow windowId paneId => exact h.maximizeWindow windowId paneId
  | toggleMaximizeWindow windowId paneId =>
    simp only [lifecycleStep, toggleMaximizeWindow]
    split
    · exact h
    · split
      · exact h.restoreWindow windowId paneId
      · exact h.maximizeWindow windowId paneId
  | moveWindowToDesktop windowId targetDesktopId paneId =>
    exact h.moveWindowToDesktop windowId targetDesktopId paneId
  | switchDesktop targetDesktopId =>
    simp only [lifecycleStep, switchDesktop_windows]
    exact h
  | addDesktop name defaultCtx now => exact h
  | revealWindow windowId paneId =>
    simp only [lifecycleStep, revealWindow]
    split
    · exact h
    simp only [focusWindow_windows, switchDesktop_windows]
    split
    · exact h.restoreWindow windowId paneId
    · exact h
  | presentWindowAsFloat windowId desktopId viewport =>
    simp only [lifecycleStep, presentWindowAsFloat]
    split
    · exact h
    split
    · exact h
    split
    · simp only [focusWindow_windows]
      split
      · simp only [switchDesktop_windows]
        exact h
      · exact h
    · simp only [presentElsewhere, focusWindow_windows, switchDesktop_windows,
        removeWindowFromAllDesktopPlacements_eq htidy.ids]
      exact forall_insert h fun hmin => by cases hmin

/-- The invariant of the lifecycle operations. -/
structure Settled (s : OsSession) : Prop where
  tidy : Tidy s
  home : RestoresHome s.windows

theorem settled_createDefaultOsSession {desktopId name : String} :
    Settled (createDefaultOsSession desktopId name) := by
  refine ⟨⟨nodup_singleton _, mem_singleton_self _, by rintro _ _ ⟨⟩, by rintro _ _ ⟨⟩,
    forall_mem_singleton.mpr (desktopTidy_empty ?_)⟩, by rintro _ _ ⟨⟩⟩
  rintro mode id ⟨w, ⟨⟩, _⟩

/-- **Each operation keeps the session settled.** -/
theorem settled_lifecycleStep (h : Settled s) (op : LifecycleOp) (hfresh : s.Fresh op) :
    Settled (s.lifecycleStep op) := by
  have hrestore := h.home.restorable h.tidy
  refine ⟨?_, restoresHome_lifecycleStep h.tidy h.home op⟩
  cases op with
  | openWindow windowConfig targetDesktopId viewport paneId =>
    exact h.tidy.openWindow hfresh targetDesktopId viewport paneId
  | closeWindow windowId => exact h.tidy.closeWindow windowId
  | minimizeWindow windowId => exact h.tidy.minimizeWindow windowId
  | restoreWindow windowId paneId => exact h.tidy.restoreWindow hrestore windowId paneId
  | maximizeWindow windowId paneId => exact h.tidy.maximizeWindow hrestore windowId paneId
  | toggleMaximizeWindow windowId paneId =>
    exact h.tidy.toggleMaximizeWindow hrestore windowId paneId
  | moveWindowToDesktop windowId targetDesktopId paneId =>
    exact h.tidy.moveWindowToDesktop windowId targetDesktopId paneId
  | switchDesktop targetDesktopId => exact h.tidy.switchDesktop targetDesktopId
  | addDesktop name defaultCtx now => exact h.tidy.addDesktop hfresh name defaultCtx
  | removeDesktop desktopId survivingDesktopId paneId =>
    exact h.tidy.removeDesktop desktopId survivingDesktopId paneId
  | renameDesktop desktopId name => exact h.tidy.renameDesktop desktopId name
  | revealWindow windowId paneId => exact h.tidy.revealWindow hrestore windowId paneId
  | presentWindowAsFloat windowId desktopId viewport =>
    exact h.tidy.presentWindowAsFloat windowId desktopId viewport
  | selectPaneTab paneId windowId => exact h.tidy.selectPaneTab paneId windowId

/-- **Lifecycle operations keep the placement rules.** Every session reached from
the default one obeys them, whatever ids are drawn for the panes. -/
theorem lifecycle_placed (desktopId name : String) (ops : List LifecycleOp)
    (hfresh : EveryStep lifecycleStep Fresh (createDefaultOsSession desktopId name) ops) :
    Placed (run lifecycleStep (createDefaultOsSession desktopId name) ops) := by
  have hsettled : Settled (run lifecycleStep (createDefaultOsSession desktopId name) ops) :=
    invariant_run (I := Settled) (fun _ op hs hop => settled_lifecycleStep hs op hop)
      settled_createDefaultOsSession hfresh
  exact (tidy_iff.mp hsettled.tidy).1

/-- A floating terminal and a tiled editor; the editor is minimized, the terminal
moved to a second desktop, and that desktop removed again. -/
def terminalAndEditor : List LifecycleOp :=
  [.openWindow { id := "term", appId := .terminals, title := "Terminal"
                 ctx := { profileId := "p", projectId := none, worktreeId := none }
                 mode := .float, floatBounds := none, restorePlacement := none
                 appState := .obj [] } none none "pane-1",
   .openWindow { id := "edit", appId := .editor, title := "Editor"
                 ctx := { profileId := "p", projectId := none, worktreeId := none }
                 mode := .tile, floatBounds := none, restorePlacement := none
                 appState := .obj [] } none none "pane-2",
   .minimizeWindow "edit",
   .addDesktop none none 7,
   .moveWindowToDesktop "term" "desktop-7-2" "pane-3",
   .removeDesktop "desktop-7-2" none fun id => id,
   .revealWindow "edit" "pane-4"]

theorem lifecycle_placed_terminalAndEditor :
    Placed (run lifecycleStep (createDefaultOsSession "d1" "Main") terminalAndEditor) := by
  refine lifecycle_placed "d1" "Main" terminalAndEditor ?_
  refine ⟨rfl, rfl, trivial, ?_, trivial, trivial, trivial, trivial⟩
  simp only [Fresh]
  decide +kernel

end

end OsSession

end DamHopper.Os
