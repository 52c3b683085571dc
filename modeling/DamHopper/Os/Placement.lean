import DamHopper.Os.Trees

/-!
# Os — Placement

Where the windows of a session are. A window that is not minimized is shown on
its desktop, in its mode (`Shown`); a desktop is `DesktopTidy` when its tree holds
exactly the tile windows shown on it and its floating list exactly the float windows,
each once, and its focus is one of them.

Every operation moves one window. It is proved in two halves: the window is taken
out, which leaves the desktops tidy for the windows without it, and it is put in
again, as a float, as a tile, or minimized. Between the halves stands
`windows.erase windowId`, whatever the source's intermediate session looks like.
-/

namespace DamHopper.Os

open AssocMap List
open TileNode (Sound items? panes?)

/-- The window `id` is to be seen on the desktop, in that mode. -/
def Shown (windows : AssocMap String OsWindow) (mode : WindowMode)
    (desktopId id : String) : Prop :=
  ∃ w, windows.get? id = some w ∧ w.minimized = false ∧ w.mode = mode ∧
    w.desktopId = desktopId

instance (windows : AssocMap String OsWindow) (mode : WindowMode) (desktopId id : String) :
    Decidable (Shown windows mode desktopId id) :=
  decidable_of_iff ((windows.get? id).any fun w =>
      w.minimized = false ∧ w.mode = mode ∧ w.desktopId = desktopId) (by
    simp [Shown, Option.any_eq_true])

structure DesktopTidy (windows : AssocMap String OsWindow) (d : OsDesktop) : Prop where
  tree : Sound d.tree
  mem_tiles : ∀ id, id ∈ items? d.tree ↔ Shown windows .tile d.id id
  floats : d.floatingWindowIds.Nodup
  mem_floats : ∀ id, id ∈ d.floatingWindowIds ↔ Shown windows .float d.id id
  focus : ∀ id, d.focusedWindowId = some id → ∃ mode, Shown windows mode d.id id

/-! ## Shown windows -/

section

variable {windows windows' : AssocMap String OsWindow} {mode : WindowMode}
  {desktopId id windowId : String} {window : OsWindow}

theorem shown_of_get? (h : windows.get? id = some window) : Shown windows mode desktopId id ↔
      window.minimized = false ∧ window.mode = mode ∧ window.desktopId = desktopId := by
  simp [Shown, h]

theorem exists_mode_shown_iff : (∃ mode, Shown windows mode desktopId id) ↔
      Shown windows .tile desktopId id ∨ Shown windows .float desktopId id := by
  constructor
  · rintro ⟨mode, hmode⟩
    cases mode with
    | tile => exact .inl hmode
    | float => exact .inr hmode
  · rintro (h | h)
    · exact ⟨_, h⟩
    · exact ⟨_, h⟩

theorem shown_erase : Shown (windows.erase windowId) mode desktopId id ↔
    id ≠ windowId ∧ Shown windows mode desktopId id := by
  by_cases hid : id = windowId
  · subst hid
    simp [Shown]
  · simp [Shown, get?_erase_of_ne _ hid, hid]

theorem shown_insert_self : Shown (windows.insert windowId window) mode desktopId windowId ↔
    window.minimized = false ∧ window.mode = mode ∧ window.desktopId = desktopId :=
  shown_of_get? (get?_insert_self _ _ _)

theorem shown_insert_of_ne (h : id ≠ windowId) :
    Shown (windows.insert windowId window) mode desktopId id ↔
      Shown (windows.erase windowId) mode desktopId id := by
  simp [Shown, get?_insert_of_ne _ _ h, get?_erase_of_ne _ h]

theorem not_shown_erase_self : ¬ Shown (windows.erase windowId) mode desktopId windowId :=
  fun h => (shown_erase.mp h).1 rfl

/-- Storing a window shows it in its own place, and leaves the others where they were. -/
theorem shown_insert : Shown (windows.insert windowId window) mode desktopId id ↔
    (id = windowId ∧ window.minimized = false ∧ window.mode = mode ∧
      window.desktopId = desktopId) ∨ Shown (windows.erase windowId) mode desktopId id := by
  by_cases hid : id = windowId
  · subst hid
    rw [shown_insert_self, or_iff_left not_shown_erase_self]
    simp
  · simp [shown_insert_of_ne hid, hid]

end

/-! ## One desktop -/

section

variable {windows windows' : AssocMap String OsWindow} {d : OsDesktop}
  {windowId : String} {window : OsWindow}

/-- A desktop is tidy or not by the windows shown on it. -/
theorem DesktopTidy.congr (h : DesktopTidy windows d)
    (hshown : ∀ mode id, Shown windows' mode d.id id ↔ Shown windows mode d.id id) :
    DesktopTidy windows' d where
  __ := h
  mem_tiles id := (h.mem_tiles id).trans (hshown _ id).symm
  mem_floats id := (h.mem_floats id).trans (hshown _ id).symm
  focus id hid := (h.focus id hid).imp fun mode hm => (hshown mode id).mpr hm

/-- The windows in the tree and in the floating list are the windows shown. -/
theorem DesktopTidy.placed_iff (h : DesktopTidy windows d) (id : String) :
    (id ∈ items? d.tree ∨ id ∈ d.floatingWindowIds) ↔ ∃ mode, Shown windows mode d.id id := by
  rw [h.mem_tiles, h.mem_floats, exists_mode_shown_iff]

/-- A window that is not shown on the desktop can be forgotten. -/
theorem DesktopTidy.erase_of_not_shown (h : DesktopTidy windows d)
    (hnot : ∀ mode, ¬ Shown windows mode d.id windowId) :
    DesktopTidy (windows.erase windowId) d := by
  refine h.congr fun mode id => ?_
  rw [shown_erase, and_iff_right_iff_imp]
  rintro hs rfl
  exact hnot mode hs

variable {focus : Option String} {floats : List String} {mode : WindowMode}

/-- **Taking a window out** of the floating list and the tree. -/
theorem DesktopTidy.takeOut (h : DesktopTidy windows d)
    (hfocus : ∀ id, focus = some id → id ≠ windowId ∧ ∃ mode, Shown windows mode d.id id) :
    DesktopTidy (windows.erase windowId) (d.without windowId focus) := by
  obtain ⟨hsound, hitems⟩ := removeWindow_sound h.tree windowId
  unfold OsDesktop.without
  refine ⟨hsound, fun id => ?_, h.floats.filter _, fun id => ?_, fun id hid => ?_⟩
  · rw [hitems, mem_filter, shown_erase, h.mem_tiles, and_comm, decide_eq_true_eq]
  · rw [mem_filter, shown_erase, h.mem_floats, and_comm, decide_eq_true_eq]
  · obtain ⟨hne, mode, hm⟩ := hfocus id hid
    exact ⟨mode, shown_erase.mpr ⟨hne, hm⟩⟩

/-- A window that is minimized, or lives elsewhere, is not placed. -/
theorem DesktopTidy.putHidden (h : DesktopTidy (windows.erase windowId) d)
    (hhidden : window.minimized = true ∨ window.desktopId ≠ d.id) :
    DesktopTidy (windows.insert windowId window) d := by
  refine h.congr fun mode id => ?_
  rw [shown_insert, or_iff_right]
  rintro ⟨_, hmin, _, hdesk⟩
  rcases hhidden with hm | hd
  · simp [hm] at hmin
  · exact hd hdesk

theorem toFront_perm (hnot : windowId ∉ floats) :
    (toFront floats windowId).Perm (windowId :: floats) := by
  rw [toFront, filter_ne_of_notMem hnot]
  exact perm_append_singleton _ _

theorem WindowMode.eq_tile (h : mode ≠ .float) : mode = .tile := by
  cases mode with
  | tile => rfl
  | float => exact absurd rfl h

variable {id : String}

section

variable (hmin : window.minimized = false) (hdesk : window.desktopId = d.id)
include hmin hdesk

/-- A focus on the window put in, or on one that was shown before. -/
theorem focus_insert
    (hfocus : id = windowId ∨ ∃ mode, Shown (windows.erase windowId) mode d.id id) :
    ∃ mode, Shown (windows.insert windowId window) mode d.id id := by
  rcases hfocus with heq | ⟨mode, hm⟩
  · exact ⟨window.mode, shown_insert.mpr (.inl ⟨heq, hmin, rfl, hdesk⟩)⟩
  · exact ⟨mode, shown_insert.mpr (.inr hm)⟩

variable (h : DesktopTidy (windows.erase windowId) d)
include h

/-- **Putting a window in as a float.** -/
theorem DesktopTidy.putFloat (hmode : window.mode = .float)
    (hfloats : floats.Perm (windowId :: d.floatingWindowIds))
    (hfocus : ∀ id, focus = some id →
      id = windowId ∨ ∃ mode, Shown (windows.erase windowId) mode d.id id) :
    DesktopTidy (windows.insert windowId window)
      { d with floatingWindowIds := floats, focusedWindowId := focus } := by
  have hnot : windowId ∉ d.floatingWindowIds := fun hmem =>
    not_shown_erase_self ((h.mem_floats _).mp hmem)
  refine ⟨h.tree, fun id => ?_, ?_, fun id => ?_, fun id hid =>
    focus_insert hmin hdesk (hfocus id hid)⟩
  · simp [h.mem_tiles, shown_insert, hmode]
  · exact hfloats.nodup_iff.mpr (nodup_cons.mpr ⟨hnot, h.floats⟩)
  · rw [hfloats.mem_iff, mem_cons, h.mem_floats, shown_insert]
    simp [hmin, hmode, hdesk]

/-- **Putting a window in as a tile.** -/
theorem DesktopTidy.putTile (hmode : window.mode = .tile) {tree : Option (TileNode String)}
    (hsound : Sound tree) (hitems : (items? tree).Perm (windowId :: items? d.tree))
    (hfocus : ∀ id, focus = some id →
      id = windowId ∨ ∃ mode, Shown (windows.erase windowId) mode d.id id) :
    DesktopTidy (windows.insert windowId window)
      { d with tree := tree, focusedWindowId := focus } := by
  refine ⟨hsound, fun id => ?_, h.floats, fun id => ?_, fun id hid =>
    focus_insert hmin hdesk (hfocus id hid)⟩
  · simp [hitems.mem_iff, mem_cons, h.mem_tiles, shown_insert, hmin, hmode, hdesk]
  · rw [h.mem_floats, shown_insert]
    simp [hmode]

/-! ### The source's updates -/

theorem DesktopTidy.showFloat (hmode : window.mode = .float) :
    DesktopTidy (windows.insert windowId window) (d.showFloat windowId) := by
  have hnot : windowId ∉ d.floatingWindowIds := fun hmem =>
    not_shown_erase_self ((h.mem_floats _).mp hmem)
  exact h.putFloat hmin hdesk hmode (toFront_perm hnot)
    fun id hid => .inl (Option.some.inj hid).symm

theorem DesktopTidy.showTile (hmode : window.mode = .tile) {paneId : String} :
    DesktopTidy (windows.insert windowId window) (d.showTile windowId paneId) := by
  have hnot : windowId ∉ items? d.tree := fun hmem =>
    not_shown_erase_self ((h.mem_tiles _).mp hmem)
  obtain ⟨hsound, hitems⟩ := addWindow_sound h.tree hnot paneId
  exact h.putTile hmin hdesk hmode hsound hitems fun id hid => .inl (Option.some.inj hid).symm

/-- Showing a window that is nowhere, on its desktop and in its mode. -/
theorem DesktopTidy.show (paneId : String) :
    DesktopTidy (windows.insert windowId window)
      (if window.mode = .float then d.showFloat windowId else d.showTile windowId paneId) := by
  split_ifs with hmode
  · exact h.showFloat hmin hdesk hmode
  · exact h.showTile hmin hdesk (WindowMode.eq_tile hmode)

end

/-- The next focus is another window shown on the desktop. -/
theorem DesktopTidy.pickNextFocus (h : DesktopTidy windows d)
    (allWindows : AssocMap String OsWindow)
    (hpick : pickNextFocus d windowId allWindows = some id) :
    id ≠ windowId ∧ ∃ mode, Shown windows mode d.id id := by
  have hlive : ∀ x, isLive windowId allWindows x = true → x ≠ windowId := by
    intro x hx
    simp only [isLive, Bool.and_eq_true, decide_eq_true_eq] at hx
    exact hx.1
  unfold Os.pickNextFocus at hpick
  split_ifs at hpick with hne
  · refine ⟨?_, h.focus id hpick⟩
    rintro rfl
    exact hne hpick
  split at hpick
  next x hlast =>
    cases hpick
    have hmem := mem_filter.mp (mem_of_getLast? hlast)
    exact ⟨hlive _ hmem.2, .float, (h.mem_floats _).mp hmem.1⟩
  obtain ⟨pane, hpane, hfound⟩ := exists_of_findSome?_eq_some hpick
  rw [Option.filter_eq_some_iff] at hfound
  have hmem := mem_of_find?_eq_some hfound.1
  have hx := find?_some hfound.1
  exact ⟨hlive _ hx, .tile, (h.mem_tiles _).mp (TileNode.mem_items?_iff.mpr
    ⟨pane, hpane, hmem⟩)⟩

theorem DesktopTidy.focusAfter (h : DesktopTidy windows d) (allWindows : AssocMap String OsWindow)
    (hfocus : d.focusAfter windowId allWindows = some id) :
    id ≠ windowId ∧ ∃ mode, Shown windows mode d.id id := by
  unfold OsDesktop.focusAfter at hfocus
  split_ifs at hfocus with hne
  · exact h.pickNextFocus allWindows hfocus
  · refine ⟨?_, h.focus id hfocus⟩
    rintro rfl
    exact hne hfocus

theorem filter_ne_perm {floats : List String} (hnodup : floats.Nodup) (hmem : windowId ∈ floats) :
    (windowId :: floats.filter (· ≠ windowId)).Perm floats := by
  have herase : floats.filter (· ≠ windowId) = floats.erase windowId := by
    rw [hnodup.erase_eq_filter]
    refine filter_congr fun x _ => ?_
    by_cases hx : x = windowId <;> simp [hx]
  rw [herase]
  exact (perm_cons_erase hmem).symm

theorem DesktopTidy.focused (h : DesktopTidy windows d)
    (hshown : Shown windows mode d.id windowId) (front : Bool)
    (hfront : front = true → windowId ∈ d.floatingWindowIds) :
    DesktopTidy windows
      { d with
        tree := OsSession.activatePane d.tree windowId
        floatingWindowIds :=
          if front then toFront d.floatingWindowIds windowId else d.floatingWindowIds
        focusedWindowId := some windowId } := by
  obtain ⟨hsound, hitems⟩ := activatePane_sound h.tree windowId
  have hperm : (if front then toFront d.floatingWindowIds windowId
      else d.floatingWindowIds).Perm d.floatingWindowIds := by
    split_ifs with hf
    · exact (perm_append_singleton _ _).trans (filter_ne_perm h.floats (hfront hf))
    · exact Perm.refl _
  refine ⟨hsound, fun id => ?_, hperm.nodup_iff.mpr h.floats, fun id => ?_, fun id hid => ?_⟩
  · rw [hitems]
    exact h.mem_tiles id
  · rw [hperm.mem_iff]
    exact h.mem_floats id
  · cases hid
    exact ⟨mode, hshown⟩

end

/-! ## All desktops -/

def AllTidy (windows : AssocMap String OsWindow) (desktops : List OsDesktop) : Prop :=
  ∀ d ∈ desktops, DesktopTidy windows d

def changeDesktop (desktops : List OsDesktop) (desktopId : String)
    (updater : OsDesktop → OsDesktop) : List OsDesktop :=
  desktops.map fun d => if d.id = desktopId then updater d else d

section

variable {windows : AssocMap String OsWindow} {desktops : List OsDesktop}
  {desktopId windowId : String} {window : OsWindow} {updater : OsDesktop → OsDesktop}

theorem changeDesktop_ids (desktops : List OsDesktop) (desktopId : String)
    (hid : ∀ d, (updater d).id = d.id) :
    (changeDesktop desktops desktopId updater).map (·.id) = desktops.map (·.id) := by
  rw [changeDesktop, map_map]
  refine map_congr_left fun d _ => ?_
  simp only [Function.comp_apply]
  split
  · exact hid d
  · rfl

theorem allTidy_changeDesktop {windows' : AssocMap String OsWindow}
    (hchanged : ∀ d ∈ desktops, d.id = desktopId → DesktopTidy windows' (updater d))
    (hrest : ∀ d ∈ desktops, d.id ≠ desktopId → DesktopTidy windows' d) :
    AllTidy windows' (changeDesktop desktops desktopId updater) := by
  refine forall_mem_map.mpr fun d hd => ?_
  split_ifs with hid
  · exact hchanged d hd hid
  · exact hrest d hd hid

/-- A window that is not there, or minimized, can be forgotten everywhere. -/
theorem AllTidy.erase_hidden (h : AllTidy windows desktops)
    (hhidden : ∀ w, windows.get? windowId = some w → w.minimized = true) :
    AllTidy (windows.erase windowId) desktops := by
  intro d hd
  refine (h d hd).erase_of_not_shown fun mode => ?_
  rintro ⟨w, hw, hmin, _⟩
  simp [hhidden w hw] at hmin

/-- Taking the window out of its own desktop takes it out everywhere. -/
theorem AllTidy.takeOutHome (h : AllTidy windows desktops)
    (hget : windows.get? windowId = some window)
    (hhome : ∀ d ∈ desktops, d.id = window.desktopId →
      DesktopTidy (windows.erase windowId) (updater d)) :
    AllTidy (windows.erase windowId) (changeDesktop desktops window.desktopId updater) := by
  refine allTidy_changeDesktop hhome fun d hd hid => ?_
  refine (h d hd).erase_of_not_shown fun mode hshown => hid ?_
  exact ((shown_of_get? hget).mp hshown).2.2.symm

theorem AllTidy.putMinimized (h : AllTidy (windows.erase windowId) desktops)
    (hmin : window.minimized = true) :
    AllTidy (windows.insert windowId window) desktops :=
  fun d hd => (h d hd).putHidden (.inl hmin)

/-- Putting the window in on its desktop; the other desktops do not see it. -/
theorem AllTidy.putAt (h : AllTidy (windows.erase windowId) desktops)
    (hdesk : window.desktopId = desktopId)
    (hput : ∀ d ∈ desktops, d.id = desktopId → DesktopTidy (windows.erase windowId) d →
      DesktopTidy (windows.insert windowId window) (updater d)) :
    AllTidy (windows.insert windowId window) (changeDesktop desktops desktopId updater) := by
  refine allTidy_changeDesktop (fun d hd hid => hput d hd hid (h d hd)) fun d hd hid => ?_
  refine (h d hd).putHidden (.inr ?_)
  rw [hdesk]
  exact Ne.symm hid

end

/-! ## Sessions -/

namespace OsSession

/-- The placement rules of a session. A tree holds exactly the tile windows of its
desktop that are not minimized, a floating list exactly the float windows, each
once; so such a window is in one place, on its own desktop, and a minimized one is
nowhere. No pane is empty, its active item is one of its items, and a focused
window is one that is placed on that desktop. -/
@[mk_iff placed_def] structure Placed (s : OsSession) : Prop where
  ids : s.desktopIds.Nodup
  active : s.activeDesktopId ∈ s.desktopIds
  keyed : ∀ id w, s.windows.get? id = some w → w.id = id
  homed : ∀ id w, s.windows.get? id = some w → w.desktopId ∈ s.desktopIds
  tiles : ∀ d ∈ s.desktops, d.treeItems.Nodup ∧
    ∀ id, id ∈ d.treeItems ↔ Shown s.windows .tile d.id id
  floats : ∀ d ∈ s.desktops, d.floatingWindowIds.Nodup ∧
    ∀ id, id ∈ d.floatingWindowIds ↔ Shown s.windows .float d.id id
  panes : ∀ d ∈ s.desktops, ∀ pane ∈ d.panes, pane.Active
  focus : ∀ d ∈ s.desktops, ∀ id, d.focusedWindowId = some id →
    ∃ mode, Shown s.windows mode d.id id

def DistinctPanes (s : OsSession) : Prop :=
  ∀ d ∈ s.desktops, (d.panes.map (·.id)).Nodup

/-- What the operations keep: the placement rules, with distinct panes. -/
structure Tidy (s : OsSession) : Prop where
  ids : s.desktopIds.Nodup
  active : s.activeDesktopId ∈ s.desktopIds
  keyed : ∀ id w, s.windows.get? id = some w → w.id = id
  homed : ∀ id w, s.windows.get? id = some w → w.desktopId ∈ s.desktopIds
  desktops : AllTidy s.windows s.desktops

theorem tidy_iff {s : OsSession} : Tidy s ↔ Placed s ∧ DistinctPanes s := by
  constructor
  · intro h
    refine ⟨⟨h.ids, h.active, h.keyed, h.homed, fun d hd => ?_, fun d hd => ?_,
      fun d hd => ?_, fun d hd => ?_⟩, fun d hd => ?_⟩
    · exact ⟨(h.desktops d hd).tree.items, (h.desktops d hd).mem_tiles⟩
    · exact ⟨(h.desktops d hd).floats, (h.desktops d hd).mem_floats⟩
    · exact (h.desktops d hd).tree.active
    · exact (h.desktops d hd).focus
    · exact (h.desktops d hd).tree.ids
  · rintro ⟨h, hpanes⟩
    refine ⟨h.ids, h.active, h.keyed, h.homed, fun d hd => ?_⟩
    exact ⟨⟨hpanes d hd, (h.tiles d hd).1, h.panes d hd⟩, (h.tiles d hd).2,
      (h.floats d hd).1, (h.floats d hd).2, h.focus d hd⟩

section

variable {s : OsSession} {windowId : String} {window : OsWindow}
  {desktops : List OsDesktop}
  {updater : OsDesktop → OsDesktop}

theorem updateDesktop_eq {desktopId : String} : s.updateDesktop desktopId updater =
      { s with desktops := changeDesktop s.desktops desktopId updater } := rfl

variable {desktopId active : String}

theorem findDesktop_some {d : OsDesktop} (h : s.findDesktop desktopId = some d) :
    d ∈ s.desktops ∧ d.id = desktopId := by
  refine ⟨mem_of_find?_eq_some h, ?_⟩
  simpa using find?_some h

theorem findDesktop_isNone_iff :
    (s.findDesktop desktopId).isNone = true ↔ desktopId ∉ s.desktopIds := by
  rw [Option.isNone_iff_eq_none, findDesktop, find?_eq_none, desktopIds, mem_map]
  simp only [decide_eq_true_eq, not_exists, not_and]

theorem exists_findDesktop (h : desktopId ∈ s.desktopIds) :
    ∃ d, s.findDesktop desktopId = some d := by
  rw [← Option.ne_none_iff_exists', Ne, ← Option.isNone_iff_eq_none, findDesktop_isNone_iff]
  exact not_not_intro h

theorem Tidy.put (h : Tidy s) (hactive : active ∈ s.desktopIds) (hkey : window.id = windowId)
    (hhome : window.desktopId ∈ s.desktopIds) (hids : desktops.map (·.id) = s.desktopIds)
    (hdesks : AllTidy (s.windows.insert windowId window) desktops) :
    Tidy { activeDesktopId := active, desktops
           windows := s.windows.insert windowId window } := by
  have hids' : desktops.map (·.id) = s.desktops.map (·.id) := hids
  refine ⟨?_, ?_, forall_insert h.keyed hkey, ?_, hdesks⟩ <;> rw [desktopIds, hids']
  exacts [h.ids, hactive, forall_insert h.homed hhome]

theorem Tidy.erase (h : Tidy s) (hids : desktops.map (·.id) = s.desktopIds)
    (hdesks : AllTidy (s.windows.erase windowId) desktops) :
    Tidy { s with desktops, windows := s.windows.erase windowId } := by
  have hids' : desktops.map (·.id) = s.desktops.map (·.id) := hids
  refine ⟨?_, ?_, fun id w hw => h.keyed id w (get?_of_erase hw), ?_, hdesks⟩ <;>
    rw [desktopIds, hids']
  exacts [h.ids, h.active, fun id w hw => h.homed id w (get?_of_erase hw)]

theorem Tidy.putSame (h : Tidy s) {old : OsWindow} (hget : s.windows.get? windowId = some old)
    (hid : window.id = old.id) (hdesk : window.desktopId = old.desktopId)
    (hmode : window.mode = old.mode) (hmin : window.minimized = old.minimized) :
    Tidy (s.putWindow windowId window) := by
  refine h.put h.active ?_ ?_ rfl fun d hd => (h.desktops d hd).congr fun mode id => ?_
  · rw [hid]
    exact h.keyed windowId old hget
  · rw [hdesk]
    exact h.homed windowId old hget
  · by_cases heq : id = windowId
    · subst heq
      rw [shown_insert_self, shown_of_get? hget, hmin, hmode, hdesk]
    · simp [shown_insert_of_ne heq, shown_erase, heq]

theorem Tidy.changeDesktop (h : Tidy s) (hid : ∀ d, (updater d).id = d.id)
    (hupdater : ∀ d ∈ s.desktops, d.id = desktopId → DesktopTidy s.windows d →
      DesktopTidy s.windows (updater d)) : Tidy (s.updateDesktop desktopId updater) := by
  have hids := changeDesktop_ids s.desktops desktopId hid
  refine ⟨?_, ?_, h.keyed, ?_, allTidy_changeDesktop
    (fun d hd hd' => hupdater d hd hd' (h.desktops d hd)) fun d hd _ => h.desktops d hd⟩ <;>
    rw [desktopIds, updateDesktop_eq, hids]
  exacts [h.ids, h.active, h.homed]

end

end OsSession

end DamHopper.Os
