import DamHopper.Os.DockTrees
import DamHopper.Os.Modes

/-!
# Os — Docking

Docking a window into the tree of a desktop, and splitting a pane for one. The window
is taken out everywhere else first; what happens to the target tree is the business of
`DockTrees`. The result is a valid session exactly if the docking is safe there, and if
the desktops the window leaves keep names for their active items.

A window that is docked keeps its `restorePlacement`. `removeDesktop` looks after the
restore placements of the windows on the desktop it removes, so one that names another
desktop than the window's is left dangling.
-/

namespace DamHopper.Os

open AssocMap OsDesktop TileNode List
open TileNode (Sound Named LeavesNamed Docked items? panes?)

/-! ## One desktop -/

section

variable {windows : AssocMap String OsWindow} {d : OsDesktop} {windowId : String}
  {window : OsWindow}

theorem OsDesktop.unplaced_tree (d : OsDesktop) :
    (d.unplaced windowId windows).tree = removeWindowFromDesktopTree d.tree windowId := by
  unfold unplaced
  split_ifs with hnot
  · rfl
  · simp only [Bool.or_eq_true, hasInTree_iff, not_or] at hnot
    exact (removeWindow_of_not_mem hnot.2).symm

theorem OsDesktop.unplaced_floats (d : OsDesktop) :
    (d.unplaced windowId windows).floatingWindowIds =
      d.floatingWindowIds.filter (· ≠ windowId) := by
  unfold unplaced
  split_ifs with hnot
  · rfl
  simp only [Bool.or_eq_true, contains_iff_mem, not_or] at hnot
  exact (filter_ne_of_notMem hnot.1).symm

theorem OsDesktop.unplaced_defaultCtx (d : OsDesktop) :
    (d.unplaced windowId windows).defaultCtx = d.defaultCtx := by
  unfold unplaced
  split <;> rfl

theorem unplaced_checked_iff (hsound : Sound d.tree) (h : DesktopChecked d) :
    DesktopChecked (d.unplaced windowId windows) ↔ LeavesNamed d.tree windowId := by
  have htree := removeWindow_named_iff h.tree hsound windowId
  rw [← d.unplaced_tree] at htree
  refine ⟨fun hc => htree.mp hc.tree, fun hl => ⟨fun ctx hctx => ?_, htree.mpr hl⟩⟩
  rw [d.unplaced_defaultCtx] at hctx
  exact h.context ctx hctx

def OsDesktop.docked (d : OsDesktop) (tree : TileNode String) (windowId : String) :
    OsDesktop :=
  { d with
    tree := some tree
    floatingWindowIds := d.floatingWindowIds.filter (· ≠ windowId)
    focusedWindowId := some windowId }

structure DesktopPlaced (windows : AssocMap String OsWindow) (d : OsDesktop) : Prop where
  tiles : d.treeItems.Nodup ∧ ∀ id, id ∈ d.treeItems ↔ Shown windows .tile d.id id
  floats : d.floatingWindowIds.Nodup ∧
    ∀ id, id ∈ d.floatingWindowIds ↔ Shown windows .float d.id id
  panes : ∀ pane ∈ d.panes, pane.Active
  focus : ∀ id, d.focusedWindowId = some id → ∃ mode, Shown windows mode d.id id

theorem DesktopTidy.placed (h : DesktopTidy windows d) : DesktopPlaced windows d :=
  ⟨⟨h.tree.items, h.mem_tiles⟩, ⟨h.floats, h.mem_floats⟩, h.tree.active, h.focus⟩

/-- One element added to a list without repetition: counted, and by what is in it. -/
theorem count_insert_iff {l : List String} (h : l.Nodup) (l' : List String) (y : String) :
    (∀ x, l'.count x = if x = y then 1 else l.count x) ↔
      l'.Nodup ∧ ∀ x, x ∈ l' ↔ x = y ∨ x ∈ l := by
  constructor
  · intro hcount
    refine ⟨nodup_iff_count_le_one.mpr fun x => ?_, fun x => ?_⟩
    · rw [hcount]
      split
      · exact Nat.le_refl 1
      · exact nodup_iff_count_le_one.mp h x
    · rw [← count_pos_iff, hcount]
      split_ifs with hx <;> simp [hx]
  · rintro ⟨hnodup, hmem⟩ x
    rw [hnodup.count, h.count]
    by_cases hx : x = y <;> simp [hmem, hx]

/-- **A desktop with a docked window** is in order exactly if the window is docked. -/
theorem docked_desktop_iff (h : DesktopTidy windows d) (hchecked : DesktopChecked d)
    (hmin : window.minimized = false) (hmode : window.mode = .tile)
    (hdesk : window.desktopId = d.id) {result : TileNode String} :
    DesktopPlaced (windows.insert windowId window) (d.docked result windowId) ∧
        DesktopChecked (d.docked result windowId) ↔
      Docked d.tree result windowId := by
  have hself : Shown (windows.insert windowId window) .tile d.id windowId :=
    shown_insert_self.mpr ⟨hmin, hmode, hdesk⟩
  have hother : ∀ mode x, x ≠ windowId →
      (Shown (windows.insert windowId window) mode d.id x ↔ Shown windows mode d.id x) := by
    intro mode x hx
    simp [shown_insert_of_ne hx, shown_erase, hx]
  have htile : ∀ x, Shown (windows.insert windowId window) .tile d.id x ↔
      x = windowId ∨ x ∈ items? d.tree := by
    intro x
    by_cases hx : x = windowId
    · simp [hx, hself]
    · rw [hother .tile x hx, h.mem_tiles, or_iff_right hx]
  have hitems := count_insert_iff h.tree.items (items? (some result)) windowId
  simp only [← htile] at hitems
  constructor
  · rintro ⟨hplaced, hchecked'⟩
    exact ⟨hitems.mpr hplaced.tiles, hplaced.panes, hchecked'.tree⟩
  · intro hd
    refine ⟨⟨hitems.mp hd.items, ⟨h.floats.filter _, fun x => ?_⟩, hd.active, fun x hx => ?_⟩,
      hchecked.context, hd.named⟩
    · change x ∈ d.floatingWindowIds.filter (· ≠ windowId) ↔ Shown _ .float d.id x
      rw [mem_filter, decide_eq_true_eq]
      by_cases hx : x = windowId
      · subst hx
        refine iff_of_false (fun hmem => hmem.2 rfl) fun hshown => ?_
        rw [shown_insert_self, hmode] at hshown
        cases hshown.2.1
      · rw [hother .float x hx, h.mem_floats]
        exact and_iff_left hx
    · cases hx
      exact ⟨.tile, hself⟩

end

namespace OsSession

section

variable {s : OsSession} {windowId desktopId : String} {window : OsWindow} {desk : OsDesktop}

theorem placed_iff : s.Placed ↔ s.desktopIds.Nodup ∧ s.activeDesktopId ∈ s.desktopIds ∧
    (∀ id w, s.windows.get? id = some w → w.id = id) ∧
    (∀ id w, s.windows.get? id = some w → w.desktopId ∈ s.desktopIds) ∧
    ∀ d ∈ s.desktops, DesktopPlaced s.windows d := by
  constructor
  · intro h
    exact ⟨h.ids, h.active, h.keyed, h.homed, fun d hd =>
      ⟨h.tiles d hd, h.floats d hd, h.panes d hd, h.focus d hd⟩⟩
  · rintro ⟨hids, hactive, hkeyed, hhomed, hdesks⟩
    exact ⟨hids, hactive, hkeyed, hhomed, fun d hd => (hdesks d hd).tiles,
      fun d hd => (hdesks d hd).floats, fun d hd => (hdesks d hd).panes,
      fun d hd => (hdesks d hd).focus⟩

/-- The session with the window in the tree of `desktopId` and nowhere else. -/
def withDocked (s : OsSession) (desktopId windowId : String) (window : OsWindow)
    (result : OsDesktop → TileNode String) : OsSession :=
  { s with
    desktops := s.desktops.map fun d =>
      if d.id = desktopId then d.docked (result d) windowId
      else d.unplaced windowId s.windows
    windows := s.windows.insert windowId window }

theorem withDocked_ids (s : OsSession) (desktopId windowId : String) (window : OsWindow)
    (result : OsDesktop → TileNode String) :
    (s.withDocked desktopId windowId window result).desktopIds = s.desktopIds := by
  rw [desktopIds, withDocked, map_map]
  refine map_congr_left fun d _ => ?_
  simp only [Function.comp_apply]
  split
  · rfl
  · exact d.unplaced_id

/-- **A docked window** leaves a valid session exactly if its entry is well formed, the
window is docked in the target tree, and the other desktops keep their names. -/
theorem withDocked_valid_iff (h : s.Valid) (hpanes : s.DistinctPanes)
    (hfind : s.findDesktop desktopId = some desk) (hkey : window.id = windowId)
    (hmin : window.minimized = false) (hmode : window.mode = .tile)
    (hdesk : window.desktopId = desktopId) {result : OsDesktop → TileNode String} :
    Valid (s.withDocked desktopId windowId window result) ↔ window.Ok s.desktopIds ∧
      (∀ d ∈ s.desktops, d.id ≠ desktopId → LeavesNamed d.tree windowId) ∧
      Docked desk.tree (result desk) windowId := by
  have htidy := h.tidy hpanes
  obtain ⟨hdeskMem, hdeskId⟩ := findDesktop_some hfind
  have hhome : desktopId ∈ s.desktopIds := hdeskId ▸ mem_map_of_mem hdeskMem
  have hids := s.withDocked_ids desktopId windowId window result
  have hchecked := (checked_iff.mp h.checked).2
  have htarget : ∀ d ∈ s.desktops, d.id = desktopId →
      (DesktopPlaced (s.windows.insert windowId window) (d.docked (result d) windowId) ∧
        DesktopChecked (d.docked (result d) windowId) ↔
        Docked desk.tree (result desk) windowId) := by
    intro d hd hid
    -- the target desktop is the one that was read
    rw [inj_on_of_nodup_map h.placed.ids hd hdeskMem (hid.trans hdeskId.symm)]
    exact docked_desktop_iff (htidy.desktops desk hdeskMem) (hchecked desk hdeskMem) hmin hmode
      (hdesk.trans hdeskId.symm)
  constructor
  · intro hvalid
    obtain ⟨hwindows, hdesks⟩ := checked_iff.mp hvalid.checked
    obtain ⟨_, _, _, _, hplaced⟩ := placed_iff.mp hvalid.placed
    rw [hids] at hwindows
    refine ⟨hwindows windowId window (get?_insert_self _ _ _), fun d hd hid => ?_, ?_⟩
    · have hother := hdesks _ (mem_map_of_mem hd)
      rw [if_neg hid] at hother
      exact (unplaced_checked_iff (htidy.desktops d hd).tree (hchecked d hd)).mp hother
    · have hown := And.intro (hplaced _ (mem_map_of_mem hdeskMem))
        (hdesks _ (mem_map_of_mem hdeskMem))
      rw [if_pos hdeskId] at hown
      exact (htarget desk hdeskMem hdeskId).mp hown
  · rintro ⟨hok, hleaves, hdocked⟩
    refine ⟨placed_iff.mpr ?_, checked_iff.mpr ?_⟩
    · rw [hids]
      refine ⟨h.placed.ids, h.placed.active, forall_insert h.placed.keyed hkey,
        forall_insert h.placed.homed (hdesk ▸ hhome), forall_mem_map.mpr fun d hd => ?_⟩
      split_ifs with hid
      · exact ((htarget d hd hid).mpr hdocked).1
      refine ((htidy.desktops d hd).unplaced.putHidden (.inr ?_)).placed
      rw [hdesk, d.unplaced_id]
      exact Ne.symm hid
    · rw [hids]
      refine ⟨forall_insert h.checked.windows hok, forall_mem_map.mpr fun d hd => ?_⟩
      split_ifs with hid
      · exact ((htarget d hd hid).mpr hdocked).2
      · exact (unplaced_checked_iff (htidy.desktops d hd).tree (hchecked d hd)).mpr
          (hleaves d hd hid)

/-! ## Docking in the tree of a desktop -/

def dockedTree (d : OsDesktop) (windowId : String) (target : TileDockTarget)
    (sourcePaneId : Option String) (newPaneId splitId : String) : TileNode String :=
  match d.tree with
  | none => .pane (newTilePaneNode [windowId] (some windowId) newPaneId)
  | some tree =>
    tree.dockItemIntoTileTree windowId target sourcePaneId newPaneId splitId

/-- The call is not skipped: the window, the desktop and the target pane are there. -/
structure Docks (s : OsSession) (desktopId windowId : String) (target : TileDockTarget)
    (window : OsWindow) (desk : OsDesktop) : Prop where
  window : s.windows.get? windowId = some window
  desktop : s.findDesktop desktopId = some desk
  target : ∀ tree ∈ desk.tree, ∃ t, tree.findTilePaneById target.paneId = some t

def dockedWindow (window : OsWindow) (desktopId : String) : OsWindow :=
  { window with desktopId := desktopId, mode := .tile, minimized := false }

variable {target : TileDockTarget} {sourcePaneId : Option String} {newPaneId splitId : String}

theorem dock_guard_iff {root : Option (TileNode String)} {paneId : String} :
    ¬ (root.any fun tree => (tree.findTilePaneById paneId).isNone) = true ↔
      ∀ tree ∈ root, ∃ t, tree.findTilePaneById paneId = some t := by
  cases root <;> simp [Option.eq_none_iff_forall_ne_some]

theorem dock_eq (hids : s.desktopIds.Nodup)
    (hdocks : s.Docks desktopId windowId target window desk) :
    s.dockWindowInDesktopTree desktopId windowId target sourcePaneId newPaneId splitId =
      s.withDocked desktopId windowId (dockedWindow window desktopId) fun d =>
        dockedTree d windowId target sourcePaneId newPaneId splitId := by
  have hundock : s.undockElsewhere desktopId windowId =
      { s with
        desktops := s.desktops.map fun d =>
          if d.floatingWindowIds.contains windowId ||
              (d.id ≠ desktopId && d.hasInTree windowId) then
            { d.without windowId (d.focusAfter windowId s.windows) with
              tree :=
                if d.id ≠ desktopId then removeWindowFromDesktopTree d.tree windowId
                else d.tree }
          else d } :=
    foldl_updateDesktop (fun _ _ => rfl) hids
  simp only [dockWindowInDesktopTree, hdocks.window, hdocks.desktop]
  rw [if_neg (dock_guard_iff.mpr hdocks.target), hundock]
  simp only [putWindow, updateDesktop, map_map]
  congr 1
  refine map_congr_left fun d _ => ?_
  simp only [Function.comp_apply]
  by_cases hid : d.id = desktopId
  · -- the target desktop has lost the window from its floating list only
    by_cases hfloat : windowId ∈ d.floatingWindowIds
    · cases htree : d.tree <;> simp [hfloat, hid, htree, without, docked, dockedTree]
    · cases htree : d.tree <;> simp [hfloat, hid, htree, docked, dockedTree]
  · simp only [hid, ne_eq, not_false_eq_true, decide_true, Bool.true_and,
      unplaced]
    split
    · simp [without, hid]
    · simp

theorem dock_eq_self (hno : ¬ ∃ window desk, s.Docks desktopId windowId target window desk) :
    s.dockWindowInDesktopTree desktopId windowId target sourcePaneId newPaneId splitId =
      s := by
  unfold dockWindowInDesktopTree
  split
  · rfl
  rename_i window hget
  split
  · rfl
  rename_i desk hfind
  split_ifs with hguard
  · rfl
  exact absurd ⟨window, desk, hget, hfind, dock_guard_iff.mp hguard⟩ hno

/-- When docking keeps a session valid: the desktops the window leaves keep their names,
and the docking is safe in the target tree. -/
def DockSafe (s : OsSession) (desktopId windowId : String) (target : TileDockTarget)
    (sourcePaneId : Option String) : Prop :=
  ∀ window desk, s.Docks desktopId windowId target window desk →
    (∀ d ∈ s.desktops, d.id ≠ desktopId → LeavesNamed d.tree windowId) ∧
    (desk.tree = none → windowId ≠ "") ∧
    ∀ tree ∈ desk.tree, ∀ t ∈ tree.findTilePaneById target.paneId,
      tree.DockSafe windowId t (tree.currentSourcePane windowId sourcePaneId) target

theorem single_docked_iff {newPaneId : Uuid} :
    Docked none (.pane (newTilePaneNode [windowId] (some windowId)
      newPaneId.value)) windowId ↔ windowId ≠ "" := by
  obtain ⟨hsound, hitems⟩ := Sound.single windowId newPaneId.value
  rw [← named_single_iff newPaneId.ne_empty]
  refine ⟨fun hd => hd.named, fun hn => ⟨fun x => ?_, hsound.active, hn⟩⟩
  rw [hitems]
  by_cases hx : x = windowId
  · simp [hx]
  · simp [hx, Ne.symm hx, items?, panes?]

/-- **Docking** keeps a session valid exactly if it is safe. -/
theorem dock_valid_iff (h : s.Valid) (hpanes : s.DistinctPanes) {newPaneId splitId : Uuid} :
    Valid (s.dockWindowInDesktopTree desktopId windowId target sourcePaneId newPaneId.value
        splitId.value) ↔
      s.DockSafe desktopId windowId target sourcePaneId := by
  by_cases hdocks : ∃ window desk, s.Docks desktopId windowId target window desk
  · obtain ⟨window, desk, hdocks⟩ := hdocks
    obtain ⟨hmem, hid⟩ := findDesktop_some hdocks.desktop
    have hok := h.checked.windows windowId window hdocks.window
    have hok' : (dockedWindow window desktopId).Ok s.desktopIds :=
      ⟨hok.ctx, hid ▸ mem_map_of_mem hmem, hok.bounds, hok.restore⟩
    have hkey : (dockedWindow window desktopId).id = windowId :=
      h.placed.keyed windowId window hdocks.window
    rw [dock_eq h.placed.ids hdocks,
      withDocked_valid_iff h hpanes hdocks.desktop hkey rfl rfl rfl]
    have hnamed := ((checked_iff.mp h.checked).2 desk hmem).tree
    have hsound := ((h.tidy hpanes).desktops desk hmem).tree
    have htree : Docked desk.tree
          (dockedTree desk windowId target sourcePaneId newPaneId.value splitId.value)
          windowId ↔
        (desk.tree = none → windowId ≠ "") ∧
        ∀ tree ∈ desk.tree, ∀ t ∈ tree.findTilePaneById target.paneId,
          tree.DockSafe windowId t (tree.currentSourcePane windowId sourcePaneId)
            target := by
      cases hdesk : desk.tree with
      | none => simp [dockedTree, hdesk, single_docked_iff]
      | some tree =>
        obtain ⟨t, ht⟩ := hdocks.target tree hdesk
        obtain ⟨htmem, htid⟩ := findTilePaneById_some ht
        rw [hdesk] at hnamed hsound
        simp only [dockedTree, hdesk]
        simp [dockItemIntoTileTree_docked_iff hnamed hsound htmem htid.symm, ht]
    constructor
    · intro hsafe window' desk' hdocks'
      have hdesk' : desk' = desk := Option.some.inj (hdocks'.desktop.symm.trans hdocks.desktop)
      rw [hdesk']
      exact ⟨hsafe.2.1, htree.mp hsafe.2.2⟩
    · intro hsafe
      obtain ⟨hleaves, hdock⟩ := hsafe window desk hdocks
      exact ⟨hok', hleaves, htree.mpr hdock⟩
  · rw [dock_eq_self hdocks]
    exact iff_of_true h fun window desk hd => absurd ⟨window, desk, hd⟩ hdocks

/-! ## Splitting a pane -/

def splitTarget (s : OsSession) (targetWindowId : String) (direction : SplitPlace) :
    Option (String × TileDockTarget) :=
  (s.windows.get? targetWindowId).bind fun targetWin =>
    ((s.findDesktop targetWin.desktopId).bind (·.tree)).bind fun tree =>
      (tree.findTilePaneContaining (· = targetWindowId)).map fun pane =>
        (targetWin.desktopId, match direction with
          | .center => .paneCenter pane.id
          | .edge edge => .paneEdge pane.id edge)

theorem splitWindow_eq {sourceWindowId targetWindowId : String} {direction : SplitPlace} :
    s.splitWindow sourceWindowId targetWindowId direction newPaneId splitId =
      match s.splitTarget targetWindowId direction with
      | none => s
      | some (desktopId, target) =>
        s.dockWindowInDesktopTree desktopId sourceWindowId target none newPaneId
          splitId := by
  have hmissing : s.windows.get? sourceWindowId = none → ∀ desktopId target,
      s.dockWindowInDesktopTree desktopId sourceWindowId target none newPaneId splitId =
        s := by
    intro hnone desktopId target
    simp only [dockWindowInDesktopTree, hnone]
  unfold splitWindow splitTarget
  cases hsource : s.windows.get? sourceWindowId with
  | none =>
    simp only
    split
    · rfl
    · exact (hmissing hsource _ _).symm
  | some sourceWin =>
    cases htarget : s.windows.get? targetWindowId with
    | none => rfl
    | some targetWin =>
      simp only [Option.bind_some]
      cases hdesk : (s.findDesktop targetWin.desktopId).bind (·.tree) with
      | none => rfl
      | some tree =>
        simp only [Option.bind_some]
        cases hpane : tree.findTilePaneContaining (· = targetWindowId) with
        | none | some pane => rfl

/-! ## Restore placements -/

/-- No window would be restored to another desktop than its own. -/
def NoStrays (windows : AssocMap String OsWindow) : Prop :=
  ∀ id w, windows.get? id = some w →
    ∀ placement ∈ w.restorePlacement, placement.desktopId = w.desktopId

/-- Every restore placement names a desktop. -/
def RestoresExist (s : OsSession) : Prop :=
  ∀ id w, s.windows.get? id = some w →
    ∀ placement ∈ w.restorePlacement, placement.desktopId ∈ s.desktopIds

/-- Every restore placement still names a desktop once a desktop has been removed. -/
def RemovalSafe (s : OsSession) : Prop :=
  ∀ desktopId survivingDesktopId paneId,
    RestoresExist (s.removeDesktop desktopId survivingDesktopId paneId)

/-- A move takes the restore placement along. -/
theorem NoStrays.moveWindowToDesktop (h : NoStrays s.windows)
    (windowId targetDesktopId paneId : String) :
    NoStrays (s.moveWindowToDesktop windowId targetDesktopId paneId).windows := by
  have hmoved : ∀ window : OsWindow, NoStrays (s.windows.insert windowId { window with
      desktopId := targetDesktopId
      restorePlacement := window.restorePlacement.map fun placement =>
        { placement with desktopId := targetDesktopId } }) := by
    intro window
    refine forall_insert h fun placement hplacement => ?_
    obtain ⟨_, _, rfl⟩ := Option.map_eq_some_iff.mp hplacement
    rfl
  unfold OsSession.moveWindowToDesktop
  split
  · exact h
  split
  · exact h
  split
  · exact h
  split <;> exact hmoved _

/-- The desktop of a stray restore placement can be removed. -/
theorem removeDesktop_eq (hone : desktopId ∈ s.desktopIds) {other : String}
    (htwo : other ∈ s.desktopIds) (hne : other ≠ desktopId) (paneId : String → String) :
    ∃ target ∈ s.desktops, target.id ≠ desktopId ∧ s.removeDesktop desktopId none paneId =
        (s.moveAll target.id paneId
          (s.windows.values.filter (·.desktopId = desktopId))).dropDesktop desktopId
          target.id := by
  have hmany : ¬ s.desktops.length ≤ 1 := by
    intro hle
    rw [eq_singleton_of_mem (by simpa [desktopIds] using hle) hone, mem_singleton] at htwo
    exact hne htwo
  have hfound : ¬ (s.findDesktop desktopId).isNone = true := by
    rw [findDesktop_isNone_iff, not_not]
    exact hone
  have hother : ∃ target, s.survivor desktopId none = some target := by
    obtain ⟨d, hd, rfl⟩ := mem_map.mp htwo
    exact Option.isSome_iff_exists.mp (find?_isSome.mpr ⟨d, hd, by simpa using hne⟩)
  obtain ⟨target, htarget⟩ := hother
  obtain ⟨hmem, htne⟩ := survivor_some htarget
  refine ⟨target, hmem, htne, ?_⟩
  simp only [removeDesktop, if_neg hmany, if_neg hfound, htarget]
  rfl

/-- **Restore placements survive the removal of a desktop** exactly if none is astray. -/
theorem removalSafe_iff (h : s.Valid) : s.RemovalSafe ↔ NoStrays s.windows := by
  constructor
  · intro hsafe id w hget placement hplacement
    by_contra hne
    have hdesk := ((h.checked.windows id w hget).restore placement hplacement).desktop
    have hhome := h.placed.homed id w hget
    obtain ⟨target, htarget, htne, heq⟩ := removeDesktop_eq hdesk hhome (Ne.symm hne) fun _ => ""
    have hexist := hsafe placement.desktopId none fun _ => ""
    rw [heq] at hexist
    obtain ⟨_, _, hothers, _⟩ := moveAll_spec (mem_map_of_mem htarget) (fun _ => "")
      (s.windows.values.filter (·.desktopId = placement.desktopId))
    -- the window is on another desktop, so it is not moved
    have hstay : id ∉ (s.windows.values.filter (·.desktopId = placement.desktopId)).map (·.id) := by
      intro hmem
      obtain ⟨win, hwin, hid⟩ := mem_map.mp hmem
      rw [mem_filter, decide_eq_true_eq, mem_values_iff] at hwin
      obtain ⟨⟨key, hkey⟩, hdesk'⟩ := hwin
      rw [← h.placed.keyed key win hkey, hid, hget] at hkey
      cases hkey
      exact hne hdesk'.symm
    have hget' := (hothers id hstay).trans hget
    exact (mem_dropDesktop_ids.mp (hexist id w hget' placement hplacement)).2 rfl
  · intro hstrays desktopId survivingDesktopId paneId id w hget placement hplacement
    rcases s.removeDesktop_cases desktopId survivingDesktopId paneId with
      heq | ⟨target, hsurvivor, heq⟩
    · rw [heq] at hget ⊢
      exact ((h.checked.windows id w hget).restore placement hplacement).desktop
    obtain ⟨hmem, hne⟩ := survivor_some hsurvivor
    have htarget : target.id ∈ s.desktopIds := mem_map_of_mem hmem
    obtain ⟨hids, _, hothers, hmoved⟩ := moveAll_spec htarget paneId
      (s.windows.values.filter (·.desktopId = desktopId))
    rw [heq] at hget ⊢
    have hempty := moveAll_empty h.placed.keyed htarget hne paneId hget
    rw [mem_dropDesktop_ids, hids,
      moveAll_rule (P := fun s => NoStrays s.windows) (fun _ _ _ h => h.moveWindowToDesktop _ _ _)
        hstrays _ _ id w hget placement hplacement]
    refine ⟨?_, hempty⟩
    by_cases hwin : id ∈ (s.windows.values.filter (·.desktopId = desktopId)).map (·.id)
    · rw [hmoved id w hwin hget]
      exact htarget
    · exact h.placed.homed id w ((hothers id hwin).symm.trans hget)

/-- After docking, the window is on the target desktop, the others are where they were;
each restore placement has to name that desktop. -/
def DockRestores (s : OsSession) (desktopId windowId : String) (target : TileDockTarget) :
    Prop :=
  ∀ id w, s.windows.get? id = some w → ∀ placement ∈ w.restorePlacement,
    (id = windowId ∧ (∃ desk, s.Docks desktopId windowId target w desk) →
      placement.desktopId = desktopId) ∧
    (¬ (id = windowId ∧ ∃ desk, s.Docks desktopId windowId target w desk) →
      placement.desktopId = w.desktopId)

theorem dock_noStrays_iff (hids : s.desktopIds.Nodup) :
    NoStrays (s.dockWindowInDesktopTree desktopId windowId target sourcePaneId newPaneId
        splitId).windows ↔
      s.DockRestores desktopId windowId target := by
  by_cases hdocks : ∃ window desk, s.Docks desktopId windowId target window desk
  · obtain ⟨window, desk, hdocks⟩ := hdocks
    rw [dock_eq hids hdocks]
    refine forall_insert_iff.trans ?_
    constructor
    · intro h id w hget placement hplacement
      refine ⟨fun hown => ?_, fun hother => ?_⟩
      · have hsame : window = w := Option.some.inj (hdocks.window.symm.trans (hown.1 ▸ hget))
        rw [← hsame] at hplacement
        exact h.1 placement hplacement
      · refine h.2 id w (fun hid => hother ⟨hid, desk, ?_⟩) hget placement hplacement
        have hsame : window = w := Option.some.inj (hdocks.window.symm.trans (hid ▸ hget))
        rw [← hsame]
        exact hdocks
    · intro h
      refine ⟨fun placement hplacement => ?_, fun id w hid hget placement hplacement => ?_⟩
      · exact (h windowId window hdocks.window placement hplacement).1 ⟨rfl, desk, hdocks⟩
      · exact (h id w hget placement hplacement).2 fun hown => hid hown.1
  · rw [dock_eq_self hdocks]
    have hskipped : ∀ id w, ¬ (id = windowId ∧ ∃ desk, s.Docks desktopId windowId target w desk) :=
      fun id w hown => hdocks ⟨w, hown.2⟩
    constructor
    · intro h id w hget placement hplacement
      exact ⟨fun hown => absurd hown (hskipped id w), fun _ => h id w hget placement hplacement⟩
    · intro h id w hget placement hplacement
      exact (h id w hget placement hplacement).2 (hskipped id w)

end

end OsSession

end DamHopper.Os
