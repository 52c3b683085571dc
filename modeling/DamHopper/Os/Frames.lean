import DamHopper.Os.Acceptance

/-!
# Os — Frames

What closing or minimizing a window leaves alone. A window that is the only one in its
pane is taken out with the pane, and panes are removed by id; the validator asks only
that a pane has an id. So another pane with the same id goes too, and its windows with
it. Exactly then a window other than the closed one loses its place.
-/

namespace DamHopper.Os

open TileNode List
open TileNode (items? panes?)

/-! ## One tree -/

/-- A pane that holds only the window shares its id with no other pane. -/
def OwnPane (tree : Option (TileNode String)) (windowId : String) : Prop :=
  ∀ p ∈ panes? tree, p.items = [windowId] →
    ∀ q ∈ panes? tree, q.id = p.id → q.items = [windowId]

instance (tree : Option (TileNode String)) (windowId : String) :
    Decidable (OwnPane tree windowId) := by delta OwnPane; infer_instance

section

variable {tree : Option (TileNode String)} {windowId : String}

theorem ownPane_of_not_mem (h : windowId ∉ items? tree) : OwnPane tree windowId := by
  intro p hp hitems
  have hmem : windowId ∈ p.items := by simp [hitems]
  exact absurd (mem_items?_iff.mpr ⟨p, hp, hmem⟩) h

/-- If removing the pane loses no other window, no other pane had its id. -/
theorem ownPane_of_removeTilePane {tree : TileNode String} (hnodup : (items? (some tree)).Nodup)
    (hactive : ∀ p ∈ tree.collectTilePanes, p.Active) {p : TilePaneNode String}
    (hp : p ∈ tree.collectTilePanes) (hitems : p.items = [windowId])
    (hcount : ∀ id, id ≠ windowId →
      (items? (tree.removeTilePane p.id)).count id = (items? (some tree)).count id) :
    OwnPane (some tree) windowId := by
  have hw : windowId ∈ p.items := by simp [hitems]
  intro p' hp' hitems' q hq hid
  have hw' : windowId ∈ p'.items := by simp [hitems']
  rw [block_unique hnodup hp' hp hw' hw] at hid
  -- the active item of `q` is the window, for another one would be lost
  obtain ⟨x, hx, _⟩ := hactive q hq
  by_cases hxw : x = windowId
  · rw [hxw] at hx
    rw [block_unique hnodup hq hp hx hw, hitems]
  have hmem : x ∈ items? (some tree) := mem_items?_iff.mpr ⟨q, hq, hx⟩
  have hpos : 0 < (items? (tree.removeTilePane p.id)).count x := by
    rw [hcount x hxw]
    exact count_pos_iff.mpr hmem
  obtain ⟨q', hq', hx'⟩ := mem_items?_iff.mp (count_pos_iff.mp hpos)
  rw [panes?_removeTilePane, mem_filter, decide_eq_true_eq] at hq'
  rw [block_unique hnodup hq'.1 hq hx' hx] at hq'
  exact absurd hid hq'.2

/-- **Taking a window out of a tree** leaves the others where they are exactly if it
does not share the id of its pane. -/
theorem removeWindow_count_iff (hnodup : (items? tree).Nodup)
    (hactive : ∀ p ∈ panes? tree, p.Active) :
    (∀ id, id ≠ windowId → (items? (removeWindowFromDesktopTree tree windowId)).count id =
      (items? tree).count id) ↔ OwnPane tree windowId := by
  cases tree with
  | none => exact iff_of_true (fun id _ => rfl) (ownPane_of_not_mem not_mem_nil)
  | some tree =>
    have hfilter : ∀ id, id ≠ windowId → ((items? (some tree)).filter (· ≠ windowId)).count id =
          (items? (some tree)).count id := by
      intro id hid
      exact count_filter (by simpa using hid)
    simp only [removeWindowFromDesktopTree]
    split
    next hfind =>
      exact iff_of_true (fun id _ => rfl) (ownPane_of_not_mem (findTilePaneContaining_none hfind))
    rename_i p hfind
    obtain ⟨hp, hw⟩ := findTilePaneContaining_some hfind
    split_ifs with hlen
    · refine iff_of_true (fun id hid => ?_) fun q hq hitems => ?_
      · rw [items?_removeItemFromTilePane hnodup hp hw]
        exact hfilter id hid
      · have hwq : windowId ∈ q.items := by simp [hitems]
        rw [block_unique hnodup hq hp hwq hw] at hitems
        rw [hitems, length_singleton] at hlen
        omega
    · have hone := eq_singleton_of_mem (not_lt.mp hlen) hw
      constructor
      · intro hcount
        exact ownPane_of_removeTilePane hnodup hactive hp hone hcount
      · intro hown id hid
        rw [items?_removeTilePane_of_own hnodup hp hone (hown p hp hone)]
        exact hfilter id hid

end

/-! ## Sessions -/

namespace OsSession

/-- Every window but one has the entry and the places it had, and a tree that held
another window is still there. -/
structure OnlyChanges (s s' : OsSession) (windowId : String) : Prop where
  entries : ∀ id, id ≠ windowId → s'.windows.get? id = s.windows.get? id
  desktops : s'.desktopIds = s.desktopIds
  trees : ∀ d ∈ s.desktops, ∀ d' ∈ s'.desktops, d'.id = d.id →
    ∀ id, id ≠ windowId → d'.treeItems.count id = d.treeItems.count id
  floats : ∀ d ∈ s.desktops, ∀ d' ∈ s'.desktops, d'.id = d.id →
    ∀ id, id ≠ windowId → d'.floatingWindowIds.count id = d.floatingWindowIds.count id
  kept : ∀ d ∈ s.desktops, ∀ d' ∈ s'.desktops, d'.id = d.id →
    (∃ id ∈ d.treeItems, id ≠ windowId) → d'.tree ≠ none

/-- The window does not share the id of its pane with another. -/
def KeepsOthers (s : OsSession) (windowId : String) : Prop :=
  ∀ window, s.windows.get? windowId = some window →
    ∀ d ∈ s.desktops, d.id = window.desktopId → OwnPane d.tree windowId

/-- What the two operations rely on. -/
structure Framed (s : OsSession) : Prop where
  ids : s.desktopIds.Nodup
  homed : ∀ id w, s.windows.get? id = some w → w.desktopId ∈ s.desktopIds
  tiles : ∀ d ∈ s.desktops, d.treeItems.Nodup
  panes : ∀ d ∈ s.desktops, ∀ pane ∈ d.panes, pane.Active
  hidden : ∀ id w, s.windows.get? id = some w → w.minimized = true →
    ∀ d ∈ s.desktops, id ∉ d.treeItems

section

variable {s : OsSession} {windowId : String} {window : OsWindow}

/-- It holds of what is written of a session, also where a window is lost. -/
theorem Placed.framed_sanitize (h : s.Placed) : (sanitizeSessionForPersistence s).Framed := by
  have hids : (sanitizeSessionForPersistence s).desktopIds = s.desktopIds := map_map
  refine ⟨hids ▸ h.ids, fun id w hw => ?_, forall_mem_map.mpr fun d hd => (h.tiles d hd).1,
    forall_mem_map.mpr h.panes, fun id w hw hmin => forall_mem_map.mpr fun d hd hmem => ?_⟩
  all_goals obtain ⟨_, w', hw', rfl⟩ := get?_sanitize.mp hw
  · exact hids ▸ h.homed id w' hw'
  · have hshown := (shown_of_get? hw').mp (((h.tiles d hd).2 id).mp hmem)
    exact absurd hmin (by simp [sanitizeWindow, hshown])

theorem tree_ne_none_of_mem {d : OsDesktop} {id : String} (h : id ∈ d.treeItems) :
    d.tree ≠ none := by
  intro hnone
  simp [OsDesktop.treeItems, hnone, items?, panes?] at h

theorem onlyChanges_refl (h : s.Framed) : OnlyChanges s s windowId := by
  have hsame : ∀ d ∈ s.desktops, ∀ d' ∈ s.desktops, d'.id = d.id → d' = d :=
    fun d hd d' hd' hid => inj_on_of_nodup_map h.ids hd' hd hid
  refine ⟨fun _ _ => rfl, rfl, fun d hd d' hd' hid id _ => ?_, fun d hd d' hd' hid id _ => ?_,
    fun d hd d' hd' hid hother => ?_⟩
  · rw [hsame d hd d' hd' hid]
  · rw [hsame d hd d' hd' hid]
  · obtain ⟨id, hmem, _⟩ := hother
    rw [hsame d hd d' hd' hid]
    exact tree_ne_none_of_mem hmem

/-- Taking the window out of one desktop. -/
theorem onlyChanges_without_iff (h : s.Framed) {windows : AssocMap String OsWindow}
    (hentries : ∀ id, id ≠ windowId → windows.get? id = s.windows.get? id) {desktopId : String}
    {focus : OsDesktop → Option String} :
    OnlyChanges s
      { s with
        desktops := Os.changeDesktop s.desktops desktopId fun d => d.without windowId (focus d)
        windows := windows } windowId ↔
      ∀ d ∈ s.desktops, d.id = desktopId → OwnPane d.tree windowId := by
  have htree : ∀ d ∈ s.desktops, (∀ id, id ≠ windowId →
      (items? (removeWindowFromDesktopTree d.tree windowId)).count id =
        (items? d.tree).count id) ↔ OwnPane d.tree windowId := fun d hd =>
    removeWindow_count_iff (h.tiles d hd) (h.panes d hd)
  constructor
  · intro hframe d hd hid
    refine (htree d hd).mp fun id hne => ?_
    have hmem : d.without windowId (focus d) ∈
        Os.changeDesktop s.desktops desktopId fun d => d.without windowId (focus d) :=
      mem_map.mpr ⟨d, hd, if_pos hid⟩
    exact hframe.trees d hd _ hmem rfl id hne
  · intro hown
    -- a desktop of the result is the one of the same id, changed or not
    have hchanged : ∀ d ∈ s.desktops, ∀ d' ∈ Os.changeDesktop s.desktops desktopId fun d =>
        d.without windowId (focus d), d'.id = d.id →
        d' = if d.id = desktopId then d.without windowId (focus d) else d := by
      intro d hd d' hd' hid
      obtain ⟨d₀, hd₀, rfl⟩ := mem_map.mp hd'
      have hid₀ : d₀.id = d.id := by
        split at hid <;> exact hid
      rw [inj_on_of_nodup_map h.ids hd₀ hd hid₀]
    have hcount : ∀ d ∈ s.desktops, ∀ d' ∈ Os.changeDesktop s.desktops desktopId fun d =>
        d.without windowId (focus d), d'.id = d.id →
        ∀ id, id ≠ windowId → d'.treeItems.count id = d.treeItems.count id := by
      intro d hd d' hd' hid id hne
      rw [hchanged d hd d' hd' hid]
      split_ifs with hdesk
      · exact (htree d hd).mpr (hown d hd hdesk) id hne
      · rfl
    refine ⟨hentries, changeDesktop_ids _ _ fun _ => rfl, hcount,
      fun d hd d' hd' hid id hne => ?_, fun d hd d' hd' hid hother => ?_⟩
    · rw [hchanged d hd d' hd' hid]
      split
      · exact count_filter (by simpa using hne)
      · rfl
    · obtain ⟨id, hmem, hne⟩ := hother
      have hpos : 0 < d'.treeItems.count id := by
        rw [hcount d hd d' hd' hid id hne]
        exact count_pos_iff.mpr hmem
      exact tree_ne_none_of_mem (count_pos_iff.mp hpos)

theorem closeWindow_onlyChanges_iff (h : s.Framed) :
    OnlyChanges s (s.closeWindow windowId) windowId ↔ s.KeepsOthers windowId := by
  cases hget : s.windows.get? windowId with
  | none => simpa [closeWindow, KeepsOthers, hget] using onlyChanges_refl h
  | some window =>
    obtain ⟨desktop, hfind⟩ := exists_findDesktop (h.homed windowId window hget)
    obtain ⟨_, hid⟩ := findDesktop_some hfind
    simp only [closeWindow, KeepsOthers, hget, hfind, hid, Option.some.injEq, forall_eq']
    exact onlyChanges_without_iff h (fun id hne => AssocMap.get?_erase_of_ne s.windows hne)

theorem minimizeWindow_onlyChanges_iff (h : s.Framed) :
    OnlyChanges s (s.minimizeWindow windowId) windowId ↔ s.KeepsOthers windowId := by
  cases hget : s.windows.get? windowId with
  | none => simpa [minimizeWindow, KeepsOthers, hget] using onlyChanges_refl h
  | some window =>
    simp only [minimizeWindow, KeepsOthers, hget, Option.some.injEq, forall_eq']
    split_ifs with hmin
    · exact iff_of_true (onlyChanges_refl h) fun d hd _ =>
        ownPane_of_not_mem (h.hidden windowId window hget hmin d hd)
    · exact onlyChanges_without_iff h (fun id hne => AssocMap.get?_insert_of_ne s.windows _ hne)

/-- **Closing and minimizing.** In a session that was imported, either operation
changes only its window exactly if the window does not share the id of its pane. -/
theorem close_minimize_frame_iff {str : Js → String} {parse : String → Except String Js}
    {raw : String} (h : importOsSessionJson str parse raw = .ok s) (windowId : String) :
    (OnlyChanges s (s.closeWindow windowId) windowId ↔ s.KeepsOthers windowId) ∧
      (OnlyChanges s (s.minimizeWindow windowId) windowId ↔ s.KeepsOthers windowId) := by
  obtain ⟨session, hvalid, rfl⟩ := importOsSessionJson_sound h
  have hframed := hvalid.placed.framed_sanitize
  exact ⟨closeWindow_onlyChanges_iff hframed, minimizeWindow_onlyChanges_iff hframed⟩

/-- Two tiled editors side by side, in panes with these ids. -/
def twoEditors (left right : String) : OsSession :=
  let editor (id : String) : OsWindow :=
    { id, appId := .editor, title := "Editor"
      ctx := { profileId := "p", projectId := none, worktreeId := none }
      mode := .tile, desktopId := "d1", maximized := false, minimized := false
      floatBounds := none, restorePlacement := none, appState := .undefined }
  { activeDesktopId := "d1"
    desktops :=
      [{ id := "d1", name := "Main", defaultCtx := none
         tree := some (.split "s" .horizontal (50, 50)
           (.pane { id := left, items := ["a"], active := some "a" })
           (.pane { id := right, items := ["b"], active := some "b" }))
         floatingWindowIds := [], focusedWindowId := none }]
    windows := .ofList [("a", editor "a"), ("b", editor "b")] }

theorem close_minimize_frame_twoEditors :
    OnlyChanges (sanitizeSessionForPersistence (twoEditors "p" "q"))
      ((sanitizeSessionForPersistence (twoEditors "p" "q")).closeWindow "a") "a" := by
  have hvalid : (twoEditors "p" "q").Valid := by decide +kernel
  have himport : importOsSessionJson (fun _ => "")
      (fun _ => .ok (exportOsSessionJson (twoEditors "p" "q"))) "" = _ :=
    hvalid.import_export rfl rfl
  refine (close_minimize_frame_iff himport "a").1.mpr fun window _ d hd _ => ?_
  rw [mem_singleton.mp hd]
  decide

/-- With one id for both panes, closing one editor loses the other. -/
theorem close_loses_other_pane :
    importOsSessionJson (fun _ => "") (fun _ => .ok (exportOsSessionJson (twoEditors "p" "p")))
        "" = .ok (sanitizeSessionForPersistence (twoEditors "p" "p")) ∧
      ¬ OnlyChanges (sanitizeSessionForPersistence (twoEditors "p" "p"))
        ((sanitizeSessionForPersistence (twoEditors "p" "p")).closeWindow "a") "a" := by
  have hvalid : (twoEditors "p" "p").Valid := by decide +kernel
  refine ⟨hvalid.import_export rfl rfl, fun h => ?_⟩
  have hcount := h.trees _ mem_cons_self _ mem_cons_self rfl "b" (by decide)
  revert hcount
  decide +kernel

end

end OsSession

end DamHopper.Os
