import DamHopper.Os.Acceptance

/-!
# Os — Labels

The part of a valid session that is not placement: every node of a tree has an id, and
no pane has the empty id as its active item. Each tree operation is described by when it
keeps that; the empty window id is what can go wrong, for a pane whose active item is
empty counts as one without an active item.
-/

namespace DamHopper.Os

open List
open TileNode (Sound items? panes?)

namespace TileNode

/-! ## Labels of nodes -/

section

variable {α : Type}
  {tree : TileNode α} {paneId : String}

theorem labelled_updateTilePane {updater : TilePaneNode α → TilePaneNode α}
    (hid : ∀ p, (updater p).id = p.id) :
    (tree.updateTilePane paneId updater).Labelled ↔ tree.Labelled := by
  induction tree with
  | pane node =>
    simp only [updateTilePane, Labelled]
    split
    · rw [hid]
    · rfl
  | split id direction sizes first second ih₁ ih₂ => simp only [updateTilePane, Labelled, ih₁, ih₂]

theorem labelled_removeTilePane (h : tree.Labelled) :
    ∀ t ∈ tree.removeTilePane paneId, t.Labelled := by
  induction tree with
  | pane node =>
    intro t ht
    unfold removeTilePane at ht
    split at ht
    · cases ht
    · cases ht
      exact h
  | split id direction sizes first second ih₁ ih₂ =>
    obtain ⟨hid, hpos₁, hpos₂, hfirst, hsecond⟩ := h
    intro t ht
    unfold removeTilePane at ht
    split at ht
    · cases ht
    next right _ hright =>
      cases ht
      exact ih₂ hsecond _ hright
    next left hleft _ =>
      cases ht
      exact ih₁ hfirst _ hleft
    next left right hleft hright =>
      cases ht
      exact ⟨hid, hpos₁, hpos₂, ih₁ hfirst _ hleft, ih₂ hsecond _ hright⟩

theorem labelled_replaceTileNode {replacement t : TileNode α} {targetId : String}
    (h : tree.Labelled) (hreplacement : replacement.Labelled)
    (ht : tree.replaceTileNode targetId replacement = some t) : t.Labelled := by
  induction tree generalizing t with
  | pane node =>
    unfold replaceTileNode at ht
    split at ht
    · cases ht
      exact hreplacement
    · cases ht
  | split id direction sizes first second ih₁ ih₂ =>
    obtain ⟨hid, hpos₁, hpos₂, hfirst, hsecond⟩ := h
    unfold replaceTileNode at ht
    split at ht
    · cases ht
      exact hreplacement
    split at ht
    next left hleft =>
      cases ht
      exact ⟨hid, hpos₁, hpos₂, ih₁ hfirst hleft, hsecond⟩
    · obtain ⟨right, hright, ⟨⟩⟩ := Option.map_eq_some_iff.mp ht
      exact ⟨hid, hpos₁, hpos₂, hfirst, ih₂ hsecond hright⟩

theorem Labelled.pane_id (h : tree.Labelled) : ∀ pane ∈ tree.collectTilePanes, pane.id ≠ "" := by
  induction tree with
  | pane node => exact forall_mem_singleton.mpr h
  | split id direction sizes first second ih₁ ih₂ =>
    obtain ⟨_, _, _, hfirst, hsecond⟩ := h
    exact forall_mem_append.mpr ⟨ih₁ hfirst, ih₂ hsecond⟩

end

/-! ## Named trees -/

/-- The nodes have ids, and the active items are not the empty id. -/
structure Named (tree : Option (TileNode String)) : Prop where
  labelled : ∀ t ∈ tree, t.Labelled
  active : ∀ pane ∈ panes? tree, pane.active ≠ some ""

/-- Taking the window out does not make the empty id the active item of its pane. -/
def LeavesNamed (tree : Option (TileNode String)) (windowId : String) : Prop :=
  ∀ pane ∈ panes? tree, pane.active = some windowId →
    (pane.items.filter (· ≠ windowId)).head? ≠ some ""

section

variable {tree : TileNode String} {p : TilePaneNode String} {x paneId : String}

theorem named_some_iff : Named (some tree) ↔
    tree.Labelled ∧ ∀ p ∈ tree.collectTilePanes, p.active ≠ some "" :=
  ⟨fun h => ⟨h.labelled tree rfl, h.active⟩, fun h => ⟨fun _ ht => Option.some.inj ht ▸ h.1, h.2⟩⟩

theorem named_update_iff {updater : TilePaneNode String → TilePaneNode String}
    (h : tree.Labelled) (hid : ∀ p, (updater p).id = p.id) :
    Named (some (tree.updateTilePane paneId updater)) ↔ ∀ p ∈ tree.collectTilePanes,
      (if p.id = paneId then updater p else p).active ≠ some "" := by
  rw [named_some_iff, labelled_updateTilePane hid, and_iff_right h,
    collectTilePanes_updateTilePane, forall_mem_map]

theorem named_updateTilePane_iff (h : Named (some tree)) (hs : Sound (some tree))
    (hp : p ∈ tree.collectTilePanes) {updater : TilePaneNode String → TilePaneNode String}
    (hid : ∀ p, (updater p).id = p.id) :
    Named (some (tree.updateTilePane p.id updater)) ↔ (updater p).active ≠ some "" := by
  rw [named_update_iff (h.labelled tree rfl) hid]
  constructor
  · intro hall
    simpa only [if_true] using hall p hp
  · intro hactive q hq
    split_ifs with hid'
    · rw [hs.pane_of_id hq hp hid']
      exact hactive
    · exact h.active q hq

theorem dropItem_named_iff (hactive : p.Active) (hnamed : p.active ≠ some "") :
    (dropItem x p).active ≠ some "" ↔
      (p.active = some x → (p.items.filter (· ≠ x)).head? ≠ some "") := by
  obtain ⟨active, hmem, hactive⟩ := hactive
  rw [hactive] at hnamed ⊢
  rw [Option.some.injEq]
  unfold dropItem
  by_cases hx : x ∈ p.items
  · simp only [if_pos hx, hactive, normalizeActiveItem, mem_filter, hmem, true_and,
      decide_eq_true_eq]
    by_cases heq : active = x
    · simp [heq]
    · rw [if_pos heq]
      exact iff_of_true hnamed fun h => absurd h heq
  · rw [if_neg hx, hactive]
    refine iff_of_true hnamed ?_
    rintro rfl
    exact absurd hmem hx

theorem Named.removePane (h : Named (some tree)) (paneId : String) :
    Named (tree.removeTilePane paneId) := by
  refine ⟨labelled_removeTilePane (h.labelled tree rfl), fun q hq => ?_⟩
  rw [panes?_removeTilePane] at hq
  exact h.active q (mem_of_mem_filter hq)

theorem named_insertItem_iff (h : Named (some tree)) (hs : Sound (some tree))
    (hp : p ∈ tree.collectTilePanes) (index : Option Int) :
    Named (some (tree.insertItemIntoTilePane p.id x index)) ↔ x ≠ "" := by
  rw [insertItemIntoTilePane, named_updateTilePane_iff h hs hp]
  · simp
  · exact fun _ => rfl

theorem named_single_iff (hid : paneId ≠ "") :
    Named (some (.pane (newTilePaneNode [x] (some x) paneId))) ↔ x ≠ "" := by
  rw [named_some_iff, Labelled, collectTilePanes, forall_mem_singleton]
  simp [newTilePaneNode, normalizeActiveItem, hid]

end

end TileNode

/-! ## The operations on a desktop's tree -/

open TileNode

section

variable {tree : Option (TileNode String)}

theorem removeWindow_named_iff (h : Named tree) (hs : Sound tree) (windowId : String) :
    Named (removeWindowFromDesktopTree tree windowId) ↔ LeavesNamed tree windowId := by
  cases tree with
  | none => exact iff_of_true h fun p hp => nomatch hp
  | some tree =>
    simp only [removeWindowFromDesktopTree]
    split
    next hfind =>
      refine iff_of_true h fun p hp hactive => ?_
      exact absurd (mem_items?_iff.mpr ⟨p, hp, (hs.active p hp).mem hactive⟩)
        (findTilePaneContaining_none hfind)
    rename_i p hfind
    obtain ⟨hp, hx⟩ := findTilePaneContaining_some hfind
    have honly : LeavesNamed (some tree) windowId ↔ (p.active = some windowId →
        (p.items.filter (· ≠ windowId)).head? ≠ some "") := by
      constructor
      · exact fun hl => hl p hp
      · intro hl q hq hactive
        have hsame := hs.pane_unique hq hp ((hs.active q hq).mem hactive) hx
        rw [hsame] at hactive ⊢
        exact hl hactive
    rw [honly]
    split_ifs with hlen
    · rw [removeItemFromTilePane, named_updateTilePane_iff h hs hp (dropItem_id windowId)]
      exact dropItem_named_iff (hs.active p hp) (h.active p hp)
    refine iff_of_true (h.removePane p.id) fun _ => ?_
    simp [eq_singleton_of_mem (not_lt.mp hlen) hx]

variable {windowId : String}

theorem labelled_removeWindow (h : ∀ t ∈ tree, t.Labelled) :
    ∀ t ∈ removeWindowFromDesktopTree tree windowId, t.Labelled := by
  cases tree with
  | none => exact h
  | some tree =>
    simp only [removeWindowFromDesktopTree]
    split
    · exact h
    split
    · rintro t ⟨⟩
      exact (labelled_updateTilePane (dropItem_id windowId)).mpr (h tree rfl)
    · exact labelled_removeTilePane (h tree rfl)

theorem addWindow_named_iff (h : Named tree) (hs : Sound tree) (windowId : String)
    {paneId : String} (hid : paneId ≠ "") :
    Named (some (addWindowToDesktopTree tree windowId paneId)) ↔ windowId ≠ "" := by
  cases tree with
  | none => exact named_single_iff hid
  | some tree =>
    simp only [addWindowToDesktopTree]
    split
    next p hfirst => exact named_insertItem_iff h hs (mem_of_mem_head? hfirst) none
    · exact named_single_iff hid

theorem activatePane_named_iff (h : Named tree) (hs : Sound tree) :
    Named (OsSession.activatePane tree windowId) ↔ (windowId ∈ items? tree → windowId ≠ "") := by
  cases tree with
  | none => exact iff_of_true h fun hmem => nomatch hmem
  | some tree =>
    simp only [OsSession.activatePane, Option.map_some]
    split
    next p hfind =>
      obtain ⟨hp, hx⟩ := findTilePaneContaining_some hfind
      have hmem : windowId ∈ items? (some tree) := mem_items?_iff.mpr ⟨p, hp, hx⟩
      split_ifs with hactive
      · rw [named_updateTilePane_iff h hs hp]
        · simp [hmem]
        · exact fun _ => rfl
      · rw [not_not] at hactive
        refine iff_of_true h fun _ => ?_
        rintro rfl
        exact h.active p hp hactive
    next hfind => exact iff_of_true h fun hmem => absurd hmem (findTilePaneContaining_none hfind)

end

/-! ## Sessions -/

/-- The data of a desktop is well formed. -/
structure DesktopChecked (d : OsDesktop) : Prop where
  context : ∀ ctx ∈ d.defaultCtx, ctx.Ok
  tree : Named d.tree

namespace OsSession

section

variable {s : OsSession} {windowId : String} {window : OsWindow}

theorem checked_iff : s.Checked ↔ (∀ id w, s.windows.get? id = some w → w.Ok s.desktopIds) ∧
      ∀ d ∈ s.desktops, DesktopChecked d := by
  constructor
  · intro h
    exact ⟨h.windows, fun d hd => ⟨h.contexts d hd, h.trees d hd, h.named d hd⟩⟩
  · rintro ⟨hwindows, hdesks⟩
    exact ⟨fun d hd => (hdesks d hd).context, hwindows, fun d hd => (hdesks d hd).tree.labelled,
      fun d hd => (hdesks d hd).tree.active⟩

variable {updater : OsDesktop → OsDesktop} {desktopId : String}

theorem checked_changed_iff (h : s.Checked) {s' : OsSession}
    (hdesktops : s'.desktops = Os.changeDesktop s.desktops desktopId updater)
    (hwindows : ∀ id w, s'.windows.get? id = some w → w.Ok s.desktopIds)
    (hid : ∀ d, (updater d).id = d.id) :
    s'.Checked ↔ ∀ d ∈ s.desktops, d.id = desktopId → DesktopChecked (updater d) := by
  have hids : s'.desktopIds = s.desktopIds := by
    rw [desktopIds, hdesktops]
    exact changeDesktop_ids s.desktops desktopId hid
  rw [checked_iff, hids, hdesktops]
  constructor
  · rintro ⟨_, hdesks⟩ d hd hdesk
    refine hdesks (updater d) ?_
    exact mem_map.mpr ⟨d, hd, if_pos hdesk⟩
  · intro hchanged
    refine ⟨hwindows, fun d' hd' => ?_⟩
    obtain ⟨d, hd, rfl⟩ := mem_map.mp hd'
    split_ifs with hdesk
    · exact hchanged d hd hdesk
    · exact (checked_iff.mp h).2 d hd

theorem checked_put_iff (h : s.Checked) (hw : window.Ok s.desktopIds) {active : String}
    (hid : ∀ d, (updater d).id = d.id) :
    Checked { activeDesktopId := active
              desktops := Os.changeDesktop s.desktops desktopId updater
              windows := s.windows.insert windowId window } ↔
      ∀ d ∈ s.desktops, d.id = desktopId → DesktopChecked (updater d) :=
  checked_changed_iff h rfl (AssocMap.forall_insert h.windows hw) hid

theorem checked_changeDesktop_iff (h : s.Checked) (hid : ∀ d, (updater d).id = d.id) :
    Checked (s.updateDesktop desktopId updater) ↔
      ∀ d ∈ s.desktops, d.id = desktopId → DesktopChecked (updater d) :=
  checked_changed_iff h rfl h.windows hid

end

end OsSession

end DamHopper.Os
