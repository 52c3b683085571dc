import Mathlib.Data.List.Flatten
import DamHopper.Lib.Blocks
import DamHopper.Lib.Lineage
import DamHopper.Os.WindowOps

/-!
# Os — Trees

What the window operations do to a desktop's tile tree, said over its list of
panes. A tree is `Sound` when its panes have distinct ids, no item occurs twice,
and each pane has an active item among its items; then taking a window out
filters the items, and putting one in adds it.
-/

namespace DamHopper.Os

open List
open TileNode (panes? items?)

/-- The pane has an active item, and it is one of its items. -/
def TilePaneNode.Active {α : Type} (pane : TilePaneNode α) : Prop :=
  ∃ item ∈ pane.items, pane.active = some item

instance {α : Type} [DecidableEq α] (pane : TilePaneNode α) : Decidable pane.Active :=
  by delta TilePaneNode.Active; infer_instance

theorem TilePaneNode.Active.mem {α : Type} {pane : TilePaneNode α} (h : pane.Active) {x : α}
    (hx : pane.active = some x) : x ∈ pane.items := by
  obtain ⟨y, hy, hactive⟩ := h
  rwa [Option.some.inj (hx.symm.trans hactive)]

theorem filter_ne_of_notMem {α : Type} [DecidableEq α] {l : List α} {x : α} (h : x ∉ l) :
    l.filter (· ≠ x) = l := by
  refine filter_eq_self.mpr fun y hy => ?_
  rw [decide_eq_true_eq]
  rintro rfl
  exact h hy

namespace TileNode

section

variable {α : Type}

structure Sound (tree : Option (TileNode α)) : Prop where
  ids : ((panes? tree).map (·.id)).Nodup
  items : (items? tree).Nodup
  active : ∀ pane ∈ panes? tree, pane.Active

theorem Sound.none : Sound (none : Option (TileNode α)) :=
  ⟨nodup_nil, nodup_nil, fun _ h => by cases h⟩

variable {x : α} {p q : TilePaneNode α}

theorem mem_items?_iff {tree : Option (TileNode α)} :
    x ∈ items? tree ↔ ∃ pane ∈ panes? tree, x ∈ pane.items := mem_flatMap

section

variable {tree : Option (TileNode α)} (h : Sound tree) (hp : p ∈ panes? tree)
include h hp

theorem Sound.pane_unique (hq : q ∈ panes? tree) (hx : x ∈ p.items) (hx' : x ∈ q.items) : p = q :=
  block_unique h.items hp hq hx hx'

theorem Sound.pane_of_id (hq : q ∈ panes? tree) (hid : p.id = q.id) : p = q :=
  inj_on_of_nodup_map h.ids hp hq hid

theorem Sound.pane_nodup : p.items.Nodup := (nodup_flatMap.mp h.items).1 p hp

end

/-! ## Changing one pane -/

theorem ids_updateTilePane (tree : TileNode α) (paneId : String)
    (updater : TilePaneNode α → TilePaneNode α) (hid : ∀ p, (updater p).id = p.id) :
    (tree.updateTilePane paneId updater).collectTilePanes.map (·.id) =
      tree.collectTilePanes.map (·.id) := by
  rw [collectTilePanes_updateTilePane, map_map]
  refine map_congr_left fun p _ => ?_
  simp only [Function.comp_apply]
  split
  · exact hid p
  · rfl

variable {tree : TileNode α} {paneId : String}

/-- Changing a pane, whichever of that id, so that it keeps its id and has an active item. -/
theorem Sound.update (h : Sound (some tree))
    {updater : TilePaneNode α → TilePaneNode α} (hid : ∀ p, (updater p).id = p.id)
    (hitems : (items? (some (tree.updateTilePane paneId updater))).Nodup)
    (hactive : ∀ p ∈ tree.collectTilePanes, p.id = paneId → (updater p).Active) :
    Sound (some (tree.updateTilePane paneId updater)) := by
  refine ⟨?_, hitems, ?_⟩
  · rw [panes?, Option.elim, ids_updateTilePane tree paneId updater hid]
    exact h.ids
  · rw [panes?, Option.elim, collectTilePanes_updateTilePane]
    refine forall_mem_map.mpr fun p hp => ?_
    split_ifs with hown
    · exact hactive p hp hown
    · exact h.active p hp

theorem Sound.activate (h : Sound (some tree)) (hp : p ∈ tree.collectTilePanes) (hx : x ∈ p.items) :
    Sound (some (tree.updateTilePane p.id fun q => { q with active := some x })) ∧
      items? (some (tree.updateTilePane p.id fun q => { q with active := some x })) =
        items? (some tree) := by
  have hitems : items? (some (tree.updateTilePane p.id fun q => { q with active := some x }))
      = items? (some tree) := by
    simp only [items?, panes?, Option.elim, collectTilePanes_updateTilePane, flatMap_map]
    refine flatMap_congr fun q _ => ?_
    split <;> rfl
  refine ⟨h.update (fun _ => rfl) (hitems ▸ h.items) fun q hq hid => ?_, hitems⟩
  rw [h.pane_of_id hq hp hid]
  exact ⟨x, hx, rfl⟩

theorem Sound.removePane (h : Sound (some tree)) (paneId : String) :
    Sound (tree.removeTilePane paneId) := by
  have hsub : (tree.collectTilePanes.filter fun q => q.id ≠ paneId).Sublist
      tree.collectTilePanes := filter_sublist
  refine ⟨?_, ?_, ?_⟩
  · rw [panes?_removeTilePane]
    exact h.ids.sublist (hsub.map _)
  · rw [items?, panes?_removeTilePane]
    exact h.items.sublist (hsub.flatMap _)
  · intro q hq
    rw [panes?_removeTilePane] at hq
    exact h.active q (mem_of_mem_filter hq)

/-! ## Finding and dropping items -/

theorem findTilePaneById_some (h : tree.findTilePaneById paneId = some p) :
    p ∈ tree.collectTilePanes ∧ p.id = paneId := by
  refine ⟨mem_of_find?_eq_some h, ?_⟩
  simpa using find?_some h

variable [DecidableEq α]

theorem findTilePaneContaining_some (h : tree.findTilePaneContaining (· = x) = some p) :
    p ∈ tree.collectTilePanes ∧ x ∈ p.items := by
  refine ⟨mem_of_find?_eq_some h, ?_⟩
  simpa using find?_some h

theorem findTilePaneContaining_none (h : tree.findTilePaneContaining (· = x) = none) :
    x ∉ items? (some tree) := by
  simpa [findTilePaneContaining, items?, panes?] using h

theorem normalizeActiveItem_mem {items : List α} (h : items ≠ []) (active : Option α) :
    ∃ item ∈ items, normalizeActiveItem items active = some item := by
  obtain ⟨x, rest, rfl⟩ := exists_cons_of_ne_nil h
  unfold normalizeActiveItem
  split
  · split_ifs with hmem
    · exact ⟨_, hmem, rfl⟩
    · exact ⟨x, mem_cons_self, rfl⟩
  · exact ⟨x, mem_cons_self, rfl⟩

theorem dropItem_id (item : α) (pane : TilePaneNode α) : (dropItem item pane).id = pane.id := by
  unfold dropItem
  split <;> rfl

theorem dropItem_items (item : α) (pane : TilePaneNode α) :
    (dropItem item pane).items = pane.items.filter (· ≠ item) := by
  unfold dropItem
  split_ifs with h
  · rfl
  exact (filter_ne_of_notMem h).symm

/-- What is left of a pane with more than one item still has an active item. -/
theorem dropItem_active {item : α} {pane : TilePaneNode α} (hactive : pane.Active)
    (hnodup : pane.items.Nodup) (hlen : 1 < pane.items.length) :
    (dropItem item pane).Active := by
  unfold dropItem
  split
  · refine normalizeActiveItem_mem (fun hnil => ?_) _
    have hall : ∀ x ∈ pane.items, x = item := by
      simpa using filter_eq_nil_iff.mp hnil
    have hsub : pane.items.length ≤ 1 := by
      rw [eq_replicate_of_mem hall, nodup_replicate] at hnodup
      exact hnodup
    omega
  · exact hactive

/-! ## Taking an item out, putting one in -/

/-- Dropping an item from its pane filters the items of the tree; the panes need
not have distinct ids, for a pane without the item is left alone. -/
theorem items?_removeItemFromTilePane (h : (items? (some tree)).Nodup)
    (hp : p ∈ tree.collectTilePanes) (hx : x ∈ p.items) :
    items? (some (tree.removeItemFromTilePane p.id x)) = (items? (some tree)).filter (· ≠ x) := by
  rw [removeItemFromTilePane, items?, panes?, Option.elim,
    collectTilePanes_updateTilePane, flatMap_map, items?, filter_flatMap]
  refine flatMap_congr fun q hq => ?_
  split_ifs with hid
  · exact dropItem_items x q
  exact (filter_ne_of_notMem fun hx' =>
    hid (congrArg TilePaneNode.id (block_unique h hq hp hx' hx))).symm

theorem Sound.removeItem (h : Sound (some tree)) (hp : p ∈ tree.collectTilePanes)
    (hx : x ∈ p.items) (hlen : 1 < p.items.length) :
    Sound (some (tree.removeItemFromTilePane p.id x)) := by
  have hitems : (items? (some (tree.removeItemFromTilePane p.id x))).Nodup := by
    rw [items?_removeItemFromTilePane h.items hp hx]
    exact h.items.filter _
  refine h.update (dropItem_id x) hitems fun q hq hid => ?_
  rw [h.pane_of_id hq hp hid]
  exact dropItem_active (h.active p hp) (h.pane_nodup hp) hlen

/-- Removing a pane by its id takes out its one item, if no other pane has that id. -/
theorem items?_removeTilePane_of_own (hnodup : (items? (some tree)).Nodup)
    (hp : p ∈ tree.collectTilePanes) (hitems : p.items = [x])
    (hown : ∀ q ∈ tree.collectTilePanes, q.id = p.id → q.items = [x]) :
    items? (tree.removeTilePane p.id) = (items? (some tree)).filter (· ≠ x) := by
  rw [items?, panes?_removeTilePane]
  refine flatMap_filter_filter (fun q hq hkeep => ?_) fun q hq hdrop => ?_
  · have hx : x ∈ p.items := by simp [hitems]
    rw [decide_eq_true_eq] at hkeep
    exact filter_ne_of_notMem fun hx' =>
      hkeep (congrArg TilePaneNode.id (block_unique hnodup hq hp hx' hx))
  · simp [hown q hq (by simpa using hdrop)]

theorem items?_removeTilePane (h : Sound (some tree)) (hp : p ∈ tree.collectTilePanes)
    (hitems : p.items = [x]) :
    items? (tree.removeTilePane p.id) = (items? (some tree)).filter (· ≠ x) :=
  items?_removeTilePane_of_own h.items hp hitems fun q hq hid => by
    rw [h.pane_of_id hq hp hid, hitems]

theorem reorderItems_perm (items : List α) (item : α) (index : Option Int) :
    (reorderItems items item index).Perm (item :: items.filter (· ≠ item)) := by
  refine perm_insertIdx _ _ ?_
  unfold clampIndex
  omega

theorem Sound.insertItem (h : Sound (some tree)) (hp : p ∈ tree.collectTilePanes)
    (hx : x ∉ items? (some tree)) (index : Option Int) :
    Sound (some (tree.insertItemIntoTilePane p.id x index)) ∧
      (items? (some (tree.insertItemIntoTilePane p.id x index))).Perm
        (x :: items? (some tree)) := by
  have hadd : (reorderItems p.items x index).Perm (x :: p.items) := by
    have hperm := reorderItems_perm p.items x index
    rwa [filter_ne_of_notMem fun hx' => hx (mem_items?_iff.mpr ⟨p, hp, hx'⟩)] at hperm
  have hitems : (items? (some (tree.insertItemIntoTilePane p.id x index))).Perm
      (x :: items? (some tree)) := by
    rw [insertItemIntoTilePane, items?, panes?, Option.elim, collectTilePanes_updateTilePane]
    exact flatMap_update_perm h.ids hp hadd
  refine ⟨h.update (fun _ => rfl) (hitems.nodup_iff.mpr (nodup_cons.mpr ⟨hx, h.items⟩))
    fun q _ _ => ?_, hitems⟩
  exact ⟨x, (reorderItems_perm q.items x index).mem_iff.mpr mem_cons_self, rfl⟩

theorem Sound.single (x : α) (paneId : String) :
    Sound (some (.pane (newTilePaneNode [x] (some x) paneId))) ∧
      items? (some (.pane (newTilePaneNode [x] (some x) paneId))) = [x] := by
  refine ⟨⟨?_, ?_, ?_⟩, ?_⟩ <;>
    simp [items?, panes?, collectTilePanes, newTilePaneNode, TilePaneNode.Active,
      normalizeActiveItem]

end

end TileNode

/-! ## The operations on a desktop's tree -/

open TileNode

section

variable {tree : Option (TileNode String)}

/-- **Taking a window out of a tree** filters its items. -/
theorem removeWindow_sound (h : Sound tree) (windowId : String) :
    Sound (removeWindowFromDesktopTree tree windowId) ∧
      items? (removeWindowFromDesktopTree tree windowId) = (items? tree).filter (· ≠ windowId) := by
  cases tree with
  | none => exact ⟨h, rfl⟩
  | some tree =>
    simp only [removeWindowFromDesktopTree]
    split
    next hfind => exact ⟨h, (filter_ne_of_notMem (findTilePaneContaining_none hfind)).symm⟩
    next p hfind =>
      obtain ⟨hp, hx⟩ := findTilePaneContaining_some hfind
      split_ifs with hlen
      · exact ⟨h.removeItem hp hx hlen, items?_removeItemFromTilePane h.items hp hx⟩
      have hone := eq_singleton_of_mem (not_lt.mp hlen) hx
      exact ⟨h.removePane p.id, items?_removeTilePane h hp hone⟩

/-- **Putting a window into a tree** adds it to the items. -/
theorem addWindow_sound (h : Sound tree) {windowId : String}
    (hnew : windowId ∉ items? tree) (paneId : String) :
    Sound (some (addWindowToDesktopTree tree windowId paneId)) ∧
      (items? (some (addWindowToDesktopTree tree windowId paneId))).Perm
        (windowId :: items? tree) := by
  cases tree with
  | none => exact ⟨(Sound.single windowId paneId).1, .refl _⟩
  | some tree =>
    simp only [addWindowToDesktopTree]
    split
    next p hfirst => exact h.insertItem (mem_of_mem_head? hfirst) hnew none
    next hnil => exact absurd (head?_eq_none_iff.mp hnil) (collectTilePanes_ne_nil tree)

theorem activatePane_sound (h : Sound tree) (windowId : String) :
    Sound (OsSession.activatePane tree windowId) ∧
      items? (OsSession.activatePane tree windowId) = items? tree := by
  cases tree with
  | none => exact ⟨h, rfl⟩
  | some tree =>
    simp only [OsSession.activatePane, Option.map_some]
    split
    next p hfind =>
      obtain ⟨hp, hx⟩ := findTilePaneContaining_some hfind
      split
      · exact h.activate hp hx
      · exact ⟨h, rfl⟩
    · exact ⟨h, rfl⟩

end

end DamHopper.Os
