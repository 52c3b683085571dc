import DamHopper.Os.Labels

/-!
# Os — DockTrees

What `dockItemIntoTileTree` does to a tree. It takes the item out of a source pane,
which the caller may name and which need not hold the item, and puts it into the target
pane or beside it; beside means that the first node with the target's id is replaced,
be it the target pane or a split of the same id.

`Docked` says what is wanted: the item is in the tree once, every other item is there as
often as before, and the panes are in order.
-/

namespace DamHopper.Os.TileNode

open List

/-! ## Sources and targets -/

section

variable {α : Type}

def Holds (source : Option (TilePaneNode α)) (item : α) : Prop :=
  ∃ origin ∈ source, item ∈ origin.items

/-- The source pane has one item only and is another pane than the target: it is
collapsed. -/
def Collapses (source : Option (TilePaneNode α)) (targetPaneId : String) : Prop :=
  ∃ origin ∈ source, origin.id ≠ targetPaneId ∧ origin.items.length = 1

def IsPane : TileNode α → Prop
  | .pane _ => True
  | .split _ _ _ _ _ => False

/-- The tree without a collapsed source pane. -/
def withoutCollapsed (tree : TileNode α) (targetPaneId : String)
    (source : Option (TilePaneNode α)) : TileNode α :=
  match source with
  | none => tree
  | some origin =>
    if origin.id ≠ targetPaneId ∧ origin.items.length = 1 then
      (tree.removeTilePane origin.id).getD tree
    else tree

/-- The first node with the id is a pane, not a split. -/
def PaneFirst (tree : TileNode α) (paneId : String) : Prop :=
  ∀ node ∈ tree.firstNode paneId, node.IsPane

variable {paneId nodeId : String} {updater : TilePaneNode α → TilePaneNode α} {p : TilePaneNode α}
  {tree : TileNode α}

theorem updateTilePane_of_fixed
    (h : ∀ pane ∈ tree.collectTilePanes, pane.id = paneId → updater pane = pane) :
    tree.updateTilePane paneId updater = tree := by
  induction tree with
  | pane node =>
    rw [updateTilePane]
    split_ifs with hid
    · rw [h node (mem_singleton_self node) hid]
    · rfl
  | split id direction sizes first second ih₁ ih₂ =>
    rw [updateTilePane, ih₁ fun p hp => h p (mem_append_left _ hp),
      ih₂ fun p hp => h p (mem_append_right _ hp)]

theorem firstNode_updateTilePane (hid : ∀ p, (updater p).id = p.id) :
    (tree.updateTilePane paneId updater).firstNode nodeId =
      (tree.firstNode nodeId).map (·.updateTilePane paneId updater) := by
  induction tree with
  | pane node =>
    have hsame : (if node.id = paneId then updater node else node).id = node.id := by
      split
      · exact hid node
      · rfl
    rw [updateTilePane, firstNode, firstNode, hsame]
    split <;> rfl
  | split id direction sizes first second ih₁ ih₂ =>
    rw [updateTilePane, firstNode, firstNode, ih₁, ih₂]
    split
    · rfl
    · cases first.firstNode nodeId with
      | none | some node => rfl

theorem paneFirst_updateTilePane (hid : ∀ p, (updater p).id = p.id) :
    (tree.updateTilePane paneId updater).PaneFirst nodeId ↔ tree.PaneFirst nodeId := by
  rw [PaneFirst, PaneFirst, firstNode_updateTilePane hid]
  cases tree.firstNode nodeId with
  | none => exact Iff.rfl
  | some node =>
    cases node with
    | pane p | split id direction sizes first second => simp [updateTilePane, IsPane]

theorem isSome_firstNode (hp : p ∈ tree.collectTilePanes) :
    (tree.firstNode p.id).isSome = true := by
  induction tree with
  | pane node => rw [mem_singleton.mp hp, firstNode, if_pos rfl, Option.isSome_some]
  | split id direction sizes first second ih₁ ih₂ =>
    rw [firstNode]
    split
    · rfl
    · rw [Option.isSome_or, Bool.or_eq_true]
      exact (mem_append.mp hp).imp ih₁ ih₂

theorem firstNode_id {node : TileNode α} (h : tree.firstNode nodeId = some node) :
    node.id = nodeId := by
  induction tree with
  | pane p =>
    unfold firstNode at h
    split at h
    next hid =>
      cases h
      exact hid
    · cases h
  | split id direction sizes first second ih₁ ih₂ =>
    unfold firstNode at h
    split_ifs at h with hid
    · cases h
      exact hid
    · rcases Option.or_eq_some_iff.mp h with hfirst | ⟨_, hsecond⟩
      · exact ih₁ hfirst
      · exact ih₂ hsecond

theorem Sound.findTilePaneById (h : Sound (some tree)) (hp : p ∈ tree.collectTilePanes) :
    tree.findTilePaneById p.id = some p := by
  cases hfind : tree.findTilePaneById p.id with
  | none =>
    have hno := find?_eq_none.mp hfind p hp
    simp at hno
  | some q =>
    obtain ⟨hq, hid⟩ := findTilePaneById_some hfind
    rw [h.pane_of_id hq hp hid]

end

/-! ## Docked trees -/

/-- The item is docked: the result has it once, the other items as before, and its
panes are in order. -/
@[mk_iff] structure Docked (tree : Option (TileNode String)) (result : TileNode String)
    (item : String) : Prop where
  items : ∀ x, (items? (some result)).count x =
    if x = item then 1 else (items? tree).count x
  active : ∀ pane ∈ result.collectTilePanes, pane.Active
  named : Named (some result)

/-- Taking the item out of the pane does not make the empty id its active item. -/
def PaneLeavesNamed (pane : TilePaneNode String) (item : String) : Prop :=
  pane.active = some item → (pane.items.filter (· ≠ item)).head? ≠ some ""

variable {result : TileNode String}

/-- The tree before matters only for the other items. -/
theorem docked_congr {tree tree' : Option (TileNode String)}
    {item : String} (h : ∀ x ≠ item, (items? tree).count x = (items? tree').count x) :
    Docked tree result item ↔ Docked tree' result item := by
  have hitems : ∀ x, (if x = item then 1 else (items? tree).count x) =
      if x = item then 1 else (items? tree').count x := by
    intro x
    split_ifs with hx
    · rfl
    · exact h x hx
  simp only [docked_iff, hitems]

section

variable {tree : TileNode String} {origin t : TilePaneNode String} {item targetPaneId : String}

/-! ### Taking the item out of its source pane -/

theorem withoutSource_same (hs : Sound (some tree)) {source : Option (TilePaneNode String)}
    (hsource : ∀ p ∈ source, p ∈ tree.collectTilePanes)
    (hnot : ¬ Holds source item) (hkeep : ¬ Collapses source targetPaneId) :
    tree.withoutSource item targetPaneId source = tree := by
  cases source with
  | none => rfl
  | some p =>
    have hp := hsource p rfl
    have hcond : ¬ (p.id ≠ targetPaneId ∧ p.items.length = 1 ∧ 1 < tree.collectTilePanes.length) :=
      fun hc => hkeep ⟨p, rfl, hc.1, hc.2.1⟩
    rw [withoutSource, if_neg hcond]
    refine updateTilePane_of_fixed fun q hq hid => ?_
    rw [hs.pane_of_id hq hp hid]
    exact if_neg fun hitem => hnot ⟨p, rfl, hitem⟩

/-- A collapsed source pane is removed, and the target stays. -/
theorem withoutSource_collapsed (horigin : origin ∈ tree.collectTilePanes)
    (ht : t ∈ tree.collectTilePanes) (hne : origin.id ≠ t.id) (hlen : origin.items.length = 1)
    (item : String) :
    ∃ rest, tree.removeTilePane origin.id = some rest ∧
      tree.withoutSource item t.id (some origin) = rest ∧ t ∈ rest.collectTilePanes := by
  have hmany : 1 < tree.collectTilePanes.length := by
    by_contra hfew
    rw [eq_singleton_of_mem (not_lt.mp hfew) ht, mem_singleton] at horigin
    exact hne (by rw [horigin])
  have hpanes := panes?_removeTilePane tree origin.id
  cases hrest : tree.removeTilePane origin.id with
  | none =>
    have hall := (removeTilePane_eq_none_iff tree origin.id).mp hrest t ht
    exact absurd hall.symm hne
  | some rest =>
    refine ⟨rest, rfl, ?_, ?_⟩
    · rw [withoutSource, if_pos ⟨hne, hlen, hmany⟩, hrest]
      rfl
    · rw [hrest] at hpanes
      rw [show rest.collectTilePanes = _ from hpanes, mem_filter, decide_eq_true_eq]
      exact ⟨ht, Ne.symm hne⟩

/-- The working tree, once the item has been taken out of a pane that has it. -/
structure TakenOut (tree working : TileNode String) (origin t : TilePaneNode String)
    (item : String) : Prop where
  labelled : working.Labelled
  sound : Sound (some working)
  items : items? (some working) = (items? (some tree)).filter (· ≠ item)
  named : Named (some working) ↔ PaneLeavesNamed origin item
  first : working.PaneFirst t.id ↔ (tree.withoutCollapsed t.id (some origin)).PaneFirst t.id
  target : ∃ t' ∈ working.collectTilePanes, t'.id = t.id ∧ (origin.id ≠ t.id → t' = t)

theorem withoutSource_takenOut (hs : Sound (some tree)) (hn : Named (some tree))
    (horigin : origin ∈ tree.collectTilePanes) (hitem : item ∈ origin.items)
    (ht : t ∈ tree.collectTilePanes) (hown : origin.id = t.id → 1 < origin.items.length) :
    TakenOut tree (tree.withoutSource item t.id (some origin)) origin t item := by
  by_cases hcollapse : origin.id ≠ t.id ∧ origin.items.length = 1
  · obtain ⟨rest, hrest, heq, hmem⟩ :=
      withoutSource_collapsed horigin ht hcollapse.1 hcollapse.2 item
    have hone := eq_singleton_of_mem hcollapse.2.le hitem
    rw [heq]
    refine ⟨(hn.removePane origin.id).labelled rest hrest, hrest ▸ hs.removePane origin.id,
      ?_, ?_, ?_, t, hmem, rfl, fun _ => rfl⟩
    · rw [← hrest]
      exact items?_removeTilePane hs horigin hone
    · refine iff_of_true (hrest ▸ hn.removePane origin.id) fun _ => ?_
      simp [hone]
    · simp [withoutCollapsed, if_pos hcollapse, hrest]
  · have hlen : 1 < origin.items.length := by
      have hpos := length_pos_of_mem hitem
      by_cases hid : origin.id = t.id
      · exact hown hid
      · have hne : origin.items.length ≠ 1 := fun hone => hcollapse ⟨hid, hone⟩
        omega
    have heq : tree.withoutSource item t.id (some origin) =
        tree.removeItemFromTilePane origin.id item := by
      rw [withoutSource, if_neg fun hc => hcollapse ⟨hc.1, hc.2.1⟩]
    have hpanes := collectTilePanes_updateTilePane tree origin.id (dropItem item)
    rw [heq]
    refine ⟨(labelled_updateTilePane (dropItem_id item)).mpr (hn.labelled tree rfl),
      hs.removeItem horigin hitem hlen, items?_removeItemFromTilePane hs.items horigin hitem,
      ?_, ?_, ?_⟩
    · rw [removeItemFromTilePane, named_updateTilePane_iff hn hs horigin (dropItem_id item)]
      exact dropItem_named_iff (hs.active origin horigin) (hn.active origin horigin)
    · rw [withoutCollapsed, if_neg hcollapse]
      exact paneFirst_updateTilePane (dropItem_id item)
    · refine ⟨if t.id = origin.id then dropItem item t else t, ?_, ?_, fun hne => ?_⟩
      · rw [removeItemFromTilePane, hpanes]
        exact mem_map.mpr ⟨t, ht, rfl⟩
      · split
        · exact dropItem_id item t
        · rfl
      · exact if_neg (Ne.symm hne)

/-- Collapsing a pane that does not have the item loses the item it has, unless that is put
back. -/
theorem not_docked_of_collapses (hs : Sound (some tree)) {source : Option (TilePaneNode String)}
    (hsource : ∀ p ∈ source, p ∈ tree.collectTilePanes) (hnot : ¬ Holds source item)
    (hcollapse : Collapses source t.id) (ht : t ∈ tree.collectTilePanes)
    (hresult : ∀ working, tree.withoutSource item t.id source = working →
      Sound (some working) → t ∈ working.collectTilePanes →
      ∀ y ≠ item, y ∉ items? (some working) → (items? (some result)).count y = 0) :
    ¬ Docked (some tree) result item := by
  intro hd
  obtain ⟨origin, rfl, hne, hlen⟩ := hcollapse
  have horigin := hsource origin rfl
  obtain ⟨rest, hrest, heq, hmem⟩ := withoutSource_collapsed horigin ht hne hlen item
  obtain ⟨y, hy⟩ := length_eq_one_iff.mp hlen
  have hyitem : y ∈ origin.items := by simp [hy]
  have hyne : y ≠ item := fun hsame => hnot ⟨origin, rfl, hsame ▸ hyitem⟩
  have hitems := items?_removeTilePane hs horigin hy
  rw [hrest] at hitems
  have hlost := hresult rest heq (hrest ▸ hs.removePane origin.id) hmem y hyne (by simp [hitems])
  rw [hd.items y, if_neg hyne, count_eq_zero] at hlost
  exact hlost (mem_items?_iff.mpr ⟨origin, horigin, hyitem⟩)

/-! ### Into the target pane -/

variable {index : Option Int}

theorem reorderItems_count {items : List String} {x : String} :
    (reorderItems items item index).count x = if x = item then 1 else items.count x := by
  rw [(reorderItems_perm items item index).count_eq, count_cons]
  by_cases hx : x = item
  · subst hx
    have hnot : x ∉ items.filter (· ≠ x) := by simp
    rw [count_eq_zero_of_not_mem hnot]
    simp
  · rw [count_filter (by simpa using hx)]
    simp [hx, Ne.symm hx]

theorem insertItem_count (hs : Sound (some tree)) (ht : t ∈ tree.collectTilePanes) (item : String)
    (index : Option Int) (x : String) :
    (items? (some (tree.insertItemIntoTilePane t.id item index))).count x + t.items.count x =
      (items? (some tree)).count x + if x = item then 1 else t.items.count x := by
  rw [← reorderItems_count, insertItemIntoTilePane, items?, panes?,
    Option.elim, collectTilePanes_updateTilePane]
  exact count_flatMap_update hs.ids ht

theorem insertItem_active (hs : Sound (some tree)) {paneId : String} :
    ∀ pane ∈ (tree.insertItemIntoTilePane paneId item index).collectTilePanes, pane.Active := by
  rw [insertItemIntoTilePane, collectTilePanes_updateTilePane]
  refine forall_mem_map.mpr fun q hq => ?_
  split
  · refine ⟨item, ?_, rfl⟩
    exact (reorderItems_perm q.items item index).mem_iff.mpr mem_cons_self
  · exact hs.active q hq

/-- The other panes need names, the target gets its name from the item. -/
theorem insertItem_named_iff (hl : tree.Labelled) (ht : t ∈ tree.collectTilePanes) :
    Named (some (tree.insertItemIntoTilePane t.id item index)) ↔
      item ≠ "" ∧ ∀ p ∈ tree.collectTilePanes, p.id ≠ t.id → p.active ≠ some "" := by
  rw [insertItemIntoTilePane, named_update_iff hl]
  · constructor
    · intro hall
      refine ⟨by simpa using hall t ht, fun p hp hid => ?_⟩
      simpa only [if_neg hid] using hall p hp
    · rintro ⟨hitem, hothers⟩ p hp
      split_ifs with hid
      · simpa using hitem
      · exact hothers p hp hid
  · exact fun _ => rfl

/-- **Into a pane** of a tree that has the item there or nowhere. -/
theorem insertItem_docked_iff (hs : Sound (some tree)) (ht : t ∈ tree.collectTilePanes) :
    Docked (some tree) (tree.insertItemIntoTilePane t.id item index) item ↔
      Named (some (tree.insertItemIntoTilePane t.id item index)) ∧
        (item ∉ items? (some tree) ∨ item ∈ t.items) := by
  have hcount := insertItem_count hs ht item index
  have hsub : item ∈ t.items → item ∈ items? (some tree) := fun hmem =>
    mem_items?_iff.mpr ⟨t, ht, hmem⟩
  have hself := hcount item
  rw [if_pos rfl, hs.items.count, (hs.pane_nodup ht).count] at hself
  constructor
  · intro hd
    refine ⟨hd.named, ?_⟩
    have hone := hd.items item
    rw [if_pos rfl] at hone
    by_contra hboth
    rw [not_or, not_not] at hboth
    rw [if_pos hboth.1, if_neg hboth.2] at hself
    omega
  · rintro ⟨hn, hplace⟩
    refine ⟨fun x => ?_, insertItem_active hs, hn⟩
    split_ifs with hx
    · subst hx
      rcases hplace with hno | hyes
      · rw [if_neg hno, if_neg (mt hsub hno)] at hself
        omega
      · rw [if_pos (hsub hyes), if_pos hyes] at hself
        omega
    · have hother := hcount x
      rw [if_neg hx] at hother
      omega

/-! ### Beside the target pane -/

/-- The first node with the target's id makes room for the target pane and a new pane
with the item. -/
structure SplitAt (tree result : TileNode String) (t : TilePaneNode String)
    (item newPaneId : String) (node : TileNode String)
    (before stretch after : List (TilePaneNode String)) : Prop where
  first : tree.firstNode t.id = some node
  old : tree.collectTilePanes = before ++ node.collectTilePanes ++ after
  new : result.collectTilePanes = before ++ stretch ++ after
  perm : stretch.Perm [t, newTilePaneNode [item] (some item) newPaneId]

theorem splitTilePaneWithItem_splitAt (hs : Sound (some tree)) (ht : t ∈ tree.collectTilePanes)
    (edge : DockEdge) (item newPaneId splitId : String) :
    (∃ node before stretch after,
      SplitAt tree (tree.splitTilePaneWithItem t.id edge item newPaneId splitId) t item
        newPaneId node before stretch after) ∧
      (tree.Labelled → newPaneId ≠ "" → splitId ≠ "" →
        (tree.splitTilePaneWithItem t.id edge item newPaneId splitId).Labelled) := by
  obtain ⟨node, hnode⟩ := Option.isSome_iff_exists.mp (isSome_firstNode ht)
  have hplace : ∀ splitNode : TileNode String,
      splitNode.collectTilePanes.Perm [t, newTilePaneNode [item] (some item) newPaneId] →
      (tree.Labelled → newPaneId ≠ "" → splitId ≠ "" → splitNode.Labelled) →
      (∃ node before stretch after, SplitAt tree ((tree.replaceTileNode t.id splitNode).getD tree)
        t item newPaneId node before stretch after) ∧
      (tree.Labelled → newPaneId ≠ "" → splitId ≠ "" →
        ((tree.replaceTileNode t.id splitNode).getD tree).Labelled) := by
    intro splitNode hperm hlabelled
    obtain ⟨result, before, after, hresult, hold, hnew⟩ :=
      replaceTileNode_of_firstNode splitNode hnode
    rw [hresult]
    exact ⟨⟨node, before, _, after, hnode, hold, hnew, hperm⟩, fun hl hpane hsplit =>
      labelled_replaceTileNode hl (hlabelled hl hpane hsplit) hresult⟩
  simp only [splitTilePaneWithItem, hs.findTilePaneById ht]
  split
  · exact hplace _ (List.Perm.swap _ _ _) fun hl hpane hsplit =>
      ⟨hsplit, by norm_num, by norm_num, hpane, hl.pane_id t ht⟩
  · exact hplace _ (List.Perm.refl _) fun hl hpane hsplit =>
      ⟨hsplit, by norm_num, by norm_num, hl.pane_id t ht, hpane⟩

/-- The items of a pane and of one that has the item only. -/
theorem two_panes_count {panes : List (TilePaneNode String)} {q : TilePaneNode String}
    (hperm : panes.Perm [t, q]) (hq : q.items = [item]) (x : String) :
    (panes.flatMap (·.items)).count x = t.items.count x + if x = item then 1 else 0 := by
  rw [(hperm.flatMap_right _).count_eq]
  simp only [flatMap_cons, hq]
  by_cases hx : x = item
  · simp [hx]
  · simp [hx, Ne.symm hx]

theorem newPane_active {newPaneId : String} :
    (newTilePaneNode [item] (some item) newPaneId).active = some item := by
  simp [newTilePaneNode, normalizeActiveItem]

/-- A node that is not a pane has more than one. -/
theorem one_lt_panes_of_not_isPane {node : TileNode String} (h : ¬ node.IsPane) :
    1 < node.collectTilePanes.length := by
  cases node with
  | pane p => exact absurd trivial h
  | split id direction sizes first second =>
    have h₁ := length_pos_of_ne_nil (collectTilePanes_ne_nil first)
    have h₂ := length_pos_of_ne_nil (collectTilePanes_ne_nil second)
    rw [collectTilePanes, length_append]
    omega

namespace SplitAt

variable {result node : TileNode String} {before stretch after : List (TilePaneNode String)}
  {newPaneId : String}

theorem count (h : SplitAt tree result t item newPaneId node before stretch after) (x : String) :
    (items? (some result)).count x + (items? (some node)).count x =
      (items? (some tree)).count x + t.items.count x + if x = item then 1 else 0 := by
  have hnew : (newTilePaneNode [item] (some item) newPaneId).items = [item] := rfl
  have hstretch := two_panes_count h.perm hnew x
  simp only [items?, panes?, Option.elim, h.old, h.new, flatMap_append,
    count_append]
  omega

theorem mem_new (h : SplitAt tree result t item newPaneId node before stretch after) :
    newTilePaneNode [item] (some item) newPaneId ∈ result.collectTilePanes := by
  rw [h.new, mem_append, mem_append, h.perm.mem_iff]
  simp

variable {p : TilePaneNode String}

section

variable (h : SplitAt tree result t item newPaneId node before stretch after)
include h

theorem mem_node (hp : p ∈ node.collectTilePanes) : p ∈ tree.collectTilePanes := by
  rw [h.old]
  exact mem_append_left _ (mem_append_right _ hp)

theorem mem_result (ht : t ∈ tree.collectTilePanes) (hp : p ∈ result.collectTilePanes) :
    p ∈ tree.collectTilePanes ∨ p = newTilePaneNode [item] (some item) newPaneId := by
  rw [h.new, mem_append, mem_append, h.perm.mem_iff] at hp
  rcases hp with (hp | hp) | hp
  · rw [h.old]
    exact .inl (mem_append_left _ (mem_append_left _ hp))
  · rcases mem_cons.mp hp with rfl | hp
    · exact .inl ht
    · exact .inr (mem_singleton.mp hp)
  · rw [h.old]
    exact .inl (mem_append_right _ hp)

section

variable (hs : Sound (some tree)) (ht : t ∈ tree.collectTilePanes)
include hs ht

theorem panes_of_isPane (hpane : node.IsPane) : node.collectTilePanes = [t] := by
  cases node with
  | split id direction sizes first second => exact hpane.elim
  | pane p =>
    have hp := h.mem_node (mem_singleton_self p)
    rw [collectTilePanes, hs.pane_of_id hp ht (firstNode_id h.first)]

/-- A split that makes room without loss has one other pane than the target, and that
pane has the item only. -/
theorem only_other_pane (hnode : ¬ node.IsPane) (hitem : item ∉ t.items)
    (hcount : ∀ x ≠ item, (items? (some result)).count x = (items? (some tree)).count x) :
    ∃ q, q.items = [item] ∧ node.collectTilePanes.Perm [t, q] := by
  have hkept : ∀ x ≠ item, (items? (some node)).count x = t.items.count x := by
    intro x hx
    have h₁ := h.count x
    have h₂ := hcount x hx
    rw [if_neg hx] at h₁
    omega
  -- the target pane has an item, and only the target pane can bring it into the node
  have hmem : t ∈ node.collectTilePanes := by
    obtain ⟨y, hy, _⟩ := hs.active t ht
    have hne : y ≠ item := by
      rintro rfl
      exact hitem hy
    have hpos : 0 < (items? (some node)).count y := by
      rw [hkept y hne]
      exact count_pos_iff.mpr hy
    obtain ⟨q, hq, hyq⟩ := mem_items?_iff.mp (count_pos_iff.mp hpos)
    rwa [← hs.pane_unique (h.mem_node hq) ht hyq hy]
  obtain ⟨left, right, hsplit⟩ := append_of_mem hmem
  have hperm : node.collectTilePanes.Perm (t :: (left ++ right)) := by
    rw [hsplit]
    exact perm_middle
  have hflat : (items? (some node)).Perm (t.items ++ (left ++ right).flatMap (·.items)) :=
    hperm.flatMap_right fun q : TilePaneNode String => q.items
  have hnodup : ((left ++ right).flatMap (·.items)).Nodup := by
    have hall := hs.items
    simp only [items?, panes?, Option.elim, h.old, flatMap_append] at hall
    have hnode := (nodup_append.mp (nodup_append.mp hall).1).2.1
    exact (nodup_append.mp (hflat.nodup_iff.mp hnode)).2.1
  have hne : left ++ right ≠ [] := by
    intro hnil
    have hmany := one_lt_panes_of_not_isPane hnode
    rw [hperm.length_eq, hnil] at hmany
    simp at hmany
  have hfull : ∀ q ∈ left ++ right, q.items ≠ [] := by
    intro q hq
    have hin := hperm.mem_iff.mpr (mem_cons_of_mem _ hq)
    obtain ⟨y, hy, _⟩ := hs.active q (h.mem_node hin)
    exact ne_nil_of_mem hy
  have hothers : ∀ q ∈ left ++ right, ∀ y ∈ q.items, y = item := by
    intro q hq y hy
    by_contra hyne
    have hpos : 0 < ((left ++ right).flatMap (·.items)).count y :=
      count_pos_iff.mpr (mem_flatMap.mpr ⟨q, hq, hy⟩)
    have heq := hflat.count_eq y
    rw [count_append, hkept y hyne] at heq
    omega
  obtain ⟨q, hq, hqitems⟩ := single_block_of_forall_eq hnodup hne hfull hothers
  rw [hq] at hperm
  exact ⟨q, hqitems, hperm⟩

/-- The panes of the result are in order if those of the tree are. -/
theorem inOrder (hl : result.Labelled) (hactive : ∀ p ∈ tree.collectTilePanes, p.active ≠ some "")
    (hitem : item ≠ "") :
    (∀ p ∈ result.collectTilePanes, p.Active) ∧ Named (some result) := by
  refine ⟨fun p hp => ?_, named_some_iff.mpr ⟨hl, fun p hp => ?_⟩⟩
  · rcases h.mem_result ht hp with hp | rfl
    · exact hs.active p hp
    · exact ⟨item, mem_singleton_self item, newPane_active⟩
  · rcases h.mem_result ht hp with hp | rfl
    · exact hactive p hp
    · rw [newPane_active]
      simpa using hitem

end

theorem ne_empty (hn : Named (some result)) : item ≠ "" := by
  have hactive := hn.active _ h.mem_new
  rw [newPane_active] at hactive
  simpa using hactive

end

end SplitAt

/-- The first node with the target's id has one other pane than the target, and that
pane has the item only. -/
def ReplacesParent (tree : TileNode String) (t : TilePaneNode String) (item : String) :
    Prop :=
  ∃ node ∈ tree.firstNode t.id, ∃ q : TilePaneNode String, q.items = [item] ∧
    node.collectTilePanes.Perm [t, q]

theorem ReplacesParent.mem (h : tree.ReplacesParent t item) : item ∈ items? (some tree) := by
  obtain ⟨node, hnode, q, hq, hperm⟩ := h
  obtain ⟨_, before, after, _, hold, _⟩ := replaceTileNode_of_firstNode node hnode
  refine mem_items?_iff.mpr ⟨q, ?_, by simp [hq]⟩
  rw [panes?, Option.elim, hold, mem_append, mem_append, hperm.mem_iff]
  simp

/-- **Beside a pane**: what makes room for the item is the target or a split that holds
nothing but the target and the item. -/
theorem splitItem_docked_iff (hl : tree.Labelled) (hs : Sound (some tree))
    (ht : t ∈ tree.collectTilePanes) (edge : DockEdge) (item : String)
    (newPaneId splitId : Uuid) : Docked (some tree)
        (tree.splitTilePaneWithItem t.id edge item newPaneId.value splitId.value) item ↔
      item ≠ "" ∧ (∀ p ∈ tree.collectTilePanes, p.active ≠ some "") ∧
        (item ∉ items? (some tree) ∧ tree.PaneFirst t.id ∨ tree.ReplacesParent t item) := by
  obtain ⟨⟨node, before, stretch, after, hsplit⟩, hlabelled⟩ :=
    splitTilePaneWithItem_splitAt hs ht edge item newPaneId.value splitId.value
  have hfirst : tree.PaneFirst t.id ↔ node.IsPane := by simp [PaneFirst, hsplit.first]
  have hnode : node.IsPane → items? (some node) = t.items := fun hpane => by
    simp [items?, panes?, hsplit.panes_of_isPane hs ht hpane]
  have hself := hsplit.count item
  rw [if_pos rfl] at hself
  rw [hfirst]
  constructor
  · intro hd
    have hname := hsplit.ne_empty hd.named
    have hone := hd.items item
    rw [if_pos rfl] at hone
    have hroom : item ∉ items? (some tree) ∧ node.IsPane ∨
        ∃ q : TilePaneNode String, q.items = [item] ∧ node.collectTilePanes.Perm [t, q] := by
      by_cases hpane : node.IsPane
      · rw [hnode hpane] at hself
        exact .inl ⟨fun hmem => absurd (count_pos_iff.mpr hmem) (by omega), hpane⟩
      refine .inr (hsplit.only_other_pane hs ht hpane (fun hmem => ?_) fun x hx => ?_)
      · have hpos := count_pos_iff.mpr hmem
        have hsub : (items? (some node)).count item ≤ (items? (some tree)).count item := by
          simp only [items?, panes?, Option.elim, hsplit.old, flatMap_append, count_append]
          omega
        omega
      · rw [hd.items x, if_neg hx]
    refine ⟨hname, fun p hp => ?_, hroom.imp_right fun hother => ⟨node, hsplit.first, hother⟩⟩
    -- a pane that is not in the result is the one that had the item
    have hkept : p ∈ before ++ stretch ++ after ∨ p.items = [item] := by
      rw [hsplit.old, mem_append, mem_append] at hp
      rw [mem_append, mem_append, hsplit.perm.mem_iff]
      rcases hp with (hp | hp) | hp
      · exact .inl (.inl (.inl hp))
      · rcases hroom with ⟨_, hpane⟩ | ⟨q, hq, hperm⟩
        · rw [hsplit.panes_of_isPane hs ht hpane, mem_singleton] at hp
          simp [hp]
        · rcases mem_cons.mp (hperm.mem_iff.mp hp) with rfl | hp
          · simp
          · exact .inr (mem_singleton.mp hp ▸ hq)
      · exact .inl (.inr hp)
    rcases hkept with hkept | hitems
    · refine hd.named.active p ?_
      rwa [panes?, Option.elim, hsplit.new]
    · obtain ⟨y, hy, hactive⟩ := hs.active p hp
      rw [hitems, mem_singleton] at hy
      simpa [hactive, hy] using hname
  · rintro ⟨hname, hactive, hroom⟩
    have hl' := hlabelled hl newPaneId.ne_empty splitId.ne_empty
    obtain ⟨hresult, hnamed⟩ := hsplit.inOrder hs ht hl' hactive hname
    refine ⟨fun x => ?_, hresult, hnamed⟩
    have hcount := hsplit.count x
    rcases hroom with ⟨hitem, hpane⟩ | hparent
    · rw [hnode hpane] at hcount
      split_ifs with hx
      · rw [if_pos hx, hx, count_eq_zero_of_not_mem hitem] at hcount
        rw [hx]
        omega
      · rw [if_neg hx] at hcount
        omega
    · have hone := count_eq_one_of_mem hs.items hparent.mem
      obtain ⟨node', hnode', q, hq, hperm⟩ := hparent
      cases hsplit.first.symm.trans hnode'
      rw [show (items? (some node)).count x = _ from two_panes_count hperm hq x] at hcount
      split_ifs with hx
      · rw [hx] at hcount ⊢
        omega
      · omega

/-! ### Docking -/

/-- Docking into the target pane keeps everything: a source pane that is collapsed has
the item, the item is not left in a third pane, and the empty id does not become
active. -/
structure InsertSafe (tree : TileNode String) (item : String) (t : TilePaneNode String)
    (source : Option (TilePaneNode String)) : Prop where
  ne_empty : item ≠ ""
  collapse : Collapses source t.id → Holds source item
  once : Holds source item ∨ item ∉ items? (some tree) ∨ item ∈ t.items
  leaves : ∀ origin ∈ source, origin.id ≠ t.id → PaneLeavesNamed origin item

/-- Docking beside the target pane keeps everything: as for `InsertSafe`, and no split
with the id of the target is replaced in its place. -/
structure EdgeSafe (tree : TileNode String) (item : String) (t : TilePaneNode String)
    (source : Option (TilePaneNode String)) : Prop where
  ne_empty : item ≠ ""
  collapse : Collapses source t.id → Holds source item
  leaves : ∀ origin ∈ source, PaneLeavesNamed origin item
  room : (Holds source item ∨ item ∉ items? (some tree)) ∧
      (tree.withoutCollapsed t.id source).PaneFirst t.id ∨
    ¬ Holds source item ∧ tree.ReplacesParent t item

/-- When `dockItemIntoTileTree` keeps everything, for a target pane `t`. -/
def DockSafe (tree : TileNode String) (item : String) (t : TilePaneNode String)
    (source : Option (TilePaneNode String)) : TileDockTarget → Prop
  | .paneCenter _ =>
    InsertSafe tree item t source ∧ ∀ origin ∈ source, origin.id = t.id → item ∈ t.items
  | .tabIndex _ _ => InsertSafe tree item t source
  | .paneEdge _ _ =>
    (∃ origin ∈ source, origin.id = t.id ∧ origin.items.length ≤ 1) ∧
        item ∈ items? (some tree) ∨
      (∀ origin ∈ source, origin.id = t.id → 1 < origin.items.length) ∧
        EdgeSafe tree item t source

section

variable {source : Option (TilePaneNode String)}
  {paneId : String} {index : Option Int} {newPaneId splitId : Uuid}
  {sourcePaneId : Option String}

/-- Dropping the item first makes no difference to putting it in. -/
theorem insertItem_removeItem :
    (tree.removeItemFromTilePane paneId item).insertItemIntoTilePane paneId item index =
      tree.insertItemIntoTilePane paneId item index := by
  induction tree with
  | pane node =>
    simp only [removeItemFromTilePane, insertItemIntoTilePane, updateTilePane]
    by_cases hid : node.id = paneId
    · have hitems : reorderItems (dropItem item node).items item index =
          reorderItems node.items item index := by
        simp [reorderItems, dropItem_items]
      rw [if_pos hid, dropItem_id, if_pos hid, if_pos hid, hitems]
    · rw [if_neg hid]
  | split id direction sizes first second ih₁ ih₂ =>
    simp only [removeItemFromTilePane, insertItemIntoTilePane, updateTilePane] at *
    rw [ih₁, ih₂]

variable {working : TileNode String} {target : TileDockTarget}

section

variable (h : TakenOut tree working origin t item)
include h

theorem TakenOut.count :
    ∀ x ≠ item, (items? (some working)).count x = (items? (some tree)).count x := by
  intro x hx
  rw [h.items]
  exact count_filter (by simpa using hx)

theorem TakenOut.item_not_mem : item ∉ items? (some working) := by
  rw [h.items]
  simp

theorem TakenOut.leaves_iff :
    PaneLeavesNamed origin item ↔ ∀ p ∈ working.collectTilePanes, p.active ≠ some "" := by
  rw [← h.named, named_some_iff]
  exact and_iff_right h.labelled

end

theorem leaves_of_not_holds (hs : Sound (some tree))
    (hsource : ∀ p ∈ source, p ∈ tree.collectTilePanes) (hnot : ¬ Holds source item) :
    ∀ p ∈ source, PaneLeavesNamed p item :=
  fun p hp hactive => absurd ⟨p, hp, (hs.active p (hsource p hp)).mem hactive⟩ hnot

/-- **Docking into a pane.** -/
theorem insert_docked_iff (hn : Named (some tree)) (hs : Sound (some tree))
    (ht : t ∈ tree.collectTilePanes) (hsource : ∀ p ∈ source, p ∈ tree.collectTilePanes) :
    Docked (some tree)
        ((tree.withoutSource item t.id source).insertItemIntoTilePane t.id item index) item ↔
      InsertSafe tree item t source := by
  by_cases hholds : Holds source item
  · have hholds' := hholds
    obtain ⟨origin, rfl, hitem⟩ := hholds
    have horigin := hsource origin rfl
    by_cases hid : origin.id = t.id
    · have hsame : origin = t := hs.pane_of_id horigin ht hid
      subst hsame
      have heq : tree.withoutSource item origin.id (some origin) =
          tree.removeItemFromTilePane origin.id item := by
        rw [withoutSource, if_neg fun hc => hc.1 rfl]
      rw [heq, insertItem_removeItem, insertItem_docked_iff hs ht, named_insertItem_iff hn hs ht]
      constructor
      · rintro ⟨hname, _⟩
        refine ⟨hname, fun _ => hholds', .inl hholds', fun p hp hne => ?_⟩
        cases hp
        exact absurd rfl hne
      · intro hsafe
        exact ⟨hsafe.ne_empty, .inr hitem⟩
    · have hout := withoutSource_takenOut hs hn horigin hitem ht fun heq => absurd heq hid
      obtain ⟨t', ht', _, hsame⟩ := hout.target
      rw [hsame hid] at ht'
      rw [← docked_congr fun x hx => hout.count x hx,
        insertItem_docked_iff hout.sound ht', insertItem_named_iff hout.labelled ht']
      constructor
      · rintro ⟨⟨hname, hothers⟩, _⟩
        refine ⟨hname, fun _ => hholds', .inl hholds', fun p hp _ => ?_⟩
        cases hp
        refine hout.leaves_iff.mpr fun p hp => ?_
        by_cases hpid : p.id = t.id
        · rw [hout.sound.pane_of_id hp ht' hpid]
          exact hn.active t ht
        · exact hothers p hp hpid
      · intro hsafe
        exact ⟨⟨hsafe.ne_empty, fun p hp _ =>
          hout.leaves_iff.mp (hsafe.leaves origin rfl hid) p hp⟩, .inl hout.item_not_mem⟩
  · by_cases hcollapse : Collapses source t.id
    · refine iff_of_false (not_docked_of_collapses hs hsource hholds hcollapse ht ?_)
        fun hsafe => hholds (hsafe.collapse hcollapse)
      intro working heq hsound hmem y hy hout
      have hcount := insertItem_count hsound hmem item index y
      rw [if_neg hy, count_eq_zero_of_not_mem hout] at hcount
      rw [heq]
      omega
    · rw [withoutSource_same hs hsource hholds hcollapse, insertItem_docked_iff hs ht,
        named_insertItem_iff hn hs ht]
      constructor
      · rintro ⟨hname, hplace⟩
        exact ⟨hname, fun hc => absurd hc hcollapse, .inr hplace,
          fun p hp _ => leaves_of_not_holds hs hsource hholds p hp⟩
      · intro hsafe
        exact ⟨hsafe.ne_empty, hsafe.once.resolve_left hholds⟩

theorem withoutCollapsed_same (hkeep : ¬ Collapses source targetPaneId) :
    tree.withoutCollapsed targetPaneId source = tree := by
  cases source with
  | none => rfl
  | some p => exact if_neg fun hc => hkeep ⟨p, rfl, hc⟩

/-- **Docking beside a pane.** -/
theorem edge_docked_iff (hn : Named (some tree)) (hs : Sound (some tree))
    (ht : t ∈ tree.collectTilePanes) (hsource : ∀ p ∈ source, p ∈ tree.collectTilePanes)
    (hown : ∀ p ∈ source, p.id = t.id → 1 < p.items.length) {edge : DockEdge} :
    Docked (some tree) ((tree.withoutSource item t.id source).splitTilePaneWithItem t.id edge item
          newPaneId.value splitId.value) item ↔
      EdgeSafe tree item t source := by
  by_cases hholds : Holds source item
  · have hholds' := hholds
    obtain ⟨origin, rfl, hitem⟩ := hholds
    have hout := withoutSource_takenOut hs hn (hsource origin rfl) hitem ht (hown origin rfl)
    obtain ⟨t', ht', hid, _⟩ := hout.target
    have hdocked := splitItem_docked_iff hout.labelled hout.sound ht' edge item
    rw [hid, hout.first, ← hout.leaves_iff] at hdocked
    rw [← docked_congr fun x hx => hout.count x hx, hdocked]
    constructor
    · rintro ⟨hname, hleaves, hroom⟩
      refine ⟨hname, fun _ => hholds', fun p hp => ?_, .inl ⟨.inl hholds', ?_⟩⟩
      · cases hp
        exact hleaves
      · exact (hroom.resolve_right fun hparent => hout.item_not_mem hparent.mem).2
    · intro hsafe
      refine ⟨hsafe.ne_empty, hsafe.leaves origin rfl, .inl ⟨hout.item_not_mem, ?_⟩⟩
      exact (hsafe.room.resolve_right fun hroom => hroom.1 hholds').2
  · by_cases hcollapse : Collapses source t.id
    · refine iff_of_false (not_docked_of_collapses hs hsource hholds hcollapse ht ?_)
        fun hsafe => hholds (hsafe.collapse hcollapse)
      intro working heq hsound hmem y hy hout
      obtain ⟨⟨node, before, stretch, after, hsplit⟩, _⟩ := splitTilePaneWithItem_splitAt
        hsound hmem edge item newPaneId.value splitId.value
      have hcount := hsplit.count y
      have hown : t.items.count y = 0 := count_eq_zero_of_not_mem fun hyt =>
        hout (mem_items?_iff.mpr ⟨t, hmem, hyt⟩)
      rw [if_neg hy, count_eq_zero_of_not_mem hout] at hcount
      rw [heq]
      omega
    · have hnot : Holds source item ∨ item ∉ items? (some tree) ↔ item ∉ items? (some tree) :=
        or_iff_right hholds
      rw [withoutSource_same hs hsource hholds hcollapse,
        splitItem_docked_iff (hn.labelled tree rfl) hs ht]
      constructor
      · rintro ⟨hname, _, hroom⟩
        refine ⟨hname, fun hc => absurd hc hcollapse, leaves_of_not_holds hs hsource hholds, ?_⟩
        rwa [withoutCollapsed_same hcollapse, hnot, and_iff_right hholds]
      · intro hsafe
        have hroom := hsafe.room
        rw [withoutCollapsed_same hcollapse, hnot, and_iff_right hholds] at hroom
        exact ⟨hsafe.ne_empty, hn.active, hroom⟩

theorem currentSourcePane_mem :
    ∀ p ∈ tree.currentSourcePane item sourcePaneId, p ∈ tree.collectTilePanes := by
  intro p hp
  unfold currentSourcePane at hp
  split at hp
  · split at hp
    · exact (findTilePaneById_some hp).1
    · exact (findTilePaneContaining_some hp).1
  · exact (findTilePaneContaining_some hp).1

section

variable (hn : Named (some tree)) (hs : Sound (some tree))
include hn hs

theorem select_docked_iff (ht : t ∈ tree.collectTilePanes) : Docked (some tree)
        (tree.updateTilePane t.id fun pane => { pane with active := some item }) item ↔
      item ≠ "" ∧ item ∈ t.items := by
  have hnamed : Named (some (tree.updateTilePane t.id fun pane =>
      { pane with active := some item })) ↔ item ≠ "" := by
    rw [named_updateTilePane_iff hn hs ht]
    · simp
    · exact fun _ => rfl
  constructor
  · intro hd
    refine ⟨hnamed.mp hd.named, ?_⟩
    have hmem : { t with active := some item } ∈ (tree.updateTilePane t.id fun pane =>
        { pane with active := some item }).collectTilePanes := by
      rw [collectTilePanes_updateTilePane]
      exact mem_map.mpr ⟨t, ht, if_pos rfl⟩
    obtain ⟨y, hy, ⟨⟩⟩ := hd.active _ hmem
    exact hy
  · rintro ⟨hname, hitem⟩
    obtain ⟨hsound, hitems⟩ := hs.activate ht hitem
    refine ⟨fun x => ?_, hsound.active, hnamed.mpr hname⟩
    rw [hitems]
    split_ifs with hx
    · rw [hx]
      exact count_eq_one_of_mem hs.items (mem_items?_iff.mpr ⟨t, ht, hitem⟩)
    · rfl

theorem self_docked_iff : Docked (some tree) tree item ↔ item ∈ items? (some tree) := by
  constructor
  · intro hd
    have hone := hd.items item
    rw [if_pos rfl] at hone
    exact count_pos_iff.mp (by omega)
  · intro hitem
    refine ⟨fun x => ?_, hs.active, hn⟩
    split_ifs with hx
    · rw [hx]
      exact count_eq_one_of_mem hs.items hitem
    · rfl

/-- **Docking an item into a tree** keeps everything exactly if it is safe. -/
theorem dockItemIntoTileTree_docked_iff (ht : t ∈ tree.collectTilePanes)
    (htarget : target.paneId = t.id) :
    Docked (some tree)
        (tree.dockItemIntoTileTree item target sourcePaneId newPaneId.value splitId.value)
        item ↔
      tree.DockSafe item t (tree.currentSourcePane item sourcePaneId) target := by
  have hsource : ∀ p ∈ tree.currentSourcePane item sourcePaneId, p ∈ tree.collectTilePanes :=
    currentSourcePane_mem
  unfold dockItemIntoTileTree
  generalize tree.currentSourcePane item sourcePaneId = source at *
  cases target with
  | tabIndex paneId index =>
    subst htarget
    exact insert_docked_iff hn hs ht hsource
  | paneCenter paneId =>
    subst htarget
    simp only [TileDockTarget.paneId, Option.any_eq_true, decide_eq_true_eq]
    split_ifs with hown
    · obtain ⟨p, rfl, hid⟩ := hown
      have hsame : p = t := hs.pane_of_id (hsource p rfl) ht hid
      subst hsame
      rw [select_docked_iff hn hs ht]
      constructor
      · rintro ⟨hname, hitem⟩
        have hholds : Holds (some p) item := ⟨p, rfl, hitem⟩
        refine ⟨⟨hname, fun _ => hholds, .inl hholds, fun q hq hne => ?_⟩, fun _ _ _ => hitem⟩
        cases hq
        exact absurd rfl hne
      · rintro ⟨hsafe, hitem⟩
        exact ⟨hsafe.ne_empty, hitem p rfl rfl⟩
    · rw [insert_docked_iff hn hs ht hsource]
      exact ⟨fun hsafe => ⟨hsafe, fun p hp hid => absurd ⟨p, hp, hid⟩ hown⟩, fun hsafe => hsafe.1⟩
  | paneEdge paneId edge =>
    subst htarget
    simp only [TileDockTarget.paneId, Option.any_eq_true, decide_eq_true_eq]
    split_ifs with hown
    · obtain ⟨p, rfl, hp⟩ := hown
      rw [self_docked_iff hn hs]
      constructor
      · intro hitem
        exact .inl ⟨⟨p, rfl, hp.1.symm, hp.2⟩, hitem⟩
      · rintro (⟨_, hitem⟩ | ⟨hlong, _⟩)
        · exact hitem
        · have hlen := hlong p rfl hp.1.symm
          omega
    · have hlong : ∀ p ∈ source, p.id = t.id → 1 < p.items.length := by
        intro p hp hid
        by_contra hshort
        exact hown ⟨p, hp, hid.symm, by omega⟩
      rw [edge_docked_iff hn hs ht hsource hlong]
      constructor
      · intro hsafe
        exact .inr ⟨hlong, hsafe⟩
      · rintro (⟨⟨p, hp, hid, hlen⟩, _⟩ | ⟨_, hsafe⟩)
        · have hlen' := hlong p hp hid
          omega
        · exact hsafe

end

/-! ### Docking an item that is nowhere -/

/-- When docking an item that is not in the tree gives a tree in order. -/
def PutSafe (tree : TileNode String) (item : String) : TileDockTarget → Prop
  | .paneEdge paneId _ =>
    item ≠ "" ∧ (∀ p ∈ tree.collectTilePanes, p.active ≠ some "") ∧ tree.PaneFirst paneId
  | .paneCenter paneId | .tabIndex paneId _ =>
    item ≠ "" ∧ ∀ p ∈ tree.collectTilePanes, p.id ≠ paneId → p.active ≠ some ""

theorem dockItemIntoTileTree_of_not_mem (hitem : item ∉ items? (some tree))
    {newPaneId splitId : String} :
    tree.dockItemIntoTileTree item target none newPaneId splitId =
      match target with
      | .paneEdge paneId edge =>
        tree.splitTilePaneWithItem paneId edge item newPaneId splitId
      | .paneCenter paneId => tree.insertItemIntoTilePane paneId item none
      | .tabIndex paneId index => tree.insertItemIntoTilePane paneId item (some index) := by
  have hsource : tree.currentSourcePane item none = none := by
    cases hfind : tree.findTilePaneContaining (· = item) with
    | none => exact hfind
    | some p =>
      obtain ⟨hp, hx⟩ := findTilePaneContaining_some hfind
      exact (hitem (mem_items?_iff.mpr ⟨p, hp, hx⟩)).elim
  unfold dockItemIntoTileTree
  rw [hsource]
  cases target with
  | paneEdge paneId edge | paneCenter paneId | tabIndex paneId index => rfl

theorem put_docked_iff (hl : tree.Labelled) (hs : Sound (some tree))
    (ht : t ∈ tree.collectTilePanes) (hitem : item ∉ items? (some tree))
    (htarget : target.paneId = t.id) :
    Docked (some tree)
        (tree.dockItemIntoTileTree item target none newPaneId.value splitId.value) item ↔
      tree.PutSafe item target := by
  rw [dockItemIntoTileTree_of_not_mem hitem]
  cases target with
  | paneEdge paneId edge =>
    subst htarget
    have hparent : ¬ tree.ReplacesParent t item := fun hparent => hitem hparent.mem
    rw [splitItem_docked_iff hl hs ht, or_iff_left hparent, and_iff_right hitem]
    rfl
  | paneCenter paneId | tabIndex paneId index =>
    subst htarget
    rw [insertItem_docked_iff hs ht, insertItem_named_iff hl ht, and_iff_left (.inl hitem)]
    rfl

theorem insertItem_selects (hitem : item ∉ items? (some tree)) :
    ∀ p ∈ (tree.insertItemIntoTilePane paneId item index).collectTilePanes,
      item ∈ p.items → p.active = some item := by
  rw [insertItemIntoTilePane, collectTilePanes_updateTilePane]
  refine forall_mem_map.mpr fun p hp hmem => ?_
  split_ifs at hmem with hid
  · rw [if_pos hid]
  · exact (hitem (mem_items?_iff.mpr ⟨p, hp, hmem⟩)).elim

theorem put_selects (hs : Sound (some tree)) (ht : t ∈ tree.collectTilePanes)
    (hitem : item ∉ items? (some tree)) (htarget : target.paneId = t.id)
    {newPaneId splitId : String} :
    ∀ p ∈ (tree.dockItemIntoTileTree item target none newPaneId splitId).collectTilePanes,
      item ∈ p.items → p.active = some item := by
  rw [dockItemIntoTileTree_of_not_mem hitem]
  cases target with
  | paneCenter paneId | tabIndex paneId index => exact insertItem_selects hitem
  | paneEdge paneId edge =>
    subst htarget
    intro p hp hmem
    obtain ⟨⟨node, before, stretch, after, hsplit⟩, _⟩ :=
      splitTilePaneWithItem_splitAt hs ht edge item newPaneId splitId
    rcases hsplit.mem_result ht hp with hp | rfl
    · exact (hitem (mem_items?_iff.mpr ⟨p, hp, hmem⟩)).elim
    · exact newPane_active

end

end

end DamHopper.Os.TileNode
