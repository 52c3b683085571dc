import Mathlib.Data.Rat.Init
import Mathlib.Data.List.Perm.Basic

/-!
# Os — TileTree

`lib/tile-tree.ts`: the binary tree of splits whose leaves are panes, each pane
a list of tabs with an active one. The functions follow the source; `isEqual` is
equality, as at every call, and the ids that `generateUUID` draws are arguments.

What the tree operations do is said once, over the list of panes from left to
right (`collectTilePanes`): updating a pane is a `map`, removing one is a
`filter`, and replacing a node replaces a stretch of the list. Everything later
is proved about that list.
-/

namespace DamHopper.Os

inductive SplitDirection where
  | horizontal | vertical
  deriving Repr, DecidableEq

inductive DockEdge where
  | top | bottom | left | right
  deriving Repr, DecidableEq

structure TilePaneNode (α : Type) where
  id : String
  items : List α
  active : Option α
  deriving Repr, DecidableEq

inductive TileNode (α : Type) where
  | pane (node : TilePaneNode α)
  | split (id : String) (direction : SplitDirection) (sizes : ℚ × ℚ)
      (first second : TileNode α)
  deriving Repr, DecidableEq

inductive TileDockTarget where
  | paneCenter (paneId : String)
  | paneEdge (paneId : String) (edge : DockEdge)
  | tabIndex (paneId : String) (index : Int)
  deriving Repr, DecidableEq

def TileDockTarget.paneId : TileDockTarget → String
  | .paneCenter paneId | .paneEdge paneId _ | .tabIndex paneId _ => paneId

namespace TileNode

variable {α : Type}

/-! ## Reading -/

def id : TileNode α → String
  | .pane node => node.id
  | .split id _ _ _ _ => id

def collectTilePanes : TileNode α → List (TilePaneNode α)
  | .pane node => [node]
  | .split _ _ _ first second => first.collectTilePanes ++ second.collectTilePanes

def findTilePaneById (node : TileNode α) (paneId : String) : Option (TilePaneNode α) :=
  node.collectTilePanes.find? fun pane => pane.id = paneId

def findTilePaneContaining (node : TileNode α) (predicate : α → Bool) :
    Option (TilePaneNode α) :=
  node.collectTilePanes.find? fun pane => pane.items.any predicate

/-! ## Building -/

section

variable [DecidableEq α] (tree : TileNode α) (paneId : String) (item : α)

def normalizeActiveItem (items : List α) (active : Option α) : Option α :=
  match active with
  | some item => if item ∈ items then some item else items.head?
  | none => items.head?

def newTilePaneNode (items : List α) (active : Option α) (id : String) :
    TilePaneNode α :=
  { id, items, active := normalizeActiveItem items active }

def createTileSplitNode (direction : SplitDirection) (first second : TileNode α)
    (id : String) : TileNode α :=
  .split id direction (50, 50) first second

/-! ## Changing nodes -/

/-- Replace the first node with that id, a split or a pane, in pre-order. -/
def replaceTileNode : TileNode α → String → TileNode α → Option (TileNode α)
  | .pane node, targetId, replacement =>
    if node.id = targetId then some replacement else none
  | .split id direction sizes first second, targetId, replacement =>
    if id = targetId then some replacement
    else
      match first.replaceTileNode targetId replacement with
      | some left => some (.split id direction sizes left second)
      | none =>
        (second.replaceTileNode targetId replacement).map fun right =>
          .split id direction sizes first right

/-- Remove every pane with that id; a split that loses a child is replaced by
the other. -/
def removeTilePane : TileNode α → String → Option (TileNode α)
  | .pane node, paneId => if node.id = paneId then none else some (.pane node)
  | .split id direction sizes first second, paneId =>
    match first.removeTilePane paneId, second.removeTilePane paneId with
    | none, none => none
    | none, some right => some right
    | some left, none => some left
    | some left, some right => some (.split id direction sizes left right)

def updateTilePane : TileNode α → String → (TilePaneNode α → TilePaneNode α) → TileNode α
  | .pane node, paneId, updater => .pane (if node.id = paneId then updater node else node)
  | .split id direction sizes first second, paneId, updater =>
    .split id direction sizes (first.updateTilePane paneId updater)
      (second.updateTilePane paneId updater)

def clampIndex (index : Int) (length : Nat) : Nat := (max 0 (min index length)).toNat

def reorderItems (items : List α) (item : α) (index : Option Int) : List α :=
  let next := items.filter (· ≠ item)
  let insertAt := clampIndex (index.getD next.length) next.length
  next.insertIdx insertAt item

def insertItemIntoTilePane (index : Option Int) : TileNode α :=
  tree.updateTilePane paneId fun pane =>
    { pane with items := reorderItems pane.items item index, active := some item }

def dropItem (pane : TilePaneNode α) : TilePaneNode α :=
  if item ∈ pane.items then
    let items := pane.items.filter (· ≠ item)
    { pane with items, active := normalizeActiveItem items pane.active }
  else pane

def removeItemFromTilePane : TileNode α :=
  tree.updateTilePane paneId (dropItem item)

/-- `newPaneId` and `splitId` are the two ids drawn. -/
def splitTilePaneWithItem (edge : DockEdge) (item : α) (newPaneId splitId : String) : TileNode α :=
  match tree.findTilePaneById paneId with
  | none => tree
  | some targetPane =>
    let newPane := .pane (newTilePaneNode [item] (some item) newPaneId)
    let direction : SplitDirection :=
      if edge = .left ∨ edge = .right then .horizontal else .vertical
    let splitNode :=
      if edge = .left ∨ edge = .top then
        createTileSplitNode direction newPane (.pane targetPane) splitId
      else createTileSplitNode direction (.pane targetPane) newPane splitId
    (tree.replaceTileNode paneId splitNode).getD tree

/-- The pane an item is taken from: the one named, if a name is given, else the
one that holds it. The empty name counts as none. -/
def currentSourcePane (sourcePaneId : Option String) : Option (TilePaneNode α) :=
  match sourcePaneId with
  | some paneId =>
    if paneId ≠ "" then tree.findTilePaneById paneId
    else tree.findTilePaneContaining (· = item)
  | none => tree.findTilePaneContaining (· = item)

/-- The tree once the item has left its source pane; a pane that held nothing else
is collapsed, unless it is the target. -/
def withoutSource (targetPaneId : String) (source : Option (TilePaneNode α)) : TileNode α :=
  match source with
  | none => tree
  | some origin =>
    if origin.id ≠ targetPaneId ∧ origin.items.length = 1 ∧
        1 < tree.collectTilePanes.length then
      (tree.removeTilePane origin.id).getD tree
    else tree.removeItemFromTilePane origin.id item

def dockItemIntoTileTree (target : TileDockTarget) (sourcePaneId : Option String)
    (newPaneId splitId : String) : TileNode α :=
  let source := tree.currentSourcePane item sourcePaneId
  let workingTree := tree.withoutSource item target.paneId source
  match target with
  | .paneEdge paneId edge =>
    if source.any fun pane => paneId = pane.id ∧ pane.items.length ≤ 1 then tree
    else workingTree.splitTilePaneWithItem paneId edge item newPaneId splitId
  | .paneCenter paneId =>
    if source.any fun pane => pane.id = paneId then
      tree.updateTilePane paneId fun pane => { pane with active := some item }
    else workingTree.insertItemIntoTilePane paneId item none
  | .tabIndex paneId index => workingTree.insertItemIntoTilePane paneId item (some index)

end

/-! ## Trees as lists of panes -/

def panes? (tree : Option (TileNode α)) : List (TilePaneNode α) :=
  tree.elim [] collectTilePanes

def items? (tree : Option (TileNode α)) : List α := (panes? tree).flatMap (·.items)

variable (tree : TileNode α) (paneId : String) {targetId : String}

theorem collectTilePanes_ne_nil : tree.collectTilePanes ≠ [] := by
  induction tree with
  | pane node => exact List.cons_ne_nil _ _
  | split id direction sizes first second ih₁ ih₂ =>
    exact List.append_ne_nil_of_left_ne_nil ih₁ _

theorem collectTilePanes_updateTilePane (updater : TilePaneNode α → TilePaneNode α) :
    (tree.updateTilePane paneId updater).collectTilePanes = tree.collectTilePanes.map fun pane =>
        if pane.id = paneId then updater pane else pane := by
  induction tree with
  | pane node => rfl
  | split id direction sizes first second ih₁ ih₂ =>
    rw [updateTilePane, collectTilePanes, collectTilePanes, List.map_append, ih₁, ih₂]

theorem panes?_removeTilePane : panes? (tree.removeTilePane paneId) =
      tree.collectTilePanes.filter fun pane => pane.id ≠ paneId := by
  induction tree with
  | pane node =>
    by_cases h : node.id = paneId <;> simp [removeTilePane, collectTilePanes, panes?, h]
  | split id direction sizes first second ih₁ ih₂ =>
    rw [collectTilePanes, List.filter_append, ← ih₁, ← ih₂, removeTilePane]
    cases first.removeTilePane paneId <;> cases second.removeTilePane paneId <;>
      simp [panes?, collectTilePanes]

theorem removeTilePane_eq_none_iff :
    tree.removeTilePane paneId = none ↔ ∀ pane ∈ tree.collectTilePanes, pane.id = paneId := by
  have hpanes := panes?_removeTilePane tree paneId
  constructor
  · intro h
    rw [h] at hpanes
    simpa using List.filter_eq_nil_iff.mp hpanes.symm
  · intro h
    cases hr : tree.removeTilePane paneId with
    | none => rfl
    | some rest =>
      rw [hr, List.filter_eq_nil_iff.mpr (by simpa using h)] at hpanes
      exact absurd hpanes (collectTilePanes_ne_nil rest)

/-! ### Replacing a node -/

def firstNode : TileNode α → String → Option (TileNode α)
  | .pane node, targetId => if node.id = targetId then some (.pane node) else none
  | .split id direction sizes first second, targetId =>
    if id = targetId then some (.split id direction sizes first second)
    else (first.firstNode targetId).or (second.firstNode targetId)

theorem replaceTileNode_eq_none {tree : TileNode α}
    (replacement : TileNode α) (h : tree.firstNode targetId = none) :
    tree.replaceTileNode targetId replacement = none := by
  induction tree with
  | pane p => simp_all [firstNode, replaceTileNode]
  | split id direction sizes first second ih₁ ih₂ =>
    rw [firstNode] at h
    split_ifs at h with hid
    rw [Option.or_eq_none_iff] at h
    simp [replaceTileNode, hid, ih₁ h.1, ih₂ h.2]

/-- Replacing the first node with an id replaces its stretch of the panes. -/
theorem replaceTileNode_of_firstNode {tree node : TileNode α}
    (replacement : TileNode α) (h : tree.firstNode targetId = some node) :
    ∃ tree' before after, tree.replaceTileNode targetId replacement = some tree' ∧
      tree.collectTilePanes = before ++ node.collectTilePanes ++ after ∧
      tree'.collectTilePanes = before ++ replacement.collectTilePanes ++ after := by
  induction tree with
  | pane p =>
    unfold firstNode at h
    split at h
    next hid =>
      cases h
      exact ⟨replacement, [], [], by simp [replaceTileNode, hid], by simp, by simp⟩
    · cases h
  | split id direction sizes first second ih₁ ih₂ =>
    unfold firstNode at h
    split_ifs at h with hid
    · cases h
      exact ⟨replacement, [], [], by simp [replaceTileNode, hid], by simp, by simp⟩
    rcases Option.or_eq_some_iff.mp h with hfirst | ⟨hnone, hsecond⟩
    · obtain ⟨left, before, after, heq, hold, hnew⟩ := ih₁ hfirst
      refine ⟨.split id direction sizes left second, before,
        after ++ second.collectTilePanes, ?_, ?_, ?_⟩
      · rw [replaceTileNode, if_neg hid, heq]
      · simp [collectTilePanes, hold]
      · rw [collectTilePanes, hnew]
        simp
    obtain ⟨right, before, after, heq, hold, hnew⟩ := ih₂ hsecond
    refine ⟨.split id direction sizes first right,
      first.collectTilePanes ++ before, after, ?_, ?_, ?_⟩
    · rw [replaceTileNode, if_neg hid, replaceTileNode_eq_none _ hnone, heq]
      rfl
    · rw [collectTilePanes, hold]
      simp
    · rw [collectTilePanes, hnew]
      simp

end TileNode

end DamHopper.Os
