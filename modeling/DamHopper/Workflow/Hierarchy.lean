import DamHopper.Workflow.Items

/-!
# Hierarchy — the trees that the work items form

What the rest of the program takes for granted about the items: an item belongs to the same
workspace and target as its parent, the kinds nest (a task in a phase or a plan, a phase in a
plan), no chain of parents is longer than `MAX_HIERARCHY_DEPTH`, the time of completion
belongs to the status, and an update that expects the last one happens at most once.

Creation checks all of it. An update checks nothing of it and can change one column that
matters: the worktree, of one item alone.
-/

namespace DamHopper.Workflow

open AssocMap

abbrev Items := AssocMap String WorkflowItem

/-! ## The properties -/

def ParentOf (items : Items) (child parent : String) : Prop :=
  ∃ item, items.get? child = some item ∧ item.parentId = some parent

/-- Every item that names a parent has it, and stands in the relation `R` to it. -/
def Linked (R : WorkflowItem → WorkflowItem → Prop) (items : Items) : Prop :=
  ∀ id item pid, items.get? id = some item → item.parentId = some pid →
    ∃ parent, items.get? pid = some parent ∧ R parent item

/-- Parent and child belong together: the workspace, the project and the worktree. -/
structure SameScope (parent item : WorkflowItem) : Prop where
  workspaceId : parent.workspaceId = item.workspaceId
  projectName : parent.projectName = item.projectName
  worktreePath : parent.worktreePath = item.worktreePath

/-- The kinds nest: a plan is a root, a phase is in a plan, a task is anywhere but in a
task. -/
def Nested (items : Items) (item : WorkflowItem) : Prop :=
  match item.kind with
  | .plan => item.parentId = none
  | .phase => ∃ pid parent, item.parentId = some pid ∧ items.get? pid = some parent ∧
      parent.kind = .plan
  | .task => ∀ pid, item.parentId = some pid → ∃ parent, items.get? pid = some parent ∧
      (parent.kind = .plan ∨ parent.kind = .phase)

/-- The items form trees of bounded depth in which parent and child belong together. -/
structure WellPlaced (items : Items) : Prop where
  linked : Linked SameScope items
  nested : ∀ id item, items.get? id = some item → Nested items item
  acyclic : ∀ id, ¬ Relation.TransGen (ParentOf items) id id
  depth : ∀ path : List String, path.IsChain (ParentOf items) → path.length ≤ MAX_HIERARCHY_DEPTH

/-- An update that succeeds makes the item later than it was. -/
def Advances (db : Db) (call : Call) : Prop :=
  ∀ id patch expected, call.updates = some (id, patch, expected) → call.succeeds db →
    ∃ old new, db.items.get? id = some old ∧ (step db call).items.get? id = some new ∧
      old.updatedAt < new.updatedAt

/-- What holds of a sequence of calls on a database without items. -/
structure Tracked (workspaces : List String) (calls : List Call) : Prop where
  placed : Always step (fun db => WellPlaced db.items) (.empty workspaces) calls
  /-- As long as an item lives that was created without a time of completion, the time
  belongs to the status. -/
  settled : ∀ front item event back, calls = front ++ .create item event :: back →
    item.completedAt = none → (run step (.empty workspaces) front).items.contains item.id = false →
    Always step (fun db => db.items.contains item.id = true)
      (run step (.empty workspaces) (front ++ [.create item event])) back →
    ∀ row, (run step (.empty workspaces) calls).items.get? item.id = some row → row.Settled
  advances : EveryStep step Advances (.empty workspaces) calls
  /-- Of two updates of an item that expect the same last one, one fails. -/
  once : ∀ front mid back id expected workspaceId patch event workspaceId' patch' event',
    calls = front ++ .updateCas id workspaceId patch expected event ::
      (mid ++ .updateCas id workspaceId' patch' expected event' :: back) →
    let before := run step (.empty workspaces) front
    let first : Call := .updateCas id workspaceId patch expected event
    first.succeeds before →
    Always step (fun db => db.items.contains id = true) (step before first) mid →
    Call.succeeds (run step (step before first) mid)
      (.updateCas id workspaceId' patch' expected event') = false

/-- The condition: a new worktree is given only to an item that has it already, or that has
neither parent nor children. -/
def KeepsTarget (db : Db) (call : Call) : Prop :=
  ∀ id patch expected current worktree, call.updates = some (id, patch, expected) →
    call.succeeds db → db.items.get? id = some current → patch.worktreePath = some worktree →
    worktree = current.worktreePath ∨
      (current.parentId = none ∧ ∀ child, ¬ ParentOf db.items child id)

/-! ## Links under each change -/

section

variable {R : WorkflowItem → WorkflowItem → Prop} {items : Items} {id : String}
  {current item : WorkflowItem}

theorem Linked.empty : Linked R .empty := by
  rintro id item pid ⟨⟩

theorem Linked.insert_new (h : Linked R items) (hfresh : items.get? id = none)
    (hparent : ∀ pid, item.parentId = some pid →
      ∃ parent, items.get? pid = some parent ∧ R parent item) :
    Linked R (items.insert id item) := by
  have hkeep : ∀ {pid parent}, items.get? pid = some parent →
      (items.insert id item).get? pid = some parent := by
    intro pid parent hget
    rwa [get?_insert_of_ne]
    rintro rfl
    simp [hfresh] at hget
  intro id' item' pid hget hpid
  rw [get?_insert] at hget
  split at hget
  · cases hget
    obtain ⟨parent, hget, hR⟩ := hparent pid hpid
    exact ⟨parent, hkeep hget, hR⟩
  · obtain ⟨parent, hget', hR⟩ := h id' item' pid hget hpid
    exact ⟨parent, hkeep hget', hR⟩

/-- A change that the relation does not notice. -/
theorem Linked.insert_over (h : Linked R items) (hget : items.get? id = some current)
    (hpid : item.parentId = current.parentId) (habove : ∀ parent, R parent current → R parent item)
    (hbelow : ∀ child, R current child → R item child) : Linked R (items.insert id item) := by
  have hafter : ∀ {pid parent child}, items.get? pid = some parent → R parent child →
      ∃ parent', (items.insert id item).get? pid = some parent' ∧ R parent' child := by
    intro pid parent child hparent hR
    rw [get?_insert]
    split_ifs with heq
    · rw [heq, hget] at hparent
      cases hparent
      exact ⟨item, rfl, hbelow child hR⟩
    · exact ⟨parent, hparent, hR⟩
  intro id' item' pid hget' hpid'
  rw [get?_insert] at hget'
  split at hget'
  · cases hget'
    rw [hpid] at hpid'
    obtain ⟨parent, hparent, hR⟩ := h id current pid hget hpid'
    exact hafter hparent (habove parent hR)
  · obtain ⟨parent, hparent, hR⟩ := h id' item' pid hget' hpid'
    exact hafter hparent hR

theorem Linked.cascade (h : Linked R items) :
    Linked R (deleteCascade WorkflowItem.parentId items id) := by
  intro id' item' pid hget hpid
  obtain ⟨parent, hparent, hR⟩ := h id' item' pid (get?_deleteCascade_iff.mp hget).1 hpid
  exact ⟨parent, deleteCascade_parent hget hpid hparent, hR⟩

end

/-! ## What every call keeps -/

/-- Parent and child are in one workspace and project, and the kinds fit. -/
structure Sits (parent item : WorkflowItem) : Prop where
  workspaceId : parent.workspaceId = item.workspaceId
  projectName : parent.projectName = item.projectName
  kind : item.kind.accepts (some parent.kind)

def SameWorktree (parent item : WorkflowItem) : Prop := parent.worktreePath = item.worktreePath

/-- **The part of the hierarchy that no call breaks.** -/
structure Rooted (items : Items) : Prop where
  linked : Linked Sits items
  roots : ∀ id item, items.get? id = some item → item.parentId = none → item.kind.accepts none

theorem Rooted.empty : Rooted .empty where
  linked := .empty
  roots := by
    rintro id item ⟨⟩

variable {item : WorkflowItem} {id : String} {call : Call} {db : Db} {items : Items}

theorem Rooted.insert (h : Rooted items) (hlinked : Linked Sits (items.insert id item))
    (hroot : item.parentId = none → item.kind.accepts none) : Rooted (items.insert id item) where
  linked := hlinked
  roots := forall_insert h.roots hroot

theorem Rooted.step (call : Call) (h : Rooted db.items) :
    Rooted (step db call).items := by
  cases step_change db call with
  | kept hitems => exact hitems ▸ h
  | created item event _ hcreated =>
    rw [hcreated.items]
    refine h.insert (h.linked.insert_new hcreated.fresh ?_) hcreated.root
    intro pid hpid
    obtain ⟨parent, hget, hworkspace, hproject, _, hkind⟩ := hcreated.parent pid hpid
    exact ⟨parent, hget, hworkspace, hproject, hkind⟩
  | updated id patch expected current item _ _ hupdated =>
    obtain ⟨hfound, hitems, _, _, _, _, hworkspace, hproject, hpid, hkind⟩ := hupdated
    rw [hitems]
    refine h.insert (h.linked.insert_over hfound hpid ?_ ?_) ?_
    · intro parent hsits
      exact ⟨hsits.workspaceId.trans hworkspace.symm, hsits.projectName.trans hproject.symm,
        hkind ▸ hsits.kind⟩
    · intro child hsits
      exact ⟨hworkspace.trans hsits.workspaceId, hproject.trans hsits.projectName,
        hkind ▸ hsits.kind⟩
    · intro hnone
      rw [hkind]
      exact h.roots id current hfound (hpid ▸ hnone)
  | deleted id _ hitems =>
    rw [hitems]
    refine ⟨h.linked.cascade, ?_⟩
    intro id' item' hget hnone
    exact h.roots id' item' (get?_deleteCascade_iff.mp hget).1 hnone

/-! ## Kinds bound the depth -/

def ItemKind.rank : ItemKind → Nat
  | .plan => 0
  | .phase => 1
  | .task => 2

theorem ItemKind.rank_lt_of_accepts {kind parentKind : ItemKind}
    (h : kind.accepts (some parentKind)) : parentKind.rank < kind.rank := by
  cases kind <;> cases parentKind <;> first | decide | cases h

/-- How deep an item is at most. -/
def rankOf (items : Items) (id : String) : Nat :=
  (items.get? id).elim 0 fun item => item.kind.rank

theorem rankOf_le (items : Items) (id : String) : rankOf items id ≤ 2 := by
  unfold rankOf
  cases items.get? id with
  | none => exact Nat.zero_le _
  | some item =>
    show item.kind.rank ≤ 2
    cases item.kind <;> decide

section

variable {items : Items} (h : Rooted items)

include h

theorem Rooted.rankOf_lt (child parent : String) (hparent : ParentOf items child parent) :
    rankOf items parent < rankOf items child := by
  obtain ⟨item, hget, hpid⟩ := hparent
  obtain ⟨row, hrow, hsits⟩ := h.linked child item parent hget hpid
  rw [rankOf, rankOf, hget, hrow]
  exact ItemKind.rank_lt_of_accepts hsits.kind

theorem Rooted.nested (hget : items.get? id = some item) :
    Nested items item := by
  -- what the kind accepts, for a root and for a child
  have hroot := h.roots id item hget
  have hchild : ∀ pid, item.parentId = some pid →
      ∃ parent, items.get? pid = some parent ∧ item.kind.accepts (some parent.kind) := by
    intro pid hpid
    obtain ⟨parent, hparent, hsits⟩ := h.linked id item pid hget hpid
    exact ⟨parent, hparent, hsits.kind⟩
  unfold Nested
  split <;> rename_i hkind <;> rw [hkind] at hroot hchild
  · cases hpid : item.parentId with
    | none => rfl
    | some pid => obtain ⟨parent, _, ⟨⟩⟩ := hchild pid hpid
  · cases hpid : item.parentId with
    | none => cases hroot hpid
    | some pid =>
      obtain ⟨parent, hparent, haccepts⟩ := hchild pid hpid
      exact ⟨pid, parent, rfl, hparent, by simpa [ItemKind.accepts] using haccepts⟩
  · intro pid hpid
    obtain ⟨parent, hparent, haccepts⟩ := hchild pid hpid
    refine ⟨parent, hparent, ?_⟩
    cases hparentKind : parent.kind <;> simp [hparentKind, ItemKind.accepts] at haccepts ⊢

theorem Rooted.depth {path : List String} (hpath : path.IsChain (ParentOf items)) :
    path.length ≤ MAX_HIERARCHY_DEPTH := by
  cases path with
  | nil => exact Nat.zero_le _
  | cons first rest =>
    have hrest := chain_length_le h.rankOf_lt hpath
    have hfirst := rankOf_le items first
    rw [List.length_cons, MAX_HIERARCHY_DEPTH]
    omega

theorem Rooted.parent_ne : ¬ ParentOf items id id :=
  fun hself => Nat.lt_irrefl _ (h.rankOf_lt id id hself)

/-- The worktree is all that is missing. -/
theorem Rooted.wellPlaced_iff : WellPlaced items ↔ Linked SameWorktree items := by
  constructor
  · intro hplaced id item pid hget hpid
    obtain ⟨parent, hparent, hscope⟩ := hplaced.linked id item pid hget hpid
    exact ⟨parent, hparent, hscope.worktreePath⟩
  · intro hworktree
    refine ⟨?_, fun id item hget => h.nested hget, not_transGen_self h.rankOf_lt,
      fun path hpath => h.depth hpath⟩
    intro id item pid hget hpid
    obtain ⟨parent, hparent, hsits⟩ := h.linked id item pid hget hpid
    obtain ⟨parent', hparent', heq⟩ := hworktree id item pid hget hpid
    cases hparent.symm.trans hparent'
    exact ⟨parent, hparent, hsits.workspaceId, hsits.projectName, heq⟩

end

/-! ## The worktree -/

/-- A new worktree for one item, in trees that had one each. -/
theorem sameWorktree_insert_iff {current : WorkflowItem}
    (hrooted : Rooted items) (h : Linked SameWorktree items)
    (hget : items.get? id = some current) (hpid : item.parentId = current.parentId) :
    Linked SameWorktree (items.insert id item) ↔ item.worktreePath = current.worktreePath ∨
      (current.parentId = none ∧ ∀ child, ¬ ParentOf items child id) := by
  constructor
  · intro hafter
    by_cases hsame : item.worktreePath = current.worktreePath
    · exact .inl hsame
    refine .inr ⟨?_, ?_⟩
    · -- the parent has the old worktree
      cases hparentId : current.parentId with
      | none => rfl
      | some pid =>
        have hne : pid ≠ id := by
          rintro rfl
          exact hrooted.parent_ne ⟨current, hget, hparentId⟩
        obtain ⟨parent, hparent, hbefore⟩ := h id current pid hget hparentId
        obtain ⟨parent', hparent', hnow⟩ :=
          hafter id item pid (get?_insert_self ..) (hpid.trans hparentId)
        rw [get?_insert_of_ne _ _ hne, hparent] at hparent'
        cases hparent'
        exact absurd (hnow.symm.trans hbefore) hsame
    · -- a child has the old worktree
      rintro child ⟨row, hrow, hparentId⟩
      have hne : child ≠ id := by
        rintro rfl
        exact hrooted.parent_ne ⟨row, hrow, hparentId⟩
      obtain ⟨parent, hparent, hbefore⟩ := h child row id hrow hparentId
      obtain ⟨parent', hparent', hnow⟩ :=
        hafter child row id (by rw [get?_insert_of_ne _ _ hne, hrow]) hparentId
      rw [hget] at hparent
      rw [get?_insert_self] at hparent'
      cases hparent
      cases hparent'
      exact hsame (hnow.trans hbefore.symm)
  · rintro (hsame | ⟨hroot, hleaf⟩)
    · refine h.insert_over hget hpid ?_ ?_
      · intro parent hparent
        exact hparent.trans hsame.symm
      · intro child hchild
        exact hsame.trans hchild
    · intro id' item' pid hget' hpid'
      rw [get?_insert] at hget'
      split at hget'
      · cases hget'
        rw [hpid, hroot] at hpid'
        cases hpid'
      · have hne : pid ≠ id := by
          rintro rfl
          exact hleaf id' ⟨item', hget', hpid'⟩
        obtain ⟨parent, hparent, heq⟩ := h id' item' pid hget' hpid'
        exact ⟨parent, by rw [get?_insert_of_ne _ _ hne, hparent], heq⟩

theorem keepsTarget_of_updates
    (h : call.succeeds db → call.updates = none) : KeepsTarget db call := by
  intro id patch expected current worktree hcall hsucceeds
  simp [h hsucceeds] at hcall

theorem sameWorktree_step_iff (hrooted : Rooted db.items) (h : Linked SameWorktree db.items) :
    Linked SameWorktree (step db call).items ↔ KeepsTarget db call := by
  cases step_change db call with
  | kept hitems hcall => exact iff_of_true (hitems ▸ h) (keepsTarget_of_updates hcall)
  | created item event hcall hcreated =>
    refine iff_of_true ?_ (keepsTarget_of_updates fun _ => hcall ▸ rfl)
    rw [hcreated.items]
    refine h.insert_new hcreated.fresh ?_
    intro pid hpid
    obtain ⟨parent, hget, _, _, hworktree, _⟩ := hcreated.parent pid hpid
    exact ⟨parent, hget, hworktree⟩
  | deleted id hcall hitems =>
    refine iff_of_true ?_ (keepsTarget_of_updates fun _ => hcall)
    rw [hitems]
    exact h.cascade
  | updated id patch expected current item hcall hsucceeds hupdated =>
    rw [hupdated.items, sameWorktree_insert_iff hrooted h hupdated.found hupdated.parentId,
      hupdated.worktree]
    constructor
    · intro hkeeps id' patch' expected' current' worktree hcall' _ hget hpatch
      cases hcall.symm.trans hcall'
      cases hupdated.found.symm.trans hget
      rwa [hpatch] at hkeeps
    · intro hkeeps
      cases hpatch : patch.worktreePath with
      | none => exact .inl rfl
      | some worktree =>
        exact hkeeps id patch expected current worktree hcall hsucceeds hupdated.found hpatch

/-! ## The life of an item -/

section

variable {db : Db} {id : String} {row row' : WorkflowItem}

/-- What a call does to an item that it leaves in the table. -/
theorem row_step (hrow : db.items.get? id = some row)
    (hafter : (step db call).items.get? id = some row') :
    row' = row ∨ (row.updatedAt < row'.updatedAt ∧ (row.Settled → row'.Settled)) := by
  cases step_change db call with
  | kept hitems =>
    rw [hitems, hrow] at hafter
    cases hafter
    exact .inl rfl
  | created item event _ hcreated =>
    have hne : id ≠ item.id := by
      rintro rfl
      rw [hcreated.fresh] at hrow
      cases hrow
    rw [hcreated.items, get?_insert_of_ne _ _ hne, hrow] at hafter
    cases hafter
    exact .inl rfl
  | updated id' patch expected current item _ _ hupdated =>
    rw [hupdated.items, get?_insert] at hafter
    split_ifs at hafter with heq
    · cases hafter
      rw [heq, hupdated.found] at hrow
      cases hrow
      exact .inr ⟨hupdated.later, hupdated.settled⟩
    · rw [hrow] at hafter
      cases hafter
      exact .inl rfl
  | deleted id' _ hitems =>
    rw [hitems, get?_deleteCascade_iff, hrow] at hafter
    cases hafter.1
    exact .inl rfl

/-- As long as an item lives it only gets later, and the time of completion goes with the
status. -/
theorem row_run {calls : List Call} (hrow : db.items.get? id = some row)
    (hlives : Always step (fun db => db.items.contains id = true) db calls) :
    ∃ row', (run step db calls).items.get? id = some row' ∧ row.updatedAt ≤ row'.updatedAt ∧
      (row.Settled → row'.Settled) := by
  induction calls generalizing db row with
  | nil => exact ⟨row, hrow, Nat.le_refl _, fun h => h⟩
  | cons call rest ih =>
    obtain ⟨row₁, hrow₁⟩ := contains_iff.mp hlives.2.head
    obtain ⟨row', hrow', hlater, hsettled⟩ := ih hrow₁ hlives.2
    refine ⟨row', hrow', ?_⟩
    rcases row_step hrow hrow₁ with rfl | ⟨hlt, hsettled₁⟩
    · exact ⟨hlater, hsettled⟩
    · exact ⟨Nat.le_trans (Nat.le_of_lt hlt) hlater, fun h => hsettled (hsettled₁ h)⟩

end

theorem updates_succeeds {patch : ItemPatch} {expected : Option Nat}
    (hcall : call.updates = some (id, patch, expected)) (hsucceeds : call.succeeds db) :
    ∃ current item, Updated db id patch expected current item (step db call) := by
  cases step_change db call with
  | kept _ hnone => simp [hnone hsucceeds] at hcall
  | created item event heq =>
    rw [heq] at hcall
    cases hcall
  | deleted _ hnone => simp [hnone] at hcall
  | updated id' patch' expected' current item hcall' _ hupdated =>
    rw [hcall'] at hcall
    cases hcall
    exact ⟨current, item, hupdated⟩

theorem step_advances (db : Db) (call : Call) : Advances db call := by
  intro id patch expected hcall hsucceeds
  obtain ⟨current, item, hupdated⟩ := updates_succeeds hcall hsucceeds
  refine ⟨current, item, hupdated.found, ?_, hupdated.later⟩
  rw [hupdated.items, get?_insert_self]

/-- A second update that expects what the first one expected comes too late. -/
theorem second_fails {first second : Call} {mid : List Call} {patch patch' : ItemPatch}
    {expected : Nat} (hfirst : first.updates = some (id, patch, some expected))
    (hsecond : second.updates = some (id, patch', some expected)) (hsucceeds : first.succeeds db)
    (hlives : Always step (fun db => db.items.contains id = true) (step db first) mid) :
    second.succeeds (run step (step db first) mid) = false := by
  obtain ⟨current, item, hupdated⟩ := updates_succeeds hfirst hsucceeds
  have hitem : (step db first).items.get? id = some item := by
    rw [hupdated.items, get?_insert_self]
  obtain ⟨row, hrow, hlater, _⟩ := row_run hitem hlives
  have hseen := hupdated.expected expected rfl
  have hlt := hupdated.later
  cases hagain : second.succeeds (run step (step db first) mid) with
  | false => rfl
  | true =>
    obtain ⟨row', _, hupdated'⟩ := updates_succeeds hsecond hagain
    have hseen' := hupdated'.expected expected rfl
    cases hrow.symm.trans hupdated'.found
    omega

/-- An item that was created without a time of completion, as long as it lives. -/
theorem created_settled {event : Option WorkflowEvent}
    {back : List Call} (hnone : item.completedAt = none)
    (hfresh : db.items.contains item.id = false)
    (hlives : Always step (fun db => db.items.contains item.id = true)
      (step db (.create item event)) back) {row : WorkflowItem}
    (hrow : (run step (step db (.create item event)) back).items.get? item.id = some row) :
    row.Settled := by
  have hstored : (step db (.create item event)).items.get? item.id = some item.stored := by
    have hthere := hlives.head
    cases step_change db (.create item event) with
    | kept hitems => simp [hitems, hfresh] at hthere
    | created item' event' hcall hcreated =>
      cases hcall
      rw [hcreated.items, get?_insert_self]
    | updated _ _ _ _ _ hcall => cases hcall
    | deleted _ _ hitems =>
      obtain ⟨row, hrow⟩ := contains_iff.mp hthere
      rw [hitems, get?_deleteCascade_iff] at hrow
      simp [contains, hrow.1] at hfresh
  obtain ⟨row', hrow', _, hsettled⟩ := row_run hstored hlives
  cases hrow.symm.trans hrow'
  exact hsettled (WorkflowItem.stored_settled hnone)

/-! ## The result -/

/-- **The hierarchy of the work items.** Along every sequence of calls the kinds nest, the
trees are at most three deep, the time of completion belongs to the status and an update that
expects the last one happens at most once; parent and child belong to one target exactly if no
update gives a new worktree to an item that has a parent or children. -/
theorem tracked_iff (workspaces : List String) (calls : List Call) :
    Tracked workspaces calls ↔ EveryStep step KeepsTarget (.empty workspaces) calls := by
  have hexact : Always step (fun db => Linked SameWorktree db.items) (.empty workspaces) calls ↔
      EveryStep step KeepsTarget (.empty workspaces) calls :=
    always_iff_everyStep (I := fun db : Db => Rooted db.items)
      (P := fun db : Db => Linked SameWorktree db.items) (fun db call => Rooted.step call)
      (fun db call => sameWorktree_step_iff) Rooted.empty .empty calls
  have hrooted : Always step (fun db => Rooted db.items) (.empty workspaces) calls :=
    always_all (I := fun db : Db => Rooted db.items) (fun db call => Rooted.step call) calls
      Rooted.empty
  rw [← hexact]
  constructor
  · intro h
    refine (hrooted.and h.placed).mono ?_
    intro db hdb
    exact hdb.1.wellPlaced_iff.mp hdb.2
  · intro h
    refine ⟨(hrooted.and h).mono fun db hdb => hdb.1.wellPlaced_iff.mpr hdb.2, ?_, ?_, ?_⟩
    · intro front item event back heq hnone hfresh hlives row hrow
      rw [run_append] at hlives
      rw [heq, run_append] at hrow
      exact created_settled hnone hfresh hlives hrow
    · exact everyStep_all step_advances _ calls
    · intro front mid back id expected workspaceId patch event workspaceId' patch' event' _
        before first hsucceeds hlives
      exact second_fails rfl rfl hsucceeds hlives

/-- A plan, a phase in it, and an update that gives the phase another worktree. -/
def retargeting : List Call :=
  let item (id : String) (kind : ItemKind) (parentId : Option String) : WorkflowItem :=
    { id, kind, parentId
      workspaceId := "workspace", projectName := "project", worktreePath := none
      title := id, summary := none, status := .backlog, sortOrder := 0, source := .manual
      createdAt := 1, updatedAt := 1, completedAt := none, archivedAt := none }
  [.create (item "plan" .plan none) none, .create (item "phase" .phase (some "plan")) none,
    .update "phase" "workspace" { worktreePath := some (some "/feature"), updatedAt := 2 } none]

theorem retargeting_not_tracked : ¬ Tracked ["workspace"] retargeting := by
  intro h
  have hlast := h.placed.last.linked
  obtain ⟨parent, ⟨⟩, hscope⟩ := hlast "phase" _ "plan" rfl rfl
  cases hscope.worktreePath

end DamHopper.Workflow
