import DamHopper.Lib.Cascade
import DamHopper.Lib.Checks
import DamHopper.Lib.Runs
import DamHopper.Lib.Text

/-!
# Items — the work items of the workflow store

`workflow/store/item.rs`, `workflow/store/event.rs` and the validators of
`workflow/model/validation.rs`. A work item is a plan, a phase or a task; it belongs to a
workspace and to a target (a project and, within it, a worktree) and may have a parent. Every
operation is one transaction under the store's lock: it commits with its result or leaves the
tables as they were.

The tables are those of migration 010: item and event identifiers are primary keys,
`workspace_id` refers to the workspaces and `parent_id` to the items, with
`ON DELETE CASCADE`. Timestamps are `u64` in the program and `i64` in the database; a larger
one fails when it is bound. Of an event only what decides whether it is stored is kept.
-/

namespace DamHopper.Workflow

def MAX_TITLE_CHARS : Nat := 200

def MAX_EVENT_PAYLOAD_BYTES : Nat := 4096

def MAX_HIERARCHY_DEPTH : Nat := 3

def I64_MAX : Nat := 2 ^ 63 - 1

def U64_MAX : Nat := 2 ^ 64 - 1

inductive ItemKind where
  | plan | phase | task
  deriving Repr, DecidableEq

inductive ItemStatus where
  | backlog | next | inProgress | blocked | done | canceled
  deriving Repr, DecidableEq

inductive WorkflowSource where
  | manual | terminal | git | agent | system
  deriving Repr, DecidableEq

structure WorkflowItem where
  id : String
  workspaceId : String
  projectName : String
  worktreePath : Option String
  parentId : Option String
  kind : ItemKind
  title : String
  summary : Option String
  status : ItemStatus
  sortOrder : Int
  source : WorkflowSource
  createdAt : Nat
  updatedAt : Nat
  completedAt : Option Nat
  archivedAt : Option Nat
  deriving Repr, DecidableEq

/-- What an update may change: `none` leaves a column as it is. -/
structure ItemPatch where
  title : Option String := none
  summary : Option (Option String) := none
  status : Option ItemStatus := none
  sortOrder : Option Int := none
  worktreePath : Option (Option String) := none
  updatedAt : Nat
  deriving Repr, DecidableEq

structure WorkflowEvent where
  id : String
  workspaceId : String
  occurredAt : Nat
  recordedAt : Nat
  payloadJson : Option String
  expiresAt : Option Nat
  deriving Repr, DecidableEq

inductive WorkflowModelError where
  | titleEmpty
  | titleTooLong (actual max : Nat)
  | payloadTooLong (actual max : Nat)
  | invalidItemTransition (source target : ItemStatus)
  | invalidParentKind (childKind : ItemKind) (parentKind : Option ItemKind)
  deriving Repr, DecidableEq

inductive SqliteError where
  | toSqlConversionFailure
  | primaryKey
  | foreignKey
  deriving Repr, DecidableEq

inductive WorkflowStoreError where
  | sqlite (error : SqliteError)
  | validation (error : WorkflowModelError)
  | itemNotFound (id : String)
  | hierarchyViolation (message : String)
  | optimisticConflict
  deriving Repr, DecidableEq

/-! ## Validation -/

def validateTitle (title : String) : Except WorkflowModelError Unit := do
  let trimmed := Text.trim title.toList
  require (trimmed ≠ []) .titleEmpty
  require (trimmed.length ≤ MAX_TITLE_CHARS) (.titleTooLong trimmed.length MAX_TITLE_CHARS)

def validateEventPayload (payload : String) : Except WorkflowModelError Unit :=
  require (payload.utf8ByteSize ≤ MAX_EVENT_PAYLOAD_BYTES)
    (.payloadTooLong payload.utf8ByteSize MAX_EVENT_PAYLOAD_BYTES)

def ItemStatus.allows : ItemStatus → ItemStatus → Bool
  | .backlog, target => target ∈ [.next, .inProgress, .canceled]
  | .next, target => target ∈ [.backlog, .inProgress, .canceled]
  | .inProgress, target => target ∈ [.blocked, .done, .canceled, .backlog, .next]
  | .blocked, target => target ∈ [.inProgress, .canceled]
  | .done, target => target = .inProgress
  | .canceled, target => target = .inProgress

def validateItemTransition (current target : ItemStatus) : Except WorkflowModelError Unit :=
  require (current = target ∨ current.allows target) (.invalidItemTransition current target)

def ItemKind.accepts : ItemKind → Option ItemKind → Bool
  | .plan, parentKind => parentKind.isNone
  | .phase, parentKind => parentKind = some .plan
  | .task, parentKind => parentKind ≠ some .task

def validateItemHierarchy (kind : ItemKind) (parentKind : Option ItemKind) :
    Except WorkflowModelError Unit :=
  require (kind.accepts parentKind) (.invalidParentKind kind parentKind)

/-! ## The tables -/

structure Db where
  workspaces : List String
  items : AssocMap String WorkflowItem
  events : AssocMap String WorkflowEvent
  deriving DecidableEq

def Db.empty (workspaces : List String) : Db := ⟨workspaces, .empty, .empty⟩

def WorkflowItem.stored (item : WorkflowItem) : WorkflowItem :=
  { item with
    completedAt := if item.status = .done then some item.updatedAt else item.completedAt }

namespace Db

variable (db : Db)

def getItem (id workspaceId : String) : Option WorkflowItem :=
  (db.items.get? id).filter fun item => item.workspaceId = workspaceId

def bindTimes (times : List Nat) : Except WorkflowStoreError Unit :=
  require (∀ time ∈ times, time ≤ I64_MAX) (.sqlite .toSqlConversionFailure)

/-- The `INSERT` of an item. A parent that it names has been found in the table before. -/
def insertItem (item : WorkflowItem) : Except WorkflowStoreError Db := do
  bindTimes ([item.createdAt, item.updatedAt] ++ item.completedAt.toList ++
    item.archivedAt.toList)
  require (db.items.get? item.id = none) (.sqlite .primaryKey)
  require (item.workspaceId ∈ db.workspaces) (.sqlite .foreignKey)
  return { db with items := db.items.insert item.id item }

def checkPayload : Option String → Except WorkflowStoreError Unit
  | none => .ok ()
  | some payload => (validateEventPayload payload).mapError .validation

/-- The `INSERT OR IGNORE` of an event: an identifier that is there already is no error, a
workspace that is not there is one. -/
def recordEvent (event : WorkflowEvent) : Except WorkflowStoreError Db := do
  checkPayload event.payloadJson
  bindTimes ([event.occurredAt, event.recordedAt] ++ event.expiresAt.toList)
  if db.events.contains event.id then
    return db
  else
    require (event.workspaceId ∈ db.workspaces) (.sqlite .foreignKey)
    return { db with events := db.events.insert event.id event }

def recordAny : Option WorkflowEvent → Except WorkflowStoreError Db
  | none => .ok db
  | some event => db.recordEvent event

/-! ## Creating an item -/

/-- The item that an earlier call with the same event has created. -/
def replayed (item : WorkflowItem) (event : Option WorkflowEvent) : Option WorkflowItem :=
  if event.any fun ev => db.events.contains ev.id then
    db.getItem item.id item.workspaceId
  else none

/-- The walk up from a parent: `levels` more are allowed above it. -/
def checkAncestors (workspaceId : String) :
    Nat → List String → Option String → Except WorkflowStoreError Unit
  | _, _, none => .ok ()
  | 0, visited, some ancestorId =>
    if ancestorId ∈ visited then .error (.hierarchyViolation "Hierarchy cycle detected")
    else .error
      (.hierarchyViolation s!"Maximum hierarchy depth of {MAX_HIERARCHY_DEPTH} exceeded")
  | levels + 1, visited, some ancestorId => do
      require (ancestorId ∉ visited) (.hierarchyViolation "Hierarchy cycle detected")
      let ancestor ← expect (db.getItem ancestorId workspaceId) (.itemNotFound ancestorId)
      checkAncestors workspaceId levels (ancestorId :: visited) ancestor.parentId

/-- The kind of the parent, if the item names one that it may have. -/
def checkParent (item : WorkflowItem) : Except WorkflowStoreError (Option ItemKind) :=
  match item.parentId with
  | none => .ok none
  | some pid => do
      let parent ← expect (db.getItem pid item.workspaceId) (.itemNotFound pid)
      require (parent.projectName = item.projectName ∧ parent.worktreePath = item.worktreePath)
        (.hierarchyViolation "Parent item belongs to a different target scope")
      -- the item and its parent are two levels
      db.checkAncestors item.workspaceId (MAX_HIERARCHY_DEPTH - 2) [pid, item.id]
        parent.parentId
      return some parent.kind

def createItem (item : WorkflowItem) (event : Option WorkflowEvent) :
    Except WorkflowStoreError (WorkflowItem × Db) := do
  (validateTitle item.title).mapError .validation
  match db.replayed item event with
  | some existing => return (existing, db)
  | none =>
    let parentKind ← db.checkParent item
    (validateItemHierarchy item.kind parentKind).mapError .validation
    let inserted ← db.insertItem item.stored
    let recorded ← inserted.recordAny event
    return (item.stored, recorded)

/-! ## Changing an item -/

def nextUpdatedAt (current : WorkflowItem) (updatedAt : Nat) : Nat :=
  max updatedAt (min (current.updatedAt + 1) U64_MAX)

def patchedTitle (current : WorkflowItem) : Option String → Except WorkflowStoreError String
  | none => .ok current.title
  | some title => do
      (validateTitle title).mapError .validation
      return String.ofList (Text.trim title.toList)

/-- The status an update writes, and the time of completion with it. -/
def patchedStatus (current : WorkflowItem) (updatedAt : Nat) :
    Option ItemStatus → Except WorkflowStoreError (ItemStatus × Option Nat)
  | none => .ok (current.status, current.completedAt)
  | some target => do
      (validateItemTransition current.status target).mapError .validation
      return (target, if target = .done then some updatedAt else none)

def updateItemTxCas (id workspaceId : String) (patch : ItemPatch)
    (expectedUpdatedAt : Option Nat) (event : Option WorkflowEvent) :
    Except WorkflowStoreError (WorkflowItem × Db) := do
  let current ← expect (db.getItem id workspaceId) (.itemNotFound id)
  require (∀ expected ∈ expectedUpdatedAt, current.updatedAt = expected) .optimisticConflict
  let updatedAt := nextUpdatedAt current patch.updatedAt
  let title ← patchedTitle current patch.title
  let (status, completedAt) ← patchedStatus current updatedAt patch.status
  let item : WorkflowItem :=
    { current with
      title, status, updatedAt, completedAt
      summary := patch.summary.getD current.summary
      sortOrder := patch.sortOrder.getD current.sortOrder
      worktreePath := patch.worktreePath.getD current.worktreePath }
  bindTimes ([updatedAt] ++ completedAt.toList)
  let recorded ← { db with items := db.items.insert id item : Db }.recordAny event
  return (item, recorded)

def updateItem (id workspaceId : String) (patch : ItemPatch) (event : Option WorkflowEvent) :
    Except WorkflowStoreError (WorkflowItem × Db) :=
  db.updateItemTxCas id workspaceId patch none event

def updateItemCas (id workspaceId : String) (patch : ItemPatch) (expectedUpdatedAt : Nat)
    (event : Option WorkflowEvent) : Except WorkflowStoreError (WorkflowItem × Db) :=
  db.updateItemTxCas id workspaceId patch (some expectedUpdatedAt) event

/-! ## Deleting an item -/

/-- The item is as the caller has last seen it, if the caller says how. -/
def checkExpected (id workspaceId : String) : Option Nat → Except WorkflowStoreError Unit
  | none => .ok ()
  | some expected => do
      let current ← expect (db.getItem id workspaceId) (.itemNotFound id)
      require (current.updatedAt = expected) .optimisticConflict

def deleteItemTxCas (id workspaceId : String) (expectedUpdatedAt : Option Nat)
    (event : Option WorkflowEvent) : Except WorkflowStoreError (Bool × Db) := do
  db.checkExpected id workspaceId expectedUpdatedAt
  match db.getItem id workspaceId with
  | none => return (false, db)
  | some _ =>
    let items := deleteCascade WorkflowItem.parentId db.items id
    let recorded ← { db with items : Db }.recordAny event
    return (true, recorded)

def deleteItem (id workspaceId : String) (event : Option WorkflowEvent) :
    Except WorkflowStoreError (Bool × Db) :=
  db.deleteItemTxCas id workspaceId none event

def deleteItemCas (id workspaceId : String) (expectedUpdatedAt : Nat)
    (event : Option WorkflowEvent) : Except WorkflowStoreError (Bool × Db) :=
  db.deleteItemTxCas id workspaceId (some expectedUpdatedAt) event

end Db

/-! ## Sequences of calls -/

inductive Call where
  | create (item : WorkflowItem) (event : Option WorkflowEvent)
  | update (id workspaceId : String) (patch : ItemPatch) (event : Option WorkflowEvent)
  | updateCas (id workspaceId : String) (patch : ItemPatch) (expectedUpdatedAt : Nat)
      (event : Option WorkflowEvent)
  | delete (id workspaceId : String) (event : Option WorkflowEvent)
  | deleteCas (id workspaceId : String) (expectedUpdatedAt : Nat)
      (event : Option WorkflowEvent)

def Call.commit (db : Db) : Call → Except WorkflowStoreError Db
  | .create item event => Prod.snd <$> db.createItem item event
  | .update id workspaceId patch event => Prod.snd <$> db.updateItem id workspaceId patch event
  | .updateCas id workspaceId patch expected event =>
    Prod.snd <$> db.updateItemCas id workspaceId patch expected event
  | .delete id workspaceId event => Prod.snd <$> db.deleteItem id workspaceId event
  | .deleteCas id workspaceId expected event =>
    Prod.snd <$> db.deleteItemCas id workspaceId expected event

def step (db : Db) (call : Call) : Db := (call.commit db).toOption.getD db

/-! ## What a call does to the items -/

section

variable {db db' : Db}
  {id workspaceId : String} {item current : WorkflowItem} {event : Option WorkflowEvent}
  {updatedAt : Nat} {expected : Option Nat}

theorem Db.getItem_eq_some_iff : db.getItem id workspaceId = some item ↔
      db.items.get? id = some item ∧ item.workspaceId = workspaceId := by
  rw [Db.getItem, Option.filter_eq_some_iff, decide_eq_true_eq]

theorem Db.recordAny_items (h : db.recordAny event = .ok db') : db'.items = db.items := by
  cases event with
  | none =>
    cases h
    rfl
  | some event =>
    simp only [recordAny, recordEvent, check_bind_eq_ok_iff] at h
    obtain ⟨_, _, h⟩ := h
    split at h
    · cases h
      rfl
    · simp only [check_bind_eq_ok_iff, pure_eq_ok_iff] at h
      rw [← h.2]

structure Created (db : Db) (item : WorkflowItem) (db' : Db) : Prop where
  fresh : db.items.get? item.id = none
  items : db'.items = db.items.insert item.id item.stored
  parent : ∀ pid, item.parentId = some pid → ∃ parent, db.items.get? pid = some parent ∧
    parent.workspaceId = item.workspaceId ∧ parent.projectName = item.projectName ∧
    parent.worktreePath = item.worktreePath ∧ item.kind.accepts (some parent.kind)
  root : item.parentId = none → item.kind.accepts none

theorem Db.checkParent_ok {parentKind : Option ItemKind}
    (h : db.checkParent item = .ok parentKind) :
    (item.parentId = none ∧ parentKind = none) ∨
      ∃ pid parent, item.parentId = some pid ∧ parentKind = some parent.kind ∧
        db.items.get? pid = some parent ∧ parent.workspaceId = item.workspaceId ∧
        parent.projectName = item.projectName ∧ parent.worktreePath = item.worktreePath := by
  unfold checkParent at h
  split at h
  next hnone =>
    cases h
    exact .inl ⟨hnone, rfl⟩
  next pid hpid =>
    simp only [bind_eq_ok_iff, expect_eq_ok_iff, require_eq_ok_iff, pure_eq_ok_iff] at h
    obtain ⟨parent, hget, _, hscope, _, _, hkind⟩ := h
    rw [getItem_eq_some_iff] at hget
    exact .inr ⟨pid, parent, hpid, hkind.symm, hget.1, hget.2, hscope.1, hscope.2⟩

theorem Db.createItem_ok {result : WorkflowItem}
    (h : db.createItem item event = .ok (result, db')) : db' = db ∨ Created db item db' := by
  simp only [createItem, check_bind_eq_ok_iff] at h
  obtain ⟨_, h⟩ := h
  split at h
  · rw [pure_eq_ok_iff] at h
    cases h
    exact .inl rfl
  simp only [bind_eq_ok_iff, mapError_eq_ok_iff, validateItemHierarchy,
    require_eq_ok_iff] at h
  obtain ⟨parentKind, hparent, _, haccepts, inserted, hinsert, recorded, hrecord, ⟨⟩⟩ := h
  simp only [insertItem, check_bind_eq_ok_iff, require_eq_ok_iff, pure_eq_ok_iff] at hinsert
  obtain ⟨_, hfresh, _, rfl⟩ := hinsert
  refine .inr ⟨hfresh, recordAny_items hrecord, ?_, ?_⟩
  · intro pid hpid
    rcases checkParent_ok hparent with ⟨hnone, _⟩ | ⟨pid', parent, hpid', hkind, hrest⟩
    · simp [hnone] at hpid
    rw [hpid'] at hpid
    cases hpid
    obtain ⟨hget, hworkspace, hproject, hworktree⟩ := hrest
    exact ⟨parent, hget, hworkspace, hproject, hworktree, hkind ▸ haccepts⟩
  · intro hnone
    rcases checkParent_ok hparent with ⟨_, hkind⟩ | ⟨pid', _, hpid', _⟩
    · exact hkind ▸ haccepts
    · rw [hpid'] at hnone
      cases hnone

/-- The time of completion is recorded exactly with the status that says so. -/
def WorkflowItem.Settled (item : WorkflowItem) : Prop :=
  item.completedAt.isSome ↔ item.status = .done

theorem WorkflowItem.stored_settled (h : item.completedAt = none) : item.stored.Settled := by
  unfold WorkflowItem.Settled WorkflowItem.stored
  by_cases hdone : item.status = .done
  · simp [hdone]
  · simp [h]

structure Updated (db : Db) (id : String) (patch : ItemPatch) (expected : Option Nat)
    (current item : WorkflowItem) (db' : Db) : Prop where
  found : db.items.get? id = some current
  items : db'.items = db.items.insert id item
  expected : ∀ time ∈ expected, current.updatedAt = time
  later : current.updatedAt < item.updatedAt
  worktree : item.worktreePath = patch.worktreePath.getD current.worktreePath
  settled : current.Settled → item.Settled
  workspaceId : item.workspaceId = current.workspaceId
  projectName : item.projectName = current.projectName
  parentId : item.parentId = current.parentId
  kind : item.kind = current.kind

/-- A time that can be stored is later than the last one: the addition does not stick. -/
theorem Db.lt_nextUpdatedAt (h : nextUpdatedAt current updatedAt ≤ I64_MAX) :
    current.updatedAt < nextUpdatedAt current updatedAt := by
  simp only [nextUpdatedAt, I64_MAX, U64_MAX] at h ⊢
  omega

theorem Db.patchedStatus_settled {target : Option ItemStatus} {status : ItemStatus}
    {completedAt : Option Nat}
    (h : patchedStatus current updatedAt target = .ok (status, completedAt))
    (hcurrent : current.Settled) : completedAt.isSome ↔ status = .done := by
  cases target with
  | none =>
    cases h
    exact hcurrent
  | some target =>
    simp only [patchedStatus, check_bind_eq_ok_iff, pure_eq_ok_iff, Prod.mk.injEq] at h
    obtain ⟨_, rfl, rfl⟩ := h
    by_cases hdone : target = .done <;> simp

theorem Db.updateItemTxCas_ok {patch : ItemPatch}
    (h : db.updateItemTxCas id workspaceId patch expected event = .ok (item, db')) :
    ∃ current, Updated db id patch expected current item db' := by
  simp only [updateItemTxCas, bind_eq_ok_iff, expect_eq_ok_iff, require_eq_ok_iff,
    getItem_eq_some_iff] at h
  obtain ⟨current, ⟨hget, _⟩, _, hexpected, title, _, ⟨status, completedAt⟩, hstatus, _, hbind,
    recorded, hrecord, rfl, rfl⟩ := h
  refine ⟨current, hget, recordAny_items hrecord, hexpected, ?_, rfl, ?_, rfl, rfl, rfl, rfl⟩
  · rw [bindTimes, require_eq_ok_iff] at hbind
    exact lt_nextUpdatedAt (hbind _ (by simp))
  · exact patchedStatus_settled hstatus

theorem Db.deleteItemTxCas_ok {deleted : Bool}
    (h : db.deleteItemTxCas id workspaceId expected event = .ok (deleted, db')) :
    db'.items = db.items ∨ db'.items = deleteCascade WorkflowItem.parentId db.items id := by
  simp only [deleteItemTxCas, check_bind_eq_ok_iff] at h
  obtain ⟨_, h⟩ := h
  split at h
  · cases h
    exact .inl rfl
  · simp only [bind_eq_ok_iff] at h
    obtain ⟨recorded, hrecord, _, rfl⟩ := h
    exact .inr (recordAny_items hrecord)

end

def Call.updates : Call → Option (String × ItemPatch × Option Nat)
  | .update id _ patch _ => some (id, patch, none)
  | .updateCas id _ patch expected _ => some (id, patch, some expected)
  | _ => none

def Call.succeeds (db : Db) (call : Call) : Bool := (call.commit db).toOption.isSome

/-- **What a call does to the items**: nothing, one new item, one changed item, or one item
less with what is below it. -/
inductive Change (db : Db) (call : Call) (db' : Db) : Prop where
  | kept (hitems : db'.items = db.items) (hcall : call.succeeds db → call.updates = none)
  | created (item : WorkflowItem) (event : Option WorkflowEvent)
      (hcall : call = .create item event) (h : Created db item db')
  | updated (id : String) (patch : ItemPatch) (expected : Option Nat)
      (current item : WorkflowItem) (hcall : call.updates = some (id, patch, expected))
      (hsucceeds : call.succeeds db) (h : Updated db id patch expected current item db')
  | deleted (id : String) (hcall : call.updates = none)
      (h : db'.items = deleteCascade WorkflowItem.parentId db.items id)

theorem map_snd_eq_ok_iff {ε α β : Type _} {x : Except ε (α × β)} {b : β} :
    Prod.snd <$> x = .ok b ↔ ∃ a, x = .ok (a, b) := by
  cases x with
  | error e => simp
  | ok ab =>
    obtain ⟨a, b'⟩ := ab
    simp

theorem commit_change {db db' : Db} {call : Call} (h : call.commit db = .ok db') :
    Change db call db' := by
  have hsucceeds : call.succeeds db := by simp [Call.succeeds, h, Except.toOption]
  have hdeletes : ∀ {id : String}, call.updates = none → db'.items = db.items ∨
      db'.items = deleteCascade WorkflowItem.parentId db.items id → Change db call db' := by
    rintro id hcall (hkept | hdeleted)
    · exact .kept hkept fun _ => hcall
    · exact .deleted id hcall hdeleted
  cases call with
  | create item event =>
    obtain ⟨result, h⟩ := map_snd_eq_ok_iff.mp h
    rcases Db.createItem_ok h with rfl | hcreated
    · exact .kept rfl fun _ => rfl
    · exact .created item event rfl hcreated
  | update id workspaceId patch event | updateCas id workspaceId patch expected event =>
    obtain ⟨item, h⟩ := map_snd_eq_ok_iff.mp h
    obtain ⟨current, hupdated⟩ := Db.updateItemTxCas_ok h
    exact .updated id patch _ current item rfl hsucceeds hupdated
  | delete id workspaceId event | deleteCas id workspaceId expected event =>
    obtain ⟨deleted, h⟩ := map_snd_eq_ok_iff.mp h
    exact hdeletes rfl (Db.deleteItemTxCas_ok h)

theorem step_change (db : Db) (call : Call) : Change db call (step db call) := by
  cases h : call.commit db with
  | error e =>
    have hstep : step db call = db := by simp [step, h, Except.toOption]
    have hfails : call.succeeds db = false := by simp [Call.succeeds, h, Except.toOption]
    exact .kept (by rw [hstep]) fun hsucceeds => by simp [hfails] at hsucceeds
  | ok db' =>
    have hstep : step db call = db' := by simp [step, h, Except.toOption]
    rw [hstep]
    exact commit_change h

end DamHopper.Workflow
