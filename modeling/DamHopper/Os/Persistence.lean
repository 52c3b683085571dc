import DamHopper.Lib.Checks
import DamHopper.Os.WindowOps

/-!
# Os — Persistence

`os/persistence.ts`: the check a stored or imported session has to pass, what is
written, and loading, saving and importing.

`validateOsSession` takes any JavaScript value. The source hands the value on under
the type `OsSessionV1`; here a check returns what it has read, at the model's type,
and the session is put together from that. `toJs` writes a session the way
`JSON.stringify` sees it: a field that is `undefined` is left out. The texts of the
errors are the source's; `str` is `String(x)`.

Inherited names of `Object.prototype` are not modelled: a window id such as
`constructor` that is not an own key is refused by the source too, one check later.
-/

namespace DamHopper.Os

open Js Option
open Js (field?)

/-! ## Writing -/

def WindowContext.toJs (ctx : WindowContext) : Js :=
  .obj ([("profileId", .str ctx.profileId)] ++ field? "projectId" ctx.projectId .str ++
    field? "worktreeId" ctx.worktreeId .str)

def WindowMode.name : WindowMode → String
  | .tile => "tile"
  | .float => "float"

def FloatBounds.toJs (bounds : FloatBounds) : Js :=
  .obj [("x", .num (.finite bounds.x)), ("y", .num (.finite bounds.y)),
    ("width", .num (.finite bounds.width)), ("height", .num (.finite bounds.height))]

def RestorePlacement.toJs (placement : RestorePlacement) : Js :=
  .obj ([("mode", .str placement.mode.name), ("desktopId", .str placement.desktopId)] ++
    field? "floatBounds" placement.floatBounds FloatBounds.toJs)

def OsWindow.toJs (w : OsWindow) : Js :=
  .obj ([("id", .str w.id), ("appId", .str w.appId.name), ("title", .str w.title),
      ("ctx", w.ctx.toJs), ("mode", .str w.mode.name), ("desktopId", .str w.desktopId),
      ("maximized", .bool w.maximized), ("minimized", .bool w.minimized)] ++
    field? "floatBounds" w.floatBounds FloatBounds.toJs ++
    field? "restorePlacement" w.restorePlacement RestorePlacement.toJs ++
    field? "appState" w.appState.present fun state => state)

def SplitDirection.name : SplitDirection → String
  | .horizontal => "horizontal"
  | .vertical => "vertical"

def TileNode.toJs : TileNode String → Js
  | .pane node =>
    .obj [("type", .str "pane"), ("id", .str node.id), ("items", .arr (node.items.map .str)),
      ("active", node.active.elim .null .str)]
  | .split id direction sizes first second =>
    .obj [("type", .str "split"), ("id", .str id), ("direction", .str direction.name),
      ("sizes", .arr [.num (.finite sizes.1), .num (.finite sizes.2)]),
      ("children", .arr [first.toJs, second.toJs])]

def OsDesktop.toJs (d : OsDesktop) : Js :=
  .obj ([("id", .str d.id), ("name", .str d.name)] ++
    field? "defaultCtx" d.defaultCtx WindowContext.toJs ++
    [("tree", d.tree.elim .null TileNode.toJs),
      ("floatingWindowIds", .arr (d.floatingWindowIds.map .str)),
      ("focusedWindowId", d.focusedWindowId.elim .null .str)])

def OsSession.toJs (s : OsSession) : Js :=
  .obj [("schema", .num (.finite 1)), ("activeDesktopId", .str s.activeDesktopId),
    ("desktops", .arr (s.desktops.map OsDesktop.toJs)),
    ("windows", .obj (s.windows.mapValues fun _ w => w.toJs).entries)]

/-! ## The check -/

def optionally {α : Type} (x : Js) (read : Js → Except String α) :
    Except String (Option α) :=
  if x.isUndefined then pure none
  else do
    let value ← read x
    pure (some value)

def OsAppId.all : List OsAppId :=
  [.terminals, .editor, .browser, .files, .search, .changes, .projectInfo, .git,
    .conflictResolver, .sessionChanges, .workflowPlans, .portsTunnels, .agentStore,
    .settings, .systemMonitor, .agentHub, .recipes]

def readAppId (x : Js) : Option OsAppId :=
  x.asStr.bind fun id => OsAppId.all.find? (·.name = id)

def readMode (x : Js) : Option WindowMode :=
  if x.asStr = some "tile" then some .tile
  else if x.asStr = some "float" then some .float
  else none

/-- The checks of `ctx` and of `defaultCtx`; each has its own messages. -/
def readContext (notObject noProfile badProject badWorktree : String) (ctx : Js) :
    Except String WindowContext := do
  require (ctx.isObject = true) notObject
  let profileId ← expect (ctx.get "profileId").asStr noProfile
  require (profileId ≠ "") noProfile
  let projectId ← optionally (ctx.get "projectId") fun x => expect x.asStr badProject
  let worktreeId ← optionally (ctx.get "worktreeId") fun x => expect x.asStr badWorktree
  pure { profileId, projectId, worktreeId }

def readFloatBounds (bounds : Js) : Option FloatBounds := do
  guard (bounds.isObject = true)
  let x ← (bounds.get "x").asFinite
  let y ← (bounds.get "y").asFinite
  let width ← (bounds.get "width").asFinite
  guard (0 < width)
  let height ← (bounds.get "height").asFinite
  guard (0 < height)
  pure { x, y, width, height }

/-! ### Trees -/

section

variable {α : Type} [DecidableEq α]

def readDirection (x : Js) : Option SplitDirection :=
  if x.asStr = some "horizontal" then some .horizontal
  else if x.asStr = some "vertical" then some .vertical
  else none

def readSizes (x : Js) : Option (ℚ × ℚ) :=
  match x.asArr with
  | some [left, right] => do
      let left ← left.asFinite
      guard (0 < left)
      let right ← right.asFinite
      guard (0 < right)
      pure (left, right)
  | _ => none

/-- The branch of `isValidTileNode` for a pane. -/
def readPane (isItemValid : Js → Option α) (node : Js) : Option (TilePaneNode α) := do
  let id ← (node.get "id").asStr
  guard (id ≠ "")
  let elems ← (node.get "items").asArr
  let items ← elems.mapM isItemValid
  guard items.Nodup
  if items ≠ [] then
    -- an active item equal to a valid one is valid itself
    let active ← isItemValid (node.get "active")
    guard (active ∈ items)
    pure { id, items, active := some active }
  else
    guard ((node.get "active").isNull = true)
    pure { id, items, active := none }

/-- `isValidTileNode`, with the tree. -/
def readTileNode (isItemValid : Js → Option α) (node : Js) : Option (TileNode α) :=
  if _hobj : node.isObject = true then
    if (node.get "type").asStr = some "pane" then (readPane isItemValid node).map .pane
    else if (node.get "type").asStr = some "split" then
      match _hchildren : (node.get "children").asArr with
      | some [left, right] => do
          let id ← (node.get "id").asStr
          guard (id ≠ "")
          let direction ← readDirection (node.get "direction")
          let sizes ← readSizes (node.get "sizes")
          let first ← readTileNode isItemValid left
          let second ← readTileNode isItemValid right
          pure (.split id direction sizes first second)
      | _ => none
    else none
  else none
termination_by sizeOf node
decreasing_by all_goals exact (sizeOf_elem_lt _hchildren (by simp)).trans (sizeOf_get_lt _hobj)

end

/-! ### Sessions -/

section

variable (str : Js → String)

structure DesktopHead where
  id : String
  name : String
  defaultCtx : Option WindowContext

def validateHead (done : List DesktopHead) (d : Js) : Except String DesktopHead := do
  require (d.isObject = true) "Desktop must be an object"
  let id ← expect (d.get "id").asStr "Desktop missing id or name"
  let name ← expect (d.get "name").asStr "Desktop missing id or name"
  require (id ∉ done.map (·.id)) ("Duplicate desktop id: " ++ id)
  let defaultCtx ← optionally (d.get "defaultCtx")
    (readContext ("Invalid defaultCtx on desktop " ++ id)
      ("Desktop " ++ id ++ " missing valid defaultCtx.profileId")
      ("Desktop " ++ id ++ " has invalid defaultCtx.projectId")
      ("Desktop " ++ id ++ " has invalid defaultCtx.worktreeId"))
  pure { id, name, defaultCtx }

def validateRestorePlacement (desktopIds : List String) (winId : String) (rp : Js) :
    Except String RestorePlacement := do
  require (rp.isObject = true) ("Window " ++ winId ++ " has invalid restorePlacement")
  let mode ← expect (readMode (rp.get "mode"))
    ("Window " ++ winId ++ " has invalid restorePlacement.mode")
  let desktopId ← expect ((rp.get "desktopId").asStr.filter (· ∈ desktopIds))
    ("Window " ++ winId ++ " has invalid restorePlacement.desktopId")
  let floatBounds ← optionally (rp.get "floatBounds") fun b =>
    expect (readFloatBounds b)
      ("Window " ++ winId ++ " has invalid restorePlacement.floatBounds")
  pure { mode, desktopId, floatBounds }

def validateWindow (desktopIds : List String) (winId : String) (w : Js) :
    Except String OsWindow := do
  require (w.isObject = true) ("Invalid window object at " ++ winId)
  require ((w.get "id").asStr = some winId)
    ("Window id mismatch: key=" ++ winId ++ ", id=" ++ str (w.get "id"))
  let appId ← expect (readAppId (w.get "appId")) ("Unknown appId: " ++ str (w.get "appId"))
  let title ← expect (w.get "title").asStr ("Window " ++ winId ++ " missing valid title")
  let ctx ← readContext ("Window " ++ winId ++ " missing valid ctx.profileId")
    ("Window " ++ winId ++ " missing valid ctx.profileId")
    ("Window " ++ winId ++ " has invalid ctx.projectId")
    ("Window " ++ winId ++ " has invalid ctx.worktreeId") (w.get "ctx")
  let mode ← expect (readMode (w.get "mode"))
    ("Invalid window mode: " ++ str (w.get "mode"))
  let desktopId ← expect ((w.get "desktopId").asStr.filter (· ∈ desktopIds))
    ("Window " ++ winId ++ " references unknown desktopId: " ++ str (w.get "desktopId"))
  let maximized ← expect (w.get "maximized").asBool
    ("Window " ++ winId ++ " missing boolean maximized or minimized")
  let minimized ← expect (w.get "minimized").asBool
    ("Window " ++ winId ++ " missing boolean maximized or minimized")
  let floatBounds ← optionally (w.get "floatBounds") fun b =>
    expect (readFloatBounds b) ("Window " ++ winId ++ " has invalid floatBounds")
  let restorePlacement ← optionally (w.get "restorePlacement")
    (validateRestorePlacement desktopIds winId)
  pure { id := winId, appId, title, ctx, mode, desktopId, maximized, minimized
         floatBounds, restorePlacement, appState := w.get "appState" }

variable (windows : AssocMap String OsWindow) (deskId : String)

/-- One element of `floatingWindowIds`; `done` are those before it. -/
def validateFloat (done : List String) (fw : Js) : Except String String := do
  let fwId ← expect (fw.asStr.filter windows.contains)
    ("Floating window " ++ str fw ++ " not found in session windows")
  require (fwId ∉ done) ("Duplicate floating window " ++ fwId ++ " on desktop " ++ deskId)
  let win ← expect (windows.get? fwId)
    ("Floating window " ++ str fw ++ " not found in session windows")
  require (win.desktopId = deskId) ("Floating window " ++ fwId ++ " belongs to desktop " ++
    win.desktopId ++ ", not " ++ deskId)
  require (win.mode = .float) ("Window " ++ fwId ++ " placed in floating list but mode is " ++
    win.mode.name)
  require (win.minimized = false)
    ("Minimized window " ++ fwId ++ " cannot appear in floating list")
  pure fwId

/-- One item of a pane. The tree has been read, so the window is there. -/
def validateTile (itemId : String) : Except String Unit :=
  (windows.get? itemId).elim (pure ()) fun win => do
    require (win.desktopId = deskId) ("Window " ++ itemId ++
      " in tile tree belongs to desktop " ++ win.desktopId ++ ", not " ++ deskId)
    require (win.mode = .tile) ("Window " ++ itemId ++ " in tile tree has mode " ++
      win.mode.name)
    require (win.minimized = false)
      ("Minimized window " ++ itemId ++ " cannot appear in tile tree")

def validatePane (pane : TilePaneNode String) : Except String Unit := do
  require (pane.items ≠ []) ("Empty pane " ++ pane.id ++ " in desktop " ++ deskId)
  require (∃ active ∈ pane.active, active ≠ "" ∧ active ∈ pane.items)
    ("Pane " ++ pane.id ++ " has active item '" ++ pane.active.getD "null" ++
      "' not present in items")
  checkAll (validateTile windows deskId) pane.items

def validateTree (x : Js) : Except String (Option (TileNode String)) :=
  if x.isNull then pure none
  else do
    let tree ← expect (readTileNode (fun item => item.asStr.filter windows.contains) x)
      ("Invalid tile tree or unreferenced window in desktop " ++ deskId)
    checkAll (validatePane windows deskId) tree.collectTilePanes
    pure (some tree)

/-- `placed` says whether a window is in one of the two maps of placements for this
desktop; only its own pass of the loop can have put it there. -/
def validateFocus (placed : List String) (x : Js) : Except String (Option String) :=
  if x.isNull || x.isUndefined then pure none
  else do
    let id ← expect (x.asStr.filter windows.contains)
      ("Desktop " ++ deskId ++ " has unknown focusedWindowId " ++ str x)
    let focusedWin ← expect (windows.get? id)
      ("Desktop " ++ deskId ++ " has unknown focusedWindowId " ++ str x)
    require (focusedWin.desktopId = deskId)
      ("Desktop " ++ deskId ++ " focused window belongs to " ++ focusedWin.desktopId)
    require (focusedWin.minimized = false)
      ("Desktop " ++ deskId ++ " focused window cannot be minimized")
    require (id ∈ placed)
      ("Desktop " ++ deskId ++ " focused window is not placed on that desktop")
    pure (some id)

/-- The second loop over the desktops. -/
def validateDesktop (head : DesktopHead) (desk : Js) : Except String OsDesktop := do
  let elems ← expect (desk.get "floatingWindowIds").asArr
    ("Invalid floatingWindowIds on desktop " ++ head.id)
  let floatingWindowIds ← checkEach (validateFloat str windows head.id) [] elems
  let tree ← validateTree windows head.id (desk.get "tree")
  let focusedWindowId ← validateFocus str windows head.id
    (floatingWindowIds ++ TileNode.items? tree) (desk.get "focusedWindowId")
  pure { id := head.id, name := head.name, defaultCtx := head.defaultCtx, tree
         floatingWindowIds, focusedWindowId }

/-- The placements of a window over all desktops: `placedInTree`, `placedInFloat`. -/
def treePlacements (desktops : List OsDesktop) (winId : String) : Nat :=
  (desktops.flatMap (·.treeItems)).count winId

def floatPlacements (desktops : List OsDesktop) (winId : String) : Nat :=
  (desktops.flatMap (·.floatingWindowIds)).count winId

/-- Exactly one placement, or none if the window is minimized. -/
def validatePlacedOnce (desktops : List OsDesktop) (winId : String) (w : OsWindow) :
    Except String Unit :=
  let tree := treePlacements desktops winId
  let float := floatPlacements desktops winId
  if w.minimized then
    require (tree + float = 0) ("Minimized window " ++ winId ++
      " must have zero placements, found " ++ toString (tree + float))
  else
    match w.mode with
    | .tile => do
        require (float = 0) ("Tiled window " ++ winId ++ " cannot appear in floating list")
        require (tree = 1) ("Tiled window " ++ winId ++
          " must appear exactly once in tree, found " ++ toString tree)
    | .float => do
        require (tree = 0) ("Floating window " ++ winId ++ " cannot appear in tile tree")
        require (float = 1) ("Floating window " ++ winId ++
          " must appear exactly once in float list, found " ++ toString float)

end

def validateOsSession (str : Js → String) (candidate : Js) : Except String OsSession := do
  require (candidate.isObject = true) "Session must be a non-null object"
  require ((candidate.get "schema").asFinite = some 1)
    ("Unsupported schema version: " ++ str (candidate.get "schema"))
  let activeDesktopId ← expect (candidate.get "activeDesktopId").asStr
    "Missing or invalid activeDesktopId"
  let elems ← expect (candidate.get "desktops").asArr "Desktops must be a non-empty array"
  require (elems.isEmpty = false) "Desktops must be a non-empty array"
  require ((candidate.get "windows").isObject = true) "Windows must be an object map"
  let heads ← checkEach validateHead [] elems
  let desktopIds := heads.map (·.id)
  require (activeDesktopId ∈ desktopIds)
    ("activeDesktopId '" ++ activeDesktopId ++ "' not found in desktops")
  let entries ← checkEach (fun _ e => validateWindow str desktopIds e.1 e.2) []
    (candidate.get "windows").props.entries
  let windows := AssocMap.ofList (entries.map fun w => (w.id, w))
  let desktops ← checkEach (fun _ e => validateDesktop str windows e.1 e.2) []
    (heads.zip elems)
  checkAll (fun e => validatePlacedOnce desktops e.1 e.2) windows.entries
  pure { activeDesktopId, desktops, windows }

/-! ## What is kept -/

/-- A field of an application's state: what is kept of its value. A missing field is
not kept, and what is kept is kept as it is when it is written again. -/
structure AppField where
  name : String
  project : Js → Option Js
  missing : project .undefined = none
  stable : ∀ v v', project v = some v' → project v' = some v'

namespace AppField

def strIf (name : String) (condition : String → Bool) : AppField where
  name := name
  project v := (v.asStr.filter condition).map .str
  missing := rfl
  stable v v' h := by
    obtain ⟨value, hvalue, rfl⟩ := map_eq_some_iff.mp h
    have hcondition := (filter_eq_some_iff.mp hvalue).2
    simp [asStr, hcondition]

def str (name : String) : AppField := strIf name fun _ => true

def bool (name : String) : AppField where
  name := name
  project v := v.asBool.map .bool
  missing := rfl
  stable v v' h := by
    obtain ⟨value, _, rfl⟩ := map_eq_some_iff.mp h
    rfl

def finite (name : String) : AppField where
  name := name
  project v := v.asFinite.map fun value => .num (.finite value)
  missing := rfl
  stable v v' h := by
    obtain ⟨value, _, rfl⟩ := map_eq_some_iff.mp h
    rfl

/-- An array of strings, cut to `limit`. -/
def strings (name : String) (limit : Nat) : AppField where
  name := name
  project v := (v.asArr.bind (·.mapM Js.asStr)).map fun values =>
    .arr ((values.take limit).map .str)
  missing := rfl
  stable v v' h := by
    obtain ⟨values, _, rfl⟩ := map_eq_some_iff.mp h
    have hread : ((values.take limit).map Js.str).mapM Js.asStr = some (values.take limit) := by
      rw [mapM_eq_some_iff, List.map_map]
      rfl
    simp only [Js.asArr, bind_some, hread, map_some, List.take_take, min_self]

def elements (name : String) (limit : Nat) (read : Js → Option Js)
    (hread : ∀ v v', read v = some v' → read v' = some v') : AppField where
  name := name
  project v := ((v.asArr.map fun items => (items.filterMap read).take limit).filter
    fun items => !items.isEmpty).map .arr
  missing := rfl
  stable v v' h := by
    obtain ⟨items, hitems, rfl⟩ := map_eq_some_iff.mp h
    obtain ⟨hmap, hne⟩ := filter_eq_some_iff.mp hitems
    obtain ⟨elems, _, rfl⟩ := map_eq_some_iff.mp hmap
    have hall : ∀ x ∈ (elems.filterMap read).take limit, read x = some x := by
      intro x hx
      obtain ⟨y, _, hy⟩ := List.mem_filterMap.mp (List.mem_of_mem_take hx)
      exact hread y x hy
    have hsame : ((elems.filterMap read).take limit).filterMap read =
        (elems.filterMap read).take limit :=
      (List.filterMap_congr hall).trans (List.filterMap_some)
    simp only [asArr, map_some, hsame, List.take_take, min_self]
    rw [filter_some, if_pos hne]
    rfl

end AppField

def readWorkspace (item : Js) : Option Js := do
  let profileId ← (item.get "profileId").asStr
  let project ← (item.get "project").asStr
  guard (profileId ≠ "" ∧ project ≠ "")
  pure (.obj [("profileId", .str profileId), ("project", .str project)])

theorem readWorkspace_stable (v v' : Js) (h : readWorkspace v = some v') :
    readWorkspace v' = some v' := by
  simp only [readWorkspace, bind_eq_bind, bind_eq_some_iff,
    guard_eq_some', exists_const] at h
  obtain ⟨profileId, _, project, _, hne, ⟨⟩⟩ := h
  simp [readWorkspace, get_obj, lookup, asStr, hne]

def isWorkspaceName (name : String) : Bool := name ≠ "" && length name ≤ 1024

def readDisclosed (item : Js) : Option Js := (item.asStr.filter isWorkspaceName).map .str

theorem readDisclosed_stable (v v' : Js) (h : readDisclosed v = some v') :
    readDisclosed v' = some v' := (AppField.strIf "" isWorkspaceName).stable v v' h

/-- The fields that are kept. The review target of `session-changes` is never written. -/
def appFields : OsAppId → List AppField
  | .terminals => [.str "sessionId", .str "cwd"]
  | .editor => [.str "filePath"]
  | .browser => [.str "url"]
  | .files =>
    [.str "selectedPath", .strIf "mode" fun mode => mode = "workspace" || mode = "projects",
      .str "projectFilter", .strings "expandedPaths" 100, .finite "scrollTop"]
  | .search => [.str "query"]
  | .changes => [.str "selectedFile"]
  | .git => [.str "selectedCommit", .str "selectedBranch"]
  | .workflowPlans => [.str "selectedItemId"]
  | .settings | .agentStore | .projectInfo => [.str "activeTab"]
  | .systemMonitor => [.str "inspectedProfileId", .str "selectedIncidentId", .str "activeTab"]
  | .agentHub =>
    [.elements "openWorkspaces" 64 readWorkspace readWorkspace_stable,
      .bool "sidebarHidden",
      .elements "disclosedWorkspaces" 64 readDisclosed readDisclosed_stable,
      .strIf "selectedWorkspace" isWorkspaceName]
  | .recipes => [.str "selectedRecipeId", .str "activeTab"]
  | .sessionChanges | .conflictResolver | .portsTunnels => []

def projectAppState (fields : List AppField) (rawState : Js) : List (String × Js) :=
  fields.flatMap fun f => field? f.name (f.project (rawState.get f.name)) fun v => v

def sanitizeAppState (appId : OsAppId) (rawState : Js) : Js :=
  if ¬ rawState.isObject then .undefined
  else
    let projected := projectAppState (appFields appId) rawState
    if projected.isEmpty then .undefined else .obj projected

/-- `Number(x) || fallback` on the two sizes. -/
def sanitizeFloatBounds (bounds : FloatBounds) : FloatBounds :=
  { bounds with
    width := if bounds.width = 0 then 720 else bounds.width
    height := if bounds.height = 0 then 520 else bounds.height }

def sanitizeWindow (win : OsWindow) : OsWindow :=
  { win with
    title := orDefault win.title "Window"
    floatBounds := win.floatBounds.map sanitizeFloatBounds
    restorePlacement := win.restorePlacement.map fun placement =>
      { placement with floatBounds := placement.floatBounds.map sanitizeFloatBounds }
    appState := sanitizeAppState win.appId win.appState }

def sanitizeDesktop (d : OsDesktop) : OsDesktop :=
  { d with
    name := orDefault d.name "Desktop"
    defaultCtx := d.defaultCtx.map fun ctx =>
      { ctx with
        projectId := ctx.projectId.filter (· ≠ "")
        worktreeId := ctx.worktreeId.filter (· ≠ "") }
    focusedWindowId := d.focusedWindowId.filter (· ≠ "") }

/-- Assigned on a plain object, this name sets the prototype and does not become a key. -/
def protoKey : String := "__proto__"

def sanitizeSessionForPersistence (session : OsSession) : OsSession :=
  { activeDesktopId := session.activeDesktopId
    desktops := session.desktops.map sanitizeDesktop
    -- the windows are assigned to an empty object one by one
    windows := (session.windows.erase protoKey).mapValues fun _ win => sanitizeWindow win }

/-! ## Loading and saving -/

inductive NoticeKind where
  | invalidSchema | storageError | corruptData
  deriving Repr, DecidableEq

structure PersistenceNotice where
  kind : NoticeKind
  message : String
  deriving Repr, DecidableEq

/-- The text under the storage key, by what `JSON.parse` makes of it. -/
inductive StoredText where
  | json (value : Js)
  | malformed (error : String)

/-- The storage and the module's two variables. -/
structure Persistence where
  stored : Option StoredText
  autosaveSuspended : Bool
  preservedCorruptBytes : Option StoredText

/-- `thrown` is the error of `localStorage.getItem`, if it throws. -/
def loadOsSession (str : Js → String) (thrown : Option String) (p : Persistence) :
    OsSession × Option PersistenceNotice × Persistence :=
  let fallback := OsSession.createDefaultOsSession "desktop-1" "Main"
  match thrown with
  | some err =>
    (fallback, some { kind := .storageError
                      message := "Failed to access localStorage: " ++ err }, p)
  | none =>
    match p.stored with
    | none => (fallback, none, p)
    | some raw =>
      let suspended := { p with autosaveSuspended := true, preservedCorruptBytes := raw }
      match raw with
      | .malformed err =>
        (fallback, some { kind := .corruptData
                          message := "Failed to parse session JSON: " ++ err },
          suspended)
      | .json parsed =>
        match validateOsSession str parsed with
        | .error error =>
          (fallback, some { kind := .invalidSchema, message := error }, suspended)
        | .ok session => (sanitizeSessionForPersistence session, none, p)

/-- `thrown` is the error of `localStorage.setItem`, if it throws. -/
def saveOsSession (session : OsSession) (thrown : Option String) (p : Persistence) :
    Bool × Option PersistenceNotice × Persistence :=
  if p.autosaveSuspended then (false, none, p)
  else
    match thrown with
    | some err =>
      (false, some { kind := .storageError
                     message := "Failed to save OS session to localStorage: " ++ err }, p)
    | none =>
      (true, none,
        { p with stored := some (.json (sanitizeSessionForPersistence session).toJs) })

/-- The value `exportOsSessionJson` prints. -/
def exportOsSessionJson (session : OsSession) : Js :=
  (sanitizeSessionForPersistence session).toJs

def importOsSessionJson (str : Js → String) (parse : String → Except String Js)
    (raw : String) : Except String OsSession :=
  match parse raw with
  | .error err => .error ("Invalid JSON syntax: " ++ err)
  | .ok parsed => (validateOsSession str parsed).map sanitizeSessionForPersistence

end DamHopper.Os
