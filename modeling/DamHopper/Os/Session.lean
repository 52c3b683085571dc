import DamHopper.Lib.Js
import DamHopper.Os.TileTree

/-!
# Os — Session

The window session of `os/types.ts`: windows by id, and desktops that place them.
A window is on one desktop, tiled or floating, and placed there unless it is
minimized; a desktop has a tile tree, a list of floating windows from back to
front, and a focus.

`schema` is always 1 and is left out, and so are the fields that none of the
functions below reads (`runtimeIdentity`, and the fields of a context besides
`profileId`, `projectId` and `worktreeId`). `Record<string, OsWindow>` is a finite
map of own keys. A lookup of the source also finds the names on `Object.prototype`, such as
`constructor`. What the validator accepts does not depend on that, since nothing there has a
`desktopId`; the texts of its errors, and every statement about an operation on a window id,
are for ids that are own keys or no such names.
-/

namespace DamHopper.Os

inductive OsAppId where
  | terminals | editor | browser | files | search | changes | projectInfo | git
  | conflictResolver | sessionChanges | workflowPlans | portsTunnels | agentStore
  | settings | systemMonitor | agentHub | recipes
  deriving Repr, DecidableEq

def OsAppId.name : OsAppId → String
  | .terminals => "terminals"
  | .editor => "editor"
  | .browser => "browser"
  | .files => "files"
  | .search => "search"
  | .changes => "changes"
  | .projectInfo => "project-info"
  | .git => "git"
  | .conflictResolver => "conflict-resolver"
  | .sessionChanges => "session-changes"
  | .workflowPlans => "workflow-plans"
  | .portsTunnels => "ports-tunnels"
  | .agentStore => "agent-store"
  | .settings => "settings"
  | .systemMonitor => "system-monitor"
  | .agentHub => "agent-hub"
  | .recipes => "recipes"

structure WindowContext where
  profileId : String
  projectId : Option String
  worktreeId : Option String
  deriving Repr, DecidableEq

inductive WindowMode where
  | tile | float
  deriving Repr, DecidableEq

structure FloatBounds where
  x : ℚ
  y : ℚ
  width : ℚ
  height : ℚ
  deriving Repr, DecidableEq

structure RestorePlacement where
  mode : WindowMode
  desktopId : String
  floatBounds : Option FloatBounds
  deriving Repr, DecidableEq

/-- `appState` may be anything: nothing checks it before it is sanitized. -/
structure OsWindow where
  id : String
  appId : OsAppId
  title : String
  ctx : WindowContext
  mode : WindowMode
  desktopId : String
  maximized : Bool
  minimized : Bool
  floatBounds : Option FloatBounds
  restorePlacement : Option RestorePlacement
  appState : Js

/-- `Omit<OsWindow, "desktopId" | "maximized" | "minimized">` -/
structure WindowConfig where
  id : String
  appId : OsAppId
  title : String
  ctx : WindowContext
  mode : WindowMode
  floatBounds : Option FloatBounds
  restorePlacement : Option RestorePlacement
  appState : Js

structure OsDesktop where
  id : String
  name : String
  defaultCtx : Option WindowContext
  tree : Option (TileNode String)
  floatingWindowIds : List String
  focusedWindowId : Option String
  deriving Repr, DecidableEq

structure OsSession where
  activeDesktopId : String
  desktops : List OsDesktop
  windows : AssocMap String OsWindow

structure Viewport where
  width : ℚ
  height : ℚ
  deriving Repr, DecidableEq

/-- An id that `generateUUID` drew. -/
structure Uuid where
  value : String
  ne_empty : value ≠ ""

namespace OsDesktop

def panes (d : OsDesktop) : List (TilePaneNode String) := TileNode.panes? d.tree

def treeItems (d : OsDesktop) : List String := TileNode.items? d.tree

end OsDesktop

namespace OsSession

def desktopIds (session : OsSession) : List String := session.desktops.map (·.id)

def findDesktop (session : OsSession) (desktopId : String) : Option OsDesktop :=
  session.desktops.find? fun d => d.id = desktopId

def updateDesktop (session : OsSession) (desktopId : String)
    (updater : OsDesktop → OsDesktop) : OsSession :=
  { session with
    desktops := session.desktops.map fun d => if d.id = desktopId then updater d else d }

/-- `{ ...session, windows: { ...session.windows, [windowId]: window } }` -/
def putWindow (session : OsSession) (windowId : String) (window : OsWindow) : OsSession :=
  { session with windows := session.windows.insert windowId window }

def createDefaultOsSession (desktopId name : String) : OsSession :=
  { activeDesktopId := desktopId
    desktops := [{ id := desktopId, name, defaultCtx := none, tree := none
                   floatingWindowIds := [], focusedWindowId := none }]
    windows := .empty }

end OsSession

end DamHopper.Os
