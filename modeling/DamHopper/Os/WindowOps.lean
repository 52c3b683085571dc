import Mathlib.Data.Rat.Floor
import DamHopper.Os.Session

/-!
# Os — WindowOps

The operations of `os/window-ops.ts` on a session. Each is a pure function that
returns the session unchanged where the source does. The ids that `generateUUID`
draws and the time that `addDesktop` puts into an id are arguments; numbers are
rationals, and an omitted viewport is `none`.
-/

namespace DamHopper.Os

/-! ## Bounds of floating windows -/

def DEFAULT_FLOAT_BOUNDS : FloatBounds := { x := 60, y := 60, width := 720, height := 520 }

def MIN_FLOAT_WIDTH : ℚ := 280

def MIN_FLOAT_HEIGHT : ℚ := 200

def CASCADE_STEP : ℚ := 28

def clampFloatBounds (bounds : FloatBounds) (viewport : Option Viewport) : FloatBounds :=
  let width := max MIN_FLOAT_WIDTH bounds.width
  let height := max MIN_FLOAT_HEIGHT bounds.height
  match viewport with
  | none => { bounds with width, height }
  | some viewport =>
    if viewport.width ≤ 0 ∨ viewport.height ≤ 0 then { bounds with width, height }
    else
      let maxX := max 0 (viewport.width - 50)
      let maxY := max 0 (viewport.height - 50)
      { x := max 0 (min bounds.x maxX), y := max 0 (min bounds.y maxY), width, height }

def eligibleWindows (session : OsSession) (desktopId : String) : List OsWindow :=
  match session.findDesktop desktopId with
  | some desktop =>
    (desktop.floatingWindowIds.filterMap session.windows.get?).filter fun w =>
      !w.minimized && w.floatBounds.isSome
  | none => []

def calculateNextFloatBounds (session : OsSession) (desktopId : String)
    (viewport : Viewport) : FloatBounds :=
  let safeWidth := max 100 viewport.width
  let safeHeight := max 80 viewport.height
  let fitWidth := min DEFAULT_FLOAT_BOUNDS.width (max 50 (safeWidth - 20))
  let fitHeight := min DEFAULT_FLOAT_BOUNDS.height (max 40 (safeHeight - 20))
  let baseX := min DEFAULT_FLOAT_BOUNDS.x (max 0 (safeWidth - fitWidth))
  let baseY := min DEFAULT_FLOAT_BOUNDS.y (max 0 (safeHeight - fitHeight))
  let count := (eligibleWindows session desktopId).length
  if count = 0 then { x := baseX, y := baseY, width := fitWidth, height := fitHeight }
  else
    -- the title bar stays reachable: 100 from the right, 40 from the bottom
    let maxUsableX := max baseX (safeWidth - 100)
    let maxUsableY := max baseY (safeHeight - 40)
    let maxStepsX := max 1 ((maxUsableX - baseX) / CASCADE_STEP).floor
    let maxStepsY := max 1 ((maxUsableY - baseY) / CASCADE_STEP).floor
    let maxSteps := min maxStepsX maxStepsY
    let stepIndex : Int := (count : Int) % maxSteps
    { x := min (baseX + stepIndex * CASCADE_STEP) maxUsableX
      y := min (baseY + stepIndex * CASCADE_STEP) maxUsableY
      width := fitWidth, height := fitHeight }

def defaultViewport (viewport : Option Viewport) : Viewport :=
  viewport.getD { width := 1280, height := 800 }

/-! ## Placements -/

def removeWindowFromDesktopTree (tree : Option (TileNode String)) (windowId : String) :
    Option (TileNode String) :=
  match tree with
  | none => none
  | some tree =>
    match tree.findTilePaneContaining (· = windowId) with
    | none => some tree
    | some pane =>
      if 1 < pane.items.length then some (tree.removeItemFromTilePane pane.id windowId)
      else tree.removeTilePane pane.id

def addWindowToDesktopTree (tree : Option (TileNode String)) (windowId paneId : String) :
    TileNode String :=
  match tree with
  | none => .pane (TileNode.newTilePaneNode [windowId] (some windowId) paneId)
  | some tree =>
    match tree.collectTilePanes.head? with
    | some targetPane => tree.insertItemIntoTilePane targetPane.id windowId none
    | none => .pane (TileNode.newTilePaneNode [windowId] (some windowId) paneId)

def isLive (closedId : String) (allWindows : AssocMap String OsWindow) (id : String) : Bool :=
  id ≠ closedId && !(allWindows.get? id).any (·.minimized)

def pickNextFocus (desktop : OsDesktop) (closedId : String)
    (allWindows : AssocMap String OsWindow) : Option String :=
  if desktop.focusedWindowId ≠ some closedId then desktop.focusedWindowId
  else
    match (desktop.floatingWindowIds.filter (isLive closedId allWindows)).getLast? with
    | some id => some id
    | none =>
      desktop.panes.findSome? fun pane =>
        -- if (live) return live: the empty id is passed over
        (pane.items.find? (isLive closedId allWindows)).filter (· ≠ "")

def toFront (floatingWindowIds : List String) (windowId : String) : List String :=
  floatingWindowIds.filter (· ≠ windowId) ++ [windowId]

namespace OsDesktop

variable (d : OsDesktop) (windowId : String)

def without (focusedWindowId : Option String) : OsDesktop :=
  { d with
    floatingWindowIds := d.floatingWindowIds.filter (· ≠ windowId)
    tree := removeWindowFromDesktopTree d.tree windowId
    focusedWindowId }

def focusAfter (allWindows : AssocMap String OsWindow) : Option String :=
  if d.focusedWindowId = some windowId then pickNextFocus d windowId allWindows
  else d.focusedWindowId

def showFloat : OsDesktop :=
  { d with
    floatingWindowIds := toFront d.floatingWindowIds windowId
    focusedWindowId := some windowId }

def showTile (paneId : String) : OsDesktop :=
  { d with
    tree := some (addWindowToDesktopTree d.tree windowId paneId)
    focusedWindowId := some windowId }

def withMode (mode : WindowMode) (paneId : String) : OsDesktop :=
  if mode = .float then
    { d with tree := removeWindowFromDesktopTree d.tree windowId }.showFloat windowId
  else
    { d with
      floatingWindowIds := d.floatingWindowIds.filter (· ≠ windowId) }.showTile windowId
      paneId

/-- Focused already, in front of the other floats, and the active tab. -/
def isInFront : Bool :=
  let isAlreadyFocused := d.focusedWindowId = some windowId
  let isFloatingAtFront :=
    windowId ∉ d.floatingWindowIds ∨ d.floatingWindowIds.getLast? = some windowId
  let isPaneActive :=
    (d.tree.bind (·.findTilePaneContaining (· = windowId))).all
      (·.active = some windowId)
  isAlreadyFocused && isFloatingAtFront && isPaneActive

def hasInTree : Bool :=
  d.tree.any fun tree => (tree.findTilePaneContaining (· = windowId)).isSome

end OsDesktop

namespace OsSession

variable (session : OsSession) (windowId : String)

def removeWindowFromAllDesktopPlacements : OsSession :=
  session.desktops.foldl
    (fun updated desk =>
      if desk.floatingWindowIds.contains windowId || desk.hasInTree windowId then
        updated.updateDesktop desk.id fun d =>
          d.without windowId (d.focusAfter windowId session.windows)
      else updated)
    session

/-! ## Opening, closing, focus -/

def openWindow (windowConfig : WindowConfig) (targetDesktopId : Option String)
    (viewport : Option Viewport) (paneId : String) : OsSession :=
  match (session.findDesktop (targetDesktopId.getD session.activeDesktopId)).or
      session.desktops.head? with
  | none => session
  | some desktop =>
    let floatBounds := windowConfig.floatBounds.or
      (if windowConfig.mode = .float then
        some (calculateNextFloatBounds session desktop.id (defaultViewport viewport))
      else none)
    let window : OsWindow :=
      { id := windowConfig.id, appId := windowConfig.appId, title := windowConfig.title
        ctx := windowConfig.ctx, mode := windowConfig.mode, desktopId := desktop.id
        maximized := false, minimized := false, floatBounds
        restorePlacement := windowConfig.restorePlacement
        appState := windowConfig.appState }
    (session.putWindow window.id window).updateDesktop desktop.id fun d =>
      if window.mode = .float then d.showFloat window.id else d.showTile window.id paneId

def closeWindow : OsSession :=
  match session.windows.get? windowId with
  | none => session
  | some window =>
    let nextWindows := session.windows.erase windowId
    match session.findDesktop window.desktopId with
    | none => { session with windows := nextWindows }
    | some desktop =>
      { session with windows := nextWindows }.updateDesktop desktop.id fun d =>
        d.without windowId (pickNextFocus d windowId nextWindows)

def activatePane (tree : Option (TileNode String)) (windowId : String) :
    Option (TileNode String) :=
  tree.map fun tree =>
    match tree.findTilePaneContaining (· = windowId) with
    | some pane =>
      if pane.active ≠ some windowId then
        tree.updateTilePane pane.id fun p => { p with active := some windowId }
      else tree
    | none => tree

def focusWindow : OsSession :=
  match session.windows.get? windowId with
  | none => session
  | some window =>
    match session.findDesktop window.desktopId with
    | none => session
    | some currentDesktop =>
      if currentDesktop.isInFront windowId then session
      else
        session.updateDesktop window.desktopId fun d =>
          { d with
            tree := activatePane d.tree windowId
            floatingWindowIds :=
              if windowId ∈ currentDesktop.floatingWindowIds then
                toFront d.floatingWindowIds windowId
              else d.floatingWindowIds
            focusedWindowId := some windowId }

def switchDesktop (targetDesktopId : String) : OsSession :=
  if session.activeDesktopId = targetDesktopId then session
  else if (session.findDesktop targetDesktopId).isNone then session
  else { session with activeDesktopId := targetDesktopId }

def moveWindowToDesktop (targetDesktopId paneId : String) : OsSession :=
  match session.windows.get? windowId with
  | none => session
  | some window =>
    if window.desktopId = targetDesktopId then session
    else if (session.findDesktop targetDesktopId).isNone then session
    else
      let withoutWindow := session.updateDesktop window.desktopId fun d =>
        d.without windowId
          (if d.focusedWindowId = some windowId then none else d.focusedWindowId)
      let updatedWindow := { window with
        desktopId := targetDesktopId
        restorePlacement := window.restorePlacement.map fun placement =>
          { placement with desktopId := targetDesktopId } }
      let updated := withoutWindow.putWindow windowId updatedWindow
      if window.minimized then updated
      else
        updated.updateDesktop targetDesktopId fun d =>
          if updatedWindow.mode = .float then
            { d with
              floatingWindowIds := d.floatingWindowIds ++ [windowId]
              focusedWindowId := some windowId }
          else d.showTile windowId paneId

/-! ## Modes -/

def windowWithMode (window : OsWindow) (mode : WindowMode) (viewport : Option Viewport) :
    OsWindow :=
  { window with
    maximized := false
    mode := mode
    floatBounds :=
      if mode = .float then
        some (window.floatBounds.getD
          (calculateNextFloatBounds session window.desktopId (defaultViewport viewport)))
      else window.floatBounds }

/-- What `setWindowMode` and `toggleWindowMode` share: give the window another
mode and place it accordingly. -/
def applyWindowMode (window : OsWindow) (mode : WindowMode) (viewport : Option Viewport)
    (paneId : String) : OsSession :=
  (session.putWindow windowId (session.windowWithMode window mode viewport)).updateDesktop
    window.desktopId (·.withMode windowId mode paneId)

def setWindowMode (mode : WindowMode) (viewport : Option Viewport) (paneId : String) : OsSession :=
  match session.windows.get? windowId with
  | none => session
  | some window =>
    if window.mode = mode then session
    else session.applyWindowMode windowId window mode viewport paneId

def toggleWindowMode (viewport : Option Viewport) (paneId : String) : OsSession :=
  match session.windows.get? windowId with
  | none => session
  | some window =>
    let nextMode : WindowMode := if window.mode = .tile then .float else .tile
    session.applyWindowMode windowId window nextMode viewport paneId

/-! ## Minimizing and maximizing -/

def minimizeWindow : OsSession :=
  match session.windows.get? windowId with
  | none => session
  | some window =>
    if window.minimized then session
    else
      let updatedWindow := { window with
        minimized := true
        restorePlacement := some
          { mode := window.mode, desktopId := window.desktopId
            floatBounds := window.floatBounds } }
      let updatedWindows := session.windows.insert windowId updatedWindow
      { session with windows := updatedWindows }.updateDesktop window.desktopId fun d =>
        d.without windowId (pickNextFocus d windowId updatedWindows)

def unminimize (window : OsWindow) (paneId : String) : OsSession :=
  let mode := (window.restorePlacement.map (·.mode)).getD window.mode
  let desktopId := (window.restorePlacement.map (·.desktopId)).getD window.desktopId
  let floatBounds := (window.restorePlacement.bind (·.floatBounds)).or window.floatBounds
  let updatedWindow := { window with
    minimized := false, mode := mode, desktopId := desktopId, floatBounds := floatBounds
    restorePlacement := none }
  (session.putWindow windowId updatedWindow).updateDesktop desktopId fun d =>
    if mode = .float then d.showFloat windowId
    else if d.hasInTree windowId then { d with focusedWindowId := some windowId }
    else d.showTile windowId paneId

def restoreWindow (paneId : String) : OsSession :=
  match session.windows.get? windowId with
  | none => session
  | some window =>
    if window.minimized then session.unminimize windowId window paneId
    else if window.maximized then
      session.putWindow windowId { window with maximized := false }
    else session

def maximizeWindow (paneId : String) : OsSession :=
  match session.windows.get? windowId with
  | none => session
  | some window =>
    if window.maximized ∧ ¬ window.minimized then session
    else
      let nextSession :=
        if window.minimized then session.restoreWindow windowId paneId else session
      match nextSession.windows.get? windowId with
      | none => nextSession
      | some currentWin =>
        nextSession.putWindow windowId { currentWin with maximized := true }

def toggleMaximizeWindow (paneId : String) : OsSession :=
  match session.windows.get? windowId with
  | none => session
  | some window =>
    if window.maximized then session.restoreWindow windowId paneId
    else session.maximizeWindow windowId paneId

/-- Restore, switch to the window's desktop, and focus it. -/
def revealWindow (paneId : String) : OsSession :=
  match session.windows.get? windowId with
  | none => session
  | some target =>
    let s := if target.minimized then session.restoreWindow windowId paneId else session
    let finalDesktopId :=
      ((s.windows.get? windowId).map (·.desktopId)).getD target.desktopId
    (s.switchDesktop finalDesktopId).focusWindow windowId

/-- Take the window out of every placement and show it as a float of `desktopId`. -/
def presentElsewhere (targetWin : OsWindow) (desktopId : String) (viewport : Option Viewport) :
    OsSession :=
  let s := session.removeWindowFromAllDesktopPlacements windowId
  let floatBounds :=
    (targetWin.floatBounds.or (targetWin.restorePlacement.bind (·.floatBounds))).getD
      (calculateNextFloatBounds s desktopId (defaultViewport viewport))
  let updatedWindow := { targetWin with
    desktopId := desktopId, mode := .float, minimized := false, maximized := false
    floatBounds := some floatBounds, restorePlacement := none }
  let s := (s.putWindow windowId updatedWindow).updateDesktop desktopId
    (·.showFloat windowId)
  (s.switchDesktop desktopId).focusWindow windowId

def presentWindowAsFloat (desktopId : String) (viewport : Option Viewport) : OsSession :=
  match session.windows.get? windowId with
  | none => session
  | some targetWin =>
    if ¬ session.desktops.any (·.id = desktopId) then session
    else if targetWin.mode = .float ∧ targetWin.desktopId = desktopId ∧
        ¬ targetWin.minimized ∧ ¬ targetWin.maximized then
      let s :=
        if session.activeDesktopId ≠ desktopId then session.switchDesktop desktopId
        else session
      s.focusWindow windowId
    else session.presentElsewhere windowId targetWin desktopId viewport

/-! ## Docking -/

/-- Step 1 of `dockWindowInDesktopTree`: take the window out of every floating list
and out of the trees of the other desktops. -/
def undockElsewhere (desktopId windowId : String) : OsSession :=
  session.desktops.foldl
    (fun updated desk =>
      if desk.floatingWindowIds.contains windowId ||
          (desk.id ≠ desktopId && desk.hasInTree windowId) then
        updated.updateDesktop desk.id fun d =>
          -- the tree of the target desktop is left to the docking itself
          { d.without windowId (d.focusAfter windowId session.windows) with
            tree :=
              if desk.id ≠ desktopId then removeWindowFromDesktopTree d.tree windowId
              else d.tree }
      else updated)
    session

def dockWindowInDesktopTree (desktopId windowId : String) (target : TileDockTarget)
    (sourcePaneId : Option String) (newPaneId splitId : String) : OsSession :=
  match session.windows.get? windowId with
  | none => session
  | some window =>
    match session.findDesktop desktopId with
    | none => session
    | some targetDesk =>
      if targetDesk.tree.any fun tree =>
          (tree.findTilePaneById target.paneId).isNone then session
      else
        let updatedWindow := { window with
          desktopId := desktopId, mode := .tile, minimized := false }
        ((session.undockElsewhere desktopId windowId).putWindow windowId
          updatedWindow).updateDesktop desktopId fun d =>
          { d with
            tree := some (match d.tree with
              | none =>
                .pane (TileNode.newTilePaneNode [windowId] (some windowId) newPaneId)
              | some tree =>
                tree.dockItemIntoTileTree windowId target sourcePaneId newPaneId
                  splitId)
            floatingWindowIds := d.floatingWindowIds.filter (· ≠ windowId)
            focusedWindowId := some windowId }

/-! ## Desktops -/

/-- The id `addDesktop` makes at time `now`. -/
def newDesktopId (now : Nat) : String :=
  "desktop-" ++ toString now ++ "-" ++ toString (session.desktops.length + 1)

def addDesktop (name : Option String) (defaultCtx : Option WindowContext) (now : Nat) : OsSession :=
  let nextIndex := session.desktops.length + 1
  let trimmed := (name.map Js.trim).getD ""
  let newDesktop : OsDesktop :=
    { id := session.newDesktopId now
      name := if trimmed ≠ "" then trimmed else "Desktop " ++ toString nextIndex
      defaultCtx, tree := none, floatingWindowIds := [], focusedWindowId := none }
  { session with desktops := session.desktops ++ [newDesktop] }

def renameDesktop (desktopId name : String) : OsSession :=
  let trimmed := Js.trim name
  if trimmed = "" then session
  else session.updateDesktop desktopId fun d => { d with name := trimmed }

def survivor (desktopId : String) (survivingDesktopId : Option String) : Option OsDesktop :=
  match survivingDesktopId with
  | some surviving =>
    if surviving ≠ "" then
      session.desktops.find? fun d => d.id = surviving ∧ d.id ≠ desktopId
    else session.desktops.find? fun d => d.id ≠ desktopId
  | none => session.desktops.find? fun d => d.id ≠ desktopId

/-- `paneId` gives the id drawn when a window is moved. -/
def removeDesktop (desktopId : String) (survivingDesktopId : Option String)
    (paneId : String → String) : OsSession :=
  if session.desktops.length ≤ 1 then session
  else if (session.findDesktop desktopId).isNone then session
  else
    match session.survivor desktopId survivingDesktopId with
    | none => session
    | some targetDesk =>
      let windowsToMove := session.windows.values.filter (·.desktopId = desktopId)
      let moved := windowsToMove.foldl
        (fun updated win =>
          updated.moveWindowToDesktop win.id targetDesk.id (paneId win.id))
        session
      { moved with
        activeDesktopId :=
          if moved.activeDesktopId = desktopId then targetDesk.id
          else moved.activeDesktopId
        desktops := moved.desktops.filter (·.id ≠ desktopId) }

/-! ## Stacking and tabs -/

def bringWindowToFront : OsSession :=
  match session.windows.get? windowId with
  | none => session
  | some window =>
    if window.mode ≠ .float then session
    else session.updateDesktop window.desktopId (·.showFloat windowId)

def sendWindowToBack : OsSession :=
  match session.windows.get? windowId with
  | none => session
  | some window =>
    if window.mode ≠ .float then session
    else
      session.updateDesktop window.desktopId fun d =>
        { d with
          floatingWindowIds := windowId :: d.floatingWindowIds.filter (· ≠ windowId) }

def selectPaneTab (paneId windowId : String) : OsSession :=
  match session.windows.get? windowId with
  | none => session
  | some window =>
    session.updateDesktop window.desktopId fun d =>
      match d.tree with
      | none => d
      | some tree =>
        if (tree.findTilePaneById paneId).any (·.items.contains windowId) then
          { d with
            tree := some (tree.updateTilePane paneId fun p =>
              { p with active := some windowId })
            focusedWindowId := some windowId }
        else d

inductive SplitPlace where
  | edge (edge : DockEdge)
  | center
  deriving Repr, DecidableEq

def splitWindow (sourceWindowId targetWindowId : String) (direction : SplitPlace)
    (newPaneId splitId : String) : OsSession :=
  match session.windows.get? sourceWindowId, session.windows.get? targetWindowId with
  | some _, some targetWin =>
    match (session.findDesktop targetWin.desktopId).bind (·.tree) with
    | none => session
    | some tree =>
      match tree.findTilePaneContaining (· = targetWindowId) with
      | none => session
      | some targetPane =>
        let target : TileDockTarget := match direction with
          | .center => .paneCenter targetPane.id
          | .edge edge => .paneEdge targetPane.id edge
        session.dockWindowInDesktopTree targetWin.desktopId sourceWindowId target none
          newPaneId splitId
  | _, _ => session

end OsSession

end DamHopper.Os
