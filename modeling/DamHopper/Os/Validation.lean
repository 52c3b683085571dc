import DamHopper.Os.Placement
import DamHopper.Os.Persistence

/-!
# Os — Validation

`validateOsSession` accepts exactly the sessions that obey the placement rules and
whose data is well formed. Both directions follow it check by check: `_sound` lemmas
say what is known of a value that was read, `_toJs` lemmas when a value that was
written is accepted.
-/

namespace DamHopper.Os

open List
open TileNode (Sound items? panes?)

/-! ## Well-formed data -/

def WindowContext.Ok (ctx : WindowContext) : Prop := ctx.profileId ≠ ""

def FloatBounds.Ok (bounds : FloatBounds) : Prop := 0 < bounds.width ∧ 0 < bounds.height

@[mk_iff] structure RestorePlacement.Ok (desktopIds : List String) (placement : RestorePlacement) :
    Prop where
  desktop : placement.desktopId ∈ desktopIds
  bounds : ∀ b ∈ placement.floatBounds, b.Ok

@[mk_iff] structure OsWindow.Ok (desktopIds : List String) (w : OsWindow) : Prop where
  ctx : w.ctx.Ok
  desktop : w.desktopId ∈ desktopIds
  bounds : ∀ b ∈ w.floatBounds, b.Ok
  restore : ∀ placement ∈ w.restorePlacement, placement.Ok desktopIds

def TileNode.Labelled {α : Type} : TileNode α → Prop
  | .pane node => node.id ≠ ""
  | .split id _ sizes first second =>
    id ≠ "" ∧ 0 < sizes.1 ∧ 0 < sizes.2 ∧ first.Labelled ∧ second.Labelled

instance (ctx : WindowContext) : Decidable ctx.Ok :=
  inferInstanceAs (Decidable (ctx.profileId ≠ ""))

instance (bounds : FloatBounds) : Decidable bounds.Ok := inferInstanceAs (Decidable (_ ∧ _))

instance (desktopIds : List String) (placement : RestorePlacement) :
    Decidable (placement.Ok desktopIds) :=
  decidable_of_iff' _ (RestorePlacement.ok_iff desktopIds placement)

instance (desktopIds : List String) (w : OsWindow) : Decidable (w.Ok desktopIds) :=
  decidable_of_iff' _ (OsWindow.ok_iff desktopIds w)

instance TileNode.decidableLabelled {α : Type} :
    (tree : TileNode α) → Decidable tree.Labelled
  | .pane node => inferInstanceAs (Decidable (node.id ≠ ""))
  | .split _ _ _ first second =>
    haveI := decidableLabelled first
    haveI := decidableLabelled second
    inferInstanceAs (Decidable (_ ∧ _ ∧ _ ∧ _ ∧ _))

/-! ## Reading -/

section

variable {x : Js}

theorem optionally_sound {α : Type} {read : Js → Except String α} {y : Option α} {Ok : α → Prop}
    (hread : ∀ x a, read x = .ok a → Ok a) (h : optionally x read = .ok y) :
    ∀ a ∈ y, Ok a := by
  unfold optionally at h
  split at h
  · rw [pure_eq_ok_iff] at h
    subst h
    rintro a ⟨⟩
  · obtain ⟨b, hb, h⟩ := bind_eq_ok_iff.mp h
    rw [pure_eq_ok_iff] at h
    subst h
    rintro a ⟨⟩
    exact hread x b hb

/-- An optional field is read back if its value is. -/
theorem optionally_toJs {α : Type} {write : α → Js} {read : Js → Except String α}
    {Ok : α → Prop} (hwrite : ∀ a, (write a).isUndefined = false)
    (hread : ∀ a b, read (write a) = .ok b ↔ b = a ∧ Ok a) (x y : Option α) :
    optionally ((x.map write).getD .undefined) read = .ok y ↔ y = x ∧ ∀ a ∈ x, Ok a := by
  cases x with
  | none =>
    have hnone : optionally .undefined read = pure none := rfl
    rw [Option.map_none, Option.getD_none, hnone, pure_eq_ok_iff]
    simp [eq_comm]
  | some a =>
    rw [Option.map_some, Option.getD_some, optionally, hwrite, if_neg Bool.false_ne_true]
    simp only [bind_eq_ok_iff, pure_eq_ok_iff, hread]
    simp [and_comm, eq_comm]

theorem readAppId_toJs (appId : OsAppId) : readAppId (.str appId.name) = some appId := by
  cases appId <;> decide

theorem readMode_toJs (mode : WindowMode) : readMode (.str mode.name) = some mode := by
  cases mode <;> decide

theorem readDirection_toJs (direction : SplitDirection) :
    readDirection (.str direction.name) = some direction := by
  cases direction <;> decide

theorem readContext_sound {notObject noProfile badProject badWorktree : String}
    {ctx : WindowContext} (h : readContext notObject noProfile badProject badWorktree x = .ok ctx) :
    ctx.Ok := by
  simp only [readContext, bind_eq_ok_iff, require_eq_ok_iff,
    pure_eq_ok_iff, exists_const] at h
  obtain ⟨_, profileId, _, hne, _, _, _, _, rfl⟩ := h
  exact hne

theorem readContext_toJs (notObject noProfile badProject badWorktree : String)
    (ctx ctx' : WindowContext) :
    readContext notObject noProfile badProject badWorktree ctx.toJs = .ok ctx' ↔
      ctx' = ctx ∧ ctx.Ok := by
  have hstr : ∀ error (x y : Option String),
      optionally ((x.map Js.str).getD .undefined) (fun x => expect x.asStr error) = .ok y ↔
        y = x ∧ ∀ a ∈ x, True := by
    intro error x y
    refine optionally_toJs (fun _ => rfl) (fun a b => ?_) x y
    rw [expect_eq_ok_iff]
    simp [Js.asStr, eq_comm]
  have hfields : ctx.toJs.get "projectId" = (ctx.projectId.map Js.str).getD .undefined ∧
      ctx.toJs.get "worktreeId" = (ctx.worktreeId.map Js.str).getD .undefined ∧
      ctx.toJs.get "profileId" = .str ctx.profileId := by
    simp [WindowContext.toJs, Js.get_obj, Js.lookup_append, Js.lookup_field?, Js.lookup]
  simp only [readContext, bind_eq_ok_iff, require_eq_ok_iff,
    pure_eq_ok_iff, exists_const, hfields, hstr]
  constructor
  · rintro ⟨_, profileId, ⟨⟩, hne, projectId, ⟨rfl, _⟩, worktreeId, ⟨rfl, _⟩, rfl⟩
    exact ⟨rfl, hne⟩
  · rintro ⟨rfl, hne⟩
    exact ⟨rfl, _, rfl, hne, _, ⟨rfl, fun _ _ => trivial⟩, _, ⟨rfl, fun _ _ => trivial⟩, rfl⟩

theorem readFloatBounds_sound {bounds : FloatBounds} (h : readFloatBounds x = some bounds) :
    bounds.Ok := by
  simp only [readFloatBounds, Option.bind_eq_bind, Option.bind_eq_some_iff, Option.guard_eq_some',
    exists_const] at h
  obtain ⟨_, _, _, _, _, width, _, hwidth, height, _, hheight, ⟨⟩⟩ := h
  exact ⟨hwidth, hheight⟩

theorem readFloatBounds_toJs (bounds bounds' : FloatBounds) :
    readFloatBounds bounds.toJs = some bounds' ↔ bounds' = bounds ∧ bounds.Ok := by
  have hobj : bounds.toJs.isObject = true := rfl
  simp only [readFloatBounds, hobj]
  simp only [Option.bind_eq_bind, Option.bind_eq_some_iff, Option.guard_eq_some', exists_const]
  constructor
  · rintro ⟨_, x, ⟨⟩, y, ⟨⟩, width, ⟨⟩, hwidth, height, ⟨⟩, hheight, ⟨⟩⟩
    exact ⟨rfl, hwidth, hheight⟩
  · rintro ⟨rfl, hwidth, hheight⟩
    exact ⟨trivial, _, rfl, _, rfl, _, rfl, hwidth, _, rfl, hheight, rfl⟩

theorem optionally_floatBounds_toJs (error : String) (x y : Option FloatBounds) :
    optionally ((x.map FloatBounds.toJs).getD .undefined)
        (fun b => expect (readFloatBounds b) error) = .ok y ↔
      y = x ∧ ∀ b ∈ x, b.Ok := by
  refine optionally_toJs (fun _ => rfl) (fun a b => ?_) x y
  rw [expect_eq_ok_iff, readFloatBounds_toJs]

end

/-! ## Reading trees -/

namespace TileNode

section

variable {α : Type} [DecidableEq α]
  {x : Js}

theorem readSizes_sound {sizes : ℚ × ℚ} (h : readSizes x = some sizes) :
    0 < sizes.1 ∧ 0 < sizes.2 := by
  unfold readSizes at h
  split at h
  · simp only [Option.bind_eq_bind, Option.bind_eq_some_iff, Option.guard_eq_some',
      exists_const] at h
    obtain ⟨left, _, hleft, right, _, hright, ⟨⟩⟩ := h
    exact ⟨hleft, hright⟩
  · cases h

theorem readPane_sound {isItemValid : Js → Option α} {node : TilePaneNode α}
    (h : readPane isItemValid x = some node) :
    node.id ≠ "" ∧ ∀ item ∈ node.items, ∃ js, isItemValid js = some item := by
  simp only [readPane, Option.bind_eq_bind, Option.bind_eq_some_iff, Option.guard_eq_some',
    exists_const] at h
  obtain ⟨id, _, hid, elems, _, items, hitems, _, h⟩ := h
  have hnode : node.id = id ∧ node.items = items := by
    split at h <;> simp only [Option.bind_eq_some_iff, Option.guard_eq_some', exists_const] at h
    · obtain ⟨active, _, _, ⟨⟩⟩ := h
      exact ⟨rfl, rfl⟩
    · obtain ⟨_, ⟨⟩⟩ := h
      exact ⟨rfl, rfl⟩
  rw [hnode.1, hnode.2]
  refine ⟨hid, fun item hitem => ?_⟩
  have hmem : some item ∈ elems.map isItemValid := by
    rw [mapM_eq_some_iff.mp hitems]
    exact mem_map_of_mem hitem
  obtain ⟨js, _, hjs⟩ := mem_map.mp hmem
  exact ⟨js, hjs⟩

theorem readTileNode_sound {isItemValid : Js → Option α} {tree : TileNode α}
    (h : readTileNode isItemValid x = some tree) :
    tree.Labelled ∧ ∀ pane ∈ tree.collectTilePanes, ∀ item ∈ pane.items,
      ∃ js, isItemValid js = some item := by
  fun_induction readTileNode isItemValid x generalizing tree with
  | case1 =>
    obtain ⟨node, hnode, rfl⟩ := Option.map_eq_some_iff.mp h
    obtain ⟨hid, hitems⟩ := readPane_sound hnode
    exact ⟨hid, forall_mem_singleton.mpr hitems⟩
  | case2 _ _ _ _ _ _ _ ih₁ ih₂ =>
    simp only [Option.bind_eq_bind, Option.bind_eq_some_iff, Option.guard_eq_some',
      exists_const] at h
    obtain ⟨id, _, hid, direction, _, sizes, hsizes, first, hfirst, second, hsecond, ⟨⟩⟩ := h
    obtain ⟨hlab₁, hitems₁⟩ := ih₁ hfirst
    obtain ⟨hlab₂, hitems₂⟩ := ih₂ hsecond
    obtain ⟨hpos₁, hpos₂⟩ := readSizes_sound hsizes
    exact ⟨⟨hid, hpos₁, hpos₂, hlab₁, hlab₂⟩, forall_mem_append.mpr ⟨hitems₁, hitems₂⟩⟩
  | case3 | case4 | case5 => cases h

end

section

variable {isItemValid : Js → Option String}

theorem readTileNode_split_eq {x left right : Js} (hobj : x.isObject = true)
    (htype : (x.get "type").asStr = some "split")
    (hchildren : (x.get "children").asArr = some [left, right]) :
    readTileNode isItemValid x = (do
      let id ← (x.get "id").asStr
      guard (id ≠ "")
      let direction ← readDirection (x.get "direction")
      let sizes ← readSizes (x.get "sizes")
      let first ← readTileNode isItemValid left
      let second ← readTileNode isItemValid right
      pure (.split id direction sizes first second)) := by
  have hpane : (x.get "type").asStr ≠ some "pane" := by
    rw [htype]
    decide
  rw [readTileNode, dif_pos hobj, if_neg hpane, if_pos htype]
  split
  next left' right' heq =>
    rw [hchildren] at heq
    cases heq
    rfl
  next hno => exact absurd hchildren (hno left right)

theorem readTileNode_pane_toJs (node : TilePaneNode String) :
    readTileNode isItemValid (TileNode.pane node).toJs =
      (readPane isItemValid (TileNode.pane node).toJs).map .pane := by
  have hobj : (TileNode.pane node).toJs.isObject = true := rfl
  have htype : ((TileNode.pane node).toJs.get "type").asStr = some "pane" := by
    simp [TileNode.toJs, Js.get_obj, Js.lookup, Js.asStr]
  rw [readTileNode, dif_pos hobj, if_pos htype]

/-- A pane that was written is accepted if it has an id and an active item, and knows
its items. -/
theorem readPane_toJs {node : TilePaneNode String} (hid : node.id ≠ "")
    (hnodup : node.items.Nodup) (hactive : node.Active)
    (hitems : ∀ item ∈ node.items, isItemValid (.str item) = some item) :
    readPane isItemValid (TileNode.pane node).toJs = some node := by
  obtain ⟨active, hmem, hactive⟩ := hactive
  have hall : (node.items.map Js.str).mapM isItemValid = some node.items := by
    rw [mapM_eq_some_iff, map_map]
    exact map_congr_left hitems
  have hfields : (TileNode.pane node).toJs.get "id" = .str node.id ∧
      (TileNode.pane node).toJs.get "items" = .arr (node.items.map Js.str) ∧
      (TileNode.pane node).toJs.get "active" = .str active := by
    simp [TileNode.toJs, Js.get_obj, Js.lookup, hactive]
  obtain ⟨hgetid, hgetitems, hgetactive⟩ := hfields
  have hne : node.items ≠ [] := ne_nil_of_mem hmem
  simp only [readPane, hgetid, hgetitems, hgetactive, Js.asStr, Js.asArr,
    Option.bind_eq_bind, Option.bind_some, hall, guard, hid, hnodup, hne, hitems active hmem,
    hmem, if_true, ne_eq, not_false_eq_true, Option.pure_def]
  rw [← hactive]

theorem readPane_reads {node node' : TilePaneNode String}
    (hitem : ∀ x y, isItemValid (.str x) = some y → y = x) (hnull : isItemValid .null = none)
    (h : readPane isItemValid (TileNode.pane node).toJs = some node') : node' = node := by
  have hfields : (TileNode.pane node).toJs.get "id" = .str node.id ∧
      (TileNode.pane node).toJs.get "items" = .arr (node.items.map Js.str) ∧
      (TileNode.pane node).toJs.get "active" = node.active.elim .null .str := by
    simp [TileNode.toJs, Js.get_obj, Js.lookup]
  obtain ⟨hgetid, hgetitems, hgetactive⟩ := hfields
  simp only [readPane, hgetactive,
    Option.bind_eq_bind, Option.bind_eq_some_iff, Option.guard_eq_some', exists_const] at h
  obtain ⟨id, ⟨⟩, _, elems, ⟨⟩, items, hitems, _, h⟩ := h
  obtain rfl := mapM_map_reads hitem hitems
  split at h <;> simp only [Option.bind_eq_some_iff, Option.guard_eq_some', exists_const] at h
  · obtain ⟨active, hactive, _, ⟨⟩⟩ := h
    cases hnode : node.active with
    | none =>
      simp [hnode, hnull] at hactive
    | some item =>
      rw [hnode] at hactive
      rw [hitem item active hactive, ← hnode]
  · obtain ⟨hactive, ⟨⟩⟩ := h
    cases hnode : node.active with
    | none => rw [← hnode]
    | some item =>
      rw [hnode] at hactive
      cases hactive

theorem readTileNode_split_toJs (id : String) (direction : SplitDirection) (sizes : ℚ × ℚ)
    (first second : TileNode String) :
    readTileNode isItemValid (TileNode.split id direction sizes first second).toJs = (do
      guard (id ≠ "")
      guard (0 < sizes.1)
      guard (0 < sizes.2)
      let first ← readTileNode isItemValid first.toJs
      let second ← readTileNode isItemValid second.toJs
      pure (.split id direction sizes first second)) := by
  have hfields : ((TileNode.split id direction sizes first second).toJs.get "type").asStr =
      some "split" ∧
      ((TileNode.split id direction sizes first second).toJs.get "children").asArr =
        some [first.toJs, second.toJs] := by
    simp [TileNode.toJs, Js.get_obj, Js.lookup, Js.asStr, Js.asArr]
  rw [readTileNode_split_eq rfl hfields.1 hfields.2]
  simp [TileNode.toJs, Js.get_obj, Js.lookup, Js.asStr, Js.asArr, readDirection_toJs,
    readSizes, Js.asFinite, Option.bind_assoc]

theorem readTileNode_toJs {tree : TileNode String} (hlabelled : tree.Labelled)
    (hpanes : ∀ pane ∈ tree.collectTilePanes, pane.items.Nodup ∧ pane.Active ∧
      ∀ item ∈ pane.items, isItemValid (.str item) = some item) :
    readTileNode isItemValid tree.toJs = some tree := by
  induction tree with
  | pane node =>
    obtain ⟨hnodup, hactive, hitems⟩ := hpanes node (mem_singleton_self _)
    rw [readTileNode_pane_toJs, readPane_toJs hlabelled hnodup hactive hitems]
    rfl
  | split id direction sizes first second ih₁ ih₂ =>
    obtain ⟨hid, hpos₁, hpos₂, hlab₁, hlab₂⟩ := hlabelled
    have hfirst := ih₁ hlab₁ fun pane hpane => hpanes pane (mem_append_left _ hpane)
    have hsecond := ih₂ hlab₂ fun pane hpane => hpanes pane (mem_append_right _ hpane)
    simp [readTileNode_split_toJs, hfirst, hsecond, hid, hpos₁, hpos₂]

theorem readTileNode_reads {tree tree' : TileNode String}
    (hitem : ∀ x y, isItemValid (.str x) = some y → y = x) (hnull : isItemValid .null = none)
    (h : readTileNode isItemValid tree.toJs = some tree') : tree' = tree := by
  induction tree generalizing tree' with
  | pane node =>
    rw [readTileNode_pane_toJs, Option.map_eq_some_iff] at h
    obtain ⟨node', hnode, rfl⟩ := h
    rw [readPane_reads hitem hnull hnode]
  | split id direction sizes first second ih₁ ih₂ =>
    rw [readTileNode_split_toJs] at h
    simp only [Option.bind_eq_bind, Option.bind_eq_some_iff, Option.guard_eq_some',
      exists_const] at h
    obtain ⟨_, _, _, first', hfirst, second', hsecond, ⟨⟩⟩ := h
    rw [ih₁ hfirst, ih₂ hsecond]

end

end TileNode

/-! ## Windows and desktops -/

section

variable {str : Js → String} {desktopIds : List String}

def OsDesktop.head (d : OsDesktop) : DesktopHead :=
  { id := d.id, name := d.name, defaultCtx := d.defaultCtx }

variable {done : List DesktopHead} {x : Js} {winId : String}

theorem validateHead_toJs {d : OsDesktop} {head : DesktopHead} :
    validateHead done d.toJs = .ok head ↔
      head = d.head ∧ d.id ∉ done.map (·.id) ∧ ∀ ctx ∈ d.defaultCtx, ctx.Ok := by
  have hfields : d.toJs.get "id" = .str d.id ∧ d.toJs.get "name" = .str d.name ∧
      d.toJs.get "defaultCtx" = (d.defaultCtx.map WindowContext.toJs).getD .undefined := by
    simp [OsDesktop.toJs, Js.get_obj, Js.lookup_append, Js.lookup_field?, Js.lookup]
  obtain ⟨hid, hname, hctx⟩ := hfields
  have hread := fun a b c e y =>
    optionally_toJs (fun _ => rfl) (readContext_toJs a b c e) d.defaultCtx y
  simp only [validateHead, bind_eq_ok_iff, require_eq_ok_iff,
    pure_eq_ok_iff, exists_const, hid, hname, hctx, hread]
  constructor
  · rintro ⟨_, id, ⟨⟩, name, ⟨⟩, hnew, defaultCtx, ⟨rfl, hok⟩, rfl⟩
    exact ⟨rfl, hnew, hok⟩
  · rintro ⟨rfl, hnew, hok⟩
    exact ⟨rfl, _, rfl, _, rfl, hnew, _, ⟨rfl, hok⟩, rfl⟩

theorem validateRestorePlacement_sound {placement : RestorePlacement}
    (h : validateRestorePlacement desktopIds winId x = .ok placement) :
    placement.Ok desktopIds := by
  simp only [validateRestorePlacement, bind_eq_ok_iff, require_eq_ok_iff, expect_eq_ok_iff,
    pure_eq_ok_iff, exists_const, Option.filter_eq_some_iff, decide_eq_true_eq] at h
  obtain ⟨_, mode, _, desktopId, ⟨_, hdesk⟩, floatBounds, hbounds, rfl⟩ := h
  exact ⟨hdesk, optionally_sound
    (fun _ _ hb => readFloatBounds_sound (expect_eq_ok_iff.mp hb)) hbounds⟩

theorem validateRestorePlacement_toJs (desktopIds : List String) (winId : String)
    (placement placement' : RestorePlacement) :
    validateRestorePlacement desktopIds winId placement.toJs = .ok placement' ↔
      placement' = placement ∧ placement.Ok desktopIds := by
  have hfields : placement.toJs.get "mode" = .str placement.mode.name ∧
      placement.toJs.get "desktopId" = .str placement.desktopId ∧
      placement.toJs.get "floatBounds" =
        (placement.floatBounds.map FloatBounds.toJs).getD .undefined := by
    simp [RestorePlacement.toJs, Js.get_obj, Js.lookup_field?, Js.lookup]
  obtain ⟨hmode, hdesk, hbounds⟩ := hfields
  simp only [validateRestorePlacement, bind_eq_ok_iff, require_eq_ok_iff, expect_eq_ok_iff,
    pure_eq_ok_iff, exists_const, Option.filter_eq_some_iff, decide_eq_true_eq, hmode, hdesk,
    hbounds, readMode_toJs, optionally_floatBounds_toJs]
  constructor
  · rintro ⟨_, mode, ⟨⟩, desktopId, ⟨⟨⟩, hmem⟩, floatBounds, ⟨rfl, hok⟩, rfl⟩
    exact ⟨rfl, hmem, hok⟩
  · rintro ⟨rfl, hmem, hok⟩
    exact ⟨rfl, _, rfl, _, ⟨rfl, hmem⟩, _, ⟨rfl, hok⟩, rfl⟩

theorem validateWindow_sound {w : OsWindow} (h : validateWindow str desktopIds winId x = .ok w) :
    w.id = winId ∧ w.Ok desktopIds := by
  simp only [validateWindow, bind_eq_ok_iff, require_eq_ok_iff, expect_eq_ok_iff,
    pure_eq_ok_iff, exists_const, Option.filter_eq_some_iff, decide_eq_true_eq] at h
  obtain ⟨_, _, appId, _, title, _, ctx, hctx, mode, _, desktopId, ⟨_, hdesk⟩, maximized, _,
    minimized, _, floatBounds, hbounds, restorePlacement, hrestore, rfl⟩ := h
  exact ⟨rfl, readContext_sound hctx, hdesk,
    optionally_sound (fun _ _ hb => readFloatBounds_sound (expect_eq_ok_iff.mp hb)) hbounds,
    optionally_sound (fun _ _ => validateRestorePlacement_sound) hrestore⟩

theorem validateWindow_toJs {w w' : OsWindow} :
    validateWindow str desktopIds winId w.toJs = .ok w' ↔
      w' = w ∧ w.id = winId ∧ w.Ok desktopIds := by
  have hget : ∀ key, w.toJs.get key = _ := fun key => Js.get_obj _ key
  have hfields : w.toJs.get "id" = .str w.id ∧ w.toJs.get "appId" = .str w.appId.name ∧
      w.toJs.get "title" = .str w.title ∧ w.toJs.get "ctx" = w.ctx.toJs ∧
      w.toJs.get "mode" = .str w.mode.name ∧ w.toJs.get "desktopId" = .str w.desktopId ∧
      w.toJs.get "maximized" = .bool w.maximized ∧
      w.toJs.get "minimized" = .bool w.minimized := by
    simp [hget, Js.lookup_append, Js.lookup_field?, Js.lookup]
  have hoptional : w.toJs.get "floatBounds" = (w.floatBounds.map FloatBounds.toJs).getD .undefined ∧
      w.toJs.get "restorePlacement" =
        (w.restorePlacement.map RestorePlacement.toJs).getD .undefined ∧
      w.toJs.get "appState" = w.appState := by
    simp [hget, Js.lookup_append, Js.lookup_field?, Js.lookup]
  obtain ⟨hid, happ, htitle, hctx, hmode, hdesk, hmax, hmin⟩ := hfields
  obtain ⟨hbounds, hrestore, hstate⟩ := hoptional
  have hread := fun y => optionally_toJs (fun _ => rfl)
    (validateRestorePlacement_toJs desktopIds winId) w.restorePlacement y
  simp only [validateWindow, bind_eq_ok_iff, require_eq_ok_iff, expect_eq_ok_iff,
    pure_eq_ok_iff, exists_const, Option.filter_eq_some_iff, decide_eq_true_eq, hid, happ,
    htitle, hctx, hmode, hdesk, hmax, hmin, hbounds, hrestore, hstate,
    readAppId_toJs, readMode_toJs, readContext_toJs, optionally_floatBounds_toJs, hread]
  constructor
  · rintro ⟨_, ⟨⟩, appId, ⟨⟩, title, ⟨⟩, ctx, ⟨rfl, hctx⟩, mode, ⟨⟩, desktopId, ⟨⟨⟩, hmem⟩,
      maximized, ⟨⟩, minimized, ⟨⟩, floatBounds, ⟨rfl, hok⟩, restorePlacement, ⟨rfl, hplaces⟩, rfl⟩
    exact ⟨rfl, rfl, hctx, hmem, hok, hplaces⟩
  · rintro ⟨rfl, rfl, hctx, hmem, hok, hplaces⟩
    exact ⟨rfl, rfl, _, rfl, _, rfl, _, ⟨rfl, hctx⟩, _, rfl, _, ⟨rfl, hmem⟩, _, rfl, _, rfl, _,
      ⟨rfl, hok⟩, _, ⟨rfl, hplaces⟩, rfl⟩

end

/-! ## Placements -/

section

variable {str : Js → String} {windows : AssocMap String OsWindow} {deskId : String}
  {x : Js} {id : String} {tree : Option (TileNode String)} {placed : List String}
  {focus : Option String} {d : OsDesktop} {desktops : List OsDesktop}

theorem asStr_contains_eq_some_iff : x.asStr.filter windows.contains = some id ↔
      x = .str id ∧ ∃ w, windows.get? id = some w := by
  rw [Option.filter_eq_some_iff, AssocMap.contains, Option.isSome_iff_exists]
  cases x <;> simp [Js.asStr]

theorem validateFloat_eq_ok_iff {done : List String} {fw : Js} :
    validateFloat str windows deskId done fw = .ok id ↔
      fw = .str id ∧ id ∉ done ∧ Shown windows .float deskId id := by
  simp only [validateFloat, bind_eq_ok_iff, require_eq_ok_iff, expect_eq_ok_iff,
    pure_eq_ok_iff, exists_const, asStr_contains_eq_some_iff]
  constructor
  · rintro ⟨_, ⟨rfl, _⟩, hnew, w, hw, hdesk, hmode, hmin, rfl⟩
    exact ⟨rfl, hnew, w, hw, hmin, hmode, hdesk⟩
  · rintro ⟨rfl, hnew, w, hw, hmin, hmode, hdesk⟩
    exact ⟨id, ⟨rfl, w, hw⟩, hnew, w, hw, hdesk, hmode, hmin, rfl⟩

theorem validateTile_eq_ok_iff (hwin : ∃ w, windows.get? id = some w) :
    validateTile windows deskId id = .ok () ↔ Shown windows .tile deskId id := by
  obtain ⟨w, hw⟩ := hwin
  rw [shown_of_get? hw, validateTile, hw]
  simp only [Option.elim_some, bind_eq_ok_iff, require_eq_ok_iff, exists_const]
  tauto

theorem validatePane_eq_ok_iff {pane : TilePaneNode String} {u : Unit}
    (hwin : ∀ item ∈ pane.items, ∃ w, windows.get? item = some w) :
    validatePane windows deskId pane = .ok u ↔ pane.Active ∧ pane.active ≠ some "" ∧
        ∀ item ∈ pane.items, Shown windows .tile deskId item := by
  have hitems : (∀ item ∈ pane.items, validateTile windows deskId item = .ok ()) ↔
      ∀ item ∈ pane.items, Shown windows .tile deskId item :=
    forall₂_congr fun item hitem => validateTile_eq_ok_iff (hwin item hitem)
  simp only [validatePane, bind_eq_ok_iff, require_eq_ok_iff, exists_const,
    checkAll_eq_ok_iff, hitems]
  constructor
  · rintro ⟨_, ⟨active, hactive, hne, hmem⟩, hshown⟩
    refine ⟨⟨active, hmem, hactive⟩, ?_, hshown⟩
    rw [hactive]
    exact fun heq => hne (Option.some.inj heq)
  · rintro ⟨⟨active, hmem, hactive⟩, hne, hshown⟩
    refine ⟨ne_nil_of_mem hmem, ⟨active, hactive, ?_, hmem⟩, hshown⟩
    rintro rfl
    exact hne hactive

theorem validateTree_sound (h : validateTree windows deskId x = .ok tree) :
    (∀ t ∈ tree, t.Labelled) ∧ (∀ pane ∈ panes? tree, pane.Active ∧ pane.active ≠ some "") ∧
      ∀ id ∈ items? tree, Shown windows .tile deskId id := by
  unfold validateTree at h
  split at h
  · rw [pure_eq_ok_iff] at h
    subst h
    exact ⟨by rintro t ⟨⟩, by rintro p ⟨⟩, by rintro id ⟨⟩⟩
  simp only [bind_eq_ok_iff, expect_eq_ok_iff, checkAll_eq_ok_iff, pure_eq_ok_iff,
    exists_const] at h
  obtain ⟨t, ht, hpanes, rfl⟩ := h
  obtain ⟨hlabelled, hitems⟩ := TileNode.readTileNode_sound ht
  have hok : ∀ pane ∈ t.collectTilePanes, pane.Active ∧ pane.active ≠ some "" ∧
      ∀ item ∈ pane.items, Shown windows .tile deskId item := by
    intro pane hpane
    refine (validatePane_eq_ok_iff fun item hitem => ?_).mp (hpanes pane hpane)
    obtain ⟨js, hjs⟩ := hitems pane hpane item hitem
    exact (asStr_contains_eq_some_iff.mp hjs).2
  refine ⟨fun t' ht' => ?_, fun pane hpane => ?_, fun id hid => ?_⟩
  · cases ht'
    exact hlabelled
  · exact ⟨(hok pane hpane).1, (hok pane hpane).2.1⟩
  · obtain ⟨pane, hpane, hmem⟩ := TileNode.mem_items?_iff.mp hid
    exact (hok pane hpane).2.2 id hmem

theorem validateTree_toJs (hlabelled : ∀ t ∈ tree, t.Labelled)
    (hpanes : ∀ pane ∈ panes? tree, pane.items.Nodup ∧ pane.Active ∧ pane.active ≠ some "")
    (hitems : ∀ id ∈ items? tree, Shown windows .tile deskId id) :
    validateTree windows deskId (tree.elim .null TileNode.toJs) = .ok tree := by
  cases tree with
  | none => rfl
  | some t =>
    have hshown : ∀ pane ∈ t.collectTilePanes, ∀ item ∈ pane.items,
        Shown windows .tile deskId item := fun pane hpane item hitem =>
      hitems item (TileNode.mem_items?_iff.mpr ⟨pane, hpane, hitem⟩)
    have hread : readTileNode (fun item => item.asStr.filter windows.contains) t.toJs = some t := by
      refine TileNode.readTileNode_toJs (hlabelled t rfl) fun pane hpane => ?_
      obtain ⟨hnodup, hactive, _⟩ := hpanes pane hpane
      refine ⟨hnodup, hactive, fun item hitem => ?_⟩
      obtain ⟨w, hw, _⟩ := hshown pane hpane item hitem
      exact asStr_contains_eq_some_iff.mpr ⟨rfl, w, hw⟩
    have hnull : t.toJs.isNull = false := by cases t <;> rfl
    rw [Option.elim_some, validateTree, hnull, if_neg Bool.false_ne_true]
    simp only [bind_eq_ok_iff, expect_eq_ok_iff, checkAll_eq_ok_iff, exists_const]
    refine ⟨t, hread, fun pane hpane => ?_, rfl⟩
    refine (validatePane_eq_ok_iff fun item hitem => ?_).mpr
      ⟨(hpanes pane hpane).2.1, (hpanes pane hpane).2.2, hshown pane hpane⟩
    obtain ⟨w, hw, _⟩ := hshown pane hpane item hitem
    exact ⟨w, hw⟩

theorem validateTree_reads {tree' : Option (TileNode String)}
    (h : validateTree windows deskId (tree.elim .null TileNode.toJs) = .ok tree') :
    tree' = tree := by
  cases tree with
  | none =>
    cases h
    rfl
  | some t =>
    have hnull : t.toJs.isNull = false := by cases t <;> rfl
    rw [Option.elim_some, validateTree, hnull, if_neg Bool.false_ne_true] at h
    simp only [bind_eq_ok_iff, expect_eq_ok_iff, checkAll_eq_ok_iff, pure_eq_ok_iff,
      exists_const] at h
    obtain ⟨t', ht', _, rfl⟩ := h
    rw [TileNode.readTileNode_reads (fun x y hxy => ?_) rfl ht']
    have hstr := (asStr_contains_eq_some_iff.mp hxy).1
    exact (Js.str.inj hstr).symm

theorem validateFocus_sound (h : validateFocus str windows deskId placed x = .ok focus) :
    ∀ id, focus = some id → ∃ mode, Shown windows mode deskId id := by
  unfold validateFocus at h
  split at h
  · rw [pure_eq_ok_iff] at h
    subst h
    rintro id ⟨⟩
  · simp only [bind_eq_ok_iff, expect_eq_ok_iff, require_eq_ok_iff, pure_eq_ok_iff,
      exists_const] at h
    obtain ⟨id, _, w, hw, hdesk, hmin, _, rfl⟩ := h
    rintro _ ⟨⟩
    exact ⟨w.mode, w, hw, hmin, rfl, hdesk⟩

theorem validateFocus_toJs {focus' : Option String} :
    validateFocus str windows deskId placed (focus.elim .null .str) = .ok focus' ↔
      focus' = focus ∧
        ∀ id, focus = some id → id ∈ placed ∧ ∃ mode, Shown windows mode deskId id := by
  cases focus with
  | none =>
    simp only [Option.elim_none, validateFocus, Js.isNull, Bool.true_or, if_true, pure_eq_ok_iff]
    exact ⟨fun h => ⟨h.symm, by rintro id ⟨⟩⟩, fun h => h.1.symm⟩
  | some id =>
    rw [Option.elim_some, validateFocus]
    simp only [Js.isNull, Js.isUndefined, Bool.or_self, Bool.false_eq_true, if_false,
      bind_eq_ok_iff, expect_eq_ok_iff, require_eq_ok_iff, pure_eq_ok_iff, exists_const,
      asStr_contains_eq_some_iff]
    constructor
    · rintro ⟨_, ⟨⟨⟩, _⟩, w, hw, hdesk, hmin, hmem, rfl⟩
      refine ⟨rfl, ?_⟩
      rintro _ ⟨⟩
      exact ⟨hmem, w.mode, w, hw, hmin, rfl, hdesk⟩
    · rintro ⟨rfl, hfocus⟩
      obtain ⟨hmem, mode, w, hw, hmin, _, hdesk⟩ := hfocus id rfl
      exact ⟨id, ⟨rfl, w, hw⟩, w, hw, hdesk, hmin, hmem, rfl⟩

/-- What the second loop finds out about a desktop. -/
structure Placeable (windows : AssocMap String OsWindow) (d : OsDesktop) : Prop where
  labelled : ∀ tree ∈ d.tree, tree.Labelled
  panes : ∀ pane ∈ d.panes, pane.Active ∧ pane.active ≠ some ""
  tiles : ∀ id ∈ d.treeItems, Shown windows .tile d.id id
  floats : d.floatingWindowIds.Nodup
  shown : ∀ id ∈ d.floatingWindowIds, Shown windows .float d.id id
  focus : ∀ id, d.focusedWindowId = some id → ∃ mode, Shown windows mode d.id id

theorem validateDesktop_sound {head : DesktopHead}
    (h : validateDesktop str windows head x = .ok d) :
    d.id = head.id ∧ d.defaultCtx = head.defaultCtx ∧ Placeable windows d := by
  simp only [validateDesktop, bind_eq_ok_iff, pure_eq_ok_iff] at h
  obtain ⟨elems, _, floats, hfloats, tree, htree, focus, hfocus, rfl⟩ := h
  obtain ⟨hlabelled, hpanes, htiles⟩ := validateTree_sound htree
  have hshown : floats.Nodup ∧ ∀ id ∈ floats, Shown windows .float head.id id := by
    refine checkEach_invariant
      (I := fun ids => ids.Nodup ∧ ∀ id ∈ ids, Shown windows .float head.id id)
      (fun done fw id hdone hid => ?_) ⟨nodup_nil, fun id hid => nomatch hid⟩ hfloats
    obtain ⟨_, hnew, hfloat⟩ := validateFloat_eq_ok_iff.mp hid
    refine ⟨?_, forall_mem_append.mpr ⟨hdone.2, forall_mem_singleton.mpr hfloat⟩⟩
    rw [← concat_eq_append]
    exact hdone.1.concat hnew
  exact ⟨rfl, rfl, hlabelled, hpanes, htiles, hshown.1, hshown.2, validateFocus_sound hfocus⟩

theorem OsDesktop.toJs_fields (d : OsDesktop) :
    d.toJs.get "floatingWindowIds" = .arr (d.floatingWindowIds.map .str) ∧
      d.toJs.get "tree" = d.tree.elim .null TileNode.toJs ∧
      d.toJs.get "focusedWindowId" = d.focusedWindowId.elim .null .str := by
  simp [OsDesktop.toJs, Js.get_obj, Js.lookup_append, Js.lookup]

theorem validateDesktop_toJs (h : Placeable windows d) (hitems : ∀ pane ∈ d.panes, pane.items.Nodup)
    (hfocus : ∀ id, d.focusedWindowId = some id → id ∈ d.floatingWindowIds ++ d.treeItems) :
    validateDesktop str windows d.head d.toJs = .ok d := by
  obtain ⟨hgetfloats, hgettree, hgetfocus⟩ := d.toJs_fields
  have hfloats : checkEach (validateFloat str windows d.id) []
      (d.floatingWindowIds.map Js.str) = .ok (d.floatingWindowIds.map id) := by
    refine checkEach_map fun before id after heq => ?_
    refine validateFloat_eq_ok_iff.mpr ⟨rfl, ?_, h.shown id (by simp [heq])⟩
    have hnodup := h.floats
    rw [heq, nodup_append] at hnodup
    rw [map_id]
    exact fun hmem => hnodup.2.2 id hmem id mem_cons_self rfl
  rw [map_id] at hfloats
  simp only [validateDesktop, bind_eq_ok_iff, hgetfloats,
    hgettree, hgetfocus]
  refine ⟨_, rfl, _, hfloats, _, validateTree_toJs h.labelled (fun pane hpane => ?_) h.tiles,
    _, validateFocus_toJs.mpr ⟨rfl, fun id hid => ⟨hfocus id hid, h.focus id hid⟩⟩, rfl⟩
  exact ⟨hitems pane hpane, h.panes pane hpane⟩

theorem validateDesktop_reads {d' : OsDesktop}
    (h : validateDesktop str windows d.head d.toJs = .ok d') : d' = d := by
  obtain ⟨hgetfloats, hgettree, hgetfocus⟩ := d.toJs_fields
  simp only [validateDesktop, bind_eq_ok_iff, expect_eq_ok_iff, pure_eq_ok_iff, hgetfloats,
    hgettree, hgetfocus, Js.asArr, Option.some.injEq] at h
  obtain ⟨_, rfl, floats, hfloats, tree, htree, focus, hfocus, rfl⟩ := h
  have heq : floats = d.floatingWindowIds.map id := checkEach_map_reads (fun done id id' hid =>
    (Js.str.inj (validateFloat_eq_ok_iff.mp hid).1).symm) hfloats
  rw [heq, map_id, validateTree_reads htree, (validateFocus_toJs.mp hfocus).1]
  rfl

/-! ### Exactly one placement -/

theorem validatePlacedOnce_eq_ok_iff {w : OsWindow} : validatePlacedOnce desktops id w = .ok () ↔
      (treePlacements desktops id =
        if w.minimized = false ∧ w.mode = .tile then 1 else 0) ∧
      (floatPlacements desktops id =
        if w.minimized = false ∧ w.mode = .float then 1 else 0) := by
  unfold validatePlacedOnce
  cases hmin : w.minimized with
  | true =>
    simp only [if_true, require_eq_ok_iff, Bool.true_eq_false, false_and, if_false]
    omega
  | false =>
    cases hmode : w.mode with
    | tile =>
      simp [bind_eq_ok_iff, require_eq_ok_iff]
      tauto
    | float => simp [bind_eq_ok_iff, require_eq_ok_iff]

/-- A list of windows per desktop holds each window of a mode once, on its own
desktop, exactly if it holds no others and the counts are right. -/
theorem placements_iff (hids : (desktops.map (·.id)).Nodup)
    (hhomed : ∀ id w, windows.get? id = some w → w.desktopId ∈ desktops.map (·.id))
    (f : OsDesktop → List String) (mode : WindowMode) :
    (∀ d ∈ desktops, (f d).Nodup ∧ ∀ id, id ∈ f d ↔ Shown windows mode d.id id) ↔
      (∀ d ∈ desktops, ∀ id ∈ f d, Shown windows mode d.id id) ∧
      ∀ id w, windows.get? id = some w → (desktops.flatMap f).count id =
        if w.minimized = false ∧ w.mode = mode then 1 else 0 := by
  constructor
  · intro h
    refine ⟨fun d hd id hid => ((h d hd).2 id).mp hid, fun id w hw => ?_⟩
    have hnodup : (desktops.flatMap f).Nodup := by
      refine nodup_flatMap.mpr ⟨fun d hd => (h d hd).1, ?_⟩
      refine (pairwise_map.mp hids).imp_of_mem fun {d d'} hd hd' hne => ?_
      intro id hid hid'
      obtain ⟨w, hw, _, _, hdesk⟩ := ((h d hd).2 id).mp hid
      obtain ⟨w', hw', _, _, hdesk'⟩ := ((h d' hd').2 id).mp hid'
      cases hw.symm.trans hw'
      exact hne (hdesk.symm.trans hdesk')
    rw [hnodup.count]
    refine if_congr ?_ rfl rfl
    rw [mem_flatMap]
    constructor
    · rintro ⟨d, hd, hid⟩
      have hshown := (shown_of_get? hw).mp (((h d hd).2 id).mp hid)
      exact ⟨hshown.1, hshown.2.1⟩
    · rintro ⟨hmin, hmode⟩
      obtain ⟨d, hd, hdesk⟩ := mem_map.mp (hhomed id w hw)
      exact ⟨d, hd, ((h d hd).2 id).mpr ⟨w, hw, hmin, hmode, hdesk.symm⟩⟩
  · rintro ⟨hshown, hcount⟩ d hd
    have hone : ∀ id, Shown windows mode d.id id → (desktops.flatMap f).count id = 1 := by
      rintro id ⟨w, hw, hmin, hmode, _⟩
      rw [hcount id w hw, if_pos ⟨hmin, hmode⟩]
    refine ⟨?_, fun id => ⟨hshown d hd id, fun hid => ?_⟩⟩
    · refine nodup_iff_count_le_one.mpr fun id => ?_
      by_cases hmem : id ∈ f d
      · have hsub : (f d).Sublist (desktops.flatMap f) :=
          sublist_flatten_of_mem (mem_map_of_mem hd)
        exact (hsub.count_le id).trans (hone id (hshown d hd id hmem)).le
      · rw [count_eq_zero_of_not_mem hmem]
        exact Nat.zero_le 1
    · have hpos : 0 < (desktops.flatMap f).count id := (hone id hid).symm ▸ one_pos
      obtain ⟨w, hw, _, _, hdesk⟩ := hid
      obtain ⟨d', hd', hmem⟩ := mem_flatMap.mp (count_pos_iff.mp hpos)
      have hshown' := (shown_of_get? hw).mp (hshown d' hd' id hmem)
      have heq : d' = d := inj_on_of_nodup_map hids hd' hd (hshown'.2.2.symm.trans hdesk)
      rw [← heq]
      exact hmem

end

end DamHopper.Os
