import DamHopper.Os.Acceptance

/-!
# Os — Lossless

What saving keeps of an accepted session, and what it must not see. Sanitizing keeps the
placements and the windows' modes, flags and bounds; of a desktop it may change only the
name, the default context and the focus, and only where one of them holds an empty string
(`OsDesktop.Plain`).

Two stored values that agree on what is projected are written alike (`SameSession`): the
other fields of a context, the state of a review window and the other keys of a window's
state do not reach the storage.
-/

namespace DamHopper.Os

open List AssocMap Js

/-! ## What is kept -/

/-- Nothing of the desktop is the empty string where that counts as missing. -/
structure OsDesktop.Plain (d : OsDesktop) : Prop where
  name : d.name ≠ ""
  defaultCtx : ∀ ctx ∈ d.defaultCtx, ctx.projectId ≠ some "" ∧ ctx.worktreeId ≠ some ""
  focus : d.focusedWindowId ≠ some ""

theorem filter_ne_empty_iff {x : Option String} :
    x.filter (fun s => decide (s ≠ "")) = x ↔ x ≠ some "" := by
  cases x with
  | none => simp
  | some s =>
    by_cases hs : s = "" <;> simp

theorem orDefault_eq_iff {fallback : String} (h : fallback ≠ "") {s : String} :
    orDefault s fallback = s ↔ s ≠ "" := by
  by_cases hs : s = "" <;> simp [orDefault, hs, h]

theorem sanitizeDesktop_eq_iff {d : OsDesktop} : sanitizeDesktop d = d ↔ d.Plain := by
  have hctx : (d.defaultCtx.map fun ctx => { ctx with
        projectId := ctx.projectId.filter (fun s => decide (s ≠ ""))
        worktreeId := ctx.worktreeId.filter (fun s => decide (s ≠ "")) }) = d.defaultCtx ↔
      ∀ ctx ∈ d.defaultCtx, ctx.projectId ≠ some "" ∧ ctx.worktreeId ≠ some "" := by
    cases d.defaultCtx with
    | none => simp
    | some ctx =>
      simp only [Option.map_some, Option.some.injEq, Option.mem_def, forall_eq',
        ← filter_ne_empty_iff]
      constructor
      · intro heq
        exact ⟨congrArg WindowContext.projectId heq, congrArg WindowContext.worktreeId heq⟩
      · rintro ⟨hproject, hworktree⟩
        rw [hproject, hworktree]
  constructor
  · intro heq
    exact ⟨(orDefault_eq_iff (by decide)).mp (congrArg OsDesktop.name heq),
      hctx.mp (congrArg OsDesktop.defaultCtx heq),
      filter_ne_empty_iff.mp (congrArg OsDesktop.focusedWindowId heq)⟩
  · intro h
    have hname := (orDefault_eq_iff (show "Desktop" ≠ "" by decide)).mpr h.name
    have hfocus := filter_ne_empty_iff.mpr h.focus
    unfold sanitizeDesktop
    rw [hname, hctx.mpr h.defaultCtx, hfocus]

def OsWindow.frame (w : OsWindow) :
    String × OsAppId × WindowContext × WindowMode × String × Bool × Bool × Option FloatBounds ×
      Option RestorePlacement :=
  (w.id, w.appId, w.ctx, w.mode, w.desktopId, w.maximized, w.minimized, w.floatBounds,
    w.restorePlacement)

variable {desktopIds : List String} {w : OsWindow} {ctx ctx' x x' state : Js} {str : Js → String}

theorem frame_sanitizeWindow (h : w.Ok desktopIds) : (sanitizeWindow w).frame = w.frame := by
  have hrestore : (w.restorePlacement.map fun placement =>
      { placement with floatBounds := placement.floatBounds.map sanitizeFloatBounds }) =
        w.restorePlacement := by
    cases hplace : w.restorePlacement with
    | none => rfl
    | some placement =>
      have hok := (h.restore placement hplace).bounds
      rw [Option.map_some, OsSession.map_sanitizeFloatBounds hok]
  unfold sanitizeWindow OsWindow.frame
  simp only [OsSession.map_sanitizeFloatBounds h.bounds, hrestore]

/-! ## What is not seen -/

def SameContext (ctx ctx' : Js) : Prop :=
  ctx = ctx' ∨ ctx.isObject = true ∧ ctx'.isObject = true ∧
    ∀ key ∈ ["profileId", "projectId", "worktreeId"], ctx.get key = ctx'.get key

/-- The states belong to a review window, or agree on the fields that are projected. -/
def SameState (appId : OsAppId) (state state' : Js) : Prop :=
  state = state' ∨ appId = .sessionChanges ∨ state.isObject = true ∧ state'.isObject = true ∧
    ∀ f ∈ appFields appId, state.get f.name = state'.get f.name

structure SameWindow (w w' : Js) : Prop where
  fields : ∀ key, key ≠ "ctx" → key ≠ "appState" → w.get key = w'.get key
  ctx : SameContext (w.get "ctx") (w'.get "ctx")
  state : ∀ appId, readAppId (w.get "appId") = some appId →
    SameState appId (w.get "appState") (w'.get "appState")

structure SameDesktop (d d' : Js) : Prop where
  fields : ∀ key, key ≠ "defaultCtx" → d.get key = d'.get key
  ctx : SameContext (d.get "defaultCtx") (d'.get "defaultCtx")

/-- The values differ only in what must not be stored. -/
structure SameSession (x x' : Js) : Prop where
  active : x.get "activeDesktopId" = x'.get "activeDesktopId"
  desktops : ∀ elems elems', (x.get "desktops").asArr = some elems →
    (x'.get "desktops").asArr = some elems' → List.Forall₂ SameDesktop elems elems'
  windows : List.Forall₂ (fun e e' => e.1 = e'.1 ∧ SameWindow e.2 e'.2)
    (x.get "windows").props.entries (x'.get "windows").props.entries

theorem SameContext.readContext_eq (h : SameContext ctx ctx')
    {notObject noProfile badProject badWorktree : String} :
    readContext notObject noProfile badProject badWorktree ctx =
      readContext notObject noProfile badProject badWorktree ctx' := by
  rcases h with rfl | ⟨hobj, hobj', hkeys⟩
  · rfl
  · simp only [readContext, hobj, hobj', hkeys "profileId" (by simp),
      hkeys "projectId" (by simp), hkeys "worktreeId" (by simp)]

theorem SameContext.isUndefined_eq (h : SameContext ctx ctx') :
    ctx.isUndefined = ctx'.isUndefined := by
  rcases h with rfl | ⟨hobj, hobj', -⟩
  · rfl
  · cases ctx <;> cases ctx' <;> simp [isObject, isUndefined] at hobj hobj' ⊢

theorem SameDesktop.validateHead_eq {d d' : Js} (h : SameDesktop d d')
    {done done' : List DesktopHead} {head head' : DesktopHead}
    (hd : validateHead done d = .ok head) (hd' : validateHead done' d' = .ok head') :
    head = head' := by
  simp only [validateHead, bind_eq_ok_iff, require_eq_ok_iff,
    pure_eq_ok_iff, exists_const, optionally, h.fields "id" (by decide),
    h.fields "name" (by decide), h.ctx.isUndefined_eq, h.ctx.readContext_eq] at hd hd'
  obtain ⟨_, id, hid, name, hname, _, ctx, hctx, rfl⟩ := hd
  simp only [hid, hname, hctx, Except.ok.injEq, exists_eq_left'] at hd'
  exact hd'.2.2

theorem SameState.sanitizeAppState_eq {appId : OsAppId} {state' : Js}
    (h : SameState appId state state') :
    sanitizeAppState appId state = sanitizeAppState appId state' := by
  rcases h with rfl | rfl | ⟨hobj, hobj', hfields⟩
  · rfl
  · have hnone : ∀ x, sanitizeAppState .sessionChanges x = .undefined := by
      intro x
      unfold sanitizeAppState
      split <;> rfl
    rw [hnone, hnone]
  · have hproject : projectAppState (appFields appId) state =
        projectAppState (appFields appId) state' :=
      flatMap_congr fun f hf => by rw [hfields f hf]
    simp only [sanitizeAppState, hobj, hobj', hproject]

/-- The windows that are read differ in the state only, and are written alike. -/
structure AlikeWindows (w w' : OsWindow) : Prop where
  id : w.id = w'.id
  written : sanitizeWindow w = sanitizeWindow w'

theorem SameWindow.alike {winId : String} (h : SameWindow x x') {w' : OsWindow}
    (hw : validateWindow str desktopIds winId x = .ok w)
    (hw' : validateWindow str desktopIds winId x' = .ok w') : AlikeWindows w w' := by
  have hfield : ∀ key, key ≠ "ctx" → key ≠ "appState" → x'.get key = x.get key :=
    fun key hctx hstate => (h.fields key hctx hstate).symm
  simp only [validateWindow, bind_eq_ok_iff, require_eq_ok_iff, expect_eq_ok_iff,
    pure_eq_ok_iff, exists_const, ← h.ctx.readContext_eq, hfield "appId" (by decide) (by decide),
    hfield "title" (by decide) (by decide), hfield "mode" (by decide) (by decide),
    hfield "desktopId" (by decide) (by decide), hfield "maximized" (by decide) (by decide),
    hfield "minimized" (by decide) (by decide), hfield "floatBounds" (by decide) (by decide),
    hfield "restorePlacement" (by decide) (by decide)] at hw hw'
  obtain ⟨_, _, appId, happ, title, htitle, ctx, hctx, mode, hmode, desktopId, hdesk, maximized,
    hmax, minimized, hmin, floatBounds, hbounds, restore, hrestore, rfl⟩ := hw
  simp only [happ, htitle, hctx, hmode, hdesk, hmax, hmin, hbounds, hrestore, Option.some.injEq,
    Except.ok.injEq, exists_eq_left'] at hw'
  have hstate := (h.state appId happ).sanitizeAppState_eq
  rw [← hw'.2.2]
  exact ⟨rfl, by simp only [sanitizeWindow, hstate]⟩

theorem forall₂_zip {α β : Type} {R : β → β → Prop} {bs bs' : List β}
    (h : List.Forall₂ R bs bs') (as : List α) :
    List.Forall₂ (fun e e' : α × β => e.1 = e'.1 ∧ R e.2 e'.2) (as.zip bs) (as.zip bs') := by
  induction h generalizing as with
  | nil =>
    rw [zip_nil_right]
    exact .nil
  | cons hb _ ih =>
    cases as with
    | nil => exact .nil
    | cons a as => exact .cons ⟨rfl, hb⟩ (ih as)

theorem validateDesktop_eq {windows windows' : AssocMap String OsWindow}
    (hcontains : windows.contains = windows'.contains) {head : DesktopHead} (h : SameDesktop x x')
    {d d' : OsDesktop} (hd : validateDesktop str windows head x = .ok d)
    (hd' : validateDesktop str windows' head x' = .ok d') : d = d' := by
  have hfield : ∀ key, key ≠ "defaultCtx" → x'.get key = x.get key :=
    fun key hkey => (h.fields key hkey).symm
  simp only [validateDesktop, bind_eq_ok_iff, pure_eq_ok_iff,
    hfield "floatingWindowIds" (by decide), hfield "tree" (by decide),
    hfield "focusedWindowId" (by decide)] at hd hd'
  obtain ⟨elems, helems, floats, hfloats, tree, htree, focus, hfocus, rfl⟩ := hd
  obtain ⟨elems', helems', floats', hfloats', tree', htree', focus', hfocus', rfl⟩ := hd'
  cases helems.symm.trans helems'
  have hfloating := checkEach_forall₂ (R := Eq) (S := Eq) (fun _ _ _ _ _ _ heq hid hid' =>
    Js.str.inj ((validateFloat_eq_ok_iff.mp hid).1.symm.trans
      (heq.trans (validateFloat_eq_ok_iff.mp hid').1))) (forall₂_refl elems) hfloats hfloats'
  rw [forall₂_eq_eq_eq] at hfloating
  have hsame : tree = tree' := by
    unfold validateTree at htree htree'
    split_ifs at htree with hnull
    · rw [if_pos hnull] at htree'
      exact Except.ok.inj (htree.symm.trans htree')
    rw [if_neg hnull] at htree'
    simp only [bind_eq_ok_iff, expect_eq_ok_iff, pure_eq_ok_iff, hcontains] at htree htree'
    obtain ⟨t, ht, _, _, rfl⟩ := htree
    obtain ⟨t', ht', _, _, rfl⟩ := htree'
    exact ht.symm.trans ht'
  have hfocused : focus = focus' := by
    unfold validateFocus at hfocus hfocus'
    split_ifs at hfocus with hnull
    · rw [if_pos hnull] at hfocus'
      exact Except.ok.inj (hfocus.symm.trans hfocus')
    rw [if_neg hnull] at hfocus'
    simp only [bind_eq_ok_iff, expect_eq_ok_iff, pure_eq_ok_iff, hcontains] at hfocus hfocus'
    obtain ⟨t, ht, _, _, _, _, _, _, _, _, rfl⟩ := hfocus
    obtain ⟨t', ht', _, _, _, _, _, _, _, _, rfl⟩ := hfocus'
    exact ht.symm.trans ht'
  rw [hfloating, hsame, hfocused]

/-- **What must not be stored is not seen.** -/
theorem SameSession.sanitize_eq (h : SameSession x x') {s s' : OsSession}
    (hs : validateOsSession str x = .ok s) (hs' : validateOsSession str x' = .ok s') :
    sanitizeSessionForPersistence s = sanitizeSessionForPersistence s' := by
  simp only [validateOsSession, bind_eq_ok_iff, require_eq_ok_iff, expect_eq_ok_iff,
    checkAll_eq_ok_iff, pure_eq_ok_iff, exists_const] at hs hs'
  obtain ⟨_, _, active, hactive, elems, helems, _, _, heads, hheads, _, entries, hentries,
    desktops, hdesktops, _, rfl⟩ := hs
  obtain ⟨_, _, active', hactive', elems', helems', _, _, heads', hheads', _, entries', hentries',
    desktops', hdesktops', _, rfl⟩ := hs'
  rw [h.active] at hactive
  cases hactive.symm.trans hactive'
  have hdesks := h.desktops elems elems' helems helems'
  have hheadsEq : heads = heads' := by
    have hforall := checkEach_forall₂ (S := Eq)
      (fun _ _ _ _ _ _ hsame hd hd' => hsame.validateHead_eq hd hd') hdesks hheads hheads'
    exact forall₂_eq_eq_eq ▸ hforall
  subst hheadsEq
  have halike := checkEach_forall₂ (S := AlikeWindows) (fun _ _ e e' _ _ hsame hw hw' => by
    obtain ⟨key, value⟩ := e
    obtain ⟨rfl, hsame⟩ := hsame
    exact hsame.alike hw hw') h.windows hentries hentries'
  have hwindows : (ofList (entries.map fun w => (w.id, w))).mapValues
        (fun _ w => sanitizeWindow w) =
      (ofList (entries'.map fun w => (w.id, w))).mapValues (fun _ w => sanitizeWindow w) := by
    refine ext ?_
    simp only [mapValues, OsSession.validateWindows_entries hentries,
      OsSession.validateWindows_entries hentries', map_map]
    rw [← forall₂_eq_eq_eq, forall₂_map_left_iff, forall₂_map_right_iff]
    refine halike.imp fun w w' hw => ?_
    simp only [Function.comp_apply, hw.id, hw.written]
  have hcontains : (ofList (entries.map fun w => (w.id, w))).contains =
      (ofList (entries'.map fun w => (w.id, w))).contains := by
    have hkeys := congrArg AssocMap.contains hwindows
    rwa [contains_mapValues, contains_mapValues] at hkeys
  have hdesktopsEq : desktops = desktops' := by
    have hforall := checkEach_forall₂ (S := Eq) (fun _ _ e e' _ _ hsame hd hd' => by
      obtain ⟨hhead, hsame⟩ := hsame
      rw [← hhead] at hd'
      exact validateDesktop_eq hcontains hsame hd hd') (forall₂_zip hdesks heads)
      hdesktops hdesktops'
    exact forall₂_eq_eq_eq ▸ hforall
  simp only [sanitizeSessionForPersistence, hdesktopsEq, mapValues_erase, hwindows]

/-! ## Saving is lossless and blind -/

theorem map_sanitizeDesktop_eq_iff {ds : List OsDesktop} :
    ds.map sanitizeDesktop = ds ↔ ∀ d ∈ ds, d.Plain := by
  induction ds with
  | nil => simp
  | cons d ds ih =>
    rw [map_cons, List.cons.injEq, sanitizeDesktop_eq_iff, ih, forall_mem_cons]

/-- **Saving keeps what it should and sees what it may.** Of an accepted session without a
window `__proto__` the sanitized one is accepted, a fixed point, and what an export followed
by an import gives; it has the same active desktop, the same desktops with their trees and
floating windows, and the same windows up to title and state. Its desktops are the same in
every field exactly if they were plain. Another accepted value that differs only in what must
not be stored gives the same session. -/
theorem persistence_lossless (str : Js → String) (x : Js) (s : OsSession)
    (h : validateOsSession str x = .ok s) (hkey : s.windows.get? protoKey = none) :
    validateOsSession str (sanitizeSessionForPersistence s).toJs =
        .ok (sanitizeSessionForPersistence s) ∧
      sanitizeSessionForPersistence (sanitizeSessionForPersistence s) =
        sanitizeSessionForPersistence s ∧
      (sanitizeSessionForPersistence s).activeDesktopId = s.activeDesktopId ∧
      ((sanitizeSessionForPersistence s).desktops.map fun d =>
          (d.id, d.tree, d.floatingWindowIds)) =
        (s.desktops.map fun d => (d.id, d.tree, d.floatingWindowIds)) ∧
      ((sanitizeSessionForPersistence s).desktops = s.desktops ↔ ∀ d ∈ s.desktops, d.Plain) ∧
      (sanitizeSessionForPersistence s).windows.keys = s.windows.keys ∧
      (∀ id, ((sanitizeSessionForPersistence s).windows.get? id).map OsWindow.frame =
        (s.windows.get? id).map OsWindow.frame) ∧
      (∀ (print : Js → String) (parse : String → Except String Js),
        parse (print (exportOsSessionJson s)) = .ok (exportOsSessionJson s) →
          importOsSessionJson str parse (print (exportOsSessionJson s)) =
            .ok (sanitizeSessionForPersistence s)) ∧
      ∀ x' s', validateOsSession str x' = .ok s' → SameSession x x' →
        sanitizeSessionForPersistence s' = sanitizeSessionForPersistence s := by
  have hvalid := OsSession.validateOsSession_sound h
  refine ⟨(hvalid.sanitize hkey).accepted, OsSession.sanitize_idem, rfl, ?_,
    map_sanitizeDesktop_eq_iff, ?_, fun id => ?_, fun print parse hparse =>
      hvalid.import_export hkey hparse, fun x' s' hs' hsame =>
        (hsame.sanitize_eq h hs').symm⟩
  · simp only [sanitizeSessionForPersistence, map_map]
    rfl
  · simp [OsSession.sanitize_windows hkey, AssocMap.keys, mapValues, map_map]
  · rw [OsSession.sanitize_windows hkey, get?_mapValues, Option.map_map]
    cases hw : s.windows.get? id with
    | none => rfl
    | some w =>
      have hframe := frame_sanitizeWindow (hvalid.checked.windows id w hw)
      rw [Option.map_some, Option.map_some, Function.comp_apply, hframe]

/-- The state of a review window is not seen. -/
theorem OsWindow.sameWindow_review (h : w.appId = .sessionChanges) :
    SameWindow w.toJs { w with appState := state }.toJs := by
  have hfields : ∀ key, key ≠ "appState" →
      w.toJs.get key = { w with appState := state }.toJs.get key := by
    intro key hkey
    simp only [OsWindow.toJs, get_obj, lookup_append, lookup_field?, if_neg hkey]
  refine ⟨fun key _ hkey => hfields key hkey, .inl (hfields "ctx" (by decide)), ?_⟩
  intro appId happ
  have hread : w.toJs.get "appId" = .str w.appId.name := by
    simp [OsWindow.toJs, get_obj, lookup_append, lookup_field?, Js.lookup]
  rw [hread, h] at happ
  exact .inr (.inl (Option.some.inj happ).symm)

namespace OsSession

def reviewing (target : String) : OsSession where
  activeDesktopId := "d"
  desktops := [
    { id := "d", name := "Main", defaultCtx := none, tree := none
      floatingWindowIds := ["w"], focusedWindowId := some "w" }]
  windows := empty.insert "w" {
    id := "w", appId := .sessionChanges, title := "Changes", ctx := ⟨"default", none, none⟩
    mode := .float, desktopId := "d", maximized := false, minimized := false
    floatBounds := none, restorePlacement := none
    appState := .obj [("baselineId", .str target)] }

/-- Nothing of the target of a review is stored. -/
theorem persistence_lossless_reviewing : sanitizeSessionForPersistence (reviewing "b2") =
      sanitizeSessionForPersistence (reviewing "b1") := by
  have haccepted : ∀ target ∈ ["b1", "b2"], validateOsSession (fun _ => "")
      (reviewing target).toJs = .ok (reviewing target) := by
    have hvalid : ∀ target ∈ ["b1", "b2"], (reviewing target).Valid := by decide
    exact fun target htarget => (hvalid target htarget).accepted
  have hsame : SameSession (reviewing "b1").toJs (reviewing "b2").toJs := by
    refine ⟨rfl, fun elems elems' helems helems' => ?_, ?_⟩
    · cases helems.symm.trans helems'
      exact forall₂_same.mpr fun d _ => ⟨fun _ _ => rfl, .inl rfl⟩
    · exact .cons ⟨rfl, OsWindow.sameWindow_review rfl⟩ .nil
  obtain ⟨_, _, _, _, _, _, _, _, hblind⟩ :=
    persistence_lossless (fun _ => "") _ _ (haccepted "b1" (by decide)) (by decide)
  exact hblind _ _ (haccepted "b2" (by decide)) hsame

/-- A desktop without a name, whose default project is the empty string and whose focus is
on a window with the empty id. -/
def nameless : OsSession where
  activeDesktopId := "d"
  desktops := [
    { id := "d", name := "", defaultCtx := some ⟨"default", some "", none⟩, tree := none
      floatingWindowIds := [""], focusedWindowId := some "" }]
  windows := empty.insert "" {
    id := "", appId := .editor, title := "Editor", ctx := ⟨"default", none, none⟩
    mode := .float, desktopId := "d", maximized := false, minimized := false
    floatBounds := none, restorePlacement := none, appState := .undefined }

/-- The name is replaced, and project and focus are lost. -/
theorem nameless_not_kept : (∀ str, validateOsSession str nameless.toJs = .ok nameless) ∧
      (sanitizeSessionForPersistence nameless).desktops.map (·.name) = ["Desktop"] ∧
      (sanitizeSessionForPersistence nameless).desktops.map
        (fun d => d.defaultCtx.map (·.projectId)) = [some none] ∧
      (sanitizeSessionForPersistence nameless).desktops.map (·.focusedWindowId) = [none] :=
  ⟨fun _ => (by decide : nameless.Valid).accepted, by decide, by decide, by decide⟩

end OsSession

end DamHopper.Os
