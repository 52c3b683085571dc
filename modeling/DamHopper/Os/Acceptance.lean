import DamHopper.Os.Validation

/-!
# Os — Acceptance

The validator as a whole: it accepts exactly the valid sessions, and reads a session
that was written as the session it was. What is written by `saveOsSession` or
`exportOsSessionJson` is sanitized first; that keeps a session valid, so a valid session
is loaded again, and saving is not suspended.
-/

namespace DamHopper.Os

open AssocMap Js Function List
open TileNode (Sound items? panes?)

namespace OsSession

/-- The data of a session, apart from the placements, is well formed. -/
@[mk_iff checked_def] structure Checked (s : OsSession) : Prop where
  contexts : ∀ d ∈ s.desktops, ∀ ctx ∈ d.defaultCtx, ctx.Ok
  windows : ∀ id w, s.windows.get? id = some w → w.Ok s.desktopIds
  trees : ∀ d ∈ s.desktops, ∀ tree ∈ d.tree, tree.Labelled
  named : ∀ d ∈ s.desktops, ∀ pane ∈ d.panes, pane.active ≠ some ""

/-- What the validator asks of a session. -/
@[mk_iff] structure Valid (s : OsSession) : Prop where
  placed : s.Placed
  checked : s.Checked

theorem Valid.tidy {s : OsSession} (h : s.Valid) (hpanes : s.DistinctPanes) : Tidy s :=
  tidy_iff.mpr ⟨h.placed, hpanes⟩

/-! ## Deciding validity -/

section

variable {windows : AssocMap String OsWindow} {mode : WindowMode} {deskId : String}

/-- Only the windows that are there need to be looked at. -/
theorem forall_mem_iff_shown {l : List String} : (∀ id, id ∈ l ↔ Shown windows mode deskId id) ↔
      (∀ id ∈ l, Shown windows mode deskId id) ∧
        ∀ e ∈ windows.entries, Shown windows mode deskId e.1 → e.1 ∈ l := by
  constructor
  · intro h
    exact ⟨fun id hid => (h id).mp hid, fun e _ he => (h e.1).mpr he⟩
  · rintro ⟨hl, hentries⟩ id
    refine ⟨hl id, fun hshown => ?_⟩
    have ⟨w, hw, _⟩ := hshown
    exact hentries (id, w) (get?_eq_some_iff.mp hw) hshown

instance {l : List String} : Decidable (∀ id, id ∈ l ↔ Shown windows mode deskId id) :=
  decidable_of_iff' _ forall_mem_iff_shown

instance {id : String} : Decidable (∃ mode, Shown windows mode deskId id) :=
  decidable_of_iff' _ exists_mode_shown_iff

end

instance (s : OsSession) : Decidable s.DistinctPanes := by delta DistinctPanes; infer_instance

instance (s : OsSession) : Decidable s.Placed := decidable_of_iff' _ (placed_def s)

instance (s : OsSession) : Decidable s.Checked := decidable_of_iff' _ (checked_def s)

instance (s : OsSession) : Decidable s.Valid := decidable_of_iff' _ (valid_iff s)

/-! ## The validator -/

section

variable {str : Js → String} {s s' : OsSession}

theorem validateHeads_sound {elems : List Js} {heads : List DesktopHead}
    (h : checkEach validateHead [] elems = .ok heads) :
    (heads.map (·.id)).Nodup ∧ ∀ head ∈ heads, ∀ ctx ∈ head.defaultCtx, ctx.Ok := by
  refine checkEach_invariant (I := fun heads : List DesktopHead => (heads.map (·.id)).Nodup ∧
    ∀ head ∈ heads, ∀ ctx ∈ head.defaultCtx, ctx.Ok) (fun done x head hdone hhead => ?_) ?_ h
  · simp only [validateHead, bind_eq_ok_iff, require_eq_ok_iff, pure_eq_ok_iff,
      exists_const] at hhead
    obtain ⟨_, id, _, name, _, hnew, defaultCtx, hctx, rfl⟩ := hhead
    refine ⟨?_, forall_mem_append.mpr ⟨hdone.2, forall_mem_singleton.mpr ?_⟩⟩
    swap
    · exact optionally_sound (fun _ _ => readContext_sound) hctx
    rw [map_append, map_singleton, ← concat_eq_append]
    exact hdone.1.concat hnew
  · exact ⟨nodup_nil, by simp⟩

variable {desktopIds : List String} {bounds : FloatBounds} {fields : List AppField} {rawState : Js}
  {appId : OsAppId} {parse : String → Except String Js} {m : AssocMap String Js} {d : OsDesktop}
  {w : OsWindow} {raw : String}

/-- The windows that were read are stored under their ids, in their order. -/
theorem validateWindows_entries {windows : List OsWindow}
    (h : checkEach (fun _ e => validateWindow str desktopIds e.1 e.2) [] m.entries = .ok windows) :
    (ofList (windows.map fun w => (w.id, w))).entries = windows.map fun w => (w.id, w) := by
  have hkeys : windows.map (·.id) = m.entries.map Prod.fst :=
    checkEach_map_eq (f := Prod.fst) (fun _ e w hw => (validateWindow_sound hw).1) h
  refine entries_ofList ?_
  rw [map_map]
  exact hkeys ▸ m.nodup

theorem validateWindows_sound {entries : List OsWindow}
    (h : checkEach (fun _ e => validateWindow str desktopIds e.1 e.2) [] m.entries = .ok entries)
    (id : String) (w : OsWindow) :
    (ofList (entries.map fun w => (w.id, w))).get? id = some w → w.id = id ∧ w.Ok desktopIds := by
  rw [get?_eq_some_iff, validateWindows_entries h, mem_map]
  rintro ⟨w', hmem, ⟨⟩⟩
  obtain ⟨_, e, _, hw⟩ := exists_of_mem_checkEach h hmem
  exact ⟨rfl, (validateWindow_sound hw).2⟩

/-- **Whatever is accepted is valid.** -/
theorem validateOsSession_sound {x : Js} (h : validateOsSession str x = .ok s) : s.Valid := by
  simp only [validateOsSession, bind_eq_ok_iff, require_eq_ok_iff,
    checkAll_eq_ok_iff, pure_eq_ok_iff, exists_const] at h
  obtain ⟨_, _, active, _, elems, _, _, _, heads, hheads, hactive, entries, hentries,
    desktops, hdesktops, honce, rfl⟩ := h
  obtain ⟨hids, hctx⟩ := validateHeads_sound hheads
  have hlength : heads.length = elems.length := by
    have hmap := checkEach_map_eq (f := fun _ => ()) (g := fun _ => ()) (fun _ _ _ _ => rfl) hheads
    simpa using congrArg List.length hmap
  have hdeskIds : desktops.map (·.id) = heads.map (·.id) := by
    have hmap := checkEach_map_eq (f := fun e : DesktopHead × Js => e.1.id)
      (fun _ e d hd => (validateDesktop_sound hd).1) hdesktops
    have hfst : (heads.zip elems).map (fun e => e.1.id) =
        ((heads.zip elems).map Prod.fst).map (·.id) := by
      simp [map_map]
    rw [hmap, hfst, map_fst_zip hlength.le]
  have hplaceable : ∀ d ∈ desktops, (∀ ctx ∈ d.defaultCtx, ctx.Ok) ∧
      Placeable (ofList (entries.map fun w => (w.id, w))) d := by
    intro d hd
    obtain ⟨_, e, he, hd⟩ := exists_of_mem_checkEach hdesktops hd
    obtain ⟨_, hdefault, hplace⟩ := validateDesktop_sound hd
    rw [hdefault]
    exact ⟨hctx e.1 (of_mem_zip he).1, hplace⟩
  have hcount := fun id w (hw : get? _ id = some w) =>
    validatePlacedOnce_eq_ok_iff.mp (honce (id, w) (get?_eq_some_iff.mp hw))
  have hwindows := validateWindows_sound hentries
  have hdesks : (desktops.map (·.id)).Nodup := hdeskIds ▸ hids
  have hhomed : ∀ id w, (ofList (entries.map fun w => (w.id, w))).get? id = some w →
      w.desktopId ∈ desktops.map (·.id) := fun id w hw =>
    hdeskIds ▸ (hwindows id w hw).2.desktop
  have htiles := (placements_iff hdesks hhomed (·.treeItems) .tile).mpr
    ⟨fun d hd => (hplaceable d hd).2.tiles, fun id w hw => (hcount id w hw).1⟩
  have hfloats := (placements_iff hdesks hhomed (·.floatingWindowIds) .float).mpr
    ⟨fun d hd => (hplaceable d hd).2.shown, fun id w hw => (hcount id w hw).2⟩
  have hfound : active ∈ desktops.map (·.id) := hdeskIds ▸ hactive
  refine ⟨⟨hdesks, hfound, fun id w hw => (hwindows id w hw).1, hhomed, htiles,
    hfloats, fun d hd pane hpane => ((hplaceable d hd).2.panes pane hpane).1,
    fun d hd => (hplaceable d hd).2.focus⟩, ⟨fun d hd => (hplaceable d hd).1,
    fun id w hw => ?_, fun d hd => (hplaceable d hd).2.labelled,
    fun d hd pane hpane => ((hplaceable d hd).2.panes pane hpane).2⟩⟩
  rw [desktopIds, hdeskIds]
  exact (hwindows id w hw).2

theorem toJs_fields (s : OsSession) : s.toJs.get "schema" = .num (.finite 1) ∧
      s.toJs.get "activeDesktopId" = .str s.activeDesktopId ∧
      s.toJs.get "desktops" = .arr (s.desktops.map OsDesktop.toJs) ∧
      s.toJs.get "windows" = .obj (s.windows.mapValues fun _ w => w.toJs).entries := by
  simp [OsSession.toJs, Js.get_obj, Js.lookup]

theorem props_windows : (obj (s.windows.mapValues fun _ w => w.toJs).entries).props.entries =
      s.windows.entries.map fun e => (e.1, e.2.toJs) := by
  rw [props, ofList_entries]
  rfl

theorem validateHeads_toJs (hids : s.desktopIds.Nodup)
    (hctx : ∀ d ∈ s.desktops, ∀ ctx ∈ d.defaultCtx, ctx.Ok) :
    checkEach validateHead [] (s.desktops.map OsDesktop.toJs) =
      .ok (s.desktops.map OsDesktop.head) := by
  refine checkEach_map fun before d after heq => ?_
  refine validateHead_toJs.mpr ⟨rfl, fun hmem => ?_, hctx d (by simp [heq])⟩
  rw [desktopIds, heq, map_append, nodup_append] at hids
  rw [nil_append, map_map] at hmem
  exact hids.2.2 d.id hmem d.id mem_cons_self rfl

/-- The windows are read back, under their ids. -/
theorem ofList_values (hkeyed : ∀ id w, s.windows.get? id = some w → w.id = id) :
    ofList ((s.windows.entries.map Prod.snd).map fun w => (w.id, w)) = s.windows := by
  have hentries : ((s.windows.entries.map Prod.snd).map fun w => (w.id, w)) =
      s.windows.entries := by
    rw [map_map]
    refine (map_congr_left fun e he => ?_).trans (map_id _)
    have hid := hkeyed e.1 e.2 (get?_eq_some_iff.mpr he)
    simp only [comp_apply, hid, id_eq]
  rw [hentries, ofList_entries]

theorem Valid.placeable (h : s.Valid) (hd : d ∈ s.desktops) :
    Placeable s.windows d where
  labelled := h.checked.trees d hd
  panes pane hpane := ⟨h.placed.panes d hd pane hpane, h.checked.named d hd pane hpane⟩
  tiles id := ((h.placed.tiles d hd).2 id).mp
  floats := (h.placed.floats d hd).1
  shown id := ((h.placed.floats d hd).2 id).mp
  focus := h.placed.focus d hd

/-- **A valid session is accepted and read back.** -/
theorem Valid.accepted (h : s.Valid) : validateOsSession str s.toJs = .ok s := by
  obtain ⟨hschema, hactive, hdesktops, hwindows⟩ := s.toJs_fields
  have hne : (s.desktops.map OsDesktop.toJs).isEmpty = false := by
    obtain ⟨d, hd, _⟩ := mem_map.mp h.placed.active
    simpa using ne_nil_of_mem hd
  have hheads := validateHeads_toJs h.placed.ids h.checked.contexts
  have hids : (s.desktops.map OsDesktop.head).map (·.id) = s.desktopIds := map_map
  have hentries : checkEach (fun _ e => validateWindow str s.desktopIds e.1 e.2) []
      (s.windows.entries.map fun e => (e.1, e.2.toJs)) = .ok (s.windows.entries.map Prod.snd) := by
    refine checkEach_map fun before e after heq => ?_
    have hmem : e ∈ s.windows.entries := by simp [heq]
    have hget := get?_eq_some_iff.mpr hmem
    exact validateWindow_toJs.mpr ⟨rfl, h.placed.keyed _ _ hget, h.checked.windows _ _ hget⟩
  have hplaced : checkEach (fun _ e => validateDesktop str s.windows e.1 e.2) []
      (s.desktops.map fun d => (d.head, d.toJs)) = .ok (s.desktops.map id) := by
    refine checkEach_map fun before d after heq => ?_
    have hd : d ∈ s.desktops := by simp [heq]
    refine validateDesktop_toJs (h.placeable hd) (fun pane hpane => ?_) fun id hid => ?_
    · exact (nodup_flatMap.mp (h.placed.tiles d hd).1).1 pane hpane
    · rw [mem_append, (h.placed.floats d hd).2, (h.placed.tiles d hd).2, or_comm,
        ← exists_mode_shown_iff]
      exact h.placed.focus d hd id hid
  have htree := (placements_iff h.placed.ids h.placed.homed (·.treeItems) .tile).mp h.placed.tiles
  have hfloat := (placements_iff h.placed.ids h.placed.homed (·.floatingWindowIds) .float).mp
    h.placed.floats
  simp only [validateOsSession, bind_eq_ok_iff, require_eq_ok_iff,
    checkAll_eq_ok_iff, pure_eq_ok_iff, exists_const, hschema, hwindows, asFinite, props_windows]
  refine ⟨rfl, trivial, _, rfl, _, rfl, hne, rfl, _, hheads, ?_, _, hids ▸ hentries, s.desktops,
    ?_, fun e he => ?_, ?_⟩
  · rw [hids]
    exact h.placed.active
  · rw [zip_map', ofList_values h.placed.keyed, hplaced, map_id]
  · rw [ofList_values h.placed.keyed] at he
    have hget := get?_eq_some_iff.mpr he
    exact validatePlacedOnce_eq_ok_iff.mpr ⟨htree.2 _ _ hget, hfloat.2 _ _ hget⟩
  · rw [ofList_values h.placed.keyed]

/-- Nothing but the session that was written is read. -/
theorem validateOsSession_reads (h : validateOsSession str s.toJs = .ok s') : s' = s := by
  obtain ⟨hschema, hactive, hdesktops, hwindows⟩ := s.toJs_fields
  simp only [validateOsSession, bind_eq_ok_iff, require_eq_ok_iff, expect_eq_ok_iff,
    checkAll_eq_ok_iff, pure_eq_ok_iff, exists_const, hactive, hdesktops, hwindows,
    asStr, asArr, props_windows, Option.some.injEq] at h
  obtain ⟨_, _, active, rfl, elems, rfl, _, _, heads, hheads, _, entries, hentries,
    desktops, hdesktops, _, rfl⟩ := h
  have heads_eq : heads = s.desktops.map OsDesktop.head :=
    checkEach_map_reads (fun _ d head hhead => (validateHead_toJs.mp hhead).1) hheads
  have entries_eq : entries = s.windows.entries.map Prod.snd := by
    refine checkEach_map_reads (fun _ e w hw => ?_) hentries
    exact (validateWindow_toJs.mp hw).1
  have hkeys : entries.map (·.id) = (s.windows.entries.map fun e => (e.1, e.2.toJs)).map Prod.fst :=
    checkEach_map_eq (f := Prod.fst) (fun _ e w hw => (validateWindow_sound hw).1) hentries
  have hkeyed : ∀ id w, s.windows.get? id = some w → w.id = id := by
    intro id w hw
    rw [entries_eq, map_map, map_map] at hkeys
    exact map_inj_left.mp hkeys (id, w) (get?_eq_some_iff.mp hw)
  rw [heads_eq, zip_map'] at hdesktops
  have desktops_eq : desktops = s.desktops.map id :=
    checkEach_map_reads (fun _ d d' hd => validateDesktop_reads hd) hdesktops
  rw [desktops_eq, map_id, entries_eq, ofList_values hkeyed]

/-- **The validator accepts exactly the valid sessions**, and reads them back. -/
theorem validateOsSession_toJs_iff : validateOsSession str s.toJs = .ok s' ↔ s' = s ∧ s.Valid := by
  constructor
  · intro h
    have hreads := validateOsSession_reads h
    exact ⟨hreads, hreads ▸ validateOsSession_sound h⟩
  · rintro ⟨rfl, hvalid⟩
    exact hvalid.accepted

/-! ## Sanitizing -/

theorem get?_sanitize {id : String} {w : OsWindow} :
    (sanitizeSessionForPersistence s).windows.get? id = some w ↔
      id ≠ protoKey ∧ ∃ w', s.windows.get? id = some w' ∧ sanitizeWindow w' = w := by
  rw [sanitizeSessionForPersistence, get?_mapValues, Option.map_eq_some_iff, get?_erase]
  split_ifs with hid <;> simp [hid]

theorem sanitize_windows (hkey : s.windows.get? protoKey = none) :
    (sanitizeSessionForPersistence s).windows =
      s.windows.mapValues fun _ win => sanitizeWindow win := by
  rw [sanitizeSessionForPersistence, erase_of_get?_none hkey]

theorem shown_sanitize (hkey : s.windows.get? protoKey = none) {mode : WindowMode}
    {deskId id : String} : Shown (sanitizeSessionForPersistence s).windows mode deskId id ↔
      Shown s.windows mode deskId id := by
  simp [sanitize_windows hkey, Shown, get?_mapValues, sanitizeWindow]

theorem map_sanitizeFloatBounds {bounds : Option FloatBounds} (h : ∀ b ∈ bounds, b.Ok) :
    bounds.map sanitizeFloatBounds = bounds := by
  cases bounds with
  | none => rfl
  | some b =>
    obtain ⟨hwidth, hheight⟩ := h b rfl
    rw [Option.map_some, sanitizeFloatBounds, if_neg hwidth.ne', if_neg hheight.ne']

theorem sanitizeWindow_ok (h : w.Ok desktopIds) :
    (sanitizeWindow w).Ok desktopIds := by
  have hbounds : ∀ {bounds : Option FloatBounds}, (∀ b ∈ bounds, b.Ok) →
      ∀ b ∈ bounds.map sanitizeFloatBounds, b.Ok := fun h => (map_sanitizeFloatBounds h).symm ▸ h
  refine ⟨h.ctx, h.desktop, hbounds h.bounds, fun placement hplace => ?_⟩
  obtain ⟨placement', hplace', rfl⟩ := Option.map_eq_some_iff.mp hplace
  have hok := h.restore placement' hplace'
  exact ⟨hok.desktop, hbounds hok.bounds⟩

theorem Valid.sanitize (h : s.Valid) (hkey : s.windows.get? protoKey = none) :
    (sanitizeSessionForPersistence s).Valid := by
  have hids : (sanitizeSessionForPersistence s).desktopIds = s.desktopIds := map_map
  have hwindows : ∀ {P : String → OsWindow → Prop},
      (∀ id w, s.windows.get? id = some w → P id (sanitizeWindow w)) →
      ∀ id w, (sanitizeSessionForPersistence s).windows.get? id = some w → P id w := by
    intro P hP id w hw
    obtain ⟨_, w', hw', rfl⟩ := get?_sanitize.mp hw
    exact hP id w' hw'
  refine ⟨⟨hids ▸ h.placed.ids, hids ▸ h.placed.active, hwindows h.placed.keyed,
    hids ▸ hwindows h.placed.homed, forall_mem_map.mpr fun d hd => ?_,
    forall_mem_map.mpr fun d hd => ?_, forall_mem_map.mpr h.placed.panes,
    forall_mem_map.mpr fun d hd id hid => ?_⟩, ⟨forall_mem_map.mpr fun d hd ctx hctx => ?_,
    hids ▸ hwindows fun id w hw => sanitizeWindow_ok (h.checked.windows id w hw),
    forall_mem_map.mpr h.checked.trees, forall_mem_map.mpr h.checked.named⟩⟩
  · refine ⟨(h.placed.tiles d hd).1, fun id => ?_⟩
    rw [shown_sanitize hkey]
    exact (h.placed.tiles d hd).2 id
  · refine ⟨(h.placed.floats d hd).1, fun id => ?_⟩
    rw [shown_sanitize hkey]
    exact (h.placed.floats d hd).2 id
  · obtain ⟨mode, hmode⟩ := h.placed.focus d hd id (Option.filter_eq_some_iff.mp hid).1
    exact ⟨mode, (shown_sanitize hkey).mpr hmode⟩
  · obtain ⟨ctx', hctx', rfl⟩ := Option.map_eq_some_iff.mp hctx
    exact h.checked.contexts d hd ctx' hctx'

/-! ### Sanitizing twice -/

theorem lookup_projectAppState (hnames : (fields.map (·.name)).Nodup) {key : String} :
    lookup (projectAppState fields rawState) key =
      (fields.find? (·.name = key)).bind fun f => f.project (rawState.get key) := by
  induction fields with
  | nil => rfl
  | cons f fields ih =>
    rw [map_cons, nodup_cons] at hnames
    rw [projectAppState, flatMap_cons, ← projectAppState, lookup_append,
      lookup_field?, ih hnames.2]
    by_cases hkey : f.name = key
    · have hrest : fields.find? (·.name = key) = none := by
        refine find?_eq_none.mpr fun g hg heq => hnames.1 ?_
        rw [hkey, ← of_decide_eq_true heq]
        exact mem_map_of_mem hg
      rw [hrest, find?_cons_of_pos (by simpa using hkey), hkey]
      simp
    · rw [find?_cons_of_neg (by simpa using hkey), if_neg (Ne.symm hkey), Option.or_none]

/-- What has been kept of a state is kept when it is written again. -/
theorem projectAppState_idem (hnames : (fields.map (·.name)).Nodup) :
    projectAppState fields (.obj (projectAppState fields rawState)) =
      projectAppState fields rawState := by
  refine flatMap_congr fun f hf => ?_
  have hfind : fields.find? (·.name = f.name) = some f := by
    cases hfound : fields.find? (·.name = f.name) with
    | none => simpa using find?_eq_none.mp hfound f hf
    | some g =>
      have hname : g.name = f.name := by simpa using find?_some hfound
      have hg := mem_of_find?_eq_some hfound
      rw [inj_on_of_nodup_map hnames hg hf hname]
  have hget : (obj (projectAppState fields rawState)).get f.name =
      (f.project (rawState.get f.name)).getD .undefined := by
    rw [get_obj, lookup_projectAppState hnames, hfind, Option.bind_some]
  rw [hget]
  cases hproject : f.project (rawState.get f.name) with
  | none => rw [Option.getD_none, f.missing]
  | some v => rw [Option.getD_some, f.stable _ _ hproject]

theorem appFields_names : ((appFields appId).map (·.name)).Nodup := by
  cases appId <;> decide

theorem sanitizeAppState_idem : sanitizeAppState appId (sanitizeAppState appId rawState) =
      sanitizeAppState appId rawState := by
  unfold sanitizeAppState
  split
  · rfl
  simp only
  split
  · rfl
  rename_i hne
  have hobj : ¬ ¬ (obj (projectAppState (appFields appId) rawState)).isObject = true :=
    fun h => h rfl
  rw [if_neg hobj]
  simp only [projectAppState_idem appFields_names]
  rw [if_neg hne]

theorem sanitizeFloatBounds_idem :
    sanitizeFloatBounds (sanitizeFloatBounds bounds) = sanitizeFloatBounds bounds := by
  by_cases hw : bounds.width = 0 <;> by_cases hh : bounds.height = 0 <;>
    simp [sanitizeFloatBounds, hw, hh]

theorem sanitizeWindow_idem :
    sanitizeWindow (sanitizeWindow w) = sanitizeWindow w := by
  simp only [sanitizeWindow, orDefault_idem,
    Option.map_map, sanitizeAppState_idem, comp_def, sanitizeFloatBounds_idem]

theorem sanitizeDesktop_idem :
    sanitizeDesktop (sanitizeDesktop d) = sanitizeDesktop d := by
  simp only [sanitizeDesktop, orDefault_idem,
    Option.map_map, Option.filter_filter, Bool.and_self, comp_def]

/-- **What was written is written again as it is.** -/
theorem sanitize_idem : sanitizeSessionForPersistence (sanitizeSessionForPersistence s) =
      sanitizeSessionForPersistence s := by
  have hkey : (sanitizeSessionForPersistence s).windows.get? protoKey = none := by
    simp [sanitizeSessionForPersistence, get?_mapValues]
  have hwindows : ∀ m : AssocMap String OsWindow, (m.mapValues fun _ win =>
      sanitizeWindow win).mapValues (fun _ win => sanitizeWindow win) =
        m.mapValues fun _ win => sanitizeWindow win := by
    simp only [mapValues, map_map, comp_def, sanitizeWindow_idem, implies_true]
  rw [sanitizeSessionForPersistence, erase_of_get?_none hkey]
  simp only [sanitizeSessionForPersistence, hwindows, map_map, comp_def, sanitizeDesktop_idem]

/-! ## Saving and loading -/

def Accepted (str : Js → String) (s : OsSession) : Prop :=
  ∃ session, validateOsSession str s.toJs = .ok session

theorem accepted_iff : s.Accepted str ↔ s.Valid := by
  constructor
  · rintro ⟨session, h⟩
    exact (validateOsSession_toJs_iff.mp h).2
  · intro h
    exact ⟨s, h.accepted⟩

/-- An imported session is what is written of a valid one. -/
theorem importOsSessionJson_sound (h : importOsSessionJson str parse raw = .ok s) :
    ∃ session : OsSession, session.Valid ∧ s = sanitizeSessionForPersistence session := by
  unfold importOsSessionJson at h
  split at h
  · cases h
  rename_i parsed _
  cases hread : validateOsSession str parsed with
  | error err => simp [hread, Except.map] at h
  | ok session =>
    simp only [hread] at h
    cases h
    exact ⟨session, validateOsSession_sound hread, rfl⟩

theorem Valid.import_export (h : s.Valid) (hkey : s.windows.get? protoKey = none)
    (hparse : parse raw = .ok (exportOsSessionJson s)) :
    importOsSessionJson str parse raw = .ok (sanitizeSessionForPersistence s) := by
  simp only [importOsSessionJson, hparse, exportOsSessionJson, (h.sanitize hkey).accepted,
    Except.map, sanitize_idem]

/-- **A session that was saved is loaded again**: it is not discarded, and saving is not
suspended. -/
theorem Valid.load_save (h : s.Valid) (hkey : s.windows.get? protoKey = none)
    {p : Persistence} (hp : p.autosaveSuspended = false) :
    ∃ p', saveOsSession s none p = (true, none, p') ∧ p'.autosaveSuspended = false ∧
      loadOsSession str none p' = (sanitizeSessionForPersistence s, none, p') := by
  refine ⟨{ p with stored := some (.json (sanitizeSessionForPersistence s).toJs) }, ?_, hp, ?_⟩
  · simp [saveOsSession, hp]
  · simp only [loadOsSession, (h.sanitize hkey).accepted, sanitize_idem]

end

end OsSession

end DamHopper.Os
