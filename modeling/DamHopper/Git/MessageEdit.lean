import DamHopper.Git.Replay

/-!
# MessageEdit — editing a message rewrites history isomorphically

`Editable` is what an edit of a commit message asks of the history: that it can be read,
contains the target, and loses no signature without consent. `Edited` is what it turns
the history into: with `f` the map from commits to replacements, every commit that has
the target among its ancestors is replaced by one with the same tree, the images of its
parents, the blocks that survive and its old message, but for the target.
-/

namespace DamHopper.Git

open Git2 List

section

variable (g : Git2) (odb : Odb) (tip target : Oid)

/-- What an edit asks of the history. -/
structure Editable (message : Bytes) (allowSignatureRemoval : Bool) : Prop where
  readable : odb.Readable g tip
  reachable : odb.Reaches g tip target
  utf8 : ∀ c, odb.commit? g target = some c → c.Utf8Message
  changes : ∀ c, odb.commit? g target = some c → c.message ≠ message
  tags : ∀ x c, odb.Reaches g tip x → odb.Reaches g x target → odb.commit? g x = some c →
    TagsNameParents g c
  consent : ∀ x c, odb.Reaches g tip x → odb.Reaches g x target → odb.commit? g x = some c →
    ∀ block ∈ c.headers, Invalidated g odb tip target block → allowSignatureRemoval = true

/-- What an edit turns the history into, `f` mapping commits to their replacements. -/
structure Edited (odb' : Odb) (message : Bytes) (f : Oid → Oid) : Prop where
  kept : ∀ x o, odb.read g x = some o → odb'.read g x = some o
  unreached : ∀ x, ¬ odb.Reaches g tip x → f x = x
  rewritten : ∀ x, odb.Reaches g tip x → (f x ≠ x ↔ odb.Reaches g x target)
  replacement : ∀ x c, odb.Reaches g tip x → odb.Reaches g x target →
    odb.commit? g x = some c → ∃ c', odb'.commit? g (f x) = some c' ∧
      Replacement (survivors g odb tip target c) none none c.treeOid (c.parents.map f)
        (if x = target then message else c.message) c'
  history : ∀ y, odb'.Reaches g (f tip) y ↔ ∃ x, odb.Reaches g tip x ∧ f x = y

end

section

variable {g : Git2} {odb : Odb} {tip target : Oid} {message : Bytes}
  {allowSignatureRemoval : Bool}

/-! ## Before the first write -/

variable (g odb tip target message allowSignatureRemoval) in
/-- What is known when the first replacement is written. -/
structure Prepared (nodes : List CommitNode) (plan : RewritePlan) : Prop where
  collected : Collected g odb tip nodes
  reachable : odb.Reaches g tip target
  utf8 : ∀ c, odb.commit? g target = some c → c.Utf8Message
  changes : ∀ c, odb.commit? g target = some c → c.message ≠ message
  removals : Removals g odb tip target plan.affected plan.removable
  consent : requiredRemovals plan.removable = true → allowSignatureRemoval = true

variable {nodes : List CommitNode} {node : CommitNode} {plan : RewritePlan}

theorem find_node (h : Collected g odb tip nodes)
    (hfind : nodes.find? (·.oid = target) = some node) :
    ∃ c, odb.commit? g target = some c ∧ parseRawCommit g.oidError node.raw = .ok c := by
  have hoid : node.oid = target := by simpa using find?_some hfind
  obtain ⟨c, hc, hparse, _⟩ := (h.loaded node (mem_of_find?_eq_some hfind)).commit?
  exact ⟨c, hoid ▸ hc, hparse⟩

theorem prepareEdit_prepared
    (h : prepareEdit g odb tip target message allowSignatureRemoval = .ok (some (nodes, plan))) :
    Prepared g odb tip target message allowSignatureRemoval nodes plan := by
  simp only [prepareEdit, bind_eq_ok_iff, require_eq_ok_iff] at h
  obtain ⟨nodes', hcollect, _, hmem, planned, hplan, h⟩ := h
  cases planned with
  | none => cases h
  | some plan' =>
    simp only [bind_eq_ok_iff, require_eq_ok_iff] at h
    obtain ⟨_, hconsent, ⟨⟩⟩ := h
    have hcollected := collectParentFirst_collected hcollect
    simp only [planRewrite, bind_eq_ok_iff, expect_eq_ok_iff] at hplan
    obtain ⟨node, hfind, c, hparse, text, hutf8, hplan⟩ := hplan
    obtain ⟨c', hc', hparse'⟩ := find_node hcollected hfind
    cases hparse.symm.trans hparse'
    split_ifs at hplan with hchanges
    · cases hplan
    obtain ⟨removable, hremovals, ⟨⟩⟩ := bind_eq_ok_iff.mp hplan
    have hthe : ∀ c'', odb.commit? g target = some c'' → c'' = c :=
      fun c'' hc'' => Option.some.inj (hc''.symm.trans hc')
    exact ⟨hcollected, (hcollected.mem target).mp hmem,
      fun c'' hc'' => hthe c'' hc'' ▸ validateUtf8Message_ok_iff.mp ⟨text, hutf8⟩,
      fun c'' hc'' => hthe c'' hc'' ▸ hchanges, hcollected.removals hremovals, hconsent⟩

theorem Prepared.editable (h : Prepared g odb tip target message allowSignatureRemoval nodes plan) :
    Editable g odb tip target message allowSignatureRemoval where
  readable := h.collected.readable
  reachable := h.reachable
  utf8 := h.utf8
  changes := h.changes
  tags x c hx hanchor hc := h.removals.tags x c ((h.removals.closure x).mpr ⟨hx, hanchor⟩) hc
  consent := h.removals.consented_iff.mp h.consent

theorem Editable.exists_prepareEdit (h : Editable g odb tip target message allowSignatureRemoval) :
    ∃ nodes plan, collectParentFirst g odb tip = .ok nodes ∧
      prepareEdit g odb tip target message allowSignatureRemoval = .ok (some (nodes, plan)) := by
  obtain ⟨nodes, hcollect⟩ := collectParentFirst_ok_iff.mpr h.readable
  have hcollected := collectParentFirst_collected hcollect
  have hmem := (hcollected.mem target).mpr h.reachable
  obtain ⟨removable, hremovals⟩ := hcollected.exists_removals h.tags
  obtain ⟨node, hnode, hoid⟩ := hcollected.exists_node h.reachable
  obtain ⟨node', hfind⟩ : ∃ node', nodes.find? (·.oid = target) = some node' := by
    rw [← Option.isSome_iff_exists, find?_isSome]
    exact ⟨node, hnode, by simpa using hoid⟩
  obtain ⟨c, hc, hparse⟩ := find_node hcollected hfind
  obtain ⟨text, hutf8⟩ := validateUtf8Message_ok_iff.mpr (h.utf8 c hc)
  have hconsent := (hcollected.removals hremovals).consented_iff.mpr h.consent
  refine ⟨nodes, ⟨affectedClosure nodes target, removable⟩, hcollect, ?_⟩
  simp only [prepareEdit, planRewrite, bind_eq_ok_iff, require_eq_ok_iff, expect_eq_ok_iff]
  refine ⟨nodes, hcollect, (), hmem, some ⟨affectedClosure nodes target, removable⟩,
    ⟨node', hfind, c, hparse, text, hutf8, ?_⟩, ?_⟩
  · rw [if_neg (h.changes c hc)]
    exact bind_eq_ok_iff.mpr ⟨removable, hremovals, rfl⟩
  · exact check_bind_eq_ok_iff.mpr ⟨require_eq_ok_iff.mpr hconsent, rfl⟩

/-! ## The writes -/

/-- The replacement of one commit, given those of its parents. -/
theorem Prepared.payload (h : Prepared g odb tip target message allowSignatureRemoval nodes plan)
    (hnode : node ∈ nodes) (haffected : node.oid ∈ plan.affected) (m : AssocMap Oid Oid) :
    ∃ c data c', odb.commit? g node.oid = some c ∧
      editPayload g plan target message m node = .ok data ∧
      parseRawCommit g.oidError data = .ok c' ∧
      Replacement (survivors g odb tip target c) none none c.treeOid
        (c.parents.map fun p => (m.get? p).getD p)
        (if node.oid = target then message else c.message) c' := by
  obtain ⟨c, hc, hparse, _, hparents⟩ := (h.collected.loaded node hnode).commit?
  have hlength : (c.parents.map fun p => (m.get? p).getD p).length = c.parents.length :=
    length_map _
  have hnone : ∀ line ∈ (none : Option Bytes),
      RawHeaderBlock.WellFormed ⟨bytes "committer", line⟩ := nofun
  obtain ⟨data, c', hdata, hparse', hreplacement⟩ := h.removals.rewriteBytes haffected hc hparse
    hlength (if node.oid = target then some message else none) none hnone
  refine ⟨c, data, c', hc, ?_, hparse', ?_⟩
  · rw [editPayload, hparents]
    exact hdata
  · have hmessage : (if node.oid = target then some message else none).getD c.message =
        if node.oid = target then message else c.message := by
      split <;> rfl
    rwa [hmessage] at hreplacement

/-- The writes of an edit go through and reach their fixed point. -/
theorem Prepared.exists_rewrote
    (h : Prepared g odb tip target message allowSignatureRemoval nodes plan) :
    ∃ r, rewriteLoop g (editPayload g plan target message)
        (nodes.filter (·.oid ∈ plan.affected)) ⟨odb, .empty⟩ = (r, none) ∧
      Rewrote g (editPayload g plan target message) (nodes.filter (·.oid ∈ plan.affected))
        ⟨odb, .empty⟩ r := by
  have hsub : (nodes.filter (·.oid ∈ plan.affected)).Sublist nodes := filter_sublist
  refine rewriteLoop_spec ((hsub.map _).nodup h.collected.sorted.nodup) ?_ ?_ ?_
  · intro node _ m m' hsame
    unfold editPayload
    rw [map_congr_left fun p hp => by rw [hsame p hp]]
  · exact fun front node back hsplit => h.collected.sorted.not_needed_of_sublist hsub hsplit
  · intro front node back hsplit m _
    have hmem : node ∈ nodes.filter (·.oid ∈ plan.affected) := by rw [hsplit]; simp
    obtain ⟨hnode, haffected⟩ := mem_filter.mp hmem
    obtain ⟨_, data, _, _, hdata, _⟩ := h.payload hnode (of_decide_eq_true haffected) m
    exact ⟨data, hdata⟩

section

variable {nodes : List CommitNode} {plan : RewritePlan} {r : Rewriting}
  (h : Prepared g odb tip target message allowSignatureRemoval nodes plan)
  (hrewrote : Rewrote g (editPayload g plan target message)
    (nodes.filter (·.oid ∈ plan.affected)) ⟨odb, .empty⟩ r)
  (hfree : r.odb.CollisionFree g)

include hrewrote

variable {x : Oid}

theorem image_of_not_affected (hx : x ∉ plan.affected) : r.image x = x := by
  rw [Rewriting.image, hrewrote.other x]
  · rfl
  · intro hmem
    obtain ⟨node, hnode, rfl⟩ := mem_map.mp hmem
    exact hx (of_decide_eq_true (mem_filter.mp hnode).2)

include h hfree

theorem Prepared.replacement (hx : odb.Reaches g tip x) (htarget : odb.Reaches g x target) :
    ∃ c c', odb.commit? g x = some c ∧ r.changed.get? x = some (r.image x) ∧
      r.odb.commit? g (r.image x) = some c' ∧
      Replacement (survivors g odb tip target c) none none c.treeOid (c.parents.map r.image)
        (if x = target then message else c.message) c' := by
  have haffected := (h.removals.closure x).mpr ⟨hx, htarget⟩
  obtain ⟨node, hnode, rfl⟩ := h.collected.exists_node hx
  have hmem : node ∈ nodes.filter (·.oid ∈ plan.affected) :=
    mem_filter.mpr ⟨hnode, decide_eq_true haffected⟩
  obtain ⟨data, hdata, hchanged, hobject⟩ := hrewrote.written node hmem
  obtain ⟨c, data', c', hc, hdata', hparse, hreplacement⟩ := h.payload hnode haffected r.changed
  cases hdata.symm.trans hdata'
  rw [Rewriting.image_eq hchanged]
  exact ⟨c, c', hc, hchanged, commit?_hash hfree (mem_of_mem_drop hobject) hparse,
    hreplacement⟩

/-- Every commit behind the tip has an image with the images of its parents. -/
theorem Prepared.image_parents (hx : odb.Reaches g tip x) :
    ∃ c c', odb.commit? g x = some c ∧ r.odb.commit? g (r.image x) = some c' ∧
      c'.parents = c.parents.map r.image := by
  by_cases htarget : odb.Reaches g x target
  · obtain ⟨c, c', hc, _, hc', hreplacement⟩ := h.replacement hrewrote hfree hx htarget
    exact ⟨c, c', hc, hc', hreplacement.parents⟩
  -- a commit that stays has only parents that stay
  obtain ⟨c, hc⟩ := h.collected.readable.parses x hx
  obtain ⟨written, hwritten⟩ := hrewrote.objects
  refine ⟨c, c, hc, ?_, ?_⟩
  · rw [image_of_not_affected hrewrote fun hmem => htarget ((h.removals.closure x).mp hmem).2]
    exact commit?_of_append hwritten hc
  · rw [map_congr_left fun p hp => image_of_not_affected hrewrote (x := p) ?_, map_id']
    exact fun hmem => htarget (.head ⟨c, hc, hp⟩ ((h.removals.closure p).mp hmem).2)

/-- What is affected changes: the target its message, the others a parent. -/
theorem Prepared.image_ne (hx : odb.Reaches g tip x) (htarget : odb.Reaches g x target) :
    r.image x ≠ x := by
  obtain ⟨written, hwritten⟩ := hrewrote.objects
  have hdiffers : ∀ {y : Oid} {c c' : RawCommit}, odb.commit? g y = some c →
      r.odb.commit? g (r.image y) = some c' → c' ≠ c → r.image y ≠ y := by
    intro y c c' hc hc' hne hsame
    rw [hsame, commit?_of_append hwritten hc] at hc'
    exact hne (Option.some.inj hc').symm
  induction htarget using Relation.ReflTransGen.head_induction_on with
  | refl =>
    obtain ⟨c, c', hc, _, hc', hreplacement⟩ := h.replacement hrewrote hfree hx .refl
    refine hdiffers hc hc' fun heq => h.changes c hc ?_
    rw [← heq, hreplacement.message, if_pos rfl]
  | head hparent htarget ih =>
    rename_i y p
    obtain ⟨c, c', hc, _, hc', hreplacement⟩ :=
      h.replacement hrewrote hfree hx (.head hparent htarget)
    refine hdiffers hc hc' fun heq => ih (hx.tail hparent) ?_
    have hparents : c.parents.map r.image = c.parents := by
      rw [← hreplacement.parents, heq]
    have hall := map_inj_left.mp (hparents.trans (map_id _).symm)
    exact hall p ((Odb.parent_iff hc).mp hparent)

theorem Prepared.edited : Edited g odb tip target r.odb message r.image where
  kept x o ho := by
    obtain ⟨written, hwritten⟩ := hrewrote.objects
    exact read_of_append hwritten ho
  unreached x hx :=
    image_of_not_affected hrewrote fun hmem => hx ((h.removals.closure x).mp hmem).1
  rewritten x hx := by
    refine ⟨fun hne => ?_, h.image_ne hrewrote hfree hx⟩
    by_contra hnot
    exact hne (image_of_not_affected hrewrote fun hmem => hnot ((h.removals.closure x).mp hmem).2)
  replacement x c hx htarget hc := by
    obtain ⟨c₀, c', hc₀, _, hc', hreplacement⟩ := h.replacement hrewrote hfree hx htarget
    cases hc.symm.trans hc₀
    exact ⟨c', hc', hreplacement⟩
  history y := reaches_image (fun _ hx => h.image_parents hrewrote hfree hx)

/-- The checks after the writes find nothing wrong. -/
theorem Prepared.finishEdit (hreads : odb.Rereads g r.odb) (removed : Bool) :
    Git.finishEdit g tip target removed r =
      .ok (.done (r.image target) (r.image tip) r.changed.size removed) := by
  obtain ⟨c, c', hc, htip, hc', hreplacement⟩ := h.replacement hrewrote hfree .refl h.reachable
  obtain ⟨_, _, _, htarget, _⟩ := h.replacement hrewrote hfree h.reachable .refl
  obtain ⟨written, hwritten⟩ := hrewrote.objects
  obtain ⟨node, hnode, hoid⟩ := h.collected.exists_node (show odb.Reaches g tip tip from .refl)
  have hold : r.odb.findCommit g tip = .ok (c.treeOid, c.parents) := by
    have hread := (h.collected.loaded node hnode).1
    rw [hoid] at hread
    rw [Odb.findCommit_of_read (read_of_append hwritten hread), ← Odb.findCommit_of_read hread]
    exact h.collected.readable.agrees tip c .refl hc
  have hnew : r.odb.findCommit g (r.image tip) = .ok (c'.treeOid, c'.parents) := by
    have haffected := (h.removals.closure tip).mpr ⟨.refl, h.reachable⟩
    rw [← hoid] at haffected hc' ⊢
    exact hrewrote.findCommit hfree hreads (mem_filter.mpr ⟨hnode, decide_eq_true haffected⟩) hc'
  simp only [Git.finishEdit, bind_eq_ok_iff, expect_eq_ok_iff, require_eq_ok_iff]
  refine ⟨_, htarget, _, htip, (c.treeOid, c.parents), by rw [hold]; rfl,
    (c'.treeOid, c'.parents), by rw [hnew]; rfl, (), hreplacement.treeOid.symm, rfl⟩

end

/-- An edit that is not prepared has written nothing. -/
theorem edit_of_not_editable (h : ¬ Editable g odb tip target message allowSignatureRemoval) :
    (editCommitMessage g odb tip target message allowSignatureRemoval).1 = odb ∧
      ∀ newTarget newTip count removed,
        (editCommitMessage g odb tip target message allowSignatureRemoval).2 ≠
          .ok (.done newTarget newTip count removed) := by
  unfold editCommitMessage
  split
  · exact ⟨rfl, nofun⟩
  · exact ⟨rfl, nofun⟩
  next nodes plan hprepare => exact absurd (prepareEdit_prepared hprepare).editable h

/-- An edit that is prepared goes through. -/
theorem edit_of_editable (h : Editable g odb tip target message allowSignatureRemoval) :
    ∃ nodes plan r, collectParentFirst g odb tip = .ok nodes ∧
      Prepared g odb tip target message allowSignatureRemoval nodes plan ∧
      Rewrote g (editPayload g plan target message) (nodes.filter (·.oid ∈ plan.affected))
        ⟨odb, .empty⟩ r ∧
      editCommitMessage g odb tip target message allowSignatureRemoval =
        (r.odb, finishEdit g tip target (requiredRemovals plan.removable) r) := by
  obtain ⟨nodes, plan, hcollect, hprepare⟩ := h.exists_prepareEdit
  have hprepared := prepareEdit_prepared hprepare
  obtain ⟨r, hloop, hrewrote⟩ := hprepared.exists_rewrote
  refine ⟨nodes, plan, r, hcollect, hprepared, hrewrote, ?_⟩
  rw [editCommitMessage, hprepare]
  dsimp only
  rw [hloop]

theorem Prepared.count {r : Rewriting}
    (h : Prepared g odb tip target message allowSignatureRemoval nodes plan)
    (hrewrote : Rewrote g (editPayload g plan target message)
      (nodes.filter (·.oid ∈ plan.affected)) ⟨odb, .empty⟩ r) :
    ∃ rewritten : List Oid, rewritten.Nodup ∧ r.changed.size = rewritten.length ∧
      (∀ x, x ∈ rewritten ↔ odb.Reaches g tip x ∧ odb.Reaches g x target) ∧
      (requiredRemovals plan.removable = true ↔ ∃ x ∈ rewritten, ∃ c,
        odb.commit? g x = some c ∧ ∃ block ∈ c.headers, Invalidated g odb tip target block) := by
  have hmem : ∀ x, x ∈ (nodes.filter (·.oid ∈ plan.affected)).map (·.oid) ↔ x ∈ plan.affected := by
    intro x
    constructor
    · intro hx
      obtain ⟨node, hnode, rfl⟩ := mem_map.mp hx
      exact of_decide_eq_true (mem_filter.mp hnode).2
    · intro hx
      obtain ⟨node, hnode, rfl⟩ := h.collected.exists_node ((h.removals.closure x).mp hx).1
      exact mem_map_of_mem (mem_filter.mpr ⟨hnode, decide_eq_true hx⟩)
  refine ⟨(nodes.filter (·.oid ∈ plan.affected)).map (·.oid), ?_, ?_, ?_, ?_⟩
  · exact (filter_sublist.map _).nodup h.collected.sorted.nodup
  · rw [hrewrote.size fun _ _ => rfl, length_map]
    exact Nat.zero_add _
  · exact fun x => (hmem x).trans (h.removals.closure x)
  · rw [h.removals.required]
    exact exists_congr fun x => and_congr (hmem x).symm Iff.rfl

/-- **Editing a message rewrites history isomorphically.** Where no two objects share an id and
libgit2 reads what is written as the parser does, the edit goes through exactly on
what is editable and writes nothing otherwise. If it goes through, the commits behind the
tip were collected each once and after its parents; the new target and tip are the images
of the old ones under a map that does what `Edited` says; the commits counted are those
that have the target among their ancestors, the target included; signatures are reported
removed if one was; and the tree of the tip is the old one. -/
theorem edit_rewrites (g : Git2) (odb : Odb) (tip target : Oid) (message : Bytes)
    (allowSignatureRemoval : Bool) (odb' : Odb) (result : Except RewriteFailure EditOutcome)
    (hrun : editCommitMessage g odb tip target message allowSignatureRemoval = (odb', result))
    (hfree : odb'.CollisionFree g) (hreads : odb.Rereads g odb') :
    ((∃ newTarget newTip count removed, result = .ok (.done newTarget newTip count removed)) ↔
      Editable g odb tip target message allowSignatureRemoval) ∧
    (¬ Editable g odb tip target message allowSignatureRemoval → odb' = odb) ∧
    ∀ newTarget newTip count removed, result = .ok (.done newTarget newTip count removed) →
      (∃ nodes, collectParentFirst g odb tip = .ok nodes ∧ Collected g odb tip nodes) ∧
      (∃ f, Edited g odb tip target odb' message f ∧ newTarget = f target ∧ newTip = f tip) ∧
      (∃ rewritten : List Oid, rewritten.Nodup ∧ count = rewritten.length ∧
        (∀ x, x ∈ rewritten ↔ odb.Reaches g tip x ∧ odb.Reaches g x target) ∧
        (removed = true ↔ ∃ x ∈ rewritten, ∃ c, odb.commit? g x = some c ∧
          ∃ block ∈ c.headers, Invalidated g odb tip target block)) ∧
      ∃ c c', odb.commit? g tip = some c ∧ odb'.commit? g newTip = some c' ∧
        c'.treeOid = c.treeOid := by
  by_cases h : Editable g odb tip target message allowSignatureRemoval
  · obtain ⟨nodes, plan, r, hcollect, hprepared, hrewrote, heq⟩ := edit_of_editable h
    cases hrun.symm.trans heq
    have hfinish := hprepared.finishEdit hrewrote hfree hreads (requiredRemovals plan.removable)
    refine ⟨iff_of_true ⟨_, _, _, _, hfinish⟩ h, absurd h, ?_⟩
    intro newTarget newTip count removed hdone
    cases hfinish.symm.trans hdone
    obtain ⟨c, c', hc, _, hc', hreplacement⟩ :=
      hprepared.replacement hrewrote hfree .refl h.reachable
    exact ⟨⟨nodes, hcollect, hprepared.collected⟩,
      ⟨r.image, hprepared.edited hrewrote hfree, rfl, rfl⟩, hprepared.count hrewrote,
      c, c', hc, hc', hreplacement.treeOid⟩
  · obtain ⟨hodb, hresult⟩ := edit_of_not_editable h
    rw [hrun] at hodb hresult
    refine ⟨iff_of_false ?_ h, fun _ => hodb, fun a b n s hdone => absurd hdone (hresult a b n s)⟩
    rintro ⟨a, b, n, s, hdone⟩
    exact hresult a b n s hdone

end

/-! ## Two small histories -/

/-- A checksum for a hash, and commits read by the parser of the source. -/
def Git2.plain : Git2 where
  hash object :=
    let sum := object.data.foldl (fun acc b => (acc * 257 + b.toNat) % 65536) 0
    ⟨[Fin.ofNat 16 (sum / 4096), Fin.ofNat 16 (sum / 256), Fin.ofNat 16 (sum / 16),
      Fin.ofNat 16 sum] ++ List.replicate 36 0, rfl⟩
  readCommit raw :=
    match parseRawCommit (fun _ => "") raw with
    | .ok c => .ok (c.treeOid, c.parents)
    | .error _ => .error ""
  notFound _ := ""
  oidError _ := ""
  display e := e

theorem Git2.plain_rereads (odb odb' : Odb) : odb.Rereads plain odb' := by
  intro data c _ hparse
  simp only [plain] at hparse ⊢
  rw [hparse]

namespace Sample

def tree : Oid := ⟨List.replicate 40 7, rfl⟩

def commit (parents : List Oid) (more message : String) : GitObject :=
  ⟨.commit, oidLine "tree" tree ++ parents.flatMap (oidLine "parent") ++
    bytes "author A <a@b> 1 +0000\n" ++ bytes "committer A <a@b> 1 +0000\n" ++ bytes more ++
    [lf] ++ bytes message⟩

def root : GitObject := commit [] "" "first\n"

def signedChild : GitObject :=
  commit [plain.hash root] "gpgsig begin\n line\n end\n" "second\n"

def newRoot : GitObject := commit [] "" "better\n"

def newChild : GitObject := commit [plain.hash newRoot] "" "second\n"

end Sample

open Sample in
theorem edit_rewrites_signedChild :
    editCommitMessage plain ⟨[root, signedChild]⟩ (plain.hash signedChild)
        (plain.hash root) (bytes "better\n") true =
      (⟨[root, signedChild, newRoot, newChild]⟩,
        .ok (.done (plain.hash newRoot) (plain.hash newChild) 2 true)) ∧
    ∃ f, Edited plain ⟨[root, signedChild]⟩ (plain.hash signedChild)
        (plain.hash root) ⟨[root, signedChild, newRoot, newChild]⟩ (bytes "better\n") f ∧
      f (plain.hash signedChild) = plain.hash newChild := by
  refine (and_iff_left_of_imp fun hrun => ?_).mpr (by decide +kernel)
  have hfree : Odb.CollisionFree plain ⟨[root, signedChild, newRoot, newChild]⟩ := by
    unfold Odb.CollisionFree
    decide +kernel
  obtain ⟨_, _, hdone⟩ := edit_rewrites plain _ _ _ _ _ _ _ hrun hfree (plain_rereads _ _)
  obtain ⟨_, ⟨f, hedited, _, htip⟩, _⟩ := hdone _ _ _ _ rfl
  exact ⟨f, hedited, htip.symm⟩

/-- A commit that reads, with a tag embedded that names no commit. -/
def Sample.strayTag : GitObject := commit [] "mergetag tag v1\n" "first\n"

open Sample in
/-- Reading every commit is not enough: a tag that names no parent stops the edit, and no
commit is rewritten. -/
theorem edit_refuses_strayTag : Odb.Readable plain ⟨[strayTag]⟩ (plain.hash strayTag) ∧
    (∃ c, Odb.commit? plain ⟨[strayTag]⟩ (plain.hash strayTag) = some c ∧
      c.Utf8Message ∧ c.message ≠ bytes "better\n") ∧
    editCommitMessage plain ⟨[strayTag]⟩ (plain.hash strayTag)
        (plain.hash strayTag) (bytes "better\n") true =
      (⟨[strayTag]⟩, .error (.metadata "mergetag missing 'object <OID>' header")) := by
  have hcollect : collectParentFirst plain ⟨[strayTag]⟩ (plain.hash strayTag) =
      .ok [⟨plain.hash strayTag, tree, [], strayTag.data⟩] := by
    decide +kernel
  refine ⟨collectParentFirst_ok_iff.mp ⟨_, hcollect⟩,
    ⟨_, (Option.some_get (by decide +kernel)).symm, ?_, by decide +kernel⟩, by decide +kernel⟩
  exact validateUtf8Message_ok_iff.mp ⟨['f', 'i', 'r', 's', 't', '\n'], by decide +kernel⟩

end DamHopper.Git
