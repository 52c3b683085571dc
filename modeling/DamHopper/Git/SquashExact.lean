import DamHopper.Git.MessageEdit
import DamHopper.Git.SquashReady

/-!
# SquashExact — a squash replaces a run by one commit and nothing else

What is rewritten is what reaches the oldest commit of the run. That this is the run and
the commits after it, with no side branch, is `Consecutive.after_newest_iff`.
-/

namespace DamHopper.Git

open Git2 Odb List

section

variable {g : Git2} {odb : Odb} {tip : Oid} {s : Selection} {message : Bytes}
  {identity : Except String Signature} {consent : Bool}

/-! ## The run and what comes after it -/

section

variable (h : Squashable g odb tip s identity consent) {x : Oid}
include h

theorem Squashable.run : Consecutive (odb.Parent g) (s.oldest :: s.rest) := by
  refine List.IsChain.imp (fun a b hab y => ?_) h.consecutive
  obtain ⟨c, hc, hparents⟩ := hab
  rw [parent_iff hc, hparents, mem_singleton]

theorem Squashable.after_newest_iff (hx : odb.Reaches g tip x) :
    (odb.Reaches g x s.oldest ∧ x ∉ s.oids) ↔ Relation.TransGen (odb.Parent g) x s.newest := by
  refine h.run.after_newest_iff h.readable.acyclic (fun z hz hanchor p q hp hq => ?_) h.reachable hx
  obtain ⟨c, hc⟩ := h.readable.parses z hz
  have hone := h.linear z c hz hanchor hc
  rw [parent_iff hc] at hp hq
  rw [eq_singleton_of_mem hone hp, mem_singleton] at hq
  exact hq.symm

/-- A commit of the closure other than the oldest has one parent, which belongs to it. -/
theorem Squashable.exists_parent {c : RawCommit} (hx : odb.Reaches g tip x)
    (hanchor : odb.Reaches g x s.oldest) (hne : x ≠ s.oldest) (hc : odb.commit? g x = some c) :
    ∃ p, c.parents = [p] ∧ odb.Reaches g tip p ∧ odb.Reaches g p s.oldest := by
  rcases Relation.ReflTransGen.cases_head_iff.mp hanchor with heq | ⟨p, hp, hrest⟩
  · exact absurd heq hne
  · have hmem := (parent_iff hc).mp hp
    exact ⟨p, eq_singleton_of_mem (h.linear x c hx hanchor hc) hmem, hx.tail hp, hrest⟩

/-- The parents of the oldest commit are not rewritten. -/
theorem Squashable.parent_oldest {p : Oid} (hp : odb.Parent g s.oldest p) :
    ¬ odb.Reaches g p s.oldest :=
  fun hback => h.readable.acyclic s.oldest (h.reachable _ s.oldest_mem)
    (Relation.TransGen.head' hp hback)

/-- If the tip is selected, it is the newest. -/
theorem Squashable.tip_eq_newest (htip : tip ∈ s.oids) : tip = s.newest := by
  rcases Relation.reflTransGen_iff_eq_or_transGen.mp (h.reachable _ s.newest_mem) with heq | hafter
  · exact heq.symm
  · exact absurd htip ((h.after_newest_iff .refl).mpr hafter).2

end

/-! ## The writes -/

theorem SquashPlan.later_sublist (plan : SquashPlan) :
    (plan.later s).Sublist plan.nodes := filter_sublist

section

variable {plan : SquashPlan} (h : SquashReady g odb tip s identity consent plan)
include h

variable {node : CommitNode}

theorem SquashReady.mem_later :
    node ∈ plan.later s ↔
      node ∈ plan.nodes ∧ odb.Reaches g node.oid s.oldest ∧ node.oid ∉ s.oids := by
  rw [SquashPlan.later, mem_filter, decide_eq_true_iff, h.removals.closure]
  constructor
  · rintro ⟨hnode, ⟨_, hanchor⟩, hnot⟩
    exact ⟨hnode, hanchor, hnot⟩
  · rintro ⟨hnode, hanchor, hnot⟩
    exact ⟨hnode, ⟨h.collected.reaches hnode, hanchor⟩, hnot⟩

theorem SquashReady.mem_later_oids {x : Oid} : x ∈ (plan.later s).map (·.oid) ↔
      odb.Reaches g tip x ∧ odb.Reaches g x s.oldest ∧ x ∉ s.oids := by
  constructor
  · intro hx
    obtain ⟨node, hnode, rfl⟩ := mem_map.mp hx
    obtain ⟨hmem, hrest⟩ := h.mem_later.mp hnode
    exact ⟨h.collected.reaches hmem, hrest⟩
  · rintro ⟨hx, hrest⟩
    obtain ⟨node, hnode, rfl⟩ := h.collected.exists_node hx
    exact mem_map_of_mem (h.mem_later.mpr ⟨hnode, hrest⟩)

/-- The one parent of a commit after the run is selected or comes after the run too. -/
theorem SquashReady.exists_parent (hnode : node ∈ plan.later s) :
    ∃ p, node.parents = [p] ∧ (p ∈ s.oids ∨ p ∈ (plan.later s).map (·.oid)) := by
  obtain ⟨hmem, hanchor, hnot⟩ := h.mem_later.mp hnode
  obtain ⟨c, hc, _, _, hparents⟩ := (h.collected.loaded node hmem).commit?
  obtain ⟨p, hp, htip, holdest⟩ := h.squashable.exists_parent (h.collected.reaches hmem) hanchor
    (fun heq => hnot (heq ▸ s.oldest_mem)) hc
  refine ⟨p, hparents.trans hp, ?_⟩
  by_cases hselected : p ∈ s.oids
  · exact .inl hselected
  · exact .inr (h.mem_later_oids.mpr ⟨htip, holdest, hselected⟩)

/-- The commit that takes the place of the run. -/
theorem SquashReady.squashPayload (message : Bytes) :
    ∃ oldest newest data c signature, odb.commit? g s.oldest = some oldest ∧
      odb.commit? g s.newest = some newest ∧ Git.squashPayload g plan message = .ok data ∧
      parseRawCommit g.oidError data = .ok c ∧ identity = .ok signature ∧
      plan.oldest.parents = oldest.parents ∧ plan.newest.treeOid = newest.treeOid ∧
      Replacement (survivors g odb tip s.oldest oldest) (some newest.treeOid)
        (some signature.line) oldest.treeOid oldest.parents message c := by
  obtain ⟨oldest, holdest, hparse, _, hparents⟩ := (h.collected.loaded _ h.oldest.1).commit?
  obtain ⟨newest, hnewest, _, htree, _⟩ := (h.collected.loaded _ h.newest.1).commit?
  rw [h.oldest.2] at holdest
  rw [h.newest.2] at hnewest
  obtain ⟨signature, hsignature, hvalid, hline⟩ := h.committer
  have hmem : s.oldest ∈ plan.affected :=
    (h.removals.closure _).mpr ⟨h.squashable.reachable _ s.oldest_mem, .refl⟩
  have hcommitter : ∀ line ∈ some signature.line,
      RawHeaderBlock.WellFormed ⟨bytes "committer", line⟩ := by
    rintro line ⟨⟩
    exact hvalid.wellFormed
  obtain ⟨data, c, hdata, hparse', hreplacement⟩ := h.removals.rewriteBytes hmem holdest hparse
    rfl (some message) (some newest.treeOid) hcommitter
  refine ⟨oldest, newest, data, c, signature, holdest, hnewest, ?_, hparse', hsignature,
    hparents, htree, hreplacement⟩
  rw [Git.squashPayload, hparents, htree, hline, h.oldest.2]
  exact hdata

/-- The replacement of a commit after the run, given that of its parent. -/
theorem SquashReady.payload (hnode : node ∈ plan.later s) {p q : Oid} (hp : node.parents = [p])
    {m : AssocMap Oid Oid} (hq : m.get? p = some q) :
    ∃ c data c', odb.commit? g node.oid = some c ∧ c.parents = [p] ∧
      descendantPayload g plan m node = .ok data ∧ parseRawCommit g.oidError data = .ok c' ∧
      Replacement (survivors g odb tip s.oldest c) none none c.treeOid [q] c.message c' := by
  obtain ⟨hmem, hanchor, _⟩ := h.mem_later.mp hnode
  obtain ⟨c, hc, hparse, _, hparents⟩ := (h.collected.loaded node hmem).commit?
  have haffected : node.oid ∈ plan.affected :=
    (h.removals.closure _).mpr ⟨h.collected.reaches hmem, hanchor⟩
  have hlength : [q].length = c.parents.length := by rw [← hparents, hp]; rfl
  have hnone : ∀ line ∈ (none : Option Bytes),
      RawHeaderBlock.WellFormed ⟨bytes "committer", line⟩ := nofun
  obtain ⟨data, c', hdata, hparse', hreplacement⟩ := h.removals.rewriteBytes haffected hc hparse
    hlength none none hnone
  refine ⟨c, data, c', hc, hparents.symm.trans hp, ?_, hparse', hreplacement⟩
  have hparent : node.parents.head?.bind m.get? = some q := by rw [hp]; exact hq
  rw [descendantPayload, bind_eq_ok_iff]
  exact ⟨q, expect_eq_ok_iff.mpr hparent, hdata⟩

/-- The writes of a squash go through and reach their fixed point. -/
theorem SquashReady.exists_rewrote (odb' : Odb) {mapped : AssocMap Oid Oid}
    (hmapped : ∀ x ∈ s.oids, mapped.contains x = true) :
    ∃ r, rewriteLoop g (descendantPayload g plan) (plan.later s) ⟨odb', mapped⟩ = (r, none) ∧
      Rewrote g (descendantPayload g plan) (plan.later s) ⟨odb', mapped⟩ r := by
  refine rewriteLoop_spec ((plan.later_sublist.map _).nodup h.collected.sorted.nodup) ?_ ?_ ?_
  · intro node hnode m m' hsame
    obtain ⟨p, hp, _⟩ := h.exists_parent hnode
    have hget : m.get? p = m'.get? p := hsame p (hp ▸ mem_singleton_self p)
    simp only [descendantPayload, hp, head?_cons, Option.bind_some, hget]
  · exact fun front node back hsplit =>
      h.collected.sorted.not_needed_of_sublist plan.later_sublist hsplit
  · intro front node back hsplit m hm
    have hnode : node ∈ plan.later s := by rw [hsplit]; simp
    obtain ⟨p, hp, hplace⟩ := h.exists_parent hnode
    have hcontains : m.contains p = true := by
      refine hm p (hplace.imp (hmapped p) fun hlater => ?_)
      -- a parent that is rewritten comes before its child
      have hnot := h.collected.sorted.not_needed_of_sublist plan.later_sublist hsplit p
        (hp ▸ mem_singleton_self p)
      rw [hsplit, map_append, mem_append] at hlater
      exact hlater.resolve_right hnot
    obtain ⟨q, hq⟩ := AssocMap.contains_iff.mp hcontains
    obtain ⟨_, data, _, _, _, hdata, _⟩ := h.payload hnode hp hq
    exact ⟨data, hdata⟩

end

/-! ## After the writes -/

section

variable {plan : SquashPlan} {squash : Oid} {r : Rewriting} {written : List GitObject}
  {mapped : AssocMap Oid Oid} {odb' : Odb}
  (h : SquashReady g odb tip s identity consent plan)
  (hmapped : ∀ x, mapped.get? x = if x ∈ s.oids then some squash else none)
  (hrewrote : Rewrote g (descendantPayload g plan) (plan.later s) ⟨odb', mapped⟩ r)
include h hmapped hrewrote

variable {x : Oid}

theorem SquashReady.changed_selected (hx : x ∈ s.oids) : r.changed.get? x = some squash := by
  rw [hrewrote.other x, hmapped, if_pos hx]
  exact fun hlater => (h.mem_later_oids.mp hlater).2.2 hx

theorem SquashReady.image_selected (hx : x ∈ s.oids) : r.image x = squash :=
  Rewriting.image_eq (h.changed_selected hmapped hrewrote hx)

theorem SquashReady.image_untouched (hx : ¬ (odb.Reaches g tip x ∧ odb.Reaches g x s.oldest)) :
    r.image x = x := by
  have hselected : x ∉ s.oids := by
    intro hmem
    refine hx ⟨h.squashable.reachable x hmem, ?_⟩
    exact h.squashable.run.reaches_oldest x hmem
  have hlater : x ∉ (plan.later s).map (·.oid) := by
    intro hmem
    obtain ⟨htip, holdest, _⟩ := h.mem_later_oids.mp hmem
    exact hx ⟨htip, holdest⟩
  rw [Rewriting.image, hrewrote.other x hlater, hmapped, if_neg hselected]
  rfl

theorem SquashReady.image_later (hfree : r.odb.CollisionFree g) {c : RawCommit}
    (hx : odb.Reaches g tip x) (hanchor : odb.Reaches g x s.oldest) (hnot : x ∉ s.oids)
    (hc : odb.commit? g x = some c) :
    r.changed.get? x = some (r.image x) ∧ ∃ p c', c.parents = [p] ∧
      r.odb.commit? g (r.image x) = some c' ∧
      Replacement (survivors g odb tip s.oldest c) none none c.treeOid [r.image p] c.message
        c' := by
  obtain ⟨node, hnode, rfl⟩ := h.collected.exists_node hx
  have hlater := h.mem_later.mpr ⟨hnode, hanchor, hnot⟩
  obtain ⟨data, hdata, hchanged, hobject⟩ := hrewrote.written node hlater
  obtain ⟨p, hp, hplace⟩ := h.exists_parent hlater
  have hq : r.changed.get? p = some (r.image p) := by
    rcases hplace with hselected | hparent
    · rw [h.changed_selected hmapped hrewrote hselected,
        h.image_selected hmapped hrewrote hselected]
    obtain ⟨node', hnode', rfl⟩ := mem_map.mp hparent
    obtain ⟨data', _, hchanged', _⟩ := hrewrote.written node' hnode'
    rw [hchanged', Rewriting.image_eq hchanged']
  obtain ⟨c₀, data', c', hc₀, hparents, hdata', hparse, hreplacement⟩ := h.payload hlater hp hq
  cases hc.symm.trans hc₀
  cases hdata.symm.trans hdata'
  rw [Rewriting.image_eq hchanged]
  exact ⟨hchanged, p, c', hparents, commit?_hash hfree (mem_of_mem_drop hobject) hparse,
    hreplacement⟩

section

variable {oldest newest c : RawCommit} {committer : Bytes} (hfree : r.odb.CollisionFree g)
  (hwritten : r.odb.objects = odb.objects ++ written)
  (holdest : odb.commit? g s.oldest = some oldest) (hnewest : odb.commit? g s.newest = some newest)
  (hsquash : r.odb.commit? g squash = some c)
  (hreplacement : Replacement (survivors g odb tip s.oldest oldest) (some newest.treeOid)
    (some committer) oldest.treeOid oldest.parents message c)
include hfree hwritten holdest hnewest hsquash hreplacement

omit hnewest in
/-- The parents of what replaces a commit are what replaces commits behind the tip, and what
replaces a parent is behind what replaces the child. -/
theorem SquashReady.image_parents {x : Oid} (hx : odb.Reaches g tip x) :
    (∀ q, r.odb.Parent g (r.image x) q → ∃ p, odb.Reaches g tip p ∧ r.image p = q) ∧
      ∀ p, odb.Parent g x p → r.odb.Reaches g (r.image x) (r.image p) := by
  have hsame {y : Oid} (hy : y ∈ s.oids) := h.image_selected hmapped hrewrote hy
  have hstays {y : Oid} (hy : ¬ odb.Reaches g y s.oldest) :=
    h.image_untouched hmapped hrewrote fun hboth => hy hboth.2
  obtain ⟨cx, hcx⟩ := h.squashable.readable.parses x hx
  by_cases hanchor : odb.Reaches g x s.oldest
  · by_cases hselected : x ∈ s.oids
    · have hparents : ∀ q, r.odb.Parent g squash q ↔ odb.Parent g s.oldest q := by
        intro q
        rw [parent_iff hsquash, hreplacement.parents, parent_iff holdest]
      rw [hsame hselected]
      constructor
      · intro q hq
        rw [hparents] at hq
        exact ⟨q, (h.squashable.reachable _ s.oldest_mem).tail hq,
          hstays (h.squashable.parent_oldest hq)⟩
      · intro p hp
        rcases mem_cons.mp hselected with rfl | hrest
        · -- behind the oldest commit the history is the old one
          rw [hstays (h.squashable.parent_oldest hp)]
          exact .single ((hparents p).mpr hp)
        · rw [hsame (h.squashable.run.parent_mem hrest hp)]
          exact .refl
    · obtain ⟨_, p, c', hparents, hc', hreplace⟩ :=
        h.image_later hmapped hrewrote hfree hx hanchor hselected hcx
      simp only [parent_iff hc', parent_iff hcx, hreplace.parents, hparents, mem_singleton]
      have hparent : odb.Parent g x p := (parent_iff hcx).mpr (hparents ▸ mem_singleton_self p)
      refine ⟨fun q hq => ⟨p, hx.tail hparent, hq.symm⟩, fun p' hp => .single ?_⟩
      rw [parent_iff hc', hreplace.parents, hp]
      exact mem_singleton_self _
  · have hparents : ∀ q, r.odb.Parent g x q ↔ odb.Parent g x q := by
      intro q
      rw [parent_iff (commit?_of_append hwritten hcx), parent_iff hcx]
    have hbehind : ∀ p, odb.Parent g x p → r.image p = p :=
      fun p hp => hstays fun hback => hanchor (.head hp hback)
    rw [hstays hanchor]
    constructor
    · intro q hq
      rw [hparents] at hq
      exact ⟨q, hx.tail hq, hbehind q hq⟩
    · intro p hp
      rw [hbehind p hp]
      exact .single ((hparents p).mpr hp)

theorem SquashReady.squashed : Squashed g odb tip s r.odb message committer squash r.image where
  kept _ _ ho := read_of_append hwritten ho
  selected x hx := h.image_selected hmapped hrewrote hx
  squashed := ⟨oldest, newest, c, holdest, hnewest, hsquash, hreplacement, hreplacement.author⟩
  later x cx hx hafter hcx := by
    obtain ⟨hanchor, hnot⟩ := (h.squashable.after_newest_iff hx).mpr hafter
    obtain ⟨_, p, c', hparents, hc', hreplace⟩ :=
      h.image_later hmapped hrewrote hfree hx hanchor hnot hcx
    exact ⟨p, c', hparents, hc', hreplace, hreplace.author, hreplace.sameCommitter⟩
  untouched x hx := h.image_untouched hmapped hrewrote hx
  history := reaches_image_of fun _ hx =>
    h.image_parents hmapped hrewrote hfree hwritten holdest hsquash hreplacement hx

omit hwritten holdest hsquash in
/-- The checks after the writes find nothing wrong. -/
theorem SquashReady.finishSquash (hreads : odb'.Rereads g r.odb)
    (hfound : r.odb.findCommit g squash = .ok (c.treeOid, c.parents)) :
    ∃ action, Git.finishSquash g plan tip s squash r = .ok action ∧
      action.newTarget = squash ∧ action.newHead = r.image tip ∧ action.oldTarget = s.newest ∧
      action.oldHead = tip ∧ action.rewrittenCount = 1 + (plan.later s).length ∧
      action.signaturesRemoved = requiredRemovals plan.removable := by
  obtain ⟨ct, hct⟩ := h.squashable.readable.parses tip .refl
  have hanchor : odb.Reaches g tip s.oldest := h.squashable.reachable _ s.oldest_mem
  obtain ⟨node, hnode, hoid⟩ := h.collected.exists_node (show odb.Reaches g tip tip from .refl)
  obtain ⟨ct', hct', _, htree, _⟩ := (h.collected.loaded node hnode).commit?
  rw [hoid, hct] at hct'
  cases hct'
  have hnew : r.changed.get? tip = some (r.image tip) ∧
      ∃ c' : RawCommit, r.odb.findCommit g (r.image tip) = .ok (c'.treeOid, c'.parents) ∧
        c'.treeOid = ct.treeOid := by
    by_cases hselected : tip ∈ s.oids
    · have hchanged := h.changed_selected hmapped hrewrote hselected
      have himage := Rewriting.image_eq hchanged
      rw [h.squashable.tip_eq_newest hselected, hnewest] at hct
      cases hct
      exact ⟨himage ▸ hchanged, c, himage ▸ hfound, hreplacement.treeOid⟩
    · obtain ⟨hchanged, _, c', _, hc', hreplace⟩ :=
        h.image_later hmapped hrewrote hfree .refl hanchor hselected hct
      have hlater : node ∈ plan.later s := h.mem_later.mpr ⟨hnode, by rwa [hoid], by rwa [hoid]⟩
      refine ⟨hchanged, c', ?_, hreplace.treeOid⟩
      rw [← hoid] at hc' ⊢
      exact hrewrote.findCommit hfree hreads hlater hc'
  obtain ⟨hchanged, c', hfind, htree'⟩ := hnew
  let count := s.oids.length
  refine ⟨⟨s!"Squashed {count} commits", plan.newest.oid, squash, tip, r.image tip,
    1 + (plan.later s).length, requiredRemovals plan.removable⟩, ?_, rfl, rfl,
    h.newest.2, rfl, rfl, rfl⟩
  simp only [Git.finishSquash, bind_eq_ok_iff, expect_eq_ok_iff, require_eq_ok_iff,
    orFail_eq_ok_iff]
  exact ⟨_, hchanged, _, hfind, node,
    (selectedNode_eq_ok_iff h.collected).mpr ⟨hnode, hoid⟩, (), htree'.trans htree.symm, rfl⟩

end

end

/-! ## The whole squash -/

/-- A squash that is not ready has written nothing. -/
theorem squash_of_not_squashable (h : ¬ Squashable g odb tip s identity consent) :
    (squashObjects g odb tip s message identity consent).1 = odb ∧
      ∀ action, (squashObjects g odb tip s message identity consent).2 ≠ .ok action := by
  unfold squashObjects
  split
  · exact ⟨rfl, nofun⟩
  next plan hprepare => exact absurd (prepareSquash_ready hprepare).squashable h

theorem get?_ofList_const {oids : List Oid} {squash : Oid} (x : Oid) :
    (AssocMap.ofList (oids.map fun oid => (oid, squash))).get? x =
      if x ∈ oids then some squash else none := by
  induction oids with
  | nil => rfl
  | cons oid oids ih =>
    rw [map_cons, AssocMap.get?_ofList_cons, ih]
    by_cases hmem : x ∈ oids
    · simp [hmem]
    · rcases eq_or_ne x oid with rfl | heq
      · simp [hmem]
      · simp [heq]

theorem CollisionFree.of_append {odb' : Odb} {written : List GitObject}
    (h : odb'.CollisionFree g) (hwritten : odb'.objects = odb.objects ++ written) :
    odb.CollisionFree g := by
  intro o ho o' ho'
  refine h o ?_ o' ?_
  · rw [hwritten]
    exact mem_append_left _ ho
  · rw [hwritten]
    exact mem_append_left _ ho'

/-- A squash that is ready goes through. -/
theorem squash_of_squashable (h : Squashable g odb tip s identity consent)
    (hfree : (squashObjects g odb tip s message identity consent).1.CollisionFree g)
    (hreads : odb.Rereads g (squashObjects g odb tip s message identity consent).1) :
    ∃ plan action odb' f signature, SquashReady g odb tip s identity consent plan ∧
      squashObjects g odb tip s message identity consent = (odb', .ok action) ∧
      identity = .ok signature ∧
      Squashed g odb tip s odb' message signature.line action.newTarget f ∧
      action.newHead = f tip ∧ action.oldTarget = s.newest ∧ action.oldHead = tip ∧
      action.rewrittenCount = 1 + (plan.later s).length ∧
      action.signaturesRemoved = requiredRemovals plan.removable := by
  obtain ⟨plan, hprepare⟩ := h.exists_prepareSquash
  have hready := prepareSquash_ready hprepare
  obtain ⟨oldest, newest, data, c, signature, holdest, hnewest, hdata, hparse, hsignature,
    hparents, htree, hreplacement⟩ := hready.squashPayload message
  have hmapped := @get?_ofList_const s.oids (g.hash ⟨.commit, data⟩)
  obtain ⟨r, hloop, hrewrote⟩ := hready.exists_rewrote ⟨odb.objects ++ [⟨.commit, data⟩]⟩
    fun x hx => AssocMap.contains_iff.mpr ⟨_, (hmapped x).trans (if_pos hx)⟩
  obtain ⟨written, hwritten⟩ := hrewrote.objects
  have hrun (checked) (hchecked : checkSquash g ⟨odb.objects ++ [⟨.commit, data⟩]⟩ plan
      (g.hash ⟨.commit, data⟩) = checked) : squashObjects g odb tip s message identity consent =
      checked.casesOn (fun failure => (⟨odb.objects ++ [⟨.commit, data⟩]⟩, .error failure))
        fun _ => (r.odb, finishSquash g plan tip s (g.hash ⟨.commit, data⟩) r) := by
    unfold squashObjects
    rw [hprepare]
    dsimp only
    rw [hdata]
    dsimp only [write]
    rewrite [hloop, hchecked]
    cases checked with
    | error failure | ok u => rfl
  have hlast : (⟨.commit, data⟩ : GitObject) ∈ odb.objects ++ [⟨.commit, data⟩] :=
    mem_append_right _ (mem_singleton_self _)
  -- what was written is read back, whether or not the check succeeded
  have hfirst : Odb.CollisionFree g ⟨odb.objects ++ [⟨.commit, data⟩]⟩ ∧
      g.readCommit data = .ok (c.treeOid, c.parents) := by
    cases hchecked : checkSquash g ⟨odb.objects ++ [⟨.commit, data⟩]⟩ plan
        (g.hash ⟨.commit, data⟩) with
    | error failure =>
      rw [hrun _ hchecked] at hfree hreads
      exact ⟨hfree, hreads data c (by simp) hparse⟩
    | ok u =>
      rw [hrun _ hchecked] at hfree hreads
      exact ⟨CollisionFree.of_append hfree hwritten, hreads data c (by simp [hwritten]) hparse⟩
  obtain ⟨hfirst, hread⟩ := hfirst
  have hcheck : checkSquash g ⟨odb.objects ++ [⟨.commit, data⟩]⟩ plan (g.hash ⟨.commit, data⟩) =
      .ok () := by
    simp only [checkSquash, bind_eq_ok_iff, require_eq_ok_iff, orFail_eq_ok_iff]
    refine ⟨_, (findCommit_of_read (read_hash hfirst hlast)).trans hread, ?_⟩
    rw [hreplacement.treeOid, hreplacement.parents, hparents, htree]
    exact ⟨rfl, rfl, fun _ hp => hp⟩
  have hrun := hrun _ hcheck
  rw [hrun] at hfree hreads
  have hsquash : r.odb.commit? g (g.hash ⟨.commit, data⟩) = some c :=
    commit?_of_append hwritten (commit?_hash hfirst hlast hparse)
  have hobjects : r.odb.objects = odb.objects ++ (⟨.commit, data⟩ :: written) := by
    simp [hwritten, append_assoc]
  have hfound : r.odb.findCommit g (g.hash ⟨.commit, data⟩) = .ok (c.treeOid, c.parents) :=
    (findCommit_of_read (read_of_append hwritten (read_hash hfirst hlast))).trans hread
  have hlater : Odb.Rereads g ⟨odb.objects ++ [⟨.commit, data⟩]⟩ r.odb := fun data' c' hmem =>
    hreads data' c' (drop_subset_drop_left _ (by simp) hmem)
  obtain ⟨action, hfinish, htarget, hhead, hrest⟩ := hready.finishSquash hmapped hrewrote hfree
    hnewest hreplacement hlater hfound
  refine ⟨plan, action, r.odb, r.image, signature, hready, by rw [hrun, hfinish], hsignature, ?_,
    hhead, hrest⟩
  rw [htarget]
  exact hready.squashed hmapped hrewrote hfree hobjects holdest hnewest hsquash hreplacement

/-- **A squash is exact and total on what it admits.** Where no two objects share an id and
libgit2 reads what is written as the parser does, it goes through exactly on what is
squashable, and writes nothing otherwise. If it goes through, the history behind the new
tip is the old one with the run replaced by one commit and every later commit by one that
differs in its parent alone, as `Squashed` says; the commits counted are that one and those
after the newest selected commit; and signatures are reported removed if one was. -/
theorem squash_exact (g : Git2) (odb : Odb) (tip : Oid) (s : Selection) (message : Bytes)
    (identity : Except String Signature) (consent : Bool) (odb' : Odb)
    (result : Except RewriteFailure SquashAction)
    (hrun : squashObjects g odb tip s message identity consent = (odb', result))
    (hfree : odb'.CollisionFree g) (hreads : odb.Rereads g odb') :
    ((∃ action, result = .ok action) ↔ Squashable g odb tip s identity consent) ∧
    (¬ Squashable g odb tip s identity consent → odb' = odb) ∧
    ∀ action, result = .ok action → (∃ f signature, identity = .ok signature ∧
        Squashed g odb tip s odb' message signature.line action.newTarget f ∧
        action.newHead = f tip) ∧
      action.oldTarget = s.newest ∧ action.oldHead = tip ∧
      (∃ later : List Oid, later.Nodup ∧ action.rewrittenCount = 1 + later.length ∧
        ∀ x, x ∈ later ↔ odb.Reaches g tip x ∧ Relation.TransGen (odb.Parent g) x s.newest) ∧
      (action.signaturesRemoved = true ↔ ∃ x c, odb.Reaches g tip x ∧ odb.Reaches g x s.oldest ∧
        odb.commit? g x = some c ∧ ∃ block ∈ c.headers, Invalidated g odb tip s.oldest block) := by
  by_cases h : Squashable g odb tip s identity consent
  · have hfree' : (squashObjects g odb tip s message identity consent).1.CollisionFree g := by
      rw [hrun]
      exact hfree
    obtain ⟨plan, action, odb'', f, signature, hready, heq, hsignature, hsquashed, hhead, htarget,
      hold, hcount, hremoved⟩ := squash_of_squashable h hfree'
        (by rwa [hrun])
    cases hrun.symm.trans heq
    refine ⟨iff_of_true ⟨action, rfl⟩ h, absurd h, ?_⟩
    rintro action' ⟨⟩
    refine ⟨⟨f, signature, hsignature, hsquashed, hhead⟩, htarget, hold, ?_, ?_⟩
    · refine ⟨(plan.later s).map (·.oid), ?_, by rw [hcount, length_map], fun x => ?_⟩
      · exact (plan.later_sublist.map _).nodup hready.collected.sorted.nodup
      · rw [hready.mem_later_oids]
        exact and_congr_right fun hx => h.after_newest_iff hx
    · rw [hremoved, hready.removals.required]
      constructor
      · rintro ⟨x, hx, c, hc, hblock⟩
        obtain ⟨htip, hanchor⟩ := (hready.removals.closure x).mp hx
        exact ⟨x, c, htip, hanchor, hc, hblock⟩
      · rintro ⟨x, c, htip, hanchor, hc, hblock⟩
        exact ⟨x, (hready.removals.closure x).mpr ⟨htip, hanchor⟩, c, hc, hblock⟩
  · obtain ⟨hodb, hresult⟩ := @squash_of_not_squashable g odb tip s message identity consent h
    rw [hrun] at hodb hresult
    refine ⟨iff_of_false ?_ h, fun _ => hodb, fun action heq => absurd heq (hresult action)⟩
    rintro ⟨action, heq⟩
    exact hresult action heq

end

/-! ## Two small histories -/

namespace Sample

def tipCommit : GitObject := commit [plain.hash signedChild] "" "third\n"

def user : Signature := ⟨bytes "U", bytes "u@v", 5, -90, by decide⟩

/-- The first two commits of three. -/
def firstTwo : Selection :=
  ⟨plain.hash root, [plain.hash signedChild], cons_ne_nil _ _, by decide +kernel⟩

def squashed : GitObject :=
  ⟨.commit, oidLine "tree" tree ++ bytes "author A <a@b> 1 +0000\n" ++
    bytes "committer U <u@v> 5 -0130\n" ++ [lf] ++ bytes "both\n"⟩

def newTipCommit : GitObject := commit [plain.hash squashed] "" "third\n"

/-- A child whose message is declared to be in another encoding. -/
def latinChild : GitObject :=
  commit [plain.hash root] "encoding latin1\n" "second\n"

def rootAndLatin : Selection :=
  ⟨plain.hash root, [plain.hash latinChild], cons_ne_nil _ _, by decide +kernel⟩

end Sample

open Sample in
theorem squash_exact_firstTwo :
    squashObjects plain ⟨[root, signedChild, tipCommit]⟩ (plain.hash tipCommit) firstTwo
        (bytes "both\n") (.ok user) true =
      (⟨[root, signedChild, tipCommit, squashed, newTipCommit]⟩,
        .ok ⟨"Squashed 2 commits", plain.hash signedChild, plain.hash squashed,
          plain.hash tipCommit, plain.hash newTipCommit, 2, true⟩) ∧
    Squashable plain ⟨[root, signedChild, tipCommit]⟩ (plain.hash tipCommit) firstTwo
      (.ok user) true := by
  refine (and_iff_left_of_imp fun hrun => ?_).mpr (by decide +kernel)
  have hfree : Odb.CollisionFree plain
      ⟨[root, signedChild, tipCommit, squashed, newTipCommit]⟩ := by
    unfold Odb.CollisionFree
    decide +kernel
  obtain ⟨hiff, _, _⟩ := squash_exact plain _ _ _ _ _ _ _ _ hrun hfree
    (plain_rereads _ _)
  exact hiff.mp ⟨_, rfl⟩

open Sample in
/-- A run of consecutive commits is not enough: a message that is not declared as UTF-8
stops the squash. -/
theorem squash_refuses_latinChild :
    Odb.Readable plain ⟨[root, latinChild]⟩ (plain.hash latinChild) ∧
    (∃ c, commit? plain ⟨[root, latinChild]⟩ (plain.hash root) = some c ∧
      c.parents = [] ∧ c.ValidTemplate) ∧
    (∃ c, commit? plain ⟨[root, latinChild]⟩ (plain.hash latinChild) = some c ∧
      c.parents = [plain.hash root]) ∧
    user.Valid ∧
    squashObjects plain ⟨[root, latinChild]⟩ (plain.hash latinChild) rootAndLatin
        (bytes "both\n") (.ok user) true =
      (⟨[root, latinChild]⟩, .error (.block .unsupportedHistory
        "selected commit declares a non-UTF-8 or malformed encoding")) := by
  have hcollect : collectParentFirst plain ⟨[root, latinChild]⟩ (plain.hash latinChild) =
      .ok [⟨plain.hash root, tree, [], root.data⟩,
        ⟨plain.hash latinChild, tree, [plain.hash root], latinChild.data⟩] := by
    decide +kernel
  refine ⟨collectParentFirst_ok_iff.mp ⟨_, hcollect⟩,
    ⟨_, (Option.some_get (by decide +kernel)).symm, by decide +kernel, ?_⟩,
    ⟨_, (Option.some_get (by decide +kernel)).symm, by decide +kernel⟩,
    by decide +kernel, by decide +kernel⟩
  constructor <;> decide +kernel

end DamHopper.Git
