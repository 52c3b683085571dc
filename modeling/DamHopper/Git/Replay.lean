import DamHopper.Git.Graph

/-!
# Replay — which blocks go, and what a loop of writes leaves behind

Two passes over the collected commits that every rewrite makes. The first lists the
blocks that cannot survive, and refuses a tag that names no parent; the second writes a
replacement for each commit from the replacements before it. What the second leaves
behind is a fixed point: every replacement is the one that the final map of replacements
gives (`rewriteLoop_spec`), because a commit comes after its parents.
-/

namespace DamHopper.Git

open List AssocMap

section

variable (g : Git2)

/-! ## Blocks that cannot survive -/

/-- A signature, or a tag of a commit that is rewritten. -/
def removedBy (affected : List Oid) (block : RawHeaderBlock) : Bool :=
  block.key = bytes "gpgsig" || block.key = bytes "gpgsig-sha256" ||
    (block.key = bytes "mergetag" && match parseMergetagBlock g.oidError block.raw with
      | .ok object => affected.contains object
      | .error _ => false)

/-- Every tag embedded in the commit can be read and names one of its parents. -/
def TagsNameParents (c : RawCommit) : Prop :=
  ∀ block ∈ c.headers, block.key = bytes "mergetag" →
    ∃ object ∈ c.parents, parseMergetagBlock g.oidError block.raw = .ok object

def removedIndices (affected : List Oid) (c : RawCommit) : List Nat :=
  (c.headers.zipIdx.filter fun e => removedBy g affected e.1).map (·.2)

variable {g} {affected : List Oid}
  {block : RawHeaderBlock} {c : RawCommit} {nodes : List CommitNode}

theorem removedBy_plain (h : removedBy g affected block = true) : block.Plain := by
  have hkeys : block.key ∈ [bytes "gpgsig", bytes "gpgsig-sha256", bytes "mergetag"] := by
    simp only [removedBy, Bool.or_eq_true, Bool.and_eq_true, decide_eq_true_eq] at h
    rcases h with (h | h) | ⟨h, _⟩ <;> simp [h]
  have hplain : ∀ key ∈ [bytes "gpgsig", bytes "gpgsig-sha256", bytes "mergetag"],
      key ≠ bytes "tree" ∧ key ≠ bytes "parent" ∧ key ≠ bytes "author" ∧
        key ≠ bytes "committer" := by decide
  exact hplain _ hkeys

/-- Blocks at different positions: one is at a removed position exactly if it is removed. -/
theorem mem_removedIndices_iff {e : RawHeaderBlock × Nat} (he : e ∈ c.headers.zipIdx) :
    e.2 ∈ removedIndices g affected c ↔ removedBy g affected e.1 = true := by
  rw [removedIndices, mem_map]
  constructor
  · rintro ⟨e', he', hindex⟩
    obtain ⟨hmem, hremoved⟩ := mem_filter.mp he'
    have hsame : e'.1 = e.1 := by
      have hget := mem_zipIdx_iff_getElem?.mp he
      have hget' := mem_zipIdx_iff_getElem?.mp hmem
      rw [hindex, hget] at hget'
      exact (Option.some.inj hget').symm
    exact hsame ▸ hremoved
  · exact fun hremoved => ⟨e, mem_filter.mpr ⟨he, hremoved⟩, rfl⟩

theorem keptBlocks_removedIndices : keptBlocks (removedIndices g affected c) c.headers.zipIdx =
      c.headers.filter fun block => !removedBy g affected block := by
  have hfilter : c.headers.zipIdx.filter (fun e => e.2 ∉ removedIndices g affected c) =
      c.headers.zipIdx.filter ((fun block => !removedBy g affected block) ∘ (·.1)) := by
    refine filter_congr fun e he => ?_
    rw [Bool.eq_iff_iff, decide_eq_true_iff, mem_removedIndices_iff he]
    simp
  rw [keptBlocks, hfilter, ← filter_map, zipIdx_map_fst]

theorem removedIndices_eq_nil_iff :
    removedIndices g affected c = [] ↔ ∀ block ∈ c.headers, removedBy g affected block = false := by
  rw [removedIndices, map_eq_nil_iff, filter_eq_nil_iff]
  constructor
  · intro h block hblock
    rw [← zipIdx_map_fst 0 c.headers, mem_map] at hblock
    obtain ⟨e, he, rfl⟩ := hblock
    simpa using h e he
  · intro h e he
    simpa using h e.1 (fst_mem_of_mem_zipIdx he)

variable (affected) in
theorem removedBy_mergetag (hkey : block.key = bytes "mergetag") {object : Oid}
    (hobject : parseMergetagBlock g.oidError block.raw = .ok object) :
    removedBy g affected block = affected.contains object := by
  rw [removedBy, hkey, hobject]
  rfl

theorem removableIndices_eq_ok_iff {node : CommitNode} {es : List (RawHeaderBlock × Nat)}
    {indices : List Nat} :
    removableIndices g node affected es = .ok indices ↔ (∀ e ∈ es, e.1.key = bytes "mergetag" →
        ∃ object ∈ node.parents, parseMergetagBlock g.oidError e.1.raw = .ok object) ∧
      indices = (es.filter fun e => removedBy g affected e.1).map (·.2) := by
  induction es generalizing indices with
  | nil =>
    constructor
    · rintro ⟨⟩
      exact ⟨nofun, rfl⟩
    · rintro ⟨_, rfl⟩
      rfl
  | cons e rest ih =>
    obtain ⟨block, i⟩ := e
    rw [removableIndices, forall_mem_cons, filter_cons]
    by_cases hsig : block.key = bytes "gpgsig" ∨ block.key = bytes "gpgsig-sha256"
    · have hremoved : removedBy g affected block = true := by
        rcases hsig with h | h <;> simp [removedBy, h]
      have hnot : block.key ≠ bytes "mergetag" := by
        rcases hsig with h | h <;> rw [h] <;> decide
      rw [if_pos hsig, bind_eq_ok_iff, if_pos hremoved]
      constructor
      · rintro ⟨indices', hrest, heq⟩
        obtain ⟨htags, rfl⟩ := ih.mp hrest
        cases heq
        exact ⟨⟨fun hkey => absurd hkey hnot, htags⟩, rfl⟩
      · rintro ⟨⟨_, htags⟩, rfl⟩
        exact ⟨_, ih.mpr ⟨htags, rfl⟩, rfl⟩
    · rw [if_neg hsig]
      rw [not_or] at hsig
      by_cases hkey : block.key = bytes "mergetag"
      · rw [if_pos hkey]
        simp only [bind_eq_ok_iff, require_eq_ok_iff]
        constructor
        · rintro ⟨object, hobject, _, hparent, indices', hrest, heq⟩
          obtain ⟨htags, rfl⟩ := ih.mp hrest
          refine ⟨⟨fun _ => ⟨object, hparent, hobject⟩, htags⟩, ?_⟩
          have hremoved := removedBy_mergetag affected hkey hobject
          cases heq
          by_cases hmem : object ∈ affected <;> simp [hremoved, hmem]
        · rintro ⟨⟨hobject, htags⟩, rfl⟩
          obtain ⟨object, hparent, hobject⟩ := hobject hkey
          refine ⟨object, hobject, (), hparent, _, ih.mpr ⟨htags, rfl⟩, ?_⟩
          have hremoved := removedBy_mergetag affected hkey hobject
          by_cases hmem : object ∈ affected <;> simp [hremoved, hmem]
      · have hkept : removedBy g affected block = false := by
          simp [removedBy, hsig.1, hsig.2, hkey]
        rw [if_neg hkey, ih, hkept]
        simp [hkey]

/-- The list of removals, if every tag of a rewritten commit names a parent. -/
theorem signatureRemovals_spec {removals removals' : AssocMap Oid (List Nat)}
    (h : signatureRemovals g affected nodes removals = .ok removals')
    (hnodup : (nodes.map (·.oid)).Nodup) (hnew : ∀ node ∈ nodes, removals.get? node.oid = none) :
    (∀ node ∈ nodes, node.oid ∈ affected → ∃ c, parseRawCommit g.oidError node.raw = .ok c ∧
      (node.parents = c.parents → TagsNameParents g c) ∧
      removals'.get? node.oid =
        if removedIndices g affected c = [] then none else some (removedIndices g affected c)) ∧
    ∀ x, (∀ node ∈ nodes, node.oid ∈ affected → node.oid ≠ x) →
      removals'.get? x = removals.get? x := by
  induction nodes generalizing removals with
  | nil =>
    cases h
    exact ⟨nofun, fun _ _ => rfl⟩
  | cons node rest ih =>
    rw [map_cons, nodup_cons] at hnodup
    rw [forall_mem_cons] at hnew
    have hother : ∀ n ∈ rest, n.oid ≠ node.oid :=
      fun n hn heq => hnodup.1 (heq ▸ mem_map_of_mem hn)
    rw [signatureRemovals] at h
    by_cases hmem : node.oid ∈ affected
    · rw [if_pos hmem] at h
      simp only [bind_eq_ok_iff] at h
      obtain ⟨c, hparse, indices, hindices, hrest⟩ := h
      obtain ⟨htags, rfl⟩ := removableIndices_eq_ok_iff.mp hindices
      change signatureRemovals g affected rest (if removedIndices g affected c = [] then removals
        else removals.insert node.oid (removedIndices g affected c)) = _ at hrest
      have hnext : ∀ x, x ≠ node.oid → (if removedIndices g affected c = [] then removals
          else removals.insert node.oid (removedIndices g affected c)).get? x =
          removals.get? x := by
        intro x hx
        split
        · rfl
        · exact get?_insert_of_ne _ _ hx
      obtain ⟨hall, hsame⟩ := ih hrest hnodup.2
        fun n hn => (hnext n.oid (hother n hn)).trans (hnew.2 n hn)
      refine ⟨forall_mem_cons.mpr ⟨fun _ => ⟨c, hparse, ?_, ?_⟩, hall⟩, ?_⟩
      · intro hparents block hblock hkey
        rw [← zipIdx_map_fst 0 c.headers, mem_map] at hblock
        obtain ⟨e, he, rfl⟩ := hblock
        exact hparents ▸ htags e he hkey
      · rw [hsame node.oid fun n hn _ => hother n hn]
        split
        · exact hnew.1
        · exact get?_insert_self _ _ _
      · intro x hx
        rw [forall_mem_cons] at hx
        rw [hsame x hx.2, hnext x (Ne.symm (hx.1 hmem))]
    · rw [if_neg hmem] at h
      obtain ⟨hall, hsame⟩ := ih h hnodup.2 hnew.2
      refine ⟨forall_mem_cons.mpr ⟨fun h => absurd h hmem, hall⟩, fun x hx => ?_⟩
      exact hsame x (forall_mem_cons.mp hx).2

theorem exists_signatureRemovals
    (h : ∀ node ∈ nodes, node.oid ∈ affected → ∃ c, parseRawCommit g.oidError node.raw = .ok c ∧
      node.parents = c.parents ∧ TagsNameParents g c)
    (removals : AssocMap Oid (List Nat)) :
    ∃ removals', signatureRemovals g affected nodes removals = .ok removals' := by
  induction nodes generalizing removals with
  | nil => exact ⟨removals, rfl⟩
  | cons node rest ih =>
    rw [forall_mem_cons] at h
    rw [signatureRemovals]
    split_ifs with hmem
    · obtain ⟨c, hparse, hparents, htags⟩ := h.1 hmem
      have hindices : removableIndices g node affected c.headers.zipIdx =
          .ok (removedIndices g affected c) := by
        refine removableIndices_eq_ok_iff.mpr ⟨fun e he hkey => ?_, rfl⟩
        rw [hparents]
        exact htags e.1 (fst_mem_of_mem_zipIdx he) hkey
      obtain ⟨removals', hrest⟩ := ih h.2 (if removedIndices g affected c = [] then removals
        else removals.insert node.oid (removedIndices g affected c))
      refine ⟨removals', ?_⟩
      simp only [bind_eq_ok_iff]
      exact ⟨c, hparse, _, hindices, hrest⟩
    · exact ih h.2 removals

/-! ## Messages -/

/-- The message is text, and so says the header. -/
def RawCommit.Utf8Message (c : RawCommit) : Prop :=
  (∀ block ∈ c.headers, block.key = bytes "encoding" → block.isUtf8Encoding = true) ∧
    Utf8.Valid c.message

theorem validateUtf8Message_ok_iff :
    (∃ text, validateUtf8Message c = .ok text) ↔ c.Utf8Message := by
  simp only [validateUtf8Message, bind_eq_ok_iff, checkAll_eq_ok_iff, require_eq_ok_iff,
    expect_eq_ok_iff]
  constructor
  · rintro ⟨text, _, hencoding, htext⟩
    exact ⟨hencoding, text, Utf8.decode_eq_some_iff.mp htext⟩
  · rintro ⟨hencoding, text, htext⟩
    exact ⟨text, (), hencoding, Utf8.decode_eq_some_iff.mpr htext⟩

/-! ## What a rewrite invalidates -/

section

variable (g : Git2) (odb : Odb) (tip : Oid)

/-- A signature, or the tag of a commit that is rewritten because the anchor is. -/
def Invalidated (anchor : Oid) (block : RawHeaderBlock) : Prop :=
  block.key = bytes "gpgsig" ∨ block.key = bytes "gpgsig-sha256" ∨
    (block.key = bytes "mergetag" ∧ ∃ object,
      parseMergetagBlock g.oidError block.raw = .ok object ∧ odb.Reaches g tip object ∧
        odb.Reaches g object anchor)

open Classical in
noncomputable def survivors (anchor : Oid) (c : RawCommit) : List RawHeaderBlock :=
  c.headers.filter fun block => ¬ Invalidated g odb tip anchor block

end

variable {odb : Odb} {tip : Oid}
  {anchor x : Oid} {removable : AssocMap Oid (List Nat)} {nodes : List CommitNode}
  {c : RawCommit} {written : List GitObject} {affected : List Oid} {r : Rewriting}

section

variable {affected : List Oid}
  (h : ∀ x, x ∈ affected ↔ odb.Reaches g tip x ∧ odb.Reaches g x anchor)
include h

theorem removedBy_iff_invalidated :
    removedBy g affected block = true ↔ Invalidated g odb tip anchor block := by
  rw [removedBy, Bool.or_eq_true, Bool.or_eq_true, Bool.and_eq_true,
    decide_eq_true_iff, decide_eq_true_iff, decide_eq_true_iff, or_assoc]
  refine or_congr Iff.rfl (or_congr Iff.rfl (and_congr Iff.rfl ?_))
  split
  next object hobject =>
    rw [contains_iff_mem, h object]
    constructor
    · exact fun hreach => ⟨object, hobject, hreach⟩
    · rintro ⟨object', hobject', hreach⟩
      cases hobject.symm.trans hobject'
      exact hreach
  next hobject =>
    refine iff_of_false nofun ?_
    rintro ⟨object, hobject', _⟩
    cases hobject.symm.trans hobject'

theorem survivors_eq :
    c.headers.filter (fun block => !removedBy g affected block) = survivors g odb tip anchor c := by
  apply filter_congr
  intro block _
  rw [← removedBy_iff_invalidated h]
  simp

end

variable (g odb tip) in
/-- The list of removals belongs to the commits rewritten with the anchor. -/
structure Removals (anchor : Oid) (affected : List Oid) (removable : AssocMap Oid (List Nat)) :
    Prop where
  closure : ∀ x, x ∈ affected ↔ odb.Reaches g tip x ∧ odb.Reaches g x anchor
  tags : ∀ x c, x ∈ affected → odb.commit? g x = some c → TagsNameParents g c
  indices : ∀ x c, x ∈ affected → odb.commit? g x = some c →
    (removable.get? x).getD [] = removedIndices g affected c
  required : requiredRemovals removable = true ↔ ∃ x ∈ affected, ∃ c, odb.commit? g x = some c ∧
    ∃ block ∈ c.headers, Invalidated g odb tip anchor block

/-- Consent is needed exactly if a block of one of the commits is invalidated. -/
theorem Removals.consented_iff {consent : Prop} (h : Removals g odb tip anchor affected removable) :
    (requiredRemovals removable = true → consent) ↔
      ∀ x c, odb.Reaches g tip x → odb.Reaches g x anchor → odb.commit? g x = some c →
        ∀ block ∈ c.headers, Invalidated g odb tip anchor block → consent := by
  rw [h.required]
  constructor
  · intro hconsent x c hx hanchor hc block hblock hinvalid
    exact hconsent ⟨x, (h.closure x).mpr ⟨hx, hanchor⟩, c, hc, block, hblock, hinvalid⟩
  · rintro hconsent ⟨x, hx, c, hc, block, hblock, hinvalid⟩
    obtain ⟨htip, hanchor⟩ := (h.closure x).mp hx
    exact hconsent x c htip hanchor hc block hblock hinvalid

theorem requiredRemovals_iff :
    requiredRemovals removable = true ↔ ∃ x indices, removable.get? x = some indices := by
  rw [requiredRemovals, decide_eq_true_iff, ne_eq, size_eq_zero_iff, eq_empty_iff, not_forall]
  refine exists_congr fun x => ?_
  rw [Bool.not_eq_false, AssocMap.contains_iff]

theorem Collected.removals (h : Collected g odb tip nodes)
    (hremovals : signatureRemovals g (affectedClosure nodes anchor) nodes .empty = .ok removable) :
    Removals g odb tip anchor (affectedClosure nodes anchor) removable := by
  have haffected : ∀ x, x ∈ affectedClosure nodes anchor ↔
      odb.Reaches g tip x ∧ odb.Reaches g x anchor := fun x => h.mem_affectedClosure
  obtain ⟨hspec, hother⟩ := signatureRemovals_spec hremovals h.sorted.nodup fun _ _ => rfl
  have hat : ∀ x c, x ∈ affectedClosure nodes anchor → odb.commit? g x = some c →
      TagsNameParents g c ∧ removable.get? x =
        if removedIndices g (affectedClosure nodes anchor) c = [] then none
        else some (removedIndices g (affectedClosure nodes anchor) c) := by
    intro x c hx hc
    obtain ⟨node, hnode, rfl⟩ := h.exists_node ((haffected x).mp hx).1
    obtain ⟨c', hparse, htags, hget⟩ := hspec node hnode hx
    obtain ⟨c'', hc'', hparse', _, hparents⟩ := (h.loaded node hnode).commit?
    rw [hc] at hc''
    cases hc''
    cases hparse.symm.trans hparse'
    exact ⟨htags hparents, hget⟩
  refine ⟨haffected, fun x c hx hc => (hat x c hx hc).1, fun x c hx hc => ?_, ?_⟩
  · rw [(hat x c hx hc).2]
    split_ifs with hnil
    · simp [hnil]
    · rfl
  · rw [requiredRemovals_iff]
    constructor
    · rintro ⟨x, indices, hget⟩
      have hx : x ∈ affectedClosure nodes anchor := by
        by_contra hx
        rw [hother x fun node _ hmem heq => hx (heq ▸ hmem)] at hget
        cases hget
      obtain ⟨c, hc⟩ := h.readable.parses x ((haffected x).mp hx).1
      refine ⟨x, hx, c, hc, ?_⟩
      rw [(hat x c hx hc).2] at hget
      split at hget
      · cases hget
      rename_i hne
      rw [removedIndices_eq_nil_iff] at hne
      simp only [not_forall] at hne
      obtain ⟨block, hblock, hremoved⟩ := hne
      rw [Bool.not_eq_false] at hremoved
      exact ⟨block, hblock, (removedBy_iff_invalidated haffected).mp hremoved⟩
    · rintro ⟨x, hx, c, hc, block, hblock, hinvalid⟩
      refine ⟨x, removedIndices g (affectedClosure nodes anchor) c, ?_⟩
      rw [(hat x c hx hc).2, if_neg]
      intro hnil
      have hkept := removedIndices_eq_nil_iff.mp hnil block hblock
      rw [(removedBy_iff_invalidated haffected).mpr hinvalid] at hkept
      cases hkept

/-- Removals can be listed if the tags name parents. -/
theorem Collected.exists_removals (h : Collected g odb tip nodes)
    (htags : ∀ x c, odb.Reaches g tip x → odb.Reaches g x anchor →
      odb.commit? g x = some c → TagsNameParents g c) :
    ∃ removable, signatureRemovals g (affectedClosure nodes anchor) nodes .empty =
      .ok removable := by
  refine exists_signatureRemovals (fun node hnode hmem => ?_) .empty
  obtain ⟨c, hc, hparse, _, hparents⟩ := (h.loaded node hnode).commit?
  obtain ⟨htip, hanchor⟩ := h.mem_affectedClosure.mp hmem
  exact ⟨c, hparse, hparents, htags _ c htip hanchor hc⟩

/-- The replacement of one of the commits. -/
theorem Removals.rewriteBytes
    (h : Removals g odb tip anchor affected removable) {raw : Bytes} (hx : x ∈ affected)
    (hc : odb.commit? g x = some c) (hparse : parseRawCommit g.oidError raw = .ok c)
    {mapped : List Oid} (hmapped : mapped.length = c.parents.length) (newMessage : Option Bytes)
    (newTree : Option Oid) {newCommitter : Option Bytes}
    (hcommitter : ∀ line ∈ newCommitter, RawHeaderBlock.WellFormed ⟨bytes "committer", line⟩) :
    ∃ out c', Git.rewriteBytes g.oidError raw mapped newMessage ((removable.get? x).getD [])
        newTree newCommitter = .ok out ∧ parseRawCommit g.oidError out = .ok c' ∧
      Replacement (survivors g odb tip anchor c) newTree newCommitter c.treeOid mapped
        (newMessage.getD c.message) c' := by
  rw [h.indices x c hx hc, ← survivors_eq h.closure, ← keptBlocks_removedIndices]
  exact rewriteBytes_spec hparse hmapped
    (fun _ he hindex => removedBy_plain ((mem_removedIndices_iff he).mp hindex)) hcommitter

/-! ## A loop of writes -/

/-- The replacement of every commit, and itself for the others. -/
def Rewriting.image (r : Rewriting) (x : Oid) : Oid := (r.changed.get? x).getD x

theorem Rewriting.image_eq {x y : Oid} (h : r.changed.get? x = some y) :
    r.image x = y := by
  rw [image, h, Option.getD_some]

variable (g) in
/-- What a loop of writes over these commits turns one state into. -/
structure Rewrote (payload : AssocMap Oid Oid → CommitNode → Except RewriteFailure Bytes)
    (nodes : List CommitNode) (r r' : Rewriting) : Prop where
  objects : ∃ written, r'.odb.objects = r.odb.objects ++ written
  other : ∀ x, x ∉ nodes.map (·.oid) → r'.changed.get? x = r.changed.get? x
  written : ∀ node ∈ nodes, ∃ data, payload r'.changed node = .ok data ∧
    r'.changed.get? node.oid = some (g.hash ⟨.commit, data⟩) ∧
    ⟨.commit, data⟩ ∈ r'.odb.objects.drop r.odb.objects.length
  size : (∀ node ∈ nodes, r.changed.get? node.oid = none) →
    r'.changed.size = r.changed.size + nodes.length

/-- **The loop of writes reaches a fixed point.** If a replacement depends only on those of
the parents, and can be written once they are there, then every commit gets the
replacement that the final map gives. -/
theorem rewriteLoop_spec {payload : AssocMap Oid Oid → CommitNode → Except RewriteFailure Bytes}
    (hnodup : (nodes.map (·.oid)).Nodup) (hlocal : ∀ node ∈ nodes, ∀ m m' : AssocMap Oid Oid,
      (∀ p ∈ node.parents, m.get? p = m'.get? p) → payload m node = payload m' node)
    (hbefore : ∀ front node back, nodes = front ++ node :: back →
      ∀ p ∈ node.parents, p ∉ (node :: back).map (·.oid))
    (hok : ∀ front node back, nodes = front ++ node :: back → ∀ m : AssocMap Oid Oid,
      (∀ x, r.changed.contains x = true ∨ x ∈ front.map (·.oid) → m.contains x = true) →
      ∃ data, payload m node = .ok data) :
    ∃ r', rewriteLoop g payload nodes r = (r', none) ∧ Rewrote g payload nodes r r' := by
  induction nodes generalizing r with
  | nil => exact ⟨r, rfl, ⟨[], (append_nil _).symm⟩, fun _ _ => rfl, nofun, fun _ => rfl⟩
  | cons node rest ih =>
    obtain ⟨data, hdata⟩ := hok [] node rest rfl r.changed
      fun x hx => hx.resolve_right not_mem_nil
    rw [map_cons, nodup_cons] at hnodup
    rw [forall_mem_cons] at hlocal
    have hother : ∀ n ∈ rest, n.oid ≠ node.oid :=
      fun n hn heq => hnodup.1 (heq ▸ mem_map_of_mem hn)
    -- once the first replacement is there, the others can follow
    have hok' : ∀ front n back, rest = front ++ n :: back → ∀ m : AssocMap Oid Oid,
        (∀ x, (r.changed.insert node.oid (g.hash ⟨.commit, data⟩)).contains x = true ∨
          x ∈ front.map (·.oid) → m.contains x = true) → ∃ data, payload m n = .ok data := by
      intro front n back hsplit m hm
      refine hok (node :: front) n back (by rw [hsplit]; rfl) m fun x hx => hm x ?_
      rw [AssocMap.contains_insert]
      rcases hx with hx | hx
      · exact .inl (by simp [hx])
      · rcases mem_cons.mp hx with rfl | hx
        · exact .inl (by simp)
        · exact .inr hx
    obtain ⟨r', hloop, hrewrote⟩ := @ih ⟨⟨r.odb.objects ++ [⟨.commit, data⟩]⟩,
        r.changed.insert node.oid (g.hash ⟨.commit, data⟩)⟩ hnodup.2 hlocal.2
      (fun front n back hsplit => hbefore (node :: front) n back (by rw [hsplit]; rfl)) hok'
    have hnode : r'.changed.get? node.oid = some (g.hash ⟨.commit, data⟩) := by
      rw [hrewrote.other node.oid hnodup.1, get?_insert_self]
    have hparents : ∀ p ∈ node.parents, r'.changed.get? p = r.changed.get? p := by
      intro p hp
      have hlater := hbefore [] node rest rfl p hp
      rw [map_cons, mem_cons, not_or] at hlater
      rw [hrewrote.other p hlater.2, get?_insert_of_ne _ _ hlater.1]
    obtain ⟨written, hwritten⟩ := hrewrote.objects
    refine ⟨r', ?_, ⟨⟨.commit, data⟩ :: written, ?_⟩, ?_, ?_, ?_⟩
    · rw [rewriteLoop, hdata]
      exact hloop
    · rw [hwritten, append_assoc]
      rfl
    · intro x hx
      rw [map_cons, mem_cons, not_or] at hx
      rw [hrewrote.other x hx.2, get?_insert_of_ne _ _ hx.1]
    · rw [forall_mem_cons]
      refine ⟨⟨data, (hlocal.1 _ _ hparents).trans hdata, hnode, ?_⟩, fun n hn => ?_⟩
      · simp [hwritten]
      · obtain ⟨data', hdata', hchanged, hmem⟩ := hrewrote.written n hn
        refine ⟨data', hdata', hchanged, drop_subset_drop_left _ ?_ hmem⟩
        simp
    · intro hnew
      rw [forall_mem_cons] at hnew
      have hrest : ∀ n ∈ rest,
          (r.changed.insert node.oid (g.hash ⟨.commit, data⟩)).get? n.oid = none :=
        fun n hn => (get?_insert_of_ne _ _ (hother n hn)).trans (hnew.2 n hn)
      rw [hrewrote.size hrest, size_insert_of_get?_none hnew.1, length_cons]
      omega

/-! ## Reading what was written -/

variable {odb' : Odb} {o : GitObject}

theorem read_of_append (h : odb'.objects = odb.objects ++ written)
    (hread : odb.read g x = some o) : odb'.read g x = some o := by
  rw [Odb.read, h, find?_append]
  rw [Odb.read] at hread
  rw [hread]
  rfl

theorem commit?_of_append (h : odb'.objects = odb.objects ++ written)
    (hc : odb.commit? g x = some c) : odb'.commit? g x = some c := by
  obtain ⟨data, hread, hparse⟩ := Odb.commit?_eq_some_iff.mp hc
  exact Odb.commit?_eq_some_iff.mpr ⟨data, read_of_append h hread, hparse⟩

/-- Without collisions an object is found under its id. -/
theorem read_hash (hfree : odb.CollisionFree g) (ho : o ∈ odb.objects) :
    odb.read g (g.hash o) = some o := by
  cases hfind : odb.read g (g.hash o) with
  | none =>
    rw [Odb.read, find?_eq_none] at hfind
    exact absurd (decide_eq_true rfl) (hfind o ho)
  | some o' =>
    have hhash := find?_some hfind
    rw [hfree o' (mem_of_find?_eq_some hfind) o ho (by simpa using hhash)]

theorem commit?_hash (hfree : odb.CollisionFree g) {data : Bytes}
    (hmem : ⟨.commit, data⟩ ∈ odb.objects) (hparse : parseRawCommit g.oidError data = .ok c) :
    odb.commit? g (g.hash ⟨.commit, data⟩) = some c :=
  Odb.commit?_eq_some_iff.mpr ⟨data, read_hash hfree hmem, hparse⟩

theorem Rewrote.findCommit {payload : AssocMap Oid Oid → CommitNode → Except RewriteFailure Bytes}
    {r' : Rewriting} (h : Rewrote g payload nodes r r') (hfree : r'.odb.CollisionFree g)
    (hreads : r.odb.Rereads g r'.odb) (hnode : node ∈ nodes)
    (hc : r'.odb.commit? g (r'.image node.oid) = some c) :
    r'.odb.findCommit g (r'.image node.oid) = .ok (c.treeOid, c.parents) := by
  obtain ⟨data, _, hchanged, hobject⟩ := h.written node hnode
  rw [Rewriting.image_eq hchanged] at hc ⊢
  have hread := read_hash hfree (mem_of_mem_drop hobject)
  obtain ⟨data', hread', hparse⟩ := Odb.commit?_eq_some_iff.mp hc
  cases hread.symm.trans hread'
  rw [Odb.findCommit_of_read hread]
  exact hreads data c hobject hparse

end

end DamHopper.Git
