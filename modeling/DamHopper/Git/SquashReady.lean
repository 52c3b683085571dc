import DamHopper.Lib.Lineage
import DamHopper.Git.Replay
import DamHopper.Git.Squash

/-!
# SquashReady — what a squash asks for

`Squashable` is what a squash asks of the history and of the user. The checks before the
first write succeed exactly on it (`prepareSquash_ready`, `Squashable.exists_prepareSquash`).
`Squashed` is what it turns the history into, `f` mapping commits to what stands in their
place: the run to one commit with the parents and the author of the oldest, the tree of the
newest and the given message, every later commit to one with the same tree, author,
committer and message, and everything else to itself.

The line written for the configured user is an identity in order by the check that a later
squash makes (`Signature.Valid.validIdentityHeader`).
-/

namespace DamHopper.Git

open List

/-! ## The conditions and the result -/

def RawCommit.blocksOf (c : RawCommit) (key : String) : List RawHeaderBlock :=
  c.headers.filter (·.key = bytes key)

/-- One author and one committer, both in order. -/
def RawCommit.ValidTemplate (c : RawCommit) : Prop :=
  validTemplateKey c (bytes "author") = true ∧ validTemplateKey c (bytes "committer") = true

section

variable (g : Git2) (odb : Odb) (tip : Oid) (s : Selection)

/-- What a squash asks of the history and of the user. -/
structure Squashable (identity : Except String Signature) (consent : Bool) : Prop where
  readable : odb.Readable g tip
  reachable : ∀ x ∈ s.oids, odb.Reaches g tip x
  consecutive : s.oids.IsChain fun a b => ∃ c, odb.commit? g b = some c ∧ c.parents = [a]
  linear : ∀ x c, odb.Reaches g tip x → odb.Reaches g x s.oldest → odb.commit? g x = some c →
    c.parents.length ≤ 1
  utf8 : ∀ x ∈ s.oids, ∀ c, odb.commit? g x = some c → c.Utf8Message
  template : ∀ c, odb.commit? g s.oldest = some c → c.ValidTemplate
  tags : ∀ x c, odb.Reaches g tip x → odb.Reaches g x s.oldest → odb.commit? g x = some c →
    TagsNameParents g c
  consented : ∀ x c, odb.Reaches g tip x → odb.Reaches g x s.oldest → odb.commit? g x = some c →
    ∀ block ∈ c.headers, Invalidated g odb tip s.oldest block → consent = true
  identified : ∃ signature, identity = .ok signature ∧ signature.Valid

/-- What a squash turns the history into, `f` mapping commits to what replaces them. -/
structure Squashed (odb' : Odb) (message committer : Bytes) (squash : Oid) (f : Oid → Oid) :
    Prop where
  kept : ∀ x o, odb.read g x = some o → odb'.read g x = some o
  selected : ∀ x ∈ s.oids, f x = squash
  squashed : ∃ oldest newest c, odb.commit? g s.oldest = some oldest ∧
    odb.commit? g s.newest = some newest ∧ odb'.commit? g squash = some c ∧
    Replacement (survivors g odb tip s.oldest oldest) (some newest.treeOid) (some committer)
      oldest.treeOid oldest.parents message c ∧
    c.blocksOf "author" = oldest.blocksOf "author"
  later : ∀ x c, odb.Reaches g tip x → Relation.TransGen (odb.Parent g) x s.newest →
    odb.commit? g x = some c → ∃ p c', c.parents = [p] ∧ odb'.commit? g (f x) = some c' ∧
      Replacement (survivors g odb tip s.oldest c) none none c.treeOid [f p] c.message c' ∧
      c'.blocksOf "author" = c.blocksOf "author" ∧
      c'.blocksOf "committer" = c.blocksOf "committer"
  untouched : ∀ x, ¬ (odb.Reaches g tip x ∧ odb.Reaches g x s.oldest) → f x = x
  history : ∀ y, odb'.Reaches g (f tip) y ↔ ∃ x, odb.Reaches g tip x ∧ f x = y

end

section

variable {g : Git2} {odb : Odb} {tip : Oid} {s : Selection} {message : Bytes}
  {identity : Except String Signature} {consent : Bool}

theorem Selection.oldest_mem (s : Selection) : s.oldest ∈ s.oids := mem_cons_self

theorem Selection.newest_mem (s : Selection) : s.newest ∈ s.oids := getLast_mem _

/-! ## Blocks that are kept -/

variable {anchor tree : Oid} {c c' : RawCommit} {newTree : Option Oid}
  {newCommitter : Option Bytes} {parents : List Oid} {key : Bytes}

theorem survivors_filter_key
    (hkey : key ∉ [bytes "gpgsig", bytes "gpgsig-sha256", bytes "mergetag"]) :
    (survivors g odb tip anchor c).filter (·.key = key) = c.headers.filter (·.key = key) := by
  simp only [mem_cons, not_mem_nil, or_false, not_or] at hkey
  unfold survivors
  rw [filter_filter]
  refine filter_congr fun block _ => ?_
  by_cases hblock : block.key = key
  · have hvalid : ¬ Invalidated g odb tip anchor block := by
      rintro (h | h | ⟨h, _⟩)
      · exact hkey.1 (hblock ▸ h)
      · exact hkey.2.1 (hblock ▸ h)
      · exact hkey.2.2 (hblock ▸ h)
    simp [hvalid]
  · simp [hblock]

theorem Replacement.filter_key {kept : List RawHeaderBlock}
    (h : Replacement kept newTree newCommitter tree parents message c)
    (hkey : ∀ block : RawHeaderBlock, block.key = key →
      exchanged newTree newCommitter block = false) :
    c.headers.filter (·.key = key) = kept.filter (·.key = key) := by
  have hfilter : ∀ blocks : List RawHeaderBlock,
      (blocks.filter fun block => !exchanged newTree newCommitter block).filter (·.key = key) =
        blocks.filter (·.key = key) := by
    intro blocks
    rw [filter_filter]
    refine filter_congr fun block _ => ?_
    by_cases hblock : block.key = key
    · simp [hkey block hblock]
    · simp [hblock]
  rw [← hfilter c.headers, h.blocks, hfilter]

theorem Replacement.author
    (h : Replacement (survivors g odb tip anchor c) newTree newCommitter tree parents message c') :
    c'.blocksOf "author" = c.blocksOf "author" := by
  have hkey : bytes "author" ≠ bytes "parent" ∧ bytes "author" ≠ bytes "tree" ∧
      bytes "author" ≠ bytes "committer" := by decide
  unfold RawCommit.blocksOf
  rw [h.filter_key fun block hblock => by simp [exchanged, hblock, hkey],
    survivors_filter_key (by decide)]

theorem Replacement.sameCommitter
    (h : Replacement (survivors g odb tip anchor c) none none tree parents message c') :
    c'.blocksOf "committer" = c.blocksOf "committer" := by
  have hkey : bytes "committer" ≠ bytes "parent" := by decide
  unfold RawCommit.blocksOf
  rw [h.filter_key fun block hblock => by simp [exchanged, hblock, hkey],
    survivors_filter_key (by decide)]

/-! ## The line of the configured user -/

namespace Signature

def stamp (signature : Signature) : List Char :=
  ' ' :: (Text.printInt signature.seconds ++ ' ' :: zoneText signature.offsetMinutes)

def value (signature : Signature) : Bytes :=
  signature.name ++ (space :: less :: (signature.email ++ greater :: Utf8.encode signature.stamp))

theorem line_eq {signature : Signature} :
    signature.line = bytes "committer" ++ [space] ++ signature.value ++ [lf] := by
  have hkey : bytes "committer " = bytes "committer" ++ [space] := by decide
  have haddress : bytes " <" = [space, less] := by decide
  have hgreater : String.utf8EncodeChar '>' = [greater] := by decide
  have hend : String.utf8EncodeChar '\n' = [lf] := by decide
  simp only [line, value, stamp, hkey, haddress, Utf8.encode_append, Utf8.encode_cons,
    Utf8.encode_nil, hgreater, hend, append_assoc, cons_append, nil_append]

variable {c : Char} {signature : Signature}

theorem twoDigits_isDigit {n : Nat} (h : c ∈ twoDigits n) : c.isDigit = true := by
  rw [twoDigits, leftpad, mem_append] at h
  rcases h with h | h
  · simp [eq_of_mem_replicate h]
  · exact Text.isDigit_toDigits h

theorem mem_zoneText {offset : Int} (h : c ∈ zoneText offset) :
    c = '-' ∨ c = '+' ∨ c.isDigit = true := by
  rw [zoneText, mem_cons, mem_append] at h
  rcases h with h | h | h
  · split at h
    · exact .inl h
    · exact .inr (.inl h)
  · exact .inr (.inr (twoDigits_isDigit h))
  · exact .inr (.inr (twoDigits_isDigit h))

theorem mem_stamp (h : c ∈ signature.stamp) : c = ' ' ∨ c = '-' ∨ c = '+' ∨ c.isDigit = true := by
  rw [stamp, mem_cons, mem_append, mem_cons] at h
  rcases h with h | h | h | h
  · exact .inl h
  · rcases Text.mem_printInt h with h | h
    · exact .inr (.inl h)
    · exact .inr (.inr (.inr h))
  · exact .inl h
  · exact .inr (mem_zoneText h)

/-- None of the bytes that an identity must not hold occurs in the line but for the
brackets around the address. -/
theorem Valid.not_mem_value (h : signature.Valid) {b : UInt8} {d : Char}
    (hd : String.utf8EncodeChar d = [b]) (hb : b ∈ [0, lf, cr]) (hdigit : d.isDigit = false)
    (hother : d ∉ [' ', '-', '+']) : b ∉ signature.value := by
  have hforbidden : b ∈ [0, lf, cr, less, greater] := by
    simp only [mem_cons] at hb ⊢
    tauto
  have hbyte : Utf8.isContinuation b = false ∧ b ≠ space ∧ b ≠ less ∧ b ≠ greater := by
    simp only [mem_cons, not_mem_nil, or_false] at hb
    obtain rfl | rfl | rfl := hb <;> decide
  obtain ⟨hcontinuation, hbrackets⟩ := hbyte
  simp only [value, mem_append, mem_cons, not_or]
  refine ⟨fun hmem => ?_, hbrackets.1, hbrackets.2.1, fun hmem => ?_, hbrackets.2.2, fun hmem => ?_⟩
  · exact h.2.2.2 b (mem_append_left _ hmem) hforbidden
  · exact h.2.2.2 b (mem_append_right _ hmem) hforbidden
  · rcases mem_stamp (Utf8.mem_of_mem_encode hd hcontinuation hmem) with rfl | rfl | rfl | hc
    · exact hother (by decide)
    · exact hother (by decide)
    · exact hother (by decide)
    · simp [hdigit] at hc

/-- The line of a user in order is a header of its own. -/
theorem Valid.wellFormed (h : signature.Valid) :
    RawHeaderBlock.WellFormed ⟨bytes "committer", signature.line⟩ := by
  rw [line_eq]
  refine keyLine_wellFormed ⟨by decide, by decide, by decide, _, _, rfl, by decide⟩ ?_
  exact h.not_mem_value (show String.utf8EncodeChar '\n' = [lf] by decide) (by decide) (by decide)
    (by decide)

end Signature

/-! ## Before the first write -/

variable {nodes picked : List CommitNode} {node : CommitNode}

theorem selectedNode_eq_ok_iff (h : Collected g odb tip nodes) {oid : Oid} :
    selectedNode nodes oid = .ok node ↔ node ∈ nodes ∧ node.oid = oid := by
  rw [selectedNode, expect_eq_ok_iff]
  constructor
  · intro hfind
    exact ⟨mem_of_find?_eq_some hfind, by simpa using find?_some hfind⟩
  · rintro ⟨hnode, hoid⟩
    cases hfind : nodes.find? (·.oid = oid) with
    | none =>
      rw [find?_eq_none] at hfind
      exact absurd (decide_eq_true hoid) (hfind node hnode)
    | some node' =>
      have hoid' : node'.oid = oid := by simpa using find?_some hfind
      rw [inj_on_of_nodup_map h.sorted.nodup (mem_of_find?_eq_some hfind) hnode
        (hoid'.trans hoid.symm)]

theorem mapM_selectedNode_iff (h : Collected g odb tip nodes) {oids : List Oid} :
    oids.mapM (selectedNode nodes) = .ok picked ↔
      picked.map (·.oid) = oids ∧ ∀ node ∈ picked, node ∈ nodes := by
  rw [mapM_eq_ok_iff]
  induction oids generalizing picked with
  | nil =>
    rw [map_nil, nil_eq, map_eq_nil_iff, map_eq_nil_iff]
    exact ⟨fun hnil => ⟨hnil, hnil ▸ nofun⟩, And.left⟩
  | cons oid oids ih =>
    cases picked with
    | nil => exact iff_of_false nofun (nofun ∘ And.left)
    | cons node picked =>
      rw [map_cons, map_cons, map_cons, cons.injEq, cons.injEq,
        forall_mem_cons, selectedNode_eq_ok_iff h, ih]
      tauto

theorem isChain_iff_zip_tail {α : Type _} {R : α → α → Prop} {l : List α} :
    (∀ pair ∈ l.zip l.tail, R pair.1 pair.2) ↔ l.IsChain R := by
  induction l with
  | nil => exact iff_of_true nofun .nil
  | cons a l ih =>
    cases l with
    | nil => exact iff_of_true nofun (.singleton a)
    | cons b l =>
      rw [isChain_cons_cons, ← ih]
      exact forall_mem_cons

theorem checkAll_requireConsecutive_iff (h : Collected g odb tip nodes)
    (hpicked : ∀ node ∈ picked, node ∈ nodes) :
    checkAll requireConsecutive (picked.zip picked.tail) = .ok () ↔
      (picked.map (·.oid)).IsChain fun a b => ∃ c, odb.commit? g b = some c ∧ c.parents = [a] := by
  simp only [checkAll_eq_ok_iff, requireConsecutive, require_eq_ok_iff]
  rw [isChain_map, isChain_iff_zip_tail (R := fun a b : CommitNode => b.parents = [a.oid])]
  refine List.IsChain.iff_of_mem_imp fun a b _ hb => ?_
  obtain ⟨c, hc, _, _, hparents⟩ := (h.loaded b (hpicked b hb)).commit?
  constructor
  · exact fun heq => ⟨c, hc, hparents ▸ heq⟩
  · rintro ⟨c', hc', heq⟩
    cases hc.symm.trans hc'
    rw [hparents, heq]

theorem requireUtf8_ok_iff (h : odb.IsNode g node) : requireUtf8 g node = .ok () ↔
      ∀ c, odb.commit? g node.oid = some c → c.Utf8Message := by
  obtain ⟨c, hc, hparse, _, _⟩ := h.commit?
  simp only [requireUtf8, bind_eq_ok_iff]
  constructor
  · rintro ⟨c', hparse', text, htext, _⟩ c'' hc''
    rw [hc] at hc''
    cases hc''
    cases hparse.symm.trans hparse'
    exact validateUtf8Message_ok_iff.mp ⟨text, htext⟩
  · intro hutf8
    obtain ⟨text, htext⟩ := validateUtf8Message_ok_iff.mpr (hutf8 c hc)
    exact ⟨c, hparse, text, htext, trivial⟩

theorem validateTemplate_ok_iff : validateTemplate c = .ok () ↔ c.ValidTemplate := by
  simp only [validateTemplate, checkAll_eq_ok_iff, require_eq_ok_iff, forall_mem_cons]
  exact ⟨fun h => ⟨h.1, h.2.1⟩, fun h => ⟨h.1, h.2, forall_mem_nil _⟩⟩

theorem checkAll_requireLinear_iff (h : Collected g odb tip nodes) :
    checkAll requireLinear (nodes.filter (·.oid ∈ affectedClosure nodes anchor)) = .ok () ↔
      ∀ x c, odb.Reaches g tip x → odb.Reaches g x anchor → odb.commit? g x = some c →
        c.parents.length ≤ 1 := by
  simp only [checkAll_eq_ok_iff, requireLinear, require_eq_ok_iff, mem_filter,
    decide_eq_true_iff, h.mem_affectedClosure]
  constructor
  · intro hnodes x c hx hanchor hc
    obtain ⟨node, hnode, rfl⟩ := h.exists_node hx
    obtain ⟨c', hc', _, _, hparents⟩ := (h.loaded node hnode).commit?
    cases hc.symm.trans hc'
    exact hparents ▸ hnodes node ⟨hnode, hx, hanchor⟩
  · rintro hcommits node ⟨hnode, hx, hanchor⟩
    obtain ⟨c, hc, _, _, hparents⟩ := (h.loaded node hnode).commit?
    exact hparents ▸ hcommits _ c hx hanchor hc

theorem checkAll_requireUtf8_iff (h : Collected g odb tip nodes)
    (hpicked : ∀ node ∈ picked, node ∈ nodes) :
    checkAll (requireUtf8 g) picked = .ok () ↔
      ∀ x ∈ picked.map (·.oid), ∀ c, odb.commit? g x = some c → c.Utf8Message := by
  rw [checkAll_eq_ok_iff, forall_mem_map]
  exact forall₂_congr fun node hnode => requireUtf8_ok_iff (h.loaded node (hpicked node hnode))

theorem committerHeader_eq_ok_iff {signature : Signature} {line : Bytes} :
    committerHeader signature = .ok line ↔ signature.Valid ∧ signature.line = line := by
  simp only [committerHeader, check_bind_eq_ok_iff, require_eq_ok_iff, Except.ok.injEq]

variable (g odb tip s identity consent) in
/-- What is known when the first object is written. -/
structure SquashReady (plan : SquashPlan) : Prop where
  collected : Collected g odb tip plan.nodes
  squashable : Squashable g odb tip s identity consent
  oldest : plan.oldest ∈ plan.nodes ∧ plan.oldest.oid = s.oldest
  newest : plan.newest ∈ plan.nodes ∧ plan.newest.oid = s.newest
  removals : Removals g odb tip s.oldest plan.affected plan.removable
  committer : ∃ signature, identity = .ok signature ∧ signature.Valid ∧
    plan.committer = signature.line

theorem prepareSquash_ready {plan : SquashPlan}
    (h : prepareSquash g odb tip s identity consent = .ok plan) :
    SquashReady g odb tip s identity consent plan := by
  simp only [prepareSquash, bind_eq_ok_iff, require_eq_ok_iff, orFail_eq_ok_iff,
    committerHeader_eq_ok_iff] at h
  obtain ⟨nodes, hcollect, picked, hpicked, oldest, holdest, newest, hnewest, _, hlinear, _,
    hconsecutive, _, _, _, hutf8, c, hparse, _, htemplate, removable, hremovable, _, hconsent,
    signature, hsignature, line, ⟨hvalid, hline⟩, ⟨⟩⟩ := h
  have hcollected := collectParentFirst_collected hcollect
  obtain ⟨hoids, hmem⟩ := (mapM_selectedNode_iff hcollected).mp hpicked
  rw [selectedNode_eq_ok_iff hcollected] at holdest hnewest
  rw [holdest.2] at hremovable hlinear
  have hremovals := hcollected.removals hremovable
  rw [checkAll_requireLinear_iff hcollected] at hlinear
  rw [checkAll_requireConsecutive_iff hcollected hmem, hoids] at hconsecutive
  rw [checkAll_requireUtf8_iff hcollected hmem, hoids] at hutf8
  refine ⟨hcollected, ?_, holdest, hnewest, by rw [holdest.2]; exact hremovals,
    signature, hsignature, hvalid, hline.symm⟩
  refine ⟨hcollected.readable, ?_, hconsecutive, hlinear, hutf8, ?_, ?_,
    hremovals.consented_iff.mp hconsent, signature, hsignature, hvalid⟩
  · intro x hx
    rw [← hoids] at hx
    obtain ⟨node, hnode, rfl⟩ := mem_map.mp hx
    exact hcollected.reaches (hmem node hnode)
  · intro c' hc'
    obtain ⟨c'', hc'', hparse'', _⟩ := (hcollected.loaded oldest holdest.1).commit?
    rw [holdest.2, hc'] at hc''
    cases hc''
    rw [hparse] at hparse''
    cases hparse''
    exact validateTemplate_ok_iff.mp htemplate
  · intro x c hx hanchor hc
    exact hremovals.tags x c ((hremovals.closure x).mpr ⟨hx, hanchor⟩) hc

theorem Squashable.exists_prepareSquash (h : Squashable g odb tip s identity consent) :
    ∃ plan, prepareSquash g odb tip s identity consent = .ok plan := by
  obtain ⟨nodes, hcollect⟩ := collectParentFirst_ok_iff.mpr h.readable
  have hcollected := collectParentFirst_collected hcollect
  have hnode : ∀ x ∈ s.oids, ∃ node, selectedNode nodes x = .ok node := by
    intro x hx
    obtain ⟨node, hnode, hoid⟩ := hcollected.exists_node (h.reachable x hx)
    exact ⟨node, (selectedNode_eq_ok_iff hcollected).mpr ⟨hnode, hoid⟩⟩
  obtain ⟨picked, hpicked⟩ := exists_mapM_ok hnode
  obtain ⟨oldest, holdest⟩ := hnode s.oldest s.oldest_mem
  obtain ⟨newest, hnewest⟩ := hnode s.newest s.newest_mem
  obtain ⟨hoids, hmem⟩ := (mapM_selectedNode_iff hcollected).mp hpicked
  obtain ⟨holdestMem, holdestOid⟩ := (selectedNode_eq_ok_iff hcollected).mp holdest
  obtain ⟨c, hc, hparse, _⟩ := (hcollected.loaded oldest holdestMem).commit?
  obtain ⟨removable, hremovable⟩ := hcollected.exists_removals h.tags
  have hconsent := (hcollected.removals hremovable).consented_iff.mpr h.consented
  obtain ⟨signature, hsignature, hvalid⟩ := h.identified
  refine ⟨⟨nodes, affectedClosure nodes oldest.oid, oldest, newest, removable, signature.line⟩, ?_⟩
  simp only [prepareSquash, bind_eq_ok_iff, require_eq_ok_iff, orFail_eq_ok_iff,
    committerHeader_eq_ok_iff]
  refine ⟨nodes, hcollect, picked, hpicked, oldest, holdest, newest, hnewest, (), ?_, (), ?_, (),
    ?_, (), ?_, c, hparse, (), ?_, removable, ?_, (), hconsent, signature, hsignature,
    signature.line, ⟨hvalid, rfl⟩, rfl⟩
  · rw [holdestOid]
    exact (checkAll_requireLinear_iff hcollected).mpr h.linear
  · refine (checkAll_requireConsecutive_iff hcollected hmem).mpr ?_
    rw [hoids]
    exact h.consecutive
  · rw [holdestOid]
    exact hcollected.mem_affectedClosure.mpr ⟨.refl, h.reachable s.oldest s.oldest_mem⟩
  · refine (checkAll_requireUtf8_iff hcollected hmem).mpr ?_
    rw [hoids]
    exact h.utf8
  · exact validateTemplate_ok_iff.mpr (h.template c (holdestOid ▸ hc))
  · rw [holdestOid]
    exact hremovable

end

end DamHopper.Git
