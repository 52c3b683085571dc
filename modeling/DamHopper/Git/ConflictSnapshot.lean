import DamHopper.Git.RawCommit

/-!
# Conflict snapshots — what a snapshot version is the digest of

`compute_snapshot_version` feeds one byte sequence to the hash: six texts ended
by NUL each, the stages, the work-tree descriptor, the content hash and the
attributes. Neither the optional fields nor the stages' texts are separated, so
whether the sequence can be read back rests on its bytes: the stage number tells
whether the base is there, and the first NUL after a stage's path and oid tells,
by the bytes of a git mode, where the oid ends.
-/

namespace DamHopper.Git

open List

inductive StageKind where
  | text | binary | missing | invalidEncoding | unsupported | readError
  deriving DecidableEq

inductive WorktreeKind where
  | regular | symlink | directory | gitlink | unreadable | missing
  deriving DecidableEq

@[ext] structure StageDescriptor where
  stage : UInt16
  (path oid : Option Bytes)
  mode : UInt32
  byteSize : UInt64
  kind : StageKind

@[ext] structure ConflictStages where
  base : Option StageDescriptor
  (ours theirs : StageDescriptor)

@[ext] structure WorktreeDescriptor where
  present : Bool
  kind : WorktreeKind
  mode : UInt32
  byteLength : UInt64
  (hasConflictMarkers isDirtyVsStages : Bool)

structure EffectiveAttributes where
  (eol encoding : Option Bytes)
  (ident filterQualified : Bool)
  (text coreAutocrlf coreEol : Option Bytes)

@[ext] structure StateFingerprint where
  (targetRevision operation fullIndexFingerprint attributesFingerprint : Bytes)

structure SnapshotInput where
  (canonicalRoot canonicalWorktree : Bytes)
  state : StateFingerprint
  conflictPath : Bytes
  stages : ConflictStages
  worktree : WorktreeDescriptor
  effectiveAttrs : EffectiveAttributes
  worktreeContentHash : Option Bytes

/-! ## The bytes -/

def leBytes : Nat → Nat → Bytes
  | 0, _ => []
  | width + 1, n => UInt8.ofNat n :: leBytes width (n / 256)

namespace StageDescriptor

/-- Path and oid, with nothing in place of an absent one and nothing in between. -/
def label (st : StageDescriptor) : Bytes := st.path.getD [] ++ st.oid.getD []

def bytes (st : StageDescriptor) : Bytes :=
  leBytes 2 st.stage.toNat ++ st.label ++ leBytes 4 st.mode.toNat ++
    leBytes 8 st.byteSize.toNat ++ leBytes 1 st.kind.ctorIdx

end StageDescriptor

def ConflictStages.bytes (stages : ConflictStages) : Bytes :=
  (stages.base.map StageDescriptor.bytes).getD [] ++ stages.ours.bytes ++ stages.theirs.bytes

def WorktreeDescriptor.bytes (w : WorktreeDescriptor) : Bytes :=
  leBytes 1 w.present.toNat ++ leBytes 1 w.kind.ctorIdx ++ leBytes 4 w.mode.toNat ++
    leBytes 8 w.byteLength.toNat ++ leBytes 1 w.hasConflictMarkers.toNat ++
    leBytes 1 w.isDirtyVsStages.toNat

def EffectiveAttributes.bytes (attrs : EffectiveAttributes) : Bytes :=
  attrs.eol.getD [] ++ attrs.encoding.getD [] ++ leBytes 1 attrs.ident.toNat ++
    leBytes 1 attrs.filterQualified.toNat ++ attrs.text.getD [] ++
    attrs.coreAutocrlf.getD [] ++ attrs.coreEol.getD []

namespace SnapshotInput

/-- The texts that are ended by a NUL each. -/
def header (input : SnapshotInput) : List Bytes :=
  [input.canonicalRoot, input.canonicalWorktree, input.state.targetRevision,
    input.state.operation, input.state.fullIndexFingerprint, input.conflictPath]

/-- The content hash, if there is one, and the attributes fingerprint. -/
def digests (input : SnapshotInput) : Bytes :=
  input.worktreeContentHash.getD [] ++ input.state.attributesFingerprint

/-- All that `compute_snapshot_version` feeds to the hash. -/
def bytes (input : SnapshotInput) : Bytes :=
  Text.unlines 0 input.header ++ input.stages.bytes ++ input.worktree.bytes ++
    Text.unlines 0 [input.digests] ++ input.effectiveAttrs.bytes

end SnapshotInput

/-! ## Well-formed inputs -/

def gitModes : List UInt32 := [0o040000, 0o100644, 0o100664, 0o100755, 0o120000, 0o160000]

abbrev IsHex (count : Nat) (text : Bytes) : Prop :=
  text.length = count ∧ ∀ b ∈ text, b ∈ Git.bytes "0123456789abcdefABCDEF"

/-- The index has no entry for the stage, or one with a path, an oid and a mode. -/
structure StageDescriptor.Valid (number : UInt16) (st : StageDescriptor) : Prop where
  stage : st.stage = number
  entry : (st.path = none ∧ st.oid = none ∧ st.mode = 0) ∨
    ∃ path oid, st.path = some path ∧ st.oid = some oid ∧ path ≠ [] ∧ 0 ∉ path ∧
      IsHex 40 oid ∧ st.mode ∈ gitModes

structure SnapshotInput.Valid (input : SnapshotInput) : Prop where
  header : ∀ text ∈ input.header, 0 ∉ text
  base : ∀ st ∈ input.stages.base, st.Valid 1
  ours : input.stages.ours.Valid 2
  theirs : input.stages.theirs.Valid 3
  contentHash : ∀ hash ∈ input.worktreeContentHash, IsHex 64 hash
  attributes : IsHex 64 input.state.attributesFingerprint

/-! ## Reading the bytes back -/

theorem IsHex.notMem {count : Nat} {text : Bytes} {b : UInt8} (h : IsHex count text)
    (hb : b ∉ Git.bytes "0123456789abcdefABCDEF") : b ∉ text :=
  fun hmem => hb (h.2 b hmem)

theorem SnapshotInput.Valid.digests {input : SnapshotInput} (h : input.Valid) :
    ∀ text ∈ [input.digests], 0 ∉ text := by
  rw [forall_mem_singleton, SnapshotInput.digests, mem_append, not_or]
  refine ⟨?_, h.attributes.notMem (by decide)⟩
  cases hhash : input.worktreeContentHash with
  | none => exact not_mem_nil
  | some hash => exact (h.contentHash hash hhash).notMem (by decide)

/-- A digest is there or not as its text is. -/
theorem eq_of_getD {hash hash' : Option Bytes} (h : ∀ text ∈ hash, IsHex 64 text)
    (h' : ∀ text ∈ hash', IsHex 64 text) (heq : hash.getD [] = hash'.getD []) : hash = hash' := by
  cases hash <;> cases hash' <;> simp_all [IsHex]

section

variable {x y : Bytes}

theorem read_leBytes {width m n : Nat} (hm : m < 256 ^ width) (hn : n < 256 ^ width)
    (h : leBytes width m ++ x = leBytes width n ++ y) : m = n ∧ x = y := by
  induction width generalizing m n with
  | zero =>
    exact ⟨by omega, h⟩
  | succ width ih =>
    obtain ⟨hbyte, hrest⟩ := List.cons.inj h
    rw [Nat.pow_succ'] at hm hn
    obtain ⟨hdiv, hxy⟩ := ih (Nat.div_lt_of_lt_mul hm) (Nat.div_lt_of_lt_mul hn) hrest
    have hmod := congrArg UInt8.toNat hbyte
    rw [UInt8.toNat_ofNat', UInt8.toNat_ofNat'] at hmod
    exact ⟨by omega, hxy⟩

/-- A value is read back from the number it is written as. -/
theorem read_value {α : Type} {f : α → Nat} {width : Nat} {a b : α} (hinj : Function.Injective f)
    (hlt : ∀ a, f a < 256 ^ width) (h : leBytes width (f a) ++ x = leBytes width (f b) ++ y) :
    a = b ∧ x = y :=
  (read_leBytes (hlt a) (hlt b) h).imp_left (hinj ·)

theorem read_flag {a b : Bool} (h : leBytes 1 a.toNat ++ x = leBytes 1 b.toNat ++ y) :
    a = b ∧ x = y := by
  cases a <;> cases b <;> simp_all [leBytes]

theorem read_mode {m n : UInt32} : leBytes 4 m.toNat ++ x = leBytes 4 n.toNat ++ y →
    m = n ∧ x = y :=
  read_value (fun _ _ => UInt32.toNat_inj.mp) UInt32.toNat_lt

theorem read_size {m n : UInt64} : leBytes 8 m.toNat ++ x = leBytes 8 n.toNat ++ y →
    m = n ∧ x = y :=
  read_value (fun _ _ => UInt64.toNat_inj.mp) UInt64.toNat_lt

/-- Texts without NUL are read back up to the NULs that end them. -/
theorem read_texts {texts texts' : List Bytes} (hlen : texts.length = texts'.length)
    (htexts : ∀ text ∈ texts, 0 ∉ text) (htexts' : ∀ text ∈ texts', 0 ∉ text)
    (h : Text.unlines 0 texts ++ x = Text.unlines 0 texts' ++ y) : texts = texts' ∧ x = y := by
  have hlines := congrArg (Text.lines 0) h
  rw [Text.lines_unlines_append htexts, Text.lines_unlines_append htexts'] at hlines
  obtain ⟨rfl, -⟩ := append_inj hlines hlen
  exact ⟨rfl, append_cancel_left h⟩

/-! ## A stage -/

namespace StageDescriptor

variable {number : UInt16} {st st' : StageDescriptor}

/-- A label holds no NUL and does not end like the low half of a regular file's
mode, and a mode is two bytes before two NULs: a NUL first or 0x81 second. -/
structure Marked (st : StageDescriptor) (a b : UInt8) : Prop where
  mode : leBytes 4 st.mode.toNat = [a, b, 0, 0]
  halves : a = 0 ∨ b = 0x81
  second : st.label ≠ [] → b ≠ 0
  nulFree : 0 ∉ st.label
  ending : ∀ front, st.label ≠ front ++ [0x81]

theorem Valid.marked (h : st.Valid number) : ∃ a b, st.Marked a b := by
  rcases h.entry with ⟨hpath, hoid, hmode⟩ | ⟨path, oid, hpath, hoid, _, hnul, hhex, hmode⟩
  · have hlabel : st.label = [] := by rw [label, hpath, hoid]; rfl
    refine ⟨0, 0, by rw [hmode]; rfl, .inl rfl, (absurd hlabel ·), ?_, ?_⟩
    · rw [hlabel]
      exact not_mem_nil
    · rw [hlabel]
      exact fun front => (append_ne_nil_of_right_ne_nil front (by decide)).symm
  · have hlabel : st.label = path ++ oid := by rw [label, hpath, hoid]; rfl
    have hbytes : ∀ m ∈ gitModes, ∃ a b, leBytes 4 m.toNat = [a, b, 0, 0] ∧
        (a = 0 ∨ b = 0x81) ∧ b ≠ 0 := by
      simp only [gitModes, forall_mem_cons]
      refine ⟨⟨_, _, rfl, ?_⟩, ⟨_, _, rfl, ?_⟩, ⟨_, _, rfl, ?_⟩, ⟨_, _, rfl, ?_⟩,
        ⟨_, _, rfl, ?_⟩, ⟨_, _, rfl, ?_⟩, forall_mem_nil _⟩ <;> decide
    obtain ⟨a, b, hle, hhalves, hsecond⟩ := hbytes _ hmode
    refine ⟨a, b, hle, hhalves, fun _ => hsecond, ?_, fun front heq => ?_⟩
    · rw [hlabel, mem_append, not_or]
      exact ⟨hnul, hhex.notMem (by decide)⟩
    · rw [hlabel] at heq
      have hlast := congrArg getLast? heq
      have hne : oid ≠ [] := by
        rintro rfl
        cases hhex.1
      rw [getLast?_append_of_ne_nil _ hne, getLast?_concat] at hlast
      exact hhex.notMem (by decide) (mem_of_getLast? hlast)

/-- The label that reaches further would swallow bytes of the other one's mode. -/
theorem Marked.no_overlap {a b a' b' : UInt8} {mid : Bytes} (h : st.Marked a b)
    (h' : st'.Marked a' b') (hlabel : st'.label = st.label ++ mid)
    (hmid : [a, b, 0, 0] ++ x = mid ++ ([a', b', 0, 0] ++ y)) : mid = [] := by
  have hnul := h'.nulFree
  rw [hlabel, mem_append, not_or] at hnul
  rcases mid with _ | ⟨m, _ | ⟨m', _ | ⟨m'', mid⟩⟩⟩ <;>
    simp only [cons_append, nil_append, List.cons.injEq] at hmid
  · rfl
  · -- the other mode's second byte is a NUL
    have hne : st'.label ≠ [] := by
      rw [hlabel]
      exact append_ne_nil_of_right_ne_nil _ (by simp)
    exact absurd hmid.2.2.1.symm (h'.second hne)
  · obtain ⟨rfl, rfl, -⟩ := hmid
    rcases h.halves with rfl | rfl
    · exact absurd (mem_cons_self ..) hnul.2
    · refine absurd ?_ (h'.ending (st.label ++ [a]))
      simp [hlabel, append_assoc]
  · exact absurd (by simp [← hmid.2.2.1]) hnul.2

variable (h : st.Valid number) (h' : st'.Valid number)
include h h'

theorem read_label (heq : st.label ++ (leBytes 4 st.mode.toNat ++ x) =
    st'.label ++ (leBytes 4 st'.mode.toNat ++ y)) :
    st.label = st'.label ∧ st.mode = st'.mode ∧ x = y := by
  obtain ⟨a, b, hmarked⟩ := h.marked
  obtain ⟨a', b', hmarked'⟩ := h'.marked
  have hlabel : st.label = st'.label := by
    have heq' := heq
    rw [hmarked.mode, hmarked'.mode] at heq'
    rcases append_eq_append_iff.mp heq' with ⟨mid, hlabel, hmid⟩ | ⟨mid, hlabel, hmid⟩
    · rw [hlabel, hmarked.no_overlap hmarked' hlabel hmid, append_nil]
    · rw [hlabel, hmarked'.no_overlap hmarked hlabel hmid, append_nil]
  rw [hlabel] at heq
  exact ⟨hlabel, read_mode (append_cancel_left heq)⟩

theorem path_oid_of_label (heq : st.label = st'.label) :
    st.path = st'.path ∧ st.oid = st'.oid := by
  unfold label at heq
  rcases h.entry with ⟨hpath, hoid, -⟩ | ⟨path, oid, hpath, hoid, hne, -, hhex, -⟩ <;>
    rcases h'.entry with ⟨hpath', hoid', -⟩ | ⟨path', oid', hpath', hoid', hne', -, hhex', -⟩ <;>
    rw [hpath, hoid, hpath', hoid'] at heq ⊢
  · exact ⟨rfl, rfl⟩
  · exact absurd (append_eq_nil_iff.mp heq.symm).1 hne'
  · exact absurd (append_eq_nil_iff.mp heq).1 hne
  · obtain ⟨rfl, rfl⟩ := append_inj' heq (hhex.1.trans hhex'.1.symm)
    exact ⟨rfl, rfl⟩

theorem read_stage (heq : st.bytes ++ x = st'.bytes ++ y) : st = st' ∧ x = y := by
  simp only [bytes, append_assoc, h.stage, h'.stage, append_cancel_left_eq] at heq
  obtain ⟨hlabel, hmode, heq⟩ := read_label h h' heq
  obtain ⟨hsize, heq⟩ := read_size heq
  obtain ⟨hkind, hxy⟩ := read_value (Function.LeftInverse.injective StageKind.ofNat_ctorIdx)
    (fun kind => by cases kind <;> decide) heq
  obtain ⟨hpath, hoid⟩ := path_oid_of_label h h' hlabel
  exact ⟨StageDescriptor.ext (h.stage.trans h'.stage.symm) hpath hoid hmode hsize hkind, hxy⟩

end StageDescriptor

/-! ## The whole input -/

theorem read_base {base base' : Option StageDescriptor} {ours ours' : StageDescriptor}
    (hbase : ∀ st ∈ base, st.Valid 1) (hbase' : ∀ st ∈ base', st.Valid 1) (hours : ours.Valid 2)
    (hours' : ours'.Valid 2)
    (h : (base.map StageDescriptor.bytes).getD [] ++ (ours.bytes ++ x) =
      (base'.map StageDescriptor.bytes).getD [] ++ (ours'.bytes ++ y)) :
    base = base' ∧ ours.bytes ++ x = ours'.bytes ++ y := by
  have hdiffer : ∀ {st st' : StageDescriptor} {x y : Bytes}, st.Valid 1 → st'.Valid 2 →
      st.bytes ++ x ≠ st'.bytes ++ y := by
    intro st st' x y hst hst' heq
    rw [StageDescriptor.bytes, StageDescriptor.bytes, hst.stage, hst'.stage] at heq
    exact absurd (List.cons.inj heq).1 (by decide)
  cases base with
  | none =>
    cases base' with
    | none => exact ⟨rfl, h⟩
    | some st' => exact absurd h.symm (hdiffer (hbase' st' rfl) hours)
  | some st =>
    cases base' with
    | none => exact absurd h (hdiffer (hbase st rfl) hours')
    | some st' =>
      obtain ⟨hst, hrest⟩ := StageDescriptor.read_stage (hbase st rfl) (hbase' st' rfl) h
      exact ⟨congrArg some hst, hrest⟩

theorem read_worktree {w w' : WorktreeDescriptor} (h : w.bytes ++ x = w'.bytes ++ y) :
    w = w' ∧ x = y := by
  simp only [WorktreeDescriptor.bytes, append_assoc] at h
  obtain ⟨hpresent, h⟩ := read_flag h
  obtain ⟨hkind, h⟩ := read_value (Function.LeftInverse.injective WorktreeKind.ofNat_ctorIdx)
    (fun kind => by cases kind <;> decide) h
  obtain ⟨hmode, h⟩ := read_mode h
  obtain ⟨hlength, h⟩ := read_size h
  obtain ⟨hmarkers, h⟩ := read_flag h
  obtain ⟨hdirty, h⟩ := read_flag h
  exact ⟨WorktreeDescriptor.ext hpresent hkind hmode hlength hmarkers hdirty, h⟩

end

/-- **The bytes a snapshot version is the digest of determine the state**: its roots, its
fingerprint, the path in conflict, every stage, the work tree and its content hash. -/
theorem snapshot_bytes_inj {a b : SnapshotInput} (ha : a.Valid) (hb : b.Valid)
    (h : a.bytes = b.bytes) :
    a.canonicalRoot = b.canonicalRoot ∧ a.canonicalWorktree = b.canonicalWorktree ∧
      a.state = b.state ∧ a.conflictPath = b.conflictPath ∧ a.stages = b.stages ∧
      a.worktree = b.worktree ∧ a.worktreeContentHash = b.worktreeContentHash := by
  simp only [SnapshotInput.bytes, ConflictStages.bytes, append_assoc] at h
  obtain ⟨hheader, h⟩ := read_texts (by rfl) ha.header hb.header h
  obtain ⟨hbase, h⟩ := read_base ha.base hb.base ha.ours hb.ours h
  obtain ⟨hours, h⟩ := StageDescriptor.read_stage ha.ours hb.ours h
  obtain ⟨htheirs, h⟩ := StageDescriptor.read_stage ha.theirs hb.theirs h
  obtain ⟨hworktree, h⟩ := read_worktree h
  obtain ⟨hdigests, -⟩ := read_texts (by rfl) ha.digests hb.digests h
  obtain ⟨hhash, hattributes⟩ :=
    append_inj' (List.cons.inj hdigests).1 (ha.attributes.1.trans hb.attributes.1.symm)
  simp only [SnapshotInput.header, List.cons.injEq, and_true] at hheader
  obtain ⟨hroot, hworktreeRoot, hrevision, hoperation, hindex, hpath⟩ := hheader
  exact ⟨hroot, hworktreeRoot, StateFingerprint.ext hrevision hoperation hindex hattributes, hpath,
    ConflictStages.ext hbase hours htheirs, hworktree,
    eq_of_getD ha.contentHash hb.contentHash hhash⟩

def addedHere : SnapshotInput where
  canonicalRoot := [47]
  canonicalWorktree := [47]
  state := ⟨[], Git.bytes "merge", replicate 64 97, replicate 64 97⟩
  conflictPath := [102]
  stages := ⟨none, ⟨2, some [102], some (replicate 40 97), 0o100644, 1, .text⟩,
    ⟨3, none, none, 0, 0, .missing⟩⟩
  worktree := ⟨true, .regular, 0o100644, 1, false, true⟩
  effectiveAttrs := ⟨some (Git.bytes "crlf"), none, false, false, none, none, none⟩
  worktreeContentHash := none

/-- The attributes are not among what the bytes determine. -/
theorem snapshot_bytes_inj_addedHere :
    let encoded : SnapshotInput := { addedHere with
      effectiveAttrs := ⟨none, some (Git.bytes "crlf"), false, false, none, none, none⟩ }
    addedHere.effectiveAttrs.eol ≠ encoded.effectiveAttrs.eol ∧
      addedHere.bytes = encoded.bytes ∧ addedHere.stages = encoded.stages := by
  have h : addedHere.Valid := ⟨by decide, fun _ h => (by cases h),
    ⟨rfl, .inr ⟨_, _, rfl, rfl, by decide, by decide, by decide +kernel, by decide⟩⟩,
    ⟨rfl, .inl ⟨rfl, rfl, rfl⟩⟩, fun _ h => (by cases h), by decide +kernel⟩
  exact ⟨by simp [addedHere], rfl, (snapshot_bytes_inj h
    ⟨h.header, h.base, h.ours, h.theirs, h.contentHash, h.attributes⟩ rfl).2.2.2.2.1⟩

end DamHopper.Git
