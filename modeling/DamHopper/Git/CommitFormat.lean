import DamHopper.Git.RawCommit

/-!
# CommitFormat — a replacement reads back as what was meant

A header that was read falls into well-formed blocks, and well-formed blocks put together
are read as themselves. So the bytes that `rewriteBytes` writes are a commit again: the
one with the blocks that were not removed, the new parents in their places, and the tree,
committer and message exchanged where asked (`rewriteBytes_spec`).
-/

namespace DamHopper.Git

open HeaderScan List

/-! ## Well-formed blocks -/

/-- A block made of these lines: the first has a key, the others continue it. -/
structure RawHeaderBlock.Formed (block : RawHeaderBlock) (first : Bytes) (more : List Bytes) :
    Prop where
  raw : block.raw = Text.unlines lf (first :: more)
  key : block.key = first.takeWhile (· ≠ space)
  spaced : space ∈ first
  start : first.head? ≠ some space
  continued : ∀ line ∈ more, line.head? = some space
  ended : ∀ line ∈ first :: more, lf ∉ line

def RawHeaderBlock.WellFormed (block : RawHeaderBlock) : Prop :=
  ∃ first more, block.Formed first more

variable {line : Bytes} {ls : List Bytes} {block : RawHeaderBlock}

theorem unlines_cons : Text.unlines lf (line :: ls) = line ++ [lf] ++ Text.unlines lf ls := rfl

theorem unlines_append {ls' : List Bytes} :
    Text.unlines lf (ls ++ ls') = Text.unlines lf ls ++ Text.unlines lf ls' :=
  flatMap_append

theorem RawHeaderBlock.WellFormed.continue (h : block.WellFormed)
    (hstart : line.head? = some space) (hline : lf ∉ line) :
    RawHeaderBlock.WellFormed { block with raw := block.raw ++ line ++ [lf] } := by
  obtain ⟨first, more, hformed⟩ := h
  refine ⟨first, more ++ [line], ?_, hformed.key, hformed.spaced, hformed.start, ?_, ?_⟩
  · rw [← cons_append, unlines_append, ← hformed.raw]
    show _ = block.raw ++ (line ++ [lf] ++ [])
    rw [append_nil, append_assoc]
  · exact forall_mem_append.mpr ⟨hformed.continued, forall_mem_singleton.mpr hstart⟩
  · rw [← cons_append]
    exact forall_mem_append.mpr ⟨hformed.ended, forall_mem_singleton.mpr hline⟩

theorem wellFormed_line (hspaced : space ∈ line) (hstart : line.head? ≠ some space)
    (hline : lf ∉ line) :
    RawHeaderBlock.WellFormed ⟨line.takeWhile (· ≠ space), line ++ [lf]⟩ := by
  exact ⟨line, [], by rw [unlines_cons]; exact (append_nil _).symm, rfl, hspaced, hstart,
    nofun, forall_mem_singleton.mpr hline⟩

variable {blocks : List RawHeaderBlock} {oid : Oid}

/-- What has been read is well-formed. -/
theorem parseBlocks_wellFormed {current : Option RawHeaderBlock}
    (h : parseBlocks ls current = .ok blocks) (hls : ∀ line ∈ ls, lf ∉ line)
    (hcurrent : ∀ block ∈ current, block.WellFormed) :
    ∀ block ∈ blocks, block.WellFormed := by
  induction ls generalizing current blocks with
  | nil =>
    cases h
    simpa using hcurrent
  | cons line ls ih =>
    rw [forall_mem_cons] at hls
    rw [parseBlocks] at h
    split at h
    next hstart =>
      obtain ⟨block, hblock, hrest⟩ := bind_eq_ok_iff.mp h
      rw [expect_eq_ok_iff] at hblock
      refine ih hrest hls.2 fun b hb => ?_
      cases hb
      exact (hcurrent block hblock).continue hstart hls.1
    next hstart =>
      split at h
      next hspaced =>
        obtain ⟨blocks', hblocks, ⟨⟩⟩ := bind_eq_ok_iff.mp h
        refine forall_mem_append.mpr ⟨by simpa using hcurrent, ih hblocks hls.2 fun b hb => ?_⟩
        cases hb
        exact wellFormed_line hspaced hstart hls.1
      · cases h

theorem parseBlocks_more {more : List Bytes} (hmore : ∀ line ∈ more, line.head? = some space) :
    parseBlocks (more ++ ls) (some block) =
      parseBlocks ls (some { block with raw := block.raw ++ Text.unlines lf more }) := by
  induction more generalizing block with
  | nil => rw [nil_append, show Text.unlines lf [] = ([] : Bytes) from rfl, append_nil]
  | cons line more ih =>
    rw [forall_mem_cons] at hmore
    rw [cons_append, parseBlocks, if_pos hmore.1]
    show parseBlocks (more ++ ls) _ = _
    rw [ih hmore.2, unlines_cons, append_assoc, append_assoc]

/-- Well-formed blocks put together are read as themselves. -/
theorem parseBlocks_flatMap (h : ∀ block ∈ blocks, block.WellFormed) :
    ∃ ls, blocks.flatMap (·.raw) = Text.unlines lf ls ∧ (∀ line ∈ ls, lf ∉ line ∧ line ≠ []) ∧
      (blocks ≠ [] → ls ≠ []) ∧
      ∀ current, parseBlocks ls current = .ok (current.toList ++ blocks) := by
  induction blocks with
  | nil => exact ⟨[], rfl, nofun, fun h => absurd rfl h, fun current => by rw [append_nil]; rfl⟩
  | cons block blocks ih =>
    rw [forall_mem_cons] at h
    obtain ⟨ls, hraw, hls, _, hparse⟩ := ih h.2
    obtain ⟨first, more, hformed⟩ := h.1
    refine ⟨first :: (more ++ ls), ?_, ?_, fun _ => cons_ne_nil _ _, fun current => ?_⟩
    · simp [flatMap_cons, hraw, hformed.raw, ← unlines_append]
    · rw [← cons_append]
      refine forall_mem_append.mpr ⟨fun line hline => ⟨hformed.ended line hline, ?_⟩, hls⟩
      rcases mem_cons.mp hline with rfl | hmore
      · exact ne_nil_of_mem hformed.spaced
      · exact ne_nil_of_mem (mem_of_head? (hformed.continued line hmore))
    · have hblock : (⟨first.takeWhile (· ≠ space), first ++ [lf] ++ Text.unlines lf more⟩ :
          RawHeaderBlock) = block := by
        rw [← hformed.key, ← unlines_cons, ← hformed.raw]
      rw [parseBlocks, if_neg hformed.start, if_pos hformed.spaced,
        parseBlocks_more hformed.continued, hparse, hblock]
      rfl

/-! ## Lines with an id -/

theorem hexValue_hexDigit : ∀ d, hexValue (hexDigit d) = some d := by decide

theorem not_mem_encode_hex : ∀ d, lf ∉ String.utf8EncodeChar (hexDigit d) := by decide

theorem not_whitespace_hexDigit : ∀ d, Text.isWhitespace (hexDigit d) = false := by decide

theorem Oid.fromStr_hex : Oid.fromStr oid.hex = some oid := by
  have hdigits : oid.hex.filterMap hexValue = oid.digits := by
    rw [Oid.hex, filterMap_map, show hexValue ∘ hexDigit = some from
      funext hexValue_hexDigit, filterMap_some]
  have hall : oid.hex.all (fun c => (hexValue c).isSome) = true := by
    rw [Oid.hex, all_map, all_eq_true]
    intro d _
    simp [Function.comp_apply, hexValue_hexDigit]
  have hne : oid.digits ≠ [] := ne_nil_of_length_eq_add_one oid.size
  unfold Oid.fromStr
  simp only [hdigits, hall, oid.size]
  simp [hne]

theorem not_mem_encode_oid : lf ∉ Utf8.encode oid.hex := by
  intro hmem
  rw [Utf8.encode, Oid.hex, flatMap_map, mem_flatMap] at hmem
  obtain ⟨d, _, hd⟩ := hmem
  exact not_mem_encode_hex d hd

/-- A name that can stand at the start of a header line. -/
structure IsKey (name : String) : Prop where
  encoded : bytes name = Utf8.encode name.toList
  spaceless : space ∉ bytes name
  ended : lf ∉ bytes name
  start : ∃ c rest, name.toList = c :: rest ∧ c ≠ ' '

theorem isKey_tree : IsKey "tree" :=
  ⟨by decide, by decide, by decide, _, _, rfl, by decide⟩

theorem isKey_parent : IsKey "parent" :=
  ⟨by decide, by decide, by decide, _, _, rfl, by decide⟩

section

variable {name : String} (hname : IsKey name)
include hname

/-- A name, a space and a value without a line break make a block of one line. -/
theorem keyLine_wellFormed {value : Bytes} (hvalue : lf ∉ value) :
    RawHeaderBlock.WellFormed ⟨bytes name, bytes name ++ [space] ++ value ++ [lf]⟩ := by
  have htake : (bytes name ++ [space] ++ value).takeWhile (· ≠ space) = bytes name := by
    rw [append_assoc, takeWhile_append_of_pos]
    · simp
    · intro b hb
      simpa using fun heq : b = space => hname.spaceless (heq ▸ hb)
  have hstart : (bytes name ++ [space] ++ value).head? ≠ some space := by
    obtain ⟨c, rest, hcons, _⟩ := hname.start
    have hspaceless := hname.spaceless
    rw [hname.encoded, hcons, Utf8.encode_cons] at hspaceless ⊢
    obtain ⟨lead, tail, hc, _, _⟩ := Utf8.encodeChar_shape c
    rw [hc] at hspaceless ⊢
    rintro ⟨⟩
    exact hspaceless mem_cons_self
  have hended : lf ∉ bytes name ++ [space] ++ value := by
    simp [hname.ended, hvalue, show lf ≠ space by decide]
  have hline := wellFormed_line (by simp) hstart hended
  rwa [htake] at hline

theorem oidLine_wellFormed : RawHeaderBlock.WellFormed ⟨bytes name, oidLine name oid⟩ :=
  keyLine_wellFormed hname not_mem_encode_oid

/-- The id in a line is the one it was written with. -/
theorem headerOid_oidLine {oidError : List Char → String} :
    headerOid oidError name ⟨bytes name, oidLine name oid⟩ = .ok oid := by
  have hdecode : Utf8.decode (oidLine name oid) =
      some (name.toList ++ ' ' :: (oid.hex ++ ['\n'])) := by
    rw [Utf8.decode_eq_some_iff, oidLine, hname.encoded, Utf8.encode_append, Utf8.encode_cons,
      Utf8.encode_append, append_assoc, append_assoc]
    rfl
  have hmatches : Text.trimStartMatches name.toList
      (name.toList ++ ' ' :: (oid.hex ++ ['\n'])) = ' ' :: (oid.hex ++ ['\n']) := by
    obtain ⟨c, rest, hcons, hc⟩ := hname.start
    rw [hcons]
    exact Text.trimStartMatches_once fun hhead => hc (Option.some.inj hhead).symm
  have htrim : Text.trim (' ' :: (oid.hex ++ ['\n'])) = oid.hex := by
    refine @Text.trim_surrounded [' '] oid.hex ['\n'] (forall_mem_singleton.mpr (by decide))
      (forall_mem_singleton.mpr (by decide)) ?_ ?_
    · intro c hc
      rw [Oid.hex, mem_map] at hc
      obtain ⟨d, _, rfl⟩ := hc
      exact not_whitespace_hexDigit d
    · simpa [Oid.hex] using ne_nil_of_length_eq_add_one oid.size
  rw [headerOid, bind_eq_ok_iff]
  refine ⟨_, expect_eq_ok_iff.mpr hdecode, expect_eq_ok_iff.mpr ?_⟩
  rw [hmatches, htrim, Oid.fromStr_hex]

end

/-! ## The scan -/

section

variable {oidError : List Char → String}

/-- A block that the scan passes over. -/
def RawHeaderBlock.Plain (block : RawHeaderBlock) : Prop :=
  block.key ≠ bytes "tree" ∧ block.key ≠ bytes "parent" ∧ block.key ≠ bytes "author" ∧
    block.key ≠ bytes "committer"

variable {block : RawHeaderBlock} {scan scan' : HeaderScan} {blocks : List (RawHeaderBlock × Nat)}
  {removable : List Nat} {parents : List Oid} {raw : Bytes} {c : RawCommit}
  {kept : List RawHeaderBlock}

theorem HeaderScan.block_plain (h : block.Plain) : scan.block oidError block = .ok scan := by
  unfold HeaderScan.block
  rw [if_neg h.1, if_neg h.2.1, if_neg h.2.2.1, if_neg h.2.2.2]

/-- Only blocks of parents add parents. -/
theorem HeaderScan.block_parents (h : scan.block oidError block = .ok scan') :
    (block.key ≠ bytes "parent" ∧ scan'.parents = scan.parents) ∨
      (block.key = bytes "parent" ∧
        ∃ oid, scan' = { scan with parents := scan.parents ++ [oid] }) := by
  unfold HeaderScan.block at h
  split at h
  next hkey =>
    simp only [bind_eq_ok_iff] at h
    obtain ⟨_, _, oid, _, ⟨⟩⟩ := h
    exact .inl ⟨by rw [hkey]; decide, rfl⟩
  split at h
  next hkey =>
    obtain ⟨oid, _, ⟨⟩⟩ := bind_eq_ok_iff.mp h
    exact .inr ⟨hkey, oid, rfl⟩
  next hkey =>
    refine .inl ⟨hkey, ?_⟩
    split_ifs at h <;> cases h <;> rfl

theorem HeaderScan.blocks_parents {blocks : List RawHeaderBlock}
    (h : scan.blocks oidError blocks = .ok scan') :
    scan'.parents.length =
      scan.parents.length + blocks.countP (fun block => block.key = bytes "parent") := by
  induction blocks generalizing scan with
  | nil =>
    cases h
    rfl
  | cons block blocks ih =>
    obtain ⟨scan₁, hblock, hrest⟩ := bind_eq_ok_iff.mp h
    rw [ih hrest, countP_cons]
    rcases block_parents hblock with ⟨hkey, hparents⟩ | ⟨hkey, oid, rfl⟩
    · simp [hkey, hparents]
    · simp only [hkey, length_append, length_singleton, decide_true, if_true]
      omega

/-! ## Exchanged blocks -/

def parentBlock (parent : Oid) : RawHeaderBlock := ⟨bytes "parent", oidLine "parent" parent⟩

variable (newTree : Option Oid) (newCommitter : Option Bytes)

def replaceBlocks : List RawHeaderBlock → List Oid → List RawHeaderBlock
  | [], _ => []
  | block :: rest, parents =>
    if block.key = bytes "parent" then
      parents.head?.toList.map parentBlock ++ replaceBlocks rest parents.tail
    else ⟨block.key, rewriteBlock newTree newCommitter block⟩ :: replaceBlocks rest parents

def keptBlocks (removable : List Nat) (blocks : List (RawHeaderBlock × Nat)) :
    List RawHeaderBlock :=
  (blocks.filter (·.2 ∉ removable)).map (·.1)

variable {newTree newCommitter}

theorem keptBlocks_cons {i : Nat} {rest : List (RawHeaderBlock × Nat)} :
    keptBlocks removable ((block, i) :: rest) =
      if i ∈ removable then keptBlocks removable rest
      else block :: keptBlocks removable rest := by
  by_cases hi : i ∈ removable <;> simp [keptBlocks, hi]

/-- The header written is that of the replacement's blocks. -/
theorem rewriteBlocks_eq
    (h : (keptBlocks removable blocks).countP (fun block => block.key = bytes "parent") ≤
      parents.length) :
    rewriteBlocks removable newTree newCommitter blocks parents =
      .ok ((replaceBlocks newTree newCommitter (keptBlocks removable blocks) parents).flatMap
        (·.raw)) := by
  induction blocks generalizing parents with
  | nil => rfl
  | cons entry rest ih =>
    obtain ⟨block, i⟩ := entry
    rw [keptBlocks_cons] at h ⊢
    rw [rewriteBlocks]
    by_cases hi : i ∈ removable
    · rw [if_pos hi] at h ⊢
      rw [if_pos hi]
      exact ih h
    rw [if_neg hi] at h ⊢
    rw [if_neg hi, replaceBlocks]
    by_cases hkey : block.key = bytes "parent"
    · rw [if_pos hkey, if_pos hkey]
      cases parents with
      | nil => simp [hkey] at h
      | cons parent parents =>
        rw [ih (by simpa [hkey] using h)]
        rfl
    · rw [if_neg hkey, if_neg hkey, ih (by simpa [hkey] using h)]
      rfl

/-- A block of a replacement is one of a parent, or stands for one of the original. -/
theorem forall_replaceBlocks {P : RawHeaderBlock → Prop} {blocks : List RawHeaderBlock}
    (hparent : ∀ parent, P (parentBlock parent))
    (h : ∀ block ∈ blocks, P ⟨block.key, rewriteBlock newTree newCommitter block⟩) :
    ∀ block ∈ replaceBlocks newTree newCommitter blocks parents, P block := by
  induction blocks generalizing parents with
  | nil => exact nofun
  | cons block rest ih =>
    rw [forall_mem_cons] at h
    rw [replaceBlocks]
    split
    · exact forall_mem_append.mpr ⟨forall_mem_map.mpr fun parent _ => hparent parent, ih h.2⟩
    · exact forall_mem_cons.mpr ⟨h.1, ih h.2⟩

theorem replaceBlocks_wellFormed {blocks : List RawHeaderBlock}
    (h : ∀ block ∈ blocks, block.WellFormed)
    (hcommitter : ∀ line ∈ newCommitter, RawHeaderBlock.WellFormed ⟨bytes "committer", line⟩) :
    ∀ block ∈ replaceBlocks newTree newCommitter blocks parents, block.WellFormed := by
  refine forall_replaceBlocks (fun _ => oidLine_wellFormed isKey_parent) fun block hblock => ?_
  unfold rewriteBlock
  split_ifs with htree hkey
  · cases newTree with
    | none => exact h block hblock
    | some tree =>
      rw [htree]
      exact oidLine_wellFormed isKey_tree
  · cases newCommitter with
    | none => exact h block hblock
    | some line =>
      rw [hkey]
      exact hcommitter line rfl
  · exact h block hblock

variable (newTree) in
/-- The scan of a replacement goes with that of the original, but for the parents. -/
structure HeaderScan.Alike (scan scan' : HeaderScan) : Prop where
  treeOid : scan'.treeOid = scan.treeOid.map (newTree.getD ·)
  hasAuthor : scan'.hasAuthor = scan.hasAuthor
  hasCommitter : scan'.hasCommitter = scan.hasCommitter

variable (newCommitter) in
/-- One block that is no parent, and what stands in its place. -/
theorem HeaderScan.block_alike {next : HeaderScan} (hkey : block.key ≠ bytes "parent")
    (h : scan.block oidError block = .ok next) (halike : HeaderScan.Alike newTree scan scan') :
    ∃ next', scan'.block oidError ⟨block.key, rewriteBlock newTree newCommitter block⟩ =
      .ok next' ∧ HeaderScan.Alike newTree next next' ∧ next'.parents = scan'.parents := by
  unfold HeaderScan.block at h ⊢
  split at h
  next htree =>
    simp only [bind_eq_ok_iff, require_eq_ok_iff] at h
    obtain ⟨_, hnone, oid, hoid, ⟨⟩⟩ := h
    refine ⟨{ scan' with treeOid := some (newTree.getD oid) }, ?_,
      ⟨rfl, halike.hasAuthor, halike.hasCommitter⟩, rfl⟩
    have hnone' : scan'.treeOid = none := by rw [halike.treeOid, hnone]; rfl
    have hnew : headerOid oidError "tree" ⟨block.key, rewriteBlock newTree newCommitter block⟩ =
        .ok (newTree.getD oid) := by
      rw [rewriteBlock, if_pos htree]
      cases newTree with
      | none => exact hoid
      | some tree =>
        exact headerOid_oidLine isKey_tree
    rw [if_pos htree]
    simp only [bind_eq_ok_iff, require_eq_ok_iff]
    exact ⟨(), hnone', _, hnew, rfl⟩
  next htree =>
    rw [if_neg htree, if_neg hkey]
    split_ifs at h ⊢ <;> cases h
    · exact ⟨_, rfl, ⟨halike.treeOid, rfl, halike.hasCommitter⟩, rfl⟩
    · exact ⟨_, rfl, ⟨halike.treeOid, halike.hasAuthor, rfl⟩, rfl⟩
    · exact ⟨_, rfl, halike, rfl⟩

theorem HeaderScan.block_parentBlock {parent : Oid} : scan.block oidError (parentBlock parent) =
      .ok { scan with parents := scan.parents ++ [parent] } := by
  unfold block
  rw [parentBlock, headerOid_oidLine isKey_parent]
  rfl

variable (newCommitter) in
/-- The blocks of a replacement are scanned as those of the original, with the parents
that were put in. -/
theorem HeaderScan.blocks_replaceBlocks (hremovable : ∀ e ∈ blocks, e.2 ∈ removable → e.1.Plain)
    {last : HeaderScan} (h : scan.blocks oidError (blocks.map (·.1)) = .ok last)
    (halike : HeaderScan.Alike newTree scan scan')
    (hparents : last.parents.length = scan.parents.length + parents.length) :
    ∃ last', scan'.blocks oidError
        (replaceBlocks newTree newCommitter (keptBlocks removable blocks) parents) = .ok last' ∧
      HeaderScan.Alike newTree last last' ∧ last'.parents = scan'.parents ++ parents := by
  induction blocks generalizing scan scan' parents with
  | nil =>
    cases h
    have hnil : parents = [] := length_eq_zero_iff.mp (by omega)
    exact ⟨scan', rfl, halike, by rw [hnil, append_nil]⟩
  | cons entry rest ih =>
    obtain ⟨block, i⟩ := entry
    rw [forall_mem_cons] at hremovable
    obtain ⟨next, hblock, hrest⟩ := bind_eq_ok_iff.mp h
    rw [keptBlocks_cons]
    by_cases hi : i ∈ removable
    · -- a removed block told the scan nothing
      rw [block_plain (hremovable.1 hi)] at hblock
      cases hblock
      rw [if_pos hi]
      exact ih hremovable.2 hrest halike hparents
    rw [if_neg hi, replaceBlocks]
    have hcount := blocks_parents hrest
    rcases block_parents hblock with ⟨hkey, hnext⟩ | ⟨hkey, oid, rfl⟩
    · rw [if_neg hkey]
      obtain ⟨next', hblock', hlike, hsame⟩ := block_alike newCommitter hkey hblock halike
      obtain ⟨last', hlast, hlast_alike, hparents'⟩ :=
        ih hremovable.2 hrest hlike (hnext ▸ hparents)
      refine ⟨last', ?_, hlast_alike, hsame ▸ hparents'⟩
      rw [blocks, hblock']
      exact hlast
    · rw [if_pos hkey]
      simp only [length_append, length_singleton] at hcount
      cases parents with
      | nil =>
        simp only [length_nil] at hparents
        omega
      | cons parent parents =>
        simp only [length_cons] at hparents
        have hlike : HeaderScan.Alike newTree { scan with parents := scan.parents ++ [oid] }
            { scan' with parents := scan'.parents ++ [parent] } :=
          { halike with }
        have hlength : last.parents.length = (scan.parents ++ [oid]).length + parents.length := by
          rw [length_append, length_singleton]
          omega
        obtain ⟨last', hlast, hlike, hparents'⟩ := ih hremovable.2 hrest hlike hlength
        refine ⟨last', ?_, hlike, by rw [hparents', append_assoc]; rfl⟩
        show (scan'.block oidError (parentBlock parent) >>= _) = _
        rw [block_parentBlock]
        exact hlast

/-! ## Reading and writing whole commits -/

/-- What a commit that was read is made of. -/
theorem parseRawCommit_eq_ok_iff : parseRawCommit oidError raw = .ok c ↔
      ∃ headerBytes scan, Text.splitAtBlank lf raw = some (headerBytes, c.message) ∧
        parseBlocks (Text.lines lf headerBytes) none = .ok c.headers ∧
        c.headers.head?.map (·.key) = some (bytes "tree") ∧
        HeaderScan.blocks oidError ⟨none, [], false, false⟩ c.headers = .ok scan ∧
        (scan.hasAuthor ∧ scan.hasCommitter) ∧ scan.treeOid = some c.treeOid ∧
        scan.parents = c.parents := by
  simp only [parseRawCommit, bind_eq_ok_iff, require_eq_ok_iff, expect_eq_ok_iff]
  constructor
  · rintro ⟨⟨headerBytes, message⟩, hsplit, headers, hblocks, _, hhead, scan, hscan, _, hboth,
      tree, htree, ⟨⟩⟩
    exact ⟨headerBytes, scan, hsplit, hblocks, hhead, hscan, hboth, htree, rfl⟩
  · rintro ⟨headerBytes, scan, hsplit, hblocks, hhead, hscan, hboth, htree, hparents⟩
    exact ⟨_, hsplit, _, hblocks, (), hhead, scan, hscan, (), hboth, _, htree, by rw [hparents]⟩

/-- Well-formed blocks and a message put together are read as themselves. -/
theorem parseRawCommit_assemble (hwell : ∀ block ∈ c.headers, block.WellFormed)
    (hhead : c.headers.head?.map (·.key) = some (bytes "tree"))
    (hscan : HeaderScan.blocks oidError ⟨none, [], false, false⟩ c.headers = .ok scan)
    (hboth : scan.hasAuthor ∧ scan.hasCommitter) (htree : scan.treeOid = some c.treeOid)
    (hparents : scan.parents = c.parents) :
    parseRawCommit oidError (c.headers.flatMap (·.raw) ++ [lf] ++ c.message) = .ok c := by
  obtain ⟨ls, hraw, hls, hne, hparse⟩ := parseBlocks_flatMap hwell
  have hheaders : c.headers ≠ [] := by
    intro hnil
    simp [hnil] at hhead
  refine parseRawCommit_eq_ok_iff.mpr ⟨c.headers.flatMap (·.raw), scan, ?_, ?_, hhead, hscan,
    hboth, htree, hparents⟩
  · rw [hraw, append_assoc]
    exact Text.splitAtBlank_unlines (hne hheaders) hls
  · simp [hraw, Text.lines_unlines fun line hline => (hls line hline).1, hparse none]

def exchanged (newTree : Option Oid) (newCommitter : Option Bytes) (block : RawHeaderBlock) :
    Bool :=
  block.key = bytes "parent" || (block.key = bytes "tree" && newTree.isSome) ||
    (block.key = bytes "committer" && newCommitter.isSome)

/-- A commit made of these blocks, with parents, tree, committer and message exchanged. -/
structure Replacement (kept : List RawHeaderBlock) (newTree : Option Oid)
    (newCommitter : Option Bytes) (tree : Oid) (parents : List Oid) (message : Bytes)
    (c : RawCommit) : Prop where
  treeOid : c.treeOid = newTree.getD tree
  parents : c.parents = parents
  message : c.message = message
  keys : c.headers.map (·.key) = kept.map (·.key)
  blocks : c.headers.filter (fun block => !exchanged newTree newCommitter block) =
    kept.filter (fun block => !exchanged newTree newCommitter block)
  committer : ∀ line ∈ newCommitter, ∀ block ∈ c.headers, block.key = bytes "committer" →
    block.raw = line

theorem replaceBlocks_keys
    (h : kept.countP (fun block => block.key = bytes "parent") ≤ parents.length) :
    (replaceBlocks newTree newCommitter kept parents).map (·.key) = kept.map (·.key) := by
  induction kept generalizing parents with
  | nil => rfl
  | cons block rest ih =>
    rw [replaceBlocks]
    by_cases hkey : block.key = bytes "parent"
    · rw [if_pos hkey]
      cases parents with
      | nil => simp [hkey] at h
      | cons parent parents =>
        show bytes "parent" :: (replaceBlocks _ _ rest parents).map (·.key) = _
        rw [ih (by simpa [hkey] using h), map_cons, hkey]
    · rw [if_neg hkey, map_cons, map_cons, ih (by simpa [hkey] using h)]

theorem rewriteBlock_of_not_exchanged (h : exchanged newTree newCommitter block = false) :
    rewriteBlock newTree newCommitter block = block.raw := by
  simp only [exchanged, Bool.or_eq_false_iff, Bool.and_eq_false_iff, decide_eq_false_iff_not,
    Option.isSome_eq_false_iff, Option.isNone_iff_eq_none] at h
  obtain ⟨⟨_, htree⟩, hcommitter⟩ := h
  unfold rewriteBlock
  split
  next hkey => simp [htree.resolve_left fun hne => hne hkey]
  split_ifs with hkey
  · rw [hcommitter.resolve_left fun hne => hne hkey]
    rfl
  · rfl

theorem replaceBlocks_filter : (replaceBlocks newTree newCommitter kept parents).filter
        (fun block => !exchanged newTree newCommitter block) =
      kept.filter (fun block => !exchanged newTree newCommitter block) := by
  induction kept generalizing parents with
  | nil => rfl
  | cons block rest ih =>
    rw [replaceBlocks, filter_cons]
    by_cases hkey : block.key = bytes "parent"
    · have hexchanged {b : RawHeaderBlock} (hb : b.key = bytes "parent") :
          exchanged newTree newCommitter b = true := by
        simp [exchanged, hb]
      rw [if_pos hkey, filter_append, ih]
      cases parents.head? <;> simp [hexchanged, hkey, parentBlock]
    · rw [if_neg hkey, filter_cons]
      have hsame : exchanged newTree newCommitter
          ⟨block.key, rewriteBlock newTree newCommitter block⟩ =
          exchanged newTree newCommitter block := rfl
      rw [hsame, ih]
      cases hexchanged : exchanged newTree newCommitter block with
      | true => rfl
      | false => rw [rewriteBlock_of_not_exchanged hexchanged]

theorem replaceBlocks_committer {line : Bytes} (hline : newCommitter = some line) :
    ∀ block ∈ replaceBlocks newTree newCommitter kept parents,
      block.key = bytes "committer" → block.raw = line := by
  refine forall_replaceBlocks (fun _ hkey => ?_) fun block _ (hkey : block.key = _) => ?_
  · exact absurd hkey (show bytes "parent" ≠ bytes "committer" by decide)
  · rw [rewriteBlock, if_neg (by rw [hkey]; decide), if_pos hkey, hline]
    rfl

/-- Blocks that hold no parents can be removed without changing how many there are. -/
theorem countP_keptBlocks (h : ∀ e ∈ blocks, e.2 ∈ removable → e.1.Plain) :
    (keptBlocks removable blocks).countP (fun block => block.key = bytes "parent") =
      (blocks.map (·.1)).countP (fun block => block.key = bytes "parent") := by
  induction blocks with
  | nil => rfl
  | cons entry rest ih =>
    rw [forall_mem_cons] at h
    rw [keptBlocks_cons, map_cons, countP_cons, ← ih h.2]
    split
    next hi => simp [(h.1 hi).2.1]
    · rw [countP_cons]

theorem head_keptBlocks {blocks : List RawHeaderBlock}
    (hhead : blocks.head?.map (·.key) = some (bytes "tree"))
    (h : ∀ e ∈ blocks.zipIdx, e.2 ∈ removable → e.1.Plain) :
    (keptBlocks removable blocks.zipIdx).head?.map (·.key) = some (bytes "tree") := by
  cases blocks with
  | nil => cases hhead
  | cons block rest =>
    rw [zipIdx_cons, forall_mem_cons] at h
    rw [zipIdx_cons, keptBlocks_cons, if_neg]
    · exact hhead
    · exact fun hremoved => (h.1 hremoved).1 (Option.some.inj hhead)

/-- **A replacement reads back as what was meant.** -/
theorem rewriteBytes_spec (h : parseRawCommit oidError raw = .ok c) {mapped : List Oid}
    (hmapped : mapped.length = c.parents.length) {newMessage : Option Bytes}
    (hremovable : ∀ e ∈ c.headers.zipIdx, e.2 ∈ removable → e.1.Plain)
    (hcommitter : ∀ line ∈ newCommitter, RawHeaderBlock.WellFormed ⟨bytes "committer", line⟩) :
    ∃ out c', rewriteBytes oidError raw mapped newMessage removable newTree newCommitter =
        .ok out ∧ parseRawCommit oidError out = .ok c' ∧
      Replacement (keptBlocks removable c.headers.zipIdx) newTree newCommitter c.treeOid mapped
        (newMessage.getD c.message) c' := by
  obtain ⟨_, scan, _, _, hhead, hscan, hboth, htree, hparents⟩ := parseRawCommit_eq_ok_iff.mp h
  have hzip : c.headers.zipIdx.map (·.1) = c.headers := zipIdx_map_fst _ _
  have hcount := HeaderScan.blocks_parents hscan
  have hkept := countP_keptBlocks hremovable
  rw [hzip] at hkept
  have hfits : (keptBlocks removable c.headers.zipIdx).countP
      (fun block => block.key = bytes "parent") ≤ mapped.length := by
    rw [hkept, hmapped, ← hparents, hcount]
    exact Nat.le_add_left _ _
  have halike : HeaderScan.Alike newTree ⟨none, [], false, false⟩ ⟨none, [], false, false⟩ :=
    ⟨rfl, rfl, rfl⟩
  have hlength : scan.parents.length = ([] : List Oid).length + mapped.length := by
    rw [hmapped, hparents, length_nil, Nat.zero_add]
  rw [← hzip] at hscan
  obtain ⟨scan', hscan', halike', hparents'⟩ :=
    HeaderScan.blocks_replaceBlocks newCommitter hremovable hscan halike hlength
  have hkeys : (replaceBlocks newTree newCommitter _ mapped).map (·.key) = _ :=
    replaceBlocks_keys hfits
  refine ⟨_, ⟨newTree.getD c.treeOid, mapped, replaceBlocks newTree newCommitter
    (keptBlocks removable c.headers.zipIdx) mapped, newMessage.getD c.message⟩, ?_,
    parseRawCommit_assemble ?_ ?_ hscan' ?_ ?_ ?_, ⟨rfl, rfl, rfl, hkeys, replaceBlocks_filter,
    fun _ => replaceBlocks_committer⟩⟩
  · simp only [rewriteBytes, bind_eq_ok_iff]
    exact ⟨c, h, _, rewriteBlocks_eq hfits, rfl⟩
  · refine replaceBlocks_wellFormed (forall_mem_map.mpr fun e he => ?_) hcommitter
    obtain ⟨_, _, _, hblocks, _⟩ := parseRawCommit_eq_ok_iff.mp h
    exact parseBlocks_wellFormed hblocks (fun line hline => Text.not_mem_of_mem_lines hline) nofun
      _ (hzip ▸ mem_map_of_mem (mem_of_mem_filter he))
  · rw [← head?_map, hkeys, head?_map]
    exact head_keptBlocks hhead hremovable
  · rw [halike'.hasAuthor, halike'.hasCommitter]
    exact hboth
  · simp [halike'.treeOid, htree]
  · rw [hparents', nil_append]

end

end DamHopper.Git
