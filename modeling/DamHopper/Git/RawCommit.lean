import DamHopper.Error
import Mathlib.Algebra.Ring.Nat
import DamHopper.Lib.Checks
import DamHopper.Lib.Text

/-!
# RawCommit — reading and writing the bytes of a commit

`commit_message_rewrite.rs`, from the bytes up: a commit object is cut at its first
empty line into header blocks and a message, the blocks that matter are read, and a
replacement is written from the same blocks with other parents, and with another message,
tree or committer where asked. Everything else of a block is kept as bytes.

The texts that libgit2 gives for its own errors are a parameter (`oidError`).
-/

namespace DamHopper.Git

abbrev Bytes := List UInt8

def bytes (s : String) : Bytes := s.toUTF8.data.toList

def lf : UInt8 := 10

def space : UInt8 := 32

inductive GitBlockReason where
  | unreachableCommit
  | unsupportedHistory
  | invalidCommitMetadata
  | signatureConsentRequired
  deriving Repr, DecidableEq

inductive RewriteFailure where
  | block (reason : GitBlockReason) (message : String)
  | error (error : AppError)
  deriving Repr, DecidableEq

/-- A block for malformed commit metadata. -/
def RewriteFailure.metadata (message : String) : RewriteFailure :=
  .block .invalidCommitMetadata message

/-! ## Object ids -/

/-- An object id: forty hexadecimal digits. -/
structure Oid where
  digits : List (Fin 16)
  size : digits.length = 40
  deriving DecidableEq

def hexDigit (d : Fin 16) : Char := Char.ofNat (if d.val < 10 then 48 + d.val else 87 + d.val)

instance neZero16 : NeZero 16 := ⟨by decide⟩

def hexValue (c : Char) : Option (Fin 16) :=
  let n := c.toNat
  if 48 ≤ n ∧ n ≤ 57 then some (Fin.ofNat 16 (n - 48))
  else if 97 ≤ n ∧ n ≤ 102 then some (Fin.ofNat 16 (n - 87))
  else if 65 ≤ n ∧ n ≤ 70 then some (Fin.ofNat 16 (n - 55))
  else none

namespace Oid

def hex (oid : Oid) : List Char := oid.digits.map hexDigit

def text (oid : Oid) : String := String.ofList oid.hex

/-- `Oid::from_str`: one to forty digits, filled up with zeros. -/
def fromStr (s : List Char) : Option Oid :=
  let digits := s.filterMap hexValue
  if h : s.all (fun c => (hexValue c).isSome) = true ∧ digits ≠ [] ∧ digits.length ≤ 40 then
    some ⟨digits ++ List.replicate (40 - digits.length) 0, by
      rw [List.length_append, List.length_replicate]; omega⟩
  else none

end Oid

section

variable (oidError : List Char → String)

def exactOid (value : List Char) (field : String) : Except AppError Oid :=
  if (Utf8.encode value).length ≠ 40 ∨ ¬ value.all (fun c => (hexValue c).isSome) then
    .error (.invalidInput s!"{field} must be a full 40-hex commit OID")
  else
    let e := oidError value
    expect (Oid.fromStr value) (.invalidInput s!"invalid {field}: {e}")

/-! ## Header blocks -/

structure RawHeaderBlock where
  key : Bytes
  raw : Bytes
  deriving Repr, DecidableEq

structure RawCommit where
  treeOid : Oid
  parents : List Oid
  headers : List RawHeaderBlock
  message : Bytes
  deriving DecidableEq

/-- The blocks of a header given by its lines: a line that starts with a space continues
the block before it. -/
def parseBlocks : List Bytes → Option RawHeaderBlock → Except RewriteFailure (List RawHeaderBlock)
  | [], current => .ok current.toList
  | line :: rest, current =>
    if line.head? = some space then do
      let block ← expect current
        (.metadata "malformed commit header: orphan continuation line")
      parseBlocks rest (some { block with raw := block.raw ++ line ++ [lf] })
    else if space ∈ line then do
      let blocks ← parseBlocks rest (some ⟨line.takeWhile (· ≠ space), line ++ [lf]⟩)
      .ok (current.toList ++ blocks)
    else
      .error (.metadata "malformed commit header: line missing key/value space separator")

def headerOid (name : String) (block : RawHeaderBlock) : Except RewriteFailure Oid := do
  let line ← expect (Utf8.decode block.raw)
    (.metadata s!"{name} header is not valid ASCII/UTF-8")
  let value := Text.trim (Text.trimStartMatches name.toList line)
  let val := String.ofList value
  let e := oidError value
  expect (Oid.fromStr value) (.metadata s!"invalid {name} OID in commit header '{val}': {e}")

structure HeaderScan where
  treeOid : Option Oid
  parents : List Oid
  hasAuthor : Bool
  hasCommitter : Bool

def HeaderScan.block (scan : HeaderScan) (block : RawHeaderBlock) :
    Except RewriteFailure HeaderScan :=
  if block.key = bytes "tree" then do
    require (scan.treeOid = none) (.metadata "malformed commit header: duplicate tree headers")
    let oid ← headerOid oidError "tree" block
    .ok { scan with treeOid := some oid }
  else if block.key = bytes "parent" then do
    let oid ← headerOid oidError "parent" block
    .ok { scan with parents := scan.parents ++ [oid] }
  else if block.key = bytes "author" then .ok { scan with hasAuthor := true }
  else if block.key = bytes "committer" then .ok { scan with hasCommitter := true }
  else .ok scan

def HeaderScan.blocks : HeaderScan → List RawHeaderBlock → Except RewriteFailure HeaderScan
  | scan, [] => .ok scan
  | scan, block :: rest => do
      let scan' ← scan.block oidError block
      HeaderScan.blocks scan' rest

def parseRawCommit (raw : Bytes) : Except RewriteFailure RawCommit := do
  let (headerBytes, message) ← expect (Text.splitAtBlank lf raw)
    (.metadata "malformed commit object: missing header/body separator")
  let headers ← parseBlocks (Text.lines lf headerBytes) none
  require (headers.head?.map (·.key) = some (bytes "tree"))
    (.metadata "malformed commit header: first header block must be 'tree'")
  let scan ← HeaderScan.blocks oidError ⟨none, [], false, false⟩ headers
  require (scan.hasAuthor ∧ scan.hasCommitter)
    (.metadata "malformed commit header: missing mandatory author or committer")
  let treeOid ← expect scan.treeOid (.metadata "missing tree header in commit")
  .ok ⟨treeOid, scan.parents, headers, message⟩

/-! ## Messages -/

/-- `encoding` is declared as UTF-8, in whatever case. -/
def RawHeaderBlock.isUtf8Encoding (block : RawHeaderBlock) : Bool :=
  let value := if (bytes "encoding ").isPrefixOf block.raw then block.raw.drop 9 else []
  match Utf8.decode value with
  | none => false
  | some encoding => (Text.trim encoding).map Char.toLower = ['u', 't', 'f', '-', '8']

def validateUtf8Message (parsed : RawCommit) : Except RewriteFailure (List Char) := do
  checkAll (fun block => require (block.key = bytes "encoding" → block.isUtf8Encoding = true)
    (.block .unsupportedHistory "selected commit declares a non-UTF-8 or malformed encoding"))
    parsed.headers
  expect (Utf8.decode parsed.message)
    (.block .unsupportedHistory "selected commit message is not valid UTF-8")

/-! ## Tags embedded in merges -/

def mergetagLine (line : Bytes) (i : Nat) : Except RewriteFailure Bytes :=
  if line = [] then .ok []
  else if i = 0 then
    if (bytes "mergetag ").isPrefixOf line then .ok (line.drop 9 ++ [lf])
    else if line = bytes "mergetag" then .ok []
    else .error (.metadata "malformed mergetag header block")
  else if line.head? = some space then .ok (line.drop 1 ++ [lf])
  else .error (.metadata "malformed mergetag continuation line: missing leading space")

def mergetagPayload : List (Bytes × Nat) → Except RewriteFailure Bytes
  | [] => .ok []
  | (line, i) :: rest => do
      let front ← mergetagLine line i
      let back ← mergetagPayload rest
      .ok (front ++ back)

structure TagScan where
  object : Option Oid
  typeCount : Nat
  isCommitType : Bool

def TagScan.line (scan : TagScan) (line : Bytes) : Except RewriteFailure TagScan :=
  if (bytes "object ").isPrefixOf line then do
    require (scan.object = none) (.metadata "mergetag has duplicate object headers")
    let value ← expect (Utf8.decode (line.drop 7))
      (.metadata "mergetag object field is not valid UTF-8")
    match exactOid oidError (Text.trim value) "mergetag object" with
    | .ok oid => .ok { scan with object := some oid }
    | .error e => .error (.metadata e.display)
  else if (bytes "type ").isPrefixOf line then
    let value := Text.trim ((Utf8.decode (line.drop 5)).getD [])
    .ok { scan with
      typeCount := scan.typeCount + 1
      isCommitType := scan.isCommitType || value = ['c', 'o', 'm', 'm', 'i', 't'] }
  else .ok scan

def TagScan.lines : TagScan → List Bytes → Except RewriteFailure TagScan
  | scan, [] => .ok scan
  | scan, line :: rest => do
      let scan' ← scan.line oidError line
      TagScan.lines scan' rest

/-- The commit that the tag of a `mergetag` block is about. -/
def parseMergetagBlock (raw : Bytes) : Except RewriteFailure Oid := do
  let payload ← mergetagPayload (raw.splitOn lf).zipIdx
  let tagHeader := match Text.splitAtBlank lf payload with
    | some (header, _) => header.dropLast
    | none => payload
  let scan ← TagScan.lines oidError ⟨none, 0, false⟩ (tagHeader.splitOn lf)
  let object ← expect scan.object (.metadata "mergetag missing 'object <OID>' header")
  require (scan.isCommitType = true ∧ scan.typeCount = 1)
    (.metadata "mergetag does not specify 'type commit'")
  .ok object

/-! ## Writing a replacement -/

def oidLine (name : String) (oid : Oid) : Bytes :=
  bytes name ++ [space] ++ Utf8.encode oid.hex ++ [lf]

/-- A block other than a parent, with the tree or the committer exchanged where asked. -/
def rewriteBlock (newTree : Option Oid) (newCommitter : Option Bytes) (block : RawHeaderBlock) :
    Bytes :=
  if block.key = bytes "tree" then (newTree.map (oidLine "tree")).getD block.raw
  else if block.key = bytes "committer" then newCommitter.getD block.raw
  else block.raw

/-- The header of a replacement, from the blocks with their positions. -/
def rewriteBlocks (removable : List Nat) (newTree : Option Oid) (newCommitter : Option Bytes) :
    List (RawHeaderBlock × Nat) → List Oid → Except RewriteFailure Bytes
  | [], _ => .ok []
  | (block, i) :: rest, parents =>
    if i ∈ removable then rewriteBlocks removable newTree newCommitter rest parents
    else if block.key = bytes "parent" then do
      let parent ← expect parents.head?
        (.metadata "parent index out of bounds during serialization")
      let more ← rewriteBlocks removable newTree newCommitter rest parents.tail
      .ok (oidLine "parent" parent ++ more)
    else do
      let more ← rewriteBlocks removable newTree newCommitter rest parents
      .ok (rewriteBlock newTree newCommitter block ++ more)

def rewriteBytes (raw : Bytes) (mappedParents : List Oid) (newMessage : Option Bytes)
    (removable : List Nat) (newTree : Option Oid) (newCommitter : Option Bytes) :
    Except RewriteFailure Bytes := do
  let parsed ← parseRawCommit oidError raw
  let header ← rewriteBlocks removable newTree newCommitter parsed.headers.zipIdx mappedParents
  .ok (header ++ [lf] ++ newMessage.getD parsed.message)

end

end DamHopper.Git
