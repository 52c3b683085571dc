import DamHopper.Lib.Dfs
import DamHopper.Git.RawCommit

/-!
# History — rewriting the commits behind a branch

`commit_message_rewrite.rs`, from the object database up: the commits behind a tip are
collected with every parent before its children, those that have the target among their
ancestors are found in one pass, the signatures that cannot survive are listed, and the
replacements are written in the same order, each with the replacements of its parents.

An object database is the list of its objects; an id names the first object that hashes
to it. What the code takes from libgit2 is a parameter (`Git2`), of which nothing is assumed:
libgit2 may refuse a commit that the parser of the source reads, or find something else in it.
Moving the branch to the new tip is not part of the model.
-/

namespace DamHopper.Git

inductive ObjectType where
  | commit
  | tree
  | blob
  | tag
  deriving Repr, DecidableEq

structure GitObject where
  kind : ObjectType
  data : Bytes
  deriving Repr, DecidableEq

/-- What libgit2 contributes: how objects hash, what it reads in a commit, and the texts
of its errors. -/
structure Git2 where
  hash : GitObject → Oid
  readCommit : Bytes → Except String (Oid × List Oid)
  notFound : Oid → String
  oidError : List Char → String
  display : String → String

structure Odb where
  objects : List GitObject
  deriving DecidableEq

structure CommitNode where
  oid : Oid
  treeOid : Oid
  parents : List Oid
  raw : Bytes
  deriving DecidableEq

section

variable (g : Git2)

namespace Odb

def read (odb : Odb) (oid : Oid) : Option GitObject :=
  odb.objects.find? fun object => g.hash object = oid

def write (odb : Odb) (kind : ObjectType) (data : Bytes) : Odb × Oid :=
  (⟨odb.objects ++ [⟨kind, data⟩]⟩, g.hash ⟨kind, data⟩)

def findCommit (odb : Odb) (oid : Oid) : Except String (Oid × List Oid) :=
  match odb.read g oid with
  | some ⟨.commit, data⟩ => g.readCommit data
  | _ => .error (g.notFound oid)

end Odb

/-! ## Collecting -/

def orFail {ε ε' α : Type} (x : Except ε α) (failure : ε → ε') : Except ε' α :=
  match x with
  | .ok a => .ok a
  | .error e => .error (failure e)

def crossCheckCommitNode (odb : Odb) (oid treeOid : Oid) (parents : List Oid) :
    Except RewriteFailure Unit := do
  let at_ := oid.text
  let (tree, parentIds) ← orFail (odb.findCommit g oid)
    fun e => .metadata s!"cannot inspect commit {at_} through libgit2: {e}"
  let rawTree := treeOid.text
  let libTree := tree.text
  require (tree = treeOid)
    (.metadata s!"raw tree OID {rawTree} does not match parsed libgit2 tree OID {libTree}")
  let count := parents.length
  let libCount := parentIds.length
  require (parentIds.length = parents.length) (.metadata
    s!"raw parent count {count} does not match parsed libgit2 parent count {libCount}")
  checkAll (fun entry : (Oid × Oid) × Nat =>
    let idx := entry.2
    let expected := entry.1.1.text
    let actual := entry.1.2.text
    require (entry.1.2 = entry.1.1) (.metadata
      s!"parent mismatch at position {idx} in {at_}: raw={expected}, libgit2={actual}"))
    (parents.zip parentIds).zipIdx

def loadCommit (odb : Odb) (place : String) (oid : Oid) : Except RewriteFailure CommitNode := do
  let at_ := oid.text
  let object ← expect (odb.read g oid)
    (.block .unsupportedHistory s!"missing object or shallow boundary at {place} {at_}")
  require (object.kind = .commit) (.metadata s!"object {at_} is not a commit")
  let parsed ← parseRawCommit g.oidError object.data
  crossCheckCommitNode g odb oid parsed.treeOid parsed.parents
  .ok ⟨oid, parsed.treeOid, parsed.parents, object.data⟩

def cycleDetected (oid : Oid) : RewriteFailure :=
  let at_ := oid.text
  .block .unsupportedHistory s!"cycle detected in commit graph at {at_}"

def collectParentFirst (odb : Odb) (tip : Oid) : Except RewriteFailure (List CommitNode) := do
  let node ← loadCommit g odb "tip" tip
  let found ← Dfs.search (loadCommit g odb "parent") CommitNode.parents cycleDetected
    (odb.objects.map g.hash) tip node
  .ok (found.map Prod.snd)

/-! ## Planning -/

def affectedClosure (nodes : List CommitNode) (anchor : Oid) : List Oid :=
  dependents CommitNode.oid CommitNode.parents nodes anchor

def removableIndices (node : CommitNode) (affected : List Oid) :
    List (RawHeaderBlock × Nat) → Except RewriteFailure (List Nat)
  | [] => .ok []
  | (block, index) :: rest =>
    if block.key = bytes "gpgsig" ∨ block.key = bytes "gpgsig-sha256" then do
      let indices ← removableIndices node affected rest
      .ok (index :: indices)
    else if block.key = bytes "mergetag" then do
      let object ← parseMergetagBlock g.oidError block.raw
      let tagged := object.text
      let commit := node.oid.text
      require (object ∈ node.parents)
        (.metadata s!"mergetag object {tagged} is not a parent of {commit}")
      let indices ← removableIndices node affected rest
      .ok (if object ∈ affected then index :: indices else indices)
    else removableIndices node affected rest

def signatureRemovals (affected : List Oid) :
    List CommitNode → AssocMap Oid (List Nat) → Except RewriteFailure (AssocMap Oid (List Nat))
  | [], removals => .ok removals
  | node :: rest, removals =>
    if node.oid ∈ affected then do
      let parsed ← parseRawCommit g.oidError node.raw
      let indices ← removableIndices g node affected parsed.headers.zipIdx
      signatureRemovals affected rest
        (if indices = [] then removals else removals.insert node.oid indices)
    else signatureRemovals affected rest removals

structure RewritePlan where
  affected : List Oid
  removable : AssocMap Oid (List Nat)

/-- The plan of a rewrite, or nothing if the message stays as it is. -/
def planRewrite (nodes : List CommitNode) (target : Oid) (message : Bytes) :
    Except RewriteFailure (Option RewritePlan) := do
  let at_ := target.text
  let node ← expect (nodes.find? (·.oid = target))
    (.block .unreachableCommit s!"target commit {at_} not found in nodes")
  let parsed ← parseRawCommit g.oidError node.raw
  let _ ← validateUtf8Message parsed
  if parsed.message = message then .ok none
  else do
    let affected := affectedClosure nodes target
    let removable ← signatureRemovals g affected nodes .empty
    .ok (some ⟨affected, removable⟩)

def requiredRemovals (removable : AssocMap Oid (List Nat)) : Bool := removable.size ≠ 0

/-! ## Writing -/

/-- A rewrite under way: the objects, and the replacements so far. -/
structure Rewriting where
  odb : Odb
  changed : AssocMap Oid Oid

def rewriteLoop (payload : AssocMap Oid Oid → CommitNode → Except RewriteFailure Bytes) :
    List CommitNode → Rewriting → Rewriting × Option RewriteFailure
  | [], r => (r, none)
  | node :: rest, r =>
    match payload r.changed node with
    | .error failure => (r, some failure)
    | .ok data =>
      let (odb, oid) := r.odb.write g .commit data
      rewriteLoop payload rest ⟨odb, r.changed.insert node.oid oid⟩

/-! ## Editing a message -/

inductive EditOutcome where
  | noOp
  | done (newTarget newTip : Oid) (rewrittenCount : Nat) (signaturesRemoved : Bool)
  deriving DecidableEq

/-- Everything that is checked before the first object is written. -/
def prepareEdit (odb : Odb) (tip target : Oid) (message : Bytes) (allowSignatureRemoval : Bool) :
    Except RewriteFailure (Option (List CommitNode × RewritePlan)) := do
  let nodes ← collectParentFirst g odb tip
  let at_ := target.text
  require (target ∈ nodes.map (·.oid))
    (.block .unreachableCommit s!"commit {at_} is not reachable from captured branch tip")
  match ← planRewrite g nodes target message with
  | none => .ok none
  | some plan => do
      require (requiredRemovals plan.removable = true → allowSignatureRemoval = true)
        (.block .signatureConsentRequired
          "rewriting this commit invalidates cryptographic signatures; consent required to remove them")
      .ok (some (nodes, plan))

def editPayload (plan : RewritePlan) (target : Oid) (message : Bytes)
    (changed : AssocMap Oid Oid) (node : CommitNode) : Except RewriteFailure Bytes :=
  rewriteBytes g.oidError node.raw (node.parents.map fun p => (changed.get? p).getD p)
    (if node.oid = target then some message else none)
    ((plan.removable.get? node.oid).getD []) none none

def finishEdit (tip target : Oid) (signaturesRemoved : Bool) (r : Rewriting) :
    Except RewriteFailure EditOutcome := do
  let newTarget ← expect (r.changed.get? target)
    (.error (.git "target commit was not rewritten in changed_map"))
  let newTip ← expect (r.changed.get? tip)
    (.error (.git "tip commit was not rewritten in changed_map"))
  let (oldTree, _) ← orFail (r.odb.findCommit g tip) fun e =>
    let text := g.display e
    .error (.git s!"failed to find old tip commit: {text}")
  let (newTree, _) ← orFail (r.odb.findCommit g newTip) fun e =>
    let text := g.display e
    .error (.git s!"failed to find rewritten tip commit: {text}")
  let old := oldTree.text
  let new := newTree.text
  require (oldTree = newTree)
    (.error (.git s!"rewritten tip tree {new} does not match captured tip tree {old}"))
  .ok (.done newTarget newTip r.changed.size signaturesRemoved)

/-- `edit_commit_message` up to the publication of the new tip: the objects afterwards, and
how it went. -/
def editCommitMessage (odb : Odb) (tip target : Oid) (message : Bytes)
    (allowSignatureRemoval : Bool) : Odb × Except RewriteFailure EditOutcome :=
  match prepareEdit g odb tip target message allowSignatureRemoval with
  | .error failure => (odb, .error failure)
  | .ok none => (odb, .ok .noOp)
  | .ok (some (nodes, plan)) =>
    let (r, failure) := rewriteLoop g (editPayload g plan target message)
      (nodes.filter (·.oid ∈ plan.affected)) ⟨odb, .empty⟩
    match failure with
    | some failure => (r.odb, .error failure)
    | none => (r.odb, finishEdit g tip target (requiredRemovals plan.removable) r)

end

end DamHopper.Git
