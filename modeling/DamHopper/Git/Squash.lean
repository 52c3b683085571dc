import DamHopper.Git.History

/-!
# Squash — collapsing a run of commits into one

`squash_commits.rs`. A selection is a list of at least two distinct commits, oldest first.
Before the first object is written the run is checked: that every commit of it is behind
the captured tip, that none of it and nothing after it on the branch is a merge, that each
is the only parent of the next, that the messages are text, the template is in order, no
signature goes without consent and the user has a name. Then one commit is written in place
of the run, and a replacement for each commit after it.

`repo.signature()` is a parameter, as is what libgit2 contributes elsewhere (`Git2`).
Moving the branch to the new tip is not part of the model.
-/

namespace DamHopper.Git

/-! ## The selection -/

/-- At least two distinct commits, oldest first. -/
structure Selection where
  oldest : Oid
  rest : List Oid
  more : rest ≠ []
  distinct : (oldest :: rest).Nodup

namespace Selection

def oids (s : Selection) : List Oid := s.oldest :: s.rest

def newest (s : Selection) : Oid := s.oids.getLast (List.cons_ne_nil _ _)

end Selection

/-! ## Identities -/

def validZone : List Char → Bool
  | [sign, h, h', m, m'] =>
    (sign = '+' || sign = '-') && [h, h', m, m'].all Char.isDigit &&
      Nat.ofDigitChars 10 [h, h'] 0 ≤ 23 && Nat.ofDigitChars 10 [m, m'] 0 ≤ 59
  | _ => false

def validSeconds (text : List Char) : Bool :=
  match Text.parseInt? text with
  | some n => -2 ^ 63 ≤ n && n < 2 ^ 63
  | none => false

/-- What follows the address: seconds and a zone, and nothing else. -/
def validTimestamp : List (List Char) → Bool
  | [seconds, zone] => validSeconds seconds && validZone zone
  | _ => false

def less : UInt8 := 60

def greater : UInt8 := 62

def cr : UInt8 := 13

/-- `NAME <ADDRESS> SECONDS ZONE`, without the end of the line. -/
def validIdentity (value : Bytes) : Bool :=
  if value.any fun b => b = lf || b = cr || b = 0 then false
  else match value.idxOf? less, value.idxOf? greater with
    | some start, some stop =>
      if start = 0 ∨ stop ≤ start + 1 ∨ less ∈ (value.take stop).drop (start + 1) then false
      else match Utf8.decode (value.drop (stop + 1)) with
        | some tail => validTimestamp (Text.words tail)
        | none => false
    | _, _ => false

def validIdentityHeader (raw : Bytes) (skipped : Nat) : Bool :=
  if skipped ≤ raw.length ∧ (raw.drop skipped).getLast? = some lf then
    validIdentity (raw.drop skipped).dropLast
  else false

/-- Exactly one block of the key, and in order. -/
def validTemplateKey (parsed : RawCommit) (key : Bytes) : Bool :=
  match parsed.headers.filter (·.key = key) with
  | [block] => validIdentityHeader block.raw (key.length + 1)
  | _ => false

def validateTemplate (parsed : RawCommit) : Except RewriteFailure Unit :=
  checkAll (fun key => require (validTemplateKey parsed key = true)
    (.metadata "oldest commit requires exactly one valid author and committer header"))
    [bytes "author", bytes "committer"]

structure Signature where
  name : Bytes
  email : Bytes
  seconds : Int
  offsetMinutes : Int
  range : -2 ^ 63 ≤ seconds ∧ seconds < 2 ^ 63

def twoDigits (n : Nat) : List Char := List.leftpad 2 '0' (Nat.toDigits 10 n)

def zoneText (offset : Int) : List Char :=
  (if offset < 0 then '-' else '+') ::
    (twoDigits (offset.natAbs / 60) ++ twoDigits (offset.natAbs % 60))

def Signature.Valid (signature : Signature) : Prop :=
  signature.name ≠ [] ∧ signature.email ≠ [] ∧ signature.offsetMinutes.natAbs < 24 * 60 ∧
    ∀ b ∈ signature.name ++ signature.email, b ∉ [0, lf, cr, less, greater]

instance (signature : Signature) : Decidable signature.Valid :=
  have := List.decidableBAll (· ∉ [0, lf, cr, less, greater]) (signature.name ++ signature.email)
  inferInstanceAs (Decidable (_ ∧ _ ∧ _ ∧ _))

def Signature.line (signature : Signature) : Bytes :=
  bytes "committer " ++ signature.name ++ bytes " <" ++ signature.email ++
    Utf8.encode (['>', ' '] ++ Text.printInt signature.seconds ++ [' '] ++
      zoneText signature.offsetMinutes ++ ['\n'])

def committerHeader (signature : Signature) : Except RewriteFailure Bytes := do
  require signature.Valid (.error (.git
    "git user not configured (set user.name and user.email): invalid committer identity"))
  .ok signature.line

/-! ## Before the first write -/

section

variable (g : Git2)

def selectedNode (nodes : List CommitNode) (oid : Oid) : Except RewriteFailure CommitNode :=
  let at_ := oid.text
  expect (nodes.find? (·.oid = oid)) (.block .unreachableCommit
    s!"commit {at_} is not reachable from the captured branch tip")

/-- What is known when the first object is written. -/
structure SquashPlan where
  nodes : List CommitNode
  affected : List Oid
  oldest : CommitNode
  newest : CommitNode
  removable : AssocMap Oid (List Nat)
  committer : Bytes

/-- No commit that is rewritten is a merge. -/
def requireLinear (node : CommitNode) : Except RewriteFailure Unit :=
  let at_ := node.oid.text
  require (node.parents.length ≤ 1) (.block .unsupportedHistory
    s!"squash requires linear history: selected or rewritten descendant {at_} is a merge")

/-- The first is the only parent of the second. -/
def requireConsecutive (pair : CommitNode × CommitNode) : Except RewriteFailure Unit :=
  require (pair.2.parents = [pair.1.oid]) (.block .unsupportedHistory
    "select consecutive commits in exact oldest-first order; gaps and reversed ranges cannot be squashed")

def requireUtf8 (node : CommitNode) : Except RewriteFailure Unit := do
  let parsed ← parseRawCommit g.oidError node.raw
  let _ ← validateUtf8Message parsed
  .ok ()

/-- Everything that is checked before the first object is written. -/
def prepareSquash (odb : Odb) (tip : Oid) (s : Selection) (identity : Except String Signature)
    (consent : Bool) : Except RewriteFailure SquashPlan := do
  let nodes ← collectParentFirst g odb tip
  let picked ← s.oids.mapM (selectedNode nodes)
  let oldest ← selectedNode nodes s.oldest
  let newest ← selectedNode nodes s.newest
  let affected := affectedClosure nodes oldest.oid
  checkAll requireLinear (nodes.filter (·.oid ∈ affected))
  checkAll requireConsecutive (picked.zip picked.tail)
  require (tip ∈ affected) (.block .unsupportedHistory
    "selected range does not lead to the captured branch tip")
  checkAll (requireUtf8 g) picked
  let template ← parseRawCommit g.oidError oldest.raw
  validateTemplate template
  let removable ← signatureRemovals g affected nodes .empty
  require (requiredRemovals removable = true → consent = true)
    (.block .signatureConsentRequired
      "squash invalidates signatures in selected commits (including absorbed commits) or descendants; explicitly allow signature removal")
  let signature ← orFail identity fun e =>
    .error (.git s!"git user not configured (set user.name and user.email): {e}")
  let committer ← committerHeader signature
  .ok ⟨nodes, affected, oldest, newest, removable, committer⟩

/-! ## Writing -/

structure SquashAction where
  message : String
  oldTarget : Oid
  newTarget : Oid
  oldHead : Oid
  newHead : Oid
  rewrittenCount : Nat
  signaturesRemoved : Bool
  deriving DecidableEq

/-- The bytes of the commit that takes the place of the run. -/
def squashPayload (plan : SquashPlan) (message : Bytes) : Except RewriteFailure Bytes :=
  rewriteBytes g.oidError plan.oldest.raw plan.oldest.parents (some message)
    ((plan.removable.get? plan.oldest.oid).getD []) (some plan.newest.treeOid)
    (some plan.committer)

/-- The new commit has the tree and the parents it should have. -/
def checkSquash (odb : Odb) (plan : SquashPlan) (squashOid : Oid) :
    Except RewriteFailure Unit := do
  let (tree, parents) ← orFail (odb.findCommit g squashOid) fun e => .error (.git e)
  require (tree = plan.newest.treeOid ∧ parents.length = plan.oldest.parents.length ∧
      ∀ p ∈ plan.oldest.parents.head?, parents.head? = some p)
    (.error (.git "synthesized squash topology/tree invariant failed"))

/-- The bytes of the replacement for a commit after the run. -/
def descendantPayload (plan : SquashPlan) (mapped : AssocMap Oid Oid) (node : CommitNode) :
    Except RewriteFailure Bytes := do
  let parent ← expect (node.parents.head?.bind mapped.get?)
    (.error (.git "linear descendant has no rewritten parent"))
  rewriteBytes g.oidError node.raw [parent] none ((plan.removable.get? node.oid).getD []) none none

/-- The commits after the run, which are rewritten but not selected. -/
def SquashPlan.later (plan : SquashPlan) (s : Selection) : List CommitNode :=
  plan.nodes.filter fun node => node.oid ∈ plan.affected ∧ node.oid ∉ s.oids

/-- What is left of a panic once its task is joined. -/
def taskPanicked : RewriteFailure := .error (.internal "blocking git squash task failed")

def finishSquash (plan : SquashPlan) (tip : Oid) (s : Selection) (squashOid : Oid)
    (r : Rewriting) : Except RewriteFailure SquashAction := do
  let newTip ← expect (r.changed.get? tip) taskPanicked
  let (newTree, _) ← orFail (r.odb.findCommit g newTip) fun e => .error (.git e)
  let tipNode ← selectedNode plan.nodes tip
  require (newTree = tipNode.treeOid)
    (.error (.git "rewritten tip tree differs from captured tip tree"))
  let count := s.oids.length
  .ok {
    message := s!"Squashed {count} commits"
    oldTarget := plan.newest.oid
    newTarget := squashOid
    oldHead := tip
    newHead := newTip
    -- one for the run, and one for each turn of the loop
    rewrittenCount := 1 + (plan.later s).length
    signaturesRemoved := requiredRemovals plan.removable }

/-- `squash_objects` up to the publication of the new tip: the objects afterwards, and how
it went. -/
def squashObjects (odb : Odb) (tip : Oid) (s : Selection) (message : Bytes)
    (identity : Except String Signature) (consent : Bool) :
    Odb × Except RewriteFailure SquashAction :=
  match prepareSquash g odb tip s identity consent with
  | .error failure => (odb, .error failure)
  | .ok plan =>
    match squashPayload g plan message with
    | .error failure => (odb, .error failure)
    | .ok data =>
      let (odb, squashOid) := odb.write g .commit data
      match checkSquash g odb plan squashOid with
      | .error failure => (odb, .error failure)
      | .ok () =>
        let mapped := AssocMap.ofList (s.oids.map fun oid => (oid, squashOid))
        let (r, failure) := rewriteLoop g (descendantPayload g plan) (plan.later s)
          ⟨odb, mapped⟩
        match failure with
        | some failure => (r.odb, .error failure)
        | none => (r.odb, finishSquash g plan tip s squashOid r)

end

end DamHopper.Git
