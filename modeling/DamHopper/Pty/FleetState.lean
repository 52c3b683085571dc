import DamHopper.Error
import DamHopper.Lib.AssocMap
import DamHopper.Lib.Versions

/-!
# FleetState — the registry of terminal sessions and the suspend gate

`pty/fleet_state.rs`: three maps from session ids to incarnations (`live`,
`creating`, `restartPending`), three flags and a generation. Every operation that
changes something ends in `publish`, which takes the next generation and puts a
snapshot into a watch channel; `watched` is what that channel holds. The state is
kept under the manager's mutex, so an interleaving of the manager's threads is a
list of operations.

The generation is a number that never wraps. The claim errors that only the manager
raises (policy, deadline, observation, input, root and output fences) are left out, and so
are the watcher's waiting methods and `running_count`, which no operation reads.
-/

namespace DamHopper.Pty

structure PtyFleetSnapshot where
  generation : Nat
  liveCount : Nat
  creatingCount : Nat
  restartPendingCount : Nat
  disposing : Bool
  closing : Bool
  handoffActive : Bool
  deriving Repr, DecidableEq

def PtyFleetSnapshot.isQuiescent (snapshot : PtyFleetSnapshot) : Bool :=
  snapshot.liveCount == 0 && snapshot.creatingCount == 0 && snapshot.restartPendingCount == 0 &&
    !snapshot.disposing && !snapshot.closing && !snapshot.handoffActive

structure HandoffClaim where
  generation : Nat
  deriving Repr, DecidableEq

inductive HandoffClaimError where
  | closing
  | disposing
  | handoffAlreadyActive
  | notQuiescent
  | generationMismatch (expected actual : Nat)
  | lifecycleBusy
  deriving Repr, DecidableEq

abbrev Sessions := AssocMap String Nat

structure PtyFleetState where
  live : Sessions
  creating : Sessions
  restartPending : Sessions
  generation : Nat
  disposing : Bool
  closing : Bool
  handoffActive : Bool
  /-- What the watch channel holds. -/
  watched : PtyFleetSnapshot
  deriving Repr, DecidableEq

namespace PtyFleetState

variable (s : PtyFleetState) (id : String) (incarnation : Nat) (expectedGeneration : Nat)

def new : PtyFleetState where
  live := .empty
  creating := .empty
  restartPending := .empty
  generation := 1
  disposing := false
  closing := false
  handoffActive := false
  watched := ⟨1, 0, 0, 0, false, false, false⟩

def snapshot : PtyFleetSnapshot where
  generation := s.generation
  liveCount := s.live.size
  creatingCount := s.creating.size
  restartPendingCount := s.restartPending.size
  disposing := s.disposing
  closing := s.closing
  handoffActive := s.handoffActive

def isQuiescent : Bool := s.snapshot.isQuiescent

def publish : PtyFleetState :=
  let s := { s with generation := s.generation + 1 }
  { s with watched := s.snapshot }

/-! ## Sessions coming and going -/

def beginCreate : PtyFleetState × Except AppError Unit :=
  if s.handoffActive then
    (s, .error (.idleSuspendHandoffInProgress
      "Cannot create terminal while host suspend is in progress"))
  else if s.closing then (s, .error (.unavailable "PTY manager is shutting down"))
  else
    let creating := (s.creating.erase id).insert id incarnation
    ({ s with creating, restartPending := s.restartPending.erase id }.publish, .ok ())

def publishLive : PtyFleetState :=
  if s.creating.get? id = some incarnation then
    { s with creating := s.creating.erase id, live := s.live.insert id incarnation }.publish
  else if !s.live.contains id && !s.creating.contains id then
    -- no reservation: taken for a restored session
    { s with live := s.live.insert id incarnation }.publish
  else s

def cancelCreate : PtyFleetState :=
  if s.creating.get? id = some incarnation then
    { s with creating := s.creating.erase id }.publish
  else s

def transitionLiveToRestartPending : PtyFleetState :=
  if s.live.get? id = some incarnation then
    { s with
      live := s.live.erase id
      restartPending := s.restartPending.insert id incarnation }.publish
  else s

def removeLive : PtyFleetState :=
  if s.live.get? id = some incarnation then { s with live := s.live.erase id }.publish else s

def transitionRestartPendingToCreating (sourceIncarnation replacementIncarnation : Nat) :
    PtyFleetState × Except AppError Unit :=
  if s.handoffActive then
    (s, .error (.idleSuspendHandoffInProgress
      "Cannot restart terminal while host suspend is in progress"))
  else if s.closing then (s, .error (.unavailable "PTY manager is shutting down"))
  else if s.restartPending.get? id = some sourceIncarnation then
    ({ s with
      restartPending := s.restartPending.erase id
      creating := s.creating.insert id replacementIncarnation }.publish, .ok ())
  else
    -- the source is gone, the replacement is registered all the same
    ({ s with creating := s.creating.insert id replacementIncarnation }.publish, .ok ())

def cancelRestartPending : PtyFleetState :=
  if s.restartPending.get? id = some incarnation then
    { s with restartPending := s.restartPending.erase id }.publish
  else s

def removeAllForId : PtyFleetState :=
  if s.live.contains id || s.creating.contains id || s.restartPending.contains id then
    { s with
      live := s.live.erase id
      creating := s.creating.erase id
      restartPending := s.restartPending.erase id }.publish
  else s

/-! ## Flags and claims -/

def markDisposing (disposing : Bool) : PtyFleetState :=
  if s.disposing ≠ disposing then
    if disposing then
      { s with
        disposing := true, live := .empty, creating := .empty, restartPending := .empty }.publish
    else { s with disposing := false }.publish
  else s

def markClosing (closing : Bool) : PtyFleetState :=
  if s.closing ≠ closing then { s with closing }.publish else s

def checkClaimCommon : Except HandoffClaimError Unit :=
  if s.closing then .error .closing
  else if s.disposing then .error .disposing
  else if s.handoffActive then .error .handoffAlreadyActive
  else if s.generation ≠ expectedGeneration then
    .error (.generationMismatch expectedGeneration s.generation)
  else .ok ()

def granted : PtyFleetState := { s with handoffActive := true }.publish

/-- What the three claims share: the common checks, then a check of their own, then the
grant. -/
def claimAfter (check : Except HandoffClaimError Unit) :
    PtyFleetState × Except HandoffClaimError HandoffClaim :=
  match s.checkClaimCommon expectedGeneration, check with
  | .error error, _ => (s, .error error)
  | .ok (), .error error => (s, .error error)
  | .ok (), .ok () => (s.granted, .ok ⟨s.granted.generation⟩)

def tryClaimHandoff : PtyFleetState × Except HandoffClaimError HandoffClaim :=
  s.claimAfter expectedGeneration (if !s.isQuiescent then .error .notQuiescent else .ok ())

def tryClaimForcedHandoff : PtyFleetState × Except HandoffClaimError HandoffClaim :=
  s.claimAfter expectedGeneration (.ok ())

def tryClaimAgentHandoff : PtyFleetState × Except HandoffClaimError HandoffClaim :=
  s.claimAfter expectedGeneration
    (if s.creating.size ≠ 0 || s.restartPending.size ≠ 0 then .error .lifecycleBusy else .ok ())

def releaseHandoff : PtyFleetState :=
  if s.handoffActive then { s with handoffActive := false }.publish else s

end PtyFleetState

/-! ## Operations -/

inductive ClaimKind where
  | idle
  | forced
  | agent
  deriving Repr, DecidableEq

inductive FleetOp where
  | beginCreate (id : String) (incarnation : Nat)
  | publishLive (id : String) (incarnation : Nat)
  | cancelCreate (id : String) (incarnation : Nat)
  | transitionLiveToRestartPending (id : String) (incarnation : Nat)
  | removeLive (id : String) (incarnation : Nat)
  | transitionRestartPendingToCreating (id : String) (source replacement : Nat)
  | cancelRestartPending (id : String) (incarnation : Nat)
  | removeAllForId (id : String)
  | markDisposing (disposing : Bool)
  | markClosing (closing : Bool)
  | tryClaim (kind : ClaimKind) (expectedGeneration : Nat)
  | releaseHandoff
  deriving Repr, DecidableEq

namespace PtyFleetState

def tryClaim (s : PtyFleetState) : ClaimKind → Nat →
    PtyFleetState × Except HandoffClaimError HandoffClaim
  | .idle, expectedGeneration => s.tryClaimHandoff expectedGeneration
  | .forced, expectedGeneration => s.tryClaimForcedHandoff expectedGeneration
  | .agent, expectedGeneration => s.tryClaimAgentHandoff expectedGeneration

def step (s : PtyFleetState) : FleetOp → PtyFleetState
  | .beginCreate id incarnation => (s.beginCreate id incarnation).1
  | .publishLive id incarnation => s.publishLive id incarnation
  | .cancelCreate id incarnation => s.cancelCreate id incarnation
  | .transitionLiveToRestartPending id incarnation =>
    s.transitionLiveToRestartPending id incarnation
  | .removeLive id incarnation => s.removeLive id incarnation
  | .transitionRestartPendingToCreating id source replacement =>
    (s.transitionRestartPendingToCreating id source replacement).1
  | .cancelRestartPending id incarnation => s.cancelRestartPending id incarnation
  | .removeAllForId id => s.removeAllForId id
  | .markDisposing disposing => s.markDisposing disposing
  | .markClosing closing => s.markClosing closing
  | .tryClaim kind expectedGeneration => (s.tryClaim kind expectedGeneration).1
  | .releaseHandoff => s.releaseHandoff

end PtyFleetState

end DamHopper.Pty
