import DamHopper.Lib.AssocMap
import DamHopper.Lib.Runs

/-!
# ClientPresence — who is connected, and the fence against new connections

`idle_suspend/client_presence.rs`: a bounded registry of pending upgrades and
live connections under one lock, a revision that counts changes of membership, and
a fence (`host_suspending`) that turns new clients away. Every method takes the
lock for its whole body, so an interleaving of calls is a list of operations; the
clock reading a method takes under the lock is an argument of its operation.
Readings are nanoseconds.

The registry also owns the sender of a watch channel. `status` is the value that
channel holds, which `snapshot()` hands out; it is written by `publish` and by
nothing else.

`membership_revision` is a counter that is only ever increased by one; it is not
cut off at `u64::MAX` here. The digest of a capability secret is an argument of
the promotion, since the hash function itself plays no part. The methods that only
read (`is_connection_live`, `verify_decision_capability`,
`check_heartbeat_deadlines`) and the guards, which call `release_pending` and
`retire_live` when they are dropped, are left out.
-/

namespace DamHopper.IdleSuspend

def PENDING_UPGRADE_TIMEOUT : Nat := 30 * 1000000000

inductive PresenceAdmissionError where
  | capacityExceeded (current max : Nat)
  | hostSuspending
  | reservationExpired (reservationId : Nat)
  | duplicateConnection (connectionId : String)
  deriving Repr, DecidableEq

inductive PresenceClaimError where
  | revisionMismatch (expected actual : Nat)
  | liveConnectionsPresent (count : Nat)
  | pendingUpgradesPresent (count : Nat)
  | alreadySuspending
  | unavailable
  deriving Repr, DecidableEq

structure AuthenticatedActor where
  subject : String
  sessionId : Option String
  authVersion : Option Int
  credentialVersion : Option Int
  effectiveDeadline : Option Int
  deriving Repr, DecidableEq

structure PendingReservation where
  reservationId : Nat
  reservedAt : Nat
  actor : AuthenticatedActor
  deriving Repr, DecidableEq

structure LiveClientRecord where
  connectionId : String
  capabilityDigest : List UInt8
  subject : String
  sessionId : Option String
  authVersion : Option Int
  credentialVersion : Option Int
  effectiveDeadline : Option Int
  connectedAt : Nat
  lastLiveness : Nat
  closing : Bool
  deriving Repr, DecidableEq

structure PresenceStatus where
  connectionCount : Nat
  pendingUpgradeCount : Nat
  revision : Nat
  available : Bool
  deriving Repr, DecidableEq

structure RegistryInner where
  maxClients : Nat
  nextReservationId : Nat
  pending : AssocMap Nat PendingReservation
  live : AssocMap String LiveClientRecord
  membershipRevision : Nat
  hostSuspending : Bool
  deriving Repr, DecidableEq

structure ClientPresenceRegistry where
  inner : RegistryInner
  /-- What the watch channel holds. -/
  status : PresenceStatus
  deriving Repr, DecidableEq

def asU32 (n : Nat) : Nat := n % 2 ^ 32

namespace RegistryInner

def snapshotInner (inner : RegistryInner) : PresenceStatus where
  connectionCount := asU32 inner.live.size
  pendingUpgradeCount := asU32 inner.pending.size
  revision := inner.membershipRevision
  available := inner.pending.size + inner.live.size < inner.maxClients && !inner.hostSuspending

def fresh (now : Nat) (reservation : PendingReservation) : Bool :=
  now - reservation.reservedAt ≤ PENDING_UPGRADE_TIMEOUT

def unexpired (inner : RegistryInner) (now : Nat) : AssocMap Nat PendingReservation :=
  inner.pending.retain fun _ reservation => fresh now reservation

def bumped (inner : RegistryInner) : RegistryInner :=
  { inner with membershipRevision := inner.membershipRevision + 1 }

def pruneExpiredPendingInner (inner : RegistryInner) (now : Nat) : RegistryInner × Bool :=
  let before := inner.pending.size
  let inner := { inner with pending := inner.unexpired now }
  if inner.pending.size ≠ before then (inner.bumped, true) else (inner, false)

/-- `wrapping_add(1)`, with zero skipped. -/
def followingReservationId (id : Nat) : Nat :=
  if (id + 1) % 2 ^ 64 = 0 then 1 else (id + 1) % 2 ^ 64

end RegistryInner

def liveRecord (reservation : PendingReservation) (connectionId : String)
    (capabilityDigest : List UInt8) (now : Nat) : LiveClientRecord where
  connectionId := connectionId
  capabilityDigest := capabilityDigest
  subject := reservation.actor.subject
  sessionId := reservation.actor.sessionId
  authVersion := reservation.actor.authVersion
  credentialVersion := reservation.actor.credentialVersion
  effectiveDeadline := reservation.actor.effectiveDeadline
  connectedAt := now
  lastLiveness := now
  closing := false

/-- The tests of `try_claim_approved_client_fence` on the record it finds. -/
def LiveClientRecord.approves (record : LiveClientRecord) (actor : AuthenticatedActor)
    (utcNow : Int) : Bool :=
  !record.closing && record.subject = actor.subject && record.sessionId = actor.sessionId &&
    record.authVersion = actor.authVersion &&
    record.credentialVersion = actor.credentialVersion &&
    record.effectiveDeadline.all (utcNow < ·)

namespace ClientPresenceRegistry

variable (reg : ClientPresenceRegistry)

open RegistryInner

def withCapacity (maxClients : Nat) : ClientPresenceRegistry where
  inner :=
    { maxClients, nextReservationId := 1, pending := .empty, live := .empty
      membershipRevision := 0, hostSuspending := false }
  status :=
    { connectionCount := 0, pendingUpgradeCount := 0, revision := 0, available := true }

/-- Write the snapshot to the channel unless it holds a newer one. -/
def publish : ClientPresenceRegistry :=
  let snapshot := reg.inner.snapshotInner
  if reg.status.revision ≤ snapshot.revision then { reg with status := snapshot } else reg

def changed (inner : RegistryInner) : ClientPresenceRegistry :=
  publish { reg with inner := inner.bumped }

def pruned (now : Nat) : ClientPresenceRegistry :=
  { reg with inner := (reg.inner.pruneExpiredPendingInner now).1 }

def reservePendingUpgrade (actor : AuthenticatedActor) (now : Nat) :
    ClientPresenceRegistry × Except PresenceAdmissionError Nat :=
  let reg := reg.pruned now
  let inner := reg.inner
  if inner.hostSuspending then (reg, .error .hostSuspending)
  else
    let total := inner.pending.size + inner.live.size
    if inner.maxClients ≤ total then (reg, .error (.capacityExceeded total inner.maxClients))
    else
      let reservationId := inner.nextReservationId
      let inner :=
        { inner with
          nextReservationId := followingReservationId reservationId
          pending := inner.pending.insert reservationId ⟨reservationId, now, actor⟩ }
      (reg.changed inner, .ok reservationId)

def promotePendingToLive (reservationId : Nat) (connectionId : String)
    (capabilityDigest : List UInt8) (now : Nat) :
    ClientPresenceRegistry × Except PresenceAdmissionError String :=
  let reg := reg.pruned now
  let inner := reg.inner
  let removed := { inner with pending := inner.pending.erase reservationId }
  if inner.hostSuspending then
    (if inner.pending.contains reservationId then reg.changed removed else reg,
      .error .hostSuspending)
  else
    match inner.pending.get? reservationId with
    | none => (reg, .error (.reservationExpired reservationId))
    | some reservation =>
      if inner.live.contains connectionId then
        (reg.changed removed, .error (.duplicateConnection connectionId))
      else
        let record := liveRecord reservation connectionId capabilityDigest now
        (reg.changed { removed with live := removed.live.insert connectionId record },
          .ok connectionId)

def releasePending (reservationId : Nat) : ClientPresenceRegistry :=
  if reg.inner.pending.contains reservationId then
    reg.changed { reg.inner with pending := reg.inner.pending.erase reservationId }
  else reg

def recordPong (connectionId : String) (now : Nat) : ClientPresenceRegistry :=
  match reg.inner.live.get? connectionId with
  | some record =>
    let record := { record with lastLiveness := now }
    { reg with inner := { reg.inner with live := reg.inner.live.insert connectionId record } }
  | none => reg

def markClosing (connectionId : String) : ClientPresenceRegistry :=
  match reg.inner.live.get? connectionId with
  | some record =>
    if !record.closing then
      let record := { record with closing := true }
      reg.changed { reg.inner with live := reg.inner.live.insert connectionId record }
    else reg
  | none => reg

def retireLive (connectionId : String) : ClientPresenceRegistry :=
  if reg.inner.live.contains connectionId then
    reg.changed { reg.inner with live := reg.inner.live.erase connectionId }
  else reg

def pruneExpiredPending (now : Nat) : ClientPresenceRegistry × Nat :=
  let before := reg.inner.pending.size
  let (inner, removedAny) := reg.inner.pruneExpiredPendingInner now
  let reg := { reg with inner }
  if removedAny then (reg.publish, before - inner.pending.size) else (reg, 0)

def snapshot : PresenceStatus := reg.status

def setHostSuspending (suspending : Bool) : ClientPresenceRegistry :=
  if reg.inner.hostSuspending ≠ suspending then
    reg.changed { reg.inner with hostSuspending := suspending }
  else reg

def tryClaimNoClientFence (expectedRevision now : Nat) :
    ClientPresenceRegistry × Except PresenceClaimError Nat :=
  let reg := reg.pruned now
  let inner := reg.inner
  if inner.live.size ≠ 0 then (reg, .error (.liveConnectionsPresent (asU32 inner.live.size)))
  else if inner.pending.size ≠ 0 then
    (reg, .error (.pendingUpgradesPresent (asU32 inner.pending.size)))
  else if inner.maxClients ≤ inner.pending.size + inner.live.size then
    (reg, .error .unavailable)
  else if inner.hostSuspending then (reg, .error .alreadySuspending)
  else if inner.membershipRevision ≠ expectedRevision then
    (reg, .error (.revisionMismatch expectedRevision inner.membershipRevision))
  else
    let reg := reg.changed { inner with hostSuspending := true }
    (reg, .ok reg.inner.membershipRevision)

def tryClaimApprovedClientFence (connectionId : String) (expectedActor : AuthenticatedActor)
    (now : Nat) (utcNow : Int) : ClientPresenceRegistry × Except PresenceClaimError Nat :=
  let reg := reg.pruned now
  let inner := reg.inner
  if inner.hostSuspending then (reg, .error .alreadySuspending)
  else if (inner.live.get? connectionId).any (·.approves expectedActor utcNow) then
    let reg := reg.changed { inner with hostSuspending := true }
    (reg, .ok reg.inner.membershipRevision)
  else (reg, .error .unavailable)

end ClientPresenceRegistry

/-! ## Operations -/

inductive PresenceOp where
  | reservePendingUpgrade (actor : AuthenticatedActor) (now : Nat)
  | promotePendingToLive (reservationId : Nat) (connectionId : String)
      (capabilityDigest : List UInt8) (now : Nat)
  | releasePending (reservationId : Nat)
  | recordPong (connectionId : String) (now : Nat)
  | markClosing (connectionId : String)
  | retireLive (connectionId : String)
  | pruneExpiredPending (now : Nat)
  | setHostSuspending (suspending : Bool)
  | tryClaimNoClientFence (expectedRevision now : Nat)
  | tryClaimApprovedClientFence (connectionId : String) (expectedActor : AuthenticatedActor)
      (now : Nat) (utcNow : Int)
  deriving Repr, DecidableEq

namespace ClientPresenceRegistry

def step (reg : ClientPresenceRegistry) : PresenceOp → ClientPresenceRegistry
  | .reservePendingUpgrade actor now => (reg.reservePendingUpgrade actor now).1
  | .promotePendingToLive reservationId connectionId digest now =>
    (reg.promotePendingToLive reservationId connectionId digest now).1
  | .releasePending reservationId => reg.releasePending reservationId
  | .recordPong connectionId now => reg.recordPong connectionId now
  | .markClosing connectionId => reg.markClosing connectionId
  | .retireLive connectionId => reg.retireLive connectionId
  | .pruneExpiredPending now => (reg.pruneExpiredPending now).1
  | .setHostSuspending suspending => reg.setHostSuspending suspending
  | .tryClaimNoClientFence expectedRevision now =>
    (reg.tryClaimNoClientFence expectedRevision now).1
  | .tryClaimApprovedClientFence connectionId expectedActor now utcNow =>
    (reg.tryClaimApprovedClientFence connectionId expectedActor now utcNow).1

end ClientPresenceRegistry

end DamHopper.IdleSuspend
