import DamHopper.AgentStatus.Types
import DamHopper.Lib.AssocMap
import DamHopper.Lib.Runs

/-!
# SessionChanges — the store

`session_changes/store.rs`: for each session of a terminal a record of the files it has
touched, with the bytes a file had before the first touch. The bytes of all records count
against one limit, through the counter `allocatedStorageBytes`; each record keeps the
amount it holds in `retainedBytes`.

A key names a session; a new registration under the same key is a new record with a new
baseline id. The lifecycle has a generation, so that a request that was admitted before
tracking was switched off does not go on after it is on again.

Of a record the fields that only the comparison and the status read (`comparison`, `state`,
`reason`, the settled turns) are left out, and so are the launch targets of terminals.
-/

namespace DamHopper.SessionChanges

open AgentStatus (satAdd)

def MAX_RETAINED_IDENTITIES : Nat := 32

def MAX_PATHS_PER_SESSION : Nat := 500

def MAX_PATH_BYTES : Nat := 4096

def MAX_PATH_DEPTH : Nat := 64

def MAX_GLOBAL_STORAGE_BYTES : Nat := 64 * 1024 * 1024

inductive CoverageReason where
  | absenceUnknown | provenanceLimit | rootLimit | inventoryLimit | pathLimit | byteLimit
  | fileTooLarge | binary | nonUtf8 | unreadable | unstable | symlink | gitlink | nestedRoot
  | specialFile | deadline | capacity | textLimit | diffLimit | targetUnavailable
  deriving Repr, DecidableEq

def CoverageReason.debug : CoverageReason → String
  | absenceUnknown => "AbsenceUnknown"
  | provenanceLimit => "ProvenanceLimit"
  | rootLimit => "RootLimit"
  | inventoryLimit => "InventoryLimit"
  | pathLimit => "PathLimit"
  | byteLimit => "ByteLimit"
  | fileTooLarge => "FileTooLarge"
  | binary => "Binary"
  | nonUtf8 => "NonUtf8"
  | unreadable => "Unreadable"
  | unstable => "Unstable"
  | symlink => "Symlink"
  | gitlink => "Gitlink"
  | nestedRoot => "NestedRoot"
  | specialFile => "SpecialFile"
  | deadline => "Deadline"
  | capacity => "Capacity"
  | textLimit => "TextLimit"
  | diffLimit => "DiffLimit"
  | targetUnavailable => "TargetUnavailable"

inductive Presence where
  | present | absent | unknown
  deriving Repr, DecidableEq

inductive Provenance where
  | captured | absentAtFirstTouch | excludedAtCapture | unproven
  deriving Repr, DecidableEq

inductive FileContentKind where
  | text | binary | unsupported | unknown
  deriving Repr, DecidableEq

inductive ErrorCode where
  | trackingDisabled
  | invalidRequest
  | incarnationMismatch
  | rootMismatch
  | targetUnavailable
  | baselineMissing
  | serverRestarted
  | capacity
  | deadline
  deriving Repr, DecidableEq

structure SessionChangesKey where
  terminalId : String
  terminalIncarnation : String
  ompSessionId : String
  rootId : String
  deriving Repr, DecidableEq

/-- A path is reserved for the request that first names it, until its probe is adopted or
given up. The time is in nanoseconds. -/
inductive CaptureReservationState where
  | pending (captureId : String) (reservedAt : Nat)
  | sealed
  deriving Repr, DecidableEq

structure TrackedPathEntry where
  fileId : String
  path : String
  presence : Presence
  provenance : Provenance
  sizeBytes : Nat
  sha256 : Option String
  mode : Option Nat
  kind : FileContentKind
  bytes : Option (List UInt8)
  reasons : List CoverageReason
  reservation : CaptureReservationState
  lastCaptureId : Option String
  acknowledged : Bool
  deriving Repr, DecidableEq

structure SessionChangesRecord where
  baselineId : String
  ompSessionId : String
  rootId : String
  canonicalRoot : String
  generation : Nat
  createdAtMs : Nat
  capturedAtMs : Nat
  trackedPaths : AssocMap String TrackedPathEntry
  retainedBytes : Nat
  comparisonRevision : Nat
  captureGeneration : Nat
  deriving Repr, DecidableEq

structure LifecycleState where
  enabled : Bool
  generation : Nat
  deriving Repr, DecidableEq

structure SessionChangesService where
  serverEpoch : String
  lifecycle : LifecycleState
  allocatedStorageBytes : Nat
  records : AssocMap SessionChangesKey SessionChangesRecord
  deriving Repr, DecidableEq

namespace SessionChangesService

def new (serverEpoch : String) : SessionChangesService :=
  ⟨serverEpoch, ⟨false, 0⟩, 0, .empty⟩

def nextGeneration (generation : Nat) : Nat := (generation + 1) % 2 ^ 64

def enable (service : SessionChangesService) : SessionChangesService :=
  if service.lifecycle.enabled then service
  else { service with lifecycle := ⟨true, nextGeneration service.lifecycle.generation⟩ }

/-- `disable_and_purge` up to the end of the records' lock; the lifecycle stays locked. -/
def clearRecords (service : SessionChangesService) : SessionChangesService :=
  { service with
    lifecycle := ⟨false, nextGeneration service.lifecycle.generation⟩
    records := .empty }

/-- The rest of `disable_and_purge`: the counter is reset without the records' lock. -/
def resetStorage (service : SessionChangesService) : SessionChangesService :=
  { service with allocatedStorageBytes := 0 }

end SessionChangesService

def tryReserveStorage (allocated bytes : Nat) : Except ErrorCode Nat :=
  if MAX_GLOBAL_STORAGE_BYTES < satAdd allocated bytes then .error .capacity
  else .ok (allocated + bytes)

def releaseStorage (allocated bytes : Nat) : Nat := allocated - bytes

theorem tryReserveStorage_eq_ok {allocated bytes next : Nat}
    (h : tryReserveStorage allocated bytes = .ok next) :
    next = allocated + bytes ∧ allocated + bytes ≤ MAX_GLOBAL_STORAGE_BYTES := by
  unfold tryReserveStorage at h
  split at h
  · cases h
  rename_i hfits
  refine ⟨(Except.ok.inj h).symm, ?_⟩
  have hbelow : MAX_GLOBAL_STORAGE_BYTES < AgentStatus.U64_MAX := by decide
  unfold satAdd at hfits
  omega

namespace SessionChangesService

def removeRecord (service : SessionChangesService) (key : SessionChangesKey) :
    SessionChangesService :=
  match service.records.get? key with
  | none => service
  | some record =>
    { service with
      allocatedStorageBytes := releaseStorage service.allocatedStorageBytes record.retainedBytes
      records := service.records.erase key }

def keysToRemove (service : SessionChangesService) (terminalId terminalIncarnation : String) :
    List SessionChangesKey :=
  service.records.keys.filter fun key =>
    key.terminalId = terminalId ∧ key.terminalIncarnation = terminalIncarnation

def removeTerminalRecords (service : SessionChangesService)
    (terminalId terminalIncarnation : String) : SessionChangesService :=
  run removeRecord service (service.keysToRemove terminalId terminalIncarnation)

/-- What `removeRecord` subtracts, each time with the number it subtracts from. -/
def removeReleases (service : SessionChangesService) (key : SessionChangesKey) :
    List (Nat × Nat) :=
  match service.records.get? key with
  | none => []
  | some record => [(service.allocatedStorageBytes, record.retainedBytes)]

/-! ## Which records are removed -/

variable {service : SessionChangesService} {key other : SessionChangesKey}

theorem get?_removeRecord : (service.removeRecord key).records.get? other =
      if other = key then none else service.records.get? other := by
  unfold removeRecord
  split
  next hnone =>
    split_ifs with heq
    · rw [heq, hnone]
    · rfl
  · exact AssocMap.get?_erase

theorem get?_run_removeRecord {keys : List SessionChangesKey} :
    (run removeRecord service keys).records.get? other =
      if other ∈ keys then none else service.records.get? other := by
  induction keys generalizing service with
  | nil => simp
  | cons key keys ih =>
    rw [run_cons, ih, get?_removeRecord]
    by_cases hhead : other = key <;> simp [hhead]

theorem get?_removeTerminalRecords {terminalId terminalIncarnation : String} :
    (service.removeTerminalRecords terminalId terminalIncarnation).records.get? key =
      if key.terminalId = terminalId ∧ key.terminalIncarnation = terminalIncarnation then none
      else service.records.get? key := by
  rw [removeTerminalRecords, get?_run_removeRecord]
  cases hget : service.records.get? key with
  | none => simp
  | some record =>
    have hkey : key ∈ service.records.keys := AssocMap.mem_keys_iff.mpr ⟨record, hget⟩
    simp [keysToRemove, hkey]

end SessionChangesService

end DamHopper.SessionChanges
