import DamHopper.Lib.Checks
import DamHopper.SessionChanges.Store

/-!
# SessionChanges — registration and capture

`session_changes/capture.rs`, cut where the locks are released. A capture request takes
the locks up to three times: `admitCapture` looks whether the record is there and carries
the baseline the request names; `handlePaths` goes through the paths, in one of two modes;
and after each probe of a file `adoptProbe` stores what was found. An `Unproven` request
ends with the second of these, a `PreEdit` request goes on with the paths it has reserved.

What a probe finds, the readings of the clock and the ids drawn for files are arguments.
The texts of paths are those of Unix.
-/

namespace DamHopper.SessionChanges

def CAPTURE_TIMEOUT_DEADLINE : Nat := 1500 * 1000000

/-! ## Paths -/

inductive Component where
  | curDir
  | parentDir
  | normal (name : List Char)
  deriving Repr, DecidableEq

/-- The component a piece between slashes stands for; empty pieces and dots stand for none. -/
def component (piece : List Char) : Option Component :=
  if piece = [] ∨ piece = ['.'] then none
  else if piece = ['.', '.'] then some .parentDir
  else some (.normal piece)

/-- `Path::components` of a path that does not start with a slash: a dot counts only at the
front. -/
def components (path : List Char) : List Component :=
  match path.splitOn '/' with
  | [] => []
  | first :: rest =>
    (if first = ['.'] then [.curDir] else (component first).toList) ++ rest.filterMap component

/-- The names of the components, if each is a name and none is `.git`. -/
def normalNames : List Component → Except CoverageReason (List (List Char))
  | [] => .ok []
  | .normal name :: rest =>
    if name = ['.', 'g', 'i', 't'] then .error .nestedRoot
    else do
      let names ← normalNames rest
      .ok (name :: names)
  | .curDir :: _ | .parentDir :: _ => .error .pathLimit

def normalizeAndValidatePath (relPath : String) : Except CoverageReason String :=
  let chars := relPath.toList
  if chars = [] ∨ MAX_PATH_BYTES < relPath.utf8ByteSize ∨ '\x00' ∈ chars then .error .pathLimit
  else if '*' ∈ chars ∨ '?' ∈ chars then .error .pathLimit
  else if chars.head? = some '/' ∨ chars.head? = some '\\' then .error .pathLimit
  else do
    let normalized ← normalNames (components chars)
    if normalized = [] ∨ MAX_PATH_DEPTH < normalized.length then .error .pathLimit
    else .ok (String.ofList (List.intercalate ['/'] normalized))

def isValidCanonicalDecimalString (s : String) : Bool :=
  let chars := s.toList
  !chars.isEmpty && !(decide (1 < chars.length) && chars.head? == some '0') &&
    chars.all Char.isDigit

/-! ## Registration -/

structure RegisterRequest where
  version : Nat
  ompSessionId : String
  rootId : String
  deriving Repr, DecidableEq

structure RegisterResponse where
  serverEpoch : String
  terminalIncarnation : String
  ompSessionId : String
  rootId : String
  baselineId : String
  canonicalRoot : String
  deriving Repr, DecidableEq

inductive RootPreflightError where
  | invalidRootId
  | rootEscapesProject
  | gitMarkerMissing
  | budgetExhausted
  | targetUnavailable
  | io
  deriving Repr, DecidableEq

def RootPreflightError.code : RootPreflightError → ErrorCode
  | .invalidRootId => .invalidRequest
  | .rootEscapesProject => .rootMismatch
  | .gitMarkerMissing => .targetUnavailable
  | .budgetExhausted => .deadline
  | .targetUnavailable => .targetUnavailable
  | .io => .targetUnavailable

def SessionChangesRecord.fresh (baselineId ompSessionId rootId canonicalRoot : String)
    (generation nowMs : Nat) : SessionChangesRecord where
  baselineId
  ompSessionId
  rootId
  canonicalRoot
  generation
  createdAtMs := nowMs
  capturedAtMs := nowMs
  trackedPaths := .empty
  retainedBytes := 0
  comparisonRevision := 0
  captureGeneration := 0

namespace SessionChangesService

variable (service : SessionChangesService)

def checkGeneration (generation : Nat) : Except ErrorCode Unit :=
  require (service.lifecycle.enabled = true ∧ service.lifecycle.generation = generation)
    .trackingDisabled

/-- The checks of `register_session` before it takes the locks: the generation and the
root it goes on with. -/
def beginRegister (terminalIncarnation : String) (req : RegisterRequest)
    (preflight : Except RootPreflightError String) : Except ErrorCode (Nat × String) := do
  require (service.lifecycle.enabled = true) .trackingDisabled
  require (req.version = 1) .invalidRequest
  require (isValidCanonicalDecimalString terminalIncarnation = true) .incarnationMismatch
  let canonicalRoot ← preflight.mapError RootPreflightError.code
  .ok (service.lifecycle.generation, canonicalRoot)

def addRecord (key : SessionChangesKey) (record : SessionChangesRecord) : SessionChangesService :=
  { service with records := service.records.insert key record }

/-- The rest of `register_session`, under the locks: the baseline id that is answered and
the records. `uuid` is the id that a new record gets. -/
def finishRegister (key : SessionChangesKey) (generation : Nat) (canonicalRoot uuid : String)
    (nowMs : Nat) (rootOpened : Bool) :
    Except ErrorCode (RegisterResponse × SessionChangesService) := do
  service.checkGeneration generation
  match service.records.get? key with
  | some existing =>
    .ok (⟨service.serverEpoch, key.terminalIncarnation, key.ompSessionId, key.rootId,
      existing.baselineId, existing.canonicalRoot⟩, service)
  | none => do
      require (service.records.size < MAX_RETAINED_IDENTITIES) .capacity
      require (rootOpened = true) .targetUnavailable
      let record := SessionChangesRecord.fresh uuid key.ompSessionId key.rootId canonicalRoot
        generation nowMs
      .ok (⟨service.serverEpoch, key.terminalIncarnation, key.ompSessionId, key.rootId, uuid,
        canonicalRoot⟩, service.addRecord key record)

end SessionChangesService

/-! ## Capture: requests and answers -/

inductive CaptureMode where
  | preEdit | unproven
  deriving Repr, DecidableEq

structure CaptureRequest where
  version : Nat
  serverEpoch : String
  terminalIncarnation : String
  ompSessionId : String
  rootId : String
  baselineId : String
  captureId : String
  paths : List String
  mode : CaptureMode
  deriving Repr, DecidableEq

inductive PathCaptureStatus where
  | captured | alreadyKnown | unknown | unproven
  deriving Repr, DecidableEq

inductive PathPresence where
  | present | absentAtFirstTouch | unknown
  deriving Repr, DecidableEq

structure PathCaptureDisposition where
  path : String
  fileId : Option String
  status : PathCaptureStatus
  presence : Option PathPresence
  reason : Option String
  deriving Repr, DecidableEq

structure CaptureResponse where
  version : Nat
  captureId : String
  results : List PathCaptureDisposition
  deriving Repr, DecidableEq

def Presence.pathPresence : Presence → PathPresence
  | .present => .present
  | .absent => .absentAtFirstTouch
  | .unknown => .unknown

def PathCaptureDisposition.unknown (path : String) (fileId : Option String) (reason : String) :
    PathCaptureDisposition :=
  ⟨path, fileId, .unknown, some .unknown, some reason⟩

inductive ProbeResult where
  | present (bytes : List UInt8) (sizeBytes : Nat) (sha256 : String) (mode : Option Nat)
      (kind : FileContentKind)
  | absentAtFirstTouch
  | unknown (reason : CoverageReason)
  | excluded (reason : CoverageReason)
  deriving Repr, DecidableEq

namespace TrackedPathEntry

variable (entry : TrackedPathEntry)

def inserted (path fileId captureId : String) (reasons : List CoverageReason)
    (reservation : CaptureReservationState) : TrackedPathEntry where
  fileId
  path
  presence := .unknown
  provenance := .unproven
  sizeBytes := 0
  sha256 := none
  mode := none
  kind := .unknown
  bytes := none
  reasons
  reservation
  lastCaptureId := some captureId
  acknowledged := false

/-- The entry is given up: nothing is known about the path, and nothing will be. -/
def invalidated : TrackedPathEntry :=
  { entry with
    presence := .unknown, provenance := .unproven, reservation := .sealed, acknowledged := false }

/-- As `invalidated`, and the bytes are dropped. -/
def downgraded : TrackedPathEntry :=
  { entry with
    bytes := none, sizeBytes := 0, presence := .unknown, provenance := .unproven,
    reservation := .sealed, acknowledged := false }

def captured (bytes : List UInt8) (sizeBytes : Nat) (sha256 : String) (mode : Option Nat)
    (kind : FileContentKind) : TrackedPathEntry :=
  { entry with
    presence := .present, provenance := .captured, sizeBytes, sha256 := some sha256, mode, kind,
    bytes := some bytes, reasons := [], reservation := .sealed, acknowledged := true }

def absent : TrackedPathEntry :=
  { entry with
    presence := .absent, provenance := .absentAtFirstTouch, sizeBytes := 0, bytes := none,
    reasons := [], reservation := .sealed, acknowledged := true }

def unprobed (provenance : Provenance) (reason : CoverageReason) : TrackedPathEntry :=
  { entry with
    presence := .unknown, provenance, reasons := entry.reasons ++ [reason],
    reservation := .sealed, acknowledged := false }

end TrackedPathEntry

/-! ## Capture: the paths of a request -/

/-- What is at hand while the locks are held: the counter, the record, the answers so far
and the paths to probe, with their file ids. -/
structure PathScope where
  allocated : Nat
  record : SessionChangesRecord
  results : List PathCaptureDisposition
  pathsToProbe : List (String × String)
  deriving Repr, DecidableEq

namespace PathScope

variable (scope : PathScope)

def answer (result : PathCaptureDisposition) : PathScope :=
  { scope with results := scope.results ++ [result] }

/-- Write an entry; each write that matters counts up the capture generation. -/
def write (path : String) (entry : TrackedPathEntry) : PathScope :=
  { scope with
    record := { scope.record with
      trackedPaths := scope.record.trackedPaths.insert path entry
      captureGeneration := scope.record.captureGeneration + 1 } }

def release (entry : TrackedPathEntry) : PathScope :=
  if entry.bytes.isSome then
    { scope with
      allocated := releaseStorage scope.allocated entry.sizeBytes
      record := { scope.record with
        retainedBytes := scope.record.retainedBytes - entry.sizeBytes } }
  else scope

/-- An attempt turned out unproven: its bytes are released. -/
def downgrade (path : String) (entry : TrackedPathEntry) : PathScope :=
  let scope := (scope.release entry).write path entry.downgraded
  { scope with
    record := { scope.record with comparisonRevision := scope.record.comparisonRevision + 1 } }

def reserve (path fileId captureId : String) (now : Nat) : PathScope :=
  { scope.write path (.inserted path fileId captureId [] (.pending captureId now)) with
    pathsToProbe := scope.pathsToProbe ++ [(path, fileId)] }

/-- The body of the loop of an `Unproven` request. -/
def unprovenPath (captureId : String) (newFileId : String → String) (scope : PathScope)
    (rawPath : String) : PathScope :=
  match normalizeAndValidatePath rawPath with
  | .error _ => scope.answer (.unknown rawPath none "invalidPath")
  | .ok path =>
    match scope.record.trackedPaths.get? path with
    | some entry =>
      (if entry.lastCaptureId = some captureId then scope.downgrade path entry
        else scope).answer
        ⟨path, some entry.fileId, .unproven, some .unknown, some "unproven"⟩
    | none =>
      if scope.record.trackedPaths.size < MAX_PATHS_PER_SESSION then
        let fileId := newFileId path
        (scope.write path (.inserted path fileId captureId [.absenceUnknown] .sealed)).answer
          ⟨path, some fileId, .unproven, some .unknown, some "unproven"⟩
      else scope.answer (.unknown path none "pathLimit")

/-- The body of the loop of a `PreEdit` request: a path that is not tracked is reserved, one
that is reserved is given up. -/
def reservePath (captureId : String) (newFileId : String → String) (now : String → Nat)
    (scope : PathScope) (rawPath : String) : PathScope :=
  match normalizeAndValidatePath rawPath with
  | .error _ => scope.answer (.unknown rawPath none "invalidPath")
  | .ok path =>
    match scope.record.trackedPaths.get? path with
    | some existing =>
      if existing.acknowledged then
        scope.answer ⟨path, some existing.fileId, .alreadyKnown,
          some existing.presence.pathPresence, none⟩
      else
        (scope.write path existing.invalidated).answer
          (.unknown path (some existing.fileId) "concurrentConflictInvalidated")
    | none =>
      if MAX_PATHS_PER_SESSION ≤ scope.record.trackedPaths.size then
        scope.answer (.unknown path none "pathLimit")
      else scope.reserve path (newFileId path) captureId (now path)

/-- What one path of a request does, in either mode. -/
def handlePath (req : CaptureRequest) (newFileId : String → String) (now : String → Nat)
    (scope : PathScope) (rawPath : String) : PathScope :=
  match req.mode with
  | .unproven => scope.unprovenPath req.captureId newFileId rawPath
  | .preEdit => scope.reservePath req.captureId newFileId now rawPath

def handlePaths (req : CaptureRequest) (newFileId : String → String) (now : String → Nat)
    (scope : PathScope) : PathScope :=
  run (handlePath req newFileId now) scope req.paths

/-- What `handlePath` subtracts, each time with the number it subtracts from. -/
def pathReleases (req : CaptureRequest) (scope : PathScope) (rawPath : String) :
    List (Nat × Nat) :=
  match req.mode, normalizeAndValidatePath rawPath with
  | .unproven, .ok path =>
    match scope.record.trackedPaths.get? path with
    | some entry =>
      if entry.lastCaptureId = some req.captureId ∧ entry.bytes.isSome then
        [(scope.allocated, entry.sizeBytes), (scope.record.retainedBytes, entry.sizeBytes)]
      else []
    | none => []
  | _, _ => []

def keep (path fileId : String) (entry : TrackedPathEntry) (allocated sizeBytes : Nat) :
    PathScope :=
  let scope := (scope.write path entry).answer
    ⟨path, some fileId, .captured, some .present, none⟩
  { scope with
    allocated
    record := { scope.record with retainedBytes := scope.record.retainedBytes + sizeBytes } }

def storeProbe (path fileId : String) (entry : TrackedPathEntry) : ProbeResult → PathScope
  | .present bytes sizeBytes sha256 mode kind =>
    match tryReserveStorage scope.allocated sizeBytes with
    | .ok allocated =>
      scope.keep path fileId (entry.captured bytes sizeBytes sha256 mode kind) allocated
        sizeBytes
    | .error _ =>
      (scope.write path (entry.unprobed .unproven .capacity)).answer
        (.unknown path (some fileId) "capacity")
  | .absentAtFirstTouch =>
    (scope.write path entry.absent).answer
      ⟨path, some fileId, .captured, some .absentAtFirstTouch, none⟩
  | .unknown reason =>
    (scope.write path (entry.unprobed .unproven reason)).answer
      (.unknown path (some fileId) reason.debug)
  | .excluded reason =>
    (scope.write path (entry.unprobed .excludedAtCapture reason)).answer
      (.unknown path (some fileId) reason.debug)

/-- The end of a probe: it counts if the reservation is still that of the request and young
enough. -/
def adoptProbe (captureId : String) (now : Nat) (probe : ProbeResult) (path fileId : String)
    (scope : PathScope) : PathScope :=
  match scope.record.trackedPaths.get? path with
  | none => scope
  | some entry =>
    match entry.reservation with
    | .sealed =>
      scope.answer ⟨path, some fileId, .unknown, some entry.presence.pathPresence,
        some "timeoutOrReplaced"⟩
    | .pending reservedBy reservedAt =>
      if CAPTURE_TIMEOUT_DEADLINE < now - reservedAt then
        (scope.write path entry.invalidated).answer
          (.unknown path (some fileId) "timeoutOrReplaced")
      else if reservedBy = captureId then scope.storeProbe path fileId entry probe
      else
        scope.answer ⟨path, some fileId, .unknown, some entry.presence.pathPresence,
          some "timeoutOrReplaced"⟩

end PathScope

/-! ## Capture: the scopes -/

namespace SessionChangesService

variable (service : SessionChangesService) (key : SessionChangesKey) (generation : Nat)

/-- The checks of `capture_session_paths` before it takes the records' lock: the
generation it goes on with. -/
def beginCapture (terminalIncarnation : String) (req : CaptureRequest) : Except ErrorCode Nat := do
  require (service.lifecycle.enabled = true) .trackingDisabled
  require (req.version = 1) .invalidRequest
  require (req.serverEpoch = service.serverEpoch) .serverRestarted
  require (isValidCanonicalDecimalString terminalIncarnation = true) .incarnationMismatch
  require (req.terminalIncarnation = terminalIncarnation) .incarnationMismatch
  .ok service.lifecycle.generation

def findRecord : Except ErrorCode SessionChangesRecord := do
  service.checkGeneration generation
  expect (service.records.get? key) .baselineMissing

def findBaseline (baselineId : String) : Except ErrorCode SessionChangesRecord := do
  let record ← service.findRecord key generation
  require (record.baselineId = baselineId) .baselineMissing
  .ok record

def openScope (record : SessionChangesRecord) (results : List PathCaptureDisposition) : PathScope :=
  ⟨service.allocatedStorageBytes, record, results, []⟩

def closeScope (scope : PathScope) : SessionChangesService :=
  { service with
    allocatedStorageBytes := scope.allocated
    records := service.records.insert key scope.record }

def admitCapture (req : CaptureRequest) : Except ErrorCode Unit := do
  let _ ← service.findBaseline key generation req.baselineId
  .ok ()

def proceedCapture (req : CaptureRequest) (newFileId : String → String) (now : String → Nat) :
    Except ErrorCode PathScope := do
  let record ← service.findRecord key generation
  .ok ((service.openScope record []).handlePaths req newFileId now)

def adoptCapture (req : CaptureRequest) (path fileId : String)
    (results : List PathCaptureDisposition) (probe : ProbeResult) (now : Nat) :
    Except ErrorCode PathScope := do
  let record ← service.findBaseline key generation req.baselineId
  .ok ((service.openScope record results).adoptProbe req.captureId now probe path fileId)

end SessionChangesService

end DamHopper.SessionChanges
