import Mathlib.Algebra.Ring.Nat
import Mathlib.Data.List.Basic

/-!
# AgentStatus — Types

The data of `agent_status/types.rs` that the reducers and the registry read
and write, with the two validators they call. Rust's `u64` values are `Nat`
with the saturating addition written out; `Instant` readings are milliseconds
of the monotonic clock.

Left out: the fields of `PrivateHookEnvelope` and `ReporterHello` that no
reducer reads (`version` and `reason` of the envelope, `process_ancestry`,
`pid`), and the errors that only the collector and the hook ingress return.
-/

namespace DamHopper.AgentStatus

def U64_MAX : Nat := 2 ^ 64 - 1

def satAdd (a b : Nat) : Nat := min (a + b) U64_MAX

theorem lt_satAdd_one {a : Nat} (h : a < U64_MAX) : a < satAdd a 1 := by
  unfold satAdd
  omega

def AGENT_STATUS_PROTOCOL_VERSION : Nat := 1

/-- Maximum integer value safely representable in a JavaScript number. -/
def MAX_SAFE_INTEGER : Nat := 9007199254740991

def DEFAULT_LEASE_MS : Nat := 15000

def MAX_IDENTIFIER_LEN : Nat := 128

inductive AgentKind where
  | omp | codex | claude
  deriving Repr, DecidableEq

/-- Origin of the current status observation. -/
inductive AgentObservationSource where
  | lifecycle | hook
  deriving Repr, DecidableEq

inductive AgentState where
  | unknown | idle | working | blocked
  deriving Repr, DecidableEq

inductive BlockedReason where
  | approval | question | error
  deriving Repr, DecidableEq

inductive TurnOutcome where
  | ended | interrupted | error | unknown
  deriving Repr, DecidableEq

inductive ReporterEventKind where
  | snapshot | turnStarted | stateChanged | turnEnded | sessionChanged | heartbeat | release
  deriving Repr, DecidableEq

inductive AttentionKind where
  | turnEnded | needsAttention
  deriving Repr, DecidableEq

inductive AgentStatusAvailability where
  | ready | unavailable | platformUnqualified
  deriving Repr, DecidableEq

inductive AgentStatusError where
  | versionMismatch (expected actual : Nat)
  | safeIntegerOverflow (field : String) (value : Nat)
  | invalidIdentifier (message : String)
  | staleReporterEpoch (current got : Nat)
  | reporterOccupied (active : String)
  | conflictingDuplicateSequence (seq : Nat)
  | inconsistentEventState (event : ReporterEventKind) (state : AgentState)
  | missingTurnId
  | missingTurnStartId
  | missingTurnOutcome
  | unexpectedTurnOutcome (event : ReporterEventKind)
  | unexpectedBlockedReason (state : AgentState)
  | missingBlockedReason
  | authorityLost (message : String)
  deriving Repr, DecidableEq

/-- A process, told apart from later users of its pid by its start time. -/
structure ProcessIdentity where
  pid : Nat
  startTicks : Nat
  deriving Repr, DecidableEq

structure ReporterHello where
  version : Nat
  agentKind : AgentKind
  reporterId : String
  agentSessionId : String
  adapterVersion : String
  deriving Repr, DecidableEq

structure ReporterReport where
  kind : String
  seq : Nat
  event : ReporterEventKind
  state : AgentState
  agentSessionId : String
  turnId : Option String
  outcome : Option TurnOutcome
  blockedReason : Option BlockedReason
  deriving Repr, DecidableEq

structure PrivateHookEnvelope where
  agentKind : AgentKind
  adapterVersion : String
  eventId : String
  event : String
  agentSessionId : String
  turnId : Option String
  toolCallId : Option String
  notificationType : Option String
  rootProcess : ProcessIdentity
  deriving Repr, DecidableEq

structure TerminalAgentStatusRow where
  id : String
  incarnation : Nat
  agentKind : AgentKind
  agentSessionId : String
  reporterEpoch : Nat
  state : AgentState
  source : AgentObservationSource
  observedAtMs : Option Nat
  expiresAtMs : Option Nat
  reason : Option BlockedReason
  turnId : Option String
  attentionRevision : Nat
  lastOutcome : Option TurnOutcome
  deriving Repr, DecidableEq

structure AgentAttentionEvent where
  id : String
  kind : AttentionKind
  terminalId : String
  incarnation : Nat
  agentKind : AgentKind
  agentSessionId : String
  turnId : Option String
  reason : Option BlockedReason
  outcome : Option TurnOutcome
  attentionRevision : Nat
  timestampMs : Nat
  deriving Repr, DecidableEq

/-- Attention identifier scoped across server restarts and incarnations. -/
def AgentAttentionEvent.formatId (serverEpoch : Nat) (terminalId : String)
    (incarnation attentionRevision : Nat) : String :=
  toString serverEpoch ++ ":" ++ terminalId ++ ":" ++ toString incarnation ++ ":" ++
    toString attentionRevision

def validateSafeInteger (field : String) (value : Nat) : Except AgentStatusError Unit :=
  if value > MAX_SAFE_INTEGER then .error (.safeIntegerOverflow field value) else .ok ()

theorem validateSafeInteger_ok {field : String} {value : Nat} (h : value ≤ MAX_SAFE_INTEGER) :
    validateSafeInteger field value = .ok () :=
  if_neg (by omega)

theorem validateSafeInteger_error {field : String} {value : Nat} (h : MAX_SAFE_INTEGER < value) :
    validateSafeInteger field value = .error (.safeIntegerOverflow field value) :=
  if_pos h

/-- A raised counter is checked after the addition. -/
theorem satAdd_one_le_iff (a : Nat) : satAdd a 1 ≤ MAX_SAFE_INTEGER ↔ a < MAX_SAFE_INTEGER := by
  simp only [satAdd, U64_MAX, MAX_SAFE_INTEGER]
  omega

def isAsciiGraphic (c : Char) : Bool := 0x21 ≤ c.toNat && c.toNat ≤ 0x7E

def validateOpaqueId (fieldName s : String) : Except AgentStatusError Unit :=
  if s.isEmpty then .error (.invalidIdentifier (fieldName ++ " cannot be empty"))
  else if s.utf8ByteSize > MAX_IDENTIFIER_LEN then
    .error (.invalidIdentifier (fieldName ++ " exceeds max length of " ++
      toString MAX_IDENTIFIER_LEN ++ " (got " ++ toString s.utf8ByteSize ++ ")"))
  else if !s.toList.all isAsciiGraphic then
    .error (.invalidIdentifier
      (fieldName ++ " contains invalid characters (must be ASCII graphic)"))
  else .ok ()

/-! ## Hook events -/

/-- The event names the reducer matches on. -/
inductive HookEvent where
  | sessionStart | userPromptSubmit | preToolUse | permissionRequest | postToolUse
  | postToolUseFailure | preCompact | postCompact | notification | stop | stopFailure
  | interrupt | sessionEnd
  deriving Repr, DecidableEq

/-- The arm of `match envelope.event.as_str()` that a name selects. -/
def HookEvent.ofName : String → Option HookEvent
  | "SessionStart" => some .sessionStart
  | "UserPromptSubmit" => some .userPromptSubmit
  | "PreToolUse" => some .preToolUse
  | "PermissionRequest" => some .permissionRequest
  | "PostToolUse" => some .postToolUse
  | "PostToolUseFailure" => some .postToolUseFailure
  | "PreCompact" => some .preCompact
  | "PostCompact" => some .postCompact
  | "Notification" => some .notification
  | "Stop" => some .stop
  | "StopFailure" => some .stopFailure
  | "Interrupt" => some .interrupt
  | "SessionEnd" => some .sessionEnd
  | _ => none

def HookEvent.name : HookEvent → String
  | .sessionStart => "SessionStart"
  | .userPromptSubmit => "UserPromptSubmit"
  | .preToolUse => "PreToolUse"
  | .permissionRequest => "PermissionRequest"
  | .postToolUse => "PostToolUse"
  | .postToolUseFailure => "PostToolUseFailure"
  | .preCompact => "PreCompact"
  | .postCompact => "PostCompact"
  | .notification => "Notification"
  | .stop => "Stop"
  | .stopFailure => "StopFailure"
  | .interrupt => "Interrupt"
  | .sessionEnd => "SessionEnd"

theorem HookEvent.eq_name_of_ofName {s : String} {event : HookEvent}
    (h : HookEvent.ofName s = some event) : s = event.name := by
  unfold HookEvent.ofName at h
  split at h <;> cases h <;> rfl

def CODEX_QUALIFIED_EVENTS : List HookEvent :=
  [.sessionStart, .userPromptSubmit, .preToolUse, .permissionRequest, .postToolUse,
    .preCompact, .postCompact, .stop, .interrupt, .sessionEnd]

def CLAUDE_QUALIFIED_EVENTS : List HookEvent :=
  [.sessionStart, .userPromptSubmit, .preToolUse, .permissionRequest, .postToolUse,
    .postToolUseFailure, .preCompact, .postCompact, .notification, .stop, .stopFailure,
    .sessionEnd]

/-- The spellings that both providers' `normalize_*_event` accept. -/
def normalizeCommon : String → Option HookEvent
  | "SessionStart" | "session_start" | "session-start" => some .sessionStart
  | "UserPromptSubmit" | "user_prompt_submit" | "user-prompt-submit" =>
    some .userPromptSubmit
  | "PreToolUse" | "pre_tool_use" | "pre-tool-use" => some .preToolUse
  | "PermissionRequest" | "permission_request" | "permission-request" =>
    some .permissionRequest
  | "PostToolUse" | "post_tool_use" | "post-tool-use" => some .postToolUse
  | "PreCompact" | "pre_compact" | "pre-compact" => some .preCompact
  | "PostCompact" | "post_compact" | "post-compact" => some .postCompact
  | "Stop" | "stop" => some .stop
  | "SessionEnd" | "session_end" | "session-end" => some .sessionEnd
  | _ => none

/-- Canonicalize an event name and check it against the Codex inventory. -/
def normalizeCodexEvent (raw : String) : Option HookEvent :=
  let canonical : Option HookEvent := match raw with
    | "Interrupt" | "interrupt" => some .interrupt
    | raw => normalizeCommon raw
  canonical.filter (CODEX_QUALIFIED_EVENTS.contains ·)

/-- Canonicalize an event name and check it against the Claude inventory. -/
def normalizeClaudeEvent (raw : String) : Option HookEvent :=
  let canonical : Option HookEvent := match raw with
    | "PostToolUseFailure" | "post_tool_use_failure" | "post-tool-use-failure" =>
      some .postToolUseFailure
    | "Notification" | "notification" => some .notification
    | "StopFailure" | "stop_failure" | "stop-failure" => some .stopFailure
    | raw => normalizeCommon raw
  canonical.filter (CLAUDE_QUALIFIED_EVENTS.contains ·)

end DamHopper.AgentStatus
