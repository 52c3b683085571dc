import DamHopper.AgentStatus.Types
import DamHopper.Lib.BoundedQueue
import DamHopper.Lib.Checks

/-!
# AgentStatus — Reducer

`TerminalAgentReducer` of `agent_status/reducer.rs`: what one terminal knows
about the agent running in it, and the five operations on that knowledge.

A method that takes `&mut self` and returns a `Result` is a function that
returns the result together with the reducer it leaves behind: Rust keeps the
assignments made before an `Err`, and so does the model. `Instant::now()` is an
argument, a reading of the monotonic clock in milliseconds.

`apply_hook` is long in the source. Here its numbered sections are functions of
their own: the fences, the claim on the terminal (`claimOwner`), the session
switch, the qualification of the event, the event itself (`hookEvent`) and the
bookkeeping of an accepted event (`acceptHook`).
-/

namespace DamHopper.AgentStatus

structure ReducerOutput where
  stateChanged : Bool
  row : Option TerminalAgentStatusRow
  attention : Option AgentAttentionEvent
  deriving Repr, DecidableEq

def MAX_SEEN_EVENT_IDS : Nat := 512

def MAX_RETIRED_TURN_IDS : Nat := 128

def MAX_RETIRED_SESSION_IDS : Nat := 32

def MAX_RETIRED_ROOTS : Nat := 32

def MIN_FRESHNESS_UPDATE_INTERVAL_MS : Nat := 1000

def MAX_BLOCKED_TOOL_CALL_IDS : Nat := 32

structure TerminalAgentReducer where
  terminalId : String
  incarnation : Nat
  serverEpoch : Nat
  agentKind : AgentKind
  nativeRoot : Option ProcessIdentity
  verifiedProcess : Option ProcessIdentity
  reporterId : String
  reporterEpoch : Nat
  adapterVersion : String
  lastAcceptedSeq : Nat
  lastReport : Option ReporterReport
  reporterLeaseActive : Bool
  lastReportTimeMs : Nat
  observedAtMs : Option Nat
  lastReportInstant : Option Nat
  state : AgentState
  agentSessionId : String
  currentTurnId : Option String
  blockedReason : Option BlockedReason
  blockedToolCallIds : List String
  lastOutcome : Option TurnOutcome
  attentionRevision : Nat
  latestAttention : Option AgentAttentionEvent
  seenEventIds : List String
  retiredTurnIds : List String
  retiredSessionIds : List String
  retiredNativeRoots : List ProcessIdentity
  lastPublishedFreshnessMs : Nat
  deriving Repr, DecidableEq

namespace TerminalAgentReducer

variable (r : TerminalAgentReducer) (envelope : PrivateHookEnvelope) (reporterEpoch : Nat)
    (report : ReporterReport) (nowMs inst : Nat)

/-! ## Construction -/

def forReporter (serverEpoch : Nat) (terminalId : String)
    (incarnation reporterEpoch : Nat) (hello : ReporterHello) (nowMs inst : Nat) :
    TerminalAgentReducer where
  terminalId := terminalId
  incarnation := incarnation
  serverEpoch := serverEpoch
  agentKind := hello.agentKind
  nativeRoot := none
  verifiedProcess := none
  reporterId := hello.reporterId
  reporterEpoch := reporterEpoch
  adapterVersion := hello.adapterVersion
  lastAcceptedSeq := 0
  lastReport := none
  reporterLeaseActive := true
  lastReportTimeMs := nowMs
  observedAtMs := none
  lastReportInstant := some inst
  state := .unknown
  agentSessionId := hello.agentSessionId
  currentTurnId := none
  blockedReason := none
  blockedToolCallIds := []
  lastOutcome := none
  attentionRevision := 0
  latestAttention := none
  seenEventIds := []
  retiredTurnIds := []
  retiredSessionIds := []
  retiredNativeRoots := []
  lastPublishedFreshnessMs := nowMs

def new (serverEpoch : Nat) (terminalId : String) (incarnation reporterEpoch : Nat)
    (hello : ReporterHello) (nowMs inst : Nat) :
    Except AgentStatusError TerminalAgentReducer := do
  validateSafeInteger "server_epoch" serverEpoch
  validateSafeInteger "incarnation" incarnation
  validateSafeInteger "reporter_epoch" reporterEpoch
  require (hello.version = AGENT_STATUS_PROTOCOL_VERSION)
    (.versionMismatch AGENT_STATUS_PROTOCOL_VERSION hello.version)
  validateOpaqueId "terminal_id" terminalId
  validateOpaqueId "reporter_id" hello.reporterId
  validateOpaqueId "agent_session_id" hello.agentSessionId
  validateOpaqueId "adapter_version" hello.adapterVersion
  .ok (forReporter serverEpoch terminalId incarnation reporterEpoch hello nowMs inst)

def forHook (serverEpoch : Nat) (terminalId : String)
    (incarnation reporterEpoch : Nat) (envelope : PrivateHookEnvelope)
    (nowMs inst : Nat) : TerminalAgentReducer where
  terminalId := terminalId
  incarnation := incarnation
  serverEpoch := serverEpoch
  agentKind := envelope.agentKind
  nativeRoot := some envelope.rootProcess
  verifiedProcess := some envelope.rootProcess
  reporterId := "hook:" ++ envelope.agentSessionId
  reporterEpoch := reporterEpoch
  adapterVersion := envelope.adapterVersion
  lastAcceptedSeq := 0
  lastReport := none
  reporterLeaseActive := false
  lastReportTimeMs := nowMs
  observedAtMs := some nowMs
  lastReportInstant := some inst
  state := .unknown
  agentSessionId := envelope.agentSessionId
  currentTurnId := none
  blockedReason := none
  blockedToolCallIds := []
  lastOutcome := none
  attentionRevision := 0
  latestAttention := none
  seenEventIds := []
  retiredTurnIds := []
  retiredSessionIds := []
  retiredNativeRoots := []
  lastPublishedFreshnessMs := nowMs

def newForHook (serverEpoch : Nat) (terminalId : String)
    (incarnation reporterEpoch : Nat) (envelope : PrivateHookEnvelope)
    (nowMs inst : Nat) : Except AgentStatusError TerminalAgentReducer := do
  validateSafeInteger "server_epoch" serverEpoch
  validateSafeInteger "incarnation" incarnation
  validateSafeInteger "reporter_epoch" reporterEpoch
  validateOpaqueId "terminal_id" terminalId
  validateOpaqueId "agent_session_id" envelope.agentSessionId
  validateOpaqueId "adapter_version" envelope.adapterVersion
  .ok (forHook serverEpoch terminalId incarnation reporterEpoch envelope nowMs inst)

def toRow : TerminalAgentStatusRow :=
  { id := r.terminalId
    incarnation := r.incarnation
    agentKind := r.agentKind
    agentSessionId := r.agentSessionId
    reporterEpoch := r.reporterEpoch
    state := r.state
    source := if r.agentKind = .omp then .lifecycle else .hook
    observedAtMs := r.observedAtMs
    expiresAtMs :=
      if r.agentKind = .omp ∨ r.state = .unknown then none
      else r.observedAtMs.map fun observed => satAdd observed DEFAULT_LEASE_MS
    reason := r.blockedReason
    turnId := r.currentTurnId
    attentionRevision := r.attentionRevision
    lastOutcome := r.lastOutcome }

def unchanged : ReducerOutput :=
  { stateChanged := false, row := some r.toRow, attention := none }

def changed : ReducerOutput :=
  { stateChanged := true, row := some r.toRow, attention := none }

def isAuthoritative : Bool := r.state != .unknown

/-! ## Retirement -/

/-- `if let Some(turn) = self.current_turn_id.take()`: retire the current turn. -/
def retireCurrentTurn : TerminalAgentReducer :=
  { r with
    currentTurnId := none
    retiredTurnIds := match r.currentTurnId with
      | some turn => pushBounded MAX_RETIRED_TURN_IDS r.retiredTurnIds turn
      | none => r.retiredTurnIds }

def retireSessionIf (condition : Prop) [Decidable condition] : TerminalAgentReducer :=
  { r with
    retiredSessionIds :=
      if condition then
        pushBounded MAX_RETIRED_SESSION_IDS r.retiredSessionIds r.agentSessionId
      else r.retiredSessionIds }

/-- `if let Some(root) = self.native_root.take()`: retire the native root. -/
def retireRoot : TerminalAgentReducer :=
  { r with
    nativeRoot := none
    retiredNativeRoots := match r.nativeRoot with
      | some root => pushBounded MAX_RETIRED_ROOTS r.retiredNativeRoots root
      | none => r.retiredNativeRoots }

def releaseRoot : TerminalAgentReducer :=
  { r.retireRoot with
    verifiedProcess := if r.nativeRoot.isSome then none else r.verifiedProcess }

/-- Bump the attention counter and build the event that announces it. -/
def raiseAttention (kind : AttentionKind) (turnId : Option String) (reason : Option BlockedReason)
    (outcome : Option TurnOutcome) (nowMs : Nat) : TerminalAgentReducer × AgentAttentionEvent :=
  let r := { r with attentionRevision := satAdd r.attentionRevision 1 }
  (r,
    { id := AgentAttentionEvent.formatId r.serverEpoch r.terminalId r.incarnation
        r.attentionRevision
      kind, turnId, reason, outcome
      terminalId := r.terminalId
      incarnation := r.incarnation
      agentKind := r.agentKind
      agentSessionId := r.agentSessionId
      attentionRevision := r.attentionRevision
      timestampMs := nowMs })

/-! ## Native hooks -/

/-- Resolve tool blockers in `PreToolUse` and `PostToolUse` transitions. -/
def resolveToolBlocker (toolCallId : Option String) : TerminalAgentReducer :=
  if r.state = .blocked then
    if r.blockedToolCallIds ≠ [] then
      match toolCallId with
      | some toolId =>
        if toolId ∈ r.blockedToolCallIds then
          let ids := r.blockedToolCallIds.filter (· ≠ toolId)
          if ids = [] then
            { r with blockedToolCallIds := ids, state := .working, blockedReason := none }
          else { r with blockedToolCallIds := ids }
        else r -- an unrelated parallel tool: the blocker remains active
      | none =>
        { r with state := .unknown, blockedReason := none, blockedToolCallIds := [] }
    else if toolCallId.isSome then { r with state := .working, blockedReason := none }
    else { r with state := .unknown, blockedReason := none }
  else { r with state := .working, blockedReason := none }

/-- What the `match envelope.event` of `apply_hook` does: it returns without a
trace, it returns early with a change (a prompt it cannot order), or it runs
on to the common end. -/
inductive HookEffect where
  | ignored
  | ambiguous (next : TerminalAgentReducer)
  | accepted (next : TerminalAgentReducer) (attention : Option AgentAttentionEvent)
  deriving Repr, DecidableEq

/-- The guard `envelope.turn_id != self.current_turn_id || none`. -/
def onCurrentTurn (effect : HookEffect) : HookEffect :=
  if envelope.turnId ≠ r.currentTurnId ∨ r.currentTurnId = none then .ignored
  else effect

def sessionStart : HookEffect :=
  if r.currentTurnId.isSome then .ignored
  else
    .accepted { r with
      state := .unknown, blockedReason := none, blockedToolCallIds := []
      lastOutcome := none } none

/-- The end of `UserPromptSubmit`: the prompt opens a turn. -/
def beginTurn (turnId : String) : HookEffect :=
  .accepted { r with
    currentTurnId := some turnId, state := .working, blockedReason := none
    blockedToolCallIds := [], lastOutcome := none } none

def userPromptSubmit : HookEffect :=
  match envelope.turnId with
  | none => .ignored
  | some turnId =>
    if turnId ∈ r.retiredTurnIds then .ignored
    else
      match r.currentTurnId with
      | none => r.beginTurn turnId
      | some curTurn =>
        if curTurn = turnId then .ignored
        else if r.state = .working ∨ r.state = .blocked then
          -- receipt order cannot prove which of the two turns is newer
          .ambiguous { r with
            retiredTurnIds :=
              trimTo MAX_RETIRED_TURN_IDS (r.retiredTurnIds ++ [curTurn] ++ [turnId])
            currentTurnId := none, state := .unknown, blockedReason := none
            blockedToolCallIds := [], observedAtMs := none, latestAttention := none }
        else
          { r with
            retiredTurnIds :=
              trimTo MAX_RETIRED_TURN_IDS (r.retiredTurnIds ++ [curTurn]) }.beginTurn
            turnId

/-- `state = Unknown` with the blockers cleared: `PermissionRequest`, `Stop` and a
question candidate. -/
def toUnknown : TerminalAgentReducer :=
  { r with state := .unknown, blockedReason := none, blockedToolCallIds := [] }

def preToolUse : HookEffect :=
  if r.agentKind = .claude ∧ envelope.notificationType = some "question_candidate" then
    .accepted r.toUnknown none
  else .accepted (r.resolveToolBlocker envelope.toolCallId) none

def postToolUse : HookEffect :=
  .accepted (r.resolveToolBlocker envelope.toolCallId) none

/-- `PreCompact` and `PostCompact`. -/
def compact : HookEffect :=
  .accepted { r with state := .working, blockedReason := none } none

/-- Block for `reason` on the tool calls `ids`; attention is raised unless the
terminal was already blocked for that reason. -/
def block (reason : BlockedReason) (ids : List String) (nowMs : Nat) : HookEffect :=
  let next := { r with
    state := .blocked, blockedReason := some reason, blockedToolCallIds := ids }
  if r.state = .blocked ∧ r.blockedReason = some reason then .accepted next none
  else
    let raised :=
      next.raiseAttention .needsAttention next.currentTurnId (some reason) none nowMs
    .accepted raised.1 (some raised.2)

/-- `permission_prompt` keeps the newest `MAX_BLOCKED_TOOL_CALL_IDS` calls. -/
def permissionPrompt : HookEffect :=
  let ids := match envelope.toolCallId with
    | some toolId =>
      if toolId ∈ r.blockedToolCallIds then r.blockedToolCallIds
      else trimTo MAX_BLOCKED_TOOL_CALL_IDS (r.blockedToolCallIds ++ [toolId])
    | none => r.blockedToolCallIds
  r.block .approval ids nowMs

/-- `agent_needs_input` has no such bound. -/
def agentNeedsInput : HookEffect :=
  let ids := match envelope.toolCallId with
    | some toolId =>
      if toolId ∈ r.blockedToolCallIds then r.blockedToolCallIds
      else r.blockedToolCallIds ++ [toolId]
    | none => r.blockedToolCallIds
  r.block .question ids nowMs

def notification : HookEffect :=
  if envelope.notificationType = some "permission_prompt" then
    r.permissionPrompt envelope nowMs
  else if envelope.notificationType = some "agent_needs_input" then
    r.agentNeedsInput envelope nowMs
  else .ignored

def stopFailure : HookEffect :=
  r.block .error [] nowMs

def interrupt : HookEffect :=
  .accepted { r.retireCurrentTurn with
    state := .idle, lastOutcome := some .interrupted, blockedReason := none
    blockedToolCallIds := [] } none

def sessionEnd : HookEffect :=
  .accepted { r.releaseRoot.retireCurrentTurn.retireSessionIf True with
    state := .unknown, blockedReason := none, blockedToolCallIds := []
    lastOutcome := none, latestAttention := none, observedAtMs := none } none

/-- The `match envelope.event.as_str()` of `apply_hook`. -/
def hookEvent : HookEffect :=
  match HookEvent.ofName envelope.event with
  | some .sessionStart => r.sessionStart
  | some .userPromptSubmit => r.userPromptSubmit envelope
  | some .preToolUse => r.onCurrentTurn envelope (r.preToolUse envelope)
  | some .postToolUse | some .postToolUseFailure =>
    r.onCurrentTurn envelope (r.postToolUse envelope)
  | some .preCompact | some .postCompact => r.onCurrentTurn envelope r.compact
  | some .permissionRequest => r.onCurrentTurn envelope (.accepted r.toUnknown none)
  | some .notification =>
    if r.agentKind ≠ .claude then .ignored
    else r.onCurrentTurn envelope (r.notification envelope nowMs)
  | some .stopFailure =>
    if r.agentKind ≠ .claude then .ignored
    else r.onCurrentTurn envelope (r.stopFailure nowMs)
  | some .interrupt =>
    if r.agentKind ≠ .codex then .ignored else r.onCurrentTurn envelope r.interrupt
  | some .stop => r.onCurrentTurn envelope (.accepted r.toUnknown none)
  | some .sessionEnd => r.sessionEnd
  | none => .ignored

/-- `is_qualifying_baseline` -/
def qualifyingBaseline : Bool :=
  HookEvent.ofName envelope.event = some .sessionStart ||
    HookEvent.ofName envelope.event = some .userPromptSubmit && envelope.turnId.isSome

/-- What section 3 of `apply_hook` makes of the terminal's owner. -/
inductive Claim where
  | refused (error : AgentStatusError)
  | ignored
  | granted (next : TerminalAgentReducer)
  deriving Repr, DecidableEq

def ownerMismatch : AgentStatusError :=
  .authorityLost "native root claim does not match terminal owner"

def installOwner : TerminalAgentReducer :=
  { r with
    retiredTurnIds := []
    nativeRoot := some envelope.rootProcess
    verifiedProcess := some envelope.rootProcess
    agentKind := envelope.agentKind
    agentSessionId := envelope.agentSessionId
    currentTurnId := none
    state := .unknown
    blockedReason := none
    blockedToolCallIds := []
    lastOutcome := none }

/-- The prior process is proven exited and the callback is a qualifying
baseline: retire the prior root, session and turn, and install the new owner. -/
def replaceOwner : TerminalAgentReducer :=
  let r := r.retireRoot.retireCurrentTurn.retireSessionIf
    (r.agentSessionId ≠ "" ∧ r.agentSessionId ≠ envelope.agentSessionId)
  { r.installOwner envelope with reporterId := "hook:" ++ envelope.agentSessionId }

def claimOwner (priorExited : Bool) : Claim :=
  match r.nativeRoot with
  | some existingRoot =>
    if existingRoot = envelope.rootProcess then
      if r.agentKind ≠ envelope.agentKind then .refused ownerMismatch else .granted r
    else if priorExited && qualifyingBaseline envelope then
      .granted (r.replaceOwner envelope)
    else .refused ownerMismatch
  | none =>
    if qualifyingBaseline envelope then .granted (r.installOwner envelope) else .ignored

def recordSeen : TerminalAgentReducer :=
  { r with seenEventIds := pushBounded MAX_SEEN_EVENT_IDS r.seenEventIds envelope.eventId }

/-- A startup baseline with no active turn establishes a new session on the
same live root. -/
def switchSession : TerminalAgentReducer :=
  { r.retireSessionIf (r.agentSessionId ≠ "") with
    retiredTurnIds := []
    agentSessionId := envelope.agentSessionId
    currentTurnId := none
    blockedReason := none
    blockedToolCallIds := []
    lastOutcome := none
    latestAttention := none
    state := .unknown
    lastReportTimeMs := nowMs
    observedAtMs := some nowMs
    lastReportInstant := some inst
    lastAcceptedSeq := satAdd r.lastAcceptedSeq 1
    lastPublishedFreshnessMs := nowMs }

/-- Section 4 of `apply_hook`: is the event in the provider's inventory? -/
def qualifyEvent (kind : AgentKind) (event : String) : Except AgentStatusError Bool :=
  match kind with
  | .codex => .ok (normalizeCodexEvent event).isSome
  | .claude => .ok (normalizeClaudeEvent event).isSome
  | .omp => .error (.authorityLost "unsupported agent kind for hook ingress")

/-- The common end of an accepted hook; `old` is the reducer before the event. -/
def acceptHook (old r : TerminalAgentReducer) (attention : Option AgentAttentionEvent)
    (nowMs inst : Nat) : ReducerOutput × TerminalAgentReducer :=
  let r := { r with
    lastAcceptedSeq := satAdd r.lastAcceptedSeq 1
    lastReportTimeMs := nowMs
    observedAtMs := r.nativeRoot.map fun _ => nowMs
    lastReportInstant := some inst
    latestAttention := if attention.isSome then attention else r.latestAttention }
  let semanticChanged :=
    old.state != r.state || old.blockedReason != r.blockedReason ||
      old.currentTurnId != r.currentTurnId || old.lastOutcome != r.lastOutcome ||
      attention.isSome
  let stateChanged :=
    semanticChanged ||
      (r.state != .unknown &&
        nowMs - r.lastPublishedFreshnessMs ≥ MIN_FRESHNESS_UPDATE_INTERVAL_MS)
  let r := { r with
    lastPublishedFreshnessMs :=
      if stateChanged then nowMs else r.lastPublishedFreshnessMs }
  ({ stateChanged, row := some r.toRow, attention }, r)

/-- `apply_hook_with_prior_exited` from section 4 on: the envelope speaks for the
established session. -/
def applyQualified : Except AgentStatusError ReducerOutput × TerminalAgentReducer :=
  match qualifyEvent r.agentKind envelope.event with
  | .error error => (.error error, r)
  | .ok false => (.ok r.unchanged, r)
  | .ok true =>
    match r.hookEvent envelope nowMs with
    | .ignored => (.ok r.unchanged, r)
    | .ambiguous next => (.ok next.changed, next)
    | .accepted next attention =>
      let accepted := acceptHook r next attention nowMs inst
      (.ok accepted.1, accepted.2)

/-- `apply_hook_with_prior_exited` once the owner is settled. -/
def applyClaimed : Except AgentStatusError ReducerOutput × TerminalAgentReducer :=
  let r := r.recordSeen envelope
  if r.agentSessionId ≠ envelope.agentSessionId then
    if HookEvent.ofName envelope.event ≠ some .sessionStart ∨ r.currentTurnId.isSome then
      (.ok r.unchanged, r)
    else
      let r := r.switchSession envelope nowMs inst
      (.ok r.changed, r)
  else r.applyQualified envelope nowMs inst

/-- A callback from a retired root, with a known event id, or from a retired
session. -/
def fenced : Bool :=
  envelope.rootProcess ∈ r.retiredNativeRoots || envelope.eventId ∈ r.seenEventIds ||
    envelope.agentSessionId ∈ r.retiredSessionIds

def applyHookWithPriorExited (priorExited : Bool) :
    Except AgentStatusError ReducerOutput × TerminalAgentReducer :=
  if r.fenced envelope then (.ok r.unchanged, r)
  else
    match r.claimOwner envelope priorExited with
    | .refused error => (.error error, r)
    | .ignored => (.ok r.unchanged, r)
    | .granted next => next.applyClaimed envelope nowMs inst

def applyHook : Except AgentStatusError ReducerOutput × TerminalAgentReducer :=
  r.applyHookWithPriorExited envelope nowMs inst false

/-! ## The reporter connection -/

/-- An incoming OMP reporter evicts and retires any native owner. -/
def evictNativeOwner : TerminalAgentReducer :=
  r.releaseRoot.retireCurrentTurn.retireSessionIf (r.agentSessionId ≠ "")

def checkReconnect (hello : ReporterHello) : Except AgentStatusError Unit := do
  validateSafeInteger "reporter_epoch" reporterEpoch
  require (hello.version = AGENT_STATUS_PROTOCOL_VERSION)
    (.versionMismatch AGENT_STATUS_PROTOCOL_VERSION hello.version)
  require (r.reporterEpoch < reporterEpoch)
    (.staleReporterEpoch r.reporterEpoch reporterEpoch)
  validateOpaqueId "reporter_id" hello.reporterId
  validateOpaqueId "agent_session_id" hello.agentSessionId
  validateOpaqueId "adapter_version" hello.adapterVersion
  -- an OMP takeover is not asked whether a native owner is authoritative
  require (r.agentKind ≠ .omp ∧ hello.agentKind = .omp ∨
      ¬ (r.isAuthoritative ∧ r.reporterId ≠ hello.reporterId))
    (.reporterOccupied r.reporterId)

def reconnect (hello : ReporterHello) (nowMs inst : Nat) :
    Except AgentStatusError Bool × TerminalAgentReducer :=
  match r.checkReconnect reporterEpoch hello with
  | .error error => (.error error, r)
  | .ok () =>
    let r := if r.agentKind ≠ .omp ∧ hello.agentKind = .omp then r.evictNativeOwner else r
    (.ok true, { r with
      agentKind := hello.agentKind
      reporterId := hello.reporterId
      reporterEpoch := reporterEpoch
      adapterVersion := hello.adapterVersion
      lastAcceptedSeq := 0
      lastReport := none
      reporterLeaseActive := true
      lastReportTimeMs := nowMs
      observedAtMs := none
      lastReportInstant := some inst
      agentSessionId := hello.agentSessionId
      state := .unknown
      currentTurnId := none
      blockedReason := none
      latestAttention := none
      lastOutcome := none })

/-- A blocked state has a reason, any other state has none. -/
def checkBlockedReason : Except AgentStatusError Unit := do
  require (¬ (report.state = .blocked ∧ report.blockedReason = none)) .missingBlockedReason
  require (¬ (report.state ≠ .blocked ∧ report.blockedReason ≠ none))
    (.unexpectedBlockedReason report.state)

def checkNoBlockedReason : Except AgentStatusError Unit :=
  require (report.blockedReason = none) (.unexpectedBlockedReason report.state)

def checkNoOutcome : Except AgentStatusError Unit :=
  require (report.outcome = none) (.unexpectedTurnOutcome report.event)

def checkState (state : AgentState) : Except AgentStatusError Unit :=
  require (report.state = state) (.inconsistentEventState report.event report.state)

def checkOutcome : Except AgentStatusError Unit :=
  match report.outcome with
  | none => .error .missingTurnOutcome
  | some .ended | some .interrupted => checkState report .idle
  | some .error => checkState report .blocked
  | some .unknown => checkState report .unknown

/-- The combinations of state, outcome and blocked reason an event may come with. -/
def checkEvent : Except AgentStatusError Unit :=
  match report.event with
  | .turnStarted => do
      checkState report .working
      require (report.turnId ≠ none) .missingTurnStartId
      checkNoOutcome report
      checkNoBlockedReason report
  | .turnEnded => do
      require (report.turnId ≠ none) .missingTurnId
      checkOutcome report
  | .stateChanged => do
      checkNoOutcome report
      checkBlockedReason report
  | .snapshot => checkBlockedReason report
  | .heartbeat => do
      checkNoOutcome report
      checkBlockedReason report
  | .release => do
      checkState report .unknown
      checkNoOutcome report
      checkNoBlockedReason report
  | .sessionChanged => do
      checkNoOutcome report
      checkBlockedReason report

def validateReportConsistency : Except AgentStatusError Unit := do
  require (report.kind = "report")
    (.invalidIdentifier ("expected report kind 'report', got '" ++ report.kind ++ "'"))
  checkEvent report

/-- The sequence fence: `false` for a stale report or an identical duplicate. -/
def sequenceFence : Except AgentStatusError Bool :=
  match r.lastReport with
  | none => .ok true
  | some last =>
    if report.seq < r.lastAcceptedSeq then .ok false
    else if report.seq = r.lastAcceptedSeq then
      if last = report then .ok false
      else .error (.conflictingDuplicateSequence report.seq)
    else .ok true

def validateTurnId : Option String → Except AgentStatusError Unit
  | some turnId => validateOpaqueId "turn_id" turnId
  | none => .ok ()

/-- The payload checks; the reporter protocol is OMP-only. -/
def validateReport : Except AgentStatusError Unit := do
  validateOpaqueId "agent_session_id" report.agentSessionId
  validateTurnId report.turnId
  validateReportConsistency report
  require (r.agentKind = .omp)
    (.authorityLost "native hook events require private hook admission")

/-- The checks of `apply_report` that come before it changes anything: `false`
for a report that is ignored. -/
def admitReport : Except AgentStatusError Bool := do
  require (reporterEpoch = r.reporterEpoch)
    (.staleReporterEpoch r.reporterEpoch reporterEpoch)
  require (r.reporterLeaseActive ∧ nowMs - r.lastReportTimeMs < DEFAULT_LEASE_MS)
    (.authorityLost "reporter lease is no longer active")
  validateSafeInteger "seq" report.seq
  let fresh ← r.sequenceFence report
  if fresh then (r.validateReport report).map fun _ => true else .ok false

/-- Raise attention from a report; the counter is checked after the bump. -/
def raiseReported (kind : AttentionKind) (turnId : Option String) (reason : Option BlockedReason)
    (outcome : Option TurnOutcome) (nowMs : Nat) :
    Except AgentStatusError (Option AgentAttentionEvent) × TerminalAgentReducer :=
  let raised := r.raiseAttention kind turnId reason outcome nowMs
  match validateSafeInteger "attention_revision" raised.1.attentionRevision with
  | .error error => (.error error, raised.1)
  | .ok () => (.ok (some raised.2), { raised.1 with latestAttention := some raised.2 })

def reportStateChanged :
    Except AgentStatusError (Option AgentAttentionEvent) × TerminalAgentReducer :=
  if report.state = .blocked then
    let next := { r with state := .blocked, blockedReason := report.blockedReason }
    -- a change of the blocker while blocked does not notify again
    if r.state = .blocked then (.ok none, next)
    else
      next.raiseReported .needsAttention next.currentTurnId next.blockedReason none nowMs
  else (.ok none, { r with state := report.state, blockedReason := none })

/-- `ReporterEventKind::TurnEnded` -/
def reportTurnEnded : Except AgentStatusError (Option AgentAttentionEvent) × TerminalAgentReducer :=
  match report.outcome with
  | none => (.error .missingTurnOutcome, r)
  | some outcome =>
    let matchesTurn := r.currentTurnId.isSome && r.currentTurnId = report.turnId
    let r := { r with currentTurnId := none, lastOutcome := some outcome }
    match outcome with
    | .ended =>
      let r := { r with state := .idle, blockedReason := none }
      if matchesTurn then
        r.raiseReported .turnEnded report.turnId none (some .ended) nowMs
      else (.ok none, r)
    | .interrupted => (.ok none, { r with state := .idle, blockedReason := none })
    | .error =>
      let r := { r with state := .blocked, blockedReason := some .error }
      if matchesTurn then
        r.raiseReported .needsAttention report.turnId (some .error) (some .error) nowMs
      else (.ok none, r)
    | .unknown => (.ok none, { r with state := .unknown, blockedReason := none })

def reportEvent : Except AgentStatusError (Option AgentAttentionEvent) × TerminalAgentReducer :=
  match report.event with
  | .snapshot =>
    (.ok none, { r with
      agentSessionId := report.agentSessionId, state := report.state
      blockedReason := report.blockedReason, currentTurnId := report.turnId
      lastOutcome := report.outcome })
  | .sessionChanged =>
    (.ok none, { r with
      agentSessionId := report.agentSessionId, currentTurnId := none
      blockedReason := report.blockedReason, state := report.state
      lastOutcome := none })
  | .turnStarted =>
    if r.currentTurnId = report.turnId ∧ r.state = .working then (.ok none, r)
    else
      (.ok none, { r with
        currentTurnId := report.turnId, state := .working, blockedReason := none
        lastOutcome := none })
  | .stateChanged => r.reportStateChanged report nowMs
  | .turnEnded => r.reportTurnEnded report nowMs
  | .heartbeat =>
    if r.state ≠ report.state then
      (.ok none, { r with state := report.state, blockedReason := report.blockedReason })
    else (.ok none, r)
  | .release =>
    (.ok none, { r with
      state := .unknown, blockedReason := none, currentTurnId := none })

def recordReport : TerminalAgentReducer :=
  { r with
    lastAcceptedSeq := report.seq, lastReport := some report
    lastReportTimeMs := nowMs, lastReportInstant := some inst }

def applyReport : Except AgentStatusError ReducerOutput × TerminalAgentReducer :=
  match r.admitReport reporterEpoch report nowMs with
  | .error error => (.error error, r)
  | .ok false => (.ok r.unchanged, r)
  | .ok true =>
    let old := r.recordReport report nowMs inst
    match old.reportEvent report nowMs with
    | (.error error, next) => (.error error, next)
    | (.ok attention, next) =>
      let stateChanged :=
        next.state != old.state || next.blockedReason != old.blockedReason ||
          next.currentTurnId != old.currentTurnId ||
          next.agentSessionId != old.agentSessionId ||
          next.lastOutcome != old.lastOutcome
      let next := { next with
        observedAtMs := if stateChanged then some nowMs else next.observedAtMs }
      (.ok { stateChanged, row := some next.toRow, attention }, next)

/-! ## Losing authority -/

/-- `mark_unknown` retires a native owner without touching `verified_process`. -/
def retireNativeOwner : TerminalAgentReducer :=
  r.retireRoot.retireCurrentTurn.retireSessionIf (r.agentSessionId ≠ "")

def markUnknown : ReducerOutput × TerminalAgentReducer :=
  let stateChanged :=
    r.state != .unknown || r.blockedReason.isSome || r.currentTurnId.isSome ||
      r.observedAtMs.isSome || r.reporterLeaseActive
  let next := if r.agentKind ≠ .omp then r.retireNativeOwner else r
  let next := { next with
    reporterLeaseActive := false
    state := .unknown
    blockedReason := none
    currentTurnId := none
    observedAtMs := none
    latestAttention := none
    lastOutcome := none }
  ({ stateChanged, row := some next.toRow, attention := none }, next)

def hasEvidence : Bool :=
  r.reporterLeaseActive || r.observedAtMs.isSome || r.currentTurnId.isSome

/-- Milliseconds since the last report, by the later of the two clocks. -/
def elapsedMs : Nat :=
  match r.lastReportInstant with
  | some reported => max ((inst - reported) % 2 ^ 64) (nowMs - r.lastReportTimeMs)
  | none => nowMs - r.lastReportTimeMs

def leaseExpired (leaseMs inst : Nat) : Bool :=
  r.hasEvidence && leaseMs ≤ r.elapsedMs nowMs inst

/-- Expiry retires native turn evidence, not the still-live process or session. -/
def expireNativeTurn : TerminalAgentReducer :=
  { r.retireCurrentTurn with
    state := .unknown
    blockedReason := none
    blockedToolCallIds := []
    lastOutcome := none
    latestAttention := none
    observedAtMs := none }

def checkLease (leaseMs inst : Nat) : Option ReducerOutput × TerminalAgentReducer :=
  if r.leaseExpired nowMs leaseMs inst then
    if r.agentKind = .omp then (some r.markUnknown.1, r.markUnknown.2)
    else (some r.expireNativeTurn.changed, r.expireNativeTurn)
  else (none, r)

/-! ## Runs -/

inductive Op where
  | applyHook (envelope : PrivateHookEnvelope) (nowMs inst : Nat) (priorExited : Bool)
  | applyReport (reporterEpoch : Nat) (report : ReporterReport) (nowMs inst : Nat)
  | reconnect (reporterEpoch : Nat) (hello : ReporterHello) (nowMs inst : Nat)
  | markUnknown
  | checkLease (nowMs leaseMs inst : Nat)
  deriving Repr, DecidableEq

def step : Op → TerminalAgentReducer
  | .applyHook envelope nowMs inst priorExited =>
    (r.applyHookWithPriorExited envelope nowMs inst priorExited).2
  | .applyReport reporterEpoch report nowMs inst =>
    (r.applyReport reporterEpoch report nowMs inst).2
  | .reconnect reporterEpoch hello nowMs inst =>
    (r.reconnect reporterEpoch hello nowMs inst).2
  | .markUnknown => r.markUnknown.2
  | .checkLease nowMs leaseMs inst => (r.checkLease nowMs leaseMs inst).2

/-- A reducer as one of the two constructors makes it. -/
inductive Started : TerminalAgentReducer → Prop
  | new {serverEpoch terminalId incarnation reporterEpoch hello nowMs inst r} :
      new serverEpoch terminalId incarnation reporterEpoch hello nowMs inst = .ok r →
      Started r
  | newForHook {serverEpoch terminalId incarnation reporterEpoch envelope nowMs inst r} :
      newForHook serverEpoch terminalId incarnation reporterEpoch envelope nowMs inst
        = .ok r → Started r

end TerminalAgentReducer

end DamHopper.AgentStatus
