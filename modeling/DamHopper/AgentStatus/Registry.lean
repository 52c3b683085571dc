import DamHopper.AgentStatus.Reducer
import DamHopper.Lib.AssocMap

/-!
# AgentStatus — Registry

`AgentStatusRegistry` of `agent_status/reducer.rs`: the reducers of all
terminals, the snapshot revision clients compare, and the counter the host-sleep
fence compares. The terminals are a finite map from terminal id and
incarnation; the order of Rust's `BTreeMap` shows only in the order of
outputs, which nothing here depends on.

As with the reducers, an operation returns its result together with the registry
it leaves behind, also when the result is an error.
-/

namespace DamHopper.AgentStatus

/-- Off-lock process-exit evidence is valid only for this exact native owner. -/
structure NativeOwner where
  root : ProcessIdentity
  generation : Nat
  deriving Repr, DecidableEq

structure AgentStatusRemovedPayload where
  serverEpoch : Nat
  revision : Nat
  terminalId : String
  incarnation : Nat
  deriving Repr, DecidableEq

structure AgentStatusRegistry where
  serverEpoch : Nat
  revision : Nat
  availability : AgentStatusAvailability
  terminals : AssocMap (String × Nat) TerminalAgentReducer
  nextReporterEpoch : Nat
  nonFreeGeneration : Nat

namespace AgentStatusRegistry

variable (reg : AgentStatusRegistry) (terminalId : String) (incarnation : Nat)

def new (serverEpoch : Nat) (availability : AgentStatusAvailability) :
    AgentStatusRegistry :=
  { serverEpoch, availability, revision := 1, terminals := .empty
    nextReporterEpoch := 0, nonFreeGeneration := 1 }

/-- `advance_revision()?` at the end of an operation that returns `value`: the
revision is checked after it has been raised. -/
def advanceRevision {α : Type} (reg : AgentStatusRegistry) (value : α) :
    Except AgentStatusError α × AgentStatusRegistry :=
  let reg := { reg with revision := satAdd reg.revision 1 }
  ((validateSafeInteger "revision" reg.revision).map fun _ => value, reg)

/-- `advance_revision()?` if `changed`. -/
def advanceIf {α : Type} (reg : AgentStatusRegistry) (changed : Bool) (value : α) :
    Except AgentStatusError α × AgentStatusRegistry :=
  if changed then reg.advanceRevision value else (.ok value, reg)

def bumpNonFree : AgentStatusRegistry :=
  { reg with nonFreeGeneration := satAdd reg.nonFreeGeneration 1 }

def bumpNonFreeIf (condition : Bool) : AgentStatusRegistry :=
  if condition then reg.bumpNonFree else reg

def put (key : String × Nat) (r : TerminalAgentReducer) : AgentStatusRegistry :=
  { reg with terminals := reg.terminals.insert key r }

/-- The state moved into or out of `Working` or `Unknown`. -/
def transitioned (old new : AgentState) : Bool :=
  old != new &&
    (old == .working || new == .working || old == .unknown || new == .unknown)

def admitReporterWithProcess (hello : ReporterHello) (verifiedProcess : Option ProcessIdentity)
    (nowMs inst : Nat) : Except AgentStatusError TerminalAgentStatusRow × AgentStatusRegistry :=
  let reporterEpoch := satAdd reg.nextReporterEpoch 1
  match validateSafeInteger "reporter_epoch" reporterEpoch with
  | .error error => (.error error, reg)
  | .ok () =>
    let reg := { reg with nextReporterEpoch := reporterEpoch }
    match reg.terminals.get? (terminalId, incarnation) with
    | some existing =>
      match existing.reconnect reporterEpoch hello nowMs inst with
      | (.error error, existing) =>
        (.error error, reg.put (terminalId, incarnation) existing)
      | (.ok changed, existing) =>
        let existing := { existing with verifiedProcess }
        (reg.put (terminalId, incarnation) existing).bumpNonFree.advanceIf changed
          existing.toRow
    | none =>
      match TerminalAgentReducer.new reg.serverEpoch terminalId incarnation
          reporterEpoch hello nowMs inst with
      | .error error => (.error error, reg)
      | .ok reducer =>
        let reducer := { reducer with verifiedProcess }
        let inserted := reg.put (terminalId, incarnation) reducer
        match inserted.advanceRevision reducer.toRow with
        | (.error error, reg) => (.error error, reg)
        | (.ok row, reg) => (.ok row, reg.bumpNonFree)

def terminalNotFound : AgentStatusError := .authorityLost "terminal not found"

def applyReport (reporterEpoch : Nat) (report : ReporterReport) (nowMs inst : Nat) :
    Except AgentStatusError ReducerOutput × AgentStatusRegistry :=
  match reg.terminals.get? (terminalId, incarnation) with
  | none => (.error terminalNotFound, reg)
  | some reducer =>
    match reducer.applyReport reporterEpoch report nowMs inst with
    | (.error error, next) => (.error error, reg.put (terminalId, incarnation) next)
    | (.ok output, next) =>
      ((reg.put (terminalId, incarnation) next).bumpNonFreeIf
        (transitioned reducer.state next.state)).advanceIf output.stateChanged output

def getNativeOwner : Option NativeOwner :=
  (reg.terminals.get? (terminalId, incarnation)).bind fun reducer =>
    reducer.nativeRoot.map fun root => { root, generation := reducer.reporterEpoch }

/-- A change of the native root starts a new owner generation. -/
def settleOwner (existing : TerminalAgentReducer)
    (candidateGeneration : Nat) : TerminalAgentReducer :=
  { existing with
    reporterEpoch := candidateGeneration
    reporterLeaseActive := false
    latestAttention := none }

def applyHookExisting (key : String × Nat) (existing : TerminalAgentReducer)
    (envelope : PrivateHookEnvelope) (candidateGeneration nowMs leaseInst inst : Nat)
    (priorExited : Bool) : Except AgentStatusError ReducerOutput × AgentStatusRegistry :=
  let (expired, leased) := existing.checkLease nowMs DEFAULT_LEASE_MS leaseInst
  match leased.applyHookWithPriorExited envelope nowMs inst priorExited with
  | (.error error, next) => (.error error, reg.put key next)
  | (.ok output, next) =>
    let output := { output with stateChanged := output.stateChanged || expired.isSome }
    if next.nativeRoot ≠ existing.nativeRoot then
      let settled := settleOwner next candidateGeneration
      let output := { output with row := some settled.toRow, stateChanged := true }
      (({ reg with nextReporterEpoch := candidateGeneration }.put key
        settled).bumpNonFreeIf (transitioned existing.state settled.state)).advanceIf
        output.stateChanged output
    else
      ((reg.put key next).bumpNonFreeIf
        (transitioned existing.state next.state)).advanceIf output.stateChanged output

/-- The hook of an unknown terminal: only a baseline may claim it. -/
def applyHookNew (envelope : PrivateHookEnvelope) (candidateGeneration nowMs newInst inst : Nat)
    (priorExited : Bool) : Except AgentStatusError ReducerOutput × AgentStatusRegistry :=
  if !TerminalAgentReducer.qualifyingBaseline envelope then
    (.ok { stateChanged := false, row := none, attention := none }, reg)
  else
    match TerminalAgentReducer.newForHook reg.serverEpoch terminalId incarnation
        candidateGeneration envelope nowMs newInst with
    | .error error => (.error error, reg)
    | .ok reducer =>
      match reducer.applyHookWithPriorExited envelope nowMs inst priorExited with
      | (.error error, _) => (.error error, reg)
      | (.ok output, reducer) =>
        let output := { output with stateChanged := true }
        ({ reg with nextReporterEpoch := candidateGeneration }.put
          (terminalId, incarnation) reducer).bumpNonFree.advanceRevision output

/-- Apply a native hook event with proof that the prior root process has exited.
`leaseInst` and `inst` are the two readings of the monotonic clock. -/
def applyHookWithPriorExited (envelope : PrivateHookEnvelope) (nowMs leaseInst inst : Nat)
    (exitedOwner : Option NativeOwner) :
    Except AgentStatusError ReducerOutput × AgentStatusRegistry :=
  if exitedOwner.isSome && reg.getNativeOwner terminalId incarnation ≠ exitedOwner then
    (.error (.authorityLost "native owner changed while checking process exit"), reg)
  else
    let candidateGeneration := satAdd reg.nextReporterEpoch 1
    match validateSafeInteger "reporter_epoch" candidateGeneration with
    | .error error => (.error error, reg)
    | .ok () =>
      match reg.terminals.get? (terminalId, incarnation) with
      | some existing =>
        if existing.agentKind = .omp ∧ existing.reporterLeaseActive then
          (.error (.authorityLost "terminal is occupied by OMP reporter"), reg)
        else
          reg.applyHookExisting (terminalId, incarnation) existing envelope
            candidateGeneration nowMs leaseInst inst exitedOwner.isSome
      | none =>
        reg.applyHookNew terminalId incarnation envelope candidateGeneration nowMs
          leaseInst inst exitedOwner.isSome

def markUnknownExisting (key : String × Nat) (reducer : TerminalAgentReducer) :
    Except AgentStatusError ReducerOutput × AgentStatusRegistry :=
  let nextGeneration := satAdd reg.nextReporterEpoch 1
  let (output, next) := reducer.markUnknown
  if reducer.nativeRoot.isSome then
    match validateSafeInteger "reporter_epoch" nextGeneration with
    | .error error => (.error error, reg)
    | .ok () =>
      let next := { next with reporterEpoch := nextGeneration }
      let output := { output with row := some next.toRow, stateChanged := true }
      ({ reg with nextReporterEpoch := nextGeneration }.put key
        next).bumpNonFree.advanceRevision output
  else
    ((reg.put key next).bumpNonFreeIf output.stateChanged).advanceIf output.stateChanged
      output

def markUnknown (reporterEpoch : Nat) :
    Except AgentStatusError ReducerOutput × AgentStatusRegistry :=
  match reg.terminals.get? (terminalId, incarnation) with
  | none => (.error terminalNotFound, reg)
  | some reducer =>
    -- an old socket cannot clear a new epoch
    if reducer.reporterEpoch ≠ reporterEpoch then
      (.error (.staleReporterEpoch reducer.reporterEpoch reporterEpoch), reg)
    else reg.markUnknownExisting (terminalId, incarnation) reducer

/-- Check leases across all managed terminals; `inst` is the reading of the
monotonic clock at each of them. -/
def checkLeases (nowMs leaseMs : Nat) (inst : String × Nat → Nat) :
    Except AgentStatusError (List ReducerOutput) × AgentStatusRegistry :=
  let expiredOutputs := reg.terminals.entries.filterMap fun entry =>
    (entry.2.checkLease nowMs leaseMs (inst entry.1)).1
  let checked := { reg with
    terminals := reg.terminals.mapValues fun key reducer =>
      (reducer.checkLease nowMs leaseMs (inst key)).2 }
  (checked.bumpNonFreeIf !expiredOutputs.isEmpty).advanceIf (!expiredOutputs.isEmpty)
    expiredOutputs

def removeTerminal :
    Except AgentStatusError (Option AgentStatusRemovedPayload) × AgentStatusRegistry :=
  if reg.terminals.contains (terminalId, incarnation) then
    let removed := { reg with terminals := reg.terminals.erase (terminalId, incarnation) }
    removed.bumpNonFree.advanceRevision (some
      { serverEpoch := reg.serverEpoch, revision := satAdd reg.revision 1
        terminalId, incarnation })
  else (.ok none, reg)

/-! ## Runs -/

inductive Op where
  | admitReporter (terminalId : String) (incarnation : Nat) (hello : ReporterHello)
      (verifiedProcess : Option ProcessIdentity) (nowMs inst : Nat)
  | applyReport (terminalId : String) (incarnation reporterEpoch : Nat)
      (report : ReporterReport) (nowMs inst : Nat)
  | applyHook (terminalId : String) (incarnation : Nat) (envelope : PrivateHookEnvelope)
      (nowMs leaseInst inst : Nat) (exitedOwner : Option NativeOwner)
  | markUnknown (terminalId : String) (incarnation reporterEpoch : Nat)
  | checkLeases (nowMs leaseMs : Nat) (inst : String × Nat → Nat)
  | removeTerminal (terminalId : String) (incarnation : Nat)

def step : Op → AgentStatusRegistry
  | .admitReporter terminalId incarnation hello verifiedProcess nowMs inst =>
    (reg.admitReporterWithProcess terminalId incarnation hello verifiedProcess nowMs
      inst).2
  | .applyReport terminalId incarnation reporterEpoch report nowMs inst =>
    (reg.applyReport terminalId incarnation reporterEpoch report nowMs inst).2
  | .applyHook terminalId incarnation envelope nowMs leaseInst inst exitedOwner =>
    (reg.applyHookWithPriorExited terminalId incarnation envelope nowMs leaseInst inst
      exitedOwner).2
  | .markUnknown terminalId incarnation reporterEpoch =>
    (reg.markUnknown terminalId incarnation reporterEpoch).2
  | .checkLeases nowMs leaseMs inst => (reg.checkLeases nowMs leaseMs inst).2
  | .removeTerminal terminalId incarnation =>
    (reg.removeTerminal terminalId incarnation).2

end AgentStatusRegistry

end DamHopper.AgentStatus
