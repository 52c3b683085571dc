import DamHopper.AgentStatus.Attention
import DamHopper.AgentStatus.Registry
import DamHopper.Lib.Runs

/-!
# AgentStatus — Operations

`OpStep` says once what an operation can do to the registry: which terminal it
replaces and by what, which of the three counters it raises, and which attention
events it returns. What holds of every operation is read off it, case by case.
-/

namespace DamHopper.AgentStatus

open AssocMap TerminalAgentReducer
open TerminalAgentReducer (attentionOf qualifyingBaseline)

namespace AgentStatusRegistry

def setAvailability (reg : AgentStatusRegistry) (availability : AgentStatusAvailability) :
    Except AgentStatusError Bool × AgentStatusRegistry :=
  if reg.availability ≠ availability then { reg with availability }.advanceRevision true
  else (.ok false, reg)

inductive Call where
  | op (op : Op)
  | setAvailability (availability : AgentStatusAvailability)

def handle (reg : AgentStatusRegistry) : Call → AgentStatusRegistry
  | .op op => reg.step op
  | .setAvailability availability => (reg.setAvailability availability).2

def emitted (reg : AgentStatusRegistry) : Call → List AgentAttentionEvent
  | .op (.applyReport terminalId incarnation reporterEpoch report nowMs inst) =>
    (attentionOf (reg.applyReport terminalId incarnation reporterEpoch report nowMs
      inst).1).toList
  | .op (.applyHook terminalId incarnation envelope nowMs leaseInst inst exitedOwner) =>
    (attentionOf (reg.applyHookWithPriorExited terminalId incarnation envelope nowMs leaseInst
      inst exitedOwner).1).toList
  | .op (.markUnknown terminalId incarnation reporterEpoch) =>
    (attentionOf (reg.markUnknown terminalId incarnation reporterEpoch).1).toList
  | .op (.checkLeases nowMs leaseMs inst) =>
    match (reg.checkLeases nowMs leaseMs inst).1 with
    | .ok outputs => outputs.filterMap (·.attention)
    | .error _ => []
  | .op (.admitReporter ..) | .op (.removeTerminal ..) | .setAvailability _ => []

/-- A hook for this terminal gets as far as the reducer. -/
def Admits (reg : AgentStatusRegistry) (key : String × Nat) (r : TerminalAgentReducer)
    (exitedOwner : Option NativeOwner) : Prop :=
  (exitedOwner = none ∨ reg.getNativeOwner key.1 key.2 = exitedOwner) ∧
    reg.nextReporterEpoch < MAX_SAFE_INTEGER ∧
    ¬ (r.agentKind = .omp ∧ r.reporterLeaseActive)

/-- The operation does not fail halfway through a change. -/
def RevisionSafe (reg : AgentStatusRegistry) : Op → Prop
  | .admitReporter terminalId incarnation hello _ nowMs inst =>
    reg.terminals.get? (terminalId, incarnation) = none →
    (∃ r, TerminalAgentReducer.new reg.serverEpoch terminalId incarnation
      (satAdd reg.nextReporterEpoch 1) hello nowMs inst = .ok r) →
    reg.revision < MAX_SAFE_INTEGER
  | .applyReport terminalId incarnation reporterEpoch report nowMs _ =>
    ∀ r, reg.terminals.get? (terminalId, incarnation) = some r →
    ¬ r.Overflows reporterEpoch report nowMs
  | .applyHook terminalId incarnation envelope nowMs leaseInst _ exitedOwner =>
    ∀ r, reg.terminals.get? (terminalId, incarnation) = some r →
    reg.Admits (terminalId, incarnation) r exitedOwner →
    r.Refused envelope exitedOwner.isSome →
    (r.leaseExpired nowMs DEFAULT_LEASE_MS leaseInst = true → r.Blank) ∧
      (r.TakesOver envelope exitedOwner.isSome →
        r.agentKind = .omp ∧ r.agentSessionId = envelope.agentSessionId ∧ r.Blank)
  | .markUnknown .. | .checkLeases .. | .removeTerminal .. => True

/-! ## What an operation can do -/

/-- The registry with other terminals, after `drawn` new epochs and with the
revision and the generation raised as said. -/
def counted (reg : AgentStatusRegistry) (terminals : AssocMap (String × Nat) TerminalAgentReducer)
    (drawn : Nat) (changed bumped : Bool) : AgentStatusRegistry :=
  { reg with
    terminals
    nextReporterEpoch := reg.nextReporterEpoch + drawn
    revision := if changed then satAdd reg.revision 1 else reg.revision
    nonFreeGeneration :=
      if bumped then satAdd reg.nonFreeGeneration 1 else reg.nonFreeGeneration }

/-- What is broadcast of an output: nothing once the raised revision is unsafe. -/
def published (reg : AgentStatusRegistry) (changed : Bool)
    (attention : Option AgentAttentionEvent) : List AgentAttentionEvent :=
  if changed ∧ MAX_SAFE_INTEGER < satAdd reg.revision 1 then [] else attention.toList

/-- A hook reaches the reducer of a known terminal, which answers `result`. -/
structure Answers (reg : AgentStatusRegistry) (key : String × Nat) (r : TerminalAgentReducer)
    (envelope : PrivateHookEnvelope) (nowMs leaseInst inst : Nat)
    (exitedOwner : Option NativeOwner) (result : Except AgentStatusError ReducerOutput)
    (next : TerminalAgentReducer) : Prop where
  known : reg.terminals.get? key = some r
  admits : reg.Admits key r exitedOwner
  step : (r.checkLease nowMs DEFAULT_LEASE_MS leaseInst).2.HookStep envelope nowMs inst
    exitedOwner.isSome result next

/-- What an operation can do, with the events it returns. -/
inductive OpStep (reg : AgentStatusRegistry) :
    Op → AgentStatusRegistry → List AgentAttentionEvent → Prop
  /-- Refused or dropped, without a trace but for an epoch. -/
  | inert {op} (drawn : Nat) : reg.RevisionSafe op →
      OpStep reg op (reg.counted reg.terminals drawn false false) []
  | reconnected {terminalId incarnation hello verifiedProcess nowMs inst r next} :
      reg.terminals.get? (terminalId, incarnation) = some r →
      r.reconnect (reg.nextReporterEpoch + 1) hello nowMs inst = (.ok true, next) →
      OpStep reg (.admitReporter terminalId incarnation hello verifiedProcess nowMs inst)
        (reg.counted (reg.terminals.insert (terminalId, incarnation)
          { next with verifiedProcess }) 1 true true) []
  /-- The generation is raised only after the revision has been checked. -/
  | admitted {terminalId incarnation hello nowMs inst fresh} (verifiedProcess) :
      reg.terminals.get? (terminalId, incarnation) = none →
      TerminalAgentReducer.new reg.serverEpoch terminalId incarnation
        (satAdd reg.nextReporterEpoch 1) hello nowMs inst = .ok fresh →
      satAdd reg.nextReporterEpoch 1 = reg.nextReporterEpoch + 1 →
      OpStep reg (.admitReporter terminalId incarnation hello verifiedProcess nowMs inst)
        (reg.counted (reg.terminals.insert (terminalId, incarnation)
          { fresh with verifiedProcess }) 1 true (reg.revision < MAX_SAFE_INTEGER)) []
  | reportFailed {terminalId incarnation reporterEpoch report nowMs inst r next error} :
      reg.terminals.get? (terminalId, incarnation) = some r →
      r.admitReport reporterEpoch report nowMs = .ok true →
      r.applyReport reporterEpoch report nowMs inst = (.error error, next) →
      OpStep reg (.applyReport terminalId incarnation reporterEpoch report nowMs inst)
        (reg.counted (reg.terminals.insert (terminalId, incarnation) next) 0 false false) []
  | reported {terminalId incarnation reporterEpoch report nowMs inst r next output} :
      reg.terminals.get? (terminalId, incarnation) = some r →
      r.admitReport reporterEpoch report nowMs = .ok true →
      r.applyReport reporterEpoch report nowMs inst = (.ok output, next) →
      OpStep reg (.applyReport terminalId incarnation reporterEpoch report nowMs inst)
        (reg.counted (reg.terminals.insert (terminalId, incarnation) next) 0
          output.stateChanged (transitioned r.state next.state))
        (reg.published output.stateChanged output.attention)
  | hookFailed {terminalId incarnation envelope nowMs leaseInst inst exitedOwner r next error} :
      reg.Answers (terminalId, incarnation) r envelope nowMs leaseInst inst exitedOwner
        (.error error) next →
      OpStep reg (.applyHook terminalId incarnation envelope nowMs leaseInst inst exitedOwner)
        (reg.counted (reg.terminals.insert (terminalId, incarnation) next) 0 false false) []
  | hooked {terminalId incarnation envelope nowMs leaseInst inst exitedOwner r next output} :
      reg.Answers (terminalId, incarnation) r envelope nowMs leaseInst inst exitedOwner
        (.ok output) next → next.nativeRoot = r.nativeRoot →
      OpStep reg (.applyHook terminalId incarnation envelope nowMs leaseInst inst exitedOwner)
        (reg.counted (reg.terminals.insert (terminalId, incarnation) next) 0
          (output.stateChanged || r.leaseExpired nowMs DEFAULT_LEASE_MS leaseInst)
          (transitioned r.state next.state))
        (reg.published (output.stateChanged || r.leaseExpired nowMs DEFAULT_LEASE_MS leaseInst)
          output.attention)
  /-- The hook has changed the native root. -/
  | settled {terminalId incarnation envelope nowMs leaseInst inst exitedOwner r next output} :
      reg.Answers (terminalId, incarnation) r envelope nowMs leaseInst inst exitedOwner
        (.ok output) next → next.nativeRoot ≠ r.nativeRoot →
      OpStep reg (.applyHook terminalId incarnation envelope nowMs leaseInst inst exitedOwner)
        (reg.counted (reg.terminals.insert (terminalId, incarnation)
          (settleOwner next (reg.nextReporterEpoch + 1))) 1 true
          (transitioned r.state next.state))
        (reg.published true output.attention)
  /-- The hook has claimed an unknown terminal. -/
  | claimed {terminalId incarnation envelope nowMs leaseInst inst exitedOwner fresh next output} :
      reg.terminals.get? (terminalId, incarnation) = none →
      newForHook reg.serverEpoch terminalId incarnation (reg.nextReporterEpoch + 1) envelope
        nowMs leaseInst = .ok fresh →
      fresh.HookStep envelope nowMs inst exitedOwner.isSome (.ok output) next →
      OpStep reg (.applyHook terminalId incarnation envelope nowMs leaseInst inst exitedOwner)
        (reg.counted (reg.terminals.insert (terminalId, incarnation) next) 1 true true)
        (reg.published true output.attention)
  | disconnected {terminalId incarnation reporterEpoch r} :
      reg.terminals.get? (terminalId, incarnation) = some r → r.nativeRoot = none →
      OpStep reg (.markUnknown terminalId incarnation reporterEpoch)
        (reg.counted (reg.terminals.insert (terminalId, incarnation) r.markUnknown.2) 0
          r.markUnknown.1.stateChanged r.markUnknown.1.stateChanged) []
  /-- The disconnect of a native owner takes its epoch away. -/
  | retired {terminalId incarnation reporterEpoch r} :
      reg.terminals.get? (terminalId, incarnation) = some r →
      OpStep reg (.markUnknown terminalId incarnation reporterEpoch)
        (reg.counted (reg.terminals.insert (terminalId, incarnation)
          { r.markUnknown.2 with reporterEpoch := reg.nextReporterEpoch + 1 }) 1 true true) []
  | checked {nowMs leaseMs inst} {expired : Bool} :
      (expired = false → ∀ key r, reg.terminals.get? key = some r →
        (r.checkLease nowMs leaseMs (inst key)).1 = none) →
      OpStep reg (.checkLeases nowMs leaseMs inst)
        (reg.counted (reg.terminals.mapValues fun key r =>
          (r.checkLease nowMs leaseMs (inst key)).2) 0 expired expired) []
  | removed {terminalId incarnation} : OpStep reg (.removeTerminal terminalId incarnation)
      (reg.counted (reg.terminals.erase (terminalId, incarnation)) 0 true true) []

section

variable {reg : AgentStatusRegistry} {terminalId : String}
  {incarnation nowMs inst reporterEpoch : Nat} {changed : Bool} {r : TerminalAgentReducer}
  {report : ReporterReport}

/-- A checked epoch is the next one. -/
theorem satAdd_of_checked {field : String} {n : Nat}
    (h : validateSafeInteger field (satAdd n 1) = .ok ()) :
    n < MAX_SAFE_INTEGER ∧ satAdd n 1 = n + 1 := by
  have hunder : n < MAX_SAFE_INTEGER := by
    rw [← satAdd_one_le_iff]
    by_contra hover
    rw [validateSafeInteger_error (by omega)] at h
    cases h
  simp only [satAdd, U64_MAX, MAX_SAFE_INTEGER] at hunder ⊢
  omega

theorem advanceIf_eq {α : Type} {value : α} : (reg.advanceIf changed value).2 =
    { reg with revision := if changed then satAdd reg.revision 1 else reg.revision } := by
  unfold advanceIf
  split <;> rfl

theorem bumpNonFreeIf_eq : reg.bumpNonFreeIf changed =
    { reg with
      nonFreeGeneration :=
        if changed then satAdd reg.nonFreeGeneration 1 else reg.nonFreeGeneration } := by
  unfold bumpNonFreeIf
  split <;> rfl

theorem advanceIf_ok {α : Type} {value result : α}
    (h : (reg.advanceIf changed value).1 = .ok result) : result = value := by
  unfold advanceIf advanceRevision at h
  split at h
  · simp only at h
    cases hvalid : validateSafeInteger "revision" (satAdd reg.revision 1) with
    | error error =>
      rw [hvalid] at h
      cases h
    | ok _ =>
      rw [hvalid] at h
      exact (Except.ok.inj h).symm
  · exact (Except.ok.inj h).symm

theorem attentionOf_advanceIf (reg : AgentStatusRegistry) (changed : Bool)
    (output : ReducerOutput) :
    (attentionOf (reg.advanceIf changed output).1).toList =
      reg.published changed output.attention := by
  simp only [advanceIf, advanceRevision, published]
  cases changed with
  | false => simp [attentionOf]
  | true =>
    by_cases hover : MAX_SAFE_INTEGER < satAdd reg.revision 1
    · simp [validateSafeInteger_error hover, hover, attentionOf, Except.map]
    · simp [validateSafeInteger_ok (Nat.le_of_not_lt hover), hover, attentionOf, Except.map]

theorem reconnect_cases (r : TerminalAgentReducer) (reporterEpoch : Nat) (hello : ReporterHello)
    (nowMs inst : Nat) :
    (∃ error, r.reconnect reporterEpoch hello nowMs inst = (.error error, r)) ∨
      ∃ next, r.reconnect reporterEpoch hello nowMs inst = (.ok true, next) := by
  unfold reconnect
  split
  · exact .inl ⟨_, rfl⟩
  · exact .inr ⟨_, rfl⟩

theorem applyReport_of_not_admitted (h : r.admitReport reporterEpoch report nowMs ≠ .ok true)
    (inst : Nat) :
    (∃ error, r.applyReport reporterEpoch report nowMs inst = (.error error, r)) ∨
      r.applyReport reporterEpoch report nowMs inst = (.ok r.unchanged, r) := by
  unfold TerminalAgentReducer.applyReport
  split
  · exact .inl ⟨_, rfl⟩
  · exact .inr rfl
  next hadmit => exact absurd hadmit h

/-- A report that is not admitted leaves the registry as it is and announces nothing. -/
theorem applyReport_dropped (h : ∀ r, reg.terminals.get? (terminalId, incarnation) = some r →
      r.admitReport reporterEpoch report nowMs ≠ .ok true) (inst : Nat) :
    (reg.applyReport terminalId incarnation reporterEpoch report nowMs inst).2 = reg ∧
      (attentionOf (reg.applyReport terminalId incarnation reporterEpoch report nowMs
        inst).1).toList = [] := by
  unfold applyReport
  split
  · exact ⟨rfl, rfl⟩
  rename_i existing hget
  have hput : reg.put (terminalId, incarnation) existing = reg := by
    rw [put, insert_of_get? hget]
  have hstate : transitioned existing.state existing.state = false := by
    simp [transitioned]
  rcases applyReport_of_not_admitted (h existing hget) inst with ⟨error, heq⟩ | heq
  · rw [heq]
    exact ⟨hput, rfl⟩
  · rw [heq]
    simp only [hput, hstate]
    exact ⟨rfl, rfl⟩

theorem checkLease_attention {leaseMs : Nat} {output : ReducerOutput}
    (h : (r.checkLease nowMs leaseMs inst).1 = some output) : output.attention = none := by
  unfold checkLease at h
  split at h
  · split at h
    · cases h
      rfl
    · cases h
      rfl
  · cases h

end

section

variable {reg : AgentStatusRegistry} {terminalId : String}
  {incarnation nowMs inst leaseInst leaseMs : Nat} {exitedOwner : Option NativeOwner}
  {envelope : PrivateHookEnvelope}

theorem opStep_admit (hello : ReporterHello) (verifiedProcess : Option ProcessIdentity) :
    OpStep reg (.admitReporter terminalId incarnation hello verifiedProcess nowMs inst)
      (reg.admitReporterWithProcess terminalId incarnation hello verifiedProcess nowMs inst).2
      [] := by
  unfold admitReporterWithProcess
  simp only
  split
  next hcheck =>
    refine .inert 0 fun _ hnew => ?_
    obtain ⟨r, hnew⟩ := hnew
    simp only [TerminalAgentReducer.new, check_bind_eq_ok_iff] at hnew
    rw [hnew.2.2.1] at hcheck
    cases hcheck
  rename_i hcheck
  have hnext := (satAdd_of_checked hcheck).2
  split
  next existing hget =>
    rw [hnext]
    rcases reconnect_cases existing (reg.nextReporterEpoch + 1) hello nowMs inst with
      ⟨error, heq⟩ | ⟨next, heq⟩
    · rw [heq]
      simp only [put, insert_of_get? hget]
      exact .inert 1 fun hnone => by simp [hget] at hnone
    · rw [heq]
      exact .reconnected hget heq
  next hget =>
    split
    next error hnew =>
      rw [hnext]
      refine .inert 1 fun _ hok => ?_
      obtain ⟨r, hok⟩ := hok
      cases hok.symm.trans hnew
    next fresh hnew =>
      have hstep := OpStep.admitted verifiedProcess hget hnew hnext
      rw [hnext]
      by_cases hunder : reg.revision < MAX_SAFE_INTEGER
      · simp only [advanceRevision, put,
          validateSafeInteger_ok ((satAdd_one_le_iff _).mpr hunder)]
        rw [decide_eq_true hunder] at hstep
        exact hstep
      · have hover : MAX_SAFE_INTEGER < satAdd reg.revision 1 :=
          Nat.lt_of_not_le fun h => hunder ((satAdd_one_le_iff _).mp h)
        simp only [advanceRevision, put, validateSafeInteger_error hover]
        rw [decide_eq_false hunder] at hstep
        exact hstep

/-- The registry and the events after an operation has counted what it changed. -/
theorem counted_advanceIf {fresh : AgentStatusRegistry}
    {terminals : AssocMap (String × Nat) TerminalAgentReducer} {drawn : Nat}
    (changed bumped : Bool) (output : ReducerOutput)
    (h : fresh = { reg with
      terminals, nextReporterEpoch := reg.nextReporterEpoch + drawn }) :
    ((fresh.bumpNonFreeIf bumped).advanceIf changed output).2 =
        reg.counted terminals drawn changed bumped ∧
      (attentionOf ((fresh.bumpNonFreeIf bumped).advanceIf changed output).1).toList =
        reg.published changed output.attention := by
  rw [advanceIf_eq, attentionOf_advanceIf, bumpNonFreeIf_eq, h]
  exact ⟨rfl, rfl⟩

theorem published_none (changed : Bool) : reg.published changed none = [] := by
  unfold published
  split <;> rfl

theorem OpStep.of_eq {op : Op} {reg' : AgentStatusRegistry} {events : List AgentAttentionEvent}
    {result : Except AgentStatusError ReducerOutput × AgentStatusRegistry}
    (h : OpStep reg op reg' events)
    (hresult : result.2 = reg' ∧ (attentionOf result.1).toList = events) :
    OpStep reg op result.2 (attentionOf result.1).toList := by
  rw [hresult.1, hresult.2]
  exact h

theorem opStep_report {reporterEpoch : Nat} (report : ReporterReport) :
    let result := reg.applyReport terminalId incarnation reporterEpoch report nowMs inst
    OpStep reg (.applyReport terminalId incarnation reporterEpoch report nowMs inst) result.2
      (attentionOf result.1).toList := by
  by_cases hadmit : ∃ r, reg.terminals.get? (terminalId, incarnation) = some r ∧
      r.admitReport reporterEpoch report nowMs = .ok true
  · obtain ⟨r, hget, hadmit⟩ := hadmit
    simp only [applyReport, hget]
    split
    next hresult => exact .reportFailed hget hadmit hresult
    next hresult => exact (OpStep.reported hget hadmit hresult).of_eq (counted_advanceIf _ _ _ rfl)
  · have hdropped : ∀ r, reg.terminals.get? (terminalId, incarnation) = some r →
        r.admitReport reporterEpoch report nowMs ≠ .ok true :=
      fun r hget hok => hadmit ⟨r, hget, hok⟩
    have hinert : OpStep reg (.applyReport terminalId incarnation reporterEpoch report nowMs inst)
        reg [] := .inert 0 fun r hget hover => hdropped r hget hover.1
    exact hinert.of_eq (applyReport_dropped hdropped inst)

theorem opStep_hookExisting {r : TerminalAgentReducer}
    (hget : reg.terminals.get? (terminalId, incarnation) = some r)
    (hadmits : reg.Admits (terminalId, incarnation) r exitedOwner) :
    let result := reg.applyHookExisting (terminalId, incarnation) r envelope
      (reg.nextReporterEpoch + 1) nowMs leaseInst inst exitedOwner.isSome
    OpStep reg (.applyHook terminalId incarnation envelope nowMs leaseInst inst exitedOwner)
      result.2 (attentionOf result.1).toList := by
  have hstep := hookStep (r.checkLease nowMs DEFAULT_LEASE_MS leaseInst).2 envelope nowMs inst
    exitedOwner.isSome
  have hexpired := checkLease_isSome r nowMs DEFAULT_LEASE_MS leaseInst
  simp only [applyHookExisting, hexpired]
  split
  next hresult =>
    rw [hresult] at hstep
    exact .hookFailed ⟨hget, hadmits, hstep⟩
  next output next hresult =>
    rw [hresult] at hstep
    split_ifs with hroot
    · exact (OpStep.settled ⟨hget, hadmits, hstep⟩ hroot).of_eq (counted_advanceIf true _ _ rfl)
    · exact (OpStep.hooked ⟨hget, hadmits, hstep⟩ (not_not.mp hroot)).of_eq
        (counted_advanceIf _ _ _ rfl)

theorem opStep_hook :
    let result := reg.applyHookWithPriorExited terminalId incarnation envelope nowMs leaseInst
      inst exitedOwner
    OpStep reg (.applyHook terminalId incarnation envelope nowMs leaseInst inst exitedOwner)
      result.2 (attentionOf result.1).toList := by
  have hinert : (∀ r, reg.terminals.get? (terminalId, incarnation) = some r →
      ¬ reg.Admits (terminalId, incarnation) r exitedOwner) →
      OpStep reg (.applyHook terminalId incarnation envelope nowMs leaseInst inst exitedOwner)
        reg [] :=
    fun hno => .inert 0 fun r hget hadmits => absurd hadmits (hno r hget)
  simp only [applyHookWithPriorExited]
  split_ifs with howner
  · simp only [Bool.and_eq_true, Option.isSome_iff_ne_none, decide_eq_true_eq] at howner
    exact hinert fun _ _ hadmits => absurd hadmits.1 (not_or.mpr howner)
  split
  next hcheck =>
    refine hinert fun _ _ hadmits => ?_
    rw [validateSafeInteger_ok ((satAdd_one_le_iff _).mpr hadmits.2.1)] at hcheck
    cases hcheck
  rename_i hcheck
  obtain ⟨hunder, hnext⟩ := satAdd_of_checked hcheck
  rw [hnext]
  split
  next r hget =>
    split_ifs with homp
    · refine hinert fun r' hr' hadmits => ?_
      rw [hget, Option.some.injEq] at hr'
      exact absurd (hr' ▸ homp) hadmits.2.2
    · refine opStep_hookExisting hget ⟨?_, hunder, homp⟩
      simp only [Bool.and_eq_true, Option.isSome_iff_ne_none, decide_eq_true_eq] at howner
      tauto
  next hget =>
    have hnone : ∀ r, reg.terminals.get? (terminalId, incarnation) = some r →
        ¬ reg.Admits (terminalId, incarnation) r exitedOwner := fun r h => by simp [hget] at h
    unfold applyHookNew
    split
    · exact hinert hnone
    split
    · exact hinert hnone
    rename_i fresh hnew
    have hstep := hookStep fresh envelope nowMs inst exitedOwner.isSome
    split
    · exact hinert hnone
    next hresult =>
      rw [hresult] at hstep
      exact (OpStep.claimed hget hnew hstep).of_eq (counted_advanceIf true true _ rfl)

theorem opStep_markUnknown {reporterEpoch : Nat} :
    let result := reg.markUnknown terminalId incarnation reporterEpoch
    OpStep reg (.markUnknown terminalId incarnation reporterEpoch) result.2
      (attentionOf result.1).toList := by
  have hinert : OpStep reg (.markUnknown terminalId incarnation reporterEpoch) reg [] :=
    .inert 0 trivial
  simp only [markUnknown]
  split
  · exact hinert
  rename_i r hget
  split
  · exact hinert
  simp only [markUnknownExisting]
  split_ifs with hroot
  · split
    · exact hinert
    next hcheck =>
      rw [(satAdd_of_checked hcheck).2]
      have hstep := @OpStep.retired reg terminalId incarnation reporterEpoch r hget
      rw [← published_none true] at hstep
      exact hstep.of_eq (counted_advanceIf true true _ rfl)
  · have hstep := @OpStep.disconnected reg terminalId incarnation reporterEpoch r hget
      (Option.not_isSome_iff_eq_none.mp hroot)
    rw [← published_none r.markUnknown.1.stateChanged] at hstep
    exact hstep.of_eq (counted_advanceIf _ _ _ rfl)

theorem emitted_checkLeases {inst : String × Nat → Nat} :
    reg.emitted (.op (.checkLeases nowMs leaseMs inst)) = [] := by
  unfold emitted
  simp only
  split
  next outputs hok =>
    have houtputs : outputs = reg.terminals.entries.filterMap fun entry =>
        (entry.2.checkLease nowMs leaseMs (inst entry.1)).1 := advanceIf_ok hok
    rw [houtputs, List.filterMap_eq_nil_iff]
    intro output hmem
    obtain ⟨entry, _, hentry⟩ := List.mem_filterMap.mp hmem
    exact checkLease_attention hentry
  · rfl

theorem opStep_checkLeases {inst : String × Nat → Nat} :
    OpStep reg (.checkLeases nowMs leaseMs inst) (reg.checkLeases nowMs leaseMs inst).2 [] := by
  have hstep := @OpStep.checked reg nowMs leaseMs inst
    (!(reg.terminals.entries.filterMap fun entry =>
      (entry.2.checkLease nowMs leaseMs (inst entry.1)).1).isEmpty) (fun hempty key r hget => by
    simp only [Bool.not_eq_false', List.isEmpty_iff, List.filterMap_eq_nil_iff] at hempty
    exact hempty _ (get?_eq_some_iff.mp hget))
  simp only [checkLeases, advanceIf_eq, bumpNonFreeIf_eq]
  exact hstep

end

/-- **What an operation can do.** -/
theorem opStep (reg : AgentStatusRegistry) (op : Op) :
    OpStep reg op (reg.step op) (reg.emitted (.op op)) := by
  cases op with
  | admitReporter terminalId incarnation hello verifiedProcess nowMs inst =>
    exact opStep_admit hello verifiedProcess
  | applyReport terminalId incarnation reporterEpoch report nowMs inst =>
    exact opStep_report report
  | applyHook terminalId incarnation envelope nowMs leaseInst inst exitedOwner =>
    exact opStep_hook
  | markUnknown terminalId incarnation reporterEpoch => exact opStep_markUnknown
  | checkLeases nowMs leaseMs inst =>
    rw [emitted_checkLeases]
    exact opStep_checkLeases
  | removeTerminal terminalId incarnation =>
    simp only [step, removeTerminal]
    split
    · exact .removed
    · exact .inert 0 trivial

end AgentStatusRegistry

end DamHopper.AgentStatus
