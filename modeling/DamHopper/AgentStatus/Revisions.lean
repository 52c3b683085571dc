import DamHopper.AgentStatus.Steps

/-!
# AgentStatus — Revisions

Clients refetch when the snapshot revision has moved, and the host-sleep fence
compares `non_free_generation`. The registry counts what the reducers report as
`state_changed`, so a reducer must report every change of a semantic field.

Operations that succeed do. Operations that fail report nothing; this module says
which of them have changed the terminal first.
-/

namespace DamHopper.AgentStatus

open TerminalAgentReducer
open TerminalAgentReducer (qualifyingBaseline)

/-- The semantic fields of a terminal's row. -/
structure Semantics where
  agentKind : AgentKind
  agentSessionId : String
  reporterEpoch : Nat
  state : AgentState
  reason : Option BlockedReason
  turnId : Option String
  attentionRevision : Nat
  lastOutcome : Option TurnOutcome
  deriving Repr, DecidableEq

namespace TerminalAgentReducer

def semantics (r : TerminalAgentReducer) : Semantics :=
  { agentKind := r.agentKind
    agentSessionId := r.agentSessionId
    reporterEpoch := r.reporterEpoch
    state := r.state
    reason := r.blockedReason
    turnId := r.currentTurnId
    attentionRevision := r.attentionRevision
    lastOutcome := r.lastOutcome }

/-- Nothing is known about the agent's work. -/
structure Blank (r : TerminalAgentReducer) : Prop where
  state : r.state = .unknown
  blockedReason : r.blockedReason = none
  currentTurnId : r.currentTurnId = none
  lastOutcome : r.lastOutcome = none

/-- The hook is answered with an error: its root or its kind is not the
owner's, or it is an OMP envelope that would have to be applied. -/
def Refused (r : TerminalAgentReducer) (envelope : PrivateHookEnvelope)
    (priorExited : Bool) : Prop :=
  r.fenced envelope = false ∧
    match r.nativeRoot with
    | some root =>
      if root = envelope.rootProcess then
        r.agentKind ≠ envelope.agentKind ∨
          (envelope.agentKind = .omp ∧ r.agentSessionId = envelope.agentSessionId)
      else
        (priorExited && qualifyingBaseline envelope) = false ∨ envelope.agentKind = .omp
    | none => qualifyingBaseline envelope = true ∧ envelope.agentKind = .omp

/-- The hook takes the terminal over from another owner, or from none. -/
def TakesOver (r : TerminalAgentReducer) (envelope : PrivateHookEnvelope)
    (priorExited : Bool) : Prop :=
  r.nativeRoot ≠ some envelope.rootProcess ∧ qualifyingBaseline envelope = true ∧
    (r.nativeRoot = none ∨ priorExited = true)

/-! ## What a hook may change -/

section

variable {r next owned : TerminalAgentReducer} {envelope : PrivateHookEnvelope}
  {priorExited : Bool} {nowMs leaseMs inst reporterEpoch : Nat} {output : ReducerOutput}
  {result : Except AgentStatusError ReducerOutput}

/-- A granted claim is the owner's own or a takeover. -/
theorem claimed_cases (hclaim : r.Claimed envelope priorExited owned) :
    (owned = r ∧ r.nativeRoot = some envelope.rootProcess ∧ r.agentKind = envelope.agentKind) ∨
      (r.TakesOver envelope priorExited ∧ owned.nativeRoot = some envelope.rootProcess ∧
        owned.semantics = { r.semantics with
          agentKind := envelope.agentKind, agentSessionId := envelope.agentSessionId
          state := .unknown, reason := none, turnId := none, lastOutcome := none }) := by
  rcases claimOwner_granted hclaim.2 with ⟨hroot, hkind, rfl⟩ | ⟨hbase, hne, howned⟩
  · exact .inl ⟨rfl, hroot, hkind⟩
  refine .inr ⟨⟨hne, hbase, ?_⟩, ?_⟩
  · by_contra hcon
    rw [not_or, Bool.not_eq_true] at hcon
    have hgranted := hclaim.2
    unfold claimOwner at hgranted
    split at hgranted
    next root hroot =>
      rw [if_neg (by rintro rfl; exact hne hroot), hcon.2] at hgranted
      cases hgranted
    next hroot => exact hcon.1 hroot
  · rcases howned with rfl | ⟨_, rfl⟩ <;> exact ⟨rfl, rfl⟩

/-- **A hook that reports no change and keeps the owner changed nothing.** -/
theorem HookStep.quiet (h : HookStep r envelope nowMs inst priorExited (.ok output) next)
    (hquiet : output.stateChanged = false) (hroot : next.nativeRoot = r.nativeRoot) :
    next.semantics = r.semantics := by
  -- a takeover changes the owner, so the claim was the owner's own
  have hown : ∀ owned, r.Claimed envelope priorExited owned →
      next.nativeRoot = owned.nativeRoot → owned = r := by
    intro owned hclaim heq
    rcases claimed_cases hclaim with ⟨howned, _⟩ | ⟨⟨hne, _⟩, hnew, _⟩
    · exact howned
    · rw [heq, hnew] at hroot
      exact absurd hroot.symm hne
  cases h with
  | fenced _ | unclaimed _ _ => rfl
  | otherSession hclaim _ | dropped hclaim _ _ =>
    have hr := hown _ hclaim rfl
    subst hr
    rfl
  | switched _ _ _ | ambiguous _ _ _ _ => cases hquiet
  | @accepted owned after attention hclaim _ _ hev =>
    have hafter : owned = r := by
      rcases claimed_cases hclaim with ⟨howned, _⟩ | ⟨⟨hne, hbase, _⟩, hnew, _⟩
      · exact howned
      · have hleaves := baseline_nativeRoot (owned.recordSeen envelope) nowMs hbase
        rw [hev] at hleaves
        exact hown owned hclaim hleaves
    subst hafter
    have hsame := (accepted_keeps hev).1
    simp only [acceptHook, Bool.or_eq_false_iff, bne_eq_false_iff_eq] at hquiet
    obtain ⟨⟨⟨⟨⟨hstate, hreason⟩, hturn⟩, houtcome⟩, hatt⟩, _⟩ := hquiet
    have hnone : attention = none := by simpa using hatt
    subst hnone
    have hannounces := (eventStep (owned.recordSeen envelope) envelope nowMs).does.2
    rw [hev] at hannounces
    have hrev := hannounces.1.quiet rfl
    simp only [semantics, Semantics.mk.injEq]
    exact ⟨hsame.agentKind, hsame.agentSessionId, hsame.reporterEpoch, hstate.symm,
      hreason.symm, hturn.symm, hrev, houtcome.symm⟩

/-- **A hook that fails** was refused, and changed the terminal only if it had
taken it over first. -/
theorem HookStep.failed {error : AgentStatusError}
    (h : HookStep r envelope nowMs inst priorExited (.error error) next) :
    r.Refused envelope priorExited ∧
      ((¬ r.TakesOver envelope priorExited ∧ next.semantics = r.semantics) ∨
        (r.TakesOver envelope priorExited ∧ next.semantics = { r.semantics with
          agentKind := .omp, agentSessionId := envelope.agentSessionId
          state := .unknown, reason := none, turnId := none, lastOutcome := none })) := by
  cases h with
  | refused hf hclaim =>
    unfold claimOwner at hclaim
    split at hclaim
    next root hroot =>
      split at hclaim
      next heq =>
        subst heq
        split at hclaim
        · rename_i hkind
          exact ⟨⟨hf, by rw [hroot]; simp [hkind]⟩, .inl ⟨fun ht => ht.1 hroot, rfl⟩⟩
        · cases hclaim
      next hne =>
        split at hclaim
        · cases hclaim
        rename_i hbase
        rw [Bool.not_eq_true] at hbase
        refine ⟨⟨hf, by rw [hroot]; simp only [if_neg hne]; exact .inl hbase⟩, .inl ⟨?_, rfl⟩⟩
        rintro ⟨_, hb, hnone | hprior⟩
        · simp [hroot] at hnone
        · rw [hb, hprior] at hbase
          cases hbase
    · split at hclaim <;> cases hclaim
  | @unsupported owned _ hclaim hsession hkind =>
    have homp : envelope.agentKind = .omp := by
      rw [← (claimOwner_owner hclaim.2).2]
      exact hkind
    rcases claimed_cases hclaim with ⟨rfl, hroot, _⟩ | ⟨htake, _, hsem⟩
    · refine ⟨⟨hclaim.1, ?_⟩, .inl ⟨fun ht => ht.1 hroot, rfl⟩⟩
      simp [hroot, homp, hsession]
    · refine ⟨⟨hclaim.1, ?_⟩, .inr ⟨htake, ?_⟩⟩
      · split
        next root hroot =>
          rw [if_neg (by rintro rfl; exact htake.1 hroot)]
          exact .inr homp
        · exact ⟨htake.2.1, homp⟩
      · rw [← homp]
        exact hsem

/-- A refused hook that gets past the claim is an OMP envelope. -/
theorem Refused.claimed (h : r.Refused envelope priorExited)
    (hclaim : r.Claimed envelope priorExited owned) :
    owned.agentKind = .omp ∧ owned.agentSessionId = envelope.agentSessionId := by
  obtain ⟨_, hrefused⟩ := h
  rcases claimed_cases hclaim with ⟨rfl, hroot, hkind⟩ | ⟨htake, _, hsem⟩
  · rw [hroot] at hrefused
    simp only at hrefused
    obtain ⟨homp, hsession⟩ := hrefused.resolve_left fun hne => hne hkind
    exact ⟨hkind.trans homp, hsession⟩
  have homp : envelope.agentKind = .omp := by
    split at hrefused
    next root hroot =>
      rw [if_neg (by rintro rfl; exact htake.1 hroot)] at hrefused
      refine hrefused.resolve_left fun hfalse => ?_
      obtain ⟨_, hbase, hnone | hprior⟩ := htake
      · simp [hroot] at hnone
      · rw [hbase, hprior] at hfalse
        cases hfalse
    · exact hrefused.2
  refine ⟨(claimOwner_owner hclaim.2).2.trans homp, ?_⟩
  exact congrArg Semantics.agentSessionId hsem

theorem HookStep.succeeded (h : HookStep r envelope nowMs inst priorExited (.ok output) next) :
    ¬ r.Refused envelope priorExited := by
  intro hrefused
  cases h with
  | fenced hf =>
    rw [hrefused.1] at hf
    cases hf
  | unclaimed _ hclaim =>
    have href := hrefused.2
    unfold claimOwner at hclaim
    split at hclaim
    · split at hclaim
      · split at hclaim <;> cases hclaim
      · split at hclaim <;> cases hclaim
    next hroot =>
      rw [hroot] at href
      rw [if_pos href.1] at hclaim
      cases hclaim
  | otherSession hclaim hne | switched hclaim hne _ => exact hne (hrefused.claimed hclaim).2
  | dropped hclaim _ hkind | ambiguous hclaim _ hkind _ | accepted hclaim _ hkind _ =>
    exact hkind (hrefused.claimed hclaim).1

/-! ## The embedded lease check -/

section

variable (r envelope priorExited nowMs leaseMs inst)

theorem checkLease_semantics : (r.checkLease nowMs leaseMs inst).2.semantics =
      if r.leaseExpired nowMs leaseMs inst then
        { r.semantics with
          state := .unknown, reason := none, turnId := none, lastOutcome := none }
      else r.semantics := by
  unfold checkLease
  split
  · split
    · simp only [markUnknown]
      rename_i hkind
      rw [if_neg (by simpa using hkind)]
      rfl
    · rfl
  · rfl

theorem checkLease_isSome :
    (r.checkLease nowMs leaseMs inst).1.isSome = r.leaseExpired nowMs leaseMs inst := by
  unfold checkLease
  split
  next h =>
    rw [h]
    split <;> rfl
  next h => simp [h]

/-- What the lease check may not change: the owner and the fences. -/
theorem checkLease_keeps :
    let leased := (r.checkLease nowMs leaseMs inst).2
    leased.nativeRoot = r.nativeRoot ∧ leased.agentKind = r.agentKind ∧
      leased.agentSessionId = r.agentSessionId ∧
      leased.fenced envelope = r.fenced envelope := by
  simp only [checkLease]
  split
  · split_ifs with hkind
    · simp only [markUnknown]
      rw [if_neg (by simpa using hkind)]
      exact ⟨rfl, rfl, rfl, rfl⟩
    · exact ⟨rfl, rfl, rfl, rfl⟩
  · exact ⟨rfl, rfl, rfl, rfl⟩

theorem checkLease_refused_iff :
    (r.checkLease nowMs leaseMs inst).2.Refused envelope priorExited ↔
      r.Refused envelope priorExited := by
  obtain ⟨hroot, hkind, hsession, hf⟩ := checkLease_keeps r envelope nowMs leaseMs inst
  rw [Refused, Refused, hroot, hkind, hsession, hf]

theorem checkLease_takesOver_iff :
    (r.checkLease nowMs leaseMs inst).2.TakesOver envelope priorExited ↔
      r.TakesOver envelope priorExited := by
  obtain ⟨hroot, _⟩ := checkLease_keeps r envelope nowMs leaseMs inst
  rw [TakesOver, TakesOver, hroot]

end

theorem blank_iff : r.Blank ↔
    { r.semantics with
      state := .unknown, reason := none, turnId := none, lastOutcome := none }
      = r.semantics := by
  constructor
  · intro h
    simp [semantics, h.state, h.blockedReason, h.currentTurnId, h.lastOutcome]
  · intro h
    simp only [semantics, Semantics.mk.injEq] at h
    exact ⟨h.2.2.2.1.symm, h.2.2.2.2.1.symm, h.2.2.2.2.2.1.symm, h.2.2.2.2.2.2.2.symm⟩

theorem takeover_semantics_iff {session : String} :
    { r.semantics with
      agentKind := .omp, agentSessionId := session
      state := .unknown, reason := none, turnId := none, lastOutcome := none }
      = r.semantics ↔ r.agentKind = .omp ∧ r.agentSessionId = session ∧ r.Blank := by
  constructor
  · intro h
    simp only [semantics, Semantics.mk.injEq] at h
    obtain ⟨hkind, hsession, _, hstate, hreason, hturn, _, hout⟩ := h
    exact ⟨hkind.symm, hsession.symm, hstate.symm, hreason.symm, hturn.symm, hout.symm⟩
  · rintro ⟨hkind, hsession, hblank⟩
    simp [semantics, hkind, hsession, hblank.state,
      hblank.blockedReason, hblank.currentTurnId, hblank.lastOutcome]

/-! ## Reports -/

/-- Raising attention fails exactly when the counter leaves the safe integers. -/
theorem raiseReported_cases (r : TerminalAgentReducer) (kind : AttentionKind)
    (turnId : Option String) (reason : Option BlockedReason)
    (outcome : Option TurnOutcome) (nowMs : Nat) :
    (MAX_SAFE_INTEGER ≤ r.attentionRevision ∧
        ∃ error, (r.raiseReported kind turnId reason outcome nowMs).1 = .error error) ∨
      (r.attentionRevision < MAX_SAFE_INTEGER ∧
        ∃ event, (r.raiseReported kind turnId reason outcome nowMs).1 = .ok (some event)) := by
  have hcount : (r.raiseAttention kind turnId reason outcome nowMs).1.attentionRevision
      = satAdd r.attentionRevision 1 := rfl
  have hiff := satAdd_one_le_iff r.attentionRevision
  simp only [raiseReported]
  by_cases hover : MAX_SAFE_INTEGER ≤ r.attentionRevision
  · rw [validateSafeInteger_error (by omega)]
    exact .inl ⟨hover, _, rfl⟩
  · rw [validateSafeInteger_ok (by omega)]
    exact .inr ⟨by omega, _, rfl⟩

/-- A report either raises attention, which may overflow, or it succeeds and
leaves the counter alone. -/
structure ReportResult (r : TerminalAgentReducer) (report : ReporterReport)
    (result : Except AgentStatusError (Option AgentAttentionEvent) ×
      TerminalAgentReducer) : Prop where
  overflow : r.Raises report → MAX_SAFE_INTEGER ≤ r.attentionRevision →
    ∃ error, result.1 = .error error
  quiet : ¬ r.Raises report →
    result.1 = .ok none ∧ result.2.attentionRevision = r.attentionRevision
  raised : r.Raises report → r.attentionRevision < MAX_SAFE_INTEGER →
    ∃ event, result.1 = .ok (some event)
  moved : r.Raises report →
    result.2.state ≠ r.state ∨ result.2.currentTurnId ≠ r.currentTurnId

theorem reportEvent_result {report : ReporterReport} (nowMs : Nat)
    (hcheck : checkEvent report = .ok ()) :
    ReportResult r report (r.reportEvent report nowMs) := by
  have hstep := reportEvent_step (r := r) nowMs hcheck
  generalize r.reportEvent report nowMs = result at hstep ⊢
  cases hstep with
  | quiet hnot hassigns =>
    exact ⟨fun h => absurd h hnot, fun _ => ⟨rfl, hassigns.same.2⟩, fun h => absurd h hnot,
      fun h => absurd h hnot⟩
  | @raised next kind turnId reason outcome hraises hassigns hmoved _ =>
    have hcount := hassigns.same.2
    obtain ⟨_, _, htouch⟩ := raiseReported_touches next kind turnId reason outcome nowMs
    have hcases := raiseReported_cases next kind turnId reason outcome nowMs
    refine ⟨fun _ hover => ?_, fun hnot => absurd hraises hnot, fun _ hunder => ?_, fun _ => ?_⟩
    · exact (hcases.resolve_right fun h => by omega).2
    · exact (hcases.resolve_left fun h => by omega).2
    · rw [htouch]
      exact hmoved

/-- An admitted report raises attention beyond the safe integers. -/
def Overflows (r : TerminalAgentReducer) (reporterEpoch : Nat) (report : ReporterReport)
    (nowMs : Nat) : Prop :=
  r.admitReport reporterEpoch report nowMs = .ok true ∧ r.Raises report ∧
    MAX_SAFE_INTEGER ≤ r.attentionRevision

/-- **A report that overflows** fails after it has changed the terminal. -/
theorem Overflows.failed {report : ReporterReport} (h : r.Overflows reporterEpoch report nowMs)
    (inst : Nat) :
    (∃ error, (r.applyReport reporterEpoch report nowMs inst).1 = .error error) ∧
      (r.applyReport reporterEpoch report nowMs inst).2.semantics ≠ r.semantics := by
  obtain ⟨haccept, hraises, hover⟩ := h
  obtain ⟨_, hcheck, _⟩ := admitReport_ok haccept
  have hresult := reportEvent_result (r := r.recordReport report nowMs inst) nowMs hcheck
  obtain ⟨error, herror⟩ := hresult.overflow hraises hover
  have hmoved := hresult.moved hraises
  rw [applyReport, haccept]
  simp only
  split
  · refine ⟨⟨_, rfl⟩, fun hsem => ?_⟩
    rename_i hev
    rw [hev] at hmoved
    rcases hmoved with hstate | hturn
    · exact hstate (congrArg Semantics.state hsem)
    · exact hturn (congrArg Semantics.turnId hsem)
  next hev => simp [hev] at herror

/-- **A report that does not overflow** reports every semantic change. -/
theorem applyReport_reported {report : ReporterReport}
    (h : ¬ r.Overflows reporterEpoch report nowMs) (inst : Nat) :
    (∃ error, r.applyReport reporterEpoch report nowMs inst = (.error error, r)) ∨
      ∃ output, (r.applyReport reporterEpoch report nowMs inst).1 = .ok output ∧
        (output.stateChanged = false →
          (r.applyReport reporterEpoch report nowMs inst).2.semantics = r.semantics) := by
  unfold applyReport
  split
  · exact .inl ⟨_, rfl⟩
  · exact .inr ⟨_, rfl, fun _ => rfl⟩
  rename_i haccept
  obtain ⟨_, hcheck, _⟩ := admitReport_ok haccept
  have hresult := reportEvent_result (r := r.recordReport report nowMs inst) nowMs hcheck
  obtain ⟨⟨state, reason, turn, session, outcome, revision, latest, hnext⟩, _⟩ :=
    reportEvent_touches (r := r.recordReport report nowMs inst) nowMs hcheck
  have hraises : (r.recordReport report nowMs inst).Raises report →
      r.attentionRevision < MAX_SAFE_INTEGER := by
    intro hr
    by_contra hover
    exact h ⟨haccept, hr, by omega⟩
  refine .inr ?_
  simp only
  split
  next hev =>
    rw [hev] at hresult
    by_cases hr : (r.recordReport report nowMs inst).Raises report
    · obtain ⟨_, ⟨⟩⟩ := hresult.raised hr (hraises hr)
    · cases (hresult.quiet hr).1
  next attention next hev =>
    rw [hev] at hresult hnext
    refine ⟨_, rfl, fun hquiet => ?_⟩
    simp only [Bool.or_eq_false_iff, bne_eq_false_iff_eq] at hquiet
    obtain ⟨⟨⟨⟨hstate, hreason⟩, hturn⟩, hsession⟩, houtcome⟩ := hquiet
    have hcount : next.attentionRevision = r.attentionRevision := by
      by_cases hr : (r.recordReport report nowMs inst).Raises report
      · rcases hresult.moved hr with hm | hm
        · exact absurd hstate hm
        · exact absurd hturn hm
      · exact (hresult.quiet hr).2
    have hkind := congrArg TerminalAgentReducer.agentKind hnext
    have hepoch := congrArg TerminalAgentReducer.reporterEpoch hnext
    simp only [TerminalAgentReducer.semantics, Semantics.mk.injEq]
    exact ⟨hkind, hsession, hepoch, hstate, hreason, hturn, hcount, houtcome⟩

/-! ## Outcomes

`mark_unknown` clears the last outcome but does not look at it when it says
whether anything changed. It need not: a terminal without a native root and
without a lease has no outcome. -/

def OutcomeKept (r : TerminalAgentReducer) : Prop :=
  r.nativeRoot = none → r.reporterLeaseActive = false → r.lastOutcome = none

/-- A hook that leaves the terminal without an owner found it so, or released it
together with its outcome. -/
theorem HookStep.released (h : HookStep r envelope nowMs inst priorExited result next)
    (hnone : next.nativeRoot = none) : next = r ∨ next.lastOutcome = none := by
  -- after a granted claim there is an owner
  have howned : ∀ owned, r.Claimed envelope priorExited owned → owned.nativeRoot ≠ none := by
    intro owned hclaim
    rw [(claimOwner_owner hclaim.2).1]
    exact Option.some_ne_none _
  have hevent : ∀ owned (after : TerminalAgentReducer),
      r.Claimed envelope priorExited owned → after.nativeRoot = none →
      after.nativeRoot = (owned.recordSeen envelope).nativeRoot ∨ after.lastOutcome = none →
      after.lastOutcome = none := by
    intro owned after hclaim hafter hor
    refine hor.resolve_left fun heq => howned owned hclaim ?_
    exact heq.symm.trans hafter
  cases h with
  | fenced _ | refused _ _ | unclaimed _ _ => exact .inl rfl
  | @otherSession owned hclaim _ => exact absurd hnone (howned owned hclaim)
  | switched _ _ _ => exact .inr rfl
  | @unsupported owned _ hclaim _ _ | @dropped owned hclaim _ _ =>
    exact absurd hnone (howned owned hclaim)
  | ambiguous hclaim _ _ hev => exact .inr (hevent _ _ hclaim hnone (ambiguous_keeps hev).2)
  | accepted hclaim _ _ hev => exact .inr (hevent _ _ hclaim hnone (accepted_keeps hev).2)

section

variable (hkept : r.OutcomeKept)
include hkept

theorem OutcomeKept.hook (h : HookStep r envelope nowMs inst priorExited result next) :
    next.OutcomeKept := by
  intro hnone hlease
  rcases h.released hnone with rfl | hout
  · exact hkept hnone hlease
  · exact hout

theorem OutcomeKept.report (reporterEpoch : Nat) (report : ReporterReport) (nowMs inst : Nat) :
    (r.applyReport reporterEpoch report nowMs inst).2.OutcomeKept := by
  rcases reportStep r reporterEpoch report nowMs inst with heq | ⟨haccept, observed, heq⟩
  · rw [heq]
    exact hkept
  obtain ⟨hlease, hcheck, _⟩ := admitReport_ok haccept
  obtain ⟨⟨_, _, _, _, _, _, _, hnext⟩, _⟩ :=
    reportEvent_touches (r := r.recordReport report nowMs inst) nowMs hcheck
  rw [heq]
  intro _ hinactive
  have hactive := congrArg reporterLeaseActive hnext
  have hsame : (r.recordReport report nowMs inst).reporterLeaseActive = true := hlease
  rw [hsame] at hactive
  exact absurd (hactive.symm.trans hinactive) (by decide)

theorem OutcomeKept.checkLease (nowMs leaseMs inst : Nat) :
    (r.checkLease nowMs leaseMs inst).2.OutcomeKept := by
  unfold TerminalAgentReducer.checkLease
  split
  · split <;> exact fun _ _ => rfl
  · exact hkept

theorem OutcomeKept.reconnect (reporterEpoch : Nat) (hello : ReporterHello) (nowMs inst : Nat) :
    (r.reconnect reporterEpoch hello nowMs inst).2.OutcomeKept := by
  unfold TerminalAgentReducer.reconnect
  split
  · exact hkept
  · exact fun _ _ => rfl

/-- **A disconnect that reports no change changed nothing**, once the terminal
has no native root. -/
theorem OutcomeKept.markUnknown_quiet (hroot : r.nativeRoot = none)
    (hquiet : r.markUnknown.1.stateChanged = false) :
    r.markUnknown.2.semantics = r.semantics := by
  simp only [markUnknown, Bool.or_eq_false_iff, bne_eq_false_iff_eq] at hquiet
  obtain ⟨⟨⟨⟨hstate, hreason⟩, hturn⟩, _⟩, hlease⟩ := hquiet
  have hout := hkept hroot hlease
  simp only [Option.isSome_eq_false_iff, Option.isNone_iff_eq_none] at hreason hturn
  simp only [semantics, markUnknown, hstate, hreason, hturn, hout]
  split <;> rfl

end

end

end TerminalAgentReducer

end DamHopper.AgentStatus
