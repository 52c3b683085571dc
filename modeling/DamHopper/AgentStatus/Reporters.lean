import DamHopper.AgentStatus.Operations

/-!
# AgentStatus — Reporters

Several sockets and hooks may speak for one terminal. The epoch of the terminal says
which of them is heard: each admitted reporter and each new native owner draws a larger one
from a counter of the registry, and what comes with another epoch is dropped. Within an
epoch reports are ordered by their sequence numbers.

`Change` says once what a call can do to the terminals and what it announces; the
discipline of a whole run (`ReporterDiscipline`) is read off it.
-/

namespace DamHopper.AgentStatus

open TerminalAgentReducer

namespace AgentStatusRegistry

/-! ## What a call can do -/

/-- What a call can do to a terminal: nothing, give it a new epoch, apply a report that is
admitted, or, within the epoch, anything that does not revive a lease and leaves a leased
OMP terminal without one. -/
inductive TerminalStep (reg reg' : AgentStatusRegistry) (call : Call) (key : String × Nat)
    (r : TerminalAgentReducer) : TerminalAgentReducer → Prop
  | kept : TerminalStep reg reg' call key r r
  | taken {next : TerminalAgentReducer} : reg.nextReporterEpoch < next.reporterEpoch →
      next.reporterEpoch ≤ reg'.nextReporterEpoch → TerminalStep reg reg' call key r next
  | reported {reporterEpoch nowMs inst : Nat} {report : ReporterReport} :
      call = .op (.applyReport key.1 key.2 reporterEpoch report nowMs inst) →
      r.admitReport reporterEpoch report nowMs = .ok true →
      TerminalStep reg reg' call key r (r.applyReport reporterEpoch report nowMs inst).2
  | withdrawn {next : TerminalAgentReducer} : next.reporterEpoch = r.reporterEpoch →
      (r.reporterLeaseActive = false → next.reporterLeaseActive = false) →
      ¬ (r.agentKind = .omp ∧ r.reporterLeaseActive = true ∧
        next.reporterLeaseActive = true) → TerminalStep reg reg' call key r next

/-- What a call can do to the counter of a terminal, and what it announces: nothing, one
event for the raised counter, or nothing because a counter has left the safe integers. -/
inductive Counts (reg reg' : AgentStatusRegistry) (r next : TerminalAgentReducer) :
    List AgentAttentionEvent → Prop
  | quiet : next.attentionRevision = r.attentionRevision → Counts reg reg' r next []
  | raised {event : AgentAttentionEvent} :
      next.attentionRevision = satAdd r.attentionRevision 1 → next.Announced event →
      reg'.revision = satAdd reg.revision 1 → reg'.revision ≤ MAX_SAFE_INTEGER →
      Counts reg reg' r next [event]
  | suppressed : MAX_SAFE_INTEGER < reg'.revision ∨ MAX_SAFE_INTEGER ≤ r.attentionRevision →
      Counts reg reg' r next []

structure Moves (reg reg' : AgentStatusRegistry) (call : Call) (key : String × Nat)
    (r next : TerminalAgentReducer) (events : List AgentAttentionEvent) : Prop where
  place : next.place = r.place
  step : TerminalStep reg reg' call key r next
  counts : Counts reg reg' r next events

/-- What a call can do to the terminals. -/
inductive Change (reg : AgentStatusRegistry) (call : Call) (reg' : AgentStatusRegistry) :
    List AgentAttentionEvent → Prop
  | same : reg'.terminals = reg.terminals → Change reg call reg' []
  | moved {key : String × Nat} {r : TerminalAgentReducer} (next : TerminalAgentReducer)
      {events : List AgentAttentionEvent} : reg.terminals.get? key = some r →
      reg'.terminals = reg.terminals.insert key next →
      Moves reg reg' call key r next events → Change reg call reg' events
  | created {key : String × Nat} (fresh next : TerminalAgentReducer)
      {events : List AgentAttentionEvent} : reg.terminals.get? key = none →
      reg'.terminals = reg.terminals.insert key next →
      next.place = (reg.serverEpoch, key.1, key.2) →
      reg.nextReporterEpoch < next.reporterEpoch →
      next.reporterEpoch ≤ reg'.nextReporterEpoch → fresh.attentionRevision = 0 →
      Counts reg reg' fresh next events → Change reg call reg' events
  | checked {f : String × Nat → TerminalAgentReducer → TerminalAgentReducer} :
      reg'.terminals = reg.terminals.mapValues f →
      (∀ key r, Moves reg reg' call key r (f key r) []) →
      (∀ key r, (f key r).reporterEpoch = r.reporterEpoch) → Change reg call reg' []
  | removed {key : String × Nat} : reg'.terminals = reg.terminals.erase key →
      Change reg call reg' []

structure Advances (reg reg' : AgentStatusRegistry) : Prop where
  serverEpoch : reg'.serverEpoch = reg.serverEpoch
  nextReporterEpoch : reg.nextReporterEpoch ≤ reg'.nextReporterEpoch
  revision : reg'.revision = reg.revision ∨ reg'.revision = satAdd reg.revision 1

section

variable {reg reg' : AgentStatusRegistry} {call : Call} {key : String × Nat}
  {r next : TerminalAgentReducer}

variable {output : ReducerOutput} {reporterEpoch nowMs inst : Nat}
  {envelope : PrivateHookEnvelope} {priorExited changed bumped : Bool}
  {terminals : AssocMap (String × Nat) TerminalAgentReducer} {drawn : Nat}

theorem counted_advances :
    Advances reg (reg.counted terminals drawn changed bumped) := by
  refine ⟨rfl, Nat.le_add_right .., ?_⟩
  cases changed with
  | true => exact .inr rfl
  | false => exact .inl rfl

/-- An announced change is announced with a raised revision, or not at all. -/
theorem Counts.ofCounted {attention : Option AgentAttentionEvent}
    (h : r.Announces next attention) (hchanged : attention ≠ none → changed = true) :
    Counts reg (reg.counted terminals drawn changed bumped) r next
      (reg.published changed attention) := by
  unfold published
  cases hattention : attention with
  | none =>
    rw [Option.toList_none, ite_self]
    exact .quiet (h.quiet hattention)
  | some event =>
    obtain ⟨hcount, hevent⟩ := h.raised event hattention
    have htrue : changed = true := hchanged (by simp [hattention])
    subst htrue
    by_cases hover : MAX_SAFE_INTEGER < satAdd reg.revision 1
    · rw [if_pos ⟨rfl, hover⟩]
      exact .suppressed (.inl hover)
    · rw [if_neg fun hand => hover hand.2]
      exact .raised hcount hevent rfl (Nat.le_of_not_lt hover)

theorem TerminalStep.heard {terminalId : String} {incarnation : Nat} {report : ReporterReport}
    {result : Except AgentStatusError ReducerOutput}
    (hfresh : r.admitReport reporterEpoch report nowMs = .ok true)
    (hresult : r.applyReport reporterEpoch report nowMs inst = (result, next)) :
    TerminalStep reg reg'
      (.op (.applyReport terminalId incarnation reporterEpoch report nowMs inst))
      (terminalId, incarnation) r next := by
  have hnext : (r.applyReport reporterEpoch report nowMs inst).2 = next := by rw [hresult]
  rw [← hnext]
  exact .reported rfl hfresh

theorem reconnect_taken {hello : ReporterHello}
    (h : r.reconnect reporterEpoch hello nowMs inst = (.ok true, next)) :
    next.place = r.place ∧ next.attentionRevision = r.attentionRevision ∧
      next.reporterEpoch = reporterEpoch ∧ r.reporterEpoch < reporterEpoch := by
  unfold reconnect at h
  split at h
  · cases h
  rename_i hcheck
  have hless : r.reporterEpoch < reporterEpoch := by
    unfold checkReconnect at hcheck
    simp only [check_bind_eq_ok_iff, require_eq_ok_iff] at hcheck
    exact hcheck.2.2.1
  simp only [Prod.mk.injEq, true_and] at h
  rw [← h]
  split <;> exact ⟨rfl, rfl, rfl, hless⟩

theorem markUnknown_quiet (r : TerminalAgentReducer) : r.markUnknown.2.place = r.place ∧
      r.markUnknown.2.attentionRevision = r.attentionRevision ∧
      r.markUnknown.2.reporterEpoch = r.reporterEpoch := by
  unfold TerminalAgentReducer.markUnknown
  split <;> exact ⟨rfl, rfl, rfl⟩

/-- What the check of a lease can do to a terminal. -/
structure LeaseChecked (r next : TerminalAgentReducer) : Prop where
  place : next.place = r.place
  attentionRevision : next.attentionRevision = r.attentionRevision
  reporterEpoch : next.reporterEpoch = r.reporterEpoch
  reporterLeaseActive : r.reporterLeaseActive = false → next.reporterLeaseActive = false
  omp : next = r ∨ ¬ (r.agentKind = .omp ∧ r.reporterLeaseActive = true ∧
    next.reporterLeaseActive = true)

theorem checkLease_checked (r : TerminalAgentReducer) (nowMs leaseMs inst : Nat) :
    LeaseChecked r (r.checkLease nowMs leaseMs inst).2 := by
  unfold checkLease
  split
  · split_ifs with hkind
    · obtain ⟨hplace, hcount, hepoch⟩ := markUnknown_quiet r
      refine ⟨hplace, hcount, hepoch, fun _ => rfl, .inr ?_⟩
      rintro ⟨_, _, ⟨⟩⟩
    · exact ⟨rfl, rfl, rfl, id, .inr fun h => hkind h.1⟩
  · exact ⟨rfl, rfl, rfl, id, .inl rfl⟩

theorem LeaseChecked.moves (h : LeaseChecked r next) : Moves reg reg' call key r next [] := by
  refine ⟨h.place, ?_, .quiet h.attentionRevision⟩
  rcases h.omp with rfl | homp
  · exact .kept
  · exact .withdrawn h.reporterEpoch h.reporterLeaseActive homp

theorem hookStep_changed (h : r.HookStep envelope nowMs inst priorExited (.ok output) next)
    (hsome : output.attention ≠ none) : output.stateChanged = true := by
  cases h with
  | fenced _ | unclaimed _ _ | otherSession _ _ | switched _ _ _ | dropped _ _ _
  | ambiguous _ _ _ _ => exact absurd rfl hsome
  | accepted _ _ _ _ =>
    have hattention : Option.isSome _ = true := Option.isSome_iff_ne_none.mpr hsome
    simp only [acceptHook] at hattention ⊢
    simp [hattention]

variable {leaseInst : Nat} {exitedOwner : Option NativeOwner}
  {result : Except AgentStatusError ReducerOutput} {events : List AgentAttentionEvent} {op : Op}

/-- What the hook of a known terminal announces. -/
theorem Answers.announces
    (h : reg.Answers key r envelope nowMs leaseInst inst exitedOwner result next) :
    r.Announces next (attentionOf result) := by
  have hlease := checkLease_checked r nowMs DEFAULT_LEASE_MS leaseInst
  exact h.step.announces.1.before hlease.place hlease.attentionRevision

/-- A hook that keeps the owner keeps the epoch, and revives no lease. -/
theorem Answers.withdrawn
    (h : reg.Answers key r envelope nowMs leaseInst inst exitedOwner result next) :
    TerminalStep reg reg' call key r next := by
  have hlease := checkLease_checked r nowMs DEFAULT_LEASE_MS leaseInst
  have hsame := h.step.sameConnection
  refine .withdrawn (hsame.reporterEpoch.trans hlease.reporterEpoch) (fun hdown => ?_)
    fun homp => h.admits.2.2 ⟨homp.1, homp.2.1⟩
  rw [hsame.reporterLeaseActive]
  exact hlease.reporterLeaseActive hdown

theorem OpStep.change (h : OpStep reg op reg' events) : Change reg (.op op) reg' events := by
  cases h with
  | inert _ _ => exact .same rfl
  | reconnected hget heq =>
    obtain ⟨hplace, hcount, hepoch, _⟩ := reconnect_taken heq
    refine .moved _ hget rfl ⟨hplace, .taken ?_ (Nat.le_of_eq hepoch), .quiet hcount⟩
    exact Nat.lt_of_lt_of_eq (Nat.lt_succ_self _) hepoch.symm
  | admitted _ hget hnew hnext =>
    cases new_ok hnew
    exact .created _ _ hget rfl rfl (Nat.lt_of_lt_of_eq (Nat.lt_succ_self _) hnext.symm)
      (Nat.le_of_eq hnext) rfl (.quiet rfl)
  | @reportFailed _ _ _ _ _ inst _ _ _ hget hadmit hresult =>
    have hreported := applyReport_reported_turn hadmit inst
    rw [hresult] at hreported
    refine .moved _ hget rfl ⟨hreported.place, .heard hadmit hresult, ?_⟩
    rcases hreported.announces with hquiet | ⟨_, hover⟩
    · exact .quiet (hquiet.quiet rfl)
    · exact .suppressed (.inr hover)
  | @reported _ _ _ _ _ inst _ _ output hget hadmit hresult =>
    have hreported := applyReport_reported_turn hadmit inst
    rw [hresult] at hreported
    refine .moved _ hget rfl ⟨hreported.place, .heard hadmit hresult, ?_⟩
    rcases hreported.announces with hannounces | ⟨hnone, hover⟩
    · exact .ofCounted hannounces (hreported.changed output rfl)
    · rw [show output.attention = none from hnone, published_none]
      exact .suppressed (.inr hover)
  | hookFailed h =>
    exact .moved _ h.known rfl ⟨h.announces.place, h.withdrawn, .quiet (h.announces.quiet rfl)⟩
  | hooked h _ =>
    refine .moved _ h.known rfl ⟨h.announces.place, h.withdrawn,
      .ofCounted h.announces fun hsome => ?_⟩
    rw [hookStep_changed h.step hsome, Bool.true_or]
  | settled h _ =>
    exact .moved _ h.known rfl ⟨h.announces.place, .taken (Nat.lt_succ_self _) (Nat.le_refl _),
      .ofCounted (h.announces.after rfl rfl) fun _ => rfl⟩
  | @claimed _ _ _ _ _ _ _ _ next _ hget hnew h =>
    have hfresh := newForHook_ok hnew
    have hepoch : next.reporterEpoch = reg.nextReporterEpoch + 1 := by
      rw [h.sameConnection.reporterEpoch, hfresh]
      rfl
    refine .created _ _ hget rfl ?_ ?_ (Nat.le_of_eq hepoch) ?_
      (.ofCounted h.announces.1 fun _ => rfl)
    · rw [h.announces.1.place, hfresh]
      rfl
    · exact Nat.lt_of_lt_of_eq (Nat.lt_succ_self _) hepoch.symm
    · rw [hfresh]
      rfl
  | @disconnected _ _ _ r hget _ =>
    obtain ⟨hplace, hcount, hepoch⟩ := markUnknown_quiet r
    refine .moved _ hget rfl ⟨hplace, .withdrawn hepoch (fun _ => rfl) ?_, .quiet hcount⟩
    rintro ⟨_, _, ⟨⟩⟩
  | @retired _ _ _ r hget =>
    obtain ⟨hplace, hcount, _⟩ := markUnknown_quiet r
    exact .moved _ hget rfl
      ⟨hplace, .taken (Nat.lt_succ_self _) (Nat.le_refl _), .quiet hcount⟩
  | @checked nowMs leaseMs inst _ _ =>
    exact .checked rfl (fun key r => (checkLease_checked r nowMs leaseMs (inst key)).moves)
      fun key r => (checkLease_checked r nowMs leaseMs (inst key)).reporterEpoch
  | removed => exact .removed rfl

theorem OpStep.advances (h : OpStep reg op reg' events) : Advances reg reg' := by
  cases h with
  | inert _ _ | reconnected _ _ | admitted _ _ _ _ | reportFailed _ _ _ | reported _ _ _
  | hookFailed _ | hooked _ _ | settled _ _ | claimed _ _ _ | disconnected _ _ | retired _
  | checked _ | removed => exact counted_advances

/-- **What a call can do.** -/
theorem change (reg : AgentStatusRegistry) (call : Call) :
    Change reg call (reg.handle call) (reg.emitted call) ∧ Advances reg (reg.handle call) := by
  cases call with
  | setAvailability availability =>
    simp only [handle, setAvailability]
    split
    · exact ⟨.same rfl, rfl, Nat.le_refl _, .inr rfl⟩
    · exact ⟨.same rfl, rfl, Nat.le_refl _, .inl rfl⟩
  | op op => exact ⟨(opStep reg op).change, (opStep reg op).advances⟩

end

end AgentStatusRegistry

end DamHopper.AgentStatus
