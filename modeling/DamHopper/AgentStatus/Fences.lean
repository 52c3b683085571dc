import DamHopper.AgentStatus.Steps
import DamHopper.Lib.Runs

/-!
# AgentStatus — Fences

What is retired stays retired: while a native process owns the terminal, its
root, its session and its turn are not among the retired ones (`Fenced`), and a
callback that speaks for a retired root, session or turn changes nothing a
client can see.

Two events are not bound to a turn by design: `SessionStart` is a silent baseline
of its session and `SessionEnd` releases its claim; both ignore the turn id they
carry.

The runs considered are those the callers admit: the collector admits OMP
reporters only and the hook ingress rejects OMP envelopes.
-/

namespace DamHopper.AgentStatus

open HookEvent

namespace TerminalAgentReducer

/-- A reducer as its two callers create it: the collector for an OMP reporter, the
hook ingress for a native agent. -/
inductive Admission : TerminalAgentReducer → Prop
  | reporter {serverEpoch terminalId incarnation reporterEpoch hello nowMs inst r} :
      new serverEpoch terminalId incarnation reporterEpoch hello nowMs inst = .ok r →
      hello.agentKind = .omp → Admission r
  | hook {serverEpoch terminalId incarnation reporterEpoch envelope nowMs inst r} :
      newForHook serverEpoch terminalId incarnation reporterEpoch envelope nowMs inst
        = .ok r → envelope.agentKind ≠ .omp → Admission r

/-- The operations the callers admit. -/
def Admitted (_ : TerminalAgentReducer) : Op → Prop
  | .applyHook envelope _ _ _ => envelope.agentKind ≠ .omp
  | .reconnect _ hello _ _ => hello.agentKind = .omp
  | _ => True

/-- Nothing retired is current. -/
structure Fenced (r : TerminalAgentReducer) : Prop where
  omp : r.agentKind = .omp → r.nativeRoot = none
  turn : r.nativeRoot ≠ none → ∀ turn, r.currentTurnId = some turn →
    turn ∉ r.retiredTurnIds
  session : r.nativeRoot ≠ none → r.agentSessionId ∉ r.retiredSessionIds
  root : ∀ root, r.nativeRoot = some root → root ∉ r.retiredNativeRoots

/-- The envelope is a late callback: of a retired root, of a retired session, or
of a retired turn of the present owner and session. -/
def Late (r : TerminalAgentReducer) (envelope : PrivateHookEnvelope) : Prop :=
  envelope.rootProcess ∈ r.retiredNativeRoots ∨
    envelope.agentSessionId ∈ r.retiredSessionIds ∨
    ((∃ turn, envelope.turnId = some turn ∧ turn ∈ r.retiredTurnIds) ∧
      r.nativeRoot = some envelope.rootProcess ∧
      r.agentSessionId = envelope.agentSessionId ∧
      ofName envelope.event ≠ some .sessionStart ∧
      ofName envelope.event ≠ some .sessionEnd)

/-- The operation left what clients see unchanged and raised no attention. -/
structure Inert (r : TerminalAgentReducer)
    (result : Except AgentStatusError ReducerOutput × TerminalAgentReducer) : Prop where
  state : result.2.state = r.state
  blockedReason : result.2.blockedReason = r.blockedReason
  currentTurnId : result.2.currentTurnId = r.currentTurnId
  agentSessionId : result.2.agentSessionId = r.agentSessionId
  lastOutcome : result.2.lastOutcome = r.lastOutcome
  attentionRevision : result.2.attentionRevision = r.attentionRevision
  observedAtMs : result.2.observedAtMs = r.observedAtMs
  silent : ∀ output, result.1 = .ok output → output.attention = none

/-! ## Without an owner -/

section

variable {r next : TerminalAgentReducer}

theorem Fenced.unowned (h : r.nativeRoot = none) : r.Fenced :=
  ⟨fun _ => h, fun hne => absurd h hne, fun hne => absurd h hne,
    fun root hroot => by rw [h] at hroot; cases hroot⟩

/-! ## Events -/

theorem block_fenced (h : r.Fenced) {reason : BlockedReason} {ids : List String} {nowMs : Nat} :
    (r.block reason ids nowMs).Leaves Fenced := by
  obtain ⟨_, _, heq⟩ := block_eq r reason ids nowMs
  rw [heq]
  exact { h with }

/-- A prompt opens a turn that is neither retired nor the one it replaces. -/
theorem userPromptSubmit_fenced (h : r.Fenced) {envelope : PrivateHookEnvelope} :
    (r.userPromptSubmit envelope).Leaves Fenced := by
  unfold userPromptSubmit
  split
  · trivial
  split
  · trivial
  rename_i hfresh
  split
  · refine ⟨h.omp, fun _ turn hcur => ?_, h.session, h.root⟩
    cases hcur
    exact hfresh
  split
  · trivial
  rename_i hne
  split
  · exact { h with turn := nofun }
  refine ⟨h.omp, fun _ turn hcur hmem => ?_, h.session, h.root⟩
  cases hcur
  dsimp only at hmem
  have hold := trimTo_sublist.subset hmem
  rw [List.mem_append, List.mem_singleton] at hold
  rcases hold with hold | hold
  · exact hfresh hold
  · exact hne hold.symm

variable {envelope : PrivateHookEnvelope} {nowMs inst reporterEpoch : Nat}
  {owned : TerminalAgentReducer} {priorExited : Bool} {turn : String}

theorem EventStep.fenced {effect : HookEffect} (h : r.Fenced)
    (hstep : EventStep r envelope nowMs effect) :
    effect.Leaves Fenced := by
  cases hstep with
  | ignored => trivial
  | start _ =>
    unfold sessionStart
    split
    · trivial
    · exact { h with }
  | prompt _ => exact userPromptSubmit_fenced h
  | ended _ => exact .unowned rfl
  | onTurn _ _ heffect =>
    cases heffect with
    | tool =>
      obtain ⟨_, _, _, heq⟩ := resolveToolBlocker_touches r envelope.toolCallId
      rw [heq]
      exact { h with }
    | toUnknown | compact _ => exact { h with }
    | permissionPrompt | agentNeedsInput _ _ _ | stopFailure => exact block_fenced h
    | interrupt => exact { h with turn := nofun }

/-! ## Hooks -/

theorem fenced_eq_false (h : r.fenced envelope = false) :
    envelope.rootProcess ∉ r.retiredNativeRoots ∧ envelope.eventId ∉ r.seenEventIds ∧
      envelope.agentSessionId ∉ r.retiredSessionIds := by
  simpa [TerminalAgentReducer.fenced, and_assoc] using h

theorem installOwner_fenced (hkind : envelope.agentKind ≠ .omp) (hf : r.fenced envelope = false) :
    (r.installOwner envelope).Fenced := by
  obtain ⟨hroot, _, hsession⟩ := fenced_eq_false hf
  refine ⟨fun hk => absurd hk hkind, fun _ turn hcur => ?_, fun _ => hsession, ?_⟩
  · cases hcur
  · rintro root ⟨⟩
    exact hroot

/-- A takeover retires the old root and session, which the new ones are not. -/
theorem replaceOwner_fenced (hkind : envelope.agentKind ≠ .omp) (hf : r.fenced envelope = false)
    (hne : r.nativeRoot ≠ some envelope.rootProcess) :
    (r.replaceOwner envelope).Fenced := by
  obtain ⟨hroot, _, hsession⟩ := fenced_eq_false hf
  refine ⟨fun hk => absurd hk hkind, fun _ turn hcur => ?_, fun _ hmem => ?_, ?_⟩
  · cases hcur
  · simp only [replaceOwner, retireSessionIf] at hmem
    split_ifs at hmem with hcond
    · rcases mem_of_mem_pushBounded hmem with hold | heq
      · exact hsession hold
      · exact hcond.2 heq.symm
    · exact hsession hmem
  · rintro root ⟨⟩ hmem
    simp only [replaceOwner, retireRoot] at hmem
    split at hmem
    next old hold =>
      rcases mem_of_mem_pushBounded hmem with hmem | heq
      · exact hroot hmem
      · exact hne (by rw [hold, heq])
    · exact hroot hmem

theorem claimed_fenced (h : r.Fenced) (hkind : envelope.agentKind ≠ .omp)
    (hclaim : r.Claimed envelope priorExited owned) :
    (owned.recordSeen envelope).Fenced := by
  have howned : owned.Fenced := by
    rcases claimOwner_granted hclaim.2 with ⟨_, _, rfl⟩ | ⟨_, hne, rfl | ⟨_, rfl⟩⟩
    · exact h
    · exact replaceOwner_fenced hkind hclaim.1 hne
    · exact installOwner_fenced hkind hclaim.1
  exact { howned with }

theorem switchSession_fenced (h : r.Fenced)
    (hsession : envelope.agentSessionId ∉ r.retiredSessionIds)
    (hne : r.agentSessionId ≠ envelope.agentSessionId) :
    (r.switchSession envelope nowMs inst).Fenced := by
  refine ⟨h.omp, fun _ turn hcur => ?_, fun _ hmem => ?_, h.root⟩
  · cases hcur
  · simp only [switchSession, retireSessionIf] at hmem
    split at hmem
    · rcases mem_of_mem_pushBounded hmem with hold | heq
      · exact hsession hold
      · exact hne heq.symm
    · exact hsession hmem

theorem HookStep.keepsFenced {result : Except AgentStatusError ReducerOutput}
    (hstep : r.HookStep envelope nowMs inst priorExited result next) (h : r.Fenced)
    (hkind : envelope.agentKind ≠ .omp) : next.Fenced := by
  cases hstep with
  | fenced _ | refused _ _ | unclaimed _ _ => exact h
  | @switched owned hclaim hne _ =>
    have hsession : envelope.agentSessionId ∉ owned.retiredSessionIds := by
      rcases claimOwner_granted hclaim.2 with ⟨_, _, rfl⟩ | ⟨_, _, rfl | ⟨_, rfl⟩⟩
      · exact (fenced_eq_false hclaim.1).2.2
      · exact absurd rfl hne
      · exact absurd rfl hne
    exact switchSession_fenced (claimed_fenced h hkind hclaim) hsession hne
  | otherSession hclaim _ | unsupported hclaim _ _ | dropped hclaim _ _ =>
    exact claimed_fenced h hkind hclaim
  | @ambiguous owned _ hclaim _ _ hev | @accepted owned _ _ hclaim _ _ hev =>
    have hleaves := (eventStep (owned.recordSeen envelope) envelope nowMs).fenced
      (claimed_fenced h hkind hclaim)
    rw [hev] at hleaves
    exact { hleaves with }

/-! ## The other operations -/

theorem applyReport_fenced {report : ReporterReport} (h : r.Fenced) :
    (r.applyReport reporterEpoch report nowMs inst).2.Fenced := by
  rcases reportStep r reporterEpoch report nowMs inst with heq | ⟨haccept, at', heq⟩
  · rw [heq]
    exact h
  obtain ⟨_, hcheck, hkind⟩ := admitReport_ok haccept
  obtain ⟨⟨_, _, _, _, _, _, _, hnext⟩, _⟩ :=
    reportEvent_touches (r := r.recordReport report nowMs inst) nowMs hcheck
  rw [heq, hnext]
  exact .unowned (h.omp hkind)

/-- Only OMP reporters reconnect, and an OMP terminal has no native owner. -/
theorem reconnect_fenced {hello : ReporterHello} (h : r.Fenced) (hkind : hello.agentKind = .omp) :
    (r.reconnect reporterEpoch hello nowMs inst).2.Fenced := by
  unfold reconnect
  split
  · exact h
  split_ifs with hcond
  · exact .unowned rfl
  · rw [not_and_or, not_not] at hcond
    exact .unowned (h.omp (hcond.resolve_right fun hne => hne hkind))

theorem markUnknown_fenced (h : r.Fenced) : r.markUnknown.2.Fenced := by
  unfold markUnknown
  split_ifs with hkind
  · exact .unowned rfl
  · rw [not_not] at hkind
    exact .unowned (h.omp hkind)

theorem checkLease_fenced {leaseMs : Nat} (h : r.Fenced) :
    (r.checkLease nowMs leaseMs inst).2.Fenced := by
  unfold checkLease
  split
  · split
    · exact markUnknown_fenced h
    · exact { h with turn := nofun }
  · exact h

theorem step_fenced (r : TerminalAgentReducer) (op : Op) (h : r.Fenced) (hop : r.Admitted op) :
    (r.step op).Fenced := by
  cases op with
  | applyHook envelope nowMs inst priorExited => exact (hookStep ..).keepsFenced h hop
  | applyReport reporterEpoch report nowMs inst => exact applyReport_fenced h
  | reconnect reporterEpoch hello nowMs inst => exact reconnect_fenced h hop
  | markUnknown => exact markUnknown_fenced h
  | checkLease nowMs leaseMs inst => exact checkLease_fenced h

theorem Admission.fenced (h : Admission r) : r.Fenced := by
  cases h with
  | reporter h _ =>
    rw [new_ok h]
    exact .unowned rfl
  | hook h hkind =>
    rw [newForHook_ok h]
    exact ⟨fun hk => absurd hk hkind, nofun, nofun, fun _ _ => nofun⟩

/-! ## Late callbacks -/

theorem inert_unchanged : Inert r (.ok r.unchanged, r) := by
  refine ⟨rfl, rfl, rfl, rfl, rfl, rfl, rfl, fun output h => ?_⟩
  cases h
  rfl

/-- An event of a retired turn is ignored. -/
theorem hookEvent_retired (hcur : r.currentTurnId ≠ some turn) (hturn : envelope.turnId = some turn)
    (hret : turn ∈ r.retiredTurnIds) (hstart : ofName envelope.event ≠ some .sessionStart)
    (hend : ofName envelope.event ≠ some .sessionEnd) :
    r.hookEvent envelope nowMs = .ignored := by
  have hstep := eventStep r envelope nowMs
  generalize r.hookEvent envelope nowMs = effect at hstep ⊢
  cases hstep with
  | ignored => rfl
  | start h => exact absurd h hstart
  | prompt _ => simp [userPromptSubmit, hturn, hret]
  | ended h => exact absurd h hend
  | onTurn heq _ _ => exact absurd (heq.symm.trans hturn) hcur

theorem inert_of_retired_turn (h : r.Fenced) (hf : r.fenced envelope = false)
    (hroot : r.nativeRoot = some envelope.rootProcess)
    (hsession : r.agentSessionId = envelope.agentSessionId) (hturn : envelope.turnId = some turn)
    (hret : turn ∈ r.retiredTurnIds) (hstart : ofName envelope.event ≠ some .sessionStart)
    (hend : ofName envelope.event ≠ some .sessionEnd) :
    Inert r (r.applyHook envelope nowMs inst) := by
  by_cases hkind : r.agentKind = envelope.agentKind
  · have hcur : r.currentTurnId ≠ some turn := fun hcur =>
      h.turn (by simp [hroot]) turn hcur hret
    have hspeaks : r.Speaks envelope := ⟨hf, hroot, hkind, hsession⟩
    have hev : (r.recordSeen envelope).hookEvent envelope nowMs = .ignored :=
      hookEvent_retired hcur hturn hret hstart hend
    rw [applyHook, hspeaks.apply, applyQualified, hev]
    split
    all_goals
      refine ⟨rfl, rfl, rfl, rfl, rfl, rfl, rfl, fun output hout => ?_⟩
      cases hout
    · rfl
    · rfl
  · have hclaim : r.claimOwner envelope false = .refused ownerMismatch := by
      simp [claimOwner, hroot, hkind]
    rw [applyHook, applyHookWithPriorExited, hf, hclaim]
    exact ⟨rfl, rfl, rfl, rfl, rfl, rfl, rfl, fun output h => by cases h⟩

/-- **Late callbacks cannot revive retired work.** In every admitted run, while a
native process owns the terminal, its turn, session and root are not retired, and
a late callback changes nothing and raises nothing. -/
theorem late_callback_inert (h : Admission r) (ops : List Op)
    (hops : EveryStep step Admitted r ops) (root : ProcessIdentity)
    (hroot : (run step r ops).nativeRoot = some root) :
    (∀ turn, (run step r ops).currentTurnId = some turn → turn ∉ (run step r ops).retiredTurnIds) ∧
      (run step r ops).agentSessionId ∉ (run step r ops).retiredSessionIds ∧
      root ∉ (run step r ops).retiredNativeRoots ∧
      ∀ envelope nowMs inst, (run step r ops).Late envelope →
        Inert (run step r ops) ((run step r ops).applyHook envelope nowMs inst) := by
  have hf : (run step r ops).Fenced := invariant_run step_fenced h.fenced hops
  have hne : (run step r ops).nativeRoot ≠ none := by simp [hroot]
  refine ⟨hf.turn hne, hf.session hne, hf.root root hroot, ?_⟩
  intro envelope nowMs inst hlate
  by_cases hfence : (run step r ops).fenced envelope = true
  · rw [applyHook, applyHookWithPriorExited, if_pos hfence]
    exact inert_unchanged
  rw [Bool.not_eq_true] at hfence
  rcases hlate with hl | hl | ⟨⟨turn, hturn, hret⟩, howner, hsession, hstart, hend⟩
  · exact absurd hl (fenced_eq_false hfence).1
  · exact absurd hl (fenced_eq_false hfence).2.2
  · exact inert_of_retired_turn hf hfence howner hsession hturn hret hstart hend

end

/-! ## A late `SessionStart` -/

def codexHook (eventId event : String) : PrivateHookEnvelope :=
  { agentKind := .codex, adapterVersion := "1", eventId, event, agentSessionId := "s"
    turnId := some "t1", toolCallId := none, notificationType := none
    rootProcess := { pid := 7, startTicks := 1 } }

def codexTerminal : TerminalAgentReducer :=
  forHook 1 "term" 1 1 (codexHook "e0" "SessionStart") 0 0

theorem codexTerminal_admission : Admission codexTerminal := by
  have h : newForHook 1 "term" 1 1 (codexHook "e0" "SessionStart") 0 0 = .ok codexTerminal := by rfl
  exact .hook h (by decide)

def promptThenInterrupt : List Op :=
  [.applyHook (codexHook "e1" "UserPromptSubmit") 0 0 false,
    .applyHook (codexHook "e2" "Interrupt") 0 0 false]

theorem promptThenInterrupt_admitted : EveryStep step Admitted codexTerminal promptThenInterrupt :=
  ⟨by show AgentKind.codex ≠ .omp; decide, by show AgentKind.codex ≠ .omp; decide, trivial⟩

/-- A late `Stop` of the interrupted turn is inert. -/
theorem late_stop_inert : Inert (run step codexTerminal promptThenInterrupt)
      ((run step codexTerminal promptThenInterrupt).applyHook (codexHook "e3" "Stop") 9 9) :=
  (late_callback_inert codexTerminal_admission promptThenInterrupt
    promptThenInterrupt_admitted { pid := 7, startTicks := 1 } (by decide)).2.2.2 _ 9 9
    (.inr (.inr ⟨⟨"t1", by decide, by decide⟩, by decide, by decide, by decide, by decide⟩))

/-- A late `SessionStart` of the interrupted turn, of the same root and session, is
accepted as a baseline: the interrupted outcome is gone. -/
theorem session_start_ignores_retired_turn :
    let r := run step codexTerminal promptThenInterrupt
    let next := (r.applyHook (codexHook "e3" "SessionStart") 9 9).2
    EveryStep step Admitted codexTerminal promptThenInterrupt ∧
      r.nativeRoot = some { pid := 7, startTicks := 1 } ∧ r.agentSessionId = "s" ∧
      "t1" ∈ r.retiredTurnIds ∧ r.state = .idle ∧ r.lastOutcome = some .interrupted ∧
      next.state = .unknown ∧ next.lastOutcome = none ∧
      next.observedAtMs ≠ r.observedAtMs := by
  refine ⟨promptThenInterrupt_admitted, ?_⟩
  decide

end TerminalAgentReducer

end DamHopper.AgentStatus
