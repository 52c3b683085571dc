import DamHopper.AgentStatus.Revisions
import DamHopper.Lib.Numbering

/-!
# AgentStatus — Attention

An attention event carries the counter of its terminal, raised by one for it, and an id
that holds the counter. This module says for each operation of a reducer what it announces
(`Announces`), and for reports what they do to the current turn: only `TurnStarted` and
`Snapshot` install one, and an announced end of a turn removes it.
-/

namespace DamHopper.AgentStatus

theorem AgentAttentionEvent.formatId_inj {serverEpoch incarnation incarnation' : Nat}
    {terminalId terminalId' : String} {attentionRevision attentionRevision' : Nat}
    (h : formatId serverEpoch terminalId incarnation attentionRevision =
      formatId serverEpoch terminalId' incarnation' attentionRevision') :
    terminalId = terminalId' ∧ incarnation = incarnation' ∧
      attentionRevision = attentionRevision' := by
  -- the terminal id may hold colons itself, so the id is read from its end
  obtain ⟨hfront, hrevision⟩ := colon_number_inj h
  obtain ⟨hfront, hincarnation⟩ := colon_number_inj hfront
  rw [String.append_assoc, String.append_assoc, String.append_right_inj,
    String.append_right_inj] at hfront
  exact ⟨hfront, hincarnation, hrevision⟩

namespace TerminalAgentReducer

section

variable {r next : TerminalAgentReducer} {attention : Option AgentAttentionEvent}
  {envelope : PrivateHookEnvelope} {nowMs inst : Nat} {priorExited : Bool}
  {result : Except AgentStatusError ReducerOutput}
  {report : ReporterReport}

/-- Nothing that is announced later matters to what was announced. -/
theorem Announces.after {last : TerminalAgentReducer} (h : Announces r next attention)
    (hplace : last.place = next.place) (hcount : last.attentionRevision = next.attentionRevision) :
    Announces r last attention := by
  simp only [TerminalAgentReducer.place, Prod.mk.injEq] at hplace
  obtain ⟨hserver, hterminal, hincarnation⟩ := hplace
  refine ⟨?_, fun hnone => hcount.trans (h.quiet hnone), fun event hmem => ?_⟩
  · rw [← h.place, TerminalAgentReducer.place, hserver, hterminal, hincarnation]
    rfl
  · obtain ⟨hraised, hevent⟩ := h.raised event hmem
    refine ⟨hcount.trans hraised, ?_, ?_, ?_, ?_⟩
    · rw [hevent.id, hserver, hterminal, hincarnation, hcount]
    · rw [hevent.terminalId, hterminal]
    · rw [hevent.incarnation, hincarnation]
    · rw [hevent.attentionRevision, hcount]

theorem Announces.before {first : TerminalAgentReducer} (h : Announces r next attention)
    (hplace : r.place = first.place) (hcount : r.attentionRevision = first.attentionRevision) :
    Announces first next attention := by
  refine ⟨h.place.trans hplace, fun hnone => (h.quiet hnone).trans hcount, fun event hmem => ?_⟩
  rw [← hcount]
  exact h.raised event hmem

/-! ## Hooks -/

def attentionOf : Except AgentStatusError ReducerOutput → Option AgentAttentionEvent
  | .ok output => output.attention
  | .error _ => none

structure SameConnection (r next : TerminalAgentReducer) : Prop where
  reporterEpoch : next.reporterEpoch = r.reporterEpoch
  reporterLeaseActive : next.reporterLeaseActive = r.reporterLeaseActive

theorem claimed_quiet {owned : TerminalAgentReducer} (h : r.Claimed envelope priorExited owned) :
    (owned.recordSeen envelope).place = r.place ∧
      (owned.recordSeen envelope).attentionRevision = r.attentionRevision ∧
      SameConnection r (owned.recordSeen envelope) := by
  rcases claimOwner_granted h.2 with ⟨_, _, rfl⟩ | ⟨_, _, rfl | ⟨_, rfl⟩⟩
  · exact ⟨rfl, rfl, rfl, rfl⟩
  · exact ⟨rfl, rfl, rfl, rfl⟩
  · exact ⟨rfl, rfl, rfl, rfl⟩

/-- **What a hook announces.** -/
theorem HookStep.announces (h : HookStep r envelope nowMs inst priorExited result next) :
    Announces r next (attentionOf result) ∧ CallsOnly (attentionOf result) := by
  have hsilent : ∀ {owned}, r.Claimed envelope priorExited owned →
      Announces r (owned.recordSeen envelope) none := by
    intro owned hclaim
    obtain ⟨hplace, hcount, _⟩ := claimed_quiet hclaim
    exact .silent hplace hcount
  cases h with
  | fenced _ | refused _ _ | unclaimed _ _ => exact ⟨.silent rfl rfl, callsOnly_none⟩
  | otherSession hclaim _ | unsupported hclaim _ _ | dropped hclaim _ _ =>
    exact ⟨hsilent hclaim, callsOnly_none⟩
  | switched hclaim _ _ => exact ⟨(hsilent hclaim).after rfl rfl, callsOnly_none⟩
  | @ambiguous owned _ hclaim _ _ hev =>
    have hannounces := (eventStep (owned.recordSeen envelope) envelope nowMs).does.2
    rw [hev] at hannounces
    obtain ⟨hplace, hcount, _⟩ := claimed_quiet hclaim
    exact ⟨hannounces.before hplace hcount, callsOnly_none⟩
  | @accepted owned _ _ hclaim _ _ hev =>
    have hannounces := (eventStep (owned.recordSeen envelope) envelope nowMs).does.2
    rw [hev] at hannounces
    obtain ⟨hplace, hcount, _⟩ := claimed_quiet hclaim
    exact ⟨(hannounces.1.before hplace hcount).after rfl rfl, hannounces.2⟩

theorem HookStep.sameConnection (h : HookStep r envelope nowMs inst priorExited result next) :
    SameConnection r next := by
  have hevent : ∀ {owned after}, r.Claimed envelope priorExited owned →
      SameAgent (owned.recordSeen envelope) after → SameConnection r after := by
    intro owned after hclaim hsame
    obtain ⟨_, _, hepoch, hlease⟩ := claimed_quiet hclaim
    exact ⟨hsame.reporterEpoch.trans hepoch, hsame.reporterLeaseActive.trans hlease⟩
  cases h with
  | fenced _ | refused _ _ | unclaimed _ _ => exact ⟨rfl, rfl⟩
  | switched hclaim _ _ =>
    obtain ⟨_, _, hepoch, hlease⟩ := claimed_quiet hclaim
    exact ⟨hepoch, hlease⟩
  | otherSession hclaim _ | unsupported hclaim _ _ | dropped hclaim _ _ =>
    exact (claimed_quiet hclaim).2.2
  | ambiguous hclaim _ _ hev => exact hevent hclaim (ambiguous_keeps hev |>.1)
  | accepted hclaim _ _ hev =>
    obtain ⟨hepoch, hlease⟩ := hevent hclaim (accepted_keeps hev |>.1)
    exact ⟨hepoch, hlease⟩

/-! ## Reports -/

/-- What a report does to the current turn, and when it announces the end of one. -/
structure ReportsTurn (r : TerminalAgentReducer) (report : ReporterReport)
    (result : Except AgentStatusError (Option AgentAttentionEvent) × TerminalAgentReducer) :
    Prop where
  announces : ∀ attention, result.1 = .ok attention → Announces r result.2 attention
  ended : ∀ attention, result.1 = .ok attention → ∀ event ∈ attention,
    event.kind = .turnEnded → event.turnId = r.currentTurnId ∧ r.currentTurnId ≠ none ∧
      result.2.currentTurnId = none
  turn : ∀ turn, result.2.currentTurnId = some turn → r.currentTurnId = some turn ∨
    (report.event = .turnStarted ∨ report.event = .snapshot) ∧ report.turnId = some turn

/-- **What a report announces and does to the turn.** -/
theorem reportEvent_turn (nowMs : Nat) (hcheck : checkEvent report = .ok ()) :
    ReportsTurn r report (r.reportEvent report nowMs) := by
  have hstep := reportEvent_step (r := r) nowMs hcheck
  generalize r.reportEvent report nowMs = result at hstep ⊢
  cases hstep with
  | quiet _ hassigns =>
    refine ⟨fun attention hok => ?_, fun attention hok event hmem => ?_, hassigns.turn⟩
    · cases hok
      exact .silent hassigns.same.1 hassigns.same.2
    · cases hok
      cases hmem
  | @raised next kind turnId reason outcome _ hassigns _ hended =>
    have hraise := raiseAttention_announces hassigns.same.1 hassigns.same.2 kind turnId reason
      outcome nowMs
    obtain ⟨_, _, htouch⟩ := raiseReported_touches next kind turnId reason outcome nowMs
    have hcur : (next.raiseReported kind turnId reason outcome nowMs).2.currentTurnId =
        next.currentTurnId := by rw [htouch]
    refine ⟨fun attention hok => ?_, fun attention hok event hmem hkind => ?_, fun turn hsome => ?_⟩
    · unfold raiseReported at hok ⊢
      simp only at hok ⊢
      split at hok
      · cases hok
      · cases hok
        exact hraise.after rfl rfl
    · rw [hcur]
      unfold raiseReported at hok
      simp only at hok
      split at hok
      · cases hok
      · cases hok
        cases hmem
        exact hended hkind
    · rw [hcur] at hsome
      exact hassigns.turn turn hsome

/-- What an admitted report leaves behind. -/
structure Reported (r : TerminalAgentReducer) (report : ReporterReport)
    (result : Except AgentStatusError ReducerOutput × TerminalAgentReducer) : Prop where
  place : result.2.place = r.place
  connection : SameConnection r result.2
  agentKind : result.2.agentKind = r.agentKind
  recorded : result.2.lastReport = some report ∧ result.2.lastAcceptedSeq = report.seq
  /-- It announces as it says, or its counter has run out of the safe integers. -/
  announces : Announces r result.2 (attentionOf result.1) ∨
    attentionOf result.1 = none ∧ MAX_SAFE_INTEGER ≤ r.attentionRevision
  /-- What is announced is a change. -/
  changed : ∀ output, result.1 = .ok output → output.attention ≠ none →
    output.stateChanged = true
  ended : ∀ event ∈ attentionOf result.1, event.kind = .turnEnded →
    event.turnId = r.currentTurnId ∧ r.currentTurnId ≠ none ∧ result.2.currentTurnId = none
  turn : ∀ turn, result.2.currentTurnId = some turn → r.currentTurnId = some turn ∨
    (report.event = .turnStarted ∨ report.event = .snapshot) ∧ report.turnId = some turn

theorem applyReport_reported_turn {reporterEpoch : Nat}
    (h : r.admitReport reporterEpoch report nowMs = .ok true) (inst : Nat) :
    Reported r report (r.applyReport reporterEpoch report nowMs inst) := by
  obtain ⟨_, hcheck, _⟩ := admitReport_ok h
  have hturn := reportEvent_turn (r := r.recordReport report nowMs inst) nowMs hcheck
  have hresult := reportEvent_result (r := r.recordReport report nowMs inst) nowMs hcheck
  obtain ⟨⟨state, reason, turn, session, outcome, revision, latest, hnext⟩, _⟩ :=
    reportEvent_touches (r := r.recordReport report nowMs inst) nowMs hcheck
  rw [applyReport, h]
  simp only
  split
  next error next hev =>
    rw [hev] at hturn hresult hnext
    have hover : MAX_SAFE_INTEGER ≤ r.attentionRevision := by
      by_cases hraises : (r.recordReport report nowMs inst).Raises report
      · by_contra hunder
        obtain ⟨_, hok⟩ := hresult.raised hraises (by
          show r.attentionRevision < MAX_SAFE_INTEGER
          omega)
        cases hok
      · cases (hresult.quiet hraises).1
    subst hnext
    exact ⟨rfl, ⟨rfl, rfl⟩, rfl, ⟨rfl, rfl⟩, .inr ⟨rfl, hover⟩, (fun _ hok => by cases hok),
      (fun _ hmem => by cases hmem), hturn.turn⟩
  next attention next hev =>
    rw [hev] at hturn hresult hnext
    subst hnext
    refine ⟨rfl, ⟨rfl, rfl⟩, rfl, ⟨rfl, rfl⟩, .inl ?_, fun output hok hsome => ?_,
      hturn.ended attention rfl, hturn.turn⟩
    · have hannounces : Announces r _ attention := (hturn.announces attention rfl).before rfl rfl
      exact hannounces.after rfl rfl
    · cases hok
      have hraises : (r.recordReport report nowMs inst).Raises report := by
        by_contra hnot
        exact hsome (Except.ok.inj (hresult.quiet hnot).1)
      rcases hresult.moved hraises with hmoved | hmoved <;> simp [hmoved]

end

end TerminalAgentReducer

end DamHopper.AgentStatus
