import DamHopper.AgentStatus.Reducer

/-!
# AgentStatus — Steps

What each operation of a reducer can do, said once. `HookStep` lists the ways
`apply_hook` can end, with what is known about the reducer at that end;
`reportStep` and `claimOwner_granted` do the same for reports and for the
claim on a terminal. The invariants of the following modules are read off these
lists, not off the operations.
-/

namespace DamHopper.AgentStatus

open HookEvent

namespace TerminalAgentReducer

/-! ## Fresh reducers -/

variable {serverEpoch incarnation reporterEpoch nowMs inst : Nat} {terminalId event : String}
  {r owned next : TerminalAgentReducer} {envelope : PrivateHookEnvelope} {priorExited : Bool}
  {effect : HookEffect} {kind : AgentKind} {report : ReporterReport} {reason : BlockedReason}
  {ids : List String}

theorem new_ok {hello : ReporterHello}
    (h : new serverEpoch terminalId incarnation reporterEpoch hello nowMs inst = .ok r) :
    r = forReporter serverEpoch terminalId incarnation reporterEpoch hello nowMs inst := by
  unfold TerminalAgentReducer.new at h
  simp only [check_bind_eq_ok_iff] at h
  obtain ⟨_, _, _, _, _, _, _, _, ⟨⟩⟩ := h
  rfl

theorem newForHook_ok
    (h : newForHook serverEpoch terminalId incarnation reporterEpoch envelope nowMs inst = .ok r) :
    r = forHook serverEpoch terminalId incarnation reporterEpoch envelope nowMs inst := by
  unfold newForHook at h
  simp only [check_bind_eq_ok_iff] at h
  obtain ⟨_, _, _, _, _, _, ⟨⟩⟩ := h
  rfl

/-! ## The owner -/

/-- A claim is granted to the present owner, or by a takeover. -/
theorem claimOwner_granted (h : r.claimOwner envelope priorExited = .granted owned) :
    (r.nativeRoot = some envelope.rootProcess ∧ r.agentKind = envelope.agentKind ∧ owned = r) ∨
      (qualifyingBaseline envelope = true ∧ r.nativeRoot ≠ some envelope.rootProcess ∧
        (owned = r.replaceOwner envelope ∨
          r.nativeRoot = none ∧ owned = r.installOwner envelope)) := by
  unfold claimOwner at h
  split at h
  next root hroot =>
    split at h
    next heq =>
      split at h
      · cases h
      · rename_i hkind
        cases h
        refine .inl ⟨by rw [hroot, heq], by simpa using hkind, rfl⟩
    next hne =>
      split at h
      · rename_i hbase
        cases h
        simp only [Bool.and_eq_true] at hbase
        exact .inr ⟨hbase.2, by rw [hroot]; simpa using hne, .inl rfl⟩
      · cases h
  next hroot =>
    split at h
    next hbase =>
      cases h
      exact .inr ⟨hbase, by rw [hroot]; simp, .inr ⟨hroot, rfl⟩⟩
    · cases h

/-- After a granted claim the envelope's process and kind own the terminal. -/
theorem claimOwner_owner (h : r.claimOwner envelope priorExited = .granted owned) :
    owned.nativeRoot = some envelope.rootProcess ∧ owned.agentKind = envelope.agentKind := by
  rcases claimOwner_granted h with ⟨hroot, hkind, rfl⟩ | ⟨_, _, rfl | ⟨_, rfl⟩⟩
  · exact ⟨hroot, hkind⟩
  · exact ⟨rfl, rfl⟩
  · exact ⟨rfl, rfl⟩

/-! ## Events -/

section

variable (r : TerminalAgentReducer) (envelope : PrivateHookEnvelope) (nowMs : Nat)

/-- What an event of the current turn can do. -/
inductive TurnEffect : HookEffect → Prop
  | tool : TurnEffect (.accepted (r.resolveToolBlocker envelope.toolCallId) none)
  | toUnknown : TurnEffect (.accepted r.toUnknown none)
  | compact : ofName envelope.event = some .preCompact ∨
      ofName envelope.event = some .postCompact → TurnEffect r.compact
  | permissionPrompt : TurnEffect (r.permissionPrompt envelope nowMs)
  | agentNeedsInput : ofName envelope.event = some .notification →
      r.agentKind = .claude → envelope.notificationType = some "agent_needs_input" →
      TurnEffect (r.agentNeedsInput envelope nowMs)
  | stopFailure : TurnEffect (r.stopFailure nowMs)
  | interrupt : TurnEffect r.interrupt

/-- What the `match envelope.event` can do. -/
inductive EventStep : HookEffect → Prop
  | ignored : EventStep .ignored
  | start : ofName envelope.event = some .sessionStart → EventStep r.sessionStart
  | prompt : ofName envelope.event = some .userPromptSubmit →
      EventStep (r.userPromptSubmit envelope)
  | ended : ofName envelope.event = some .sessionEnd → EventStep r.sessionEnd
  | onTurn {effect : HookEffect} : envelope.turnId = r.currentTurnId →
      r.currentTurnId ≠ none → TurnEffect r envelope nowMs effect → EventStep effect

end

theorem EventStep.guarded (h : effect = .ignored ∨ TurnEffect r envelope nowMs effect) :
    EventStep r envelope nowMs (r.onCurrentTurn envelope effect) := by
  unfold onCurrentTurn
  split_ifs with hturn
  · exact .ignored
  rw [not_or, not_not] at hturn
  rcases h with rfl | h
  · exact .ignored
  · exact .onTurn hturn.1 hturn.2 h

theorem preToolUse_effect : TurnEffect r envelope nowMs (r.preToolUse envelope) := by
  unfold preToolUse
  split
  · exact .toUnknown
  · exact .tool

theorem notification_effect (hname : ofName envelope.event = some .notification)
    (hkind : r.agentKind = .claude) :
    r.notification envelope nowMs = .ignored ∨
      TurnEffect r envelope nowMs (r.notification envelope nowMs) := by
  unfold notification
  split
  · exact .inr .permissionPrompt
  · split_ifs with htype
    · exact .inr (.agentNeedsInput hname hkind htype)
    · exact .inl rfl

/-- **The event match does one of these things.** -/
theorem eventStep (r : TerminalAgentReducer) (envelope : PrivateHookEnvelope) (nowMs : Nat) :
    EventStep r envelope nowMs (r.hookEvent envelope nowMs) := by
  unfold hookEvent
  split
  next hname => exact .start hname
  next hname => exact .prompt hname
  · exact .guarded (.inr preToolUse_effect)
  · exact .guarded (.inr .tool)
  · exact .guarded (.inr .tool)
  next hname => exact .guarded (.inr (.compact (.inl hname)))
  next hname => exact .guarded (.inr (.compact (.inr hname)))
  · exact .guarded (.inr .toUnknown)
  next hname =>
    split_ifs with hkind
    · exact .ignored
    · rw [not_not] at hkind
      exact .guarded (notification_effect hname hkind)
  · split
    · exact .ignored
    · exact .guarded (.inr .stopFailure)
  · split
    · exact .ignored
    · exact .guarded (.inr .interrupt)
  · exact .guarded (.inr .toUnknown)
  next hname => exact .ended hname
  · exact .ignored

/-- `P` holds of the reducer an event leaves, if it leaves a new one. -/
def HookEffect.Leaves (P : TerminalAgentReducer → Prop) : HookEffect → Prop
  | .ignored => True
  | .ambiguous next => P next
  | .accepted next _ => P next

/-- What no event touches: the agent, its session and its connection. -/
structure SameAgent (r next : TerminalAgentReducer) : Prop where
  agentKind : next.agentKind = r.agentKind
  agentSessionId : next.agentSessionId = r.agentSessionId
  reporterEpoch : next.reporterEpoch = r.reporterEpoch
  reporterLeaseActive : next.reporterLeaseActive = r.reporterLeaseActive
  seenEventIds : next.seenEventIds = r.seenEventIds

/-- Resolving a blocker touches the state, the reason and the tool calls. -/
theorem resolveToolBlocker_touches (r : TerminalAgentReducer) (toolCallId : Option String) :
    ∃ state blockedReason blockedToolCallIds,
    r.resolveToolBlocker toolCallId =
      { r with state, blockedReason, blockedToolCallIds } := by
  unfold resolveToolBlocker
  simp only
  repeat' split
  all_goals exact ⟨_, _, _, rfl⟩

/-- Blocking is accepted, with attention or without. -/
theorem block_eq (r : TerminalAgentReducer) (reason : BlockedReason) (ids : List String)
    (nowMs : Nat) : ∃ attentionRevision attention,
    r.block reason ids nowMs = .accepted { r with
      state := .blocked, blockedReason := some reason, blockedToolCallIds := ids
      attentionRevision } attention := by
  unfold block
  split <;> exact ⟨_, _, rfl⟩

/-- An event keeps the agent, and the owner too unless it clears the outcome. -/
def EventKeeps (r next : TerminalAgentReducer) : Prop :=
  SameAgent r next ∧ (next.nativeRoot = r.nativeRoot ∨ next.lastOutcome = none)

theorem block_keeps :
    (r.block reason ids nowMs).Leaves (EventKeeps r) := by
  obtain ⟨_, _, heq⟩ := block_eq r reason ids nowMs
  rw [heq]
  exact ⟨⟨rfl, rfl, rfl, rfl, rfl⟩, .inl rfl⟩

/-! ### What an event announces -/

def place (r : TerminalAgentReducer) : Nat × String × Nat :=
  (r.serverEpoch, r.terminalId, r.incarnation)

structure Announced (r : TerminalAgentReducer) (event : AgentAttentionEvent) : Prop where
  id : event.id = AgentAttentionEvent.formatId r.serverEpoch r.terminalId r.incarnation
    r.attentionRevision
  terminalId : event.terminalId = r.terminalId
  incarnation : event.incarnation = r.incarnation
  attentionRevision : event.attentionRevision = r.attentionRevision

/-- What an operation may announce: nothing, and the counter stays, or one event for the
counter raised by one. -/
structure Announces (r next : TerminalAgentReducer)
    (attention : Option AgentAttentionEvent) : Prop where
  place : next.place = r.place
  quiet : attention = none → next.attentionRevision = r.attentionRevision
  raised : ∀ event ∈ attention, next.attentionRevision = satAdd r.attentionRevision 1 ∧
    next.Announced event

theorem Announces.silent (hplace : next.place = r.place)
    (hcount : next.attentionRevision = r.attentionRevision) : Announces r next none :=
  ⟨hplace, fun _ => hcount, fun _ hmem => by cases hmem⟩

theorem raiseAttention_announces (hplace : next.place = r.place)
    (hcount : next.attentionRevision = r.attentionRevision) (kind : AttentionKind)
    (turnId : Option String) (reason : Option BlockedReason) (outcome : Option TurnOutcome)
    (nowMs : Nat) :
    Announces r (next.raiseAttention kind turnId reason outcome nowMs).1
      (some (next.raiseAttention kind turnId reason outcome nowMs).2) := by
  refine ⟨hplace, (fun hnone => by cases hnone), fun event hmem => ?_⟩
  cases hmem
  rw [← hcount]
  exact ⟨rfl, rfl, rfl, rfl, rfl⟩

/-- Events of hooks call for attention; none announces the end of a turn. -/
def CallsOnly (attention : Option AgentAttentionEvent) : Prop :=
  ∀ event ∈ attention, event.kind = .needsAttention

theorem callsOnly_none : CallsOnly none := fun _ hmem => by cases hmem

/-- What an event of a hook announces. -/
def HookEffect.Announces (r : TerminalAgentReducer) : HookEffect → Prop
  | .ignored => True
  | .ambiguous next => TerminalAgentReducer.Announces r next none
  | .accepted next attention =>
    TerminalAgentReducer.Announces r next attention ∧ CallsOnly attention

theorem block_announces :
    (r.block reason ids nowMs).Announces r := by
  unfold block
  split
  · exact ⟨.silent rfl rfl, callsOnly_none⟩
  refine ⟨raiseAttention_announces ?_ ?_ _ _ _ _ _, fun event hmem => ?_⟩
  · rfl
  · rfl
  · cases hmem
    rfl

theorem userPromptSubmit_does : (r.userPromptSubmit envelope).Leaves (EventKeeps r) ∧
    (r.userPromptSubmit envelope).Announces r := by
  have hsame : ∀ {next : TerminalAgentReducer}, SameAgent r next →
      next.nativeRoot = r.nativeRoot → EventKeeps r next := fun hagent hroot => ⟨hagent, .inl hroot⟩
  unfold userPromptSubmit
  split
  · exact ⟨trivial, trivial⟩
  split
  · exact ⟨trivial, trivial⟩
  split
  · exact ⟨hsame ⟨rfl, rfl, rfl, rfl, rfl⟩ rfl, .silent rfl rfl, callsOnly_none⟩
  split
  · exact ⟨trivial, trivial⟩
  · split
    · exact ⟨hsame ⟨rfl, rfl, rfl, rfl, rfl⟩ rfl, .silent rfl rfl⟩
    · exact ⟨hsame ⟨rfl, rfl, rfl, rfl, rfl⟩ rfl, .silent rfl rfl, callsOnly_none⟩

/-- **What an event keeps and what it announces.** -/
theorem EventStep.does (h : EventStep r envelope nowMs effect) :
    effect.Leaves (EventKeeps r) ∧ effect.Announces r := by
  have hquiet : ∀ {next : TerminalAgentReducer}, SameAgent r next → next.place = r.place →
      next.nativeRoot = r.nativeRoot ∨ next.lastOutcome = none →
      next.attentionRevision = r.attentionRevision →
      (HookEffect.accepted next none).Leaves (EventKeeps r) ∧
        (HookEffect.accepted next none).Announces r :=
    fun hagent hplace howner hcount => ⟨⟨hagent, howner⟩, .silent hplace hcount, callsOnly_none⟩
  cases h with
  | ignored => exact ⟨trivial, trivial⟩
  | start _ =>
    unfold sessionStart
    split
    · exact ⟨trivial, trivial⟩
    · exact hquiet ⟨rfl, rfl, rfl, rfl, rfl⟩ rfl (.inl rfl) rfl
  | prompt _ => exact userPromptSubmit_does
  | ended _ => exact hquiet ⟨rfl, rfl, rfl, rfl, rfl⟩ rfl (.inr rfl) rfl
  | onTurn _ _ h =>
    cases h with
    | tool =>
      obtain ⟨_, _, _, heq⟩ := resolveToolBlocker_touches r envelope.toolCallId
      rw [heq]
      exact hquiet ⟨rfl, rfl, rfl, rfl, rfl⟩ rfl (.inl rfl) rfl
    | toUnknown | compact _ | interrupt =>
      exact hquiet ⟨rfl, rfl, rfl, rfl, rfl⟩ rfl (.inl rfl) rfl
    | permissionPrompt | agentNeedsInput _ _ _ | stopFailure =>
      exact ⟨block_keeps, block_announces⟩

theorem ambiguous_keeps (h : r.hookEvent envelope nowMs = .ambiguous next) :
    EventKeeps r next := by
  have hkeeps := (eventStep r envelope nowMs).does.1
  rwa [h] at hkeeps

theorem accepted_keeps {attention : Option AgentAttentionEvent}
    (h : r.hookEvent envelope nowMs = .accepted next attention) : EventKeeps r next := by
  have hkeeps := (eventStep r envelope nowMs).does.1
  rwa [h] at hkeeps

/-- A baseline keeps the owner that has just been installed. -/
theorem baseline_nativeRoot (r : TerminalAgentReducer) (nowMs : Nat)
    (h : qualifyingBaseline envelope = true) :
    (r.hookEvent envelope nowMs).Leaves fun next => next.nativeRoot = r.nativeRoot := by
  have hname : ofName envelope.event = some .sessionStart ∨
      ofName envelope.event = some .userPromptSubmit := by
    simp only [qualifyingBaseline, Bool.or_eq_true, Bool.and_eq_true, decide_eq_true_eq] at h
    exact h.imp id And.left
  rcases hname with hname | hname
  · rw [hookEvent, hname]
    simp only [sessionStart]
    split
    · trivial
    · rfl
  · rw [hookEvent, hname]
    simp only [userPromptSubmit]
    repeat' split
    all_goals trivial

/-! ## Hooks -/

/-- The envelope passes the fences and the claim on the terminal is granted. -/
def Claimed (r : TerminalAgentReducer) (envelope : PrivateHookEnvelope)
    (priorExited : Bool) (owned : TerminalAgentReducer) : Prop :=
  r.fenced envelope = false ∧ r.claimOwner envelope priorExited = .granted owned

section

variable (r : TerminalAgentReducer) (envelope : PrivateHookEnvelope) (nowMs inst : Nat)
  (priorExited : Bool)

/-- The ways `apply_hook` can end: the result and the reducer left behind. -/
inductive HookStep : Except AgentStatusError ReducerOutput → TerminalAgentReducer → Prop
  | fenced : r.fenced envelope = true → HookStep (.ok r.unchanged) r
  | refused {error : AgentStatusError} : r.fenced envelope = false →
      r.claimOwner envelope priorExited = .refused error →
      HookStep (.error error) r
  | unclaimed : r.fenced envelope = false → r.claimOwner envelope priorExited = .ignored →
      HookStep (.ok r.unchanged) r
  | otherSession {owned : TerminalAgentReducer} : r.Claimed envelope priorExited owned →
      owned.agentSessionId ≠ envelope.agentSessionId →
      HookStep (.ok (owned.recordSeen envelope).unchanged) (owned.recordSeen envelope)
  | switched {owned : TerminalAgentReducer} : r.Claimed envelope priorExited owned →
      owned.agentSessionId ≠ envelope.agentSessionId →
      ofName envelope.event = some .sessionStart →
      HookStep (.ok ((owned.recordSeen envelope).switchSession envelope nowMs inst).changed)
        ((owned.recordSeen envelope).switchSession envelope nowMs inst)
  | unsupported {owned : TerminalAgentReducer} {error : AgentStatusError} :
      r.Claimed envelope priorExited owned →
      owned.agentSessionId = envelope.agentSessionId → owned.agentKind = .omp →
      HookStep (.error error) (owned.recordSeen envelope)
  | dropped {owned : TerminalAgentReducer} : r.Claimed envelope priorExited owned →
      owned.agentSessionId = envelope.agentSessionId → owned.agentKind ≠ .omp →
      HookStep (.ok (owned.recordSeen envelope).unchanged) (owned.recordSeen envelope)
  | ambiguous {owned next : TerminalAgentReducer} : r.Claimed envelope priorExited owned →
      owned.agentSessionId = envelope.agentSessionId → owned.agentKind ≠ .omp →
      (owned.recordSeen envelope).hookEvent envelope nowMs = .ambiguous next →
      HookStep (.ok next.changed) next
  | accepted {owned next : TerminalAgentReducer}
      {attention : Option AgentAttentionEvent} : r.Claimed envelope priorExited owned →
      owned.agentSessionId = envelope.agentSessionId → owned.agentKind ≠ .omp →
      (owned.recordSeen envelope).hookEvent envelope nowMs = .accepted next attention →
      HookStep (.ok (acceptHook (owned.recordSeen envelope) next attention nowMs inst).1)
        (acceptHook (owned.recordSeen envelope) next attention nowMs inst).2

end

theorem qualifyEvent_ok {b : Bool} (h : qualifyEvent kind event = .ok b) : kind ≠ .omp := by
  rintro rfl
  cases h

theorem qualifyEvent_error {error : AgentStatusError} (h : qualifyEvent kind event = .error error) :
    kind = .omp := by
  cases kind with
  | omp => rfl
  | codex | claude => cases h

/-- **`apply_hook` ends in one of these ways.** -/
theorem hookStep (r : TerminalAgentReducer) (envelope : PrivateHookEnvelope) (nowMs inst : Nat)
    (priorExited : Bool) :
    HookStep r envelope nowMs inst priorExited
      (r.applyHookWithPriorExited envelope nowMs inst priorExited).1
      (r.applyHookWithPriorExited envelope nowMs inst priorExited).2 := by
  unfold applyHookWithPriorExited
  split_ifs with hf
  · exact .fenced hf
  rw [Bool.not_eq_true] at hf
  split
  next hclaim => exact .refused hf hclaim
  next hclaim => exact .unclaimed hf hclaim
  rename_i owned hclaim
  have hc : r.Claimed envelope priorExited owned := ⟨hf, hclaim⟩
  simp only [applyClaimed]
  split
  next hsession =>
    split_ifs with hstart
    · exact .otherSession hc hsession
    · rw [not_or, not_not] at hstart
      exact .switched hc hsession hstart.1
  rename_i hsession
  rw [not_not] at hsession
  unfold applyQualified
  split
  next hq => exact .unsupported hc hsession (qualifyEvent_error hq)
  next hq => exact .dropped hc hsession (qualifyEvent_ok hq)
  rename_i hq
  split
  · exact .dropped hc hsession (qualifyEvent_ok hq)
  next hev => exact .ambiguous hc hsession (qualifyEvent_ok hq) hev
  next hev => exact .accepted hc hsession (qualifyEvent_ok hq) hev

/-- The envelope speaks for the terminal's owner and session. -/
structure Speaks (r : TerminalAgentReducer) (envelope : PrivateHookEnvelope) : Prop where
  fenced : r.fenced envelope = false
  nativeRoot : r.nativeRoot = some envelope.rootProcess
  agentKind : r.agentKind = envelope.agentKind
  agentSessionId : r.agentSessionId = envelope.agentSessionId

theorem Speaks.apply (h : r.Speaks envelope) (nowMs inst : Nat) (priorExited : Bool) :
    r.applyHookWithPriorExited envelope nowMs inst priorExited
      = (r.recordSeen envelope).applyQualified envelope nowMs inst := by
  have hclaim : r.claimOwner envelope priorExited = .granted r := by
    simp [claimOwner, h.nativeRoot, h.agentKind]
  have hsession : (r.recordSeen envelope).agentSessionId = envelope.agentSessionId :=
    h.agentSessionId
  rw [applyHookWithPriorExited, h.fenced, hclaim]
  simp [applyClaimed, hsession]

/-! ## Reports -/

theorem admitReport_ok (h : r.admitReport reporterEpoch report nowMs = .ok true) :
    r.reporterLeaseActive = true ∧ checkEvent report = .ok () ∧ r.agentKind = .omp := by
  unfold admitReport at h
  simp only [check_bind_eq_ok_iff, require_eq_ok_iff] at h
  obtain ⟨_, ⟨hlease, _⟩, _, hfence⟩ := h
  obtain ⟨fresh, _, hvalid⟩ := bind_eq_ok_iff.mp hfence
  split at hvalid
  · cases hv : r.validateReport report with
    | error e =>
      rw [hv] at hvalid
      cases hvalid
    | ok u =>
      simp only [validateReport, check_bind_eq_ok_iff, require_eq_ok_iff] at hv
      obtain ⟨_, _, hcons, hkind⟩ := hv
      rw [validateReportConsistency, check_bind_eq_ok_iff] at hcons
      exact ⟨hlease, hcons.2, hkind⟩
  · cases hvalid

theorem checkBlockedReason_iff : checkBlockedReason report = .ok () ↔
      (report.state = .blocked ↔ report.blockedReason.isSome) := by
  rw [checkBlockedReason, check_bind_eq_ok_iff, require_eq_ok_iff, require_eq_ok_iff,
    Option.isSome_iff_ne_none]
  tauto

/-- A consistent report blocks exactly with a reason; only the end of a turn is
judged by its outcome instead. -/
theorem checkEvent_blocked (h : checkEvent report = .ok ()) (hevent : report.event ≠ .turnEnded) :
    report.state = .blocked ↔ report.blockedReason.isSome := by
  have hneither : report.state ≠ .blocked → report.blockedReason = none →
      (report.state = .blocked ↔ report.blockedReason.isSome) := by
    intro hs hr
    simp [hs, hr]
  unfold checkEvent at h
  split at h
  · simp only [check_bind_eq_ok_iff, checkState, checkNoBlockedReason, require_eq_ok_iff] at h
    exact hneither (by rw [h.1]; decide) h.2.2.2
  next hended => exact absurd hended hevent
  · exact checkBlockedReason_iff.mp (check_bind_eq_ok_iff.mp h).2
  · exact checkBlockedReason_iff.mp h
  · exact checkBlockedReason_iff.mp (check_bind_eq_ok_iff.mp h).2
  · simp only [check_bind_eq_ok_iff, checkState, checkNoBlockedReason, require_eq_ok_iff] at h
    exact hneither (by rw [h.1]; decide) h.2.2
  · exact checkBlockedReason_iff.mp (check_bind_eq_ok_iff.mp h).2

/-- The ways `apply_report` can end: it changes nothing, or an admitted report
ran through `reportEvent`. -/
theorem reportStep (r : TerminalAgentReducer) (reporterEpoch : Nat) (report : ReporterReport)
    (nowMs inst : Nat) :
    (r.applyReport reporterEpoch report nowMs inst).2 = r ∨
      (r.admitReport reporterEpoch report nowMs = .ok true ∧
        ∃ observedAtMs, (r.applyReport reporterEpoch report nowMs inst).2 =
          { ((r.recordReport report nowMs inst).reportEvent report nowMs).2 with
            observedAtMs }) := by
  unfold applyReport
  split
  · exact .inl rfl
  · exact .inl rfl
  rename_i haccept
  refine .inr ⟨haccept, ?_⟩
  simp only
  split
  next hev => exact ⟨_, by rw [hev]⟩
  next hev => exact ⟨_, by rw [hev]⟩

theorem raiseReported_touches (r : TerminalAgentReducer) (kind : AttentionKind)
    (turnId : Option String) (reason : Option BlockedReason) (outcome : Option TurnOutcome)
    (nowMs : Nat) :
    ∃ attentionRevision latestAttention, (r.raiseReported kind turnId reason outcome nowMs).2 =
        { r with attentionRevision, latestAttention } := by
  unfold raiseReported
  simp only
  split <;> exact ⟨_, _, rfl⟩

/-- What a report can change: state, reason, turn, session, outcome and
attention. State and reason agree afterwards if they did before. -/
structure ReportTouches (r next : TerminalAgentReducer) : Prop where
  touches : ∃ state blockedReason currentTurnId agentSessionId lastOutcome
      attentionRevision latestAttention,
    next = { r with
      state, blockedReason, currentTurnId, agentSessionId, lastOutcome,
      attentionRevision, latestAttention }
  reasoned : (r.state = .blocked ↔ r.blockedReason.isSome) →
    (next.state = .blocked ↔ next.blockedReason.isSome)

def Raises (r : TerminalAgentReducer) (report : ReporterReport) : Prop :=
  (report.event = .stateChanged ∧ report.state = .blocked ∧ r.state ≠ .blocked) ∨
    (report.event = .turnEnded ∧ r.currentTurnId ≠ none ∧
      r.currentTurnId = report.turnId ∧
      (report.outcome = some .ended ∨ report.outcome = some .error))

/-- What a report assigns before attention is raised. Only `TurnStarted` and `Snapshot`
install a turn. -/
structure Assigns (r : TerminalAgentReducer) (report : ReporterReport)
    (next : TerminalAgentReducer) : Prop where
  touches : ∃ state blockedReason currentTurnId agentSessionId lastOutcome,
    next = { r with state, blockedReason, currentTurnId, agentSessionId, lastOutcome }
  reasoned : (r.state = .blocked ↔ r.blockedReason.isSome) →
    (next.state = .blocked ↔ next.blockedReason.isSome)
  turn : ∀ turn, next.currentTurnId = some turn → r.currentTurnId = some turn ∨
    (report.event = .turnStarted ∨ report.event = .snapshot) ∧ report.turnId = some turn

theorem Assigns.same (h : r.Assigns report next) :
    next.place = r.place ∧ next.attentionRevision = r.attentionRevision := by
  obtain ⟨_, _, _, _, _, rfl⟩ := h.touches
  exact ⟨rfl, rfl⟩

/-- The ways `reportEvent` can end: with an assignment, and with attention raised on top or
not. An announced end of a turn is that of the current one. -/
inductive ReportStep (r : TerminalAgentReducer) (report : ReporterReport) (nowMs : Nat) :
    Except AgentStatusError (Option AgentAttentionEvent) × TerminalAgentReducer → Prop
  | quiet {next : TerminalAgentReducer} : ¬ r.Raises report → r.Assigns report next →
      ReportStep r report nowMs (.ok none, next)
  | raised {next : TerminalAgentReducer} {kind : AttentionKind} {turnId reason outcome} :
      r.Raises report → r.Assigns report next →
      next.state ≠ r.state ∨ next.currentTurnId ≠ r.currentTurnId →
      (kind = .turnEnded → turnId = r.currentTurnId ∧ r.currentTurnId ≠ none ∧
        next.currentTurnId = none) →
      ReportStep r report nowMs (next.raiseReported kind turnId reason outcome nowMs)

theorem reportStateChanged_step (hevent : report.event = .stateChanged)
    (hreason : report.state = .blocked ↔ report.blockedReason.isSome) :
    ReportStep r report nowMs (r.reportStateChanged report nowMs) := by
  unfold reportStateChanged
  split
  next hblocked =>
    have hset : r.Assigns report
        { r with state := .blocked, blockedReason := report.blockedReason } :=
      ⟨⟨_, _, _, _, _, rfl⟩, fun _ => by rw [← hreason, hblocked], fun _ h => .inl h⟩
    split_ifs with hwas
    · exact .quiet (by simp [Raises, hevent, hwas]) hset
    · exact .raised (.inl ⟨hevent, hblocked, hwas⟩) hset (.inl (Ne.symm hwas))
        fun hkind => by cases hkind
  next hblocked =>
    exact .quiet (by simp [Raises, hevent, hblocked])
      ⟨⟨_, _, _, _, _, rfl⟩, fun _ => by simpa using hblocked, fun _ h => .inl h⟩

theorem reportTurnEnded_step (hevent : report.event = .turnEnded)
    (hcheck : checkEvent report = .ok ()) :
    ReportStep r report nowMs (r.reportTurnEnded report nowMs) := by
  -- a turn that ends otherwise, or another turn than the current one, is quiet
  have hquiet : ¬ (r.currentTurnId.isSome && r.currentTurnId = report.turnId) = true →
      ¬ r.Raises report := by
    intro hno hraises
    rcases hraises with ⟨h, _⟩ | ⟨_, hsome, heq, _⟩
    · cases hevent.symm.trans h
    · exact hno (by simp [Option.isSome_iff_ne_none, hsome, ← heq])
  have hmatch : (r.currentTurnId.isSome && r.currentTurnId = report.turnId) = true →
      r.currentTurnId ≠ none ∧ r.currentTurnId = report.turnId := by
    simp [Option.isSome_iff_ne_none]
  unfold reportTurnEnded
  split
  next hnone =>
    rw [checkEvent, hevent, check_bind_eq_ok_iff] at hcheck
    simp only [checkOutcome, hnone] at hcheck
    cases hcheck.2
  rename_i outcome hsome
  simp only
  split
  · split_ifs with hm
    · obtain ⟨hcur, heq⟩ := hmatch hm
      exact .raised (.inr ⟨hevent, hcur, heq, .inl hsome⟩)
        ⟨⟨_, _, _, _, _, rfl⟩, by simp, by simp⟩ (.inr (Ne.symm hcur))
        fun _ => ⟨heq.symm, hcur, rfl⟩
    · exact .quiet (hquiet hm) ⟨⟨_, _, _, _, _, rfl⟩, by simp, by simp⟩
  · exact .quiet (by simp [Raises, hevent, hsome]) ⟨⟨_, _, _, _, _, rfl⟩, by simp, by simp⟩
  · split_ifs with hm
    · obtain ⟨hcur, heq⟩ := hmatch hm
      exact .raised (.inr ⟨hevent, hcur, heq, .inr hsome⟩)
        ⟨⟨_, _, _, _, _, rfl⟩, by simp, by simp⟩ (.inr (Ne.symm hcur))
        fun hkind => by cases hkind
    · exact .quiet (hquiet hm) ⟨⟨_, _, _, _, _, rfl⟩, by simp, by simp⟩
  · exact .quiet (by simp [Raises, hevent, hsome]) ⟨⟨_, _, _, _, _, rfl⟩, by simp, by simp⟩

/-- **What a consistent report can do.** -/
theorem reportEvent_step (nowMs : Nat) (hcheck : checkEvent report = .ok ()) :
    ReportStep r report nowMs (r.reportEvent report nowMs) := by
  have hreason := checkEvent_blocked hcheck
  unfold reportEvent
  split
  next hevent =>
    exact .quiet (by simp [Raises, hevent])
      ⟨⟨_, _, _, _, _, rfl⟩, fun _ => hreason (by rw [hevent]; decide),
        fun _ h => .inr ⟨.inr hevent, h⟩⟩
  next hevent =>
    exact .quiet (by simp [Raises, hevent])
      ⟨⟨_, _, _, _, _, rfl⟩, fun _ => hreason (by rw [hevent]; decide), by simp⟩
  next hevent =>
    split
    · exact .quiet (by simp [Raises, hevent]) ⟨⟨_, _, _, _, _, rfl⟩, id, fun _ h => .inl h⟩
    · exact .quiet (by simp [Raises, hevent])
        ⟨⟨_, _, _, _, _, rfl⟩, by simp, fun _ h => .inr ⟨.inl hevent, h⟩⟩
  next hevent => exact reportStateChanged_step hevent (hreason (by rw [hevent]; decide))
  next hevent => exact reportTurnEnded_step hevent hcheck
  next hevent =>
    split
    · exact .quiet (by simp [Raises, hevent])
        ⟨⟨_, _, _, _, _, rfl⟩, fun _ => hreason (by rw [hevent]; decide), fun _ h => .inl h⟩
    · exact .quiet (by simp [Raises, hevent]) ⟨⟨_, _, _, _, _, rfl⟩, id, fun _ h => .inl h⟩
  next hevent => exact .quiet (by simp [Raises, hevent]) ⟨⟨_, _, _, _, _, rfl⟩, by simp, by simp⟩

/-- **An admitted report touches only these fields.** -/
theorem reportEvent_touches (nowMs : Nat) (hcheck : checkEvent report = .ok ()) :
    ReportTouches r (r.reportEvent report nowMs).2 := by
  have hstep := reportEvent_step (r := r) nowMs hcheck
  generalize r.reportEvent report nowMs = result at hstep ⊢
  cases hstep with
  | quiet _ hassigns =>
    obtain ⟨_, _, _, _, _, rfl⟩ := hassigns.touches
    exact ⟨⟨_, _, _, _, _, _, _, rfl⟩, hassigns.reasoned⟩
  | @raised next kind turnId reason outcome _ hassigns _ _ =>
    have hreasoned := hassigns.reasoned
    obtain ⟨_, _, _, _, _, rfl⟩ := hassigns.touches
    obtain ⟨_, _, heq⟩ := raiseReported_touches _ kind turnId reason outcome nowMs
    rw [heq]
    exact ⟨⟨_, _, _, _, _, _, _, rfl⟩, hreasoned⟩

end TerminalAgentReducer

end DamHopper.AgentStatus
