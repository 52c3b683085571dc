import DamHopper.AgentStatus.Steps
import DamHopper.Lib.Runs

/-!
# AgentStatus — Blockers

The bookkeeping of a reducer: a terminal is `Blocked` exactly when it has a
reason, tool calls are held only while it is blocked, and the queues stay within
their limits.

The queues and the reason are kept by every operation. The tool calls are not:
four branches leave `Blocked` without clearing them (a compaction, a
reconnect, `mark_unknown` and the expiry of an OMP lease) and one branch adds a
call without a bound (`agent_needs_input`). `BlockersSafe` says when these
branches do no harm.
-/

namespace DamHopper.AgentStatus

open HookEvent List

namespace TerminalAgentReducer

/-- State, reason and blocked tool calls agree. -/
structure BlockersKept (state : AgentState) (reason : Option BlockedReason)
    (ids : List String) : Prop where
  reasoned : state = .blocked ↔ reason.isSome
  blockedOnly : ids ≠ [] → state = .blocked
  nodup : ids.Nodup
  bounded : ids.length ≤ MAX_BLOCKED_TOOL_CALL_IDS

structure QueuesBounded (seen turns sessions : List String)
    (roots : List ProcessIdentity) : Prop where
  seen : seen.length ≤ MAX_SEEN_EVENT_IDS
  turns : turns.length ≤ MAX_RETIRED_TURN_IDS
  sessions : sessions.length ≤ MAX_RETIRED_SESSION_IDS
  roots : roots.length ≤ MAX_RETIRED_ROOTS

structure Bookkept (r : TerminalAgentReducer) : Prop where
  blockers : BlockersKept r.state r.blockedReason r.blockedToolCallIds
  queues : QueuesBounded r.seenEventIds r.retiredTurnIds r.retiredSessionIds
    r.retiredNativeRoots

/-- The condition under which an operation keeps the blockers. -/
def BlockersSafe (r : TerminalAgentReducer) : Op → Prop
  | .applyHook envelope _ _ _ =>
    r.Speaks envelope → r.agentKind ≠ .omp → envelope.turnId = r.currentTurnId →
      r.currentTurnId ≠ none →
      ((ofName envelope.event = some .preCompact ∨
          ofName envelope.event = some .postCompact) →
        r.blockedToolCallIds = []) ∧
      (ofName envelope.event = some .notification → r.agentKind = .claude →
        envelope.notificationType = some "agent_needs_input" →
        ∀ toolId, envelope.toolCallId = some toolId → toolId ∉ r.blockedToolCallIds →
          r.blockedToolCallIds.length < MAX_BLOCKED_TOOL_CALL_IDS)
  | .applyReport .. => True
  | .reconnect reporterEpoch hello _ _ =>
    r.checkReconnect reporterEpoch hello = .ok () → r.blockedToolCallIds = []
  | .markUnknown => r.blockedToolCallIds = []
  | .checkLease nowMs leaseMs inst =>
    r.agentKind = .omp → r.leaseExpired nowMs leaseMs inst = true →
      r.blockedToolCallIds = []

/-! ## The queues -/

section

variable {r : TerminalAgentReducer}

theorem retireCurrentTurn_length (h : r.retiredTurnIds.length ≤ MAX_RETIRED_TURN_IDS) :
    r.retireCurrentTurn.retiredTurnIds.length ≤ MAX_RETIRED_TURN_IDS := by
  simp only [retireCurrentTurn]
  split
  · exact length_pushBounded_le h
  · exact h

theorem retireSessionIf_length (condition : Prop) [Decidable condition]
    (h : r.retiredSessionIds.length ≤ MAX_RETIRED_SESSION_IDS) :
    (r.retireSessionIf condition).retiredSessionIds.length ≤ MAX_RETIRED_SESSION_IDS := by
  simp only [retireSessionIf]
  split
  · exact length_pushBounded_le h
  · exact h

theorem retireRoot_length (h : r.retiredNativeRoots.length ≤ MAX_RETIRED_ROOTS) :
    r.retireRoot.retiredNativeRoots.length ≤ MAX_RETIRED_ROOTS := by
  simp only [retireRoot]
  split
  · exact length_pushBounded_le h
  · exact h

theorem QueuesBounded.retired (condition : Prop) [Decidable condition]
    (h : QueuesBounded r.seenEventIds r.retiredTurnIds r.retiredSessionIds r.retiredNativeRoots) :
    QueuesBounded r.seenEventIds r.retireCurrentTurn.retiredTurnIds
      (r.retireSessionIf condition).retiredSessionIds r.retireRoot.retiredNativeRoots :=
  ⟨h.seen, retireCurrentTurn_length h.turns, retireSessionIf_length condition h.sessions,
    retireRoot_length h.roots⟩

end

/-! ## The blockers -/

section

variable {state : AgentState} {reason : Option BlockedReason} {ids : List String}

theorem BlockersKept.cleared (state : AgentState) (hs : state ≠ .blocked)
    (hids : ids = []) : BlockersKept state none ids := by
  subst hids
  exact ⟨by simp [hs], by simp, nodup_nil, Nat.zero_le _⟩

theorem BlockersKept.unknown (hids : ids = []) : BlockersKept .unknown none ids :=
  .cleared .unknown (by decide) hids

theorem BlockersKept.block (b : BlockedReason) (hn : ids.Nodup)
    (hb : ids.length ≤ MAX_BLOCKED_TOOL_CALL_IDS) :
    BlockersKept .blocked (some b) ids :=
  ⟨by simp, fun _ => rfl, hn, hb⟩

theorem BlockersKept.ids_eq_nil (h : BlockersKept state reason ids)
    (hs : state ≠ .blocked) : ids = [] := by
  by_contra hids
  exact hs (h.blockedOnly hids)

end

section

variable {r owned : TerminalAgentReducer} {toolId : String} {envelope : PrivateHookEnvelope}
  {nowMs inst reporterEpoch : Nat} {attention : Option AgentAttentionEvent} {priorExited : Bool}
  {hello : ReporterHello} {ids : List String}

theorem nodup_concat (h : ids.Nodup) (hnew : toolId ∉ ids) :
    (ids ++ [toolId]).Nodup := by
  rw [← concat_eq_append]
  exact h.concat hnew

section

variable (h : r.Bookkept)
include h

theorem resolveToolBlocker_bookkept (toolCallId : Option String) :
    (r.resolveToolBlocker toolCallId).Bookkept := by
  refine ⟨?_, ?queues⟩
  case queues =>
    obtain ⟨_, _, _, heq⟩ := resolveToolBlocker_touches r toolCallId
    rw [heq]
    exact h.queues
  have hb := h.blockers
  unfold resolveToolBlocker
  split
  next hstate =>
    split
    · split
      next toolId =>
        split
        · simp only
          split_ifs with hids
          · exact .cleared .working (by decide) hids
          · -- other blockers remain
            refine ⟨hb.reasoned, fun _ => hstate, hb.nodup.filter _, ?_⟩
            exact Nat.le_trans (length_filter_le _ _) hb.bounded
        · exact hb
      · exact .unknown rfl
    next hids =>
      rw [not_not] at hids
      split
      · exact .cleared .working (by decide) hids
      · exact .unknown hids
  next hstate => exact .cleared .working (by decide) (hb.ids_eq_nil hstate)

theorem block_bookkept {reason : BlockedReason} (nowMs : Nat)
    (hn : ids.Nodup) (hb : ids.length ≤ MAX_BLOCKED_TOOL_CALL_IDS) :
    (r.block reason ids nowMs).Leaves Bookkept := by
  obtain ⟨_, _, heq⟩ := block_eq r reason ids nowMs
  rw [heq]
  exact ⟨.block reason hn hb, h.queues⟩

theorem permissionPrompt_bookkept (envelope : PrivateHookEnvelope) (nowMs : Nat) :
    (r.permissionPrompt envelope nowMs).Leaves Bookkept := by
  have hb := h.blockers
  unfold permissionPrompt
  cases envelope.toolCallId with
  | none => exact block_bookkept h nowMs hb.nodup hb.bounded
  | some toolId =>
    simp only
    split_ifs with hnew
    · exact block_bookkept h nowMs hb.nodup hb.bounded
    · exact block_bookkept h nowMs
        ((nodup_concat hb.nodup hnew).sublist trimTo_sublist) length_trimTo_le

/-- `agent_needs_input` needs room for the new tool call. -/
theorem agentNeedsInput_bookkept (nowMs : Nat)
    (hroom : ∀ toolId, envelope.toolCallId = some toolId → toolId ∉ r.blockedToolCallIds →
        r.blockedToolCallIds.length < MAX_BLOCKED_TOOL_CALL_IDS) :
    (r.agentNeedsInput envelope nowMs).Leaves Bookkept := by
  have hb := h.blockers
  unfold agentNeedsInput
  cases hcall : envelope.toolCallId with
  | none => exact block_bookkept h nowMs hb.nodup hb.bounded
  | some toolId =>
    simp only
    split_ifs with hnew
    · exact block_bookkept h nowMs hb.nodup hb.bounded
    refine block_bookkept h nowMs (nodup_concat hb.nodup hnew) ?_
    have := hroom toolId hcall hnew
    rw [length_append, length_singleton]
    omega

theorem userPromptSubmit_bookkept (envelope : PrivateHookEnvelope) :
    (r.userPromptSubmit envelope).Leaves Bookkept := by
  have hq := h.queues
  unfold userPromptSubmit
  repeat' split
  all_goals try trivial
  · exact ⟨.cleared .working (by decide) rfl, hq⟩
  all_goals
    refine ⟨.cleared _ (by simp) rfl, hq.seen, ?_, hq.sessions, hq.roots⟩
    dsimp only
    exact length_trimTo_le

/-- **Events keep the books**, a compaction only when no tool call is held, and
a request for input only when there is room for another one. -/
theorem EventStep.bookkept {effect : HookEffect} (hstep : EventStep r envelope nowMs effect)
    (hsafe : envelope.turnId = r.currentTurnId → r.currentTurnId ≠ none →
      ((ofName envelope.event = some .preCompact ∨ ofName envelope.event = some .postCompact) →
        r.blockedToolCallIds = []) ∧
      (ofName envelope.event = some .notification → r.agentKind = .claude →
        envelope.notificationType = some "agent_needs_input" →
        ∀ toolId, envelope.toolCallId = some toolId → toolId ∉ r.blockedToolCallIds →
          r.blockedToolCallIds.length < MAX_BLOCKED_TOOL_CALL_IDS)) :
    effect.Leaves Bookkept := by
  cases hstep with
  | ignored => trivial
  | start _ =>
    unfold sessionStart
    split
    · trivial
    · exact ⟨.unknown rfl, h.queues⟩
  | prompt _ => exact userPromptSubmit_bookkept h envelope
  | ended _ => exact ⟨.unknown rfl, h.queues.retired True⟩
  | onTurn hturn hsome heffect =>
    obtain ⟨hcompact, hinput⟩ := hsafe hturn hsome
    cases heffect with
    | tool => exact resolveToolBlocker_bookkept h _
    | toUnknown => exact ⟨.unknown rfl, h.queues⟩
    | compact hname => exact ⟨.cleared .working (by decide) (hcompact hname), h.queues⟩
    | permissionPrompt => exact permissionPrompt_bookkept h envelope nowMs
    | agentNeedsInput hname hkind htype =>
      exact agentNeedsInput_bookkept h nowMs (hinput hname hkind htype)
    | stopFailure => exact block_bookkept h nowMs nodup_nil (Nat.zero_le _)
    | interrupt =>
      have hq := h.queues
      exact ⟨.cleared .idle (by decide) rfl, hq.seen, retireCurrentTurn_length hq.turns,
        hq.sessions, hq.roots⟩

/-! ## Hooks -/

theorem recordSeen_bookkept : (r.recordSeen envelope).Bookkept := by
  have hq := h.queues
  exact ⟨h.blockers, length_pushBounded_le hq.seen, hq.turns, hq.sessions, hq.roots⟩

theorem replaceOwner_bookkept (envelope : PrivateHookEnvelope) :
    (r.replaceOwner envelope).Bookkept := by
  have hq := h.queues
  refine ⟨.unknown rfl, hq.seen, Nat.zero_le _, ?_, ?_⟩
  · exact retireSessionIf_length (r := r.retireRoot.retireCurrentTurn) _ hq.sessions
  · exact retireRoot_length hq.roots

theorem claimed_bookkept (hclaim : r.Claimed envelope priorExited owned) :
    owned.Bookkept ∧ (owned = r ∧ r.nativeRoot = some envelope.rootProcess ∧
      r.agentKind = envelope.agentKind ∨ owned.blockedToolCallIds = []) := by
  rcases claimOwner_granted hclaim.2 with ⟨hroot, hkind, rfl⟩ | ⟨_, _, rfl | ⟨_, rfl⟩⟩
  · exact ⟨h, .inl ⟨rfl, hroot, hkind⟩⟩
  · exact ⟨replaceOwner_bookkept h envelope, .inr rfl⟩
  · have hq := h.queues
    exact ⟨⟨.unknown rfl, hq.seen, Nat.zero_le _, hq.sessions, hq.roots⟩,
      .inr rfl⟩

end

/-- The books, and what makes them last: OMP reporters hold no tool calls. -/
structure Settled (r : TerminalAgentReducer) : Prop where
  bookkept : r.Bookkept
  omp : r.agentKind = .omp → r.blockedToolCallIds = []

section

variable (h : r.Settled)
include h

theorem claimed_settled (hclaim : r.Claimed envelope priorExited owned) :
    (owned.recordSeen envelope).Settled := by
  obtain ⟨hbook, howned⟩ := claimed_bookkept h.bookkept hclaim
  refine ⟨recordSeen_bookkept hbook, fun hkind => ?_⟩
  rcases howned with ⟨rfl, _, _⟩ | hids
  · exact h.omp hkind
  · exact hids

/-- The event of a granted hook keeps the books if the operation is safe. -/
theorem event_bookkept (hsafe : r.BlockersSafe (.applyHook envelope nowMs inst priorExited))
    (hclaim : r.Claimed envelope priorExited owned)
    (hsession : owned.agentSessionId = envelope.agentSessionId) (hkind : owned.agentKind ≠ .omp) :
    ((owned.recordSeen envelope).hookEvent envelope nowMs).Leaves Bookkept := by
  obtain ⟨hbook, howned⟩ := claimed_bookkept h.bookkept hclaim
  refine (eventStep _ envelope nowMs).bookkept (recordSeen_bookkept hbook) ?_
  intro hturn hsome
  rcases howned with ⟨rfl, hroot, hk⟩ | hids
  · exact hsafe ⟨hclaim.1, hroot, hk, hsession⟩ hkind hturn hsome
  refine ⟨fun _ => hids, fun _ _ _ toolId _ _ => ?_⟩
  show owned.blockedToolCallIds.length < MAX_BLOCKED_TOOL_CALL_IDS
  rw [hids]
  decide

theorem HookStep.settled {result : Except AgentStatusError ReducerOutput}
    {next : TerminalAgentReducer} (hstep : r.HookStep envelope nowMs inst priorExited result next)
    (hsafe : r.BlockersSafe (.applyHook envelope nowMs inst priorExited)) :
    next.Settled := by
  cases hstep with
  | fenced _ | refused _ _ | unclaimed _ _ => exact h
  | switched hclaim _ _ =>
    have hbook := (claimed_settled h hclaim).bookkept
    have hq := hbook.queues
    refine ⟨⟨.unknown rfl, hq.seen, Nat.zero_le _, ?_, hq.roots⟩, fun _ => rfl⟩
    exact retireSessionIf_length _ hq.sessions
  | otherSession hclaim _ | unsupported hclaim _ _ | dropped hclaim _ _ =>
    exact claimed_settled h hclaim
  | ambiguous hclaim hsession hkind hev =>
    have hbook := event_bookkept h hsafe hclaim hsession hkind
    rw [hev] at hbook
    refine ⟨hbook, fun hk => absurd ?_ hkind⟩
    rw [← hk, (ambiguous_keeps hev).1.agentKind]
    rfl
  | accepted hclaim hsession hkind hev =>
    have hbook := event_bookkept h hsafe hclaim hsession hkind
    rw [hev] at hbook
    refine ⟨⟨hbook.blockers, hbook.queues⟩, fun hk => absurd ?_ hkind⟩
    exact (accepted_keeps hev).1.agentKind.symm.trans hk

/-! ## The other operations -/

/-- Reports are for OMP reporters, which hold no tool calls. -/
theorem applyReport_settled {report : ReporterReport} :
    (r.applyReport reporterEpoch report nowMs inst).2.Settled := by
  rcases reportStep r reporterEpoch report nowMs inst with heq | ⟨haccept, at', heq⟩
  · rw [heq]
    exact h
  obtain ⟨_, hcheck, hkind⟩ := admitReport_ok haccept
  obtain ⟨⟨state, reason, turn, session, outcome, revision, latest, hnext⟩, hreason⟩ :=
    reportEvent_touches (r := r.recordReport report nowMs inst) nowMs hcheck
  have hids : r.blockedToolCallIds = [] := h.omp hkind
  have hblocked := hreason h.bookkept.blockers.reasoned
  rw [heq]
  rw [hnext] at hblocked ⊢
  refine ⟨⟨?_, h.bookkept.queues⟩, fun _ => hids⟩
  show BlockersKept state reason r.blockedToolCallIds
  rw [hids]
  exact ⟨hblocked, by simp, nodup_nil, Nat.zero_le _⟩

theorem reconnect_settled (hsafe : r.BlockersSafe (.reconnect reporterEpoch hello nowMs inst)) :
    (r.reconnect reporterEpoch hello nowMs inst).2.Settled := by
  unfold reconnect
  split
  · exact h
  rename_i hcheck
  have hids := hsafe hcheck
  have hq := h.bookkept.queues
  split
  · exact ⟨⟨.unknown hids, hq.retired _⟩, fun _ => hids⟩
  · exact ⟨⟨.unknown hids, hq⟩, fun _ => hids⟩

theorem markUnknown_settled (hids : r.blockedToolCallIds = []) :
    r.markUnknown.2.Settled := by
  have hq := h.bookkept.queues
  unfold markUnknown
  split
  · exact ⟨⟨.unknown hids, hq.retired _⟩, fun _ => hids⟩
  · exact ⟨⟨.unknown hids, hq⟩, fun _ => hids⟩

theorem expireNativeTurn_settled : r.expireNativeTurn.Settled := by
  have hq := h.bookkept.queues
  exact ⟨⟨.unknown rfl, hq.seen, retireCurrentTurn_length hq.turns,
    hq.sessions, hq.roots⟩, fun _ => rfl⟩

theorem checkLease_settled {leaseMs : Nat}
    (hsafe : r.BlockersSafe (.checkLease nowMs leaseMs inst)) :
    (r.checkLease nowMs leaseMs inst).2.Settled := by
  unfold checkLease
  split
  next hexp =>
    split_ifs with hkind
    · exact markUnknown_settled h (hsafe hkind hexp)
    · exact expireNativeTurn_settled h
  · exact h

/-- **One safe step keeps the books.** -/
theorem step_settled {op : Op} (hsafe : r.BlockersSafe op) :
    (r.step op).Settled := by
  cases op with
  | applyHook envelope nowMs inst priorExited => exact (hookStep ..).settled h hsafe
  | applyReport reporterEpoch report nowMs inst => exact applyReport_settled h
  | reconnect reporterEpoch hello nowMs inst => exact reconnect_settled h hsafe
  | markUnknown => exact markUnknown_settled h hsafe
  | checkLease nowMs leaseMs inst => exact checkLease_settled h hsafe

end

/-! ## Unsafe steps break the books -/

/-- A reducer that is not blocked and still holds tool calls is not bookkept. -/
theorem Bookkept.ids_eq_nil (h : r.Bookkept) (hs : r.state ≠ .blocked) :
    r.blockedToolCallIds = [] :=
  h.blockers.ids_eq_nil hs

/-- An envelope that speaks for the owner has its event applied, if the
provider is known to send it. -/
theorem Speaks.accepted (h : r.Speaks envelope)
    (hqualified : qualifyEvent r.agentKind envelope.event = .ok true)
    {next : TerminalAgentReducer}
    (hevent : (r.recordSeen envelope).hookEvent envelope nowMs = .accepted next attention)
    (inst : Nat) (priorExited : Bool) :
    (r.applyHookWithPriorExited envelope nowMs inst priorExited).2
      = (acceptHook (r.recordSeen envelope) next attention nowMs inst).2 := by
  have hq : qualifyEvent (r.recordSeen envelope).agentKind envelope.event = .ok true := hqualified
  rw [h.apply, applyQualified, hq, hevent]

theorem onCurrentTurn_eq (effect : HookEffect) (hturn : envelope.turnId = r.currentTurnId)
    (hsome : r.currentTurnId ≠ none) :
    r.onCurrentTurn envelope effect = effect := by
  rw [onCurrentTurn, if_neg]
  rintro (hne | hnone)
  · exact hne hturn
  · exact hsome hnone

/-- After a compaction the terminal works, whatever tool calls it holds. -/
theorem compact_ids_eq_nil (hspeaks : r.Speaks envelope) (hkind : r.agentKind ≠ .omp)
    (hturn : envelope.turnId = r.currentTurnId) (hsome : r.currentTurnId ≠ none)
    (hname : ofName envelope.event = some .preCompact ∨ ofName envelope.event = some .postCompact)
    (hafter : (r.applyHookWithPriorExited envelope nowMs inst priorExited).2.Bookkept) :
    r.blockedToolCallIds = [] := by
  have hq : qualifyEvent r.agentKind envelope.event = .ok true := by
    rcases hname with hname | hname <;>
    · rw [eq_name_of_ofName hname]
      revert hkind
      cases r.agentKind <;> decide
  have hevent : (r.recordSeen envelope).hookEvent envelope nowMs
      = (r.recordSeen envelope).compact := by
    have hcur := onCurrentTurn_eq (r := r.recordSeen envelope)
      (r.recordSeen envelope).compact hturn hsome
    rcases hname with hname | hname <;> rw [hookEvent, hname] <;> exact hcur
  rw [hspeaks.accepted hq hevent] at hafter
  exact hafter.ids_eq_nil (by show AgentState.working ≠ .blocked; decide)

theorem agentNeedsInput_room (hspeaks : r.Speaks envelope)
    (hturn : envelope.turnId = r.currentTurnId) (hsome : r.currentTurnId ≠ none)
    (hname : ofName envelope.event = some .notification) (hkind : r.agentKind = .claude)
    (htype : envelope.notificationType = some "agent_needs_input")
    (hafter : (r.applyHookWithPriorExited envelope nowMs inst priorExited).2.Bookkept)
    (hcall : envelope.toolCallId = some toolId) (hnew : toolId ∉ r.blockedToolCallIds) :
    r.blockedToolCallIds.length < MAX_BLOCKED_TOOL_CALL_IDS := by
  have hq : qualifyEvent r.agentKind envelope.event = .ok true := by
    rw [eq_name_of_ofName hname, hkind]
    decide
  obtain ⟨revision, attention, hblock⟩ := block_eq (r.recordSeen envelope) .question
    (r.blockedToolCallIds ++ [toolId]) nowMs
  have hevent : (r.recordSeen envelope).hookEvent envelope nowMs
      = .accepted { r.recordSeen envelope with
          state := .blocked, blockedReason := some .question
          blockedToolCallIds := r.blockedToolCallIds ++ [toolId]
          attentionRevision := revision } attention := by
    rw [hookEvent, hname]
    simp only
    rw [if_neg (by rw [not_not]; exact hkind),
      onCurrentTurn_eq (r := r.recordSeen envelope) _ hturn hsome, notification,
      if_neg (by rw [htype]; decide), if_pos htype, agentNeedsInput, hcall]
    simp only
    rw [if_neg (show toolId ∉ (r.recordSeen envelope).blockedToolCallIds from hnew)]
    exact hblock
  rw [hspeaks.accepted hq hevent] at hafter
  have hbound : (r.blockedToolCallIds ++ [toolId]).length ≤ MAX_BLOCKED_TOOL_CALL_IDS :=
    hafter.blockers.bounded
  rw [length_append, length_singleton] at hbound
  omega

theorem markUnknown_ids_eq_nil (h : r.markUnknown.2.Bookkept) : r.blockedToolCallIds = [] := by
  have hids := h.ids_eq_nil (by show AgentState.unknown ≠ .blocked; decide)
  unfold markUnknown at hids
  split at hids <;> exact hids

/-- **A step that is not safe breaks the books.** -/
theorem blockersSafe_of_bookkept {op : Op} (hafter : (r.step op).Bookkept) : r.BlockersSafe op := by
  cases op with
  | applyHook envelope nowMs inst priorExited =>
    intro hspeaks hkind hturn hsome
    refine ⟨fun hname => ?_, fun hname hclaude htype toolId hcall hnew => ?_⟩
    · exact compact_ids_eq_nil hspeaks hkind hturn hsome hname hafter
    · exact agentNeedsInput_room hspeaks hturn hsome hname hclaude htype hafter hcall hnew
  | applyReport reporterEpoch report nowMs inst => trivial
  | reconnect reporterEpoch hello nowMs inst =>
    intro hcheck
    rw [step, reconnect, hcheck] at hafter
    have hids := hafter.ids_eq_nil (by show AgentState.unknown ≠ .blocked; decide)
    simp only at hids
    split at hids <;> exact hids
  | markUnknown => exact markUnknown_ids_eq_nil hafter
  | checkLease nowMs leaseMs inst =>
    intro hkind hexp
    simp only [TerminalAgentReducer.step, checkLease, hexp, hkind] at hafter
    exact markUnknown_ids_eq_nil hafter

theorem Started.settled (h : Started r) : r.Settled := by
  have hempty : QueuesBounded [] [] [] [] :=
    ⟨Nat.zero_le _, Nat.zero_le _, Nat.zero_le _, Nat.zero_le _⟩
  cases h with
  | new h =>
    rw [new_ok h]
    exact ⟨⟨.unknown rfl, hempty⟩, fun _ => rfl⟩
  | newForHook h =>
    rw [newForHook_ok h]
    exact ⟨⟨.unknown rfl, hempty⟩, fun _ => rfl⟩

/-- **Blocker bookkeeping.** A run from a fresh reducer keeps its books in every
state exactly when each of its operations is safe where it is applied. -/
theorem bookkept_iff_blockersSafe (h : Started r) (ops : List Op) :
    Always step Bookkept r ops ↔ EveryStep step BlockersSafe r ops := by
  constructor
  · intro hbook
    exact everyStep_of_always (fun s op _ hafter => blockersSafe_of_bookkept hafter) hbook
  · intro hsafe
    have hsettled : Always step Settled r ops :=
      always_of_everyStep (fun s op hs hop => step_settled hs hop) h.settled hsafe
    exact hsettled.mono fun s hs => hs.bookkept

end

/-! ## A compaction during a permission prompt -/

def claudeHook (eventId event : String) (toolCallId notificationType : Option String) :
    PrivateHookEnvelope :=
  { agentKind := .claude, adapterVersion := "1", eventId, event, agentSessionId := "s"
    turnId := some "t1", toolCallId, notificationType
    rootProcess := { pid := 7, startTicks := 1 } }

def claudeTerminal : TerminalAgentReducer :=
  forHook 1 "term" 1 1 (claudeHook "e0" "SessionStart" none none) 0 0

theorem claudeTerminal_started : Started claudeTerminal := by
  have h : newForHook 1 "term" 1 1 (claudeHook "e0" "SessionStart" none none) 0 0
      = .ok claudeTerminal := by rfl
  exact .newForHook h

def promptThenCompact : List Op :=
  [.applyHook (claudeHook "e1" "UserPromptSubmit" none none) 0 0 false,
    .applyHook (claudeHook "e2" "Notification" (some "c1") (some "permission_prompt"))
      0 0 false,
    .applyHook (claudeHook "e3" "PreCompact" none none) 0 0 false]

/-- The books of a run of two hooks. -/
theorem bookkept_of_prompt : Always step Bookkept claudeTerminal
        [.applyHook (claudeHook "e1" "UserPromptSubmit" none none) 0 0 false, .markUnknown] ↔
      EveryStep step BlockersSafe claudeTerminal
        [.applyHook (claudeHook "e1" "UserPromptSubmit" none none) 0 0 false, .markUnknown] :=
  bookkept_iff_blockersSafe claudeTerminal_started _

/-- The permission prompt is held for `c1`; the compaction sets the terminal to
`Working` and leaves `c1` behind. -/
theorem compaction_leaves_tool_call : Started claudeTerminal ∧
      (run step claudeTerminal promptThenCompact).state = .working ∧
      (run step claudeTerminal promptThenCompact).blockedToolCallIds = ["c1"] ∧
      ¬ Always step Bookkept claudeTerminal promptThenCompact := by
  have hstate : (run step claudeTerminal promptThenCompact).state = .working := by decide
  have hids : (run step claudeTerminal promptThenCompact).blockedToolCallIds = ["c1"] := by
    decide
  refine ⟨claudeTerminal_started, hstate, hids, fun h => ?_⟩
  have hnil := h.last.ids_eq_nil (by rw [hstate]; decide)
  cases hnil

end TerminalAgentReducer

end DamHopper.AgentStatus
