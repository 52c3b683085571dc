import DamHopper.AgentStatus.Evaluation
import DamHopper.Pty.FleetHandoff

/-!
# HandoffEvidence — what an agent-free handoff claim knows

`attempt_agent_free_final_check` of `idle_suspend/coordinator.rs` from the activity
snapshot to the claim, with the parts of `pty/manager.rs` it calls. Each step takes one
lock of its own, and the other threads run between the steps: terminal input, sessions
coming and going, and operations on the agent status registry.

The ticket carries the fleet generation of the snapshot, so a claim that is granted knows
that the fleet is the one sampled. The input revision is read only when the ticket is
built, and the generation of the free verdict is compared with itself: input before the
ticket and agents that start working after the verdict go unnoticed.

What process discovery finds is an argument, whatever the snapshot looks like. Instants
are milliseconds. Changes of the session table are arbitrary; of a session only the
incarnation and the qualified root process are kept. What the claim does not read of the
ticket (the agents, their counts and leases) is left out.
-/

namespace DamHopper.IdleSuspend

open AgentStatus Pty

/-! ## The session manager -/

structure LiveSession where
  incarnation : Nat
  root : Option ProcessIdentity
  deriving Repr, DecidableEq

/-- The state behind the lock of `PtySessionManager`. -/
structure Manager where
  fleet : PtyFleetState := .new
  live : AssocMap String LiveSession := .empty
  closing : Bool := false
  inputRevision : Nat := 0

structure PtyActivitySnapshot where
  fleet : PtyFleetSnapshot
  roots : List (TerminalIdentity × Option ProcessIdentity)

structure AgentFreeClaimTicket where
  requestId : Nat
  completedAt : Nat
  semanticRevision : Nat
  nonFreeGeneration : Nat
  timingRevision : Nat
  fleetGeneration : Nat
  inputRevision : Nat
  roots : List (TerminalIdentity × ProcessIdentity)
  eligibilityDeadline : Nat

inductive IdleSuspendAutomaticPolicy where
  | emptyFleet
  | agentActivity
  | agentFree
  deriving Repr, DecidableEq

structure AgentFreeAdmission where
  ticket : AgentFreeClaimTicket
  automaticPolicy : IdleSuspendAutomaticPolicy
  automaticEnabled : Bool
  acceptedRequestId : Nat
  acceptedSemanticRevision : Nat
  acceptedNonFreeGeneration : Nat
  acceptedTimingRevision : Nat
  now : Nat

inductive AgentFreeClaimError where
  | policyMismatch
  | deadlineNotExpired
  | observationStale
  | inputRevisionMismatch
  | rootIdentityMismatch
  | fleet (error : HandoffClaimError)
  deriving Repr, DecidableEq

def MAX_ACCEPTED_OBSERVATION_AGE : Nat := 5000

namespace Manager

/-- `write`, and `write_if_incarnation` if an incarnation is expected; `written` is what the
terminal itself answers. A write that fails takes the revision back. -/
def write (m : Manager) (id : String) (incarnation : Option Nat) (data : List UInt8)
    (written : Except String Unit) : Except AppError Unit × Manager :=
  if data = [] then (.ok (), m)
  else if m.fleet.handoffActive then
    (.error (.idleSuspendHandoffInProgress
      "Cannot send terminal input while host suspend handoff is in progress"), m)
  else if m.closing then (.error (.unavailable "PTY manager is shutting down"), m)
  else if m.fleet.disposing then (.error (.unavailable "PTY manager is disposing sessions"), m)
  else
    match m.live.get? id with
    | none => (.error (.sessionNotFound id), m)
    | some session =>
      if incarnation.any (· ≠ session.incarnation) then (.error .incarnationMismatch, m)
      else if m.inputRevision = U64_MAX then
        (.error (.unavailable "Terminal input revision saturated"), m)
      else
        match written with
        | .error message => (.error (.ptyError message), m)
        | .ok () => (.ok (), { m with inputRevision := m.inputRevision + 1 })

def captureActivitySnapshot (m : Manager) : PtyActivitySnapshot where
  fleet := m.fleet.snapshot
  roots := m.live.entries.map fun (id, session) => (⟨id, session.incarnation⟩, session.root)

/-- The checks of a claim before it comes to the fleet. -/
def checkAdmission (m : Manager) (a : AgentFreeAdmission) : Except AgentFreeClaimError Unit := do
  require (a.automaticPolicy = .agentFree ∧ a.automaticEnabled) .policyMismatch
  require (a.acceptedRequestId = a.ticket.requestId ∧
    a.acceptedSemanticRevision = a.ticket.semanticRevision ∧
    a.acceptedNonFreeGeneration = a.ticket.nonFreeGeneration ∧
    a.acceptedTimingRevision = a.ticket.timingRevision) .policyMismatch
  require (a.ticket.eligibilityDeadline ≤ a.now) .deadlineNotExpired
  require (a.now - a.ticket.completedAt ≤ MAX_ACCEPTED_OBSERVATION_AGE) .observationStale
  require (m.inputRevision = a.ticket.inputRevision) .inputRevisionMismatch
  require (m.fleet.generation = a.ticket.fleetGeneration)
    (.fleet (.generationMismatch a.ticket.fleetGeneration m.fleet.generation))
  require (m.live.size = a.ticket.roots.length) .rootIdentityMismatch
  require (∀ root ∈ a.ticket.roots,
    m.live.get? root.1.sessionId = some ⟨root.1.incarnation, some root.2⟩) .rootIdentityMismatch

def tryClaimAgentFreeHandoff (m : Manager) (a : AgentFreeAdmission) :
    Except AgentFreeClaimError HandoffClaim × Manager :=
  match m.checkAdmission a with
  | .error error => (.error error, m)
  | .ok () =>
    let (fleet, result) := m.fleet.tryClaimAgentHandoff a.ticket.fleetGeneration
    (result.mapError .fleet, { m with fleet })

end Manager

/-! ## The threads -/

structure Host where
  manager : Manager := {}
  agents : AgentStatusRegistry

/-- What another thread does under one lock. -/
inductive Event where
  | write (id : String) (incarnation : Option Nat) (data : List UInt8)
      (written : Except String Unit)
  | lifecycle (op : FleetOp) (live : AssocMap String LiveSession) (closing : Bool)
  | agents (op : AgentStatusRegistry.Op)

namespace Host

def step (h : Host) : Event → Host
  | .write id incarnation data written =>
    { h with manager := (h.manager.write id incarnation data written).2 }
  | .lifecycle op live closing =>
    { h with manager := { h.manager with fleet := h.manager.fleet.step op, live, closing } }
  | .agents op => { h with agents := h.agents.step op }

def Accepts (h : Host) : Event → Prop
  | .write id incarnation data written =>
    data ≠ [] ∧ (h.manager.write id incarnation data written).1.isOk
  | _ => False

instance (h : Host) : DecidablePred h.Accepts := fun e => by
  cases e <;> unfold Accepts <;> infer_instance

end Host

/-! ## The final check -/

/-- What the coordinator brings along, the outcome of process discovery (the matched agents
and the uncovered processes) and the readings of the clocks. -/
structure FinalCheck where
  freeAnchor : Option Nat
  freeAnchorNfg : Option Nat
  quietPeriod : Nat
  requestId : Nat
  timingRevision : Nat
  sample : Option (List MatchedManagedAgent × List ProcessIdentity)
  nowMs : Nat
  evaluatedAt : Nat
  anchoredAt : Nat
  completedAt : Nat
  now : Nat

/-- What the other threads do after the snapshot, after the verdict, and after the input
revision has been read. -/
structure Window where
  sampling : List Event
  building : List Event
  claiming : List Event

def Window.events (w : Window) : List Event := w.sampling ++ w.building ++ w.claiming

inductive FinalOutcome where
  | unavailable
  | notFree (evaluation : AgentSemanticEvaluation)
  | safetyInvalidation
  | claimed (result : Except AgentFreeClaimError HandoffClaim)
  deriving DecidableEq

def FinalCheck.claim (c : FinalCheck) (h : Host) (snapshot : PtyActivitySnapshot)
    (semanticRevision anchor nfg : Nat) (claiming : List Event) : FinalOutcome × Host :=
  let ticket : AgentFreeClaimTicket :=
    { requestId := c.requestId
      completedAt := c.completedAt
      semanticRevision
      nonFreeGeneration := nfg
      timingRevision := c.timingRevision
      fleetGeneration := snapshot.fleet.generation
      inputRevision := h.manager.inputRevision
      roots := snapshot.roots.filterMap fun (terminal, root) => root.map (terminal, ·)
      eligibilityDeadline := anchor + c.quietPeriod }
  let h := run Host.step h claiming
  let (result, manager) := h.manager.tryClaimAgentFreeHandoff
    { ticket
      automaticPolicy := .agentFree
      automaticEnabled := true
      acceptedRequestId := ticket.requestId
      acceptedSemanticRevision := ticket.semanticRevision
      acceptedNonFreeGeneration := ticket.nonFreeGeneration
      acceptedTimingRevision := ticket.timingRevision
      now := c.now }
  (.claimed result, { h with manager })

def attemptAgentFreeFinalCheck (c : FinalCheck) (w : Window) (h : Host) : FinalOutcome × Host :=
  let snapshot := h.manager.captureActivitySnapshot
  let h := run Host.step h w.sampling
  match c.sample with
  | none => (.unavailable, h)
  | some (matchedAgents, uncovered) =>
    match h.agents.evaluateManagedAgents matchedAgents uncovered c.nowMs c.evaluatedAt with
    | .free _ _ _ nfg semanticRevision =>
      match c.freeAnchor, c.freeAnchorNfg with
      | some anchor, some anchorNfg =>
        if anchorNfg ≠ nfg ∨ c.anchoredAt - anchor ≤ c.quietPeriod then (.safetyInvalidation, h)
        else
          c.claim (run Host.step h w.building) snapshot semanticRevision anchor anchorNfg w.claiming
      | _, _ => (.safetyInvalidation, h)
    | evaluation => (.notFree evaluation, h)

/-! ## Input and the fleet -/

namespace Host

variable {h : Host} {events : List Event}

theorem step_inputRevision (h : Host) (e : Event) : (h.step e).manager.inputRevision =
      h.manager.inputRevision + if h.Accepts e then 1 else 0 := by
  cases e with
  | write id incarnation data written =>
    simp only [step, Accepts, Manager.write]
    split_ifs <;> (repeat' split) <;> simp_all [Except.toBool]
  | _ => simp [step, Accepts]

theorem inputRevision_le_run (h : Host) (events : List Event) :
    h.manager.inputRevision ≤ (run step h events).manager.inputRevision := by
  refine invariant_run_all (I := fun t : Host => h.manager.inputRevision ≤
    t.manager.inputRevision) (fun t e ht => ?_) events (Nat.le_refl _)
  rw [step_inputRevision]
  omega

/-- The revision is the same exactly if nothing has been accepted. -/
theorem inputRevision_run_iff :
    (run step h events).manager.inputRevision = h.manager.inputRevision ↔
      EveryStep step (fun t e => ¬ t.Accepts e) h events := by
  induction events generalizing h with
  | nil => simp [EveryStep]
  | cons e rest ih =>
    have hle := inputRevision_le_run (h.step e) rest
    have hstep := step_inputRevision h e
    rw [run_cons, EveryStep, ← ih]
    split_ifs at hstep with haccepts
    · simp only [haccepts, not_true_eq_false, false_and, iff_false]
      omega
    · simp [haccepts, hstep]

theorem step_stamped (h : Host) (e : Event) :
    Stamped (·.manager.fleet.generation) (·.manager.fleet.view) h (h.step e) := by
  cases e with
  | write id incarnation data written =>
    have hfleet : (h.manager.write id incarnation data written).2.fleet = h.manager.fleet := by
      unfold Manager.write
      split_ifs <;> (repeat' split) <;> rfl
    exact ⟨by simp [step, hfleet], fun _ => by simp [step, hfleet]⟩
  | lifecycle op live closing =>
    have hstamped := PtyFleetState.step_stamped h.manager.fleet op
    exact ⟨hstamped.le, hstamped.same⟩
  | agents op => exact ⟨Nat.le_refl _, fun _ => rfl⟩

end Host

/-! ## The evidence -/

/-- What a granted claim is taken to know of the time from the snapshot to the claim. -/
structure Evidence (c : FinalCheck) (w : Window) (h : Host) : Prop where
  /-- No input was accepted. -/
  input : EveryStep Host.step (fun t e => ¬ t.Accepts e) h w.events
  /-- The fleet was the same all the time. -/
  fleet : Always Host.step (fun t => t.manager.fleet.view = h.manager.fleet.view) h w.events
  /-- The registry has the generation of the free anchor, -/
  generation : some (run Host.step h w.events).agents.nonFreeGeneration = c.freeAnchorNfg
  /-- and no matched agent is working. -/
  resting : ∀ sample ∈ c.sample, ∀ agent ∈ sample.1,
    (run Host.step h w.events).agents.Resting agent

/-- The event changes neither the generation nor the rest of a matched agent. -/
def FinalCheck.KeepsRest (c : FinalCheck) (t : Host) (e : Event) : Prop :=
  (t.step e).agents.nonFreeGeneration = t.agents.nonFreeGeneration ∧
    ∀ sample ∈ c.sample, ∀ agent ∈ sample.1,
      t.agents.Resting agent → (t.step e).agents.Resting agent

instance (c : FinalCheck) (t : Host) : DecidablePred (c.KeepsRest t) := fun e => by
  unfold FinalCheck.KeepsRest AgentStatusRegistry.Resting
  infer_instance

variable {c : FinalCheck} {w : Window} {h : Host} {claim : HandoffClaim}

/-- What the code has checked when a claim is granted. -/
theorem claimed_checks (hclaim : (attemptAgentFreeFinalCheck c w h).1 = .claimed (.ok claim)) :
    (run Host.step h w.events).manager.inputRevision =
        (run Host.step h (w.sampling ++ w.building)).manager.inputRevision ∧
      (run Host.step h w.events).manager.fleet.generation = h.manager.fleet.generation ∧
      some (run Host.step h w.sampling).agents.nonFreeGeneration = c.freeAnchorNfg ∧
      ∀ sample ∈ c.sample, ∀ agent ∈ sample.1,
        (run Host.step h w.sampling).agents.Resting agent := by
  simp only [attemptAgentFreeFinalCheck] at hclaim
  split at hclaim
  · cases hclaim
  next matched uncovered hsample =>
  split at hclaim
  · next idle blocked lease nfg revision hfree =>
    obtain ⟨hnfg, hresting⟩ := AgentStatusRegistry.evaluate_free hfree
    split at hclaim
    · next anchor anchorNfg hanchor hanchorNfg =>
      split_ifs at hclaim with hinvalid
      have hsame : anchorNfg = nfg := by
        by_contra hne
        exact hinvalid (.inl hne)
      simp only [FinalCheck.claim, ← run_append,
        Manager.tryClaimAgentFreeHandoff] at hclaim
      split at hclaim
      · cases hclaim
      next hchecks =>
      simp only [Manager.checkAdmission, check_bind_eq_ok_iff, require_eq_ok_iff] at hchecks
      obtain ⟨_, _, _, _, hinput, hfleet, _⟩ := hchecks
      refine ⟨hinput, hfleet, by rw [← hnfg, ← hsame, hanchorNfg], ?_⟩
      intro sample hmem
      cases hsample.symm.trans hmem
      exact hresting
    · cases hclaim
  · cases hclaim

/-- **The evidence of a granted claim** is still true at the claim if no input is accepted
before the ticket is built and between verdict and claim nothing changes the generation or
the rest of a matched agent; that the fleet is the one of the snapshot needs neither. -/
theorem evidence_holds (hclaim : (attemptAgentFreeFinalCheck c w h).1 = .claimed (.ok claim))
    (hinput : EveryStep Host.step (fun t e => ¬ t.Accepts e) h (w.sampling ++ w.building))
    (hagents : EveryStep Host.step c.KeepsRest (run Host.step h w.sampling)
      (w.building ++ w.claiming)) : Evidence c w h := by
  obtain ⟨hrevision, hgeneration, hnfg, hresting⟩ := claimed_checks hclaim
  have hfree : some (run Host.step h w.events).agents.nonFreeGeneration = c.freeAnchorNfg ∧
      ∀ sample ∈ c.sample, ∀ agent ∈ sample.1,
        (run Host.step h w.events).agents.Resting agent := by
    rw [Window.events, List.append_assoc, run_append]
    refine invariant_run (I := fun t : Host => some t.agents.nonFreeGeneration = c.freeAnchorNfg ∧
      ∀ sample ∈ c.sample, ∀ agent ∈ sample.1, t.agents.Resting agent) ?_ ⟨hnfg, hresting⟩ hagents
    intro t e hfree hkeeps
    exact ⟨by rw [hkeeps.1, hfree.1], fun sample hsample agent hagent =>
      hkeeps.2 sample hsample agent hagent (hfree.2 sample hsample agent hagent)⟩
  refine ⟨?_, ?_, hfree.1, hfree.2⟩
  · rw [Window.events, everyStep_append_iff]
    refine ⟨hinput, Host.inputRevision_run_iff.mp ?_⟩
    rw [← run_append]
    exact hrevision
  · exact always_view_of_version_eq Host.step_stamped hgeneration

/-! A terminal whose agent has reported that it is idle. -/

def report (seq : Nat) (event : ReporterEventKind) (state : AgentState) (turnId : Option String) :
    Event :=
  .agents (.applyReport "t" 1 1 ⟨"report", seq, event, state, "s", turnId, none, none⟩ 0 0)

def idleAgent : Host :=
  run Host.step { agents := .new 1 .ready }
    [.lifecycle (.beginCreate "t" 1) .empty false,
      .lifecycle (.publishLive "t" 1) (.ofList [("t", ⟨1, some ⟨7, 1⟩⟩)]) false,
      .agents (.admitReporter "t" 1 ⟨1, .omp, "r", "s", "1"⟩ (some ⟨8, 1⟩) 0 0),
      report 1 .snapshot .idle none]

def idleCheck : FinalCheck where
  freeAnchor := some 0
  freeAnchorNfg := some 3
  quietPeriod := 1000
  requestId := 1
  timingRevision := 1
  sample := some ([⟨⟨8, 1⟩, ⟨"t", 1⟩, some "omp"⟩], [])
  nowMs := 2000
  evaluatedAt := 2000
  anchoredAt := 2000
  completedAt := 2000
  now := 2000

/-- The other threads go on: a write to an incarnation that is gone is refused, one fails,
and the agent reports again and again that it is idle. -/
def quietWindow : Window where
  sampling := [.write "t" (some 2) [13] (.ok ()), report 2 .snapshot .idle none]
  building := [.write "t" none [13] (.error "closed")]
  claiming := [report 3 .snapshot .idle none]

theorem evidence_holds_undisturbed :
    (run Host.step idleAgent quietWindow.events).agents.terminals.get? ("t", 1) ≠
        idleAgent.agents.terminals.get? ("t", 1) ∧
      Evidence idleCheck quietWindow idleAgent :=
  ⟨by decide +kernel, evidence_holds (show _ = FinalOutcome.claimed (.ok ⟨4⟩) by decide +kernel)
    (by decide +kernel) (by decide +kernel)⟩

/-- A key is pressed between snapshot and ticket, and the agent starts working after the
verdict: the claim is granted all the same. -/
theorem late_evidence_claimed :
    let w : Window :=
      ⟨[.write "t" none [13] (.ok ())], [], [report 2 .turnStarted .working (some "turn")]⟩
    (attemptAgentFreeFinalCheck idleCheck w idleAgent).1 = .claimed (.ok ⟨4⟩) ∧
      idleAgent.Accepts (.write "t" none [13] (.ok ())) ∧
      ((run Host.step idleAgent w.events).agents.terminals.get? ("t", 1)).map (·.state) =
        some .working ∧
      (run Host.step idleAgent w.events).agents.nonFreeGeneration = 4 := by
  decide +kernel

end DamHopper.IdleSuspend
