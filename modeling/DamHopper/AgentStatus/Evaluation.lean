import DamHopper.AgentStatus.Registry

/-!
# AgentStatus — Evaluation

`evaluate_managed_agents_with_details` of `agent_status/reducer.rs`: the verdict on
the agents that process discovery has matched to terminals. It is `free` only if
every one of them belongs to a terminal of the registry, has been heard of within
its lease and is idle or blocked.

The loop over the agents returns at the first one that is in doubt, so it is a fold
in `Except`; with no agents the fold gives what the source returns at once.
-/

namespace DamHopper.AgentStatus

open List

structure TerminalIdentity where
  sessionId : String
  incarnation : Nat
  deriving Repr, DecidableEq

structure MatchedManagedAgent where
  identity : ProcessIdentity
  terminal : TerminalIdentity
  safeExecutableIdentity : Option String
  deriving Repr, DecidableEq

inductive AgentSemanticBlockReason where
  | expiredLease (process : ProcessIdentity) (terminal : TerminalIdentity) (kind : AgentKind)
  | unrefreshedNativeProvider (process : ProcessIdentity) (terminal : TerminalIdentity)
      (kind : AgentKind)
  | unverifiedProcessBinding (process : ProcessIdentity) (terminal : TerminalIdentity)
  | unresolvedOwner (process : ProcessIdentity) (terminal : TerminalIdentity)
  | ambiguousOwner (process : ProcessIdentity) (terminal : TerminalIdentity)
  | subagentUncovered (process parent : ProcessIdentity)
  deriving Repr, DecidableEq

inductive AgentSemanticEvaluation where
  | free (idleCount blockedCount minLeaseRemainingMs nonFreeGeneration semanticRevision : Nat)
  | working (workingCount : Nat) (implicated : List ProcessIdentity) (nonFreeGeneration : Nat)
  | unknown (reason : AgentSemanticBlockReason) (nonFreeGeneration : Nat)
  deriving Repr, DecidableEq

structure Tally where
  idleCount : Nat := 0
  blockedCount : Nat := 0
  workingProcs : List ProcessIdentity := []
  minLeaseRemainingMs : Nat := U64_MAX

def AgentKind.executable : AgentKind → String
  | .omp => "omp"
  | .codex => "codex"
  | .claude => "claude"

/-- The process binding: verified and alone for a reporter, the native root for a hook. -/
def TerminalAgentReducer.checkOwner (r : TerminalAgentReducer) (agent : MatchedManagedAgent)
    (siblings : Nat) : Except AgentSemanticBlockReason Unit :=
  match r.agentKind, r.verifiedProcess, r.nativeRoot with
  | .omp, none, _ => .error (.unverifiedProcessBinding agent.identity agent.terminal)
  | .omp, some verified, _ =>
    require (verified = agent.identity ∧ siblings ≤ 1)
      (.ambiguousOwner agent.identity agent.terminal)
  | _, _, none => .error (.unresolvedOwner agent.identity agent.terminal)
  | _, _, some root =>
    require (root = agent.identity) (.subagentUncovered agent.identity root)

namespace AgentStatusRegistry

variable (reg : AgentStatusRegistry) (matchedAgents : List MatchedManagedAgent) (nowMs inst : Nat)
    (tally : Tally)

def tallyAgent (agent : MatchedManagedAgent) (r : TerminalAgentReducer) :
    Except AgentSemanticBlockReason Tally := do
  r.checkOwner agent (matchedAgents.filter fun a => a.terminal = agent.terminal).length
  require (agent.safeExecutableIdentity.all fun actual => actual.toLower = r.agentKind.executable)
    (.ambiguousOwner agent.identity agent.terminal)
  require (r.elapsedMs nowMs inst < DEFAULT_LEASE_MS)
    (if r.agentKind ≠ .omp then
      .unrefreshedNativeProvider agent.identity agent.terminal r.agentKind
    else .expiredLease agent.identity agent.terminal r.agentKind)
  let tally := { tally with
    minLeaseRemainingMs :=
      min tally.minLeaseRemainingMs (DEFAULT_LEASE_MS - r.elapsedMs nowMs inst) }
  match r.state with
  | .working => .ok { tally with workingProcs := tally.workingProcs ++ [agent.identity] }
  | .idle => .ok { tally with idleCount := tally.idleCount + 1 }
  | .blocked => .ok { tally with blockedCount := tally.blockedCount + 1 }
  | .unknown => .error (.expiredLease agent.identity agent.terminal r.agentKind)

def terminalOf (agent : MatchedManagedAgent) : Option TerminalAgentReducer :=
  reg.terminals.get? (agent.terminal.sessionId, agent.terminal.incarnation)

def evaluateAgent (agent : MatchedManagedAgent) : Except AgentSemanticBlockReason Tally :=
  match reg.terminalOf agent with
  | none => .error (.unresolvedOwner agent.identity agent.terminal)
  | some r => tallyAgent matchedAgents nowMs inst tally agent r

/-- Of an uncovered process only its identity is read. -/
def evaluateManagedAgents (uncoveredRetained : List ProcessIdentity) (nowMs inst : Nat) :
    AgentSemanticEvaluation :=
  match uncoveredRetained with
  | process :: _ => .unknown (.subagentUncovered process ⟨0, 0⟩) reg.nonFreeGeneration
  | [] =>
    match matchedAgents.foldlM (reg.evaluateAgent matchedAgents nowMs inst) {} with
    | .error reason => .unknown reason reg.nonFreeGeneration
    | .ok tally =>
      if tally.workingProcs.length > 0 then
        .working tally.workingProcs.length tally.workingProcs reg.nonFreeGeneration
      else
        .free tally.idleCount tally.blockedCount tally.minLeaseRemainingMs reg.nonFreeGeneration
          reg.revision

/-! ## The verdict -/

/-- The agent's terminal is known, and neither working nor in doubt. -/
def Resting (agent : MatchedManagedAgent) : Prop :=
  ∃ r ∈ reg.terminalOf agent, r.state = .idle ∨ r.state = .blocked

/-- The agent's terminal is bound to exactly this process and has been heard of within its
lease. -/
structure Bound (reg : AgentStatusRegistry) (matched : List MatchedManagedAgent)
    (nowMs inst : Nat) (agent : MatchedManagedAgent) (r : TerminalAgentReducer) : Prop where
  terminal : reg.terminalOf agent = some r
  owner : if r.agentKind = .omp then r.verifiedProcess = some agent.identity ∧
      (matched.filter fun a => a.terminal = agent.terminal).length ≤ 1
    else r.nativeRoot = some agent.identity
  executable : agent.safeExecutableIdentity.all (fun actual =>
    actual.toLower = r.agentKind.executable) = true
  lease : r.elapsedMs nowMs inst < DEFAULT_LEASE_MS

def Accepted (matched : List MatchedManagedAgent) (nowMs inst : Nat) (agent : MatchedManagedAgent) :
    Prop :=
  ∃ r, reg.Bound matched nowMs inst agent r ∧ r.state ≠ .unknown

def inState (state : AgentState) (agent : MatchedManagedAgent) : Bool :=
  (reg.terminalOf agent).any (·.state = state)

def leaseRemainingMs (agent : MatchedManagedAgent) : Nat :=
  DEFAULT_LEASE_MS - (reg.terminalOf agent).elim 0 (·.elapsedMs nowMs inst)

/-- The counters after a loop over agents that are all accepted. -/
def tallyAll (agents : List MatchedManagedAgent) : Tally where
  idleCount := tally.idleCount + agents.countP (reg.inState .idle)
  blockedCount := tally.blockedCount + agents.countP (reg.inState .blocked)
  workingProcs :=
    tally.workingProcs ++ (agents.filter (reg.inState .working)).map (·.identity)
  minLeaseRemainingMs :=
    (agents.map (reg.leaseRemainingMs nowMs inst)).foldl min tally.minLeaseRemainingMs

def shape : AgentSemanticEvaluation → (Nat × Nat) ⊕ Option Nat
  | .free idleCount blockedCount _ _ _ => .inl (idleCount, blockedCount)
  | .working workingCount _ _ => .inr (some workingCount)
  | .unknown _ _ => .inr none

section

variable {reg : AgentStatusRegistry} {matched matched' rest : List MatchedManagedAgent}
  {agent : MatchedManagedAgent} {nowMs inst : Nat} {tally after : Tally}
  {uncovered : List ProcessIdentity} {r : TerminalAgentReducer}

theorem checkOwner_ok_iff {siblings : Nat} :
    r.checkOwner agent siblings = .ok () ↔
      if r.agentKind = .omp then r.verifiedProcess = some agent.identity ∧ siblings ≤ 1
      else r.nativeRoot = some agent.identity := by
  unfold TerminalAgentReducer.checkOwner
  cases r.agentKind <;> cases r.verifiedProcess <;> cases r.nativeRoot <;>
    simp [require_eq_ok_iff]

theorem accepted_iff (hr : reg.terminalOf agent = some r) :
    reg.Accepted matched nowMs inst agent ↔
      reg.Bound matched nowMs inst agent r ∧ r.state ≠ .unknown := by
  refine ⟨fun ⟨r', hbound, hstate⟩ => ?_, fun h => ⟨r, h⟩⟩
  cases hr.symm.trans hbound.terminal
  exact ⟨hbound, hstate⟩

theorem evaluateAgent_ok_iff : reg.evaluateAgent matched nowMs inst tally agent = .ok after ↔
    reg.Accepted matched nowMs inst agent ∧ reg.tallyAll nowMs inst tally [agent] = after := by
  unfold evaluateAgent
  cases hr : reg.terminalOf agent with
  | none =>
    refine iff_of_false (by simp) fun ⟨⟨r, hbound, _⟩, _⟩ => ?_
    cases hr.symm.trans hbound.terminal
  | some r =>
    have hbound : reg.Bound matched nowMs inst agent r ↔ _ ∧ _ ∧ _ :=
      ⟨fun h => ⟨h.owner, h.executable, h.lease⟩, fun h => ⟨hr, h.1, h.2.1, h.2.2⟩⟩
    rw [accepted_iff hr, hbound]
    simp only [tallyAgent, check_bind_eq_ok_iff, require_eq_ok_iff, checkOwner_ok_iff, and_assoc]
    cases hstate : r.state <;> simp [tallyAll, inState, leaseRemainingMs, hr, hstate]

theorem foldlM_ok_iff : rest.foldlM (reg.evaluateAgent matched nowMs inst) tally = .ok after ↔
    (∀ agent ∈ rest, reg.Accepted matched nowMs inst agent) ∧
      reg.tallyAll nowMs inst tally rest = after := by
  induction rest generalizing tally with
  | nil => simp [tallyAll, pure, Except.pure]
  | cons agent rest ih =>
    have hcons : reg.tallyAll nowMs inst (reg.tallyAll nowMs inst tally [agent]) rest =
        reg.tallyAll nowMs inst tally (agent :: rest) := by
      cases hidle : reg.inState .idle agent <;> cases hblocked : reg.inState .blocked agent <;>
        cases hworking : reg.inState .working agent <;>
        simp [tallyAll, hidle, hblocked, hworking, Nat.add_comm, Nat.add_assoc]
    simp only [foldlM_cons, bind_eq_ok_iff, evaluateAgent_ok_iff, ih]
    simp [← hcons, and_assoc]

theorem resting_iff : (∃ r, reg.Bound matched nowMs inst agent r ∧
      (r.state = .idle ∨ r.state = .blocked)) ↔
    reg.Accepted matched nowMs inst agent ∧ reg.inState .working agent = false := by
  cases hr : reg.terminalOf agent with
  | none =>
    refine iff_of_false ?_ ?_
    · rintro ⟨r, hbound, _⟩
      cases hr.symm.trans hbound.terminal
    · rintro ⟨⟨r, hbound, _⟩, _⟩
      cases hr.symm.trans hbound.terminal
  | some r =>
    rw [accepted_iff hr]
    constructor
    · rintro ⟨r', hbound, hstate⟩
      cases hr.symm.trans hbound.terminal
      rcases hstate with hstate | hstate <;> simp [inState, hr, hbound, hstate]
    · rintro ⟨⟨hbound, hknown⟩, hworking⟩
      refine ⟨r, hbound, ?_⟩
      cases hstate : r.state <;> simp_all [inState]

/-- **How a verdict is reached.** -/
theorem evaluate_cases (reg : AgentStatusRegistry) (matched : List MatchedManagedAgent)
    (uncovered : List ProcessIdentity) (nowMs inst : Nat) :
    (¬ (uncovered = [] ∧ ∀ agent ∈ matched, reg.Accepted matched nowMs inst agent) ∧
      ∃ reason, reg.evaluateManagedAgents matched uncovered nowMs inst =
        .unknown reason reg.nonFreeGeneration) ∨
    (uncovered = [] ∧ ∀ agent ∈ matched, reg.Accepted matched nowMs inst agent) ∧
      reg.evaluateManagedAgents matched uncovered nowMs inst =
        if 0 < matched.countP (reg.inState .working) then
          .working (matched.countP (reg.inState .working))
            ((matched.filter (reg.inState .working)).map (·.identity)) reg.nonFreeGeneration
        else .free (matched.countP (reg.inState .idle)) (matched.countP (reg.inState .blocked))
          ((matched.map (reg.leaseRemainingMs nowMs inst)).foldl min U64_MAX)
          reg.nonFreeGeneration reg.revision := by
  cases uncovered with
  | cons process rest => exact .inl ⟨by simp, _, rfl⟩
  | nil =>
    simp only [evaluateManagedAgents]
    cases hfold : matched.foldlM (reg.evaluateAgent matched nowMs inst) {} with
    | error reason =>
      refine .inl ⟨fun hall => ?_, reason, rfl⟩
      cases hfold.symm.trans (foldlM_ok_iff.mpr ⟨hall.2, rfl⟩)
    | ok after =>
      obtain ⟨hall, rfl⟩ := foldlM_ok_iff.mp hfold
      exact .inr ⟨⟨trivial, hall⟩, by simp [tallyAll, ← countP_eq_length_filter]⟩

theorem not_working_iff : ¬ 0 < matched.countP (reg.inState .working) ↔
    ∀ agent ∈ matched, reg.inState .working agent = false := by
  simp

/-- **A free verdict** carries the generation of the registry, in which every matched agent
rests. -/
theorem evaluate_free {idle blocked lease nfg revision : Nat}
    (h : reg.evaluateManagedAgents matched uncovered nowMs inst =
      .free idle blocked lease nfg revision) :
    nfg = reg.nonFreeGeneration ∧ ∀ agent ∈ matched, reg.Resting agent := by
  rcases evaluate_cases reg matched uncovered nowMs inst with ⟨_, _, heq⟩ | ⟨⟨_, hall⟩, heq⟩
  · cases heq.symm.trans h
  rw [heq] at h
  split_ifs at h with hworking
  cases h
  refine ⟨rfl, fun agent hagent => ?_⟩
  obtain ⟨r, hbound, hrest⟩ :=
    resting_iff.mpr ⟨hall agent hagent, not_working_iff.mp hworking agent hagent⟩
  exact ⟨r, hbound.terminal, hrest⟩

theorem accepted_perm (h : matched.Perm matched')
    (haccepted : reg.Accepted matched nowMs inst agent) :
    reg.Accepted matched' nowMs inst agent := by
  have hsiblings := (h.filter fun a => a.terminal = agent.terminal).length_eq
  obtain ⟨r, ⟨hr, howner, hexecutable, hlease⟩, hstate⟩ := haccepted
  exact ⟨r, ⟨hr, hsiblings ▸ howner, hexecutable, hlease⟩, hstate⟩

theorem shape_perm (h : matched.Perm matched') :
    shape (reg.evaluateManagedAgents matched' uncovered nowMs inst) =
      shape (reg.evaluateManagedAgents matched uncovered nowMs inst) := by
  have hall {l l' : List MatchedManagedAgent} (hl : l.Perm l')
      (hall : ∀ agent ∈ l, reg.Accepted l nowMs inst agent) :
      ∀ agent ∈ l', reg.Accepted l' nowMs inst agent := fun agent hagent =>
    accepted_perm hl (hall agent (hl.mem_iff.mpr hagent))
  rcases evaluate_cases reg matched uncovered nowMs inst with ⟨hnot, _, heq⟩ | ⟨hyes, heq⟩ <;>
    rcases evaluate_cases reg matched' uncovered nowMs inst with ⟨hnot', _, heq'⟩ | ⟨hyes', heq'⟩
  · rw [heq, heq']
    rfl
  · exact absurd ⟨hyes'.1, hall h.symm hyes'.2⟩ hnot
  · exact absurd ⟨hyes.1, hall h hyes.2⟩ hnot'
  · rw [heq, heq', ← h.countP_eq, ← h.countP_eq, ← h.countP_eq]
    split_ifs <;> rfl

end

/-- **The verdict is exact and does not depend on the order.** -/
theorem verdict_exact (reg : AgentStatusRegistry) (matched : List MatchedManagedAgent)
    (uncovered : List ProcessIdentity) (nowMs inst : Nat) :
    let verdict := reg.evaluateManagedAgents matched uncovered nowMs inst
    ((∃ idle blocked lease nfg revision, verdict = .free idle blocked lease nfg revision) ↔
      uncovered = [] ∧ ∀ agent ∈ matched, ∃ r, reg.Bound matched nowMs inst agent r ∧
        (r.state = .idle ∨ r.state = .blocked)) ∧
    (∀ idle blocked lease nfg revision, verdict = .free idle blocked lease nfg revision →
      idle + blocked = matched.length ∧ (matched = [] → lease = U64_MAX) ∧
      ∀ agent ∈ matched, lease ≤ reg.leaseRemainingMs nowMs inst agent) ∧
    ((∃ count implicated nfg, verdict = .working count implicated nfg) ↔
      uncovered = [] ∧ (∀ agent ∈ matched, reg.Accepted matched nowMs inst agent) ∧
        ∃ agent ∈ matched, ∃ r ∈ reg.terminalOf agent, r.state = .working) ∧
    ((∃ reason nfg, verdict = .unknown reason nfg) ↔
      ¬ (uncovered = [] ∧ ∀ agent ∈ matched, reg.Accepted matched nowMs inst agent)) ∧
    ∀ matched', matched.Perm matched' →
      shape (reg.evaluateManagedAgents matched' uncovered nowMs inst) = shape verdict := by
  intro verdict
  refine ⟨?_, ?_, ?_, ?_, fun matched' => shape_perm⟩ <;>
    rcases evaluate_cases reg matched uncovered nowMs inst with ⟨hnot, _, heq⟩ | ⟨hyes, heq⟩ <;>
    simp only [verdict, heq]
  · refine iff_of_false (by simp) fun h => hnot ⟨h.1, fun agent hagent => ?_⟩
    exact (resting_iff.mp (h.2 agent hagent)).1
  · simp only [resting_iff, forall_and, hyes.1, ← not_working_iff]
    split_ifs with hworking
    · simp [hworking]
    · simpa [hworking] using hyes.2
  · simp
  · intro idle blocked lease nfg revision h
    split_ifs at h with hworking
    cases h
    refine ⟨?_, by rintro rfl; rfl, fun agent hagent => ?_⟩
    · rw [length_eq_countP_add_countP (reg.inState .idle)]
      congr 1
      refine countP_congr fun agent hagent => ?_
      obtain ⟨r, hbound, hrest⟩ :=
        resting_iff.mpr ⟨hyes.2 agent hagent, not_working_iff.mp hworking agent hagent⟩
      rcases hrest with hstate | hstate <;> simp [inState, hbound.terminal, hstate]
    · rw [foldl_min]
      exact (Nat.min_le_right _ _).trans
        (min?_getD_le_of_mem (mem_map_of_mem hagent))
  · exact iff_of_false (by simp) fun h => hnot ⟨h.1, h.2.1⟩
  · have hstate : (∃ agent ∈ matched, ∃ r ∈ reg.terminalOf agent, r.state = .working) ↔
        0 < matched.countP (reg.inState .working) := by
      simp [inState, Option.any_eq_true]
    rw [hstate]
    split_ifs with hworking
    · simpa [hworking, hyes.1] using hyes.2
    · simp [hworking]
  · exact iff_of_true ⟨_, _, rfl⟩ hnot
  · refine iff_of_false ?_ (not_not.mpr hyes)
    split <;> simp

end AgentStatusRegistry

end DamHopper.AgentStatus
