import DamHopper.AgentStatus.Operations

/-!
# AgentStatus — Discipline

A change a client can see must raise the snapshot revision, and a move into or
out of `Working` or `Unknown` must raise `non_free_generation`, whether the
operation succeeds or not (`Disciplined`).

Operations that succeed are disciplined. The exceptions are operations
that change a terminal and then fail: a hook that is refused after the embedded
lease check has expired the terminal, a report whose attention counter
overflows, a takeover by an envelope of kind OMP, and a first admission at the
end of the safe integers. `RevisionSafe` excludes exactly these.
-/

namespace DamHopper.AgentStatus

open AssocMap TerminalAgentReducer

namespace AgentStatusRegistry

def state? (reg : AgentStatusRegistry) (key : String × Nat) : Option AgentState :=
  (reg.terminals.get? key).map (·.state)

def semantics? (reg : AgentStatusRegistry) (key : String × Nat) : Option Semantics :=
  (reg.terminals.get? key).map (·.semantics)

/-- A terminal enters or leaves `Working` or `Unknown`; a terminal that is not
there is in no state. -/
def Crosses (old new : Option AgentState) : Prop :=
  old ≠ new ∧ (old = some .working ∨ new = some .working ∨
    old = some .unknown ∨ new = some .unknown)

/-- What clients and the host-sleep fence rely on between two registries. -/
structure Disciplined (reg reg' : AgentStatusRegistry) : Prop where
  revision : ∀ key, reg.semantics? key ≠ reg'.semantics? key →
    reg.revision < reg'.revision
  nonFree : ∀ key, Crosses (reg.state? key) (reg'.state? key) →
    reg.nonFreeGeneration < reg'.nonFreeGeneration

/-- `P` holds of every terminal of the registry. -/
def EveryTerminal (P : TerminalAgentReducer → Prop) (reg : AgentStatusRegistry) : Prop :=
  ∀ key r, reg.terminals.get? key = some r → P r

/-! ## Counters -/

section

variable {reg reg' : AgentStatusRegistry} {key : String × Nat} {r next : TerminalAgentReducer}

theorem crosses_some_iff {old new : AgentState} :
    Crosses (some old) (some new) ↔ transitioned old new = true := by
  simp only [Crosses, transitioned, Bool.and_eq_true, Bool.or_eq_true, bne_iff_ne,
    beq_iff_eq, ne_eq, Option.some.injEq]
  tauto

theorem disciplined_of_raised (hrev : reg.revision < reg'.revision)
    (hgen : reg.nonFreeGeneration < reg'.nonFreeGeneration) : Disciplined reg reg' :=
  ⟨fun _ _ => hrev, fun _ _ => hgen⟩

theorem disciplined_of_semantics (h : ∀ key, reg.semantics? key = reg'.semantics? key) :
    Disciplined reg reg' := by
  refine ⟨fun key hne => absurd (h key) hne, fun key hcross => absurd ?_ hcross.1⟩
  have hstate : ∀ reg : AgentStatusRegistry,
      reg.state? key = (reg.semantics? key).map (·.state) := by
    intro reg
    rw [semantics?, Option.map_map]
    rfl
  rw [hstate, hstate, h key]

/-- The terminal at `key` has been replaced. -/
structure Replaced (reg reg' : AgentStatusRegistry) (key : String × Nat)
    (r next : TerminalAgentReducer) : Prop where
  before : reg.terminals.get? key = some r
  after : reg'.terminals = reg.terminals.insert key next

theorem Replaced.disciplined (h : Replaced reg reg' key r next)
    (hrev : next.semantics ≠ r.semantics → reg.revision < reg'.revision)
    (hgen : transitioned r.state next.state = true →
      reg.nonFreeGeneration < reg'.nonFreeGeneration) : Disciplined reg reg' := by
  constructor
  · intro other hne
    by_cases hkey : other = key
    · subst hkey
      rw [semantics?, semantics?, h.before, h.after] at hne
      exact hrev fun heq => hne (by simp [heq])
    · rw [semantics?, semantics?, h.after, get?_insert_of_ne _ _ hkey] at hne
      exact absurd rfl hne
  · intro other hcross
    by_cases hkey : other = key
    · subst hkey
      rw [state?, state?, h.before, h.after, get?_insert_self] at hcross
      exact hgen (crosses_some_iff.mp hcross)
    · rw [state?, state?, h.after, get?_insert_of_ne _ _ hkey] at hcross
      exact absurd rfl hcross.1

/-- If the counters stand still, nothing semantic may have changed. -/
theorem Replaced.disciplined_iff (h : Replaced reg reg' key r next)
    (hrev : reg'.revision = reg.revision) :
    Disciplined reg reg' ↔ next.semantics = r.semantics := by
  constructor
  · intro hd
    by_contra hne
    have hlt := hd.revision key (by
      rw [semantics?, semantics?, h.before, h.after]
      simpa using Ne.symm hne)
    omega
  · intro heq
    refine h.disciplined (fun hne => absurd heq hne) fun htrans => ?_
    have hstate : next.state = r.state := congrArg Semantics.state heq
    simp [transitioned, hstate] at htrans

end

/-! ## Operations

Each operation is disciplined exactly when it is safe. The counters are below the
end of `u64`, where `saturating_add` no longer moves them. -/

section

variable {reg : AgentStatusRegistry} {r next : TerminalAgentReducer} {key : String × Nat}
  {drawn leaseInst : Nat} {changed bumped : Bool} {exitedOwner : Option NativeOwner}
  {envelope : PrivateHookEnvelope}

/-- A first admission raises the generation only after the revision has been
checked. -/
theorem firstAdmission_disciplined_iff (hrev : reg.revision < U64_MAX)
    (hgen : reg.nonFreeGeneration < U64_MAX) (hnone : reg.terminals.get? key = none)
    (hstate : r.state = .unknown) :
    Disciplined reg (reg.counted (reg.terminals.insert key r) drawn true
      (reg.revision < MAX_SAFE_INTEGER)) ↔ reg.revision < MAX_SAFE_INTEGER := by
  constructor
  · intro hd
    by_contra hover
    have hlt := hd.nonFree key (by
      rw [state?, state?, hnone, counted]
      simp [Crosses, hstate])
    simp [counted, hover] at hlt
  · intro hunder
    refine disciplined_of_raised (lt_satAdd_one hrev) ?_
    simpa [counted, hunder] using lt_satAdd_one hgen

theorem still_disciplined_iff (hget : reg.terminals.get? key = some r) :
    Disciplined reg (reg.counted (reg.terminals.insert key next) drawn false false) ↔
      next.semantics = r.semantics :=
  Replaced.disciplined_iff ⟨hget, rfl⟩ rfl

theorem hookFailed_semantics_iff {nowMs inst : Nat} {error : AgentStatusError}
    (h : reg.Answers key r envelope nowMs leaseInst inst exitedOwner (.error error) next) :
    next.semantics = r.semantics ↔ (r.Refused envelope exitedOwner.isSome →
      (r.leaseExpired nowMs DEFAULT_LEASE_MS leaseInst = true → r.Blank) ∧
        (r.TakesOver envelope exitedOwner.isSome →
          r.agentKind = .omp ∧ r.agentSessionId = envelope.agentSessionId ∧ r.Blank)) := by
  have hleased := checkLease_semantics r nowMs DEFAULT_LEASE_MS leaseInst
  obtain ⟨href, hcases⟩ := h.step.failed
  rw [checkLease_refused_iff] at href
  rw [checkLease_takesOver_iff] at hcases
  rw [forall_prop_of_true href]
  rcases hcases with ⟨hno, hsem⟩ | ⟨htake, hsem⟩
  · rw [hsem, hleased]
    split_ifs with hexp
    · simp [← blank_iff, hexp, hno]
    · simp [hexp, hno]
  · have hover : next.semantics = { r.semantics with
        agentKind := .omp, agentSessionId := envelope.agentSessionId
        state := .unknown, reason := none, turnId := none, lastOutcome := none } := by
      rw [hsem, hleased]
      split <;> rfl
    rw [hover, takeover_semantics_iff]
    exact ⟨fun h => ⟨fun _ => h.2.2, fun _ => h⟩, fun h => h.2 htake⟩

theorem Answers.revisionSafe {terminalId : String} {incarnation : Nat} {nowMs inst : Nat}
    {output : ReducerOutput}
    (h : reg.Answers (terminalId, incarnation) r envelope nowMs leaseInst inst exitedOwner
      (.ok output) next) :
    RevisionSafe reg
      (.applyHook terminalId incarnation envelope nowMs leaseInst inst exitedOwner) := by
  intro r' hget _ href
  rw [h.known, Option.some.injEq] at hget
  rw [← hget, ← checkLease_refused_iff] at href
  exact absurd href h.step.succeeded

variable (hrev : reg.revision < U64_MAX) (hgen : reg.nonFreeGeneration < U64_MAX)

include hrev hgen

/-- Counters that are raised when they have to be. -/
theorem counted_disciplined (hget : reg.terminals.get? key = some r)
    (hchanged : changed = false → next.semantics = r.semantics) :
    Disciplined reg (reg.counted (reg.terminals.insert key next) drawn changed
      (transitioned r.state next.state)) := by
  refine Replaced.disciplined ⟨hget, rfl⟩ (fun hsem => ?_) fun htrans => ?_
  · have htrue : changed = true := by
      by_contra hno
      exact hsem (hchanged (by simpa using hno))
    simpa only [counted, htrue, if_true] using lt_satAdd_one hrev
  · simpa only [counted, htrans, if_true] using lt_satAdd_one hgen

/-- **Each operation is disciplined exactly when it is safe.** -/
theorem step_disciplined_iff (hkept : EveryTerminal (·.OutcomeKept) reg) (op : Op) :
    Disciplined reg (reg.step op) ↔ RevisionSafe reg op := by
  have hraised : ∀ {terminals drawn}, Disciplined reg (reg.counted terminals drawn true true) :=
    disciplined_of_raised (lt_satAdd_one hrev) (lt_satAdd_one hgen)
  -- a condition on the reducer of the terminal, where there is one
  have hsome : ∀ {key r} {P : TerminalAgentReducer → Prop}, reg.terminals.get? key = some r →
      ((∀ r, reg.terminals.get? key = some r → P r) ↔ P r) := by
    intro key r P hget
    simp [hget]
  have hstep := opStep reg op
  generalize reg.step op = reg' at hstep ⊢
  generalize reg.emitted (.op op) = events at hstep
  cases hstep with
  | inert _ hsafe => exact iff_of_true (disciplined_of_semantics fun _ => rfl) hsafe
  | reconnected hget _ => exact iff_of_true hraised fun hnone => by simp [hget] at hnone
  | admitted _ hget hnew _ =>
    refine (firstAdmission_disciplined_iff hrev hgen hget ?_).trans
      ⟨fun h _ _ => h, fun h => h hget ⟨_, hnew⟩⟩
    rw [new_ok hnew]
    rfl
  | @reportFailed _ _ _ _ _ inst r _ _ hget hadmit hresult =>
    refine (still_disciplined_iff hget).trans (Iff.trans ?_ (hsome hget).symm)
    constructor
    · intro hsem hover
      have hmoved := (hover.failed inst).2
      rw [hresult] at hmoved
      exact hmoved hsem
    · intro hno
      rcases applyReport_reported hno inst with ⟨error, heq⟩ | ⟨output, hok, _⟩
      · rw [hresult] at heq
        exact congrArg _ (Prod.mk.inj heq).2
      · simp [hresult] at hok
  | @reported _ _ reporterEpoch report nowMs inst r _ _ hget hadmit hresult =>
    have hno : ¬ r.Overflows reporterEpoch report nowMs := by
      intro hover
      obtain ⟨⟨error, herror⟩, _⟩ := hover.failed inst
      simp [hresult] at herror
    refine iff_of_true (counted_disciplined hrev hgen hget fun hquiet => ?_) ((hsome hget).mpr hno)
    have hreported := applyReport_reported hno inst
    rw [hresult] at hreported
    rcases hreported with ⟨error, heq⟩ | ⟨output, hok, hsem⟩
    · cases heq
    · cases hok
      exact hsem hquiet
  | hookFailed h =>
    refine (still_disciplined_iff h.known).trans ((hookFailed_semantics_iff h).trans ?_)
    exact ⟨fun hcond r' hget _ => Option.some.inj (h.known.symm.trans hget) ▸ hcond,
      fun hsafe => hsafe _ h.known h.admits⟩
  | @hooked _ _ envelope nowMs leaseInst _ _ r _ _ h hroot =>
    refine iff_of_true (counted_disciplined hrev hgen h.known fun hquiet => ?_) h.revisionSafe
    simp only [Bool.or_eq_false_iff] at hquiet
    have hleased := checkLease_semantics r nowMs DEFAULT_LEASE_MS leaseInst
    rw [hquiet.2] at hleased
    have hsame := (checkLease_keeps r envelope nowMs DEFAULT_LEASE_MS leaseInst).1
    exact (h.step.quiet hquiet.1 (hroot.trans hsame.symm)).trans hleased
  | settled h _ =>
    exact iff_of_true (counted_disciplined hrev hgen h.known fun hquiet => by cases hquiet)
      h.revisionSafe
  | claimed hget _ _ => exact iff_of_true hraised fun r h => by simp [hget] at h
  | @disconnected _ _ _ r hget hroot =>
    refine iff_of_true ?_ trivial
    cases hchanged : r.markUnknown.1.stateChanged with
    | true => exact hraised
    | false =>
      exact (still_disciplined_iff hget).mpr ((hkept _ r hget).markUnknown_quiet hroot hchanged)
  | retired _ | removed => exact iff_of_true hraised trivial
  | @checked nowMs leaseMs inst expired h =>
    refine iff_of_true ?_ trivial
    cases expired with
    | true => exact hraised
    | false =>
      refine disciplined_of_semantics fun key => ?_
      rw [semantics?, semantics?, counted, get?_mapValues]
      cases hget : reg.terminals.get? key with
      | none => rfl
      | some r =>
        -- no lease has expired, so none of the checks changed anything
        have hexpired := checkLease_isSome r nowMs leaseMs (inst key)
        have hsem := checkLease_semantics r nowMs leaseMs (inst key)
        rw [h rfl key r hget] at hexpired
        rw [← hexpired] at hsem
        simpa using hsem.symm

end

/-! ## Runs -/

variable {reg : AgentStatusRegistry}

theorem EveryTerminal.insert {P : TerminalAgentReducer → Prop} {reg' : AgentStatusRegistry}
    {key : String × Nat} {r : TerminalAgentReducer} (h : EveryTerminal P reg)
    (hafter : reg'.terminals = reg.terminals.insert key r) (hr : P r) : EveryTerminal P reg' := by
  rw [EveryTerminal, hafter]
  exact forall_insert h hr

theorem outcomeKept_step (op : Op) (hkept : EveryTerminal (·.OutcomeKept) reg) :
    EveryTerminal (·.OutcomeKept) (reg.step op) := by
  have hstep := opStep reg op
  generalize reg.step op = reg' at hstep ⊢
  generalize reg.emitted (.op op) = events at hstep
  cases hstep with
  | inert _ _ => exact hkept
  | @reconnected _ _ hello _ nowMs inst _ _ hget heq =>
    have hnext := (hkept _ _ hget).reconnect (reg.nextReporterEpoch + 1) hello nowMs inst
    rw [heq] at hnext
    exact hkept.insert rfl hnext
  | admitted _ _ hnew _ =>
    refine hkept.insert rfl ?_
    rw [new_ok hnew]
    exact fun _ _ => rfl
  | @reportFailed _ _ reporterEpoch report nowMs inst _ _ _ hget _ hresult
  | @reported _ _ reporterEpoch report nowMs inst _ _ _ hget _ hresult =>
    have hnext := (hkept _ _ hget).report reporterEpoch report nowMs inst
    rw [hresult] at hnext
    exact hkept.insert rfl hnext
  | hookFailed h | hooked h _ =>
    exact hkept.insert rfl (((hkept _ _ h.known).checkLease _ _ _).hook h.step)
  | @settled _ _ envelope _ _ _ _ _ _ _ h hroot =>
    refine hkept.insert rfl fun hnone _ => ?_
    -- the root has changed, so the terminal was released by this hook
    refine (h.step.released hnone).resolve_left fun heq => hroot ?_
    exact (congrArg nativeRoot heq).trans (checkLease_keeps _ envelope _ _ _).1
  | @claimed _ _ _ _ _ _ _ fresh _ _ _ hnew h =>
    have hfresh : fresh.OutcomeKept := by
      rw [newForHook_ok hnew]
      exact fun _ _ => rfl
    exact hkept.insert rfl (hfresh.hook h)
  | disconnected _ _ | retired _ => exact hkept.insert rfl fun _ _ => rfl
  | checked _ =>
    intro key r hget
    rw [counted, get?_mapValues, Option.map_eq_some_iff] at hget
    obtain ⟨old, hold, rfl⟩ := hget
    exact (hkept key old hold).checkLease _ _ _
  | removed =>
    exact fun key r hget => hkept key r (get?_of_erase hget)

/-- **The revision discipline of a registry.** In every state an operation raises
the revision with each change a client can see, and the generation with each
move into or out of `Working` or `Unknown`, exactly when it is `RevisionSafe`. -/
theorem disciplined_iff_revisionSafe (serverEpoch : Nat) (availability : AgentStatusAvailability)
    (ops : List Op) (op : Op)
    (hrev : (run step (new serverEpoch availability) ops).revision < U64_MAX)
    (hgen : (run step (new serverEpoch availability) ops).nonFreeGeneration < U64_MAX) :
    Disciplined (run step (new serverEpoch availability) ops)
        ((run step (new serverEpoch availability) ops).step op) ↔
      RevisionSafe (run step (new serverEpoch availability) ops) op := by
  have hkept : EveryTerminal (·.OutcomeKept) (run step (new serverEpoch availability) ops) :=
    invariant_run_all (fun s a hs => outcomeKept_step a hs) ops fun _ _ hget => by cases hget
  exact step_disciplined_iff hrev hgen hkept op

/-! ## A stranger's hook after the lease has run out -/

def codexHook (pid : Nat) (eventId event : String) : PrivateHookEnvelope :=
  { agentKind := .codex, adapterVersion := "1", eventId, event, agentSessionId := "s"
    turnId := some "t1", toolCallId := none, notificationType := none
    rootProcess := { pid, startTicks := 1 } }

def promptOf7 : Op :=
  .applyHook "term" 1 (codexHook 7 "e1" "UserPromptSubmit") 0 0 0 none

def lateHookOf8 : Op :=
  .applyHook "term" 1 (codexHook 8 "e2" "Stop") DEFAULT_LEASE_MS DEFAULT_LEASE_MS
    DEFAULT_LEASE_MS none

theorem disciplined_prompt :
    Disciplined (run step (new 1 .ready) []) ((run step (new 1 .ready) []).step promptOf7) :=
  (disciplined_iff_revisionSafe 1 .ready [] promptOf7 (by decide) (by decide)).mpr
    fun _ hget => by cases hget

/-- The hook of process 8 is refused, and the terminal has left `Working` for
`Unknown` with both counters where they were. -/
theorem refused_hook_expires_unseen :
    let reg := run step (new 1 .ready) [promptOf7]
    let reg' := reg.step lateHookOf8
    reg.state? ("term", 1) = some .working ∧ reg'.state? ("term", 1) = some .unknown ∧
      reg'.revision = reg.revision ∧ reg'.nonFreeGeneration = reg.nonFreeGeneration ∧
      ¬ Disciplined reg reg' := by
  have hold : (run step (new 1 .ready) [promptOf7]).state? ("term", 1) = some .working := by
    decide
  have hnew : ((run step (new 1 .ready) [promptOf7]).step lateHookOf8).state? ("term", 1)
      = some .unknown := by decide
  refine ⟨hold, hnew, by decide, by decide, fun h => ?_⟩
  have hlt := h.nonFree ("term", 1) (by rw [hold, hnew]; simp [Crosses])
  exact absurd hlt (by decide)

end AgentStatusRegistry

end DamHopper.AgentStatus
