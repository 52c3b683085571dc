import DamHopper.AgentStatus.Reporters

/-!
# AgentStatus — ReporterRuns

The discipline of reporters over whole runs of the registry. An epoch belongs to one
terminal, and only the latest one is heard (`Known`); what a report was accepted for stays
behind the sequence number (`Heard`); a turn whose end is announced was installed by a
report of that epoch (`Installs`).

The registry stops announcing before a counter can saturate, since every announced event
raises the revision, which has to stay within the safe integers.
-/

namespace DamHopper.AgentStatus

open TerminalAgentReducer List AssocMap
open TerminalAgentReducer (attentionOf)

def AgentAttentionEvent.terminal (event : AgentAttentionEvent) : String × Nat :=
  (event.terminalId, event.incarnation)

namespace AgentStatusRegistry

structure Known (reg : AgentStatusRegistry) : Prop where
  placed : ∀ key r, reg.terminals.get? key = some r → r.place = (reg.serverEpoch, key.1, key.2)
  drawn : ∀ key r, reg.terminals.get? key = some r → r.reporterEpoch ≤ reg.nextReporterEpoch
  owner : ∀ key key' r r', reg.terminals.get? key = some r → reg.terminals.get? key' = some r' →
    r.reporterEpoch = r'.reporterEpoch → key = key'
  counted : ∀ key r, reg.terminals.get? key = some r →
    r.attentionRevision < reg.revision ∨ MAX_SAFE_INTEGER < reg.revision
  positive : 0 < reg.revision

/-! ## One call -/

section

variable {reg reg' : AgentStatusRegistry} {call : Call} {key : String × Nat}
  {r next : TerminalAgentReducer} {events : List AgentAttentionEvent}

/-- A terminal after a call was there and moved, or is new and has a new epoch. -/
theorem Change.origin (h : Change reg call reg' events)
    (hget : reg'.terminals.get? key = some next) :
    (∃ r events', reg.terminals.get? key = some r ∧ Moves reg reg' call key r next events') ∨
      (reg.terminals.get? key = none ∧ reg.nextReporterEpoch < next.reporterEpoch ∧
        next.reporterEpoch ≤ reg'.nextReporterEpoch ∧
        next.place = (reg.serverEpoch, key.1, key.2) ∧
        ∃ fresh events', fresh.attentionRevision = 0 ∧ Counts reg reg' fresh next events') := by
  have hkept : reg.terminals.get? key = some next → ∃ r events',
      reg.terminals.get? key = some r ∧ Moves reg reg' call key r next events' :=
    fun hsame => ⟨next, [], hsame, rfl, .kept, .quiet rfl⟩
  cases h with
  | same hterminals =>
    rw [hterminals] at hget
    exact .inl (hkept hget)
  | @moved changed old after _ hold hterminals hmoves =>
    rw [hterminals, get?_insert] at hget
    split_ifs at hget with hkey
    · subst hkey
      cases hget
      exact .inl ⟨old, events, hold, hmoves⟩
    · exact .inl (hkept hget)
  | @created changed fresh after _ hold hterminals hplace hless hle hzero hcounts =>
    rw [hterminals, get?_insert] at hget
    split_ifs at hget with hkey
    · subst hkey
      cases hget
      exact .inr ⟨hold, hless, hle, hplace, fresh, events, hzero, hcounts⟩
    · exact .inl (hkept hget)
  | checked hterminals hmoves _ =>
    rw [hterminals, get?_mapValues, Option.map_eq_some_iff] at hget
    obtain ⟨old, hold, rfl⟩ := hget
    exact .inl ⟨old, [], hold, hmoves key old⟩
  | removed hterminals =>
    rw [hterminals] at hget
    exact .inl (hkept (get?_of_erase hget))

variable {event : AgentAttentionEvent} {reporterEpoch nowMs inst seq : Nat}
  {report : ReporterReport} {start : AgentStatusRegistry} {calls : List Call}
  {gone : List (String × Nat)} {rel : AgentAttentionEvent → AgentAttentionEvent → Prop}

theorem Counts.of_mem {r next : TerminalAgentReducer} (h : Counts reg reg' r next events)
    (hmem : event ∈ events) : next.attentionRevision = satAdd r.attentionRevision 1 ∧
      next.Announced event ∧ reg'.revision = satAdd reg.revision 1 ∧
      reg'.revision ≤ MAX_SAFE_INTEGER := by
  cases h with
  | quiet _ | suppressed _ => cases hmem
  | raised hcount hevent hrev hsafe =>
    rw [mem_singleton.mp hmem]
    exact ⟨hcount, hevent, hrev, hsafe⟩

/-- What is announced is the counter of a terminal, raised by one. -/
theorem Change.announced (h : Change reg call reg' events) (hmem : event ∈ events) :
    ∃ key next, reg'.terminals.get? key = some next ∧
      next.Announced event ∧ reg'.revision = satAdd reg.revision 1 ∧
      reg'.revision ≤ MAX_SAFE_INTEGER ∧
      ∀ r, reg.terminals.get? key = some r →
        next.attentionRevision = satAdd r.attentionRevision 1 := by
  cases h with
  | same _ => cases hmem
  | @moved changed old after _ hold hterminals hmoves =>
    obtain ⟨hcount, hevent, hrev, hsafe⟩ := hmoves.counts.of_mem hmem
    refine ⟨changed, after, ?_, hevent, hrev, hsafe, fun r hr => ?_⟩
    · rw [hterminals, get?_insert_self]
    · cases hold.symm.trans hr
      exact hcount
  | @created changed fresh after _ hold hterminals _ _ _ _ hcounts =>
    obtain ⟨_, hevent, hrev, hsafe⟩ := hcounts.of_mem hmem
    refine ⟨changed, after, ?_, hevent, hrev, hsafe, fun r hr => ?_⟩
    · rw [hterminals, get?_insert_self]
    · simp [hold] at hr
  | checked _ _ _ | removed _ => cases hmem

/-- Within its epoch a terminal keeps it; otherwise it has a new one. -/
theorem TerminalStep.epoch (h : TerminalStep reg reg' call key r next) :
    next.reporterEpoch = r.reporterEpoch ∨ reg.nextReporterEpoch < next.reporterEpoch ∧
      next.reporterEpoch ≤ reg'.nextReporterEpoch := by
  cases h with
  | kept => exact .inl rfl
  | taken hless hle => exact .inr ⟨hless, hle⟩
  | @reported _ _ inst _ _ hadmit =>
    exact .inl (applyReport_reported_turn hadmit inst).connection.reporterEpoch
  | withdrawn hsame _ _ => exact .inl hsame

theorem Advances.counted (h : Advances reg reg') {n : Nat}
    (hn : n < reg.revision ∨ MAX_SAFE_INTEGER < reg.revision) :
    n < reg'.revision ∨ MAX_SAFE_INTEGER < reg'.revision := by
  rcases h.revision with heq | heq
  · rw [heq]
    exact hn
  · rw [heq]
    simp only [satAdd, U64_MAX, MAX_SAFE_INTEGER] at hn ⊢
    omega

theorem Advances.overflow (h : Advances reg reg') (hover : MAX_SAFE_INTEGER < reg.revision) :
    MAX_SAFE_INTEGER < reg'.revision :=
  (h.counted (.inl hover)).elim id id

theorem Counts.counted (h : Counts reg reg' r next events) (hadvances : Advances reg reg')
    (hr : r.attentionRevision < reg.revision ∨ MAX_SAFE_INTEGER < reg.revision) :
    next.attentionRevision < reg'.revision ∨ MAX_SAFE_INTEGER < reg'.revision := by
  cases h with
  | quiet heq =>
    rw [heq]
    exact hadvances.counted hr
  | raised hcount _ hrev hsafe =>
    rw [hcount, hrev]
    simp only [satAdd, U64_MAX, MAX_SAFE_INTEGER] at hr hsafe ⊢
    omega
  | suppressed hover =>
    rcases hover with hover | hover
    · exact .inr hover
    · have hout : MAX_SAFE_INTEGER < reg.revision := by omega
      exact .inr (hadvances.overflow hout)

/-- All terminals but one keep their epochs. -/
theorem Change.others (h : Change reg call reg' events) :
    ∃ changed, ∀ key next, key ≠ changed → reg'.terminals.get? key = some next →
      ∃ r, reg.terminals.get? key = some r ∧ next.reporterEpoch = r.reporterEpoch := by
  cases h with
  | same hterminals => exact ⟨default, fun _ next _ hget => ⟨next, hterminals ▸ hget, rfl⟩⟩
  | @moved changed _ _ _ _ hterminals _ | @created changed _ _ _ _ hterminals _ _ _ _ _ =>
    refine ⟨changed, fun _ next hne hget => ⟨next, ?_, rfl⟩⟩
    rwa [hterminals, get?_insert_of_ne _ _ hne] at hget
  | checked hterminals _ hepochs =>
    refine ⟨default, fun _ next _ hget => ?_⟩
    rw [hterminals, get?_mapValues, Option.map_eq_some_iff] at hget
    obtain ⟨old, hold, rfl⟩ := hget
    exact ⟨old, hold, hepochs _ old⟩
  | removed hterminals =>
    exact ⟨default, fun _ next _ hget => ⟨next, get?_of_erase (hterminals ▸ hget), rfl⟩⟩

/-- Two terminals have the same epoch only if they had before. -/
theorem Change.owner (h : Change reg call reg' events) (hknown : Known reg) {key' : String × Nat}
    {next' : TerminalAgentReducer} (hget : reg'.terminals.get? key = some next)
    (hget' : reg'.terminals.get? key' = some next')
    (heq : next.reporterEpoch = next'.reporterEpoch) : key = key' := by
  obtain ⟨changed, hothers⟩ := h.others
  -- a new epoch is one that no terminal had
  have hone : ∀ {k k' : String × Nat} {n n' : TerminalAgentReducer}, k' ≠ changed →
      reg'.terminals.get? k = some n → reg'.terminals.get? k' = some n' →
      n.reporterEpoch = n'.reporterEpoch → k = k' := by
    intro k k' n n' hne hn hn' hsame
    obtain ⟨r', hr', hepoch'⟩ := hothers k' n' hne hn'
    have hdrawn := hknown.drawn k' r' hr'
    rcases h.origin hn with ⟨r, _, hr, hmoves⟩ | ⟨_, hless, _⟩
    · rcases hmoves.step.epoch with hepoch | ⟨hless, _⟩
      · exact hknown.owner k k' r r' hr hr' (by omega)
      · omega
    · omega
  by_cases hkey : key = changed
  · by_cases hkey' : key' = changed
    · rw [hkey, hkey']
    · exact hone hkey' hget hget' heq
  · exact (hone hkey hget' hget heq.symm).symm

/-- **The registry stays known.** -/
theorem Known.handled (h : Known reg) (call : Call) : Known (reg.handle call) := by
  obtain ⟨hchange, hadvances⟩ := change reg call
  constructor
  · intro key next hget
    rw [hadvances.serverEpoch]
    rcases hchange.origin hget with ⟨r, _, hr, hmoves⟩ | ⟨_, _, _, hplace, _⟩
    · exact hmoves.place.trans (h.placed key r hr)
    · exact hplace
  · intro key next hget
    rcases hchange.origin hget with ⟨r, _, hr, hmoves⟩ | ⟨_, _, hle, _⟩
    · have hold := h.drawn key r hr
      have hnext := hadvances.nextReporterEpoch
      rcases hmoves.step.epoch with heq | ⟨_, hle⟩
      · omega
      · exact hle
    · exact hle
  · intro key key' next next' hget hget' heq
    exact hchange.owner h hget hget' heq
  · intro key next hget
    rcases hchange.origin hget with ⟨r, _, hr, hmoves⟩ | ⟨_, _, _, _, fresh, _, hzero, hcounts⟩
    · exact hmoves.counts.counted hadvances (h.counted key r hr)
    · exact hcounts.counted hadvances (.inl (by rw [hzero]; exact h.positive))
  · rcases hadvances.counted (.inl h.positive) with hpos | hover
    · exact hpos
    · omega

theorem known_run (h : Known reg) : Known (run handle reg calls) :=
  invariant_run_all (fun _ call hreg => hreg.handled call) calls h

theorem nextReporterEpoch_le_run (reg : AgentStatusRegistry) (calls : List Call) :
    reg.nextReporterEpoch ≤ (run handle reg calls).nextReporterEpoch := by
  refine invariant_run_all
    (I := fun s : AgentStatusRegistry => reg.nextReporterEpoch ≤ s.nextReporterEpoch)
    (fun s call hs => ?_) calls (Nat.le_refl _)
  have hnext := (change s call).2.nextReporterEpoch
  omega

/-! ## Epochs -/

/-- The epoch a report or a disconnect carries, and the terminal it is for. -/
def Call.carries : Call → Option ((String × Nat) × Nat)
  | .op (.applyReport terminalId incarnation reporterEpoch _ _ _)
  | .op (.markUnknown terminalId incarnation reporterEpoch) =>
    some ((terminalId, incarnation), reporterEpoch)
  | _ => none

def epoch? (reg : AgentStatusRegistry) (key : String × Nat) : Option Nat :=
  (reg.terminals.get? key).map (·.reporterEpoch)

theorem admitReport_epoch (h : r.admitReport reporterEpoch report nowMs = .ok true) :
    reporterEpoch = r.reporterEpoch := by
  unfold admitReport at h
  simp only [check_bind_eq_ok_iff, require_eq_ok_iff] at h
  exact h.1

/-- **A call with another epoch than the current one does nothing.** -/
theorem stale_dropped (hcarries : call.carries = some (key, reporterEpoch))
    (h : reg.epoch? key ≠ some reporterEpoch) :
    reg.handle call = reg ∧ reg.emitted call = [] := by
  have hstale : ∀ r, reg.terminals.get? key = some r → r.reporterEpoch ≠ reporterEpoch := by
    intro r hget heq
    apply h
    rw [epoch?, hget, Option.map_some, heq]
  unfold Call.carries at hcarries
  split at hcarries
  next terminalId incarnation epoch report nowMs inst =>
    cases hcarries
    have hrefused : ∀ r, reg.terminals.get? (terminalId, incarnation) = some r →
        r.admitReport reporterEpoch report nowMs ≠ .ok true :=
      fun r hget hok => hstale r hget (admitReport_epoch hok).symm
    exact applyReport_dropped hrefused inst
  · cases hcarries
    simp only [handle, step, emitted, markUnknown]
    split
    · exact ⟨rfl, rfl⟩
    next r hget =>
      rw [if_pos (hstale r hget)]
      exact ⟨rfl, rfl⟩
  · cases hcarries

theorem admitReporter_row {terminalId : String} {incarnation : Nat} {hello : ReporterHello}
    {verifiedProcess : Option ProcessIdentity} {row : TerminalAgentStatusRow} :
    (reg.admitReporterWithProcess terminalId incarnation hello verifiedProcess nowMs
      inst).1 = .ok row →
    reg.nextReporterEpoch < row.reporterEpoch ∧
      (reg.admitReporterWithProcess terminalId incarnation hello verifiedProcess nowMs
        inst).2.epoch? (terminalId, incarnation) = some row.reporterEpoch := by
  unfold admitReporterWithProcess
  simp only
  split
  · rintro ⟨⟩
  rename_i hcheck
  have hnext := (satAdd_of_checked hcheck).2
  split
  next existing hget =>
    rcases reconnect_cases existing (satAdd reg.nextReporterEpoch 1) hello nowMs inst with
      ⟨error, heq⟩ | ⟨next, heq⟩
    · simp [heq]
    rw [heq]
    intro h
    have hrow := advanceIf_ok h
    obtain ⟨_, _, hepoch, _⟩ := reconnect_taken heq
    have hdrawn : row.reporterEpoch = satAdd reg.nextReporterEpoch 1 := by
      rw [hrow]
      exact hepoch
    refine ⟨by omega, ?_⟩
    rw [advanceIf_eq, hdrawn, ← hepoch]
    simp [epoch?, put, bumpNonFree]
  · split
    · rintro ⟨⟩
    next fresh hnew =>
      have hfresh := new_ok hnew
      split
      · rintro ⟨⟩
      rename_i hadvance
      rintro ⟨⟩
      have hrow : row = { fresh with verifiedProcess }.toRow :=
        advanceIf_ok (show (advanceIf _ true _).1 = _ from congrArg Prod.fst hadvance)
      have hdrawn : row.reporterEpoch = satAdd reg.nextReporterEpoch 1 := by
        rw [hrow, hfresh]
        rfl
      refine ⟨by omega, ?_⟩
      rw [← (Prod.mk.inj hadvance).2, hdrawn, hfresh]
      simp [epoch?, put, bumpNonFree]
      rfl

/-! ## Sequence numbers -/

def Accepts (reg : AgentStatusRegistry) (key : String × Nat) (reporterEpoch : Nat)
    (report : ReporterReport) (nowMs : Nat) : Prop :=
  ∃ r, reg.terminals.get? key = some r ∧ r.admitReport reporterEpoch report nowMs = .ok true

/-- A report with number `seq` has been heard from this epoch: the terminal has gone on to
another epoch, has lost its lease, or stands at that number or beyond. -/
structure Heard (key : String × Nat) (reporterEpoch seq : Nat) (reg : AgentStatusRegistry) :
    Prop where
  drawn : reporterEpoch ≤ reg.nextReporterEpoch
  behind : ∀ r, reg.terminals.get? key = some r → r.reporterEpoch = reporterEpoch →
    r.reporterLeaseActive = true →
    r.agentKind = .omp ∧ r.lastReport ≠ none ∧ seq ≤ r.lastAcceptedSeq

theorem admitReport_seq (h : r.admitReport reporterEpoch report nowMs = .ok true)
    (hlast : r.lastReport ≠ none) :
    r.lastAcceptedSeq < report.seq := by
  unfold admitReport at h
  simp only [check_bind_eq_ok_iff] at h
  obtain ⟨_, _, _, hfence⟩ := h
  obtain ⟨fresh, hfresh, hvalid⟩ := bind_eq_ok_iff.mp hfence
  cases fresh with
  | false => cases hvalid
  | true =>
    unfold sequenceFence at hfresh
    split at hfresh
    next hnone => exact absurd hnone hlast
    split at hfresh
    · cases hfresh
    split at hfresh
    · split at hfresh <;> cases hfresh
    · omega

theorem Heard.handled (h : Heard key reporterEpoch seq reg) (call : Call) :
    Heard key reporterEpoch seq (reg.handle call) := by
  obtain ⟨hchange, hadvances⟩ := change reg call
  have hdrawn := h.drawn
  refine ⟨Nat.le_trans h.drawn hadvances.nextReporterEpoch, fun next hget hepoch hlease => ?_⟩
  rcases hchange.origin hget with ⟨r, _, hr, hmoves⟩ | ⟨_, hless, _⟩
  · have hbehind := h.behind r hr
    cases hmoves.step with
    | kept => exact hbehind hepoch hlease
    | taken hless _ => omega
    | @reported _ _ inst report _ hadmit =>
      have hreported := applyReport_reported_turn hadmit inst
      rw [hreported.connection.reporterEpoch] at hepoch
      rw [hreported.connection.reporterLeaseActive] at hlease
      obtain ⟨homp, hlast, hseq⟩ := hbehind hepoch hlease
      have hbeyond := admitReport_seq hadmit hlast
      rw [hreported.agentKind, hreported.recorded.1, hreported.recorded.2]
      exact ⟨homp, by simp, by omega⟩
    | withdrawn hsame hdown hnot =>
      -- a leased OMP terminal would have lost its lease
      rw [hsame] at hepoch
      by_cases hactive : r.reporterLeaseActive = true
      · obtain ⟨homp, _⟩ := hbehind hepoch hactive
        exact absurd ⟨homp, hactive, hlease⟩ hnot
      · rw [hdown (by simpa using hactive)] at hlease
        cases hlease
  · omega

theorem get?_applyReport (hget : reg.terminals.get? key = some r) (reporterEpoch : Nat)
    (report : ReporterReport) (nowMs inst : Nat) :
    (reg.handle (.op (.applyReport key.1 key.2 reporterEpoch report nowMs inst))).terminals.get?
      key = some (r.applyReport reporterEpoch report nowMs inst).2 := by
  simp only [handle, step, applyReport, hget]
  generalize r.applyReport reporterEpoch report nowMs inst = result
  obtain ⟨result, next⟩ := result
  cases result with
  | error error => exact get?_insert_self ..
  | ok output =>
    simp only [advanceIf_eq, bumpNonFreeIf_eq]
    exact get?_insert_self ..

theorem Accepts.heard (h : reg.Accepts key reporterEpoch report nowMs) (hknown : Known reg)
    (inst : Nat) :
    Heard key reporterEpoch report.seq
      (reg.handle (.op (.applyReport key.1 key.2 reporterEpoch report nowMs inst))) := by
  obtain ⟨r, hget, hadmit⟩ := h
  have hepoch := admitReport_epoch hadmit
  obtain ⟨_, _, homp⟩ := admitReport_ok hadmit
  have hreported := applyReport_reported_turn hadmit inst
  have hafter := get?_applyReport hget reporterEpoch report nowMs inst
  constructor
  · rw [hepoch]
    exact Nat.le_trans (hknown.drawn key r hget) (change reg _).2.nextReporterEpoch
  · intro next hnext _ _
    rw [hafter, Option.some.injEq] at hnext
    rw [← hnext, hreported.agentKind, hreported.recorded.1, hreported.recorded.2]
    exact ⟨homp, by simp, Nat.le_refl _⟩

/-- **What has been heard is not heard again.** -/
theorem Heard.dropped (h : Heard key reporterEpoch seq reg) (hseq : report.seq ≤ seq) :
    reg.handle (.op (.applyReport key.1 key.2 reporterEpoch report nowMs inst)) = reg ∧
      reg.emitted (.op (.applyReport key.1 key.2 reporterEpoch report nowMs inst)) = [] := by
  have hrefused : ∀ r, reg.terminals.get? key = some r →
      r.admitReport reporterEpoch report nowMs ≠ .ok true := by
    intro r hget hadmit
    obtain ⟨hlease, _⟩ := admitReport_ok hadmit
    obtain ⟨_, hlast, hle⟩ := h.behind r hget (admitReport_epoch hadmit).symm hlease
    have hbeyond := admitReport_seq hadmit hlast
    omega
  exact applyReport_dropped hrefused inst

/-! ## Turns -/

def turn? (reg : AgentStatusRegistry) (key : String × Nat) : Option String :=
  (reg.terminals.get? key).bind (·.currentTurnId)

/-- An accepted `TurnStarted` or `Snapshot` report installs `turn` as the current turn. -/
structure Installs (reg : AgentStatusRegistry) (key : String × Nat) (reporterEpoch : Nat)
    (report : ReporterReport) (nowMs inst : Nat) (turn : String) : Prop where
  accepted : reg.Accepts key reporterEpoch report nowMs
  event : report.event = .turnStarted ∨ report.event = .snapshot
  turnId : report.turnId = some turn
  before : reg.turn? key ≠ some turn
  after : (reg.handle (.op (.applyReport key.1 key.2 reporterEpoch report nowMs inst))).turn?
    key = some turn

/-- The end of a turn is announced by an accepted report only. -/
theorem emitted_turnEnded (hknown : Known reg) (h : event ∈ reg.emitted call)
    (hkind : event.kind = .turnEnded) :
    ∃ reporterEpoch report nowMs inst r,
      call = .op (.applyReport event.terminalId event.incarnation reporterEpoch report nowMs inst) ∧
      reg.terminals.get? (event.terminalId, event.incarnation) = some r ∧
      r.admitReport reporterEpoch report nowMs = .ok true ∧
      event ∈ attentionOf (r.applyReport reporterEpoch report nowMs inst).1 := by
  have hpublished : ∀ {changed attention}, event ∈ reg.published changed attention →
      event ∈ attention := by
    intro changed attention hmem
    unfold published at hmem
    split at hmem
    · cases hmem
    · exact Option.mem_toList.mp hmem
  -- a hook announces calls for attention only
  have hcalls : ∀ {changed attention}, CallsOnly attention →
      event ∉ reg.published changed attention := by
    intro changed attention honly hmem
    have hcall := honly event (hpublished hmem)
    simp [hkind] at hcall
  cases call with
  | setAvailability availability => cases h
  | op op =>
    have hstep := opStep reg op
    generalize reg.step op = reg' at hstep
    generalize reg.emitted (.op op) = events at hstep h
    cases hstep with
    | inert _ _ | reconnected _ _ | admitted _ _ _ _ | reportFailed _ _ _ | hookFailed _
    | disconnected _ _ | retired _ | checked _ | removed => cases h
    | hooked hanswers _ | settled hanswers _ =>
      exact absurd h (hcalls hanswers.step.announces.2)
    | claimed _ _ hhook => exact absurd h (hcalls hhook.announces.2)
    | @reported terminalId incarnation reporterEpoch report nowMs inst r _ _ hget hadmit hresult =>
      have hreported := applyReport_reported_turn hadmit inst
      have hmem : event ∈ attentionOf (r.applyReport reporterEpoch report nowMs inst).1 := by
        rw [hresult]
        exact hpublished h
      have hplace : r.terminalId = terminalId ∧ r.incarnation = incarnation := by
        have hplaced := hknown.placed _ r hget
        simp only [place, Prod.mk.injEq] at hplaced
        exact hplaced.2
      have hevent : event.terminalId = terminalId ∧ event.incarnation = incarnation := by
        rcases hreported.announces with hannounces | ⟨hnone, _⟩
        · obtain ⟨_, hannounced⟩ := hannounces.raised event hmem
          have hsame := hannounces.place
          simp only [place, Prod.mk.injEq] at hsame
          rw [hannounced.terminalId, hannounced.incarnation, hsame.2.1, hsame.2.2]
          exact hplace
        · simp [hnone] at hmem
      rw [hevent.1, hevent.2]
      exact ⟨reporterEpoch, report, nowMs, inst, r, rfl, hget, hadmit, hmem⟩

/-- Since the end of a turn was announced for this epoch, each turn of its terminal has been
installed by a report of the epoch, while the terminal has its lease. -/
def Since (start : AgentStatusRegistry) (key : String × Nat) (reporterEpoch : Nat)
    (calls : List Call) : Prop :=
  reporterEpoch ≤ (run handle start calls).nextReporterEpoch ∧
    ∀ key' r, (run handle start calls).terminals.get? key' = some r →
      r.reporterEpoch = reporterEpoch → key' = key ∧ (r.reporterLeaseActive = true →
        r.agentKind = .omp ∧ ∀ turn, r.currentTurnId = some turn →
          ∃ front back report nowMs inst,
            calls = front ++
              .op (.applyReport key.1 key.2 reporterEpoch report nowMs inst) :: back ∧
            Installs (run handle start front) key reporterEpoch report nowMs inst turn)

theorem Since.handled (h : Since start key reporterEpoch calls) (call : Call) :
    Since start key reporterEpoch (calls ++ [call]) := by
  obtain ⟨hdrawn, hturns⟩ := h
  obtain ⟨hchange, hadvances⟩ := change (run handle start calls) call
  have hrun : run handle start (calls ++ [call]) = (run handle start calls).handle call := by
    simp [run_append]
  -- what was installed before this call was installed in the longer run
  have hlonger : ∀ {turn}, (∃ front back report nowMs inst, calls = front ++
        .op (.applyReport key.1 key.2 reporterEpoch report nowMs inst) :: back ∧
        Installs (run handle start front) key reporterEpoch report nowMs inst turn) →
      ∃ front back report nowMs inst, calls ++ [call] = front ++
        .op (.applyReport key.1 key.2 reporterEpoch report nowMs inst) :: back ∧
        Installs (run handle start front) key reporterEpoch report nowMs inst turn := by
    rintro turn ⟨front, back, report, nowMs, inst, heq, hinstalls⟩
    refine ⟨front, back ++ [call], report, nowMs, inst, ?_, hinstalls⟩
    rw [heq, append_assoc, cons_append]
  unfold Since
  rw [hrun]
  refine ⟨Nat.le_trans hdrawn hadvances.nextReporterEpoch, fun key' next hget hepoch => ?_⟩
  rcases hchange.origin hget with ⟨r, _, hr, hmoves⟩ | ⟨_, hless, _⟩
  · have hold := hturns key' r hr
    cases hmoves.step with
    | kept =>
      obtain ⟨hkey, hleased⟩ := hold hepoch
      refine ⟨hkey, fun hlease => ?_⟩
      obtain ⟨homp, hinstalled⟩ := hleased hlease
      exact ⟨homp, fun turn hturn => hlonger (hinstalled turn hturn)⟩
    | taken hless _ => omega
    | @reported epoch nowMs inst report hcall hadmit =>
      have hreported := applyReport_reported_turn hadmit inst
      rw [hreported.connection.reporterEpoch] at hepoch
      obtain ⟨hkey, hleased⟩ := hold hepoch
      refine ⟨hkey, fun hlease => ?_⟩
      rw [hreported.connection.reporterLeaseActive] at hlease
      obtain ⟨homp, hinstalled⟩ := hleased hlease
      refine ⟨hreported.agentKind.trans homp, fun turn hturn => ?_⟩
      by_cases hcurrent : r.currentTurnId = some turn
      · exact hlonger (hinstalled turn hcurrent)
      obtain ⟨hevent, hturnId⟩ := (hreported.turn turn hturn).resolve_left hcurrent
      have hcarried : epoch = reporterEpoch := (admitReport_epoch hadmit).trans hepoch
      subst hkey
      subst hcarried
      refine ⟨calls, [], report, nowMs, inst, by rw [hcall], ⟨r, hr, hadmit⟩, hevent,
        hturnId, ?_, ?_⟩
      · rw [turn?, hr]
        exact hcurrent
      · rw [turn?, get?_applyReport hr]
        exact hturn
    | withdrawn hsame hdown hnot =>
      rw [hsame] at hepoch
      obtain ⟨hkey, hleased⟩ := hold hepoch
      refine ⟨hkey, fun hlease => ?_⟩
      by_cases hactive : r.reporterLeaseActive = true
      · exact absurd ⟨(hleased hactive).1, hactive, hlease⟩ hnot
      · rw [hdown (by simpa using hactive)] at hlease
        cases hlease
  · omega

theorem Since.run (h : Since start key reporterEpoch []) (calls : List Call) :
    Since start key reporterEpoch calls := by
  induction calls using List.reverseRecOn with
  | nil => exact h
  | append_singleton calls call ih => exact ih.handled call

/-! ## Attention -/

def lost (reg : AgentStatusRegistry) (call : Call) : List (String × Nat) :=
  reg.terminals.keys.filter fun key => !(reg.handle call).terminals.contains key

/-- Incarnations are not reused: a terminal that is gone does not come back. -/
def NeverReused : List (String × Nat) → AgentStatusRegistry → List Call → Prop
  | _, _, [] => True
  | gone, reg, call :: rest =>
    (∀ key ∈ gone, (reg.handle call).terminals.contains key = false) ∧
      NeverReused (gone ++ reg.lost call) (reg.handle call) rest

instance NeverReused.decidable :
    ∀ (gone : List (String × Nat)) (reg : AgentStatusRegistry) (calls : List Call),
      Decidable (NeverReused gone reg calls)
  | _, _, [] => isTrue trivial
  | gone, reg, call :: rest =>
    have := NeverReused.decidable (gone ++ reg.lost call) (reg.handle call) rest
    inferInstanceAs (Decidable (_ ∧ _))

/-- An event comes with its terminal, whose counter it shows, and within the safe
integers. -/
theorem emitted_shows (hknown : Known reg) (h : event ∈ reg.emitted call) :
    ∃ next, (reg.handle call).terminals.get? event.terminal = some next ∧
      next.attentionRevision = event.attentionRevision ∧
      (∀ r, reg.terminals.get? event.terminal = some r →
        r.attentionRevision < event.attentionRevision) ∧
      reg.revision < MAX_SAFE_INTEGER ∧
      event.id = AgentAttentionEvent.formatId reg.serverEpoch event.terminalId
        event.incarnation event.attentionRevision := by
  obtain ⟨hchange, hadvances⟩ := change reg call
  obtain ⟨key, next, hget, hevent, hrev, hsafe, hraised⟩ := hchange.announced h
  have hplace := (hknown.handled call).placed key next hget
  rw [hadvances.serverEpoch] at hplace
  simp only [place, Prod.mk.injEq] at hplace
  obtain ⟨hserver, hterminal, hincarnation⟩ := hplace
  have hkey : event.terminal = key := by
    rw [AgentAttentionEvent.terminal, hevent.terminalId, hevent.incarnation, hterminal,
      hincarnation]
  have hunder : reg.revision < MAX_SAFE_INTEGER := by
    rw [hrev] at hsafe
    exact (satAdd_one_le_iff _).mp hsafe
  refine ⟨next, by rw [hkey]; exact hget, hevent.attentionRevision.symm, fun r hr => ?_, hunder, ?_⟩
  · rw [hkey] at hr
    have hcounted := hknown.counted key r hr
    rw [hevent.attentionRevision, hraised r hr]
    simp only [satAdd, U64_MAX, MAX_SAFE_INTEGER] at hcounted hunder ⊢
    omega
  · rw [hevent.id, hserver, hevent.terminalId, hevent.incarnation, hevent.attentionRevision]

theorem Counts.pairwise (h : Counts reg reg' r next events) : events.Pairwise rel := by
  cases h with
  | quiet _ | suppressed _ => exact .nil
  | raised _ _ _ _ => exact pairwise_singleton _ _

theorem Change.pairwise (h : Change reg call reg' events) : events.Pairwise rel := by
  cases h with
  | same _ | checked _ _ _ | removed _ => exact .nil
  | moved _ _ _ hmoves => exact hmoves.counts.pairwise
  | created _ _ _ _ _ _ _ _ h => exact h.pairwise

/-- Beyond the safe integers nothing is announced any more. -/
theorem outputs_of_overflow (hknown : Known reg) (h : MAX_SAFE_INTEGER < reg.revision) :
    outputs handle emitted reg calls = [] := by
  induction calls generalizing reg with
  | nil => rfl
  | cons call rest ih =>
    have hhere : reg.emitted call = [] := by
      rw [eq_nil_iff_forall_not_mem]
      intro event hmem
      obtain ⟨_, _, _, _, hunder, _⟩ := emitted_shows hknown hmem
      omega
    simp [outputs, hhere, ih (hknown.handled call) ((change reg call).2.overflow h)]

/-- Nothing is announced for a terminal that is gone. -/
theorem outputs_of_gone (hknown : Known reg) (h : NeverReused gone reg calls)
    (hmem : event ∈ outputs handle emitted reg calls) : event.terminal ∉ gone := by
  induction calls generalizing reg gone with
  | nil => cases hmem
  | cons call rest ih =>
    intro hgone
    rcases mem_append.mp hmem with hhere | hlater
    · obtain ⟨next, hget, _⟩ := emitted_shows hknown hhere
      have habsent := h.1 event.terminal hgone
      rw [AssocMap.contains, hget] at habsent
      cases habsent
    · exact ih (hknown.handled call) h.2 hlater (mem_append_left _ hgone)

theorem Counts.monotone (h : Counts reg reg' r next events) (hadvances : Advances reg reg')
    (hr : r.attentionRevision < reg.revision ∨ MAX_SAFE_INTEGER < reg.revision)
    (hsafe : reg'.revision ≤ MAX_SAFE_INTEGER) : r.attentionRevision ≤ next.attentionRevision := by
  have hunder : reg.revision ≤ MAX_SAFE_INTEGER :=
    Nat.le_of_not_lt fun hover => Nat.not_lt_of_le hsafe (hadvances.overflow hover)
  cases h with
  | quiet heq => exact Nat.le_of_eq heq.symm
  | raised hcount _ _ _ =>
    rw [hcount]
    simp only [satAdd, U64_MAX, MAX_SAFE_INTEGER] at hr hunder ⊢
    omega
  | suppressed hover => omega

/-- **Counters are announced once, in order.** -/
theorem outputs_increasing (hknown : Known reg) (h : NeverReused gone reg calls) :
    (outputs handle emitted reg calls).Pairwise
        (fun a b => a.terminal = b.terminal → a.attentionRevision < b.attentionRevision) ∧
      ∀ event ∈ outputs handle emitted reg calls, (∀ r, reg.terminals.get? event.terminal = some r →
          r.attentionRevision < event.attentionRevision) ∧
        event.id = AgentAttentionEvent.formatId reg.serverEpoch event.terminalId
          event.incarnation event.attentionRevision := by
  induction calls generalizing reg gone with
  | nil => exact ⟨List.Pairwise.nil, fun _ hmem => by cases hmem⟩
  | cons call rest ih =>
    obtain ⟨hchange, hadvances⟩ := change reg call
    obtain ⟨hordered, hlater⟩ := ih (hknown.handled call) h.2
    constructor
    · refine pairwise_append.mpr ⟨hchange.pairwise, hordered, fun a ha b hb hsame => ?_⟩
      obtain ⟨next, hget, hshown, _⟩ := emitted_shows hknown ha
      rw [← hshown]
      exact (hlater b hb).1 next (by rw [← hsame]; exact hget)
    · intro event hmem
      rcases mem_append.mp hmem with hhere | hthere
      · obtain ⟨_, _, _, hraised, _, hid⟩ := emitted_shows hknown hhere
        exact ⟨hraised, hid⟩
      obtain ⟨hraised, hid⟩ := hlater event hthere
      rw [hadvances.serverEpoch] at hid
      refine ⟨fun r hr => ?_, hid⟩
      -- the terminal is still there, and no counter has left the safe integers
      have hsafe : (reg.handle call).revision ≤ MAX_SAFE_INTEGER := by
        by_contra hover
        rw [outputs_of_overflow (hknown.handled call) (by omega)] at hthere
        cases hthere
      cases hget : (reg.handle call).terminals.get? event.terminal with
      | none =>
        have hlost : event.terminal ∈ reg.lost call := by
          rw [lost, mem_filter, AssocMap.contains, hget]
          exact ⟨mem_keys_iff.mpr ⟨r, hr⟩, rfl⟩
        exact absurd (mem_append_right gone hlost)
          (outputs_of_gone (hknown.handled call) h.2 hthere)
      | some next =>
        have hless := hraised next hget
        rcases hchange.origin hget with ⟨r', _, hr', hmoves⟩ | ⟨hnone, _⟩
        · cases hr.symm.trans hr'
          have hmono := hmoves.counts.monotone hadvances (hknown.counted _ r hr) hsafe
          omega
        · simp [hr] at hnone

theorem outputs_ids_nodup (hknown : Known reg) (h : NeverReused gone reg calls) :
    ((outputs handle emitted reg calls).map (·.id)).Nodup := by
  obtain ⟨hordered, hids⟩ := outputs_increasing hknown h
  refine pairwise_map.mpr (hordered.imp_of_mem fun {a b} ha hb hless heq => ?_)
  rw [(hids a ha).2, (hids b hb).2] at heq
  obtain ⟨hterminal, hincarnation, hrevision⟩ := AgentAttentionEvent.formatId_inj heq
  have hsame : a.terminal = b.terminal := by
    rw [AgentAttentionEvent.terminal, AgentAttentionEvent.terminal, hterminal, hincarnation]
  have hlt := hless hsame
  omega

end

/-! ## The discipline of a run -/

/-- What holds of the reporters and of the attention events of a run. -/
structure ReporterDiscipline (start : AgentStatusRegistry) (calls : List Call) : Prop where
  /-- An admitted reporter has a larger epoch than its terminal had at any time before. -/
  admitted : ∀ {front mid back terminalId incarnation hello verifiedProcess nowMs inst row},
    calls = front ++ mid ++ .op (.admitReporter terminalId incarnation hello verifiedProcess
      nowMs inst) :: back →
    ((run handle start (front ++ mid)).admitReporterWithProcess terminalId incarnation hello
      verifiedProcess nowMs inst).1 = .ok row →
    ((run handle start (front ++ mid)).admitReporterWithProcess terminalId incarnation hello
        verifiedProcess nowMs inst).2.epoch? (terminalId, incarnation) =
      some row.reporterEpoch ∧
    ∀ epoch, (run handle start front).epoch? (terminalId, incarnation) = some epoch →
      epoch < row.reporterEpoch
  /-- A report or a disconnect with another epoch than the current one changes nothing. -/
  stale : ∀ {front call back key reporterEpoch}, calls = front ++ call :: back →
    call.carries = some (key, reporterEpoch) →
    (run handle start front).epoch? key ≠ some reporterEpoch →
    (run handle start front).handle call = run handle start front ∧
      (run handle start front).emitted call = []
  /-- An accepted report that comes again, or one with a lower number, changes nothing. -/
  repeated : ∀ {front mid back key reporterEpoch report report' nowMs nowMs' inst inst'},
    calls = front ++ .op (.applyReport key.1 key.2 reporterEpoch report nowMs inst) :: mid ++
      .op (.applyReport key.1 key.2 reporterEpoch report' nowMs' inst') :: back →
    (run handle start front).Accepts key reporterEpoch report nowMs →
    report' = report ∨ report'.seq < report.seq →
    let reg := run handle start
      (front ++ .op (.applyReport key.1 key.2 reporterEpoch report nowMs inst) :: mid)
    let call := Call.op (.applyReport key.1 key.2 reporterEpoch report' nowMs' inst')
    reg.handle call = reg ∧ reg.emitted call = []
  ids : ((outputs handle emitted start calls).map (·.id)).Nodup
  increasing : (outputs handle emitted start calls).Pairwise fun a b =>
    a.terminal = b.terminal → a.attentionRevision < b.attentionRevision
  /-- Between two announced ends of a turn in one epoch a report of that epoch installed the
  later turn. -/
  turns : ∀ {front call mid call' back event event'},
    calls = front ++ call :: mid ++ call' :: back →
    event ∈ (run handle start front).emitted call → event.kind = .turnEnded →
    event' ∈ (run handle start (front ++ call :: mid)).emitted call' →
    event'.kind = .turnEnded →
    call.carries.map Prod.snd = call'.carries.map Prod.snd →
    ∃ front' back' reporterEpoch report nowMs inst turn,
      mid = front' ++ .op (.applyReport event'.terminalId event'.incarnation reporterEpoch report
        nowMs inst) :: back' ∧
      call'.carries = some (event'.terminal, reporterEpoch) ∧ event'.turnId = some turn ∧
      Installs (run handle start (front ++ call :: front')) event'.terminal reporterEpoch
        report nowMs inst turn

/-- Where the end of a turn is announced the terminal is left without a turn. -/
theorem since_turnEnded {reg : AgentStatusRegistry} {call : Call} {event : AgentAttentionEvent}
    (hknown : Known reg) (h : event ∈ reg.emitted call) (hkind : event.kind = .turnEnded) :
    ∃ reporterEpoch, call.carries = some (event.terminal, reporterEpoch) ∧
      Since (reg.handle call) event.terminal reporterEpoch [] := by
  obtain ⟨reporterEpoch, report, nowMs, inst, r, rfl, hget, hadmit, hmem⟩ :=
    emitted_turnEnded hknown h hkind
  have hreported := TerminalAgentReducer.applyReport_reported_turn hadmit inst
  obtain ⟨_, _, homp⟩ := TerminalAgentReducer.admitReport_ok hadmit
  have hepoch := admitReport_epoch hadmit
  obtain ⟨_, _, hnone⟩ := hreported.ended event hmem hkind
  have hafter := get?_applyReport hget reporterEpoch report nowMs inst
  have hknown' := hknown.handled
    (.op (.applyReport event.terminalId event.incarnation reporterEpoch report nowMs inst))
  refine ⟨reporterEpoch, rfl, ?_, fun key' next hnext hsame => ?_⟩
  · have hdrawn := hknown'.drawn _ _ hafter
    rw [hreported.connection.reporterEpoch, ← hepoch] at hdrawn
    exact hdrawn
  · have hkey : key' = event.terminal := by
      refine hknown'.owner key' event.terminal next _ hnext hafter ?_
      rw [hreported.connection.reporterEpoch, ← hepoch]
      exact hsame
    subst hkey
    cases hafter.symm.trans hnext
    refine ⟨rfl, fun _ => ⟨hreported.agentKind.trans homp, fun turn hturn => ?_⟩⟩
    simp [hnone] at hturn

/-- **Reporters and attention events are disciplined** in every run in which no incarnation is
reused. -/
theorem reporter_discipline (serverEpoch : Nat) (availability : AgentStatusAvailability)
    (calls : List Call) (h : NeverReused [] (new serverEpoch availability) calls) :
    ReporterDiscipline (new serverEpoch availability) calls := by
  have hknown : Known (new serverEpoch availability) :=
    ⟨by rintro _ _ ⟨⟩, by rintro _ _ ⟨⟩, by rintro _ _ _ _ ⟨⟩, by rintro _ _ ⟨⟩, Nat.one_pos⟩
  constructor
  · intro front mid back terminalId incarnation hello verifiedProcess nowMs inst row _ hrow
    obtain ⟨hless, hepoch⟩ := admitReporter_row hrow
    refine ⟨hepoch, fun epoch hbefore => ?_⟩
    obtain ⟨r, hget, rfl⟩ := Option.map_eq_some_iff.mp hbefore
    have hdrawn := (known_run hknown).drawn _ r hget
    have hgrown := nextReporterEpoch_le_run (run handle (new serverEpoch availability) front) mid
    rw [← run_append] at hgrown
    omega
  · intro front call back key reporterEpoch _ hcarries hother
    exact stale_dropped hcarries hother
  · intro front mid back key reporterEpoch report report' nowMs nowMs' inst inst' _ haccepts hseq
    have hheard := haccepts.heard (known_run hknown) inst
    have hlater : Heard key reporterEpoch report.seq (run handle (new serverEpoch availability)
        (front ++ .op (.applyReport key.1 key.2 reporterEpoch report nowMs inst) :: mid)) := by
      rw [run_append]
      exact invariant_run_all (fun _ call hreg => hreg.handled call) mid hheard
    refine hlater.dropped ?_
    rcases hseq with rfl | hlower
    · exact Nat.le_refl _
    · exact Nat.le_of_lt hlower
  · exact outputs_ids_nodup hknown h
  · exact (outputs_increasing hknown h).1
  · intro front call mid call' back event event' _ hmem hkind hmem' hkind' hsame
    obtain ⟨reporterEpoch, hcarries, hsince⟩ := since_turnEnded (known_run hknown) hmem hkind
    have hthen := hsince.run mid
    obtain ⟨epoch', report', nowMs', inst', r, rfl, hget, hadmit, hevent⟩ :=
      emitted_turnEnded (known_run hknown) hmem' hkind'
    have hepoch : reporterEpoch = epoch' := by
      rw [hcarries] at hsame
      exact Option.some.inj hsame
    subst hepoch
    obtain ⟨hlease, _⟩ := TerminalAgentReducer.admitReport_ok hadmit
    have hreported := TerminalAgentReducer.applyReport_reported_turn hadmit inst'
    obtain ⟨hturnId, hcurrent, _⟩ := hreported.ended event' hevent hkind'
    obtain ⟨turn, hturn⟩ := Option.ne_none_iff_exists'.mp hcurrent
    rw [run_append] at hget
    obtain ⟨hkey, hleased⟩ := hthen.2 _ r hget (admitReport_epoch hadmit).symm
    obtain ⟨front', back', report, nowMs, inst, hmid, hinstalls⟩ := (hleased hlease).2 turn hturn
    have hterminal : event.terminal = event'.terminal := hkey.symm
    rw [hterminal] at hmid hinstalls
    refine ⟨front', back', reporterEpoch, report, nowMs, inst, turn, hmid, rfl,
      hturnId.trans hturn, ?_⟩
    rw [run_append]
    exact hinstalls

def reportOf (seq : Nat) (event : ReporterEventKind) (state : AgentState) (turn : String)
    (outcome : Option TurnOutcome) : Call :=
  .op (.applyReport "term" 1 1
    { kind := "report", seq, event, state, agentSessionId := "s", turnId := some turn, outcome
      blockedReason := none } 0 0)

def twoTurns : List Call :=
  [.op (.admitReporter "term" 1
      { version := 1, agentKind := .omp, reporterId := "r", agentSessionId := "s"
        adapterVersion := "1" } none 0 0),
    reportOf 1 .turnStarted .working "t1" none, reportOf 2 .turnEnded .idle "t1" (some .ended),
    reportOf 2 .turnEnded .idle "t1" (some .ended), reportOf 3 .turnStarted .working "t2" none,
    reportOf 4 .turnEnded .idle "t2" (some .ended), .op (.removeTerminal "term" 1)]

theorem reporter_discipline_twoTurns : ReporterDiscipline (new 1 .ready) twoTurns ∧
      (outputs handle emitted (new 1 .ready) twoTurns).map (·.attentionRevision) = [1, 2] :=
  ⟨reporter_discipline 1 .ready twoTurns (by decide), by decide⟩

end AgentStatusRegistry

end DamHopper.AgentStatus
