import Mathlib.Algebra.Order.Ring.Unbundled.Rat
import DamHopper.AgentStatus.Types
import DamHopper.Lib.Numbering

/-!
# AlertEngine — the host memory alert state machine

The pure transition of `system/alerts.rs`: one sample of the host is classified
against the thresholds, and the engine moves between six states with an entry
delay on the way up and a recovery delay on the way down. Two timers are carried
from call to call: `candidate` (the state the samples point to and when they
started to) and `recoverySinceMs`.

Percentages are rationals; `u64` milliseconds are `Nat` with the saturating
operations written out. The text that `format!` builds from a threshold is kept
as its pieces, since the decimal rendering of a float is not modelled.
`AlertSample::from_snapshot_with_monotonic` and `AlertThresholds::from_config`,
which only fill in the records, are left out.

`AdvanceStep` lists the ways a call can end; everything that is proved about the
engine is read off that list.
-/

namespace DamHopper.System

open AgentStatus (U64_MAX satAdd)

/-! ## Data -/

def COOLDOWN_MS : Nat := 5 * 60 * 1000

inductive AlertState where
  | healthy | reclaimableCacheHigh | elevatedNoPressure | memoryPressure | oomRisk
  | limitedData
  deriving Repr, DecidableEq

inductive AlertSeverity where
  | info | warning | critical
  deriving Repr, DecidableEq

inductive Confidence where
  | low | medium | high
  deriving Repr, DecidableEq

inductive AlertChange where
  | opened | escalated | updated | resolved
  deriving Repr, DecidableEq

/-- A piece of a formatted text: literal characters or a percentage. -/
inductive TextPiece where
  | lit (text : String)
  | percent (value : Rat)
  deriving Repr, DecidableEq

structure AlertEvidence where
  availablePercent : Option Rat
  reclaimablePercent : Option Rat
  psiSomeAvg10 : Option Rat
  psiFullAvg10 : Option Rat
  cgroupOomDelta : Bool
  deriving Repr, DecidableEq

structure AlertSummary where
  state : AlertState
  severity : AlertSeverity
  incidentId : Option String
  openedAt : Option Nat
  updatedAt : Nat
  durationSeconds : Nat
  scope : String
  confidence : Confidence
  threshold : List TextPiece
  evidence : AlertEvidence
  nextAction : String
  deriving Repr, DecidableEq

structure AlertIncident where
  incidentId : String
  state : AlertState
  severity : AlertSeverity
  openedAt : Nat
  updatedAt : Nat
  resolvedAt : Option Nat
  durationSeconds : Nat
  scope : String
  threshold : List TextPiece
  confidence : Confidence
  evidence : AlertEvidence
  nextAction : String
  deriving Repr, DecidableEq

structure AlertSample where
  /-- Monotonic elapsed time owned by the monitor. -/
  observedAtMs : Nat
  /-- Wall-clock sample time used only for presentation. -/
  reportedAtMs : Nat
  availablePercent : Option Rat
  reclaimablePercent : Option Rat
  psiSomeAvg10 : Option Rat
  psiFullAvg10 : Option Rat
  primaryMemoryAvailable : Bool
  primaryPsiAvailable : Bool
  oomEventsTotal : Option Nat
  deriving Repr, DecidableEq

structure AlertThresholds where
  reclaimableCachePercent : Rat := 25
  availableWarningPercent : Rat := 15
  availableCriticalPercent : Rat := 10
  availableOomPercent : Rat := 5
  psiSomePercent : Rat := 10
  psiFullPercent : Rat := 1
  deriving Repr, DecidableEq

structure AlertEngineState where
  current : AlertState
  currentSinceMs : Nat
  candidate : Option (AlertState × Nat)
  recoverySinceMs : Option Nat
  recoverySamples : Nat
  incidentId : Option String
  nextIncident : Nat
  openedAt : Option Nat
  incidentSinceMs : Option Nat
  lastObservedAtMs : Nat
  cooldownUntilMs : Option Nat
  lastOomTotal : Option Nat
  deriving Repr, DecidableEq

structure AlertTransition where
  next : AlertEngineState
  summary : AlertSummary
  incident : Option AlertIncident
  change : Option AlertChange
  deriving Repr, DecidableEq

structure TransitionInput where
  now : Nat
  sample : AlertSample
  oomDelta : Bool
  thresholds : AlertThresholds
  deriving Repr, DecidableEq

/-! ## Tables -/

section

variable (state : AlertState) (sample : AlertSample) (oomDelta : Bool)
    (thresholds : AlertThresholds)

def severity : AlertState → AlertSeverity
  | .healthy => .info
  | .reclaimableCacheHigh | .elevatedNoPressure | .limitedData => .warning
  | .memoryPressure | .oomRisk => .critical

def stateRank : AlertState → Nat
  | .healthy => 0
  | .reclaimableCacheHigh => 1
  | .elevatedNoPressure => 2
  | .memoryPressure => 3
  | .oomRisk => 4
  | .limitedData => 1

def confidence : Confidence :=
  if state = .limitedData then .low
  else if sample.availablePercent.isSome ∧ sample.psiSomeAvg10.isSome then .high
  else .medium

def threshold : List TextPiece :=
  match state with
  | .healthy => [.lit "none"]
  | .reclaimableCacheHigh =>
    [.lit "reclaimable>=", .percent thresholds.reclaimableCachePercent,
      .lit "%,available>=", .percent thresholds.availableWarningPercent,
      .lit "%,psi_some<", .percent thresholds.psiSomePercent,
      .lit "%,psi_full<", .percent thresholds.psiFullPercent, .lit "%"]
  | .elevatedNoPressure =>
    [.lit "available<", .percent thresholds.availableWarningPercent, .lit "%"]
  | .memoryPressure =>
    [.lit "available<", .percent thresholds.availableCriticalPercent,
      .lit "% or psi_some>=", .percent thresholds.psiSomePercent,
      .lit "%,psi_full>=", .percent thresholds.psiFullPercent, .lit "%"]
  | .oomRisk =>
    [.lit "oom_delta or available<", .percent thresholds.availableOomPercent,
      .lit "% correlated with pressure"]
  | .limitedData => [.lit "MemAvailable and PSI unavailable"]

def nextAction : AlertState → String
  | .healthy => "No action required"
  | .reclaimableCacheHigh => "Inspect cache consumers; no mutation is suggested"
  | .elevatedNoPressure => "Inspect top memory consumers and workload trend"
  | .memoryPressure => "Inspect top consumers, PSI, swap, and cgroup limits"
  | .oomRisk => "Stop starting memory-heavy work and inspect cgroup OOM evidence"
  | .limitedData => "Restore readable MemAvailable and PSI sources"

def evidence : AlertEvidence where
  availablePercent := sample.availablePercent
  reclaimablePercent := sample.reclaimablePercent
  psiSomeAvg10 := sample.psiSomeAvg10
  psiFullAvg10 := sample.psiFullAvg10
  cgroupOomDelta := oomDelta

/-! ## Classification and delays -/

def classify : AlertState :=
  if !sample.primaryMemoryAvailable && !sample.primaryPsiAvailable then .limitedData
  else if oomDelta ||
      (sample.availablePercent.any (· < thresholds.availableOomPercent) &&
        (sample.psiSomeAvg10.any (20 ≤ ·) || sample.psiFullAvg10.any (5 ≤ ·))) then
    .oomRisk
  else if sample.availablePercent.any (· < thresholds.availableCriticalPercent) ||
      sample.psiSomeAvg10.any (thresholds.psiSomePercent ≤ ·) ||
      sample.psiFullAvg10.any (thresholds.psiFullPercent ≤ ·) then
    .memoryPressure
  else if sample.availablePercent.any (· < thresholds.availableWarningPercent) then
    .elevatedNoPressure
  else if sample.reclaimablePercent.any (thresholds.reclaimableCachePercent ≤ ·) &&
      sample.availablePercent.any (thresholds.availableWarningPercent ≤ ·) &&
      sample.primaryPsiAvailable &&
      sample.psiSomeAvg10.getD 0 < thresholds.psiSomePercent &&
      sample.psiFullAvg10.getD 0 < thresholds.psiFullPercent then
    .reclaimableCacheHigh
  else .healthy

def entryDurationMs : Nat :=
  if oomDelta then 0
  else
    match state with
    | .oomRisk => 15000
    | .memoryPressure =>
      if sample.psiFullAvg10.any (thresholds.psiFullPercent ≤ ·) then 15000 else 30000
    | .limitedData => 0
    | .reclaimableCacheHigh | .elevatedNoPressure => 30000
    | .healthy => 0

/-- The test of `recovery_met` for memory pressure, which the one for OOM risk
repeats. -/
def pressureRelieved : Bool :=
  sample.availablePercent.any (thresholds.availableWarningPercent ≤ ·) &&
    sample.psiSomeAvg10.all (· < thresholds.psiSomePercent / 2) &&
    sample.psiFullAvg10.all (· < thresholds.psiFullPercent / 2)

def recoveryMet : Bool :=
  match state with
  | .reclaimableCacheHigh =>
    sample.reclaimablePercent.all (· < max (thresholds.reclaimableCachePercent - 5) 0)
  | .elevatedNoPressure =>
    sample.availablePercent.any (min (thresholds.availableWarningPercent + 5) 100 ≤ ·)
  | .memoryPressure => pressureRelieved sample thresholds
  | .oomRisk => sample.oomEventsTotal.isSome && pressureRelieved sample thresholds
  | .healthy | .limitedData => false

def recoveryDurationMs : AlertState → Nat
  | .oomRisk => 120000
  | .reclaimableCacheHigh | .elevatedNoPressure | .memoryPressure => 60000
  | .healthy | .limitedData => 0

end

/-! ## The transition -/

def hostIncidentId (number : Nat) : String := numbered "host-incident-" number

namespace AlertEngineState

def healthy (nowMs : Nat) : AlertEngineState where
  current := .healthy
  currentSinceMs := nowMs
  candidate := none
  recoverySinceMs := none
  recoverySamples := 0
  incidentId := none
  nextIncident := 1
  openedAt := none
  incidentSinceMs := none
  lastObservedAtMs := nowMs
  cooldownUntilMs := none
  lastOomTotal := none

def summary (state : AlertEngineState) (input : TransitionInput) : AlertSummary where
  state := state.current
  severity := severity state.current
  incidentId := state.incidentId
  openedAt := state.openedAt
  updatedAt := input.sample.reportedAtMs
  durationSeconds :=
    (state.incidentSinceMs.map fun started => (input.now - started) / 1000).getD 0
  scope := "host"
  confidence := confidence state.current input.sample
  threshold := threshold state.current input.thresholds
  evidence := evidence input.sample input.oomDelta
  nextAction := nextAction state.current

def incidentFrom (state : AlertEngineState) (input : TransitionInput)
    (resolvedAt : Option Nat) : AlertIncident :=
  let summary := state.summary input
  { incidentId := state.incidentId.getD "unknown"
    state := summary.state
    severity := summary.severity
    openedAt := state.openedAt.getD input.sample.reportedAtMs
    updatedAt := input.sample.reportedAtMs
    resolvedAt
    durationSeconds := summary.durationSeconds
    scope := summary.scope
    threshold := summary.threshold
    confidence := summary.confidence
    evidence := summary.evidence
    nextAction := summary.nextAction }

/-- What a call leaves behind: the state, the change and the incident. -/
abbrev Outcome := AlertEngineState × Option AlertChange × Option AlertIncident

/-- The part of `transition` every branch shares: enter `state`, stop the timers. -/
def enter (next : AlertEngineState) (state : AlertState) (input : TransitionInput) :
    AlertEngineState :=
  { next with
    current := state, currentSinceMs := input.now, candidate := none,
    recoverySinceMs := none, recoverySamples := 0 }

def openIncident (next : AlertEngineState) (input : TransitionInput) : AlertEngineState :=
  { next with
    incidentId := some (hostIncidentId next.nextIncident)
    nextIncident := satAdd next.nextIncident 1
    openedAt := some input.sample.reportedAtMs
    incidentSinceMs := some input.now }

def closeIncident (next : AlertEngineState) : AlertEngineState :=
  { next with incidentId := none, openedAt := none, incidentSinceMs := none }

def transition (next : AlertEngineState) (state : AlertState) (input : TransitionInput) :
    Outcome :=
  let old := next.current
  let next := next.enter state input
  if old = .healthy ∧ state ≠ .healthy then
    let next := next.openIncident input
    let change :=
      if next.cooldownUntilMs.any (input.now < ·) then none else some AlertChange.opened
    (next, change, some (next.incidentFrom input none))
  else if old ≠ .healthy ∧ state = .healthy then
    if next.incidentId.isSome then
      let incident := next.incidentFrom input (some input.sample.reportedAtMs)
      let next := { next with cooldownUntilMs := some (satAdd input.now COOLDOWN_MS) }
      (next.closeIncident, some .resolved, some incident)
    else (next.closeIncident, none, none)
  else if old ≠ state ∧ next.incidentId.isSome then
    let change :=
      if stateRank old < stateRank state then AlertChange.escalated else AlertChange.updated
    (next, some change, some (next.incidentFrom input none))
  else (next, none, none)

/-- How a call reads its sample: the clock never goes back, and an OOM delta is a
counter above the last one seen. -/
def observe (previous : AlertEngineState) (sample : AlertSample)
    (thresholds : AlertThresholds) : TransitionInput where
  now := max sample.observedAtMs previous.lastObservedAtMs
  sample := sample
  oomDelta :=
    match sample.oomEventsTotal, previous.lastOomTotal with
    | some current, some old => old < current
    | _, _ => false
  thresholds := thresholds

def noted (previous : AlertEngineState) (input : TransitionInput) : AlertEngineState :=
  { previous with
    lastObservedAtMs := input.now
    lastOomTotal := input.sample.oomEventsTotal }

end AlertEngineState

def TransitionInput.target (input : TransitionInput) : AlertState :=
  classify input.sample input.oomDelta input.thresholds

namespace AlertEngineState

/-- When the samples started to point to `target`. -/
def candidateSince (previous : AlertEngineState) (target : AlertState) (now : Nat) : Nat :=
  match previous.candidate with
  | some (candidate, started) => if candidate = target then started else now
  | none => now

variable {previous : AlertEngineState} {target : AlertState} {now : Nat}

theorem candidateSince_of_eq {since : Nat} (h : previous.candidate = some (target, since)) :
    previous.candidateSince target now = since := by
  rw [candidateSince, h]
  exact if_pos rfl

theorem candidateSince_of_ne (h : ¬ ∃ since, previous.candidate = some (target, since)) :
    previous.candidateSince target now = now := by
  unfold candidateSince
  split
  next candidate started hc =>
    refine if_neg fun heq => h ⟨started, ?_⟩
    rw [hc, heq]
  · rfl

def decision (previous : AlertEngineState) (input : TransitionInput) : Outcome :=
  let target := input.target
  let next := previous.noted input
  if target = previous.current then
    ({ next with
        candidate := none, recoverySinceMs := none
        recoverySamples := if target = .limitedData then 0 else next.recoverySamples },
      none, none)
  else if target = .limitedData then next.transition target input
  else if previous.current = .limitedData then
    let next := { next with recoverySamples := min (previous.recoverySamples + 1) 255 }
    if 2 ≤ next.recoverySamples then next.transition target input else (next, none, none)
  else if stateRank previous.current < stateRank target ∨ previous.current = .healthy then
    let since := previous.candidateSince target input.now
    let next := { next with recoverySinceMs := none, candidate := some (target, since) }
    if entryDurationMs target input.sample input.oomDelta input.thresholds ≤
        input.now - since then
      next.transition target input
    else (next, none, none)
  else if recoveryMet previous.current input.sample input.thresholds then
    let since := previous.recoverySinceMs.getD input.now
    let next := { next with recoverySinceMs := some since }
    if recoveryDurationMs previous.current ≤ input.now - since then
      next.transition .healthy input
    else (next, none, none)
  else ({ next with recoverySinceMs := none }, none, none)

def advanceWithThresholds (previous : AlertEngineState) (sample : AlertSample)
    (thresholds : AlertThresholds) : AlertTransition :=
  let input := previous.observe sample thresholds
  let (next, change, incident) := previous.decision input
  { next, summary := next.summary input, incident, change }

/-! ## What a call can do -/

section

variable (s : AlertEngineState) (o : TransitionInput)

structure Above : Prop where
  not_blind : o.target ≠ .limitedData
  not_limited : s.current ≠ .limitedData
  rank_lt : stateRank s.current < stateRank o.target

/-- The sample points to a state below the present one, or beside it. -/
structure Below : Prop where
  ne_current : o.target ≠ s.current
  not_blind : o.target ≠ .limitedData
  not_limited : s.current ≠ .limitedData
  not_healthy : s.current ≠ .healthy
  rank_le : stateRank o.target ≤ stateRank s.current

def pending : AlertEngineState :=
  { s.noted o with
    recoverySinceMs := none
    candidate := some (o.target, s.candidateSince o.target o.now) }

def recovering : AlertEngineState :=
  { s.noted o with recoverySinceMs := some (s.recoverySinceMs.getD o.now) }

/-- **The ways a call can end.** -/
inductive AdvanceStep : Outcome → Prop where
  | steady (htarget : o.target = s.current) :
      AdvanceStep ({ s.noted o with
        candidate := none, recoverySinceMs := none
        recoverySamples := if o.target = .limitedData then 0 else s.recoverySamples },
        none, none)
  | blinded (hne : o.target ≠ s.current) (hblind : o.target = .limitedData) :
      AdvanceStep ((s.noted o).transition .limitedData o)
  | returning (samples : Nat) (hblind : o.target ≠ .limitedData)
      (hlimited : s.current = .limitedData) :
      AdvanceStep ({ s.noted o with recoverySamples := samples }, none, none)
  | returned (samples : Nat) (hblind : o.target ≠ .limitedData)
      (hlimited : s.current = .limitedData) :
      AdvanceStep ({ s.noted o with recoverySamples := samples }.transition o.target o)
  | waiting (habove : Above s o) : AdvanceStep (s.pending o, none, none)
  | raised (habove : Above s o)
      (hlong : entryDurationMs o.target o.sample o.oomDelta o.thresholds ≤
        o.now - s.candidateSince o.target o.now) :
      AdvanceStep ((s.pending o).transition o.target o)
  | easing (hbelow : Below s o) (hmet : recoveryMet s.current o.sample o.thresholds) :
      AdvanceStep (s.recovering o, none, none)
  | recovered (hbelow : Below s o) (hmet : recoveryMet s.current o.sample o.thresholds)
      (hlong : recoveryDurationMs s.current ≤ o.now - s.recoverySinceMs.getD o.now) :
      AdvanceStep ((s.recovering o).transition .healthy o)
  | lapsed (hbelow : Below s o) :
      AdvanceStep ({ s.noted o with recoverySinceMs := none }, none, none)

theorem stateRank_pos {state : AlertState} (h : state ≠ .healthy) : 0 < stateRank state := by
  cases state with
  | healthy => exact absurd rfl h
  | _ => exact Nat.succ_pos _

theorem decision_step : AdvanceStep s o (s.decision o) := by
  unfold decision
  dsimp only
  by_cases htarget : o.target = s.current
  · rw [if_pos htarget]
    exact .steady htarget
  rw [if_neg htarget]
  by_cases hblind : o.target = .limitedData
  · rw [hblind]
    exact .blinded htarget hblind
  rw [if_neg hblind]
  by_cases hlimited : s.current = .limitedData
  · rw [if_pos hlimited]
    split
    · exact .returned _ hblind hlimited
    · exact .returning _ hblind hlimited
  rw [if_neg hlimited]
  by_cases hup : stateRank s.current < stateRank o.target ∨ s.current = .healthy
  · rw [if_pos hup]
    have habove : Above s o := by
      refine ⟨hblind, hlimited, ?_⟩
      rcases hup with hlt | hhealthy
      · exact hlt
      · rw [hhealthy] at htarget ⊢
        exact stateRank_pos htarget
    split_ifs with hlong
    · exact .raised habove hlong
    · exact .waiting habove
  rw [if_neg hup]
  have hbelow : Below s o :=
    ⟨htarget, hblind, hlimited, fun h => hup (.inr h), Nat.le_of_not_lt fun h => hup (.inl h)⟩
  split
  next hmet =>
    split_ifs with hlong
    · exact .recovered hbelow hmet hlong
    · exact .easing hbelow hmet
  · exact .lapsed hbelow

end

/-! ## Entering a state -/

section

variable (s : AlertEngineState) (state : AlertState) (o : TransitionInput)

@[simp] theorem transition_current : (s.transition state o).1.current = state := by
  unfold transition
  dsimp only
  split_ifs <;> rfl

theorem transition_timers : (s.transition state o).1.candidate = none ∧
    (s.transition state o).1.recoverySinceMs = none := by
  unfold transition
  dsimp only
  split_ifs <;> exact ⟨rfl, rfl⟩

end

end AlertEngineState

end DamHopper.System
