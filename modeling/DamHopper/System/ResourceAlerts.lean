import DamHopper.Lib.AssocMap
import DamHopper.System.AlertEngine
import Mathlib.Data.String.Basic

/-!
# ResourceAlerts — alerts for single temperatures and disks

`ResourceAlertEngineState` of `system/alerts.rs`: one lifecycle per target that is
over its limit, at most `max_targets` of them, each with the time since when the
condition has held and, once that is long enough, the alert that is open for it. A
`BTreeMap` is an association map read in the order of its keys.

A call first resets the targets whose condition is gone and then admits those
whose condition holds; `resetTarget` and `admitTarget` are the bodies of the two
loops. `ResourceAlertSample::from_legacy`, which builds the samples from the host
metrics, and `retain_targets`, which runs only when the configuration changes, are
left out.
-/

namespace DamHopper.System

open AgentStatus (satAdd)

def THERMAL_ALERT_DURATION_MS : Nat := 300000

def MAX_RESOURCE_TARGETS : Nat := 50

inductive ResourceAlertState where
  | temperatureHigh | diskFull
  deriving Repr, DecidableEq

inductive ResourceAlertKind where
  | temperature | disk
  deriving Repr, DecidableEq

structure ResourceAlertEvidence where
  temperatureSource : Option String
  temperatureLabel : Option String
  temperatureCelsius : Option Rat
  diskMountPoint : Option String
  diskName : Option String
  diskUsagePercent : Option Rat
  deriving Repr, DecidableEq

structure ResourceAlertSummary where
  kind : ResourceAlertKind
  key : String
  state : ResourceAlertState
  severity : AlertSeverity
  incidentId : String
  openedAt : Nat
  updatedAt : Nat
  durationSeconds : Nat
  scope : String
  evidence : ResourceAlertEvidence
  threshold : String
  nextAction : String
  deriving Repr, DecidableEq

structure ResourceAlertIncident where
  summary : ResourceAlertSummary
  resolvedAt : Option Nat
  deriving Repr, DecidableEq

structure ResourceAlertTarget where
  state : ResourceAlertState
  condition : Bool
  evidence : ResourceAlertEvidence
  deriving Repr, DecidableEq

structure ResourceAlertSample where
  observedAtMs : Nat
  reportedAtMs : Nat
  targets : AssocMap String ResourceAlertTarget
  deriving Repr, DecidableEq

structure ResourceAlertLifecycle where
  candidateSinceMs : Nat
  active : Option ResourceAlertSummary
  openedAtMs : Option Nat
  deriving Repr, DecidableEq

structure ResourceAlertEngineState where
  targets : AssocMap String ResourceAlertLifecycle
  lastObservedAtMs : Nat
  nextIncident : Nat
  deriving Repr, DecidableEq

structure ResourceAlertTransition where
  next : ResourceAlertEngineState
  active : List ResourceAlertSummary
  incidents : List ResourceAlertIncident
  deriving Repr, DecidableEq

/-! ## Tables -/

def hasCompleteResourceEvidence (evidence : ResourceAlertEvidence) : Bool :=
  match evidence.temperatureSource, evidence.temperatureCelsius, evidence.diskMountPoint,
    evidence.diskUsagePercent with
  | some _, some _, none, none => true
  | none, none, some _, some usage => 0 ≤ usage && usage ≤ 100
  | _, _, _, _ => false

def resourceEntryDuration (target : ResourceAlertTarget) : Nat :=
  match target.state with
  | .temperatureHigh => THERMAL_ALERT_DURATION_MS
  | .diskFull => 0

def resourceAlertMetadata : ResourceAlertState → ResourceAlertKind × String × String
  | .temperatureHigh =>
    (.temperature, "celsius>60C for 5 minutes",
      "Inspect cooling and the affected workload.")
  | .diskFull =>
    (.disk, "usage>=95%", "Free space or expand the affected persistent disk.")

def resourceIncidentId (number : Nat) : String := numbered "host-resource-incident-" number

def ResourceAlertSample.holds (sample : ResourceAlertSample) (key : String) : Bool :=
  (sample.targets.get? key).any (·.condition)

namespace ResourceAlertLifecycle

def durationSeconds (lifecycle : ResourceAlertLifecycle) (now : Nat) : Nat :=
  (lifecycle.openedAtMs.map fun opened => (now - opened) / 1000).getD 0

def closing (lifecycle : ResourceAlertLifecycle) (sample : ResourceAlertSample) (now : Nat)
    (key : String) (summary : ResourceAlertSummary) : ResourceAlertIncident where
  summary :=
    { summary with
      evidence :=
        match sample.targets.get? key with
        | some target =>
          if hasCompleteResourceEvidence target.evidence then target.evidence
          else summary.evidence
        | none => summary.evidence
      updatedAt := sample.reportedAtMs
      durationSeconds := lifecycle.durationSeconds now }
  resolvedAt := some sample.reportedAtMs

def refreshed (lifecycle : ResourceAlertLifecycle) (sample : ResourceAlertSample) (now : Nat)
    (target : ResourceAlertTarget) (summary : ResourceAlertSummary) :
    ResourceAlertSummary :=
  { summary with
    updatedAt := sample.reportedAtMs
    durationSeconds := lifecycle.durationSeconds now
    evidence := target.evidence }

end ResourceAlertLifecycle

def openingSummary (sample : ResourceAlertSample) (number : Nat) (key : String)
    (target : ResourceAlertTarget) : ResourceAlertSummary :=
  let (kind, threshold, nextAction) := resourceAlertMetadata target.state
  { kind, key
    state := target.state
    severity := .critical
    incidentId := resourceIncidentId number
    openedAt := sample.reportedAtMs
    updatedAt := sample.reportedAtMs
    durationSeconds := 0
    scope := key
    evidence := target.evidence
    threshold, nextAction }

namespace ResourceAlertEngineState

def healthy (nowMs : Nat) : ResourceAlertEngineState where
  targets := .empty
  lastObservedAtMs := nowMs
  nextIncident := 1

/-- What the loops of a call carry along: the state and the incidents so far. -/
abbrev Progress := ResourceAlertEngineState × List ResourceAlertIncident

def resetTarget (sample : ResourceAlertSample) (now : Nat) (progress : Progress)
    (key : String) : Progress :=
  match progress.1.targets.get? key with
  | none => progress
  | some lifecycle =>
    let next := { progress.1 with targets := progress.1.targets.erase key }
    match lifecycle.active with
    | none => (next, progress.2)
    | some summary => (next, progress.2 ++ [lifecycle.closing sample now key summary])

def admitTarget (sample : ResourceAlertSample) (now maxTargets : Nat) (progress : Progress)
    (entry : String × ResourceAlertTarget) : Progress :=
  let (key, target) := entry
  let next := progress.1
  if !target.condition then progress
  else if !next.targets.contains key && maxTargets ≤ next.targets.entries.length then progress
  else
    let lifecycle := (next.targets.get? key).getD ⟨now, none, none⟩
    match lifecycle.active with
    | some summary =>
      let lifecycle :=
        { lifecycle with active := some (lifecycle.refreshed sample now target summary) }
      ({ next with targets := next.targets.insert key lifecycle }, progress.2)
    | none =>
      if now - lifecycle.candidateSinceMs < resourceEntryDuration target then
        ({ next with targets := next.targets.insert key lifecycle }, progress.2)
      else
        let summary := openingSummary sample next.nextIncident key target
        let lifecycle := { lifecycle with openedAtMs := some now, active := some summary }
        ({ next with
            targets := next.targets.insert key lifecycle
            nextIncident := satAdd next.nextIncident 1 },
          progress.2 ++ [⟨summary, none⟩])

/-- The targets to reset: not in the sample, or not over their limit. -/
def resetKeys (state : ResourceAlertEngineState) (sample : ResourceAlertSample) :
    List String :=
  (state.targets.inOrder.map Prod.fst).filter fun key => !sample.holds key

def advance (previous : ResourceAlertEngineState) (sample : ResourceAlertSample)
    (maxTargets : Nat) : ResourceAlertTransition :=
  let now := max sample.observedAtMs previous.lastObservedAtMs
  let maxTargets := min (max maxTargets 1) MAX_RESOURCE_TARGETS
  let next := { previous with lastObservedAtMs := now }
  let progress := (next.resetKeys sample).foldl (resetTarget sample now) (next, [])
  let progress := sample.targets.inOrder.foldl (admitTarget sample now maxTargets) progress
  { next := progress.1
    active := progress.1.targets.inOrder.filterMap fun e => e.2.active
    incidents := progress.2 }

end ResourceAlertEngineState

end DamHopper.System
