import DamHopper.System.AlertWindows

/-!
# Incidents — the life of a host incident

An incident begins when the engine leaves `healthy` and ends when it returns.
Five branches of a call can change the state, but for the incident only three
things happen: it is opened, it is closed, or the engine moves between two states
of trouble. `Turn` reduces the list of branches to that.

`Ledger` keeps beside the engine the ids of the incidents begun so far and the
time of the last `resolved` change.
-/

namespace DamHopper.System

open AgentStatus (U64_MAX satAdd)

namespace AlertEngineState

/-! ## What a call does to the incident -/

/-- Nothing that belongs to the incident is different. -/
structure SameIncident (s s' : AlertEngineState) : Prop where
  current : s'.current = s.current
  incidentId : s'.incidentId = s.incidentId
  nextIncident : s'.nextIncident = s.nextIncident
  openedAt : s'.openedAt = s.openedAt
  incidentSinceMs : s'.incidentSinceMs = s.incidentSinceMs
  cooldownUntilMs : s'.cooldownUntilMs = s.cooldownUntilMs

/-- A call stays in its state, or it enters another one. -/
inductive Turn (s : AlertEngineState) (o : TransitionInput) : Outcome → Prop where
  | stay (s' : AlertEngineState) (hsame : SameIncident s s') : Turn s o (s', none, none)
  | move (s' : AlertEngineState) (hsame : SameIncident s s') (state : AlertState)
      (hne : state ≠ s.current) : Turn s o (s'.transition state o)

variable {result : Outcome}

theorem AdvanceStep.turn {s : AlertEngineState} {o : TransitionInput}
    (h : AdvanceStep s o result) : Turn s o result := by
  have hnoted : SameIncident s (s.noted o) := ⟨rfl, rfl, rfl, rfl, rfl, rfl⟩
  have hpending : SameIncident s (s.pending o) := ⟨rfl, rfl, rfl, rfl, rfl, rfl⟩
  have hrecovering : SameIncident s (s.recovering o) := ⟨rfl, rfl, rfl, rfl, rfl, rfl⟩
  cases h with
  | steady | returning | lapsed => exact .stay _ ⟨rfl, rfl, rfl, rfl, rfl, rfl⟩
  | blinded hne hblind => exact .move _ hnoted _ (hblind ▸ hne)
  | returned samples hblind hlimited =>
    have hsame : SameIncident s { s.noted o with recoverySamples := samples } :=
      ⟨rfl, rfl, rfl, rfl, rfl, rfl⟩
    exact .move _ hsame _ (hlimited ▸ hblind)
  | waiting => exact .stay _ hpending
  | raised habove =>
    refine .move _ hpending _ fun heq => ?_
    exact Nat.ne_of_lt habove.rank_lt (congrArg stateRank heq.symm)
  | easing => exact .stay _ hrecovering
  | recovered hbelow => exact .move _ hrecovering _ fun heq => hbelow.not_healthy heq.symm

/-- The incident's fields are set exactly in trouble. -/
structure Consistent (s : AlertEngineState) : Prop where
  incidentId : s.incidentId.isSome ↔ s.current ≠ .healthy
  openedAt : s.openedAt.isSome ↔ s.current ≠ .healthy
  incidentSinceMs : s.incidentSinceMs.isSome ↔ s.current ≠ .healthy

variable {s : AlertEngineState} {o : TransitionInput}

theorem Consistent.congr {s' : AlertEngineState} (h : Consistent s) (hsame : SameIncident s s') :
    Consistent s' where
  incidentId := by rw [hsame.incidentId, hsame.current]; exact h.incidentId
  openedAt := by rw [hsame.openedAt, hsame.current]; exact h.openedAt
  incidentSinceMs := by rw [hsame.incidentSinceMs, hsame.current]; exact h.incidentSinceMs

/-- What a call can do to the incident. -/
inductive Life (s : AlertEngineState) (o : TransitionInput) (next : AlertEngineState)
    (change : Option AlertChange) (incident : Option AlertIncident) : Prop where
  | stays (hsame : SameIncident s next) (hchange : change = none)
  | begins (s' : AlertEngineState) (hsame : SameIncident s s') (state : AlertState)
      (hold : s.current = .healthy) (hnew : state ≠ .healthy)
      (hnext : next = (s'.enter state o).openIncident o)
      (hchange : change =
        if s'.cooldownUntilMs.any (o.now < ·) then none else some .opened)
  | ends (s' : AlertEngineState) (hsame : SameIncident s s') (hold : s.current ≠ .healthy)
      (hnext : next = { s'.enter .healthy o with
        cooldownUntilMs := some (satAdd o.now COOLDOWN_MS) }.closeIncident)
      (hchange : change = some .resolved)
      (hincident : incident =
        some ((s'.enter .healthy o).incidentFrom o (some o.sample.reportedAtMs)))
  | continues (s' : AlertEngineState) (hsame : SameIncident s s') (state : AlertState)
      (hold : s.current ≠ .healthy) (hnew : state ≠ .healthy)
      (hnext : next = s'.enter state o)
      (hchange : change =
        some (if stateRank s'.current < stateRank state then .escalated else .updated))
      (hincident : incident = some ((s'.enter state o).incidentFrom o none))

theorem Turn.life (h : Turn s o result) (hconsistent : Consistent s) :
    Life s o result.1 result.2.1 result.2.2 := by
  cases h with
  | stay s' hsame => exact .stays hsame rfl
  | move s' hsame state hne =>
    by_cases hold : s.current = .healthy
    · have hnew : state ≠ .healthy := fun heq => hne (heq.trans hold.symm)
      rw [show s'.transition state o = _ from if_pos ⟨hsame.current.trans hold, hnew⟩]
      exact .begins s' hsame state hold hnew rfl rfl
    · have hold' : s'.current ≠ .healthy := fun heq => hold (hsame.current.symm.trans heq)
      have hid := (hconsistent.congr hsame).incidentId.mpr hold'
      by_cases hnew : state = .healthy
      · rw [hnew, show s'.transition .healthy o = _ from (if_neg fun h => hold' h.1).trans
          ((if_pos ⟨hold', rfl⟩).trans (if_pos hid))]
        exact .ends s' hsame hold rfl rfl rfl
      · have hmove : s'.current ≠ state := fun heq => hne (heq.symm.trans hsame.current)
        rw [show s'.transition state o = _ from (if_neg fun h => hold' h.1).trans
          ((if_neg fun h => hnew h.2).trans (if_pos ⟨hmove, hid⟩))]
        exact .continues s' hsame state hold hnew rfl rfl rfl

theorem Consistent.healthy (hcurrent : s.current = .healthy) (hid : s.incidentId = none)
    (hopened : s.openedAt = none) (hsince : s.incidentSinceMs = none) : Consistent s := by
  constructor
  · simp [hcurrent, hid]
  · simp [hcurrent, hopened]
  · simp [hcurrent, hsince]

theorem Life.consistent {next : AlertEngineState} {change : Option AlertChange}
    {incident : Option AlertIncident} (h : Life s o next change incident)
    (hconsistent : Consistent s) : Consistent next := by
  cases h with
  | stays hsame => exact hconsistent.congr hsame
  | begins s' hsame state hold hnew hnext =>
    rw [hnext]
    exact ⟨iff_of_true rfl hnew, iff_of_true rfl hnew, iff_of_true rfl hnew⟩
  | ends s' hsame hold hnext =>
    rw [hnext]
    exact .healthy rfl rfl rfl rfl
  | continues s' hsame state hold hnew hnext =>
    have hconsistent' := hconsistent.congr hsame
    have hold' : s'.current ≠ .healthy := fun heq => hold (hsame.current.symm.trans heq)
    rw [hnext]
    exact ⟨iff_of_true (hconsistent'.incidentId.mpr hold') hnew,
      iff_of_true (hconsistent'.openedAt.mpr hold') hnew,
      iff_of_true (hconsistent'.incidentSinceMs.mpr hold') hnew⟩

end AlertEngineState

open AlertEngineState

/-! ## The ledger -/

structure Ledger where
  state : AlertEngineState
  /-- Ids of the incidents begun, oldest first. -/
  ids : List String
  /-- Monotonic time of the last `resolved` change. -/
  resolvedAtMs : Option Nat
  deriving Repr, DecidableEq

namespace Ledger

def start (nowMs : Nat) : Ledger := ⟨.healthy nowMs, [], none⟩

section

variable (l : Ledger) (x : AlertInput)

def observe : TransitionInput := l.state.observe x.sample x.thresholds

def result : AlertTransition := l.state.advanceWithThresholds x.sample x.thresholds

def Begins : Prop := l.state.current = .healthy ∧ (l.result x).next.current ≠ .healthy

instance : Decidable (l.Begins x) := inferInstanceAs (Decidable (_ ∧ _))

def step : Ledger where
  state := (l.result x).next
  ids := if l.Begins x then l.ids ++ (l.result x).next.incidentId.toList else l.ids
  resolvedAtMs :=
    if (l.result x).change = some .resolved then some (l.observe x).now
    else l.resolvedAtMs

/-- The incident announced by the call has the id the engine had before it. -/
def Carries : Prop :=
  ∃ incident ∈ (l.result x).incident, l.state.incidentId = some incident.incidentId

/-- What a call may do to the incident. -/
structure Law : Prop where
  /-- One id from the call that leaves `healthy` to the one that returns. -/
  keeps : l.state.current ≠ .healthy → (l.result x).next.current ≠ .healthy →
    (l.result x).next.incidentId = l.state.incidentId
  /-- A `resolved` change names the incident that is closed. -/
  resolves : (l.result x).change = some .resolved →
    l.state.current ≠ .healthy ∧ (l.result x).next.current = .healthy ∧ l.Carries x
  /-- `escalated` and `updated` stay with the incident. -/
  moves : (l.result x).change = some .escalated ∨ (l.result x).change = some .updated →
    (l.result x).next.incidentId = l.state.incidentId ∧ l.Carries x
  /-- `opened` waits for the end of the cooldown, which saturates. -/
  opens : (l.result x).change = some .opened → ∀ resolved ∈ l.resolvedAtMs,
    satAdd resolved COOLDOWN_MS ≤ (l.observe x).now

end

/-- What holds of a ledger at any time. -/
structure Sound (l : Ledger) : Prop where
  consistent : Consistent l.state
  drawn : Drawn "host-incident-" U64_MAX l.ids l.state.nextIncident
  cooldown : l.state.cooldownUntilMs = l.resolvedAtMs.map (satAdd · COOLDOWN_MS)

section

variable {l : Ledger}

theorem Sound.start (nowMs : Nat) : Sound (start nowMs) where
  consistent := .healthy rfl rfl rfl rfl
  drawn := Drawn.start (by decide)
  cooldown := rfl

theorem Sound.life (h : Sound l) (x : AlertInput) :
    Life l.state (l.observe x) (l.result x).next (l.result x).change (l.result x).incident :=
  (l.state.decision_step (l.observe x)).turn.life h.consistent

variable {x : AlertInput}

theorem Sound.carries (h : Sound l) {s' : AlertEngineState} {state : AlertState}
    {resolvedAt : Option Nat} (hsame : SameIncident l.state s')
    (hold : l.state.current ≠ .healthy)
    (hincident : (l.result x).incident =
      some ((s'.enter state (l.observe x)).incidentFrom (l.observe x) resolvedAt)) :
    l.Carries x := by
  obtain ⟨id, hid⟩ := Option.isSome_iff_exists.mp (h.consistent.incidentId.mpr hold)
  refine ⟨_, hincident, ?_⟩
  show l.state.incidentId = some (s'.incidentId.getD "unknown")
  rw [hsame.incidentId, hid]
  rfl

theorem Sound.law (h : Sound l) (x : AlertInput) : l.Law x := by
  cases h.life x with
  | stays hsame hchange =>
    refine ⟨fun _ _ => hsame.incidentId, ?_, ?_, ?_⟩ <;> simp [hchange]
  | begins s' hsame state hold hnew hnext hchange =>
    constructor
    · exact fun htrouble _ => absurd hold htrouble
    · simp [hchange]
    · simp [hchange]
    · intro hopen resolved hresolved
      rw [hchange] at hopen
      split at hopen
      · cases hopen
      next hcooled =>
        rw [hsame.cooldownUntilMs, h.cooldown, Option.mem_def.mp hresolved, Option.map_some,
          Option.any_some, decide_eq_true_eq, Nat.not_lt] at hcooled
        exact hcooled
  | ends s' hsame hold hnext hchange hincident =>
    constructor
    · intro _ htrouble
      rw [hnext] at htrouble
      exact absurd rfl htrouble
    · intro _
      refine ⟨hold, ?_, h.carries hsame hold hincident⟩
      rw [hnext]
      rfl
    · simp [hchange]
    · simp [hchange]
  | continues s' hsame state hold hnew hnext hchange hincident =>
    have hid : (l.result x).next.incidentId = l.state.incidentId := by
      rw [hnext]
      exact hsame.incidentId
    constructor
    · exact fun _ _ => hid
    · rw [hchange]
      split <;> simp
    · exact fun _ => ⟨hid, h.carries hsame hold hincident⟩
    · rw [hchange]
      split <;> simp

theorem Sound.step (h : Sound l) (x : AlertInput) : Sound (l.step x) := by
  have hconsistent : Consistent (l.step x).state := (h.life x).consistent h.consistent
  have hstate : (l.step x).state = (l.result x).next := rfl
  -- a call that begins no incident, and one that announces no `resolved`
  have hdrawn : ¬ l.Begins x → (l.result x).next.nextIncident = l.state.nextIncident →
      Drawn "host-incident-" U64_MAX (l.step x).ids (l.step x).state.nextIncident := by
    intro hids hnext
    rw [show (l.step x).ids = l.ids from if_neg hids, hstate, hnext]
    exact h.drawn
  have hcooldown : (l.result x).change ≠ some .resolved →
      (l.result x).next.cooldownUntilMs = l.state.cooldownUntilMs →
      (l.step x).state.cooldownUntilMs = (l.step x).resolvedAtMs.map (satAdd · COOLDOWN_MS) := by
    intro hnot hnext
    rw [show (l.step x).resolvedAtMs = l.resolvedAtMs from if_neg hnot, hstate, hnext]
    exact h.cooldown
  cases h.life x with
  | stays hsame hchange =>
    refine ⟨hconsistent, hdrawn (fun hb => hb.2 (hsame.current.trans hb.1)) hsame.nextIncident,
      hcooldown (by rw [hchange]; nofun) hsame.cooldownUntilMs⟩
  | begins s' hsame state hold hnew hnext hchange =>
    refine ⟨hconsistent, ?_, ?_⟩
    · have hbegins : l.Begins x := by
        refine ⟨hold, ?_⟩
        rw [hnext]
        exact hnew
      have hids : (l.step x).ids = l.ids ++ [hostIncidentId l.state.nextIncident] := by
        rw [Ledger.step, if_pos hbegins, hnext, ← hsame.nextIncident]
        rfl
      rw [hids, hstate, hnext]
      show Drawn _ _ _ (satAdd s'.nextIncident 1)
      rw [hsame.nextIncident]
      exact h.drawn.draw
    · refine hcooldown ?_ (hnext ▸ hsame.cooldownUntilMs)
      rw [hchange]
      split <;> nofun
  | ends s' hsame hold hnext hchange hincident =>
    refine ⟨hconsistent, hdrawn (fun hb => hold hb.1) (hnext ▸ hsame.nextIncident), ?_⟩
    have hresolved : (l.step x).resolvedAtMs = some (l.observe x).now := if_pos hchange
    rw [hresolved, hstate, hnext]
    rfl
  | continues s' hsame state hold hnew hnext hchange hincident =>
    refine ⟨hconsistent, hdrawn (fun hb => hold hb.1) (hnext ▸ hsame.nextIncident),
      hcooldown ?_ (hnext ▸ hsame.cooldownUntilMs)⟩
    rw [hchange]
    split <;> nofun

end

/-- **Incident lifecycle.** In every run from a healthy engine the incident's
fields are set exactly in trouble, the ids of the incidents differ as long as the
counter has not saturated, and every call obeys the law. -/
theorem incident_lifecycle (nowMs : Nat) (inputs : List AlertInput) :
    let l := run step (start nowMs) inputs
    Consistent l.state ∧ (l.ids.length ≤ U64_MAX → l.ids.Nodup) ∧ ∀ x, l.Law x := by
  have hsound : Sound (run step (start nowMs) inputs) :=
    invariant_run_all (fun _ x h => h.step x) inputs (Sound.start nowMs)
  exact ⟨hsound.consistent, hsound.drawn.nodup, hsound.law⟩

def reportingHost (observedAtMs : Nat) (reporting : Bool) : AlertInput where
  sample :=
    { observedAtMs, reportedAtMs := 0
      availablePercent := if reporting then some 100 else none
      reclaimablePercent := none, psiSomeAvg10 := none, psiFullAvg10 := none
      primaryMemoryAvailable := reporting, primaryPsiAvailable := false
      oomEventsTotal := none }
  thresholds := {}

/-- At the end of the clock's range the cooldown is cut short: an incident is
announced one millisecond after the last one was resolved. -/
theorem cooldown_saturates :
    let l := run step (start (U64_MAX - 1))
      [reportingHost (U64_MAX - 1) false, reportingHost (U64_MAX - 1) true,
        reportingHost (U64_MAX - 1) true]
    (l.result (reportingHost U64_MAX false)).change = some .opened ∧
      l.resolvedAtMs = some (U64_MAX - 1) ∧
      (l.observe (reportingHost U64_MAX false)).now < U64_MAX - 1 + COOLDOWN_MS := by
  decide +kernel

end Ledger

end DamHopper.System
