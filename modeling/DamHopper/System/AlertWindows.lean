import DamHopper.Lib.Runs
import DamHopper.System.AlertEngine

/-!
# AlertWindows — what the engine saw while its timers ran

The engine keeps only the start of its two timers. `Watched` carries the samples
behind them: those processed since the present candidate was set and those
processed since the recovery timer was started. The law the delays are there for
is that evidence is sustained: a rise to `T` is backed by a window of samples all
classified as `T`, a recovery by a window of samples that all meet the recovery
test.

The recovery half always holds. The entry half does not: a sample that points
below the present state stops nothing, so the candidate's timer runs through it.
-/

namespace DamHopper.System

open AlertEngineState List

structure AlertInput where
  sample : AlertSample
  thresholds : AlertThresholds
  deriving Repr, DecidableEq

structure Watched where
  state : AlertEngineState
  entry : List TransitionInput
  recovery : List TransitionInput
  deriving Repr, DecidableEq

/-- The samples behind a timer after a call: none if it is off, one more if it
still shows what it showed before, only the new one if it was just set. -/
def timerWindow {τ : Type _} [DecidableEq τ] (before after : Option τ)
    (window : List TransitionInput) (o : TransitionInput) : List TransitionInput :=
  if after = none then [] else if before = after then window ++ [o] else [o]

namespace Watched

def start (nowMs : Nat) : Watched := ⟨.healthy nowMs, [], []⟩

def observe (w : Watched) (x : AlertInput) : TransitionInput :=
  w.state.observe x.sample x.thresholds

def next (w : Watched) (x : AlertInput) : AlertEngineState :=
  (w.state.advanceWithThresholds x.sample x.thresholds).next

def step (w : Watched) (x : AlertInput) : Watched where
  state := w.next x
  entry := timerWindow w.state.candidate (w.next x).candidate w.entry (w.observe x)
  recovery :=
    timerWindow w.state.recoverySinceMs (w.next x).recoverySinceMs w.recovery (w.observe x)

def entryWindow (w : Watched) (x : AlertInput) : List TransitionInput :=
  if w.state.candidate.map Prod.fst = some (w.observe x).target then
    w.entry ++ [w.observe x]
  else [w.observe x]

def recoveryWindow (w : Watched) (x : AlertInput) : List TransitionInput :=
  if w.state.recoverySinceMs.isSome then w.recovery ++ [w.observe x] else [w.observe x]

end Watched

/-- The window is at least `duration` long and ends at `now`. -/
def Lasts (window : List TransitionInput) (duration now : Nat) : Prop :=
  ∃ first ∈ window.head?, first.now + duration ≤ now

instance (window : List TransitionInput) (duration now : Nat) :
    Decidable (Lasts window duration now) := by delta Lasts; infer_instance

namespace Watched

section

variable (w : Watched) (x : AlertInput)

/-- The call raises the engine, and not because of an OOM delta. -/
def Raises : Prop :=
  w.state.current ≠ .limitedData ∧
    stateRank w.state.current < stateRank (w.next x).current ∧
    (w.observe x).oomDelta = false

def Recovers : Prop :=
  w.state.current ≠ .limitedData ∧ w.state.current ≠ .healthy ∧
    (w.next x).current = .healthy

/-- A rise is backed by samples that all point to the new state. -/
def EntrySustained : Prop :=
  w.Raises x →
    (∀ o ∈ w.entryWindow x, o.target = (w.next x).current) ∧
    Lasts (w.entryWindow x)
      (entryDurationMs (w.next x).current x.sample (w.observe x).oomDelta x.thresholds)
      (w.observe x).now

/-- A recovery is backed by samples that all meet the recovery test. -/
def RecoverySustained : Prop :=
  w.Recovers x →
    (∀ o ∈ w.recoveryWindow x,
      recoveryMet w.state.current o.sample o.thresholds = true) ∧
    Lasts (w.recoveryWindow x) (recoveryDurationMs w.state.current) (w.observe x).now

def Sustained : Prop := w.EntrySustained x ∧ w.RecoverySustained x

/-- No sample since the candidate's start pointed to the present state's rank or
below it. -/
def Unbroken : Prop :=
  w.Raises x → ∀ o ∈ w.entryWindow x, stateRank w.state.current < stateRank o.target

instance : Decidable (w.Raises x) := inferInstanceAs (Decidable (_ ∧ _ ∧ _))

instance : Decidable (w.Recovers x) := inferInstanceAs (Decidable (_ ∧ _ ∧ _))

instance : Decidable (w.EntrySustained x) := inferInstanceAs (Decidable (_ → _))

instance : Decidable (w.RecoverySustained x) := inferInstanceAs (Decidable (_ → _))

instance : Decidable (w.Sustained x) := inferInstanceAs (Decidable (_ ∧ _))

instance : Decidable (w.Unbroken x) := inferInstanceAs (Decidable (_ → _))

end

/-! ## What the timers say about the samples behind them -/

/-- A running candidate timer started with its window, which holds samples of the
candidate and, besides, only samples at or below the present state. -/
structure EntryTimer (s : AlertEngineState) (window : List TransitionInput) : Prop where
  not_limited : ∀ c ∈ s.candidate, s.current ≠ .limitedData
  started : ∀ c ∈ s.candidate,
    ∃ first ∈ window.head?, first.now = c.2 ∧ c.2 ≤ s.lastObservedAtMs
  samples : ∀ c ∈ s.candidate, ∀ o ∈ window,
    o.target = c.1 ∨ stateRank o.target ≤ stateRank s.current

/-- A running recovery timer started with its window, and every sample of the
window met the test. -/
structure RecoveryTimer (s : AlertEngineState) (window : List TransitionInput) : Prop where
  not_limited : ∀ since ∈ s.recoverySinceMs, s.current ≠ .limitedData
  started : ∀ since ∈ s.recoverySinceMs,
    ∃ first ∈ window.head?, first.now = since ∧ since ≤ s.lastObservedAtMs
  samples : ∀ since ∈ s.recoverySinceMs, ∀ o ∈ window,
    recoveryMet s.current o.sample o.thresholds = true

section

variable {τ : Type _} [DecidableEq τ] (window : List TransitionInput) (o : TransitionInput) {c : τ}

@[simp] theorem timerWindow_same :
    timerWindow (some c) (some c) window o = window ++ [o] := by
  simp [timerWindow]

theorem timerWindow_new {before : Option τ} (h : before ≠ some c) :
    timerWindow before (some c) window o = [o] := by
  simp [timerWindow, h]

end

section

variable {s s' : AlertEngineState} {window : List TransitionInput} {o : TransitionInput}
  {result : AlertEngineState.Outcome}

/-- A window that goes on has started when it did. -/
theorem started_append {since last now : Nat}
    (h : ∃ first ∈ window.head?, first.now = since ∧ since ≤ last) (hnow : last ≤ now) :
    ∃ first ∈ (window ++ [o]).head?, first.now = since ∧ since ≤ now := by
  obtain ⟨first, hfirst, hstart, hle⟩ := h
  refine ⟨first, ?_, hstart, hle.trans hnow⟩
  rw [head?_append, hfirst]
  rfl

theorem EntryTimer.off (h : s.candidate = none) (window : List TransitionInput) :
    EntryTimer s window where
  not_limited c hc := by rw [h] at hc; cases hc
  started c hc := by rw [h] at hc; cases hc
  samples c hc := by rw [h] at hc; cases hc

theorem RecoveryTimer.off (h : s.recoverySinceMs = none) (window : List TransitionInput) :
    RecoveryTimer s window where
  not_limited c hc := by rw [h] at hc; cases hc
  started c hc := by rw [h] at hc; cases hc
  samples c hc := by rw [h] at hc; cases hc

/-- A sample that points below the present state leaves the candidate's timer
running. -/
theorem EntryTimer.carry (h : EntryTimer s window) (hcandidate : s'.candidate = s.candidate)
    (hcurrent : s'.current = s.current) (hnow : s.lastObservedAtMs ≤ s'.lastObservedAtMs)
    (ho : stateRank o.target ≤ stateRank s.current) :
    EntryTimer s' (timerWindow s.candidate s'.candidate window o) := by
  cases hc : s.candidate with
  | none => exact .off (hcandidate.trans hc) _
  | some c =>
    rw [hc] at hcandidate
    rw [hcandidate, timerWindow_same]
    have hmem : c ∈ s.candidate := hc
    constructor
    · intro c' _
      rw [hcurrent]
      exact h.not_limited c hmem
    · intro c' hc'
      cases hcandidate.symm.trans hc'
      exact started_append (h.started c hmem) hnow
    · intro c' hc'
      cases hcandidate.symm.trans hc'
      rw [hcurrent]
      exact forall_mem_append.mpr ⟨h.samples c hmem, forall_mem_singleton.mpr (.inr ho)⟩

/-- A sample that points above the present state starts the timer or continues
it. -/
theorem EntryTimer.pending (h : EntryTimer s window) (habove : s.Above o)
    (hnow : s.lastObservedAtMs ≤ o.now) :
    EntryTimer (s.pending o) (timerWindow s.candidate (s.pending o).candidate window o) := by
  have hset : (s.pending o).candidate = some (o.target, s.candidateSince o.target o.now) := rfl
  by_cases hsame : ∃ since, s.candidate = some (o.target, since)
  · obtain ⟨since, hc⟩ := hsame
    rw [candidateSince_of_eq hc] at hset
    rw [hc, hset, timerWindow_same]
    constructor
    · exact fun _ _ => habove.not_limited
    · intro c hmem
      cases hset.symm.trans hmem
      exact started_append (h.started _ hc) hnow
    · rintro c ⟨⟩
      exact forall_mem_append.mpr
        ⟨h.samples (o.target, since) hc, forall_mem_singleton.mpr (.inl rfl)⟩
  · rw [candidateSince_of_ne hsame] at hset
    rw [hset, timerWindow_new _ _ fun hc => hsame ⟨_, hc⟩]
    constructor
    · exact fun _ _ => habove.not_limited
    · intro c hmem
      cases hset.symm.trans hmem
      exact ⟨o, rfl, rfl, le_rfl⟩
    · rintro c ⟨⟩
      exact forall_mem_singleton.mpr (.inl rfl)

theorem EntryTimer.step (hstep : s.AdvanceStep o result) (hnow : s.lastObservedAtMs ≤ o.now)
    (h : EntryTimer s window) :
    EntryTimer result.1 (timerWindow s.candidate result.1.candidate window o) := by
  cases hstep with
  | steady => exact .off rfl _
  | blinded | returned | raised | recovered => exact .off (transition_timers ..).1 _
  | returning _ _ hlimited =>
    refine .off ?_ _
    cases hc : s.candidate with
    | none => exact hc
    | some c => exact absurd hlimited (h.not_limited c hc)
  | waiting habove => exact h.pending habove hnow
  | easing hbelow | lapsed hbelow => exact h.carry rfl rfl hnow hbelow.rank_le

/-- A sample that meets the test starts the recovery timer or continues it. -/
theorem RecoveryTimer.recovering (h : RecoveryTimer s window) (hbelow : s.Below o)
    (hmet : recoveryMet s.current o.sample o.thresholds = true)
    (hnow : s.lastObservedAtMs ≤ o.now) :
    RecoveryTimer (s.recovering o)
      (timerWindow s.recoverySinceMs (s.recovering o).recoverySinceMs window o) := by
  have hset : (s.recovering o).recoverySinceMs = some (s.recoverySinceMs.getD o.now) := rfl
  cases hr : s.recoverySinceMs with
  | none =>
    rw [hr] at hset
    constructor
    · exact fun _ _ => hbelow.not_limited
    · intro since hmem
      cases hset.symm.trans hmem
      exact ⟨o, rfl, rfl, le_rfl⟩
    · exact fun _ _ => forall_mem_singleton.mpr hmet
  | some since =>
    rw [hr, Option.getD_some] at hset
    rw [hset, timerWindow_same]
    constructor
    · exact fun _ _ => hbelow.not_limited
    · intro since' hmem
      cases hset.symm.trans hmem
      exact started_append (h.started since hr) hnow
    · exact fun _ _ =>
        forall_mem_append.mpr ⟨h.samples since hr, forall_mem_singleton.mpr hmet⟩

theorem RecoveryTimer.step (hstep : s.AdvanceStep o result) (hnow : s.lastObservedAtMs ≤ o.now)
    (h : RecoveryTimer s window) :
    RecoveryTimer result.1 (timerWindow s.recoverySinceMs result.1.recoverySinceMs window o) := by
  cases hstep with
  | steady | waiting | lapsed => exact .off rfl _
  | blinded | returned | raised | recovered => exact .off (transition_timers ..).2 _
  | returning _ _ hlimited =>
    refine .off ?_ _
    cases hr : s.recoverySinceMs with
    | none => exact hr
    | some since => exact absurd hlimited (h.not_limited since hr)
  | easing hbelow hmet => exact h.recovering hbelow hmet hnow

end

/-! ## The law -/

/-- Both timers say what they should. -/
structure Timed (w : Watched) : Prop where
  entry : EntryTimer w.state w.entry
  recovery : RecoveryTimer w.state w.recovery

section

variable {w : Watched} {x : AlertInput} {duration : Nat}

theorem Timed.start (nowMs : Nat) : Timed (start nowMs) := ⟨.off rfl _, .off rfl _⟩

theorem next_step (w : Watched) (x : AlertInput) :
    w.state.AdvanceStep (w.observe x) (w.state.decision (w.observe x)) :=
  w.state.decision_step (w.observe x)

theorem le_now : w.state.lastObservedAtMs ≤ (w.observe x).now := Nat.le_max_right _ _

theorem Timed.step (h : Timed w) (x : AlertInput) : Timed (w.step x) :=
  ⟨h.entry.step (next_step w x) le_now, h.recovery.step (next_step w x) le_now⟩

/-- A window that starts with a timer is as long as the timer says. -/
theorem lasts_of_started {window : List TransitionInput} {since now : Nat}
    (hstarted : ∃ first ∈ window.head?, first.now = since ∧ since ≤ now)
    (hlong : duration ≤ now - since) : Lasts window duration now := by
  obtain ⟨first, hfirst, hstart, hle⟩ := hstarted
  exact ⟨first, hfirst, by omega⟩

/-- Recoveries are always backed by their window. -/
theorem Timed.recoverySustained (h : Timed w) : w.RecoverySustained x := by
  rintro ⟨hlimited, hhealthy, hback⟩
  have hstep := next_step w x
  have hnext : w.next x = (w.state.decision (w.observe x)).1 := rfl
  rw [hnext] at hback
  generalize w.state.decision (w.observe x) = result at hstep hback
  cases hstep with
  | steady | waiting | easing | lapsed => exact absurd hback hhealthy
  | blinded => rw [transition_current] at hback; cases hback
  | returning _ _ h | returned _ _ h => exact absurd h hlimited
  | raised habove =>
    rw [transition_current] at hback
    have hlt := habove.rank_lt
    rw [hback] at hlt
    exact absurd hlt (Nat.not_lt_zero _)
  | recovered hbelow hmet hlong =>
    unfold recoveryWindow
    cases hr : w.state.recoverySinceMs with
    | none =>
      rw [hr, Option.getD_none] at hlong
      exact ⟨forall_mem_singleton.mpr hmet, w.observe x, rfl, by omega⟩
    | some since =>
      rw [hr] at hlong
      exact ⟨forall_mem_append.mpr
          ⟨h.recovery.samples since hr, forall_mem_singleton.mpr hmet⟩,
        lasts_of_started (started_append (h.recovery.started since hr) le_now) hlong⟩

theorem entryDurationMs_limitedData {sample : AlertSample} {oomDelta : Bool}
    {thresholds : AlertThresholds} :
    entryDurationMs .limitedData sample oomDelta thresholds = 0 := by
  unfold entryDurationMs
  split <;> rfl

/-- A call raises the engine to the state its sample points to, once the
candidate's time is up. -/
theorem raises_due (h : w.Raises x) : (w.observe x).target = (w.next x).current ∧
      entryDurationMs (w.observe x).target x.sample (w.observe x).oomDelta x.thresholds ≤
        (w.observe x).now - w.state.candidateSince (w.observe x).target (w.observe x).now := by
  obtain ⟨hlimited, hlt, _⟩ := h
  have hstep := next_step w x
  have hnext : w.next x = (w.state.decision (w.observe x)).1 := rfl
  rw [hnext] at hlt ⊢
  generalize w.state.decision (w.observe x) = result at hstep hlt
  cases hstep with
  | steady | waiting | easing | lapsed => exact absurd hlt (Nat.lt_irrefl _)
  | blinded _ hblind =>
    rw [transition_current, hblind, entryDurationMs_limitedData]
    exact ⟨rfl, Nat.zero_le _⟩
  | returning _ _ h | returned _ _ h => exact absurd h hlimited
  | raised _ hlong =>
    rw [transition_current]
    exact ⟨rfl, hlong⟩
  | recovered =>
    rw [transition_current] at hlt
    exact absurd hlt (Nat.not_lt_zero _)

/-- The window of a candidate is as long as its timer shows. -/
theorem Timed.entryWindow_lasts (h : Timed w) (hlong : duration ≤ (w.observe x).now -
      w.state.candidateSince (w.observe x).target (w.observe x).now) :
    Lasts (w.entryWindow x) duration (w.observe x).now := by
  by_cases hsame : ∃ since, w.state.candidate = some ((w.observe x).target, since)
  · obtain ⟨since, hc⟩ := hsame
    rw [candidateSince_of_eq hc] at hlong
    have hwindow : w.entryWindow x = w.entry ++ [w.observe x] := by simp [entryWindow, hc]
    rw [hwindow]
    exact lasts_of_started (started_append (h.entry.started _ hc) le_now) hlong
  · rw [candidateSince_of_ne hsame] at hlong
    have hwindow : w.entryWindow x = [w.observe x] := by
      refine if_neg fun heq => hsame ?_
      obtain ⟨⟨candidate, since⟩, hc, rfl⟩ := Option.map_eq_some_iff.mp heq
      exact ⟨since, hc⟩
    rw [hwindow]
    exact ⟨w.observe x, rfl, by omega⟩

/-- Besides samples of the target, the window holds only samples at or below the
present state. -/
theorem Timed.entryWindow_samples (h : Timed w) : ∀ o ∈ w.entryWindow x,
    o.target = (w.observe x).target ∨ stateRank o.target ≤ stateRank w.state.current := by
  unfold entryWindow
  split_ifs with hsame
  · obtain ⟨c, hc, htarget⟩ := Option.map_eq_some_iff.mp hsame
    exact forall_mem_append.mpr
      ⟨htarget ▸ h.entry.samples c hc, forall_mem_singleton.mpr (.inl rfl)⟩
  · exact forall_mem_singleton.mpr (.inl rfl)

theorem Timed.sustained_iff_unbroken (h : Timed w) : w.Sustained x ↔ w.Unbroken x := by
  constructor
  · intro hlaw hraises o ho
    rw [(hlaw.1 hraises).1 o ho]
    exact hraises.2.1
  · intro hunbroken
    refine ⟨fun hraises => ⟨fun o ho => ?_, ?_⟩, h.recoverySustained⟩
    · rcases h.entryWindow_samples o ho with htarget | hle
      · rw [htarget, (raises_due hraises).1]
      · exact absurd (hunbroken hraises o ho) (Nat.not_lt_of_le hle)
    · obtain ⟨htarget, hlong⟩ := raises_due hraises
      rw [← htarget]
      exact h.entryWindow_lasts hlong

end

/-- **Sustained evidence.** In a run from a healthy engine every rise and every
recovery is backed by its window exactly when, at every rise, no sample since the
candidate's start pointed to the present state's rank or below it. -/
theorem sustained_iff (nowMs : Nat) (inputs : List AlertInput) :
    EveryStep step Sustained (start nowMs) inputs ↔ EveryStep step Unbroken (start nowMs) inputs :=
  everyStep_congr (fun _ x h => h.step x) (fun _ _ h => h.sustained_iff_unbroken)
    (Timed.start nowMs) inputs

def relievedHost (observedAtMs : Nat) (available : Rat) : AlertInput where
  sample :=
    { observedAtMs, reportedAtMs := observedAtMs, availablePercent := some available
      reclaimablePercent := some 5, psiSomeAvg10 := some 0, psiFullAvg10 := some 0
      primaryMemoryAvailable := true, primaryPsiAvailable := true
      oomEventsTotal := some 0 }
  thresholds := {}

/-- The candidate's timer runs through a sample that points below the present
state: the fourth sample is one of relief, and the fifth raises the engine as if it
had not been there. -/
theorem relief_keeps_candidate : ¬ EveryStep step Sustained (start 0)
      [relievedHost 0 12, relievedHost 30000 12, relievedHost 31000 8,
        relievedHost 40000 20, relievedHost 61000 8] := by
  decide +kernel

/-! ## The OOM counter -/

/-- A call leaves the counter of its sample behind, also if the sample has none. -/
theorem step_lastOomTotal (w : Watched) (x : AlertInput) :
    (w.step x).state.lastOomTotal = x.sample.oomEventsTotal := by
  show (w.state.decision (w.observe x)).1.lastOomTotal = (w.observe x).sample.oomEventsTotal
  have hstep := next_step w x
  generalize w.state.decision (w.observe x) = result at hstep
  cases hstep with
  | steady | returning | waiting | easing | lapsed => rfl
  | blinded | returned | raised | recovered =>
    unfold AlertEngineState.transition
    dsimp only
    split_ifs <;> rfl

/-- **An increment of the OOM counter is seen** exactly if no sample without the counter
stands between the two. -/
theorem oom_increment_seen_iff (nowMs : Nat) (front gap : List AlertInput) (x y : AlertInput)
    (a b : Nat) (hx : x.sample.oomEventsTotal = some a) (hy : y.sample.oomEventsTotal = some b)
    (hab : a < b) (hgap : ∀ z ∈ gap, z.sample.oomEventsTotal = none) :
    let o := (run step (start nowMs) (front ++ x :: gap)).observe y
    (o.oomDelta = true ∧ ((y.sample.primaryMemoryAvailable || y.sample.primaryPsiAvailable) →
      o.target = .oomRisk)) ↔ gap = [] := by
  intro o
  constructor
  · rintro ⟨hdelta, _⟩
    by_contra hne
    obtain ⟨init, z, rfl⟩ := eq_nil_or_concat gap |>.resolve_left hne
    have hlast : (run step (start nowMs) (front ++ x :: (init ++ [z]))).state.lastOomTotal =
        none := by
      rw [← cons_append, ← append_assoc, run_append, run_cons, run_nil,
        step_lastOomTotal]
      exact hgap z (by simp)
    simp [o, observe, AlertEngineState.observe, hlast] at hdelta
  · rintro rfl
    have hdelta : o.oomDelta = true := by
      simp [o, observe, AlertEngineState.observe, run_append, step_lastOomTotal, hx, hy, hab]
    refine ⟨hdelta, fun hprimary => ?_⟩
    have hsample : o.sample = y.sample := rfl
    rw [TransitionInput.target, classify, hsample, hdelta]
    revert hprimary
    cases y.sample.primaryMemoryAvailable <;> cases y.sample.primaryPsiAvailable <;> simp

def countingHost (oomEventsTotal : Option Nat) : AlertInput :=
  { relievedHost 0 50 with sample := { (relievedHost 0 50).sample with oomEventsTotal } }

theorem oom_increment_seen_next :
    ((start 0).step (countingHost (some 5))).observe (countingHost (some 6)) |>.oomDelta :=
  ((oom_increment_seen_iff 0 [] [] (countingHost (some 5)) (countingHost (some 6)) 5 6 rfl rfl
    (by decide) (by simp)).mpr rfl).1

/-- One sample without the counter hides an increment from 5 to 6. -/
theorem oom_increment_missed :
    let w := run step (start 0) [countingHost (some 5), countingHost none]
    (w.observe (countingHost (some 6))).oomDelta = false ∧
      (w.observe (countingHost (some 6))).target = .healthy := by
  decide +kernel

end Watched

end DamHopper.System
