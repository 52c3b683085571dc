import DamHopper.Lib.Runs
import DamHopper.System.ResourceAlerts

/-!
# ResourceIncidents — what is announced about each target

`ResourceLog` keeps beside the engine every incident it has announced and every
sample it has processed. For one key the announcements are a run of a two-state
automaton (`Alternates`): open, close, open, close, each closing with the id of
the opening before it. `Accounts` ties that automaton to the engine's map: the key
is open in the log exactly when its lifecycle has an active alert, with the same
id. The two loops of a call keep the accounts round by round.
-/

namespace DamHopper.System

open AssocMap List
open AgentStatus (U64_MAX satAdd)

/-! ## Announcements of one key -/

def ResourceAlertIncident.opens (i : ResourceAlertIncident) : Bool := i.resolvedAt.isNone

/-- Openings and closings take turns, and a closing has the id of its opening. The
first argument is the id that is open before the list. -/
def Alternates : Option String → List ResourceAlertIncident → Prop
  | _, [] => True
  | none, i :: rest => i.opens = true ∧ Alternates (some i.summary.incidentId) rest
  | some id, i :: rest =>
    i.opens = false ∧ i.summary.incidentId = id ∧ Alternates none rest

def openAfter (before : Option String) (incidents : List ResourceAlertIncident) :
    Option String :=
  incidents.foldl (fun _ i => if i.opens then some i.summary.incidentId else none) before

def about (key : String) (incidents : List ResourceAlertIncident) :
    List ResourceAlertIncident :=
  incidents.filter fun i => i.summary.key = key

def openingIds (incidents : List ResourceAlertIncident) : List String :=
  (incidents.filter (·.opens)).map (·.summary.incidentId)

theorem alternates_append {before : Option String} {l l' : List ResourceAlertIncident} :
    Alternates before (l ++ l') ↔ Alternates before l ∧ Alternates (openAfter before l) l' := by
  induction l generalizing before with
  | nil => simp [Alternates, openAfter]
  | cons i rest ih =>
    cases before <;> simp only [cons_append, Alternates, ih, and_assoc]
    all_goals
      refine and_congr_right fun hopens => ?_
      simp [openAfter, hopens]

variable {i : ResourceAlertIncident}
  {key : String}

/-! ## Samples behind a lifecycle -/

structure Processed where
  now : Nat
  sample : ResourceAlertSample
  deriving Repr, DecidableEq

/-- The condition of the key has held in every sample since `since`. -/
def HeldSince (processed : List Processed) (key : String) (since : Nat) : Prop :=
  ∃ window, window <:+ processed ∧ (∀ p ∈ window, p.sample.holds key = true) ∧
    ∃ first ∈ window.head?, first.now = since

theorem HeldSince.extend {processed : List Processed} {since : Nat}
    (h : HeldSince processed key since) {p : Processed} (hp : p.sample.holds key = true) :
    HeldSince (processed ++ [p]) key since := by
  obtain ⟨window, hsuffix, hall, first, hfirst, hsince⟩ := h
  refine ⟨window ++ [p], ?_, ?_, first, ?_, hsince⟩
  · obtain ⟨before, rfl⟩ := hsuffix
    exact ⟨before, (append_assoc _ _ _).symm⟩
  · exact forall_mem_append.mpr ⟨hall, forall_mem_singleton.mpr hp⟩
  · rw [Option.mem_def] at hfirst ⊢
    simp [head?_append, hfirst]

/-! ## The accounts -/

def activeId (targets : AssocMap String ResourceAlertLifecycle) (key : String) :
    Option String :=
  ((targets.get? key).bind (·.active)).map (·.incidentId)

/-- The engine's map agrees with what was announced and what was seen. -/
structure Accounts (state : ResourceAlertEngineState) (emitted : List ResourceAlertIncident)
    (processed : List Processed) : Prop where
  alternates : ∀ key, Alternates none (about key emitted)
  opened : ∀ key, openAfter none (about key emitted) = activeId state.targets key
  keyed : ∀ key lifecycle summary, state.targets.get? key = some lifecycle →
    lifecycle.active = some summary → summary.key = key
  drawn : Drawn "host-resource-incident-" U64_MAX (openingIds emitted) state.nextIncident
  held : ∀ key lifecycle, state.targets.get? key = some lifecycle →
    HeldSince processed key lifecycle.candidateSinceMs

section

variable {state : ResourceAlertEngineState} {emitted : List ResourceAlertIncident}
  {processed : List Processed} {key : String}
  (targets : AssocMap String ResourceAlertLifecycle)

theorem activeId_erase (key key' : String) :
    activeId (targets.erase key) key' = if key' = key then none else activeId targets key' := by
  unfold activeId
  rw [get?_erase]
  split <;> rfl

theorem activeId_insert (key key' : String) (lifecycle : ResourceAlertLifecycle) :
    activeId (targets.insert key lifecycle) key' =
      if key' = key then lifecycle.active.map (·.incidentId) else activeId targets key' := by
  unfold activeId
  rw [get?_insert]
  split <;> rfl

variable {lifecycle : ResourceAlertLifecycle} {i : ResourceAlertIncident}

theorem activeId_of_get? {targets : AssocMap String ResourceAlertLifecycle}
    (h : targets.get? key = some lifecycle) :
    activeId targets key = lifecycle.active.map (·.incidentId) := by
  rw [activeId, h]
  rfl

section

variable (h : Accounts state emitted processed)
include h

theorem Accounts.drop (hidle : activeId state.targets key = none) :
    Accounts { state with targets := state.targets.erase key } emitted processed where
  __ := h
  opened key' := by
    rw [activeId_erase, h.opened]
    split_ifs with heq
    · rw [heq, hidle]
    · rfl
  keyed key' lifecycle summary hget := h.keyed key' lifecycle summary (get?_of_erase hget)
  held key' lifecycle hget := h.held key' lifecycle (get?_of_erase hget)

theorem Accounts.announce (hkey : i.summary.key = key)
    (hturn : Alternates (activeId state.targets key) [i]) (key' : String) :
    Alternates none (about key' (emitted ++ [i])) ∧ openAfter none (about key' (emitted ++ [i])) =
        if key' = key then (if i.opens then some i.summary.incidentId else none)
        else activeId state.targets key' := by
  by_cases heq : key' = key
  · have hself : i.summary.key = key' := hkey.trans heq.symm
    have habout : about key' (emitted ++ [i]) = about key' emitted ++ [i] := by simp [about, hself]
    rw [habout, alternates_append, h.opened, heq, if_pos rfl]
    exact ⟨⟨h.alternates key, hturn⟩, by simp [openAfter]⟩
  · have habout : about key' (emitted ++ [i]) = about key' emitted := by
      simp [about, hkey, Ne.symm heq]
    rw [habout, if_neg heq]
    exact ⟨h.alternates key', h.opened key'⟩

theorem Accounts.close (hkey : i.summary.key = key) (hcloses : i.opens = false)
    (hid : activeId state.targets key = some i.summary.incidentId) :
    Accounts { state with targets := state.targets.erase key } (emitted ++ [i]) processed where
  alternates key' := (h.announce hkey (hid ▸ ⟨hcloses, rfl, trivial⟩) key').1
  opened key' := by
    simp [activeId_erase, (h.announce hkey (hid ▸ ⟨hcloses, rfl, trivial⟩) key').2, hcloses]
  keyed key' lifecycle summary hget := h.keyed key' lifecycle summary (get?_of_erase hget)
  drawn := by
    have hids : openingIds (emitted ++ [i]) = openingIds emitted := by
      simp [openingIds, hcloses]
    rw [hids]
    exact h.drawn
  held key' lifecycle hget := h.held key' lifecycle (get?_of_erase hget)

/-- A lifecycle is written whose alert, if any, is the one already announced. -/
theorem Accounts.write (hid : lifecycle.active.map (·.incidentId) = activeId state.targets key)
    (hkey : ∀ summary ∈ lifecycle.active, summary.key = key)
    (hheld : HeldSince processed key lifecycle.candidateSinceMs) :
    Accounts { state with targets := state.targets.insert key lifecycle } emitted processed where
  __ := h
  opened key' := by
    rw [activeId_insert, h.opened]
    split_ifs with heq
    · rw [heq, hid]
    · rfl
  keyed key' lifecycle' summary hget :=
    forall_insert (fun k l hget summary => h.keyed k l summary hget) hkey key' lifecycle' hget
      summary
  held := forall_insert h.held hheld

/-- A new alert takes the next id. -/
theorem Accounts.open {summary : ResourceAlertSummary} (hidle : activeId state.targets key = none)
    (hactive : lifecycle.active = some summary) (hkey : summary.key = key)
    (hid : summary.incidentId = resourceIncidentId state.nextIncident)
    (hheld : HeldSince processed key lifecycle.candidateSinceMs) :
    Accounts { state with
        targets := state.targets.insert key lifecycle
        nextIncident := satAdd state.nextIncident 1 } (emitted ++ [⟨summary, none⟩])
      processed where
  alternates key' := (h.announce hkey (hidle ▸ ⟨rfl, trivial⟩) key').1
  opened key' := by
    rw [activeId_insert, hactive, (h.announce hkey (hidle ▸ ⟨rfl, trivial⟩) key').2]
    rfl
  keyed key' lifecycle' summary' hget := by
    refine forall_insert (fun k l hget summary => h.keyed k l summary hget) ?_ key' lifecycle' hget
      summary'
    rw [hactive]
    rintro _ ⟨⟩
    exact hkey
  drawn := by
    have hids : openingIds (emitted ++ [⟨summary, none⟩]) =
        openingIds emitted ++ [resourceIncidentId state.nextIncident] := by
      simp [openingIds, ResourceAlertIncident.opens, hid]
    rw [hids]
    exact h.drawn.draw
  held := forall_insert h.held hheld

end

end

/-! ## The two loops of a call -/

namespace ResourceAlertEngineState

section

variable {sample : ResourceAlertSample} {now : Nat} {progress : Progress}
  {before : List ResourceAlertIncident} {processed : List Processed}

theorem resetTarget_get? (sample : ResourceAlertSample) (now : Nat) (progress : Progress)
    (key k : String) :
    (resetTarget sample now progress key).1.targets.get? k =
      if k = key then none else progress.1.targets.get? k := by
  unfold resetTarget
  split
  next hnone =>
    split_ifs with heq
    · rw [heq, hnone]
    · rfl
  · dsimp only
    split <;> exact get?_erase

theorem resetTarget_accounts (key : String)
    (h : Accounts progress.1 (before ++ progress.2) processed) :
    Accounts (resetTarget sample now progress key).1
      (before ++ (resetTarget sample now progress key).2) processed := by
  unfold resetTarget
  split
  · exact h
  rename_i lifecycle hget
  split
  next hidle =>
    refine h.drop ?_
    simp [activeId_of_get? hget, hidle]
  next summary hactive =>
    rw [← append_assoc]
    refine h.close (h.keyed key lifecycle summary hget hactive) rfl ?_
    rw [activeId_of_get? hget, hactive]
    rfl

/-- Closings leave nothing to back up. -/
theorem resetTarget_opens (key : String) (h : ∀ i ∈ progress.2, i.opens = false) :
    ∀ i ∈ (resetTarget sample now progress key).2, i.opens = false := by
  unfold resetTarget
  split
  · exact h
  split
  · exact h
  · exact forall_mem_append.mpr ⟨h, forall_mem_singleton.mpr rfl⟩

theorem resetLoop_get? (keys : List String) (progress : Progress) (k : String) :
    (keys.foldl (resetTarget sample now) progress).1.targets.get? k =
      if k ∈ keys then none else progress.1.targets.get? k := by
  induction keys generalizing progress with
  | nil => simp
  | cons key rest ih =>
    rw [foldl_cons, ih, resetTarget_get?]
    by_cases hk : k = key <;> simp [hk]

theorem resetLoop_accounts (sample : ResourceAlertSample) (now : Nat) (keys : List String)
    {p : Progress} (h : Accounts p.1 (before ++ p.2) processed)
    (hopens : ∀ i ∈ p.2, i.opens = false) :
    Accounts (keys.foldl (resetTarget sample now) p).1
        (before ++ (keys.foldl (resetTarget sample now) p).2) processed ∧
      ∀ i ∈ (keys.foldl (resetTarget sample now) p).2, i.opens = false := by
  induction keys generalizing p with
  | nil => exact ⟨h, hopens⟩
  | cons key rest ih => exact ih (resetTarget_accounts key h) (resetTarget_opens key hopens)

variable {lifecycle : ResourceAlertLifecycle}

/-- After the first loop the condition of every key in the map holds. -/
theorem resetLoop_holds (state : ResourceAlertEngineState) {k : String}
    (hget : ((state.resetKeys sample).foldl (resetTarget sample now)
      (state, [])).1.targets.get? k = some lifecycle) : sample.holds k = true := by
  rw [resetLoop_get?] at hget
  split at hget
  · cases hget
  rename_i hkept
  by_contra hnot
  refine hkept (mem_filter.mpr ⟨?_, by simp [hnot]⟩)
  exact mem_map_of_mem (f := Prod.fst) (mem_inOrder (e := (k, lifecycle)).mpr hget)

/-- An opened thermal alert is backed by samples over the whole delay. -/
def Backed (processed : List Processed) (now : Nat) (i : ResourceAlertIncident) : Prop :=
  i.opens = true → i.summary.state = .temperatureHigh →
    ∃ since, HeldSince processed i.summary.key since ∧
      since + THERMAL_ALERT_DURATION_MS ≤ now

/-- What the second loop keeps: the accounts, now with the sample among those
processed; that every key in the map is over its limit; and what backs the
openings. -/
structure Admitting (sample : ResourceAlertSample) (now : Nat)
    (before : List ResourceAlertIncident) (processed : List Processed) (progress : Progress) :
    Prop where
  accounts : Accounts progress.1 (before ++ progress.2) (processed ++ [⟨now, sample⟩])
  holds : ∀ key lifecycle, progress.1.targets.get? key = some lifecycle →
    sample.holds key = true
  backed : ∀ i ∈ progress.2, Backed (processed ++ [⟨now, sample⟩]) now i

variable {state : ResourceAlertEngineState}

theorem resetLoop_admitting (h : Accounts state before processed) :
    Admitting sample now before processed
      ((state.resetKeys sample).foldl (resetTarget sample now) (state, [])) := by
  have hstart : Accounts state (before ++ []) processed := by rwa [append_nil]
  have hreset := resetLoop_accounts sample now (state.resetKeys sample) (p := (state, []))
    hstart fun i hi => absurd hi not_mem_nil
  refine ⟨{ hreset.1 with held := ?_ }, ?_, ?_⟩
  · intro key lifecycle hget
    exact (hreset.1.held key lifecycle hget).extend (resetLoop_holds state hget)
  · intro key lifecycle hget
    exact resetLoop_holds state hget
  · intro i hi hopens
    rw [hreset.2 i hi] at hopens
    cases hopens

/-- The lifecycle a round works on is in the map or starts now. -/
theorem Admitting.heldSince (h : Admitting sample now before processed progress) {key : String}
    (hkey : sample.holds key = true) :
    HeldSince (processed ++ [⟨now, sample⟩]) key
      ((progress.1.targets.get? key).getD ⟨now, none, none⟩).candidateSinceMs := by
  cases hget : progress.1.targets.get? key with
  | none => exact ⟨[⟨now, sample⟩], ⟨processed, rfl⟩, forall_mem_singleton.mpr hkey, _, rfl, rfl⟩
  | some lifecycle => exact h.accounts.held key lifecycle hget

theorem activeId_getD (targets : AssocMap String ResourceAlertLifecycle) (key : String)
    (now : Nat) :
    ((targets.get? key).getD ⟨now, none, none⟩).active.map (·.incidentId) =
      activeId targets key := by
  unfold activeId
  cases targets.get? key <;> rfl

theorem Admitting.admitTarget (maxTargets : Nat) {entry : String × ResourceAlertTarget}
    (hentry : entry ∈ sample.targets.inOrder) (h : Admitting sample now before processed progress) :
    Admitting sample now before processed (admitTarget sample now maxTargets progress entry) := by
  obtain ⟨key, target⟩ := entry
  have htarget : sample.targets.get? key = some target := mem_inOrder.mp hentry
  unfold ResourceAlertEngineState.admitTarget
  dsimp only
  split
  · exact h
  rename_i hcondition
  split
  · exact h
  have hkey : sample.holds key = true := by
    rw [ResourceAlertSample.holds, htarget]
    simpa using hcondition
  have hheld := h.heldSince hkey
  have hid := activeId_getD progress.1.targets key now
  have hkeyed : ∀ summary,
      ((progress.1.targets.get? key).getD ⟨now, none, none⟩).active = some summary →
      summary.key = key := by
    intro summary hactive
    cases hget : progress.1.targets.get? key with
    | none => rw [hget] at hactive; cases hactive
    | some lifecycle =>
      rw [hget] at hactive
      exact h.accounts.keyed key lifecycle summary hget hactive
  generalize (progress.1.targets.get? key).getD ⟨now, none, none⟩ = lifecycle at hheld hid hkeyed
  split
  next summary hactive =>
    refine ⟨h.accounts.write ?_ ?_ hheld, forall_insert h.holds hkey, h.backed⟩
    · rw [← hid, hactive]
      rfl
    · intro summary' hsummary'
      cases hsummary'
      exact hkeyed summary hactive
  rename_i hidle
  split_ifs with hlong
  · refine ⟨h.accounts.write hid ?_ hheld, forall_insert h.holds hkey, h.backed⟩
    intro summary hsummary
    simp [hidle] at hsummary
  have hclosed : activeId progress.1.targets key = none := by rw [← hid, hidle]; rfl
  refine ⟨?_, forall_insert h.holds hkey, ?_⟩
  · rw [← append_assoc]
    exact h.accounts.open hclosed rfl rfl rfl hheld
  · refine forall_mem_append.mpr ⟨h.backed, forall_mem_singleton.mpr fun _ hthermal => ?_⟩
    refine ⟨lifecycle.candidateSinceMs, hheld, ?_⟩
    have hstate : target.state = .temperatureHigh := hthermal
    have hduration : resourceEntryDuration target = THERMAL_ALERT_DURATION_MS := by
      rw [resourceEntryDuration, hstate]
    have hpos : 0 < THERMAL_ALERT_DURATION_MS := by decide
    omega

/-- Both loops of a call keep the accounts. -/
theorem advance_admitting (h : Accounts state before processed) (sample : ResourceAlertSample)
    (maxTargets : Nat) :
    Admitting sample (max sample.observedAtMs state.lastObservedAtMs) before processed
      ((state.advance sample maxTargets).next, (state.advance sample maxTargets).incidents) := by
  have hnoted : Accounts { state with
      lastObservedAtMs := max sample.observedAtMs state.lastObservedAtMs } before processed :=
    { h with }
  exact List.foldlRecOn _ _ (resetLoop_admitting hnoted)
    fun _ hp _ hentry => hp.admitTarget _ hentry

end

end ResourceAlertEngineState

/-! ## The log -/

structure ResourceInput where
  sample : ResourceAlertSample
  maxTargets : Nat
  deriving Repr, DecidableEq

structure ResourceLog where
  state : ResourceAlertEngineState
  emitted : List ResourceAlertIncident
  processed : List Processed
  deriving Repr, DecidableEq

namespace ResourceLog

def start (nowMs : Nat) : ResourceLog := ⟨.healthy nowMs, [], []⟩

section

variable (l : ResourceLog) (x : ResourceInput)

def now : Nat := max x.sample.observedAtMs l.state.lastObservedAtMs

def result : ResourceAlertTransition := l.state.advance x.sample x.maxTargets

def step : ResourceLog where
  state := (l.result x).next
  emitted := l.emitted ++ (l.result x).incidents
  processed := l.processed ++ [⟨l.now x, x.sample⟩]

/-- What a call may announce and keep. -/
structure Law : Prop where
  /-- The active alerts are those opened and not yet resolved, one for a key. -/
  active : ∀ key id,
    (∃ summary ∈ (l.result x).active, summary.key = key ∧ summary.incidentId = id) ↔
      openAfter none (about key (l.step x).emitted) = some id
  active_nodup : ((l.result x).active.map (·.key)).Nodup
  /-- A thermal alert is opened only on samples over the whole delay. -/
  thermal : ∀ i ∈ (l.result x).incidents, i.resolvedAt = none →
    i.summary.state = .temperatureHigh →
      ∃ window, window <:+ l.processed ++ [⟨l.now x, x.sample⟩] ∧
        (∀ p ∈ window, p.sample.holds i.summary.key = true) ∧
        ∃ first ∈ window.head?, first.now + THERMAL_ALERT_DURATION_MS ≤ l.now x
  /-- Without its condition a key has no lifecycle. -/
  resets : ∀ key, x.sample.holds key = false → (l.result x).next.targets.get? key = none

end

section

variable {l : ResourceLog}

def Balanced (l : ResourceLog) : Prop := Accounts l.state l.emitted l.processed

theorem balanced_start (nowMs : Nat) : Balanced (start nowMs) where
  alternates _ := trivial
  opened _ := rfl
  keyed _ _ _ hget := by cases hget
  drawn := Drawn.start (by decide)
  held _ _ hget := by cases hget

theorem Balanced.admitting (h : Balanced l) (x : ResourceInput) :
    ResourceAlertEngineState.Admitting x.sample (l.now x) l.emitted l.processed
      ((l.result x).next, (l.result x).incidents) :=
  ResourceAlertEngineState.advance_admitting h x.sample x.maxTargets

theorem Balanced.step (h : Balanced l) (x : ResourceInput) : Balanced (l.step x) :=
  (h.admitting x).accounts

theorem mem_active {x : ResourceInput} {summary : ResourceAlertSummary} :
    summary ∈ (l.result x).active ↔
      ∃ key lifecycle, (l.result x).next.targets.get? key = some lifecycle ∧
        lifecycle.active = some summary := by
  have hactive : (l.result x).active =
    (l.result x).next.targets.inOrder.filterMap fun e => e.2.active := rfl
  rw [hactive, mem_filterMap]
  constructor
  · rintro ⟨e, he, hsummary⟩
    exact ⟨e.1, e.2, mem_inOrder.mp he, hsummary⟩
  · rintro ⟨key, lifecycle, hget, hsummary⟩
    exact ⟨(key, lifecycle), mem_inOrder.mpr hget, hsummary⟩

theorem Balanced.active_iff (h : Balanced l) (x : ResourceInput) (key id : String) :
    (∃ summary ∈ (l.result x).active, summary.key = key ∧ summary.incidentId = id) ↔
      openAfter none (about key (l.step x).emitted) = some id := by
  have haccounts := h.step x
  rw [haccounts.opened key]
  have hstate : (l.step x).state = (l.result x).next := rfl
  rw [hstate]
  constructor
  · rintro ⟨summary, hmem, hkey, hid⟩
    obtain ⟨key', lifecycle, hget, hactive⟩ := mem_active.mp hmem
    have hkey' : summary.key = key' := haccounts.keyed key' lifecycle summary hget hactive
    simp [← hkey, hkey', activeId_of_get? hget, hactive, ← hid]
  · intro hid
    obtain ⟨summary, hbind, rfl⟩ := Option.map_eq_some_iff.mp hid
    obtain ⟨lifecycle, hget, hactive⟩ := Option.bind_eq_some_iff.mp hbind
    exact ⟨summary, mem_active.mpr ⟨key, lifecycle, hget, hactive⟩,
      haccounts.keyed key lifecycle summary hget hactive, rfl⟩

/-- The keys of the active alerts are among the keys of the map, in their order. -/
theorem active_keys_sublist (entries : List (String × ResourceAlertLifecycle))
    (h : ∀ e ∈ entries, ∀ summary ∈ e.2.active, summary.key = e.1) :
    ((entries.filterMap fun e => e.2.active).map (·.key)).Sublist (entries.map Prod.fst) := by
  induction entries with
  | nil => exact Sublist.refl _
  | cons e rest ih =>
    have hrest := ih fun e' he' => h e' (mem_cons_of_mem _ he')
    rw [filterMap_cons]
    cases hsummary : e.2.active with
    | none => exact hrest.trans (sublist_cons_self _ _)
    | some summary =>
      rw [map_cons, h e mem_cons_self summary hsummary]
      exact hrest.cons_cons _

theorem Balanced.active_nodup (h : Balanced l) (x : ResourceInput) :
    ((l.result x).active.map (·.key)).Nodup := by
  refine inOrder_nodup.sublist (active_keys_sublist _ fun e he summary hs => ?_)
  exact (h.step x).keyed e.1 e.2 summary (mem_inOrder.mp he) hs

theorem Balanced.law (h : Balanced l) (x : ResourceInput) : l.Law x where
  active := h.active_iff x
  active_nodup := h.active_nodup x
  thermal i hi hopens hthermal := by
    have hopens' : i.opens = true := by rw [ResourceAlertIncident.opens, hopens]; rfl
    obtain ⟨since, ⟨window, hsuffix, hall, first, hfirst, hsince⟩, hlong⟩ :=
      (h.admitting x).backed i hi hopens' hthermal
    exact ⟨window, hsuffix, hall, first, hfirst, hsince ▸ hlong⟩
  resets key hkey := by
    by_contra hsome
    obtain ⟨lifecycle, hget⟩ := Option.ne_none_iff_exists'.mp hsome
    rw [(h.admitting x).holds key lifecycle hget] at hkey
    cases hkey

end

/-- **Per-target resource alerts.** In every run from a healthy engine the
announcements of every key alternate between opening and closing with the same id,
the ids of the openings differ as long as the counter has not saturated, and every
call obeys the law. -/
theorem resource_alert_law (nowMs : Nat) (inputs : List ResourceInput) :
    let l := run step (start nowMs) inputs
    (∀ key, Alternates none (about key l.emitted)) ∧
      ((openingIds l.emitted).length ≤ U64_MAX → (openingIds l.emitted).Nodup) ∧
      ∀ x, l.Law x := by
  have hbalanced : Balanced (run step (start nowMs) inputs) :=
    invariant_run_all (fun _ x h => h.step x) inputs (balanced_start nowMs)
  exact ⟨hbalanced.alternates, hbalanced.drawn.nodup, hbalanced.law⟩

end ResourceLog

end DamHopper.System
