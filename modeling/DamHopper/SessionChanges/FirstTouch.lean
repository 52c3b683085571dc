import DamHopper.SessionChanges.Baselines

/-!
# SessionChanges — first-touch baselines

What is stored as the state of a file before the session touched it must have been read
before anyone could have changed it: by the request that named the path first, soon enough,
and with no other request naming the path in between. `Authentic` says so about a whole
history of lock scopes.

Two checks are missing in the source. The second scope of a capture does not look again
whether the record still carries the baseline it was admitted for; and a path that another
request reports as unproven stays reserved.
-/

namespace DamHopper.SessionChanges

open SessionChangesService List

namespace Tracking

def capture? : Input → Option Nat
  | .admission i => some i
  | .proceed i _ _ => some i
  | .adopt i _ _ => some i
  | _ => none

/-- A request leaves records alone that do not carry the baseline it names. -/
def Owns (s : Tracking) (input : Input) : Prop :=
  ∀ i task, capture? input = some i → s.captures[i]? = some task → ∀ key record,
    s.service.records.get? key = some record → record.baselineId ≠ task.req.baselineId →
    (s.step input).service.records.get? key = some record

/-- The second scope of a request finds the record it was admitted for, or ignores every
path. -/
def OwnRecord (s : Tracking) : Input → Prop
  | .proceed i _ _ =>
    s.purging = true ∨ match s.captures[i]? with
    | some ⟨key, req, .admitted generation⟩ =>
      match s.service.findRecord key generation with
      | .ok record => record.baselineId = req.baselineId ∨
          ∀ rawPath ∈ req.paths, match normalizeAndValidatePath rawPath with
            | .ok path => record.Ignores req path
            | .error _ => True
      | .error _ => True
    | _ => True
  | _ => True

instance (s : Tracking) (input : Input) : Decidable (s.OwnRecord input) := by
  unfold OwnRecord
  repeat' first
    | infer_instance
    | split
    | refine @instDecidableOr _ _ inferInstance ?_
    | refine @List.decidableBAll _ _ (fun rawPath => ?_) _

section

variable (serverEpoch : String)

/-! ## The four parts of the property -/

variable {front mid : List Input} {key : SessionChangesKey} {baselineId path : String}

theorem acknowledges_once {input : Input} (hfresh : FreshIds (front ++ input :: mid))
    (h : (after serverEpoch front).Acknowledges input key baselineId path) {input' : Input} :
    ¬ (after serverEpoch (front ++ input :: mid)).Acknowledges input' key baselineId path := by
  intro hagain
  obtain ⟨_, entry, hentry, hknown⟩ := h
  obtain ⟨record, hrecord, hget⟩ := entryOf_eq_some_iff.mp hentry
  have hsealed := (((proper_after serverEpoch front).step input) key record
    (recordOf_eq_some_iff.mp hrecord).1 path entry hget).settled hknown
  obtain ⟨_, _, _, _, _, _, _, _, waiting, _, _, _, _, hopen, hpending, _⟩ :=
    acknowledges_cases (proper_after serverEpoch _) hagain
  obtain ⟨record', hrecord', hget'⟩ := entryOf_eq_some_iff.mp hopen
  rw [append_cons] at hfresh hrecord'
  rw [← after_snoc] at hrecord
  rw [after_append] at hrecord'
  have hlater := entry_run (P := fun before => ∃ entry, before = some entry ∧
      entry.reservation = .sealed) (fun s input before after hstep => hstep.sealed)
    (later_uuid?_ne serverEpoch hfresh hrecord) (proper_after serverEpoch _)
    (fun other hother => by
      cases hrecord.symm.trans hother
      exact ⟨entry, hget, hsealed⟩) hrecord'
  obtain ⟨closed, hclosed, hsealed'⟩ := hlater
  rw [hget'] at hclosed
  cases hclosed
  rw [hsealed'] at hpending
  cases hpending

/-- A path becomes acknowledged by the probe of the request that reserved it, in time; in
between other requests have at most reported it as unproven. -/
theorem acknowledges_reserved (hfresh : FreshIds front) {input : Input}
    (h : (after serverEpoch front).Acknowledges input key baselineId path) :
    ∃ early reserve mid i probe now reservedAt, front = early ++ reserve :: mid ∧
      input = .adopt i probe now ∧
      Reserves (after serverEpoch early) reserve i key baselineId path reservedAt ∧
      now ≤ reservedAt + CAPTURE_TIMEOUT_DEADLINE ∧
      EveryStep step (fun s x => ∀ j, j ≠ i → Touches s key path j x → Reports s key path j x)
        (after serverEpoch (early ++ [reserve])) mid := by
  obtain ⟨i, probe, now, req, generation, fileId, rest, results, entry, reservedAt, rfl, htask,
    _, hentry, hpending, hyoung⟩ := acknowledges_cases (proper_after serverEpoch front) h
  obtain ⟨early, reserve, mid, i', hsplit, hreserves, ⟨task', htask', hid'⟩, htouches⟩ :=
    reservedBy serverEpoch hfresh hentry hpending
  have hmode : req.mode = .preEdit :=
    (probed serverEpoch hfresh i _ htask path mem_cons_self).1
  have hid : req.preEditId? = some req.captureId := by rw [CaptureRequest.preEditId?, hmode]
  have hsame : i' = i :=
    (drawn serverEpoch hfresh).distinct i' i task' _ req.captureId htask' htask hid' hid
  rw [hsame] at hreserves htouches
  exact ⟨early, reserve, mid, i, probe, now, reservedAt, hsplit, rfl, hreserves, hyoung, htouches⟩

/-- An acknowledged entry stays as it is until an `Unproven` request of its own capture takes
it back for good. -/
theorem acknowledged_kept (hfresh : FreshIds (front ++ mid)) {entry : TrackedPathEntry}
    {record' : SessionChangesRecord}
    (hentry : (after serverEpoch front).entryOf key baselineId path = some entry)
    (hknown : entry.acknowledged = true)
    (hrecord' : (after serverEpoch (front ++ mid)).recordOf key baselineId = some record') :
    ∃ entry', record'.trackedPaths.get? path = some entry' ∧
      (entry' = entry ∨ (entry'.presence = .unknown ∧ entry'.bytes = none ∧
        ∃ early input late captureId, mid = early ++ input :: late ∧
          entry.lastCaptureId = some captureId ∧
          Withdraws (after serverEpoch (front ++ early)) input key captureId)) := by
  induction mid generalizing front with
  | nil =>
    rw [append_nil] at hrecord'
    obtain ⟨record, hrecord, hget⟩ := entryOf_eq_some_iff.mp hentry
    rw [hrecord'] at hrecord
    cases hrecord
    exact ⟨entry, hget, .inl rfl⟩
  | cons input mid ih =>
    have hproper := proper_after serverEpoch front
    obtain ⟨record, hrecord, hget⟩ := entryOf_eq_some_iff.mp hentry
    have hold := later_uuid?_ne serverEpoch hfresh hrecord
    have hrest : ∀ x ∈ mid, x.uuid? ≠ some baselineId :=
      fun x hx => hold x (mem_cons_of_mem _ hx)
    rw [append_cons, after_append] at hrecord'
    obtain ⟨next, hnext⟩ := record_run hrest (proper_after serverEpoch _) hrecord'
    have hnext' := hnext
    rw [after_snoc] at hnext'
    obtain ⟨before, hbefore, _, hsteps⟩ :=
      entry_step hproper (hold input mem_cons_self) path hnext'
    cases hrecord.symm.trans hbefore
    rw [hget] at hsteps
    generalize hafter : next.trackedPaths.get? path = after' at hsteps
    cases hsteps with
    | kept =>
      have hentry' := entryOf_eq_some_iff.mpr ⟨next, hnext, hafter⟩
      rw [append_cons] at hfresh
      rw [← after_append] at hrecord'
      obtain ⟨entry', hget', hcases⟩ := ih hfresh hentry' hrecord'
      refine ⟨entry', hget', ?_⟩
      rcases hcases with hsame | ⟨hunknown, hbytes, early, x, late, captureId, rfl, hlast, hx⟩
      · exact .inl hsame
      refine .inr ⟨hunknown, hbytes, input :: early, x, late, captureId, rfl, hlast, ?_⟩
      rw [append_cons]
      exact hx
    | closed _ hmine hsealed hunknown _ =>
      -- taken back here, and closed from here on
      obtain ⟨captureId, hlast, hwithdraws⟩ := hmine hknown
      have hlater := entry_run (P := fun before => ∃ entry, before = some entry ∧
          entry.reservation = .sealed ∧ entry.acknowledged = false)
        (fun s input before after hstep => hstep.givenUp) hrest
        (proper_after serverEpoch _)
        (fun other hother => by
          cases hnext.symm.trans hother
          exact ⟨_, hafter, hsealed, hunknown⟩) hrecord'
      obtain ⟨entry', hget', _, hunknown'⟩ := hlater
      rw [← after_append] at hrecord'
      have hblank := (proper_after serverEpoch _ key record'
        (recordOf_eq_some_iff.mp hrecord').1 path entry' hget').blank hunknown'
      refine ⟨entry', hget', .inr ⟨hblank.1, hblank.2, [], input, mid, captureId, rfl, hlast, ?_⟩⟩
      rw [append_nil]
      exact hwithdraws
    | acknowledged _ _ hown _ _ _ =>
      obtain ⟨reservedAt, hpending, _⟩ := hown
      have hsealed := (hproper key record (recordOf_eq_some_iff.mp hrecord).1 path entry
        hget).settled hknown
      simp [hsealed] at hpending

end

/-- What another record looks like after a scope has been closed. -/
theorem get?_closeScope_of_ne {service : SessionChangesService} {key key' : SessionChangesKey}
    {scope : PathScope} (hne : key' ≠ key) :
    (service.closeScope key scope).records.get? key' = service.records.get? key' :=
  AssocMap.get?_insert_of_ne _ _ hne

variable {s : Tracking} {input : Input} {i : Nat}

theorem owns_adopt {probe : ProbeResult} {now : Nat} :
    s.Owns (.adopt i probe now) := by
  rintro i' task ⟨⟩ htask key record hget hne
  have hchange := step_change s (.adopt i probe now)
  generalize (s.step (.adopt i probe now)).service = service at hchange ⊢
  cases hchange with
  | same => exact hget
  | @adopted _ generation _ _ key' req path fileId rest results found hfree htask' hfound =>
    cases htask.symm.trans htask'
    by_cases heq : key = key'
    · obtain ⟨hrecord, hbaseline⟩ := findBaseline_ok hfound
      have hsame := findRecord_get? hrecord
      rw [← heq, hget] at hsame
      cases hsame
      exact absurd hbaseline hne
    · rw [get?_closeScope_of_ne heq]
      exact hget

/-- A request leaves records of other baselines alone exactly if its second scope finds its
own or ignores every path. -/
theorem owns_proceed_iff {newFileId : String → String} {now : String → Nat} :
    s.Owns (.proceed i newFileId now) ↔ s.OwnRecord (.proceed i newFileId now) := by
  constructor
  · intro h
    by_cases hpurging : s.purging = true
    · exact .inl hpurging
    refine .inr ?_
    split
    next key req generation htask =>
      split
      next record hrecord =>
        by_cases hbaseline : record.baselineId = req.baselineId
        · exact .inl hbaseline
        refine .inr ?_
        have hget := findRecord_get? hrecord
        have hsame := h i _ rfl htask key record hget hbaseline
        rw [step_proceed_service (Bool.eq_false_of_not_eq_true hpurging) htask hrecord,
          closeScope, AssocMap.get?_insert_self] at hsame
        have hignores := (PathScope.handlePaths_record_eq_iff _ req newFileId now
          req.paths).mp (Option.some.inj hsame)
        intro rawPath hraw
        split
        · rename_i path hpath
          exact hignores rawPath hraw path hpath
        · trivial
      · trivial
    · trivial
  · rintro h i' task ⟨⟩ htask key record hget hne
    have hchange := step_change s (.proceed i newFileId now)
    generalize (s.step (.proceed i newFileId now)).service = service at hchange ⊢
    cases hchange with
    | same => exact hget
    | @proceeded _ generation _ _ key' req found hfree htask' hfound =>
      cases htask.symm.trans htask'
      by_cases heq : key = key'
      · have hsame := findRecord_get? hfound
        rw [← heq, hget] at hsame
        cases hsame
        rw [heq, closeScope, AssocMap.get?_insert_self]
        rcases h with hpurging | h
        · simp [hfree] at hpurging
        rw [htask] at h
        simp only [hfound] at h
        rcases h with hbaseline | hignores
        · exact absurd hbaseline hne
        refine congrArg some ((PathScope.handlePaths_record_eq_iff _ req newFileId now
          req.paths).mpr fun rawPath hraw path hpath => ?_)
        have hthis := hignores rawPath hraw
        rw [hpath] at hthis
        exact hthis
      · rw [get?_closeScope_of_ne heq]
        exact hget

theorem owns_iff : s.Owns input ↔ s.OwnRecord input := by
  cases input with
  | admission i =>
    refine iff_of_true (fun i' task hi htask key record hget hne => ?_) trivial
    have hchange := step_change s (.admission i)
    generalize (s.step (.admission i)).service = service at hchange ⊢
    cases hchange with
    | same => exact hget
  | proceed i newFileId now => exact owns_proceed_iff
  | adopt i probe now => exact iff_of_true owns_adopt trivial
  | _ => exact iff_of_true (fun i task hi => by cases hi) trivial

/-! ## Authentic histories -/

section

variable (serverEpoch : String)

/-- The input ends the probe of the request that reserved the path, not later than the
deadline, and no other request has touched the path in between. -/
def FirstTouch (front : List Input) (input : Input) (key : SessionChangesKey)
    (baselineId path : String) : Prop :=
  ∃ early reserve mid i probe now reservedAt, front = early ++ reserve :: mid ∧
    input = .adopt i probe now ∧
    Reserves (after serverEpoch early) reserve i key baselineId path reservedAt ∧
    now ≤ reservedAt + CAPTURE_TIMEOUT_DEADLINE ∧
    EveryStep step (fun s x => ∀ j, j ≠ i → ¬ Touches s key path j x)
      (after serverEpoch (early ++ [reserve])) mid

/-- First-touch baselines are authentic along a history. -/
structure Authentic (inputs : List Input) : Prop where
  once : ∀ front input mid input' back key baselineId path,
    inputs = front ++ input :: (mid ++ input' :: back) →
    (after serverEpoch front).Acknowledges input key baselineId path →
    ¬ (after serverEpoch (front ++ input :: mid)).Acknowledges input' key baselineId path
  firstTouch : ∀ front input back key baselineId path, inputs = front ++ input :: back →
    (after serverEpoch front).Acknowledges input key baselineId path →
    FirstTouch serverEpoch front input key baselineId path
  kept : ∀ front mid back key baselineId path entry record', inputs = front ++ mid ++ back →
    (after serverEpoch front).entryOf key baselineId path = some entry →
    entry.acknowledged = true →
    (after serverEpoch (front ++ mid)).recordOf key baselineId = some record' →
    ∃ entry', record'.trackedPaths.get? path = some entry' ∧
      ((entry'.presence = entry.presence ∧ entry'.bytes = entry.bytes) ∨
        (entry'.presence = .unknown ∧ entry'.bytes = none ∧
          ∃ early input late captureId, mid = early ++ input :: late ∧
            entry.lastCaptureId = some captureId ∧
            Withdraws (after serverEpoch (front ++ early)) input key captureId))
  owned : EveryStep step Owns (new serverEpoch) inputs

/-- Between its reservation and its acknowledgement a path is not reported as unproven by
another request. -/
def Unreported (inputs : List Input) : Prop :=
  ∀ front input back key baselineId path, inputs = front ++ input :: back →
    (after serverEpoch front).Acknowledges input key baselineId path →
    ∀ early reserve mid i reservedAt, front = early ++ reserve :: mid →
      Reserves (after serverEpoch early) reserve i key baselineId path reservedAt →
      EveryStep step (fun s x => ∀ j, j ≠ i → ¬ Reports s key path j x)
        (after serverEpoch (early ++ [reserve])) mid

theorem Reports.touches {key : SessionChangesKey} {path : String}
    (h : Reports s key path i input) : Touches s key path i input := by
  cases h with
  | unproven hfree htask hrecord _ hnamed hpath => exact .named hfree htask hrecord hnamed hpath

/-- **Baselines are authentic exactly along the histories in which no second scope works on
a record that has been registered anew since its admission, and no path is reported as
unproven by another request while it is reserved.** What is acknowledged is in any case
acknowledged once, by the request that reserved it and in time, and stays as it is until that
capture itself is taken back. -/
theorem authentic_iff {inputs : List Input} (hfresh : FreshIds inputs) :
    Authentic serverEpoch inputs ↔
      EveryStep step OwnRecord (new serverEpoch) inputs ∧ Unreported serverEpoch inputs := by
  have howned : EveryStep step Owns (new serverEpoch) inputs ↔
      EveryStep step OwnRecord (new serverEpoch) inputs :=
    everyStep_congr (I := fun _ => True) (fun _ _ _ => trivial) (fun s input _ => owns_iff)
      trivial inputs
  constructor
  · intro h
    refine ⟨howned.mp h.owned, ?_⟩
    intro front input back key baselineId path hsplit hacks early reserve mid i reservedAt hfront
      hreserves
    obtain ⟨early', reserve', mid', i', probe, now, reservedAt', hfront', _, hreserves', _,
      htouches⟩ := h.firstTouch front input back key baselineId path hsplit hacks
    rw [hsplit] at hfresh
    have hfresh := hfresh.front
    rw [hfront] at hfresh
    obtain ⟨rfl, rfl, rfl⟩ :=
      Reserves.split_eq serverEpoch hfresh (hfront.symm.trans hfront') hreserves hreserves'
    obtain ⟨_, _, _, _, _, hinput, _⟩ := hreserves.reserved
    obtain ⟨_, _, _, _, _, hinput', _⟩ := hreserves'.reserved
    cases hinput.symm.trans hinput'
    exact htouches.mono fun s x hnone j hj hreports => hnone j hj hreports.touches
  · rintro ⟨hown, hunreported⟩
    constructor
    · intro front input mid input' back key baselineId path hsplit hacks
      have hfresh' : FreshIds ((front ++ input :: mid) ++ input' :: back) := by
        rw [hsplit] at hfresh
        simpa using hfresh
      exact acknowledges_once serverEpoch hfresh'.front hacks
    · intro front input back key baselineId path hsplit hacks
      have hfront : FreshIds front := by
        rw [hsplit] at hfresh
        exact hfresh.front
      obtain ⟨early, reserve, mid, i, probe, now, reservedAt, heq, hinput, hreserves, hyoung,
        htouches⟩ := acknowledges_reserved serverEpoch hfront hacks
      refine ⟨early, reserve, mid, i, probe, now, reservedAt, heq, hinput, hreserves, hyoung, ?_⟩
      have hnone := hunreported front input back key baselineId path hsplit hacks early reserve
        mid i reservedAt heq hreserves
      exact (htouches.and hnone).mono fun s x hboth j hj htouch =>
        hboth.2 j hj (hboth.1 j hj htouch)
    · intro front mid back key baselineId path entry record' hsplit hentry hknown hrecord'
      rw [hsplit] at hfresh
      obtain ⟨entry', hget', hcases⟩ :=
        acknowledged_kept serverEpoch hfresh.front hentry hknown hrecord'
      refine ⟨entry', hget', ?_⟩
      rcases hcases with rfl | htaken
      · exact .inl ⟨rfl, rfl⟩
      · exact .inr htaken
    · exact howned.mpr hown

/-! ## Histories without `Unproven` requests, and two that are not authentic -/

def isUnproven : Input → Bool
  | .beginCapture _ _ req => req.mode = .unproven
  | _ => false

theorem unreported_of_preEdit {inputs : List Input}
    (h : ∀ input ∈ inputs, isUnproven input = false) : Unreported serverEpoch inputs := by
  let AllPreEdit (s : Tracking) : Prop :=
    ∀ (i : Nat) (task : CaptureTask), s.captures[i]? = some task → task.req.mode = .preEdit
  have hstep : ∀ s input, AllPreEdit s → isUnproven input = false → AllPreEdit (s.step input) := by
    intro s input hs hinput i task' htask'
    rcases task_step htask' with ⟨task, htask, hnext⟩ | ⟨_, _, _, _, rfl⟩
    · rw [hnext.req_eq]
      exact hs i task htask
    · cases hmode : task'.req.mode with
      | preEdit => rfl
      | unproven => simp [isUnproven, hmode] at hinput
  intro front input back key baselineId path hsplit _ early reserve mid i reservedAt hfront _
  have hearly : ∀ x ∈ early ++ [reserve], isUnproven x = false := by
    intro x hx
    apply h
    rw [hsplit, hfront]
    simp only [mem_append, mem_cons, not_mem_nil, or_false] at hx ⊢
    exact .inl (hx.imp id .inl)
  have hmid : ∀ x ∈ mid, isUnproven x = false := by
    intro x hx
    apply h
    simp [hsplit, hfront, hx]
  have hstart : AllPreEdit (after serverEpoch (early ++ [reserve])) :=
    invariant_run hstep nofun (everyStep_forall_iff.mpr hearly)
  refine EveryStep.under hstep (fun s x hs _ j _ hreports => ?_) hstart
    (everyStep_forall_iff.mpr hmid)
  cases hreports with
  | unproven _ htask _ hmode _ _ =>
    rw [hs j _ htask] at hmode
    cases hmode

end

def sampleKey : SessionChangesKey := ⟨"t", "1", "s", "."⟩

def sampleRequest (captureId : String) (mode : CaptureMode) : CaptureRequest :=
  ⟨1, "e", "1", "s", ".", "b", captureId, ["a"], mode⟩

def sampleRegister (i : Nat) (uuid : String) : List Input :=
  [.beginRegister "t" "1" ⟨1, "s", "."⟩ (.ok "/r"), .register i uuid 0 true]

def sampleReserve : List Input :=
  [.enable] ++ sampleRegister 0 "b" ++
    [.beginCapture "t" "1" (sampleRequest "c" .preEdit), .admission 0]

def sampleAdopt : Input := .adopt 0 (.present [1] 1 "h" none .text) 5

def sampleProceed (i : Nat) : Input := .proceed i (fun _ => "f") (fun _ => 0)

def plain : List Input := sampleReserve ++ [sampleProceed 0, sampleAdopt]

theorem authentic_iff_plain : FreshIds plain ∧
    (after "e" plain).Acknowledged sampleKey "b" "a" ∧ Authentic "e" plain := by
  refine ⟨by decide, ⟨_, rfl, rfl⟩, ?_⟩
  exact (authentic_iff "e" (by decide)).mpr ⟨by decide, unreported_of_preEdit "e" (by decide)⟩

/-- Between its admission and its second scope the terminal is removed and the session is
registered again: the request writes into the new record. -/
def crossing : List Input :=
  sampleReserve ++ [.removeTerminalRecords "t" "1"] ++ sampleRegister 1 "b'" ++ [sampleProceed 0]

/-- Another request reports the path as unproven while its probe is on the way. -/
def reported : List Input :=
  sampleReserve ++ [sampleProceed 0, .beginCapture "t" "1" (sampleRequest "d" .unproven),
    .admission 1, sampleProceed 1] ++ [sampleAdopt]

theorem crossing_not_authentic : ¬ Authentic "e" crossing := by
  intro h
  have howned := (everyStep_congr (I := fun _ => True) (fun _ _ _ => trivial)
    (fun s input _ => owns_iff) trivial crossing).mp h.owned
  exact absurd howned (by decide)

theorem reported_not_authentic : ¬ Authentic "e" reported := by
  intro h
  let others : List Input := [.beginCapture "t" "1" (sampleRequest "d" .unproven),
    .admission 1, sampleProceed 1]
  have hacks : (after "e" (sampleReserve ++ sampleProceed 0 :: others)).Acknowledges sampleAdopt
      sampleKey "b" "a" := by
    refine ⟨?_, _, rfl, rfl⟩
    rintro ⟨entry, ⟨⟩, hknown⟩
    cases hknown
  have hreserves : Reserves (after "e" sampleReserve) (sampleProceed 0) 0 sampleKey "b" "a" 0 :=
    ⟨⟨_, rfl, rfl⟩, _, _, sampleRequest "c" .preEdit, 1, _, rfl, rfl, rfl, rfl, rfl, rfl⟩
  obtain ⟨early, reserve, mid, i, probe, now, reservedAt, hsplit, hinput, hreserves', _,
    htouches⟩ := h.firstTouch _ sampleAdopt [] sampleKey "b" "a" rfl hacks
  obtain ⟨rfl, rfl, rfl⟩ := Reserves.split_eq "e" (by decide) hsplit hreserves hreserves'
  cases hinput
  exact htouches.2.2.1 1 (by decide) (.named rfl rfl rfl mem_cons_self rfl)

/-- Ids are fresh in both histories, and neither is authentic. -/
theorem crossing_reported_not_authentic : (FreshIds crossing ∧ ¬ Authentic "e" crossing) ∧
      FreshIds reported ∧ ¬ Authentic "e" reported :=
  ⟨⟨by decide, crossing_not_authentic⟩, by decide, reported_not_authentic⟩

end Tracking

end DamHopper.SessionChanges
