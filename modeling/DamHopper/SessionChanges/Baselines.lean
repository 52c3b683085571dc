import DamHopper.SessionChanges.Entries

/-!
# SessionChanges — where a reservation comes from

Along a history of lock scopes a record is known by its key and its baseline id, which is
drawn once. Each entry that is reserved is traced back to the input that reserved it
(`reservedBy`): there is one such input, and while the path stays reserved other requests can
only have reported it as unproven.
-/

namespace DamHopper.SessionChanges

open SessionChangesService List
open PathScope (handlePath)

def Input.uuid? : Input → Option String
  | .register _ uuid _ _ => some uuid
  | _ => none

def CaptureRequest.preEditId? (req : CaptureRequest) : Option String :=
  match req.mode with
  | .preEdit => some req.captureId
  | .unproven => none

def Input.preEditId? : Input → Option String
  | .beginCapture _ _ req => req.preEditId?
  | _ => none

/-- No baseline id is drawn twice, and no two `PreEdit` requests have the same capture id. -/
@[mk_iff] structure FreshIds (inputs : List Input) : Prop where
  baselines : (inputs.filterMap Input.uuid?).Nodup
  captures : (inputs.filterMap Input.preEditId?).Nodup

instance (inputs : List Input) : Decidable (FreshIds inputs) :=
  decidable_of_iff' _ (freshIds_iff inputs)

theorem FreshIds.front {front back : List Input} (h : FreshIds (front ++ back)) :
    FreshIds front := by
  obtain ⟨hbaselines, hcaptures⟩ := h
  rw [filterMap_append] at hbaselines hcaptures
  exact ⟨hbaselines.of_append_left, hcaptures.of_append_left⟩

variable {f : Input → Option String} {input : Input} {x : String}

/-- What has been drawn is not drawn again. -/
theorem ne_of_nodup_filterMap {front back : List Input}
    (h : ((front ++ back).filterMap f).Nodup) (hdrawn : x ∈ front.filterMap f) :
    ∀ input ∈ back, f input ≠ some x := by
  intro input hinput hagain
  rw [filterMap_append] at h
  exact (nodup_append.mp h).2.2 _ hdrawn _ (mem_filterMap.mpr ⟨input, hinput, hagain⟩) rfl

theorem FreshIds.uuid?_ne {front back : List Input} (h : FreshIds (front ++ back))
    {baselineId : String} (hdrawn : baselineId ∈ front.filterMap Input.uuid?) :
    ∀ input ∈ back, input.uuid? ≠ some baselineId :=
  ne_of_nodup_filterMap h.baselines hdrawn

/-- The id of a new request is none of those drawn before. -/
theorem FreshIds.preEditId?_notMem {front : List Input}
    (h : FreshIds (front ++ [input])) {captureId : String}
    (hid : input.preEditId? = some captureId) : captureId ∉ front.filterMap Input.preEditId? :=
  fun hold => ne_of_nodup_filterMap h.captures hold input (mem_singleton.mpr rfl) hid

namespace Tracking

def recordOf (s : Tracking) (key : SessionChangesKey) (baselineId : String) :
    Option SessionChangesRecord :=
  (s.service.records.get? key).filter fun record => record.baselineId = baselineId

def entryOf (s : Tracking) (key : SessionChangesKey) (baselineId path : String) :
    Option TrackedPathEntry :=
  (s.recordOf key baselineId).bind fun record => record.trackedPaths.get? path

def Acknowledged (s : Tracking) (key : SessionChangesKey) (baselineId path : String) : Prop :=
  ∃ entry, s.entryOf key baselineId path = some entry ∧ entry.acknowledged = true

def Acknowledges (s : Tracking) (input : Input) (key : SessionChangesKey)
    (baselineId path : String) : Prop :=
  ¬ s.Acknowledged key baselineId path ∧ (s.step input).Acknowledged key baselineId path

/-- The path, which is not tracked, is reserved for a request. -/
structure Reserves (s : Tracking) (input : Input) (i : Nat) (key : SessionChangesKey)
    (baselineId path : String) (reservedAt : Nat) : Prop where
  untracked : ∃ record, s.recordOf key baselineId = some record ∧
    record.trackedPaths.get? path = none
  reserved : ∃ newFileId now req generation entry, input = .proceed i newFileId now ∧
    s.captures[i]? = some ⟨key, req, .admitted generation⟩ ∧ req.mode = .preEdit ∧
    reservedAt = now path ∧ (s.step input).entryOf key baselineId path = some entry ∧
    entry.reservation = .pending req.captureId reservedAt

/-- A scope of a request reaches a path: because the request names it, or because it has
probed it. -/
inductive Touches (s : Tracking) (key : SessionChangesKey) (path : String) (i : Nat) :
    Input → Prop
  | named {newFileId : String → String} {now : String → Nat} {req : CaptureRequest}
      {generation : Nat} {record : SessionChangesRecord} {rawPath : String} :
      s.purging = false → s.captures[i]? = some ⟨key, req, .admitted generation⟩ →
      s.service.findRecord key generation = .ok record → rawPath ∈ req.paths →
      normalizeAndValidatePath rawPath = .ok path →
      Touches s key path i (.proceed i newFileId now)
  | probed {probe : ProbeResult} {now generation : Nat} {req : CaptureRequest} {fileId : String}
      {rest : List (String × String)} {results : List PathCaptureDisposition}
      {record : SessionChangesRecord} :
      s.purging = false →
      s.captures[i]? = some ⟨key, req, .probing generation path fileId rest results⟩ →
      s.service.findBaseline key generation req.baselineId = .ok record →
      Touches s key path i (.adopt i probe now)

inductive Reports (s : Tracking) (key : SessionChangesKey) (path : String) (i : Nat) :
    Input → Prop
  | unproven {newFileId : String → String} {now : String → Nat} {req : CaptureRequest}
      {generation : Nat} {record : SessionChangesRecord} {rawPath : String} :
      s.purging = false → s.captures[i]? = some ⟨key, req, .admitted generation⟩ →
      s.service.findRecord key generation = .ok record → req.mode = .unproven →
      rawPath ∈ req.paths → normalizeAndValidatePath rawPath = .ok path →
      Reports s key path i (.proceed i newFileId now)

/-! ## Records and entries by their baseline -/

section

variable {s : Tracking} {key : SessionChangesKey} {record record' : SessionChangesRecord}
  {baselineId path : String} {entry : TrackedPathEntry} {input : Input} {i j : Nat}

theorem recordOf_eq_some_iff : s.recordOf key baselineId = some record ↔
    s.service.records.get? key = some record ∧ record.baselineId = baselineId := by
  rw [recordOf]
  simp

theorem entryOf_eq_some_iff : s.entryOf key baselineId path = some entry ↔
    ∃ record, s.recordOf key baselineId = some record ∧
      record.trackedPaths.get? path = some entry :=
  Option.bind_eq_some_iff

/-- A record was there before the input, unless its baseline is drawn by it. -/
theorem recordOf_step (hproper : s.Proper)
    (h : (s.step input).recordOf key baselineId = some record') :
    (∃ record, s.recordOf key baselineId = some record ∧ RecordStep s key record input record' ∧
      ∀ path, EntryStep s key baselineId path input (record.trackedPaths.get? path)
        (record'.trackedPaths.get? path)) ∨
    input.uuid? = some baselineId ∧ ∀ path, record'.trackedPaths.get? path = none := by
  obtain ⟨hget, rfl⟩ := recordOf_eq_some_iff.mp h
  rcases record_step hget with ⟨record, hrecord, hstep⟩ | ⟨_, i, uuid, _, _, _, _, rfl, rfl⟩
  · refine .inl ⟨record, recordOf_eq_some_iff.mpr ⟨hrecord, hstep.baselineId.symm⟩, hstep, ?_⟩
    rw [hstep.baselineId]
    exact hstep.entryStep (hproper key record hrecord)
  · exact .inr ⟨rfl, fun _ => rfl⟩

/-- **Where an entry comes from**: as long as its baseline is not drawn again, the record
was there before the input. -/
theorem entry_step (hproper : s.Proper) (hold : input.uuid? ≠ some baselineId) (path : String)
    (h : (s.step input).recordOf key baselineId = some record') :
    ∃ record, s.recordOf key baselineId = some record ∧ RecordStep s key record input record' ∧
      EntryStep s key baselineId path input (record.trackedPaths.get? path)
        (record'.trackedPaths.get? path) := by
  rcases recordOf_step hproper h with ⟨record, hrecord, hstep, hentry⟩ | ⟨hnew, _⟩
  · exact ⟨record, hrecord, hstep, hentry path⟩
  · exact absurd hnew hold

/-- The record of a tracked path was there before the input: a new one tracks nothing. -/
theorem entryOf_step (hproper : s.Proper)
    (h : (s.step input).entryOf key baselineId path = some entry) :
    (∃ record, s.recordOf key baselineId = some record) ∧
      EntryStep s key baselineId path input (s.entryOf key baselineId path) (some entry) := by
  obtain ⟨record', hrecord', hget'⟩ := entryOf_eq_some_iff.mp h
  rcases recordOf_step hproper hrecord' with ⟨record, hrecord, _, hentry⟩ | ⟨_, hnone⟩
  · refine ⟨⟨record, hrecord⟩, ?_⟩
    rw [entryOf, hrecord, ← hget']
    exact hentry path
  · rw [hnone] at hget'
    cases hget'

variable {inputs : List Input}

/-- What the steps of an entry preserve holds of it later on, until its record is gone. -/
theorem entry_run {P : Option TrackedPathEntry → Prop} (hstep : ∀ s input before after,
      EntryStep s key baselineId path input before after → P before → P after)
    (hold : ∀ input ∈ inputs, input.uuid? ≠ some baselineId) (hproper : s.Proper)
    (hs : ∀ record, s.recordOf key baselineId = some record → P (record.trackedPaths.get? path))
    (hrecord : (run step s inputs).recordOf key baselineId = some record) :
    P (record.trackedPaths.get? path) := by
  induction inputs generalizing s with
  | nil => exact hs record hrecord
  | cons input rest ih =>
    refine ih (fun x hx => hold x (mem_cons_of_mem _ hx)) (hproper.step input) ?_ hrecord
    intro record' hrecord'
    obtain ⟨before, hbefore, _, hentry⟩ :=
      entry_step hproper (hold input mem_cons_self) path hrecord'
    exact hstep s input _ _ hentry (hs before hbefore)

/-- A record that is there was there before, unless its baseline has been drawn since. -/
theorem record_run (hold : ∀ input ∈ inputs, input.uuid? ≠ some baselineId) (hproper : s.Proper)
    (h : (run step s inputs).recordOf key baselineId = some record) :
    ∃ before, s.recordOf key baselineId = some before := by
  by_contra hnone
  refine entry_run (P := fun _ => False) (fun s input before after
      (_ : EntryStep s key baselineId "" input before after) h => h) hold hproper ?_ h
  exact fun before hbefore => hnone ⟨before, hbefore⟩

theorem EntryStep.tracked {before after : Option TrackedPathEntry}
    (h : EntryStep s key baselineId path input before after) (hbefore : before ≠ none) :
    after ≠ none := by
  cases h with
  | kept => exact hbefore
  | _ => exact Option.some_ne_none _

/-- An entry is remembered for the capture that first named its path. -/
theorem EntryStep.last {after : Option TrackedPathEntry}
    (h : EntryStep s key baselineId path input (some entry) after) :
    ∃ entry', after = some entry' ∧ entry'.lastCaptureId = entry.lastCaptureId := by
  cases h with
  | kept => exact ⟨entry, rfl, rfl⟩
  | closed _ _ _ _ hlast | acknowledged _ _ _ _ _ hlast => exact ⟨_, rfl, hlast⟩

section

variable {before after : Option TrackedPathEntry}
  (h : EntryStep s key baselineId path input before after)
include h

theorem EntryStep.sealed (hbefore : ∃ entry, before = some entry ∧ entry.reservation = .sealed) :
    ∃ entry, after = some entry ∧ entry.reservation = .sealed := by
  obtain ⟨entry, rfl, hsealed⟩ := hbefore
  cases h with
  | kept => exact ⟨entry, rfl, hsealed⟩
  | closed _ _ hsealed' _ _ | acknowledged _ _ _ hsealed' _ _ => exact ⟨_, rfl, hsealed'⟩

theorem EntryStep.givenUp (hbefore : ∃ entry, before = some entry ∧ entry.reservation = .sealed ∧
      entry.acknowledged = false) :
    ∃ entry, after = some entry ∧ entry.reservation = .sealed ∧ entry.acknowledged = false := by
  obtain ⟨entry, rfl, hsealed, hunknown⟩ := hbefore
  cases h with
  | kept => exact ⟨entry, rfl, hsealed, hunknown⟩
  | closed _ _ hsealed' hunknown' _ => exact ⟨_, rfl, hsealed', hunknown'⟩
  | acknowledged _ _ hown _ _ _ =>
    obtain ⟨reservedAt, hpending, _⟩ := hown
    simp [hsealed] at hpending

end

/-- An entry that becomes acknowledged is reserved for the request whose probe ends. -/
theorem acknowledges_cases (hproper : s.Proper) (h : s.Acknowledges input key baselineId path) :
    ∃ i probe now req generation fileId rest results entry reservedAt, input = .adopt i probe now ∧
      s.captures[i]? = some ⟨key, req, .probing generation path fileId rest results⟩ ∧
      req.baselineId = baselineId ∧ s.entryOf key baselineId path = some entry ∧
      entry.reservation = .pending req.captureId reservedAt ∧
      now ≤ reservedAt + CAPTURE_TIMEOUT_DEADLINE := by
  obtain ⟨hbefore, entry', hentry', hknown⟩ := h
  obtain ⟨_, hstep⟩ := entryOf_step hproper hentry'
  generalize hold : s.entryOf key baselineId path = before at hstep
  cases hstep with
  | kept => exact absurd ⟨entry', hold, hknown⟩ hbefore
  | closed _ _ _ hunknown _ | opened _ _ hunknown =>
    simp [hknown] at hunknown
  | reserved _ _ => cases hknown
  | acknowledged htask hnamed hown _ _ _ =>
    obtain ⟨reservedAt, hpending, hyoung⟩ := hown
    exact ⟨_, _, _, _, _, _, _, _, _, reservedAt, rfl, htask, hnamed, rfl, hpending, by omega⟩

end

/-! ## Histories -/

section

variable (serverEpoch : String)

def after (inputs : List Input) : Tracking := run step (new serverEpoch) inputs

theorem after_snoc {front : List Input} :
    after serverEpoch (front ++ [input]) = (after serverEpoch front).step input :=
  run_append

theorem proper_after (inputs : List Input) : (after serverEpoch inputs).Proper :=
  invariant_run_all (I := Proper) (fun _ input h => h.step input) inputs nofun

/-- Where the requests and records of a state come from. -/
structure Drawn (front : List Input) : Prop where
  records : ∀ key record, (after serverEpoch front).service.records.get? key = some record →
    record.baselineId ∈ front.filterMap Input.uuid?
  named : ∀ (i : Nat) (task : CaptureTask), (after serverEpoch front).captures[i]? = some task →
    task.stage.Admitted → task.req.baselineId ∈ front.filterMap Input.uuid?
  ids : ∀ (i : Nat) (task : CaptureTask) captureId,
    (after serverEpoch front).captures[i]? = some task →
    task.req.preEditId? = some captureId → captureId ∈ front.filterMap Input.preEditId?
  distinct : ∀ (i j : Nat) (task task' : CaptureTask) captureId,
    (after serverEpoch front).captures[i]? = some task →
    (after serverEpoch front).captures[j]? = some task' →
    task.req.preEditId? = some captureId → task'.req.preEditId? = some captureId → i = j

variable {input : Input} {key : SessionChangesKey} {baselineId path captureId : String}

theorem mem_filterMap_snoc {front : List Input} (h : x ∈ front.filterMap f ∨ f input = some x) :
    x ∈ (front ++ [input]).filterMap f := by
  rw [filterMap_append, mem_append]
  rcases h with hold | hnew
  · exact .inl hold
  · exact .inr (mem_filterMap.mpr ⟨input, mem_singleton.mpr rfl, hnew⟩)

variable {inputs early mid : List Input} {reservedAt i' reservedAt' i : Nat}
  {reserve reserve' : Input} {s : Tracking}

theorem drawn (hfresh : FreshIds inputs) : Drawn serverEpoch inputs := by
  induction inputs using List.reverseRecOn with
  | nil => exact ⟨nofun, nofun, nofun, fun _ _ _ _ _ htask => by cases htask⟩
  | append_singleton front input ih =>
    have hdrawn := ih hfresh.front
    constructor
    · intro key record' hget
      rw [after_snoc] at hget
      apply mem_filterMap_snoc
      rcases record_step hget with
        ⟨record, hrecord, hstep⟩ | ⟨_, _, uuid, _, _, _, _, rfl, rfl⟩
      · rw [hstep.baselineId]
        exact .inl (hdrawn.records key record hrecord)
      · exact .inr rfl
    · intro i task' htask' hadmitted
      rw [after_snoc] at htask'
      apply mem_filterMap_snoc
      rcases task_step htask' with ⟨task, htask, hstep⟩ | ⟨_, hnew, _⟩
      · rw [hstep.req_eq]
        rcases hstep.admission hadmitted with hold | ⟨record, hget, hbaseline⟩
        · exact .inl (hdrawn.named i task htask hold)
        · rw [← hbaseline]
          exact .inl (hdrawn.records _ _ hget)
      · exact absurd hadmitted hnew
    · intro i task' captureId htask' hid
      rw [after_snoc] at htask'
      apply mem_filterMap_snoc
      rcases task_step htask' with ⟨task, htask, hstep⟩ | ⟨_, _, _, _, hinput⟩
      · rw [hstep.req_eq] at hid
        exact .inl (hdrawn.ids i task captureId htask hid)
      · exact .inr (by rw [hinput]; exact hid)
    · intro i j task₁ task₂ captureId htask₁ htask₂ hid₁ hid₂
      rw [after_snoc] at htask₁ htask₂
      rcases task_step htask₁ with ⟨old₁, hold₁, hstep₁⟩ | ⟨hlast₁, _, _, _, hinput₁⟩
      · rw [hstep₁.req_eq] at hid₁
        rcases task_step htask₂ with ⟨old₂, hold₂, hstep₂⟩ | ⟨_, _, _, _, hinput₂⟩
        · rw [hstep₂.req_eq] at hid₂
          exact hdrawn.distinct i j old₁ old₂ captureId hold₁ hold₂ hid₁ hid₂
        · have hinput : input.preEditId? = some captureId := by rw [hinput₂]; exact hid₂
          exact absurd (hdrawn.ids i old₁ captureId hold₁ hid₁) (hfresh.preEditId?_notMem hinput)
      · have hinput : input.preEditId? = some captureId := by rw [hinput₁]; exact hid₁
        rcases task_step htask₂ with ⟨old₂, hold₂, hstep₂⟩ | ⟨hlast₂, _⟩
        · rw [hstep₂.req_eq] at hid₂
          exact absurd (hdrawn.ids j old₂ captureId hold₂ hid₂) (hfresh.preEditId?_notMem hinput)
        · exact hlast₁.trans hlast₂.symm

/-- The paths that a request has still to probe are those it has opened itself, in the record
of its baseline. -/
def Probed (s : Tracking) : Prop :=
  ∀ (i : Nat) (task : CaptureTask), s.captures[i]? = some task → ∀ path ∈ task.stage.toProbe,
    task.req.mode = .preEdit ∧ ∀ record, s.recordOf task.key task.req.baselineId = some record →
      ∃ entry, record.trackedPaths.get? path = some entry ∧
        entry.lastCaptureId = some task.req.captureId

theorem Probed.step (h : s.Probed) (hproper : s.Proper)
    (hold : ∀ (i : Nat) (task : CaptureTask), s.captures[i]? = some task →
      task.stage.Admitted → input.uuid? ≠ some task.req.baselineId) :
    (s.step input).Probed := by
  intro i task' htask' path hpath
  rcases task_step htask' with ⟨task, htask, hstep⟩ | ⟨_, hnew, _⟩
  · -- what an earlier scope has opened stays tracked for the same capture
    have hkept : path ∈ task.stage.toProbe → task.req.mode = .preEdit ∧
        ∀ record, (s.step input).recordOf task.key task.req.baselineId = some record →
          ∃ entry, record.trackedPaths.get? path = some entry ∧
            entry.lastCaptureId = some task.req.captureId := by
      intro hmem
      obtain ⟨hmode, hentries⟩ := h i task htask path hmem
      refine ⟨hmode, fun record' hrecord' => ?_⟩
      have hadmitted := CaptureStage.admitted_of_mem_toProbe hmem
      obtain ⟨record, hrecord, _, hentry⟩ :=
        entry_step hproper (hold i task htask hadmitted) path hrecord'
      obtain ⟨entry, hget, hlast⟩ := hentries record hrecord
      rw [hget] at hentry
      obtain ⟨entry', hget', hlast'⟩ := hentry.last
      exact ⟨entry', hget', hlast'.trans hlast⟩
    cases hstep with
    | same => exact hkept hpath
    | finished _ outcome | admitted _ _ => cases hpath
    | proceeded hfree hstage hrecord hscope hservice =>
      rw [CaptureStage.toProbe_next] at hpath
      obtain ⟨probe, hprobe, rfl⟩ := mem_map.mp hpath
      rename_i record newFileId now scope
      have hprobes : PathScope.Probes task.req scope := by
        rw [hscope]
        exact PathScope.handlePaths_probes (fun probe hnone => by cases hnone)
      obtain ⟨hmode, entry, hget, hlast⟩ := hprobes probe hprobe
      refine ⟨hmode, fun record' hrecord' => ⟨entry, ?_, hlast⟩⟩
      obtain ⟨hget', _⟩ := recordOf_eq_some_iff.mp hrecord'
      rw [hservice, closeScope, AssocMap.get?_insert_self] at hget'
      cases hget'
      exact hget
    | adopted hstage =>
      rw [CaptureStage.toProbe_next] at hpath
      apply hkept
      rw [hstage]
      exact mem_cons_of_mem _ hpath
  · exact absurd (CaptureStage.admitted_of_mem_toProbe hpath) hnew

theorem probed (hfresh : FreshIds inputs) : (after serverEpoch inputs).Probed := by
  induction inputs using List.reverseRecOn with
  | nil => exact nofun
  | append_singleton front input ih =>
    rw [after_snoc]
    refine (ih hfresh.front).step (proper_after serverEpoch front) fun i task htask hadmitted => ?_
    have hnamed := (drawn serverEpoch hfresh.front).named i task htask hadmitted
    exact hfresh.uuid?_ne hnamed input (mem_singleton.mpr rfl)

/-- While a path stays reserved, another request can only have reported it as unproven: a
`PreEdit` request would have closed the entry, and a probe is that of the capture it is
reserved for. -/
theorem Touches.reports {j : Nat} {entry entry' : TrackedPathEntry}
    (htouch : Touches s key path j input) (hproper : s.Proper) (hprobed : s.Probed)
    (hentry : s.entryOf key baselineId path = some entry)
    (hpending : entry.reservation = .pending captureId reservedAt)
    (hentry' : (s.step input).entryOf key baselineId path = some entry')
    (hopen : entry'.reservation ≠ .sealed) :
    Reports s key path j input ∨
      ∃ task, s.captures[j]? = some task ∧ task.req.preEditId? = some captureId := by
  obtain ⟨record, hrecord, hget⟩ := entryOf_eq_some_iff.mp hentry
  obtain ⟨hrecords, hbaseline⟩ := recordOf_eq_some_iff.mp hrecord
  cases htouch with
  | @named newFileId now req generation found rawPath hfree htask hfound hnamed hpath =>
    cases hmode : req.mode with
    | unproven => exact .inl (.unproven hfree htask hfound hmode hnamed hpath)
    | preEdit =>
      exfalso
      have hsame := findRecord_get? hfound
      cases hrecords.symm.trans hsame
      obtain ⟨record', hrecord', hget'⟩ := entryOf_eq_some_iff.mp hentry'
      obtain ⟨hrecords', _⟩ := recordOf_eq_some_iff.mp hrecord'
      rw [step_proceed_service hfree htask hfound, closeScope,
        AssocMap.get?_insert_self] at hrecords'
      cases hrecords'
      obtain ⟨closed, hclosed, hsealed⟩ := PathScope.preEdit_seals
        (s.service.openScope record []) newFileId now hmode hnamed hpath
        (hproper key record hrecords) hget
      rw [PathScope.handlePaths] at hget'
      rw [PathScope.entryAt, hget'] at hclosed
      cases hclosed
      exact hopen hsealed
  | @probed probe now generation req fileId rest results found hfree htask hfound =>
    refine .inr ⟨_, htask, ?_⟩
    obtain ⟨hfound, hnamed⟩ := findBaseline_ok hfound
    have hsame := findRecord_get? hfound
    cases hrecords.symm.trans hsame
    obtain ⟨hmode, hentries⟩ := hprobed j _ htask path mem_cons_self
    obtain ⟨opened, hopened, hlast⟩ := hentries record (recordOf_eq_some_iff.mpr ⟨hrecords, hnamed⟩)
    cases hget.symm.trans hopened
    have howner := (hproper key record hrecords path entry hget).owner captureId reservedAt hpending
    rw [CaptureRequest.preEditId?, hmode]
    exact hlast.symm.trans howner

/-- The input reserved the path, and since then other requests have at most reported it. -/
def ReservedBy (front : List Input) (key : SessionChangesKey) (baselineId path : String)
    (captureId : String) (reservedAt : Nat) : Prop :=
  ∃ early reserve mid i, front = early ++ reserve :: mid ∧
    Reserves (after serverEpoch early) reserve i key baselineId path reservedAt ∧
    (∃ task, (after serverEpoch front).captures[i]? = some task ∧
      task.req.preEditId? = some captureId) ∧
    EveryStep step (fun s x => ∀ j, j ≠ i → Touches s key path j x → Reports s key path j x)
      (after serverEpoch (early ++ [reserve])) mid

/-- **Every reservation can be traced back to the input that made it.** -/
theorem reservedBy (hfresh : FreshIds inputs) {entry : TrackedPathEntry}
    (hentry : (after serverEpoch inputs).entryOf key baselineId path = some entry)
    (hpending : entry.reservation = .pending captureId reservedAt) :
    ReservedBy serverEpoch inputs key baselineId path captureId reservedAt := by
  induction inputs using List.reverseRecOn generalizing entry with
  | nil => cases hentry
  | append_singleton front input ih =>
    have hproper := proper_after serverEpoch front
    rw [after_snoc] at hentry
    have hopen : entry.reservation ≠ .sealed := by rw [hpending]; exact nofun
    obtain ⟨⟨record, hrecord⟩, hstep⟩ := entryOf_step hproper hentry
    generalize hbefore : (after serverEpoch front).entryOf key baselineId path = before at hstep
    cases hstep with
    | kept =>
      -- reserved before: the reservation is the earlier one, and the input adds no touch
      obtain ⟨early, reserve, mid, i, hsplit, hreserves, ⟨task, htask, hid⟩, htouches⟩ :=
        ih hfresh.front hbefore hpending
      obtain ⟨task', htask', hreq⟩ := capture_persists htask input
      refine ⟨early, reserve, mid ++ [input], i, ?_, hreserves, ⟨task', ?_, ?_⟩, ?_⟩
      · rw [hsplit, append_assoc]
        rfl
      · rw [after_snoc]
        exact htask'
      · rw [hreq]
        exact hid
      · have hafter : run step (after serverEpoch (early ++ [reserve])) mid =
            after serverEpoch front := by
          simp [after, ← run_append, hsplit, append_assoc]
        rw [everyStep_append_iff, hafter]
        refine ⟨htouches, ?_, trivial⟩
        intro j hj htouch
        rcases htouch.reports hproper (probed serverEpoch hfresh.front) hbefore hpending hentry
          hopen with hreports | ⟨other, hother, hid'⟩
        · exact hreports
        · exact absurd ((drawn serverEpoch hfresh.front).distinct j i other task captureId
            hother htask hid' hid) hj
    | closed _ _ hsealed _ _ | opened _ hsealed _ | acknowledged _ _ _ hsealed _ _ =>
      exact absurd hsealed hopen
    | @reserved i generation newFileId now req fileId htask hmode =>
      cases hpending
      refine ⟨front, .proceed i newFileId now, [], i, rfl, ⟨⟨record, hrecord, ?_⟩, ?_⟩, ?_, trivial⟩
      · rw [entryOf, hrecord] at hbefore
        exact hbefore
      · exact ⟨newFileId, now, req, generation, _, rfl, htask, hmode, rfl, hentry, rfl⟩
      · obtain ⟨task', htask', hreq⟩ := capture_persists htask (.proceed i newFileId now)
        refine ⟨task', ?_, ?_⟩
        · rw [after_snoc]
          exact htask'
        · rw [hreq, CaptureRequest.preEditId?, hmode]

theorem after_append {front back : List Input} :
    after serverEpoch (front ++ back) = run step (after serverEpoch front) back :=
  run_append

/-- A baseline that a record carries is not drawn again. -/
theorem later_uuid?_ne {front back : List Input} (hfresh : FreshIds (front ++ back))
    {record : SessionChangesRecord}
    (hrecord : (after serverEpoch front).recordOf key baselineId = some record) :
    ∀ input ∈ back, input.uuid? ≠ some baselineId := by
  obtain ⟨hget, hbaseline⟩ := recordOf_eq_some_iff.mp hrecord
  have hdrawn := (drawn serverEpoch hfresh.front).records key record hget
  rw [hbaseline] at hdrawn
  exact hfresh.uuid?_ne hdrawn

/-- A path is reserved at most once. -/
theorem Reserves.unique (hfresh : FreshIds (early ++ reserve :: mid))
    (h : Reserves (after serverEpoch early) reserve i key baselineId path reservedAt)
    (h' : Reserves (after serverEpoch (early ++ reserve :: mid)) reserve' i' key baselineId path
      reservedAt') : False := by
  obtain ⟨_, _, _, _, entry, _, _, _, _, hentry, _⟩ := h.reserved
  obtain ⟨record, hrecord, hnone⟩ := h'.untracked
  obtain ⟨opened, hopened, hget⟩ := entryOf_eq_some_iff.mp hentry
  rw [append_cons] at hfresh hrecord
  rw [← after_snoc] at hopened
  rw [after_append] at hrecord
  refine entry_run (fun s input before after hstep => hstep.tracked)
    (later_uuid?_ne serverEpoch hfresh hopened) (proper_after serverEpoch _) ?_ hrecord hnone
  intro record' hrecord'
  cases hopened.symm.trans hrecord'
  rw [hget]
  exact Option.some_ne_none _

/-- The reservation of a path is found in one place of a history. -/
theorem Reserves.split_eq {early' mid' : List Input} (hfresh : FreshIds (early ++ reserve :: mid))
    (heq : early ++ reserve :: mid = early' ++ reserve' :: mid')
    (h : Reserves (after serverEpoch early) reserve i key baselineId path reservedAt)
    (h' : Reserves (after serverEpoch early') reserve' i' key baselineId path reservedAt') :
    early = early' ∧ reserve = reserve' ∧ mid = mid' := by
  rcases append_eq_append_iff.mp heq with ⟨more, rfl, hmore⟩ | ⟨more, rfl, hmore⟩
  · cases more with
    | nil =>
      obtain ⟨rfl, rfl⟩ := List.cons.inj hmore
      exact ⟨(append_nil _).symm, rfl, rfl⟩
    | cons first more =>
      obtain ⟨rfl, rfl⟩ := List.cons.inj hmore
      have hfront : FreshIds (early ++ reserve :: more) := by
        rw [heq] at hfresh
        exact hfresh.front
      exact (Reserves.unique serverEpoch hfront h h').elim
  · cases more with
    | nil =>
      obtain ⟨rfl, rfl⟩ := List.cons.inj hmore
      exact ⟨append_nil _, rfl, rfl⟩
    | cons first more =>
      obtain ⟨rfl, rfl⟩ := List.cons.inj hmore
      have hfront : FreshIds (early' ++ reserve' :: more) := hfresh.front
      exact (Reserves.unique serverEpoch hfront h' h).elim

end

end Tracking

end DamHopper.SessionChanges
