import DamHopper.SessionChanges.Paths

/-!
# SessionChanges — the life of an entry

An entry begins reserved for a probe or closed, is acknowledged at most by the probe it
is reserved for, and once closed stays closed. `Treated` says what the second scope of a
request does to one path, however often the request names it; `EntryStep` says what any
input does to the entry of a path as long as its record is there.
-/

namespace DamHopper.SessionChanges

open AssocMap SessionChangesService PathScope

/-- What holds of every entry: an acknowledged one is sealed, one that is not acknowledged
says nothing, and a reserved one carries the id of the capture it is reserved for. -/
structure TrackedPathEntry.Proper (entry : TrackedPathEntry) : Prop where
  settled : entry.acknowledged = true → entry.reservation = .sealed
  blank : entry.acknowledged = false → entry.presence = .unknown ∧ entry.bytes = none
  owner : ∀ captureId reservedAt, entry.reservation = .pending captureId reservedAt →
    entry.lastCaptureId = some captureId

def SessionChangesRecord.Proper (record : SessionChangesRecord) : Prop :=
  ∀ path entry, record.trackedPaths.get? path = some entry → entry.Proper

namespace TrackedPathEntry.Proper

variable {entry : TrackedPathEntry}

theorem unacknowledged (h : entry.Proper) (hpending : entry.reservation ≠ .sealed) :
    entry.acknowledged = false :=
  Bool.eq_false_of_not_eq_true fun hknown => hpending (h.settled hknown)

theorem of_sealed (hsealed : entry.reservation = .sealed)
    (hblank : entry.acknowledged = false → entry.presence = .unknown ∧ entry.bytes = none) :
    entry.Proper where
  settled _ := hsealed
  blank := hblank
  owner captureId reservedAt hpending := by
    simp [hsealed] at hpending

theorem reserved (path fileId captureId : String) (now : Nat) :
    (inserted path fileId captureId [] (.pending captureId now)).Proper where
  settled := nofun
  blank _ := ⟨rfl, rfl⟩
  owner captureId' reservedAt hpending := by
    cases hpending
    rfl

end TrackedPathEntry.Proper

namespace PathScope

section

variable {req : CaptureRequest} {newFileId : String → String} {now : String → Nat}
  {scope next : PathScope} {rawPath path : String}

def entryAt (scope : PathScope) (path : String) : Option TrackedPathEntry :=
  scope.record.trackedPaths.get? path

variable {path' : String} {paths : List String} {entry : TrackedPathEntry}

theorem entryAt_write :
    (scope.write path entry).entryAt path' = if path' = path then some entry
      else scope.entryAt path' :=
  get?_insert

/-- Apart from the two counters a downgrade depends on the entry alone. -/
theorem downgrade_eq (scope : PathScope) (path : String) (entry : TrackedPathEntry) :
    ∃ allocated retainedBytes, scope.downgrade path entry =
      { scope with
        allocated
        record := { scope.record with
          trackedPaths := scope.record.trackedPaths.insert path entry.downgraded
          retainedBytes
          comparisonRevision := scope.record.comparisonRevision + 1
          captureGeneration := scope.record.captureGeneration + 1 } } := by
  unfold downgrade release
  split <;> exact ⟨_, _, rfl⟩

theorem trackedPaths_downgrade :
    (scope.downgrade path entry).record.trackedPaths =
      scope.record.trackedPaths.insert path entry.downgraded := by
  obtain ⟨allocated, retainedBytes, heq⟩ := scope.downgrade_eq path entry
  rw [heq]

theorem entryAt_downgrade :
    (scope.downgrade path entry).entryAt path' = if path' = path then some entry.downgraded
      else scope.entryAt path' := by
  rw [entryAt, trackedPaths_downgrade]
  exact get?_insert

/-! ## The second scope -/

variable (req now path) in
/-- What a request can do to a path: nothing; close its entry, an acknowledged one only if it
is its own and turned out unproven; open an entry that is closed; or reserve it. -/
inductive Treated : Option TrackedPathEntry → Option TrackedPathEntry → Prop
  | kept (before : Option TrackedPathEntry) : Treated before before
  | closed {entry entry' : TrackedPathEntry} :
      (entry.acknowledged = true →
        req.mode = .unproven ∧ entry.lastCaptureId = some req.captureId) →
      entry'.reservation = .sealed → entry'.acknowledged = false →
      entry'.lastCaptureId = entry.lastCaptureId → Treated (some entry) (some entry')
  | opened {entry' : TrackedPathEntry} : entry'.reservation = .sealed →
      entry'.acknowledged = false → entry'.lastCaptureId = some req.captureId →
      Treated none (some entry')
  | reserved {fileId : String} : req.mode = .preEdit →
      Treated none (some (.inserted path fileId req.captureId []
        (.pending req.captureId (now path))))

theorem Treated.trans {a b c : Option TrackedPathEntry} (hab : Treated req now path a b)
    (hbc : Treated req now path b c) : Treated req now path a c := by
  cases hab with
  | kept => exact hbc
  | closed hmine hsealed hunknown hlast =>
    cases hbc with
    | kept => exact .closed hmine hsealed hunknown hlast
    | closed _ hsealed' hunknown' hlast' =>
      exact .closed hmine hsealed' hunknown' (hlast'.trans hlast)
  | opened hsealed hunknown hlast =>
    cases hbc with
    | kept => exact .opened hsealed hunknown hlast
    | closed _ hsealed' hunknown' hlast' => exact .opened hsealed' hunknown' (hlast'.trans hlast)
  | reserved hmode =>
    cases hbc with
    | kept => exact .reserved hmode
    | closed _ hsealed' hunknown' hlast' => exact .opened hsealed' hunknown' hlast'

variable {entry : TrackedPathEntry} {after : Option TrackedPathEntry} {captureId : String}

/-- A tracked path stays tracked, and is remembered for the capture that first named it. -/
theorem Treated.tracked (h : Treated req now path (some entry) after) :
    ∃ entry', after = some entry' ∧ entry'.lastCaptureId = entry.lastCaptureId := by
  cases h with
  | kept => exact ⟨entry, rfl, rfl⟩
  | closed _ _ _ hlast => exact ⟨_, rfl, hlast⟩

theorem Treated.sealed (h : Treated req now path (some entry) after)
    (hsealed : entry.reservation = .sealed) :
    ∃ entry', after = some entry' ∧ entry'.reservation = .sealed := by
  cases h with
  | kept => exact ⟨entry, rfl, hsealed⟩
  | closed _ hsealed' _ _ => exact ⟨_, rfl, hsealed'⟩

theorem Handled.treated (h : Handled req newFileId now scope rawPath next) (path : String) :
    Treated req now path (scope.entryAt path) (next.entryAt path) := by
  have htreated {path' before} {entry' : TrackedPathEntry} (hat : ∀ path, next.entryAt path =
        if path = path' then some entry' else scope.entryAt path)
      (hget : scope.entryAt path' = before) (h' : Treated req now path' before (some entry')) :
      Treated req now path (scope.entryAt path) (next.entryAt path) := by
    rw [hat]
    split_ifs with heq
    · rwa [heq, hget]
    · exact .kept _
  cases h with
  | invalid result _ | ignored result _ _ => exact .kept _
  | downgraded result hmode hpath hget hlast =>
    exact htreated (fun _ => entryAt_downgrade) hget
      (.closed (fun _ => ⟨hmode, hlast⟩) rfl rfl rfl)
  | noted result hmode hpath hget hroom =>
    exact htreated (fun _ => entryAt_write) hget (.opened rfl rfl rfl)
  | invalidated result hmode hpath hget hunknown =>
    exact htreated (fun _ => entryAt_write) hget (.closed (by simp [hunknown]) rfl rfl rfl)
  | reserved hmode hpath hget hroom =>
    exact htreated (fun _ => entryAt_write) hget (.reserved hmode)

theorem Handled.proper (h : Handled req newFileId now scope rawPath next)
    (hproper : scope.record.Proper) : next.record.Proper := by
  cases h with
  | invalid result _ | ignored result _ _ => exact hproper
  | downgraded result _ _ hget _ =>
    intro path' entry' hget'
    rw [answer, trackedPaths_downgrade] at hget'
    exact forall_insert hproper (.of_sealed rfl fun _ => ⟨rfl, rfl⟩) path' entry' hget'
  | noted result _ _ hget _ => exact forall_insert hproper (.of_sealed rfl fun _ => ⟨rfl, rfl⟩)
  | invalidated result _ _ hget hunknown =>
    exact forall_insert hproper
      (.of_sealed rfl fun _ => ⟨rfl, ((hproper _ _ hget).blank hunknown).2⟩)
  | reserved _ _ hget _ => exact forall_insert hproper (.reserved _ _ _ _)

theorem handlePaths_treated (scope : PathScope) (req : CaptureRequest)
    (newFileId : String → String) (now : String → Nat) (path : String) (paths : List String) :
    Treated req now path (scope.entryAt path)
      ((run (handlePath req newFileId now) scope paths).entryAt path) :=
  run_related (R := fun scope next => Treated req now path (scope.entryAt path) (next.entryAt path))
    (fun _ => .kept _) (fun _ _ _ => Treated.trans)
    (fun scope rawPath => (handlePath_handled req newFileId now scope rawPath).treated path)
    scope paths

theorem handlePaths_proper (hproper : scope.record.Proper) :
    (run (handlePath req newFileId now) scope paths).record.Proper :=
  invariant_run_all (I := fun scope => scope.record.Proper)
    (fun scope rawPath h => (handlePath_handled req newFileId now scope rawPath).proper h)
    paths hproper

/-- A `PreEdit` request closes the entry of every path it names, unless it opens it. -/
theorem preEdit_seals (scope : PathScope) (newFileId : String → String) (now : String → Nat)
    (hmode : req.mode = .preEdit) (hnamed : rawPath ∈ paths)
    (hpath : normalizeAndValidatePath rawPath = .ok path) (hproper : scope.record.Proper)
    (hget : scope.entryAt path = some entry) :
    ∃ entry', (run (handlePath req newFileId now) scope paths).entryAt path = some entry' ∧
      entry'.reservation = .sealed := by
  induction paths generalizing scope entry with
  | nil => cases hnamed
  | cons head rest ih =>
    have hhead := handlePath_handled req newFileId now scope head
    rcases List.mem_cons.mp hnamed with rfl | hnamed
    · -- the first time the path is named it is known or given up
      have hsealed : ∃ entry',
          (scope.handlePath req newFileId now rawPath).entryAt path = some entry' ∧
            entry'.reservation = .sealed := by
        generalize scope.handlePath req newFileId now rawPath = next at hhead
        cases hhead with
        | invalid result hinvalid => exact absurd hpath (hinvalid path)
        | ignored result hpath' hignores =>
          cases hpath.symm.trans hpath'
          unfold SessionChangesRecord.Ignores at hignores
          rw [entryAt] at hget
          rw [hget, hmode] at hignores
          exact ⟨entry, hget, (hproper path entry hget).settled hignores⟩
        | downgraded result hmode' _ _ _ | noted result hmode' _ _ _ =>
          cases hmode.symm.trans hmode'
        | @invalidated path' entry' result _ hpath' _ _ =>
          cases hpath.symm.trans hpath'
          refine ⟨entry'.invalidated, ?_, rfl⟩
          exact entryAt_write.trans (if_pos rfl)
        | reserved _ hpath' hnone _ =>
          cases hpath.symm.trans hpath'
          rw [entryAt, hnone] at hget
          cases hget
      obtain ⟨entry', hget', hsealed⟩ := hsealed
      have hrest := handlePaths_treated (scope.handlePath req newFileId now rawPath) req
        newFileId now path rest
      rw [hget'] at hrest
      exact hrest.sealed hsealed
    · have htreated := hhead.treated path
      rw [hget] at htreated
      obtain ⟨entry', hget', _⟩ := htreated.tracked
      exact ih _ hnamed (hhead.proper hproper) hget'

/-- The paths to probe are those the request has opened. -/
def Probes (req : CaptureRequest) (scope : PathScope) : Prop :=
  ∀ probe ∈ scope.pathsToProbe, req.mode = .preEdit ∧
    ∃ entry, scope.entryAt probe.1 = some entry ∧ entry.lastCaptureId = some req.captureId

theorem Handled.probes (h : Handled req newFileId now scope rawPath next)
    (hprobes : Probes req scope) : Probes req next := by
  have hkept : ∀ probe ∈ scope.pathsToProbe, req.mode = .preEdit ∧
      ∃ entry, next.entryAt probe.1 = some entry ∧ entry.lastCaptureId = some req.captureId := by
    intro probe hprobe
    obtain ⟨hmode, entry, hget, hlast⟩ := hprobes probe hprobe
    have htreated := h.treated probe.1
    rw [hget] at htreated
    obtain ⟨entry', hget', hlast'⟩ := htreated.tracked
    exact ⟨hmode, entry', hget', hlast'.trans hlast⟩
  cases h with
  | invalid result _ | ignored result _ _ => exact hkept
  | @downgraded path' entry result _ _ _ _ =>
    obtain ⟨allocated, retainedBytes, heq⟩ := scope.downgrade_eq path' entry
    rw [heq] at hkept ⊢
    exact hkept
  | noted result _ _ _ _ | invalidated result _ _ _ _ => exact hkept
  | @reserved path' hmode _ _ _ =>
    refine List.forall_mem_append.mpr ⟨hkept, List.forall_mem_singleton.mpr ?_⟩
    refine ⟨hmode, .inserted path' (newFileId path') req.captureId []
      (.pending req.captureId (now path')), ?_, rfl⟩
    exact entryAt_write.trans (if_pos rfl)

theorem handlePaths_probes (hprobes : Probes req scope) :
    Probes req (run (handlePath req newFileId now) scope paths) :=
  invariant_run_all (I := Probes req)
    (fun scope rawPath h => (handlePath_handled req newFileId now scope rawPath).probes h)
    paths hprobes

/-! ## When the record is left as it is -/

/-- A path is ignored, or the record counts up. -/
theorem Handled.record_cases (h : Handled req newFileId now scope rawPath next) :
    (next.record = scope.record ∧
      ∀ path, normalizeAndValidatePath rawPath = .ok path → scope.record.Ignores req path) ∨
    (scope.record.captureGeneration < next.record.captureGeneration ∧
      ∃ path, normalizeAndValidatePath rawPath = .ok path ∧ ¬ scope.record.Ignores req path) := by
  unfold SessionChangesRecord.Ignores
  cases h with
  | invalid result hinvalid => exact .inl ⟨rfl, fun path hpath => absurd hpath (hinvalid path)⟩
  | ignored result hpath hignores =>
    refine .inl ⟨rfl, fun path hpath' => ?_⟩
    cases hpath.symm.trans hpath'
    exact hignores
  | @downgraded path' entry result hmode hpath hget hlast =>
    refine .inr ⟨?_, path', hpath, ?_⟩
    · obtain ⟨allocated, retainedBytes, heq⟩ := scope.downgrade_eq path' entry
      rw [heq]
      exact Nat.lt_succ_self _
    · rw [hget, hmode]
      exact fun hother => hother hlast
  | @invalidated path' entry result hmode hpath hget hunknown =>
    refine .inr ⟨Nat.lt_succ_self _, path', hpath, ?_⟩
    rw [hget, hmode]
    exact Bool.eq_false_iff.mp hunknown
  | @noted path' _ _ hpath hget hroom | @reserved path' _ hpath hget hroom =>
    refine .inr ⟨Nat.lt_succ_self _, path', hpath, ?_⟩
    rw [hget]
    exact Nat.not_le_of_lt hroom

theorem Handled.captureGeneration_le (h : Handled req newFileId now scope rawPath next) :
    scope.record.captureGeneration ≤ next.record.captureGeneration := by
  rcases h.record_cases with ⟨hsame, _⟩ | ⟨hless, _⟩
  · rw [hsame]
  · exact Nat.le_of_lt hless

/-- **A request leaves a record as it is exactly if it ignores every path it names.** -/
theorem handlePaths_record_eq_iff (scope : PathScope) (req : CaptureRequest)
    (newFileId : String → String) (now : String → Nat) (paths : List String) :
    (run (handlePath req newFileId now) scope paths).record = scope.record ↔
      ∀ rawPath ∈ paths, ∀ path, normalizeAndValidatePath rawPath = .ok path →
        scope.record.Ignores req path := by
  induction paths generalizing scope with
  | nil => exact iff_of_true rfl fun _ h => absurd h List.not_mem_nil
  | cons head rest ih =>
    rw [run_cons, List.forall_mem_cons]
    rcases (handlePath_handled req newFileId now scope head).record_cases with
      ⟨hsame, hignores⟩ | ⟨hless, path, hpath, hnot⟩
    · have hrest := ih (scope.handlePath req newFileId now head)
      rw [hsame] at hrest
      rw [hrest]
      exact ⟨fun h => ⟨hignores, h⟩, fun h => h.2⟩
    have hle : (scope.handlePath req newFileId now head).record.captureGeneration ≤
        (run (handlePath req newFileId now) (scope.handlePath req newFileId now head)
          rest).record.captureGeneration :=
      run_related (R := fun scope next =>
          scope.record.captureGeneration ≤ next.record.captureGeneration)
        (fun _ => Nat.le_refl _) (fun _ _ _ => Nat.le_trans)
        (fun scope rawPath =>
          (handlePath_handled req newFileId now scope rawPath).captureGeneration_le) _ _
    constructor
    · intro heq
      rw [heq] at hle
      omega
    · exact fun h => absurd (h.1 path hpath) hnot

theorem Handled.baselineId (h : Handled req newFileId now scope rawPath next) :
    next.record.baselineId = scope.record.baselineId := by
  cases h with
  | @downgraded path' entry result _ _ _ _ =>
    obtain ⟨allocated, retainedBytes, heq⟩ := scope.downgrade_eq path' entry
    rw [heq]
    rfl
  | _ => rfl

theorem handlePaths_baselineId :
    (run (handlePath req newFileId now) scope paths).record.baselineId = scope.record.baselineId :=
  invariant_run_all (I := fun next => next.record.baselineId = scope.record.baselineId)
    (fun next rawPath h =>
      (handlePath_handled req newFileId now next rawPath).baselineId.trans h) paths rfl

/-! ## The end of a probe -/

section

variable {now : Nat} (h : Adopted captureId now path scope next)
include h

/-- The end of a probe writes nothing, or it closes the entry, and acknowledges it only if it is
still reserved for the request. -/
theorem Adopted.wrote : next.record.trackedPaths = scope.record.trackedPaths ∨
    ∃ entry entry', scope.entryAt path = some entry ∧ entry.reservation ≠ .sealed ∧
      next.record.trackedPaths = scope.record.trackedPaths.insert path entry' ∧
      entry'.reservation = .sealed ∧ entry'.lastCaptureId = entry.lastCaptureId ∧
      (entry'.acknowledged = true → Owned captureId now entry) ∧
      (entry'.acknowledged = false → entry'.presence = .unknown ∧ entry'.bytes = entry.bytes) := by
  have hpending {entry : TrackedPathEntry} (hown : Owned captureId now entry) :
      entry.reservation ≠ .sealed := by
    obtain ⟨reservedAt, hpending, _⟩ := hown
    simp [hpending]
  cases h with
  | missing _ | refused result _ _ => exact .inl rfl
  | expired result hget hopen _ =>
    exact .inr ⟨_, _, hget, hopen, rfl, rfl, rfl, nofun, fun _ => ⟨rfl, rfl⟩⟩
  | kept bytes sha256 mode kind hget hown _ | absent result hget hown =>
    exact .inr ⟨_, _, hget, hpending hown, rfl, rfl, rfl, fun _ => hown, nofun⟩
  | unprobed provenance reason result hget hown =>
    exact .inr ⟨_, _, hget, hpending hown, rfl, rfl, rfl, nofun, fun _ => ⟨rfl, rfl⟩⟩

theorem Adopted.entryAt (hproper : scope.record.Proper) (path' : String) :
    next.entryAt path' = scope.entryAt path' ∨
    (path' = path ∧ ∃ entry entry', scope.entryAt path = some entry ∧
      next.entryAt path = some entry' ∧ entry.acknowledged = false ∧
      entry'.reservation = .sealed ∧ entry'.lastCaptureId = entry.lastCaptureId ∧
      (entry'.acknowledged = true → Owned captureId now entry)) := by
  unfold PathScope.entryAt
  rcases h.wrote with hsame | ⟨entry, entry', hget, hpending, heq, hsealed, hlast, hown, _⟩
  · exact .inl (by rw [hsame])
  have hunknown := (hproper path entry hget).unacknowledged hpending
  rw [heq, get?_insert, get?_insert_self]
  split_ifs with hpath
  · exact .inr ⟨hpath, entry, entry', hget, rfl, hunknown, hsealed, hlast, hown⟩
  · exact .inl rfl

theorem Adopted.proper (hproper : scope.record.Proper) : next.record.Proper := by
  unfold SessionChangesRecord.Proper
  rcases h.wrote with hsame | ⟨entry, entry', hget, hpending, heq, hsealed, _, _, hblank⟩
  · rwa [hsame]
  have hold := hproper path entry hget
  have hbytes := (hold.blank (hold.unacknowledged hpending)).2
  rw [heq]
  exact forall_insert hproper (.of_sealed hsealed fun hunknown => hbytes ▸ hblank hunknown)

theorem Adopted.baselineId :
    next.record.baselineId = scope.record.baselineId := by
  cases h with
  | _ => rfl

end

end

end PathScope

/-! ## Records and entries along a step -/

namespace Tracking

open PathScope (handlePath adoptProbe)

variable {s : Tracking} {key : SessionChangesKey} {record record' : SessionChangesRecord}
  {input : Input} {path : String}

variable (s key record) in
inductive RecordStep : Input → SessionChangesRecord → Prop
  | same (input : Input) : RecordStep input record
  | proceeded {i generation : Nat} {newFileId : String → String} {now : String → Nat}
      {req : CaptureRequest} :
      s.purging = false → s.captures[i]? = some ⟨key, req, .admitted generation⟩ →
      s.service.findRecord key generation = .ok record →
      RecordStep (.proceed i newFileId now)
        (run (handlePath req newFileId now) (s.service.openScope record []) req.paths).record
  | adopted {i generation now : Nat} {probe : ProbeResult} {req : CaptureRequest}
      {path fileId : String} {rest : List (String × String)}
      {results : List PathCaptureDisposition} :
      s.purging = false →
      s.captures[i]? = some ⟨key, req, .probing generation path fileId rest results⟩ →
      s.service.findBaseline key generation req.baselineId = .ok record →
      RecordStep (.adopt i probe now)
        (adoptProbe req.captureId now probe path fileId
          (s.service.openScope record results)).record

/-- **A record comes from a record under the same key or from a registration.** -/
theorem record_step (h : (s.step input).service.records.get? key = some record') :
    (∃ record, s.service.records.get? key = some record ∧ RecordStep s key record input record') ∨
    (s.service.records.get? key = none ∧ ∃ i uuid nowMs rootOpened canonicalRoot generation,
      input = .register i uuid nowMs rootOpened ∧
      record' = .fresh uuid key.ompSessionId key.rootId canonicalRoot generation nowMs) := by
  have hchange := step_change s input
  have hsame (h : s.service.records.get? key = some record') :
      ∃ record, s.service.records.get? key = some record ∧ RecordStep s key record input record' :=
    ⟨record', h, .same input⟩
  generalize (s.step input).service = service at h hchange
  cases hchange with
  | same => exact .inl (hsame h)
  | enabled _ =>
    unfold enable at h
    split at h <;> exact .inl (hsame h)
  | cleared _ => cases h
  | reset _ => exact .inl (hsame h)
  | removed terminalId terminalIncarnation =>
    rw [get?_removeTerminalRecords] at h
    split at h
    · cases h
    · exact .inl (hsame h)
  | @registered i nowMs generation uuid canonicalRoot rootOpened key' _ hnew _ =>
    simp only [addRecord, get?_insert] at h
    split_ifs at h with heq
    · cases h
      rw [heq]
      exact .inr ⟨hnew, i, uuid, nowMs, rootOpened, canonicalRoot, generation, rfl, rfl⟩
    · exact .inl (hsame h)
  | proceeded hfree htask hrecord =>
    simp only [closeScope, get?_insert] at h
    split_ifs at h with heq
    · cases h
      rw [heq]
      exact .inl ⟨_, findRecord_get? hrecord, .proceeded hfree htask hrecord⟩
    · exact .inl (hsame h)
  | adopted hfree htask hrecord =>
    simp only [closeScope, get?_insert] at h
    split_ifs at h with heq
    · cases h
      rw [heq]
      exact .inl ⟨_, findRecord_get? (findBaseline_ok hrecord).1, .adopted hfree htask hrecord⟩
    · exact .inl (hsame h)

theorem RecordStep.baselineId (h : RecordStep s key record input record') :
    record'.baselineId = record.baselineId := by
  cases h with
  | same => rfl
  | proceeded _ _ _ => exact handlePaths_baselineId
  | adopted _ _ _ => exact (adoptProbe_adopted _ _ _ _ _ _).baselineId

theorem RecordStep.proper (h : RecordStep s key record input record')
    (hproper : record.Proper) : record'.Proper := by
  cases h with
  | same => exact hproper
  | proceeded _ _ _ => exact handlePaths_proper hproper
  | adopted _ _ _ => exact (adoptProbe_adopted _ _ _ _ _ _).proper hproper

def Proper (s : Tracking) : Prop :=
  ∀ key record, s.service.records.get? key = some record → record.Proper

theorem Proper.step (h : s.Proper) (input : Input) : (s.step input).Proper := by
  intro key record' hget
  rcases record_step hget with ⟨record, hold, hstep⟩ | ⟨_, _, _, _, _, _, _, _, rfl⟩
  · exact hstep.proper (h key record hold)
  · exact fun path entry hentry => by cases hentry

/-- The input is the second scope of an `Unproven` request with this capture id. -/
def Withdraws (s : Tracking) (input : Input) (key : SessionChangesKey) (captureId : String) :
    Prop :=
  ∃ i newFileId now generation req, input = .proceed i newFileId now ∧
    s.captures[i]? = some ⟨key, req, .admitted generation⟩ ∧ req.mode = .unproven ∧
    req.captureId = captureId

variable (s key) (baselineId path : String) in
/-- What an input can do to the entry of a path while its record is there: nothing; close
it, an acknowledged one only through an `Unproven` request of its own capture; open it closed;
reserve it; or acknowledge it, which only the end of a probe does that it is reserved for. -/
inductive EntryStep : Input → Option TrackedPathEntry → Option TrackedPathEntry → Prop
  | kept (input : Input) (before : Option TrackedPathEntry) : EntryStep input before before
  | closed (input : Input) {entry entry' : TrackedPathEntry} :
      (entry.acknowledged = true →
        ∃ captureId, entry.lastCaptureId = some captureId ∧ Withdraws s input key captureId) →
      entry'.reservation = .sealed → entry'.acknowledged = false →
      entry'.lastCaptureId = entry.lastCaptureId → EntryStep input (some entry) (some entry')
  | opened (input : Input) {entry' : TrackedPathEntry} : entry'.reservation = .sealed →
      entry'.acknowledged = false → EntryStep input none (some entry')
  | reserved {i generation : Nat} {newFileId : String → String} {now : String → Nat}
      {req : CaptureRequest} {fileId : String} :
      s.captures[i]? = some ⟨key, req, .admitted generation⟩ → req.mode = .preEdit →
      EntryStep (.proceed i newFileId now) none
        (some (.inserted path fileId req.captureId [] (.pending req.captureId (now path))))
  | acknowledged {i generation now : Nat} {probe : ProbeResult} {req : CaptureRequest}
      {fileId : String} {rest : List (String × String)} {results : List PathCaptureDisposition}
      {entry entry' : TrackedPathEntry} :
      s.captures[i]? = some ⟨key, req, .probing generation path fileId rest results⟩ →
      req.baselineId = baselineId → PathScope.Owned req.captureId now entry →
      entry'.reservation = .sealed → entry'.acknowledged = true →
      entry'.lastCaptureId = entry.lastCaptureId →
      EntryStep (.adopt i probe now) (some entry) (some entry')

theorem RecordStep.entryStep (h : RecordStep s key record input record')
    (hproper : record.Proper) (path : String) :
    EntryStep s key record.baselineId path input (record.trackedPaths.get? path)
      (record'.trackedPaths.get? path) := by
  cases h with
  | same => exact .kept _ _
  | @proceeded i generation newFileId now req hfree htask hrecord =>
    have htreated := handlePaths_treated (s.service.openScope record []) req
      newFileId now path req.paths
    unfold entryAt at htreated
    generalize (run (handlePath req newFileId now) (s.service.openScope record [])
      req.paths).record.trackedPaths.get? path = after at htreated
    generalize hbefore : (s.service.openScope record []).record.trackedPaths.get? path =
      before at htreated
    have hbefore : record.trackedPaths.get? path = before := hbefore
    rw [hbefore]
    cases htreated with
    | kept => exact .kept _ _
    | closed hmine hsealed hunknown hlast =>
      refine .closed _ (fun hknown => ?_) hsealed hunknown hlast
      obtain ⟨hmode, hid⟩ := hmine hknown
      exact ⟨req.captureId, hid, i, newFileId, now, generation, req, rfl, htask, hmode, rfl⟩
    | opened hsealed hunknown _ => exact .opened _ hsealed hunknown
    | reserved hmode => exact .reserved htask hmode
  | @adopted i generation now probe req path' fileId rest results hfree htask hrecord =>
    have hadopted := adoptProbe_adopted req.captureId now probe path' fileId
      (s.service.openScope record results)
    rcases hadopted.entryAt hproper path with
      hsame | ⟨rfl, entry, entry', hget, hget', hunknown, hsealed, hlast, hown⟩
    · unfold entryAt at hsame
      rw [hsame]
      exact .kept _ _
    unfold entryAt at hget hget'
    have hget : record.trackedPaths.get? path = some entry := hget
    rw [hget, hget']
    have hbaseline := (findBaseline_ok hrecord).2
    cases hknown : entry'.acknowledged with
    | true => exact .acknowledged htask hbaseline.symm (hown hknown) hsealed hknown hlast
    | false => exact .closed _ (by simp [hunknown]) hsealed hknown hlast

/-! ## The paths that are tracked -/

/-- The paths are not too many, and each has been validated. -/
def Confined (paths : AssocMap String TrackedPathEntry) : Prop :=
  paths.size ≤ MAX_PATHS_PER_SESSION ∧ ∀ path entry, paths.get? path = some entry →
    ∃ rawPath, normalizeAndValidatePath rawPath = .ok path

variable {paths : AssocMap String TrackedPathEntry} {entry entry' : TrackedPathEntry}

theorem Confined.update (h : Confined paths) (hget : paths.get? path = some entry) :
    Confined (paths.insert path entry') :=
  ⟨(size_insert_of_get? hget).le.trans h.1, forall_insert h.2 (h.2 path entry hget)⟩

theorem Confined.handled {req : CaptureRequest} {newFileId : String → String} {now : String → Nat}
    {scope next : PathScope} {rawPath : String} (h : Confined scope.record.trackedPaths)
    (hnext : Handled req newFileId now scope rawPath next) : Confined next.record.trackedPaths := by
  cases hnext with
  | invalid | ignored => exact h
  | downgraded _ _ _ hget =>
    rw [answer, trackedPaths_downgrade]
    exact h.update hget
  | invalidated _ _ _ hget => exact h.update hget
  | noted _ _ hpath hnew hroom | reserved _ hpath hnew hroom =>
    exact ⟨(size_insert_of_get?_none hnew).le.trans hroom, forall_insert h.2 ⟨_, hpath⟩⟩

/-- **Only validated paths are tracked**, and never too many, in any order of the scopes. -/
theorem paths_confined (serverEpoch : String) (inputs : List Input) :
    Always step (fun s => ∀ key record, s.service.records.get? key = some record →
      Confined record.trackedPaths) (new serverEpoch) inputs := by
  refine always_all (fun s input h key record hget => ?_) inputs nofun
  rcases record_step hget with ⟨old, hold, hstep⟩ | ⟨_, _, _, _, _, _, _, _, rfl⟩
  · have hbefore := h key old hold
    cases hstep with
    | same => exact hbefore
    | proceeded =>
      exact invariant_run_all (I := fun scope : PathScope => Confined scope.record.trackedPaths)
        (fun scope rawPath hscope => hscope.handled (handlePath_handled ..)) _ hbefore
    | adopted =>
      rcases (adoptProbe_adopted ..).wrote with hsame | ⟨_, _, hentry, _, hwrote, _⟩
      · rw [hsame]
        exact hbefore
      · rw [hwrote]
        exact hbefore.update hentry
  · exact ⟨Nat.zero_le _, nofun⟩

end Tracking

end DamHopper.SessionChanges
