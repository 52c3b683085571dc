import DamHopper.SessionChanges.Paths

/-!
# SessionChanges — the accounting of stored bytes

Three numbers say how much is stored: the size of each entry that holds bytes, the amount
of each record and the counter of the service. They agree whenever no lock is held
(`Accounted`), so that what is released has always been counted before.

Inside a scope the counter is split into what the record at hand holds and what the other
records hold (`PathScope.Counted`); every path that is handled and every probe that is
adopted keeps that.
-/

namespace DamHopper.SessionChanges

open AssocMap SessionChangesService SessionChangesRecord TrackedPathEntry

def TrackedPathEntry.heldBytes (entry : TrackedPathEntry) : Nat :=
  if entry.bytes.isSome then entry.sizeBytes else 0

def SessionChangesRecord.heldBytes (record : SessionChangesRecord) : Nat :=
  record.trackedPaths.total TrackedPathEntry.heldBytes

structure SessionChangesService.Accounted (service : SessionChangesService) : Prop where
  retained : ∀ key record, service.records.get? key = some record →
    record.retainedBytes = record.heldBytes
  allocated : service.allocatedStorageBytes =
    service.records.total retainedBytes
  bounded : service.allocatedStorageBytes ≤ MAX_GLOBAL_STORAGE_BYTES

/-- An entry that waits for its probe holds no bytes. -/
def TrackedPathEntry.Waiting (entry : TrackedPathEntry) : Prop :=
  entry.reservation ≠ .sealed → entry.bytes = none

def SessionChangesRecord.Waiting (record : SessionChangesRecord) : Prop :=
  ∀ path entry, record.trackedPaths.get? path = some entry → entry.Waiting

variable {entry : TrackedPathEntry}

theorem TrackedPathEntry.Waiting.of_sealed (h : entry.reservation = .sealed) : entry.Waiting :=
  fun hpending => absurd h hpending

theorem TrackedPathEntry.Waiting.heldBytes_eq_zero (h : entry.Waiting) {captureId : String}
    {now : Nat} (hown : PathScope.Owned captureId now entry) : entry.heldBytes = 0 := by
  obtain ⟨reservedAt, hpending, _⟩ := hown
  have hnone : entry.bytes = none := h (by rw [hpending]; exact nofun)
  simp [heldBytes, hnone]

namespace PathScope

/-- The numbers agree, with `others` held by the other records. -/
structure Counted (others : Nat) (scope : PathScope) : Prop where
  waiting : scope.record.Waiting
  retained : scope.record.retainedBytes = scope.record.heldBytes
  allocated : scope.allocated = others + scope.record.retainedBytes
  bounded : scope.allocated ≤ MAX_GLOBAL_STORAGE_BYTES

section

variable {others : Nat} {scope : PathScope} {path : String} {entry entry' : TrackedPathEntry}

theorem release_eq : scope.release entry =
      { scope with
        allocated := scope.allocated - entry.heldBytes
        record := { scope.record with
          retainedBytes := scope.record.retainedBytes - entry.heldBytes } } := by
  unfold release TrackedPathEntry.heldBytes releaseStorage
  split <;> rfl

variable (h : Counted others scope)
include h

theorem Counted.answer (result : PathCaptureDisposition) :
    Counted others (scope.answer result) := { h with }

/-- An entry is written that leaves the sum as it was. -/
theorem Counted.written (hentry : entry'.Waiting)
    (htotal : (scope.record.trackedPaths.insert path entry').total TrackedPathEntry.heldBytes =
      scope.record.heldBytes) : Counted others (scope.write path entry') :=
  ⟨forall_insert h.waiting hentry, h.retained.trans htotal.symm, h.allocated, h.bounded⟩

theorem Counted.inserted (hget : scope.record.trackedPaths.get? path = none)
    (hentry : entry'.bytes = none) : Counted others (scope.write path entry') := by
  refine h.written (fun _ => hentry) ?_
  rw [total_insert_of_get?_none hget]
  simp [TrackedPathEntry.heldBytes, hentry, SessionChangesRecord.heldBytes]

variable {fileId captureId rawPath : String} {now : Nat} {next : PathScope} {req : CaptureRequest}

theorem Counted.reserve (hget : scope.record.trackedPaths.get? path = none) :
    Counted others (scope.reserve path fileId captureId now) := by
  let entry : TrackedPathEntry := .inserted path fileId captureId [] (.pending captureId now)
  have hwritten : Counted others (scope.write path entry) := h.inserted hget rfl
  exact { hwritten with }

section

variable (hget : scope.record.trackedPaths.get? path = some entry)
include hget

theorem Counted.rewritten (hentry : entry'.Waiting)
    (hheld : entry'.heldBytes = entry.heldBytes) : Counted others (scope.write path entry') := by
  refine h.written hentry ?_
  have htotal := total_insert_of_get? hget entry' heldBytes
  unfold SessionChangesRecord.heldBytes
  omega

/-- What an entry counts is part of what its record counts, and of the counter. -/
theorem Counted.heldBytes_le :
    entry.heldBytes ≤ scope.record.retainedBytes ∧ entry.heldBytes ≤ scope.allocated := by
  have hle := le_total hget heldBytes
  have hretained := h.retained
  have hallocated := h.allocated
  unfold SessionChangesRecord.heldBytes at hretained
  omega

theorem Counted.downgrade : Counted others (scope.downgrade path entry) := by
  have htotal := total_insert_of_get? hget entry.downgraded heldBytes
  have hzero : entry.downgraded.heldBytes = 0 := rfl
  have hretained := h.retained
  have hallocated := h.allocated
  unfold SessionChangesRecord.heldBytes at hretained
  unfold PathScope.downgrade
  rw [release_eq]
  constructor
  · exact forall_insert h.waiting fun _ => rfl
  · simp only [write, SessionChangesRecord.heldBytes]
    omega
  · simp only [write]
    omega
  · have hbounded := h.bounded
    simp only [write]
    omega

theorem Counted.keep (hown : Owned captureId now entry)
    {allocated sizeBytes : Nat}
    (hroom : tryReserveStorage scope.allocated sizeBytes = .ok allocated) (bytes : List UInt8)
    (sha256 : String) (mode : Option Nat) (kind : FileContentKind) :
    Counted others (scope.keep path fileId (entry.captured bytes sizeBytes sha256 mode kind)
      allocated sizeBytes) := by
  have htotal := total_insert_of_get? hget
    (entry.captured bytes sizeBytes sha256 mode kind) heldBytes
  have hsize : (entry.captured bytes sizeBytes sha256 mode kind).heldBytes = sizeBytes := rfl
  have hzero : entry.heldBytes = 0 := (h.waiting path entry hget).heldBytes_eq_zero hown
  have hretained := h.retained
  have hallocated := h.allocated
  obtain ⟨hnext, hfits⟩ := tryReserveStorage_eq_ok hroom
  unfold SessionChangesRecord.heldBytes at hretained
  constructor
  · exact forall_insert h.waiting (.of_sealed rfl)
  · simp only [PathScope.keep, PathScope.answer, write, SessionChangesRecord.heldBytes]
    omega
  · simp only [PathScope.keep, PathScope.answer, write]
    omega
  · simp only [PathScope.keep]
    omega

end

/-- **Every path that a request handles keeps the numbers.** -/
theorem Counted.handled {newFileId : String → String} {now : String → Nat}
    (hnext : Handled req newFileId now scope rawPath next) :
    Counted others next := by
  cases hnext with
  | invalid result _ | ignored result _ _ => exact h.answer result
  | downgraded result _ _ hget _ => exact (h.downgrade hget).answer result
  | noted result _ _ hget _ => exact Counted.answer (h.inserted hget rfl) result
  | invalidated result _ _ hget _ =>
    refine Counted.answer (h.rewritten hget (.of_sealed ?_) ?_) result <;> rfl
  | reserved _ _ hget _ => exact Counted.reserve h hget

/-- **Every probe that ends keeps the numbers.** -/
theorem Counted.adopted (hnext : Adopted captureId now path scope next) :
    Counted others next := by
  cases hnext with
  | missing _ => exact h
  | refused result _ _ => exact h.answer result
  | expired result hget _ _ | unprobed _ _ result hget _ =>
    refine Counted.answer (h.rewritten hget (.of_sealed ?_) ?_) result <;> rfl
  | kept bytes sha256 mode kind hget hown hroom =>
    exact h.keep hget hown hroom bytes sha256 mode kind
  | absent result hget hown =>
    have hzero := (h.waiting path _ hget).heldBytes_eq_zero hown
    refine Counted.answer (h.rewritten hget (.of_sealed ?_) ?_) result
    · rfl
    · exact hzero.symm

theorem Counted.handlePaths (req : CaptureRequest)
    (newFileId : String → String) (now : String → Nat) :
    Counted others (scope.handlePaths req newFileId now) :=
  invariant_run_all (I := Counted others) (fun scope rawPath h =>
    h.handled (handlePath_handled req newFileId now scope rawPath)) req.paths h

theorem Counted.pathReleases_le : ∀ r ∈ scope.pathReleases req rawPath, r.2 ≤ r.1 := by
  intro r hr
  unfold pathReleases at hr
  split at hr
  · split at hr
    next entry hget =>
      split_ifs at hr with hheld
      · have hle := h.heldBytes_le hget
        rw [TrackedPathEntry.heldBytes, if_pos hheld.2] at hle
        rw [List.mem_cons, List.mem_singleton] at hr
        rcases hr with rfl | rfl
        · exact hle.2
        · exact hle.1
      · cases hr
    · cases hr
  · cases hr

end

end PathScope

/-! ## The service -/

namespace SessionChangesService

/-- The numbers agree, and no entry holds bytes before its probe has ended. -/
structure Sound (service : SessionChangesService) : Prop extends Accounted service where
  waiting : ∀ key record, service.records.get? key = some record → record.Waiting

section

variable {service : SessionChangesService} {key : SessionChangesKey}
  {record : SessionChangesRecord}

/-- What the other records hold. -/
theorem Sound.openScope (h : service.Sound) (hget : service.records.get? key = some record)
    (results : List PathCaptureDisposition) :
    PathScope.Counted ((service.records.erase key).total retainedBytes)
      (service.openScope record results) where
  waiting := h.waiting key record hget
  retained := h.retained key record hget
  allocated := h.allocated.trans (total_erase hget _).symm
  bounded := h.bounded

theorem Sound.closeScope (h : service.Sound) (hget : service.records.get? key = some record)
    {scope : PathScope} (hscope : PathScope.Counted
      ((service.records.erase key).total retainedBytes) scope) :
    (service.closeScope key scope).Sound where
  retained := forall_insert h.retained hscope.retained
  allocated := by
    have hothers := total_erase hget retainedBytes
    have hwritten := total_insert_of_get? hget scope.record SessionChangesRecord.retainedBytes
    have hallocated := hscope.allocated
    simp only [SessionChangesService.closeScope]
    omega
  bounded := hscope.bounded
  waiting := forall_insert h.waiting hscope.waiting

theorem Sound.removeRecord (h : service.Sound) (key : SessionChangesKey) :
    (service.removeRecord key).Sound := by
  unfold SessionChangesService.removeRecord
  cases hget : service.records.get? key with
  | none => exact h
  | some record =>
    have hothers := total_erase hget retainedBytes
    have hallocated := h.allocated
    have hbounded := h.bounded
    constructor
    · constructor
      · exact fun key' record' hget' => h.retained key' record' (get?_of_erase hget')
      · simp only [releaseStorage]
        omega
      · simp only [releaseStorage]
        omega
    · exact fun key' record' hget' => h.waiting key' record' (get?_of_erase hget')

theorem Sound.removeReleases_le (h : service.Sound) (key : SessionChangesKey) :
    ∀ r ∈ service.removeReleases key, r.2 ≤ r.1 := by
  intro r hr
  unfold removeReleases at hr
  split at hr
  · cases hr
  rename_i record hget
  rw [List.mem_singleton.mp hr, h.allocated]
  exact le_total hget retainedBytes

theorem Sound.registered (h : service.Sound) (hnew : service.records.get? key = none)
    (uuid ompSessionId rootId canonicalRoot : String) (generation nowMs : Nat) :
    (service.addRecord key
      (.fresh uuid ompSessionId rootId canonicalRoot generation nowMs)).Sound := by
  constructor
  · constructor
    · exact forall_insert h.retained rfl
    · simp only [addRecord]
      rw [total_insert_of_get?_none hnew, ← h.allocated]
      rfl
    · exact h.bounded
  · refine forall_insert h.waiting fun path entry hentry => ?_
    cases hentry

end

end SessionChangesService

/-! ## Whole runs -/

namespace Tracking

/-- Between the two halves of `disable_and_purge` there are no records; otherwise the
numbers agree. -/
structure Balanced (s : Tracking) : Prop where
  sound : s.purging = false → s.service.Sound
  purged : s.purging = true → s.service.records = .empty

variable {s : Tracking}

theorem Balanced.removed (h : s.Balanced) (terminalId terminalIncarnation : String) :
    (s.purging = false → (s.service.removeTerminalRecords terminalId terminalIncarnation).Sound) ∧
    (s.purging = true →
      (s.service.removeTerminalRecords terminalId terminalIncarnation).records = .empty) := by
  constructor
  · intro hfree
    exact invariant_run_all (fun service key hsound => hsound.removeRecord key) _ (h.sound hfree)
  · intro hpurging
    unfold removeTerminalRecords keysToRemove
    rw [h.purged hpurging]
    exact h.purged hpurging

/-- The numbers after an input that leaves the lifecycle lock free. -/
theorem Balanced.change (h : s.Balanced) (hfree : s.purging = false) {input : Input}
    {service : SessionChangesService} (hchange : Change s input service)
    (hinput : input ≠ .disableAndPurge) : service.Sound := by
  have hsound := h.sound hfree
  cases hchange with
  | same => exact hsound
  | enabled _ =>
    unfold enable
    split
    · exact hsound
    · exact ⟨⟨hsound.retained, hsound.allocated, hsound.bounded⟩, hsound.waiting⟩
  | cleared _ => exact absurd rfl hinput
  | reset hpurging =>
    simp [hfree] at hpurging
  | removed terminalId terminalIncarnation =>
    exact (h.removed terminalId terminalIncarnation).1 hfree
  | registered _ hnew _ => exact hsound.registered hnew _ _ _ _ _ _
  | proceeded _ _ hrecord =>
    have hget := findRecord_get? hrecord
    exact hsound.closeScope hget ((hsound.openScope hget []).handlePaths _ _ _)
  | adopted _ _ hrecord =>
    have hget := findRecord_get? (findBaseline_ok hrecord).1
    exact hsound.closeScope hget
      ((hsound.openScope hget _).adopted (PathScope.adoptProbe_adopted _ _ _ _ _ _))

theorem Balanced.step (h : s.Balanced) (input : Input) : (s.step input).Balanced := by
  by_cases hpurging : s.purging = true
  · have hstep : s.step input = s.stepPurging input := if_pos hpurging
    rw [hstep]
    cases input with
    | finishPurge =>
      -- the counter is reset over empty records
      have hempty := h.purged hpurging
      refine ⟨fun _ => ⟨⟨?_, ?_, Nat.zero_le _⟩, ?_⟩, nofun⟩ <;>
        simp [stepPurging, resetStorage, hempty]
    | removeTerminalRecords terminalId terminalIncarnation =>
      obtain ⟨hsound, hpurged⟩ := h.removed terminalId terminalIncarnation
      exact ⟨hsound, hpurged⟩
    | _ => exact h
  · have hfree : s.purging = false := Bool.eq_false_of_not_eq_true hpurging
    by_cases hinput : input = .disableAndPurge
    · have hstep : s.step input =
          { s with service := s.service.clearRecords, purging := true } := by
        rw [hinput]
        exact if_neg hpurging
      rw [hstep]
      exact ⟨fun hfalse => absurd hfalse (by simp), fun _ => rfl⟩
    · have hnext := step_purging hfree hinput
      constructor
      · exact fun _ => h.change hfree (step_change s input) hinput
      · simp [hnext]

theorem balanced_new (serverEpoch : String) : (new serverEpoch).Balanced where
  sound _ :=
    { retained := nofun
      allocated := rfl
      bounded := Nat.zero_le _
      waiting := nofun }
  purged := nofun

/-- What an input releases has been counted. -/
theorem Balanced.releases_le (h : s.Balanced) (input : Input) :
    ∀ r ∈ s.releases input, r.2 ≤ r.1 := by
  cases input with
  | removeTerminalRecords terminalId terminalIncarnation =>
    by_cases hpurging : s.purging = true
    · unfold releases keysToRemove
      rw [h.purged hpurging]
      exact nofun
    · exact forall_mem_outputs (fun service key hsound => hsound.removeRecord key)
        (fun service key hsound => hsound.removeReleases_le key)
        (h.sound (Bool.eq_false_of_not_eq_true hpurging))
  | proceed i newFileId now =>
    simp only [releases]
    split_ifs with hpurging
    · exact List.forall_mem_nil _
    have hsound := h.sound (Bool.eq_false_of_not_eq_true hpurging)
    split
    · split
      next record hrecord =>
        have hget := findRecord_get? hrecord
        exact forall_mem_outputs (fun scope rawPath hcounted =>
            hcounted.handled (PathScope.handlePath_handled _ newFileId now scope rawPath))
          (fun scope rawPath hcounted => hcounted.pathReleases_le)
          (hsound.openScope hget [])
      · exact List.forall_mem_nil _
    · exact List.forall_mem_nil _
  | _ => exact List.forall_mem_nil _

/-- **The bytes stored are accounted for.** Whatever the order in which the lock scopes of
registrations, captures, removals and of switching tracking on and off come: whenever no lock
is held, each record counts what its entries hold, the counter is the sum over the records and
within its limit; and no release ever subtracts more than is there. -/
theorem storage_accounted (serverEpoch : String) (inputs : List Input) :
    Always step (fun s => s.purging = false → s.service.Accounted) (new serverEpoch) inputs ∧
    ∀ r ∈ outputs step releases (new serverEpoch) inputs, r.2 ≤ r.1 := by
  have hstart := balanced_new serverEpoch
  constructor
  · have hbalanced := always_all (I := Balanced) (fun s input h => h.step input) inputs hstart
    exact hbalanced.mono fun s h hfree => (h.sound hfree).toAccounted
  · exact forall_mem_outputs (I := Balanced) (fun s input h => h.step input)
      (fun s input h => h.releases_le input) hstart

example : (run step (new "e") [.enable,
    .beginRegister "t" "1" ⟨1, "s", "."⟩ (.ok "/r"), .register 0 "b" 0 true,
    .beginCapture "t" "1" ⟨1, "e", "1", "s", ".", "b", "c", ["a"], .preEdit⟩, .admission 0,
    .proceed 0 (fun _ => "f") (fun _ => 0),
    .adopt 0 (.present [1, 2] 2 "h" none .text) 5]).service.allocatedStorageBytes = 2 := by
  decide

end Tracking

end DamHopper.SessionChanges
