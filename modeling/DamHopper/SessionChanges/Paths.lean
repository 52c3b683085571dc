import DamHopper.SessionChanges.Requests

/-!
# SessionChanges — what a request does to a path

The two loops of a capture, one path at a time: `Handled` lists what the second scope can
do with a path it is given, `Adopted` what the end of a probe can do.
-/

namespace DamHopper.SessionChanges

/-- The request leaves the path alone, whatever it answers: in `PreEdit` mode because the
path is known, in `Unproven` mode because the entry is that of another capture, in both
because there is no room for another path. -/
def SessionChangesRecord.Ignores (record : SessionChangesRecord) (req : CaptureRequest)
    (path : String) : Prop :=
  match record.trackedPaths.get? path, req.mode with
  | some entry, .preEdit => entry.acknowledged = true
  | some entry, .unproven => entry.lastCaptureId ≠ some req.captureId
  | none, _ => MAX_PATHS_PER_SESSION ≤ record.trackedPaths.size

instance (record : SessionChangesRecord) (req : CaptureRequest) (path : String) :
    Decidable (record.Ignores req path) := by
  unfold SessionChangesRecord.Ignores
  split
  · infer_instance
  · infer_instance
  · infer_instance

namespace PathScope

section

variable {req : CaptureRequest} {newFileId : String → String} {now : String → Nat}
  {scope next : PathScope} {rawPath path fileId : String}

variable (req newFileId now scope rawPath) in
inductive Handled : PathScope → Prop
  | invalid (result : PathCaptureDisposition) :
      (∀ path, normalizeAndValidatePath rawPath ≠ .ok path) → Handled (scope.answer result)
  | ignored {path : String} (result : PathCaptureDisposition) :
      normalizeAndValidatePath rawPath = .ok path → scope.record.Ignores req path →
      Handled (scope.answer result)
  | downgraded {path : String} {entry : TrackedPathEntry} (result : PathCaptureDisposition) :
      req.mode = .unproven → normalizeAndValidatePath rawPath = .ok path →
      scope.record.trackedPaths.get? path = some entry →
      entry.lastCaptureId = some req.captureId →
      Handled ((scope.downgrade path entry).answer result)
  | noted {path : String} (result : PathCaptureDisposition) :
      req.mode = .unproven → normalizeAndValidatePath rawPath = .ok path →
      scope.record.trackedPaths.get? path = none →
      scope.record.trackedPaths.size < MAX_PATHS_PER_SESSION →
      Handled ((scope.write path
        (.inserted path (newFileId path) req.captureId [.absenceUnknown] .sealed)).answer result)
  | invalidated {path : String} {entry : TrackedPathEntry} (result : PathCaptureDisposition) :
      req.mode = .preEdit → normalizeAndValidatePath rawPath = .ok path →
      scope.record.trackedPaths.get? path = some entry → entry.acknowledged = false →
      Handled ((scope.write path entry.invalidated).answer result)
  | reserved {path : String} :
      req.mode = .preEdit → normalizeAndValidatePath rawPath = .ok path →
      scope.record.trackedPaths.get? path = none →
      scope.record.trackedPaths.size < MAX_PATHS_PER_SESSION →
      Handled (scope.reserve path (newFileId path) req.captureId (now path))

theorem unprovenPath_handled (hmode : req.mode = .unproven) :
    Handled req newFileId now scope rawPath
      (scope.unprovenPath req.captureId newFileId rawPath) := by
  unfold unprovenPath
  cases hpath : normalizeAndValidatePath rawPath with
  | error reason => exact .invalid _ fun path h => by rw [hpath] at h; cases h
  | ok path =>
    dsimp only
    cases hget : scope.record.trackedPaths.get? path with
    | some entry =>
      dsimp only
      split_ifs with hlast
      · exact .downgraded _ hmode hpath hget hlast
      exact .ignored _ hpath (by simpa [SessionChangesRecord.Ignores, hget, hmode] using hlast)
    | none =>
      split_ifs with hroom
      · exact .noted _ hmode hpath hget hroom
      exact .ignored _ hpath (by simpa [SessionChangesRecord.Ignores, hget] using hroom)

theorem reservePath_handled (hmode : req.mode = .preEdit) : Handled req newFileId now scope rawPath
      (scope.reservePath req.captureId newFileId now rawPath) := by
  unfold reservePath
  cases hpath : normalizeAndValidatePath rawPath with
  | error reason => exact .invalid _ fun path h => by rw [hpath] at h; cases h
  | ok path =>
    dsimp only
    cases hget : scope.record.trackedPaths.get? path with
    | some entry =>
      dsimp only
      split_ifs with hknown
      · exact .ignored _ hpath (by simpa [SessionChangesRecord.Ignores, hget, hmode] using hknown)
      · exact .invalidated _ hmode hpath hget (Bool.eq_false_of_not_eq_true hknown)
    | none =>
      split_ifs with hfull
      · exact .ignored _ hpath (by simpa [SessionChangesRecord.Ignores, hget] using hfull)
      · exact .reserved hmode hpath hget (Nat.lt_of_not_le hfull)

theorem handlePath_handled (req : CaptureRequest) (newFileId : String → String)
    (now : String → Nat) (scope : PathScope) (rawPath : String) :
    Handled req newFileId now scope rawPath (scope.handlePath req newFileId now rawPath) := by
  unfold handlePath
  split
  next hmode => exact unprovenPath_handled hmode
  next hmode => exact reservePath_handled hmode

/-- The reservation of a path is that of the request, and young enough. -/
def Owned (captureId : String) (now : Nat) (entry : TrackedPathEntry) : Prop :=
  ∃ reservedAt, entry.reservation = .pending captureId reservedAt ∧
    now - reservedAt ≤ CAPTURE_TIMEOUT_DEADLINE

variable (captureId : String) (now : Nat) (path : String) (scope : PathScope) in
inductive Adopted : PathScope → Prop
  | missing : scope.record.trackedPaths.get? path = none → Adopted scope
  | refused {entry : TrackedPathEntry} (result : PathCaptureDisposition) :
      scope.record.trackedPaths.get? path = some entry → ¬ Owned captureId now entry →
      Adopted (scope.answer result)
  | expired {entry : TrackedPathEntry} (result : PathCaptureDisposition) :
      scope.record.trackedPaths.get? path = some entry → entry.reservation ≠ .sealed →
      ¬ Owned captureId now entry →
      Adopted ((scope.write path entry.invalidated).answer result)
  | kept {entry : TrackedPathEntry} {allocated sizeBytes : Nat} {fileId : String}
      (bytes : List UInt8) (sha256 : String) (mode : Option Nat) (kind : FileContentKind) :
      scope.record.trackedPaths.get? path = some entry → Owned captureId now entry →
      tryReserveStorage scope.allocated sizeBytes = .ok allocated →
      Adopted (scope.keep path fileId
        (entry.captured bytes sizeBytes sha256 mode kind) allocated sizeBytes)
  | absent {entry : TrackedPathEntry} (result : PathCaptureDisposition) :
      scope.record.trackedPaths.get? path = some entry → Owned captureId now entry →
      Adopted ((scope.write path entry.absent).answer result)
  | unprobed {entry : TrackedPathEntry} (provenance : Provenance) (reason : CoverageReason)
      (result : PathCaptureDisposition) :
      scope.record.trackedPaths.get? path = some entry → Owned captureId now entry →
      Adopted ((scope.write path (entry.unprobed provenance reason)).answer result)

theorem storeProbe_adopted {captureId : String} {now : Nat} {entry : TrackedPathEntry}
    (hget : scope.record.trackedPaths.get? path = some entry)
    (hown : Owned captureId now entry) {probe : ProbeResult} :
    Adopted captureId now path scope (scope.storeProbe path fileId entry probe) := by
  unfold storeProbe
  cases probe with
  | present bytes sizeBytes sha256 mode kind =>
    dsimp only
    cases hroom : tryReserveStorage scope.allocated sizeBytes with
    | ok allocated => exact .kept bytes sha256 mode kind hget hown hroom
    | error error => exact .unprobed _ _ _ hget hown
  | absentAtFirstTouch => exact .absent _ hget hown
  | unknown reason | excluded reason => exact .unprobed _ _ _ hget hown

theorem adoptProbe_adopted (captureId : String) (now : Nat) (probe : ProbeResult)
    (path fileId : String) (scope : PathScope) :
    Adopted captureId now path scope (scope.adoptProbe captureId now probe path fileId) := by
  unfold adoptProbe
  cases hget : scope.record.trackedPaths.get? path with
  | none => exact .missing hget
  | some entry =>
    dsimp only
    split
    next hsealed =>
      refine .refused _ hget ?_
      rintro ⟨reservedAt, hpending, _⟩
      simp [hsealed] at hpending
    rename_i reservedBy reservedAt hpending
    split
    next hlate =>
      refine .expired _ hget (by rw [hpending]; exact nofun) ?_
      rintro ⟨reservedAt', hpending', hyoung⟩
      cases hpending.symm.trans hpending'
      omega
    next hyoung =>
      split_ifs with hmine
      · have hown : Owned captureId now entry :=
          ⟨reservedAt, by rw [hpending, hmine], Nat.le_of_not_lt hyoung⟩
        exact storeProbe_adopted hget hown
      · refine .refused _ hget ?_
        rintro ⟨reservedAt', hpending', _⟩
        cases hpending.symm.trans hpending'
        exact hmine rfl

end

end PathScope

end DamHopper.SessionChanges
