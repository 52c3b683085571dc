import DamHopper.SessionChanges.Capture

/-!
# SessionChanges — requests in flight

The service with its requests: each is somewhere between two of its lock scopes, and the
next scope of any of them may come next. An input is one such scope, or one of the calls
that take a lock once (`enable`, `remove_terminal_records`). `disable_and_purge` resets the
counter after it has released the records, still holding the lifecycle lock: while it is
between the two (`purging`) only `remove_terminal_records`, which does not take the lifecycle
lock, can go on.

`Change` says once what an input can do to the service.
-/

namespace DamHopper.SessionChanges

open SessionChangesService List

inductive RegisterStage where
  | started (generation : Nat) (canonicalRoot : String)
  | finished (outcome : Except ErrorCode RegisterResponse)

structure RegisterTask where
  key : SessionChangesKey
  stage : RegisterStage

/-- How far a capture has come: after its first checks, after its admission, or with paths
still to probe. -/
inductive CaptureStage where
  | started (generation : Nat)
  | admitted (generation : Nat)
  | probing (generation : Nat) (path fileId : String) (rest : List (String × String))
      (results : List PathCaptureDisposition)
  | finished (outcome : Except ErrorCode CaptureResponse)

structure CaptureTask where
  key : SessionChangesKey
  req : CaptureRequest
  stage : CaptureStage

/-- The loop over the paths to probe: with none left the answers are returned. -/
def CaptureStage.next (generation : Nat) (captureId : String)
    (results : List PathCaptureDisposition) : List (String × String) → CaptureStage
  | [] => .finished (.ok ⟨1, captureId, results⟩)
  | (path, fileId) :: rest => .probing generation path fileId rest results

def CaptureStage.Admitted : CaptureStage → Prop
  | .admitted _ => True
  | .probing .. => True
  | _ => False

def CaptureStage.toProbe : CaptureStage → List String
  | .probing _ path _ rest _ => path :: rest.map Prod.fst
  | _ => []

theorem CaptureStage.toProbe_next {generation : Nat} {captureId : String}
    {results : List PathCaptureDisposition} {paths : List (String × String)} :
    (next generation captureId results paths).toProbe = paths.map Prod.fst := by
  cases paths with
  | nil | cons probe rest => rfl

variable {stage : CaptureStage}

theorem CaptureStage.admitted_of_mem_toProbe {path : String}
    (h : path ∈ stage.toProbe) : stage.Admitted := by
  cases stage with
  | probing _ _ _ _ _ => trivial
  | _ => cases h

structure Tracking where
  service : SessionChangesService
  purging : Bool
  registrations : List RegisterTask
  captures : List CaptureTask

inductive Input where
  | enable
  | disableAndPurge
  | finishPurge
  | removeTerminalRecords (terminalId terminalIncarnation : String)
  | beginRegister (terminalId terminalIncarnation : String) (req : RegisterRequest)
      (preflight : Except RootPreflightError String)
  | register (task : Nat) (uuid : String) (nowMs : Nat) (rootOpened : Bool)
  | beginCapture (terminalId terminalIncarnation : String) (req : CaptureRequest)
  | admission (task : Nat)
  | proceed (task : Nat) (newFileId : String → String) (now : String → Nat)
  | adopt (task : Nat) (probe : ProbeResult) (now : Nat)

namespace Tracking

variable (s : Tracking) (i : Nat)

def new (serverEpoch : String) : Tracking := ⟨.new serverEpoch, false, [], []⟩

def setCapture (task : CaptureTask) (stage : CaptureStage) : Tracking :=
  { s with captures := s.captures.set i { task with stage } }

def setRegistration (task : RegisterTask) (stage : RegisterStage) : Tracking :=
  { s with registrations := s.registrations.set i { task with stage } }

def register (uuid : String) (nowMs : Nat) (rootOpened : Bool) : Tracking :=
  match s.registrations[i]? with
  | some ⟨key, .started generation canonicalRoot⟩ =>
    let task : RegisterTask := ⟨key, .started generation canonicalRoot⟩
    match s.service.finishRegister key generation canonicalRoot uuid nowMs rootOpened with
    | .error error => s.setRegistration i task (.finished (.error error))
    | .ok (response, service) =>
      { s.setRegistration i task (.finished (.ok response)) with service }
  | _ => s

def admission : Tracking :=
  match s.captures[i]? with
  | some ⟨key, req, .started generation⟩ =>
    let task : CaptureTask := ⟨key, req, .started generation⟩
    match s.service.admitCapture key generation req with
    | .error error => s.setCapture i task (.finished (.error error))
    | .ok () => s.setCapture i task (.admitted generation)
  | _ => s

def proceed (newFileId : String → String) (now : String → Nat) : Tracking :=
  match s.captures[i]? with
  | some ⟨key, req, .admitted generation⟩ =>
    let task : CaptureTask := ⟨key, req, .admitted generation⟩
    match s.service.proceedCapture key generation req newFileId now with
    | .error error => s.setCapture i task (.finished (.error error))
    | .ok scope =>
      { s.setCapture i task
          (.next generation req.captureId scope.results scope.pathsToProbe) with
        service := s.service.closeScope key scope }
  | _ => s

def adopt (probe : ProbeResult) (now : Nat) : Tracking :=
  match s.captures[i]? with
  | some ⟨key, req, .probing generation path fileId rest results⟩ =>
    let task : CaptureTask := ⟨key, req, .probing generation path fileId rest results⟩
    match s.service.adoptCapture key generation req path fileId results probe now with
    | .error error => s.setCapture i task (.finished (.error error))
    | .ok scope =>
      { s.setCapture i task (.next generation req.captureId scope.results rest) with
        service := s.service.closeScope key scope }
  | _ => s

def stepFree : Input → Tracking
  | .enable => { s with service := s.service.enable }
  | .disableAndPurge => { s with service := s.service.clearRecords, purging := true }
  | .finishPurge => s
  | .removeTerminalRecords terminalId terminalIncarnation =>
    { s with service := s.service.removeTerminalRecords terminalId terminalIncarnation }
  | .beginRegister terminalId terminalIncarnation req preflight =>
    let key := ⟨terminalId, terminalIncarnation, req.ompSessionId, req.rootId⟩
    let stage := match s.service.beginRegister terminalIncarnation req preflight with
      | .error error => .finished (.error error)
      | .ok (generation, canonicalRoot) => .started generation canonicalRoot
    { s with registrations := s.registrations ++ [⟨key, stage⟩] }
  | .register i uuid nowMs rootOpened => s.register i uuid nowMs rootOpened
  | .beginCapture terminalId terminalIncarnation req =>
    let key := ⟨terminalId, terminalIncarnation, req.ompSessionId, req.rootId⟩
    let stage := match s.service.beginCapture terminalIncarnation req with
      | .error error => .finished (.error error)
      | .ok generation => .started generation
    { s with captures := s.captures ++ [⟨key, req, stage⟩] }
  | .admission i => s.admission i
  | .proceed i newFileId now => s.proceed i newFileId now
  | .adopt i probe now => s.adopt i probe now

/-- An input while `disable_and_purge` holds the lifecycle lock: what needs the lock has to
wait. -/
def stepPurging : Input → Tracking
  | .finishPurge => { s with service := s.service.resetStorage, purging := false }
  | .removeTerminalRecords terminalId terminalIncarnation =>
    { s with service := s.service.removeTerminalRecords terminalId terminalIncarnation }
  | _ => s

def step (input : Input) : Tracking :=
  if s.purging then s.stepPurging input else s.stepFree input

/-- The subtractions of an input, each with the number it subtracts from. -/
def releases : Input → List (Nat × Nat)
  | .removeTerminalRecords terminalId terminalIncarnation =>
    outputs removeRecord removeReleases s.service
      (s.service.keysToRemove terminalId terminalIncarnation)
  | .proceed i newFileId now =>
    if s.purging then []
    else match s.captures[i]? with
    | some ⟨key, req, .admitted generation⟩ =>
      match s.service.findRecord key generation with
      | .ok record =>
        outputs (PathScope.handlePath req newFileId now) (PathScope.pathReleases req)
          (s.service.openScope record []) req.paths
      | .error _ => []
    | _ => []
  | _ => []

/-! ## What an input can do -/

inductive Change (s : Tracking) : Input → SessionChangesService → Prop
  | same (input : Input) : Change s input s.service
  | enabled : s.purging = false → Change s .enable s.service.enable
  | cleared : s.purging = false → Change s .disableAndPurge s.service.clearRecords
  | reset : s.purging = true → Change s .finishPurge s.service.resetStorage
  | removed (terminalId terminalIncarnation : String) :
      Change s (.removeTerminalRecords terminalId terminalIncarnation)
        (s.service.removeTerminalRecords terminalId terminalIncarnation)
  | registered {i nowMs generation : Nat} {uuid canonicalRoot : String} {rootOpened : Bool}
      {key : SessionChangesKey} : s.purging = false →
      s.service.records.get? key = none → s.service.records.size < MAX_RETAINED_IDENTITIES →
      Change s (.register i uuid nowMs rootOpened)
        (s.service.addRecord key
          (.fresh uuid key.ompSessionId key.rootId canonicalRoot generation nowMs))
  | proceeded {i generation : Nat} {newFileId : String → String} {now : String → Nat}
      {key : SessionChangesKey} {req : CaptureRequest} {record : SessionChangesRecord} :
      s.purging = false → s.captures[i]? = some ⟨key, req, .admitted generation⟩ →
      s.service.findRecord key generation = .ok record →
      Change s (.proceed i newFileId now) (s.service.closeScope key
        ((s.service.openScope record []).handlePaths req newFileId now))
  | adopted {i generation now : Nat} {probe : ProbeResult} {key : SessionChangesKey}
      {req : CaptureRequest} {path fileId : String} {rest : List (String × String)}
      {results : List PathCaptureDisposition} {record : SessionChangesRecord} :
      s.purging = false →
      s.captures[i]? = some ⟨key, req, .probing generation path fileId rest results⟩ →
      s.service.findBaseline key generation req.baselineId = .ok record →
      Change s (.adopt i probe now) (s.service.closeScope key
        ((s.service.openScope record results).adoptProbe req.captureId now probe path fileId))

end Tracking

namespace SessionChangesService

variable {service : SessionChangesService} {key : SessionChangesKey} {generation : Nat}
  {req : CaptureRequest} {record : SessionChangesRecord}

theorem findRecord_get? (h : service.findRecord key generation = .ok record) :
    service.records.get? key = some record := by
  unfold findRecord at h
  rw [check_bind_eq_ok_iff, expect_eq_ok_iff] at h
  exact h.2

theorem findBaseline_ok {baselineId : String}
    (h : service.findBaseline key generation baselineId = .ok record) :
    service.findRecord key generation = .ok record ∧ record.baselineId = baselineId := by
  unfold findBaseline at h
  rw [bind_eq_ok_iff] at h
  obtain ⟨found, hfound, h⟩ := h
  rw [check_bind_eq_ok_iff, require_eq_ok_iff] at h
  obtain ⟨hbaseline, ⟨⟩⟩ := h
  exact ⟨hfound, hbaseline⟩

variable {scope : PathScope}

theorem proceedCapture_ok {newFileId : String → String} {now : String → Nat}
    (h : service.proceedCapture key generation req newFileId now = .ok scope) :
    ∃ record, service.findRecord key generation = .ok record ∧
      scope = (service.openScope record []).handlePaths req newFileId now := by
  unfold proceedCapture at h
  rw [bind_eq_ok_iff] at h
  obtain ⟨record, hrecord, h⟩ := h
  exact ⟨record, hrecord, (Except.ok.inj h).symm⟩

/-- A registration finds the record or adds a new one. -/
theorem finishRegister_ok {canonicalRoot uuid : String} {nowMs : Nat} {rootOpened : Bool}
    {response : RegisterResponse} {service' : SessionChangesService}
    (h : service.finishRegister key generation canonicalRoot uuid nowMs rootOpened =
      .ok (response, service')) :
    service' = service ∨ (service.records.get? key = none ∧
      service.records.size < MAX_RETAINED_IDENTITIES ∧
      service' = service.addRecord key
        (.fresh uuid key.ompSessionId key.rootId canonicalRoot generation nowMs)) := by
  unfold finishRegister at h
  rw [check_bind_eq_ok_iff] at h
  have hrest := h.2
  cases hget : service.records.get? key with
  | some existing =>
    rw [hget] at hrest
    exact .inl (Prod.mk.inj (Except.ok.inj hrest)).2.symm
  | none =>
    rw [hget] at hrest
    simp only [check_bind_eq_ok_iff, require_eq_ok_iff] at hrest
    obtain ⟨hroom, _, hrest⟩ := hrest
    exact .inr ⟨rfl, hroom, (Prod.mk.inj (Except.ok.inj hrest)).2.symm⟩

end SessionChangesService

namespace Tracking

variable {rootOpened : Bool} {newFileId : String → String} {now : String → Nat}
  {probe : ProbeResult} {input : Input} {i : Nat} {s : Tracking}

theorem register_change (hfree : s.purging = false) {uuid : String} {nowMs : Nat} :
    Change s (.register i uuid nowMs rootOpened) (s.register i uuid nowMs rootOpened).service := by
  unfold register
  split
  next key generation canonicalRoot _ =>
    cases hfinish : s.service.finishRegister key generation canonicalRoot uuid nowMs rootOpened with
    | error error => exact .same _
    | ok result =>
      obtain ⟨response, service⟩ := result
      rcases finishRegister_ok hfinish with rfl | ⟨hnew, hroom, rfl⟩
      · exact .same _
      · exact .registered hfree hnew hroom
  · exact .same _

section

variable {s : Tracking} (hfree : s.purging = false)
include hfree

theorem step_free : s.step input = s.stepFree input :=
  if_neg (by rw [hfree]; exact Bool.false_ne_true)

theorem proceed_change :
    Change s (.proceed i newFileId now) (s.proceed i newFileId now).service := by
  unfold proceed
  split
  next key req generation htask =>
    cases hscope : s.service.proceedCapture key generation req newFileId now with
    | error error => exact .same _
    | ok scope =>
      obtain ⟨record, hrecord, rfl⟩ := proceedCapture_ok hscope
      exact .proceeded hfree htask hrecord
  · exact .same _

theorem step_proceed_service {generation : Nat} {key : SessionChangesKey} {req : CaptureRequest}
    {record : SessionChangesRecord} (htask : s.captures[i]? = some ⟨key, req, .admitted generation⟩)
    (hrecord : s.service.findRecord key generation = .ok record) :
    (s.step (.proceed i newFileId now)).service = s.service.closeScope key
        ((s.service.openScope record []).handlePaths req newFileId now) := by
  have hscope : s.service.proceedCapture key generation req newFileId now =
      .ok ((s.service.openScope record []).handlePaths req newFileId now) := by
    unfold proceedCapture
    rw [hrecord]
    rfl
  rw [step_free hfree, stepFree, proceed, htask]
  dsimp only
  rw [hscope]

theorem adopt_change {now : Nat} :
    Change s (.adopt i probe now) (s.adopt i probe now).service := by
  unfold adopt
  split
  next key req generation path fileId rest results htask =>
    cases hscope : s.service.adoptCapture key generation req path fileId results probe now with
    | error error => exact .same _
    | ok scope =>
      unfold adoptCapture at hscope
      rw [bind_eq_ok_iff] at hscope
      obtain ⟨record, hrecord, ⟨⟩⟩ := hscope
      exact .adopted hfree htask hrecord
  · exact .same _

end

/-- Only `disable_and_purge` keeps the lifecycle locked between two scopes. -/
theorem step_purging (hfree : s.purging = false)
    (hinput : input ≠ .disableAndPurge) : (s.step input).purging = false := by
  rw [step_free hfree]
  cases input with
  | disableAndPurge => exact absurd rfl hinput
  | register | admission | proceed | adopt =>
    simp only [stepFree, register, admission, proceed, adopt]
    repeat' split
    all_goals exact hfree
  | _ => exact hfree

/-- **What an input can do to the service**, in whatever state the requests are. -/
theorem step_change (s : Tracking) (input : Input) : Change s input (s.step input).service := by
  unfold step
  split_ifs with hpurging
  · cases input with
    | finishPurge => exact .reset hpurging
    | removeTerminalRecords terminalId terminalIncarnation => exact .removed _ _
    | _ => exact .same _
  rw [Bool.not_eq_true] at hpurging
  cases input with
  | enable => exact .enabled hpurging
  | disableAndPurge => exact .cleared hpurging
  | finishPurge | beginRegister | beginCapture => exact .same _
  | removeTerminalRecords terminalId terminalIncarnation => exact .removed _ _
  | register i uuid nowMs rootOpened => exact register_change hpurging
  | admission i =>
    simp only [stepFree, admission]
    repeat' split
    all_goals exact .same _
  | proceed i newFileId now => exact proceed_change hpurging
  | adopt i probe now => exact adopt_change hpurging

/-! ## What an input can do to a capture -/

/-- What an input can do to a capture: nothing, end it, or take it to its next stage. -/
inductive TaskStep (s : Tracking) (i : Nat) (task : CaptureTask) : Input → CaptureTask → Prop
  | same (input : Input) : TaskStep s i task input task
  | finished (input : Input) (outcome : Except ErrorCode CaptureResponse) :
      TaskStep s i task input { task with stage := .finished outcome }
  | admitted {generation : Nat} {record : SessionChangesRecord} :
      task.stage = .started generation →
      s.service.findBaseline task.key generation task.req.baselineId = .ok record →
      TaskStep s i task (.admission i) { task with stage := .admitted generation }
  | proceeded {generation : Nat} {record : SessionChangesRecord} {newFileId : String → String}
      {now : String → Nat} {scope : PathScope} : s.purging = false →
      task.stage = .admitted generation →
      s.service.findRecord task.key generation = .ok record →
      scope = (s.service.openScope record []).handlePaths task.req newFileId now →
      (s.step (.proceed i newFileId now)).service = s.service.closeScope task.key scope →
      TaskStep s i task (.proceed i newFileId now)
        { task with
          stage := .next generation task.req.captureId scope.results scope.pathsToProbe }
  | adopted {generation now : Nat} {probe : ProbeResult} {path fileId : String}
      {rest : List (String × String)} {results results' : List PathCaptureDisposition} :
      task.stage = .probing generation path fileId rest results →
      TaskStep s i task (.adopt i probe now)
        { task with stage := .next generation task.req.captureId results' rest }

variable {s : Tracking} {i j : Nat} {task task' : CaptureTask}

theorem setCapture_task {input : Input} (h : s.captures[i]? = some task)
    (hstep : TaskStep s i task input { task with stage })
    (hnext : (s.setCapture i task stage).captures[j]? = some task') :
    ∃ task, s.captures[j]? = some task ∧ TaskStep s j task input task' := by
  obtain ⟨hlt, _⟩ := List.getElem?_eq_some_iff.mp h
  simp only [setCapture] at hnext
  by_cases heq : j = i
  · rw [heq, getElem?_set_self hlt] at hnext
    cases hnext
    exact heq ▸ ⟨task, h, hstep⟩
  · rw [getElem?_set_ne (Ne.symm heq)] at hnext
    exact ⟨task', hnext, .same _⟩

theorem admission_task (hnext : (s.admission i).captures[j]? = some task') :
    ∃ task, s.captures[j]? = some task ∧ TaskStep s j task (.admission i) task' := by
  unfold admission at hnext
  split at hnext
  next key req generation htask =>
    cases hadmission : s.service.admitCapture key generation req with
    | error error =>
      rw [hadmission] at hnext
      exact setCapture_task htask (.finished _ _) hnext
    | ok _ =>
      rw [hadmission] at hnext
      unfold admitCapture at hadmission
      rw [bind_eq_ok_iff] at hadmission
      obtain ⟨record, hrecord, _⟩ := hadmission
      exact setCapture_task htask (.admitted rfl hrecord) hnext
  · exact ⟨task', hnext, .same _⟩

theorem proceed_task (hfree : s.purging = false)
    (hnext : (s.proceed i newFileId now).captures[j]? = some task') :
    ∃ task, s.captures[j]? = some task ∧ TaskStep s j task (.proceed i newFileId now) task' := by
  have hstep : s.step (.proceed i newFileId now) = s.proceed i newFileId now := step_free hfree
  unfold proceed at hnext hstep
  split at hnext
  next key req generation htask =>
    rw [htask] at hstep
    dsimp only at hnext hstep
    cases hscope : s.service.proceedCapture key generation req newFileId now with
    | error error =>
      rw [hscope] at hnext
      exact setCapture_task htask (.finished _ _) hnext
    | ok scope =>
      rw [hscope] at hnext hstep
      obtain ⟨record, hrecord, heq⟩ := proceedCapture_ok hscope
      exact setCapture_task htask (.proceeded hfree rfl hrecord heq (by rw [hstep])) hnext
  · exact ⟨task', hnext, .same _⟩

theorem adopt_task {now : Nat} (hnext : (s.adopt i probe now).captures[j]? = some task') :
    ∃ task, s.captures[j]? = some task ∧ TaskStep s j task (.adopt i probe now) task' := by
  unfold adopt at hnext
  split at hnext
  next key req generation path fileId rest results htask =>
    split at hnext
    · exact setCapture_task htask (.finished _ _) hnext
    · exact setCapture_task htask (.adopted rfl) hnext
  · exact ⟨task', hnext, .same _⟩

/-- **A capture is one that was there before, in its next stage, or a new one**, which has
not been admitted. -/
theorem task_step (hnext : (s.step input).captures[j]? = some task') :
    (∃ task, s.captures[j]? = some task ∧ TaskStep s j task input task') ∨
    (j = s.captures.length ∧ ¬ task'.stage.Admitted ∧ ∃ terminalId terminalIncarnation,
      input = .beginCapture terminalId terminalIncarnation task'.req) := by
  have hkept : s.captures[j]? = some task' →
      ∃ task, s.captures[j]? = some task ∧ TaskStep s j task input task' :=
    fun h => ⟨task', h, .same _⟩
  unfold step at hnext
  split_ifs at hnext with hfree
  · refine .inl (hkept ?_)
    cases input with
    | _ => exact hnext
  rw [Bool.not_eq_true] at hfree
  cases input with
  | register i uuid nowMs rootOpened =>
    refine .inl (hkept ?_)
    simp only [stepFree, register] at hnext
    repeat' split at hnext
    all_goals exact hnext
  | beginCapture terminalId terminalIncarnation req =>
    simp only [stepFree] at hnext
    rw [getElem?_append] at hnext
    split_ifs at hnext with hbeyond
    · exact .inl (hkept hnext)
    obtain ⟨hlast, heq⟩ := List.getElem?_eq_some_iff.mp hnext
    rw [List.length_singleton] at hlast
    rw [getElem_singleton] at heq
    refine .inr ⟨by omega, ?_, terminalId, terminalIncarnation, by rw [← heq]⟩
    rw [← heq]
    split <;> exact fun h => h
  | admission i => exact .inl (admission_task hnext)
  | proceed i newFileId now => exact .inl (proceed_task hfree hnext)
  | adopt i probe now => exact .inl (adopt_task hnext)
  | _ => exact .inl (hkept hnext)

theorem TaskStep.req_eq (h : TaskStep s i task input task') : task'.req = task.req := by
  cases h with
  | _ => rfl

theorem length_captures_le (s : Tracking) (input : Input) :
    s.captures.length ≤ (s.step input).captures.length := by
  have hset : ∀ i task stage, (s.setCapture i task stage).captures.length = s.captures.length :=
    fun i task stage => length_set
  unfold step
  split
  · cases input with
    | _ => exact Nat.le_refl _
  cases input with
  | beginCapture terminalId terminalIncarnation req =>
    simp only [stepFree, length_append]
    exact Nat.le_add_right _ _
  | register | admission | proceed | adopt =>
    simp only [stepFree, register, admission, proceed, adopt]
    repeat' split
    all_goals first
      | exact Nat.le_refl _
      | exact Nat.le_of_eq (hset _ _ _).symm
  | _ => exact Nat.le_refl _

theorem capture_persists (h : s.captures[i]? = some task) (input : Input) :
    ∃ task', (s.step input).captures[i]? = some task' ∧ task'.req = task.req := by
  obtain ⟨hlt, _⟩ := List.getElem?_eq_some_iff.mp h
  have hlt' := Nat.lt_of_lt_of_le hlt (length_captures_le s input)
  have hnext := getElem?_eq_getElem hlt'
  refine ⟨_, hnext, ?_⟩
  rcases task_step hnext with ⟨old, hold, hstep⟩ | ⟨hlast, _⟩
  · cases h.symm.trans hold
    exact hstep.req_eq
  · omega

/-- A capture that has passed its admission found the baseline it names. -/
theorem TaskStep.admission (h : TaskStep s i task input task') (hadmitted : task'.stage.Admitted) :
    task.stage.Admitted ∨ ∃ record, s.service.records.get? task.key = some record ∧
      record.baselineId = task.req.baselineId := by
  cases h with
  | same => exact .inl hadmitted
  | finished _ outcome => exact absurd hadmitted id
  | admitted hstage hrecord =>
    obtain ⟨hfound, hbaseline⟩ := findBaseline_ok hrecord
    exact .inr ⟨_, findRecord_get? hfound, hbaseline⟩
  | proceeded _ hstage _ _ _ | adopted hstage =>
    rw [hstage]
    exact .inl trivial

end Tracking

end DamHopper.SessionChanges
