import DamHopper.Lib.Durable

/-!
# Manager — the Linux release manager's commands

`stage`, `activate`, the manual `rollback`, `recover` and retention as commands
on the host's disk (`activate.rs`, `rollback.rs`, `recovery.rs`, `journal.rs`,
`transaction.rs`, `stage_transaction.rs`, `retention.rs`). Every file that is
written or copied durably, every saved state envelope and every switched link is
one durable step; the services, health probes, ownership and port checks around
them are checks that may fail. All commands hold the deployment lock, so they
run one after the other. The import of a format-2 installation is not modelled:
the installation root is a manager tree from the start.
-/

namespace DamHopper.LinuxRelease

open Cmd

/-- The files that an activation replaces: units, host configuration, and the account and
directory configuration `dam-hopper-web.conf` and `dam-hopper-runtime.conf`. -/
inductive ManagedFile
  | apiUnit
  | webUnit
  | recoveryUnit
  | helperUnit
  | hostConfigJson
  | hostToml
  | webSysusersConf
  | runtimeTmpfilesConf
  deriving DecidableEq, Repr

def allServiceUnits : List ManagedFile := [.apiUnit, .webUnit, .recoveryUnit, .helperUnit]

/-- The files that a transaction backs up: not the last two. -/
def backedUpFiles : List ManagedFile := allServiceUnits ++ [.hostConfigJson, .hostToml]

abbrev Files := ManagedFile → Option String

inductive TargetRole
  | server
  | web
  | both
  deriving DecidableEq, Repr

def TargetRole.includesServer : TargetRole → Bool
  | .server | .both => true
  | .web => false

def TargetRole.includesWeb : TargetRole → Bool
  | .web | .both => true
  | .server => false

/-- The directory `releases/<tag>/<role>`. -/
abbrev ReleasePath := String × TargetRole

instance lawfulPath : LawfulBEq ReleasePath := inferInstance

structure ReleaseRecord where
  tag : String
  role : TargetRole
  apiUnitSha256 : Option String
  webUnitSha256 : Option String
  hostConfigSha256 : Option String
  helperUnitSha256 : Option String
  deriving DecidableEq, Repr

def ReleaseRecord.path (r : ReleaseRecord) : ReleasePath := (r.tag, r.role)

/-- What a release's units and configuration render to: the contents of the
pending unit directory in directory order, the pending public configuration, and
`host.toml` with the service user of the rendered API unit. -/
structure Rendered where
  units : List (ManagedFile × String)
  hostConfigJson : String
  hostToml : String
  deriving DecidableEq, Repr

structure PendingCandidateRecord where
  tag : String
  role : TargetRole
  files : Rendered
  deriving DecidableEq, Repr

def PendingCandidateRecord.path (c : PendingCandidateRecord) : ReleasePath := (c.tag, c.role)

inductive TransactionPhase
  | staged
  | quiesced
  | switched
  | probing
  | committed
  | rollingBack
  | rolledBack
  | failed
  deriving DecidableEq, Repr

structure TransactionRecord where
  txId : Nat
  phase : TransactionPhase
  targetTag : String
  previousTag : Option String
  /-- Ghost: the managed files when the transaction began, if a release was active. -/
  began : Option Files

/-- The state envelope; of the latest failure only the tag is read. -/
structure ManagerState where
  active : Option ReleaseRecord := none
  previous : Option ReleaseRecord := none
  pending : Option PendingCandidateRecord := none
  transaction : Option TransactionRecord := none
  latestFailure : Option (Option String) := none

structure Disk where
  state : ManagerState := {}
  installed : Files := fun _ => none
  /-- The backup directory of each transaction. -/
  backups : Nat → Files := fun _ _ => none
  /-- The transaction ids drawn so far; a new one is always fresh. -/
  transactions : Nat := 0
  releases : List ReleasePath := []
  current : Option ReleasePath := none
  /-- Ghost: the releases committed so far, newest first. -/
  everActive : List ReleasePath := []

abbrev Manager := Cmd Disk

/-! ## The journal -/

inductive DeploymentState
  | absent
  | active
  | staged
  | pending
  | quiesced
  | switched
  | probing
  | committed
  | rollingBack
  | rolledBack
  | recoveryRequired
  deriving DecidableEq, Repr

def TransactionPhase.deployment : TransactionPhase → DeploymentState
  | .staged => .staged
  | .quiesced => .quiesced
  | .switched => .switched
  | .probing => .probing
  | .committed => .committed
  | .rollingBack => .rollingBack
  | .rolledBack => .rolledBack
  | .failed => .recoveryRequired

def ManagerState.currentDeploymentState (s : ManagerState) : DeploymentState :=
  match s.transaction with
  | some t => t.phase.deployment
  | none =>
    if s.pending.isSome then .pending else if s.active.isSome then .active else .absent

def validateTransition (current target : DeploymentState) : Bool :=
  match current, target with
  | .absent, .staged | .active, .staged | .staged, .pending | .staged, .quiesced
  | .pending, .quiesced | .quiesced, .switched | .switched, .probing | .probing, .committed
  | .probing, .rollingBack | .switched, .rollingBack | .quiesced, .rollingBack
  | .rollingBack, .rolledBack | .rollingBack, .recoveryRequired | .rolledBack, .active
  | .rolledBack, .absent | .committed, .active | _, .recoveryRequired => true
  | s₁, s₂ => s₁ == s₂

inductive RecoveryAction
  | noAction
  | resumePending
  | restorePrevious
  | repairCommitted
  | recoveryRequired
  deriving DecidableEq, Repr

def classifyRecovery (s : ManagerState) : RecoveryAction :=
  match s.transaction with
  | none =>
    if s.pending.isSome then .resumePending
    else if s.active.isSome then .repairCommitted else .noAction
  | some t =>
    match t.phase with
    | .staged => .resumePending
    | .quiesced | .switched | .probing | .rollingBack => .restorePrevious
    | .committed => .repairCommitted
    | .rolledBack => .noAction
    | .failed => .recoveryRequired

/-! ## Durable steps -/

/-- The envelope a command holds is the one on disk, where nothing else writes it. -/
def saveManagerState (change : ManagerState → ManagerState) : Manager Unit :=
  durable fun d => { d with state := change d.state }

def install (f : ManagedFile) (content : String) : Manager Unit :=
  durable fun d => { d with installed := Function.update d.installed f (some content) }

def link (path : ReleasePath) : Manager Unit := durable fun d => { d with current := some path }

def removeRelease (p : ReleasePath → Bool) : Manager Unit :=
  durable fun d => { d with releases := d.releases.filter fun path => !p path }

def backupFile (tx : Nat) (f : ManagedFile) : Manager Unit := do
  match (← read).installed f with
  | none => pure ()
  | some content =>
    durable fun d => { d with
      backups := Function.update d.backups tx
        (Function.update (d.backups tx) f (some content)) }

def restoreFile (tx : Nat) (f : ManagedFile) : Manager Unit := do
  match (← read).backups tx f with
  | none => pure ()
  | some content => install f content

def newTransaction : Manager Nat := do
  let d ← read
  durable fun d => { d with transactions := d.transactions + 1 }
  return d.transactions

/-- The transaction of an activation: the recorded one is taken up again. -/
def transactionOf : Option TransactionRecord → Manager Nat
  | some t => pure t.txId
  | none => newTransaction

def recordPhase (tx : Nat) (phase : TransactionPhase) : Manager Unit := do
  let d ← read
  Cmd.require fun _ => validateTransition d.state.currentDeploymentState phase.deployment
  match d.state.transaction with
  | some t =>
    Cmd.require fun _ => t.txId = tx
    saveManagerState fun s => { s with transaction := some { t with phase := phase } }
  | none =>
    match d.state.pending with
    | none => fail
    | some pending =>
      saveManagerState fun s => { s with
        transaction := some
          { txId := tx, phase := phase, targetTag := pending.tag
            previousTag := s.active.map (·.tag), began := s.active.map fun _ => d.installed } }

/-! ## Preflight -/

section

variable (sha256 : String → String)

/-- `verify_candidate_file` with an expected digest, which must be recorded. -/
def Verified (d : Disk) (f : ManagedFile) (digest : Option String) : Prop :=
  digest.isSome ∧ (d.installed f).map sha256 = digest

def PendingCandidateRecord.record (c : PendingCandidateRecord) : ReleaseRecord :=
  { tag := c.tag, role := c.role
    apiUnitSha256 := (c.files.units.lookup .apiUnit).map sha256
    webUnitSha256 := (c.files.units.lookup .webUnit).map sha256
    hostConfigSha256 := some (sha256 c.files.hostConfigJson)
    helperUnitSha256 := (c.files.units.lookup .helperUnit).map sha256 }

/-- What `validate_active_preflight` compares with a record. -/
def InstalledAs (r : ReleaseRecord) (d : Disk) : Prop :=
  (d.installed .recoveryUnit).isSome ∧
  (r.role.includesServer → Verified sha256 d .apiUnit r.apiUnitSha256 ∧
    Verified sha256 d .helperUnit r.helperUnitSha256) ∧
  (r.role.includesWeb → Verified sha256 d .webUnit r.webUnitSha256) ∧
  Verified sha256 d .hostConfigJson r.hostConfigSha256

instance (r : ReleaseRecord) : DecidablePred (InstalledAs sha256 r) := fun _ => by
  delta InstalledAs Verified
  infer_instance

/-- The manifest, ownership, port and database checks are the check at the end. -/
def validateActivePreflight (r : ReleaseRecord) : Manager Unit := do
  Cmd.require fun d => r.path ∈ d.releases
  Cmd.require (InstalledAs sha256 r)
  check

/-! ## Rollback -/

def restoreBackups : Option TransactionRecord → Manager Unit
  | none => pure ()
  | some t => backedUpFiles.forM (restoreFile t.txId)

def rolledBack (s : ManagerState) : ManagerState :=
  { s with transaction := none, latestFailure := some (s.pending.map (·.tag)) }

def failed (s : ManagerState) : ManagerState :=
  { s with transaction := s.transaction.map fun t => { t with phase := .failed } }

/-- `rollback_activation_failure`: with no active release the baseline of a first
install, otherwise the active release from the transaction's backups. -/
def rollbackActivationFailure : Manager Unit := do
  let d ← read
  match d.state.active with
  | none =>
    durable fun d => { d with current := none }
    durable fun d => { d with installed := Function.update d.installed .hostConfigJson none }
    saveManagerState rolledBack
  | some active =>
    restoreBackups d.state.transaction
    check
    validateActivePreflight sha256 active
    check
    checkOr (saveManagerState fun s => { failed s with latestFailure := some (some active.tag) })
    saveManagerState rolledBack
    link active.path

/-! ## Retention -/

def referencedTags (s : ManagerState) : List String :=
  s.active.toList.map (·.tag) ++ s.previous.toList.map (·.tag) ++
  (match s.pending with
    | some c => [c.tag]
    | none => s.latestFailure.join.toList) ++
  s.transaction.toList.flatMap fun t => t.targetTag :: t.previousTag.toList

def unreferencedTags (d : Disk) : List String :=
  (d.releases.map (·.1)).dedup.filter fun tag =>
    tag ∉ referencedTags d.state ∧ d.current.map (·.1) ≠ some tag

def applyRetention : Manager Unit := do
  let d ← read
  check
  (unreferencedTags d).forM fun tag => removeRelease fun path => path.1 = tag

/-! ## Activation -/

/-- An entry of the pending unit directory; an unexpected one is an error. -/
def installUnit (role : TargetRole) (entry : ManagedFile × String) : Manager Unit := do
  Cmd.require fun _ => entry.1 ∈ allServiceUnits ∨
    (entry.1 = .webSysusersConf ∧ role.includesWeb) ∨
    (entry.1 = .runtimeTmpfilesConf ∧ role.includesServer)
  install entry.1 entry.2

def commit (c : PendingCandidateRecord) : Manager Unit :=
  durable fun d => { d with
    state := { d.state with
      previous := d.state.active, active := some (c.record sha256)
      pending := none, transaction := none }
    everActive := c.path :: d.everActive }

def executeActivationPipeline (tx : Nat) (c : PendingCandidateRecord) : Manager Unit := do
  -- services stopped
  check
  allServiceUnits.forM (backupFile tx)
  c.files.units.forM (installUnit c.role)
  -- the web account
  check
  backupFile tx .hostConfigJson
  backupFile tx .hostToml
  onlyIf c.role.includesServer (install .hostToml c.files.hostToml)
  install .hostConfigJson c.files.hostConfigJson
  -- units reloaded
  check
  recordPhase tx .switched
  validateActivePreflight sha256 (c.record sha256)
  -- services started
  check
  recordPhase tx .probing
  -- health stable, units enabled
  check
  commit sha256 c

/-- The candidate of an activation: the pending one, or the active release
rendered again for another service user; with neither the active release is only
started. -/
def activationCandidate (s : ManagerState) (serviceUser : Option Rendered) :
    Option PendingCandidateRecord :=
  match s.pending with
  | some c =>
    if c.role.includesServer then some { c with files := serviceUser.getD c.files } else some c
  | none => do
    let active ← s.active
    if active.role.includesServer then
      return { tag := active.tag, role := active.role, files := ← serviceUser }
    else none

def activateCandidate (c : PendingCandidateRecord) : Manager Unit := do
  Cmd.require fun d => c.path ∈ d.releases
  check
  let d ← read
  let tx ← transactionOf d.state.transaction
  recordPhase tx .quiesced
  orElse (executeActivationPipeline sha256 tx c) do
    saveManagerState fun s => { s with latestFailure := some (s.pending.map (·.tag)) }
    let failure := (← read).state.latestFailure
    orElse (rollbackActivationFailure sha256)
      (saveManagerState fun s => { failed s with latestFailure := failure })
    fail
  link c.path
  applyRetention

def executeActivation (serviceUser : Option Rendered) : Manager Unit := do
  let d ← read
  match activationCandidate d.state serviceUser with
  | some c =>
    onlyIf (serviceUser.isSome ∧ c.role.includesServer)
      (saveManagerState fun s => { s with pending := some c })
    activateCandidate sha256 c
  | none =>
    match d.state.active with
    | none => fail
    | some active =>
      validateActivePreflight sha256 active
      check

/-- The previous release, rendered again, becomes the candidate. -/
def executeManualRollback (files : Rendered) : Manager Unit := do
  let d ← read
  match d.state.previous with
  | none => fail
  | some prev =>
    Cmd.require fun d => prev.path ∈ d.releases
    check
    saveManagerState fun s => { s with
      pending := some { tag := prev.tag, role := prev.role, files := files } }
    executeActivation sha256 none

/-! ## Recovery -/

/-- `ensure_active_runtime_ready`, then `repair_active_pointers`. -/
def repairActive : Option ReleaseRecord → Manager Unit
  | none => pure ()
  | some active => do
    validateActivePreflight sha256 active
    check
    link active.path
    check

def executeRecovery (isBoot : Bool) : Manager Unit := do
  let d ← read
  match classifyRecovery d.state with
  | .noAction => repairActive sha256 d.state.active
  | .resumePending =>
    onlyIf isBoot do
      check
      repairActive sha256 d.state.active
  | .restorePrevious => rollbackActivationFailure sha256
  | .repairCommitted =>
    repairActive sha256 d.state.active
    saveManagerState fun s => { s with transaction := none }
  | .recoveryRequired => fail

/-! ## Staging -/

/-- The destination of the candidate is cleared: a release in use only on
reinstallation, and then its record first. -/
def clearDestination (c : PendingCandidateRecord) (reinstall : Bool) : Manager Unit := do
  let d ← read
  let inUse := fun r : ReleaseRecord => decide (r.path = c.path)
  onlyIf (c.path ∈ d.releases) do
    onlyIf (d.state.active.any inUse ∨ d.state.previous.any inUse) do
      Cmd.require fun _ => reinstall
      saveManagerState fun s => { s with
        active := s.active.filter fun r => !inUse r
        previous := s.previous.filter fun r => !inUse r }
    removeRelease fun path => path = c.path

/-- `stage_release_bundle`: the release directory of the candidate is replaced,
`host.toml` gets the host role, and the candidate becomes the pending one. -/
def stageReleaseBundle (c : PendingCandidateRecord) (hostToml : String) (reinstall : Bool) :
    Manager Unit := do
  check
  clearDestination c reinstall
  durable fun d => { d with releases := c.path :: d.releases }
  -- the units are rendered
  checkOr (removeRelease fun path => path = c.path)
  install .hostToml hostToml
  saveManagerState fun s => { s with pending := some c, transaction := none }

/-! ## Runs -/

inductive Command
  | stage (c : PendingCandidateRecord) (hostToml : String) (reinstall : Bool)
  | activate (serviceUser : Option Rendered)
  | rollback (files : Rendered)
  | recover (isBoot : Bool)
  | retention

def Command.execute : Command → Manager Unit
  | .stage c hostToml reinstall => stageReleaseBundle c hostToml reinstall
  | .activate serviceUser => executeActivation sha256 serviceUser
  | .rollback files => executeManualRollback sha256 files
  | .recover isBoot => executeRecovery sha256 isBoot
  | .retention => applyRetention

abbrev Invocation := Command × List Bool

def perform (d : Disk) (i : Invocation) : Except Stop Unit × World Disk :=
  (i.1.execute sha256).exec ⟨d, i.2, []⟩

def step (d : Disk) (i : Invocation) : Disk := (perform sha256 d i).2.disk

def durableSteps (d : Disk) (i : Invocation) : List (Disk × Disk) := (perform sha256 d i).2.log

end

end DamHopper.LinuxRelease
