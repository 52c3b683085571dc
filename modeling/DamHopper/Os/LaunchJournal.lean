import Mathlib.Data.List.Sort
import DamHopper.Lib.Checks

/-!
# LaunchJournal — the journal of terminal launches

The launch journal of `os/persistence.ts`. Before a window asks the server for a new
terminal it reserves the launch in a document in `localStorage`, and settles it when the
outcome is known. Every tab of the browser works on the one document, each call under the
journal's lock; a call reads the document, decides, and writes it back as a whole.

Reading and writing may fail: the storage may be missing, its methods may throw
(`StorageAccess`), the stored text may not be a journal (`JournalText`). The lengths of
the texts that `JSON.stringify` prints are parameters. The canonical identity is the tuple
whose text the source compares; printing a tuple of strings is injective.

What a call can do is said once (`reserve_cases`, `settle_cases`): a reservation appends
a record to what compaction kept, a settlement replaces an unresolved one, or the text
stays as it was.
-/

namespace DamHopper.Os

open List

def MAX_LAUNCH_JOURNAL_RECORDS : Nat := 128

def MAX_LAUNCH_RECORD_BYTES : Nat := 8192

def MAX_LAUNCH_JOURNAL_DOCUMENT_BYTES : Nat := 1048576

inductive LaunchAttemptState where
  | reservedDispatchCapable | confirmedSuccess | confirmedNotCreated | uncertain
  deriving Repr, DecidableEq

namespace LaunchAttemptState

def unresolved : LaunchAttemptState → Bool
  | .reservedDispatchCapable | .uncertain => true
  | .confirmedSuccess | .confirmedNotCreated => false

def settled : LaunchAttemptState → Bool
  | .confirmedSuccess | .confirmedNotCreated => true
  | .reservedDispatchCapable | .uncertain => false

theorem settled_eq (state : LaunchAttemptState) : state.settled = !state.unresolved := by
  cases state <;> rfl

end LaunchAttemptState

/-- `action` is always `terminal.create`. -/
structure LaunchIdentityParams where
  profileId : String
  endpointBinding : String
  targetKind : String
  workspaceId : Option String
  projectId : Option String
  worktreeId : Option String
  authorizedPath : Option String
  cwd : Option String
  deriving Repr, DecidableEq

def buildCanonicalIdentityTuple (params : LaunchIdentityParams) : List (Option String) :=
  [some params.profileId, some params.endpointBinding, some "terminal.create",
    some params.targetKind, params.workspaceId, params.projectId, params.worktreeId,
    params.authorizedPath, params.cwd]

/-- The fields of a terminal target that are recorded. -/
structure LaunchProvenance where
  terminalId : String
  serverEpoch : String
  incarnationExact : String
  deriving Repr, DecidableEq

structure StoredLaunchRecord where
  attemptId : String
  canonicalIdentity : List (Option String)
  params : LaunchIdentityParams
  requestedTerminalId : String
  ownerGeneration : Nat
  destinationDesktopId : String
  state : LaunchAttemptState
  createdAt : Nat
  settledAt : Option Nat
  provenance : Option LaunchProvenance
  failureReason : Option String
  deriving Repr, DecidableEq

/-- The text under the storage key, by what `JSON.parse` and the checks behind it make of
it. -/
inductive JournalText where
  | document (records : List StoredLaunchRecord)
  | malformed (error : String)
  | notObject
  | unsupported (version : String)
  deriving Repr, DecidableEq

/-- What the storage does during a call: whether there is one, and what its methods
throw. -/
structure StorageAccess where
  available : Bool
  getError : Option String
  setError : Option String
  deriving Repr, DecidableEq

inductive ReserveLaunchResult where
  | reserved (attemptId requestedTerminalId : String)
  | blocked (reason : String) (existingAttemptId : Option String)
  deriving Repr, DecidableEq

inductive SettleLaunchResult where
  | settled
  | uncertain (reason : String)
  deriving Repr, DecidableEq

/-- A call of `reserveTerminalLaunch`, with the two ids it would draw and the time. -/
structure ReserveCall where
  params : LaunchIdentityParams
  generation : Nat
  desktopId : String
  explicitRequestedTerminalId : Option String
  attemptId : String
  generatedTerminalId : String
  now : Nat
  access : StorageAccess
  deriving Repr, DecidableEq

inductive LaunchOutcome where
  | confirmedSuccess (target : LaunchProvenance)
  | confirmedNotCreated (reason : String)
  | uncertain (reason : String)
  deriving Repr, DecidableEq

structure SettleCall where
  attemptId : String
  outcome : LaunchOutcome
  now : Nat
  access : StorageAccess
  deriving Repr, DecidableEq

def storageUnavailable : String := "Error: Durable storage (localStorage) is unavailable: " ++
  "launch journal cannot operate fail-closed"

def documentTooLarge : String :=
  "Error: Launch journal document exceeds maximum allowed size (1 MiB)"

section

/-- The lengths of the JSON texts: a record in bytes, a stored text in code units. -/
structure JsonLengths where
  record : StoredLaunchRecord → Nat
  text : JournalText → Nat

variable (json : JsonLengths)

/-- The errors are the texts of what is thrown. -/
def readLaunchJournalDocument (access : StorageAccess) (stored : Option JournalText) :
    Except String (List StoredLaunchRecord) := do
  require (access.available = true) storageUnavailable
  match access.getError with
  | some e => .error e
  | none =>
    match stored with
    | none => .ok []
    | some raw => do
        require (json.text raw ≤ MAX_LAUNCH_JOURNAL_DOCUMENT_BYTES) documentTooLarge
        match raw with
        | .malformed e => .error ("Error: Corrupted launch journal JSON in storage: " ++ e)
        | .notObject => .error "Error: Invalid launch journal format in storage"
        | .unsupported version =>
          .error ("Error: Unsupported launch journal version: " ++ version)
        | .document records => .ok records

def writeLaunchJournalDocument (access : StorageAccess) (records : List StoredLaunchRecord) :
    Except String JournalText := do
  require (access.available = true) storageUnavailable
  require (json.text (.document records) ≤ MAX_LAUNCH_JOURNAL_DOCUMENT_BYTES) documentTooLarge
  match access.setError with
  | some e => .error e
  | none => .ok (.document records)

def StoredLaunchRecord.age (record : StoredLaunchRecord) : Nat :=
  record.settledAt.getD record.createdAt

/-- Room for one more record: all unresolved records are kept, and the settled ones that
were settled last. -/
def compactRecords (records : List StoredLaunchRecord) :
    Except (String × Option String) (List StoredLaunchRecord) :=
  if records.length ≥ MAX_LAUNCH_JOURNAL_RECORDS then do
    let unresolved := records.filter fun r => r.state.unresolved
    let count := toString unresolved.length
    require (unresolved.length < MAX_LAUNCH_JOURNAL_RECORDS)
      ("Launch journal capacity exhausted with " ++ count ++
        " unresolved records. Cannot reserve new launch.", none)
    let settled := records.filter fun r => r.state.settled
    let newestFirst := settled.insertionSort fun a b => b.age ≤ a.age
    let remainingQuota := MAX_LAUNCH_JOURNAL_RECORDS - unresolved.length - 1
    .ok (unresolved ++ newestFirst.take remainingQuota)
  else .ok records

/-- An explicit id, if one was given: the empty string is none. -/
def ReserveCall.explicit? (call : ReserveCall) : Option String :=
  call.explicitRequestedTerminalId.filter (· ≠ "")

def ReserveCall.requestedId (call : ReserveCall) : String :=
  call.explicit?.getD call.generatedTerminalId

def ReserveCall.newRecord (call : ReserveCall) : StoredLaunchRecord :=
  { attemptId := call.attemptId
    canonicalIdentity := buildCanonicalIdentityTuple call.params
    params := call.params
    requestedTerminalId := call.requestedId
    ownerGeneration := call.generation
    destinationDesktopId := call.desktopId
    state := .reservedDispatchCapable
    createdAt := call.now
    settledAt := none
    provenance := none
    failureReason := none }

/-- The text that a reservation stores, or why it is blocked. -/
def reserveRecords (call : ReserveCall) (stored : Option JournalText) :
    Except (String × Option String) JournalText := do
  let records ← (readLaunchJournalDocument json call.access stored).mapError fun e =>
    ("Durable ordinary-launch journal is in an unreadable or corrupt state: " ++ e, none)
  let unresolvedExisting := records.find? fun r =>
    r.canonicalIdentity = buildCanonicalIdentityTuple call.params && r.state.unresolved
  match unresolvedExisting with
  | some r => .error ("An unresolved ordinary launch attempt (" ++ r.attemptId ++
      ") is already in progress for this destination.", some r.attemptId)
  | none => do
      require (∀ id ∈ call.explicit?, ∀ r ∈ records, r.requestedTerminalId ≠ id)
        ("Requested terminal ID '" ++ call.requestedId ++
          "' has already been used in a previous launch attempt.", none)
      let kept ← compactRecords records
      let limit := toString MAX_LAUNCH_RECORD_BYTES
      require (json.record call.newRecord ≤ MAX_LAUNCH_RECORD_BYTES)
        ("Launch record exceeds maximum allowed size of " ++ limit ++ " bytes", none)
      (writeLaunchJournalDocument json call.access (kept ++ [call.newRecord])).mapError
        fun e => ("Failed to persist durable reservation to local storage: " ++ e, none)

def reserveTerminalLaunch (call : ReserveCall) (stored : Option JournalText) :
    ReserveLaunchResult × Option JournalText :=
  match reserveRecords json call stored with
  | .ok text => (.reserved call.attemptId call.requestedId, some text)
  | .error (reason, existing) => (.blocked reason existing, stored)

def StoredLaunchRecord.settle (record : StoredLaunchRecord) (outcome : LaunchOutcome)
    (now : Nat) : StoredLaunchRecord :=
  match outcome with
  | .confirmedSuccess target =>
    { record with state := .confirmedSuccess, settledAt := some now, provenance := some target }
  | .confirmedNotCreated reason =>
    { record with
      state := .confirmedNotCreated, settledAt := some now, failureReason := some reason }
  | .uncertain reason => { record with state := .uncertain, failureReason := some reason }

def LaunchOutcome.result : LaunchOutcome → SettleLaunchResult
  | .uncertain reason => .uncertain reason
  | .confirmedSuccess _ | .confirmedNotCreated _ => .settled

/-- The records before the first with this attempt id, that record, and those behind. -/
def splitAtAttempt (attemptId : String) : List StoredLaunchRecord →
    Option (List StoredLaunchRecord × StoredLaunchRecord × List StoredLaunchRecord)
  | [] => none
  | r :: rest =>
    if r.attemptId = attemptId then some ([], r, rest)
    else (splitAtAttempt attemptId rest).map fun (front, current, back) =>
      (r :: front, current, back)

def settleTerminalLaunch (call : SettleCall) (stored : Option JournalText) :
    SettleLaunchResult × Option JournalText :=
  match readLaunchJournalDocument json call.access stored with
  | .error e => (.uncertain ("Could not read launch journal for settlement: " ++ e), stored)
  | .ok records =>
    match splitAtAttempt call.attemptId records with
    | none => (.uncertain ("Launch attempt '" ++ call.attemptId ++ "' not found in journal."),
        stored)
    | some (front, current, back) =>
      if current.state.settled then (.settled, stored)
      else
        match writeLaunchJournalDocument json call.access
          (front ++ current.settle call.outcome call.now :: back) with
        | .error e =>
          (.uncertain ("Failed to write settlement to launch journal: " ++ e), stored)
        | .ok text => (call.outcome.result, some text)

end

def JournalText.records? : Option JournalText → List StoredLaunchRecord
  | some (.document records) => records
  | _ => []

/-! ## Compaction -/

/-- `kept` is what a compaction may leave of `records`: all unresolved ones, in their
order, and some of the settled. -/
structure Compacts (records kept : List StoredLaunchRecord) : Prop where
  subperm : kept.Subperm records
  unresolved : kept.filter (fun r => r.state.unresolved) =
    records.filter fun r => r.state.unresolved
  room : kept.length < MAX_LAUNCH_JOURNAL_RECORDS

variable {records kept : List StoredLaunchRecord}

theorem filter_unresolved_eq_nil (h : ∀ r ∈ records, r.state.settled = true) :
    records.filter (fun r => r.state.unresolved) = [] := by
  rw [filter_eq_nil_iff]
  intro r hr
  simpa [LaunchAttemptState.settled_eq] using h r hr

theorem compactRecords_eq_ok (h : compactRecords records = .ok kept) : Compacts records kept := by
  unfold compactRecords at h
  split_ifs at h with hlt
  · simp only [check_bind_eq_ok_iff, require_eq_ok_iff, Except.ok.injEq] at h
    obtain ⟨hroom, rfl⟩ := h
    generalize hs : (records.filter fun r => r.state.settled) = settled
    generalize hq : MAX_LAUNCH_JOURNAL_RECORDS -
      (records.filter fun r => r.state.unresolved).length - 1 = quota
    have hperm : ((records.filter fun r => r.state.unresolved) ++ settled).Perm records := by
      rw [← hs]
      have hneg : (fun r : StoredLaunchRecord => r.state.settled) =
          fun r => !r.state.unresolved := funext fun r => r.state.settled_eq
      rw [hneg]
      exact filter_append_perm _ records
    have hnewest : ((settled.insertionSort fun a b => b.age ≤ a.age).take quota).Subperm settled :=
      (take_sublist _ _).subperm.trans (perm_insertionSort _ _).subperm
    refine ⟨?_, ?_, ?_⟩
    · exact ((subperm_append_left _).mpr hnewest).trans hperm.subperm
    · rw [filter_append, filter_filter, filter_unresolved_eq_nil, append_nil]
      · simp only [Bool.and_self]
      · intro r hr
        have hmem := hnewest.subset hr
        rw [← hs] at hmem
        exact (mem_filter.mp hmem).2
    · rw [length_append, length_take]
      omega
  · cases h
    exact ⟨List.Subperm.refl _, rfl, by omega⟩

theorem Compacts.nodup_map (h : Compacts records kept) {f : StoredLaunchRecord → String}
    (hn : (records.map f).Nodup) :
    (kept.map f).Nodup := by
  obtain ⟨part, hperm, hsub⟩ := h.subperm
  exact (hperm.map f).nodup_iff.mp (hn.sublist (hsub.map f))

/-! ## What a call does -/

section

variable {json : JsonLengths}
  {access : StorageAccess} {stored : Option JournalText}
  {records front back kept : List StoredLaunchRecord} {current : StoredLaunchRecord}

theorem readLaunchJournalDocument_eq_ok
    (h : readLaunchJournalDocument json access stored = .ok records) :
    JournalText.records? stored = records := by
  obtain ⟨-, h⟩ := check_bind_eq_ok_iff.mp h
  split at h
  · cases h
  split at h
  · cases h
    rfl
  obtain ⟨-, h⟩ := check_bind_eq_ok_iff.mp h
  split at h <;> cases h
  rfl

theorem writeLaunchJournalDocument_eq_ok {text : JournalText}
    (h : writeLaunchJournalDocument json access records = .ok text) :
    text = .document records := by
  obtain ⟨-, h⟩ := check_bind_eq_ok_iff.mp h
  obtain ⟨-, h⟩ := check_bind_eq_ok_iff.mp h
  split at h <;> cases h
  rfl

/-- What a reservation asks of the stored text and the storage, the requested terminal id
apart, and the records it keeps. -/
structure Admits (json : JsonLengths)
    (call : ReserveCall) (stored : Option JournalText) (kept : List StoredLaunchRecord) :
    Prop where
  readable : readLaunchJournalDocument json call.access stored =
    .ok (JournalText.records? stored)
  identity : ∀ r ∈ JournalText.records? stored, r.state.unresolved = true →
    r.canonicalIdentity ≠ buildCanonicalIdentityTuple call.params
  room : compactRecords (JournalText.records? stored) = .ok kept
  small : json.record call.newRecord ≤ MAX_LAUNCH_RECORD_BYTES
  writable : writeLaunchJournalDocument json call.access (kept ++ [call.newRecord]) =
    .ok (.document (kept ++ [call.newRecord]))

abbrev Unused (stored : Option JournalText) (terminalId : String) : Prop :=
  ∀ r ∈ JournalText.records? stored, r.requestedTerminalId ≠ terminalId

theorem reserveRecords_eq_ok_iff {call : ReserveCall} {text : JournalText} :
    reserveRecords json call stored = .ok text ↔
      (∀ id ∈ call.explicit?, Unused stored id) ∧
      ∃ kept, Admits json call stored kept ∧
        text = .document (kept ++ [call.newRecord]) := by
  have hfind {records : List StoredLaunchRecord} : (records.find? fun r =>
      r.canonicalIdentity = buildCanonicalIdentityTuple call.params && r.state.unresolved) =
        none ↔ ∀ r ∈ records, r.state.unresolved = true →
          r.canonicalIdentity ≠ buildCanonicalIdentityTuple call.params := by
    rw [find?_eq_none]
    exact forall₂_congr fun r _ => by simp [imp_not_comm]
  constructor
  · intro h
    simp only [reserveRecords, bind_eq_ok_iff, mapError_eq_ok_iff] at h
    obtain ⟨records, hread, h⟩ := h
    split at h
    · cases h
    rename_i hnone
    simp only [bind_eq_ok_iff, mapError_eq_ok_iff] at h
    obtain ⟨_, hterminal, kept, hroom, _, hsmall, hwrite⟩ := h
    cases readLaunchJournalDocument_eq_ok hread
    cases writeLaunchJournalDocument_eq_ok hwrite
    exact ⟨require_eq_ok_iff.mp hterminal, kept,
      ⟨hread, hfind.mp hnone, hroom, require_eq_ok_iff.mp hsmall, hwrite⟩, rfl⟩
  · rintro ⟨hterminal, kept, h, rfl⟩
    simp only [reserveRecords, bind_eq_ok_iff, mapError_eq_ok_iff]
    refine ⟨_, h.readable, ?_⟩
    rw [hfind.mpr h.identity]
    simp only [bind_eq_ok_iff, mapError_eq_ok_iff]
    exact ⟨(), require_eq_ok_iff.mpr hterminal, kept, h.room, (),
      require_eq_ok_iff.mpr h.small, h.writable⟩

/-- A reservation is granted exactly if the call is admitted and no stored record carries
an id that it asks for; otherwise it leaves the text as it was. -/
theorem reserve_cases (call : ReserveCall) (stored : Option JournalText) :
    ((∀ kept, Admits json call stored kept →
        ∃ id ∈ call.explicit?, ¬ Unused stored id) ∧
      ∃ reason existing, reserveTerminalLaunch json call stored =
        (.blocked reason existing, stored)) ∨
    ∃ kept, Admits json call stored kept ∧
      (∀ id ∈ call.explicit?, Unused stored id) ∧
      reserveTerminalLaunch json call stored =
        (.reserved call.attemptId call.requestedId,
          some (.document (kept ++ [call.newRecord]))) := by
  unfold reserveTerminalLaunch
  cases h : reserveRecords json call stored with
  | error e =>
    refine .inl ⟨fun kept hadmits => ?_, e.1, e.2, rfl⟩
    by_contra! hunused
    exact absurd (h.symm.trans (reserveRecords_eq_ok_iff.mpr ⟨hunused, kept, hadmits, rfl⟩))
      (by simp)
  | ok text =>
    obtain ⟨hunused, kept, hadmits, rfl⟩ := reserveRecords_eq_ok_iff.mp h
    exact .inr ⟨kept, hadmits, hunused, rfl⟩

variable (r : StoredLaunchRecord) (outcome : LaunchOutcome) (now : Nat)

@[simp] theorem attemptId_settle :
    (r.settle outcome now).attemptId = r.attemptId := by cases outcome <;> rfl

@[simp] theorem canonicalIdentity_settle :
    (r.settle outcome now).canonicalIdentity = r.canonicalIdentity := by
  cases outcome <;> rfl

theorem splitAtAttempt_eq_some {attemptId : String}
    (h : splitAtAttempt attemptId records = some (front, current, back)) :
    records = front ++ current :: back ∧ current.attemptId = attemptId := by
  induction records generalizing front with
  | nil => cases h
  | cons r rest ih =>
    rw [splitAtAttempt] at h
    split_ifs at h with hid
    · cases h
      exact ⟨rfl, hid⟩
    obtain ⟨⟨front', current', back'⟩, hsplit, ⟨⟩⟩ := Option.map_eq_some_iff.mp h
    obtain ⟨hrest, hid⟩ := ih hsplit
    exact ⟨by rw [hrest]; rfl, hid⟩

/-- The call replaces an unresolved record by its settlement. -/
structure Settles (call : SettleCall) (records front back : List StoredLaunchRecord)
    (current : StoredLaunchRecord) : Prop where
  split : records = front ++ current :: back
  attempt : current.attemptId = call.attemptId
  unresolved : current.state.unresolved = true

/-- A settlement leaves the text as it was, or it replaces one unresolved record. -/
theorem settle_cases (call : SettleCall) (stored : Option JournalText) :
    (settleTerminalLaunch json call stored).2 = stored ∨
    ∃ front current back, Settles call (JournalText.records? stored) front back current ∧
      (settleTerminalLaunch json call stored).2 =
        some (.document (front ++ current.settle call.outcome call.now :: back)) := by
  unfold settleTerminalLaunch
  split
  · exact .inl rfl
  rename_i records hread
  split
  · exact .inl rfl
  rename_i front current back hsplit
  split_ifs with hstate
  · exact .inl rfl
  split
  · exact .inl rfl
  rename_i text hwrite
  right
  obtain ⟨hrecords, hid⟩ := splitAtAttempt_eq_some hsplit
  rw [readLaunchJournalDocument_eq_ok hread, writeLaunchJournalDocument_eq_ok hwrite]
  rw [LaunchAttemptState.settled_eq] at hstate
  exact ⟨front, current, back, ⟨hrecords, hid, by simpa using hstate⟩, rfl⟩

end

end DamHopper.Os
