import DamHopper.Api.Transfers

/-!
# TransferIntegrity — what a connection acknowledges and persists

The client keeps a log of every transfer: the size it declared and the chunks that
were acknowledged, with their numbers. A transfer is sound if its chunks were
acknowledged as 0, 1, 2, … and the server has not buffered more than was declared. A
header is checked when it arrives, its frame is not checked again (`InTurn`). A
successful commit persists what was acknowledged, in the order of the
acknowledgements; that is the order of the numbers as long as every chunk is in turn.

Writes and uploads differ in the width of their numbers and in their size check;
`Receiver` is what they have in common, and `Turn` lists what a message can do
to the receivers and the logs.
-/

namespace DamHopper.Api

open AssocMap Connection UploadState Function

inductive TransferKey where
  | write (writeId : UInt64)
  | upload (uploadId : String)
  deriving Repr, DecidableEq

structure Receiver where
  declared : Nat
  temp : List UInt8
  bytesWritten : Nat
  nextSeq : Nat
  width : Nat

namespace Receiver

def start (declared width : Nat) : Receiver := ⟨declared, [], 0, 0, width⟩

def append (r : Receiver) (bytes : List UInt8) : Receiver :=
  { r with
    temp := r.temp ++ bytes
    bytesWritten := r.bytesWritten + bytes.length
    nextSeq := (r.nextSeq + 1) % 2 ^ r.width }

end Receiver

def WriteInFlight.receiver (entry : WriteInFlight) : Receiver :=
  ⟨entry.declaredSize, entry.temp, entry.bytesWritten, entry.nextSeq.toNat, 32⟩

def UploadState.receiver (upload : UploadState) : Receiver :=
  ⟨upload.expectedLen, upload.temp, upload.bytesWritten, upload.nextSeq.toNat, 64⟩

def receivers (writes : AssocMap UInt64 WriteInFlight) (uploads : AssocMap String UploadState) :
    TransferKey → Option Receiver
  | .write writeId => (writes.get? writeId).map WriteInFlight.receiver
  | .upload uploadId => (uploads.get? uploadId).map receiver

section receivers

variable (writes : AssocMap UInt64 WriteInFlight) (uploads : AssocMap String UploadState)

theorem receivers_insertWrite (writeId : UInt64) (entry : WriteInFlight) :
    receivers (writes.insert writeId entry) uploads =
      update (receivers writes uploads) (.write writeId) (some entry.receiver) := by
  refine eq_update_iff.mpr ⟨by simp [receivers], fun key hne => ?_⟩
  cases key with
  | write id => simp [receivers, get?_insert_of_ne _ _ fun heq => hne (congrArg _ heq)]
  | upload id => rfl

theorem receivers_insertUpload (uploadId : String) (upload : UploadState) :
    receivers writes (uploads.insert uploadId upload) =
      update (receivers writes uploads) (.upload uploadId) (some upload.receiver) := by
  refine eq_update_iff.mpr ⟨by simp [receivers], fun key hne => ?_⟩
  cases key with
  | write id => rfl
  | upload id => simp [receivers, get?_insert_of_ne _ _ fun heq => hne (congrArg _ heq)]

end receivers

/-! ## The client's log -/

structure TransferLog where
  declared : Nat
  /-- Number and payload of every acknowledged chunk, in the order of the
  acknowledgements. -/
  acks : List (Nat × List UInt8)

def TransferLog.ack (log : TransferLog) (seq : Nat) (bytes : List UInt8) : TransferLog :=
  { log with acks := log.acks ++ [(seq, bytes)] }

abbrev Logs := AssocMap TransferKey TransferLog

def Logs.ack (logs : Logs) (key : TransferKey) (seq : Nat) (bytes : List UInt8) : Logs :=
  logs.insert key (((logs.get? key).getD ⟨0, []⟩).ack seq bytes)

section

variable (decode : String → Option (List UInt8))

def ClientMsg.payload : ClientMsg → List UInt8
  | .fsWriteChunk _ _ data _ => (decode data).getD []
  | .binary data _ => data
  | _ => []

def ClientMsg.declared : ClientMsg → Nat
  | .fsWriteBegin _ size _ => size
  | .fsUploadBegin _ _ len _ _ => len
  | _ => 0

def ClientMsg.commits : ClientMsg → Option TransferKey
  | .fsWriteCommit writeId _ => some (.write writeId)
  | .fsUploadCommit _ uploadId _ _ => some (.upload uploadId)
  | _ => none

/-- What the client notes when it gets an answer to its message. -/
def Logs.note (logs : Logs) (msg : ClientMsg) : Option ServerMsg → Logs
  | some (.fsWriteAck _ writeId) => logs.insert (.write writeId) ⟨msg.declared, []⟩
  | some (.fsUploadBeginOk _ uploadId) => logs.insert (.upload uploadId) ⟨msg.declared, []⟩
  | some (.fsWriteChunkAck writeId seq) =>
    logs.ack (.write writeId) seq.toNat (msg.payload decode)
  | some (.fsUploadChunkAck uploadId seq) =>
    logs.ack (.upload uploadId) seq.toNat (msg.payload decode)
  | _ => logs

structure Observed where
  conn : Connection
  logs : Logs

namespace Observed

def new : Observed := ⟨.new, .empty⟩

def step (o : Observed) (msg : ClientMsg) : Observed :=
  let reaction := o.conn.react decode msg
  ⟨reaction.conn, o.logs.note decode msg reaction.reply⟩

def receiver? (o : Observed) : TransferKey → Option Receiver :=
  receivers o.conn.writes o.conn.uploads

def chunks (o : Observed) (key : TransferKey) : Nat :=
  ((o.logs.get? key).getD ⟨0, []⟩).acks.length

/-- Every transfer was acknowledged in order, each number once, and nothing is buffered
beyond the declared size. -/
structure Sound (o : Observed) : Prop where
  inOrder : ∀ key log, o.logs.get? key = some log →
    log.acks.map Prod.fst = List.range log.acks.length
  within : ∀ key r, o.receiver? key = some r → r.temp.length ≤ r.declared

/-- The chunk a message delivers is the next one of its transfer: a frame still finds the
number its header announced, an upload frame fits into the declared size, and the
sequence numbers have not run out. -/
def InTurn (o : Observed) : ClientMsg → Prop
  | .fsWriteChunk writeId seq data written =>
    ∀ entry bytes, o.conn.writes.get? writeId = some entry → seq = entry.nextSeq →
      decode data = some bytes → entry.bytesWritten + bytes.length ≤ entry.declaredSize →
      written = true → o.chunks (.write writeId) < 2 ^ 32
  | .binary data written =>
    match o.conn.pendingBinary with
    | some (.write writeId seq) =>
      ∀ entry, o.conn.writes.get? writeId = some entry →
        entry.bytesWritten + data.length ≤ entry.declaredSize → written = true →
        seq = entry.nextSeq ∧ o.chunks (.write writeId) < 2 ^ 32
    | some (.upload uploadId seq) =>
      ∀ upload, o.conn.uploads.get? uploadId = some upload →
        upload.bytesWritten + data.length ≤ max upload.expectedLen MAX_UPLOAD_BYTES →
        written = true →
        seq = upload.nextSeq ∧ o.chunks (.upload uploadId) < 2 ^ 64 ∧
          upload.bytesWritten + data.length ≤ upload.expectedLen
    | _ => True
  | _ => True

/-- A commit that persists something persists the acknowledged payloads in the order of
their acknowledgements, and as many bytes as were declared. -/
def CommitExact (o : Observed) (msg : ClientMsg) : Prop :=
  ∀ content, (o.conn.react decode msg).persisted = some content →
    ∃ key log, msg.commits = some key ∧ o.logs.get? key = some log ∧
      content = (log.acks.map Prod.snd).flatten ∧ content.length = log.declared

/-- The persisted payloads are those of the chunks 0, 1, 2, …, in this order. -/
def CommitInSequence (o : Observed) (msg : ClientMsg) : Prop :=
  ∀ content, (o.conn.react decode msg).persisted = some content →
    ∃ key log payloads, msg.commits = some key ∧ o.logs.get? key = some log ∧
      log.acks = (List.range payloads.length).zip payloads ∧
      content = payloads.flatten ∧ content.length = log.declared

/-! ## Receivers and logs agree -/

/-- The receiver holds what the log says was acknowledged. -/
structure Tracks (r : Receiver) (log : TransferLog) : Prop where
  declared : r.declared = log.declared
  temp : r.temp = (log.acks.map Prod.snd).flatten
  bytesWritten : r.bytesWritten = r.temp.length
  nextSeq : r.nextSeq = log.acks.length % 2 ^ r.width

def Agree (r? : Option Receiver) (log? : Option TransferLog) : Prop :=
  ∀ r, r? = some r → ∃ log, log? = some log ∧ Tracks r log

def Mirrors (o : Observed) : Prop := ∀ key, Agree (o.receiver? key) (o.logs.get? key)

theorem Tracks.start (declared width : Nat) : Tracks (.start declared width) ⟨declared, []⟩ where
  declared := rfl
  temp := rfl
  bytesWritten := rfl
  nextSeq := (Nat.zero_mod _).symm

variable {r : Receiver} {log : TransferLog} {key : TransferKey} {c : Connection} {msg : ClientMsg}
  {writeId : UInt64} {uploadId : String}

theorem Tracks.append (h : Tracks r log) (seq : Nat) (bytes : List UInt8) :
    Tracks (r.append bytes) (log.ack seq bytes) where
  declared := h.declared
  temp := by simp [Receiver.append, TransferLog.ack, h.temp]
  bytesWritten := by simp [Receiver.append, h.bytesWritten]
  nextSeq := by simp [Receiver.append, TransferLog.ack, h.nextSeq, Nat.mod_add_mod]

/-- What a message does: it starts no transfer and takes no chunk, or it starts one, or it
takes one chunk. `C` says whether the chunk was in turn. -/
inductive Turn (C : Prop) (o o' : Observed) : Prop
  | keeps (hC : C)
      (hrecv : ∀ key r, o'.receiver? key = some r → o.receiver? key = some r)
      (hlogs : o'.logs = o.logs)
  | begins (hC : C) (key : TransferKey) (declared width : Nat)
      (hrecv : o'.receiver? = update o.receiver? key (some (.start declared width)))
      (hlogs : o'.logs = o.logs.insert key ⟨declared, []⟩)
  | takes (key : TransferKey) (r : Receiver) (seq : Nat) (bytes : List UInt8)
      (hr : o.receiver? key = some r) (hseq : seq < 2 ^ r.width)
      (hC : C ↔ seq = r.nextSeq ∧ o.chunks key < 2 ^ r.width ∧
        r.bytesWritten + bytes.length ≤ r.declared)
      (hrecv : o'.receiver? = update o.receiver? key (some (r.append bytes)))
      (hlogs : o'.logs = o.logs.ack key seq bytes)

variable {C : Prop} {o o' : Observed}

theorem get?_insert_eq_update (logs : Logs) (key : TransferKey) (log : TransferLog) :
    (logs.insert key log).get? = update logs.get? key (some log) :=
  eq_update_iff.mpr ⟨get?_insert_self _ _ _, fun _ h => get?_insert_of_ne _ _ h⟩

/-- A relation between receivers and logs is kept if it holds for the one that is
replaced. -/
theorem forall_update {R : Option Receiver → Option TransferLog → Prop}
    {recv : TransferKey → Option Receiver} {logs : TransferKey → Option TransferLog}
    (h : ∀ key, R (recv key) (logs key)) {r? : Option Receiver} {log? : Option TransferLog}
    (hkey : R r? log?) (k : TransferKey) :
    R (update recv key r? k) (update logs key log? k) := by
  by_cases hk : k = key
  · rw [hk, update_self, update_self]
    exact hkey
  · rw [update_of_ne hk, update_of_ne hk]
    exact h k

theorem ack_eq {logs : Logs} (h : logs.get? key = some log) (seq : Nat) (bytes : List UInt8) :
    logs.ack key seq bytes = logs.insert key (log.ack seq bytes) := by
  rw [Logs.ack, h]
  rfl

theorem Turn.mirrors (h : Turn C o o') (hm : o.Mirrors) : o'.Mirrors := by
  cases h with
  | keeps _ hrecv hlogs =>
    intro key r hr
    rw [hlogs]
    exact hm key r (hrecv key r hr)
  | begins _ key declared width hrecv hlogs =>
    rw [Mirrors, hrecv, hlogs, get?_insert_eq_update]
    apply forall_update hm
    rintro _ ⟨rfl⟩
    exact ⟨_, rfl, .start declared width⟩
  | takes key r seq bytes hr _ _ hrecv hlogs =>
    obtain ⟨log, hlog, ht⟩ := hm key r hr
    rw [Mirrors, hrecv, hlogs, ack_eq hlog, get?_insert_eq_update]
    apply forall_update hm
    rintro _ ⟨rfl⟩
    exact ⟨_, rfl, ht.append seq bytes⟩

def SoundAt (r? : Option Receiver) (log? : Option TransferLog) : Prop :=
  (∀ log, log? = some log → log.acks.map Prod.fst = List.range log.acks.length) ∧
    ∀ r, r? = some r → r.temp.length ≤ r.declared

theorem sound_iff_forall : o.Sound ↔ ∀ key, SoundAt (o.receiver? key) (o.logs.get? key) :=
  ⟨fun h key => ⟨h.inOrder key, h.within key⟩,
    fun h => ⟨fun key => (h key).1, fun key => (h key).2⟩⟩

/-- A chunk leaves its transfer sound exactly if it is the next one and fits. -/
theorem soundAt_append_iff (ht : Tracks r log) (hs : SoundAt (some r) (some log)) {seq : Nat}
    (hseq : seq < 2 ^ r.width) (bytes : List UInt8) :
    SoundAt (some (r.append bytes)) (some (log.ack seq bytes)) ↔
      seq = r.nextSeq ∧ log.acks.length < 2 ^ r.width ∧
        r.bytesWritten + bytes.length ≤ r.declared := by
  have hbytes : (r.append bytes).temp.length = r.bytesWritten + bytes.length := by
    rw [ht.bytesWritten]
    exact List.length_append
  -- the next number is the count itself until the numbers run out
  have hnext : seq = log.acks.length ↔ seq = r.nextSeq ∧ log.acks.length < 2 ^ r.width := by
    rw [ht.nextSeq]
    constructor
    · intro heq
      exact ⟨by rw [Nat.mod_eq_of_lt (heq ▸ hseq), heq], heq ▸ hseq⟩
    · intro ⟨heq, hlt⟩
      rwa [Nat.mod_eq_of_lt hlt] at heq
  have horder : (log.ack seq bytes).acks.map Prod.fst =
      List.range (log.ack seq bytes).acks.length ↔ seq = log.acks.length := by
    simp [TransferLog.ack, List.range_succ, hs.1 log rfl]
  rw [← and_assoc, ← hnext, ← horder, ← hbytes]
  constructor
  · exact fun h => ⟨h.1 _ rfl, h.2 _ rfl⟩
  · rintro ⟨hlog, hr⟩
    constructor
    · rintro _ ⟨rfl⟩
      exact hlog
    · rintro _ ⟨rfl⟩
      exact hr

theorem Turn.sound_iff (h : Turn C o o') (hm : o.Mirrors) (hs : o.Sound) : o'.Sound ↔ C := by
  cases h with
  | keeps hC hrecv hlogs =>
    refine iff_of_true ⟨?_, ?_⟩ hC
    · rw [hlogs]
      exact hs.inOrder
    · exact fun key r hr => hs.within key r (hrecv key r hr)
  | begins hC key declared width hrecv hlogs =>
    refine iff_of_true (sound_iff_forall.mpr ?_) hC
    rw [hrecv, hlogs, get?_insert_eq_update]
    apply forall_update (sound_iff_forall.mp hs)
    constructor
    · simp
    · rintro _ ⟨rfl⟩
      exact Nat.zero_le _
  | takes key r seq bytes hr hseq hC hrecv hlogs =>
    obtain ⟨log, hlog, ht⟩ := hm key r hr
    have hchunks : o.chunks key = log.acks.length := by
      rw [chunks, hlog]
      rfl
    have hat := sound_iff_forall.mp hs key
    rw [hr, hlog] at hat
    rw [hC, hchunks, ← soundAt_append_iff ht hat hseq bytes, sound_iff_forall, hrecv, hlogs,
      ack_eq hlog, get?_insert_eq_update]
    constructor
    · intro h
      have hkey := h key
      rwa [update_self, update_self] at hkey
    · intro h
      exact forall_update (sound_iff_forall.mp hs) h

/-! ## Every message takes a turn -/

theorem append_write (entry : WriteInFlight) (bytes : List UInt8) : ({ entry with
      temp := entry.temp ++ bytes
      bytesWritten := entry.bytesWritten + bytes.length
      nextSeq := entry.nextSeq + 1 } : WriteInFlight).receiver = entry.receiver.append bytes := by
  simp [WriteInFlight.receiver, Receiver.append]

variable (upload : UploadState) (data : List UInt8) (written : Bool)

/-- An upload takes the chunk exactly if it stays under the larger of the declared size
and the cap, and the file takes the bytes. -/
theorem appendChunk_cases : (∃ error, upload.appendChunk data written = .error error ∧
      ¬ (upload.bytesWritten + data.length ≤ max upload.expectedLen MAX_UPLOAD_BYTES ∧
        written = true)) ∨
    (∃ upload', upload.appendChunk data written = .ok upload' ∧
      upload.bytesWritten + data.length ≤ max upload.expectedLen MAX_UPLOAD_BYTES ∧
      written = true ∧ upload'.receiver = upload.receiver.append data) := by
  by_cases hfits : max upload.expectedLen MAX_UPLOAD_BYTES < upload.bytesWritten + data.length
  · exact .inl ⟨_, if_pos hfits, fun h => absurd h.1 (Nat.not_le.mpr hfits)⟩
  · cases written with
    | false => exact .inl ⟨_, if_neg hfits, fun h => nomatch h.2⟩
    | true => exact .inr ⟨_, if_neg hfits, Nat.le_of_not_lt hfits, rfl,
        by simp [UploadState.receiver, Receiver.append]⟩

/-- A message that starts nothing and takes no chunk, whatever it drops. -/
theorem turn_keeps {reply : Option ServerMsg} (hC : C)
    (hrecv : ∀ key r, receivers c.writes c.uploads key = some r → o.receiver? key = some r)
    (hnote : o.logs.note decode msg reply = o.logs) :
    Turn C o ⟨c, o.logs.note decode msg reply⟩ :=
  .keeps hC hrecv hnote

variable {writes : AssocMap UInt64 WriteInFlight} {uploads : AssocMap String UploadState}

theorem eraseWrite_keeps (h : receivers (writes.erase writeId) uploads key = some r) :
    receivers writes uploads key = some r := by
  cases key with
  | write id =>
    obtain ⟨entry, hget, rfl⟩ := Option.map_eq_some_iff.mp h
    exact Option.map_eq_some_iff.mpr ⟨entry, get?_of_erase hget, rfl⟩
  | upload id => exact h

theorem eraseUpload_keeps (h : receivers writes (uploads.erase uploadId) key = some r) :
    receivers writes uploads key = some r := by
  cases key with
  | write id => exact h
  | upload id =>
    obtain ⟨upload, hget, rfl⟩ := Option.map_eq_some_iff.mp h
    exact Option.map_eq_some_iff.mpr ⟨upload, get?_of_erase hget, rfl⟩

theorem turn_takeWriteChunk (c : Connection) (msg : ClientMsg) {entry : WriteInFlight}
    (hwrites : c.writes = o.conn.writes) (huploads : c.uploads = o.conn.uploads)
    (hget : o.conn.writes.get? writeId = some entry) (seq : UInt32) (written : Bool)
    (hC : C ↔ (entry.bytesWritten + (msg.payload decode).length ≤ entry.declaredSize →
      written = true → seq = entry.nextSeq ∧ o.chunks (.write writeId) < 2 ^ 32)) :
    let reaction := c.takeWriteChunk writeId entry seq (msg.payload decode) written
    Turn C o ⟨reaction.conn, o.logs.note decode msg reaction.reply⟩ := by
  intro reaction
  have hdrop : ∀ key r, receivers (c.dropWrite writeId).writes (c.dropWrite writeId).uploads key =
      some r → o.receiver? key = some r := by
    intro key r hr
    rw [receiver?, ← hwrites, ← huploads]
    exact eraseWrite_keeps hr
  by_cases hfits : entry.declaredSize < entry.bytesWritten + (msg.payload decode).length
  · have hreaction : reaction = (c.dropWrite writeId).silent := if_pos hfits
    rw [hreaction]
    exact turn_keeps decode (hC.mpr fun hle => absurd hle (by omega)) hdrop rfl
  cases written with
  | false =>
    have hreaction : reaction = (c.dropWrite writeId).silent := if_neg hfits
    rw [hreaction]
    exact turn_keeps decode (hC.mpr fun _ hw => nomatch hw) hdrop rfl
  | true =>
    have hreaction : reaction = _ := if_neg hfits
    rw [hreaction]
    refine .takes (.write writeId) entry.receiver seq.toNat (msg.payload decode) ?_
      seq.toNat_lt ?_ ?_ rfl
    · rw [receiver?, receivers, hget, Option.map_some]
    · rw [hC]
      have hle := Nat.le_of_not_lt hfits
      simp only [hle, WriteInFlight.receiver, UInt32.toNat_inj, forall_const, and_true]
    · rw [← append_write]
      show receivers (c.writes.insert writeId _) c.uploads = _
      rw [receivers_insertWrite, hwrites, huploads]
      rfl

theorem turn_handleUploadBinary (c : Connection) (msg : ClientMsg)
    (hwrites : c.writes = o.conn.writes) (huploads : c.uploads = o.conn.uploads) (seq : UInt64)
    (written : Bool)
    (hC : C ↔ ∀ upload, o.conn.uploads.get? uploadId = some upload →
      upload.bytesWritten + (msg.payload decode).length ≤
        max upload.expectedLen MAX_UPLOAD_BYTES → written = true →
      seq = upload.nextSeq ∧ o.chunks (.upload uploadId) < 2 ^ 64 ∧
        upload.bytesWritten + (msg.payload decode).length ≤ upload.expectedLen) :
    let reaction := c.handleUploadBinary uploadId seq (msg.payload decode) written
    Turn C o ⟨reaction.conn, o.logs.note decode msg reaction.reply⟩ := by
  intro reaction
  have hkeep : ∀ key r, receivers c.writes c.uploads key = some r → o.receiver? key = some r := by
    intro key r hr
    rwa [receiver?, ← hwrites, ← huploads]
  cases hget : o.conn.uploads.get? uploadId with
  | none =>
    have hreaction : reaction = c.silent := by
      simp only [reaction, handleUploadBinary, huploads, hget]
    rw [hreaction]
    exact turn_keeps decode (hC.mpr fun upload hsome => by rw [hget] at hsome; cases hsome)
      hkeep rfl
  | some upload =>
    have hC' : C ↔ (upload.bytesWritten + (msg.payload decode).length ≤
        max upload.expectedLen MAX_UPLOAD_BYTES → written = true →
        seq = upload.nextSeq ∧ o.chunks (.upload uploadId) < 2 ^ 64 ∧
          upload.bytesWritten + (msg.payload decode).length ≤ upload.expectedLen) := by
      simp only [hC, hget, Option.some.injEq, forall_eq']
    have hdrop : ∀ key r, receivers c.writes (c.uploads.erase uploadId) key = some r →
        o.receiver? key = some r := fun key r hr => hkeep key r (eraseUpload_keeps hr)
    rcases appendChunk_cases upload (msg.payload decode) written with
      ⟨error, happend, hnot⟩ | ⟨upload', happend, hfits, hwritten, hupload'⟩
    · have hreaction : reaction =
          ({ c with uploads := c.uploads.erase uploadId } : Connection).silent := by
        simp only [reaction, handleUploadBinary, huploads, hget, happend]
      rw [hreaction]
      exact turn_keeps decode (hC'.mpr fun hle hw => absurd ⟨hle, hw⟩ hnot) hdrop rfl
    · have hreaction : reaction =
          ({ c with uploads := c.uploads.insert uploadId upload' } : Connection).answer
            (.fsUploadChunkAck uploadId seq) := by
        simp only [reaction, handleUploadBinary, huploads, hget, happend]
      rw [hreaction]
      refine .takes (.upload uploadId) upload.receiver seq.toNat (msg.payload decode) ?_
        seq.toNat_lt ?_ ?_ rfl
      · rw [receiver?, receivers, hget, Option.map_some]
      · simp [hC', hfits, hwritten, receiver, UInt64.toNat_inj, forall_const]
      · rw [← hupload']
        show receivers c.writes (c.uploads.insert uploadId upload') = _
        rw [receivers_insertUpload, hwrites, huploads]
        rfl

theorem turn_writeBegin (reqId size : Nat) (opened : Except (String × String) Unit) :
    Turn True o (o.step decode (.fsWriteBegin reqId size opened)) := by
  simp only [step, react, fsWriteBegin]
  split
  · exact turn_keeps decode trivial (fun _ _ hr => hr) rfl
  cases opened with
  | error refusal => exact turn_keeps decode trivial (fun _ _ hr => hr) rfl
  | ok _ =>
    refine .begins trivial (.write o.conn.nextWriteId) size 32 ?_ rfl
    exact receivers_insertWrite _ _ _ _

theorem turn_uploadBegin (reqId : Nat) (uploadId : String) (len : Nat)
    (target : Except (String × String) Unit) (opened : Except FsError Unit) :
    Turn True o (o.step decode (.fsUploadBegin reqId uploadId len target opened)) := by
  simp only [step, react, fsUploadBegin]
  cases target with
  | error refusal => exact turn_keeps decode trivial (fun _ _ hr => hr) rfl
  | ok _ =>
    dsimp only
    split
    · exact turn_keeps decode trivial (fun _ _ hr => hr) rfl
    cases opened with
    | error error => exact turn_keeps decode trivial (fun _ _ hr => hr) rfl
    | ok _ =>
      refine .begins trivial (.upload uploadId) len 64 ?_ rfl
      exact receivers_insertUpload _ _ _ _

theorem turn_writeChunk (writeId : UInt64) (seq : UInt32) (data : String) (written : Bool) :
    Turn (o.InTurn decode (.fsWriteChunk writeId seq data written)) o
      (o.step decode (.fsWriteChunk writeId seq data written)) := by
  have hdrop : ∀ key r, receivers (o.conn.writes.erase writeId) o.conn.uploads key = some r →
      o.receiver? key = some r := fun key r hr => eraseWrite_keeps hr
  simp only [step, react, fsWriteChunk]
  cases hget : o.conn.writes.get? writeId with
  | none =>
    exact turn_keeps decode (by simp [InTurn, hget]) (fun _ _ hr => hr) rfl
  | some entry =>
    dsimp only
    by_cases hseq : seq = entry.nextSeq
    · rw [if_neg (not_not.mpr hseq)]
      cases hdecode : decode data with
      | none => exact turn_keeps decode (by simp [InTurn, hdecode]) hdrop rfl
      | some bytes =>
        have hpayload : (ClientMsg.fsWriteChunk writeId seq data written).payload decode =
            bytes := by
          rw [ClientMsg.payload, hdecode, Option.getD_some]
        have hturn := turn_takeWriteChunk decode
          (C := o.InTurn decode (.fsWriteChunk writeId seq data written)) o.conn
          (.fsWriteChunk writeId seq data written) rfl rfl hget seq written
        rw [hpayload] at hturn
        refine hturn ?_
        simp only [InTurn, hget, hdecode, Option.some.injEq]
        constructor
        · exact fun h hle hw => ⟨hseq, h entry bytes rfl hseq rfl hle hw⟩
        · rintro h _ _ rfl _ rfl hle hw
          exact (h hle hw).2
    · rw [if_pos hseq]
      refine turn_keeps decode ?_ hdrop rfl
      intro entry' bytes hsome hseq'
      rw [hget, Option.some.injEq] at hsome
      exact absurd (hsome ▸ hseq') hseq

theorem turn_binary : Turn (o.InTurn decode (.binary data written)) o
      (o.step decode (.binary data written)) := by
  simp only [step, react, handleBinary, InTurn]
  cases hpending : o.conn.pendingBinary with
  | none => exact turn_keeps decode trivial (fun _ _ hr => hr) rfl
  | some pending =>
    cases pending with
    | encPut | encPutSave => exact turn_keeps decode trivial (fun _ _ hr => hr) rfl
    | upload uploadId seq =>
      exact turn_handleUploadBinary decode { o.conn with pendingBinary := none }
        (.binary data written) rfl rfl seq written Iff.rfl
    | write writeId seq =>
      dsimp only [handleWriteBinary]
      cases hget : o.conn.writes.get? writeId with
      | none =>
        refine turn_keeps decode ?_ (fun _ _ hr => hr) rfl
        rintro entry ⟨⟩
      | some entry =>
        refine turn_takeWriteChunk decode { o.conn with pendingBinary := none }
          (.binary data written) rfl rfl hget seq written ?_
        simp only [Option.some.injEq, forall_eq', ClientMsg.payload]

/-- Every message takes a turn, and the chunk it delivers is in turn exactly under
`InTurn`. -/
theorem step_turn (o : Observed) (msg : ClientMsg) :
    Turn (o.InTurn decode msg) o (o.step decode msg) := by
  cases msg with
  | fsWriteBegin reqId size opened => exact turn_writeBegin decode reqId size opened
  | fsUploadBegin reqId uploadId len target opened =>
    exact turn_uploadBegin decode reqId uploadId len target opened
  | fsWriteChunk writeId seq data written => exact turn_writeChunk decode writeId seq data written
  | binary data written => exact turn_binary decode data written
  | fsWriteChunkBinary | fsUploadChunk | fsWriteCommit | fsUploadCommit =>
    simp only [step, react, fsWriteChunkBinary, fsUploadChunk, fsWriteCommit, fsUploadCommit]
    repeat' split
    all_goals first
      | exact turn_keeps decode trivial (fun _ _ hr => hr) rfl
      | exact turn_keeps decode trivial (fun _ _ => eraseWrite_keeps) rfl
      | exact turn_keeps decode trivial (fun _ _ => eraseUpload_keeps) rfl
  | fsPutChunk | fsPutSave => exact turn_keeps decode trivial (fun _ _ hr => hr) rfl

/-! ## Commits -/

/-- What is persisted is the buffer of the committed transfer, complete. -/
theorem persisted_cases {content : List UInt8} (h : (c.react decode msg).persisted = some content) :
    ∃ key r, msg.commits = some key ∧ receivers c.writes c.uploads key = some r ∧
      content = r.temp ∧ r.bytesWritten = r.declared := by
  cases msg with
  | fsWriteCommit writeId outcome =>
    simp only [react, fsWriteCommit] at h
    cases hget : c.writes.get? writeId with
    | none =>
      rw [hget] at h
      cases h
    | some entry =>
      rw [hget] at h
      dsimp only at h
      split_ifs at h with hfull
      · cases h
      refine ⟨.write writeId, entry.receiver, rfl, ?_, ?_, not_not.mp hfull⟩
      · rw [receivers, hget, Option.map_some]
      · split at h
        · exact (Option.some.inj h).symm
        · cases h
        · cases h
  | fsUploadCommit reqId uploadId ready outcome =>
    simp only [react, fsUploadCommit] at h
    cases hget : c.uploads.get? uploadId with
    | none =>
      rw [hget] at h
      cases h
    | some upload =>
      rw [hget] at h
      dsimp only at h
      split at h
      · cases h
      split at h
      next newMtime hcommit =>
        refine ⟨.upload uploadId, upload.receiver, rfl, ?_, (Option.some.inj h).symm, ?_⟩
        · rw [receivers, hget, Option.map_some]
        · by_contra hne
          have hrefused : upload.bytesWritten ≠ upload.expectedLen := hne
          rw [commitAtTarget, if_pos hrefused] at hcommit
          cases hcommit
      · cases h
  | fsPutChunk | fsPutSave => cases h
  | _ =>
    simp only [react, fsWriteBegin, fsUploadBegin, fsWriteChunk, fsWriteChunkBinary, fsUploadChunk,
      handleBinary, handleUploadBinary, handleWriteBinary, takeWriteChunk] at h
    repeat' split at h
    all_goals cases h

theorem Mirrors.commitExact (hm : o.Mirrors) (msg : ClientMsg) : o.CommitExact decode msg := by
  intro content h
  obtain ⟨key, r, hkey, hr, hcontent, hfull⟩ := persisted_cases decode h
  obtain ⟨log, hlog, ht⟩ := hm key r hr
  refine ⟨key, log, hkey, hlog, ?_, ?_⟩
  · rw [hcontent, ht.temp]
  · rw [hcontent, ← ht.bytesWritten, hfull, ht.declared]

theorem CommitExact.inSequence (h : o.CommitExact decode msg) (hs : o.Sound) :
    o.CommitInSequence decode msg := by
  intro content hcontent
  obtain ⟨key, log, hkey, hlog, hexact⟩ := h content hcontent
  refine ⟨key, log, log.acks.map Prod.snd, hkey, hlog, ?_, hexact⟩
  rw [List.length_map, ← hs.inOrder key log hlog]
  exact List.zip_of_prod rfl rfl

/-! ## The connection -/

/-- **Chunked transfers.** On every connection and for every sequence of messages: each
transfer is acknowledged as 0, 1, 2, … and buffers no more than was declared, at all
times, exactly if every delivered chunk is in turn; then a commit that succeeds persists
the payloads of the acknowledged chunks in the order of their numbers. In every run it
persists them in the order of their acknowledgements, as many bytes as were declared. -/
theorem transfer_integrity (messages : List ClientMsg) : (Always (step decode) Sound new messages ↔
      EveryStep (step decode) (InTurn decode) new messages) ∧
    (EveryStep (step decode) (InTurn decode) new messages →
      EveryStep (step decode) (CommitInSequence decode) new messages) ∧
    EveryStep (step decode) (CommitExact decode) new messages := by
  have hmirrors : Mirrors new := fun key r hr => by cases key <;> cases hr
  have hsound : Sound new := by
    constructor
    · rintro key log ⟨⟩
    · intro key r hr
      cases key <;> cases hr
  refine ⟨?_, EveryStep.under (I := fun o => Mirrors o ∧ Sound o) (fun o msg ⟨hm, hs⟩ hturn => ?_)
    (fun o msg ⟨hm, hs⟩ _ => (hm.commitExact decode msg).inSequence decode hs) ⟨hmirrors, hsound⟩,
    ?_⟩
  · exact always_iff_everyStep (I := Mirrors) (fun o msg hm => (step_turn decode o msg).mirrors hm)
      (fun o msg hm hs => (step_turn decode o msg).sound_iff hm hs) hmirrors hsound messages
  · have h := step_turn decode o msg
    exact ⟨h.mirrors hm, (h.sound_iff hm hs).mpr hturn⟩
  · exact everyStep_of_always (P := Mirrors) (fun o msg hm _ => hm.commitExact decode msg)
      (always_all (I := Mirrors) (fun o msg hm => (step_turn decode o msg).mirrors hm) messages
        hmirrors)

/-- A header, a text chunk with the same number, and the frame: number 0 is
acknowledged twice. And an upload of one byte that buffers two. -/
theorem stale_header_acknowledged_twice :
    let decode : String → Option (List UInt8) := fun _ => some [1, 2]
    let twice := run (step decode) new [.fsWriteBegin 7 4 (.ok ()), .fsWriteChunkBinary 1 0,
      .fsWriteChunk 1 0 "AQI=" true, .binary [3, 4] true]
    let beyond := run (step decode) new [.fsUploadBegin 7 "u" 1 (.ok ()) (.ok ()),
      .fsUploadChunk "u" 0, .binary [3, 4] true]
    (twice.logs.get? (.write 1)).map TransferLog.acks = some [(0, [1, 2]), (0, [3, 4])] ∧
      (beyond.conn.uploads.get? "u").map (fun upload => (upload.expectedLen, upload.temp)) =
        some (1, [3, 4]) := by
  decide

end Observed

end

end DamHopper.Api
