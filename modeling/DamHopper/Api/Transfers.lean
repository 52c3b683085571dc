import DamHopper.Lib.AssocMap
import DamHopper.Lib.Runs

/-!
# Transfers — chunked writes and uploads on one WebSocket connection

`api/ws.rs` (the `fs:write_*` and `fs:upload_*` messages and the binary frames) and
`fs/upload.rs`. A write or an upload is begun with a declared size, receives numbered
chunks into a temporary file and is committed. A chunk comes as text (base64, writes
only) or as a header that announces a binary frame; there is one slot,
`pendingBinary`, for the announced frame, shared by all transfers of the connection.

What the environment decides is an argument of the message: whether the target
resolves and the temporary file opens (`opened`), whether it takes the bytes
(`written`), how the revalidation of the path and the final rename end (`ready`,
`outcome`). A temporary file is the list of the bytes written to it; one that fails
is dropped with its transfer. Sequence numbers have the width the source gives
them and wrap, as they do in a release build. Of the encrypted transfers only the slot is
modelled: their headers take it, their frames touch neither map.
-/

namespace DamHopper.Api

def FS_WRITE_MAX : Nat := 100 * 1024 * 1024

def MAX_UPLOAD_BYTES : Nat := 100 * 1024 * 1024

inductive FsError where
  | conflict
  | tooLarge (size : Nat)
  | mutationRefused (message : String)
  /-- Any other error, by its text. -/
  | other (message : String)
  deriving Repr, DecidableEq

def FsError.text : FsError → String
  | .conflict => "conflict: file modified since last read"
  | .tooLarge size => "too large: " ++ toString size ++ " bytes"
  | .mutationRefused message => "mutation refused: " ++ message
  | .other message => message

structure WriteInFlight where
  declaredSize : Nat
  temp : List UInt8
  bytesWritten : Nat
  nextSeq : UInt32
  deriving Repr, DecidableEq

structure UploadState where
  temp : List UInt8
  bytesWritten : Nat
  expectedLen : Nat
  nextSeq : UInt64
  deriving Repr, DecidableEq

inductive PendingBinary where
  | upload (uploadId : String) (seq : UInt64)
  | write (writeId : UInt64) (seq : UInt32)
  | encPut
  | encPutSave
  deriving Repr, DecidableEq

structure Connection where
  writes : AssocMap UInt64 WriteInFlight
  nextWriteId : UInt64
  uploads : AssocMap String UploadState
  pendingBinary : Option PendingBinary
  deriving Repr, DecidableEq

/-- A message of the client, with what the environment answers while it is handled. -/
inductive ClientMsg where
  | fsWriteBegin (reqId size : Nat) (opened : Except (String × String) Unit)
  | fsWriteChunk (writeId : UInt64) (seq : UInt32) (data : String) (written : Bool)
  | fsWriteChunkBinary (writeId : UInt64) (seq : UInt32)
  | fsWriteCommit (writeId : UInt64) (outcome : Except FsError Int)
  | fsUploadBegin (reqId : Nat) (uploadId : String) (len : Nat)
      (target : Except (String × String) Unit) (opened : Except FsError Unit)
  | fsUploadChunk (uploadId : String) (seq : UInt64)
  | fsUploadCommit (reqId : Nat) (uploadId : String) (ready : Except FsError Unit)
      (outcome : Except FsError Int)
  | fsPutChunk
  | fsPutSave
  | binary (data : List UInt8) (written : Bool)

inductive ServerMsg where
  | fsError (reqId : Nat) (code message : String)
  | fsWriteAck (reqId : Nat) (writeId : UInt64)
  | fsWriteChunkAck (writeId : UInt64) (seq : UInt32)
  | fsWriteResult (writeId : UInt64) (ok : Bool) (newMtime : Option Int) (conflict : Bool)
      (error : Option String)
  | fsUploadBeginOk (reqId : Nat) (uploadId : String)
  | fsUploadChunkAck (uploadId : String) (seq : UInt64)
  | fsUploadResult (reqId : Nat) (uploadId : String) (ok : Bool) (newMtime : Option Int)
      (error : Option String)
  deriving Repr, DecidableEq

structure Reaction where
  conn : Connection
  reply : Option ServerMsg
  /-- What a commit moved into place. -/
  persisted : Option (List UInt8)
  deriving Repr, DecidableEq

namespace Connection

variable (c : Connection) (writeId : UInt64)

def new : Connection where
  writes := .empty
  nextWriteId := 1
  uploads := .empty
  pendingBinary := none

def silent : Reaction := ⟨c, none, none⟩

def answer (reply : ServerMsg) : Reaction := ⟨c, some reply, none⟩

/-! ## Writes -/

def dropWrite : Connection :=
  { c with writes := c.writes.erase writeId }

def fsWriteBegin (reqId size : Nat) (opened : Except (String × String) Unit) : Reaction :=
  if FS_WRITE_MAX < size then
    c.answer (.fsError reqId "TOO_LARGE"
      ("write size " ++ toString size ++ " exceeds " ++ toString FS_WRITE_MAX ++ " byte cap"))
  else
    match opened with
    | .error (code, message) => c.answer (.fsError reqId code message)
    | .ok () =>
      let writeId := c.nextWriteId
      let entry : WriteInFlight :=
        { declaredSize := size, temp := [], bytesWritten := 0, nextSeq := 0 }
      { c with nextWriteId := c.nextWriteId + 1, writes := c.writes.insert writeId entry }.answer
        (.fsWriteAck reqId writeId)

/-- The size check, the write to the temporary file and the acknowledgement, which the
text and the binary chunks have in common. -/
def takeWriteChunk (entry : WriteInFlight) (seq : UInt32) (bytes : List UInt8) (written : Bool) :
    Reaction :=
  let accumulated := entry.bytesWritten + bytes.length
  if entry.declaredSize < accumulated then (c.dropWrite writeId).silent
  else if !written then (c.dropWrite writeId).silent
  else
    let entry :=
      { entry with
        temp := entry.temp ++ bytes, bytesWritten := accumulated, nextSeq := entry.nextSeq + 1 }
    { c with writes := c.writes.insert writeId entry }.answer (.fsWriteChunkAck writeId seq)

def fsWriteChunk (decode : String → Option (List UInt8)) (c : Connection) (writeId : UInt64)
    (seq : UInt32) (data : String) (written : Bool) : Reaction :=
  match c.writes.get? writeId with
  | none => c.silent
  | some entry =>
    if seq ≠ entry.nextSeq then (c.dropWrite writeId).silent
    else
      match decode data with
      | none => (c.dropWrite writeId).silent
      | some bytes => c.takeWriteChunk writeId entry seq bytes written

def fsWriteChunkBinary (seq : UInt32) : Reaction :=
  match c.writes.get? writeId with
  | none => c.silent
  | some entry =>
    if seq ≠ entry.nextSeq then (c.dropWrite writeId).silent
    else { c with pendingBinary := some (.write writeId seq) }.silent

def handleWriteBinary (seq : UInt32) (data : List UInt8) (written : Bool) : Reaction :=
  match c.writes.get? writeId with
  | none => c.silent
  | some entry => c.takeWriteChunk writeId entry seq data written

def fsWriteCommit (outcome : Except FsError Int) : Reaction :=
  match c.writes.get? writeId with
  | none => c.answer (.fsWriteResult writeId false none false (some "write session not found"))
  | some entry =>
    let c := c.dropWrite writeId
    if entry.bytesWritten ≠ entry.declaredSize then
      c.answer (.fsWriteResult writeId false none false
        (some ("incomplete write: sent " ++ toString entry.bytesWritten ++ " of " ++
          toString entry.declaredSize ++ " bytes")))
    else
      match outcome with
      | .ok newMtime =>
        ⟨c, some (.fsWriteResult writeId true (some newMtime) false none), some entry.temp⟩
      | .error .conflict =>
        c.answer (.fsWriteResult writeId false none true
          (some "file modified since last read"))
      | .error error => c.answer (.fsWriteResult writeId false none false (some error.text))

/-! ## Uploads -/

def fsUploadBegin (reqId : Nat) (uploadId : String) (len : Nat)
    (target : Except (String × String) Unit) (opened : Except FsError Unit) : Reaction :=
  match target with
  | .error (code, message) => c.answer (.fsError reqId code message)
  | .ok () =>
    if MAX_UPLOAD_BYTES < len then
      c.answer (.fsError reqId "UPLOAD_BEGIN_FAILED" (FsError.tooLarge len).text)
    else
      match opened with
      | .error error => c.answer (.fsError reqId "UPLOAD_BEGIN_FAILED" error.text)
      | .ok () =>
        let upload : UploadState :=
          { temp := [], bytesWritten := 0, expectedLen := len, nextSeq := 0 }
        { c with uploads := c.uploads.insert uploadId upload }.answer
          (.fsUploadBeginOk reqId uploadId)

def fsUploadChunk (uploadId : String) (seq : UInt64) : Reaction :=
  match c.uploads.get? uploadId with
  | none => c.silent
  | some upload =>
    if upload.nextSeq ≠ seq then { c with uploads := c.uploads.erase uploadId }.silent
    else { c with pendingBinary := some (.upload uploadId seq) }.silent

end Connection

def UploadState.appendChunk (upload : UploadState) (data : List UInt8) (written : Bool) :
    Except FsError UploadState :=
  let newTotal := upload.bytesWritten + data.length
  if max upload.expectedLen MAX_UPLOAD_BYTES < newTotal then .error (.tooLarge newTotal)
  else if !written then .error (.other "io")
  else
    .ok { upload with
      temp := upload.temp ++ data, bytesWritten := newTotal, nextSeq := upload.nextSeq + 1 }

/-- The check of `commit_at_target`; the rename is the environment's. -/
def UploadState.commitAtTarget (upload : UploadState) (outcome : Except FsError Int) :
    Except FsError Int :=
  if upload.bytesWritten ≠ upload.expectedLen then
    .error (.mutationRefused ("upload commit: bytes_written " ++ toString upload.bytesWritten ++
      " ≠ expected_len " ++ toString upload.expectedLen))
  else outcome

namespace Connection

def handleUploadBinary (c : Connection) (uploadId : String) (seq : UInt64) (data : List UInt8)
    (written : Bool) : Reaction :=
  match c.uploads.get? uploadId with
  | none => c.silent
  | some upload =>
    match upload.appendChunk data written with
    | .ok upload =>
      { c with uploads := c.uploads.insert uploadId upload }.answer
        (.fsUploadChunkAck uploadId seq)
    | .error _ => { c with uploads := c.uploads.erase uploadId }.silent

def fsUploadCommit (c : Connection) (reqId : Nat) (uploadId : String)
    (ready : Except FsError Unit) (outcome : Except FsError Int) : Reaction :=
  match c.uploads.get? uploadId with
  | none =>
    c.answer (.fsUploadResult reqId uploadId false none (some "upload session not found"))
  | some upload =>
    let c := { c with uploads := c.uploads.erase uploadId }
    match ready with
    | .error error => c.answer (.fsUploadResult reqId uploadId false none (some error.text))
    | .ok () =>
      match upload.commitAtTarget outcome with
      | .ok newMtime =>
        ⟨c, some (.fsUploadResult reqId uploadId true (some newMtime) none),
          some upload.temp⟩
      | .error error =>
        c.answer (.fsUploadResult reqId uploadId false none (some error.text))

/-! ## The receive loop -/

/-- A binary frame takes the slot, whatever it announces. -/
def handleBinary (c : Connection) (data : List UInt8) (written : Bool) : Reaction :=
  let freed := { c with pendingBinary := none }
  match c.pendingBinary with
  | some (.upload uploadId seq) => freed.handleUploadBinary uploadId seq data written
  | some (.write writeId seq) => freed.handleWriteBinary writeId seq data written
  | some .encPut => freed.silent
  | some .encPutSave => freed.silent
  | none => freed.silent

def react (decode : String → Option (List UInt8)) (c : Connection) : ClientMsg → Reaction
  | .fsWriteBegin reqId size opened => c.fsWriteBegin reqId size opened
  | .fsWriteChunk writeId seq data written => fsWriteChunk decode c writeId seq data written
  | .fsWriteChunkBinary writeId seq => c.fsWriteChunkBinary writeId seq
  | .fsWriteCommit writeId outcome => c.fsWriteCommit writeId outcome
  | .fsUploadBegin reqId uploadId len target opened =>
    c.fsUploadBegin reqId uploadId len target opened
  | .fsUploadChunk uploadId seq => c.fsUploadChunk uploadId seq
  | .fsUploadCommit reqId uploadId ready outcome =>
    c.fsUploadCommit reqId uploadId ready outcome
  | .fsPutChunk => { c with pendingBinary := some .encPut }.silent
  | .fsPutSave => { c with pendingBinary := some .encPutSave }.silent
  | .binary data written => c.handleBinary data written

end Connection

end DamHopper.Api
