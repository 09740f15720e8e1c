import ArduConfigurator.Lib.Effects
import ArduConfigurator.Mavftp.Paths
import ArduConfigurator.Mavftp.Service

/-! # Operations on remote paths

The `…Unlocked` operations of `MavftpService`, each a conversation with the vehicle: it sends a
request, waits for what comes of it and goes on from there. What the vehicle, the link and the
caller do meanwhile is a function of the requests sent so far. Loops are followed for a number of
turns. -/
namespace ArduConfigurator.Mavftp
open Effects
set_option autoImplicit false

inductive OperationError
  | failed (error : MavftpError)
  /-- `MavftpUploadRejectedError` -/
  | uploadRejected (path : Text) (cause : OperationError)

/-- The error code of a `MavftpRequestError`. -/
def OperationError.requestCode : OperationError → Option ℕ
  | .failed (.request errorCode _) => some errorCode
  | _ => none

/-- `answer` is the outcome of the last request of the list, `burst` that of the burst which the
last one began. -/
structure Conversation where
  ensureSupport : List Request → Except MavftpError Unit
  hasVehicle : List Request → Bool
  answer : List Request → Except MavftpError MavftpPayload
  burst : List Request → Except MavftpError Bytes
  burstActive : List Request → Bool
  aborted : List Request → Bool
  linkDropped : List Request → Bool

/-- The requests of the operation and the one field of the service that it keeps. -/
structure RemoteSession where
  sent : List Request
  staleSessionsCleared : Bool

abbrev Operation (α : Type) : Type := Prog RemoteSession OperationError α

def MAVFTP_BURST_IN_PROGRESS : String := "A MAVFTP burst download is already in progress."

def pathRequest (opcode offset : ℕ) (pathBytes : Bytes) : Request :=
  ⟨0, opcode, pathBytes.length, offset, pathBytes⟩

def uploadOffsets (length : ℕ) : List ℕ :=
  (List.range ((length + MAVFTP_TRANSFER_CHUNK_SIZE - 1) / MAVFTP_TRANSFER_CHUNK_SIZE)).map
    (· * MAVFTP_TRANSFER_CHUNK_SIZE)

/-- `sortMavftpDirectoryEntries` gives a number that is not positive. -/
def entryComesFirst (localeCompare : Text → Text → ℤ) (left right : MavftpDirectoryEntry) : Prop :=
  if left.kind ≠ right.kind then left.kind = .directory else localeCompare left.name right.name ≤ 0

instance (localeCompare : Text → Text → ℤ) : DecidableRel (entryComesFirst localeCompare) :=
  fun _ _ => inferInstanceAs (Decidable (ite _ _ _))

/-- `entries.sort(sortMavftpDirectoryEntries)`. -/
def sortMavftpDirectoryEntries (localeCompare : Text → Text → ℤ)
    (entries : List MavftpDirectoryEntry) : List MavftpDirectoryEntry :=
  entries.insertionSort (entryComesFirst localeCompare)

namespace Conversation

variable (c : Conversation)

/-! ## Requests -/

def ensuringSupport : Operation Unit := fun s =>
  match c.ensureSupport s.sent with
  | .ok _ => (.resolved (), s)
  | .error error => (.rejected (.failed error), s)

def afterSend (request : Request) (s : RemoteSession) : RemoteSession where
  sent := s.sent ++ [request]
  staleSessionsCleared := s.staleSessionsCleared && !c.linkDropped (s.sent ++ [request])

def send (request : Request) : Operation MavftpPayload := fun s =>
  if c.hasVehicle s.sent = false then (.rejected (.failed .noVehicle), s)
  else
    match c.answer (s.sent ++ [request]) with
    | .ok response => (.resolved response, c.afterSend request s)
    | .error error => (.rejected (.failed error), c.afterSend request s)

/-- `send(request).catch(() => {})`. -/
def sendQuietly (request : Request) : Operation Unit :=
  Prog.catchError (do let _ ← c.send request; return ()) fun _ => pure ()

def resetSessions : Request := ⟨0, MAV_FTP_OPCODE.RESET_SESSIONS, 0, 0, []⟩

def clearStaleSessionsOnce : Operation Unit := fun s =>
  if s.staleSessionsCleared then (.resolved (), s)
  else c.sendQuietly resetSessions { s with staleSessionsCleared := true }

def terminateSession (session : ℕ) : Request := ⟨session, MAV_FTP_OPCODE.TERMINATE_SESSION, 0, 0, []⟩

def openFileForRead (pathBytes : Bytes) : Operation MavftpPayload :=
  (c.send (pathRequest MAV_FTP_OPCODE.OPEN_FILE_RO 0 pathBytes)).catchError fun error =>
    if error.requestCode ≠ some MAV_FTP_ERR.FAIL then Prog.throw error
    else do
      c.sendQuietly resetSessions
      c.send (pathRequest MAV_FTP_OPCODE.OPEN_FILE_RO 0 pathBytes)

def sendUntilEof (request : Request) : Operation (Option MavftpPayload) :=
  Prog.catchError (do let response ← c.send request; return some response) fun error =>
    if error.requestCode = some MAV_FTP_ERR.EOF then pure none else Prog.throw error

theorem sendUntilEof_eq (request : Request) (s : RemoteSession) :
    c.sendUntilEof request s =
      if c.hasVehicle s.sent = false then (.rejected (.failed .noVehicle), s)
      else
        match c.answer (s.sent ++ [request]) with
        | .ok response => (.resolved (some response), c.afterSend request s)
        | .error error =>
          if (OperationError.failed error).requestCode = some MAV_FTP_ERR.EOF then
            (.resolved none, c.afterSend request s)
          else (.rejected (.failed error), c.afterSend request s) := by
  change Prog.catchError (Prog.bind (c.send request) fun response => pure (some response)) _ s = _
  unfold Prog.catchError Prog.bind send
  by_cases hvehicle : c.hasVehicle s.sent = false
  · rw [if_pos hvehicle, if_pos hvehicle]
    rfl
  · rw [if_neg hvehicle, if_neg hvehicle]
    cases c.answer (s.sent ++ [request]) with
    | ok response => rfl
    | error error =>
      dsimp only
      split <;> rfl

/-! ## The operations -/

def deleteRemotePathUnlocked (path : Text) (kind : MavftpDirectoryEntryKind) : Operation Unit := do
  c.ensuringSupport
  let pathBytes := encodeText (normalizeMavftpPath path)
  let opcode := if kind = .directory then MAV_FTP_OPCODE.REMOVE_DIRECTORY
    else MAV_FTP_OPCODE.REMOVE_FILE
  let _ ← c.send (pathRequest opcode 0 pathBytes)

@[grind =] def readLoop : ℕ → SequentialRead → Operation Bytes
  | 0, _ => Prog.running
  | turns + 1, r =>
    match r.turn with
    | .stop => pure r.bytes
    | .exceeded => Prog.throw (.failed (.noEof MAX_MAVFTP_FILE_BYTES))
    | .read request => do
      match ← c.sendUntilEof request with
      | none => pure r.bytes
      | some response =>
        if response.data = [] then pure r.bytes
        else readLoop turns { r with
          chunks := r.chunks ++ [response.data]
          offset := r.offset + response.data.length }

def readRemoteFileUnlocked (turns : ℕ) (path : Text) (byteLimit : Option ℕ) : Operation Bytes := do
  let pathBytes := encodeText (normalizeMavftpPath path)
  c.clearStaleSessionsOnce
  let openResponse ← c.openFileForRead pathBytes
  Prog.tryFinally (c.readLoop turns (SequentialRead.opened openResponse byteLimit)) fun _ =>
    c.sendQuietly (terminateSession openResponse.session)

def readRemoteTextFileUnlocked (turns : ℕ) (path : Text) : Operation Text := do
  let bytes ← c.readRemoteFileUnlocked turns path none
  return (decodeText bytes).rdropWhile (· = 0)

def readRemoteFilePrefixUnlocked (turns : ℕ) (path : Text) (byteLimit : Option ℤ) :
    Operation Bytes :=
  match byteLimit with
  | none => pure []
  | some limit =>
    if limit ≤ 0 then pure [] else c.readRemoteFileUnlocked turns path (some limit.toNat)

def downloadRemoteFileUnlocked (turns : ℕ) (path : Text) : Operation Bytes := do
  c.ensuringSupport
  c.readRemoteFileUnlocked turns (normalizeMavftpPath path) none

/-- The request that creates the file of an upload, a file in its place deleted first. -/
def createFile (normalizedPath : Text) (overwriteExisting : Bool) : Operation MavftpPayload :=
  let request := pathRequest MAV_FTP_OPCODE.CREATE_FILE 0 (encodeText normalizedPath)
  (c.send request).catchError fun error =>
    if overwriteExisting ∧ error.requestCode = some MAV_FTP_ERR.FILE_EXISTS then do
      c.deleteRemotePathUnlocked normalizedPath .file
      c.send request
    else Prog.throw error

def closeUpload (normalizedPath : Text) (session : ℕ) (writeFailed : Bool) : Operation Unit :=
  Prog.catchError (do let _ ← c.send (terminateSession session); return ()) fun closeError =>
    if writeFailed then pure () else Prog.throw (.uploadRejected normalizedPath closeError)

def uploadRemoteFileUnlocked (path : Text) (bytes : Bytes) (overwrite : Bool) :
    Operation Unit := do
  c.ensuringSupport
  let normalizedPath := normalizeMavftpPath path
  c.clearStaleSessionsOnce
  let createResponse ← c.createFile normalizedPath overwrite
  let session := createResponse.session
  let writeChunk (offset : ℕ) : Operation Unit := do
    let chunk := slice bytes offset MAVFTP_TRANSFER_CHUNK_SIZE
    let _ ← c.send ⟨session, MAV_FTP_OPCODE.WRITE_FILE, chunk.length, offset, chunk⟩
  Prog.tryFinally (Prog.forEach writeChunk (uploadOffsets bytes.length))
    (c.closeUpload normalizedPath session)

/-- `runBurst`, its first request and what came of it; the requests it repeats name no path. -/
def runBurst (session : ℕ) : Operation Bytes := fun s =>
  if c.hasVehicle s.sent = false then (.rejected (.failed .noVehicle), s)
  else
    let s := { s with
      sent := s.sent ++
        [⟨session, MAV_FTP_OPCODE.BURST_READ_FILE, MAVFTP_BURST_READ_SIZE, 0, []⟩] }
    match c.burst s.sent with
    | .ok bytes => (.resolved bytes, s)
    | .error error => (.rejected (.failed error), s)

def burstAllowed : Operation Unit := fun s =>
  if c.aborted s.sent then (.rejected (.failed .aborted), s)
  else if c.burstActive s.sent then (.rejected (.failed (.other MAVFTP_BURST_IN_PROGRESS)), s)
  else (.resolved (), s)

def downloadRemoteFileBurstUnlocked (turns : ℕ) (path : Text) (maxBytes : ℕ) :
    Operation Bytes := do
  c.ensuringSupport
  c.burstAllowed
  let normalizedPath := normalizeMavftpPath path
  c.clearStaleSessionsOnce
  let openResponse ← c.openFileForRead (encodeText normalizedPath)
  let session := openResponse.session
  let declaredSize := openResponse.declaredSize
  if declaredSize = 0 then do
    c.sendQuietly (terminateSession session)
    c.readRemoteFileUnlocked turns normalizedPath none
  else if declaredSize > maxBytes then do
    c.sendQuietly (terminateSession session)
    Prog.throw (.failed (.tooLarge declaredSize maxBytes))
  else
    Prog.tryFinally (c.runBurst session) fun _ => c.sendQuietly (terminateSession session)

/-- The loop of a listing: `entries` so far, which are also what `offset` counts. -/
def listLoop (normalizedPath : Text) : ℕ → List MavftpDirectoryEntry →
    Operation (List MavftpDirectoryEntry)
  | 0, _ => Prog.running
  | turns + 1, entries => do
    let request := pathRequest MAV_FTP_OPCODE.LIST_DIRECTORY entries.length
      (encodeText normalizedPath)
    match ← c.sendUntilEof request with
    | none => pure entries
    | some response =>
      let chunkEntries := parseMavftpDirectoryEntries normalizedPath response.data
      if chunkEntries = [] then pure entries
      else listLoop normalizedPath turns (entries ++ chunkEntries)

def listRemoteDirectoryUnlocked (localeCompare : Text → Text → ℤ) (turns : ℕ) (path : Text) :
    Operation (List MavftpDirectoryEntry) := do
  c.ensuringSupport
  let entries ← c.listLoop (normalizeMavftpPath path) turns []
  return sortMavftpDirectoryEntries localeCompare entries

end Conversation
end ArduConfigurator.Mavftp
