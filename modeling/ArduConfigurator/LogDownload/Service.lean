import ArduConfigurator.Lib.Entries
import ArduConfigurator.Mavftp.Service
import ArduConfigurator.Mavlink.Messages
import Mathlib.Data.List.Sort

/-! # The log download service

`LogDownloadService` of `runtime-log-download-service.ts`: one operation at a time, which lists the
logs of the vehicle or downloads one. An event is one turn of the JavaScript event loop. `heard`,
`sent` and `outcomes` only record what happened: the LOG_DATA packets a download took in, the requests
on the wire, and how the promises settled. -/
namespace ArduConfigurator.LogDownload
open Mavftp (VehicleIdentity)
open Mavlink (LogEntryMessage LogDataMessage)
set_option autoImplicit false

def DEFAULT_LOG_TIMEOUT_MS : ℕ := 20000
def LOG_DATA_CHUNK : ℕ := 90
def MAX_STALL_RETRIES : ℕ := 3
def MAX_LOG_DOWNLOAD_BYTES : ℕ := 512 * 1024 * 1024

/-! ## State -/

/-- One onboard dataflash log as reported by `LOG_ENTRY`. -/
structure OnboardLogInfo where
  id : ℕ
  sizeBytes : ℕ
  timeUtc : ℕ

structure ListOperation where
  entries : JsMap ℕ OnboardLogInfo
  numLogs : Option ℕ

structure DataOperation where
  id : ℕ
  total : ℕ
  buffer : Bytes
  /-- The contiguous frontier. -/
  received : ℕ
  retries : ℕ
  heard : List LogDataMessage

inductive ActiveOperation
  | list (op : ListOperation)
  | data (op : DataOperation)

inductive LogRequest
  | list (target : VehicleIdentity) (start stop : ℕ)
  | data (target : VehicleIdentity) (id ofs count : ℕ)
  | finish (target : VehicleIdentity)

/-- How a promise settled; a download resolves to the buffer of its operation. -/
inductive LogOutcome
  | listed (logs : List OnboardLogInfo)
  | downloaded (op : DataOperation)
  | rejected (error : String)

/-- `sends` counts the requests whose link write has not settled, `rangeErrors` the writes outside the
buffer. -/
structure LogDownloadService where
  vehicle : Option VehicleIdentity
  requestTimeoutMs : ℕ
  active : Option ActiveOperation
  sends : ℕ
  rangeErrors : ℕ
  sent : List LogRequest
  outcomes : List LogOutcome

namespace DataOperation

def start (id total : ℕ) : DataOperation where
  id := id
  total := total
  buffer := List.replicate total 0
  received := 0
  retries := 0
  heard := []

def writable (op : DataOperation) (message : LogDataMessage) : ℕ :=
  if message.ofs.toNat < op.total then
    min (min message.count.toNat LOG_DATA_CHUNK) (op.total - message.ofs.toNat)
  else 0

def chunk (op : DataOperation) (message : LogDataMessage) : Bytes :=
  message.data.take (op.writable message)

def contiguous (op : DataOperation) (message : LogDataMessage) : Bool :=
  message.ofs.toNat ≤ op.received && message.ofs.toNat < op.total

/-- `op.buffer.set`, and the frontier. -/
def place (op : DataOperation) (message : LogDataMessage) : DataOperation :=
  { op with
    buffer := splice op.buffer message.ofs.toNat (op.chunk message)
    received :=
      if op.contiguous message then max op.received (message.ofs.toNat + op.writable message)
      else op.received
    heard := op.heard ++ [message] }

/-- Whether the packet completes the download, which stands as `placed` with it. -/
def completes (op placed : DataOperation) (message : LogDataMessage) : Bool :=
  placed.total ≤ placed.received || (message.count.toNat < LOG_DATA_CHUNK && op.contiguous message)

end DataOperation

namespace LogDownloadService

def initial (vehicle : Option VehicleIdentity) (requestTimeoutMs : ℕ) : LogDownloadService where
  vehicle := vehicle
  requestTimeoutMs := requestTimeoutMs
  active := none
  sends := 0
  rangeErrors := 0
  sent := []
  outcomes := []

/-! ## Settling an operation -/

def settle (s : LogDownloadService) (outcome : LogOutcome) : LogDownloadService :=
  { s with outcomes := s.outcomes ++ [outcome] }

def clearActive (s : LogDownloadService) : LogDownloadService := { s with active := none }

def sendRequestEnd (s : LogDownloadService) : LogDownloadService :=
  match s.vehicle with
  | none => s
  | some target => { s with sent := s.sent ++ [.finish target] }

def failActive (s : LogDownloadService) (error : String) : LogDownloadService :=
  match s.active with
  | none => s
  | some _ => s.clearActive.sendRequestEnd.settle (.rejected error)

def finishList (s : LogDownloadService) (op : ListOperation) : LogDownloadService :=
  s.clearActive.sendRequestEnd.settle
    (.listed (op.entries.values.insertionSort fun left right => left.id ≤ right.id))

def finishData (s : LogDownloadService) (op : DataOperation) : LogDownloadService :=
  s.clearActive.sendRequestEnd.settle (.downloaded op)

def NO_VEHICLE : String := "Log retrieval requires an identified vehicle."

def requestData (s : LogDownloadService) (op : DataOperation) (offset : ℕ) : LogDownloadService :=
  match s.vehicle with
  | none => s.failActive NO_VEHICLE
  | some target =>
    { s with
      sent := s.sent ++ [.data target op.id offset 0xffffffff]
      sends := s.sends + 1 }

/-! ## Operations -/

/-- `requireIdle`: the vehicle, or why no operation can start. -/
def requireIdle (s : LogDownloadService) : Except String VehicleIdentity :=
  match s.active, s.vehicle with
  | some _, _ => .error "A log operation is already in progress."
  | none, none => .error NO_VEHICLE
  | none, some vehicle => .ok vehicle

def listLogs (s : LogDownloadService) : LogDownloadService :=
  match s.requireIdle with
  | .error error => s.settle (.rejected error)
  | .ok target =>
    { s with
      active := some (.list ⟨JsMap.empty, none⟩)
      sent := s.sent ++ [.list target 0 0xffff]
      sends := s.sends + 1 }

def downloadLog (s : LogDownloadService) (id : ℕ) (sizeBytes : ℤ) : LogDownloadService :=
  match s.requireIdle with
  | .error error => s.settle (.rejected error)
  | .ok _ =>
    if sizeBytes < 0 ∨ MAX_LOG_DOWNLOAD_BYTES < sizeBytes then
      s.settle (.rejected ("Log size " ++ toString sizeBytes ++ " bytes is out of range (max "
        ++ toString MAX_LOG_DOWNLOAD_BYTES ++ "); refusing to allocate."))
    else
      let op := DataOperation.start id sizeBytes.toNat
      let s := { s with active := some (.data op) }
      if sizeBytes = 0 then s.finishData op else s.requestData op 0

/-! ## Messages and timers -/

def handleLogEntry (s : LogDownloadService) (message : LogEntryMessage) : LogDownloadService :=
  match s.active with
  | some (.list op) =>
    if message.numLogs.toNat = 0 then s.finishList op
    else
      let op : ListOperation :=
        { entries := op.entries.set message.id.toNat
            ⟨message.id.toNat, message.size.toNat, message.timeUtc.toNat⟩
          numLogs := some message.numLogs.toNat }
      let s := { s with active := some (.list op) }
      if message.numLogs.toNat ≤ op.entries.size then s.finishList op else s
  | _ => s

def handleLogData (s : LogDownloadService) (message : LogDataMessage) : LogDownloadService :=
  match s.active with
  | some (.data op) =>
    if message.id.toNat ≠ op.id then s
    else if op.buffer.length < message.ofs.toNat + (op.chunk message).length ∧
        message.ofs.toNat < op.total then
      { s with rangeErrors := s.rangeErrors + 1 }
    else
      let placed := op.place message
      let s := { s with active := some (.data placed) }
      if op.completes placed message then s.finishData placed else s
  | _ => s

def timeoutError (s : LogDownloadService) (op : ActiveOperation) : String :=
  let timedOut := fun kind => "Timed out waiting for log " ++ kind ++ " response after "
    ++ toString s.requestTimeoutMs ++ "ms."
  match op with
  | .list _ => timedOut "list"
  | .data op =>
    if op.received = 0 then
      "No log data arrived after " ++ toString s.requestTimeoutMs ++ "ms and "
        ++ toString MAX_STALL_RETRIES ++ " retries. The autopilot may consider another log transfer "
        ++ "active — disconnect other ground stations, or reboot the flight controller, and try "
        ++ "again."
    else timedOut "data"

def onTimeout (s : LogDownloadService) : LogDownloadService :=
  match s.active with
  | none => s
  | some (.list op) => s.failActive (s.timeoutError (.list op))
  | some (.data op) =>
    if op.retries < MAX_STALL_RETRIES ∧ op.received < op.total then
      let op := { op with retries := op.retries + 1 }
      let s := { s with active := some (.data op) }
      let s := if op.received = 0 then s.sendRequestEnd else s
      s.requestData op op.received
    else s.failActive (s.timeoutError (.data op))

/-! ## Events -/

inductive Event
  | setVehicle (vehicle : Option VehicleIdentity)
  | listLogs
  | downloadLog (id : ℕ) (sizeBytes : ℤ)
  | logEntry (message : LogEntryMessage)
  | logData (message : LogDataMessage)
  | timeout
  | sendSettled (failure : Option String)
  | cancelAll (error : String)

/-- One turn of the event loop; a timer that is not armed and a link write that is not under way have
none. -/
def step (s : LogDownloadService) : Event → Option LogDownloadService
  | .setVehicle vehicle => some { s with vehicle := vehicle }
  | .listLogs => some s.listLogs
  | .downloadLog id sizeBytes => some (s.downloadLog id sizeBytes)
  | .logEntry message => some (s.handleLogEntry message)
  | .logData message => some (s.handleLogData message)
  | .timeout => if s.active.isSome then some s.onTimeout else none
  | .sendSettled failure =>
    if s.sends = 0 then none
    else
      let s := { s with sends := s.sends - 1 }
      match failure with
      | none => some s
      | some error => some (s.failActive error)
  | .cancelAll error => some (s.failActive error)

end LogDownloadService
end ArduConfigurator.LogDownload
