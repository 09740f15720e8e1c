import ArduConfigurator.Mavftp.Payload
import ArduConfigurator.Lib.Runs

/-! # The MAVFTP service

`MavftpService` of `runtime-mavftp-service.ts` below the session queue: the waiters of ordinary
requests, the one burst download that may be active, and the sequence counter they share. An event
is one turn of the JavaScript event loop. `sent` and the two logs only record what the service did:
the requests it put on the wire, how its waiters settled, and how its bursts settled. -/
namespace ArduConfigurator.Mavftp
set_option autoImplicit false

def DEFAULT_MAVFTP_BURST_TIMEOUT_MS : ℕ := 6000
def MAVFTP_BURST_READ_SIZE : ℕ := 239
def MAX_MAVFTP_BURST_RETRIES : ℕ := 6
def MAX_MAVFTP_FILE_BYTES : ℕ := 16 * 1024 * 1024

/-- The part of `VehicleIdentity` a request is addressed with. -/
structure VehicleIdentity where
  systemId : ℕ
  componentId : ℕ
  deriving DecidableEq

/-- What a caller of `send` chooses. -/
structure Request where
  session : ℕ
  opcode : ℕ
  size : ℕ
  offset : ℕ
  data : Bytes
  deriving DecidableEq

structure SentRequest where
  target : VehicleIdentity
  payload : MavftpPayload
  burst : Option ℕ

/-- A pending ordinary request: its place in `sent`, the sequence number its reply is expected to
carry, and when its timer is due. -/
structure MavftpWaiter where
  request : ℕ
  seqNumber : ℕ
  timeoutMs : ℕ
  timerDueMs : ℕ

/-- `id` stands for the identity of the operation object, `abortable` for the abort listener. -/
structure BurstOperation where
  id : ℕ
  session : ℕ
  declaredSize : ℕ
  buffer : Bytes
  received : ℕ
  highWater : ℕ
  retries : ℕ
  timeoutMs : ℕ
  timerDueMs : ℕ
  abortable : Bool
  deriving DecidableEq

/-- `PartialTransfer`, what a rejection carries of a burst that did not finish. -/
structure PartialTransfer where
  bytes : Bytes
  declaredSize : ℕ
  deriving DecidableEq

/-- How the waiter of a request settled; `answers` is the place in `sent` of the request the server
meant the packet for. -/
inductive Settlement
  | replied (request : ℕ) (payload : MavftpPayload) (answers : ℕ)
  | rejected (request : ℕ) (error : MavftpError)

inductive BurstResult
  | resolved (op : BurstOperation) (bytes : Bytes)
  | rejected (op : BurstOperation) (error : MavftpError) (salvaged : Option PartialTransfer)
  deriving DecidableEq

def BurstResult.op : BurstResult → BurstOperation
  | .resolved op _ => op
  | .rejected op _ _ => op

structure MavftpService where
  vehicle : Option VehicleIdentity
  requestTimeoutMs : ℕ
  waiters : List MavftpWaiter
  activeBurst : Option BurstOperation
  lastTransferActivityAtMs : ℕ
  sequence : ℕ
  staleSessionsCleared : Bool
  nowMs : ℕ
  bursts : ℕ
  sent : List SentRequest
  settled : List Settlement
  finished : List BurstResult

/-! ## The burst operation -/

namespace BurstOperation

def writable (op : BurstOperation) (payload : MavftpPayload) : ℕ :=
  if payload.offset < op.declaredSize ∧ 0 < payload.data.length then
    min payload.data.length (op.declaredSize - payload.offset)
  else 0

/-- `op.buffer.set` and the high-water mark. -/
def place (op : BurstOperation) (payload : MavftpPayload) : BurstOperation :=
  if payload.offset < op.declaredSize ∧ 0 < payload.data.length then
    { op with
      buffer := splice op.buffer payload.offset (payload.data.take (op.writable payload))
      highWater := max op.highWater (payload.offset + op.writable payload) }
  else op

def advance (op : BurstOperation) (payload : MavftpPayload) : BurstOperation :=
  if payload.offset ≤ op.received ∧ payload.offset < op.declaredSize then
    let received := max op.received (payload.offset + op.writable payload)
    { op with received, retries := if received > op.received then 0 else op.retries }
  else op

def accept (op : BurstOperation) (payload : MavftpPayload) : BurstOperation :=
  (op.place payload).advance payload

/-- `bumpBurstTimer`. -/
def bump (op : BurstOperation) (nowMs : ℕ) : BurstOperation :=
  { op with timerDueMs := nowMs + op.timeoutMs }

/-- The bytes `finishBurst` resolves with. -/
def result (op : BurstOperation) : Bytes :=
  if op.received ≥ op.declaredSize then op.buffer else op.buffer.take op.received

/-- What `failBurst` attaches to the error. -/
def salvage (op : BurstOperation) : Option PartialTransfer :=
  if op.received > 0 then some ⟨op.buffer.take op.received, op.declaredSize⟩ else none

end BurstOperation

namespace MavftpService

/-! ## Sequence numbers -/

/-- `nextSequence`, the counter after the current value has been taken. -/
def nextSequence (s : MavftpService) : ℕ := (s.sequence + 1) % 65536

def adoptServerSequence (s : MavftpService) (serverSeq : ℕ) : MavftpService :=
  let normalized := serverSeq % 65536
  if (normalized + 65536 - s.sequence) % 65536 < 0x8000 then { s with sequence := normalized }
  else s

theorem adopt_eq (s : MavftpService) (n : ℕ) :
    ∃ x, s.adoptServerSequence n = { s with sequence := x } := by
  by_cases hahead : (n % 65536 + 65536 - s.sequence) % 65536 < 0x8000
  · exact ⟨n % 65536, if_pos hahead⟩
  · exact ⟨s.sequence, if_neg hahead⟩

/-! ## Settling a burst -/

def finishBurst (s : MavftpService) (op : BurstOperation) : MavftpService :=
  { s with activeBurst := none, finished := s.finished ++ [.resolved op op.result] }

def failBurst (s : MavftpService) (error : MavftpError) : MavftpService :=
  match s.activeBurst with
  | none => s
  | some op =>
      { s with activeBurst := none, finished := s.finished ++ [.rejected op error op.salvage] }

/-- Unlike `send`, it leaves `lastTransferActivityAtMs` alone. -/
def sendBurstReadRequest (s : MavftpService) (op : BurstOperation) (offset : ℕ) : MavftpService :=
  match s.vehicle with
  | none => s.failBurst .noVehicle
  | some vehicle =>
      { s with
        sequence := s.nextSequence
        sent := s.sent ++ [{
          target := vehicle
          payload := {
            seqNumber := s.sequence
            session := op.session
            opcode := MAV_FTP_OPCODE.BURST_READ_FILE
            size := MAVFTP_BURST_READ_SIZE
            reqOpcode := 0
            burstComplete := 0
            offset
            data := [] }
          burst := some op.id }] }

/-! ## Packets of the active burst -/

def handleBurstNak (s : MavftpService) (op : BurstOperation) (payload : MavftpPayload) :
    MavftpService :=
  if payload.errorCode = MAV_FTP_ERR.EOF then
    if op.received ≥ op.highWater then s.finishBurst op
    else if op.retries < MAX_MAVFTP_BURST_RETRIES then
      let op := { op with retries := op.retries + 1 }.bump s.nowMs
      { s with activeBurst := some op }.sendBurstReadRequest op op.received
    else
      s.failBurst (.burstGap op.received op.declaredSize MAX_MAVFTP_BURST_RETRIES)
  else s.failBurst (.request payload.errorCode payload.errno)

def handleBurstData (s : MavftpService) (op : BurstOperation) (payload : MavftpPayload) :
    MavftpService :=
  let placed := op.place payload
  -- the source reads `highWaterBefore` here, after the write has moved it
  let highWaterBefore := placed.highWater
  let receivedBefore := placed.received
  let advanced := placed.advance payload
  let op :=
    if advanced.highWater > highWaterBefore ∨ advanced.received > receivedBefore then
      advanced.bump s.nowMs
    else advanced
  let s := { s with activeBurst := some op }
  if op.received ≥ op.declaredSize then s.finishBurst op
  else if payload.burstComplete ≠ 0 then s.sendBurstReadRequest op op.received
  else s

def handleBurstPacket (s : MavftpService) (payload : MavftpPayload) : MavftpService :=
  match s.activeBurst with
  | none => s
  | some op =>
      if payload.session ≠ op.session then s
      else if payload.opcode = MAV_FTP_OPCODE.NAK then s.handleBurstNak op payload
      else s.handleBurstData op payload

def onBurstTimeout (s : MavftpService) : MavftpService :=
  match s.activeBurst with
  | none => s
  | some op =>
      if op.retries < MAX_MAVFTP_BURST_RETRIES then
        let op := { op with retries := op.retries + 1 }.bump s.nowMs
        { s with activeBurst := some op }.sendBurstReadRequest op op.received
      else s.failBurst (.burstTimedOut op.timeoutMs MAX_MAVFTP_BURST_RETRIES)

def runBurst (s : MavftpService) (session declaredSize : ℕ) (timeoutMs : Option ℕ)
    (abortable : Bool) : MavftpService :=
  let effectiveTimeoutMs := timeoutMs.getD DEFAULT_MAVFTP_BURST_TIMEOUT_MS
  let op : BurstOperation := {
    id := s.bursts
    session
    declaredSize
    buffer := List.replicate declaredSize 0
    received := 0
    highWater := 0
    retries := 0
    timeoutMs := effectiveTimeoutMs
    timerDueMs := s.nowMs + effectiveTimeoutMs
    abortable }
  { s with activeBurst := some op, bursts := s.bursts + 1 }.sendBurstReadRequest op 0

/-! ## Ordinary requests -/

/-- `send` up to the wait for the reply; without a vehicle it throws and nothing happens. -/
def send (s : MavftpService) (request : Request) (timeoutMs : Option ℕ) : MavftpService :=
  match s.vehicle with
  | none => s
  | some vehicle =>
      let effectiveTimeoutMs := timeoutMs.getD s.requestTimeoutMs
      { s with
        lastTransferActivityAtMs := s.nowMs
        sequence := s.nextSequence
        waiters := s.waiters ++ [{
          request := s.sent.length
          seqNumber := (s.sequence + 1) % 65536
          timeoutMs := effectiveTimeoutMs
          timerDueMs := s.nowMs + effectiveTimeoutMs }]
        sent := s.sent ++ [{
          target := vehicle
          payload := {
            seqNumber := s.sequence
            session := request.session
            opcode := request.opcode
            size := request.size
            reqOpcode := 0
            burstComplete := 0
            offset := request.offset
            data := request.data }
          burst := none }] }

def expecting (s : MavftpService) (seqNumber : ℕ) : List MavftpWaiter :=
  s.waiters.filter fun waiter => waiter.seqNumber = seqNumber

def resolveWaiters (s : MavftpService) (payload : MavftpPayload) (answers : ℕ) : MavftpService :=
  { s with
    waiters := s.waiters.filter fun waiter => waiter.seqNumber ≠ payload.seqNumber
    settled := s.settled ++ (s.expecting payload.seqNumber).map fun waiter =>
      .replied waiter.request payload answers }

def rejectWaiter (s : MavftpService) (waiter : MavftpWaiter) (error : MavftpError) :
    MavftpService :=
  { s with
    waiters := s.waiters.filter fun w => w.request ≠ waiter.request
    settled := s.settled ++ [.rejected waiter.request error] }

def cancelAll (s : MavftpService) (error : MavftpError) : MavftpService :=
  let s := s.failBurst error
  { s with
    waiters := []
    settled := s.settled ++ s.waiters.map fun waiter => .rejected waiter.request error
    staleSessionsCleared := false }

/-- `session: 0` in every request that opens or resets a session. -/
def openRequest (pathBytes : Bytes) : Request :=
  ⟨0, MAV_FTP_OPCODE.OPEN_FILE_RO, pathBytes.length, 0, pathBytes⟩

def resetRequest : Request := ⟨0, MAV_FTP_OPCODE.RESET_SESSIONS, 0, 0, []⟩

def terminateRequest (session : ℕ) : Request := ⟨session, MAV_FTP_OPCODE.TERMINATE_SESSION, 0, 0, []⟩

def clearStaleSessionsOnce (s : MavftpService) (timeoutMs : Option ℕ) : MavftpService :=
  if s.staleSessionsCleared then s
  else { s with staleSessionsCleared := true }.send resetRequest timeoutMs

/-! ## Replies -/

def routesToBurst (s : MavftpService) (payload : MavftpPayload) : Bool :=
  s.activeBurst.isSome && payload.reqOpcode == MAV_FTP_OPCODE.BURST_READ_FILE

def handlePayload (s : MavftpService) (payload : MavftpPayload) (answers : ℕ) : MavftpService :=
  let s := s.adoptServerSequence payload.seqNumber
  if s.routesToBurst payload then s.handleBurstPacket payload
  else s.resolveWaiters payload answers

/-- A message whose payload is too short to decode throws before anything is changed. -/
def handleFileTransferProtocol (s : MavftpService) (message : Bytes) (answers : ℕ) :
    MavftpService :=
  match decodeMavftpPayload message with
  | none => s
  | some payload => s.handlePayload payload answers

def replyTo (s : MavftpService) (request : ℕ) : Option MavftpPayload :=
  s.settled.findSome? fun
    | .replied r payload _ => if r = request then some payload else none
    | .rejected _ _ => none

/-- `downloadRemoteFileBurstUnlocked` after the reply to its OPEN: a declared size of zero is read
sequentially and a size above the cap refused, both after the session has been terminated. -/
def startDownload (s : MavftpService) (reply : MavftpPayload) (maxBytes timeoutMs : Option ℕ)
    (abortable : Bool) : MavftpService :=
  if reply.declaredSize = 0 then s.send (terminateRequest reply.session) none
  else if reply.declaredSize > maxBytes.getD MAX_MAVFTP_FILE_BYTES then
    s.send (terminateRequest reply.session) none
  else s.runBurst reply.session reply.declaredSize timeoutMs abortable

/-! ## Events -/

inductive ServiceEvent
  /-- a `FILE_TRANSFER_PROTOCOL` message the server sent in answer to request `answers` -/
  | deliver (message : Bytes) (answers : ℕ)
  /-- an operation calls `send` -/
  | request (request : Request) (timeoutMs : Option ℕ)
  | clearStaleSessionsOnce (timeoutMs : Option ℕ)
  /-- a burst download goes on with the reply to its OPEN, request `request` -/
  | opened (request : ℕ) (maxBytes timeoutMs : Option ℕ) (abortable : Bool)
  | burstTimeout
  | waiterTimeout (request : ℕ)
  /-- the abort signal of the active burst -/
  | abort
  /-- the transport rejects a burst request, or the ordinary request `request` -/
  | burstSendFailed (text : String)
  | sendFailed (request : ℕ) (text : String)
  | cancelAll (text : String)
  | setVehicle (vehicle : Option VehicleIdentity)
  | tick (ms : ℕ)
  deriving DecidableEq

def ServiceEvent.packet : ServiceEvent → Option (MavftpPayload × ℕ)
  | .deliver message answers => (decodeMavftpPayload message).map fun payload => (payload, answers)
  | _ => none

def step (s : MavftpService) : ServiceEvent → Option MavftpService
  | .deliver message answers => some (s.handleFileTransferProtocol message answers)
  | .request request timeoutMs =>
      if request.opcode = MAV_FTP_OPCODE.BURST_READ_FILE then none
      else some (s.send request timeoutMs)
  | .clearStaleSessionsOnce timeoutMs => some (s.clearStaleSessionsOnce timeoutMs)
  | .opened request maxBytes timeoutMs abortable => do
      let sent ← s.sent[request]?
      let reply ← s.replyTo request
      if sent.payload.opcode = MAV_FTP_OPCODE.OPEN_FILE_RO ∧ reply.opcode = MAV_FTP_OPCODE.ACK ∧
          s.activeBurst = none then
        some (s.startDownload reply maxBytes timeoutMs abortable)
      else none
  | .burstTimeout => do
      let op ← s.activeBurst
      if op.timerDueMs ≤ s.nowMs then some s.onBurstTimeout else none
  | .waiterTimeout request => do
      let waiter ← s.waiters.find? fun w => w.request = request
      if waiter.timerDueMs ≤ s.nowMs then
        some (s.rejectWaiter waiter (.responseTimedOut waiter.timeoutMs))
      else none
  | .abort => do
      let op ← s.activeBurst
      if op.abortable then some (s.failBurst .aborted) else none
  | .burstSendFailed text => some (s.failBurst (.other text))
  | .sendFailed request text => do
      let waiter ← s.waiters.find? fun w => w.request = request
      some (s.rejectWaiter waiter (.other text))
  | .cancelAll text => some (s.cancelAll (.other text))
  | .setVehicle vehicle => some { s with vehicle }
  | .tick ms => some { s with nowMs := s.nowMs + ms }

def fresh (vehicle : Option VehicleIdentity) (requestTimeoutMs nowMs : ℕ) : MavftpService where
  vehicle
  requestTimeoutMs
  waiters := []
  activeBurst := none
  lastTransferActivityAtMs := 0
  sequence := 0
  staleSessionsCleared := false
  nowMs
  bursts := 0
  sent := []
  settled := []
  finished := []

end MavftpService
/-! ## The sequential read

The `for (;;)` loop of `readRemoteFileUnlocked`: one READ_FILE request at a time, until a stopping
rule or the end-of-file NAK. -/

def MAVFTP_TRANSFER_CHUNK_SIZE : ℕ := 200

structure SequentialRead where
  session : ℕ
  declaredSize : ℕ
  byteLimit : Option ℕ
  chunks : List Bytes
  offset : ℕ

inductive ReadTurn
  | stop
  | exceeded
  | read (request : Request)

namespace SequentialRead

def opened (reply : MavftpPayload) (byteLimit : Option ℕ) : SequentialRead :=
  ⟨reply.session, reply.declaredSize, byteLimit, [], 0⟩

def remaining (r : SequentialRead) : Option ℕ :=
  match r.byteLimit with
  | some limit => some (limit - r.offset)
  | none => if r.declaredSize > 0 then some (r.declaredSize - r.offset) else none

def chunkSize (r : SequentialRead) : ℕ :=
  match r.remaining with
  | some left => min MAVFTP_TRANSFER_CHUNK_SIZE left
  | none => MAVFTP_TRANSFER_CHUNK_SIZE

def turn (r : SequentialRead) : ReadTurn :=
  if r.byteLimit.any (r.offset ≥ ·) then .stop
  else if r.byteLimit.isNone ∧ r.declaredSize > 0 ∧ r.offset ≥ r.declaredSize then .stop
  else if r.offset ≥ MAX_MAVFTP_FILE_BYTES then .exceeded
  else .read ⟨r.session, MAV_FTP_OPCODE.READ_FILE, r.chunkSize, r.offset, []⟩

/-- `chunks` put together. -/
def bytes (r : SequentialRead) : Bytes := r.chunks.flatten

/-- The loop on the outcomes of its requests in turn; nothing while it waits for one more. -/
def loop : SequentialRead → List (Except MavftpError MavftpPayload) →
    Option (Except MavftpError Bytes)
  | r, [] =>
      match r.turn with
      | .stop => some (.ok r.bytes)
      | .exceeded => some (.error (.noEof MAX_MAVFTP_FILE_BYTES))
      | .read _ => none
  | r, reply :: replies =>
      match r.turn with
      | .stop => some (.ok r.bytes)
      | .exceeded => some (.error (.noEof MAX_MAVFTP_FILE_BYTES))
      | .read _ =>
          match reply with
          | .error (.request errorCode errno) =>
              if errorCode = MAV_FTP_ERR.EOF then some (.ok r.bytes)
              else some (.error (.request errorCode errno))
          | .error error => some (.error error)
          | .ok response =>
              if response.data = [] then some (.ok r.bytes)
              else
                loop { r with
                  chunks := r.chunks ++ [response.data]
                  offset := r.offset + response.data.length } replies

variable {replies : List (Except MavftpError MavftpPayload)} {bytes : Bytes}

theorem loop_of_no_data {r : SequentialRead} (hnone : ∀ p, .ok p ∈ replies → p.data = [])
    (h : r.loop replies = some (.ok bytes)) : bytes = r.bytes := by
  cases replies with
  | nil =>
    unfold loop at h
    split at h <;> cases h
    rfl
  | cons reply replies =>
    unfold loop at h
    split at h
    · cases h; rfl
    · cases h
    · split at h
      · split at h <;> cases h
        rfl
      · cases h
      · next response =>
        rw [if_pos (hnone response List.mem_cons_self)] at h
        cases h; rfl

theorem loop_of_empty {reply : MavftpPayload} {byteLimit : Option ℕ}
    (hgenuine : ∀ p, .ok p ∈ replies → Genuine [] p.offset p.data)
    (h : (opened reply byteLimit).loop replies = some (.ok bytes)) : bytes = [] := by
  refine loop_of_no_data (fun p hp => ?_) h
  by_contra hne
  have := hgenuine p hp 0 (List.length_pos_iff.mpr hne)
  rw [List.getElem?_nil, List.getElem?_eq_none_iff] at this
  exact hne (List.length_eq_zero_iff.mp (Nat.le_zero.mp this))

end SequentialRead

end ArduConfigurator.Mavftp
