import ArduConfigurator.CanBus.Wire
import ArduConfigurator.Lib.Runs
import Mathlib.Data.Finset.Basic

/-! # The CAN bus service

`CanBusService` of `runtime-can-bus-service.ts`: it has the autopilot forward a bus, keeps an entry
for every node it hears, writes and saves their parameters, serves firmware images and hands out node
ids. An event is one turn of the JavaScript event loop; `awaiting` are the calls whose link write has
not settled. `images` and `sent` only record what the service did: the firmware images it was given
and what it put on the bus. -/
namespace ArduConfigurator.CanBus
set_option autoImplicit false

def GCS_DRONECAN_NODE_ID : ℕ := 127
def CAN_NODE_PARAM : String := "CAN_NODE"
def ALLOCATION_MAX_NODE_ID : ℕ := 125
def CAN_FRAME_FLAG_EFF : ℕ := 0x80000000
def GET_NODE_INFO_RETRY_MS : ℕ := 4000
def GET_SET_BATCH_INTERVAL_MS : ℕ := 250
def MAX_GET_SET_RETRIES : ℕ := 8
def CAN_FORWARD_REARM_INTERVAL_MS : ℕ := 2000
def WRITE_RETRY_INTERVAL_MS : ℕ := 600
def MAX_WRITE_RETRIES : ℕ := 5
def MAX_SAVE_RETRIES : ℕ := 3
def FIRMWARE_READ_CHUNK : ℕ := DRONECAN_FILE_READ_MAX_DATA
def FIRMWARE_BEGIN_RETRY_MS : ℕ := 1500
def FIRMWARE_MAX_BEGIN_ATTEMPTS : ℕ := 5
def FIRMWARE_BEGIN_TIMEOUT_MS : ℕ := 12000
def FIRMWARE_STALL_TIMEOUT_MS : ℕ := 15000

/-! ## State -/

inductive CanBusStatus
  | idle | requesting | active | stopping
  deriving DecidableEq

inductive DronecanParamFetchStatus
  | idle | fetching | complete
  deriving DecidableEq

structure ParamFetch where
  status : DronecanParamFetchStatus
  nextIndex : ℕ
  lastAttemptAtMs : Option ℕ
  error : Option String

structure DronecanParamEntry where
  index : ℕ
  name : String
  value : DronecanParamValue
  defaultValue : Option DronecanParamValue
  minValue : Option DronecanParamValue
  maxValue : Option DronecanParamValue
  lastFetchedAtMs : ℕ

structure MutableNode where
  nodeId : ℕ
  name : Option String
  /-- Hex string of the 16-byte hardware unique id. -/
  hwUniqueId : Option String
  parameters : List DronecanParamEntry
  paramFetch : ParamFetch
  paramFetchRetries : ℕ
  firstSeenAtMs : ℕ
  lastSeenAtMs : ℕ

structure PendingWrite where
  nodeId : ℕ
  paramName : String
  value : DronecanParamValue
  attempts : ℕ
  lastSentMs : ℕ

inductive DronecanFirmwareUpdateStatus
  | starting | in_progress | completed | error
  deriving DecidableEq

/-- In-flight (or finished) node firmware update; `id` stands for the identity of the session
object. -/
structure FirmwareUpdateSession where
  id : ℕ
  nodeId : ℕ
  fileName : String
  image : Bytes
  path : String
  status : DronecanFirmwareUpdateStatus
  /-- High-water mark of bytes served. -/
  bytesServed : ℕ
  error : Option String
  startedAtMs : ℕ
  updatedAtMs : ℕ
  beginAttempts : ℕ
  lastBeginAtMs : ℕ
  readingStarted : Bool

structure Allocation where
  nodeId : ℕ
  atMs : Option ℕ

structure AllocationQuery where
  bytes : Bytes
  atMs : ℕ

/-- What goes out on the bus. A read response carries the update it was sent for and the offset that
was asked for, which it is the answer to. -/
inductive Sent
  | canForward (bus : ℕ)
  | getNodeInfo (dest : ℕ)
  | getSet (dest index : ℕ) (value : DronecanParamValue) (name : String)
  | executeOpcode (dest opcode : ℕ)
  | restartNode (dest : ℕ)
  | beginFirmwareUpdate (dest : ℕ) (path : String)
  | fileReadResponse (update dest transferId offset : ℕ) (payload : Bytes)
  | allocation (transferId nodeId : ℕ) (uniqueId : Bytes)
  deriving DecidableEq

/-- A call that waits for the link: `stop`, with the bus to start next, `start`, the writes of a batch
that come next, or the restart of a node that gets a new id. -/
inductive Awaiting
  | stop (next : Option ℕ)
  | forward (bus : ℕ)
  | writes (nodeId : ℕ) (rest : List (String × DronecanParamValue))
  | restart (nodeId newNodeId : ℕ)
  deriving DecidableEq

structure CanBusService where
  status : CanBusStatus
  bus : Option ℕ
  error : Option String
  nodes : JsMap ℕ MutableNode
  reassembler : Pending
  lastForwardArmAtMs : Option ℕ
  pendingSaves : Finset ℕ
  saveAckTimers : Finset ℕ
  saveAttempts : JsMap ℕ ℕ
  pendingWrites : JsMap (ℕ × String) PendingWrite
  saveAfterWrites : Finset ℕ
  refetchAfterSave : Finset ℕ
  firmwareUpdate : Option FirmwareUpdateSession
  restartAfterSave : JsMap ℕ ℕ
  allocatorEnabled : Bool
  allocations : JsMap String Allocation
  allocationQuery : Option AllocationQuery
  otherAllocatorNodeId : Option ℕ
  allocatorTransferId : ℕ
  nowMs : ℕ
  awaiting : List Awaiting
  images : List Bytes
  sent : List Sent

/-- What a read request from the node does to the update, once it has been answered with the `count`
bytes at `offset`. -/
def FirmwareUpdateSession.afterRead (update : FirmwareUpdateSession) (offset count nowMs : ℕ) :
    FirmwareUpdateSession :=
  if update.status = .completed then update
  else
    let size := update.image.length
    let status := if update.readingStarted then update.status else .in_progress
    let nodeMadeProgress := decide (0 < update.bytesServed) || decide (size ≤ FIRMWARE_READ_CHUNK)
    let bytesServed :=
      if 0 < count ∨ nodeMadeProgress = true then max update.bytesServed (offset + count)
      else update.bytesServed
    let update :=
      { update with
        readingStarted := true
        status := status
        bytesServed := bytesServed
        updatedAtMs := nowMs }
    let reachedEndOfImage := decide (size ≤ offset + count)
    if count < FIRMWARE_READ_CHUNK ∧ reachedEndOfImage = true ∧ nodeMadeProgress = true then
      { update with status := .completed, bytesServed := size, error := none }
    else if count = 0 ∧ nodeMadeProgress = false then
      { update with
        status := .error
        error := some ("Node " ++ toString update.nodeId
          ++ " asked for data past the end of the image without reading any of it. "
          ++ "Nothing was flashed.") }
    else update

namespace CanBusService

def initial (nowMs : ℕ) : CanBusService where
  status := .idle
  bus := none
  error := none
  nodes := JsMap.empty
  reassembler := JsMap.empty
  lastForwardArmAtMs := none
  pendingSaves := ∅
  saveAckTimers := ∅
  saveAttempts := JsMap.empty
  pendingWrites := JsMap.empty
  saveAfterWrites := ∅
  refetchAfterSave := ∅
  firmwareUpdate := none
  restartAfterSave := JsMap.empty
  allocatorEnabled := false
  allocations := JsMap.empty
  allocationQuery := none
  otherAllocatorNodeId := none
  allocatorTransferId := 0
  nowMs := nowMs
  awaiting := []
  images := []
  sent := []

def emit (s : CanBusService) (c : Sent) : CanBusService := { s with sent := s.sent ++ [c] }

/-- `sendServiceCall`; without an active bus nothing is sent. -/
def sendServiceCall (s : CanBusService) (c : Sent) : CanBusService :=
  if s.status = .active then s.emit c else s

def requestGetNodeInfo (s : CanBusService) (dest : ℕ) : CanBusService :=
  s.sendServiceCall (.getNodeInfo dest)

def requestGetSet (s : CanBusService) (dest index : ℕ) : CanBusService :=
  s.sendServiceCall (.getSet dest index .empty "")

def sendWrite (s : CanBusService) (nodeId : ℕ) (paramName : String) (value : DronecanParamValue) :
    CanBusService :=
  s.sendServiceCall (.getSet nodeId 0 value paramName)

def sendWrites (s : CanBusService) (nodeId : ℕ) (writes : List (String × DronecanParamValue)) :
    CanBusService :=
  match writes with
  | [] => s
  | (name, value) :: rest =>
    { s with awaiting := s.awaiting ++ [Awaiting.writes nodeId rest] }.sendWrite nodeId name value

/-! ## Forwarding -/

def sendCanForward (s : CanBusService) (bus : ℕ) : CanBusService :=
  { s with lastForwardArmAtMs := some s.nowMs }.emit (.canForward bus)

/-- What `stop` and `reset` forget. -/
def clear (s : CanBusService) : CanBusService :=
  { s with
    status := .idle
    bus := none
    lastForwardArmAtMs := none
    nodes := JsMap.empty
    reassembler := JsMap.empty
    pendingSaves := ∅
    saveAttempts := JsMap.empty
    pendingWrites := JsMap.empty
    saveAfterWrites := ∅
    refetchAfterSave := ∅
    saveAckTimers := ∅
    firmwareUpdate := none }

def reset (s : CanBusService) : CanBusService := { s.clear with error := none }

/-- `stop` up to its link write. -/
def stopThen (s : CanBusService) (next : Option ℕ) : CanBusService :=
  { s with status := .stopping, awaiting := s.awaiting ++ [Awaiting.stop next] }.emit (.canForward 0)

def stop (s : CanBusService) : CanBusService :=
  if s.status = .idle then s else s.stopThen none

/-- `start` from where no bus is active, up to its link write. -/
def requestForward (s : CanBusService) (bus : ℕ) : CanBusService :=
  { s with status := .requesting, error := none, awaiting := s.awaiting ++ [Awaiting.forward bus] }
    |>.sendCanForward bus

def start (s : CanBusService) (bus : ℕ) : CanBusService :=
  if s.status = .active then
    if s.bus = some bus then s else s.stopThen (some bus)
  else s.requestForward bus

/-- What happens once the link write of a waiting call has settled, with the message it failed
with. -/
def settle (s : CanBusService) (call : Awaiting) (failure : Option String) : CanBusService :=
  match call with
  | .stop none => s.clear
  | .stop (some bus) => s.clear.requestForward bus
  | .forward bus =>
    match failure with
    | some message => { s with status := .idle, error := some message }
    | none =>
      { s with
        bus := some bus
        status := .active
        nodes := JsMap.empty
        reassembler := JsMap.empty }
  | .writes nodeId rest => s.sendWrites nodeId rest
  | .restart nodeId newNodeId =>
    if newNodeId ≠ nodeId then { s with nodes := s.nodes.delete nodeId } else s

/-! ## Parameter writes and saves -/

def hasPendingWriteForNode (s : CanBusService) (nodeId : ℕ) : Bool :=
  s.pendingWrites.values.any fun write => write.nodeId = nodeId

def noNode (nodeId : ℕ) : String := "No DroneCAN node " ++ toString nodeId

def setPendingWrite (s : CanBusService) (nodeId : ℕ) (paramName : String)
    (value : DronecanParamValue) : CanBusService :=
  { s with
    pendingWrites := s.pendingWrites.set (nodeId, paramName) ⟨nodeId, paramName, value, 1, s.nowMs⟩ }

def writeParameter (s : CanBusService) (nodeId : ℕ) (paramName : String)
    (value : DronecanParamValue) : CanBusService :=
  let s := { s with error := none }
  if s.nodes.has nodeId = false then { s with error := some (noNode nodeId) }
  else (s.setPendingWrite nodeId paramName value).sendWrite nodeId paramName value

def sendSave (s : CanBusService) (nodeId : ℕ) : CanBusService :=
  s.sendServiceCall (.executeOpcode nodeId DRONECAN_PARAM_OPCODE_SAVE)

def armSaveAckWatchdog (s : CanBusService) (nodeId : ℕ) : CanBusService :=
  { s with saveAckTimers := insert nodeId s.saveAckTimers }

def saveParameters (s : CanBusService) (nodeId : ℕ) : CanBusService :=
  let s := { s with error := none }
  if s.nodes.has nodeId = false then
    { s with
      pendingSaves := s.pendingSaves.erase nodeId
      saveAttempts := s.saveAttempts.delete nodeId
      saveAckTimers := s.saveAckTimers.erase nodeId
      error := some (noNode nodeId) }
  else
    { s with
      pendingSaves := insert nodeId s.pendingSaves
      saveAttempts := s.saveAttempts.set nodeId 1 }
      |>.armSaveAckWatchdog nodeId |>.sendSave nodeId

/-- `applyAndSave`; the staged writes come with their values read. -/
def applyAndSave (s : CanBusService) (nodeId : ℕ) (writes : List (String × DronecanParamValue)) :
    CanBusService :=
  let s := { s with error := none }
  if s.nodes.has nodeId = false then { s with error := some (noNode nodeId) }
  else
    let s := { s with refetchAfterSave := insert nodeId s.refetchAfterSave }
    if writes = [] then s.saveParameters nodeId
    else
      let s := { s with saveAfterWrites := insert nodeId s.saveAfterWrites }
      let s := writes.foldl (fun s write => s.setPendingWrite nodeId write.1 write.2) s
      s.sendWrites nodeId writes

def changeNodeIdReason (s : CanBusService) (nodeId : ℕ) (newNodeId : ℤ) : Option String :=
  match s.nodes.get nodeId with
  | none => some (noNode nodeId)
  | some node =>
    if ¬ node.parameters.any fun entry => entry.name = CAN_NODE_PARAM then
      some ("Node " ++ toString nodeId ++ " has no " ++ CAN_NODE_PARAM
        ++ " parameter; fetch its parameters first.")
    else if newNodeId < 0 ∨ 125 < newNodeId then
      some "A node ID is 1 to 125 (or 0 to ask the allocator)."
    else if newNodeId ≠ 0 ∧ newNodeId ≠ nodeId ∧
        (s.nodes.has newNodeId.toNat = true ∨ newNodeId = GCS_DRONECAN_NODE_ID) then
      some ("Node ID " ++ toString newNodeId ++ " is already on the bus.")
    else none

def changeNodeId (s : CanBusService) (nodeId : ℕ) (newNodeId : ℤ) : CanBusService :=
  match s.changeNodeIdReason nodeId newNodeId with
  | some reason => { s with error := some reason }
  | none =>
    { s with restartAfterSave := s.restartAfterSave.set nodeId newNodeId.toNat }
      |>.applyAndSave nodeId [(CAN_NODE_PARAM, .int64 newNodeId)]

def onSaveAckTimeout (s : CanBusService) (nodeId : ℕ) : CanBusService :=
  let s := { s with saveAckTimers := s.saveAckTimers.erase nodeId }
  if nodeId ∉ s.pendingSaves then s
  else
    let attempts := (s.saveAttempts.get nodeId).getD 1
    if attempts < MAX_SAVE_RETRIES ∧ s.status = .active then
      { s with saveAttempts := s.saveAttempts.set nodeId (attempts + 1) }
        |>.sendSave nodeId |>.armSaveAckWatchdog nodeId
    else
      { s with
        pendingSaves := s.pendingSaves.erase nodeId
        saveAttempts := s.saveAttempts.delete nodeId }

/-! ## Nodes -/

def upsertNode (s : CanBusService) (nodeId : ℕ) : MutableNode :=
  (s.nodes.get nodeId).getD
    { nodeId := nodeId
      name := none
      hwUniqueId := none
      parameters := []
      paramFetch := ⟨.idle, 0, none, none⟩
      paramFetchRetries := 0
      firstSeenAtMs := s.nowMs
      lastSeenAtMs := s.nowMs }

def putNode (s : CanBusService) (node : MutableNode) : CanBusService :=
  { s with nodes := s.nodes.set node.nodeId node }

def refreshNode (s : CanBusService) (nodeId : ℕ) : CanBusService :=
  if s.nodes.has nodeId then s.requestGetNodeInfo nodeId else s

def restartNode (s : CanBusService) (nodeId : ℕ) : CanBusService :=
  let s := { s with error := none }
  if s.nodes.has nodeId = false then { s with error := some (noNode nodeId) }
  else s.sendServiceCall (.restartNode nodeId)

def fetchAllParameters (s : CanBusService) (nodeId : ℕ) : CanBusService :=
  let s := { s with error := none }
  match s.nodes.get nodeId with
  | none =>
    { s with
      error := some ("DroneCAN node " ++ toString nodeId
        ++ " is no longer visible on the bus — re-fetch skipped. Wait for its NodeStatus to reappear "
        ++ "or reconnect the bus.") }
  | some node =>
    s.putNode
      { node with
        nodeId := nodeId
        parameters := []
        paramFetch := ⟨.fetching, 0, some s.nowMs, none⟩
        paramFetchRetries := 0 }
      |>.requestGetSet nodeId 0

def handleNodeStatus (s : CanBusService) (sourceNodeId : ℕ) (payload : Bytes) : CanBusService :=
  match decodeDronecanNodeStatus payload with
  | none => s
  | some _ =>
    let node := { s.upsertNode sourceNodeId with nodeId := sourceNodeId, lastSeenAtMs := s.nowMs }
    let s := s.putNode node
    let s := if node.name = none then s.requestGetNodeInfo sourceNodeId else s
    if node.paramFetch.status = .idle then
      s.putNode { node with paramFetch := ⟨.fetching, 0, some s.nowMs, none⟩ }
        |>.requestGetSet sourceNodeId 0
    else s

def hexDigit (n : ℕ) : Char := Char.ofNat (if n < 10 then 48 + n else 87 + n)

def hexBytes (bytes : Bytes) : String :=
  String.ofList (bytes.flatMap fun byte => [hexDigit (byte.toNat / 16), hexDigit (byte.toNat % 16)])

def handleGetNodeInfoResponse (s : CanBusService) (sourceNodeId : ℕ) (payload : Bytes) :
    CanBusService :=
  match decodeDronecanGetNodeInfoResponse payload with
  | none => s
  | some info =>
    let node := s.upsertNode sourceNodeId
    s.putNode
      { node with
        nodeId := sourceNodeId
        name := if info.name = "" then node.name else some info.name
        hwUniqueId := some (hexBytes info.uniqueId)
        lastSeenAtMs := s.nowMs }

def presentValue (value : DronecanParamValue) : Option DronecanParamValue :=
  if value = .empty then none else some value

def handleGetSetResponse (s : CanBusService) (sourceNodeId : ℕ) (payload : Bytes) : CanBusService :=
  match decodeDronecanGetSetResponse payload with
  | none => s
  | some response =>
    let node := { s.upsertNode sourceNodeId with nodeId := sourceNodeId, lastSeenAtMs := s.nowMs }
    let s := s.putNode node
    if response.name = "" then
      s.putNode { node with paramFetch := { node.paramFetch with status := .complete } }
    else
      let s := { s with pendingWrites := s.pendingWrites.delete (sourceNodeId, response.name) }
      let s :=
        if sourceNodeId ∈ s.saveAfterWrites ∧ s.hasPendingWriteForNode sourceNodeId = false then
          { s with saveAfterWrites := s.saveAfterWrites.erase sourceNodeId }
            |>.saveParameters sourceNodeId
        else s
      let entry : DronecanParamEntry :=
        { index := node.paramFetch.nextIndex
          name := response.name
          value := response.value
          defaultValue := presentValue response.defaultValue
          minValue := presentValue response.minValue
          maxValue := presentValue response.maxValue
          lastFetchedAtMs := s.nowMs }
      if node.parameters.any fun p => p.name = entry.name then
        let existing := node.parameters.findIdx fun p => p.name = entry.name
        s.putNode { node with parameters := node.parameters.set existing entry }
      else
        let paramFetch :=
          { node.paramFetch with
            nextIndex := node.paramFetch.nextIndex + 1
            lastAttemptAtMs := some s.nowMs }
        s.putNode
          { node with
            parameters := node.parameters ++ [entry]
            paramFetch := paramFetch
            paramFetchRetries := 0 }
          |>.requestGetSet sourceNodeId paramFetch.nextIndex

def handleExecuteOpcodeResponse (s : CanBusService) (sourceNodeId : ℕ) (payload : Bytes) :
    CanBusService :=
  match decodeDronecanExecuteOpcodeResponse payload with
  | none => s
  | some response =>
    if sourceNodeId ∉ s.pendingSaves then s
    else
      let newNodeId := s.restartAfterSave.get sourceNodeId
      let refetch := sourceNodeId ∈ s.refetchAfterSave
      let s :=
        { s with
          pendingSaves := s.pendingSaves.erase sourceNodeId
          saveAttempts := s.saveAttempts.delete sourceNodeId
          saveAckTimers := s.saveAckTimers.erase sourceNodeId
          restartAfterSave := s.restartAfterSave.delete sourceNodeId
          refetchAfterSave := s.refetchAfterSave.erase sourceNodeId }
      match newNodeId, response.ok with
      | some newNodeId, true =>
        let s := s.restartNode sourceNodeId
        { s with awaiting := s.awaiting ++ [.restart sourceNodeId newNodeId] }
      | _, _ => if refetch ∧ response.ok = true then s.fetchAllParameters sourceNodeId else s

/-! ## Firmware updates -/

def startFirmwareUpdate (s : CanBusService) (nodeId : ℕ) (fileName : String) (image : Bytes) :
    CanBusService :=
  let s := { s with error := none }
  let underWay := s.firmwareUpdate.filter fun u => u.status = .starting ∨ u.status = .in_progress
  if s.status ≠ .active then { s with error := some "Start the bus before updating a node." }
  else
    match underWay with
    | some update =>
      { s with
        error := some ("A firmware update is already in progress on node " ++ toString update.nodeId
          ++ ". Wait for it to finish or cancel it first.") }
    | none =>
      if s.nodes.has nodeId = false then { s with error := some (noNode nodeId) }
      else if image = [] then { s with error := some "The selected firmware image is empty." }
      else
        let path := "fw.bin"
        { s with
          images := s.images ++ [image]
          firmwareUpdate := some
            { id := s.images.length
              nodeId := nodeId
              fileName := fileName
              image := image
              path := path
              status := .starting
              bytesServed := 0
              error := none
              startedAtMs := s.nowMs
              updatedAtMs := s.nowMs
              beginAttempts := 1
              lastBeginAtMs := s.nowMs
              readingStarted := false } }
          |>.sendServiceCall (.beginFirmwareUpdate nodeId path)

def cancelFirmwareUpdate (s : CanBusService) : CanBusService :=
  match s.firmwareUpdate with
  | none => s
  | some update =>
    if update.status = .completed ∨ update.status = .error then { s with firmwareUpdate := none }
    else
      { s with
        firmwareUpdate := some
          { update with
            status := .error
            error := some ("Update cancelled. The node may remain in its bootloader awaiting firmware "
              ++ "— power-cycle it to recover.")
            updatedAtMs := s.nowMs } }

def beginErrorMessage (error : ℕ) (message : Option String) : String :=
  let base :=
    if error = DRONECAN_FILE_BFU_ERROR_INVALID_MODE then
      "node is in a state that cannot accept an update (INVALID_MODE)."
    else if error = DRONECAN_FILE_BFU_ERROR_IN_PROGRESS then
      "an update is already in progress on the node (IN_PROGRESS)."
    else "node returned error code " ++ toString error ++ "."
  match message with
  | none => base
  | some message => base ++ " " ++ message

def handleBeginFirmwareUpdateResponse (s : CanBusService) (sourceNodeId : ℕ) (payload : Bytes) :
    CanBusService :=
  match s.firmwareUpdate with
  | none => s
  | some update =>
    if update.nodeId ≠ sourceNodeId ∨ update.status ≠ .starting then s
    else
      match decodeDronecanBeginFirmwareUpdateResponse payload with
      | none => s
      | some response =>
        if response.error = DRONECAN_FILE_BFU_ERROR_OK then s
        else
          { s with
            firmwareUpdate := some
              { update with
                status := .error
                error := some (beginErrorMessage response.error response.optionalErrorMessage)
                updatedAtMs := s.nowMs } }

def handleFileReadRequest (s : CanBusService) (sourceNodeId transferId : ℕ) (payload : Bytes) :
    CanBusService :=
  match s.firmwareUpdate with
  | none => s
  | some update =>
    if update.nodeId ≠ sourceNodeId then s
    else if update.status = .error then s
    else
      match decodeDronecanFileReadRequest payload with
      | none => s
      | some request =>
        let size := update.image.length
        let offset := min request.offset size
        let stop := min (offset + FIRMWARE_READ_CHUNK) size
        let chunk := (update.image.drop offset).take (stop - offset)
        let s :=
          match s.nodes.get sourceNodeId with
          | none => s
          | some node => s.putNode { node with nodeId := sourceNodeId, lastSeenAtMs := s.nowMs }
        let s := s.sendServiceCall (.fileReadResponse update.id sourceNodeId transferId request.offset
          (encodeDronecanFileReadResponse DRONECAN_FILE_ERROR_OK chunk))
        { s with firmwareUpdate := some (update.afterRead offset chunk.length s.nowMs) }

def serviceFirmwareUpdate (s : CanBusService) : CanBusService :=
  match s.firmwareUpdate with
  | none => s
  | some update =>
    if update.status = .completed ∨ update.status = .error then s
    else if update.status = .starting ∧ update.readingStarted = false then
      if FIRMWARE_BEGIN_TIMEOUT_MS < s.nowMs - update.startedAtMs then
        { s with
          firmwareUpdate := some
            { update with
              status := .error
              error := some ("Node " ++ toString update.nodeId
                ++ " did not start reading the firmware image. It may not support DroneCAN firmware "
                ++ "update, or the request was lost.")
              updatedAtMs := s.nowMs } }
      else if update.beginAttempts < FIRMWARE_MAX_BEGIN_ATTEMPTS ∧
          FIRMWARE_BEGIN_RETRY_MS ≤ s.nowMs - update.lastBeginAtMs then
        { s with
          firmwareUpdate := some
            { update with
              beginAttempts := update.beginAttempts + 1
              lastBeginAtMs := s.nowMs } }
          |>.sendServiceCall (.beginFirmwareUpdate update.nodeId update.path)
      else s
    else if FIRMWARE_STALL_TIMEOUT_MS < s.nowMs - update.updatedAtMs then
      { s with
        firmwareUpdate := some
          { update with
            status := .error
            error := some ("Firmware transfer to node " ++ toString update.nodeId
              ++ " stalled (no read for 15s). The node may have dropped off the bus.")
            updatedAtMs := s.nowMs } }
    else s

/-! ## Node id allocation -/

def seedAllocation (allocations : JsMap String Allocation) (entry : String × ℕ) :
    JsMap String Allocation :=
  if allocations.has entry.1 then allocations else allocations.set entry.1 ⟨entry.2, none⟩

def setAllocatorEnabled (s : CanBusService) (enabled : Bool) (seed : List (String × ℕ)) :
    CanBusService :=
  let s := { s with allocatorEnabled := enabled, allocationQuery := none }
  if enabled then { s with allocations := seed.foldl seedAllocation s.allocations } else s

def forgetAllocations (s : CanBusService) : CanBusService := { s with allocations := JsMap.empty }

def noteOtherAllocator (s : CanBusService) (nodeId : ℕ) : CanBusService :=
  if s.otherAllocatorNodeId = some nodeId ∧ s.allocatorEnabled = false then s
  else
    let s := { s with otherAllocatorNodeId := some nodeId }
    if s.allocatorEnabled then { s with allocatorEnabled := false, allocationQuery := none } else s

/-- The id a node is known by: the one it was given, else the one a node with its unique id has. -/
def knownNodeId (s : CanBusService) (uniqueId : String) : Option ℕ :=
  ((s.allocations.get uniqueId).map Allocation.nodeId).or
    ((s.nodes.values.find? fun node => node.hwUniqueId = some uniqueId).map MutableNode.nodeId)

def taken (s : CanBusService) : List ℕ :=
  GCS_DRONECAN_NODE_ID :: s.nodes.keys ++ s.allocations.values.map Allocation.nodeId
    ++ s.otherAllocatorNodeId.toList

/-- The node id for a unique id: the one it had, else its preference if free, else the highest
free. -/
def allocateNodeId (s : CanBusService) (uniqueId : String) (preferred : ℕ) : Option ℕ :=
  match s.knownNodeId uniqueId with
  | some known => some known
  | none =>
    let free := fun id => decide (id ∉ s.taken)
    let upwards :=
      if 0 < preferred then List.range' preferred (ALLOCATION_MAX_NODE_ID + 1 - preferred) else []
    (upwards.find? free).or ((List.range' 1 ALLOCATION_MAX_NODE_ID).reverse.find? free)

def sendAllocation (s : CanBusService) (nodeId : ℕ) (uniqueBytes : Bytes) : CanBusService :=
  let transferId := (s.allocatorTransferId + 1) &&& 0x1f
  { s with allocatorTransferId := transferId }
    |>.sendServiceCall (.allocation transferId nodeId uniqueBytes)

def grantNodeId (s : CanBusService) (uniqueBytes : Bytes) (preferred : ℕ) : CanBusService :=
  let uniqueId := hexBytes uniqueBytes
  let nodeId := s.allocateNodeId uniqueId preferred
  let s := { s with allocationQuery := none }
  match nodeId with
  | none => s
  | some nodeId =>
    { s with allocations := s.allocations.set uniqueId ⟨nodeId, some s.nowMs⟩ }
      |>.sendAllocation nodeId uniqueBytes

def liveQuery (s : CanBusService) : Option AllocationQuery :=
  s.allocationQuery.filter fun q =>
    ¬ DRONECAN_ALLOCATION_FOLLOWUP_TIMEOUT_MS < s.nowMs - q.atMs

def askFurther (s : CanBusService) (bytes : Bytes) : CanBusService :=
  { s with allocationQuery := some ⟨bytes, s.nowMs⟩ }.sendAllocation 0 bytes

/-- One anonymous Allocation frame: a unique id comes in parts of 6, 6 and 4 bytes. -/
def handleAllocationRequest (s : CanBusService) (frameData : Bytes) : CanBusService :=
  if frameData.length < 2 then s
  else if (frameData.getLastD 0) &&& 0xc0 ≠ 0xc0 then s
  else
    match decodeDronecanAllocation frameData.dropLast with
    | none => s
    | some request =>
      let s := { s with allocationQuery := s.liveQuery }
      let part := request.uniqueId
      if request.firstPartOfUniqueId then s.askFurther part
      else
        match s.allocationQuery with
        | none => s
        | some query =>
          if part.length = 6 ∧ query.bytes.length = 6 then s.askFurther (query.bytes ++ part)
          else if part.length = 4 ∧ query.bytes.length = 12 then
            s.grantNodeId (query.bytes ++ part) request.nodeId
          else s

/-! ## Frames -/

structure CanFrameMessage where
  len : ℕ
  id : ℕ
  data : Bytes

def CanFrameMessage.payload (message : CanFrameMessage) : Bytes := message.data.take message.len

def handleTransfer (s : CanBusService) (destNodeId : Option ℕ) (finished : DronecanReassembledTransfer) :
    CanBusService :=
  let context := finished.context
  if context.isService = false then
    if context.typeId = DRONECAN_NODE_STATUS_DT_ID then
      s.handleNodeStatus context.sourceNodeId finished.payload
    else s
  else if context.isRequest = some true then
    if context.typeId = DRONECAN_FILE_READ_SERVICE_ID ∧ destNodeId = some GCS_DRONECAN_NODE_ID then
      s.handleFileReadRequest context.sourceNodeId context.transferId finished.payload
    else s
  else if context.typeId = DRONECAN_GET_NODE_INFO_SERVICE_ID then
    s.handleGetNodeInfoResponse context.sourceNodeId finished.payload
  else if context.typeId = DRONECAN_PARAM_GETSET_SERVICE_ID then
    s.handleGetSetResponse context.sourceNodeId finished.payload
  else if context.typeId = DRONECAN_PARAM_EXECUTE_OPCODE_SERVICE_ID then
    s.handleExecuteOpcodeResponse context.sourceNodeId finished.payload
  else if context.typeId = DRONECAN_FILE_BEGIN_FIRMWARE_UPDATE_SERVICE_ID then
    s.handleBeginFirmwareUpdateResponse context.sourceNodeId finished.payload
  else s

def accepts (s : CanBusService) (message : CanFrameMessage) : Bool :=
  s.status = .active && message.id &&& CAN_FRAME_FLAG_EFF ≠ 0 && message.id &&& 0x60000000 = 0

def CanFrameMessage.anonymous (message : CanFrameMessage) : Bool :=
  !dronecanIsServiceFrame message.id && dronecanSourceNodeId message.id = 0

def CanFrameMessage.otherAllocator (message : CanFrameMessage) : Bool :=
  !dronecanIsServiceFrame message.id && dronecanMessageTypeId message.id = DRONECAN_ALLOCATION_DT_ID &&
    dronecanSourceNodeId message.id ≠ GCS_DRONECAN_NODE_ID

def CanFrameMessage.destNodeId (message : CanFrameMessage) : Option ℕ :=
  if dronecanIsServiceFrame message.id then some (dronecanServiceDestinationNodeId message.id) else none

def CanFrameMessage.context (message : CanFrameMessage) : DronecanTransferContext :=
  let isService := dronecanIsServiceFrame message.id
  { sourceNodeId := dronecanSourceNodeId message.id
    isService := isService
    typeId :=
      if isService then dronecanServiceTypeId message.id else dronecanMessageTypeId message.id
    isRequest := if isService then some (dronecanIsServiceRequest message.id) else none
    transferId := (message.payload.getLastD 0).toNat &&& 0x1f }

def processCanFrame (s : CanBusService) (message : CanFrameMessage) : CanBusService :=
  if s.accepts message = false then s
  else if message.anonymous then
    if s.allocatorEnabled && dronecanIsAnonymousAllocationFrame message.id then
      s.handleAllocationRequest message.payload
    else s
  else if message.otherAllocator then s.noteOtherAllocator (dronecanSourceNodeId message.id)
  else if message.payload = [] then s
  else
    let (reassembler, finished) := DronecanReassembler.push s.reassembler message.context message.payload
    let s := { s with reassembler := reassembler }
    match finished with
    | none => s
    | some finished => s.handleTransfer message.destNodeId finished

/-! ## The poll tick -/

def serviceWrite (s : CanBusService) (key : ℕ × String) (write : PendingWrite) : CanBusService :=
  if s.nowMs - write.lastSentMs ≤ WRITE_RETRY_INTERVAL_MS then s
  else if MAX_WRITE_RETRIES ≤ write.attempts then
    { s with
      pendingWrites := s.pendingWrites.delete key
      saveAfterWrites := s.saveAfterWrites.erase write.nodeId
      refetchAfterSave := s.refetchAfterSave.erase write.nodeId
      error := some ("CAN: write to " ++ write.paramName ++ " on node " ++ toString write.nodeId
        ++ " was not acknowledged after " ++ toString MAX_WRITE_RETRIES
        ++ " attempts — the bus may be congested. Try again.") }
  else
    { s with
      pendingWrites := s.pendingWrites.set key
        { write with attempts := write.attempts + 1, lastSentMs := s.nowMs } }
      |>.sendWrite write.nodeId write.paramName write.value

def serviceNode (s : CanBusService) (node : MutableNode) : CanBusService :=
  let due := fun (fetch : ParamFetch) interval =>
    fetch.lastAttemptAtMs.all fun t => interval < s.nowMs - t
  let identify := node.name = none ∧ due node.paramFetch GET_NODE_INFO_RETRY_MS = true
  let node :=
    if identify then { node with paramFetch := { node.paramFetch with lastAttemptAtMs := some s.nowMs } }
    else node
  let s := s.putNode node
  let s := if identify then s.requestGetNodeInfo node.nodeId else s
  if node.paramFetch.status = .fetching ∧ due node.paramFetch (GET_SET_BATCH_INTERVAL_MS * 4) = true then
    let retries := node.paramFetchRetries + 1
    if MAX_GET_SET_RETRIES < retries then
      s.putNode
        { node with
          paramFetch :=
            { node.paramFetch with
              status := .complete
              error := some ("Stopped after " ++ toString node.parameters.length
                ++ " parameter(s): node " ++ toString node.nodeId
                ++ " stopped responding to the parameter walk.") }
          paramFetchRetries := 0 }
    else
      s.putNode
        { node with
          paramFetchRetries := retries
          paramFetch := { node.paramFetch with lastAttemptAtMs := some s.nowMs } }
        |>.requestGetSet node.nodeId node.paramFetch.nextIndex
  else s

def keepForwarding (s : CanBusService) : CanBusService :=
  match s.bus with
  | none => s
  | some bus =>
    if s.lastForwardArmAtMs.all fun t => CAN_FORWARD_REARM_INTERVAL_MS ≤ s.nowMs - t then
      s.sendCanForward bus
    else s

def tick (s : CanBusService) : CanBusService :=
  if s.status ≠ .active then s
  else
    let s := s.keepForwarding
    let s := s.serviceFirmwareUpdate
    let s := s.pendingWrites.entries.foldl (fun s (key, write) => s.serviceWrite key write) s
    s.nodes.values.foldl (fun s node => s.serviceNode node) s

/-! ## Events -/

inductive Event
  | clock (nowMs : ℕ)
  | frame (message : CanFrameMessage)
  | tick
  | saveAckTimeout (nodeId : ℕ)
  | settle (i : ℕ) (failure : Option String)
  | start (bus : ℕ)
  | stop
  | reset
  | refreshNode (nodeId : ℕ)
  | restartNode (nodeId : ℕ)
  | fetchAllParameters (nodeId : ℕ)
  | writeParameter (nodeId : ℕ) (paramName : String) (value : DronecanParamValue)
  | applyAndSave (nodeId : ℕ) (writes : List (String × DronecanParamValue))
  | changeNodeId (nodeId : ℕ) (newNodeId : ℤ)
  | saveParameters (nodeId : ℕ)
  | setAllocatorEnabled (enabled : Bool) (seed : List (String × ℕ))
  | forgetAllocations
  | startFirmwareUpdate (nodeId : ℕ) (fileName : String) (image : Bytes)
  | cancelFirmwareUpdate

/-- One turn of the event loop; a timer that is not armed and a call that is not waiting have
none. -/
def step (s : CanBusService) : Event → Option CanBusService
  | .clock nowMs => some { s with nowMs := nowMs }
  | .frame message => some (s.processCanFrame message)
  | .tick => some s.tick
  | .saveAckTimeout nodeId =>
    if nodeId ∈ s.saveAckTimers then some (s.onSaveAckTimeout nodeId) else none
  | .settle i failure =>
    s.awaiting[i]?.map fun call => { s with awaiting := s.awaiting.eraseIdx i }.settle call failure
  | .start bus => some (s.start bus)
  | .stop => some s.stop
  | .reset => some s.reset
  | .refreshNode nodeId => some (s.refreshNode nodeId)
  | .restartNode nodeId => some (s.restartNode nodeId)
  | .fetchAllParameters nodeId => some (s.fetchAllParameters nodeId)
  | .writeParameter nodeId paramName value => some (s.writeParameter nodeId paramName value)
  | .applyAndSave nodeId writes => some (s.applyAndSave nodeId writes)
  | .changeNodeId nodeId newNodeId => some (s.changeNodeId nodeId newNodeId)
  | .saveParameters nodeId => some (s.saveParameters nodeId)
  | .setAllocatorEnabled enabled seed => some (s.setAllocatorEnabled enabled seed)
  | .forgetAllocations => some s.forgetAllocations
  | .startFirmwareUpdate nodeId fileName image => some (s.startFirmwareUpdate nodeId fileName image)
  | .cancelFirmwareUpdate => some s.cancelFirmwareUpdate

end CanBusService
end ArduConfigurator.CanBus
