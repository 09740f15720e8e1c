import ArduConfigurator.Dronecan.Transfer
import ArduConfigurator.Lib.Utf8

/-! # DroneCAN on the wire, as the CAN tab reads it

The fields of the CAN id and the tail byte, and the codecs of the messages and services the CAN tab
uses. Ids, values and names are those of `protocol-mavlink`. -/
namespace ArduConfigurator.CanBus
open Dronecan (TailByte tailByte dronecanTransferCrc)
set_option autoImplicit false

/-! ## CAN ids -/

def dronecanSourceNodeId (canId : ℕ) : ℕ := canId &&& 0x7f

def dronecanIsServiceFrame (canId : ℕ) : Bool := (canId >>> 7) &&& 0x1 = 1

def dronecanMessageTypeId (canId : ℕ) : ℕ := (canId >>> 8) &&& 0xffff

def dronecanServiceTypeId (canId : ℕ) : ℕ := (canId >>> 16) &&& 0xff

def dronecanServiceDestinationNodeId (canId : ℕ) : ℕ := (canId >>> 8) &&& 0x7f

def dronecanIsServiceRequest (canId : ℕ) : Bool := (canId >>> 15) &&& 0x1 = 1

def DRONECAN_NODE_STATUS_DT_ID : ℕ := 341
def DRONECAN_NODE_STATUS_SIGNATURE : ℕ := 0x0f0868d0c1a7c6f1
def DRONECAN_GET_NODE_INFO_SERVICE_ID : ℕ := 1
def DRONECAN_GET_NODE_INFO_SIGNATURE : ℕ := 0xee468a8121c46a9e
def DRONECAN_PARAM_GETSET_SERVICE_ID : ℕ := 11
def DRONECAN_PARAM_GETSET_SIGNATURE : ℕ := 0xa7b622f939d1a4d5
def DRONECAN_PARAM_EXECUTE_OPCODE_SERVICE_ID : ℕ := 10
def DRONECAN_PARAM_EXECUTE_OPCODE_SIGNATURE : ℕ := 0x3b131ac5eb69d2cd
def DRONECAN_PARAM_OPCODE_SAVE : ℕ := 0
def DRONECAN_RESTART_NODE_SERVICE_ID : ℕ := 5
def DRONECAN_RESTART_NODE_SIGNATURE : ℕ := 0x569e05394a3017f0
def DRONECAN_FILE_BEGIN_FIRMWARE_UPDATE_SERVICE_ID : ℕ := 40
def DRONECAN_FILE_BEGIN_FIRMWARE_UPDATE_SIGNATURE : ℕ := 0xb7d725df72724126
def DRONECAN_FILE_READ_SERVICE_ID : ℕ := 48
def DRONECAN_FILE_READ_SIGNATURE : ℕ := 0x8dcdca939f33f678
def DRONECAN_ESC_STATUS_DT_ID : ℕ := 1034
def DRONECAN_ESC_STATUS_SIGNATURE : ℕ := 0xa9af28aea2fbb254
def DRONECAN_ALLOCATION_DT_ID : ℕ := 1

/-- An anonymous (source 0) message frame whose type id ends in Allocation's low two bits. -/
def dronecanIsAnonymousAllocationFrame (canId : ℕ) : Bool :=
  (canId &&& 0x7f) = 0 && ((canId >>> 7) &&& 1) = 0 &&
    ((canId >>> 8) &&& 0x3) = (DRONECAN_ALLOCATION_DT_ID &&& 0x3)

/-! ## Text -/

/-- What `\s` matches. -/
def isJsSpace (c : Char) : Bool :=
  c.val ∈ [0x09, 0x0a, 0x0b, 0x0c, 0x0d, 0x20, 0xa0, 0x1680, 0x2000, 0x2001, 0x2002, 0x2003, 0x2004,
    0x2005, 0x2006, 0x2007, 0x2008, 0x2009, 0x200a, 0x2028, 0x2029, 0x202f, 0x205f, 0x3000, 0xfeff]

def isNul (c : Char) : Bool := c.val = 0

/-- `text.replace(/[..]+$/, '')`. -/
def trimEnd (p : Char → Bool) (text : String) : String :=
  String.ofList (text.toList.reverse.dropWhile p).reverse

/-! ## NodeStatus and GetNodeInfo -/

structure DronecanNodeStatus where
  uptimeSec : ℕ
  health : ℕ
  mode : ℕ
  subMode : ℕ
  vendorSpecificStatusCode : ℕ

def decodeDronecanNodeStatus (payload : Bytes) : Option DronecanNodeStatus :=
  if payload.length < 7 then none
  else
    let packed := (payload.getD 4 0).toNat
    some
      { uptimeSec := ofLE (payload.take 4)
        health := (packed >>> 6) &&& 0x03
        mode := (packed >>> 3) &&& 0x07
        subMode := packed &&& 0x07
        vendorSpecificStatusCode := ofLE ((payload.drop 5).take 2) }

/-- The fields of a GetNodeInfo response that a node's entry is filled with. -/
structure DronecanGetNodeInfoResponse where
  uniqueId : Bytes
  name : String

def decodeDronecanGetNodeInfoResponse (payload : Bytes) : Option DronecanGetNodeInfoResponse :=
  if payload.length < 7 + 15 + 18 + 1 then none
  else
    let coaLen := (payload.getD 40 0).toNat
    let nameStart := 41 + coaLen
    if payload.length < nameStart then none
    else
      some ⟨(payload.drop 24).take 16, trimEnd isNul (textDecode (payload.drop nameStart))⟩

/-! ## Parameter values -/

inductive DronecanParamValue
  | empty
  | int64 (value : ℤ)
  | real32 (value : JsNumber)
  | bool (value : Bool)
  | string (value : String)
  deriving DecidableEq

/-- One Value (or, if not `isFullValue`, NumericValue) at `pos`, and where the next field begins. -/
def readDronecanValueBytes (payload : Bytes) (pos : ℕ) (isFullValue : Bool) :
    Option (DronecanParamValue × ℕ) :=
  if payload.length ≤ pos then some (.empty, pos) -- a truncated message reads as zeros
  else
    let after := pos + 1
    let byte := fun i => payload.getD i 0
    match (byte pos).toNat with
    | 0 => some (.empty, after)
    | 1 =>
      let raw := ofLE ((List.range 8).map fun i => byte (after + i))
      some (.int64 (if 0x8000000000000000 ≤ raw then (raw : ℤ) - 2 ^ 64 else raw), after + 8)
    | 2 =>
      some (.real32 (binary32.value (ofLE ((List.range 4).map fun i => byte (after + i)))), after + 4)
    | 3 => if isFullValue then some (.bool (byte after ≠ 0), after + 1) else none
    | 4 =>
      if isFullValue then
        let len := (byte after).toNat
        let start := after + 1
        let text := textDecode ((payload.drop start).take len)
        some (.string (trimEnd (fun c => isJsSpace c || isNul c) text), start + len)
      else none
    | _ => none

def writeDronecanValueBytes (value : DronecanParamValue) (isFullValue : Bool) : Bytes :=
  match value with
  | .empty => [0]
  | .int64 v => 1 :: leBytes 8 ((if v < 0 then v + 2 ^ 64 else v) % 2 ^ 64).toNat
  | .real32 v => 2 :: leBytes 4 (binary32.pattern v)
  | .bool v => if isFullValue then [3, if v then 1 else 0] else [0]
  | .string v =>
    if isFullValue then
      let bytes := (textEncode v).take 128
      4 :: UInt8.ofNat bytes.length :: bytes
    else [0]

/-! ## param.GetSet and param.ExecuteOpcode -/

def encodeDronecanGetSetRequest (index : ℕ) (value : DronecanParamValue) (name : String) : Bytes :=
  UInt8.ofNat (index &&& 0xff) :: writeDronecanValueBytes value true ++ (textEncode name).take 92

structure DronecanGetSetResponse where
  value : DronecanParamValue
  defaultValue : DronecanParamValue
  maxValue : DronecanParamValue
  minValue : DronecanParamValue
  name : String

def decodeDronecanGetSetResponse (payload : Bytes) : Option DronecanGetSetResponse :=
  (readDronecanValueBytes payload 0 true).bind fun (value, next) =>
  (readDronecanValueBytes payload next true).bind fun (defaultValue, next) =>
  (readDronecanValueBytes payload next false).bind fun (maxValue, next) =>
  (readDronecanValueBytes payload next false).bind fun (minValue, next) =>
    let name := trimEnd (fun c => isJsSpace c || isNul c) (textDecode (payload.drop next))
    some ⟨value, defaultValue, maxValue, minValue, name⟩

structure DronecanExecuteOpcodeResponse where
  argument : ℤ
  ok : Bool

def decodeDronecanExecuteOpcodeResponse (payload : Bytes) : Option DronecanExecuteOpcodeResponse :=
  if payload.length < 7 then none
  else
    let argument := ofLE (payload.take 6)
    some ⟨if 0x800000000000 ≤ argument then (argument : ℤ) - 0x1000000000000 else argument,
      payload.getD 6 0 ≠ 0⟩

/-! ## The file services of a firmware update -/

def DRONECAN_FILE_BFU_ERROR_OK : ℕ := 0
def DRONECAN_FILE_BFU_ERROR_INVALID_MODE : ℕ := 1
def DRONECAN_FILE_BFU_ERROR_IN_PROGRESS : ℕ := 2

def DRONECAN_FILE_ERROR_OK : ℕ := 0

/-- Read.Response `data` array capacity. -/
def DRONECAN_FILE_READ_MAX_DATA : ℕ := 256

structure DronecanBeginFirmwareUpdateResponse where
  error : ℕ
  optionalErrorMessage : Option String

def decodeDronecanBeginFirmwareUpdateResponse (payload : Bytes) :
    Option DronecanBeginFirmwareUpdateResponse :=
  match payload with
  | [] => none
  | error :: text =>
    let message := trimEnd isNul (textDecode text)
    some ⟨error.toNat, if message = "" then none else some message⟩

structure DronecanFileReadRequest where
  /-- Byte offset into the file (uint40). -/
  offset : ℕ
  path : String

def decodeDronecanFileReadRequest (payload : Bytes) : Option DronecanFileReadRequest :=
  if payload.length < 5 then none
  else some ⟨ofLE (payload.take 5), trimEnd isNul (textDecode (payload.drop 5))⟩

def encodeDronecanFileReadResponse (error : ℕ) (data : Bytes) : Bytes :=
  leBytes 2 error ++ data.take DRONECAN_FILE_READ_MAX_DATA

/-! ## dynamic_node_id.Allocation -/

def DRONECAN_ALLOCATION_FOLLOWUP_TIMEOUT_MS : ℕ := 500

structure DronecanAllocation where
  nodeId : ℕ
  firstPartOfUniqueId : Bool
  uniqueId : Bytes

def decodeDronecanAllocation (payload : Bytes) : Option DronecanAllocation :=
  if payload.length < 1 ∨ 17 < payload.length then none
  else
    let head := (payload.getD 0 0).toNat
    some ⟨head >>> 1, head &&& 1 = 1, payload.drop 1⟩

/-! ## Reassembly -/

structure DronecanTransferContext where
  sourceNodeId : ℕ
  isService : Bool
  typeId : ℕ
  /-- For service frames, whether it is a request. -/
  isRequest : Option Bool
  transferId : ℕ

structure DronecanReassembledTransfer where
  context : DronecanTransferContext
  payload : Bytes

structure PartialTransfer where
  pieces : Bytes
  expectedToggle : Bool

/-- What `keyFor` tells apart: no request flag counts as a response. -/
def DronecanTransferContext.key (c : DronecanTransferContext) : ℕ × Bool × ℕ × Bool × ℕ :=
  (c.sourceNodeId, c.isService, c.typeId, c.isRequest.getD false, c.transferId)

abbrev Pending := JsMap (ℕ × Bool × ℕ × Bool × ℕ) PartialTransfer

namespace DronecanReassembler

/-- Hard cap on a single in-flight transfer's accumulated payload bytes. -/
def MAX_REASSEMBLY_BYTES : ℕ := 1024

def getDataTypeSignature (c : DronecanTransferContext) : Option ℕ :=
  if c.isService = false then
    if c.typeId = DRONECAN_NODE_STATUS_DT_ID then some DRONECAN_NODE_STATUS_SIGNATURE
    else if c.typeId = DRONECAN_ESC_STATUS_DT_ID then some DRONECAN_ESC_STATUS_SIGNATURE
    else none
  else if c.typeId = DRONECAN_GET_NODE_INFO_SERVICE_ID then some DRONECAN_GET_NODE_INFO_SIGNATURE
  else if c.typeId = DRONECAN_PARAM_GETSET_SERVICE_ID then some DRONECAN_PARAM_GETSET_SIGNATURE
  else if c.typeId = DRONECAN_PARAM_EXECUTE_OPCODE_SERVICE_ID then
    some DRONECAN_PARAM_EXECUTE_OPCODE_SIGNATURE
  else if c.typeId = DRONECAN_RESTART_NODE_SERVICE_ID then some DRONECAN_RESTART_NODE_SIGNATURE
  else if c.typeId = DRONECAN_FILE_BEGIN_FIRMWARE_UPDATE_SERVICE_ID then
    some DRONECAN_FILE_BEGIN_FIRMWARE_UPDATE_SIGNATURE
  else if c.typeId = DRONECAN_FILE_READ_SERVICE_ID then some DRONECAN_FILE_READ_SIGNATURE
  else none

def push (pending : Pending) (context : DronecanTransferContext) (framePayload : Bytes) :
    Pending × Option DronecanReassembledTransfer :=
  if framePayload = [] then (pending, none)
  else
    let tail := tailByte (framePayload.getLastD 0)
    let dataBytes := framePayload.dropLast
    let key := context.key
    if tail.sot && tail.eot then (pending, some ⟨context, dataBytes⟩)
    else if tail.sot then (pending.set key ⟨dataBytes, true⟩, none)
    else
      match pending.get key with
      | none => (pending, none)
      | some p =>
        if tail.toggle ≠ p.expectedToggle then (pending.delete key, none)
        else
          let pieces := p.pieces ++ dataBytes
          if MAX_REASSEMBLY_BYTES < pieces.length then (pending.delete key, none)
          else if tail.eot = false then
            (pending.set key ⟨pieces, !p.expectedToggle⟩, none)
          else if pieces.length < 2 then (pending.delete key, none)
          else
            let crcReceived := BitVec.ofNat 16 (ofLE (pieces.take 2))
            let payload := pieces.drop 2
            if (getDataTypeSignature context).any
                fun signature => dronecanTransferCrc signature payload ≠ crcReceived then
              (pending.delete key, none)
            else (pending.delete key, some ⟨context, payload⟩)

end DronecanReassembler
end ArduConfigurator.CanBus
