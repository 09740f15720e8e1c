import ArduConfigurator.Dronecan.Codec
import ArduConfigurator.Lib.Slots

/-! # DroneCAN transfers from raw CAN frames

The catalogue knows every DSDL type of a build, by full name or by default data type id, with its
signature. The frames of each transfer (one frame, or several with a CRC) are reassembled, the CRC is
checked against the signature, and the payload is decoded through the catalogue. -/
namespace ArduConfigurator.Dronecan
set_option autoImplicit false

/-! ## The type catalogue -/

/-- `m`essage or `s`ervice. -/
inductive DronecanTypeKind
  | m | s
  deriving DecidableEq

structure DronecanTypeEntry where
  k : DronecanTypeKind
  /-- Default data type id; none for types that have none (nested-only). -/
  id : Option ℕ
  /-- Data type signature, the number its 16 hex digits write. -/
  sig : ℕ
  msg : Option DronecanSectionDesc
  req : Option DronecanSectionDesc
  res : Option DronecanSectionDesc

structure DronecanTypeInfo where
  fullName : String
  /-- Last dotted part, for compact labels. -/
  shortName : String
  kind : DronecanTypeKind
  dataTypeId : Option ℕ
  signature : ℕ

/-- The catalogue's data, and the room its decoder has on the engine's stack. -/
structure DronecanCatalogue where
  types : Entries String DronecanTypeEntry
  stack : ℕ

namespace DronecanCatalogue

def toInfo (fullName : String) (entry : DronecanTypeEntry) : DronecanTypeInfo where
  fullName := fullName
  shortName := String.ofList (fullName.toList.reverse.takeWhile (· ≠ '.')).reverse
  kind := entry.k
  dataTypeId := entry.id
  signature := entry.sig

def info (catalogue : DronecanCatalogue) (fullName : String) : Option DronecanTypeInfo :=
  (catalogue.types.get fullName).map (toInfo fullName)

/-- The names by id of one kind of type; a later type of the same id takes its place. -/
def namesById (catalogue : DronecanCatalogue) (k : DronecanTypeKind) : Entries ℕ String :=
  catalogue.types.foldl
    (fun names (fullName, entry) =>
      match entry.id with
      | none => names
      | some id => if entry.k = k then names.set id fullName else names)
    []

def messageById (catalogue : DronecanCatalogue) (dataTypeId : ℕ) : Option DronecanTypeInfo :=
  ((catalogue.namesById .m).get dataTypeId).bind catalogue.info

def serviceById (catalogue : DronecanCatalogue) (dataTypeId : ℕ) : Option DronecanTypeInfo :=
  ((catalogue.namesById .s).get dataTypeId).bind catalogue.info

/-- A section of a type: `msg` for messages, `req` and `res` for services. -/
def sect (catalogue : DronecanCatalogue) (fullName : String) (kind : DronecanSectionKind) :
    Except CodecFailure DronecanSectionDesc :=
  let found := (catalogue.types.get fullName).bind fun entry =>
    match kind with
    | .msg => entry.msg
    | .req => entry.req
    | .res => entry.res
  let name :=
    match kind with
    | .msg => "msg"
    | .req => "req"
    | .res => "res"
  match found with
  | none => .error (.codecError (fullName ++ " has no " ++ name ++ " section."))
  | some sect => .ok sect

def resolve (catalogue : DronecanCatalogue) : DronecanSectionResolver :=
  fun fullName => catalogue.sect fullName .msg

def decode (catalogue : DronecanCatalogue) (fullName : String) (kind : DronecanSectionKind)
    (payload : Bytes) (tao : Bool) : Except CodecFailure DronecanRecord :=
  (catalogue.sect fullName kind).bind fun sect =>
    decodeDronecanSection catalogue.stack sect payload catalogue.resolve tao

def encode (catalogue : DronecanCatalogue) (fullName : String) (kind : DronecanSectionKind)
    (value : DronecanRecord) (tao : Bool) : Except CodecFailure Bytes :=
  (catalogue.sect fullName kind).bind fun sect =>
    encodeDronecanSection catalogue.stack sect value catalogue.resolve tao

end DronecanCatalogue

/-! ## Frames and transfers -/

inductive CanFrameDirection
  | rx | tx
  deriving DecidableEq

structure CanFrame where
  /-- Monotonic capture sequence, assigned by the buffer. -/
  seq : ℕ
  /-- When the host saw the frame. -/
  timestampMs : ℚ
  bus : ℕ
  /-- Arbitration id without flag bits. -/
  id : ℕ
  extended : Bool
  rtr : Bool
  error : Bool
  fd : Bool
  data : Bytes
  direction : CanFrameDirection

inductive DronecanTransferKind
  | message | anonymous | request | response
  deriving DecidableEq

structure DronecanTransfer where
  bus : ℕ
  kind : DronecanTransferKind
  priority : ℕ
  dataTypeId : ℕ
  sourceNodeId : ℕ
  destinationNodeId : Option ℕ
  transferId : ℕ
  /-- Capture sequence numbers of the frames that made it, first to last. -/
  frameSeqs : List ℕ
  /-- Time of the last frame. -/
  timestampMs : ℚ
  direction : CanFrameDirection
  /-- Reassembled payload, CRC removed. -/
  payload : Bytes
  /-- The DSDL type, when this build knows the id. -/
  type : Option DronecanTypeInfo
  /-- Decoded fields, when the type is known and the payload decoded. -/
  value : Option DronecanRecord
  /-- Why there is no value: unknown type, CRC mismatch, decode failure. -/
  problem : Option String

/-- uavcan.protocol.dynamic_node_id.Allocation, the message nodes send anonymously. -/
def ALLOCATION_TYPE_ID : ℕ := 1

def TRANSFER_TIMEOUT_MS : ℚ := 2000

structure Partial where
  frames : List CanFrame
  bytes : Bytes
  expectedToggle : Bool
  startedAtMs : ℚ
  crc : Option (BitVec 16)

/-! ## CRC -/

def crcBit (crc : BitVec 16) : BitVec 16 :=
  if crc &&& 0x8000 = 0 then crc <<< 1 else (crc <<< 1) ^^^ 0x1021

def crcByte (crc : BitVec 16) (byte : UInt8) : BitVec 16 :=
  let crc := crc ^^^ (BitVec.ofNat 16 byte.toNat <<< 8)
  crcBit (crcBit (crcBit (crcBit (crcBit (crcBit (crcBit (crcBit crc)))))))

/-- CRC-16-CCITT-FALSE (poly 0x1021), continued over `bytes`. -/
def dronecanCrc16 (bytes : Bytes) (initial : BitVec 16) : BitVec 16 := bytes.foldl crcByte initial

/-- The multi-frame transfer CRC: over the signature (little-endian), then the payload. -/
def dronecanTransferCrc (signature : ℕ) (payload : Bytes) : BitVec 16 :=
  dronecanCrc16 payload (dronecanCrc16 (leBytes 8 signature) 0xffff)

/-! ## Headers and tails -/

structure ParsedId where
  kind : DronecanTransferKind
  priority : ℕ
  dataTypeId : ℕ
  sourceNodeId : ℕ
  destinationNodeId : Option ℕ

def parseId (id : ℕ) : ParsedId :=
  let priority := (id >>> 24) &&& 0x1f
  let sourceNodeId := id &&& 0x7f
  if (id >>> 7) &&& 1 ≠ 0 then
    ⟨if (id >>> 15) &&& 1 ≠ 0 then .request else .response, priority, (id >>> 16) &&& 0xff,
      sourceNodeId, some ((id >>> 8) &&& 0x7f)⟩
  else if sourceNodeId = 0 then ⟨.anonymous, priority, (id >>> 8) &&& 0x3, sourceNodeId, none⟩
  else ⟨.message, priority, (id >>> 8) &&& 0xffff, sourceNodeId, none⟩

structure TailByte where
  sot : Bool
  eot : Bool
  toggle : Bool
  transferId : ℕ

def tailByte (tail : UInt8) : TailByte :=
  ⟨tail &&& 0x80 ≠ 0, tail &&& 0x40 ≠ 0, tail &&& 0x20 ≠ 0, (tail &&& 0x1f).toNat⟩

structure TransferKey where
  bus : ℕ
  direction : CanFrameDirection
  kind : DronecanTransferKind
  dataTypeId : ℕ
  sourceNodeId : ℕ
  destinationNodeId : Option ℕ
  transferId : ℕ
  deriving DecidableEq

def CanFrame.tail (frame : CanFrame) : TailByte := tailByte (frame.data.getLastD 0)

def CanFrame.body (frame : CanFrame) : Bytes := frame.data.dropLast

def CanFrame.key (frame : CanFrame) : TransferKey :=
  let header := parseId frame.id
  ⟨frame.bus, frame.direction, header.kind, header.dataTypeId, header.sourceNodeId,
    header.destinationNodeId, frame.tail.transferId⟩

def CanFrame.usable (frame : CanFrame) : Bool :=
  frame.extended && !frame.rtr && !frame.error && !frame.data.isEmpty

/-! ## The decoder -/

namespace DronecanTransferDecoder

def failureMessage : CodecFailure → String
  | .codecError message => message
  | .rangeError => "Maximum call stack size exceeded"
  | .typeError => "Cannot read properties of undefined"
  | .endless => "Invalid array length"

def sectionOf : DronecanTransferKind → DronecanSectionKind
  | .message | .anonymous => .msg
  | .request => .req
  | .response => .res

/-- The transfer the frames `frames`, the last of them `last`, make up. -/
def finish (catalogue : DronecanCatalogue) (header : ParsedId) (last : CanFrame)
    (frames : List CanFrame) (payload : Bytes) (transferId : ℕ) (crc : Option (BitVec 16)) :
    DronecanTransfer :=
  let transfer : DronecanTransfer :=
    { bus := last.bus
      kind := header.kind
      priority := header.priority
      dataTypeId := header.dataTypeId
      sourceNodeId := header.sourceNodeId
      destinationNodeId := header.destinationNodeId
      transferId := transferId
      frameSeqs := frames.map CanFrame.seq
      timestampMs := last.timestampMs
      direction := last.direction
      payload := payload
      type := none
      value := none
      problem := none }
  if header.kind = .anonymous ∧ header.dataTypeId ≠ ALLOCATION_TYPE_ID &&& 0x3 then
    { transfer with problem := "Anonymous message: the full type id is not in the frame." }
  else
    let type :=
      match header.kind with
      | .anonymous => catalogue.messageById ALLOCATION_TYPE_ID
      | .message => catalogue.messageById header.dataTypeId
      | _ => catalogue.serviceById header.dataTypeId
    match type with
    | none =>
      { transfer with
        problem := "Type " ++ toString header.dataTypeId ++ " is not in this build's DSDL." }
    | some type =>
      let transfer := { transfer with type := some type }
      if crc.any fun crc => dronecanTransferCrc type.signature payload ≠ crc then
        { transfer with
          problem := "Transfer CRC does not match this type: a different type sharing the id, or a "
            ++ "corrupted transfer." }
      else
        match catalogue.decode type.fullName (sectionOf header.kind) payload (!last.fd) with
        | .ok value => { transfer with value := some value }
        | .error error =>
          { transfer with
            problem := "Could not decode as " ++ type.fullName ++ ": " ++ failureMessage error }

abbrev Partials := JsMap TransferKey Partial

def expire (partials : Partials) (nowMs : ℚ) : Partials :=
  partials.filter fun _ p => ¬ TRANSFER_TIMEOUT_MS < nowMs - p.startedAtMs

def bodyCrc (body : Bytes) : BitVec 16 :=
  BitVec.ofNat 16 (body.getD 0 0).toNat ||| (BitVec.ofNat 16 (body.getD 1 0).toNat <<< 8)

def push (catalogue : DronecanCatalogue) (partials : Partials) (frame : CanFrame) :
    Partials × Option DronecanTransfer :=
  if frame.usable = false then (partials, none)
  else
    let tail := frame.tail
    let header := parseId frame.id
    let key := frame.key
    let body := frame.body
    let partials := expire partials frame.timestampMs
    if tail.sot && tail.eot then
      if tail.toggle then (partials, none) -- a single-frame transfer starts with toggle 0
      else (partials, some (finish catalogue header frame [frame] body tail.transferId none))
    else if tail.sot then
      if tail.toggle || body.length < 2 then (partials, none)
      else
        (partials.set key ⟨[frame], body.drop 2, true, frame.timestampMs, some (bodyCrc body)⟩, none)
    else
      match partials.get key with
      | none => (partials, none)
      | some p =>
        if p.expectedToggle ≠ tail.toggle then (partials.delete key, none)
        else
          let p := { p with
            frames := p.frames ++ [frame]
            bytes := p.bytes ++ body
            expectedToggle := !p.expectedToggle }
          if tail.eot = false then (partials.set key p, none)
          else
            (partials.delete key,
              some (finish catalogue header frame p.frames p.bytes tail.transferId p.crc))

/-- The transfers the frames `fs` complete, in order. -/
def pushAll (catalogue : DronecanCatalogue) : Partials → List CanFrame → List DronecanTransfer
  | _, [] => []
  | partials, f :: fs =>
    let (next, transfer) := push catalogue partials f
    transfer.toList ++ pushAll catalogue next fs

end DronecanTransferDecoder

end ArduConfigurator.Dronecan
