import ArduConfigurator.Mavlink.Payloads
import ArduConfigurator.Mavlink.Sha256

/-! # The MAVLink v2 codec

`MavlinkV2Codec` of `mavlink-v2-codec.ts`: the timestamps it sends and the check of a signed frame,
frames out of messages, and messages out of chunks of a byte stream. A clock is the sequence of its
readings; a read outside the buffer is an error. -/
namespace ArduConfigurator.Mavlink
set_option autoImplicit false

/-! ## Message signing -/

def MAVLINK_V2_SIGNING_KEY_LENGTH : ℕ := 32
def MAVLINK_V2_SIGNING_TIMESTAMP_MAX : ℤ := 2 ^ 48 - 1
def MAVLINK_V2_SIGNING_MAX_AGE_UNITS : ℤ := 6000000

/-- The argument of `setSigningConfig`. -/
structure MavlinkV2SigningConfig where
  secretKey : Bytes
  linkId : Option UInt8
  enabled : Option Bool
  clock : ℕ → ℤ

structure SigningConfig where
  secretKey : Bytes
  keyLength : secretKey.length = MAVLINK_V2_SIGNING_KEY_LENGTH
  linkId : UInt8
  enabled : Bool
  clock : ℕ → ℤ

/-- `streamKey`. -/
structure StreamKey where
  systemId : UInt8
  componentId : UInt8
  linkId : UInt8
  deriving DecidableEq

inductive MavlinkSignatureRejectionReason
  | badSignature
  | replayTimestamp
  | timestampTooOld

structure MavlinkSignatureRejection where
  reason : MavlinkSignatureRejectionReason
  systemId : UInt8
  componentId : UInt8
  linkId : UInt8

/-- The codec. `rejections` are the calls of the rejection handler, as many as
`signatureRejections` counts, and `clockReads` how often the clock was read. -/
structure MavlinkV2Codec where
  buffer : Bytes
  signing : Option SigningConfig
  lastSentTimestamp : StreamKey → Option ℤ
  lastSeenTimestamp : StreamKey → Option ℕ
  rejections : List MavlinkSignatureRejection
  clockReads : ℕ

/-- `Map.set`. -/
def assign {α : Type} (map : StreamKey → Option α) (key : StreamKey) (value : α) :
    StreamKey → Option α := fun other => if other = key then some value else map other

@[simp] theorem assign_self {α : Type} (map : StreamKey → Option α) (key : StreamKey) (value : α) :
    assign map key value key = some value := if_pos rfl

theorem assign_of_ne {α : Type} {map : StreamKey → Option α} {key other : StreamKey} {value : α}
    (h : other ≠ key) : assign map key value other = map other := if_neg h

namespace MavlinkV2Codec

/-- `new MavlinkV2Codec()`. -/
def fresh : MavlinkV2Codec :=
  { buffer := [], signing := none, lastSentTimestamp := fun _ => none,
    lastSeenTimestamp := fun _ => none, rejections := [], clockReads := 0 }

def setSigningConfig (codec : MavlinkV2Codec) :
    Option MavlinkV2SigningConfig → Except Thrown MavlinkV2Codec
  | none => .ok { codec with signing := none }
  | some config =>
      if h : config.secretKey.length = MAVLINK_V2_SIGNING_KEY_LENGTH then
        .ok { codec with
          signing := some ⟨config.secretKey, h, config.linkId.getD 0, config.enabled.getD true,
            config.clock⟩ }
      else
        .error (.error (s!"MAVLink signing secret key must be {MAVLINK_V2_SIGNING_KEY_LENGTH} " ++
          s!"bytes, got {config.secretKey.length}."))

/-- `this.signing?.enabled ? this.signing : undefined`. -/
def activeSigning (codec : MavlinkV2Codec) : Option SigningConfig :=
  codec.signing.filter SigningConfig.enabled

def nextSendTimestamp (codec : MavlinkV2Codec) (signing : SigningConfig) (streamId : StreamKey) :
    ℤ × MavlinkV2Codec :=
  let now := signing.clock codec.clockReads
  let last := (codec.lastSentTimestamp streamId).getD (-1)
  let next := if last < now then now else last + 1
  let clamped := min next MAVLINK_V2_SIGNING_TIMESTAMP_MAX
  (clamped, { codec with
    lastSentTimestamp := assign codec.lastSentTimestamp streamId clamped
    clockReads := codec.clockReads + 1 })

end MavlinkV2Codec

def computeSignature (secretKey completeFrame : Bytes) (linkId : UInt8) (timestamp : ℕ) : Bytes :=
  (Sha256.sha256 (secretKey ++ completeFrame ++ [linkId] ++ leBytes 6 timestamp)).take
    (MAVLINK_V2_SIGNATURE_LENGTH - 7)

@[simp] theorem computeSignature_length (secretKey completeFrame : Bytes) (linkId : UInt8)
    (timestamp : ℕ) : (computeSignature secretKey completeFrame linkId timestamp).length = 6 := rfl

def readUint48LE (bytes : Bytes) (offset : ℕ) : Except Thrown ℕ :=
  match readLE bytes offset 6 with
  | some value => .ok value
  | none => .error .rangeError

namespace MavlinkV2Codec

def reject (codec : MavlinkV2Codec) (reason : MavlinkSignatureRejectionReason) (key : StreamKey) :
    MavlinkV2Codec :=
  { codec with
    rejections := codec.rejections ++ [⟨reason, key.systemId, key.componentId, key.linkId⟩] }

def verifySignedFrame (codec : MavlinkV2Codec) (signing : SigningConfig) (frame : Bytes)
    (payloadLength : ℕ) : Except Thrown (Bool × MavlinkV2Codec) := do
  let baseLength := MAVLINK_V2_HEADER_LENGTH + payloadLength + MAVLINK_V2_CHECKSUM_LENGTH
  let linkId ← get UInt8 frame baseLength
  let timestamp ← readUint48LE frame (baseLength + 1)
  let systemId ← get UInt8 frame 5
  let componentId ← get UInt8 frame 6
  let expected := computeSignature signing.secretKey (frame.take baseLength) linkId timestamp
  let received := slice frame (baseLength + 7) 6
  let key : StreamKey := ⟨systemId, componentId, linkId⟩
  if expected ≠ received then .ok (false, codec.reject .badSignature key)
  else if (codec.lastSeenTimestamp key).any (timestamp ≤ ·) then
    .ok (false, codec.reject .replayTimestamp key)
  else
    let localNow := signing.clock codec.clockReads
    let codec := { codec with clockReads := codec.clockReads + 1 }
    if timestamp < localNow - MAVLINK_V2_SIGNING_MAX_AGE_UNITS then
      .ok (false, codec.reject .timestampTooOld key)
    else
      .ok (true, { codec with
        lastSeenTimestamp := assign codec.lastSeenTimestamp key timestamp })

end MavlinkV2Codec

def MAX_BUFFER_BYTES : ℕ := 4096
def RETAINED_TAIL_BYTES : ℕ := 512

def crcExtraFor (D : Dialect) (messageId : ℕ) : Option UInt8 :=
  match MAVLINK_MESSAGE_CRCS messageId with
  | some crcExtra => some crcExtra
  | none => D.mavlinkGenericCrcExtra messageId

/-! ## Encoding -/

def headerBytes (payloadLength : ℕ) (incompatFlags : UInt8) (header : MavlinkHeader)
    (messageId : ℕ) : Bytes :=
  [MAVLINK_V2_STX, UInt8.ofNat payloadLength, incompatFlags, 0, header.sequence, header.systemId,
    header.componentId] ++ leBytes 3 messageId

def frameBytes (D : Dialect) (incompatFlags : UInt8) (header : MavlinkHeader) (messageId : ℕ)
    (payload : Bytes) : Bytes :=
  let front := headerBytes payload.length incompatFlags header messageId ++ payload
  let checksum := crcMessage (front.drop 1) ((crcExtraFor D messageId).getD 0)
  front ++ leBytes 2 checksum.toNat

namespace MavlinkV2Codec

def encode (D : Dialect) (codec : MavlinkV2Codec) (header : MavlinkHeader)
    (message : MavlinkMessage) : Except Thrown (Bytes × MavlinkV2Codec) := do
  let messageId ← messageIdFor D message
  let payload ← encodePayload D message
  match codec.activeSigning with
  | none => .ok (frameBytes D 0 header messageId payload, codec)
  | some signing =>
      let frame := frameBytes D MAVLINK_V2_INCOMPAT_FLAG_SIGNED header messageId payload
      let (timestamp, codec) :=
        codec.nextSendTimestamp signing ⟨header.systemId, header.componentId, signing.linkId⟩
      let signature := computeSignature signing.secretKey frame signing.linkId timestamp.toNat
      .ok (frame ++ [signing.linkId] ++ leBytes 6 timestamp.toNat ++ signature, codec)

end MavlinkV2Codec

/-! ## Frames in a buffer -/

def signedLengthOf (incompatFlags : UInt8) : ℕ :=
  if incompatFlags &&& MAVLINK_V2_INCOMPAT_FLAG_SIGNED ≠ 0 then MAVLINK_V2_SIGNATURE_LENGTH else 0

def frameLengthOf (payloadLength : ℕ) (incompatFlags : UInt8) : ℕ :=
  MAVLINK_V2_HEADER_LENGTH + payloadLength + MAVLINK_V2_CHECKSUM_LENGTH +
    signedLengthOf incompatFlags

/-- `buffer[offset + 7] | (buffer[offset + 8] << 8) | (buffer[offset + 9] << 16)`. -/
def messageIdAt (buffer : Bytes) (offset : ℕ) : Except Thrown ℕ :=
  match readLE buffer (offset + 7) 3 with
  | some messageId => .ok messageId
  | none => .error .rangeError

/-- Whether the checksum of the frame at `offset` is right; an unknown id has none. -/
def checksumMatches (D : Dialect) (buffer : Bytes) (offset payloadLength : ℕ) :
    Except Thrown Bool := do
  let messageId ← messageIdAt buffer offset
  let receivedChecksum ← get UInt16 buffer (offset + MAVLINK_V2_HEADER_LENGTH + payloadLength)
  match crcExtraFor D messageId with
  | none => .ok false
  | some crcExtra =>
      let covered := slice buffer (offset + 1) (MAVLINK_V2_HEADER_LENGTH - 1 + payloadLength)
      .ok (decide (crcMessage covered crcExtra = receivedChecksum))

def frameIsCompleteAndValid (D : Dialect) (buffer : Bytes) (offset : ℕ) : Except Thrown Bool :=
  if buffer.length - offset < MAVLINK_V2_HEADER_LENGTH + MAVLINK_V2_CHECKSUM_LENGTH then .ok false
  else do
    let payloadLength ← get UInt8 buffer (offset + 1)
    let incompatFlags ← get UInt8 buffer (offset + 2)
    if buffer.length - offset < frameLengthOf payloadLength.toNat incompatFlags then .ok false
    else checksumMatches D buffer offset payloadLength.toNat

/-- The first of `n` indices from `index` on at which a valid frame begins. -/
def findResyncFrom (D : Dialect) (buffer : Bytes) : ℕ → ℕ → Except Thrown (Option ℕ)
  | 0, _ => .ok none
  | n + 1, index => do
      let byte ← get UInt8 buffer index
      if byte ≠ MAVLINK_V2_STX then findResyncFrom D buffer n (index + 1)
      else do
        let valid ← frameIsCompleteAndValid D buffer index
        if valid then .ok (some index) else findResyncFrom D buffer n (index + 1)

def findResyncIndex (D : Dialect) (buffer : Bytes) : Except Thrown (Option ℕ) :=
  findResyncFrom D buffer (buffer.length - 1) 1

/-! ## Decoding -/

namespace MavlinkV2Codec

def checkSignature (codec : MavlinkV2Codec) (frame : Bytes) (payloadLength incompatFlags : UInt8) :
    Except Thrown (Bool × MavlinkV2Codec) :=
  match codec.activeSigning with
  | some signing =>
      if 0 < signedLengthOf incompatFlags then
        codec.verifySignedFrame signing frame payloadLength.toNat
      else .ok (true, codec)
  | none => .ok (true, codec)

/-- What becomes of a frame with the right checksum once the buffer has moved past it. -/
def receive (D : Dialect) (codec : MavlinkV2Codec) (frame : Bytes) :
    Except Thrown (Option MavlinkEnvelope × MavlinkV2Codec) := do
  let payloadLength ← get UInt8 frame 1
  let incompatFlags ← get UInt8 frame 2
  if incompatFlags &&& ~~~MAVLINK_V2_INCOMPAT_FLAG_SIGNED ≠ 0 then .ok (none, codec)
  else do
    let (accepted, codec) ← codec.checkSignature frame payloadLength incompatFlags
    if !accepted then .ok (none, codec)
    else do
      let messageId ← messageIdAt frame 0
      let declaredLength := (MAVLINK_PAYLOAD_LENGTHS messageId).getD payloadLength.toNat
      let payload := zeroPad declaredLength
        (slice frame MAVLINK_V2_HEADER_LENGTH payloadLength.toNat)
      let message ← decodePayload D messageId payload
      match message with
      | none => .ok (none, codec)
      | some message => do
          let systemId ← get UInt8 frame 5
          let componentId ← get UInt8 frame 6
          let sequence ← get UInt8 frame 4
          .ok (some ⟨⟨systemId, componentId, sequence⟩, message, frame.length⟩, codec)

/-- How an iteration of the loop in `push` ends. -/
inductive Turn
  | stop (codec : MavlinkV2Codec)
  | next (envelope : Option MavlinkEnvelope) (codec : MavlinkV2Codec)

/-- One iteration of the loop in `push`. -/
def turn (D : Dialect) (codec : MavlinkV2Codec) : Except Thrown Turn :=
  if codec.buffer.length < MAVLINK_V2_HEADER_LENGTH + MAVLINK_V2_CHECKSUM_LENGTH then
    .ok (.stop codec)
  else
    let buffer := codec.buffer.dropWhile (· ≠ MAVLINK_V2_STX)
    let codec := { codec with buffer }
    if buffer.length < MAVLINK_V2_HEADER_LENGTH + MAVLINK_V2_CHECKSUM_LENGTH then
      .ok (.stop codec)
    else do
      let payloadLength ← get UInt8 buffer 1
      let incompatFlags ← get UInt8 buffer 2
      let frameLength := frameLengthOf payloadLength.toNat incompatFlags
      if buffer.length < frameLength then do
        match ← findResyncIndex D buffer with
        | some resyncIndex => .ok (.next none { codec with buffer := buffer.drop resyncIndex })
        | none => .ok (.stop codec)
      else do
        let frame := buffer.take frameLength
        if !(← checksumMatches D frame 0 payloadLength.toNat) then
          .ok (.next none { codec with buffer := buffer.drop 1 })
        else do
          let (envelope, codec) ← receive D { codec with buffer := buffer.drop frameLength } frame
          .ok (.next envelope codec)

def stillRunning : Thrown := .error "push is still running"

/-- At most `fuel` iterations of the loop. -/
def drain (D : Dialect) : ℕ → MavlinkV2Codec → Except Thrown (List MavlinkEnvelope × MavlinkV2Codec)
  | 0, _ => .error stillRunning
  | fuel + 1, codec => do
      match ← turn D codec with
      | .stop codec => .ok ([], codec)
      | .next envelope codec => do
          let (envelopes, codec) ← drain D fuel codec
          .ok (envelope.toList ++ envelopes, codec)

def capped (buffer : Bytes) : Bytes :=
  if MAX_BUFFER_BYTES < buffer.length then buffer.drop (buffer.length - RETAINED_TAIL_BYTES)
  else buffer

def push (D : Dialect) (codec : MavlinkV2Codec) (chunk : Bytes) :
    Except Thrown (List MavlinkEnvelope × MavlinkV2Codec) := do
  let buffer := codec.buffer ++ chunk
  let (envelopes, codec) ← drain D (buffer.length + 1) { codec with buffer }
  .ok (envelopes, { codec with buffer := capped codec.buffer })

def pushAll (D : Dialect) :
    MavlinkV2Codec → List Bytes → Except Thrown (List MavlinkEnvelope × MavlinkV2Codec)
  | codec, [] => .ok ([], codec)
  | codec, chunk :: chunks => do
      let (envelopes, codec) ← push D codec chunk
      let (rest, codec) ← pushAll D codec chunks
      .ok (envelopes ++ rest, codec)

def reset (codec : MavlinkV2Codec) : MavlinkV2Codec := { codec with buffer := [] }

end MavlinkV2Codec

def decodeSingleV2Envelope (D : Dialect) (frame : Bytes) : Except Thrown MavlinkEnvelope := do
  let (messages, _) ← MavlinkV2Codec.fresh.push D frame
  match messages with
  | [message] => .ok message
  | _ => .error (.error s!"Expected exactly one MAVLink envelope, got {messages.length}.")

/-! ## Truncating encoder -/

def truncateMavlinkV2Frame (D : Dialect) (frame : Bytes) : Except Thrown Bytes :=
  if frame.length < MAVLINK_V2_HEADER_LENGTH + MAVLINK_V2_CHECKSUM_LENGTH then .ok frame
  else do
    let stx ← get UInt8 frame 0
    if stx ≠ MAVLINK_V2_STX then .ok frame
    else do
      let declaredLength ← get UInt8 frame 1
      let payload := slice frame MAVLINK_V2_HEADER_LENGTH declaredLength.toNat
      let truncatedLength := keptLength payload declaredLength.toNat
      if truncatedLength = declaredLength.toNat then .ok frame
      else do
        let messageId ← messageIdAt frame 0
        match crcExtraFor D messageId with
        | none => .ok frame
        | some crcExtra =>
            let front := splice (frame.take MAVLINK_V2_HEADER_LENGTH) 1
                [UInt8.ofNat truncatedLength] ++
              slice frame MAVLINK_V2_HEADER_LENGTH truncatedLength
            .ok (front ++ leBytes 2 (crcMessage (front.drop 1) crcExtra).toNat)

/-- `TruncatingMavlinkV2Codec.encode`. -/
def TruncatingMavlinkV2Codec.encode (D : Dialect) (codec : MavlinkV2Codec) (header : MavlinkHeader)
    (message : MavlinkMessage) : Except Thrown (Bytes × MavlinkV2Codec) := do
  let (frame, codec) ← codec.encode D header message
  let frame ← truncateMavlinkV2Frame D frame
  .ok (frame, codec)

end ArduConfigurator.Mavlink
