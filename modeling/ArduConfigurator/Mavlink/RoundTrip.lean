import ArduConfigurator.Mavlink.ChunkInvariance

/-! # Round trips of whole messages

A message goes into a frame and comes out of it again, whether or not the trailing zeros of the
payload are left off. -/
namespace ArduConfigurator.Mavlink
set_option autoImplicit false
open MAVLINK_MESSAGE_IDS

/-! ## Payloads -/

/-- A payload of which no more than trailing zeros are missing decodes to the message it was encoded
from. -/
def MessageRoundTrips (D : Dialect) (message : MavlinkMessage) : Prop :=
  ∃ messageId payload, messageIdFor D message = .ok messageId ∧
    encodePayload D message = .ok payload ∧ 0 < payload.length ∧
    ∀ wire : Bytes, wire.length ≤ payload.length → zeroPad payload.length wire = payload →
      decodePayload D messageId
        (zeroPad ((MAVLINK_PAYLOAD_LENGTHS messageId).getD wire.length) wire) = .ok (some message)

theorem messageRoundTrips_of_typed {D : Dialect} {message : MavlinkMessage} {messageId size : ℕ}
    {decode : Bytes → Except Thrown MavlinkMessage} (hid : messageIdFor D message = .ok messageId)
    (hsize : MAVLINK_PAYLOAD_LENGTHS messageId = some size)
    (hdecode : payloadDecoders.lookup messageId = some decode)
    (h : RoundTrips size (encodePayload D message) decode message) :
    MessageRoundTrips D message := by
  obtain ⟨payload, hencode, hpos, hle, hback⟩ := h
  refine ⟨messageId, payload, hid, hencode, hpos, fun wire _ hpad => ?_⟩
  rw [hsize, Option.getD_some, ← zeroPad_zeroPad wire hle, hpad, decodePayload, hdecode]
  exact congrArg (some <$> ·) hback

theorem decoder_handEntered :
    ∀ messageId ∈ payloadDecoders.map Prod.fst, messageId ∈ handEntered.map Prod.fst := by decide

theorem lookup_decoders_of_handEntered {messageId : ℕ}
    (h : handEntered.lookup messageId = none) : payloadDecoders.lookup messageId = none := by
  rw [List.lookup_eq_none_iff] at h ⊢
  intro entry hentry
  obtain ⟨known, hknown, heq⟩ := List.mem_map.mp (decoder_handEntered _ (List.mem_map_of_mem hentry))
  rw [← heq]
  exact h known hknown

theorem messageRoundTrips_of_generic {D : Dialect} {message : GenericMavlinkMessage}
    {d : GenericMessageDef}
    (hid : D.MAVLINK_GENERIC_ID_BY_NAME message.name = some message.messageId)
    (hd : D.definitionFor message.messageId = some d)
    (hfit : List.Forall₂ EntryFits d.fields message.fields)
    (hhand : handEntered.lookup message.messageId = none)
    (hbom : ∀ entry ∈ message.fields, entry.2.NoByteOrderMark) :
    MessageRoundTrips D (.GENERIC message) := by
  obtain ⟨payload, hencode, hpos, -, hback⟩ := encodeGenericPayload_spec hid hd hfit hbom
  refine ⟨message.messageId, payload, ?_, hencode, hpos, fun wire hle hpad => ?_⟩
  · rw [messageIdFor, hid]
  · have hcrc : MAVLINK_MESSAGE_CRCS message.messageId = none := by
      rw [MAVLINK_MESSAGE_CRCS, hhand, Option.map_none]
    have hlength : MAVLINK_PAYLOAD_LENGTHS message.messageId = none := by
      rw [MAVLINK_PAYLOAD_LENGTHS, hhand, Option.map_none]
    rw [hlength, Option.getD_none, zeroPad_self, decodePayload,
      lookup_decoders_of_handEntered hhand]
    dsimp only
    rw [hcrc]
    dsimp only
    rw [hback wire hle hpad, ok_bind]
    rfl

/-! ## Messages that come back -/

def HasBoth : MavlinkMessage → Prop
  | .GPS_INPUT _ | .SETUP_SIGNING _ => False
  | .ATTITUDE_QUATERNION _ | .AVAILABLE_MODE _ | .AVAILABLE_MODES_MONITOR _ => False
  | _ => True

/-- The fields fit their wire types: arrays of the length of their field, text without a NUL that
fits its field, and integers in 64 bits that are exact as a double. -/
def FitsWire (D : Dialect) : MavlinkMessage → Prop
  | .RC_CHANNELS message => message.channels.length = 18
  | .RC_CHANNELS_RAW message => message.channels.length = 8
  | .SERVO_OUTPUT_RAW message => message.servos.length = 16
  | .ESC_TELEMETRY message =>
      message.temperatureC.length = 4 ∧ message.voltageCv.length = 4 ∧
        message.currentCa.length = 4 ∧ message.totalCurrentMah.length = 4 ∧
        message.rpm.length = 4 ∧ message.count.length = 4
  | .CAN_FRAME message => message.data.length = 8
  | .CANFD_FRAME message => message.data.length = 64
  | .GPS_RAW_INT message =>
      message.timeUsec < 2 ^ 64 ∧ numberOfNat message.timeUsec = message.timeUsec
  | .FILE_TRANSFER_PROTOCOL message => message.payload.length = 251
  | .PARAM_VALUE message => FitsField 16 message.paramId
  | .PARAM_REQUEST_READ message => FitsField 16 message.paramId
  | .PARAM_SET message => FitsField 16 message.paramId
  | .STATUSTEXT message => FitsField 50 message.text
  | .COMMAND_LONG message => message.params.length = 7
  | .AUTOPILOT_VERSION message =>
      message.flightCustomVersion.length = 8 ∧ message.middlewareCustomVersion.length = 8 ∧
        message.osCustomVersion.length = 8 ∧ ∀ uid2 ∈ message.uid2, uid2.length = 18
  | .LOG_DATA message => message.data.length = 90
  | .MAG_CAL_PROGRESS message => message.completionMask.length = 10
  | .UAVCAN_NODE_INFO message =>
      FitsField 80 message.name ∧ message.hwUniqueId.length = 16
  | .GENERIC message =>
      D.MAVLINK_GENERIC_ID_BY_NAME message.name = some message.messageId ∧
        ∃ d, D.definitionFor message.messageId = some d ∧
          List.Forall₂ EntryFits d.fields message.fields
  | _ => True

/-- The message avoids the values the codec replaces: a version of zero by the protocol's, a CAN FD
length above 64 by 64, a group that is none of the three by the one it falls into, a unique id left
out by zeros; a byte order mark is dropped, and a generic message of a hand-entered id comes back as
the typed message. -/
def Kept : MavlinkMessage → Prop
  | .HEARTBEAT message => message.mavlinkVersion ≠ 0
  | .CANFD_FRAME message => message.len.toNat ≤ 64
  | .ESC_TELEMETRY message => message.groupStartIndex ∈ [0, 4, 8]
  | .AUTOPILOT_VERSION message => message.uid2.isSome
  | .PARAM_VALUE message => NoByteOrderMark message.paramId
  | .PARAM_REQUEST_READ message => NoByteOrderMark message.paramId
  | .PARAM_SET message => NoByteOrderMark message.paramId
  | .STATUSTEXT message => NoByteOrderMark message.text
  | .UAVCAN_NODE_INFO message => NoByteOrderMark message.name
  | .GENERIC message =>
      handEntered.lookup message.messageId = none ∧
        ∀ entry ∈ message.fields, entry.2.NoByteOrderMark
  | _ => True

theorem escTelemetry_messageRoundTrips {D : Dialect} {message : EscTelemetryMessage}
    (hfits : FitsWire D (.ESC_TELEMETRY message)) (hgroup : message.groupStartIndex ∈ [0, 4, 8]) :
    MessageRoundTrips D (.ESC_TELEMETRY message) := by
  obtain ⟨htemperature, hvoltage, hcurrent, htotal, hrpm, hcount⟩ := hfits
  have h := (escTelemetry_roundTrips htemperature hvoltage hcurrent htotal hrpm hcount).map
    MavlinkMessage.ESC_TELEMETRY
  have hid : messageIdFor D (.ESC_TELEMETRY message) =
      .ok (if 8 ≤ message.groupStartIndex then ESC_TELEMETRY_9_TO_12
        else if 4 ≤ message.groupStartIndex then ESC_TELEMETRY_5_TO_8
        else ESC_TELEMETRY_1_TO_4) := rfl
  simp only [List.mem_cons, List.not_mem_nil, or_false] at hgroup
  obtain hgroup | hgroup | hgroup := hgroup
  all_goals
    rw [hgroup] at h hid
    exact messageRoundTrips_of_typed hid rfl rfl h

theorem messageRoundTrips {D : Dialect} {message : MavlinkMessage} (hboth : HasBoth message)
    (hfits : FitsWire D message) (hkept : Kept message) : MessageRoundTrips D message := by
  cases message with
  | HEARTBEAT message =>
    exact messageRoundTrips_of_typed rfl rfl rfl ((heartbeat_roundTrips hkept).map _)
  | RC_CHANNELS message =>
    exact messageRoundTrips_of_typed rfl rfl rfl ((rcChannels_roundTrips hfits).map _)
  | RC_CHANNELS_RAW message =>
    exact messageRoundTrips_of_typed rfl rfl rfl ((rcChannelsRaw_roundTrips hfits).map _)
  | SERVO_OUTPUT_RAW message =>
    exact messageRoundTrips_of_typed rfl rfl rfl ((servoOutputRaw_roundTrips hfits).map _)
  | SYS_STATUS message =>
    exact messageRoundTrips_of_typed rfl rfl rfl (sysStatus_roundTrips.map _)
  | OPTICAL_FLOW message =>
    exact messageRoundTrips_of_typed rfl rfl rfl (opticalFlow_roundTrips.map _)
  | DISTANCE_SENSOR message =>
    exact messageRoundTrips_of_typed rfl rfl rfl (distanceSensor_roundTrips.map _)
  | AVAILABLE_MODE _ => exact hboth.elim
  | AVAILABLE_MODES_MONITOR _ => exact hboth.elim
  | ESC_TELEMETRY message => exact escTelemetry_messageRoundTrips hfits hkept
  | CAN_FRAME message =>
    exact messageRoundTrips_of_typed rfl rfl rfl ((canFrame_roundTrips hfits).map _)
  | CANFD_FRAME message =>
    exact messageRoundTrips_of_typed rfl rfl rfl ((canFdFrame_roundTrips hfits hkept).map _)
  | GPS_RAW_INT message =>
    exact messageRoundTrips_of_typed rfl rfl rfl ((gpsRawInt_roundTrips hfits.1 hfits.2).map _)
  | GLOBAL_POSITION_INT message =>
    exact messageRoundTrips_of_typed rfl rfl rfl (globalPositionInt_roundTrips.map _)
  | ATTITUDE message =>
    exact messageRoundTrips_of_typed rfl rfl rfl (attitude_roundTrips.map _)
  | SCALED_IMU message =>
    exact messageRoundTrips_of_typed rfl rfl rfl (scaledImu_roundTrips.map _)
  | ATTITUDE_QUATERNION _ => exact hboth.elim
  | FILE_TRANSFER_PROTOCOL message =>
    exact messageRoundTrips_of_typed rfl rfl rfl ((fileTransferProtocol_roundTrips hfits).map _)
  | PARAM_VALUE message =>
    exact messageRoundTrips_of_typed rfl rfl rfl ((paramValue_roundTrips hfits hkept).map _)
  | PARAM_REQUEST_READ message =>
    exact messageRoundTrips_of_typed rfl rfl rfl ((paramRequestRead_roundTrips hfits hkept).map _)
  | STATUSTEXT message =>
    exact messageRoundTrips_of_typed rfl rfl rfl ((statusText_roundTrips hfits hkept).map _)
  | PARAM_REQUEST_LIST message =>
    exact messageRoundTrips_of_typed rfl rfl rfl (paramRequestList_roundTrips.map _)
  | PARAM_SET message =>
    exact messageRoundTrips_of_typed rfl rfl rfl ((paramSet_roundTrips hfits hkept).map _)
  | COMMAND_ACK message =>
    exact messageRoundTrips_of_typed rfl rfl rfl (commandAck_roundTrips.map _)
  | COMMAND_LONG message =>
    exact messageRoundTrips_of_typed rfl rfl rfl ((commandLong_roundTrips hfits).map _)
  | GPS_INPUT _ => exact hboth.elim
  | AUTOPILOT_VERSION message =>
    obtain ⟨uid2, huid2⟩ := Option.isSome_iff_exists.mp hkept
    obtain ⟨hflight, hmiddleware, hos, hlength⟩ := hfits
    exact messageRoundTrips_of_typed rfl rfl rfl
      ((autopilotVersion_roundTrips hflight hmiddleware hos huid2 (hlength uid2 huid2)).map _)
  | LOG_REQUEST_LIST message =>
    exact messageRoundTrips_of_typed rfl rfl rfl (logRequestList_roundTrips.map _)
  | LOG_ENTRY message =>
    exact messageRoundTrips_of_typed rfl rfl rfl (logEntry_roundTrips.map _)
  | LOG_REQUEST_DATA message =>
    exact messageRoundTrips_of_typed rfl rfl rfl (logRequestData_roundTrips.map _)
  | LOG_DATA message =>
    exact messageRoundTrips_of_typed rfl rfl rfl ((logData_roundTrips hfits).map _)
  | LOG_REQUEST_END message =>
    exact messageRoundTrips_of_typed rfl rfl rfl (logRequestEnd_roundTrips.map _)
  | LOG_ERASE message =>
    exact messageRoundTrips_of_typed rfl rfl rfl (logErase_roundTrips.map _)
  | MAG_CAL_PROGRESS message =>
    exact messageRoundTrips_of_typed rfl rfl rfl ((magCalProgress_roundTrips hfits).map _)
  | MAG_CAL_REPORT message =>
    exact messageRoundTrips_of_typed rfl rfl rfl (magCalReport_roundTrips.map _)
  | UAVCAN_NODE_STATUS message =>
    exact messageRoundTrips_of_typed rfl rfl rfl (uavcanNodeStatus_roundTrips.map _)
  | UAVCAN_NODE_INFO message =>
    exact messageRoundTrips_of_typed rfl rfl rfl
      ((uavcanNodeInfo_roundTrips hfits.1 hkept hfits.2).map _)
  | SETUP_SIGNING _ => exact hboth.elim
  | GENERIC message =>
    obtain ⟨hid, d, hd, hentries⟩ := hfits
    exact messageRoundTrips_of_generic hid hd hentries hkept.1 hkept.2

/-! ## Frames -/

namespace MavlinkV2Codec

theorem push_frame {D : Dialect} {f : Bytes} (hframe : IsFrame D f) (receiver : MavlinkV2Codec) :
    push D receiver.reset f =
      .ok ((arrive D receiver.reset f).1.toList, (arrive D receiver.reset f).2) := by
  have hpush := @push_of_clear D [f] [] [] f (by simpa using hframe) (by simp)
    (by simp [unfinished, NoInnerFrame]) receiver.reset
  have hempty : (arrive D receiver.reset f).2.buffer = [] := arrive_buffer D receiver.reset f
  have hwhole : whole [f] f.length = [f] := by rw [whole, if_pos (Nat.le_refl _), whole]
  have hrest : unfinished [f] f.length = [] := by rw [unfinished, if_pos (Nat.le_refl _), unfinished]
  have hkept : (arrive D receiver.reset f).2.withBuffer [] = (arrive D receiver.reset f).2 := by
    rw [← hempty, withBuffer_self]
  rw [List.nil_append, hwhole, hrest, arriveAll_cons] at hpush
  simp only [arriveAll, List.append_nil] at hpush
  rwa [hkept] at hpush

theorem push_decoded {D : Dialect} {header : MavlinkHeader} {message : MavlinkMessage}
    {messageId : ℕ} {payload trailer : Bytes} {flags : UInt8} (hlen : payload.length ≤ 255)
    (hid : messageId < 2 ^ 24) (hcrc : (crcExtraFor D messageId).isSome)
    (htrailer : trailer.length = signedLengthOf flags)
    (hflags : flags &&& ~~~MAVLINK_V2_INCOMPAT_FLAG_SIGNED = 0)
    (hdecode : decodePayload D messageId
      (zeroPad ((MAVLINK_PAYLOAD_LENGTHS messageId).getD payload.length) payload) =
        .ok (some message)) {receiver : MavlinkV2Codec}
    (hreceiver : receiver.activeSigning = none ∨ signedLengthOf flags = 0) :
    push D receiver.reset (frameBytes D flags header messageId payload ++ trailer) =
      .ok ([⟨header, message,
        (frameBytes D flags header messageId payload ++ trailer).length⟩], receiver.reset) := by
  have hframe : IsFrame D (frameBytes D flags header messageId payload ++ trailer) :=
    isFrame_frameBytes hlen hid hcrc htrailer
  have hcarried : decodePayload D
      (messageIdOf (frameBytes D flags header messageId payload ++ trailer))
      (payloadOf (frameBytes D flags header messageId payload ++ trailer)) = .ok (some message) := by
    rw [messageIdOf_frameBytes trailer hid, payloadOf_frameBytes hlen hid, hdecode]
  have hbyte : byteOr (frameBytes D flags header messageId payload ++ trailer) 2 = flags := rfl
  have hchecked : receiver.reset.checked (frameBytes D flags header messageId payload ++ trailer) =
      (true, receiver.reset) := by
    have hsigning : receiver.reset.activeSigning = receiver.activeSigning := rfl
    rw [checked, hsigning, hbyte]
    split
    · next signing hsome =>
      rw [hsome] at hreceiver
      obtain hnone | hunsigned := hreceiver
      · cases hnone
      · rw [if_neg (by omega)]
    · rfl
  rw [push_frame hframe, arrive_of_decode hcarried, receivedAs, hbyte,
    if_neg (not_not_intro hflags), hchecked, List.length_append, frameBytes_length,
    ← envelopeOf_frameBytes]
  rfl

end MavlinkV2Codec

theorem keptLength_eq_length {payload : Bytes} (h : keptLength payload payload.length = payload.length) :
    trimZeros payload = payload := by rw [trimZeros, h, List.take_length]

theorem truncateMavlinkV2Frame_append {D : Dialect} {flags : UInt8} {header : MavlinkHeader}
    {messageId : ℕ} {payload : Bytes} (trailer : Bytes) (hlen : payload.length ≤ 255)
    (hid : messageId < 2 ^ 24) (hcrc : (crcExtraFor D messageId).isSome) :
    truncateMavlinkV2Frame D (frameBytes D flags header messageId payload ++ trailer) =
      .ok (if keptLength payload payload.length = payload.length then
        frameBytes D flags header messageId payload ++ trailer
      else frameBytes D flags header messageId (trimZeros payload)) := by
  obtain ⟨crcExtra, hcrc⟩ := Option.isSome_iff_exists.mp hcrc
  generalize hf : frameBytes D flags header messageId payload ++ trailer = frame
  have hframe : frame.length = 12 + payload.length + trailer.length := by
    rw [← hf, List.length_append, frameBytes_length]
  have hone : (byteOr frame 1).toNat = payload.length := by
    have h := @byteOr_one_frameBytes D flags header messageId payload trailer hlen
    rwa [hf] at h
  have hslice : slice frame 10 payload.length = payload := by
    have h := @slice_frameBytes D flags header messageId payload trailer
    rwa [hf] at h
  have hmessageId : messageIdOf frame = messageId := by
    have h := @messageIdOf_frameBytes D flags header messageId payload trailer hid
    rwa [hf] at h
  have hzero : byteOr frame 0 = MAVLINK_V2_STX := by rw [← hf]; rfl
  have hat : messageIdAt frame 0 = .ok messageId := by
    rw [← hmessageId]
    exact messageIdAt_eq_ok (by omega)
  rw [truncateMavlinkV2Frame, if_neg (by
    simp only [MAVLINK_V2_HEADER_LENGTH, MAVLINK_V2_CHECKSUM_LENGTH]
    omega), get_uint8 (by omega), ok_bind, hzero, if_neg (not_not_intro rfl),
    get_uint8 (by omega), ok_bind, hone]
  simp only [MAVLINK_V2_HEADER_LENGTH, hslice]
  split
  · rfl
  · have hle := keptLength_le payload payload.length
    have htrim : (trimZeros payload).length = keptLength payload payload.length := by
      rw [trimZeros, List.length_take, Nat.min_eq_left hle]
    have hhead : splice (frame.take 10) 1 [UInt8.ofNat (keptLength payload payload.length)] =
        headerBytes (trimZeros payload).length flags header messageId := by
      rw [← hf, frameBytes, htrim, List.append_assoc, List.append_assoc,
        List.take_append_of_le_length (by rw [headerBytes_length]),
        List.take_of_length_le (by rw [headerBytes_length])]
      rfl
    have hbody : slice frame 10 (keptLength payload payload.length) = trimZeros payload := by
      have hpart : slice frame 10 (keptLength payload payload.length) =
          (slice frame 10 payload.length).take (keptLength payload payload.length) := by
        rw [slice, slice, List.take_take, Nat.min_eq_left hle]
      rw [hpart, hslice, trimZeros]
    rw [hat, ok_bind, hcrc]
    dsimp only
    rw [hhead, hbody, frameBytes, hcrc, Option.getD_some]

theorem truncateMavlinkV2Frame_frameBytes {D : Dialect} {header : MavlinkHeader} {messageId : ℕ}
    {payload : Bytes} (hlen : payload.length ≤ 255) (hid : messageId < 2 ^ 24)
    (hcrc : (crcExtraFor D messageId).isSome) :
    truncateMavlinkV2Frame D (frameBytes D 0 header messageId payload) =
      .ok (frameBytes D 0 header messageId (trimZeros payload)) := by
  have h := @truncateMavlinkV2Frame_append D 0 header messageId payload [] hlen hid hcrc
  rw [List.append_nil] at h
  rw [h]
  split
  · next hkept => rw [keptLength_eq_length hkept]
  · rfl

/-! ## Codecs -/

namespace MavlinkV2Codec

theorem encode_unsigned {D : Dialect} {sender : MavlinkV2Codec} {header : MavlinkHeader}
    {message : MavlinkMessage} {messageId : ℕ} {payload : Bytes}
    (hid : messageIdFor D message = .ok messageId) (hpayload : encodePayload D message = .ok payload)
    (hsigning : sender.activeSigning = none) :
    sender.encode D header message = .ok (frameBytes D 0 header messageId payload, sender) := by
  rw [encode, hid, ok_bind, hpayload, ok_bind, hsigning]

theorem encode_isOk {D : Dialect} (sender : MavlinkV2Codec) (header : MavlinkHeader)
    {message : MavlinkMessage} {messageId : ℕ} {payload : Bytes}
    (hid : messageIdFor D message = .ok messageId)
    (hpayload : encodePayload D message = .ok payload) :
    ∃ result, sender.encode D header message = .ok result := by
  rw [encode, hid, ok_bind, hpayload, ok_bind]
  cases sender.activeSigning with
  | none => exact ⟨_, rfl⟩
  | some signing => exact ⟨_, rfl⟩

theorem encode_truncated {D : Dialect} {sender : MavlinkV2Codec} {header : MavlinkHeader}
    {message : MavlinkMessage} {messageId : ℕ} {payload : Bytes}
    (hid : messageIdFor D message = .ok messageId) (hpayload : encodePayload D message = .ok payload)
    (hsigning : sender.activeSigning = none) :
    TruncatingMavlinkV2Codec.encode D sender header message =
      .ok (frameBytes D 0 header messageId (trimZeros payload), sender) := by
  obtain ⟨hlt, hcrc⟩ := messageIdFor_spec hid
  rw [TruncatingMavlinkV2Codec.encode, encode_unsigned hid hpayload hsigning, ok_bind]
  dsimp only
  rw [truncateMavlinkV2Frame_frameBytes (encodePayload_length hpayload) hlt hcrc, ok_bind]

/-- A message that fits its wire types and that the codec does not replace comes back from the frame
it is encoded as, in full or with the trailing zeros of its payload left off. A signed frame is for
receivers without a key; what those with a key accept is not a matter of the message. -/
theorem encode_roundTrips {D : Dialect} {header : MavlinkHeader} {message : MavlinkMessage}
    (hboth : HasBoth message) (hfits : FitsWire D message) (hkept : Kept message)
    (sender : MavlinkV2Codec) :
    (∃ frame sender', sender.encode D header message = .ok (frame, sender') ∧
      ∀ receiver : MavlinkV2Codec, receiver.activeSigning = none ∨ sender.activeSigning = none →
        push D receiver.reset frame = .ok ([⟨header, message, frame.length⟩], receiver.reset)) ∧
    (sender.activeSigning = none →
      ∃ frame, TruncatingMavlinkV2Codec.encode D sender header message = .ok (frame, sender) ∧
        ∀ receiver : MavlinkV2Codec,
          push D receiver.reset frame =
            .ok ([⟨header, message, frame.length⟩], receiver.reset)) := by
  obtain ⟨messageId, payload, hid, hpayload, -, hdecode⟩ := messageRoundTrips hboth hfits hkept
  obtain ⟨hlt, hcrc⟩ := messageIdFor_spec hid
  have hlen := encodePayload_length hpayload
  have hwhole := hdecode payload (Nat.le_refl _) (zeroPad_self payload)
  have hunsigned : signedLengthOf 0 = 0 := rfl
  refine ⟨?_, fun hsigning => ?_⟩
  · obtain ⟨⟨frame, sender'⟩, hencode⟩ := encode_isOk sender header hid hpayload
    refine ⟨frame, sender', hencode, fun receiver hreceiver => ?_⟩
    cases hsigning : sender.activeSigning with
    | none =>
      cases (encode_unsigned hid hpayload hsigning).symm.trans hencode
      have hpush := @push_decoded D header message messageId payload [] 0 hlen hlt hcrc rfl
        (by decide) hwhole receiver (.inr hunsigned)
      rwa [List.append_nil] at hpush
    | some signing =>
      obtain ⟨id, bytes, flags, trailer, hid', hpayload', rfl, htrailer, hflags⟩ :=
        encode_spec hencode
      cases hid.symm.trans hid'
      cases hpayload.symm.trans hpayload'
      rw [hsigning] at hreceiver
      exact push_decoded hlen hlt hcrc htrailer hflags hwhole
        (.inl (hreceiver.resolve_right (by simp)))
  · refine ⟨_, encode_truncated hid hpayload hsigning, fun receiver => ?_⟩
    have htrim := hdecode (trimZeros payload) (trimZeros_length_le payload)
      (zeroPad_trimZeros payload)
    have hpush := @push_decoded D header message messageId (trimZeros payload) [] 0
      ((trimZeros_length_le payload).trans hlen) hlt hcrc rfl (by decide) htrim receiver
      (.inr hunsigned)
    rwa [List.append_nil] at hpush

def ping : MavlinkMessage :=
  .GENERIC ⟨"PING", 4, [("time_usec", .number (.integer 5)), ("seq", .number (.integer 0)),
    ("target_system", .number (.integer 0)), ("target_component", .number (.integer 0))]⟩

theorem encode_roundTrips_ping :
    ∃ frame, TruncatingMavlinkV2Codec.encode .excerpt fresh ⟨1, 1, 7⟩ ping = .ok (frame, fresh) ∧
      push .excerpt fresh.reset frame =
        .ok ([⟨⟨1, 1, 7⟩, ping, frame.length⟩], fresh.reset) := by
  have hfits : FitsWire .excerpt ping := by
    refine ⟨rfl, _, rfl, .cons ⟨rfl, rfl, ?_⟩ (.cons ⟨rfl, rfl, ?_⟩ (.cons ⟨rfl, rfl, ?_⟩
      (.cons ⟨rfl, rfl, ?_⟩ .nil)))⟩
    all_goals exact ⟨by decide, by decide, by decide, by decide⟩
  have hkept : Kept ping := ⟨by decide, by simp [GenericValue.NoByteOrderMark]⟩
  obtain ⟨frame, hencode, hpush⟩ :=
    (@encode_roundTrips .excerpt ⟨1, 1, 7⟩ ping trivial hfits hkept fresh).2 rfl
  exact ⟨frame, hencode, hpush fresh⟩

def Replaced (D : Dialect) (message : MavlinkMessage) : Prop :=
  ∃ frame envelope, fresh.encode D ⟨1, 1, 7⟩ message = .ok (frame, fresh) ∧
    decodeSingleV2Envelope D frame = .ok envelope ∧ envelope.message ≠ message

set_option maxRecDepth 4000 in
/-- A value of each kind the codec replaces. -/
theorem codec_replaces :
    [MavlinkMessage.HEARTBEAT ⟨3, 2, 0, 0, 0, 0⟩,
        .CANFD_FRAME ⟨1, 1, 0, 65, 5, List.replicate 64 7⟩,
        .ESC_TELEMETRY ⟨1, [0, 0, 0, 0], [0, 0, 0, 0], [0, 0, 0, 0], [0, 0, 0, 0], [0, 0, 0, 0],
          [0, 0, 0, 0]⟩,
        .AUTOPILOT_VERSION ⟨0, 0, 0, 0, 0, List.replicate 8 0, List.replicate 8 0,
          List.replicate 8 0, 0, 0, 0, none⟩,
        .STATUSTEXT ⟨6, "\ufeffarmed", 0, 0⟩,
        .GENERIC ⟨"LOG_ERASE", 121, [("target_system", .number (.integer 1)),
          ("target_component", .number (.integer 1))]⟩].Forall fun message =>
      HasBoth message ∧ FitsWire .excerpt message ∧ Replaced .excerpt message := by
  refine ⟨?heartbeat, ?canFd, ?esc, ?version, ?text, ?generic⟩
  case heartbeat => exact ⟨trivial, trivial, _, _, rfl, rfl, by decide⟩
  case canFd => exact ⟨trivial, rfl, _, _, rfl, rfl, by decide⟩
  case esc => exact ⟨trivial, ⟨rfl, rfl, rfl, rfl, rfl, rfl⟩, _, _, rfl, rfl, by decide⟩
  case version =>
    exact ⟨trivial, ⟨rfl, rfl, rfl, fun _ h => by cases h⟩, _, _, rfl, rfl, by decide⟩
  case text => exact ⟨trivial, ⟨by decide, by decide⟩, _, _, rfl, rfl, by decide⟩
  case generic =>
    refine ⟨trivial, ⟨rfl, _, rfl, .cons ⟨rfl, rfl, ?_⟩ (.cons ⟨rfl, rfl, ?_⟩ .nil)⟩,
      _, _, rfl, rfl, by decide⟩
    all_goals exact ⟨by decide, by decide, by decide, by decide⟩

end MavlinkV2Codec

end ArduConfigurator.Mavlink
