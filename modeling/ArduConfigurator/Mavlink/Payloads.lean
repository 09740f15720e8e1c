import ArduConfigurator.Mavlink.Generic

/-! # Payloads of the typed messages

The part of `constants.ts` the codec reads: frame geometry, the typed message ids with their
`crc_extra` bytes and full payload lengths, and the X.25 checksum over both; then the encoders and
decoders of `mavlink-v2-codec.ts`, one pair for each message, and the two dispatches over them. A
read outside the payload is an error of the decoder. -/
namespace ArduConfigurator.Mavlink
set_option autoImplicit false

/-! ## Constants -/

def MAVLINK_V2_STX : UInt8 := 0xfd
def MAVLINK_V2_HEADER_LENGTH : ℕ := 10
def MAVLINK_V2_CHECKSUM_LENGTH : ℕ := 2
def MAVLINK_V2_SIGNATURE_LENGTH : ℕ := 13
def MAVLINK_V2_INCOMPAT_FLAG_SIGNED : UInt8 := 0x01
def MAVLINK_PROTOCOL_VERSION : UInt8 := 3

namespace MAVLINK_MESSAGE_IDS

def HEARTBEAT : ℕ := 0
def SYS_STATUS : ℕ := 1
def OPTICAL_FLOW : ℕ := 100
def DISTANCE_SENSOR : ℕ := 132
def CAN_FRAME : ℕ := 386
def CANFD_FRAME : ℕ := 387
def GPS_RAW_INT : ℕ := 24
def GLOBAL_POSITION_INT : ℕ := 33
def PARAM_REQUEST_READ : ℕ := 20
def PARAM_REQUEST_LIST : ℕ := 21
def PARAM_VALUE : ℕ := 22
def PARAM_SET : ℕ := 23
def ATTITUDE : ℕ := 30
def ATTITUDE_QUATERNION : ℕ := 31
def SCALED_IMU : ℕ := 26
def RC_CHANNELS : ℕ := 65
def RC_CHANNELS_RAW : ℕ := 35
def SERVO_OUTPUT_RAW : ℕ := 36
def FILE_TRANSFER_PROTOCOL : ℕ := 110
def COMMAND_ACK : ℕ := 77
def COMMAND_LONG : ℕ := 76
def AUTOPILOT_VERSION : ℕ := 148
def STATUSTEXT : ℕ := 253
def LOG_REQUEST_LIST : ℕ := 117
def LOG_ENTRY : ℕ := 118
def LOG_REQUEST_DATA : ℕ := 119
def LOG_DATA : ℕ := 120
def LOG_REQUEST_END : ℕ := 122
def LOG_ERASE : ℕ := 121
def MAG_CAL_PROGRESS : ℕ := 191
def MAG_CAL_REPORT : ℕ := 192
def UAVCAN_NODE_STATUS : ℕ := 310
def UAVCAN_NODE_INFO : ℕ := 311
def SETUP_SIGNING : ℕ := 256
def GPS_INPUT : ℕ := 232
def ESC_TELEMETRY_1_TO_4 : ℕ := 11030
def ESC_TELEMETRY_5_TO_8 : ℕ := 11031
def ESC_TELEMETRY_9_TO_12 : ℕ := 11032
def AVAILABLE_MODES : ℕ := 435
def AVAILABLE_MODES_MONITOR : ℕ := 437

end MAVLINK_MESSAGE_IDS

open MAVLINK_MESSAGE_IDS

/-- Id, `crc_extra`, full payload length and minimal payload length of each hand-entered message;
`GPS_RAW_INT` and `LOG_ERASE` have no entry in `MAVLINK_MIN_PAYLOAD_LENGTHS`. -/
def handEntered : List (ℕ × UInt8 × ℕ × Option ℕ) :=
  [(HEARTBEAT, 50, 9, some 9),
    (SYS_STATUS, 124, 43, some 31),
    (OPTICAL_FLOW, 175, 34, some 26),
    (DISTANCE_SENSOR, 85, 39, some 14),
    (CAN_FRAME, 132, 16, some 16),
    (CANFD_FRAME, 4, 72, some 72),
    (GPS_RAW_INT, 24, 30, none),
    (GLOBAL_POSITION_INT, 104, 28, some 28),
    (PARAM_REQUEST_READ, 214, 20, some 20),
    (PARAM_REQUEST_LIST, 159, 2, some 2),
    (PARAM_VALUE, 220, 25, some 25),
    (PARAM_SET, 168, 23, some 23),
    (ATTITUDE, 39, 28, some 28),
    (ATTITUDE_QUATERNION, 246, 32, some 32),
    (SCALED_IMU, 170, 24, some 22),
    (RC_CHANNELS, 118, 42, some 42),
    (RC_CHANNELS_RAW, 244, 22, some 22),
    (SERVO_OUTPUT_RAW, 222, 37, some 21),
    (FILE_TRANSFER_PROTOCOL, 84, 254, some 254),
    (COMMAND_ACK, 143, 10, some 3),
    (COMMAND_LONG, 152, 33, some 33),
    (AUTOPILOT_VERSION, 178, 78, some 60),
    (STATUSTEXT, 83, 54, some 51),
    (LOG_REQUEST_LIST, 128, 6, some 6),
    (LOG_ENTRY, 56, 14, some 14),
    (LOG_REQUEST_DATA, 116, 12, some 12),
    (LOG_DATA, 134, 97, some 97),
    (LOG_REQUEST_END, 203, 2, some 2),
    (LOG_ERASE, 237, 2, none),
    (MAG_CAL_PROGRESS, 92, 27, some 27),
    (MAG_CAL_REPORT, 36, 54, some 44),
    (UAVCAN_NODE_STATUS, 28, 17, some 17),
    (UAVCAN_NODE_INFO, 95, 116, some 116),
    (SETUP_SIGNING, 71, 42, some 42),
    (GPS_INPUT, 151, 63, some 63),
    (ESC_TELEMETRY_1_TO_4, 144, 44, some 44),
    (ESC_TELEMETRY_5_TO_8, 133, 44, some 44),
    (ESC_TELEMETRY_9_TO_12, 85, 44, some 44),
    (AVAILABLE_MODES, 134, 46, some 46),
    (AVAILABLE_MODES_MONITOR, 30, 1, some 1)]

def MAVLINK_MESSAGE_CRCS (messageId : ℕ) : Option UInt8 :=
  (handEntered.lookup messageId).map fun entry => entry.1

def MAVLINK_PAYLOAD_LENGTHS (messageId : ℕ) : Option ℕ :=
  (handEntered.lookup messageId).map fun entry => entry.2.1

def MAVLINK_MIN_PAYLOAD_LENGTHS (messageId : ℕ) : Option ℕ :=
  (handEntered.lookup messageId).bind fun entry => entry.2.2

/-! ## Checksum -/

def crcAccumulate (byte : UInt8) (checksum : UInt16) : UInt16 :=
  let tmp := byte ^^^ checksum.toUInt8
  let tmp := tmp ^^^ (tmp <<< 4)
  (checksum >>> 8) ^^^ (tmp.toUInt16 <<< 8) ^^^ (tmp.toUInt16 <<< 3) ^^^ (tmp.toUInt16 >>> 4)

def crcMessage (bytes : Bytes) (crcExtra : UInt8) : UInt16 :=
  crcAccumulate crcExtra (bytes.foldl (fun checksum byte => crcAccumulate byte checksum) 0xffff)

/-! ## Helpers -/

def copyFixedBytes (value : Bytes) (size : ℕ) : Bytes := zeroPad size (value.take size)

def encodeFixedString (value : String) (size : ℕ) : Bytes :=
  zeroPad size ((textEncode value).take size)

/-- `values[index] ?? default` for the indices below `n`. -/
def filled {α : Type} (n : ℕ) (default : α) (values : List α) : List α :=
  (List.range n).map fun index => values.getD index default

/-- `MAVLINK_PAYLOAD_LENGTHS[messageId]` as the argument of `new Uint8Array`. -/
def payloadSize (messageId : ℕ) : ℕ := (MAVLINK_PAYLOAD_LENGTHS messageId).getD 0

/-- `payload[index] ?? 0`. -/
def byteOr (payload : Bytes) (index : ℕ) : UInt8 := payload.getD index 0

def getFrom (α : Type) [Wire α] (payload : Bytes) (length off : ℕ) : Except Thrown α :=
  if length ≤ payload.length then get α payload off else .ok (Wire.ofNat 0)

/-! ## Heartbeat and status -/

def encodeHeartbeatPayload (message : HeartbeatMessage) : Except Thrown Bytes :=
  build (payloadSize HEARTBEAT)
    [put 0 message.customMode,
      put 4 message.vehicleType,
      put 5 message.autopilot,
      put 6 message.baseMode,
      put 7 message.systemStatus,
      put 8 (if message.mavlinkVersion = 0 then MAVLINK_PROTOCOL_VERSION
        else message.mavlinkVersion)]

def decodeHeartbeatPayload (payload : Bytes) : Except Thrown HeartbeatMessage := do
  let customMode ← get UInt32 payload 0
  let vehicleType ← get UInt8 payload 4
  let autopilot ← get UInt8 payload 5
  let baseMode ← get UInt8 payload 6
  let systemStatus ← get UInt8 payload 7
  let mavlinkVersion ← get UInt8 payload 8
  .ok { autopilot, vehicleType, baseMode, customMode, systemStatus, mavlinkVersion }

def encodeSysStatusPayload (message : SysStatusMessage) : Except Thrown Bytes :=
  build (payloadSize SYS_STATUS)
    [put 0 message.sensorsPresent,
      put 4 message.sensorsEnabled,
      put 8 message.sensorsHealth,
      put 12 message.load,
      put 14 message.voltageBatteryMv,
      put 16 message.currentBatteryCa,
      put 18 message.dropRateComm,
      put 20 message.errorsComm,
      put 22 message.errorsCount1,
      put 24 message.errorsCount2,
      put 26 message.errorsCount3,
      put 28 message.errorsCount4,
      put 30 message.batteryRemaining,
      put 31 message.sensorsPresentExtended,
      put 35 message.sensorsEnabledExtended,
      put 39 message.sensorsHealthExtended]

def decodeSysStatusPayload (payload : Bytes) : Except Thrown SysStatusMessage := do
  let sensorsPresent ← get UInt32 payload 0
  let sensorsEnabled ← get UInt32 payload 4
  let sensorsHealth ← get UInt32 payload 8
  let load ← get UInt16 payload 12
  let voltageBatteryMv ← get UInt16 payload 14
  let currentBatteryCa ← get Int16 payload 16
  let dropRateComm ← get UInt16 payload 18
  let errorsComm ← get UInt16 payload 20
  let errorsCount1 ← get UInt16 payload 22
  let errorsCount2 ← get UInt16 payload 24
  let errorsCount3 ← get UInt16 payload 26
  let errorsCount4 ← get UInt16 payload 28
  let batteryRemaining ← get Int8 payload 30
  let sensorsPresentExtended ← getFrom UInt32 payload 35 31
  let sensorsEnabledExtended ← getFrom UInt32 payload 39 35
  let sensorsHealthExtended ← getFrom UInt32 payload 43 39
  .ok { sensorsPresent, sensorsEnabled, sensorsHealth, load, voltageBatteryMv, currentBatteryCa,
        batteryRemaining, dropRateComm, errorsComm, errorsCount1, errorsCount2, errorsCount3,
        errorsCount4, sensorsPresentExtended, sensorsEnabledExtended, sensorsHealthExtended }

def encodeStatusTextPayload (message : StatusTextMessage) : Except Thrown Bytes :=
  build (payloadSize STATUSTEXT)
    [put 0 message.severity,
      putBytes 1 (encodeFixedString message.text 50),
      put 51 message.statusId,
      put 53 message.chunkSequence]

def decodeStatusTextPayload (payload : Bytes) : Except Thrown StatusTextMessage := do
  let severity ← get UInt8 payload 0
  let text := decodeFixedString (slice payload 1 50)
  let statusId ← getFrom UInt16 payload 53 51
  let chunkSequence ← getFrom UInt8 payload 54 53
  .ok { severity, text, statusId, chunkSequence }

def encodeAutopilotVersionPayload (message : AutopilotVersionMessage) : Except Thrown Bytes :=
  let uid2 := message.uid2.getD []
  let hasUid2 := uid2.any fun byte => byte ≠ 0
  build
    (if hasUid2 then payloadSize AUTOPILOT_VERSION
      else (MAVLINK_MIN_PAYLOAD_LENGTHS AUTOPILOT_VERSION).getD 0)
    ([put 0 message.capabilities,
      put 8 message.uid,
      put 16 message.flightSwVersion,
      put 20 message.middlewareSwVersion,
      put 24 message.osSwVersion,
      put 28 message.boardVersion,
      put 32 message.vendorId,
      put 34 message.productId,
      putBytes 36 (copyFixedBytes message.flightCustomVersion 8),
      putBytes 44 (copyFixedBytes message.middlewareCustomVersion 8),
      putBytes 52 (copyFixedBytes message.osCustomVersion 8)] ++
      if hasUid2 then [putBytes 60 (copyFixedBytes uid2 18)] else [])

def decodeAutopilotVersionPayload (payload : Bytes) : Except Thrown AutopilotVersionMessage := do
  let capabilities ← get UInt64 payload 0
  let uid ← get UInt64 payload 8
  let flightSwVersion ← get UInt32 payload 16
  let middlewareSwVersion ← get UInt32 payload 20
  let osSwVersion ← get UInt32 payload 24
  let boardVersion ← get UInt32 payload 28
  let vendorId ← get UInt16 payload 32
  let productId ← get UInt16 payload 34
  let flightCustomVersion := slice payload 36 8
  let middlewareCustomVersion := slice payload 44 8
  let osCustomVersion := slice payload 52 8
  let uid2 := if 78 ≤ payload.length then some (slice payload 60 18) else none
  .ok { capabilities, flightSwVersion, middlewareSwVersion, osSwVersion, boardVersion,
        flightCustomVersion, middlewareCustomVersion, osCustomVersion, vendorId, productId, uid,
        uid2 }

/-! ## Position and attitude -/

def encodeGpsRawIntPayload (message : GpsRawIntMessage) : Except Thrown Bytes :=
  build (payloadSize GPS_RAW_INT)
    [put 0 (UInt64.ofNat message.timeUsec),
      put 8 message.latitudeE7,
      put 12 message.longitudeE7,
      put 16 message.altitudeMm,
      put 20 message.eph,
      put 22 message.epv,
      put 24 message.vel,
      put 26 message.cog,
      put 28 message.fixType,
      put 29 message.satellitesVisible]

def decodeGpsRawIntPayload (payload : Bytes) : Except Thrown GpsRawIntMessage := do
  let timeUsec ← get UInt64 payload 0
  let latitudeE7 ← get Int32 payload 8
  let longitudeE7 ← get Int32 payload 12
  let altitudeMm ← get Int32 payload 16
  let eph ← get UInt16 payload 20
  let epv ← get UInt16 payload 22
  let vel ← get UInt16 payload 24
  let cog ← get UInt16 payload 26
  .ok { timeUsec := numberOfNat timeUsec.toNat, fixType := byteOr payload 28, latitudeE7,
        longitudeE7, altitudeMm, eph, epv, vel, cog, satellitesVisible := byteOr payload 29 }

def encodeGlobalPositionIntPayload (message : GlobalPositionIntMessage) : Except Thrown Bytes :=
  build (payloadSize GLOBAL_POSITION_INT)
    [put 0 message.timeBootMs,
      put 4 message.latitudeE7,
      put 8 message.longitudeE7,
      put 12 message.altitudeMm,
      put 16 message.relativeAltitudeMm,
      put 20 message.velocityXcms,
      put 22 message.velocityYcms,
      put 24 message.velocityZcms,
      put 26 message.headingCdeg]

def decodeGlobalPositionIntPayload (payload : Bytes) :
    Except Thrown GlobalPositionIntMessage := do
  let timeBootMs ← get UInt32 payload 0
  let latitudeE7 ← get Int32 payload 4
  let longitudeE7 ← get Int32 payload 8
  let altitudeMm ← get Int32 payload 12
  let relativeAltitudeMm ← get Int32 payload 16
  let velocityXcms ← get Int16 payload 20
  let velocityYcms ← get Int16 payload 22
  let velocityZcms ← get Int16 payload 24
  let headingCdeg ← get UInt16 payload 26
  .ok { timeBootMs, latitudeE7, longitudeE7, altitudeMm, relativeAltitudeMm, velocityXcms,
        velocityYcms, velocityZcms, headingCdeg }

def encodeAttitudePayload (message : AttitudeMessage) : Except Thrown Bytes :=
  build (payloadSize ATTITUDE)
    [put 0 message.timeBootMs,
      put 4 message.rollRad,
      put 8 message.pitchRad,
      put 12 message.yawRad,
      put 16 message.rollSpeedRadS,
      put 20 message.pitchSpeedRadS,
      put 24 message.yawSpeedRadS]

def decodeAttitudePayload (payload : Bytes) : Except Thrown AttitudeMessage := do
  let timeBootMs ← get UInt32 payload 0
  let rollRad ← get Float32Bits payload 4
  let pitchRad ← get Float32Bits payload 8
  let yawRad ← get Float32Bits payload 12
  let rollSpeedRadS ← get Float32Bits payload 16
  let pitchSpeedRadS ← get Float32Bits payload 20
  let yawSpeedRadS ← get Float32Bits payload 24
  .ok { timeBootMs, rollRad, pitchRad, yawRad, rollSpeedRadS, pitchSpeedRadS, yawSpeedRadS }

def decodeAttitudeQuaternionPayload (payload : Bytes) :
    Except Thrown AttitudeQuaternionMessage := do
  let timeBootMs ← get UInt32 payload 0
  let qw ← get Float32Bits payload 4
  let qx ← get Float32Bits payload 8
  let qy ← get Float32Bits payload 12
  let qz ← get Float32Bits payload 16
  let rollSpeedRadS ← get Float32Bits payload 20
  let pitchSpeedRadS ← get Float32Bits payload 24
  let yawSpeedRadS ← get Float32Bits payload 28
  .ok { timeBootMs, qw, qx, qy, qz, rollSpeedRadS, pitchSpeedRadS, yawSpeedRadS }

def encodeScaledImuPayload (message : ScaledImuMessage) : Except Thrown Bytes :=
  build 24
    [put 0 message.timeBootMs,
      put 4 message.accelMg.x,
      put 6 message.accelMg.y,
      put 8 message.accelMg.z,
      put 22 message.temperatureCdeg]

def decodeScaledImuPayload (payload : Bytes) : Except Thrown ScaledImuMessage := do
  let timeBootMs ← get UInt32 payload 0
  let x ← get Int16 payload 4
  let y ← get Int16 payload 6
  let z ← get Int16 payload 8
  let temperatureCdeg ← get Int16 payload 22
  .ok { timeBootMs, accelMg := { x, y, z }, temperatureCdeg }

def encodeGpsInputPayload (message : GpsInputMessage) : Except Thrown Bytes :=
  build (payloadSize GPS_INPUT)
    [put 0 (0 : UInt64),
      put 8 (0 : UInt32),
      put 12 message.latitudeE7,
      put 16 message.longitudeE7,
      put 20 message.altitudeM,
      put 24 message.hdop,
      put 28 message.vdop,
      put 32 (0 : Float32Bits),
      put 36 (0 : Float32Bits),
      put 40 (0 : Float32Bits),
      put 44 (0 : Float32Bits),
      put 48 (0x40a00000 : Float32Bits),
      put 52 (0x40a00000 : Float32Bits),
      put 56 message.ignoreFlags,
      put 58 (0 : UInt16),
      put 60 message.gpsId,
      put 61 message.fixType,
      put 62 message.satellitesVisible]

/-! ## Parameters -/

def encodeParamRequestListPayload (message : ParamRequestListMessage) : Except Thrown Bytes :=
  build (payloadSize PARAM_REQUEST_LIST)
    [put 0 message.targetSystem,
      put 1 message.targetComponent]

def decodeParamRequestListPayload (payload : Bytes) : Except Thrown ParamRequestListMessage := do
  let targetSystem ← get UInt8 payload 0
  let targetComponent ← get UInt8 payload 1
  .ok { targetSystem, targetComponent }

def encodeParamRequestReadPayload (message : ParamRequestReadMessage) : Except Thrown Bytes :=
  build (payloadSize PARAM_REQUEST_READ)
    [put 0 message.paramIndex,
      put 2 message.targetSystem,
      put 3 message.targetComponent,
      putBytes 4 (encodeFixedString message.paramId 16)]

def decodeParamRequestReadPayload (payload : Bytes) : Except Thrown ParamRequestReadMessage := do
  let paramIndex ← get Int16 payload 0
  let targetSystem ← get UInt8 payload 2
  let targetComponent ← get UInt8 payload 3
  let paramId := decodeFixedString (slice payload 4 16)
  .ok { targetSystem, targetComponent, paramId, paramIndex }

def encodeParamValuePayload (message : ParamValueMessage) : Except Thrown Bytes :=
  build (payloadSize PARAM_VALUE)
    [put 0 message.paramValue,
      put 4 message.paramCount,
      put 6 message.paramIndex,
      putBytes 8 (encodeFixedString message.paramId 16),
      put 24 message.paramType]

def decodeParamValuePayload (payload : Bytes) : Except Thrown ParamValueMessage := do
  let paramValue ← get Float32Bits payload 0
  let paramCount ← get UInt16 payload 4
  let paramIndex ← get UInt16 payload 6
  let paramId := decodeFixedString (slice payload 8 16)
  let paramType ← get UInt8 payload 24
  .ok { paramId, paramValue, paramType, paramCount, paramIndex }

def encodeParamSetPayload (message : ParamSetMessage) : Except Thrown Bytes :=
  build (payloadSize PARAM_SET)
    [put 0 message.paramValue,
      put 4 message.targetSystem,
      put 5 message.targetComponent,
      putBytes 6 (encodeFixedString message.paramId 16),
      put 22 message.paramType]

def decodeParamSetPayload (payload : Bytes) : Except Thrown ParamSetMessage := do
  let paramValue ← get Float32Bits payload 0
  let targetSystem ← get UInt8 payload 4
  let targetComponent ← get UInt8 payload 5
  let paramId := decodeFixedString (slice payload 6 16)
  let paramType ← get UInt8 payload 22
  .ok { targetSystem, targetComponent, paramId, paramValue, paramType }

/-! ## Channels and servos -/

def encodeRcChannelsPayload (message : RcChannelsMessage) : Except Thrown Bytes :=
  build (payloadSize RC_CHANNELS)
    [put 0 message.timeBootMs,
      putArray 4 (filled 18 (0xffff : UInt16) message.channels),
      put 40 message.channelCount,
      put 41 message.rssi]

def decodeRcChannelsPayload (payload : Bytes) : Except Thrown RcChannelsMessage := do
  let channels ← getArray UInt16 payload 4 18
  let timeBootMs ← get UInt32 payload 0
  let channelCount ← get UInt8 payload 40
  let rssi ← get UInt8 payload 41
  .ok { timeBootMs, channelCount, channels, rssi }

def encodeRcChannelsRawPayload (message : RcChannelsRawMessage) : Except Thrown Bytes :=
  build (payloadSize RC_CHANNELS_RAW)
    [put 0 message.timeBootMs,
      putArray 4 (filled 8 (0xffff : UInt16) message.channels),
      put 20 message.port,
      put 21 message.rssi]

def decodeRcChannelsRawPayload (payload : Bytes) : Except Thrown RcChannelsRawMessage := do
  let channels ← getArray UInt16 payload 4 8
  let timeBootMs ← get UInt32 payload 0
  let port ← get UInt8 payload 20
  let rssi ← get UInt8 payload 21
  .ok { timeBootMs, port, channels, rssi }

def encodeServoOutputRawPayload (message : ServoOutputRawMessage) : Except Thrown Bytes :=
  build (payloadSize SERVO_OUTPUT_RAW)
    [put 0 message.timeUsec,
      putArray 4 ((filled 16 (0 : UInt16) message.servos).take 8),
      put 20 message.port,
      putArray 21 ((filled 16 (0 : UInt16) message.servos).drop 8)]

def decodeServoOutputRawPayload (payload : Bytes) : Except Thrown ServoOutputRawMessage := do
  let servos ← getArray UInt16 payload 4 8
  let extension ← getArray UInt16 payload 21 (min 8 ((payload.length - 21) / 2))
  let timeUsec ← get UInt32 payload 0
  let port ← getFrom UInt8 payload 21 20
  .ok { timeUsec, port, servos := servos ++ extension }

def ESC_TELEMETRY_GROUP_SIZE : ℕ := 4

def encodeEscTelemetryPayload (message : EscTelemetryMessage) : Except Thrown Bytes :=
  build 44
    [putArray 0 (filled ESC_TELEMETRY_GROUP_SIZE 0 message.voltageCv),
      putArray 8 (filled ESC_TELEMETRY_GROUP_SIZE 0 message.currentCa),
      putArray 16 (filled ESC_TELEMETRY_GROUP_SIZE 0 message.totalCurrentMah),
      putArray 24 (filled ESC_TELEMETRY_GROUP_SIZE 0 message.rpm),
      putArray 32 (filled ESC_TELEMETRY_GROUP_SIZE 0 message.count),
      putArray 40 (filled ESC_TELEMETRY_GROUP_SIZE 0 message.temperatureC)]

def decodeEscTelemetryPayload (payload : Bytes) (groupStartIndex : ℕ) :
    Except Thrown EscTelemetryMessage := do
  let temperatureC ← getArray UInt8 payload 40 ESC_TELEMETRY_GROUP_SIZE
  let voltageCv ← getArray UInt16 payload 0 ESC_TELEMETRY_GROUP_SIZE
  let currentCa ← getArray UInt16 payload 8 ESC_TELEMETRY_GROUP_SIZE
  let totalCurrentMah ← getArray UInt16 payload 16 ESC_TELEMETRY_GROUP_SIZE
  let rpm ← getArray UInt16 payload 24 ESC_TELEMETRY_GROUP_SIZE
  let count ← getArray UInt16 payload 32 ESC_TELEMETRY_GROUP_SIZE
  .ok { groupStartIndex, temperatureC, voltageCv, currentCa, totalCurrentMah, rpm, count }

/-! ## Commands and file transfer -/

def encodeFileTransferProtocolPayload (message : FileTransferProtocolMessage) :
    Except Thrown Bytes :=
  build (payloadSize FILE_TRANSFER_PROTOCOL)
    [put 0 message.targetNetwork,
      put 1 message.targetSystem,
      put 2 message.targetComponent,
      putBytes 3 (message.payload.take (payloadSize FILE_TRANSFER_PROTOCOL - 3))]

def decodeFileTransferProtocolPayload (payload : Bytes) :
    Except Thrown FileTransferProtocolMessage :=
  .ok { targetNetwork := byteOr payload 0, targetSystem := byteOr payload 1,
        targetComponent := byteOr payload 2, payload := payload.drop 3 }

def encodeCommandAckPayload (message : CommandAckMessage) : Except Thrown Bytes :=
  build (payloadSize COMMAND_ACK)
    [put 0 message.command,
      put 2 message.result,
      put 3 message.progress,
      put 4 message.resultParam2,
      put 8 message.targetSystem,
      put 9 message.targetComponent]

def decodeCommandAckPayload (payload : Bytes) : Except Thrown CommandAckMessage := do
  let command ← get UInt16 payload 0
  let result ← get UInt8 payload 2
  let progress ← getFrom UInt8 payload 4 3
  let resultParam2 ← getFrom Int32 payload 8 4
  let targetSystem ← getFrom UInt8 payload 9 8
  let targetComponent ← getFrom UInt8 payload 10 9
  .ok { command, result, progress, resultParam2, targetSystem, targetComponent }

def encodeCommandLongPayload (message : CommandLongMessage) : Except Thrown Bytes :=
  build (payloadSize COMMAND_LONG)
    [putArray 0 message.params,
      put 28 message.command,
      put 30 message.targetSystem,
      put 31 message.targetComponent,
      put 32 message.confirmation]

def decodeCommandLongPayload (payload : Bytes) : Except Thrown CommandLongMessage := do
  let params ← getArray Float32Bits payload 0 7
  let command ← get UInt16 payload 28
  let targetSystem ← get UInt8 payload 30
  let targetComponent ← get UInt8 payload 31
  let confirmation ← get UInt8 payload 32
  .ok { command, targetSystem, targetComponent, confirmation, params }

def encodeSetupSigningPayload (message : SetupSigningMessage) : Except Thrown Bytes :=
  build (payloadSize SETUP_SIGNING)
    [put 0 message.initialTimestamp,
      put 8 message.targetSystem,
      put 9 message.targetComponent,
      putBytes 10 (message.secretKey.take 32)]

/-! ## Logs -/

def encodeLogRequestListPayload (message : LogRequestListMessage) : Except Thrown Bytes :=
  build (payloadSize LOG_REQUEST_LIST)
    [put 0 message.start,
      put 2 message.end,
      put 4 message.targetSystem,
      put 5 message.targetComponent]

def decodeLogRequestListPayload (payload : Bytes) : Except Thrown LogRequestListMessage := do
  let start ← get UInt16 payload 0
  let «end» ← get UInt16 payload 2
  let targetSystem ← get UInt8 payload 4
  let targetComponent ← get UInt8 payload 5
  .ok { targetSystem, targetComponent, start, «end» }

def encodeLogEntryPayload (message : LogEntryMessage) : Except Thrown Bytes :=
  build (payloadSize LOG_ENTRY)
    [put 0 message.timeUtc,
      put 4 message.size,
      put 8 message.id,
      put 10 message.numLogs,
      put 12 message.lastLogNum]

def decodeLogEntryPayload (payload : Bytes) : Except Thrown LogEntryMessage := do
  let timeUtc ← get UInt32 payload 0
  let size ← get UInt32 payload 4
  let id ← get UInt16 payload 8
  let numLogs ← get UInt16 payload 10
  let lastLogNum ← get UInt16 payload 12
  .ok { timeUtc, size, id, numLogs, lastLogNum }

def encodeLogRequestDataPayload (message : LogRequestDataMessage) : Except Thrown Bytes :=
  build (payloadSize LOG_REQUEST_DATA)
    [put 0 message.ofs,
      put 4 message.count,
      put 8 message.id,
      put 10 message.targetSystem,
      put 11 message.targetComponent]

def decodeLogRequestDataPayload (payload : Bytes) : Except Thrown LogRequestDataMessage := do
  let ofs ← get UInt32 payload 0
  let count ← get UInt32 payload 4
  let id ← get UInt16 payload 8
  let targetSystem ← get UInt8 payload 10
  let targetComponent ← get UInt8 payload 11
  .ok { targetSystem, targetComponent, id, ofs, count }

def encodeLogDataPayload (message : LogDataMessage) : Except Thrown Bytes :=
  build (payloadSize LOG_DATA)
    [put 0 message.ofs,
      put 4 message.id,
      put 6 message.count,
      putBytes 7 (message.data.take 90)]

def decodeLogDataPayload (payload : Bytes) : Except Thrown LogDataMessage := do
  let ofs ← get UInt32 payload 0
  let id ← get UInt16 payload 4
  let count ← get UInt8 payload 6
  .ok { id, ofs, count, data := slice payload 7 90 }

def encodeLogRequestEndPayload (message : LogRequestEndMessage) : Except Thrown Bytes :=
  build (payloadSize LOG_REQUEST_END)
    [put 0 message.targetSystem,
      put 1 message.targetComponent]

def decodeLogRequestEndPayload (payload : Bytes) : Except Thrown LogRequestEndMessage :=
  .ok { targetSystem := byteOr payload 0, targetComponent := byteOr payload 1 }

def encodeLogErasePayload (message : LogEraseMessage) : Except Thrown Bytes :=
  build (payloadSize LOG_ERASE)
    [put 0 message.targetSystem,
      put 1 message.targetComponent]

def decodeLogErasePayload (payload : Bytes) : Except Thrown LogEraseMessage :=
  .ok { targetSystem := byteOr payload 0, targetComponent := byteOr payload 1 }

/-! ## Compass calibration -/

def encodeMagCalProgressPayload (message : MagCalProgressMessage) : Except Thrown Bytes :=
  build (payloadSize MAG_CAL_PROGRESS)
    [put 0 message.directionX,
      put 4 message.directionY,
      put 8 message.directionZ,
      put 12 message.compassId,
      put 13 message.calMask,
      put 14 message.calStatus,
      put 15 message.attempt,
      put 16 message.completionPct,
      putBytes 17 (message.completionMask.take 10)]

def decodeMagCalProgressPayload (payload : Bytes) : Except Thrown MagCalProgressMessage := do
  let directionX ← get Float32Bits payload 0
  let directionY ← get Float32Bits payload 4
  let directionZ ← get Float32Bits payload 8
  let compassId ← get UInt8 payload 12
  let calMask ← get UInt8 payload 13
  let calStatus ← get UInt8 payload 14
  let attempt ← get UInt8 payload 15
  let completionPct ← get UInt8 payload 16
  .ok { compassId, calMask, calStatus, attempt, completionPct,
        completionMask := slice payload 17 10, directionX, directionY, directionZ }

def encodeMagCalReportPayload (message : MagCalReportMessage) : Except Thrown Bytes :=
  build (payloadSize MAG_CAL_REPORT)
    [put 0 message.fitness,
      put 4 message.ofsX,
      put 8 message.ofsY,
      put 12 message.ofsZ,
      put 16 message.diagX,
      put 20 message.diagY,
      put 24 message.diagZ,
      put 28 message.offdiagX,
      put 32 message.offdiagY,
      put 36 message.offdiagZ,
      put 40 message.compassId,
      put 41 message.calMask,
      put 42 message.calStatus,
      put 43 message.autosaved,
      put 44 message.orientationConfidence,
      put 48 message.oldOrientation,
      put 49 message.newOrientation,
      put 50 message.scaleFactor]

def decodeMagCalReportPayload (payload : Bytes) : Except Thrown MagCalReportMessage := do
  let fitness ← get Float32Bits payload 0
  let ofsX ← get Float32Bits payload 4
  let ofsY ← get Float32Bits payload 8
  let ofsZ ← get Float32Bits payload 12
  let diagX ← get Float32Bits payload 16
  let diagY ← get Float32Bits payload 20
  let diagZ ← get Float32Bits payload 24
  let offdiagX ← get Float32Bits payload 28
  let offdiagY ← get Float32Bits payload 32
  let offdiagZ ← get Float32Bits payload 36
  let compassId ← get UInt8 payload 40
  let calMask ← get UInt8 payload 41
  let calStatus ← get UInt8 payload 42
  let autosaved ← get UInt8 payload 43
  let orientationConfidence ← getFrom Float32Bits payload 48 44
  let oldOrientation ← getFrom UInt8 payload 49 48
  let newOrientation ← getFrom UInt8 payload 50 49
  let scaleFactor ← getFrom Float32Bits payload 54 50
  .ok { compassId, calMask, calStatus, autosaved, fitness, ofsX, ofsY, ofsZ, diagX, diagY, diagZ,
        offdiagX, offdiagY, offdiagZ, orientationConfidence, oldOrientation, newOrientation,
        scaleFactor }

/-! ## Sensors and modes -/

def encodeOpticalFlowPayload (message : OpticalFlowMessage) : Except Thrown Bytes :=
  build 34
    [put 0 message.timeUsec,
      put 8 message.flowCompMx,
      put 12 message.flowCompMy,
      put 16 message.groundDistance,
      put 20 message.flowX,
      put 22 message.flowY,
      put 24 message.sensorId,
      put 25 message.quality,
      put 26 message.flowRateX,
      put 30 message.flowRateY]

def decodeOpticalFlowPayload (payload : Bytes) : Except Thrown OpticalFlowMessage := do
  let timeUsec ← get UInt64 payload 0
  let flowCompMx ← get Float32Bits payload 8
  let flowCompMy ← get Float32Bits payload 12
  let groundDistance ← get Float32Bits payload 16
  let flowX ← get Int16 payload 20
  let flowY ← get Int16 payload 22
  let sensorId ← get UInt8 payload 24
  let quality ← get UInt8 payload 25
  let flowRateX ← getFrom Float32Bits payload 30 26
  let flowRateY ← getFrom Float32Bits payload 34 30
  .ok { timeUsec, sensorId, flowX, flowY, flowCompMx, flowCompMy, groundDistance, quality,
        flowRateX, flowRateY }

def encodeDistanceSensorPayload (message : DistanceSensorMessage) : Except Thrown Bytes :=
  build 39
    [put 0 message.timeBootMs,
      put 4 message.minDistanceCm,
      put 6 message.maxDistanceCm,
      put 8 message.currentDistanceCm,
      put 10 message.sensorType,
      put 11 message.id,
      put 12 message.orientation,
      put 13 message.covariance,
      put 14 message.horizontalFov,
      put 18 message.verticalFov,
      put 38 message.signalQuality]

def decodeDistanceSensorPayload (payload : Bytes) : Except Thrown DistanceSensorMessage := do
  let timeBootMs ← get UInt32 payload 0
  let minDistanceCm ← get UInt16 payload 4
  let maxDistanceCm ← get UInt16 payload 6
  let currentDistanceCm ← get UInt16 payload 8
  let sensorType ← get UInt8 payload 10
  let id ← get UInt8 payload 11
  let orientation ← get UInt8 payload 12
  let covariance ← get UInt8 payload 13
  let horizontalFov ← getFrom Float32Bits payload 18 14
  let verticalFov ← getFrom Float32Bits payload 22 18
  let signalQuality ← getFrom UInt8 payload 39 38
  .ok { timeBootMs, minDistanceCm, maxDistanceCm, currentDistanceCm, sensorType, id, orientation,
        covariance, horizontalFov, verticalFov, signalQuality }

/-- What `String.prototype.trim` takes for white space. -/
def isTrimmed (c : Char) : Bool :=
  c.toNat ∈ [0x09, 0x0a, 0x0b, 0x0c, 0x0d, 0x20, 0xa0, 0x1680, 0x2028, 0x2029, 0x202f, 0x205f,
    0x3000, 0xfeff] || (0x2000 ≤ c.toNat && c.toNat ≤ 0x200a)

def trim (text : String) : String :=
  String.ofList (((text.toList.dropWhile isTrimmed).reverse.dropWhile isTrimmed).reverse)

def decodeAvailableModePayload (payload : Bytes) : Except Thrown AvailableModeMessage := do
  let bytes := zeroPad 46 (payload.take 46)
  let name := trim (decodeFixedString (slice bytes 11 35))
  let customMode ← get UInt32 bytes 0
  let properties ← get UInt32 bytes 4
  let numberModes ← get UInt8 bytes 8
  let modeIndex ← get UInt8 bytes 9
  let standardMode ← get UInt8 bytes 10
  .ok { numberModes, modeIndex, standardMode, customMode, properties, name }

def decodeAvailableModesMonitorPayload (payload : Bytes) :
    Except Thrown AvailableModesMonitorMessage :=
  .ok { sequence := byteOr payload 0 }

/-! ## CAN and DroneCAN -/

def encodeCanFramePayload (message : CanFrameMessage) : Except Thrown Bytes :=
  build 16
    [put 0 message.id,
      put 4 message.targetSystem,
      put 5 message.targetComponent,
      put 6 message.bus,
      put 7 message.len,
      putBytes 8 (copyFixedBytes message.data 8)]

def decodeCanFramePayload (payload : Bytes) : Except Thrown CanFrameMessage := do
  let id ← get UInt32 payload 0
  let targetSystem ← get UInt8 payload 4
  let targetComponent ← get UInt8 payload 5
  let bus ← get UInt8 payload 6
  let len ← get UInt8 payload 7
  .ok { targetSystem, targetComponent, bus, len, id, data := slice payload 8 8 }

def encodeCanFdFramePayload (message : CanFdFrameMessage) : Except Thrown Bytes :=
  build 72
    [put 0 message.id,
      put 4 message.targetSystem,
      put 5 message.targetComponent,
      put 6 message.bus,
      put 7 message.len,
      putBytes 8 (copyFixedBytes message.data 64)]

def decodeCanFdFramePayload (payload : Bytes) : Except Thrown CanFdFrameMessage := do
  let bytes := zeroPad 72 (payload.take 72)
  let id ← get UInt32 bytes 0
  let targetSystem ← get UInt8 bytes 4
  let targetComponent ← get UInt8 bytes 5
  let bus ← get UInt8 bytes 6
  let len ← get UInt8 bytes 7
  .ok { targetSystem, targetComponent, bus, len := UInt8.ofNat (min 64 len.toNat), id,
        data := slice bytes 8 64 }

def encodeUavcanNodeStatusPayload (message : UavcanNodeStatusMessage) : Except Thrown Bytes :=
  build 17
    [put 0 message.timeUsec,
      put 8 message.uptimeSec,
      put 12 message.vendorSpecificStatusCode,
      put 14 message.health,
      put 15 message.mode,
      put 16 message.subMode]

def decodeUavcanNodeStatusPayload (payload : Bytes) : Except Thrown UavcanNodeStatusMessage := do
  let timeUsec ← get UInt64 payload 0
  let uptimeSec ← get UInt32 payload 8
  let vendorSpecificStatusCode ← get UInt16 payload 12
  let health ← get UInt8 payload 14
  let mode ← get UInt8 payload 15
  let subMode ← get UInt8 payload 16
  .ok { timeUsec, uptimeSec, health, mode, subMode, vendorSpecificStatusCode }

def encodeUavcanNodeInfoPayload (message : UavcanNodeInfoMessage) : Except Thrown Bytes :=
  build 116
    [put 0 message.timeUsec,
      put 8 message.uptimeSec,
      put 12 message.swVcsCommit,
      putBytes 16 (encodeFixedString message.name 80),
      put 96 message.hwVersionMajor,
      put 97 message.hwVersionMinor,
      putBytes 98 (copyFixedBytes message.hwUniqueId 16),
      put 114 message.swVersionMajor,
      put 115 message.swVersionMinor]

def decodeUavcanNodeInfoPayload (payload : Bytes) : Except Thrown UavcanNodeInfoMessage := do
  let timeUsec ← get UInt64 payload 0
  let uptimeSec ← get UInt32 payload 8
  let swVcsCommit ← get UInt32 payload 12
  let name := decodeFixedString (slice payload 16 80)
  let hwVersionMajor ← get UInt8 payload 96
  let hwVersionMinor ← get UInt8 payload 97
  let swVersionMajor ← get UInt8 payload 114
  let swVersionMinor ← get UInt8 payload 115
  .ok { timeUsec, uptimeSec, name, hwVersionMajor, hwVersionMinor,
        hwUniqueId := slice payload 98 16, swVersionMajor, swVersionMinor, swVcsCommit }

/-! ## Dispatch -/

def messageIdFor (D : Dialect) : MavlinkMessage → Except Thrown ℕ
  | .HEARTBEAT _ => .ok HEARTBEAT
  | .SYS_STATUS _ => .ok SYS_STATUS
  | .GPS_RAW_INT _ => .ok GPS_RAW_INT
  | .GLOBAL_POSITION_INT _ => .ok GLOBAL_POSITION_INT
  | .PARAM_REQUEST_LIST _ => .ok PARAM_REQUEST_LIST
  | .PARAM_REQUEST_READ _ => .ok PARAM_REQUEST_READ
  | .PARAM_VALUE _ => .ok PARAM_VALUE
  | .PARAM_SET _ => .ok PARAM_SET
  | .SCALED_IMU _ => .ok SCALED_IMU
  | .ATTITUDE _ => .ok ATTITUDE
  | .RC_CHANNELS _ => .ok RC_CHANNELS
  | .RC_CHANNELS_RAW _ => .ok RC_CHANNELS_RAW
  | .SERVO_OUTPUT_RAW _ => .ok SERVO_OUTPUT_RAW
  | .FILE_TRANSFER_PROTOCOL _ => .ok FILE_TRANSFER_PROTOCOL
  | .COMMAND_ACK _ => .ok COMMAND_ACK
  | .COMMAND_LONG _ => .ok COMMAND_LONG
  | .GPS_INPUT _ => .ok GPS_INPUT
  | .AUTOPILOT_VERSION _ => .ok AUTOPILOT_VERSION
  | .STATUSTEXT _ => .ok STATUSTEXT
  | .LOG_ERASE _ => .ok LOG_ERASE
  | .LOG_REQUEST_LIST _ => .ok LOG_REQUEST_LIST
  | .LOG_ENTRY _ => .ok LOG_ENTRY
  | .LOG_REQUEST_DATA _ => .ok LOG_REQUEST_DATA
  | .LOG_DATA _ => .ok LOG_DATA
  | .LOG_REQUEST_END _ => .ok LOG_REQUEST_END
  | .MAG_CAL_PROGRESS _ => .ok MAG_CAL_PROGRESS
  | .MAG_CAL_REPORT _ => .ok MAG_CAL_REPORT
  | .UAVCAN_NODE_STATUS _ => .ok UAVCAN_NODE_STATUS
  | .UAVCAN_NODE_INFO _ => .ok UAVCAN_NODE_INFO
  | .OPTICAL_FLOW _ => .ok OPTICAL_FLOW
  | .DISTANCE_SENSOR _ => .ok DISTANCE_SENSOR
  | .ESC_TELEMETRY message =>
      .ok <| if 8 ≤ message.groupStartIndex then ESC_TELEMETRY_9_TO_12
        else if 4 ≤ message.groupStartIndex then ESC_TELEMETRY_5_TO_8
        else ESC_TELEMETRY_1_TO_4
  | .CAN_FRAME _ => .ok CAN_FRAME
  | .CANFD_FRAME _ => .ok CANFD_FRAME
  | .SETUP_SIGNING _ => .ok SETUP_SIGNING
  | .GENERIC message =>
      match D.MAVLINK_GENERIC_ID_BY_NAME message.name with
      | some id => .ok id
      | none => .error (.error s!"Unknown MAVLink message {message.name}.")
  | .ATTITUDE_QUATERNION _ | .AVAILABLE_MODE _ | .AVAILABLE_MODES_MONITOR _ =>
      .error (.error "Unsupported MAVLink message.")

def encodePayload (D : Dialect) : MavlinkMessage → Except Thrown Bytes
  | .HEARTBEAT message => encodeHeartbeatPayload message
  | .SYS_STATUS message => encodeSysStatusPayload message
  | .GPS_RAW_INT message => encodeGpsRawIntPayload message
  | .GLOBAL_POSITION_INT message => encodeGlobalPositionIntPayload message
  | .PARAM_REQUEST_LIST message => encodeParamRequestListPayload message
  | .PARAM_REQUEST_READ message => encodeParamRequestReadPayload message
  | .PARAM_VALUE message => encodeParamValuePayload message
  | .PARAM_SET message => encodeParamSetPayload message
  | .ATTITUDE message => encodeAttitudePayload message
  | .RC_CHANNELS message => encodeRcChannelsPayload message
  | .RC_CHANNELS_RAW message => encodeRcChannelsRawPayload message
  | .SERVO_OUTPUT_RAW message => encodeServoOutputRawPayload message
  | .FILE_TRANSFER_PROTOCOL message => encodeFileTransferProtocolPayload message
  | .COMMAND_ACK message => encodeCommandAckPayload message
  | .COMMAND_LONG message => encodeCommandLongPayload message
  | .GPS_INPUT message => encodeGpsInputPayload message
  | .AUTOPILOT_VERSION message => encodeAutopilotVersionPayload message
  | .STATUSTEXT message => encodeStatusTextPayload message
  | .LOG_REQUEST_LIST message => encodeLogRequestListPayload message
  | .LOG_ENTRY message => encodeLogEntryPayload message
  | .LOG_REQUEST_DATA message => encodeLogRequestDataPayload message
  | .LOG_DATA message => encodeLogDataPayload message
  | .LOG_REQUEST_END message => encodeLogRequestEndPayload message
  | .LOG_ERASE message => encodeLogErasePayload message
  | .MAG_CAL_PROGRESS message => encodeMagCalProgressPayload message
  | .MAG_CAL_REPORT message => encodeMagCalReportPayload message
  | .UAVCAN_NODE_STATUS message => encodeUavcanNodeStatusPayload message
  | .UAVCAN_NODE_INFO message => encodeUavcanNodeInfoPayload message
  | .OPTICAL_FLOW message => encodeOpticalFlowPayload message
  | .DISTANCE_SENSOR message => encodeDistanceSensorPayload message
  | .ESC_TELEMETRY message => encodeEscTelemetryPayload message
  | .CAN_FRAME message => encodeCanFramePayload message
  | .CANFD_FRAME message => encodeCanFdFramePayload message
  | .SETUP_SIGNING message => encodeSetupSigningPayload message
  | .SCALED_IMU message => encodeScaledImuPayload message
  | .GENERIC message => encodeGenericPayload D message.name message.fields
  | .ATTITUDE_QUATERNION _ | .AVAILABLE_MODE _ | .AVAILABLE_MODES_MONITOR _ =>
      .error (.error "Unsupported MAVLink message for encoding.")

/-- The decoders `decodePayload` dispatches to by message id. -/
def payloadDecoders : List (ℕ × (Bytes → Except Thrown MavlinkMessage)) :=
  [(HEARTBEAT, fun payload => .HEARTBEAT <$> decodeHeartbeatPayload payload),
    (SYS_STATUS, fun payload => .SYS_STATUS <$> decodeSysStatusPayload payload),
    (GPS_RAW_INT, fun payload => .GPS_RAW_INT <$> decodeGpsRawIntPayload payload),
    (GLOBAL_POSITION_INT,
      fun payload => .GLOBAL_POSITION_INT <$> decodeGlobalPositionIntPayload payload),
    (PARAM_REQUEST_LIST,
      fun payload => .PARAM_REQUEST_LIST <$> decodeParamRequestListPayload payload),
    (PARAM_REQUEST_READ,
      fun payload => .PARAM_REQUEST_READ <$> decodeParamRequestReadPayload payload),
    (PARAM_VALUE, fun payload => .PARAM_VALUE <$> decodeParamValuePayload payload),
    (PARAM_SET, fun payload => .PARAM_SET <$> decodeParamSetPayload payload),
    (ATTITUDE, fun payload => .ATTITUDE <$> decodeAttitudePayload payload),
    (ATTITUDE_QUATERNION,
      fun payload => .ATTITUDE_QUATERNION <$> decodeAttitudeQuaternionPayload payload),
    (SCALED_IMU, fun payload => .SCALED_IMU <$> decodeScaledImuPayload payload),
    (RC_CHANNELS, fun payload => .RC_CHANNELS <$> decodeRcChannelsPayload payload),
    (RC_CHANNELS_RAW, fun payload => .RC_CHANNELS_RAW <$> decodeRcChannelsRawPayload payload),
    (SERVO_OUTPUT_RAW, fun payload => .SERVO_OUTPUT_RAW <$> decodeServoOutputRawPayload payload),
    (FILE_TRANSFER_PROTOCOL,
      fun payload => .FILE_TRANSFER_PROTOCOL <$> decodeFileTransferProtocolPayload payload),
    (COMMAND_ACK, fun payload => .COMMAND_ACK <$> decodeCommandAckPayload payload),
    (COMMAND_LONG, fun payload => .COMMAND_LONG <$> decodeCommandLongPayload payload),
    (AUTOPILOT_VERSION,
      fun payload => .AUTOPILOT_VERSION <$> decodeAutopilotVersionPayload payload),
    (STATUSTEXT, fun payload => .STATUSTEXT <$> decodeStatusTextPayload payload),
    (LOG_REQUEST_LIST, fun payload => .LOG_REQUEST_LIST <$> decodeLogRequestListPayload payload),
    (LOG_ENTRY, fun payload => .LOG_ENTRY <$> decodeLogEntryPayload payload),
    (LOG_REQUEST_DATA, fun payload => .LOG_REQUEST_DATA <$> decodeLogRequestDataPayload payload),
    (LOG_DATA, fun payload => .LOG_DATA <$> decodeLogDataPayload payload),
    (LOG_REQUEST_END, fun payload => .LOG_REQUEST_END <$> decodeLogRequestEndPayload payload),
    (LOG_ERASE, fun payload => .LOG_ERASE <$> decodeLogErasePayload payload),
    (MAG_CAL_PROGRESS, fun payload => .MAG_CAL_PROGRESS <$> decodeMagCalProgressPayload payload),
    (MAG_CAL_REPORT, fun payload => .MAG_CAL_REPORT <$> decodeMagCalReportPayload payload),
    (UAVCAN_NODE_STATUS,
      fun payload => .UAVCAN_NODE_STATUS <$> decodeUavcanNodeStatusPayload payload),
    (UAVCAN_NODE_INFO, fun payload => .UAVCAN_NODE_INFO <$> decodeUavcanNodeInfoPayload payload),
    (OPTICAL_FLOW, fun payload => .OPTICAL_FLOW <$> decodeOpticalFlowPayload payload),
    (DISTANCE_SENSOR, fun payload => .DISTANCE_SENSOR <$> decodeDistanceSensorPayload payload),
    (ESC_TELEMETRY_1_TO_4, fun payload => .ESC_TELEMETRY <$> decodeEscTelemetryPayload payload 0),
    (ESC_TELEMETRY_5_TO_8, fun payload => .ESC_TELEMETRY <$> decodeEscTelemetryPayload payload 4),
    (ESC_TELEMETRY_9_TO_12,
      fun payload => .ESC_TELEMETRY <$> decodeEscTelemetryPayload payload 8),
    (AVAILABLE_MODES, fun payload => .AVAILABLE_MODE <$> decodeAvailableModePayload payload),
    (AVAILABLE_MODES_MONITOR,
      fun payload => .AVAILABLE_MODES_MONITOR <$> decodeAvailableModesMonitorPayload payload),
    (CAN_FRAME, fun payload => .CAN_FRAME <$> decodeCanFramePayload payload),
    (CANFD_FRAME, fun payload => .CANFD_FRAME <$> decodeCanFdFramePayload payload)]

/-- An id of the hand-entered table that nothing decodes is dropped; any other id goes through the
dialect. -/
def decodePayload (D : Dialect) (messageId : ℕ) (payload : Bytes) :
    Except Thrown (Option MavlinkMessage) :=
  match payloadDecoders.lookup messageId with
  | some decode => some <$> decode payload
  | none =>
      match MAVLINK_MESSAGE_CRCS messageId with
      | some _ => .ok none
      | none => do
          let message ← decodeGenericPayload D messageId payload
          .ok (message.map .GENERIC)

end ArduConfigurator.Mavlink
