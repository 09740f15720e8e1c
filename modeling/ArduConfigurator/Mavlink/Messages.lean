import ArduConfigurator.Lib.LittleEndian

/-! # MAVLink messages

`messages.ts`. A field has the wire type its setter and getter name; a float is its bit pattern. -/
namespace ArduConfigurator.Mavlink
set_option autoImplicit false

abbrev Float32Bits := UInt32

structure HeartbeatMessage where
  autopilot : UInt8
  vehicleType : UInt8
  baseMode : UInt8
  customMode : UInt32
  systemStatus : UInt8
  mavlinkVersion : UInt8
  deriving DecidableEq

structure ParamValueMessage where
  paramId : String
  paramValue : Float32Bits
  paramType : UInt8
  paramCount : UInt16
  paramIndex : UInt16
  deriving DecidableEq

structure StatusTextMessage where
  severity : UInt8
  text : String
  statusId : UInt16
  chunkSequence : UInt8
  deriving DecidableEq

structure RcChannelsMessage where
  timeBootMs : UInt32
  channelCount : UInt8
  channels : List UInt16
  rssi : UInt8
  deriving DecidableEq

structure RcChannelsRawMessage where
  timeBootMs : UInt32
  port : UInt8
  channels : List UInt16
  rssi : UInt8
  deriving DecidableEq

structure ServoOutputRawMessage where
  timeUsec : UInt32
  port : UInt8
  servos : List UInt16
  deriving DecidableEq

structure SysStatusMessage where
  sensorsPresent : UInt32
  sensorsEnabled : UInt32
  sensorsHealth : UInt32
  load : UInt16
  voltageBatteryMv : UInt16
  currentBatteryCa : Int16
  batteryRemaining : Int8
  dropRateComm : UInt16
  errorsComm : UInt16
  errorsCount1 : UInt16
  errorsCount2 : UInt16
  errorsCount3 : UInt16
  errorsCount4 : UInt16
  sensorsPresentExtended : UInt32
  sensorsEnabledExtended : UInt32
  sensorsHealthExtended : UInt32
  deriving DecidableEq

/-- `timeUsec` is a JavaScript number read off a 64-bit field. -/
structure GpsRawIntMessage where
  timeUsec : ℕ
  fixType : UInt8
  latitudeE7 : Int32
  longitudeE7 : Int32
  altitudeMm : Int32
  eph : UInt16
  epv : UInt16
  vel : UInt16
  cog : UInt16
  satellitesVisible : UInt8
  deriving DecidableEq

structure GlobalPositionIntMessage where
  timeBootMs : UInt32
  latitudeE7 : Int32
  longitudeE7 : Int32
  altitudeMm : Int32
  relativeAltitudeMm : Int32
  velocityXcms : Int16
  velocityYcms : Int16
  velocityZcms : Int16
  headingCdeg : UInt16
  deriving DecidableEq

structure AccelMg where
  x : Int16
  y : Int16
  z : Int16
  deriving DecidableEq

structure ScaledImuMessage where
  timeBootMs : UInt32
  accelMg : AccelMg
  temperatureCdeg : Int16
  deriving DecidableEq

structure AttitudeMessage where
  timeBootMs : UInt32
  rollRad : Float32Bits
  pitchRad : Float32Bits
  yawRad : Float32Bits
  rollSpeedRadS : Float32Bits
  pitchSpeedRadS : Float32Bits
  yawSpeedRadS : Float32Bits
  deriving DecidableEq

structure AttitudeQuaternionMessage where
  timeBootMs : UInt32
  qw : Float32Bits
  qx : Float32Bits
  qy : Float32Bits
  qz : Float32Bits
  rollSpeedRadS : Float32Bits
  pitchSpeedRadS : Float32Bits
  yawSpeedRadS : Float32Bits
  deriving DecidableEq

structure FileTransferProtocolMessage where
  targetNetwork : UInt8
  targetSystem : UInt8
  targetComponent : UInt8
  payload : Bytes
  deriving DecidableEq

structure ParamRequestListMessage where
  targetSystem : UInt8
  targetComponent : UInt8
  deriving DecidableEq

structure ParamRequestReadMessage where
  targetSystem : UInt8
  targetComponent : UInt8
  paramId : String
  paramIndex : Int16
  deriving DecidableEq

structure ParamSetMessage where
  targetSystem : UInt8
  targetComponent : UInt8
  paramId : String
  paramValue : Float32Bits
  paramType : UInt8
  deriving DecidableEq

structure CommandAckMessage where
  command : UInt16
  result : UInt8
  progress : UInt8
  resultParam2 : Int32
  targetSystem : UInt8
  targetComponent : UInt8
  deriving DecidableEq

structure CommandLongMessage where
  command : UInt16
  targetSystem : UInt8
  targetComponent : UInt8
  confirmation : UInt8
  params : List Float32Bits
  deriving DecidableEq

structure GpsInputMessage where
  gpsId : UInt8
  ignoreFlags : UInt16
  fixType : UInt8
  latitudeE7 : Int32
  longitudeE7 : Int32
  altitudeM : Float32Bits
  hdop : Float32Bits
  vdop : Float32Bits
  satellitesVisible : UInt8
  deriving DecidableEq

structure AutopilotVersionMessage where
  capabilities : UInt64
  flightSwVersion : UInt32
  middlewareSwVersion : UInt32
  osSwVersion : UInt32
  boardVersion : UInt32
  flightCustomVersion : Bytes
  middlewareCustomVersion : Bytes
  osCustomVersion : Bytes
  vendorId : UInt16
  productId : UInt16
  uid : UInt64
  uid2 : Option Bytes
  deriving DecidableEq

structure LogRequestListMessage where
  targetSystem : UInt8
  targetComponent : UInt8
  start : UInt16
  «end» : UInt16
  deriving DecidableEq

structure LogEntryMessage where
  timeUtc : UInt32
  size : UInt32
  id : UInt16
  numLogs : UInt16
  lastLogNum : UInt16
  deriving DecidableEq

structure LogRequestDataMessage where
  targetSystem : UInt8
  targetComponent : UInt8
  id : UInt16
  ofs : UInt32
  count : UInt32
  deriving DecidableEq

structure LogDataMessage where
  id : UInt16
  ofs : UInt32
  count : UInt8
  data : Bytes
  deriving DecidableEq

structure LogRequestEndMessage where
  targetSystem : UInt8
  targetComponent : UInt8
  deriving DecidableEq

structure LogEraseMessage where
  targetSystem : UInt8
  targetComponent : UInt8
  deriving DecidableEq

structure MagCalProgressMessage where
  compassId : UInt8
  calMask : UInt8
  calStatus : UInt8
  attempt : UInt8
  completionPct : UInt8
  completionMask : Bytes
  directionX : Float32Bits
  directionY : Float32Bits
  directionZ : Float32Bits
  deriving DecidableEq

structure MagCalReportMessage where
  compassId : UInt8
  calMask : UInt8
  calStatus : UInt8
  autosaved : UInt8
  fitness : Float32Bits
  ofsX : Float32Bits
  ofsY : Float32Bits
  ofsZ : Float32Bits
  diagX : Float32Bits
  diagY : Float32Bits
  diagZ : Float32Bits
  offdiagX : Float32Bits
  offdiagY : Float32Bits
  offdiagZ : Float32Bits
  orientationConfidence : Float32Bits
  oldOrientation : UInt8
  newOrientation : UInt8
  scaleFactor : Float32Bits
  deriving DecidableEq

structure OpticalFlowMessage where
  timeUsec : UInt64
  sensorId : UInt8
  flowX : Int16
  flowY : Int16
  flowCompMx : Float32Bits
  flowCompMy : Float32Bits
  groundDistance : Float32Bits
  quality : UInt8
  flowRateX : Float32Bits
  flowRateY : Float32Bits
  deriving DecidableEq

structure DistanceSensorMessage where
  timeBootMs : UInt32
  minDistanceCm : UInt16
  maxDistanceCm : UInt16
  currentDistanceCm : UInt16
  sensorType : UInt8
  id : UInt8
  orientation : UInt8
  covariance : UInt8
  horizontalFov : Float32Bits
  verticalFov : Float32Bits
  signalQuality : UInt8
  deriving DecidableEq

structure AvailableModeMessage where
  numberModes : UInt8
  modeIndex : UInt8
  standardMode : UInt8
  customMode : UInt32
  properties : UInt32
  name : String
  deriving DecidableEq

structure AvailableModesMonitorMessage where
  sequence : UInt8
  deriving DecidableEq

/-- `groupStartIndex` is not a field of the wire: it names the message id. -/
structure EscTelemetryMessage where
  groupStartIndex : ℕ
  temperatureC : List UInt8
  voltageCv : List UInt16
  currentCa : List UInt16
  totalCurrentMah : List UInt16
  rpm : List UInt16
  count : List UInt16
  deriving DecidableEq

structure UavcanNodeStatusMessage where
  timeUsec : UInt64
  uptimeSec : UInt32
  health : UInt8
  mode : UInt8
  subMode : UInt8
  vendorSpecificStatusCode : UInt16
  deriving DecidableEq

structure UavcanNodeInfoMessage where
  timeUsec : UInt64
  uptimeSec : UInt32
  name : String
  hwVersionMajor : UInt8
  hwVersionMinor : UInt8
  hwUniqueId : Bytes
  swVersionMajor : UInt8
  swVersionMinor : UInt8
  swVcsCommit : UInt32
  deriving DecidableEq

structure CanFrameMessage where
  targetSystem : UInt8
  targetComponent : UInt8
  bus : UInt8
  len : UInt8
  id : UInt32
  data : Bytes
  deriving DecidableEq

structure CanFdFrameMessage where
  targetSystem : UInt8
  targetComponent : UInt8
  bus : UInt8
  len : UInt8
  id : UInt32
  data : Bytes
  deriving DecidableEq

structure SetupSigningMessage where
  targetSystem : UInt8
  targetComponent : UInt8
  secretKey : Bytes
  initialTimestamp : UInt64
  deriving DecidableEq

/-- A JavaScript number as a generic field holds it: an integer, or the bits of a float field. -/
inductive GenericNumber
  | integer (value : ℤ)
  | float (bits : Float32Bits)
  | double (bits : UInt64)
  deriving DecidableEq

inductive GenericValue
  | number (value : GenericNumber)
  | numbers (values : List GenericNumber)
  | text (value : String)
  deriving DecidableEq

structure GenericMavlinkMessage where
  name : String
  messageId : ℕ
  fields : List (String × GenericValue)
  deriving DecidableEq

inductive MavlinkMessage
  | HEARTBEAT (message : HeartbeatMessage)
  | RC_CHANNELS (message : RcChannelsMessage)
  | RC_CHANNELS_RAW (message : RcChannelsRawMessage)
  | SERVO_OUTPUT_RAW (message : ServoOutputRawMessage)
  | SYS_STATUS (message : SysStatusMessage)
  | OPTICAL_FLOW (message : OpticalFlowMessage)
  | DISTANCE_SENSOR (message : DistanceSensorMessage)
  | AVAILABLE_MODE (message : AvailableModeMessage)
  | AVAILABLE_MODES_MONITOR (message : AvailableModesMonitorMessage)
  | ESC_TELEMETRY (message : EscTelemetryMessage)
  | CAN_FRAME (message : CanFrameMessage)
  | CANFD_FRAME (message : CanFdFrameMessage)
  | GPS_RAW_INT (message : GpsRawIntMessage)
  | GLOBAL_POSITION_INT (message : GlobalPositionIntMessage)
  | ATTITUDE (message : AttitudeMessage)
  | SCALED_IMU (message : ScaledImuMessage)
  | ATTITUDE_QUATERNION (message : AttitudeQuaternionMessage)
  | FILE_TRANSFER_PROTOCOL (message : FileTransferProtocolMessage)
  | PARAM_VALUE (message : ParamValueMessage)
  | PARAM_REQUEST_READ (message : ParamRequestReadMessage)
  | STATUSTEXT (message : StatusTextMessage)
  | PARAM_REQUEST_LIST (message : ParamRequestListMessage)
  | PARAM_SET (message : ParamSetMessage)
  | COMMAND_ACK (message : CommandAckMessage)
  | COMMAND_LONG (message : CommandLongMessage)
  | GPS_INPUT (message : GpsInputMessage)
  | AUTOPILOT_VERSION (message : AutopilotVersionMessage)
  | LOG_REQUEST_LIST (message : LogRequestListMessage)
  | LOG_ENTRY (message : LogEntryMessage)
  | LOG_REQUEST_DATA (message : LogRequestDataMessage)
  | LOG_DATA (message : LogDataMessage)
  | LOG_REQUEST_END (message : LogRequestEndMessage)
  | LOG_ERASE (message : LogEraseMessage)
  | MAG_CAL_PROGRESS (message : MagCalProgressMessage)
  | MAG_CAL_REPORT (message : MagCalReportMessage)
  | UAVCAN_NODE_STATUS (message : UavcanNodeStatusMessage)
  | UAVCAN_NODE_INFO (message : UavcanNodeInfoMessage)
  | SETUP_SIGNING (message : SetupSigningMessage)
  | GENERIC (message : GenericMavlinkMessage)
  deriving DecidableEq

structure MavlinkHeader where
  systemId : UInt8
  componentId : UInt8
  sequence : UInt8

/-- An envelope without `timestampMs`, the wall clock at its decoding. -/
structure MavlinkEnvelope where
  header : MavlinkHeader
  message : MavlinkMessage
  byteLength : ℕ

end ArduConfigurator.Mavlink
