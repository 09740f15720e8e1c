import ArduConfigurator.Parameters.Backup
import ArduConfigurator.Parameters.WriteTolerance
import ArduConfigurator.Lib.Runs

/-! # Parameter writes

The runtime's table of parameters as the autopilot streams it, the other names under which renamed
parameters are shown, and writes that wait for the autopilot to read the value back. -/
namespace ArduConfigurator.Runtime
open Parameters
set_option autoImplicit false

/-! ## Renamed parameters -/

def LEGACY_PARAM_ALIASES : Entries Text Text :=
  [(units "GPS_TYPE", units "GPS1_TYPE"),
   (units "GPS_TYPE2", units "GPS2_TYPE"),
   (units "GPS_RATE_MS", units "GPS1_RATE_MS"),
   (units "GPS_GNSS_MODE", units "GPS1_GNSS_MODE"),
   (units "ARSPD_FBW_MIN", units "AIRSPEED_MIN"),
   (units "ARSPD_FBW_MAX", units "AIRSPEED_MAX"),
   (units "Q_A_RATE_RLL_MAX", units "Q_A_RATE_R_MAX"),
   (units "Q_A_RATE_PIT_MAX", units "Q_A_RATE_P_MAX"),
   (units "Q_A_RATE_YAW_MAX", units "Q_A_RATE_Y_MAX"),
   (units "TURN_MAX_G", units "ATC_TURN_MAX_G"),
   (units "SYSID_THISMAV", units "MAV_SYSID"),
   (units "SYSID_MYGCS", units "MAV_GCS_SYSID"),
   (units "MODE_CH", units "FLTMODE_CH"),
   (units "CAM_SERVO_ON", units "CAM1_SERVO_ON"),
   (units "CAM_SERVO_OFF", units "CAM1_SERVO_OFF")]

def MODERN_TO_LEGACY_ALIASES : Entries Text Text := LEGACY_PARAM_ALIASES.map Prod.swap

def aliasMirror (paramId : Text) : Option Text :=
  (MODERN_TO_LEGACY_ALIASES.get paramId).or (LEGACY_PARAM_ALIASES.get paramId)

/-! ## The data -/

structure ParamValueMessage where
  paramId : Text
  paramValue : JsNumber
  paramIndex : ℕ
  paramCount : ℕ
  paramType : ℕ

structure TableParameter extends ParameterState where
  index : ℕ
  count : ℕ
  paramType : ℕ

structure VehicleAddress where
  systemId : ℕ
  componentId : ℕ

structure ParamSetMessage where
  targetSystem : ℕ
  targetComponent : ℕ
  paramId : Text
  paramValue : JsNumber
  paramType : ℕ

def REAL32 : ℕ := 9

structure ParameterValueWaiter where
  handle : ℕ
  paramId : Text
  expectedValue : JsNumber
  tolerance : JsNumber

inductive Verification
  | resolved (parameter : TableParameter)
  | rejected (reason : Text)

/-- The part of the runtime that writes and streamed values touch. `handle` numbers the writes;
`settled` and `sent` record what became of the waiters and what went out. -/
structure Writes where
  vehicle : Option VehicleAddress
  parameters : JsMap Text TableParameter
  realParameterIdsReceived : List Text
  parameterSyncResumedTotal : Option ℕ
  waiters : List ParameterValueWaiter
  handle : ℕ
  settled : List (ParameterValueWaiter × Verification)
  sent : List ParamSetMessage

def Writes.initial : Writes := ⟨none, JsMap.empty, [], none, [], 0, [], []⟩

namespace Writes
variable (metadata : Text → Option ParameterDefinition) (w : Writes)

/-! ## Waiters -/

def settle (settles : ParameterValueWaiter → Bool) (verification : Verification) : Writes :=
  { w with
    waiters := w.waiters.filter fun waiter => !settles waiter
    settled := w.settled ++ (w.waiters.filter settles).map fun waiter => (waiter, verification) }

def Matches (parameter : TableParameter) (waiter : ParameterValueWaiter) : Bool :=
  waiter.paramId = parameter.id ∧
    approximatelyEqualParameterValue parameter.value waiter.expectedValue waiter.tolerance

def resolve (parameter : TableParameter) : Writes :=
  w.settle (Matches parameter) (.resolved parameter)

def reject (handle : ℕ) (reason : Text) : Writes :=
  w.settle (fun waiter => waiter.handle = handle) (.rejected reason)

def rejectAll (reason : Text) : Writes := w.settle (fun _ => true) (.rejected reason)

/-! ## Streamed values -/

def clearTable : Writes :=
  { w with parameters := JsMap.empty, realParameterIdsReceived := [] }

def reconcileResumedParameterTable (paramCount : ℕ) : Writes :=
  match w.parameterSyncResumedTotal with
  | none => w
  | some resumedTotal =>
    let w := { w with parameterSyncResumedTotal := none }
    if paramCount = resumedTotal then w else w.clearTable

def entryOf (message : ParamValueMessage) (id : Text) (aliasedFrom : Option Text) :
    TableParameter where
  id := id
  value := message.paramValue
  definition := metadata id
  aliasedFrom := aliasedFrom
  index := message.paramIndex
  count := message.paramCount
  paramType := message.paramType

def addReal (paramId : Text) : Writes :=
  if paramId ∈ w.realParameterIdsReceived then w
  else { w with realParameterIdsReceived := w.realParameterIdsReceived ++ [paramId] }

def setEntry (id : Text) (entry : TableParameter) : Writes :=
  { w with parameters := w.parameters.set id entry }

def processParamValue (message : ParamValueMessage) : Writes :=
  let w := (w.reconcileResumedParameterTable message.paramCount).addReal message.paramId
  let parameterState := entryOf metadata message message.paramId none
  let w := (w.setEntry message.paramId parameterState).resolve parameterState
  match aliasMirror message.paramId with
  | none => w
  | some mirror => w.setEntry mirror (entryOf metadata message mirror (some message.paramId))

/-! ## Writes -/

def onWireParamId (paramId : Text) : Text :=
  match LEGACY_PARAM_ALIASES.get paramId with
  | some modernAlias => if modernAlias ∈ w.realParameterIdsReceived then modernAlias else paramId
  | none => paramId

def add (paramId : Text) (expectedValue : JsNumber) (tolerance : Option JsNumber) : Writes :=
  { w with
    waiters := w.waiters ++
      [⟨w.handle, paramId, expectedValue, tolerance.getD DEFAULT_PARAMETER_WRITE_TOLERANCE⟩]
    handle := w.handle + 1 }

def paramSet (paramId : Text) (paramValue : JsNumber) : ParamSetMessage where
  targetSystem := (w.vehicle.map (·.systemId)).getD 1
  targetComponent := (w.vehicle.map (·.componentId)).getD 1
  paramId := paramId
  paramValue := paramValue
  paramType := ((w.parameters.get paramId).map (·.paramType)).getD REAL32

/-- A write that is not blocked: the readback is awaited from before the message goes out. -/
def setParameter (paramId : Text) (paramValue : JsNumber) (tolerance : Option JsNumber) :
    Writes :=
  let onWire := w.onWireParamId paramId
  { w.add onWire paramValue tolerance with sent := w.sent ++ [w.paramSet onWire paramValue] }

def skips (paramId : Text) (paramValue : JsNumber) (tolerance : Option JsNumber) : Bool :=
  (w.parameters.get paramId).any fun known => approximatelyEqualParameterValue known.value
    paramValue (tolerance.getD DEFAULT_PARAMETER_WRITE_TOLERANCE)

end Writes

/-! ## Runs -/

inductive WriteEvent
  | heartbeat (vehicle : VehicleAddress)
  | paramValue (message : ParamValueMessage)
  | setParameter (paramId : Text) (paramValue : JsNumber) (tolerance : Option JsNumber)
      (blockReason : Option Text)
  | sendFailed (handle : ℕ) (reason : Text)
  | timedOut (handle : ℕ) (reason : Text)
  | rejectAll (reason : Text)
  | discardStaleLink
  | resumed (total : Option ℕ)
  | resetLiveState

/-- The runtime reacts to an event; a write that is blocked throws and does nothing. -/
def Writes.step (metadata : Text → Option ParameterDefinition) (w : Writes) :
    WriteEvent → Option Writes
  | .heartbeat vehicle => some { w with vehicle := some (w.vehicle.getD vehicle) }
  | .paramValue message => some (w.processParamValue metadata message)
  | .setParameter paramId paramValue tolerance blockReason =>
    match blockReason with
    | some _ => some w
    | none => some (w.setParameter paramId paramValue tolerance)
  | .sendFailed handle reason => some (w.reject handle reason)
  | .timedOut handle reason => some (w.reject handle reason)
  | .rejectAll reason => some (w.rejectAll reason)
  | .discardStaleLink => some w.clearTable
  | .resumed total => some { w with parameterSyncResumedTotal := total }
  | .resetLiveState => some { w with vehicle := none, parameterSyncResumedTotal := none }

end ArduConfigurator.Runtime
