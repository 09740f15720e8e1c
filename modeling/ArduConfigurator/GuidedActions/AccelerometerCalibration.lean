import ArduConfigurator.Lib.JsArithmetic
import ArduConfigurator.GuidedActions.CompassCalibration

/-! # The accelerometer calibration

The action `calibrate-accelerometer` of `runtime-guided-action-service.ts`. The autopilot asks for
one pose after another; the operator confirms a pose, or the action does once the attitude has been
in it for a while. An event is one turn of the event loop; `history` records the prompts, the
attitude samples and the confirmations in their order. -/
namespace ArduConfigurator.GuidedActions
set_option autoImplicit false
open Runs

/-! ## Poses -/

section Poses
/-- `Math.sin`, `Math.cos` and `Math.acos`. -/
structure Trigonometry where
  sin : JsNumber → JsNumber
  cos : JsNumber → JsNumber
  acos : JsNumber → JsNumber

structure Attitude where
  rollDeg : JsNumber
  pitchDeg : JsNumber
  deriving DecidableEq

inductive AccelerometerPoseId
  | level | left | right | noseDown | noseUp | back

def ACCELEROMETER_POSE_ORDER : List AccelerometerPoseId :=
  [.level, .left, .right, .noseDown, .noseUp, .back]

def ACCELEROMETER_POSE_TARGETS : AccelerometerPoseId → Attitude
  | .level => ⟨0, 0⟩
  | .left => ⟨-90, 0⟩
  | .right => ⟨90, 0⟩
  | .noseDown => ⟨0, -90⟩
  | .noseUp => ⟨0, 90⟩
  | .back => ⟨180, 0⟩

def ACCELEROMETER_POSE_ALIGNED_DEG : JsNumber := 17

/-- From `runtime-guided-action-service.ts`. -/
def ACCELEROMETER_AUTO_STILL_DEG : JsNumber := 15

def PI : JsNumber := 3.141592653589793

def DEG2RAD : JsNumber := PI / 180

def RAD2DEG : JsNumber := 180 / PI

def normalizeSignedDegrees (value : JsNumber) : JsNumber :=
  let normalized := value % 360
  if JsNumber.lt 180 normalized then normalized - 360
  else if JsNumber.lt normalized (-180) then normalized + 360
  else normalized

structure Gravity where
  x : JsNumber
  y : JsNumber
  z : JsNumber

variable (math : Trigonometry)

def gravityBody (attitude : Attitude) : Gravity :=
  let r := attitude.rollDeg * DEG2RAD
  let p := attitude.pitchDeg * DEG2RAD
  ⟨-math.sin p, math.sin r * math.cos p, math.cos r * math.cos p⟩

def angleDegrees (a b : Gravity) : JsNumber :=
  let dot := a.x * b.x + a.y * b.y + a.z * b.z
  math.acos (JsNumber.max (-1) (JsNumber.min 1 dot)) * RAD2DEG

def poseErrorDegrees (poseId : AccelerometerPoseId) (attitude : Attitude) : JsNumber :=
  angleDegrees math (gravityBody math attitude)
    (gravityBody math (ACCELEROMETER_POSE_TARGETS poseId))

def attitudeDeltaDegrees (a b : Attitude) : JsNumber :=
  angleDegrees math (gravityBody math a) (gravityBody math b)

def isAligned (stepIndex : ℕ) (attitude : Attitude) : Bool :=
  !JsNumber.lt ACCELEROMETER_POSE_ALIGNED_DEG
    (poseErrorDegrees math (ACCELEROMETER_POSE_ORDER.getD stepIndex .level) attitude)

def isStill (a b : Attitude) : Bool :=
  !JsNumber.lt ACCELEROMETER_AUTO_STILL_DEG (attitudeDeltaDegrees math a b)

end Poses

/-! ## Steps -/

/-- The command values of the steps; each is the prompt for the pose in its place. -/
def ACCELEROMETER_CALIBRATION_STEPS : List JsNumber := [1, 2, 3, 4, 5, 6]

def ACCELCAL_SUCCESS_VALUE : JsNumber := 16777215
def ACCELCAL_FAILED_VALUE : JsNumber := 16777216

structure AccelerometerOptions where
  accelerometerAutoHoldMs : ℚ
  accelerometerLateStartResumeWindowMs : ℚ

structure AccelerometerCalibrationProgressState where
  stepIndex : ℕ
  waitingForCompletion : Bool
  /-- The autopilot itself asked for the step. -/
  promptedByVehicle : Bool
  deriving DecidableEq

structure AccelerometerHold where
  stepIndex : ℕ
  sinceMs : ℚ
  attitude : Attitude

/-- What `accelerometerAdvanceTimer` runs when it fires. -/
inductive AdvanceTimer
  | stepAdvance (stepIndex : ℕ)
  | completionFallback (stepIndex : ℕ)

inductive Entry
  | prompt (stepIndex : ℕ)
  | sample (atMs : ℚ) (attitude : Attitude)
  | confirmed (stepIndex : ℕ) (automatic : Bool)
  deriving DecidableEq

inductive StartOutcome
  | accepted
  | timedOut
  | rejected

/-- `startsPending` calls wait for the acknowledgement of PREFLIGHT_CALIBRATION, and
`confirmationsPending` for a confirmation of a step to be sent, automatic or not. -/
structure AccelerometerCalibration where
  status : GuidedActionStatus
  accelerometerCalibration : Option AccelerometerCalibrationProgressState
  accelerometerStartTimedOutAtMs : Option ℚ
  accelerometerPromptFallbackTimer : Option ℕ
  accelerometerAdvanceTimer : Option AdvanceTimer
  accelerometerPromptWatchdogTimer : Bool
  accelerometerHold : Option AccelerometerHold
  accelerometerAutoConfirmInFlight : Bool
  startsPending : ℕ
  confirmationsPending : List (ℕ × Bool)
  history : List Entry

/-- The acknowledgements and prompts are those of the vehicle, and a status text is one about the
action, with the status that it gives. -/
inductive AccelerometerEvent
  | run
  | startAccepted (nowMs : ℚ)
  | startReturned (outcome : StartOutcome) (nowMs : ℚ)
  | commandLong (param1 : Option JsNumber) (nowMs : ℚ)
  | attitudeSample (rollDeg pitchDeg : Option JsNumber) (nowMs : ℚ)
  | confirmationReturned (index : ℕ) (sent : Bool)
  | statusText (status : GuidedActionStatus)
  | promptFallback
  | advance
  | promptWatchdog
  | cancel
  | vehicleRestart
  | reset

namespace AccelerometerCalibration

def initial : AccelerometerCalibration where
  status := .idle
  accelerometerCalibration := none
  accelerometerStartTimedOutAtMs := none
  accelerometerPromptFallbackTimer := none
  accelerometerAdvanceTimer := none
  accelerometerPromptWatchdogTimer := false
  accelerometerHold := none
  accelerometerAutoConfirmInFlight := false
  startsPending := 0
  confirmationsPending := []
  history := []

variable (options : AccelerometerOptions) (math : Trigonometry) (s : AccelerometerCalibration)

def isActive : Bool := s.status = .requested || s.status = .running

def record (entry : Entry) : AccelerometerCalibration :=
  { s with history := s.history ++ [entry] }

def clearAccelerometerPromptFallbackTimer : AccelerometerCalibration :=
  { s with accelerometerPromptFallbackTimer := none }

def clearAccelerometerAdvanceTimer : AccelerometerCalibration :=
  { s with accelerometerHold := none, accelerometerAdvanceTimer := none }

def abandonStep : AccelerometerCalibration :=
  { s.clearAccelerometerPromptFallbackTimer.clearAccelerometerAdvanceTimer with
    accelerometerCalibration := none }

def failAction : AccelerometerCalibration :=
  { s with accelerometerPromptWatchdogTimer := false, status := .failed }

def completeAccelerometerCalibration : AccelerometerCalibration :=
  { s.abandonStep with accelerometerPromptWatchdogTimer := false, status := .succeeded }

/-! ## Starting -/

/-- `advanceAccelerometerCalibration` up to the wait for the confirmation to be sent. -/
def advanceAccelerometerCalibration (stepIndex : ℕ) (automatic : Bool) :
    AccelerometerCalibration :=
  if stepIndex < ACCELEROMETER_CALIBRATION_STEPS.length then
    let s := s.clearAccelerometerPromptFallbackTimer.clearAccelerometerAdvanceTimer
    { s.record (.confirmed stepIndex automatic) with
      status := .running
      accelerometerCalibration := some ⟨stepIndex, false, false⟩
      confirmationsPending := s.confirmationsPending ++ [(stepIndex, automatic)] }
  else s

/-- `runAccelerometerCalibrationAction` up to the wait for the acknowledgement of the start. -/
def startAccelerometerCalibration : AccelerometerCalibration :=
  { s with
    status := .requested
    accelerometerStartTimedOutAtMs := none
    startsPending := s.startsPending + 1 }

def runAccelerometerCalibrationAction : AccelerometerCalibration :=
  match s.accelerometerCalibration with
  | some calibrationState =>
    if s.isActive then s.advanceAccelerometerCalibration calibrationState.stepIndex false
    else s.startAccelerometerCalibration
  | none => s.startAccelerometerCalibration

def markAccelerometerCalibrationStarted : AccelerometerCalibration :=
  { s with
    status := .running
    accelerometerCalibration := some ⟨0, false, false⟩
    accelerometerPromptFallbackTimer := some 0
    accelerometerPromptWatchdogTimer := true }

def canResumeLateAccelerometerStart (nowMs : ℚ) : Bool :=
  s.status = .failed &&
    s.accelerometerStartTimedOutAtMs.any fun timedOutAtMs =>
      nowMs - timedOutAtMs ≤ options.accelerometerLateStartResumeWindowMs

def resumeLateAccelerometerStart : AccelerometerCalibration :=
  { s with accelerometerStartTimedOutAtMs := none }

/-- `handleCommandAck` for an accepted PREFLIGHT_CALIBRATION of the vehicle. -/
def handleStartAccepted (nowMs : ℚ) : AccelerometerCalibration :=
  if s.status = .requested ∧ s.accelerometerCalibration = none then
    s.markAccelerometerCalibrationStarted
  else if s.canResumeLateAccelerometerStart options nowMs then
    s.resumeLateAccelerometerStart.markAccelerometerCalibrationStarted
  else s

def startReturned (outcome : StartOutcome) (nowMs : ℚ) : AccelerometerCalibration :=
  let s := { s with startsPending := s.startsPending - 1 }
  match outcome with
  | .accepted =>
    if s.status = .requested ∧ s.accelerometerCalibration = none then
      s.markAccelerometerCalibrationStarted
    else s
  | .timedOut => { s.abandonStep with accelerometerStartTimedOutAtMs := some nowMs }.failAction
  | .rejected => { s.abandonStep with accelerometerStartTimedOutAtMs := none }.failAction


/-! ## Prompts of the autopilot -/

/-- `Math.round(message.params[0] ?? 0)`. -/
def commandValue (param1 : Option JsNumber) : JsNumber := (param1.getD 0).roundHalfUp

def promptedStep (value : JsNumber) : Option ℕ :=
  ACCELEROMETER_CALIBRATION_STEPS.findIdx? fun stepValue => stepValue.equal value

def recordPrompt (value : JsNumber) : AccelerometerCalibration :=
  match promptedStep value with
  | some stepIndex => s.record (.prompt stepIndex)
  | none => s

def takePrompt (value : JsNumber) : AccelerometerCalibration :=
  let s := { s with accelerometerPromptWatchdogTimer := true }
  if value.equal ACCELCAL_SUCCESS_VALUE then s.completeAccelerometerCalibration
  else if value.equal ACCELCAL_FAILED_VALUE then s.abandonStep.failAction
  else
    match promptedStep value with
    | none => s
    | some stepIndex =>
      if s.accelerometerCalibration = some ⟨stepIndex, false, true⟩ then
        s.clearAccelerometerPromptFallbackTimer
      else
        { s.clearAccelerometerPromptFallbackTimer.clearAccelerometerAdvanceTimer with
          accelerometerCalibration := some ⟨stepIndex, false, true⟩
          status := .running }

/-- `handleCommandLong` for an ACCELCAL_VEHICLE_POS of the vehicle. -/
def handleCommandLong (param1 : Option JsNumber) (nowMs : ℚ) : AccelerometerCalibration :=
  let value := commandValue param1
  let s := s.recordPrompt value
  if s.status = .running then s.takePrompt value
  else if (promptedStep value).isSome ∧ s.canResumeLateAccelerometerStart options nowMs then
    s.resumeLateAccelerometerStart.takePrompt value
  else s

/-! ## Attitude samples -/

/-- The step that a held attitude would confirm: one the autopilot asked for, and not the first. -/
def awaitedStep : Option ℕ :=
  match s.accelerometerCalibration with
  | none => none
  | some state =>
    if state.waitingForCompletion = true ∨ state.promptedByVehicle = false ∨
        s.accelerometerAutoConfirmInFlight = true ∨ s.status ≠ .running ∨ state.stepIndex = 0 ∨
        ACCELEROMETER_POSE_ORDER.length ≤ state.stepIndex then none
    else some state.stepIndex

def judgeSample (attitude : Attitude) (nowMs : ℚ) : AccelerometerCalibration :=
  match s.awaitedStep with
  | none => { s with accelerometerHold := none }
  | some stepIndex =>
    if isAligned math stepIndex attitude then
      match s.accelerometerHold with
      | none => { s with accelerometerHold := some ⟨stepIndex, nowMs, attitude⟩ }
      | some hold =>
        if hold.stepIndex = stepIndex ∧ isStill math hold.attitude attitude then
          if nowMs - hold.sinceMs < options.accelerometerAutoHoldMs then s
          else
            { s with
              accelerometerHold := none
              accelerometerAutoConfirmInFlight := true }.advanceAccelerometerCalibration stepIndex
                true
        else { s with accelerometerHold := some ⟨stepIndex, nowMs, attitude⟩ }
    else { s with accelerometerHold := none }

def handleAttitudeSample (rollDeg pitchDeg : Option JsNumber) (nowMs : ℚ) :
    AccelerometerCalibration :=
  match rollDeg, pitchDeg with
  | some roll, some pitch =>
    if options.accelerometerAutoHoldMs ≤ 0 ∨ roll.isFinite = false ∨ pitch.isFinite = false then s
    else
      let attitude : Attitude := ⟨normalizeSignedDegrees roll, normalizeSignedDegrees pitch⟩
      (s.record (.sample nowMs attitude)).judgeSample options math attitude nowMs
  | _, _ => s

def confirmationReturned (stepIndex : ℕ) (automatic sent : Bool) : AccelerometerCalibration :=
  let s :=
    { s with
      accelerometerAutoConfirmInFlight := !automatic && s.accelerometerAutoConfirmInFlight }
  if sent then
    { s.clearAccelerometerAdvanceTimer with
      accelerometerAdvanceTimer := some (.stepAdvance stepIndex) }
  else s.abandonStep.failAction

/-- A text about the action, as `processStatusText` takes it. -/
def handleStatusText (status : GuidedActionStatus) : AccelerometerCalibration :=
  let s := { s with status }
  match status with
  | .succeeded | .failed => { s.abandonStep with accelerometerPromptWatchdogTimer := false }
  | .running => { s with accelerometerPromptWatchdogTimer := true }
  | .idle | .requested => s

/-! ## Timers, cancelling and resets -/

def onPromptFallback (stepIndex : ℕ) : AccelerometerCalibration :=
  let s := { s with accelerometerPromptFallbackTimer := none }
  match s.accelerometerCalibration with
  | none => s
  | some state =>
    if state.stepIndex ≠ stepIndex ∨ s.status = .failed ∨ s.status = .succeeded then s
    else { s with status := .running }

def onStepAdvance (stepIndex : ℕ) : AccelerometerCalibration :=
  match s.accelerometerCalibration with
  | none => s
  | some state =>
    if state.stepIndex ≠ stepIndex ∨ s.status ≠ .running then s
    else if stepIndex + 1 < ACCELEROMETER_CALIBRATION_STEPS.length then s
    else
      { s.clearAccelerometerAdvanceTimer with
        accelerometerCalibration := some ⟨stepIndex, true, false⟩
        accelerometerAdvanceTimer := some (.completionFallback stepIndex) }

def onAdvance (timer : AdvanceTimer) : AccelerometerCalibration :=
  let s := { s with accelerometerAdvanceTimer := none }
  match timer with
  | .stepAdvance stepIndex => s.onStepAdvance stepIndex
  | .completionFallback _ => s

def onPromptWatchdog : AccelerometerCalibration :=
  let s := { s with accelerometerPromptWatchdogTimer := false }
  if s.status = .running then
    { s.abandonStep with accelerometerStartTimedOutAtMs := none }.failAction
  else s

def cancelAction : AccelerometerCalibration :=
  if s.isActive then
    { s.abandonStep with
      accelerometerPromptWatchdogTimer := false
      accelerometerStartTimedOutAtMs := none
      status := .idle }
  else s

def handleVehicleRestart : AccelerometerCalibration :=
  if s.isActive then
    { s.abandonStep with accelerometerStartTimedOutAtMs := none }.failAction
  else s

def reset : AccelerometerCalibration :=
  { s.abandonStep with
    accelerometerPromptWatchdogTimer := false
    accelerometerStartTimedOutAtMs := none
    status := .idle }

/-! ## Events -/

/-- One turn; a call that does not wait cannot go on, and a timer that is not armed does not fire. A
text about the action sets it going or ends it. -/
def step : AccelerometerEvent → Option AccelerometerCalibration
  | .run => some s.runAccelerometerCalibrationAction
  | .startAccepted nowMs => some (s.handleStartAccepted options nowMs)
  | .startReturned outcome nowMs =>
    if 0 < s.startsPending then some (s.startReturned outcome nowMs) else none
  | .commandLong param1 nowMs => some (s.handleCommandLong options param1 nowMs)
  | .attitudeSample rollDeg pitchDeg nowMs =>
    some (s.handleAttitudeSample options math rollDeg pitchDeg nowMs)
  | .confirmationReturned index sent =>
    s.confirmationsPending[index]?.map fun call =>
      { s with confirmationsPending := s.confirmationsPending.eraseIdx index }.confirmationReturned
        call.1 call.2 sent
  | .statusText status =>
    match status with
    | .running | .succeeded | .failed => some (s.handleStatusText status)
    | .idle | .requested => none
  | .promptFallback => s.accelerometerPromptFallbackTimer.map s.onPromptFallback
  | .advance => s.accelerometerAdvanceTimer.map s.onAdvance
  | .promptWatchdog =>
    if s.accelerometerPromptWatchdogTimer then some s.onPromptWatchdog else none
  | .cancel => some s.cancelAction
  | .vehicleRestart => some s.handleVehicleRestart
  | .reset => some s.reset

end AccelerometerCalibration

end ArduConfigurator.GuidedActions
