import ArduConfigurator.Lib.Entries
import ArduConfigurator.Lib.Runs

/-! # The compass calibration

The action `calibrate-compass` of `runtime-guided-action-service.ts`. The autopilot calibrates
several compasses at once and sends a MAG_CAL_REPORT for each; the action collects them until every
compass they name has reported. An event is one turn of the event loop, with what the host answers
in it; `sent` records the commands. -/
namespace ArduConfigurator.GuidedActions
set_option autoImplicit false

inductive GuidedActionStatus
  | idle | requested | running | succeeded | failed
  deriving DecidableEq

def MAG_CAL_STATUS_SUCCESS : ℕ := 4
def MAG_CAL_STATUS_FAILED : ℕ := 5
def MAG_CAL_STATUS_BAD_ORIENTATION : ℕ := 6
def MAG_CAL_STATUS_BAD_RADIUS : ℕ := 7

def describeMagCalStatus (calStatus : ℕ) : String :=
  if calStatus = MAG_CAL_STATUS_SUCCESS then "success"
  else if calStatus = MAG_CAL_STATUS_FAILED then "failed"
  else if calStatus = MAG_CAL_STATUS_BAD_ORIENTATION then "bad orientation"
  else if calStatus = MAG_CAL_STATUS_BAD_RADIUS then "bad radius (magnetic interference?)"
  else "status " ++ toString calStatus

def compassIdsFromMask (mask : UInt8) : List ℕ :=
  (List.range 8).filter fun bit => mask.toNat.testBit bit

structure MagCalProgressMessage where
  compassId : ℕ
  completionPct : ℕ
  attempt : ℕ

structure MagCalReportMessage where
  compassId : ℕ
  calMask : UInt8
  calStatus : ℕ
  autosaved : ℕ
  deriving DecidableEq

structure MagCalReport where
  calStatus : ℕ
  autosaved : ℕ

def MagCalReportMessage.report (message : MagCalReportMessage) : MagCalReport :=
  ⟨message.calStatus, message.autosaved⟩

inductive MagCalCommand
  | startMagCal
  | acceptMagCal
  | cancelMagCal

/-- `startsPending` calls have sent DO_START_MAG_CAL and wait for its acknowledgement. -/
structure CompassCalibration where
  status : GuidedActionStatus
  summary : String
  statusTexts : List String
  magCalReports : JsMap ℕ MagCalReport
  magCalExpectedMask : UInt8
  magCalRetryAttempts : JsMap ℕ ℕ
  compassGuidanceTimer : Bool
  compassReportWatchdogTimer : Bool
  startsPending : ℕ
  compassCancelInFlight : Bool
  sent : List MagCalCommand

structure GuidedActionTextMatch where
  status : GuidedActionStatus
  summary : String
  statusTexts : List String

inductive Event
  | run (missingCompass : Option String)
  | startAccepted
  | startReturned (failure : Option String)
  | progress (message : MagCalProgressMessage)
  | report (message : MagCalReportMessage)
  | statusText (result : GuidedActionTextMatch)
  | guidanceTimeout (isConnected : Bool)
  | reportWatchdog (isConnected : Bool) (seconds : ℕ)
  | missingCompass (message : String)
  | cancel (isConnected : Bool)
  | cancelReturned (failure : Option String)
  | vehicleRestart
  | reset (isConnected : Bool)

def joined (separator : String) : List String → String
  | [] => ""
  | text :: texts => texts.foldl (fun joined text => joined ++ separator ++ text) text

def describeReports (separator : String) (reports : List (ℕ × MagCalReport)) : String :=
  joined separator (reports.map fun (id, report) =>
    "compass " ++ toString (id + 1) ++ ": " ++ describeMagCalStatus report.calStatus)

def idleSummary : String := "Compass calibration has not started."

namespace CompassCalibration

def initial : CompassCalibration where
  status := .idle
  summary := idleSummary
  statusTexts := []
  magCalReports := .empty
  magCalExpectedMask := 0
  magCalRetryAttempts := .empty
  compassGuidanceTimer := false
  compassReportWatchdogTimer := false
  startsPending := 0
  compassCancelInFlight := false
  sent := []

variable (s : CompassCalibration)

def isActive : Bool := s.status = .requested || s.status = .running

def clearReports : CompassCalibration :=
  { s with magCalReports := .empty, magCalExpectedMask := 0, magCalRetryAttempts := .empty }

def clearTimers : CompassCalibration :=
  { s with compassGuidanceTimer := false, compassReportWatchdogTimer := false }

def failAction (message : String) : CompassCalibration :=
  { s.clearTimers with status := .failed, summary := message }

def sendCancel (isConnected : Bool) : CompassCalibration :=
  if isConnected then { s with sent := s.sent ++ [.cancelMagCal] } else s

/-! ## Starting -/

/-- `runCompassCalibrationAction` up to the wait for the acknowledgement; `missingCompass` is what
there is to say when no compass is enabled. -/
def runAction (missingCompass : Option String) : CompassCalibration :=
  match missingCompass with
  | some message => s.clearTimers.failAction message
  | none =>
    { s.clearTimers.clearReports with
      status := .requested
      summary := "Compass calibration command queued."
      statusTexts := []
      startsPending := s.startsPending + 1
      sent := s.sent ++ [.startMagCal] }

/-- `handleCommandAck` for an accepted DO_START_MAG_CAL of the vehicle. -/
def markCompassCalibrationStarted : CompassCalibration :=
  { s with
    status := .running
    summary := "Compass calibration started. Rotate the vehicle through all axes." }

def handleStartAccepted : CompassCalibration :=
  if s.status = .requested then s.markCompassCalibrationStarted else s

def startReturned (failure : Option String) : CompassCalibration :=
  match failure with
  | some message => { s with startsPending := s.startsPending - 1 }.failAction message
  | none =>
    { s.markCompassCalibrationStarted with
      startsPending := s.startsPending - 1
      compassGuidanceTimer := true }

/-! ## Messages of the calibrators -/

def retrying : List String :=
  ((s.magCalRetryAttempts.entries.mergeSort fun a b => a.1 ≤ b.1).map fun (compassId, attempt) =>
    "compass " ++ toString (compassId + 1) ++ " failed its fit — retrying, attempt "
      ++ toString attempt)

def handleMagCalProgress (message : MagCalProgressMessage) : CompassCalibration :=
  if s.status ≠ .running then s
  else
    let s :=
      { s with
        compassGuidanceTimer := false
        compassReportWatchdogTimer := true
        magCalRetryAttempts :=
          if 1 < message.attempt then s.magCalRetryAttempts.set message.compassId message.attempt
          else s.magCalRetryAttempts }
    let pct := toString (min 100 message.completionPct)
    { s with
      status := .running
      summary :=
        if s.retrying ≠ [] then
          "Compass calibration " ++ pct ++ "% — " ++ joined "; " s.retrying
            ++ "; check for magnetic interference or the compass orientation, then keep rotating. "
            ++ "Cancel if it never settles."
        else "Compass calibration " ++ pct ++ "% — keep rotating the vehicle through all axes." }

/-- The compasses named by the masks; while no mask names one, those that have reported. -/
def expectedIds : List ℕ :=
  if 0 < s.magCalExpectedMask then compassIdsFromMask s.magCalExpectedMask else s.magCalReports.keys

def conclude (reports : List (ℕ × MagCalReport)) : CompassCalibration :=
  let s := { s.clearReports with compassReportWatchdogTimer := false }
  let failures := reports.filter fun (_, report) => report.calStatus ≠ MAG_CAL_STATUS_SUCCESS
  if failures = [] then
    let compassNoun :=
      if reports.length = 1 then "compass" else "all " ++ toString reports.length ++ " compasses"
    { s with
      sent := s.sent ++
        if reports.any fun (_, report) => report.autosaved = 0 then [.acceptMagCal] else []
      status := .succeeded
      summary := "Compass calibration complete (" ++ compassNoun ++ ")." }
  else
    let hint :=
      if failures.any fun (_, report) => report.calStatus = MAG_CAL_STATUS_BAD_ORIENTATION then
        " Check COMPASS/AHRS_ORIENTATION."
      else ""
    s.failAction ("Compass calibration failed — " ++ describeReports "; " failures ++ "." ++ hint)

def noteReport (message : MagCalReportMessage) : CompassCalibration :=
  { s with
    compassGuidanceTimer := false
    magCalReports := s.magCalReports.set message.compassId message.report
    magCalExpectedMask := s.magCalExpectedMask ||| message.calMask }

def pendingIds : List ℕ := s.expectedIds.filter fun id => !s.magCalReports.has id

def handleMagCalReport (message : MagCalReportMessage) : CompassCalibration :=
  if s.status ≠ .running then s
  else
    let s := s.noteReport message
    if s.pendingIds ≠ [] then
      { s with
        compassReportWatchdogTimer := true
        status := .running
        summary := "Compass calibration finishing — "
          ++ describeReports ", " s.magCalReports.entries ++ "; waiting for "
          ++ toString s.pendingIds.length ++ " more compass"
          ++ (if s.pendingIds.length = 1 then "" else "es") ++ "." }
    else
      s.conclude (s.expectedIds.filterMap fun id => (s.magCalReports.get id).map fun r => (id, r))

/-- A text about the action, as `processStatusText` takes it. -/
def handleStatusText (result : GuidedActionTextMatch) : CompassCalibration :=
  { s with
    compassGuidanceTimer := false
    compassReportWatchdogTimer :=
      match result.status with
      | .running => true
      | .succeeded | .failed => false
      | .idle | .requested => s.compassReportWatchdogTimer
    status := result.status
    summary := result.summary
    statusTexts := result.statusTexts }

/-! ## Timers, cancelling and resets -/

def onGuidanceTimeout (isConnected : Bool) : CompassCalibration :=
  let s := { s with compassGuidanceTimer := false }
  if s.isActive = false ∨ s.statusTexts ≠ [] then s
  else
    (s.sendCancel isConnected).failAction
      ("No compass calibration guidance arrived from the autopilot even though it accepted the start "
        ++ "command. The onboard calibration was cancelled — check the link and the SRx_EXTRA3 "
        ++ "telemetry stream rate, then re-run the calibration.")

def onReportWatchdog (isConnected : Bool) (seconds : ℕ) : CompassCalibration :=
  let s := { s with compassReportWatchdogTimer := false }
  if s.isActive = false then s
  else
    (s.sendCancel isConnected).clearReports.failAction
      ("No compass calibration messages arrived for " ++ toString seconds
        ++ " seconds — abandoning the wait so parameter writes are not blocked. Re-run the "
        ++ "calibration and check the compass before flying.")

/-- `reconcileCompassCalibrationAvailability` once the parameters show no enabled compass. -/
def handleMissingCompass (message : String) : CompassCalibration :=
  if s.isActive then s.failAction message else s

def resetActionAfterCancel : CompassCalibration :=
  { s with status := .idle, summary := idleSummary, statusTexts := [] }

def cancelCompassCalibration (isConnected : Bool) : CompassCalibration :=
  if s.isActive = false ∨ s.compassCancelInFlight = true then s
  else
    let s := s.clearTimers.clearReports
    if isConnected = false then s.resetActionAfterCancel
    else
      { s with
        compassCancelInFlight := true
        status := .running
        summary := "Cancelling compass calibration — waiting for the autopilot to confirm it stopped."
        sent := s.sent ++ [.cancelMagCal] }

def cancelReturned (failure : Option String) : CompassCalibration :=
  let s := { s with compassCancelInFlight := false }
  match failure with
  | none => s.resetActionAfterCancel
  | some reason =>
    s.failAction ("The autopilot did not confirm the compass calibration cancel (" ++ reason
      ++ ") — the onboard calibration may still be running: with autosave it will store new offsets "
      ++ "once the frame has been rotated enough, and it only stops on a reboot. Reboot the autopilot "
      ++ "before flying.")

def handleVehicleRestart : CompassCalibration :=
  if s.isActive then
    s.clearReports.failAction
      ("The autopilot restarted mid-calibration (its heartbeat stopped for several seconds and came "
        ++ "back) — the calibration was abandoned. Re-run it once the vehicle has finished booting.")
  else s

def reset (isConnected : Bool) : CompassCalibration :=
  let s := s.sendCancel (s.isActive && isConnected)
  s.clearReports.clearTimers.resetActionAfterCancel

/-! ## Events -/

/-- One turn; a call that does not wait cannot go on, and a timer that is not armed does not fire. A
text about the action sets it going or ends it. -/
def step : Event → Option CompassCalibration
  | .run missingCompass => some (s.runAction missingCompass)
  | .startAccepted => some s.handleStartAccepted
  | .startReturned failure => if 0 < s.startsPending then some (s.startReturned failure) else none
  | .progress message => some (s.handleMagCalProgress message)
  | .report message => some (s.handleMagCalReport message)
  | .statusText result =>
    match result.status with
    | .running | .succeeded | .failed => some (s.handleStatusText result)
    | .idle | .requested => none
  | .guidanceTimeout isConnected =>
    if s.compassGuidanceTimer then some (s.onGuidanceTimeout isConnected) else none
  | .reportWatchdog isConnected seconds =>
    if s.compassReportWatchdogTimer then some (s.onReportWatchdog isConnected seconds) else none
  | .missingCompass message => some (s.handleMissingCompass message)
  | .cancel isConnected => some (s.cancelCompassCalibration isConnected)
  | .cancelReturned failure =>
    if s.compassCancelInFlight then some (s.cancelReturned failure) else none
  | .vehicleRestart => some s.handleVehicleRestart
  | .reset isConnected => some (s.reset isConnected)

end CompassCalibration
end ArduConfigurator.GuidedActions
