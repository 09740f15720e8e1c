import ArduConfigurator.Lib.Runs
import Mathlib.Data.List.Sort
import Mathlib.Data.Rat.Floor

/-! # Motor tests

`evaluateMotorTestEligibility` of `motor-test.ts`, the translation of motor numbers into test-order
sequence numbers of `motor-test-order.ts` (a number that is missing or NaN is `none`), and
`MotorTestService` of `runtime-motor-test-service.ts`. An event is one turn of the JavaScript event
loop. `tasks` are the calls that wait, for the acknowledgement of the command they sent last or for the
pause between two motors of a sweep. `commands`, `runs` and `stops` only record what happened: the
DO_MOTOR_TEST commands on the wire and how the promises of `run` and `stop` settled. -/
namespace ArduConfigurator.MotorTest
set_option autoImplicit false

/-! ## Which motor tests may run -/

def MAX_MOTOR_TEST_THROTTLE_PERCENT : ℕ := 100
def MAX_MOTOR_TEST_DURATION_SECONDS : ℕ := 5
def EXPERT_MAX_MOTOR_TEST_DURATION_SECONDS : ℕ := 30
def MIN_MOTOR_TEST_DURATION_SECONDS : ℚ := 1 / 10
def MOTOR_TEST_ARMED_GRACE_MS : ℕ := 5000

inductive MotorTestStatus
  | idle | requested | running | succeeded | failed
  deriving DecidableEq

structure ServoOutputAssignment where
  channelNumber : ℕ
  motorNumber : Option ℕ

structure MotorTestRequest where
  outputChannel : Option ℕ
  runAllOutputs : Bool
  runAllOutputsSimultaneous : Bool
  throttlePercent : Option ℚ
  durationSeconds : Option ℚ

structure MotorTestEligibilityOptions where
  expertMode : Bool
  uncappedDuration : Bool
  replaceRunningTest : Bool

/-- What the snapshot of the runtime holds apart from the motor test itself; `armed` is that of the
vehicle, when there is one, and `motorOutputs` the outputs mapped to motors. -/
structure Snapshot where
  connected : Bool
  armed : Option Bool
  parametersComplete : Bool
  guidedActionRunning : Bool
  motorOutputs : List ServoOutputAssignment
  frameClass : Option ℚ
  frameType : Option ℚ

structure MotorTestEligibility where
  reasons : List String
  selectedOutput : Option ServoOutputAssignment
  selectedOutputs : List ServoOutputAssignment

def MotorTestEligibility.allowed (e : MotorTestEligibility) : Bool := e.reasons.isEmpty

/-! ## Eligibility -/

def hasContiguousMotorSequence (outputs : List ServoOutputAssignment) : Bool :=
  outputs.zipIdx.all fun (output, index) => output.motorNumber = some (index + 1)

/-- The ceiling of the duration, with its text; without one any duration is short enough. -/
def maxDurationSeconds (options : MotorTestEligibilityOptions) : Option ℕ :=
  if options.uncappedDuration then none
  else if options.expertMode then some EXPERT_MAX_MOTOR_TEST_DURATION_SECONDS
  else some MAX_MOTOR_TEST_DURATION_SECONDS

def durationRangeText (options : MotorTestEligibilityOptions) : String :=
  match maxDurationSeconds options with
  | some limit => "between 0.1 and " ++ toString limit ++ " seconds"
  | none => "at least 0.1 seconds"

def isActive (status : MotorTestStatus) : Bool := status = .requested || status = .running

def stateReasons (snapshot : Snapshot) (status : MotorTestStatus) (completedAtMs : Option ℕ)
    (nowMs : ℕ) (options : MotorTestEligibilityOptions) : List String :=
  let ownTestJustEnded := completedAtMs.any fun t => nowMs - t < MOTOR_TEST_ARMED_GRACE_MS
  (if snapshot.connected then [] else ["The transport is not connected."]) ++
  (if snapshot.armed.isSome then [] else ["No vehicle heartbeat has been identified yet."]) ++
  (if snapshot.armed = some true && !isActive status && !ownTestJustEnded then
    ["The vehicle reports armed=true."] else []) ++
  (if snapshot.parametersComplete then [] else ["Parameter sync is not complete yet."]) ++
  (if snapshot.guidedActionRunning then
    ["Wait for the current guided action to finish before running a motor test."] else []) ++
  (if !options.replaceRunningTest && isActive status then
    ["A motor test is already in progress."] else []) ++
  if snapshot.motorOutputs.isEmpty then
    ["No mapped motor outputs were found in the current SERVO function range."] else []

def selectOutput (snapshot : Snapshot) (request : MotorTestRequest) : Option ServoOutputAssignment :=
  if request.runAllOutputs || request.runAllOutputsSimultaneous then none
  else request.outputChannel.bind fun channel =>
    snapshot.motorOutputs.find? fun output => output.channelNumber = channel

def outputReasons (snapshot : Snapshot) (request : MotorTestRequest) : List String :=
  if request.runAllOutputs || request.runAllOutputsSimultaneous then
    if hasContiguousMotorSequence snapshot.motorOutputs then []
    else ["All-motor tests require a contiguous motor sequence starting at M1. "
      ++ "Fix the motor mapping or use an individual motor slider."]
  else
    match request.outputChannel with
    | none => ["Select a mapped motor output."]
    | some channel =>
      if (selectOutput snapshot request).isSome then []
      else ["OUT" ++ toString channel ++ " is not mapped as a motor output."]

def throttleReasons (request : MotorTestRequest) : List String :=
  match request.throttlePercent with
  | none => ["Throttle must be set between 1 and " ++ toString MAX_MOTOR_TEST_THROTTLE_PERCENT
      ++ " percent."]
  | some throttle =>
    if throttle < 1 ∨ MAX_MOTOR_TEST_THROTTLE_PERCENT < throttle then
      ["Throttle must stay between 1 and " ++ toString MAX_MOTOR_TEST_THROTTLE_PERCENT ++ " percent."]
    else []

def durationReasons (request : MotorTestRequest) (options : MotorTestEligibilityOptions) :
    List String :=
  match request.durationSeconds with
  | none => ["Duration must be set " ++ durationRangeText options ++ "."]
  | some duration =>
    if duration < MIN_MOTOR_TEST_DURATION_SECONDS ∨
        (maxDurationSeconds options).any (fun limit => decide ((limit : ℚ) < duration)) = true then
      ["Duration must stay " ++ durationRangeText options ++ "."]
    else []

def evaluateMotorTestEligibility (snapshot : Snapshot) (status : MotorTestStatus)
    (completedAtMs : Option ℕ) (nowMs : ℕ) (request : MotorTestRequest)
    (options : MotorTestEligibilityOptions) : MotorTestEligibility where
  reasons := stateReasons snapshot status completedAtMs nowMs options ++ outputReasons snapshot request
    ++ throttleReasons request ++ durationReasons request options
  selectedOutput := selectOutput snapshot request
  selectedOutputs := snapshot.motorOutputs

section
variable {snapshot : Snapshot} {status : MotorTestStatus} {completedAtMs : Option ℕ} {nowMs : ℕ}
  {request : MotorTestRequest} {options : MotorTestEligibilityOptions}

theorem allowed_iff :
    (evaluateMotorTestEligibility snapshot status completedAtMs nowMs request options).allowed = true ↔
      stateReasons snapshot status completedAtMs nowMs options = [] ∧
        outputReasons snapshot request = [] ∧ throttleReasons request = [] ∧
        durationReasons request options = [] := by
  rw [MotorTestEligibility.allowed, List.isEmpty_iff, evaluateMotorTestEligibility,
    List.append_eq_nil_iff, List.append_eq_nil_iff, List.append_eq_nil_iff, and_assoc, and_assoc]

theorem throttle_of_allowed
    (h : (evaluateMotorTestEligibility snapshot status completedAtMs nowMs request options).allowed =
      true) : ∃ throttle, request.throttlePercent = some throttle ∧ 1 ≤ throttle := by
  have hthrottle := (allowed_iff.mp h).2.2.1
  rw [throttleReasons] at hthrottle
  split at hthrottle
  · cases hthrottle
  · next throttle hsome =>
    split at hthrottle
    · cases hthrottle
    · next hrange =>
      rw [not_or, not_lt] at hrange
      exact ⟨throttle, hsome, hrange.1⟩

theorem duration_of_allowed
    (h : (evaluateMotorTestEligibility snapshot status completedAtMs nowMs request options).allowed =
      true) : ∃ duration, request.durationSeconds = some duration := by
  have hduration := (allowed_iff.mp h).2.2.2
  rw [durationReasons] at hduration
  split at hduration
  · cases hduration
  · next duration hsome => exact ⟨duration, hsome⟩

theorem motorOutputs_of_allowed
    (h : (evaluateMotorTestEligibility snapshot status completedAtMs nowMs request options).allowed =
      true) : snapshot.motorOutputs ≠ [] := by
  have hstate := (allowed_iff.mp h).1
  simp only [stateReasons, List.append_eq_nil_iff] at hstate
  have houtputs := hstate.2
  split at houtputs
  · cases houtputs
  · next hempty =>
    rintro heq
    exact hempty (by rw [heq]; rfl)

end

/-! ## The order of the frame's test table -/

def FRAME_CLASS_Y6 : ℤ := 5
def Y6_DEFAULT_TEST_ORDER : List ℕ := [2, 5, 6, 4, 1, 3]

/-- `TEST_ORDER_TABLES`: the testing order of each motor, by frame class and frame type. -/
def TEST_ORDER_TABLES : List ((ℤ × ℤ) × List ℕ) :=
  [ ((1, 0), [2, 4, 1, 3]), ((1, 1), [1, 3, 4, 2]), ((1, 2), [1, 3, 4, 2]), ((1, 3), [1, 3, 4, 2]),
    ((1, 12), [2, 1, 3, 4]), ((1, 13), [1, 4, 3, 2]), ((1, 14), [1, 2, 3, 4]),
    ((1, 16), [2, 4, 1, 3]), ((1, 17), [1, 3, 4, 2]), ((1, 18), [2, 1, 3, 4]),
    ((2, 0), [1, 4, 5, 2, 6, 3]), ((2, 1), [2, 5, 6, 3, 1, 4]), ((2, 3), [2, 5, 6, 3, 1, 4]),
    ((2, 13), [1, 6, 5, 4, 3, 2]), ((2, 14), List.range' 1 6),
    ((3, 0), [1, 5, 2, 4, 8, 6, 7, 3]), ((3, 1), [1, 5, 2, 4, 8, 6, 7, 3]),
    ((3, 2), [7, 3, 6, 4, 8, 2, 1, 5]), ((3, 3), [1, 5, 2, 4, 8, 6, 7, 3]),
    ((3, 15), [5, 1, 6, 8, 4, 2, 3, 7]), ((3, 13), [1, 8, 7, 6, 5, 4, 3, 2]),
    ((3, 14), List.range' 1 8),
    ((4, 0), [1, 7, 5, 3, 8, 2, 4, 6]), ((4, 1), [1, 7, 5, 3, 8, 2, 4, 6]),
    ((4, 2), [1, 7, 5, 3, 8, 2, 4, 6]), ((4, 3), [1, 7, 5, 3, 8, 2, 4, 6]),
    ((4, 12), [3, 1, 5, 7, 4, 2, 6, 8]), ((4, 18), [3, 1, 5, 7, 4, 2, 6, 8]),
    ((4, 14), List.range' 1 8), ((4, 20), [1, 7, 5, 3, 8, 2, 4, 6]),
    ((5, 10), List.range' 1 6), ((5, 11), [3, 1, 5, 4, 2, 6]),
    ((12, 0), List.range' 1 12), ((12, 1), List.range' 1 12),
    ((14, 0), List.range' 1 10), ((14, 1), List.range' 1 10), ((14, 14), List.range' 1 10) ]

structure MotorTestSequenceResult where
  sequence : ℕ
  mapped : Bool

def testOrderTable (frameClass frameType : ℤ) : Option (List ℕ) :=
  (TEST_ORDER_TABLES.lookup (frameClass, frameType)).or
    (if frameClass = FRAME_CLASS_Y6 then some Y6_DEFAULT_TEST_ORDER else none)

/-- The sequence number that spins a motor; an unknown frame keeps the motor number. -/
def motorTestSequenceForMotor (frameClass frameType : Option ℚ) (motorNumber : ℕ) :
    MotorTestSequenceResult :=
  match frameClass, frameType with
  | some frameClass, some frameType =>
    if motorNumber < 1 then ⟨motorNumber, false⟩
    else
      match (testOrderTable (round frameClass) (round frameType)).bind fun table =>
          table[motorNumber - 1]? with
      | some sequence => ⟨sequence, true⟩
      | none => ⟨motorNumber, false⟩
  | _, _ => ⟨motorNumber, false⟩

/-! ## State -/

/-! ## State -/

structure MotorCommand where
  sequence : ℕ
  throttlePercent : ℚ
  durationSeconds : ℚ
  deriving DecidableEq

structure Spin where
  throttlePercent : ℚ
  durationSeconds : ℚ
  deriving DecidableEq

/-- A call that waits: `run` by its mode, with the motors that come next, the timer and the command of
`continueSweep`, or `stop` with the motors it has still to stop. -/
inductive Task
  | simultaneous (spin : Spin) (rest : List ℕ)
  | sweepStart (token : ℕ) (spin : Spin) (rest : List ℕ)
  | single
  | sweepGap (token : ℕ) (spin : Spin) (rest : List ℕ)
  | sweepCommand (token : ℕ) (spin : Spin) (rest : List ℕ)
  | stop (id : ℕ) (rest : List ℕ) (acknowledged : Bool)
  deriving DecidableEq

/-- How a call of `stop` settled; `id` counts the calls. -/
structure MotorTestStopResult where
  id : ℕ
  sent : Bool
  acknowledged : Bool
  deriving DecidableEq

structure MotorTestService where
  status : MotorTestStatus
  completedAtMs : Option ℕ
  completionTimer : Bool
  /-- The sequence numbers that a stop has to command back to zero. -/
  activeSimultaneousSequences : List ℕ
  sweepToken : ℕ
  nowMs : ℕ
  tasks : List Task
  stopCalls : ℕ
  commands : List MotorCommand
  runs : List (Option String)
  stops : List MotorTestStopResult
  deriving DecidableEq

namespace MotorTestService

def initial (nowMs : ℕ) : MotorTestService where
  status := .idle
  completedAtMs := none
  completionTimer := false
  activeSimultaneousSequences := []
  sweepToken := 0
  nowMs := nowMs
  tasks := []
  stopCalls := 0
  commands := []
  runs := []
  stops := []

def hasActiveTest (s : MotorTestService) : Bool := isActive s.status

def clearCompletionTimer (s : MotorTestService) : MotorTestService :=
  { s with completionTimer := false }

def reset (s : MotorTestService) : MotorTestService :=
  { s with
    status := .idle
    completedAtMs := none
    completionTimer := false
    sweepToken := s.sweepToken + 1
    activeSimultaneousSequences := [] }

def sendCommand (s : MotorTestService) (sequence : ℕ) (spin : Spin) (task : Task) : MotorTestService :=
  { s with
    commands := s.commands ++ [⟨sequence, spin.throttlePercent, spin.durationSeconds⟩]
    tasks := s.tasks ++ [task] }

/-! ## Runs -/

/-- The end of `run` once its commands are acknowledged. -/
def finishRun (s : MotorTestService) : MotorTestService :=
  { s with
    status := .running
    completedAtMs := none
    completionTimer := true
    runs := s.runs ++ [none] }

/-- `run` and `continueSweep` where a command fails. -/
def fail (s : MotorTestService) : MotorTestService :=
  { s with completionTimer := false, status := .failed, completedAtMs := some s.nowMs }

def failRun (s : MotorTestService) (error : String) : MotorTestService :=
  { s.fail with runs := s.runs ++ [some error] }

/-- The next command of a simultaneous run; its motor is recorded before it is sent. -/
def sendSimultaneous (s : MotorTestService) (spin : Spin) (sequences : List ℕ) : MotorTestService :=
  match sequences with
  | [] => s.finishRun
  | sequence :: rest =>
    { s with activeSimultaneousSequences := s.activeSimultaneousSequences ++ [sequence] }
      |>.sendCommand sequence spin (.simultaneous spin rest)

def sequenceOf (snapshot : Snapshot) (output : ServoOutputAssignment) : ℕ :=
  match output.motorNumber with
  | some motorNumber =>
    (motorTestSequenceForMotor snapshot.frameClass snapshot.frameType motorNumber).sequence
  | none => 1

def sweepOrder (outputs : List ServoOutputAssignment) : List ServoOutputAssignment :=
  let motor := fun output : ServoOutputAssignment => output.motorNumber.getD (2 ^ 53 - 1)
  outputs.insertionSort fun a b =>
    motor a < motor b ∨ (motor a = motor b ∧ a.channelNumber ≤ b.channelNumber)

def sequencesOf (snapshot : Snapshot) (request : MotorTestRequest) : List ℕ :=
  if request.runAllOutputsSimultaneous then snapshot.motorOutputs.map (sequenceOf snapshot)
  else if request.runAllOutputs then (sweepOrder snapshot.motorOutputs).map (sequenceOf snapshot)
  else ((selectOutput snapshot request).map (sequenceOf snapshot)).toList

def start (s : MotorTestService) (snapshot : Snapshot) (request : MotorTestRequest) (spin : Spin) :
    MotorTestService :=
  let s := { s with status := .requested, completedAtMs := none }
  let sequences := sequencesOf snapshot request
  if request.runAllOutputsSimultaneous then
    { s with activeSimultaneousSequences := [] }.sendSimultaneous spin sequences
  else if request.runAllOutputs then
    match sequences with
    | [] => s
    | sequence :: rest =>
      let token := s.sweepToken + 1
      { s with sweepToken := token, activeSimultaneousSequences := [sequence] }
        |>.sendCommand sequence spin (.sweepStart token spin rest)
  else
    { s with activeSimultaneousSequences := [] }.sendCommand (sequences.headD 1) spin .single

def eligibility (s : MotorTestService) (snapshot : Snapshot) (request : MotorTestRequest)
    (options : MotorTestEligibilityOptions) : MotorTestEligibility :=
  evaluateMotorTestEligibility snapshot s.status s.completedAtMs s.nowMs request options

def run (s : MotorTestService) (snapshot : Snapshot) (request : MotorTestRequest)
    (options : MotorTestEligibilityOptions) : MotorTestService :=
  let eligibility := s.eligibility snapshot request options
  match eligibility.allowed, request.throttlePercent, request.durationSeconds with
  | true, some throttlePercent, some durationSeconds =>
    s.start snapshot request ⟨throttlePercent, durationSeconds⟩
  | _, _, _ =>
    { s with
      runs := s.runs ++
        [some (eligibility.reasons.headD "Motor test request is not currently allowed.")] }

/-- `continueSweep` up to its next pause. -/
def continueSweep (s : MotorTestService) (token : ℕ) (spin : Spin) (rest : List ℕ) :
    MotorTestService :=
  if rest = [] then s else { s with tasks := s.tasks ++ [.sweepGap token spin rest] }

def sweepNext (s : MotorTestService) (token : ℕ) (spin : Spin) (rest : List ℕ) : MotorTestService :=
  if token ≠ s.sweepToken ∨ s.status ≠ .running then s
  else
    match rest with
    | [] => s
    | sequence :: rest =>
      { s with activeSimultaneousSequences := [sequence] }
        |>.sendCommand sequence spin (.sweepCommand token spin rest)

/-! ## Stops -/

def finishStop (s : MotorTestService) (id : ℕ) (acknowledged : Bool) : MotorTestService :=
  { s with
    activeSimultaneousSequences := []
    status := .failed
    completedAtMs := some s.nowMs
    stops := s.stops ++ [⟨id, true, acknowledged⟩] }

def sendAborts (s : MotorTestService) (id : ℕ) (sequences : List ℕ) (acknowledged : Bool) :
    MotorTestService :=
  match sequences with
  | [] => s.finishStop id acknowledged
  | sequence :: rest => s.sendCommand sequence ⟨0, 0⟩ (.stop id rest acknowledged)

def abortSequences (s : MotorTestService) : List ℕ :=
  if s.activeSimultaneousSequences = [] then [1] else s.activeSimultaneousSequences

def stop (s : MotorTestService) : MotorTestService :=
  let id := s.stopCalls
  let s := { s with stopCalls := id + 1 }
  if s.hasActiveTest then
    { s.clearCompletionTimer with sweepToken := s.sweepToken + 1 }
      |>.sendAborts id s.abortSequences true
  else { s with stops := s.stops ++ [⟨id, false, true⟩] }

/-! ## Events -/

def settle (s : MotorTestService) (task : Task) (failure : Option String) : MotorTestService :=
  match task with
  | .simultaneous spin rest =>
    match failure with
    | some error => s.failRun error
    | none => s.sendSimultaneous spin rest
  | .sweepStart token spin rest =>
    match failure with
    | some error => s.failRun error
    | none => (s.continueSweep token spin rest).finishRun
  | .single =>
    match failure with
    | some error => s.failRun error
    | none => s.finishRun
  | .sweepGap token spin rest => s.sweepNext token spin rest
  | .sweepCommand token spin rest =>
    if token ≠ s.sweepToken then s
    else if failure.isSome then s.fail
    else s.continueSweep token spin rest
  | .stop id rest acknowledged => s.sendAborts id rest (acknowledged && failure.isNone)

def complete (s : MotorTestService) : MotorTestService :=
  let s := { s with completionTimer := false }
  if s.status ≠ .running then s
  else { s with status := .succeeded, completedAtMs := some s.nowMs }

inductive Event
  | clock (nowMs : ℕ)
  | run (snapshot : Snapshot) (request : MotorTestRequest) (options : MotorTestEligibilityOptions)
  | stop
  | reset
  | clearCompletionTimer
  | settle (i : ℕ) (failure : Option String)
  | completion

/-- One turn of the event loop; a call that is not waiting and a timer that is not armed have none. -/
def step (s : MotorTestService) : Event → Option MotorTestService
  | .clock nowMs => some { s with nowMs := nowMs }
  | .run snapshot request options => some (s.run snapshot request options)
  | .stop => some s.stop
  | .reset => some s.reset
  | .clearCompletionTimer => some s.clearCompletionTimer
  | .settle i failure =>
    s.tasks[i]?.map fun task => { s with tasks := s.tasks.eraseIdx i }.settle task failure
  | .completion => if s.completionTimer then some s.complete else none

end MotorTestService

end ArduConfigurator.MotorTest
