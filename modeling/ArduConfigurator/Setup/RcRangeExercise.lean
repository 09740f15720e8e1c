import ArduConfigurator.Lib.JsArithmetic
import ArduConfigurator.Setup.ModeSwitchExercise

/-! # The stick range exercise

`setup-exercises.ts`: every stick is moved to both ends and back to its centre. What an axis has
shown stays with the axis when it is mapped to another channel. -/
namespace ArduConfigurator.Setup
set_option autoImplicit false

/-! ## Observations -/

inductive RcAxisId
  | roll
  | pitch
  | throttle
  | yaw
  deriving DecidableEq

def RC_AXIS_ORDER : List RcAxisId := [.roll, .pitch, .throttle, .yaw]

def rcMapParamId : RcAxisId → String
  | .roll => "RCMAP_ROLL"
  | .pitch => "RCMAP_PITCH"
  | .throttle => "RCMAP_THROTTLE"
  | .yaw => "RCMAP_YAW"

def DEFAULT_RC_AXIS_CHANNEL_MAP : RcAxisId → ℤ
  | .roll => 1
  | .pitch => 2
  | .throttle => 3
  | .yaw => 4

def deriveRcAxisChannelMap (snapshot : Snapshot) (axisId : RcAxisId) : ℤ :=
  (readRoundedParameter snapshot (rcMapParamId axisId)).getD (DEFAULT_RC_AXIS_CHANNEL_MAP axisId)

structure RcAxisObservation where
  channelNumber : ℤ
  lowDetected : Bool
  highDetected : Bool
  centeredDetected : Bool

def RC_LOW_THRESHOLD : JsNumber := 0.15
def RC_HIGH_THRESHOLD : JsNumber := 0.85
def RC_CENTER_TOLERANCE_RATIO : JsNumber := 0.1
def RC_CENTER_TOLERANCE_US : JsNumber := 45

def clamp01 (value : JsNumber) : JsNumber := JsNumber.max 0 (JsNumber.min 1 value)

def calibrated (snapshot : Snapshot) (channelNumber : ℤ) (field : String) (fallback : ℕ) :
    JsNumber :=
  let paramId := "RC" ++ toString channelNumber ++ "_" ++ field
  .round false ((readParameterValue snapshot paramId).getD fallback)

/-- One axis of `deriveRcAxisObservations`, on the channel it is mapped to. -/
def observeAxis (snapshot : Snapshot) (axisId : RcAxisId) (channelNumber : ℤ) :
    RcAxisObservation :=
  let calibratedMin := calibrated snapshot channelNumber "MIN" 1000
  let calibratedMax := calibrated snapshot channelNumber "MAX" 2000
  let calibratedTrim := calibrated snapshot channelNumber "TRIM" 1500
  let range := JsNumber.max (calibratedMax - calibratedMin) 1
  match pwmOf snapshot channelNumber with
  | none => ⟨channelNumber, false, false, false⟩
  | some pulse =>
    let pwm := JsNumber.ofInt pulse
    let normalizedPercent := clamp01 ((pwm - calibratedMin) / range)
    { channelNumber
      lowDetected := normalizedPercent.le RC_LOW_THRESHOLD
      highDetected := RC_HIGH_THRESHOLD.le normalizedPercent
      centeredDetected := axisId ≠ .throttle && (pwm - calibratedTrim).abs.le
        (JsNumber.max (range * RC_CENTER_TOLERANCE_RATIO) RC_CENTER_TOLERANCE_US) }

def observation (snapshot : Snapshot) (axisId : RcAxisId) : RcAxisObservation :=
  observeAxis snapshot axisId (deriveRcAxisChannelMap snapshot axisId)

def deriveRcAxisObservations (snapshot : Snapshot) : List (RcAxisId × RcAxisObservation) :=
  RC_AXIS_ORDER.map fun axisId => (axisId, observation snapshot axisId)

/-! ## The exercise -/

structure RcAxisExerciseProgress where
  channelNumber : ℤ
  lowObserved : Bool
  highObserved : Bool
  centeredObserved : Bool
  completed : Bool
  deriving DecidableEq

/-- The progress of an axis with the flag `completed` that its other flags give. -/
def progressOf (axisId : RcAxisId) (channelNumber : ℤ) (low high centered : Bool) :
    RcAxisExerciseProgress :=
  let centered := axisId ≠ .throttle && centered
  ⟨channelNumber, low, high, centered, low && high && (axisId = .throttle || centered)⟩

def createRcAxisProgressRecord (observations : List (RcAxisId × RcAxisObservation))
    (axisId : RcAxisId) : RcAxisExerciseProgress :=
  match observations.find? (·.1 = axisId) with
  | none => progressOf axisId (DEFAULT_RC_AXIS_CHANNEL_MAP axisId) false false false
  | some found => progressOf axisId found.2.channelNumber found.2.lowDetected
      found.2.highDetected found.2.centeredDetected

structure RcRangeExerciseState where
  status : ExerciseStatus
  targetAxes : List RcAxisId
  axisProgress : RcAxisId → RcAxisExerciseProgress
  currentTargetAxis : Option RcAxisId
  failureReason : Option String

def failRcRangeExerciseState (current : RcRangeExerciseState) (reason : String) :
    RcRangeExerciseState :=
  { current with status := .failed, failureReason := some reason }

def createIdleRcRangeExerciseState : RcRangeExerciseState :=
  ⟨.idle, [], createRcAxisProgressRecord [], none, none⟩

def nextRcRangeTargetAxis (targetAxes : List RcAxisId)
    (axisProgress : RcAxisId → RcAxisExerciseProgress) : Option RcAxisId :=
  targetAxes.find? fun axisId => !(axisProgress axisId).completed

def createRcRangeExerciseState (snapshot : Snapshot) : RcRangeExerciseState :=
  if snapshot.verified = false then
    failRcRangeExerciseState createIdleRcRangeExerciseState
      "No live RC telemetry is available for the stick range exercise."
  else
    let axisProgress := createRcAxisProgressRecord (deriveRcAxisObservations snapshot)
    match nextRcRangeTargetAxis RC_AXIS_ORDER axisProgress with
    | none => ⟨.passed, RC_AXIS_ORDER, axisProgress, none, none⟩
    | some axisId => ⟨.running, RC_AXIS_ORDER, axisProgress, some axisId, none⟩

/-- One turn of the loop over the observations; the second part is `changed`. -/
def creditObservation (progress : (RcAxisId → RcAxisExerciseProgress) × Bool)
    (observed : RcAxisId × RcAxisObservation) : (RcAxisId → RcAxisExerciseProgress) × Bool :=
  let existing := progress.1 observed.1
  let nextState := progressOf observed.1 observed.2.channelNumber
    (existing.lowObserved || observed.2.lowDetected)
    (existing.highObserved || observed.2.highDetected)
    (existing.centeredObserved || observed.2.centeredDetected)
  if nextState ≠ existing then (Function.update progress.1 observed.1 nextState, true)
  else progress

def advanceRcRangeExerciseState (current : RcRangeExerciseState) (snapshot : Snapshot) :
    RcRangeExerciseState :=
  if current.status ≠ .running then current
  else if snapshot.verified = false then
    failRcRangeExerciseState current
      "Lost live RC telemetry before the stick range exercise completed."
  else
    let progress :=
      (deriveRcAxisObservations snapshot).foldl creditObservation (current.axisProgress, false)
    match nextRcRangeTargetAxis current.targetAxes progress.1 with
    | none =>
      { current with
        status := .passed
        axisProgress := progress.1
        currentTargetAxis := none
        failureReason := none }
    | some axisId =>
      if progress.2 = false ∧ current.currentTargetAxis = some axisId then current
      else { current with axisProgress := progress.1, currentTargetAxis := some axisId }

def runRcRangeExercise (first : Snapshot) (snapshots : List Snapshot) : RcRangeExerciseState :=
  snapshots.foldl advanceRcRangeExerciseState (createRcRangeExerciseState first)

/-! ## What an axis has shown -/

/-- The flags of an axis were earned in some snapshot, on the channel it was mapped to there. -/
structure Earned (seen : List Snapshot) (axisId : RcAxisId) (progress : RcAxisExerciseProgress) :
    Prop where
  low : progress.lowObserved = true → ∃ s ∈ seen, (observation s axisId).lowDetected = true
  high : progress.highObserved = true → ∃ s ∈ seen, (observation s axisId).highDetected = true
  centered : progress.centeredObserved = true →
    ∃ s ∈ seen, (observation s axisId).centeredDetected = true
  completed : progress.completed = true → progress.lowObserved = true ∧
    progress.highObserved = true ∧ (axisId ≠ .throttle → progress.centeredObserved = true)

variable {seen : List Snapshot} {snapshot : Snapshot} {axisId : RcAxisId}

theorem Earned.mono {progress : RcAxisExerciseProgress} (h : Earned seen axisId progress)
    (snapshot : Snapshot) : Earned (seen ++ [snapshot]) axisId progress := by
  have hmono {P : Snapshot → Prop} : (∃ s ∈ seen, P s) → ∃ s ∈ seen ++ [snapshot], P s := by
    rintro ⟨s, hs, hP⟩
    exact ⟨s, List.mem_append_left _ hs, hP⟩
  exact ⟨fun hlow => hmono (h.low hlow), fun hhigh => hmono (h.high hhigh),
    fun hcentered => hmono (h.centered hcentered), h.completed⟩

theorem earned_progressOf (channelNumber : ℤ) {low high centered : Bool}
    (hlow : low = true → ∃ s ∈ seen, (observation s axisId).lowDetected = true)
    (hhigh : high = true → ∃ s ∈ seen, (observation s axisId).highDetected = true)
    (hcentered : centered = true → ∃ s ∈ seen, (observation s axisId).centeredDetected = true) :
    Earned seen axisId (progressOf axisId channelNumber low high centered) := by
  refine ⟨hlow, hhigh, fun h => hcentered (Bool.and_eq_true _ _ ▸ h).2, fun h => ?_⟩
  simp only [progressOf, Bool.and_eq_true, Bool.or_eq_true, decide_eq_true_eq] at h
  refine ⟨h.1.1, h.1.2, fun hne => ?_⟩
  simpa [progressOf, hne] using h.2.resolve_left hne

theorem earned_create (snapshot : Snapshot) (axisId : RcAxisId) : Earned [snapshot] axisId
    (createRcAxisProgressRecord (deriveRcAxisObservations snapshot) axisId) := by
  have hfind : (deriveRcAxisObservations snapshot).find? (·.1 = axisId) =
      some (axisId, observation snapshot axisId) := by cases axisId <;> rfl
  rw [createRcAxisProgressRecord, hfind]
  exact earned_progressOf _ (fun h => ⟨snapshot, by simp, h⟩) (fun h => ⟨snapshot, by simp, h⟩)
    fun h => ⟨snapshot, by simp, h⟩

theorem earned_credit {progress : (RcAxisId → RcAxisExerciseProgress) × Bool}
    (h : ∀ axisId, Earned seen axisId (progress.1 axisId)) {o : RcAxisId × RcAxisObservation}
    (hsnapshot : snapshot ∈ seen) (ho : o.2 = observation snapshot o.1) (axisId : RcAxisId) :
    Earned seen axisId ((creditObservation progress o).1 axisId) := by
  unfold creditObservation
  dsimp only
  split
  · by_cases haxis : axisId = o.1
    · subst haxis
      dsimp only
      rw [Function.update_self, ho]
      refine earned_progressOf _ (fun hlow => ?_) (fun hhigh => ?_) fun hcentered => ?_
      · exact (Bool.or_eq_true _ _ ▸ hlow).elim (h o.1).low fun hlow => ⟨snapshot, hsnapshot, hlow⟩
      · exact (Bool.or_eq_true _ _ ▸ hhigh).elim (h o.1).high
          fun hhigh => ⟨snapshot, hsnapshot, hhigh⟩
      · exact (Bool.or_eq_true _ _ ▸ hcentered).elim (h o.1).centered
          fun hcentered => ⟨snapshot, hsnapshot, hcentered⟩
    · dsimp only
      rw [Function.update_of_ne haxis]
      exact h axisId
  · exact h axisId

theorem earned_foldl (progress : (RcAxisId → RcAxisExerciseProgress) × Bool)
    (h : ∀ axisId, Earned seen axisId (progress.1 axisId)) (hsnapshot : snapshot ∈ seen) :
    ∀ axisId, Earned seen axisId
      (((deriveRcAxisObservations snapshot).foldl creditObservation progress).1 axisId) := by
  rw [deriveRcAxisObservations, List.foldl_map]
  generalize RC_AXIS_ORDER = axes
  induction axes generalizing progress with
  | nil => exact h
  | cons axis axes ih => exact ih _ (earned_credit h hsnapshot rfl)

/-- What holds of the exercise after the snapshots `seen`. -/
structure Earns (seen : List Snapshot) (current : RcRangeExerciseState) : Prop where
  targetAxes : current.status = .running → current.targetAxes = RC_AXIS_ORDER
  progress (axisId : RcAxisId) : Earned seen axisId (current.axisProgress axisId)
  passed : current.status = .passed → ∀ axisId, (current.axisProgress axisId).completed = true

theorem completed_of_next {progress : RcAxisId → RcAxisExerciseProgress}
    (h : nextRcRangeTargetAxis RC_AXIS_ORDER progress = none) (axisId : RcAxisId) :
    (progress axisId).completed = true := by
  have := List.find?_eq_none.mp h axisId (by cases axisId <;> decide)
  simpa using this

theorem earns_create (first : Snapshot) : Earns [first] (createRcRangeExerciseState first) := by
  unfold createRcRangeExerciseState
  split
  · refine ⟨fun h => (by cases h), fun axisId => ?_, fun h => by cases h⟩
    exact earned_progressOf _ (fun h => by cases h) (fun h => by cases h) fun h => by cases h
  dsimp only
  split
  · next hnext =>
    exact ⟨fun h => (by cases h), earned_create first, fun _ => completed_of_next hnext⟩
  · exact ⟨fun _ => rfl, earned_create first, fun h => by cases h⟩

variable {current : RcRangeExerciseState}

theorem advance_frozen (h : current.status ≠ .running) (snapshot : Snapshot) :
    advanceRcRangeExerciseState current snapshot = current := if_pos h

theorem earns_advance (h : Earns seen current) (snapshot : Snapshot) :
    Earns (seen ++ [snapshot]) (advanceRcRangeExerciseState current snapshot) := by
  have hkept (axisId : RcAxisId) := (h.progress axisId).mono snapshot
  unfold advanceRcRangeExerciseState
  split
  · exact ⟨h.targetAxes, hkept, h.passed⟩
  next hrunning =>
  rw [not_not] at hrunning
  split
  · exact ⟨fun h => (by cases h), hkept, fun h => by cases h⟩
  have hnew := earned_foldl (current.axisProgress, false) hkept
    (List.mem_append_right seen (List.mem_singleton_self snapshot))
  dsimp only
  split
  · next hnext =>
    rw [h.targetAxes hrunning] at hnext
    exact ⟨fun h => (by cases h), hnew, fun _ => completed_of_next hnext⟩
  split
  · exact ⟨h.targetAxes, hkept, h.passed⟩
  · exact ⟨h.targetAxes, hnew, fun hpassed => by cases hrunning.symm.trans hpassed⟩

theorem earns_run (first : Snapshot) (snapshots : List Snapshot) :
    Earns (first :: snapshots) (runRcRangeExercise first snapshots) := by
  induction snapshots using List.reverseRecOn with
  | nil => exact earns_create first
  | append_singleton seen s ih =>
    rw [runRcRangeExercise, List.foldl_append]
    exact earns_advance ih s

theorem rcRangeExercise_earned (first : Snapshot) (snapshots : List Snapshot) :
    ((runRcRangeExercise first snapshots).status = .passed → ∀ axisId,
      (∃ s ∈ first :: snapshots, (observation s axisId).lowDetected = true) ∧
      (∃ s ∈ first :: snapshots, (observation s axisId).highDetected = true) ∧
      (axisId ≠ .throttle →
        ∃ s ∈ first :: snapshots, (observation s axisId).centeredDetected = true)) ∧
      ∀ current : RcRangeExerciseState, current.status = .passed ∨ current.status = .failed →
        ∀ snapshot, advanceRcRangeExerciseState current snapshot = current := by
  refine ⟨fun hpassed axisId => ?_, fun current h snapshot => advance_frozen ?_ snapshot⟩
  · have h := earns_run first snapshots
    have hearned := h.progress axisId
    obtain ⟨hlow, hhigh, hcentered⟩ := hearned.completed (h.passed hpassed axisId)
    exact ⟨hearned.low hlow, hearned.high hhigh, fun hne => hearned.centered (hcentered hne)⟩
  · intro hrunning
    rw [hrunning] at h
    exact h.elim (fun h => by cases h) fun h => by cases h

/-- All four sticks at one pulse. -/
def sticksAt (pwm : ℕ) : Snapshot := ⟨true, [pwm, pwm, pwm, pwm, 1500], []⟩

/-- The sticks at their centres, with roll on a channel that has not moved. -/
def remapped : Snapshot := { sticksAt 1500 with parameters := [("RCMAP_ROLL", ((5 : ℕ) : ℚ))] }

theorem rcRangeExercise_earned_roll :
    ∃ s ∈ [sticksAt 1000, sticksAt 2000, sticksAt 1500],
      (observation s .roll).lowDetected = true :=
  ((rcRangeExercise_earned (sticksAt 1000) [sticksAt 2000, sticksAt 1500]).1
    (by decide +kernel) .roll).1

theorem remapped_roll_passes :
    (runRcRangeExercise (sticksAt 1000) [sticksAt 2000, remapped]).status = .passed ∧
      deriveRcAxisChannelMap remapped .roll = 5 ∧
      ∀ s ∈ [sticksAt 1000, sticksAt 2000, remapped],
        (observeAxis s .roll 5).lowDetected = false ∧
          (observeAxis s .roll 5).highDetected = false := by
  decide +kernel

end ArduConfigurator.Setup
