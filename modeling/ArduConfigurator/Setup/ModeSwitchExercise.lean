import ArduConfigurator.Lib.Strings
import Mathlib.Data.Rat.Floor

/-! # The mode switch exercise

`setup-exercises.ts`: the pilot moves the switch through its positions, and every distinct
configured mode has to be seen once. The targets are the first slots of the modes, while the switch
may rest on any slot that carries one. -/
namespace ArduConfigurator.Setup
set_option autoImplicit false

/-! ## Snapshots -/

inductive VehicleClass
  | ArduCopter
  | ArduPlane
  | ArduRover
  | ArduSub
  | Unknown
  deriving DecidableEq

/-- What the exercises read of a snapshot: `liveVerification.rcInput` and the parameters. -/
structure Snapshot where
  verified : Bool
  channels : List ℕ
  parameters : List (String × ℚ)

def readParameterValue (snapshot : Snapshot) (paramId : String) : Option ℚ :=
  (snapshot.parameters.find? (·.1 = paramId)).map (·.2)

/-- `Math.round`: a half goes up. -/
def readRoundedParameter (snapshot : Snapshot) (paramId : String) : Option ℤ :=
  (readParameterValue snapshot paramId).map fun value => ⌊value + 1 / ((2 : ℕ) : ℚ)⌋

def isValidPwm (value : ℕ) : Bool := value ≠ 0xffff ∧ 800 ≤ value ∧ value ≤ 2200

/-- `channels[channelNumber - 1]`, where it is a valid pulse. -/
def pwmOf (snapshot : Snapshot) (channelNumber : ℤ) : Option ℕ :=
  if 1 ≤ channelNumber then
    snapshot.channels[(channelNumber - 1).toNat]?.filter isValidPwm
  else none

/-! ## Modes and slots -/

def DEFAULT_MODE_CHANNEL : ℤ := 5

def modeSlotParamId (vehicle : VehicleClass) (slot : ℕ) : String :=
  if vehicle = .ArduRover then "MODE" ++ toString slot else "FLTMODE" ++ toString slot

structure ModeAssignment where
  slot : ℕ
  value : ℤ

def deriveModeAssignments (snapshot : Snapshot) (vehicle : VehicleClass) : List ModeAssignment :=
  (List.range 6).filterMap fun index =>
    (readRoundedParameter snapshot (modeSlotParamId vehicle (index + 1))).map
      (ModeAssignment.mk (index + 1))

/-- The assignments whose value is not in `seenModeValues` yet. -/
def firstOfEach (seenModeValues : List ℤ) : List ModeAssignment → List ModeAssignment
  | [] => []
  | assignment :: rest =>
    if assignment.value ∈ seenModeValues then firstOfEach seenModeValues rest
    else assignment :: firstOfEach (assignment.value :: seenModeValues) rest

def deriveModeExerciseAssignments (snapshot : Snapshot) (vehicle : VehicleClass) :
    List ModeAssignment := firstOfEach [] (deriveModeAssignments snapshot vehicle)

def getModeChannelNumber (snapshot : Snapshot) : Option ℤ :=
  let configuredChannel :=
    ((readRoundedParameter snapshot "FLTMODE_CH").or
      (readRoundedParameter snapshot "MODE_CH")).getD DEFAULT_MODE_CHANNEL
  if 1 ≤ configuredChannel ∧ configuredChannel ≤ 16 then some configuredChannel else none

def estimateFlightModeSlot (pwm : ℕ) : ℕ :=
  if pwm ≤ 1230 then 1
  else if pwm ≤ 1360 then 2
  else if pwm ≤ 1490 then 3
  else if pwm ≤ 1620 then 4
  else if pwm ≤ 1749 then 5
  else 6

structure ModeSwitchEstimate where
  channelNumber : Option ℤ
  pwm : Option ℕ
  estimatedSlot : Option ℕ
  configuredParamId : Option String
  configuredValue : Option ℤ

def deriveModeSwitchEstimate (snapshot : Snapshot) (vehicle : VehicleClass) : ModeSwitchEstimate :=
  match getModeChannelNumber snapshot with
  | none => ⟨none, none, none, none, none⟩
  | some channelNumber =>
    match pwmOf snapshot channelNumber with
    | none => ⟨some channelNumber, none, none, none, none⟩
    | some pwm =>
      let estimatedSlot := estimateFlightModeSlot pwm
      let configuredParamId := modeSlotParamId vehicle estimatedSlot
      ⟨some channelNumber, some pwm, some estimatedSlot, some configuredParamId,
        readRoundedParameter snapshot configuredParamId⟩

/-! ## The exercise -/

inductive ExerciseStatus
  | idle
  | running
  | passed
  | failed
  deriving DecidableEq

structure ModeSwitchExerciseState where
  status : ExerciseStatus
  targetSlots : List ℕ
  visitedSlots : List ℕ
  currentTargetSlot : Option ℕ
  unexpectedSlots : List ℕ
  failureReason : Option String

def createIdleModeSwitchExerciseState : ModeSwitchExerciseState := ⟨.idle, [], [], none, [], none⟩

def failModeSwitchExerciseState (current : ModeSwitchExerciseState) (reason : String) :
    ModeSwitchExerciseState :=
  { current with status := .failed, failureReason := some reason }

def createModeSwitchExerciseState (snapshot : Snapshot) (vehicle : VehicleClass) :
    ModeSwitchExerciseState :=
  if snapshot.verified = false then
    failModeSwitchExerciseState createIdleModeSwitchExerciseState
      "No live RC telemetry is available for the mode switch exercise."
  else if (deriveModeSwitchEstimate snapshot vehicle).channelNumber = none then
    failModeSwitchExerciseState createIdleModeSwitchExerciseState
      "Mode switch channel is not configured."
  else
    let targetSlots := (deriveModeExerciseAssignments snapshot vehicle).map (·.slot)
    if targetSlots.length < 2 then
      failModeSwitchExerciseState createIdleModeSwitchExerciseState
        ("At least two distinct configured flight-mode positions are required for the mode " ++
          "switch exercise.")
    else ⟨.running, targetSlots, [], targetSlots.head?, [], none⟩

def nextModeSwitchTarget (targetSlots visitedSlots : List ℕ) : Option ℕ :=
  targetSlots.find? (· ∉ visitedSlots)

/-- `[...slots, slot].sort((left, right) => left - right)`, unless the slot is there already. -/
def withSlot (slots : List ℕ) (slot : ℕ) : List ℕ :=
  if slot ∈ slots then slots else (slots ++ [slot]).insertionSort (· ≤ ·)

/-- The target that the mode of the observed slot belongs to. -/
def creditedSlot (current : ModeSwitchExerciseState) (snapshot : Snapshot) (vehicle : VehicleClass)
    (observedSlot : ℕ) (observedValue : Option ℤ) : Option ℕ :=
  if observedSlot ∈ current.targetSlots then some observedSlot
  else
    match observedValue with
    | none => none
    | some value =>
      ((deriveModeAssignments snapshot vehicle).find? fun assignment =>
        assignment.slot ∈ current.targetSlots ∧ assignment.value = value).map (·.slot)

/-- The end of `advanceModeSwitchExerciseState`: passed without a target left, and the same state
where nothing is new. -/
def withSlots (current : ModeSwitchExerciseState) (visitedSlots unexpectedSlots : List ℕ) :
    ModeSwitchExerciseState :=
  match nextModeSwitchTarget current.targetSlots visitedSlots with
  | none =>
    { current with
      status := .passed
      visitedSlots
      unexpectedSlots
      currentTargetSlot := none
      failureReason := none }
  | some currentTargetSlot =>
    if visitedSlots.length = current.visitedSlots.length ∧
        unexpectedSlots.length = current.unexpectedSlots.length ∧
        current.currentTargetSlot = some currentTargetSlot then current
    else { current with visitedSlots, unexpectedSlots, currentTargetSlot }

def advanceModeSwitchExerciseState (current : ModeSwitchExerciseState) (snapshot : Snapshot)
    (vehicle : VehicleClass) : ModeSwitchExerciseState :=
  if current.status ≠ .running then current
  else if snapshot.verified = false then
    failModeSwitchExerciseState current
      "Lost live RC telemetry before the mode switch exercise completed."
  else
    let estimate := deriveModeSwitchEstimate snapshot vehicle
    if estimate.channelNumber = none then
      failModeSwitchExerciseState current "Mode switch channel is no longer available."
    else
      match estimate.estimatedSlot with
      | none => current
      | some observedSlot =>
        let credited := creditedSlot current snapshot vehicle observedSlot estimate.configuredValue
        let visitedSlots := match credited with
          | some slot => withSlot current.visitedSlots slot
          | none => current.visitedSlots
        let unexpectedSlots := match credited with
          | some _ => current.unexpectedSlots
          | none => withSlot current.unexpectedSlots observedSlot
        withSlots current visitedSlots unexpectedSlots

/-- The exercise after some more snapshots. -/
def runModeSwitchExercise (vehicle : VehicleClass) (first : Snapshot) (snapshots : List Snapshot) :
    ModeSwitchExerciseState :=
  snapshots.foldl (fun current snapshot => advanceModeSwitchExerciseState current snapshot vehicle)
    (createModeSwitchExerciseState first vehicle)

/-! ## Targets -/

/-- The mode configuration that the exercise reads is the same in two snapshots. -/
structure SameModes (vehicle : VehicleClass) (first snapshot : Snapshot) : Prop where
  channel : getModeChannelNumber snapshot = getModeChannelNumber first
  value (slot : ℕ) : readRoundedParameter snapshot (modeSlotParamId vehicle slot) =
    readRoundedParameter first (modeSlotParamId vehicle slot)

/-- The configured mode of the position that is observed. -/
def observedMode (vehicle : VehicleClass) (snapshot : Snapshot) : Option ℤ :=
  (deriveModeSwitchEstimate snapshot vehicle).configuredValue

variable {vehicle : VehicleClass} {first snapshot : Snapshot} {a : ModeAssignment}

theorem mem_assignments :
    a ∈ deriveModeAssignments snapshot vehicle ↔ (1 ≤ a.slot ∧ a.slot ≤ 6) ∧
      readRoundedParameter snapshot (modeSlotParamId vehicle a.slot) = some a.value := by
  simp only [deriveModeAssignments, List.mem_filterMap, List.mem_range, Option.map_eq_some_iff]
  constructor
  · rintro ⟨index, hindex, value, hvalue, rfl⟩
    exact ⟨⟨Nat.succ_pos index, hindex⟩, hvalue⟩
  · rintro ⟨⟨hpos, hle⟩, hvalue⟩
    refine ⟨a.slot - 1, by omega, a.value, ?_, ?_⟩
    · rwa [Nat.sub_add_cancel hpos]
    · rw [Nat.sub_add_cancel hpos]

theorem SameModes.assignments (h : SameModes vehicle first snapshot) :
    deriveModeAssignments snapshot vehicle = deriveModeAssignments first vehicle :=
  List.filterMap_congr fun index _ => by rw [h.value]

variable {l : List ModeAssignment}

theorem firstOfEach_subset {seen : List ℤ} (h : a ∈ firstOfEach seen l) :
    a ∈ l ∧ a.value ∉ seen := by
  induction l generalizing seen with
  | nil => cases h
  | cons b l ih =>
    rw [firstOfEach] at h
    split at h
    · exact ⟨List.mem_cons_of_mem b (ih h).1, (ih h).2⟩
    · next hb =>
      rcases List.mem_cons.mp h with rfl | h
      · exact ⟨List.mem_cons_self, hb⟩
      · obtain ⟨hmem, hnew⟩ := ih h
        exact ⟨List.mem_cons_of_mem b hmem, fun hseen => hnew (List.mem_cons_of_mem _ hseen)⟩

theorem exists_firstOfEach {seen : List ℤ} (h : a ∈ l) (hseen : a.value ∉ seen) :
    ∃ b ∈ firstOfEach seen l, b.value = a.value := by
  induction l generalizing seen with
  | nil => cases h
  | cons c l ih =>
    rw [firstOfEach]
    split
    · next hc =>
      rcases List.mem_cons.mp h with rfl | h
      · exact absurd hc hseen
      · exact ih h hseen
    · by_cases hvalue : c.value = a.value
      · exact ⟨c, List.mem_cons_self, hvalue⟩
      · rcases List.mem_cons.mp h with rfl | h
        · exact absurd rfl hvalue
        · have hcons : a.value ∉ c.value :: seen := by simp [hseen, Ne.symm hvalue]
          obtain ⟨b, hb, hba⟩ := ih h hcons
          exact ⟨b, List.mem_cons_of_mem c hb, hba⟩

theorem firstOfEach_injective {seen : List ℤ} {b : ModeAssignment} (ha : a ∈ firstOfEach seen l)
    (hb : b ∈ firstOfEach seen l) (h : a.value = b.value) :
    a = b := by
  induction l generalizing seen with
  | nil => cases ha
  | cons c l ih =>
    rw [firstOfEach] at ha hb
    split at ha
    · next hc => exact ih ha (by rwa [if_pos hc] at hb)
    · next hc =>
      rw [if_neg hc] at hb
      rcases List.mem_cons.mp ha with rfl | ha <;> rcases List.mem_cons.mp hb with rfl | hb
      · rfl
      · exact absurd (h ▸ List.mem_cons_self) (firstOfEach_subset hb).2
      · exact absurd (h ▸ List.mem_cons_self) (firstOfEach_subset ha).2
      · exact ih ha hb

/-- The targets of the exercise. -/
def targets (vehicle : VehicleClass) (first : Snapshot) : List ModeAssignment :=
  deriveModeExerciseAssignments first vehicle

theorem target_value {t : ModeAssignment} (ht : t ∈ targets vehicle first) :
    readRoundedParameter first (modeSlotParamId vehicle t.slot) = some t.value :=
  (mem_assignments.mp (firstOfEach_subset ht).1).2

theorem exists_target (ha : a ∈ deriveModeAssignments first vehicle) :
    ∃ t ∈ targets vehicle first, t.value = a.value :=
  exists_firstOfEach ha List.not_mem_nil

variable {current : ModeSwitchExerciseState}

theorem creditedSlot_eq (hmodes : SameModes vehicle first snapshot)
    (htargets : current.targetSlots = (targets vehicle first).map (·.slot)) {observedSlot : ℕ}
    (hslot : 1 ≤ observedSlot ∧ observedSlot ≤ 6) {value : ℤ}
    (hvalue : readRoundedParameter snapshot (modeSlotParamId vehicle observedSlot) = some value) :
    ∃ t ∈ targets vehicle first, t.value = value ∧
      creditedSlot current snapshot vehicle observedSlot (some value) = some t.slot := by
  rw [hmodes.value] at hvalue
  by_cases hobserved : observedSlot ∈ current.targetSlots
  · obtain ⟨t, ht, rfl⟩ := List.mem_map.mp (htargets ▸ hobserved)
    refine ⟨t, ht, Option.some.inj ((target_value ht).symm.trans hvalue), ?_⟩
    rw [creditedSlot, if_pos hobserved]
  · have hassigned : ⟨observedSlot, value⟩ ∈ deriveModeAssignments first vehicle :=
      mem_assignments.mpr ⟨hslot, hvalue⟩
    obtain ⟨t, ht, htvalue⟩ := exists_target hassigned
    rw [creditedSlot, if_neg hobserved, hmodes.assignments]
    cases hfind : (deriveModeAssignments first vehicle).find? fun assignment =>
        assignment.slot ∈ current.targetSlots ∧ assignment.value = value with
    | none =>
      have := List.find?_eq_none.mp hfind t (firstOfEach_subset ht).1
      exact absurd (decide_eq_true ⟨htargets ▸ List.mem_map_of_mem ht, htvalue⟩) this
    | some a =>
      obtain ⟨ha, havalue⟩ : a.slot ∈ current.targetSlots ∧ a.value = value := by
        simpa using List.find?_some hfind
      obtain ⟨u, hu, huslot⟩ := List.mem_map.mp (htargets ▸ ha)
      have hassigned := (mem_assignments.mp (List.mem_of_find?_eq_some hfind)).2
      rw [← huslot, target_value hu] at hassigned
      exact ⟨u, hu, (Option.some.inj hassigned).trans havalue, by rw [Option.map_some, huslot]⟩

/-! ## Steps -/

variable {slots : List ℕ} {slot : ℕ}

theorem mem_withSlot {x : ℕ} :
    x ∈ withSlot slots slot ↔ x = slot ∨ x ∈ slots := by
  rw [withSlot]
  split
  · next h => exact ⟨.inr, fun hx => hx.elim (fun hx => hx ▸ h) id⟩
  · rw [List.mem_insertionSort, List.mem_append, List.mem_singleton, or_comm]

theorem withSlot_of_length (h : (withSlot slots slot).length = slots.length) :
    withSlot slots slot = slots := by
  rw [withSlot] at h ⊢
  split at h
  · next hmem => rw [if_pos hmem]
  · rw [List.length_insertionSort, List.length_append, List.length_singleton] at h
    omega

theorem nextModeSwitchTarget_eq_none {targetSlots visitedSlots : List ℕ} :
    nextModeSwitchTarget targetSlots visitedSlots = none ↔ ∀ t ∈ targetSlots, t ∈ visitedSlots := by
  rw [nextModeSwitchTarget, List.find?_eq_none]
  simp

theorem withSlots_fields (current : ModeSwitchExerciseState) (visited unexpected : List ℕ)
    (hvisited : visited.length = current.visitedSlots.length → visited = current.visitedSlots)
    (hunexpected : unexpected.length = current.unexpectedSlots.length →
      unexpected = current.unexpectedSlots) :
    (withSlots current visited unexpected).targetSlots = current.targetSlots ∧
      (withSlots current visited unexpected).visitedSlots = visited ∧
      (withSlots current visited unexpected).unexpectedSlots = unexpected ∧
      (withSlots current visited unexpected).status =
        if ∀ t ∈ current.targetSlots, t ∈ visited then .passed else current.status := by
  unfold withSlots
  split
  · next hnext => exact ⟨rfl, rfl, rfl, by rw [if_pos (nextModeSwitchTarget_eq_none.mp hnext)]⟩
  · next t hnext =>
    have hopen : ¬ ∀ t ∈ current.targetSlots, t ∈ visited := by
      rw [← nextModeSwitchTarget_eq_none, hnext]
      exact Option.some_ne_none t
    rw [if_neg hopen]
    split
    · next h => exact ⟨rfl, (hvisited h.1).symm, (hunexpected h.2.1).symm, rfl⟩
    · exact ⟨rfl, rfl, rfl, rfl⟩

theorem estimate_cases (hchannel : getModeChannelNumber snapshot ≠ none) (vehicle : VehicleClass) :
    (∃ c, deriveModeSwitchEstimate snapshot vehicle = ⟨some c, none, none, none, none⟩) ∨
      ∃ c pwm slot, (1 ≤ slot ∧ slot ≤ 6) ∧ deriveModeSwitchEstimate snapshot vehicle =
        ⟨some c, some pwm, some slot, some (modeSlotParamId vehicle slot),
          readRoundedParameter snapshot (modeSlotParamId vehicle slot)⟩ := by
  obtain ⟨c, hc⟩ := Option.ne_none_iff_exists'.mp hchannel
  rw [deriveModeSwitchEstimate, hc]
  dsimp only
  cases pwmOf snapshot c with
  | none => exact .inl ⟨c, rfl⟩
  | some pwm =>
    refine .inr ⟨c, pwm, estimateFlightModeSlot pwm, ?_, rfl⟩
    unfold estimateFlightModeSlot
    split_ifs <;> decide

theorem advance_of_not_running (h : current.status ≠ .running) (snapshot : Snapshot)
    (vehicle : VehicleClass) :
    advanceModeSwitchExerciseState current snapshot vehicle = current :=
  if_pos h

/-- What one snapshot with telemetry does: the slot that is credited, if a mode is observed, is
visited; only a slot without a mode is unexpected; and the exercise passes with its last target. -/
theorem advance_running (hmodes : SameModes vehicle first snapshot)
    (hchannel : getModeChannelNumber first ≠ none)
    (htargets : current.targetSlots = (targets vehicle first).map (·.slot))
    (hrunning : current.status = .running) (hverified : snapshot.verified = true)
    (hopen : ∃ t ∈ current.targetSlots, t ∉ current.visitedSlots) :
    let next := advanceModeSwitchExerciseState current snapshot vehicle
    next.targetSlots = current.targetSlots ∧
      (∀ slot, slot ∈ next.visitedSlots ↔ slot ∈ current.visitedSlots ∨
        ∃ t ∈ targets vehicle first, some t.value = observedMode vehicle snapshot ∧ slot = t.slot) ∧
      (∀ slot ∈ next.unexpectedSlots, slot ∈ current.unexpectedSlots ∨
        readRoundedParameter first (modeSlotParamId vehicle slot) = none) ∧
      next.status =
        if ∀ t ∈ current.targetSlots, t ∈ next.visitedSlots then .passed else .running := by
  intro next
  have hnext : next = advanceModeSwitchExerciseState current snapshot vehicle := rfl
  rw [advanceModeSwitchExerciseState, if_neg (by simp [hrunning]), if_neg (by simp [hverified])]
    at hnext
  rcases estimate_cases (hmodes.channel ▸ hchannel) vehicle with
    ⟨c, hestimate⟩ | ⟨c, pwm, slot, hslot, hestimate⟩
  · rw [hestimate, if_neg (Option.some_ne_none c)] at hnext
    rw [hnext, observedMode, hestimate]
    refine ⟨rfl, fun slot => by simp, fun slot => .inl, ?_⟩
    rw [if_neg (by simpa using hopen), hrunning]
  · rw [hestimate, if_neg (Option.some_ne_none c)] at hnext
    dsimp only at hnext
    rw [observedMode, hestimate]
    dsimp only
    cases hvalue : readRoundedParameter snapshot (modeSlotParamId vehicle slot) with
    | none =>
      have hcredited : creditedSlot current snapshot vehicle slot none = none := by
        refine if_neg fun hmem => ?_
        obtain ⟨t, ht, rfl⟩ := List.mem_map.mp (htargets ▸ hmem)
        rw [hmodes.value, target_value ht] at hvalue
        cases hvalue
      rw [hvalue, hcredited] at hnext
      obtain ⟨htarget, hvisit, hunexpected, hstatus⟩ := withSlots_fields current
        current.visitedSlots (withSlot current.unexpectedSlots slot) (fun _ => rfl)
        withSlot_of_length
      rw [hnext, hvisit, hunexpected, hstatus, hrunning]
      refine ⟨htarget, fun x => by simp, fun x hx => ?_, rfl⟩
      rcases mem_withSlot.mp hx with rfl | hx
      · exact .inr ((hmodes.value x).symm.trans hvalue)
      · exact .inl hx
    | some value =>
      obtain ⟨t, ht, htvalue, hcredited⟩ := creditedSlot_eq hmodes htargets hslot hvalue
      rw [hvalue, hcredited] at hnext
      obtain ⟨htarget, hvisit, hunexpected, hstatus⟩ := withSlots_fields current
        (withSlot current.visitedSlots t.slot) current.unexpectedSlots withSlot_of_length
        (fun _ => rfl)
      rw [hnext, hvisit, hunexpected, hstatus, hrunning]
      refine ⟨htarget, fun x => ?_, fun x => .inl, rfl⟩
      rw [mem_withSlot, or_comm]
      refine or_congr_right ⟨fun hx => ⟨t, ht, congrArg some htvalue, hx⟩, ?_⟩
      rintro ⟨u, hu, huvalue, rfl⟩
      rw [firstOfEach_injective hu ht ((Option.some.inj huvalue).trans htvalue.symm)]

/-! ## Runs -/

/-- Telemetry has not been lost and every configured mode has been observed. -/
def Shown (vehicle : VehicleClass) (first : Snapshot) (seen : List Snapshot) : Prop :=
  (∀ s ∈ seen, s.verified = true) ∧
    ∀ a ∈ deriveModeAssignments first vehicle, ∃ s ∈ seen, observedMode vehicle s = some a.value

/-- What holds of the exercise after the snapshots `seen`. -/
structure Tracks (vehicle : VehicleClass) (first : Snapshot) (seen : List Snapshot)
    (current : ModeSwitchExerciseState) : Prop where
  targetSlots : current.targetSlots = (targets vehicle first).map (·.slot)
  visited : ∀ slot ∈ current.visitedSlots, slot ∈ current.targetSlots
  unexpected : ∀ slot ∈ current.unexpectedSlots,
    readRoundedParameter first (modeSlotParamId vehicle slot) = none
  started : current.status ≠ .idle
  running : current.status = .running → (∀ s ∈ seen, s.verified = true) ∧
    (∃ t ∈ current.targetSlots, t ∉ current.visitedSlots) ∧
    ∀ t ∈ targets vehicle first, t.slot ∈ current.visitedSlots ↔
      ∃ s ∈ seen, observedMode vehicle s = some t.value
  failed : current.status = .failed → ∃ s ∈ seen, s.verified = false
  passed : current.status = .passed ↔ ∃ l, l <+: seen ∧ Shown vehicle first l

variable {seen : List Snapshot}

theorem exists_prefix_append {P : List Snapshot → Prop} {s : Snapshot} :
    (∃ l, l <+: seen ++ [s] ∧ P l) ↔ (∃ l, l <+: seen ∧ P l) ∨ P (seen ++ [s]) := by
  simp only [List.prefix_concat_iff, or_and_right, exists_or, exists_eq_left, or_comm]

theorem tracks_lost (h : Tracks vehicle first seen current) (hrunning : current.status = .running)
    (hlost : snapshot.verified = false) :
    Tracks vehicle first (seen ++ [snapshot])
      (advanceModeSwitchExerciseState current snapshot vehicle) := by
  rw [advanceModeSwitchExerciseState, if_neg (by simp [hrunning]), if_pos hlost]
  refine { h with
    started := by simp [failModeSwitchExerciseState]
    running := fun hstatus => by cases hstatus
    failed := fun _ => ⟨snapshot, by simp, hlost⟩
    passed := ?_ }
  rw [exists_prefix_append, ← h.passed, hrunning]
  refine iff_of_false (by simp [failModeSwitchExerciseState]) (not_or.mpr ⟨by simp, ?_⟩)
  intro hshown
  rw [hshown.1 snapshot (by simp)] at hlost
  cases hlost

theorem tracks_running (h : Tracks vehicle first seen current)
    (hchannel : getModeChannelNumber first ≠ none) (hmodes : SameModes vehicle first snapshot)
    (hrunning : current.status = .running) (hverified : snapshot.verified = true) :
    Tracks vehicle first (seen ++ [snapshot])
      (advanceModeSwitchExerciseState current snapshot vehicle) := by
  obtain ⟨hall, hopen, hvisited⟩ := h.running hrunning
  obtain ⟨htarget, hvisit, hunexpected, hstatus⟩ :=
    advance_running hmodes hchannel h.targetSlots hrunning hverified hopen
  generalize advanceModeSwitchExerciseState current snapshot vehicle = next at *
  have hverifiedAll : ∀ s ∈ seen ++ [snapshot], s.verified = true := fun s hs =>
    (List.mem_append.mp hs).elim (hall s) fun hs => List.mem_singleton.mp hs ▸ hverified
  have hseen : ∀ t ∈ targets vehicle first, t.slot ∈ next.visitedSlots ↔
      ∃ s ∈ seen ++ [snapshot], observedMode vehicle s = some t.value := by
    intro t ht
    simp only [hvisit, hvisited t ht, List.mem_append, List.mem_singleton, or_and_right, exists_or,
      exists_eq_left]
    refine or_congr_right ⟨?_, fun hobserved => ⟨t, ht, hobserved.symm, rfl⟩⟩
    rintro ⟨u, hu, hobserved, hslot⟩
    rw [← hobserved, ← target_value hu, ← hslot, target_value ht]
  have hdone : (∀ slot ∈ current.targetSlots, slot ∈ next.visitedSlots) ↔
      Shown vehicle first (seen ++ [snapshot]) := by
    rw [h.targetSlots, List.forall_mem_map, Shown, and_iff_right hverifiedAll]
    refine ⟨fun hslots a ha => ?_, fun hshown t ht => ?_⟩
    · obtain ⟨t, ht, hvalue⟩ := exists_target ha
      exact hvalue ▸ (hseen t ht).mp (hslots t ht)
    · exact (hseen t ht).mpr (hshown t (firstOfEach_subset ht).1)
  have hnone : ¬ ∃ l, l <+: seen ∧ Shown vehicle first l := by
    rw [← h.passed, hrunning]
    simp
  refine ⟨htarget.trans h.targetSlots, fun slot hslot => ?_, fun slot hslot => ?_, ?_,
    fun hrun => ⟨hverifiedAll, ?_, hseen⟩, fun hfail => ?_, ?_⟩
  · rw [htarget]
    rcases (hvisit slot).mp hslot with hslot | ⟨t, ht, -, rfl⟩
    · exact h.visited slot hslot
    · exact h.targetSlots ▸ List.mem_map_of_mem ht
  · exact (hunexpected slot hslot).elim (h.unexpected slot) id
  · rw [hstatus]
    split <;> simp
  · by_contra hnot
    rw [hstatus, if_pos (by simpa [htarget] using hnot)] at hrun
    cases hrun
  · rw [hstatus] at hfail
    split at hfail <;> cases hfail
  · rw [exists_prefix_append, or_iff_right hnone, ← hdone, hstatus]
    split
    · next hslots => exact iff_of_true rfl hslots
    · next hslots => exact iff_of_false (by simp) hslots

theorem tracks_advance (h : Tracks vehicle first seen current)
    (hchannel : getModeChannelNumber first ≠ none) (hmodes : SameModes vehicle first snapshot) :
    Tracks vehicle first (seen ++ [snapshot])
      (advanceModeSwitchExerciseState current snapshot vehicle) := by
  by_cases hrunning : current.status = .running
  · by_cases hverified : snapshot.verified = true
    · exact tracks_running h hchannel hmodes hrunning hverified
    · exact tracks_lost h hrunning (Bool.eq_false_of_not_eq_true hverified)
  · rw [advance_of_not_running hrunning]
    refine { h with
      running := fun hstatus => absurd hstatus hrunning
      failed := fun hstatus => ?_
      passed := ?_ }
    · obtain ⟨s, hs, hlost⟩ := h.failed hstatus
      exact ⟨s, List.mem_append_left _ hs, hlost⟩
    · rw [exists_prefix_append, ← h.passed]
      refine ⟨.inl, fun hpassed => hpassed.elim id fun hshown => by_contra fun hnot => ?_⟩
      have hfailed : current.status = .failed := by
        have := h.started
        cases hstatus : current.status <;> simp_all
      obtain ⟨s, hs, hlost⟩ := h.failed hfailed
      rw [hshown.1 s (List.mem_append_left _ hs)] at hlost
      cases hlost

/-- An exercise starts with all its targets open, or fails at once. -/
theorem create_cases (vehicle : VehicleClass) (first : Snapshot) :
    (∃ reason, createModeSwitchExerciseState first vehicle =
        failModeSwitchExerciseState createIdleModeSwitchExerciseState reason) ∨
      (getModeChannelNumber first ≠ none ∧ targets vehicle first ≠ [] ∧
        createModeSwitchExerciseState first vehicle =
          ⟨.running, (targets vehicle first).map (·.slot), [],
            ((targets vehicle first).map (·.slot)).head?, [], none⟩) := by
  unfold createModeSwitchExerciseState
  split
  · exact .inl ⟨_, rfl⟩
  split
  · exact .inl ⟨_, rfl⟩
  next hchannel =>
  dsimp only
  split
  · exact .inl ⟨_, rfl⟩
  next hlength =>
  refine .inr ⟨fun hnone => hchannel ?_, fun hnil => hlength ?_, rfl⟩
  · rw [deriveModeSwitchEstimate, hnone]
  · have htargets : deriveModeExerciseAssignments first vehicle = [] := hnil
    rw [htargets]
    decide

theorem tracks_run (hchannel : getModeChannelNumber first ≠ none)
    (hne : targets vehicle first ≠ []) (hstart : createModeSwitchExerciseState first vehicle =
      ⟨.running, (targets vehicle first).map (·.slot), [],
        ((targets vehicle first).map (·.slot)).head?, [], none⟩)
    {snapshots : List Snapshot} (hmodes : ∀ s ∈ snapshots, SameModes vehicle first s) :
    Tracks vehicle first snapshots (runModeSwitchExercise vehicle first snapshots) := by
  induction snapshots using List.reverseRecOn with
  | nil =>
    obtain ⟨t, ht⟩ := List.exists_mem_of_ne_nil _ hne
    rw [runModeSwitchExercise, List.foldl_nil, hstart]
    refine ⟨rfl, by simp, by simp, by simp, fun _ => ⟨by simp, ?_, by simp⟩, by simp, ?_⟩
    · exact ⟨t.slot, List.mem_map_of_mem ht, List.not_mem_nil⟩
    · refine iff_of_false (by simp) ?_
      rintro ⟨l, hl, -, hshown⟩
      obtain ⟨s, hs, -⟩ := hshown t (firstOfEach_subset ht).1
      exact absurd (hl.subset hs) List.not_mem_nil
  | append_singleton seen s ih =>
    rw [runModeSwitchExercise, List.foldl_append]
    exact tracks_advance (ih fun s hs => hmodes s (List.mem_append_left _ hs)) hchannel
      (hmodes s (by simp))

theorem modeSwitchExercise_correct (vehicle : VehicleClass) (first : Snapshot)
    (snapshots : List Snapshot) (hmodes : ∀ s ∈ snapshots, SameModes vehicle first s) :
    ((runModeSwitchExercise vehicle first snapshots).status = .passed ↔
        (createModeSwitchExerciseState first vehicle).status = .running ∧
          ∃ l, l <+: snapshots ∧ Shown vehicle first l) ∧
      (∀ slot ∈ (runModeSwitchExercise vehicle first snapshots).visitedSlots,
        slot ∈ (runModeSwitchExercise vehicle first snapshots).targetSlots) ∧
      (∀ slot ∈ (runModeSwitchExercise vehicle first snapshots).unexpectedSlots,
        readRoundedParameter first (modeSlotParamId vehicle slot) = none) ∧
      ∀ current : ModeSwitchExerciseState, current.status = .passed ∨ current.status = .failed →
        ∀ snapshot, advanceModeSwitchExerciseState current snapshot vehicle = current := by
  have hfrozen (current : ModeSwitchExerciseState)
      (h : current.status = .passed ∨ current.status = .failed) (snapshot : Snapshot) :
      advanceModeSwitchExerciseState current snapshot vehicle = current := by
    refine advance_of_not_running (fun hrunning => ?_) snapshot vehicle
    rw [hrunning] at h
    exact h.elim (fun h => by cases h) fun h => by cases h
  rcases create_cases vehicle first with ⟨reason, hcreate⟩ | ⟨hchannel, hne, hcreate⟩
  · have hrun : runModeSwitchExercise vehicle first snapshots =
        failModeSwitchExerciseState createIdleModeSwitchExerciseState reason := by
      rw [runModeSwitchExercise, hcreate]
      clear hmodes
      induction snapshots with
      | nil => rfl
      | cons s snapshots ih => rwa [List.foldl_cons, hfrozen _ (.inr rfl)]
    rw [hrun, hcreate]
    refine ⟨iff_of_false ?_ fun h => ?_, ?_, ?_, hfrozen⟩
    · simp [failModeSwitchExerciseState]
    · simp [failModeSwitchExerciseState] at h
    · simp [failModeSwitchExerciseState, createIdleModeSwitchExerciseState]
    · simp [failModeSwitchExerciseState, createIdleModeSwitchExerciseState]
  · have h := tracks_run hchannel hne hcreate hmodes
    exact ⟨by rw [h.passed, hcreate, and_iff_right rfl], h.visited, h.unexpected, hfrozen⟩

/-- Mode 0 on the slots 1 and 4, mode 5 on slot 2. -/
def switchAt (pwm : ℕ) : Snapshot :=
  ⟨true, [1500, 1500, 1000, 1500, pwm],
    [("FLTMODE1", 0), ("FLTMODE2", ((5 : ℕ) : ℚ)), ("FLTMODE4", 0)]⟩

theorem modeSwitchExercise_fourth_slot :
    (runModeSwitchExercise .ArduCopter (switchAt 1000) [switchAt 1300, switchAt 1500]).status =
      .passed := by
  refine (modeSwitchExercise_correct .ArduCopter (switchAt 1000) [switchAt 1300, switchAt 1500]
    (fun s hs => ?_)).1.mpr ⟨by decide +kernel, _, List.prefix_rfl, ?_⟩
  · simp only [List.mem_cons, List.not_mem_nil, or_false] at hs
    rcases hs with rfl | rfl <;> exact ⟨rfl, fun _ => rfl⟩
  · unfold Shown
    decide +kernel

end ArduConfigurator.Setup
