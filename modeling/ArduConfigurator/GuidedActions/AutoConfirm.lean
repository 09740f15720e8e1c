import ArduConfigurator.GuidedActions.AccelerometerCalibration

/-! # Automatic confirmations are earned

A confirmation that the action makes on its own comes after a prompt for its pose and after attitude
samples in that pose for the whole hold time, all since the last confirmation. -/
namespace ArduConfigurator.GuidedActions
open Runs
set_option autoImplicit false

/-! ## Histories -/

def Entry.isConfirmation : Entry → Bool
  | .confirmed _ _ => true
  | _ => false

def sinceConfirmation (history : List Entry) : List Entry :=
  (history.reverse.takeWhile fun entry => !entry.isConfirmation).reverse

variable {entry : Entry}

theorem sinceConfirmation_append (history : List Entry) (h : entry.isConfirmation = false) :
    sinceConfirmation (history ++ [entry]) = sinceConfirmation history ++ [entry] := by
  simp [sinceConfirmation, h]

variable (options : AccelerometerOptions) (math : Trigonometry)

/-- The entries end with samples in the pose of a step, from one at a given time on, each of them
near that one; before them is a prompt for the step. -/
def HeldSince (stepIndex : ℕ) (sinceMs : ℚ) (first : Attitude) (earlier held entries : List Entry) :
    Prop :=
  entries = earlier ++ .sample sinceMs first :: held ∧ .prompt stepIndex ∈ earlier ∧
    isAligned math stepIndex first = true ∧
    ∀ atMs attitude, .sample atMs attitude ∈ held →
      isAligned math stepIndex attitude = true ∧ isStill math first attitude = true

/-- What a history has to show before the action confirms a step on its own. -/
def Earned (before : List Entry) (stepIndex : ℕ) : Prop :=
  0 < stepIndex ∧ ∃ sinceMs first earlier held nowMs last,
    HeldSince math stepIndex sinceMs first earlier held (sinceConfirmation before) ∧
      held.getLast? = some (.sample nowMs last) ∧
      options.accelerometerAutoHoldMs ≤ nowMs - sinceMs

def AllEarned (history : List Entry) : Prop :=
  ∀ before stepIndex after, history = before ++ .confirmed stepIndex true :: after →
    Earned options math before stepIndex

variable {options math}

theorem HeldSince.append {stepIndex : ℕ} {sinceMs : ℚ} {first : Attitude}
    {earlier held entries : List Entry}
    (h : HeldSince math stepIndex sinceMs first earlier held entries)
    (hentry : ∀ atMs attitude, entry = .sample atMs attitude → isAligned math stepIndex attitude = true ∧ isStill math first attitude = true) :
    HeldSince math stepIndex sinceMs first earlier (held ++ [entry]) (entries ++ [entry]) := by
  obtain ⟨rfl, hprompt, hfirst, hheld⟩ := h
  refine ⟨by simp, hprompt, hfirst, ?_⟩
  intro atMs attitude hmem
  rw [List.mem_append, List.mem_singleton] at hmem
  obtain hmem | hmem := hmem
  · exact hheld atMs attitude hmem
  · exact hentry atMs attitude hmem.symm

theorem AllEarned.append {history : List Entry} (h : AllEarned options math history)
    (hentry : ∀ stepIndex, entry = .confirmed stepIndex true → Earned options math history stepIndex) :
    AllEarned options math (history ++ [entry]) := by
  intro before stepIndex after hsplit
  obtain rfl | ⟨after, last, rfl⟩ := List.eq_nil_or_concat after
  · obtain ⟨rfl, hlast⟩ := List.append_inj' hsplit rfl
    exact hentry stepIndex (List.singleton_injective hlast)
  · rw [List.concat_eq_append, ← List.cons_append, ← List.append_assoc] at hsplit
    obtain ⟨rfl, -⟩ := List.append_inj' hsplit rfl
    exact h before stepIndex after rfl

namespace AccelerometerCalibration

/-! ## The invariant -/

def promptedIndex (s : AccelerometerCalibration) : Option ℕ :=
  s.accelerometerCalibration.bind fun state =>
    if state.promptedByVehicle then some state.stepIndex else none

variable (options math) in
structure Confirms (s : AccelerometerCalibration) : Prop where
  prompted : ∀ stepIndex, s.promptedIndex = some stepIndex →
    .prompt stepIndex ∈ sinceConfirmation s.history
  held : ∀ hold, s.accelerometerHold = some hold → ∃ earlier held,
    HeldSince math hold.stepIndex hold.sinceMs hold.attitude earlier held
      (sinceConfirmation s.history)
  earned : AllEarned options math s.history
  counted : ∀ stepIndex, s.history.count (.confirmed stepIndex true) +
    (if s.promptedIndex = some stepIndex then 1 else 0) ≤ s.history.count (.prompt stepIndex)

theorem confirms_initial : Confirms options math initial := by
  refine ⟨?_, ?_, ?_, ?_⟩
  · intro stepIndex h
    cases h
  · intro hold h
    cases h
  · intro before stepIndex after h
    simp [initial] at h
  · intro stepIndex
    simp [initial, promptedIndex]

/-- Nothing happens that the history records, and no step or hold is gained. -/
structure Quiet (s t : AccelerometerCalibration) : Prop where
  history : t.history = s.history
  hold : t.accelerometerHold = s.accelerometerHold ∨ t.accelerometerHold = none
  step : t.promptedIndex = s.promptedIndex ∨ t.promptedIndex = none

variable {s t : AccelerometerCalibration}

theorem Quiet.confirms (h : Quiet s t) (hs : Confirms options math s) :
    Confirms options math t := by
  refine ⟨?_, ?_, ?_, ?_⟩
  · intro stepIndex hprompted
    rw [h.history]
    obtain hstep | hstep := h.step
    · exact hs.prompted stepIndex (hstep ▸ hprompted)
    · rw [hstep] at hprompted
      cases hprompted
  · intro hold hhold
    rw [h.history]
    obtain hsame | hnone := h.hold
    · exact hs.held hold (hsame ▸ hhold)
    · rw [hnone] at hhold
      cases hhold
  · rw [h.history]
    exact hs.earned
  · intro stepIndex
    have hcount := hs.counted stepIndex
    rw [h.history]
    obtain hstep | hstep := h.step
    · rw [hstep]
      exact hcount
    · rw [hstep, if_neg (by simp)]
      omega


/-! ## Handlers that confirm nothing on their own -/

theorem Quiet.refl (s : AccelerometerCalibration) : Quiet s s := ⟨rfl, .inl rfl, .inl rfl⟩

theorem Quiet.trans {u : AccelerometerCalibration} (hst : Quiet s t) (htu : Quiet t u) :
    Quiet s u := by
  refine ⟨htu.history.trans hst.history, ?_, ?_⟩
  · obtain h | h := htu.hold
    · rw [h]
      exact hst.hold
    · exact .inr h
  · obtain h | h := htu.step
    · rw [h]
      exact hst.step
    · exact .inr h

theorem quiet_of_step (hhistory : t.history = s.history)
    (hstep : t.accelerometerCalibration = s.accelerometerCalibration)
    (hhold : t.accelerometerHold = s.accelerometerHold ∨ t.accelerometerHold = none) :
    Quiet s t := by
  refine ⟨hhistory, hhold, .inl ?_⟩
  rw [promptedIndex, promptedIndex, hstep]

theorem quiet_startAccelerometerCalibration (s : AccelerometerCalibration) :
    Quiet s s.startAccelerometerCalibration :=
  quiet_of_step rfl rfl (.inl rfl)

theorem quiet_markStarted (s : AccelerometerCalibration) :
    Quiet s s.markAccelerometerCalibrationStarted :=
  ⟨rfl, .inl rfl, .inr rfl⟩

theorem quiet_handleStartAccepted (s : AccelerometerCalibration) (nowMs : ℚ) :
    Quiet s (s.handleStartAccepted options nowMs) := by
  rw [handleStartAccepted]
  split_ifs
  · exact quiet_markStarted s
  · exact ⟨rfl, .inl rfl, .inr rfl⟩
  · exact Quiet.refl s

theorem quiet_startReturned (s : AccelerometerCalibration) (outcome : StartOutcome) (nowMs : ℚ) :
    Quiet s (s.startReturned outcome nowMs) := by
  cases outcome with
  | accepted =>
    rw [startReturned]
    dsimp only
    split_ifs
    · exact ⟨rfl, .inl rfl, .inr rfl⟩
    · exact quiet_of_step rfl rfl (.inl rfl)
  | timedOut => exact ⟨rfl, .inr rfl, .inr rfl⟩
  | rejected => exact ⟨rfl, .inr rfl, .inr rfl⟩

theorem quiet_confirmationReturned (s : AccelerometerCalibration) (stepIndex : ℕ)
    (automatic sent : Bool) : Quiet s (s.confirmationReturned stepIndex automatic sent) := by
  cases sent with
  | true => exact quiet_of_step rfl rfl (.inr rfl)
  | false => exact ⟨rfl, .inr rfl, .inr rfl⟩

theorem quiet_handleStatusText (s : AccelerometerCalibration) (status : GuidedActionStatus) :
    Quiet s (s.handleStatusText status) := by
  cases status with
  | idle => exact quiet_of_step rfl rfl (.inl rfl)
  | requested => exact quiet_of_step rfl rfl (.inl rfl)
  | running => exact quiet_of_step rfl rfl (.inl rfl)
  | succeeded => exact ⟨rfl, .inr rfl, .inr rfl⟩
  | failed => exact ⟨rfl, .inr rfl, .inr rfl⟩

theorem quiet_onPromptFallback (s : AccelerometerCalibration) (stepIndex : ℕ) :
    Quiet s (s.onPromptFallback stepIndex) := by
  rw [onPromptFallback]
  dsimp only
  split
  · exact quiet_of_step rfl rfl (.inl rfl)
  · split_ifs
    · exact quiet_of_step rfl rfl (.inl rfl)
    · exact quiet_of_step rfl rfl (.inl rfl)

theorem quiet_onStepAdvance (s : AccelerometerCalibration) (stepIndex : ℕ) :
    Quiet s (s.onStepAdvance stepIndex) := by
  rw [onStepAdvance]
  split
  · exact Quiet.refl s
  · split_ifs
    · exact Quiet.refl s
    · exact Quiet.refl s
    · exact ⟨rfl, .inr rfl, .inr rfl⟩

theorem quiet_onAdvance (s : AccelerometerCalibration) (timer : AdvanceTimer) :
    Quiet s (s.onAdvance timer) := by
  have hfired : Quiet s { s with accelerometerAdvanceTimer := none } :=
    quiet_of_step rfl rfl (.inl rfl)
  cases timer with
  | stepAdvance stepIndex => exact hfired.trans (quiet_onStepAdvance _ stepIndex)
  | completionFallback stepIndex => exact hfired

theorem quiet_onPromptWatchdog (s : AccelerometerCalibration) : Quiet s s.onPromptWatchdog := by
  rw [onPromptWatchdog]
  dsimp only
  split_ifs
  · exact ⟨rfl, .inr rfl, .inr rfl⟩
  · exact quiet_of_step rfl rfl (.inl rfl)

theorem quiet_cancelAction (s : AccelerometerCalibration) : Quiet s s.cancelAction := by
  rw [cancelAction]
  split_ifs
  · exact ⟨rfl, .inr rfl, .inr rfl⟩
  · exact Quiet.refl s

theorem quiet_handleVehicleRestart (s : AccelerometerCalibration) :
    Quiet s s.handleVehicleRestart := by
  rw [handleVehicleRestart]
  split_ifs
  · exact ⟨rfl, .inr rfl, .inr rfl⟩
  · exact Quiet.refl s

theorem quiet_reset (s : AccelerometerCalibration) : Quiet s s.reset := ⟨rfl, .inr rfl, .inr rfl⟩


/-! ## Prompts -/

theorem confirms_record (hs : Confirms options math s) (stepIndex : ℕ) :
    Confirms options math (s.record (.prompt stepIndex)) := by
  have hsince : sinceConfirmation (s.history ++ [.prompt stepIndex]) =
      sinceConfirmation s.history ++ [.prompt stepIndex] := sinceConfirmation_append _ rfl
  refine ⟨?_, ?_, ?_, ?_⟩
  · intro i hi
    change .prompt i ∈ sinceConfirmation (s.history ++ [.prompt stepIndex])
    rw [hsince]
    exact List.mem_append_left _ (hs.prompted i hi)
  · intro hold hhold
    obtain ⟨earlier, held, hheld⟩ := hs.held hold hhold
    change ∃ earlier held, HeldSince math hold.stepIndex hold.sinceMs hold.attitude earlier held
      (sinceConfirmation (s.history ++ [.prompt stepIndex]))
    rw [hsince]
    refine ⟨earlier, _, hheld.append ?_⟩
    intro atMs attitude h
    cases h
  · apply hs.earned.append
    intro i h
    cases h
  · intro i
    have hcount := hs.counted i
    change List.count (Entry.confirmed i true) (s.history ++ [.prompt stepIndex]) +
      (if s.promptedIndex = some i then 1 else 0) ≤
        List.count (Entry.prompt i) (s.history ++ [.prompt stepIndex])
    rw [List.count_append, List.count_append]
    have hconfirmed : List.count (Entry.confirmed i true) [.prompt stepIndex] = 0 := by simp
    omega

variable {stepIndex : ℕ}

theorem confirms_prompted (hs : Confirms options math s)
    (hhistory : t.history = s.history ++ [.prompt stepIndex]) (hhold : t.accelerometerHold = none)
    (hstep : t.promptedIndex = some stepIndex) :
    Confirms options math t := by
  have hrecorded := confirms_record hs stepIndex
  refine ⟨?_, ?_, ?_, ?_⟩
  · intro i hi
    obtain rfl : stepIndex = i := Option.some.inj (hstep.symm.trans hi)
    rw [hhistory, sinceConfirmation_append _ rfl]
    exact List.mem_append_right _ List.mem_cons_self
  · intro hold h
    rw [hhold] at h
    cases h
  · rw [hhistory]
    exact hrecorded.earned
  · intro i
    have hcount := hs.counted i
    rw [hhistory, hstep, List.count_append, List.count_append]
    have hconfirmed : List.count (Entry.confirmed i true) [.prompt stepIndex] = 0 := by simp
    by_cases hi : stepIndex = i
    · subst hi
      simp only [if_true, List.count_singleton_self]
      omega
    · rw [if_neg (by simpa using hi)]
      omega

variable {value : JsNumber}

theorem quiet_takePrompt (h : promptedStep value = none) :
    Quiet s (s.takePrompt value) := by
  rw [takePrompt]
  dsimp only
  split_ifs
  · exact ⟨rfl, .inr rfl, .inr rfl⟩
  · exact ⟨rfl, .inr rfl, .inr rfl⟩
  · rw [h]
    exact quiet_of_step rfl rfl (.inl rfl)

theorem confirms_takePrompt {r : AccelerometerCalibration} (hs : Confirms options math s)
    (h : promptedStep value = some stepIndex) (hr : Quiet (s.record (.prompt stepIndex)) r) :
    Confirms options math (r.takePrompt value) := by
  have hrecorded := hr.confirms (confirms_record hs stepIndex)
  rw [takePrompt]
  dsimp only
  split_ifs
  · have hquiet : Quiet r
        { r with accelerometerPromptWatchdogTimer := true }.completeAccelerometerCalibration :=
      ⟨rfl, .inr rfl, .inr rfl⟩
    exact hquiet.confirms hrecorded
  · have hquiet : Quiet r
        { r with accelerometerPromptWatchdogTimer := true }.abandonStep.failAction :=
      ⟨rfl, .inr rfl, .inr rfl⟩
    exact hquiet.confirms hrecorded
  · rw [h]
    dsimp only
    split_ifs
    · have hquiet : Quiet r { r with
          accelerometerPromptWatchdogTimer := true }.clearAccelerometerPromptFallbackTimer :=
        quiet_of_step rfl rfl (.inl rfl)
      exact hquiet.confirms hrecorded
    · exact confirms_prompted hs hr.history rfl rfl

theorem confirms_handleCommandLong (hs : Confirms options math s) (param1 : Option JsNumber)
    (nowMs : ℚ) :
    Confirms options math (s.handleCommandLong options param1 nowMs) := by
  rw [handleCommandLong]
  cases hstep : promptedStep (commandValue param1) with
  | none =>
    have hrecord : s.recordPrompt (commandValue param1) = s := by
      rw [recordPrompt, hstep]
    rw [hrecord]
    split_ifs with hrunning hresume
    · exact (quiet_takePrompt hstep).confirms hs
    · exact absurd hresume.1 (by simp)
    · exact hs
  | some stepIndex =>
    have hrecord : s.recordPrompt (commandValue param1) = s.record (.prompt stepIndex) := by
      rw [recordPrompt, hstep]
    rw [hrecord]
    split_ifs
    · exact confirms_takePrompt hs hstep (Quiet.refl _)
    · exact confirms_takePrompt hs hstep (quiet_of_step rfl rfl (.inl rfl))
    · exact confirms_record hs stepIndex

/-! ## Confirmations and samples -/

theorem confirms_confirmed (hs : Confirms options math s) {automatic : Bool}
    (hhistory : t.history = s.history ++ [.confirmed stepIndex automatic])
    (hhold : t.accelerometerHold = none) (hnone : t.promptedIndex = none)
    (hauto : automatic = true → s.promptedIndex = some stepIndex ∧ Earned options math s.history stepIndex) :
    Confirms options math t := by
  refine ⟨?_, ?_, ?_, ?_⟩
  · intro i hi
    rw [hnone] at hi
    cases hi
  · intro hold h
    rw [hhold] at h
    cases h
  · rw [hhistory]
    apply hs.earned.append
    intro i hi
    obtain ⟨rfl, rfl⟩ := Entry.confirmed.inj hi
    exact (hauto rfl).2
  · intro i
    have hcount := hs.counted i
    rw [hhistory, hnone, List.count_append, List.count_append]
    have hprompt : List.count (Entry.prompt i) [.confirmed stepIndex automatic] = 0 := by simp
    by_cases hi : stepIndex = i ∧ automatic = true
    · obtain ⟨rfl, rfl⟩ := hi
      rw [if_pos (hauto rfl).1] at hcount
      rw [List.count_singleton_self, hprompt, if_neg (by simp)]
      omega
    · have hconfirmed :
          List.count (Entry.confirmed i true) [.confirmed stepIndex automatic] = 0 := by
        rw [List.count_eq_zero, List.mem_singleton]
        intro h
        obtain ⟨hindex, hautomatic⟩ := Entry.confirmed.inj h
        exact hi ⟨hindex.symm, hautomatic.symm⟩
      rw [hconfirmed, hprompt, if_neg (by simp)]
      split_ifs at hcount <;> omega

theorem confirms_advance (hs : Confirms options math s) (stepIndex : ℕ) :
    Confirms options math (s.advanceAccelerometerCalibration stepIndex false) := by
  rw [advanceAccelerometerCalibration]
  split_ifs
  · refine confirms_confirmed hs rfl rfl rfl ?_
    intro h
    cases h
  · exact hs

theorem confirms_run (hs : Confirms options math s) :
    Confirms options math s.runAccelerometerCalibrationAction := by
  have hstart := (quiet_startAccelerometerCalibration s).confirms hs
  rw [runAccelerometerCalibrationAction]
  split
  · split_ifs
    · exact confirms_advance hs _
    · exact hstart
  · exact hstart


theorem promptedIndex_of_awaited (h : s.awaitedStep = some stepIndex) :
    s.promptedIndex = some stepIndex ∧ 0 < stepIndex := by
  rw [awaitedStep] at h
  rw [promptedIndex]
  cases hstate : s.accelerometerCalibration with
  | none =>
    rw [hstate] at h
    cases h
  | some state =>
    rw [hstate] at h
    dsimp only at h
    split_ifs at h with hblocked
    cases h
    simp only [not_or, Bool.not_eq_false] at hblocked
    refine ⟨?_, Nat.pos_of_ne_zero hblocked.2.2.2.2.1⟩
    rw [Option.bind_some, if_pos hblocked.2.1]

theorem confirms_sample (hs : Confirms options math s) {atMs : ℚ} {attitude : Attitude}
    (hhistory : t.history = s.history ++ [.sample atMs attitude])
    (hstep : t.promptedIndex = s.promptedIndex)
    (hhold : ∀ hold, t.accelerometerHold = some hold → ∃ earlier held, HeldSince math hold.stepIndex hold.sinceMs hold.attitude earlier held (sinceConfirmation s.history ++ [.sample atMs attitude])) :
    Confirms options math t := by
  have hsince : sinceConfirmation (s.history ++ [.sample atMs attitude]) =
      sinceConfirmation s.history ++ [.sample atMs attitude] := sinceConfirmation_append _ rfl
  refine ⟨?_, ?_, ?_, ?_⟩
  · intro i hi
    rw [hhistory, hsince]
    rw [hstep] at hi
    exact List.mem_append_left _ (hs.prompted i hi)
  · intro hold h
    rw [hhistory, hsince]
    exact hhold hold h
  · rw [hhistory]
    apply hs.earned.append
    intro i h
    cases h
  · intro i
    have hcount := hs.counted i
    rw [hhistory, hstep, List.count_append, List.count_append]
    have hconfirmed : List.count (Entry.confirmed i true) [.sample atMs attitude] = 0 := by simp
    omega

theorem confirms_judgeSample (hs : Confirms options math s) (attitude : Attitude) (nowMs : ℚ) :
    Confirms options math
      ((s.record (.sample nowMs attitude)).judgeSample options math attitude nowMs) := by
  generalize hr : s.record (.sample nowMs attitude) = r
  have hhistory : r.history = s.history ++ [.sample nowMs attitude] := by
    rw [← hr]
    rfl
  have hstep : r.promptedIndex = s.promptedIndex := by
    rw [← hr]
    rfl
  have hhold : r.accelerometerHold = s.accelerometerHold := by
    rw [← hr]
    rfl
  have hdropped : Confirms options math { r with accelerometerHold := none } := by
    apply confirms_sample hs (t := { r with accelerometerHold := none }) hhistory hstep
    intro hold h
    cases h
  rw [judgeSample]
  cases hawaited : r.awaitedStep with
  | none => exact hdropped
  | some stepIndex =>
    obtain ⟨hprompted, hpositive⟩ := promptedIndex_of_awaited hawaited
    have hprompt := hs.prompted stepIndex (hstep ▸ hprompted)
    cases haligned : isAligned math stepIndex attitude with
    | false => simpa [haligned] using hdropped
    | true =>
      have hstarted : Confirms options math
          { r with accelerometerHold := some ⟨stepIndex, nowMs, attitude⟩ } := by
        apply confirms_sample hs
          (t := { r with accelerometerHold := some ⟨stepIndex, nowMs, attitude⟩ }) hhistory hstep
        intro hold h
        cases h
        refine ⟨_, [], rfl, hprompt, haligned, ?_⟩
        intro atMs a hmem
        cases hmem
      simp only [haligned, if_true]
      cases hcurrent : r.accelerometerHold with
      | none => exact hstarted
      | some hold =>
        dsimp only
        split_ifs with hsteady hshort
        · obtain ⟨rfl, hstill⟩ := hsteady
          obtain ⟨earlier, held, hheld⟩ := hs.held hold (hhold ▸ hcurrent)
          apply confirms_sample hs hhistory hstep
          intro other h
          obtain rfl : hold = other := Option.some.inj (hcurrent.symm.trans h)
          refine ⟨earlier, _, hheld.append ?_⟩
          intro atMs a hsample
          obtain ⟨rfl, rfl⟩ := Entry.sample.inj hsample
          exact ⟨haligned, hstill⟩
        · obtain ⟨rfl, hstill⟩ := hsteady
          obtain ⟨earlier, held, hheld⟩ := hs.held hold (hhold ▸ hcurrent)
          have hearned : Earned options math r.history hold.stepIndex := by
            refine ⟨hpositive, hold.sinceMs, hold.attitude, earlier,
              held ++ [.sample nowMs attitude], nowMs, attitude, ?_, List.getLast?_concat,
              not_lt.mp hshort⟩
            rw [hhistory, sinceConfirmation_append _ rfl]
            apply hheld.append
            intro atMs a hsample
            obtain ⟨rfl, rfl⟩ := Entry.sample.inj hsample
            exact ⟨haligned, hstill⟩
          have hfree : Confirms options math
              { r with accelerometerHold := none, accelerometerAutoConfirmInFlight := true } := by
            have hquiet : Quiet { r with accelerometerHold := none }
                { r with accelerometerHold := none, accelerometerAutoConfirmInFlight := true } :=
              quiet_of_step rfl rfl (.inl rfl)
            exact hquiet.confirms hdropped
          rw [advanceAccelerometerCalibration]
          split_ifs
          · refine confirms_confirmed hfree rfl rfl rfl ?_
            intro _
            exact ⟨hprompted, hearned⟩
          · exact hfree
        · exact hstarted

theorem confirms_handleAttitudeSample (hs : Confirms options math s)
    (rollDeg pitchDeg : Option JsNumber) (nowMs : ℚ) :
    Confirms options math (s.handleAttitudeSample options math rollDeg pitchDeg nowMs) := by
  cases rollDeg with
  | none => exact hs
  | some roll =>
    cases pitchDeg with
    | none => exact hs
    | some pitch =>
      rw [handleAttitudeSample]
      split_ifs
      · exact hs
      · exact confirms_judgeSample hs _ nowMs

/-! ## Runs -/

theorem confirms_step {event : AccelerometerEvent} (hs : Confirms options math s)
    (h : step options math s event = some t) :
    Confirms options math t := by
  cases event with
  | run =>
    cases h
    exact confirms_run hs
  | startAccepted nowMs =>
    cases h
    exact (quiet_handleStartAccepted s nowMs).confirms hs
  | startReturned outcome nowMs =>
    rw [step] at h
    split_ifs at h
    cases h
    exact (quiet_startReturned s outcome nowMs).confirms hs
  | commandLong param1 nowMs =>
    cases h
    exact confirms_handleCommandLong hs param1 nowMs
  | attitudeSample rollDeg pitchDeg nowMs =>
    cases h
    exact confirms_handleAttitudeSample hs rollDeg pitchDeg nowMs
  | confirmationReturned index sent =>
    obtain ⟨call, -, rfl⟩ := Option.map_eq_some_iff.mp h
    have hcalls : Quiet s
        { s with confirmationsPending := s.confirmationsPending.eraseIdx index } :=
      quiet_of_step rfl rfl (.inl rfl)
    exact (hcalls.trans (quiet_confirmationReturned _ call.1 call.2 sent)).confirms hs
  | statusText status =>
    cases status with
    | idle => cases h
    | requested => cases h
    | running =>
      cases h
      exact (quiet_handleStatusText s .running).confirms hs
    | succeeded =>
      cases h
      exact (quiet_handleStatusText s .succeeded).confirms hs
    | failed =>
      cases h
      exact (quiet_handleStatusText s .failed).confirms hs
  | promptFallback =>
    obtain ⟨stepIndex, -, rfl⟩ := Option.map_eq_some_iff.mp h
    exact (quiet_onPromptFallback s stepIndex).confirms hs
  | advance =>
    obtain ⟨timer, -, rfl⟩ := Option.map_eq_some_iff.mp h
    exact (quiet_onAdvance s timer).confirms hs
  | promptWatchdog =>
    rw [step] at h
    split_ifs at h
    cases h
    exact (quiet_onPromptWatchdog s).confirms hs
  | cancel =>
    cases h
    exact (quiet_cancelAction s).confirms hs
  | vehicleRestart =>
    cases h
    exact (quiet_handleVehicleRestart s).confirms hs
  | reset =>
    cases h
    exact (quiet_reset s).confirms hs

/-- In every run each automatic confirmation is earned by what came since the last confirmation, and
no step is confirmed automatically more often than the autopilot asked for it. -/
theorem auto_confirm_earned {events : List AccelerometerEvent} {s : AccelerometerCalibration}
    (h : run (step options math) initial events = some s) :
    AllEarned options math s.history ∧ ∀ stepIndex,
      s.history.count (.confirmed stepIndex true) ≤ s.history.count (.prompt stepIndex) := by
  have hs : Confirms options math s :=
    run_invariant (fun s event t hs ht => confirms_step hs ht) confirms_initial h
  refine ⟨hs.earned, ?_⟩
  intro stepIndex
  have hcount := hs.counted stepIndex
  omega

def leftSideMath : Trigonometry where
  sin x := if x = -90 * DEG2RAD then -1 else 0
  cos x := if x = -90 * DEG2RAD then 6.123233995736766e-17 else 1
  acos _ := 0

def defaultOptions : AccelerometerOptions := ⟨1200, 15000⟩

def leftSideRun : List AccelerometerEvent :=
  [.run, .startAccepted 0, .commandLong (some 1) 10, .run, .confirmationReturned 0 true,
    .commandLong (some 2) 2000, .attitudeSample (some (-90)) (some 0) 3000,
    .attitudeSample (some (-90)) (some 0) 4300]

theorem left_side_earned : ∃ s,
    run (step defaultOptions leftSideMath) initial leftSideRun = some s ∧
    .confirmed 1 true ∈ s.history ∧ AllEarned defaultOptions leftSideMath s.history := by
  have hrun : (run (step defaultOptions leftSideMath) initial leftSideRun).map
      (fun s => s.history.getLast?) = some (some (.confirmed 1 true)) := by decide +kernel
  obtain ⟨s, hs, hlast⟩ := Option.map_eq_some_iff.mp hrun
  exact ⟨s, hs, List.mem_of_getLast? hlast, (auto_confirm_earned hs).1⟩

end AccelerometerCalibration
end ArduConfigurator.GuidedActions
