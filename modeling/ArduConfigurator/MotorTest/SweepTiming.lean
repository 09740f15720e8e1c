import ArduConfigurator.MotorTest.Stop
import Mathlib.Algebra.BigOperators.Ring.Finset

/-! # The window of a sweep

The first acknowledgement of an in-order sweep arms two timers: the pause before the next motor, and
the completion of the whole sweep after its windows and pauses. Every later acknowledgement delays
the motors behind it and not the completion. Of two timers that are due, the earlier fires; at a tie
either may. -/
namespace ArduConfigurator.MotorTest
open Runs
set_option autoImplicit false

def MOTOR_TEST_COMPLETION_BUFFER_MS : ℕ := 250
def MOTOR_TEST_SWEEP_GAP_MS : ℕ := 500

/-- `Math.max(durationSeconds * 1000, 0)`. -/
def Spin.windowMs (spin : Spin) : ℚ := max (spin.durationSeconds * (1000 : ℕ)) 0

def Spin.stepMs (spin : Spin) : ℚ := spin.windowMs + MOTOR_TEST_SWEEP_GAP_MS

/-- The delay of `scheduleCompletion` for a sweep. -/
def Spin.completionMs (spin : Spin) (motorCount : ℕ) : ℚ :=
  spin.windowMs * motorCount + MOTOR_TEST_SWEEP_GAP_MS * (motorCount - 1 : ℕ) +
    MOTOR_TEST_COMPLETION_BUFFER_MS

/-- How long a command waits for its answer, and the error where it fails. -/
structure Answer where
  latencyMs : ℚ≥0
  failure : Option String

namespace MotorTestService

/-- A service with one waiting call and the times at which that call goes on and at which the
completion timer fires, where it is armed. -/
structure TimedService where
  service : MotorTestService
  wakeMs : ℚ
  dueMs : ℚ

inductive Tick
  | wake
  | completion

section
variable (answers : ℕ → Answer)

/-- The answer to the command sent last; answers are numbered as the commands on the wire are. -/
def lastAnswer (s : MotorTestService) : Answer := answers (s.commands.length - 1)

/-- How long the first waiting call waits: a pause of a sweep, or an acknowledgement. -/
def waitMs (s : MotorTestService) : ℚ :=
  match s.tasks.head? with
  | none => 0
  | some (.sweepGap _ spin _) => spin.stepMs
  | some _ => (lastAnswer answers s).latencyMs

def wakeFailure (s : MotorTestService) : Task → Option String
  | .sweepGap .. => none
  | _ => (lastAnswer answers s).failure

/-- `scheduleCompletion`, where the first command of a sweep is acknowledged. -/
def TimedService.completionAt (c : TimedService) : Task → Option String → ℚ
  | .sweepStart _ spin rest, none => c.wakeMs + spin.completionMs (rest.length + 1)
  | _, _ => c.dueMs

def TimedService.step (c : TimedService) : Tick → Option TimedService
  | .wake =>
    match c.service.tasks with
    | [] => none
    | task :: rest =>
      if c.service.completionTimer = true ∧ c.dueMs < c.wakeMs then none
      else
        let failure := wakeFailure answers c.service task
        let service := { c.service with tasks := rest }.settle task failure
        some ⟨service, c.wakeMs + waitMs answers service, c.completionAt task failure⟩
  | .completion =>
    if c.service.completionTimer = false ∨ (c.service.tasks ≠ [] ∧ c.wakeMs < c.dueMs) then none
    else some ⟨c.service.complete, c.wakeMs, c.dueMs⟩

/-- An accepted run at a given time, whatever an older completion timer was set to. -/
def TimedService.start (s : MotorTestService) (snapshot : Snapshot) (request : MotorTestRequest)
    (options : MotorTestEligibilityOptions) (nowMs dueMs : ℚ) : TimedService :=
  ⟨s.run snapshot request options, nowMs + waitMs answers (s.run snapshot request options), dueMs⟩

/-! ## How late the last motor is -/

/-- The time from the answer to command `i` until the last of the `left` motors behind it is
commanded, or until an answer on the way is a failure. -/
def untilLast (stepMs : ℚ) : ℕ → ℕ → ℚ
  | _, 0 => 0
  | i, left + 1 =>
    if (answers i).failure.isSome then 0
    else stepMs + if left = 0 then 0 else (answers (i + 1)).latencyMs + untilLast stepMs (i + 1) left

/-- The same from the moment at which command `i` is sent. -/
def fromSent (stepMs : ℚ) (i left : ℕ) : ℚ :=
  if left = 0 then 0 else (answers i).latencyMs + untilLast answers stepMs i left

variable {answers}

theorem windowMs_nonneg (spin : Spin) : 0 ≤ spin.windowMs := le_max_right _ _

theorem stepMs_pos (spin : Spin) : 0 < spin.stepMs := by
  have hwindow := windowMs_nonneg spin
  have hgap : (0 : ℚ) < (MOTOR_TEST_SWEEP_GAP_MS : ℕ) := Nat.cast_pos.mpr (by decide)
  rw [Spin.stepMs]
  linarith

theorem completionMs_pos (spin : Spin) (motorCount : ℕ) : 0 < spin.completionMs motorCount := by
  have hwindow := mul_nonneg (windowMs_nonneg spin) (Nat.cast_nonneg (α := ℚ) motorCount)
  have hgap : (0 : ℚ) ≤ MOTOR_TEST_SWEEP_GAP_MS * (motorCount - 1 : ℕ) :=
    mul_nonneg (Nat.cast_nonneg _) (Nat.cast_nonneg _)
  have hbuffer : (0 : ℚ) < (MOTOR_TEST_COMPLETION_BUFFER_MS : ℕ) := Nat.cast_pos.mpr (by decide)
  rw [Spin.completionMs]
  linarith

variable {spin : Spin}

theorem untilLast_nonneg (left : ℕ) :
    ∀ i, 0 ≤ untilLast answers spin.stepMs i left := by
  have hstep := stepMs_pos spin
  induction left with
  | zero => exact fun i => le_refl 0
  | succ left ih =>
    intro i
    have hlatency : (0 : ℚ) ≤ (answers (i + 1)).latencyMs := NNRat.cast_nonneg _
    have hrest := ih (i + 1)
    rw [untilLast]
    split_ifs
    · exact le_refl 0
    · linarith
    · linarith

theorem fromSent_nonneg (i left : ℕ) : 0 ≤ fromSent answers spin.stepMs i left := by
  have hlatency : (0 : ℚ) ≤ (answers i).latencyMs := NNRat.cast_nonneg _
  have hrest : 0 ≤ untilLast answers spin.stepMs i left := untilLast_nonneg left i
  rw [fromSent]
  split_ifs
  · exact le_refl 0
  · linarith

variable {stepMs : ℚ} {left : ℕ}

theorem untilLast_succ {i : ℕ} (h : (answers i).failure = none) :
    untilLast answers stepMs i (left + 1) = stepMs + fromSent answers stepMs (i + 1) left := by
  rw [untilLast, h, fromSent]
  rfl

theorem untilLast_failed {i : ℕ} (h : (answers i).failure ≠ none) :
    untilLast answers stepMs i left = 0 := by
  cases left with
  | zero => rfl
  | succ left => rw [untilLast, if_pos (Option.isSome_iff_ne_none.mpr h)]

end

/-! ## Phases of a sweep -/

/-- The motors `done` are commanded, and `tasks` wait. -/
structure Sweeping (base : List MotorCommand) (spin : Spin) (token : ℕ) (c : TimedService)
    (done : List ℕ) (tasks : List Task) : Prop where
  tasks : c.service.tasks = tasks
  token : c.service.sweepToken = token
  commands : c.service.commands = base ++ done.map spin.command

structure Running (c : TimedService) : Prop where
  status : c.service.status = .running
  timer : c.service.completionTimer = true

section
variable {answers : ℕ → Answer} {base : List MotorCommand} {spin : Spin} {token i q : ℕ}
  {c u : TimedService} {done left qs : List ℕ} {tasks : List Task}

theorem Sweeping.lastAnswer (h : Sweeping base spin token c done tasks)
    (hi : base.length + done.length = i + 1) : lastAnswer answers c.service = answers i := by
  rw [MotorTestService.lastAnswer, h.commands, List.length_append, List.length_map, hi,
    Nat.add_sub_cancel]

theorem step_wake {task : Task} (htasks : c.service.tasks = task :: tasks)
    (hdue : ¬(c.service.completionTimer = true ∧ c.dueMs < c.wakeMs)) {failure : Option String}
    (hfailure : wakeFailure answers c.service task = failure) {t : MotorTestService}
    (hsettle : ({ c.service with tasks := tasks } : MotorTestService).settle task failure = t) :
    c.step answers .wake =
      some ⟨t, c.wakeMs + waitMs answers t, c.completionAt task failure⟩ := by
  rw [TimedService.step, htasks]
  dsimp only
  rw [if_neg hdue, hfailure, hsettle]

variable (answers) in
theorem gap_wake (h : Sweeping base spin token c done [.sweepGap token spin (q :: left)])
    (hrunning : Running c) (hdue : ¬c.dueMs < c.wakeMs) :
    ∃ u, c.step answers .wake = some u ∧
      Sweeping base spin token u (done ++ [q]) [.sweepCommand token spin left] ∧ Running u ∧
      u.wakeMs = c.wakeMs + (answers (base.length + done.length)).latencyMs ∧
      u.dueMs = c.dueMs := by
  have hgoes : ¬(token ≠ c.service.sweepToken ∨ c.service.status ≠ .running) := by
    rw [h.token, hrunning.status]
    simp
  have hsettle : ({ c.service with tasks := [] } : MotorTestService).settle
      (.sweepGap token spin (q :: left)) none =
      ({ c.service with tasks := [], activeSimultaneousSequences := [q] } :
        MotorTestService).sendCommand q spin (.sweepCommand token spin left) := by
    simp only [settle, sweepNext]
    rw [if_neg hgoes]
  have hcommands : c.service.commands ++ [spin.command q] =
      base ++ (done ++ [q]).map spin.command := by
    rw [h.commands, List.map_append, ← List.append_assoc]
    rfl
  have hlast : lastAnswer answers (({ c.service with
      tasks := [], activeSimultaneousSequences := [q] } : MotorTestService).sendCommand q spin
        (.sweepCommand token spin left)) = answers (base.length + done.length) := by
    rw [MotorTestService.lastAnswer]
    apply congrArg
    change (c.service.commands ++ [spin.command q]).length - 1 = _
    rw [h.commands, List.length_append, List.length_append, List.length_map,
      List.length_singleton, Nat.add_sub_cancel]
  refine ⟨_, step_wake h.tasks (fun hboth => hdue hboth.2) rfl hsettle,
    ⟨rfl, h.token, hcommands⟩, ⟨hrunning.status, hrunning.timer⟩, ?_, rfl⟩
  exact congrArg (fun a : Answer => c.wakeMs + a.latencyMs) hlast

theorem command_wake (h : Sweeping base spin token c done [.sweepCommand token spin left])
    (hi : base.length + done.length = i + 1) (hleft : left ≠ []) (hrunning : Running c)
    (hdue : ¬c.dueMs < c.wakeMs) (hanswer : (answers i).failure = none) :
    ∃ u, c.step answers .wake = some u ∧
      Sweeping base spin token u done [.sweepGap token spin left] ∧ Running u ∧
      u.wakeMs = c.wakeMs + spin.stepMs ∧ u.dueMs = c.dueMs := by
  have hfailure : wakeFailure answers c.service (.sweepCommand token spin left) = none :=
    (congrArg Answer.failure (h.lastAnswer hi)).trans hanswer
  have hsettle : ({ c.service with tasks := [] } : MotorTestService).settle
      (.sweepCommand token spin left) none =
      { c.service with tasks := [.sweepGap token spin left] } := by
    rw [settle, if_neg (by rw [h.token]; simp), if_neg (by simp), continueSweep, if_neg hleft]
    rfl
  exact ⟨_, step_wake h.tasks (fun hboth => hdue hboth.2) hfailure hsettle,
    ⟨rfl, h.token, h.commands⟩, ⟨hrunning.status, hrunning.timer⟩, rfl, rfl⟩

theorem start_wake (h : Sweeping base spin token c [q] [.sweepStart token spin left])
    (hleft : left ≠ []) (hdue : ¬(c.service.completionTimer = true ∧ c.dueMs < c.wakeMs))
    (hanswer : (answers base.length).failure = none) :
    ∃ u, c.step answers .wake = some u ∧
      Sweeping base spin token u [q] [.sweepGap token spin left] ∧ Running u ∧
      u.wakeMs = c.wakeMs + spin.stepMs ∧
      u.dueMs = c.wakeMs + spin.completionMs (left.length + 1) := by
  have hfailure : wakeFailure answers c.service (.sweepStart token spin left) = none :=
    (congrArg Answer.failure (h.lastAnswer rfl)).trans hanswer
  have hsettle : ({ c.service with tasks := [] } : MotorTestService).settle
      (.sweepStart token spin left) none =
      ({ c.service with tasks := [.sweepGap token spin left] } : MotorTestService).finishRun := by
    rw [settle]
    dsimp only
    rw [continueSweep, if_neg hleft]
    rfl
  exact ⟨_, step_wake h.tasks hdue hfailure hsettle, ⟨rfl, h.token, h.commands⟩, ⟨rfl, rfl⟩, rfl,
    rfl⟩

variable (answers) in
theorem running_completion (hrunning : Running c) (hdue : c.dueMs ≤ c.wakeMs) :
    ∃ u, c.step answers .completion = some u ∧ u.service.status = .succeeded ∧
      u.service.commands = c.service.commands := by
  have hstep : c.step answers .completion = some ⟨c.service.complete, c.wakeMs, c.dueMs⟩ := by
    rw [TimedService.step, if_neg]
    rintro (hoff | ⟨-, hlt⟩)
    · rw [hrunning.timer] at hoff
      cases hoff
    · exact absurd hdue (not_le_of_gt hlt)
  have hnot : ¬c.service.status ≠ .running := not_not.mpr hrunning.status
  refine ⟨_, hstep, ?_, ?_⟩
  · simp only [complete]
    rw [if_neg hnot]
  · simp only [complete]
    rw [if_neg hnot]

/-! ## A sweep whose last motor is late -/

variable (answers) in
theorem overtaken (left : List ℕ) :
    ∀ {c : TimedService} {done : List ℕ} {q : ℕ},
      Sweeping base spin token c done [.sweepGap token spin (q :: left)] → Running c →
      c.dueMs ≤ c.wakeMs + fromSent answers spin.stepMs (base.length + done.length) left.length →
      ∃ es u, Runs.run (TimedService.step answers) c es = some u ∧
        u.service.status = .succeeded ∧
        ∃ commanded : List ℕ, u.service.commands = base ++ commanded.map spin.command ∧
          commanded.length < done.length + left.length + 1 := by
  induction left with
  | nil =>
    intro c done q h hrunning hlate
    have hdue : c.dueMs ≤ c.wakeMs := by
      rw [fromSent, List.length_nil, if_pos rfl, add_zero] at hlate
      exact hlate
    obtain ⟨u, hstep, hstatus, hcommands⟩ := running_completion answers hrunning hdue
    refine ⟨[.completion], u, ?_, hstatus, done, hcommands.trans h.commands, by omega⟩
    rw [run_cons, hstep]
    rfl
  | cons next left ih =>
    intro c done q h hrunning hlate
    by_cases hdue : c.dueMs ≤ c.wakeMs
    · obtain ⟨u, hstep, hstatus, hcommands⟩ := running_completion answers hrunning hdue
      refine ⟨[.completion], u, ?_, hstatus, done, hcommands.trans h.commands, by omega⟩
      rw [run_cons, hstep]
      rfl
    obtain ⟨c₁, hstep₁, h₁, hrunning₁, hwake₁, hdue₁⟩ :=
      gap_wake answers h hrunning fun hlt => hdue hlt.le
    rw [fromSent, if_neg (by simp), ← add_assoc, ← hwake₁, ← hdue₁] at hlate
    have hi : base.length + (done ++ [q]).length = base.length + done.length + 1 := by
      rw [List.length_append, List.length_singleton, Nat.add_assoc]
    by_cases hdue' : c₁.dueMs ≤ c₁.wakeMs
    · obtain ⟨u, hstep, hstatus, hcommands⟩ :=
        running_completion answers hrunning₁ hdue'
      refine ⟨[.wake, .completion], u, ?_, hstatus, done ++ [q], hcommands.trans h₁.commands, ?_⟩
      · rw [run_cons, hstep₁, Option.bind_some, run_cons, hstep]
        rfl
      · rw [List.length_append, List.length_singleton, List.length_cons]
        omega
    have hanswer : (answers (base.length + done.length)).failure = none := by
      by_contra hfailed
      rw [untilLast_failed hfailed, add_zero] at hlate
      exact hdue' hlate
    obtain ⟨c₂, hstep₂, h₂, hrunning₂, hwake₂, hdue₂⟩ :=
      command_wake h₁ hi (List.cons_ne_nil next left) hrunning₁ (fun hlt => hdue' hlt.le) hanswer
    rw [List.length_cons, untilLast_succ hanswer, ← add_assoc, ← hwake₂, ← hdue₂, ← hi] at hlate
    obtain ⟨es, u, hrun, hstatus, commanded, hcommands, hfew⟩ := ih h₂ hrunning₂ hlate
    refine ⟨.wake :: .wake :: es, u, ?_, hstatus, commanded, hcommands, ?_⟩
    · rw [run_cons, hstep₁, Option.bind_some, run_cons, hstep₂, Option.bind_some, hrun]
    · rw [List.length_append, List.length_singleton] at hfew
      rw [List.length_cons]
      omega

end

/-! ## A sweep whose last motor is in time -/

section
variable {answers : ℕ → Answer} {base : List MotorCommand} {spin : Spin} {token : ℕ}
  {c u : TimedService} {qs : List ℕ}

/-- Where a sweep over the motors `qs` stands, when nothing is late. -/
inductive Phase (answers : ℕ → Answer) (base : List MotorCommand) (spin : Spin) (token : ℕ)
    (qs : List ℕ) (c : TimedService) : Prop
  | first (q : ℕ) (left : List ℕ) (hqs : qs = q :: left)
      (h : Sweeping base spin token c [q] [.sweepStart token spin left])
      (hstatus : c.service.status = .requested)
  | gap (done : List ℕ) (q : ℕ) (left : List ℕ) (hqs : qs = done ++ q :: left)
      (h : Sweeping base spin token c done [.sweepGap token spin (q :: left)])
      (hrunning : Running c)
      (htime : c.wakeMs + fromSent answers spin.stepMs (base.length + done.length) left.length <
        c.dueMs)
  | command (done left : List ℕ) (i : ℕ) (hi : base.length + done.length = i + 1)
      (hleft : left ≠ []) (hqs : qs = done ++ left)
      (h : Sweeping base spin token c done [.sweepCommand token spin left]) (hrunning : Running c)
      (htime : c.wakeMs + untilLast answers spin.stepMs i left.length < c.dueMs)
  | last (h : Sweeping base spin token c qs [.sweepCommand token spin []])
  | ended (htasks : c.service.tasks = []) (h : c.service.status = .failed ∨
      c.service.commands = base ++ qs.map spin.command)

theorem Phase.commands (h : Phase answers base spin token qs c)
    (hstatus : c.service.status = .succeeded) :
    c.service.commands = base ++ qs.map spin.command := by
  cases h with
  | first q left hqs h hrequested => rw [hrequested] at hstatus; cases hstatus
  | gap done q left hqs h hrunning => rw [hrunning.status] at hstatus; cases hstatus
  | command done left i hi hleft hqs h hrunning => rw [hrunning.status] at hstatus; cases hstatus
  | last h => exact h.commands
  | ended htasks h =>
    rcases h with hfailed | hcommands
    · rw [hfailed] at hstatus
      cases hstatus
    · exact hcommands

theorem wake_cases {task : Task} {tasks : List Task} (htasks : c.service.tasks = task :: tasks)
    (hstep : c.step answers .wake = some u) :
    ¬(c.service.completionTimer = true ∧ c.dueMs < c.wakeMs) ∧
      u.service = { c.service with tasks := tasks }.settle task
        (wakeFailure answers c.service task) := by
  rw [TimedService.step, htasks] at hstep
  dsimp only at hstep
  split_ifs at hstep with hblocked
  cases hstep
  exact ⟨hblocked, rfl⟩

theorem completion_cases (hstep : c.step answers .completion = some u) :
    c.service.completionTimer = true ∧ (c.service.tasks = [] ∨ c.dueMs ≤ c.wakeMs) ∧
      u.service = c.service.complete := by
  rw [TimedService.step] at hstep
  split_ifs at hstep with hblocked
  obtain ⟨hon, hdue⟩ := not_or.mp hblocked
  cases hstep
  refine ⟨by simpa using hon, ?_, rfl⟩
  by_cases htasks : c.service.tasks = []
  · exact .inl htasks
  · exact .inr (not_lt.mp fun hlt => hdue ⟨htasks, hlt⟩)

theorem complete_frame (s : MotorTestService) :
    s.complete.tasks = s.tasks ∧ s.complete.sweepToken = s.sweepToken ∧
      s.complete.commands = s.commands ∧
      (s.status ≠ .running → s.complete.status = s.status) := by
  simp only [complete]
  split_ifs with hstatus
  · exact ⟨rfl, rfl, rfl, fun _ => rfl⟩
  · exact ⟨rfl, rfl, rfl, fun hne => absurd hne hstatus⟩

theorem phase_completion (h : Phase answers base spin token qs c)
    (hstep : c.step answers .completion = some u) : Phase answers base spin token qs u := by
  obtain ⟨hon, hdue, hservice⟩ := completion_cases hstep
  obtain ⟨htasks, htoken, hcommands, hstatus⟩ := complete_frame c.service
  rw [← hservice] at htasks htoken hcommands hstatus
  cases h with
  | first q left hqs h hrequested =>
    refine .first q left hqs ⟨htasks.trans h.tasks, htoken.trans h.token,
      hcommands.trans h.commands⟩ ?_
    rw [hstatus (by rw [hrequested]; decide), hrequested]
  | gap done q left hqs h hrunning htime =>
    have hlater : 0 ≤ fromSent answers spin.stepMs (base.length + done.length) left.length :=
      fromSent_nonneg _ _
    rcases hdue with hnone | hdue
    · rw [h.tasks] at hnone
      cases hnone
    · linarith
  | command done left i hi hleft hqs h hrunning htime =>
    have hlater : 0 ≤ untilLast answers spin.stepMs i left.length := untilLast_nonneg _ _
    rcases hdue with hnone | hdue
    · rw [h.tasks] at hnone
      cases hnone
    · linarith
  | last h => exact .last ⟨htasks.trans h.tasks, htoken.trans h.token, hcommands.trans h.commands⟩
  | ended hnone h =>
    refine .ended (htasks.trans hnone) (h.imp (fun hfailed => ?_) fun hall => hcommands.trans hall)
    rw [hstatus (by rw [hfailed]; decide), hfailed]

theorem phase_wake (h : Phase answers base spin token qs c)
    (htime : untilLast answers spin.stepMs base.length (qs.length - 1) <
      spin.completionMs qs.length)
    (hstep : c.step answers .wake = some u) : Phase answers base spin token qs u := by
  cases h with
  | first q left hqs h hrequested =>
    obtain ⟨hfree, hservice⟩ := wake_cases h.tasks hstep
    have hfailure : wakeFailure answers c.service (.sweepStart token spin left) =
        (answers base.length).failure := congrArg Answer.failure (h.lastAnswer rfl)
    rw [hfailure] at hservice
    cases hanswer : (answers base.length).failure with
    | some error =>
      rw [hanswer] at hservice
      exact .ended (by rw [hservice]; rfl) (.inl (by rw [hservice]; rfl))
    | none =>
      cases left with
      | nil =>
        rw [hanswer] at hservice
        refine .ended (by rw [hservice]; rfl) (.inr ?_)
        rw [hservice, hqs]
        exact h.commands
      | cons next left =>
        obtain ⟨v, hstepv, hv, hrunning, hwake, hdue⟩ :=
          start_wake h (List.cons_ne_nil next left) hfree hanswer
        obtain rfl := Option.some.inj (hstep.symm.trans hstepv)
        refine .gap [q] next left hqs hv hrunning ?_
        rw [hqs, List.length_cons, Nat.add_sub_cancel, List.length_cons,
          untilLast_succ hanswer] at htime
        rw [hwake, hdue, List.length_singleton, List.length_cons]
        linarith
  | gap done q left hqs h hrunning htime' =>
    obtain ⟨hfree, -⟩ := wake_cases h.tasks hstep
    have hdue : ¬c.dueMs < c.wakeMs := fun hlt => hfree ⟨hrunning.timer, hlt⟩
    obtain ⟨v, hstepv, hv, hrunningv, hwake, hduev⟩ := gap_wake answers h hrunning hdue
    obtain rfl := Option.some.inj (hstep.symm.trans hstepv)
    have hsplit : qs = (done ++ [q]) ++ left := by
      rw [hqs, List.append_assoc]
      rfl
    by_cases hleft : left = []
    · subst hleft
      rw [List.append_nil] at hsplit
      exact .last (hsplit ▸ hv)
    · refine .command (done ++ [q]) left (base.length + done.length) ?_ hleft hsplit hv hrunningv ?_
      · rw [List.length_append, List.length_singleton, Nat.add_assoc]
      · rw [fromSent, if_neg (mt List.length_eq_zero_iff.mp hleft)] at htime'
        rw [hwake, hduev]
        linarith
  | command done left i hi hleft hqs h hrunning htime' =>
    obtain ⟨hfree, hservice⟩ := wake_cases h.tasks hstep
    have hdue : ¬c.dueMs < c.wakeMs := fun hlt => hfree ⟨hrunning.timer, hlt⟩
    by_cases hanswer : (answers i).failure = none
    · obtain ⟨v, hstepv, hv, hrunningv, hwake, hduev⟩ :=
        command_wake h hi hleft hrunning hdue hanswer
      obtain rfl := Option.some.inj (hstep.symm.trans hstepv)
      obtain ⟨q, left, rfl⟩ := List.exists_cons_of_ne_nil hleft
      refine .gap done q left hqs hv hrunningv ?_
      rw [List.length_cons, untilLast_succ hanswer] at htime'
      rw [hwake, hduev, hi]
      linarith
    · have hfailure : wakeFailure answers c.service (.sweepCommand token spin left) =
          (answers i).failure := congrArg Answer.failure (h.lastAnswer hi)
      rw [hfailure, settle, if_neg (by rw [h.token]; simp),
        if_pos (Option.isSome_iff_ne_none.mpr hanswer)] at hservice
      exact .ended (by rw [hservice]; rfl) (.inl (by rw [hservice]; rfl))
  | last h =>
    obtain ⟨-, hservice⟩ := wake_cases h.tasks hstep
    rw [settle, if_neg (by rw [h.token]; simp)] at hservice
    split_ifs at hservice with hfailed
    · exact .ended (by rw [hservice]; rfl) (.inl (by rw [hservice]; rfl))
    · refine .ended (by rw [hservice]; rfl) (.inr ?_)
      rw [hservice]
      exact h.commands
  | ended htasks h =>
    rw [TimedService.step, htasks] at hstep
    cases hstep

theorem phase_run (htime : untilLast answers spin.stepMs base.length (qs.length - 1) <
      spin.completionMs qs.length) {es : List Tick} (h : Phase answers base spin token qs c)
    (hrun : Runs.run (TimedService.step answers) c es = some u) :
    Phase answers base spin token qs u := by
  refine run_invariant (fun s e t hs hstep => ?_) h hrun
  cases e with
  | wake => exact phase_wake hs htime hstep
  | completion => exact phase_completion hs hstep

end

/-! ## The whole sweep -/

section
variable {answers : ℕ → Answer} {s : MotorTestService} {snapshot : Snapshot}
  {request : MotorTestRequest} {options : MotorTestEligibilityOptions} {spin : Spin}

variable (answers) in
theorem start_phase (hidle : s.tasks = [])
    (hallowed : (s.eligibility snapshot request options).allowed = true)
    (hmode : request.mode = .sweep) (hthrottle : request.throttlePercent = some spin.throttlePercent)
    (hduration : request.durationSeconds = some spin.durationSeconds) (nowMs dueMs : ℚ) :
    ∃ q left, sequencesOf snapshot request = q :: left ∧
      Sweeping s.commands spin (s.sweepToken + 1)
        (TimedService.start answers s snapshot request options nowMs dueMs) [q]
        [.sweepStart (s.sweepToken + 1) spin left] ∧
      (TimedService.start answers s snapshot request options nowMs dueMs).service.status =
        .requested := by
  obtain ⟨hoff, hon⟩ := sweep_of_mode hmode
  have hne := sweepSequences_ne_nil hmode (motorOutputs_of_allowed hallowed)
  obtain ⟨q, left, hqs⟩ := List.exists_cons_of_ne_nil hne
  have hservice : (TimedService.start answers s snapshot request options nowMs dueMs).service =
      ({ s with
        status := .requested
        completedAtMs := none
        sweepToken := s.sweepToken + 1
        activeSimultaneousSequences := [q] } : MotorTestService).sendCommand q spin
          (.sweepStart (s.sweepToken + 1) spin left) := by
    simp only [TimedService.start, run, hallowed, hthrottle, hduration, start, hoff, hon, hqs,
      if_true, Bool.false_eq_true, if_false]
  refine ⟨q, left, hqs, ⟨?_, ?_, ?_⟩, ?_⟩
  · rw [hservice, sendCommand, hidle]
    rfl
  · rw [hservice]
    rfl
  · rw [hservice]
    rfl
  · rw [hservice]
    rfl

theorem late_sweep (hidle : s.tasks = [])
    (hallowed : (s.eligibility snapshot request options).allowed = true)
    (hmode : request.mode = .sweep) (hthrottle : request.throttlePercent = some spin.throttlePercent)
    (hduration : request.durationSeconds = some spin.durationSeconds) (nowMs dueMs : ℚ)
    (hlate : spin.completionMs (sequencesOf snapshot request).length ≤
      untilLast answers spin.stepMs s.commands.length
        ((sequencesOf snapshot request).length - 1)) :
    ∃ es u, Runs.run (TimedService.step answers)
        (TimedService.start answers s snapshot request options nowMs dueMs) es = some u ∧
      u.service.status = .succeeded ∧
      u.service.commands ≠ s.commands ++ (sequencesOf snapshot request).map spin.command := by
  obtain ⟨q, left, hqs, hstart, hrequested⟩ :=
    start_phase answers hidle hallowed hmode hthrottle hduration nowMs dueMs
  generalize TimedService.start answers s snapshot request options nowMs dueMs = c at *
  rw [hqs, List.length_cons, Nat.add_sub_cancel] at hlate
  have hpos := completionMs_pos spin (left.length + 1)
  have hanswer : (answers s.commands.length).failure = none := by
    by_contra hfailed
    rw [untilLast_failed hfailed] at hlate
    linarith
  cases left with
  | nil =>
    rw [List.length_nil, untilLast] at hlate
    exact absurd hlate (not_le_of_gt hpos)
  | cons next left =>
    have hfrom : ∀ c : TimedService, Sweeping s.commands spin (s.sweepToken + 1) c [q]
        [.sweepStart (s.sweepToken + 1) spin (next :: left)] →
        ¬(c.service.completionTimer = true ∧ c.dueMs < c.wakeMs) →
        ∃ es u, Runs.run (TimedService.step answers) c es = some u ∧
          u.service.status = .succeeded ∧
          u.service.commands ≠ s.commands ++ (sequencesOf snapshot request).map spin.command := by
      intro c hstart hfree
      obtain ⟨c₁, hstep, h₁, hrunning, hwake, hdue⟩ :=
        start_wake hstart (List.cons_ne_nil next left) hfree hanswer
      obtain ⟨es, u, hrun, hstatus, commanded, hcommands, hfew⟩ :=
        overtaken answers left h₁ hrunning (by
          rw [List.length_cons, untilLast_succ hanswer] at hlate
          rw [hwake, hdue, List.length_singleton, List.length_cons]
          linarith)
      refine ⟨.wake :: es, u, ?_, hstatus, ?_⟩
      · rw [run_cons, hstep, Option.bind_some, hrun]
      · intro hall
        have hsame := congrArg List.length (List.append_cancel_left (hcommands.symm.trans hall))
        rw [List.length_map, List.length_map, hqs, List.length_cons, List.length_cons] at hsame
        rw [List.length_singleton] at hfew
        omega
    by_cases hblocked : c.service.completionTimer = true ∧ c.dueMs < c.wakeMs
    · -- An older completion timer fires first and finds nothing that runs.
      have hstep : c.step answers .completion = some ⟨c.service.complete, c.wakeMs, c.dueMs⟩ := by
        rw [TimedService.step, if_neg]
        rintro (hoff | ⟨-, hlt⟩)
        · rw [hblocked.1] at hoff
          cases hoff
        · exact absurd hlt (not_lt_of_gt hblocked.2)
      obtain ⟨htasks, htoken, hcommands, -⟩ := complete_frame c.service
      have hoff : c.service.complete.completionTimer = false := by
        simp only [complete]
        split_ifs <;> rfl
      obtain ⟨es, u, hrun, hends⟩ := hfrom ⟨c.service.complete, c.wakeMs, c.dueMs⟩
        ⟨htasks.trans hstart.tasks, htoken.trans hstart.token, hcommands.trans hstart.commands⟩
        (fun hboth => by
          have hon := hboth.1
          rw [hoff] at hon
          cases hon)
      refine ⟨.completion :: es, u, ?_, hends⟩
      rw [run_cons, hstep, Option.bind_some, hrun]
    · exact hfrom c hstart hblocked

/-- Every sweep that starts when nothing waits, with whatever answers, is reported succeeded only
after every motor was commanded, once each and in order, if and only if its last motor, or a failed
command on the way, comes before the completion timer. -/
theorem sweep_succeeded_iff (hidle : s.tasks = [])
    (hallowed : (s.eligibility snapshot request options).allowed = true)
    (hmode : request.mode = .sweep) (hthrottle : request.throttlePercent = some spin.throttlePercent)
    (hduration : request.durationSeconds = some spin.durationSeconds) (nowMs dueMs : ℚ) :
    (∀ es u, Runs.run (TimedService.step answers)
        (TimedService.start answers s snapshot request options nowMs dueMs) es = some u →
      u.service.status = .succeeded →
        u.service.commands = s.commands ++ (sequencesOf snapshot request).map spin.command) ↔
      untilLast answers spin.stepMs s.commands.length ((sequencesOf snapshot request).length - 1) <
        spin.completionMs (sequencesOf snapshot request).length := by
  obtain ⟨q, left, hqs, hstart, hrequested⟩ :=
    start_phase answers hidle hallowed hmode hthrottle hduration nowMs dueMs
  constructor
  · intro hall
    by_contra hlate
    obtain ⟨es, u, hrun, hstatus, hne⟩ := late_sweep hidle hallowed hmode hthrottle hduration nowMs
      dueMs (not_lt.mp hlate)
    exact hne (hall es u hrun hstatus)
  · intro htime es u hrun hstatus
    exact (phase_run htime (.first q left hqs hstart hrequested) hrun).commands hstatus

theorem untilLast_lt_iff (hanswers : ∀ j, (answers j).failure = none) (i n : ℕ) :
    untilLast answers spin.stepMs i (n + 1) < spin.completionMs (n + 2) ↔
      ∑ j ∈ Finset.range n, ((answers (i + 1 + j)).latencyMs : ℚ) <
        spin.windowMs + MOTOR_TEST_COMPLETION_BUFFER_MS := by
  have hsum : ∀ n i, untilLast answers spin.stepMs i (n + 1) = spin.stepMs * (n + 1 : ℕ) +
      ∑ j ∈ Finset.range n, ((answers (i + 1 + j)).latencyMs : ℚ) := by
    intro n
    induction n with
    | zero =>
      intro i
      rw [untilLast_succ (hanswers i), fromSent, if_pos rfl]
      simp
    | succ n ih =>
      intro i
      rw [untilLast_succ (hanswers i), fromSent, if_neg (Nat.succ_ne_zero n), ih,
        Finset.sum_range_succ' _ n]
      have hshift : ∀ j, i + 1 + 1 + j = i + 1 + (j + 1) := fun j => by omega
      simp only [hshift, Nat.add_zero]
      push_cast
      ring
  rw [hsum, Spin.completionMs, Spin.stepMs, show n + 2 - 1 = n + 1 from rfl]
  push_cast
  constructor
  · intro h
    linarith
  · intro h
    linarith

end

/-! ## Three motors -/

def tricopter : Snapshot := { quadX with motorOutputs := [⟨1, some 1⟩, ⟨2, some 2⟩, ⟨3, some 3⟩] }

theorem windowMs_second : (⟨5, 1⟩ : Spin).windowMs = (1000 : ℕ) := by
  rw [Spin.windowMs, one_mul]
  exact max_eq_left (Nat.cast_nonneg _)

/-- Two motors answered at once. -/
theorem sweep_succeeded_quad :
    untilLast (fun _ => ⟨0, none⟩) (⟨5, 1⟩ : Spin).stepMs 0 1 < (⟨5, 1⟩ : Spin).completionMs 2 ∧
    ∀ es u, Runs.run (TimedService.step fun _ => ⟨0, none⟩)
      (TimedService.start (fun _ => ⟨0, none⟩) (initial 0) quadX sweepRequest noOptions 0 0) es =
        some u → u.service.status = .succeeded → u.service.commands = [⟨1, 5, 1⟩, ⟨3, 5, 1⟩] := by
  have hallowed : ((initial 0).eligibility quadX sweepRequest noOptions).allowed = true := by
    decide +kernel
  have hsequences : sequencesOf quadX sweepRequest = [1, 3] := by decide +kernel
  have htime : untilLast (fun _ => ⟨0, none⟩) (⟨5, 1⟩ : Spin).stepMs 0 1 <
      (⟨5, 1⟩ : Spin).completionMs 2 := by
    apply (untilLast_lt_iff (fun _ => rfl) 0 0).mpr
    rw [Finset.range_zero, Finset.sum_empty, windowMs_second]
    exact add_pos (Nat.cast_pos.mpr (by decide)) (Nat.cast_pos.mpr (by decide))
  refine ⟨htime, fun es u hrun hstatus => ?_⟩
  have h := (@sweep_succeeded_iff _ _ _ _ _ ⟨5, 1⟩ rfl hallowed rfl rfl rfl 0 0).mpr
    (hsequences ▸ htime) es u hrun hstatus
  rw [hsequences] at h
  exact h

def slowSecond (i : ℕ) : Answer := ⟨if i = 1 then (2000 : ℕ) else 0, none⟩

/-- The second of three motors is acknowledged after two seconds: the sweep of one second each is
reported succeeded, and the third motor never runs. -/
theorem third_motor_missing : ∃ es u,
    Runs.run (TimedService.step slowSecond)
      (TimedService.start slowSecond (initial 0) tricopter sweepRequest noOptions 0 0) es = some u ∧
      u.service.status = .succeeded ∧
      u.service.commands ≠ (sequencesOf tricopter sweepRequest).map (⟨5, 1⟩ : Spin).command := by
  have hallowed : ((initial 0).eligibility tricopter sweepRequest noOptions).allowed = true := by
    decide +kernel
  have hsequences : (sequencesOf tricopter sweepRequest).length = 3 := by decide +kernel
  have hlate : (⟨5, 1⟩ : Spin).completionMs 3 ≤ untilLast slowSecond (⟨5, 1⟩ : Spin).stepMs 0 2 := by
    apply not_lt.mp
    rw [untilLast_lt_iff (fun _ => rfl) 0 1, Finset.sum_range_one, windowMs_second, not_lt]
    have hlatency : ((slowSecond 1).latencyMs : ℚ) = (2000 : ℕ) := NNRat.cast_natCast 2000
    rw [hlatency, ← Nat.cast_add]
    exact Nat.cast_le.mpr (by decide)
  exact @late_sweep _ _ _ _ _ ⟨5, 1⟩ rfl hallowed rfl rfl rfl 0 0 (hsequences ▸ hlate)

end MotorTestService
end ArduConfigurator.MotorTest
