import ArduConfigurator.MotorTest.Stop

/-! # Superseded sweeps

A sweep goes on after each pause only while it has the token of the service. A reset, a stop that
finds a test and the start of another sweep take the token away; the start of a single or of a
simultaneous run does not, and neither does a stop that finds no test. -/
namespace ArduConfigurator.MotorTest
open Runs
set_option autoImplicit false

def Task.sweep : Task → Option ℕ
  | .sweepStart token .. | .sweepGap token .. | .sweepCommand token .. => some token
  | .simultaneous .. | .single | .stop .. => none

def Task.remaining : Task → List ℕ
  | .sweepStart _ _ rest | .sweepGap _ _ rest | .sweepCommand _ _ rest => rest
  | .simultaneous .. | .single | .stop .. => []

namespace MotorTestService

/-- A call of `run` that passes the gate, of `stop` or of `reset`. -/
def Begins (s : MotorTestService) : Event → Prop
  | .run snapshot request options => (s.eligibility snapshot request options).allowed = true
  | .stop | .reset => True
  | .clock _ | .clearCompletionTimer | .settle .. | .completion => False

instance decidableBegins (s : MotorTestService) : ∀ e, Decidable (Begins s e)
  | .run .. => inferInstanceAs (Decidable (_ = true))
  | .stop | .reset => inferInstanceAs (Decidable True)
  | .clock _ | .clearCompletionTimer | .settle .. | .completion =>
    inferInstanceAs (Decidable False)

def TakesToken (s : MotorTestService) : Event → Prop
  | .run _ request _ => request.mode = .sweep
  | .stop => s.hasActiveTest = true
  | .reset => True
  | .clock _ | .clearCompletionTimer | .settle .. | .completion => False

def SweepUnderWay (s : MotorTestService) : Prop :=
  ∃ task ∈ s.tasks, task.sweep = some s.sweepToken ∧ task.remaining ≠ []

instance decidableSweepUnderWay (s : MotorTestService) : Decidable (SweepUnderWay s) :=
  inferInstanceAs (Decidable (∃ task ∈ s.tasks, _))

/-- In whatever way things go on, no sweep with a token up to `token` sends another command. -/
def Silent (token : ℕ) (t : MotorTestService) : Prop :=
  ∀ es u, Runs.run step t es = some u →
    ∀ i task own, u.tasks[i]? = some task → task.sweep = some own → own ≤ token →
      ∀ failure v, step u (.settle i failure) = some v → v.commands = u.commands

variable {s t u : MotorTestService} {token : ℕ} {e : Event}

theorem Silent.step (h : Silent token s) (hstep : step s e = some t) :
    Silent token t := by
  intro es u hrun
  apply h (e :: es) u
  rw [run_cons, hstep]
  exact hrun

/-! ## Where calls come from -/

/-- A call that waits after an event waited before it, belongs to no sweep or to a new one, or
carries a sweep on. -/
def Descends (s : MotorTestService) (task : Task) : Prop :=
  task ∈ s.tasks ∨ task.sweep = none ∨ task.sweep = some (s.sweepToken + 1) ∨
    ∃ before ∈ s.tasks, before.sweep = task.sweep ∧ (before.remaining = [] → task.remaining = [])

variable {task : Task}

theorem Resumed.descends {i : ℕ} {new : List Task} (h : Resumed s t i task new)
    (hnew : ∀ other ∈ new, Descends s other) : ∀ other ∈ t.tasks, Descends s other := by
  intro other hother
  rw [h.tasks] at hother
  rcases List.mem_append.mp hother with hold | hmore
  · exact .inl (List.mem_of_mem_eraseIdx hold)
  · exact hnew other hmore

theorem run_descends (snapshot : Snapshot) (request : MotorTestRequest)
    (options : MotorTestEligibilityOptions) :
    s.sweepToken ≤ (s.run snapshot request options).sweepToken ∧
      ∀ task ∈ (s.run snapshot request options).tasks, Descends s task := by
  rw [run]
  split
  · rw [start]
    dsimp only
    split_ifs
    · cases sequencesOf snapshot request with
      | nil => exact ⟨Nat.le_refl _, fun task htask => .inl htask⟩
      | cons sequence rest =>
        refine ⟨Nat.le_refl _, fun task htask => ?_⟩
        rcases List.mem_append.mp htask with hold | hnew
        · exact .inl hold
        · rw [List.mem_singleton.mp hnew]
          exact .inr (.inl rfl)
    · cases sequencesOf snapshot request with
      | nil => exact ⟨Nat.le_refl _, fun task htask => .inl htask⟩
      | cons sequence rest =>
        refine ⟨Nat.le_succ _, fun task htask => ?_⟩
        rcases List.mem_append.mp htask with hold | hnew
        · exact .inl hold
        · rw [List.mem_singleton.mp hnew]
          exact .inr (.inr (.inl rfl))
    · refine ⟨Nat.le_refl _, fun task htask => ?_⟩
      rcases List.mem_append.mp htask with hold | hnew
      · exact .inl hold
      · rw [List.mem_singleton.mp hnew]
        exact .inr (.inl rfl)
  · exact ⟨Nat.le_refl _, fun task htask => .inl htask⟩

theorem move_descends (h : Move s t) :
    s.sweepToken ≤ t.sweepToken ∧ ∀ task ∈ t.tasks, Descends s task := by
  cases h with
  | quiet _ htasks _ _ htoken => exact ⟨htoken, fun task htask => .inl (htasks ▸ htask)⟩
  | ended i task h => exact ⟨Nat.le_of_eq h.sweepToken.symm, h.descends nofun⟩
  | paused i token spin rest task htask h =>
    refine ⟨Nat.le_of_eq h.sweepToken.symm, h.descends fun other hother => ?_⟩
    rw [List.mem_singleton.mp hother]
    refine .inr (.inr (.inr ⟨task, h.mem, ?_⟩))
    rcases htask with rfl | rfl
    · exact ⟨rfl, id⟩
    · exact ⟨rfl, id⟩
  | spun i sequence spin rest h =>
    refine ⟨Nat.le_of_eq h.sweepToken.symm, h.descends fun other hother => ?_⟩
    rw [List.mem_singleton.mp hother]
    exact .inr (.inl rfl)
  | swept i sequence spin rest h =>
    refine ⟨Nat.le_of_eq h.sweepToken.symm, h.descends fun other hother => ?_⟩
    rw [List.mem_singleton.mp hother]
    exact .inr (.inr (.inr ⟨_, h.mem, rfl, nofun⟩))
  | aborted i id sequence rest acknowledged acknowledged' h =>
    refine ⟨Nat.le_of_eq h.sweepToken.symm, h.descends fun other hother => ?_⟩
    rw [List.mem_singleton.mp hother]
    exact .inr (.inl rfl)
  | stopped i id acknowledged acknowledged' h =>
    exact ⟨Nat.le_of_eq h.sweepToken.symm, h.descends nofun⟩
  | called sequence rest _ _ htasks _ _ htoken =>
    refine ⟨by rw [htoken]; exact Nat.le_succ _, fun task htask => ?_⟩
    rw [htasks] at htask
    rcases List.mem_append.mp htask with hold | hnew
    · exact .inl hold
    · rw [List.mem_singleton.mp hnew]
      exact .inr (.inl rfl)
  | idle _ htasks _ _ htoken =>
    exact ⟨Nat.le_of_eq htoken.symm, fun task htask => .inl (htasks ▸ htask)⟩

theorem step_descends (h : step s e = some t) :
    s.sweepToken ≤ t.sweepToken ∧ ∀ task ∈ t.tasks, Descends s task := by
  cases e with
  | run snapshot request options =>
    cases h
    exact run_descends snapshot request options
  | clock | stop | reset | clearCompletionTimer | settle | completion =>
    exact move_descends (step_moves rfl h)

/-! ## Sweeps without the token -/

/-- The sweeps with a token up to `token` have lost it or have commanded all their motors. -/
def Stale (token : ℕ) (s : MotorTestService) : Prop :=
  token ≤ s.sweepToken ∧ ∀ task ∈ s.tasks, ∀ own, task.sweep = some own → own ≤ token →
    own < s.sweepToken ∨ task.remaining = []

theorem stale_step (h : Stale token s) (hstep : step s e = some t) :
    Stale token t := by
  obtain ⟨htoken, hstale⟩ := h
  obtain ⟨hle, hdescends⟩ := step_descends hstep
  refine ⟨Nat.le_trans htoken hle, fun task htask own hown hlow => ?_⟩
  rcases hdescends task htask with hold | hnone | hnew | ⟨before, hbefore, hsweep, hremaining⟩
  · exact (hstale task hold own hown hlow).imp_left fun hlt => Nat.lt_of_lt_of_le hlt hle
  · rw [hnone] at hown
    cases hown
  · rw [hnew] at hown
    cases hown
    omega
  · exact (hstale before hbefore own (hsweep.trans hown) hlow).imp
      (fun hlt => Nat.lt_of_lt_of_le hlt hle) hremaining

theorem settle_commands {own : ℕ} (hown : task.sweep = some own)
    (h : own < s.sweepToken ∨ task.remaining = []) (failure : Option String) :
    (s.settle task failure).commands = s.commands := by
  cases task with
  | simultaneous | single | stop => cases hown
  | sweepStart token spin rest =>
    cases failure with
    | some error => rfl
    | none =>
      rw [settle]
      simp only [continueSweep]
      split <;> rfl
  | sweepGap token spin rest =>
    simp only [settle, sweepNext]
    split_ifs with hgone
    · rfl
    · cases hown
      rcases h with hlt | hnil
      · exact absurd (Nat.ne_of_lt hlt) fun hne => hgone (.inl hne)
      · have hnil : rest = [] := hnil
        rw [hnil]
  | sweepCommand token spin rest =>
    rw [settle]
    split_ifs
    · rfl
    · rfl
    · rw [continueSweep]
      split_ifs <;> rfl

theorem silent_of_stale (h : Stale token s) : Silent token s := by
  intro es u hrun i task own hget hown hlow failure v hstep
  have hstale := run_invariant (fun _ _ _ hs he => stale_step hs he) h hrun
  rw [step, hget, Option.map_some, Option.some_inj] at hstep
  rw [← hstep]
  refine settle_commands hown ?_ failure
  exact hstale.2 task (List.mem_of_getElem? hget) own hown hlow

/-! ## The calls that supersede -/

variable {snapshot : Snapshot} {request : MotorTestRequest} {options : MotorTestEligibilityOptions}

theorem run_tasks (h : (s.eligibility snapshot request options).allowed = true)
    (hmode : request.mode = .sweep) :
    (s.run snapshot request options).sweepToken = s.sweepToken + 1 := by
  obtain ⟨spin, -, hstart⟩ := start_of_allowed h
  obtain ⟨hoff, hon⟩ := sweep_of_mode hmode
  rw [hstart, start]
  simp only [hoff, hon, if_true, Bool.false_eq_true, if_false]
  cases hsequences : sequencesOf snapshot request with
  | nil => exact absurd hsequences (sweepSequences_ne_nil hmode (motorOutputs_of_allowed h))
  | cons sequence rest => rfl

theorem run_keeps (hmode : request.mode ≠ .sweep) :
    (s.run snapshot request options).sweepToken = s.sweepToken ∧
      ∀ task ∈ s.tasks, task ∈ (s.run snapshot request options).tasks := by
  rw [MotorTestRequest.mode] at hmode
  rw [run]
  split
  · rw [start]
    dsimp only
    split_ifs at hmode ⊢ with hsimultaneous hall
    · cases sequencesOf snapshot request with
      | nil => exact ⟨rfl, fun task htask => htask⟩
      | cons sequence rest => exact ⟨rfl, fun task htask => List.mem_append_left _ htask⟩
    · exact absurd rfl hmode
    · exact ⟨rfl, fun task htask => List.mem_append_left _ htask⟩
  · exact ⟨rfl, fun task htask => htask⟩

theorem takesToken_step (hbegins : Begins s e) (htakes : TakesToken s e)
    (hstep : step s e = some t) : t.sweepToken = s.sweepToken + 1 := by
  cases e with
  | run snapshot request options =>
    cases hstep
    exact run_tasks hbegins htakes
  | stop =>
    cases hstep
    have hactive : s.hasActiveTest = true := htakes
    obtain ⟨sequence, rest, -, heq⟩ := stop_called hactive
    rw [heq]
  | reset =>
    cases hstep
    rfl
  | clock | clearCompletionTimer | settle | completion => exact htakes.elim

theorem underWay_step (hbegins : Begins s e) (htakes : ¬TakesToken s e) (h : SweepUnderWay s)
    (hstep : step s e = some t) :
    t.sweepToken = s.sweepToken ∧ SweepUnderWay t := by
  obtain ⟨task, htask, hown, hleft⟩ := h
  cases e with
  | run snapshot request options =>
    cases hstep
    obtain ⟨htoken, hkeeps⟩ := run_keeps htakes
    exact ⟨htoken, task, hkeeps task htask, htoken.symm ▸ hown, hleft⟩
  | stop =>
    have hidle : s.hasActiveTest = false := Bool.eq_false_iff.mpr htakes
    have hactive : ({ s with stopCalls := s.stopCalls + 1 } : MotorTestService).hasActiveTest =
        false := hidle
    rw [step, stop] at hstep
    dsimp only at hstep
    rw [if_neg (by rw [hactive]; exact Bool.false_ne_true)] at hstep
    cases hstep
    exact ⟨rfl, task, htask, hown, hleft⟩
  | reset => exact absurd trivial htakes
  | clock | clearCompletionTimer | settle | completion => exact hbegins.elim

/-! ## A sweep that goes on -/

theorem replacing_allowed (s : MotorTestService) :
    (s.eligibility quadX singleRequest ⟨false, false, true⟩).allowed = true := by
  apply allowed_iff.mpr
  refine ⟨?_, by decide, by decide +kernel, by decide +kernel⟩
  simp [stateReasons, quadX]

variable {spin : Spin} {sequence : ℕ} {rest : List ℕ}

theorem sweepNext_commands (h : s.status = .running) :
    (s.sweepNext s.sweepToken spin (sequence :: rest)).commands =
      s.commands ++ [spin.command sequence] := by
  rw [sweepNext, if_neg]
  · rfl
  · rintro (hne | hne)
    · exact hne rfl
    · exact hne h

theorem not_silent_of_gap (h : .sweepGap token spin (sequence :: rest) ∈ s.tasks)
    (htoken : s.sweepToken = token) :
    ¬Silent token s := by
  subst htoken
  intro hsilent
  obtain ⟨throttle, duration, hstart⟩ : ∃ throttle duration,
      s.run quadX singleRequest ⟨false, false, true⟩ =
        s.start quadX singleRequest ⟨throttle, duration⟩ := by
    obtain ⟨⟨throttle, duration⟩, -, hstart⟩ := start_of_allowed (replacing_allowed s)
    exact ⟨throttle, duration, hstart⟩
  have hstarted := hsilent.step (e := .run quadX singleRequest ⟨false, false, true⟩) rfl
  rw [hstart] at hstarted
  have htasks : (s.start quadX singleRequest ⟨throttle, duration⟩).tasks = s.tasks ++ [.single] :=
    rfl
  have hsingle : step (s.start quadX singleRequest ⟨throttle, duration⟩)
      (.settle s.tasks.length none) = some
        ({ s.start quadX singleRequest ⟨throttle, duration⟩ with tasks := s.tasks }).finishRun := by
    have herase : (s.tasks ++ [Task.single]).eraseIdx s.tasks.length = s.tasks := by
      rw [List.eraseIdx_append_of_length_le (Nat.le_refl _), Nat.sub_self, List.eraseIdx_cons_zero,
        List.append_nil]
    rw [step, htasks, List.getElem?_concat_length, Option.map_some, herase]
    rfl
  have hrunning := hstarted.step hsingle
  obtain ⟨i, hi⟩ := List.mem_iff_getElem?.mp h
  have hget : ({ s.start quadX singleRequest ⟨throttle, duration⟩ with
      tasks := s.tasks }).finishRun.tasks[i]? =
        some (.sweepGap s.sweepToken spin (sequence :: rest)) := hi
  have hgoes := hrunning [] _ rfl i _ s.sweepToken hget rfl (Nat.le_refl _) none _
    (by rw [step, hget, Option.map_some])
  rw [settle] at hgoes
  have hsent : (({ s.start quadX singleRequest ⟨throttle, duration⟩ with
      tasks := s.tasks.eraseIdx i } : MotorTestService).finishRun.sweepNext s.sweepToken spin
        (sequence :: rest)).commands = _ := sweepNext_commands rfl
  have hlength := congrArg List.length (hsent.symm.trans hgoes)
  rw [List.length_append, List.length_singleton] at hlength
  exact absurd hlength (Nat.succ_ne_self _)

theorem not_silent_of_underWay (h : SweepUnderWay s) : ¬Silent s.sweepToken s := by
  obtain ⟨task, htask, hown, hleft⟩ := h
  obtain ⟨i, hi⟩ := List.mem_iff_getElem?.mp htask
  cases task with
  | simultaneous | single | stop => cases hown
  | sweepGap token spin rest =>
    cases hown
    obtain ⟨sequence, rest, rfl⟩ := List.exists_cons_of_ne_nil hleft
    exact not_silent_of_gap htask rfl
  | sweepStart token spin rest =>
    cases hown
    obtain ⟨sequence, rest, rfl⟩ := List.exists_cons_of_ne_nil hleft
    intro hsilent
    have hstep : step s (.settle i none) = some ({ s with
        tasks := s.tasks.eraseIdx i ++ [.sweepGap s.sweepToken spin (sequence :: rest)] } :
          MotorTestService).finishRun := by
      rw [step, hi, Option.map_some]
      rfl
    exact absurd (hsilent.step hstep)
      (not_silent_of_gap (List.mem_append_right (s.tasks.eraseIdx i) List.mem_cons_self) rfl)
  | sweepCommand token spin rest =>
    cases hown
    obtain ⟨sequence, rest, rfl⟩ := List.exists_cons_of_ne_nil hleft
    intro hsilent
    have hstep : step s (.settle i none) = some { s with
        tasks := s.tasks.eraseIdx i ++ [.sweepGap s.sweepToken spin (sequence :: rest)] } := by
      rw [step, hi, Option.map_some, settle, if_neg (by simp), if_neg (by simp)]
      rfl
    exact absurd (hsilent.step hstep)
      (not_silent_of_gap (List.mem_append_right (s.tasks.eraseIdx i) List.mem_cons_self) rfl)

/-- For every state and every call of `run` that passes the gate, of `stop` or of `reset`: the sweeps
that were there send nothing any more, however things go on, if and only if the call takes the token
away or no sweep that has it waits with motors left. -/
theorem superseded_silent_iff {e : Event} (hbegins : Begins s e) (hstep : step s e = some t) :
    Silent s.sweepToken t ↔ TakesToken s e ∨ ¬SweepUnderWay s := by
  constructor
  · intro hsilent
    by_contra hnot
    obtain ⟨htakes, hunder⟩ := not_or.mp hnot
    obtain ⟨htoken, hunder⟩ := underWay_step hbegins htakes (not_not.mp hunder) hstep
    exact not_silent_of_underWay hunder (htoken.symm ▸ hsilent)
  · intro hor
    apply silent_of_stale
    obtain ⟨hle, hdescends⟩ := step_descends hstep
    -- A sweep that has lost its token, or has it and no motors, was there before the call.
    have hlost : ∀ task ∈ s.tasks, ∀ own, task.sweep = some own → own ≤ s.sweepToken →
        own < t.sweepToken ∨ task.remaining = [] := by
      intro task htask own hown hlow
      rcases hor with htakes | hnone
      · rw [takesToken_step hbegins htakes hstep]
        exact .inl (Nat.lt_succ_of_le hlow)
      · by_cases hlast : own = s.sweepToken
        · subst hlast
          by_contra hboth
          exact hnone ⟨task, htask, hown, (not_or.mp hboth).2⟩
        · exact .inl (Nat.lt_of_lt_of_le (Nat.lt_of_le_of_ne hlow hlast) hle)
    refine ⟨hle, fun task htask own hown hlow => ?_⟩
    rcases hdescends task htask with hold | hnone | hnew | ⟨before, hbefore, hsweep, hremaining⟩
    · exact hlost task hold own hown hlow
    · rw [hnone] at hown
      cases hown
    · rw [hnew] at hown
      cases hown
      omega
    · exact (hlost before hbefore own (hsweep.trans hown) hlow).imp_right hremaining

/-! ## Sweeps of two motors -/

def pausedSweep : MotorTestService :=
  { (initial 0).run quadX sweepRequest noOptions with tasks := [] }.settle
    (.sweepStart 1 ⟨5, 1⟩ [3]) none

/-- A reset while the sweep pauses. -/
theorem reset_sweep_silent : Silent pausedSweep.sweepToken pausedSweep.reset :=
  (superseded_silent_iff (s := pausedSweep) (e := .reset) trivial rfl).mpr (.inl trivial)

/-- A run of a single motor that replaces a sweep does not end it. -/
theorem replaced_sweep_goes_on :
    Runs.run step (initial 0) [.run quadX sweepRequest noOptions, .settle 0 none] =
        some pausedSweep ∧
      ∃ t, Begins pausedSweep (.run quadX singleRequest ⟨false, false, true⟩) ∧
        step pausedSweep (.run quadX singleRequest ⟨false, false, true⟩) = some t ∧
        t.commands = [⟨1, 5, 1⟩, ⟨3, 5, 1⟩] ∧ ¬Silent pausedSweep.sweepToken t := by
  refine ⟨by decide +kernel, pausedSweep.run quadX singleRequest ⟨false, false, true⟩,
    by decide +kernel, rfl, by decide +kernel, ?_⟩
  have hunder : SweepUnderWay (pausedSweep.run quadX singleRequest ⟨false, false, true⟩) := by
    decide +kernel
  have htoken : (pausedSweep.run quadX singleRequest ⟨false, false, true⟩).sweepToken =
      pausedSweep.sweepToken := by decide +kernel
  exact htoken ▸ not_silent_of_underWay hunder

end MotorTestService
end ArduConfigurator.MotorTest
