import ArduConfigurator.MotorTest.Service

/-! # What a stop guarantees

A stop commands the motors on record back to zero, one after the other, and ends an in-order sweep by
its token. The record of a simultaneous run has every motor it has commanded, that of a sweep the one
it commanded last. -/
namespace ArduConfigurator.MotorTest
open Runs
set_option autoImplicit false

def Spin.command (spin : Spin) (sequence : ℕ) : MotorCommand :=
  ⟨sequence, spin.throttlePercent, spin.durationSeconds⟩

/-- The task sends no command that turns a motor, once the token of the sweeps is `token`. -/
def Task.Harmless (token : ℕ) : Task → Prop
  | .simultaneous _ rest => rest = []
  | .sweepStart own .. | .sweepGap own .. | .sweepCommand own .. => own < token
  | .single | .stop .. => True

theorem Task.Harmless.mono {token token' : ℕ} {task : Task} (h : task.Harmless token)
    (hle : token ≤ token') : task.Harmless token' := by
  cases task with
  | simultaneous spin rest => exact h
  | sweepStart own | sweepGap own | sweepCommand own => exact Nat.lt_of_lt_of_le h hle
  | single | stop => trivial

def Zeroed (commands : List MotorCommand) (sequence : ℕ) : Prop :=
  ∃ c ∈ commands, c.sequence = sequence ∧ c.throttlePercent = 0

theorem Zeroed.mono {commands : List MotorCommand} {sequence : ℕ} (h : Zeroed commands sequence)
    (c : MotorCommand) : Zeroed (commands ++ [c]) sequence :=
  let ⟨d, hd, hz⟩ := h
  ⟨d, List.mem_append_left _ hd, hz⟩

inductive RunMode
  | single | sweep | simultaneous

def MotorTestRequest.mode (request : MotorTestRequest) : RunMode :=
  if request.runAllOutputsSimultaneous then .simultaneous
  else if request.runAllOutputs then .sweep
  else .single

/-- The motors that a stop answers for: those a simultaneous run has commanded, the one a sweep
commanded last, and for a single motor the abort that is addressed to sequence 1. -/
def answerable (mode : RunMode) (commanded : List MotorCommand) : List ℕ :=
  match mode with
  | .single => [1]
  | .sweep => (commanded.map MotorCommand.sequence).getLast?.toList
  | .simultaneous => commanded.map MotorCommand.sequence

namespace MotorTestService

def Event.isRun : Event → Bool
  | .run .. => true
  | _ => false

def Event.isQuiet : Event → Bool
  | .run .. | .stop | .reset => false
  | .clock _ | .clearCompletionTimer | .settle .. | .completion => true

variable {s t : MotorTestService}

/-! ## What one event does -/

/-- The task `task` has been taken out and `new` put in. -/
structure Resumed (s t : MotorTestService) (i : ℕ) (task : Task) (new : List Task) : Prop where
  get : s.tasks[i]? = some task
  tasks : t.tasks = s.tasks.eraseIdx i ++ new
  stopCalls : t.stopCalls = s.stopCalls
  sweepToken : t.sweepToken = s.sweepToken

/-- What an event other than a new run does to the commands, the tasks and the stops. -/
inductive Move (s t : MotorTestService) : Prop
  | quiet (hcommands : t.commands = s.commands) (htasks : t.tasks = s.tasks)
      (hstops : t.stops = s.stops) (hcalls : t.stopCalls = s.stopCalls)
      (htoken : s.sweepToken ≤ t.sweepToken)
  | ended (i : ℕ) (task : Task) (h : Resumed s t i task []) (hcommands : t.commands = s.commands)
      (hstops : t.stops = s.stops) (hstop : ∀ id rest acknowledged, task ≠ .stop id rest acknowledged)
  | paused (i token : ℕ) (spin : Spin) (rest : List ℕ) (task : Task)
      (htask : task = .sweepStart token spin rest ∨ task = .sweepCommand token spin rest)
      (h : Resumed s t i task [.sweepGap token spin rest]) (hcommands : t.commands = s.commands)
      (hstops : t.stops = s.stops)
  | spun (i sequence : ℕ) (spin : Spin) (rest : List ℕ)
      (h : Resumed s t i (.simultaneous spin (sequence :: rest)) [.simultaneous spin rest])
      (hcommands : t.commands = s.commands ++ [spin.command sequence]) (hstops : t.stops = s.stops)
  | swept (i sequence : ℕ) (spin : Spin) (rest : List ℕ)
      (h : Resumed s t i (.sweepGap s.sweepToken spin (sequence :: rest))
        [.sweepCommand s.sweepToken spin rest])
      (hcommands : t.commands = s.commands ++ [spin.command sequence]) (hstops : t.stops = s.stops)
  | aborted (i id sequence : ℕ) (rest : List ℕ) (acknowledged acknowledged' : Bool)
      (h : Resumed s t i (.stop id (sequence :: rest) acknowledged)
        [.stop id rest acknowledged'])
      (hcommands : t.commands = s.commands ++ [⟨sequence, 0, 0⟩]) (hstops : t.stops = s.stops)
  | stopped (i id : ℕ) (acknowledged acknowledged' : Bool)
      (h : Resumed s t i (.stop id [] acknowledged) []) (hcommands : t.commands = s.commands)
      (hstops : t.stops = s.stops ++ [⟨id, true, acknowledged'⟩])
  | called (sequence : ℕ) (rest : List ℕ) (haborts : s.abortSequences = sequence :: rest)
      (hcommands : t.commands = s.commands ++ [⟨sequence, 0, 0⟩])
      (htasks : t.tasks = s.tasks ++ [.stop s.stopCalls rest true]) (hstops : t.stops = s.stops)
      (hcalls : t.stopCalls = s.stopCalls + 1) (htoken : t.sweepToken = s.sweepToken + 1)
  | idle (hcommands : t.commands = s.commands) (htasks : t.tasks = s.tasks)
      (hstops : t.stops = s.stops ++ [⟨s.stopCalls, false, true⟩])
      (hcalls : t.stopCalls = s.stopCalls + 1) (htoken : t.sweepToken = s.sweepToken)

theorem abortSequences_ne_nil (s : MotorTestService) : s.abortSequences ≠ [] := by
  rw [abortSequences]
  split
  · exact List.cons_ne_nil _ _
  · next h => exact h

theorem stop_called (h : s.hasActiveTest = true) : ∃ sequence rest,
    s.abortSequences = sequence :: rest ∧ s.stop =
      { s with
        stopCalls := s.stopCalls + 1
        completionTimer := false
        sweepToken := s.sweepToken + 1
        commands := s.commands ++ [⟨sequence, 0, 0⟩]
        tasks := s.tasks ++ [.stop s.stopCalls rest true] } := by
  obtain ⟨sequence, rest, haborts⟩ := List.exists_cons_of_ne_nil s.abortSequences_ne_nil
  refine ⟨sequence, rest, haborts, ?_⟩
  have h' : ({ s with stopCalls := s.stopCalls + 1 } : MotorTestService).hasActiveTest = true := h
  have haborts' : ({ s with stopCalls := s.stopCalls + 1 } : MotorTestService).abortSequences =
      sequence :: rest := haborts
  simp only [stop, h', if_true, haborts']
  rfl

variable {i : ℕ} {task : Task}

theorem settle_moves (hget : s.tasks[i]? = some task) (failure : Option String) :
    Move s ({ s with tasks := s.tasks.eraseIdx i }.settle task failure) := by
  have hended : ∀ t : MotorTestService, (∀ id rest ack, task ≠ .stop id rest ack) →
      t.tasks = s.tasks.eraseIdx i → t.commands = s.commands → t.stops = s.stops →
      t.stopCalls = s.stopCalls → t.sweepToken = s.sweepToken → Move s t :=
    fun t hstop htasks hcommands hstops hcalls htoken =>
      .ended i task ⟨hget, htasks.trans (List.append_nil _).symm, hcalls, htoken⟩ hcommands hstops hstop
  cases task with
  | simultaneous spin rest =>
    cases failure with
    | some error => exact hended _ nofun rfl rfl rfl rfl rfl
    | none =>
      cases rest with
      | nil => exact hended _ nofun rfl rfl rfl rfl rfl
      | cons sequence rest => exact .spun i sequence spin rest ⟨hget, rfl, rfl, rfl⟩ rfl rfl
  | sweepStart token spin rest =>
    cases failure with
    | some error => exact hended _ nofun rfl rfl rfl rfl rfl
    | none =>
      simp only [settle, continueSweep]
      split
      · exact hended _ nofun rfl rfl rfl rfl rfl
      · exact .paused i token spin rest _ (.inl rfl) ⟨hget, rfl, rfl, rfl⟩ rfl rfl
  | single => cases failure <;> exact hended _ nofun rfl rfl rfl rfl rfl
  | sweepGap token spin rest =>
    simp only [settle, sweepNext]
    split
    · exact hended _ nofun rfl rfl rfl rfl rfl
    next hlive =>
    obtain rfl : token = s.sweepToken := by simpa using (not_or.mp hlive).1
    cases rest with
    | nil => exact hended _ nofun rfl rfl rfl rfl rfl
    | cons sequence rest => exact .swept i sequence spin rest ⟨hget, rfl, rfl, rfl⟩ rfl rfl
  | sweepCommand token spin rest =>
    simp only [settle, continueSweep]
    split
    · exact hended _ nofun rfl rfl rfl rfl rfl
    split
    · exact hended _ nofun rfl rfl rfl rfl rfl
    split
    · exact hended _ nofun rfl rfl rfl rfl rfl
    · exact .paused i token spin rest _ (.inr rfl) ⟨hget, rfl, rfl, rfl⟩ rfl rfl
  | stop id rest acknowledged =>
    cases rest with
    | nil =>
      exact .stopped i id acknowledged _ ⟨hget, (List.append_nil _).symm, rfl, rfl⟩ rfl rfl
    | cons sequence rest =>
      exact .aborted i id sequence rest acknowledged _ ⟨hget, rfl, rfl, rfl⟩ rfl rfl

variable {e : Event}

theorem step_moves (he : e.isRun = false) (h : step s e = some t) : Move s t := by
  cases e with
  | run => cases he
  | clock | clearCompletionTimer =>
    cases h
    exact .quiet rfl rfl rfl rfl (Nat.le_refl _)
  | reset =>
    cases h
    exact .quiet rfl rfl rfl rfl (Nat.le_succ _)
  | stop =>
    cases h
    by_cases hactive : s.hasActiveTest = true
    · obtain ⟨sequence, rest, haborts, hstop⟩ := stop_called hactive
      rw [hstop]
      exact .called sequence rest haborts rfl rfl rfl rfl rfl
    · have hstop : s.stop = { s with
          stopCalls := s.stopCalls + 1
          stops := s.stops ++ [⟨s.stopCalls, false, true⟩] } := if_neg hactive
      rw [hstop]
      exact .idle rfl rfl rfl rfl rfl
  | settle i failure =>
    obtain ⟨task, hget, rfl⟩ := Option.map_eq_some_iff.mp h
    exact settle_moves hget failure
  | completion =>
    rw [step] at h
    split at h
    · cases h
      simp only [complete]
      split <;> exact .quiet rfl rfl rfl rfl (Nat.le_refl _)
    · cases h

/-! ## From the call of a stop on -/

/-- Since the stop `id` was called in `base`: the commands `after` were sent and the stops `more` have
settled. -/
structure Stopping (base : MotorTestService) (id : ℕ) (aborts : List ℕ) (silent : Prop)
    (s : MotorTestService) (after : List MotorCommand) (more : List MotorTestStopResult) : Prop where
  commands : s.commands = base.commands ++ after
  stops : s.stops = base.stops ++ more
  calls : id < s.stopCalls
  zero : silent → ∀ c ∈ after, c.throttlePercent = 0
  harmless : silent → ∀ task ∈ s.tasks, task.Harmless s.sweepToken
  waiting : ∀ rest acknowledged, .stop id rest acknowledged ∈ s.tasks →
    ∀ sequence ∈ aborts, sequence ∈ rest ∨ Zeroed after sequence
  settled : ∀ result ∈ more, result.id = id → ∀ sequence ∈ aborts, Zeroed after sequence

variable {new : List Task}

theorem Resumed.mem (h : Resumed s t i task new) :
    task ∈ s.tasks := List.mem_of_getElem? h.get

theorem Resumed.cases {other : Task} (h : Resumed s t i task new) (hmem : other ∈ t.tasks) :
    other ∈ s.tasks ∨ other ∈ new := by
  rw [h.tasks] at hmem
  exact (List.mem_append.mp hmem).imp_left List.mem_of_mem_eraseIdx

variable {base : MotorTestService} {id : ℕ} {aborts : List ℕ} {silent : Prop}
  {after : List MotorCommand} {more : List MotorTestStopResult}

theorem Stopping.resume (h : Stopping base id aborts silent s after more)
    (hr : Resumed s t i task new) (hcommands : t.commands = s.commands) (hstops : t.stops = s.stops)
    (hharmless : silent → ∀ other ∈ new, other.Harmless s.sweepToken)
    (hnew : ∀ rest acknowledged, .stop id rest acknowledged ∉ new) :
    Stopping base id aborts silent t after more := by
  refine ⟨hcommands.trans h.commands, hstops.trans h.stops, hr.stopCalls ▸ h.calls, h.zero,
    fun hs other hmem => ?_, fun rest acknowledged hmem => ?_, h.settled⟩
  · rw [hr.sweepToken]
    obtain hold | hin := hr.cases hmem
    · exact h.harmless hs other hold
    · exact hharmless hs other hin
  · obtain hold | hin := hr.cases hmem
    · exact h.waiting rest acknowledged hold
    · exact absurd hin (hnew rest acknowledged)

theorem Stopping.send (h : Stopping base id aborts silent s after more) {new : Task}
    (hr : Resumed s t i task [new]) {c : MotorCommand} (hcommands : t.commands = s.commands ++ [c])
    (hstops : t.stops = s.stops) (hzero : silent → c.throttlePercent = 0)
    (hharmless : silent → new.Harmless s.sweepToken)
    (hnew : ∀ rest acknowledged, new = .stop id rest acknowledged → ∀ sequence ∈ aborts, sequence ∈ rest ∨ Zeroed (after ++ [c]) sequence) :
    Stopping base id aborts silent t (after ++ [c]) more := by
  refine ⟨by rw [hcommands, h.commands, List.append_assoc], hstops.trans h.stops,
    hr.stopCalls ▸ h.calls, fun hs d hd => ?_, fun hs other hmem => ?_,
    fun rest acknowledged hmem sequence hseq => ?_,
    fun result hresult hid sequence hseq => (h.settled result hresult hid sequence hseq).mono c⟩
  · obtain hd | hd := List.mem_append.mp hd
    · exact h.zero hs d hd
    · rw [List.mem_singleton.mp hd]
      exact hzero hs
  · rw [hr.sweepToken]
    obtain hold | hin := hr.cases hmem
    · exact h.harmless hs other hold
    · rw [List.mem_singleton.mp hin]
      exact hharmless hs
  · obtain hold | hin := hr.cases hmem
    · exact (h.waiting rest acknowledged hold sequence hseq).imp_right fun hz => hz.mono c
    · exact hnew rest acknowledged (List.mem_singleton.mp hin).symm sequence hseq

theorem stopping_step (he : e.isRun = false) (h : Stopping base id aborts silent s after more)
    (hstep : step s e = some t) :
    ∃ after' more', Stopping base id aborts silent t after' more' := by
  cases step_moves he hstep with
  | quiet hcommands htasks hstops hcalls htoken =>
    refine ⟨after, more, hcommands.trans h.commands, hstops.trans h.stops, hcalls ▸ h.calls, h.zero,
      fun hs task hmem => ?_, fun rest acknowledged hmem => ?_, h.settled⟩
    · exact (h.harmless hs task (htasks ▸ hmem)).mono htoken
    · exact h.waiting rest acknowledged (htasks ▸ hmem)
  | ended i task hr hcommands hstops _ =>
    exact ⟨after, more, h.resume hr hcommands hstops (fun _ _ h => nomatch h) fun _ _ h => nomatch h⟩
  | paused i token spin rest task htask hr hcommands hstops =>
    refine ⟨after, more, h.resume hr hcommands hstops (fun hs other hmem => ?_) (by simp)⟩
    have hharmless := h.harmless hs task hr.mem
    rw [List.mem_singleton.mp hmem]
    obtain rfl | rfl := htask <;> exact hharmless
  | spun i sequence spin rest hr hcommands hstops =>
    refine ⟨_, more, h.send hr hcommands hstops (fun hs => ?_) (fun hs => ?_) nofun⟩
    all_goals cases h.harmless hs _ hr.mem
  | swept i sequence spin rest hr hcommands hstops =>
    refine ⟨_, more, h.send hr hcommands hstops (fun hs => ?_) (fun hs => ?_) nofun⟩
    all_goals exact absurd (h.harmless hs _ hr.mem) (Nat.lt_irrefl _)
  | aborted i stopId sequence rest acknowledged acknowledged' hr hcommands hstops =>
    refine ⟨_, more, h.send hr hcommands hstops (fun _ => rfl) (fun _ => trivial) ?_⟩
    rintro rest' ack' heq q hq
    obtain ⟨rfl, rfl, -⟩ := Task.stop.inj heq
    obtain hmem | hz := h.waiting _ _ hr.mem q hq
    · obtain rfl | hmem := List.mem_cons.mp hmem
      · exact .inr ⟨_, List.mem_append_right _ (List.mem_singleton_self _), rfl, rfl⟩
      · exact .inl hmem
    · exact .inr (hz.mono _)
  | stopped i stopId acknowledged acknowledged' hr hcommands hstops =>
    refine ⟨after, more ++ [⟨stopId, true, acknowledged'⟩], hcommands.trans h.commands,
      by rw [hstops, h.stops, List.append_assoc], hr.stopCalls ▸ h.calls, h.zero,
      fun hs task hmem => ?_, fun rest ack hmem => ?_, fun result hresult hid q hq => ?_⟩
    · rw [hr.sweepToken]
      exact h.harmless hs task ((hr.cases hmem).resolve_right List.not_mem_nil)
    · exact h.waiting rest ack ((hr.cases hmem).resolve_right List.not_mem_nil)
    · obtain hresult | hresult := List.mem_append.mp hresult
      · exact h.settled result hresult hid q hq
      · obtain rfl := List.mem_singleton.mp hresult
        obtain rfl : stopId = id := hid
        exact (h.waiting _ _ hr.mem q hq).resolve_left List.not_mem_nil
  | called sequence rest haborts hcommands htasks hstops hcalls htoken =>
    have hne : s.stopCalls ≠ id := (Nat.ne_of_gt h.calls)
    refine ⟨after ++ [⟨sequence, 0, 0⟩], more, by rw [hcommands, h.commands, List.append_assoc],
      hstops.trans h.stops, by rw [hcalls]; exact Nat.lt_succ_of_lt h.calls, fun hs c hc => ?_,
      fun hs task hmem => ?_, fun rest' ack hmem q hq => ?_,
      fun result hresult hid q hq => (h.settled result hresult hid q hq).mono _⟩
    · obtain hc | hc := List.mem_append.mp hc
      · exact h.zero hs c hc
      · rw [List.mem_singleton.mp hc]
    · rw [htoken]
      obtain hmem | hmem := List.mem_append.mp (htasks ▸ hmem)
      · exact (h.harmless hs task hmem).mono (Nat.le_succ _)
      · rw [List.mem_singleton.mp hmem]
        trivial
    · obtain hmem | hmem := List.mem_append.mp (htasks ▸ hmem)
      · exact (h.waiting rest' ack hmem q hq).imp_right fun hz => hz.mono _
      · exact absurd (Task.stop.inj (List.mem_singleton.mp hmem)).1.symm hne
  | idle hcommands htasks hstops hcalls htoken =>
    have hne : s.stopCalls ≠ id := (Nat.ne_of_gt h.calls)
    refine ⟨after, more ++ [⟨s.stopCalls, false, true⟩], hcommands.trans h.commands,
      by rw [hstops, h.stops, List.append_assoc], by rw [hcalls]; exact Nat.lt_succ_of_lt h.calls,
      h.zero, fun hs task hmem => ?_, fun rest ack hmem => h.waiting rest ack (htasks ▸ hmem),
      fun result hresult hid q hq => ?_⟩
    · rw [htoken]
      exact h.harmless hs task (htasks ▸ hmem)
    · obtain hresult | hresult := List.mem_append.mp hresult
      · exact h.settled result hresult hid q hq
      · rw [List.mem_singleton.mp hresult] at hid
        exact absurd hid hne

theorem stopping_run {es : List Event} (hes : ∀ e ∈ es, e.isRun = false)
    (h : Stopping base id aborts silent s after more) (hrun : Runs.run step s es = some t) :
    ∃ after' more', Stopping base id aborts silent t after' more' :=
  run_invariant_of_mem (I := fun u => ∃ after' more', Stopping base id aborts silent u after' more')
    (fun _ _ _ ⟨_, _, h⟩ he hstep => stopping_step he h hstep) hes ⟨after, more, h⟩ hrun
theorem stopping_called (hactive : s.hasActiveTest = true)
    (hstops : ∀ rest acknowledged, .stop s.stopCalls rest acknowledged ∉ s.tasks)
    (hharmless : silent → ∀ task ∈ s.tasks, task.Harmless (s.sweepToken + 1)) :
    ∃ after more, Stopping s s.stopCalls s.abortSequences silent s.stop after more := by
  obtain ⟨sequence, rest, haborts, hstop⟩ := stop_called hactive
  rw [hstop]
  refine ⟨[⟨sequence, 0, 0⟩], [], rfl, (List.append_nil _).symm, Nat.lt_succ_self _,
    fun _ c hc => by rw [List.mem_singleton.mp hc], fun hs task hmem => ?_,
    fun rest' ack hmem q hq => ?_, nofun⟩
  · obtain hmem | hmem := List.mem_append.mp hmem
    · exact hharmless hs task hmem
    · rw [List.mem_singleton.mp hmem]
      trivial
  · obtain hmem | hmem := List.mem_append.mp hmem
    · exact absurd hmem (hstops rest' ack)
    · obtain ⟨-, rfl, -⟩ := Task.stop.inj (List.mem_singleton.mp hmem)
      rw [haborts] at hq
      obtain rfl | hq := List.mem_cons.mp hq
      · exact .inr ⟨_, List.mem_singleton_self _, rfl, rfl⟩
      · exact .inl hq

/-! ## A run until it is stopped -/

theorem sweepOrder_perm (outputs : List ServoOutputAssignment) :
    (sweepOrder outputs).Perm outputs := List.perm_insertionSort _ _

/-- The record of a run that has commanded the motors `done`. -/
def recordOf (mode : RunMode) (done : List ℕ) : List ℕ :=
  match mode with
  | .single => []
  | .sweep => done.getLast?.toList
  | .simultaneous => done

/-- The task of a run that has commanded the motors `done` of `sequences`. -/
def TaskOf (mode : RunMode) (spin : Spin) (sequences done : List ℕ) (sweepToken : ℕ) (task : Task) :
    Prop :=
  match mode with
  | .single => task = .single
  | .sweep => ∃ token rest, token ≤ sweepToken ∧ (task = .sweepStart token spin rest ∨
      task = .sweepGap token spin rest ∨ task = .sweepCommand token spin rest)
  | .simultaneous => ∃ rest, task = .simultaneous spin rest ∧ sequences = done ++ rest

/-- The only run there is has commanded the motors `done` since `commands`. -/
structure Current (commands : List MotorCommand) (mode : RunMode) (spin : Spin) (sequences : List ℕ)
    (s : MotorTestService) (done : List ℕ) : Prop where
  commands : s.commands = commands ++ done.map spin.command
  record : s.activeSimultaneousSequences = recordOf mode done
  tasks : s.tasks = [] ∨
    ∃ task, s.tasks = [task] ∧ TaskOf mode spin sequences done s.sweepToken task

variable {commands : List MotorCommand} {mode : RunMode} {spin : Spin} {sequences done : List ℕ}

theorem Current.congr (h : Current commands mode spin sequences s done)
    (hcommands : t.commands = s.commands)
    (hrecord : t.activeSimultaneousSequences = s.activeSimultaneousSequences)
    (htasks : t.tasks = s.tasks) (htoken : t.sweepToken = s.sweepToken) :
    Current commands mode spin sequences t done :=
  ⟨hcommands.trans h.commands, hrecord.trans h.record, htasks ▸ htoken ▸ h.tasks⟩

theorem Current.wait (h : Current commands mode spin sequences s done)
    (hcommands : t.commands = s.commands)
    (hrecord : t.activeSimultaneousSequences = s.activeSimultaneousSequences)
    (htasks : t.tasks = [] ∨ ∃ task, t.tasks = [task] ∧ TaskOf mode spin sequences done t.sweepToken
      task) : Current commands mode spin sequences t done :=
  ⟨hcommands.trans h.commands, hrecord.trans h.record, htasks⟩

theorem Current.command (h : Current commands mode spin sequences s done) {sequence : ℕ}
    (hcommands : t.commands = s.commands ++ [spin.command sequence])
    (hrecord : t.activeSimultaneousSequences = recordOf mode (done ++ [sequence]))
    (htasks : t.tasks = [task])
    (htask : TaskOf mode spin sequences (done ++ [sequence]) t.sweepToken task) :
    Current commands mode spin sequences t (done ++ [sequence]) :=
  ⟨by rw [hcommands, h.commands, List.map_append, List.append_assoc]; rfl, hrecord,
    .inr ⟨task, htasks, htask⟩⟩

theorem current_settle (h : Current commands mode spin sequences s done)
    (hget : s.tasks[i]? = some task) (failure : Option String) :
    ∃ done', Current commands mode spin sequences
      ({ s with tasks := s.tasks.eraseIdx i }.settle task failure) done' := by
  obtain htasks | ⟨own, htasks, hown⟩ := h.tasks
  · rw [htasks] at hget
    cases hget
  obtain ⟨rfl, rfl⟩ : i = 0 ∧ own = task := by
    rw [htasks, List.getElem?_singleton] at hget
    split at hget
    · next hi => exact ⟨hi, Option.some.inj hget⟩
    · cases hget
  have herase : s.tasks.eraseIdx 0 = [] := by rw [htasks]; rfl
  rw [herase]
  cases mode with
  | single =>
    subst hown
    refine ⟨done, ?_⟩
    cases failure <;> exact h.wait rfl rfl (.inl rfl)
  | sweep =>
    obtain ⟨token, rest, hle, rfl | rfl | rfl⟩ := hown
    · refine ⟨done, ?_⟩
      cases failure with
      | some error => exact h.wait rfl rfl (.inl rfl)
      | none =>
        simp only [settle, continueSweep]
        split
        · exact h.wait rfl rfl (.inl rfl)
        · exact h.wait rfl rfl (.inr ⟨_, rfl, token, rest, hle, .inr (.inl rfl)⟩)
    · simp only [settle, sweepNext]
      split
      · exact ⟨done, h.wait rfl rfl (.inl rfl)⟩
      cases rest with
      | nil => exact ⟨done, h.wait rfl rfl (.inl rfl)⟩
      | cons sequence rest =>
        exact ⟨_, h.command rfl (by rw [recordOf, List.getLast?_concat]; rfl) rfl
          ⟨token, rest, hle, .inr (.inr rfl)⟩⟩
    · refine ⟨done, ?_⟩
      simp only [settle, continueSweep]
      split
      · exact h.wait rfl rfl (.inl rfl)
      split
      · exact h.wait rfl rfl (.inl rfl)
      split
      · exact h.wait rfl rfl (.inl rfl)
      · exact h.wait rfl rfl (.inr ⟨_, rfl, token, rest, hle, .inr (.inl rfl)⟩)
  | simultaneous =>
    obtain ⟨rest, rfl, hsequences⟩ := hown
    cases failure with
    | some error => exact ⟨done, h.wait rfl rfl (.inl rfl)⟩
    | none =>
      cases rest with
      | nil => exact ⟨done, h.wait rfl rfl (.inl rfl)⟩
      | cons sequence rest =>
        refine ⟨_, h.command rfl (congrArg (· ++ [sequence]) h.record) rfl ⟨rest, rfl, ?_⟩⟩
        rw [hsequences, List.append_assoc]
        rfl

theorem current_step (he : e.isQuiet = true) (h : Current commands mode spin sequences s done)
    (hstep : step s e = some t) :
    ∃ done', Current commands mode spin sequences t done' := by
  cases e with
  | run | stop | reset => cases he
  | clock | clearCompletionTimer =>
    cases hstep
    exact ⟨done, h.congr rfl rfl rfl rfl⟩
  | settle i failure =>
    obtain ⟨task, hget, rfl⟩ := Option.map_eq_some_iff.mp hstep
    exact current_settle h hget failure
  | completion =>
    rw [step] at hstep
    split at hstep
    · cases hstep
      refine ⟨done, ?_⟩
      simp only [complete]
      split <;> exact h.congr rfl rfl rfl rfl
    · cases hstep
variable {snapshot : Snapshot} {request : MotorTestRequest}

theorem start_of_allowed {options : MotorTestEligibilityOptions}
    (h : (s.eligibility snapshot request options).allowed = true) :
    ∃ spin : Spin, 1 ≤ spin.throttlePercent ∧
      s.run snapshot request options = s.start snapshot request spin := by
  obtain ⟨throttle, hthrottle, hle⟩ := throttle_of_allowed h
  obtain ⟨duration, hduration⟩ := duration_of_allowed h
  refine ⟨⟨throttle, duration⟩, hle, ?_⟩
  simp only [run, h, hthrottle, hduration]

theorem sweep_of_mode (h : request.mode = .sweep) :
    request.runAllOutputsSimultaneous = false ∧ request.runAllOutputs = true := by
  rw [MotorTestRequest.mode] at h
  split_ifs at h with hsimultaneous hall
  exact ⟨by simpa using hsimultaneous, hall⟩

theorem sweepSequences_ne_nil (h : request.mode = .sweep) (houtputs : snapshot.motorOutputs ≠ []) :
    sequencesOf snapshot request ≠ [] := by
  obtain ⟨hoff, hon⟩ := sweep_of_mode h
  intro hnil
  rw [sequencesOf, if_neg (by simp [hoff]), if_pos hon, List.map_eq_nil_iff] at hnil
  have hperm := sweepOrder_perm snapshot.motorOutputs
  rw [hnil] at hperm
  exact houtputs hperm.nil_eq.symm

theorem current_start (hidle : s.tasks = []) (houtputs : snapshot.motorOutputs ≠ []) :
    ∃ done, Current s.commands request.mode spin (sequencesOf snapshot request)
      (s.start snapshot request spin) done := by
  rw [start, MotorTestRequest.mode]
  by_cases hsimultaneous : request.runAllOutputsSimultaneous = true
  · simp only [hsimultaneous, if_true]
    cases hsequences : sequencesOf snapshot request with
    | nil => exact ⟨[], (List.append_nil _).symm, rfl, .inl hidle⟩
    | cons sequence rest =>
      refine ⟨[sequence], rfl, rfl, .inr ⟨.simultaneous spin rest, ?_, rest, rfl, rfl⟩⟩
      simp only [sendSimultaneous, sendCommand, hidle, List.nil_append]
  · simp only [hsimultaneous, Bool.false_eq_true, if_false]
    by_cases hsweep : request.runAllOutputs = true
    · simp only [hsweep, if_true]
      cases hsequences : sequencesOf snapshot request with
      | nil =>
        rw [sequencesOf, if_neg hsimultaneous, if_pos hsweep, List.map_eq_nil_iff] at hsequences
        have hperm := sweepOrder_perm snapshot.motorOutputs
        rw [hsequences] at hperm
        exact absurd hperm.nil_eq.symm houtputs
      | cons sequence rest =>
        refine ⟨[sequence], rfl, rfl, .inr ⟨.sweepStart (s.sweepToken + 1) spin rest, ?_,
          s.sweepToken + 1, rest, Nat.le_refl _, .inl rfl⟩⟩
        simp only [sendCommand, hidle, List.nil_append]
    · simp only [hsweep, Bool.false_eq_true, if_false]
      refine ⟨[(sequencesOf snapshot request).headD 1], rfl, rfl, .inr ⟨.single, ?_, rfl⟩⟩
      simp only [sendCommand, hidle, List.nil_append]

/-! ## A run that is stopped -/

/-- A run that starts when nothing waits is stopped: between the two there are acknowledgements,
failures and timers in any order, after the stop anything but a new run, and by the end the stop has
resolved with its commands acknowledged. -/
structure Episode (snapshot : Snapshot) (request : MotorTestRequest)
    (options : MotorTestEligibilityOptions) (mid post : List Event)
    (s₀ s₁ s₂ s₃ s₄ : MotorTestService) : Prop where
  idle : s₀.tasks = []
  allowed : (s₀.eligibility snapshot request options).allowed = true
  started : step s₀ (.run snapshot request options) = some s₁
  quiet : ∀ e ∈ mid, e.isQuiet = true
  running : Runs.run step s₁ mid = some s₂
  active : s₂.hasActiveTest = true
  stopped : step s₂ .stop = some s₃
  noRun : ∀ e ∈ post, e.isRun = false
  after : Runs.run step s₃ post = some s₄
  resolved : ⟨s₂.stopCalls, true, true⟩ ∈ s₄.stops.drop s₂.stops.length

theorem Current.answerable_mem (h : Current commands mode spin sequences s done) {q : ℕ}
    (hq : q ∈ answerable mode (done.map spin.command)) : q ∈ s.abortSequences := by
  have hsequences : (done.map spin.command).map MotorCommand.sequence = done := by
    rw [List.map_map]
    exact List.map_id _
  have hrecord := h.record
  rw [abortSequences]
  cases mode with
  | single =>
    rw [if_pos (show s.activeSimultaneousSequences = [] from hrecord)]
    exact hq
  | sweep =>
    rw [answerable, hsequences] at hq
    rw [← show s.activeSimultaneousSequences = done.getLast?.toList from hrecord] at hq
    rwa [if_neg (List.ne_nil_of_mem hq)]
  | simultaneous =>
    rw [answerable, hsequences] at hq
    rw [← show s.activeSimultaneousSequences = done from hrecord] at hq
    rwa [if_neg (List.ne_nil_of_mem hq)]

theorem Current.notMem_stop (h : Current commands mode spin sequences s done) (id : ℕ)
    (rest : List ℕ) (acknowledged : Bool) : .stop id rest acknowledged ∉ s.tasks := by
  intro hmem
  obtain htasks | ⟨task, htasks, htask⟩ := h.tasks
  · rw [htasks] at hmem
    cases hmem
  rw [htasks, List.mem_singleton] at hmem
  subst hmem
  cases mode with
  | single => cases htask
  | sweep =>
    obtain ⟨_, _, -, h | h | h⟩ := htask <;> cases h
  | simultaneous =>
    obtain ⟨_, h, -⟩ := htask
    cases h

theorem Current.harmless (h : Current commands mode spin sequences s done)
    (hdone : mode = .simultaneous → done.length = sequences.length) (task : Task)
    (hmem : task ∈ s.tasks) : task.Harmless (s.sweepToken + 1) := by
  obtain htasks | ⟨own, htasks, hown⟩ := h.tasks
  · rw [htasks] at hmem
    cases hmem
  rw [htasks, List.mem_singleton] at hmem
  subst hmem
  cases mode with
  | single =>
    subst hown
    trivial
  | sweep =>
    obtain ⟨token, rest, hle, rfl | rfl | rfl⟩ := hown <;> exact Nat.lt_succ_of_le hle
  | simultaneous =>
    obtain ⟨rest, rfl, hsequences⟩ := hown
    have hlength := hdone rfl
    rw [hsequences, List.length_append] at hlength
    exact List.eq_nil_of_length_eq_zero (by omega)

/-- A run that is stopped, however its commands, their acknowledgements and the stop interleave: once
the stop has resolved with its commands acknowledged, every motor it answers for has been commanded to
zero since it was called, and nothing has turned a motor since, unless the stop came between two
commands of a simultaneous run. -/
theorem stop_safe {snapshot : Snapshot} {request : MotorTestRequest}
    {options : MotorTestEligibilityOptions} {mid post : List Event} {s₀ s₁ s₂ s₃ s₄ : MotorTestService}
    (h : Episode snapshot request options mid post s₀ s₁ s₂ s₃ s₄) :
    ∃ commanded after, s₂.commands = s₀.commands ++ commanded ∧ s₄.commands = s₂.commands ++ after ∧
      (∀ c ∈ commanded, 1 ≤ c.throttlePercent) ∧
      (∀ sequence ∈ answerable request.mode commanded, Zeroed after sequence) ∧
      ((request.mode = .simultaneous →
          commanded.length = (sequencesOf snapshot request).length) →
        ∀ c ∈ after, c.throttlePercent = 0) := by
  obtain ⟨spin, hspin, hstart⟩ := start_of_allowed h.allowed
  have hs₁ := (Option.some.inj h.started).symm
  rw [hstart] at hs₁
  subst hs₁
  obtain ⟨done, hcurrent⟩ := run_invariant_of_mem
    (I := fun s => ∃ done, Current s₀.commands request.mode spin (sequencesOf snapshot request) s done)
    (fun _ _ _ ⟨_, h⟩ he hstep => current_step he h hstep) h.quiet
    (current_start h.idle (motorOutputs_of_allowed h.allowed)) h.running
  obtain ⟨after, more, hcalled⟩ := stopping_called h.active (hcurrent.notMem_stop _)
    (hcurrent.harmless)
  obtain rfl := Option.some.inj h.stopped
  obtain ⟨after, more, hstopping⟩ := stopping_run h.noRun hcalled h.after
  refine ⟨done.map spin.command, after, hcurrent.commands, hstopping.commands, fun c hc => ?_,
    fun q hq => ?_, fun hdone => hstopping.zero fun hmode => ?_⟩
  · obtain ⟨sequence, -, rfl⟩ := List.mem_map.mp hc
    exact hspin
  · have hresolved := h.resolved
    rw [hstopping.stops, List.drop_left] at hresolved
    exact hstopping.settled _ hresolved rfl q (hcurrent.answerable_mem hq)
  · have hlength := hdone hmode
    rwa [List.length_map] at hlength
/-! ## Three stopped runs on a quad in X -/

def quadX : Snapshot where
  connected := true
  armed := some false
  parametersComplete := true
  guidedActionRunning := false
  motorOutputs := [⟨1, some 1⟩, ⟨2, some 2⟩]
  frameClass := some 1
  frameType := some 1

def singleRequest : MotorTestRequest := ⟨some 2, false, false, some 5, some 1⟩
def sweepRequest : MotorTestRequest := ⟨none, true, false, some 5, some 1⟩
def simultaneousRequest : MotorTestRequest := ⟨none, false, true, some 5, some 1⟩

def noOptions : MotorTestEligibilityOptions := ⟨false, false, false⟩

/-- What becomes of a request that is stopped after `acks` things it waited for have come, when the
aborts of the stop are acknowledged too. -/
def stoppedRun (request : MotorTestRequest) (acks aborts : ℕ) :
    Option (MotorTestService × MotorTestService × MotorTestService × MotorTestService) :=
  let s₁ := (initial 0).run quadX request noOptions
  (Runs.run step s₁ (List.replicate acks (.settle 0 none))).bind fun s₂ =>
    (Runs.run step s₂.stop (List.replicate aborts (.settle (s₂.tasks.length) none))).map fun s₄ =>
      (s₁, s₂, s₂.stop, s₄)

theorem episode_of_stoppedRun (request : MotorTestRequest) (acks aborts : ℕ)
    (commands₂ commands₄ : List MotorCommand)
    (hallowed : ((initial 0).eligibility quadX request noOptions).allowed = true)
    (h : (stoppedRun request acks aborts).any (fun p => p.2.1.hasActiveTest &&
      decide (⟨p.2.1.stopCalls, true, true⟩ ∈ p.2.2.2.stops.drop p.2.1.stops.length) &&
      decide (p.2.1.commands = commands₂) &&
      decide (p.2.2.2.commands = commands₂ ++ commands₄)) = true) :
    ∃ mid post s₁ s₂ s₃ s₄, Episode quadX request noOptions mid post (initial 0) s₁ s₂ s₃ s₄ ∧
      s₂.commands = commands₂ ∧ s₄.commands = commands₂ ++ commands₄ := by
  obtain ⟨⟨s₁, s₂, s₃, s₄⟩, hrun, h⟩ := (Option.any_eq_true _ _).mp h
  simp only [Bool.and_eq_true, decide_eq_true_eq] at h
  obtain ⟨s₂', h₂, hrun⟩ := Option.bind_eq_some_iff.mp hrun
  obtain ⟨s₄', h₄, heq⟩ := Option.map_eq_some_iff.mp hrun
  obtain ⟨rfl, rfl, rfl, rfl⟩ : _ ∧ _ ∧ _ ∧ _ := by simpa only [Prod.mk.injEq] using heq
  have hquiet : ∀ {n i : ℕ}, ∀ e ∈ List.replicate n (Event.settle i none),
      e.isQuiet = true ∧ e.isRun = false := fun e he => by
    rw [List.eq_of_mem_replicate he]
    exact ⟨rfl, rfl⟩
  exact ⟨_, _, _, _, _, _, ⟨rfl, hallowed, rfl, fun e he => (hquiet e he).1, h₂, h.1.1.1, rfl,
    fun e he => (hquiet e he).2, h₄, h.1.1.2⟩, h.1.2, h.2⟩

/-- Both motors of a simultaneous run are stopped, and nothing else is commanded. -/
theorem stop_safe_simultaneous : ∃ mid post s₁ s₂ s₃ s₄ after,
    Episode quadX simultaneousRequest noOptions mid post (initial 0) s₁ s₂ s₃ s₄ ∧
      s₂.commands = [⟨1, 5, 1⟩, ⟨3, 5, 1⟩] ∧ s₄.commands = s₂.commands ++ after ∧
      Zeroed after 1 ∧ Zeroed after 3 ∧ ∀ c ∈ after, c.throttlePercent = 0 := by
  obtain ⟨mid, post, s₁, s₂, s₃, s₄, hepisode, hcommands, -⟩ :=
    episode_of_stoppedRun simultaneousRequest 2 2 [⟨1, 5, 1⟩, ⟨3, 5, 1⟩] [⟨1, 0, 0⟩, ⟨3, 0, 0⟩]
      (by decide +kernel) (by decide +kernel)
  obtain ⟨commanded, after, hcommanded, hafter, -, hzeroed, hsilent⟩ := stop_safe hepisode
  have heq : commanded = [⟨1, 5, 1⟩, ⟨3, 5, 1⟩] := hcommanded.symm.trans hcommands
  subst heq
  exact ⟨mid, post, s₁, s₂, s₃, s₄, after, hepisode, hcommands, hafter, hzeroed 1 (by decide +kernel),
    hzeroed 3 (by decide +kernel), hsilent fun _ => by decide +kernel⟩

theorem not_zeroed_of_stoppedRun (request : MotorTestRequest) (acks aborts : ℕ)
    (commands₂ commands₄ : List MotorCommand)
    (hallowed : ((initial 0).eligibility quadX request noOptions).allowed = true)
    (h : (stoppedRun request acks aborts).any (fun p => p.2.1.hasActiveTest &&
      decide (⟨p.2.1.stopCalls, true, true⟩ ∈ p.2.2.2.stops.drop p.2.1.stops.length) &&
      decide (p.2.1.commands = commands₂) &&
      decide (p.2.2.2.commands = commands₂ ++ commands₄)) = true)
    (hnot : ∃ c ∈ commands₂, ∀ d ∈ commands₄, d.sequence ≠ c.sequence) :
    ¬ ∀ mid post s₁ s₂ s₃ s₄,
      Episode quadX request noOptions mid post (initial 0) s₁ s₂ s₃ s₄ →
        ∀ after, s₄.commands = s₂.commands ++ after → ∀ c ∈ s₂.commands, Zeroed after c.sequence := by
  intro hall
  obtain ⟨mid, post, s₁, s₂, s₃, s₄, hepisode, h₂, h₄⟩ :=
    episode_of_stoppedRun request acks aborts commands₂ commands₄ hallowed h
  obtain ⟨c, hc, hne⟩ := hnot
  obtain ⟨d, hd, hdc, -⟩ := hall mid post s₁ s₂ s₃ s₄ hepisode commands₄ (by rw [h₄, h₂]) c (h₂ ▸ hc)
  exact hne d hd hdc

/-- The abort of a single motor is addressed to sequence 1, and that of a sweep to the motor it
commanded last: the motor on sequence 3, and the first motor of the sweep, are never commanded to
zero. -/
theorem stop_leaves_motors : [singleRequest, sweepRequest].Forall fun request =>
    ¬ ∀ mid post s₁ s₂ s₃ s₄, Episode quadX request noOptions mid post (initial 0) s₁ s₂ s₃ s₄ →
      ∀ after, s₄.commands = s₂.commands ++ after → ∀ c ∈ s₂.commands, Zeroed after c.sequence := by
  constructor
  · exact not_zeroed_of_stoppedRun _ 1 1 [⟨3, 5, 1⟩] [⟨1, 0, 0⟩] (by decide +kernel)
      (by decide +kernel) (by decide +kernel)
  · exact not_zeroed_of_stoppedRun _ 3 1 [⟨1, 5, 1⟩, ⟨3, 5, 1⟩] [⟨3, 0, 0⟩] (by decide +kernel)
      (by decide +kernel) (by decide +kernel)

end MotorTestService
end ArduConfigurator.MotorTest
