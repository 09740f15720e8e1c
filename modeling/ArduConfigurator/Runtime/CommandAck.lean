import ArduConfigurator.Lib.Runs
import Mathlib.Data.List.Nodup

/-! # Command acknowledgments

Commands that wait for the autopilot's acknowledgment, and the count of the telemetry streams that it
refused. -/
namespace ArduConfigurator.Runtime
open Runs
set_option autoImplicit false

namespace MavResult

def ACCEPTED : ℕ := 0
def IN_PROGRESS : ℕ := 5

end MavResult

namespace MavCmd

def RUN_PREARM_CHECKS : ℕ := 401
def SET_MESSAGE_INTERVAL : ℕ := 511

end MavCmd

def COMMAND_ACK_LOG_LIMIT : ℕ := 20

/-! ## The data -/

structure CommandAckMessage where
  command : ℕ
  result : ℕ

structure Endpoint where
  systemId : ℕ
  componentId : ℕ
  deriving DecidableEq

structure CommandAckLogEntry where
  command : ℕ
  result : ℕ
  source : Endpoint
  foreign : Bool

structure CommandAckWaiter where
  handle : ℕ
  command : ℕ
  rejectOnFailure : Bool
  lastInProgress : Option CommandAckMessage

inductive AckOutcome
  | resolved (message : CommandAckMessage)
  | rejected (message : CommandAckMessage)
  | timedOut
  | cancelled

structure CommandLong where
  command : ℕ
  target : Endpoint

/-- The part of the runtime that commands and their acknowledgments touch. `handle` numbers the
waiters, `settled` and `sent` record what became of them and what went out, and
`refusedStreams` counts the refused requests for a stream since the last reset. -/
structure Commands where
  vehicle : Option Endpoint
  commandAckLog : List CommandAckLogEntry
  commandAckWaiters : List CommandAckWaiter
  refusedMessageIntervalRequests : ℕ
  handle : ℕ
  settled : List (CommandAckWaiter × AckOutcome)
  sent : List CommandLong
  refusedStreams : ℕ

def Commands.initial : Commands := ⟨none, [], [], 0, 0, [], [], 0⟩

namespace Commands
variable (c : Commands)

/-! ## Sending -/

def waitForCommandAck (command : ℕ) (rejectOnFailure : Bool) : Commands :=
  { c with
    commandAckWaiters := c.commandAckWaiters ++ [⟨c.handle, command, rejectOnFailure, none⟩]
    handle := c.handle + 1 }

def sendCommand (command : ℕ) (waitForAck rejectAckOnFailure : Bool) : Commands :=
  let message : CommandLong := ⟨command, c.vehicle.getD ⟨1, 1⟩⟩
  let c := if waitForAck then c.waitForCommandAck command rejectAckOnFailure else c
  { c with sent := c.sent ++ [message] }

/-! ## Settling -/

def settle (settles : CommandAckWaiter → Bool) (outcome : CommandAckWaiter → AckOutcome) :
    Commands :=
  { c with
    commandAckWaiters := c.commandAckWaiters.filter fun waiter => !settles waiter
    settled := c.settled ++
      (c.commandAckWaiters.filter settles).map fun waiter => (waiter, outcome waiter) }

def cancel (handle : ℕ) : Commands :=
  c.settle (fun waiter => waiter.handle = handle) fun _ => .cancelled

def onTimeout (handle : ℕ) : Commands :=
  c.settle (fun waiter => waiter.handle = handle) fun waiter =>
    (waiter.lastInProgress.map AckOutcome.resolved).getD .timedOut

def rejectCommandAckWaiters : Commands := c.settle (fun _ => true) fun _ => .cancelled

def noteInProgress (message : CommandAckMessage) (waiter : CommandAckWaiter) : CommandAckWaiter :=
  if waiter.command = message.command then { waiter with lastInProgress := some message }
  else waiter

def resolveCommandAckWaiters (message : CommandAckMessage) : Commands :=
  if message.result = MavResult.IN_PROGRESS then
    { c with commandAckWaiters := c.commandAckWaiters.map (noteInProgress message) }
  else
    c.settle (fun waiter => waiter.command = message.command) fun waiter =>
      if message.result = MavResult.ACCEPTED ∨ waiter.rejectOnFailure = false then
        .resolved message
      else .rejected message

/-! ## Acknowledgments -/

/-- The acknowledgment comes from somewhere else than the vehicle that is connected. -/
def isForeign (source : Endpoint) : Bool := c.vehicle.any fun vehicle => source ≠ vehicle

def logAck (message : CommandAckMessage) (source : Endpoint) : Commands :=
  if message.command = MavCmd.RUN_PREARM_CHECKS then c
  else
    { c with
      commandAckLog := (⟨message.command, message.result, source, c.isForeign source⟩ ::
        c.commandAckLog).take COMMAND_ACK_LOG_LIMIT }

def isRefusal (message : CommandAckMessage) : Bool :=
  message.result ≠ MavResult.ACCEPTED ∧ message.result ≠ MavResult.IN_PROGRESS

def isRefusedStream (message : CommandAckMessage) : Bool :=
  isRefusal message && message.command == MavCmd.SET_MESSAGE_INTERVAL

def countRefusal (message : CommandAckMessage) : Commands :=
  if isRefusal message then
    { c with
      refusedMessageIntervalRequests := c.refusedMessageIntervalRequests + 1
      refusedStreams := c.refusedStreams + if isRefusedStream message then 1 else 0 }
  else c

def processCommandAck (message : CommandAckMessage) (source : Endpoint) : Commands :=
  if c.isForeign source then c.logAck message source
  else ((c.logAck message source).resolveCommandAckWaiters message).countRefusal message

def resetLiveState : Commands :=
  { c with
    vehicle := none
    commandAckLog := []
    refusedMessageIntervalRequests := 0
    refusedStreams := 0 }

end Commands

/-! ## Runs -/

inductive CommandEvent
  | heartbeat (source : Endpoint)
  | sendCommand (command : ℕ) (waitForAck rejectAckOnFailure : Bool)
  | sendFailed (handle : ℕ)
  | commandAck (message : CommandAckMessage) (source : Endpoint)
  | timer (handle : ℕ)
  | linkLost
  | reset
  | destroy

def Commands.step (c : Commands) : CommandEvent → Option Commands
  | .heartbeat source => some { c with vehicle := some (c.vehicle.getD source) }
  | .sendCommand command waitForAck rejectAckOnFailure =>
    some (c.sendCommand command waitForAck rejectAckOnFailure)
  | .sendFailed handle => some (c.cancel handle)
  | .commandAck message source => some (c.processCommandAck message source)
  | .timer handle =>
    if (c.commandAckWaiters.map (·.handle)).contains handle then some (c.onTimeout handle)
    else none
  | .linkLost => some c.rejectCommandAckWaiters.resetLiveState
  | .reset => some c.resetLiveState
  | .destroy => some c.rejectCommandAckWaiters

namespace Commands
variable {c : Commands}

/-! ## Every waiter once -/

def handles (c : Commands) : List ℕ :=
  c.commandAckWaiters.map (·.handle) ++ c.settled.map (·.1.handle)

/-- No waiter stands twice among those that wait and those that were settled. -/
structure Once (c : Commands) : Prop where
  nodup : c.handles.Nodup
  below : ∀ handle ∈ c.handles, handle < c.handle

theorem settle_handles (settles : CommandAckWaiter → Bool)
    (outcome : CommandAckWaiter → AckOutcome) :
    (c.settle settles outcome).handles.Perm c.handles := by
  have hsettled : ((c.commandAckWaiters.filter settles).map fun waiter =>
      (waiter, outcome waiter)).map (·.1.handle) =
        (c.commandAckWaiters.filter settles).map (·.handle) := by
    rw [List.map_map]
    rfl
  have hsplit := (List.filter_append_perm settles c.commandAckWaiters).map (·.handle)
  rw [List.map_append] at hsplit
  refine List.perm_iff_count.mpr fun handle => ?_
  have hcount := hsplit.count_eq handle
  simp only [handles, settle, List.map_append, List.count_append, hsettled] at hcount ⊢
  omega

theorem Once.settle (h : c.Once) (settles : CommandAckWaiter → Bool)
    (outcome : CommandAckWaiter → AckOutcome) : (c.settle settles outcome).Once where
  nodup := (settle_handles settles outcome).nodup_iff.mpr h.nodup
  below handle hmem := h.below handle ((settle_handles settles outcome).mem_iff.mp hmem)

variable {d : Commands}

theorem Once.of_handles (h : c.Once) (hhandles : d.handles = c.handles)
    (hnext : d.handle = c.handle) : d.Once where
  nodup := hhandles ▸ h.nodup
  below handle hmem := hnext ▸ h.below handle (hhandles ▸ hmem)

theorem Once.waitForCommandAck (h : c.Once) (command : ℕ) (rejectOnFailure : Bool) :
    (c.waitForCommandAck command rejectOnFailure).Once := by
  have hperm : (c.waitForCommandAck command rejectOnFailure).handles.Perm
      (c.handle :: c.handles) := by
    refine List.perm_iff_count.mpr fun handle => ?_
    simp only [handles, Commands.waitForCommandAck, List.map_append, List.map_cons,
      List.map_nil, List.count_append, List.count_cons, List.count_nil]
    omega
  refine ⟨hperm.nodup_iff.mpr (List.nodup_cons.mpr ⟨fun hmem => ?_, h.nodup⟩), fun handle hmem => ?_⟩
  · exact absurd (h.below _ hmem) (Nat.lt_irrefl _)
  · obtain rfl | hmem := List.mem_cons.mp (hperm.mem_iff.mp hmem)
    · exact Nat.lt_succ_self _
    · exact Nat.lt_succ_of_lt (h.below _ hmem)

theorem Once.sendCommand (h : c.Once) (command : ℕ) (waitForAck rejectAckOnFailure : Bool) :
    (c.sendCommand command waitForAck rejectAckOnFailure).Once := by
  unfold Commands.sendCommand
  cases waitForAck with
  | false => exact h.of_handles rfl rfl
  | true => exact (h.waitForCommandAck command rejectAckOnFailure).of_handles rfl rfl

theorem noteInProgress_handle (message : CommandAckMessage) (waiter : CommandAckWaiter) :
    (noteInProgress message waiter).handle = waiter.handle := by
  unfold noteInProgress
  split_ifs <;> rfl

theorem Once.resolve (h : c.Once) (message : CommandAckMessage) :
    (c.resolveCommandAckWaiters message).Once := by
  unfold resolveCommandAckWaiters
  split_ifs
  · refine h.of_handles ?_ rfl
    rw [handles, handles, List.map_map]
    congr 2
    exact funext (noteInProgress_handle message)
  · exact h.settle _ _

theorem Once.logAck (h : c.Once) (message : CommandAckMessage) (source : Endpoint) :
    (c.logAck message source).Once := by
  unfold Commands.logAck
  split_ifs
  · exact h
  · exact h.of_handles rfl rfl

theorem Once.countRefusal (h : c.Once) (message : CommandAckMessage) :
    (c.countRefusal message).Once := by
  unfold Commands.countRefusal
  by_cases hrefusal : isRefusal message = true
  · rw [if_pos hrefusal]
    exact h.of_handles rfl rfl
  · rw [if_neg hrefusal]
    exact h

theorem Once.processCommandAck (h : c.Once) (message : CommandAckMessage) (source : Endpoint) :
    (c.processCommandAck message source).Once := by
  unfold Commands.processCommandAck
  split_ifs
  · exact h.logAck message source
  · exact ((h.logAck message source).resolve message).countRefusal message

variable {event : CommandEvent}

theorem Once.step (h : c.Once) (hstep : c.step event = some d) : d.Once := by
  cases event with
  | heartbeat source => cases hstep; exact h.of_handles rfl rfl
  | sendCommand command waitForAck rejectAckOnFailure => cases hstep; exact h.sendCommand _ _ _
  | sendFailed handle => cases hstep; exact h.settle _ _
  | commandAck message source => cases hstep; exact h.processCommandAck message source
  | timer handle =>
    simp only [Commands.step] at hstep
    split_ifs at hstep
    cases hstep
    exact h.settle _ _
  | linkLost => cases hstep; exact (h.settle _ _).of_handles rfl rfl
  | reset => cases hstep; exact h.of_handles rfl rfl
  | destroy => cases hstep; exact h.settle _ _

theorem once_of_run {events : List CommandEvent} (h : run step initial events = some c) : c.Once :=
  run_invariant (I := Once) (fun _ _ _ hI hstep => hI.step hstep)
    (⟨List.nodup_nil, fun _ hmem => absurd hmem List.not_mem_nil⟩ : initial.Once) h

/-! ## What an acknowledgment settles -/

theorem logAck_waiters (message : CommandAckMessage) (source : Endpoint) :
    (c.logAck message source).commandAckWaiters = c.commandAckWaiters ∧
      (c.logAck message source).settled = c.settled ∧
      (c.logAck message source).refusedMessageIntervalRequests =
        c.refusedMessageIntervalRequests ∧
      (c.logAck message source).refusedStreams = c.refusedStreams := by
  unfold logAck
  split_ifs <;> exact ⟨rfl, rfl, rfl, rfl⟩

theorem countRefusal_settled (message : CommandAckMessage) :
    (c.countRefusal message).settled = c.settled := by
  unfold countRefusal
  split_ifs <;> rfl

variable {message : CommandAckMessage} {source : Endpoint}

theorem foreign_settles_nothing {vehicle : Endpoint} (hvehicle : c.vehicle = some vehicle)
    (hother : source ≠ vehicle) :
    (c.processCommandAck message source).settled = c.settled := by
  have hforeign : c.isForeign source = true := by
    rw [isForeign, hvehicle]
    exact decide_eq_true hother
  rw [processCommandAck, if_pos hforeign]
  exact (logAck_waiters message source).2.1

theorem progress_settles_nothing (hprogress : message.result = MavResult.IN_PROGRESS) :
    (c.processCommandAck message source).settled = c.settled := by
  obtain ⟨-, hsettled, -⟩ := c.logAck_waiters message source
  unfold processCommandAck
  split_ifs
  · exact hsettled
  · rw [countRefusal_settled, resolveCommandAckWaiters, if_pos hprogress]
    exact hsettled

theorem settled_command {entry : CommandAckWaiter × AckOutcome}
    (hentry : entry ∈ (c.processCommandAck message source).settled) :
    entry ∈ c.settled ∨ entry.1 ∈ c.commandAckWaiters ∧ entry.1.command = message.command := by
  obtain ⟨hwaiters, hsettled, -⟩ := c.logAck_waiters message source
  unfold processCommandAck at hentry
  split_ifs at hentry
  · rw [hsettled] at hentry
    exact .inl hentry
  · rw [countRefusal_settled, resolveCommandAckWaiters] at hentry
    split_ifs at hentry
    · simp only [hsettled] at hentry
      exact .inl hentry
    · rw [settle, List.mem_append, hsettled, hwaiters] at hentry
      obtain hentry | hentry := hentry
      · exact .inl hentry
      · obtain ⟨waiter, hwaiter, rfl⟩ := List.mem_map.mp hentry
        obtain ⟨hmem, hcommand⟩ := List.mem_filter.mp hwaiter
        exact .inr ⟨hmem, of_decide_eq_true hcommand⟩

/-! ## The count of refused streams -/

def StreamRefusal (c : Commands) : CommandEvent → Prop
  | .commandAck message source => c.isForeign source = false → isRefusal message = true →
      message.command = MavCmd.SET_MESSAGE_INTERVAL
  | _ => True

def Counted (c : Commands) : Prop := c.refusedMessageIntervalRequests = c.refusedStreams

theorem resolve_counted (message : CommandAckMessage) :
    (c.resolveCommandAckWaiters message).Counted ↔ c.Counted := by
  unfold resolveCommandAckWaiters
  split_ifs <;> exact Iff.rfl

theorem logAck_counted (message : CommandAckMessage) (source : Endpoint) :
    (c.logAck message source).Counted ↔ c.Counted := by
  unfold logAck
  split_ifs <;> exact Iff.rfl

theorem countRefusal_counted (h : c.Counted) (message : CommandAckMessage) :
    (c.countRefusal message).Counted ↔
      (isRefusal message = true → message.command = MavCmd.SET_MESSAGE_INTERVAL) := by
  unfold Counted at h
  unfold countRefusal
  by_cases hrefusal : isRefusal message = true
  · have hstream : isRefusedStream message = true ↔
        message.command = MavCmd.SET_MESSAGE_INTERVAL := by
      rw [isRefusedStream, hrefusal, Bool.true_and, beq_iff_eq]
    rw [if_pos hrefusal]
    by_cases hcommand : message.command = MavCmd.SET_MESSAGE_INTERVAL
    · simp [Counted, h, hstream.mpr hcommand, hcommand]
    · have hother : isRefusedStream message = false :=
        Bool.eq_false_iff.mpr fun hs => hcommand (hstream.mp hs)
      simp [Counted, h, hother, hcommand, hrefusal]
  · rw [if_neg hrefusal]
    exact iff_of_true h fun hr => absurd hr hrefusal

theorem processCommandAck_counted (h : c.Counted) (message : CommandAckMessage)
    (source : Endpoint) :
    (c.processCommandAck message source).Counted ↔
      StreamRefusal c (.commandAck message source) := by
  unfold processCommandAck
  by_cases hforeign : c.isForeign source = true
  · rw [if_pos hforeign]
    refine iff_of_true ((logAck_counted message source).mpr h) fun hown => ?_
    rw [hforeign] at hown
    cases hown
  · rw [if_neg hforeign, countRefusal_counted ((resolve_counted message).mpr
      ((logAck_counted message source).mpr h)), StreamRefusal]
    exact ⟨fun hs _ => hs, fun hs => hs (Bool.eq_false_iff.mpr hforeign)⟩

theorem counted_step (h : c.Counted) (hstep : c.step event = some d) :
    d.Counted ↔ StreamRefusal c event := by
  cases event with
  | commandAck message source => cases hstep; exact processCommandAck_counted h message source
  | heartbeat source => cases hstep; exact iff_of_true h trivial
  | sendCommand command waitForAck rejectAckOnFailure =>
    cases hstep
    refine iff_of_true ?_ trivial
    unfold sendCommand
    cases waitForAck <;> exact h
  | sendFailed handle => cases hstep; exact iff_of_true h trivial
  | timer handle =>
    simp only [step] at hstep
    split_ifs at hstep
    cases hstep
    exact iff_of_true h trivial
  | linkLost => cases hstep; exact iff_of_true rfl trivial
  | reset => cases hstep; exact iff_of_true rfl trivial
  | destroy => cases hstep; exact iff_of_true h trivial

/-! ## Every run -/

/-- In every run what an acknowledgment settles waited for its command, was not settled by progress,
and not by another endpoint than the vehicle; no waiter is settled twice; and the count is that of
the refused streams in every state just when every refusal counted is one of a stream. -/
theorem command_ack_machine {events : List CommandEvent} (hrun : run step initial events = some c) :
    (∀ before after u message source,
      events = before ++ .commandAck message source :: after → run step initial before = some u →
        ∀ entry ∈ (u.processCommandAck message source).settled, entry ∉ u.settled →
          entry.1.command = message.command ∧ message.result ≠ MavResult.IN_PROGRESS ∧
            ∀ vehicle, u.vehicle = some vehicle → source = vehicle) ∧
    (c.settled.map (·.1.handle)).Nodup ∧
    (Along step StreamRefusal initial events ↔
      ∀ before after u, events = before ++ after → run step initial before = some u →
        u.Counted) := by
  refine ⟨?_, (List.nodup_append.mp (once_of_run hrun).nodup).2.1, ?_⟩
  · intro before after u message source _ _ entry hentry hnew
    obtain hold | ⟨-, hcommand⟩ := settled_command hentry
    · exact absurd hold hnew
    refine ⟨hcommand, fun hprogress => ?_, fun vehicle hvehicle => ?_⟩
    · rw [progress_settles_nothing hprogress] at hentry
      exact hnew hentry
    · by_contra hother
      rw [foreign_settles_nothing hvehicle hother] at hentry
      exact hnew hentry
  · exact along_iff_forall_reached (I := fun _ => True) (fun _ _ _ _ _ => trivial)
      (fun _ _ _ _ hgood hC hstep => (counted_step hgood hstep).mpr hC)
      (fun _ _ _ _ hgood hC hstep hcounted => hC ((counted_step hgood hstep).mp hcounted))
      trivial rfl hrun

/-! ## A refused arming -/

instance (c : Commands) : ∀ event, Decidable (StreamRefusal c event)
  | .commandAck message source =>
    inferInstanceAs (Decidable (c.isForeign source = false → isRefusal message = true →
      message.command = MavCmd.SET_MESSAGE_INTERVAL))
  | .heartbeat _ | .sendCommand .. | .sendFailed _ | .timer _ | .linkLost | .reset | .destroy =>
    isTrue trivial

def vehicleEndpoint : Endpoint := ⟨1, 1⟩

/-- `COMPONENT_ARM_DISARM` is denied. -/
def refusedArming : List CommandEvent :=
  [.heartbeat vehicleEndpoint, .sendCommand 400 true true,
    .commandAck ⟨400, 2⟩ vehicleEndpoint]

theorem refused_arming_counted :
    (run step initial refusedArming).map (fun c =>
      (c.refusedMessageIntervalRequests, c.refusedStreams)) = some (1, 0) := by decide

def refusedStream : List CommandEvent :=
  [.heartbeat vehicleEndpoint, .sendCommand MavCmd.SET_MESSAGE_INTERVAL true true,
    .commandAck ⟨MavCmd.SET_MESSAGE_INTERVAL, 3⟩ vehicleEndpoint, .commandAck ⟨400, 0⟩ ⟨7, 1⟩]

theorem refused_stream_counted :
    ∃ c, run step initial refusedStream = some c ∧ (c.settled.map (·.1.handle)).Nodup ∧
      c.settled.length = 1 ∧ c.Counted ∧ c.refusedMessageIntervalRequests = 1 := by
  obtain ⟨-, hnodup, hcounted⟩ := @command_ack_machine _ refusedStream rfl
  have hstreams : Along step StreamRefusal initial refusedStream := by decide
  exact ⟨_, rfl, hnodup, rfl, hcounted.mp hstreams refusedStream [] _ rfl rfl, rfl⟩

end Commands
end ArduConfigurator.Runtime
