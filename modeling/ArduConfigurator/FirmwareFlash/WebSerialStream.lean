import ArduConfigurator.Lib.Runs
import Mathlib.Data.List.Infix
import Mathlib.Tactic.NormNum

/-! # The bootloader's byte stream over Web Serial

A pump moves the chunks of the port into one buffer, and a single caller reads, flushes and
closes. A read that has too few bytes waits for the pump to wake it or for its timer. The order
in which the pump, the timers and the caller's own continuations run is left open, and so is the
clock.
-/

namespace ArduConfigurator.FirmwareFlash.WebSerial
set_option autoImplicit false
open Runs

/-! ## The stream -/

inductive Failure
  | pump (message : String)
  | closed
  | timedOut (n : ℕ)
  deriving DecidableEq

def Failure.message : Failure → String
  | pump message => message
  | closed => "serial port closed mid-read"
  | timedOut n => "serial read timed out waiting for " ++ toString n ++ " bytes"

inductive Outcome
  | returned (bytes : List UInt8)
  | failed (failure : Failure)
  | flushed (bytes : List UInt8)
  deriving DecidableEq

inductive Caller
  | idle
  | waiting (n : ℕ) (deadline : ℚ) (wakeup : ℕ) (resolved : Bool)
  | flushing
  | closing
  deriving DecidableEq

/-- The serial, with the promises of its waits numbered and the outcomes logged. -/
structure WebSerialBootloaderSerial where
  buffer : List UInt8
  closed : Bool
  pumpError : Option String
  wakeups : List ℕ
  pumping : Bool
  waits : ℕ
  caller : Caller
  log : List Outcome
  deriving DecidableEq

inductive Event
  | chunk (value : List UInt8)
  | streamEnds (error : Option String)
  | read (n : ℕ) (timeoutMs : ℚ) (now : ℚ)
  | timer
  | resume (now : ℚ)
  | flushInput
  | flushTurn
  | close
  | readerCancelled

namespace WebSerialBootloaderSerial

/-- `open`, on a port that is readable or not. -/
def opened (readable : Bool) : WebSerialBootloaderSerial where
  buffer := []
  closed := !readable
  pumpError := if readable then none else some "serial port not readable"
  wakeups := []
  pumping := readable
  waits := 0
  caller := .idle
  log := []

/-- `wake` resolves the promises that are waiting; resolving one again changes nothing. -/
def wake (s : WebSerialBootloaderSerial) : WebSerialBootloaderSerial :=
  { s with
    wakeups := []
    caller := match s.caller with
      | .waiting n deadline wakeup resolved =>
        .waiting n deadline wakeup (resolved || decide (wakeup ∈ s.wakeups))
      | caller => caller }

def fail (s : WebSerialBootloaderSerial) (failure : Failure) : WebSerialBootloaderSerial :=
  { s with caller := .idle, log := s.log ++ [.failed failure] }

/-- One turn of `read`, from the test of its loop to the next wait or to its end. -/
def check (s : WebSerialBootloaderSerial) (n : ℕ) (deadline now : ℚ) :
    WebSerialBootloaderSerial :=
  if s.buffer.length < n then
    match s.pumpError with
    | some message => s.fail (.pump message)
    | none =>
      if s.closed then s.fail .closed
      else if deadline - now ≤ 0 then s.fail (.timedOut n)
      else
        { s with
          wakeups := s.wakeups ++ [s.waits]
          waits := s.waits + 1
          caller := .waiting n deadline s.waits false }
  else
    { s with
      buffer := s.buffer.drop n
      caller := .idle
      log := s.log ++ [.returned (s.buffer.take n)] }

def step (s : WebSerialBootloaderSerial) : Event → Option WebSerialBootloaderSerial
  | .chunk value =>
    if s.pumping then
      if value = [] then some s else some (wake { s with buffer := s.buffer ++ value })
    else none
  | .streamEnds error =>
    if s.pumping then
      some (wake { s with pumping := false, pumpError := error <|> s.pumpError, closed := true })
    else none
  | .read n timeoutMs now =>
    match s.caller with
    | .idle => some (s.check n (now + timeoutMs) now)
    | _ => none
  | .timer =>
    match s.caller with
    | .waiting n deadline wakeup _ => some { s with caller := .waiting n deadline wakeup true }
    | _ => none
  | .resume now =>
    match s.caller with
    | .waiting n deadline _ true => some (s.check n deadline now)
    | _ => none
  | .flushInput =>
    match s.caller with
    | .idle => some { s with caller := .flushing }
    | _ => none
  | .flushTurn =>
    match s.caller with
    | .flushing =>
      some { s with buffer := [], caller := .idle, log := s.log ++ [.flushed s.buffer] }
    | _ => none
  | .close =>
    match s.caller with
    | .idle => some { s with closed := true, caller := .closing }
    | _ => none
  | .readerCancelled =>
    match s.caller with
    | .closing => some (wake { s with caller := .idle })
    | _ => none

end WebSerialBootloaderSerial

/-! ## Bytes that have come and gone -/

def Outcome.bytes : Outcome → List UInt8
  | returned bytes => bytes
  | failed _ => []
  | flushed bytes => bytes

def taken (log : List Outcome) : List UInt8 := log.flatMap Outcome.bytes

def Event.bytes : Event → List UInt8
  | chunk value => value
  | _ => []

def incoming (es : List Event) : List UInt8 := es.flatMap Event.bytes


namespace WebSerialBootloaderSerial

/-! ## What the operations keep -/

theorem taken_append (log : List Outcome) (outcome : Outcome) :
    taken (log ++ [outcome]) = taken log ++ outcome.bytes := by
  simp [taken]

@[simp] theorem wake_buffer (s : WebSerialBootloaderSerial) : s.wake.buffer = s.buffer := rfl

@[simp] theorem wake_log (s : WebSerialBootloaderSerial) : s.wake.log = s.log := rfl

def held (s : WebSerialBootloaderSerial) : List UInt8 := taken s.log ++ s.buffer

theorem held_fail (s : WebSerialBootloaderSerial) (failure : Failure) :
    (s.fail failure).held = s.held := by
  simp [held, fail, taken_append, Outcome.bytes]

theorem held_check (s : WebSerialBootloaderSerial) (n : ℕ) (deadline now : ℚ) :
    (s.check n deadline now).held = s.held := by
  unfold check
  split_ifs with hshort hclosed htime
  · cases s.pumpError with
    | some message => exact held_fail s _
    | none => exact held_fail s _
  · cases s.pumpError with
    | some message => exact held_fail s _
    | none => exact held_fail s _
  · cases s.pumpError with
    | some message => exact held_fail s _
    | none => rfl
  · simp [held, taken_append, Outcome.bytes, List.append_assoc]

variable {s : WebSerialBootloaderSerial}

theorem check_of_enough {n : ℕ} (h : n ≤ s.buffer.length) (deadline now : ℚ) :
    s.check n deadline now =
      { s with
        buffer := s.buffer.drop n
        caller := .idle
        log := s.log ++ [.returned (s.buffer.take n)] } :=
  if_neg (not_lt.mpr h)

variable {t : WebSerialBootloaderSerial} {e : Event}

theorem held_step (h : s.step e = some t) :
    t.held = s.held ++ e.bytes := by
  cases e with
  | chunk value =>
    simp only [step] at h
    split_ifs at h with hpump hempty
    · cases h
      simp [Event.bytes, hempty]
    · cases h
      simp [held, Event.bytes, List.append_assoc]
  | streamEnds error =>
    simp only [step] at h
    split_ifs at h
    cases h
    simp [held, Event.bytes]
  | read n timeoutMs now =>
    simp only [step] at h
    split at h
    · cases h
      rw [held_check]
      exact (List.append_nil _).symm
    · cases h
  | timer =>
    simp only [step] at h
    split at h
    · cases h
      simp [held, Event.bytes]
    · cases h
  | resume now =>
    simp only [step] at h
    split at h
    · cases h
      rw [held_check]
      exact (List.append_nil _).symm
    · cases h
  | flushInput =>
    simp only [step] at h
    split at h
    · cases h
      simp [held, Event.bytes]
    · cases h
  | flushTurn =>
    simp only [step] at h
    split at h
    · cases h
      simp [held, taken_append, Outcome.bytes, Event.bytes]
    · cases h
  | close =>
    simp only [step] at h
    split at h
    · cases h
      simp [held, Event.bytes]
    · cases h
  | readerCancelled =>
    simp only [step] at h
    split at h
    · cases h
      simp [held, Event.bytes]
    · cases h

variable {es : List Event}

theorem held_run (h : run step s es = some t) : t.held = s.held ++ incoming es := by
  induction es generalizing s with
  | nil =>
    cases h
    simp [incoming]
  | cons e es ih =>
    obtain ⟨u, hu, h⟩ := run_cons_eq_some.mp h
    rw [ih h, held_step hu, List.append_assoc]
    simp [incoming]

/-! ## Wake-ups -/

/-- A read that nobody has woken is on the list of wake-ups, and nothing has come for it. -/
def Listening (s : WebSerialBootloaderSerial) : Prop :=
  ∀ n deadline wakeup, s.caller = .waiting n deadline wakeup false →
    wakeup ∈ s.wakeups ∧ s.buffer.length < n ∧ s.closed = false

theorem listening_wake (s : WebSerialBootloaderSerial)
    (h : ∀ n deadline wakeup, s.caller = .waiting n deadline wakeup false →
      wakeup ∈ s.wakeups) : s.wake.Listening := by
  intro n deadline wakeup hcaller
  simp only [wake] at hcaller
  split at hcaller
  · rename_i resolved hwaiting
    obtain ⟨rfl, rfl, rfl, hresolved⟩ := Caller.waiting.inj hcaller
    rw [Bool.or_eq_false_iff, decide_eq_false_iff_not] at hresolved
    rw [hresolved.1] at hwaiting
    exact absurd (h _ _ _ hwaiting) hresolved.2
  · rename_i hnot
    exact absurd hcaller (hnot _ _ _ _)

theorem listening_of_caller (h : ∀ n deadline wakeup, s.caller ≠ .waiting n deadline wakeup false) :
    s.Listening :=
  fun n deadline wakeup hcaller => absurd hcaller (h n deadline wakeup)

theorem listening_check (s : WebSerialBootloaderSerial) (n : ℕ) (deadline now : ℚ) :
    (s.check n deadline now).Listening := by
  unfold check
  split_ifs with hshort hclosed htime
  · cases s.pumpError <;> exact listening_of_caller (by simp [fail])
  · cases s.pumpError <;> exact listening_of_caller (by simp [fail])
  · cases s.pumpError with
    | some message => exact listening_of_caller (by simp [fail])
    | none =>
      intro n' deadline' wakeup hcaller
      obtain ⟨rfl, -, rfl, -⟩ := Caller.waiting.inj hcaller
      exact ⟨List.mem_append_right _ List.mem_cons_self, hshort, by simpa using hclosed⟩
  · exact listening_of_caller (by simp)

theorem listening_step (hs : s.Listening) (h : s.step e = some t) : t.Listening := by
  cases e with
  | chunk value =>
    simp only [step] at h
    split_ifs at h
    · cases h
      exact hs
    · cases h
      exact listening_wake _ fun n deadline wakeup hcaller => (hs n deadline wakeup hcaller).1
  | streamEnds error =>
    simp only [step] at h
    split_ifs at h
    cases h
    exact listening_wake _ fun n deadline wakeup hcaller => (hs n deadline wakeup hcaller).1
  | read n timeoutMs now =>
    simp only [step] at h
    split at h
    · cases h
      exact listening_check s _ _ _
    · cases h
  | resume now =>
    simp only [step] at h
    split at h
    · cases h
      exact listening_check s _ _ _
    · cases h
  | timer | flushInput | flushTurn | close =>
    simp only [step] at h
    split at h
    · cases h
      exact listening_of_caller (by simp)
    · cases h
  | readerCancelled =>
    simp only [step] at h
    split at h
    · cases h
      exact listening_wake _ (by simp)
    · cases h

/-! ## The caller's view of the stream -/

theorem held_opened (readable : Bool) : (opened readable).held = [] := rfl

variable {readable : Bool}

theorem held_reached (h : run step (opened readable) es = some t) :
    taken t.log ++ t.buffer = incoming es := by
  have hheld := held_run h
  rw [held_opened, List.nil_append] at hheld
  exact hheld

theorem take_buffer (h : run step (opened readable) es = some t) (n : ℕ) :
    t.buffer.take n = ((incoming es).drop (taken t.log).length).take n := by
  rw [← held_reached h, List.drop_left]

end WebSerialBootloaderSerial

open WebSerialBootloaderSerial

/-- In every run: what the reads have returned and the flushes dropped is, in order, the start of
the stream; a read that throws leaves every byte in place; a read that finds its bytes returns the
next ones of the stream, at once or when it resumes; and where they have arrived it is woken. -/
theorem stream_read_in_order (readable : Bool) (es : List Event) (t : WebSerialBootloaderSerial)
    (h : run step (opened readable) es = some t) :
    taken t.log <+: incoming es ∧
      (∀ fs u failure, run step t fs = some u → u.log = t.log ++ [.failed failure] →
        u.buffer = t.buffer ++ incoming fs) ∧
      (∀ n now timeoutMs, t.caller = .idle → n ≤ t.buffer.length →
        ∃ u, t.step (.read n timeoutMs now) = some u ∧
          u.log = t.log ++
            [.returned (((incoming es).drop (taken t.log).length).take n)]) ∧
      (∀ n now deadline wakeup, t.caller = .waiting n deadline wakeup true →
        n ≤ t.buffer.length →
          ∃ u, t.step (.resume now) = some u ∧
            u.log = t.log ++
              [.returned (((incoming es).drop (taken t.log).length).take n)]) ∧
      (∀ n deadline wakeup resolved, t.caller = .waiting n deadline wakeup resolved →
        n ≤ t.buffer.length → resolved = true) := by
  refine ⟨⟨t.buffer, held_reached h⟩, ?_, ?_, ?_, ?_⟩
  · intro fs u failure hrun hlog
    have hheld := held_run hrun
    simp only [held, hlog, taken_append, Outcome.bytes, List.append_nil] at hheld
    rw [List.append_assoc] at hheld
    exact List.append_cancel_left hheld
  · intro n now timeoutMs hidle henough
    refine ⟨_, by rw [step, hidle], ?_⟩
    rw [check_of_enough henough, ← take_buffer h]
  · intro n now deadline wakeup hwaiting henough
    refine ⟨_, by rw [step, hwaiting], ?_⟩
    rw [check_of_enough henough, ← take_buffer h]
  · intro n deadline wakeup resolved hwaiting henough
    have hlistening : t.Listening :=
      run_invariant (fun s e u hs hu => listening_step hs hu)
        (listening_of_caller (by simp [opened])) h
    cases resolved with
    | true => rfl
    | false => exact absurd henough (not_le.mpr (hlistening n deadline wakeup hwaiting).2.1)


def waitingRead : WebSerialBootloaderSerial where
  buffer := [7, 8, 9]
  closed := false
  pumpError := none
  wakeups := []
  pumping := true
  waits := 1
  caller := .waiting 2 100 0 true
  log := []

theorem stream_read_after_waiting :
    ∃ u, waitingRead.step (.resume 5) = some u ∧ u.log = [.returned [7, 8]] := by
  have hrun : run step (opened true) [.chunk [7], .read 2 100 0, .chunk [8, 9]] =
      some waitingRead := by decide +kernel
  obtain ⟨u, hstep, hlog⟩ := (stream_read_in_order true _ _ hrun).2.2.2.1 2 5 100 0 rfl
    (by decide)
  exact ⟨u, hstep, hlog⟩

end ArduConfigurator.FirmwareFlash.WebSerial
