import ArduConfigurator.Lib.LittleEndian
import ArduConfigurator.Lib.Runs
import ArduConfigurator.Transport.Types
import Mathlib.Data.List.Sort

/-! # Replaying a recorded session

`ReplayTransport` of `replay-transport.ts`. A listener runs to its end before the code that called it
goes on, and may call the transport meanwhile: `calls` holds the calls of listeners that have not
returned, the innermost first. `delivered`, `sent` and `refused` only record the frames that the
listeners were given, those of all `send`s and those of the `send`s that rejected. -/
namespace ArduConfigurator.Transport.Replay
set_option autoImplicit false

inductive Direction
  | inbound
  | outbound
  deriving DecidableEq

structure RecordedSessionEvent where
  atMs : ℚ
  direction : Direction
  frame : Bytes

/-- A call of listeners: of the status listeners by `connect`, or of the frame listeners by a timer. -/
inductive Call
  | connecting
  | connected
  | delivering (event : RecordedSessionEvent)

structure Timer where
  event : RecordedSessionEvent
  delayMs : ℚ

structure ReplayTransport where
  id : String
  events : List RecordedSessionEvent
  speedMultiplier : ℚ
  strictOutbound : Bool
  status : TransportStatus
  scheduledTimers : List Timer
  eventIndex : ℕ
  lastProcessedAtMs : ℚ
  connected : Bool
  calls : List Call
  delivered : List Bytes
  sent : List Bytes
  refused : List Bytes

inductive Event
  | connect
  | disconnect
  | send (frame : Bytes)
  | fire (timer : ℕ)
  | callReturns

namespace ReplayTransport

def new (id : String) (events : List RecordedSessionEvent) (speedMultiplier : ℚ)
    (strictOutbound : Bool) : ReplayTransport where
  id := id
  events := events
  speedMultiplier := speedMultiplier
  strictOutbound := strictOutbound
  status := .idle
  scheduledTimers := []
  eventIndex := 0
  lastProcessedAtMs := 0
  connected := false
  calls := []
  delivered := []
  sent := []
  refused := []

def delay (s : ReplayTransport) (ms : ℚ) : ℚ :=
  if s.speedMultiplier ≤ 0 then 0 else max 0 ms / s.speedMultiplier

def advanceStrictReplay (s : ReplayTransport) : ReplayTransport :=
  if s.connected then
    match s.events[s.eventIndex]? with
    | none => s
    | some event =>
      if event.direction = .outbound then s
      else
        { s with
          scheduledTimers :=
            s.scheduledTimers ++ [⟨event, s.delay (event.atMs - s.lastProcessedAtMs)⟩] }
  else s

def isInbound (event : RecordedSessionEvent) : Bool := event.direction = .inbound

def isOutbound (event : RecordedSessionEvent) : Bool := event.direction = .outbound

/-- The timers that `connect` schedules at once when it is not strict. -/
def scheduleInbound (s : ReplayTransport) : ReplayTransport :=
  let inboundEvents := (s.events.filter isInbound).mergeSort fun l r => l.atMs ≤ r.atMs
  let baseAtMs := (inboundEvents.head?.map RecordedSessionEvent.atMs).getD 0
  { s with
    scheduledTimers :=
      s.scheduledTimers ++ inboundEvents.map fun event => ⟨event, s.delay (event.atMs - baseAtMs)⟩ }

def connect (s : ReplayTransport) : ReplayTransport :=
  if s.connected then s
  else
    { s with
      connected := true
      eventIndex := 0
      lastProcessedAtMs := 0
      status := .connecting
      calls := .connecting :: s.calls }

def disconnect (s : ReplayTransport) : ReplayTransport :=
  let remaining :=
    if s.strictOutbound then ((s.events.drop s.eventIndex).filter isOutbound).length else 0
  let noun := if remaining = 1 then "frame was" else "frames were"
  { s with
    connected := false
    scheduledTimers := []
    status :=
      if 0 < remaining then
        .error ("Replay session " ++ s.id ++ " ended before " ++ toString remaining ++
          " required outbound " ++ noun ++ " emitted.")
      else .disconnected (some "Replay session disconnected.") }

def refuse (s : ReplayTransport) (frame : Bytes) (message : String) : ReplayTransport :=
  { s with status := .error message, refused := s.refused ++ [frame] }

/-- `send` of a frame that is recorded as sent. -/
def checkOutbound (s : ReplayTransport) (frame : Bytes) : ReplayTransport :=
  if s.connected then
    if s.strictOutbound then
      match s.events[s.eventIndex]?.filter isOutbound with
      | none =>
        s.refuse frame ("Unexpected outbound frame at replay event " ++
          toString (s.eventIndex + 1) ++ " for session " ++ s.id ++ ".")
      | some expected =>
        if expected.frame = frame then
          advanceStrictReplay
            { s with lastProcessedAtMs := expected.atMs, eventIndex := s.eventIndex + 1 }
        else
          s.refuse frame ("Outbound frame at replay event " ++ toString (s.eventIndex + 1) ++
            " did not match the recorded session.")
    else s
  else { s with refused := s.refused ++ [frame] }

def send (s : ReplayTransport) (frame : Bytes) : ReplayTransport :=
  checkOutbound { s with sent := s.sent ++ [frame] } frame

def fire (s : ReplayTransport) (timer : ℕ) : Option ReplayTransport :=
  s.scheduledTimers[timer]?.map fun t =>
    let s' := { s with scheduledTimers := s.scheduledTimers.eraseIdx timer }
    if s.connected then
      { s' with calls := [.delivering t.event], delivered := s.delivered ++ [t.event.frame] }
    else s'

def resume (s : ReplayTransport) (call : Call) : ReplayTransport :=
  match call with
  | .connecting => { s with status := .connected, calls := .connected :: s.calls }
  | .connected => if s.strictOutbound then s.advanceStrictReplay else s.scheduleInbound
  | .delivering event =>
    if s.strictOutbound then
      advanceStrictReplay
        { s with lastProcessedAtMs := event.atMs, eventIndex := s.eventIndex + 1 }
    else s

def step (s : ReplayTransport) : Event → Option ReplayTransport
  | .connect => some s.connect
  | .disconnect => some s.disconnect
  | .send frame => some (s.send frame)
  | .fire timer => if s.calls = [] then s.fire timer else none
  | .callReturns =>
    match s.calls with
    | [] => none
    | call :: calls => some ({ s with calls := calls }.resume call)

/-! ## Sessions replayed to their client -/

def inboundFrames (events : List RecordedSessionEvent) : List Bytes :=
  (events.filter isInbound).map RecordedSessionEvent.frame

def outboundFrames (events : List RecordedSessionEvent) : List Bytes :=
  (events.filter isOutbound).map RecordedSessionEvent.frame

/-- Nothing was refused or reported as an error, and the inbound frames were delivered in order, each
once, and all of them once all that was recorded has been sent and nothing is under way. -/
structure Faithful (events : List RecordedSessionEvent) (s : ReplayTransport) : Prop where
  accepts : s.refused = []
  noError : ∀ message, s.status ≠ .error message
  order : s.delivered <+: inboundFrames events
  complete : s.connected = true → s.calls = [] → s.scheduledTimers = [] →
    s.sent = outboundFrames events → s.delivered = inboundFrames events

/-- The client sends the recorded outbound frames in order, each after the events before it. -/
def Client (events : List RecordedSessionEvent) (s : ReplayTransport) : Event → Prop
  | .send frame => s.connected = true ∧ ∃ before event after, events = before ++ event :: after ∧
      event.direction = .outbound ∧ event.frame = frame ∧ s.sent = outboundFrames before ∧
      (inboundFrames before).length ≤ s.delivered.length
  | .disconnect => False
  | _ => True

/-- The client sends nothing from a frame listener, and from a status listener during `connect`
nothing that an inbound event follows. -/
def Quiet (events : List RecordedSessionEvent) (s : ReplayTransport) : Event → Prop
  | .send _ => ∀ call ∈ s.calls, (call = .connecting ∨ call = .connected) ∧
      ∀ event ∈ events[s.eventIndex + 1]?, event.direction = .outbound
  | _ => True

theorem length_frames (events : List RecordedSessionEvent) :
    (inboundFrames events).length + (outboundFrames events).length = events.length := by
  induction events with
  | nil => rfl
  | cons event events ih =>
    rw [inboundFrames, List.length_map] at ih ⊢
    rw [outboundFrames, List.length_map] at ih ⊢
    rw [List.filter_cons, List.filter_cons, List.length_cons]
    cases h : event.direction with
    | inbound =>
      rw [if_pos (by simp [isInbound, h]), if_neg (by simp [isOutbound, h]), List.length_cons]
      omega
    | outbound =>
      rw [if_neg (by simp [isInbound, h]), if_pos (by simp [isOutbound, h]), List.length_cons]
      omega

theorem outboundFrames_append (l r : List RecordedSessionEvent) :
    outboundFrames (l ++ r) = outboundFrames l ++ outboundFrames r := by
  rw [outboundFrames, List.filter_append, List.map_append]
  rfl

theorem inboundFrames_append (l r : List RecordedSessionEvent) :
    inboundFrames (l ++ r) = inboundFrames l ++ inboundFrames r := by
  rw [inboundFrames, List.filter_append, List.map_append]
  rfl

/-- The session has come to event `n`. -/
structure Progress (events : List RecordedSessionEvent) (s : ReplayTransport) (n : ℕ) : Prop where
  delivered : s.delivered = inboundFrames (events.take n)
  sent : s.sent = outboundFrames (events.take n)
  le : n ≤ events.length

variable {events : List RecordedSessionEvent} {s : ReplayTransport} {n : ℕ}
    {event : RecordedSessionEvent}

theorem Progress.next (h : Progress events s n) (hn : events[n]? = some event) :
    Progress events
      { s with
        delivered := s.delivered ++ inboundFrames [event]
        sent := s.sent ++ outboundFrames [event] } (n + 1) := by
  obtain ⟨hlt, hget⟩ := List.getElem?_eq_some_iff.mp hn
  have htake : events.take (n + 1) = events.take n ++ [event] := by
    rw [List.take_add_one, hn]
    rfl
  refine ⟨?_, ?_, hlt⟩
  · rw [htake, inboundFrames_append, ← h.delivered]
  · rw [htake, outboundFrames_append, ← h.sent]

theorem Progress.of_client {before after : List RecordedSessionEvent} (h : Progress events s n)
    (hevents : events = before ++ event :: after) (hout : event.direction = .outbound)
    (hsent : s.sent = outboundFrames before)
    (hdelivered : (inboundFrames before).length ≤ s.delivered.length) :
    events[n]? = some event := by
  have hn := length_frames (events.take n)
  rw [← h.delivered, ← h.sent, hsent, List.length_take_of_le h.le] at hn
  have hbefore := length_frames before
  have heq : before.length = n := by
    rcases Nat.lt_or_ge before.length n with hlt | hge
    · have hsplit : events.take n = before ++ event :: after.take (n - before.length - 1) := by
        rw [hevents, List.take_append, List.take_of_length_le hlt.le]
        obtain ⟨k, hk⟩ := Nat.exists_eq_add_of_lt hlt
        rw [show n - before.length = k + 1 by omega]
        rfl
      have hlen := congrArg List.length (h.sent.symm.trans hsent)
      rw [hsplit, outboundFrames_append, List.length_append] at hlen
      rw [outboundFrames, outboundFrames, List.filter_cons, if_pos (by simp [isOutbound, hout]),
        List.map_cons, List.length_cons] at hlen
      omega
    · omega
  rw [hevents, ← heq, List.getElem?_append_right (Nat.le_refl _), Nat.sub_self]
  rfl

/-! ## Stages of a strict replay -/

theorem advanceStrictReplay_eq (hconnected : s.connected = true)
    (htimers : s.scheduledTimers = []) : ∃ timers,
      s.advanceStrictReplay = { s with scheduledTimers := timers } ∧
      timers.map Timer.event = (s.events[s.eventIndex]?.filter isInbound).toList := by
  rw [advanceStrictReplay, if_pos hconnected]
  cases hevent : s.events[s.eventIndex]? with
  | none => exact ⟨[], by rw [← htimers], rfl⟩
  | some event =>
    cases hdirection : event.direction with
    | inbound =>
      refine ⟨[⟨event, s.delay (event.atMs - s.lastProcessedAtMs)⟩], ?_, ?_⟩
      · rw [htimers]
        exact if_neg (by rw [hdirection]; exact Direction.noConfusion)
      · rw [Option.filter_some, if_pos (by simp [isInbound, hdirection])]
        rfl
    | outbound =>
      refine ⟨[], ?_, ?_⟩
      · rw [← htimers]
        exact if_pos hdirection
      · rw [Option.filter_some, if_neg (by simp [isInbound, hdirection])]
        rfl

inductive Stage (s : ReplayTransport) : Prop
  | unopened (hconnected : s.connected = false) (hcalls : s.calls = [])
    (htimers : s.scheduledTimers = []) (hdelivered : s.delivered = []) (hsent : s.sent = [])
  | opening (hconnected : s.connected = true) (call : Call) (hcalls : s.calls = [call])
    (hcall : call = .connecting ∨ call = .connected) (htimers : s.scheduledTimers = [])
    (hprogress : Progress s.events s s.eventIndex)
  | waiting (hconnected : s.connected = true) (hcalls : s.calls = [])
    (htimers : s.scheduledTimers.map Timer.event =
      (s.events[s.eventIndex]?.filter isInbound).toList)
    (hprogress : Progress s.events s s.eventIndex)
  | delivering (hconnected : s.connected = true) (event : RecordedSessionEvent)
    (hcalls : s.calls = [.delivering event]) (hevent : s.events[s.eventIndex]? = some event)
    (htimers : s.scheduledTimers = []) (hprogress : Progress s.events s (s.eventIndex + 1))

structure Replaying (events : List RecordedSessionEvent) (s : ReplayTransport) : Prop where
  session : s.events = events
  strict : s.strictOutbound = true
  accepts : s.refused = []
  noError : ∀ message, s.status ≠ .error message
  stage : Stage s

theorem replaying_new (id : String) (events : List RecordedSessionEvent) (speedMultiplier : ℚ) :
    Replaying events (new id events speedMultiplier true) :=
  ⟨rfl, rfl, rfl, fun _ => TransportStatus.noConfusion, .unopened rfl rfl rfl rfl rfl⟩

theorem Progress.order (h : Progress events s n) : s.delivered <+: inboundFrames events := by
  refine ⟨inboundFrames (events.drop n), ?_⟩
  rw [h.delivered, ← inboundFrames_append, List.take_append_drop]

theorem Progress.all_sent (h : Progress events s n) (hsent : s.sent = outboundFrames events) :
    outboundFrames (events.drop n) = [] := by
  have hsplit := outboundFrames_append (events.take n) (events.drop n)
  rw [List.take_append_drop, ← hsent, ← h.sent] at hsplit
  exact List.self_eq_append_right.mp hsplit

theorem Replaying.faithful (h : Replaying events s) : Faithful events s := by
  obtain ⟨rfl, hstrict, haccepts, hnoError, hstage⟩ := h
  refine ⟨haccepts, hnoError, ?_, ?_⟩
  · cases hstage with
    | unopened hconnected hcalls htimers hdelivered hsent =>
      rw [hdelivered]
      exact List.nil_prefix
    | opening hconnected call hcalls hcall htimers hprogress => exact hprogress.order
    | waiting hconnected hcalls htimers hprogress => exact hprogress.order
    | delivering hconnected event hcalls hevent htimers hprogress => exact hprogress.order
  · intro hconnected hcalls hnone hsent
    cases hstage with
    | unopened hclosed => rw [hclosed] at hconnected; cases hconnected
    | opening _ call hopen => rw [hopen] at hcalls; cases hcalls
    | delivering _ event hopen => rw [hopen] at hcalls; cases hcalls
    | waiting _ _ htimers hprogress =>
      rw [hnone, List.map_nil] at htimers
      have hleft := hprogress.all_sent hsent
      cases hevent : s.events[s.eventIndex]? with
      | none =>
        rw [hprogress.delivered, List.take_of_length_le (List.getElem?_eq_none_iff.mp hevent)]
      | some event =>
        obtain ⟨hlt, hget⟩ := List.getElem?_eq_some_iff.mp hevent
        rw [List.drop_eq_getElem_cons hlt, hget, outboundFrames, List.filter_cons] at hleft
        rw [hevent, Option.filter_some] at htimers
        cases hdirection : event.direction with
        | inbound => simp [isInbound, hdirection] at htimers
        | outbound => simp [isOutbound, hdirection] at hleft

/-! ## Steps -/

theorem outboundFrames_singleton (h : event.direction = .outbound) :
    outboundFrames [event] = [event.frame] ∧ inboundFrames [event] = [] := by
  simp [outboundFrames, inboundFrames, isOutbound, isInbound, h]

theorem inboundFrames_singleton (h : event.direction = .inbound) :
    outboundFrames [event] = [] ∧ inboundFrames [event] = [event.frame] := by
  simp [outboundFrames, inboundFrames, isOutbound, isInbound, h]

variable {t : ReplayTransport}

theorem Progress.mono (h : Progress events s n) (hdelivered : t.delivered = s.delivered)
    (hsent : t.sent = s.sent) :
    Progress events t n :=
  ⟨hdelivered.trans h.delivered, hsent.trans h.sent, h.le⟩

theorem waiting_advance (hconnected : s.connected = true) (hcalls : s.calls = [])
    (htimers : s.scheduledTimers = []) (hprogress : Progress s.events s s.eventIndex) :
    Stage s.advanceStrictReplay := by
  obtain ⟨timers, heq, hmap⟩ := advanceStrictReplay_eq hconnected htimers
  rw [heq]
  exact .waiting hconnected hcalls hmap (hprogress.mono rfl rfl)

theorem Replaying.connect (h : Replaying events s) : Replaying events s.connect := by
  rw [ReplayTransport.connect]
  split_ifs with hconnected
  · exact h
  · cases h.stage with
    | unopened hclosed hcalls htimers hdelivered hsent =>
      refine ⟨h.session, h.strict, h.accepts, fun _ => TransportStatus.noConfusion, ?_⟩
      exact .opening rfl .connecting (by rw [hcalls]) (.inl rfl) htimers
        ⟨hdelivered, hsent, Nat.zero_le _⟩
    | opening hopen => exact absurd hopen hconnected
    | waiting hopen => exact absurd hopen hconnected
    | delivering hopen => exact absurd hopen hconnected

theorem Replaying.advance (hsession : s.events = events) (hstrict : s.strictOutbound = true)
    (haccepts : s.refused = []) (hnoError : ∀ message, s.status ≠ .error message)
    (hconnected : s.connected = true) (htimers : s.scheduledTimers = [])
    (hstage : Stage s.advanceStrictReplay) :
    Replaying events s.advanceStrictReplay := by
  obtain ⟨timers, heq, -⟩ := advanceStrictReplay_eq hconnected htimers
  rw [heq] at hstage ⊢
  exact ⟨hsession, hstrict, haccepts, hnoError, hstage⟩

/-- The state in which `send` of the recorded frame calls `advanceStrictReplay`. -/
def sentState (s : ReplayTransport) (event : RecordedSessionEvent) : ReplayTransport :=
  { s with
    sent := s.sent ++ [event.frame]
    lastProcessedAtMs := event.atMs
    eventIndex := s.eventIndex + 1 }

theorem send_recorded (hconnected : s.connected = true) (hstrict : s.strictOutbound = true)
    (hevent : s.events[s.eventIndex]? = some event) (hout : event.direction = .outbound) :
    s.send event.frame = (s.sentState event).advanceStrictReplay := by
  have hisOut : isOutbound event = true := by simp [isOutbound, hout]
  rw [send, checkOutbound, if_pos hconnected, if_pos hstrict]
  simp only [hevent, Option.filter_some, hisOut, if_true]
  rfl

theorem Replaying.send {frame : Bytes} (h : Replaying events s)
    (hclient : Client events s (.send frame)) (hquiet : Quiet events s (.send frame)) :
    Replaying events (s.send frame) := by
  obtain ⟨rfl, hstrict, haccepts, hnoError, hstage⟩ := h
  obtain ⟨hconnected, before, event, after, hevents, hout, rfl, hsent, hdelivered⟩ := hclient
  have hframes := outboundFrames_singleton hout
  cases hstage with
  | unopened hclosed => rw [hclosed] at hconnected; cases hconnected
  | opening _ call hcalls hcall htimers hprogress =>
    have hevent := hprogress.of_client hevents hout hsent hdelivered
    have hnext := (hquiet call (by rw [hcalls]; exact List.mem_singleton_self call)).2
    rw [send_recorded hconnected hstrict hevent hout]
    refine Replaying.advance rfl hstrict haccepts hnoError hconnected htimers ?_
    obtain ⟨timers, heq, hmap⟩ := advanceStrictReplay_eq (s := s.sentState event) hconnected htimers
    have hnone : timers = [] := by
      rw [← List.map_eq_nil_iff (f := Timer.event), hmap]
      cases hafter : s.events[s.eventIndex + 1]? with
      | none => simp [sentState, hafter]
      | some next => simp [sentState, hafter, isInbound, hnext next hafter]
    rw [heq]
    refine .opening hconnected call hcalls hcall hnone ((hprogress.next hevent).mono ?_ ?_)
    · rw [hframes.2, List.append_nil]
      rfl
    · rw [hframes.1]
      rfl
  | waiting _ hcalls htimers hprogress =>
    have hevent := hprogress.of_client hevents hout hsent hdelivered
    have hnone : s.scheduledTimers = [] := by
      rw [← List.map_eq_nil_iff (f := Timer.event), htimers, hevent]
      simp [isInbound, hout]
    rw [send_recorded hconnected hstrict hevent hout]
    refine Replaying.advance rfl hstrict haccepts hnoError hconnected hnone ?_
    refine waiting_advance hconnected hcalls hnone ((hprogress.next hevent).mono ?_ ?_)
    · rw [hframes.2, List.append_nil]
      rfl
    · rw [hframes.1]
      rfl
  | delivering _ current hcalls =>
    obtain ⟨hcall | hcall, -⟩ :=
      hquiet (.delivering current) (by rw [hcalls]; exact List.mem_singleton_self _)
    · cases hcall
    · cases hcall

theorem Replaying.fire {timer : ℕ} (h : Replaying events s) (hcalls : s.calls = [])
    (hfire : s.fire timer = some t) :
    Replaying events t := by
  obtain ⟨rfl, hstrict, haccepts, hnoError, hstage⟩ := h
  rw [ReplayTransport.fire, Option.map_eq_some_iff] at hfire
  obtain ⟨fired, hfired, rfl⟩ := hfire
  cases hstage with
  | unopened _ _ htimers => rw [htimers] at hfired; cases hfired
  | opening _ call hopen => rw [hopen] at hcalls; cases hcalls
  | delivering _ event hopen => rw [hopen] at hcalls; cases hcalls
  | waiting hconnected _ htimers hprogress =>
    have hmem := List.mem_map_of_mem (f := Timer.event) (List.mem_of_getElem? hfired)
    rw [htimers, Option.mem_toList, Option.filter_eq_some_iff] at hmem
    obtain ⟨hevent, hin⟩ := hmem
    have hlength := congrArg List.length htimers
    rw [List.length_map, hevent, Option.filter_some, if_pos hin] at hlength
    have hnone : s.scheduledTimers.eraseIdx timer = [] := by
      have hlt := (List.getElem?_eq_some_iff.mp hfired).1
      rw [← List.length_eq_zero_iff, List.length_eraseIdx_of_lt hlt, hlength]
      rfl
    have hdirection : fired.event.direction = .inbound := by simpa [isInbound] using hin
    have hframes := inboundFrames_singleton hdirection
    simp only [if_pos hconnected]
    refine ⟨rfl, hstrict, haccepts, hnoError, ?_⟩
    refine .delivering hconnected fired.event rfl hevent hnone ((hprogress.next hevent).mono ?_ ?_)
    · rw [hframes.2]
    · rw [hframes.1, List.append_nil]

theorem Replaying.callReturns {call : Call} {calls : List Call} (h : Replaying events s)
    (hcalls : s.calls = call :: calls) :
    Replaying events ({ s with calls := calls }.resume call) := by
  obtain ⟨rfl, hstrict, haccepts, hnoError, hstage⟩ := h
  cases hstage with
  | unopened _ hnone => rw [hnone] at hcalls; cases hcalls
  | waiting _ hnone => rw [hnone] at hcalls; cases hcalls
  | opening hconnected current hopen hcall htimers hprogress =>
    obtain ⟨rfl, rfl⟩ := List.cons.inj (hopen.symm.trans hcalls)
    obtain rfl | rfl := hcall
    · exact ⟨rfl, hstrict, haccepts, fun _ => TransportStatus.noConfusion,
        .opening hconnected .connected rfl (.inr rfl) htimers (hprogress.mono rfl rfl)⟩
    · rw [resume, if_pos hstrict]
      exact Replaying.advance rfl hstrict haccepts hnoError hconnected htimers
        (waiting_advance hconnected rfl htimers (hprogress.mono rfl rfl))
  | delivering hconnected event hopen hevent htimers hprogress =>
    obtain ⟨rfl, rfl⟩ := List.cons.inj (hopen.symm.trans hcalls)
    rw [resume, if_pos hstrict]
    exact Replaying.advance rfl hstrict haccepts hnoError hconnected htimers
      (waiting_advance hconnected rfl htimers (hprogress.mono rfl rfl))

theorem Replaying.step {e : Event} (h : Replaying events s) (hclient : Client events s e)
    (hquiet : Quiet events s e) (hstep : s.step e = some t) : Replaying events t := by
  cases e with
  | connect =>
    cases hstep
    exact h.connect
  | disconnect => exact hclient.elim
  | send frame =>
    cases hstep
    exact h.send hclient hquiet
  | fire timer =>
    rw [ReplayTransport.step] at hstep
    split_ifs at hstep with hcalls
    exact h.fire hcalls hstep
  | callReturns =>
    rw [ReplayTransport.step] at hstep
    cases hcalls : s.calls with
    | nil => rw [hcalls] at hstep; cases hstep
    | cons call calls =>
      rw [hcalls] at hstep
      cases hstep
      exact h.callReturns hcalls

/-- A session replays faithfully if it does so in every run of its client. -/
def ReplaysFaithfully (events : List RecordedSessionEvent) : Prop :=
  ∀ (id : String) (speedMultiplier : ℚ) (es : List Event) (s : ReplayTransport),
    Runs.run step (new id events speedMultiplier true) es = some s →
    Runs.Along step (Client events) (new id events speedMultiplier true) es → Faithful events s

/-- A session replays faithfully to a client that is quiet while it is called. -/
theorem quiet_client_faithful {events : List RecordedSessionEvent} {id : String}
    {speedMultiplier : ℚ} {es : List Event} {s : ReplayTransport}
    (hrun : Runs.run step (new id events speedMultiplier true) es = some s)
    (hclient : Runs.Along step (Client events) (new id events speedMultiplier true) es)
    (hquiet : Runs.Along step (Quiet events) (new id events speedMultiplier true) es) :
    Faithful events s :=
  (Runs.run_invariant_along (I := Replaying events)
    (fun _ _ _ h hC hstep => h.step hC.1 hC.2 hstep) (replaying_new id events speedMultiplier)
    (hclient.and hquiet) hrun).faithful

def answeredFrame : List RecordedSessionEvent :=
  [⟨0, .inbound, [1]⟩, ⟨5, .outbound, [2]⟩]

def lateAnswer : List Event :=
  [.connect, .callReturns, .callReturns, .fire 0, .callReturns, .send [2]]

theorem late_answer_faithful :
    ∃ s, Runs.run step (new "r" answeredFrame 1 true) lateAnswer = some s ∧
      Faithful answeredFrame s := by
  refine ⟨_, rfl, @quiet_client_faithful answeredFrame "r" 1 lateAnswer _ rfl ?_ ?_⟩
  · refine (Runs.along_cons _ rfl).mpr ⟨trivial, (Runs.along_cons _ rfl).mpr ⟨trivial, ?_⟩⟩
    refine (Runs.along_cons _ rfl).mpr ⟨trivial, (Runs.along_cons _ rfl).mpr ⟨trivial, ?_⟩⟩
    refine (Runs.along_cons _ rfl).mpr ⟨trivial, (Runs.along_cons _ rfl).mpr ⟨?_, trivial⟩⟩
    exact ⟨rfl, [⟨0, .inbound, [1]⟩], ⟨5, .outbound, [2]⟩, [], rfl, rfl, rfl, rfl, Nat.le_refl 1⟩
  · refine (Runs.along_cons _ rfl).mpr ⟨trivial, (Runs.along_cons _ rfl).mpr ⟨trivial, ?_⟩⟩
    refine (Runs.along_cons _ rfl).mpr ⟨trivial, (Runs.along_cons _ rfl).mpr ⟨trivial, ?_⟩⟩
    refine (Runs.along_cons _ rfl).mpr ⟨trivial, (Runs.along_cons _ rfl).mpr ⟨?_, trivial⟩⟩
    intro call hcall
    exact absurd hcall (List.not_mem_nil (a := call))

/-- The answer that the frame listener sends at once is refused. -/
theorem answer_in_listener_refused : ¬ReplaysFaithfully answeredFrame := by
  intro h
  have hfaithful := h "r" 1 [.connect, .callReturns, .callReturns, .fire 0, .send [2]] _ rfl (by
    refine (Runs.along_cons _ rfl).mpr ⟨trivial, (Runs.along_cons _ rfl).mpr ⟨trivial, ?_⟩⟩
    refine (Runs.along_cons _ rfl).mpr ⟨trivial, (Runs.along_cons _ rfl).mpr ⟨trivial, ?_⟩⟩
    refine (Runs.along_cons _ rfl).mpr ⟨?_, trivial⟩
    exact ⟨rfl, [⟨0, .inbound, [1]⟩], ⟨5, .outbound, [2]⟩, [], rfl, rfl, rfl, rfl, Nat.le_refl 1⟩)
  cases hfaithful.accepts

end ReplayTransport

end ArduConfigurator.Transport.Replay
