import ArduConfigurator.Lib.Entries
import ArduConfigurator.Lib.Runs
import ArduConfigurator.Msp.Codec

/-! # Requests and replies over a transport

`connect`, `disconnect` and `request` of `msp-session.ts`. A request is known by its place in
`requests`, which records what became of the promises of its reply and of its `send`, and whether its
timer is armed; a waiter is known by the request that it belongs to. -/
namespace ArduConfigurator.Msp
set_option autoImplicit false

inductive Reply
  | pending
  | resolved (frame : MspFrame)
  | timedOut
  | inFlight

inductive Sending
  | pending
  | sent
  | failed
  deriving DecidableEq

structure Request where
  command : ℕ
  reply : Reply
  sending : Sending
  armed : Bool

/-- The promise of `request` waits for the `send` and then for the reply. -/
def Request.Settled (r : Request) : Prop :=
  r.sending = .failed ∨ r.sending = .sent ∧ r.reply ≠ .pending

structure MspSession where
  decoder : MspV1Decoder
  waiters : JsMap ℕ ℕ
  listeners : ℕ
  subscribed : Bool
  requests : List Request

/-- `origin` says which request a frame that a chunk completes is the board's answer to. -/
inductive Event
  | connect
  | disconnect
  | request (command : ℕ) (payload : Bytes)
  | sendSettled (id : ℕ) (ok : Bool)
  | timer (id : ℕ)
  | chunk (bytes : Bytes) (origin : ℕ → Option ℕ)

namespace MspSession

def new : MspSession where
  decoder := MspV1Decoder.new
  waiters := JsMap.empty
  listeners := 0
  subscribed := false
  requests := []

def connect (s : MspSession) : MspSession :=
  { s with listeners := s.listeners + 1, subscribed := true }

def disconnect (s : MspSession) : MspSession :=
  { s with
    listeners := if s.subscribed then s.listeners - 1 else s.listeners
    subscribed := false
    waiters := JsMap.empty
    decoder := s.decoder.reset }

def request (s : MspSession) (command : ℕ) (payload : Bytes) : MspSession :=
  if s.waiters.has command then
    { s with requests := s.requests ++ [⟨command, .inFlight, .sent, false⟩] }
  else
    let sending := if (encodeMspV1Request command payload).isSome then .pending else .failed
    { s with
      requests := s.requests ++ [⟨command, .pending, sending, true⟩]
      waiters := s.waiters.set command s.requests.length }

/-- The reply's promise settles: the timer is gone, and the waiter under the command with it. -/
def settle (s : MspSession) (id command : ℕ) (reply : Reply) : MspSession :=
  { s with
    requests := s.requests.modify id fun r => { r with reply := reply, armed := false }
    waiters := s.waiters.delete command }

def receive (s : MspSession) (frame : MspFrame) : MspSession :=
  match s.waiters.get frame.command with
  | none => s
  | some id => s.settle id frame.command (.resolved frame)

def pushes : ℕ → MspV1Decoder → Bytes → List MspFrame × MspV1Decoder
  | 0, d, _ => ([], d)
  | n + 1, d, bytes =>
    ((d.push bytes).1 ++ (pushes n (d.push bytes).2 bytes).1, (pushes n (d.push bytes).2 bytes).2)

def framesOf (s : MspSession) (bytes : Bytes) : List MspFrame :=
  (pushes s.listeners s.decoder bytes).1

def chunk (s : MspSession) (bytes : Bytes) : MspSession :=
  { (s.framesOf bytes).foldl receive s with
    decoder := (pushes s.listeners s.decoder bytes).2 }

def sendSettled (s : MspSession) (id : ℕ) (ok : Bool) : MspSession :=
  { s with
    requests := s.requests.modify id fun r =>
      { r with sending := if ok then .sent else .failed } }

def step (s : MspSession) : Event → Option MspSession
  | .connect => some s.connect
  | .disconnect => some s.disconnect
  | .request command payload => some (s.request command payload)
  | .sendSettled id ok =>
    match s.requests[id]? with
    | some r => if r.sending = .pending then some (s.sendSettled id ok) else none
    | none => none
  | .timer id =>
    match s.requests[id]? with
    | some r => if r.armed then some (s.settle id r.command .timedOut) else none
    | none => none
  | .chunk bytes _ => some (s.chunk bytes)

/-! ## What the bookkeeping promises -/

/-- A command is refused as in flight only while a request for it has not settled. -/
def AcceptsAfterSettled (s : MspSession) : Prop :=
  ∀ command, s.waiters.has command = true →
    ∃ r ∈ s.requests, r.command = command ∧ ¬r.Settled

/-- The waiter of request `j` under `command` is there, and stays as it is in `t`. -/
def KeepsWaiter (s t : MspSession) (command j : ℕ) : Prop :=
  s.waiters.get command = some j →
    t.waiters.get command = some j ∧ t.requests[j]? = s.requests[j]?

/-- No timer and no reply of an earlier request touches the waiter of a later one. -/
structure KeepsLater (s : MspSession) : Prop where
  accepts : s.AcceptsAfterSettled
  timers : ∀ k t, s.step (.timer k) = some t → ∀ command j, k < j → KeepsWaiter s t command j
  replies : ∀ bytes origin t, s.step (.chunk bytes origin) = some t → ∀ command j,
    (∀ i f, (s.framesOf bytes)[i]? = some f → f.command = command → ∃ k < j, origin i = some k) →
      KeepsWaiter s t command j

/-- No timer of another request touches a waiter, and no frame with another command. -/
structure KeepsOthers (s : MspSession) : Prop where
  accepts : s.AcceptsAfterSettled
  waits : ∀ j r, s.requests[j]? = some r → r.reply = .pending → s.waiters.get r.command = some j
  timers : ∀ k t, s.step (.timer k) = some t → ∀ command j, k ≠ j → KeepsWaiter s t command j
  replies : ∀ bytes origin t, s.step (.chunk bytes origin) = some t → ∀ command j,
    (∀ f ∈ s.framesOf bytes, f.command ≠ command) → KeepsWaiter s t command j

/-- No send fails, and nothing is disconnected while a request waits for its reply. -/
def Undisturbed (s : MspSession) : Event → Prop
  | .request command payload => (encodeMspV1Request command payload).isSome = true
  | .sendSettled _ ok => ok = true
  | .disconnect => ∀ r ∈ s.requests, r.reply ≠ .pending
  | _ => True

/-! ## The invariant -/

structure Bookkept (s : MspSession) : Prop where
  waits : ∀ command j, s.waiters.get command = some j ↔
    ∃ r, s.requests[j]? = some r ∧ r.command = command ∧ r.reply = .pending
  armed : ∀ r ∈ s.requests, r.armed = true ↔ r.reply = .pending
  sends : ∀ r ∈ s.requests, r.sending ≠ .failed

theorem bookkept_new : Bookkept new := by
  refine ⟨fun command j => ?_, ?_, ?_⟩
  · constructor
    · intro h
      cases h
    · rintro ⟨r, h, -⟩
      cases h
  · intro r h
    cases h
  · intro r h
    cases h

theorem getElem?_settle (s : MspSession) (id command : ℕ) (reply : Reply) (j : ℕ) :
    (s.settle id command reply).requests[j]? =
      if id = j then s.requests[j]?.map fun r => { r with reply := reply, armed := false }
      else s.requests[j]? := by
  rw [settle, List.getElem?_modify]
  split_ifs
  · rfl
  · exact congrFun Option.map_id_fun' _

theorem get_settle (s : MspSession) (id command : ℕ) (reply : Reply) (c : ℕ) :
    (s.settle id command reply).waiters.get c =
      if c = command then none else s.waiters.get c := JsMap.get_delete _ _ _

variable {id : ℕ}

theorem mem_modify {l : List Request} {f : Request → Request} {r : Request}
    (h : r ∈ l.modify id f) : r ∈ l ∨ ∃ q ∈ l, r = f q := by
  obtain ⟨j, hj⟩ := List.getElem?_of_mem h
  rw [List.getElem?_modify, Option.map_eq_map, Option.map_eq_some_iff] at hj
  obtain ⟨q, hq, rfl⟩ := hj
  split_ifs
  · exact .inr ⟨q, List.mem_of_getElem? hq, rfl⟩
  · exact .inl (List.mem_of_getElem? hq)

variable {s : MspSession} {command : ℕ} {reply : Reply}

theorem Bookkept.settle (h : Bookkept s) (hget : s.waiters.get command = some id)
    (hreply : reply ≠ .pending) :
    Bookkept (s.settle id command reply) := by
  obtain ⟨q, hq, hcommand, -⟩ := (h.waits command id).mp hget
  refine ⟨fun c j => ?_, fun r hr => ?_, fun r hr => ?_⟩
  · rw [get_settle, getElem?_settle]
    by_cases hj : id = j
    · subst hj
      rw [if_pos rfl, hq]
      refine iff_of_false ?_ ?_
      · split_ifs with hc
        · exact not_false
        · intro hother
          obtain ⟨q', hq', hcommand', -⟩ := (h.waits c id).mp hother
          obtain rfl := Option.some.inj (hq.symm.trans hq')
          exact hc (hcommand'.symm.trans hcommand)
      · rintro ⟨r, hr, -, hpending⟩
        cases hr
        exact hreply hpending
    · rw [if_neg hj, ← h.waits c j]
      split_ifs with hc
      · refine iff_of_false not_false ?_
        rw [hc, hget]
        exact fun he => hj (Option.some.inj he)
      · exact Iff.rfl
  · obtain hr | ⟨q', -, rfl⟩ := mem_modify hr
    · exact h.armed r hr
    · exact iff_of_false Bool.false_ne_true hreply
  · obtain hr | ⟨q', hq', rfl⟩ := mem_modify hr
    · exact h.sends r hr
    · exact h.sends q' hq'

theorem Bookkept.receive (h : Bookkept s) (frame : MspFrame) :
    Bookkept (s.receive frame) := by
  rw [MspSession.receive]
  cases hget : s.waiters.get frame.command with
  | none => exact h
  | some id => exact h.settle hget Reply.noConfusion

theorem Bookkept.foldl_receive (h : Bookkept s) (frames : List MspFrame) :
    Bookkept (frames.foldl MspSession.receive s) := by
  induction frames generalizing s with
  | nil => exact h
  | cons frame frames ih => exact ih (h.receive frame)

theorem getElem?_snoc (l : List Request) (r : Request) (j : ℕ) :
    (l ++ [r])[j]? = if j = l.length then some r else l[j]? := by
  split_ifs with hj
  · rw [hj, List.getElem?_append_right (Nat.le_refl _), Nat.sub_self]
    rfl
  · rcases Nat.lt_or_ge j l.length with hlt | hge
    · exact List.getElem?_append_left hlt
    · rw [List.getElem?_append_right hge, List.getElem?_eq_none_iff.mpr hge,
        List.getElem?_eq_none_iff]
      rw [List.length_singleton]
      omega

theorem Bookkept.request {payload : Bytes} (h : Bookkept s)
    (hsend : (encodeMspV1Request command payload).isSome = true) :
    Bookkept (s.request command payload) := by
  have hend : s.requests[s.requests.length]? = none := List.getElem?_eq_none_iff.mpr (Nat.le_refl _)
  rw [MspSession.request]
  cases hget : s.waiters.get command with
  | some id =>
    rw [if_pos (by rw [JsMap.has, hget]; rfl)]
    refine ⟨fun c j => ?_, fun r hr => ?_, fun r hr => ?_⟩
    · rw [getElem?_snoc, h.waits c j]
      split_ifs with hj
      · rw [hj, hend]
        refine iff_of_false ?_ ?_
        · rintro ⟨r, hr, -⟩
          cases hr
        · rintro ⟨r, hr, -, hpending⟩
          cases hr
          cases hpending
      · exact Iff.rfl
    · obtain hr | hr := List.mem_append.mp hr
      · exact h.armed r hr
      · rw [List.mem_singleton.mp hr]
        exact iff_of_false Bool.false_ne_true (fun he => by cases he)
    · obtain hr | hr := List.mem_append.mp hr
      · exact h.sends r hr
      · rw [List.mem_singleton.mp hr]
        exact fun he => by cases he
  | none =>
    rw [if_neg (by rw [JsMap.has, hget]; exact Bool.false_ne_true), if_pos hsend]
    refine ⟨fun c j => ?_, fun r hr => ?_, fun r hr => ?_⟩
    · rw [getElem?_snoc, JsMap.get_set]
      split_ifs with hc hj hj
      · subst hc hj
        exact iff_of_true rfl ⟨_, rfl, rfl, rfl⟩
      · refine iff_of_false (fun he => hj (Option.some.inj he).symm) ?_
        rw [← h.waits c j, hc, hget]
        exact fun he => by cases he
      · rw [h.waits c j, hj, hend]
        refine iff_of_false ?_ ?_
        · rintro ⟨r, hr, -⟩
          cases hr
        · rintro ⟨r, hr, hcommand, -⟩
          cases hr
          exact hc hcommand.symm
      · exact h.waits c j
    · obtain hr | hr := List.mem_append.mp hr
      · exact h.armed r hr
      · rw [List.mem_singleton.mp hr]
        exact iff_of_true rfl rfl
    · obtain hr | hr := List.mem_append.mp hr
      · exact h.sends r hr
      · rw [List.mem_singleton.mp hr]
        exact fun he => by cases he

theorem Bookkept.sendSettled (h : Bookkept s) (id : ℕ) :
    Bookkept (s.sendSettled id true) := by
  refine ⟨fun c j => (h.waits c j).trans ?_, fun r hr => ?_, fun r hr => ?_⟩
  · rw [MspSession.sendSettled, List.getElem?_modify, Option.map_eq_map]
    constructor
    · rintro ⟨r, hr, hcommand, hpending⟩
      refine ⟨_, Option.map_eq_some_iff.mpr ⟨r, hr, rfl⟩, ?_, ?_⟩
      · split_ifs <;> exact hcommand
      · split_ifs <;> exact hpending
    · rintro ⟨r, hr, hcommand, hpending⟩
      obtain ⟨q, hq, rfl⟩ := Option.map_eq_some_iff.mp hr
      refine ⟨q, hq, ?_, ?_⟩
      · split_ifs at hcommand <;> exact hcommand
      · split_ifs at hpending <;> exact hpending
  · obtain hr | ⟨q, hq, rfl⟩ := mem_modify hr
    · exact h.armed r hr
    · exact h.armed q hq
  · obtain hr | ⟨q, hq, rfl⟩ := mem_modify hr
    · exact h.sends r hr
    · exact fun he => by cases he

theorem Bookkept.disconnect (h : Bookkept s) (hidle : ∀ r ∈ s.requests, r.reply ≠ .pending) :
    Bookkept s.disconnect := by
  refine ⟨fun c j => iff_of_false (fun he => by cases he) ?_, h.armed, h.sends⟩
  rintro ⟨r, hr, -, hpending⟩
  exact hidle r (List.mem_of_getElem? hr) hpending

theorem Bookkept.chunk (h : Bookkept s) (bytes : Bytes) :
    Bookkept (s.chunk bytes) :=
  have hall := h.foldl_receive (s.framesOf bytes)
  ⟨hall.waits, hall.armed, hall.sends⟩

theorem Bookkept.step {t : MspSession} {e : Event} (h : Bookkept s) (he : Undisturbed s e)
    (hstep : s.step e = some t) : Bookkept t := by
  cases e with
  | connect =>
    cases hstep
    exact ⟨h.waits, h.armed, h.sends⟩
  | disconnect =>
    cases hstep
    exact h.disconnect he
  | request command payload =>
    cases hstep
    exact h.request he
  | sendSettled id ok =>
    obtain rfl : ok = true := he
    rw [MspSession.step] at hstep
    split at hstep
    · split_ifs at hstep
      cases hstep
      exact h.sendSettled id
    · cases hstep
  | timer id =>
    rw [MspSession.step] at hstep
    split at hstep
    · next r hr =>
      split_ifs at hstep with harmed
      cases hstep
      have hpending := (h.armed r (List.mem_of_getElem? hr)).mp harmed
      exact h.settle ((h.waits r.command id).mpr ⟨r, hr, rfl, hpending⟩) (fun he => by cases he)
    · cases hstep
  | chunk bytes origin =>
    cases hstep
    exact h.chunk bytes

/-! ## The promises -/

theorem KeepsWaiter.refl (s : MspSession) (command j : ℕ) : KeepsWaiter s s command j :=
  fun h => ⟨h, rfl⟩

variable {j : ℕ}

theorem keepsWaiter_settle {other : ℕ} (hcommand : command ≠ other) (hj : id ≠ j) :
    KeepsWaiter s (s.settle id other reply) command j := by
  intro h
  rw [get_settle, if_neg hcommand, getElem?_settle, if_neg hj]
  exact ⟨h, rfl⟩

theorem keepsWaiter_receive (h : Bookkept s) {frame : MspFrame} (hframe : frame.command ≠ command) :
    KeepsWaiter s (s.receive frame) command j := by
  rw [MspSession.receive]
  cases hget : s.waiters.get frame.command with
  | none => exact KeepsWaiter.refl s command j
  | some id =>
    intro hj
    refine keepsWaiter_settle (Ne.symm hframe) ?_ hj
    rintro rfl
    obtain ⟨r, hr, hcommand, -⟩ := (h.waits _ _).mp hget
    obtain ⟨q, hq, hother, -⟩ := (h.waits _ _).mp hj
    obtain rfl := Option.some.inj (hr.symm.trans hq)
    exact hframe (hcommand.symm.trans hother)

theorem keepsWaiter_foldl (h : Bookkept s) {frames : List MspFrame}
    (hframes : ∀ f ∈ frames, f.command ≠ command) :
    KeepsWaiter s (frames.foldl MspSession.receive s) command j := by
  induction frames generalizing s with
  | nil => exact KeepsWaiter.refl s command j
  | cons frame frames ih =>
    intro hj
    obtain ⟨hkept, hsame⟩ :=
      keepsWaiter_receive h (hframes frame (List.mem_cons_self ..)) hj
    obtain ⟨hlast, hend⟩ :=
      ih (h.receive frame) (fun f hf => hframes f (List.mem_cons_of_mem _ hf)) hkept
    exact ⟨hlast, hend.trans hsame⟩

theorem Bookkept.keepsOthers (h : Bookkept s) : KeepsOthers s := by
  refine ⟨fun command hhas => ?_, fun j r hr hpending => ?_, fun k t hstep command j hne => ?_,
    fun bytes origin t hstep command j hframes => ?_⟩
  · obtain ⟨j, hj⟩ := Option.isSome_iff_exists.mp hhas
    obtain ⟨r, hr, hcommand, hpending⟩ := (h.waits command j).mp hj
    refine ⟨r, List.mem_of_getElem? hr, hcommand, ?_⟩
    rintro (hfailed | ⟨-, hsettled⟩)
    · exact h.sends r (List.mem_of_getElem? hr) hfailed
    · exact hsettled hpending
  · exact (h.waits r.command j).mpr ⟨r, hr, rfl, hpending⟩
  · rw [MspSession.step] at hstep
    split at hstep
    · next r hr =>
      split_ifs at hstep with harmed
      cases hstep
      intro hj
      refine keepsWaiter_settle ?_ hne hj
      rintro rfl
      have hpending := (h.armed r (List.mem_of_getElem? hr)).mp harmed
      have hk := (h.waits r.command k).mpr ⟨r, hr, rfl, hpending⟩
      exact hne (Option.some.inj (hk.symm.trans hj))
    · cases hstep
  · cases hstep
    exact keepsWaiter_foldl h hframes

/-- Without failed sends, and without disconnecting under a pending request, a settled request leaves
nothing in the way of the next one, and a waiter stays until its own timer or a frame with its
command byte. -/
theorem undisturbed_keepsOthers {es : List Event} {s : MspSession}
    (hrun : Runs.run step new es = some s) (hes : Runs.Along step Undisturbed new es) :
    KeepsOthers s :=
  (Runs.run_invariant_along (I := Bookkept) (fun _ _ _ h he hstep => h.step he hstep) bookkept_new
    hes hrun).keepsOthers

def answerOne : Bytes := [0x24, 0x4d, 0x3e, 0, 1, 1]

def askedTwice : List Event :=
  [.connect, .request 1 [], .sendSettled 0 true, .chunk answerOne fun _ => some 0, .request 1 []]

theorem undisturbed_keepsOthers_twice :
    ∃ s, Runs.run step new askedTwice = some s ∧ KeepsOthers s := by
  refine ⟨_, rfl, @undisturbed_keepsOthers askedTwice _ rfl ?_⟩
  refine (Runs.along_cons _ rfl).mpr ⟨trivial, (Runs.along_cons _ rfl).mpr ⟨rfl, ?_⟩⟩
  refine (Runs.along_cons _ rfl).mpr ⟨rfl, (Runs.along_cons _ rfl).mpr ⟨trivial, ?_⟩⟩
  exact (Runs.along_cons _ rfl).mpr ⟨rfl, trivial⟩

/-- The answer to a request that has timed out settles the next request for the command. -/
theorem late_answer_settles_later :
    ¬∀ es s, Runs.run step new es = some s → KeepsLater s := by
  intro h
  have hkeeps := h [.connect, .request 1 [], .sendSettled 0 true, .timer 0, .request 1 []] _ rfl
  have hkept := hkeeps.replies answerOne (fun _ => some 0) _ rfl 1 1
    (fun _ _ _ _ => ⟨0, Nat.zero_lt_one, rfl⟩) rfl
  exact absurd hkept.1 (by decide)

end MspSession

end ArduConfigurator.Msp
