import ArduConfigurator.Lib.Runs
import ArduConfigurator.Lib.TextBytes
import ArduConfigurator.Transport.Types

/-! # The transport over a WebSocket

`WebSocketTransport` of `websocket-transport.ts`. A socket is known by its place among those that
the transport has created, and the promise of an attempt to connect by its place among the attempts.
`calls`, `changes`, `delivered` and `settlements` only record the calls of `connect()`, which events
changed the status or gave the listeners a frame, and what settled which promise. -/
namespace ArduConfigurator.Transport.WebSocket
set_option autoImplicit false

inductive Settlement
  | resolved
  | rejected (message : String)

/-- A socket: the attempt that it belongs to, the listeners that are attached to it, and what became
of it. -/
structure Socket where
  attempt : ℕ
  connectListeners : Bool
  runtimeListeners : Bool
  closed : Bool
  failed : Bool
  reportedClose : Bool
  deriving DecidableEq

structure Origin where
  socket : ℕ
  current : Option ℕ
  deriving DecidableEq

inductive Data
  | uint8Array (bytes : Bytes)
  | arrayBuffer (bytes : Bytes)
  | view (buffer : Bytes) (byteOffset byteLength : ℕ)
  | blob (bytes : Bytes)
  | text (text : Text)
  | other

def normalizeSocketData : Data → Option Bytes
  | .uint8Array bytes => some bytes
  | .arrayBuffer bytes => some bytes
  | .view buffer byteOffset byteLength => some ((buffer.drop byteOffset).take byteLength)
  | .blob bytes => some bytes
  | .text text => some (encodeText text)
  | .other => none

structure CloseEvent where
  code : ℕ
  reason : String

structure WebSocketTransport where
  id : String
  url : String
  status : TransportStatus
  socket : Option ℕ
  connectReject : Option ℕ
  cleanupConnectListeners : Option ℕ
  pendingConnectPromise : Option ℕ
  sockets : List Socket
  attempts : ℕ
  callbacks : List ℕ
  forwarding : List (Origin × Data)
  calls : List (Option ℕ)
  changes : List Origin
  delivered : List (Origin × Bytes)
  settlements : List (ℕ × Settlement)

inductive Event
  | connect (factoryError : Option String)
  | disconnect
  | opens (socket : ℕ)
  | message (socket : ℕ) (data : Data)
  | error (socket : ℕ)
  | close (socket : ℕ) (event : CloseEvent)
  | settled (attempt : ℕ)
  | normalized (frame : ℕ)

namespace WebSocketTransport

def new (id url : String) : WebSocketTransport where
  id := id
  url := url
  status := .idle
  socket := none
  connectReject := none
  cleanupConnectListeners := none
  pendingConnectPromise := none
  sockets := []
  attempts := 0
  callbacks := []
  forwarding := []
  calls := []
  changes := []
  delivered := []
  settlements := []

def settledAttempts (s : WebSocketTransport) : List ℕ := s.settlements.map Prod.fst

/-- `resolve` or `reject` of an attempt; the callback of `finally` becomes due the first time. -/
def settle (s : WebSocketTransport) (attempt : ℕ) (settlement : Settlement) : WebSocketTransport :=
  { s with
    settlements := s.settlements ++ [(attempt, settlement)]
    callbacks := if attempt ∈ s.settledAttempts then s.callbacks else s.callbacks ++ [attempt] }

/-- `updateStatus` by a listener of the socket. -/
def updateStatus (s : WebSocketTransport) (socket : ℕ) (status : TransportStatus) :
    WebSocketTransport :=
  { s with status := status, changes := s.changes ++ [⟨socket, s.socket⟩] }

def modifySocket (s : WebSocketTransport) (socket : ℕ) (f : Socket → Socket) : WebSocketTransport :=
  { s with sockets := s.sockets.modify socket f }

/-- The `cleanupConnectListeners` of a socket. -/
def cleanup (s : WebSocketTransport) (socket : ℕ) : WebSocketTransport :=
  { s with connectReject := none, cleanupConnectListeners := none }.modifySocket socket
    fun it => { it with connectListeners := false }

def detachRuntimeListeners (s : WebSocketTransport) (socket : ℕ) : WebSocketTransport :=
  s.modifySocket socket fun it => { it with runtimeListeners := false }

/-! ## The calls -/

def join (s : WebSocketTransport) (attempt : Option ℕ) : WebSocketTransport :=
  { s with calls := s.calls ++ [attempt] }

/-- `connect` from where it begins an attempt. -/
def startAttempt (s : WebSocketTransport) (factoryError : Option String) : WebSocketTransport :=
  let attempt := s.attempts
  let connecting :=
    { s with
      status := .connecting
      attempts := attempt + 1
      pendingConnectPromise := some attempt
      calls := s.calls ++ [some attempt] }
  match factoryError with
  | some message => connecting.settle attempt (.rejected message)
  | none =>
    { connecting with
      socket := some s.sockets.length
      sockets := s.sockets ++ [⟨attempt, true, false, false, false, false⟩]
      connectReject := some attempt
      cleanupConnectListeners := some s.sockets.length }

def connect (s : WebSocketTransport) (factoryError : Option String) : WebSocketTransport :=
  if s.status = .connected then s.join none
  else
    match s.pendingConnectPromise with
    | some attempt => s.join (some attempt)
    | none => s.startAttempt factoryError

def disconnect (s : WebSocketTransport) : WebSocketTransport :=
  match s.socket with
  | none => { s with status := .disconnected (some "WebSocket already closed.") }
  | some socket =>
    let detached := { s.detachRuntimeListeners socket with connectReject := none }
    let cleaned := detached.cleanupConnectListeners.elim detached detached.cleanup
    let released := { cleaned with socket := none }
    let rejected := s.connectReject.elim released fun attempt =>
      released.settle attempt (.rejected "WebSocket connect aborted by disconnect.")
    { rejected.modifySocket socket fun it => { it with closed := true } with
      status := .disconnected (some "WebSocket closed.") }

/-! ## The listeners -/

def handleOpen (s : WebSocketTransport) (socket attempt : ℕ) : WebSocketTransport :=
  let attached := (s.cleanup socket).modifySocket socket fun it =>
    { it with runtimeListeners := true }
  (attached.updateStatus socket .connected).settle attempt .resolved

def handleError (s : WebSocketTransport) (socket attempt : ℕ) : WebSocketTransport :=
  let message := "Failed to open WebSocket " ++ s.url ++ "."
  ((s.cleanup socket).updateStatus socket (.error message)).settle attempt (.rejected message)

def closeReason (event : CloseEvent) (otherwise : String) : String :=
  if event.reason = "" then otherwise ++ " (" ++ toString event.code ++ ")" else event.reason

def handleCloseBeforeOpen (s : WebSocketTransport) (socket attempt : ℕ) (event : CloseEvent) :
    WebSocketTransport :=
  let reason := closeReason event "WebSocket closed before opening"
  ((s.cleanup socket).updateStatus socket (.disconnected (some reason))).settle attempt
    (.rejected reason)

def handleMessage (s : WebSocketTransport) (socket : ℕ) (data : Data) : WebSocketTransport :=
  { s with forwarding := s.forwarding ++ [(⟨socket, s.socket⟩, data)] }

def handleRuntimeError (s : WebSocketTransport) (socket : ℕ) : WebSocketTransport :=
  if s.status = .connected ∨ s.status = .connecting then
    s.updateStatus socket (.error ("WebSocket transport " ++ s.id ++ " encountered an error."))
  else s

def handleRuntimeClose (s : WebSocketTransport) (socket : ℕ) (event : CloseEvent) :
    WebSocketTransport :=
  let reason := closeReason event "WebSocket closed"
  if s.status = .connected ∨ s.status = .connecting then
    s.updateStatus socket (.disconnected (some reason))
  else s

/-- The rest of `forwardFrame` once the data is read. -/
def deliver (s : WebSocketTransport) (frame : ℕ) : Option WebSocketTransport :=
  s.forwarding[frame]?.map fun (origin, data) =>
    { s with
      forwarding := s.forwarding.eraseIdx frame
      delivered :=
        s.delivered ++ ((normalizeSocketData data).map fun bytes => (origin, bytes)).toList }

def reporting (s : WebSocketTransport) (socket : ℕ) : Option Socket :=
  s.sockets[socket]?.filter fun it => !it.reportedClose

/-! ## The events of a socket -/

def dispatchOpen (s : WebSocketTransport) (socket : ℕ) (it : Socket) : WebSocketTransport :=
  if it.connectListeners then s.handleOpen socket it.attempt else s

def dispatchMessage (s : WebSocketTransport) (socket : ℕ) (data : Data) (it : Socket) :
    WebSocketTransport :=
  if it.runtimeListeners then s.handleMessage socket data else s

def dispatchError (s : WebSocketTransport) (socket : ℕ) (it : Socket) : WebSocketTransport :=
  let reported := s.modifySocket socket fun it => { it with failed := true }
  if it.connectListeners then reported.handleError socket it.attempt
  else if it.runtimeListeners then reported.handleRuntimeError socket
  else reported

def dispatchClose (s : WebSocketTransport) (socket : ℕ) (event : CloseEvent) (it : Socket) :
    WebSocketTransport :=
  let reported := s.modifySocket socket fun it => { it with reportedClose := true }
  if it.connectListeners then reported.handleCloseBeforeOpen socket it.attempt event
  else if it.runtimeListeners then reported.handleRuntimeClose socket event
  else reported

def step (s : WebSocketTransport) : Event → Option WebSocketTransport
  | .connect factoryError => some (s.connect factoryError)
  | .disconnect => some s.disconnect
  | .opens socket => (s.reporting socket).map (s.dispatchOpen socket)
  | .message socket data => (s.reporting socket).map (s.dispatchMessage socket data)
  | .error socket => (s.reporting socket).map (s.dispatchError socket)
  | .close socket event => (s.reporting socket).map (s.dispatchClose socket event)
  | .settled attempt =>
    if attempt ∈ s.callbacks then
      some { s with pendingConnectPromise := none, callbacks := s.callbacks.erase attempt }
    else none
  | .normalized frame => s.deliver frame

end WebSocketTransport

/-! ## Isolated sessions -/

structure Socket.Live (it : Socket) : Prop where
  unclosed : it.closed = false
  working : it.failed = false
  unreported : it.reportedClose = false

namespace WebSocketTransport

/-- Only events of the socket that the transport had then have changed the status or given the
listeners a frame, a promise settles once and at the latest with a `disconnect()`, and one socket at
most is live. -/
structure Isolated (s : WebSocketTransport) : Prop where
  changes : ∀ origin ∈ s.changes, origin.current = some origin.socket
  delivered : ∀ frame ∈ s.delivered, frame.1.current = some frame.1.socket
  settled_once : s.settledAttempts.Nodup
  settled_by_disconnect :
    ∀ call ∈ s.calls, ∀ attempt ∈ call, attempt ∈ s.disconnect.settledAttempts
  one_live : ∀ (i j : ℕ) (it other : Socket), s.sockets[i]? = some it → s.sockets[j]? = some other →
    it.Live → other.Live → i = j

/-- A new attempt begins only when no socket that still has the listeners of a connection is yet to
report its close. -/
def StartsClean (s : WebSocketTransport) : Event → Prop
  | .connect _ => s.status ≠ .connected → s.pendingConnectPromise = none →
      ∀ it ∈ s.sockets, it.runtimeListeners = true → it.reportedClose = true
  | _ => True

instance (s : WebSocketTransport) : (e : Event) → Decidable (s.StartsClean e)
  | .connect _ => inferInstanceAs <| Decidable <|
      s.status ≠ .connected → s.pendingConnectPromise = none →
        ∀ it ∈ s.sockets, it.runtimeListeners = true → it.reportedClose = true
  | .disconnect => isTrue trivial
  | .opens _ => isTrue trivial
  | .message _ _ => isTrue trivial
  | .error _ => isTrue trivial
  | .close _ _ => isTrue trivial
  | .settled _ => isTrue trivial
  | .normalized _ => isTrue trivial

/-! ## What holds between events -/

inductive Phase (s : WebSocketTransport) : Prop
  | resting (hreject : s.connectReject = none) (hcleanup : s.cleanupConnectListeners = none)
    (hlisteners : ∀ (i : ℕ) (it : Socket), s.sockets[i]? = some it → it.connectListeners = false)
    (hsettled : ∀ attempt < s.attempts, attempt ∈ s.settledAttempts)
    (hlatch : s.callbacks = [] ∧ s.pendingConnectPromise = none ∨
      ∃ attempt ∈ s.settledAttempts, s.callbacks = [attempt] ∧
        s.pendingConnectPromise = some attempt)
  | opening (i attempt : ℕ) (hsocket : s.socket = some i)
    (hget : s.sockets[i]? = some ⟨attempt, true, false, false, false, false⟩)
    (hothers : ∀ (j : ℕ) (it : Socket), j ≠ i → s.sockets[j]? = some it →
      it.connectListeners = false)
    (hreject : s.connectReject = some attempt) (hcleanup : s.cleanupConnectListeners = some i)
    (hlatch : s.pendingConnectPromise = some attempt) (hcallbacks : s.callbacks = [])
    (hlast : s.attempts = attempt + 1) (hpending : attempt ∉ s.settledAttempts)
    (hsettled : ∀ earlier < attempt, earlier ∈ s.settledAttempts)

structure Separate (s : WebSocketTransport) : Prop where
  phase : s.Phase
  once : s.settledAttempts.Nodup
  known : ∀ attempt ∈ s.settledAttempts, attempt < s.attempts
  joined : ∀ call ∈ s.calls, ∀ attempt ∈ call, attempt < s.attempts
  inUse : ∀ (i : ℕ) (it : Socket), s.sockets[i]? = some it → it.runtimeListeners = true →
    it.reportedClose = false → s.socket = some i
  live : ∀ (i : ℕ) (it : Socket), s.sockets[i]? = some it → it.Live →
    it.connectListeners = true ∨ it.runtimeListeners = true ∧ s.status = .connected
  changes : ∀ origin ∈ s.changes, origin.current = some origin.socket
  forwarding : ∀ frame ∈ s.forwarding, frame.1.current = some frame.1.socket
  delivered : ∀ frame ∈ s.delivered, frame.1.current = some frame.1.socket

theorem settled_append (s : WebSocketTransport) (attempt : ℕ) (settlement : Settlement) :
    (s.settlements ++ [(attempt, settlement)]).map Prod.fst = s.settledAttempts ++ [attempt] := by
  rw [List.map_append]
  rfl

theorem settled_next {settled : List ℕ} {attempt : ℕ} (hnodup : settled.Nodup)
    (hsettled : ∀ earlier < attempt, earlier ∈ settled) (hpending : attempt ∉ settled) :
    (settled ++ [attempt]).Nodup ∧ ∀ earlier < attempt + 1, earlier ∈ settled ++ [attempt] := by
  constructor
  · rw [List.nodup_append_comm, List.singleton_append, List.nodup_cons]
    exact ⟨hpending, hnodup⟩
  · intro earlier hearlier
    rw [List.mem_append, List.mem_singleton]
    rcases Nat.lt_succ_iff_lt_or_eq.mp hearlier with hlt | heq
    · exact .inl (hsettled earlier hlt)
    · exact .inr heq

theorem separate_new (id url : String) : (new id url).Separate where
  phase := .resting rfl rfl (by simp [new]) (by simp [new]) (.inl ⟨rfl, rfl⟩)
  once := List.nodup_nil
  known := by simp [new, settledAttempts]
  joined := by simp [new]
  inUse := by simp [new]
  live := by simp [new]
  changes := by simp [new]
  forwarding := by simp [new]
  delivered := by simp [new]

/-- Socket `i`, changed by `f`, has settled its attempt to connect. -/
def ended (s : WebSocketTransport) (i attempt : ℕ) (f : Socket → Socket) (status : TransportStatus)
    (settlement : Settlement) : WebSocketTransport :=
  { s with
    status
    connectReject := none
    cleanupConnectListeners := none
    sockets := s.sockets.modify i f
    callbacks := if attempt ∈ s.settledAttempts then s.callbacks else s.callbacks ++ [attempt]
    changes := s.changes ++ [⟨i, s.socket⟩]
    settlements := s.settlements ++ [(attempt, settlement)] }

namespace Separate
variable {s : WebSocketTransport} {i : ℕ} {it : Socket}

theorem current_of_live (h : s.Separate) (hget : s.sockets[i]? = some it) (hlive : it.Live) :
    s.socket = some i := by
  obtain hconnect | ⟨hruntime, _⟩ := h.live i it hget hlive
  · cases h.phase with
    | resting _ _ hlisteners =>
      rw [hlisteners i it hget] at hconnect
      cases hconnect
    | opening j attempt hsocket hopening hothers =>
      by_cases hij : i = j
      · rw [hsocket, hij]
      · rw [hothers i it hij hget] at hconnect
        cases hconnect
  · exact h.inUse i it hget hruntime hlive.unreported

variable {attempt : ℕ} {f : Socket → Socket} {status : TransportStatus} {changes : List Origin}

theorem leave (h : s.Separate) (hsocket : s.socket = some i)
    (hget : s.sockets[i]? = some ⟨attempt, true, false, false, false, false⟩)
    (hothers : ∀ (j : ℕ) (it : Socket), j ≠ i → s.sockets[j]? = some it → it.connectListeners = false)
    (hlatch : s.pendingConnectPromise = some attempt) (hlast : s.attempts = attempt + 1)
    (hpending : attempt ∉ s.settledAttempts)
    (hsettled : ∀ earlier < attempt, earlier ∈ s.settledAttempts) {current : Option ℕ}
    (settlement : Settlement) (hf : f ⟨attempt, true, false, false, false, false⟩ = it)
    (hconnect : it.connectListeners = false)
    (hruntime : it.runtimeListeners = true → current = some i)
    (hlive : it.Live → it.runtimeListeners = true ∧ status = .connected)
    (hchanges : ∀ origin ∈ changes, origin.current = some origin.socket) :
    Separate
      { s with
        status := status
        socket := current
        connectReject := none
        cleanupConnectListeners := none
        sockets := s.sockets.modify i f
        callbacks := [attempt]
        changes := changes
        settlements := s.settlements ++ [(attempt, settlement)] } := by
  have hmodified : (s.sockets.modify i f)[i]? = some it := by
    rw [List.getElem?_modify_eq, hget, Option.map_eq_map, Option.map_some, hf]
  have hkept {j : ℕ} (hj : j ≠ i) : (s.sockets.modify i f)[j]? = s.sockets[j]? :=
    List.getElem?_modify_ne f _ (Ne.symm hj)
  obtain ⟨honce, hall⟩ := settled_next h.once hsettled hpending
  refine ⟨.resting rfl rfl (fun j other hother => ?_) (fun earlier hearlier => ?_)
    (.inr ⟨attempt, ?_, rfl, hlatch⟩), ?_, fun earlier hmem => ?_, h.joined,
    fun j other hother => ?_, fun j other hother hlive' => ?_, hchanges, h.forwarding,
    h.delivered⟩
  · by_cases hj : j = i
    · subst hj
      cases hmodified.symm.trans hother
      exact hconnect
    · exact hothers j other hj ((hkept hj).symm.trans hother)
  · rw [settledAttempts, settled_append]
    exact hall earlier (hlast ▸ hearlier)
  · rw [settledAttempts, settled_append]
    exact List.mem_append_right _ (List.mem_singleton_self attempt)
  · rw [settledAttempts, settled_append]
    exact honce
  · rw [settledAttempts, settled_append, List.mem_append, List.mem_singleton] at hmem
    rcases hmem with hmem | rfl
    · exact h.known earlier hmem
    · exact hlast ▸ Nat.lt_succ_self _
  · by_cases hj : j = i
    · subst hj
      cases hmodified.symm.trans hother
      exact fun hattached _ => hruntime hattached
    · intro hattached hunreported
      have hj' := h.inUse j other ((hkept hj).symm.trans hother) hattached hunreported
      exact absurd (Option.some.inj (hj'.symm.trans hsocket)) hj
  · by_cases hj : j = i
    · subst hj
      cases hmodified.symm.trans hother
      exact .inr (hlive hlive')
    · have hj' := h.current_of_live ((hkept hj).symm.trans hother) hlive'
      exact absurd (Option.some.inj (hj'.symm.trans hsocket)) hj

theorem mark (h : s.Separate) (hget : s.sockets[i]? = some it)
    (hconnect : it.connectListeners = false) (hlisteners : (f it).connectListeners = false)
    (hattached : (f it).runtimeListeners = it.runtimeListeners)
    (hreported : (f it).reportedClose = false → it.reportedClose = false) (hdead : ¬ (f it).Live)
    (hstatus : status = s.status ∨ s.socket = some i)
    (hchanges : ∀ origin ∈ changes, origin.current = some origin.socket) :
    Separate
      { s with status := status, sockets := s.sockets.modify i f, changes := changes } := by
  have hmodified : (s.sockets.modify i f)[i]? = some (f it) := by
    rw [List.getElem?_modify_eq, hget]
    rfl
  have hkept {j : ℕ} (hj : j ≠ i) : (s.sockets.modify i f)[j]? = s.sockets[j]? :=
    List.getElem?_modify_ne f _ (Ne.symm hj)
  refine ⟨?_, h.once, h.known, h.joined, fun j other hother hruntime hunreported => ?_,
    fun j other hother hlive => ?_, hchanges, h.forwarding, h.delivered⟩
  · cases h.phase with
    | resting hreject hcleanup hnone hsettled hlatch =>
      refine .resting hreject hcleanup (fun j other hother => ?_) hsettled hlatch
      by_cases hj : j = i
      · subst hj
        cases hmodified.symm.trans hother
        exact hlisteners
      · exact hnone j other ((hkept hj).symm.trans hother)
    | opening j attempt hsocket hopening hothers hreject hcleanup hlatch hcallbacks hlast hpending
        hsettled =>
      have hj : j ≠ i := by
        rintro rfl
        cases hget.symm.trans hopening
        cases hconnect
      refine .opening j attempt hsocket ((hkept hj).trans hopening) (fun k other hk hother => ?_)
        hreject hcleanup hlatch hcallbacks hlast hpending hsettled
      by_cases hki : k = i
      · subst hki
        cases hmodified.symm.trans hother
        exact hlisteners
      · exact hothers k other hk ((hkept hki).symm.trans hother)
  · by_cases hj : j = i
    · subst hj
      cases hmodified.symm.trans hother
      exact h.inUse j it hget (hattached ▸ hruntime) (hreported hunreported)
    · exact h.inUse j other ((hkept hj).symm.trans hother) hruntime hunreported
  · by_cases hj : j = i
    · subst hj
      cases hmodified.symm.trans hother
      exact absurd hlive hdead
    · have hbefore := (hkept hj).symm.trans hother
      obtain rfl | hcurrent := hstatus
      · exact h.live j other hbefore hlive
      · have hj' := h.current_of_live hbefore hlive
        exact absurd (Option.some.inj (hj'.symm.trans hcurrent)) hj

theorem keep (h : s.Separate) {calls : List (Option ℕ)} {forwarding : List (Origin × Data)}
    {delivered : List (Origin × Bytes)}
    (hjoined : ∀ call ∈ calls, ∀ attempt ∈ call, attempt < s.attempts)
    (hforwarding : ∀ frame ∈ forwarding, frame.1.current = some frame.1.socket)
    (hdelivered : ∀ frame ∈ delivered, frame.1.current = some frame.1.socket) :
    Separate { s with calls := calls, forwarding := forwarding, delivered := delivered } := by
  refine ⟨?_, h.once, h.known, hjoined, h.inUse, h.live, h.changes, hforwarding, hdelivered⟩
  cases h.phase with
  | resting hreject hcleanup hnone hsettled hlatch =>
    exact .resting hreject hcleanup hnone hsettled hlatch
  | opening i attempt hsocket hget hothers hreject hcleanup hlatch hcallbacks hlast hpending
      hsettled =>
    exact .opening i attempt hsocket hget hothers hreject hcleanup hlatch hcallbacks hlast hpending
      hsettled

/-! ## Each event -/


theorem pending_lt (h : s.Separate) (hlatch : s.pendingConnectPromise = some attempt) :
    attempt < s.attempts := by
  cases h.phase with
  | resting _ _ _ _ hlatched =>
    obtain ⟨_, hnone⟩ | ⟨other, hother, _, hsome⟩ := hlatched
    · rw [hlatch] at hnone
      cases hnone
    · rw [hlatch] at hsome
      cases hsome
      exact h.known attempt hother
  | opening i other _ _ _ _ _ hsome _ hlast =>
    rw [hlatch] at hsome
    cases hsome
    exact hlast ▸ Nat.lt_succ_self attempt

theorem join (h : s.Separate) {call : Option ℕ} (hcall : ∀ attempt ∈ call, attempt < s.attempts) :
    (s.join call).Separate := by
  refine h.keep (fun other hother => ?_) h.forwarding h.delivered
  rcases List.mem_append.mp hother with hother | hother
  · exact h.joined other hother
  · rw [List.mem_singleton.mp hother]
    exact hcall

theorem startAttempt (h : s.Separate) (factoryError : Option String)
    (hstatus : s.status ≠ .connected) (hlatch : s.pendingConnectPromise = none)
    (hclean : ∀ it ∈ s.sockets, it.runtimeListeners = true → it.reportedClose = true) :
    (s.startAttempt factoryError).Separate := by
  have hcalls : ∀ call ∈ s.calls ++ [some s.attempts], ∀ attempt ∈ call,
      attempt < s.attempts + 1 := by
    intro call hcall attempt hattempt
    rcases List.mem_append.mp hcall with hcall | hcall
    · exact Nat.lt_succ_of_lt (h.joined call hcall attempt hattempt)
    · cases (List.mem_singleton.mp hcall) ▸ hattempt
      exact Nat.lt_succ_self _
  have hnew : s.attempts ∉ s.settledAttempts := fun hmem => (h.known _ hmem).ne rfl
  cases h.phase with
  | opening _ _ _ _ _ _ _ hsome =>
    rw [hlatch] at hsome
    cases hsome
  | resting hreject hcleanup hnone hsettled hlatched =>
    have hcallbacks : s.callbacks = [] := by
      obtain ⟨hcallbacks, _⟩ | ⟨_, _, _, hsome⟩ := hlatched
      · exact hcallbacks
      · rw [hlatch] at hsome
        cases hsome
    have hunused : ∀ (i : ℕ) (it : Socket), s.sockets[i]? = some it → ¬ it.Live := by
      intro i it hget hlive
      obtain hconnect | ⟨_, hconnected⟩ := h.live i it hget hlive
      · rw [hnone i it hget] at hconnect
        cases hconnect
      · exact hstatus hconnected
    cases factoryError with
    | some message =>
      obtain ⟨honce, hall⟩ := settled_next h.once hsettled hnew
      have hdue : (if s.attempts ∈ s.settledAttempts then s.callbacks
          else s.callbacks ++ [s.attempts]) = [s.attempts] := by
        rw [if_neg hnew, hcallbacks, List.nil_append]
      have hnames : (s.startAttempt (some message)).settledAttempts =
          s.settledAttempts ++ [s.attempts] :=
        settled_append s s.attempts (.rejected message)
      refine ⟨.resting hreject hcleanup hnone ?_ (.inr ⟨s.attempts, ?_, hdue, rfl⟩), ?_,
        fun attempt hmem => ?_, hcalls, h.inUse,
        fun i it hget hlive => absurd hlive (hunused i it hget), h.changes, h.forwarding,
        h.delivered⟩
      · rw [hnames]
        exact hall
      · rw [hnames]
        exact List.mem_append_right _ (List.mem_singleton_self _)
      · rw [hnames]
        exact honce
      · rw [hnames, List.mem_append, List.mem_singleton] at hmem
        rcases hmem with hmem | rfl
        · exact Nat.lt_succ_of_lt (h.known attempt hmem)
        · exact Nat.lt_succ_self _
    | none =>
      have hold {i : ℕ} {it : Socket} (hget : (s.startAttempt none).sockets[i]? = some it) :
          s.sockets[i]? = some it ∨
            i = s.sockets.length ∧ it = ⟨s.attempts, true, false, false, false, false⟩ := by
        rcases Nat.lt_trichotomy i s.sockets.length with hlt | heq | hgt
        · exact .inl ((List.getElem?_append_left hlt).symm.trans hget)
        · subst heq
          exact .inr ⟨rfl, (Option.some.inj (List.getElem?_concat_length.symm.trans hget)).symm⟩
        · have hlength := (List.getElem?_eq_some_iff.mp hget).1
          have happend : (s.startAttempt none).sockets.length = s.sockets.length + 1 :=
            List.length_append
          omega
      refine ⟨.opening s.sockets.length s.attempts rfl List.getElem?_concat_length
        (fun j it hj hget => ?_) rfl rfl rfl hcallbacks rfl hnew hsettled, h.once,
        fun attempt hmem => Nat.lt_succ_of_lt (h.known attempt hmem), hcalls,
        fun i it hget hruntime hunreported => ?_, fun i it hget hlive => ?_, h.changes,
        h.forwarding, h.delivered⟩
      · obtain hget | ⟨rfl, _⟩ := hold hget
        · exact hnone j it hget
        · exact absurd rfl hj
      · obtain hget | ⟨rfl, rfl⟩ := hold hget
        · rw [hclean it (List.mem_of_getElem? hget) hruntime] at hunreported
          cases hunreported
        · cases hruntime
      · obtain hget | ⟨rfl, rfl⟩ := hold hget
        · exact absurd hlive (hunused i it hget)
        · exact .inl rfl

theorem connect (h : s.Separate) (factoryError : Option String)
    (hclean : s.StartsClean (.connect factoryError)) : (s.connect factoryError).Separate := by
  rw [WebSocketTransport.connect]
  split_ifs with hconnected
  · exact h.join (by simp)
  cases hlatch : s.pendingConnectPromise with
  | some attempt =>
    refine h.join fun other hother => ?_
    cases hother
    exact h.pending_lt hlatch
  | none => exact h.startAttempt factoryError hconnected hlatch (hclean hconnected hlatch)

theorem disconnect_resting (hsocket : s.socket = some i) (hreject : s.connectReject = none)
    (hcleanup : s.cleanupConnectListeners = none) :
    s.disconnect =
      { s with
        status := .disconnected (some "WebSocket closed.")
        socket := none
        connectReject := none
        sockets := s.sockets.modify i fun it =>
          { it with runtimeListeners := false, closed := true } } := by
  unfold WebSocketTransport.disconnect
  simp only [hsocket, hreject, hcleanup, detachRuntimeListeners, modifySocket, Option.elim_none,
    List.modify_modify_eq]
  rfl

theorem disconnect_opening (hsocket : s.socket = some i) (hreject : s.connectReject = some attempt)
    (hcleanup : s.cleanupConnectListeners = some i) (hcallbacks : s.callbacks = [])
    (hpending : attempt ∉ s.settledAttempts) :
    s.disconnect =
      { s with
        status := .disconnected (some "WebSocket closed.")
        socket := none
        connectReject := none
        cleanupConnectListeners := none
        sockets := s.sockets.modify i fun it =>
          { it with connectListeners := false, runtimeListeners := false, closed := true }
        callbacks := [attempt]
        settlements := s.settlements ++
          [(attempt, .rejected "WebSocket connect aborted by disconnect.")] } := by
  unfold WebSocketTransport.disconnect
  simp only [hsocket, hreject, hcleanup, detachRuntimeListeners, modifySocket, Option.elim_some,
    cleanup, settle, List.modify_modify_eq]
  rw [settledAttempts] at hpending
  simp only [settledAttempts, hcallbacks, if_neg hpending]
  rfl

theorem drop (h : s.Separate) (hsocket : s.socket = some i) (hreject : s.connectReject = none)
    (hcleanup : s.cleanupConnectListeners = none)
    (hnone : ∀ (j : ℕ) (it : Socket), s.sockets[j]? = some it → it.connectListeners = false)
    (hsettled : ∀ attempt < s.attempts, attempt ∈ s.settledAttempts)
    (hlatch : s.callbacks = [] ∧ s.pendingConnectPromise = none ∨ ∃ attempt ∈ s.settledAttempts, s.callbacks = [attempt] ∧ s.pendingConnectPromise = some attempt) :
    s.disconnect.Separate := by
  rw [disconnect_resting hsocket hreject hcleanup]
  have hold {j : ℕ} {it : Socket} (hget : (s.sockets.modify i fun it =>
      { it with runtimeListeners := false, closed := true })[j]? = some it) :
      s.sockets[j]? = some it ∧ j ≠ i ∨
        it.connectListeners = false ∧ it.runtimeListeners = false ∧ it.closed = true := by
    by_cases hj : j = i
    · subst hj
      rw [List.getElem?_modify_eq] at hget
      obtain ⟨before, hbefore, rfl⟩ := Option.map_eq_some_iff.mp hget
      exact .inr ⟨hnone j before hbefore, rfl, rfl⟩
    · rw [List.getElem?_modify_ne _ _ (Ne.symm hj)] at hget
      exact .inl ⟨hget, hj⟩
  refine ⟨.resting rfl hcleanup (fun j it hget => ?_) hsettled hlatch, h.once, h.known, h.joined,
    fun j it hget hruntime hunreported => ?_, fun j it hget hlive => ?_, h.changes, h.forwarding,
    h.delivered⟩
  · obtain ⟨hget, _⟩ | ⟨hconnect, _⟩ := hold hget
    · exact hnone j it hget
    · exact hconnect
  · obtain ⟨hget, hj⟩ | ⟨_, hdetached, _⟩ := hold hget
    · have hcurrent := h.inUse j it hget hruntime hunreported
      exact absurd (Option.some.inj (hcurrent.symm.trans hsocket)) hj
    · rw [hdetached] at hruntime
      cases hruntime
  · obtain ⟨hget, hj⟩ | ⟨_, _, hclosed⟩ := hold hget
    · have hcurrent := h.current_of_live hget hlive
      exact absurd (Option.some.inj (hcurrent.symm.trans hsocket)) hj
    · rw [hlive.unclosed] at hclosed
      cases hclosed

theorem disconnect_none (hsocket : s.socket = none) :
    s.disconnect = { s with status := .disconnected (some "WebSocket already closed.") } := by
  unfold WebSocketTransport.disconnect
  rw [hsocket]

theorem disconnect_idle (h : s.Separate) (hsocket : s.socket = none) : s.disconnect.Separate := by
  rw [disconnect_none hsocket]
  cases h.phase with
  | resting hreject hcleanup hnone hsettled hlatch =>
    refine ⟨.resting hreject hcleanup hnone hsettled hlatch, h.once, h.known, h.joined, h.inUse,
      fun i it hget hlive => ?_, h.changes, h.forwarding, h.delivered⟩
    have hcurrent := h.current_of_live hget hlive
    rw [hsocket] at hcurrent
    cases hcurrent
  | opening i attempt hcurrent =>
    rw [hsocket] at hcurrent
    cases hcurrent

theorem disconnect (h : s.Separate) : s.disconnect.Separate := by
  cases hsocket : s.socket with
  | none => exact h.disconnect_idle hsocket
  | some i =>
    cases h.phase with
    | resting hreject hcleanup hnone hsettled hlatch =>
      exact h.drop hsocket hreject hcleanup hnone hsettled hlatch
    | opening j attempt hcurrent hget hothers hreject hcleanup hlatch hcallbacks hlast hpending
        hsettled =>
      rw [disconnect_opening hcurrent hreject hcleanup hcallbacks hpending]
      exact h.leave hcurrent hget hothers hlatch hlast hpending hsettled _ rfl rfl
        (fun hruntime => Bool.noConfusion hruntime) (fun hlive => Bool.noConfusion hlive.unclosed)
        h.changes

theorem settled_disconnect (h : s.Separate) :
    ∀ attempt < s.attempts, attempt ∈ s.disconnect.settledAttempts := by
  intro attempt hattempt
  cases h.phase with
  | resting hreject hcleanup _ hsettled _ =>
    cases hsocket : s.socket with
    | none =>
      rw [disconnect_none hsocket]
      exact hsettled attempt hattempt
    | some i =>
      rw [disconnect_resting hsocket hreject hcleanup]
      exact hsettled attempt hattempt
  | opening i pending hsocket _ _ hreject hcleanup _ hcallbacks hlast hpending hsettled =>
    rw [disconnect_opening hsocket hreject hcleanup hcallbacks hpending, settledAttempts,
      settled_append]
    exact (settled_next h.once hsettled hpending).2 attempt (hlast ▸ hattempt)

theorem of_reporting (h : s.reporting i = some it) :
    s.sockets[i]? = some it ∧ it.reportedClose = false := by
  obtain ⟨hget, hunreported⟩ := Option.filter_eq_some_iff.mp h
  exact ⟨hget, by simpa using hunreported⟩

theorem end_attempt (h : s.Separate) (hget : s.sockets[i]? = some it)
    (hconnect : it.connectListeners = true) (settlement : Settlement)
    (hlisteners : (f it).connectListeners = false)
    (hlive : (f it).Live → (f it).runtimeListeners = true ∧ status = .connected) :
    (s.ended i it.attempt f status settlement).Separate := by
  unfold ended
  cases h.phase with
  | resting _ _ hnone =>
    rw [hnone i it hget] at hconnect
    cases hconnect
  | opening j attempt hsocket hopening hothers hreject hcleanup hlatch hcallbacks hlast hpending
      hsettled =>
    have hij : i = j := by
      by_contra hij
      rw [hothers i it hij hget] at hconnect
      cases hconnect
    subst hij
    cases hget.symm.trans hopening
    rw [if_neg hpending, hcallbacks, List.nil_append]
    refine h.leave hsocket hget hothers hlatch hlast hpending hsettled settlement rfl hlisteners
      (fun _ => hsocket) hlive fun origin horigin => ?_
    rcases List.mem_append.mp horigin with horigin | horigin
    · exact h.changes origin horigin
    · rw [List.mem_singleton.mp horigin]
      exact hsocket

theorem report (h : s.Separate) (hget : s.sockets[i]? = some it)
    (hunreported : it.reportedClose = false) (hconnect : it.connectListeners = false)
    (hlisteners : (f it).connectListeners = false)
    (hattached : (f it).runtimeListeners = it.runtimeListeners) (hdead : ¬ (f it).Live)
    (status : TransportStatus) :
    Separate { s with sockets := s.sockets.modify i f } ∧
      (it.runtimeListeners = true →
        Separate
          { s with
            status := status
            sockets := s.sockets.modify i f
            changes := s.changes ++ [⟨i, s.socket⟩] }) := by
  refine ⟨h.mark hget hconnect hlisteners hattached (fun _ => hunreported) hdead (.inl rfl)
    h.changes, fun hruntime => ?_⟩
  have hcurrent := h.inUse i it hget hruntime hunreported
  refine h.mark hget hconnect hlisteners hattached (fun _ => hunreported) hdead (.inr hcurrent)
    fun origin horigin => ?_
  rcases List.mem_append.mp horigin with horigin | horigin
  · exact h.changes origin horigin
  · rw [List.mem_singleton.mp horigin]
    exact hcurrent

theorem dispatchOpen (h : s.Separate) (hget : s.reporting i = some it) :
    (s.dispatchOpen i it).Separate := by
  rw [WebSocketTransport.dispatchOpen]
  split_ifs with hconnect
  · have hopen : s.handleOpen i it.attempt = s.ended i it.attempt
        (fun it => { it with connectListeners := false, runtimeListeners := true }) .connected
        .resolved := by
      simp only [handleOpen, WebSocketTransport.cleanup, modifySocket, updateStatus, settle,
        settledAttempts, List.modify_modify_eq]
      rfl
    rw [hopen]
    exact h.end_attempt (of_reporting hget).1 hconnect .resolved rfl fun _ => ⟨rfl, rfl⟩
  · exact h

theorem dispatchMessage (h : s.Separate) (data : Data) (hget : s.reporting i = some it) :
    (s.dispatchMessage i data it).Separate := by
  obtain ⟨hget, hunreported⟩ := of_reporting hget
  rw [WebSocketTransport.dispatchMessage]
  split_ifs with hruntime
  · refine h.keep h.joined (fun frame hframe => ?_) h.delivered
    rcases List.mem_append.mp hframe with hframe | hframe
    · exact h.forwarding frame hframe
    · rw [List.mem_singleton.mp hframe]
      exact h.inUse i it hget hruntime hunreported
  · exact h

theorem dispatchError (h : s.Separate) (hget : s.reporting i = some it) :
    (s.dispatchError i it).Separate := by
  obtain ⟨hget, hunreported⟩ := of_reporting hget
  rw [WebSocketTransport.dispatchError]
  by_cases hconnect : it.connectListeners = true
  · have hfails : (s.modifySocket i fun it => { it with failed := true }).handleError i it.attempt =
        s.ended i it.attempt (fun it => { it with connectListeners := false, failed := true })
          (.error ("Failed to open WebSocket " ++ s.url ++ "."))
          (.rejected ("Failed to open WebSocket " ++ s.url ++ ".")) := by
      simp only [handleError, WebSocketTransport.cleanup, modifySocket, updateStatus, settle,
        settledAttempts, List.modify_modify_eq]
      rfl
    rw [if_pos hconnect, hfails]
    exact h.end_attempt hget hconnect _ rfl fun hlive => Bool.noConfusion hlive.working
  have hreport := h.report hget hunreported (Bool.not_eq_true _ ▸ hconnect)
    (f := fun it => { it with failed := true }) (Bool.not_eq_true _ ▸ hconnect) rfl
    (fun hlive => Bool.noConfusion hlive.working)
  rw [if_neg hconnect]
  split_ifs with hruntime
  · unfold handleRuntimeError
    split
    · exact (hreport _).2 hruntime
    · exact (hreport .idle).1
  · exact (hreport .idle).1

theorem dispatchClose (h : s.Separate) (event : CloseEvent) (hget : s.reporting i = some it) :
    (s.dispatchClose i event it).Separate := by
  obtain ⟨hget, hunreported⟩ := of_reporting hget
  rw [WebSocketTransport.dispatchClose]
  by_cases hconnect : it.connectListeners = true
  · have hcloses : (s.modifySocket i fun it =>
        { it with reportedClose := true }).handleCloseBeforeOpen i it.attempt event =
        s.ended i it.attempt (fun it => { it with connectListeners := false, reportedClose := true })
          (.disconnected (some (closeReason event "WebSocket closed before opening")))
          (.rejected (closeReason event "WebSocket closed before opening")) := by
      simp only [handleCloseBeforeOpen, WebSocketTransport.cleanup, modifySocket, updateStatus,
        settle, settledAttempts, List.modify_modify_eq]
      rfl
    rw [if_pos hconnect, hcloses]
    exact h.end_attempt hget hconnect _ rfl fun hlive => Bool.noConfusion hlive.unreported
  have hreport := h.report hget hunreported (Bool.not_eq_true _ ▸ hconnect)
    (f := fun it => { it with reportedClose := true }) (Bool.not_eq_true _ ▸ hconnect) rfl
    (fun hlive => Bool.noConfusion hlive.unreported)
  rw [if_neg hconnect]
  split_ifs with hruntime
  · unfold handleRuntimeClose
    dsimp only
    split
    · exact (hreport _).2 hruntime
    · exact (hreport .idle).1
  · exact (hreport .idle).1

theorem settled (h : s.Separate) (hdue : attempt ∈ s.callbacks) :
    Separate { s with pendingConnectPromise := none, callbacks := s.callbacks.erase attempt } := by
  cases h.phase with
  | opening _ _ _ _ _ _ _ _ hcallbacks =>
    rw [hcallbacks] at hdue
    cases hdue
  | resting hreject hcleanup hnone hsettled hlatch =>
    have herase : s.callbacks.erase attempt = [] := by
      obtain ⟨hcallbacks, _⟩ | ⟨other, _, hcallbacks, _⟩ := hlatch
      · rw [hcallbacks] at hdue
        cases hdue
      · rw [hcallbacks, List.mem_singleton] at hdue
        rw [hcallbacks, hdue, List.erase_cons_head]
    exact ⟨.resting hreject hcleanup hnone hsettled (.inl ⟨herase, rfl⟩), h.once, h.known, h.joined,
      h.inUse, h.live, h.changes, h.forwarding, h.delivered⟩

variable {t : WebSocketTransport}

theorem deliver (h : s.Separate) {frame : ℕ} (hdeliver : s.deliver frame = some t) :
    t.Separate := by
  obtain ⟨⟨origin, data⟩, hget, rfl⟩ := Option.map_eq_some_iff.mp hdeliver
  refine h.keep h.joined (fun other hother => h.forwarding other (List.mem_of_mem_eraseIdx hother))
    fun other hother => ?_
  rcases List.mem_append.mp hother with hother | hother
  · exact h.delivered other hother
  · obtain ⟨bytes, _, rfl⟩ := Option.map_eq_some_iff.mp (Option.mem_toList.mp hother)
    exact h.forwarding (origin, data) (List.mem_of_getElem? hget)

theorem step (h : s.Separate) {e : Event} (hclean : s.StartsClean e) (hstep : s.step e = some t) :
    t.Separate := by
  cases e with
  | connect factoryError =>
    cases hstep
    exact h.connect factoryError hclean
  | disconnect =>
    cases hstep
    exact h.disconnect
  | opens i =>
    obtain ⟨it, hget, rfl⟩ := Option.map_eq_some_iff.mp hstep
    exact h.dispatchOpen hget
  | message i data =>
    obtain ⟨it, hget, rfl⟩ := Option.map_eq_some_iff.mp hstep
    exact h.dispatchMessage data hget
  | error i =>
    obtain ⟨it, hget, rfl⟩ := Option.map_eq_some_iff.mp hstep
    exact h.dispatchError hget
  | close i event =>
    obtain ⟨it, hget, rfl⟩ := Option.map_eq_some_iff.mp hstep
    exact h.dispatchClose event hget
  | settled attempt =>
    rw [WebSocketTransport.step] at hstep
    split_ifs at hstep with hdue
    cases hstep
    exact h.settled hdue
  | normalized frame => exact h.deliver hstep

theorem isolated (h : s.Separate) : s.Isolated where
  changes := h.changes
  delivered := h.delivered
  settled_once := h.once
  settled_by_disconnect call hcall attempt hattempt :=
    h.settled_disconnect attempt (h.joined call hcall attempt hattempt)
  one_live _ _ _ _ hi hj hit hother := Option.some.inj
    ((h.current_of_live hi hit).symm.trans (h.current_of_live hj hother))

end Separate

/-- While every attempt begins with no socket attached that is yet to report its close, the sessions
of a transport are isolated. -/
theorem sessions_isolated {id url : String} {events : List Event} {s : WebSocketTransport}
    (hclean : Runs.Along step StartsClean (new id url) events)
    (hrun : Runs.run step (new id url) events = some s) : s.Isolated :=
  (Runs.run_invariant_along (fun _ _ _ h hclean hstep => h.step hclean hstep) (separate_new id url)
    hclean hrun).isolated

def reconnection : List Event :=
  [.connect none, .opens 0, .settled 0, .message 0 (.arrayBuffer [0xFD]), .normalized 0, .error 0,
    .close 0 ⟨1006, ""⟩, .connect none, .opens 1, .settled 1, .disconnect]

theorem reconnection_isolated :
    ∃ s, Runs.run step (new "websocket" "ws://127.0.0.1:5760") reconnection = some s ∧
      s.Isolated := by
  have hclean : Runs.Along step StartsClean (new "websocket" "ws://127.0.0.1:5760")
      reconnection := by
    decide
  exact ⟨_, rfl, sessions_isolated hclean rfl⟩

/-- The first socket fails, a second one opens, and the close of the first takes the status of the
second away. -/
theorem late_close_disconnects :
    ∃ s, Runs.run step (new "websocket" "ws://127.0.0.1:5760")
      [.connect none, .opens 0, .settled 0, .error 0, .connect none, .opens 1, .settled 1,
        .close 0 ⟨1006, "gone"⟩] = some s ∧
      s.socket = some 1 ∧ s.sockets[1]? = some ⟨1, false, true, false, false, false⟩ ∧
      s.status = .disconnected (some "gone") ∧ ¬ s.Isolated :=
  ⟨_, rfl, rfl, rfl, rfl, fun h => absurd (h.changes ⟨0, some 1⟩ (by decide)) (by decide)⟩

end WebSocketTransport

end ArduConfigurator.Transport.WebSocket
