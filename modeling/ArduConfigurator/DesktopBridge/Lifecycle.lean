import ArduConfigurator.Lib.Strings
import ArduConfigurator.Lib.Runs

/-! # The lifecycle of the bridge

`websocket-bridge-server.ts`: how a request to upgrade is judged, where parsing a URL and hashing a
token are parameters and a malformed URL makes the handler throw; then the upgrade handler, the
callback of a closed client and the closing of the server, which share the active client and the
connection of the transport. A handler that waits for the transport goes on when its connect settles;
then the closes that wait for that connect go on. -/
namespace ArduConfigurator.DesktopBridge
open Runs
set_option autoImplicit false

/-! ## Upgrade requests -/

structure Url where
  protocol : Text
  host : Text
  hostname : Text
  pathname : Text
  token : Option Text

/-- `new URL(text)` and `new URL(text, 'http://127.0.0.1')`; nothing where it throws. -/
structure UrlParser where
  absolute : Text → Option Url
  relative : Text → Option Url

structure Request where
  upgrade : Option Text
  url : Option Text
  origin : Option Text
  remoteAddress : Option Text
  key : Option Text

structure BridgeOptions where
  route : Option Text
  allowedOrigins : List Text
  authToken : Option Text

structure Rejection where
  statusCode : ℕ
  message : Text

/-! ## The checks -/

def normalizeRoute (route : Option Text) : Text :=
  match route with
  | none => units "/"
  | some route =>
    if trim route = [] then units "/"
    else if units "/" <+: route then route
    else units "/" ++ route

def lowerCase (text : Text) : Text :=
  text.map fun c => if 0x41 ≤ c ∧ c ≤ 0x5A then c + 0x20 else c

variable (urls : UrlParser) (sha256 : Text → List UInt8)

def requestUrl (request : Request) : Except Unit Url :=
  match urls.relative (request.url.getD (units "/")) with
  | some url => .ok url
  | none => .error ()

def isUpgradeRequestForRoute (request : Request) (route : Text) : Except Unit Bool :=
  match request.upgrade with
  | none => .ok false
  | some header =>
    if lowerCase header = units "websocket" then
      (requestUrl urls request).map fun url => url.pathname = route
    else .ok false

def isLoopbackAddress (address : Option Text) : Bool :=
  address.any fun address =>
    [units "127.0.0.1", units "::1", units "::ffff:127.0.0.1"].contains address

def canonicalOrigin (url : Url) : Text := url.protocol ++ units "//" ++ url.host

def normalizeAllowedOrigins (origins : List Text) : List Text :=
  ((origins.map trim).filter (· ≠ [])).map fun entry =>
    (urls.absolute entry).elim entry canonicalOrigin

def isOriginAllowed (request : Request) (extraAllowedOrigins : List Text) : Bool :=
  match request.origin with
  | none => isLoopbackAddress request.remoteAddress
  | some rawOrigin =>
    if rawOrigin = [] then isLoopbackAddress request.remoteAddress
    else
      match urls.absolute rawOrigin with
      | none => false
      | some parsed =>
        ((parsed.protocol = units "http:" ∨ parsed.protocol = units "https:") ∧
          [units "127.0.0.1", units "localhost", units "[::1]", units "::1"].contains
            parsed.hostname) ∨
        extraAllowedOrigins.contains (canonicalOrigin parsed) ∨
          extraAllowedOrigins.contains rawOrigin

def extractToken (request : Request) : Except Unit (Option Text) :=
  (requestUrl urls request).map fun url => url.token.filter (· ≠ [])

def tokenMatches (provided : Option Text) (expected : Text) : Bool :=
  provided.any fun provided => provided ≠ [] && sha256 provided = sha256 expected

def requiredToken (options : BridgeOptions) : Option Text :=
  (options.authToken.map trim).filter (· ≠ [])

def tokenMissing (options : BridgeOptions) (request : Request) : Except Unit Bool :=
  match requiredToken options with
  | none => .ok false
  | some expected => (extractToken urls request).map fun token => !tokenMatches sha256 token expected

/-- The handler up to the handshake: the handler throws, or rejects the request, or accepts it. -/
def judge (options : BridgeOptions) (closing active : Bool) (request : Request) :
    Except Unit (Option Rejection) := do
  if closing then return some ⟨503, units "Bridge is closing."⟩
  if !(← isUpgradeRequestForRoute urls request (normalizeRoute options.route)) then
    return some ⟨404, units "Route not found."⟩
  if !isOriginAllowed urls request (normalizeAllowedOrigins urls options.allowedOrigins) then
    return some ⟨403, units "Origin not allowed."⟩
  if ← tokenMissing urls sha256 options request then
    return some ⟨401, units "Bridge authentication required."⟩
  if active then return some ⟨409, units "Bridge already has an active client."⟩
  match request.key with
  | none => return some ⟨400, units "Missing Sec-WebSocket-Key."⟩
  | some key =>
    if key = [] then return some ⟨400, units "Missing Sec-WebSocket-Key."⟩
    return none

variable {urls sha256}

theorem judge_accepts {options : BridgeOptions} {closing active : Bool} {request : Request}
    (h : judge urls sha256 options closing active request = .ok none) :
    closing = false ∧ active = false := by
  unfold judge at h
  cases closing with
  | true => simp [pure, Except.pure] at h
  | false =>
    cases active with
    | false => exact ⟨rfl, rfl⟩
    | true =>
      cases hroute : isUpgradeRequestForRoute urls request (normalizeRoute options.route) with
      | error error => simp [hroute, bind, Except.bind] at h
      | ok routed =>
        cases htoken : tokenMissing urls sha256 options request with
        | error error =>
          simp only [hroute, htoken, bind, Except.bind, pure, Except.pure] at h
          split_ifs at h
          all_goals cases h
        | ok missing =>
          simp only [hroute, htoken, bind, Except.bind, pure, Except.pure] at h
          split_ifs at h
          all_goals cases h

/-! ## The server -/

/-- The variables of the server, the connects and disconnects of the transport that have not
settled, and the closes that wait for a connect. A connect is known by the client it is for. -/
structure BridgeState where
  activeClient : Option ℕ
  transportConnected : Bool
  activeTransportConnect : Option ℕ
  closing : Bool
  /-- The clients whose `handleClosed` has run. -/
  closedClients : List ℕ
  /-- The clients whose sockets the bridge has neither ended nor destroyed and that are not
  closed. -/
  openClients : List ℕ
  nextClient : ℕ
  connects : List ℕ
  disconnecting : ℕ
  closers : List ℕ
  /-- The transport has connected, and has not been told to disconnect since. -/
  linkUp : Bool
  deriving DecidableEq

inductive BridgeEvent
  | upgrade (request : Request)
  | connectSettles (client : ℕ) (connected : Bool)
  | clientCloses (client : ℕ)
  | clientEnded (client : ℕ)
  | disconnectSettles
  | serverClose

namespace BridgeState

def initial : BridgeState :=
  { activeClient := none
    transportConnected := false
    activeTransportConnect := none
    closing := false
    closedClients := []
    openClients := []
    nextClient := 0
    connects := []
    disconnecting := 0
    closers := []
    linkUp := false }

/-- `if (transportConnected) { transportConnected = false; await transport.disconnect() }`. -/
def disconnect (s : BridgeState) : BridgeState :=
  if s.transportConnected then
    { s with transportConnected := false, linkUp := false, disconnecting := s.disconnecting + 1 }
  else s

/-- The `catch` of the upgrade handler, for the socket of a client or for none. -/
def fail (s : BridgeState) (socket : Option ℕ) : BridgeState :=
  disconnect
    { s with
      activeClient := none
      openClients := s.openClients.filter fun c => some c ≠ socket }

def accept (s : BridgeState) : BridgeState :=
  let client := s.nextClient
  let s :=
    { s with
      activeClient := some client
      openClients := client :: s.openClients
      nextClient := client + 1 }
  if s.transportConnected then s
  else { s with activeTransportConnect := some client, connects := client :: s.connects }

def afterConnect (s : BridgeState) (client : ℕ) (connected : Bool) : BridgeState :=
  let s :=
    { s with activeTransportConnect := none, connects := s.connects.filter (· ≠ client) }
  if connected then { s with transportConnected := true, linkUp := true }
  else s.fail (some client)

def resumeClosers (s : BridgeState) (client : ℕ) : BridgeState :=
  if client ∈ s.closers then
    disconnect { s with closers := s.closers.filter (· ≠ client) }
  else s

def handleClosed (s : BridgeState) (client : ℕ) : BridgeState :=
  if client ∈ s.closedClients then s
  else
    let s :=
      { s with
        closedClients := client :: s.closedClients
        openClients := s.openClients.filter (· ≠ client) }
    if s.activeClient = some client then disconnect { s with activeClient := none } else s

/-- `close()` of a client: its socket is ended. -/
def endClient (s : BridgeState) (client : ℕ) : BridgeState :=
  { s with openClients := s.openClients.filter (· ≠ client) }

/-- `close()` of the server, as far as its first wait. -/
def close (s : BridgeState) : BridgeState :=
  let s := { s.activeClient.elim s s.endClient with closing := true, activeClient := none }
  match s.activeTransportConnect with
  | some connect => { s with closers := connect :: s.closers }
  | none => s.disconnect

end BridgeState

variable (urls : UrlParser) (sha256 : Text → List UInt8) (options : BridgeOptions)

def judgeIn (s : BridgeState) (request : Request) : Except Unit (Option Rejection) :=
  judge urls sha256 options s.closing s.activeClient.isSome request

def bridgeStep (s : BridgeState) : BridgeEvent → Option BridgeState
  | .upgrade request =>
    match judgeIn urls sha256 options s request with
    | .error _ => some (s.fail none)
    | .ok (some _) => some s
    | .ok none => some s.accept
  | .connectSettles client connected =>
    if client ∈ s.connects then
      some ((s.afterConnect client connected).resumeClosers client)
    else none
  | .clientCloses client => if client < s.nextClient then some (s.handleClosed client) else none
  | .clientEnded client => some (s.endClient client)
  | .disconnectSettles =>
    if 0 < s.disconnecting then some { s with disconnecting := s.disconnecting - 1 } else none
  | .serverClose => some s.close

/-! ## What is promised -/

/-- Every client that the bridge serves is the active one, and without one the transport is not
left connected. -/
structure BridgeState.Safe (s : BridgeState) : Prop where
  one : ∀ client ∈ s.openClients, s.activeClient = some client
  released : s.activeClient = none → s.connects = [] → s.disconnecting = 0 → s.linkUp = false

/-- The client stays active and served, and its transport connected or connecting. -/
structure Untouched (client : ℕ) (s t : BridgeState) : Prop where
  active : t.activeClient = some client
  served : client ∈ s.openClients → client ∈ t.openClients
  link : t.linkUp = s.linkUp
  disconnecting : t.disconnecting = s.disconnecting
  connecting : client ∈ s.connects → client ∈ t.connects
  waiting : t.activeTransportConnect = s.activeTransportConnect

/-- The event is an upgrade request of another client that is rejected or fails. -/
def Refuses (s : BridgeState) (client : ℕ) : BridgeEvent → Prop
  | .upgrade request => judgeIn urls sha256 options s request ≠ .ok none
  | .connectSettles other connected => other ≠ client ∧ connected = false
  | _ => False

/-- A refused upgrade leaves the active client and its transport as they are. -/
def Respects (s : BridgeState) (event : BridgeEvent) : Prop :=
  ∀ client t, s.activeClient = some client → Refuses urls sha256 options s client event →
    bridgeStep urls sha256 options s event = some t → Untouched client s t

/-! ## When it holds -/

/-- A request that makes the handler throw comes while no client is active; a connect succeeds
while a client is active or a close waits for a connect; a connect fails while no other client is
active. -/
def Orderly (s : BridgeState) : BridgeEvent → Prop
  | .upgrade request =>
    judgeIn urls sha256 options s request = .error () → s.activeClient = none
  | .connectSettles client connected =>
    if connected then s.activeClient ≠ none ∨ s.closers ≠ []
    else s.activeClient = none ∨ s.activeClient = some client
  | _ => True

/-! ## The invariant -/

namespace BridgeState

section disconnect
variable (s : BridgeState)

@[simp] theorem disconnect_activeClient : s.disconnect.activeClient = s.activeClient := by
  unfold disconnect; split <;> rfl

@[simp] theorem disconnect_openClients : s.disconnect.openClients = s.openClients := by
  unfold disconnect; split <;> rfl

@[simp] theorem disconnect_waiting :
    s.disconnect.activeTransportConnect = s.activeTransportConnect := by
  unfold disconnect; split <;> rfl

@[simp] theorem disconnect_connects : s.disconnect.connects = s.connects := by
  unfold disconnect; split <;> rfl

@[simp] theorem disconnect_closers : s.disconnect.closers = s.closers := by
  unfold disconnect; split <;> rfl

@[simp] theorem disconnect_transportConnected : s.disconnect.transportConnected = false := by
  unfold disconnect
  split
  · rfl
  · next h => exact Bool.eq_false_iff.mpr h

variable {s} in
theorem disconnect_linkUp (h : s.linkUp = s.transportConnected) : s.disconnect.linkUp = false := by
  unfold disconnect
  split
  · rfl
  · next hconnected => rw [h, Bool.eq_false_iff.mpr hconnected]

end disconnect

structure Invariant (s : BridgeState) : Prop where
  one : ∀ client ∈ s.openClients, s.activeClient = some client
  link : s.linkUp = s.transportConnected
  waiting : ∀ client, s.activeTransportConnect = some client → client ∈ s.connects
  closers : ∀ client ∈ s.closers, client ∈ s.connects
  held : s.transportConnected = true → s.activeClient ≠ none ∨ s.closers ≠ []

theorem invariant_initial : Invariant initial where
  one client hclient := absurd hclient List.not_mem_nil
  link := rfl
  waiting client h := by cases h
  closers client hclient := absurd hclient List.not_mem_nil
  held h := by cases h

variable {s : BridgeState}

theorem Invariant.safe (h : Invariant s) : s.Safe := by
  refine ⟨h.one, fun hnone hconnects _ => ?_⟩
  rw [h.link]
  refine Bool.eq_false_iff.mpr fun hconnected => ?_
  rcases h.held hconnected with hactive | hclosers
  · exact hactive hnone
  · obtain ⟨client, hclient⟩ := List.exists_mem_of_ne_nil _ hclosers
    have hmem := h.closers client hclient
    rw [hconnects] at hmem
    cases hmem

theorem Invariant.disconnect (one : ∀ client ∈ s.openClients, s.activeClient = some client)
    (link : s.linkUp = s.transportConnected)
    (waiting : ∀ client, s.activeTransportConnect = some client → client ∈ s.connects)
    (closers : ∀ client ∈ s.closers, client ∈ s.connects) : Invariant s.disconnect := by
  refine ⟨by simpa using one, ?_, by simpa using waiting, by simpa using closers, by simp⟩
  rw [disconnect_transportConnected, disconnect_linkUp link]

theorem Invariant.accept (h : Invariant s) (hnone : s.activeClient = none) :
    Invariant s.accept := by
  have hopen : s.openClients = [] := by
    refine List.eq_nil_iff_forall_not_mem.mpr fun client hclient => ?_
    have hactive := h.one client hclient
    rw [hnone] at hactive
    cases hactive
  unfold BridgeState.accept
  dsimp only
  split
  · exact ⟨by simp [hopen], h.link, h.waiting, h.closers, fun _ => .inl (by simp)⟩
  · exact ⟨by simp [hopen], h.link, by simp,
      fun client hclient => List.mem_cons_of_mem _ (h.closers client hclient),
      fun _ => .inl (by simp)⟩

theorem Invariant.handleClosed (h : Invariant s) (client : ℕ) :
    Invariant (s.handleClosed client) := by
  unfold BridgeState.handleClosed
  split
  · exact h
  · dsimp only
    split
    · next hactive =>
      refine .disconnect (fun other hother => ?_) h.link h.waiting h.closers
      obtain ⟨hmem, hne⟩ := List.mem_filter.mp hother
      have hother := h.one other hmem
      rw [hactive] at hother
      exact absurd (Option.some.inj hother).symm (of_decide_eq_true hne)
    · exact ⟨fun other hother => h.one other (List.mem_filter.mp hother).1, h.link, h.waiting,
        h.closers, h.held⟩

theorem Invariant.endClient (h : Invariant s) (client : ℕ) :
    Invariant (s.endClient client) :=
  ⟨fun other hother => h.one other (List.mem_filter.mp hother).1, h.link, h.waiting, h.closers,
    h.held⟩

theorem Invariant.close (h : Invariant s) : Invariant s.close := by
  have hopen : ∀ client ∈ (s.activeClient.elim s s.endClient).openClients, False := by
    intro client hclient
    cases hactive : s.activeClient with
    | none =>
      rw [hactive] at hclient
      have hone := h.one client hclient
      rw [hactive] at hone
      cases hone
    | some active =>
      rw [hactive] at hclient
      obtain ⟨hmem, hne⟩ := List.mem_filter.mp hclient
      have hone := h.one client hmem
      rw [hactive] at hone
      exact absurd (Option.some.inj hone).symm (of_decide_eq_true hne)
  have hended : Invariant (s.activeClient.elim s s.endClient) := by
    cases s.activeClient with
    | none => exact h
    | some active => exact h.endClient active
  unfold BridgeState.close
  dsimp only
  split
  · next connect hwaiting =>
    refine ⟨fun client hclient => (hopen client hclient).elim, hended.link, hended.waiting,
      fun client hclient => ?_, fun _ => .inr (List.cons_ne_nil _ _)⟩
    rcases List.mem_cons.mp hclient with rfl | hclient
    · exact hended.waiting _ hwaiting
    · exact hended.closers client hclient
  · exact .disconnect (fun client hclient => (hopen client hclient).elim) hended.link
      hended.waiting hended.closers

theorem Invariant.resumeClosers {client : ℕ}
    (one : ∀ client ∈ s.openClients, s.activeClient = some client)
    (link : s.linkUp = s.transportConnected)
    (waiting : ∀ client, s.activeTransportConnect = some client → client ∈ s.connects)
    (closers : ∀ other ∈ s.closers, other ≠ client → other ∈ s.connects)
    (held : s.transportConnected = true → s.activeClient ≠ none ∨ s.closers ≠ []) :
    Invariant (s.resumeClosers client) := by
  unfold BridgeState.resumeClosers
  split
  · refine .disconnect one link waiting fun other hother => ?_
    obtain ⟨hmem, hne⟩ := List.mem_filter.mp hother
    exact closers other hmem (of_decide_eq_true hne)
  · next hnot =>
    exact ⟨one, link, waiting, fun other hother =>
      closers other hother fun heq => hnot (heq ▸ hother), held⟩

end BridgeState

open BridgeState

variable {s : BridgeState} {event : BridgeEvent}

theorem invariant_step {t : BridgeState} (h : Invariant s)
    (horderly : Orderly urls sha256 options s event)
    (hstep : bridgeStep urls sha256 options s event = some t) : Invariant t := by
  cases event with
  | upgrade request =>
    unfold bridgeStep at hstep
    dsimp only at hstep
    split at hstep
    · next hthrows =>
      cases hstep
      have hnone := horderly hthrows
      refine .disconnect (fun client hclient => ?_) h.link h.waiting h.closers
      have hone := h.one client (List.mem_filter.mp hclient).1
      rw [hnone] at hone
      cases hone
    · cases hstep
      exact h
    · next haccepts =>
      cases hstep
      have hactive := (judge_accepts haccepts).2
      exact h.accept (Option.not_isSome_iff_eq_none.mp (Bool.eq_false_iff.mp hactive))
  | connectSettles client connected =>
    unfold bridgeStep at hstep
    dsimp only at hstep
    split at hstep
    · cases hstep
      have hclosers : ∀ other ∈ s.closers, other ≠ client →
          other ∈ s.connects.filter (· ≠ client) := fun other hother hne =>
        List.mem_filter.mpr ⟨h.closers other hother, decide_eq_true hne⟩
      cases connected with
      | true => exact .resumeClosers h.one rfl (by simp [afterConnect]) hclosers fun _ => horderly
      | false =>
        refine .resumeClosers (fun other hother => ?_) ?_ (by simp [afterConnect, fail])
          (by simpa [afterConnect, fail] using hclosers) (by simp [afterConnect, fail])
        · simp only [afterConnect, fail, Bool.false_eq_true, if_false, disconnect_openClients,
            disconnect_activeClient, List.mem_filter, ne_eq, Option.some.injEq, decide_not,
            Bool.not_eq_eq_eq_not, Bool.not_true, decide_eq_false_iff_not] at hother ⊢
          have hone := h.one other hother.1
          rcases horderly with hnone | hown
          · rw [hnone] at hone
            cases hone
          · rw [hown] at hone
            exact absurd (Option.some.inj hone).symm hother.2
        · rw [show (s.afterConnect client false).transportConnected = false from
            disconnect_transportConnected _]
          exact disconnect_linkUp h.link
    · cases hstep
  | clientCloses client =>
    unfold bridgeStep at hstep
    dsimp only at hstep
    split at hstep
    · cases hstep
      exact h.handleClosed client
    · cases hstep
  | clientEnded client =>
    cases hstep
    exact h.endClient client
  | disconnectSettles =>
    unfold bridgeStep at hstep
    dsimp only at hstep
    split at hstep
    · cases hstep
      exact ⟨h.one, h.link, h.waiting, h.closers, h.held⟩
    · cases hstep
  | serverClose =>
    cases hstep
    exact h.close

theorem respects_of_orderly (h : Orderly urls sha256 options s event) :
    Respects urls sha256 options s event := by
  intro client t hactive hrefuses hstep
  cases event with
  | upgrade request =>
    unfold bridgeStep at hstep
    dsimp only at hstep
    split at hstep
    · next hthrows =>
      rw [h hthrows] at hactive
      cases hactive
    · cases hstep
      exact ⟨hactive, id, rfl, rfl, id, rfl⟩
    · next haccepts => exact absurd haccepts hrefuses
  | connectSettles other connected =>
    obtain ⟨hne, rfl⟩ := hrefuses
    rcases h with hnone | hother
    · rw [hnone] at hactive
      cases hactive
    · rw [hother] at hactive
      exact absurd (Option.some.inj hactive) hne
  | clientCloses => cases hrefuses
  | clientEnded => cases hrefuses
  | disconnectSettles => cases hrefuses
  | serverClose => cases hrefuses

/-- Along every orderly run the bridge serves the active client alone, refused upgrades leave it
and its transport as they are, and without a client the transport is released. -/
theorem lifecycle_of_orderly {events : List BridgeEvent} {s : BridgeState}
    (horderly : Along (bridgeStep urls sha256 options) (Orderly urls sha256 options) .initial events)
    (hrun : run (bridgeStep urls sha256 options) .initial events = some s) :
    s.Safe ∧ Along (bridgeStep urls sha256 options) (Respects urls sha256 options) .initial
      events := by
  refine ⟨Invariant.safe ?_, horderly.mono fun _ _ => respects_of_orderly urls sha256 options⟩
  exact run_invariant_along (fun _ _ _ h hcond hstep =>
    invariant_step urls sha256 options h hcond hstep) invariant_initial horderly hrun

/-! A parser that knows two request targets, and a bridge without a token. -/

def someUrl (pathname : Text) : Url := ⟨units "http:", units "127.0.0.1", units "127.0.0.1",
  pathname, none⟩

/-- The target `//` has an empty host. -/
def fewUrls : UrlParser :=
  ⟨fun _ => none, fun text => if text = units "//" then none else some (someUrl text)⟩

def plainOptions : BridgeOptions := ⟨none, [], none⟩

def requestTo (target : Text) : Request :=
  ⟨some (units "websocket"), some target, none, some (units "127.0.0.1"), some (units "key")⟩

instance (s : BridgeState) (request : Request) :
    Decidable (judgeIn urls sha256 options s request = .error ()) :=
  match judgeIn urls sha256 options s request with
  | .error () => isTrue rfl
  | .ok _ => isFalse fun h => by cases h

instance (s : BridgeState) (event : BridgeEvent) :
    Decidable (Orderly urls sha256 options s event) :=
  match event with
  | .upgrade request => inferInstanceAs (Decidable
      (judgeIn urls sha256 options s request = .error () → s.activeClient = none))
  | .connectSettles client connected => inferInstanceAs (Decidable
      (if connected then s.activeClient ≠ none ∨ s.closers ≠ []
        else s.activeClient = none ∨ s.activeClient = some client))
  | .clientCloses _ => isTrue trivial
  | .clientEnded _ => isTrue trivial
  | .disconnectSettles => isTrue trivial
  | .serverClose => isTrue trivial

def reconnect : List BridgeEvent :=
  [.upgrade (requestTo (units "/")), .connectSettles 0 true, .upgrade (requestTo (units "/")),
    .clientCloses 0, .upgrade (requestTo (units "//")), .upgrade (requestTo (units "/")),
    .serverClose, .connectSettles 1 true, .disconnectSettles, .disconnectSettles]

theorem reconnect_released :
    ∃ s, run (bridgeStep fewUrls (fun _ => []) plainOptions) .initial reconnect = some s ∧
      s.Safe :=
  have horderly : Along (bridgeStep fewUrls (fun _ => []) plainOptions)
      (Orderly fewUrls (fun _ => []) plainOptions) .initial reconnect := by decide
  ⟨_, rfl, (lifecycle_of_orderly fewUrls (fun _ => []) plainOptions horderly rfl).1⟩

/-- A malformed request ends the session of the active client. -/
theorem malformed_upgrade_disconnects :
    ¬∀ (urls : UrlParser) (sha256 : Text → List UInt8) (options : BridgeOptions)
        (events : List BridgeEvent) (s : BridgeState),
      run (bridgeStep urls sha256 options) .initial events = some s →
        s.Safe ∧ Along (bridgeStep urls sha256 options) (Respects urls sha256 options) .initial
          events := by
  intro h
  obtain ⟨_, hfirst⟩ := h fewUrls (fun _ => []) plainOptions
    [.upgrade (requestTo (units "/")), .connectSettles 0 true, .upgrade (requestTo (units "//"))] _
    rfl
  have hmalformed := ((hfirst.2 _ rfl).2 _ rfl).1 0 _ rfl (by
    show judgeIn _ _ _ _ _ ≠ _
    intro haccepts
    cases (judge_accepts haccepts).2) rfl
  exact absurd hmalformed.active (by decide)

end ArduConfigurator.DesktopBridge
