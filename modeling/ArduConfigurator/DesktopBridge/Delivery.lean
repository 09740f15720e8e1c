import ArduConfigurator.DesktopBridge.Client

/-! # Delivery of a client's frames

What the drains of a client have read so far are whole frames from the front of its stream, and the
sends that they have started or that wait for the connect are the payloads of the binary frames
among them, up to the first close frame. -/
namespace ArduConfigurator.DesktopBridge
open Runs ClientState
set_option autoImplicit false

/-! ## What is to be sent -/

def sendable : List (ℕ × Bytes) → List Bytes
  | [] => []
  | (opcode, payload) :: rest =>
    if opcode = CLOSE then []
    else if opcode = BINARY then payload :: sendable rest
    else sendable rest

variable {a : List (ℕ × Bytes)}

theorem sendable_append_of_close (h : ∃ frame ∈ a, frame.1 = CLOSE) (b : List (ℕ × Bytes)) :
    sendable (a ++ b) = sendable a := by
  induction a with
  | nil => simp at h
  | cons frame a ih =>
    rw [List.cons_append, sendable, sendable]
    split
    · rfl
    · next hopen =>
      have hrest : ∃ frame ∈ a, frame.1 = CLOSE := by
        obtain ⟨other, hother, hclose⟩ := h
        rcases List.mem_cons.mp hother with rfl | hother
        · exact absurd hclose hopen
        · exact ⟨other, hother, hclose⟩
      rw [ih hrest]

theorem sendable_append_of_open (h : ∀ frame ∈ a, frame.1 ≠ CLOSE) (b : List (ℕ × Bytes)) :
    sendable (a ++ b) = sendable a ++ sendable b := by
  induction a with
  | nil => rfl
  | cons frame a ih =>
    obtain ⟨hframe, ha⟩ := List.forall_mem_cons.mp h
    rw [List.cons_append, sendable, sendable, if_neg hframe, if_neg hframe, ih ha]
    split <;> rfl

theorem sendable_prefix {b : List (ℕ × Bytes)} (h : a <+: b) : sendable a <+: sendable b := by
  obtain ⟨c, rfl⟩ := h
  by_cases hclose : ∃ frame ∈ a, frame.1 = CLOSE
  · rw [sendable_append_of_close hclose]
  · rw [sendable_append_of_open fun frame hframe h => hclose ⟨frame, hframe, h⟩]
    exact List.prefix_append _ _

theorem sendable_concat_other (a : List (ℕ × Bytes)) {frame : ℕ × Bytes} (h : frame.1 ≠ BINARY) :
    sendable (a ++ [frame]) = sendable a := by
  by_cases hclose : ∃ frame ∈ a, frame.1 = CLOSE
  · exact sendable_append_of_close hclose _
  · rw [sendable_append_of_open fun frame hframe h => hclose ⟨frame, hframe, h⟩]
    simp [sendable, h]

theorem sendable_concat_binary (h : ∀ frame ∈ a, frame.1 ≠ CLOSE) (payload : Bytes) :
    sendable (a ++ [(BINARY, payload)]) = sendable a ++ [payload] := by
  rw [sendable_append_of_open h]
  rfl

/-! ## What has been read -/

structure RawFrame where
  raw : Bytes
  opcode : ℕ
  payload : Bytes
  two_le : 2 ≤ raw.length
  decodes : ∀ more, decodeWebSocketFrame (raw ++ more) = .ok (some ⟨opcode, payload, more⟩)

def RawFrame.kind (f : RawFrame) : ℕ × Bytes := (f.opcode, f.payload)

def rawBytes (frames : List RawFrame) : Bytes := frames.flatMap RawFrame.raw

/-- The frames have been read from the stream, and what they ask for is sent or waits. -/
structure Reads (s : ClientState) (frames : List RawFrame) : Prop where
  stream : s.stream = rawBytes frames ++ s.buffer
  sent : s.started ++ s.waiting = sendable (frames.map RawFrame.kind)
  finished : s.finished = true ↔ ∃ f ∈ frames.map RawFrame.kind, f.1 = CLOSE
  settled : s.link ≠ .connecting → s.waiting = []

def Idle (s : ClientState) : Prop :=
  s.drains = [] → s.finished = true ∨ ∀ decoded,
    decodeWebSocketFrame s.buffer ≠ .ok (some decoded)

variable {s : ClientState} {frames : List RawFrame}

theorem Reads.next (h : Reads s frames) {decoded : Decoded}
    (hdecode : decodeWebSocketFrame s.buffer = .ok (some decoded)) :
    ∃ f : RawFrame, f.opcode = decoded.opcode ∧ f.payload = decoded.payload ∧
      s.stream = rawBytes (frames ++ [f]) ++ decoded.remaining := by
  obtain ⟨raw, htwo, hbuffer, hdecodes⟩ := decodeWebSocketFrame_split hdecode
  refine ⟨⟨raw, decoded.opcode, decoded.payload, htwo, hdecodes⟩, rfl, rfl, ?_⟩
  rw [h.stream, hbuffer]
  simp [rawBytes]

theorem reads_drain {fuel : ℕ} (h : Reads s frames) (hfuel : s.buffer.length ≤ fuel)
    (hready : ReachesBinary s.buffer → s.finished = false ∧ s.link ≠ .down) :
    ∃ frames', Reads (drain fuel s) frames' ∧ Idle (drain fuel s) := by
  induction fuel generalizing s frames with
  | zero =>
    have hnil := List.length_eq_zero_iff.mp (Nat.le_zero.mp hfuel)
    refine ⟨frames, h, fun _ => .inr fun decoded => ?_⟩
    show decodeWebSocketFrame s.buffer ≠ _
    rw [hnil, decodeWebSocketFrame_nil]
    exact fun h => by cases h
  | succ fuel ih =>
    cases hdecode : decodeWebSocketFrame s.buffer with
    | error error =>
      rw [drain, hdecode]
      exact ⟨frames, ⟨h.stream, h.sent, h.finished, h.settled⟩, fun _ => .inr fun decoded => by
        show decodeWebSocketFrame s.buffer ≠ _
        rw [hdecode]
        exact fun h => by cases h⟩
    | ok result =>
      cases result with
      | none =>
        rw [drain, hdecode]
        exact ⟨frames, h, fun _ => .inr fun decoded => by
          rw [hdecode]
          exact fun h => by cases h⟩
      | some decoded =>
        have hlength := decodeWebSocketFrame_length hdecode
        obtain ⟨f, hopcode, hpayload, hstream⟩ := h.next hdecode
        have hkinds : (frames ++ [f]).map RawFrame.kind =
            frames.map RawFrame.kind ++ [(decoded.opcode, decoded.payload)] := by
          rw [List.map_append, ← hopcode, ← hpayload]
          rfl
        by_cases hclose : decoded.opcode = CLOSE
        · rw [drain_close fuel hdecode hclose]
          obtain ⟨written, heq⟩ := close_eq { s with buffer := decoded.remaining } 1000 "Closing."
          rw [heq]
          refine ⟨frames ++ [f], ⟨hstream, ?_, ?_, h.settled⟩, fun _ => .inl rfl⟩
          · have hother : decoded.opcode ≠ BINARY := by rw [hclose]; decide
            rw [hkinds, sendable_concat_other _ hother]
            exact h.sent
          · rw [hkinds]
            simp [hclose]
        · by_cases hbinary : decoded.opcode = BINARY
          · rw [drain_binary fuel hdecode hbinary]
            have hreaches : ReachesBinary s.buffer :=
              .here ⟨decoded, hdecode, hbinary⟩
            obtain ⟨hopen, hlink⟩ := hready hreaches
            have hbefore : ∀ frame ∈ frames.map RawFrame.kind, frame.1 ≠ CLOSE := by
              intro frame hframe hclose
              rw [h.finished.mpr ⟨frame, hframe, hclose⟩] at hopen
              cases hopen
            have hsent : sendable ((frames ++ [f]).map RawFrame.kind) =
                s.started ++ s.waiting ++ [decoded.payload] := by
              rw [hkinds, hbinary, sendable_concat_binary hbefore, h.sent]
            have hfinished : s.finished = true ↔
                ∃ frame ∈ (frames ++ [f]).map RawFrame.kind, frame.1 = CLOSE := by
              rw [hkinds]
              simpa [hclose] using h.finished
            unfold onBinaryFrame
            dsimp only
            split
            · next hconnecting =>
              refine ⟨frames ++ [f], ⟨hstream, ?_, hfinished, fun hnot => absurd hconnecting hnot⟩,
                fun hnil => absurd hnil (by simp)⟩
              rw [hsent]
              simp [waiting, List.filterMap_append]
            · next hconnected =>
              have hwaiting := h.settled (by rw [hconnected]; decide)
              refine ⟨frames ++ [f], ⟨hstream, ?_, hfinished, fun _ => ?_⟩,
                fun hnil => absurd hnil (by simp)⟩
              · rw [hsent, hwaiting]
                have hnone : ({ s with
                    buffer := decoded.remaining
                    started := s.started ++ [decoded.payload]
                    drains := s.drains ++ [.settling] } : ClientState).waiting = s.waiting := by
                  simp [waiting, List.filterMap_append]
                rw [hnone, hwaiting]
                simp
              · rw [← hwaiting]
                simp [waiting, List.filterMap_append]
            · next hdown => exact absurd hdown hlink
          · obtain ⟨written, hdrain⟩ := drain_over fuel hdecode hbinary hclose
            rw [hdrain]
            have hnext : Reads { s with buffer := decoded.remaining, written } (frames ++ [f]) := by
              refine ⟨hstream, ?_, ?_, h.settled⟩
              · rw [hkinds, sendable_concat_other _ hbinary]
                exact h.sent
              · rw [hkinds]
                simpa [hclose] using h.finished
            exact ih hnext (by dsimp only; omega) fun hreaches =>
              hready (.past hdecode hbinary hclose hreaches)

/-! ## One event -/

/-- Chunks stay within the bound of the buffer, drains come to a binary frame only while frames may
be sent, and the connect that frames wait for succeeds. -/
def Deliverable (s : ClientState) : ClientEvent → Prop
  | .data chunk => (s.buffer ++ chunk).length ≤ MAX_CLIENT_BUFFER_BYTES ∧
      (ReachesBinary (s.buffer ++ chunk) → s.finished = false ∧ s.link ≠ .down)
  | .resume _ => ReachesBinary s.buffer → s.finished = false ∧ s.link ≠ .down
  | .connectSettles connected => connected = true ∨ s.waiting = []
  | _ => True

/-- The frames read account for the stream, and no drain has left one behind. -/
def Delivers (s : ClientState) : Prop := (∃ frames, Reads s frames) ∧ Idle s

theorem delivers_initial (link : Link) : Delivers (initial link) := by
  refine ⟨⟨[], rfl, rfl, by simp [initial], fun _ => rfl⟩, fun _ => .inr fun decoded => ?_⟩
  show decodeWebSocketFrame [] ≠ _
  rw [decodeWebSocketFrame_nil]
  exact fun h => by cases h

theorem Reads.gather (h : Reads s frames) (chunk : Bytes) : Reads (s.gather chunk) frames := by
  refine ⟨?_, h.sent, h.finished, h.settled⟩
  simp only [ClientState.gather]
  rw [h.stream, List.append_assoc]

theorem onData_of_short {chunk : Bytes} (h : (s.buffer ++ chunk).length ≤ MAX_CLIENT_BUFFER_BYTES) :
    s.onData chunk = (s.gather chunk).drained := by
  unfold onData
  exact if_neg (Nat.not_lt.mpr h)

theorem waiting_map_settling (drains : List Suspended) :
    (drains.map fun _ => Suspended.settling).filterMap (fun drain => match drain with
      | .waiting frame => some frame
      | .settling => none) = ([] : List Bytes) := by
  induction drains with
  | nil => rfl
  | cons drain drains ih => simp

theorem filterMap_eraseIdx_none {α β : Type*} (f : α → Option β) {i : ℕ} {a : α} (l : List α)
    (hi : l[i]? = some a) (ha : f a = none) : (l.eraseIdx i).filterMap f = l.filterMap f := by
  induction l generalizing i with
  | nil => rfl
  | cons b l ih =>
    cases i with
    | zero =>
      obtain rfl : b = a := by simpa using hi
      rw [List.eraseIdx_cons_zero, List.filterMap_cons_none ha]
    | succ i =>
      rw [List.eraseIdx_cons_succ, List.filterMap_cons, List.filterMap_cons, ih (by simpa using hi)]

theorem Reads.connectSettled (h : Reads s frames) {connected : Bool}
    (hconnected : connected = true ∨ s.waiting = []) :
    Reads (s.connectSettled connected) frames := by
  have hnone : (s.connectSettled connected).waiting = [] := waiting_map_settling s.drains
  refine ⟨h.stream, ?_, h.finished, fun _ => hnone⟩
  rw [hnone, List.append_nil, ← h.sent]
  unfold ClientState.connectSettled
  cases connected with
  | true => rfl
  | false =>
    have hwaiting : s.waiting = [] := hconnected.resolve_left Bool.false_ne_true
    simp [hwaiting]

theorem step_delivers {t : ClientState} {event : ClientEvent} (hs : Delivers s)
    (hevent : Deliverable s event) (h : clientStep s event = some t) : Delivers t := by
  obtain ⟨⟨frames, hreads⟩, hidle⟩ := hs
  cases event with
  | data chunk =>
    unfold clientStep at h
    dsimp only at h
    split at h
    · cases h
    · cases h
      obtain ⟨hlength, hready⟩ := hevent
      rw [onData_of_short hlength]
      obtain ⟨frames', hreads', hidle'⟩ := reads_drain (hreads.gather chunk) le_rfl hready
      exact ⟨⟨frames', hreads'⟩, hidle'⟩
  | resume i =>
    unfold clientStep at h
    dsimp only at h
    split at h
    · next hi =>
      cases h
      have hwaiting : ({ s with drains := s.drains.eraseIdx i } : ClientState).waiting =
          s.waiting := filterMap_eraseIdx_none _ s.drains hi rfl
      have hreads' : Reads { s with drains := s.drains.eraseIdx i } frames := by
        refine ⟨hreads.stream, ?_, hreads.finished, ?_⟩
        · rw [hwaiting]
          exact hreads.sent
        · rw [hwaiting]
          exact hreads.settled
      obtain ⟨frames', hreads'', hidle'⟩ := reads_drain hreads' le_rfl hevent
      exact ⟨⟨frames', hreads''⟩, hidle'⟩
    · cases h
  | connectSettles connected =>
    unfold clientStep at h
    dsimp only at h
    split at h
    · cases h
      exact ⟨⟨frames, hreads.connectSettled hevent⟩, fun hnil =>
        hidle (List.map_eq_nil_iff.mp hnil)⟩
    · cases h
  | linkDrops =>
    unfold clientStep at h
    dsimp only at h
    split at h
    · next hlink =>
      cases h
      have hwaiting := hreads.settled (by rw [hlink]; decide)
      exact ⟨⟨frames, hreads.stream, hreads.sent, hreads.finished, fun _ => hwaiting⟩, hidle⟩
    · cases h
  | socketCloses =>
    cases h
    exact ⟨⟨frames, hreads.stream, hreads.sent, hreads.finished, hreads.settled⟩, hidle⟩

/-! ## A stream of well-formed frames -/

def WsFrame.kind (f : WsFrame) : ℕ × Bytes := (f.opcode.code, f.payload)

def wireBytes (frames : List WsFrame) : Bytes := frames.flatMap WsFrame.bytes

theorem read_of_wire {done : List RawFrame} {frames : List WsFrame} {rest : Bytes}
    (h : rawBytes done ++ rest = wireBytes frames) :
    ∃ tail, frames.map WsFrame.kind = done.map RawFrame.kind ++ tail.map WsFrame.kind ∧
      rest = wireBytes tail := by
  induction done generalizing frames with
  | nil => exact ⟨frames, rfl, h⟩
  | cons f done ih =>
    rw [rawBytes, List.flatMap_cons, List.append_assoc, ← rawBytes] at h
    cases frames with
    | nil =>
      have hlength := congrArg List.length h
      have := f.two_le
      simp only [wireBytes, List.length_append, List.flatMap_nil, List.length_nil] at hlength
      omega
    | cons g frames =>
      rw [wireBytes, List.flatMap_cons, ← wireBytes] at h
      have hdecoded := f.decodes (rawBytes done ++ rest)
      rw [h, decodeWebSocketFrame_bytes] at hdecoded
      simp only [Except.ok.injEq, Option.some.injEq, Decoded.mk.injEq] at hdecoded
      obtain ⟨hopcode, hpayload, hrest⟩ := hdecoded
      obtain ⟨tail, hkinds, htail⟩ := ih hrest.symm
      refine ⟨tail, ?_, htail⟩
      rw [List.map_cons, List.map_cons, hkinds, List.cons_append, WsFrame.kind, RawFrame.kind,
        hopcode, hpayload]

theorem Delivers.sent_prefix (h : Delivers s) {frames : List WsFrame}
    (hstream : s.stream <+: wireBytes frames) :
    s.started ++ s.waiting <+: sendable (frames.map WsFrame.kind) := by
  obtain ⟨⟨done, hreads⟩, -⟩ := h
  obtain ⟨more, hmore⟩ := hstream
  rw [hreads.stream, List.append_assoc] at hmore
  obtain ⟨tail, hkinds, -⟩ := read_of_wire hmore
  rw [hreads.sent, hkinds]
  exact sendable_prefix (List.prefix_append _ _)

theorem Delivers.sent_all (h : Delivers s) {frames : List WsFrame}
    (hstream : s.stream = wireBytes frames) (hdrains : s.drains = []) :
    s.started = sendable (frames.map WsFrame.kind) := by
  obtain ⟨⟨done, hreads⟩, hidle⟩ := h
  rw [hreads.stream] at hstream
  obtain ⟨tail, hkinds, hbuffer⟩ := read_of_wire hstream
  have hwaiting : s.waiting = [] := by simp [waiting, hdrains]
  have hsent := hreads.sent
  rw [hwaiting, List.append_nil] at hsent
  rw [hsent, hkinds]
  rcases hidle hdrains with hfinished | hnone
  · exact (sendable_append_of_close (hreads.finished.mp hfinished) _).symm
  · cases tail with
    | nil => rw [List.map_nil, List.append_nil]
    | cons f tail =>
      rw [wireBytes, List.flatMap_cons] at hbuffer
      rw [hbuffer] at hnone
      exact absurd (decodeWebSocketFrame_bytes f _) (hnone _)

/-! ## Every run -/

/-- A client's input: no drain is rejected exactly when none comes to an unsafe length, the buffer
is bounded after every event exactly when chunks arrive only within its bound, and along events that
can be delivered the binary frames before the first close frame are sent once each and in order. -/
theorem client_input (link : Link) {events : List ClientEvent} {s : ClientState}
    (h : run clientStep (initial link) events = some s) :
    (s.rejected = 0 ↔ Along clientStep KeepsSafe (initial link) events) ∧
      (Along clientStep (fun s event => ∀ t, clientStep s event = some t → Bounded t)
          (initial link) events ↔ Along clientStep ArrivesWithin (initial link) events) ∧
      (Along clientStep Deliverable (initial link) events → ∀ frames : List WsFrame,
        (s.stream <+: wireBytes frames →
          s.started ++ s.waiting <+: sendable (frames.map WsFrame.kind)) ∧
        (s.stream = wireBytes frames → s.drains = [] →
          s.started = sendable (frames.map WsFrame.kind))) := by
  refine ⟨(rejected_iff h).2, bounded_iff (Nat.zero_le _) h, fun hevents frames => ?_⟩
  have hdelivers : Delivers s := run_invariant_along (fun _ _ _ => step_delivers)
    (delivers_initial link) hevents h
  exact ⟨hdelivers.sent_prefix, hdelivers.sent_all⟩

def shortSession : List ClientEvent :=
  [.data [0x82, 0x82, 1, 2], .data [3, 4, 0xA9, 0xB9, 0x89, 0x00, 0x88, 0x00],
    .connectSettles true, .resume 0]

def shortFrames : List WsFrame :=
  [⟨.binary, some (1, 2, 3, 4), [0xA8, 0xBB], by decide⟩, ⟨.ping, none, [], by decide⟩,
    ⟨.close, none, [], by decide⟩]


theorem shortSession_deliverable :
    Along clientStep Deliverable (initial .connecting) shortSession := by
  refine ⟨⟨by decide, fun _ => ⟨rfl, by decide⟩⟩, fun t ht => ?_⟩
  cases ht
  refine ⟨⟨by decide, fun _ => ⟨rfl, by decide⟩⟩, fun t ht => ?_⟩
  cases ht
  refine ⟨.inl rfl, fun t ht => ?_⟩
  cases ht
  exact ⟨fun _ => ⟨rfl, by decide⟩, fun t _ => trivial⟩

theorem shortSession_sent :
    ∃ s, run clientStep (initial .connecting) shortSession = some s ∧
      s.started = sendable (shortFrames.map WsFrame.kind) ∧ s.started = [[0xA8, 0xBB]] := by
  have hrun : run clientStep (initial .connecting) shortSession = some _ := rfl
  exact ⟨_, hrun, ((client_input .connecting hrun).2.2 shortSession_deliverable shortFrames).2
    rfl rfl, rfl⟩

/-- A length of 64 ones rejects the drain, and a binary frame that follows a close frame is sent. -/
theorem hostile_input :
    (∃ s, run clientStep (initial .connected)
        [.data [0x82, 0x7F, 0xFF, 0xFF, 0xFF, 0xFF, 0xFF, 0xFF, 0xFF, 0xFF]] = some s ∧
      s.rejected = 1) ∧
    ∃ s, run clientStep (initial .connected)
        [.data [0x88, 0x00], .data [0x82, 0x01, 0x05]] = some s ∧
      s.stream = wireBytes [⟨.close, none, [], by decide⟩, ⟨.binary, none, [0x05], by decide⟩] ∧
      s.started = [[0x05]] ∧
      sendable ([⟨.close, none, [], by decide⟩, ⟨.binary, none, [0x05], by decide⟩].map
        WsFrame.kind) = [] :=
  ⟨⟨_, rfl, rfl⟩, ⟨_, rfl, rfl, rfl, rfl⟩⟩

end ArduConfigurator.DesktopBridge
