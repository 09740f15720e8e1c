import ArduConfigurator.DesktopBridge.Frames
import ArduConfigurator.Lib.Runs

/-! # A client of the bridge

`websocket-bridge-server.ts`: the chunks of a socket are gathered in a buffer, and each chunk starts
a drain that decodes the frames in it. A drain waits for what it hands over, and other drains go on
with the same buffer in the meantime. -/
namespace ArduConfigurator.DesktopBridge
open Runs
set_option autoImplicit false

def MAX_CLIENT_BUFFER_BYTES : ℕ := 64 * 1024

/-- The transport: its connect is in flight, it is connected, or it is not. -/
inductive Link
  | connecting
  | connected
  | down
  deriving DecidableEq

/-- A drain that waits: a frame for the connect of the transport, or for the end of its handling. -/
inductive Suspended
  | waiting (frame : Bytes)
  | settling
  deriving DecidableEq

/-- `started` has the payloads whose sends have been started, `rejected` the drains that have been
rejected; `finished` says that a close frame has been read or the buffer has been too long. -/
structure ClientState where
  buffer : Bytes
  closed : Bool
  link : Link
  drains : List Suspended
  written : List Bytes
  stream : Bytes
  lastChunk : ℕ
  started : List Bytes
  rejected : ℕ
  finished : Bool

inductive ClientEvent
  | data (chunk : Bytes)
  | resume (i : ℕ)
  | connectSettles (connected : Bool)
  | linkDrops
  | socketCloses

namespace ClientState

def initial (link : Link) : ClientState :=
  { buffer := []
    closed := false
    link
    drains := []
    written := []
    stream := []
    lastChunk := 0
    started := []
    rejected := 0
    finished := false }

def waiting (s : ClientState) : List Bytes :=
  s.drains.filterMap fun drain => match drain with
    | .waiting frame => some frame
    | .settling => none

def close (s : ClientState) (code : ℕ) (reason : String) : ClientState :=
  if s.closed then s
  else
    { s with
      written := s.written ++
        [encodeWebSocketFrame CLOSE (bigEndian 2 code ++ reason.toUTF8.toList)] }

def onBinaryFrame (s : ClientState) (frame : Bytes) : ClientState :=
  match s.link with
  | .connecting => { s with drains := s.drains ++ [.waiting frame] }
  | .connected => { s with started := s.started ++ [frame], drains := s.drains ++ [.settling] }
  | .down => { s with drains := s.drains ++ [.settling] }

/-- `drain`, until it waits or ends, for at most that many frames. -/
def drain : ℕ → ClientState → ClientState
  | 0, s => s
  | fuel + 1, s =>
    match decodeWebSocketFrame s.buffer with
    | .error _ => { s with rejected := s.rejected + 1 }
    | .ok none => s
    | .ok (some decoded) =>
      let s := { s with buffer := decoded.remaining }
      if decoded.opcode = CLOSE then { s.close 1000 "Closing." with finished := true }
      else if decoded.opcode = PING then
        drain fuel { s with written := s.written ++ [encodeWebSocketFrame PONG decoded.payload] }
      else if decoded.opcode = BINARY then s.onBinaryFrame decoded.payload
      else drain fuel s

/-- `drain`: a frame takes at least two bytes. -/
def drained (s : ClientState) : ClientState := drain s.buffer.length s

def gather (s : ClientState) (chunk : Bytes) : ClientState :=
  { s with
    buffer := s.buffer ++ chunk
    stream := s.stream ++ chunk
    lastChunk := chunk.length }

def onData (s : ClientState) (chunk : Bytes) : ClientState :=
  let s := s.gather chunk
  if MAX_CLIENT_BUFFER_BYTES < s.buffer.length then
    { s.close 1009 "Frame too large." with finished := true }
  else s.drained

def connectSettled (s : ClientState) (connected : Bool) : ClientState :=
  { s with
    link := if connected then .connected else .down
    started := if connected then s.started ++ s.waiting else s.started
    drains := s.drains.map fun _ => .settling }

end ClientState

open ClientState

def clientStep (s : ClientState) : ClientEvent → Option ClientState
  | .data chunk => if s.closed then none else some (s.onData chunk)
  | .resume i =>
    if s.drains[i]? = some .settling then some { s with drains := s.drains.eraseIdx i }.drained
    else none
  | .connectSettles connected =>
    if s.link = .connecting then some (s.connectSettled connected) else none
  | .linkDrops => if s.link = .connected then some { s with link := .down } else none
  | .socketCloses => some { s with closed := true }

/-! ## Walking over a buffer -/

/-- Past frames that are neither binary nor closing a drain finds what `P` says. -/
inductive Leads (P : Except Unit (Option Decoded) → Prop) : Bytes → Prop
  | here {buffer : Bytes} (h : P (decodeWebSocketFrame buffer)) : Leads P buffer
  | past {buffer : Bytes} {decoded : Decoded}
      (hdecoded : decodeWebSocketFrame buffer = .ok (some decoded))
      (hbinary : decoded.opcode ≠ BINARY) (hclose : decoded.opcode ≠ CLOSE)
      (h : Leads P decoded.remaining) : Leads P buffer

def MeetsUnsafe : Bytes → Prop := Leads fun result => result = .error ()

def ReachesBinary : Bytes → Prop :=
  Leads fun result => ∃ decoded, result = .ok (some decoded) ∧ decoded.opcode = BINARY

variable {buffer : Bytes}

theorem leads_iff {P : Except Unit (Option Decoded) → Prop} :
    Leads P buffer ↔ P (decodeWebSocketFrame buffer) ∨ ∃ decoded,
      decodeWebSocketFrame buffer = .ok (some decoded) ∧ decoded.opcode ≠ BINARY ∧
        decoded.opcode ≠ CLOSE ∧ Leads P decoded.remaining := by
  constructor
  · intro h
    cases h with
    | here h => exact .inl h
    | past hdecoded hbinary hclose h => exact .inr ⟨_, hdecoded, hbinary, hclose, h⟩
  · rintro (h | ⟨decoded, hdecoded, hbinary, hclose, h⟩)
    · exact .here h
    · exact .past hdecoded hbinary hclose h

theorem decodeWebSocketFrame_length {decoded : Decoded}
    (h : decodeWebSocketFrame buffer = .ok (some decoded)) :
    decoded.remaining.length + 2 ≤ buffer.length := by
  obtain ⟨raw, htwo, hbuffer, _⟩ := decodeWebSocketFrame_split h
  rw [hbuffer, List.length_append]
  omega

theorem decodeWebSocketFrame_nil : decodeWebSocketFrame [] = .ok none := rfl

/-! ## What a drain does -/

section
variable {s : ClientState} {decoded : Decoded}

theorem drain_close (fuel : ℕ) (h : decodeWebSocketFrame s.buffer = .ok (some decoded))
    (hclose : decoded.opcode = CLOSE) :
    drain (fuel + 1) s =
      { ({ s with buffer := decoded.remaining } : ClientState).close 1000 "Closing." with
        finished := true } := by
  rw [drain, h]
  simp only [hclose, if_true]

theorem drain_binary (fuel : ℕ) (h : decodeWebSocketFrame s.buffer = .ok (some decoded))
    (hbinary : decoded.opcode = BINARY) :
    drain (fuel + 1) s =
      ({ s with buffer := decoded.remaining } : ClientState).onBinaryFrame decoded.payload := by
  rw [drain, h]
  simp only [hbinary]
  rfl

theorem drain_over (fuel : ℕ) (h : decodeWebSocketFrame s.buffer = .ok (some decoded))
    (hbinary : decoded.opcode ≠ BINARY) (hclose : decoded.opcode ≠ CLOSE) :
    ∃ written, drain (fuel + 1) s =
      drain fuel { s with buffer := decoded.remaining, written } := by
  rw [drain, h]
  simp only [hbinary, hclose, if_false]
  split
  · exact ⟨_, rfl⟩
  · exact ⟨_, rfl⟩

end

theorem close_eq (s : ClientState) (code : ℕ) (reason : String) :
    ∃ written, s.close code reason = { s with written } := by
  unfold ClientState.close
  split
  · exact ⟨s.written, rfl⟩
  · exact ⟨_, rfl⟩

@[simp] theorem close_rejected (s : ClientState) (code : ℕ) (reason : String) :
    (s.close code reason).rejected = s.rejected := by
  obtain ⟨written, hclose⟩ := close_eq s code reason
  rw [hclose]

@[simp] theorem close_buffer (s : ClientState) (code : ℕ) (reason : String) :
    (s.close code reason).buffer = s.buffer := by
  obtain ⟨written, hclose⟩ := close_eq s code reason
  rw [hclose]

@[simp] theorem close_lastChunk (s : ClientState) (code : ℕ) (reason : String) :
    (s.close code reason).lastChunk = s.lastChunk := by
  obtain ⟨written, hclose⟩ := close_eq s code reason
  rw [hclose]

@[simp] theorem onBinaryFrame_rejected (s : ClientState) (frame : Bytes) :
    (s.onBinaryFrame frame).rejected = s.rejected := by
  unfold onBinaryFrame
  split <;> rfl

@[simp] theorem onBinaryFrame_buffer (s : ClientState) (frame : Bytes) :
    (s.onBinaryFrame frame).buffer = s.buffer := by
  unfold onBinaryFrame
  split <;> rfl

@[simp] theorem onBinaryFrame_lastChunk (s : ClientState) (frame : Bytes) :
    (s.onBinaryFrame frame).lastChunk = s.lastChunk := by
  unfold onBinaryFrame
  split <;> rfl

variable {s : ClientState}

theorem drain_rejected {fuel : ℕ} (hfuel : s.buffer.length ≤ fuel) :
    (drain fuel s).rejected = s.rejected ∧ ¬MeetsUnsafe s.buffer ∨
      (drain fuel s).rejected = s.rejected + 1 ∧ MeetsUnsafe s.buffer := by
  induction fuel generalizing s with
  | zero =>
    have hnil := List.length_eq_zero_iff.mp (Nat.le_zero.mp hfuel)
    refine .inl ⟨rfl, ?_⟩
    rw [MeetsUnsafe, leads_iff, hnil, decodeWebSocketFrame_nil]
    simp
  | succ fuel ih =>
    rw [MeetsUnsafe, leads_iff]
    cases hdecode : decodeWebSocketFrame s.buffer with
    | error error =>
      rw [drain, hdecode]
      exact .inr ⟨rfl, .inl rfl⟩
    | ok result =>
      cases result with
      | none =>
        rw [drain, hdecode]
        simp
      | some decoded =>
        have hlength := decodeWebSocketFrame_length hdecode
        by_cases hclose : decoded.opcode = CLOSE
        · rw [drain_close fuel hdecode hclose]
          refine .inl ⟨by simp, ?_⟩
          rintro (h | ⟨other, hother, _, hnot, _⟩)
          · cases h
          · cases hother
            exact hnot hclose
        · by_cases hbinary : decoded.opcode = BINARY
          · rw [drain_binary fuel hdecode hbinary]
            refine .inl ⟨by simp, ?_⟩
            rintro (h | ⟨other, hother, hnot, _, _⟩)
            · cases h
            · cases hother
              exact hnot hbinary
          · obtain ⟨written, hdrain⟩ := drain_over fuel hdecode hbinary hclose
            rw [hdrain]
            have hrest := ih (s := { s with buffer := decoded.remaining, written })
              (by dsimp only; omega)
            refine hrest.imp (fun h => ⟨h.1, ?_⟩) fun h => ⟨h.1, .inr ⟨decoded, rfl, hbinary,
              hclose, h.2⟩⟩
            rintro (hnot | ⟨other, hother, _, _, hleads⟩)
            · cases hnot
            · cases hother
              exact h.2 hleads

theorem drain_buffer (fuel : ℕ) (s : ClientState) :
    (drain fuel s).buffer.length ≤ s.buffer.length ∧ (drain fuel s).lastChunk = s.lastChunk := by
  induction fuel generalizing s with
  | zero => exact ⟨le_rfl, rfl⟩
  | succ fuel ih =>
    cases hdecode : decodeWebSocketFrame s.buffer with
    | error error =>
      rw [drain, hdecode]
      exact ⟨le_rfl, rfl⟩
    | ok result =>
      cases result with
      | none =>
        rw [drain, hdecode]
        exact ⟨le_rfl, rfl⟩
      | some decoded =>
        have hlength := decodeWebSocketFrame_length hdecode
        by_cases hclose : decoded.opcode = CLOSE
        · rw [drain_close fuel hdecode hclose]
          exact ⟨by simp; omega, by simp⟩
        · by_cases hbinary : decoded.opcode = BINARY
          · rw [drain_binary fuel hdecode hbinary]
            exact ⟨by simp; omega, by simp⟩
          · obtain ⟨written, hdrain⟩ := drain_over fuel hdecode hbinary hclose
            rw [hdrain]
            have hrest := ih { s with buffer := decoded.remaining, written }
            exact ⟨hrest.1.trans (by dsimp only; omega), hrest.2⟩

/-! ## No drain is rejected -/

/-- No drain that the event starts or goes on with comes to an unsafe length. -/
def KeepsSafe (s : ClientState) : ClientEvent → Prop
  | .data chunk => (s.buffer ++ chunk).length ≤ MAX_CLIENT_BUFFER_BYTES →
      ¬MeetsUnsafe (s.buffer ++ chunk)
  | .resume _ => ¬MeetsUnsafe s.buffer
  | _ => True

variable {t : ClientState} {event : ClientEvent}

theorem step_rejected (h : clientStep s event = some t) :
    t.rejected = s.rejected ∧ KeepsSafe s event ∨
      t.rejected = s.rejected + 1 ∧ ¬KeepsSafe s event := by
  cases event with
  | data chunk =>
    unfold clientStep at h
    dsimp only at h
    split at h
    · cases h
    · cases h
      unfold onData KeepsSafe
      dsimp only
      split
      · next hlong =>
        refine .inl ⟨by simp [gather], fun hshort => ?_⟩
        have : MAX_CLIENT_BUFFER_BYTES < (s.buffer ++ chunk).length := hlong
        omega
      · next hshort =>
        have hle : (s.buffer ++ chunk).length ≤ MAX_CLIENT_BUFFER_BYTES := Nat.le_of_not_lt hshort
        rcases drain_rejected (s := s.gather chunk) le_rfl with hsafe | hmeets
        · exact .inl ⟨hsafe.1, fun _ => hsafe.2⟩
        · exact .inr ⟨hmeets.1, fun h => h hle hmeets.2⟩
  | resume i =>
    unfold clientStep at h
    dsimp only at h
    split at h
    · cases h
      exact (drain_rejected (s := { s with drains := s.drains.eraseIdx i }) le_rfl).imp id
        fun h => ⟨h.1, fun hnot => hnot h.2⟩
    · cases h
  | connectSettles connected =>
    unfold clientStep at h
    dsimp only at h
    split at h
    · cases h
      exact .inl ⟨rfl, trivial⟩
    · cases h
  | linkDrops =>
    unfold clientStep at h
    dsimp only at h
    split at h
    · cases h
      exact .inl ⟨rfl, trivial⟩
    · cases h
  | socketCloses =>
    cases h
    exact .inl ⟨rfl, trivial⟩

variable {events : List ClientEvent}

theorem rejected_iff (h : run clientStep s events = some t) :
    s.rejected ≤ t.rejected ∧
      (t.rejected = s.rejected ↔ Along clientStep KeepsSafe s events) := by
  induction events generalizing s with
  | nil =>
    cases h
    exact ⟨le_rfl, iff_of_true rfl trivial⟩
  | cons event events ih =>
    obtain ⟨u, hu, h⟩ := run_cons_eq_some.mp h
    obtain ⟨hle, hiff⟩ := ih h
    rw [along_cons _ hu, ← hiff]
    rcases step_rejected hu with ⟨hsame, hsafe⟩ | ⟨hmore, hmeets⟩
    · rw [hsame] at hle ⊢
      exact ⟨hle, by simp [hsafe]⟩
    · rw [hmore] at hle ⊢
      exact ⟨by omega, by simp [hmeets]; omega⟩

/-! ## The buffer stays small -/

def Bounded (s : ClientState) : Prop :=
  s.buffer.length ≤ MAX_CLIENT_BUFFER_BYTES + s.lastChunk

def ArrivesWithin (s : ClientState) : ClientEvent → Prop
  | .data _ => s.buffer.length ≤ MAX_CLIENT_BUFFER_BYTES
  | _ => True

theorem step_bounded (hs : Bounded s) (h : clientStep s event = some t) :
    Bounded t ↔ ArrivesWithin s event := by
  unfold Bounded ArrivesWithin at *
  cases event with
  | data chunk =>
    unfold clientStep at h
    dsimp only at h
    split at h
    · cases h
    · cases h
      unfold onData
      dsimp only
      have hgather : (s.gather chunk).buffer.length = s.buffer.length + chunk.length :=
        List.length_append
      split
      · simp only [close_buffer, close_lastChunk, hgather]
        exact Nat.add_le_add_iff_right
      · next hshort =>
        obtain ⟨hbuffer, hchunk⟩ := drain_buffer (s.gather chunk).buffer.length (s.gather chunk)
        rw [ClientState.drained, hchunk]
        exact iff_of_true (by omega) (by omega)
  | resume i =>
    unfold clientStep at h
    dsimp only at h
    split at h
    · cases h
      obtain ⟨hbuffer, hchunk⟩ :=
        drain_buffer s.buffer.length { s with drains := s.drains.eraseIdx i }
      rw [ClientState.drained, hchunk]
      exact iff_of_true (hbuffer.trans hs) trivial
    · cases h
  | connectSettles connected =>
    unfold clientStep at h
    dsimp only at h
    split at h
    · cases h
      exact iff_of_true hs trivial
    · cases h
  | linkDrops =>
    unfold clientStep at h
    dsimp only at h
    split at h
    · cases h
      exact iff_of_true hs trivial
    · cases h
  | socketCloses =>
    cases h
    exact iff_of_true hs trivial

theorem bounded_iff (hs : Bounded s) (h : run clientStep s events = some t) :
    Along clientStep (fun s event => ∀ t, clientStep s event = some t → Bounded t) s events ↔
      Along clientStep ArrivesWithin s events := by
  induction events generalizing s with
  | nil => exact Iff.rfl
  | cons event events ih =>
    obtain ⟨u, hu, h⟩ := run_cons_eq_some.mp h
    rw [along_cons _ hu, along_cons _ hu, hu]
    simp only [Option.some.injEq, forall_eq']
    rw [step_bounded hs hu]
    exact and_congr_right fun harrives => ih ((step_bounded hs hu).mpr harrives) h

end ArduConfigurator.DesktopBridge
