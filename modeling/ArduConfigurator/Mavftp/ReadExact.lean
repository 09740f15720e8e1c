import ArduConfigurator.Mavftp.Operations

/-! # What a sequential read gives

The loop of `readRemoteFileUnlocked` comes to its end with every server, since each turn takes the
offset further and the cap bounds it. A server that answers out of a file, in pieces as short as it
likes, has given the asked part of the file by then, or the file does not fit the cap. Whichever way
the loop ends, the session is terminated once. -/
namespace ArduConfigurator.Mavftp
open Effects
set_option autoImplicit false

namespace SequentialRead

variable {r : SequentialRead} {request : Request}

def extended (r : SequentialRead) (data : Bytes) : SequentialRead :=
  { r with
    chunks := r.chunks ++ [data]
    offset := r.offset + data.length }

theorem extended_offset (data : Bytes) : (r.extended data).offset = r.offset + data.length := rfl

theorem extended_bytes (data : Bytes) : (r.extended data).bytes = r.bytes ++ data := by
  simp [bytes, extended]

theorem turn_eq_read (h : r.turn = .read request) :
    (∀ limit, r.byteLimit = some limit → r.offset < limit) ∧
      (r.byteLimit = none → r.declaredSize > 0 → r.offset < r.declaredSize) ∧
      r.offset < MAX_MAVFTP_FILE_BYTES ∧
      request = ⟨r.session, MAV_FTP_OPCODE.READ_FILE, r.chunkSize, r.offset, []⟩ := by
  unfold turn at h
  split at h
  · cases h
  · next hlimit =>
    split at h
    · cases h
    · next hdeclared =>
      split at h
      · cases h
      · next hcap =>
        refine ⟨fun limit hsome => ?_, fun hnone hpos => ?_, by omega, (ReadTurn.read.inj h).symm⟩
        · rw [hsome, Option.any_some, decide_eq_true_eq] at hlimit
          omega
        · rw [hnone] at hdeclared
          by_contra hge
          exact hdeclared ⟨rfl, hpos, by omega⟩

theorem offset_lt_of_read (h : r.turn = .read request) : r.offset < MAX_MAVFTP_FILE_BYTES :=
  (turn_eq_read h).2.2.1

theorem opcode_of_read (h : r.turn = .read request) :
    request.opcode = MAV_FTP_OPCODE.READ_FILE := by
  rw [(turn_eq_read h).2.2.2]

theorem turn_eq_stop (h : r.turn = .stop) :
    (∃ limit, r.byteLimit = some limit ∧ limit ≤ r.offset) ∨
      r.byteLimit = none ∧ r.declaredSize > 0 ∧ r.declaredSize ≤ r.offset := by
  unfold turn at h
  split at h
  · next hlimit =>
    cases hsome : r.byteLimit with
    | none =>
      rw [hsome] at hlimit
      cases hlimit
    | some limit =>
      rw [hsome, Option.any_some, decide_eq_true_eq] at hlimit
      exact Or.inl ⟨limit, rfl, hlimit⟩
  · split at h
    · next hdeclared => exact Or.inr ⟨Option.isNone_iff_eq_none.mp hdeclared.1, hdeclared.2⟩
    · split at h <;> cases h

theorem turn_eq_exceeded (h : r.turn = .exceeded) :
    (∀ limit, r.byteLimit = some limit → r.offset < limit) ∧
      (r.byteLimit = none → r.declaredSize > 0 → r.offset < r.declaredSize) ∧
      MAX_MAVFTP_FILE_BYTES ≤ r.offset := by
  unfold turn at h
  split at h
  · cases h
  · next hlimit =>
    split at h
    · cases h
    · next hdeclared =>
      split at h
      · next hcap =>
        refine ⟨fun limit hsome => ?_, fun hnone hpos => ?_, by omega⟩
        · rw [hsome, Option.any_some, decide_eq_true_eq] at hlimit
          omega
        · rw [hnone] at hdeclared
          by_contra hge
          exact hdeclared ⟨rfl, hpos, by omega⟩
      · cases h

end SequentialRead

namespace Conversation

variable (c : Conversation)

/-! ## Requests whose outcome is dropped -/

def afterQuietly (request : Request) (s : RemoteSession) : RemoteSession :=
  if c.hasVehicle s.sent = false then s else c.afterSend request s

theorem sendQuietly_eq (request : Request) (s : RemoteSession) :
    c.sendQuietly request s = (.resolved (), c.afterQuietly request s) := by
  change Prog.catchError (Prog.bind (c.send request) fun _ => pure ()) (fun _ => pure ()) s = _
  unfold Prog.catchError Prog.bind send afterQuietly
  by_cases hvehicle : c.hasVehicle s.sent = false
  · rw [if_pos hvehicle, if_pos hvehicle]
    rfl
  · rw [if_neg hvehicle, if_neg hvehicle]
    cases c.answer (s.sent ++ [request]) <;> rfl

theorem afterQuietly_sent (request : Request) (s : RemoteSession) :
    (c.afterQuietly request s).sent =
      s.sent ++ if c.hasVehicle s.sent = true then [request] else [] := by
  unfold afterQuietly
  cases c.hasVehicle s.sent
  · simp
  · rfl

/-- The session when `clearStaleSessionsOnce` is done. -/
def afterClearing (s : RemoteSession) : RemoteSession :=
  if s.staleSessionsCleared then s
  else c.afterQuietly resetSessions { s with staleSessionsCleared := true }

theorem clearStaleSessionsOnce_eq (s : RemoteSession) :
    c.clearStaleSessionsOnce s = (.resolved (), c.afterClearing s) := by
  unfold clearStaleSessionsOnce afterClearing
  split
  · rfl
  · exact c.sendQuietly_eq resetSessions _

/-! ## The loop -/

variable {turns : ℕ} {r : SequentialRead}

theorem readLoop_stop (h : r.turn = .stop) (s : RemoteSession) :
    c.readLoop (turns + 1) r s = (.resolved r.bytes, s) := by
  rw [readLoop]
  simp only [h]
  rfl

theorem readLoop_exceeded (h : r.turn = .exceeded) (s : RemoteSession) :
    c.readLoop (turns + 1) r s = (.rejected (.failed (.noEof MAX_MAVFTP_FILE_BYTES)), s) := by
  rw [readLoop]
  simp only [h]
  rfl

variable {request : Request} {s t : RemoteSession}

theorem readLoop_read (h : r.turn = .read request) {reply : MavftpPayload}
    (hreply : c.sendUntilEof request s = (.resolved (some reply), t)) (hdata : reply.data ≠ []) :
    c.readLoop (turns + 1) r s = c.readLoop turns (r.extended reply.data) t := by
  rw [readLoop]
  simp only [h]
  rw [bind_of_resolved hreply]
  simp only [if_neg hdata]
  rfl

theorem readLoop_end (h : r.turn = .read request) {reply : Option MavftpPayload}
    (hreply : c.sendUntilEof request s = (.resolved reply, t))
    (hdata : ∀ p, reply = some p → p.data = []) :
    c.readLoop (turns + 1) r s = (.resolved r.bytes, t) := by
  rw [readLoop]
  simp only [h]
  rw [bind_of_resolved hreply]
  cases reply with
  | none => rfl
  | some p =>
    simp only [if_pos (hdata p rfl)]
    rfl

theorem readLoop_rejected (h : r.turn = .read request) {error : OperationError}
    (hreply : c.sendUntilEof request s = (.rejected error, t)) :
    c.readLoop (turns + 1) r s = (.rejected error, t) := by
  rw [readLoop]
  simp only [h]
  rw [bind_of_rejected hreply]

theorem sendUntilEof_cases (request : Request) (s : RemoteSession) :
    ∃ t, (t = s ∨ t = c.afterSend request s) ∧
      ((∃ reply, c.sendUntilEof request s = (.resolved reply, t)) ∨
        ∃ error, c.sendUntilEof request s = (.rejected error, t)) := by
  rw [c.sendUntilEof_eq]
  split
  · exact ⟨s, Or.inl rfl, Or.inr ⟨_, rfl⟩⟩
  · refine ⟨c.afterSend request s, Or.inr rfl, ?_⟩
    split
    · exact Or.inl ⟨_, rfl⟩
    · split
      · exact Or.inl ⟨_, rfl⟩
      · exact Or.inr ⟨_, rfl⟩

theorem readLoop_succ (turns : ℕ) (r : SequentialRead) (s : RemoteSession) :
    ∃ t, (t = s ∨ ∃ request, r.turn = .read request ∧ t = c.afterSend request s) ∧
      ((∃ outcome, c.readLoop (turns + 1) r s = (outcome, t) ∧ outcome ≠ .running) ∨
        ∃ data, data ≠ [] ∧ r.offset < MAX_MAVFTP_FILE_BYTES ∧
          c.readLoop (turns + 1) r s = c.readLoop turns (r.extended data) t) := by
  cases hturn : r.turn with
  | stop => exact ⟨s, Or.inl rfl, Or.inl ⟨_, c.readLoop_stop hturn s, (by simp)⟩⟩
  | exceeded => exact ⟨s, Or.inl rfl, Or.inl ⟨_, c.readLoop_exceeded hturn s, (by simp)⟩⟩
  | read request =>
    have hoffset := SequentialRead.offset_lt_of_read hturn
    obtain ⟨t, ht, hsend⟩ := c.sendUntilEof_cases request s
    refine ⟨t, ht.imp id fun ht => ⟨request, rfl, ht⟩, ?_⟩
    rcases hsend with ⟨reply, hreply⟩ | ⟨error, hreply⟩
    · by_cases hdata : ∀ p, reply = some p → p.data = []
      · exact Or.inl ⟨_, c.readLoop_end hturn hreply hdata, (by simp)⟩
      · push Not at hdata
        obtain ⟨p, rfl, hp⟩ := hdata
        exact Or.inr ⟨p.data, hp, hoffset, c.readLoop_read hturn hreply hp⟩
    · exact Or.inl ⟨_, c.readLoop_rejected hturn hreply, (by simp)⟩

theorem readLoop_ends (hpos : 0 < turns) (hturns : MAX_MAVFTP_FILE_BYTES < turns + r.offset)
    (s : RemoteSession) :
    (c.readLoop turns r s).1 ≠ .running := by
  induction turns generalizing r s with
  | zero => omega
  | succ turns ih =>
    obtain ⟨t, -, ⟨outcome, hend, hne⟩ | ⟨data, hdata, hoffset, hnext⟩⟩ := c.readLoop_succ turns r s
    · rw [hend]
      exact hne
    · have hlength := List.length_pos_iff.mpr hdata
      rw [hnext]
      refine ih (by omega) ?_ t
      rw [SequentialRead.extended_offset]
      omega

theorem readLoop_sent (turns : ℕ) (r : SequentialRead) (s : RemoteSession) :
    ∃ reads, (c.readLoop turns r s).2.sent = s.sent ++ reads ∧
      ∀ request ∈ reads, request.opcode = MAV_FTP_OPCODE.READ_FILE := by
  induction turns generalizing r s with
  | zero => exact ⟨[], (List.append_nil _).symm, by simp⟩
  | succ turns ih =>
    obtain ⟨t, ht, hrest⟩ := c.readLoop_succ turns r s
    have hsent : ∃ reads, t.sent = s.sent ++ reads ∧
        ∀ request ∈ reads, request.opcode = MAV_FTP_OPCODE.READ_FILE := by
      rcases ht with rfl | ⟨request, hturn, rfl⟩
      · exact ⟨[], (List.append_nil _).symm, by simp⟩
      · refine ⟨[request], rfl, ?_⟩
        rw [List.forall_mem_singleton]
        exact SequentialRead.opcode_of_read hturn
    obtain ⟨reads, hreads, hopcodes⟩ := hsent
    rcases hrest with ⟨outcome, hend, -⟩ | ⟨data, -, -, hnext⟩
    · rw [hend]
      exact ⟨reads, hreads, hopcodes⟩
    · obtain ⟨more, hmore, hopcodes'⟩ := ih (r.extended data) t
      refine ⟨reads ++ more, ?_, ?_⟩
      · rw [hnext, hmore, hreads, List.append_assoc]
      · exact List.forall_mem_append.mpr ⟨hopcodes, hopcodes'⟩

/-! ## A server with a file -/

/-- The server answers the reads of the session out of the file. A reply can hold less than was
asked for; behind the end of the file there is the end-of-file NAK, or a reply without data. -/
structure ReadsFile (session : ℕ) (file : Bytes) : Prop where
  vehicle : ∀ sent, c.hasVehicle sent = true
  data : ∀ sent (request : Request), request.session = session →
    request.opcode = MAV_FTP_OPCODE.READ_FILE → 0 < request.size →
    request.offset < file.length →
      ∃ reply count, c.answer (sent ++ [request]) = .ok reply ∧ 0 < count ∧
        count ≤ request.size ∧ reply.data = slice file request.offset count
  past : ∀ sent (request : Request), request.session = session →
    request.opcode = MAV_FTP_OPCODE.READ_FILE → file.length ≤ request.offset →
      (∃ errno, c.answer (sent ++ [request]) = .error (.request MAV_FTP_ERR.EOF errno)) ∨
        ∃ reply, c.answer (sent ++ [request]) = .ok reply ∧ reply.data = []

variable {c} {session : ℕ} {file : Bytes}

theorem ReadsFile.sendUntilEof_data (h : c.ReadsFile session file)
    (hsession : request.session = session) (hopcode : request.opcode = MAV_FTP_OPCODE.READ_FILE)
    (hsize : 0 < request.size) (hoffset : request.offset < file.length) (s : RemoteSession) :
    ∃ reply count, c.sendUntilEof request s = (.resolved (some reply), c.afterSend request s) ∧
      0 < count ∧ count ≤ request.size ∧ reply.data = slice file request.offset count := by
  obtain ⟨reply, count, hreply, hcount⟩ := h.data s.sent request hsession hopcode hsize hoffset
  refine ⟨reply, count, ?_, hcount⟩
  rw [c.sendUntilEof_eq, h.vehicle s.sent, hreply]
  rfl

theorem ReadsFile.sendUntilEof_past (h : c.ReadsFile session file)
    (hsession : request.session = session) (hopcode : request.opcode = MAV_FTP_OPCODE.READ_FILE)
    (hoffset : file.length ≤ request.offset) (s : RemoteSession) :
    ∃ reply, c.sendUntilEof request s = (.resolved reply, c.afterSend request s) ∧
      ∀ p, reply = some p → p.data = [] := by
  rcases h.past s.sent request hsession hopcode hoffset with ⟨errno, hreply⟩ | ⟨reply, hreply, hdata⟩
  · refine ⟨none, ?_, fun p hp => by cases hp⟩
    rw [c.sendUntilEof_eq, h.vehicle s.sent, hreply]
    rfl
  · refine ⟨some reply, ?_, fun p hp => by cases hp; exact hdata⟩
    rw [c.sendUntilEof_eq, h.vehicle s.sent, hreply]
    rfl

end Conversation

def DeclaresFile (declaredSize : ℕ) (file : Bytes) : Prop :=
  declaredSize = 0 ∨ file.length ≤ declaredSize

/-- What is asked for ends within the cap, and before it where only the end of the file can end
the loop. -/
def WithinCap (byteLimit : Option ℕ) (declaredSize size : ℕ) : Prop :=
  match byteLimit with
  | some limit => limit ≤ MAX_MAVFTP_FILE_BYTES ∨ size < MAX_MAVFTP_FILE_BYTES
  | none => size < MAX_MAVFTP_FILE_BYTES ∨ declaredSize = size ∧ size ≤ MAX_MAVFTP_FILE_BYTES

def filePrefix (byteLimit : Option ℕ) (file : Bytes) : Bytes :=
  file.take (min (byteLimit.getD file.length) file.length)

namespace SequentialRead

/-- What the loop has read is the front of the file, and not more than was asked for. -/
structure Reads (r : SequentialRead) (session : ℕ) (byteLimit : Option ℕ) (declaredSize : ℕ)
    (file : Bytes) : Prop where
  inSession : r.session = session
  limited : r.byteLimit = byteLimit
  declared : r.declaredSize = declaredSize
  bytes : r.bytes = file.take r.offset
  inFile : r.offset ≤ file.length
  inLimit : ∀ limit, byteLimit = some limit → r.offset ≤ limit

variable {r : SequentialRead} {session declaredSize : ℕ} {byteLimit : Option ℕ} {file : Bytes}
  {limit : ℕ}

theorem Reads.bytes_of_limit (h : r.Reads session byteLimit declaredSize file)
    (hsome : byteLimit = some limit) (hlimit : limit ≤ r.offset) :
    r.bytes = filePrefix byteLimit file := by
  have hle := h.inLimit limit hsome
  have hfile := h.inFile
  obtain rfl : r.offset = limit := by omega
  rw [h.bytes, filePrefix, hsome, Option.getD_some, Nat.min_eq_left hfile]

theorem Reads.bytes_of_end (h : r.Reads session byteLimit declaredSize file)
    (hend : file.length ≤ r.offset) : r.bytes = filePrefix byteLimit file := by
  have hfile := h.inFile
  have hlength : file.length ≤ byteLimit.getD file.length := by
    cases hsome : byteLimit with
    | none => exact Nat.le_refl _
    | some limit =>
      have := h.inLimit limit hsome
      rw [Option.getD_some]
      omega
  rw [h.bytes, filePrefix, Nat.min_eq_right hlength]
  congr 1
  omega

theorem chunkSize_pos (hlimit : ∀ limit, r.byteLimit = some limit → r.offset < limit)
    (hdeclared : r.byteLimit = none → r.declaredSize > 0 → r.offset < r.declaredSize) :
    0 < r.chunkSize := by
  unfold chunkSize remaining
  cases hsome : r.byteLimit with
  | some limit =>
    have := hlimit limit hsome
    simp only [MAVFTP_TRANSFER_CHUNK_SIZE]
    omega
  | none =>
    have := hdeclared hsome
    by_cases hpos : r.declaredSize > 0
    · simp only [if_pos hpos, MAVFTP_TRANSFER_CHUNK_SIZE]
      have := this hpos
      omega
    · simp only [if_neg hpos, MAVFTP_TRANSFER_CHUNK_SIZE]
      omega

theorem Reads.chunkSize_le (h : r.Reads session byteLimit declaredSize file)
    (hsome : byteLimit = some limit) : r.chunkSize ≤ limit - r.offset := by
  unfold chunkSize remaining
  rw [h.limited, hsome]
  exact Nat.min_le_right _ _

theorem Reads.extended (h : r.Reads session byteLimit declaredSize file) {count : ℕ}
    (hcount : count ≤ r.chunkSize) :
    (r.extended (slice file r.offset count)).Reads session byteLimit declaredSize file where
  inSession := h.inSession
  limited := h.limited
  declared := h.declared
  bytes := by
    have hlength : (slice file r.offset count).length = min count (file.length - r.offset) := by
      rw [slice, List.length_take, List.length_drop]
    have hpiece : slice file r.offset count =
        slice file r.offset (min count (file.length - r.offset)) := by
      rw [slice, slice, ← List.length_drop, List.take_eq_take_min]
    rw [extended_bytes, extended_offset, hlength, List.take_add, h.bytes, hpiece]
    rfl
  inFile := by
    have := h.inFile
    rw [extended_offset, slice, List.length_take, List.length_drop]
    omega
  inLimit limit hsome := by
    have := h.chunkSize_le hsome
    have := h.inLimit limit hsome
    rw [extended_offset, slice, List.length_take, List.length_drop]
    omega

theorem Reads.not_withinCap (h : r.Reads session byteLimit declaredSize file)
    (hdeclares : byteLimit = none → DeclaresFile declaredSize file) (hturn : r.turn = .exceeded) :
    ¬ WithinCap byteLimit declaredSize file.length := by
  obtain ⟨hlimit, hdeclared, hcap⟩ := turn_eq_exceeded hturn
  have hfile := h.inFile
  cases hsome : byteLimit with
  | some limit =>
    have := hlimit limit (h.limited.trans hsome)
    unfold WithinCap
    dsimp only
    omega
  | none =>
    have hopen := hdeclared (h.limited.trans hsome)
    have hpos : 0 < MAX_MAVFTP_FILE_BYTES := by decide
    rw [h.declared] at hopen
    unfold WithinCap
    dsimp only
    rcases hdeclares hsome with hzero | hle
    · omega
    · omega

end SequentialRead

namespace Conversation

variable {c : Conversation} {session declaredSize : ℕ} {byteLimit : Option ℕ} {file : Bytes}
  {r : SequentialRead}

theorem readLoop_exact (h : c.ReadsFile session file)
    (hdeclares : byteLimit = none → DeclaresFile declaredSize file) {turns : ℕ}
    (hreads : r.Reads session byteLimit declaredSize file) (hpos : 0 < turns)
    (hturns : MAX_MAVFTP_FILE_BYTES < turns + r.offset) (s : RemoteSession) :
    (c.readLoop turns r s).1 = .resolved (filePrefix byteLimit file) ∨
      (c.readLoop turns r s).1 = .rejected (.failed (.noEof MAX_MAVFTP_FILE_BYTES)) ∧
        ¬ WithinCap byteLimit declaredSize file.length := by
  induction turns generalizing r s with
  | zero => omega
  | succ turns ih =>
    cases hturn : r.turn with
    | stop =>
      left
      rw [c.readLoop_stop hturn]
      rcases SequentialRead.turn_eq_stop hturn with ⟨limit, hsome, hlimit⟩ | ⟨hnone, hdeclared, hend⟩
      · rw [hreads.bytes_of_limit (hreads.limited.symm.trans hsome) hlimit]
      · have hfile := hdeclares (hreads.limited.symm.trans hnone)
        rw [hreads.declared] at hdeclared hend
        rw [hreads.bytes_of_end]
        rcases hfile with hzero | hle <;> omega
    | exceeded =>
      right
      rw [c.readLoop_exceeded hturn]
      exact ⟨rfl, hreads.not_withinCap hdeclares hturn⟩
    | read request =>
      obtain ⟨hlimit, hdeclared, hcap, hrequest⟩ := SequentialRead.turn_eq_read hturn
      have hsession : request.session = session := by
        rw [hrequest]
        exact hreads.inSession
      have hopcode := SequentialRead.opcode_of_read hturn
      have hoffset : request.offset = r.offset := by rw [hrequest]
      have hsize : request.size = r.chunkSize := by rw [hrequest]
      by_cases hend : r.offset < file.length
      · obtain ⟨reply, count, hreply, hcount, hle, hdata⟩ :=
          h.sendUntilEof_data hsession hopcode
            (hsize ▸ SequentialRead.chunkSize_pos hlimit hdeclared) (hoffset ▸ hend) s
        rw [hoffset] at hdata
        rw [hsize] at hle
        have hlength : 0 < reply.data.length := by
          rw [hdata, slice, List.length_take, List.length_drop]
          omega
        rw [c.readLoop_read hturn hreply (List.length_pos_iff.mp hlength)]
        refine ih ?_ (by omega) ?_ _
        · rw [hdata]
          exact hreads.extended hle
        · rw [SequentialRead.extended_offset]
          omega
      · obtain ⟨reply, hreply, hdata⟩ :=
          h.sendUntilEof_past hsession hopcode (by omega) s
        left
        rw [c.readLoop_end hturn hreply hdata, hreads.bytes_of_end (by omega)]

/-! ## The whole read -/

theorem readRemoteFileUnlocked_of_opened {path : Text} {reply : MavftpPayload}
    {s t : RemoteSession}
    (hopened : c.openFileForRead (encodeText (normalizeMavftpPath path)) (c.afterClearing s) =
      (.resolved reply, t)) (turns : ℕ) (byteLimit : Option ℕ)
    (hends : (c.readLoop turns (SequentialRead.opened reply byteLimit) t).1 ≠ .running) :
    c.readRemoteFileUnlocked turns path byteLimit s =
      ((c.readLoop turns (SequentialRead.opened reply byteLimit) t).1,
        c.afterQuietly (terminateSession reply.session)
          (c.readLoop turns (SequentialRead.opened reply byteLimit) t).2) := by
  unfold readRemoteFileUnlocked
  rw [bind_of_resolved (c.clearStaleSessionsOnce_eq s), bind_of_resolved hopened]
  cases hloop : c.readLoop turns (SequentialRead.opened reply byteLimit) t with
  | mk outcome u =>
    rw [hloop] at hends
    have hcleanup := c.sendQuietly_eq (terminateSession reply.session) u
    cases outcome with
    | resolved bytes => exact tryFinally_of_resolved hloop hcleanup
    | rejected error => exact tryFinally_of_rejected hloop hcleanup
    | running => exact absurd rfl hends

theorem opened_reads (reply : MavftpPayload) (byteLimit : Option ℕ) (file : Bytes) :
    (SequentialRead.opened reply byteLimit).Reads reply.session byteLimit reply.declaredSize
      file where
  inSession := rfl
  limited := rfl
  declared := rfl
  bytes := rfl
  inFile := Nat.zero_le _
  inLimit _ _ := Nat.zero_le _

/-! ## A file beyond the cap -/

theorem readLoop_beyond_cap (h : c.ReadsFile session file)
    (hfile : MAX_MAVFTP_FILE_BYTES ≤ file.length) (turns : ℕ) (hsession : r.session = session)
    (hlimit : r.byteLimit = none) (hdeclared : r.declaredSize = 0) (s : RemoteSession)
    (bytes : Bytes) : (c.readLoop turns r s).1 ≠ .resolved bytes := by
  induction turns generalizing r s with
  | zero => simp [readLoop, Prog.running]
  | succ turns ih =>
    cases hturn : r.turn with
    | stop =>
      rcases SequentialRead.turn_eq_stop hturn with ⟨limit, hsome, -⟩ | ⟨-, hpos, -⟩
      · rw [hlimit] at hsome
        cases hsome
      · omega
    | exceeded =>
      rw [c.readLoop_exceeded hturn]
      simp
    | read request =>
      obtain ⟨-, -, hcap, hrequest⟩ := SequentialRead.turn_eq_read hturn
      have hsize : request.size = MAVFTP_TRANSFER_CHUNK_SIZE := by
        rw [hrequest, SequentialRead.chunkSize, SequentialRead.remaining, hlimit, hdeclared]
        rfl
      have hoffset : request.offset = r.offset := by rw [hrequest]
      have hrequested : request.session = session := by
        rw [hrequest]
        exact hsession
      have hpos : 0 < MAVFTP_TRANSFER_CHUNK_SIZE := by decide
      obtain ⟨reply, count, hreply, hcount, -, hdata⟩ :=
        h.sendUntilEof_data hrequested (SequentialRead.opcode_of_read hturn) (hsize ▸ hpos)
          (by omega) s
      have hne : reply.data ≠ [] := by
        apply List.length_pos_iff.mp
        rw [hdata, slice, List.length_take, List.length_drop]
        omega
      rw [c.readLoop_read hturn hreply hne]
      exact ih (r := r.extended reply.data) hsession hlimit hdeclared _

def servingFile (file : Bytes) (declaredSize : ℕ) : Conversation where
  ensureSupport _ := .ok ()
  hasVehicle _ := true
  answer sent :=
    match sent.getLast? with
    | none => .error .noVehicle
    | some request =>
      if request.opcode = MAV_FTP_OPCODE.READ_FILE then
        if request.offset < file.length then
          .ok ⟨0, request.session, MAV_FTP_OPCODE.ACK, 0, request.opcode, 0, request.offset,
            slice file request.offset request.size⟩
        else .error (.request MAV_FTP_ERR.EOF none)
      else .ok ⟨0, 0, MAV_FTP_OPCODE.ACK, 4, request.opcode, 0, 0, leBytes 4 declaredSize⟩
  burst _ := .ok []
  burstActive _ := false
  aborted _ := false
  linkDropped _ := false

theorem servingFile_readsFile (file : Bytes) (declaredSize session : ℕ) :
    (servingFile file declaredSize).ReadsFile session file where
  vehicle _ := rfl
  data sent request _ hopcode hsize hoffset := by
    refine ⟨⟨0, request.session, MAV_FTP_OPCODE.ACK, 0, request.opcode, 0, request.offset,
      slice file request.offset request.size⟩, request.size, ?_, hsize, Nat.le_refl _, rfl⟩
    simp only [servingFile, List.getLast?_concat]
    rw [if_pos hopcode, if_pos hoffset]
  past sent request _ hopcode hoffset := by
    refine Or.inl ⟨none, ?_⟩
    simp only [servingFile, List.getLast?_concat]
    rw [if_pos hopcode, if_neg (by omega)]

/-! ## Reading exactly -/

/-- After a successful OPEN the loop is over within one turn for each byte of the cap and one more.
The reads are followed by one TERMINATE, provided there is still a vehicle to send it to. With a
server that reads out of a file, the outcome is the asked part of the file or, for a file that does
not fit the cap, the error that says so. -/
theorem readRemoteFile_exact (c : Conversation) (path : Text) (byteLimit : Option ℕ)
    (reply : MavftpPayload) (s t : RemoteSession)
    (hopened : c.openFileForRead (encodeText (normalizeMavftpPath path)) (c.afterClearing s) =
      (.resolved reply, t)) (turns : ℕ) (hturns : MAX_MAVFTP_FILE_BYTES < turns) :
    ∃ outcome u reads, c.readRemoteFileUnlocked turns path byteLimit s = (outcome, u) ∧
      outcome ≠ .running ∧
      (∀ request ∈ reads, request.opcode = MAV_FTP_OPCODE.READ_FILE) ∧
      u.sent = t.sent ++ reads ++
        (if c.hasVehicle (t.sent ++ reads) = true then [terminateSession reply.session] else []) ∧
      ∀ file, c.ReadsFile reply.session file →
        (byteLimit = none → DeclaresFile reply.declaredSize file) →
          (outcome = .resolved (filePrefix byteLimit file) ∨
            outcome = .rejected (.failed (.noEof MAX_MAVFTP_FILE_BYTES))) ∧
          (WithinCap byteLimit reply.declaredSize file.length →
            outcome = .resolved (filePrefix byteLimit file)) := by
  have hpos : 0 < turns := by omega
  have hoffset : (SequentialRead.opened reply byteLimit).offset = 0 := rfl
  have hends := c.readLoop_ends (r := SequentialRead.opened reply byteLimit) hpos (by omega) t
  obtain ⟨reads, hreads, hopcodes⟩ :=
    c.readLoop_sent turns (SequentialRead.opened reply byteLimit) t
  refine ⟨_, _, reads, readRemoteFileUnlocked_of_opened hopened turns byteLimit hends, hends,
    hopcodes, ?_, fun file hfile hdeclares => ?_⟩
  · rw [afterQuietly_sent, hreads]
  · rcases readLoop_exact hfile hdeclares (opened_reads reply byteLimit file) hpos (by omega) t
      with hexact | ⟨hexceeded, hbeyond⟩
    · exact ⟨Or.inl hexact, fun _ => hexact⟩
    · exact ⟨Or.inr hexceeded, fun hwithin => absurd hwithin hbeyond⟩

theorem small_file_read :
    ∃ outcome u reads, (servingFile [1, 2, 3] 3).readRemoteFileUnlocked
        (MAX_MAVFTP_FILE_BYTES + 1) (units "/a") (some 2) ⟨[], true⟩ = (outcome, u) ∧
      outcome = .resolved [1, 2] ∧
      (∀ request ∈ reads, request.opcode = MAV_FTP_OPCODE.READ_FILE) ∧
      u.sent = pathRequest MAV_FTP_OPCODE.OPEN_FILE_RO 0 [0x2F, 0x61] ::
        reads ++ [terminateSession 0] := by
  obtain ⟨outcome, u, reads, hread, -, hopcodes, hsent, hexact⟩ :=
    readRemoteFile_exact (servingFile [1, 2, 3] 3) (units "/a") (some 2) _ ⟨[], true⟩ _ rfl
      (MAX_MAVFTP_FILE_BYTES + 1) (Nat.lt_succ_self _)
  have hresult := (hexact [1, 2, 3] (servingFile_readsFile [1, 2, 3] 3 0) fun hnone => by cases hnone).2
    (Or.inl (by decide))
  exact ⟨outcome, u, reads, hread, hresult, hopcodes, hsent⟩

/-- A file of as many bytes as the cap, opened without a size, is not read. -/
theorem file_of_cap_not_read :
    ¬ ∀ (c : Conversation) (path : Text) (byteLimit : Option ℕ) (reply : MavftpPayload)
        (s t : RemoteSession) (file : Bytes),
      c.openFileForRead (encodeText (normalizeMavftpPath path)) (c.afterClearing s) =
        (.resolved reply, t) →
      c.ReadsFile reply.session file →
      (byteLimit = none → DeclaresFile reply.declaredSize file) →
        ∃ enough, ∀ turns ≥ enough, (c.readRemoteFileUnlocked turns path byteLimit s).1 =
          .resolved (filePrefix byteLimit file) := by
  intro h
  obtain ⟨file, hfile⟩ : ∃ file : Bytes, file.length = MAX_MAVFTP_FILE_BYTES :=
    ⟨List.replicate MAX_MAVFTP_FILE_BYTES 0, List.length_replicate⟩
  have hserver := servingFile_readsFile file 0 0
  obtain ⟨enough, hread⟩ := h (servingFile file 0) (units "/a") none _ ⟨[], true⟩ _ file rfl hserver
    fun _ => Or.inl rfl
  obtain ⟨turns, hturns⟩ : ∃ turns, turns = enough + MAX_MAVFTP_FILE_BYTES + 1 := ⟨_, rfl⟩
  have hrejected := readLoop_beyond_cap hserver hfile.ge turns
    (r := SequentialRead.opened ⟨0, 0, MAV_FTP_OPCODE.ACK, 4, 4, 0, 0, leBytes 4 0⟩ none) rfl rfl rfl
  have hends := @readLoop_ends (servingFile file 0) turns
    (SequentialRead.opened ⟨0, 0, MAV_FTP_OPCODE.ACK, 4, 4, 0, 0, leBytes 4 0⟩ none)
    (by omega) (by omega)
  have hresolved := hread turns (by omega)
  rw [readRemoteFileUnlocked_of_opened rfl turns none (hends _)] at hresolved
  exact hrejected _ _ hresolved

end Conversation
end ArduConfigurator.Mavftp
