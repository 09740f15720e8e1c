import ArduConfigurator.Mavftp.ReadExact

/-! # Uploading a file

From the reply to the CREATE on, an upload writes its chunks in their order until one of them is
refused, and then closes the session. The close is part of the upload: the upload resolves when it
and every write were acknowledged, and reports the write that was refused before a close that was.
A server that stores what it acknowledges holds the whole content then, as far as a write can name
its place in 32 bits. -/
namespace ArduConfigurator.Mavftp
open Effects
set_option autoImplicit false

/-! ## Requests in turn -/

def chunkWrite (session : ℕ) (bytes : Bytes) (offset : ℕ) : Request :=
  ⟨session, MAV_FTP_OPCODE.WRITE_FILE, (slice bytes offset MAVFTP_TRANSFER_CHUNK_SIZE).length,
    offset, slice bytes offset MAVFTP_TRANSFER_CHUNK_SIZE⟩

def chunkWrites (session : ℕ) (bytes : Bytes) : List Request :=
  (uploadOffsets bytes.length).map (chunkWrite session bytes)

namespace Conversation

variable (c : Conversation)

def outcomeOf (sent : List Request) (request : Request) : Except MavftpError MavftpPayload :=
  if c.hasVehicle sent = false then .error .noVehicle else c.answer (sent ++ [request])

def Acknowledged (sent : List Request) (request : Request) : Prop :=
  ∃ reply, c.outcomeOf sent request = .ok reply

def AllAcknowledged : List Request → List Request → Prop
  | _, [] => True
  | sent, request :: requests =>
    c.Acknowledged sent request ∧ AllAcknowledged (sent ++ [request]) requests

def afterSends (s : RemoteSession) : List Request → RemoteSession
  | [] => s
  | request :: requests => afterSends (c.afterSend request s) requests

theorem afterSends_sent (s : RemoteSession) (requests : List Request) :
    (c.afterSends s requests).sent = s.sent ++ requests := by
  induction requests generalizing s with
  | nil => exact (List.append_nil _).symm
  | cons request requests ih =>
    rw [afterSends, ih, afterSend, List.append_assoc]
    rfl

theorem send_eq (request : Request) (s : RemoteSession) :
    c.send request s =
      match c.outcomeOf s.sent request with
      | .ok reply => (.resolved reply, c.afterQuietly request s)
      | .error error => (.rejected (.failed error), c.afterQuietly request s) := by
  unfold send outcomeOf afterQuietly
  by_cases hvehicle : c.hasVehicle s.sent = false
  · rw [if_pos hvehicle, if_pos hvehicle, if_pos hvehicle]
  · cases c.answer (s.sent ++ [request]) <;> simp only [if_neg hvehicle]

variable {c} {request : Request} {s : RemoteSession} {reply : MavftpPayload}

theorem afterQuietly_of_ok (h : c.outcomeOf s.sent request = .ok reply) :
    c.afterQuietly request s = c.afterSend request s := by
  unfold outcomeOf at h
  split at h
  · cases h
  · next hvehicle => rw [afterQuietly, if_neg hvehicle]

/-! ## The writes -/

def writeChunk (c : Conversation) (session : ℕ) (bytes : Bytes) (offset : ℕ) : Operation Unit := do
  let _ ← c.send (chunkWrite session bytes offset)

variable {session : ℕ} {bytes : Bytes} {offset : ℕ}

theorem writeChunk_of_ok (h : c.outcomeOf s.sent (chunkWrite session bytes offset) = .ok reply) :
    c.writeChunk session bytes offset s =
      (.resolved (), c.afterSend (chunkWrite session bytes offset) s) := by
  have hsend := c.send_eq (chunkWrite session bytes offset) s
  rw [h, afterQuietly_of_ok h] at hsend
  rw [writeChunk, bind_of_resolved hsend]
  rfl

variable {error : MavftpError}

theorem writeChunk_of_error
    (h : c.outcomeOf s.sent (chunkWrite session bytes offset) = .error error) :
    c.writeChunk session bytes offset s =
      (.rejected (.failed error), c.afterQuietly (chunkWrite session bytes offset) s) := by
  have hsend := c.send_eq (chunkWrite session bytes offset) s
  rw [h] at hsend
  rw [writeChunk, bind_of_rejected hsend]

theorem writes_outcome (session : ℕ) (bytes : Bytes) (offsets : List ℕ) (s : RemoteSession) :
    (c.AllAcknowledged s.sent (offsets.map (chunkWrite session bytes)) ∧
      Prog.forEach (c.writeChunk session bytes) offsets s =
        (.resolved (), c.afterSends s (offsets.map (chunkWrite session bytes)))) ∨
    ∃ before request after error,
      offsets.map (chunkWrite session bytes) = before ++ request :: after ∧
      c.AllAcknowledged s.sent before ∧ c.outcomeOf (s.sent ++ before) request = .error error ∧
      Prog.forEach (c.writeChunk session bytes) offsets s =
        (.rejected (.failed error), c.afterQuietly request (c.afterSends s before)) := by
  induction offsets generalizing s with
  | nil => exact Or.inl ⟨trivial, rfl⟩
  | cons offset offsets ih =>
    cases houtcome : c.outcomeOf s.sent (chunkWrite session bytes offset) with
    | error error =>
      right
      refine ⟨[], chunkWrite session bytes offset, offsets.map (chunkWrite session bytes), error,
        rfl, trivial, ?_, ?_⟩
      · rw [List.append_nil]
        exact houtcome
      · rw [Prog.forEach, bind_of_rejected (writeChunk_of_error houtcome)]
        rfl
    | ok reply =>
      rw [Prog.forEach, bind_of_resolved (writeChunk_of_ok houtcome), List.map_cons]
      rcases ih (c.afterSend (chunkWrite session bytes offset) s) with
        ⟨hall, hrun⟩ | ⟨before, request, after, error, hsplit, hacked, herror, hrun⟩
      · exact Or.inl ⟨⟨⟨reply, houtcome⟩, hall⟩, hrun⟩
      · right
        refine ⟨chunkWrite session bytes offset :: before, request, after, error, ?_,
          ⟨⟨reply, houtcome⟩, hacked⟩, ?_, hrun⟩
        · rw [hsplit, List.cons_append]
        · rw [List.append_cons s.sent]
          exact herror

/-! ## The close -/

theorem closeUpload_of_ok (path : Text)
    (h : c.outcomeOf s.sent (terminateSession session) = .ok reply) (writeFailed : Bool) :
    c.closeUpload path session writeFailed s =
      (.resolved (), c.afterQuietly (terminateSession session) s) := by
  have hsend := c.send_eq (terminateSession session) s
  rw [h] at hsend
  have hclose : (do let _ ← c.send (terminateSession session); return ()) s =
      ((.resolved (), c.afterQuietly (terminateSession session) s) :
        Outcome OperationError Unit × RemoteSession) := by
    rw [bind_of_resolved hsend]
    rfl
  rw [closeUpload, Prog.catchError, hclose]

theorem closeUpload_of_error (path : Text)
    (h : c.outcomeOf s.sent (terminateSession session) = .error error) (writeFailed : Bool) :
    c.closeUpload path session writeFailed s =
      (if writeFailed then .resolved () else .rejected (.uploadRejected path (.failed error)),
        c.afterQuietly (terminateSession session) s) := by
  have hsend := c.send_eq (terminateSession session) s
  rw [h] at hsend
  have hclose : (do let _ ← c.send (terminateSession session); return ()) s =
      ((.rejected (.failed error), c.afterQuietly (terminateSession session) s) :
        Outcome OperationError Unit × RemoteSession) := by
    rw [bind_of_rejected hsend]
  rw [closeUpload, Prog.catchError, hclose]
  cases writeFailed <;> rfl

/-! ## From the reply to the CREATE on -/

/-- How an upload ends whose file was created, and the session before the close: every write went
through, and the close decides; or a write was refused, and that is what is reported. -/
inductive UploadEnd (c : Conversation) (path : Text) (session : ℕ) (writes : List Request)
    (s : RemoteSession) : Outcome OperationError Unit → RemoteSession → Prop
  | closed (hwrites : c.AllAcknowledged s.sent writes)
      (hclose : c.Acknowledged (s.sent ++ writes) (terminateSession session)) :
      UploadEnd c path session writes s (.resolved ()) (c.afterSends s writes)
  | refused {error : MavftpError} (hwrites : c.AllAcknowledged s.sent writes)
      (hclose : c.outcomeOf (s.sent ++ writes) (terminateSession session) = .error error) :
      UploadEnd c path session writes s (.rejected (.uploadRejected path (.failed error)))
        (c.afterSends s writes)
  | failed {before after : List Request} {request : Request} {error : MavftpError}
      (hsplit : writes = before ++ request :: after) (hwrites : c.AllAcknowledged s.sent before)
      (hwrite : c.outcomeOf (s.sent ++ before) request = .error error) :
      UploadEnd c path session writes s (.rejected (.failed error))
        (c.afterQuietly request (c.afterSends s before))

theorem upload_end (path : Text) (session : ℕ) (bytes : Bytes) (s : RemoteSession) :
    ∃ outcome u, UploadEnd c path session (chunkWrites session bytes) s outcome u ∧
      Prog.tryFinally (Prog.forEach (c.writeChunk session bytes) (uploadOffsets bytes.length))
        (c.closeUpload path session) s =
          (outcome, c.afterQuietly (terminateSession session) u) := by
  rcases writes_outcome session bytes (uploadOffsets bytes.length) s with
    ⟨hall, hrun⟩ | ⟨before, request, after, error, hsplit, hacked, herror, hrun⟩
  · have hsent := c.afterSends_sent s (chunkWrites session bytes)
    cases hclose : c.outcomeOf (s.sent ++ chunkWrites session bytes)
        (terminateSession session) with
    | ok reply =>
      refine ⟨_, _, .closed hall ⟨reply, hclose⟩, ?_⟩
      exact tryFinally_of_resolved hrun (closeUpload_of_ok path (hsent ▸ hclose) false)
    | error error =>
      refine ⟨_, _, .refused hall hclose, ?_⟩
      exact tryFinally_of_cleanup_rejected hrun (closeUpload_of_error path (hsent ▸ hclose) false)
  · refine ⟨_, _, .failed hsplit hacked herror, ?_⟩
    have hclosed : c.closeUpload path session true
        (c.afterQuietly request (c.afterSends s before)) = (.resolved (),
          c.afterQuietly (terminateSession session)
            (c.afterQuietly request (c.afterSends s before))) := by
      cases hclose : c.outcomeOf (c.afterQuietly request (c.afterSends s before)).sent
          (terminateSession session) with
      | ok reply => exact closeUpload_of_ok path hclose true
      | error error => exact closeUpload_of_error path hclose true
    exact tryFinally_of_rejected hrun hclosed

theorem chunkWrites_opcode (h : request ∈ chunkWrites session bytes) :
    request.opcode = MAV_FTP_OPCODE.WRITE_FILE := by
  obtain ⟨offset, -, rfl⟩ := List.mem_map.mp h
  rfl

variable {path : Text} {u : RemoteSession} {outcome : Outcome OperationError Unit}

theorem UploadEnd.sent (h : UploadEnd c path session (chunkWrites session bytes) s outcome u) :
    ∃ writes, u.sent = s.sent ++ writes ∧
      ∀ request ∈ writes, request.opcode = MAV_FTP_OPCODE.WRITE_FILE := by
  have hwrites (request : Request) (hmem : request ∈ chunkWrites session bytes) :
      request.opcode = MAV_FTP_OPCODE.WRITE_FILE := chunkWrites_opcode hmem
  cases h with
  | closed _ _ => exact ⟨_, c.afterSends_sent s _, hwrites⟩
  | refused _ _ => exact ⟨_, c.afterSends_sent s _, hwrites⟩
  | @failed before after request error hsplit _ _ =>
    rw [hsplit] at hwrites
    refine ⟨before ++ if c.hasVehicle (s.sent ++ before) = true then [request] else [], ?_, ?_⟩
    · rw [afterQuietly_sent, afterSends_sent, List.append_assoc]
    · intro sent hsent
      rcases List.mem_append.mp hsent with hbefore | hlast
      · exact hwrites sent (List.mem_append_left _ hbefore)
      · apply hwrites sent
        split at hlast
        · rw [List.mem_singleton.mp hlast]
          exact List.mem_append_right _ List.mem_cons_self
        · cases hlast

variable {before after sent : List Request}

theorem AllAcknowledged.ack_at (h : c.AllAcknowledged sent (before ++ request :: after)) :
    c.Acknowledged (sent ++ before) request := by
  induction before generalizing sent with
  | nil =>
    rw [List.append_nil]
    exact h.1
  | cons head before ih =>
    rw [List.append_cons]
    exact ih h.2

theorem first_refused_unique {before' after' : List Request} {request' : Request}
    {error' : MavftpError} (hsplit : before ++ request :: after = before' ++ request' :: after')
    (hacked : c.AllAcknowledged sent before) (hacked' : c.AllAcknowledged sent before')
    (herror : c.outcomeOf (sent ++ before) request = .error error)
    (herror' : c.outcomeOf (sent ++ before') request' = .error error') : error = error' := by
  induction before generalizing sent before' with
  | nil =>
    cases before' with
    | nil =>
      obtain ⟨rfl, -⟩ := List.cons.inj hsplit
      rw [herror] at herror'
      exact Except.error.inj herror'
    | cons head before' =>
      obtain ⟨rfl, -⟩ := List.cons.inj hsplit
      obtain ⟨reply, hreply⟩ := hacked'.1
      rw [List.append_nil, hreply] at herror
      cases herror
  | cons head before ih =>
    cases before' with
    | nil =>
      obtain ⟨rfl, -⟩ := List.cons.inj hsplit
      obtain ⟨reply, hreply⟩ := hacked.1
      rw [List.append_nil, hreply] at herror'
      cases herror'
    | cons head' before' =>
      obtain ⟨rfl, hrest⟩ := List.cons.inj hsplit
      rw [List.append_cons] at herror herror'
      exact ih hrest hacked.2 hacked'.2 herror herror'

variable {writes : List Request}

theorem UploadEnd.resolved_iff (h : UploadEnd c path session writes s outcome u) :
    outcome = .resolved () ↔ c.AllAcknowledged s.sent writes ∧
      c.Acknowledged (s.sent ++ writes) (terminateSession session) := by
  cases h with
  | closed hwrites hclose => exact ⟨fun _ => ⟨hwrites, hclose⟩, fun _ => rfl⟩
  | refused _ hclose =>
    refine ⟨fun h => (by cases h), fun ⟨_, reply, hreply⟩ => ?_⟩
    rw [hreply] at hclose
    cases hclose
  | failed hsplit _ hwrite =>
    refine ⟨fun h => (by cases h), fun ⟨hall, _⟩ => ?_⟩
    rw [hsplit] at hall
    obtain ⟨reply, hreply⟩ := hall.ack_at
    rw [hreply] at hwrite
    cases hwrite

theorem UploadEnd.reports (h : UploadEnd c path session writes s outcome u)
    (hsplit : writes = before ++ request :: after) (hacked : c.AllAcknowledged s.sent before)
    (herror : c.outcomeOf (s.sent ++ before) request = .error error) :
    outcome = .rejected (.failed error) := by
  have hnone : ¬ c.AllAcknowledged s.sent writes := by
    intro hall
    rw [hsplit] at hall
    obtain ⟨reply, hreply⟩ := hall.ack_at
    rw [hreply] at herror
    cases herror
  cases h with
  | closed hwrites _ => exact absurd hwrites hnone
  | refused hwrites _ => exact absurd hwrites hnone
  | failed hsplit' hacked' herror' =>
    rw [hsplit] at hsplit'
    rw [first_refused_unique hsplit' hacked hacked' herror herror']

/-! ## The whole upload -/

def Created (c : Conversation) (path : Text) (overwrite : Bool) (s : RemoteSession)
    (reply : MavftpPayload) (t : RemoteSession) : Prop :=
  c.ensureSupport s.sent = .ok () ∧
    c.createFile (normalizeMavftpPath path) overwrite (c.afterClearing s) = (.resolved reply, t)

theorem ensuringSupport_of_ok (h : c.ensureSupport s.sent = .ok ()) :
    c.ensuringSupport s = (.resolved (), s) := by
  rw [ensuringSupport, h]

variable {overwrite : Bool}

theorem uploadRemoteFileUnlocked_of_created {t : RemoteSession}
    (h : c.Created path overwrite s reply t) (bytes : Bytes) :
    c.uploadRemoteFileUnlocked path bytes overwrite s =
      Prog.tryFinally
        (Prog.forEach (c.writeChunk reply.session bytes) (uploadOffsets bytes.length))
        (c.closeUpload (normalizeMavftpPath path) reply.session) t := by
  unfold uploadRemoteFileUnlocked
  rw [bind_of_resolved (ensuringSupport_of_ok h.1),
    bind_of_resolved (c.clearStaleSessionsOnce_eq s), bind_of_resolved h.2]
  rfl

theorem created_of_resolved
    (h : (c.uploadRemoteFileUnlocked path bytes overwrite s).1 = .resolved ()) :
    ∃ reply t, c.Created path overwrite s reply t := by
  unfold uploadRemoteFileUnlocked at h
  cases hsupport : c.ensureSupport s.sent with
  | error error =>
    have hrejected : c.ensuringSupport s = (.rejected (.failed error), s) := by
      rw [ensuringSupport, hsupport]
    rw [bind_of_rejected hrejected] at h
    cases h
  | ok _ =>
    rw [bind_of_resolved (ensuringSupport_of_ok hsupport),
      bind_of_resolved (c.clearStaleSessionsOnce_eq s)] at h
    cases hcreate : c.createFile (normalizeMavftpPath path) overwrite (c.afterClearing s) with
    | mk outcome t =>
      cases outcome with
      | resolved reply => exact ⟨reply, t, hsupport, hcreate⟩
      | rejected error =>
        rw [bind_of_rejected hcreate] at h
        cases h
      | running =>
        rw [bind_of_running hcreate] at h
        cases h

end Conversation

/-! ## What the server stores -/

/-- The file of a server behind a write that it acknowledged. The offset of a write has 32 bits. -/
def storeWrite (file : Bytes) (write : Request) : Bytes :=
  let offset := write.offset % 2 ^ 32
  file.take offset ++ List.replicate (offset - file.length) 0 ++ write.data ++
    file.drop (offset + write.data.length)

def storedFile (writes : List Request) : Bytes := writes.foldl storeWrite []

variable {bytes : Bytes} {session : ℕ}

theorem storeWrite_chunk {offset : ℕ} (hoffset : offset < 2 ^ 32)
    (hinside : offset ≤ bytes.length) :
    storeWrite (bytes.take offset) (chunkWrite session bytes offset) =
      bytes.take (offset + MAVFTP_TRANSFER_CHUNK_SIZE) := by
  have hlength : (bytes.take offset).length = offset := by
    rw [List.length_take]
    omega
  unfold storeWrite chunkWrite
  simp only [Nat.mod_eq_of_lt hoffset, hlength, Nat.sub_self, List.replicate_zero, List.append_nil]
  rw [List.take_of_length_le hlength.le, List.drop_of_length_le (by omega), List.append_nil,
    List.take_add, slice]

theorem storedFile_front (hbytes : bytes.length ≤ 2 ^ 32) (count : ℕ)
    (hcount : count * MAVFTP_TRANSFER_CHUNK_SIZE < bytes.length + MAVFTP_TRANSFER_CHUNK_SIZE) :
    storedFile (((List.range count).map (· * MAVFTP_TRANSFER_CHUNK_SIZE)).map
      (chunkWrite session bytes)) = bytes.take (count * MAVFTP_TRANSFER_CHUNK_SIZE) := by
  induction count with
  | zero => simp [storedFile]
  | succ count ih =>
    rw [Nat.succ_mul] at hcount
    have hfront := ih (by omega)
    unfold storedFile at hfront ⊢
    rw [List.range_succ, List.map_append, List.map_append, List.foldl_append, hfront,
      List.map_singleton, List.map_singleton, List.foldl_cons, List.foldl_nil,
      storeWrite_chunk (by omega) (by omega), Nat.succ_mul]

theorem storedFile_chunkWrites (hbytes : bytes.length ≤ 2 ^ 32) (session : ℕ) :
    storedFile (chunkWrites session bytes) = bytes := by
  have hsize : MAVFTP_TRANSFER_CHUNK_SIZE = 200 := rfl
  have hcount : (bytes.length + MAVFTP_TRANSFER_CHUNK_SIZE - 1) / MAVFTP_TRANSFER_CHUNK_SIZE *
      MAVFTP_TRANSFER_CHUNK_SIZE < bytes.length + MAVFTP_TRANSFER_CHUNK_SIZE := by
    rw [hsize]
    omega
  rw [chunkWrites, uploadOffsets, storedFile_front hbytes _ hcount, List.take_of_length_le]
  rw [hsize]
  omega

theorem storedFile_length_le {writes : List Request}
    (hwrites : ∀ write ∈ writes, write.data.length ≤ MAVFTP_TRANSFER_CHUNK_SIZE) :
    (storedFile writes).length < 2 ^ 32 + MAVFTP_TRANSFER_CHUNK_SIZE := by
  unfold storedFile
  induction writes using List.reverseRecOn with
  | nil => simp [MAVFTP_TRANSFER_CHUNK_SIZE]
  | append_singleton writes write ih =>
    have hbefore := ih fun w hw => hwrites w (List.mem_append_left _ hw)
    have hdata := hwrites write (List.mem_append_right _ List.mem_cons_self)
    have hoffset : write.offset % 2 ^ 32 < 2 ^ 32 := Nat.mod_lt _ (by decide)
    rw [List.foldl_append, List.foldl_cons, List.foldl_nil, storeWrite]
    simp only [List.length_append, List.length_take, List.length_replicate, List.length_drop]
    omega

namespace Conversation

variable {c : Conversation}

/-- An upload resolves exactly when the file was created and every write and the close were
acknowledged. Behind a successful CREATE go writes and one TERMINATE, provided there is still a
vehicle to send it to; a write that was refused is what is reported, whatever becomes of the close.
The acknowledged writes of a content of up to 2^32 bytes leave that content on the server. -/
theorem upload_exact (c : Conversation) (path : Text) (bytes : Bytes) (overwrite : Bool)
    (s : RemoteSession) :
    ((c.uploadRemoteFileUnlocked path bytes overwrite s).1 = .resolved () ↔
      ∃ reply t, c.Created path overwrite s reply t ∧
        c.AllAcknowledged t.sent (chunkWrites reply.session bytes) ∧
        c.Acknowledged (t.sent ++ chunkWrites reply.session bytes)
          (terminateSession reply.session)) ∧
    (∀ reply t, c.Created path overwrite s reply t →
      (∃ writes, (∀ request ∈ writes, request.opcode = MAV_FTP_OPCODE.WRITE_FILE) ∧
        (c.uploadRemoteFileUnlocked path bytes overwrite s).2.sent = t.sent ++ writes ++
          if c.hasVehicle (t.sent ++ writes) = true then [terminateSession reply.session]
          else []) ∧
      ∀ before request after error,
        chunkWrites reply.session bytes = before ++ request :: after →
        c.AllAcknowledged t.sent before → c.outcomeOf (t.sent ++ before) request = .error error →
          (c.uploadRemoteFileUnlocked path bytes overwrite s).1 = .rejected (.failed error)) ∧
    (bytes.length ≤ 2 ^ 32 → ∀ session, storedFile (chunkWrites session bytes) = bytes) := by
  refine ⟨⟨fun hresolved => ?_, ?_⟩, fun reply t hcreated => ?_, storedFile_chunkWrites⟩
  · obtain ⟨reply, t, hcreated⟩ := created_of_resolved hresolved
    obtain ⟨outcome, u, hend, hrun⟩ :=
      c.upload_end (normalizeMavftpPath path) reply.session bytes t
    rw [uploadRemoteFileUnlocked_of_created hcreated, hrun] at hresolved
    exact ⟨reply, t, hcreated, hend.resolved_iff.mp hresolved⟩
  · rintro ⟨reply, t, hcreated, hacked⟩
    obtain ⟨outcome, u, hend, hrun⟩ :=
      c.upload_end (normalizeMavftpPath path) reply.session bytes t
    rw [uploadRemoteFileUnlocked_of_created hcreated, hrun]
    exact hend.resolved_iff.mpr hacked
  · obtain ⟨outcome, u, hend, hrun⟩ :=
      c.upload_end (normalizeMavftpPath path) reply.session bytes t
    rw [uploadRemoteFileUnlocked_of_created hcreated, hrun]
    refine ⟨?_, fun before request after error hsplit hacked herror =>
      hend.reports hsplit hacked herror⟩
    obtain ⟨writes, hsent, hopcodes⟩ := hend.sent
    refine ⟨writes, hopcodes, ?_⟩
    rw [afterQuietly_sent, hsent]

def acknowledgingAll : Conversation where
  ensureSupport _ := .ok ()
  hasVehicle _ := true
  answer _ := .ok ⟨0, 0, MAV_FTP_OPCODE.ACK, 0, 0, 0, 0, []⟩
  burst _ := .ok []
  burstActive _ := false
  aborted _ := false
  linkDropped _ := false

theorem acknowledgingAll_all (sent requests : List Request) :
    acknowledgingAll.AllAcknowledged sent requests := by
  induction requests generalizing sent with
  | nil => trivial
  | cons request requests ih => exact ⟨⟨_, rfl⟩, ih _⟩

theorem acknowledgingAll_created (path : Text) (overwrite : Bool) (s : RemoteSession) :
    ∃ reply t, acknowledgingAll.Created path overwrite s reply t := ⟨_, _, rfl, rfl⟩

theorem small_upload :
    (acknowledgingAll.uploadRemoteFileUnlocked (units "/a") [1, 2, 3] true ⟨[], true⟩).1 =
        .resolved () ∧ storedFile (chunkWrites 0 [1, 2, 3]) = [1, 2, 3] := by
  obtain ⟨hiff, -, hstored⟩ := upload_exact acknowledgingAll (units "/a") [1, 2, 3] true ⟨[], true⟩
  obtain ⟨reply, t, hcreated⟩ := acknowledgingAll_created (units "/a") true ⟨[], true⟩
  exact ⟨hiff.mpr ⟨reply, t, hcreated, acknowledgingAll_all _ _, _, rfl⟩, hstored (by decide) 0⟩

/-- A content of 2^32 + 200 bytes does not fit the offsets of the writes, and still its upload
resolves. -/
theorem content_beyond_offsets :
    ¬ ∀ (c : Conversation) (path : Text) (bytes : Bytes) (overwrite : Bool)
        (s t : RemoteSession) (reply : MavftpPayload),
      c.Created path overwrite s reply t →
      (c.uploadRemoteFileUnlocked path bytes overwrite s).1 = .resolved () →
        storedFile (chunkWrites reply.session bytes) = bytes := by
  intro h
  obtain ⟨bytes, hbytes⟩ : ∃ bytes : Bytes, bytes.length = 2 ^ 32 + 200 :=
    ⟨List.replicate (2 ^ 32 + 200) 0, List.length_replicate⟩
  obtain ⟨reply, t, hcreated⟩ := acknowledgingAll_created (units "/a") true ⟨[], true⟩
  obtain ⟨outcome, u, hend, hrun⟩ :=
    acknowledgingAll.upload_end (normalizeMavftpPath (units "/a")) reply.session bytes t
  have hresolved : (acknowledgingAll.uploadRemoteFileUnlocked (units "/a") bytes true
      ⟨[], true⟩).1 = .resolved () := by
    rw [uploadRemoteFileUnlocked_of_created hcreated, hrun]
    exact hend.resolved_iff.mpr ⟨acknowledgingAll_all _ _, _, rfl⟩
  have hstored := h _ _ bytes _ _ t reply hcreated hresolved
  have hshort : (storedFile (chunkWrites reply.session bytes)).length <
      2 ^ 32 + MAVFTP_TRANSFER_CHUNK_SIZE := by
    refine storedFile_length_le fun write hwrite => ?_
    obtain ⟨offset, -, rfl⟩ := List.mem_map.mp hwrite
    exact List.length_take_le _ _
  rw [hstored, hbytes] at hshort
  exact absurd hshort (by decide)

end Conversation
end ArduConfigurator.Mavftp
