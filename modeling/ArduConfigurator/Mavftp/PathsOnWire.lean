import ArduConfigurator.Mavftp.Operations

/-! # Paths on the wire

Which bytes the vehicle reads as the path of a request, and when they are those of the path that
the caller named, normalised. The data field holds 239 bytes; a request cuts off what is longer. -/
namespace ArduConfigurator.Mavftp
open Effects
set_option autoImplicit false

/-! ## Requests that name a path -/

/-- What `send` puts on the wire of a request. -/
def Request.payload (request : Request) (seqNumber : ℕ) : MavftpPayload where
  seqNumber
  session := request.session
  opcode := request.opcode
  size := request.size
  reqOpcode := 0
  burstComplete := 0
  offset := request.offset
  data := request.data

def Request.namesPath (request : Request) : Bool :=
  request.opcode = MAV_FTP_OPCODE.LIST_DIRECTORY ∨ request.opcode = MAV_FTP_OPCODE.OPEN_FILE_RO ∨
    request.opcode = MAV_FTP_OPCODE.CREATE_FILE ∨ request.opcode = MAV_FTP_OPCODE.REMOVE_FILE ∨
    request.opcode = MAV_FTP_OPCODE.REMOVE_DIRECTORY

/-- The size field counts these bytes and the data field begins with them. -/
def Request.Carries (request : Request) (bytes : Bytes) : Prop :=
  ∀ seqNumber, byteAt (encodeMavftpPayload (request.payload seqNumber)) 4 = bytes.length ∧
    slice (encodeMavftpPayload (request.payload seqNumber)) MAVFTP_DATA_OFFSET bytes.length = bytes

def pathField (pathBytes : Bytes) : Bytes :=
  pathBytes.take MAVFTP_MAX_DATA_SIZE ++
    List.replicate (MAVFTP_MAX_DATA_SIZE - pathBytes.length) 0

theorem pathField_length (pathBytes : Bytes) :
    (pathField pathBytes).length = MAVFTP_MAX_DATA_SIZE := by
  rw [pathField, List.length_append, List.length_take, List.length_replicate]
  omega

variable {opcode offset : ℕ} {pathBytes bytes : Bytes}

theorem carries_pathRequest_iff :
    (pathRequest opcode offset pathBytes).Carries bytes ↔
      pathBytes.length % 256 = bytes.length ∧ (pathField pathBytes).take bytes.length = bytes := by
  have hsize (seqNumber : ℕ) : byteAt (encodeMavftpPayload
      ((pathRequest opcode offset pathBytes).payload seqNumber)) 4 = pathBytes.length % 256 := by
    simp [byteAt, encodeMavftpPayload, leBytes, Request.payload, pathRequest]
  have hdata (seqNumber : ℕ) : slice (encodeMavftpPayload
      ((pathRequest opcode offset pathBytes).payload seqNumber)) MAVFTP_DATA_OFFSET bytes.length =
      (pathField pathBytes).take bytes.length := by
    have hwire : ((pathRequest opcode offset pathBytes).payload seqNumber).wireData =
        pathBytes.take MAVFTP_MAX_DATA_SIZE := by
      rw [MavftpPayload.wireData, Request.payload, pathRequest]
      dsimp only
      rw [min_comm, ← List.take_take, List.take_length]
    have hlength : MAVFTP_MAX_DATA_SIZE - (pathBytes.take MAVFTP_MAX_DATA_SIZE).length =
        MAVFTP_MAX_DATA_SIZE - pathBytes.length := by
      rw [List.length_take]
      omega
    rw [encodeMavftpPayload, hwire, hlength, ← pathField]
    simp [slice, leBytes, MAVFTP_DATA_OFFSET]
  unfold Request.Carries
  simp only [hsize, hdata]
  exact ⟨fun h => h 0, fun h _ => h⟩

theorem carries_of_fits (h : bytes.length ≤ MAVFTP_MAX_DATA_SIZE) :
    (pathRequest opcode offset bytes).Carries bytes := by
  refine carries_pathRequest_iff.mpr ⟨Nat.mod_eq_of_lt ?_, ?_⟩
  · exact h.trans_lt (by decide)
  · rw [pathField, List.take_of_length_le h, List.take_left]

theorem fits_of_carries (h : (pathRequest opcode offset pathBytes).Carries bytes) :
    bytes.length ≤ MAVFTP_MAX_DATA_SIZE := by
  have hlength := congrArg List.length (carries_pathRequest_iff.mp h).2
  rw [List.length_take, pathField_length] at hlength
  omega

theorem eq_of_carries (h : (pathRequest opcode offset pathBytes).Carries bytes)
    (hlength : pathBytes.length ≤ max 4 bytes.length) : pathBytes = bytes := by
  have hfits := fits_of_carries h
  obtain ⟨hsize, hdata⟩ := carries_pathRequest_iff.mp h
  simp only [MAVFTP_MAX_DATA_SIZE] at hfits
  rw [Nat.mod_eq_of_lt (by omega)] at hsize
  have hwhole : pathBytes.length ≤ MAVFTP_MAX_DATA_SIZE := by
    simp only [MAVFTP_MAX_DATA_SIZE]
    omega
  rwa [pathField, List.take_of_length_le hwhole, ← hsize, List.take_left] at hdata

/-! ## What a conversation sends -/

/-- Every request of the operation that names a path carries these bytes. -/
def Exact (bytes : Bytes) (sent : List Request) : Prop :=
  ∀ r ∈ sent, r.namesPath = true → r.Carries bytes

def Named (sent : List Request) : Prop := ∃ r ∈ sent, r.namesPath = true

def Quiet (J : List Request → Prop) : Prop :=
  ∀ sent r, r.namesPath = false → J sent → J (sent ++ [r])

theorem exact_append {sent : List Request} {r : Request} (h : Exact bytes sent)
    (hr : r.namesPath = true → r.Carries bytes) : Exact bytes (sent ++ [r]) := by
  intro x hx
  rcases List.mem_append.mp hx with hx | hx
  · exact h x hx
  · exact List.mem_singleton.mp hx ▸ hr

theorem quiet_exact (bytes : Bytes) : Quiet (Exact bytes) :=
  fun _ _ hr h => exact_append h fun htrue => absurd (hr.symm.trans htrue) (by decide)

theorem quiet_exact_named (bytes : Bytes) : Quiet fun sent => Exact bytes sent ∧ Named sent := by
  rintro sent r hr ⟨hexact, x, hx, hnames⟩
  exact ⟨quiet_exact bytes sent r hr hexact, x, List.mem_append_left _ hx, hnames⟩

namespace Conversation

variable {c : Conversation} {J : List Request → Prop}

def Sent (J : List Request → Prop) (s : RemoteSession) : Prop := J s.sent

variable {request : Request} {K : List Request → Prop}

theorem triple_send (h : ∀ sent, J sent → K (sent ++ [request])) (hstop : ∀ sent, K sent → J sent) :
    Triple (Sent J) (c.send request) (fun _ => Sent K) (Sent J) := by
  intro s hs
  unfold send
  by_cases hvehicle : c.hasVehicle s.sent = false
  · rw [if_pos hvehicle]
    exact hs
  · rw [if_neg hvehicle]
    dsimp only
    cases c.answer (s.sent ++ [request]) with
    | ok response => exact h s.sent hs
    | error error => exact hstop _ (h s.sent hs)

theorem triple_send_quiet (hJ : Quiet J) (hr : request.namesPath = false) :
    Triple (Sent J) (c.send request) (fun _ => Sent J) (Sent J) :=
  triple_send (fun sent => hJ sent request hr) fun _ => id

theorem exact_named_append (hfits : bytes.length ≤ MAVFTP_MAX_DATA_SIZE)
    (hnames : (pathRequest opcode offset bytes).namesPath = true) {sent : List Request}
    (h : Exact bytes sent) :
    Exact bytes (sent ++ [pathRequest opcode offset bytes]) ∧
      Named (sent ++ [pathRequest opcode offset bytes]) :=
  ⟨exact_append h fun _ => carries_of_fits hfits,
    _, List.mem_append_right _ List.mem_cons_self, hnames⟩

theorem triple_send_path (opcode offset : ℕ) (hfits : bytes.length ≤ MAVFTP_MAX_DATA_SIZE)
    (hnames : (pathRequest opcode offset bytes).namesPath = true) :
    Triple (Sent (Exact bytes)) (c.send (pathRequest opcode offset bytes))
      (fun _ => Sent fun sent => Exact bytes sent ∧ Named sent) (Sent (Exact bytes)) := by
  exact triple_send (fun _ => exact_named_append hfits hnames) fun _ h => h.1

theorem triple_sendQuietly (hJ : Quiet J) (request : Request) (hr : request.namesPath = false) :
    Triple (Sent J) (c.sendQuietly request) (fun _ => Sent J) (Sent J) := by
  refine Triple.catchError (Y := Sent J) ?_ (fun _ => triple_ret fun _ => id) fun _ => id
  exact (triple_send_quiet hJ hr).bind fun _ => triple_ret fun _ => id

theorem triple_ensuringSupport :
    Triple (Sent J) c.ensuringSupport (fun _ => Sent J) (Sent J) := by
  intro s hs
  unfold ensuringSupport
  cases c.ensureSupport s.sent <;> exact hs

theorem triple_clearStaleSessionsOnce (hJ : Quiet J) :
    Triple (Sent J) c.clearStaleSessionsOnce (fun _ => Sent J) (Sent J) := by
  intro s hs
  unfold clearStaleSessionsOnce
  by_cases hcleared : s.staleSessionsCleared = true
  · rw [if_pos hcleared]
    exact hs
  · rw [if_neg hcleared]
    exact triple_sendQuietly hJ _ rfl _ hs

theorem triple_sendUntilEof (request : Request) (h : ∀ sent, J sent → K (sent ++ [request]))
    (hstop : ∀ sent, K sent → J sent) :
    Triple (Sent J) (c.sendUntilEof request) (fun _ => Sent K) (Sent J) := by
  intro s hs
  rw [sendUntilEof_eq]
  by_cases hvehicle : c.hasVehicle s.sent = false
  · rw [if_pos hvehicle]
    exact hs
  · rw [if_neg hvehicle]
    cases c.answer (s.sent ++ [request]) with
    | ok response => exact h s.sent hs
    | error error =>
      dsimp only
      by_cases heof : (OperationError.failed error).requestCode = some MAV_FTP_ERR.EOF
      · rw [if_pos heof]
        exact h s.sent hs
      · rw [if_neg heof]
        exact hstop _ (h s.sent hs)

theorem turn_namesPath {r : SequentialRead} (h : r.turn = .read request) :
    request.namesPath = false := by
  unfold SequentialRead.turn at h
  split at h
  · cases h
  split at h
  · cases h
  split at h
  · cases h
  · cases h
    rfl

theorem triple_readLoop (hJ : Quiet J) (turns : ℕ) (r : SequentialRead) :
    Triple (Sent J) (c.readLoop turns r) (fun _ => Sent J) (Sent J) := by
  induction turns generalizing r with
  | zero => exact triple_running fun _ => id
  | succ turns ih =>
    unfold readLoop
    split
    · exact triple_ret fun _ => id
    · exact triple_throw fun _ => id
    · next request hturn =>
      have hsend := triple_sendUntilEof (c := c) request
        (fun sent => hJ sent request (turn_namesPath hturn)) fun _ => id
      refine hsend.bind fun reply => ?_
      cases reply with
      | none => exact triple_ret fun _ => id
      | some response =>
        dsimp only
        split
        · exact triple_ret fun _ => id
        · exact ih _

/-! ## The operations send the path whole -/

/-- A conversation that names this path and no other, if it comes to its end. -/
def NamesExactly {α : Type} (bytes : Bytes) (operation : Operation α) : Prop :=
  Triple (Sent (Exact bytes)) operation (fun _ => Sent fun sent => Exact bytes sent ∧ Named sent)
    (Sent (Exact bytes))

variable {path : Text}

theorem namesExactly_delete (kind : MavftpDirectoryEntryKind)
    (hfits : (encodeText (normalizeMavftpPath path)).length ≤ MAVFTP_MAX_DATA_SIZE) :
    NamesExactly (encodeText (normalizeMavftpPath path))
      (c.deleteRemotePathUnlocked path kind) := by
  unfold deleteRemotePathUnlocked
  refine triple_ensuringSupport.bind fun _ => ?_
  refine Triple.bind (triple_send_path _ 0 hfits ?_) fun _ => triple_ret fun _ => id
  cases kind <;> rfl

theorem namesExactly_open (hfits : bytes.length ≤ MAVFTP_MAX_DATA_SIZE) :
    NamesExactly bytes (c.openFileForRead bytes) := by
  have hsend := triple_send_path (c := c) MAV_FTP_OPCODE.OPEN_FILE_RO 0 hfits rfl
  refine hsend.catchError (fun error => ?_) fun _ => id
  split
  · exact triple_throw fun _ => id
  · exact (triple_sendQuietly (quiet_exact bytes) _ rfl).bind fun _ => hsend

theorem triple_tryFinally_quiet {α : Type} {body : Operation α} {session : ℕ}
    (hbody : ∀ {J : List Request → Prop}, Quiet J →
      Triple (Sent J) body (fun _ => Sent J) (Sent J)) :
    Triple (Sent fun sent => Exact bytes sent ∧ Named sent)
      (body.tryFinally fun _ => c.sendQuietly (terminateSession session))
      (fun _ => Sent fun sent => Exact bytes sent ∧ Named sent) (Sent (Exact bytes)) := by
  have hquiet := quiet_exact_named bytes
  refine Triple.conseq (X := Sent fun sent => Exact bytes sent ∧ Named sent) ?_ (fun _ => id)
    (fun _ _ => id) fun _ h => h.1
  exact (hbody hquiet).tryFinally (fun _ => triple_sendQuietly hquiet _ rfl)
    (triple_sendQuietly hquiet _ rfl)

theorem namesExactly_readRemoteFile (turns : ℕ) (byteLimit : Option ℕ)
    (hfits : (encodeText (normalizeMavftpPath path)).length ≤ MAVFTP_MAX_DATA_SIZE) :
    NamesExactly (encodeText (normalizeMavftpPath path))
      (c.readRemoteFileUnlocked turns path byteLimit) := by
  unfold readRemoteFileUnlocked
  refine (triple_clearStaleSessionsOnce (quiet_exact _)).bind fun _ => ?_
  refine (namesExactly_open hfits).bind fun openResponse => ?_
  exact triple_tryFinally_quiet fun hJ => triple_readLoop hJ turns _

theorem namesExactly_readRemoteTextFile (turns : ℕ)
    (hfits : (encodeText (normalizeMavftpPath path)).length ≤ MAVFTP_MAX_DATA_SIZE) :
    NamesExactly (encodeText (normalizeMavftpPath path)) (c.readRemoteTextFileUnlocked turns path) :=
  (namesExactly_readRemoteFile turns none hfits).bind fun _ => triple_ret fun _ => id

theorem namesExactly_download (turns : ℕ)
    (hfits : (encodeText (normalizeMavftpPath path)).length ≤ MAVFTP_MAX_DATA_SIZE)
    (hagain : encodeText (normalizeMavftpPath (normalizeMavftpPath path)) =
      encodeText (normalizeMavftpPath path)) :
    NamesExactly (encodeText (normalizeMavftpPath path))
      (c.downloadRemoteFileUnlocked turns path) := by
  unfold downloadRemoteFileUnlocked
  refine triple_ensuringSupport.bind fun _ => ?_
  rw [← hagain] at hfits ⊢
  exact namesExactly_readRemoteFile turns none hfits

variable {overwrite : Bool}

theorem namesExactly_createFile
    (hfits : (encodeText (normalizeMavftpPath path)).length ≤ MAVFTP_MAX_DATA_SIZE)
    (hagain : overwrite = true → encodeText (normalizeMavftpPath (normalizeMavftpPath path)) = encodeText (normalizeMavftpPath path)) :
    NamesExactly (encodeText (normalizeMavftpPath path))
      (c.createFile (normalizeMavftpPath path) overwrite) := by
  have hsend := triple_send_path (c := c) MAV_FTP_OPCODE.CREATE_FILE 0 hfits rfl
  refine Triple.catchError hsend (fun error => ?_) fun _ => id
  split
  · next hexists =>
    have hdelete := @namesExactly_delete c (normalizeMavftpPath path) .file
    rw [hagain hexists.1] at hdelete
    refine (hdelete hfits).bind fun _ => hsend.pre fun _ h => h.1
  · exact triple_throw fun _ => id

theorem triple_closeUpload (hJ : Quiet J) (session : ℕ) (writeFailed : Bool) :
    Triple (Sent J) (c.closeUpload path session writeFailed) (fun _ => Sent J) (Sent J) := by
  refine Triple.catchError (Y := Sent J) ?_ (fun _ => ?_) fun _ => id
  · exact (triple_send_quiet hJ rfl).bind fun _ => triple_ret fun _ => id
  · split
    · exact triple_ret fun _ => id
    · exact triple_throw fun _ => id

theorem namesExactly_upload (contents : Bytes)
    (hfits : (encodeText (normalizeMavftpPath path)).length ≤ MAVFTP_MAX_DATA_SIZE)
    (hagain : overwrite = true → encodeText (normalizeMavftpPath (normalizeMavftpPath path)) = encodeText (normalizeMavftpPath path)) :
    NamesExactly (encodeText (normalizeMavftpPath path))
      (c.uploadRemoteFileUnlocked path contents overwrite) := by
  unfold uploadRemoteFileUnlocked
  refine triple_ensuringSupport.bind fun _ => ?_
  refine (triple_clearStaleSessionsOnce (quiet_exact _)).bind fun _ => ?_
  refine (namesExactly_createFile hfits hagain).bind fun createResponse => ?_
  have hquiet := quiet_exact_named (encodeText (normalizeMavftpPath path))
  refine Triple.conseq (X := Sent fun sent => Exact _ sent ∧ Named sent) ?_ (fun _ => id)
    (fun _ _ => id) fun _ h => h.1
  refine Triple.tryFinally (Q := fun _ => Sent _) ?_ (fun _ => triple_closeUpload hquiet _ _)
    (triple_closeUpload hquiet _ _)
  exact triple_forEach_of_mem fun offset _ =>
    (triple_send_quiet hquiet rfl).bind fun _ => triple_ret fun _ => id

theorem triple_runBurst (hJ : Quiet J) (session : ℕ) :
    Triple (Sent J) (c.runBurst session) (fun _ => Sent J) (Sent J) := by
  intro s hs
  unfold runBurst
  by_cases hvehicle : c.hasVehicle s.sent = false
  · rw [if_pos hvehicle]
    exact hs
  · rw [if_neg hvehicle]
    dsimp only
    have hsent := hJ s.sent ⟨session, MAV_FTP_OPCODE.BURST_READ_FILE, MAVFTP_BURST_READ_SIZE, 0, []⟩
      rfl hs
    split <;> next h => split at h <;> cases h <;> exact hsent

theorem triple_burstAllowed :
    Triple (Sent J) c.burstAllowed (fun _ => Sent J) (Sent J) := by
  intro s hs
  unfold burstAllowed
  by_cases haborted : c.aborted s.sent = true
  · rw [if_pos haborted]
    exact hs
  · rw [if_neg haborted]
    by_cases hactive : c.burstActive s.sent = true
    · rw [if_pos hactive]
      exact hs
    · rw [if_neg hactive]
      exact hs

theorem namesExactly_burst (turns maxBytes : ℕ)
    (hfits : (encodeText (normalizeMavftpPath path)).length ≤ MAVFTP_MAX_DATA_SIZE)
    (hagain : encodeText (normalizeMavftpPath (normalizeMavftpPath path)) =
      encodeText (normalizeMavftpPath path)) :
    NamesExactly (encodeText (normalizeMavftpPath path))
      (c.downloadRemoteFileBurstUnlocked turns path maxBytes) := by
  unfold downloadRemoteFileBurstUnlocked
  refine triple_ensuringSupport.bind fun _ => ?_
  refine triple_burstAllowed.bind fun _ => ?_
  refine (triple_clearStaleSessionsOnce (quiet_exact _)).bind fun _ => ?_
  refine (namesExactly_open hfits).bind fun openResponse => ?_
  have hquiet := quiet_exact (encodeText (normalizeMavftpPath path))
  have hclose := triple_sendQuietly (c := c) hquiet (terminateSession openResponse.session) rfl
  dsimp only
  split
  · refine (hclose.pre fun _ h => h.1).bind fun _ => ?_
    rw [← hagain] at hfits ⊢
    exact namesExactly_readRemoteFile turns none hfits
  split
  · exact (hclose.pre fun _ h => h.1).bind fun _ => triple_throw fun _ => id
  · exact triple_tryFinally_quiet fun hJ => triple_runBurst hJ _

theorem namesExactly_listLoop (hfits : (encodeText path).length ≤ MAVFTP_MAX_DATA_SIZE)
    (turns : ℕ) (entries : List MavftpDirectoryEntry) :
    NamesExactly (encodeText path) (c.listLoop path turns entries) := by
  induction turns generalizing entries with
  | zero => exact triple_running fun _ => id
  | succ turns ih =>
    have hsend := triple_sendUntilEof (c := c) (J := Exact (encodeText path))
      (pathRequest MAV_FTP_OPCODE.LIST_DIRECTORY entries.length (encodeText path))
      (K := fun sent => Exact (encodeText path) sent ∧ Named sent)
      (fun _ => exact_named_append hfits rfl) fun _ h => h.1
    refine hsend.bind fun reply => ?_
    cases reply with
    | none => exact triple_ret fun _ => id
    | some response =>
      dsimp only
      split
      · exact triple_ret fun _ => id
      · exact (ih _).pre fun _ h => h.1

theorem namesExactly_list (localeCompare : Text → Text → ℤ) (turns : ℕ)
    (hfits : (encodeText (normalizeMavftpPath path)).length ≤ MAVFTP_MAX_DATA_SIZE) :
    NamesExactly (encodeText (normalizeMavftpPath path))
      (c.listRemoteDirectoryUnlocked localeCompare turns path) := by
  unfold listRemoteDirectoryUnlocked
  refine triple_ensuringSupport.bind fun _ => ?_
  exact (namesExactly_listLoop hfits turns []).bind fun _ => triple_ret fun _ => id

end Conversation

/-! ## Every operation -/

inductive PathOperation
  | listRemoteDirectory
  | downloadRemoteFile
  | uploadRemoteFile (bytes : Bytes) (overwrite : Bool)
  | deleteRemotePath (kind : MavftpDirectoryEntryKind)
  | readRemoteTextFile
  | readRemoteFilePrefix (byteLimit : Option ℤ)
  | readRemoteFile (byteLimit : Option ℕ)
  | downloadRemoteFileBurst (maxBytes : ℕ)

namespace PathOperation

def perform (c : Conversation) (localeCompare : Text → Text → ℤ) (turns : ℕ) (path : Text) :
    PathOperation → Operation Unit
  | listRemoteDirectory => do
    let _ ← c.listRemoteDirectoryUnlocked localeCompare turns path
  | downloadRemoteFile => do
    let _ ← c.downloadRemoteFileUnlocked turns path
  | uploadRemoteFile bytes overwrite => c.uploadRemoteFileUnlocked path bytes overwrite
  | deleteRemotePath kind => c.deleteRemotePathUnlocked path kind
  | readRemoteTextFile => do
    let _ ← c.readRemoteTextFileUnlocked turns path
  | readRemoteFilePrefix byteLimit => do
    let _ ← c.readRemoteFilePrefixUnlocked turns path byteLimit
  | readRemoteFile byteLimit => do
    let _ ← c.readRemoteFileUnlocked turns path byteLimit
  | downloadRemoteFileBurst maxBytes => do
    let _ ← c.downloadRemoteFileBurstUnlocked turns path maxBytes

/-- The operation hands its normalised path to another one, which normalises it again. -/
def renormalizes : PathOperation → Bool
  | downloadRemoteFile => true
  | uploadRemoteFile _ overwrite => overwrite
  | downloadRemoteFileBurst _ => true
  | _ => false

def readsNothing : PathOperation → Bool
  | readRemoteFilePrefix none => true
  | readRemoteFilePrefix (some limit) => limit ≤ 0
  | _ => false

/-- Whatever names a path names the normalised path in full, and unless the operation is rejected
something does. -/
structure Faithful (op : PathOperation) (path : Text)
    (result : Outcome OperationError Unit × RemoteSession) : Prop where
  exact : Exact (encodeText (normalizeMavftpPath path)) result.2.sent
  named : result.1 = .resolved () → op.readsNothing = false → Named result.2.sent

variable {op : PathOperation} {path : Text} {localeCompare : Text → Text → ℤ}
  {c : Conversation} {turns : ℕ}

theorem namesExactly_perform (hreads : op.readsNothing = false)
    (hfits : (encodeText (normalizeMavftpPath path)).length ≤ MAVFTP_MAX_DATA_SIZE)
    (hagain : op.renormalizes = true → encodeText (normalizeMavftpPath (normalizeMavftpPath path)) = encodeText (normalizeMavftpPath path)) :
    Conversation.NamesExactly (encodeText (normalizeMavftpPath path))
      (op.perform c localeCompare turns path) := by
  have hdiscard {α : Type} {m : Operation α}
      (h : Conversation.NamesExactly (encodeText (normalizeMavftpPath path)) m) :
      Conversation.NamesExactly (encodeText (normalizeMavftpPath path))
        (do let _ ← m; return ()) := h.bind fun _ => triple_ret fun _ => id
  cases op with
  | listRemoteDirectory => exact hdiscard (Conversation.namesExactly_list _ turns hfits)
  | downloadRemoteFile => exact hdiscard (Conversation.namesExactly_download turns hfits (hagain rfl))
  | uploadRemoteFile bytes overwrite => exact Conversation.namesExactly_upload bytes hfits hagain
  | deleteRemotePath kind => exact Conversation.namesExactly_delete kind hfits
  | readRemoteTextFile => exact hdiscard (Conversation.namesExactly_readRemoteTextFile turns hfits)
  | readRemoteFilePrefix byteLimit =>
    cases byteLimit with
    | none => cases hreads
    | some limit =>
      have hpositive : ¬ limit ≤ 0 := by simpa [readsNothing] using hreads
      refine hdiscard ?_
      unfold Conversation.readRemoteFilePrefixUnlocked
      dsimp only
      rw [if_neg hpositive]
      exact Conversation.namesExactly_readRemoteFile turns _ hfits
  | readRemoteFile byteLimit =>
    exact hdiscard (Conversation.namesExactly_readRemoteFile turns byteLimit hfits)
  | downloadRemoteFileBurst maxBytes =>
    exact hdiscard (Conversation.namesExactly_burst turns maxBytes hfits (hagain rfl))

theorem perform_readsNothing (hreads : op.readsNothing = true) (s : RemoteSession) :
    op.perform c localeCompare turns path s = (.resolved (), s) := by
  cases op with
  | readRemoteFilePrefix byteLimit =>
    cases byteLimit with
    | none => rfl
    | some limit =>
      unfold perform Conversation.readRemoteFilePrefixUnlocked
      dsimp only
      rw [if_pos (by simpa [readsNothing] using hreads)]
      rfl
  | _ => cases hreads

/-! ## What a vehicle can bring about -/

def answering (answer : Except MavftpError MavftpPayload) : Conversation where
  ensureSupport _ := .ok ()
  hasVehicle _ := true
  answer _ := answer
  burst _ := .ok []
  burstActive _ := false
  aborted _ := false
  linkDropped _ := false

def acknowledgement : MavftpPayload := ⟨0, 0, MAV_FTP_OPCODE.ACK, 0, 0, 0, 0, []⟩

def requests (op : PathOperation) (localeCompare : Text → Text → ℤ) (turns : ℕ) (path : Text)
    (answer : Except MavftpError MavftpPayload) : List Request :=
  (op.perform (answering answer) localeCompare turns path ⟨[], true⟩).2.sent

theorem exists_named (localeCompare : Text → Text → ℤ) (path : Text)
    (hreads : op.readsNothing = false) :
    ∃ turns answer opcode pathBytes, (pathRequest opcode 0 pathBytes).namesPath = true ∧
      pathRequest opcode 0 pathBytes ∈ op.requests localeCompare turns path answer := by
  have hopen (turns : ℕ) (pathBytes : Bytes)
      (h : pathRequest MAV_FTP_OPCODE.OPEN_FILE_RO 0 pathBytes ∈
        op.requests localeCompare turns path (.ok acknowledgement)) :
      ∃ turns answer opcode pathBytes, (pathRequest opcode 0 pathBytes).namesPath = true ∧
        pathRequest opcode 0 pathBytes ∈ op.requests localeCompare turns path answer :=
    ⟨turns, .ok acknowledgement, MAV_FTP_OPCODE.OPEN_FILE_RO, pathBytes, rfl, h⟩
  cases op with
  | listRemoteDirectory =>
    exact ⟨1, .ok acknowledgement, MAV_FTP_OPCODE.LIST_DIRECTORY, _, rfl, List.mem_cons_self⟩
  | downloadRemoteFile => exact hopen 0 _ List.mem_cons_self
  | uploadRemoteFile bytes overwrite =>
    refine ⟨0, .error (.request MAV_FTP_ERR.FILE_EXISTS none), MAV_FTP_OPCODE.CREATE_FILE,
      encodeText (normalizeMavftpPath path), rfl, ?_⟩
    cases overwrite <;> exact List.mem_cons_self
  | deleteRemotePath kind =>
    cases kind with
    | file =>
      exact ⟨0, .ok acknowledgement, MAV_FTP_OPCODE.REMOVE_FILE, _, rfl, List.mem_cons_self⟩
    | directory =>
      exact ⟨0, .ok acknowledgement, MAV_FTP_OPCODE.REMOVE_DIRECTORY, _, rfl, List.mem_cons_self⟩
  | readRemoteTextFile => exact hopen 0 _ List.mem_cons_self
  | readRemoteFilePrefix byteLimit =>
    cases byteLimit with
    | none => cases hreads
    | some limit =>
      have hpositive : ¬ limit ≤ 0 := by simpa [readsNothing] using hreads
      refine hopen 0 (encodeText (normalizeMavftpPath path)) ?_
      unfold requests perform Conversation.readRemoteFilePrefixUnlocked
      dsimp only
      rw [if_neg hpositive]
      exact List.mem_cons_self
  | readRemoteFile byteLimit => exact hopen 0 _ List.mem_cons_self
  | downloadRemoteFileBurst maxBytes => exact hopen 0 _ List.mem_cons_self

theorem exists_renormalized (localeCompare : Text → Text → ℤ) (path : Text)
    (hagain : op.renormalizes = true) :
    ∃ turns answer opcode, (pathRequest opcode 0
        (encodeText (normalizeMavftpPath (normalizeMavftpPath path)))).namesPath = true ∧
      pathRequest opcode 0 (encodeText (normalizeMavftpPath (normalizeMavftpPath path))) ∈
        op.requests localeCompare turns path answer := by
  cases op with
  | downloadRemoteFile =>
    exact ⟨0, .ok acknowledgement, MAV_FTP_OPCODE.OPEN_FILE_RO, rfl, List.mem_cons_self⟩
  | uploadRemoteFile bytes overwrite =>
    refine ⟨0, .error (.request MAV_FTP_ERR.FILE_EXISTS none), MAV_FTP_OPCODE.REMOVE_FILE, rfl, ?_⟩
    cases overwrite with
    | false => cases hagain
    | true => exact List.mem_cons_of_mem _ List.mem_cons_self
  | downloadRemoteFileBurst maxBytes =>
    refine ⟨0, .ok acknowledgement, MAV_FTP_OPCODE.OPEN_FILE_RO, rfl, ?_⟩
    exact List.mem_cons_of_mem _ (List.mem_cons_of_mem _ List.mem_cons_self)
  | _ => cases hagain

/-- The vehicle is told the normalised path and nothing else, whatever it answers, if and only if
the path fits the data field and normalising it again, where that is done, changes nothing. -/
theorem path_on_wire_iff (localeCompare : Text → Text → ℤ) (op : PathOperation) (path : Text) :
    (∀ (c : Conversation) (turns : ℕ) (s : RemoteSession), s.sent = [] →
        op.Faithful path (op.perform c localeCompare turns path s)) ↔
      op.readsNothing = true ∨
        (encodeText (normalizeMavftpPath path)).length ≤ MAVFTP_MAX_DATA_SIZE ∧
          (op.renormalizes = true →
            encodeText (normalizeMavftpPath (normalizeMavftpPath path)) =
              encodeText (normalizeMavftpPath path)) := by
  constructor
  · intro h
    rcases Bool.eq_false_or_eq_true op.readsNothing with hreads | hreads
    · exact .inl hreads
    refine .inr ⟨?_, fun hagain => ?_⟩
    · obtain ⟨turns, answer, opcode, pathBytes, hnames, hmem⟩ :=
        exists_named localeCompare path hreads
      exact fits_of_carries ((h (answering _) turns ⟨[], true⟩ rfl).exact _ hmem hnames)
    · obtain ⟨turns, answer, opcode, hnames, hmem⟩ := exists_renormalized localeCompare path hagain
      exact eq_of_carries ((h (answering _) turns ⟨[], true⟩ rfl).exact _ hmem hnames)
        (length_encode_again path)
  · intro h c turns s hs
    have hstart : Exact (encodeText (normalizeMavftpPath path)) s.sent := by simp [Exact, hs]
    rcases Bool.eq_false_or_eq_true op.readsNothing with hreads | hreads
    · rw [perform_readsNothing hreads]
      exact ⟨hstart, fun _ hnot => absurd (hreads.symm.trans hnot) (by decide)⟩
    · obtain ⟨hfits, hagain⟩ := h.resolve_left (by simp [hreads])
      have hnames : Conversation.NamesExactly (encodeText (normalizeMavftpPath path))
          (op.perform c localeCompare turns path) := namesExactly_perform hreads hfits hagain
      have hrun := hnames s hstart
      generalize op.perform c localeCompare turns path s = result at hrun
      obtain ⟨outcome, t⟩ := result
      cases outcome with
      | resolved value => exact ⟨hrun.1, fun _ _ => hrun.2⟩
      | rejected error => exact ⟨hrun, fun h => by cases h⟩
      | running => exact ⟨hrun, fun h => by cases h⟩

/-- A path of 240 bytes is deleted under the name of its first 239. -/
theorem delete_longPath_truncated :
    ∃ (c : Conversation) (s : RemoteSession), s.sent = [] ∧
      ¬ (deleteRemotePath .file).Faithful (List.replicate 240 0x61)
        ((deleteRemotePath .file).perform c (fun _ _ => 0) 0 (List.replicate 240 0x61) s) := by
  refine ⟨answering (.ok acknowledgement), ⟨[], true⟩, rfl, fun h => ?_⟩
  have hfits := fits_of_carries (h.exact (pathRequest MAV_FTP_OPCODE.REMOVE_FILE 0
    (encodeText (normalizeMavftpPath (List.replicate 240 0x61)))) List.mem_cons_self rfl)
  exact absurd hfits (by decide +kernel)

end PathOperation
end ArduConfigurator.Mavftp
