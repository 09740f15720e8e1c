import ArduConfigurator.CanBus.Frames

/-! # The firmware file server

Which bytes of an image have been served is read off the responses that went out. The service takes
an update for complete on a read that reaches the end of the image; that is right as long as the node
has asked for everything before it by then. -/
namespace ArduConfigurator.CanBus.CanBusService
open Runs
set_option autoImplicit false

/-! ## Reads of the update under way -/

/-- The update and the offset of the file.Read request that a frame completes, when the service
answers it. -/
def readRequest (s : CanBusService) (message : CanFrameMessage) :
    Option (FirmwareUpdateSession × ℕ) :=
  (s.finished message).bind fun f => s.firmwareUpdate.bind fun update =>
    if f.context.isService = true ∧ f.context.isRequest = some true ∧
        f.context.typeId = DRONECAN_FILE_READ_SERVICE_ID ∧
        message.destNodeId = some GCS_DRONECAN_NODE_ID ∧
        update.nodeId = f.context.sourceNodeId ∧ update.status ≠ .error then
      (decodeDronecanFileReadRequest f.payload).map fun request => (update, request.offset)
    else none

/-- Byte `i` of the image of this update was in a read response. -/
def Served (s : CanBusService) (update i : ℕ) : Prop :=
  ∃ dest transferId offset payload,
    Sent.fileReadResponse update dest transferId offset payload ∈ s.sent ∧
      offset ≤ i ∧ i < offset + (payload.length - 2)

/-- A read that reaches the end of the image, of an update that has made progress or whose image is
one chunk, comes when all the bytes before it have been served. -/
def ReadsAll (s : CanBusService) : Event → Prop
  | .frame message => ∀ update offset, s.readRequest message = some (update, offset) →
      update.status ≠ .completed → update.image.length < offset + FIRMWARE_READ_CHUNK →
      0 < update.bytesServed ∨ update.image.length ≤ FIRMWARE_READ_CHUNK →
        ∀ i < min offset update.image.length, s.Served update.id i
  | _ => True

def CompletedServed (s : CanBusService) : Prop :=
  ∀ update, s.firmwareUpdate = some update → update.status = .completed →
    ∀ i < update.image.length, s.Served update.id i

variable {s : CanBusService} {message : CanFrameMessage} {update : FirmwareUpdateSession}
    {offset : ℕ}

theorem readRequest_live (h : s.readRequest message = some (update, offset)) :
    update.status ≠ .error := by
  rw [readRequest, Option.bind_eq_some_iff] at h
  obtain ⟨f, -, h⟩ := h
  rw [Option.bind_eq_some_iff] at h
  obtain ⟨u, -, h⟩ := h
  split at h
  · next hcontext =>
    rw [Option.map_eq_some_iff] at h
    obtain ⟨request, -, hpair⟩ := h
    obtain ⟨rfl, -⟩ := Prod.mk.inj hpair
    exact hcontext.2.2.2.2.2
  · cases h

/-! ## What an event does to the file server -/

/-- The update has been sent what it asked for at `offset`. -/
structure Answered (s t : CanBusService) (update : FirmwareUpdateSession)
    (offset transferId : ℕ) : Prop where
  update_eq : s.firmwareUpdate = some update
  after : t.firmwareUpdate = some (update.afterRead (min offset update.image.length)
    ((update.image.drop offset).take FIRMWARE_READ_CHUNK).length s.nowMs)
  images : t.images = s.images
  responses : t.files.responses = s.files.responses ++
    [.fileReadResponse update.id update.nodeId transferId offset
      (encodeDronecanFileReadResponse DRONECAN_FILE_ERROR_OK
        ((update.image.drop offset).take FIRMWARE_READ_CHUNK))]

/-- The update is forgotten, begun, failed or begun once more, or a read of it is answered. -/
inductive FileMove (s : CanBusService) (e : Event) (t : CanBusService) : Prop
  | kept (h : t.files = s.files)
  | dropped (hupdate : t.firmwareUpdate = none) (himages : t.images = s.images)
      (hresponses : t.files.responses = s.files.responses)
      (he : ∀ message, e ≠ .frame message)
  | started (update : FirmwareUpdateSession) (hid : update.id = s.images.length)
      (hstatus : update.status = .starting) (hupdate : t.firmwareUpdate = some update)
      (himages : t.images = s.images ++ [update.image])
      (hresponses : t.files.responses = s.files.responses)
      (he : ∀ message, e ≠ .frame message)
  | changed (before after : FirmwareUpdateSession) (hbefore : s.firmwareUpdate = some before)
      (hlive : before.status ≠ .completed ∧ before.status ≠ .error)
      (hafter : t.firmwareUpdate = some after) (hid : after.id = before.id)
      (himage : after.image = before.image) (hstatus : after.status ≠ .completed)
      (himages : t.images = s.images) (hresponses : t.files.responses = s.files.responses)
  | read (message : CanFrameMessage) (update : FirmwareUpdateSession) (offset transferId : ℕ)
      (he : e = .frame message) (hread : s.readRequest message = some (update, offset))
      (h : Answered s t update offset transferId)

theorem chunk_eq (image : Bytes) (offset : ℕ) :
    (image.drop (min offset image.length)).take
        (min (min offset image.length + FIRMWARE_READ_CHUNK) image.length
          - min offset image.length) =
      (image.drop offset).take FIRMWARE_READ_CHUNK := by
  obtain h | h := Nat.le_total offset image.length
  · rw [Nat.min_eq_left h, List.take_eq_take_iff, List.length_drop]
    omega
  · rw [Nat.min_eq_right h, List.drop_of_length_le h, List.drop_length, List.take_nil, List.take_nil]

variable {reassembler : Pending} {transferId : ℕ} {payload : Bytes}

theorem handleFileReadRequest_answered {request : DronecanFileReadRequest}
    (hactive : s.status = .active) (hupdate : s.firmwareUpdate = some update)
    (hstatus : update.status ≠ .error)
    (hdecode : decodeDronecanFileReadRequest payload = some request) :
    Answered s ({ s with reassembler := reassembler }.handleFileReadRequest update.nodeId transferId
      payload) update request.offset transferId := by
  rw [handleFileReadRequest]
  simp only [hupdate, ne_eq, not_true_eq_false, if_false, hstatus, hdecode, chunk_eq]
  refine ⟨hupdate, ?_, ?_, ?_⟩
  · rw [sendServiceCall]
    split <;> split <;> rfl
  · rw [sendServiceCall]
    split <;> split <;> rfl
  · rw [files, sendServiceCall, if_pos, emit]
    · split <;> simp [Sent.isRead, putNode, files]
    · split <;> exact hactive

variable {t : CanBusService}

theorem answered_of_readRequest (hread : s.readRequest message = some (update, offset))
    (h : step s (.frame message) = some t) :
    ∃ transferId, Answered s t update offset transferId := by
  cases h
  have hframe := frame_moves s message
  have hnone : s.finished message ≠ none := fun h => by
    rw [readRequest, h] at hread
    cases hread
  generalize s.processCanFrame message = t at hframe
  cases hframe with
  | ignored h => exact absurd h hnone
  | request h => exact absurd h hnone
  | other n h => exact absurd h hnone
  | piece r h => exact absurd h hnone
  | transfer r f hactive hfinished =>
    rw [readRequest, hfinished, Option.bind_some, Option.bind_eq_some_iff] at hread
    obtain ⟨u, hupdate, hread⟩ := hread
    split at hread
    case isFalse => cases hread
    next hcontext =>
    obtain ⟨hservice, hrequest, htype, hdest, hnode, hstatus⟩ := hcontext
    rw [Option.map_eq_some_iff] at hread
    obtain ⟨request, hdecode, hpair⟩ := hread
    obtain ⟨rfl, rfl⟩ := Prod.mk.inj hpair
    refine ⟨f.context.transferId, ?_⟩
    rw [handleTransfer, if_neg (by simp [hservice]), if_pos hrequest, if_pos ⟨htype, hdest⟩, ← hnode]
    exact handleFileReadRequest_answered hactive hupdate hstatus hdecode

variable {f : DronecanReassembledTransfer}

theorem files_handleFileReadRequest (hfinished : s.finished message = some f)
    (hcontext : f.context.isService = true ∧ f.context.isRequest = some true ∧ f.context.typeId = DRONECAN_FILE_READ_SERVICE_ID ∧ message.destNodeId = some GCS_DRONECAN_NODE_ID)
    (hnone : s.readRequest message = none) :
    ({ s with reassembler := reassembler }.handleFileReadRequest f.context.sourceNodeId
      f.context.transferId f.payload).files = s.files := by
  rw [handleFileReadRequest]
  split
  · rfl
  next update hupdate =>
  split
  · rfl
  next hnode =>
  split
  · rfl
  next hstatus =>
  split
  · rfl
  next request hdecode =>
  have hupdate : s.firmwareUpdate = some update := hupdate
  rw [readRequest, hfinished, Option.bind_some, hupdate, Option.bind_some, if_pos, hdecode] at hnone
  · cases hnone
  · exact ⟨hcontext.1, hcontext.2.1, hcontext.2.2.1, hcontext.2.2.2, not_not.mp hnode, hstatus⟩

theorem handleTransfer_moves (hfinished : s.finished message = some f)
    (hnone : s.readRequest message = none)
    (ht : { s with reassembler := reassembler }.handleTransfer message.destNodeId f = t) :
    FileMove s (.frame message) t := by
  rw [handleTransfer] at ht
  split at ht
  · split at ht
    · subst ht
      exact .kept (aside_handleNodeStatus _ _ _).files
    · subst ht
      exact .kept rfl
  next hservice =>
  split at ht
  · next hrequest =>
    split at ht
    · next hread =>
      subst ht
      refine .kept (files_handleFileReadRequest hfinished ?_ hnone)
      exact ⟨by simpa using hservice, hrequest, hread.1, hread.2⟩
    · subst ht
      exact .kept rfl
  subst ht
  split
  · exact .kept (aside_handleGetNodeInfoResponse _ _ _).files
  split
  · exact .kept (onlySaving_handleGetSetResponse _ _ _).files
  split
  · exact .kept (onlySaving_handleExecuteOpcodeResponse _ _ _).files
  split
  · rw [handleBeginFirmwareUpdateResponse]
    split
    · exact .kept rfl
    next update hupdate =>
    split
    · exact .kept rfl
    next hlive =>
    rw [not_or, not_not, not_not] at hlive
    split
    · exact .kept rfl
    split
    · exact .kept rfl
    · refine .changed update _ hupdate ?_ rfl rfl rfl (by simp) rfl rfl
      rw [hlive.2]
      exact ⟨by simp, by simp⟩
  · exact .kept rfl

theorem serviceFirmwareUpdate_moves (s : CanBusService) (e : Event) :
    FileMove s e s.serviceFirmwareUpdate := by
  rw [serviceFirmwareUpdate]
  split
  · exact .kept rfl
  next update hupdate =>
  split
  · exact .kept rfl
  next hlive =>
  rw [not_or] at hlive
  split
  · split
    · exact .changed update _ hupdate hlive rfl rfl rfl (by simp) rfl rfl
    split
    · have hfiles := fun s' : CanBusService =>
        (s'.aside_sendServiceCall (c := .beginFirmwareUpdate update.nodeId update.path) rfl rfl).files
      refine .changed update _ hupdate hlive (congrArg Files.update (hfiles _)) rfl rfl ?_
        (congrArg Files.images (hfiles _)) ?_
      · exact hlive.1
      · rw [hfiles]
        rfl
    · exact .kept rfl
  split
  · exact .changed update _ hupdate hlive rfl rfl rfl (by simp) rfl rfl
  · exact .kept rfl

theorem FileMove.congr {s' t' : CanBusService} (h : FileMove s' .tick t') (hs : s'.files = s.files)
    (ht : t.files = t'.files) : FileMove s .tick t := by
  have hu : s'.firmwareUpdate = s.firmwareUpdate := congrArg Files.update hs
  have hi : s'.images = s.images := congrArg Files.images hs
  have hr := congrArg Files.responses hs
  have hu' : t.firmwareUpdate = t'.firmwareUpdate := congrArg Files.update ht
  have hi' : t.images = t'.images := congrArg Files.images ht
  have hr' := congrArg Files.responses ht
  cases h with
  | kept h => exact .kept (ht.trans (h.trans hs))
  | dropped hupdate himages hresponses he =>
    exact .dropped (hu'.trans hupdate) (hi'.trans (himages.trans hi))
      (hr'.trans (hresponses.trans hr)) he
  | started update hid hstatus hupdate himages hresponses he =>
    exact .started update (by rw [hid, hi]) hstatus (hu'.trans hupdate) (by rw [hi', himages, hi])
      (hr'.trans (hresponses.trans hr)) he
  | changed before after hbefore hlive hafter hid himage hstatus himages hresponses =>
    exact .changed before after (hu ▸ hbefore) hlive (hu'.trans hafter) hid himage hstatus
      (hi'.trans (himages.trans hi)) (hr'.trans (hresponses.trans hr))
  | read message update offset transferId he => cases he

theorem tick_moves (s : CanBusService) : FileMove s .tick s.tick := by
  simp only [tick]
  split
  · exact .kept rfl
  · refine (serviceFirmwareUpdate_moves s.keepForwarding .tick).congr s.aside_keepForwarding.files ?_
    rw [(aside_foldl_serviceNode _ _).files, (onlySaving_foldl_serviceWrite _ _).files]

variable {e : Event}

theorem settle_moves (s : CanBusService) (he : ∀ message, e ≠ .frame message) (call : Awaiting)
    (failure : Option String) (awaiting : List Awaiting) :
    FileMove s e ({ s with awaiting := awaiting }.settle call failure) := by
  simp only [settle]
  split
  · exact .dropped rfl rfl rfl he
  · next bus =>
    have h := (aside_requestForward { s with awaiting := awaiting }.clear bus).files
    refine .dropped (congrArg Files.update h) (congrArg Files.images h) ?_ he
    rw [h]
    rfl
  · split <;> exact .kept rfl
  · exact .kept (aside_sendWrites _ _ _).files
  · split <;> exact .kept rfl

theorem startFirmwareUpdate_moves (s : CanBusService) (he : ∀ message, e ≠ .frame message)
    (nodeId : ℕ) (fileName : String) (image : Bytes) :
    FileMove s e (s.startFirmwareUpdate nodeId fileName image) := by
  simp only [startFirmwareUpdate]
  split
  · exact .kept rfl
  split
  · exact .kept rfl
  split
  · exact .kept rfl
  split
  · exact .kept rfl
  have hfiles := fun s' : CanBusService =>
    (s'.aside_sendServiceCall (c := .beginFirmwareUpdate nodeId "fw.bin") rfl rfl).files
  refine .started _ rfl rfl (congrArg Files.update (hfiles _)) (congrArg Files.images (hfiles _)) ?_ he
  rw [hfiles]
  rfl

theorem step_moves (h : step s e = some t) : FileMove s e t := by
  cases e with
  | frame message =>
    cases hread : s.readRequest message with
    | some read =>
      obtain ⟨transferId, ha⟩ := answered_of_readRequest hread h
      exact .read message read.1 read.2 transferId rfl hread ha
    | none =>
    cases h
    have hframe := frame_moves s message
    generalize s.processCanFrame message = t at hframe
    cases hframe with
    | ignored _ => exact .kept rfl
    | request _ _ => exact .kept (onlyAllocating_handleAllocationRequest _ _).files
    | other n _ => exact .kept (aside_noteOtherAllocator _ _).files
    | piece r _ => exact .kept rfl
    | transfer r f _ hfinished => exact handleTransfer_moves hfinished hread rfl
  | tick =>
    cases h
    exact tick_moves s
  | saveAckTimeout nodeId =>
    rw [step] at h
    split at h
    · cases h
      exact .kept (onlySaving_onSaveAckTimeout _ _).files
    · cases h
  | settle i failure =>
    rw [step, Option.map_eq_some_iff] at h
    obtain ⟨call, -, rfl⟩ := h
    exact settle_moves s (by simp) call failure _
  | startFirmwareUpdate nodeId fileName image =>
    cases h
    exact startFirmwareUpdate_moves s (by simp) nodeId fileName image
  | cancelFirmwareUpdate =>
    cases h
    rw [cancelFirmwareUpdate]
    split
    · exact .kept rfl
    next update hupdate =>
    split
    · exact .dropped rfl rfl rfl (by simp)
    · next hlive =>
      rw [not_or] at hlive
      exact .changed update _ hupdate hlive rfl rfl rfl (by simp) rfl rfl
  | reset =>
    cases h
    exact .dropped rfl rfl rfl (by simp)
  | clock | forgetAllocations =>
    cases h
    exact .kept rfl
  | start bus =>
    cases h
    exact .kept (s.aside_start bus).files
  | stop =>
    cases h
    exact .kept s.aside_stop.files
  | refreshNode nodeId =>
    cases h
    exact .kept (s.aside_refreshNode nodeId).files
  | restartNode nodeId =>
    cases h
    exact .kept (s.aside_restartNode nodeId).files
  | fetchAllParameters nodeId =>
    cases h
    exact .kept (s.aside_fetchAllParameters nodeId).files
  | writeParameter nodeId paramName value =>
    cases h
    exact .kept (s.onlySaving_writeParameter nodeId paramName value).files
  | applyAndSave nodeId writes =>
    cases h
    exact .kept (s.onlySaving_applyAndSave nodeId writes).files
  | changeNodeId nodeId newNodeId =>
    cases h
    exact .kept (s.onlySaving_changeNodeId nodeId newNodeId).files
  | saveParameters nodeId =>
    cases h
    exact .kept (s.onlySaving_saveParameters nodeId).files
  | setAllocatorEnabled enabled seed =>
    cases h
    exact .kept (s.onlyAllocating_setAllocatorEnabled enabled seed).files

/-! ## Bytes served -/

theorem mem_responses {c : Sent} :
    c ∈ s.files.responses ↔ c ∈ s.sent ∧ c.isRead = true := List.mem_filter

variable {i : ℕ}

theorem served_iff {update : ℕ} : s.Served update i ↔
    ∃ dest transferId offset payload,
      Sent.fileReadResponse update dest transferId offset payload ∈ s.files.responses ∧
        offset ≤ i ∧ i < offset + (payload.length - 2) := by
  simp only [Served, mem_responses, Sent.isRead, and_true]

theorem served_congr (h : t.files.responses = s.files.responses) {update : ℕ} :
    t.Served update i ↔ s.Served update i := by
  rw [served_iff, served_iff, h]

theorem length_response (data : Bytes) (h : data.length ≤ FIRMWARE_READ_CHUNK) :
    (encodeDronecanFileReadResponse DRONECAN_FILE_ERROR_OK data).length = 2 + data.length := by
  rw [encodeDronecanFileReadResponse, List.length_append, leBytes_length,
    List.take_of_length_le (show data.length ≤ DRONECAN_FILE_READ_MAX_DATA from h)]

theorem length_chunk_le (image : Bytes) (offset : ℕ) :
    ((image.drop offset).take FIRMWARE_READ_CHUNK).length ≤ FIRMWARE_READ_CHUNK :=
  List.length_take_le _ _

theorem Answered.served (h : Answered s t update offset transferId) :
    t.Served update.id i ↔ s.Served update.id i ∨
      (offset ≤ i ∧ i < offset + ((update.image.drop offset).take FIRMWARE_READ_CHUNK).length) := by
  have hlen := length_response _ (length_chunk_le update.image offset)
  rw [served_iff, served_iff, h.responses]
  constructor
  · rintro ⟨dest, tid, o, payload, hmem, hi⟩
    obtain hmem | hmem := List.mem_append.mp hmem
    · exact .inl ⟨dest, tid, o, payload, hmem, hi⟩
    · obtain ⟨-, -, -, rfl, rfl⟩ := Sent.fileReadResponse.inj (List.mem_singleton.mp hmem)
      rw [hlen, Nat.add_sub_cancel_left] at hi
      exact .inr hi
  · rintro (⟨dest, tid, o, payload, hmem, hi⟩ | hi)
    · exact ⟨dest, tid, o, payload, List.mem_append_left _ hmem, hi⟩
    · refine ⟨_, _, _, _, List.mem_append_right _ (List.mem_singleton_self _), ?_⟩
      rwa [hlen, Nat.add_sub_cancel_left]

/-! ## When an update is complete -/

/-- A read of `count` bytes at `offset` that completes the update. -/
def Completes (update : FirmwareUpdateSession) (offset count : ℕ) : Prop :=
  count < FIRMWARE_READ_CHUNK ∧ update.image.length ≤ offset + count ∧
    (0 < update.bytesServed ∨ update.image.length ≤ FIRMWARE_READ_CHUNK)

theorem afterRead_kept (update : FirmwareUpdateSession) (offset count nowMs : ℕ) :
    (update.afterRead offset count nowMs).id = update.id ∧
      (update.afterRead offset count nowMs).image = update.image := by
  simp only [FirmwareUpdateSession.afterRead]
  split
  · exact ⟨rfl, rfl⟩
  split
  · exact ⟨rfl, rfl⟩
  split <;> exact ⟨rfl, rfl⟩

theorem afterRead_status (update : FirmwareUpdateSession) (offset count nowMs : ℕ)
    (hlive : update.status ≠ .completed) :
    (update.afterRead offset count nowMs).status = .completed ↔ Completes update offset count := by
  simp only [FirmwareUpdateSession.afterRead, if_neg hlive, Completes, decide_eq_true_eq,
    Bool.or_eq_true]
  split
  · next h => exact iff_of_true rfl h
  next h =>
  refine iff_of_false ?_ h
  split
  · simp
  · simp only
    split
    · exact hlive
    · simp

theorem completes_chunk (update : FirmwareUpdateSession) (offset : ℕ) :
    Completes update (min offset update.image.length)
        ((update.image.drop offset).take FIRMWARE_READ_CHUNK).length ↔
      update.image.length < offset + FIRMWARE_READ_CHUNK ∧
        (0 < update.bytesServed ∨ update.image.length ≤ FIRMWARE_READ_CHUNK) := by
  have hchunk : 0 < FIRMWARE_READ_CHUNK := by decide
  rw [Completes, List.length_take, List.length_drop, ← and_assoc]
  refine and_congr_left fun _ => ?_
  omega

/-! ## Runs -/

/-- The update under way is one of the recorded ones, and every response carries the bytes of its
image at the offset asked for. -/
structure FileInv (s : CanBusService) : Prop where
  image : ∀ update, s.firmwareUpdate = some update → s.images[update.id]? = some update.image
  genuine : ∀ update dest transferId offset payload,
    Sent.fileReadResponse update dest transferId offset payload ∈ s.files.responses →
      ∃ image, s.images[update]? = some image ∧ payload =
        encodeDronecanFileReadResponse DRONECAN_FILE_ERROR_OK
          ((image.drop offset).take FIRMWARE_READ_CHUNK)

theorem fileInv_initial (nowMs : ℕ) : FileInv (initial nowMs) :=
  ⟨by rintro _ ⟨⟩, by simp [files, initial]⟩

theorem fileInv_step (hs : FileInv s) (h : step s e = some t) :
    FileInv t := by
  have keep : t.images = s.images → t.files.responses = s.files.responses →
      ∀ update dest transferId offset payload,
        Sent.fileReadResponse update dest transferId offset payload ∈ t.files.responses →
          ∃ image, t.images[update]? = some image ∧ payload =
            encodeDronecanFileReadResponse DRONECAN_FILE_ERROR_OK
              ((image.drop offset).take FIRMWARE_READ_CHUNK) := by
    intro himages hresponses
    rw [himages, hresponses]
    exact hs.genuine
  cases step_moves h with
  | kept hfiles =>
    have himages : t.images = s.images := congrArg Files.images hfiles
    have hupdate : t.firmwareUpdate = s.firmwareUpdate := congrArg Files.update hfiles
    refine ⟨?_, keep himages (congrArg Files.responses hfiles)⟩
    rw [himages, hupdate]
    exact hs.image
  | dropped hupdate himages hresponses =>
    refine ⟨fun u hu => ?_, keep himages hresponses⟩
    rw [hupdate] at hu
    cases hu
  | started update hid _ hupdate himages hresponses =>
    refine ⟨fun u hu => ?_, fun u dest tid offset payload hmem => ?_⟩
    · rw [hupdate] at hu
      cases hu
      rw [himages, hid, List.getElem?_concat_length]
    · rw [hresponses] at hmem
      obtain ⟨image, himage, hpayload⟩ := hs.genuine u dest tid offset payload hmem
      obtain ⟨hlt, -⟩ := List.getElem?_eq_some_iff.mp himage
      exact ⟨image, by rw [himages, List.getElem?_append_left hlt, himage], hpayload⟩
  | changed before after hbefore _ hafter hid himage _ himages hresponses =>
    refine ⟨fun u hu => ?_, keep himages hresponses⟩
    rw [hafter] at hu
    cases hu
    rw [himages, hid, himage]
    exact hs.image before hbefore
  | read message update offset tid he hread ha =>
    have himage := hs.image update ha.update_eq
    refine ⟨fun u hu => ?_, fun u dest tid' offset' payload hmem => ?_⟩
    · rw [ha.after] at hu
      cases hu
      rw [ha.images, (afterRead_kept _ _ _ _).1, (afterRead_kept _ _ _ _).2]
      exact himage
    · rw [ha.responses] at hmem
      rw [ha.images]
      obtain hmem | hmem := List.mem_append.mp hmem
      · exact hs.genuine u dest tid' offset' payload hmem
      · obtain ⟨rfl, -, -, rfl, rfl⟩ := Sent.fileReadResponse.inj (List.mem_singleton.mp hmem)
        exact ⟨update.image, himage, rfl⟩

theorem Answered.completedServed (h : Answered s t update offset transferId)
    (hlive : update.status ≠ .completed) :
    t.CompletedServed ↔ (update.image.length < offset + FIRMWARE_READ_CHUNK →
      0 < update.bytesServed ∨ update.image.length ≤ FIRMWARE_READ_CHUNK →
        ∀ i < min offset update.image.length, s.Served update.id i) := by
  have hstatus := (afterRead_status update (min offset update.image.length)
    ((update.image.drop offset).take FIRMWARE_READ_CHUNK).length s.nowMs hlive).trans
      (completes_chunk update offset)
  have hkept := afterRead_kept update (min offset update.image.length)
    ((update.image.drop offset).take FIRMWARE_READ_CHUNK).length s.nowMs
  have hserved := fun i => h.served (i := i)
  rw [List.length_take, List.length_drop] at hserved
  constructor
  · intro ht hend hprogress i hi
    have hall := ht _ h.after (hstatus.mpr ⟨hend, hprogress⟩) i (by rw [hkept.2]; omega)
    rw [hkept.1, hserved] at hall
    exact hall.resolve_right (by omega)
  · intro hall u hu hcompleted i hi
    rw [h.after] at hu
    cases hu
    obtain ⟨hend, hprogress⟩ := hstatus.mp hcompleted
    rw [hkept.2] at hi
    rw [hkept.1, hserved]
    by_cases hlt : i < min offset update.image.length
    · exact .inl (hall hend hprogress i hlt)
    · exact .inr (by omega)

theorem completedServed_keep (hs : s.CompletedServed) (hC : s.ReadsAll e) (h : step s e = some t) :
    t.CompletedServed := by
  cases step_moves h with
  | kept hfiles =>
    have hupdate : t.firmwareUpdate = s.firmwareUpdate := congrArg Files.update hfiles
    intro u hu hcompleted i hi
    rw [served_congr (congrArg Files.responses hfiles)]
    exact hs u (hupdate ▸ hu) hcompleted i hi
  | dropped hupdate =>
    intro u hu
    rw [hupdate] at hu
    cases hu
  | started update _ hstatus hupdate =>
    intro u hu hcompleted
    rw [hupdate] at hu
    cases hu
    rw [hstatus] at hcompleted
    cases hcompleted
  | changed before after _ _ hafter _ _ hstatus =>
    intro u hu hcompleted
    rw [hafter] at hu
    cases hu
    exact absurd hcompleted hstatus
  | read message update offset tid he hread ha =>
    subst he
    by_cases hlive : update.status = .completed
    · intro u hu hcompleted i hi
      rw [ha.after, FirmwareUpdateSession.afterRead, if_pos hlive] at hu
      cases hu
      exact ha.served.mpr (.inl (hs update ha.update_eq hlive i hi))
    · exact (ha.completedServed hlive).mpr (hC update offset hread hlive)

theorem completedServed_lose (hC : ¬ s.ReadsAll e) (h : step s e = some t) :
    ¬ t.CompletedServed := by
  cases e with
  | frame message =>
    simp only [ReadsAll, not_forall] at hC
    obtain ⟨update, offset, hread, hlive, hend, hprogress, i, hi, hserved⟩ := hC
    obtain ⟨tid, ha⟩ := answered_of_readRequest hread h
    exact fun ht => hserved ((ha.completedServed hlive).mp ht hend hprogress i hi)
  | _ => exact absurd trivial hC

theorem ended_kept (he : (∃ message, e = .frame message) ∨ e = .tick) (h : step s e = some t)
    (hupdate : s.firmwareUpdate = some update)
    (hended : update.status = .completed ∨ update.status = .error) :
    t.firmwareUpdate = some update := by
  obtain ⟨message, rfl⟩ | rfl := he
  · cases step_moves h with
    | kept hfiles => exact (congrArg Files.update hfiles).trans hupdate
    | dropped _ _ _ he => exact absurd rfl (he message)
    | started _ _ _ _ _ _ he => exact absurd rfl (he message)
    | changed before _ hbefore hlive =>
      obtain rfl := Option.some.inj (hupdate.symm.trans hbefore)
      obtain h | h := hended
      · exact absurd h hlive.1
      · exact absurd h hlive.2
    | read message' update' offset tid he hread ha =>
      obtain rfl := Option.some.inj (hupdate.symm.trans ha.update_eq)
      obtain hcompleted | herror := hended
      · rw [ha.after, FirmwareUpdateSession.afterRead, if_pos hcompleted]
      · exact absurd herror (readRequest_live hread)
  · cases h
    have htick : s.tick.files = s.files := by
      simp only [tick]
      split
      · rfl
      · have hkeep := s.aside_keepForwarding.files
        have hu : s.keepForwarding.firmwareUpdate = some update :=
          (congrArg Files.update hkeep).trans hupdate
        rw [(aside_foldl_serviceNode _ _).files, (onlySaving_foldl_serviceWrite _ _).files,
          serviceFirmwareUpdate]
        simp only [hu, if_pos hended]
        exact hkeep
    exact (congrArg Files.update htick).trans hupdate

/-! ## The file server's contract -/

/-- In a run, every update taken for complete has been served whole if and only if every read that
reached the end of an image came after reads of everything before it. Every response carries bytes of
the image of its update, the ones asked for, and no frame and no tick changes an update that has
ended. -/
theorem firmware_update {nowMs : ℕ} {es : List Event} {t : CanBusService}
    (h : run step (initial nowMs) es = some t) :
    (Along step ReadsAll (initial nowMs) es ↔
      ∀ pre post u, es = pre ++ post → run step (initial nowMs) pre = some u → u.CompletedServed) ∧
    (∀ update dest transferId offset payload,
      Sent.fileReadResponse update dest transferId offset payload ∈ t.sent →
        ∃ image, t.images[update]? = some image ∧
          payload = [0, 0] ++ (image.drop offset).take FIRMWARE_READ_CHUNK) ∧
    ∀ e u update, (∃ message, e = .frame message) ∨ e = .tick → step t e = some u →
      t.firmwareUpdate = some update → update.status = .completed ∨ update.status = .error →
        u.firmwareUpdate = some update := by
  refine ⟨?_, fun update dest tid offset payload hmem => ?_, fun e u update he hu hupdate hended => ?_⟩
  · refine along_iff_forall_reached (I := fun _ => True) (fun _ _ _ _ _ => trivial)
      (fun s e t _ hs hC hstep => completedServed_keep hs hC hstep)
      (fun s e t _ _ hC hstep => completedServed_lose hC hstep) trivial ?_ h
    rintro u ⟨⟩
  · have hinv := run_invariant (fun s e t hs hstep => fileInv_step hs hstep) (fileInv_initial nowMs) h
    obtain ⟨image, himage, hpayload⟩ :=
      hinv.genuine update dest tid offset payload (mem_responses.mpr ⟨hmem, rfl⟩)
    refine ⟨image, himage, ?_⟩
    rw [hpayload, encodeDronecanFileReadResponse, List.take_take]
    rfl
  · exact ended_kept he hu hupdate hended

def requestFrame (typeId transferId : ℕ) (payload : Bytes) : CanFrameMessage where
  len := payload.length + 1
  id := CAN_FRAME_FLAG_EFF + (typeId <<< 16) + (1 <<< 15) + (GCS_DRONECAN_NODE_ID <<< 8) + 0x80 + 50
  data := payload ++ [UInt8.ofNat (0xc0 + transferId)]

def nodeStatusFrame : CanFrameMessage where
  len := 8
  id := CAN_FRAME_FLAG_EFF + (DRONECAN_NODE_STATUS_DT_ID <<< 8) + 50
  data := [1, 0, 0, 0, 0, 0, 0, 0xc0]

def updateStarted : List Event :=
  [.start 1, .settle 0 none, .frame nodeStatusFrame,
    .startFirmwareUpdate 50 "fw.bin" (List.replicate 300 7)]

def skippingReads : List Event :=
  updateStarted ++
    [.frame (requestFrame DRONECAN_FILE_READ_SERVICE_ID 0 (leBytes 5 0)),
      .frame (requestFrame DRONECAN_FILE_READ_SERVICE_ID 1 (leBytes 5 300))]

def wholeReads : List Event :=
  updateStarted ++
    [.frame (requestFrame DRONECAN_FILE_READ_SERVICE_ID 0 (leBytes 5 0)),
      .frame (requestFrame DRONECAN_FILE_READ_SERVICE_ID 1 (leBytes 5 256))]

/-- The status of the update and the size of its image, and the offset and the length of every read
response. -/
def updateOutcome (s : CanBusService) :
    Option (DronecanFirmwareUpdateStatus × ℕ) × List (ℕ × ℕ) :=
  (s.firmwareUpdate.map fun update => (update.status, update.image.length), s.sent.filterMap fun c =>
    match c with
    | .fileReadResponse _ _ _ offset payload => some (offset, payload.length)
    | _ => none)

theorem mem_updateOutcome {update dest : ℕ}
    (h : Sent.fileReadResponse update dest transferId offset payload ∈ s.sent) :
    (offset, payload.length) ∈ (updateOutcome s).2 := List.mem_filterMap.mpr ⟨_, h, rfl⟩

/-- A node that reads past the second chunk has the update taken for complete without it. -/
theorem completed_unserved : ¬ ∀ nowMs es t, run step (initial nowMs) es = some t →
    t.CompletedServed := by
  intro hall
  have hrun : (run step (initial 0) skippingReads).map updateOutcome =
      some (some (.completed, 300), [(0, 258), (300, 2)]) := by decide +kernel
  obtain ⟨t, ht, hout⟩ := Option.map_eq_some_iff.mp hrun
  obtain ⟨hupdate, hreads⟩ := Prod.mk.inj hout
  obtain ⟨update, hu, hpair⟩ := Option.map_eq_some_iff.mp hupdate
  obtain ⟨hstatus, hlength⟩ := Prod.mk.inj hpair
  obtain ⟨dest, tid, offset, payload, hmem, hlo, hhi⟩ :=
    hall 0 skippingReads t ht update hu hstatus 299 (by rw [hlength]; decide)
  have hreads : (updateOutcome t).2 = [(0, 258), (300, 2)] := hreads
  have hread := mem_updateOutcome hmem
  rw [hreads] at hread
  simp only [List.mem_cons, Prod.mk.injEq, List.not_mem_nil, or_false] at hread
  omega

/-- The same when it reads both chunks. -/
theorem firmware_update_whole : ∃ t, run step (initial 0) wholeReads = some t ∧
    (Along step ReadsAll (initial 0) wholeReads ↔
      ∀ pre post u, wholeReads = pre ++ post → run step (initial 0) pre = some u →
        u.CompletedServed) ∧
    updateOutcome t = (some (.completed, 300), [(0, 258), (256, 46)]) := by
  have hrun : (run step (initial 0) wholeReads).map updateOutcome =
      some (some (.completed, 300), [(0, 258), (256, 46)]) := by decide +kernel
  obtain ⟨t, ht, hout⟩ := Option.map_eq_some_iff.mp hrun
  exact ⟨t, ht, (firmware_update ht).1, hout⟩

end ArduConfigurator.CanBus.CanBusService
