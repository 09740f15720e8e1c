import ArduConfigurator.CanBus.Service

/-! # What the parts of the service leave alone

The file server, the parameter writes and the allocator share one state. Each works on its own part of
it: `files`, `saving` and `allocations`. What only keeps the entries of the nodes up to date touches
none of them, and the operations of one part leave the other two as they were. -/
namespace ArduConfigurator.CanBus
set_option autoImplicit false

def Sent.isRead : Sent → Bool
  | .fileReadResponse .. => true
  | _ => false

def Sent.isSave : Sent → Bool
  | .executeOpcode .. => true
  | _ => false

structure Files where
  update : Option FirmwareUpdateSession
  images : List Bytes
  responses : List Sent

structure Saving where
  pendingWrites : JsMap (ℕ × String) PendingWrite
  saveAfterWrites : Finset ℕ
  pendingSaves : Finset ℕ
  saves : List Sent

namespace CanBusService

def files (s : CanBusService) : Files := ⟨s.firmwareUpdate, s.images, s.sent.filter Sent.isRead⟩

def saving (s : CanBusService) : Saving :=
  ⟨s.pendingWrites, s.saveAfterWrites, s.pendingSaves, s.sent.filter Sent.isSave⟩

structure Aside (s t : CanBusService) : Prop where
  files : t.files = s.files
  saving : t.saving = s.saving
  allocations : t.allocations = s.allocations

structure OnlySaving (s t : CanBusService) : Prop where
  files : t.files = s.files
  allocations : t.allocations = s.allocations

structure OnlyAllocating (s t : CanBusService) : Prop where
  files : t.files = s.files
  saving : t.saving = s.saving

structure OnlyServing (s t : CanBusService) : Prop where
  saving : t.saving = s.saving
  allocations : t.allocations = s.allocations

variable {s t u : CanBusService}

theorem Aside.refl (s : CanBusService) : Aside s s := ⟨rfl, rfl, rfl⟩

theorem Aside.trans (h : Aside s t) (h' : Aside t u) : Aside s u :=
  ⟨h'.files.trans h.files, h'.saving.trans h.saving, h'.allocations.trans h.allocations⟩

theorem Aside.onlySaving (h : Aside s t) : OnlySaving s t := ⟨h.files, h.allocations⟩

theorem Aside.onlyAllocating (h : Aside s t) : OnlyAllocating s t := ⟨h.files, h.saving⟩

theorem Aside.onlyServing (h : Aside s t) : OnlyServing s t := ⟨h.saving, h.allocations⟩

theorem OnlySaving.trans (h : OnlySaving s t) (h' : OnlySaving t u) : OnlySaving s u :=
  ⟨h'.files.trans h.files, h'.allocations.trans h.allocations⟩

theorem OnlyAllocating.trans (h : OnlyAllocating s t) (h' : OnlyAllocating t u) :
    OnlyAllocating s u := ⟨h'.files.trans h.files, h'.saving.trans h.saving⟩

theorem OnlyServing.trans (h : OnlyServing s t) (h' : OnlyServing t u) : OnlyServing s u :=
  ⟨h'.saving.trans h.saving, h'.allocations.trans h.allocations⟩

variable {p : Prop}

theorem aside_ite [Decidable p] (ht : Aside s t) (hu : Aside s u) :
    Aside s (if p then t else u) := by
  split
  · exact ht
  · exact hu

theorem onlySaving_ite [Decidable p] (ht : OnlySaving s t) (hu : OnlySaving s u) :
    OnlySaving s (if p then t else u) := by
  split
  · exact ht
  · exact hu

/-! ## Sending -/

variable (s)

theorem sendServiceCall_cases (c : Sent) :
    s.sendServiceCall c = s ∨ (s.status = .active ∧ s.sendServiceCall c = s.emit c) := by
  rw [sendServiceCall]
  split
  · next h => exact .inr ⟨h, rfl⟩
  · exact .inl rfl

variable {c : Sent}

theorem aside_emit (hr : c.isRead = false) (hs : c.isSave = false) :
    Aside s (s.emit c) := by
  refine ⟨?_, ?_, rfl⟩
  · simp [CanBusService.files, emit, hr]
  · simp [CanBusService.saving, emit, hs]

theorem aside_sendServiceCall (hr : c.isRead = false) (hs : c.isSave = false) :
    Aside s (s.sendServiceCall c) := by
  obtain h | ⟨-, h⟩ := s.sendServiceCall_cases c
  · rw [h]
    exact .refl s
  · rw [h]
    exact s.aside_emit hr hs

theorem onlyServing_sendServiceCall (hs : c.isSave = false) :
    OnlyServing s (s.sendServiceCall c) := by
  obtain h | ⟨-, h⟩ := s.sendServiceCall_cases c
  · rw [h]
    exact (Aside.refl s).onlyServing
  · rw [h]
    exact ⟨by simp [CanBusService.saving, emit, hs], rfl⟩

theorem onlySaving_sendSave (nodeId : ℕ) : OnlySaving s (s.sendSave nodeId) := by
  rw [sendSave]
  obtain h | ⟨-, h⟩ := s.sendServiceCall_cases (.executeOpcode nodeId DRONECAN_PARAM_OPCODE_SAVE)
  · rw [h]
    exact (Aside.refl s).onlySaving
  · rw [h]
    exact ⟨by simp [CanBusService.files, emit, Sent.isRead], rfl⟩

theorem aside_requestGetNodeInfo (dest : ℕ) : Aside s (s.requestGetNodeInfo dest) :=
  s.aside_sendServiceCall rfl rfl

theorem aside_requestGetSet (dest index : ℕ) : Aside s (s.requestGetSet dest index) :=
  s.aside_sendServiceCall rfl rfl

theorem aside_sendWrite (nodeId : ℕ) (name : String) (value : DronecanParamValue) :
    Aside s (s.sendWrite nodeId name value) := s.aside_sendServiceCall rfl rfl

theorem aside_sendWrites (nodeId : ℕ) (writes : List (String × DronecanParamValue)) :
    Aside s (s.sendWrites nodeId writes) := by
  cases writes with
  | nil => exact .refl s
  | cons w rest =>
    exact Aside.trans (t := { s with awaiting := s.awaiting ++ [Awaiting.writes nodeId rest] })
      ⟨rfl, rfl, rfl⟩ (aside_sendWrite _ nodeId w.1 w.2)

theorem aside_sendCanForward (bus : ℕ) : Aside s (s.sendCanForward bus) :=
  Aside.trans (t := { s with lastForwardArmAtMs := some s.nowMs }) ⟨rfl, rfl, rfl⟩
    (aside_emit _ rfl rfl)

/-! ## Forwarding and nodes -/

theorem aside_stopThen (next : Option ℕ) : Aside s (s.stopThen next) :=
  Aside.trans (t := { s with status := .stopping, awaiting := s.awaiting ++ [Awaiting.stop next] })
    ⟨rfl, rfl, rfl⟩ (aside_emit _ rfl rfl)

theorem aside_stop : Aside s s.stop := by
  rw [stop]
  split
  · exact .refl s
  · exact s.aside_stopThen none

theorem aside_requestForward (bus : ℕ) : Aside s (s.requestForward bus) :=
  Aside.trans
    (t := { s with
      status := .requesting, error := none, awaiting := s.awaiting ++ [Awaiting.forward bus] })
    ⟨rfl, rfl, rfl⟩ (aside_sendCanForward _ bus)

theorem aside_start (bus : ℕ) : Aside s (s.start bus) := by
  rw [start]
  split
  · split
    · exact .refl s
    · exact s.aside_stopThen (some bus)
  · exact s.aside_requestForward bus

theorem aside_keepForwarding : Aside s s.keepForwarding := by
  rw [keepForwarding]
  split
  · exact .refl s
  · split
    · exact s.aside_sendCanForward _
    · exact .refl s

theorem aside_putNode (node : MutableNode) : Aside s (s.putNode node) := ⟨rfl, rfl, rfl⟩

theorem aside_refreshNode (nodeId : ℕ) : Aside s (s.refreshNode nodeId) := by
  rw [refreshNode]
  split
  · exact s.aside_requestGetNodeInfo nodeId
  · exact .refl s

theorem aside_restartNode (nodeId : ℕ) : Aside s (s.restartNode nodeId) := by
  simp only [restartNode]
  split
  · exact ⟨rfl, rfl, rfl⟩
  · exact Aside.trans (t := { s with error := none }) ⟨rfl, rfl, rfl⟩
      (aside_sendServiceCall _ rfl rfl)

theorem aside_fetchAllParameters (nodeId : ℕ) : Aside s (s.fetchAllParameters nodeId) := by
  simp only [fetchAllParameters]
  split
  · exact ⟨rfl, rfl, rfl⟩
  · refine Aside.trans (t := { s with error := none }) ⟨rfl, rfl, rfl⟩ ?_
    exact (aside_putNode _ _).trans (aside_requestGetSet _ nodeId 0)

theorem aside_handleNodeStatus (n : ℕ) (payload : Bytes) :
    Aside s (s.handleNodeStatus n payload) := by
  simp only [handleNodeStatus]
  split
  · exact .refl s
  refine aside_ite ((Aside.trans ?_ (aside_putNode _ _)).trans (aside_requestGetSet _ n 0)) ?_
  all_goals
    exact aside_ite ((s.aside_putNode _).trans (aside_requestGetNodeInfo _ n)) (s.aside_putNode _)

theorem aside_handleGetNodeInfoResponse (n : ℕ) (payload : Bytes) :
    Aside s (s.handleGetNodeInfoResponse n payload) := by
  rw [handleGetNodeInfoResponse]
  split
  · exact .refl s
  · exact s.aside_putNode _

theorem aside_serviceNode (node : MutableNode) : Aside s (s.serviceNode node) := by
  simp only [serviceNode]
  refine aside_ite (aside_ite (Aside.trans ?_ (aside_putNode _ _))
    ((Aside.trans ?_ (aside_putNode _ _)).trans (aside_requestGetSet _ _ _))) ?_
  all_goals
    exact aside_ite ((s.aside_putNode _).trans (aside_requestGetNodeInfo _ _)) (s.aside_putNode _)

theorem aside_foldl_serviceNode (l : List MutableNode) :
    Aside s (l.foldl (fun s node => s.serviceNode node) s) := by
  induction l generalizing s with
  | nil => exact .refl s
  | cons node l ih => exact (s.aside_serviceNode node).trans (ih _)

/-! ## Writes and saves -/

theorem onlySaving_setPendingWrite (nodeId : ℕ) (name : String) (value : DronecanParamValue) :
    OnlySaving s (s.setPendingWrite nodeId name value) := ⟨rfl, rfl⟩

theorem onlySaving_writeParameter (nodeId : ℕ) (name : String) (value : DronecanParamValue) :
    OnlySaving s (s.writeParameter nodeId name value) := by
  simp only [writeParameter]
  split
  · exact ⟨rfl, rfl⟩
  · refine OnlySaving.trans (t := { s with error := none }) ⟨rfl, rfl⟩ ?_
    exact (onlySaving_setPendingWrite _ _ _ _).trans (aside_sendWrite _ _ _ _).onlySaving

theorem onlySaving_saveParameters (nodeId : ℕ) : OnlySaving s (s.saveParameters nodeId) := by
  simp only [saveParameters]
  split
  · exact ⟨rfl, rfl⟩
  · exact OnlySaving.trans
      (t := { s with
        error := none
        pendingSaves := insert nodeId s.pendingSaves
        saveAttempts := s.saveAttempts.set nodeId 1
        saveAckTimers := insert nodeId s.saveAckTimers })
      ⟨rfl, rfl⟩ (onlySaving_sendSave _ nodeId)

theorem onlySaving_foldl_setPendingWrite (nodeId : ℕ) (writes : List (String × DronecanParamValue)) :
    OnlySaving s (writes.foldl (fun s write => s.setPendingWrite nodeId write.1 write.2) s) := by
  induction writes generalizing s with
  | nil => exact (Aside.refl s).onlySaving
  | cons w rest ih => exact (s.onlySaving_setPendingWrite nodeId w.1 w.2).trans (ih _)

theorem onlySaving_applyAndSave (nodeId : ℕ) (writes : List (String × DronecanParamValue)) :
    OnlySaving s (s.applyAndSave nodeId writes) := by
  simp only [applyAndSave]
  split
  · exact ⟨rfl, rfl⟩
  split
  · exact OnlySaving.trans
      (t := { s with error := none, refetchAfterSave := insert nodeId s.refetchAfterSave })
      ⟨rfl, rfl⟩ (onlySaving_saveParameters _ nodeId)
  · refine OnlySaving.trans
      (t := { s with
        error := none
        refetchAfterSave := insert nodeId s.refetchAfterSave
        saveAfterWrites := insert nodeId s.saveAfterWrites }) ⟨rfl, rfl⟩ ?_
    exact (onlySaving_foldl_setPendingWrite _ nodeId writes).trans
      (aside_sendWrites _ nodeId writes).onlySaving

theorem onlySaving_changeNodeId (nodeId : ℕ) (newNodeId : ℤ) :
    OnlySaving s (s.changeNodeId nodeId newNodeId) := by
  rw [changeNodeId]
  split
  · exact ⟨rfl, rfl⟩
  · exact OnlySaving.trans
      (t := { s with restartAfterSave := s.restartAfterSave.set nodeId newNodeId.toNat }) ⟨rfl, rfl⟩
      (onlySaving_applyAndSave _ _ _)

theorem onlySaving_onSaveAckTimeout (nodeId : ℕ) : OnlySaving s (s.onSaveAckTimeout nodeId) := by
  simp only [onSaveAckTimeout]
  split
  · exact ⟨rfl, rfl⟩
  split
  · have h := onlySaving_sendSave
      { s with
        saveAckTimers := s.saveAckTimers.erase nodeId
        saveAttempts := s.saveAttempts.set nodeId ((s.saveAttempts.get nodeId).getD 1 + 1) } nodeId
    exact ⟨h.files, h.allocations⟩
  · exact ⟨rfl, rfl⟩

theorem onlySaving_handleGetSetResponse (n : ℕ) (payload : Bytes) :
    OnlySaving s (s.handleGetSetResponse n payload) := by
  simp only [handleGetSetResponse]
  split
  · exact (Aside.refl s).onlySaving
  split
  · exact ((s.aside_putNode _).trans (aside_putNode _ _)).onlySaving
  refine onlySaving_ite (OnlySaving.trans ?_ (aside_putNode _ _).onlySaving)
    (OnlySaving.trans ?_ ((aside_putNode _ _).trans (aside_requestGetSet _ _ _)).onlySaving)
  all_goals
    refine onlySaving_ite (OnlySaving.trans ?_ (onlySaving_saveParameters _ n)) ?_
    all_goals exact ⟨rfl, rfl⟩

theorem onlySaving_handleExecuteOpcodeResponse (n : ℕ) (payload : Bytes) :
    OnlySaving s (s.handleExecuteOpcodeResponse n payload) := by
  simp only [handleExecuteOpcodeResponse]
  split
  · exact (Aside.refl s).onlySaving
  split
  · exact (Aside.refl s).onlySaving
  split
  · exact ⟨(aside_restartNode _ n).files, (aside_restartNode _ n).allocations⟩
  split
  · exact ⟨(aside_fetchAllParameters _ n).files, (aside_fetchAllParameters _ n).allocations⟩
  · exact ⟨rfl, rfl⟩

theorem onlySaving_serviceWrite (key : ℕ × String) (write : PendingWrite) :
    OnlySaving s (s.serviceWrite key write) := by
  rw [serviceWrite]
  split
  · exact (Aside.refl s).onlySaving
  split
  · exact ⟨rfl, rfl⟩
  · exact OnlySaving.trans
      (t := { s with
        pendingWrites := s.pendingWrites.set key
          { write with attempts := write.attempts + 1, lastSentMs := s.nowMs } })
      ⟨rfl, rfl⟩ (aside_sendWrite _ _ _ _).onlySaving

theorem onlySaving_foldl_serviceWrite (l : List ((ℕ × String) × PendingWrite)) :
    OnlySaving s (l.foldl (fun s (key, write) => s.serviceWrite key write) s) := by
  induction l generalizing s with
  | nil => exact (Aside.refl s).onlySaving
  | cons w l ih => exact (s.onlySaving_serviceWrite w.1 w.2).trans (ih _)

/-! ## Allocation -/

theorem onlyAllocating_setAllocatorEnabled (enabled : Bool) (seed : List (String × ℕ)) :
    OnlyAllocating s (s.setAllocatorEnabled enabled seed) := by
  simp only [setAllocatorEnabled]
  split <;> exact ⟨rfl, rfl⟩

theorem aside_noteOtherAllocator (n : ℕ) : Aside s (s.noteOtherAllocator n) := by
  simp only [noteOtherAllocator]
  split
  · exact .refl s
  · split <;> exact ⟨rfl, rfl, rfl⟩

theorem aside_sendAllocation (n : ℕ) (bytes : Bytes) : Aside s (s.sendAllocation n bytes) :=
  Aside.trans (t := { s with allocatorTransferId := (s.allocatorTransferId + 1) &&& 0x1f })
    ⟨rfl, rfl, rfl⟩ (aside_sendServiceCall _ rfl rfl)

theorem aside_askFurther (bytes : Bytes) : Aside s (s.askFurther bytes) :=
  Aside.trans (t := { s with allocationQuery := some ⟨bytes, s.nowMs⟩ }) ⟨rfl, rfl, rfl⟩
    (aside_sendAllocation _ 0 bytes)

theorem onlyAllocating_grantNodeId (bytes : Bytes) (preferred : ℕ) :
    OnlyAllocating s (s.grantNodeId bytes preferred) := by
  simp only [grantNodeId]
  split
  · exact ⟨rfl, rfl⟩
  · next nodeId _ =>
    have h := aside_sendAllocation
      { s with
        allocationQuery := none
        allocations := s.allocations.set (hexBytes bytes) ⟨nodeId, some s.nowMs⟩ } nodeId bytes
    exact ⟨h.files, h.saving⟩

theorem onlyAllocating_handleAllocationRequest (frameData : Bytes) :
    OnlyAllocating s (s.handleAllocationRequest frameData) := by
  simp only [handleAllocationRequest]
  split
  · exact ⟨rfl, rfl⟩
  split
  · exact ⟨rfl, rfl⟩
  split
  · exact ⟨rfl, rfl⟩
  refine OnlyAllocating.trans (t := { s with allocationQuery := s.liveQuery }) ⟨rfl, rfl⟩ ?_
  split
  · exact (aside_askFurther _ _).onlyAllocating
  split
  · exact ⟨rfl, rfl⟩
  split
  · exact (aside_askFurther _ _).onlyAllocating
  split
  · exact onlyAllocating_grantNodeId _ _ _
  · exact ⟨rfl, rfl⟩

/-! ## The firmware update -/

variable {s} in
theorem OnlyServing.update (h : OnlyServing s t) (update : Option FirmwareUpdateSession) :
    OnlyServing s { t with firmwareUpdate := update } := ⟨h.saving, h.allocations⟩

theorem onlyServing_handleBeginFirmwareUpdateResponse (n : ℕ) (payload : Bytes) :
    OnlyServing s (s.handleBeginFirmwareUpdateResponse n payload) := by
  rw [handleBeginFirmwareUpdateResponse]
  split
  · exact ⟨rfl, rfl⟩
  split
  · exact ⟨rfl, rfl⟩
  split
  · exact ⟨rfl, rfl⟩
  split <;> exact ⟨rfl, rfl⟩

theorem onlyServing_handleFileReadRequest (n transferId : ℕ) (payload : Bytes) :
    OnlyServing s (s.handleFileReadRequest n transferId payload) := by
  rw [handleFileReadRequest]
  split
  · exact ⟨rfl, rfl⟩
  split
  · exact ⟨rfl, rfl⟩
  split
  · exact ⟨rfl, rfl⟩
  split
  · exact ⟨rfl, rfl⟩
  · refine OnlyServing.update (OnlyServing.trans ?_ (onlyServing_sendServiceCall _ rfl)) _
    split <;> exact ⟨rfl, rfl⟩

theorem onlyServing_serviceFirmwareUpdate : OnlyServing s s.serviceFirmwareUpdate := by
  rw [serviceFirmwareUpdate]
  split
  · exact ⟨rfl, rfl⟩
  next update _ =>
  split
  · exact ⟨rfl, rfl⟩
  split
  · split
    · exact ⟨rfl, rfl⟩
    split
    · have h := onlyServing_sendServiceCall
        { s with
          firmwareUpdate := some
            { update with beginAttempts := update.beginAttempts + 1, lastBeginAtMs := s.nowMs } }
        (c := .beginFirmwareUpdate update.nodeId update.path) rfl
      exact ⟨h.saving, h.allocations⟩
    · exact ⟨rfl, rfl⟩
  split <;> exact ⟨rfl, rfl⟩

theorem onlyServing_startFirmwareUpdate (nodeId : ℕ) (fileName : String) (image : Bytes) :
    OnlyServing s (s.startFirmwareUpdate nodeId fileName image) := by
  simp only [startFirmwareUpdate]
  split
  · exact ⟨rfl, rfl⟩
  split
  · exact ⟨rfl, rfl⟩
  split
  · exact ⟨rfl, rfl⟩
  split
  · exact ⟨rfl, rfl⟩
  · have h := fun s' : CanBusService =>
      s'.onlyServing_sendServiceCall (c := .beginFirmwareUpdate nodeId "fw.bin") rfl
    exact ⟨(h _).saving, (h _).allocations⟩

theorem onlyServing_cancelFirmwareUpdate : OnlyServing s s.cancelFirmwareUpdate := by
  rw [cancelFirmwareUpdate]
  split
  · exact ⟨rfl, rfl⟩
  split <;> exact ⟨rfl, rfl⟩

/-! ## What a frame does -/

def finished (s : CanBusService) (message : CanFrameMessage) : Option DronecanReassembledTransfer :=
  if s.accepts message = false ∨ message.anonymous = true ∨ message.otherAllocator = true ∨
      message.payload = [] then none
  else (DronecanReassembler.push s.reassembler message.context message.payload).2

def asksForId (s : CanBusService) (message : CanFrameMessage) : Bool :=
  s.accepts message && message.anonymous &&
    (s.allocatorEnabled && dronecanIsAnonymousAllocationFrame message.id)

/-- A frame does nothing, belongs to the allocation of node ids, or is the next of a transfer, which
it may complete. -/
inductive FrameMove (s : CanBusService) (message : CanFrameMessage) : CanBusService → Prop
  | ignored (h : s.finished message = none) : FrameMove s message s
  | request (h : s.finished message = none) (hasks : s.asksForId message = true) :
      FrameMove s message (s.handleAllocationRequest message.payload)
  | other (nodeId : ℕ) (h : s.finished message = none) :
      FrameMove s message (s.noteOtherAllocator nodeId)
  | piece (reassembler : Pending) (h : s.finished message = none) :
      FrameMove s message { s with reassembler := reassembler }
  | transfer (reassembler : Pending) (f : DronecanReassembledTransfer) (hactive : s.status = .active)
      (h : s.finished message = some f) :
      FrameMove s message ({ s with reassembler := reassembler }.handleTransfer message.destNodeId f)

theorem frame_moves (s : CanBusService) (message : CanFrameMessage) :
    FrameMove s message (s.processCanFrame message) := by
  rw [processCanFrame]
  split
  · next h => exact .ignored (by rw [finished, if_pos (.inl h)])
  next haccepts =>
  split
  · next hanonymous =>
    have hnone : s.finished message = none := by rw [finished, if_pos (.inr (.inl hanonymous))]
    split
    · next h =>
      refine .request hnone ?_
      rw [asksForId, Bool.and_eq_true, Bool.and_eq_true]
      exact ⟨⟨by simpa using haccepts, hanonymous⟩, h⟩
    · exact .ignored hnone
  next hanonymous =>
  split
  · next hother => exact .other _ (by rw [finished, if_pos (.inr (.inr (.inl hother)))])
  next hother =>
  split
  · next hpayload => exact .ignored (by rw [finished, if_pos (.inr (.inr (.inr hpayload)))])
  next hpayload =>
  have hfinished : s.finished message =
      (DronecanReassembler.push s.reassembler message.context message.payload).2 := by
    rw [finished, if_neg]
    simp [haccepts, hanonymous, hother, hpayload]
  have hactive : s.status = .active := by
    simp only [accepts, Bool.not_eq_false, Bool.and_eq_true, decide_eq_true_eq] at haccepts
    exact haccepts.1.1
  cases hpush : DronecanReassembler.push s.reassembler message.context message.payload with
  | mk reassembler f =>
    rw [hpush] at hfinished
    cases f with
    | none => exact .piece reassembler hfinished
    | some f => exact .transfer reassembler f hactive hfinished

end CanBusService
end ArduConfigurator.CanBus
