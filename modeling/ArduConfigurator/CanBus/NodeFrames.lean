import ArduConfigurator.CanBus.Frames

/-! # What leaves the nodes and the restarts alone

A restart that follows a SAVE is a flag, then a request and a call that waits for it. Most operations
touch neither these nor the entries of the nodes; those that work on an entry leave the restarts as
they were. -/
namespace ArduConfigurator.CanBus
set_option autoImplicit false

def Sent.isRestart : Sent → Bool
  | .restartNode _ => true
  | _ => false

def Awaiting.isRestart : Awaiting → Bool
  | .restart .. => true
  | _ => false

/-- The restarts that are to come, those under way, and the requests sent. -/
structure Restarts where
  flags : JsMap ℕ ℕ
  calls : List Awaiting
  requests : List Sent

namespace CanBusService

def restarts (s : CanBusService) : Restarts :=
  ⟨s.restartAfterSave, s.awaiting.filter Awaiting.isRestart, s.sent.filter Sent.isRestart⟩

structure Beside (s t : CanBusService) : Prop where
  nodes : t.nodes = s.nodes
  restarts : t.restarts = s.restarts

variable {s t u : CanBusService}

theorem Beside.refl (s : CanBusService) : Beside s s := ⟨rfl, rfl⟩

theorem Beside.trans (h : Beside s t) (h' : Beside t u) : Beside s u :=
  ⟨h'.nodes.trans h.nodes, h'.restarts.trans h.restarts⟩

theorem beside_ite {p : Prop} [Decidable p] (ht : Beside s t) (hu : Beside s u) :
    Beside s (if p then t else u) := by
  split
  · exact ht
  · exact hu

variable (s)

/-! ## Sending -/

variable {c : Sent}

theorem beside_emit (hc : c.isRestart = false) : Beside s (s.emit c) :=
  ⟨rfl, by simp [CanBusService.restarts, emit, hc]⟩

theorem beside_sendServiceCall (hc : c.isRestart = false) :
    Beside s (s.sendServiceCall c) := by
  obtain h | ⟨-, h⟩ := s.sendServiceCall_cases c
  · rw [h]
    exact .refl s
  · rw [h]
    exact s.beside_emit hc

theorem beside_await (call : Awaiting) (hcall : call.isRestart = false) :
    Beside s { s with awaiting := s.awaiting ++ [call] } :=
  ⟨rfl, by simp [CanBusService.restarts, hcall]⟩

theorem beside_requestGetNodeInfo (dest : ℕ) : Beside s (s.requestGetNodeInfo dest) :=
  s.beside_sendServiceCall rfl

theorem beside_requestGetSet (dest index : ℕ) : Beside s (s.requestGetSet dest index) :=
  s.beside_sendServiceCall rfl

theorem beside_sendWrite (nodeId : ℕ) (name : String) (value : DronecanParamValue) :
    Beside s (s.sendWrite nodeId name value) := s.beside_sendServiceCall rfl

theorem beside_sendWrites (nodeId : ℕ) (writes : List (String × DronecanParamValue)) :
    Beside s (s.sendWrites nodeId writes) := by
  cases writes with
  | nil => exact .refl s
  | cons w rest =>
    exact (s.beside_await (.writes nodeId rest) rfl).trans
      (beside_sendWrite _ nodeId w.1 w.2)

theorem beside_sendCanForward (bus : ℕ) : Beside s (s.sendCanForward bus) :=
  Beside.trans (t := { s with lastForwardArmAtMs := some s.nowMs }) ⟨rfl, rfl⟩
    (beside_emit _ rfl)

theorem beside_stopThen (next : Option ℕ) : Beside s (s.stopThen next) := by
  refine Beside.trans (t := { s with status := .stopping }) ⟨rfl, rfl⟩ ?_
  exact (beside_await _ (.stop next) rfl).trans (beside_emit _ rfl)

theorem beside_stop : Beside s s.stop := by
  rw [stop]
  exact beside_ite (.refl s) (s.beside_stopThen none)

theorem beside_requestForward (bus : ℕ) : Beside s (s.requestForward bus) := by
  refine Beside.trans (t := { s with status := .requesting, error := none }) ⟨rfl, rfl⟩ ?_
  exact (beside_await _ (.forward bus) rfl).trans (beside_sendCanForward _ bus)

theorem beside_start (bus : ℕ) : Beside s (s.start bus) := by
  rw [start]
  exact beside_ite (beside_ite (.refl s) (s.beside_stopThen (some bus)))
    (s.beside_requestForward bus)

theorem beside_keepForwarding : Beside s s.keepForwarding := by
  rw [keepForwarding]
  split
  · exact .refl s
  · exact beside_ite (s.beside_sendCanForward _) (.refl s)

theorem beside_refreshNode (nodeId : ℕ) : Beside s (s.refreshNode nodeId) := by
  rw [refreshNode]
  exact beside_ite (s.beside_requestGetNodeInfo nodeId) (.refl s)

/-! ## Writes and saves -/

theorem beside_writeParameter (nodeId : ℕ) (name : String) (value : DronecanParamValue) :
    Beside s (s.writeParameter nodeId name value) := by
  simp only [writeParameter]
  refine beside_ite ⟨rfl, rfl⟩ (Beside.trans ?_ (beside_sendWrite _ nodeId name value))
  exact ⟨rfl, rfl⟩

theorem beside_sendSave (nodeId : ℕ) : Beside s (s.sendSave nodeId) := s.beside_sendServiceCall rfl

theorem beside_saveParameters (nodeId : ℕ) : Beside s (s.saveParameters nodeId) := by
  simp only [saveParameters]
  refine beside_ite ⟨rfl, rfl⟩ (Beside.trans ?_ (beside_sendSave _ nodeId))
  exact ⟨rfl, rfl⟩

theorem beside_foldl_setPendingWrite (nodeId : ℕ) (writes : List (String × DronecanParamValue)) :
    Beside s (writes.foldl (fun s write => s.setPendingWrite nodeId write.1 write.2) s) := by
  induction writes generalizing s with
  | nil => exact .refl s
  | cons w rest ih =>
    exact Beside.trans (t := s.setPendingWrite nodeId w.1 w.2) ⟨rfl, rfl⟩ (ih _)

theorem beside_applyAndSave (nodeId : ℕ) (writes : List (String × DronecanParamValue)) :
    Beside s (s.applyAndSave nodeId writes) := by
  simp only [applyAndSave]
  refine beside_ite ⟨rfl, rfl⟩ (beside_ite ?_ ?_)
  · exact Beside.trans (t := { s with
      error := none, refetchAfterSave := insert nodeId s.refetchAfterSave }) ⟨rfl, rfl⟩
      (beside_saveParameters _ nodeId)
  · refine Beside.trans (t := { s with
      error := none
      refetchAfterSave := insert nodeId s.refetchAfterSave
      saveAfterWrites := insert nodeId s.saveAfterWrites }) ⟨rfl, rfl⟩ ?_
    exact (beside_foldl_setPendingWrite _ nodeId writes).trans (beside_sendWrites _ nodeId writes)

theorem beside_onSaveAckTimeout (nodeId : ℕ) : Beside s (s.onSaveAckTimeout nodeId) := by
  simp only [onSaveAckTimeout]
  refine beside_ite ⟨rfl, rfl⟩ (beside_ite ?_ ⟨rfl, rfl⟩)
  have h := beside_sendSave
    { s with
      saveAckTimers := s.saveAckTimers.erase nodeId
      saveAttempts := s.saveAttempts.set nodeId ((s.saveAttempts.get nodeId).getD 1 + 1) } nodeId
  exact ⟨h.nodes, h.restarts⟩

theorem beside_serviceWrite (key : ℕ × String) (write : PendingWrite) :
    Beside s (s.serviceWrite key write) := by
  rw [serviceWrite]
  refine beside_ite (.refl s) (beside_ite ⟨rfl, rfl⟩ (Beside.trans ?_ (beside_sendWrite _ _ _ _)))
  exact ⟨rfl, rfl⟩

theorem beside_foldl_serviceWrite (l : List ((ℕ × String) × PendingWrite)) :
    Beside s (l.foldl (fun s (key, write) => s.serviceWrite key write) s) := by
  induction l generalizing s with
  | nil => exact .refl s
  | cons w l ih => exact (s.beside_serviceWrite w.1 w.2).trans (ih _)

/-! ## Allocation and firmware -/

theorem beside_setAllocatorEnabled (enabled : Bool) (seed : List (String × ℕ)) :
    Beside s (s.setAllocatorEnabled enabled seed) := by
  simp only [setAllocatorEnabled]
  exact beside_ite ⟨rfl, rfl⟩ ⟨rfl, rfl⟩

theorem beside_noteOtherAllocator (n : ℕ) : Beside s (s.noteOtherAllocator n) := by
  simp only [noteOtherAllocator]
  exact beside_ite (.refl s) (beside_ite ⟨rfl, rfl⟩ ⟨rfl, rfl⟩)

theorem beside_sendAllocation (n : ℕ) (bytes : Bytes) : Beside s (s.sendAllocation n bytes) :=
  Beside.trans (t := { s with allocatorTransferId := (s.allocatorTransferId + 1) &&& 0x1f })
    ⟨rfl, rfl⟩ (beside_sendServiceCall _ rfl)

theorem beside_askFurther (bytes : Bytes) : Beside s (s.askFurther bytes) :=
  Beside.trans (t := { s with allocationQuery := some ⟨bytes, s.nowMs⟩ }) ⟨rfl, rfl⟩
    (beside_sendAllocation _ 0 bytes)

theorem beside_grantNodeId (bytes : Bytes) (preferred : ℕ) :
    Beside s (s.grantNodeId bytes preferred) := by
  simp only [grantNodeId]
  split
  · exact ⟨rfl, rfl⟩
  · next nodeId _ =>
    exact Beside.trans (t := { s with
      allocationQuery := none
      allocations := s.allocations.set (hexBytes bytes) ⟨nodeId, some s.nowMs⟩ }) ⟨rfl, rfl⟩
      (beside_sendAllocation _ nodeId bytes)

theorem beside_handleAllocationRequest (frameData : Bytes) :
    Beside s (s.handleAllocationRequest frameData) := by
  simp only [handleAllocationRequest]
  refine beside_ite (.refl s) (beside_ite (.refl s) ?_)
  split
  · exact .refl s
  refine Beside.trans (t := { s with allocationQuery := s.liveQuery }) ⟨rfl, rfl⟩ ?_
  split
  · exact beside_askFurther _ _
  split
  · exact .refl _
  · exact beside_ite (beside_askFurther _ _) (beside_ite (beside_grantNodeId _ _ _) (.refl _))

theorem beside_handleBeginFirmwareUpdateResponse (n : ℕ) (payload : Bytes) :
    Beside s (s.handleBeginFirmwareUpdateResponse n payload) := by
  rw [handleBeginFirmwareUpdateResponse]
  split
  · exact .refl s
  split
  · exact .refl s
  split
  · exact .refl s
  · exact beside_ite (.refl s) ⟨rfl, rfl⟩

theorem beside_serviceFirmwareUpdate : Beside s s.serviceFirmwareUpdate := by
  rw [serviceFirmwareUpdate]
  split
  · exact .refl s
  refine beside_ite (.refl s) (beside_ite (beside_ite ⟨rfl, rfl⟩ (beside_ite ?_ (.refl s)))
    (beside_ite ⟨rfl, rfl⟩ (.refl s)))
  refine Beside.trans ?_ (beside_sendServiceCall _ rfl)
  exact ⟨rfl, rfl⟩

theorem beside_startFirmwareUpdate (nodeId : ℕ) (fileName : String) (image : Bytes) :
    Beside s (s.startFirmwareUpdate nodeId fileName image) := by
  simp only [startFirmwareUpdate]
  refine beside_ite ⟨rfl, rfl⟩ ?_
  split
  · exact ⟨rfl, rfl⟩
  refine beside_ite ⟨rfl, rfl⟩ (beside_ite ⟨rfl, rfl⟩ (Beside.trans ?_ (beside_sendServiceCall _ rfl)))
  exact ⟨rfl, rfl⟩

theorem beside_cancelFirmwareUpdate : Beside s s.cancelFirmwareUpdate := by
  rw [cancelFirmwareUpdate]
  split
  · exact .refl s
  · exact beside_ite ⟨rfl, rfl⟩ ⟨rfl, rfl⟩

/-! ## The entries of the nodes -/

@[simp] theorem restarts_putNode (node : MutableNode) : (s.putNode node).restarts = s.restarts := rfl

@[simp] theorem restarts_requestGetSet (dest index : ℕ) :
    (s.requestGetSet dest index).restarts = s.restarts := (s.beside_requestGetSet dest index).restarts

@[simp] theorem restarts_requestGetNodeInfo (dest : ℕ) :
    (s.requestGetNodeInfo dest).restarts = s.restarts := (s.beside_requestGetNodeInfo dest).restarts

theorem restarts_fetchAllParameters (nodeId : ℕ) :
    (s.fetchAllParameters nodeId).restarts = s.restarts := by
  simp only [fetchAllParameters]
  split
  · rfl
  · rw [restarts_requestGetSet, restarts_putNode]
    rfl

theorem restarts_handleNodeStatus (n : ℕ) (payload : Bytes) :
    (s.handleNodeStatus n payload).restarts = s.restarts := by
  simp only [handleNodeStatus]
  split
  · rfl
  · split_ifs <;> simp

theorem restarts_handleGetNodeInfoResponse (n : ℕ) (payload : Bytes) :
    (s.handleGetNodeInfoResponse n payload).restarts = s.restarts := by
  rw [handleGetNodeInfoResponse]
  split <;> rfl

theorem restarts_handleFileReadRequest (n transferId : ℕ) (payload : Bytes) :
    (s.handleFileReadRequest n transferId payload).restarts = s.restarts := by
  rw [handleFileReadRequest]
  split
  · rfl
  split
  · rfl
  split
  · rfl
  split
  · rfl
  · next update _ _ _ request _ =>
    have hsend := fun (s' : CanBusService) (c : Sent) (hc : c.isRestart = false) =>
      (s'.beside_sendServiceCall hc).restarts
    refine (hsend _ _ rfl).trans ?_
    split <;> rfl

theorem restarts_handleGetSetResponse (n : ℕ) (payload : Bytes) :
    (s.handleGetSetResponse n payload).restarts = s.restarts := by
  simp only [handleGetSetResponse]
  split
  · rfl
  split
  · rfl
  have hsave : ∀ t : CanBusService, (t.saveParameters n).restarts = t.restarts :=
    fun t => (t.beside_saveParameters n).restarts
  split
  · rw [restarts_putNode]
    split
    · exact (hsave _).trans rfl
    · rfl
  · rw [restarts_requestGetSet, restarts_putNode]
    split
    · exact (hsave _).trans rfl
    · rfl

theorem restarts_serviceNode (node : MutableNode) :
    (s.serviceNode node).restarts = s.restarts := by
  simp only [serviceNode]
  split_ifs <;> simp

theorem restarts_foldl_serviceNode (l : List MutableNode) :
    (l.foldl (fun s node => s.serviceNode node) s).restarts = s.restarts := by
  induction l generalizing s with
  | nil => rfl
  | cons node l ih =>
    rw [List.foldl_cons, ih]
    exact s.restarts_serviceNode node

theorem restarts_tick : s.tick.restarts = s.restarts := by
  simp only [tick]
  split
  · rfl
  · rw [restarts_foldl_serviceNode, (beside_foldl_serviceWrite _ _).restarts,
      (beside_serviceFirmwareUpdate _).restarts, (beside_keepForwarding _).restarts]

end CanBusService
end ArduConfigurator.CanBus
