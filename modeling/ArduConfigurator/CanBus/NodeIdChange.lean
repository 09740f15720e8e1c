import ArduConfigurator.CanBus.ApplyAndSave
import ArduConfigurator.CanBus.NodeFrames

/-! # Changing a node's id

A node that gets a new id is restarted once the SAVE behind its CAN_NODE write is acknowledged. The
flag that says so is set when the change begins and taken by the next SAVE that succeeds. A `Watch`
follows a run and keeps how far every change has come in the session. -/
namespace ArduConfigurator.CanBus
open Runs
set_option autoImplicit false

/-! ## How far a change has come -/

inductive IdChange
  | writing (newNodeId : ℤ)
  | acknowledged
  | saving
  deriving DecidableEq

/-- The changes under way in a session, and the nodes that were restarted for one. -/
structure Watch where
  changes : ℕ → Option IdChange
  restarted : ℕ → Bool

namespace Watch

def start : Watch := ⟨fun _ => none, fun _ => false⟩

def put (w : Watch) (nodeId : ℕ) (change : Option IdChange) : Watch :=
  { w with changes := fun n => if n = nodeId then change else w.changes n }

def answer (w : Watch) (nodeId : ℕ) (name : String) (value : DronecanParamValue) : Watch :=
  match w.changes nodeId with
  | some (.writing newNodeId) =>
    if name = CAN_NODE_PARAM ∧ Echoes (.int64 newNodeId) value then
      w.put nodeId (some .acknowledged)
    else w
  | _ => w

def ask (w : Watch) (nodeId : ℕ) : Watch :=
  if w.changes nodeId = some .acknowledged then w.put nodeId (some .saving) else w

def saved (w : Watch) (nodeId : ℕ) (ok : Bool) : Watch :=
  if ok = false then w.put nodeId none
  else if w.changes nodeId = some .saving then
    { w.put nodeId none with restarted := fun n => decide (n = nodeId) || w.restarted n }
  else w

def written (w : Watch) (nodeId : ℕ) : Bool :=
  match w.changes nodeId with
  | some (.writing _) => false
  | _ => true

def answers (w : Watch) (nodeId : ℕ) (name : String) (value : DronecanParamValue) : Bool :=
  match w.changes nodeId with
  | some (.writing newNodeId) =>
    decide (name ≠ CAN_NODE_PARAM) || decide (Echoes (.int64 newNodeId) value)
  | _ => true

def giveUp (w : Watch) (fails : ℕ → Bool) : Watch :=
  { w with changes := fun n => if fails n then none else w.changes n }

variable (w : Watch) (nodeId : ℕ)

theorem put_self (change : Option IdChange) : (w.put nodeId change).changes nodeId = change :=
  if_pos rfl

variable {n : ℕ}

theorem put_of_ne (change : Option IdChange) (h : n ≠ nodeId) :
    (w.put nodeId change).changes n = w.changes n := if_neg h

theorem answer_of_ne (name : String) (value : DronecanParamValue) (h : n ≠ nodeId) :
    (w.answer nodeId name value).changes n = w.changes n := by
  rw [answer]
  split
  · split
    · exact w.put_of_ne nodeId _ h
    · rfl
  · rfl

theorem ask_of_ne (h : n ≠ nodeId) : (w.ask nodeId).changes n = w.changes n := by
  rw [ask]
  split
  · exact w.put_of_ne nodeId _ h
  · rfl

theorem ask_acknowledged (h : w.changes nodeId = some .acknowledged) :
    (w.ask nodeId).changes nodeId = some .saving := by
  rw [ask, if_pos h, put_self]

theorem ask_of_not_acknowledged (h : w.changes nodeId ≠ some .acknowledged) :
    w.ask nodeId = w := if_neg h

theorem saved_of_ne (ok : Bool) (h : n ≠ nodeId) :
    (w.saved nodeId ok).changes n = w.changes n := by
  rw [saved]
  split
  · exact w.put_of_ne nodeId _ h
  split
  · exact w.put_of_ne nodeId _ h
  · rfl

theorem restarted_answer (name : String) (value : DronecanParamValue) :
    (w.answer nodeId name value).restarted = w.restarted := by
  rw [answer]
  split
  · split <;> rfl
  · rfl

theorem restarted_ask : (w.ask nodeId).restarted = w.restarted := by
  rw [ask]
  split <;> rfl

theorem restarted_saved (ok : Bool) (h : w.restarted n = true) :
    (w.saved nodeId ok).restarted n = true := by
  rw [saved]
  split
  · exact h
  split
  · simp [h]
  · exact h

end Watch

namespace CanBusService

def saveResponse (s : CanBusService) (sourceNodeId : ℕ) (payload : Bytes) : Option (ℕ × Bool) :=
  (decodeDronecanExecuteOpcodeResponse payload).bind fun response =>
    if sourceNodeId ∈ s.pendingSaves then some (sourceNodeId, response.ok) else none

def saveAnswered (s : CanBusService) (message : CanFrameMessage) : Option (ℕ × Bool) :=
  (s.finished message).bind fun f =>
    if f.context.isService = true ∧ f.context.isRequest ≠ some true ∧
        f.context.typeId = DRONECAN_PARAM_EXECUTE_OPCODE_SERVICE_ID then
      s.saveResponse f.context.sourceNodeId f.payload
    else none

/-- The named answer leaves no write of the node in flight, and a SAVE was to follow. -/
def drains (s : CanBusService) (nodeId : ℕ) (name : String) : Bool :=
  decide (nodeId ∈ s.saveAfterWrites) &&
    (s.pendingWrites.delete (nodeId, name)).entries.all fun e => e.2.nodeId ≠ nodeId

def givesUpSave (s : CanBusService) (nodeId : ℕ) : Bool :=
  decide (nodeId ∈ s.pendingSaves) &&
    !decide ((s.saveAttempts.get nodeId).getD 1 < MAX_SAVE_RETRIES ∧ s.status = .active)

def givesUpWrite (s : CanBusService) (nodeId : ℕ) : Bool :=
  s.pendingWrites.keys.any fun key => decide (key.1 = nodeId) && s.givenUp key

def watchAfter (s : CanBusService) (w : Watch) : Event → Watch
  | .changeNodeId nodeId newNodeId =>
    if s.changeNodeIdReason nodeId newNodeId = none then w.put nodeId (some (.writing newNodeId))
    else w
  | .saveParameters nodeId => if s.nodes.has nodeId then w.ask nodeId else w
  | .applyAndSave nodeId writes => if s.nodes.has nodeId ∧ writes = [] then w.ask nodeId else w
  | .frame message =>
    match s.answered message with
    | some (nodeId, name, value) =>
      let w := w.answer nodeId name value
      if s.drains nodeId name then w.ask nodeId else w
    | none =>
      match s.saveAnswered message with
      | some (nodeId, ok) => w.saved nodeId ok
      | none => w
  | .tick => if s.status = .active then w.giveUp s.givesUpWrite else w
  | .saveAckTimeout nodeId => if s.givesUpSave nodeId then w.put nodeId none else w
  | .reset => Watch.start
  | .settle i failure =>
    match s.awaiting[i]?, failure with
    | some (.stop _), _ => Watch.start
    | some (.forward _), none => Watch.start
    | _, _ => w
  | _ => w

def stepWatch (p : CanBusService × Watch) (e : Event) : Option (CanBusService × Watch) :=
  (step p.1 e).map fun t => (t, p.1.watchAfter p.2 e)

def NoRestarts (s : CanBusService) : Prop :=
  s.restartAfterSave.keys = [] ∧ s.awaiting.all (fun call => !call.isRestart) = true

/-- A change that is under way is not given up, is not cut off by the end of the session, and no
SAVE but its own is on the way before its write has been answered with the new id. -/
def Undisturbed (p : CanBusService × Watch) : Event → Prop
  | .tick => p.1.status = .active → ∀ key ∈ p.1.pendingWrites.keys, p.1.givenUp key = true →
      p.1.restartAfterSave.has key.1 = false
  | .saveAckTimeout nodeId =>
    p.1.givesUpSave nodeId = true → p.1.restartAfterSave.has nodeId = false
  | .reset => p.1.NoRestarts
  | .settle i failure =>
    match p.1.awaiting[i]?, failure with
    | some (.stop _), _ => p.1.NoRestarts
    | some (.forward _), none => p.1.NoRestarts
    | _, _ => True
  | .changeNodeId nodeId newNodeId =>
    p.1.changeNodeIdReason nodeId newNodeId = none → nodeId ∉ p.1.pendingSaves
  | .saveParameters nodeId => p.2.written nodeId = true
  | .applyAndSave nodeId writes => writes = [] → p.2.written nodeId = true
  | .frame message =>
    (p.1.answered message).all (fun (nodeId, name, value) => p.2.answers nodeId name value) = true
  | _ => True

instance (s : CanBusService) : Decidable s.NoRestarts := inferInstanceAs (Decidable (_ ∧ _))

instance (p : CanBusService × Watch) : DecidablePred (Undisturbed p)
  | .tick => inferInstanceAs (Decidable (_ → ∀ _ ∈ _, _ → _))
  | .saveAckTimeout _ => inferInstanceAs (Decidable (_ → _))
  | .reset => inferInstanceAs (Decidable (NoRestarts _))
  | .settle i failure =>
    match h : p.1.awaiting[i]?, failure with
    | some (.stop _), _ => decidable_of_iff p.1.NoRestarts (by simp only [Undisturbed, h])
    | some (.forward _), none => decidable_of_iff p.1.NoRestarts (by simp only [Undisturbed, h])
    | some (.forward _), some _ => isTrue (by simp only [Undisturbed, h])
    | some (.writes ..), _ => isTrue (by simp only [Undisturbed, h])
    | some (.restart ..), _ => isTrue (by simp only [Undisturbed, h])
    | none, _ => isTrue (by simp only [Undisturbed, h])
  | .changeNodeId .. => inferInstanceAs (Decidable (_ → _ ∉ _))
  | .saveParameters _ => inferInstanceAs (Decidable (_ = true))
  | .applyAndSave .. => inferInstanceAs (Decidable (_ → _ = true))
  | .frame _ => inferInstanceAs (Decidable (_ = true))
  | .clock _ | .start _ | .stop | .refreshNode _ | .restartNode _ | .fetchAllParameters _
  | .writeParameter .. | .setAllocatorEnabled .. | .forgetAllocations | .startFirmwareUpdate ..
  | .cancelFirmwareUpdate => isTrue trivial

/-! ## What an event does to the restarts -/

/-- The answer to a SAVE takes the flag, and restarts the node when there was one. -/
inductive SavedMove (nodeId : ℕ) (ok : Bool) (a b : Restarts) : Prop
  | plain (h : b = { a with flags := a.flags.delete nodeId })
  | restart (newNodeId : ℕ) (hflag : a.flags.get nodeId = some newNodeId) (hok : ok = true)
      (hflags : b.flags = a.flags.delete nodeId)
      (hcalls : b.calls = a.calls ++ [.restart nodeId newNodeId])
      (hrequests : ∃ k, b.requests = a.requests ++ List.replicate k (.restartNode nodeId))

inductive FrameRestarts (s : CanBusService) (message : CanFrameMessage) (t : CanBusService) : Prop
  | kept (hsaved : s.saveAnswered message = none) (h : t.restarts = s.restarts)
  | saved (nodeId : ℕ) (ok : Bool) (hsaved : s.saveAnswered message = some (nodeId, ok))
      (hanswered : s.answered message = none) (h : SavedMove nodeId ok s.restarts t.restarts)

theorem restarts_restartNode (s : CanBusService) (nodeId : ℕ) :
    ∃ k, (s.restartNode nodeId).restarts =
      { s.restarts with
        requests := s.restarts.requests ++ List.replicate k (.restartNode nodeId) } := by
  simp only [restartNode]
  split
  · exact ⟨0, by simp [restarts]⟩
  obtain h | ⟨-, h⟩ := sendServiceCall_cases { s with error := none } (.restartNode nodeId)
  · exact ⟨0, by rw [h]; simp [restarts]⟩
  · exact ⟨1, by rw [h]; simp [restarts, emit, Sent.isRestart]⟩

variable {n : ℕ} {payload : Bytes}

theorem handleExecuteOpcodeResponse_of_none {s : CanBusService}
    (h : s.saveResponse n payload = none) : s.handleExecuteOpcodeResponse n payload = s := by
  rw [saveResponse] at h
  rw [handleExecuteOpcodeResponse]
  cases hdecode : decodeDronecanExecuteOpcodeResponse payload with
  | none => rfl
  | some response =>
    rw [hdecode, Option.bind_some] at h
    split at h
    · cases h
    · next hmem => exact if_pos hmem

variable {ok : Bool}

theorem handleExecuteOpcodeResponse_of_some {s : CanBusService} {m : ℕ}
    (h : s.saveResponse n payload = some (m, ok)) :
    m = n ∧ SavedMove n ok s.restarts (s.handleExecuteOpcodeResponse n payload).restarts := by
  rw [saveResponse, Option.bind_eq_some_iff] at h
  obtain ⟨response, hdecode, h⟩ := h
  split at h
  case isFalse => cases h
  next hmem =>
  obtain ⟨rfl, rfl⟩ := Prod.mk.inj (Option.some.inj h)
  refine ⟨rfl, ?_⟩
  rw [handleExecuteOpcodeResponse]
  simp only [hdecode, hmem, not_true_eq_false, if_false]
  cases hflag : s.restartAfterSave.get n with
  | none =>
    simp only
    split
    · exact .plain ((restarts_fetchAllParameters _ n).trans rfl)
    · exact .plain rfl
  | some newNodeId =>
    cases hok : response.ok with
    | false =>
      simp only [Bool.false_eq_true, and_false, if_false]
      exact .plain rfl
    | true =>
      obtain ⟨k, hk⟩ := restarts_restartNode
        { s with
          pendingSaves := s.pendingSaves.erase n
          saveAttempts := s.saveAttempts.delete n
          saveAckTimers := s.saveAckTimers.erase n
          restartAfterSave := s.restartAfterSave.delete n
          refetchAfterSave := s.refetchAfterSave.erase n } n
      refine .restart newNodeId hflag rfl (congrArg Restarts.flags hk) ?_
        ⟨k, congrArg Restarts.requests hk⟩
      have hcalls := congrArg Restarts.calls hk
      simp only [restarts] at hcalls ⊢
      rw [List.filter_append, hcalls]
      rfl

variable {message : CanFrameMessage}

theorem mem_pendingSaves_of_saveAnswered {s : CanBusService}
    (h : s.saveAnswered message = some (n, ok)) : n ∈ s.pendingSaves := by
  rw [saveAnswered, Option.bind_eq_some_iff] at h
  obtain ⟨f, -, h⟩ := h
  split at h
  case isFalse => cases h
  rw [saveResponse, Option.bind_eq_some_iff] at h
  obtain ⟨response, -, h⟩ := h
  split at h
  case isFalse => cases h
  next hmem =>
  rwa [← (Prod.mk.inj (Option.some.inj h)).1]

theorem frame_restarts (s : CanBusService) (message : CanFrameMessage) :
    FrameRestarts s message (s.processCanFrame message) := by
  have hmoves := frame_moves s message
  generalize s.processCanFrame message = t at hmoves
  have hunsaved : s.finished message = none → s.saveAnswered message = none :=
    fun h => by rw [saveAnswered, h]; rfl
  cases hmoves with
  | ignored h => exact .kept (hunsaved h) rfl
  | request h _ => exact .kept (hunsaved h) (s.beside_handleAllocationRequest _).restarts
  | other n h => exact .kept (hunsaved h) (s.beside_noteOtherAllocator n).restarts
  | piece r h => exact .kept (hunsaved h) rfl
  | transfer r f _ hfinished =>
    have hsaved : s.saveAnswered message =
        if f.context.isService = true ∧ f.context.isRequest ≠ some true ∧
            f.context.typeId = DRONECAN_PARAM_EXECUTE_OPCODE_SERVICE_ID then
          s.saveResponse f.context.sourceNodeId f.payload
        else none := by
      rw [saveAnswered, hfinished, Option.bind_some]
    rw [handleTransfer]
    split
    · next hmessage =>
      have hnone : s.saveAnswered message = none := by rw [hsaved, if_neg (by simp [hmessage])]
      split
      · exact .kept hnone (restarts_handleNodeStatus _ _ _)
      · exact .kept hnone rfl
    next hservice =>
    split
    · next hrequest =>
      have hnone : s.saveAnswered message = none := by rw [hsaved, if_neg (by simp [hrequest])]
      split
      · exact .kept hnone (restarts_handleFileReadRequest _ _ _ _)
      · exact .kept hnone rfl
    next hresponse =>
    split
    · next htype =>
      exact .kept (by rw [hsaved, if_neg fun h => absurd (htype.symm.trans h.2.2) (by decide)])
        (restarts_handleGetNodeInfoResponse _ _ _)
    split
    · next htype =>
      exact .kept (by rw [hsaved, if_neg fun h => absurd (htype.symm.trans h.2.2) (by decide)])
        (restarts_handleGetSetResponse _ _ _)
    next hget =>
    split
    · next htype =>
      rw [if_pos ⟨by simpa using hservice, hresponse, htype⟩] at hsaved
      cases hanswer : s.saveResponse f.context.sourceNodeId f.payload with
      | none =>
        rw [handleExecuteOpcodeResponse_of_none (s := { s with reassembler := r }) hanswer]
        exact .kept (hsaved.trans hanswer) rfl
      | some answer =>
        obtain ⟨n, ok⟩ := answer
        obtain ⟨rfl, hmove⟩ :=
          handleExecuteOpcodeResponse_of_some (s := { s with reassembler := r }) hanswer
        refine .saved _ ok (hsaved.trans hanswer) ?_ hmove
        rw [answered, hfinished, Option.bind_some, if_neg fun h => hget h.2.2]
    next hopcode =>
    have hnone : s.saveAnswered message = none := by rw [hsaved, if_neg (by simp [hopcode])]
    split
    · exact .kept hnone (beside_handleBeginFirmwareUpdateResponse _ _ _).restarts
    · exact .kept hnone rfl

/-! ## A flag stands for a change under way -/

/-- How far the change of a flagged node has come; no SAVE is on the way before its write is
answered. -/
inductive UnderWay (a : Saving) (w : Watch) (nodeId : ℕ) : Prop
  | writing (newNodeId : ℤ) (hchange : w.changes nodeId = some (.writing newNodeId))
      (hwrite : a.pendingWrites.has (nodeId, CAN_NODE_PARAM) = true)
      (hsave : nodeId ∉ a.pendingSaves)
  | acknowledged (hchange : w.changes nodeId = some .acknowledged)
      (hsave : nodeId ∉ a.pendingSaves)
  | saving (hchange : w.changes nodeId = some .saving)

structure WatchInv (s : CanBusService) (w : Watch) : Prop where
  flagged : ∀ nodeId newNodeId, s.restarts.flags.get nodeId = some newNodeId →
    UnderWay s.saving w nodeId
  calls : ∀ nodeId newNodeId, .restart nodeId newNodeId ∈ s.restarts.calls →
    w.restarted nodeId = true
  keyed : SaveInv s.saving Ledger.empty

variable {s t : CanBusService} {w w' : Watch} {nodeId : ℕ} {a b : Saving}

theorem UnderWay.keep (h : UnderWay a w nodeId) (hchange : w'.changes nodeId = w.changes nodeId)
    (hwrites : a.pendingWrites.has (nodeId, CAN_NODE_PARAM) = true →
      b.pendingWrites.has (nodeId, CAN_NODE_PARAM) = true)
    (hsaves : nodeId ∈ b.pendingSaves → nodeId ∈ a.pendingSaves) : UnderWay b w' nodeId := by
  cases h with
  | writing newNodeId hw hwrite hsave =>
    exact .writing newNodeId (hchange.trans hw) (hwrites hwrite) fun h => hsave (hsaves h)
  | acknowledged hw hsave => exact .acknowledged (hchange.trans hw) fun h => hsave (hsaves h)
  | saving hw => exact .saving (hchange.trans hw)

theorem UnderWay.ask (h : UnderWay a w nodeId) (hwritten : w.written nodeId = true) :
    UnderWay b (w.ask nodeId) nodeId := by
  cases h with
  | writing newNodeId hw => simp [Watch.written, hw] at hwritten
  | acknowledged hw => exact .saving (w.ask_acknowledged nodeId hw)
  | saving hw =>
    rw [w.ask_of_not_acknowledged nodeId (by simp [hw])]
    exact .saving hw

theorem UnderWay.saving_of_mem (h : UnderWay a w nodeId) (hmem : nodeId ∈ a.pendingSaves) :
    w.changes nodeId = some .saving := by
  cases h with
  | writing _ _ _ hsave => exact absurd hmem hsave
  | acknowledged _ hsave => exact absurd hmem hsave
  | saving hchange => exact hchange

theorem WatchInv.move (h : WatchInv s w) (hflags : t.restarts.flags = s.restarts.flags)
    (hcalls : t.restarts.calls ⊆ s.restarts.calls) (hrestarted : w'.restarted = w.restarted)
    (hkeyed : SaveInv t.saving Ledger.empty)
    (hunder : ∀ n, s.restartAfterSave.has n = true → UnderWay s.saving w n →
      UnderWay t.saving w' n) : WatchInv t w' := by
  refine ⟨fun n new hflag => ?_, fun n new hcall => ?_, hkeyed⟩
  · rw [hflags] at hflag
    refine hunder n ?_ (h.flagged n new hflag)
    show (s.restarts.flags.get n).isSome = true
    rw [hflag]
    rfl
  · rw [hrestarted]
    exact h.calls n new (hcalls hcall)

theorem WatchInv.congr (h : WatchInv s w) (hrestarts : t.restarts = s.restarts)
    (hrestarted : w'.restarted = w.restarted) (hkeyed : SaveInv t.saving Ledger.empty)
    (hunder : ∀ n, s.restartAfterSave.has n = true → UnderWay s.saving w n →
      UnderWay t.saving w' n) : WatchInv t w' :=
  h.move (congrArg Restarts.flags hrestarts) (hrestarts ▸ List.Subset.refl _) hrestarted hkeyed
    hunder

theorem WatchInv.same (h : WatchInv s w) (hrestarts : t.restarts = s.restarts)
    (hsaving : t.saving = s.saving) : WatchInv t w :=
  h.congr hrestarts rfl (hsaving ▸ h.keyed) fun _ _ hunder => hsaving ▸ hunder

theorem WatchInv.of_noRestarts (hnone : s.NoRestarts) (hrestarts : t.restarts = s.restarts)
    (hkeyed : SaveInv t.saving Ledger.empty) : WatchInv t w := by
  refine ⟨fun n new hflag => ?_, fun n new hcall => ?_, hkeyed⟩
  · rw [hrestarts] at hflag
    have hkey : n ∈ s.restartAfterSave.keys := by
      rw [JsMap.mem_keys_iff, show s.restartAfterSave.get n = some new from hflag]
      rfl
    rw [hnone.1] at hkey
    cases hkey
  · rw [hrestarts] at hcall
    obtain ⟨hmem, hrestart⟩ := List.mem_filter.mp hcall
    have hnot := List.all_eq_true.mp hnone.2 _ hmem
    rw [hrestart] at hnot
    cases hnot

variable {e : Event}

theorem keyed_step (h : SaveInv s.saving Ledger.empty) (hstep : step s e = some t) :
    SaveInv t.saving Ledger.empty := by
  have hechoes : EchoesStaged (s, Ledger.empty) e := by
    cases e with
    | frame message => simp [EchoesStaged, Ledger.empty]
    | _ => trivial
  have hstep' : stepLedger (s, Ledger.empty) e = some (t, s.ledgerAfter Ledger.empty e) := by
    rw [stepLedger, hstep]
    rfl
  refine ⟨(saveInv_step h hechoes hstep').keyed, ?_, ?_⟩
  · intro n name v hwait
    cases hwait
  · intro n _ name v hfailed
    cases hfailed

variable {α κ : Type*}

theorem has_delete_of_ne [DecidableEq κ] {m : JsMap κ α} {j k : κ} (hne : j ≠ k)
    (h : m.has j = true) : (m.delete k).has j = true := by
  rw [JsMap.has, JsMap.get_delete, if_neg hne]
  exact h

theorem has_set [DecidableEq κ] {m : JsMap κ α} {j : κ} (k : κ) (v : α) (h : m.has j = true) :
    (m.set k v).has j = true := by
  rw [JsMap.has, JsMap.get_set]
  split
  · rfl
  · exact h

theorem has_writing {key : ℕ × String} (nodeId nowMs : ℕ)
    (writes : List (String × DronecanParamValue)) (h : a.pendingWrites.has key = true) :
    (a.writing nodeId nowMs writes).pendingWrites.has key = true := by
  induction writes generalizing a with
  | nil => exact h
  | cons write writes ih =>
    exact ih (a := { a with
      pendingWrites := a.pendingWrites.set (nodeId, write.1)
        ⟨nodeId, write.1, write.2, 1, nowMs⟩ }) (has_set _ _ h)

/-! ## The answers of the node -/

variable {name : String}

theorem AnswerMove.asks (h : AnswerMove nodeId name s.saving t.saving) :
    t.saving.pendingWrites = s.pendingWrites.delete (nodeId, name) ∧
      (t.saving.pendingSaves = s.pendingSaves ∨
        s.drains nodeId name = true ∧ t.saving.pendingSaves ⊆ insert nodeId s.pendingSaves) := by
  cases h with
  | kept h =>
    rw [h]
    exact ⟨rfl, .inl rfl⟩
  | last hmem hnone h =>
    refine ⟨h.pendingWrites, .inr ⟨?_, h.pendingSaves⟩⟩
    rw [drains, Bool.and_eq_true, decide_eq_true_eq, List.all_eq_true]
    refine ⟨hmem, fun e he => decide_eq_true ?_⟩
    exact hnone e.1 e.2 (JsMap.mem_entries_iff.mp he)

theorem drains_eq_false (hkeyed : SaveInv s.saving Ledger.empty)
    (hwrite : s.pendingWrites.has (nodeId, CAN_NODE_PARAM) = true) (hname : name ≠ CAN_NODE_PARAM) :
    s.drains nodeId name = false := by
  obtain ⟨write, hget⟩ := Option.isSome_iff_exists.mp hwrite
  have hstays : (s.pendingWrites.delete (nodeId, name)).get (nodeId, CAN_NODE_PARAM) =
      some write := by
    rw [JsMap.get_delete, if_neg fun heq => hname (Prod.mk.inj heq).2.symm]
    exact hget
  rw [drains, Bool.and_eq_false_iff]
  refine .inr (List.all_eq_false.mpr ⟨_, JsMap.mem_entries_iff.mpr hstays, ?_⟩)
  rw [hkeyed.keyed _ write hget]
  simp

variable {value : DronecanParamValue}

theorem underWay_answered (hkeyed : SaveInv s.saving Ledger.empty) (h : UnderWay s.saving w nodeId)
    (hanswers : w.answers nodeId name value = true)
    (hmove : AnswerMove nodeId name s.saving t.saving) :
    UnderWay t.saving
      (if s.drains nodeId name then (w.answer nodeId name value).ask nodeId
        else w.answer nodeId name value) nodeId := by
  obtain ⟨hwrites, hasks⟩ := hmove.asks
  -- Once the write is answered, a SAVE that follows at once is the change's own.
  have hacked : ∀ v : Watch, v.changes nodeId = some .acknowledged → nodeId ∉ s.pendingSaves →
      UnderWay t.saving (if s.drains nodeId name then v.ask nodeId else v) nodeId := by
    intro v hv hsave
    obtain hsame | ⟨hdrains, -⟩ := hasks
    · split
      · exact .saving (v.ask_acknowledged nodeId hv)
      · exact .acknowledged hv (hsame ▸ hsave)
    · rw [if_pos hdrains]
      exact .saving (v.ask_acknowledged nodeId hv)
  cases h with
  | writing newNodeId hchange hwrite hsave =>
    simp only [Watch.answers, hchange, Bool.or_eq_true, decide_eq_true_eq] at hanswers
    by_cases hname : name = CAN_NODE_PARAM
    · have hechoes := hanswers.resolve_left (not_not_intro hname)
      have hanswer : w.answer nodeId name value = w.put nodeId (some .acknowledged) := by
        rw [Watch.answer, hchange]
        exact if_pos ⟨hname, hechoes⟩
      rw [hanswer]
      exact hacked _ (w.put_self nodeId _) hsave
    · have hanswer : w.answer nodeId name value = w := by
        rw [Watch.answer, hchange]
        exact if_neg fun h => hname h.1
      have hdrains := drains_eq_false hkeyed hwrite hname
      rw [hdrains, if_neg Bool.false_ne_true, hanswer]
      refine .writing newNodeId hchange ?_ ?_
      · rw [hwrites]
        exact has_delete_of_ne (fun heq => hname (Prod.mk.inj heq).2.symm) hwrite
      · obtain hsame | ⟨hdrains', -⟩ := hasks
        · exact hsame ▸ hsave
        · rw [hdrains] at hdrains'
          cases hdrains'
  | acknowledged hchange hsave =>
    have hanswer : w.answer nodeId name value = w := by rw [Watch.answer, hchange]
    rw [hanswer]
    exact hacked w hchange hsave
  | saving hchange =>
    have hanswer : w.answer nodeId name value = w := by rw [Watch.answer, hchange]
    have hask : w.ask nodeId = w := w.ask_of_not_acknowledged nodeId (by simp [hchange])
    rw [hanswer, hask, ite_self]
    exact .saving hchange

theorem underWay_answered_of_ne (hne : n ≠ nodeId) (h : UnderWay s.saving w n)
    (hmove : AnswerMove nodeId name s.saving t.saving) :
    UnderWay t.saving
      (if s.drains nodeId name then (w.answer nodeId name value).ask nodeId
        else w.answer nodeId name value) n := by
  obtain ⟨hwrites, hasks⟩ := hmove.asks
  refine h.keep ?_ (fun hwrite => ?_) (fun hsave => ?_)
  · split
    · rw [Watch.ask_of_ne _ _ hne, Watch.answer_of_ne _ _ _ _ hne]
    · rw [Watch.answer_of_ne _ _ _ _ hne]
  · rw [hwrites]
    exact has_delete_of_ne (fun heq => hne (Prod.mk.inj heq).1) hwrite
  · obtain hsame | ⟨-, hsub⟩ := hasks
    · rw [hsame] at hsave
      exact hsave
    · exact (Finset.mem_insert.mp (hsub hsave)).resolve_left hne

theorem watchInv_frame (h : WatchInv s w) (hcond : Undisturbed (s, w) (.frame message)) :
    WatchInv (s.processCanFrame message) (s.watchAfter w (.frame message)) := by
  have hkeyed := keyed_step (e := .frame message) h.keyed rfl
  cases s.frame_answer message with
  | answered nodeId name value hanswered hmove =>
    have hafter : s.watchAfter w (.frame message) =
        if s.drains nodeId name then (w.answer nodeId name value).ask nodeId
        else w.answer nodeId name value := by
      simp only [watchAfter, hanswered]
    have hrestarts : (s.processCanFrame message).restarts = s.restarts := by
      cases s.frame_restarts message with
      | kept _ h => exact h
      | saved n ok _ hnone _ =>
        rw [hanswered] at hnone
        cases hnone
    have hanswers : w.answers nodeId name value = true := by
      simpa [Undisturbed, hanswered] using hcond
    rw [hafter]
    refine h.congr hrestarts ?_ hkeyed fun n _ hunder => ?_
    · split
      · rw [Watch.restarted_ask, Watch.restarted_answer]
      · rw [Watch.restarted_answer]
    · by_cases hn : n = nodeId
      · rw [hn] at hunder ⊢
        exact underWay_answered h.keyed hunder hanswers hmove
      · exact underWay_answered_of_ne hn hunder hmove
  | unanswered hanswered hmove =>
    have hkeep : ∀ {w' : Watch} {n : ℕ}, w'.changes n = w.changes n → UnderWay s.saving w n →
        UnderWay (s.processCanFrame message).saving w' n := fun hchange hunder =>
      hunder.keep hchange (fun hwrite => hmove.pendingWrites ▸ hwrite)
        fun hsave => hmove.pendingSaves hsave
    cases s.frame_restarts message with
    | kept hsaved hrestarts =>
      have hafter : s.watchAfter w (.frame message) = w := by
        simp only [watchAfter, hanswered, hsaved]
      rw [hafter]
      exact h.congr hrestarts rfl hkeyed fun n _ => hkeep rfl
    | saved nodeId ok hsaved _ hmoved =>
      have hafter : s.watchAfter w (.frame message) = w.saved nodeId ok := by
        simp only [watchAfter, hanswered, hsaved]
      have hflags : (s.processCanFrame message).restarts.flags =
          s.restarts.flags.delete nodeId := by
        cases hmoved with
        | plain h => rw [h]
        | restart _ _ _ h => exact h
      rw [hafter]
      refine ⟨fun n new hflag => ?_, fun n new hcall => ?_, hkeyed⟩
      · rw [hflags, JsMap.get_delete] at hflag
        split at hflag
        · cases hflag
        · next hn => exact hkeep (w.saved_of_ne nodeId ok hn) (h.flagged n new hflag)
      · cases hmoved with
        | plain hplain =>
          rw [hplain] at hcall
          exact w.restarted_saved nodeId ok (h.calls n new hcall)
        | restart new' hflag hok _ hcalls _ =>
          rw [hcalls, List.mem_append, List.mem_singleton] at hcall
          obtain hcall | hcall := hcall
          · exact w.restarted_saved nodeId ok (h.calls n new hcall)
          · obtain ⟨rfl, -⟩ := Awaiting.restart.inj hcall
            have hchange := (h.flagged n new' hflag).saving_of_mem
              (mem_pendingSaves_of_saveAnswered hsaved)
            rw [Watch.saved, if_neg (by simp [hok]), if_pos hchange]
            simp

/-! ## The other events -/

theorem watchInv_tick (h : WatchInv s w) (hcond : Undisturbed (s, w) .tick) :
    WatchInv s.tick (s.watchAfter w .tick) := by
  by_cases hactive : s.status = .active
  · have hmove := s.tick_writes hactive
    have hafter : s.watchAfter w .tick = w.giveUp s.givesUpWrite := if_pos hactive
    have hkept : ∀ n, s.restartAfterSave.has n = true → ∀ key ∈ s.pendingWrites.keys, key.1 = n →
        s.givenUp key = false := by
      intro n hn key hkey hkeyn
      by_contra hup
      have hfalse := hcond hactive key hkey (by simpa using hup)
      rw [hkeyn, hn] at hfalse
      cases hfalse
    rw [hafter]
    refine h.congr s.restarts_tick rfl (keyed_step (e := .tick) h.keyed rfl) fun n hn hunder => ?_
    refine hunder.keep ?_ (fun hwrite => ?_) (fun hsave => hmove.pendingSaves ▸ hsave)
    · refine if_neg ?_
      rw [givesUpWrite, List.any_eq_true]
      rintro ⟨key, hkey, hup⟩
      rw [Bool.and_eq_true, decide_eq_true_eq] at hup
      rw [hkept n hn key hkey hup.1] at hup
      exact Bool.false_ne_true hup.2
    · obtain ⟨write, hget⟩ := Option.isSome_iff_exists.mp hwrite
      have hup := hkept n hn _ (JsMap.mem_keys_iff.mpr hwrite) rfl
      rw [givenUp, show s.pendingWrites.get (n, CAN_NODE_PARAM) = some write from hget,
        Option.any_some] at hup
      obtain ⟨write', hget', -⟩ := hmove.kept _ write (JsMap.mem_entries_iff.mpr hget) hup
      exact Option.isSome_iff_exists.mpr ⟨write', hget'⟩
  · have htick : s.tick = s := by rw [tick, if_pos hactive]
    have hafter : s.watchAfter w .tick = w := if_neg hactive
    rw [htick, hafter]
    exact h

theorem watchInv_saveAckTimeout (h : WatchInv s w) (hmem : nodeId ∈ s.saveAckTimers)
    (hcond : Undisturbed (s, w) (.saveAckTimeout nodeId)) :
    WatchInv (s.onSaveAckTimeout nodeId) (s.watchAfter w (.saveAckTimeout nodeId)) := by
  have hstep : step s (.saveAckTimeout nodeId) = some (s.onSaveAckTimeout nodeId) := if_pos hmem
  have hsaving : (s.onSaveAckTimeout nodeId).saving.pendingWrites = s.pendingWrites ∧
      (s.onSaveAckTimeout nodeId).saving.pendingSaves ⊆ s.pendingSaves := by
    obtain hmove | ⟨hpending, hmove⟩ := s.onSaveAckTimeout_moves nodeId
    · exact ⟨hmove.pendingWrites, hmove.pendingSaves⟩
    · refine ⟨hmove.pendingWrites, hmove.pendingSaves.trans ?_⟩
      exact Finset.insert_subset hpending (Finset.Subset.refl _)
  have hafter : s.watchAfter w (.saveAckTimeout nodeId) =
      if s.givesUpSave nodeId then w.put nodeId none else w := rfl
  rw [hafter]
  refine h.congr (s.beside_onSaveAckTimeout nodeId).restarts ?_ (keyed_step h.keyed hstep)
    fun n hn hunder => ?_
  · split <;> rfl
  · refine hunder.keep ?_ (fun hwrite => hsaving.1 ▸ hwrite) (fun hsave => hsaving.2 hsave)
    split
    · next hup =>
      refine w.put_of_ne nodeId none ?_
      rintro rfl
      have hfalse := hcond hup
      rw [hn] at hfalse
      cases hfalse
    · rfl

theorem filter_eraseIdx {p : α → Bool} {l : List α} {i : ℕ} {x : α} (h : l[i]? = some x)
    (hx : p x = false) : (l.eraseIdx i).filter p = l.filter p := by
  induction l generalizing i with
  | nil => rfl
  | cons y l ih =>
    cases i with
    | zero =>
      cases h
      rw [List.eraseIdx_cons_zero, List.filter_cons, hx, if_neg Bool.false_ne_true]
    | succ i =>
      rw [List.eraseIdx_cons_succ, List.filter_cons, List.filter_cons, ih h]

theorem NoRestarts.erase (h : s.NoRestarts) (i : ℕ) :
    NoRestarts { s with awaiting := s.awaiting.eraseIdx i } :=
  ⟨h.1, List.all_eq_true.mpr fun call hcall =>
    List.all_eq_true.mp h.2 call (List.mem_of_mem_eraseIdx hcall)⟩

theorem watchInv_settle {i : ℕ} {failure : Option String} {call : Awaiting} (h : WatchInv s w)
    (hcall : s.awaiting[i]? = some call) (hcond : Undisturbed (s, w) (.settle i failure)) :
    WatchInv ({ s with awaiting := s.awaiting.eraseIdx i }.settle call failure)
      (s.watchAfter w (.settle i failure)) := by
  have hkeyed : SaveInv ({ s with awaiting := s.awaiting.eraseIdx i }.settle call failure).saving
      Ledger.empty := by
    refine keyed_step (e := .settle i failure) h.keyed ?_
    rw [step, hcall]
    rfl
  have herase : call.isRestart = false →
      restarts { s with awaiting := s.awaiting.eraseIdx i } = s.restarts := by
    intro hrestart
    simp only [restarts, filter_eraseIdx hcall hrestart]
  cases call with
  | stop next =>
    simp only [Undisturbed, hcall] at hcond
    refine WatchInv.of_noRestarts (hcond.erase i) ?_ hkeyed
    cases next with
    | none => rfl
    | some bus => exact (beside_requestForward _ bus).restarts.trans rfl
  | forward bus =>
    cases failure with
    | none =>
      simp only [Undisturbed, hcall] at hcond
      exact WatchInv.of_noRestarts (hcond.erase i) rfl hkeyed
    | some message =>
      have hafter : s.watchAfter w (.settle i (some message)) = w := by
        simp only [watchAfter, hcall]
      rw [hafter]
      exact h.same (Eq.trans rfl (herase rfl)) rfl
  | writes nodeId rest =>
    have hafter : s.watchAfter w (.settle i failure) = w := by simp only [watchAfter, hcall]
    rw [hafter]
    exact h.same ((beside_sendWrites _ nodeId rest).restarts.trans (herase rfl))
      (aside_sendWrites _ nodeId rest).saving
  | restart nodeId newNodeId =>
    have hafter : s.watchAfter w (.settle i failure) = w := by simp only [watchAfter, hcall]
    have hsaving : (settle { s with awaiting := s.awaiting.eraseIdx i }
        (.restart nodeId newNodeId) failure).saving = s.saving := by
      simp only [settle]
      split <;> rfl
    have hrestarts : (settle { s with awaiting := s.awaiting.eraseIdx i }
        (.restart nodeId newNodeId) failure).restarts =
        restarts { s with awaiting := s.awaiting.eraseIdx i } := by
      simp only [settle]
      split <;> rfl
    rw [hafter]
    refine h.move ((congrArg Restarts.flags hrestarts).trans rfl) ?_ rfl hkeyed
      fun n _ hunder => hsaving ▸ hunder
    rw [hrestarts]
    exact (List.eraseIdx_sublist _ i |>.filter _).subset

theorem watchInv_saveParameters (h : WatchInv s w)
    (hcond : Undisturbed (s, w) (.saveParameters nodeId)) :
    WatchInv (s.saveParameters nodeId) (s.watchAfter w (.saveParameters nodeId)) := by
  have hkeyed := keyed_step (e := .saveParameters nodeId) h.keyed rfl
  have hrestarts := (s.beside_saveParameters nodeId).restarts
  by_cases hnode : s.nodes.has nodeId = true
  · have hafter : s.watchAfter w (.saveParameters nodeId) = w.ask nodeId := if_pos hnode
    have hasked := s.asked_saveParameters nodeId
    rw [hafter]
    refine h.congr hrestarts (w.restarted_ask nodeId) hkeyed fun n _ hunder => ?_
    by_cases hn : n = nodeId
    · rw [hn] at hunder ⊢
      exact hunder.ask hcond
    · exact hunder.keep (w.ask_of_ne nodeId hn) (fun hwrite => hasked.pendingWrites ▸ hwrite)
        fun hsave => (Finset.mem_insert.mp (hasked.pendingSaves hsave)).resolve_left hn
  · have hafter : s.watchAfter w (.saveParameters nodeId) = w := if_neg hnode
    rw [Bool.not_eq_true] at hnode
    have hsaving : (s.saveParameters nodeId).saving =
        { s.saving with pendingSaves := s.pendingSaves.erase nodeId } := by
      simp only [saveParameters, hnode, if_true]
      rfl
    rw [hafter]
    refine h.congr hrestarts rfl hkeyed fun n _ hunder => ?_
    rw [hsaving]
    exact hunder.keep rfl (fun hwrite => hwrite) fun hsave => Finset.mem_of_mem_erase hsave

theorem watchInv_applyAndSave {writes : List (String × DronecanParamValue)} (h : WatchInv s w)
    (hcond : Undisturbed (s, w) (.applyAndSave nodeId writes)) :
    WatchInv (s.applyAndSave nodeId writes) (s.watchAfter w (.applyAndSave nodeId writes)) := by
  have hkeyed := keyed_step (e := .applyAndSave nodeId writes) h.keyed rfl
  have hrestarts := (s.beside_applyAndSave nodeId writes).restarts
  by_cases hnode : s.nodes.has nodeId = true
  · by_cases hwrites : writes = []
    · have hafter : s.watchAfter w (.applyAndSave nodeId writes) = w.ask nodeId :=
        if_pos ⟨hnode, hwrites⟩
      have hasked := s.asked_applyAndSave_nil nodeId
      rw [← hwrites] at hasked
      rw [hafter]
      refine h.congr hrestarts (w.restarted_ask nodeId) hkeyed fun n _ hunder => ?_
      by_cases hn : n = nodeId
      · rw [hn] at hunder ⊢
        exact hunder.ask (hcond hwrites)
      · exact hunder.keep (w.ask_of_ne nodeId hn) (fun hwrite => hasked.pendingWrites ▸ hwrite)
          fun hsave => (Finset.mem_insert.mp (hasked.pendingSaves hsave)).resolve_left hn
    · have hafter : s.watchAfter w (.applyAndSave nodeId writes) = w :=
        if_neg fun hc => hwrites hc.2
      rw [hafter]
      refine h.congr hrestarts rfl hkeyed fun n _ hunder => ?_
      rw [s.saving_applyAndSave nodeId hwrites hnode]
      exact hunder.keep rfl (has_writing nodeId s.nowMs writes) fun hsave => hsave
  · have hafter : s.watchAfter w (.applyAndSave nodeId writes) = w := if_neg fun hc => hnode hc.1
    rw [hafter]
    exact h.same hrestarts (s.saving_applyAndSave_absent nodeId writes (by simpa using hnode))

theorem watchInv_writeParameter (h : WatchInv s w) :
    WatchInv (s.writeParameter nodeId name value) w := by
  have hkeyed := keyed_step (e := .writeParameter nodeId name value) h.keyed rfl
  refine h.congr (s.beside_writeParameter nodeId name value).restarts rfl hkeyed
    fun n _ hunder => ?_
  rw [s.saving_writeParameter nodeId name value]
  split
  · exact hunder.keep rfl (has_writing nodeId s.nowMs _) fun hsave => hsave
  · exact hunder

theorem watchInv_changeNodeId {newNodeId : ℤ} (h : WatchInv s w)
    (hcond : Undisturbed (s, w) (.changeNodeId nodeId newNodeId)) :
    WatchInv (s.changeNodeId nodeId newNodeId)
      (s.watchAfter w (.changeNodeId nodeId newNodeId)) := by
  have hkeyed := keyed_step (e := .changeNodeId nodeId newNodeId) h.keyed rfl
  cases hreason : s.changeNodeIdReason nodeId newNodeId with
  | some reason =>
    have hafter : s.watchAfter w (.changeNodeId nodeId newNodeId) = w :=
      if_neg (by rw [hreason]; exact Option.some_ne_none _)
    rw [hafter]
    refine h.same ?_ ?_
    all_goals
      simp only [changeNodeId, hreason]
      rfl
  | none =>
    have hafter : s.watchAfter w (.changeNodeId nodeId newNodeId) =
        w.put nodeId (some (.writing newNodeId)) := if_pos hreason
    have hnode : s.nodes.has nodeId = true := by
      rw [changeNodeIdReason] at hreason
      split at hreason
      · cases hreason
      · next hget => rw [JsMap.has, hget]; rfl
    have hchange : s.changeNodeId nodeId newNodeId = applyAndSave { s with
        restartAfterSave := s.restartAfterSave.set nodeId newNodeId.toNat } nodeId
        [(CAN_NODE_PARAM, .int64 newNodeId)] := by
      simp only [changeNodeId, hreason]
    have hrestarts := (beside_applyAndSave { s with
      restartAfterSave := s.restartAfterSave.set nodeId newNodeId.toNat } nodeId
      [(CAN_NODE_PARAM, .int64 newNodeId)]).restarts
    have hsaving := saving_applyAndSave { s with
      restartAfterSave := s.restartAfterSave.set nodeId newNodeId.toNat } nodeId
      (List.cons_ne_nil (CAN_NODE_PARAM, DronecanParamValue.int64 newNodeId) []) hnode
    rw [hafter]
    rw [hchange] at hkeyed ⊢
    refine ⟨fun n new hflag => ?_, fun n new hmem => ?_, hkeyed⟩
    · rw [hsaving]
      by_cases hn : n = nodeId
      · rw [hn]
        refine .writing newNodeId (w.put_self nodeId _) ?_ (hcond hreason)
        show ((s.pendingWrites.set _ _).get _).isSome = true
        rw [JsMap.get_set, if_pos rfl]
        rfl
      · rw [hrestarts] at hflag
        have hflag : (s.restarts.flags.set nodeId newNodeId.toNat).get n = some new := hflag
        rw [JsMap.get_set, if_neg hn] at hflag
        exact (h.flagged n new hflag).keep (w.put_of_ne nodeId _ hn)
          (has_writing nodeId s.nowMs _) fun hsave => hsave
    · rw [hrestarts] at hmem
      exact h.calls n new hmem

theorem watchInv_step {p q : CanBusService × Watch} (h : WatchInv p.1 p.2) (hcond : Undisturbed p e)
    (hstep : stepWatch p e = some q) : WatchInv q.1 q.2 := by
  obtain ⟨s, w⟩ := p
  obtain ⟨t, ht, rfl⟩ := Option.map_eq_some_iff.mp hstep
  have hsame : t.restarts = s.restarts → t.saving = s.saving → s.watchAfter w e = w →
      WatchInv t (s.watchAfter w e) := by
    intro hrestarts hsaving hafter
    rw [hafter]
    exact h.same hrestarts hsaving
  cases e with
  | frame message =>
    cases ht
    exact watchInv_frame h hcond
  | tick =>
    cases ht
    exact watchInv_tick h hcond
  | saveAckTimeout nodeId =>
    rw [step] at ht
    split at ht
    · next hmem =>
      cases ht
      exact watchInv_saveAckTimeout h hmem hcond
    · cases ht
  | settle i failure =>
    obtain ⟨call, hcall, rfl⟩ := Option.map_eq_some_iff.mp ht
    exact watchInv_settle h hcall hcond
  | reset =>
    have hkeyed := keyed_step h.keyed ht
    cases ht
    exact WatchInv.of_noRestarts hcond rfl hkeyed
  | changeNodeId nodeId newNodeId =>
    cases ht
    exact watchInv_changeNodeId h hcond
  | saveParameters nodeId =>
    cases ht
    exact watchInv_saveParameters h hcond
  | applyAndSave nodeId writes =>
    cases ht
    exact watchInv_applyAndSave h hcond
  | writeParameter nodeId name value =>
    cases ht
    exact watchInv_writeParameter h
  | restartNode nodeId =>
    cases ht
    have hsaving := (s.aside_restartNode nodeId).saving
    obtain ⟨k, hk⟩ := s.restarts_restartNode nodeId
    refine h.move ((congrArg Restarts.flags hk).trans rfl) ?_ rfl (hsaving ▸ h.keyed)
      fun n _ hunder => hsaving ▸ hunder
    rw [hk]
    exact List.Subset.refl _
  | clock | forgetAllocations =>
    cases ht
    exact hsame rfl rfl rfl
  | start bus =>
    cases ht
    exact hsame (s.beside_start bus).restarts (s.aside_start bus).saving rfl
  | stop =>
    cases ht
    exact hsame s.beside_stop.restarts s.aside_stop.saving rfl
  | refreshNode nodeId =>
    cases ht
    exact hsame (s.beside_refreshNode nodeId).restarts (s.aside_refreshNode nodeId).saving rfl
  | fetchAllParameters nodeId =>
    cases ht
    exact hsame (s.restarts_fetchAllParameters nodeId) (s.aside_fetchAllParameters nodeId).saving rfl
  | setAllocatorEnabled enabled seed =>
    cases ht
    exact hsame (s.beside_setAllocatorEnabled enabled seed).restarts
      (s.onlyAllocating_setAllocatorEnabled enabled seed).saving rfl
  | startFirmwareUpdate nodeId fileName image =>
    cases ht
    exact hsame (s.beside_startFirmwareUpdate nodeId fileName image).restarts
      (s.onlyServing_startFirmwareUpdate nodeId fileName image).saving rfl
  | cancelFirmwareUpdate =>
    cases ht
    exact hsame s.beside_cancelFirmwareUpdate.restarts s.onlyServing_cancelFirmwareUpdate.saving rfl

theorem watchInv_initial (nowMs : ℕ) : WatchInv (initial nowMs) Watch.start :=
  ⟨fun _ _ h => (nomatch h), fun _ _ h => (nomatch h), SaveInv.empty _⟩

/-! ## Restarts that follow a SAVE -/

/-- An event restarts no node, has the operator's restart sent, or answers a SAVE. -/
inductive RestartMove (s : CanBusService) (e : Event) (t : CanBusService) : Prop
  | none (hrequests : t.restarts.requests = s.restarts.requests)
      (hcalls : t.restarts.calls.Sublist s.restarts.calls)
  | operator (nodeId : ℕ) (he : e = .restartNode nodeId)
      (h : ∃ k, t.restarts = { s.restarts with
        requests := s.restarts.requests ++ List.replicate k (.restartNode nodeId) })
  | saved (message : CanFrameMessage) (nodeId : ℕ) (ok : Bool) (he : e = .frame message)
      (hsaved : s.saveAnswered message = some (nodeId, ok))
      (h : SavedMove nodeId ok s.restarts t.restarts)

theorem RestartMove.of_eq (h : t.restarts = s.restarts) : RestartMove s e t :=
  .none (congrArg Restarts.requests h) (h ▸ List.Sublist.refl _)

theorem settle_restarts (s : CanBusService) (call : Awaiting) (failure : Option String) :
    (s.settle call failure).restarts = s.restarts := by
  cases call with
  | stop next =>
    cases next with
    | none => rfl
    | some bus => exact (beside_requestForward _ bus).restarts.trans rfl
  | forward bus => cases failure <;> rfl
  | writes nodeId rest => exact (beside_sendWrites s nodeId rest).restarts
  | restart nodeId newNodeId =>
    simp only [settle]
    split <;> rfl

theorem restart_moves (h : step s e = some t) : RestartMove s e t := by
  cases e with
  | frame message =>
    cases h
    cases s.frame_restarts message with
    | kept _ h => exact .of_eq h
    | saved nodeId ok hsaved _ h => exact .saved message nodeId ok rfl hsaved h
  | settle i failure =>
    obtain ⟨call, hcall, rfl⟩ := Option.map_eq_some_iff.mp h
    have hsettle := settle_restarts { s with awaiting := s.awaiting.eraseIdx i } call failure
    refine .none ((congrArg Restarts.requests hsettle).trans rfl) ?_
    rw [hsettle]
    exact (List.eraseIdx_sublist _ i).filter _
  | restartNode nodeId =>
    cases h
    exact .operator nodeId rfl (s.restarts_restartNode nodeId)
  | changeNodeId nodeId newNodeId =>
    cases h
    have hrestarts : (s.changeNodeId nodeId newNodeId).restarts.requests = s.restarts.requests ∧
        (s.changeNodeId nodeId newNodeId).restarts.calls = s.restarts.calls := by
      rw [changeNodeId]
      split
      · exact ⟨rfl, rfl⟩
      · exact ⟨(congrArg Restarts.requests (beside_applyAndSave _ _ _).restarts).trans rfl,
          (congrArg Restarts.calls (beside_applyAndSave _ _ _).restarts).trans rfl⟩
    exact .none hrestarts.1 (hrestarts.2 ▸ List.Sublist.refl _)
  | saveAckTimeout nodeId =>
    rw [step] at h
    split at h
    · cases h
      exact .of_eq (s.beside_onSaveAckTimeout nodeId).restarts
    · cases h
  | tick =>
    cases h
    exact .of_eq s.restarts_tick
  | clock | reset | forgetAllocations =>
    cases h
    exact .of_eq rfl
  | start bus =>
    cases h
    exact .of_eq (s.beside_start bus).restarts
  | stop =>
    cases h
    exact .of_eq s.beside_stop.restarts
  | refreshNode nodeId =>
    cases h
    exact .of_eq (s.beside_refreshNode nodeId).restarts
  | fetchAllParameters nodeId =>
    cases h
    exact .of_eq (s.restarts_fetchAllParameters nodeId)
  | writeParameter nodeId name value =>
    cases h
    exact .of_eq (s.beside_writeParameter nodeId name value).restarts
  | applyAndSave nodeId writes =>
    cases h
    exact .of_eq (s.beside_applyAndSave nodeId writes).restarts
  | saveParameters nodeId =>
    cases h
    exact .of_eq (s.beside_saveParameters nodeId).restarts
  | setAllocatorEnabled enabled seed =>
    cases h
    exact .of_eq (s.beside_setAllocatorEnabled enabled seed).restarts
  | startFirmwareUpdate nodeId fileName image =>
    cases h
    exact .of_eq (s.beside_startFirmwareUpdate nodeId fileName image).restarts
  | cancelFirmwareUpdate =>
    cases h
    exact .of_eq s.beside_cancelFirmwareUpdate.restarts

/-- The event has a node restarted that the operator did not ask to restart, or a call begin that
waits to remove its row. -/
def Restarted (s : CanBusService) (e : Event) (t : CanBusService) (nodeId : ℕ) : Prop :=
  (e ≠ .restartNode nodeId ∧ Sends s t (.restartNode nodeId)) ∨
    ∃ newNodeId, s.awaiting.count (.restart nodeId newNodeId) <
      t.awaiting.count (.restart nodeId newNodeId)

def RowRemoved (s : CanBusService) (e : Event) (nodeId : ℕ) : Prop :=
  ∃ i failure newNodeId, e = .settle i failure ∧ newNodeId ≠ nodeId ∧
    s.awaiting[i]? = some (.restart nodeId newNodeId)

theorem count_calls (s : CanBusService) (nodeId newNodeId : ℕ) :
    s.restarts.calls.count (.restart nodeId newNodeId) =
      s.awaiting.count (.restart nodeId newNodeId) := List.count_filter rfl

theorem requests_of_sends (h : Sends s t (.restartNode nodeId)) :
    ∃ new, t.restarts.requests = s.restarts.requests ++ new ∧ .restartNode nodeId ∈ new := by
  obtain ⟨new, hsent, hmem⟩ := h
  refine ⟨new.filter Sent.isRestart, ?_, List.mem_filter.mpr ⟨hmem, rfl⟩⟩
  simp only [restarts, hsent, List.filter_append]

theorem eq_of_sends_replicate {k : ℕ}
    (hrequests : t.restarts.requests = s.restarts.requests ++ List.replicate k (.restartNode n))
    (h : Sends s t (.restartNode nodeId)) : nodeId = n := by
  obtain ⟨new, hnew, hmem⟩ := requests_of_sends h
  rw [hrequests] at hnew
  rw [← List.append_cancel_left hnew] at hmem
  exact Sent.restartNode.inj (List.eq_of_mem_replicate hmem)

theorem not_restarted (hrequests : t.restarts.requests = s.restarts.requests)
    (hcalls : t.restarts.calls.Sublist s.restarts.calls) : ¬ Restarted s e t nodeId := by
  rintro (⟨-, hsends⟩ | ⟨newNodeId, hcount⟩)
  · obtain ⟨new, hnew, hmem⟩ := requests_of_sends hsends
    rw [hrequests] at hnew
    rw [List.self_eq_append_right.mp hnew] at hmem
    cases hmem
  · rw [← count_calls, ← count_calls] at hcount
    exact absurd (hcalls.count_le _) (not_le.mpr hcount)

theorem restarted_step (h : WatchInv s w) (hstep : step s e = some t)
    (hrestarted : Restarted s e t nodeId) : w.changes nodeId = some .saving := by
  cases restart_moves hstep with
  | none hrequests hcalls => exact absurd hrestarted (not_restarted hrequests hcalls)
  | operator n he hk =>
    obtain ⟨k, hk⟩ := hk
    obtain ⟨hne, hsends⟩ | ⟨newNodeId, hcount⟩ := hrestarted
    · have hn := eq_of_sends_replicate (congrArg Restarts.requests hk) hsends
      rw [hn] at hne
      exact absurd he hne
    · rw [← count_calls, ← count_calls, hk] at hcount
      exact absurd hcount (lt_irrefl _)
  | saved message n ok he hsaved hmove =>
    have hpending := mem_pendingSaves_of_saveAnswered hsaved
    cases hmove with
    | plain hplain =>
      refine absurd hrestarted (not_restarted ((congrArg Restarts.requests hplain).trans rfl) ?_)
      rw [hplain]
    | restart new hflag _ _ hcalls hrequests =>
      have hchange := (h.flagged n new hflag).saving_of_mem hpending
      obtain ⟨k, hk⟩ := hrequests
      obtain ⟨-, hsends⟩ | ⟨newNodeId, hcount⟩ := hrestarted
      · rw [eq_of_sends_replicate hk hsends]
        exact hchange
      · rw [← count_calls, ← count_calls, hcalls, List.count_append, List.count_singleton] at hcount
        split at hcount
        · next heq =>
          obtain ⟨rfl, -⟩ := Awaiting.restart.inj (by simpa using heq)
          exact hchange
        · exact absurd hcount (lt_irrefl _)

/-- In a run whose changes of node ids are left alone, a node is restarted behind a SAVE only when
that SAVE was asked for after the node had answered the write of its new id in the session, and a
row is removed only for such a restart. -/
theorem restart_after_save {nowMs : ℕ} {es : List Event} {e : Event}
    (h : run stepWatch (initial nowMs, Watch.start) es = some (s, w))
    (hcond : Along stepWatch Undisturbed (initial nowMs, Watch.start) es)
    (hstep : step s e = some t) (nodeId : ℕ) :
    (Restarted s e t nodeId → w.changes nodeId = some .saving) ∧
      (RowRemoved s e nodeId → w.restarted nodeId = true) := by
  have hinv : WatchInv s w :=
    run_invariant_along (I := fun p => WatchInv p.1 p.2)
      (fun p e q hp hcond hstep => watchInv_step hp hcond hstep) (watchInv_initial nowMs) hcond h
  refine ⟨restarted_step hinv hstep, ?_⟩
  rintro ⟨i, failure, newNodeId, -, -, hcall⟩
  exact hinv.calls nodeId newNodeId (List.mem_filter.mpr ⟨List.mem_of_getElem? hcall, rfl⟩)

/-! ## A change that failed -/

def responseFrames (typeId : ℕ) (signature : ℕ) (payload : Bytes) : List CanFrameMessage :=
  let body := leBytes 2 (Dronecan.dronecanTransferCrc signature payload).toNat ++ payload
  let count := (body.length + 6) / 7
  (List.range count).map fun i =>
    let chunk := (body.drop (7 * i)).take 7
    let tail : ℕ := (if i = 0 then 0x80 else 0) + (if i + 1 = count then 0x40 else 0) +
      (if i % 2 = 1 then 0x20 else 0)
    { len := chunk.length + 1
      id := CAN_FRAME_FLAG_EFF + (typeId <<< 16) + (GCS_DRONECAN_NODE_ID <<< 8) + 0x80 + 50
      data := chunk ++ [UInt8.ofNat tail] }

def canNodeFrames (value : ℤ) : List Event :=
  (responseFrames DRONECAN_PARAM_GETSET_SERVICE_ID DRONECAN_PARAM_GETSET_SIGNATURE
    (writeDronecanValueBytes (.int64 value) true ++ [0, 0, 0] ++
      [0x43, 0x41, 0x4E, 0x5F, 0x4E, 0x4F, 0x44, 0x45])).map Event.frame

def savedFrame : CanFrameMessage where
  len := 8
  id := CAN_FRAME_FLAG_EFF + (DRONECAN_PARAM_EXECUTE_OPCODE_SERVICE_ID <<< 16) +
    (GCS_DRONECAN_NODE_ID <<< 8) + 0x80 + 50
  data := [0, 0, 0, 0, 0, 0, 1, 0xc0]

def changeBegun : List Event :=
  [.start 1, .settle 0 none] ++ canNodeFrames 50 ++ [.changeNodeId 50 20]

/-- The write is sent five times and given up, and later the operator saves the node. -/
def failedChange : List Event :=
  changeBegun ++ (List.range 5).flatMap (fun i => [.clock (1000 * (i + 1)), .tick]) ++
    [.saveParameters 50]

def answeredChange : List Event := changeBegun ++ canNodeFrames 20

def restartsWith (es : List Event) (change : Option IdChange) : Bool :=
  (run stepWatch (initial 0, Watch.start) es).any fun p =>
    (step p.1 (.frame savedFrame)).any fun t =>
      decide (t.sent = p.1.sent ++ [.restartNode 50]) && decide (p.2.changes 50 = change)

theorem exists_of_restartsWith {es : List Event} {change : Option IdChange}
    (h : restartsWith es change = true) :
    ∃ s w t, run stepWatch (initial 0, Watch.start) es = some (s, w) ∧
      step s (.frame savedFrame) = some t ∧ Restarted s (.frame savedFrame) t 50 ∧
      w.changes 50 = change := by
  obtain ⟨⟨s, w⟩, hrun, h⟩ := (Option.any_eq_true _ _).mp h
  obtain ⟨t, hstep, h⟩ := (Option.any_eq_true _ _).mp h
  simp only [Bool.and_eq_true, decide_eq_true_eq] at h
  exact ⟨s, w, t, hrun, hstep, .inl ⟨Event.noConfusion, _, h.1, List.mem_singleton_self _⟩, h.2⟩

theorem restart_after_answered_change : ∃ s w t,
    run stepWatch (initial 0, Watch.start) answeredChange = some (s, w) ∧
      step s (.frame savedFrame) = some t ∧ Restarted s (.frame savedFrame) t 50 ∧
      w.changes 50 = some .saving := by
  obtain ⟨s, w, t, hrun, hstep, hrestarted, -⟩ :=
    @exists_of_restartsWith answeredChange (some .saving) (by decide +kernel)
  exact ⟨s, w, t, hrun, hstep, hrestarted,
    (restart_after_save hrun (by decide +kernel) hstep 50).1 hrestarted⟩

/-- A change whose write was given up restarts the node behind a later SAVE. -/
theorem failed_change_restarts : ¬ ∀ nowMs es e s t w,
    run stepWatch (initial nowMs, Watch.start) es = some (s, w) → step s e = some t →
    ∀ nodeId, Restarted s e t nodeId → w.changes nodeId = some .saving := by
  intro h
  obtain ⟨s, w, t, hrun, hstep, hrestarted, hchange⟩ :=
    @exists_of_restartsWith failedChange none (by decide +kernel)
  have hsaving := h 0 failedChange _ s t w hrun hstep 50 hrestarted
  rw [hchange] at hsaving
  cases hsaving

end CanBusService
end ArduConfigurator.CanBus
