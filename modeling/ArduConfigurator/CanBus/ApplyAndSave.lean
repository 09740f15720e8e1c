import ArduConfigurator.CanBus.FirmwareUpdate

/-! # Apply & Save

The writes of a batch are repeated until the node answers, and the SAVE follows once none is in flight.
A `Ledger` follows a run and keeps what has become of every staged write, by what the node's answers
carry. -/
namespace ArduConfigurator.CanBus
open Runs
set_option autoImplicit false

def wireValue (value : DronecanParamValue) : Option DronecanParamValue :=
  (readDronecanValueBytes (writeDronecanValueBytes value true) 0 true).map Prod.fst

def Echoes (written received : DronecanParamValue) : Prop := wireValue written = some received

instance (written received : DronecanParamValue) : Decidable (Echoes written received) :=
  inferInstanceAs (Decidable (_ = _))

inductive StagedStatus
  | waiting | echoed | failed
  deriving DecidableEq

structure StagedWrite where
  value : DronecanParamValue
  status : StagedStatus
  deriving DecidableEq

/-- The staged writes of every node by the name of the parameter, each with the value that it last was
staged with. -/
abbrev Ledger := ℕ → String → Option StagedWrite

namespace Ledger

def empty : Ledger := fun _ _ => none

def put (l : Ledger) (nodeId : ℕ) (name : String) (w : StagedWrite) : Ledger :=
  fun n m => if n = nodeId ∧ m = name then some w else l n m

def stage (l : Ledger) (nodeId : ℕ) (writes : List (String × DronecanParamValue)) : Ledger :=
  writes.foldl (fun l write => l.put nodeId write.1 ⟨write.2, .waiting⟩)
    fun n m => if n = nodeId then (l n m).filter fun w => w.status = .waiting else l n m

def answer (l : Ledger) (nodeId : ℕ) (name : String) (value : DronecanParamValue) : Ledger :=
  match l nodeId name with
  | some w =>
    if w.status = .waiting ∧ Echoes w.value value then l.put nodeId name ⟨w.value, .echoed⟩ else l
  | none => l

def giveUp (l : Ledger) (givenUp : ℕ × String → Bool) : Ledger :=
  fun n m => (l n m).map fun w =>
    if w.status = .waiting ∧ givenUp (n, m) = true then { w with status := .failed } else w

/-- Every staged write of the node was answered with the value it wrote, and none failed. -/
def AllEchoed (l : Ledger) (nodeId : ℕ) : Prop :=
  ∀ name w, l nodeId name = some w → w.status = .echoed

theorem put_self (l : Ledger) (nodeId : ℕ) (name : String) (w : StagedWrite) :
    l.put nodeId name w nodeId name = some w := if_pos ⟨rfl, rfl⟩

variable {nodeId n : ℕ} {m name : String}

theorem put_of_ne (l : Ledger) (w : StagedWrite) (h : (n, m) ≠ (nodeId, name)) :
    l.put nodeId name w n m = l n m :=
  if_neg fun hc => h (Prod.ext hc.1 hc.2)

variable {w : StagedWrite}

theorem stage_nil_eq_some (l : Ledger) (h : l.stage nodeId [] n m = some w) :
    l n m = some w ∧ (n = nodeId → w.status = .waiting) := by
  simp only [stage, List.foldl_nil] at h
  split at h
  · obtain ⟨h, hstatus⟩ := Option.filter_eq_some_iff.mp h
    exact ⟨h, fun _ => by simpa using hstatus⟩
  · next hne => exact ⟨h, fun heq => absurd heq hne⟩

theorem answer_eq_some (l : Ledger) {value : DronecanParamValue}
    (hechoes : ∀ w, l nodeId name = some w → w.status = .waiting → Echoes w.value value)
    (h : l.answer nodeId name value n m = some w) (hw : w.status ≠ .echoed) :
    l n m = some w ∧ ((n, m) = (nodeId, name) → w.status = .failed) := by
  rw [answer] at h
  cases hget : l nodeId name with
  | none =>
    rw [hget] at h
    refine ⟨h, fun heq => ?_⟩
    obtain ⟨rfl, rfl⟩ := Prod.mk.inj heq
    cases hget.symm.trans h
  | some v =>
    simp only [hget] at h
    by_cases hkey : (n, m) = (nodeId, name)
    · obtain ⟨rfl, rfl⟩ := Prod.mk.inj hkey
      by_cases hwaiting : v.status = .waiting
      · rw [if_pos ⟨hwaiting, hechoes v hget hwaiting⟩, l.put_self] at h
        cases h
        exact absurd rfl hw
      · rw [if_neg fun hc => hwaiting hc.1] at h
        obtain rfl := Option.some.inj (hget.symm.trans h)
        refine ⟨h, fun _ => ?_⟩
        cases hstatus : v.status with
        | waiting => exact absurd hstatus hwaiting
        | echoed => exact absurd hstatus hw
        | failed => rfl
    · refine ⟨?_, fun heq => absurd heq hkey⟩
      split at h
      · rwa [l.put_of_ne _ hkey] at h
      · exact h

end Ledger

/-- Whether a write has been repeated often enough and waits for its answer no longer. -/
def PendingWrite.givenUp (nowMs : ℕ) (w : PendingWrite) : Bool :=
  WRITE_RETRY_INTERVAL_MS < nowMs - w.lastSentMs ∧ MAX_WRITE_RETRIES ≤ w.attempts

def Saving.writing (a : Saving) (nodeId nowMs : ℕ) (writes : List (String × DronecanParamValue)) :
    Saving :=
  { a with
    pendingWrites := writes.foldl
      (fun pending write => pending.set (nodeId, write.1) ⟨nodeId, write.1, write.2, 1, nowMs⟩)
      a.pendingWrites }

namespace CanBusService

/-! ## What an event means to the staged writes -/

def answered (s : CanBusService) (message : CanFrameMessage) :
    Option (ℕ × String × DronecanParamValue) :=
  (s.finished message).bind fun f =>
    if f.context.isService = true ∧ f.context.isRequest ≠ some true ∧
        f.context.typeId = DRONECAN_PARAM_GETSET_SERVICE_ID then
      (decodeDronecanGetSetResponse f.payload).bind fun response =>
        if response.name = "" then none
        else some (f.context.sourceNodeId, response.name, response.value)
    else none

def givenUp (s : CanBusService) (key : ℕ × String) : Bool :=
  (s.pendingWrites.get key).any (PendingWrite.givenUp s.nowMs)

def ledgerAfter (s : CanBusService) (l : Ledger) : Event → Ledger
  | .applyAndSave nodeId writes => if s.nodes.has nodeId then l.stage nodeId writes else l
  | .changeNodeId nodeId newNodeId =>
    if s.changeNodeIdReason nodeId newNodeId = none then
      l.stage nodeId [(CAN_NODE_PARAM, .int64 newNodeId)]
    else l
  | .writeParameter nodeId name value =>
    if s.nodes.has nodeId ∧ (l nodeId name).isSome then l.put nodeId name ⟨value, .waiting⟩ else l
  | .frame message =>
    match s.answered message with
    | some (nodeId, name, value) => l.answer nodeId name value
    | none => l
  | .tick => if s.status = .active then l.giveUp s.givenUp else l
  | .reset => Ledger.empty
  | .settle i _ =>
    match s.awaiting[i]? with
    | some (.stop _) => Ledger.empty
    | _ => l
  | _ => l

def stepLedger (p : CanBusService × Ledger) (e : Event) : Option (CanBusService × Ledger) :=
  (step p.1 e).map fun t => (t, p.1.ledgerAfter p.2 e)

/-- A response that names a parameter with a staged write in flight carries the value that was
written. -/
def EchoesStaged (p : CanBusService × Ledger) (e : Event) : Prop :=
  match e with
  | .frame message =>
    (p.1.answered message).all fun (nodeId, name, value) =>
      (p.2 nodeId name).all fun w => w.status ≠ .waiting || decide (Echoes w.value value)
  | _ => True

instance (p : CanBusService × Ledger) : DecidablePred (EchoesStaged p)
  | .frame _ => inferInstanceAs (Decidable (_ = true))
  | .clock _ | .tick | .saveAckTimeout _ | .settle .. | .start _ | .stop | .reset | .refreshNode _
  | .restartNode _ | .fetchAllParameters _ | .writeParameter .. | .applyAndSave .. | .changeNodeId ..
  | .saveParameters _ | .setAllocatorEnabled .. | .forgetAllocations | .startFirmwareUpdate ..
  | .cancelFirmwareUpdate => isTrue trivial

def Event.asksSave (e : Event) (nodeId : ℕ) : Prop :=
  e = .saveParameters nodeId ∨ e = .applyAndSave nodeId []

/-! ## What an event does to the writes and saves -/

structure Asked (nodeId : ℕ) (a b : Saving) : Prop where
  pendingWrites : b.pendingWrites = a.pendingWrites
  saveAfterWrites : b.saveAfterWrites = a.saveAfterWrites
  pendingSaves : b.pendingSaves ⊆ insert nodeId a.pendingSaves
  saves : ∃ k, b.saves = a.saves ++ List.replicate k (.executeOpcode nodeId DRONECAN_PARAM_OPCODE_SAVE)

structure Unasked (a b : Saving) : Prop where
  pendingWrites : b.pendingWrites = a.pendingWrites
  saveAfterWrites : b.saveAfterWrites = a.saveAfterWrites
  pendingSaves : b.pendingSaves ⊆ a.pendingSaves
  saves : b.saves = a.saves

inductive AnswerMove (nodeId : ℕ) (name : String) (a b : Saving) : Prop
  | kept (h : b = { a with pendingWrites := a.pendingWrites.delete (nodeId, name) })
  | last (hmem : nodeId ∈ a.saveAfterWrites)
      (hnone : ∀ key w, (a.pendingWrites.delete (nodeId, name)).get key = some w → w.nodeId ≠ nodeId)
      (h : Asked nodeId
        { a with
          pendingWrites := a.pendingWrites.delete (nodeId, name)
          saveAfterWrites := a.saveAfterWrites.erase nodeId } b)

theorem saving_writeParameter (s : CanBusService) (nodeId : ℕ) (name : String)
    (value : DronecanParamValue) :
    (s.writeParameter nodeId name value).saving =
      if s.nodes.has nodeId then s.saving.writing nodeId s.nowMs [(name, value)] else s.saving := by
  simp only [writeParameter]
  split
  · next h => rw [if_neg (by rw [h]; decide)]; rfl
  · next h =>
    rw [if_pos (by simpa using h), (aside_sendWrite _ _ _ _).saving]
    rfl

theorem asked_sendSave (s : CanBusService) (nodeId : ℕ) :
    Asked nodeId s.saving (s.sendSave nodeId).saving := by
  rw [sendSave]
  obtain h | ⟨-, h⟩ := s.sendServiceCall_cases (.executeOpcode nodeId DRONECAN_PARAM_OPCODE_SAVE)
  · rw [h]
    exact ⟨rfl, rfl, Finset.subset_insert _ _, 0, by simp⟩
  · rw [h]
    exact ⟨rfl, rfl, Finset.subset_insert _ _, 1, by simp [saving, emit, Sent.isSave]⟩

theorem asked_saveParameters (s : CanBusService) (nodeId : ℕ) :
    Asked nodeId s.saving (s.saveParameters nodeId).saving := by
  simp only [saveParameters]
  split
  · exact ⟨rfl, rfl, (Finset.erase_subset _ _).trans (Finset.subset_insert _ _), 0, by simp [saving]⟩
  · have h := asked_sendSave
      { s with
        error := none
        pendingSaves := insert nodeId s.pendingSaves
        saveAttempts := s.saveAttempts.set nodeId 1
        saveAckTimers := insert nodeId s.saveAckTimers } nodeId
    refine ⟨h.pendingWrites, h.saveAfterWrites, h.pendingSaves.trans ?_, h.saves⟩
    exact Finset.insert_subset (Finset.mem_insert_self _ _) (Finset.Subset.refl _)

theorem saving_foldl_setPendingWrite (s : CanBusService) (nodeId : ℕ)
    (writes : List (String × DronecanParamValue)) :
    (writes.foldl (fun s write => s.setPendingWrite nodeId write.1 write.2) s).saving =
      s.saving.writing nodeId s.nowMs writes := by
  induction writes generalizing s with
  | nil => rfl
  | cons w rest ih => exact (ih _).trans rfl

theorem saving_applyAndSave (s : CanBusService) (nodeId : ℕ)
    {writes : List (String × DronecanParamValue)} (hwrites : writes ≠ [])
    (hnode : s.nodes.has nodeId = true) :
    (s.applyAndSave nodeId writes).saving =
      { s.saving with saveAfterWrites := insert nodeId s.saveAfterWrites }.writing nodeId s.nowMs
        writes := by
  simp only [applyAndSave, hnode, Bool.true_eq_false, if_false, if_neg hwrites]
  rw [(aside_sendWrites _ _ _).saving, saving_foldl_setPendingWrite]
  rfl

theorem asked_applyAndSave_nil (s : CanBusService) (nodeId : ℕ) :
    Asked nodeId s.saving (s.applyAndSave nodeId []).saving := by
  simp only [applyAndSave, if_true]
  split
  · exact ⟨rfl, rfl, Finset.subset_insert _ _, 0, by simp [saving]⟩
  · exact asked_saveParameters
      { s with error := none, refetchAfterSave := insert nodeId s.refetchAfterSave } nodeId

theorem saving_applyAndSave_absent (s : CanBusService) (nodeId : ℕ)
    (writes : List (String × DronecanParamValue)) (hnode : s.nodes.has nodeId = false) :
    (s.applyAndSave nodeId writes).saving = s.saving := by
  simp only [applyAndSave, hnode, if_true]
  rfl

theorem onSaveAckTimeout_moves (s : CanBusService) (nodeId : ℕ) :
    Unasked s.saving (s.onSaveAckTimeout nodeId).saving ∨
      nodeId ∈ s.pendingSaves ∧ Asked nodeId s.saving (s.onSaveAckTimeout nodeId).saving := by
  simp only [onSaveAckTimeout]
  split
  · exact .inl ⟨rfl, rfl, Finset.Subset.refl _, rfl⟩
  next hmem =>
  split
  · have h := asked_sendSave
      { s with
        saveAckTimers := s.saveAckTimers.erase nodeId
        saveAttempts := s.saveAttempts.set nodeId ((s.saveAttempts.get nodeId).getD 1 + 1) } nodeId
    exact .inr ⟨not_not.mp hmem, h.pendingWrites, h.saveAfterWrites, h.pendingSaves, h.saves⟩
  · exact .inl ⟨rfl, rfl, Finset.erase_subset _ _, rfl⟩

theorem unasked_handleExecuteOpcodeResponse (s : CanBusService) (n : ℕ) (payload : Bytes) :
    Unasked s.saving (s.handleExecuteOpcodeResponse n payload).saving := by
  simp only [handleExecuteOpcodeResponse]
  split
  · exact ⟨rfl, rfl, Finset.Subset.refl _, rfl⟩
  split
  · exact ⟨rfl, rfl, Finset.Subset.refl _, rfl⟩
  have hacked : ∀ t : CanBusService,
      Aside { s with
        pendingSaves := s.pendingSaves.erase n
        saveAttempts := s.saveAttempts.delete n
        saveAckTimers := s.saveAckTimers.erase n
        restartAfterSave := s.restartAfterSave.delete n
        refetchAfterSave := s.refetchAfterSave.erase n } t → Unasked s.saving t.saving := by
    intro t ht
    rw [ht.saving]
    exact ⟨rfl, rfl, Finset.erase_subset _ _, rfl⟩
  split
  · refine hacked _ ((aside_restartNode _ n).trans ⟨rfl, rfl, rfl⟩)
  split
  · exact hacked _ (aside_fetchAllParameters _ n)
  · exact hacked _ (.refl _)

def namedResponse (payload : Bytes) : Option (String × DronecanParamValue) :=
  (decodeDronecanGetSetResponse payload).bind fun response =>
    if response.name = "" then none else some (response.name, response.value)

variable {s : CanBusService}

theorem hasPendingWriteForNode_eq_false {nodeId : ℕ} :
    s.hasPendingWriteForNode nodeId = false ↔
      ∀ key w, s.pendingWrites.get key = some w → w.nodeId ≠ nodeId := by
  rw [hasPendingWriteForNode, List.any_eq_false]
  constructor
  · intro h key w hw
    simpa using h w (List.mem_map.mpr ⟨(key, w), JsMap.mem_entries_iff.mpr hw, rfl⟩)
  · intro h w hw
    obtain ⟨⟨key, w'⟩, he, rfl⟩ := List.mem_map.mp hw
    simpa using h key w' (JsMap.mem_entries_iff.mp he)

theorem handleGetSetResponse_moves (s : CanBusService) (n : ℕ) (payload : Bytes) :
    match namedResponse payload with
    | none => (s.handleGetSetResponse n payload).saving = s.saving
    | some (name, _) => AnswerMove n name s.saving (s.handleGetSetResponse n payload).saving := by
  simp only [namedResponse, handleGetSetResponse]
  cases decodeDronecanGetSetResponse payload with
  | none => rfl
  | some response =>
    rw [Option.bind_some]
    by_cases hname : response.name = ""
    · simp only [if_pos hname]
      rfl
    · simp only [if_neg hname]
      generalize { s.upsertNode n with nodeId := n, lastSeenAtMs := s.nowMs } = node
      have hdone : ∀ t u : CanBusService, Aside t u → AnswerMove n response.name s.saving t.saving →
          AnswerMove n response.name s.saving u.saving := by
        intro t u htu ht
        rwa [htu.saving]
      have hanswer : AnswerMove n response.name s.saving
          (if n ∈ s.saveAfterWrites ∧ hasPendingWriteForNode { s.putNode node with
              pendingWrites := s.pendingWrites.delete (n, response.name) } n = false then
            saveParameters { s.putNode node with
              pendingWrites := s.pendingWrites.delete (n, response.name)
              saveAfterWrites := s.saveAfterWrites.erase n } n
          else { s.putNode node with
            pendingWrites := s.pendingWrites.delete (n, response.name) }).saving := by
        split
        · next h =>
          exact .last h.1 (hasPendingWriteForNode_eq_false.mp h.2) (asked_saveParameters
            { s.putNode node with
              pendingWrites := s.pendingWrites.delete (n, response.name)
              saveAfterWrites := s.saveAfterWrites.erase n } n)
        · exact .kept rfl
      split
      · exact hdone _ _ (aside_putNode _ _) hanswer
      · exact hdone _ _ ((aside_putNode _ _).trans (aside_requestGetSet _ _ _)) hanswer

/-! ## The tick -/

/-- Every write in flight is kept with its value, unless it is given up, which ends the Apply & Save of
its node. -/
structure TickMove (a b : Saving) (givenUp : PendingWrite → Bool)
    (writes : Entries (ℕ × String) PendingWrite) : Prop where
  other : ∀ key, key ∉ writes.keys → b.pendingWrites.get key = a.pendingWrites.get key
  kept : ∀ key w, (key, w) ∈ writes → givenUp w = false →
    ∃ w', b.pendingWrites.get key = some w' ∧ w'.value = w.value ∧ w'.nodeId = w.nodeId
  gone : ∀ key w, (key, w) ∈ writes → givenUp w = true → b.pendingWrites.get key = none
  saveAfterWrites : ∀ n ∈ b.saveAfterWrites, n ∈ a.saveAfterWrites ∧
    ∀ key w, (key, w) ∈ writes → givenUp w = true → w.nodeId ≠ n
  pendingSaves : b.pendingSaves = a.pendingSaves
  saves : b.saves = a.saves

theorem serviceWrite_moves (s : CanBusService) (key : ℕ × String) (w : PendingWrite) :
    (s.serviceWrite key w).nowMs = s.nowMs ∧ (s.pendingWrites.get key = some w →
      TickMove s.saving (s.serviceWrite key w).saving (PendingWrite.givenUp s.nowMs) [(key, w)]) := by
  have hsingle : ∀ {k : ℕ × String} {v : PendingWrite}, (k, v) ∈ [(key, w)] → k = key ∧ v = w :=
    fun h => Prod.mk.inj (List.mem_singleton.mp h)
  have hother : ∀ {k : ℕ × String}, k ∉ Entries.keys [(key, w)] → k ≠ key :=
    fun hk h => hk (List.mem_singleton.mpr h)
  rw [serviceWrite]
  split
  · next hrecent =>
    have hnot : PendingWrite.givenUp s.nowMs w = false := by
      simp only [PendingWrite.givenUp, decide_eq_false_iff_not]
      omega
    refine ⟨rfl, fun hget => ⟨fun _ _ => rfl, ?_, ?_, fun n hn => ⟨hn, ?_⟩, rfl, rfl⟩⟩
    · rintro k v hmem -
      obtain ⟨rfl, rfl⟩ := hsingle hmem
      exact ⟨v, hget, rfl, rfl⟩
    all_goals
      intro k v hmem hv
      rw [(hsingle hmem).2, hnot] at hv
      cases hv
  next hdue =>
  split
  · next hattempts =>
    have hup : PendingWrite.givenUp s.nowMs w = true := by
      simp only [PendingWrite.givenUp, decide_eq_true_eq]
      omega
    refine ⟨rfl, fun hget => ⟨fun k hk => ?_, ?_, ?_, fun n hn => ?_, rfl, rfl⟩⟩
    · exact (JsMap.get_delete _ _ _).trans (if_neg (hother hk))
    · intro k v hmem hv
      rw [(hsingle hmem).2, hup] at hv
      cases hv
    · intro k v hmem _
      obtain ⟨rfl, rfl⟩ := hsingle hmem
      exact (JsMap.get_delete _ _ _).trans (if_pos rfl)
    · obtain ⟨hne, hmem⟩ := Finset.mem_erase.mp hn
      refine ⟨hmem, fun k v hkv _ => ?_⟩
      rw [(hsingle hkv).2]
      exact hne.symm
  · next hattempts =>
    have hnot : PendingWrite.givenUp s.nowMs w = false := by
      simp only [PendingWrite.givenUp, decide_eq_false_iff_not]
      omega
    refine ⟨?_, fun hget => ?_⟩
    · obtain h | ⟨-, h⟩ := sendServiceCall_cases _ (.getSet w.nodeId 0 w.value w.paramName)
      · rw [sendWrite, h]
      · rw [sendWrite, h]
        rfl
    rw [(aside_sendWrite _ _ _ _).saving]
    refine ⟨fun k hk => ?_, ?_, ?_, fun n hn => ⟨hn, ?_⟩, rfl, rfl⟩
    · exact (JsMap.get_set _ _ _ _).trans (if_neg (hother hk))
    · rintro k v hmem -
      obtain ⟨rfl, rfl⟩ := hsingle hmem
      exact ⟨_, (JsMap.get_set _ _ _ _).trans (if_pos rfl), rfl, rfl⟩
    all_goals
      intro k v hmem hv
      rw [(hsingle hmem).2, hnot] at hv
      cases hv

theorem foldl_serviceWrite_moves (s : CanBusService) (writes : Entries (ℕ × String) PendingWrite)
    (hnodup : writes.keys.Nodup) (hget : ∀ key w, (key, w) ∈ writes → s.pendingWrites.get key = some w) :
    TickMove s.saving (writes.foldl (fun s (key, write) => s.serviceWrite key write) s).saving
      (PendingWrite.givenUp s.nowMs) writes := by
  induction writes generalizing s with
  | nil => exact ⟨fun _ _ => rfl, nofun, nofun, fun n hn => ⟨hn, nofun⟩, rfl, rfl⟩
  | cons e writes ih =>
    obtain ⟨key, w⟩ := e
    obtain ⟨hfresh, hnodup⟩ := List.nodup_cons.mp hnodup
    obtain ⟨hnow, hmove⟩ := s.serviceWrite_moves key w
    have hmove := hmove (hget key w (List.mem_cons_self ..))
    have hne : ∀ {k v}, (k, v) ∈ writes → k ≠ key := by
      rintro k v hmem rfl
      exact hfresh (List.mem_map.mpr ⟨_, hmem, rfl⟩)
    have hrest := ih (s.serviceWrite key w) hnodup fun k v hmem =>
      (hmove.other k fun h => hne hmem (List.mem_singleton.mp h)).trans
        (hget k v (List.mem_cons_of_mem _ hmem))
    rw [hnow] at hrest
    refine ⟨fun k hk => ?_, fun k v hmem hv => ?_, fun k v hmem hv => ?_, fun n hn => ?_,
      hrest.pendingSaves.trans hmove.pendingSaves, hrest.saves.trans hmove.saves⟩
    · obtain ⟨hkey, hk⟩ := not_or.mp fun h => hk (List.mem_cons.mpr h)
      exact (hrest.other k hk).trans (hmove.other k fun h => hkey (List.mem_singleton.mp h))
    · obtain heq | hmem := List.mem_cons.mp hmem
      · obtain ⟨rfl, rfl⟩ := Prod.mk.inj heq
        have := hmove.kept k v (List.mem_singleton_self _) hv
        rwa [← hrest.other k hfresh] at this
      · exact hrest.kept k v hmem hv
    · obtain heq | hmem := List.mem_cons.mp hmem
      · obtain ⟨rfl, rfl⟩ := Prod.mk.inj heq
        exact (hrest.other k hfresh).trans (hmove.gone k v (List.mem_singleton_self _) hv)
      · exact hrest.gone k v hmem hv
    · obtain ⟨hn, hlater⟩ := hrest.saveAfterWrites n hn
      obtain ⟨hn, hfirst⟩ := hmove.saveAfterWrites n hn
      refine ⟨hn, fun k v hmem hv => ?_⟩
      obtain heq | hmem := List.mem_cons.mp hmem
      · exact hfirst k v (heq ▸ List.mem_singleton_self _) hv
      · exact hlater k v hmem hv

theorem nowMs_sendServiceCall (s : CanBusService) (c : Sent) :
    (s.sendServiceCall c).nowMs = s.nowMs := by
  obtain h | ⟨-, h⟩ := s.sendServiceCall_cases c <;> rw [h]
  rfl

theorem nowMs_keepForwarding (s : CanBusService) : s.keepForwarding.nowMs = s.nowMs := by
  rw [keepForwarding]
  split
  · rfl
  · split <;> rfl

theorem nowMs_serviceFirmwareUpdate (s : CanBusService) :
    s.serviceFirmwareUpdate.nowMs = s.nowMs := by
  rw [serviceFirmwareUpdate]
  split
  · rfl
  split
  · rfl
  split
  · split
    · rfl
    split
    · exact nowMs_sendServiceCall _ _
    · rfl
  · split <;> rfl

theorem tick_writes (s : CanBusService) (hactive : s.status = .active) :
    TickMove s.saving s.tick.saving (PendingWrite.givenUp s.nowMs) s.pendingWrites.entries := by
  have hsaving : s.keepForwarding.serviceFirmwareUpdate.saving = s.saving :=
    (onlyServing_serviceFirmwareUpdate _).saving.trans s.aside_keepForwarding.saving
  have hnow : s.keepForwarding.serviceFirmwareUpdate.nowMs = s.nowMs :=
    (nowMs_serviceFirmwareUpdate _).trans s.nowMs_keepForwarding
  have hwrites : s.keepForwarding.serviceFirmwareUpdate.pendingWrites = s.pendingWrites :=
    congrArg Saving.pendingWrites hsaving
  simp only [tick, hactive, ne_eq, not_true_eq_false, if_false]
  rw [(aside_foldl_serviceNode _ _).saving]
  have hmoves := foldl_serviceWrite_moves s.keepForwarding.serviceFirmwareUpdate
    s.pendingWrites.entries s.pendingWrites.nodup fun key w hmem => by
      rw [hwrites]
      exact JsMap.mem_entries_iff.mp hmem
  rw [hsaving, hnow] at hmoves
  rw [hwrites]
  exact hmoves

/-! ## What one event does -/

inductive SaveMove (s : CanBusService) (l : Ledger) (e : Event) (t : CanBusService) : Prop
  | quiet (h : Unasked s.saving t.saving) (hl : s.ledgerAfter l e = l)
  | cleared (h : t.saving = ⟨JsMap.empty, ∅, ∅, s.saving.saves⟩)
      (hl : s.ledgerAfter l e = Ledger.empty)
  | wrote (nodeId : ℕ) (name : String) (value : DronecanParamValue)
      (h : t.saving = s.saving.writing nodeId s.nowMs [(name, value)])
      (hl : s.ledgerAfter l e =
        if (l nodeId name).isSome then l.put nodeId name ⟨value, .waiting⟩ else l)
  | staged (nodeId : ℕ) (writes : List (String × DronecanParamValue))
      (h : t.saving =
        { s.saving with saveAfterWrites := insert nodeId s.saveAfterWrites }.writing nodeId s.nowMs
          writes)
      (hl : s.ledgerAfter l e = l.stage nodeId writes)
  | asked (nodeId : ℕ) (he : e.asksSave nodeId) (h : Asked nodeId s.saving t.saving)
      (hl : s.ledgerAfter l e = l ∨ s.ledgerAfter l e = l.stage nodeId [])
  | retried (nodeId : ℕ) (he : e = .saveAckTimeout nodeId) (hmem : nodeId ∈ s.pendingSaves)
      (h : Asked nodeId s.saving t.saving) (hl : s.ledgerAfter l e = l)
  | answered (message : CanFrameMessage) (nodeId : ℕ) (name : String) (value : DronecanParamValue)
      (he : e = .frame message) (hanswered : s.answered message = some (nodeId, name, value))
      (h : AnswerMove nodeId name s.saving t.saving)
      (hl : s.ledgerAfter l e = l.answer nodeId name value)
  | ticked (h : TickMove s.saving t.saving (PendingWrite.givenUp s.nowMs) s.pendingWrites.entries)
      (hl : s.ledgerAfter l e = l.giveUp s.givenUp)

theorem Unasked.of_eq {a b : Saving} (h : b = a) : Unasked a b := by
  subst h
  exact ⟨rfl, rfl, Finset.Subset.refl _, rfl⟩

variable {t : CanBusService}

theorem Unasked.of_aside (h : Aside s t) : Unasked s.saving t.saving :=
  .of_eq h.saving

/-- A named response moves the writes on; any other frame asks for no SAVE. -/
inductive FrameAnswer (s : CanBusService) (message : CanFrameMessage) (t : CanBusService) : Prop
  | unanswered (hanswered : s.answered message = none) (h : Unasked s.saving t.saving)
  | answered (nodeId : ℕ) (name : String) (value : DronecanParamValue)
      (hanswered : s.answered message = some (nodeId, name, value))
      (h : AnswerMove nodeId name s.saving t.saving)

theorem frame_answer (s : CanBusService) (message : CanFrameMessage) :
    FrameAnswer s message (s.processCanFrame message) := by
  have hmoves := frame_moves s message
  generalize s.processCanFrame message = t at hmoves
  have hunanswered : s.finished message = none → s.answered message = none :=
    fun h => by rw [answered, h]; rfl
  have hquiet : ∀ t : CanBusService, Unasked s.saving t.saving → s.answered message = none →
      FrameAnswer s message t := fun _ ht hnone => .unanswered hnone ht
  cases hmoves with
  | ignored h => exact hquiet _ (.of_eq rfl) (hunanswered h)
  | request h _ =>
    exact hquiet _ (.of_eq (s.onlyAllocating_handleAllocationRequest _).saving) (hunanswered h)
  | other n h => exact hquiet _ (.of_aside (s.aside_noteOtherAllocator n)) (hunanswered h)
  | piece r h => exact hquiet _ (.of_eq rfl) (hunanswered h)
  | transfer r f _ hfinished =>
    have hanswered : s.answered message =
        if f.context.isService = true ∧ f.context.isRequest ≠ some true ∧
            f.context.typeId = DRONECAN_PARAM_GETSET_SERVICE_ID then
          (namedResponse f.payload).map fun response =>
            (f.context.sourceNodeId, response.1, response.2)
        else none := by
      rw [answered, hfinished, Option.bind_some, namedResponse]
      split
      · cases decodeDronecanGetSetResponse f.payload with
        | none => rfl
        | some response =>
          rw [Option.bind_some, Option.bind_some]
          split <;> rfl
      · rfl
    rw [handleTransfer]
    split
    · next hmessage =>
      have hnone : s.answered message = none := by rw [hanswered, if_neg (by simp [hmessage])]
      split
      · exact hquiet _ (.of_eq (aside_handleNodeStatus _ _ _).saving) hnone
      · exact hquiet _ (.of_eq rfl) hnone
    next hservice =>
    split
    · next hrequest =>
      have hnone : s.answered message = none := by rw [hanswered, if_neg (by simp [hrequest])]
      split
      · exact hquiet _ (.of_eq (onlyServing_handleFileReadRequest _ _ _ _).saving) hnone
      · exact hquiet _ (.of_eq rfl) hnone
    next hresponse =>
    split
    · next htype =>
      exact hquiet _ (.of_eq (aside_handleGetNodeInfoResponse _ _ _).saving)
        (by rw [hanswered, if_neg fun h => absurd (htype.symm.trans h.2.2) (by decide)])
    split
    · next htype =>
      have hmove := handleGetSetResponse_moves { s with reassembler := r } f.context.sourceNodeId
        f.payload
      rw [if_pos ⟨by simpa using hservice, hresponse, htype⟩] at hanswered
      cases hnamed : namedResponse f.payload with
      | none =>
        rw [hnamed] at hmove hanswered
        exact hquiet _ (.of_eq hmove) hanswered
      | some response =>
        rw [hnamed] at hmove hanswered
        exact .answered _ _ _ hanswered hmove
    next hget =>
    have hnone : s.answered message = none := by rw [hanswered, if_neg (by simp [hget])]
    split
    · exact hquiet _ (unasked_handleExecuteOpcodeResponse { s with reassembler := r } _ _) hnone
    split
    · exact hquiet _ (.of_eq (onlyServing_handleBeginFirmwareUpdateResponse _ _ _).saving) hnone
    · exact hquiet _ (.of_eq rfl) hnone

theorem frame_saves (s : CanBusService) (l : Ledger) (message : CanFrameMessage) :
    SaveMove s l (.frame message) (s.processCanFrame message) := by
  cases s.frame_answer message with
  | unanswered hanswered h => exact .quiet h (by simp only [ledgerAfter, hanswered])
  | answered nodeId name value hanswered h =>
    exact .answered message nodeId name value rfl hanswered h (by simp only [ledgerAfter, hanswered])

variable {e : Event}

theorem save_moves (h : step s e = some t) (l : Ledger) :
    SaveMove s l e t := by
  cases e with
  | frame message =>
    cases h
    exact frame_saves s l message
  | tick =>
    cases h
    by_cases hactive : s.status = .active
    · exact .ticked (s.tick_writes hactive) (if_pos hactive)
    · have htick : s.tick = s := by rw [tick, if_pos hactive]
      rw [htick]
      exact .quiet (.of_eq rfl) (if_neg hactive)
  | saveAckTimeout nodeId =>
    rw [step] at h
    split at h
    · cases h
      obtain hquiet | ⟨hmem, hasked⟩ := s.onSaveAckTimeout_moves nodeId
      · exact .quiet hquiet rfl
      · exact .retried nodeId rfl hmem hasked rfl
    · cases h
  | settle i failure =>
    rw [step, Option.map_eq_some_iff] at h
    obtain ⟨call, hcall, rfl⟩ := h
    cases call with
    | stop next =>
      have hl : s.ledgerAfter l (.settle i failure) = Ledger.empty := by simp only [ledgerAfter, hcall]
      refine .cleared ?_ hl
      cases next with
      | none => rfl
      | some bus => exact (aside_requestForward _ bus).saving.trans rfl
    | forward bus =>
      refine .quiet (.of_eq ?_) (by simp only [ledgerAfter, hcall])
      simp only [settle]
      split <;> rfl
    | writes nodeId rest =>
      exact .quiet (.of_eq ((aside_sendWrites _ nodeId rest).saving.trans rfl))
        (by simp only [ledgerAfter, hcall])
    | restart nodeId newNodeId =>
      refine .quiet (.of_eq ?_) (by simp only [ledgerAfter, hcall])
      simp only [settle]
      split <;> rfl
  | reset =>
    cases h
    exact .cleared rfl rfl
  | writeParameter nodeId name value =>
    cases h
    have hsaving := s.saving_writeParameter nodeId name value
    by_cases hnode : s.nodes.has nodeId = true
    · rw [if_pos hnode] at hsaving
      exact .wrote nodeId name value hsaving (by simp [ledgerAfter, hnode])
    · rw [if_neg hnode] at hsaving
      exact .quiet (.of_eq hsaving) (by simp [ledgerAfter, hnode])
  | applyAndSave nodeId writes =>
    cases h
    by_cases hwrites : writes = []
    · subst hwrites
      refine .asked nodeId (.inr rfl) (s.asked_applyAndSave_nil nodeId) ?_
      simp only [ledgerAfter]
      split
      · exact .inr rfl
      · exact .inl rfl
    by_cases hnode : s.nodes.has nodeId = true
    · exact .staged nodeId writes (s.saving_applyAndSave nodeId hwrites hnode) (if_pos hnode)
    · exact .quiet (.of_eq (s.saving_applyAndSave_absent nodeId writes (by simpa using hnode)))
        (if_neg hnode)
  | changeNodeId nodeId newNodeId =>
    cases h
    cases hreason : s.changeNodeIdReason nodeId newNodeId with
    | some reason =>
      refine .quiet (.of_eq ?_) (by simp [ledgerAfter, hreason])
      simp only [changeNodeId, hreason]
      rfl
    | none =>
      have hnode : s.nodes.has nodeId = true := by
        rw [changeNodeIdReason] at hreason
        split at hreason
        · cases hreason
        · next hget => rw [JsMap.has, hget]; rfl
      refine .staged nodeId [(CAN_NODE_PARAM, .int64 newNodeId)] ?_ (by simp [ledgerAfter, hreason])
      simp only [changeNodeId, hreason]
      exact saving_applyAndSave { s with
        restartAfterSave := s.restartAfterSave.set nodeId newNodeId.toNat } nodeId
        (List.cons_ne_nil _ _) hnode
  | saveParameters nodeId =>
    cases h
    exact .asked nodeId (.inl rfl) (s.asked_saveParameters nodeId) (.inl rfl)
  | clock | forgetAllocations =>
    cases h
    exact .quiet (.of_eq rfl) rfl
  | setAllocatorEnabled enabled seed =>
    cases h
    exact .quiet (.of_eq (s.onlyAllocating_setAllocatorEnabled enabled seed).saving) rfl
  | start bus =>
    cases h
    exact .quiet (.of_aside (s.aside_start bus)) rfl
  | stop =>
    cases h
    exact .quiet (.of_aside s.aside_stop) rfl
  | refreshNode nodeId =>
    cases h
    exact .quiet (.of_aside (s.aside_refreshNode nodeId)) rfl
  | restartNode nodeId =>
    cases h
    exact .quiet (.of_aside (s.aside_restartNode nodeId)) rfl
  | fetchAllParameters nodeId =>
    cases h
    exact .quiet (.of_aside (s.aside_fetchAllParameters nodeId)) rfl
  | startFirmwareUpdate nodeId fileName image =>
    cases h
    exact .quiet (.of_eq (s.onlyServing_startFirmwareUpdate nodeId fileName image).saving) rfl
  | cancelFirmwareUpdate =>
    cases h
    exact .quiet (.of_eq s.onlyServing_cancelFirmwareUpdate.saving) rfl

/-! ## The writes that wait are in flight -/

/-- A staged write that waits is in flight with its value, and none has failed on a node whose SAVE is
to follow. -/
structure SaveInv (a : Saving) (l : Ledger) : Prop where
  keyed : ∀ key w, a.pendingWrites.get key = some w → w.nodeId = key.1
  waiting : ∀ n name v, l n name = some ⟨v, .waiting⟩ →
    ∃ w, a.pendingWrites.get (n, name) = some w ∧ w.value = v
  failed : ∀ n ∈ a.saveAfterWrites, ∀ name v, l n name ≠ some ⟨v, .failed⟩

variable {a b : Saving} {l : Ledger} {nodeId : ℕ}

theorem SaveInv.empty (saves : List Sent) : SaveInv ⟨JsMap.empty, ∅, ∅, saves⟩ Ledger.empty :=
  ⟨nofun, nofun, fun _ h => absurd h (Finset.notMem_empty _)⟩

theorem SaveInv.congr (h : SaveInv a l) (hwrites : b.pendingWrites = a.pendingWrites)
    (hafter : b.saveAfterWrites ⊆ a.saveAfterWrites) : SaveInv b l :=
  ⟨hwrites ▸ h.keyed, hwrites ▸ h.waiting, fun n hn => h.failed n (hafter hn)⟩

theorem SaveInv.write (h : SaveInv a l) (nodeId nowMs : ℕ) (name : String)
    (value : DronecanParamValue) {l' : Ledger}
    (hother : ∀ n m, (n, m) ≠ (nodeId, name) → l' n m = l n m)
    (hself : ∀ w, l' nodeId name = some w → w = ⟨value, .waiting⟩) :
    SaveInv (a.writing nodeId nowMs [(name, value)]) l' := by
  have hget : ∀ key, (a.writing nodeId nowMs [(name, value)]).pendingWrites.get key =
      if key = (nodeId, name) then some ⟨nodeId, name, value, 1, nowMs⟩ else a.pendingWrites.get key :=
    fun key => JsMap.get_set _ _ _ _
  refine ⟨fun key w hw => ?_, fun n m v hv => ?_, fun n hn m v hv => ?_⟩
  · rw [hget] at hw
    split at hw
    · next hkey =>
      cases hw
      rw [hkey]
    · exact h.keyed key w hw
  · by_cases hkey : (n, m) = (nodeId, name)
    · obtain ⟨rfl, rfl⟩ := Prod.mk.inj hkey
      cases hself _ hv
      exact ⟨_, (hget _).trans (if_pos rfl), rfl⟩
    · rw [hother n m hkey] at hv
      obtain ⟨w, hw, hwv⟩ := h.waiting n m v hv
      exact ⟨w, (hget _).trans ((if_neg hkey).trans hw), hwv⟩
  · by_cases hkey : (n, m) = (nodeId, name)
    · obtain ⟨rfl, rfl⟩ := Prod.mk.inj hkey
      cases hself _ hv
    · rw [hother n m hkey] at hv
      exact h.failed n hn m v hv

theorem SaveInv.put (h : SaveInv a l) (nodeId nowMs : ℕ) (name : String)
    (value : DronecanParamValue) :
    SaveInv (a.writing nodeId nowMs [(name, value)]) (l.put nodeId name ⟨value, .waiting⟩) :=
  h.write nodeId nowMs name value (fun _ _ hne => l.put_of_ne _ hne) fun w hw => by
    rw [l.put_self] at hw
    exact (Option.some.inj hw).symm

theorem SaveInv.stage_nil (h : SaveInv a l) (nodeId : ℕ) :
    SaveInv { a with saveAfterWrites := insert nodeId a.saveAfterWrites } (l.stage nodeId []) := by
  refine ⟨h.keyed, fun n m v hv => h.waiting n m v (l.stage_nil_eq_some hv).1, fun n hn m v hv => ?_⟩
  obtain ⟨hv, hstatus⟩ := l.stage_nil_eq_some hv
  obtain hn | hn := Finset.mem_insert.mp hn
  · cases hstatus hn
  · exact h.failed n hn m v hv

theorem SaveInv.foldl_put (h : SaveInv a l) (nodeId nowMs : ℕ)
    (writes : List (String × DronecanParamValue)) :
    SaveInv (a.writing nodeId nowMs writes)
      (writes.foldl (fun l write => l.put nodeId write.1 ⟨write.2, .waiting⟩) l) := by
  induction writes generalizing a l with
  | nil => exact h
  | cons write writes ih => exact ih (h.put nodeId nowMs write.1 write.2)

theorem SaveInv.stage (h : SaveInv a l) (nodeId nowMs : ℕ)
    (writes : List (String × DronecanParamValue)) :
    SaveInv ({ a with saveAfterWrites := insert nodeId a.saveAfterWrites }.writing nodeId nowMs writes)
      (l.stage nodeId writes) :=
  (h.stage_nil nodeId).foldl_put nodeId nowMs writes

variable {name : String} {value : DronecanParamValue}

theorem SaveInv.answer (h : SaveInv a l)
    (hechoes : ∀ w, l nodeId name = some w → w.status = .waiting → Echoes w.value value) :
    SaveInv { a with pendingWrites := a.pendingWrites.delete (nodeId, name) }
      (l.answer nodeId name value) := by
  have hget : ∀ key, (a.pendingWrites.delete (nodeId, name)).get key =
      if key = (nodeId, name) then none else a.pendingWrites.get key :=
    fun key => JsMap.get_delete _ _ _
  refine ⟨fun key w hw => ?_, fun n m v hv => ?_, fun n hn m v hv => ?_⟩
  · rw [hget] at hw
    split at hw
    · cases hw
    · exact h.keyed key w hw
  · obtain ⟨hv, hfailed⟩ := l.answer_eq_some hechoes hv (by simp)
    have hkey : (n, m) ≠ (nodeId, name) := fun heq => by cases hfailed heq
    obtain ⟨w, hw, hwv⟩ := h.waiting n m v hv
    exact ⟨w, (hget _).trans ((if_neg hkey).trans hw), hwv⟩
  · exact h.failed n hn m v (l.answer_eq_some hechoes hv (by simp)).1

theorem SaveInv.giveUp (h : SaveInv s.saving l)
    (hmove : TickMove s.saving t.saving (PendingWrite.givenUp s.nowMs) s.pendingWrites.entries) :
    SaveInv t.saving (l.giveUp s.givenUp) := by
  have hkeep : ∀ {key w}, s.pendingWrites.get key = some w → s.givenUp key = false →
      ∃ w', t.pendingWrites.get key = some w' ∧ w'.value = w.value ∧ w'.nodeId = w.nodeId := by
    intro key w hw hup
    rw [givenUp, hw, Option.any_some] at hup
    exact hmove.kept key w (JsMap.mem_entries_iff.mpr hw) hup
  refine ⟨fun key w' hw' => ?_, fun n m v hv => ?_, fun n hn m v hv => ?_⟩
  · cases hw : s.pendingWrites.get key with
    | none =>
      rw [hmove.other key (JsMap.get_eq_none_iff.mp hw), show s.saving.pendingWrites.get key = none
        from hw] at hw'
      cases hw'
    | some w =>
      have hmem := JsMap.mem_entries_iff.mpr hw
      cases hup : PendingWrite.givenUp s.nowMs w with
      | true =>
        rw [hmove.gone key w hmem hup] at hw'
        cases hw'
      | false =>
        obtain ⟨w'', hw'', -, hnode⟩ := hmove.kept key w hmem hup
        obtain rfl := Option.some.inj (hw'.symm.trans hw'')
        rw [hnode]
        exact h.keyed key w hw
  · obtain ⟨w, hw, hgiven⟩ := Option.map_eq_some_iff.mp hv
    split at hgiven
    · cases hgiven
    · next hnot =>
      subst hgiven
      obtain ⟨p, hp, hpv⟩ := h.waiting n m v hw
      obtain ⟨p', hp', hpv', -⟩ := hkeep hp (by simpa using hnot)
      exact ⟨p', hp', hpv'.trans hpv⟩
  · obtain ⟨hn, hnone⟩ := hmove.saveAfterWrites n hn
    obtain ⟨w, hw, hgiven⟩ := Option.map_eq_some_iff.mp hv
    split at hgiven
    · next hup =>
      obtain ⟨p, hp, hup⟩ := (Option.any_eq_true _ _).mp hup.2
      exact hnone (n, m) p (JsMap.mem_entries_iff.mpr hp) hup (h.keyed (n, m) p hp)
    · subst hgiven
      exact h.failed n hn m v hw

theorem echoes_of_echoesStaged {message : CanFrameMessage}
    (h : EchoesStaged (s, l) (.frame message))
    (hanswered : s.answered message = some (nodeId, name, value)) (w : StagedWrite)
    (hw : l nodeId name = some w) (hwaiting : w.status = .waiting) : Echoes w.value value := by
  simp only [EchoesStaged, hanswered, Option.all_some, hw, hwaiting] at h
  simpa using h

theorem saveInv_step {p q : CanBusService × Ledger} (h : SaveInv p.1.saving p.2)
    (hechoes : EchoesStaged p e) (hstep : stepLedger p e = some q) : SaveInv q.1.saving q.2 := by
  obtain ⟨s, l⟩ := p
  obtain ⟨t, ht, rfl⟩ := Option.map_eq_some_iff.mp hstep
  simp only
  cases save_moves ht l with
  | quiet hsame hl =>
    rw [hl]
    exact h.congr hsame.pendingWrites hsame.saveAfterWrites.subset
  | cleared hclear hl =>
    rw [hl, hclear]
    exact SaveInv.empty _
  | wrote nodeId name value hsaving hl =>
    rw [hl, hsaving]
    split
    · exact h.put nodeId s.nowMs name value
    · next hnone =>
      refine h.write nodeId s.nowMs name value (fun _ _ _ => rfl) fun w hw => ?_
      exact absurd (by rw [hw]; rfl) hnone
  | staged nodeId writes hsaving hl =>
    rw [hl, hsaving]
    exact h.stage nodeId s.nowMs writes
  | asked nodeId _ hasked hl =>
    refine SaveInv.congr ?_ hasked.pendingWrites hasked.saveAfterWrites.subset
    obtain hl | hl := hl
    · rwa [hl]
    · rw [hl]
      exact ⟨h.keyed, (h.stage_nil nodeId).waiting, fun n hn =>
        (h.stage_nil nodeId).failed n (Finset.mem_insert_of_mem hn)⟩
  | retried nodeId _ _ hasked hl =>
    rw [hl]
    exact h.congr hasked.pendingWrites hasked.saveAfterWrites.subset
  | answered message nodeId name value he hanswered hmove hl =>
    subst he
    have hinv := h.answer (echoes_of_echoesStaged hechoes hanswered)
    rw [hl]
    cases hmove with
    | kept hsaving =>
      rw [hsaving]
      exact hinv
    | last hmem hnone hasked =>
      exact hinv.congr hasked.pendingWrites
        (hasked.saveAfterWrites.subset.trans (Finset.erase_subset _ _))
  | ticked hmove hl =>
    rw [hl]
    exact h.giveUp hmove

/-! ## The SAVE -/

theorem SaveInv.allEchoed (h : SaveInv a l) (hmem : nodeId ∈ a.saveAfterWrites)
    (hnone : ∀ key w, a.pendingWrites.get key = some w → w.nodeId ≠ nodeId) : l.AllEchoed nodeId := by
  intro name w hw
  obtain ⟨v, status⟩ := w
  cases status with
  | waiting =>
    obtain ⟨p, hp, -⟩ := h.waiting nodeId name v hw
    exact absurd (h.keyed _ p hp) (hnone _ p hp)
  | echoed => rfl
  | failed => exact absurd hw (h.failed nodeId hmem name v)

def SaveDue (s : CanBusService) (e : Event) (l' : Ledger) (nodeId : ℕ) : Prop :=
  e.asksSave nodeId ∨ (e = .saveAckTimeout nodeId ∧ nodeId ∈ s.pendingSaves) ∨ l'.AllEchoed nodeId

def Sends (s t : CanBusService) (c : Sent) : Prop := ∃ new, t.sent = s.sent ++ new ∧ c ∈ new

variable {n opcode : ℕ}

theorem sends_save (h : Sends s t (.executeOpcode n opcode)) :
    ∃ new, t.saving.saves = s.saving.saves ++ new ∧ .executeOpcode n opcode ∈ new := by
  obtain ⟨new, hsent, hmem⟩ := h
  refine ⟨new.filter Sent.isSave, ?_, List.mem_filter.mpr ⟨hmem, rfl⟩⟩
  rw [saving, hsent, List.filter_append]
  rfl

theorem Asked.eq_of_sends (h : Asked nodeId a t.saving) (ha : a.saves = s.saving.saves)
    (hsends : Sends s t (.executeOpcode n opcode)) : n = nodeId := by
  obtain ⟨new, hsaves, hmem⟩ := sends_save hsends
  obtain ⟨k, hk⟩ := h.saves
  rw [hsaves, ha] at hk
  rw [List.append_cancel_left hk] at hmem
  exact (Sent.executeOpcode.inj (List.eq_of_mem_replicate hmem)).1

theorem not_sends_save (h : t.saving.saves = s.saving.saves) :
    ¬ Sends s t (.executeOpcode n opcode) := by
  intro hsends
  obtain ⟨new, hsaves, hmem⟩ := sends_save hsends
  rw [h] at hsaves
  rw [List.self_eq_append_right.mp hsaves] at hmem
  cases hmem

theorem save_step (h : SaveInv s.saving l) (hechoes : EchoesStaged (s, l) e)
    (hstep : step s e = some t) (n : ℕ) :
    (∀ opcode, Sends s t (.executeOpcode n opcode) → SaveDue s e (s.ledgerAfter l e) n) ∧
      (n ∈ t.pendingSaves → n ∈ s.pendingSaves ∨ SaveDue s e (s.ledgerAfter l e) n) := by
  have hquiet : t.saving.saves = s.saving.saves → t.pendingSaves ⊆ s.pendingSaves →
      (∀ opcode, Sends s t (.executeOpcode n opcode) → SaveDue s e (s.ledgerAfter l e) n) ∧
        (n ∈ t.pendingSaves → n ∈ s.pendingSaves ∨ SaveDue s e (s.ledgerAfter l e) n) :=
    fun hsaves hpending => ⟨fun _ h => absurd h (not_sends_save hsaves), fun hn => .inl (hpending hn)⟩
  have hasks : ∀ {nodeId a}, Asked nodeId a t.saving → a.saves = s.saving.saves →
      a.pendingSaves = s.pendingSaves → SaveDue s e (s.ledgerAfter l e) nodeId →
      (∀ opcode, Sends s t (.executeOpcode n opcode) → SaveDue s e (s.ledgerAfter l e) n) ∧
        (n ∈ t.pendingSaves → n ∈ s.pendingSaves ∨ SaveDue s e (s.ledgerAfter l e) n) := by
    intro nodeId a hasked hsaves hpending hdue
    refine ⟨fun opcode hsends => hasked.eq_of_sends hsaves hsends ▸ hdue, fun hn => ?_⟩
    obtain rfl | hn := Finset.mem_insert.mp (hasked.pendingSaves hn)
    · exact .inr hdue
    · exact .inl (hpending ▸ hn)
  cases save_moves hstep l with
  | quiet hsame _ => exact hquiet hsame.saves hsame.pendingSaves
  | cleared hclear _ =>
    refine hquiet (by rw [hclear]) ?_
    rw [show t.pendingSaves = ∅ from congrArg Saving.pendingSaves hclear]
    exact Finset.empty_subset _
  | wrote nodeId name value hsaving _ =>
    exact hquiet (by rw [hsaving]; rfl) (congrArg Saving.pendingSaves hsaving).subset
  | staged nodeId writes hsaving _ =>
    exact hquiet (by rw [hsaving]; rfl) (congrArg Saving.pendingSaves hsaving).subset
  | asked nodeId he hasked _ => exact hasks hasked rfl rfl (.inl he)
  | retried nodeId he hmem hasked _ => exact hasks hasked rfl rfl (.inr (.inl ⟨he, hmem⟩))
  | answered message nodeId name value he hanswered hmove hl =>
    cases hmove with
    | kept hsaving =>
      exact hquiet (by rw [hsaving]) (congrArg Saving.pendingSaves hsaving).subset
    | last hmem hnone hasked =>
      subst he
      have hinv := h.answer (echoes_of_echoesStaged hechoes hanswered)
      refine hasks hasked rfl rfl (.inr (.inr ?_))
      rw [hl]
      exact hinv.allEchoed hmem hnone
  | ticked hmove _ => exact hquiet hmove.saves hmove.pendingSaves.subset

def valueFrame (value : UInt8) : CanFrameMessage where
  len := 7
  id := CAN_FRAME_FLAG_EFF + (DRONECAN_PARAM_GETSET_SERVICE_ID <<< 16) + (GCS_DRONECAN_NODE_ID <<< 8)
    + 0x80 + 50
  data := [3, value, 0, 0, 0, 80, 0xc0]

/-- The bus is started, a node shows up, its list of parameters is asked for, and a write of P is
staged. -/
def writeStaged : List Event :=
  [.start 1, .settle 0 none, .frame nodeStatusFrame, .applyAndSave 50 [("P", .bool true)]]

def savesWith (answer : CanFrameMessage) (status : StagedStatus) : Bool :=
  (run stepLedger (initial 0, Ledger.empty) writeStaged).any fun p =>
    (stepLedger p (.frame answer)).any fun q =>
      decide (q.1.sent = p.1.sent ++ [.executeOpcode 50 DRONECAN_PARAM_OPCODE_SAVE,
        .getSet 50 1 .empty ""]) && decide (q.2 50 "P" = some ⟨.bool true, status⟩)

theorem exists_of_savesWith (answer : CanFrameMessage) (status : StagedStatus)
    (h : savesWith answer status = true) :
    ∃ s l t l', run stepLedger (initial 0, Ledger.empty) writeStaged = some (s, l) ∧
      stepLedger (s, l) (.frame answer) = some (t, l') ∧
      Sends s t (.executeOpcode 50 DRONECAN_PARAM_OPCODE_SAVE) ∧
      l' 50 "P" = some ⟨.bool true, status⟩ := by
  obtain ⟨⟨s, l⟩, hrun, h⟩ := (Option.any_eq_true _ _).mp h
  obtain ⟨⟨t, l'⟩, hstep, h⟩ := (Option.any_eq_true _ _).mp h
  simp only [Bool.and_eq_true, decide_eq_true_eq] at h
  exact ⟨s, l, t, l', hrun, hstep, ⟨_, h.1, List.mem_cons_self ..⟩, h.2⟩

end CanBusService
end ArduConfigurator.CanBus
