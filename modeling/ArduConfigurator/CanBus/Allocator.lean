import ArduConfigurator.CanBus.Frames

/-! # Node id allocation

A unique id that the table or the bus knows keeps the node id it has. For any other the allocator
chooses one that nobody holds. `chosen` follows a run and collects the unique ids it has chosen for. -/
namespace ArduConfigurator.CanBus.CanBusService
open Runs
set_option autoImplicit false

/-! ## Requests -/

def completedRequest (s : CanBusService) (frameData : Bytes) : Option (Bytes × ℕ) :=
  if frameData.length < 2 ∨ (frameData.getLastD 0) &&& 0xc0 ≠ 0xc0 then none
  else
    (decodeDronecanAllocation frameData.dropLast).bind fun request =>
      s.liveQuery.bind fun query =>
        if request.firstPartOfUniqueId = false ∧ request.uniqueId.length = 4 ∧
            query.bytes.length = 12 then
          some (query.bytes ++ request.uniqueId, request.nodeId)
        else none

def finalRequest (s : CanBusService) : Event → Option (Bytes × ℕ)
  | .frame message => if s.asksForId message then s.completedRequest message.payload else none
  | _ => none

def chosenAfter (s : CanBusService) (chosen : Finset String) (e : Event) : Finset String :=
  match s.finalRequest e with
  | some (bytes, preferred) =>
    if s.knownNodeId (hexBytes bytes) = none ∧
        (s.allocateNodeId (hexBytes bytes) preferred).isSome = true then
      insert (hexBytes bytes) chosen
    else chosen
  | none =>
    match e with
    | .forgetAllocations => ∅
    | _ => chosen

def stepChosen (p : CanBusService × Finset String) (e : Event) :
    Option (CanBusService × Finset String) :=
  (step p.1 e).map fun t => (t, p.1.chosenAfter p.2 e)

/-! ## Choosing -/

variable {s : CanBusService} {uniqueId : String} {n preferred : ℕ}

theorem allocateNodeId_free (hknown : s.knownNodeId uniqueId = none)
    (h : s.allocateNodeId uniqueId preferred = some n) :
    n ∉ s.taken ∧ 1 ≤ n ∧ n ≤ ALLOCATION_MAX_NODE_ID := by
  rw [allocateNodeId] at h
  simp only [hknown] at h
  rw [Option.or_eq_some_iff] at h
  obtain h | ⟨-, h⟩ := h
  · split at h
    · have hmem := List.mem_of_find?_eq_some h
      rw [List.mem_range'_1] at hmem
      exact ⟨by simpa using List.find?_some h, by omega, by omega⟩
    · cases h
  · have hmem := List.mem_of_find?_eq_some h
    rw [List.mem_reverse, List.mem_range'_1] at hmem
    exact ⟨by simpa using List.find?_some h, by omega, by omega⟩

theorem notMem_taken (h : n ∉ s.taken) :
    n ≠ GCS_DRONECAN_NODE_ID ∧ s.nodes.has n = false ∧
      (∀ e ∈ s.allocations.entries, e.2.nodeId ≠ n) ∧ s.otherAllocatorNodeId ≠ some n := by
  simp only [taken, List.cons_append, List.mem_cons, List.mem_append, not_or] at h
  obtain ⟨hgcs, ⟨hnodes, hallocations⟩, hother⟩ := h
  refine ⟨hgcs, ?_, fun e he heq => ?_, fun heq => ?_⟩
  · rw [JsMap.mem_keys_iff] at hnodes
    simpa [JsMap.has] using hnodes
  · exact hallocations (List.mem_map.mpr ⟨e.2, List.mem_map.mpr ⟨e, he, rfl⟩, heq⟩)
  · exact hother (by rw [heq]; exact List.mem_singleton_self n)

/-! ## What an event does to the table -/

inductive TableMove (s : CanBusService) (e : Event) (t : CanBusService) : Prop
  | kept (h : t.allocations = s.allocations) (he : e ≠ .forgetAllocations)
      (hnone : ∀ bytes preferred, s.finalRequest e = some (bytes, preferred) →
        s.allocateNodeId (hexBytes bytes) preferred = none)
  | forgot (he : e = .forgetAllocations) (h : t.allocations = JsMap.empty)
  | seeded (seed : List (String × ℕ)) (he : e = .setAllocatorEnabled true seed)
      (h : t.allocations = seed.foldl seedAllocation s.allocations)
  | granted (bytes : Bytes) (preferred n transferId : ℕ)
      (hrequest : s.finalRequest e = some (bytes, preferred))
      (hn : s.allocateNodeId (hexBytes bytes) preferred = some n)
      (h : t.allocations = s.allocations.set (hexBytes bytes) ⟨n, some s.nowMs⟩)
      (hsent : t.sent = s.sent ++ [.allocation transferId n bytes])

variable {message : CanFrameMessage}

theorem handleAllocationRequest_moves (hasks : s.asksForId message = true) :
    TableMove s (.frame message) (s.handleAllocationRequest message.payload) := by
  have hfinal : s.finalRequest (.frame message) = s.completedRequest message.payload := by
    rw [finalRequest, if_pos hasks]
  have hactive : s.status = .active := by
    simp only [asksForId, accepts, Bool.and_eq_true, decide_eq_true_eq] at hasks
    exact hasks.1.1.1.1
  have hkept : ∀ {t : CanBusService}, t.allocations = s.allocations →
      s.completedRequest message.payload = none → TableMove s (.frame message) t := by
    intro t ht hnone
    refine .kept ht (by simp) fun bytes preferred h => ?_
    rw [hfinal, hnone] at h
    cases h
  simp only [handleAllocationRequest]
  split
  · next h => exact hkept rfl (by rw [completedRequest, if_pos (.inl h)])
  next hlen =>
  split
  · next h => exact hkept rfl (by rw [completedRequest, if_pos (.inr h)])
  next htail =>
  have hcompleted : s.completedRequest message.payload =
      (decodeDronecanAllocation message.payload.dropLast).bind fun request =>
        s.liveQuery.bind fun query =>
          if request.firstPartOfUniqueId = false ∧ request.uniqueId.length = 4 ∧
              query.bytes.length = 12 then
            some (query.bytes ++ request.uniqueId, request.nodeId)
          else none := by
    rw [completedRequest, if_neg (by rw [not_or]; exact ⟨hlen, htail⟩)]
  split
  · next h => exact hkept rfl (by rw [hcompleted, h]; rfl)
  next request hdecode =>
  rw [hdecode, Option.bind_some] at hcompleted
  split
  · next hfirst =>
    refine hkept (aside_askFurther _ _).allocations ?_
    rw [hcompleted]
    cases s.liveQuery <;> simp [hfirst]
  next hfirst =>
  split
  · next h => exact hkept rfl (by rw [hcompleted, show s.liveQuery = none from h]; rfl)
  next query hquery =>
  rw [show s.liveQuery = some query from hquery, Option.bind_some] at hcompleted
  split
  · next h =>
    refine hkept (aside_askFurther _ _).allocations ?_
    rw [hcompleted, if_neg (by omega)]
  split
  · next h =>
    rw [if_pos ⟨by simpa using hfirst, h⟩] at hcompleted
    have hallocate : ({ s with allocationQuery := s.liveQuery }).allocateNodeId
        (hexBytes (query.bytes ++ request.uniqueId)) request.nodeId =
          s.allocateNodeId (hexBytes (query.bytes ++ request.uniqueId)) request.nodeId := rfl
    simp only [grantNodeId, hallocate]
    split
    · next hnone =>
      refine .kept rfl (by simp) fun bytes preferred hreq => ?_
      rw [hfinal, hcompleted] at hreq
      obtain ⟨rfl, rfl⟩ := Prod.mk.inj (Option.some.inj hreq)
      exact hnone
    · next n hn =>
      refine .granted _ request.nodeId n ((s.allocatorTransferId + 1) &&& 0x1f)
        (hfinal.trans hcompleted) hn ?_ ?_
      · rw [(aside_sendAllocation _ _ _).allocations]
      · simp only [sendAllocation, sendServiceCall, hactive, if_true, emit]
  · next h6 h =>
    refine hkept rfl ?_
    rw [hcompleted, if_neg fun hc => h hc.2]

theorem allocations_frame (hasks : s.asksForId message ≠ true) :
    (s.processCanFrame message).allocations = s.allocations := by
  have hframe := frame_moves s message
  generalize s.processCanFrame message = t at hframe
  cases hframe with
  | ignored _ => rfl
  | request _ h => exact absurd h hasks
  | other n _ => exact (s.aside_noteOtherAllocator n).allocations
  | piece r _ => rfl
  | transfer r f _ _ =>
    rw [handleTransfer]
    split
    · split
      · exact (aside_handleNodeStatus _ _ _).allocations
      · rfl
    split
    · split
      · exact (onlyServing_handleFileReadRequest _ _ _ _).allocations
      · rfl
    split
    · exact (aside_handleGetNodeInfoResponse _ _ _).allocations
    split
    · exact (onlySaving_handleGetSetResponse _ _ _).allocations
    split
    · exact (onlySaving_handleExecuteOpcodeResponse _ _ _).allocations
    split
    · exact (onlyServing_handleBeginFirmwareUpdateResponse _ _ _).allocations
    · rfl

theorem allocations_tick (s : CanBusService) : s.tick.allocations = s.allocations := by
  simp only [tick]
  split
  · rfl
  · rw [(aside_foldl_serviceNode _ _).allocations, (onlySaving_foldl_serviceWrite _ _).allocations,
      (onlyServing_serviceFirmwareUpdate _).allocations, s.aside_keepForwarding.allocations]

theorem allocations_settle (s : CanBusService) (call : Awaiting) (failure : Option String) :
    (s.settle call failure).allocations = s.allocations := by
  simp only [settle]
  split
  · rfl
  · exact (aside_requestForward _ _).allocations
  · split <;> rfl
  · exact (aside_sendWrites _ _ _).allocations
  · split <;> rfl

variable {t : CanBusService} {e : Event}

theorem table_moves (h : step s e = some t) : TableMove s e t := by
  have kept : t.allocations = s.allocations → e ≠ .forgetAllocations → s.finalRequest e = none →
      TableMove s e t := fun ht he hnone => .kept ht he (by simp [hnone])
  cases e with
  | frame message =>
    cases h
    by_cases hasks : s.asksForId message = true
    · have hmoves := handleAllocationRequest_moves hasks
      have hframe := frame_moves s message
      have heq : s.processCanFrame message = s.handleAllocationRequest message.payload := by
        simp only [asksForId, Bool.and_eq_true] at hasks
        rw [processCanFrame, if_neg (by simp [hasks.1.1]), if_pos hasks.1.2,
          if_pos (by rw [Bool.and_eq_true]; exact hasks.2)]
      rwa [heq]
    · exact kept (allocations_frame hasks) (by simp) (if_neg hasks)
  | tick =>
    cases h
    exact kept s.allocations_tick (by simp) rfl
  | saveAckTimeout nodeId =>
    rw [step] at h
    split at h
    · cases h
      exact kept (s.onlySaving_onSaveAckTimeout nodeId).allocations (by simp) rfl
    · cases h
  | settle i failure =>
    rw [step, Option.map_eq_some_iff] at h
    obtain ⟨call, -, rfl⟩ := h
    exact kept (allocations_settle _ call failure) (by simp) rfl
  | forgetAllocations =>
    cases h
    exact .forgot rfl rfl
  | setAllocatorEnabled enabled seed =>
    cases h
    cases enabled with
    | true => exact .seeded seed rfl rfl
    | false => exact kept rfl (by simp) rfl
  | clock | reset =>
    cases h
    exact kept rfl (by simp) rfl
  | start bus =>
    cases h
    exact kept (s.aside_start bus).allocations (by simp) rfl
  | stop =>
    cases h
    exact kept s.aside_stop.allocations (by simp) rfl
  | refreshNode nodeId =>
    cases h
    exact kept (s.aside_refreshNode nodeId).allocations (by simp) rfl
  | restartNode nodeId =>
    cases h
    exact kept (s.aside_restartNode nodeId).allocations (by simp) rfl
  | fetchAllParameters nodeId =>
    cases h
    exact kept (s.aside_fetchAllParameters nodeId).allocations (by simp) rfl
  | writeParameter nodeId paramName value =>
    cases h
    exact kept (s.onlySaving_writeParameter nodeId paramName value).allocations (by simp) rfl
  | applyAndSave nodeId writes =>
    cases h
    exact kept (s.onlySaving_applyAndSave nodeId writes).allocations (by simp) rfl
  | changeNodeId nodeId newNodeId =>
    cases h
    exact kept (s.onlySaving_changeNodeId nodeId newNodeId).allocations (by simp) rfl
  | saveParameters nodeId =>
    cases h
    exact kept (s.onlySaving_saveParameters nodeId).allocations (by simp) rfl
  | startFirmwareUpdate nodeId fileName image =>
    cases h
    exact kept (s.onlyServing_startFirmwareUpdate nodeId fileName image).allocations (by simp) rfl
  | cancelFirmwareUpdate =>
    cases h
    exact kept s.onlyServing_cancelFirmwareUpdate.allocations (by simp) rfl

/-! ## The table along a run -/

def idOf (allocations : JsMap String Allocation) (uniqueId : String) : Option ℕ :=
  (allocations.get uniqueId).map Allocation.nodeId

/-- The unique ids chosen for are in the table, in range, and none came upon an id that was held. -/
structure TableInv (allocations : JsMap String Allocation) (chosen : Finset String) : Prop where
  ordered : allocations.entries.Pairwise fun a b => a.2.nodeId = b.2.nodeId → b.1 ∉ chosen
  range : ∀ uniqueId ∈ chosen, ∃ n, idOf allocations uniqueId = some n ∧ 1 ≤ n ∧
    n ≤ ALLOCATION_MAX_NODE_ID

theorem TableInv.empty : TableInv JsMap.empty ∅ := ⟨List.Pairwise.nil, by simp⟩

variable {allocations : JsMap String Allocation}

theorem entries_set_of_none (h : allocations.get uniqueId = none) (a : Allocation) :
    (allocations.set uniqueId a).entries = allocations.entries ++ [(uniqueId, a)] :=
  Entries.set_of_notMem (JsMap.get_eq_none_iff.mp h) a

variable {chosen : Finset String}

theorem TableInv.notMem (h : TableInv allocations chosen)
    (hnone : allocations.get uniqueId = none) :
    uniqueId ∉ chosen := by
  intro hmem
  obtain ⟨n, hn, -⟩ := h.range uniqueId hmem
  rw [idOf, hnone] at hn
  cases hn

theorem idOf_set_of_ne {u v : String} (h : u ≠ v) (a : Allocation) :
    idOf (allocations.set v a) u = idOf allocations u := by
  rw [idOf, JsMap.get_set, if_neg h, idOf]

theorem TableInv.set_new (h : TableInv allocations chosen) (hnone : allocations.get uniqueId = none)
    (a : Allocation) : TableInv (allocations.set uniqueId a) chosen := by
  have hnew := h.notMem hnone
  refine ⟨?_, fun u hu => ?_⟩
  · rw [entries_set_of_none hnone, List.pairwise_append]
    refine ⟨h.ordered, List.pairwise_singleton _ _, fun e _ b hb _ => ?_⟩
    rw [List.mem_singleton.mp hb]
    exact hnew
  · rw [idOf_set_of_ne (by rintro rfl; exact hnew hu)]
    exact h.range u hu

variable {a : Allocation}

theorem TableInv.set_chosen (h : TableInv allocations chosen)
    (hnone : allocations.get uniqueId = none)
    (hfree : ∀ e ∈ allocations.entries, e.2.nodeId ≠ a.nodeId)
    (hrange : 1 ≤ a.nodeId ∧ a.nodeId ≤ ALLOCATION_MAX_NODE_ID) :
    TableInv (allocations.set uniqueId a) (insert uniqueId chosen) := by
  refine ⟨?_, fun u hu => ?_⟩
  · rw [entries_set_of_none hnone, List.pairwise_append]
    refine ⟨?_, List.pairwise_singleton _ _, fun e he b hb heq => ?_⟩
    · refine h.ordered.imp_of_mem fun {a' b'} _ hb' hnot heq => ?_
      rw [Finset.mem_insert, not_or]
      refine ⟨?_, hnot heq⟩
      rintro rfl
      exact JsMap.get_eq_none_iff.mp hnone (List.mem_map.mpr ⟨b', hb', rfl⟩)
    · rw [List.mem_singleton.mp hb] at heq
      exact absurd heq (hfree e he)
  · obtain rfl | hmem := Finset.mem_insert.mp hu
    · exact ⟨a.nodeId, by rw [idOf, JsMap.get_set, if_pos rfl]; rfl, hrange⟩
    · have hne : u ≠ uniqueId := by
        rintro rfl
        exact h.notMem hnone hmem
      rw [idOf_set_of_ne hne]
      exact h.range u hmem

theorem TableInv.set_same (h : TableInv allocations chosen)
    (hsame : idOf allocations uniqueId = some a.nodeId) :
    TableInv (allocations.set uniqueId a) chosen := by
  obtain ⟨b, hb, hab⟩ := Option.map_eq_some_iff.mp hsame
  have hentries : (allocations.set uniqueId a).entries.map (fun e => (e.1, e.2.nodeId)) =
      allocations.entries.map fun e => (e.1, e.2.nodeId) := Entries.map_set_of_get hb hab.symm
  refine ⟨?_, fun u hu => ?_⟩
  · have hordered := h.ordered
    have hpair : ∀ l : Entries String Allocation,
        (l.Pairwise fun a b => a.2.nodeId = b.2.nodeId → b.1 ∉ chosen) ↔
          (l.map fun e => (e.1, e.2.nodeId)).Pairwise fun a b => a.2 = b.2 → b.1 ∉ chosen := by
      intro l
      rw [List.pairwise_map]
    rw [hpair] at hordered ⊢
    rwa [hentries]
  · by_cases hu' : u = uniqueId
    · subst hu'
      obtain ⟨n, hn, hrange⟩ := h.range u hu
      obtain rfl := Option.some.inj (hsame.symm.trans hn)
      exact ⟨a.nodeId, by rw [idOf, JsMap.get_set, if_pos rfl]; rfl, hrange⟩
    · rw [idOf_set_of_ne hu']
      exact h.range u hu

theorem TableInv.seed (h : TableInv allocations chosen) (seed : List (String × ℕ)) :
    TableInv (seed.foldl seedAllocation allocations) chosen := by
  induction seed generalizing allocations with
  | nil => exact h
  | cons entry seed ih =>
    refine ih ?_
    rw [seedAllocation]
    split
    · exact h
    · next hhas => exact h.set_new (by simpa [JsMap.has] using hhas) _

theorem knownNodeId_eq_none (h : s.knownNodeId uniqueId = none) :
    s.allocations.get uniqueId = none := by
  rw [knownNodeId, Option.or_eq_none_iff, Option.map_eq_none_iff] at h
  exact h.1

theorem tableInv_step {p q : CanBusService × Finset String} (hp : TableInv p.1.allocations p.2)
    (h : stepChosen p e = some q) :
    TableInv q.1.allocations q.2 := by
  obtain ⟨s, chosen⟩ := p
  obtain ⟨t, ht, rfl⟩ := Option.map_eq_some_iff.mp h
  cases table_moves ht with
  | kept hkept he hnone =>
    have hchosen : s.chosenAfter chosen e = chosen := by
      simp only [chosenAfter]
      cases hreq : s.finalRequest e with
      | some request => simp [hnone request.1 request.2 hreq]
      | none =>
        cases e with
        | forgetAllocations => exact absurd rfl he
        | _ => rfl
    rw [hchosen, hkept]
    exact hp
  | forgot he hempty =>
    subst he
    rw [hempty]
    exact TableInv.empty
  | seeded seed he hseed =>
    subst he
    rw [hseed]
    exact hp.seed seed
  | granted bytes preferred n transferId hrequest hn hset _ =>
    have hchosen : s.chosenAfter chosen e =
        if s.knownNodeId (hexBytes bytes) = none then insert (hexBytes bytes) chosen else chosen := by
      simp only [chosenAfter, hrequest, hn, Option.isSome_some, and_true]
    rw [hchosen, hset]
    split
    · next hknown =>
      obtain ⟨hfree, hrange⟩ := allocateNodeId_free hknown hn
      exact hp.set_chosen (knownNodeId_eq_none hknown) (notMem_taken hfree).2.2.1 hrange
    · next hknown =>
      obtain ⟨known, hknown⟩ := Option.ne_none_iff_exists'.mp hknown
      obtain rfl : known = n := by
        rw [allocateNodeId, hknown] at hn
        exact Option.some.inj hn
      rw [knownNodeId, Option.or_eq_some_iff] at hknown
      obtain hsame | ⟨hnone, -⟩ := hknown
      · exact hp.set_same hsame
      · exact hp.set_new (Option.map_eq_none_iff.mp hnone) _

theorem idOf_foldl_seed (seed : List (String × ℕ)) (h : idOf allocations uniqueId = some n) :
    idOf (seed.foldl seedAllocation allocations) uniqueId = some n := by
  induction seed generalizing allocations with
  | nil => exact h
  | cons entry seed ih =>
    refine ih ?_
    rw [seedAllocation]
    split
    · exact h
    · next hhas =>
      rw [idOf_set_of_ne]
      · exact h
      · rintro rfl
        obtain ⟨a, ha, -⟩ := Option.map_eq_some_iff.mp h
        exact hhas (by rw [JsMap.has, ha]; rfl)

theorem idOf_step (he : e ≠ .forgetAllocations) (h : step s e = some t)
    (hn : idOf s.allocations uniqueId = some n) : idOf t.allocations uniqueId = some n := by
  cases table_moves h with
  | kept hkept => rwa [hkept]
  | forgot he' => exact absurd he' he
  | seeded seed _ hseed =>
    rw [hseed]
    exact idOf_foldl_seed seed hn
  | granted bytes preferred m transferId _ hm hset _ =>
    rw [hset]
    by_cases hu : uniqueId = hexBytes bytes
    · subst hu
      have hknown : s.knownNodeId (hexBytes bytes) = some n := by
        rw [knownNodeId]
        exact (congrArg (Option.or · _) hn).trans rfl
      rw [allocateNodeId, hknown] at hm
      cases hm
      rw [idOf, JsMap.get_set, if_pos rfl]
      rfl
    · rwa [idOf_set_of_ne hu]

/-! ## The allocator's contract -/

/-- The event answered a request with the node id `n`. -/
def Answers (s t : CanBusService) (bytes : Bytes) (n : ℕ) : Prop :=
  ∃ transferId, t.sent = s.sent ++ [.allocation transferId n bytes]

theorem answers_of_finalRequest (h : step s e = some t) {bytes : Bytes}
    (hrequest : s.finalRequest e = some (bytes, preferred))
    (hn : s.allocateNodeId (hexBytes bytes) preferred = some n) :
    Answers s t bytes n ∧ idOf t.allocations (hexBytes bytes) = some n := by
  cases table_moves h with
  | kept _ _ hnone =>
    rw [hnone bytes preferred hrequest] at hn
    cases hn
  | forgot he => subst he; cases hrequest
  | seeded _ he => subst he; cases hrequest
  | granted bytes' preferred' m transferId hrequest' hm hset hsent =>
    obtain ⟨rfl, rfl⟩ := Prod.mk.inj (Option.some.inj (hrequest.symm.trans hrequest'))
    obtain rfl := Option.some.inj (hn.symm.trans hm)
    exact ⟨⟨transferId, hsent⟩, by rw [hset, idOf, JsMap.get_set, if_pos rfl]; rfl⟩

theorem knownNodeId_of_idOf (h : idOf s.allocations uniqueId = some n) :
    s.knownNodeId uniqueId = some n := by
  rw [knownNodeId]
  exact (congrArg (Option.or · _) h).trans rfl

theorem allocateNodeId_known (h : s.knownNodeId uniqueId = some n) (preferred : ℕ) :
    s.allocateNodeId uniqueId preferred = some n := by
  rw [allocateNodeId, h]

/-- In every state a run reaches: of two unique ids that hold one node id the later was not chosen for
by the allocator, and what it chose is in range. A request is answered with the id that the table or
the bus knows, else with one in range that no node on the bus, no other unique id, no other allocator
and not this app has. And until the table is forgotten a unique id keeps its node id and is answered
with it again. -/
theorem allocation {nowMs : ℕ} {es : List Event} {t : CanBusService} {chosen : Finset String}
    (h : run stepChosen (initial nowMs, ∅) es = some (t, chosen)) :
    (t.allocations.entries.Pairwise fun a b => a.2.nodeId = b.2.nodeId → b.1 ∉ chosen) ∧
    (∀ uniqueId ∈ chosen, ∃ n, idOf t.allocations uniqueId = some n ∧ 1 ≤ n ∧ n ≤ 125) ∧
    (∀ e u bytes preferred n, step t e = some u → t.finalRequest e = some (bytes, preferred) →
      t.allocateNodeId (hexBytes bytes) preferred = some n →
        Answers t u bytes n ∧ idOf u.allocations (hexBytes bytes) = some n ∧
        (t.knownNodeId (hexBytes bytes) = some n ∨
          (1 ≤ n ∧ n ≤ 125 ∧ n ≠ GCS_DRONECAN_NODE_ID ∧ t.nodes.has n = false ∧
            (∀ entry ∈ t.allocations.entries, entry.2.nodeId ≠ n) ∧
            t.otherAllocatorNodeId ≠ some n))) ∧
    ∀ es' u uniqueId n, (∀ e ∈ es', e ≠ .forgetAllocations) → run step t es' = some u →
      idOf t.allocations uniqueId = some n → idOf u.allocations uniqueId = some n ∧
        ∀ e v bytes preferred, step u e = some v → u.finalRequest e = some (bytes, preferred) →
          hexBytes bytes = uniqueId → Answers u v bytes n := by
  have hinv : TableInv t.allocations chosen :=
    run_invariant (I := fun p => TableInv p.1.allocations p.2)
      (fun p e q hp hstep => tableInv_step hp hstep) TableInv.empty h
  refine ⟨hinv.ordered, hinv.range, fun e u bytes preferred n hstep hrequest hn => ?_,
    fun es' u uniqueId n hes hrun hn => ?_⟩
  · obtain ⟨hanswers, hid⟩ := answers_of_finalRequest hstep hrequest hn
    refine ⟨hanswers, hid, ?_⟩
    cases hknown : t.knownNodeId (hexBytes bytes) with
    | none =>
      obtain ⟨hfree, hlo, hhi⟩ := allocateNodeId_free hknown hn
      exact .inr ⟨hlo, hhi, notMem_taken hfree⟩
    | some m =>
      rw [allocateNodeId_known hknown] at hn
      exact .inl hn
  · have hkeep : idOf u.allocations uniqueId = some n := by
      clear h hinv
      induction es' generalizing t with
      | nil =>
        cases hrun
        exact hn
      | cons e es' ih =>
        obtain ⟨v, hv, hrun⟩ := run_cons_eq_some.mp hrun
        exact ih (fun f hf => hes f (List.mem_cons_of_mem _ hf)) hrun
          (idOf_step (hes e (List.mem_cons_self ..)) hv hn)
    refine ⟨hkeep, fun e v bytes preferred hstep hrequest hbytes => ?_⟩
    subst hbytes
    exact (answers_of_finalRequest hstep hrequest
      (allocateNodeId_known (knownNodeId_of_idOf hkeep) preferred)).1

def askFrame (head : UInt8) (part : Bytes) : CanFrameMessage where
  len := part.length + 2
  id := CAN_FRAME_FLAG_EFF + (DRONECAN_ALLOCATION_DT_ID <<< 8)
  data := head :: part ++ [0xc0]

def sampleUid (n : UInt8) : Bytes := List.replicate 16 n

def lastAsk : Event := .frame (askFrame 0 (List.replicate 4 2))

def askingRun : List Event :=
  [.start 1, .settle 0 none, .setAllocatorEnabled true [],
    .frame (askFrame 1 (List.replicate 6 2)), .frame (askFrame 0 (List.replicate 6 2))]

theorem allocation_highest : ∃ t u chosen,
    run stepChosen (initial 0, ∅) askingRun = some (t, chosen) ∧ step t lastAsk = some u ∧
      Answers t u (sampleUid 2) 125 ∧ idOf u.allocations (hexBytes (sampleUid 2)) = some 125 ∧
      (t.knownNodeId (hexBytes (sampleUid 2)) = some 125 ∨ t.nodes.has 125 = false) := by
  have hcheck : (run stepChosen (initial 0, ∅) askingRun).any (fun p =>
      (step p.1 lastAsk).isSome && decide (p.1.finalRequest lastAsk = some (sampleUid 2, 0)) &&
        decide (p.1.allocateNodeId (hexBytes (sampleUid 2)) 0 = some 125)) = true := by
    decide +kernel
  obtain ⟨⟨t, chosen⟩, hrun, hcheck⟩ := (Option.any_eq_true _ _).mp hcheck
  simp only [Bool.and_eq_true, decide_eq_true_eq] at hcheck
  obtain ⟨⟨hsome, hrequest⟩, hn⟩ := hcheck
  obtain ⟨u, hu⟩ := Option.isSome_iff_exists.mp hsome
  obtain ⟨hanswers, hid, hfree⟩ := (allocation hrun).2.2.1 _ u _ _ _ hu hrequest hn
  exact ⟨t, u, chosen, hrun, hu, hanswers, hid, hfree.imp_right fun h => h.2.2.2.1⟩

/-- The frames of a GetNodeInfo response of the node `nodeId` with this unique id. -/
def nodeInfoFrames (nodeId : ℕ) (uniqueId : Bytes) : List CanFrameMessage :=
  let payload := List.replicate 24 0 ++ uniqueId ++ [0]
  let crc := Dronecan.dronecanTransferCrc DRONECAN_GET_NODE_INFO_SIGNATURE payload
  let bytes := leBytes 2 crc.toNat ++ payload
  (List.range 7).map fun i =>
    let chunk := (bytes.drop (7 * i)).take 7
    let tail := (if i = 0 then 0x80 else 0) + (if i = 6 then 0x40 else 0) + (i % 2) * 0x20
    { len := chunk.length + 1
      id := CAN_FRAME_FLAG_EFF + (DRONECAN_GET_NODE_INFO_SERVICE_ID <<< 16)
        + (GCS_DRONECAN_NODE_ID <<< 8) + 0x80 + nodeId
      data := chunk ++ [UInt8.ofNat tail] }

/-- A node shows up under `nodeId`; the table has an entry of an earlier session with that id for
another unique id. The node asks for an id, and the other one does up to its last frame. -/
def clashingRun (nodeId : ℕ) : List Event :=
  [.start 1, .settle 0 none] ++ (nodeInfoFrames nodeId (sampleUid 1)).map .frame ++
    [.setAllocatorEnabled true [(hexBytes (sampleUid 2), nodeId)],
      .frame (askFrame 1 (List.replicate 6 1)), .frame (askFrame 0 (List.replicate 6 1)),
      .frame (askFrame 0 (List.replicate 4 1)),
      .frame (askFrame 1 (List.replicate 6 2)), .frame (askFrame 0 (List.replicate 6 2))]

/-- What the clash comes to: the two hold `nodeId`, and the last request is answered with it while the
first of them is on the bus under it. -/
def Clashes (nodeId : ℕ) (s t : CanBusService) : Prop :=
  idOf t.allocations (hexBytes (sampleUid 1)) = some nodeId ∧
  idOf t.allocations (hexBytes (sampleUid 2)) = some nodeId ∧
  (s.nodes.get nodeId).bind MutableNode.hwUniqueId = some (hexBytes (sampleUid 1)) ∧
  t.sent = s.sent ++ [.allocation 6 nodeId (sampleUid 2)]

instance (nodeId : ℕ) (s t : CanBusService) : Decidable (Clashes nodeId s t) :=
  inferInstanceAs (Decidable (_ ∧ _))

theorem clash_of_any (nodeId : ℕ) (h : (run step (initial 0) (clashingRun nodeId)).any
      (fun s => (step s lastAsk).any fun t => decide (Clashes nodeId s t)) = true) :
    ∃ s t, run step (initial 0) (clashingRun nodeId) = some s ∧ step s lastAsk = some t ∧
      Clashes nodeId s t := by
  obtain ⟨s, hs, h⟩ := (Option.any_eq_true _ _).mp h
  obtain ⟨t, ht, h⟩ := (Option.any_eq_true _ _).mp h
  exact ⟨s, t, hs, ht, of_decide_eq_true h⟩

/-- Two unique ids can hold one node id, an id can be out of range, and the id handed out can be the one
of another node on the bus: an entry of an earlier session and an id seen on the bus are taken as they
are. -/
theorem known_ids_clash :
    (¬ ∀ es t, run step (initial 0) es = some t → ∀ u v n,
      idOf t.allocations u = some n → idOf t.allocations v = some n → u = v) ∧
    (¬ ∀ es s t e, run step (initial 0) es = some s → step s e = some t →
      ∀ bytes n, n ≠ 0 → Answers s t bytes n →
        ∀ node, s.nodes.get n = some node → ∀ u, node.hwUniqueId = some u → u = hexBytes bytes) ∧
    ¬ ∀ es t, run step (initial 0) es = some t → ∀ u n,
      idOf t.allocations u = some n → 1 ≤ n ∧ n ≤ 125 := by
  have hne : hexBytes (sampleUid 1) ≠ hexBytes (sampleUid 2) := by decide +kernel
  refine ⟨fun h => ?_, fun h => ?_, fun h => ?_⟩
  · obtain ⟨s, t, hs, ht, h₁, h₂, -⟩ := clash_of_any 60 (by decide +kernel)
    have hrun : run step (initial 0) (clashingRun 60 ++ [lastAsk]) = some t :=
      run_append_eq_some.mpr ⟨s, hs, run_cons_eq_some.mpr ⟨t, ht, rfl⟩⟩
    exact hne (h _ t hrun _ _ 60 h₁ h₂)
  · obtain ⟨s, t, hs, ht, -, -, hnode, hsent⟩ := clash_of_any 60 (by decide +kernel)
    obtain ⟨node, hget, huid⟩ := Option.bind_eq_some_iff.mp hnode
    exact hne (h _ s t _ hs ht (sampleUid 2) 60 (by decide) ⟨6, hsent⟩ node hget _ huid)
  · obtain ⟨s, t, hs, ht, h₁, -⟩ := clash_of_any 126 (by decide +kernel)
    have hrun : run step (initial 0) (clashingRun 126 ++ [lastAsk]) = some t :=
      run_append_eq_some.mpr ⟨s, hs, run_cons_eq_some.mpr ⟨t, ht, rfl⟩⟩
    have := (h _ t hrun _ 126 h₁).2
    omega

end ArduConfigurator.CanBus.CanBusService
