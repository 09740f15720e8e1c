import ArduConfigurator.CanBus.NodeFrames

/-! # The walk over a node's parameters

A GetSet response carries no index, so the service takes it for the answer to the index it has asked
for. The walk of a node is what its entry holds of this: the parameters found so far, the index that
is asked for, and how it stands. -/
namespace ArduConfigurator.CanBus
open Runs
set_option autoImplicit false

/-! ## The walk of one node -/

/-- A node's parameters, each with the index it was found under, and the state of the walk. -/
structure Walk where
  nodeId : ℕ
  parameters : List (ℕ × String)
  status : DronecanParamFetchStatus
  nextIndex : ℕ
  error : Option String

/-- The parameters of a node. A response without a name is the end of the list. -/
structure ParameterNames where
  names : List String
  nodup : names.Nodup
  named : "" ∉ names

def ParameterNames.table (list : ParameterNames) : List (ℕ × String) := list.names.mapIdx Prod.mk

namespace Walk

def unstarted (nodeId : ℕ) : Walk := ⟨nodeId, [], .idle, 0, none⟩

def answer (w : Walk) (name : String) : Walk :=
  if name = "" then { w with status := .complete }
  else if w.parameters.any fun p => p.2 = name then
    { w with
      parameters := w.parameters.set (w.parameters.findIdx fun p => p.2 = name) (w.nextIndex, name) }
  else { w with parameters := w.parameters ++ [(w.nextIndex, name)], nextIndex := w.nextIndex + 1 }

/-- The response is the one to the index asked for. Before the walk begins there is none, and once it
is over any response will do. -/
def expects (w : Walk) (names : List String) (name : String) : Bool :=
  match w.status with
  | .idle => decide (names = [] ∧ name = "")
  | .fetching => decide (name = names[w.nextIndex]?.getD "")
  | .complete => true

theorem with_nodeId {w : Walk} {n : ℕ} (h : w.nodeId = n) : { w with nodeId := n } = w := by
  subst h
  rfl

def Reported (w : Walk) : Prop := w.status = .complete ∧ w.error = none

end Walk

structure WalkInv (list : ParameterNames) (nodeId : ℕ) (w : Walk) : Prop where
  keyed : w.nodeId = nodeId
  idle : w.status = .idle → w.parameters = []
  fetching : w.status = .fetching → w.nextIndex ≤ list.names.length ∧
    w.parameters = (list.names.take w.nextIndex).mapIdx Prod.mk

section
variable {list : ParameterNames} {nodeId : ℕ} {w : Walk} {name : String}

theorem walkInv_unstarted : WalkInv list nodeId (.unstarted nodeId) :=
  ⟨rfl, fun _ => rfl, fun h => nomatch h⟩

theorem walkInv_getD {a : Option Walk} (h : ∀ w, a = some w → WalkInv list nodeId w) :
    WalkInv list nodeId (a.getD (.unstarted nodeId)) := by
  cases a with
  | none => exact walkInv_unstarted
  | some w => exact h w rfl

theorem walkInv_complete (hkeyed : w.nodeId = nodeId) (h : w.status = .complete) :
    WalkInv list nodeId w :=
  ⟨hkeyed, fun hidle => (nomatch hidle.symm.trans h), fun hfetch => (nomatch hfetch.symm.trans h)⟩

theorem WalkInv.begun (h : WalkInv list nodeId w) (hidle : w.status = .idle) (error : Option String) :
    WalkInv list nodeId { w with status := .fetching, nextIndex := 0, error := error } := by
  refine ⟨h.keyed, fun hstatus => (nomatch hstatus), fun _ => ⟨Nat.zero_le _, ?_⟩⟩
  rw [List.take_zero]
  exact h.idle hidle

theorem names_getD_eq_empty {n : ℕ} (hn : n ≤ list.names.length)
    (h : list.names[n]?.getD "" = "") : n = list.names.length := by
  by_contra hne
  have hlt : n < list.names.length := by omega
  rw [List.getElem?_eq_getElem hlt, Option.getD_some] at h
  exact list.named (h ▸ List.getElem_mem hlt)

theorem WalkInv.answer (h : WalkInv list nodeId w) (hexpects : w.expects list.names name = true) :
    WalkInv list nodeId (w.answer name) := by
  rw [Walk.answer]
  by_cases hname : name = ""
  · rw [if_pos hname]
    exact walkInv_complete h.keyed rfl
  rw [if_neg hname]
  cases hstatus : w.status with
  | idle =>
    rw [Walk.expects, hstatus] at hexpects
    exact absurd (of_decide_eq_true hexpects).2 hname
  | complete =>
    split
    · exact walkInv_complete h.keyed rfl
    · exact walkInv_complete h.keyed rfl
  | fetching =>
    rw [Walk.expects, hstatus] at hexpects
    have hexpects := of_decide_eq_true hexpects
    obtain ⟨hle, hparameters⟩ := h.fetching hstatus
    have hlt : w.nextIndex < list.names.length := by
      refine lt_of_le_of_ne hle fun heq => hname ?_
      rw [hexpects, heq, List.getElem?_eq_none (le_refl _), Option.getD_none]
    rw [List.getElem?_eq_getElem hlt, Option.getD_some] at hexpects
    have hfresh : w.parameters.any (fun p => p.2 = name) = false := by
      rw [List.any_eq_false]
      intro p hp heq
      rw [hparameters, List.mem_mapIdx] at hp
      obtain ⟨i, hi, rfl⟩ := hp
      have hi' : i < w.nextIndex := lt_of_lt_of_le hi (List.length_take_le _ _)
      rw [List.getElem_take, decide_eq_true_eq, hexpects, list.nodup.getElem_inj_iff] at heq
      omega
    rw [hfresh, if_neg Bool.false_ne_true]
    refine ⟨h.keyed, fun hidle => (nomatch hidle), fun _ => ⟨hlt, ?_⟩⟩
    have hlength : (list.names.take w.nextIndex).length = w.nextIndex := List.length_take_of_le hle
    simp only [List.take_add_one, List.getElem?_eq_getElem hlt, Option.toList_some,
      List.mapIdx_concat, hlength, hparameters, hexpects]

theorem WalkInv.finished (h : WalkInv list nodeId w) (hexpects : w.expects list.names name = true)
    (hbefore : w.status ≠ .complete) (hafter : (w.answer name).status = .complete) :
    (w.answer name).parameters = list.table := by
  have hname : name = "" := by
    by_contra hname
    rw [Walk.answer, if_neg hname] at hafter
    split at hafter
    · exact hbefore hafter
    · exact hbefore hafter
  rw [Walk.answer, if_pos hname]
  cases hstatus : w.status with
  | idle =>
    rw [Walk.expects, hstatus] at hexpects
    simp only [h.idle hstatus, ParameterNames.table, (of_decide_eq_true hexpects).1, List.mapIdx_nil]
  | complete => exact absurd hstatus hbefore
  | fetching =>
    rw [Walk.expects, hstatus] at hexpects
    obtain ⟨hle, hparameters⟩ := h.fetching hstatus
    have hall := names_getD_eq_empty hle ((of_decide_eq_true hexpects).symm.trans hname)
    rw [hall, List.take_length] at hparameters
    exact hparameters

end

/-! ## What an event does to a walk -/

/-- What happens to a node's walk without a GetSet response of the node. -/
inductive WalkMove (nodeId : ℕ) (a b : Option Walk) : Prop
  | kept (h : b = a)
  | gone (h : b = none)
  | heard (h : b = some (.unstarted nodeId))
  | begun (hidle : (a.getD (.unstarted nodeId)).status = .idle)
      (h : b = some
        { a.getD (.unstarted nodeId) with status := .fetching, nextIndex := 0, error := none })
  | refetched (h : b = some ⟨nodeId, [], .fetching, 0, none⟩)
  | stopped (w : Walk) (message : String) (ha : a = some w)
      (h : b = some { w with status := .complete, error := some message })

def MutableNode.walk (node : MutableNode) : Walk where
  nodeId := node.nodeId
  parameters := node.parameters.map fun entry => (entry.index, entry.name)
  status := node.paramFetch.status
  nextIndex := node.paramFetch.nextIndex
  error := node.paramFetch.error

namespace CanBusService

def walk (s : CanBusService) (nodeId : ℕ) : Option Walk := (s.nodes.get nodeId).map MutableNode.walk

def Keyed (s : CanBusService) : Prop := ∀ nodeId w, s.walk nodeId = some w → w.nodeId = nodeId

/-- The GetSet response a frame completes: the node, and the name of the parameter. -/
def paramResponse (s : CanBusService) (message : CanFrameMessage) : Option (ℕ × String) :=
  (s.finished message).bind fun f =>
    if f.context.isService = true ∧ f.context.isRequest ≠ some true ∧
        f.context.typeId = DRONECAN_PARAM_GETSET_SERVICE_ID then
      (decodeDronecanGetSetResponse f.payload).map fun response =>
        (f.context.sourceNodeId, response.name)
    else none

variable {s t : CanBusService} {nodeId : ℕ}

theorem walk_of_nodes (h : t.nodes = s.nodes) (nodeId : ℕ) : t.walk nodeId = s.walk nodeId := by
  rw [walk, walk, h]

theorem Beside.walk (h : Beside s t) (nodeId : ℕ) : t.walk nodeId = s.walk nodeId :=
  walk_of_nodes h.nodes nodeId

@[simp] theorem walk_putNode (s : CanBusService) (node : MutableNode) (nodeId : ℕ) :
    (s.putNode node).walk nodeId =
      if nodeId = node.nodeId then some node.walk else s.walk nodeId := by
  rw [walk, putNode, JsMap.get_set]
  split <;> rfl

@[simp] theorem walk_requestGetSet (s : CanBusService) (dest index nodeId : ℕ) :
    (s.requestGetSet dest index).walk nodeId = s.walk nodeId :=
  (s.beside_requestGetSet dest index).walk nodeId

@[simp] theorem walk_requestGetNodeInfo (s : CanBusService) (dest nodeId : ℕ) :
    (s.requestGetNodeInfo dest).walk nodeId = s.walk nodeId :=
  (s.beside_requestGetNodeInfo dest).walk nodeId

theorem walk_upsertNode (s : CanBusService) (nodeId : ℕ) :
    (s.upsertNode nodeId).walk = (s.walk nodeId).getD (.unstarted nodeId) := by
  rw [upsertNode, walk]
  cases s.nodes.get nodeId with
  | none => rfl
  | some node => rfl


theorem walk_known (hkeyed : s.Keyed) (n seenAtMs : ℕ) :
    MutableNode.walk { s.upsertNode n with nodeId := n, lastSeenAtMs := seenAtMs } =
      (s.walk n).getD (.unstarted n) := by
  rw [← walk_upsertNode]
  have hid : (s.upsertNode n).walk.nodeId = n := by
    rw [walk_upsertNode]
    cases hwalk : s.walk n with
    | none => rfl
    | some w => exact hkeyed n w hwalk
  exact Walk.with_nodeId hid

/-! ## The operations on an entry -/

variable {a : Option Walk}

theorem fetchAllParameters_walk (ha : s.walk nodeId = a) (n : ℕ) :
    WalkMove nodeId a ((s.fetchAllParameters n).walk nodeId) := by
  subst ha
  simp only [fetchAllParameters]
  split
  · exact .kept rfl
  · rw [walk_requestGetSet, walk_putNode]
    split
    · next h =>
      subst h
      exact .refetched rfl
    · exact .kept rfl

theorem handleNodeStatus_walk (hkeyed : s.Keyed) (n : ℕ) (payload : Bytes) (nodeId : ℕ) :
    WalkMove nodeId (s.walk nodeId) ((s.handleNodeStatus n payload).walk nodeId) := by
  rw [handleNodeStatus]
  split
  · exact .kept rfl
  simp only
  have hasked : ∀ (t : CanBusService) (p : Prop) [Decidable p],
      (if p then t.requestGetNodeInfo n else t).walk nodeId = t.walk nodeId := by
    intro t p _
    split
    · exact walk_requestGetNodeInfo t n nodeId
    · rfl
  have hknown := walk_known hkeyed n s.nowMs
  by_cases hn : nodeId = n
  · subst hn
    split
    · next hidle =>
      rw [walk_requestGetSet, walk_putNode, if_pos rfl]
      refine .begun ((congrArg Walk.status hknown).symm.trans hidle) ?_
      rw [← hknown]
      rfl
    · next hidle =>
      rw [hasked, walk_putNode, if_pos rfl]
      cases hwalk : s.walk nodeId with
      | none =>
        rw [hwalk] at hknown
        exact absurd (congrArg Walk.status hknown) hidle
      | some w =>
        rw [hwalk] at hknown
        exact .kept (congrArg some hknown)
  · refine .kept ?_
    split
    · rw [walk_requestGetSet, walk_putNode, if_neg hn, hasked, walk_putNode, if_neg hn]
    · rw [hasked, walk_putNode, if_neg hn]

theorem handleGetNodeInfoResponse_walk (hkeyed : s.Keyed) (n : ℕ) (payload : Bytes) (nodeId : ℕ) :
    WalkMove nodeId (s.walk nodeId) ((s.handleGetNodeInfoResponse n payload).walk nodeId) := by
  rw [handleGetNodeInfoResponse]
  split
  · exact .kept rfl
  rw [walk_putNode]
  by_cases hn : nodeId = n
  case neg => exact .kept (if_neg hn)
  subst hn
  rw [if_pos rfl]
  have hknown := walk_known hkeyed nodeId s.nowMs
  cases hwalk : s.walk nodeId with
  | none =>
    rw [hwalk] at hknown
    exact .heard (congrArg some hknown)
  | some w =>
    rw [hwalk] at hknown
    exact .kept (congrArg some hknown)

theorem handleFileReadRequest_walk (hkeyed : s.Keyed) (n transferId : ℕ) (payload : Bytes)
    (nodeId : ℕ) :
    WalkMove nodeId (s.walk nodeId) ((s.handleFileReadRequest n transferId payload).walk nodeId) := by
  rw [handleFileReadRequest]
  split
  · exact .kept rfl
  split
  · exact .kept rfl
  split
  · exact .kept rfl
  split
  · exact .kept rfl
  next update _ _ _ request _ =>
  have hsend := fun (s' : CanBusService) (c : Sent) (hc : c.isRestart = false) =>
    (s'.beside_sendServiceCall hc).walk nodeId
  refine .kept ((hsend _ _ rfl).trans ?_)
  cases hnode : s.nodes.get n with
  | none => rfl
  | some node =>
    simp only
    rw [walk_putNode]
    split
    · next hn =>
      subst hn
      have hwalk : s.walk nodeId = some node.walk := congrArg (Option.map MutableNode.walk) hnode
      have hid : node.walk.nodeId = nodeId := hkeyed nodeId _ hwalk
      rw [hwalk]
      exact congrArg some (Walk.with_nodeId hid)
    · rfl

theorem handleGetSetResponse_walk (hkeyed : s.Keyed) (n : ℕ) {payload : Bytes}
    {response : DronecanGetSetResponse}
    (hresponse : decodeDronecanGetSetResponse payload = some response) (nodeId : ℕ) :
    (s.handleGetSetResponse n payload).walk nodeId =
      if nodeId = n then some (((s.walk n).getD (.unstarted n)).answer response.name)
      else s.walk nodeId := by
  have hknown := walk_known hkeyed n s.nowMs
  rw [handleGetSetResponse]
  simp only [hresponse]
  by_cases hn : nodeId = n
  case neg =>
    have hput : ∀ (t : CanBusService) (node : MutableNode), node.nodeId = n →
        (t.putNode node).walk nodeId = t.walk nodeId :=
      fun t node hid => (walk_putNode t node nodeId).trans (if_neg (hid ▸ hn))
    have hsave := fun t : CanBusService => (t.beside_saveParameters n).walk nodeId
    rw [if_neg hn]
    split
    · rw [hput _ _ rfl, hput _ _ rfl]
    split
    · rw [hput _ _ rfl]
      split
      · exact (hsave _).trans (hput _ _ rfl)
      · exact hput _ _ rfl
    · rw [walk_requestGetSet, hput _ _ rfl]
      split
      · exact (hsave _).trans (hput _ _ rfl)
      · exact hput _ _ rfl
  subst hn
  rw [if_pos rfl, Walk.answer, ← hknown]
  by_cases hname : response.name = ""
  · rw [if_pos hname, if_pos hname, walk_putNode, if_pos rfl]
    rfl
  rw [if_neg hname, if_neg hname]
  have hany : ((s.upsertNode nodeId).parameters.map fun entry => (entry.index, entry.name)).any
      (fun p => p.2 = response.name) =
      (s.upsertNode nodeId).parameters.any fun entry => entry.name = response.name := by
    rw [List.any_map]
    rfl
  simp only [MutableNode.walk, hany]
  split
  · rw [walk_putNode, if_pos rfl]
    simp only [MutableNode.walk, List.map_set, List.findIdx_map]
    rfl
  · rw [walk_requestGetSet, walk_putNode, if_pos rfl]
    simp only [MutableNode.walk, List.map_append]
    rfl


theorem nodes_restartNode (s : CanBusService) (n : ℕ) : (s.restartNode n).nodes = s.nodes := by
  rw [restartNode]
  split
  · rfl
  · obtain h | ⟨-, h⟩ := sendServiceCall_cases { s with error := none } (.restartNode n)
    · rw [h]
    · rw [h]
      rfl

theorem handleExecuteOpcodeResponse_walk (s : CanBusService) (n : ℕ) (payload : Bytes)
    (nodeId : ℕ) :
    WalkMove nodeId (s.walk nodeId) ((s.handleExecuteOpcodeResponse n payload).walk nodeId) := by
  rw [handleExecuteOpcodeResponse]
  split
  · exact .kept rfl
  split
  · exact .kept rfl
  simp only
  split
  · exact .kept (walk_of_nodes (nodes_restartNode _ n) nodeId)
  split
  · refine fetchAllParameters_walk ?_ n
    rfl
  · exact .kept rfl

/-! ## The poll timer -/

inductive Polled (a b : Option Walk) : Prop
  | kept (h : b = a)
  | stopped (w : Walk) (message : String) (ha : a = some w)
      (h : b = some { w with status := .complete, error := some message })

variable {node : MutableNode}

theorem serviceNode_walk (s : CanBusService) (hnode : s.walk node.nodeId = some node.walk) :
    Polled (s.walk node.nodeId) ((s.serviceNode node).walk node.nodeId) := by
  rw [serviceNode]
  simp only
  split
  · split
    · split
      · rw [walk_putNode, if_pos rfl]
        exact .stopped node.walk _ hnode rfl
      · rw [walk_requestGetSet, walk_putNode, if_pos rfl, hnode]
        exact .kept rfl
    · rw [walk_requestGetNodeInfo, walk_putNode, if_pos rfl, hnode]
      exact .kept rfl
  · split
    · split
      · rw [walk_putNode, if_pos rfl]
        exact .stopped node.walk _ hnode rfl
      · rw [walk_requestGetSet, walk_putNode, if_pos rfl, hnode]
        exact .kept rfl
    · rw [walk_putNode, if_pos rfl, hnode]
      exact .kept rfl

theorem serviceNode_walk_of_ne (s : CanBusService) (hne : nodeId ≠ node.nodeId) :
    (s.serviceNode node).walk nodeId = s.walk nodeId := by
  rw [serviceNode]
  simp only
  split_ifs <;>
    simp only [walk_putNode, walk_requestGetSet, walk_requestGetNodeInfo, hne, if_false]

theorem foldl_serviceNode_walk {nodes : List MutableNode}
    (hnodup : (nodes.map MutableNode.nodeId).Nodup)
    (hnodes : ∀ node ∈ nodes, s.walk node.nodeId = some node.walk) (nodeId : ℕ) :
    Polled (s.walk nodeId) ((nodes.foldl (fun s node => s.serviceNode node) s).walk nodeId) ∧
      (nodeId ∉ nodes.map MutableNode.nodeId →
        (nodes.foldl (fun s node => s.serviceNode node) s).walk nodeId = s.walk nodeId) := by
  induction nodes generalizing s with
  | nil => exact ⟨.kept rfl, fun _ => rfl⟩
  | cons node nodes ih =>
    rw [List.map_cons, List.nodup_cons] at hnodup
    obtain ⟨hfresh, hnodup⟩ := hnodup
    have hrest : ∀ node' ∈ nodes, (s.serviceNode node).walk node'.nodeId = some node'.walk := by
      intro node' hmem
      rw [serviceNode_walk_of_ne s fun heq => hfresh (heq ▸ List.mem_map_of_mem hmem)]
      exact hnodes node' (List.mem_cons_of_mem _ hmem)
    obtain ⟨hpolled, hkept⟩ := ih hnodup hrest
    rw [List.foldl_cons]
    constructor
    · by_cases hid : nodeId = node.nodeId
      · subst hid
        rw [hkept hfresh]
        exact s.serviceNode_walk (hnodes node List.mem_cons_self)
      · rwa [s.serviceNode_walk_of_ne hid] at hpolled
    · intro hmem
      rw [List.map_cons, List.mem_cons, not_or] at hmem
      rw [hkept hmem.2, s.serviceNode_walk_of_ne hmem.1]

theorem Keyed.of_nodes (hkeyed : s.Keyed) (h : t.nodes = s.nodes) : t.Keyed :=
  fun nodeId w hw => hkeyed nodeId w (walk_of_nodes h nodeId ▸ hw)

theorem tick_walk (hkeyed : s.Keyed) (nodeId : ℕ) :
    Polled (s.walk nodeId) (s.tick.walk nodeId) := by
  rw [tick]
  split
  · exact .kept rfl
  simp only
  have hbeside := (s.beside_keepForwarding.trans (beside_serviceFirmwareUpdate _)).trans
    (beside_foldl_serviceWrite _ s.keepForwarding.serviceFirmwareUpdate.pendingWrites.entries)
  generalize hu : List.foldl _ s.keepForwarding.serviceFirmwareUpdate
    s.keepForwarding.serviceFirmwareUpdate.pendingWrites.entries = u at hbeside ⊢
  have hnodes : ∀ e ∈ u.nodes.entries, e.2.nodeId = e.1 ∧ u.walk e.1 = some e.2.walk := by
    intro e he
    have hget := JsMap.mem_entries_iff.mp he
    have hwalk : u.walk e.1 = some e.2.walk := by rw [walk, hget, Option.map_some]
    exact ⟨hkeyed.of_nodes hbeside.nodes e.1 _ hwalk, hwalk⟩
  have hids : u.nodes.values.map MutableNode.nodeId = u.nodes.keys := by
    rw [JsMap.values, JsMap.keys, Entries.values, Entries.keys, List.map_map]
    exact List.map_congr_left fun e he => (hnodes e he).1
  rw [← hbeside.walk nodeId]
  refine (foldl_serviceNode_walk (hids ▸ u.nodes.nodup) ?_ nodeId).1
  intro node hnode
  obtain ⟨e, he, rfl⟩ := List.mem_map.mp hnode
  rw [(hnodes e he).1]
  exact (hnodes e he).2


/-! ## Runs -/

variable {b : Option Walk}

theorem Polled.move (h : Polled a b) : WalkMove nodeId a b := by
  cases h with
  | kept h => exact .kept h
  | stopped w message ha h => exact .stopped w message ha h

/-- An event moves a node's walk, or brings a GetSet response of the node. -/
inductive WalkStep (s : CanBusService) (e : Event) (t : CanBusService) (nodeId : ℕ) : Prop
  | moved (h : WalkMove nodeId (s.walk nodeId) (t.walk nodeId))
  | answered (message : CanFrameMessage) (name : String) (he : e = .frame message)
      (hresponse : s.paramResponse message = some (nodeId, name))
      (h : t.walk nodeId = some (((s.walk nodeId).getD (.unstarted nodeId)).answer name))

theorem frame_walk (hkeyed : s.Keyed) (message : CanFrameMessage) (nodeId : ℕ) :
    WalkStep s (.frame message) (s.processCanFrame message) nodeId := by
  have hmoves := frame_moves s message
  generalize s.processCanFrame message = t at hmoves
  cases hmoves with
  | ignored h => exact .moved (.kept rfl)
  | request h _ => exact .moved (.kept ((s.beside_handleAllocationRequest _).walk nodeId))
  | other n h => exact .moved (.kept ((s.beside_noteOtherAllocator n).walk nodeId))
  | piece r h => exact .moved (.kept rfl)
  | transfer r f _ hfinished =>
    have hresponse : s.paramResponse message =
        if f.context.isService = true ∧ f.context.isRequest ≠ some true ∧
            f.context.typeId = DRONECAN_PARAM_GETSET_SERVICE_ID then
          (decodeDronecanGetSetResponse f.payload).map fun response =>
            (f.context.sourceNodeId, response.name)
        else none := by
      rw [paramResponse, hfinished, Option.bind_some]
    have hkeyed' : Keyed { s with reassembler := r } := hkeyed.of_nodes rfl
    rw [handleTransfer]
    split
    · split
      · exact .moved (handleNodeStatus_walk hkeyed' _ _ nodeId)
      · exact .moved (.kept rfl)
    next hservice =>
    split
    · split
      · exact .moved (handleFileReadRequest_walk hkeyed' _ _ _ nodeId)
      · exact .moved (.kept rfl)
    next hrequest =>
    split
    · exact .moved (handleGetNodeInfoResponse_walk hkeyed' _ _ nodeId)
    split
    · next htype =>
      have hservice : f.context.isService = true := by simpa using hservice
      rw [if_pos ⟨hservice, hrequest, htype⟩] at hresponse
      cases hdecode : decodeDronecanGetSetResponse f.payload with
      | none =>
        refine .moved (.kept ?_)
        rw [handleGetSetResponse, hdecode]
        rfl
      | some response =>
        rw [hdecode, Option.map_some] at hresponse
        have hwalk := handleGetSetResponse_walk hkeyed' f.context.sourceNodeId hdecode nodeId
        by_cases hn : nodeId = f.context.sourceNodeId
        · subst hn
          rw [if_pos rfl] at hwalk
          exact .answered message response.name rfl hresponse hwalk
        · rw [if_neg hn] at hwalk
          exact .moved (.kept hwalk)
    split
    · exact .moved (handleExecuteOpcodeResponse_walk { s with reassembler := r } _ _ nodeId)
    split
    · exact .moved (.kept ((beside_handleBeginFirmwareUpdateResponse _ _ _).walk nodeId))
    · exact .moved (.kept rfl)

theorem settle_walk (s : CanBusService) (call : Awaiting) (failure : Option String) (nodeId : ℕ) :
    WalkMove nodeId (s.walk nodeId) ((s.settle call failure).walk nodeId) := by
  cases call with
  | stop next =>
    cases next with
    | none => exact .gone rfl
    | some bus => exact .gone ((s.clear.beside_requestForward bus).walk nodeId)
  | forward bus =>
    cases failure with
    | some message => exact .kept rfl
    | none => exact .gone rfl
  | writes n rest => exact .kept ((s.beside_sendWrites n rest).walk nodeId)
  | restart n newNodeId =>
    rw [settle]
    split
    · have hwalk : walk { s with nodes := s.nodes.delete n } nodeId =
          if nodeId = n then none else s.walk nodeId := by
        rw [walk, JsMap.get_delete]
        split <;> rfl
      by_cases hn : nodeId = n
      · exact .gone (hwalk.trans (if_pos hn))
      · exact .kept (hwalk.trans (if_neg hn))
    · exact .kept rfl

theorem walk_moves (hkeyed : s.Keyed) {e : Event} (h : step s e = some t) (nodeId : ℕ) :
    WalkStep s e t nodeId := by
  cases e with
  | frame message =>
    cases h
    exact frame_walk hkeyed message nodeId
  | tick =>
    cases h
    exact .moved (tick_walk hkeyed nodeId).move
  | settle i failure =>
    obtain ⟨call, -, rfl⟩ := Option.map_eq_some_iff.mp h
    exact .moved (settle_walk { s with awaiting := s.awaiting.eraseIdx i } call failure nodeId)
  | saveAckTimeout n =>
    rw [step] at h
    split at h
    · cases h
      exact .moved (.kept ((s.beside_onSaveAckTimeout n).walk nodeId))
    · cases h
  | reset =>
    cases h
    exact .moved (.gone rfl)
  | fetchAllParameters n =>
    cases h
    exact .moved (fetchAllParameters_walk rfl n)
  | restartNode n =>
    cases h
    exact .moved (.kept (walk_of_nodes (s.nodes_restartNode n) nodeId))
  | changeNodeId n newNodeId =>
    cases h
    refine .moved (.kept ?_)
    rw [changeNodeId]
    split
    · rfl
    · exact (beside_applyAndSave _ _ _).walk nodeId
  | clock | forgetAllocations =>
    cases h
    exact .moved (.kept rfl)
  | start bus =>
    cases h
    exact .moved (.kept ((s.beside_start bus).walk nodeId))
  | stop =>
    cases h
    exact .moved (.kept (s.beside_stop.walk nodeId))
  | refreshNode n =>
    cases h
    exact .moved (.kept ((s.beside_refreshNode n).walk nodeId))
  | writeParameter n name value =>
    cases h
    exact .moved (.kept ((s.beside_writeParameter n name value).walk nodeId))
  | applyAndSave n writes =>
    cases h
    exact .moved (.kept ((s.beside_applyAndSave n writes).walk nodeId))
  | saveParameters n =>
    cases h
    exact .moved (.kept ((s.beside_saveParameters n).walk nodeId))
  | setAllocatorEnabled enabled seed =>
    cases h
    exact .moved (.kept ((s.beside_setAllocatorEnabled enabled seed).walk nodeId))
  | startFirmwareUpdate n fileName image =>
    cases h
    exact .moved (.kept ((s.beside_startFirmwareUpdate n fileName image).walk nodeId))
  | cancelFirmwareUpdate =>
    cases h
    exact .moved (.kept (s.beside_cancelFirmwareUpdate.walk nodeId))


/-! ## The walk as it is reported -/

variable (list : ℕ → ParameterNames)

/-- A GetSet response that an event brings is as `C` has it. -/
def Responds (C : CanBusService → ℕ → String → Bool) (s : CanBusService) : Event → Prop
  | .frame message => (s.paramResponse message).all (fun (nodeId, name) => C s nodeId name) = true
  | _ => True

instance (C : CanBusService → ℕ → String → Bool) (s : CanBusService) : DecidablePred (Responds C s)
  | .frame _ => inferInstanceAs (Decidable (_ = true))
  | .clock _ | .tick | .saveAckTimeout _ | .settle .. | .start _ | .stop | .reset | .refreshNode _
  | .restartNode _ | .fetchAllParameters _ | .writeParameter .. | .applyAndSave ..
  | .changeNodeId .. | .saveParameters _ | .setAllocatorEnabled .. | .forgetAllocations
  | .startFirmwareUpdate .. | .cancelFirmwareUpdate => isTrue trivial

/-- A GetSet response of a node whose walk is under way is the one to the index asked for, and comes
only once the walk has begun. -/
abbrev Expects : CanBusService → Event → Prop :=
  Responds fun s nodeId name =>
    ((s.walk nodeId).getD (.unstarted nodeId)).expects (list nodeId).names name

abbrev Unechoed : CanBusService → Event → Prop :=
  Responds fun s nodeId name =>
    decide (name = "") || decide ((s.walk nodeId).map Walk.status ≠ some .complete)

/-- A GetSet response names a parameter of the node, or is the end of its list. -/
abbrev Genuine : CanBusService → Event → Prop :=
  Responds fun _ nodeId name => decide (name = "" ∨ name ∈ (list nodeId).names)

def EndsComplete (s t : CanBusService) (nodeId : ℕ) : Prop :=
  (∃ w, t.walk nodeId = some w ∧ w.Reported) ∧ ¬ ∃ w, s.walk nodeId = some w ∧ w.status = .complete

def Walks (s : CanBusService) : Prop := ∀ nodeId w, s.walk nodeId = some w →
  WalkInv (list nodeId) nodeId w

variable {list} {e : Event}

theorem Walks.keyed (h : Walks list s) : s.Keyed := fun nodeId w hw => (h nodeId w hw).keyed

theorem walkInv_move (ha : ∀ w, a = some w → WalkInv (list nodeId) nodeId w)
    (h : WalkMove nodeId a b) {w : Walk} (hb : b = some w) : WalkInv (list nodeId) nodeId w := by
  cases h with
  | kept h => exact ha w (h ▸ hb)
  | gone h => cases hb.symm.trans h
  | heard h =>
    obtain rfl := Option.some.inj (hb.symm.trans h)
    exact walkInv_unstarted
  | begun hidle h =>
    obtain rfl := Option.some.inj (hb.symm.trans h)
    exact (walkInv_getD ha).begun hidle none
  | refetched h =>
    obtain rfl := Option.some.inj (hb.symm.trans h)
    exact walkInv_unstarted.begun rfl none
  | stopped v message hv h =>
    obtain rfl := Option.some.inj (hb.symm.trans h)
    exact walkInv_complete (ha v hv).keyed rfl

theorem walks_step (hs : Walks list s) (hcond : Expects list s e) (h : step s e = some t) :
    Walks list t := by
  intro nodeId w hw
  cases walk_moves hs.keyed h nodeId with
  | moved hmove => exact walkInv_move (hs nodeId) hmove hw
  | answered message name he hresponse hwalk =>
    subst he
    obtain rfl := Option.some.inj (hw.symm.trans hwalk)
    rw [Expects, Responds, hresponse] at hcond
    exact (walkInv_getD (hs nodeId)).answer hcond

theorem not_completes (h : WalkMove nodeId a b) (ha : ¬ ∃ w, a = some w ∧ w.status = .complete) :
    ¬ ∃ w, b = some w ∧ w.Reported := by
  rintro ⟨w, hb, hstatus, herror⟩
  cases h with
  | kept h => exact ha ⟨w, h ▸ hb, hstatus⟩
  | gone h => cases hb.symm.trans h
  | heard h | begun _ h | refetched h =>
    obtain rfl := Option.some.inj (hb.symm.trans h)
    cases hstatus
  | stopped v message hv h =>
    obtain rfl := Option.some.inj (hb.symm.trans h)
    cases herror

theorem completes_table (hs : Walks list s) (hcond : Expects list s e) (h : step s e = some t)
    (hcompletes : EndsComplete s t nodeId) :
    ∃ w, t.walk nodeId = some w ∧ w.parameters = (list nodeId).table := by
  cases walk_moves hs.keyed h nodeId with
  | moved hmove => exact absurd hcompletes.1 (not_completes hmove hcompletes.2)
  | answered message name he hresponse hwalk =>
    subst he
    rw [Expects, Responds, hresponse] at hcond
    obtain ⟨w, hw, hreported⟩ := hcompletes.1
    obtain rfl := Option.some.inj (hw.symm.trans hwalk)
    refine ⟨_, hw, (walkInv_getD (hs nodeId)).finished hcond ?_ hreported.1⟩
    intro hstatus
    cases hbefore : s.walk nodeId with
    | none =>
      rw [hbefore] at hstatus
      cases hstatus
    | some v =>
      rw [hbefore] at hstatus
      exact hcompletes.2 ⟨v, hbefore, hstatus⟩

theorem walks_initial (nowMs : ℕ) : Walks list (initial nowMs) := by
  intro nodeId w hw
  cases hw

/-- Wherever a walk is reported complete, it has found the node's parameters. -/
def Listed (list : ℕ → ParameterNames) (s : CanBusService) : Prop :=
  ∀ nodeId w, s.walk nodeId = some w → w.Reported → w.parameters = (list nodeId).table

theorem listed_initial (nowMs : ℕ) : Listed list (initial nowMs) := by
  intro nodeId w hw
  cases hw

theorem listed_step (hs : Walks list s) (hlisted : Listed list s) (hcond : Expects list s e)
    (hecho : Unechoed s e) (h : step s e = some t) : Listed list t := by
  intro nodeId w hw hreported
  by_cases hbefore : ∃ v, s.walk nodeId = some v ∧ v.status = .complete
  · obtain ⟨v, hv, hstatus⟩ := hbefore
    cases walk_moves hs.keyed h nodeId with
    | moved hmove =>
      cases hmove with
      | kept hkept => exact hlisted nodeId w (hkept ▸ hw) hreported
      | gone hgone => cases hw.symm.trans hgone
      | heard h | begun _ h | refetched h =>
        obtain rfl := Option.some.inj (hw.symm.trans h)
        cases hreported.1
      | stopped v message hv h =>
        obtain rfl := Option.some.inj (hw.symm.trans h)
        cases hreported.2
    | answered message name he hresponse hwalk =>
      subst he
      rw [Unechoed, Responds, hresponse] at hecho
      simp only [Option.all_some, hv, Option.map_some, hstatus, ne_eq, not_true_eq_false,
        decide_false, Bool.or_false, decide_eq_true_eq] at hecho
      rw [hv, Option.getD_some, Walk.answer, if_pos hecho] at hwalk
      obtain rfl := Option.some.inj (hw.symm.trans hwalk)
      exact hlisted nodeId v hv ⟨hstatus, hreported.2⟩
  · obtain ⟨v, hv, htable⟩ := completes_table hs hcond h ⟨⟨w, hw, hreported⟩, hbefore⟩
    obtain rfl := Option.some.inj (hw.symm.trans hv)
    exact htable

/-- In a run in which the responses of a node are the answers to the indexes asked for, a walk that
is reported complete has found each parameter once, under its own index. So it stays, for as long as
no write of the node is echoed. -/
theorem walk_finds_parameters {nowMs : ℕ} {es : List Event}
    (h : run step (initial nowMs) es = some s)
    (hcond : Along step (Expects list) (initial nowMs) es) :
    (∀ e t nodeId, Expects list s e → step s e = some t → EndsComplete s t nodeId →
      ∃ w, t.walk nodeId = some w ∧ w.parameters = (list nodeId).table) ∧
    (Along step Unechoed (initial nowMs) es → Listed list s) := by
  have hwalks : Walks list s :=
    run_invariant_along (fun s e t hs hcond h => walks_step hs hcond h) (walks_initial nowMs) hcond h
  constructor
  · intro e t nodeId hexpects hstep hcompletes
    exact completes_table hwalks hexpects hstep hcompletes
  · intro hecho
    have hboth : Walks list s ∧ Listed list s :=
      run_invariant_along (I := fun s => Walks list s ∧ Listed list s)
        (fun s e t hs hcond h => ⟨walks_step hs.1 hcond.1 h, listed_step hs.1 hs.2 hcond.1 hcond.2 h⟩)
        ⟨walks_initial nowMs, listed_initial nowMs⟩ (hcond.and hecho) h
    exact hboth.2


def threeNames : ParameterNames where
  names := ["A", "B", "C"]
  nodup := by decide
  named := by decide

def nodeSeenFrame : CanFrameMessage where
  len := 8
  id := CAN_FRAME_FLAG_EFF + (DRONECAN_NODE_STATUS_DT_ID <<< 8) + 50
  data := [0, 0, 0, 0, 0, 0, 0, 0xc0]

def paramFrame (name : Bytes) : CanFrameMessage where
  len := name.length + 5
  id := CAN_FRAME_FLAG_EFF + (DRONECAN_PARAM_GETSET_SERVICE_ID <<< 16) +
    (GCS_DRONECAN_NODE_ID <<< 8) + 0x80 + 50
  data := [0, 0, 0, 0] ++ name ++ [0xc0]

def plainWalk : List Event :=
  [.start 1, .settle 0 none, .frame nodeSeenFrame, .frame (paramFrame [0x41]),
    .frame (paramFrame [0x42]), .frame (paramFrame [0x43])]

/-- Once the first parameter is there the third is written, and the node echoes the write before it
answers for the second. -/
def walkWithWrite : List Event :=
  [.start 1, .settle 0 none, .frame nodeSeenFrame, .frame (paramFrame [0x41]),
    .writeParameter 50 "C" (.int64 1), .frame (paramFrame [0x43]), .frame (paramFrame [0x42]),
    .frame (paramFrame [0x43])]


/-- The end of the list completes the walk of node 50, which has found the parameters. -/
def completesWith (es : List Event) (parameters : List (ℕ × String)) : Bool :=
  (run step (initial 0) es).any fun s =>
    (step s (.frame (paramFrame []))).any fun t =>
      decide ((s.walk 50).map Walk.status = some .fetching) &&
        decide ((t.walk 50).map (fun w => (w.parameters, w.status, w.error)) =
          some (parameters, .complete, none))

theorem exists_of_completesWith {es : List Event} {parameters : List (ℕ × String)}
    (h : completesWith es parameters = true) :
    ∃ s t w, run step (initial 0) es = some s ∧ step s (.frame (paramFrame [])) = some t ∧
      EndsComplete s t 50 ∧ t.walk 50 = some w ∧ w.parameters = parameters := by
  obtain ⟨s, hrun, h⟩ := (Option.any_eq_true _ _).mp h
  obtain ⟨t, hstep, h⟩ := (Option.any_eq_true _ _).mp h
  simp only [Bool.and_eq_true, decide_eq_true_eq] at h
  obtain ⟨hbefore, hafter⟩ := h
  obtain ⟨v, hv, hfetching⟩ := Option.map_eq_some_iff.mp hbefore
  obtain ⟨w, hw, hfound⟩ := Option.map_eq_some_iff.mp hafter
  obtain ⟨hparameters, hstatus, herror⟩ : w.parameters = parameters ∧ w.status = .complete ∧
      w.error = none := by simpa using hfound
  refine ⟨s, t, w, hrun, hstep, ⟨⟨w, hw, hstatus, herror⟩, ?_⟩, hw, hparameters⟩
  rintro ⟨u, hu, hcomplete⟩
  obtain rfl := Option.some.inj (hv.symm.trans hu)
  cases hfetching.symm.trans hcomplete

theorem plain_walk_finds_parameters : ∃ s t, run step (initial 0) plainWalk = some s ∧
    step s (.frame (paramFrame [])) = some t ∧ EndsComplete s t 50 ∧
    ∃ w, t.walk 50 = some w ∧ w.parameters = threeNames.table := by
  obtain ⟨s, t, -, hrun, hstep, hcompletes, -, -⟩ :=
    @exists_of_completesWith plainWalk threeNames.table (by decide +kernel)
  have hcond : Along step (Expects fun _ => threeNames) (initial 0)
      (plainWalk ++ [.frame (paramFrame [])]) := by decide +kernel
  rw [along_append _ hrun] at hcond
  exact ⟨s, t, hrun, hstep, hcompletes,
    (walk_finds_parameters hrun hcond.1).1 _ t 50 hcond.2.1 hstep hcompletes⟩

/-- The echo of a write is taken for the second parameter, the second for the third, and the answer
for the third is recorded under an index the node does not have. -/
theorem write_echo_shifts_indexes : ¬ ∀ (list : ℕ → ParameterNames) nowMs es e s t nodeId,
    run step (initial nowMs) es = some s → step s e = some t →
    Along step (Genuine list) (initial nowMs) (es ++ [e]) → EndsComplete s t nodeId →
    ∃ w, t.walk nodeId = some w ∧ w.parameters = (list nodeId).table := by
  intro h
  obtain ⟨s, t, w, hrun, hstep, hcompletes, hw, hparameters⟩ :=
    @exists_of_completesWith walkWithWrite [(0, "A"), (3, "C"), (2, "B")] (by decide +kernel)
  obtain ⟨v, hv, htable⟩ := h (fun _ => threeNames) 0 walkWithWrite _ s t 50 hrun hstep
    (by decide +kernel) hcompletes
  obtain rfl := Option.some.inj (hw.symm.trans hv)
  rw [hparameters] at htable
  exact absurd htable (by decide)

end CanBusService
end ArduConfigurator.CanBus
