import ArduConfigurator.Runtime.AliasRouting

/-! # Parameter sync

The download of the vehicle's parameter table over links that come and go: what counts towards it,
the table that a dropped link leaves on screen, and the download that takes it up again. -/
namespace ArduConfigurator.Runtime
open Parameters
set_option autoImplicit false

/-! ## Vehicles -/

def ARDUPILOTMEGA : ℕ := 3

def ARDUCOPTER_MAV_TYPES : List ℕ := [2, 3, 13, 14, 15, 4, 29, 35]

def ARDUPLANE_MAV_TYPES : List ℕ := [1, 19, 20, 21, 22, 23, 24, 25]

def ARDUROVER_MAV_TYPES : List ℕ := [10, 11]

def ARDUSUB_MAV_TYPES : List ℕ := [12]

inductive VehicleKind
  | ArduCopter
  | ArduPlane
  | ArduRover
  | ArduSub
  | Unknown
  deriving DecidableEq

structure HeartbeatMessage where
  vehicleType : ℕ
  autopilot : ℕ

/-- What a retained table is bound to; the firmware is ArduPilot in all. -/
structure VehicleIdentity where
  vehicle : VehicleKind
  systemId : ℕ
  componentId : ℕ
  deriving DecidableEq

def isAuthoritativeHeartbeat (message : HeartbeatMessage) : Bool :=
  message.autopilot = ARDUPILOTMEGA

def createVehicleIdentity (message : HeartbeatMessage) (systemId componentId : ℕ) :
    VehicleIdentity where
  vehicle :=
    if message.vehicleType ∈ ARDUCOPTER_MAV_TYPES then .ArduCopter
    else if message.vehicleType ∈ ARDUPLANE_MAV_TYPES then .ArduPlane
    else if message.vehicleType ∈ ARDUROVER_MAV_TYPES then .ArduRover
    else if message.vehicleType ∈ ARDUSUB_MAV_TYPES then .ArduSub
    else .Unknown
  systemId := systemId
  componentId := componentId

/-! ## The data -/

def PARAMETER_SYNC_BACKOFF_AFTER_PASSES : ℕ := 3

def PARAMETER_CARRY_OVER_TTL_MS : ℕ := 600000

def MAX_PARAMETER_GAP_FILL_PER_PASS : ℕ := 256

def MIN_MISSING_FOR_FRACTION_RESTREAM : ℕ := 64

def NO_INDEX : ℕ := 65535

inductive SyncStatus
  | idle
  | awaitingVehicle
  | requesting
  | streaming
  | complete
  deriving DecidableEq

def SyncStatus.live : SyncStatus → Bool
  | .requesting | .streaming => true
  | .idle | .awaitingVehicle | .complete => false

structure ParameterSyncState where
  status : SyncStatus
  downloaded : ℕ
  total : ℕ
  duplicateFrames : ℕ

def createIdleParameterSync : ParameterSyncState := ⟨.idle, 0, 0, 0⟩

structure StaleLink where
  key : VehicleIdentity
  sinceMs : ℕ
  downloaded : ℕ
  total : ℕ

inductive SyncRequest
  | list
  | read (paramIndex : ℕ)

inductive Sender
  | request
  | retry

/-- The timer that recovers a stalled download, and the requests that are being sent. -/
structure SyncRetry where
  timer : Bool
  count : ℕ
  lastDownloaded : ℕ
  gapFillActive : Bool
  sending : List Sender
  sent : List SyncRequest

/-- The part of the runtime that the download touches. `listRequests` are the calls that wait for a
vehicle, each with its `fresh` option. `link` numbers the links; `identified`, `receivedOn` and
`received` record which vehicles each was identified as, and on which link and with which value the
entries of the table were received. -/
structure ParameterRuntime where
  writes : Writes
  vehicle : Option VehicleIdentity
  receivedParameterIndices : List ℕ
  totalParameters : ℕ
  parameterTableGrewDuringSync : Bool
  parameterSync : ParameterSyncState
  parameterSyncRetry : SyncRetry
  staleLink : Option StaleLink
  listRequests : List Bool
  linkUp : Bool
  link : ℕ
  identified : List (ℕ × VehicleIdentity)
  receivedOn : Text → ℕ
  received : Text → Option JsNumber

namespace ParameterRuntime

def initial : ParameterRuntime where
  writes := Writes.initial
  vehicle := none
  receivedParameterIndices := []
  totalParameters := 0
  parameterTableGrewDuringSync := false
  parameterSync := createIdleParameterSync
  parameterSyncRetry := ⟨false, 0, 0, false, [], []⟩
  staleLink := none
  listRequests := []
  linkUp := false
  link := 0
  identified := []
  receivedOn := fun _ => 0
  received := fun _ => none

variable (metadata : Text → Option ParameterDefinition) (r : ParameterRuntime)

def downloaded : ℕ := r.writes.realParameterIdsReceived.length

/-! ## Requests and retries -/

def clearParameterSyncRetryTimer : ParameterRuntime :=
  { r with parameterSyncRetry := { r.parameterSyncRetry with timer := false } }

def scheduleParameterSyncRetry : ParameterRuntime :=
  { r with
    parameterSyncRetry := { r.parameterSyncRetry with timer := r.parameterSync.status.live } }

def send (sender : Sender) (requests : List SyncRequest) : ParameterRuntime :=
  { r with
    parameterSyncRetry :=
      { r.parameterSyncRetry with
        sending := r.parameterSyncRetry.sending ++ [sender]
        sent := r.parameterSyncRetry.sent ++ requests } }

def requestParameterTable (sender : Sender) : ParameterRuntime := r.send sender [.list]

def requestMissingParameters (sender : Sender) (indices : List ℕ) : ParameterRuntime :=
  r.send sender ((indices.take MAX_PARAMETER_GAP_FILL_PER_PASS).map .read)

def missingParameterIndices : List ℕ :=
  (List.range r.totalParameters).filter (· ∉ r.receivedParameterIndices)

def sendSettled (sender : Sender) (sending : List Sender) (succeeded : Bool) : ParameterRuntime :=
  let r := { r with parameterSyncRetry := { r.parameterSyncRetry with sending := sending } }
  match sender, succeeded with
  | .request, false => r
  | .request, true | .retry, _ => r.scheduleParameterSyncRetry

def gapTooLargeToFill (missing : ℕ) : Bool :=
  r.parameterTableGrewDuringSync ∨ MAX_PARAMETER_GAP_FILL_PER_PASS < missing ∨
    (0 < r.totalParameters ∧ MIN_MISSING_FOR_FRACTION_RESTREAM ≤ missing ∧
      r.totalParameters < 5 * missing)

def retryParameterSync : ParameterRuntime :=
  let downloaded := r.downloaded
  let madeProgress := r.parameterSyncRetry.lastDownloaded < downloaded
  let retry :=
    { r.parameterSyncRetry with
      timer := false
      count := if madeProgress then 0 else r.parameterSyncRetry.count
      lastDownloaded := downloaded }
  if r.vehicle = none ∨ r.parameterSync.status.live = false ∨
      (r.totalParameters ≤ downloaded ∧ 0 < r.totalParameters) then
    { r with parameterSyncRetry := retry }
  else
    let missing := r.missingParameterIndices
    let gapFillStalled := r.parameterSyncRetry.gapFillActive ∧ ¬ madeProgress
    let canGapFill : Bool := 0 < r.totalParameters ∧ 0 < downloaded ∧ 0 < missing.length ∧
      ¬ gapFillStalled ∧ r.gapTooLargeToFill missing.length = false
    let r := { r with
      parameterSyncRetry := { retry with count := retry.count + 1, gapFillActive := canGapFill } }
    if canGapFill then r.requestMissingParameters .retry missing else r.requestParameterTable .retry

/-! ## The retained table -/

def markStaleLink (nowMs : ℕ) : ParameterRuntime :=
  { r with
    staleLink :=
      match r.vehicle with
      | none => r.staleLink
      | some vehicle =>
        if r.writes.parameters.size = 0 then r.staleLink
        else some ⟨vehicle, nowMs, r.downloaded, r.totalParameters⟩ }

def discardStaleLink : ParameterRuntime :=
  { r with
    writes := r.writes.clearTable
    receivedParameterIndices := []
    totalParameters := 0
    parameterTableGrewDuringSync := false
    staleLink := none }

def canResumeStaleLink (vehicle : VehicleIdentity) (nowMs : ℕ) : Bool :=
  r.staleLink.any fun stale => stale.key = vehicle ∧ 0 < stale.total ∧
    stale.downloaded < stale.total ∧ nowMs ≤ stale.sinceMs + PARAMETER_CARRY_OVER_TTL_MS

def resetLiveState (nowMs : ℕ) : ParameterRuntime :=
  let r := r.markStaleLink nowMs
  { r with
    writes := { r.writes with vehicle := none, parameterSyncResumedTotal := none }
    vehicle := none
    parameterTableGrewDuringSync := false
    parameterSync := createIdleParameterSync
    parameterSyncRetry :=
      { r.parameterSyncRetry with
        timer := false, count := 0, lastDownloaded := 0, gapFillActive := false } }

/-! ## Downloads -/

def startDownload (vehicle : VehicleIdentity) (nowMs : ℕ) (fresh : Bool) : ParameterRuntime :=
  let resumedFrom : Option StaleLink :=
    if !fresh && r.canResumeStaleLink vehicle nowMs then r.staleLink else none
  let r := if resumedFrom.isSome then r else r.discardStaleLink
  let downloaded := (resumedFrom.map StaleLink.downloaded).getD 0
  let r := { r with
    staleLink := none
    writes := { r.writes with parameterSyncResumedTotal := resumedFrom.map StaleLink.total }
    parameterSync := ⟨.requesting, downloaded, (resumedFrom.map StaleLink.total).getD 0, 0⟩
    parameterSyncRetry :=
      { r.parameterSyncRetry with
        timer := false, count := 0, lastDownloaded := downloaded, gapFillActive := false } }
  if resumedFrom.isSome ∧ r.missingParameterIndices.length ≤ MAX_PARAMETER_GAP_FILL_PER_PASS then
    { r with parameterSyncRetry := { r.parameterSyncRetry with gapFillActive := true } }
      |>.requestMissingParameters .request r.missingParameterIndices
  else r.requestParameterTable .request

def requestParameterList (fresh : Bool) (nowMs : ℕ) : ParameterRuntime :=
  match r.vehicle with
  | some vehicle => r.startDownload vehicle nowMs fresh
  | none =>
    { r with
      listRequests := r.listRequests ++ [fresh]
      parameterSync :=
        if r.parameterSync.status = .idle then { r.parameterSync with status := .awaitingVehicle }
        else r.parameterSync }

/-! ## Heartbeats -/

def isForeign (systemId componentId : ℕ) : Bool :=
  r.vehicle.any fun vehicle => vehicle.systemId ≠ systemId ∨ vehicle.componentId ≠ componentId

def identify (vehicle : VehicleIdentity) : ParameterRuntime :=
  let r := { r with
    vehicle := some vehicle
    writes := { r.writes with vehicle := some ⟨vehicle.systemId, vehicle.componentId⟩ }
    identified := (r.link, vehicle) :: r.identified }
  if r.staleLink.any fun stale => stale.key ≠ vehicle then r.discardStaleLink else r

def greet : ParameterRuntime :=
  let parameterSync :=
    if r.parameterSync.status = .awaitingVehicle then createIdleParameterSync else r.parameterSync
  { r with
    parameterSync := parameterSync
    parameterSyncRetry :=
      { r.parameterSyncRetry with timer := r.parameterSyncRetry.timer || parameterSync.status.live }
    listRequests := [] }

def processHeartbeat (message : HeartbeatMessage) (systemId componentId nowMs : ℕ) :
    ParameterRuntime :=
  if isAuthoritativeHeartbeat message = false ∨ r.isForeign systemId componentId then r
  else
    let vehicle := createVehicleIdentity message systemId componentId
    let r := r.identify vehicle
    r.listRequests.foldl (fun r fresh => r.startDownload vehicle nowMs fresh) r.greet

/-! ## Streamed values -/

def reconcileResumedParameterTable (paramCount : ℕ) : ParameterRuntime :=
  match r.writes.parameterSyncResumedTotal with
  | none => r
  | some resumedTotal =>
    let r := { r with writes := r.writes.reconcileResumedParameterTable paramCount }
    if paramCount = resumedTotal then r
    else
      let r := { r with
        receivedParameterIndices := []
        totalParameters := 0
        parameterTableGrewDuringSync := false
        parameterSync :=
          { r.parameterSync with status := .requesting, downloaded := 0, total := 0 }
        parameterSyncRetry :=
          { r.parameterSyncRetry with lastDownloaded := 0, gapFillActive := false } }
      if r.vehicle.isSome then r.requestParameterTable .request else r

def addIndex (paramIndex paramCount : ℕ) : List ℕ :=
  if paramIndex ≠ NO_INDEX ∧ paramIndex < paramCount ∧
      paramIndex ∉ r.receivedParameterIndices then r.receivedParameterIndices ++ [paramIndex]
  else r.receivedParameterIndices

def noteCount (paramCount : ℕ) : ParameterRuntime :=
  if 0 < r.totalParameters ∧ r.totalParameters < paramCount then
    { r with
      receivedParameterIndices := []
      parameterTableGrewDuringSync := true
      totalParameters := paramCount }
  else { r with totalParameters := paramCount }

def store (message : ParamValueMessage) : ParameterRuntime :=
  { r with
    writes := r.writes.processParamValue metadata message
    receivedOn := fun id =>
      if id = message.paramId ∨ aliasMirror message.paramId = some id then r.link
      else r.receivedOn id
    received := fun id =>
      if id = message.paramId then some message.paramValue else r.received id }

/-- Once complete, the download stays so; only streamed names count towards the total. -/
def progress (known : Bool) : ParameterRuntime :=
  let isComplete := 0 < r.totalParameters ∧ r.totalParameters ≤ r.downloaded
  let nextStatus :=
    if isComplete ∨ r.parameterSync.status = .complete then .complete
    else if 0 < r.downloaded then .streaming
    else r.parameterSync.status
  let r := { r with
    parameterSync := ⟨nextStatus, r.downloaded, r.totalParameters,
      r.parameterSync.duplicateFrames + if known then 1 else 0⟩ }
  if isComplete then
    { r with parameterSyncRetry := { r.parameterSyncRetry with timer := false, count := 0 } }
  else if r.parameterSync.status = .complete then r
  else r.scheduleParameterSyncRetry

def processParamValue (message : ParamValueMessage) : ParameterRuntime :=
  let r := r.reconcileResumedParameterTable message.paramCount
  let known := message.paramId ∈ r.writes.realParameterIdsReceived
  let r := r.noteCount message.paramCount
  let r := { r with
    receivedParameterIndices := r.addIndex message.paramIndex message.paramCount }
  (r.store metadata message).progress known

end ParameterRuntime

/-! ## Runs -/

inductive SyncEvent
  | linkOpened
  | linkClosed (nowMs : ℕ)
  | reset (nowMs : ℕ)
  | discardRetainedParameters
  | heartbeat (message : HeartbeatMessage) (systemId componentId nowMs : ℕ)
  | paramValue (message : ParamValueMessage)
  | requestParameterList (fresh : Bool) (nowMs : ℕ)
  | requestTimedOut (index : ℕ)
  | sendSettled (succeeded : Bool)
  | retryTimer

/-- Messages come while the link is up. `reset` is what `connect` and `disconnect` do themselves, and
the retained table is discarded on purpose only after a disconnect. -/
def ParameterRuntime.step (metadata : Text → Option ParameterDefinition) (r : ParameterRuntime) :
    SyncEvent → Option ParameterRuntime
  | .linkOpened => if r.linkUp then none else some { r with linkUp := true, link := r.link + 1 }
  | .linkClosed nowMs =>
    if r.linkUp then some { r.resetLiveState nowMs with linkUp := false, listRequests := [] }
    else none
  | .reset nowMs => some (r.resetLiveState nowMs)
  | .discardRetainedParameters => if r.linkUp then none else some r.discardStaleLink
  | .heartbeat message systemId componentId nowMs =>
    if r.linkUp then some (r.processHeartbeat message systemId componentId nowMs) else none
  | .paramValue message => if r.linkUp then some (r.processParamValue metadata message) else none
  | .requestParameterList fresh nowMs => some (r.requestParameterList fresh nowMs)
  | .requestTimedOut index => some { r with listRequests := r.listRequests.eraseIdx index }
  | .sendSettled succeeded =>
    match r.parameterSyncRetry.sending with
    | [] => none
    | sender :: sending => some (r.sendSettled sender sending succeeded)
  | .retryTimer => if r.parameterSyncRetry.timer then some r.retryParameterSync else none

end ArduConfigurator.Runtime
