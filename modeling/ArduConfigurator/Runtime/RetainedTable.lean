import ArduConfigurator.Runtime.ParameterSync

/-! # The retained table

Which vehicle the values on screen came from: what keeps a table that outlives its link from being
shown with another vehicle, and where it is not kept from it. -/
namespace ArduConfigurator.Runtime
open Parameters Runs
set_option autoImplicit false

namespace ParameterRuntime
variable {metadata : Text → Option ParameterDefinition} {r : ParameterRuntime}

def shown (r : ParameterRuntime) : List Text := r.writes.parameters.keys

/-- Every value that is shown with a vehicle was received on a link identified as it. -/
def Unmixed (r : ParameterRuntime) : Prop :=
  ∀ vehicle ∈ r.vehicle, ∀ id ∈ r.shown, (r.receivedOn id, vehicle) ∈ r.identified

/-- The marker of the retained table names a vehicle that the link was identified as. -/
def Marked (r : ParameterRuntime) (link : ℕ) : Prop :=
  ∃ stale ∈ r.staleLink, (link, stale.key) ∈ r.identified

/-- A link that ends without a vehicle leaves no value of its own that the marker does not name, and
an identified vehicle changes its kind only while no unmarked value of an earlier link is there. -/
def Attributed (r : ParameterRuntime) : SyncEvent → Prop
  | .linkClosed _ =>
    r.vehicle = none → ∀ id ∈ r.shown, r.receivedOn id = r.link → r.Marked r.link
  | .heartbeat message systemId componentId _ =>
    isAuthoritativeHeartbeat message = true → r.isForeign systemId componentId = false →
      ∀ vehicle ∈ r.vehicle, createVehicleIdentity message systemId componentId ≠ vehicle →
        r.staleLink = none → ∀ id ∈ r.shown, r.receivedOn id = r.link
  | _ => True

/-! ## The invariant -/

structure Sourced (r : ParameterRuntime) : Prop where
  down : r.linkUp = false → r.vehicle = none
  here : ∀ vehicle ∈ r.vehicle, (r.link, vehicle) ∈ r.identified
  marker : ∀ vehicle ∈ r.vehicle, ∀ stale ∈ r.staleLink, stale.key = vehicle
  unmixed : r.Unmixed
  retained : r.vehicle = none → ∀ id ∈ r.shown,
    (r.linkUp = true ∧ r.receivedOn id = r.link) ∨ r.Marked (r.receivedOn id)

theorem sourced_initial : initial.Sourced where
  down _ := rfl
  here vehicle hvehicle := by cases hvehicle
  marker vehicle hvehicle := by cases hvehicle
  unmixed vehicle hvehicle := by cases hvehicle
  retained _ _ hid := absurd hid List.not_mem_nil

theorem not_mem_shown_discard (id : Text) : id ∉ r.discardStaleLink.shown := List.not_mem_nil

theorem Sourced.discardStaleLink (h : r.Sourced) : r.discardStaleLink.Sourced where
  down := h.down
  here := h.here
  marker _ _ _ hstale := by cases hstale
  unmixed _ _ id hid := absurd hid (not_mem_shown_discard id)
  retained _ id hid := absurd hid (not_mem_shown_discard id)

/-! ## Links -/

variable {id : Text}

theorem size_ne_zero_of_shown (hid : id ∈ r.shown) :
    r.writes.parameters.size ≠ 0 := by
  rw [JsMap.size_eq_length_keys]
  exact (List.length_pos_of_mem hid).ne'

theorem markStaleLink_none (nowMs : ℕ) (hvehicle : r.vehicle = none) :
    (r.markStaleLink nowMs).staleLink = r.staleLink := by
  rw [markStaleLink, hvehicle]

variable {vehicle : VehicleIdentity}

theorem markStaleLink_some (nowMs : ℕ) (hvehicle : r.vehicle = some vehicle) (hid : id ∈ r.shown) :
    (r.markStaleLink nowMs).staleLink =
      some ⟨vehicle, nowMs, r.downloaded, r.totalParameters⟩ := by
  simp only [markStaleLink, hvehicle, size_ne_zero_of_shown hid, if_false]

theorem Sourced.resetLiveState (h : r.Sourced) (nowMs : ℕ) : (r.resetLiveState nowMs).Sourced where
  down _ := rfl
  here vehicle hvehicle := by cases hvehicle
  marker vehicle hvehicle := by cases hvehicle
  unmixed vehicle hvehicle := by cases hvehicle
  retained _ id hid := by
    cases hvehicle : r.vehicle with
    | none =>
      obtain hhere | ⟨stale, hstale, hmem⟩ := h.retained hvehicle id hid
      · exact .inl hhere
      · exact .inr ⟨stale, (markStaleLink_none nowMs hvehicle).trans hstale, hmem⟩
    | some vehicle =>
      exact .inr ⟨_, markStaleLink_some nowMs hvehicle hid, h.unmixed vehicle hvehicle id hid⟩

theorem Sourced.linkClosed (h : r.Sourced) (nowMs : ℕ) (hclosed : Attributed r (.linkClosed nowMs)) :
    Sourced { r.resetLiveState nowMs with linkUp := false, listRequests := [] } where
  down _ := rfl
  here vehicle hvehicle := by cases hvehicle
  marker vehicle hvehicle := by cases hvehicle
  unmixed vehicle hvehicle := by cases hvehicle
  retained _ id hid := by
    refine .inr ?_
    cases hvehicle : r.vehicle with
    | none =>
      have hmarked : r.Marked (r.receivedOn id) := by
        obtain ⟨-, hlink⟩ | hmarked := h.retained hvehicle id hid
        · exact hlink ▸ hclosed hvehicle id hid hlink
        · exact hmarked
      obtain ⟨stale, hstale, hmem⟩ := hmarked
      exact ⟨stale, (markStaleLink_none nowMs hvehicle).trans hstale, hmem⟩
    | some vehicle =>
      exact ⟨_, markStaleLink_some nowMs hvehicle hid, h.unmixed vehicle hvehicle id hid⟩

theorem Sourced.linkOpened (h : r.Sourced) (hdown : r.linkUp = false) :
    Sourced { r with linkUp := true, link := r.link + 1 } where
  down hfalse := by cases hfalse
  here vehicle hvehicle := by rw [h.down hdown] at hvehicle; cases hvehicle
  marker := h.marker
  unmixed := h.unmixed
  retained hvehicle id hid := by
    obtain ⟨hup, -⟩ | hmarked := h.retained hvehicle id hid
    · rw [hdown] at hup
      cases hup
    · exact .inr hmarked

/-! ## Downloads -/

theorem startDownload_frame (vehicle : VehicleIdentity) (nowMs : ℕ) (fresh : Bool) :
    ((r.startDownload vehicle nowMs fresh).writes.parameters = r.writes.parameters ∨
      (r.startDownload vehicle nowMs fresh).writes.parameters = JsMap.empty) ∧
    (r.startDownload vehicle nowMs fresh).vehicle = r.vehicle ∧
    (r.startDownload vehicle nowMs fresh).linkUp = r.linkUp ∧
    (r.startDownload vehicle nowMs fresh).link = r.link ∧
    (r.startDownload vehicle nowMs fresh).identified = r.identified ∧
    (r.startDownload vehicle nowMs fresh).receivedOn = r.receivedOn ∧
    (r.startDownload vehicle nowMs fresh).staleLink = none := by
  simp only [startDownload]
  split_ifs <;> simp [requestMissingParameters, requestParameterTable, send,
    ParameterRuntime.discardStaleLink, Writes.clearTable]


theorem Sourced.startDownload (h : r.Sourced) (hvehicle : r.vehicle = some vehicle) (nowMs : ℕ)
    (fresh : Bool) :
    (r.startDownload vehicle nowMs fresh).Sourced := by
  obtain ⟨htable, hsame, hup, hlink, hids, hon, hstale⟩ := r.startDownload_frame vehicle nowMs fresh
  refine ⟨fun hdown => ?_, fun v hv => ?_, fun v hv stale hmem => ?_, fun v hv id hid => ?_,
    fun hnone => ?_⟩
  · rw [hup] at hdown
    rw [hsame]
    exact h.down hdown
  · rw [hsame] at hv
    rw [hlink, hids]
    exact h.here v hv
  · rw [hstale] at hmem
    cases hmem
  · rw [hsame] at hv
    rw [hids, hon]
    refine h.unmixed v hv id ?_
    unfold shown at hid ⊢
    obtain htable | htable := htable
    · rwa [htable] at hid
    · rw [htable] at hid
      exact absurd hid List.not_mem_nil
  · rw [hsame, hvehicle] at hnone
    cases hnone

theorem Sourced.foldl_startDownload {requests : List Bool} (h : r.Sourced)
    (hvehicle : r.vehicle = some vehicle) (nowMs : ℕ) :
    (requests.foldl (fun r fresh => r.startDownload vehicle nowMs fresh) r).Sourced := by
  induction requests generalizing r with
  | nil => exact h
  | cons fresh requests ih =>
    exact ih (h.startDownload hvehicle nowMs fresh)
      ((r.startDownload_frame vehicle nowMs fresh).2.1.trans hvehicle)

theorem Sourced.requestParameterList (h : r.Sourced) (fresh : Bool) (nowMs : ℕ) :
    (r.requestParameterList fresh nowMs).Sourced := by
  unfold ParameterRuntime.requestParameterList
  split
  · rename_i vehicle hvehicle
    exact h.startDownload hvehicle nowMs fresh
  · exact ⟨h.down, h.here, h.marker, h.unmixed, h.retained⟩

/-! ## Heartbeats -/

theorem Sourced.identify (h : r.Sourced) (hup : r.linkUp = true)
    (hkind : ∀ v ∈ r.vehicle, vehicle ≠ v → r.staleLink = none → ∀ id ∈ r.shown, r.receivedOn id = r.link) :
    (r.identify vehicle).Sourced ∧ (r.identify vehicle).vehicle = some vehicle := by
  simp only [ParameterRuntime.identify]
  split_ifs with hstale
  · refine ⟨⟨fun hdown => ?_, fun v hv => ?_, fun _ _ _ hmem => ?_, fun _ _ id hid => ?_,
      fun hnone => ?_⟩, rfl⟩
    · exact absurd (hup.symm.trans hdown) Bool.true_eq_false.mp
    · cases hv
      exact List.mem_cons_self
    · cases hmem
    · exact absurd hid (not_mem_shown_discard id)
    · cases hnone
  · have hkey : ∀ stale ∈ r.staleLink, stale.key = vehicle := by
      intro stale hmem
      by_contra hne
      refine hstale ?_
      rw [Option.mem_def.mp hmem]
      exact decide_eq_true hne
    refine ⟨⟨fun hdown => ?_, fun v hv => ?_, fun v hv stale hmem => ?_, fun v hv id hid => ?_,
      fun hnone => ?_⟩, rfl⟩
    · exact absurd (hup.symm.trans hdown) Bool.true_eq_false.mp
    · cases hv
      exact List.mem_cons_self
    · cases hv
      exact hkey stale hmem
    · cases hv
      have hhere : r.receivedOn id = r.link →
          (r.receivedOn id, vehicle) ∈ (r.link, vehicle) :: r.identified := fun hlink => by
        rw [hlink]
        exact List.mem_cons_self
      cases hvehicle : r.vehicle with
      | none =>
        obtain ⟨-, hlink⟩ | ⟨stale, hmem, hid⟩ := h.retained hvehicle id hid
        · exact hhere hlink
        · exact List.mem_cons_of_mem _ (hkey stale hmem ▸ hid)
      | some v =>
        by_cases hsame : vehicle = v
        · exact List.mem_cons_of_mem _ (h.unmixed vehicle (hsame ▸ hvehicle) id hid)
        · refine hhere (hkind v hvehicle hsame ?_ id hid)
          rw [Option.eq_none_iff_forall_not_mem]
          intro stale hmem
          exact hsame ((hkey stale hmem).symm.trans (h.marker v hvehicle stale hmem))
    · cases hnone

theorem Sourced.processHeartbeat (h : r.Sourced) (hup : r.linkUp = true)
    {message : HeartbeatMessage} {systemId componentId nowMs : ℕ}
    (hattributed : Attributed r (.heartbeat message systemId componentId nowMs)) :
    (r.processHeartbeat message systemId componentId nowMs).Sourced := by
  unfold ParameterRuntime.processHeartbeat
  split_ifs with hskip
  · exact h
  · have hown := not_or.mp hskip
    obtain ⟨hidentified, hvehicle⟩ := h.identify hup
      (hattributed (Bool.not_eq_false _ ▸ hown.1) (Bool.eq_false_iff.mpr hown.2))
    have hgreeted : (r.identify (createVehicleIdentity message systemId componentId)).greet.Sourced :=
      ⟨hidentified.down, hidentified.here, hidentified.marker, hidentified.unmixed,
        hidentified.retained⟩
    exact hgreeted.foldl_startDownload hvehicle nowMs

/-! ## Streamed values -/

structure Follows (d r : ParameterRuntime) : Prop where
  vehicle : d.vehicle = r.vehicle
  linkUp : d.linkUp = r.linkUp
  link : d.link = r.link
  identified : d.identified = r.identified
  receivedOn : d.receivedOn = r.receivedOn
  staleLink : d.staleLink = r.staleLink
  shown : ∀ id ∈ d.shown, id ∈ r.shown

theorem Follows.refl (r : ParameterRuntime) : r.Follows r :=
  ⟨rfl, rfl, rfl, rfl, rfl, rfl, fun _ hid => hid⟩

variable {d : ParameterRuntime}

theorem Sourced.follows (h : r.Sourced) (hd : d.Follows r) : d.Sourced where
  down hdown := hd.vehicle.trans (h.down (hd.linkUp.symm.trans hdown))
  here v hv := by
    rw [hd.link, hd.identified]
    exact h.here v (hd.vehicle ▸ hv)
  marker v hv stale hstale := h.marker v (hd.vehicle ▸ hv) stale (hd.staleLink ▸ hstale)
  unmixed v hv id hid := by
    rw [hd.receivedOn, hd.identified]
    exact h.unmixed v (hd.vehicle ▸ hv) id (hd.shown id hid)
  retained hnone id hid := by
    rw [hd.receivedOn, hd.link, hd.linkUp, Marked, hd.staleLink, hd.identified]
    exact h.retained (hd.vehicle.symm.trans hnone) id (hd.shown id hid)

theorem shown_reconcile {paramCount : ℕ}
    (hid : id ∈ (r.writes.reconcileResumedParameterTable paramCount).parameters.keys) :
    id ∈ r.shown := by
  obtain ⟨htable, -⟩ | ⟨htable, -⟩ := r.writes.reconcile_table paramCount
  · rwa [htable] at hid
  · rw [htable] at hid
    exact absurd hid List.not_mem_nil

theorem reconcile_follows (paramCount : ℕ) :
    (r.reconcileResumedParameterTable paramCount).Follows r := by
  unfold ParameterRuntime.reconcileResumedParameterTable
  split
  · exact .refl r
  · simp only
    split_ifs
    all_goals exact ⟨rfl, rfl, rfl, rfl, rfl, rfl, fun _ hid => shown_reconcile hid⟩

theorem noteCount_follows (paramCount : ℕ) : (r.noteCount paramCount).Follows r := by
  unfold noteCount
  split_ifs <;> exact ⟨rfl, rfl, rfl, rfl, rfl, rfl, fun _ hid => hid⟩

theorem progress_follows (known : Bool) : (r.progress known).Follows r := by
  simp only [progress]
  split_ifs <;> exact ⟨rfl, rfl, rfl, rfl, rfl, rfl, fun _ hid => hid⟩

theorem Sourced.store (h : r.Sourced) (hup : r.linkUp = true) (message : ParamValueMessage) :
    (r.store metadata message).Sourced := by
  have hsource : ∀ id ∈ (r.store metadata message).shown,
      (r.store metadata message).receivedOn id = r.link ∨
        id ∈ r.shown ∧ (r.store metadata message).receivedOn id = r.receivedOn id := by
    intro id hid
    by_cases hnew : id = message.paramId ∨ aliasMirror message.paramId = some id
    · exact .inl (if_pos hnew)
    · obtain ⟨hself, hmirror⟩ := not_or.mp hnew
      refine .inr ⟨?_, if_neg hnew⟩
      rw [shown, JsMap.mem_keys_iff, ParameterRuntime.store, Writes.processParamValue_get,
        if_neg hmirror, if_neg hself] at hid
      exact shown_reconcile (JsMap.mem_keys_iff.mpr hid)
  refine ⟨h.down, h.here, h.marker, fun v hv id hid => ?_, fun hnone id hid => ?_⟩
  · obtain hlink | ⟨hold, hsame⟩ := hsource id hid
    · rw [hlink]
      exact h.here v hv
    · rw [hsame]
      exact h.unmixed v hv id hold
  · obtain hlink | ⟨hold, hsame⟩ := hsource id hid
    · exact .inl ⟨hup, hlink⟩
    · rw [hsame]
      exact h.retained hnone id hold

theorem Sourced.processParamValue (h : r.Sourced) (hup : r.linkUp = true)
    (message : ParamValueMessage) : (r.processParamValue metadata message).Sourced := by
  have hreconciled := h.follows (reconcile_follows message.paramCount)
  have hcounted := hreconciled.follows (noteCount_follows message.paramCount)
  have hup : ((r.reconcileResumedParameterTable message.paramCount).noteCount
      message.paramCount).linkUp = true :=
    (noteCount_follows message.paramCount).linkUp.trans
      ((reconcile_follows message.paramCount).linkUp.trans hup)
  have hindexed : Sourced { (r.reconcileResumedParameterTable message.paramCount).noteCount
      message.paramCount with receivedParameterIndices :=
        ((r.reconcileResumedParameterTable message.paramCount).noteCount
          message.paramCount).addIndex message.paramIndex message.paramCount } :=
    ⟨hcounted.down, hcounted.here, hcounted.marker, hcounted.unmixed, hcounted.retained⟩
  exact (hindexed.store hup message).follows (progress_follows _)

/-! ## Retries -/

theorem retry_follows : r.retryParameterSync.Follows r := by
  simp only [retryParameterSync]
  split_ifs <;> exact ⟨rfl, rfl, rfl, rfl, rfl, rfl, fun _ hid => hid⟩

theorem sendSettled_follows (sender : Sender) (sending : List Sender) (succeeded : Bool) :
    (r.sendSettled sender sending succeeded).Follows r := by
  unfold sendSettled
  cases sender <;> cases succeeded <;>
    exact ⟨rfl, rfl, rfl, rfl, rfl, rfl, fun _ hid => hid⟩

/-! ## Every run -/

theorem Sourced.step {event : SyncEvent} (h : r.Sourced) (hattributed : r.Attributed event)
    (hstep : r.step metadata event = some d) : d.Sourced := by
  cases event with
  | linkOpened =>
    simp only [ParameterRuntime.step] at hstep
    split_ifs at hstep with hup
    cases hstep
    exact h.linkOpened (Bool.eq_false_iff.mpr hup)
  | linkClosed nowMs =>
    simp only [ParameterRuntime.step] at hstep
    split_ifs at hstep
    cases hstep
    exact h.linkClosed nowMs hattributed
  | reset nowMs => cases hstep; exact h.resetLiveState nowMs
  | discardRetainedParameters =>
    simp only [ParameterRuntime.step] at hstep
    split_ifs at hstep
    cases hstep
    exact h.discardStaleLink
  | heartbeat message systemId componentId nowMs =>
    simp only [ParameterRuntime.step] at hstep
    split_ifs at hstep with hup
    cases hstep
    exact h.processHeartbeat hup hattributed
  | paramValue message =>
    simp only [ParameterRuntime.step] at hstep
    split_ifs at hstep with hup
    cases hstep
    exact h.processParamValue hup message
  | requestParameterList fresh nowMs => cases hstep; exact h.requestParameterList fresh nowMs
  | requestTimedOut index =>
    cases hstep
    exact ⟨h.down, h.here, h.marker, h.unmixed, h.retained⟩
  | sendSettled succeeded =>
    simp only [ParameterRuntime.step] at hstep
    split at hstep
    · cases hstep
    · cases hstep
      exact h.follows (sendSettled_follows ..)
  | retryTimer =>
    simp only [ParameterRuntime.step] at hstep
    split_ifs at hstep
    cases hstep
    exact h.follows retry_follows

/-- In a run that is attributed no value is ever shown with a vehicle that it is not from. -/
theorem table_unmixed {events : List SyncEvent}
    (hrun : run (step metadata) initial events = some r)
    (hattributed : Along (step metadata) Attributed initial events) :
    ∀ before after u, events = before ++ after →
      run (step metadata) initial before = some u → u.Unmixed := by
  rintro before after u rfl hbefore
  obtain ⟨hearly, -⟩ := (along_append after hbefore).mp hattributed
  exact (run_invariant_along (fun _ _ _ hI hC hstep => hI.step hC hstep) sourced_initial hearly
    hbefore).unmixed

/-! ## A value before the first heartbeat -/

instance (r : ParameterRuntime) : Decidable r.Unmixed :=
  inferInstanceAs (Decidable (∀ vehicle ∈ r.vehicle, ∀ id ∈ r.shown, _ ∈ r.identified))

instance (r : ParameterRuntime) (link : ℕ) : Decidable (r.Marked link) :=
  inferInstanceAs (Decidable (∃ stale ∈ r.staleLink, _ ∈ r.identified))

instance (r : ParameterRuntime) : ∀ event, Decidable (r.Attributed event)
  | .linkClosed _ =>
    inferInstanceAs (Decidable (r.vehicle = none → ∀ id ∈ r.shown, _ → r.Marked r.link))
  | .heartbeat .. =>
    inferInstanceAs (Decidable (_ → _ → ∀ vehicle ∈ r.vehicle, _ → _ → ∀ id ∈ r.shown, _))
  | .linkOpened | .reset _ | .discardRetainedParameters | .paramValue _ | .requestParameterList ..
  | .requestTimedOut _ | .sendSettled _ | .retryTimer => isTrue trivial

def batteryCapacity (paramValue : JsNumber) : ParamValueMessage :=
  ⟨units "BATT_CAPACITY", paramValue, 0, 2, REAL32⟩

def copterHeartbeat : SyncEvent := .heartbeat ⟨2, ARDUPILOTMEGA⟩ 1 1 0

/-- A value comes before any heartbeat and the link drops; a vehicle announces itself on the next. -/
def earlyValue : List SyncEvent :=
  [.linkOpened, .paramValue (batteryCapacity (.finite false 3300)), .linkClosed 0, .linkOpened,
    copterHeartbeat]

theorem early_value_mixed :
    ∃ r, run (step fun _ => none) initial earlyValue = some r ∧ ¬ r.Unmixed := by
  have hmixed : (run (step fun _ => none) initial earlyValue).any (fun r => ¬ r.Unmixed) = true := by
    decide +kernel
  obtain ⟨r, hrun, hr⟩ := (Option.any_eq_true ..).mp hmixed
  exact ⟨r, hrun, of_decide_eq_true hr⟩

def resumedTable : List SyncEvent :=
  [.linkOpened, copterHeartbeat, .requestParameterList false 0,
    .paramValue (batteryCapacity (.finite false 3300)), .linkClosed 5, .linkOpened,
    .paramValue (batteryCapacity (.finite false 3300)), copterHeartbeat,
    .requestParameterList false 9]

theorem resumed_table_unmixed :
    ∃ r, run (step fun _ => none) initial resumedTable = some r ∧ r.Unmixed ∧
      r.shown = [units "BATT_CAPACITY"] ∧ r.parameterSync.status = .requesting := by
  have hattributed : Along (step fun _ => none) Attributed initial resumedTable := by
    decide +kernel
  have hshown : (run (step fun _ => none) initial resumedTable).map
      (fun r => (r.shown, r.parameterSync.status)) =
        some ([units "BATT_CAPACITY"], .requesting) := by decide +kernel
  obtain ⟨r, hrun, hr⟩ := Option.map_eq_some_iff.mp hshown
  obtain ⟨hids, hstatus⟩ := Prod.mk.inj hr
  exact ⟨r, hrun, table_unmixed hrun hattributed resumedTable [] r rfl hrun, hids, hstatus⟩

end ParameterRuntime
end ArduConfigurator.Runtime
