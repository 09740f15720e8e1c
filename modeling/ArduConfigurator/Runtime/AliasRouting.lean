import ArduConfigurator.Runtime.ParameterWrites

/-! # Writes of renamed parameters

Which name of a renamed parameter a write goes out under, and what both names show once the
autopilot echoes it. -/
namespace ArduConfigurator.Runtime
open Parameters Runs
set_option autoImplicit false

/-! ## The two maps of names -/

variable {legacy modern : Text}

theorem modern_of_legacy (h : LEGACY_PARAM_ALIASES.get legacy = some modern) :
    MODERN_TO_LEGACY_ALIASES.get modern = some legacy := by
  have hall : ∀ pair ∈ LEGACY_PARAM_ALIASES,
      MODERN_TO_LEGACY_ALIASES.get pair.2 = some pair.1 := by decide +kernel
  exact hall _ (Entries.mem_of_get h)

theorem legacy_of_modern (h : MODERN_TO_LEGACY_ALIASES.get modern = some legacy) :
    LEGACY_PARAM_ALIASES.get legacy = some modern := by
  have hall : ∀ pair ∈ MODERN_TO_LEGACY_ALIASES,
      LEGACY_PARAM_ALIASES.get pair.2 = some pair.1 := by decide +kernel
  exact hall _ (Entries.mem_of_get h)

theorem not_both_names (h : LEGACY_PARAM_ALIASES.get legacy = some modern) :
    MODERN_TO_LEGACY_ALIASES.get legacy = none := by
  have hall : ∀ pair ∈ LEGACY_PARAM_ALIASES,
      MODERN_TO_LEGACY_ALIASES.get pair.1 = none := by decide +kernel
  exact hall _ (Entries.mem_of_get h)

theorem aliasMirror_of_legacy (h : LEGACY_PARAM_ALIASES.get legacy = some modern) :
    aliasMirror legacy = some modern := by
  rw [aliasMirror, not_both_names h, h]
  rfl

theorem aliasMirror_of_modern (h : MODERN_TO_LEGACY_ALIASES.get modern = some legacy) :
    aliasMirror modern = some legacy := by
  rw [aliasMirror, h]
  rfl

variable {id mirror : Text}

theorem aliasMirror_symm (h : aliasMirror id = some mirror) :
    aliasMirror mirror = some id := by
  cases hm : MODERN_TO_LEGACY_ALIASES.get id with
  | some legacy =>
    obtain rfl := Option.some.inj ((aliasMirror_of_modern hm).symm.trans h)
    exact aliasMirror_of_legacy (legacy_of_modern hm)
  | none =>
    rw [aliasMirror, hm, Option.none_or] at h
    exact aliasMirror_of_modern (modern_of_legacy h)

theorem aliasMirror_ne (h : aliasMirror id = some mirror) : mirror ≠ id := by
  rintro rfl
  cases hl : LEGACY_PARAM_ALIASES.get mirror with
  | some modern =>
    obtain rfl := Option.some.inj ((aliasMirror_of_legacy hl).symm.trans h)
    have := (not_both_names hl).symm.trans (modern_of_legacy hl)
    cases this
  | none =>
    rw [aliasMirror, hl, Option.or_none] at h
    have := hl.symm.trans (legacy_of_modern h)
    cases this

namespace Writes
variable {metadata : Text → Option ParameterDefinition} {w : Writes}

/-! ## What the table shows -/

def Shows (w : Writes) (id : Text) (value : JsNumber) : Prop :=
  ∃ entry, w.parameters.get id = some entry ∧ entry.value = value

def Mirrored (w : Writes) : Prop :=
  ∀ id, w.parameters.has id = true →
    id ∈ w.realParameterIdsReceived ∨
      ∃ other, aliasMirror id = some other ∧ other ∈ w.realParameterIdsReceived

/-! ## What a streamed value does to the table -/

theorem processParamValue_get (message : ParamValueMessage) (id : Text) :
    (w.processParamValue metadata message).parameters.get id =
      if aliasMirror message.paramId = some id then
        some (entryOf metadata message id (some message.paramId))
      else if id = message.paramId then some (entryOf metadata message id none)
      else (w.reconcileResumedParameterTable message.paramCount).parameters.get id := by
  have hreal : ((w.reconcileResumedParameterTable message.paramCount).addReal
      message.paramId).parameters =
        (w.reconcileResumedParameterTable message.paramCount).parameters := by
    unfold addReal
    split_ifs <;> rfl
  unfold processParamValue
  cases hm : aliasMirror message.paramId with
  | none =>
    rw [if_neg fun h => by cases h]
    simp only [resolve, settle, setEntry, JsMap.get_set, hreal]
    split_ifs with hid
    · rw [hid]
    · rfl
  | some mirror =>
    simp only [resolve, settle, setEntry, JsMap.get_set, hreal, Option.some.injEq]
    by_cases hid : id = mirror
    · rw [if_pos hid, if_pos hid.symm, hid]
    · rw [if_neg hid, if_neg (Ne.symm hid)]
      split_ifs with hself
      · rw [hself]
      · rfl

variable {message : ParamValueMessage}

theorem mem_real_processParamValue {id : Text} :
    id ∈ (w.processParamValue metadata message).realParameterIdsReceived ↔
      id = message.paramId ∨
        id ∈ (w.reconcileResumedParameterTable message.paramCount).realParameterIdsReceived := by
  have hreal : (w.processParamValue metadata message).realParameterIdsReceived =
      ((w.reconcileResumedParameterTable message.paramCount).addReal
        message.paramId).realParameterIdsReceived := by
    unfold processParamValue
    cases aliasMirror message.paramId <;> rfl
  rw [hreal, addReal]
  split_ifs with hmem
  · constructor
    · exact .inr
    · rintro (rfl | h)
      · exact hmem
      · exact h
  · rw [List.mem_append, List.mem_singleton, or_comm]

theorem reconcile_table (paramCount : ℕ) :
    ((w.reconcileResumedParameterTable paramCount).parameters = w.parameters ∧
      (w.reconcileResumedParameterTable paramCount).realParameterIdsReceived =
        w.realParameterIdsReceived) ∨
    ((w.reconcileResumedParameterTable paramCount).parameters = JsMap.empty ∧
      (w.reconcileResumedParameterTable paramCount).realParameterIdsReceived = []) := by
  unfold reconcileResumedParameterTable
  cases w.parameterSyncResumedTotal with
  | none => exact .inl ⟨rfl, rfl⟩
  | some total =>
    simp only
    split_ifs
    · exact .inl ⟨rfl, rfl⟩
    · exact .inr ⟨rfl, rfl⟩

theorem Mirrored.reconcile {paramCount : ℕ} (h : w.Mirrored) :
    (w.reconcileResumedParameterTable paramCount).Mirrored := by
  obtain ⟨hp, hr⟩ | ⟨hp, -⟩ := w.reconcile_table paramCount
  · intro id hid
    rw [hp] at hid
    rw [hr]
    exact h id hid
  · intro id hid
    rw [hp] at hid
    cases hid

theorem Mirrored.processParamValue (h : w.Mirrored) :
    (w.processParamValue metadata message).Mirrored := by
  intro id hid
  rw [JsMap.has, processParamValue_get] at hid
  simp only [mem_real_processParamValue]
  split_ifs at hid with hmirror hself
  · exact .inr ⟨message.paramId, aliasMirror_symm hmirror, .inl rfl⟩
  · exact .inl (.inl hself)
  · obtain hreal | ⟨other, hother, hreal⟩ := h.reconcile id hid
    · exact .inl (.inr hreal)
    · exact .inr ⟨other, hother, .inr hreal⟩

theorem Mirrored.step {event : WriteEvent} {v : Writes} (h : w.Mirrored)
    (hstep : w.step metadata event = some v) : v.Mirrored := by
  cases event with
  | paramValue message => cases hstep; exact h.processParamValue
  | setParameter paramId paramValue tolerance blockReason =>
    cases blockReason with
    | none => cases hstep; exact h
    | some reason => cases hstep; exact h
  | discardStaleLink =>
    cases hstep
    intro id hid
    cases hid
  | sendFailed handle reason => cases hstep; exact h
  | timedOut handle reason => cases hstep; exact h
  | rejectAll reason => cases hstep; exact h
  | heartbeat vehicle => cases hstep; exact h
  | resumed total => cases hstep; exact h
  | resetLiveState => cases hstep; exact h

variable {events : List WriteEvent}

theorem mirrored_of_run (h : run (step metadata) initial events = some w) : w.Mirrored :=
  run_invariant (fun _ _ _ hI hstep => hI.step hstep) (fun _ hid => by cases hid) h

/-! ## Streamed names -/

def Streamed (events : List WriteEvent) (id : Text) : Prop :=
  ∃ message, .paramValue message ∈ events ∧ message.paramId = id

theorem streamed_of_run (h : run (step metadata) initial events = some w) :
    ∀ id ∈ w.realParameterIdsReceived, Streamed events id := by
  refine run_invariant_of_mem (C := (· ∈ events))
    (I := fun v => ∀ id ∈ v.realParameterIdsReceived, Streamed events id)
    (fun s event t hI hmem hstep => ?_) (fun _ he => he)
    (fun _ hid => absurd hid List.not_mem_nil) h
  cases event with
  | paramValue message =>
    cases hstep
    intro id hid
    obtain rfl | hid := mem_real_processParamValue.mp hid
    · exact ⟨message, hmem, rfl⟩
    · obtain ⟨-, hr⟩ | ⟨-, hr⟩ := s.reconcile_table message.paramCount
      · exact hI id (hr ▸ hid)
      · rw [hr] at hid
        cases hid
  | setParameter paramId paramValue tolerance blockReason =>
    cases blockReason with
    | none => cases hstep; exact hI
    | some reason => cases hstep; exact hI
  | discardStaleLink =>
    cases hstep
    exact fun _ hid => absurd hid List.not_mem_nil
  | sendFailed handle reason => cases hstep; exact hI
  | timedOut handle reason => cases hstep; exact hI
  | rejectAll reason => cases hstep; exact hI
  | heartbeat vehicle => cases hstep; exact hI
  | resumed total => cases hstep; exact hI
  | resetLiveState => cases hstep; exact hI

/-! ## The name on the wire -/

/-- The modern name of a pair of which only the legacy name was streamed. -/
def OnlyLegacyStreamed (w : Writes) (paramId : Text) : Prop :=
  paramId ∉ w.realParameterIdsReceived ∧
    ∃ legacy, MODERN_TO_LEGACY_ALIASES.get paramId = some legacy ∧
      legacy ∈ w.realParameterIdsReceived

theorem onWireParamId_streamed_iff {paramId : Text} (h : w.Mirrored)
    (hshown : w.parameters.has paramId = true) :
    w.onWireParamId paramId ∈ w.realParameterIdsReceived ↔ ¬ w.OnlyLegacyStreamed paramId := by
  unfold onWireParamId
  cases hl : LEGACY_PARAM_ALIASES.get paramId with
  | none =>
    constructor
    · rintro hmem ⟨hnot, -⟩
      exact hnot hmem
    · intro honly
      obtain hreal | ⟨other, hother, hreal⟩ := h paramId hshown
      · exact hreal
      · rw [aliasMirror, hl, Option.or_none] at hother
        by_contra hnot
        exact honly ⟨hnot, other, hother, hreal⟩
  | some modern =>
    have hnotOnly : ¬ w.OnlyLegacyStreamed paramId := by
      rintro ⟨-, legacy, hlegacy, -⟩
      cases (not_both_names hl).symm.trans hlegacy
    refine iff_of_true ?_ hnotOnly
    simp only
    split_ifs with hmodern
    · exact hmodern
    · obtain hreal | ⟨other, hother, hreal⟩ := h paramId hshown
      · exact hreal
      · obtain rfl := Option.some.inj ((aliasMirror_of_legacy hl).symm.trans hother)
        exact absurd hreal hmodern

theorem onWireParamId_cases (paramId : Text) :
    w.onWireParamId paramId = paramId ∨ aliasMirror paramId = some (w.onWireParamId paramId) := by
  unfold onWireParamId
  cases hl : LEGACY_PARAM_ALIASES.get paramId with
  | none => exact .inl rfl
  | some modern =>
    simp only
    split_ifs
    · exact .inr (aliasMirror_of_legacy hl)
    · exact .inl rfl

theorem shows_echo (echo : ParamValueMessage) :
    (w.processParamValue metadata echo).Shows echo.paramId echo.paramValue ∧
      ∀ other, aliasMirror echo.paramId = some other →
        (w.processParamValue metadata echo).Shows other echo.paramValue := by
  constructor
  · refine ⟨entryOf metadata echo echo.paramId none, ?_, rfl⟩
    rw [processParamValue_get, if_neg fun h => aliasMirror_ne h rfl, if_pos rfl]
  · intro other hother
    refine ⟨entryOf metadata echo other (some echo.paramId), ?_, rfl⟩
    rw [processParamValue_get, if_pos hother]

/-- A write of a name in the table goes out under a name that the vehicle streamed, and the echo is
shown under both names, unless the name is the modern one of a pair of which only the legacy one
was streamed. -/
theorem alias_write_iff {events : List WriteEvent} {paramId : Text}
    (hrun : run (step metadata) initial events = some w)
    (hshown : w.parameters.has paramId = true) (paramValue : JsNumber)
    (tolerance : Option JsNumber) :
    (∃ request, (w.setParameter paramId paramValue tolerance).sent = w.sent ++ [request] ∧
      request.paramValue = paramValue ∧ request.paramId ∈ w.realParameterIdsReceived ∧
      Streamed events request.paramId ∧
      ∀ later v, run (step metadata) (w.setParameter paramId paramValue tolerance) later = some v →
        ∀ echo : ParamValueMessage, echo.paramId = request.paramId →
          (v.processParamValue metadata echo).Shows paramId echo.paramValue ∧
          ∀ other, aliasMirror paramId = some other →
            (v.processParamValue metadata echo).Shows other echo.paramValue) ↔
      ¬ w.OnlyLegacyStreamed paramId := by
  rw [← onWireParamId_streamed_iff (mirrored_of_run hrun) hshown]
  constructor
  · rintro ⟨request, hsent, -, hreal, -⟩
    obtain rfl : w.paramSet (w.onWireParamId paramId) paramValue = request :=
      List.singleton_inj.mp (List.append_cancel_left hsent)
    exact hreal
  · intro hreal
    refine ⟨w.paramSet (w.onWireParamId paramId) paramValue, rfl, rfl, hreal,
      streamed_of_run hrun _ hreal, ?_⟩
    rintro later v - echo hecho
    obtain ⟨hself, hother⟩ := @shows_echo metadata v echo
    obtain hid | hid := w.onWireParamId_cases paramId
    · obtain rfl : echo.paramId = paramId := hecho.trans hid
      exact ⟨hself, hother⟩
    · have hwire : echo.paramId = w.onWireParamId paramId := hecho
      rw [← hwire] at hid
      refine ⟨hother paramId (aliasMirror_symm hid), fun other h => ?_⟩
      obtain rfl := Option.some.inj (hid.symm.trans h)
      exact hself

/-! ## A vehicle with the legacy name -/

def streamedType (paramId : Text) : List WriteEvent :=
  [.paramValue ⟨paramId, .finite false 1, 0, 1, 2⟩]

def tableOf (paramId : Text) : Writes :=
  initial.processParamValue (fun _ => none) ⟨paramId, .finite false 1, 0, 1, 2⟩

/-- The vehicle streams the legacy name, the table shows the modern one too, and a write of the modern
name goes out under it. -/
theorem modern_name_sent_to_legacy_vehicle :
    (tableOf (units "GPS_TYPE")).parameters.has (units "GPS1_TYPE") = true ∧
      (tableOf (units "GPS_TYPE")).realParameterIdsReceived = [units "GPS_TYPE"] ∧
      ((tableOf (units "GPS_TYPE")).setParameter (units "GPS1_TYPE") (.finite false 14)
        none).sent.map ParamSetMessage.paramId = [units "GPS1_TYPE"] := by
  decide +kernel

/-- A write of the legacy name to a vehicle with the modern one. -/
theorem legacy_name_routed :
    ∃ request, ((tableOf (units "GPS1_TYPE")).setParameter (units "GPS_TYPE") (.finite false 14)
        none).sent = [request] ∧
      request.paramId ∈ (tableOf (units "GPS1_TYPE")).realParameterIdsReceived := by
  have hall := (@alias_write_iff (fun _ => none) (tableOf (units "GPS1_TYPE"))
    (streamedType (units "GPS1_TYPE")) (units "GPS_TYPE") rfl (by decide +kernel)
    (.finite false 14) none).mpr (by
      rintro ⟨-, legacy, hlegacy, -⟩
      have hnone : MODERN_TO_LEGACY_ALIASES.get (units "GPS_TYPE") = none := by decide +kernel
      cases hnone.symm.trans hlegacy)
  obtain ⟨request, hsent, -, hreal, -⟩ := hall
  exact ⟨request, hsent, hreal⟩

end Writes
end ArduConfigurator.Runtime
