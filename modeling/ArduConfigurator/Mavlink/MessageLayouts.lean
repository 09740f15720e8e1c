import ArduConfigurator.Mavlink.Payloads

/-! # The layouts of the typed messages

A decoder succeeds on every payload of the full length of its message, and gives back the message
its encoder has laid out. -/
namespace ArduConfigurator.Mavlink
set_option autoImplicit false
open MAVLINK_MESSAGE_IDS

/-! ## Decoders succeed -/

@[simp] theorem map_ok {ε α β : Type} (f : α → β) (a : α) :
    f <$> (Except.ok a : Except ε α) = .ok (f a) := rfl

variable {α : Type} {payload : Bytes}

theorem getFrom_eq_get [Wire α] {length off : ℕ} (h : length ≤ payload.length) :
    getFrom α payload length off = get α payload off := if_pos h

/-- The decoder takes every payload of at least `size` bytes. -/
def Total {α : Type} (size : ℕ) (decode : Bytes → Except Thrown α) : Prop :=
  ∀ payload : Bytes, size ≤ payload.length → ∃ message, decode payload = .ok message

variable {size : ℕ} {β : Type} {decode : Bytes → Except Thrown α}

theorem Total.map (h : Total size decode) (f : α → β) :
    Total size fun payload => f <$> decode payload := by
  intro payload hsize
  obtain ⟨message, hmessage⟩ := h payload hsize
  exact ⟨f message, congrArg (f <$> ·) hmessage⟩

theorem total_of_eq {f : Bytes → α} (h : ∀ payload, decode payload = .ok (f payload)) :
    Total size decode :=
  fun payload _ => ⟨f payload, h payload⟩

theorem decodeHeartbeatPayload_total : Total 9 decodeHeartbeatPayload := by
  intro payload h
  simp (disch := simp; omega) [decodeHeartbeatPayload, get_eq_ok]

theorem decodeSysStatusPayload_total : Total 43 decodeSysStatusPayload := by
  intro payload h
  simp (disch := first | omega | (simp; omega)) [decodeSysStatusPayload, get_eq_ok,
    getFrom_eq_get]

theorem decodeStatusTextPayload_total : Total 54 decodeStatusTextPayload := by
  intro payload h
  simp (disch := first | omega | (simp; omega)) [decodeStatusTextPayload, get_eq_ok,
    getFrom_eq_get]

theorem decodeAutopilotVersionPayload_total : Total 78 decodeAutopilotVersionPayload := by
  intro payload h
  simp (disch := simp; omega) [decodeAutopilotVersionPayload, get_eq_ok]

theorem decodeGpsRawIntPayload_total : Total 30 decodeGpsRawIntPayload := by
  intro payload h
  simp (disch := simp; omega) [decodeGpsRawIntPayload, get_eq_ok]

theorem decodeGlobalPositionIntPayload_total : Total 28 decodeGlobalPositionIntPayload := by
  intro payload h
  simp (disch := simp; omega) [decodeGlobalPositionIntPayload, get_eq_ok]

theorem decodeAttitudePayload_total : Total 28 decodeAttitudePayload := by
  intro payload h
  simp (disch := simp; omega) [decodeAttitudePayload, get_eq_ok]

theorem decodeAttitudeQuaternionPayload_total : Total 32 decodeAttitudeQuaternionPayload := by
  intro payload h
  simp (disch := simp; omega) [decodeAttitudeQuaternionPayload, get_eq_ok]

theorem decodeScaledImuPayload_total : Total 24 decodeScaledImuPayload := by
  intro payload h
  simp (disch := simp; omega) [decodeScaledImuPayload, get_eq_ok]

theorem decodeParamRequestListPayload_total : Total 2 decodeParamRequestListPayload := by
  intro payload h
  simp (disch := simp; omega) [decodeParamRequestListPayload, get_eq_ok]

theorem decodeParamRequestReadPayload_total : Total 20 decodeParamRequestReadPayload := by
  intro payload h
  simp (disch := simp; omega) [decodeParamRequestReadPayload, get_eq_ok]

theorem decodeParamValuePayload_total : Total 25 decodeParamValuePayload := by
  intro payload h
  simp (disch := simp; omega) [decodeParamValuePayload, get_eq_ok]

theorem decodeParamSetPayload_total : Total 23 decodeParamSetPayload := by
  intro payload h
  simp (disch := simp; omega) [decodeParamSetPayload, get_eq_ok]

theorem decodeRcChannelsPayload_total : Total 42 decodeRcChannelsPayload := by
  intro payload h
  simp (disch := simp; omega) [decodeRcChannelsPayload, get_eq_ok, getArray_eq_ok]

theorem decodeRcChannelsRawPayload_total : Total 22 decodeRcChannelsRawPayload := by
  intro payload h
  simp (disch := simp; omega) [decodeRcChannelsRawPayload, get_eq_ok, getArray_eq_ok]

theorem decodeCommandAckPayload_total : Total 10 decodeCommandAckPayload := by
  intro payload h
  simp (disch := first | omega | (simp; omega)) [decodeCommandAckPayload, get_eq_ok,
    getFrom_eq_get]

theorem decodeCommandLongPayload_total : Total 33 decodeCommandLongPayload := by
  intro payload h
  simp (disch := simp; omega) [decodeCommandLongPayload, get_eq_ok, getArray_eq_ok]

theorem decodeLogRequestListPayload_total : Total 6 decodeLogRequestListPayload := by
  intro payload h
  simp (disch := simp; omega) [decodeLogRequestListPayload, get_eq_ok]

theorem decodeLogEntryPayload_total : Total 14 decodeLogEntryPayload := by
  intro payload h
  simp (disch := simp; omega) [decodeLogEntryPayload, get_eq_ok]

theorem decodeLogRequestDataPayload_total : Total 12 decodeLogRequestDataPayload := by
  intro payload h
  simp (disch := simp; omega) [decodeLogRequestDataPayload, get_eq_ok]

theorem decodeLogDataPayload_total : Total 97 decodeLogDataPayload := by
  intro payload h
  simp (disch := simp; omega) [decodeLogDataPayload, get_eq_ok]

theorem decodeMagCalProgressPayload_total : Total 27 decodeMagCalProgressPayload := by
  intro payload h
  simp (disch := simp; omega) [decodeMagCalProgressPayload, get_eq_ok]

theorem decodeMagCalReportPayload_total : Total 54 decodeMagCalReportPayload := by
  intro payload h
  simp (disch := first | omega | (simp; omega)) [decodeMagCalReportPayload, get_eq_ok,
    getFrom_eq_get]

theorem decodeOpticalFlowPayload_total : Total 34 decodeOpticalFlowPayload := by
  intro payload h
  simp (disch := first | omega | (simp; omega)) [decodeOpticalFlowPayload, get_eq_ok,
    getFrom_eq_get]

theorem decodeDistanceSensorPayload_total : Total 39 decodeDistanceSensorPayload := by
  intro payload h
  simp (disch := first | omega | (simp; omega)) [decodeDistanceSensorPayload, get_eq_ok,
    getFrom_eq_get]

theorem decodeCanFramePayload_total : Total 16 decodeCanFramePayload := by
  intro payload h
  simp (disch := simp; omega) [decodeCanFramePayload, get_eq_ok]

theorem decodeUavcanNodeStatusPayload_total : Total 17 decodeUavcanNodeStatusPayload := by
  intro payload h
  simp (disch := simp; omega) [decodeUavcanNodeStatusPayload, get_eq_ok]

theorem decodeUavcanNodeInfoPayload_total : Total 116 decodeUavcanNodeInfoPayload := by
  intro payload h
  simp (disch := simp; omega) [decodeUavcanNodeInfoPayload, get_eq_ok]

theorem decodeServoOutputRawPayload_total : Total 37 decodeServoOutputRawPayload :=
  fun payload h => by
    have hroom : 21 + min 8 ((payload.length - 21) / 2) * 2 ≤ payload.length := by omega
    simp (disch := first | omega | (simp; omega)) [decodeServoOutputRawPayload, get_eq_ok,
      getArray_eq_ok, getFrom_eq_get]

theorem decodeEscTelemetryPayload_total (groupStartIndex : ℕ) :
    Total 44 (decodeEscTelemetryPayload · groupStartIndex) := fun payload h => by
  simp (disch := simp [ESC_TELEMETRY_GROUP_SIZE]; omega) [decodeEscTelemetryPayload,
    getArray_eq_ok]

theorem decodeAvailableModePayload_total (size : ℕ) : Total size decodeAvailableModePayload :=
  fun payload _ => by
    have hlen : (zeroPad 46 (payload.take 46)).length = 46 :=
      zeroPad_length (by rw [List.length_take]; omega)
    simp (disch := simp [hlen]) [decodeAvailableModePayload, get_eq_ok]

theorem decodeCanFdFramePayload_total (size : ℕ) : Total size decodeCanFdFramePayload :=
  fun payload _ => by
    have hlen : (zeroPad 72 (payload.take 72)).length = 72 :=
      zeroPad_length (by rw [List.length_take]; omega)
    simp (disch := simp [hlen]) [decodeCanFdFramePayload, get_eq_ok]

theorem payloadDecoders_total :
    ∀ entry ∈ payloadDecoders, Total (payloadSize entry.1) entry.2 := by
  simp only [payloadDecoders, List.forall_mem_cons]
  exact ⟨decodeHeartbeatPayload_total.map _, decodeSysStatusPayload_total.map _,
    decodeGpsRawIntPayload_total.map _, decodeGlobalPositionIntPayload_total.map _,
    decodeParamRequestListPayload_total.map _, decodeParamRequestReadPayload_total.map _,
    decodeParamValuePayload_total.map _, decodeParamSetPayload_total.map _,
    decodeAttitudePayload_total.map _, decodeAttitudeQuaternionPayload_total.map _,
    decodeScaledImuPayload_total.map _, decodeRcChannelsPayload_total.map _,
    decodeRcChannelsRawPayload_total.map _, decodeServoOutputRawPayload_total.map _,
    total_of_eq fun _ => rfl, decodeCommandAckPayload_total.map _,
    decodeCommandLongPayload_total.map _, decodeAutopilotVersionPayload_total.map _,
    decodeStatusTextPayload_total.map _, decodeLogRequestListPayload_total.map _,
    decodeLogEntryPayload_total.map _, decodeLogRequestDataPayload_total.map _,
    decodeLogDataPayload_total.map _, total_of_eq fun _ => rfl, total_of_eq fun _ => rfl,
    decodeMagCalProgressPayload_total.map _, decodeMagCalReportPayload_total.map _,
    decodeUavcanNodeStatusPayload_total.map _, decodeUavcanNodeInfoPayload_total.map _,
    decodeOpticalFlowPayload_total.map _, decodeDistanceSensorPayload_total.map _,
    (decodeEscTelemetryPayload_total 0).map _, (decodeEscTelemetryPayload_total 4).map _,
    (decodeEscTelemetryPayload_total 8).map _, (decodeAvailableModePayload_total _).map _,
    total_of_eq fun _ => rfl, decodeCanFramePayload_total.map _,
    (decodeCanFdFramePayload_total _).map _, by simp⟩

/-! ## Round trips -/

@[simp] theorem copyFixedBytes_length (value : Bytes) (size : ℕ) :
    (copyFixedBytes value size).length = size :=
  zeroPad_length (by rw [List.length_take]; omega)

theorem copyFixedBytes_eq {value : Bytes} (h : value.length = size) :
    copyFixedBytes value size = value := by
  rw [copyFixedBytes, List.take_of_length_le (by omega), ← h, zeroPad_self]

@[simp] theorem encodeFixedString_length (value : String) (size : ℕ) :
    (encodeFixedString value size).length = size :=
  zeroPad_length (by rw [List.length_take]; omega)

@[simp] theorem filled_length {α : Type} (n : ℕ) (default : α) (values : List α) :
    (filled n default values).length = n := by rw [filled, List.length_map, List.length_range]

theorem filled_eq {n : ℕ} {default : α} {values : List α} (h : values.length = n) :
    filled n default values = values := by
  subst h
  apply List.ext_getElem (filled_length _ _ _)
  intro i hi hi'
  simp only [filled, List.getElem_map, List.getElem_range, List.getD_eq_getElem?_getD,
    List.getElem?_eq_getElem hi', Option.getD_some]

/-- Text a field of `size` bytes holds: no NUL and at most that many bytes. -/
def FitsField (size : ℕ) (text : String) : Prop :=
  Char.ofNat 0 ∉ text.toList ∧ (textEncode text).length ≤ size

/-- `TextDecoder` drops a byte order mark. -/
def NoByteOrderMark (text : String) : Prop := text.toList.head? ≠ some (Char.ofNat 0xfeff)

variable {text : String}

theorem decodeFixedString_append (hzero : Char.ofNat 0 ∉ text.toList) (hbom : NoByteOrderMark text)
    (n : ℕ) :
    decodeFixedString (textEncode text ++ List.replicate n 0) = text := by
  have hnz : ∀ b ∈ textEncode text, decide (b ≠ 0) = true := fun b hb =>
    decide_eq_true fun h => zero_notMem_textEncode hzero (h ▸ hb)
  have htake : (textEncode text ++ List.replicate n (0 : UInt8)).takeWhile (· ≠ 0) =
      textEncode text := by
    rw [List.takeWhile_append_of_pos hnz]
    cases n with
    | zero => rw [List.replicate_zero, List.takeWhile_nil, List.append_nil]
    | succ n => rw [List.replicate_succ, List.takeWhile_cons_of_neg (by decide), List.append_nil]
  rw [decodeFixedString, htake, textDecode_textEncode hbom]

theorem decodeFixedString_encodeFixedString (h : FitsField size text)
    (hbom : NoByteOrderMark text) : decodeFixedString (encodeFixedString text size) = text := by
  rw [encodeFixedString, List.take_of_length_le h.2, zeroPad, decodeFixedString_append h.1 hbom]

/-- The encoder's payload, padded to `size` bytes again if it was shorter, decodes to the message. -/
def RoundTrips {α : Type} (size : ℕ) (encoded : Except Thrown Bytes)
    (decode : Bytes → Except Thrown α) (message : α) : Prop :=
  ∃ payload, encoded = .ok payload ∧ 0 < payload.length ∧ payload.length ≤ size ∧
    decode (zeroPad size payload) = .ok message

theorem RoundTrips.map {encoded : Except Thrown Bytes} {message : α}
    (h : RoundTrips size encoded decode message) (f : α → β) :
    RoundTrips size encoded (fun payload => f <$> decode payload) (f message) := by
  obtain ⟨payload, hencode, hpos, hsize, hdecode⟩ := h
  exact ⟨payload, hencode, hpos, hsize, congrArg (f <$> ·) hdecode⟩

variable {ws : List Write}

theorem roundTrips_of_laid {message : α} (hpos : 0 < size) (h : Laid size 0 ws)
    (hdecode : ∀ payload : Bytes, payload.length = size → (∀ w ∈ ws, Stored payload w) → decode payload = .ok message) :
    RoundTrips size (build size ws) decode message := by
  obtain ⟨payload, hbuild, hlen, hstored⟩ := build_laid h
  refine ⟨payload, hbuild, by omega, by omega, ?_⟩
  rw [← hlen, zeroPad_self]
  exact hdecode payload hlen hstored

theorem byteOr_of_get {index : ℕ} {byte : UInt8} (h : get UInt8 payload index = .ok byte) :
    byteOr payload index = byte := by
  by_cases hfit : index + Wire.width UInt8 ≤ payload.length
  · have hlt : index < payload.length := hfit
    rw [get_eq_ok hfit, Except.ok.injEq] at h
    have hslice : slice payload index 1 = [payload[index]] := by
      rw [slice, List.drop_eq_getElem_cons hlt, List.take_succ_cons, List.take_zero]
    have hbyte : fieldAt UInt8 payload index = payload[index] := by
      rw [fieldAt, width_uint8, hslice, ofLE_cons, ofLE_nil, Nat.mul_zero, Nat.add_zero]
      exact Wire.ofNat_toNat _
    rw [byteOr, List.getD_eq_getElem?_getD, List.getElem?_eq_getElem hlt, Option.getD_some, ← h,
      hbyte]
  · rw [get, readLE, if_neg hfit] at h
    cases h

variable {w : Write}

theorem Stored.zeroPad (h : Stored payload w) (size : ℕ) :
    Stored (zeroPad size payload) w := by
  have hlen : payload.length ≤ (ArduConfigurator.zeroPad size payload).length := by
    rw [ArduConfigurator.zeroPad, List.length_append]
    omega
  refine ⟨Nat.le_trans h.1 hlen, ?_⟩
  rw [ArduConfigurator.zeroPad, slice_append_left _ h.1, h.2]

theorem stored_cons :
    (∀ v ∈ w :: ws, Stored payload v) ↔ Stored payload w ∧ ∀ v ∈ ws, Stored payload v :=
  List.forall_mem_cons

theorem sysStatus_roundTrips {message : SysStatusMessage} :
    RoundTrips 43 (encodeSysStatusPayload message) decodeSysStatusPayload message := by
  refine roundTrips_of_laid (by decide) (by simp) fun payload hlen hs => ?_
  simp only [stored_cons, stored_put] at hs
  simp [decodeSysStatusPayload, getFrom, hlen, hs]

theorem globalPositionInt_roundTrips {message : GlobalPositionIntMessage} :
    RoundTrips 28 (encodeGlobalPositionIntPayload message) decodeGlobalPositionIntPayload
      message := by
  refine roundTrips_of_laid (by decide) (by simp) fun payload hlen hs => ?_
  simp only [stored_cons, stored_put] at hs
  simp [decodeGlobalPositionIntPayload, hs]

theorem attitude_roundTrips {message : AttitudeMessage} :
    RoundTrips 28 (encodeAttitudePayload message) decodeAttitudePayload message := by
  refine roundTrips_of_laid (by decide) (by simp) fun payload hlen hs => ?_
  simp only [stored_cons, stored_put] at hs
  simp [decodeAttitudePayload, hs]

theorem scaledImu_roundTrips {message : ScaledImuMessage} :
    RoundTrips 24 (encodeScaledImuPayload message) decodeScaledImuPayload message := by
  refine roundTrips_of_laid (by decide) (by simp) fun payload hlen hs => ?_
  simp only [stored_cons, stored_put] at hs
  simp [decodeScaledImuPayload, hs]

theorem paramRequestList_roundTrips {message : ParamRequestListMessage} :
    RoundTrips 2 (encodeParamRequestListPayload message) decodeParamRequestListPayload message := by
  refine roundTrips_of_laid (by decide) (by simp) fun payload hlen hs => ?_
  simp only [stored_cons, stored_put] at hs
  simp [decodeParamRequestListPayload, hs]

theorem commandAck_roundTrips {message : CommandAckMessage} :
    RoundTrips 10 (encodeCommandAckPayload message) decodeCommandAckPayload message := by
  refine roundTrips_of_laid (by decide) (by simp) fun payload hlen hs => ?_
  simp only [stored_cons, stored_put] at hs
  simp [decodeCommandAckPayload, getFrom, hlen, hs]

theorem logRequestList_roundTrips {message : LogRequestListMessage} :
    RoundTrips 6 (encodeLogRequestListPayload message) decodeLogRequestListPayload message := by
  refine roundTrips_of_laid (by decide) (by simp) fun payload hlen hs => ?_
  simp only [stored_cons, stored_put] at hs
  simp [decodeLogRequestListPayload, hs]

theorem logEntry_roundTrips {message : LogEntryMessage} :
    RoundTrips 14 (encodeLogEntryPayload message) decodeLogEntryPayload message := by
  refine roundTrips_of_laid (by decide) (by simp) fun payload hlen hs => ?_
  simp only [stored_cons, stored_put] at hs
  simp [decodeLogEntryPayload, hs]

theorem logRequestData_roundTrips {message : LogRequestDataMessage} :
    RoundTrips 12 (encodeLogRequestDataPayload message) decodeLogRequestDataPayload message := by
  refine roundTrips_of_laid (by decide) (by simp) fun payload hlen hs => ?_
  simp only [stored_cons, stored_put] at hs
  simp [decodeLogRequestDataPayload, hs]

theorem magCalReport_roundTrips {message : MagCalReportMessage} :
    RoundTrips 54 (encodeMagCalReportPayload message) decodeMagCalReportPayload message := by
  refine roundTrips_of_laid (by decide) (by simp) fun payload hlen hs => ?_
  simp only [stored_cons, stored_put] at hs
  simp [decodeMagCalReportPayload, getFrom, hlen, hs]

theorem opticalFlow_roundTrips {message : OpticalFlowMessage} :
    RoundTrips 34 (encodeOpticalFlowPayload message) decodeOpticalFlowPayload message := by
  refine roundTrips_of_laid (by decide) (by simp) fun payload hlen hs => ?_
  simp only [stored_cons, stored_put] at hs
  simp [decodeOpticalFlowPayload, getFrom, hlen, hs]

theorem distanceSensor_roundTrips {message : DistanceSensorMessage} :
    RoundTrips 39 (encodeDistanceSensorPayload message) decodeDistanceSensorPayload message := by
  refine roundTrips_of_laid (by decide) (by simp) fun payload hlen hs => ?_
  simp only [stored_cons, stored_put] at hs
  simp [decodeDistanceSensorPayload, getFrom, hlen, hs]

theorem uavcanNodeStatus_roundTrips {message : UavcanNodeStatusMessage} :
    RoundTrips 17 (encodeUavcanNodeStatusPayload message) decodeUavcanNodeStatusPayload
      message := by
  refine roundTrips_of_laid (by decide) (by simp) fun payload hlen hs => ?_
  simp only [stored_cons, stored_put] at hs
  simp [decodeUavcanNodeStatusPayload, hs]

theorem heartbeat_roundTrips {message : HeartbeatMessage}
    (h : message.mavlinkVersion ≠ 0) :
    RoundTrips 9 (encodeHeartbeatPayload message) decodeHeartbeatPayload message := by
  refine roundTrips_of_laid (by decide) (by simp) fun payload hlen hs => ?_
  simp only [stored_cons, stored_put] at hs
  simp [decodeHeartbeatPayload, h, hs]

theorem paramRequestRead_roundTrips {message : ParamRequestReadMessage}
    (h : FitsField 16 message.paramId)
    (hbom : NoByteOrderMark message.paramId) :
    RoundTrips 20 (encodeParamRequestReadPayload message) decodeParamRequestReadPayload
      message := by
  refine roundTrips_of_laid (by decide) (by simp) fun payload hlen hs => ?_
  simp only [stored_cons, stored_put, stored_putBytes, encodeFixedString_length] at hs
  simp [decodeParamRequestReadPayload, hs, decodeFixedString_encodeFixedString h hbom]

theorem paramValue_roundTrips {message : ParamValueMessage}
    (h : FitsField 16 message.paramId)
    (hbom : NoByteOrderMark message.paramId) :
    RoundTrips 25 (encodeParamValuePayload message) decodeParamValuePayload message := by
  refine roundTrips_of_laid (by decide) (by simp) fun payload hlen hs => ?_
  simp only [stored_cons, stored_put, stored_putBytes, encodeFixedString_length] at hs
  simp [decodeParamValuePayload, hs, decodeFixedString_encodeFixedString h hbom]

theorem paramSet_roundTrips {message : ParamSetMessage}
    (h : FitsField 16 message.paramId)
    (hbom : NoByteOrderMark message.paramId) :
    RoundTrips 23 (encodeParamSetPayload message) decodeParamSetPayload message := by
  refine roundTrips_of_laid (by decide) (by simp) fun payload hlen hs => ?_
  simp only [stored_cons, stored_put, stored_putBytes, encodeFixedString_length] at hs
  simp [decodeParamSetPayload, hs, decodeFixedString_encodeFixedString h hbom]

theorem statusText_roundTrips {message : StatusTextMessage}
    (h : FitsField 50 message.text)
    (hbom : NoByteOrderMark message.text) :
    RoundTrips 54 (encodeStatusTextPayload message) decodeStatusTextPayload message := by
  refine roundTrips_of_laid (by decide) (by simp) fun payload hlen hs => ?_
  simp only [stored_cons, stored_put, stored_putBytes, encodeFixedString_length] at hs
  simp [decodeStatusTextPayload, getFrom, hlen, hs, decodeFixedString_encodeFixedString h hbom]

theorem logData_roundTrips {message : LogDataMessage} (h : message.data.length = 90) :
    RoundTrips 97 (encodeLogDataPayload message) decodeLogDataPayload message := by
  have hdata : message.data.take 90 = message.data := List.take_of_length_le (by omega)
  refine roundTrips_of_laid (by decide) (by simp [h]) fun payload hlen hs => ?_
  simp only [stored_cons, stored_put, stored_putBytes, hdata, h] at hs
  simp [decodeLogDataPayload, hs]

theorem magCalProgress_roundTrips {message : MagCalProgressMessage}
    (h : message.completionMask.length = 10) :
    RoundTrips 27 (encodeMagCalProgressPayload message) decodeMagCalProgressPayload message := by
  have hmask : message.completionMask.take 10 = message.completionMask :=
    List.take_of_length_le (by omega)
  refine roundTrips_of_laid (by decide) (by simp [h]) fun payload hlen hs => ?_
  simp only [stored_cons, stored_put, stored_putBytes, hmask, h] at hs
  simp [decodeMagCalProgressPayload, hs]

theorem canFrame_roundTrips {message : CanFrameMessage} (h : message.data.length = 8) :
    RoundTrips 16 (encodeCanFramePayload message) decodeCanFramePayload message := by
  refine roundTrips_of_laid (by decide) (by simp) fun payload hlen hs => ?_
  simp only [stored_cons, stored_put, stored_putBytes, copyFixedBytes_eq h, h] at hs
  simp [decodeCanFramePayload, hs]

theorem canFdFrame_roundTrips {message : CanFdFrameMessage} (h : message.data.length = 64)
    (hmax : message.len.toNat ≤ 64) :
    RoundTrips 72 (encodeCanFdFramePayload message) decodeCanFdFramePayload message := by
  refine roundTrips_of_laid (by decide) (by simp) fun payload hlen hs => ?_
  have hpad : zeroPad 72 (payload.take 72) = payload := by
    rw [List.take_of_length_le (by omega), ← hlen, zeroPad_self]
  simp only [stored_cons, stored_put, stored_putBytes, copyFixedBytes_eq h, h] at hs
  simp [decodeCanFdFramePayload, hpad, hs, Nat.min_eq_right hmax]

theorem uavcanNodeInfo_roundTrips {message : UavcanNodeInfoMessage}
    (h : FitsField 80 message.name) (hbom : NoByteOrderMark message.name)
    (hid : message.hwUniqueId.length = 16) :
    RoundTrips 116 (encodeUavcanNodeInfoPayload message) decodeUavcanNodeInfoPayload message := by
  refine roundTrips_of_laid (by decide) (by simp) fun payload hlen hs => ?_
  simp only [stored_cons, stored_put, stored_putBytes, encodeFixedString_length,
    copyFixedBytes_eq hid, hid] at hs
  simp [decodeUavcanNodeInfoPayload, hs, decodeFixedString_encodeFixedString h hbom]

theorem rcChannels_roundTrips {message : RcChannelsMessage} (h : message.channels.length = 18) :
    RoundTrips 42 (encodeRcChannelsPayload message) decodeRcChannelsPayload message := by
  refine roundTrips_of_laid (by decide) (by simp) fun payload hlen hs => ?_
  simp only [stored_cons, stored_put, filled_eq h] at hs
  have hchannels := getArray_of_stored hs.2.1
  rw [h] at hchannels
  simp [decodeRcChannelsPayload, hs, hchannels]

theorem rcChannelsRaw_roundTrips {message : RcChannelsRawMessage}
    (h : message.channels.length = 8) :
    RoundTrips 22 (encodeRcChannelsRawPayload message) decodeRcChannelsRawPayload message := by
  refine roundTrips_of_laid (by decide) (by simp) fun payload hlen hs => ?_
  simp only [stored_cons, stored_put, filled_eq h] at hs
  have hchannels := getArray_of_stored hs.2.1
  rw [h] at hchannels
  simp [decodeRcChannelsRawPayload, hs, hchannels]

theorem servoOutputRaw_roundTrips {message : ServoOutputRawMessage}
    (h : message.servos.length = 16) :
    RoundTrips 37 (encodeServoOutputRawPayload message) decodeServoOutputRawPayload message := by
  refine roundTrips_of_laid (by decide) (by simp) fun payload hlen hs => ?_
  simp only [stored_cons, stored_put, filled_eq h] at hs
  have hservos := getArray_of_stored hs.2.1
  have hextension := getArray_of_stored hs.2.2.2.1
  rw [List.length_take, h, Nat.min_eq_left (by decide)] at hservos
  rw [List.length_drop, h] at hextension
  simp [decodeServoOutputRawPayload, getFrom, hlen, hs, hservos, hextension]

theorem commandLong_roundTrips {message : CommandLongMessage} (h : message.params.length = 7) :
    RoundTrips 33 (encodeCommandLongPayload message) decodeCommandLongPayload message := by
  refine roundTrips_of_laid (by decide) (by simp [h]) fun payload hlen hs => ?_
  simp only [stored_cons, stored_put] at hs
  have hparams := getArray_of_stored hs.1
  rw [h] at hparams
  simp [decodeCommandLongPayload, hs, hparams]

theorem escTelemetry_roundTrips {message : EscTelemetryMessage}
    (htemperature : message.temperatureC.length = 4) (hvoltage : message.voltageCv.length = 4)
    (hcurrent : message.currentCa.length = 4) (htotal : message.totalCurrentMah.length = 4)
    (hrpm : message.rpm.length = 4) (hcount : message.count.length = 4) :
    RoundTrips 44 (encodeEscTelemetryPayload message)
      (decodeEscTelemetryPayload · message.groupStartIndex) message := by
  refine roundTrips_of_laid (by decide) (by simp [ESC_TELEMETRY_GROUP_SIZE])
    fun payload hlen hs => ?_
  simp only [stored_cons, ESC_TELEMETRY_GROUP_SIZE, filled_eq htemperature, filled_eq hvoltage,
    filled_eq hcurrent, filled_eq htotal, filled_eq hrpm, filled_eq hcount] at hs
  obtain ⟨hs0, hs8, hs16, hs24, hs32, hs40, -⟩ := hs
  have h0 := getArray_of_stored hs0
  have h8 := getArray_of_stored hs8
  have h16 := getArray_of_stored hs16
  have h24 := getArray_of_stored hs24
  have h32 := getArray_of_stored hs32
  have h40 := getArray_of_stored hs40
  simp only [htemperature, hvoltage, hcurrent, htotal, hrpm, hcount] at h0 h8 h16 h24 h32 h40
  simp [decodeEscTelemetryPayload, ESC_TELEMETRY_GROUP_SIZE, h0, h8, h16, h24, h32, h40]

theorem gpsRawInt_roundTrips {message : GpsRawIntMessage} (h : message.timeUsec < 2 ^ 64)
    (hexact : numberOfNat message.timeUsec = message.timeUsec) :
    RoundTrips 30 (encodeGpsRawIntPayload message) decodeGpsRawIntPayload message := by
  refine roundTrips_of_laid (by decide) (by simp) fun payload hlen hs => ?_
  simp only [stored_cons, stored_put] at hs
  have htime : (UInt64.ofNat message.timeUsec).toNat = message.timeUsec := by
    rw [UInt64.toNat_ofNat', Nat.mod_eq_of_lt h]
  have hfix := byteOr_of_get hs.2.2.2.2.2.2.2.2.1
  have hsatellites := byteOr_of_get hs.2.2.2.2.2.2.2.2.2.1
  simp [decodeGpsRawIntPayload, hs, htime, hexact, hfix, hsatellites]

theorem logRequestEnd_roundTrips {message : LogRequestEndMessage} :
    RoundTrips 2 (encodeLogRequestEndPayload message) decodeLogRequestEndPayload message := by
  refine roundTrips_of_laid (by decide) (by simp) fun payload hlen hs => ?_
  simp only [stored_cons, stored_put] at hs
  simp [decodeLogRequestEndPayload, byteOr_of_get hs.1, byteOr_of_get hs.2.1]

theorem logErase_roundTrips {message : LogEraseMessage} :
    RoundTrips 2 (encodeLogErasePayload message) decodeLogErasePayload message := by
  refine roundTrips_of_laid (by decide) (by simp) fun payload hlen hs => ?_
  simp only [stored_cons, stored_put] at hs
  simp [decodeLogErasePayload, byteOr_of_get hs.1, byteOr_of_get hs.2.1]

theorem fileTransferProtocol_roundTrips {message : FileTransferProtocolMessage}
    (h : message.payload.length = 251) :
    RoundTrips 254 (encodeFileTransferProtocolPayload message) decodeFileTransferProtocolPayload
      message := by
  have hsize : payloadSize FILE_TRANSFER_PROTOCOL - 3 = 251 := rfl
  have htake : message.payload.take 251 = message.payload := List.take_of_length_le (by omega)
  refine roundTrips_of_laid (by decide) (by simp [hsize, h]) fun payload hlen hs => ?_
  simp only [stored_cons, stored_put, stored_putBytes, hsize, htake, h] at hs
  have hdrop : payload.drop 3 = message.payload := by
    rw [← hs.2.2.2.1.2, slice, List.take_of_length_le (by rw [List.length_drop]; omega)]
  simp [decodeFileTransferProtocolPayload, byteOr_of_get hs.1, byteOr_of_get hs.2.1,
    byteOr_of_get hs.2.2.1, hdrop]

theorem autopilotVersion_roundTrips {message : AutopilotVersionMessage} {uid2 : Bytes}
    (hflight : message.flightCustomVersion.length = 8)
    (hmiddleware : message.middlewareCustomVersion.length = 8)
    (hos : message.osCustomVersion.length = 8) (huid2 : message.uid2 = some uid2)
    (hlength : uid2.length = 18) :
    RoundTrips 78 (encodeAutopilotVersionPayload message) decodeAutopilotVersionPayload
      message := by
  rw [encodeAutopilotVersionPayload, huid2, Option.getD_some]
  split
  · refine roundTrips_of_laid (by decide) (by simp) fun payload hlen hs => ?_
    simp only [List.cons_append, List.nil_append, stored_cons, stored_put, stored_putBytes,
      copyFixedBytes_eq hflight, copyFixedBytes_eq hmiddleware, copyFixedBytes_eq hos,
      copyFixedBytes_eq hlength, hflight, hmiddleware, hos, hlength] at hs
    simp [decodeAutopilotVersionPayload, hlen, hs, ← huid2]
  · next hzero =>
    have hlaid : Laid 60 0 [put 0 message.capabilities, put 8 message.uid,
        put 16 message.flightSwVersion, put 20 message.middlewareSwVersion,
        put 24 message.osSwVersion, put 28 message.boardVersion, put 32 message.vendorId,
        put 34 message.productId, putBytes 36 (copyFixedBytes message.flightCustomVersion 8),
        putBytes 44 (copyFixedBytes message.middlewareCustomVersion 8),
        putBytes 52 (copyFixedBytes message.osCustomVersion 8)] := by simp
    obtain ⟨payload, hbuild, hlen, hs⟩ := build_laid hlaid
    refine ⟨payload, hbuild, by omega, by omega, ?_⟩
    have hlen' : (zeroPad 78 payload).length = 78 := zeroPad_length (by omega)
    have hzeros : uid2 = List.replicate 18 0 :=
      List.eq_replicate_iff.mpr ⟨hlength, fun byte hbyte => by
        by_contra hne
        exact hzero (List.any_eq_true.mpr ⟨byte, hbyte, decide_eq_true hne⟩)⟩
    have hrest : slice (zeroPad 78 payload) 60 18 = uid2 := by
      have htail := slice_append_right payload (List.replicate 18 0) 0 18
      rw [hlen, ← hzeros, slice_zero_of_length hlength] at htail
      rw [zeroPad, hlen, ← htail, hzeros]
    replace hs := fun w hw => Stored.zeroPad (hs w hw) 78
    simp only [stored_cons, stored_put, stored_putBytes, copyFixedBytes_eq hflight,
      copyFixedBytes_eq hmiddleware, copyFixedBytes_eq hos, hflight, hmiddleware, hos] at hs
    simp [decodeAutopilotVersionPayload, hlen', hs, hrest, ← huid2]

end ArduConfigurator.Mavlink
