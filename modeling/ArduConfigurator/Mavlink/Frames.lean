import ArduConfigurator.Mavlink.CodecSound

/-! # Encoded frames

What the encoders build is a frame, with the header, the id and the payload it was built from, and
`push` takes a frame at the front of its buffer in one iteration. -/
namespace ArduConfigurator.Mavlink
set_option autoImplicit false

/-! ## Reading a frame back -/

section
variable {D : Dialect} {incompatFlags : UInt8} {header : MavlinkHeader} {messageId : ℕ}
  {payload : Bytes}

@[simp] theorem headerBytes_length (payloadLength : ℕ) :
    (headerBytes payloadLength incompatFlags header messageId).length = 10 := by
  rw [headerBytes, List.length_append, leBytes_length]
  rfl

@[simp] theorem frameBytes_length :
    (frameBytes D incompatFlags header messageId payload).length = 12 + payload.length := by
  simp only [frameBytes, List.length_append, headerBytes_length, leBytes_length]
  omega

theorem byteOr_one_frameBytes (trailer : Bytes) (h : payload.length ≤ 255) :
    (byteOr (frameBytes D incompatFlags header messageId payload ++ trailer) 1).toNat =
      payload.length := by
  show (UInt8.ofNat payload.length).toNat = payload.length
  rw [UInt8.toNat_ofNat', Nat.mod_eq_of_lt (by omega)]

theorem messageIdOf_frameBytes (trailer : Bytes) (h : messageId < 2 ^ 24) :
    messageIdOf (frameBytes D incompatFlags header messageId payload ++ trailer) = messageId := by
  have hslice : slice (frameBytes D incompatFlags header messageId payload ++ trailer) 7 3 =
      leBytes 3 messageId := by
    rw [frameBytes, headerBytes]
    simp only [List.append_assoc]
    refine (slice_append_right _ _ 0 3).trans ?_
    rw [slice_append_left _ (by rw [leBytes_length]), slice_zero_of_length (leBytes_length _ _)]
  rw [messageIdOf, hslice, ofLE_leBytes_of_lt (by omega)]

theorem slice_frameBytes (trailer : Bytes) :
    slice (frameBytes D incompatFlags header messageId payload ++ trailer) 10 payload.length =
      payload := by
  rw [frameBytes]
  simp only [List.append_assoc]
  have hright := slice_append_right (headerBytes payload.length incompatFlags header messageId)
    (payload ++ (leBytes 2 (crcMessage (((headerBytes payload.length incompatFlags header
      messageId) ++ payload).drop 1) ((crcExtraFor D messageId).getD 0)).toNat ++ trailer))
    0 payload.length
  rw [headerBytes_length, Nat.add_zero] at hright
  rw [hright, slice_append_left _ (by omega), slice_zero_of_length rfl]

theorem checksumOk_frameBytes {crcExtra : UInt8} (trailer : Bytes) (hlen : payload.length ≤ 255)
    (hid : messageId < 2 ^ 24) (hcrc : crcExtraFor D messageId = some crcExtra) :
    checksumOk D (frameBytes D incompatFlags header messageId payload ++ trailer) = true := by
  rw [checksumOk, messageIdOf_frameBytes trailer hid, hcrc, byteOr_one_frameBytes trailer hlen]
  simp only [decide_eq_true_eq]
  generalize hfront : headerBytes payload.length incompatFlags header messageId ++ payload = front
  have hfrontLength : front.length = 10 + payload.length := by
    rw [← hfront, List.length_append, headerBytes_length]
  have hframe : frameBytes D incompatFlags header messageId payload =
      front ++ leBytes 2 (crcMessage (front.drop 1) crcExtra).toNat := by
    rw [frameBytes, hfront, hcrc, Option.getD_some]
  have hcovered : slice (front ++ leBytes 2 (crcMessage (front.drop 1) crcExtra).toNat ++ trailer)
      1 (9 + payload.length) = front.drop 1 := by
    rw [List.append_assoc, slice_append_left _ (by omega), slice,
      List.take_of_length_le (by rw [List.length_drop]; omega)]
  have hreceived : slice (front ++ leBytes 2 (crcMessage (front.drop 1) crcExtra).toNat ++ trailer)
      (10 + payload.length) 2 = leBytes 2 (crcMessage (front.drop 1) crcExtra).toNat := by
    have hright := slice_append_right front
      (leBytes 2 (crcMessage (front.drop 1) crcExtra).toNat ++ trailer) 0 2
    rw [Nat.add_zero, hfrontLength] at hright
    rw [List.append_assoc, hright, slice_append_left _ (by rw [leBytes_length]),
      slice_zero_of_length (leBytes_length _ _)]
  rw [hframe, hcovered, fieldAt, width_uint16, hreceived,
    ofLE_leBytes_of_lt (crcMessage (front.drop 1) crcExtra).toNat_lt]
  exact (Wire.ofNat_toNat (crcMessage (front.drop 1) crcExtra)).symm

variable {trailer : Bytes}

theorem isFrame_frameBytes (hlen : payload.length ≤ 255) (hid : messageId < 2 ^ 24)
    (hcrc : (crcExtraFor D messageId).isSome)
    (htrailer : trailer.length = signedLengthOf incompatFlags) :
    IsFrame D (frameBytes D incompatFlags header messageId payload ++ trailer) := by
  obtain ⟨crcExtra, hcrc⟩ := Option.isSome_iff_exists.mp hcrc
  have hlength : (frameBytes D incompatFlags header messageId payload ++ trailer).length =
      12 + payload.length + signedLengthOf incompatFlags := by
    rw [List.length_append, frameBytes_length, htrailer]
  have hflags : byteOr (frameBytes D incompatFlags header messageId payload ++ trailer) 2 =
      incompatFlags := rfl
  have hframe : frameLength (frameBytes D incompatFlags header messageId payload ++ trailer) =
      12 + payload.length + signedLengthOf incompatFlags := by
    rw [frameLength, byteOr_one_frameBytes trailer hlen, hflags]
    simp only [frameLengthOf, MAVLINK_V2_HEADER_LENGTH, MAVLINK_V2_CHECKSUM_LENGTH]
    omega
  exact ⟨⟨rfl, by omega, by omega, checksumOk_frameBytes trailer hlen hid hcrc⟩, by omega⟩

theorem payloadOf_frameBytes (hlen : payload.length ≤ 255) (hid : messageId < 2 ^ 24) :
    payloadOf (frameBytes D incompatFlags header messageId payload ++ trailer) =
      zeroPad ((MAVLINK_PAYLOAD_LENGTHS messageId).getD payload.length) payload := by
  rw [payloadOf, messageIdOf_frameBytes trailer hid, byteOr_one_frameBytes trailer hlen,
    slice_frameBytes]

theorem envelopeOf_frameBytes (trailer : Bytes) (message : MavlinkMessage) :
    envelopeOf (frameBytes D incompatFlags header messageId payload ++ trailer) message =
      ⟨header, message, 12 + payload.length + trailer.length⟩ := by
  rw [envelopeOf, List.length_append, frameBytes_length]
  rfl

end

/-! ## What the encoder builds -/

variable {payload : Bytes}

theorem build_length {size : ℕ} {ws : List Write} (h : build size ws = .ok payload) :
    payload.length = size := by
  rw [build] at h
  split at h
  · next hfit =>
    cases h
    exact written_length hfit
  · cases h

variable {D : Dialect}

theorem encodeGenericPayload_length {name : String} {fields : List (String × GenericValue)}
    (h : encodeGenericPayload D name fields = .ok payload) : payload.length ≤ 255 := by
  rw [encodeGenericPayload] at h
  split at h
  · cases h
  · next d hd =>
    obtain ⟨messageId, -, hdef⟩ := Option.bind_eq_some_iff.mp hd
    obtain ⟨-, hwf, -⟩ := D.definitionFor_spec hdef
    split at h
    · cases h
    · next writes _ =>
      cases hbuild : build d.length writes with
      | error thrown =>
        rw [hbuild] at h
        cases h
      | ok buffer =>
        rw [hbuild] at h
        cases h
        have hlength := build_length hbuild
        have htrim := trimZeros_length_le buffer
        have hmax := hwf.length_le
        omega

variable {message : MavlinkMessage}

theorem encodePayload_length (h : encodePayload D message = .ok payload) :
    payload.length ≤ 255 := by
  cases message with
  | GENERIC message => exact encodeGenericPayload_length h
  | AUTOPILOT_VERSION message =>
    rw [encodePayload, encodeAutopilotVersionPayload] at h
    rw [build_length h]
    split <;> decide
  | ATTITUDE_QUATERNION _ => cases h
  | AVAILABLE_MODE _ => cases h
  | AVAILABLE_MODES_MONITOR _ => cases h
  | _ =>
    rw [encodePayload] at h
    exact Nat.le_trans (Nat.le_of_eq (build_length h)) (by decide)

theorem messageIdFor_spec {messageId : ℕ} (h : messageIdFor D message = .ok messageId) :
    messageId < 2 ^ 24 ∧ (crcExtraFor D messageId).isSome := by
  cases message with
  | GENERIC message =>
    rw [messageIdFor] at h
    split at h
    · next id hid =>
      cases h
      obtain ⟨d, hd, -⟩ := D.exists_definitionFor hid
      obtain ⟨hdid, hwf, -⟩ := D.definitionFor_spec hd
      refine ⟨hdid ▸ hwf.id_lt, ?_⟩
      rw [crcExtraFor]
      split
      · rfl
      · rw [Dialect.mavlinkGenericCrcExtra, hd]
        rfl
    · cases h
  | ESC_TELEMETRY message =>
    rw [messageIdFor] at h
    cases h
    split
    · exact ⟨by decide, rfl⟩
    · split
      · exact ⟨by decide, rfl⟩
      · exact ⟨by decide, rfl⟩
  | ATTITUDE_QUATERNION _ => cases h
  | AVAILABLE_MODE _ => cases h
  | AVAILABLE_MODES_MONITOR _ => cases h
  | _ =>
    cases h
    exact ⟨by decide, rfl⟩

theorem signedLengthOf_signed :
    signedLengthOf MAVLINK_V2_INCOMPAT_FLAG_SIGNED = MAVLINK_V2_SIGNATURE_LENGTH := by decide

variable {f : Bytes} {codec codec' : MavlinkV2Codec} {header : MavlinkHeader}

theorem encode_spec (h : codec.encode D header message = .ok (f, codec')) :
    ∃ messageId payload flags trailer, messageIdFor D message = .ok messageId ∧
      encodePayload D message = .ok payload ∧
      f = frameBytes D flags header messageId payload ++ trailer ∧
      trailer.length = signedLengthOf flags ∧
      flags &&& ~~~MAVLINK_V2_INCOMPAT_FLAG_SIGNED = 0 := by
  rw [MavlinkV2Codec.encode] at h
  cases hid : messageIdFor D message with
  | error thrown =>
    rw [hid] at h
    cases h
  | ok messageId =>
    cases hpayload : encodePayload D message with
    | error thrown =>
      rw [hid, hpayload] at h
      cases h
    | ok payload =>
      rw [hid, hpayload, ok_bind, ok_bind] at h
      cases hsigning : codec.activeSigning with
      | none =>
        rw [hsigning] at h
        cases h
        exact ⟨messageId, payload, 0, [], rfl, rfl, (List.append_nil _).symm, by decide, by decide⟩
      | some signing =>
        rw [hsigning] at h
        cases h
        refine ⟨messageId, payload, MAVLINK_V2_INCOMPAT_FLAG_SIGNED, _, rfl, rfl,
          by rw [List.append_assoc, List.append_assoc], ?_, by decide⟩
        rw [signedLengthOf_signed]
        simp only [List.length_append, List.length_cons, List.length_nil, leBytes_length,
          computeSignature_length, MAVLINK_V2_SIGNATURE_LENGTH]

theorem encode_isFrame (h : codec.encode D header message = .ok (f, codec')) :
    IsFrame D f := by
  obtain ⟨messageId, payload, flags, trailer, hid, hpayload, rfl, htrailer, -⟩ := encode_spec h
  obtain ⟨hlt, hcrc⟩ := messageIdFor_spec hid
  exact isFrame_frameBytes (encodePayload_length hpayload) hlt hcrc htrailer

/-! ## A frame at the front of the buffer -/

theorem IsFrame.startsFrame_append (h : IsFrame D f) (rest : Bytes) :
    StartsFrame D (f ++ rest) ∧ frameLength (f ++ rest) = f.length := by
  obtain ⟨⟨hhead, h12, hfit, hok⟩, hlen⟩ := h
  have htake : (f ++ rest).take f.length = f := List.take_left
  have hframe : frameLength (f ++ rest) = f.length := by
    rw [hlen, ← frameLength_take (b := f ++ rest) (n := f.length) (by omega), htake]
  have hbyte : byteOr (f ++ rest) 1 = byteOr f 1 := by
    rw [← byteOr_take (b := f ++ rest) (n := f.length) (by omega), htake]
  have hbounds := (frameLength_bounds f).1
  refine ⟨⟨?_, by rw [List.length_append]; omega, by rw [hframe, List.length_append]; omega, ?_⟩,
    hframe⟩
  · rw [List.head?_append_of_ne_nil _ (List.ne_nil_of_length_pos (by omega)), hhead]
  · rw [← checksumOk_take (n := f.length) (by rw [hbyte]; omega), htake, hok]

theorem dropWhile_of_head {b : Bytes} (h : b.head? = some MAVLINK_V2_STX) :
    b.dropWhile (· ≠ MAVLINK_V2_STX) = b := by
  cases b with
  | nil => rfl
  | cons byte bytes =>
    rw [List.head?_cons, Option.some.injEq] at h
    rw [List.dropWhile_cons_of_neg (by simp [h])]

namespace MavlinkV2Codec

def arrive (D : Dialect) (codec : MavlinkV2Codec) (f : Bytes) :
    Option MavlinkEnvelope × MavlinkV2Codec :=
  match decodePayload D (messageIdOf f) (payloadOf f) with
  | .ok message => codec.receivedAs f message
  | .error _ => (none, codec)

theorem arrive_of_decode {codec : MavlinkV2Codec} {message : Option MavlinkMessage}
    (h : decodePayload D (messageIdOf f) (payloadOf f) = .ok message) :
    arrive D codec f = codec.receivedAs f message := by rw [arrive, h]

theorem turn_of_frame (h : IsFrame D f) (codec : MavlinkV2Codec) (rest : Bytes) :
    turn D (codec.withBuffer (f ++ rest)) =
      .ok (.next (arrive D codec f).1 ((arrive D codec f).2.withBuffer rest)) := by
  obtain ⟨hstarts, hlen⟩ := h.startsFrame_append rest
  obtain ⟨t, hturn, hspec⟩ := turn_spec D (codec.withBuffer (f ++ rest))
  rw [withBuffer_buffer, dropWhile_of_head hstarts.1] at hspec
  have h12 := hstarts.2.1
  have hfit := hstarts.2.2.1
  have hok := hstarts.2.2.2
  have htake : (f ++ rest).take (frameLength (f ++ rest)) = f := by rw [hlen, List.take_left]
  have hdrop : (f ++ rest).drop (frameLength (f ++ rest)) = rest := by rw [hlen, List.drop_left]
  rw [hturn]
  cases hspec with
  | short hshort => rw [withBuffer_buffer] at hshort; omega
  | few _ hfew => omega
  | wait _ hwait _ => omega
  | resync i _ hwait _ _ _ => omega
  | junk _ _ hbad => rw [hok] at hbad; cases hbad
  | frame message _ hdecode =>
    rw [htake] at hdecode
    rw [htake, hdrop, receivedAs_withBuffer, withBuffer_withBuffer, arrive_of_decode hdecode]

end MavlinkV2Codec

end ArduConfigurator.Mavlink
