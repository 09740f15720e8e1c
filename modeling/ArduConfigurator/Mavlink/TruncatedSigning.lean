import ArduConfigurator.Mavlink.Replay

/-! # Truncating a signed frame

`TruncatingMavlinkV2Codec` truncates what the encoder has already signed. Where the payload ends in
a zero, the frame it builds still says that it is signed, and the trailer with the signature is
gone. -/
namespace ArduConfigurator.Mavlink
set_option autoImplicit false
open Runs

def NothingToStrip (payload : Bytes) : Prop := keptLength payload payload.length = payload.length

instance (payload : Bytes) : Decidable (NothingToStrip payload) :=
  inferInstanceAs (Decidable (_ = _))

/-- The receiver takes the bytes for one frame, and the frame for this message. -/
def Delivers (D : Dialect) (receiver : MavlinkV2Codec) (frame : Bytes) (header : MavlinkHeader)
    (message : MavlinkMessage) : Prop :=
  ∃ receiver', receiver.reset.push D frame =
    .ok ([⟨header, message, frame.length⟩], receiver')

namespace MavlinkV2Codec

/-! ## What is delivered is a frame -/

variable {D : Dialect} {message : MavlinkMessage}

theorem isFrame_of_delivers {receiver : MavlinkV2Codec} {frame : Bytes} {header : MavlinkHeader}
    (h : Delivers D receiver frame header message) : IsFrame D frame := by
  obtain ⟨receiver', hpush⟩ := h
  obtain ⟨envelopes, codec', hpush', -, pos, -, -, hscan⟩ :=
    @push_spec D receiver.reset [] 0 frame (Nat.le_refl 0) rfl
  rw [hpush'] at hpush
  cases hpush
  obtain ⟨segments, hfrom, -, -⟩ := hscan.segments
  obtain ⟨segment, -, hone, -, -⟩ := List.forall₂_cons_left_iff.mp hfrom
  obtain ⟨hfit, hframe, -, carried, -, henvelope⟩ := hone
  rw [List.nil_append] at hfit hframe henvelope
  have hlength : frame.length = (slice frame segment.1 segment.2).length :=
    congrArg MavlinkEnvelope.byteLength henvelope
  rw [slice_length hfit] at hlength
  have hstart : segment.1 = 0 := by omega
  rwa [hstart, slice_zero_of_length hlength] at hframe

/-! ## The signature of an encoded frame -/

section
variable {header : MavlinkHeader} {messageId t : ℕ} {payload secretKey : Bytes}
  {linkId : UInt8}

def signedFrame (D : Dialect) (secretKey : Bytes) (linkId : UInt8) (t : ℕ) (header : MavlinkHeader)
    (messageId : ℕ) (payload : Bytes) : Bytes :=
  let frame := frameBytes D MAVLINK_V2_INCOMPAT_FLAG_SIGNED header messageId payload
  frame ++ ([linkId] ++ leBytes 6 t ++ computeSignature secretKey frame linkId t)

theorem signatureMatches_signedFrame (hlen : payload.length ≤ 255) (ht : t < 2 ^ 48)
    {signing : SigningConfig} (hkey : signing.secretKey = secretKey) :
    SignatureMatches signing (signedFrame D secretKey linkId t header messageId payload) := by
  obtain ⟨hstream, hstamp⟩ := @trailer_readback D header messageId payload hlen linkId t ht
    (computeSignature secretKey
      (frameBytes D MAVLINK_V2_INCOMPAT_FLAG_SIGNED header messageId payload) linkId t)
  unfold signedFrame
  dsimp only
  rw [SignatureMatches, hstream, hstamp, hkey]
  generalize hframe : frameBytes D MAVLINK_V2_INCOMPAT_FLAG_SIGNED header messageId payload = frame
  have hlength : frame.length = 12 + payload.length := by rw [← hframe, frameBytes_length]
  generalize hsignature : computeSignature secretKey frame linkId t = signature
  have hsix : signature.length = 6 := by rw [← hsignature, computeSignature_length]
  have hone := @byteOr_one_frameBytes D MAVLINK_V2_INCOMPAT_FLAG_SIGNED header messageId payload
    ([linkId] ++ leBytes 6 t ++ signature) hlen
  rw [hframe] at hone
  have htake : (frame ++ ([linkId] ++ leBytes 6 t ++ signature)).take (12 + payload.length) =
      frame := by rw [← hlength, List.take_left]
  have hbehind : slice (frame ++ ([linkId] ++ leBytes 6 t ++ signature)) (19 + payload.length) 6 =
      signature := by
    have hfront : ([linkId] ++ leBytes 6 t).length = 7 := by
      rw [List.length_append, leBytes_length]
      rfl
    have hoff : 19 + payload.length = (frame ++ ([linkId] ++ leBytes 6 t)).length + 0 := by
      rw [List.length_append, hlength, hfront]
      omega
    rw [← List.append_assoc, hoff, slice_append_right, slice_zero_of_length hsix]
  rw [hone, htake, hbehind, hsignature]

end

variable {codec : MavlinkV2Codec} {signing : SigningConfig} {messageId : ℕ} {payload : Bytes}

theorem encode_signedFrame (header : MavlinkHeader) (hsigning : codec.activeSigning = some signing)
    (hid : messageIdFor D message = .ok messageId)
    (hpayload : encodePayload D message = .ok payload) :
    codec.encode D header message =
      .ok (signedFrame D signing.secretKey signing.linkId
        (codec.nextSendTimestamp signing
          ⟨header.systemId, header.componentId, signing.linkId⟩).1.toNat header messageId payload,
        (codec.nextSendTimestamp signing
          ⟨header.systemId, header.componentId, signing.linkId⟩).2) := by
  rw [encode, hid, ok_bind, hpayload, ok_bind, hsigning]
  simp only [signedFrame, List.append_assoc]

theorem encode_truncated_signedFrame (header : MavlinkHeader)
    (hsigning : codec.activeSigning = some signing) (hid : messageIdFor D message = .ok messageId)
    (hpayload : encodePayload D message = .ok payload) :
    TruncatingMavlinkV2Codec.encode D codec header message =
      .ok (if NothingToStrip payload then
        signedFrame D signing.secretKey signing.linkId
          (codec.nextSendTimestamp signing
            ⟨header.systemId, header.componentId, signing.linkId⟩).1.toNat header messageId payload
      else frameBytes D MAVLINK_V2_INCOMPAT_FLAG_SIGNED header messageId (trimZeros payload),
        (codec.nextSendTimestamp signing
          ⟨header.systemId, header.componentId, signing.linkId⟩).2) := by
  obtain ⟨hlt, hcrc⟩ := messageIdFor_spec hid
  rw [TruncatingMavlinkV2Codec.encode, encode_signedFrame header hsigning hid hpayload, ok_bind, signedFrame]
  simp only
  rw [truncateMavlinkV2Frame_append _ (encodePayload_length hpayload) hlt hcrc, ok_bind]
  rfl

/-! ## Receivers with the key -/

/-- The receiver verifies with this key, and the frame is newer than what it has accepted on the
stream and not too old. -/
def Expects (receiver : MavlinkV2Codec) (secretKey frame : Bytes) : Prop :=
  ¬ receiver.Replayed frame ∧ ∃ signing, receiver.activeSigning = some signing ∧
    signing.secretKey = secretKey ∧ ¬ receiver.TooOld signing frame

section
variable {header : MavlinkHeader} {t : ℕ} {secretKey : Bytes}
  {linkId : UInt8} {receiver : MavlinkV2Codec}

theorem isFrame_signedFrame (hlen : payload.length ≤ 255) (hid : messageId < 2 ^ 24)
    (hcrc : (crcExtraFor D messageId).isSome) :
    IsFrame D (signedFrame D secretKey linkId t header messageId payload) := by
  refine isFrame_frameBytes hlen hid hcrc ?_
  rw [signedLengthOf_signed]
  simp only [List.length_append, List.length_cons, List.length_nil, leBytes_length,
    computeSignature_length, MAVLINK_V2_SIGNATURE_LENGTH]

theorem delivers_signedFrame (hlen : payload.length ≤ 255) (hid : messageId < 2 ^ 24)
    (hcrc : (crcExtraFor D messageId).isSome) (ht : t < 2 ^ 48)
    (hexpects : receiver.Expects secretKey
      (signedFrame D secretKey linkId t header messageId payload))
    (hdecode : decodePayload D messageId
      (zeroPad ((MAVLINK_PAYLOAD_LENGTHS messageId).getD payload.length) payload) =
        .ok (some message)) :
    Delivers D receiver (signedFrame D secretKey linkId t header messageId payload) header
      message := by
  obtain ⟨hfresh, signing, hsigning, hkey, hyoung⟩ := hexpects
  have hframe : IsFrame D (signedFrame D secretKey linkId t header messageId payload) :=
    isFrame_signedFrame hlen hid hcrc
  have hmatch : SignatureMatches signing
      (signedFrame D secretKey linkId t header messageId payload) :=
    signatureMatches_signedFrame hlen ht hkey
  have hcarried : decodePayload D
      (messageIdOf (signedFrame D secretKey linkId t header messageId payload))
      (payloadOf (signedFrame D secretKey linkId t header messageId payload)) =
        .ok (some message) := by
    unfold signedFrame
    dsimp only
    rw [messageIdOf_frameBytes _ hid, payloadOf_frameBytes hlen hid, hdecode]
  have henvelope : envelopeOf (signedFrame D secretKey linkId t header messageId payload) message =
      ⟨header, message,
        (signedFrame D secretKey linkId t header messageId payload).length⟩ := rfl
  have hbyte : byteOr (signedFrame D secretKey linkId t header messageId payload) 2 =
      MAVLINK_V2_INCOMPAT_FLAG_SIGNED := rfl
  have hactive : receiver.reset.activeSigning = some signing := hsigning
  have hverified := @verified_of_accepted receiver.reset _ _ hmatch hfresh hyoung
  have hchecked : (receiver.reset.checked
      (signedFrame D secretKey linkId t header messageId payload)).1 = true := by
    rw [checked, hactive]
    dsimp only
    rw [hbyte, if_pos (by decide), hverified]
  refine ⟨(arrive D receiver.reset
    (signedFrame D secretKey linkId t header messageId payload)).2, ?_⟩
  rw [push_frame hframe, arrive_of_decode hcarried, receivedAs, hbyte,
    if_neg (not_not_intro (by decide)), if_pos hchecked, Option.map_some, henvelope]
  rfl

theorem not_isFrame_unsigned (hlen : payload.length ≤ 255) :
    ¬ IsFrame D (frameBytes D MAVLINK_V2_INCOMPAT_FLAG_SIGNED header messageId payload) := by
  intro hframe
  have hlength := hframe.2
  have hone := @byteOr_one_frameBytes D MAVLINK_V2_INCOMPAT_FLAG_SIGNED header messageId payload []
    hlen
  have hbyte : byteOr (frameBytes D MAVLINK_V2_INCOMPAT_FLAG_SIGNED header messageId payload) 2 =
      MAVLINK_V2_INCOMPAT_FLAG_SIGNED := rfl
  rw [List.append_nil] at hone
  rw [frameLength, hone, hbyte, frameBytes_length, frameLengthOf, signedLengthOf_signed] at hlength
  simp only [MAVLINK_V2_HEADER_LENGTH, MAVLINK_V2_CHECKSUM_LENGTH,
    MAVLINK_V2_SIGNATURE_LENGTH] at hlength
  omega

end

/-! ## Truncating and signing -/

/-- A codec with a key, after any run of configurations, encodings and arrivals, encodes a message.
Receivers with the same key take the signed frame for what it carries. What the truncating codec
makes of the message is a frame, and is taken for the same message by those who take the signed
frame, if and only if the payload has no trailing zero to leave off. -/
theorem truncated_signed_iff {D : Dialect} {es : List SigningEvent} {s : SigningSession}
    (hrun : run (SigningSession.step D) SigningSession.fresh es = some s) {signing : SigningConfig}
    (hsigning : s.codec.activeSigning = some signing) (header : MavlinkHeader)
    (message : MavlinkMessage) {messageId : ℕ} {payload : Bytes}
    (hid : messageIdFor D message = .ok messageId)
    (hpayload : encodePayload D message = .ok payload) :
    ∃ full truncated sender', s.codec.encode D header message = .ok (full, sender') ∧
      TruncatingMavlinkV2Codec.encode D s.codec header message = .ok (truncated, sender') ∧
      (∀ (receiver : MavlinkV2Codec) (m : MavlinkMessage),
        receiver.Expects signing.secretKey full →
        decodePayload D (messageIdOf full) (payloadOf full) = .ok (some m) →
        Delivers D receiver full header m) ∧
      (∀ (receiver : MavlinkV2Codec) (m : MavlinkMessage), Delivers D receiver full header m →
        (Delivers D receiver truncated header m ↔ NothingToStrip payload)) ∧
      (IsFrame D truncated ↔ NothingToStrip payload) := by
  have hrange : s.codec.SentInRange := (run_invariant
    (fun _ _ _ hs h => SigningSession.remembers_step hs h) SigningSession.remembers_fresh hrun).range
  obtain ⟨hlt, hcrc⟩ := messageIdFor_spec hid
  have hlen := encodePayload_length hpayload
  have ht : (s.codec.nextSendTimestamp signing
      ⟨header.systemId, header.componentId, signing.linkId⟩).1.toNat < 2 ^ 48 := by
    obtain ⟨-, hmax, -⟩ := nextSendTimestamp_spec signing
      ⟨header.systemId, header.componentId, signing.linkId⟩ hrange
    rw [MAVLINK_V2_SIGNING_TIMESTAMP_MAX] at hmax
    omega
  have hfull := encode_signedFrame header hsigning hid hpayload
  have htruncated := encode_truncated_signedFrame header hsigning hid hpayload
  generalize (s.codec.nextSendTimestamp signing
      ⟨header.systemId, header.componentId, signing.linkId⟩).1.toNat = t at *
  have hframe : IsFrame D (signedFrame D signing.secretKey signing.linkId t header messageId
      payload) := isFrame_signedFrame hlen hlt hcrc
  refine ⟨_, _, _, hfull, htruncated, fun receiver m hexpects hdecode => ?_,
    fun receiver m hdelivers => ?_, ?_⟩
  · refine delivers_signedFrame hlen hlt hcrc ht hexpects ?_
    unfold signedFrame at hdecode
    dsimp only at hdecode
    rwa [messageIdOf_frameBytes _ hlt, payloadOf_frameBytes hlen hlt] at hdecode
  · by_cases hstrip : NothingToStrip payload
    · rw [if_pos hstrip]
      exact ⟨fun _ => hstrip, fun _ => hdelivers⟩
    · rw [if_neg hstrip]
      refine ⟨fun hdelivers' => ?_, fun hnone => absurd hnone hstrip⟩
      exact absurd (isFrame_of_delivers hdelivers')
        (not_isFrame_unsigned ((trimZeros_length_le payload).trans hlen))
  · by_cases hstrip : NothingToStrip payload
    · rw [if_pos hstrip]
      exact ⟨fun _ => hstrip, fun _ => hframe⟩
    · rw [if_neg hstrip]
      exact ⟨fun hframe' => absurd hframe'
        (not_isFrame_unsigned ((trimZeros_length_le payload).trans hlen)),
        fun hnone => absurd hnone hstrip⟩

/-- A codec whose clock stands at nine, with the key `key`. -/
def signingCodec : MavlinkV2Codec :=
  { MavlinkV2Codec.fresh with
    signing := some ⟨SigningSession.key, by decide, 0, true, fun _ => 9⟩ }

theorem signingCodec_reached (D : Dialect) :
    run (SigningSession.step D) SigningSession.fresh [SigningSession.standingClock 9] =
      some ⟨signingCodec, [], []⟩ := rfl

def requestList : MavlinkMessage := .PARAM_REQUEST_LIST ⟨1, 0⟩

theorem signingCodec_expects (frame : Bytes) :
    signingCodec.Expects SigningSession.key frame := by
  refine ⟨Bool.false_ne_true, _, rfl, rfl, ?_⟩
  rw [TooOld, MAVLINK_V2_SIGNING_MAX_AGE_UNITS]
  dsimp only
  omega

theorem truncated_signed_request :
    ∃ full truncated sender', signingCodec.encode .excerpt ⟨255, 190, 0⟩ requestList =
        .ok (full, sender') ∧
      TruncatingMavlinkV2Codec.encode .excerpt signingCodec ⟨255, 190, 0⟩ requestList =
        .ok (truncated, sender') ∧ ¬ IsFrame .excerpt truncated := by
  obtain ⟨full, truncated, sender', hfull, htruncated, -, -, hframe⟩ :=
    truncated_signed_iff (signingCodec_reached .excerpt) rfl ⟨255, 190, 0⟩ requestList rfl rfl
  refine ⟨full, truncated, sender', hfull, htruncated, ?_⟩
  rw [hframe]
  decide

/-- The receiver with the same key takes the signed request and not the truncated one. -/
theorem truncated_request_not_delivered :
    ¬ ∀ (D : Dialect) (es : List SigningEvent) (s : SigningSession) (signing : SigningConfig)
        (header : MavlinkHeader) (message : MavlinkMessage) (full truncated : Bytes)
        (sender' receiver : MavlinkV2Codec),
      run (SigningSession.step D) SigningSession.fresh es = some s →
      s.codec.activeSigning = some signing →
      s.codec.encode D header message = .ok (full, sender') →
      TruncatingMavlinkV2Codec.encode D s.codec header message = .ok (truncated, sender') →
      receiver.Expects signing.secretKey full →
      Delivers D receiver full header message → Delivers D receiver truncated header message := by
  intro h
  have hid : messageIdFor .excerpt requestList = .ok MAVLINK_MESSAGE_IDS.PARAM_REQUEST_LIST := rfl
  have hpayload : encodePayload .excerpt requestList = .ok [1, 0] := rfl
  have hsigning : signingCodec.activeSigning =
      some ⟨SigningSession.key, by decide, 0, true, fun _ => 9⟩ := rfl
  have hfull := encode_signedFrame ⟨255, 190, 0⟩ hsigning hid hpayload
  have htruncated := encode_truncated_signedFrame ⟨255, 190, 0⟩ hsigning hid hpayload
  have hexpects := signingCodec_expects (signedFrame .excerpt SigningSession.key 0 9 ⟨255, 190, 0⟩
    MAVLINK_MESSAGE_IDS.PARAM_REQUEST_LIST [1, 0])
  have hdelivers : Delivers .excerpt signingCodec
      (signedFrame .excerpt SigningSession.key 0 9 ⟨255, 190, 0⟩
        MAVLINK_MESSAGE_IDS.PARAM_REQUEST_LIST [1, 0]) ⟨255, 190, 0⟩ requestList :=
    delivers_signedFrame (by decide) (by decide) rfl (by decide) hexpects rfl
  have hmissing := h .excerpt _ _ _ ⟨255, 190, 0⟩ requestList _ _ _ signingCodec
    (signingCodec_reached .excerpt) hsigning hfull htruncated hexpects hdelivers
  rw [if_neg (by decide)] at hmissing
  exact not_isFrame_unsigned (by decide) (isFrame_of_delivers hmissing)

end MavlinkV2Codec
end ArduConfigurator.Mavlink
