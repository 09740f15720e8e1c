import ArduConfigurator.Mavlink.Codec
import ArduConfigurator.Mavlink.GenericLayout

/-! # The loop of `push`

What one iteration can do, in terms of frames in the buffer alone, and from it that the loop ends
without an error. -/
namespace ArduConfigurator.Mavlink
set_option autoImplicit false

/-! ## Frames -/

def frameLength (b : Bytes) : ℕ := frameLengthOf (byteOr b 1).toNat (byteOr b 2)

def messageIdOf (b : Bytes) : ℕ := ofLE (slice b 7 3)

def checksumOk (D : Dialect) (b : Bytes) : Bool :=
  match crcExtraFor D (messageIdOf b) with
  | none => false
  | some crcExtra =>
      decide (crcMessage (slice b 1 (9 + (byteOr b 1).toNat)) crcExtra =
        fieldAt UInt16 b (10 + (byteOr b 1).toNat))

def StartsFrame (D : Dialect) (b : Bytes) : Prop :=
  b.head? = some MAVLINK_V2_STX ∧ 12 ≤ b.length ∧ frameLength b ≤ b.length ∧ checksumOk D b = true

instance (D : Dialect) (b : Bytes) : Decidable (StartsFrame D b) :=
  inferInstanceAs (Decidable (_ ∧ _ ∧ _ ∧ _))

def IsFrame (D : Dialect) (b : Bytes) : Prop := StartsFrame D b ∧ b.length = frameLength b

theorem signedLengthOf_le (incompatFlags : UInt8) : signedLengthOf incompatFlags ≤ 13 := by
  rw [signedLengthOf]
  split
  · exact Nat.le_refl 13
  · exact Nat.zero_le 13

theorem frameLength_bounds (b : Bytes) :
    12 + (byteOr b 1).toNat ≤ frameLength b ∧ frameLength b ≤ 280 := by
  have hlen := (byteOr b 1).toNat_lt
  have hsigned := signedLengthOf_le (byteOr b 2)
  simp only [frameLength, frameLengthOf, MAVLINK_V2_HEADER_LENGTH, MAVLINK_V2_CHECKSUM_LENGTH]
  omega

/-! ## Reads inside the buffer -/

theorem get_uint8 {b : Bytes} {i : ℕ} (h : i < b.length) : get UInt8 b i = .ok (byteOr b i) := by
  rw [get_eq_ok h, byteOr_of_get (get_eq_ok h)]

theorem byteOr_drop (b : Bytes) (n i : ℕ) : byteOr (b.drop n) i = byteOr b (n + i) := by
  simp only [byteOr, List.getD_eq_getElem?_getD, List.getElem?_drop]

theorem slice_drop (b : Bytes) (n off len : ℕ) :
    slice (b.drop n) off len = slice b (n + off) len := by
  rw [slice, slice, List.drop_drop]

theorem messageIdAt_eq_ok {b : Bytes} {offset : ℕ} (h : offset + 10 ≤ b.length) :
    messageIdAt b offset = .ok (messageIdOf (b.drop offset)) := by
  rw [messageIdAt, readLE, if_pos (by omega), messageIdOf, slice_drop]

theorem checksumMatches_eq_ok {D : Dialect} {b : Bytes} {offset : ℕ}
    (h : offset + 12 + (byteOr (b.drop offset) 1).toNat ≤ b.length) :
    checksumMatches D b offset (byteOr (b.drop offset) 1).toNat =
      .ok (checksumOk D (b.drop offset)) := by
  have hfield : ∀ n, fieldAt UInt16 (b.drop offset) n = fieldAt UInt16 b (offset + n) := fun n => by
    rw [fieldAt, fieldAt, slice_drop]
  rw [checksumMatches, messageIdAt_eq_ok (by omega), ok_bind,
    get_eq_ok (by simp only [MAVLINK_V2_HEADER_LENGTH, width_uint16]; omega), ok_bind, checksumOk]
  cases crcExtraFor D (messageIdOf (b.drop offset)) with
  | none => rfl
  | some crcExtra =>
    dsimp only
    rw [slice_drop, hfield, Nat.add_assoc]
    rfl

theorem frameIsCompleteAndValid_eq_ok (D : Dialect) {b : Bytes} {index : ℕ}
    (hstx : byteOr b index = MAVLINK_V2_STX) (h : index < b.length) :
    frameIsCompleteAndValid D b index = .ok (decide (StartsFrame D (b.drop index))) := by
  have hhead : (b.drop index).head? = some MAVLINK_V2_STX := by
    rw [List.head?_drop, List.getElem?_eq_getElem h, ← hstx, byteOr, List.getD_eq_getElem?_getD,
      List.getElem?_eq_getElem h, Option.getD_some]
  have hlen : (b.drop index).length = b.length - index := List.length_drop
  have hbounds := (frameLength_bounds (b.drop index)).1
  have hframe : frameLengthOf (byteOr (b.drop index) 1).toNat (byteOr (b.drop index) 2) =
      frameLength (b.drop index) := rfl
  rw [frameIsCompleteAndValid]
  split
  · next hshort =>
    rw [decide_eq_false]
    rintro ⟨-, h12, -⟩
    rw [hlen] at h12
    simp only [MAVLINK_V2_HEADER_LENGTH, MAVLINK_V2_CHECKSUM_LENGTH] at hshort
    omega
  · next hlong =>
    simp only [MAVLINK_V2_HEADER_LENGTH, MAVLINK_V2_CHECKSUM_LENGTH] at hlong
    rw [get_uint8 (by omega), ok_bind, get_uint8 (by omega), ok_bind, ← byteOr_drop, ← byteOr_drop,
      hframe]
    split
    · next hincomplete =>
      rw [decide_eq_false]
      rintro ⟨-, -, hcomplete, -⟩
      omega
    · next hcomplete =>
      rw [checksumMatches_eq_ok (by omega)]
      congr 1
      rw [Bool.eq_iff_iff, decide_eq_true_eq]
      exact ⟨fun hok => ⟨hhead, by omega, by omega, hok⟩, fun hstarts => hstarts.2.2.2⟩

/-- The first index from `index` on at which a frame starts. -/
def FirstFrame (D : Dialect) (b : Bytes) (index : ℕ) : Option ℕ → Prop
  | none => ∀ i, index ≤ i → ¬ StartsFrame D (b.drop i)
  | some i => index ≤ i ∧ StartsFrame D (b.drop i) ∧
      ∀ j, index ≤ j → j < i → ¬ StartsFrame D (b.drop j)

theorem FirstFrame.of_succ {D : Dialect} {b : Bytes} {index : ℕ} {found : Option ℕ}
    (h : FirstFrame D b (index + 1) found) (hnot : ¬ StartsFrame D (b.drop index)) :
    FirstFrame D b index found := by
  cases found with
  | none =>
    intro i hi
    by_cases heq : i = index
    · rwa [heq]
    · exact h i (by omega)
  | some i =>
    obtain ⟨hi, hstarts, hfirst⟩ := h
    refine ⟨by omega, hstarts, fun j hj hji => ?_⟩
    by_cases heq : j = index
    · rwa [heq]
    · exact hfirst j (by omega) hji

theorem findResyncFrom_spec (D : Dialect) {b : Bytes} {n index : ℕ}
    (h : index + n = b.length) :
    ∃ found, findResyncFrom D b n index = .ok found ∧ FirstFrame D b index found := by
  induction n generalizing index with
  | zero =>
    refine ⟨none, rfl, fun i hi hstarts => ?_⟩
    have hlen := hstarts.2.1
    rw [List.length_drop] at hlen
    omega
  | succ n ih =>
    have hlt : index < b.length := by omega
    obtain ⟨found, hfound, hspec⟩ := ih (show index + 1 + n = b.length by omega)
    rw [findResyncFrom, get_uint8 hlt, ok_bind]
    by_cases hstx : byteOr b index = MAVLINK_V2_STX
    · rw [if_neg (not_not_intro hstx), frameIsCompleteAndValid_eq_ok D hstx hlt, ok_bind]
      by_cases hstarts : StartsFrame D (b.drop index)
      · rw [if_pos (decide_eq_true hstarts)]
        exact ⟨some index, rfl, Nat.le_refl _, hstarts, fun j hj hji => by omega⟩
      · rw [if_neg (by rw [decide_eq_true_eq]; exact hstarts), hfound]
        exact ⟨found, rfl, hspec.of_succ hstarts⟩
    · rw [if_pos hstx, hfound]
      refine ⟨found, rfl, hspec.of_succ ?_⟩
      rintro ⟨hhead, -⟩
      apply hstx
      rw [List.head?_drop] at hhead
      rw [byteOr, List.getD_eq_getElem?_getD, hhead, Option.getD_some]

theorem findResyncIndex_spec (D : Dialect) {b : Bytes} (h : 0 < b.length) :
    ∃ found, findResyncIndex D b = .ok found ∧ FirstFrame D b 1 found :=
  findResyncFrom_spec D (by omega)

/-! ## Receiving a frame -/

theorem decodePayload_isOk {D : Dialect} {messageId : ℕ} {payload : Bytes}
    (h : (crcExtraFor D messageId).isSome)
    (hlen : payloadSize messageId ≤ payload.length) :
    ∃ message, decodePayload D messageId payload = .ok message := by
  rw [decodePayload]
  cases hlookup : payloadDecoders.lookup messageId with
  | some decode =>
    obtain ⟨l₁, l₂, hsplit, -⟩ := List.lookup_eq_some_iff.mp hlookup
    have hmem : (messageId, decode) ∈ payloadDecoders := by
      rw [hsplit]
      exact List.mem_append_right _ List.mem_cons_self
    obtain ⟨message, hmessage⟩ := payloadDecoders_total _ hmem payload hlen
    exact ⟨some message, congrArg (some <$> ·) hmessage⟩
  | none =>
    dsimp only
    cases hcrc : MAVLINK_MESSAGE_CRCS messageId with
    | some crcExtra => exact ⟨none, rfl⟩
    | none =>
      rw [crcExtraFor, hcrc, Dialect.mavlinkGenericCrcExtra, Option.isSome_map] at h
      obtain ⟨d, hd⟩ := Option.isSome_iff_exists.mp h
      obtain ⟨message, hmessage⟩ := decodeGenericPayload_isOk hd payload
      exact ⟨some (.GENERIC message), by rw [hmessage]; rfl⟩

def payloadOf (frame : Bytes) : Bytes :=
  zeroPad ((MAVLINK_PAYLOAD_LENGTHS (messageIdOf frame)).getD (byteOr frame 1).toNat)
    (slice frame 10 (byteOr frame 1).toNat)

def envelopeOf (frame : Bytes) (message : MavlinkMessage) : MavlinkEnvelope :=
  ⟨⟨byteOr frame 5, byteOr frame 6, byteOr frame 4⟩, message, frame.length⟩

def Carries (D : Dialect) (frame : Bytes) (envelope : MavlinkEnvelope) : Prop :=
  byteOr frame 2 &&& ~~~MAVLINK_V2_INCOMPAT_FLAG_SIGNED = 0 ∧
    ∃ message, decodePayload D (messageIdOf frame) (payloadOf frame) = .ok (some message) ∧
      envelope = envelopeOf frame message

def keyOf (frame : Bytes) : StreamKey :=
  ⟨byteOr frame 5, byteOr frame 6, byteOr frame (12 + (byteOr frame 1).toNat)⟩

def timestampOf (frame : Bytes) : ℕ := ofLE (slice frame (13 + (byteOr frame 1).toNat) 6)

def SignatureMatches (signing : SigningConfig) (frame : Bytes) : Prop :=
  computeSignature signing.secretKey (frame.take (12 + (byteOr frame 1).toNat))
    (keyOf frame).linkId (timestampOf frame) = slice frame (19 + (byteOr frame 1).toNat) 6

instance (signing : SigningConfig) (frame : Bytes) : Decidable (SignatureMatches signing frame) :=
  inferInstanceAs (Decidable (_ = _))

namespace MavlinkV2Codec

/-- The frame's timestamp is no newer than the last one accepted on its stream. -/
def Replayed (codec : MavlinkV2Codec) (frame : Bytes) : Prop :=
  (codec.lastSeenTimestamp (keyOf frame)).any (timestampOf frame ≤ ·) = true

instance (codec : MavlinkV2Codec) (frame : Bytes) : Decidable (codec.Replayed frame) :=
  inferInstanceAs (Decidable (_ = _))

def TooOld (codec : MavlinkV2Codec) (signing : SigningConfig) (frame : Bytes) : Prop :=
  timestampOf frame < signing.clock codec.clockReads - MAVLINK_V2_SIGNING_MAX_AGE_UNITS

instance (codec : MavlinkV2Codec) (signing : SigningConfig) (frame : Bytes) :
    Decidable (codec.TooOld signing frame) := inferInstanceAs (Decidable (_ < _))

/-- `verifySignedFrame` on a frame that is long enough. -/
def verified (codec : MavlinkV2Codec) (signing : SigningConfig) (frame : Bytes) :
    Bool × MavlinkV2Codec :=
  if ¬ SignatureMatches signing frame then (false, codec.reject .badSignature (keyOf frame))
  else if codec.Replayed frame then (false, codec.reject .replayTimestamp (keyOf frame))
  else if codec.TooOld signing frame then
    (false, { codec with clockReads := codec.clockReads + 1 }.reject .timestampTooOld (keyOf frame))
  else
    (true, { codec with
      clockReads := codec.clockReads + 1
      lastSeenTimestamp := assign codec.lastSeenTimestamp (keyOf frame) (timestampOf frame) })

section
variable {codec : MavlinkV2Codec} {signing : SigningConfig} {frame : Bytes}

theorem verified_of_mismatch (h : ¬ SignatureMatches signing frame) :
    codec.verified signing frame = (false, codec.reject .badSignature (keyOf frame)) := if_pos h

theorem verified_of_replayed (h : SignatureMatches signing frame) (hr : codec.Replayed frame) :
    codec.verified signing frame = (false, codec.reject .replayTimestamp (keyOf frame)) := by
  rw [verified, if_neg (not_not_intro h), if_pos hr]

theorem verified_of_tooOld (h : SignatureMatches signing frame) (hr : ¬ codec.Replayed frame)
    (ho : codec.TooOld signing frame) :
    codec.verified signing frame = (false,
      { codec with clockReads := codec.clockReads + 1 }.reject .timestampTooOld (keyOf frame)) := by
  rw [verified, if_neg (not_not_intro h), if_neg hr, if_pos ho]

theorem verified_of_accepted (h : SignatureMatches signing frame) (hr : ¬ codec.Replayed frame)
    (ho : ¬ codec.TooOld signing frame) :
    codec.verified signing frame = (true, { codec with
      clockReads := codec.clockReads + 1
      lastSeenTimestamp :=
        assign codec.lastSeenTimestamp (keyOf frame) (timestampOf frame) }) := by
  rw [verified, if_neg (not_not_intro h), if_neg hr, if_neg ho]

end

theorem verifySignedFrame_eq_ok {codec : MavlinkV2Codec} {signing : SigningConfig} {frame : Bytes}
    (h : 25 + (byteOr frame 1).toNat ≤ frame.length) :
    codec.verifySignedFrame signing frame (byteOr frame 1).toNat =
      .ok (codec.verified signing frame) := by
  have hbase : MAVLINK_V2_HEADER_LENGTH + (byteOr frame 1).toNat + MAVLINK_V2_CHECKSUM_LENGTH =
      12 + (byteOr frame 1).toNat := by
    simp only [MAVLINK_V2_HEADER_LENGTH, MAVLINK_V2_CHECKSUM_LENGTH]
    omega
  have hlink := get_uint8 (b := frame) (i := 12 + (byteOr frame 1).toNat) (by omega)
  have hsystem := get_uint8 (b := frame) (i := 5) (by omega)
  have hcomponent := get_uint8 (b := frame) (i := 6) (by omega)
  have hstamp : readUint48LE frame (12 + (byteOr frame 1).toNat + 1) =
      .ok (timestampOf frame) := by
    have hoff : 12 + (byteOr frame 1).toNat + 1 = 13 + (byteOr frame 1).toNat := by omega
    rw [hoff, readUint48LE, readLE, if_pos (by omega), timestampOf]
  have hsignature : slice frame (12 + (byteOr frame 1).toNat + 7) 6 =
      slice frame (19 + (byteOr frame 1).toNat) 6 := by
    congr 1
    omega
  simp only [verifySignedFrame, hbase, hlink, hstamp, hsystem, hcomponent, ok_bind, hsignature,
    verified]
  split
  · next hbad =>
    rw [if_pos (show ¬ SignatureMatches signing frame from hbad)]
    rfl
  · next hgood =>
    rw [if_neg (show ¬ ¬ SignatureMatches signing frame from hgood)]
    split
    · next hreplay =>
      rw [if_pos (show codec.Replayed frame from hreplay)]
      rfl
    · next hfresh =>
      rw [if_neg (show ¬ codec.Replayed frame from hfresh)]
      split
      · next hold =>
        rw [if_pos (show codec.TooOld signing frame from hold)]
        rfl
      · next hnew =>
        rw [if_neg (show ¬ codec.TooOld signing frame from hnew)]
        rfl

/-- The signature check of `push`: only of signed frames, and only with a key in force. -/
def checked (codec : MavlinkV2Codec) (frame : Bytes) : Bool × MavlinkV2Codec :=
  match codec.activeSigning with
  | some signing =>
      if 0 < signedLengthOf (byteOr frame 2) then codec.verified signing frame else (true, codec)
  | none => (true, codec)

def receivedAs (codec : MavlinkV2Codec) (frame : Bytes) (message : Option MavlinkMessage) :
    Option MavlinkEnvelope × MavlinkV2Codec :=
  if byteOr frame 2 &&& ~~~MAVLINK_V2_INCOMPAT_FLAG_SIGNED ≠ 0 then (none, codec)
  else if (codec.checked frame).1 then (message.map (envelopeOf frame), (codec.checked frame).2)
  else (none, (codec.checked frame).2)

theorem receive_eq_ok {D : Dialect} (codec : MavlinkV2Codec) {frame : Bytes}
    (hframe : IsFrame D frame) :
    ∃ message, decodePayload D (messageIdOf frame) (payloadOf frame) = .ok message ∧
      receive D codec frame = .ok (codec.receivedAs frame message) := by
  obtain ⟨⟨-, h12, hlen, hok⟩, hexact⟩ := hframe
  have hbounds := (frameLength_bounds frame).1
  have hcrc : (crcExtraFor D (messageIdOf frame)).isSome := by
    rw [checksumOk] at hok
    cases hc : crcExtraFor D (messageIdOf frame) with
    | none =>
      rw [hc] at hok
      cases hok
    | some crcExtra => rfl
  have hslice : (slice frame 10 (byteOr frame 1).toNat).length = (byteOr frame 1).toNat :=
    slice_length (by omega)
  have hpayload : payloadSize (messageIdOf frame) ≤ (payloadOf frame).length := by
    rw [payloadSize, payloadOf, zeroPad, List.length_append, List.length_replicate, hslice]
    cases MAVLINK_PAYLOAD_LENGTHS (messageIdOf frame) with
    | none => exact Nat.zero_le _
    | some declared =>
      simp only [Option.getD_some]
      omega
  obtain ⟨message, hmessage⟩ := decodePayload_isOk hcrc hpayload
  refine ⟨message, hmessage, ?_⟩
  have hcheck : codec.checkSignature frame (byteOr frame 1) (byteOr frame 2) =
      .ok (codec.checked frame) := by
    rw [checkSignature, checked]
    cases codec.activeSigning with
    | none => rfl
    | some signing =>
      dsimp only
      split
      · next hsigned =>
        refine verifySignedFrame_eq_ok ?_
        rw [signedLengthOf] at hsigned
        split at hsigned
        · next hflag =>
          rw [hexact, frameLength, frameLengthOf, signedLengthOf, if_pos hflag]
          simp only [MAVLINK_V2_HEADER_LENGTH, MAVLINK_V2_CHECKSUM_LENGTH,
            MAVLINK_V2_SIGNATURE_LENGTH]
          omega
        · omega
      · rfl
  have hid : messageIdAt frame 0 = .ok (messageIdOf frame) :=
    messageIdAt_eq_ok (by omega)
  have hbyte : ∀ i, i < 12 → get UInt8 frame i = .ok (byteOr frame i) := fun i hi =>
    get_uint8 (by omega)
  rw [receive, hbyte 1 (by omega), ok_bind, hbyte 2 (by omega), ok_bind, receivedAs]
  by_cases hflags : byteOr frame 2 &&& ~~~MAVLINK_V2_INCOMPAT_FLAG_SIGNED ≠ 0
  · rw [if_pos hflags, if_pos hflags]
  · rw [if_neg hflags, if_neg hflags, hcheck, ok_bind]
    rcases codec.checked frame with ⟨accepted, codec'⟩
    cases accepted with
    | false => rfl
    | true =>
      simp only [Bool.not_true, Bool.false_eq_true, if_false, if_true, hid, ok_bind,
        MAVLINK_V2_HEADER_LENGTH]
      rw [← payloadOf, hmessage, ok_bind]
      cases message with
      | none => rfl
      | some message =>
        simp only [hbyte 4 (by omega), hbyte 5 (by omega), hbyte 6 (by omega), ok_bind]
        rfl

def withBuffer (codec : MavlinkV2Codec) (buffer : Bytes) : MavlinkV2Codec := { codec with buffer }

@[simp] theorem withBuffer_buffer (codec : MavlinkV2Codec) (buffer : Bytes) :
    (codec.withBuffer buffer).buffer = buffer := rfl

@[simp] theorem withBuffer_withBuffer (codec : MavlinkV2Codec) (b b' : Bytes) :
    (codec.withBuffer b).withBuffer b' = codec.withBuffer b' := rfl

theorem withBuffer_self (codec : MavlinkV2Codec) : codec.withBuffer codec.buffer = codec := rfl

theorem verified_withBuffer (codec : MavlinkV2Codec) (signing : SigningConfig) (frame b : Bytes) :
    (codec.withBuffer b).verified signing frame =
      ((codec.verified signing frame).1, (codec.verified signing frame).2.withBuffer b) := by
  by_cases hmatch : SignatureMatches signing frame
  · by_cases hreplay : codec.Replayed frame
    · rw [verified_of_replayed hmatch hreplay,
        @verified_of_replayed (codec.withBuffer b) _ _ hmatch hreplay]
      rfl
    · by_cases hold : codec.TooOld signing frame
      · rw [verified_of_tooOld hmatch hreplay hold,
          @verified_of_tooOld (codec.withBuffer b) _ _ hmatch hreplay hold]
        rfl
      · rw [verified_of_accepted hmatch hreplay hold,
          @verified_of_accepted (codec.withBuffer b) _ _ hmatch hreplay hold]
        rfl
  · rw [verified_of_mismatch hmatch, verified_of_mismatch hmatch]
    rfl

theorem checked_withBuffer (codec : MavlinkV2Codec) (frame b : Bytes) :
    (codec.withBuffer b).checked frame =
      ((codec.checked frame).1, (codec.checked frame).2.withBuffer b) := by
  have hsigning : (codec.withBuffer b).activeSigning = codec.activeSigning := rfl
  simp only [checked, hsigning]
  split
  · split
    · exact verified_withBuffer codec _ frame b
    · rfl
  · rfl

theorem receivedAs_withBuffer (codec : MavlinkV2Codec) (frame b : Bytes)
    (message : Option MavlinkMessage) :
    (codec.withBuffer b).receivedAs frame message =
      ((codec.receivedAs frame message).1, (codec.receivedAs frame message).2.withBuffer b) := by
  simp only [receivedAs, checked_withBuffer]
  split_ifs <;> rfl

theorem carries_of_receivedAs {D : Dialect} {codec : MavlinkV2Codec} {frame : Bytes}
    {message : Option MavlinkMessage} {envelope : MavlinkEnvelope}
    (hdecode : decodePayload D (messageIdOf frame) (payloadOf frame) = .ok message)
    (h : (codec.receivedAs frame message).1 = some envelope) : Carries D frame envelope := by
  rw [receivedAs] at h
  split at h
  · cases h
  · next hflags =>
    split at h
    · obtain ⟨m, rfl, rfl⟩ := Option.map_eq_some_iff.mp h
      exact ⟨not_not.mp hflags, m, hdecode, rfl⟩
    · cases h

/-! ## One iteration -/

/-- What an iteration does, in terms of the bytes from the first STX on. -/
inductive TurnSpec (D : Dialect) (codec : MavlinkV2Codec) (rest : Bytes) : Turn → Prop
  | short : codec.buffer.length < 12 → TurnSpec D codec rest (.stop codec)
  | few : 12 ≤ codec.buffer.length → rest.length < 12 →
      TurnSpec D codec rest (.stop (codec.withBuffer rest))
  | wait : 12 ≤ rest.length → rest.length < frameLength rest →
      (∀ i, 1 ≤ i → ¬ StartsFrame D (rest.drop i)) →
      TurnSpec D codec rest (.stop (codec.withBuffer rest))
  | resync (i : ℕ) : 12 ≤ rest.length → rest.length < frameLength rest → 1 ≤ i →
      StartsFrame D (rest.drop i) → (∀ j, 1 ≤ j → j < i → ¬ StartsFrame D (rest.drop j)) →
      TurnSpec D codec rest (.next none (codec.withBuffer (rest.drop i)))
  | junk : 12 ≤ rest.length → frameLength rest ≤ rest.length → checksumOk D rest = false →
      TurnSpec D codec rest (.next none (codec.withBuffer (rest.drop 1)))
  | frame (message : Option MavlinkMessage) : StartsFrame D rest →
      decodePayload D (messageIdOf (rest.take (frameLength rest)))
        (payloadOf (rest.take (frameLength rest))) = .ok message →
      TurnSpec D codec rest (.next (codec.receivedAs (rest.take (frameLength rest)) message).1
        ((codec.receivedAs (rest.take (frameLength rest)) message).2.withBuffer
          (rest.drop (frameLength rest))))

end MavlinkV2Codec

/-! ## Frames in a longer buffer -/

theorem byteOr_take {b : Bytes} {n i : ℕ} (h : i < n) : byteOr (b.take n) i = byteOr b i := by
  simp only [byteOr, List.getD_eq_getElem?_getD, List.getElem?_take_of_lt h]

theorem slice_take {b : Bytes} {n off len : ℕ} (h : off + len ≤ n) :
    slice (b.take n) off len = slice b off len := by
  rw [slice, slice, List.drop_take, List.take_take, Nat.min_eq_left (by omega)]

theorem frameLength_take {b : Bytes} {n : ℕ} (h : 3 ≤ n) :
    frameLength (b.take n) = frameLength b := by
  rw [frameLength, frameLength, byteOr_take (by omega), byteOr_take (by omega)]

theorem checksumOk_take {D : Dialect} {b : Bytes} {n : ℕ} (h : 12 + (byteOr b 1).toNat ≤ n) :
    checksumOk D (b.take n) = checksumOk D b := by
  rw [checksumOk, checksumOk, messageIdOf, messageIdOf, slice_take (by omega),
    byteOr_take (by omega), slice_take (by omega), fieldAt, fieldAt,
    slice_take (by rw [width_uint16]; omega)]

theorem StartsFrame.isFrame {D : Dialect} {b : Bytes} (h : StartsFrame D b) :
    IsFrame D (b.take (frameLength b)) := by
  obtain ⟨hhead, h12, hlen, hok⟩ := h
  have hbounds := (frameLength_bounds b).1
  have htake : (b.take (frameLength b)).length = frameLength b := by
    rw [List.length_take, Nat.min_eq_left hlen]
  have hframe : frameLength (b.take (frameLength b)) = frameLength b := frameLength_take (by omega)
  refine ⟨⟨?_, by omega, by omega, ?_⟩, by omega⟩
  · rw [List.head?_take, if_neg (by omega), hhead]
  · rw [checksumOk_take (by omega), hok]

namespace MavlinkV2Codec

theorem turn_spec (D : Dialect) (codec : MavlinkV2Codec) :
    ∃ t, turn D codec = .ok t ∧
      TurnSpec D codec (codec.buffer.dropWhile (· ≠ MAVLINK_V2_STX)) t := by
  rw [turn]
  by_cases hshort : codec.buffer.length < MAVLINK_V2_HEADER_LENGTH + MAVLINK_V2_CHECKSUM_LENGTH
  · rw [if_pos hshort]
    exact ⟨_, rfl, .short hshort⟩
  rw [if_neg hshort]
  have hhead : ∀ byte, (codec.buffer.dropWhile (· ≠ MAVLINK_V2_STX)).head? = some byte →
      byte = MAVLINK_V2_STX := by
    intro byte hbyte
    have := List.head?_dropWhile_not (fun b => decide (b ≠ MAVLINK_V2_STX)) codec.buffer
    rw [hbyte] at this
    simpa using this
  dsimp only
  generalize codec.buffer.dropWhile (· ≠ MAVLINK_V2_STX) = rest at hhead ⊢
  by_cases hfew : rest.length < MAVLINK_V2_HEADER_LENGTH + MAVLINK_V2_CHECKSUM_LENGTH
  · rw [if_pos hfew]
    exact ⟨_, rfl, .few (Nat.le_of_not_lt hshort) hfew⟩
  rw [if_neg hfew]
  have h12 : 12 ≤ rest.length := Nat.le_of_not_lt hfew
  have hbounds := (frameLength_bounds rest).1
  rw [get_uint8 (by omega), ok_bind, get_uint8 (by omega), ok_bind]
  have hframe : frameLengthOf (byteOr rest 1).toNat (byteOr rest 2) = frameLength rest := rfl
  rw [hframe]
  by_cases hwait : rest.length < frameLength rest
  · rw [if_pos hwait]
    obtain ⟨found, hfound, hspec⟩ := findResyncIndex_spec D (b := rest) (by omega)
    rw [hfound, ok_bind]
    cases found with
    | none => exact ⟨_, rfl, .wait h12 hwait hspec⟩
    | some i => exact ⟨_, rfl, .resync i h12 hwait hspec.1 hspec.2.1 hspec.2.2⟩
  rw [if_neg hwait]
  have hcheck : checksumMatches D (rest.take (frameLength rest)) 0 (byteOr rest 1).toNat =
      .ok (checksumOk D rest) := by
    have hlen : (rest.take (frameLength rest)).length = frameLength rest := by
      rw [List.length_take, Nat.min_eq_left (by omega)]
    have hbyte : byteOr ((rest.take (frameLength rest)).drop 0) 1 = byteOr rest 1 :=
      byteOr_take (by omega)
    have hmatches := @checksumMatches_eq_ok D (rest.take (frameLength rest)) 0
      (by rw [hbyte, hlen]; omega)
    rwa [hbyte, List.drop_zero, checksumOk_take (by omega)] at hmatches
  rw [hcheck, ok_bind]
  cases hok : checksumOk D rest with
  | false => exact ⟨_, rfl, .junk h12 (Nat.le_of_not_lt hwait) hok⟩
  | true =>
    have hstarts : StartsFrame D rest := by
      refine ⟨?_, h12, Nat.le_of_not_lt hwait, hok⟩
      cases rest with
      | nil => exact absurd h12 (by decide)
      | cons byte bytes => rw [List.head?_cons, hhead byte rfl]
    obtain ⟨message, hmessage, hreceive⟩ :=
      receive_eq_ok (codec.withBuffer (rest.drop (frameLength rest))) hstarts.isFrame
    rw [receivedAs_withBuffer] at hreceive
    refine ⟨_, ?_, .frame message hstarts hmessage⟩
    simp only [Bool.not_true, Bool.false_eq_true, if_false]
    exact congrArg (· >>= fun result => Except.ok (Turn.next result.1 result.2)) hreceive

end MavlinkV2Codec

end ArduConfigurator.Mavlink
