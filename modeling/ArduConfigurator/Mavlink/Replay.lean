import ArduConfigurator.Lib.Runs
import ArduConfigurator.Mavlink.RoundTrip

/-! # Freshness of signed frames

A codec that is configured, encodes messages and receives frames in any order: what it accepts is
newer than all it has accepted on the same stream, and what it sends is newer than all it has sent
until the timestamps run out. -/
namespace ArduConfigurator.Mavlink
set_option autoImplicit false
open Runs

def Signed (frame : Bytes) : Prop :=
  byteOr frame 2 &&& MAVLINK_V2_INCOMPAT_FLAG_SIGNED ≠ 0 ∧
    byteOr frame 2 &&& ~~~MAVLINK_V2_INCOMPAT_FLAG_SIGNED = 0

instance (frame : Bytes) : Decidable (Signed frame) := inferInstanceAs (Decidable (_ ∧ _))

instance (D : Dialect) (frame : Bytes) : Decidable (IsFrame D frame) :=
  inferInstanceAs (Decidable (_ ∧ _))

namespace MavlinkV2Codec

def accepts (codec : MavlinkV2Codec) (frame : Bytes) : Bool :=
  match codec.activeSigning with
  | none => false
  | some signing =>
      match codec.verifySignedFrame signing frame (byteOr frame 1).toNat with
      | .ok (accepted, _) => decide (Signed frame) && accepted
      | .error _ => false

/-! ## Receiving -/

theorem signed_length {D : Dialect} {frame : Bytes} (hframe : IsFrame D frame)
    (hsigned : Signed frame) : 25 + (byteOr frame 1).toNat ≤ frame.length := by
  rw [hframe.2, frameLength, frameLengthOf, signedLengthOf, if_pos hsigned.1]
  simp only [MAVLINK_V2_HEADER_LENGTH, MAVLINK_V2_CHECKSUM_LENGTH, MAVLINK_V2_SIGNATURE_LENGTH]
  omega

theorem accepts_eq {D : Dialect} {codec : MavlinkV2Codec} {signing : SigningConfig} {frame : Bytes}
    (hframe : IsFrame D frame) (hsigned : Signed frame)
    (hsigning : codec.activeSigning = some signing) :
    codec.accepts frame = (codec.verified signing frame).1 := by
  rw [accepts, hsigning]
  dsimp only
  rw [verifySignedFrame_eq_ok (signed_length hframe hsigned)]
  dsimp only
  rw [decide_eq_true hsigned, Bool.true_and]

theorem accepts_of_none {codec : MavlinkV2Codec} (frame : Bytes)
    (h : codec.activeSigning = none) : codec.accepts frame = false := by rw [accepts, h]

theorem accepts_of_not_signed {codec : MavlinkV2Codec} {frame : Bytes} (h : ¬ Signed frame) :
    codec.accepts frame = false := by
  rw [accepts]
  split
  · rfl
  · split
    · rw [decide_eq_false h, Bool.false_and]
    · rfl

theorem verified_spec (codec : MavlinkV2Codec) (signing : SigningConfig) (frame : Bytes) :
    (codec.verified signing frame).2.buffer = codec.buffer ∧
      (codec.verified signing frame).2.signing = codec.signing ∧
      (codec.verified signing frame).2.lastSentTimestamp = codec.lastSentTimestamp ∧
      (((codec.verified signing frame).1 = false ∧
          (codec.verified signing frame).2.lastSeenTimestamp = codec.lastSeenTimestamp) ∨
        ((codec.verified signing frame).1 = true ∧
          (codec.verified signing frame).2.lastSeenTimestamp =
            assign codec.lastSeenTimestamp (keyOf frame) (timestampOf frame) ∧
          ∀ t, codec.lastSeenTimestamp (keyOf frame) = some t → t < timestampOf frame)) := by
  by_cases hmatch : SignatureMatches signing frame
  · by_cases hreplay : codec.Replayed frame
    · rw [verified_of_replayed hmatch hreplay]
      exact ⟨rfl, rfl, rfl, .inl ⟨rfl, rfl⟩⟩
    · by_cases hold : codec.TooOld signing frame
      · rw [verified_of_tooOld hmatch hreplay hold]
        exact ⟨rfl, rfl, rfl, .inl ⟨rfl, rfl⟩⟩
      · rw [verified_of_accepted hmatch hreplay hold]
        refine ⟨rfl, rfl, rfl, .inr ⟨rfl, rfl, fun t ht => ?_⟩⟩
        by_contra hle
        apply hreplay
        rw [Replayed, ht]
        exact decide_eq_true (Nat.le_of_not_lt hle)
  · rw [verified_of_mismatch hmatch]
    exact ⟨rfl, rfl, rfl, .inl ⟨rfl, rfl⟩⟩

theorem arrive_spec {D : Dialect} {frame : Bytes} (codec : MavlinkV2Codec)
    (hframe : IsFrame D frame) :
    (arrive D codec frame).2.signing = codec.signing ∧
      (arrive D codec frame).2.lastSentTimestamp = codec.lastSentTimestamp ∧
      ((codec.accepts frame = false ∧
          (arrive D codec frame).2.lastSeenTimestamp = codec.lastSeenTimestamp ∧
          (Signed frame → codec.activeSigning.isSome → (arrive D codec frame).1 = none)) ∨
        (codec.accepts frame = true ∧
          (arrive D codec frame).2.lastSeenTimestamp =
            assign codec.lastSeenTimestamp (keyOf frame) (timestampOf frame) ∧
          ∀ t, codec.lastSeenTimestamp (keyOf frame) = some t → t < timestampOf frame)) := by
  obtain ⟨message, hdecode, -⟩ := receive_eq_ok codec hframe
  rw [arrive_of_decode hdecode, receivedAs]
  by_cases hflags : byteOr frame 2 &&& ~~~MAVLINK_V2_INCOMPAT_FLAG_SIGNED ≠ 0
  · rw [if_pos hflags]
    exact ⟨rfl, rfl, .inl ⟨accepts_of_not_signed fun hs => hflags hs.2, rfl, fun hs => absurd hs.2 hflags⟩⟩
  rw [if_neg hflags]
  cases hsigning : codec.activeSigning with
  | none =>
    have hchecked : codec.checked frame = (true, codec) := by rw [checked, hsigning]
    rw [hchecked]
    exact ⟨rfl, rfl, .inl ⟨accepts_of_none frame hsigning, rfl, fun _ h => by cases h⟩⟩
  | some signing =>
    by_cases hsigned : byteOr frame 2 &&& MAVLINK_V2_INCOMPAT_FLAG_SIGNED ≠ 0
    · have hboth : Signed frame := ⟨hsigned, not_not.mp hflags⟩
      have hpos : 0 < signedLengthOf (byteOr frame 2) := by
        rw [signedLengthOf, if_pos hsigned]
        decide
      have hchecked : codec.checked frame = codec.verified signing frame := by
        rw [checked, hsigning]
        exact if_pos hpos
      obtain ⟨-, hkeep, hsent, hcase⟩ := codec.verified_spec signing frame
      rw [hchecked, accepts_eq hframe hboth hsigning]
      obtain ⟨hfalse, hseen⟩ | ⟨htrue, hseen, hnew⟩ := hcase
      · rw [hfalse]
        exact ⟨hkeep, hsent, .inl ⟨rfl, hseen, fun _ _ => rfl⟩⟩
      · rw [htrue]
        exact ⟨hkeep, hsent, .inr ⟨rfl, hseen, hnew⟩⟩
    · have hchecked : codec.checked frame = (true, codec) := by
        rw [checked, hsigning]
        refine if_neg ?_
        rw [signedLengthOf, if_neg hsigned]
        exact Nat.lt_irrefl 0
      rw [hchecked]
      exact ⟨rfl, rfl, .inl ⟨accepts_of_not_signed fun hs => hsigned hs.1, rfl,
        fun hs => absurd hs.1 hsigned⟩⟩

/-! ## Sending -/

def SentInRange (codec : MavlinkV2Codec) : Prop :=
  ∀ key t, codec.lastSentTimestamp key = some t →
    0 ≤ t ∧ t ≤ MAVLINK_V2_SIGNING_TIMESTAMP_MAX

theorem nextSendTimestamp_spec {codec : MavlinkV2Codec} (signing : SigningConfig) (key : StreamKey)
    (hrange : codec.SentInRange) :
    0 ≤ (codec.nextSendTimestamp signing key).1 ∧
      (codec.nextSendTimestamp signing key).1 ≤ MAVLINK_V2_SIGNING_TIMESTAMP_MAX ∧
      ∀ t, codec.lastSentTimestamp key = some t →
        t < (codec.nextSendTimestamp signing key).1 ∨
          t = MAVLINK_V2_SIGNING_TIMESTAMP_MAX ∧
            (codec.nextSendTimestamp signing key).1 = MAVLINK_V2_SIGNING_TIMESTAMP_MAX := by
  have hmax : 0 ≤ MAVLINK_V2_SIGNING_TIMESTAMP_MAX := by decide
  rw [nextSendTimestamp]
  dsimp only
  cases hlast : codec.lastSentTimestamp key with
  | none =>
    refine ⟨?_, Int.min_le_right _ _, fun t ht => by cases ht⟩
    rw [Option.getD_none]
    split
    all_goals omega
  | some last =>
    obtain ⟨hlo, hhi⟩ := hrange key last hlast
    rw [Option.getD_some]
    refine ⟨?_, Int.min_le_right _ _, fun t ht => ?_⟩
    · split
      all_goals omega
    · cases ht
      split
      all_goals omega

theorem nextSendTimestamp_codec {codec next : MavlinkV2Codec} {signing : SigningConfig}
    {key : StreamKey} {t : ℤ} (h : codec.nextSendTimestamp signing key = (t, next)) :
    next = { codec with
      lastSentTimestamp := assign codec.lastSentTimestamp key t
      clockReads := codec.clockReads + 1 } := by
  rw [nextSendTimestamp] at h
  cases h
  rfl

theorem encode_signed {D : Dialect} {codec codec' next : MavlinkV2Codec} {header : MavlinkHeader}
    {message : MavlinkMessage} {frame : Bytes} {signing : SigningConfig} {t : ℤ}
    (hsigning : codec.activeSigning = some signing)
    (hnext : codec.nextSendTimestamp signing
      ⟨header.systemId, header.componentId, signing.linkId⟩ = (t, next))
    (h : codec.encode D header message = .ok (frame, codec')) :
    codec' = next ∧ ∃ messageId payload signature, payload.length ≤ 255 ∧
      frame = frameBytes D MAVLINK_V2_INCOMPAT_FLAG_SIGNED header messageId payload ++
        ([signing.linkId] ++ leBytes 6 t.toNat ++ signature) := by
  rw [encode] at h
  obtain ⟨messageId, hid, h⟩ := bind_eq_ok.mp h
  obtain ⟨payload, hpayload, h⟩ := bind_eq_ok.mp h
  rw [hsigning] at h
  dsimp only at h
  rw [hnext] at h
  cases h
  refine ⟨rfl, messageId, payload, computeSignature signing.secretKey
    (frameBytes D MAVLINK_V2_INCOMPAT_FLAG_SIGNED header messageId payload) signing.linkId t.toNat,
    encodePayload_length hpayload, ?_⟩
  simp only [List.append_assoc]

theorem trailer_readback {D : Dialect} {header : MavlinkHeader} {messageId : ℕ} {payload : Bytes}
    (hlen : payload.length ≤ 255) (linkId : UInt8) {t : ℕ} (ht : t < 2 ^ 48) (signature : Bytes) :
    keyOf (frameBytes D MAVLINK_V2_INCOMPAT_FLAG_SIGNED header messageId payload ++
        ([linkId] ++ leBytes 6 t ++ signature)) = ⟨header.systemId, header.componentId, linkId⟩ ∧
      timestampOf (frameBytes D MAVLINK_V2_INCOMPAT_FLAG_SIGNED header messageId payload ++
        ([linkId] ++ leBytes 6 t ++ signature)) = t := by
  generalize htrailer : [linkId] ++ leBytes 6 t ++ signature = trailer
  have hone := @byteOr_one_frameBytes D MAVLINK_V2_INCOMPAT_FLAG_SIGNED header messageId payload
    trailer hlen
  have hbehind := fun off len => slice_append_right
    (frameBytes D MAVLINK_V2_INCOMPAT_FLAG_SIGNED header messageId payload) trailer off len
  rw [frameBytes_length] at hbehind
  constructor
  · have hlink : byteOr (frameBytes D MAVLINK_V2_INCOMPAT_FLAG_SIGNED header messageId payload ++
        trailer) (12 + payload.length) = linkId := by
      rw [byteOr, List.getD_eq_getElem?_getD, List.getElem?_append_right (by simp),
        frameBytes_length, Nat.sub_self, ← htrailer]
      rfl
    rw [keyOf, hone, hlink]
    rfl
  · have hstamp : slice trailer 1 6 = leBytes 6 t := by
      rw [← htrailer, List.append_assoc]
      refine (slice_append_right [linkId] (leBytes 6 t ++ signature) 0 6).trans ?_
      rw [slice_append_left _ (by rw [leBytes_length]), slice_zero_of_length (leBytes_length _ _)]
    have hoff : 13 + payload.length = 12 + payload.length + 1 := by omega
    rw [timestampOf, hone, hoff, hbehind, hstamp, ofLE_leBytes_of_lt (by omega)]

theorem signatureMatches_signed {D : Dialect} {header : MavlinkHeader} {messageId : ℕ}
    {payload : Bytes} {signing : SigningConfig} (hlen : payload.length ≤ 255) {linkId : UInt8}
    {t : ℕ} (ht : t < 2 ^ 48) :
    SignatureMatches signing (frameBytes D MAVLINK_V2_INCOMPAT_FLAG_SIGNED header messageId payload ++
      ([linkId] ++ leBytes 6 t ++ computeSignature signing.secretKey
        (frameBytes D MAVLINK_V2_INCOMPAT_FLAG_SIGNED header messageId payload) linkId t)) := by
  generalize hsignature : computeSignature signing.secretKey
    (frameBytes D MAVLINK_V2_INCOMPAT_FLAG_SIGNED header messageId payload) linkId t = signature
  obtain ⟨hkey, hstamp⟩ := @trailer_readback D header messageId payload hlen linkId t ht signature
  have hlength : signature.length = 6 := by rw [← hsignature, computeSignature_length]
  have hslice : slice ([linkId] ++ leBytes 6 t ++ signature) 7 6 = signature := by
    have hfront : ([linkId] ++ leBytes 6 t).length = 7 := by
      rw [List.length_append, leBytes_length, List.length_singleton]
    have hbehind := slice_append_right ([linkId] ++ leBytes 6 t) signature 0 6
    rw [hfront, slice_zero_of_length hlength] at hbehind
    exact hbehind
  have htake := @List.take_left _ (frameBytes D MAVLINK_V2_INCOMPAT_FLAG_SIGNED header messageId
    payload) ([linkId] ++ leBytes 6 t ++ signature)
  have hbehind := slice_append_right (frameBytes D MAVLINK_V2_INCOMPAT_FLAG_SIGNED header messageId
    payload) ([linkId] ++ leBytes 6 t ++ signature) 7 6
  have hoff : 19 + payload.length = 12 + payload.length + 7 := by omega
  rw [frameBytes_length] at htake hbehind
  rw [SignatureMatches, hkey, hstamp, byteOr_one_frameBytes _ hlen, htake, hoff, hbehind, hslice,
    hsignature]

end MavlinkV2Codec

/-! ## Runs -/

inductive SigningEvent
  | configure (config : Option MavlinkV2SigningConfig)
  | encode (header : MavlinkHeader) (message : MavlinkMessage)
  | receive (frame : Bytes)

structure SigningSession where
  codec : MavlinkV2Codec
  sent : List Bytes
  accepted : List Bytes

namespace SigningSession

def fresh : SigningSession := ⟨.fresh, [], []⟩

def step (D : Dialect) (s : SigningSession) : SigningEvent → Option SigningSession
  | .configure config =>
      match s.codec.setSigningConfig config with
      | .ok codec => some { s with codec }
      | .error _ => some s
  | .encode header message =>
      match s.codec.encode D header message with
      | .ok (frame, codec) =>
          some { s with
            codec
            sent := if s.codec.activeSigning.isSome then s.sent ++ [frame] else s.sent }
      | .error _ => some s
  | .receive frame =>
      if IsFrame D frame then
        match s.codec.push D frame with
        | .ok (_, codec) =>
            some { s with
              codec
              accepted := if s.codec.accepts frame then s.accepted ++ [frame] else s.accepted }
        | .error _ => none
      else none

def Newer (f g : Bytes) : Prop := keyOf f = keyOf g → timestampOf f < timestampOf g

/-- The later frame of a stream has the later timestamp, or both have the last there is. -/
def NewerOrLast (f g : Bytes) : Prop :=
  keyOf f = keyOf g →
    timestampOf f < timestampOf g ∨ timestampOf f = 2 ^ 48 - 1 ∧ timestampOf g = 2 ^ 48 - 1

instance (f g : Bytes) : Decidable (Newer f g) := inferInstanceAs (Decidable (_ → _))

/-- The codec remembers of each stream the newest timestamp it has sent and accepted. -/
structure Remembers (s : SigningSession) : Prop where
  buffer : s.codec.buffer = []
  range : s.codec.SentInRange
  sentBelow : ∀ f ∈ s.sent, ∃ t : ℤ, s.codec.lastSentTimestamp (keyOf f) = some t ∧
    (timestampOf f : ℤ) ≤ t
  sentNewer : s.sent.Pairwise NewerOrLast
  acceptedBelow : ∀ f ∈ s.accepted, ∃ t, s.codec.lastSeenTimestamp (keyOf f) = some t ∧
    timestampOf f ≤ t
  acceptedNewer : s.accepted.Pairwise Newer

theorem remembers_fresh : Remembers fresh where
  buffer := rfl
  range := fun _ _ h => by cases h
  sentBelow := fun _ h => by cases h
  sentNewer := .nil
  acceptedBelow := fun _ h => by cases h
  acceptedNewer := .nil

theorem remembers_configure {s : SigningSession} {config : Option MavlinkV2SigningConfig}
    {codec : MavlinkV2Codec} (hs : Remembers s)
    (h : s.codec.setSigningConfig config = .ok codec) : Remembers { s with codec } := by
  cases config with
  | none =>
    cases h
    exact ⟨hs.buffer, hs.range, hs.sentBelow, hs.sentNewer, hs.acceptedBelow, hs.acceptedNewer⟩
  | some config =>
    rw [MavlinkV2Codec.setSigningConfig] at h
    split at h
    · cases h
      exact ⟨hs.buffer, hs.range, hs.sentBelow, hs.sentNewer, hs.acceptedBelow, hs.acceptedNewer⟩
    · cases h

theorem remembers_encode {D : Dialect} {s : SigningSession} {header : MavlinkHeader}
    {message : MavlinkMessage} {frame : Bytes} {codec : MavlinkV2Codec} {signing : SigningConfig}
    (hs : Remembers s) (hsigning : s.codec.activeSigning = some signing)
    (h : s.codec.encode D header message = .ok (frame, codec)) :
    Remembers { s with codec, sent := s.sent ++ [frame] } := by
  obtain ⟨t, next, hnext⟩ : ∃ t next, s.codec.nextSendTimestamp signing
      ⟨header.systemId, header.componentId, signing.linkId⟩ = (t, next) := ⟨_, _, rfl⟩
  obtain ⟨hlo, hhi, hlater⟩ := MavlinkV2Codec.nextSendTimestamp_spec signing
    ⟨header.systemId, header.componentId, signing.linkId⟩ hs.range
  obtain ⟨rfl, messageId, payload, signature, hlen, rfl⟩ :=
    MavlinkV2Codec.encode_signed hsigning hnext h
  have hcodec := MavlinkV2Codec.nextSendTimestamp_codec hnext
  rw [hnext] at hlo hhi hlater
  dsimp only at hlo hhi hlater
  have hmax : t ≤ 2 ^ 48 - 1 := hhi
  obtain ⟨hkey, hstamp⟩ := @MavlinkV2Codec.trailer_readback D header messageId payload hlen
    signing.linkId t.toNat (by omega) signature
  generalize hframe : frameBytes D MAVLINK_V2_INCOMPAT_FLAG_SIGNED header messageId payload ++
    ([signing.linkId] ++ leBytes 6 t.toNat ++ signature) = frame at hkey hstamp
  generalize hk : (⟨header.systemId, header.componentId, signing.linkId⟩ : StreamKey) = key at *
  have hlast : ∀ f ∈ s.sent, keyOf f = key → ∃ last : ℤ,
      s.codec.lastSentTimestamp key = some last ∧ (timestampOf f : ℤ) ≤ last := by
    intro f hf hfk
    obtain ⟨last, hlast, hle⟩ := hs.sentBelow f hf
    exact ⟨last, hfk ▸ hlast, hle⟩
  subst hcodec
  refine ⟨hs.buffer, ?range, ?sentBelow, ?sentNewer, hs.acceptedBelow, hs.acceptedNewer⟩
  case range =>
    intro other u hu
    dsimp only at hu
    by_cases hother : other = key
    · rw [hother, assign_self] at hu
      cases hu
      exact ⟨hlo, hhi⟩
    · rw [assign_of_ne hother] at hu
      exact hs.range other u hu
  case sentBelow =>
    intro f hf
    dsimp only
    by_cases hfk : keyOf f = key
    · rw [hfk, assign_self]
      refine ⟨t, rfl, ?_⟩
      obtain hf | hf := List.mem_append.mp hf
      · obtain ⟨last, hlast, hle⟩ := hlast f hf hfk
        obtain hlt | ⟨heq, heq'⟩ := hlater last hlast
        all_goals omega
      · rw [List.mem_singleton.mp hf, hstamp]
        omega
    · rw [assign_of_ne hfk]
      obtain hf | hf := List.mem_append.mp hf
      · exact hs.sentBelow f hf
      · exact absurd ((congrArg keyOf (List.mem_singleton.mp hf)).trans hkey) hfk
  case sentNewer =>
    refine List.pairwise_append.mpr ⟨hs.sentNewer, List.pairwise_singleton _ _, ?_⟩
    intro f hf g hg hfg
    rw [List.mem_singleton.mp hg] at hfg ⊢
    obtain ⟨last, hlast, hle⟩ := hlast f hf (hfg.trans hkey)
    have hmax : MAVLINK_V2_SIGNING_TIMESTAMP_MAX = 2 ^ 48 - 1 := rfl
    rw [hstamp]
    obtain hlt | ⟨heq, heq'⟩ := hlater last hlast
    · exact .inl (by omega)
    · by_cases hfmax : timestampOf f = 2 ^ 48 - 1
      · exact .inr ⟨hfmax, by omega⟩
      · exact .inl (by omega)

theorem remembers_receive {D : Dialect} {s : SigningSession} {frame : Bytes}
    (hs : Remembers s) (hframe : IsFrame D frame) :
    Remembers { s with
      codec := (MavlinkV2Codec.arrive D s.codec frame).2
      accepted := if s.codec.accepts frame then s.accepted ++ [frame] else s.accepted } := by
  obtain ⟨-, hsent, hcase⟩ := s.codec.arrive_spec hframe
  refine ⟨(MavlinkV2Codec.arrive_buffer D s.codec frame).trans hs.buffer, ?_, ?_, hs.sentNewer,
    ?accepted, ?newer⟩
  · intro key t ht
    rw [hsent] at ht
    exact hs.range key t ht
  · intro f hf
    dsimp only
    rw [hsent]
    exact hs.sentBelow f hf
  all_goals
    dsimp only
    obtain ⟨hrejected, hseen, -⟩ | ⟨haccepted, hseen, hnew⟩ := hcase
  case accepted.inl =>
    rw [hrejected, hseen]
    exact hs.acceptedBelow
  case newer.inl =>
    rw [hrejected]
    exact hs.acceptedNewer
  case accepted.inr =>
    rw [haccepted, hseen]
    intro f hf
    by_cases hfk : keyOf f = keyOf frame
    · rw [hfk, assign_self]
      refine ⟨_, rfl, ?_⟩
      obtain hf | hf := List.mem_append.mp hf
      · obtain ⟨t, ht, hle⟩ := hs.acceptedBelow f hf
        have hlt := hnew t (hfk ▸ ht)
        omega
      · rw [List.mem_singleton.mp hf]
    · rw [assign_of_ne hfk]
      obtain hf | hf := List.mem_append.mp hf
      · exact hs.acceptedBelow f hf
      · exact absurd (congrArg keyOf (List.mem_singleton.mp hf)) hfk
  case newer.inr =>
    rw [haccepted]
    refine List.pairwise_append.mpr ⟨hs.acceptedNewer, List.pairwise_singleton _ _, ?_⟩
    intro f hf g hg hfg
    rw [List.mem_singleton.mp hg] at hfg ⊢
    obtain ⟨t, ht, hle⟩ := hs.acceptedBelow f hf
    have hlt := hnew t (hfg ▸ ht)
    omega

theorem push_arrives {D : Dialect} {codec : MavlinkV2Codec} {frame : Bytes}
    (hempty : codec.buffer = []) (hframe : IsFrame D frame) :
    codec.push D frame = .ok ((MavlinkV2Codec.arrive D codec frame).1.toList,
      (MavlinkV2Codec.arrive D codec frame).2) := by
  have hreset : codec.reset = codec := by
    rw [MavlinkV2Codec.reset, ← hempty]
  have hpush := MavlinkV2Codec.push_frame hframe codec
  rwa [hreset] at hpush

theorem remembers_step {D : Dialect} {s s' : SigningSession} {e : SigningEvent} (hs : Remembers s)
    (h : s.step D e = some s') : Remembers s' := by
  cases e with
  | configure config =>
    rw [step] at h
    split at h
    · next codec hconfig =>
      cases h
      exact remembers_configure hs hconfig
    · cases h
      exact hs
  | encode header message =>
    rw [step] at h
    split at h
    · next frame codec hencode =>
      cases h
      cases hsigning : s.codec.activeSigning with
      | none =>
        rw [MavlinkV2Codec.encode] at hencode
        obtain ⟨messageId, hid, hencode⟩ := bind_eq_ok.mp hencode
        obtain ⟨payload, hpayload, hencode⟩ := bind_eq_ok.mp hencode
        rw [hsigning] at hencode
        cases hencode
        exact hs
      | some signing => exact remembers_encode hs hsigning hencode
    · cases h
      exact hs
  | receive frame =>
    rw [step] at h
    split at h
    · next hframe =>
      rw [push_arrives hs.buffer hframe] at h
      cases h
      exact remembers_receive hs hframe
    · cases h

/-- In every run of configurations, encodings and arrivals, the accepted timestamps of a stream
increase, no signed frame is accepted twice, and a signed frame that is not accepted brings nothing
and leaves the timestamps as they were; the timestamps sent on a stream increase until they have
reached the last one. -/
theorem fresh_timestamps {D : Dialect} {es : List SigningEvent} {s : SigningSession}
    (h : run (step D) fresh es = some s) :
    s.accepted.Pairwise Newer ∧ s.accepted.Nodup ∧
      (∀ frame, IsFrame D frame → Signed frame → s.codec.activeSigning.isSome →
        s.codec.accepts frame = false →
        ∃ codec', s.codec.push D frame = .ok ([], codec') ∧
          codec'.lastSeenTimestamp = s.codec.lastSeenTimestamp) ∧
      s.sent.Pairwise NewerOrLast := by
  have hs : Remembers s := run_invariant (fun _ _ _ hs h => remembers_step hs h) remembers_fresh h
  refine ⟨hs.acceptedNewer, hs.acceptedNewer.imp fun hnewer heq => ?_,
    fun frame hframe hsigned hkey hrejected => ?_, hs.sentNewer⟩
  · have hlt := hnewer (congrArg keyOf heq)
    rw [heq] at hlt
    exact Nat.lt_irrefl _ hlt
  · obtain ⟨-, -, hcase⟩ := s.codec.arrive_spec hframe
    rw [push_arrives hs.buffer hframe]
    obtain ⟨-, hseen, hnone⟩ | ⟨haccepted, -, -⟩ := hcase
    · rw [hnone hsigned hkey]
      exact ⟨_, rfl, hseen⟩
    · rw [hrejected] at haccepted
      cases haccepted

def key : Bytes := List.replicate 32 7

/-- A heartbeat signed with the key at time `t`. -/
def signedHeartbeat (t : ℕ) : Bytes :=
  let frame := frameBytes .excerpt MAVLINK_V2_INCOMPAT_FLAG_SIGNED ⟨1, 1, 0⟩ 0
    [0, 0, 0, 0, 2, 3, 0, 0, 3]
  frame ++ [0] ++ leBytes 6 t ++ computeSignature key frame 0 t

def standingClock (t : ℤ) : SigningEvent := .configure (some ⟨key, none, none, fun _ => t⟩)

theorem step_receive {D : Dialect} {s : SigningSession} {frame : Bytes}
    (hempty : s.codec.buffer = []) (hframe : IsFrame D frame)
    (haccepts : s.codec.accepts frame = true) :
    s.step D (.receive frame) = some { s with
      codec := (MavlinkV2Codec.arrive D s.codec frame).2
      accepted := s.accepted ++ [frame] } := by
  rw [step, if_pos hframe, push_arrives hempty hframe]
  dsimp only
  rw [if_pos haccepts]

theorem step_encode {D : Dialect} {s : SigningSession} {header : MavlinkHeader}
    {message : MavlinkMessage} {messageId : ℕ} {payload : Bytes} {signing : SigningConfig}
    (hsigning : s.codec.activeSigning = some signing)
    (hid : messageIdFor D message = .ok messageId)
    (hpayload : encodePayload D message = .ok payload) :
    ∃ frame codec, s.step D (.encode header message) =
      some { s with codec, sent := s.sent ++ [frame] } ∧ codec.activeSigning = some signing := by
  obtain ⟨⟨frame, codec⟩, hencode⟩ := MavlinkV2Codec.encode_isOk s.codec header hid hpayload
  obtain ⟨t, next, hnext⟩ : ∃ t next, s.codec.nextSendTimestamp signing
      ⟨header.systemId, header.componentId, signing.linkId⟩ = (t, next) := ⟨_, _, rfl⟩
  obtain ⟨rfl, -⟩ := MavlinkV2Codec.encode_signed hsigning hnext hencode
  refine ⟨frame, codec, ?_, ?_⟩
  · rw [step, hencode]
    dsimp only
    rw [hsigning]
    rfl
  · rw [MavlinkV2Codec.nextSendTimestamp_codec hnext]
    exact hsigning

/-- One frame accepted and two sent while the clock stands still. -/
theorem fresh_timestamps_standing :
    ∃ s, run (step .excerpt) fresh [standingClock 9, .receive (signedHeartbeat 5),
        .encode ⟨1, 1, 0⟩ (.HEARTBEAT ⟨3, 2, 0, 0, 0, 3⟩),
        .encode ⟨1, 1, 1⟩ (.HEARTBEAT ⟨3, 2, 0, 0, 0, 3⟩)] = some s ∧
      s.accepted.length = 1 ∧ s.sent.length = 2 ∧ s.sent.Pairwise NewerOrLast := by
  obtain ⟨configured, hconfigured⟩ : ∃ s, fresh.step .excerpt (standingClock 9) = some s := ⟨_, rfl⟩
  have hstart : configured.codec.activeSigning = some ⟨key, rfl, 0, true, fun _ => 9⟩ ∧
      configured.codec.buffer = [] ∧ configured.codec.lastSeenTimestamp = (fun _ => none) ∧
      configured.accepted = [] ∧ configured.sent = [] := by
    cases hconfigured
    exact ⟨rfl, rfl, rfl, rfl, rfl⟩
  obtain ⟨hsigning, hbuffer, hseen, haccepted, hsent⟩ := hstart
  have hframe : IsFrame .excerpt (signedHeartbeat 5) := by decide +kernel
  have hsigned : Signed (signedHeartbeat 5) := by decide +kernel
  have hstamp : timestampOf (signedHeartbeat 5) = 5 := by decide +kernel
  have hmatch : SignatureMatches ⟨key, rfl, 0, true, fun _ => 9⟩ (signedHeartbeat 5) :=
    MavlinkV2Codec.signatureMatches_signed (by decide) (by omega)
  have haccepts : configured.codec.accepts (signedHeartbeat 5) = true := by
    rw [MavlinkV2Codec.accepts_eq hframe hsigned hsigning,
      MavlinkV2Codec.verified_of_accepted hmatch]
    · rw [MavlinkV2Codec.Replayed, hseen]
      exact Bool.false_ne_true
    · rw [MavlinkV2Codec.TooOld, hstamp]
      exact (by decide : ¬ ((5 : ℕ) : ℤ) < 9 - MAVLINK_V2_SIGNING_MAX_AGE_UNITS)
  have hreceive := step_receive hbuffer hframe haccepts
  have hkept : (MavlinkV2Codec.arrive .excerpt configured.codec (signedHeartbeat 5)).2.activeSigning =
      some ⟨key, rfl, 0, true, fun _ => 9⟩ := by
    rw [MavlinkV2Codec.activeSigning, (configured.codec.arrive_spec hframe).1]
    exact hsigning
  generalize MavlinkV2Codec.arrive .excerpt configured.codec (signedHeartbeat 5) = arrived
    at hreceive hkept
  obtain ⟨f, codec, hencode, hcodec⟩ := @step_encode .excerpt
    { configured with codec := arrived.2, accepted := configured.accepted ++ [signedHeartbeat 5] }
    ⟨1, 1, 0⟩ (.HEARTBEAT ⟨3, 2, 0, 0, 0, 3⟩) _ _ _ hkept rfl rfl
  obtain ⟨g, codec', hencode', -⟩ := @step_encode .excerpt { configured with
    codec, accepted := configured.accepted ++ [signedHeartbeat 5], sent := configured.sent ++ [f] }
    ⟨1, 1, 1⟩ (.HEARTBEAT ⟨3, 2, 0, 0, 0, 3⟩) _ _ _ hcodec rfl rfl
  have hrun : run (step .excerpt) fresh [standingClock 9, .receive (signedHeartbeat 5),
      .encode ⟨1, 1, 0⟩ (.HEARTBEAT ⟨3, 2, 0, 0, 0, 3⟩),
      .encode ⟨1, 1, 1⟩ (.HEARTBEAT ⟨3, 2, 0, 0, 0, 3⟩)] = some ⟨codec',
        configured.sent ++ [f] ++ [g], configured.accepted ++ [signedHeartbeat 5]⟩ := by
    rw [run_cons, hconfigured, Option.bind_some, run_cons, hreceive, Option.bind_some, run_cons,
      hencode, Option.bind_some, run_cons, hencode', Option.bind_some, run_nil]
  refine ⟨_, hrun, ?_, ?_, (fresh_timestamps hrun).2.2.2⟩
  · rw [haccepted]
    rfl
  · rw [hsent]
    rfl

set_option maxRecDepth 8000 in
/-- A clock that stands at the last timestamp of the field: both frames carry it. -/
theorem last_timestamp_repeats :
    ¬ ∀ es s, run (step .excerpt) fresh es = some s → s.sent.Pairwise Newer := by
  intro hall
  have hstamps : (run (step .excerpt) fresh [standingClock (2 ^ 48 - 1),
      .encode ⟨1, 1, 0⟩ (.HEARTBEAT ⟨3, 2, 0, 0, 0, 3⟩),
      .encode ⟨1, 1, 1⟩ (.HEARTBEAT ⟨3, 2, 0, 0, 0, 3⟩)]).map
        (fun s => s.sent.map fun f => (keyOf f, timestampOf f)) =
      some [(⟨1, 1, 0⟩, 2 ^ 48 - 1), (⟨1, 1, 0⟩, 2 ^ 48 - 1)] := by decide +kernel
  obtain ⟨s, hrun, hsent⟩ := Option.map_eq_some_iff.mp hstamps
  have hnewer := hall _ s hrun
  obtain ⟨f, fs, hfs, hf, hrest⟩ := List.map_eq_cons_iff.mp hsent
  obtain ⟨g, gs, rfl, hg, -⟩ := List.map_eq_cons_iff.mp hrest
  rw [hfs, List.pairwise_cons] at hnewer
  rw [Prod.mk.injEq] at hf hg
  have hlt := hnewer.1 g List.mem_cons_self (hf.1.trans hg.1.symm)
  omega

end SigningSession

end ArduConfigurator.Mavlink
