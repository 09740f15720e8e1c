import ArduConfigurator.Lib.LittleEndian
import Mathlib.Data.UInt

/-! # WebSocket frames

`websocket-bridge-server.ts`: a frame is decoded from the front of a buffer, with its three length
encodings and its mask. What follows a frame does not change how it is decoded, so a stream of
frames is decoded frame by frame however it arrives. -/
namespace ArduConfigurator.DesktopBridge
set_option autoImplicit false

def CONTINUATION : ℕ := 0x0
def TEXT : ℕ := 0x1
def BINARY : ℕ := 0x2
def CLOSE : ℕ := 0x8
def PING : ℕ := 0x9
def PONG : ℕ := 0xA

def UNSAFE_LENGTH : ℕ := 2 ^ 53

def bigEndian (width n : ℕ) : Bytes := (leBytes width n).reverse

def ofBigEndian (bytes : Bytes) : ℕ := ofLE bytes.reverse

variable {n : ℕ}

theorem ofBigEndian_bigEndian {width : ℕ} (h : n < 256 ^ width) :
    ofBigEndian (bigEndian width n) = n := by
  rw [ofBigEndian, bigEndian, List.reverse_reverse, ofLE_leBytes_of_lt h]

@[simp] theorem length_bigEndian (width n : ℕ) : (bigEndian width n).length = width := by
  rw [bigEndian, List.length_reverse, leBytes_length]

/-! ## Encoding -/

def lengthField (maskBit : UInt8) (payloadLength : ℕ) : Bytes :=
  if payloadLength < 126 then [maskBit ||| UInt8.ofNat payloadLength]
  else if payloadLength < 65536 then (maskBit ||| 126) :: bigEndian 2 payloadLength
  else (maskBit ||| 127) :: bigEndian 8 payloadLength

def encodeWebSocketFrame (opcode : ℕ) (payload : Bytes) : Bytes :=
  (0x80 ||| (UInt8.ofNat opcode &&& 0x0F)) :: lengthField 0 payload.length ++ payload

/-! ## Decoding -/

structure Header where
  opcode : ℕ
  masked : Bool
  payloadOffset : ℕ
  payloadLength : ℕ

def decodeHeader : Bytes → Except Unit (Option Header)
  | firstByte :: secondByte :: rest =>
    let opcode := (firstByte &&& 0x0F).toNat
    let masked := secondByte &&& 0x80 ≠ 0
    let payloadLength := (secondByte &&& 0x7F).toNat
    if payloadLength = 126 then
      if rest.length < 2 then .ok none
      else .ok (some ⟨opcode, masked, 4, ofBigEndian (rest.take 2)⟩)
    else if payloadLength = 127 then
      if rest.length < 8 then .ok none
      else
        let longLength := ofBigEndian (rest.take 8)
        if UNSAFE_LENGTH ≤ longLength then .error ()
        else .ok (some ⟨opcode, masked, 10, longLength⟩)
    else .ok (some ⟨opcode, masked, 2, payloadLength⟩)
  | _ => .ok none

structure Decoded where
  opcode : ℕ
  payload : Bytes
  remaining : Bytes

def unmask (mask payload : Bytes) : Bytes :=
  payload.mapIdx fun index byte => byte ^^^ mask.getD (index % 4) 0

def Header.maskLength (header : Header) : ℕ := if header.masked then 4 else 0

def Header.bodyLength (header : Header) : ℕ := header.maskLength + header.payloadLength

def decodeBody (header : Header) (rest : Bytes) : Option Decoded :=
  if rest.length < header.bodyLength then none
  else
    let payload := (rest.take header.bodyLength).drop header.maskLength
    some
      { opcode := header.opcode
        payload := if header.masked then unmask (rest.take 4) payload else payload
        remaining := rest.drop header.bodyLength }

def decodeWebSocketFrame (buffer : Bytes) : Except Unit (Option Decoded) := do
  match ← decodeHeader buffer with
  | none => return none
  | some header => return decodeBody header (buffer.drop header.payloadOffset)

/-! ## What follows a frame -/

variable {rest : Bytes}

theorem take_take_append (h : n ≤ rest.length) (more : Bytes) :
    (rest.take n ++ more).take n = rest.take n := by
  rw [List.take_append_of_le_length (by rw [List.length_take]; omega), List.take_take,
    Nat.min_self]

theorem not_short (h : n ≤ rest.length) (more : Bytes) :
    ¬(rest.take n ++ more).length < n := by
  rw [List.length_append, List.length_take]
  omega

variable {buffer : Bytes} {header : Header}

theorem decodeHeader_split (h : decodeHeader buffer = .ok (some header)) :
    2 ≤ header.payloadOffset ∧ header.payloadOffset ≤ buffer.length ∧ ∀ more,
      decodeHeader (buffer.take header.payloadOffset ++ more) = .ok (some header) := by
  match buffer, h with
  | firstByte :: secondByte :: rest, h =>
    rw [decodeHeader] at h
    dsimp only at h
    split at h
    · next h126 =>
      split at h
      · cases h
      · next hshort =>
        cases h
        have hle : 2 ≤ rest.length := Nat.le_of_not_lt hshort
        refine ⟨(by decide : 2 ≤ 4), by simpa using hle, fun more => ?_⟩
        simp only [List.take_succ_cons, List.cons_append, decodeHeader, if_pos h126,
          if_neg (not_short hle more), take_take_append hle]
    · next h126 =>
      split at h
      · next h127 =>
        split at h
        · cases h
        · next hshort =>
          split at h
          · cases h
          · next hsafe =>
            cases h
            have hle : 8 ≤ rest.length := Nat.le_of_not_lt hshort
            refine ⟨(by decide : 2 ≤ 10), by simpa using hle, fun more => ?_⟩
            simp only [List.take_succ_cons, List.cons_append, decodeHeader, if_neg h126,
              if_pos h127, if_neg (not_short hle more), take_take_append hle, if_neg hsafe]
      · next h127 =>
        cases h
        refine ⟨le_rfl, by simp, fun more => ?_⟩
        simp only [List.take_succ_cons, List.take_zero, List.cons_append, List.nil_append,
          decodeHeader, if_neg h126, if_neg h127]

variable {decoded : Decoded}

theorem decodeBody_eq_some (h : decodeBody header rest = some decoded) :
    header.bodyLength ≤ rest.length ∧ decoded.remaining = rest.drop header.bodyLength ∧ ∀ more,
      decodeBody header (rest.take header.bodyLength ++ more) =
        some { decoded with remaining := more } := by
  unfold decodeBody at h
  split at h
  · cases h
  · next hshort =>
    cases h
    have hle : header.bodyLength ≤ rest.length := Nat.le_of_not_lt hshort
    refine ⟨hle, rfl, fun more => ?_⟩
    have hdrop : (rest.take header.bodyLength ++ more).drop header.bodyLength = more := by
      rw [List.drop_append_of_le_length (by rw [List.length_take]; omega),
        List.drop_of_length_le (by rw [List.length_take]; omega), List.nil_append]
    unfold decodeBody
    rw [if_neg (not_short hle more), take_take_append hle, hdrop]
    cases hmasked : header.masked with
    | false => rfl
    | true =>
      have h4 : 4 ≤ header.bodyLength := by simp [Header.bodyLength, Header.maskLength, hmasked]
      rw [List.take_append_of_le_length (by rw [List.length_take]; omega), List.take_take,
        Nat.min_eq_left h4]

theorem decodeWebSocketFrame_split (h : decodeWebSocketFrame buffer = .ok (some decoded)) :
    ∃ raw, 2 ≤ raw.length ∧ buffer = raw ++ decoded.remaining ∧ ∀ more,
      decodeWebSocketFrame (raw ++ more) = .ok (some { decoded with remaining := more }) := by
  unfold decodeWebSocketFrame at h
  cases hheader : decodeHeader buffer with
  | error error => simp [hheader, bind, Except.bind] at h
  | ok result =>
    cases result with
    | none => simp [hheader, bind, Except.bind, pure, Except.pure] at h
    | some header =>
      simp only [hheader, bind, Except.bind, pure, Except.pure, Except.ok.injEq] at h
      obtain ⟨htwo, hoffset, hown⟩ := decodeHeader_split hheader
      obtain ⟨hbody, hremaining, hbodies⟩ := decodeBody_eq_some h
      refine ⟨buffer.take header.payloadOffset ++
        (buffer.drop header.payloadOffset).take header.bodyLength, ?_, ?_, fun more => ?_⟩
      · rw [List.length_append, List.length_take]
        omega
      · rw [hremaining, List.append_assoc, List.take_append_drop, List.take_append_drop]
      · have hdrop (rest : Bytes) :
            (buffer.take header.payloadOffset ++ rest).drop header.payloadOffset = rest := by
          rw [List.drop_append_of_le_length (by rw [List.length_take]; omega),
            List.drop_of_length_le (by rw [List.length_take]; omega), List.nil_append]
        unfold decodeWebSocketFrame
        rw [List.append_assoc, hown]
        simp only [bind, Except.bind, pure, Except.pure, hdrop, hbodies more]

/-! ## Well-formed frames -/

inductive Opcode
  | text
  | binary
  | close
  | ping
  | pong

def Opcode.code : Opcode → ℕ
  | text => TEXT
  | binary => BINARY
  | close => CLOSE
  | ping => PING
  | pong => PONG

structure WsFrame where
  opcode : Opcode
  mask : Option (UInt8 × UInt8 × UInt8 × UInt8)
  payload : Bytes
  payload_lt : payload.length < UNSAFE_LENGTH

namespace WsFrame

def maskBit (masked : Bool) : UInt8 := if masked then 0x80 else 0

def maskBytes (mask : UInt8 × UInt8 × UInt8 × UInt8) : Bytes :=
  [mask.1, mask.2.1, mask.2.2.1, mask.2.2.2]

def body (f : WsFrame) : Bytes :=
  match f.mask with
  | none => f.payload
  | some mask => maskBytes mask ++ unmask (maskBytes mask) f.payload

def bytes (f : WsFrame) : Bytes :=
  (0x80 ||| (UInt8.ofNat f.opcode.code &&& 0x0F)) ::
    lengthField (maskBit f.mask.isSome) f.payload.length ++ f.body

end WsFrame

theorem unmask_unmask (mask payload : Bytes) : unmask mask (unmask mask payload) = payload := by
  unfold unmask
  rw [List.mapIdx_mapIdx]
  refine List.ext_getElem (by simp) fun i hi hi' => ?_
  rw [List.getElem_mapIdx, Function.comp_apply, UInt8.xor_assoc, UInt8.xor_self, UInt8.xor_zero]

theorem length_unmask (mask payload : Bytes) : (unmask mask payload).length = payload.length :=
  List.length_mapIdx

theorem secondByte_fields (masked : Bool) (h : n < 128) :
    ((WsFrame.maskBit masked ||| UInt8.ofNat n) &&& 0x7F).toNat = n ∧
      decide ((WsFrame.maskBit masked ||| UInt8.ofNat n) &&& 0x80 ≠ 0) = masked := by
  have hall : ∀ masked : Bool, ∀ n : Fin 128,
      ((WsFrame.maskBit masked ||| UInt8.ofNat n.val) &&& 0x7F).toNat = n.val ∧
        decide ((WsFrame.maskBit masked ||| UInt8.ofNat n.val) &&& 0x80 ≠ 0) = masked := by
    decide +kernel
  exact hall masked ⟨n, h⟩

theorem firstByte_opcode (opcode : Opcode) :
    ((0x80 ||| (UInt8.ofNat opcode.code &&& 0x0F)) &&& 0x0F : UInt8).toNat = opcode.code := by
  cases opcode <;> rfl

theorem decodeHeader_bytes (opcode : Opcode) (masked : Bool) (h : n < UNSAFE_LENGTH)
    (rest : Bytes) :
    decodeHeader ((0x80 ||| (UInt8.ofNat opcode.code &&& 0x0F)) ::
        (lengthField (WsFrame.maskBit masked) n ++ rest)) =
      .ok (some ⟨opcode.code, masked,
        1 + (lengthField (WsFrame.maskBit masked) n).length, n⟩) := by
  unfold lengthField
  split
  · next hshort =>
    obtain ⟨hlength, hmasked⟩ := secondByte_fields masked (show n < 128 by omega)
    rw [List.cons_append, List.nil_append, decodeHeader]
    simp only [hlength, hmasked, firstByte_opcode]
    rw [if_neg (by omega), if_neg (by omega)]
    rfl
  · split
    · next hmiddle =>
      obtain ⟨hlength, hmasked⟩ := secondByte_fields masked (show 126 < 128 by omega)
      have hvalue : ofBigEndian (bigEndian 2 n) = n := ofBigEndian_bigEndian (by omega)
      have htake : (bigEndian 2 n ++ rest).take 2 = bigEndian 2 n := by
        rw [List.take_append_of_le_length (by simp), List.take_of_length_le (by simp)]
      rw [List.cons_append, decodeHeader]
      rw [show (UInt8.ofNat 126) = 126 from rfl] at hlength hmasked
      simp only [hlength, hmasked, firstByte_opcode, htake, hvalue]
      rw [if_pos trivial, if_neg (by rw [List.length_append, length_bigEndian]; omega)]
      simp
    · next hlong =>
      obtain ⟨hlength, hmasked⟩ := secondByte_fields masked (show 127 < 128 by omega)
      have hvalue : ofBigEndian (bigEndian 8 n) = n :=
        ofBigEndian_bigEndian (h.trans (by decide : UNSAFE_LENGTH < 256 ^ 8))
      have htake : (bigEndian 8 n ++ rest).take 8 = bigEndian 8 n := by
        rw [List.take_append_of_le_length (by simp), List.take_of_length_le (by simp)]
      rw [List.cons_append, decodeHeader]
      rw [show (UInt8.ofNat 127) = 127 from rfl] at hlength hmasked
      simp only [hlength, hmasked, firstByte_opcode, htake, hvalue]
      rw [if_neg (by omega), if_pos trivial,
        if_neg (by rw [List.length_append, length_bigEndian]; omega), if_neg (Nat.not_le.mpr h)]
      simp

theorem decodeWebSocketFrame_bytes (f : WsFrame) (more : Bytes) :
    decodeWebSocketFrame (f.bytes ++ more) = .ok (some ⟨f.opcode.code, f.payload, more⟩) := by
  have hheader := decodeHeader_bytes f.opcode f.mask.isSome f.payload_lt (f.body ++ more)
  have hbytes : f.bytes ++ more = (0x80 ||| (UInt8.ofNat f.opcode.code &&& 0x0F)) ::
      (lengthField (WsFrame.maskBit f.mask.isSome) f.payload.length ++ (f.body ++ more)) := by
    rw [WsFrame.bytes, List.cons_append, List.cons_append, List.append_assoc]
  unfold decodeWebSocketFrame
  rw [hbytes, hheader]
  simp only [bind, Except.bind, pure, Except.pure]
  rw [Nat.add_comm 1, List.drop_succ_cons, List.drop_left]
  congr 1
  unfold decodeBody WsFrame.body
  cases hmask : f.mask with
  | none => simp [Header.bodyLength, Header.maskLength]
  | some mask =>
    have hlength : (WsFrame.maskBytes mask ++
        unmask (WsFrame.maskBytes mask) f.payload).length = 4 + f.payload.length := by
      rw [List.length_append, length_unmask]
      rfl
    have htake : (WsFrame.maskBytes mask ++ unmask (WsFrame.maskBytes mask) f.payload ++
        more).take 4 = WsFrame.maskBytes mask := rfl
    simp only [Header.bodyLength, Header.maskLength, Option.isSome_some, if_true, htake]
    rw [if_neg (by rw [List.length_append, hlength]; omega), ← hlength, List.take_left,
      List.drop_left]
    rw [show (WsFrame.maskBytes mask ++ unmask (WsFrame.maskBytes mask) f.payload).drop 4 =
      unmask (WsFrame.maskBytes mask) f.payload from rfl, unmask_unmask]

end ArduConfigurator.DesktopBridge
