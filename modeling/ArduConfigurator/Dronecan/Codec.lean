import ArduConfigurator.Dronecan.Float16
import ArduConfigurator.Lib.Cursor
import ArduConfigurator.Lib.Entries
import ArduConfigurator.Lib.LittleEndian

/-! # Generic DroneCAN serialisation over the generated catalogue

The encoder and the decoder of `codec.ts`. A nested type is coded by the functions the caller hands
in for its name, and the two of them are tied together by recursion on the call stack that is left,
so a catalogue whose types contain themselves ends in the engine's stack overflow. -/
namespace ArduConfigurator.Dronecan
set_option autoImplicit false
open scoped NNRat

/-! ## The order of the bits on the wire

A primitive is written as its big-endian bits cut into bytes from the low end, the low byte first,
so a partial top byte comes last; reading turns the bytes round again. -/

def bitsFromBytes (bytes : Bytes) : Bits := bytes.flatMap fun byte => lowBits 8 byte.toNat

def frontChunks : ℕ → Bits → List Bits
  | 0, _ => []
  | turns + 1, s => if s = [] then [] else s.take 8 :: frontChunks turns (s.drop 8)

def endChunks : ℕ → Bits → List Bits
  | 0, _ => []
  | turns + 1, s =>
    if s = [] then [] else s.drop (s.length - 8) :: endChunks turns (s.take (s.length - 8))

def bytesFromBits (bits : Bits) : Bytes :=
  let padded := if bits.length % 8 = 0 then bits
    else bits ++ List.replicate (8 - bits.length % 8) false
  (frontChunks padded.length padded).map fun chunk => UInt8.ofNat (ofBits chunk)

/-- The first `bitlen` bits, bytes reversed; none when the stream is too short. -/
def beFromLeBits (stream : Bits) (bitlen : ℕ) : Option Bits :=
  if stream.length < bitlen then none
  else
    let s := stream.take bitlen
    some (frontChunks s.length s).reverse.flatten

/-- Bytes taken from the end of `s`. -/
def leFromBeBits (s : Bits) (bitlen : ℕ) : Bits :=
  let trimmed := if bitlen < s.length then s.drop (s.length - bitlen) else s
  (endChunks trimmed.length trimmed).flatten

def bitLength (value : ℕ) : ℕ := if value = 0 then 0 else binaryDigits value

def unionTagBits (fieldCount : ℕ) : ℕ := if fieldCount ≤ 1 then 0 else bitLength (fieldCount - 1)

theorem length_flatten_endChunks (turns : ℕ) (s : Bits) (h : s.length ≤ turns) :
    (endChunks turns s).flatten.length = s.length := by
  induction turns generalizing s with
  | zero => simp [endChunks, Nat.le_zero.mp h]
  | succ turns ih =>
    rw [endChunks]
    by_cases hs : s = []
    · simp [hs]
    · have hpos := List.length_pos_iff.mpr hs
      have hrec := ih (s.take (s.length - 8)) (by rw [List.length_take]; omega)
      rw [if_neg hs, List.flatten_cons, List.length_append, hrec, List.length_drop,
        List.length_take]
      omega

theorem frontChunks_flatten_endChunks (turns turns' : ℕ) (s : Bits) (h : s.length ≤ turns)
    (h' : s.length ≤ turns') :
    (frontChunks turns' (endChunks turns s).flatten).reverse.flatten = s := by
  induction turns generalizing s turns' with
  | zero =>
    obtain rfl : s = [] := List.length_eq_zero_iff.mp (Nat.le_zero.mp h)
    cases turns' <;> simp [endChunks, frontChunks]
  | succ turns ih =>
    rw [endChunks]
    by_cases hs : s = []
    · subst hs
      cases turns' <;> simp [frontChunks]
    · have hpos := List.length_pos_iff.mpr hs
      obtain ⟨turns', rfl⟩ : ∃ k, turns' = k + 1 := ⟨turns' - 1, by omega⟩
      have hfront : (s.take (s.length - 8)).length ≤ turns := by rw [List.length_take]; omega
      have hfront' : (s.take (s.length - 8)).length ≤ turns' := by rw [List.length_take]; omega
      have hrec := ih turns' (s.take (s.length - 8)) hfront hfront'
      have hlast : (s.drop (s.length - 8)).length = min 8 s.length := by
        rw [List.length_drop]
        omega
      rw [if_neg hs, List.flatten_cons, frontChunks]
      have hne : s.drop (s.length - 8) ++ (endChunks turns (s.take (s.length - 8))).flatten ≠ [] := by
        intro hnil
        have := congrArg List.length hnil
        rw [List.length_append, hlast, List.length_nil] at this
        omega
      rw [if_neg hne]
      by_cases h8 : 8 ≤ s.length
      · rw [List.take_left' (by omega), List.drop_left' (by omega), List.reverse_cons,
          List.flatten_append, hrec, List.flatten_singleton, List.take_append_drop]
      · have hzero : s.length - 8 = 0 := by omega
        have hempty : (endChunks turns (s.take (s.length - 8))).flatten = [] := by
          rw [hzero, List.take_zero]
          cases turns <;> simp [endChunks]
        rw [hempty, hzero, List.drop_zero, List.append_nil, List.take_of_length_le (by omega),
          List.drop_of_length_le (by omega)]
        cases turns' <;> simp [frontChunks]

variable {s : Bits} {bitlen : ℕ}

theorem length_leFromBeBits (h : s.length = bitlen) :
    (leFromBeBits s bitlen).length = bitlen := by
  rw [leFromBeBits, if_neg (by omega), length_flatten_endChunks _ _ le_rfl, h]

theorem beFromLeBits_leFromBeBits (h : s.length = bitlen) (rest : Bits) :
    beFromLeBits (leFromBeBits s bitlen ++ rest) bitlen = some s := by
  have hlen := length_leFromBeBits h
  have htake : (leFromBeBits s bitlen ++ rest).take bitlen = leFromBeBits s bitlen :=
    List.take_left' hlen
  rw [beFromLeBits, if_neg (by rw [List.length_append]; omega)]
  simp only [htake]
  rw [leFromBeBits, if_neg (by omega)]
  exact congrArg some (frontChunks_flatten_endChunks _ _ s le_rfl
    (by rw [length_flatten_endChunks _ _ le_rfl]))

theorem flatMap_lowBits_frontChunks (turns : ℕ) (s : Bits) (h : s.length ≤ turns)
    (h8 : s.length % 8 = 0) :
    bitsFromBytes ((frontChunks turns s).map fun chunk => UInt8.ofNat (ofBits chunk)) = s := by
  induction turns generalizing s with
  | zero =>
    obtain rfl : s = [] := List.length_eq_zero_iff.mp (Nat.le_zero.mp h)
    rfl
  | succ turns ih =>
    rw [frontChunks]
    by_cases hs : s = []
    · subst hs
      rfl
    · have hpos := List.length_pos_iff.mpr hs
      have htake : (s.take 8).length = 8 := by rw [List.length_take]; omega
      have hbyte : lowBits 8 (UInt8.ofNat (ofBits (s.take 8))).toNat = s.take 8 := by
        have hlt := ofBits_lt (s.take 8)
        rw [htake] at hlt
        rw [UInt8.toNat_ofNat', Nat.mod_eq_of_lt hlt]
        have hback := lowBits_ofBits (s.take 8)
        rwa [htake] at hback
      have hrec := ih (s.drop 8) (by rw [List.length_drop]; omega)
        (by rw [List.length_drop]; omega)
      rw [if_neg hs, List.map_cons, bitsFromBytes, List.flatMap_cons, hbyte]
      rw [bitsFromBytes] at hrec
      rw [hrec, List.take_append_drop]

theorem bitsFromBytes_bytesFromBits (bits : Bits) :
    ∃ pad : Bits, pad.length < 8 ∧ bitsFromBytes (bytesFromBits bits) = bits ++ pad := by
  by_cases h8 : bits.length % 8 = 0
  · refine ⟨[], by simp, ?_⟩
    simp only [bytesFromBits, h8, if_true]
    rw [flatMap_lowBits_frontChunks _ _ le_rfl h8, List.append_nil]
  · refine ⟨List.replicate (8 - bits.length % 8) false, ?_, ?_⟩
    · rw [List.length_replicate]
      omega
    · simp only [bytesFromBits, h8, if_false]
      refine flatMap_lowBits_frontChunks _ _ le_rfl ?_
      rw [List.length_append, List.length_replicate]
      omega

/-! ## The generated catalogue and decoded values -/

/-- `b`ool, `u`int, `i`nt or `f`loat. -/
inductive PrimitiveKind
  | b | u | i | f
  deriving DecidableEq

/-- `s`aturated or `t`runcated. -/
inductive CastMode
  | s | t
  deriving DecidableEq

/-- `s`tatic or `d`ynamic. -/
inductive ArrayMode
  | s | d

structure PrimitiveDesc where
  p : PrimitiveKind
  bits : ℕ
  c : Option CastMode

inductive DronecanTypeDesc
  | primitive (desc : PrimitiveDesc)
  | void (v : ℕ)
  | array (a : DronecanTypeDesc) (m : ArrayMode) (max eMin : ℕ)
  | compound (r : String)

structure DronecanFieldDesc where
  /-- Field name; none for void padding. -/
  n : Option String
  t : DronecanTypeDesc

structure DronecanSectionDesc where
  union : Bool
  fields : List DronecanFieldDesc

inductive DronecanSectionKind
  | msg | req | res

/-- A decoded value: compounds are objects keyed by field name, a union is an object with exactly
one key, arrays are arrays. -/
inductive DronecanValue
  | number (x : JsNumber)
  | bigint (i : ℤ)
  | boolean (b : Bool)
  | array (items : List DronecanValue)
  | record (fields : List (String × DronecanValue))

/-! ## Failures -/

/-- Why coding stops: a `DronecanCodecError`, an exception of the engine's own, or a loop that would
never end. -/
inductive CodecFailure
  | codecError (message : String)
  | rangeError
  | typeError
  | endless

abbrev DronecanSectionResolver := String → Except CodecFailure DronecanSectionDesc

abbrev DronecanRecord := Entries String DronecanValue

/-! ## Primitives -/

def MAX_SAFE_INTEGER : ℕ := 2 ^ 53 - 1

def integerValue (i : ℤ) : DronecanValue :=
  if -(MAX_SAFE_INTEGER : ℤ) ≤ i ∧ i ≤ MAX_SAFE_INTEGER then .number (.ofInt i) else .bigint i

def decodePrimitive (desc : PrimitiveDesc) (bits : Bits) : DronecanValue :=
  let wide := 32 < desc.bits
  let unsigned := ofBits bits
  match desc.p with
  | .b => .boolean (unsigned ≠ 0)
  | .u =>
    if wide then
      if desc.bits ≤ 53 ∨ unsigned ≤ MAX_SAFE_INTEGER then .number (.ofInt unsigned)
      else .bigint unsigned
    else .number (.ofInt unsigned)
  | .i =>
    integerValue
      (if 2 ^ (desc.bits - 1) ≤ unsigned then (unsigned : ℤ) - 2 ^ desc.bits else unsigned)
  | .f =>
    if desc.bits = 16 then .number (float16Value unsigned)
    else if desc.bits = 32 then .number (binary32.value (unsigned % 2 ^ 32))
    else .number (binary64.value (unsigned % 2 ^ 64))

def FLOAT_LIMITS (bits : ℕ) : Option ℚ≥0 :=
  if bits = 16 then some 65504
  else if bits = 32 then some ((2 ^ 24 - 1 : ℕ) * (2 : ℕ) ^ 104)
  else if bits = 64 then some ((2 ^ 53 - 1 : ℕ) * (2 : ℕ) ^ 971)
  else none

/-- What the cast mode makes of a float: a saturated one is held between the limits, a truncated one
becomes infinite beyond them. -/
def castFloat (desc : PrimitiveDesc) (number : JsNumber) : JsNumber :=
  if number = .nan then .nan
  else
    match FLOAT_LIMITS desc.bits with
    | none => if desc.c = some .s then .nan else number
    | some limit =>
      let above := !number.le (.finite false limit)
      let below := !(JsNumber.finite true limit).le number
      if desc.c = some .s then
        if above then .finite false limit else if below then .finite true limit else number
      else if above then .infinite false
      else if below then .infinite true
      else number

def castInteger (desc : PrimitiveDesc) (integer : ℤ) : ℕ :=
  if desc.p = .u then
    let max : ℤ := 2 ^ desc.bits - 1
    if desc.c = some .s then
      (if integer < 0 then 0 else if max < integer then max else integer).toNat
    else (integer % 2 ^ desc.bits).toNat
  else
    let min : ℤ := -2 ^ (desc.bits - 1)
    let max : ℤ := 2 ^ (desc.bits - 1) - 1
    let held :=
      if desc.c = some .s then if integer < min then min else if max < integer then max else integer
      else
        let low := integer % 2 ^ desc.bits
        if max < low then low - 2 ^ desc.bits else low
    (if held < 0 then held + 2 ^ desc.bits else held).toNat

def truthy : Option DronecanValue → Bool
  | none => false
  | some (.number .nan) => false
  | some (.number (.infinite _)) => true
  | some (.number (.finite _ q)) => q ≠ 0
  | some (.bigint i) => i ≠ 0
  | some (.boolean b) => b
  | some (.array _) => true
  | some (.record _) => true

/-- `BigInt(Math.trunc(x))`. -/
def truncate : JsNumber → Except CodecFailure ℤ
  | .finite negative q => .ok (if negative then -(⌊q⌋₊ : ℤ) else ⌊q⌋₊)
  | _ => .error .rangeError

def encodePrimitive (desc : PrimitiveDesc) (value : Option DronecanValue) :
    Except CodecFailure Bits :=
  match desc.p with
  | .b => .ok [truthy value]
  | .f =>
    let number := castFloat desc <|
      match value with
      | some (.number x) => x
      | some (.bigint i) => .ofInt i
      | _ => .finite false 0
    let raw :=
      if desc.bits = 16 then float16Bits number
      else if desc.bits = 32 then binary32.pattern number
      else binary64.pattern number
    .ok (binary desc.bits raw)
  | _ =>
    let integer : Except CodecFailure ℤ :=
      match value with
      | some (.bigint i) => .ok i
      | some (.number x) => truncate x
      | other => .ok (if truthy other then 1 else 0)
    integer.map fun i => binary desc.bits (castInteger desc i)

/-! ## Decode -/

abbrev Decoder (α : Type) := Reader CodecFailure α

def take (bitlen : ℕ) : Decoder Bits := fun cursor =>
  match beFromLeBits cursor.ahead bitlen with
  | none =>
    .error (.codecError ("Not enough bits: need " ++ toString bitlen ++ ", have " ++
      toString cursor.ahead.length ++ "."))
  | some bits => .ok (bits, ⟨cursor.stream, cursor.pos + bitlen⟩)

/-- `left` elements in a row; `item` is told whether its element is at the tail. -/
def decodeItems (item : Bool → Decoder DronecanValue) (tao : Bool) :
    ℕ → Decoder (List DronecanValue)
  | 0 => .pure []
  | left + 1 => (item (tao && left = 0)).bind fun v =>
      (decodeItems item tao left).bind fun vs => .pure (v :: vs)

/-- Elements as long as there is a byte left; the loop goes on for ever when an element takes no
bits, and no other can take more turns than there are bits. -/
def decodeTail (item : Decoder DronecanValue) : ℕ → Decoder (List DronecanValue)
  | 0, cursor =>
    if 8 ≤ cursor.remaining then .error .endless
    else .ok ([], ⟨cursor.stream, cursor.stream.length⟩)
  | turns + 1, cursor =>
    if 8 ≤ cursor.remaining then
      item.bind (fun v => (decodeTail item turns).bind fun vs => .pure (v :: vs)) cursor
    else .ok ([], ⟨cursor.stream, cursor.stream.length⟩)

abbrev NestedDecoder := String → Bool → Decoder DronecanValue

def decodeType (nested : NestedDecoder) : DronecanTypeDesc → Bool → Decoder DronecanValue
  | .primitive desc, _ => (take desc.bits).bind fun bits => .pure (decodePrimitive desc bits)
  | .void v, _ => fun cursor => .ok (.number (.finite false 0), ⟨cursor.stream, cursor.pos + v⟩)
  | .compound r, tao => nested r tao
  | .array a .s max _, tao =>
    (decodeItems (decodeType nested a) tao max).bind fun items => .pure (.array items)
  | .array a .d max eMin, tao =>
    if tao && 8 ≤ eMin then fun cursor =>
      (decodeTail (decodeType nested a false) cursor.remaining).bind
        (fun items => .pure (.array items)) cursor
    else
      (take (bitLength max)).bind fun bits =>
        (decodeItems (decodeType nested a) tao (ofBits bits)).bind fun items => .pure (.array items)

def decodeFields (nested : NestedDecoder) (tao : Bool) :
    List DronecanFieldDesc → DronecanRecord → Decoder DronecanRecord
  | [], out => .pure out
  | field :: rest, out =>
    (decodeType nested field.t (tao && rest.isEmpty)).bind fun value =>
      decodeFields nested tao rest <|
        match field.n with
        | none => out
        | some n => out.set n value

def decodeSection (nested : NestedDecoder) (sect : DronecanSectionDesc) (tao : Bool) :
    Decoder DronecanRecord :=
  if sect.union then fun cursor =>
    let tagBits := unionTagBits sect.fields.length
    let tag := ofBits (cursor.ahead.take tagBits)
    if cursor.stream.length < cursor.pos + tagBits then
      .error (.codecError "Not enough bits for the union tag.")
    else
      match sect.fields[tag]? with
      | none => .error (.codecError ("Union tag " ++ toString tag ++ " is out of range."))
      | some field =>
        (decodeType nested field.t tao).bind
          (fun value => .pure (match field.n with | none => [] | some n => [(n, value)]))
          ⟨cursor.stream, cursor.pos + tagBits⟩
  else decodeFields nested tao sect.fields []

/-- The reader of nested types on a stack with room for `stack` more of them. -/
def decodeNested (resolve : DronecanSectionResolver) : ℕ → NestedDecoder
  | 0, _, _ => fun _ => .error .rangeError
  | stack + 1, r, tao => fun cursor =>
    match resolve r with
    | .error e => .error e
    | .ok sect =>
      (decodeSection (decodeNested resolve stack) sect tao).bind
        (fun fields => .pure (.record fields)) cursor

def decodeDronecanSection (stack : ℕ) (sect : DronecanSectionDesc) (payload : Bytes)
    (resolve : DronecanSectionResolver) (tao : Bool) : Except CodecFailure DronecanRecord :=
  (decodeSection (decodeNested resolve stack) sect tao ⟨bitsFromBytes payload, 0⟩).map Prod.fst

/-! ## Encode -/

abbrev Encoder := Option DronecanValue → Bool → Except CodecFailure Bits

def encodeThen (first rest : Except CodecFailure Bits) : Except CodecFailure Bits :=
  first.bind fun a => rest.map fun b => a ++ b

def encodeStatic (item : Encoder) (tao : Bool) : ℕ → List DronecanValue → Except CodecFailure Bits
  | 0, _ => .ok []
  | left + 1, items =>
    encodeThen (item items.head? (tao && left = 0)) (encodeStatic item tao left items.tail)

def encodeItems (item : Encoder) (tao : Bool) : List DronecanValue → Except CodecFailure Bits
  | [] => .ok []
  | v :: vs => encodeThen (item (some v) (tao && vs.isEmpty)) (encodeItems item tao vs)

abbrev NestedEncoder := String → Encoder

def encodeType (nested : NestedEncoder) : DronecanTypeDesc → Encoder
  | .primitive desc, value, _ =>
    (encodePrimitive desc value).map fun bits => leFromBeBits bits desc.bits
  | .void v, _, _ => .ok (List.replicate v false)
  | .compound r, value, tao => nested r value tao
  | .array a m max eMin, value, tao =>
    let items :=
      match value with
      | some (.array items) => items.take max
      | _ => []
    match m with
    | .s => encodeStatic (encodeType nested a) tao max items
    | .d =>
      if tao && 8 ≤ eMin then encodeItems (encodeType nested a) false items
      else
        let countWidth := bitLength max
        encodeThen (.ok (leFromBeBits (binary countWidth items.length) countWidth))
          (encodeItems (encodeType nested a) tao items)

def encodeFields (nested : NestedEncoder) (tao : Bool) (value : DronecanRecord) :
    List DronecanFieldDesc → Except CodecFailure Bits
  | [] => .ok []
  | field :: rest =>
    encodeThen (encodeType nested field.t (field.n.bind value.get) (tao && rest.isEmpty))
      (encodeFields nested tao value rest)

def encodeSection (nested : NestedEncoder) (sect : DronecanSectionDesc) (value : DronecanRecord)
    (tao : Bool) : Except CodecFailure Bits :=
  if sect.union then
    let named := sect.fields.map DronecanFieldDesc.n
    let chosen := value.keys.find? fun key => named.contains (some key)
    let tag := match chosen with | none => 0 | some key => named.idxOf (some key)
    let tagBits := unionTagBits sect.fields.length
    match sect.fields[tag]? with
    | none => .error .typeError
    | some field =>
      encodeThen (.ok (if tagBits = 0 then [] else binary tagBits tag))
        (encodeType nested field.t (chosen.bind value.get) tao)
  else encodeFields nested tao value sect.fields

def encodeNested (resolve : DronecanSectionResolver) : ℕ → NestedEncoder
  | 0, _, _, _ => .error .rangeError
  | stack + 1, r, value, tao =>
    match resolve r with
    | .error e => .error e
    | .ok sect =>
      encodeSection (encodeNested resolve stack) sect
        (match value with | some (.record fields) => fields | _ => []) tao

def encodeDronecanSection (stack : ℕ) (sect : DronecanSectionDesc) (value : DronecanRecord)
    (resolve : DronecanSectionResolver) (tao : Bool) : Except CodecFailure Bytes :=
  (encodeSection (encodeNested resolve stack) sect value tao).map bytesFromBits

end ArduConfigurator.Dronecan
