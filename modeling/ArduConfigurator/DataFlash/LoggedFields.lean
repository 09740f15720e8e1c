import ArduConfigurator.DataFlash.Fields

/-! # What a logger writes into a field

The layout of the field codes as the logger writes them: numbers in two's complement or in their
floating point pattern, least significant byte first, texts up to a NUL. A code reads what was
written. -/
namespace ArduConfigurator.DataFlash
set_option autoImplicit false

/-- A text in a field of fixed size: after the first NUL anything may stand. -/
structure PaddedText (size : ℕ) where
  text : Bytes
  tail : Bytes
  length_eq : text.length + tail.length = size
  text_ne_zero : ∀ b ∈ text, b ≠ 0
  tail_head : ∀ b ∈ tail.head?, b = 0

namespace PaddedText
variable {size : ℕ}

def bytes (t : PaddedText size) : Bytes := t.text ++ t.tail

def string (t : PaddedText size) : String := String.ofList (t.text.map latin1)

def ofText (size : ℕ) (text : Bytes) (h : text.length ≤ size ∧ ∀ b ∈ text, b ≠ 0) :
    PaddedText size where
  text := text
  tail := List.replicate (size - text.length) 0
  length_eq := by rw [List.length_replicate, Nat.add_sub_cancel' h.1]
  text_ne_zero := h.2
  tail_head b hb := (List.mem_replicate.mp (List.mem_of_mem_head? hb)).2

theorem length_bytes (t : PaddedText size) : t.bytes.length = size := by
  rw [bytes, List.length_append, t.length_eq]

theorem takeWhile_bytes (t : PaddedText size) : t.bytes.takeWhile (· ≠ 0) = t.text := by
  have htail : t.tail.takeWhile (· ≠ 0) = [] := by
    have hhead := t.tail_head
    cases htail : t.tail with
    | nil => rfl
    | cons b bs =>
      rw [htail] at hhead
      rw [List.takeWhile_cons_of_neg (by simpa using hhead b rfl)]
  rw [bytes, List.takeWhile_append_of_pos fun b hb => by simpa using t.text_ne_zero b hb, htail,
    List.append_nil]

end PaddedText

inductive Logged
  | integer (value : ℤ)
  | pattern (bits : ℕ)
  | text {size : ℕ} (value : PaddedText size)
  | batch (values : List ℤ)

/-- How a field is laid out; what is logged scaled up is divided when it is read. -/
inductive FieldKind
  | integer (size : ℕ) (signed : Bool) (divisor : Option ℕ)
  | float (format : FloatFormat) (size : ℕ)
  | text (size : ℕ)
  | batch

def kindOf (ch : Char) : Option FieldKind :=
  match ch with
  | 'b' => some (.integer 1 true none)
  | 'B' => some (.integer 1 false none)
  | 'h' => some (.integer 2 true none)
  | 'H' => some (.integer 2 false none)
  | 'i' => some (.integer 4 true none)
  | 'I' => some (.integer 4 false none)
  | 'f' => some (.float binary32 4)
  | 'd' => some (.float binary64 8)
  | 'n' => some (.text 4)
  | 'N' => some (.text 16)
  | 'Z' => some (.text 64)
  | 'c' => some (.integer 2 true (some 100))
  | 'C' => some (.integer 2 false (some 100))
  | 'e' => some (.integer 4 true (some 100))
  | 'E' => some (.integer 4 false (some 100))
  | 'L' => some (.integer 4 true (some 10000000))
  | 'M' => some (.integer 1 true none)
  | 'q' => some (.integer 8 true none)
  | 'Q' => some (.integer 8 false none)
  | 'a' => some .batch
  | _ => none

def InRange (size : ℕ) (signed : Bool) (value : ℤ) : Prop :=
  if signed then -2 ^ (8 * size - 1) ≤ value ∧ value < 2 ^ (8 * size - 1)
  else 0 ≤ value ∧ value < 2 ^ (8 * size)

def integerBytes (size : ℕ) (value : ℤ) : Bytes := leBytes size (value % 2 ^ (8 * size)).toNat

namespace FieldKind

def size : FieldKind → ℕ
  | integer size _ _ => size
  | float _ size => size
  | text size => size
  | batch => 64

def Holds : FieldKind → Logged → Prop
  | integer size signed _, .integer value => InRange size signed value
  | float _ size, .pattern bits => bits < 256 ^ size
  | text size, @Logged.text size' _ => size' = size
  | batch, .batch values => values.length = 32 ∧ ∀ value ∈ values, InRange 2 true value
  | _, _ => False

def wire : FieldKind → Logged → Bytes
  | integer size _ _, .integer value => integerBytes size value
  | float _ size, .pattern bits => leBytes size bits
  | text _, .text value => value.bytes
  | batch, .batch values => values.flatMap (integerBytes 2)
  | _, _ => []

/-- The value that was logged; the divisor stands for the double nearest to its inverse. -/
def value : FieldKind → Logged → FieldValue
  | integer _ _ none, .integer value => .number (JsNumber.ofInt value)
  | integer _ _ (some divisor), .integer value =>
    .number ((JsNumber.ofInt value).mul
      (binary64.value (binary64.pattern (.finite false (1 / (divisor : ℚ≥0))))))
  | float format _, .pattern bits => .number (format.value bits)
  | text _, .text value => .text value.string
  | batch, .batch values => .numbers (values.map JsNumber.ofInt)
  | _, _ => .text ""

end FieldKind

/-! ## A code reads what was written -/

@[simp] theorem byteLength_ofBytes (bytes : Bytes) :
    (DataView.ofBytes bytes).byteLength = bytes.length := rfl

variable {view : DataView} {rest : Bytes}

theorem agrees_of_drop {o : ℕ} {bytes : Bytes} (ho : o ≤ view.byteLength)
    (h : view.bytes.drop o = bytes ++ rest) : Agrees view (.ofBytes bytes) o 0 bytes.length := by
  have hlength := congrArg List.length h
  rw [List.length_drop, DataView.bytes_length, List.length_append] at hlength
  refine ⟨by omega, by rw [byteLength_ofBytes]; omega, ?_⟩
  rw [h, bytes_ofBytes, List.take_left', List.drop_zero, List.take_length]
  rfl

theorem getUint_ofBytes (bytes : Bytes) :
    (DataView.ofBytes bytes).getUint 0 bytes.length = some (ofLE bytes) := by
  rw [DataView.getUint, DataView.getBytes, byteLength_ofBytes, if_pos (Nat.zero_add _).le,
    bytes_ofBytes, List.drop_zero, List.take_length]
  rfl

theorem emod_lt (size : ℕ) (value : ℤ) : (value % 2 ^ (8 * size)).toNat < 256 ^ size := by
  have hpos : (0 : ℤ) < 2 ^ (8 * size) := by positivity
  have hlt := Int.emod_lt_of_pos value hpos
  have hnonneg := Int.emod_nonneg value hpos.ne'
  have hpow : ((256 ^ size : ℕ) : ℤ) = 2 ^ (8 * size) := by
    rw [Nat.cast_pow, pow_mul]
    norm_num
  omega

theorem length_integerBytes (size : ℕ) (value : ℤ) : (integerBytes size value).length = size :=
  leBytes_length _ _

theorem getUint_integerBytes (size : ℕ) (value : ℤ) :
    (DataView.ofBytes (integerBytes size value)).getUint 0 size =
      some (value % 2 ^ (8 * size)).toNat := by
  have h := getUint_ofBytes (integerBytes size value)
  rwa [length_integerBytes, integerBytes, ofLE_leBytes_of_lt (emod_lt size value)] at h

variable {size : ℕ} {value : ℤ}

theorem getUint_unsigned (h : InRange size false value) :
    ∃ n : ℕ, (DataView.ofBytes (integerBytes size value)).getUint 0 size = some n ∧
      (n : ℤ) = value := by
  obtain ⟨hlow, hhigh⟩ := h
  refine ⟨_, getUint_integerBytes size value, ?_⟩
  rw [Int.emod_eq_of_lt hlow hhigh, Int.toNat_of_nonneg hlow]

theorem getInt_signed (hsize : 0 < size) (h : InRange size true value) :
    (DataView.ofBytes (integerBytes size value)).getInt 0 size = some value := by
  obtain ⟨hlow, hhigh⟩ := h
  obtain ⟨k, hk⟩ : ∃ k, 8 * size = k + 1 := ⟨8 * size - 1, by omega⟩
  rw [DataView.getInt, getUint_integerBytes, Option.map_some]
  rw [hk, Nat.add_sub_cancel] at hlow hhigh ⊢
  have hpow : (2 : ℤ) ^ (k + 1) = 2 * 2 ^ k := by ring
  have hcast : ((2 ^ k : ℕ) : ℤ) = 2 ^ k := by push_cast; rfl
  have hpos : (0 : ℤ) < 2 ^ k := by positivity
  rw [hpow]
  congr 1
  by_cases hneg : value < 0
  · have hmod : value % (2 * 2 ^ k) = value + 2 * 2 ^ k := by
      rw [← Int.add_emod_right, Int.emod_eq_of_lt (by omega) (by omega)]
    rw [hmod, if_neg (by omega)]
    omega
  · rw [Int.emod_eq_of_lt (by omega) (by omega), if_pos (by omega)]
    omega

structure Codes (code : TypeCode) (kind : FieldKind) : Prop where
  size : code.size = kind.size
  length_wire : ∀ {logged : Logged}, kind.Holds logged → (kind.wire logged).length = kind.size
  read : ∀ {logged : Logged}, kind.Holds logged →
    code.read (.ofBytes (kind.wire logged)) 0 = some (kind.value logged)

theorem codes_signed (hsize : 0 < size) :
    Codes (.signed size) (.integer size true none) where
  size := rfl
  length_wire {logged} h := by
    cases logged with
    | integer value => exact length_integerBytes size value
    | _ => cases h
  read {logged} h := by
    cases logged with
    | integer value =>
      have hread := getInt_signed hsize h
      exact congrArg (Option.map _) hread
    | _ => cases h

theorem codes_unsigned (size : ℕ) : Codes (.unsigned size) (.integer size false none) where
  size := rfl
  length_wire {logged} h := by
    cases logged with
    | integer value => exact length_integerBytes size value
    | _ => cases h
  read {logged} h := by
    cases logged with
    | integer value =>
      obtain ⟨n, hread, rfl⟩ := getUint_unsigned h
      exact congrArg (Option.map _) hread
    | _ => cases h

variable {code : TypeCode} {signed : Bool}

theorem Codes.scaled (h : Codes code (.integer size signed none)) (divisor : ℕ) :
    Codes (code.scaled (1 / (divisor : ℚ≥0))) (.integer size signed (some divisor)) where
  size := h.size
  length_wire {logged} hfits := by
    cases logged with
    | integer value => exact length_integerBytes size value
    | _ => cases hfits
  read {logged} hfits := by
    cases logged with
    | integer value =>
      have hread := @Codes.read _ _ h (.integer value) hfits
      exact congrArg (Option.map _) hread
    | _ => cases hfits

theorem codes_float (format : FloatFormat) (size : ℕ) :
    Codes (.float format size) (.float format size) where
  size := rfl
  length_wire {logged} h := by
    cases logged with
    | pattern bits => exact leBytes_length size bits
    | _ => cases h
  read {logged} h := by
    cases logged with
    | pattern bits =>
      have hread := getUint_ofBytes (leBytes size bits)
      rw [leBytes_length, ofLE_leBytes_of_lt h] at hread
      exact congrArg (Option.map FieldValue.number) (congrArg (Option.map format.value) hread)
    | _ => cases h

theorem readString_padded (t : PaddedText size) :
    readString (.ofBytes t.bytes) 0 size = some t.string := by
  have hfit : (DataView.ofBytes t.bytes).byteOffset + 0 + size ≤
      (DataView.ofBytes t.bytes).buffer.length := by
    change 0 + 0 + size ≤ t.bytes.length
    rw [t.length_bytes]
    omega
  have htake : (t.bytes.drop 0).take size = t.bytes := by
    rw [List.drop_zero, List.take_of_length_le t.length_bytes.le]
  rw [readString, if_pos hfit]
  change some (String.ofList ((((t.bytes.drop 0).take size).takeWhile _).map latin1)) = _
  rw [htake, t.takeWhile_bytes]
  rfl

theorem codes_text (size : ℕ) : Codes (.string size) (.text size) where
  size := rfl
  length_wire {logged} h := by
    cases logged with
    | text value =>
      obtain rfl := h
      exact value.length_bytes
    | _ => cases h
  read {logged} h := by
    cases logged with
    | text value =>
      obtain rfl := h
      exact congrArg (Option.map FieldValue.text) (readString_padded value)
    | _ => cases h

theorem mapM_range {α : Type} (f : ℕ → Option α) (values : List α) (start : ℕ)
    (h : ∀ i (hi : i < values.length), f (start + i) = some (values.get ⟨i, hi⟩)) :
    (List.range' start values.length).mapM f = some values := by
  induction values generalizing start with
  | nil => rfl
  | cons value values ih =>
    have hhead := h 0 (Nat.succ_pos _)
    have htail := ih (start + 1) fun i hi => by
      have hi' := h (i + 1) (Nat.succ_lt_succ hi)
      rwa [show start + (i + 1) = start + 1 + i by omega] at hi'
    rw [List.length_cons, List.range'_succ, List.mapM_cons, htail]
    rw [Nat.add_zero] at hhead
    rw [hhead]
    rfl

theorem drop_flatMap {values : List ℤ} {i : ℕ} (hi : i < values.length) :
    (values.flatMap (integerBytes 2)).drop (i * 2) =
      integerBytes 2 (values.get ⟨i, hi⟩) ++ (values.drop (i + 1)).flatMap (integerBytes 2) := by
  induction values generalizing i with
  | nil => exact absurd hi (Nat.not_lt_zero _)
  | cons value values ih =>
    cases i with
    | zero => rfl
    | succ i =>
      have hlength := length_integerBytes 2 value
      rw [List.flatMap_cons, show (i + 1) * 2 = 2 + i * 2 by omega, ← List.drop_drop,
        List.drop_left' hlength]
      exact ih (Nat.lt_of_succ_lt_succ hi)

theorem length_batch (values : List ℤ) :
    (values.flatMap (integerBytes 2)).length = values.length * 2 := by
  induction values with
  | nil => rfl
  | cons value values ih =>
    rw [List.flatMap_cons, List.length_append, ih, length_integerBytes, List.length_cons]
    omega

theorem codes_batch : Codes .batch .batch where
  size := rfl
  length_wire {logged} h := by
    cases logged with
    | batch values =>
      have hlength := length_batch values
      rw [h.1] at hlength
      exact hlength
    | _ => cases h
  read {logged} h := by
    cases logged with
    | batch values =>
      have hread : (List.range' 0 values.length).mapM (fun i =>
          (DataView.ofBytes (values.flatMap (integerBytes 2))).getInt (0 + i * 2) 2) =
            some values := by
        refine mapM_range _ values 0 fun i hi => ?_
        have hdrop := drop_flatMap hi
        have hle : i * 2 ≤ (DataView.ofBytes (values.flatMap (integerBytes 2))).byteLength := by
          rw [byteLength_ofBytes, length_batch]
          omega
        have hagrees := agrees_of_drop hle (by rw [bytes_ofBytes]; exact hdrop)
        rw [length_integerBytes] at hagrees
        obtain ⟨n, hleft, hright⟩ := hagrees.getInt
        rw [getInt_signed Nat.two_pos (h.2 _ (List.get_mem _ _))] at hright
        rw [Nat.zero_add, Nat.zero_add, hleft, hright]
      rw [h.1, ← List.range_eq_range'] at hread
      exact congrArg (Option.map fun values => FieldValue.numbers (values.map JsNumber.ofInt)) hread
    | _ => cases h

theorem codes_hundredth (h : Codes code (.integer size signed none)) :
    Codes (code.scaled (1 / 100)) (.integer size signed (some 100)) := by
  have hscaled := h.scaled 100
  rwa [Nat.cast_ofNat] at hscaled

theorem codes_tenMillionth (h : Codes code (.integer size signed none)) :
    Codes (code.scaled (1 / 10000000)) (.integer size signed (some 10000000)) := by
  have hscaled := h.scaled 10000000
  rwa [Nat.cast_ofNat] at hscaled

variable {ch : Char}

theorem codes_of_kind {kind : FieldKind} (h : kindOf ch = some kind) :
    ∃ code, TYPE_CODES ch = some code ∧ Codes code kind := by
  unfold kindOf at h
  split at h <;> first
    | (cases h
       refine ⟨_, rfl, ?_⟩
       first
         | exact codes_signed (by decide)
         | exact codes_unsigned _
         | exact codes_float _ _
         | exact codes_text _
         | exact codes_hundredth (codes_signed (by decide))
         | exact codes_hundredth (codes_unsigned _)
         | exact codes_tenMillionth (codes_signed (by decide))
         | exact codes_batch)
    | cases h

/-! ## The fields of a message -/

abbrev Fields (kinds : List FieldKind) (fields : List Logged) : Prop :=
  List.Forall₂ FieldKind.Holds kinds fields

def fieldBytes (kinds : List FieldKind) (fields : List Logged) : Bytes :=
  (List.zipWith FieldKind.wire kinds fields).flatten

/-- The columns from the `i`-th on, with the values that were logged in them. -/
def columnValues (columns : List String) :
    ℕ → List FieldKind → List Logged → List (String × FieldValue)
  | i, kind :: kinds, logged :: fields =>
    (columns.getD i ("f" ++ toString i), kind.value logged) ::
      columnValues columns (i + 1) kinds fields
  | _, _, _ => []

def setColumns (message : DataflashMessage) (values : List (String × FieldValue)) :
    DataflashMessage :=
  values.foldl (fun message entry => setColumn message entry.1 entry.2) message

variable {chars : List Char} {kinds : List FieldKind}

theorem kinds_cons (h : (ch :: chars).mapM kindOf = some kinds) :
    ∃ kind rest, kindOf ch = some kind ∧
      chars.mapM kindOf = some rest ∧ kinds = kind :: rest := by
  rw [List.mapM_cons] at h
  obtain ⟨kind, hkind, h⟩ := Option.bind_eq_some_iff.mp h
  obtain ⟨rest, hrest, h⟩ := Option.bind_eq_some_iff.mp h
  exact ⟨kind, rest, hkind, hrest, (Option.some.inj h).symm⟩

theorem sizes_of_kinds (h : chars.mapM kindOf = some kinds) :
    sizes chars = some (kinds.map FieldKind.size) := by
  induction chars generalizing kinds with
  | nil =>
    cases h
    rfl
  | cons ch chars ih =>
    obtain ⟨kind, rest, hkind, hrest, rfl⟩ := kinds_cons h
    obtain ⟨code, hcode, hcodes⟩ := codes_of_kind hkind
    have hsizes := ih hrest
    rw [sizes] at hsizes ⊢
    rw [List.mapM_cons, hcode, hsizes, Option.map_some, hcodes.size]
    rfl

variable {fields : List Logged}

theorem length_fieldBytes (hkinds : chars.mapM kindOf = some kinds) (h : Fields kinds fields) :
    (fieldBytes kinds fields).length = (kinds.map FieldKind.size).sum := by
  induction chars generalizing kinds fields with
  | nil =>
    cases hkinds
    cases h
    rfl
  | cons ch chars ih =>
    obtain ⟨kind, rest, hkind, hrest, rfl⟩ := kinds_cons hkinds
    obtain ⟨code, hcode, hcodes⟩ := codes_of_kind hkind
    cases h with
    | @cons _ logged _ fields hlogged hfields =>
      have hbytes : fieldBytes (kind :: rest) (logged :: fields) =
          kind.wire logged ++ fieldBytes rest fields := rfl
      rw [hbytes, List.length_append, hcodes.length_wire hlogged, ih hrest hfields, List.map_cons,
        List.sum_cons]

theorem decodeFields_logged {columns : List String} {i o : ℕ} {message : DataflashMessage}
    (hkinds : chars.mapM kindOf = some kinds) (hfields : Fields kinds fields)
    (ho : o ≤ view.byteLength) (hbytes : view.bytes.drop o = fieldBytes kinds fields ++ rest) :
    decodeFields view columns chars i o message =
      some (setColumns message (columnValues columns i kinds fields)) := by
  induction chars generalizing kinds fields i o message with
  | nil =>
    cases hkinds
    cases hfields
    rfl
  | cons ch chars ih =>
    obtain ⟨kind, kinds, hkind, hrest, rfl⟩ := kinds_cons hkinds
    obtain ⟨code, hcode, hcodes⟩ := codes_of_kind hkind
    cases hfields with
    | @cons _ logged _ fields hlogged hfields =>
      have hlength := hcodes.length_wire hlogged
      have hsplit : view.bytes.drop o =
          kind.wire logged ++ (fieldBytes kinds fields ++ rest) := by
        rw [hbytes, ← List.append_assoc]
        rfl
      have hagrees := agrees_of_drop ho hsplit
      rw [hlength, ← hcodes.size] at hagrees
      obtain ⟨value, hview, hwire⟩ := (typeCodes_local hcode).reads hagrees
      rw [hcodes.read hlogged] at hwire
      cases hwire
      have hnext : view.bytes.drop (o + code.size) = fieldBytes kinds fields ++ rest := by
        rw [← List.drop_drop, hsplit, hcodes.size, List.drop_left' hlength]
      rw [decodeFields_cons hcode, hview, Option.bind_some]
      exact ih hrest hfields hagrees.left hnext

end ArduConfigurator.DataFlash
