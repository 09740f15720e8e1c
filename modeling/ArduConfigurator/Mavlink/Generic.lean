import ArduConfigurator.Lib.Layout
import ArduConfigurator.Lib.Padding
import ArduConfigurator.Lib.Utf8
import ArduConfigurator.Mavlink.Messages

/-! # Generic MAVLink messages

`mavlink-generic.ts`: messages laid out by a table generated from ArduPilot's dialect. The table is a
parameter with what the generator guarantees of it, so everything here holds of any such table. -/
namespace ArduConfigurator.Mavlink
set_option autoImplicit false

/-! ## Field types -/

inductive GenericFieldType
  | double | float
  | uint64_t | int64_t | uint32_t | int32_t | uint16_t | int16_t | uint8_t | int8_t
  | char
  deriving DecidableEq

def TYPE_BY_CODE : Char → Option GenericFieldType
  | 'd' => some .double
  | 'f' => some .float
  | 'Q' => some .uint64_t
  | 'q' => some .int64_t
  | 'I' => some .uint32_t
  | 'i' => some .int32_t
  | 'H' => some .uint16_t
  | 'h' => some .int16_t
  | 'B' => some .uint8_t
  | 'b' => some .int8_t
  | 'c' => some .char
  | _ => none

namespace GenericFieldType

def size : GenericFieldType → ℕ
  | double | uint64_t | int64_t => 8
  | float | uint32_t | int32_t => 4
  | uint16_t | int16_t => 2
  | uint8_t | int8_t | char => 1

def signed : GenericFieldType → Bool
  | int64_t | int32_t | int16_t | int8_t => true
  | _ => false

end GenericFieldType

/-! ## Layouts -/

structure MavlinkGenericRow where
  id : ℕ
  name : String
  crcExtra : UInt8
  spec : String

structure GenericMessageField where
  name : String
  type : GenericFieldType
  arrayLength : ℕ
  extension : Bool
  offset : ℕ
  deriving DecidableEq

structure GenericMessageDef where
  id : ℕ
  name : String
  crcExtra : UInt8
  fields : List GenericMessageField
  length : ℕ
  deriving DecidableEq

def GenericMessageField.width (field : GenericMessageField) : ℕ :=
  field.type.size * max 1 field.arrayLength

/-- `Number(digits || 0)` for a string of decimal digits. -/
def arrayLengthOf (digits : List Char) : Option ℕ :=
  if digits.all Char.isDigit then
    some (digits.foldl (fun n digit => n * 10 + (digit.toNat - 48)) 0)
  else none

/-- One `name:<code><array length?>` entry of a row, at `offset`. An entry without a separator or
with an unknown code has no layout. -/
def parseEntry (entry : List Char) (extension : Bool) (offset : ℕ) : Option GenericMessageField :=
  match entry.dropWhile (· ≠ ':') with
  | _ :: code :: digits => do
      let type ← TYPE_BY_CODE code
      let arrayLength ← arrayLengthOf digits
      some ⟨String.ofList (entry.takeWhile (· ≠ ':')), type, arrayLength, extension, offset⟩
  | _ => none

/-- The entries in turn, each behind the one before it, and the offset behind the last. -/
def parseEntries : List (List Char × Bool) → ℕ → Option (List GenericMessageField × ℕ)
  | [], offset => some ([], offset)
  | (entry, extension) :: entries, offset => do
      let field ← parseEntry entry extension offset
      let (fields, length) ← parseEntries entries (offset + field.width)
      some (field :: fields, length)

/-- `part ? part.split(',') : []`. -/
def splitPart (part : List Char) (extension : Bool) : List (List Char × Bool) :=
  if part = [] then [] else (part.splitOn ',').map (·, extension)

/-- The definition `definitionFor` parses from a row. -/
def MavlinkGenericRow.definition (row : MavlinkGenericRow) : Option GenericMessageDef := do
  let parts := row.spec.toList.splitOn '|'
  let entries := splitPart (parts.getD 0 []) false ++ splitPart (parts.getD 1 []) true
  let (fields, length) ← parseEntries entries 0
  some ⟨row.id, row.name, row.crcExtra, fields, length⟩

/-- What the generator of the table guarantees of the layout of a message. -/
structure GenericMessageDef.WellFormed (d : GenericMessageDef) : Prop where
  id_lt : d.id < 2 ^ 24
  length_pos : 0 < d.length
  length_le : d.length ≤ 255
  names : (d.fields.map GenericMessageField.name).Nodup

/-- `MAVLINK_GENERIC_ROWS`. -/
structure Dialect where
  rows : List MavlinkGenericRow
  ids : (rows.map MavlinkGenericRow.id).Nodup
  names : (rows.map MavlinkGenericRow.name).Nodup
  parses : ∀ row ∈ rows, ∃ d, row.definition = some d ∧ d.WellFormed

namespace Dialect

def excerpt : Dialect where
  rows :=
    [⟨4, "PING", 237, "time_usec:Q,seq:I,target_system:B,target_component:B"⟩,
      ⟨7, "AUTH_KEY", 119, "key:c32"⟩,
      ⟨121, "LOG_ERASE", 237, "target_system:B,target_component:B"⟩]
  ids := by decide
  names := by decide
  parses := by
    intro row hrow
    obtain rfl | rfl | rfl : row = _ ∨ row = _ ∨ row = _ := by simpa using hrow
    · exact ⟨⟨4, "PING", 237,
        [⟨"time_usec", .uint64_t, 0, false, 0⟩, ⟨"seq", .uint32_t, 0, false, 8⟩,
          ⟨"target_system", .uint8_t, 0, false, 12⟩, ⟨"target_component", .uint8_t, 0, false, 13⟩],
        14⟩, by decide, by decide, by decide, by decide, by decide⟩
    · exact ⟨⟨7, "AUTH_KEY", 119, [⟨"key", .char, 32, false, 0⟩], 32⟩, by decide, by decide,
        by decide, by decide, by decide⟩
    · exact ⟨⟨121, "LOG_ERASE", 237, [⟨"target_system", .uint8_t, 0, false, 0⟩,
        ⟨"target_component", .uint8_t, 0, false, 1⟩], 2⟩, by decide, by decide, by decide,
        by decide, by decide⟩

variable (D : Dialect)

/-- `MAVLINK_GENERIC_ID_BY_NAME`. -/
def MAVLINK_GENERIC_ID_BY_NAME (name : String) : Option ℕ :=
  (D.rows.find? fun row => row.name = name).map MavlinkGenericRow.id

def definitionFor (messageId : ℕ) : Option GenericMessageDef :=
  (D.rows.find? fun row => row.id = messageId).bind MavlinkGenericRow.definition

def mavlinkGenericCrcExtra (messageId : ℕ) : Option UInt8 :=
  (D.definitionFor messageId).map GenericMessageDef.crcExtra

end Dialect

/-! ## Scalars -/

/-- `Number` of a 64-bit integer: the nearest double, ties to the even one. -/
def numberOfNat (n : ℕ) : ℕ :=
  if n < 2 ^ 53 then n
  else
    let unit := 2 ^ (n.log2 - 52)
    let q := n / unit
    let r := n % unit
    if 2 * r < unit ∨ (2 * r = unit ∧ q % 2 = 0) then q * unit else (q + 1) * unit

def numberOfInt (z : ℤ) : ℤ :=
  if 0 ≤ z then numberOfNat z.toNat else -(numberOfNat (-z).toNat : ℤ)

/-- The integer in `w` bytes, read with or without a sign. -/
def integerOf (signed : Bool) (w n : ℕ) : ℤ :=
  if signed ∧ 256 ^ w ≤ 2 * n then (n : ℤ) - (256 ^ w : ℕ) else n

def readScalar (view : Bytes) (type : GenericFieldType) (offset : ℕ) :
    Except Thrown GenericNumber :=
  match readLE view offset type.size with
  | none => .error .rangeError
  | some n =>
      .ok <| match type with
        | .double => .double (UInt64.ofNat n)
        | .float => .float (UInt32.ofNat n)
        | .uint64_t | .int64_t => .integer (numberOfInt (integerOf type.signed 8 n))
        | _ => .integer (integerOf type.signed type.size n)

/-- The bytes of a scalar; nothing where the number is not of the kind of the field, which this
model leaves open. -/
def writeScalar (type : GenericFieldType) (value : GenericNumber) : Option Bytes :=
  match type, value with
  | .double, .double bits => some (leBytes 8 bits.toNat)
  | .float, .float bits => some (leBytes 4 bits.toNat)
  | .double, _ | .float, _ => none
  | _, .integer value => some (leBytes type.size (value % (256 ^ type.size : ℕ)).toNat)
  | _, _ => none

def writeScalars (type : GenericFieldType) : List GenericNumber → Option Bytes
  | [] => some []
  | value :: values => do
      let head ← writeScalar type value
      let tail ← writeScalars type values
      some (head ++ tail)

def readScalars (view : Bytes) (type : GenericFieldType) (offset : ℕ) :
    ℕ → Except Thrown (List GenericNumber)
  | 0 => .ok []
  | n + 1 => do
      let head ← readScalar view type offset
      let tail ← readScalars view type (offset + type.size) n
      .ok (head :: tail)

/-! ## Decoding -/

def decodeFixedString (bytes : Bytes) : String := textDecode (bytes.takeWhile (· ≠ 0))

def decodeField (bytes : Bytes) (field : GenericMessageField) :
    Except Thrown (String × GenericValue) :=
  if field.type = .char ∧ 0 < field.arrayLength then
    .ok (field.name, .text (decodeFixedString (slice bytes field.offset field.arrayLength)))
  else if 0 < field.arrayLength then do
    let values ← readScalars bytes field.type field.offset field.arrayLength
    .ok (field.name, .numbers values)
  else do
    let value ← readScalar bytes field.type field.offset
    .ok (field.name, .number value)

def decodeFields (bytes : Bytes) :
    List GenericMessageField → Except Thrown (List (String × GenericValue))
  | [] => .ok []
  | field :: fields => do
      let head ← decodeField bytes field
      let tail ← decodeFields bytes fields
      .ok (head :: tail)

def decodeGenericPayload (D : Dialect) (messageId : ℕ) (payload : Bytes) :
    Except Thrown (Option GenericMavlinkMessage) :=
  match D.definitionFor messageId with
  | none => .ok none
  | some d => do
      let bytes := zeroPad d.length (payload.take d.length)
      let fields ← decodeFields bytes d.fields
      .ok (some ⟨d.name, d.id, fields⟩)

/-! ## Encoding -/

def encodeField (field : GenericMessageField) : GenericValue → Option Bytes
  | .text value => some ((textEncode value).take (max 1 field.arrayLength))
  | .number value => writeScalar field.type value
  | .numbers values => writeScalars field.type (values.take field.arrayLength)

def fieldWrites (fields : List (String × GenericValue)) :
    List GenericMessageField → Option (List Write)
  | [] => some []
  | field :: rest => do
      let tail ← fieldWrites fields rest
      match fields.lookup field.name with
      | none => some tail
      | some value => do
          let bytes ← encodeField field value
          some (⟨field.offset, bytes⟩ :: tail)

def unmodelledNumber : Thrown := .error "a number of another kind than its field"

def encodeGenericPayload (D : Dialect) (name : String) (fields : List (String × GenericValue)) :
    Except Thrown Bytes :=
  match (D.MAVLINK_GENERIC_ID_BY_NAME name).bind D.definitionFor with
  | none => .error (.error s!"Unknown MAVLink message {name}.")
  | some d =>
      match fieldWrites fields d.fields with
      | none => .error unmodelledNumber
      | some writes => (build d.length writes).map trimZeros

end ArduConfigurator.Mavlink
