import ArduConfigurator.Lib.BinaryFloat
import ArduConfigurator.Lib.Entries
import ArduConfigurator.Lib.LittleEndian

/-! # The DataFlash log parser

`parseDataflashLog` of `dataflash-parser.ts`. A turn of its loop takes one byte or one frame; `frames`
only records the frames that were taken. -/
namespace ArduConfigurator.DataFlash
set_option autoImplicit false

def HEAD_BYTE1 : ℕ := 0xa3
def HEAD_BYTE2 : ℕ := 0x95
def FMT_TYPE : ℕ := 0x80
def FMT_BODY_LENGTH : ℕ := 1 + 1 + 4 + 16 + 64
def FMT_MESSAGE_LENGTH : ℕ := 3 + FMT_BODY_LENGTH

/-! ## Views -/

/-- A `DataView` or a `Uint8Array`: a window of a buffer. -/
structure DataView where
  buffer : Bytes
  byteOffset : ℕ
  byteLength : ℕ
  within : byteOffset + byteLength ≤ buffer.length

namespace DataView

def ofBytes (bytes : Bytes) : DataView := ⟨bytes, 0, bytes.length, (Nat.zero_add _).le⟩

def bytes (view : DataView) : Bytes := (view.buffer.drop view.byteOffset).take view.byteLength

@[simp] theorem bytes_length (view : DataView) : view.bytes.length = view.byteLength := by
  have h := view.within
  rw [bytes, List.length_take, List.length_drop]
  omega

def getBytes (view : DataView) (offset size : ℕ) : Option Bytes :=
  if offset + size ≤ view.byteLength then some ((view.bytes.drop offset).take size) else none

def getUint (view : DataView) (offset size : ℕ) : Option ℕ := (view.getBytes offset size).map ofLE

def getInt (view : DataView) (offset size : ℕ) : Option ℤ :=
  (view.getUint offset size).map fun n : ℕ =>
    if n < 2 ^ (8 * size - 1) then (n : ℤ) else (n : ℤ) - 2 ^ (8 * size)

def getFloat (view : DataView) (format : FloatFormat) (offset size : ℕ) : Option JsNumber :=
  (view.getUint offset size).map format.value

end DataView

/-- What the label `latin1` of a TextDecoder stands for, windows-1252. -/
def latin1 (byte : UInt8) : Char :=
  let high := [0x20ac, 0x81, 0x201a, 0x192, 0x201e, 0x2026, 0x2020, 0x2021, 0x2c6, 0x2030, 0x160,
    0x2039, 0x152, 0x8d, 0x17d, 0x8f, 0x90, 0x2018, 0x2019, 0x201c, 0x201d, 0x2022, 0x2013, 0x2014,
    0x2dc, 0x2122, 0x161, 0x203a, 0x153, 0x9d, 0x17e, 0x178]
  Char.ofNat (if 0x80 ≤ byte.toNat then high.getD (byte.toNat - 0x80) byte.toNat else byte.toNat)

/-- The text up to the first NUL. The array is one of the whole buffer: it throws a RangeError outside
the buffer only, not outside the view. -/
def readString (view : DataView) (offset length : ℕ) : Option String :=
  if view.byteOffset + offset + length ≤ view.buffer.length then
    let bytes := (view.buffer.drop (view.byteOffset + offset)).take length
    some (String.ofList ((bytes.takeWhile (· ≠ 0)).map latin1))
  else none

/-! ## Fields -/

inductive FieldValue
  | number (value : JsNumber)
  | text (value : String)
  | numbers (values : List JsNumber)

structure TypeCode where
  size : ℕ
  read : DataView → ℕ → Option FieldValue

namespace TypeCode

def signed (size : ℕ) : TypeCode where
  size := size
  read view offset := (view.getInt offset size).map fun i => .number (JsNumber.ofInt i)

def unsigned (size : ℕ) : TypeCode where
  size := size
  read view offset := (view.getUint offset size).map fun n : ℕ => .number (JsNumber.ofInt n)

/-- An integer that the log holds scaled up; `scale` is the double nearest to the given fraction. -/
def scaled (code : TypeCode) (scale : ℚ≥0) : TypeCode where
  size := code.size
  read view offset := (code.read view offset).map fun
    | .number value => .number (value.mul (binary64.value (binary64.pattern (.finite false scale))))
    | value => value

def float (format : FloatFormat) (size : ℕ) : TypeCode where
  size := size
  read view offset := (view.getFloat format offset size).map .number

def string (size : ℕ) : TypeCode where
  size := size
  read view offset := (readString view offset size).map .text

def batch : TypeCode where
  size := 64
  read view offset :=
    ((List.range 32).mapM fun i => view.getInt (offset + i * 2) 2).map fun values =>
      .numbers (values.map JsNumber.ofInt)

end TypeCode

def TYPE_CODES (ch : Char) : Option TypeCode :=
  match ch with
  | 'b' => some (.signed 1)
  | 'B' => some (.unsigned 1)
  | 'h' => some (.signed 2)
  | 'H' => some (.unsigned 2)
  | 'i' => some (.signed 4)
  | 'I' => some (.unsigned 4)
  | 'f' => some (.float binary32 4)
  | 'd' => some (.float binary64 8)
  | 'n' => some (.string 4)
  | 'N' => some (.string 16)
  | 'Z' => some (.string 64)
  | 'c' => some ((TypeCode.signed 2).scaled (1 / 100))
  | 'C' => some ((TypeCode.unsigned 2).scaled (1 / 100))
  | 'e' => some ((TypeCode.signed 4).scaled (1 / 100))
  | 'E' => some ((TypeCode.unsigned 4).scaled (1 / 100))
  | 'L' => some ((TypeCode.signed 4).scaled (1 / 10000000))
  | 'M' => some (.signed 1)
  | 'q' => some (.signed 8)
  | 'Q' => some (.unsigned 8)
  | 'a' => some .batch
  | _ => none

/-! ## Schemas and messages -/

structure DataflashFormat where
  type : ℕ
  length : ℕ
  name : String
  format : String
  columns : List String

abbrev DataflashMessage := Entries String FieldValue

/-- The bytes of the fields, or `none` where the source has NaN. -/
def bodyLength (format : String) : Option ℕ :=
  (format.toList.mapM fun ch => (TYPE_CODES ch).map TypeCode.size).map List.sum

/-- `record[column] = value`: no own property comes of the accessor `__proto__`. -/
def setColumn (message : DataflashMessage) (column : String) (value : FieldValue) :
    DataflashMessage :=
  if column = "__proto__" then message else message.set column value

/-- The fields of the type codes from column `i` on. -/
def decodeFields (view : DataView) (columns : List String) :
    List Char → ℕ → ℕ → DataflashMessage → Option DataflashMessage
  | [], _, _, message => some message
  | ch :: rest, i, offset, message =>
    match TYPE_CODES ch with
    | none => some message
    | some code => do
      let value ← code.read view offset
      let column := columns.getD i ("f" ++ toString i)
      decodeFields view columns rest (i + 1) (offset + code.size) (setColumn message column value)

def decodeBody (format : DataflashFormat) (view : DataView) (bodyOffset : ℕ) :
    Option DataflashMessage :=
  decodeFields view format.columns format.format.toList 0 bodyOffset [("name", .text format.name)]

/-- How a value counts as a key of a Map: an array by its identity, which the number of the message it
belongs to stands for, and the two zeros as one. -/
inductive MapKey
  | text (value : String)
  | number (value : JsNumber)
  | object (message : ℕ)
  deriving DecidableEq

def MapKey.of (value : FieldValue) (message : ℕ) : MapKey :=
  match value with
  | .text value => .text value
  | .number (.finite true 0) => .number (.finite false 0)
  | .number value => .number value
  | .numbers _ => .object message

/-! ## The loop -/

/-- A frame that was taken, with the message read of it; a FMT record has no `format` of its own. -/
structure Frame where
  start : ℕ
  length : ℕ
  format : Option DataflashFormat
  message : DataflashMessage

structure ParserState where
  pos : ℕ
  formats : JsMap ℕ DataflashFormat
  formatsByName : JsMap String DataflashFormat
  messagesByType : JsMap MapKey (List DataflashMessage)
  counts : JsMap MapKey ℕ
  skippedBytes : ℕ
  frames : List Frame

namespace ParserState

def initial : ParserState where
  pos := 0
  formats := JsMap.empty
  formatsByName := JsMap.empty
  messagesByType := JsMap.empty
  counts := JsMap.empty
  skippedBytes := 0
  frames := []

def skip (s : ParserState) : ParserState :=
  { s with skippedBytes := s.skippedBytes + 1, pos := s.pos + 1 }

def recordMessage (s : ParserState) (message : DataflashMessage) : ParserState :=
  let key := MapKey.of ((message.get "name").getD (.text "")) s.frames.length
  { s with
    messagesByType :=
      s.messagesByType.set key ((s.messagesByType.get key).getD [] ++ [message])
    counts := s.counts.set key ((s.counts.get key).getD 0 + 1) }

def takeFrame (s : ParserState) (length : ℕ) (format : Option DataflashFormat)
    (message : DataflashMessage) : ParserState :=
  { s.recordMessage message with
    pos := s.pos + length
    frames := s.frames ++ [⟨s.pos, length, format, message⟩] }

def defineFormat (s : ParserState) (format : DataflashFormat) : ParserState :=
  { s with
    formats := s.formats.set format.type format
    formatsByName := s.formatsByName.set format.name format }

/-- The schema by which a message of this type is taken, if there is one and it is not malformed. -/
def schema (s : ParserState) (type : ℕ) : Option DataflashFormat :=
  (s.formats.get type).filter fun format => (bodyLength format.format).isSome && 3 ≤ format.length

end ParserState

def readFormat (view : DataView) (bodyOffset : ℕ) : Option (DataflashFormat × DataflashMessage) := do
  let type ← view.getUint bodyOffset 1
  let length ← view.getUint (bodyOffset + 1) 1
  let name ← readString view (bodyOffset + 2) 4
  let format ← readString view (bodyOffset + 6) 16
  let columnsRaw ← readString view (bodyOffset + 22) 64
  let columns :=
    if columnsRaw.toList = [] then [] else (columnsRaw.toList.splitOn ',').map String.ofList
  some (⟨type, length, name, format, columns⟩,
    [("name", .text "FMT"), ("Type", .number (JsNumber.ofInt type)),
      ("Length", .number (JsNumber.ofInt length)), ("Name", .text name), ("Format", .text format),
      ("Columns", .text columnsRaw)])

inductive Turn
  | next (s : ParserState)
  | stop
  | rangeError

def byteAt (view : DataView) (i : ℕ) : ℕ := (view.bytes.getD i 0).toNat

def formatTurn (view : DataView) (s : ParserState) : Turn :=
  if view.byteLength < s.pos + FMT_MESSAGE_LENGTH then .stop
  else
    match readFormat view (s.pos + 3) with
    | none => .rangeError
    | some (format, message) =>
      .next ((s.defineFormat format).takeFrame FMT_MESSAGE_LENGTH none message)

def messageTurn (view : DataView) (s : ParserState) (format : DataflashFormat) : Turn :=
  if view.byteLength < s.pos + format.length then .stop
  else
    match decodeBody format view (s.pos + 3) with
    | none => .rangeError
    | some message => .next (s.takeFrame format.length (some format) message)

def turn (view : DataView) (s : ParserState) : Turn :=
  if view.byteLength < s.pos + 3 then .stop
  else if byteAt view s.pos ≠ HEAD_BYTE1 ∨ byteAt view (s.pos + 1) ≠ HEAD_BYTE2 then .next s.skip
  else if byteAt view (s.pos + 2) = FMT_TYPE then formatTurn view s
  else
    match s.schema (byteAt view (s.pos + 2)) with
    | none => .next s.skip
    | some format => messageTurn view s format

/-- How the loop ends: it returns, throws, or has not ended after its turns. -/
inductive Outcome
  | returned (s : ParserState)
  | thrown
  | unfinished (s : ParserState)

@[grind =] def loop (view : DataView) : ℕ → ParserState → Outcome
  | 0, s => .unfinished s
  | turns + 1, s =>
    match turn view s with
    | .stop => .returned s
    | .rangeError => .thrown
    | .next t => loop view turns t

/-- Every turn but the last takes a byte, so there are at most `byteLength + 1`. -/
def parseDataflashLog (view : DataView) : Outcome :=
  loop view (view.byteLength + 1) ParserState.initial

end ArduConfigurator.DataFlash
