import ArduConfigurator.Lib.Strings

/-! # The Intel HEX parser of the firmware flasher

A text is a sequence of UTF-16 code units. The parser reads its lines one after the other,
collects what the data records write, and joins the writes into segments at the end. -/
namespace ArduConfigurator.FirmwareFlash
set_option autoImplicit false

structure IntelHexSegment where
  address : ℕ
  data : List ℕ
  deriving DecidableEq

def IntelHexSegment.endAddress (s : IntelHexSegment) : ℕ := s.address + s.data.length

def IntelHexSegment.byteAt (s : IntelHexSegment) (x : ℕ) : Option ℕ :=
  if s.address ≤ x then s.data[x - s.address]? else none

structure ParsedIntelHex where
  segments : List IntelHexSegment
  minAddress : ℕ
  endAddress : ℕ
  totalBytes : ℕ
  deriving DecidableEq

def RECORD_DATA : ℕ := 0x00
def RECORD_EOF : ℕ := 0x01
def RECORD_EXT_SEGMENT : ℕ := 0x02
def RECORD_EXT_LINEAR : ℕ := 0x04
def RECORD_START_SEGMENT : ℕ := 0x03
def RECORD_START_LINEAR : ℕ := 0x05

/-! ## Strings of the language -/

def COLON : UInt16 := 0x3A

def hexDigit (c : UInt16) : Option ℕ :=
  if 0x30 ≤ c ∧ c ≤ 0x39 then some (c.toNat - 0x30)
  else if 0x41 ≤ c ∧ c ≤ 0x46 then some (c.toNat - 0x41 + 10)
  else if 0x61 ≤ c ∧ c ≤ 0x66 then some (c.toNat - 0x61 + 10)
  else none

/-- The number that the digits at the head of a text write, none when there is no digit. -/
def leadingHex (text : List UInt16) : Option ℕ :=
  match text.takeWhile (fun c => (hexDigit c).isSome) with
  | [] => none
  | digits => some (digits.foldl (fun value c => value * 16 + (hexDigit c).getD 0) 0)

/-- `0x` or `0X` at the head of a text is passed over. -/
def stripHexPrefix : List UInt16 → List UInt16
  | 0x30 :: 0x78 :: rest => rest
  | 0x30 :: 0x58 :: rest => rest
  | text => text

/-- `Number.parseInt(text, 16)`, none for NaN. -/
def parseIntHex (text : List UInt16) : Option ℤ :=
  match text.dropWhile isWhiteSpace with
  | 0x2D :: rest => (leadingHex (stripHexPrefix rest)).map fun value : ℕ => -(value : ℤ)
  | 0x2B :: rest => (leadingHex (stripHexPrefix rest)).map fun value : ℕ => (value : ℤ)
  | rest => (leadingHex (stripHexPrefix rest)).map fun value : ℕ => (value : ℤ)

def pairByte (high low : UInt16) : Option ℕ :=
  (parseIntHex [high, low]).map fun value => (value % 256).toNat

def toHex (n : ℕ) : String := String.ofList (Nat.toDigits 16 n)

/-! ## Reading the records -/

/-- `where`, the line that an error names. -/
def lineName (lineIndex : ℕ) : String := "line " ++ toString (lineIndex + 1)

def invalidAt (place message : String) : String :=
  "Invalid Intel HEX (" ++ place ++ "): " ++ message

def readPairs (pair : UInt16 → UInt16 → Option ℕ) : List UInt16 → Option (List ℕ)
  | high :: low :: rest =>
    match pair high low, readPairs pair rest with
    | some byte, some bytes => some (byte :: bytes)
    | _, _ => none
  | _ => some []

def hexToBytes (hex : List UInt16) (place : String) : Except String (List ℕ) :=
  match readPairs pairByte hex with
  | some bytes => .ok bytes
  | none => .error (invalidAt place "non-hex characters in record")

structure HexState where
  upperBase : ℕ
  sawEof : Bool
  writes : List IntelHexSegment

def HexState.initial : HexState := ⟨0, false, []⟩

def applyRecord (place : String) (s : HexState) (recordType offset byteCount : ℕ)
    (data : List ℕ) : Except String HexState :=
  if recordType = RECORD_DATA then
    .ok { s with writes := s.writes ++ [⟨(s.upperBase + offset) % 2 ^ 32, data⟩] }
  else if recordType = RECORD_EOF then
    if byteCount ≠ 0 then .error (invalidAt place "end-of-file record carries data")
    else .ok { s with sawEof := true }
  else if recordType = RECORD_EXT_LINEAR then
    if byteCount ≠ 2 then
      .error (invalidAt place "extended linear address record must be 2 bytes")
    else .ok { s with upperBase := (data.getD 0 0 * 256 + data.getD 1 0) * 0x10000 }
  else if recordType = RECORD_EXT_SEGMENT then
    if byteCount ≠ 2 then
      .error (invalidAt place "extended segment address record must be 2 bytes")
    else .ok { s with upperBase := (data.getD 0 0 * 256 + data.getD 1 0) * 0x10 }
  else if recordType = RECORD_START_SEGMENT ∨ recordType = RECORD_START_LINEAR then .ok s
  else .error (invalidAt place ("unsupported record type 0x" ++ toHex recordType))

def readBytes (place : String) (s : HexState) (bytes : List ℕ) : Except String HexState :=
  let byteCount := bytes.getD 0 0
  if bytes.length ≠ byteCount + 5 then
    .error (invalidAt place
      ("byte count " ++ toString byteCount ++ " does not match record length"))
  else if bytes.foldl (fun acc value => (acc + value) % 256) 0 ≠ 0 then
    .error (invalidAt place "checksum mismatch")
  else if s.sawEof then .error (invalidAt place "record found after end-of-file")
  else
    applyRecord place s (bytes.getD 3 0) (bytes.getD 1 0 * 256 + bytes.getD 2 0) byteCount
      ((bytes.drop 4).take byteCount)

def readLine (lineIndex : ℕ) (s : HexState) (line : List UInt16) : Except String HexState :=
  let place := lineName lineIndex
  match trim line with
  | [] => .ok s
  | first :: body =>
    if first ≠ COLON then .error (invalidAt place "record does not start with ':'")
    else if body.length % 2 ≠ 0 ∨ body.length < 10 then
      .error (invalidAt place "record has an odd or short length")
    else do
      let bytes ← hexToBytes body place
      readBytes place s bytes

def readLines (lineIndex : ℕ) (s : HexState) : List (List UInt16) → Except String HexState
  | [] => .ok s
  | line :: lines => do
    let t ← readLine lineIndex s line
    readLines (lineIndex + 1) t lines

/-! ## Joining the writes -/

structure PendingSegment where
  address : ℕ
  length : ℕ
  runs : List IntelHexSegment

def addWrite (pending : List PendingSegment) (write : IntelHexSegment) :
    Except String (List PendingSegment) :=
  match pending with
  | [] => .ok [⟨write.address, write.data.length, [write]⟩]
  | current :: earlier =>
    let currentEnd := current.address + current.length
    if write.address = currentEnd then
      .ok (⟨current.address, current.length + write.data.length, current.runs ++ [write]⟩ ::
        earlier)
    else if write.address < currentEnd then
      .error ("Invalid Intel HEX: overlapping data at 0x" ++ toHex write.address ++
        " — refusing to flash an ambiguous image")
    else .ok (⟨write.address, write.data.length, [write]⟩ :: current :: earlier)

def groupRuns (pending : List PendingSegment) :
    List IntelHexSegment → Except String (List PendingSegment)
  | [] => .ok pending
  | write :: writes => do
    let next ← addWrite pending write
    groupRuns next writes

def PendingSegment.join (p : PendingSegment) : IntelHexSegment :=
  ⟨p.address, p.runs.flatMap IntelHexSegment.data⟩

def byAddress (a b : IntelHexSegment) : Prop := a.address ≤ b.address

instance : DecidableRel byAddress := fun a b => inferInstanceAs (Decidable (a.address ≤ b.address))

def coalesce (writes : List IntelHexSegment) : Except String ParsedIntelHex := do
  let pending ← groupRuns [] (writes.insertionSort byAddress)
  let segments := pending.reverse.map PendingSegment.join
  .ok {
    segments := segments
    minAddress := (segments.head?.map IntelHexSegment.address).getD 0
    endAddress := (segments.getLast?.map IntelHexSegment.endAddress).getD 0
    totalBytes := (segments.map fun s => s.data.length).sum }

def parseIntelHex (text : List UInt16) : Except String ParsedIntelHex := do
  let s ← readLines 0 HexState.initial (splitLines text)
  if !s.sawEof then .error "Invalid Intel HEX: missing end-of-file (:00000001FF) record"
  else coalesce s.writes

end ArduConfigurator.FirmwareFlash
