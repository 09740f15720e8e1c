import ArduConfigurator.Lib.FixedText
import ArduConfigurator.Lib.JsArithmetic

/-! # The VTX table blob

`parseVtxTable` and `serializeVtxTable` of `vtx-table.ts`: a table of bands and their frequencies as
it is kept in @VTX/vtxtable.dat. -/
namespace ArduConfigurator.Tables
set_option autoImplicit false

def VTX_TABLE_MAGIC : ℕ := 0x5654
def VTX_TABLE_VERSION : ℕ := 2
def VTX_TABLE_LEGACY_VERSION : ℕ := 1
def VTX_TABLE_MAX_BANDS : ℕ := 12
def VTX_TABLE_MAX_CHANNELS : ℕ := 8
def VTX_TABLE_MAX_POWER_LEVELS : ℕ := 8
def VTX_TABLE_BAND_NAME_LEN : ℕ := 8
def VTX_TABLE_POWER_LABEL_LEN : ℕ := 3
def VTX_TABLE_HEADER_LEN : ℕ := 5

structure VtxTableBand where
  name : Text
  letter : Text
  isFactory : Bool
  /-- Frequencies in MHz; zero is a channel that is disabled. -/
  frequencies : List ℕ
  deriving DecidableEq

/-- The channels are a number of the language: the text format can give any. -/
structure VtxTable where
  version : ℕ
  numChannels : JsNumber
  bands : List VtxTableBand
  deriving DecidableEq

/-! ## The checksum -/

/-- `crc_crc32`: reflected, from zero, and not inverted at the end. -/
def crc32Entry (n : UInt8) : UInt32 :=
  (List.range 8).foldl
    (fun (c : UInt32) _ => if c &&& 1 = 1 then (0xedb88320 : UInt32) ^^^ (c >>> 1) else c >>> 1)
    n.toUInt32

def crc32 (bytes : Bytes) : UInt32 :=
  bytes.foldl (fun crc b => crc32Entry ((crc ^^^ b.toUInt32) &&& 0xff).toUInt8 ^^^ (crc >>> 8)) 0

def vtxTableCrc32 (bytes : Bytes) : UInt32 := crc32 bytes

/-! ## Parsing -/

/-- `pastEnd` stands for a read that finds no byte. -/
inductive VtxTableParseError
  | tooShort
  | badMagic (magic : ℕ)
  | legacyVersion
  | unsupportedVersion (version : ℕ)
  | empty
  | overLimits
  | truncated
  | crcMismatch
  | pastEnd

def VtxTableParseError.message : VtxTableParseError → String
  | .tooShort => "VTX table blob too short for its header."
  | .badMagic magic => "VTX table bad magic 0x" ++ String.ofList (Nat.toDigits 16 magic) ++ "."
  | .legacyVersion =>
    "This firmware uses the old (version 1) VTX table format, which this version cannot read or write. "
      ++ "Update to a build with the upstream VTX table."
  | .unsupportedVersion version => "Unsupported VTX table version " ++ toString version ++ "."
  | .empty => "VTX table must have at least one band and one channel."
  | .overLimits => "VTX table counts exceed the supported limits."
  | .truncated => "VTX table blob truncated."
  | .crcMismatch => "VTX table CRC mismatch."
  | .pastEnd => ""

/-- `bytes.subarray(off, off + width)`, where all of it is there. -/
def fieldAt (bytes : Bytes) (off width : ℕ) : Option Bytes :=
  if off + width ≤ bytes.length then some (slice bytes off width) else none

def readFrequencies (bytes : Bytes) : ℕ → ℕ → Option (List ℕ)
  | _, 0 => some []
  | o, channels + 1 =>
    (readLE bytes o 2).bind fun frequency =>
      (readFrequencies bytes (o + 2) channels).map fun frequencies => frequency :: frequencies

def readBand (bytes : Bytes) (numChannels o : ℕ) : Option VtxTableBand :=
  (fieldAt bytes o VTX_TABLE_BAND_NAME_LEN).bind fun name =>
  bytes[o + VTX_TABLE_BAND_NAME_LEN]?.bind fun letter =>
  bytes[o + VTX_TABLE_BAND_NAME_LEN + 1]?.bind fun factory =>
  (readFrequencies bytes (o + VTX_TABLE_BAND_NAME_LEN + 2) numChannels).map fun frequencies =>
    { name := fieldText name
      letter := if letter = 0 then [] else charText [letter]
      isFactory := factory ≠ 0
      frequencies := frequencies }

def bandLength (numChannels : ℕ) : ℕ := VTX_TABLE_BAND_NAME_LEN + 2 + numChannels * 2

def readBands (bytes : Bytes) (numChannels : ℕ) : ℕ → ℕ → Option (List VtxTableBand)
  | _, 0 => some []
  | o, numBands + 1 =>
    (readBand bytes numChannels o).bind fun band =>
      (readBands bytes numChannels (o + bandLength numChannels) numBands).map fun bands =>
        band :: bands

def vtxTableLength (numBands numChannels : ℕ) : ℕ :=
  VTX_TABLE_HEADER_LEN + numBands * bandLength numChannels + 4

def parseVtxTable (bytes : Bytes) : Except VtxTableParseError VtxTable :=
  if bytes.length < VTX_TABLE_HEADER_LEN then .error .tooShort
  else
    match readLE bytes 0 2, bytes[2]?, bytes[3]?, bytes[4]? with
    | some magic, some version, some numBands, some numChannels =>
      let numBands := numBands.toNat
      let numChannels := numChannels.toNat
      let need := vtxTableLength numBands numChannels
      if magic ≠ VTX_TABLE_MAGIC then .error (.badMagic magic)
      else if version.toNat = VTX_TABLE_LEGACY_VERSION then .error .legacyVersion
      else if version.toNat ≠ VTX_TABLE_VERSION then .error (.unsupportedVersion version.toNat)
      else if numBands < 1 ∨ numChannels < 1 then .error .empty
      else if VTX_TABLE_MAX_BANDS < numBands ∨ VTX_TABLE_MAX_CHANNELS < numChannels then
        .error .overLimits
      else if bytes.length < need then .error .truncated
      else
        match fieldAt bytes 0 (need - 4), readLE bytes (need - 4) 4 with
        | some body, some stored =>
          if (vtxTableCrc32 body).toNat ≠ stored then .error .crcMismatch
          else
            match readBands bytes numChannels VTX_TABLE_HEADER_LEN numBands with
            | some bands => .ok ⟨version.toNat, .ofInt numChannels, bands⟩
            | none => .error .pastEnd
        | _, _ => .error .pastEnd
    | _, _, _, _ => .error .pastEnd

/-! ## Serialising -/

def toIndex : JsNumber → Option ℕ
  | .nan => some 0
  | .infinite _ => none
  | .finite negative q =>
    if negative = true ∧ 1 ≤ q then none else if 2 ^ 53 ≤ ⌊q⌋₊ then none else some ⌊q⌋₊

def toUint8 : JsNumber → UInt8
  | .finite negative q => UInt8.ofInt (if negative then -⌊q⌋₊ else ⌊q⌋₊)
  | _ => 0

/-- How often `for (let c = 0; c < x; c += 1)` is gone through. -/
def timesBelow : JsNumber → ℕ
  | .finite false q => ⌈q⌉₊
  | _ => 0

/-- An array of bytes that is filled from its start: a byte behind its end is ignored. -/
structure Buffer where
  size : ℕ
  written : Bytes

namespace Buffer

/-- `buf[o++] = byte`. -/
def put (b : Buffer) (byte : UInt8) : Buffer := { b with written := b.written ++ [byte] }

/-- `buf.set(bytes, o)`, which must fit. -/
def set (b : Buffer) (bytes : Bytes) : Option Buffer :=
  if b.written.length + bytes.length ≤ b.size then some { b with written := b.written ++ bytes }
  else none

def content (b : Buffer) : Bytes := zeroPad b.size (b.written.take b.size)

end Buffer

def letterByte : Text → UInt8
  | [] => 0
  | c :: _ => UInt8.ofNat c.toNat

def encodeBand (numChannels : JsNumber) (b : Buffer) (band : VtxTableBand) : Option Buffer :=
  (b.set (textField VTX_TABLE_BAND_NAME_LEN VTX_TABLE_BAND_NAME_LEN band.name)).map fun b =>
    let b := (b.put (letterByte band.letter)).put (if band.isFactory then 1 else 0)
    (List.range (timesBelow numChannels)).foldl
      (fun b c =>
        let frequency := band.frequencies.getD c 0
        (b.put (UInt8.ofNat frequency)).put (UInt8.ofNat (frequency / 256)))
      b

def Buffer.putCrc (b : Buffer) : Buffer :=
  let crc := (vtxTableCrc32 (b.content.take b.written.length)).toNat
  (((b.put (UInt8.ofNat crc)).put (UInt8.ofNat (crc / 256))).put
    (UInt8.ofNat (crc / 256 / 256))).put (UInt8.ofNat (crc / 256 / 256 / 256))

/-- `serializeVtxTable`; `none` is a RangeError. -/
def serializeVtxTable (table : VtxTable) : Option Bytes :=
  (toIndex (5 + .ofInt table.bands.length * (8 + 2 + table.numChannels * 2) + 4)).bind fun size =>
    let b : Buffer := ⟨size, []⟩
    let b := (b.put (UInt8.ofNat VTX_TABLE_MAGIC)).put (UInt8.ofNat (VTX_TABLE_MAGIC / 256))
    let b := (b.put (UInt8.ofNat VTX_TABLE_VERSION)).put (UInt8.ofNat table.bands.length)
    let b := b.put (toUint8 table.numChannels)
    (table.bands.foldlM (encodeBand table.numChannels) b).map fun b => b.putCrc.content

end ArduConfigurator.Tables
