import ArduConfigurator.Lib.Entries
import ArduConfigurator.Tables.VtxTable

/-! # VTX tables as CLI text

`parseBetaflightVtxTable` and `serializeBetaflightVtxTable` of `vtx-table.ts`: a table as the lines
that a Betaflight command line takes. -/
namespace ArduConfigurator.Tables
open DecimalText
set_option autoImplicit false

structure VtxTablePowerLevel where
  value : JsNumber
  label : Text
  deriving DecidableEq

structure BetaflightVtxTableImport where
  table : VtxTable
  powerLevels : List VtxTablePowerLevel
  deriving DecidableEq

inductive BetaflightParseError
  | bandIndex (token : Option Text)
  | flagMissing (index : ℕ)
  | noBands
  | bandMissing (index : ℕ)
  /-- The RangeError of an array whose length is none. -/
  | arrayLength
  | tooManyBands (count : ℕ)
  | tooManyChannels (count : JsNumber)
  | tooManyPowerLevels (count : ℕ)
  | longName (name : Text)
  deriving DecidableEq

def countText (n : ℕ) : Text := numberToString (.finite false n)

def BetaflightParseError.message : BetaflightParseError → Text
  | .bandIndex token =>
    units "Invalid vtxtable band index \"" ++ token.getD (units "undefined") ++ units "\"."
  | .flagMissing index =>
    units "vtxtable band " ++ countText index ++ units " missing FACTORY/CUSTOM flag."
  | .noBands => units "No vtxtable band rows found in the imported text."
  | .bandMissing index =>
    units "vtxtable is missing band " ++ countText index ++
      units " (bands must be a contiguous 1..N)."
  | .arrayLength => units "Invalid array length"
  | .tooManyBands count =>
    units "Too many bands (" ++ countText count ++
      units "); the flight controller supports at most " ++ countText VTX_TABLE_MAX_BANDS ++ units "."
  | .tooManyChannels count =>
    units "Too many channels (" ++ numberToString count ++ units "); the maximum is " ++
      countText VTX_TABLE_MAX_CHANNELS ++ units "."
  | .tooManyPowerLevels count =>
    units "Too many power levels (" ++ countText count ++ units "); the maximum is " ++
      countText VTX_TABLE_MAX_POWER_LEVELS ++ units "."
  | .longName name =>
    units "Band name \"" ++ name ++ units "\" exceeds " ++ countText VTX_TABLE_BAND_NAME_LEN ++
      units " characters."

/-! ## The tokens of a line -/

def HASH : UInt16 := 0x23
def QUOTE : UInt16 := 0x22
def SPACE : UInt16 := 0x20

def isLineTerminator (c : UInt16) : Bool :=
  c = LINE_FEED ∨ c = CARRIAGE_RETURN ∨ c = 0x2028 ∨ c = 0x2029

/-- `rawLine.replace(/#.*$/, '')`: the dot stands for no line terminator. -/
@[grind =] def stripComment : Text → Text
  | [] => []
  | c :: rest =>
    if c = HASH ∧ ∀ d ∈ rest, isLineTerminator d = false then [] else c :: stripComment rest

inductive Reading
  | between
  | quoted (token : Text)
  | word (token : Text)

/-- The matches of `/"([^"]*)"|(\S+)/g`. -/
@[grind =] def scan : Reading → Text → List Text
  | .between, [] => []
  | .between, c :: rest =>
    if c = QUOTE ∧ QUOTE ∈ rest then scan (.quoted []) rest
    else if isWhiteSpace c = true then scan .between rest
    else scan (.word [c]) rest
  | .quoted _, [] => []
  | .quoted token, c :: rest =>
    if c = QUOTE then token :: scan .between rest else scan (.quoted (token ++ [c])) rest
  | .word token, [] => [token]
  | .word token, c :: rest =>
    if isWhiteSpace c = true then token :: scan .between rest else scan (.word (token ++ [c])) rest

def tokenizeCliLine (line : Text) : List Text := scan .between line

def toLowerCase (text : Text) : Text :=
  text.map fun c => if 0x41 ≤ c ∧ c ≤ 0x5A then c + 0x20 else if c = 0x212A then 0x6B else c

def toUpperCase (text : Text) : Text :=
  text.flatMap fun c =>
    if 0x61 ≤ c ∧ c ≤ 0x7A then [c - 0x20]
    else if c = 0xDF then units "SS"
    else if c = 0x131 then units "I"
    else if c = 0x17F then units "S"
    else if c = 0xFB00 then units "FF"
    else if c = 0xFB01 then units "FI"
    else if c = 0xFB02 then units "FL"
    else if c = 0xFB03 then units "FFI"
    else if c = 0xFB04 then units "FFL"
    else if c = 0xFB05 ∨ c = 0xFB06 then units "ST"
    else [c]

/-- `Number(tokens[i])`. -/
def cliNumber : Option Text → JsNumber
  | none => .nan
  | some token => readLiteral (trim token)

/-! ## The rows of a text -/

structure ImportRows where
  numChannels : Option JsNumber
  bandByIndex : JsMap ℕ VtxTableBand
  powerValues : Option (List JsNumber)
  powerLabels : Option (List Text)

def ImportRows.none : ImportRows := ⟨.none, .empty, .none, .none⟩

def isVtxRow (tokens : List Text) : Bool :=
  tokens[0]?.map toLowerCase = some (units "vtxtable") ∧ 2 ≤ tokens.length

def rowKind (tokens : List Text) : Text := toLowerCase (tokens.getD 1 [])

def bandIndex (tokens : List Text) : Option ℕ :=
  (cliNumber tokens[2]?).toInt?.bind fun index => if 1 ≤ index then some index.toNat else none

def bandFlag (tokens : List Text) : Text := toUpperCase (tokens.getD 5 [])

/-- `Number.isFinite(value) ? Math.max(0, Math.round(value)) : 0`. -/
def roundFrequency : JsNumber → ℕ
  | .finite false q => ⌊q + 1 / (2 : ℕ)⌋₊
  | _ => 0

def rowBand (tokens : List Text) : VtxTableBand where
  name := tokens.getD 3 []
  letter := (tokens.getD 4 []).take 1
  isFactory := bandFlag tokens = units "FACTORY"
  frequencies := (tokens.drop 6).map fun token => roundFrequency (cliNumber (some token))

/-- `Math.max(0, Math.round(Number(token) || 0))`. -/
def roundPower (value : JsNumber) : JsNumber :=
  JsNumber.max 0 (if value = .nan ∨ value.equal 0 then 0 else value).roundHalfUp

def readVtxRow (rows : ImportRows) (tokens : List Text) : Except BetaflightParseError ImportRows :=
  if rowKind tokens = units "channels" then
    .ok { rows with numChannels := some (cliNumber tokens[2]?) }
  else if rowKind tokens = units "band" then
    match bandIndex tokens with
    | .none => .error (.bandIndex tokens[2]?)
    | some index =>
      if bandFlag tokens ≠ units "FACTORY" ∧ bandFlag tokens ≠ units "CUSTOM" then
        .error (.flagMissing index)
      else .ok { rows with bandByIndex := rows.bandByIndex.set index (rowBand tokens) }
  else if rowKind tokens = units "powervalues" then
    let values := (tokens.drop 2).map fun token => roundPower (cliNumber (some token))
    .ok { rows with powerValues := some values }
  else if rowKind tokens = units "powerlabels" then
    .ok { rows with powerLabels := some (tokens.drop 2) }
  else .ok rows

def lineTokens (rawLine : Text) : List Text := tokenizeCliLine (trim (stripComment rawLine))

def readLine (rows : ImportRows) (rawLine : Text) : Except BetaflightParseError ImportRows :=
  if isVtxRow (lineTokens rawLine) = true then readVtxRow rows (lineTokens rawLine) else .ok rows

/-! ## The table of the rows -/

/-- The bands from `index` on, which have to be there. -/
def bandsFrom (bandByIndex : JsMap ℕ VtxTableBand) :
    ℕ → ℕ → Except BetaflightParseError (List VtxTableBand)
  | _, 0 => .ok []
  | index, left + 1 =>
    match bandByIndex.get index with
    | none => .error (.bandMissing index)
    | some band => (bandsFrom bandByIndex (index + 1) left).map (band :: ·)

def arrayLength : JsNumber → Option ℕ
  | .finite negative q =>
    if (negative = true ∧ q ≠ 0) ∨ q.den ≠ 1 ∨ (2 ^ 32 : ℕ) ≤ q then none else some ⌊q⌋₊
  | _ => none

/-- `frequencies.slice(0, end)`. -/
def sliceTo (frequencies : List ℕ) : JsNumber → List ℕ
  | .finite false q => frequencies.take ⌊q⌋₊
  | .finite true q =>
    if ⌊q⌋₊ = 0 then [] else frequencies.take (frequencies.length - ⌊q⌋₊)
  | .infinite false => frequencies
  | _ => []

def normalizeBand (resolvedChannels : JsNumber) (band : VtxTableBand) :
    Except BetaflightParseError VtxTableBand :=
  let count : JsNumber := .finite false band.frequencies.length
  if count.lt resolvedChannels = true then
    match arrayLength (resolvedChannels - count) with
    | none => .error .arrayLength
    | some missing =>
      .ok { band with frequencies := band.frequencies ++ List.replicate missing 0 }
  else if resolvedChannels.lt count = true then
    .ok { band with frequencies := sliceTo band.frequencies resolvedChannels }
  else .ok band

def powerLevels (values : List JsNumber) (labels : List Text) : List VtxTablePowerLevel :=
  (List.range (max values.length labels.length)).map fun i =>
    { value := values.getD i 0
      label := (labels.getD i (numberToString (values.getD i 0))).take VTX_TABLE_POWER_LABEL_LEN }

/-- The `channels` row counts, else the widest band. -/
def resolvedChannels (rows : ImportRows) (bands : List VtxTableBand) : JsNumber :=
  rows.numChannels.getD
    (.finite false ((bands.map fun band => band.frequencies.length).foldr max 0 : ℕ))

def checkLimits (channels : JsNumber) (bands : List VtxTableBand)
    (levels : List VtxTablePowerLevel) : Except BetaflightParseError BetaflightVtxTableImport :=
  if VTX_TABLE_MAX_BANDS < bands.length then .error (.tooManyBands bands.length)
  else if (JsNumber.finite false VTX_TABLE_MAX_CHANNELS).lt channels = true then
    .error (.tooManyChannels channels)
  else if VTX_TABLE_MAX_POWER_LEVELS < levels.length then .error (.tooManyPowerLevels levels.length)
  else
    match bands.find? fun band => VTX_TABLE_BAND_NAME_LEN < band.name.length with
    | some band => .error (.longName band.name)
    | none => .ok ⟨⟨VTX_TABLE_VERSION, channels, bands⟩, levels⟩

def assemble (rows : ImportRows) : Except BetaflightParseError BetaflightVtxTableImport :=
  if rows.bandByIndex.size = 0 then .error .noBands
  else
    (bandsFrom rows.bandByIndex 1 (rows.bandByIndex.keys.foldr max 0)).bind fun bands =>
    (bands.mapM (normalizeBand (resolvedChannels rows bands))).bind fun normalized =>
      checkLimits (resolvedChannels rows bands) normalized
        (powerLevels (rows.powerValues.getD []) (rows.powerLabels.getD []))

def parseBetaflightVtxTable (text : Text) : Except BetaflightParseError BetaflightVtxTableImport :=
  ((splitLines text).foldlM readLine .none).bind assemble

/-! ## Writing the text -/

def joinWith (c : UInt16) : List Text → Text
  | [] => []
  | [text] => text
  | text :: texts => text ++ c :: joinWith c texts

def quote (name : Text) : Text :=
  if name.any isWhiteSpace = true then QUOTE :: (name ++ [QUOTE]) else name

/-- The length of `Array.from({ length })`. -/
def lengthOf : JsNumber → Option ℕ
  | .finite false q => if (2 ^ 32 : ℕ) ≤ q then none else some ⌊q⌋₊
  | .infinite false => none
  | _ => some 0

def bandLine (numChannels index : ℕ) (band : VtxTableBand) : Text :=
  units "vtxtable band " ++ countText index ++ SPACE :: quote band.name ++
    SPACE :: (if band.letter = [] then units "?" else band.letter) ++
    SPACE :: (if band.isFactory then units "FACTORY" else units "CUSTOM") ++
    SPACE :: joinWith SPACE ((List.range numChannels).map fun c =>
      countText (band.frequencies.getD c 0))

def powerLabel (level : VtxTablePowerLevel) : Text :=
  if level.label = [] then numberToString level.value else level.label

/-- `serializeBetaflightVtxTable`; `none` is a RangeError. -/
def serializeBetaflightVtxTable (table : VtxTable) (powerLevels : List VtxTablePowerLevel) :
    Option Text :=
  (if table.bands = [] then some 0 else lengthOf table.numChannels).map fun numChannels =>
    joinWith LINE_FEED
      ([units "vtxtable bands " ++ countText table.bands.length,
        units "vtxtable channels " ++ numberToString table.numChannels] ++
      (table.bands.mapIdx fun i band => bandLine numChannels (i + 1) band) ++
      [units "vtxtable powerlevels " ++ countText powerLevels.length,
        units "vtxtable powervalues " ++
          joinWith SPACE (powerLevels.map fun level => numberToString level.value),
        units "vtxtable powerlabels " ++ joinWith SPACE (powerLevels.map powerLabel)]) ++ [LINE_FEED]

end ArduConfigurator.Tables
