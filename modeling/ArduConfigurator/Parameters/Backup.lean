import ArduConfigurator.Lib.DecimalText
import ArduConfigurator.Lib.Entries

/-! # Parameter backups

What a backup keeps of the live parameters, the two text formats it is written in, how a text is
read back, and what importing a backup against the live parameters stages. -/
namespace ArduConfigurator.Parameters
open DecimalText
set_option autoImplicit false

/-! ## Numbers -/

/-- `Number.isInteger(x)`. -/
def isInteger : JsNumber → Bool
  | .finite _ q => q.den = 1
  | _ => false

/-- `Number.isFinite(x)`. -/
def isFinite : JsNumber → Bool
  | .finite _ _ => true
  | _ => false

/-- `x === y`. -/
def equal (x y : JsNumber) : Bool := x.le y && y.le x

/-- `Math.abs(x - y)`. -/
def absDifference : JsNumber → JsNumber → JsNumber
  | .nan, _ => .nan
  | _, .nan => .nan
  | .infinite n, .infinite m => if n = m then .nan else .infinite false
  | .infinite _, .finite _ _ => .infinite false
  | .finite _ _, .infinite _ => .infinite false
  | .finite n q, .finite m r =>
    nearestDouble false (Rat.nnabs (JsNumber.signed n q - JsNumber.signed m r))

/-- `Number(text)`. -/
def toNumber (t : Text) : JsNumber := readLiteral (trim t)

/-! ## The data -/

def SNAPSHOT_EXCLUDED_PREFIXES : List Text := [units "STAT_"]

def SNAPSHOT_COMPARE_TOLERANCE : JsNumber := nearestDouble false (1 / 10000)

structure ParameterDefinition where
  category : Text
  label : Text
  unit : Option Text
  snapshotExcluded : Bool

structure ParameterState where
  id : Text
  value : JsNumber
  definition : Option ParameterDefinition
  aliasedFrom : Option Text

/-- The parameters of a vehicle, one for each id, each with a single precision value. -/
structure ParameterTable where
  parameters : List ParameterState
  distinct : (parameters.map ParameterState.id).Nodup
  single : ∀ p ∈ parameters, isFinite p.value = true ∧ binary32.Holds p.value

structure BackupVehicle where
  firmware : Text
  vehicle : Text
  systemId : ℕ
  componentId : ℕ
  flightMode : Text

structure BackupHardware where
  boardVersion : Option ℕ
  boardType : Option ℕ
  vendorId : Option ℕ
  productId : Option ℕ
  uid : Option Text

structure SnapshotBoard extends BackupHardware where
  firmwareVersion : Option Text
  firmwareGitHash : Option Text

structure ConfiguratorSnapshot where
  vehicle : Option BackupVehicle
  board : Option SnapshotBoard
  table : ParameterTable

structure ParameterBackupAppInfo where
  appVersion : Option Text
  appGitHash : Option Text
  appGitBranch : Option Text

structure ParameterBackupEntry where
  id : Text
  value : JsNumber
  category : Option Text
  label : Option Text
  unit : Option Text

structure ParameterBackupFile where
  appVersion : Option Text
  appGitHash : Option Text
  appGitBranch : Option Text
  firmware : Text
  firmwareVersion : Option Text
  firmwareGitHash : Option Text
  exportedAt : Text
  parameterCount : ℕ
  vehicle : Option BackupVehicle
  hardware : Option BackupHardware
  parameters : List ParameterBackupEntry

/-! ## Patterns of ids -/

inductive ParameterImportCategory
  | calibration
  | streamRates
  | mission
  deriving DecidableEq

/-- A part of a pattern: one of some texts, or digits, so many at least and at most. -/
inductive PatternPart
  | oneOf (options : List Text)
  | digits (least : ℕ) (most : Option ℕ)

namespace PatternPart

def lit (s : String) : PatternPart := .oneOf [units s]

def axis : PatternPart := .oneOf [units "X", units "Y", units "Z"]

def sensor : PatternPart := .oneOf [units "ACC", units "GYR"]

/-- `\d?` -/
def optionalDigit : PatternPart := .digits 0 (some 1)

/-- `\d*` -/
def anyDigits : PatternPart := .digits 0 none

/-- `\d+` -/
def someDigits : PatternPart := .digits 1 none

def rests : PatternPart → Text → List Text
  | .oneOf options, t =>
    options.flatMap fun s => if s.isPrefixOf t then [t.drop s.length] else []
  | .digits least most, t =>
    let n := (t.takeWhile isDigit).length
    ((List.range (min n (most.getD n) + 1)).filter (least ≤ ·)).map t.drop

end PatternPart

open PatternPart

def matchRests (pattern : List PatternPart) (t : Text) : List Text :=
  pattern.foldl (fun rests part => rests.flatMap part.rests) [t]

/-- `/^…$/.test(id)`. -/
def testWhole (id : Text) (pattern : List PatternPart) : Bool := [] ∈ matchRests pattern id

/-- `/^…/.test(id)`. -/
def testStart (id : Text) (pattern : List PatternPart) : Bool := matchRests pattern id ≠ []

def CALIBRATION_PATTERNS : List (List PatternPart) :=
  [[lit "COMPASS_OFS", optionalDigit, lit "_", axis],
   [lit "COMPASS_DIA", optionalDigit, lit "_", axis],
   [lit "COMPASS_ODI", optionalDigit, lit "_", axis],
   [lit "COMPASS_MOT", optionalDigit, lit "_", axis],
   [lit "COMPASS_MOTCT"],
   [lit "COMPASS_SCALE", optionalDigit],
   [lit "INS", anyDigits, lit "_ACC", optionalDigit, lit "OFFS_", axis],
   [lit "INS", anyDigits, lit "_ACC", optionalDigit, lit "SCAL_", axis],
   [lit "INS", anyDigits, lit "_GYR", optionalDigit, lit "OFFS_", axis],
   [lit "INS", anyDigits, lit "_", sensor, optionalDigit, lit "_CALTEMP"],
   [lit "INS", anyDigits, lit "_TCAL", anyDigits, lit "_", sensor, .digits 1 (some 1), lit "_",
    axis],
   [lit "INS", anyDigits, lit "_TCAL", anyDigits, lit "_TM", .oneOf [units "IN", units "AX"]],
   [lit "AHRS_TRIM_", axis]]

def STREAM_RATE_PATTERN : List PatternPart := [lit "SR", someDigits, lit "_"]

def MISSION_PATTERN : List PatternPart := [lit "MIS_"]

def INTERNAL_USE_ONLY_PATTERNS : List (List PatternPart) :=
  [[lit "BARO", someDigits, lit "_GND_PRESS"]]

def isInternalUseOnlyParameter (id : Text) : Bool := INTERNAL_USE_ONLY_PATTERNS.any (testWhole id)

def parameterImportExclusionCategory (id : Text) : Option ParameterImportCategory :=
  if testStart id STREAM_RATE_PATTERN then some .streamRates
  else if testStart id MISSION_PATTERN then some .mission
  else if CALIBRATION_PATTERNS.any (testWhole id) then some .calibration
  else none

def inCategories (excludeCategories : List ParameterImportCategory) (id : Text) : Bool :=
  match parameterImportExclusionCategory id with
  | some category => excludeCategories.contains category
  | none => false

def startsExcluded (id : Text) : Bool :=
  SNAPSHOT_EXCLUDED_PREFIXES.any fun start => start.isPrefixOf id

def isSnapshotExcludedParameterState (parameter : ParameterState) : Bool :=
  if parameter.aliasedFrom.isSome then true
  else (parameter.definition.any (·.snapshotExcluded)) || startsExcluded parameter.id

def isSnapshotExcludedBackupEntry (entry : ParameterBackupEntry) : Bool := startsExcluded entry.id

/-! ## Export -/

structure ParameterBackupExportOptions where
  excludeCategories : List ParameterImportCategory
  includeParamIds : Option (List Text)

def ParameterBackupExportOptions.none : ParameterBackupExportOptions := ⟨[], Option.none⟩

variable (localeCompare : Text → Text → ℤ)

/-- `ids.sort((left, right) => left.localeCompare(right))`. -/
def sortIds (ids : List Text) : List Text := ids.insertionSort fun a b => localeCompare a b ≤ 0

/-- `entries.sort((left, right) => left.id.localeCompare(right.id))`. -/
def sortEntries (entries : List ParameterBackupEntry) : List ParameterBackupEntry :=
  entries.insertionSort fun a b => localeCompare a.id b.id ≤ 0

def ParameterState.entry (parameter : ParameterState) : ParameterBackupEntry where
  id := parameter.id
  value := parameter.value
  category := parameter.definition.map (·.category)
  label := parameter.definition.map (·.label)
  unit := parameter.definition.bind (·.unit)

def createParameterBackup (snapshot : ConfiguratorSnapshot) (appInfo : ParameterBackupAppInfo)
    (options : ParameterBackupExportOptions) (now : Text) : ParameterBackupFile :=
  let exportableParameters := sortEntries localeCompare
    ((((snapshot.table.parameters.filter fun p => !isSnapshotExcludedParameterState p).filter
      fun p => options.includeParamIds.all fun ids => ids.contains p.id).filter
        fun p => !inCategories options.excludeCategories p.id).map ParameterState.entry)
  { appVersion := appInfo.appVersion
    appGitHash := appInfo.appGitHash
    appGitBranch := appInfo.appGitBranch
    firmware := (snapshot.vehicle.map (·.vehicle)).getD (units "Unknown")
    firmwareVersion := snapshot.board.bind (·.firmwareVersion)
    firmwareGitHash := snapshot.board.bind (·.firmwareGitHash)
    exportedAt := now
    parameterCount := exportableParameters.length
    vehicle := snapshot.vehicle
    hardware := snapshot.board.map (·.toBackupHardware)
    parameters := exportableParameters }

/-- `parts.join(separator)`. -/
def join (separator : String) (parts : List Text) : Text := List.intercalate (units separator) parts

def present (t : Option Text) : List Text := t.toList.filter (· ≠ [])

/-- `n.toString(16).padStart(4, '0')`. -/
def paddedHex (n : ℕ) : Text :=
  let digits := units (String.ofList (Nat.toDigits 16 n))
  List.replicate (4 - digits.length) ZERO ++ digits

def buildBackupHeaderComments (backup : ParameterBackupFile) : List Text :=
  let build := present backup.appGitHash ++ present backup.appGitBranch
  let appParts := [units "ArduConfigurator"] ++ (present backup.appVersion).map (units "v" ++ ·) ++
    (if build = [] then [] else [units "(" ++ join ", " build ++ units ")"])
  let fwParts := [backup.firmware] ++ present backup.firmwareVersion ++
    (present backup.firmwareGitHash).map fun hash => units "(" ++ hash ++ units ")"
  let board (hw : BackupHardware) : List Text :=
    (hw.vendorId.toList.map fun id => units "# Board: vendor=0x" ++ paddedHex id) ++
    (hw.productId.toList.map fun id => units "# Board: product=0x" ++ paddedHex id) ++
    (hw.boardType.toList.map fun n => units "# Board: boardType=" ++ natDigits n) ++
    (hw.boardVersion.toList.map fun n => units "# Board: boardVersion=" ++ natDigits n) ++
    (present hw.uid).map fun uid => units "# Board: uid=" ++ uid
  [units "# " ++ join " " appParts] ++
  [units "# Exported: " ++ backup.exportedAt] ++
  (if backup.firmware = [] ∨ backup.firmware = units "Unknown" then []
    else [units "# Firmware: " ++ join " " fwParts]) ++
  (backup.vehicle.toList.map fun vehicle =>
    units "# Vehicle: sysid=" ++ natDigits vehicle.systemId ++ units " compid=" ++
      natDigits vehicle.componentId ++ units " mode=" ++ vehicle.flightMode) ++
  backup.hardware.toList.flatMap board ++
  [units "# Parameters: " ++ natDigits backup.parameterCount]

def formatBackupValue (value : JsNumber) : Text :=
  if isInteger value then numberToString value else trimFraction (toPrecision 7 value)

/-- `lines.join('\n') + '\n'`. -/
def joinLines (lines : List Text) : Text := List.intercalate [LINE_FEED] lines ++ [LINE_FEED]

def parmLine (entry : ParameterBackupEntry) : Text :=
  entry.id ++ units "," ++ formatBackupValue entry.value

def serializeParameterBackupAsParm (backup : ParameterBackupFile) : Text :=
  joinLines (buildBackupHeaderComments backup ++ backup.parameters.map parmLine)

def backupSystemId (backup : ParameterBackupFile) : ℕ := (backup.vehicle.map (·.systemId)).getD 1

def backupComponentId (backup : ParameterBackupFile) : ℕ :=
  (backup.vehicle.map (·.componentId)).getD 1

def paramsHeader (backup : ParameterBackupFile) : List Text :=
  [units "# Onboard parameters for vehicle " ++ natDigits (backupSystemId backup)] ++
  buildBackupHeaderComments backup ++
  [units "# Vehicle-Id Component-Id Name Value Type"]

def paramsLine (systemId componentId : ℕ) (entry : ParameterBackupEntry) : Text :=
  natDigits systemId ++ units "\t" ++ natDigits componentId ++ units "\t" ++ entry.id ++
    units "\t" ++ formatBackupValue entry.value ++ units "\t9"

def serializeParameterBackupAsParams (backup : ParameterBackupFile) : Text :=
  joinLines (paramsHeader backup ++
    backup.parameters.map (paramsLine (backupSystemId backup) (backupComponentId backup)))

/-! ## Reading a text -/

def isUpper (c : UInt16) : Bool := 0x41 ≤ c ∧ c ≤ 0x5A

/-- `/^[A-Z][A-Z0-9_]*$/.test(token)`. -/
def isParameterId : Text → Bool
  | [] => false
  | c :: rest => isUpper c && rest.all fun c => isUpper c || isDigit c || c = 0x5F

def HASH : UInt16 := 0x23

def idAndValue (tokens : List Text) : Option (Text × Text) :=
  match tokens.dropWhile (fun token => !isParameterId token) with
  | id :: value :: _ => some (id, value)
  | _ => none

def lineEntry (rawLine : Text) : Option (Text × JsNumber) :=
  let line := trim (rawLine.takeWhile (· ≠ HASH))
  if line = [] then none
  else if (tokensOf line).length < 2 then none
  else
    match idAndValue (tokensOf line) with
    | none => none
    | some (idCandidate, token) =>
      if isFinite (toNumber token) then some (idCandidate, toNumber token) else none

def textEntry (id : Text) (value : JsNumber) : ParameterBackupEntry := ⟨id, value, none, none, none⟩

def readEntries :
    ℕ → List ParameterBackupEntry → List Text → Except Text (List ParameterBackupEntry)
  | _, entries, [] => .ok entries
  | lineNumber, entries, rawLine :: lines =>
    match lineEntry rawLine with
    | none => readEntries (lineNumber + 1) entries lines
    | some (id, value) =>
      if (entries.map (·.id)).contains id then
        .error (units "Backup file lists " ++ id ++ units " more than once (line " ++
          natDigits lineNumber ++ units ").")
      else readEntries (lineNumber + 1) (entries ++ [textEntry id value]) lines

def parseTextParameterBackup (input now : Text) : Except Text ParameterBackupFile :=
  match readEntries 1 [] (splitLines input) with
  | .error message => .error message
  | .ok entries =>
    if entries = [] then
      .error (units "Backup file is empty or does not contain any NAME,VALUE entries.")
    else .ok
      { appVersion := none
        appGitHash := none
        appGitBranch := none
        firmware := units "Unknown"
        firmwareVersion := none
        firmwareGitHash := none
        exportedAt := now
        parameterCount := entries.length
        vehicle := none
        hardware := none
        parameters := sortEntries localeCompare entries }

/-- The reader of the JSON form is a parameter: a backup of the schema, or the message of a
refusal. -/
def parseParameterBackup (parseJson : Text → Except Text ParameterBackupFile) (input now : Text) :
    Except Text ParameterBackupFile :=
  let trimmed := input.dropWhile isWhiteSpace
  if (units "\x7b").isPrefixOf trimmed ∨ (units "[").isPrefixOf trimmed then
    (parseJson input).map fun parsed =>
      { parsed with parameters := sortEntries localeCompare parsed.parameters }
  else parseTextParameterBackup localeCompare input now

/-! ## Import -/

structure ParameterBackupImportResult where
  draftValues : JsMap Text Text
  matchedCount : ℕ
  changedCount : ℕ
  unchangedCount : ℕ
  unknownParameterIds : List Text
  newParameterIds : List Text
  excludedCount : ℕ

def ParameterBackupImportResult.empty : ParameterBackupImportResult :=
  ⟨JsMap.empty, 0, 0, 0, [], [], 0⟩

def parameterValuesMatch (left right : JsNumber) : Bool :=
  left = right ∨ (absDifference left right).le SNAPSHOT_COMPARE_TOLERANCE

/-- `new Map(parameters.map((parameter) => [parameter.id, parameter])).get(id)`. -/
def parameterById (parameters : List ParameterState) (id : Text) : Option ParameterState :=
  parameters.reverse.find? fun p => p.id = id

def importEntry (parameters : List ParameterState)
    (excludeCategories : List ParameterImportCategory) (r : ParameterBackupImportResult)
    (entry : ParameterBackupEntry) : ParameterBackupImportResult :=
  if isSnapshotExcludedBackupEntry entry then r
  else if isInternalUseOnlyParameter entry.id then { r with excludedCount := r.excludedCount + 1 }
  else if inCategories excludeCategories entry.id then
    { r with excludedCount := r.excludedCount + 1 }
  else
    match parameterById parameters entry.id with
    | none => { r with unknownParameterIds := r.unknownParameterIds ++ [entry.id] }
    | some current =>
      if parameterValuesMatch current.value entry.value then
        { r with
          matchedCount := r.matchedCount + 1
          unchangedCount := r.unchangedCount + 1 }
      else
        { r with
          matchedCount := r.matchedCount + 1
          draftValues := r.draftValues.set entry.id (numberToString entry.value)
          changedCount := r.changedCount + 1 }

def newParameters (parameters : List ParameterState) (backup : ParameterBackupFile) : List Text :=
  (parameters.filter fun p => !(backup.parameters.map (·.id)).contains p.id &&
    !(isSnapshotExcludedParameterState p || isInternalUseOnlyParameter p.id)).map (·.id)

def deriveDraftValuesFromParameterBackup (parameters : List ParameterState)
    (backup : ParameterBackupFile) (excludeCategories : List ParameterImportCategory) :
    ParameterBackupImportResult :=
  let r := backup.parameters.foldl (importEntry parameters excludeCategories)
    ParameterBackupImportResult.empty
  { r with
    unknownParameterIds := sortIds localeCompare r.unknownParameterIds
    newParameterIds := sortIds localeCompare (newParameters parameters backup) }

end ArduConfigurator.Parameters
