import ArduConfigurator.PlotCore.Expression
import ArduConfigurator.Lib.JsArithmetic
import Mathlib.Data.Int.Bitwise
import ArduConfigurator.Lib.Entries

/-! # Values and functions of graph expressions

`types.ts`, the operators of `expression.ts`, and `functions.ts`: Python's `math` module and the
helpers of MAVExplorer. An object and an array are themselves and no other object with the same
members. A function may throw, and what it has stored in the state of its term before that stays
there. -/
namespace ArduConfigurator.PlotCore
open DecimalText (numberToString)
open JsNumber (lt le)
set_option autoImplicit false

/-! ## Values -/

section
open JsNumber (ofInt)

/-- What a message's field can hold and an expression can produce. The identity of an object that
a function has built is not kept: no other value is that object. -/
inductive Value
  | undefined
  | null
  | bool (value : Bool)
  | bigint (value : ℤ)
  | num (value : JsNumber)
  | str (value : Text)
  | function (identity : ℕ)
  | array (identity : ℕ) (elements : List Value)
  | object (identity : Option ℕ) (member : Text → Value)

structure MessageRecord where
  identity : ℕ
  member : Text → Value

def MessageRecord.value (record : MessageRecord) : Value :=
  .object (some record.identity) record.member

namespace Value

def ofBool (b : Bool) : Value := .num (if b then 1 else 0)

def ofOption : Option JsNumber → Value
  | some x => .num x
  | none => .undefined

def isUndefined : Value → Bool
  | .undefined => true
  | _ => false

def truthy : Value → Bool
  | .undefined => false
  | .num x => !x.equal 0 && x ≠ .nan
  | .str s => s ≠ []
  | .array _ elements => !elements.isEmpty
  | _ => true

/-- `a === b`. -/
def strictEquals : Value → Value → Bool
  | .undefined, .undefined => true
  | .null, .null => true
  | .bool a, .bool b => a = b
  | .bigint a, .bigint b => a = b
  | .num a, .num b => a.equal b
  | .str a, .str b => a = b
  | .function i, .function j => i = j
  | .array i _, .array j _ => i = j
  | .object (some i) _, .object (some j) _ => i = j
  | _, _ => false

def plain : Value → Value
  | .function _ => .undefined
  | value => value

def members : Value → Option (Text → Value)
  | .object _ member => some member
  | _ => none

end Value

/-- What the language leaves to its engine: the functions of `Math` that are approximated, which
integers are too large to be built, and the texts of objects, where they have one. -/
structure Engine where
  power : JsNumber → JsNumber → JsNumber
  sqrt : JsNumber → JsNumber
  sin : JsNumber → JsNumber
  cos : JsNumber → JsNumber
  tan : JsNumber → JsNumber
  asin : JsNumber → JsNumber
  acos : JsNumber → JsNumber
  atan : JsNumber → JsNumber
  sinh : JsNumber → JsNumber
  cosh : JsNumber → JsNumber
  tanh : JsNumber → JsNumber
  exp : JsNumber → JsNumber
  log : JsNumber → JsNumber
  log10 : JsNumber → JsNumber
  log2 : JsNumber → JsNumber
  atan2 : JsNumber → JsNumber → JsNumber
  hypot : List JsNumber → JsNumber
  shiftLeft : ℤ → ℕ → Option ℤ
  stringify : Value → Option Text

variable (engine : Engine)

def pyMod (a b : JsNumber) : Option JsNumber :=
  if b.equal 0 then none
  else
    let r := a % b
    some (if !r.equal 0 && r.lt 0 != b.lt 0 then r + b else r)

/-- Python's operators on integers. The engine throws where the result is too large. -/
def bitwise (op : BinaryOp) (a b : JsNumber) : Except Unit (Option JsNumber) :=
  match a.toInt?, b.toInt? with
  | some x, some y =>
    match op with
    | .bitAnd => .ok (some (ofInt (Int.land x y)))
    | .bitOr => .ok (some (ofInt (Int.lor x y)))
    | .bitXor => .ok (some (ofInt (Int.xor x y)))
    | .shiftLeft =>
      if y < 0 then .ok none
      else
        match engine.shiftLeft x y.toNat with
        | some z => .ok (some (ofInt z))
        | none => .error ()
    | .shiftRight => .ok (if y < 0 then none else some (ofInt (x / 2 ^ y.toNat)))
    | _ => .ok none
  | _, _ => .ok none

def binaryNumbers (op : BinaryOp) (a b : JsNumber) : Except Unit Value :=
  match op with
  | .add => .ok (.num (a + b))
  | .sub => .ok (.num (a - b))
  | .mul => .ok (.num (a * b))
  | .div => .ok (if b.equal 0 then .undefined else .num (a / b))
  | .floorDiv => .ok (if b.equal 0 then .undefined else .num (a / b).floor)
  | .mod => .ok (.ofOption (pyMod a b))
  | .pow => .ok (if a.equal 0 && b.lt 0 then .undefined else .num (engine.power a b))
  | .eq => .ok (.ofBool (a.equal b))
  | .ne => .ok (.ofBool !a.equal b)
  | .lt => .ok (.ofBool (a.lt b))
  | .le => .ok (.ofBool (a.le b))
  | .gt => .ok (.ofBool (b.lt a))
  | .ge => .ok (.ofBool (b.le a))
  | op => (bitwise engine op a b).map .ofOption

def binaryTexts (op : BinaryOp) (a b : Text) : Value :=
  match op with
  | .add => .str (a ++ b)
  | .eq => .ofBool (a = b)
  | .ne => .ofBool (a ≠ b)
  | .lt => .ofBool (a < b)
  | .le => .ofBool (a ≤ b)
  | .gt => .ofBool (b < a)
  | .ge => .ofBool (b ≤ a)
  | _ => .undefined

def binary (op : BinaryOp) : Value → Value → Except Unit Value
  | .num a, .num b => binaryNumbers engine op a b
  | .str a, .str b => .ok (binaryTexts op a b)
  | a, b =>
    .ok <|
      if !a.isUndefined && !b.isUndefined then
        match op with
        | .eq => .ofBool (a.strictEquals b)
        | .ne => .ofBool !a.strictEquals b
        | _ => .undefined
      else .undefined

def unary (op : UnaryOp) (value : Value) : Value :=
  match op with
  | .neg =>
    match value with
    | .num x => .num (-x)
    | _ => .undefined
  | .plus =>
    match value with
    | .num x => .num x
    | _ => .undefined
  | .invert =>
    match value with
    | .num x => if x.isInteger then .num (-x - 1) else .undefined
    | _ => .undefined
  | .not => .ofBool !value.truthy

/-- Where the index `i` of that many elements is; a negative one counts from the end. -/
def place (length : ℕ) (i : ℤ) : Option ℕ :=
  let place := if i < 0 then length + i else i
  if 0 ≤ place then some place.toNat else none

/-- `value[i]` of a text or an array. -/
def elementAt (value : Value) (i : ℤ) : Value :=
  match value with
  | .array _ elements => ((place elements.length i).bind (elements[·]?)).getD .undefined
  | .str text => ((place text.length i).bind (text[·]?)).elim .undefined fun c => .str [c]
  | _ => .undefined

end

/-! ## Functions -/

inductive StateValue
  | num (value : JsNumber)
  | nums (values : List JsNumber)
  | record (member : Text → Value)

abbrev FilterState := JsMap Text StateValue

/-- What an expression reads from when it is evaluated, its state apart. -/
structure EvalEnv where
  message : Text → Option JsNumber → Option MessageRecord
  timestamp : Text → Option JsNumber → Option JsNumber
  param : Text → Option JsNumber
  time : Option JsNumber

abbrev Call := ExceptT Unit (StateM FilterState)

abbrev ExpressionFunction := List Value → EvalEnv → Call Value

/-! ## Helpers -/

structure Vec3 where
  x : JsNumber
  y : JsNumber
  z : JsNumber

def Vec3.value (v : Vec3) : Value :=
  .object none fun field =>
    if field = units "x" then .num v.x
    else if field = units "y" then .num v.y
    else if field = units "z" then .num v.z
    else .undefined

abbrev Members := Text → Value

def PI : JsNumber := 3.141592653589793

def DEG : JsNumber := 180 / PI

def RAD : JsNumber := PI / 180

def degrees (x : JsNumber) : JsNumber := x * DEG

def radians (x : JsNumber) : JsNumber := x * RAD

def wrap180 (angle : JsNumber) : JsNumber :=
  let angle := if lt 180 angle then angle - 360 else angle
  if lt angle (-180) then angle + 360 else angle

def wrap360 (angle : JsNumber) : JsNumber :=
  let angle := if lt 360 angle then angle - 360 else angle
  if lt angle 0 then angle + 360 else angle

def num : Value → Option JsNumber
  | .num x => some x
  | _ => none

/-- `args[i]`. -/
def argument (args : List Value) (i : ℕ) : Value := args.getD i .undefined

def nums (args : List Value) (count : ℕ) : Option (List JsNumber) :=
  if args.length < count then none else (args.take count).mapM num

def record (value : Value) : Option Members := value.members

/-- Python's `hasattr`. -/
def has (msg : Members) (field : Text) : Bool := !(msg field).isUndefined

/-- `f`: a numeric field, or the call throws. -/
def numeric (msg : Members) (field : Text) : Call JsNumber :=
  match msg field with
  | .num value => pure value
  | _ => throw ()

variable (engine : Engine)

def square (x : JsNumber) : JsNumber := engine.power x 2

def stateKey (fn : Text) (key : Value) : Call Text :=
  match key with
  | .num x => pure (fn ++ units ":" ++ numberToString x)
  | .str s => pure (fn ++ units ":" ++ s)
  | _ =>
    match engine.stringify key with
    | some text => pure (fn ++ units ":" ++ text)
    | none => throw ()

/-! ## Rotations -/

structure Matrix3 where
  m0 : JsNumber
  m1 : JsNumber
  m2 : JsNumber
  m3 : JsNumber
  m4 : JsNumber
  m5 : JsNumber
  m6 : JsNumber
  m7 : JsNumber
  m8 : JsNumber

def fromEuler (roll pitch yaw : JsNumber) : Matrix3 :=
  let cp := engine.cos pitch
  let sp := engine.sin pitch
  let sr := engine.sin roll
  let cr := engine.cos roll
  let sy := engine.sin yaw
  let cy := engine.cos yaw
  ⟨cp * cy, sr * sp * cy - cr * sy, cr * sp * cy + sr * sy,
    cp * sy, sr * sp * sy + cr * cy, cr * sp * sy - sr * cy,
    -sp, sr * cp, cr * cp⟩

def mul (m : Matrix3) (v : Vec3) : Vec3 :=
  ⟨m.m0 * v.x + m.m1 * v.y + m.m2 * v.z, m.m3 * v.x + m.m4 * v.y + m.m5 * v.z,
    m.m6 * v.x + m.m7 * v.y + m.m8 * v.z⟩

def mulTransposed (m : Matrix3) (v : Vec3) : Vec3 :=
  ⟨m.m0 * v.x + m.m3 * v.y + m.m6 * v.z, m.m1 * v.x + m.m4 * v.y + m.m7 * v.z,
    m.m2 * v.x + m.m5 * v.y + m.m8 * v.z⟩

def rotationDegrees (att : Members) : Call Matrix3 := do
  let roll ← numeric att (units "Roll")
  let pitch ← numeric att (units "Pitch")
  let yaw ← numeric att (units "Yaw")
  return fromEuler engine (radians roll) (radians pitch) (radians yaw)

def rotation (att : Members) : Call Matrix3 := do
  if has att (units "roll") then
    let roll ← numeric att (units "roll")
    let pitch ← numeric att (units "pitch")
    let yaw ← numeric att (units "yaw")
    return fromEuler engine roll pitch yaw
  rotationDegrees engine att

def headingFromDcm (mx my mz : JsNumber) (dcm : Matrix3) (declinationDeg : JsNumber) : JsNumber :=
  let cx := dcm.m6
  let cy := dcm.m7
  let cz := dcm.m8
  let cosPitchSq := 1 - cx * cx
  let headY := my * cz - mz * cy
  let headX := mx * cosPitchSq - cx * (my * cy + mz * cz)
  let heading := degrees (engine.atan2 (-headY) headX) + declinationDeg
  if lt heading 0 then heading + 360 else heading

/-! ## The earth's magnetic field -/

def SAMPLING_RES : JsNumber := 10
def SAMPLING_MIN_LAT : JsNumber := -90
def SAMPLING_MAX_LAT : JsNumber := 90
def SAMPLING_MIN_LON : JsNumber := -180
def SAMPLING_MAX_LON : JsNumber := 180

structure MagFieldTables where
  declination : List (List JsNumber)
  inclination : List (List JsNumber)
  intensity : List (List JsNumber)

variable (tables : MagFieldTables)

/-- `list[i]`. -/
def elementOf {α : Type} (list : List α) (i : JsNumber) : Option α :=
  i.toInt?.bind fun at_ => if 0 ≤ at_ then list[at_.toNat]? else none

/-- `table[row][column]`: a missing row throws, a missing number is not one. -/
def cell (table : List (List JsNumber)) (row column : JsNumber) : Call JsNumber :=
  match elementOf table row with
  | some numbers => pure ((elementOf numbers column).getD .nan)
  | none => throw ()

def interpolateTable (table : List (List JsNumber)) (latDeg lonDeg : JsNumber) :
    Call JsNumber := do
  let minLat := ((latDeg / SAMPLING_RES).floor * SAMPLING_RES).trunc
  let minLon := ((lonDeg / SAMPLING_RES).floor * SAMPLING_RES).trunc
  let latIndex := ((-SAMPLING_MIN_LAT + minLat).floor / SAMPLING_RES).trunc
  let lonIndex := ((-SAMPLING_MIN_LON + minLon).floor / SAMPLING_RES).trunc
  let sw ← cell table latIndex lonIndex
  let se ← cell table latIndex (lonIndex + 1)
  let ne ← cell table (latIndex + 1) (lonIndex + 1)
  let nw ← cell table (latIndex + 1) lonIndex
  let dataMin := ((lonDeg - minLon) / SAMPLING_RES) * (se - sw) + sw
  let dataMax := ((lonDeg - minLon) / SAMPLING_RES) * (ne - nw) + nw
  return ((latDeg - minLat) / SAMPLING_RES) * (dataMax - dataMin) + dataMin

def magFieldEf (latDeg lonDeg : JsNumber) : Call (Option (JsNumber × JsNumber × JsNumber)) := do
  if lt latDeg SAMPLING_MIN_LAT || le SAMPLING_MAX_LAT latDeg then return none
  if lt lonDeg SAMPLING_MIN_LON || le SAMPLING_MAX_LON lonDeg then return none
  let declination ← interpolateTable tables.declination latDeg lonDeg
  let inclination ← interpolateTable tables.inclination latDeg lonDeg
  let intensity ← interpolateTable tables.intensity latDeg lonDeg
  return some (declination, inclination, intensity)

def latLonStatus (gps : Members) : Call (JsNumber × JsNumber × JsNumber) := do
  if has gps (units "fix_type") then
    let lat ← numeric gps (units "lat")
    let lon ← numeric gps (units "lon")
    let status ← numeric gps (units "fix_type")
    return (lat * 1e-7, lon * 1e-7, status)
  let lat ← numeric gps (units "Lat")
  let lon ← numeric gps (units "Lng")
  let status ← numeric gps (units "Status")
  return (lat, lon, status)

def expectedEarthFieldLatLon (lat lon : JsNumber) : Call (Option Vec3) := do
  match ← magFieldEf tables lat lon with
  | none => return none
  | some (declination, inclination, intensity) =>
    return some (mul (fromEuler engine 0 (-radians inclination) (radians declination))
      ⟨intensity * 1000, 0, 0⟩)

def expectedEarthField (gps : Members) : Call (Option Vec3) := do
  let (lat, lon, status) ← latLonStatus gps
  if lt status 3 then return some ⟨0, 0, 0⟩
  expectedEarthFieldLatLon engine tables lat lon

def magYaw (gps att mag : Members) : Call (Option JsNumber) := do
  let (lat, lon, _) ← latLonStatus gps
  match ← magFieldEf tables lat lon with
  | none => return none
  | some (declination, _, _) =>
    let dcm ← rotationDegrees engine att
    let x ← numeric mag (units "MagX")
    let y ← numeric mag (units "MagY")
    let z ← numeric mag (units "MagZ")
    return some (headingFromDcm engine x y z dcm declination)

/-! ## Positions -/

/-- The position in the fields `lat`, `lon` and `alt` of a record, times their scales. -/
def positionOf (msg : Members) (lat lon alt : Text)
    (angle : JsNumber → JsNumber) (height : JsNumber → JsNumber) :
    Call (JsNumber × JsNumber × JsNumber) := do
  let lat ← numeric msg lat
  let lon ← numeric msg lon
  let alt ← numeric msg alt
  return (angle lat, angle lon, height alt)

def latLonAlt (msg : Members) : Call (Option (JsNumber × JsNumber × JsNumber)) := do
  let millimetres (x : JsNumber) : JsNumber := x * 0.001
  if has msg (units "Lat") && has msg (units "Lng") then
    some <$> positionOf msg (units "Lat") (units "Lng") (units "Alt") radians id
  else if has msg (units "Lat") && has msg (units "Lon") then
    some <$> positionOf msg (units "Lat") (units "Lon") (units "Alt") radians id
  else if has msg (units "cog") then
    some <$> positionOf msg (units "lat") (units "lon") (units "alt")
      (fun x => radians x * 1e-7) millimetres
  else if has msg (units "lat") && has msg (units "lon") then
    some <$> positionOf msg (units "lat") (units "lon") (units "alt") radians millimetres
  else if has msg (units "lat") && has msg (units "lng") then
    some <$> positionOf msg (units "lat") (units "lng") (units "alt") radians millimetres
  else return none

def distanceTwo (a b : Members) : Call Value := do
  let p1 ← latLonAlt a
  let p2 ← latLonAlt b
  match p1, p2 with
  | some (lat1, lon1, _), some (lat2, lon2, _) =>
    let dLat := lat2 - lat1
    let dLon := lon2 - lon1
    let h := square engine (engine.sin (0.5 * dLat)) +
      square engine (engine.sin (0.5 * dLon)) * engine.cos lat1 * engine.cos lat2
    return .num (6371 * 1000 * 2 * engine.atan2 (engine.sqrt h) (engine.sqrt (1 - h)))
  | _, _ => return .undefined

/-! ## Filters -/

def getNum (key : Text) : Call (Option JsNumber) := do
  match (← MonadState.get).get key with
  | some (.num x) => return some x
  | _ => return none

def getNums (key : Text) : Call (Option (List JsNumber)) := do
  match (← MonadState.get).get key with
  | some (.nums xs) => return some xs
  | _ => return none

def setState (key : Text) (value : StateValue) : Call Unit :=
  modify fun state => state.set key value

/-- The rate of `v` since it was last seen at another time. -/
def rateSince (key : Text) (v tnow : JsNumber) (difference : JsNumber → JsNumber) :
    Call (Option JsNumber) := do
  match ← getNums key with
  | some [lastV, lastT, lastRet] =>
    if lastT.equal tnow then return some lastRet
    let ret := difference (v - lastV) / (tnow - lastT)
    setState key (.nums [v, tnow, ret])
    return some ret
  | _ =>
    setState key (.nums [v, tnow, 0])
    return some 0

def deltaImpl (time : Option JsNumber) (key : Text) (v : JsNumber) (tusec : Option JsNumber) :
    Call (Option JsNumber) := do
  if v = .nan then return none
  match tusec.elim time fun t => some (t * 1e-6) with
  | none => return none
  | some tnow => rateSince key v tnow id

/-- The filters `lowpass` and `lowpassHz`. -/
def smooth (key : Text) (v factor : JsNumber) : Call Value := do
  let next := ((← getNum key).elim v) fun prev => factor * prev + (1 - factor) * v
  setState key (.num next)
  return .num next

def lpalphaOf (sampleRateHz cutoffHz : JsNumber) : JsNumber :=
  let rc := 1 / (2 * PI * cutoffHz)
  let dt := 1 / sampleRateHz
  1 - dt / (dt + rc)

/-! ## The table -/

def MATH1 : Entries Text (JsNumber → JsNumber) :=
  [(units "degrees", degrees), (units "radians", radians), (units "sqrt", engine.sqrt),
    (units "sin", engine.sin), (units "cos", engine.cos), (units "tan", engine.tan),
    (units "asin", engine.asin), (units "acos", engine.acos), (units "atan", engine.atan),
    (units "sinh", engine.sinh), (units "cosh", engine.cosh), (units "tanh", engine.tanh),
    (units "exp", engine.exp), (units "log10", engine.log10), (units "log2", engine.log2),
    (units "floor", JsNumber.floor), (units "ceil", JsNumber.ceil), (units "trunc", JsNumber.trunc),
    (units "fabs", JsNumber.abs), (units "abs", JsNumber.abs), (units "int", JsNumber.trunc),
    (units "float", id), (units "isnan", fun x => if x = .nan then 1 else 0),
    (units "isinf", fun x => if x = .infinite false ∨ x = .infinite true then 1 else 0),
    (units "kmh", (· * 3.6)), (units "feet", (· * 3.2808)), (units "knots", (· * 1.94384449)),
    (units "wrap_180", wrap180), (units "wrap_360", wrap360)]

def pureFunction (f : List Value → Value) : ExpressionFunction := fun args _ => pure (f args)

def math1Function (f : JsNumber → JsNumber) : ExpressionFunction :=
  pureFunction fun args => .ofOption ((num (argument args 0)).map f)

def numbersFunction (count : ℕ) (f : List JsNumber → Value) : ExpressionFunction :=
  pureFunction fun args => (nums args count).elim .undefined f

def variadicFunction (f : List JsNumber → Value) : ExpressionFunction :=
  pureFunction fun args => (nums args args.length).elim .undefined f

def recordFunction (f : Members → List Value → Call Value) : ExpressionFunction := fun args _ =>
  match record (argument args 0) with
  | none => pure .undefined
  | some msg => f msg args

def recordsFunction (f : Members → Members → List Value → Call Value) : ExpressionFunction :=
  fun args _ =>
    match record (argument args 0), record (argument args 1) with
    | some first, some second => f first second args
    | _, _ => pure .undefined

def fmod : List JsNumber → Value
  | [x, y] => if y.equal 0 then .undefined else .num (x % y)
  | _ => .undefined

def copysign : List JsNumber → Value
  | [x, y] => .num (x.abs * if lt y 0 || y = .finite true 0 then -1 else 1)
  | _ => .undefined

def log (args : List Value) : Value :=
  match num (argument args 0) with
  | none => .undefined
  | some x =>
    if args.length < 2 then .num (engine.log x)
    else .ofOption ((num (argument args 1)).map fun base => engine.log x / engine.log base)

def round (args : List Value) : Value :=
  match num (argument args 0) with
  | none => .undefined
  | some x =>
    let digits := (num (argument args 1)).getD 0
    let scale := engine.power 10 digits
    let scaled := x * scale
    let r := scaled.roundHalfUp
    .num ((if (scaled % 1).abs.equal 0.5 && !(r % 2).equal 0 then r - 1 else r) / scale)

def constrain : List JsNumber → Value
  | [x, lower, upper] => .num ((x.max lower).min upper)
  | _ => .undefined

/-! Barometric altitude from the pressure and the parameter of the ground's. -/

def groundPressure (param : Text → Option JsNumber) (explicit : Value) : Option JsNumber :=
  ((num explicit).or (param (units "GND_ABS_PRESS"))).or (param (units "BARO1_GND_PRESS"))

def groundTemp (param : Text → Option JsNumber) (args : List Value) : JsNumber :=
  (((num (argument args 2)).or (param (units "GND_TEMP"))).getD 0) + 273.15

def altitudeFunction (height : JsNumber → JsNumber → JsNumber → JsNumber) : ExpressionFunction :=
  fun args env =>
    match record (argument args 0) with
    | none => pure .undefined
    | some msg =>
      match groundPressure env.param (argument args 1) with
      | none => pure (.num 0)
      | some ground => do
        let pressure ← numeric msg (units "press_abs")
        return .num (height ground (groundTemp env.param args) (pressure * 100))

def fieldLength (scale : JsNumber → JsNumber) (x y z : Text) (msg : Members) : Call Value := do
  let x ← numeric msg x
  let y ← numeric msg y
  let z ← numeric msg z
  return .num (engine.sqrt (square engine (scale x) + square engine (scale y) +
    square engine (scale z)))

def gravity (imu : Members) : Call Value :=
  if has imu (units "xacc") then
    fieldLength engine (· * (9.81 / 1000)) (units "xacc") (units "yacc") (units "zacc") imu
  else fieldLength engine id (units "AccX") (units "AccY") (units "AccZ") imu

def declinationOf (param : Text → Option JsNumber) (args : List Value) : JsNumber :=
  (num (argument args 2)).getD (degrees ((param (units "COMPASS_DEC")).getD 0))

def headingFunction (x y z : Text) (rotate : Members → Call Matrix3) : ExpressionFunction :=
  fun args env =>
    match record (argument args 0), record (argument args 1) with
    | some mag, some att => do
      let x ← numeric mag x
      let y ← numeric mag y
      let z ← numeric mag z
      let dcm ← rotate att
      return .num (headingFromDcm engine x y z dcm (declinationOf env.param args))
    | _, _ => pure .undefined

/-- `args[i]` where it is a number, else none is added. -/
def offset (args : List Value) (i : ℕ) : JsNumber := (num (argument args i)).getD 0

def expectedMag (gps att : Members) (args : List Value) : Call Value := do
  match ← expectedEarthField engine tables gps with
  | none => return .undefined
  | some earth =>
    let (roll, pitch, yaw) ← (show Call (JsNumber × JsNumber × JsNumber) from do
      if has att (units "roll") then
        let roll ← numeric att (units "roll")
        let pitch ← numeric att (units "pitch")
        let yaw ← numeric att (units "yaw")
        return (degrees roll + offset args 2, degrees pitch + offset args 3,
          degrees yaw + offset args 4)
      let roll ← numeric att (units "Roll")
      let pitch ← numeric att (units "Pitch")
      let yaw ← numeric att (units "Yaw")
      return (roll + offset args 2, pitch + offset args 3, yaw + offset args 4))
    return (mulTransposed (fromEuler engine (radians roll) (radians pitch) (radians yaw)) earth).value

def magYawFunction : ExpressionFunction := fun args _ =>
  match record (argument args 0), record (argument args 1), record (argument args 2) with
  | some gps, some att, some mag => Value.ofOption <$> magYaw engine tables gps att mag
  | _, _, _ => pure .undefined

def expectedMagYaw : ExpressionFunction := fun args _ =>
  match record (argument args 0), record (argument args 1), record (argument args 2) with
  | some gps, some att, some mag => do
    let earth ← expectedEarthField engine tables gps
    let yaw ← magYaw engine tables gps att mag
    match earth, yaw with
    | some earth, some yaw =>
      let roll ← numeric att (units "Roll")
      let pitch ← numeric att (units "Pitch")
      return (mulTransposed (fromEuler engine (radians (roll + offset args 3))
        (radians (pitch + offset args 4)) (radians yaw)) earth).value
    | _, _ => return .undefined
  | _, _, _ => pure .undefined

def earthFieldError (gps nkf : Members) : Call Value := do
  match ← expectedEarthField engine tables gps with
  | none => return .undefined
  | some earth =>
    let n ← numeric nkf (units "MN")
    let e ← numeric nkf (units "ME")
    let d ← numeric nkf (units "MD")
    return (Vec3.mk (n - earth.x) (e - earth.y) (d - earth.z)).value

def unfixed (gps : Members) (field : Text) : Call Bool := do
  if has gps field then return lt (← numeric gps field) 2
  return false

def HOME : Text := units "distance_home:first"

def distanceHome (gps : Members) : Call Value := do
  if ← unfixed gps (units "fix_type") then return .num 0
  if ← unfixed gps (units "Status") then return .num 0
  match (← MonadState.get).get HOME with
  | some (.record first) => distanceTwo engine gps first
  | _ =>
    setState HOME (.record gps)
    return .num 0

def lowpass : ExpressionFunction := fun args _ =>
  match num (argument args 0), num (argument args 2) with
  | some v, some factor => do
    if v = .nan then return .undefined
    smooth (← stateKey engine (units "lowpass") (argument args 1)) v factor
  | _, _ => pure .undefined

def lowpassHz : ExpressionFunction := fun args _ =>
  match num (argument args 0), nums (args.drop 2) 2 with
  | some v, some [sampleRateHz, cutoffHz] => do
    smooth (← stateKey engine (units "lowpassHz") (argument args 1)) v
      (lpalphaOf sampleRateHz cutoffHz)
  | _, _ => pure .undefined

def diff : ExpressionFunction := fun args _ =>
  match num (argument args 0) with
  | none => pure .undefined
  | some v => do
    let key ← stateKey engine (units "diff") (argument args 1)
    let prev ← getNum key
    setState key (.num v)
    return .num (prev.elim 0 fun prev => v - prev)

def delta : ExpressionFunction := fun args env =>
  match num (argument args 0) with
  | none => pure .undefined
  | some v => do
    let key ← stateKey engine (units "delta") (argument args 1)
    Value.ofOption <$> deltaImpl env.time key v (num (argument args 2))

def deltaAngle : ExpressionFunction := fun args env =>
  match num (argument args 0) with
  | none => pure .undefined
  | some v => do
    let tnow := if (argument args 2).isUndefined then env.time
      else some ((num (argument args 2)).getD .nan * 1e-6)
    match tnow with
    | none => return .undefined
    | some tnow =>
      if tnow = .nan then return .undefined
      let key ← stateKey engine (units "delta") (argument args 1)
      Value.ofOption <$> rateSince key v tnow wrap180

def integral : ExpressionFunction := fun args _ =>
  match num (argument args 0), num (argument args 2) with
  | some v, some timeus => do
    let key ← stateKey engine (units "integral") (argument args 1)
    let (lastSum, lastT) := match ← getNums key with
      | some [lastSum, lastT] => (lastSum, lastT)
      | _ => (0, timeus)
    let next := lastSum + v * (timeus - lastT) * 1e-6
    setState key (.nums [next, timeus])
    return .num next
  | _, _ => pure .undefined

/-- `new Array(n)`: its length has 32 bits. -/
def arrayOf (n v : JsNumber) : Call (List JsNumber) :=
  match n.toInt? with
  | some length => if 0 ≤ length ∧ length < 2 ^ 32 then pure (List.replicate length.toNat v)
    else throw ()
  | none => throw ()

def average : ExpressionFunction := fun args _ =>
  match num (argument args 0), num (argument args 2) with
  | some v, some n => do
    if lt n 1 then return .undefined
    let key ← stateKey engine (units "average") (argument args 1)
    match ← getNums key with
    | none =>
      setState key (.nums (← arrayOf n.trunc v))
      return .num v
    | some window =>
      let window := window.tail ++ [v]
      setState key (.nums window)
      return .num (window.foldl (· + ·) 0 / n)
  | _, _ => pure .undefined

def simBodyRates (time : Option JsNumber) (sim : Members) : Call Value := do
  let tus ← numeric sim (units "TimeUS")
  let rate (key field : Text) : Call (Option JsNumber) := do
    let key ← stateKey engine (units "delta") (.str key)
    deltaImpl time key (← numeric sim field) (some tus)
  let rollRate ← rate (units "sbr") (units "Roll")
  let pitchRate ← rate (units "sbp") (units "Pitch")
  let yawRate ← rate (units "sby") (units "Yaw")
  match rollRate, pitchRate, yawRate with
  | some rollRate, some pitchRate, some yawRate =>
    let phi := radians (← numeric sim (units "Roll"))
    let theta := radians (← numeric sim (units "Pitch"))
    let phiDot := radians rollRate
    let thetaDot := radians pitchRate
    let psiDot := radians yawRate
    return (Vec3.mk (phiDot - psiDot * engine.sin theta)
      (engine.cos phi * thetaDot + engine.sin phi * psiDot * engine.cos theta)
      (engine.cos phi * psiDot * engine.cos theta - engine.sin phi * thetaDot)).value
  | _, _, _ => return .undefined

def simBodyRatesFunction : ExpressionFunction := fun args env =>
  match record (argument args 0) with
  | none => pure .undefined
  | some sim => simBodyRates engine env.time sim

def DEFINED : Entries Text ExpressionFunction :=
  [(units "atan2", numbersFunction 2 fun a => .num (engine.atan2 (a.getD 0 0) (a.getD 1 0))),
    (units "pow", numbersFunction 2 fun a => .num (engine.power (a.getD 0 0) (a.getD 1 0))),
    (units "hypot", variadicFunction fun a => .num (engine.hypot a)),
    (units "fmod", numbersFunction 2 fmod),
    (units "copysign", numbersFunction 2 copysign),
    (units "log", pureFunction (log engine)),
    (units "round", pureFunction (round engine)),
    (units "min", variadicFunction fun a =>
      if a = [] then .undefined else .num (a.foldl JsNumber.min (.infinite false))),
    (units "max", variadicFunction fun a =>
      if a = [] then .undefined else .num (a.foldl JsNumber.max (.infinite true))),
    (units "constrain", numbersFunction 3 constrain),
    (units "angle_diff", numbersFunction 2 fun a => .num (wrap180 (a.getD 0 0 - a.getD 1 0))),
    (units "altitude", altitudeFunction fun ground temp pressure =>
      engine.log (ground / pressure) * temp * 29271.267 * 0.001),
    (units "altitude2", altitudeFunction fun ground temp pressure =>
      153.8462 * temp * (1 - engine.exp (0.190259 * engine.log (pressure / ground)))),
    (units "mag_field", recordFunction fun msg _ =>
      fieldLength engine id (units "xmag") (units "ymag") (units "zmag") msg),
    (units "mag_field_df", recordFunction fun msg _ =>
      fieldLength engine id (units "MagX") (units "MagY") (units "MagZ") msg),
    (units "mag_heading", headingFunction engine (units "xmag") (units "ymag") (units "zmag")
      (rotation engine)),
    (units "mag_heading_df", headingFunction engine (units "MagX") (units "MagY") (units "MagZ")
      (rotationDegrees engine)),
    (units "expected_earth_field", recordFunction fun gps _ => do
      return ((← expectedEarthField engine tables gps).map Vec3.value).getD .undefined),
    (units "expected_mag", recordsFunction (expectedMag engine tables)),
    (units "mag_yaw", magYawFunction engine tables),
    (units "expected_mag_yaw", expectedMagYaw engine tables),
    (units "earth_field_error", recordsFunction fun gps nkf _ =>
      earthFieldError engine tables gps nkf),
    (units "gravity", recordFunction fun imu _ => gravity engine imu),
    (units "distance_two", recordsFunction fun a b _ => distanceTwo engine a b),
    (units "distance_home", recordFunction fun gps _ => distanceHome engine gps),
    (units "lowpass", lowpass engine),
    (units "lpalpha", numbersFunction 2 fun a => .num (lpalphaOf (a.getD 0 0) (a.getD 1 0))),
    (units "lowpassHz", lowpassHz engine),
    (units "diff", diff engine),
    (units "delta", delta engine),
    (units "delta_angle", deltaAngle engine),
    (units "integral", integral engine),
    (units "average", average engine),
    (units "sim_body_rates", simBodyRatesFunction engine)]

def FUNCTIONS : Entries Text ExpressionFunction :=
  ((MATH1 engine).map fun entry => (entry.1, math1Function entry.2)) ++ DEFINED engine tables

def SUPPORTED_FUNCTIONS : List Text := (FUNCTIONS engine tables).keys

def lookupFunction (name : Text) : Option ExpressionFunction := (FUNCTIONS engine tables).get name

end ArduConfigurator.PlotCore
