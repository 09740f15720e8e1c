import ArduConfigurator.Parameters.Backup
import ArduConfigurator.Parameters.WriteTolerance

/-! # Parameter drafts

What becomes of a value that the operator types for a parameter: refused, unchanged, or staged for
the next write. -/
namespace ArduConfigurator.Parameters
open DecimalText PatternPart
set_option autoImplicit false

inductive ParameterDraftStatus
  | unchanged
  | staged
  | invalid

structure ParameterDraftEntry where
  id : Text
  rawValue : Text
  currentValue : Option JsNumber
  nextValue : Option JsNumber
  delta : Option JsNumber
  status : ParameterDraftStatus
  reason : Option Text
  override : Option Bool
  overridable : Option Bool

structure ParameterRange where
  minimum : Option JsNumber
  maximum : Option JsNumber
  options : Option (List JsNumber)
  bitmask : Bool

structure LiveParameter extends ParameterState where
  range : Option ParameterRange

/-! ## Gains -/

/-- `[A-Z]+` -/
def letterRests (t : Text) : List Text :=
  (List.range (t.takeWhile isUpper).length).map fun k => t.drop (k + 1)

def rateTerm : PatternPart :=
  .oneOf [units "P", units "I", units "D", units "FF", units "D_FF", units "IMAX", units "PDMX",
    units "SMAX"]

def positionTerm : PatternPart :=
  .oneOf [units "P", units "I", units "D", units "FF", units "IMAX"]

def copterAxis : PatternPart := .oneOf [units "RLL", units "PIT", units "YAW"]

def planeAxis : PatternPart := .oneOf [units "RLL", units "PTCH", units "YAW"]

/-- `PSC_[A-Z]+(_[A-Z]+)?_(P|I|D|FF|IMAX)`, whole. -/
def isPositionGain (id : Text) : Bool :=
  let one := ((lit "PSC_").rests id).flatMap letterRests
  let two := one ++ (one.flatMap (lit "_").rests).flatMap letterRests
  [] ∈ (two.flatMap (lit "_").rests).flatMap positionTerm.rests

def isNonNegativeGainParameterId (paramId : Text) : Bool :=
  testWhole paramId [lit "ATC_RAT_", copterAxis, lit "_", rateTerm] ||
    testWhole paramId [lit "ATC_ANG_", copterAxis, lit "_P"] ||
    isPositionGain paramId ||
    testWhole paramId [planeAxis, lit "_RATE_", rateTerm]

/-! ## The highest value of a bit mask -/

def maskBit (mask : ℕ) (value : JsNumber) : Option ℕ :=
  match value.toInt? with
  | some i => if i < 0 ∨ i > 30 then none else some (mask ||| 1 <<< i.toNat)
  | none => none

def bitmaskMaximum (definition : Option ParameterRange) : Option ℕ :=
  match definition with
  | some ⟨_, _, some (option :: options), true⟩ => (option :: options).foldlM maskBit 0
  | _ => none

/-! ## The draft of one parameter -/

section Draft
variable (parameter : LiveParameter) (rawValue paramId : Text) (enumOverride : Bool)

def refused (currentValue nextValue : Option JsNumber) (reason : Text) (overridable : Bool) :
    ParameterDraftEntry where
  id := paramId
  rawValue := rawValue
  currentValue := currentValue
  nextValue := nextValue
  delta := none
  status := .invalid
  reason := some reason
  override := none
  overridable := some overridable

def aboveMaximumReason (range : ParameterRange) (effectiveMaximum : JsNumber) : Text :=
  if range.maximum.isSome then
    units "Value is above the documented maximum of " ++ numberToString effectiveMaximum ++
      units "."
  else
    units "Value is above " ++ numberToString effectiveMaximum ++
      units ", the highest value these " ++ natDigits (range.options.getD []).length ++
      units " bits can represent."

/-- The check that refuses a number, with its reason and whether the operator may override it. -/
def draftRefusal (parsedValue : JsNumber) : Option (Text × Bool) :=
  let range := parameter.range.getD ⟨none, none, none, false⟩
  let effectiveMaximum :=
    range.maximum.orElse fun _ => (bitmaskMaximum parameter.range).map fun n => JsNumber.ofInt n
  if parsedValue.lt (JsNumber.ofInt 0) && isNonNegativeGainParameterId paramId then
    some (units "Gains can't be negative.", false)
  else if range.minimum.any (fun minimum => parsedValue.lt minimum) && !enumOverride then
    some (units "Value is below the documented minimum of " ++
      (range.minimum.elim [] numberToString) ++ units ".", true)
  else if effectiveMaximum.any (fun maximum => maximum.lt parsedValue) && !enumOverride then
    some (effectiveMaximum.elim [] (aboveMaximumReason range), true)
  else if range.options.any (fun options => options ≠ [] && !options.contains parsedValue) &&
      !range.bitmask && !enumOverride then
    some (units "Value is outside the known enum values for this parameter.", true)
  else none

def deriveParameterDraftEntry (parameter : Option LiveParameter) : ParameterDraftEntry :=
  match parameter with
  | none =>
    refused rawValue paramId none none
      (units "Parameter is not present in the synced snapshot.") false
  | some parameter =>
    let trimmedValue := trim rawValue
    if trimmedValue = [] then
      refused rawValue paramId (some parameter.value) none
        (units "Enter a numeric value before staging this parameter.") false
    else
      let parsedValue := toNumber trimmedValue
      if parsedValue.isFinite = false then
        refused rawValue paramId (some parameter.value) none
          (units "Only finite numeric values can be written to the controller.") false
      else
        match draftRefusal parameter paramId enumOverride parsedValue with
        | some (reason, overridable) =>
          refused rawValue paramId (some parameter.value) (some parsedValue) reason overridable
        | none =>
          if approximatelyEqualParameterValue parsedValue parameter.value
              DEFAULT_PARAMETER_WRITE_TOLERANCE then
            { id := paramId
              rawValue := rawValue
              currentValue := some parameter.value
              nextValue := some parsedValue
              delta := some (JsNumber.ofInt 0)
              status := .unchanged
              reason := some (units "Draft matches the current controller value.")
              override := none
              overridable := none }
          else
            { id := paramId
              rawValue := rawValue
              currentValue := some parameter.value
              nextValue := some parsedValue
              delta := some (parsedValue - parameter.value)
              status := .staged
              reason := none
              override := some enumOverride
              overridable := none }

end Draft
end ArduConfigurator.Parameters
