import ArduConfigurator.Lib.JsBits
import ArduConfigurator.Parameters.TextFormat

/-! # RC logic terms as parameters and drafts

A term of the table is five parameters, and its options share the bits of one of them. The view
reads the parameters through the staged drafts, and an edit is a set of further drafts. -/
namespace ArduConfigurator.ViewModels.RcLogic
set_option autoImplicit false
open Parameters DecimalText JsNumber

/-! ## Options -/

def RC_LOGIC_NUM_TERMS : ℕ := 12
def RC_LOGIC_OPT_SOURCE_TYPE_MASK : BitVec 32 := 0x3
def NEGATE_MASK : BitVec 32 := 0x8
def RC_LOGIC_OPT_LEVEL_MODE_MASK : BitVec 32 := 0x10
def RC_LOGIC_OPT_LEVEL_INDEX_SHIFT : ℕ := 5
def RC_LOGIC_OPT_LEVEL_INDEX_MASK : BitVec 32 := 0x7
def LEVEL_FIELD_MASK : BitVec 32 := 0xF0

/-- `RcLogicSourceType`. -/
def sourceRange : BitVec 32 := 0
def sourceLink : BitVec 32 := 1
def sourceCondition : BitVec 32 := 2

structure RcLogicLevelSelection where
  levelMode : Bool
  outputLevel : JsNumber

def decodeLevel (opt : JsNumber) : RcLogicLevelSelection where
  levelMode := decide (opt.toInt32 &&& RC_LOGIC_OPT_LEVEL_MODE_MASK ≠ 0)
  outputLevel := ofInt32
    (opt.toInt32.sshiftRight RC_LOGIC_OPT_LEVEL_INDEX_SHIFT &&& RC_LOGIC_OPT_LEVEL_INDEX_MASK)

/-- `Math.max(0, Math.min(RC_LOGIC_OPT_LEVEL_INDEX_MASK, Math.round(outputLevel)))`. -/
def levelIndex (outputLevel : JsNumber) : JsNumber :=
  JsNumber.max 0 (JsNumber.min (ofInt32 RC_LOGIC_OPT_LEVEL_INDEX_MASK) outputLevel.roundHalfUp)

def encodeLevel (opt : JsNumber) (levelMode : Bool) (outputLevel : JsNumber) : JsNumber :=
  let cleared := opt.toInt32 &&& ~~~LEVEL_FIELD_MASK
  if levelMode then
    ofInt32 (cleared ||| RC_LOGIC_OPT_LEVEL_MODE_MASK |||
      (levelIndex outputLevel).toInt32 <<< RC_LOGIC_OPT_LEVEL_INDEX_SHIFT)
  else ofInt32 cleared

def isRcLogicLevelSelectFunction (functionId : JsNumber) : Bool := decide (functionId.mapKey = 94)

/-! ## Terms -/

structure RcLogicTermParamIds where
  func : Text
  opt : Text
  src : Text
  min : Text
  max : Text

def rcLogicTermParamIds (term : ℕ) : RcLogicTermParamIds :=
  let name := units "RCL" ++ natDigits term ++ units "_"
  { func := name ++ units "FUNC"
    opt := name ++ units "OPT"
    src := name ++ units "SRC"
    min := name ++ units "MIN"
    max := name ++ units "MAX" }

def rcLogicAssignmentId (term : ℕ) : Text := units "rcl-" ++ natDigits term

structure RcMixerAssignment where
  id : Text
  channel : JsNumber
  functionId : JsNumber
  lowPwm : JsNumber
  highPwm : JsNumber
  inverted : Bool
  levelMode : Bool
  outputLevel : JsNumber
  deriving DecidableEq

inductive SourceKind
  | condition
  | link
  deriving DecidableEq

structure RcLogicLogicTerm where
  id : Text
  sourceType : SourceKind
  functionId : JsNumber
  sourceValue : JsNumber
  inverted : Bool
  levelMode : Bool
  outputLevel : JsNumber
  deriving DecidableEq

structure RcLogicModel where
  enabled : Bool
  assignments : List RcMixerAssignment
  logicTerms : List RcLogicLogicTerm
  freeTermIndex : Option ℕ

abbrev ParameterValues := List (Text × JsNumber)
abbrev ParameterDraftValues := JsMap Text Text

section Reading
variable (parameters : ParameterValues) (drafts : ParameterDraftValues)

def liveById : JsMap Text JsNumber :=
  parameters.foldl (fun live parameter => live.set parameter.1 parameter.2) JsMap.empty

def effective (id : Text) (fallback : JsNumber) : JsNumber :=
  let live := ((liveById parameters).get id).getD fallback
  match drafts.get id with
  | none => live
  | some draft =>
    if draft = [] then live
    else if (toNumber draft).isFinite then toNumber draft else fallback

def ADD_DEFAULT_LOW : JsNumber := 1700
def ADD_DEFAULT_HIGH : JsNumber := 2100

inductive Slot
  | free
  | range (assignment : RcMixerAssignment)
  | logic (term : RcLogicLogicTerm)
  deriving DecidableEq

def touched (term : ℕ) : Bool :=
  let ids := rcLogicTermParamIds term
  !(effective parameters drafts ids.func 0).equal 0 || drafts.has ids.func || drafts.has ids.opt ||
    drafts.has ids.src || drafts.has ids.min || drafts.has ids.max

def readTerm (term : ℕ) : Slot :=
  let ids := rcLogicTermParamIds term
  let func := effective parameters drafts ids.func 0
  let opt := effective parameters drafts ids.opt 0
  if touched parameters drafts term then
    let sourceType := opt.toInt32 &&& RC_LOGIC_OPT_SOURCE_TYPE_MASK
    let level := decodeLevel opt
    if sourceType = sourceRange then
      .range
        { id := rcLogicAssignmentId term
          channel := effective parameters drafts ids.src 0
          functionId := func
          lowPwm := effective parameters drafts ids.min ADD_DEFAULT_LOW
          highPwm := effective parameters drafts ids.max ADD_DEFAULT_HIGH
          inverted := decide (opt.toInt32 &&& NEGATE_MASK ≠ 0)
          levelMode := level.levelMode
          outputLevel := level.outputLevel }
    else
      .logic
        { id := rcLogicAssignmentId term
          sourceType := if sourceType = sourceLink then .link else .condition
          functionId := func
          sourceValue := effective parameters drafts ids.src 0
          inverted := decide (opt.toInt32 &&& NEGATE_MASK ≠ 0)
          levelMode := level.levelMode
          outputLevel := level.outputLevel }
  else .free

def Slot.range? : Slot → Option RcMixerAssignment
  | range assignment => some assignment
  | _ => none

def Slot.logic? : Slot → Option RcLogicLogicTerm
  | logic term => some term
  | _ => none

def terms : List ℕ := List.range' 1 RC_LOGIC_NUM_TERMS

def readRcLogicModel : RcLogicModel where
  enabled := (effective parameters drafts (units "RCL_ENABLE") 0).equal 1
  assignments := (terms.map (readTerm parameters drafts)).filterMap Slot.range?
  logicTerms := (terms.map (readTerm parameters drafts)).filterMap Slot.logic?
  freeTermIndex := terms.find? fun term => decide (readTerm parameters drafts term = .free)

end Reading

/-! ## Edits -/

/-- `if (value !== undefined) next[id] = …`. -/
def stage (next : ParameterDraftValues) (id : Text) (value : Option JsNumber) :
    ParameterDraftValues :=
  match value with
  | some x => next.set id (numberToString x)
  | none => next

def rcLogicAddDrafts (model : RcLogicModel) (channel : JsNumber) : Option ParameterDraftValues :=
  model.freeTermIndex.map fun term =>
    let ids := rcLogicTermParamIds term
    ((((JsMap.empty.set ids.func (units "0")).set ids.opt (units "0")).set ids.src
      (numberToString channel)).set ids.min (numberToString ADD_DEFAULT_LOW)).set ids.max
        (numberToString ADD_DEFAULT_HIGH)

def rcLogicAddLogicTermDrafts (model : RcLogicModel) : Option ParameterDraftValues :=
  model.freeTermIndex.map fun term =>
    let ids := rcLogicTermParamIds term
    ((JsMap.empty.set ids.func (units "0")).set ids.opt
      (numberToString (ofInt32 sourceCondition))).set ids.src (units "0")

structure AssignmentPatch where
  channel : Option JsNumber
  functionId : Option JsNumber
  lowPwm : Option JsNumber
  highPwm : Option JsNumber
  inverted : Option Bool
  levelMode : Option Bool
  outputLevel : Option JsNumber

structure LogicTermPatch where
  sourceType : Option SourceKind
  functionId : Option JsNumber
  sourceValue : Option JsNumber
  inverted : Option Bool
  levelMode : Option Bool
  outputLevel : Option JsNumber

/-- `patch.functionId !== undefined && !isRcLogicLevelSelectFunction(patch.functionId)`. -/
def clearsLevel (functionId : Option JsNumber) : Bool :=
  functionId.any fun x => !isRcLogicLevelSelectFunction x

def negated (opt : JsNumber) : Option Bool → JsNumber
  | some true => ofInt32 (opt.toInt32 ||| NEGATE_MASK)
  | some false => ofInt32 (opt.toInt32 &&& ~~~NEGATE_MASK)
  | none => opt

/-- The level part of an edit, for an option value that was `current` before the edit. -/
def levelled (current opt : JsNumber) (levelMode : Option Bool) (outputLevel : Option JsNumber)
    (clears : Bool) : JsNumber :=
  let existing := decodeLevel current
  if levelMode.isSome || outputLevel.isSome then
    encodeLevel opt (levelMode.getD existing.levelMode) (outputLevel.getD existing.outputLevel)
  else if clears then encodeLevel opt false 0
  else opt

/-- `if (opt !== current) next[ids.opt] = String(opt)`. -/
def stageOpt (next : ParameterDraftValues) (id : Text) (current opt : JsNumber) :
    ParameterDraftValues :=
  if opt.equal current then next else next.set id (numberToString opt)

def rcLogicUpdateDrafts (parameters : ParameterValues) (drafts : ParameterDraftValues) (term : ℕ)
    (patch : AssignmentPatch) : ParameterDraftValues :=
  let ids := rcLogicTermParamIds term
  let next := stage (stage (stage (stage JsMap.empty ids.func patch.functionId) ids.src
    patch.channel) ids.min (patch.lowPwm.map roundHalfUp)) ids.max (patch.highPwm.map roundHalfUp)
  let levelTouched := patch.levelMode.isSome || patch.outputLevel.isSome
  if patch.inverted.isSome || levelTouched || clearsLevel patch.functionId then
    let current := effective parameters drafts ids.opt 0
    stageOpt next ids.opt current
      (levelled current (negated current patch.inverted) patch.levelMode patch.outputLevel
        (clearsLevel patch.functionId))
  else next

def SourceKind.bits : SourceKind → BitVec 32
  | link => sourceLink
  | condition => sourceCondition

def retyped (opt : JsNumber) : Option SourceKind → JsNumber
  | some kind => ofInt32 (opt.toInt32 &&& ~~~RC_LOGIC_OPT_SOURCE_TYPE_MASK ||| kind.bits)
  | none => opt

def rcLogicUpdateLogicTermDrafts (parameters : ParameterValues) (drafts : ParameterDraftValues)
    (term : ℕ) (patch : LogicTermPatch) : ParameterDraftValues :=
  let ids := rcLogicTermParamIds term
  let source := if patch.sourceValue.isSome then patch.sourceValue
    else patch.sourceType.map fun _ => 0
  let next := stage (stage JsMap.empty ids.func patch.functionId) ids.src source
  let optTouched := patch.sourceType.isSome || patch.inverted.isSome || patch.levelMode.isSome ||
    patch.outputLevel.isSome || clearsLevel patch.functionId
  if optTouched then
    let current := effective parameters drafts ids.opt (ofInt32 sourceCondition)
    stageOpt next ids.opt current
      (levelled current (negated (retyped current patch.sourceType) patch.inverted)
        patch.levelMode patch.outputLevel (clearsLevel patch.functionId))
  else next

/-- `{ ...drafts, ...next }`. -/
def mergeDrafts (drafts next : ParameterDraftValues) : ParameterDraftValues :=
  next.entries.foldl (fun merged entry => merged.set entry.1 entry.2) drafts

end ArduConfigurator.ViewModels.RcLogic
