import ArduConfigurator.PlotCore.Evaluation

/-! # Graph evaluators

`evaluator.ts`: the store of the latest messages, the plans of a graph's terms, and the evaluator
that shares one store among them. -/
namespace ArduConfigurator.PlotCore
open JsNumber (mapKey)
open DecimalText (numberToString)
set_option autoImplicit false

/-! ## The store -/

structure Slot where
  record : MessageRecord
  time : JsNumber

structure LatestStore where
  bare : JsMap Text Slot
  instances : JsMap Text (JsMap JsNumber Slot)

namespace LatestStore

def empty : LatestStore := ⟨.empty, .empty⟩

def put (store : LatestStore) (name : Text) (record : MessageRecord) (time : JsNumber)
    (inst : Option JsNumber) : LatestStore :=
  let bare := store.bare.set name ⟨record, time⟩
  match inst with
  | none => { store with bare }
  | some i =>
    let byInstance := (store.instances.get name).getD .empty
    ⟨bare, store.instances.set name (byInstance.set i.mapKey ⟨record, time⟩)⟩

def get (store : LatestStore) (name : Text) (inst : Option JsNumber) : Option Slot :=
  match inst with
  | none => store.bare.get name
  | some i => (store.instances.get name).bind (·.get i.mapKey)

variable {name : Text}

theorem get_put_ne {other : Text} (h : other ≠ name) (store : LatestStore) (record : MessageRecord)
    (time : JsNumber) (inst inst' : Option JsNumber) :
    (store.put name record time inst).get other inst' = store.get other inst' := by
  cases inst <;> cases inst' <;> simp [put, get, h]

variable {inst : Option JsNumber}

theorem get_put_instance {i : JsNumber} (h : inst.map mapKey ≠ some i.mapKey) (store : LatestStore)
    (name : Text) (record : MessageRecord) (time : JsNumber) :
    (store.put name record time inst).get name (some i) = store.get name (some i) := by
  cases inst with
  | none => rfl
  | some j =>
    have hij : i.mapKey ≠ j.mapKey := fun hij => h (congrArg some hij.symm)
    cases hstore : store.instances.get name with
    | none => simp [put, get, hstore, hij]
    | some byInstance => simp [put, get, hstore, hij]

theorem get_put_congr {store store' : LatestStore} (h : store.get name inst = store'.get name inst)
    (record : MessageRecord) (time : JsNumber) (put : Option JsNumber) :
    (store.put name record time put).get name inst =
      (store'.put name record time put).get name inst := by
  cases inst with
  | none => cases put <;> simp [LatestStore.put, get]
  | some i =>
    by_cases hput : put.map mapKey = some i.mapKey
    · obtain ⟨j, rfl, hj⟩ := Option.map_eq_some_iff.mp hput
      simp [LatestStore.put, get, hj]
    · rw [get_put_instance hput, get_put_instance hput, h]

end LatestStore

/-! ## Plans -/

structure PlanSetup where
  label : Text
  axis : Axis
  unsupported : Option Text
  value : EvalEnv → StateM FilterState Value
  condition : Option (EvalEnv → StateM FilterState Value)
  types : List Text
  instanceFilter : JsMap Text (List JsNumber)
  required : List (Text × Option JsNumber)

structure Plan extends PlanSetup where
  ready : Bool
  t : List JsNumber
  v : List JsNumber
  state : FilterState

/-- What the loop of `makePlan` gathers from the references. -/
structure Requirements where
  types : List Text
  bareTypes : List Text
  instanceFilter : JsMap Text (List JsNumber)
  required : JsMap Text (Text × Option JsNumber)

def Requirements.none : Requirements := ⟨[], [], .empty, .empty⟩

def Requirements.add (r : Requirements) (ref : Reference) : Requirements where
  types := if ref.message ∈ r.types then r.types else r.types ++ [ref.message]
  bareTypes := if ref.inst = Option.none then ref.message :: r.bareTypes else r.bareTypes
  instanceFilter :=
    match ref.inst with
    | Option.none => r.instanceFilter
    | some i => r.instanceFilter.set ref.message
        (((r.instanceFilter.get ref.message).getD []) ++ [i.mapKey])
  required := r.required.set
    (ref.message ++ units "[" ++ ref.inst.elim [] numberToString ++ units "]")
    (ref.message, ref.inst)

variable (engine : Engine) (tables : MagFieldTables)

def makePlan (term : Term) : Plan :=
  let unsupportedFn := (termFunctions term).find? fun name =>
    !(SUPPORTED_FUNCTIONS engine tables).contains name
  let requirements := (termReferences term).foldl Requirements.add Requirements.none
  { label := term.label
    axis := term.axis
    unsupported := unsupportedFn.map fun name => units "unsupported function " ++ name ++ units "()"
    value := evaluate engine tables term.ast
    condition := term.condition.map (evaluate engine tables)
    types := requirements.types
    instanceFilter := requirements.instanceFilter.filter fun name _ =>
      !requirements.bareTypes.contains name
    required := requirements.required.values
    ready := false
    t := []
    v := []
    state := .empty }

/-- One message, and what the caller's parameter lookup answers while it is handled. -/
structure Push where
  messageName : Text
  record : MessageRecord
  timeSeconds : JsNumber
  inst : Option JsNumber
  param : Text → Option JsNumber

def planEnv (store : LatestStore) (push : Push) : EvalEnv where
  message name inst := (store.get name inst).map Slot.record
  timestamp name inst := (store.get name inst).map Slot.time
  param := push.param
  time := some push.timeSeconds

def Plan.ignores (plan : Plan) (push : Push) : Bool :=
  match plan.instanceFilter.get push.messageName with
  | none => false
  | some instances =>
    match push.inst with
    | none => true
    | some i => !instances.contains i.mapKey

def Plan.point (plan : Plan) (env : EvalEnv) : StateM FilterState (Option JsNumber) := do
  let gate ← match plan.condition with
    | none => pure true
    | some condition => Value.truthy <$> condition env
  if !gate then return none
  match ← plan.value env with
  | .num value => return if value.isFinite then some value else none
  | _ => return none

def runPlan (plan : Plan) (store : LatestStore) (push : Push) : Plan :=
  if plan.ignores push then plan
  else if !plan.ready && plan.required.any fun req => (store.get req.1 req.2).isNone then plan
  else
    match (plan.point (planEnv store push)).run plan.state with
    | (some value, state) =>
      { plan with ready := true, state, t := plan.t ++ [push.timeSeconds], v := plan.v ++ [value] }
    | (none, state) => { plan with ready := true, state }

/-! ## The evaluator -/

structure Series where
  label : Text
  axis : Axis
  t : List JsNumber
  v : List JsNumber
  unsupported : Option Text

def planSeries (plan : Plan) : Series := ⟨plan.label, plan.axis, plan.t, plan.v, plan.unsupported⟩

structure GraphEvaluator where
  store : LatestStore
  plans : List Plan
  byType : JsMap Text (List ℕ)

/-- The plan at `i` is listed under the type. -/
def addToType (i : ℕ) (byType : JsMap Text (List ℕ)) (type : Text) : JsMap Text (List ℕ) :=
  byType.set type (((byType.get type).getD []) ++ [i])

def addPlan (byType : JsMap Text (List ℕ)) (entry : Plan × ℕ) : JsMap Text (List ℕ) :=
  if entry.1.unsupported.isSome then byType
  else entry.1.types.foldl (addToType entry.2) byType

def createGraphEvaluator (terms : List Term) : GraphEvaluator :=
  let plans := terms.map (makePlan engine tables)
  { store := .empty, plans, byType := plans.zipIdx.foldl addPlan .empty }

namespace GraphEvaluator

def push (g : GraphEvaluator) (push : Push) : GraphEvaluator :=
  match g.byType.get push.messageName with
  | none => g
  | some list =>
    let store := g.store.put push.messageName push.record push.timeSeconds push.inst
    let plans := list.foldl (fun plans i => plans.modify i fun plan => runPlan plan store push) g.plans
    { g with store, plans }

def series (g : GraphEvaluator) : List Series := g.plans.map planSeries

def messageTypes (g : GraphEvaluator) : List Text := g.byType.keys

end GraphEvaluator

def Plan.trimBefore (timeSeconds : JsNumber) (plan : Plan) : Plan :=
  let drop := (plan.t.takeWhile fun t => t.lt timeSeconds).length
  { plan with t := plan.t.drop drop, v := plan.v.drop drop }

def Plan.reset (plan : Plan) : Plan :=
  { plan with ready := false, t := [], v := [], state := .empty }

inductive Event
  | push (push : Push)
  | trimBefore (timeSeconds : JsNumber)
  | reset

namespace GraphEvaluator

def step (g : GraphEvaluator) : Event → GraphEvaluator
  | .push push => g.push push
  | .trimBefore timeSeconds => { g with plans := g.plans.map (Plan.trimBefore timeSeconds) }
  | .reset => { g with store := .empty, plans := g.plans.map Plan.reset }

def play (g : GraphEvaluator) (events : List Event) : GraphEvaluator := events.foldl step g

end GraphEvaluator

def createTermEvaluator (term : Term) : GraphEvaluator := createGraphEvaluator engine tables [term]

def GraphEvaluator.termSeries (g : GraphEvaluator) : Option Series := g.series.head?

end ArduConfigurator.PlotCore
