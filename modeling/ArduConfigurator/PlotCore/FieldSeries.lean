import ArduConfigurator.PlotCore.DataflashMerge
import ArduConfigurator.PlotCore.FieldTerms

/-! # A field as a series

`seriesFromField` of `evaluator.ts`, and the term of the field evaluated over the same log. The
merge stops where it comes to a time that is not before infinity, and an instance with a fraction is
no instance of the language; elsewhere the two have the same points. -/
namespace ArduConfigurator.PlotCore.Dataflash
open JsNumber (signed mapKey)
set_option autoImplicit false

/-! ## The series -/

/-- `a === b`. -/
def sameInstance : Option JsNumber → Option JsNumber → Bool
  | some x, some y => x.equal y
  | none, none => true
  | _, _ => false

def fieldPoint (column : Option Text) (field : Text) (inst : Option JsNumber)
    (record : MessageRecord) : Option (JsNumber × JsNumber) :=
  if column.isSome && !sameInstance (instanceOf record column) inst then none
  else
    match recordTime record, record.member field with
    | some time, .num value => if value.isFinite then some (time, value) else none
    | _, _ => none

def seriesFromField (log : DataflashLogLike) (message field : Text) (inst : Option JsNumber) :
    Series :=
  let label := fieldLabel message inst field
  let column := inst.bind fun _ => dataflashInstanceColumn log message
  if inst.isSome && column.isNone then ⟨label, .first, [], [], none⟩
  else
    let points := (log.records message).filterMap (fieldPoint column field inst)
    ⟨label, .first, points.map Prod.fst, points.map Prod.snd, none⟩

/-! ## What the series shows -/

def isOfInstance (column : Option Text) (inst : Option JsNumber) (record : MessageRecord) : Bool :=
  inst.all fun i => (instanceOf record column).any fun j => j.equal i

def finiteNumber : Value → Option JsNumber
  | .num value => if value.isFinite then some value else none
  | _ => none

def finiteField (field : Text) (record : MessageRecord) : Option JsNumber :=
  finiteNumber (record.member field)

def shownPoint (log : DataflashLogLike) (message field : Text) (inst : Option JsNumber)
    (record : MessageRecord) : Option (JsNumber × JsNumber) :=
  if isOfInstance (dataflashInstanceColumn log message) inst record then
    (recordTime record).bind fun time => (finiteField field record).map fun value => (time, value)
  else none

def shownPoints (log : DataflashLogLike) (message field : Text) (inst : Option JsNumber)
    (records : List MessageRecord) : List (JsNumber × JsNumber) :=
  records.filterMap (shownPoint log message field inst)

theorem fieldPoint_eq (column : Option Text) (field : Text) (inst : Option JsNumber)
    (record : MessageRecord) : fieldPoint column field inst record =
      if column.isSome && !sameInstance (instanceOf record column) inst then none
      else (recordTime record).bind fun time =>
        (finiteField field record).map fun value => (time, value) := by
  unfold fieldPoint finiteField
  split_ifs
  · rfl
  · cases recordTime record with
    | none => rfl
    | some time =>
      cases record.member field with
      | num value =>
        dsimp only [Option.bind_some, finiteNumber]
        split_ifs <;> rfl
      | _ => rfl

theorem points_seriesFromField (log : DataflashLogLike) (message field : Text)
    (inst : Option JsNumber) :
    (seriesFromField log message field inst).t =
        (shownPoints log message field inst (log.records message)).map Prod.fst ∧
      (seriesFromField log message field inst).v =
        (shownPoints log message field inst (log.records message)).map Prod.snd := by
  unfold seriesFromField
  cases inst with
  | none =>
    have hpoint : fieldPoint none field none = shownPoint log message field none := by
      funext record
      rw [fieldPoint_eq]
      rfl
    dsimp only [Option.bind_none]
    rw [hpoint]
    exact ⟨rfl, rfl⟩
  | some i =>
    cases hcolumn : dataflashInstanceColumn log message with
    | none =>
      have hnone : shownPoints log message field (some i) (log.records message) = [] := by
        refine List.filterMap_eq_nil_iff.mpr fun record _ => ?_
        rw [shownPoint, hcolumn]
        rfl
      rw [hnone]
      exact ⟨rfl, rfl⟩
    | some column =>
      have hpoint : fieldPoint (some column) field (some i) =
          shownPoint log message field (some i) := by
        funext record
        rw [fieldPoint_eq, shownPoint, hcolumn, isOfInstance]
        cases instanceOf record (some column) with
        | none => rfl
        | some j => cases hequal : j.equal i <;> simp [sameInstance, hequal]
      dsimp only [Option.bind_some]
      rw [hpoint]
      exact ⟨rfl, rfl⟩

/-! ## The merge of a single type -/

theorem bestOf_singleton (c : TypeCursor) : bestOf [c] =
    if c.head.lt (.infinite false) then (some 0, c.head) else (none, .infinite false) := rfl

theorem length_advance (type : Text) (column : Option Text) (rest : List MessageRecord)
    (head : JsNumber) : (TypeCursor.advance ⟨type, column, rest, head⟩).rest.length ≤ rest.length :=
  (List.dropWhile_sublist _).length_le

theorem mergeLoop_single (param : Text → Option JsNumber) (type : Text) (column : Option Text)
    (rest : List MessageRecord) (head : JsNumber) {turns : ℕ}
    (h : (TypeCursor.advance ⟨type, column, rest, head⟩).rest.length < turns) :
    mergeLoop param turns [TypeCursor.advance ⟨type, column, rest, head⟩] =
      (rest.filterMap (pushOf type column param)).takeWhile fun push =>
        push.timeSeconds.lt (.infinite false) := by
  induction rest generalizing turns head with
  | nil =>
    cases turns with
    | zero => exact absurd h (Nat.not_lt_zero _)
    | succ turns => rfl
  | cons record rest ih =>
    rw [TypeCursor.advance_cons] at h ⊢
    cases htime : recordTime record with
    | none =>
      have hpush : pushOf type column param record = none := by rw [pushOf, htime]; rfl
      rw [htime] at h
      rw [List.filterMap_cons_none hpush]
      exact ih head h
    | some time =>
      have hpush : pushOf type column param record =
          some ⟨type, record, time, instanceOf record column, param⟩ := by
        rw [pushOf, htime]
        rfl
      have hbest := bestOf_singleton ⟨type, column, record :: rest, time⟩
      rw [htime] at h
      rw [List.filterMap_cons_some hpush, List.takeWhile_cons]
      dsimp only at h hbest ⊢
      cases turns with
      | zero => exact absurd h (Nat.not_lt_zero _)
      | succ turns =>
        rw [mergeLoop]
        cases hlt : time.lt (.infinite false) with
        | false =>
          rw [hlt, if_neg Bool.false_ne_true] at hbest
          rw [mergeTurn_of_done hbest, if_neg Bool.false_ne_true]
        | true =>
          rw [hlt, if_pos rfl] at hbest
          have hturn := @mergeTurn_of_found param type [] [] column record rest time hbest
          have hrest := length_advance type column rest time
          rw [List.nil_append] at hturn
          rw [hturn, if_pos rfl, ← ih time (Nat.lt_of_le_of_lt hrest (Nat.lt_of_succ_lt_succ h))]
          rfl

def readRecords (records : List MessageRecord) : List MessageRecord :=
  records.takeWhile fun record => (recordTime record).all fun time => time.lt (.infinite false)

theorem mergedPushes_single (log : DataflashLogLike) (type : Text)
    (param : Text → Option JsNumber) : mergedPushes log [type] param =
      (readRecords (log.records type)).filterMap
        (pushOf type (dataflashInstanceColumn log type) param) := by
  have hsingle := mergeLoop_single param type (dataflashInstanceColumn log type) (log.records type)
    (.infinite false) (Nat.lt_succ_self _)
  have htake : ∀ records : List MessageRecord,
      (records.filterMap (pushOf type (dataflashInstanceColumn log type) param)).takeWhile
          (fun push => push.timeSeconds.lt (.infinite false)) =
        (readRecords records).filterMap
          (pushOf type (dataflashInstanceColumn log type) param) := by
    intro records
    rw [List.takeWhile_filterMap, readRecords]
    congr 2
    funext record
    rw [pushOf]
    cases recordTime record <;> rfl
  rw [← htake, ← hsingle]
  rfl

/-! ## A term with one reference -/

variable (engine : Engine) (tables : MagFieldTables)

structure Single (term : Term) (ref : Reference) : Prop where
  references : termReferences term = [ref]
  functions : termFunctions term = []
  condition : term.condition = none

variable {engine tables} {term : Term} {ref : Reference} {plan : Plan} {p : Push}

namespace Single

theorem isSupported (h : Single term ref) : isSupported engine tables term = true := by
  rw [Dataflash.isSupported, h.functions]
  rfl

theorem unsupported (h : Single term ref) (hserves : plan.Serves engine tables term) :
    plan.unsupported = none := by
  rw [show plan.unsupported = _ from congrArg PlanSetup.unsupported hserves]
  exact (isSupported_iff engine tables term).mp h.isSupported

theorem messageTypes (h : Single term ref) :
    (createGraphEvaluator engine tables [term]).messageTypes = [ref.message] := by
  rw [messageTypes_eq, List.filter_cons_of_pos h.isSupported, List.filter_nil, referencedTypes,
    List.flatMap_cons, List.flatMap_nil, h.references, List.append_nil, List.map_singleton,
    List.eraseDups_cons]
  rfl

theorem required (h : Single term ref) (hserves : plan.Serves engine tables term) :
    plan.required = [(ref.message, ref.inst)] := by
  rw [show plan.required = _ from congrArg PlanSetup.required hserves]
  simp only [makePlan, h.references, List.foldl_cons, List.foldl_nil]
  rfl

theorem named_iff (hname : p.messageName = ref.message) :
    p.Named [ref] ↔ ref.Names p.inst := by
  constructor
  · rintro ⟨other, hother, _, hnames⟩
    rwa [← List.mem_singleton.mp hother]
  · exact fun hnames => ⟨ref, List.mem_singleton_self ref, hname.symm, hnames⟩

theorem not_ignores (h : Single term ref) (hserves : plan.Serves engine tables term)
    (hname : p.messageName = ref.message) (hnames : ref.Names p.inst) :
    plan.ignores p = false := by
  unfold Plan.ignores
  rw [show plan.instanceFilter = _ from congrArg PlanSetup.instanceFilter hserves]
  simp only [makePlan, h.references, List.foldl_cons, List.foldl_nil, hname]
  cases hinst : ref.inst with
  | none => simp [Requirements.add, Requirements.none, hinst]
  | some i =>
    have hkey : some i.mapKey = p.inst.map mapKey := by
      rw [Reference.Names, hinst] at hnames
      exact hnames.resolve_left (Option.some_ne_none i)
    cases hp : p.inst with
    | none =>
      rw [hp] at hkey
      cases hkey
    | some j =>
      rw [hp] at hkey
      simp only [Requirements.add, Requirements.none, hinst, Option.some.inj hkey,
        JsMap.get_filter, JsMap.get_set, JsMap.get_empty, Option.getD_none, List.nil_append,
        reduceCtorEq, if_false, if_true, List.contains_nil, Bool.not_false]
      rw [Option.filter_some_pos rfl]
      simp

end Single

theorem get_put_named (store : LatestStore) (record : MessageRecord) (time : JsNumber)
    {inst : Option JsNumber} (hnames : ref.Names inst) :
    (store.put ref.message record time inst).get ref.message ref.inst = some ⟨record, time⟩ := by
  cases href : ref.inst with
  | none => cases inst <;> simp [LatestStore.put, LatestStore.get]
  | some i =>
    have hkey : some i.mapKey = inst.map mapKey := by
      rw [Reference.Names, href] at hnames
      exact hnames.resolve_left (Option.some_ne_none i)
    obtain ⟨j, rfl, hj⟩ := Option.map_eq_some_iff.mp hkey.symm
    simp [LatestStore.put, LatestStore.get, hj]

def Plan.shows (plan : Plan) (time : JsNumber) (point : Option JsNumber) : Plan :=
  match point with
  | some value => { plan with ready := true, t := plan.t ++ [time], v := plan.v ++ [value] }
  | none => { plan with ready := true }

def HasValue (engine : Engine) (tables : MagFieldTables) (term : Term) (env : EvalEnv)
    (value : Value) : Prop :=
  ∀ state, (evaluate engine tables term.ast env).run state = (value, state)

variable {value : Value}

theorem point_of_hasValue (hcondition : term.condition = none)
    (hserves : plan.Serves engine tables term) {env : EvalEnv}
    (hvalue : HasValue engine tables term env value) (state : FilterState) :
    (plan.point env).run state = (finiteNumber value, state) := by
  have hnone : plan.condition = none := by
    rw [show plan.condition = _ from congrArg PlanSetup.condition hserves]
    simp only [makePlan, hcondition, Option.map_none]
  have hplan : plan.value = evaluate engine tables term.ast :=
    congrArg PlanSetup.value hserves
  have hvalue := hvalue state
  unfold Plan.point
  rw [hnone, hplan]
  simp only [pure_bind, Bool.not_true, Bool.false_eq_true, if_false]
  rw [StateT.run_bind, hvalue]
  cases value <;> rfl

variable {store : LatestStore}

theorem runPlan_single (h : Single term ref) (hserves : plan.Serves engine tables term)
    (hname : p.messageName = ref.message) (hnames : ref.Names p.inst)
    (hstore : (store.get ref.message ref.inst).isSome = true)
    (hvalue : HasValue engine tables term (planEnv store p) value) :
    runPlan plan store p = Plan.shows plan p.timeSeconds (finiteNumber value) := by
  have hready : (!plan.ready && plan.required.any fun req => (store.get req.1 req.2).isNone) =
      false := by
    rw [h.required hserves, List.any_cons, List.any_nil, Option.isNone_eq_false_iff.mpr hstore,
      Bool.or_false, Bool.and_false]
  unfold runPlan
  rw [h.not_ignores hserves hname hnames, if_neg Bool.false_ne_true, hready,
    if_neg Bool.false_ne_true, point_of_hasValue h.condition hserves hvalue]
  unfold Plan.shows
  cases finiteNumber value <;> rfl

theorem runPlan_nothing (hcondition : term.condition = none)
    (hserves : plan.Serves engine tables term)
    (hvalue : HasValue engine tables term (planEnv store p) value)
    (hnothing : finiteNumber value = none) :
    (runPlan plan store p).t = plan.t ∧ (runPlan plan store p).v = plan.v := by
  unfold runPlan
  split_ifs
  · exact ⟨rfl, rfl⟩
  · exact ⟨rfl, rfl⟩
  · rw [point_of_hasValue hcondition hserves hvalue, hnothing]
    exact ⟨rfl, rfl⟩

/-! ## What the term of a field reads -/

section Values

variable {message field : Text} {inst literal : Option JsNumber} {negative : Bool} {q : ℚ≥0}

theorem functions_field (message : Text) (inst : Option JsNumber) (field : Text) (hnamed) :
    termFunctions (termOfField message inst field hnamed) = [] := by
  unfold termFunctions termOfField collectFunctions
  cases inst with
  | none => simp [fieldObject, visit]
  | some i =>
    cases i with
    | nan => simp [fieldObject, numberNode, visit]
    | infinite negative => cases negative <;> simp [fieldObject, numberNode, visit]
    | finite negative q =>
      simp only [fieldObject, numberNode]
      split_ifs <;> simp [visit]

theorem single_of_target (field : Text)
    (htarget : fieldTarget (fieldObject message inst) = some (message, literal)) (hnamed) :
    Single (termOfField message inst field hnamed) ⟨message, literal, some field⟩ := by
  refine ⟨?_, functions_field message inst field hnamed, rfl⟩
  unfold termReferences termOfField collectReferences
  rw [visit]
  simp only [referenceAt, htarget]
  rfl

theorem hasValue_of_target
    (htarget : fieldTarget (fieldObject message inst) = some (message, literal)) (hnamed)
    (env : EvalEnv) : HasValue engine tables (termOfField message inst field hnamed) env
      (fieldOf env message literal field) := by
  intro state
  unfold evaluate termOfField
  rw [compileNode]
  simp only [htarget]
  rfl

theorem single_of_fraction (field : Text) (hmessage : isConstantName message = false)
    (hq : q.den ≠ 1) (hnamed) :
    Single (termOfField message (some (.finite false q)) field hnamed) ⟨message, none, none⟩ := by
  refine ⟨?_, functions_field _ _ _ hnamed, rfl⟩
  have hliteral : literalInstance (.num (.finite false q)) = none := by
    simp [literalInstance, JsNumber.isInteger, JsNumber.toInt?, hq]
  unfold termReferences termOfField collectReferences
  simp only [fieldObject, numberNode, Bool.false_eq_true, false_and, if_false]
  simp [visit, referenceAt, fieldTarget, messageName, hliteral, hmessage, addReference]

def heldValue (env : EvalEnv) (message : Text) (i : JsNumber) (field : Text) : Value :=
  (env.message message (some i)).elim .undefined fun record => (record.member field).plain

theorem hasValue_of_fraction (hmessage : isConstantName message = false) (hq : q.den ≠ 1) (hnamed)
    (env : EvalEnv) :
    HasValue engine tables (termOfField message (some (.finite false q)) field hnamed) env
      (heldValue env message (.finite false q) field) := by
  intro state
  have hliteral : literalInstance (.num (.finite false q)) = none := by
    simp [literalInstance, JsNumber.isInteger, JsNumber.toInt?, hq]
  have hmember : memberOf (messageValue (env.message message (some (.finite false q)))) field =
      heldValue env message (.finite false q) field := by
    unfold heldValue
    cases env.message message (some (.finite false q)) <;> rfl
  unfold evaluate termOfField
  rw [← hmember]
  simp only [fieldObject, numberNode, Bool.false_eq_true, false_and, if_false]
  rw [compileNode, compileNode, compileNode]
  simp only [fieldTarget, messageName, hliteral, hmessage, Option.map_none]
  rfl

variable {i : JsNumber}

theorem hasValue_of_index (hmessage : isConstantName message = false)
    (hliteral : literalInstance (numberNode i) = none) {env : EvalEnv} {index : Value}
    (hindex : ∀ state, ((compileNode engine tables (numberNode i) env).run).run state = (.ok index, state))
    (hnum : num index = none) (hnamed) :
    HasValue engine tables (termOfField message (some i) field hnamed) env .undefined := by
  intro state
  have hinstance : PlotCore.instanceOf env message index = .undefined := by
    rw [PlotCore.instanceOf, hnum]
    rfl
  unfold evaluate termOfField
  simp only [fieldObject]
  rw [compileNode, compileNode]
  simp only [fieldTarget, messageName, hliteral, hmessage, Option.map_none, Bool.false_eq_true,
    if_false]
  simp only [ExceptT.run_bind, StateT.run_bind]
  rw [hindex]
  exact congrArg (fun value => (memberOf value field, state)) hinstance

theorem hasValue_of_nonfinite (hmessage : isConstantName message = false) (hi : i.isFinite = false)
    (hnamed) (env : EvalEnv) :
    HasValue engine tables (termOfField message (some i) field hnamed) env .undefined := by
  have hnum : ∀ record, num (messageValue record) = none := by
    intro record
    cases record <;> rfl
  have hname : ∀ name : Text, constantValue name = none → name ≠ units "None" → ∀ state,
      ((compileNode engine tables (.name name) env).run).run state =
        (.ok (messageValue (env.message name none)), state) := by
    intro name hconstant hnone state
    rw [compileNode, hconstant]
    dsimp only
    rw [if_neg hnone]
    rfl
  cases i with
  | finite negative q => cases hi
  | nan =>
    exact hasValue_of_index hmessage rfl
      (hname (units "NaN") (by decide +kernel) (by decide +kernel)) (hnum _) hnamed
  | infinite negative =>
    have hinfinity := hname (units "Infinity") (by decide +kernel) (by decide +kernel)
    cases negative with
    | false => exact hasValue_of_index hmessage rfl hinfinity (hnum _) hnamed
    | true =>
      have hneg : ∀ state, ((compileNode engine tables (numberNode (.infinite true)) env).run).run
          state = (.ok .undefined, state) := by
        intro state
        rw [numberNode, compileNode]
        simp only [ExceptT.run_bind, StateT.run_bind]
        rw [hinfinity]
        have hunary : unary .neg (messageValue (env.message (units "Infinity") none)) =
            .undefined := by
          cases env.message (units "Infinity") none <;> rfl
        exact congrArg (fun value => (Except.ok value, state)) hunary
      exact hasValue_of_index hmessage rfl hneg rfl hnamed

end Values

/-! ## Runs -/

section Runs

variable {view : TermView} {message field : Text} {column : Option Text}
  {param : Text → Option JsNumber}

def feed (message : Text) (column : Option Text) (param : Text → Option JsNumber)
    (records : List MessageRecord) : List Event :=
  (records.filterMap (pushOf message column param)).map Event.push

theorem feed_cons (record : MessageRecord) (records : List MessageRecord) :
    feed message column param (record :: records) =
      match recordTime record with
      | none => feed message column param records
      | some time => .push ⟨message, record, time, instanceOf record column, param⟩ ::
          feed message column param records := by
  unfold feed
  cases htime : recordTime record with
  | none => rw [List.filterMap_cons_none (by rw [pushOf, htime]; rfl)]
  | some time =>
    have hpush : pushOf message column param record =
        some ⟨message, record, time, instanceOf record column, param⟩ := by
      rw [pushOf, htime]
      rfl
    rw [List.filterMap_cons_some hpush]
    rfl

theorem serves_step (refs : List Reference) (hserves : view.plan.Serves engine tables term)
    (p : Push) : (view.step refs (.push p)).plan.Serves engine tables term := by
  rw [TermView.step]
  split_ifs
  · exact (setup_runPlan _ _ _).trans hserves
  · exact hserves

theorem serves_initial (term : Term) :
    (TermView.initial engine tables term).plan.Serves engine tables term := rfl

theorem shows_points (plan : Plan) (time : JsNumber) (point : Option JsNumber) :
    (Plan.shows plan time point).t = plan.t ++ (point.map fun _ => time).toList ∧
      (Plan.shows plan time point).v = plan.v ++ point.toList := by
  cases point with
  | none => exact ⟨(List.append_nil _).symm, (List.append_nil _).symm⟩
  | some value => exact ⟨rfl, rfl⟩

theorem step_single (h : Single term ref) (hserves : view.plan.Serves engine tables term)
    (hname : p.messageName = ref.message) (hnames : ref.Names p.inst)
    (hvalue : HasValue engine tables term (planEnv (view.store.put ref.message p.record p.timeSeconds p.inst) p) value) :
    view.step [ref] (.push p) = ⟨view.store.put ref.message p.record p.timeSeconds p.inst,
      Plan.shows view.plan p.timeSeconds (finiteNumber value)⟩ := by
  have hstore := get_put_named view.store p.record p.timeSeconds hnames
  have hplan := runPlan_single h hserves hname hnames (by rw [hstore]; rfl) hvalue
  rw [TermView.step, if_pos ⟨h.unsupported hserves, (Single.named_iff hname).mpr hnames⟩, hname,
    ← hplan]

theorem finiteNumber_plain (value : Value) : finiteNumber value.plain = finiteNumber value := by
  cases value <;> rfl

variable {q : ℚ≥0}

theorem signed_eq_iff {n m : Bool} {r : ℚ≥0} : signed n q = signed m r ↔
    (n && decide (q ≠ 0)) = (m && decide (r ≠ 0)) ∧ q = r := by
  have hq := NNRat.coe_nonneg q
  have hr := NNRat.coe_nonneg r
  constructor
  · intro h
    have hqr : q = r := by
      refine NNRat.coe_injective ?_
      cases n <;> cases m <;> simp only [signed, Bool.false_eq_true, if_false, if_true] at h <;>
        linarith
    subst hqr
    refine ⟨?_, rfl⟩
    by_cases hzero : q = 0
    · simp [hzero]
    · have hpos : (0 : ℚ) < q := lt_of_le_of_ne hq fun h => hzero (NNRat.coe_injective h.symm)
      cases n <;> cases m <;> simp only [signed, Bool.false_eq_true, if_false, if_true] at h
      · rfl
      · linarith
      · linarith
      · rfl
  · rintro ⟨hsign, rfl⟩
    by_cases hzero : q = 0
    · cases n <;> cases m <;> simp [signed, hzero]
    · have hnm : n = m := by simpa [hzero] using hsign
      rw [hnm]

theorem equal_iff_mapKey {x : JsNumber} {negative : Bool} :
    x.equal (.finite negative q) = true ↔
      x.mapKey = JsNumber.mapKey (.finite negative q) := by
  cases x with
  | nan => exact iff_of_false Bool.false_ne_true (by rintro ⟨⟩)
  | infinite n => cases n <;> exact iff_of_false Bool.false_ne_true (by rintro ⟨⟩)
  | finite n r =>
    have hsigned : (JsNumber.finite n r).equal (.finite negative q) = true ↔
        signed n r = signed negative q := by
      simp only [JsNumber.equal, JsNumber.le, Bool.and_eq_true, decide_eq_true_eq]
      exact le_antisymm_iff.symm
    rw [hsigned, mapKey, mapKey, JsNumber.finite.injEq, signed_eq_iff]

inductive IsLiteral : Option JsNumber → Option JsNumber → Prop
  | none : IsLiteral none none
  | some {negative : Bool} {q : ℚ≥0} {literal : JsNumber}
      (h : literal.mapKey = JsNumber.mapKey (.finite negative q)) :
      IsLiteral (some (.finite negative q)) (some literal)

variable {inst literal : Option JsNumber}

theorem names_iff (h : IsLiteral inst literal) (message field : Text) (column : Option Text)
    (record : MessageRecord) :
    Reference.Names ⟨message, literal, some field⟩ (instanceOf record column) ↔
      isOfInstance column inst record = true := by
  cases h with
  | none => exact iff_of_true (.inl rfl) rfl
  | @some negative q literal h =>
    have hsome : ¬some literal = none := Option.some_ne_none literal
    cases hinst : instanceOf record column with
    | none => simp [Reference.Names, isOfInstance, hinst]
    | some j =>
      rw [Reference.Names, or_iff_right hsome, Option.map_some, Option.map_some, isOfInstance,
        hinst, Option.all_some, Option.any_some, equal_iff_mapKey, h, Option.some.injEq, eq_comm]

theorem shownPoints_cons (log : DataflashLogLike) (message field : Text) (inst : Option JsNumber)
    (record : MessageRecord) (records : List MessageRecord) :
    shownPoints log message field inst (record :: records) =
      (shownPoint log message field inst record).toList ++
        shownPoints log message field inst records := by
  unfold shownPoints
  cases hpoint : shownPoint log message field inst record with
  | none => rw [List.filterMap_cons_none hpoint]; rfl
  | some point => rw [List.filterMap_cons_some hpoint]; rfl

theorem step_target (log : DataflashLogLike) (param : Text → Option JsNumber)
    (htarget : fieldTarget (fieldObject message inst) = some (message, literal)) (hnamed)
    (hliteral : IsLiteral inst literal) (hfield : field ≠ units "_timestamp")
    (hserves : view.plan.Serves engine tables (termOfField message inst field hnamed))
    {record : MessageRecord} {time : JsNumber} (htime : recordTime record = some time) :
    let stepped := view.step [⟨message, literal, some field⟩] (.push ⟨message, record, time,
      instanceOf record (dataflashInstanceColumn log message), param⟩)
    stepped.plan.t = view.plan.t ++
        (shownPoint log message field inst record).toList.map Prod.fst ∧
      stepped.plan.v = view.plan.v ++
        (shownPoint log message field inst record).toList.map Prod.snd := by
  intro stepped
  have hnames := names_iff hliteral message field (dataflashInstanceColumn log message) record
  by_cases hof : isOfInstance (dataflashInstanceColumn log message) inst record = true
  · have hget := get_put_named view.store record time (hnames.mpr hof)
    have hrecord (env : EvalEnv) (henv : env.message message literal = some record) :
        finiteNumber (fieldOf env message literal field) = finiteField field record := by
      rw [fieldOf, if_neg hfield, henv]
      exact finiteNumber_plain _
    have hstep := step_single (p := ⟨message, record, time,
      instanceOf record (dataflashInstanceColumn log message), param⟩)
      (single_of_target field htarget hnamed) hserves rfl (hnames.mpr hof)
      (hasValue_of_target htarget hnamed _)
    rw [hrecord _ (congrArg (Option.map Slot.record) hget)] at hstep
    rw [show stepped = _ from hstep, shownPoint, if_pos hof, htime, Option.bind_some]
    dsimp only
    rw [(shows_points _ _ _).1, (shows_points _ _ _).2]
    cases finiteField field record <;> exact ⟨rfl, rfl⟩
  · have hstep : stepped = view := by
      refine if_neg fun h => hof (hnames.mp ?_)
      exact (Single.named_iff rfl).mp h.2
    rw [hstep, shownPoint, if_neg hof]
    exact ⟨(List.append_nil _).symm, (List.append_nil _).symm⟩

theorem play_target (log : DataflashLogLike) (param : Text → Option JsNumber)
    (htarget : fieldTarget (fieldObject message inst) = some (message, literal)) (hnamed)
    (hliteral : IsLiteral inst literal) (hfield : field ≠ units "_timestamp")
    (records : List MessageRecord)
    (hserves : view.plan.Serves engine tables (termOfField message inst field hnamed)) :
    let played := view.play [⟨message, literal, some field⟩]
      (feed message (dataflashInstanceColumn log message) param records)
    played.plan.t = view.plan.t ++ (shownPoints log message field inst records).map Prod.fst ∧
      played.plan.v = view.plan.v ++ (shownPoints log message field inst records).map Prod.snd := by
  induction records generalizing view with
  | nil => exact ⟨(List.append_nil _).symm, (List.append_nil _).symm⟩
  | cons record records ih =>
    rw [feed_cons, shownPoints_cons]
    cases htime : recordTime record with
    | none =>
      have hshown : shownPoint log message field inst record = none := by
        rw [shownPoint, htime, Option.bind_none, ite_self]
      rw [hshown]
      exact ih hserves
    | some time =>
      have hstep := step_target log param htarget hnamed hliteral hfield hserves htime
      have hrest := ih (serves_step [⟨message, literal, some field⟩] hserves
        ⟨message, record, time, instanceOf record (dataflashInstanceColumn log message), param⟩)
      rw [List.map_append, List.map_append, ← List.append_assoc, ← List.append_assoc, ← hstep.1,
        ← hstep.2]
      exact hrest

/-! ## An instance with a fraction -/

def heldPoints (column : Option Text) (field : Text) (i : JsNumber) :
    Option MessageRecord → List MessageRecord → List (JsNumber × JsNumber)
  | _, [] => []
  | held, record :: rest =>
    match recordTime record with
    | none => heldPoints column field i held rest
    | some time =>
      let held := if isOfInstance column (some i) record then some record else held
      ((held.bind (finiteField field)).map fun value => (time, value)).toList ++
        heldPoints column field i held rest

variable {held : Option MessageRecord}

theorem step_fraction (column : Option Text) (param : Text → Option JsNumber)
    (hmessage : isConstantName message = false) (hq : q.den ≠ 1) (hnamed)
    (hserves : view.plan.Serves engine tables (termOfField message (some (.finite false q)) field hnamed))
    (hheld : (view.store.get message (some (.finite false q))).map Slot.record = held)
    (record : MessageRecord) (time : JsNumber) :
    let stepped := view.step [⟨message, none, none⟩]
      (.push ⟨message, record, time, instanceOf record column, param⟩)
    let held := if isOfInstance column (some (.finite false q)) record then some record else held
    let point := (held.bind (finiteField field)).map fun value => (time, value)
    (stepped.store.get message (some (.finite false q))).map Slot.record = held ∧
      stepped.plan.t = view.plan.t ++ point.toList.map Prod.fst ∧
      stepped.plan.v = view.plan.v ++ point.toList.map Prod.snd := by
  intro stepped held' point
  have hstep := step_single (single_of_fraction field hmessage hq hnamed) hserves
    (p := ⟨message, record, time, instanceOf record column, param⟩) rfl (.inl rfl)
    (hasValue_of_fraction hmessage hq hnamed _)
  have hstore : ((view.store.put message record time (instanceOf record column)).get message
      (some (.finite false q))).map Slot.record = held' := by
    have hliteral : IsLiteral (some (.finite false q)) (some (.finite false q)) := .some rfl
    have hnames := names_iff hliteral message field column record
    by_cases hof : isOfInstance column (some (.finite false q)) record = true
    · have hget := get_put_named view.store record time (hnames.mpr hof)
      dsimp only at hget
      rw [hget]
      exact (if_pos hof).symm
    · have hget := @LatestStore.get_put_instance (instanceOf record column) (.finite false q)
        (fun heq => hof (hnames.mp (.inr heq.symm))) view.store message record time
      rw [hget, hheld]
      exact (if_neg hof).symm
  have hvalue : ∀ env : EvalEnv, env.message message (some (.finite false q)) = held' →
      finiteNumber (heldValue env message (.finite false q) field) =
        held'.bind (finiteField field) := by
    intro env henv
    rw [heldValue, henv]
    cases held' with
    | none => rfl
    | some record => exact finiteNumber_plain _
  rw [hvalue _ hstore] at hstep
  rw [show stepped = _ from hstep]
  refine ⟨hstore, ?_⟩
  dsimp only
  rw [(shows_points _ _ _).1, (shows_points _ _ _).2]
  unfold point
  cases held'.bind (finiteField field) <;> exact ⟨rfl, rfl⟩

theorem play_fraction (column : Option Text) (param : Text → Option JsNumber)
    (hmessage : isConstantName message = false) (hq : q.den ≠ 1) (hnamed)
    (hserves : view.plan.Serves engine tables (termOfField message (some (.finite false q)) field hnamed))
    (hheld : (view.store.get message (some (.finite false q))).map Slot.record = held)
    (records : List MessageRecord) :
    let played := view.play [⟨message, none, none⟩] (feed message column param records)
    let points := heldPoints column field (.finite false q) held records
    played.plan.t = view.plan.t ++ points.map Prod.fst ∧
      played.plan.v = view.plan.v ++ points.map Prod.snd := by
  induction records generalizing view held with
  | nil => exact ⟨(List.append_nil _).symm, (List.append_nil _).symm⟩
  | cons record records ih =>
    rw [feed_cons, heldPoints]
    cases htime : recordTime record with
    | none => exact ih hserves hheld
    | some time =>
      obtain ⟨hstore, ht, hv⟩ := step_fraction column param hmessage hq hnamed hserves hheld
        record time
      have hrest := ih (serves_step [⟨message, none, none⟩] hserves
        ⟨message, record, time, instanceOf record column, param⟩) hstore
      dsimp only
      rw [List.map_append, List.map_append, ← List.append_assoc, ← List.append_assoc, ← ht, ← hv]
      exact hrest

theorem play_nothing (refs : List Reference) (hcondition : term.condition = none)
    (hvalue : ∀ env, HasValue engine tables term env .undefined)
    (hserves : view.plan.Serves engine tables term) (pushes : List Push) :
    (view.play refs (pushes.map Event.push)).plan.t = view.plan.t ∧
      (view.play refs (pushes.map Event.push)).plan.v = view.plan.v := by
  induction pushes generalizing view with
  | nil => exact ⟨rfl, rfl⟩
  | cons p pushes ih =>
    have hstep : (view.step refs (.push p)).plan.t = view.plan.t ∧
        (view.step refs (.push p)).plan.v = view.plan.v := by
      rw [TermView.step]
      split_ifs
      · exact runPlan_nothing hcondition hserves (hvalue _) rfl
      · exact ⟨rfl, rfl⟩
    have hrest := ih (serves_step refs hserves p)
    rw [hstep.1, hstep.2] at hrest
    exact hrest

end Runs

/-! ## The field and the term -/

section Agreement

variable (engine tables) (log : DataflashLogLike) (param : Option (Text → Option JsNumber))
  {message field : Text} {inst literal : Option JsNumber}

def unreadRecords (records : List MessageRecord) : List MessageRecord :=
  records.dropWhile fun record => (recordTime record).all fun time => time.lt (.infinite false)

theorem evaluateOnDataflash_single (term : Term) :
    (evaluateOnDataflash engine tables log [term] param)[0]? =
      some (planSeries ((TermView.initial engine tables term).play (termReferences term)
        ((mergedPushes log (createGraphEvaluator engine tables [term]).messageTypes
          (param.getD (dataflashParams log))).map Event.push)).plan) := by
  rw [← @series_play engine tables term 0 [term] rfl, GraphEvaluator.play, List.foldl_map]
  rfl

theorem evaluateOnDataflash_target
    (htarget : fieldTarget (fieldObject message inst) = some (message, literal)) (hnamed)
    (hliteral : IsLiteral inst literal) (hfield : field ≠ units "_timestamp") :
    ∃ series, (evaluateOnDataflash engine tables log [termOfField message inst field hnamed]
        param)[0]? = some series ∧
      series.t = (shownPoints log message field inst
        (readRecords (log.records message))).map Prod.fst ∧
      series.v = (shownPoints log message field inst
        (readRecords (log.records message))).map Prod.snd := by
  have hsingle := single_of_target field htarget hnamed
  refine ⟨_, evaluateOnDataflash_single engine tables log param _, ?_⟩
  rw [hsingle.messageTypes, mergedPushes_single, hsingle.references]
  exact play_target log _ htarget hnamed hliteral hfield (readRecords (log.records message))
    (serves_initial _)

theorem evaluateOnDataflash_fraction {q : ℚ≥0} (hmessage : isConstantName message = false)
    (hq : q.den ≠ 1) (hnamed) :
    ∃ series, (evaluateOnDataflash engine tables log
        [termOfField message (some (.finite false q)) field hnamed] param)[0]? = some series ∧
      series.t = (heldPoints (dataflashInstanceColumn log message) field (.finite false q) none
        (readRecords (log.records message))).map Prod.fst ∧
      series.v = (heldPoints (dataflashInstanceColumn log message) field (.finite false q) none
        (readRecords (log.records message))).map Prod.snd := by
  have hsingle := single_of_fraction field hmessage hq hnamed
  refine ⟨_, evaluateOnDataflash_single engine tables log param _, ?_⟩
  rw [hsingle.messageTypes, mergedPushes_single, hsingle.references]
  exact play_fraction (dataflashInstanceColumn log message) _ hmessage hq hnamed (serves_initial _)
    rfl (readRecords (log.records message))

theorem evaluateOnDataflash_nonfinite (hmessage : isConstantName message = false) {i : JsNumber}
    (hi : i.isFinite = false) (hnamed) :
    ∃ series, (evaluateOnDataflash engine tables log
        [termOfField message (some i) field hnamed] param)[0]? = some series ∧
      series.t = [] ∧ series.v = [] := by
  have hvalue (env : EvalEnv) : HasValue engine tables (termOfField message (some i) field hnamed)
      env .undefined := hasValue_of_nonfinite hmessage hi hnamed env
  refine ⟨_, evaluateOnDataflash_single engine tables log param _, ?_⟩
  generalize mergedPushes log _ _ = pushes
  have hplay := play_nothing (termReferences (termOfField message (some i) field hnamed)) rfl hvalue
    (serves_initial _) pushes
  exact hplay

/-- Where the field has the points of the term. The merge gets to all records that have a point; of
an instance with a fraction, the term shows the latest record at the time of every other one too;
and there are no records of an instance that is not finite. -/
def PlotsAlike (log : DataflashLogLike) (message field : Text) : Option JsNumber → Prop
  | none => shownPoints log message field none (unreadRecords (log.records message)) = []
  | some (.finite negative q) =>
    if negative = true ∨ q.den = 1 then
      shownPoints log message field (some (.finite negative q))
        (unreadRecords (log.records message)) = []
    else
      heldPoints (dataflashInstanceColumn log message) field (.finite negative q) none
          (readRecords (log.records message)) =
        shownPoints log message field (some (.finite negative q)) (log.records message)
  | some i => shownPoints log message field (some i) (log.records message) = []

theorem columns_eq_iff {xs ys : List (JsNumber × JsNumber)} :
    (xs.map Prod.fst = ys.map Prod.fst ∧ xs.map Prod.snd = ys.map Prod.snd) ↔ xs = ys := by
  constructor
  · rintro ⟨hfst, hsnd⟩
    rw [← List.zip_unzip xs, ← List.zip_unzip ys, List.unzip_eq_map, List.unzip_eq_map, hfst, hsnd]
  · rintro rfl
    exact ⟨rfl, rfl⟩

theorem shownPoints_split (log : DataflashLogLike) (message field : Text) (inst : Option JsNumber)
    (records : List MessageRecord) : shownPoints log message field inst records =
      shownPoints log message field inst (readRecords records) ++
        shownPoints log message field inst (unreadRecords records) := by
  rw [shownPoints, shownPoints, shownPoints, ← List.filterMap_append, readRecords, unreadRecords,
    List.takeWhile_append_dropWhile]

theorem literal_iff (htarget : fieldTarget (fieldObject message inst) = some (message, literal))
    (hnamed) (hliteral : IsLiteral inst literal) (hfield : field ≠ units "_timestamp") :
    ∃ series, (evaluateOnDataflash engine tables log [termOfField message inst field hnamed]
        param)[0]? = some series ∧
      (((seriesFromField log message field inst).t = series.t ∧
          (seriesFromField log message field inst).v = series.v) ↔
        shownPoints log message field inst (unreadRecords (log.records message)) = []) := by
  obtain ⟨series, hseries, ht, hv⟩ := evaluateOnDataflash_target engine tables log param htarget
    hnamed hliteral hfield
  obtain ⟨ht', hv'⟩ := points_seriesFromField log message field inst
  refine ⟨series, hseries, ?_⟩
  rw [ht, hv, ht', hv', columns_eq_iff, shownPoints_split log message field inst,
    List.append_right_eq_self]

/-- The text of a field and an instance is that of a term, and the field has the points of the term
just where they are plotted alike. -/
theorem seriesFromField_iff (engine : Engine) (tables : MagFieldTables) (log : DataflashLogLike)
    (param : Option (Text → Option JsNumber)) {message field : Text} {inst : Option JsNumber}
    (hmessage : isIdentifier message = true) (hkeyword : message ∉ KEYWORDS)
    (hconstant : isConstantName message = false) (hidentifier : isIdentifier field = true)
    (hfield : field ≠ units "_timestamp") (hinst : ∀ i ∈ inst, i.IsDouble) :
    ∃ term, parseTerm (fieldLabel message inst field) = some (.ok term) ∧
      ∃ series, (evaluateOnDataflash engine tables log [term] param)[0]? = some series ∧
        (((seriesFromField log message field inst).t = series.t ∧
            (seriesFromField log message field inst).v = series.v) ↔
          PlotsAlike log message field inst) := by
  obtain ⟨hnamed, hparsed⟩ := parseTerm_fieldLabel hmessage hkeyword hidentifier hinst
  refine ⟨_, hparsed, ?_⟩
  cases inst with
  | none =>
    have htarget : fieldTarget (fieldObject message none) = some (message, none) := by
      rw [fieldObject, fieldTarget, hconstant]
      rfl
    exact literal_iff engine tables log param htarget hnamed .none hfield
  | some i =>
    have hnonfinite (hi : i.isFinite = false) : ∃ series, (evaluateOnDataflash engine tables log
        [termOfField message (some i) field hnamed] param)[0]? = some series ∧
          (((seriesFromField log message field (some i)).t = series.t ∧
              (seriesFromField log message field (some i)).v = series.v) ↔
            shownPoints log message field (some i) (log.records message) = []) := by
      obtain ⟨series, hseries, ht, hv⟩ := evaluateOnDataflash_nonfinite engine tables log param
        hconstant hi hnamed
      obtain ⟨ht', hv'⟩ := points_seriesFromField log message field (some i)
      refine ⟨series, hseries, ?_⟩
      rw [ht, hv, ht', hv']
      exact @columns_eq_iff _ []
    cases i with
    | nan => exact hnonfinite rfl
    | infinite negative => exact hnonfinite rfl
    | finite negative q =>
      have hliteral (literal : JsNumber)
          (hnode : literalInstance (numberNode (.finite negative q)) = some literal)
          (hkey : literal.mapKey = JsNumber.mapKey (.finite negative q))
          (hcase : negative = true ∨ q.den = 1) :
          ∃ series, (evaluateOnDataflash engine tables log
              [termOfField message (some (.finite negative q)) field hnamed] param)[0]? =
                some series ∧
            (((seriesFromField log message field (some (.finite negative q))).t = series.t ∧
                (seriesFromField log message field (some (.finite negative q))).v = series.v) ↔
              PlotsAlike log message field (some (.finite negative q))) := by
        have htarget : fieldTarget (fieldObject message (some (.finite negative q))) =
            some (message, some literal) := by
          rw [fieldObject, fieldTarget, hnode]
          rfl
        rw [PlotsAlike, if_pos hcase]
        exact literal_iff engine tables log param htarget hnamed (.some hkey) hfield
      by_cases hneg : negative = true ∧ q ≠ 0
      · refine hliteral (-.finite false q) ?_ ?_ (.inl hneg.1)
        · rw [numberNode, if_pos hneg]
          rfl
        · rw [hneg.1]
          rfl
      · by_cases hden : q.den = 1
        · refine hliteral (.finite false q) ?_ ?_ (.inr hden)
          · rw [numberNode, if_neg hneg, literalInstance, JsNumber.isInteger, JsNumber.toInt?,
              if_pos hden]
            rfl
          · cases negative with
            | false => rfl
            | true =>
              have hzero : q = 0 := by simpa using hneg
              simp [mapKey, hzero]
        · have hzero : q ≠ 0 := by
            rintro rfl
            exact hden rfl
          obtain rfl : negative = false := by
            cases negative with
            | false => rfl
            | true => exact absurd ⟨rfl, hzero⟩ hneg
          obtain ⟨series, hseries, ht, hv⟩ := evaluateOnDataflash_fraction engine tables log param
            hconstant hden hnamed
          obtain ⟨ht', hv'⟩ := points_seriesFromField log message field (some (.finite false q))
          refine ⟨series, hseries, ?_⟩
          rw [ht, hv, ht', hv', columns_eq_iff, PlotsAlike, if_neg (by simp [hden]), eq_comm]

end Agreement

def altitudeRecord (time : JsNumber) : MessageRecord :=
  ⟨0, fun field =>
    if field = units "TimeUS" then .num time
    else if field = units "Alt" then .num (.finite false 1)
    else .undefined⟩

def altitudeLog (time : JsNumber) : DataflashLogLike :=
  ⟨JsMap.empty.set (units "GPS") [altitudeRecord time], .empty⟩

/-- The time of a record is no number: the field has its point, and the term none. -/
theorem no_time_differs :
    ∃ term, parseTerm (fieldLabel (units "GPS") none (units "Alt")) = some (.ok term) ∧
      ∃ series, (evaluateOnDataflash bareEngine noTables (altitudeLog .nan) [term] none)[0]? =
          some series ∧
        ¬((seriesFromField (altitudeLog .nan) (units "GPS") (units "Alt") none).t = series.t ∧
          (seriesFromField (altitudeLog .nan) (units "GPS") (units "Alt") none).v = series.v) := by
  have hinst : ∀ i ∈ (none : Option JsNumber), i.IsDouble := by
    rintro i ⟨⟩
  obtain ⟨hnamed, hparsed⟩ := @parseTerm_fieldLabel (units "Alt") (units "GPS") none (by decide)
    (by decide) (by decide) hinst
  refine ⟨_, hparsed, ?_⟩
  have htarget : fieldTarget (fieldObject (units "GPS") none) = some (units "GPS", none) := rfl
  obtain ⟨series, hseries, hiff⟩ := literal_iff bareEngine noTables (altitudeLog .nan) none htarget
    hnamed .none (by decide)
  refine ⟨series, hseries, fun h => ?_⟩
  have hpoints : shownPoints (altitudeLog .nan) (units "GPS") (units "Alt") none
      (unreadRecords ((altitudeLog .nan).records (units "GPS"))) =
        [(.nan, .finite false 1)] := rfl
  rw [hiff, hpoints] at h
  cases h

/-- The first record of a log is plotted alike. -/
theorem first_record_alike :
    ∃ term, parseTerm (fieldLabel (units "GPS") none (units "Alt")) = some (.ok term) ∧
      ∃ series, (evaluateOnDataflash bareEngine noTables (altitudeLog 0) [term] none)[0]? =
          some series ∧
        ((seriesFromField (altitudeLog 0) (units "GPS") (units "Alt") none).t = series.t ∧
          (seriesFromField (altitudeLog 0) (units "GPS") (units "Alt") none).v = series.v) := by
  have hinst : ∀ i ∈ (none : Option JsNumber), i.IsDouble := by
    rintro i ⟨⟩
  obtain ⟨term, hparsed, series, hseries, hiff⟩ := @seriesFromField_iff bareEngine
    noTables (altitudeLog 0) none (units "GPS") (units "Alt") none (by decide) (by decide)
    (by decide) (by decide) (by decide) hinst
  have hlt : ((0 : JsNumber) * 1e-6).lt (.infinite false) = true := by decide +kernel
  refine ⟨term, hparsed, series, hseries, hiff.mpr ?_⟩
  have htime : recordTime (altitudeRecord 0) = some (0 * 1e-6) := by
    rw [recordTime, altitudeRecord]
    dsimp only
    rw [if_pos rfl]
  have hrecords (time : JsNumber) : (altitudeLog time).records (units "GPS") =
      [altitudeRecord time] := rfl
  rw [PlotsAlike, hrecords, unreadRecords,
    List.dropWhile_cons_of_pos (by rw [htime, Option.all_some, hlt]), List.dropWhile_nil]
  exact List.filterMap_nil

end ArduConfigurator.PlotCore.Dataflash
