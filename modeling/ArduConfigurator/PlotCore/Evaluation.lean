import ArduConfigurator.PlotCore.Functions
import ArduConfigurator.PlotCore.References

/-! # Evaluation of graph expressions

`expression.ts`: the compiler from trees to functions of an environment, and what a compiled
expression reads. The collector of references and the compiler have the same fast paths, so an
expression reads no message that its references do not name. -/
namespace ArduConfigurator.PlotCore
open JsNumber (mapKey)
set_option autoImplicit false

variable (engine : Engine) (tables : MagFieldTables)

def messageValue (record : Option MessageRecord) : Value :=
  record.elim .undefined MessageRecord.value

/-- `MSG.Field` and `MSG[k].Field`. -/
def fieldOf (env : EvalEnv) (name : Text) (inst : Option JsNumber) (field : Text) : Value :=
  if field = units "_timestamp" then
    if (env.message name inst).isSome then .ofOption (env.timestamp name inst) else .undefined
  else (env.message name inst).elim .undefined fun record => (record.member field).plain

def memberOf (value : Value) (field : Text) : Value :=
  value.members.elim .undefined fun member => (member field).plain

/-- `value[i]` where `i` is an integer. -/
def indexOf (value index : Value) : Value :=
  ((num index).bind JsNumber.toInt?).elim .undefined (elementAt value)

/-- `message[i]`, with an index that is evaluated. -/
def instanceOf (env : EvalEnv) (name : Text) (index : Value) : Value :=
  (num index).elim .undefined fun i => messageValue (env.message name (some i))

mutual

def compileNode (node : Node) (env : EvalEnv) : Call Value :=
  match node with
  | .num value => pure (.num value)
  | .str value => pure (.str value)
  | .name name =>
    match constantValue name with
    | some constant => pure (.num constant)
    | none =>
      pure (if name = units "None" then .undefined else messageValue (env.message name none))
  | .attr object field =>
    match fieldTarget object with
    | some (name, inst) => pure (fieldOf env name inst field)
    | none => do
      let value ← compileNode object env
      return memberOf value field
  | .index object index =>
    match messageName object with
    | some name =>
      match literalInstance index with
      | some literal => pure (messageValue (env.message name (some literal)))
      | none => do
        let i ← compileNode index env
        return instanceOf env name i
    | none => do
      let value ← compileNode object env
      let i ← compileNode index env
      return indexOf value i
  | .call callee args =>
    match (MATH1 engine).get callee, args.length with
    | some math1, 1 => do
      let values ← compileArgs args env
      return .ofOption ((num (argument values 0)).map math1)
    | _, _ =>
      match lookupFunction engine tables callee with
      | none => pure .undefined
      | some fn => do
        let values ← compileArgs args env
        fn values env
  | .unary op operand => do
    let x ← compileNode operand env
    return unary op x
  | .binary op left right =>
    match op with
    | .and => do
      let a ← compileNode left env
      if a.truthy then compileNode right env else return a
    | .or => do
      let a ← compileNode left env
      if a.truthy then return a else compileNode right env
    | op => do
      let a ← compileNode left env
      let b ← compileNode right env
      match binary engine op a b with
      | .ok value => return value
      | .error error => throw error

def compileArgs (args : List Node) (env : EvalEnv) : Call (List Value) :=
  match args with
  | [] => pure []
  | arg :: args => do
    let value ← compileNode arg env
    let values ← compileArgs args env
    return value :: values

end

def evaluate (ast : Node) (env : EvalEnv) : StateM FilterState Value := do
  match ← (compileNode engine tables ast env).run with
  | .ok value => return value
  | .error _ => return .undefined

/-! ## The functions read no messages -/

def ReadsNoMessages (fn : ExpressionFunction) : Prop :=
  ∀ args env env', env.param = env'.param → env.time = env'.time → fn args env = fn args env'

@[simp] theorem pureFunction_reads (f : List Value → Value) : ReadsNoMessages (pureFunction f) :=
  fun _ _ _ _ _ => rfl

@[simp] theorem math1Function_reads (f : JsNumber → JsNumber) :
    ReadsNoMessages (math1Function f) := pureFunction_reads _

@[simp] theorem numbersFunction_reads (count : ℕ) (f : List JsNumber → Value) :
    ReadsNoMessages (numbersFunction count f) := pureFunction_reads _

@[simp] theorem variadicFunction_reads (f : List JsNumber → Value) :
    ReadsNoMessages (variadicFunction f) := pureFunction_reads _

@[simp] theorem recordFunction_reads (f : Members → List Value → Call Value) :
    ReadsNoMessages (recordFunction f) := fun _ _ _ _ _ => rfl

@[simp] theorem recordsFunction_reads (f : Members → Members → List Value → Call Value) :
    ReadsNoMessages (recordsFunction f) := fun _ _ _ _ _ => rfl

@[simp] theorem altitudeFunction_reads (height : JsNumber → JsNumber → JsNumber → JsNumber) :
    ReadsNoMessages (altitudeFunction height) := by
  intro args env env' hparam _
  simp only [altitudeFunction, hparam]

@[simp] theorem headingFunction_reads (x y z : Text) (rotate : Members → Call Matrix3) :
    ReadsNoMessages (headingFunction engine x y z rotate) := by
  intro args env env' hparam _
  simp only [headingFunction, hparam]

@[simp] theorem magYawFunction_reads : ReadsNoMessages (magYawFunction engine tables) :=
  fun _ _ _ _ _ => rfl

@[simp] theorem expectedMagYaw_reads : ReadsNoMessages (expectedMagYaw engine tables) :=
  fun _ _ _ _ _ => rfl

@[simp] theorem lowpass_reads : ReadsNoMessages (lowpass engine) := fun _ _ _ _ _ => rfl

@[simp] theorem lowpassHz_reads : ReadsNoMessages (lowpassHz engine) := fun _ _ _ _ _ => rfl

@[simp] theorem diff_reads : ReadsNoMessages (diff engine) := fun _ _ _ _ _ => rfl

@[simp] theorem delta_reads : ReadsNoMessages (delta engine) := by
  intro args env env' _ htime
  simp only [delta, htime]

@[simp] theorem deltaAngle_reads : ReadsNoMessages (deltaAngle engine) := by
  intro args env env' _ htime
  simp only [deltaAngle, htime]

@[simp] theorem integral_reads : ReadsNoMessages (integral engine) := fun _ _ _ _ _ => rfl

@[simp] theorem average_reads : ReadsNoMessages (average engine) := fun _ _ _ _ _ => rfl

@[simp] theorem simBodyRatesFunction_reads : ReadsNoMessages (simBodyRatesFunction engine) := by
  intro args env env' _ htime
  simp only [simBodyRatesFunction, htime]

variable {name : Text}

theorem functions_read_no_messages {fn : ExpressionFunction}
    (h : lookupFunction engine tables name = some fn) : ReadsNoMessages fn := by
  have hmem := Entries.mem_of_get h
  rw [FUNCTIONS, List.mem_append] at hmem
  rcases hmem with hmem | hmem
  · obtain ⟨entry, _, hentry⟩ := List.mem_map.mp hmem
    rw [← (Prod.mk.inj hentry).2]
    exact math1Function_reads entry.2
  · have hall : ∀ entry ∈ DEFINED engine tables, ReadsNoMessages entry.2 := by
      simp [DEFINED]
    exact hall _ hmem

/-! ## An expression reads what its references name -/

/-- The reference names the instance; one without an instance names them all. -/
def Reference.Names (ref : Reference) (inst : Option JsNumber) : Prop :=
  ref.inst = none ∨ ref.inst.map mapKey = inst.map mapKey

structure AgreesOn (env env' : EvalEnv) (ref : Reference) : Prop where
  message : ∀ inst, ref.Names inst → env.message ref.message inst = env'.message ref.message inst
  timestamp : ∀ inst, ref.Names inst →
    env.timestamp ref.message inst = env'.timestamp ref.message inst

theorem fieldOf_agree {env env' : EvalEnv} {field : Text} {inst : Option JsNumber}
    (h : AgreesOn env env' ⟨name, inst, some field⟩) :
    fieldOf env name inst field = fieldOf env' name inst field := by
  have hmessage := h.message inst (.inr rfl)
  have htimestamp := h.timestamp inst (.inr rfl)
  dsimp only at hmessage htimestamp
  simp only [fieldOf, hmessage, htimestamp]

variable {env env' : EvalEnv}

theorem instanceOf_agree (h : AgreesOn env env' ⟨name, none, none⟩) (index : Value) :
    instanceOf env name index = instanceOf env' name index := by
  unfold instanceOf
  cases num index with
  | none => rfl
  | some i => exact congrArg messageValue (h.message (some i) (.inl rfl))

variable {object : Node}

theorem messageName_eq_some (h : messageName object = some name) :
    object = .name name ∧ isConstantName name = false := by
  cases object with
  | name =>
    rw [messageName] at h
    split at h
    · cases h
    · next hconstant =>
      cases h
      exact ⟨rfl, Bool.eq_false_iff.mpr hconstant⟩
  | _ => cases h

mutual

theorem compileNode_agree (hparam : env.param = env'.param) (htime : env.time = env'.time)
    (node : Node) (hrefs : ∀ ref ∈ visit referenceAt node, AgreesOn env env' ref) :
    compileNode engine tables node env = compileNode engine tables node env' := by
  cases node with
  | num value => rfl
  | str value => rfl
  | name name =>
    unfold compileNode
    cases hconstant : constantValue name with
    | some constant => rfl
    | none =>
      by_cases hnone : name = units "None"
      · simp only [hnone, if_true]
      · have hmem : (⟨name, none, none⟩ : Reference) ∈ visit referenceAt (.name name) := by
          simp [visit, referenceAt, isConstantName, hconstant, hnone]
        simp only [hnone, if_false, (hrefs _ hmem).message none (.inl rfl)]
  | attr object field =>
    unfold compileNode
    cases htarget : fieldTarget object with
    | some target =>
      have hmem : (⟨target.1, target.2, some field⟩ : Reference) ∈
          visit referenceAt (.attr object field) := by
        simp [visit, referenceAt, htarget]
      exact congrArg pure (fieldOf_agree (hrefs _ hmem))
    | none =>
      rw [visit] at hrefs
      simp only [referenceAt, htarget, List.nil_append, if_true] at hrefs
      simp only [compileNode_agree hparam htime object hrefs]
  | index object index =>
    unfold compileNode
    cases hname : messageName object with
    | some name =>
      obtain ⟨rfl, hconstant⟩ := messageName_eq_some hname
      cases hliteral : literalInstance index with
      | some literal =>
        have hmem : (⟨name, some literal, none⟩ : Reference) ∈
            visit referenceAt (.index (.name name) index) := by
          simp [visit, referenceAt, hname, hliteral]
        exact congrArg (fun record => pure (messageValue record))
          ((hrefs _ hmem).message (some literal) (.inr rfl))
      | none =>
        rw [visit] at hrefs
        simp only [referenceAt, hname, hliteral, List.nil_append, if_true, List.mem_append] at hrefs
        have hmem : (⟨name, none, none⟩ : Reference) ∈ visit referenceAt (.name name) := by
          simp [visit, referenceAt, hconstant]
        simp only [compileNode_agree hparam htime index fun ref href => hrefs ref (.inr href),
          instanceOf_agree (hrefs _ (.inl hmem))]
    | none =>
      rw [visit] at hrefs
      simp only [referenceAt, hname, List.nil_append, if_true, List.mem_append] at hrefs
      simp only [compileNode_agree hparam htime object fun ref href => hrefs ref (.inl href),
        compileNode_agree hparam htime index fun ref href => hrefs ref (.inr href)]
  | call callee args =>
    rw [visit] at hrefs
    simp only [referenceAt, List.nil_append, if_true] at hrefs
    unfold compileNode
    simp only [compileArgs_agree hparam htime args hrefs]
    split
    · rfl
    · cases hfn : lookupFunction engine tables callee with
      | none => rfl
      | some fn =>
        have hreads := functions_read_no_messages engine tables hfn
        simp only [fun values => hreads values env env' hparam htime]
  | unary op operand =>
    rw [visit] at hrefs
    simp only [referenceAt, List.nil_append, if_true] at hrefs
    unfold compileNode
    simp only [compileNode_agree hparam htime operand hrefs]
  | binary op left right =>
    rw [visit] at hrefs
    simp only [referenceAt, List.nil_append, if_true, List.mem_append] at hrefs
    unfold compileNode
    simp only [compileNode_agree hparam htime left fun ref href => hrefs ref (.inl href),
      compileNode_agree hparam htime right fun ref href => hrefs ref (.inr href)]

theorem compileArgs_agree (hparam : env.param = env'.param) (htime : env.time = env'.time)
    (args : List Node) (hrefs : ∀ ref ∈ visitArgs referenceAt args, AgreesOn env env' ref) :
    compileArgs engine tables args env = compileArgs engine tables args env' := by
  cases args with
  | nil => rfl
  | cons arg args =>
    rw [visitArgs] at hrefs
    simp only [List.mem_append] at hrefs
    unfold compileArgs
    simp only [compileNode_agree hparam htime arg fun ref href => hrefs ref (.inl href),
      compileArgs_agree hparam htime args fun ref href => hrefs ref (.inr href)]

end

/-! ## The references that are collected -/

/-- What the collector notes has a message named by an identifier and an instance that is a
double. -/
def Reference.WellFormed (ref : Reference) : Prop :=
  isIdentifier ref.message = true ∧ ∀ inst ∈ ref.inst, inst.IsDouble

variable {node : Node}

theorem literalInstance_isDouble {literal : JsNumber} (hnamed : node.Named)
    (h : literalInstance node = some literal) : literal.IsDouble := by
  unfold literalInstance at h
  split at h
  · next value =>
    split at h
    · cases h
      exact hnamed
    · cases h
  · cases h
    exact JsNumber.IsDouble.neg hnamed
  · cases h

theorem fieldTarget_wellFormed {target : Text × Option JsNumber} (field : Text)
    (hnamed : object.Named) (h : fieldTarget object = some target) :
    (Reference.mk target.1 target.2 (some field)).WellFormed := by
  unfold fieldTarget at h
  split at h
  · split at h
    · cases h
    · cases h
      exact ⟨hnamed, by simp⟩
  · next name index =>
    obtain ⟨literal, hliteral, rfl⟩ := Option.map_eq_some_iff.mp h
    refine ⟨hnamed.1, fun inst hinst => ?_⟩
    cases hinst
    exact literalInstance_isDouble hnamed.2 hliteral
  · cases h

theorem referenceAt_wellFormed (hnamed : node.Named) :
    ∀ ref ∈ (referenceAt node).1, ref.WellFormed := by
  intro ref href
  cases node with
  | name name =>
    rw [referenceAt] at href
    dsimp only at href
    split at href
    · cases href
    · obtain rfl := List.mem_singleton.mp href
      exact ⟨hnamed, by simp⟩
  | attr object field =>
    rw [referenceAt] at href
    split at href
    · next name inst htarget =>
      obtain rfl := List.mem_singleton.mp href
      have hobject : object.Named := hnamed
      exact fieldTarget_wellFormed _ hobject htarget
    · cases href
  | index object index =>
    rw [referenceAt] at href
    split at href
    · next name literal hname hliteral =>
      obtain rfl := List.mem_singleton.mp href
      obtain ⟨rfl, _⟩ := messageName_eq_some hname
      refine ⟨hnamed.1, fun inst hinst => ?_⟩
      cases hinst
      exact literalInstance_isDouble hnamed.2 hliteral
    · cases href
  | _ => cases href

mutual

theorem visit_wellFormed (node : Node) (hnamed : node.Named) :
    ∀ ref ∈ visit referenceAt node, ref.WellFormed := by
  intro ref href
  have hnode := referenceAt_wellFormed hnamed ref
  cases node with
  | num value => cases href
  | str value => cases href
  | name name =>
    unfold visit at href
    simp only [ite_self, List.append_nil] at href
    exact hnode href
  | attr object field =>
    rw [visit, List.mem_append] at href
    rcases href with href | href
    · exact hnode href
    · split at href
      · exact visit_wellFormed object hnamed ref href
      · cases href
  | index object index =>
    rw [visit, List.mem_append] at href
    rcases href with href | href
    · exact hnode href
    · split at href
      · rcases List.mem_append.mp href with href | href
        · exact visit_wellFormed object hnamed.1 ref href
        · exact visit_wellFormed index hnamed.2 ref href
      · cases href
  | call callee args =>
    rw [visit, List.mem_append] at href
    rcases href with href | href
    · exact hnode href
    · exact visitArgs_wellFormed args hnamed ref href
  | unary op operand =>
    rw [visit, List.mem_append] at href
    rcases href with href | href
    · exact hnode href
    · exact visit_wellFormed operand hnamed ref href
  | binary op left right =>
    rw [visit, List.mem_append] at href
    rcases href with href | href
    · exact hnode href
    · rcases List.mem_append.mp href with href | href
      · exact visit_wellFormed left hnamed.1 ref href
      · exact visit_wellFormed right hnamed.2 ref href

theorem visitArgs_wellFormed (args : List Node) (hnamed : ArgsNamed args) :
    ∀ ref ∈ visitArgs referenceAt args, ref.WellFormed := by
  intro ref href
  cases args with
  | nil => cases href
  | cons arg args =>
    rw [visitArgs, List.mem_append] at href
    rcases href with href | href
    · exact visit_wellFormed arg hnamed.1 ref href
    · exact visitArgs_wellFormed args hnamed.2 ref href

end

/-! ## One reference of each key -/

theorem bracket_notMem_identifier (h : isIdentifier name = true) :
    0x5B ∉ name := by
  cases name with
  | nil => exact List.not_mem_nil
  | cons c rest =>
    rw [isIdentifier, Bool.and_eq_true, List.all_eq_true] at h
    intro hmem
    rcases List.mem_cons.mp hmem with rfl | hrest
    · exact absurd h.1 (by decide)
    · exact absurd (h.2 _ hrest) (by decide)

theorem bracket_notMem_numberToString (x : JsNumber) : 0x5D ∉ DecimalText.numberToString x := by
  cases x with
  | nan => decide
  | infinite negative => cases negative <;> decide
  | finite negative q =>
    intro hmem
    exact absurd ((DecimalText.units_numberToString negative q).2 _ hmem) (by decide)

theorem numberToString_ne_nil (x : JsNumber) : DecimalText.numberToString x ≠ [] := by
  cases x with
  | nan => decide
  | infinite negative => cases negative <;> decide
  | finite negative q => exact (DecimalText.units_numberToString negative q).1

theorem split_at {c : UInt16} {a a' b b' : Text} (ha : c ∉ a) (ha' : c ∉ a')
    (h : a ++ c :: b = a' ++ c :: b') : a = a' ∧ b = b' := by
  have hwhile {l : Text} (hl : c ∉ l) (r : Text) : (l ++ c :: r).takeWhile (· ≠ c) = l := by
    have hall : ∀ d ∈ l, decide (d ≠ c) = true :=
      fun d hd => decide_eq_true (ne_of_mem_of_not_mem hd hl)
    rw [List.takeWhile_append_of_pos hall, List.takeWhile_cons_of_neg (by simp), List.append_nil]
  have heq := congrArg (List.takeWhile (· ≠ c)) h
  rw [hwhile ha, hwhile ha'] at heq
  subst heq
  exact ⟨rfl, (List.cons.inj (List.append_cancel_left h)).2⟩

variable {a b : Reference}

theorem Reference.WellFormed.same (ha : a.WellFormed) (hb : b.WellFormed) (hkey : a.key = b.key) :
    a.message = b.message ∧ a.inst.map mapKey = b.inst.map mapKey := by
  have hopen : units "[" = [0x5B] := rfl
  have hclose : units "]." = [0x5D, 0x2E] := rfl
  have hbracket (inst : Option JsNumber) : 0x5D ∉ inst.elim [] DecimalText.numberToString := by
    cases inst with
    | none => exact List.not_mem_nil
    | some inst => exact bracket_notMem_numberToString inst
  simp only [Reference.key, hopen, hclose, List.append_assoc, List.cons_append,
    List.nil_append] at hkey
  obtain ⟨hmessage, hrest⟩ :=
    split_at (bracket_notMem_identifier ha.1) (bracket_notMem_identifier hb.1) hkey
  obtain ⟨hinst, _⟩ := split_at (hbracket a.inst) (hbracket b.inst) hrest
  refine ⟨hmessage, ?_⟩
  cases hai : a.inst with
  | none =>
    cases hbi : b.inst with
    | none => rfl
    | some y =>
      rw [hai, hbi] at hinst
      exact absurd hinst.symm (numberToString_ne_nil y)
  | some x =>
    cases hbi : b.inst with
    | none =>
      rw [hai, hbi] at hinst
      exact absurd hinst (numberToString_ne_nil x)
    | some y =>
      rw [hai, hbi] at hinst
      exact congrArg some (JsNumber.mapKey_of_text (ha.2 x hai) (hb.2 y hbi) hinst)

theorem AgreesOn.of_same (h : AgreesOn env env' a) (hmessage : a.message = b.message)
    (hinst : a.inst.map mapKey = b.inst.map mapKey) :
    AgreesOn env env' b := by
  have hnames (inst : Option JsNumber) (hb : b.Names inst) : a.Names inst := by
    rcases hb with hb | hb
    · rw [hb] at hinst
      exact .inl (Option.map_eq_none_iff.mp hinst)
    · exact .inr (hinst.trans hb)
  refine ⟨fun inst hb => ?_, fun inst hb => ?_⟩
  · rw [← hmessage, h.message inst (hnames inst hb)]
  · rw [← hmessage, h.timestamp inst (hnames inst hb)]

variable {out : List Reference} {seen : Reference}

theorem mem_addReference {ref : Reference} (h : seen ∈ addReference out ref) :
    seen ∈ out ∨ seen = ref := by
  unfold addReference at h
  split at h
  · exact .inl h
  · simpa using h

theorem key_addReference (out : List Reference) (ref : Reference) :
    (∃ seen ∈ addReference out ref, seen.key = ref.key) ∧
      ∀ seen ∈ out, seen ∈ addReference out ref := by
  unfold addReference
  split
  · next hany =>
    obtain ⟨seen, hseen, hkey⟩ := List.any_eq_true.mp hany
    exact ⟨⟨seen, hseen, of_decide_eq_true hkey⟩, fun seen hseen => hseen⟩
  · exact ⟨⟨ref, by simp, rfl⟩, fun seen hseen => List.mem_append_left _ hseen⟩

theorem mem_addReferences {refs : List Reference} (h : seen ∈ refs.foldl addReference out) :
    seen ∈ out ∨ seen ∈ refs := by
  induction refs generalizing out with
  | nil => exact .inl h
  | cons ref refs ih =>
    rcases ih h with hout | hrefs
    · rcases mem_addReference hout with hout | rfl
      · exact .inl hout
      · exact .inr List.mem_cons_self
    · exact .inr (List.mem_cons_of_mem _ hrefs)

theorem key_addReferences (refs out : List Reference) :
    (∀ ref ∈ refs, ∃ seen ∈ refs.foldl addReference out, seen.key = ref.key) ∧
      ∀ seen ∈ out, seen ∈ refs.foldl addReference out := by
  induction refs generalizing out with
  | nil => exact ⟨fun ref href => absurd href List.not_mem_nil, fun seen hseen => hseen⟩
  | cons ref refs ih =>
    obtain ⟨hkeys, hkept⟩ := ih (addReference out ref)
    obtain ⟨⟨seen, hseen, hkey⟩, hout⟩ := key_addReference out ref
    refine ⟨fun other hother => ?_, fun seen hseen => hkept seen (hout seen hseen)⟩
    rcases List.mem_cons.mp hother with rfl | hother
    · exact ⟨seen, hkept seen hseen, hkey⟩
    · exact hkeys other hother

variable {ast : Node}

theorem collectReferences_wellFormed (hnamed : ast.Named) :
    ∀ ref ∈ collectReferences ast, ref.WellFormed := by
  intro ref href
  rcases mem_addReferences href with href | href
  · cases href
  · exact visit_wellFormed ast hnamed ref href

theorem evaluate_agree (hnamed : ast.Named) (hparam : env.param = env'.param)
    (htime : env.time = env'.time) (hrefs : ∀ ref ∈ collectReferences ast, AgreesOn env env' ref) :
    evaluate engine tables ast env = evaluate engine tables ast env' := by
  have hnode := compileNode_agree engine tables hparam htime ast fun ref href => by
    obtain ⟨seen, hseen, hkey⟩ := (key_addReferences (visit referenceAt ast) []).1 ref href
    obtain ⟨hmessage, hinst⟩ := (collectReferences_wellFormed hnamed seen hseen).same
      (visit_wellFormed ast hnamed ref href) hkey
    exact (hrefs seen hseen).of_same hmessage hinst
  rw [evaluate, evaluate, hnode]

end ArduConfigurator.PlotCore
