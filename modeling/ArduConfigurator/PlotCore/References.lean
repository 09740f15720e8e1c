import ArduConfigurator.PlotCore.ParserTrees

/-! # Terms and their references

`expression.ts`: a term of a graph with its suffixes, and the messages and functions that its
expressions name. -/
namespace ArduConfigurator.PlotCore
open DecimalText (numberToString)
set_option autoImplicit false

/-! ## Terms -/

inductive Axis
  | first
  | second

structure Term where
  text : Text
  label : Text
  axis : Axis
  ast : Node
  condition : Option Node
  ast_named : ast.Named
  condition_named : ∀ node ∈ condition, node.Named

theorem named_of_no_condition : ∀ node ∈ (none : Option Node), node.Named := by simp

/-- `text.lastIndexOf(c)`. -/
def lastIndexOf (c : UInt16) (text : Text) : Option ℕ :=
  (text.reverse.idxOf? c).map fun i => text.length - 1 - i

def splitLabel (body : Text) : Option Text × Text :=
  if body.getLast? = some 0x3E then
    match lastIndexOf 0x3C body with
    | some opened =>
      if 0 < opened ∧ ¬(body[opened - 1]?.any fun c => (units "<>=!").contains c) ∧
          ¬(body[opened + 1]?.any fun c => (units "=<").contains c) then
        (some (body.drop (opened + 1)).dropLast, body.take opened)
      else (none, body)
    | none => (none, body)
  else (none, body)

def splitAxis (body : Text) : Axis × Text :=
  if units ":2" <:+ body then (.second, body.take (body.length - 2))
  else if units ":1" <:+ body then (.first, body.take (body.length - 2))
  else (.first, body)

/-- The formula of a term and its condition with the place where the condition begins. -/
def splitCondition (body : Text) : Except ℕ (Text × Option (Text × ℕ)) :=
  if body.getLast? = some 0x7D then
    match lastIndexOf 0x7B body with
    | none => .error (body.length - 1)
    | some opened => .ok (body.take opened, some ((body.drop (opened + 1)).dropLast, opened + 1))
  else .ok (body, none)

def termOf (text label : Text) (axis : Axis) (formula : Text)
    (condition : { condition : Option Node // ∀ node ∈ condition, node.Named }) :
    Option (Except ExpressionError Term) :=
  if trim formula = [] then some (.error ⟨units "empty expression", 0, text⟩)
  else
    match hparsed : parseFormula formula with
    | none => none
    | some (.error error) => some (.error { error with text := text })
    | some (.ok ast) => some (.ok
      { text, label, axis, ast
        condition := condition.1
        ast_named := parseFormula_named hparsed
        condition_named := condition.2 })

def parseTerm (text : Text) : Option (Except ExpressionError Term) :=
  let (customLabel, body) := splitLabel (trim text)
  let (axis, body) := splitAxis body
  let label := customLabel.getD body
  match splitCondition body with
  | .error position => some (.error ⟨units "unmatched '\x7d'", position, text⟩)
  | .ok (formula, none) => termOf text label axis formula ⟨none, by simp⟩
  | .ok (formula, some (condition, start)) =>
    match hparsed : parseFormula condition with
    | none => none
    | some (.error error) =>
      some (.error { error with position := error.position + start, text := text })
    | some (.ok ast) => termOf text label axis formula
      ⟨some ast, fun node hnode => Option.some.inj hnode ▸ parseFormula_named hparsed⟩

def parseExpression (text : Text) : List Term × List ExpressionError :=
  let results := ((text.splitOnP isWhiteSpace).filter (· ≠ [])).filterMap parseTerm
  (results.filterMap Except.toOption,
    results.filterMap fun result => match result with
      | .ok _ => none
      | .error error => some error)

/-! ## The parts of an expression -/

def outcomeText : Except ExpressionError Term → Text
  | .ok term => term.text
  | .error error => error.text

theorem termOf_outcome (text label : Text) (axis : Axis) (formula : Text)
    (condition : { condition : Option Node // ∀ node ∈ condition, node.Named }) :
    ∃ result, termOf text label axis formula condition = some result ∧ outcomeText result = text := by
  have hsome := parseFormula_isSome formula
  unfold termOf
  split
  · exact ⟨_, rfl, rfl⟩
  · split
    · next hnone => simp [hnone] at hsome
    · exact ⟨_, rfl, rfl⟩
    · exact ⟨_, rfl, rfl⟩

theorem parseTerm_outcome (text : Text) :
    ∃ result, parseTerm text = some result ∧ outcomeText result = text := by
  unfold parseTerm
  dsimp only
  split
  · exact ⟨_, rfl, rfl⟩
  · exact termOf_outcome _ _ _ _ _
  · next formula condition start hsplit =>
    have hsome := parseFormula_isSome condition
    split
    · next hnone => simp [hnone] at hsome
    · exact ⟨_, rfl, rfl⟩
    · exact termOf_outcome _ _ _ _ _

/-- Every part between blanks has one outcome, the one it has alone; the terms and the errors are
these outcomes, both in the order of the parts. -/
theorem parseExpression_accounts (text : Text) :
    ∃ results, results.map outcomeText = (text.splitOnP isWhiteSpace).filter (· ≠ []) ∧
      (∀ result ∈ results, parseTerm (outcomeText result) = some result) ∧
      ((parseExpression text).1.map Except.ok).Sublist results ∧
      ((parseExpression text).2.map Except.error).Sublist results ∧
      (parseExpression text).1.length + (parseExpression text).2.length = results.length := by
  rw [parseExpression]
  generalize (text.splitOnP isWhiteSpace).filter (· ≠ []) = parts
  refine ⟨parts.filterMap parseTerm, ?_, fun result hresult => ?_, ?_⟩
  · rw [List.map_filterMap]
    refine (List.filterMap_congr fun part _ => ?_).trans List.filterMap_some
    obtain ⟨result, hresult, htext⟩ := parseTerm_outcome part
    rw [hresult, Option.map_some, htext]
  · obtain ⟨part, -, hpart⟩ := List.mem_filterMap.mp hresult
    obtain ⟨_, hsame, htext⟩ := parseTerm_outcome part
    cases hpart.symm.trans hsame
    rwa [htext]
  · generalize parts.filterMap parseTerm = results
    induction results with
    | nil => exact ⟨.slnil, .slnil, rfl⟩
    | cons result results ih =>
      obtain ⟨hterms, herrors, hlength⟩ := ih
      cases result with
      | ok term =>
        refine ⟨hterms.cons_cons _, herrors.cons _, ?_⟩
        rw [List.length_cons, ← hlength]
        exact Nat.add_right_comm _ _ _
      | error error => exact ⟨hterms.cons _, herrors.cons_cons _, congrArg (· + 1) hlength⟩

/-! ## References -/

structure Reference where
  message : Text
  inst : Option JsNumber
  field : Option Text

def CONSTANTS : List (Text × JsNumber) :=
  [(units "pi", 3.141592653589793), (units "e", 2.718281828459045),
    (units "tau", 6.283185307179586), (units "inf", .infinite false), (units "nan", .nan),
    (units "True", 1), (units "False", 0)]

/-- `CONSTANTS.get`. -/
def constantValue (name : Text) : Option JsNumber :=
  (CONSTANTS.find? fun entry => entry.1 = name).map Prod.snd

def isConstantName (name : Text) : Bool := (constantValue name).isSome || name = units "None"

def literalInstance : Node → Option JsNumber
  | .num value => if value.isInteger then some value else none
  | .unary .neg (.num value) => some (-value)
  | _ => none

def messageName : Node → Option Text
  | .name name => if isConstantName name then none else some name
  | _ => none

def fieldTarget : Node → Option (Text × Option JsNumber)
  | .name name => if isConstantName name then none else some (name, none)
  | .index (.name name) index => (literalInstance index).map fun literal => (name, some literal)
  | _ => none

variable {α : Type}

mutual

/-- What `fn` notes on the way through a tree; it says whether to descend from a node. -/
def visit (fn : Node → List α × Bool) (node : Node) : List α :=
  (fn node).1 ++
    if (fn node).2 then
      match node with
      | .attr object _ => visit fn object
      | .index object index => visit fn object ++ visit fn index
      | .call _ args => visitArgs fn args
      | .unary _ operand => visit fn operand
      | .binary _ left right => visit fn left ++ visit fn right
      | _ => []
    else []

def visitArgs (fn : Node → List α × Bool) (args : List Node) : List α :=
  match args with
  | [] => []
  | arg :: args => visit fn arg ++ visitArgs fn args

end

/-- What `collectReferences` does at a node. -/
def referenceAt : Node → List Reference × Bool
  | .name name => (if isConstantName name then [] else [⟨name, none, none⟩], false)
  | .index object index =>
    match messageName object, literalInstance index with
    | some name, some literal => ([⟨name, some literal, none⟩], false)
    | _, _ => ([], true)
  | .attr object field =>
    match fieldTarget object with
    | some (name, inst) => ([⟨name, inst, some field⟩], false)
    | none => ([], true)
  | _ => ([], true)

def Reference.key (ref : Reference) : Text :=
  ref.message ++ units "[" ++ ref.inst.elim [] numberToString ++ units "]." ++ ref.field.getD []

/-- `add`. -/
def addReference (out : List Reference) (ref : Reference) : List Reference :=
  if out.any fun seen => seen.key = ref.key then out else out ++ [ref]

def collectReferences (ast : Node) : List Reference :=
  (visit referenceAt ast).foldl addReference []

def termReferences (term : Term) : List Reference :=
  match term.condition with
  | none => collectReferences term.ast
  | some condition => (collectReferences condition).foldl addReference (collectReferences term.ast)

def collectFunctions (ast : Node) : List Text :=
  (visit (fun node => match node with
    | .call callee _ => ([callee], true)
    | _ => ([], true)) ast).reverse.dedup.reverse

def termFunctions (term : Term) : List Text :=
  match term.condition with
  | none => collectFunctions term.ast
  | some condition =>
    (collectFunctions term.ast ++ collectFunctions condition).reverse.dedup.reverse

end ArduConfigurator.PlotCore
