import ArduConfigurator.PlotCore.Expression

/-! # Printing expressions

An expression is printed with the parentheses that Python's precedence and associativity make
necessary and no others. A list of tokens is spelled by a text that has any blanks between them, and
some wherever a token would otherwise run on into the next one. -/
namespace ArduConfigurator.PlotCore
open DecimalText
set_option autoImplicit false

/-! ## Levels of the grammar -/

/-- How tightly an expression holds together, loosest first: `or`, `and`, `not`, comparisons, `|`,
`^`, `&`, shifts, sums, products, signs, powers, primaries. -/
def Node.level : Node → ℕ
  | .unary .not _ => BP_NOT
  | .unary _ _ => BP_UNARY
  | .binary op _ _ => op.bp
  | _ => BP_POSTFIX

/-- A comparison takes no comparison as its operand, a power nothing but a primary to its left, and
the others group to the left. -/
def BinaryOp.leftLevel (op : BinaryOp) : ℕ :=
  if op = .pow then BP_POSTFIX else if op.bp = BP_COMPARE then BP_COMPARE + 1 else op.bp

def BinaryOp.rightLevel (op : BinaryOp) : ℕ := if op = .pow then BP_UNARY else op.bp + 1

def UnaryOp.operandLevel : UnaryOp → ℕ
  | .not => BP_NOT
  | _ => BP_UNARY

/-! ## Tokens of an expression -/

def BinaryOp.lexeme (op : BinaryOp) : Lexeme :=
  if op = .and ∨ op = .or then nameLexeme op.text else opLexeme op.text

def UnaryOp.lexeme (op : UnaryOp) : Lexeme :=
  if op = .not then nameLexeme op.text else opLexeme op.text

def literalText : JsNumber → Text
  | .infinite _ => units "1e309"
  | value => numberToString value

def escaped (value : Text) : Text :=
  value.flatMap fun c => if c = SINGLE_QUOTE ∨ c = ESCAPE then [ESCAPE, c] else [c]

def quoted (value : Text) : Text := SINGLE_QUOTE :: (escaped value ++ [SINGLE_QUOTE])

def parenthesized (least level : ℕ) (lexemes : List Lexeme) : List Lexeme :=
  if level < least then opLexeme (units "(") :: lexemes ++ [opLexeme (units ")")] else lexemes

mutual

def Node.lexemes : Node → List Lexeme
  | .num value => [⟨.num value, literalText value⟩]
  | .str value => [⟨.str value, quoted value⟩]
  | .name name => [nameLexeme name]
  | .attr object name =>
    parenthesized BP_POSTFIX object.level object.lexemes ++
      [opLexeme (units "."), nameLexeme name]
  | .index object index =>
    parenthesized BP_POSTFIX object.level object.lexemes ++
      opLexeme (units "[") :: (index.lexemes ++ [opLexeme (units "]")])
  | .call callee args =>
    nameLexeme callee :: opLexeme (units "(") :: (argsLexemes args ++ [opLexeme (units ")")])
  | .unary op operand =>
    op.lexeme :: parenthesized op.operandLevel operand.level operand.lexemes
  | .binary op left right =>
    parenthesized op.leftLevel left.level left.lexemes ++
      op.lexeme :: parenthesized op.rightLevel right.level right.lexemes

def argsLexemes : List Node → List Lexeme
  | [] => []
  | [arg] => arg.lexemes
  | arg :: next :: args => arg.lexemes ++ opLexeme (units ",") :: argsLexemes (next :: args)

end

/-! ## What can be printed -/

def isIdentifier : Text → Bool
  | [] => false
  | c :: rest => isIdentStart c && rest.all isIdentPart

def KEYWORDS : List Text := [units "and", units "or", units "not"]

def IsLiteral : JsNumber → Prop
  | .finite false magnitude => binary64.Holds (.finite false magnitude)
  | .infinite false => True
  | _ => False

mutual

def Node.Printable : Node → Prop
  | .num value => IsLiteral value
  | .str _ => True
  | .name name => isIdentifier name = true ∧ name ∉ KEYWORDS
  | .attr object name => object.Printable ∧ isIdentifier name = true
  | .index object index => object.Printable ∧ index.Printable
  | .call callee args => (isIdentifier callee = true ∧ callee ∉ KEYWORDS) ∧ ArgsPrintable args
  | .unary _ operand => operand.Printable
  | .binary _ left right => left.Printable ∧ right.Printable

def ArgsPrintable : List Node → Prop
  | [] => True
  | arg :: args => arg.Printable ∧ ArgsPrintable args

end

/-! ## Spelling -/

def Lexeme.continues (l : Lexeme) (c : UInt16) : Bool :=
  match l.kind with
  | .num _ => isIdentPart c || c = POINT
  | .str _ => false
  | .name => isIdentPart c
  | .op => OPERATORS2.contains (l.text ++ [c]) || (l.text = [POINT] && isDigit c)

/-- Blanks, the tokens in their order, and blanks between and behind them. -/
inductive Spells : List Lexeme → Text → Prop
  | nil {blanks : Text} (hblanks : ∀ c ∈ blanks, isBlank c = true) : Spells [] blanks
  | cons {blanks : Text} {l : Lexeme} {ls : List Lexeme} {text : Text}
      (hblanks : ∀ c ∈ blanks, isBlank c = true)
      (hends : ∀ c ∈ text.head?, l.continues c = false) (hrest : Spells ls text) :
      Spells (l :: ls) (blanks ++ l.text ++ text)

def spaced (ls : List Lexeme) : Text := ls.flatMap fun l => l.text ++ [0x20]

end ArduConfigurator.PlotCore
