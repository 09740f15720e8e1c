import ArduConfigurator.Lib.DecimalText

/-! # Graph expressions

`expression.ts`: the tokenizer and the Pratt parser of the Python subset that graphs are written
in. The tokenizer and the parser are followed for as many calls as their texts can need. -/
namespace ArduConfigurator.PlotCore
open DecimalText
set_option autoImplicit false

inductive BinaryOp
  | add | sub | mul | div | floorDiv | mod | pow
  | eq | ne | lt | le | gt | ge
  | bitAnd | bitOr | bitXor | shiftLeft | shiftRight
  | and | or
  deriving DecidableEq

inductive UnaryOp
  | neg | plus | invert | not
  deriving DecidableEq

inductive Node
  | num (value : JsNumber)
  | str (value : Text)
  | name (name : Text)
  | attr (object : Node) (name : Text)
  | index (object index : Node)
  | call (callee : Text) (args : List Node)
  | unary (op : UnaryOp) (operand : Node)
  | binary (op : BinaryOp) (left right : Node)

def BinaryOp.text : BinaryOp → Text
  | add => units "+"
  | sub => units "-"
  | mul => units "*"
  | div => units "/"
  | floorDiv => units "//"
  | mod => units "%"
  | pow => units "**"
  | eq => units "=="
  | ne => units "!="
  | lt => units "<"
  | le => units "<="
  | gt => units ">"
  | ge => units ">="
  | bitAnd => units "&"
  | bitOr => units "|"
  | bitXor => units "^"
  | shiftLeft => units "<<"
  | shiftRight => units ">>"
  | and => units "and"
  | or => units "or"

def UnaryOp.text : UnaryOp → Text
  | neg => units "-"
  | plus => units "+"
  | invert => units "~"
  | not => units "not"

/-! ## Tokens -/

inductive TokenKind
  | num (value : JsNumber)
  | str (value : Text)
  | name
  | op

structure Lexeme where
  kind : TokenKind
  text : Text

/-- The end of the text is no token here; its position is a parameter of the parser. -/
structure Token where
  lexeme : Lexeme
  pos : ℕ

inductive Stop
  | syntaxError (message : Text) (position : ℕ)
  | running

def OPERATORS2 : List Text :=
  [units "**", units "//", units "==", units "!=", units "<=", units ">=", units "<<", units ">>"]

def OPERATORS1 : Text := units "+-*/%<>&|^~()[],."

def isIdentStart (c : UInt16) : Bool :=
  (0x61 ≤ c ∧ c ≤ 0x7A) ∨ (0x41 ≤ c ∧ c ≤ 0x5A) ∨ c = 0x5F

def isIdentPart (c : UInt16) : Bool := isIdentStart c || isDigit c

def isHexDigit (c : UInt16) : Bool :=
  isDigit c ∨ (0x61 ≤ c ∧ c ≤ 0x66) ∨ (0x41 ≤ c ∧ c ≤ 0x46)

def isBlank (c : UInt16) : Bool := c = 0x20 ∨ c = 0x09 ∨ c = 0x0A ∨ c = 0x0D

def DOUBLE_QUOTE : UInt16 := 0x22
def SINGLE_QUOTE : UInt16 := 0x27
def ESCAPE : UInt16 := 0x5C

def opLexeme (text : Text) : Lexeme := ⟨.op, text⟩

def nameLexeme (text : Text) : Lexeme := ⟨.name, text⟩

def Lexeme.isOperand (l : Lexeme) : Bool :=
  match l.kind with
  | .op => l.text = units ")" ∨ l.text = units "]"
  | _ => true

def fractionPart (text : Text) : Text :=
  match text with
  | [] => []
  | c :: rest => if c = POINT then c :: rest.takeWhile isDigit else []

def signPart : Text → Text
  | [] => []
  | c :: _ => if c = PLUS ∨ c = MINUS then [c] else []

def exponentPart (text : Text) : Text :=
  match text with
  | [] => []
  | c :: rest =>
    if c = LOWER_E ∨ c = UPPER_E then
      let digits := (rest.drop (signPart rest).length).takeWhile isDigit
      if digits = [] then [] else c :: (signPart rest ++ digits)
    else []

def decimalPart (text : Text) : Text :=
  let whole := text.takeWhile isDigit
  let fraction := fractionPart (text.drop whole.length)
  whole ++ fraction ++ exponentPart (text.drop (whole ++ fraction).length)

def stringBody (quote : UInt16) : Text → Option (Text × Text)
  | [] => none
  | [c] => if c = quote then some ([], []) else none
  | c :: d :: rest =>
    if c = quote then some ([], d :: rest)
    else if c = ESCAPE then (stringBody quote rest).map fun (value, after) => (d :: value, after)
    else (stringBody quote (d :: rest)).map fun (value, after) => (c :: value, after)

/-- The token in front of a text that begins with `c` and is not blank there. -/
def lexemeAt (afterOperand : Bool) (pos : ℕ) (c : UInt16) (rest : Text) : Except Stop Lexeme :=
  if isDigit c ∨ (c = POINT ∧ rest.head?.any isDigit ∧ afterOperand = false) then
    if c = ZERO ∧ (rest.head? = some 0x78 ∨ rest.head? = some 0x58) then
      let digits := rest.tail.takeWhile isHexDigit
      .ok ⟨.num (readRadix 16 digits), c :: rest.take 1 ++ digits⟩
    else
      let numText := decimalPart (c :: rest)
      .ok ⟨.num (readLiteral numText), numText⟩
  else if isIdentStart c then .ok (nameLexeme (c :: rest.takeWhile isIdentPart))
  else if c = DOUBLE_QUOTE ∨ c = SINGLE_QUOTE then
    match stringBody c rest with
    | none => .error (.syntaxError (units "unterminated string") pos)
    | some (value, after) => .ok ⟨.str value, (c :: rest).take (rest.length + 1 - after.length)⟩
  else if OPERATORS2.contains ((c :: rest).take 2) then .ok (opLexeme ((c :: rest).take 2))
  else if OPERATORS1.contains c then .ok (opLexeme [c])
  else .error (.syntaxError (units "unexpected character '" ++ [c] ++ units "'") pos)

def tokenizeFrom : ℕ → Bool → ℕ → Text → Except Stop (List Token)
  | _, _, _, [] => .ok []
  | 0, _, _, _ :: _ => .error .running
  | fuel + 1, afterOperand, pos, c :: rest =>
    if isBlank c then tokenizeFrom fuel afterOperand (pos + 1) rest
    else do
      let lexeme ← lexemeAt afterOperand pos c rest
      let tokens ← tokenizeFrom fuel lexeme.isOperand (pos + lexeme.text.length)
        ((c :: rest).drop lexeme.text.length)
      return ⟨lexeme, pos⟩ :: tokens

def tokenize (text : Text) : Except Stop (List Token) := tokenizeFrom text.length false 0 text

/-! ## The parser -/

def BP_OR : ℕ := 1
def BP_AND : ℕ := 2
def BP_NOT : ℕ := 3
def BP_COMPARE : ℕ := 4
def BP_UNARY : ℕ := 11
def BP_POWER : ℕ := 12
def BP_POSTFIX : ℕ := 13

def BinaryOp.bp : BinaryOp → ℕ
  | or => BP_OR
  | and => BP_AND
  | eq => BP_COMPARE
  | ne => BP_COMPARE
  | lt => BP_COMPARE
  | le => BP_COMPARE
  | gt => BP_COMPARE
  | ge => BP_COMPARE
  | bitOr => 5
  | bitXor => 6
  | bitAnd => 7
  | shiftLeft => 8
  | shiftRight => 8
  | add => 9
  | sub => 9
  | mul => 10
  | div => 10
  | floorDiv => 10
  | mod => 10
  | pow => BP_POWER

inductive Infix
  | field
  | subscript
  | call
  | binary (op : BinaryOp)
  deriving DecidableEq

def Infix.text : Infix → Text
  | field => units "."
  | subscript => units "["
  | call => units "("
  | binary op => op.text

/-- `INFIX_BP[op]`. -/
def Infix.bp : Infix → ℕ
  | binary op => op.bp
  | _ => BP_POSTFIX

/-- The keys of `INFIX_BP`. -/
def INFIXES : List Infix :=
  [.binary .or, .binary .and, .binary .eq, .binary .ne, .binary .lt, .binary .le, .binary .gt,
    .binary .ge, .binary .bitOr, .binary .bitXor, .binary .bitAnd, .binary .shiftLeft,
    .binary .shiftRight, .binary .add, .binary .sub, .binary .mul, .binary .div, .binary .floorDiv,
    .binary .mod, .binary .pow, .field, .subscript, .call]

def infixOp (l : Lexeme) : Option Infix :=
  match l.kind with
  | .op => INFIXES.find? fun i => i.text = l.text
  | .name =>
    if l.text = units "and" then some (.binary .and)
    else if l.text = units "or" then some (.binary .or)
    else none
  | _ => none

/-- `token.kind === 'op' && token.text === text`. -/
def Lexeme.isOp (l : Lexeme) (text : Text) : Bool :=
  match l.kind with
  | .op => l.text = text
  | _ => false

variable (endPos : ℕ)

def nextPos : List Token → ℕ
  | [] => endPos
  | token :: _ => token.pos

def unexpected (token : Token) : Stop :=
  .syntaxError (units "unexpected '" ++ token.lexeme.text ++ units "'") token.pos

def expect (text : Text) : List Token → Except Stop (List Token)
  | [] => .error (.syntaxError (units "expected '" ++ text ++ units "' before end") endPos)
  | token :: rest =>
    if token.lexeme.isOp text then .ok rest
    else .error (.syntaxError (units "expected '" ++ text ++ units "' but found '" ++
      token.lexeme.text ++ units "'") token.pos)

mutual

def parse : ℕ → ℕ → List Token → Except Stop (Node × List Token)
  | 0, _, _ => .error .running
  | fuel + 1, minBp, tokens => do
    let (left, rest) ← parsePrefix fuel tokens
    parseInfix fuel minBp left rest

/-- `prefix`. -/
def parsePrefix : ℕ → List Token → Except Stop (Node × List Token)
  | _, [] => .error (.syntaxError (units "unexpected end of expression") endPos)
  | 0, _ :: _ => .error .running
  | fuel + 1, token :: rest =>
    match token.lexeme.kind with
    | .num value => .ok (.num value, rest)
    | .str value => .ok (.str value, rest)
    | .name =>
      if token.lexeme.text = units "not" then do
        let (operand, rest) ← parse fuel BP_NOT rest
        return (.unary .not operand, rest)
      else if token.lexeme.text = units "and" ∨ token.lexeme.text = units "or" then
        .error (unexpected token)
      else .ok (.name token.lexeme.text, rest)
    | .op =>
      if token.lexeme.text = units "(" then do
        let (inner, rest) ← parse fuel 0 rest
        let rest ← expect endPos (units ")") rest
        return (inner, rest)
      else
        match [UnaryOp.neg, .plus, .invert].find? fun op => op.text = token.lexeme.text with
        | some op => do
          let (operand, rest) ← parse fuel (BP_UNARY - 1) rest
          return (.unary op operand, rest)
        | none => .error (unexpected token)

/-- The loop of `parse`. -/
def parseInfix : ℕ → ℕ → Node → List Token → Except Stop (Node × List Token)
  | 0, _, _, _ => .error .running
  | _ + 1, _, left, [] => .ok (left, [])
  | fuel + 1, minBp, left, token :: rest =>
    match infixOp token.lexeme with
    | none => .ok (left, token :: rest)
    | some op =>
      if op.bp ≤ minBp then .ok (left, token :: rest)
      else
        match op with
        | .field =>
          match rest with
          | ⟨⟨.name, name⟩, _⟩ :: rest => parseInfix fuel minBp (.attr left name) rest
          | _ => .error (.syntaxError (units "expected a field name after \".\"") (nextPos endPos rest))
        | .subscript => do
          let (index, rest) ← parse fuel 0 rest
          let rest ← expect endPos (units "]") rest
          parseInfix fuel minBp (.index left index) rest
        | .call =>
          match left with
          | .name callee => do
            let (args, rest) ←
              if rest.head?.any (·.lexeme.isOp (units ")")) then .ok ([], rest)
              else parseArgs fuel [] rest
            let rest ← expect endPos (units ")") rest
            parseInfix fuel minBp (.call callee args) rest
          | _ => .error (.syntaxError (units "only named functions can be called") token.pos)
        | .binary op => do
          let (right, rest) ← parse fuel (if op = .pow then BP_UNARY else op.bp) rest
          parseInfix fuel minBp (.binary op left right) rest

def parseArgs : ℕ → List Node → List Token → Except Stop (List Node × List Token)
  | 0, _, _ => .error .running
  | fuel + 1, args, tokens => do
    let (arg, rest) ← parse fuel 0 tokens
    match rest with
    | [] => return (args ++ [arg], [])
    | token :: rest =>
      if token.lexeme.isOp (units ",") then parseArgs fuel (args ++ [arg]) rest
      else return (args ++ [arg], token :: rest)

end

def enoughCalls (tokens : List Token) : ℕ := 2 * tokens.length + 1

def parseAll (tokens : List Token) : Except Stop Node := do
  let (node, rest) ← parse endPos (enoughCalls tokens) 0 tokens
  match rest with
  | [] => return node
  | token :: _ => .error (unexpected token)

structure ExpressionError where
  message : Text
  position : ℕ
  text : Text

/-- Parse a bare Python expression. Nothing stands for a parser that has not come to its end. -/
def parseFormula (text : Text) : Option (Except ExpressionError Node) :=
  match tokenize text >>= parseAll text.length with
  | .ok ast => some (.ok ast)
  | .error (.syntaxError message position) => some (.error ⟨message, position, text⟩)
  | .error .running => none

end ArduConfigurator.PlotCore
