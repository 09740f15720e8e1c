import ArduConfigurator.Lib.Entries
import ArduConfigurator.Lib.JsArithmetic

/-! # JSON

The values of the data format, the text that `JSON.stringify(value, null, 2)` writes for one, and
the value that `JSON.parse` reads in a text. The reader cuts the text into tokens and keeps the
containers that are open on a stack. -/
namespace ArduConfigurator
open DecimalText
set_option autoImplicit false

inductive Json
  | null
  | bool (b : Bool)
  | number (x : JsNumber)
  | string (t : Text)
  | array (items : List Json)
  | object (fields : List (Text × Json))

namespace Json

/-! ## Access -/

/-- `value.key`, when there is such a field. -/
def get : Json → String → Option Json
  | .object fields, key => Entries.get fields (units key)
  | _, _ => none

/-- `typeof value === 'object' && value !== null`. -/
def isObject : Json → Bool
  | .array _ => true
  | .object _ => true
  | _ => false

def text? : Json → Option Text
  | .string t => some t
  | _ => none

def number? : Json → Option JsNumber
  | .number x => some x
  | _ => none

/-- The items of a value with `Array.isArray(value)`. -/
def items? : Json → Option (List Json)
  | .array items => some items
  | _ => none

/-- `{ ...value, key: field }`: a field without a value is as one that is not there. -/
def put (value : Json) (key : String) (field : Option Json) : Json :=
  match value with
  | .object fields =>
    match field with
    | some v => .object (Entries.set fields (units key) v)
    | none => .object (Entries.erase fields (units key))
  | v => v

/-! ## Characters -/

def QUOTE : UInt16 := 0x22
def BACKSLASH : UInt16 := 0x5C
def LBRACKET : UInt16 := 0x5B
def RBRACKET : UInt16 := 0x5D
def LBRACE : UInt16 := 0x7B
def RBRACE : UInt16 := 0x7D
def COLON : UInt16 := 0x3A
def SPACE : UInt16 := 0x20

def isLead (c : UInt16) : Bool := 0xD800 ≤ c ∧ c ≤ 0xDBFF

def isTrail (c : UInt16) : Bool := 0xDC00 ≤ c ∧ c ≤ 0xDFFF

/-- The letter after a backslash, and the character that the two stand for. -/
def ESCAPES : List (UInt16 × UInt16) :=
  [(0x22, 0x22), (0x5C, 0x5C), (0x2F, 0x2F), (0x62, 0x08), (0x66, 0x0C), (0x6E, 0x0A),
   (0x72, 0x0D), (0x74, 0x09)]

def letterOf (c : UInt16) : Option UInt16 :=
  ((ESCAPES.filter fun e => e.1 ≠ 0x2F).find? fun e => e.2 = c).map Prod.fst

def hexDigit (d : ℕ) : UInt16 := if d < 10 then UInt16.ofNat (0x30 + d) else UInt16.ofNat (0x57 + d)

def hexUnits (n : ℕ) : Text :=
  [hexDigit (n / 4096 % 16), hexDigit (n / 256 % 16), hexDigit (n / 16 % 16), hexDigit (n % 16)]

/-! ## Writing -/

/-- A string between quotes. A surrogate without its other half is escaped; `paired` says that the
character before was a first half with its second half behind it. -/
def quoteFrom : Bool → Text → Text
  | _, [] => [QUOTE]
  | paired, c :: t =>
    match letterOf c with
    | some letter => BACKSLASH :: letter :: quoteFrom false t
    | none =>
      if isLead c ∧ (t.head?.map isTrail) = some true then c :: quoteFrom true t
      else if c < 0x20 ∨ isLead c ∨ (isTrail c ∧ !paired) then
        BACKSLASH :: 0x75 :: (hexUnits c.toNat ++ quoteFrom false t)
      else c :: quoteFrom false t

def quote (t : Text) : Text := QUOTE :: quoteFrom false t

def writeNumber : JsNumber → Text
  | .finite negative q => numberToString (.finite negative q)
  | _ => units "null"

def newLine (indent : ℕ) : Text := LINE_FEED :: List.replicate indent SPACE

mutual

def write (indent : ℕ) : Json → Text
  | .null => units "null"
  | .bool b => units (if b then "true" else "false")
  | .number x => writeNumber x
  | .string t => quote t
  | .array [] => [LBRACKET, RBRACKET]
  | .array (j :: items) =>
    LBRACKET :: (newLine (indent + 2) ++ (write (indent + 2) j ++
      (writeItems (indent + 2) items ++ (newLine indent ++ [RBRACKET]))))
  | .object [] => [LBRACE, RBRACE]
  | .object ((k, j) :: fields) =>
    LBRACE :: (newLine (indent + 2) ++ (quote k ++ (COLON :: SPACE :: (write (indent + 2) j ++
      (writeFields (indent + 2) fields ++ (newLine indent ++ [RBRACE]))))))

def writeItems (indent : ℕ) : List Json → Text
  | [] => []
  | j :: items => COMMA :: (newLine indent ++ (write indent j ++ writeItems indent items))

def writeFields (indent : ℕ) : List (Text × Json) → Text
  | [] => []
  | (k, j) :: fields =>
    COMMA :: (newLine indent ++ (quote k ++ (COLON :: SPACE :: (write indent j ++
      writeFields indent fields))))

end

/-- `JSON.stringify(value, null, 2)`. -/
def stringify (value : Json) : Text := write 0 value

/-! ## Tokens -/

inductive Token
  | openArray
  | closeArray
  | openObject
  | closeObject
  | comma
  | colon
  | scalar (j : Json)

/-- What the reader is in: a literal or number, a string, or an escape in one. -/
inductive Lexing
  | between
  | word (w : Text)
  | text (t : Text)
  | escape (t : Text)
  | hex (t : Text) (digits value : ℕ)

def isJsonSpace (c : UInt16) : Bool := c = 0x09 ∨ c = 0x0A ∨ c = 0x0D ∨ c = 0x20

def isWordUnit (c : UInt16) : Bool := isNumeralUnit c || (0x61 ≤ c ∧ c ≤ 0x7A)

def punctuation (c : UInt16) : Option Token :=
  if c = LBRACKET then some .openArray
  else if c = RBRACKET then some .closeArray
  else if c = LBRACE then some .openObject
  else if c = RBRACE then some .closeObject
  else if c = COMMA then some .comma
  else if c = COLON then some .colon
  else none

def afterFraction (t : Text) : Option Text :=
  if t.head? = some POINT then
    if t.tail.takeWhile isDigit = [] then none else some (t.tail.dropWhile isDigit)
  else some t

/-- `-?(0|[1-9]\d*)(\.\d+)?([eE][+-]?\d+)?`, and nothing else. -/
def isJsonNumber (w : Text) : Bool :=
  let body := if w.head? = some MINUS then w.tail else w
  let whole := body.takeWhile isDigit
  whole ≠ [] && (whole.head? ≠ some ZERO || whole = [ZERO]) &&
    match afterFraction (body.dropWhile isDigit) with
    | some rest => (readExponent rest).isSome
    | none => false

def wordToken (w : Text) : Option Token :=
  if w = units "null" then some (.scalar .null)
  else if w = units "true" then some (.scalar (.bool true))
  else if w = units "false" then some (.scalar (.bool false))
  else if isJsonNumber w then some (.scalar (.number (readLiteral w)))
  else none

def beginAt (c : UInt16) : Option (List Token × Lexing) :=
  match punctuation c with
  | some token => some ([token], .between)
  | none =>
    if isJsonSpace c then some ([], .between)
    else if c = QUOTE then some ([], .text [])
    else if isWordUnit c then some ([], .word [c])
    else none

def lexStep : Lexing → UInt16 → Option (List Token × Lexing)
  | .between, c => beginAt c
  | .word w, c =>
    if isWordUnit c then some ([], .word (w ++ [c]))
    else (wordToken w).bind fun token => (beginAt c).map fun r => (token :: r.1, r.2)
  | .text t, c =>
    if c = QUOTE then some ([.scalar (.string t)], .between)
    else if c = BACKSLASH then some ([], .escape t)
    else if c < 0x20 then none
    else some ([], .text (t ++ [c]))
  | .escape t, c =>
    if c = 0x75 then some ([], .hex t 0 0)
    else (ESCAPES.find? fun e => e.1 = c).map fun e => ([], .text (t ++ [e.2]))
  | .hex t digits value, c =>
    (radixDigit 16 c).map fun d =>
      if digits = 3 then ([], .text (t ++ [UInt16.ofNat (value * 16 + d)]))
      else ([], .hex t (digits + 1) (value * 16 + d))

def lexEnd : Lexing → Option (List Token)
  | .between => some []
  | .word w => (wordToken w).map fun token => [token]
  | _ => none

def lex : Lexing → Text → Option (List Token)
  | s, [] => lexEnd s
  | s, c :: t => (lexStep s c).bind fun r => (lex r.2 t).map (r.1 ++ ·)

/-! ## Reading -/

/-- An open container: the items before the one that is read, or the fields and the key. -/
inductive Frame
  | items (before : List Json)
  | field (fields : List (Text × Json)) (key : Text)

/-- What comes next. -/
inductive Awaited
  | value
  | valueOrClose
  | keyOrClose
  | key (fields : List (Text × Json))
  | colon (fields : List (Text × Json)) (key : Text)
  | behind (j : Json)

structure Reading where
  awaited : Awaited
  stack : List Frame

def valueStep (token : Token) (stack : List Frame) : Option Reading :=
  match token with
  | .scalar j => some ⟨.behind j, stack⟩
  | .openArray => some ⟨.valueOrClose, .items [] :: stack⟩
  | .openObject => some ⟨.keyOrClose, stack⟩
  | _ => none

def behindStep (j : Json) (token : Token) : List Frame → Option Reading
  | .items before :: stack =>
    match token with
    | .comma => some ⟨.value, .items (before ++ [j]) :: stack⟩
    | .closeArray => some ⟨.behind (.array (before ++ [j])), stack⟩
    | _ => none
  | .field fields key :: stack =>
    match token with
    | .comma => some ⟨.key (Entries.set fields key j), stack⟩
    | .closeObject => some ⟨.behind (.object (Entries.set fields key j)), stack⟩
    | _ => none
  | [] => none

def readStep (s : Reading) (token : Token) : Option Reading :=
  match s.awaited, token with
  | .value, token => valueStep token s.stack
  | .valueOrClose, .closeArray =>
    match s.stack with
    | .items [] :: stack => some ⟨.behind (.array []), stack⟩
    | _ => none
  | .valueOrClose, token => valueStep token s.stack
  | .keyOrClose, .closeObject => some ⟨.behind (.object []), s.stack⟩
  | .keyOrClose, .scalar (.string k) => some ⟨.colon [] k, s.stack⟩
  | .key fields, .scalar (.string k) => some ⟨.colon fields k, s.stack⟩
  | .colon fields k, .colon => some ⟨.value, .field fields k :: s.stack⟩
  | .behind j, token => behindStep j token s.stack
  | _, _ => none

def readEnd (s : Reading) : Option Json :=
  match s.awaited, s.stack with
  | .behind j, [] => some j
  | _, _ => none

/-- `JSON.parse(text)`; a text that is no JSON makes it fail. -/
def parse (text : Text) : Option Json :=
  (lex .between text).bind fun tokens =>
    (tokens.foldlM readStep ⟨.value, []⟩).bind readEnd

end Json
end ArduConfigurator
