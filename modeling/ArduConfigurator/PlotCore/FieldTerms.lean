import ArduConfigurator.PlotCore.Precedence
import ArduConfigurator.PlotCore.References

/-! # The term of a field

`message.field` and `message[instance].field` as they are written, and what the parser makes of
them. -/
namespace ArduConfigurator.PlotCore
open DecimalText (numberToString POINT)
set_option autoImplicit false

/-! ## The text -/

/-- `message.field` or `message[instance].field`. -/
def fieldLabel (message : Text) (inst : Option JsNumber) (field : Text) : Text :=
  match inst with
  | none => message ++ units "." ++ field
  | some i => message ++ units "[" ++ numberToString i ++ units "]." ++ field

/-- The tree of a number as it is printed: beyond the finite ones the text is a name. -/
def numberNode : JsNumber → Node
  | .nan => .name (units "NaN")
  | .infinite false => .name (units "Infinity")
  | .infinite true => .unary .neg (.name (units "Infinity"))
  | .finite negative q =>
    if negative ∧ q ≠ 0 then .unary .neg (.num (.finite false q)) else .num (.finite false q)

def fieldObject (message : Text) (inst : Option JsNumber) : Node :=
  match inst with
  | none => .name message
  | some i => .index (.name message) (numberNode i)

theorem printable_numberNode {x : JsNumber} (h : x.IsDouble) : (numberNode x).Printable := by
  cases x with
  | nan => exact ⟨by decide, by decide⟩
  | infinite negative => cases negative <;> exact ⟨by decide, by decide⟩
  | finite negative q =>
    rw [numberNode]
    split_ifs
    · exact h
    · exact h

variable {c : UInt16}

theorem continues_single (hc : c ≠ POINT) (hop : ∀ op ∈ OPERATORS2, op.head? ≠ some c)
    (text : Text) :
    ∀ d ∈ text.head?, (opLexeme [c]).continues d = false := by
  intro d _
  have hmem : OPERATORS2.contains ([c] ++ [d]) = false := by
    rw [Bool.eq_false_iff, ne_eq, List.contains_iff_mem]
    exact fun hmem => hop _ hmem rfl
  rw [Lexeme.continues, opLexeme]
  dsimp only
  rw [hmem, Bool.false_or, decide_eq_false, Bool.false_and]
  exact fun h => hc (List.singleton_inj.mp h)

theorem continues_name (hc : isIdentPart c = false) (name text : Text) :
    ∀ d ∈ (c :: text).head?, (nameLexeme name).continues d = false := by
  rintro d ⟨⟩
  exact hc

theorem spells_number (x : JsNumber) {ls : List Lexeme} {rest : Text}
    (hrest : Spells ls (0x5D :: rest)) :
    Spells ((numberNode x).lexemes ++ ls) (numberToString x ++ 0x5D :: rest) := by
  have hname (name : Text) : Spells (nameLexeme name :: ls) (name ++ 0x5D :: rest) :=
    .next (continues_name (by decide) name rest) hrest
  have hminus {inner : List Lexeme} {text : Text} (hinner : Spells inner text) :
      Spells (opLexeme (units "-") :: inner) (units "-" ++ text) :=
    .next (continues_single (by decide) (by decide) _) hinner
  have hnum (q : ℚ≥0) : Spells (⟨.num (.finite false q), literalText (.finite false q)⟩ :: ls)
      (numberToString (.finite false q) ++ 0x5D :: rest) := by
    refine .next ?_ hrest
    rintro c ⟨⟩
    rfl
  cases x with
  | nan => exact hname _
  | infinite negative =>
    cases negative with
    | false => exact hname _
    | true => exact hminus (hname _)
  | finite negative q =>
    rw [numberNode]
    by_cases hzero : q = 0
    · rw [if_neg fun h => h.2 hzero]
      have htext : numberToString (.finite negative q) = numberToString (.finite false q) := by
        rw [numberToString, numberToString, if_pos hzero, if_pos hzero]
      rw [htext]
      exact hnum q
    · cases negative with
      | false => exact hnum q
      | true =>
        rw [if_pos ⟨rfl, hzero⟩]
        have htext : numberToString (.finite true q) =
            units "-" ++ numberToString (.finite false q) := by
          rw [numberToString, numberToString, if_neg hzero, if_neg hzero]
          rfl
        rw [htext, List.append_assoc]
        exact hminus (hnum q)

theorem head_identifier {name : Text} (h : isIdentifier name = true) :
    ∃ c rest, name = c :: rest ∧ isIdentStart c = true ∧ rest.all isIdentPart = true := by
  cases name with
  | nil => cases h
  | cons c rest =>
    obtain ⟨hc, hrest⟩ := Bool.and_eq_true_iff.mp h
    exact ⟨c, rest, rfl, hc, hrest⟩

variable {field : Text}

theorem spells_field (h : isIdentifier field = true) :
    Spells [opLexeme (units "."), nameLexeme field] (units "." ++ field) := by
  obtain ⟨c, rest, rfl, hc, _⟩ := head_identifier h
  have hname : Spells [nameLexeme (c :: rest)] (c :: rest) := by
    have hspells := @Spells.next (nameLexeme (c :: rest)) [] [] (by simp)
      (.nil (List.forall_mem_nil _))
    rwa [List.append_nil] at hspells
  refine .next ?_ hname
  rintro d ⟨⟩
  have hdigit := (of_isIdentStart hc).2.1
  simp [Lexeme.continues, opLexeme, OPERATORS2, units, hdigit]

theorem spells_fieldLabel (message : Text) (inst : Option JsNumber)
    (h : isIdentifier field = true) :
    Spells (Node.attr (fieldObject message inst) field).lexemes
      (fieldLabel message inst field) := by
  cases inst with
  | none =>
    rw [fieldLabel, List.append_assoc]
    exact .next (continues_name (by decide) message field) (spells_field h)
  | some i =>
    have hclose : Spells (opLexeme (units "]") :: [opLexeme (units "."), nameLexeme field])
        (0x5D :: (units "." ++ field)) :=
      .next (continues_single (by decide) (by decide) _)
        (spells_field h)
    have hopen : Spells (opLexeme (units "[") :: ((numberNode i).lexemes ++
          opLexeme (units "]") :: [opLexeme (units "."), nameLexeme field]))
        (units "[" ++ (numberToString i ++ 0x5D :: (units "." ++ field))) :=
      .next (continues_single (by decide) (by decide) _)
        (spells_number i hclose)
    have hall := Spells.next (l := nameLexeme message)
      (continues_name (c := 0x5B) (by decide) message _) hopen
    have hlexemes : (Node.attr (fieldObject message (some i)) field).lexemes =
        nameLexeme message :: opLexeme (units "[") :: ((numberNode i).lexemes ++
          opLexeme (units "]") :: [opLexeme (units "."), nameLexeme field]) := by
      have happend : ∀ l : List Lexeme, l ++ [opLexeme (units "]")] ++
          [opLexeme (units "."), nameLexeme field] =
            l ++ opLexeme (units "]") :: [opLexeme (units "."), nameLexeme field] :=
        fun l => List.append_assoc _ _ _
      rw [← happend]
      rfl
    have htext : fieldLabel message (some i) field =
        message ++ (units "[" ++ (numberToString i ++ 0x5D :: (units "." ++ field))) := by
      simp [fieldLabel, units]
    rw [hlexemes, htext]
    exact hall

/-! ## The parser takes it for the field of a message -/

theorem bounds_of_isIdentPart (h : isIdentPart c = true) :
    0x30 ≤ c.toNat ∧ c.toNat < 0x7B ∧ c.toNat ≠ 0x3A ∧ c.toNat ≠ 0x3E := by
  obtain h | h := Bool.or_eq_true_iff.mp h
  · simp only [isIdentStart, UInt16.le_iff_toNat_le, ← UInt16.toNat_inj, UInt16.reduceToNat,
      Bool.decide_or, Bool.decide_and, Bool.or_eq_true, Bool.and_eq_true, decide_eq_true_eq] at h
    omega
  · rw [DecimalText.isDigit_iff] at h
    omega

theorem isWhiteSpace_of_isIdentPart (h : isIdentPart c = true) :
    isWhiteSpace c = false := by
  obtain ⟨hlow, hhigh, _⟩ := bounds_of_isIdentPart h
  exact isWhiteSpace_of_graph (by omega) (by omega)

/-- A text that begins with a name and ends with the field of something. -/
structure FieldText (text field : Text) : Prop where
  head : ∀ c ∈ text.head?, isIdentPart c = true
  ends : units "." ++ field <:+ text
  isIdentifier : isIdentifier field = true

namespace FieldText
variable {text : Text}

theorem getLast (h : FieldText text field) :
    ∃ c, text.getLast? = some c ∧ isIdentPart c = true := by
  obtain ⟨c, rest, rfl, hc, hrest⟩ := head_identifier h.isIdentifier
  have hall : ∀ d ∈ c :: rest, isIdentPart d = true := by
    intro d hd
    obtain rfl | hd := List.mem_cons.mp hd
    · rw [isIdentPart, hc, Bool.true_or]
    · exact List.all_eq_true.mp hrest d hd
  obtain ⟨front, rfl⟩ := h.ends
  obtain ⟨d, hd⟩ : ∃ d, (c :: rest).getLast? = some d :=
    ⟨_, List.getLast?_eq_some_getLast (List.cons_ne_nil c rest)⟩
  refine ⟨d, ?_, hall d (List.mem_of_getLast? hd)⟩
  rw [List.getLast?_append, List.getLast?_append, hd]
  rfl

theorem trim_eq (h : FieldText text field) : trim text = text := by
  obtain ⟨d, hlast, hd⟩ := h.getLast
  refine trim_of_ends (fun c hc => isWhiteSpace_of_isIdentPart (h.head c hc)) fun c hc => ?_
  rw [hlast] at hc
  cases hc
  exact isWhiteSpace_of_isIdentPart hd

theorem splitLabel_eq (h : FieldText text field) : splitLabel text = (none, text) := by
  obtain ⟨d, hlast, hd⟩ := h.getLast
  have hne : text.getLast? ≠ some 0x3E := by
    rw [hlast]
    intro heq
    cases heq
    exact absurd hd (by decide)
  rw [splitLabel, if_neg hne]

theorem not_suffix (h : FieldText text field) (d : UInt16) : ¬[0x3A, d] <:+ text := by
  intro hsuffix
  obtain ⟨c, rest, rfl, hc, hrest⟩ := head_identifier h.isIdentifier
  have hle : [0x3A, d].length ≤ (units "." ++ c :: rest).length := by
    have hpoint : (units ".").length = 1 := rfl
    simp only [List.length_append, List.length_cons, List.length_nil, hpoint]
    omega
  have hmem : 0x3A ∈ units "." ++ c :: rest :=
    (List.suffix_of_suffix_length_le hsuffix h.ends hle).subset (List.mem_cons_self ..)
  obtain hmem | hmem := List.mem_append.mp hmem
  · exact absurd hmem (by decide)
  · obtain rfl | hmem := List.mem_cons.mp hmem
    · exact absurd hc (by decide)
    · exact absurd (List.all_eq_true.mp hrest _ hmem) (by decide)

theorem splitAxis_eq (h : FieldText text field) : splitAxis text = (.first, text) := by
  have hsecond : ¬units ":2" <:+ text := h.not_suffix 0x32
  have hfirst : ¬units ":1" <:+ text := h.not_suffix 0x31
  rw [splitAxis, if_neg hsecond, if_neg hfirst]

theorem splitCondition_eq (h : FieldText text field) : splitCondition text = .ok (text, none) := by
  obtain ⟨d, hlast, hd⟩ := h.getLast
  have hne : text.getLast? ≠ some 0x7D := by
    rw [hlast]
    intro heq
    cases heq
    exact absurd hd (by decide)
  rw [splitCondition, if_neg hne]

theorem parseTerm_eq (h : FieldText text field) {ast : Node}
    (hparsed : parseFormula text = some (.ok ast)) :
    ∃ hnamed : ast.Named, parseTerm text =
      some (.ok ⟨text, text, .first, ast, none, hnamed, named_of_no_condition⟩) := by
  refine ⟨parseFormula_named hparsed, ?_⟩
  obtain ⟨d, hlast, _⟩ := h.getLast
  have hne : ¬trim text = [] := by
    rw [h.trim_eq]
    rintro rfl
    cases hlast
  rw [parseTerm, h.trim_eq, h.splitLabel_eq]
  dsimp only
  rw [h.splitAxis_eq]
  dsimp only
  rw [h.splitCondition_eq]
  dsimp only
  rw [termOf, if_neg hne]
  split
  · next hnone => rw [hnone] at hparsed; cases hparsed
  · next error herror => rw [herror] at hparsed; cases hparsed
  · next parsed hok =>
    rw [hok] at hparsed
    cases hparsed
    rfl

end FieldText

def termOfField (message : Text) (inst : Option JsNumber) (field : Text)
    (h : (Node.attr (fieldObject message inst) field).Named) : Term :=
  ⟨fieldLabel message inst field, fieldLabel message inst field, .first,
    .attr (fieldObject message inst) field, none, h, named_of_no_condition⟩

theorem parseTerm_fieldLabel {message : Text} {inst : Option JsNumber}
    (hmessage : isIdentifier message = true) (hkeyword : message ∉ KEYWORDS)
    (hfield : isIdentifier field = true) (hinst : ∀ i ∈ inst, i.IsDouble) :
    ∃ hnamed, parseTerm (fieldLabel message inst field) =
      some (.ok (termOfField message inst field hnamed)) := by
  have hprintable : (Node.attr (fieldObject message inst) field).Printable := by
    refine ⟨?_, hfield⟩
    cases inst with
    | none => exact ⟨hmessage, hkeyword⟩
    | some i => exact ⟨⟨hmessage, hkeyword⟩, printable_numberNode (hinst i rfl)⟩
  have hparsed := parseFormula_printed hprintable (spells_fieldLabel message inst hfield)
  have htext : FieldText (fieldLabel message inst field) field := by
    obtain ⟨c, rest, rfl, hc, _⟩ := head_identifier hmessage
    have hpart : isIdentPart c = true := by rw [isIdentPart, hc, Bool.true_or]
    cases inst with
    | none =>
      refine ⟨?_, ⟨c :: rest, by rw [fieldLabel, List.append_assoc]⟩, hfield⟩
      rintro d ⟨⟩
      exact hpart
    | some i =>
      refine ⟨?_, ⟨c :: rest ++ units "[" ++ numberToString i ++ units "]", ?_⟩, hfield⟩
      · rintro d ⟨⟩
        exact hpart
      · simp [fieldLabel, units]
  exact htext.parseTerm_eq hparsed

end ArduConfigurator.PlotCore
