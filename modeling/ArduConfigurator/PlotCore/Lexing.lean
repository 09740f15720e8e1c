import ArduConfigurator.PlotCore.Printer

/-! # Spelled tokens are read back

The tokenizer takes the longest token in front of the text. The blanks of a spelling see to it that
this is the token that was written. -/
namespace ArduConfigurator.PlotCore
open DecimalText
set_option autoImplicit false

/-! ## One token -/

/-- Whatever follows without continuing it, the token is read from its text. -/
def Reads (l : Lexeme) : Prop :=
  ∃ c t, l.text = c :: t ∧ isBlank c = false ∧ ∀ afterOperand pos rest,
    (∀ d ∈ rest.head?, l.continues d = false) → lexemeAt afterOperand pos c (t ++ rest) = .ok l

theorem takeWhile_append {p : UInt16 → Bool} {t rest : Text} (ht : t.all p = true)
    (hrest : ∀ d ∈ rest.head?, p d = false) : (t ++ rest).takeWhile p = t := by
  rw [List.takeWhile_append_of_pos (List.all_eq_true.mp ht)]
  cases rest with
  | nil => rw [List.takeWhile_nil, List.append_nil]
  | cons d rest =>
    rw [List.takeWhile_cons_of_neg (by simpa using hrest d rfl), List.append_nil]

def isOperatorUnit (c : UInt16) : Bool :=
  isBlank c = false ∧ isDigit c = false ∧ isIdentStart c = false ∧ c ≠ DOUBLE_QUOTE ∧
    c ≠ SINGLE_QUOTE

theorem lexemeAt_operator {c : UInt16} (hc : isOperatorUnit c = true) {afterOperand : Bool}
    {pos : ℕ} {rest : Text} (hpoint : c = POINT → rest.head?.any isDigit = false) :
    lexemeAt afterOperand pos c rest =
      if OPERATORS2.contains ((c :: rest).take 2) then .ok (opLexeme ((c :: rest).take 2))
      else if OPERATORS1.contains c then .ok (opLexeme [c])
      else .error (.syntaxError (units "unexpected character '" ++ [c] ++ units "'") pos) := by
  obtain ⟨-, hdigit, hident, hdouble, hsingle⟩ := of_decide_eq_true hc
  have hnumber : ¬ (isDigit c = true ∨ (c = POINT ∧ rest.head?.any isDigit ∧
      afterOperand = false)) := by
    rintro (h | ⟨h, hany, -⟩)
    · rw [hdigit] at h
      cases h
    · rw [hpoint h] at hany
      cases hany
  rw [lexemeAt, if_neg hnumber, if_neg (by simp [hident]), if_neg (by simp [hdouble, hsingle])]

theorem reads_op1 {c : UInt16} (hc : OPERATORS1.contains c = true) : Reads (opLexeme [c]) := by
  have hunit : isOperatorUnit c = true := by
    have hall : OPERATORS1.all isOperatorUnit = true := by decide
    exact List.all_eq_true.mp hall c (List.contains_iff_mem.mp hc)
  refine ⟨c, [], rfl, (of_decide_eq_true hunit).1, fun afterOperand pos rest hrest => ?_⟩
  have htwo : OPERATORS2.contains ((c :: rest).take 2) = false := by
    cases rest with
    | nil =>
      have hlength : OPERATORS2.all (·.length = 2) = true := by decide
      by_contra hcontains
      have := List.all_eq_true.mp hlength _ (List.contains_iff_mem.mp (by simpa using hcontains))
      simp at this
    | cons d rest => exact (Bool.or_eq_false_iff.mp (hrest d rfl)).1
  rw [List.nil_append, lexemeAt_operator hunit, htwo, if_neg (by decide), if_pos hc]
  intro hpoint
  cases rest with
  | nil => rfl
  | cons d rest =>
    have := (Bool.or_eq_false_iff.mp (hrest d rfl)).2
    simpa [opLexeme, hpoint] using this

theorem reads_op2 {text : Text} (h : OPERATORS2.contains text = true) : Reads (opLexeme text) := by
  have hall : OPERATORS2.all (fun t => t.length = 2 ∧ t.all isOperatorUnit ∧ POINT ∉ t) = true := by
    decide
  obtain ⟨hlength, hunits, hpoint⟩ := of_decide_eq_true
    (List.all_eq_true.mp hall text (List.contains_iff_mem.mp h))
  obtain ⟨c, d, rfl⟩ := List.length_eq_two.mp hlength
  have hunit : isOperatorUnit c = true := List.all_eq_true.mp hunits c List.mem_cons_self
  refine ⟨c, [d], rfl, (of_decide_eq_true hunit).1, fun afterOperand pos rest _ => ?_⟩
  rw [lexemeAt_operator hunit fun hc => absurd (hc ▸ List.mem_cons_self) hpoint,
    List.singleton_append, List.take_succ_cons, List.take_succ_cons, List.take_zero, if_pos h]

theorem of_isIdentStart {c : UInt16} (h : isIdentStart c = true) :
    isBlank c = false ∧ isDigit c = false ∧ c ≠ POINT := by
  simp only [isIdentStart, UInt16.le_iff_toNat_le, ← UInt16.toNat_inj, UInt16.reduceToNat,
    Bool.decide_or, Bool.decide_and, Bool.or_eq_true, Bool.and_eq_true, decide_eq_true_eq] at h
  refine ⟨?_, ?_, ?_⟩
  · simp only [isBlank, ← UInt16.toNat_inj, UInt16.reduceToNat, decide_eq_false_iff_not]
    omega
  · rw [← Bool.not_eq_true, isDigit_iff]
    omega
  · rintro rfl
    simp [POINT] at h

theorem reads_name {name : Text} (h : isIdentifier name = true) : Reads (nameLexeme name) := by
  cases name with
  | nil => cases h
  | cons c t =>
    obtain ⟨hstart, hpart⟩ := Bool.and_eq_true_iff.mp h
    obtain ⟨hblank, hdigit, hpoint⟩ := of_isIdentStart hstart
    refine ⟨c, t, rfl, hblank, fun afterOperand pos rest hrest => ?_⟩
    rw [lexemeAt, if_neg (by simp [hdigit, hpoint]), if_pos hstart, takeWhile_append hpart hrest]

theorem stringBody_quote (quote : UInt16) (rest : Text) :
    stringBody quote (quote :: rest) = some ([], rest) := by
  cases rest <;> rw [stringBody, if_pos rfl]

theorem stringBody_cons {quote c : UInt16} (hquote : c ≠ quote) (hescape : c ≠ ESCAPE)
    (rest : Text) :
    stringBody quote (c :: rest) =
      (stringBody quote rest).map fun (value, after) => (c :: value, after) := by
  cases rest with
  | nil => simp [stringBody, hquote]
  | cons d rest => rw [stringBody, if_neg hquote, if_neg hescape]

theorem stringBody_escaped (value rest : Text) :
    stringBody SINGLE_QUOTE (escaped value ++ SINGLE_QUOTE :: rest) = some (value, rest) := by
  induction value with
  | nil => exact stringBody_quote _ _
  | cons c value ih =>
    rw [escaped, List.flatMap_cons, ← escaped]
    by_cases hc : c = SINGLE_QUOTE ∨ c = ESCAPE
    · simp only [if_pos hc, List.cons_append, List.nil_append]
      rw [stringBody, if_neg (by decide), if_pos rfl, ih, Option.map_some]
    · obtain ⟨hquote, hescape⟩ := not_or.mp hc
      rw [if_neg hc, List.singleton_append, List.cons_append, stringBody_cons hquote hescape, ih,
        Option.map_some]

theorem reads_str (value : Text) : Reads ⟨.str value, quoted value⟩ := by
  refine ⟨SINGLE_QUOTE, _, rfl, by decide, fun afterOperand pos rest _ => ?_⟩
  have hpart : (SINGLE_QUOTE :: (escaped value ++ [SINGLE_QUOTE] ++ rest)).take
      ((escaped value ++ [SINGLE_QUOTE] ++ rest).length + 1 - rest.length) = quoted value := by
    have hlength : (escaped value ++ [SINGLE_QUOTE] ++ rest).length + 1 - rest.length =
        (quoted value).length := by
      simp only [quoted, List.length_append, List.length_cons]
      omega
    rw [hlength, ← List.cons_append, ← quoted, List.take_left]
  have hbody : stringBody SINGLE_QUOTE (escaped value ++ [SINGLE_QUOTE] ++ rest) =
      some (value, rest) := by
    rw [List.append_assoc, List.singleton_append, stringBody_escaped]
  have hnumber : ¬ (isDigit SINGLE_QUOTE = true ∨ (SINGLE_QUOTE = POINT ∧
      (escaped value ++ [SINGLE_QUOTE] ++ rest).head?.any isDigit ∧ afterOperand = false)) := by
    rintro (h | ⟨h, -⟩)
    · exact absurd h (by decide)
    · exact absurd h (by decide)
  rw [lexemeAt, if_neg hnumber, if_neg (by decide), if_pos (.inr rfl), hbody]
  dsimp only
  rw [hpart]

/-! ## Numbers -/

theorem isDigit_sign {c : UInt16} (h : c = PLUS ∨ c = MINUS) : isDigit c = false := by
  rcases h with rfl | rfl <;> decide

theorem exponentPart_digits {sign digits rest : Text} (hsign : sign = [] ∨ sign = [PLUS] ∨
    sign = [MINUS]) (hne : digits ≠ []) (hdigits : digits.all isDigit = true)
    (hrest : ∀ d ∈ rest.head?, isDigit d = false) :
    exponentPart (LOWER_E :: (sign ++ digits) ++ rest) = LOWER_E :: (sign ++ digits) := by
  have hpart : signPart (sign ++ digits ++ rest) = sign := by
    rcases hsign with rfl | rfl | rfl
    · cases digits with
      | nil => exact absurd rfl hne
      | cons d digits =>
        have hd := List.all_eq_true.mp hdigits d List.mem_cons_self
        rw [List.nil_append, List.cons_append, signPart, if_neg]
        intro h
        rw [isDigit_sign h] at hd
        cases hd
    · rfl
    · rfl
  rw [List.cons_append, exponentPart]
  dsimp only
  rw [if_pos (.inl rfl), hpart, List.append_assoc, List.drop_left, takeWhile_append hdigits hrest,
    if_neg hne]

theorem readExponent_shape {t : Text} {e : ℤ} (h : readExponent (LOWER_E :: t) = some e) :
    ∃ sign digits, t = sign ++ digits ∧ (sign = [] ∨ sign = [PLUS] ∨ sign = [MINUS]) ∧
      digits ≠ [] ∧ digits.all isDigit = true := by
  cases t with
  | nil => simp [readExponent] at h
  | cons sign digits =>
    rw [readExponent, if_pos (.inl rfl)] at h
    split_ifs at h with hminus hplus hall
    · exact ⟨[sign], digits, rfl, by simp [hminus.1], hminus.2⟩
    · exact ⟨[sign], digits, rfl, by simp [hplus.1], hplus.2⟩
    · exact ⟨[], sign :: digits, rfl, .inl rfl, by simp, hall⟩

theorem exponentPart_numeral (n : Numeral) {rest : Text}
    (h : ∀ d ∈ rest.head?, isIdentPart d = false) :
    exponentPart (n.exponent ++ rest) = n.exponent := by
  have hreads := n.reads
  rcases n.starts with hnil | ⟨exponent, hcons⟩
  · rw [hnil, List.nil_append]
    cases rest with
    | nil => rfl
    | cons d rest =>
      have hd := (Bool.or_eq_false_iff.mp (h d rfl)).1
      have hne : ¬ (d = LOWER_E ∨ d = UPPER_E) := by
        rintro (rfl | rfl)
        · exact absurd hd (by decide)
        · exact absurd hd (by decide)
      rw [exponentPart]
      exact if_neg hne
  · rw [hcons] at hreads ⊢
    obtain ⟨sign, digits, rfl, hsign, hne, hdigits⟩ := readExponent_shape hreads
    exact exponentPart_digits hsign hne hdigits
      fun d hd => (Bool.or_eq_false_iff.mp (h d hd)).2

theorem head_exponent (n : Numeral) {rest : Text}
    (h : ∀ d ∈ rest.head?, isIdentPart d = false ∧ d ≠ POINT) :
    ∀ d ∈ (n.exponent ++ rest).head?, isDigit d = false ∧ d ≠ POINT := by
  rcases n.starts with hnil | ⟨exponent, hcons⟩
  · rw [hnil, List.nil_append]
    exact fun d hd => ⟨(Bool.or_eq_false_iff.mp (h d hd).1).2, (h d hd).2⟩
  · rw [hcons, List.cons_append, List.head?_cons]
    rintro d ⟨rfl⟩
    exact ⟨by decide, by decide⟩

theorem fractionPart_numeral (n : Numeral) {rest : Text}
    (h : ∀ d ∈ rest.head?, isIdentPart d = false ∧ d ≠ POINT) :
    fractionPart ((if n.fraction = [] then [] else POINT :: n.fraction) ++ (n.exponent ++ rest)) =
      if n.fraction = [] then [] else POINT :: n.fraction := by
  have hhead := head_exponent n h
  by_cases hnil : n.fraction = []
  · rw [if_pos hnil, List.nil_append]
    cases hrest : n.exponent ++ rest with
    | nil => rfl
    | cons d tail =>
      rw [hrest] at hhead
      rw [fractionPart, if_neg (hhead d rfl).2]
  · rw [if_neg hnil, List.cons_append, fractionPart, if_pos rfl,
      takeWhile_append (List.all_eq_true.mpr n.digits_fraction) fun d hd => (hhead d hd).1]

theorem decimalPart_numeral (n : Numeral) {rest : Text}
    (h : ∀ d ∈ rest.head?, isIdentPart d = false ∧ d ≠ POINT) :
    decimalPart (n.text ++ rest) = n.text := by
  have hsplit : n.text ++ rest = n.whole ++
      ((if n.fraction = [] then [] else POINT :: n.fraction) ++ (n.exponent ++ rest)) := by
    rw [Numeral.text, numeral, List.append_assoc, List.append_assoc]
  have hwhole : (n.text ++ rest).takeWhile isDigit = n.whole := by
    rw [hsplit, takeWhile_append (List.all_eq_true.mpr n.digits_whole)]
    split
    · exact fun d hd => (head_exponent n h d hd).1
    · rintro d ⟨rfl⟩
      decide
  have hfraction : fractionPart ((n.text ++ rest).drop n.whole.length) =
      if n.fraction = [] then [] else POINT :: n.fraction := by
    rw [hsplit, List.drop_left, fractionPart_numeral n h]
  have hexponent : exponentPart ((n.text ++ rest).drop
      (n.whole ++ if n.fraction = [] then [] else POINT :: n.fraction).length) = n.exponent := by
    rw [hsplit, ← List.append_assoc, List.drop_left,
      exponentPart_numeral n fun d hd => (h d hd).1]
  rw [decimalPart, hwhole, hfraction, hexponent]
  rfl

theorem literalText_numeral {value : JsNumber} (h : IsLiteral value) :
    ∃ n : Numeral, literalText value = n.text ∧ readLiteral n.text = value := by
  cases value with
  | nan => cases h
  | infinite negative =>
    cases negative with
    | true => cases h
    | false =>
      refine ⟨⟨[0x31], [], units "e309", 309, by simp, List.forall_mem_singleton.mpr (by decide),
        by simp [Digits], .inr ⟨_, rfl⟩, by decide +kernel⟩, by decide, by decide +kernel⟩
  | finite negative q =>
    cases negative with
    | true => cases h
    | false =>
      have htext : literalText (.finite false q) = numberToString (.finite false q) := rfl
      have hread := @readLiteral_numberToString q false h
      rw [Bool.false_and] at hread
      by_cases hzero : q = 0
      · refine ⟨⟨[ZERO], [], [], 0, by simp, List.forall_mem_singleton.mpr (by decide), by simp [Digits],
          .inl rfl, rfl⟩, ?_, ?_⟩
        · rw [htext, numberToString, if_pos hzero]
          rfl
        · rw [numberToString, if_pos hzero] at hread
          exact hread
      · refine ⟨shortestNumeral q, ?_, ?_⟩
        · rw [htext, numberToString, if_neg hzero]
          rfl
        · rw [numberToString, if_neg hzero] at hread
          exact hread

theorem reads_num {value : JsNumber} (h : IsLiteral value) :
    Reads ⟨.num value, literalText value⟩ := by
  obtain ⟨n, htext, hread⟩ := literalText_numeral h
  obtain ⟨c, t, hwhole⟩ := List.exists_cons_of_ne_nil n.whole_ne_nil
  have hdigit : isDigit c = true := n.digits_whole c (hwhole ▸ List.mem_cons_self)
  have hcons : n.text = c :: (n.text.tail) := by
    rw [Numeral.text, numeral, hwhole]
    rfl
  have hblank : isBlank c = false := by
    rw [isDigit_iff] at hdigit
    simp only [isBlank, ← UInt16.toNat_inj, UInt16.reduceToNat, decide_eq_false_iff_not]
    omega
  refine ⟨c, n.text.tail, htext.trans hcons, hblank, fun afterOperand pos rest hrest => ?_⟩
  have hends : ∀ d ∈ rest.head?, isIdentPart d = false ∧ d ≠ POINT := by
    intro d hd
    simpa [Lexeme.continues] using hrest d hd
  -- neither the numeral nor what may follow it goes on with an `x`
  have hhex : ¬ (c = ZERO ∧ ((n.text.tail ++ rest).head? = some 0x78 ∨
      (n.text.tail ++ rest).head? = some 0x58)) := by
    have hx : ∀ d, (n.text.tail ++ rest).head? = some d → isNumeralUnit d = true ∨
        isIdentPart d = false := by
      intro d hd
      rw [List.head?_append] at hd
      cases htail : n.text.tail.head? with
      | none =>
        rw [htail, Option.none_or] at hd
        exact .inr (hends d hd).1
      | some e =>
        rw [htail, Option.some_or] at hd
        cases hd
        exact .inl (n.units_text d (List.mem_of_mem_tail (List.mem_of_head? htail)))
    rintro ⟨-, h | h⟩
    · exact absurd (hx _ h) (by decide)
    · exact absurd (hx _ h) (by decide)
  rw [lexemeAt, if_pos (.inl hdigit), if_neg hhex]
  dsimp only
  rw [← List.cons_append, ← hcons, decimalPart_numeral n hends, hread, htext]

/-! ## A spelled list of tokens -/

theorem tokenizeFrom_blanks {blanks : Text} (h : ∀ c ∈ blanks, isBlank c = true) (fuel : ℕ)
    (afterOperand : Bool) (pos : ℕ) (text : Text) :
    tokenizeFrom (fuel + blanks.length) afterOperand pos (blanks ++ text) =
      tokenizeFrom fuel afterOperand (pos + blanks.length) text := by
  induction blanks generalizing pos with
  | nil => rfl
  | cons c blanks ih =>
    obtain ⟨hc, hblanks⟩ := List.forall_mem_cons.mp h
    rw [List.cons_append, List.length_cons, ← Nat.add_assoc, tokenizeFrom, if_pos hc, ih hblanks,
      Nat.add_assoc, Nat.add_comm 1]

theorem tokenizeFrom_spells {ls : List Lexeme} {text : Text} (hspells : Spells ls text)
    (hreads : ∀ l ∈ ls, Reads l) {fuel : ℕ} (hfuel : text.length ≤ fuel) (afterOperand : Bool)
    (pos : ℕ) :
    ∃ tokens, tokenizeFrom fuel afterOperand pos text = .ok tokens ∧
      tokens.map Token.lexeme = ls := by
  induction hspells generalizing fuel afterOperand pos with
  | @nil blanks hblanks =>
    obtain ⟨left, rfl⟩ := Nat.exists_eq_add_of_le' hfuel
    have hblank := tokenizeFrom_blanks hblanks left afterOperand pos []
    rw [List.append_nil] at hblank
    refine ⟨[], ?_, rfl⟩
    rw [hblank]
    cases left <;> rfl
  | @cons blanks l ls text hblanks hends hrest ih =>
    obtain ⟨hl, hls⟩ := List.forall_mem_cons.mp hreads
    obtain ⟨c, t, htext, hblank, hread⟩ := hl
    rw [List.length_append, List.length_append] at hfuel
    obtain ⟨left, rfl⟩ := Nat.exists_eq_add_of_le' ((Nat.le_add_right _ _).trans
      ((Nat.le_add_right _ _).trans hfuel))
    have hlength : l.text.length = t.length + 1 := by rw [htext, List.length_cons]
    obtain ⟨left, rfl⟩ := Nat.exists_eq_add_of_le' (show 1 ≤ left by omega)
    have hleft : text.length ≤ left := by omega
    obtain ⟨tokens, htokens, hmap⟩ :=
      ih hls hleft l.isOperand (pos + blanks.length + l.text.length)
    refine ⟨⟨l, pos + blanks.length⟩ :: tokens, ?_, by rw [List.map_cons, hmap]⟩
    have hdrop : (c :: (t ++ text)).drop l.text.length = text := by
      rw [htext, ← List.cons_append, List.drop_left]
    rw [List.append_assoc, tokenizeFrom_blanks hblanks, htext, List.cons_append, tokenizeFrom,
      if_neg (by simp [hblank]), hread _ _ _ hends]
    change (do
      let tokens ← tokenizeFrom left l.isOperand (pos + blanks.length + l.text.length)
        ((c :: (t ++ text)).drop l.text.length)
      return (⟨l, pos + blanks.length⟩ :: tokens : List Token)) = _
    rw [hdrop, htokens]
    rfl

/-! ## The tokens of an expression -/

theorem reads_binaryOp (op : BinaryOp) : Reads op.lexeme := by
  cases op with
  | and => exact reads_name (show isIdentifier (units "and") = true by decide)
  | or => exact reads_name (show isIdentifier (units "or") = true by decide)
  | floorDiv => exact reads_op2 (show OPERATORS2.contains (units "//") = true by decide)
  | pow => exact reads_op2 (show OPERATORS2.contains (units "**") = true by decide)
  | eq => exact reads_op2 (show OPERATORS2.contains (units "==") = true by decide)
  | ne => exact reads_op2 (show OPERATORS2.contains (units "!=") = true by decide)
  | le => exact reads_op2 (show OPERATORS2.contains (units "<=") = true by decide)
  | ge => exact reads_op2 (show OPERATORS2.contains (units ">=") = true by decide)
  | shiftLeft => exact reads_op2 (show OPERATORS2.contains (units "<<") = true by decide)
  | shiftRight => exact reads_op2 (show OPERATORS2.contains (units ">>") = true by decide)
  | add => exact reads_op1 (c := 0x2B) (by decide)
  | sub => exact reads_op1 (c := 0x2D) (by decide)
  | mul => exact reads_op1 (c := 0x2A) (by decide)
  | div => exact reads_op1 (c := 0x2F) (by decide)
  | mod => exact reads_op1 (c := 0x25) (by decide)
  | lt => exact reads_op1 (c := 0x3C) (by decide)
  | gt => exact reads_op1 (c := 0x3E) (by decide)
  | bitAnd => exact reads_op1 (c := 0x26) (by decide)
  | bitOr => exact reads_op1 (c := 0x7C) (by decide)
  | bitXor => exact reads_op1 (c := 0x5E) (by decide)

theorem reads_unaryOp (op : UnaryOp) : Reads op.lexeme := by
  cases op with
  | not => exact reads_name (show isIdentifier (units "not") = true by decide)
  | neg => exact reads_op1 (c := 0x2D) (by decide)
  | plus => exact reads_op1 (c := 0x2B) (by decide)
  | invert => exact reads_op1 (c := 0x7E) (by decide)

theorem reads_parenthesized {least level : ℕ} {ls : List Lexeme} (h : ∀ l ∈ ls, Reads l) :
    ∀ l ∈ parenthesized least level ls, Reads l := by
  unfold parenthesized
  split
  · intro l hl
    rcases List.mem_cons.mp hl with rfl | hl
    · exact reads_op1 (c := 0x28) (by decide)
    rcases List.mem_append.mp hl with hl | hl
    · exact h l hl
    · rw [List.mem_singleton.mp hl]
      exact reads_op1 (c := 0x29) (by decide)
  · exact h

mutual

theorem reads_lexemes : (n : Node) → n.Printable → ∀ l ∈ n.lexemes, Reads l
  | .num value, h => by
    simp only [Node.lexemes, List.mem_singleton, forall_eq]
    exact reads_num h
  | .str value, _ => by
    simp only [Node.lexemes, List.mem_singleton, forall_eq]
    exact reads_str value
  | .name name, h => by
    simp only [Node.lexemes, List.mem_singleton, forall_eq]
    exact reads_name h.1
  | .attr object name, h => by
    simp only [Node.lexemes, List.forall_mem_append, List.forall_mem_cons]
    exact ⟨reads_parenthesized (reads_lexemes object h.1), reads_op1 (c := 0x2E) (by decide),
      reads_name h.2, by simp⟩
  | .index object index, h => by
    simp only [Node.lexemes, List.forall_mem_append, List.forall_mem_cons]
    exact ⟨reads_parenthesized (reads_lexemes object h.1), reads_op1 (c := 0x5B) (by decide),
      reads_lexemes index h.2, reads_op1 (c := 0x5D) (by decide), by simp⟩
  | .call callee args, h => by
    simp only [Node.lexemes, List.forall_mem_append, List.forall_mem_cons]
    exact ⟨reads_name h.1.1, reads_op1 (c := 0x28) (by decide), reads_argsLexemes args h.2,
      reads_op1 (c := 0x29) (by decide), by simp⟩
  | .unary op operand, h => by
    simp only [Node.lexemes, List.forall_mem_cons]
    exact ⟨reads_unaryOp op, reads_parenthesized (reads_lexemes operand h)⟩
  | .binary op left right, h => by
    simp only [Node.lexemes, List.forall_mem_append, List.forall_mem_cons]
    exact ⟨reads_parenthesized (reads_lexemes left h.1), reads_binaryOp op,
      reads_parenthesized (reads_lexemes right h.2)⟩

theorem reads_argsLexemes : (args : List Node) → ArgsPrintable args →
    ∀ l ∈ argsLexemes args, Reads l
  | [], _ => by simp [argsLexemes]
  | [arg], h => reads_lexemes arg h.1
  | arg :: next :: args, h => by
    simp only [argsLexemes, List.forall_mem_append, List.forall_mem_cons]
    exact ⟨reads_lexemes arg h.1, reads_op1 (c := 0x2C) (by decide),
      reads_argsLexemes (next :: args) h.2⟩

end

theorem tokenize_spells {n : Node} (h : n.Printable) {text : Text}
    (hspells : Spells n.lexemes text) :
    ∃ tokens, tokenize text = .ok tokens ∧ tokens.map Token.lexeme = n.lexemes :=
  tokenizeFrom_spells hspells (reads_lexemes n h) le_rfl false 0

theorem Spells.next {l : Lexeme} {ls : List Lexeme} {text : Text}
    (hends : ∀ c ∈ text.head?, l.continues c = false) (hrest : Spells ls text) :
    Spells (l :: ls) (l.text ++ text) := by
  have hspells := @Spells.cons [] l ls text (List.forall_mem_nil _) hends hrest
  rwa [List.nil_append] at hspells

theorem Spells.blank_cons {ls : List Lexeme} {text : Text} {c : UInt16} (h : Spells ls text)
    (hc : isBlank c = true) : Spells ls (c :: text) := by
  cases h with
  | nil hblanks => exact .nil (List.forall_mem_cons.mpr ⟨hc, hblanks⟩)
  | cons hblanks hends hrest =>
    exact .cons (List.forall_mem_cons.mpr ⟨hc, hblanks⟩) hends hrest

theorem continues_space (l : Lexeme) : l.continues 0x20 = false := by
  obtain ⟨kind, text⟩ := l
  cases kind with
  | num value => exact (by decide : (isIdentPart 0x20 || decide ((0x20 : UInt16) = POINT)) = false)
  | str value => rfl
  | name => exact (by decide : isIdentPart 0x20 = false)
  | op =>
    have hlast : OPERATORS2.all (·.getLast? ≠ some 0x20) = true := by decide
    have hcontains : OPERATORS2.contains (text ++ [0x20]) = false := by
      by_contra h
      have := List.all_eq_true.mp hlast _ (List.contains_iff_mem.mp (by simpa using h))
      simp at this
    simp only [Lexeme.continues, hcontains, Bool.false_or, Bool.and_eq_false_iff]
    exact .inr (by decide)

theorem spells_spaced (ls : List Lexeme) : Spells ls (spaced ls) := by
  induction ls with
  | nil => exact .nil (by simp [spaced])
  | cons l ls ih =>
    have hrest : Spells ls ([0x20] ++ spaced ls) := ih.blank_cons (by decide)
    rw [spaced, List.flatMap_cons, ← spaced, List.append_assoc]
    have hblanks : ∀ c ∈ ([] : Text), isBlank c = true := by simp
    refine Spells.cons hblanks (fun c hc => ?_) hrest
    rw [List.singleton_append, List.head?_cons] at hc
    cases hc
    exact continues_space l

end ArduConfigurator.PlotCore
