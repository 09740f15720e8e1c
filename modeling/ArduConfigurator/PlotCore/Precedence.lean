import ArduConfigurator.PlotCore.Lexing

/-! # Printed expressions are parsed back

After the tokens of an expression the parser stands at its loop with the expression to its left,
whatever follows, as long as no operator there binds more tightly than the expression lets it. -/
namespace ArduConfigurator.PlotCore
set_option autoImplicit false

variable {endPos : ℕ}

/-! ## What may stand around an expression -/

/-- The loop reads the operator of the expression; the sign or `not` in front is read anyway. -/
def Node.Opens (minBp : ℕ) : Node → Prop
  | .binary op _ _ => minBp < op.bp
  | .attr _ _ => minBp < BP_POSTFIX
  | .index _ _ => minBp < BP_POSTFIX
  | .call _ _ => minBp < BP_POSTFIX
  | _ => True

def Node.stop : Node → ℕ
  | .unary .not _ => BP_NOT
  | .unary _ _ => BP_UNARY - 1
  | .binary .pow _ _ => BP_UNARY - 1
  | .binary op _ _ => op.bp
  | _ => BP_POSTFIX

def Stops (bp : ℕ) (rest : List Token) : Prop :=
  ∀ token ∈ rest.head?, ∀ op, infixOp token.lexeme = some op → op.bp ≤ bp

theorem Stops.mono {a b : ℕ} {rest : List Token} (h : Stops a rest) (hab : a ≤ b) : Stops b rest :=
  fun token ht op hop => (h token ht op hop).trans hab

theorem stops_nil (bp : ℕ) : Stops bp [] := by simp [Stops]

theorem stops_cons {bp : ℕ} {token : Token} {rest : List Token} :
    Stops bp (token :: rest) ↔ ∀ op, infixOp token.lexeme = some op → op.bp ≤ bp := by
  simp [Stops]

theorem parseInfix_stops {minBp : ℕ} {rest : List Token} (h : Stops minBp rest) (left : Node)
    {fuel : ℕ} (hfuel : 0 < fuel) : parseInfix endPos fuel minBp left rest = .ok (left, rest) := by
  obtain ⟨fuel, rfl⟩ := Nat.exists_eq_add_of_le' hfuel
  cases rest with
  | nil => rw [parseInfix]
  | cons token rest =>
    unfold parseInfix
    dsimp only
    cases hop : infixOp token.lexeme with
    | none => rfl
    | some op =>
      dsimp only
      rw [if_pos (stops_cons.mp h op hop)]

/-! ## The tokens of the grammar -/

@[simp] theorem infixOp_close : infixOp (opLexeme (units ")")) = none := by decide

@[simp] theorem infixOp_closeIndex : infixOp (opLexeme (units "]")) = none := by decide

@[simp] theorem infixOp_comma : infixOp (opLexeme (units ",")) = none := by decide

@[simp] theorem infixOp_field : infixOp (opLexeme (units ".")) = some .field := by decide

@[simp] theorem infixOp_subscript : infixOp (opLexeme (units "[")) = some .subscript := by decide

@[simp] theorem infixOp_call : infixOp (opLexeme (units "(")) = some .call := by decide

@[simp] theorem infixOp_binary (op : BinaryOp) : infixOp op.lexeme = some (.binary op) := by
  cases op <;> decide

theorem isOp_opLexeme (text : Text) : (opLexeme text).isOp text = true := by
  simp [Lexeme.isOp, opLexeme]

theorem expect_ok {text : Text} {token : Token} (h : token.lexeme = opLexeme text)
    (rest : List Token) : expect endPos text (token :: rest) = .ok rest := by
  rw [expect, h, if_pos (isOp_opLexeme text)]

/-! ## Expressions in their places -/

/-- After its tokens the parser stands at its loop with the expression to its left. -/
def Parses (endPos : ℕ) (n : Node) : Prop :=
  ∀ {tokens rest : List Token} {minBp enough : ℕ} {result : Node × List Token},
    tokens.map Token.lexeme = n.lexemes → n.Opens minBp → Stops n.stop rest →
    (∀ fuel ≥ enough, parseInfix endPos fuel minBp n rest = .ok result) →
    ∀ fuel ≥ enough + 2 * tokens.length, parse endPos fuel minBp (tokens ++ rest) = .ok result

theorem bp_pos (op : BinaryOp) : 0 < op.bp := by
  cases op <;> decide

theorem opens_zero (n : Node) : n.Opens 0 := by
  cases n with
  | binary op left right => exact bp_pos op
  | _ => simp [Node.Opens, BP_POSTFIX]

theorem Parses.closed {n : Node} (h : Parses endPos n) {tokens rest : List Token}
    (htokens : tokens.map Token.lexeme = n.lexemes) (hrest : Stops 0 rest) {fuel : ℕ}
    (hfuel : 1 + 2 * tokens.length ≤ fuel) :
    parse endPos fuel 0 (tokens ++ rest) = .ok (n, rest) :=
  h htokens (opens_zero n) (hrest.mono (Nat.zero_le _))
    (fun _ hpos => parseInfix_stops hrest n hpos) fuel hfuel

theorem parsePrefix_paren {n : Node} (h : Parses endPos n) {opening closing : Token}
    {tokens : List Token} (hopening : opening.lexeme = opLexeme (units "("))
    (htokens : tokens.map Token.lexeme = n.lexemes) (hclosing : closing.lexeme = opLexeme (units ")"))
    (rest : List Token) {fuel : ℕ} (hfuel : 2 + 2 * tokens.length ≤ fuel) :
    parsePrefix endPos fuel (opening :: (tokens ++ closing :: rest)) = .ok (n, rest) := by
  obtain ⟨fuel, rfl⟩ := Nat.exists_eq_add_of_le' (show 1 ≤ fuel by omega)
  have hstops : Stops 0 (closing :: rest) := by
    rw [stops_cons, hclosing, infixOp_close]
    simp
  rw [parsePrefix, hopening]
  change (if units "(" = units "(" then _ else _) = _
  rw [if_pos rfl, h.closed htokens hstops (by omega)]
  change (do
    let rest ← expect endPos (units ")") (closing :: rest)
    return (n, rest)) = _
  rw [expect_ok hclosing]
  rfl

theorem Parses.operand {n : Node} (h : Parses endPos n) {least minBp : ℕ} (enough : ℕ)
    {tokens rest : List Token} {result : Node × List Token}
    (htokens : tokens.map Token.lexeme = parenthesized least n.level n.lexemes)
    (hbare : least ≤ n.level → n.Opens minBp ∧ Stops n.stop rest)
    (hloop : ∀ fuel ≥ enough, parseInfix endPos fuel minBp n rest = .ok result) :
    ∀ fuel ≥ enough + 2 * tokens.length, parse endPos fuel minBp (tokens ++ rest) = .ok result := by
  unfold parenthesized at htokens
  split at htokens
  · obtain ⟨opening, inner, rfl, hopening, hinner⟩ := List.map_eq_cons_iff.mp htokens
    obtain ⟨tokens, last, rfl, hbody, hlast⟩ := List.map_eq_append_iff.mp hinner
    obtain ⟨closing, nothing, rfl, hclosing, hnothing⟩ := List.map_eq_cons_iff.mp hlast
    obtain rfl := List.map_eq_nil_iff.mp hnothing
    intro fuel hfuel
    simp only [List.length_cons, List.length_append, List.length_nil] at hfuel
    obtain ⟨fuel, rfl⟩ := Nat.exists_eq_add_of_le' (show 1 ≤ fuel by omega)
    rw [parse, List.cons_append, List.append_assoc, List.singleton_append,
      parsePrefix_paren h hopening hbody hclosing rest (by omega)]
    exact hloop fuel (by omega)
  · obtain ⟨hopens, hstops⟩ := hbare (by omega)
    exact h htokens hopens hstops hloop

theorem Parses.right {n : Node} (h : Parses endPos n) {least minBp : ℕ} {tokens rest : List Token}
    (htokens : tokens.map Token.lexeme = parenthesized least n.level n.lexemes)
    (hbare : least ≤ n.level → n.Opens minBp ∧ minBp ≤ n.stop) (hrest : Stops minBp rest)
    {fuel : ℕ} (hfuel : 1 + 2 * tokens.length ≤ fuel) :
    parse endPos fuel minBp (tokens ++ rest) = .ok (n, rest) :=
  h.operand _ htokens (fun hlevel => ⟨(hbare hlevel).1, hrest.mono (hbare hlevel).2⟩)
    (fun _ hpos => parseInfix_stops hrest n hpos) fuel hfuel

/-! ## The levels and the binding powers -/

theorem opens_of_level {n : Node} {minBp : ℕ} (h : minBp < n.level) : n.Opens minBp := by
  cases n with
  | unary op operand => trivial
  | _ => first | exact h | trivial

theorem opens_of_prefix_level {n : Node} {minBp : ℕ} (h : n.level = BP_NOT ∨ n.level = BP_UNARY) :
    n.Opens minBp := by
  cases n with
  | binary op left right => cases op <;> rcases h with h | h <;> cases h
  | attr object name => rcases h with h | h <;> cases h
  | index object index => rcases h with h | h <;> cases h
  | call callee args => rcases h with h | h <;> cases h
  | _ => trivial

theorem stop_of_primary {n : Node} (h : BP_POSTFIX ≤ n.level) : n.stop = BP_POSTFIX := by
  cases n with
  | unary op operand => cases op <;> exact absurd h (by simp [Node.level, BP_POSTFIX, BP_UNARY, BP_NOT])
  | binary op left right =>
    exact absurd h (by cases op <;> simp [Node.level, BinaryOp.bp, BP_POSTFIX, BP_POWER, BP_COMPARE,
      BP_AND, BP_OR])
  | _ => rfl

theorem level_le_stop {n : Node} {bp : ℕ} (h : bp ≤ n.level) (hbp : bp < BP_UNARY) :
    bp ≤ n.stop := by
  simp only [BP_UNARY] at hbp
  cases n with
  | unary op operand =>
    cases op <;> simp only [Node.level, Node.stop, BP_UNARY, BP_NOT] at h ⊢ <;> omega
  | binary op left right =>
    cases op <;> simp only [Node.level, Node.stop, BinaryOp.bp, BP_UNARY, BP_POWER, BP_COMPARE] at h ⊢ <;>
      omega
  | _ => simp only [Node.stop, BP_POSTFIX]; omega

/-! ## Every expression -/

theorem parses_leaf {n : Node} {l : Lexeme} (hlexemes : n.lexemes = [l])
    (hleaf : ∀ fuel pos rest,
      parsePrefix endPos (fuel + 1) (⟨l, pos⟩ :: rest) = .ok (n, rest)) :
    Parses endPos n := by
  intro tokens rest minBp enough result htokens _ _ hloop fuel hfuel
  rw [hlexemes] at htokens
  obtain ⟨⟨lexeme, pos⟩, nothing, rfl, rfl, hnothing⟩ := List.map_eq_cons_iff.mp htokens
  obtain rfl := List.map_eq_nil_iff.mp hnothing
  simp only [List.length_cons, List.length_nil] at hfuel
  obtain ⟨fuel, rfl⟩ := Nat.exists_eq_add_of_le' (show 2 ≤ fuel by omega)
  rw [parse, List.singleton_append, hleaf]
  exact hloop (fuel + 1) (by omega)

theorem parsePrefix_name {name : Text} (hname : name ∉ KEYWORDS) (fuel pos : ℕ)
    (rest : List Token) :
    parsePrefix endPos (fuel + 1) (⟨nameLexeme name, pos⟩ :: rest) = .ok (.name name, rest) := by
  simp only [KEYWORDS, List.mem_cons, List.not_mem_nil, or_false, not_or] at hname
  rw [parsePrefix]
  change (if name = units "not" then _ else if name = units "and" ∨ name = units "or" then _ else _) = _
  rw [if_neg hname.2.2, if_neg (not_or.mpr ⟨hname.1, hname.2.1⟩)]
  rfl

theorem parses_name {name : Text} (hname : name ∉ KEYWORDS) : Parses endPos (.name name) :=
  parses_leaf rfl (parsePrefix_name hname)

theorem parsePrefix_unary (op : UnaryOp) {token : Token} (htoken : token.lexeme = op.lexeme)
    (fuel : ℕ) (rest : List Token) :
    parsePrefix endPos (fuel + 1) (token :: rest) = (do
      let (operand, rest) ← parse endPos fuel (if op = .not then BP_NOT else BP_UNARY - 1) rest
      return (.unary op operand, rest)) := by
  obtain ⟨lexeme, pos⟩ := token
  obtain rfl : lexeme = op.lexeme := htoken
  rw [parsePrefix]
  cases op <;> rfl

theorem parses_unary (op : UnaryOp) {operand : Node} (h : Parses endPos operand) :
    Parses endPos (.unary op operand) := by
  intro tokens rest minBp enough result htokens _ hstops hloop fuel hfuel
  obtain ⟨token, tokens, rfl, htoken, hoperand⟩ := List.map_eq_cons_iff.mp htokens
  rw [List.length_cons] at hfuel
  have hpos : 1 ≤ enough := by
    by_contra hzero
    have := hloop 0 (by omega)
    cases this
  obtain ⟨fuel, rfl⟩ := Nat.exists_eq_add_of_le' (show 2 ≤ fuel by omega)
  have hright : parse endPos fuel (if op = .not then BP_NOT else BP_UNARY - 1) (tokens ++ rest) =
      .ok (operand, rest) := by
    by_cases hnot : op = .not
    · subst hnot
      refine h.right hoperand (fun hlevel => ⟨?_, level_le_stop hlevel (by decide)⟩) hstops (by omega)
      rcases Nat.eq_or_lt_of_le hlevel with heq | hlt
      · exact opens_of_prefix_level (.inl heq.symm)
      · exact opens_of_level hlt
    · rw [if_neg hnot]
      have hstop : (Node.unary op operand).stop = BP_UNARY - 1 := by cases op <;> first | rfl | contradiction
      have hleast : op.operandLevel = BP_UNARY := by cases op <;> first | rfl | contradiction
      rw [hleast] at hoperand
      rw [hstop] at hstops
      refine h.right hoperand (fun hlevel => ⟨opens_of_level ?_, level_le_stop ?_ (by decide)⟩) hstops
        (by omega)
      · exact Nat.lt_of_lt_of_le (by decide) hlevel
      · exact Nat.le_trans (by decide) hlevel
  rw [parse, List.cons_append, parsePrefix_unary op htoken, hright]
  exact hloop (fuel + 1) (by omega)

theorem parseInfix_binary (op : BinaryOp) {token : Token} (htoken : token.lexeme = op.lexeme)
    {minBp : ℕ} (hbp : minBp < op.bp) (fuel : ℕ) (left : Node) (rest : List Token) :
    parseInfix endPos (fuel + 1) minBp left (token :: rest) = (do
      let (right, rest) ← parse endPos fuel (if op = .pow then BP_UNARY else op.bp) rest
      parseInfix endPos fuel minBp (.binary op left right) rest) := by
  have hread : infixOp token.lexeme = some (.binary op) := by rw [htoken, infixOp_binary]
  conv_lhs => unfold parseInfix
  dsimp only
  rw [hread]
  dsimp only
  rw [if_neg (show ¬ (Infix.binary op).bp ≤ minBp from Nat.not_le.mpr hbp)]

theorem right_fits {op : BinaryOp} {right : Node} (h : op.rightLevel ≤ right.level) :
    right.Opens (if op = .pow then BP_UNARY else op.bp) ∧
      (if op = .pow then BP_UNARY - 1 else op.bp) ≤ right.stop := by
  unfold BinaryOp.rightLevel at h
  by_cases hpow : op = .pow
  · rw [if_pos hpow] at h ⊢
    rw [if_pos hpow]
    refine ⟨?_, level_le_stop (Nat.le_trans (by decide) h) (by decide)⟩
    rcases Nat.eq_or_lt_of_le h with heq | hlt
    · exact opens_of_prefix_level (.inr heq.symm)
    · exact opens_of_level hlt
  · rw [if_neg hpow] at h ⊢
    rw [if_neg hpow]
    refine ⟨opens_of_level h, level_le_stop (Nat.le_of_succ_le h) ?_⟩
    cases op <;> first | decide | contradiction

theorem left_fits {op : BinaryOp} {left : Node} {minBp : ℕ} (h : op.leftLevel ≤ left.level)
    (hbp : minBp < op.bp) : left.Opens minBp ∧ op.bp ≤ left.stop := by
  have hle : op.bp ≤ op.leftLevel := by cases op <;> decide
  refine ⟨opens_of_level (by omega), ?_⟩
  by_cases hpow : op = .pow
  · subst hpow
    rw [stop_of_primary h]
    decide
  · refine level_le_stop (by omega) ?_
    cases op <;> first | decide | contradiction

theorem parses_binary (op : BinaryOp) {left right : Node} (hleft : Parses endPos left)
    (hright : Parses endPos right) : Parses endPos (.binary op left right) := by
  intro tokens rest minBp enough result htokens hopens hstops hloop fuel hfuel
  obtain ⟨leftTokens, others, rfl, hl, hothers⟩ := List.map_eq_append_iff.mp htokens
  obtain ⟨token, rightTokens, rfl, htoken, hr⟩ := List.map_eq_cons_iff.mp hothers
  simp only [List.length_append, List.length_cons] at hfuel
  have hpos : 1 ≤ enough := by
    by_contra hzero
    have := hloop 0 (by omega)
    cases this
  rw [List.append_assoc, List.cons_append]
  refine hleft.operand (enough + 2 * rightTokens.length + 2) hl (fun hlevel => ?_)
    (fun fuel hfuel => ?_) fuel (by omega)
  · obtain ⟨hopen, hstop⟩ := left_fits hlevel hopens
    refine ⟨hopen, stops_cons.mpr fun i hi => ?_⟩
    rw [htoken, infixOp_binary] at hi
    cases hi
    exact hstop
  · obtain ⟨fuel, rfl⟩ := Nat.exists_eq_add_of_le' (show 1 ≤ fuel by omega)
    have hparse : parse endPos fuel (if op = .pow then BP_UNARY else op.bp) (rightTokens ++ rest) =
        .ok (right, rest) := by
      have hstop : (Node.binary op left right).stop = if op = .pow then BP_UNARY - 1 else op.bp := by
        cases op <;> rfl
      have hfollows : Stops (if op = .pow then BP_UNARY else op.bp) rest := by
        refine hstops.mono ?_
        rw [hstop]
        split
        · exact (by decide : BP_UNARY - 1 ≤ BP_UNARY)
        · exact le_rfl
      refine hright.operand _ hr (fun hlevel => ?_) (fun _ hpos => parseInfix_stops hfollows right hpos)
        fuel (by omega)
      obtain ⟨hopen, hfits⟩ := right_fits hlevel
      exact ⟨hopen, hstops.mono (hstop ▸ hfits)⟩
    rw [parseInfix_binary op htoken hopens, hparse]
    exact hloop fuel (by omega)

theorem Parses.primary {n : Node} (h : Parses endPos n) {minBp : ℕ} (enough : ℕ)
    {tokens rest : List Token} {token : Token} {result : Node × List Token}
    (htokens : tokens.map Token.lexeme = parenthesized BP_POSTFIX n.level n.lexemes)
    (hbp : minBp < BP_POSTFIX) (hmost : ∀ op, infixOp token.lexeme = some op → op.bp ≤ BP_POSTFIX)
    (hloop : ∀ fuel ≥ enough, parseInfix endPos fuel minBp n (token :: rest) = .ok result) :
    ∀ fuel ≥ enough + 2 * tokens.length,
      parse endPos fuel minBp (tokens ++ token :: rest) = .ok result := by
  refine h.operand enough htokens (fun hlevel => ⟨opens_of_level (Nat.lt_of_lt_of_le hbp hlevel), ?_⟩) hloop
  rw [stop_of_primary hlevel]
  exact stops_cons.mpr hmost

theorem parseInfix_field {dot field : Token} {name : Text} {minBp : ℕ}
    (hdot : dot.lexeme = opLexeme (units ".")) (hfield : field.lexeme = nameLexeme name)
    (hbp : minBp < BP_POSTFIX) (fuel : ℕ) (left : Node) (rest : List Token) :
    parseInfix endPos (fuel + 1) minBp left (dot :: field :: rest) =
      parseInfix endPos fuel minBp (.attr left name) rest := by
  obtain ⟨lexeme, pos⟩ := field
  obtain rfl : lexeme = nameLexeme name := hfield
  have hread : infixOp dot.lexeme = some .field := by rw [hdot, infixOp_field]
  conv_lhs => unfold parseInfix
  dsimp only
  rw [hread]
  dsimp only
  rw [if_neg (show ¬ Infix.field.bp ≤ minBp from Nat.not_le.mpr hbp)]
  rfl

theorem parses_attr {object : Node} (name : Text) (h : Parses endPos object) :
    Parses endPos (.attr object name) := by
  intro tokens rest minBp enough result htokens hopens _ hloop fuel hfuel
  obtain ⟨objectTokens, others, rfl, hobject, hothers⟩ := List.map_eq_append_iff.mp htokens
  obtain ⟨dot, others, rfl, hdot, hothers⟩ := List.map_eq_cons_iff.mp hothers
  obtain ⟨field, nothing, rfl, hfield, hnothing⟩ := List.map_eq_cons_iff.mp hothers
  obtain rfl := List.map_eq_nil_iff.mp hnothing
  simp only [List.length_append, List.length_cons, List.length_nil] at hfuel
  rw [List.append_assoc, List.cons_append, List.singleton_append]
  refine h.primary (enough + 1) hobject hopens (fun op hop => ?_) (fun fuel hfuel => ?_)
    fuel (by omega)
  · rw [hdot, infixOp_field] at hop
    cases hop
    exact le_rfl
  · obtain ⟨fuel, rfl⟩ := Nat.exists_eq_add_of_le' (show 1 ≤ fuel by omega)
    rw [parseInfix_field hdot hfield hopens]
    exact hloop fuel (by omega)

theorem parseInfix_subscript {opening : Token} {minBp : ℕ}
    (hopening : opening.lexeme = opLexeme (units "[")) (hbp : minBp < BP_POSTFIX) (fuel : ℕ)
    (left : Node) (rest : List Token) :
    parseInfix endPos (fuel + 1) minBp left (opening :: rest) = (do
      let (index, rest) ← parse endPos fuel 0 rest
      let rest ← expect endPos (units "]") rest
      parseInfix endPos fuel minBp (.index left index) rest) := by
  have hread : infixOp opening.lexeme = some .subscript := by rw [hopening, infixOp_subscript]
  conv_lhs => unfold parseInfix
  dsimp only
  rw [hread]
  dsimp only
  rw [if_neg (show ¬ Infix.subscript.bp ≤ minBp from Nat.not_le.mpr hbp)]

theorem parses_index {object index : Node} (hobject : Parses endPos object)
    (hindex : Parses endPos index) : Parses endPos (.index object index) := by
  intro tokens rest minBp enough result htokens hopens _ hloop fuel hfuel
  obtain ⟨objectTokens, others, rfl, ho, hothers⟩ := List.map_eq_append_iff.mp htokens
  obtain ⟨opening, others, rfl, hopening, hothers⟩ := List.map_eq_cons_iff.mp hothers
  obtain ⟨indexTokens, last, rfl, hi, hlast⟩ := List.map_eq_append_iff.mp hothers
  obtain ⟨closing, nothing, rfl, hclosing, hnothing⟩ := List.map_eq_cons_iff.mp hlast
  obtain rfl := List.map_eq_nil_iff.mp hnothing
  simp only [List.length_append, List.length_cons, List.length_nil] at hfuel
  rw [List.append_assoc, List.cons_append, List.append_assoc, List.singleton_append]
  refine hobject.primary (enough + 2 * indexTokens.length + 2) ho hopens (fun op hop => ?_)
    (fun fuel hfuel => ?_) fuel (by omega)
  · rw [hopening, infixOp_subscript] at hop
    cases hop
    exact le_rfl
  · obtain ⟨fuel, rfl⟩ := Nat.exists_eq_add_of_le' (show 1 ≤ fuel by omega)
    have hstops : Stops 0 (closing :: rest) := by
      rw [stops_cons, hclosing, infixOp_closeIndex]
      simp
    rw [parseInfix_subscript hopening hopens, hindex.closed hi hstops (by omega)]
    change (do
      let rest ← expect endPos (units "]") (closing :: rest)
      parseInfix endPos fuel minBp (.index object index) rest) = _
    rw [expect_ok hclosing]
    exact hloop fuel (by omega)

/-! ## Calls -/

def ArgsParse (endPos : ℕ) (args : List Node) : Prop :=
  ∀ {before : List Node} {tokens rest : List Token} {closing : Token},
    tokens.map Token.lexeme = argsLexemes args → closing.lexeme = opLexeme (units ")") →
    args ≠ [] → ∀ fuel ≥ 2 * tokens.length + 2,
      parseArgs endPos fuel before (tokens ++ closing :: rest) =
        .ok (before ++ args, closing :: rest)

theorem argsParse_one {arg : Node} (h : Parses endPos arg) : ArgsParse endPos [arg] := by
  intro before tokens rest closing htokens hclosing _ fuel hfuel
  obtain ⟨fuel, rfl⟩ := Nat.exists_eq_add_of_le' (show 1 ≤ fuel by omega)
  have hstops : Stops 0 (closing :: rest) := by
    rw [stops_cons, hclosing, infixOp_close]
    simp
  rw [parseArgs, h.closed htokens hstops (by omega)]
  change (if closing.lexeme.isOp (units ",") then _ else _) = _
  rw [if_neg (by rw [hclosing]; decide)]
  rfl

theorem argsParse_cons {arg next : Node} {args : List Node} (h : Parses endPos arg)
    (hargs : ArgsParse endPos (next :: args)) : ArgsParse endPos (arg :: next :: args) := by
  intro before tokens rest closing htokens hclosing _ fuel hfuel
  obtain ⟨argTokens, others, rfl, harg, hothers⟩ := List.map_eq_append_iff.mp htokens
  obtain ⟨comma, others, rfl, hcomma, hothers⟩ := List.map_eq_cons_iff.mp hothers
  simp only [List.length_append, List.length_cons] at hfuel
  obtain ⟨fuel, rfl⟩ := Nat.exists_eq_add_of_le' (show 1 ≤ fuel by omega)
  have hstops : Stops 0 (comma :: (others ++ closing :: rest)) := by
    rw [stops_cons, hcomma, infixOp_comma]
    simp
  rw [parseArgs, List.append_assoc, List.cons_append, h.closed harg hstops (by omega)]
  change (if comma.lexeme.isOp (units ",") then _ else _) = _
  rw [if_pos (by rw [hcomma]; exact isOp_opLexeme _), hargs hothers hclosing (by simp) fuel (by omega),
    List.append_assoc, List.singleton_append]

theorem head_parenthesized (least level : ℕ) {ls : List Lexeme}
    (h : ∃ l others, ls = l :: others ∧ l.isOp (units ")") = false) :
    ∃ l others, parenthesized least level ls = l :: others ∧ l.isOp (units ")") = false := by
  unfold parenthesized
  split
  · exact ⟨_, _, rfl, by decide⟩
  · exact h

theorem head_lexemes : (n : Node) → ∃ l others, n.lexemes = l :: others ∧ l.isOp (units ")") = false
  | .num value => ⟨_, _, rfl, rfl⟩
  | .str value => ⟨_, _, rfl, rfl⟩
  | .name name => ⟨_, _, rfl, rfl⟩
  | .call callee args => ⟨_, _, rfl, rfl⟩
  | .unary op operand => ⟨_, _, rfl, by cases op <;> decide⟩
  | .attr object name => by
    obtain ⟨l, others, hl, hclose⟩ := head_parenthesized BP_POSTFIX object.level
      (head_lexemes object)
    exact ⟨l, _, by rw [Node.lexemes, hl, List.cons_append], hclose⟩
  | .index object index => by
    obtain ⟨l, others, hl, hclose⟩ := head_parenthesized BP_POSTFIX object.level
      (head_lexemes object)
    exact ⟨l, _, by rw [Node.lexemes, hl, List.cons_append], hclose⟩
  | .binary op left right => by
    obtain ⟨l, others, hl, hclose⟩ := head_parenthesized op.leftLevel left.level
      (head_lexemes left)
    exact ⟨l, _, by rw [Node.lexemes, hl, List.cons_append], hclose⟩

theorem head_argsLexemes (arg : Node) (args : List Node) :
    ∃ l others, argsLexemes (arg :: args) = l :: others ∧ l.isOp (units ")") = false := by
  obtain ⟨l, others, hl, hclose⟩ := head_lexemes arg
  cases args with
  | nil => exact ⟨l, others, hl, hclose⟩
  | cons next args => exact ⟨l, _, by rw [argsLexemes, hl, List.cons_append], hclose⟩

def parseArguments (endPos fuel : ℕ) (tokens : List Token) :
    Except Stop (List Node × List Token) :=
  if tokens.head?.any (·.lexeme.isOp (units ")")) then .ok ([], tokens)
  else parseArgs endPos fuel [] tokens

theorem parseInfix_call {opening : Token} {minBp : ℕ}
    (hopening : opening.lexeme = opLexeme (units "(")) (hbp : minBp < BP_POSTFIX) (fuel : ℕ)
    (callee : Text) (rest : List Token) :
    parseInfix endPos (fuel + 1) minBp (.name callee) (opening :: rest) = (do
      let (args, rest) ← parseArguments endPos fuel rest
      let rest ← expect endPos (units ")") rest
      parseInfix endPos fuel minBp (.call callee args) rest) := by
  have hread : infixOp opening.lexeme = some .call := by rw [hopening, infixOp_call]
  conv_lhs => unfold parseInfix
  dsimp only
  rw [hread]
  dsimp only
  rw [if_neg (show ¬ Infix.call.bp ≤ minBp from Nat.not_le.mpr hbp)]
  unfold parseArguments
  split <;> rfl

theorem parseArguments_closing {args : List Node} (h : ArgsParse endPos args) {tokens rest : List Token}
    {closing : Token} (htokens : tokens.map Token.lexeme = argsLexemes args)
    (hclosing : closing.lexeme = opLexeme (units ")")) {fuel : ℕ}
    (hfuel : 2 * tokens.length + 2 ≤ fuel) :
    parseArguments endPos fuel (tokens ++ closing :: rest) = .ok (args, closing :: rest) := by
  unfold parseArguments
  cases args with
  | nil =>
    obtain rfl := List.map_eq_nil_iff.mp htokens
    rw [List.nil_append, List.head?_cons, Option.any_some, hclosing, isOp_opLexeme, if_pos rfl]
  | cons arg args =>
    obtain ⟨l, others, hl, hclose⟩ := head_argsLexemes arg args
    obtain ⟨token, tokens, rfl, htoken, hothers⟩ := List.map_eq_cons_iff.mp (htokens.trans hl)
    rw [List.cons_append, List.head?_cons, Option.any_some, htoken, hclose, if_neg (by decide),
      ← List.cons_append, h htokens hclosing (by simp) fuel hfuel, List.nil_append]

theorem parses_call {callee : Text} {args : List Node} (hcallee : callee ∉ KEYWORDS)
    (hargs : ArgsParse endPos args) : Parses endPos (.call callee args) := by
  intro tokens rest minBp enough result htokens hopens _ hloop fuel hfuel
  obtain ⟨⟨lexeme, pos⟩, others, rfl, rfl, hothers⟩ := List.map_eq_cons_iff.mp htokens
  obtain ⟨opening, others, rfl, hopening, hothers⟩ := List.map_eq_cons_iff.mp hothers
  obtain ⟨argTokens, last, rfl, ha, hlast⟩ := List.map_eq_append_iff.mp hothers
  obtain ⟨closing, nothing, rfl, hclosing, hnothing⟩ := List.map_eq_cons_iff.mp hlast
  obtain rfl := List.map_eq_nil_iff.mp hnothing
  simp only [List.length_append, List.length_cons, List.length_nil] at hfuel
  obtain ⟨fuel, rfl⟩ := Nat.exists_eq_add_of_le' (show 2 ≤ fuel by omega)
  rw [parse, List.cons_append, parsePrefix_name hcallee]
  change parseInfix endPos (fuel + 1) minBp (.name callee)
    (opening :: ((argTokens ++ [closing]) ++ rest)) = _
  rw [parseInfix_call hopening hopens, List.append_assoc, List.singleton_append,
    parseArguments_closing hargs ha hclosing (by omega)]
  change (do
    let rest ← expect endPos (units ")") (closing :: rest)
    parseInfix endPos fuel minBp (.call callee args) rest) = _
  rw [expect_ok hclosing]
  exact hloop fuel (by omega)

/-! ## Every expression -/

mutual

theorem parses : (n : Node) → n.Printable → Parses endPos n
  | .num _, _ => parses_leaf rfl fun _ _ _ => rfl
  | .str _, _ => parses_leaf rfl fun _ _ _ => rfl
  | .name _, h => parses_name h.2
  | .attr object name, h => parses_attr name (parses object h.1)
  | .index object index, h => parses_index (parses object h.1) (parses index h.2)
  | .call _ args, h => parses_call h.1.2 (argsParse args h.2)
  | .unary op operand, h => parses_unary op (parses operand h)
  | .binary op left right, h => parses_binary op (parses left h.1) (parses right h.2)

theorem argsParse : (args : List Node) → ArgsPrintable args → ArgsParse endPos args
  | [], _ => fun _ _ hne => absurd rfl hne
  | [arg], h => argsParse_one (parses arg h.1)
  | arg :: next :: args, h => argsParse_cons (parses arg h.1) (argsParse (next :: args) h.2)

end

/-- However the tokens of a printed expression are spelled, the text is parsed as the expression. -/
theorem parseFormula_printed {n : Node} (h : n.Printable) {text : Text}
    (hspells : Spells n.lexemes text) : parseFormula text = some (.ok n) := by
  obtain ⟨tokens, htokens, hmap⟩ := tokenize_spells h hspells
  have hparse : parse text.length (enoughCalls tokens) 0 (tokens ++ []) = .ok (n, []) :=
    Parses.closed (parses n h) hmap (stops_nil 0) (by rw [enoughCalls]; omega)
  rw [List.append_nil] at hparse
  have hall : parseAll text.length tokens = .ok n := by
    rw [parseAll, hparse]
    rfl
  have hrun : (tokenize text >>= parseAll text.length) = .ok n := by
    rw [htokens]
    exact hall
  rw [parseFormula, hrun]

def negatedPower : Node :=
  .unary .neg (.binary .pow (.name (units "a")) (.unary .neg (.name (units "b"))))

theorem negatedPower_printed :
    spaced negatedPower.lexemes = units "- a ** - b " ∧
      parseFormula (units "- a ** - b ") = some (.ok negatedPower) := by
  have hspaced : spaced negatedPower.lexemes = units "- a ** - b " := by decide
  have hprintable : negatedPower.Printable := by
    simp only [negatedPower, Node.Printable]
    decide
  exact ⟨hspaced, parseFormula_printed hprintable (hspaced ▸ spells_spaced _)⟩

end ArduConfigurator.PlotCore
