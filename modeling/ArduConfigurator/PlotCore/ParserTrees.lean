import ArduConfigurator.Lib.JsArithmetic
import ArduConfigurator.PlotCore.Expression
import ArduConfigurator.PlotCore.Printer

/-! # The parser comes to its end, with a tree

Every call of the tokenizer takes a character and every call of the parser a token, so the calls
that are allowed for are enough for any text. The names in a parsed tree are identifiers and its
numbers are doubles. -/
namespace ArduConfigurator.PlotCore
open DecimalText
set_option autoImplicit false

/-! ## The parser comes to its end -/

section

/-! ## The parser -/

def Ends {α : Type} (left : ℕ) : Except Stop (α × List Token) → Prop
  | .ok (_, rest) => rest.length ≤ left
  | .error (.syntaxError _ _) => True
  | .error .running => False

variable {b : ℕ} {α : Type}

theorem Ends.mono {a : ℕ} {r : Except Stop (α × List Token)} (h : Ends a r) (hab : a ≤ b) :
    Ends b r := by
  cases r with
  | ok result => exact Nat.le_trans h hab
  | error stop => cases stop <;> exact h

variable {β : Type}

theorem Ends.bind {a : ℕ} {r : Except Stop (α × List Token)}
    {f : α × List Token → Except Stop (β × List Token)} (h : Ends a r)
    (hf : ∀ value rest, rest.length ≤ a → Ends b (f (value, rest))) : Ends b (r >>= f) := by
  cases r with
  | ok result => exact hf result.1 result.2 h
  | error stop => cases stop <;> exact h

variable {endPos : ℕ} {text : Text}

theorem ends_expect {tokens : List Token} {f : List Token → Except Stop (β × List Token)}
    (hf : ∀ rest, rest.length + 1 ≤ tokens.length → Ends b (f rest)) :
    Ends b (expect endPos text tokens >>= f) := by
  cases tokens with
  | nil => exact trivial
  | cons token rest =>
    rw [expect]
    split
    · exact hf rest le_rfl
    · exact trivial

structure PartsEnd (endPos fuel : ℕ) : Prop where
  parse : ∀ minBp tokens, 2 * tokens.length + 1 ≤ fuel →
    Ends (tokens.length - 1) (parse endPos fuel minBp tokens)
  parsePrefix : ∀ tokens, 2 * tokens.length ≤ fuel →
    Ends (tokens.length - 1) (parsePrefix endPos fuel tokens)
  parseInfix : ∀ minBp left tokens, 2 * tokens.length + 1 ≤ fuel →
    Ends tokens.length (parseInfix endPos fuel minBp left tokens)
  parseArgs : ∀ args tokens, 2 * tokens.length + 2 ≤ fuel →
    Ends (tokens.length - 1) (parseArgs endPos fuel args tokens)

variable {fuel : ℕ}

theorem ends_parsePrefix (h : PartsEnd endPos fuel) (tokens : List Token)
    (hfuel : 2 * tokens.length ≤ fuel + 1) :
    Ends (tokens.length - 1) (parsePrefix endPos (fuel + 1) tokens) := by
  cases tokens with
  | nil => exact trivial
  | cons token rest =>
    rw [List.length_cons] at hfuel ⊢
    have hparse (minBp : ℕ) := h.parse minBp rest (by omega)
    unfold parsePrefix
    dsimp only
    split
    · exact le_rfl
    · exact le_rfl
    · split
      · exact (hparse _).bind fun operand rest' hrest => Nat.le_trans hrest (by omega)
      · split
        · exact trivial
        · exact le_rfl
    · split
      · refine (hparse 0).bind fun inner rest' hrest => ends_expect fun after hafter => ?_
        dsimp only at hafter
        show after.length ≤ _
        omega
      · split
        · exact (hparse _).bind fun operand rest' hrest => Nat.le_trans hrest (by omega)
        · exact trivial

theorem ends_parseInfix (h : PartsEnd endPos fuel) (minBp : ℕ) (left : Node) (tokens : List Token)
    (hfuel : 2 * tokens.length + 1 ≤ fuel + 1) :
    Ends tokens.length (parseInfix endPos (fuel + 1) minBp left tokens) := by
  cases tokens with
  | nil => exact le_rfl
  | cons token rest =>
    rw [List.length_cons] at hfuel ⊢
    have hparse (minBp : ℕ) := h.parse minBp rest (by omega)
    have hloop (left : Node) (after : List Token) (hafter : after.length ≤ rest.length - 1) :
        Ends (rest.length + 1) (parseInfix endPos fuel minBp left after) :=
      (h.parseInfix minBp left after (by omega)).mono (by omega)
    unfold parseInfix
    dsimp only
    split
    · exact le_rfl
    · split
      · exact le_rfl
      · split
        · split
          · next name pos after => exact hloop _ after (by rw [List.length_cons]; omega)
          · exact trivial
        · refine (hparse 0).bind fun index rest' hrest => ends_expect fun after hafter => ?_
          dsimp only at hafter
          exact hloop _ after (by omega)
        · split
          · split
            · refine ends_expect fun after hafter => ?_
              dsimp only at hafter
              exact hloop _ after (by omega)
            · refine (h.parseArgs [] rest (by omega)).bind fun args rest' hrest =>
                ends_expect fun after hafter => ?_
              dsimp only at hafter
              exact hloop _ after (by omega)
          · exact trivial
        · exact (hparse _).bind fun right rest' hrest => hloop _ rest' hrest

theorem ends_parseArgs (h : PartsEnd endPos fuel) (args : List Node) (tokens : List Token)
    (hfuel : 2 * tokens.length + 2 ≤ fuel + 1) :
    Ends (tokens.length - 1) (parseArgs endPos (fuel + 1) args tokens) := by
  unfold parseArgs
  refine (h.parse 0 tokens (by omega)).bind fun arg rest hrest => ?_
  cases rest with
  | nil => exact Nat.zero_le _
  | cons token rest =>
    rw [List.length_cons] at hrest
    dsimp only
    split
    · exact (h.parseArgs _ rest (by omega)).mono (by omega)
    · exact hrest

theorem parts_end (endPos fuel : ℕ) : PartsEnd endPos fuel := by
  induction fuel with
  | zero =>
    refine ⟨fun _ _ h => absurd h (by omega), fun tokens hfuel => ?_,
      fun _ _ _ h => absurd h (by omega), fun _ _ h => absurd h (by omega)⟩
    obtain rfl := List.length_eq_zero_iff.mp (show tokens.length = 0 by omega)
    exact trivial
  | succ fuel ih =>
    refine ⟨fun minBp tokens hfuel => ?_, fun tokens => ends_parsePrefix ih tokens,
      fun minBp left tokens => ends_parseInfix ih minBp left tokens,
      fun args tokens => ends_parseArgs ih args tokens⟩
    cases tokens with
    | nil => cases fuel <;> exact trivial
    | cons token tokens =>
      rw [List.length_cons] at hfuel
      unfold parse
      refine (ih.parsePrefix (token :: tokens) (by rw [List.length_cons]; omega)).bind
        fun left rest hrest => ?_
      rw [List.length_cons] at hrest
      exact (ih.parseInfix minBp left rest (by omega)).mono hrest

theorem parseAll_ends (endPos : ℕ) (tokens : List Token) :
    parseAll endPos tokens ≠ .error .running := by
  have hends := (parts_end endPos (enoughCalls tokens)).parse 0 tokens le_rfl
  unfold parseAll
  cases hparse : parse endPos (enoughCalls tokens) 0 tokens with
  | error stop =>
    rw [hparse] at hends
    cases stop with
    | syntaxError message position => exact fun h => by cases h
    | running => exact absurd hends id
  | ok result =>
    obtain ⟨node, rest⟩ := result
    cases rest <;> exact fun h => by cases h

/-! ## The tokenizer -/

variable {c : UInt16} {rest : Text}

theorem decimalPart_ne_nil (h : isDigit c = true ∨ c = POINT) :
    decimalPart (c :: rest) ≠ [] := by
  unfold decimalPart
  by_cases hdigit : isDigit c = true
  · rw [List.takeWhile_cons_of_pos hdigit]
    exact fun h => by simp at h
  · rw [List.takeWhile_cons_of_neg hdigit, h.resolve_left hdigit]
    exact fun h => by simp [fractionPart] at h

theorem stringBody_length {quote : UInt16} {result : Text × Text}
    (h : stringBody quote text = some result) : result.2.length < text.length := by
  induction text using stringBody.induct quote generalizing result with
  | case1 => cases h
  | case2 =>
    obtain rfl : ([], []) = result := by simpa [stringBody] using h
    simp
  | case3 c hc => simp [stringBody, hc] at h
  | case4 d rest =>
    obtain rfl : ([], d :: rest) = result := by simpa [stringBody] using h
    simp
  | case5 d rest hquote ih =>
    obtain ⟨inner, hinner, rfl⟩ : ∃ inner, stringBody quote rest = some inner ∧
        (d :: inner.1, inner.2) = result := by
      simpa [stringBody, hquote] using h
    have hlength := ih hinner
    simp only [List.length_cons]
    omega
  | case6 c d rest hquote hescape ih =>
    obtain ⟨inner, hinner, rfl⟩ : ∃ inner, stringBody quote (d :: rest) = some inner ∧
        (c :: inner.1, inner.2) = result := by
      simpa [stringBody, hquote, hescape] using h
    have hlength := ih hinner
    simp only [List.length_cons] at hlength ⊢
    omega

variable {afterOperand : Bool} {pos : ℕ}

theorem lexemeAt_ne_nil {l : Lexeme} (h : lexemeAt afterOperand pos c rest = .ok l) :
    l.text ≠ [] := by
  unfold lexemeAt at h
  split at h
  · next hnumber =>
    split at h
    · cases h
      exact fun h => by simp at h
    · cases h
      exact decimalPart_ne_nil (hnumber.imp id And.left)
  · split at h
    · cases h
      exact List.cons_ne_nil _ _
    · split at h
      · split at h
        · cases h
        · next value after hbody =>
          cases h
          have hlength := stringBody_length hbody
          dsimp only at hlength ⊢
          intro hnil
          have htake := congrArg List.length hnil
          rw [List.length_take, List.length_cons, List.length_nil] at htake
          omega
      · split at h
        · cases h
          exact fun h => by simp [opLexeme] at h
        · split at h
          · cases h
            exact List.cons_ne_nil _ _
          · cases h

theorem lexemeAt_ends :
    lexemeAt afterOperand pos c rest ≠ .error .running := by
  unfold lexemeAt
  repeat' split
  all_goals exact fun h => by cases h

theorem tokenizeFrom_ends (hfuel : text.length ≤ fuel) (afterOperand : Bool) (pos : ℕ) :
    tokenizeFrom fuel afterOperand pos text ≠ .error .running := by
  induction fuel generalizing text afterOperand pos with
  | zero =>
    obtain rfl := List.length_eq_zero_iff.mp (Nat.le_zero.mp hfuel)
    rw [tokenizeFrom]
    exact fun h => by cases h
  | succ fuel ih =>
    cases text with
    | nil =>
      rw [tokenizeFrom]
      exact fun h => by cases h
    | cons c rest =>
      rw [List.length_cons] at hfuel
      rw [tokenizeFrom]
      split
      · exact ih (by omega) afterOperand (pos + 1)
      · cases hlexeme : lexemeAt afterOperand pos c rest with
        | error stop =>
          intro hrunning
          cases hrunning
          exact lexemeAt_ends hlexeme
        | ok lexeme =>
          have hpos := List.length_pos_iff.mpr (lexemeAt_ne_nil hlexeme)
          have hshorter : ((c :: rest).drop lexeme.text.length).length ≤ fuel := by
            rw [List.length_drop, List.length_cons]
            omega
          have hrest := ih hshorter lexeme.isOperand (pos + lexeme.text.length)
          intro hrunning
          cases htokens : tokenizeFrom fuel lexeme.isOperand (pos + lexeme.text.length)
              ((c :: rest).drop lexeme.text.length) with
          | ok tokens => simp [htokens, bind, Except.bind, pure, Except.pure] at hrunning
          | error stop =>
            cases stop with
            | syntaxError => simp [htokens, bind, Except.bind] at hrunning
            | running => exact hrest htokens

theorem parseFormula_isSome (text : Text) : (parseFormula text).isSome = true := by
  unfold parseFormula
  have hends : tokenize text >>= parseAll text.length ≠ .error .running := by
    cases htokens : tokenize text with
    | ok tokens => exact parseAll_ends text.length tokens
    | error stop =>
      intro hrunning
      cases hrunning
      exact tokenizeFrom_ends le_rfl false 0 htokens
  split
  · rfl
  · rfl
  · next hrunning => exact absurd hrunning hends

end

/-! ## The trees -/

mutual

/-- The names that may name messages are identifiers, and the numbers are doubles. -/
def Node.Named : Node → Prop
  | .num value => value.IsDouble
  | .str _ => True
  | .name name => isIdentifier name = true
  | .attr object _ => object.Named
  | .index object index => object.Named ∧ index.Named
  | .call _ args => ArgsNamed args
  | .unary _ operand => operand.Named
  | .binary _ left right => left.Named ∧ right.Named

def ArgsNamed : List Node → Prop
  | [] => True
  | arg :: args => arg.Named ∧ ArgsNamed args

end

theorem argsNamed_append {as bs : List Node} :
    ArgsNamed (as ++ bs) ↔ ArgsNamed as ∧ ArgsNamed bs := by
  induction as with
  | nil => simp [ArgsNamed]
  | cons a as ih => simp [ArgsNamed, ih, and_assoc]

/-! ## Tokens -/

def Lexeme.Named (l : Lexeme) : Prop :=
  match l.kind with
  | .num value => value.IsDouble
  | .name => isIdentifier l.text = true
  | _ => True

def TokensNamed (tokens : List Token) : Prop := ∀ token ∈ tokens, token.lexeme.Named

theorem isDouble_readRadix (radix : ℕ) (digits : Text) : (readRadix radix digits).IsDouble := by
  unfold readRadix
  split
  · exact trivial
  · split
    · exact JsNumber.isDouble_nearestDouble _ _
    · exact trivial

theorem isDouble_readSigned (negative : Bool) (t : Text) : (readSigned negative t).IsDouble := by
  unfold readSigned
  split
  · exact trivial
  · split
    · exact JsNumber.isDouble_nearestDouble _ _
    · exact trivial

theorem isDouble_readLiteral (t : Text) : (readLiteral t).IsDouble := by
  have hzero : binary64.Holds (.finite false 0) := by
    have h := FloatFormat.holds_magnitude (f := binary64) (m := 0) (by decide) false
    simpa [FloatFormat.magnitude] using h
  unfold readLiteral
  split
  · exact hzero
  · repeat' split
    all_goals first | exact isDouble_readSigned _ _ | exact isDouble_readRadix _ _

variable {afterOperand : Bool} {pos : ℕ}

theorem lexemeAt_named {c : UInt16} {rest : Text} {l : Lexeme}
    (h : lexemeAt afterOperand pos c rest = .ok l) : l.Named := by
  unfold lexemeAt at h
  split at h
  · split at h
    · cases h
      exact isDouble_readRadix _ _
    · cases h
      exact isDouble_readLiteral _
  · split at h
    · next hstart =>
      cases h
      show isIdentifier (c :: rest.takeWhile isIdentPart) = true
      rw [isIdentifier, Bool.and_eq_true, List.all_eq_true]
      exact ⟨hstart, fun d hd => List.mem_takeWhile_imp hd⟩
    · split at h
      · split at h
        · cases h
        · cases h
          exact trivial
      · split at h
        · cases h
          exact trivial
        · split at h
          · cases h
            exact trivial
          · cases h

variable {fuel : ℕ} {text : Text} {tokens : List Token}

theorem tokenizeFrom_named (h : tokenizeFrom fuel afterOperand pos text = .ok tokens) :
    TokensNamed tokens := by
  induction fuel generalizing afterOperand pos text tokens with
  | zero =>
    cases text with
    | nil =>
      cases h
      exact fun token htoken => absurd htoken List.not_mem_nil
    | cons c rest => cases h
  | succ fuel ih =>
    cases text with
    | nil =>
      cases h
      exact fun token htoken => absurd htoken List.not_mem_nil
    | cons c rest =>
      rw [tokenizeFrom] at h
      split at h
      · exact ih h
      · cases hlexeme : lexemeAt afterOperand pos c rest with
        | error stop => simp [hlexeme, bind, Except.bind] at h
        | ok lexeme =>
          cases htokens : tokenizeFrom fuel lexeme.isOperand (pos + lexeme.text.length)
              ((c :: rest).drop lexeme.text.length) with
          | error stop => simp [hlexeme, htokens, bind, Except.bind] at h
          | ok after =>
            simp only [hlexeme, htokens, bind, Except.bind, pure, Except.pure,
              Except.ok.injEq] at h
            subst h
            exact List.forall_mem_cons.mpr ⟨lexemeAt_named hlexeme, ih htokens⟩

/-! ## The parser -/

/-- A result that has the property, with named tokens left, or an error. -/
def Yields {α : Type} (P : α → Prop) : Except Stop (α × List Token) → Prop
  | .ok (value, rest) => P value ∧ TokensNamed rest
  | .error _ => True

variable {β : Type}

theorem Yields.bind {α : Type} {P : α → Prop} {Q : β → Prop} {r : Except Stop (α × List Token)}
    {f : α × List Token → Except Stop (β × List Token)} (h : Yields P r)
    (hf : ∀ value rest, P value → TokensNamed rest → Yields Q (f (value, rest))) :
    Yields Q (r >>= f) := by
  cases r with
  | ok result => exact hf result.1 result.2 h.1 h.2
  | error stop => exact trivial

variable {endPos : ℕ}

theorem yields_expect {Q : β → Prop} {f : List Token → Except Stop (β × List Token)}
    (htokens : TokensNamed tokens) (hf : ∀ rest, TokensNamed rest → Yields Q (f rest)) :
    Yields Q (expect endPos text tokens >>= f) := by
  cases tokens with
  | nil => exact trivial
  | cons token rest =>
    rw [expect]
    split
    · exact hf rest (List.forall_mem_cons.mp htokens).2
    · exact trivial

structure PartsNamed (endPos fuel : ℕ) : Prop where
  parse : ∀ minBp tokens, TokensNamed tokens → Yields Node.Named (parse endPos fuel minBp tokens)
  parsePrefix : ∀ tokens, TokensNamed tokens → Yields Node.Named (parsePrefix endPos fuel tokens)
  parseInfix : ∀ minBp left tokens, left.Named → TokensNamed tokens →
    Yields Node.Named (parseInfix endPos fuel minBp left tokens)
  parseArgs : ∀ args tokens, ArgsNamed args → TokensNamed tokens →
    Yields ArgsNamed (parseArgs endPos fuel args tokens)

theorem yields_parsePrefix (h : PartsNamed endPos fuel) (tokens : List Token)
    (htokens : TokensNamed tokens) :
    Yields Node.Named (parsePrefix endPos (fuel + 1) tokens) := by
  cases tokens with
  | nil => exact trivial
  | cons token rest =>
    obtain ⟨htoken, hrest⟩ := List.forall_mem_cons.mp htokens
    have hparse (minBp : ℕ) := h.parse minBp rest hrest
    unfold Lexeme.Named at htoken
    unfold parsePrefix
    dsimp only
    split
    · next value hkind =>
      rw [hkind] at htoken
      exact ⟨htoken, hrest⟩
    · exact ⟨trivial, hrest⟩
    · next hkind =>
      rw [hkind] at htoken
      split
      · exact (hparse _).bind fun operand rest' hoperand hrest' => ⟨hoperand, hrest'⟩
      · split
        · exact trivial
        · exact ⟨htoken, hrest⟩
    · split
      · exact (hparse 0).bind fun inner rest' hinner hrest' =>
          yields_expect hrest' fun after hafter => ⟨hinner, hafter⟩
      · split
        · exact (hparse _).bind fun operand rest' hoperand hrest' => ⟨hoperand, hrest'⟩
        · exact trivial

theorem yields_parseInfix (h : PartsNamed endPos fuel) (minBp : ℕ) (left : Node)
    (tokens : List Token) (hleft : left.Named) (htokens : TokensNamed tokens) :
    Yields Node.Named (parseInfix endPos (fuel + 1) minBp left tokens) := by
  cases tokens with
  | nil => exact ⟨hleft, htokens⟩
  | cons token rest =>
    obtain ⟨htoken, hrest⟩ := List.forall_mem_cons.mp htokens
    have hparse (minBp : ℕ) := h.parse minBp rest hrest
    unfold parseInfix
    dsimp only
    split
    · exact ⟨hleft, htokens⟩
    · split
      · exact ⟨hleft, htokens⟩
      · split
        · split
          · next name pos after =>
            exact h.parseInfix minBp _ after hleft (List.forall_mem_cons.mp hrest).2
          · exact trivial
        · exact (hparse 0).bind fun index rest' hindex hrest' =>
            yields_expect hrest' fun after hafter =>
              h.parseInfix minBp _ after ⟨hleft, hindex⟩ hafter
        · split
          · split
            · exact yields_expect hrest fun after hafter =>
                h.parseInfix minBp _ after trivial hafter
            · exact (h.parseArgs [] rest trivial hrest).bind fun args rest' hargs hrest' =>
                yields_expect hrest' fun after hafter =>
                  h.parseInfix minBp _ after hargs hafter
          · exact trivial
        · exact (hparse _).bind fun right rest' hright hrest' =>
            h.parseInfix minBp _ rest' ⟨hleft, hright⟩ hrest'

theorem yields_parseArgs (h : PartsNamed endPos fuel) (args : List Node) (tokens : List Token)
    (hargs : ArgsNamed args) (htokens : TokensNamed tokens) :
    Yields ArgsNamed (parseArgs endPos (fuel + 1) args tokens) := by
  unfold parseArgs
  refine (h.parse 0 tokens htokens).bind fun arg rest harg hrest => ?_
  have hall : ArgsNamed (args ++ [arg]) := argsNamed_append.mpr ⟨hargs, harg, trivial⟩
  cases rest with
  | nil => exact ⟨hall, hrest⟩
  | cons token rest =>
    dsimp only
    split
    · exact h.parseArgs _ rest hall (List.forall_mem_cons.mp hrest).2
    · exact ⟨hall, hrest⟩

theorem parts_named (endPos fuel : ℕ) : PartsNamed endPos fuel := by
  induction fuel with
  | zero =>
    refine ⟨fun _ _ _ => trivial, fun tokens _ => ?_, fun _ _ _ _ _ => trivial,
      fun _ _ _ _ => trivial⟩
    cases tokens <;> exact trivial
  | succ fuel ih =>
    refine ⟨fun minBp tokens htokens => ?_, fun tokens => yields_parsePrefix ih tokens,
      fun minBp left tokens => yields_parseInfix ih minBp left tokens,
      fun args tokens => yields_parseArgs ih args tokens⟩
    unfold parse
    exact (ih.parsePrefix tokens htokens).bind fun left rest hleft hrest =>
      ih.parseInfix minBp left rest hleft hrest

theorem parseFormula_named {ast : Node} (h : parseFormula text = some (.ok ast)) : ast.Named := by
  unfold parseFormula at h
  split at h
  · next parsed hparsed =>
    cases h
    cases htokens : tokenize text with
    | error stop => simp [htokens, bind, Except.bind] at hparsed
    | ok tokens =>
      have hnamed := (parts_named text.length (enoughCalls tokens)).parse 0 tokens
        (tokenizeFrom_named htokens)
      simp only [htokens, bind, Except.bind, parseAll] at hparsed
      cases hparse : parse text.length (enoughCalls tokens) 0 tokens with
      | error stop => simp [hparse] at hparsed
      | ok result =>
        obtain ⟨node, rest⟩ := result
        rw [hparse] at hnamed hparsed
        cases rest with
        | nil =>
          cases hparsed
          exact hnamed.1
        | cons token rest => cases hparsed
  · cases h
  · cases h

end ArduConfigurator.PlotCore
