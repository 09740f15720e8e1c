import ArduConfigurator.PlotCore.FieldTerms
import ArduConfigurator.PlotCore.Evaluation

/-! # Chains of comparisons

The language is Python's, where a chain of comparisons holds if each of them holds between its
neighbours. The parser groups a chain to the left, so all but the first comparison have the truth of
what precedes them as their left side. -/
namespace ArduConfigurator.PlotCore
open JsNumber (ofInt)
set_option autoImplicit false

inductive Comparison
  | eq | ne | lt | le | gt | ge

namespace Comparison

def op : Comparison → BinaryOp
  | eq => .eq
  | ne => .ne
  | lt => .lt
  | le => .le
  | gt => .gt
  | ge => .ge

def holds : Comparison → JsNumber → JsNumber → Bool
  | eq, a, b => a.equal b
  | ne, a, b => !a.equal b
  | lt, a, b => a.lt b
  | le, a, b => a.le b
  | gt, a, b => b.lt a
  | ge, a, b => b.le a

theorem op_ne_pow (c : Comparison) : c.op ≠ .pow := by
  cases c <;> decide

theorem op_bp (c : Comparison) : c.op.bp = BP_COMPARE := by
  cases c <;> rfl

theorem op_rightLevel (c : Comparison) : c.op.rightLevel = BP_COMPARE + 1 := by
  rw [BinaryOp.rightLevel, if_neg c.op_ne_pow, op_bp]

theorem binaryNumbers_op (engine : Engine) (c : Comparison) (a b : JsNumber) :
    binaryNumbers engine c.op a b = .ok (.ofBool (c.holds a b)) := by
  cases c <;> rfl

end Comparison

/-! ## The text of a chain -/

def operandLexemes (n : Node) : List Lexeme := parenthesized (BP_COMPARE + 1) n.level n.lexemes

def linkLexemes (links : List (Comparison × Node)) : List Lexeme :=
  links.flatMap fun link => link.1.op.lexeme :: operandLexemes link.2

/-- `first op₁ e₁ op₂ e₂ …`. -/
def chainLexemes (first : Node) (links : List (Comparison × Node)) : List Lexeme :=
  operandLexemes first ++ linkLexemes links

def ChainPrintable (first : Node) (links : List (Comparison × Node)) : Prop :=
  first.Printable ∧ ∀ link ∈ links, link.2.Printable

def chainNode (first : Node) (links : List (Comparison × Node)) : Node :=
  links.foldl (fun left link => .binary link.1.op left link.2) first

variable {links : List (Comparison × Node)}

theorem reads_linkLexemes (h : ∀ link ∈ links, link.2.Printable) :
    ∀ l ∈ linkLexemes links, Reads l := by
  intro l hl
  obtain ⟨link, hlink, hl⟩ := List.mem_flatMap.mp hl
  obtain rfl | hl := List.mem_cons.mp hl
  · exact reads_binaryOp _
  · exact reads_parenthesized (reads_lexemes link.2 (h link hlink)) l hl

variable {first : Node}

theorem reads_chainLexemes (h : ChainPrintable first links) :
    ∀ l ∈ chainLexemes first links, Reads l :=
  List.forall_mem_append.mpr
    ⟨reads_parenthesized (reads_lexemes first h.1), reads_linkLexemes h.2⟩

/-! ## The parser groups to the left -/

section Parsing
variable {endPos : ℕ} {tokens : List Token}

theorem stops_links (h : tokens.map Token.lexeme = linkLexemes links) :
    Stops BP_COMPARE tokens := by
  cases links with
  | nil =>
    obtain rfl := List.map_eq_nil_iff.mp h
    exact stops_nil _
  | cons link links =>
    obtain ⟨token, others, rfl, htoken, _⟩ := List.map_eq_cons_iff.mp h
    rw [stops_cons, htoken, infixOp_binary]
    rintro op ⟨⟩
    exact link.1.op_bp.le

variable {fuel : ℕ}

theorem parseInfix_links (h : ∀ link ∈ links, link.2.Printable)
    (htokens : tokens.map Token.lexeme = linkLexemes links) (left : Node)
    (hfuel : 1 + 2 * tokens.length ≤ fuel) :
    parseInfix endPos fuel 0 left tokens = .ok (chainNode left links, []) := by
  induction links generalizing tokens left fuel with
  | nil =>
    obtain rfl := List.map_eq_nil_iff.mp htokens
    exact parseInfix_stops (stops_nil 0) left (by omega)
  | cons link links ih =>
    obtain ⟨hlink, hlinks⟩ := List.forall_mem_cons.mp h
    obtain ⟨token, others, rfl, htoken, hothers⟩ := List.map_eq_cons_iff.mp htokens
    obtain ⟨operand, rest, rfl, hoperand, hrest⟩ := List.map_eq_append_iff.mp hothers
    rw [List.length_cons, List.length_append] at hfuel
    obtain ⟨fuel, rfl⟩ := Nat.exists_eq_add_of_le' (show 1 ≤ fuel by omega)
    have hright : parse endPos fuel BP_COMPARE (operand ++ rest) = .ok (link.2, rest) := by
      have hparses : Parses endPos link.2 := parses link.2 hlink
      refine hparses.right hoperand (fun hlevel => ?_) (stops_links hrest) (by omega)
      have hfits := @right_fits link.1.op _ (link.1.op_rightLevel ▸ hlevel)
      rw [if_neg link.1.op_ne_pow, if_neg link.1.op_ne_pow, link.1.op_bp] at hfits
      exact hfits
    rw [parseInfix_binary link.1.op htoken (bp_pos _), if_neg link.1.op_ne_pow, link.1.op_bp,
      hright]
    exact ih hlinks hrest _ (by omega)

theorem parse_chain {first : Node} (h : ChainPrintable first links)
    (htokens : tokens.map Token.lexeme = chainLexemes first links)
    (hfuel : 1 + 2 * tokens.length ≤ fuel) :
    parse endPos fuel 0 tokens = .ok (chainNode first links, []) := by
  obtain ⟨operand, rest, rfl, hoperand, hrest⟩ := List.map_eq_append_iff.mp htokens
  rw [List.length_append] at hfuel
  have hparses : Parses endPos first := parses first h.1
  refine hparses.operand (1 + 2 * rest.length) hoperand (fun hlevel => ?_)
    (fun fuel hloop => parseInfix_links h.2 hrest first hloop) fuel (by omega)
  exact ⟨opens_zero first, (stops_links hrest).mono
    (level_le_stop (Nat.le_of_succ_le hlevel) (by decide))⟩

end Parsing

theorem parseFormula_chain (h : ChainPrintable first links) {text : Text}
    (hspells : Spells (chainLexemes first links) text) :
    parseFormula text = some (.ok (chainNode first links)) := by
  obtain ⟨tokens, htokens, hmap⟩ :=
    tokenizeFrom_spells hspells (reads_chainLexemes h) le_rfl false 0
  have hall : parseAll text.length tokens = .ok (chainNode first links) := by
    rw [parseAll, parse_chain h hmap (by rw [enoughCalls]; omega)]
    rfl
  have hrun : (tokenize text >>= parseAll text.length) = .ok (chainNode first links) := by
    rw [tokenize, htokens]
    exact hall
  rw [parseFormula, hrun]

/-! ## What a chain says -/

def AllHold : JsNumber → List (Comparison × JsNumber) → Prop
  | _, [] => True
  | left, link :: links => link.1.holds left link.2 = true ∧ AllHold link.2 links

def chainValue (first : JsNumber) (links : List (Comparison × JsNumber)) : JsNumber :=
  links.foldl (fun left link => if link.1.holds left link.2 then 1 else 0) first

theorem allHold_last {first middle last : JsNumber} {c d : Comparison}
    {links : List (Comparison × JsNumber)}
    (h : AllHold first (links ++ [(c, middle), (d, last)])) : d.holds middle last = true := by
  induction links generalizing first with
  | nil => exact h.2.1
  | cons link links ih => exact ih h.2

theorem chainValue_append (first last : JsNumber) (c : Comparison)
    (links : List (Comparison × JsNumber)) :
    chainValue first (links ++ [(c, last)]) =
      if c.holds (chainValue first links) last then 1 else 0 := by
  rw [chainValue, List.foldl_append]
  rfl

theorem truthy_ite (b : Bool) : (Value.num (if b then 1 else 0)).truthy = b := by
  have hone : (1 : JsNumber) = .finite false (1 : ℕ) := JsNumber.ofInt_natCast (by norm_num)
  have hzero : (0 : JsNumber) = .finite false (0 : ℕ) := JsNumber.ofInt_natCast (by norm_num)
  cases b <;>
    simp [Value.truthy, hone, hzero, JsNumber.equal, JsNumber.le, JsNumber.signed]

/-! ## Evaluation -/

section Evaluation
variable (engine : Engine) (tables : MagFieldTables) (env : EvalEnv)

/-- The operands are evaluated in their order and have these numbers as their values. -/
inductive Evaluates : List (Comparison × Node) → FilterState → List (Comparison × JsNumber) →
    FilterState → Prop
  | nil (state : FilterState) : Evaluates [] state [] state
  | cons {c : Comparison} {operand : Node} {x : JsNumber} {links : List (Comparison × Node)}
      {values : List (Comparison × JsNumber)} {state next last : FilterState}
      (hoperand : (evaluate engine tables operand env).run state = (.num x, next))
      (hlinks : Evaluates links next values last) :
      Evaluates ((c, operand) :: links) state ((c, x) :: values) last

variable {engine tables env} {state next : FilterState} {x : JsNumber}

theorem evaluate_eq_num {n : Node} :
    (evaluate engine tables n env).run state = (.num x, next) ↔
      (compileNode engine tables n env).run.run state = (.ok (.num x), next) := by
  unfold evaluate
  rw [StateT.run_bind]
  cases hrun : (compileNode engine tables n env).run.run state with
  | mk result after =>
    cases result with
    | ok value =>
      change (value, after) = (Value.num x, next) ↔
        ((.ok value : Except Unit Value), after) = (.ok (Value.num x), next)
      constructor <;> (rintro ⟨⟩; rfl)
    | error error =>
      change (Value.undefined, after) = (Value.num x, next) ↔
        (Except.error error, after) = (.ok (Value.num x), next)
      constructor <;> rintro ⟨⟩

def ofResult : Except Unit Value → Call Value
  | .ok value => pure value
  | .error error => throw error

variable {last : FilterState}

theorem evaluate_comparison (c : Comparison) {left right : Node} {a b : JsNumber}
    (hleft : (evaluate engine tables left env).run state = (.num a, next))
    (hright : (evaluate engine tables right env).run next = (.num b, last)) :
    (evaluate engine tables (.binary c.op left right) env).run state =
      (.num (if c.holds a b then 1 else 0), last) := by
  rw [evaluate_eq_num] at hleft hright ⊢
  have hcompile : compileNode engine tables (.binary c.op left right) env =
      compileNode engine tables left env >>= fun a =>
        compileNode engine tables right env >>= fun b => ofResult (binary engine c.op a b) := by
    cases c <;> rfl
  have hbinary : binary engine c.op (.num a) (.num b) = .ok (.ofBool (c.holds a b)) :=
    c.binaryNumbers_op engine a b
  rw [hcompile, ExceptT.run_bind, StateT.run_bind, hleft]
  change (compileNode engine tables right env >>= fun b =>
    ofResult (binary engine c.op (.num a) b)).run.run next = _
  rw [ExceptT.run_bind, StateT.run_bind, hright]
  change (ofResult (binary engine c.op (.num a) (.num b))).run.run last = _
  rw [hbinary]
  rfl

theorem evaluate_chain {first : Node} {values : List (Comparison × JsNumber)}
    (hfirst : (evaluate engine tables first env).run state = (.num x, next))
    (hlinks : Evaluates engine tables env links next values last) :
    (evaluate engine tables (chainNode first links) env).run state =
      (.num (chainValue x values), last) := by
  induction hlinks generalizing first x state with
  | nil next => exact hfirst
  | cons hoperand _ ih => exact ih (evaluate_comparison _ hfirst hoperand)

end Evaluation

/-! ## Chains that mean what they say -/

section Meaning
variable (engine : Engine) (tables : MagFieldTables)

/-- However a chain with these comparisons is written and whatever numbers its operands are, it is
true exactly where all its comparisons hold, or it is no expression. -/
def MeansAllHold (ops : List Comparison) : Prop :=
  ∀ (first : Node) (links : List (Comparison × Node)) (text : Text), links.map Prod.fst = ops →
    ChainPrintable first links → Spells (chainLexemes first links) text →
    (∃ error, parseFormula text = some (.error error)) ∨
      ∃ ast, parseFormula text = some (.ok ast) ∧
        ∀ (env : EvalEnv) (state next last : FilterState) (x : JsNumber)
          (values : List (Comparison × JsNumber)),
          (evaluate engine tables first env).run state = (.num x, next) →
          Evaluates engine tables env links next values last →
          (((evaluate engine tables ast env).run state).1.truthy = true ↔ AllHold x values)

theorem means_of_single (op : Comparison) : MeansAllHold engine tables [op] := by
  intro first links text hops hprintable hspells
  obtain ⟨⟨c, operand⟩, nothing, rfl, rfl, hnothing⟩ := List.map_eq_cons_iff.mp hops
  obtain rfl := List.map_eq_nil_iff.mp hnothing
  refine .inr ⟨_, parseFormula_chain hprintable hspells, ?_⟩
  intro env state next last x values hfirst hlinks
  rw [evaluate_chain hfirst hlinks]
  cases hlinks with
  | cons hoperand hrest =>
    cases hrest
    rw [chainValue, List.foldl_cons, List.foldl_nil, truthy_ite, AllHold, AllHold, and_true]

/-! ## Numbers that tell a longer chain from its meaning -/

def sample (negative : Bool) (n : ℕ) : JsNumber := .finite negative n

theorem ofInt_sample {n : ℕ} (h : n < 8) : ofInt n = sample false n :=
  JsNumber.ofInt_natCast (h.trans (by norm_num))

def IsSample (x : JsNumber) : Prop :=
  ∃ negative n, n < 8 ∧ (negative = true → n ≠ 0) ∧ x = sample negative n

def literalLink (link : Comparison × JsNumber) : Comparison × Node := (link.1, numberNode link.2)

variable {x : JsNumber}

theorem IsSample.printable (h : IsSample x) : (numberNode x).Printable := by
  obtain ⟨negative, n, hn, _, rfl⟩ := h
  exact printable_numberNode (JsNumber.holds_natCast (hn.trans (by norm_num)))

theorem IsSample.evaluate_eq (h : IsSample x) (env : EvalEnv) (state : FilterState) :
    (evaluate engine tables (numberNode x) env).run state = (.num x, state) := by
  obtain ⟨negative, n, _, hnonzero, rfl⟩ := h
  rw [evaluate_eq_num, sample, numberNode]
  cases negative with
  | false =>
    rw [if_neg (fun h => Bool.false_ne_true h.1), compileNode]
    rfl
  | true =>
    rw [if_pos ⟨rfl, Nat.cast_ne_zero.mpr (hnonzero rfl)⟩, compileNode, compileNode]
    rfl

variable {values : List (Comparison × JsNumber)}

theorem evaluates_literals (h : ∀ value ∈ values, IsSample value.2) (env : EvalEnv)
    (state : FilterState) :
    Evaluates engine tables env (values.map literalLink) state values state := by
  induction values with
  | nil => exact .nil state
  | cons value values ih =>
    obtain ⟨hvalue, hvalues⟩ := List.forall_mem_cons.mp h
    exact .cons (hvalue.evaluate_eq engine tables env state) (ih hvalues)

theorem chainPrintable_literals (hx : IsSample x) (h : ∀ value ∈ values, IsSample value.2) :
    ChainPrintable (numberNode x) (values.map literalLink) :=
  ⟨hx.printable, List.forall_mem_map.mpr fun value hvalue => (h value hvalue).printable⟩

def noMessages : EvalEnv := ⟨fun _ _ => none, fun _ _ => none, fun _ => none, none⟩

theorem not_means_of_values (hx : IsSample x) (h : ∀ value ∈ values, IsSample value.2)
    (htruthy : (Value.num (chainValue x values)).truthy = true) (hfails : ¬ AllHold x values) :
    ¬ MeansAllHold engine tables (values.map Prod.fst) := by
  intro hmeans
  have hprintable := chainPrintable_literals hx h
  have hparse := parseFormula_chain hprintable (spells_spaced _)
  have hops : (values.map literalLink).map Prod.fst = values.map Prod.fst := by
    rw [List.map_map]
    rfl
  obtain ⟨error, herror⟩ | ⟨ast, hast, hvalue⟩ := hmeans _ _ _ hops hprintable (spells_spaced _)
  · rw [hparse] at herror
    cases herror
  · rw [hparse] at hast
    cases hast
    have hfirst := hx.evaluate_eq engine tables noMessages .empty
    have hlinks := evaluates_literals engine tables h noMessages .empty
    refine hfails ((hvalue _ _ _ _ _ _ hfirst hlinks).mp ?_)
    rw [evaluate_chain hfirst hlinks]
    exact htruthy

def Comparison.before : Comparison → JsNumber
  | gt => sample true 5
  | ge => sample true 5
  | _ => sample false 5

/-- The last operand: the truth of a chain compares with it, the operand before it does not. -/
def Comparison.beyond (truth : Bool) : Comparison → JsNumber
  | eq => sample false truth.toNat
  | ne => sample false 5
  | lt => sample false 5
  | le => sample false 1
  | gt => sample true 5
  | ge => sample false 0

theorem holds_truth_beyond (truth : Bool) (c : Comparison) :
    c.holds (sample false truth.toNat) (c.beyond truth) = true := by
  cases truth <;> cases c <;>
    (simp [Comparison.holds, Comparison.beyond, sample, JsNumber.equal, JsNumber.lt, JsNumber.le,
      JsNumber.signed]; try norm_num)

theorem holds_before_beyond (truth : Bool) (c : Comparison) :
    c.holds c.before (c.beyond truth) = false := by
  cases truth <;> cases c <;>
    simp [Comparison.holds, Comparison.beyond, Comparison.before, sample, JsNumber.equal,
      JsNumber.lt, JsNumber.le, JsNumber.signed]

theorem isSample_before (c : Comparison) : IsSample c.before := by
  cases c <;> exact ⟨_, 5, by omega, by simp, rfl⟩

theorem isSample_beyond (truth : Bool) (c : Comparison) : IsSample (c.beyond truth) := by
  cases c with
  | eq => exact ⟨false, truth.toNat, truth.toNat_lt.trans (by omega), by simp, rfl⟩
  | _ => exact ⟨_, _, by omega, by simp, rfl⟩

theorem isSample_zero : IsSample (sample false 0) := ⟨false, 0, by omega, by simp, rfl⟩

theorem sample_truth (b : Bool) : (if b then 1 else 0 : JsNumber) = sample false b.toNat := by
  cases b
  · exact @ofInt_sample 0 (by omega)
  · exact @ofInt_sample 1 (by omega)

theorem not_means_of_longer (front : List Comparison) (op last : Comparison) :
    ¬ MeansAllHold engine tables (front ++ [op, last]) := by
  have hzeros : ∀ value ∈ front.map fun c => (c, sample false 0), IsSample value.2 :=
    List.forall_mem_map.mpr fun _ _ => isSample_zero
  set zeros := front.map fun c => (c, sample false 0)
  set truth := op.holds (chainValue (sample false 0) zeros) last.before
  have hops : (zeros ++ [(op, last.before), (last, last.beyond truth)]).map Prod.fst =
      front ++ [op, last] := by
    simp [zeros, Function.comp_def]
  rw [← hops]
  refine not_means_of_values engine tables isSample_zero ?_ ?_ fun hall => ?_
  · simp only [List.forall_mem_append, List.forall_mem_cons]
    exact ⟨hzeros, isSample_before last, isSample_beyond truth last, List.forall_mem_nil _⟩
  · have happend : zeros ++ [(op, last.before), (last, last.beyond truth)] =
        zeros ++ [(op, last.before)] ++ [(last, last.beyond truth)] := by
      rw [List.append_assoc, List.singleton_append]
    rw [happend, chainValue_append, chainValue_append, truthy_ite, sample_truth]
    exact holds_truth_beyond truth last
  · have hlast := allHold_last hall
    rw [holds_before_beyond] at hlast
    exact Bool.false_ne_true hlast

end Meaning

/-- A chain means what it says exactly where it is a single comparison. -/
theorem chain_means_allHold_iff (engine : Engine) (tables : MagFieldTables) (op : Comparison)
    (more : List Comparison) : MeansAllHold engine tables (op :: more) ↔ more = [] := by
  constructor
  · intro hmeans
    by_contra hmore
    obtain ⟨front, last, rfl⟩ := List.eq_nil_or_concat' more |>.resolve_left hmore
    cases front using List.reverseRecOn with
    | nil => exact not_means_of_longer engine tables [] op last hmeans
    | append_singleton front before _ =>
      have hops : op :: (front ++ [before] ++ [last]) = (op :: front) ++ [before, last] := by
        simp
      exact not_means_of_longer engine tables (op :: front) before last (hops ▸ hmeans)
  · rintro rfl
    exact means_of_single engine tables op

def descending : Node := chainNode (.num 3) [(.lt, .num 2), (.lt, .num 1)]

/-- `3 < 2 < 1` is true: the truth of `3 < 2` is 0. -/
theorem descending_chain_holds :
    parseFormula (units "3<2<1") = some (.ok descending) ∧
      (∀ engine tables env state,
        ((evaluate engine tables descending env).run state).1.truthy = true) ∧
      ¬ AllHold 3 [(.lt, 2), (.lt, 1)] := by
  have hone : (1 : JsNumber) = sample false 1 := @ofInt_sample 1 (by omega)
  have htwo : (2 : JsNumber) = sample false 2 := @ofInt_sample 2 (by omega)
  have hthree : (3 : JsNumber) = sample false 3 := @ofInt_sample 3 (by omega)
  have hless : (3 : JsNumber).lt 2 = false := by
    rw [hthree, htwo]
    simp [sample, JsNumber.lt, JsNumber.le, JsNumber.signed]
    norm_num
  refine ⟨?_, fun engine tables env state => ?_, fun hall => ?_⟩
  · have hend : Spells [⟨.num 1, literalText 1⟩] (literalText 1) := by
      have hspells := @Spells.next ⟨.num 1, literalText 1⟩ [] [] (by simp)
        (.nil (List.forall_mem_nil _))
      rwa [List.append_nil] at hspells
    have htwoText : literalText 2 = units "2" := by decide +kernel
    have honeText : literalText 1 = units "1" := by decide +kernel
    have hlast : Spells (opLexeme (units "<") :: [⟨.num 1, literalText 1⟩])
        (units "<" ++ literalText 1) := by
      refine .next ?_ hend
      rw [honeText]
      decide
    have hmiddle : Spells (opLexeme (units "<") :: ⟨.num 2, literalText 2⟩ ::
        opLexeme (units "<") :: [⟨.num 1, literalText 1⟩])
        (units "<" ++ (literalText 2 ++ (units "<" ++ literalText 1))) := by
      refine .next ?_ (.next ?_ hlast)
      · rw [htwoText]
        decide
      · decide
    have hspells : Spells (chainLexemes (.num 3) [(.lt, .num 2), (.lt, .num 1)])
        (literalText 3 ++ (units "<" ++ (literalText 2 ++ (units "<" ++ literalText 1)))) :=
      .next (by decide) hmiddle
    have htext : literalText 3 ++ (units "<" ++ (literalText 2 ++ (units "<" ++ literalText 1))) =
        units "3<2<1" := by
      decide +kernel
    rw [htext] at hspells
    refine parseFormula_chain ⟨?_, ?_⟩ hspells
    · rw [hthree]
      exact JsNumber.holds_natCast (by norm_num)
    · simp only [List.forall_mem_cons, Node.Printable, hone, htwo]
      exact ⟨JsNumber.holds_natCast (by norm_num), JsNumber.holds_natCast (by norm_num),
        List.forall_mem_nil _⟩
  · have hnumber (x : JsNumber) :
        (evaluate engine tables (.num x) env).run state = (.num x, state) := by
      rw [evaluate_eq_num, compileNode]
      rfl
    have hvalue := evaluate_chain (hnumber 3)
      (.cons (c := .lt) (hnumber 2) (.cons (c := .lt) (hnumber 1) (.nil state)))
    rw [descending, hvalue, chainValue, List.foldl_cons, List.foldl_cons, List.foldl_nil,
      truthy_ite]
    change (if (3 : JsNumber).lt 2 then 1 else 0 : JsNumber).lt 1 = true
    rw [hless, sample_truth, hone]
    simp [sample, JsNumber.lt, JsNumber.le, JsNumber.signed]
  · exact Bool.false_ne_true (hless.symm.trans hall.1)

end ArduConfigurator.PlotCore
