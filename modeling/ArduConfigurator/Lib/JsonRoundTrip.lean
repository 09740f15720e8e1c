import ArduConfigurator.Lib.Json

/-! # JSON written and read

A value whose objects have no key twice comes back from its text, but for the numbers that the
format does not have: they come back as `null`, and a zero without its sign. -/
namespace ArduConfigurator.Json
open DecimalText
open scoped NNRat
set_option autoImplicit false

/-- The values that a program builds: its numbers are doubles, its objects have each key once. -/
inductive Sound : Json → Prop
  | null : Sound .null
  | bool (b : Bool) : Sound (.bool b)
  | number {x : JsNumber} (h : x.IsDouble) : Sound (.number x)
  | string (t : Text) : Sound (.string t)
  | array {items : List Json} (h : ∀ j ∈ items, Sound j) : Sound (.array items)
  | object {fields : List (Text × Json)} (keys : (Entries.keys fields).Nodup)
      (h : ∀ f ∈ fields, Sound f.2) : Sound (.object fields)

def kept : JsNumber → Json
  | .finite negative q => .number (JsNumber.mapKey (.finite negative q))
  | _ => .null

mutual

@[simp] def norm : Json → Json
  | .null => .null
  | .bool b => .bool b
  | .number x => kept x
  | .string t => .string t
  | .array items => .array (normItems items)
  | .object fields => .object (normFields fields)

def normItems : List Json → List Json
  | [] => []
  | j :: items => norm j :: normItems items

def normFields : List (Text × Json) → List (Text × Json)
  | [] => []
  | (k, j) :: fields => (k, norm j) :: normFields fields

end

mutual

def tokens : Json → List Token
  | .null => [.scalar .null]
  | .bool b => [.scalar (.bool b)]
  | .number x => [.scalar (kept x)]
  | .string t => [.scalar (.string t)]
  | .array [] => [.openArray, .closeArray]
  | .array (j :: items) => .openArray :: (tokens j ++ (itemTokens items ++ [.closeArray]))
  | .object [] => [.openObject, .closeObject]
  | .object ((k, j) :: fields) =>
    .openObject :: .scalar (.string k) :: .colon ::
      (tokens j ++ (fieldTokens fields ++ [.closeObject]))

def itemTokens : List Json → List Token
  | [] => []
  | j :: items => .comma :: (tokens j ++ itemTokens items)

def fieldTokens : List (Text × Json) → List Token
  | [] => []
  | (k, j) :: fields =>
    .comma :: .scalar (.string k) :: .colon :: (tokens j ++ fieldTokens fields)

end

theorem normItems_eq (items : List Json) : normItems items = items.map norm := by
  induction items with
  | nil => rw [normItems, List.map_nil]
  | cons j items ih => rw [normItems, ih, List.map_cons]

theorem normFields_eq (fields : List (Text × Json)) :
    normFields fields = fields.map fun f => (f.1, norm f.2) := by
  induction fields with
  | nil => rw [normFields, List.map_nil]
  | cons f fields ih =>
    obtain ⟨k, j⟩ := f
    rw [normFields, ih, List.map_cons]

/-! ## Words -/

/-- A text in which a word has ended. -/
def Delimited (rest : Text) : Prop := ∀ c ∈ rest.head?, isWordUnit c = false

variable {c : UInt16}

theorem isWordUnit_of_numeral (h : isNumeralUnit c = true) : isWordUnit c = true := by
  rw [isWordUnit, h, Bool.true_or]

theorem beginAt_word (h : isWordUnit c = true) :
    beginAt c = some ([], .word [c]) := by
  have hne {d : UInt16} (hd : isWordUnit d = false) : c ≠ d := by
    rintro rfl
    rw [h] at hd
    cases hd
  have hpunctuation : punctuation c = none := by
    simp [punctuation, hne (d := LBRACKET) (by decide), hne (d := RBRACKET) (by decide),
      hne (d := LBRACE) (by decide), hne (d := RBRACE) (by decide), hne (d := COMMA) (by decide),
      hne (d := COLON) (by decide)]
  have hspace : isJsonSpace c = false := by
    simp [isJsonSpace, hne (d := 0x09) (by decide), hne (d := 0x0A) (by decide),
      hne (d := 0x0D) (by decide), hne (d := 0x20) (by decide)]
  simp [beginAt, hpunctuation, hspace, hne (d := QUOTE) (by decide), h]

variable {s s' : Lexing}

theorem lex_cons {found : List Token} (h : lexStep s c = some (found, s')) (t : Text) :
    lex s (c :: t) = (lex s' t).map (found ++ ·) := by
  rw [lex, h]
  rfl

theorem lex_cons_nil (h : lexStep s c = some ([], s')) (t : Text) :
    lex s (c :: t) = lex s' t := by
  rw [lex_cons h]
  simp

theorem lex_word (w : Text) {v : Text} (h : ∀ c ∈ v, isWordUnit c = true) (rest : Text) :
    lex (.word w) (v ++ rest) = lex (.word (w ++ v)) rest := by
  induction v generalizing w with
  | nil => simp
  | cons c v ih =>
    obtain ⟨hc, hv⟩ := List.forall_mem_cons.mp h
    have hstep : lexStep (.word w) c = some ([], .word (w ++ [c])) := by rw [lexStep, if_pos hc]
    rw [List.cons_append, lex_cons_nil hstep, ih _ hv, List.append_assoc, List.singleton_append]

variable {w rest : Text} {token : Token}

theorem lex_word_end (h : wordToken w = some token) (hrest : Delimited rest) :
    lex (.word w) rest = (lex .between rest).map ([token] ++ ·) := by
  cases rest with
  | nil => simp [lex, lexEnd, h]
  | cons c t =>
    have hc : isWordUnit c = false := hrest c rfl
    have hstep : lexStep (.word w) c =
        (beginAt c).map fun r => (token :: r.1, r.2) := by
      rw [lexStep, if_neg (by simp [hc]), h, Option.bind_some]
    have hfresh : lexStep .between c = beginAt c := rfl
    rw [lex, lex, hstep, hfresh]
    cases beginAt c with
    | none => rfl
    | some r =>
      rw [Option.map_some, Option.bind_some, Option.bind_some, Option.map_map]
      rfl

theorem lex_token (hw : wordToken w = some token) (hne : w ≠ [])
    (hunits : ∀ c ∈ w, isWordUnit c = true) (hrest : Delimited rest) :
    lex .between (w ++ rest) = (lex .between rest).map ([token] ++ ·) := by
  obtain ⟨c, v, rfl⟩ := List.exists_cons_of_ne_nil hne
  obtain ⟨hc, hv⟩ := List.forall_mem_cons.mp hunits
  have hstep : lexStep .between c = some ([], .word [c]) := beginAt_word hc
  rw [List.cons_append, lex_cons_nil hstep, lex_word [c] hv, List.singleton_append]
  exact lex_word_end hw hrest

/-! ## Numbers -/

theorem head_natDigits {s : ℕ} (h : s ≠ 0) : (natDigits s).head? ≠ some ZERO := by
  have hne : Nat.digits 10 s ≠ [] := by simpa [Nat.digits_eq_nil_iff_eq_zero] using h
  have hlast := Nat.getLast_digit_ne_zero 10 h
  have hlt := Nat.digits_lt_base (by norm_num) (List.getLast_mem hne)
  rw [natDigits, if_neg h, List.head?_map, List.head?_reverse, List.getLast?_eq_getLast_of_ne_nil hne,
    Option.map_some, ne_eq, Option.some_inj]
  intro hzero
  have := congrArg UInt16.toNat hzero
  rw [digitUnit_toNat hlt] at this
  change 48 + _ = 48 at this
  omega

/-- A whole part that does not begin with a zero, or is one. -/
def NoLeadingZero (whole : Text) : Prop := whole.head? ≠ some ZERO ∨ whole = [ZERO]

theorem noLeadingZero_layout (limit : ℤ) {s : ℕ} (h : s ≠ 0) (n : ℤ) :
    NoLeadingZero (layout limit s n).whole := by
  have hhead := head_natDigits h
  obtain ⟨c, ds, hdigits⟩ := List.exists_cons_of_ne_nil (natDigits_ne_nil s)
  rw [hdigits] at hhead
  rw [layout]
  split_ifs
  · rw [placePoint]
    split_ifs with hlong hpos
    · exact .inl (by simpa [hdigits] using hhead)
    · obtain ⟨k, hk⟩ : ∃ k, n.toNat = k + 1 := ⟨n.toNat - 1, by omega⟩
      exact .inl (by simpa [hdigits, hk] using hhead)
    · exact .inr rfl
  · exact .inl (by simpa [scientific, hdigits] using hhead)

variable {q : ℚ≥0}

theorem shortestDigits_ne_zero (h : binary64.Holds (.finite false q)) (hq : q ≠ 0) :
    (shortestDigits q).1 ≠ 0 := by
  intro hzero
  have hreads := shortestDigits_reads h
  have hnil : nearestDouble false 0 = .finite false 0 := by decide +kernel
  rw [hzero, Nat.cast_zero, zero_mul, hnil] at hreads
  exact hq (JsNumber.finite.inj hreads).2.symm

theorem isJsonNumber_text (negative : Bool) {n : Numeral} (h : NoLeadingZero n.whole) :
    isJsonNumber (signText negative ++ n.text) = true := by
  obtain ⟨hhead, hpoint⟩ := n.starts.head
  obtain ⟨c, whole, hwhole⟩ := List.exists_cons_of_ne_nil n.whole_ne_nil
  have hfirst : isDigit c = true := n.digits_whole c (by rw [hwhole]; exact List.mem_cons_self)
  have hbody : (if (signText negative ++ n.text).head? = some MINUS then
      (signText negative ++ n.text).tail else signText negative ++ n.text) = n.text := by
    cases negative with
    | true => rfl
    | false =>
      have hne : c ≠ MINUS := by
        rintro rfl
        exact absurd hfirst (by decide)
      simp [signText, Numeral.text, numeral, hwhole, hne]
  have hsplit : n.text.takeWhile isDigit = n.whole ∧ n.text.dropWhile isDigit =
      (if n.fraction = [] then [] else POINT :: n.fraction) ++ n.exponent := by
    rw [Numeral.text, numeral, List.append_assoc]
    refine takeWhile_digits n.digits_whole ?_
    split_ifs
    · exact hhead
    · simp only [List.cons_append, List.head?_cons, Option.mem_def, Option.some.injEq, forall_eq']
      decide
  have hafter : afterFraction ((if n.fraction = [] then [] else POINT :: n.fraction) ++
      n.exponent) = some n.exponent := by
    split_ifs with hnil
    · rw [List.nil_append, afterFraction, if_neg hpoint]
    · obtain ⟨htake, hdrop⟩ := takeWhile_digits n.digits_fraction hhead
      rw [List.cons_append, afterFraction, List.head?_cons, if_pos rfl, List.tail_cons, htake,
        if_neg hnil, hdrop]
  rw [isJsonNumber, hbody, hsplit.1, hsplit.2]
  simp only [hafter, n.reads, Option.isSome_some, Bool.and_true, Bool.and_eq_true,
    decide_eq_true_eq, Bool.or_eq_true]
  exact ⟨n.whole_ne_nil, h⟩

theorem wordToken_number (h : isJsonNumber w = true) :
    wordToken w = some (.scalar (.number (readLiteral w))) := by
  have hne {v : Text} (hv : isJsonNumber v = false) : w ≠ v := by
    rintro rfl
    rw [h] at hv
    cases hv
  rw [wordToken, if_neg (hne (by decide)), if_neg (hne (by decide)), if_neg (hne (by decide)),
    if_pos h]

theorem isJsonNumber_numberToString (negative : Bool) (h : binary64.Holds (.finite false q)) :
    isJsonNumber (numberToString (.finite negative q)) = true := by
  rw [numberToString]
  split_ifs with hzero
  · decide
  · exact isJsonNumber_text negative
      (noLeadingZero_layout 21 (shortestDigits_ne_zero h hzero) _)

theorem lex_writeNumber {x : JsNumber} (h : x.IsDouble) (hrest : Delimited rest) :
    lex .between (writeNumber x ++ rest) =
      (lex .between rest).map ([.scalar (kept x)] ++ ·) := by
  have hnull : lex .between (units "null" ++ rest) =
      (lex .between rest).map ([.scalar .null] ++ ·) :=
    lex_token (by rw [wordToken, if_pos rfl]) (by decide) (by decide) hrest
  cases x with
  | nan => exact hnull
  | infinite negative => exact hnull
  | finite negative q =>
    obtain ⟨hne, hunits⟩ := units_numberToString negative q
    have htoken := wordToken_number (isJsonNumber_numberToString negative h)
    rw [JsNumber.readLiteral_text h] at htoken
    exact lex_token htoken hne (fun c hc => isWordUnit_of_numeral (hunits c hc)) hrest

/-! ## Strings -/

variable {letter : UInt16}

theorem letterOf_spec (h : letterOf c = some letter) :
    letter ≠ 0x75 ∧ (ESCAPES.find? fun e => e.1 = letter) = some (letter, c) := by
  obtain ⟨e, he, rfl⟩ := Option.map_eq_some_iff.mp h
  have hmem := List.mem_of_mem_filter (List.mem_of_find?_eq_some he)
  have hc : e.2 = c := by simpa using List.find?_some he
  have hall : ∀ e ∈ ESCAPES,
      e.1 ≠ 0x75 ∧ (ESCAPES.find? fun e' => e'.1 = e.1) = some (e.1, e.2) := by decide
  rw [← hc]
  exact hall e hmem

theorem not_special_of_letterOf (h : letterOf c = none) :
    c ≠ QUOTE ∧ c ≠ BACKSLASH := by
  refine ⟨?_, ?_⟩
  · rintro rfl
    revert h
    decide
  · rintro rfl
    revert h
    decide

theorem radixDigit_hexDigit {d : ℕ} (h : d < 16) : radixDigit 16 (hexDigit d) = some d := by
  have hall : ∀ d : Fin 16, radixDigit 16 (hexDigit d) = some (d : ℕ) := by decide
  exact hall ⟨d, h⟩

theorem lex_hex (t : Text) {d : ℕ} (hd : d < 16) (digits value : ℕ) (rest : Text) :
    lex (.hex t digits value) (hexDigit d :: rest) =
      if digits = 3 then lex (.text (t ++ [UInt16.ofNat (value * 16 + d)])) rest
      else lex (.hex t (digits + 1) (value * 16 + d)) rest := by
  rw [lex, lexStep, radixDigit_hexDigit hd]
  split_ifs <;> simp

theorem lex_hexUnits (t : Text) (c : UInt16) (rest : Text) :
    lex (.hex t 0 0) (hexUnits c.toNat ++ rest) = lex (.text (t ++ [c])) rest := by
  have hlt : c.toNat < 65536 := c.toNat_lt
  have hvalue : (((0 * 16 + c.toNat / 4096 % 16) * 16 + c.toNat / 256 % 16) * 16 +
      c.toNat / 16 % 16) * 16 + c.toNat % 16 = c.toNat := by omega
  rw [hexUnits]
  simp only [List.cons_append, List.nil_append]
  rw [lex_hex t (Nat.mod_lt _ (by norm_num)), if_neg (by norm_num),
    lex_hex t (Nat.mod_lt _ (by norm_num)), if_neg (by norm_num),
    lex_hex t (Nat.mod_lt _ (by norm_num)), if_neg (by norm_num),
    lex_hex t (Nat.mod_lt _ (by norm_num)), if_pos (by norm_num), hvalue, UInt16.ofNat_toNat]

theorem lex_escape (h : letterOf c = some letter) (t rest : Text) :
    lex (.text t) (BACKSLASH :: letter :: rest) = lex (.text (t ++ [c])) rest := by
  obtain ⟨hne, hfind⟩ := letterOf_spec h
  have hback : lexStep (.text t) BACKSLASH = some ([], .escape t) := by
    rw [lexStep, if_neg (by decide), if_pos rfl]
  have hletter : lexStep (.escape t) letter = some ([], .text (t ++ [c])) := by
    rw [lexStep, if_neg hne, hfind, Option.map_some]
  rw [lex_cons_nil hback, lex_cons_nil hletter]

theorem lex_unicode (c : UInt16) (t rest : Text) :
    lex (.text t) (BACKSLASH :: 0x75 :: (hexUnits c.toNat ++ rest)) =
      lex (.text (t ++ [c])) rest := by
  have hback : lexStep (.text t) BACKSLASH = some ([], .escape t) := by
    rw [lexStep, if_neg (by decide), if_pos rfl]
  have hletter : lexStep (.escape t) 0x75 = some ([], .hex t 0 0) := by
    rw [lexStep, if_pos rfl]
  rw [lex_cons_nil hback, lex_cons_nil hletter, lex_hexUnits]

theorem lex_plain (h : letterOf c = none) (hlow : ¬ c < 0x20) (t rest : Text) :
    lex (.text t) (c :: rest) = lex (.text (t ++ [c])) rest := by
  obtain ⟨hquote, hback⟩ := not_special_of_letterOf h
  have hstep : lexStep (.text t) c = some ([], .text (t ++ [c])) := by
    rw [lexStep, if_neg hquote, if_neg hback, if_neg hlow]
  rw [lex_cons_nil hstep]

theorem lex_quoteFrom (paired : Bool) (acc t rest : Text) :
    lex (.text acc) (quoteFrom paired t ++ rest) =
      (lex .between rest).map ([.scalar (.string (acc ++ t))] ++ ·) := by
  induction t generalizing paired acc with
  | nil =>
    have hstep : lexStep (.text acc) QUOTE = some ([.scalar (.string acc)], .between) := by
      rw [lexStep, if_pos rfl]
    rw [quoteFrom, List.singleton_append, lex_cons hstep, List.append_nil]
  | cons c t ih =>
    have hlater : acc ++ c :: t = acc ++ [c] ++ t := by simp
    rw [quoteFrom, hlater]
    cases hletter : letterOf c with
    | some letter =>
      rw [List.cons_append, List.cons_append, lex_escape hletter, ih]
    | none =>
      simp only
      split_ifs with hpair hescape
      · have hlow : ¬ c < 0x20 := by
          intro hlt
          have hlead := hpair.1
          simp only [isLead, decide_eq_true_eq, UInt16.le_iff_toNat_le] at hlead
          have := UInt16.lt_iff_toNat_lt.mp hlt
          change _ < 32 at this
          have := hlead.1
          change 55296 ≤ _ at this
          omega
        rw [List.cons_append, lex_plain hletter hlow, ih]
      · rw [List.cons_append, List.cons_append, List.append_assoc, lex_unicode, ih]
      · rw [List.cons_append, lex_plain hletter (fun hlt => hescape (.inl hlt)), ih]

theorem lex_quote (t rest : Text) :
    lex .between (quote t ++ rest) = (lex .between rest).map ([.scalar (.string t)] ++ ·) := by
  have hstep : lexStep .between QUOTE = some ([], .text []) := by
    rw [lexStep, beginAt]
    rfl
  rw [quote, List.cons_append, lex_cons_nil hstep, lex_quoteFrom, List.nil_append]

/-! ## Values -/

theorem lex_punctuation (token : Token) (h : punctuation c = some token) (rest : Text) :
    lex .between (c :: rest) = (lex .between rest).map ([token] ++ ·) := by
  have hstep : lexStep .between c = some ([token], .between) := by rw [lexStep, beginAt, h]
  rw [lex_cons hstep]

theorem lex_space (h : isJsonSpace c = true) (hpunctuation : punctuation c = none) (rest : Text) :
    lex .between (c :: rest) = lex .between rest := by
  have hstep : lexStep .between c = some ([], .between) := by
    rw [lexStep, beginAt, hpunctuation]
    simp [h]
  rw [lex_cons_nil hstep]

theorem lex_newLine (indent : ℕ) (rest : Text) :
    lex .between (newLine indent ++ rest) = lex .between rest := by
  rw [newLine, List.cons_append, lex_space (by decide) rfl]
  induction indent with
  | zero => rfl
  | succ n ih => rw [List.replicate_succ, List.cons_append, lex_space (by decide) rfl, ih]

theorem delimited_cons (h : isWordUnit c = false) (rest : Text) :
    Delimited (c :: rest) := by
  intro d hd
  rw [← Option.some_inj.mp hd]
  exact h

theorem delimited_newLine (indent : ℕ) (rest : Text) : Delimited (newLine indent ++ rest) :=
  delimited_cons (by decide) _

theorem delimited_writeItems (indent : ℕ) (items : List Json) (h : Delimited rest) :
    Delimited (writeItems indent items ++ rest) := by
  cases items with
  | nil =>
    rw [writeItems]
    exact h
  | cons j items =>
    rw [writeItems]
    exact delimited_cons (by decide) _

theorem delimited_writeFields (indent : ℕ) (fields : List (Text × Json)) (h : Delimited rest) :
    Delimited (writeFields indent fields ++ rest) := by
  cases fields with
  | nil =>
    rw [writeFields]
    exact h
  | cons f fields =>
    rw [writeFields]
    exact delimited_cons (by decide) _

/-- The tokens before those that a rest gives. -/
def Lexes (text : Text) (found : List Token) : Prop :=
  ∀ rest : Text, Delimited rest →
    lex .between (text ++ rest) = (lex .between rest).map (found ++ ·)

theorem map_append_map (r : Option (List Token)) (a b : List Token) :
    (r.map (b ++ ·)).map (a ++ ·) = r.map ((a ++ b) ++ ·) := by
  cases r with
  | none => rfl
  | some tokens => simp

variable {items : List Json}

theorem lexes_writeItems (indent : ℕ) (h : ∀ j ∈ items, Lexes (write indent j) (tokens j)) :
    Lexes (writeItems indent items) (itemTokens items) := by
  induction items with
  | nil =>
    intro rest _
    rw [writeItems, itemTokens]
    simp
  | cons j items ih =>
    obtain ⟨hj, hitems⟩ := List.forall_mem_cons.mp h
    intro rest hrest
    rw [writeItems, itemTokens, List.cons_append, lex_punctuation .comma rfl,
      List.append_assoc, lex_newLine, List.append_assoc,
      hj _ (delimited_writeItems indent items hrest), ih hitems rest hrest, map_append_map,
      map_append_map]
    rfl

variable {j : Json}

theorem lexes_field (indent : ℕ) (k : Text) (h : Lexes (write indent j) (tokens j))
    (hrest : Delimited rest) :
    lex .between (quote k ++ (COLON :: SPACE :: (write indent j ++ rest))) =
      (lex .between rest).map ((.scalar (.string k) :: .colon :: tokens j) ++ ·) := by
  rw [lex_quote, lex_punctuation .colon rfl, lex_space (by decide) rfl, h rest hrest,
    map_append_map, map_append_map]
  rfl

variable {fields : List (Text × Json)}

theorem lexes_writeFields (indent : ℕ) (h : ∀ f ∈ fields, Lexes (write indent f.2) (tokens f.2)) :
    Lexes (writeFields indent fields) (fieldTokens fields) := by
  induction fields with
  | nil =>
    intro rest _
    rw [writeFields, fieldTokens]
    simp
  | cons f fields ih =>
    obtain ⟨hj, hfields⟩ := List.forall_mem_cons.mp h
    intro rest hrest
    have hfield := lexes_field indent f.1 hj (delimited_writeFields indent fields hrest)
    rw [writeFields, fieldTokens]
    conv_lhs => simp only [List.append_assoc, List.cons_append]
    rw [lex_punctuation .comma rfl, lex_newLine, hfield, ih hfields rest hrest, map_append_map,
      map_append_map]
    simp

theorem lexes_write (h : Sound j) (indent : ℕ) :
    Lexes (write indent j) (tokens j) := by
  induction h generalizing indent with
  | null =>
    intro rest hrest
    rw [write, tokens]
    exact lex_token (by rw [wordToken, if_pos rfl]) (by decide) (by decide) hrest
  | bool b =>
    intro rest hrest
    rw [write, tokens]
    cases b with
    | true =>
      exact lex_token (by rw [wordToken, if_neg (by decide), if_pos (by decide)]) (by decide)
        (by decide) hrest
    | false =>
      exact lex_token (by rw [wordToken, if_neg (by decide), if_neg (by decide),
        if_pos (by decide)]) (by decide) (by decide) hrest
  | number hx =>
    intro rest hrest
    rw [write, tokens]
    exact lex_writeNumber hx hrest
  | string t =>
    intro rest _
    rw [write, tokens]
    exact lex_quote t rest
  | @array items _ ih =>
    intro rest hrest
    cases items with
    | nil =>
      rw [write, tokens, List.cons_append, List.singleton_append,
        lex_punctuation .openArray rfl, lex_punctuation .closeArray rfl,
        map_append_map]
      rfl
    | cons j items =>
      obtain ⟨hj, hitems⟩ := List.forall_mem_cons.mp ih
      have htail := lexes_writeItems (indent + 2) fun j hj => hitems j hj (indent + 2)
      have hend := delimited_newLine indent (RBRACKET :: rest)
      rw [write, tokens]
      conv_lhs => simp only [List.append_assoc, List.cons_append, List.nil_append]
      rw [lex_punctuation .openArray rfl, lex_newLine,
        hj _ _ (delimited_writeItems _ _ hend), htail _ hend, lex_newLine,
        lex_punctuation .closeArray rfl, map_append_map, map_append_map,
        map_append_map]
      simp
  | @object fields _ _ ih =>
    intro rest hrest
    cases fields with
    | nil =>
      rw [write, tokens, List.cons_append, List.singleton_append,
        lex_punctuation .openObject rfl, lex_punctuation .closeObject rfl,
        map_append_map]
      rfl
    | cons f fields =>
      obtain ⟨hj, hfields⟩ := List.forall_mem_cons.mp ih
      have htail := lexes_writeFields (indent + 2) fun f hf => hfields f hf (indent + 2)
      have hend := delimited_newLine indent (RBRACE :: rest)
      have hfield := lexes_field (indent + 2) f.1 (hj (indent + 2))
        (delimited_writeFields (indent + 2) fields hend)
      rw [write, tokens]
      conv_lhs => simp only [List.append_assoc, List.cons_append, List.nil_append]
      rw [lex_punctuation .openObject rfl, lex_newLine, hfield, htail _ hend,
        lex_newLine, lex_punctuation .closeObject rfl,
        map_append_map, map_append_map, map_append_map]
      simp

/-! ## Reading -/

/-- Where a value begins. -/
def Begins (a : Awaited) : Prop := a = .value ∨ a = .valueOrClose

theorem readStep_begins {a : Awaited} (ha : Begins a) (h : token ≠ .closeArray)
    (stack : List Frame) : readStep ⟨a, stack⟩ token = valueStep token stack := by
  rcases ha with rfl | rfl
  · rfl
  · cases token with
    | closeArray => exact absurd rfl h
    | _ => rfl

/-- A list of tokens that is read as one value. -/
def Reads (found : List Token) (j : Json) : Prop :=
  ∀ (a : Awaited) (stack : List Frame) (rest : List Token), Begins a →
    (found ++ rest).foldlM readStep ⟨a, stack⟩ = rest.foldlM readStep ⟨.behind j, stack⟩

theorem reads_scalar (j : Json) : Reads [.scalar j] j := by
  intro a stack rest ha
  have hstep : readStep ⟨a, stack⟩ (.scalar j) = some ⟨.behind j, stack⟩ :=
    readStep_begins ha (by simp) stack
  rw [List.singleton_append, List.foldlM_cons, hstep]
  rfl

theorem foldlM_step {s s' : Reading} (h : readStep s token = some s') (rest : List Token) :
    (token :: rest).foldlM readStep s = rest.foldlM readStep s' := by
  rw [List.foldlM_cons, h]
  rfl

theorem read_items (h : ∀ j ∈ items, Reads (tokens j) (norm j)) (j : Json) (before : List Json)
    (stack : List Frame) (rest : List Token) :
    (itemTokens items ++ .closeArray :: rest).foldlM readStep
        ⟨.behind j, .items before :: stack⟩ =
      rest.foldlM readStep ⟨.behind (.array (before ++ j :: items.map norm)), stack⟩ := by
  induction items generalizing j before with
  | nil =>
    rw [itemTokens, List.nil_append, foldlM_step rfl]
    rfl
  | cons i items ih =>
    obtain ⟨hi, hitems⟩ := List.forall_mem_cons.mp h
    rw [itemTokens, List.cons_append, foldlM_step rfl, List.append_assoc, hi _ _ _ (.inl rfl),
      ih hitems, List.map_cons, List.append_assoc, List.singleton_append]

theorem read_fields (h : ∀ f ∈ fields, Reads (tokens f.2) (norm f.2)) {k : Text}
    (before : List (Text × Json)) (hkeys : (Entries.keys before ++ k :: Entries.keys fields).Nodup)
    (j : Json) (stack : List Frame) (rest : List Token) :
    (fieldTokens fields ++ .closeObject :: rest).foldlM readStep
        ⟨.behind j, .field before k :: stack⟩ =
      rest.foldlM readStep
        ⟨.behind (.object (before ++ (k, j) :: fields.map fun f => (f.1, norm f.2))), stack⟩ := by
  induction fields generalizing k j before with
  | nil =>
    have hk : k ∉ Entries.keys before := by
      intro hmem
      exact List.disjoint_of_nodup_append hkeys hmem List.mem_cons_self
    have hstep : readStep ⟨.behind j, .field before k :: stack⟩ .closeObject =
        some ⟨.behind (.object (before ++ [(k, j)])), stack⟩ := by
      rw [← Entries.set_of_notMem hk]
      rfl
    rw [fieldTokens, List.nil_append, foldlM_step hstep]
    rfl
  | cons f fields ih =>
    obtain ⟨hf, hfields⟩ := List.forall_mem_cons.mp h
    have hk : k ∉ Entries.keys before := by
      intro hmem
      exact List.disjoint_of_nodup_append hkeys hmem List.mem_cons_self
    have hstep : readStep ⟨.behind j, .field before k :: stack⟩ .comma =
        some ⟨.key (before ++ [(k, j)]), stack⟩ := by
      rw [← Entries.set_of_notMem hk]
      rfl
    have hlater : (Entries.keys (before ++ [(k, j)]) ++ f.1 :: Entries.keys fields).Nodup := by
      simpa [Entries.keys] using hkeys
    rw [fieldTokens]
    simp only [List.cons_append]
    rw [foldlM_step hstep, foldlM_step rfl, foldlM_step rfl, List.append_assoc,
      hf _ _ _ (.inl rfl), ih hfields _ hlater, List.map_cons, List.append_assoc,
      List.singleton_append]

theorem reads_tokens (h : Sound j) : Reads (tokens j) (norm j) := by
  induction h with
  | null =>
    rw [tokens, norm]
    exact reads_scalar _
  | bool b =>
    rw [tokens, norm]
    exact reads_scalar _
  | number _ =>
    rw [tokens, norm]
    exact reads_scalar _
  | string t =>
    rw [tokens, norm]
    exact reads_scalar _
  | @array items _ ih =>
    intro a stack rest ha
    have hopen : readStep ⟨a, stack⟩ .openArray = some ⟨.valueOrClose, .items [] :: stack⟩ :=
      readStep_begins ha (by simp) stack
    rw [norm, normItems_eq]
    cases items with
    | nil =>
      rw [tokens, List.cons_append, foldlM_step hopen, List.singleton_append, foldlM_step rfl]
      rfl
    | cons j items =>
      obtain ⟨hj, hitems⟩ := List.forall_mem_cons.mp ih
      rw [tokens, List.cons_append, foldlM_step hopen, List.append_assoc, hj _ _ _ (.inr rfl),
        List.append_assoc, List.singleton_append, read_items hitems, List.nil_append,
        List.map_cons]
  | @object fields hkeys _ ih =>
    intro a stack rest ha
    have hopen : readStep ⟨a, stack⟩ .openObject = some ⟨.keyOrClose, stack⟩ :=
      readStep_begins ha (by simp) stack
    rw [norm, normFields_eq]
    cases fields with
    | nil =>
      rw [tokens, List.cons_append, foldlM_step hopen, List.singleton_append, foldlM_step rfl]
      rfl
    | cons f fields =>
      obtain ⟨hf, hfields⟩ := List.forall_mem_cons.mp ih
      rw [tokens]
      simp only [List.cons_append]
      rw [foldlM_step hopen, foldlM_step rfl, foldlM_step rfl, List.append_assoc,
        hf _ _ _ (.inl rfl), List.append_assoc, List.singleton_append,
        read_fields hfields [] hkeys, List.nil_append, List.map_cons]

theorem parse_stringify (h : Sound j) : parse (stringify j) = some (norm j) := by
  have hlex := lexes_write h 0 [] (by simp [Delimited])
  have hread := reads_tokens h .value [] [] (.inl rfl)
  rw [List.append_nil] at hlex hread
  have hend : lex .between [] = some [] := rfl
  rw [hend, Option.map_some, List.append_nil] at hlex
  rw [parse, stringify, hlex, Option.bind_some, hread]
  rfl

/-! ## Fields of what comes back -/

theorem get_norm (j : Json) (key : String) : (norm j).get key = (j.get key).map norm := by
  cases j with
  | object fields =>
    rw [norm, normFields_eq]
    change Entries.get (fields.map fun f => (f.1, norm f.2)) (units key) =
      (Entries.get fields (units key)).map norm
    induction fields with
    | nil => rfl
    | cons f fields ih =>
      obtain ⟨k, j⟩ := f
      rw [List.map_cons, Entries.get_cons, Entries.get_cons, ih]
      split_ifs <;> rfl
  | number x => cases x <;> rw [norm] <;> rfl
  | _ => rw [norm]; rfl

theorem text?_norm (j : Json) : (norm j).text? = j.text? := by
  cases j with
  | number x => cases x <;> rw [norm] <;> rfl
  | _ => rw [norm] <;> rfl

theorem number?_norm (j : Json) :
    (norm j).number? =
      (j.number?.filter fun x => x.isFinite).map JsNumber.mapKey := by
  cases j with
  | number x => cases x <;> rw [norm] <;> rfl
  | _ => rw [norm]; rfl

theorem items?_norm (j : Json) : (norm j).items? = j.items?.map (·.map norm) := by
  cases j with
  | array items =>
    rw [norm, normItems_eq]
    rfl
  | number x => cases x <;> rw [norm] <;> rfl
  | _ => rw [norm]; rfl

theorem isObject_norm (j : Json) : (norm j).isObject = j.isObject := by
  cases j with
  | number x => cases x <;> rw [norm] <;> rfl
  | _ => rw [norm] <;> rfl

end ArduConfigurator.Json
