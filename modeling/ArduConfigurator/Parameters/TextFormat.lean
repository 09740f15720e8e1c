import ArduConfigurator.Parameters.Backup

/-! # What the text formats write and what is read from them

A value is written with the digits it is read from; a line of an entry is read as that entry; the
entries of a text are those of its lines. -/
namespace ArduConfigurator.Parameters
open DecimalText
set_option autoImplicit false

/-! ## Characters -/

variable {c : UInt16}

theorem isSeparator_of_range (hlo : 0x2D ≤ c.toNat) (hhi : c.toNat < 0x80) :
    isSeparator c = false := by
  have hne : ∀ d : UInt16, (d.toNat < 0x2D ∨ 0x80 ≤ d.toNat) → c ≠ d := by
    rintro d hd rfl
    omega
  simp only [isSeparator, isWhiteSpace, UInt16.le_iff_toNat_le, Bool.or_eq_false_iff,
    decide_eq_false_iff_not, not_or, not_and]
  refine ⟨⟨fun _ => ?_, hne _ ?_, hne _ ?_, hne _ ?_, fun h => ?_, hne _ ?_, hne _ ?_, hne _ ?_,
    hne _ ?_, hne _ ?_, hne _ ?_⟩, hne _ ?_⟩
  all_goals first | decide | skip
  · have : (0x0D : UInt16).toNat = 13 := rfl
    omega
  · have : (0x2000 : UInt16).toNat = 8192 := rfl
    omega

def IsWordUnit (c : UInt16) : Prop := isSeparator c = false ∧ c ≠ HASH

theorem isWordUnit_of_range (hlo : 0x2D ≤ c.toNat) (hhi : c.toNat < 0x80) :
    IsWordUnit c := by
  refine ⟨isSeparator_of_range hlo hhi, ?_⟩
  rintro rfl
  revert hlo
  decide

theorem isWordUnit_digit (h : isDigit c = true) : IsWordUnit c := by
  obtain ⟨hlo, hhi⟩ := isDigit_iff.mp h
  exact isWordUnit_of_range (by omega) (by omega)

theorem isWordUnit_numeral (h : isNumeralUnit c = true) : IsWordUnit c := by
  simp only [isNumeralUnit, Bool.or_eq_true, decide_eq_true_eq] at h
  rcases h with ((((h | rfl) | rfl) | rfl) | rfl) | rfl
  · exact isWordUnit_digit h
  all_goals exact ⟨by decide, by decide⟩

theorem isUpper_iff : isUpper c = true ↔ 0x41 ≤ c.toNat ∧ c.toNat ≤ 0x5A := by
  simp [isUpper, UInt16.le_iff_toNat_le]

theorem isWordUnit_upper (h : isUpper c = true) : IsWordUnit c := by
  obtain ⟨hlo, hhi⟩ := isUpper_iff.mp h
  exact isWordUnit_of_range (by omega) (by omega)

def IsWord (t : Text) : Prop := t ≠ [] ∧ ∀ c ∈ t, IsWordUnit c

variable {t : Text}

theorem IsWord.tokensOf (h : IsWord t) : tokensOf t = [t] :=
  tokensOf_word h.1 fun c hc => (h.2 c hc).1

variable {id : Text}

theorem isWord_parameterId (h : isParameterId id = true) : IsWord id := by
  cases id with
  | nil => cases h
  | cons c rest =>
    obtain ⟨hc, hrest⟩ := Bool.and_eq_true_iff.mp h
    refine ⟨by simp, List.forall_mem_cons.mpr ⟨isWordUnit_upper hc, fun d hd => ?_⟩⟩
    have hd := List.all_eq_true.mp hrest d hd
    simp only [Bool.or_eq_true, decide_eq_true_eq] at hd
    rcases hd with (hd | hd) | rfl
    · exact isWordUnit_upper hd
    · exact isWordUnit_digit hd
    · exact ⟨by decide, by decide⟩

theorem isWord_natDigits (n : ℕ) : IsWord (natDigits n) :=
  ⟨natDigits_ne_nil n, fun c hc => isWordUnit_digit (digits_natDigits n c hc)⟩

theorem not_parameterId_natDigits (n : ℕ) : isParameterId (natDigits n) = false := by
  cases hn : natDigits n with
  | nil => rfl
  | cons c rest =>
    have hc : isDigit c = true := digits_natDigits n c (by rw [hn]; exact List.mem_cons_self)
    obtain ⟨hlo, hhi⟩ := isDigit_iff.mp hc
    have hupper : isUpper c = false := by
      rw [Bool.eq_false_iff]
      intro hupper
      have := (isUpper_iff.mp hupper).1
      omega
    rw [isParameterId, hupper, Bool.false_and]

/-! ## Values -/

def readBack (value : JsNumber) : JsNumber := toNumber (formatBackupValue value)

variable {value : JsNumber}

theorem isWord_formatBackupValue (h : isFinite value = true) :
    IsWord (formatBackupValue value) := by
  cases value with
  | nan => cases h
  | infinite negative => cases h
  | finite negative q =>
    have hunits : formatBackupValue (.finite negative q) ≠ [] ∧
        ∀ c ∈ formatBackupValue (.finite negative q), isNumeralUnit c = true := by
      rw [formatBackupValue]
      split_ifs with hint
      · exact units_numberToString negative q
      · refine units_toPrecision 7 negative (pos_iff_ne_zero.mpr ?_)
        rintro rfl
        exact hint rfl
    exact ⟨hunits.1, fun c hc => isWordUnit_numeral (hunits.2 c hc)⟩

theorem toNumber_word (h : IsWord t) : toNumber t = readLiteral t := by
  have hsolid : Solid t := by
    refine ⟨h.1, fun c hc => ?_⟩
    have := (h.2 c hc).1
    rw [isSeparator, Bool.or_eq_false_iff] at this
    exact this.1
  rw [toNumber, trim_solid hsolid]

variable {negative : Bool} {q : ℚ≥0}

theorem binary64_of_binary32 (h : binary32.Holds (.finite negative q)) :
    binary64.Holds (.finite false q) := by
  obtain ⟨p, -, hp⟩ := h
  rw [FloatFormat.value] at hp
  split_ifs at hp with hlt
  obtain ⟨-, rfl⟩ := JsNumber.finite.inj hp
  generalize p % binary32.signBit = m at hlt ⊢
  have hscaled (s e : ℕ) (hs : s < 2 ^ 24) (he : 1 ≤ e) (he' : e < 255) :
      ∃ u < binary64.infinity, binary64.magnitude u = (s : ℚ≥0) * binary32.unit e := by
    obtain rfl | hpos := Nat.eq_zero_or_pos s
    · exact ⟨0, by decide, by simp [FloatFormat.magnitude]⟩
    · have hunit : binary32.unit e = (2 : ℚ≥0) ^ ((e : ℤ) - 150) := by
        rw [FloatFormat.unit]
        congr 1
        change (e : ℤ) - 127 - 23 = _
        ring
      rw [hunit]
      have hbias : binary64.bias = 1023 := by decide
      refine FloatFormat.exists_magnitude hpos (hs.trans (by decide)) ?_ ?_
      · rw [hbias]
        omega
      · rw [hbias]
        change (e : ℤ) - 150 + 1023 + 52 + 2 ≤ 2 ^ 11
        omega
  have hmod : m % 2 ^ binary32.fractionBits < 2 ^ 23 := Nat.mod_lt _ (by decide)
  have hexp : m / 2 ^ binary32.fractionBits < 255 :=
    (Nat.div_lt_iff_lt_mul (by decide)).mpr hlt
  obtain ⟨u, hu, hmag⟩ : ∃ u < binary64.infinity,
      binary64.magnitude u = binary32.magnitude m := by
    rw [FloatFormat.magnitude.eq_def binary32]
    simp only
    split_ifs with hzero
    · refine hscaled m 1 ?_ le_rfl (by omega)
      have := Nat.div_add_mod m (2 ^ binary32.fractionBits)
      rw [hzero] at this
      omega
    · refine hscaled _ _ ?_ (Nat.pos_of_ne_zero hzero) hexp
      change 2 ^ 23 + _ < _
      omega
  rw [← hmag]
  exact FloatFormat.holds_magnitude hu false

theorem readBack_integer (h : binary32.Holds (.finite negative q)) (hint : q.den = 1) :
    readBack (.finite negative q) = .finite (negative && q ≠ 0) q := by
  have hformat : formatBackupValue (.finite negative q) = numberToString (.finite negative q) := by
    rw [formatBackupValue, if_pos (by simpa [isInteger] using hint)]
  rw [readBack, toNumber_word (isWord_formatBackupValue rfl), hformat]
  exact readLiteral_numberToString (binary64_of_binary32 h)

theorem readBack_fraction (hint : q.den ≠ 1) :
    readBack (.finite negative q) = nearestDouble negative (toDigits 7 q) := by
  have hpos : 0 < q := by
    refine pos_iff_ne_zero.mpr ?_
    rintro rfl
    exact hint rfl
  have hformat : formatBackupValue (.finite negative q) =
      trimFraction (toPrecision 7 (.finite negative q)) := by
    rw [formatBackupValue, if_neg (by simpa [isInteger] using hint)]
  rw [readBack, toNumber_word (isWord_formatBackupValue rfl), hformat]
  exact readLiteral_toPrecision (by decide) hpos

theorem isFinite_readBack (hfinite : isFinite value = true) (hsingle : binary32.Holds value) :
    isFinite (readBack value) = true := by
  cases value with
  | nan => cases hfinite
  | infinite negative => cases hfinite
  | finite negative q =>
    by_cases hint : q.den = 1
    · rw [readBack_integer hsingle hint]
      rfl
    have hpos : 0 < q := by
      refine pos_iff_ne_zero.mpr ?_
      rintro rfl
      exact hint rfl
    have hmax : ((2 ^ (binary32.fractionBits + 1) - 1 : ℕ) : ℚ≥0) *
        binary32.unit (2 ^ binary32.exponentBits - 2) < 2 ^ 128 := by
      decide +kernel
    have hlt : toDigits 7 q < 2 ^ binary64.bias := by
      calc toDigits 7 q ≤ 10 * q := toDigits_le (by decide) hpos
        _ ≤ 10 * 2 ^ 128 :=
          mul_le_mul_of_nonneg_left ((hsingle.magnitude_le (by decide)).trans hmax.le) zero_le
        _ < 2 ^ 132 := by norm_num
        _ ≤ 2 ^ binary64.bias := pow_le_pow_right₀ (by norm_num) (by decide)
    rw [readBack_fraction hint, nearestDouble_eq,
      if_pos (FloatFormat.roundMagnitude_lt (by decide) hlt)]
    rfl

/-! ## Lines -/

theorem idAndValue_append {before rest : List Text} {value : Text}
    (hbefore : ∀ t ∈ before, isParameterId t = false) (hid : isParameterId id = true) :
    idAndValue (before ++ id :: value :: rest) = some (id, value) := by
  have hdrop : (before ++ id :: value :: rest).dropWhile (fun token => !isParameterId token) =
      id :: value :: rest := by
    rw [List.dropWhile_append_of_pos fun t ht => by simp [hbefore t ht],
      List.dropWhile_cons_of_neg (by simp [hid])]
  rw [idAndValue, hdrop]

theorem isParameterId_of_idAndValue {tokens : List Text} {value : Text}
    (h : idAndValue tokens = some (id, value)) : isParameterId id = true := by
  rw [idAndValue] at h
  split at h
  · rename_i first second rest hdrop
    obtain ⟨rfl, -⟩ := Prod.mk.inj (Option.some.inj h)
    have hne : tokens.dropWhile (fun token => !isParameterId token) ≠ [] := by simp [hdrop]
    have hhead := List.head_dropWhile_not (fun token => !isParameterId token) hne
    simpa [hdrop] using hhead
  · cases h

variable {line : Text}

theorem isParameterId_of_lineEntry (h : lineEntry line = some (id, value)) :
    isParameterId id = true := by
  simp only [lineEntry] at h
  split_ifs at h
  split at h
  · cases h
  · rename_i candidate token heq
    split_ifs at h
    obtain ⟨rfl, -⟩ := Prod.mk.inj (Option.some.inj h)
    exact isParameterId_of_idAndValue heq

theorem lineEntry_of_tokens {value : Text} (before rest : List Text) (hhash : ∀ c ∈ line, c ≠ HASH)
    (htokens : tokensOf line = before ++ id :: value :: rest)
    (hbefore : ∀ t ∈ before, isParameterId t = false) (hid : isParameterId id = true) :
    lineEntry line =
      if isFinite (toNumber value) then some (id, toNumber value) else none := by
  have htake : line.takeWhile (· ≠ HASH) = line := by
    rw [List.takeWhile_eq_self_iff]
    exact fun c hc => by simpa using hhash c hc
  have hlen : ¬ (tokensOf (trim line)).length < 2 := by
    rw [tokensOf_trim, htokens, List.length_append, List.length_cons, List.length_cons]
    omega
  have hne : trim line ≠ [] := by
    intro hnil
    rw [hnil, tokensOf_nil] at hlen
    exact hlen (by decide)
  rw [lineEntry, htake, if_neg hne, if_neg hlen, tokensOf_trim, htokens,
    idAndValue_append hbefore hid]

variable {entry : ParameterBackupEntry}

theorem tokensOf_parmLine (hid : isParameterId entry.id = true)
    (hvalue : isFinite entry.value = true) :
    tokensOf (parmLine entry) = [entry.id, formatBackupValue entry.value] := by
  have hcomma : parmLine entry = entry.id ++ COMMA :: formatBackupValue entry.value := by
    simp [parmLine, units, COMMA]
  rw [hcomma, tokensOf_append_cons (by decide), (isWord_parameterId hid).tokensOf,
    (isWord_formatBackupValue hvalue).tokensOf]
  rfl

def TAB : UInt16 := 0x09

theorem paramsLine_eq (systemId componentId : ℕ) (entry : ParameterBackupEntry) :
    paramsLine systemId componentId entry = natDigits systemId ++ TAB :: (natDigits componentId ++
      TAB :: (entry.id ++ TAB :: (formatBackupValue entry.value ++ TAB :: units "9"))) := by
  simp [paramsLine, units, TAB]

theorem tokensOf_paramsLine (systemId componentId : ℕ) (hid : isParameterId entry.id = true)
    (hvalue : isFinite entry.value = true) :
    tokensOf (paramsLine systemId componentId entry) =
      [natDigits systemId, natDigits componentId, entry.id, formatBackupValue entry.value,
        units "9"] := by
  have htab : isSeparator TAB = true := by decide
  have hnine : tokensOf (units "9") = [units "9"] :=
    tokensOf_word (by decide) (List.forall_mem_singleton.mpr (by decide))
  rw [paramsLine_eq, tokensOf_append_cons htab, tokensOf_append_cons htab,
    tokensOf_append_cons htab, tokensOf_append_cons htab, (isWord_natDigits _).tokensOf,
    (isWord_natDigits _).tokensOf, (isWord_parameterId hid).tokensOf,
    (isWord_formatBackupValue hvalue).tokensOf, hnine]
  rfl


/-! ## Texts -/

def textEntries (t : Text) : List (Text × JsNumber) := (splitLines t).filterMap lineEntry

theorem textEntries_append_feed (a b : Text) :
    textEntries (a ++ LINE_FEED :: b) = textEntries (a ++ [LINE_FEED]) ++ textEntries b := by
  obtain ⟨lines, -, hend, hsplit⟩ := splitLines_append_feed a b
  have hnil : [([] : Text)].filterMap lineEntry = [] := rfl
  rw [textEntries, textEntries, textEntries, hend, hsplit, List.filterMap_append,
    List.filterMap_append, hnil, List.append_nil]

theorem textEntries_joinLines (lines : List Text) :
    textEntries (joinLines lines) =
      lines.flatMap fun line => textEntries (line ++ [LINE_FEED]) := by
  induction lines with
  | nil => rfl
  | cons line lines ih =>
    cases lines with
    | nil => simp [joinLines, List.intercalate]
    | cons next lines =>
      have hjoin : joinLines (line :: next :: lines) =
          line ++ LINE_FEED :: joinLines (next :: lines) := by
        simp [joinLines, List.intercalate, List.intersperse]
      rw [hjoin, textEntries_append_feed, ih]
      rfl

theorem textEntries_line (h : ∀ c ∈ line, c ≠ LINE_FEED ∧ c ≠ CARRIAGE_RETURN) :
    textEntries (line ++ [LINE_FEED]) = (lineEntry line).toList := by
  have hnil : lineEntry [] = none := rfl
  rw [textEntries, splitLines_line h, splitLines]
  cases hline : lineEntry line with
  | none => rw [List.filterMap_cons_none hline]; rfl
  | some entry => rw [List.filterMap_cons_some hline]; rfl

theorem isParameterId_of_mem (h : (id, value) ∈ textEntries t) :
    isParameterId id = true := by
  obtain ⟨line, -, hline⟩ := List.mem_filterMap.mp h
  exact isParameterId_of_lineEntry hline

theorem readEntries_eq_ok {lines : List Text} {n : ℕ} {result : List ParameterBackupEntry}
    (entries : List ParameterBackupEntry) (hentries : (entries.map (·.id)).Nodup) :
    readEntries n entries lines = .ok result ↔
      (entries.map (·.id) ++ (lines.filterMap lineEntry).map Prod.fst).Nodup ∧
        result = entries ++ (lines.filterMap lineEntry).map fun e => textEntry e.1 e.2 := by
  induction lines generalizing n entries with
  | nil => simp [readEntries, hentries, eq_comm]
  | cons line lines ih =>
    cases hline : lineEntry line with
    | none => simp only [readEntries, hline, List.filterMap_cons_none hline, ih entries hentries]
    | some entry =>
      obtain ⟨id, value⟩ := entry
      simp only [readEntries, hline, List.filterMap_cons_some hline, List.map_cons]
      have hsplit : entries.map (·.id) ++ id :: (lines.filterMap lineEntry).map Prod.fst =
          (entries ++ [textEntry id value]).map (·.id) ++
            (lines.filterMap lineEntry).map Prod.fst := by
        simp [textEntry]
      by_cases hmem : id ∈ entries.map (·.id)
      · rw [if_pos (by simpa using hmem)]
        refine ⟨nofun, fun h => ?_⟩
        exact absurd (List.nodup_append.mp h.1).2.2 fun hne => hne id hmem id List.mem_cons_self rfl
      · have hnext : ((entries ++ [textEntry id value]).map (·.id)).Nodup := by
          rw [List.map_append, List.nodup_append]
          refine ⟨hentries, by simp, ?_⟩
          rintro a ha b hb rfl
          rw [List.mem_singleton.mp hb] at ha
          exact hmem ha
        rw [if_neg (by simpa using hmem), ih _ hnext, hsplit, List.append_assoc]
        rfl

variable {localeCompare : Text → Text → ℤ} {input : Text}

theorem parseText_eq_ok {now : Text} {backup : ParameterBackupFile}
    (h : parseTextParameterBackup localeCompare input now = .ok backup) :
    ((textEntries input).map Prod.fst).Nodup ∧ textEntries input ≠ [] ∧
      backup.parameters.Perm ((textEntries input).map fun e => textEntry e.1 e.2) := by
  rw [parseTextParameterBackup] at h
  split at h
  · cases h
  · rename_i entries hread
    obtain ⟨hnodup, rfl⟩ := (readEntries_eq_ok [] List.nodup_nil).mp hread
    split_ifs at h with hnil
    cases h
    exact ⟨hnodup, fun hempty => hnil (by simpa [textEntries] using hempty),
      List.perm_insertionSort _ _⟩

theorem parseText_isOk (localeCompare : Text → Text → ℤ) (now : Text)
    (hnodup : ((textEntries input).map Prod.fst).Nodup) (hne : textEntries input ≠ []) :
    ∃ backup, parseTextParameterBackup localeCompare input now = .ok backup := by
  have hread : readEntries 1 [] (splitLines input) =
      .ok ((textEntries input).map fun e => textEntry e.1 e.2) :=
    (readEntries_eq_ok [] List.nodup_nil).mpr ⟨hnodup, rfl⟩
  rw [parseTextParameterBackup, hread]
  simp only
  rw [if_neg (by simpa using hne)]
  exact ⟨_, rfl⟩

end ArduConfigurator.Parameters
