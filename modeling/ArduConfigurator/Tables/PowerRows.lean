import ArduConfigurator.Tables.BandRows

/-! # The rows of the power levels

Which values and labels come back from the rows that are written for them. -/
namespace ArduConfigurator.Tables
open DecimalText
set_option autoImplicit false

structure PowerLevelsWritten (levels : List VtxTablePowerLevel) : Prop where
  few : levels.length ≤ VTX_TABLE_MAX_POWER_LEVELS
  values : ∀ level ∈ levels, roundPower level.value = level.value
  solid : ∀ level ∈ levels, Solid level.label
  short : ∀ level ∈ levels, level.label.length ≤ VTX_TABLE_POWER_LABEL_LEN
  uncommented : ∀ level ∈ levels, HASH ∉ level.label
  quotes : QuotesLast (levels.map VtxTablePowerLevel.label)

def labelsText (levels : List VtxTablePowerLevel) : Text := joinWith SPACE (levels.map powerLabel)

def readPower (value : JsNumber) : JsNumber := roundPower (cliNumber (some (numberToString value)))

theorem readPower_eq {value : JsNumber} (h : value.IsDouble) :
    readPower value = roundPower value := by
  rw [readPower, cliNumber_of_plain (plain_numberToString value), JsNumber.readLiteral_text h]
  cases value with
  | nan => rfl
  | infinite negative => rfl
  | finite negative q =>
    by_cases hq : q = 0
    · subst hq
      cases negative with
      | false => rfl
      | true => decide +kernel
    · rw [JsNumber.mapKey]
      simp [hq]

/-! ## Counting quotes -/

theorem count_joinWith (words : List Text) :
    (joinWith SPACE words).count QUOTE = words.flatten.count QUOTE := by
  induction words with
  | nil => rfl
  | cons word words ih =>
    cases words with
    | nil => simp [joinWith]
    | cons word' words =>
      have hspace : (SPACE :: joinWith SPACE (word' :: words)).count QUOTE =
          (joinWith SPACE (word' :: words)).count QUOTE := List.count_cons_of_ne (by decide)
      rw [joinWith_cons_cons, List.count_append, hspace, ih, ← List.count_append, ← List.flatten_cons]

theorem count_flatten_le {as bs : List Text} (hlength : bs.length ≤ as.length)
    (h : ∀ i a, as[i]? = some a → a.count QUOTE ≤ (bs.getD i []).count QUOTE) :
    as.flatten.count QUOTE ≤ bs.flatten.count QUOTE := by
  induction as generalizing bs with
  | nil => exact Nat.zero_le _
  | cons a as ih =>
    have hfirst := h 0 a rfl
    rw [List.flatten_cons, List.count_append]
    cases bs with
    | nil =>
      have hrest : as.flatten.count QUOTE ≤ ([] : List Text).flatten.count QUOTE :=
        ih (Nat.zero_le _) fun i a' ha' => h (i + 1) a' ha'
      rw [List.getD_nil, List.count_nil] at hfirst
      omega
    | cons b bs =>
      have hrest : as.flatten.count QUOTE ≤ bs.flatten.count QUOTE :=
        ih (by simpa using hlength) fun i a' ha' => h (i + 1) a' ha'
      rw [List.getD_cons_zero] at hfirst
      rw [List.flatten_cons, List.count_append]
      omega

theorem count_powerLabel (level : VtxTablePowerLevel) :
    (powerLabel level).count QUOTE = level.label.count QUOTE := by
  rw [powerLabel]
  split
  · next hempty =>
    rw [hempty, List.count_nil]
    exact List.count_eq_zero.mpr (plain_numberToString _).no_quote
  · rfl

theorem count_labelsText (levels : List VtxTablePowerLevel) :
    (labelsText levels).count QUOTE =
      (levels.map VtxTablePowerLevel.label).flatten.count QUOTE := by
  rw [labelsText, count_joinWith]
  induction levels with
  | nil => rfl
  | cons level levels ih =>
    rw [List.map_cons, List.map_cons, List.flatten_cons, List.flatten_cons, List.count_append,
      List.count_append, ih, count_powerLabel]

/-! ## Reading the rows -/

section
variable {levels : List VtxTablePowerLevel} {line : Text}

theorem labels_of_powerLevels {values : List JsNumber} {tokens : List Text}
    (hvalues : values.length = levels.length) (h : powerLevels values tokens = levels) :
    tokens.length ≤ levels.length ∧ ∀ i level, levels[i]? = some level →
      level.value = values.getD i 0 ∧
        level.label = (tokens.getD i (numberToString (values.getD i 0))).take
          VTX_TABLE_POWER_LABEL_LEN := by
  have hlength := congrArg List.length h
  rw [powerLevels, List.length_map, List.length_range] at hlength
  refine ⟨by omega, fun i level hi => ?_⟩
  have hlt : i < max values.length tokens.length := by
    rw [hlength]
    exact (List.getElem?_eq_some_iff.mp hi).1
  rw [← h, powerLevels, List.getElem?_map, List.getElem?_range hlt, Option.map_some,
    Option.some.injEq] at hi
  rw [← hi]
  exact ⟨rfl, rfl⟩

theorem labelsText_eq (h : ∀ level ∈ levels, Solid level.label) :
    labelsText levels = joinWith SPACE (levels.map VtxTablePowerLevel.label) := by
  rw [labelsText]
  congr 1
  refine List.map_congr_left fun level hlevel => ?_
  rw [powerLabel, if_neg (h level hlevel).1]

theorem mem_labelsText_of_solid (h : ∀ level ∈ levels, Solid level.label) {c : UInt16}
    (hc : c ∈ labelsText levels) :
    isLineTerminator c = false ∧ (c = SPACE ∨ ∃ level ∈ levels, c ∈ level.label) := by
  rw [labelsText_eq h] at hc
  obtain rfl | ⟨label, hlabel, hc⟩ := mem_joinWith hc
  · exact ⟨by decide, .inl rfl⟩
  · obtain ⟨level, hlevel, rfl⟩ := List.mem_map.mp hlabel
    have hspace := (h level hlevel).2 c hc
    refine ⟨Bool.eq_false_iff.mpr fun hterminator => ?_, .inr ⟨level, hlevel, hc⟩⟩
    rw [terminator_isWhiteSpace hterminator] at hspace
    cases hspace

theorem line_eq_of_solid (h : ∀ level ∈ levels, Solid level.label)
    (hline : labelsText levels = line ∨ labelsText levels = line ++ [CARRIAGE_RETURN]) :
    line = labelsText levels := by
  obtain rfl | hreturn := hline
  · rfl
  · have hmem : CARRIAGE_RETURN ∈ labelsText levels := by
      rw [hreturn]
      exact List.mem_append_right _ List.mem_cons_self
    exact absurd (mem_labelsText_of_solid h hmem).1 (by decide)

theorem scan_labelsText (h : PowerLevelsWritten levels) :
    scan .between (stripComment (labelsText levels)) = levels.map VtxTablePowerLevel.label := by
  have hhash : HASH ∉ labelsText levels := by
    intro hmem
    obtain ⟨-, hspace | ⟨level, hlevel, hmem⟩⟩ := mem_labelsText_of_solid h.solid hmem
    · exact absurd hspace (by decide)
    · exact h.uncommented level hlevel hmem
  rw [stripComment_of_no_hash hhash, labelsText_eq h.solid]
  refine scan_joinWith (fun label hlabel => ?_) h.quotes
  obtain ⟨level, hlevel, rfl⟩ := List.mem_map.mp hlabel
  exact h.solid level hlevel

theorem powerLevels_written (hdouble : ∀ level ∈ levels, level.value.IsDouble)
    (h : PowerLevelsWritten levels) :
    powerLevels (levels.map fun level => readPower level.value)
      (scan .between (stripComment (labelsText levels))) = levels := by
  rw [scan_labelsText h, powerLevels, List.length_map, List.length_map, Nat.max_self]
  refine List.ext_getElem (by simp) fun i hi hi' => ?_
  have hlevel := List.getElem_mem hi'
  have hlabel : (levels[i]).label.take VTX_TABLE_POWER_LABEL_LEN = (levels[i]).label :=
    List.take_of_length_le (h.short _ hlevel)
  have hvalue : readPower (levels[i]).value = (levels[i]).value := by
    rw [readPower_eq (hdouble _ hlevel), h.values _ hlevel]
  simp [hi', hlabel, hvalue]

theorem written_of_powerLevels (hdouble : ∀ level ∈ levels, level.value.IsDouble)
    (hline : labelsText levels = line ∨ labelsText levels = line ++ [CARRIAGE_RETURN])
    (h : powerLevels (levels.map fun level => readPower level.value)
      (scan .between (stripComment line)) = levels)
    (hfew : levels.length ≤ VTX_TABLE_MAX_POWER_LEVELS) : PowerLevelsWritten levels := by
  obtain ⟨hlength, hlevels⟩ := labels_of_powerLevels (List.length_map _) h
  generalize htokens : scan .between (stripComment line) = tokens at hlength hlevels
  obtain ⟨cut, hcut⟩ := stripComment_isStart line
  -- no quote is lost between the labels and the tokens
  have hcount : (labelsText levels).count QUOTE ≤ tokens.flatten.count QUOTE := by
    rw [count_labelsText]
    refine count_flatten_le (by rw [List.length_map]; exact hlength) fun i label hi => ?_
    rw [List.getElem?_map, Option.map_eq_some_iff] at hi
    obtain ⟨level, hi, rfl⟩ := hi
    rw [(hlevels i level hi).2]
    refine ((List.take_sublist _ _).count_le QUOTE).trans ?_
    simp only [List.getD_eq_getElem?_getD]
    cases tokens[i]? with
    | none => exact (List.count_eq_zero.mpr (plain_numberToString _).no_quote).le
    | some token => exact Nat.le_refl _
  have hline' : line.count QUOTE ≤ (labelsText levels).count QUOTE := by
    obtain hline | hline := hline
    · rw [hline]
    · rw [hline, List.count_append]
      exact Nat.le_add_right _ _
  have hstrip : (stripComment line).count QUOTE ≤ line.count QUOTE := by
    conv_rhs => rw [← hcut, List.count_append]
    exact Nat.le_add_right _ _
  have htokensSolid : ∀ token ∈ tokens, Solid token := by
    obtain hsolid | hlt := solid_or_count_scan_lt .between (stripComment line)
      (fun _ heq => nomatch heq) (fun _ => Reading.noConfusion)
    · rw [htokens] at hsolid
      exact hsolid
    · rw [htokens, Reading.held, List.count_nil] at hlt
      omega
  have hlabel : ∀ (i : ℕ) (level : VtxTablePowerLevel), levels[i]? = some level → ∃ text, Solid text ∧
      (text ∈ tokens ∨ HASH ∉ text) ∧ level.label = text.take VTX_TABLE_POWER_LABEL_LEN := by
    intro i level hi
    refine ⟨_, ?_, ?_, (hlevels i level hi).2⟩
    · rw [List.getD_eq_getElem?_getD]
      cases htoken : tokens[i]? with
      | none => exact (plain_numberToString _).solid
      | some token => exact htokensSolid token (List.mem_of_getElem? htoken)
    · rw [List.getD_eq_getElem?_getD]
      cases htoken : tokens[i]? with
      | none => exact .inr (plain_numberToString _).no_hash
      | some token => exact .inl (List.mem_of_getElem? htoken)
  have hsolid : ∀ level ∈ levels, Solid level.label := by
    intro level hlevel
    obtain ⟨i, hi⟩ := List.mem_iff_getElem?.mp hlevel
    obtain ⟨text, ⟨hne, hall⟩, -, htake⟩ := hlabel i level hi
    obtain ⟨c, text, rfl⟩ := List.exists_cons_of_ne_nil hne
    rw [htake]
    exact ⟨List.cons_ne_nil _ _, fun d hd => hall d (List.mem_of_mem_take hd)⟩
  have hlineEq := line_eq_of_solid hsolid hline
  have huncommented : ∀ level ∈ levels, HASH ∉ level.label := by
    intro level hlevel hmem
    obtain ⟨i, hi⟩ := List.mem_iff_getElem?.mp hlevel
    obtain ⟨text, -, hfrom, htake⟩ := hlabel i level hi
    rw [htake] at hmem
    have hhash := List.mem_of_mem_take hmem
    obtain htoken | hno := hfrom
    · obtain ⟨a, b, hab⟩ := List.append_of_mem (mem_of_mem_scan htokens htoken HASH hhash)
      obtain ⟨d, hd, hterminator⟩ := terminator_of_stripComment hab (by rw [← hab, hcut])
      have hmem' : d ∈ labelsText levels := by
        rw [← hlineEq, ← hcut, hab, List.append_assoc]
        exact List.mem_append_right _ (List.mem_cons_of_mem _ hd)
      rw [(mem_labelsText_of_solid hsolid hmem').1] at hterminator
      cases hterminator
    · exact hno hhash
  refine ⟨hfew, fun level hlevel => ?_, hsolid, fun level hlevel => ?_, huncommented, ?_⟩
  · obtain ⟨i, hi⟩ := List.mem_iff_getElem?.mp hlevel
    have hvalue := (hlevels i level hi).1
    rw [List.getD_eq_getElem?_getD, List.getElem?_map, hi, Option.map_some, Option.getD_some,
      readPower_eq (hdouble level hlevel)] at hvalue
    exact hvalue.symm
  · obtain ⟨i, hi⟩ := List.mem_iff_getElem?.mp hlevel
    rw [(hlevels i level hi).2, List.length_take]
    exact Nat.min_le_left _ _
  · have hlabels : ∀ label ∈ levels.map VtxTablePowerLevel.label, Solid label := by
      intro label hmem
      obtain ⟨level, hlevel, rfl⟩ := List.mem_map.mp hmem
      exact hsolid level hlevel
    obtain hlast | hlt := quotesLast_or_count_scan_lt hlabels
    · exact hlast
    · have hhash : HASH ∉ labelsText levels := by
        intro hmem
        obtain ⟨-, hspace | ⟨level, hlevel, hmem⟩⟩ := mem_labelsText_of_solid hsolid hmem
        · exact absurd hspace (by decide)
        · exact huncommented level hlevel hmem
      rw [← labelsText_eq hsolid] at hlt
      rw [hlineEq, stripComment_of_no_hash hhash] at htokens
      rw [htokens] at hlt
      omega

end

end ArduConfigurator.Tables
