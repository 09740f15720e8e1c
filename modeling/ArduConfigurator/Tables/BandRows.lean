import ArduConfigurator.Tables.CliTokens
import ArduConfigurator.Tables.VtxRoundTrip

/-! # The row of a band

What is read from the line that is written for a band, and which bands come back from it. -/
namespace ArduConfigurator.Tables
open DecimalText
set_option autoImplicit false

/-! ## Numbers in a line -/

def Plain (text : Text) : Prop :=
  text ≠ [] ∧ ∀ c ∈ text, isWhiteSpace c = false ∧ c ≠ HASH ∧ c ≠ QUOTE

variable {text : Text}

theorem Plain.solid (h : Plain text) : Solid text := ⟨h.1, fun c hc => (h.2 c hc).1⟩

theorem Plain.no_quote (h : Plain text) : QUOTE ∉ text :=
  fun hmem => (h.2 _ hmem).2.2 rfl

theorem Plain.no_hash (h : Plain text) : HASH ∉ text :=
  fun hmem => (h.2 _ hmem).2.1 rfl

variable {c : UInt16}

theorem terminator_isWhiteSpace (h : isLineTerminator c = true) :
    isWhiteSpace c = true := by
  simp only [isLineTerminator, decide_eq_true_eq] at h
  obtain rfl | rfl | rfl | rfl := h
  · decide
  · decide
  · decide
  · decide

theorem plain_of_numeralUnits (hne : text ≠ []) (h : ∀ c ∈ text, isNumeralUnit c = true) :
    Plain text := by
  refine ⟨hne, fun c hc => ?_⟩
  have hunit := h c hc
  simp only [isNumeralUnit, isDigit, Bool.or_eq_true, decide_eq_true_eq] at hunit
  obtain ((((⟨hlo, hhi⟩ | rfl) | rfl) | rfl) | rfl) | rfl := hunit
  · have hlo' : (0x30 : ℕ) ≤ c.toNat := UInt16.le_iff_toNat_le.mp hlo
    have hhi' : c.toNat ≤ 0x39 := UInt16.le_iff_toNat_le.mp hhi
    have hne (d : UInt16) (hd : d.toNat < 0x30 ∨ 0x39 < d.toNat) : c ≠ d := by
      rintro rfl
      omega
    refine ⟨?_, hne _ (.inl (by decide)), hne _ (.inl (by decide))⟩
    simp only [isWhiteSpace, decide_eq_false_iff_not, not_or, not_and, UInt16.le_iff_toNat_le]
    refine ⟨fun _ => ?_, hne _ (.inl (by decide)), hne _ (.inr (by decide)), hne _ (.inr (by decide)),
      fun hbig => ?_, hne _ (.inr (by decide)), hne _ (.inr (by decide)), hne _ (.inr (by decide)),
      hne _ (.inr (by decide)), hne _ (.inr (by decide)), hne _ (.inr (by decide))⟩
    · change ¬ c.toNat ≤ 0x0D
      omega
    · change 0x2000 ≤ c.toNat at hbig
      omega
  · decide
  · decide
  · decide
  · decide
  · decide

theorem plain_numberToString (x : JsNumber) : Plain (numberToString x) := by
  cases x with
  | nan => exact ⟨by decide, by decide⟩
  | infinite negative =>
    cases negative with
    | false => exact ⟨by decide, by decide⟩
    | true => exact ⟨by decide, by decide⟩
  | finite negative q =>
    exact plain_of_numeralUnits (units_numberToString negative q).1 (units_numberToString negative q).2

theorem plain_countText (n : ℕ) : Plain (countText n) := plain_numberToString _

theorem cliNumber_of_plain (h : Plain text) :
    cliNumber (some text) = readLiteral text := by
  rw [cliNumber, trim_solid h.solid]

theorem cliNumber_countText {n : ℕ} (h : n < 2 ^ 53) :
    cliNumber (some (countText n)) = .finite false n := by
  rw [cliNumber_of_plain (plain_countText n), countText,
    readLiteral_numberToString (JsNumber.holds_natCast h)]
  rfl

theorem roundFrequency_natCast (n : ℕ) : roundFrequency (.finite false (n : ℚ≥0)) = n := by
  rw [roundFrequency, Nat.floor_eq_iff (by positivity)]
  constructor
  · exact le_add_of_nonneg_right (by positivity)
  · gcongr
    norm_num

/-! ## The parts of the line -/

def letterText (letter : Text) : Text := if letter = [] then units "?" else letter

def flagText (isFactory : Bool) : Text := if isFactory then units "FACTORY" else units "CUSTOM"

def frequencyTexts (n : ℕ) (frequencies : List ℕ) : List Text :=
  (List.range n).map fun c => countText (frequencies.getD c 0)

def bandHead (index : ℕ) : Text :=
  units "vtxtable" ++ SPACE :: (units "band" ++ SPACE :: (countText index ++ [SPACE]))

def bandEnd (n : ℕ) (band : VtxTableBand) : Text :=
  SPACE :: (flagText band.isFactory ++ SPACE :: joinWith SPACE (frequencyTexts n band.frequencies))

def bandRest (n : ℕ) (band : VtxTableBand) : Text :=
  quote band.name ++ SPACE :: (letterText band.letter ++ bandEnd n band)

theorem bandLine_eq (n index : ℕ) (band : VtxTableBand) :
    bandLine n index band = bandHead index ++ bandRest n band := by
  have hband : units "vtxtable band " = units "vtxtable" ++ SPACE :: (units "band" ++ [SPACE]) := by
    decide
  rw [bandLine, hband]
  simp only [bandHead, bandRest, bandEnd, letterText, flagText, frequencyTexts, List.append_assoc,
    List.cons_append, List.nil_append]

theorem plain_flagText (isFactory : Bool) : Plain (flagText isFactory) := by
  cases isFactory with
  | false => exact ⟨by decide, by decide⟩
  | true => exact ⟨by decide, by decide⟩

theorem plain_frequencyTexts (n : ℕ) (frequencies : List ℕ) :
    ∀ text ∈ frequencyTexts n frequencies, Plain text := by
  intro text htext
  obtain ⟨c, -, rfl⟩ := List.mem_map.mp htext
  exact plain_countText _

theorem mem_bandEnd {n : ℕ} {band : VtxTableBand} (h : c ∈ bandEnd n band) :
    isLineTerminator c = false ∧ c ≠ HASH ∧ c ≠ QUOTE := by
  have hplain {text : Text} (htext : Plain text) (hc : c ∈ text) :
      isLineTerminator c = false ∧ c ≠ HASH ∧ c ≠ QUOTE := by
    obtain ⟨hspace, hne⟩ := htext.2 c hc
    refine ⟨Bool.eq_false_iff.mpr fun hterminator => ?_, hne⟩
    rw [terminator_isWhiteSpace hterminator] at hspace
    cases hspace
  have hspace (hc : c = SPACE) : isLineTerminator c = false ∧ c ≠ HASH ∧ c ≠ QUOTE := by
    rw [hc]
    decide
  rw [bandEnd, List.mem_cons, List.mem_append, List.mem_cons] at h
  obtain hc | hc | hc | hc := h
  · exact hspace hc
  · exact hplain (plain_flagText _) hc
  · exact hspace hc
  · obtain hc | ⟨text, htext, hc⟩ := mem_joinWith hc
    · exact hspace hc
    · exact hplain (plain_frequencyTexts n _ text htext) hc

theorem scan_plain {words : List Text} (h : ∀ word ∈ words, Plain word) :
    scan .between (joinWith SPACE words) = words := by
  refine scan_joinWith (fun word hword => (h word hword).solid) ?_
  induction words with
  | nil => trivial
  | cons word words ih =>
    obtain ⟨hword, hwords⟩ := List.forall_mem_cons.mp h
    refine ⟨fun hhead => ?_, ih hwords⟩
    exact absurd (List.mem_of_mem_head? hhead) hword.no_quote

theorem scan_plain_cons {word : Text} (h : Plain word) (rest : Text) :
    scan .between (word ++ SPACE :: rest) = word :: scan .between rest :=
  scan_solid h.solid (fun hhead => absurd (List.mem_of_mem_head? hhead) h.no_quote)
    isWhiteSpace_space

def headTokens (index : ℕ) : List Text := [units "vtxtable", units "band", countText index]

theorem scan_bandHead (index : ℕ) (rest : Text) :
    scan .between (bandHead index ++ rest) = headTokens index ++ scan .between rest := by
  have hword : Plain (units "vtxtable") := ⟨by decide, by decide⟩
  have hkind : Plain (units "band") := ⟨by decide, by decide⟩
  simp only [bandHead, List.append_assoc, List.cons_append, List.nil_append]
  rw [scan_plain_cons hword, scan_plain_cons hkind, scan_plain_cons (plain_countText index)]
  rfl

theorem no_hash_bandHead (index : ℕ) : HASH ∉ bandHead index := by
  have hword : HASH ∉ units "vtxtable" := by decide
  have hkind : HASH ∉ units "band" := by decide
  have hspace : HASH ≠ SPACE := by decide
  simp [bandHead, hword, hkind, hspace, (plain_countText index).no_hash]

theorem scan_bandEnd (n : ℕ) (band : VtxTableBand) : scan .between (bandEnd n band) =
    flagText band.isFactory :: frequencyTexts n band.frequencies := by
  rw [bandEnd, scan_space isWhiteSpace_space, scan_plain_cons (plain_flagText _),
    scan_plain (plain_frequencyTexts n _)]

/-! ## What the row gives -/

def Flagged (tokens : List Text) : Prop :=
  bandFlag tokens = units "FACTORY" ∨ bandFlag tokens = units "CUSTOM"

def fitBand (n : ℕ) (band : VtxTableBand) : VtxTableBand :=
  { band with frequencies := fitChannels n band.frequencies }

theorem isVtxRow_headTokens (index : ℕ) (rest : List Text) :
    isVtxRow (headTokens index ++ rest) = true := by
  have hword : toLowerCase (units "vtxtable") = units "vtxtable" := by decide
  simp [isVtxRow, headTokens, hword]

theorem readVtxRow_headTokens {index : ℕ} (hpos : 1 ≤ index) (hindex : index < 2 ^ 53)
    (rest : List Text) (rows : ImportRows) :
    (Flagged (headTokens index ++ rest) → readVtxRow rows (headTokens index ++ rest) =
      .ok { rows with
        bandByIndex := rows.bandByIndex.set index (rowBand (headTokens index ++ rest)) }) ∧
    (¬ Flagged (headTokens index ++ rest) →
      readVtxRow rows (headTokens index ++ rest) = .error (.flagMissing index)) := by
  have hkind : rowKind (headTokens index ++ rest) = units "band" := by
    have hlower : toLowerCase (units "band") = units "band" := by decide
    exact hlower
  have hchannels : units "band" ≠ units "channels" := by decide
  have hnumber : bandIndex (headTokens index ++ rest) = some index := by
    have htoken : cliNumber (headTokens index ++ rest)[2]? = .finite false index :=
      cliNumber_countText hindex
    rw [bandIndex, htoken]
    have hpos' : (1 : ℤ) ≤ index := by omega
    simp [JsNumber.toInt?, hpos']
  rw [readVtxRow, hkind, if_neg hchannels, if_pos rfl, hnumber]
  simp only
  constructor
  · intro hflag
    rw [if_neg]
    rintro ⟨hfactory, hcustom⟩
    exact hflag.elim hfactory hcustom
  · intro hflag
    rw [if_pos]
    exact ⟨fun h => hflag (.inl h), fun h => hflag (.inr h)⟩

theorem length_of_flag (hbytes : ∀ c ∈ text, c.toNat < 256)
    (hflag : toUpperCase text = units "FACTORY" ∨ toUpperCase text = units "CUSTOM") :
    6 ≤ text.length := by
  have hlength : (toUpperCase text).length = text.length + text.count 0xDF ∧
      2 * text.count 0xDF ≤ (toUpperCase text).count 0x53 := by
    clear hflag
    induction text with
    | nil => exact ⟨rfl, Nat.le_refl _⟩
    | cons c text ih =>
      obtain ⟨hc, htext⟩ := List.forall_mem_cons.mp hbytes
      obtain ⟨hlength, hcount⟩ := ih htext
      have hne (d : UInt16) (hd : 256 ≤ d.toNat) : c ≠ d := by
        rintro rfl
        omega
      have hupper : toUpperCase (c :: text) =
          (if 0x61 ≤ c ∧ c ≤ 0x7A then [c - 0x20] else if c = 0xDF then units "SS" else [c]) ++
            toUpperCase text := by
        have hligature : ¬ (c = 0xFB05 ∨ c = 0xFB06) :=
          not_or.mpr ⟨hne 0xFB05 (by decide), hne 0xFB06 (by decide)⟩
        rw [toUpperCase, List.flatMap_cons, if_neg (hne 0x131 (by decide)),
          if_neg (hne 0x17F (by decide)), if_neg (hne 0xFB00 (by decide)),
          if_neg (hne 0xFB01 (by decide)), if_neg (hne 0xFB02 (by decide)),
          if_neg (hne 0xFB03 (by decide)), if_neg (hne 0xFB04 (by decide)), if_neg hligature]
        rfl
      rw [hupper, List.length_append, List.count_append, hlength, List.length_cons, List.count_cons]
      split
      · next hlower =>
        have hsharp : c ≠ 0xDF := by
          rintro rfl
          exact absurd hlower (by decide)
        rw [if_neg (by simpa using hsharp), List.length_singleton]
        omega
      · split
        · next hsharp =>
          have htwo : (units "SS").length = 2 ∧ (units "SS").count 0x53 = 2 := by decide
          rw [if_pos (by simpa using hsharp), htwo.1, htwo.2]
          omega
        · next hsharp =>
          rw [if_neg (by simpa using hsharp), List.length_singleton]
          omega
  obtain ⟨hlength, hcount⟩ := hlength
  obtain hflag | hflag := hflag
  · rw [hflag] at hlength hcount
    have hfactory : (units "FACTORY").length = 7 ∧ (units "FACTORY").count 0x53 = 0 := by decide
    omega
  · rw [hflag] at hlength hcount
    have hcustom : (units "CUSTOM").length = 6 ∧ (units "CUSTOM").count 0x53 = 1 := by decide
    omega

theorem not_flagged_of_short (hbytes : ∀ c ∈ text, c.toNat < 256) (hlength : text.length ≤ 8)
    (index : ℕ) :
    ¬ Flagged (headTokens index ++ scan .between text) := by
  intro hflag
  have hempty : ¬ (toUpperCase [] = units "FACTORY" ∨ toUpperCase [] = units "CUSTOM") := by decide
  have hget : bandFlag (headTokens index ++ scan .between text) =
      toUpperCase ((scan .between text).getD 2 []) := rfl
  rw [Flagged, hget] at hflag
  cases hscan : scan .between text with
  | nil =>
    rw [hscan] at hflag
    exact hempty hflag
  | cons name tokens =>
    cases tokens with
    | nil =>
      rw [hscan] at hflag
      exact hempty hflag
    | cons letter tokens =>
      cases tokens with
      | nil =>
        rw [hscan] at hflag
        exact hempty hflag
      | cons flag tokens =>
        rw [hscan] at hflag
        have hsix : 6 ≤ flag.length := by
          refine length_of_flag (fun c hc => hbytes c ?_) hflag
          exact mem_of_mem_scan hscan (by simp) c hc
        obtain ⟨text₁, hscan₁, hlength₁⟩ := (length_of_scan hscan).2 _ _ rfl
        obtain ⟨text₂, hscan₂, hlength₂⟩ := (length_of_scan hscan₁).2 _ _ rfl
        have hflagLength := (length_of_scan hscan₂).1
        omega

/-! ## Bands that are read back -/

structure VtxTableBand.Written (band : VtxTableBand) : Prop where
  name : band.name ≠ []
  oneLine : LINE_FEED ∉ band.name
  uncommented : Uncommented band.name
  quoted : band.name.any isWhiteSpace = true → QUOTE ∉ band.name
  bare : band.name.any isWhiteSpace = false → band.name.head? = some QUOTE →
    QUOTE ∉ band.name.tail ∧ band.letter ≠ [QUOTE]
  letter : ∃ c, band.letter = [c] ∧ isWhiteSpace c = false ∧ c ≠ HASH

section
variable {n : ℕ} {band : VtxTableBand}

theorem solid_of_any (hne : text ≠ []) (h : text.any isWhiteSpace = false) :
    Solid text := by
  rw [List.any_eq_false] at h
  exact ⟨hne, fun c hc => Bool.eq_false_iff.mpr (h c hc)⟩

theorem letterText_of_ne (h : band.letter = [c]) : letterText band.letter = [c] := by
  rw [h, letterText, if_neg (List.cons_ne_nil _ _)]

theorem stripComment_bandRest (h : band.Written) :
    stripComment (bandRest n band) = bandRest n band := by
  obtain ⟨c, hletter, -, hhash⟩ := h.letter
  have hrest : ∀ text, HASH ∉ text →
      stripComment (text ++ SPACE :: (letterText band.letter ++ bandEnd n band)) =
        text ++ SPACE :: (letterText band.letter ++ bandEnd n band) := by
    intro text htext
    refine stripComment_of_no_hash ?_
    rw [letterText_of_ne hletter, List.mem_append, List.mem_cons, List.singleton_append, List.mem_cons]
    rintro (hmem | hmem | hmem | hmem)
    · exact htext hmem
    · exact absurd hmem (by decide)
    · exact hhash hmem.symm
    · exact (mem_bandEnd hmem).2.1 rfl
  rw [bandRest, quote]
  split
  · have hquote : Uncommented [QUOTE] := uncommented_of_notMem (by decide)
    have hopen : QUOTE :: (band.name ++ [QUOTE]) ++
        SPACE :: (letterText band.letter ++ bandEnd n band) =
        [QUOTE] ++ (band.name ++ ([QUOTE] ++ SPACE :: (letterText band.letter ++ bandEnd n band))) := by
      simp
    rw [hopen, stripComment_append hquote, stripComment_append h.uncommented,
      hrest [QUOTE] (by decide)]
  · rw [stripComment_append h.uncommented]
    exact congrArg (band.name ++ ·) (hrest [] (by simp))

theorem scan_letter (hletter : letterText band.letter = [c]) (hc : isWhiteSpace c = false) :
    scan .between (SPACE :: (letterText band.letter ++ bandEnd n band)) =
      [c] :: flagText band.isFactory :: frequencyTexts n band.frequencies := by
  have hsolid : Solid [c] := ⟨List.cons_ne_nil _ _, by simpa using hc⟩
  have hend : scan .between (bandEnd n band) =
      scan .between (flagText band.isFactory ++ SPACE ::
        joinWith SPACE (frequencyTexts n band.frequencies)) :=
    scan_space isWhiteSpace_space _
  rw [scan_space isWhiteSpace_space, hletter, bandEnd, scan_solid hsolid _ isWhiteSpace_space, ← hend,
    scan_bandEnd]
  intro _ hmem
  exact (mem_bandEnd (List.mem_cons_of_mem SPACE hmem)).2.2 rfl

theorem scan_bandRest (h : band.Written) : scan .between (bandRest n band) =
    band.name :: band.letter :: flagText band.isFactory :: frequencyTexts n band.frequencies := by
  obtain ⟨c, hletter, hc, -⟩ := h.letter
  have htext := letterText_of_ne hletter
  rw [bandRest, quote]
  split
  · next hspace =>
    have hopen : QUOTE :: (band.name ++ [QUOTE]) ++
        SPACE :: (letterText band.letter ++ bandEnd n band) =
        QUOTE :: (band.name ++ QUOTE :: (SPACE :: (letterText band.letter ++ bandEnd n band))) := by
      simp
    rw [hopen, scan_quote (h.quoted hspace), scan_letter htext hc, hletter]
  · next hspace =>
    rw [Bool.not_eq_true] at hspace
    rw [scan_solid (solid_of_any h.name hspace) _ isWhiteSpace_space,
      ← scan_space isWhiteSpace_space, scan_letter htext hc, hletter]
    intro hhead hmem
    obtain ⟨htail, hne⟩ := h.bare hspace hhead
    rw [htext, List.singleton_append, List.mem_append, List.mem_cons] at hmem
    obtain hmem | rfl | hmem := hmem
    · exact htail hmem
    · exact hne hletter
    · exact (mem_bandEnd hmem).2.2 rfl

theorem rowBand_written (hfits : band.Fits n) (h : band.Written) (index : ℕ) :
    Flagged (headTokens index ++ scan .between (bandRest n band)) ∧
      fitBand n (rowBand (headTokens index ++ scan .between (bandRest n band))) = band := by
  obtain ⟨c, hletter, -⟩ := h.letter
  have hflag : toUpperCase (flagText band.isFactory) = flagText band.isFactory := by
    cases band.isFactory with
    | false => decide
    | true => decide
  have hfactory : decide (flagText band.isFactory = units "FACTORY") = band.isFactory := by
    cases band.isFactory with
    | false => decide
    | true => decide
  have hfrequencies : (frequencyTexts n band.frequencies).map
      (fun token => roundFrequency (cliNumber (some token))) = band.frequencies := by
    rw [frequencyTexts, List.map_map]
    refine List.ext_getElem (by simp [hfits.channels]) fun i hi hi' => ?_
    have hlt := hfits.frequencies _ (List.getElem_mem hi')
    have hget : band.frequencies.getD i 0 = band.frequencies[i] := by simp [hi']
    rw [List.getElem_map, List.getElem_range, Function.comp_apply, hget,
      cliNumber_countText (by omega), roundFrequency_natCast]
  rw [scan_bandRest h]
  constructor
  · change toUpperCase (flagText band.isFactory) = _ ∨ toUpperCase (flagText band.isFactory) = _
    rw [hflag]
    cases band.isFactory with
    | false => exact .inr rfl
    | true => exact .inl rfl
  · change (⟨band.name, band.letter.take 1,
      decide (toUpperCase (flagText band.isFactory) = units "FACTORY"),
      fitChannels n ((frequencyTexts n band.frequencies).map
        fun token => roundFrequency (cliNumber (some token)))⟩ : VtxTableBand) = band
    rw [hflag, hfactory, hfrequencies, fitChannels_of_length hfits.channels, hletter]
    exact congrArg (fun letter => (⟨band.name, letter, band.isFactory, band.frequencies⟩ :
      VtxTableBand)) hletter.symm

end

section
variable {n : ℕ} {band : VtxTableBand} {tokens : List Text}

theorem take_one_of_scan {c : UInt16} {token : Text}
    (h : scan .between (c :: text) = token :: tokens) (hc : isWhiteSpace c = false)
    (hquote : QUOTE ∉ text) : token.take 1 = [c] := by
  obtain ⟨space, rest, hspace, -, hcases⟩ := scan_eq_cons h
  have hnil : ∀ after, c :: text = space ++ after → space = [] := by
    intro after hafter
    cases space with
    | nil => rfl
    | cons d space =>
      obtain rfl := (List.cons.inj hafter).1
      rw [hspace c List.mem_cons_self] at hc
      cases hc
  obtain ⟨-, htext⟩ | ⟨⟨hne, -⟩, htext, -, -⟩ := hcases
  · rw [hnil _ htext, List.nil_append, List.cons.injEq] at htext
    exact absurd (by rw [htext.2]; simp) hquote
  · obtain ⟨d, token, rfl⟩ := List.exists_cons_of_ne_nil hne
    rw [List.append_assoc] at htext
    rw [hnil _ htext] at htext
    rw [(List.cons.inj htext).1]
    rfl

variable {letter : Text}

theorem letterText_singleton (h : FitsLetter letter) :
    ∃ d, letterText letter = [d] ∧ (letter = [] ∨ letter = [d]) := by
  obtain rfl | ⟨d, rfl, -⟩ := h
  · exact ⟨0x3F, by decide, .inl rfl⟩
  · exact ⟨d, if_neg (List.cons_ne_nil _ _), .inr rfl⟩

theorem letter_of_scan (hfits : FitsLetter band.letter) {after flag : Text}
    (htext : SPACE :: (letterText band.letter ++ bandEnd n band) = text ++ after)
    (hscan : scan .between text = letter :: flag :: tokens)
    (hletter : letter.take 1 = band.letter) :
    ∃ c rest, band.letter = [c] ∧ isWhiteSpace c = false ∧ text = SPACE :: c :: rest ∧
      bandEnd n band = rest ++ after := by
  obtain ⟨d, hd, hcases⟩ := letterText_singleton hfits
  obtain _ | ⟨s, text⟩ := text
  · cases hscan
  rw [List.cons_append, List.cons.injEq, hd, List.singleton_append] at htext
  obtain ⟨rfl, htext⟩ := htext
  rw [scan_space isWhiteSpace_space] at hscan
  obtain _ | ⟨e, rest⟩ := text
  · cases hscan
  rw [List.cons_append, List.cons.injEq] at htext
  obtain ⟨rfl, hrest⟩ := htext
  have hquote : ∀ text' : Text, (∀ c ∈ text', c ∈ rest) → QUOTE ∉ text' := by
    intro text' hsubset hmem
    have hmem' : QUOTE ∈ bandEnd n band := by
      rw [hrest]
      exact List.mem_append_left _ (hsubset _ hmem)
    exact (mem_bandEnd hmem').2.2 rfl
  have hsame : ∀ c, letter.take 1 = [c] → c = d := by
    intro c hc
    rw [hletter] at hc
    obtain hnil | hsingle := hcases
    · rw [hnil] at hc
      cases hc
    · rw [hsingle] at hc
      exact (List.cons.inj hc).1.symm
  by_cases hspace : isWhiteSpace d = true
  · exfalso
    rw [scan_space hspace] at hscan
    obtain _ | ⟨s, rest⟩ := rest
    · cases hscan
    rw [bandEnd, List.cons_append, List.cons.injEq] at hrest
    obtain ⟨rfl, hrest⟩ := hrest
    rw [scan_space isWhiteSpace_space] at hscan
    obtain _ | ⟨f, rest⟩ := rest
    · cases hscan
    obtain ⟨first, flagRest, hfirst⟩ := List.exists_cons_of_ne_nil (plain_flagText band.isFactory).1
    have hplain := (plain_flagText band.isFactory).2 first (by rw [hfirst]; exact List.mem_cons_self)
    rw [hfirst, List.cons_append, List.cons_append, List.cons.injEq] at hrest
    obtain ⟨rfl, -⟩ := hrest
    have htake := take_one_of_scan hscan hplain.1 (hquote rest (by simp +contextual))
    rw [hsame _ htake, hspace] at hplain
    exact absurd hplain.1 (by simp)
  · rw [Bool.not_eq_true] at hspace
    have htake := take_one_of_scan hscan hspace (hquote rest fun c hc => hc)
    exact ⟨d, rest, hletter.symm.trans htake, hspace, rfl, hrest⟩

end

section
variable {n index : ℕ} {band : VtxTableBand}

theorem exists_of_flagged {tokens : List Text} (h : Flagged (headTokens index ++ tokens)) :
    ∃ name letter flag more, tokens = name :: letter :: flag :: more ∧
      (toUpperCase flag = units "FACTORY" ∨ toUpperCase flag = units "CUSTOM") := by
  have hempty : ¬ (toUpperCase [] = units "FACTORY" ∨ toUpperCase [] = units "CUSTOM") := by decide
  rcases tokens with _ | ⟨name, _ | ⟨letter, _ | ⟨flag, more⟩⟩⟩
  · exact absurd h hempty
  · exact absurd h hempty
  · exact absurd h hempty
  · exact ⟨name, letter, flag, more, rfl, h⟩

variable {line after rest : Text}

theorem uncommented_of_stripComment {cut opening closing : Text}
    (hstrip : stripComment line = opening ++ (band.name ++ (closing ++ SPACE :: c :: rest)))
    (hline : line = stripComment line ++ cut) (hclosing : ∀ d ∈ closing, d = QUOTE)
    (hc : isWhiteSpace c = false) (hend : bandEnd n band = rest ++ (cut ++ after)) :
    Uncommented band.name ∧ c ≠ HASH := by
  have hrest : ∀ d ∈ rest ++ cut, isLineTerminator d = false := by
    intro d hd
    have hmem : d ∈ bandEnd n band := by
      rw [hend, ← List.append_assoc]
      exact List.mem_append_left _ hd
    exact (mem_bandEnd hmem).1
  constructor
  · intro a b hname
    have hhash : stripComment line =
        (opening ++ a) ++ HASH :: (b ++ (closing ++ SPACE :: c :: rest)) := by
      rw [hstrip, hname]
      simp
    obtain ⟨d, hd, hterminator⟩ := terminator_of_stripComment hhash (by rw [← hhash]; exact hline)
    refine ⟨d, ?_, hterminator⟩
    simp only [List.mem_append, List.mem_cons] at hd
    obtain (hd | hd | rfl | rfl | hd) | hd := hd
    · exact hd
    · rw [hclosing d hd] at hterminator
      exact absurd hterminator (by decide)
    · exact absurd hterminator (by decide)
    · rw [terminator_isWhiteSpace hterminator] at hc
      cases hc
    · rw [hrest d (List.mem_append_left _ hd)] at hterminator
      cases hterminator
    · rw [hrest d (List.mem_append_right _ hd)] at hterminator
      cases hterminator
  · rintro rfl
    have hhash : stripComment line =
        (opening ++ (band.name ++ (closing ++ [SPACE]))) ++ HASH :: rest := by
      rw [hstrip]
      simp
    obtain ⟨d, hd, hterminator⟩ := terminator_of_stripComment hhash (by rw [← hhash]; exact hline)
    rw [hrest d hd] at hterminator
    cases hterminator

theorem space_eq_nil {space : Text} (h : ∀ d ∈ space, isWhiteSpace d = true)
    (hc : isWhiteSpace c = false) (htext : c :: text = space ++ rest) : space = [] := by
  cases space with
  | nil => rfl
  | cons d space =>
    rw [List.cons_append, List.cons.injEq] at htext
    obtain ⟨rfl, -⟩ := htext
    rw [h c List.mem_cons_self] at hc
    cases hc

theorem written_of_read (hfits : band.Fits n) (hafter : bandRest n band = line ++ after)
    (hfeed : LINE_FEED ∉ line)
    (hflag : Flagged (headTokens index ++ scan .between (stripComment line)))
    (hband : fitBand n (rowBand (headTokens index ++ scan .between (stripComment line))) = band) :
    band.Written := by
  obtain ⟨cut, hcut⟩ := stripComment_isStart line
  obtain ⟨name, letter, flag, more, hscan, -⟩ := exists_of_flagged hflag
  rw [hscan] at hband
  have hname : name = band.name := congrArg VtxTableBand.name hband
  have hletter : letter.take 1 = band.letter := congrArg VtxTableBand.letter hband
  obtain ⟨space, rest, hspace, hrest, hcases⟩ := scan_eq_cons hscan
  rw [← hcut, List.append_assoc] at hafter
  have hfeed' : ∀ text : Text, (∀ c ∈ text, c ∈ stripComment line) → LINE_FEED ∉ text := by
    intro text hsubset hmem
    refine hfeed ?_
    rw [← hcut]
    exact List.mem_append_left _ (hsubset _ hmem)
  cases hany : band.name.any isWhiteSpace with
  | true =>
    obtain ⟨hquote, htext⟩ | ⟨hsolid, -⟩ := hcases
    · have hopen : bandRest n band = QUOTE :: (band.name ++ ([QUOTE] ++
          SPACE :: (letterText band.letter ++ bandEnd n band))) := by
        rw [bandRest, quote, if_pos hany]
        simp
      rw [hopen, htext, List.append_assoc] at hafter
      have hnil := space_eq_nil hspace isWhiteSpace_quote hafter
      simp only [hnil, List.nil_append, List.cons_append, List.append_assoc, hname, List.cons.injEq,
        List.append_cancel_left_eq, true_and] at hafter
      obtain ⟨c, rest', hc, hsolid, hrest', hend⟩ :=
        letter_of_scan hfits.letter hafter hrest.symm hletter
      rw [hnil, List.nil_append, hname, hrest'] at htext
      have hstrip : stripComment line = [QUOTE] ++ (band.name ++ ([QUOTE] ++ SPACE :: c :: rest')) := by
        rw [htext]
        simp
      obtain ⟨huncommented, hhash⟩ := uncommented_of_stripComment hstrip hcut.symm
        (fun d hd => List.mem_singleton.mp hd) hsolid hend
      refine ⟨?_, hfeed' _ fun d hd => ?_, huncommented, fun _ => hname ▸ hquote, ?_,
        c, hc, hsolid, hhash⟩
      · rintro hnil
        rw [hnil] at hany
        cases hany
      · rw [hstrip]
        simp [hd]
      · intro hnone
        rw [hany] at hnone
        cases hnone
    · obtain ⟨c, hc, hwhite⟩ := List.any_eq_true.mp hany
      rw [hname] at hsolid
      rw [hsolid.2 c hc] at hwhite
      cases hwhite
  | false =>
    have hopen : bandRest n band =
        band.name ++ SPACE :: (letterText band.letter ++ bandEnd n band) := by
      rw [bandRest, quote, hany]
      rfl
    have hsolid : ∀ c ∈ band.name, isWhiteSpace c = false := by
      intro c hc
      exact Bool.eq_false_iff.mpr (List.any_eq_false.mp hany c hc)
    rw [hopen] at hafter
    obtain ⟨hquote, htext⟩ | ⟨⟨hne, -⟩, htext, -, hhead⟩ := hcases
    · exfalso
      rw [hname] at hquote htext
      rw [htext] at hafter
      cases hempty : band.name with
      | nil =>
        obtain ⟨d, hd, -⟩ := letterText_singleton hfits.letter
        have hnone : (bandEnd n band).count QUOTE = 0 :=
          List.count_eq_zero.mpr fun hmem => (mem_bandEnd hmem).2.2 rfl
        have hcount := congrArg (List.count QUOTE) hafter
        have hspaceNe : SPACE ≠ QUOTE := by decide
        rw [hempty, hd, List.nil_append, List.nil_append, List.count_cons_of_ne hspaceNe,
          List.singleton_append, List.count_cons, hnone, List.count_append, List.count_append,
          List.count_cons_self, List.count_cons_self] at hcount
        split at hcount
        · omega
        · omega
      | cons first name' =>
        rw [hempty] at hafter hsolid
        have hfirst := hsolid first List.mem_cons_self
        rw [List.cons_append, List.append_assoc] at hafter
        rw [space_eq_nil hspace hfirst hafter, List.nil_append, List.cons_append,
          List.cons.injEq] at hafter
        exact hquote (by rw [hempty, hafter.1]; exact List.mem_cons_self)
    · rw [hname] at htext hhead hne
      obtain ⟨first, name', hfirst⟩ := List.exists_cons_of_ne_nil hne
      have hnil : space = [] := by
        have hafter' := hafter
        rw [htext, hfirst, List.cons_append, List.append_assoc, List.append_assoc] at hafter'
        exact space_eq_nil hspace (hsolid first (by rw [hfirst]; exact List.mem_cons_self)) hafter'
      rw [hnil, List.nil_append] at htext
      rw [htext, List.append_assoc, List.append_cancel_left_eq] at hafter
      obtain ⟨c, rest', hc, hletterSolid, hrest', hend⟩ :=
        letter_of_scan hfits.letter hafter hrest.symm hletter
      rw [hrest'] at htext hhead
      have hstrip : stripComment line = [] ++ (band.name ++ ([] ++ SPACE :: c :: rest')) := htext
      obtain ⟨huncommented, hhash⟩ := uncommented_of_stripComment hstrip hcut.symm
        (fun d hd => nomatch hd) hletterSolid hend
      refine ⟨hne, hfeed' _ fun d hd => ?_, huncommented, fun hsome => ?_, fun _ hq => ?_,
        c, hc, hletterSolid, hhash⟩
      · rw [htext]
        exact List.mem_append_left _ hd
      · rw [hany] at hsome
        cases hsome
      · have hno := hhead hq
        rw [List.mem_append, not_or, List.mem_cons, List.mem_cons, not_or, not_or] at hno
        refine ⟨hno.1, ?_⟩
        rw [hc]
        intro heq
        exact hno.2.2.1 (List.cons.inj heq).1.symm

end

end ArduConfigurator.Tables
