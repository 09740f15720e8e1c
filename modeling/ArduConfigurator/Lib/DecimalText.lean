import ArduConfigurator.Lib.BinaryFloat
import ArduConfigurator.Lib.Strings
import Mathlib.Data.List.TakeWhile
import Mathlib.Data.NNRat.Lemmas
import Mathlib.Data.Nat.Digits.Lemmas
import Mathlib.Data.Nat.Prime.Basic

/-! # Numbers written in decimal

A number is written as a numeral: digits, perhaps a point
and digits after it, perhaps an exponent. A numeral is read as the double nearest to its exact
value; the shortest numeral of a double, and a numeral of so many significant digits, are read as
what their digits say. -/
namespace ArduConfigurator.DecimalText
open scoped NNRat
set_option autoImplicit false

def POINT : UInt16 := 0x2E
def MINUS : UInt16 := 0x2D
def PLUS : UInt16 := 0x2B
def LOWER_E : UInt16 := 0x65
def UPPER_E : UInt16 := 0x45
def ZERO : UInt16 := 0x30

/-! ## Digits -/

def digitUnit (d : ℕ) : UInt16 := UInt16.ofNat (0x30 + d)

def isDigit (c : UInt16) : Bool := 0x30 ≤ c ∧ c ≤ 0x39

def digitValue (c : UInt16) : ℕ := c.toNat - 0x30

def natDigits (n : ℕ) : Text :=
  if n = 0 then [ZERO] else (Nat.digits 10 n).reverse.map digitUnit

def readDigits (digits : Text) : ℕ := digits.foldl (fun v c => v * 10 + digitValue c) 0

/-- Digits and nothing else. -/
def Digits (t : Text) : Prop := ∀ c ∈ t, isDigit c = true

theorem digitUnit_toNat {d : ℕ} (h : d < 10) : (digitUnit d).toNat = 0x30 + d := by
  rw [digitUnit, UInt16.toNat_ofNat_of_lt' (by rw [UInt16.size]; omega)]

variable {c : UInt16}

theorem isDigit_iff : isDigit c = true ↔ 0x30 ≤ c.toNat ∧ c.toNat ≤ 0x39 := by
  simp [isDigit, UInt16.le_iff_toNat_le]

theorem isDigit_digitUnit {d : ℕ} (h : d < 10) : isDigit (digitUnit d) = true := by
  rw [isDigit_iff, digitUnit_toNat h]
  omega

theorem digitValue_digitUnit {d : ℕ} (h : d < 10) : digitValue (digitUnit d) = d := by
  rw [digitValue, digitUnit_toNat h]
  omega

theorem digits_natDigits (n : ℕ) : Digits (natDigits n) := by
  intro c hc
  rw [natDigits] at hc
  split_ifs at hc
  · rw [List.mem_singleton.mp hc]
    decide
  · obtain ⟨d, hd, rfl⟩ := List.mem_map.mp hc
    exact isDigit_digitUnit (Nat.digits_lt_base (by norm_num) (List.mem_reverse.mp hd))

theorem natDigits_ne_nil (n : ℕ) : natDigits n ≠ [] := by
  rw [natDigits]
  split_ifs with h
  · simp
  · simpa [Nat.digits_eq_nil_iff_eq_zero] using h

theorem foldl_digits (t : Text) (v : ℕ) :
    t.foldl (fun v c => v * 10 + digitValue c) v = v * 10 ^ t.length + readDigits t := by
  induction t generalizing v with
  | nil => simp [readDigits]
  | cons c t ih =>
    rw [readDigits, List.foldl_cons, List.foldl_cons, ih, ih (0 * 10 + digitValue c),
      List.length_cons, pow_succ]
    ring

theorem readDigits_append (a b : Text) :
    readDigits (a ++ b) = readDigits a * 10 ^ b.length + readDigits b := by
  rw [readDigits, List.foldl_append, foldl_digits]
  rfl

theorem readDigits_natDigits (n : ℕ) : readDigits (natDigits n) = n := by
  rw [natDigits]
  split_ifs with h
  · rw [h]
    rfl
  have hread (ds : List ℕ) (hds : ∀ d ∈ ds, d < 10) :
      readDigits (ds.reverse.map digitUnit) = Nat.ofDigits 10 ds := by
    induction ds with
    | nil => rfl
    | cons d ds ih =>
      obtain ⟨hd, hds⟩ := List.forall_mem_cons.mp hds
      rw [List.reverse_cons, List.map_append, readDigits_append, ih hds, List.map_singleton,
        Nat.ofDigits_cons]
      simp only [readDigits, List.foldl_cons, List.foldl_nil, digitValue_digitUnit hd,
        List.length_singleton]
      push_cast
      ring
  rw [hread _ fun d hd => Nat.digits_lt_base (by norm_num) hd, Nat.ofDigits_digits]

theorem readDigits_zeros (k : ℕ) : readDigits (List.replicate k ZERO) = 0 := by
  induction k with
  | zero => rfl
  | succ k ih =>
    rw [List.replicate_succ', readDigits_append, ih]
    rfl

theorem digits_zeros (k : ℕ) : Digits (List.replicate k ZERO) := by
  intro c hc
  rw [List.eq_of_mem_replicate hc]
  decide

/-! ## Numerals -/

/-- Digits, a point and more digits if there are any, and an exponent if there is one. -/
def numeral (whole fraction exponent : Text) : Text :=
  whole ++ (if fraction = [] then [] else POINT :: fraction) ++ exponent

def readExponent : Text → Option ℤ
  | [] => some 0
  | c :: rest =>
    if c = LOWER_E ∨ c = UPPER_E then
      match rest with
      | [] => none
      | sign :: digits =>
        if sign = MINUS ∧ digits ≠ [] ∧ digits.all isDigit then some (-(readDigits digits : ℤ))
        else if sign = PLUS ∧ digits ≠ [] ∧ digits.all isDigit then some (readDigits digits : ℤ)
        else if (sign :: digits).all isDigit then some (readDigits (sign :: digits) : ℤ)
        else none
    else none

def readDecimal (t : Text) : Option ℚ≥0 :=
  let whole := t.takeWhile isDigit
  let afterWhole := t.dropWhile isDigit
  let afterPoint := if afterWhole.head? = some POINT then afterWhole.tail else []
  let fraction := afterPoint.takeWhile isDigit
  let rest := if afterWhole.head? = some POINT then afterPoint.dropWhile isDigit else afterWhole
  if whole = [] ∧ fraction = [] then none
  else (readExponent rest).map fun e : ℤ =>
    (readDigits (whole ++ fraction) : ℚ≥0) * (10 : ℚ≥0) ^ (e - fraction.length)

/-- The texts an exponent begins with: no digit and no point. -/
def StartsExponent (t : Text) : Prop := t = [] ∨ ∃ rest, t = LOWER_E :: rest

variable {a b : Text}

theorem takeWhile_digits (ha : Digits a) (hb : ∀ c ∈ b.head?, isDigit c = false) :
    (a ++ b).takeWhile isDigit = a ∧ (a ++ b).dropWhile isDigit = b := by
  have htake : b.takeWhile isDigit = [] := by
    cases b with
    | nil => rfl
    | cons c b => exact List.takeWhile_cons_of_neg (by simpa using hb c rfl)
  have hdrop : b.dropWhile isDigit = b := by
    cases b with
    | nil => rfl
    | cons c b => exact List.dropWhile_cons_of_neg (by simpa using hb c rfl)
  rw [List.takeWhile_append_of_pos ha, List.dropWhile_append_of_pos ha, htake, hdrop,
    List.append_nil]
  exact ⟨rfl, rfl⟩

variable {t : Text}

theorem StartsExponent.head (h : StartsExponent t) :
    (∀ c ∈ t.head?, isDigit c = false) ∧ t.head? ≠ some POINT := by
  rcases h with rfl | ⟨rest, rfl⟩
  · simp
  · simp only [List.head?_cons, Option.mem_def, Option.some.injEq, forall_eq']
    exact ⟨by decide, by decide⟩

theorem readDecimal_numeral {whole fraction exponent : Text} {e : ℤ} (hne : whole ≠ [])
    (hwhole : Digits whole) (hfraction : Digits fraction) (hstarts : StartsExponent exponent)
    (hexponent : readExponent exponent = some e) :
    readDecimal (numeral whole fraction exponent) =
      some ((readDigits (whole ++ fraction) : ℚ≥0) * (10 : ℚ≥0) ^ (e - fraction.length)) := by
  obtain ⟨hhead, hpoint⟩ := hstarts.head
  rw [numeral, List.append_assoc]
  by_cases hnil : fraction = []
  · subst hnil
    obtain ⟨htake, hdrop⟩ := takeWhile_digits (b := exponent) hwhole hhead
    simp only [readDecimal, if_true, List.nil_append, htake, hdrop, if_neg hpoint,
      List.takeWhile_nil, hexponent, hne, false_and, if_false, Option.map_some]
  · rw [if_neg hnil, List.cons_append]
    have hnot : ∀ c ∈ (POINT :: (fraction ++ exponent)).head?, isDigit c = false := by
      simp only [List.head?_cons, Option.mem_def, Option.some.injEq, forall_eq']
      decide
    obtain ⟨htake, hdrop⟩ := takeWhile_digits hwhole hnot
    obtain ⟨htake', hdrop'⟩ := takeWhile_digits hfraction hhead
    simp only [readDecimal, htake, hdrop, List.head?_cons, if_true, List.tail_cons, htake',
      hdrop', hexponent, hne, false_and, if_false, Option.map_some]

/-- The parts of a numeral, and what its exponent says. -/
structure Numeral where
  whole : Text
  fraction : Text
  exponent : Text
  power : ℤ
  whole_ne_nil : whole ≠ []
  digits_whole : Digits whole
  digits_fraction : Digits fraction
  starts : StartsExponent exponent
  reads : readExponent exponent = some power

namespace Numeral

def text (n : Numeral) : Text := numeral n.whole n.fraction n.exponent

def value (n : Numeral) : ℚ≥0 :=
  (readDigits (n.whole ++ n.fraction) : ℚ≥0) * (10 : ℚ≥0) ^ (n.power - n.fraction.length)

theorem readDecimal_text (n : Numeral) : readDecimal n.text = some n.value :=
  readDecimal_numeral n.whole_ne_nil n.digits_whole n.digits_fraction n.starts n.reads

end Numeral

def isNumeralUnit (c : UInt16) : Bool :=
  isDigit c || c = POINT || c = LOWER_E || c = UPPER_E || c = MINUS || c = PLUS

theorem units_of_readExponent {e : ℤ} (h : readExponent t = some e) :
    ∀ c ∈ t, isNumeralUnit c = true := by
  have hdigit {ds : Text} (hds : ds.all isDigit = true) : ∀ c ∈ ds, isNumeralUnit c = true := by
    intro c hc
    simp [isNumeralUnit, List.all_eq_true.mp hds c hc]
  cases t with
  | nil => simp
  | cons c rest =>
    cases rest with
    | nil => simp [readExponent] at h
    | cons sign digits =>
      rw [readExponent] at h
      split_ifs at h with hc hminus hplus hall
      all_goals
        have hfirst : isNumeralUnit c = true := by rcases hc with rfl | rfl <;> decide
        rw [List.forall_mem_cons, List.forall_mem_cons]
      · exact ⟨hfirst, by rw [hminus.1]; decide, hdigit hminus.2.2⟩
      · exact ⟨hfirst, by rw [hplus.1]; decide, hdigit hplus.2.2⟩
      · exact ⟨hfirst, List.forall_mem_cons.mp (hdigit hall)⟩

theorem Numeral.units_text (n : Numeral) : ∀ c ∈ n.text, isNumeralUnit c = true := by
  intro c hc
  have hdigit (h : isDigit c = true) : isNumeralUnit c = true := by simp [isNumeralUnit, h]
  rw [text, numeral, List.mem_append, List.mem_append] at hc
  rcases hc with (hc | hc) | hc
  · exact hdigit (n.digits_whole c hc)
  · split_ifs at hc
    · cases hc
    · rcases List.mem_cons.mp hc with rfl | hc
      · decide
      · exact hdigit (n.digits_fraction c hc)
  · exact units_of_readExponent n.reads c hc

/-! ## Trailing zeros -/

def dropTrailingZeros (digits : Text) : Text := (digits.reverse.dropWhile (· = ZERO)).reverse

theorem exists_trailingZeros (digits : Text) :
    ∃ k, digits = dropTrailingZeros digits ++ List.replicate k ZERO := by
  refine ⟨(digits.reverse.takeWhile (· = ZERO)).length, ?_⟩
  have hzeros : (digits.reverse.takeWhile (· = ZERO)).reverse =
      List.replicate (digits.reverse.takeWhile (· = ZERO)).length ZERO := by
    rw [List.eq_replicate_iff, List.length_reverse]
    refine ⟨rfl, fun c hc => ?_⟩
    simpa using List.mem_takeWhile_imp (List.mem_reverse.mp hc)
  rw [← hzeros, dropTrailingZeros, ← List.reverse_append, List.takeWhile_append_dropWhile,
    List.reverse_reverse]

def endsNumeral (t : Text) : Bool :=
  t = [] ∨ (t.head? = some LOWER_E ∧ (readExponent t).isSome)

/-- `text.replace(/(?:\.0+|(\.\d+?)0+)(e[+-]?\d+)?$/, '$1$2')` of a text with one point at most. -/
def trimFraction (t : Text) : Text :=
  let whole := t.takeWhile (· ≠ POINT)
  let after := (t.dropWhile (· ≠ POINT)).tail
  let digits := after.takeWhile isDigit
  let rest := after.dropWhile isDigit
  if digits ≠ [] ∧ endsNumeral rest then numeral whole (dropTrailingZeros digits) rest else t

theorem trimFraction_cons (hc : c ≠ POINT) (t : Text) :
    trimFraction (c :: t) = c :: trimFraction t := by
  have htake : (c :: t).takeWhile (· ≠ POINT) = c :: t.takeWhile (· ≠ POINT) :=
    List.takeWhile_cons_of_pos (by simpa using hc)
  have hdrop : (c :: t).dropWhile (· ≠ POINT) = t.dropWhile (· ≠ POINT) :=
    List.dropWhile_cons_of_pos (by simpa using hc)
  simp only [trimFraction, htake, hdrop]
  split_ifs
  · simp [numeral]
  · rfl

namespace Numeral

def trimmed (n : Numeral) : Numeral :=
  { n with
    fraction := dropTrailingZeros n.fraction
    digits_fraction := by
      obtain ⟨k, hk⟩ := exists_trailingZeros n.fraction
      intro c hc
      exact n.digits_fraction c (by rw [hk]; exact List.mem_append_left _ hc) }

theorem value_trimmed (n : Numeral) : n.trimmed.value = n.value := by
  obtain ⟨k, hk⟩ := exists_trailingZeros n.fraction
  have hread : readDigits (n.whole ++ n.fraction) =
      readDigits (n.whole ++ dropTrailingZeros n.fraction) * 10 ^ k := by
    conv_lhs => rw [hk]
    rw [← List.append_assoc, readDigits_append, readDigits_zeros, List.length_replicate,
      Nat.add_zero]
  have hlen : (n.fraction.length : ℤ) = (dropTrailingZeros n.fraction).length + k := by
    conv_lhs => rw [hk]
    simp
  have hten : (10 : ℚ≥0) ≠ 0 := by norm_num
  rw [value, value, hread, hlen, Nat.cast_mul, Nat.cast_pow, mul_assoc]
  congr 1
  rw [Nat.cast_ofNat, ← zpow_natCast, ← zpow_add₀ hten]
  congr 1
  simp only [trimmed]
  ring

theorem exponent_no_point (n : Numeral) : ∀ c ∈ n.exponent, c ≠ POINT := by
  intro c hc hpoint
  subst hpoint
  rcases n.starts with hnil | ⟨rest, hrest⟩
  · rw [hnil] at hc
    cases hc
  · have hreads := n.reads
    rw [hrest] at hc hreads
    have hdigits {ds : Text} (hds : ds.all isDigit = true) (hmem : POINT ∈ ds) : False := by
      have := List.all_eq_true.mp hds _ hmem
      revert this
      decide
    cases rest with
    | nil => simp [readExponent] at hreads
    | cons sign digits =>
      rw [readExponent] at hreads
      simp only [List.mem_cons] at hc
      split_ifs at hreads with hlower hminus hplus hall
      · rcases hc with h | h | h
        · revert h; decide
        · rw [hminus.1] at h; revert h; decide
        · exact hdigits hminus.2.2 h
      · rcases hc with h | h | h
        · revert h; decide
        · rw [hplus.1] at h; revert h; decide
        · exact hdigits hplus.2.2 h
      · rcases hc with h | h | h
        · revert h; decide
        · exact hdigits hall (by rw [h]; exact List.mem_cons_self)
        · exact hdigits hall (List.mem_cons_of_mem _ h)

theorem endsNumeral_exponent (n : Numeral) : endsNumeral n.exponent = true := by
  rw [endsNumeral, decide_eq_true_eq]
  rcases n.starts with hnil | ⟨rest, hrest⟩
  · exact .inl hnil
  · exact .inr ⟨by rw [hrest]; rfl, by rw [n.reads]; rfl⟩

theorem trimFraction_text (n : Numeral) : trimFraction n.text = n.trimmed.text := by
  have hwhole : ∀ c ∈ n.whole, decide (c ≠ POINT) = true := by
    intro c hc
    rw [decide_eq_true_eq]
    rintro rfl
    exact absurd (n.digits_whole _ hc) (by decide)
  obtain ⟨hhead, -⟩ := n.starts.head
  by_cases hnil : n.fraction = []
  · have htext : n.text = n.whole ++ n.exponent := by rw [text, numeral, if_pos hnil]; simp
    have hall : ∀ c ∈ n.text, decide (c ≠ POINT) = true := by
      intro c hc
      rw [htext] at hc
      rcases List.mem_append.mp hc with hc | hc
      · exact hwhole c hc
      · rw [decide_eq_true_eq]
        exact n.exponent_no_point c hc
    have hdrop : n.text.dropWhile (· ≠ POINT) = [] := List.dropWhile_eq_nil_iff.mpr hall
    have htrimmed : n.trimmed.text = n.text := by
      rw [htext]
      simp [text, trimmed, numeral, hnil, dropTrailingZeros]
    rw [trimFraction, hdrop, htrimmed]
    simp
  · have htext : n.text = n.whole ++ POINT :: (n.fraction ++ n.exponent) := by
      rw [text, numeral, if_neg hnil]; simp
    have htake : n.text.takeWhile (· ≠ POINT) = n.whole := by
      rw [htext, List.takeWhile_append_of_pos hwhole, List.takeWhile_cons_of_neg (by simp),
        List.append_nil]
    have hdrop : n.text.dropWhile (· ≠ POINT) = POINT :: (n.fraction ++ n.exponent) := by
      rw [htext, List.dropWhile_append_of_pos hwhole, List.dropWhile_cons_of_neg (by simp)]
    obtain ⟨hfraction, hrest⟩ := takeWhile_digits n.digits_fraction hhead
    simp only [trimFraction, htake, hdrop, List.tail_cons, hfraction, hrest]
    rw [if_pos ⟨hnil, n.endsNumeral_exponent⟩]
    rfl

end Numeral

/-! ## Digits with a point -/

def exponentText (e : ℤ) : Text := LOWER_E :: (if e < 0 then MINUS else PLUS) :: natDigits e.natAbs

theorem readExponent_exponentText (e : ℤ) : readExponent (exponentText e) = some e := by
  have hall : (natDigits e.natAbs).all isDigit = true :=
    List.all_eq_true.mpr (digits_natDigits _)
  rw [exponentText, readExponent, if_pos (.inl rfl), readDigits_natDigits]
  by_cases hneg : e < 0
  · rw [if_pos hneg, if_pos ⟨rfl, natDigits_ne_nil _, hall⟩, Option.some_inj]
    omega
  · rw [if_neg hneg, if_neg (fun h => absurd h.1 (by decide)),
      if_pos ⟨rfl, natDigits_ne_nil _, hall⟩, Option.some_inj]
    omega

theorem digits_append (ha : Digits a) (hb : Digits b) : Digits (a ++ b) := by
  intro c hc
  rcases List.mem_append.mp hc with hc | hc
  · exact ha c hc
  · exact hb c hc

theorem natDigits_length_pos (s : ℕ) : 0 < (natDigits s).length :=
  List.length_pos_of_ne_nil (natDigits_ne_nil s)

def scientific (s : ℕ) (e : ℤ) : Numeral where
  whole := (natDigits s).take 1
  fraction := (natDigits s).drop 1
  exponent := exponentText e
  power := e
  whole_ne_nil := by
    have := natDigits_length_pos s
    rw [← List.length_pos_iff, List.length_take]
    omega
  digits_whole c hc := digits_natDigits s c (List.mem_of_mem_take hc)
  digits_fraction c hc := digits_natDigits s c (List.mem_of_mem_drop hc)
  starts := .inr ⟨_, rfl⟩
  reads := readExponent_exponentText e

theorem value_scientific (s : ℕ) (e : ℤ) :
    (scientific s e).value = (s : ℚ≥0) * (10 : ℚ≥0) ^ (e + 1 - (natDigits s).length) := by
  have hlen := natDigits_length_pos s
  rw [Numeral.value]
  simp only [scientific, List.take_append_drop, readDigits_natDigits, List.length_drop]
  congr 2
  omega

/-- The digits with the point after so many of them, zeros in between where it lies beside them. -/
def placePoint (s : ℕ) (n : ℤ) : Numeral :=
  if hlong : ((natDigits s).length : ℤ) ≤ n then
    { whole := natDigits s ++ List.replicate (n.toNat - (natDigits s).length) ZERO
      fraction := []
      exponent := []
      power := 0
      whole_ne_nil := by simp [natDigits_ne_nil]
      digits_whole := digits_append (digits_natDigits s) (digits_zeros _)
      digits_fraction := by simp [Digits]
      starts := .inl rfl
      reads := rfl }
  else if hpos : 0 < n then
    { whole := (natDigits s).take n.toNat
      fraction := (natDigits s).drop n.toNat
      exponent := []
      power := 0
      whole_ne_nil := by
        have := natDigits_length_pos s
        rw [← List.length_pos_iff, List.length_take]
        omega
      digits_whole := fun c hc => digits_natDigits s c (List.mem_of_mem_take hc)
      digits_fraction := fun c hc => digits_natDigits s c (List.mem_of_mem_drop hc)
      starts := .inl rfl
      reads := rfl }
  else
    { whole := [ZERO]
      fraction := List.replicate (-n).toNat ZERO ++ natDigits s
      exponent := []
      power := 0
      whole_ne_nil := by simp
      digits_whole := digits_zeros 1
      digits_fraction := digits_append (digits_zeros _) (digits_natDigits s)
      starts := .inl rfl
      reads := rfl }

theorem value_placePoint (s : ℕ) (n : ℤ) :
    (placePoint s n).value = (s : ℚ≥0) * (10 : ℚ≥0) ^ (n - (natDigits s).length) := by
  rw [placePoint]
  split_ifs with hlong hpos
  · simp only [Numeral.value, List.append_nil, readDigits_append, readDigits_natDigits,
      readDigits_zeros, List.length_replicate, Nat.add_zero, List.length_nil, Nat.cast_mul,
      Nat.cast_pow, Nat.cast_ofNat, Nat.cast_zero, sub_zero, zpow_zero, mul_one]
    congr 1
    rw [← zpow_natCast]
    congr 1
    omega
  · simp only [Numeral.value, List.take_append_drop, readDigits_natDigits, List.length_drop]
    congr 2
    omega
  · simp only [Numeral.value, readDigits_append, readDigits_natDigits, readDigits_zeros,
      List.length_append, List.length_replicate]
    have hzero : readDigits [ZERO] = 0 := rfl
    rw [hzero, Nat.zero_mul, Nat.zero_mul, Nat.zero_add, Nat.zero_add]
    congr 2
    push_cast
    omega

/-- How the language writes digits whose point is after `n` of them: with an exponent when the point
is far. -/
def layout (limit : ℤ) (s : ℕ) (n : ℤ) : Numeral :=
  if -6 < n ∧ n ≤ limit then placePoint s n else scientific s (n - 1)

theorem value_layout (limit : ℤ) (s : ℕ) (n : ℤ) :
    (layout limit s n).value = (s : ℚ≥0) * (10 : ℚ≥0) ^ (n - (natDigits s).length) := by
  rw [layout]
  split_ifs
  · exact value_placePoint s n
  · rw [value_scientific, sub_add_cancel]

/-! ## Numbers as texts -/

def nearestDouble (negative : Bool) (q : ℚ≥0) : JsNumber :=
  binary64.value (binary64.pattern (.finite negative q))

def signText (negative : Bool) : Text := if negative then [MINUS] else []

/-- So many significant digits, as an integer and the exponent of the first of them. -/
def precisionDigits (p : ℕ) (q : ℚ≥0) : ℕ × ℤ :=
  let e := Int.log 10 q
  let n := ⌊q / (10 : ℚ≥0) ^ (e - p + 1) + 1 / (2 : ℕ)⌋₊
  if n = 10 ^ p then (10 ^ (p - 1), e + 1) else (n, e)

def toDigits (p : ℕ) (q : ℚ≥0) : ℚ≥0 :=
  ((precisionDigits p q).1 : ℚ≥0) * (10 : ℚ≥0) ^ ((precisionDigits p q).2 - p + 1)

def precisionNumeral (p : ℕ) (q : ℚ≥0) : Numeral :=
  layout p (precisionDigits p q).1 ((precisionDigits p q).2 + 1)

/-- `x.toPrecision(p)`. -/
def toPrecision (p : ℕ) : JsNumber → Text
  | .nan => units "NaN"
  | .infinite negative => signText negative ++ units "Infinity"
  | .finite negative q =>
    if q = 0 then numeral [ZERO] (List.replicate (p - 1) ZERO) []
    else signText negative ++ (precisionNumeral p q).text

/-- The integers at a power of ten on both sides of a magnitude, the nearer one first. -/
def nearestIntegers (q : ℚ≥0) (m : ℤ) : List ℕ :=
  let r := q / (10 : ℚ≥0) ^ m
  let a := ⌊r⌋₊
  if r - a < 1 / (2 : ℕ) ∨ (r - a = 1 / (2 : ℕ) ∧ a % 2 = 0) then [a, a + 1] else [a + 1, a]

/-- So many digits that are read as the magnitude, if there are any, and the power of ten. -/
def digitsOfLength (q : ℚ≥0) (k : ℕ) : Option (ℕ × ℤ) :=
  let m := Int.log 10 q + 1 - k
  ((nearestIntegers q m).find? fun s : ℕ =>
    nearestDouble false ((s : ℚ≥0) * (10 : ℚ≥0) ^ m) = .finite false q).map fun s =>
      if s = 10 ^ k then (1, m + k) else (s, m)

def exactDigits (q : ℚ≥0) : ℕ × ℤ :=
  (⌊q * 10 ^ Nat.log 2 q.den⌋₊, -(Nat.log 2 q.den : ℤ))

/-- The fewest digits that are read as the magnitude, and the power of ten after them. -/
def shortestDigits (q : ℚ≥0) : ℕ × ℤ :=
  ((List.range (natDigits (exactDigits q).1).length).findSome? fun i =>
    digitsOfLength q (i + 1)).getD (exactDigits q)

def shortestNumeral (q : ℚ≥0) : Numeral :=
  layout 21 (shortestDigits q).1 ((shortestDigits q).2 + (natDigits (shortestDigits q).1).length)

/-- `String(x)`. -/
def numberToString : JsNumber → Text
  | .nan => units "NaN"
  | .infinite negative => signText negative ++ units "Infinity"
  | .finite negative q => if q = 0 then [ZERO] else signText negative ++ (shortestNumeral q).text

/-! ## What the texts are read as -/

def radixOf : Option UInt16 → Option ℕ
  | some 0x78 => some 16
  | some 0x58 => some 16
  | some 0x6F => some 8
  | some 0x4F => some 8
  | some 0x62 => some 2
  | some 0x42 => some 2
  | _ => none

def radixDigit (radix : ℕ) (c : UInt16) : Option ℕ :=
  let d := if isDigit c then c.toNat - 0x30
    else if 0x41 ≤ c ∧ c ≤ 0x46 then c.toNat - 0x41 + 10
    else if 0x61 ≤ c ∧ c ≤ 0x66 then c.toNat - 0x61 + 10
    else radix
  if d < radix then some d else none

def readRadix (radix : ℕ) (digits : Text) : JsNumber :=
  if digits = [] then .nan
  else
    match digits.foldlM (fun v c => (radixDigit radix c).map (v * radix + ·)) 0 with
    | some v => nearestDouble false v
    | none => .nan

def readSigned (negative : Bool) (t : Text) : JsNumber :=
  if t = units "Infinity" then .infinite negative
  else
    match readDecimal t with
    | some q => nearestDouble negative q
    | none => .nan

def readLiteral : Text → JsNumber
  | [] => .finite false 0
  | c :: rest =>
    if c = MINUS then readSigned true rest
    else if c = PLUS then readSigned false rest
    else
      match radixOf rest.head? with
      | some radix => if c = ZERO then readRadix radix rest.tail else readSigned false (c :: rest)
      | none => readSigned false (c :: rest)

theorem radixOf_numeralUnit (h : isNumeralUnit c = true) :
    radixOf (some c) = none := by
  have hne : c ≠ 0x78 ∧ c ≠ 0x58 ∧ c ≠ 0x6F ∧ c ≠ 0x4F ∧ c ≠ 0x62 ∧ c ≠ 0x42 := by
    refine ⟨?_, ?_, ?_, ?_, ?_, ?_⟩ <;>
    · rintro rfl
      revert h
      decide
  simp [radixOf, hne]

theorem readLiteral_numeral (negative : Bool) (n : Numeral) :
    readLiteral (signText negative ++ n.text) = nearestDouble negative n.value := by
  have hunits := n.units_text
  have hread := n.readDecimal_text
  obtain ⟨c, rest, htext, hdigit⟩ : ∃ c rest, n.text = c :: rest ∧ isDigit c = true := by
    obtain ⟨c, whole, hwhole⟩ := List.exists_cons_of_ne_nil n.whole_ne_nil
    refine ⟨c, _, by rw [Numeral.text, numeral, hwhole, List.cons_append, List.cons_append], ?_⟩
    exact n.digits_whole c (by rw [hwhole]; exact List.mem_cons_self)
  rw [htext] at hunits hread
  have hsigned (sign : Bool) : readSigned sign (c :: rest) = nearestDouble sign n.value := by
    have hne : c :: rest ≠ units "Infinity" := by
      intro h
      have hc : c = 0x49 := by
        have := congrArg List.head? h
        simpa [units] using this
      rw [hc] at hdigit
      exact absurd hdigit (by decide)
    rw [readSigned, if_neg hne, hread]
  rw [htext]
  cases negative with
  | true => exact hsigned true
  | false =>
    have hminus : c ≠ MINUS := by rintro rfl; exact absurd hdigit (by decide)
    have hplus : c ≠ PLUS := by rintro rfl; exact absurd hdigit (by decide)
    have hradix : radixOf rest.head? = none := by
      cases rest with
      | nil => rfl
      | cons d rest => exact radixOf_numeralUnit (hunits d (by simp))
    rw [signText, if_neg (by simp), List.nil_append, readLiteral, if_neg hminus, if_neg hplus,
      hradix]
    exact hsigned false


/-! ## A double written and read -/

theorem nearestDouble_eq (negative : Bool) (q : ℚ≥0) :
    nearestDouble negative q =
      if binary64.roundMagnitude q < binary64.infinity then
        .finite negative (binary64.magnitude (binary64.roundMagnitude q))
      else .infinite negative := by
  rw [nearestDouble, FloatFormat.pattern]
  split_ifs with h
  · exact FloatFormat.value_magnitude h negative
  · have heq : binary64.roundMagnitude q = binary64.infinity :=
      le_antisymm (FloatFormat.roundMagnitude_le q) (not_lt.mp h)
    rw [heq]
    exact FloatFormat.value_infinity negative

variable {q : ℚ≥0}

theorem nearestDouble_signed {r : ℚ≥0} (h : nearestDouble false q = .finite false r)
    (negative : Bool) : nearestDouble negative q = .finite negative r := by
  rw [nearestDouble_eq] at h ⊢
  split_ifs at h ⊢ with hlt
  rw [(JsNumber.finite.inj h).2]

variable {negative : Bool}

theorem nearestDouble_of_holds (h : binary64.Holds (.finite negative q)) :
    nearestDouble negative q = .finite negative q :=
  FloatFormat.value_pattern (by decide) h

variable {p : ℕ}

theorem natDigits_length {n : ℕ} (hp : 0 < p) (hlo : 10 ^ (p - 1) ≤ n) (hhi : n < 10 ^ p) :
    (natDigits n).length = p := by
  have hpos : n ≠ 0 := by
    have : 0 < 10 ^ (p - 1) := Nat.pow_pos (by norm_num)
    omega
  have hlog : Nat.log 10 n = p - 1 := by
    refine Nat.log_eq_of_pow_le_of_lt_pow hlo ?_
    rwa [Nat.sub_add_cancel hp]
  rw [natDigits, if_neg hpos, List.length_map, List.length_reverse,
    Nat.length_digits 10 n (by norm_num) hpos, hlog, Nat.sub_add_cancel hp]

theorem precisionDigits_bounds (hp : 0 < p) (hq : 0 < q) :
    10 ^ (p - 1) ≤ (precisionDigits p q).1 ∧ (precisionDigits p q).1 < 10 ^ p := by
  have hten : (0 : ℚ≥0) < 10 := by norm_num
  have hunit : (0 : ℚ≥0) < 10 ^ (Int.log 10 q - p + 1) := zpow_pos hten _
  have hlo : (10 : ℚ≥0) ^ (p - 1) ≤ q / 10 ^ (Int.log 10 q - p + 1) := by
    rw [le_div_iff₀ hunit, ← zpow_natCast, ← zpow_add₀ hten.ne']
    have h := Int.zpow_log_le_self (b := 10) (by norm_num) hq
    rw [Nat.cast_ofNat] at h
    convert h using 2
    omega
  have hhi : q / 10 ^ (Int.log 10 q - p + 1) < (10 : ℚ≥0) ^ p := by
    rw [div_lt_iff₀ hunit, ← zpow_natCast, ← zpow_add₀ hten.ne']
    have h := Int.lt_zpow_succ_log_self (b := 10) (by norm_num) q
    rw [Nat.cast_ofNat] at h
    convert h using 2
    omega
  have hfloor : 10 ^ (p - 1) ≤ ⌊q / (10 : ℚ≥0) ^ (Int.log 10 q - p + 1) + 1 / (2 : ℕ)⌋₊ := by
    refine Nat.le_floor ?_
    push_cast
    exact le_trans hlo le_self_add
  have hceil : ⌊q / (10 : ℚ≥0) ^ (Int.log 10 q - p + 1) + 1 / (2 : ℕ)⌋₊ ≤ 10 ^ p := by
    refine Nat.lt_succ_iff.mp ((Nat.floor_lt (by positivity)).mpr ?_)
    push_cast
    exact add_lt_add hhi (by norm_num)
  have hpow : 10 ^ (p - 1) < 10 ^ p := Nat.pow_lt_pow_right (by norm_num) (by omega)
  simp only [precisionDigits]
  split_ifs with hround
  · exact ⟨le_rfl, hpow⟩
  · exact ⟨hfloor, lt_of_le_of_ne hceil hround⟩

theorem toDigits_le (hp : 0 < p) (hq : 0 < q) : toDigits p q ≤ 10 * q := by
  have hten : (0 : ℚ≥0) < 10 := by norm_num
  obtain ⟨-, hhi⟩ := precisionDigits_bounds hp hq
  have hlog := Int.zpow_log_le_self (b := 10) (by norm_num) hq
  rw [Nat.cast_ofNat] at hlog
  have hnext : toDigits p q ≤ (10 : ℚ≥0) ^ (Int.log 10 q + 1) := by
    rw [toDigits]
    simp only [precisionDigits] at hhi ⊢
    split_ifs at hhi ⊢ with hround
    · refine le_of_eq ?_
      push_cast
      rw [← zpow_natCast, ← zpow_add₀ hten.ne']
      congr 1
      omega
    · have hle : ((⌊q / (10 : ℚ≥0) ^ (Int.log 10 q - p + 1) + 1 / (2 : ℕ)⌋₊ : ℕ) : ℚ≥0) ≤
          (10 : ℚ≥0) ^ p := by
        exact_mod_cast hhi.le
      refine (mul_le_mul_of_nonneg_right hle zero_le).trans (le_of_eq ?_)
      rw [← zpow_natCast, ← zpow_add₀ hten.ne']
      congr 1
      ring
  refine hnext.trans ?_
  rw [zpow_add₀ hten.ne', zpow_one, mul_comm]
  exact mul_le_mul_of_nonneg_left hlog hten.le

theorem value_precisionNumeral (hp : 0 < p) (hq : 0 < q) :
    (precisionNumeral p q).value = toDigits p q := by
  obtain ⟨hlo, hhi⟩ := precisionDigits_bounds hp hq
  rw [precisionNumeral, value_layout, natDigits_length hp hlo hhi, toDigits]
  congr 2
  ring

theorem exists_dyadic (f : FloatFormat) (m : ℕ) : ∃ s k : ℕ, f.magnitude m * 2 ^ k = s := by
  have hunit (s e : ℕ) : ∃ s' k : ℕ, (s : ℚ≥0) * f.unit e * 2 ^ k = s' := by
    refine ⟨s * 2 ^ e, f.bias + f.fractionBits, ?_⟩
    have htwo : (2 : ℚ≥0) ≠ 0 := by norm_num
    push_cast
    rw [mul_assoc, FloatFormat.unit, ← zpow_natCast, ← zpow_add₀ htwo, ← zpow_natCast]
    congr 2
    push_cast
    ring
  rw [FloatFormat.magnitude]
  split_ifs
  · exact hunit m 1
  · exact hunit _ _

theorem den_eq_two_pow {s k : ℕ} (h : q * 2 ^ k = s) : ∃ j, q.den = 2 ^ j := by
  have hcross : q.num * 2 ^ k = s * q.den := by
    have hden : (q.den : ℚ≥0) ≠ 0 := by exact_mod_cast q.den_ne_zero
    have hq : (q.num : ℚ≥0) * 2 ^ k = s * q.den := by
      rw [← h, ← NNRat.num_div_den q, NNRat.num_div_den]
      field_simp
      rw [NNRat.mul_den_eq_num]
    exact_mod_cast hq
  have hdvd : q.den ∣ 2 ^ k :=
    (Nat.Coprime.symm (NNRat.coprime_num_den q)).dvd_of_dvd_mul_left ⟨s, by rw [hcross, mul_comm]⟩
  obtain ⟨j, -, hj⟩ := (Nat.dvd_prime_pow Nat.prime_two).mp hdvd
  exact ⟨j, hj⟩

theorem exactDigits_value {j : ℕ} (h : q.den = 2 ^ j) :
    ((exactDigits q).1 : ℚ≥0) * (10 : ℚ≥0) ^ (exactDigits q).2 = q := by
  have hwhole : q * 10 ^ j = ((q.num * 5 ^ j : ℕ) : ℚ≥0) := by
    have hten : (10 : ℚ≥0) ^ j = q.den * 5 ^ j := by
      rw [h, Nat.cast_pow, Nat.cast_ofNat, ← mul_pow]
      norm_num
    rw [hten, ← mul_assoc, NNRat.mul_den_eq_num]
    push_cast
    rfl
  have hlog : Nat.log 2 q.den = j := by rw [h, Nat.log_pow (by norm_num)]
  simp only [exactDigits, hlog]
  rw [hwhole, Nat.floor_natCast, ← hwhole, zpow_neg, zpow_natCast,
    mul_inv_cancel_right₀ (pow_ne_zero _ (by norm_num))]

theorem digitsOfLength_reads {k : ℕ} {d : ℕ × ℤ} (h : digitsOfLength q k = some d) :
    nearestDouble false ((d.1 : ℚ≥0) * (10 : ℚ≥0) ^ d.2) = .finite false q := by
  obtain ⟨s, hs, hd⟩ := Option.map_eq_some_iff.mp h
  have hfound := List.find?_some hs
  have hreads : nearestDouble false ((s : ℚ≥0) * (10 : ℚ≥0) ^ (Int.log 10 q + 1 - k)) =
      .finite false q := of_decide_eq_true hfound
  split_ifs at hd with hround
  · subst hd hround
    rw [← hreads]
    congr 1
    rw [Nat.cast_one, one_mul, zpow_add₀ (by norm_num), zpow_natCast, mul_comm]
    push_cast
    rfl
  · subst hd
    exact hreads

theorem shortestDigits_reads (h : binary64.Holds (.finite false q)) :
    nearestDouble false (((shortestDigits q).1 : ℚ≥0) * (10 : ℚ≥0) ^ (shortestDigits q).2) =
      .finite false q := by
  rw [shortestDigits]
  cases hfind : (List.range (natDigits (exactDigits q).1).length).findSome? fun i =>
      digitsOfLength q (i + 1) with
  | some d =>
    obtain ⟨k, -, hk⟩ := List.exists_of_findSome?_eq_some hfind
    exact digitsOfLength_reads hk
  | none =>
    obtain ⟨p, -, hp⟩ := h
    rw [FloatFormat.value] at hp
    split_ifs at hp with hlt
    obtain ⟨s, k, hdyadic⟩ := exists_dyadic binary64 (p % binary64.signBit)
    obtain ⟨-, rfl⟩ := JsNumber.finite.inj hp
    obtain ⟨j, hj⟩ := den_eq_two_pow hdyadic
    rw [Option.getD_none, exactDigits_value hj]
    exact nearestDouble_of_holds (FloatFormat.holds_magnitude hlt false)

theorem readLiteral_numberToString (h : binary64.Holds (.finite false q)) :
    readLiteral (numberToString (.finite negative q)) = .finite (negative && q ≠ 0) q := by
  rw [numberToString]
  split_ifs with hzero
  · have hread : readLiteral [ZERO] = nearestDouble false 0 := by decide +kernel
    rw [hread, nearestDouble_eq]
    subst hzero
    simp
    decide +kernel
  · rw [readLiteral_numeral, shortestNumeral, value_layout, add_sub_cancel_right]
    simpa [hzero] using nearestDouble_signed (shortestDigits_reads h) negative

theorem trimFraction_toPrecision (p : ℕ) (negative : Bool) (hq : 0 < q) :
    trimFraction (toPrecision p (.finite negative q)) =
      signText negative ++ (precisionNumeral p q).trimmed.text := by
  rw [toPrecision, if_neg hq.ne', ← Numeral.trimFraction_text]
  cases negative with
  | false => rfl
  | true => exact trimFraction_cons (by decide) _

theorem readLiteral_toPrecision (hp : 0 < p) (hq : 0 < q) :
    readLiteral (trimFraction (toPrecision p (.finite negative q))) =
      nearestDouble negative (toDigits p q) := by
  rw [trimFraction_toPrecision p negative hq, readLiteral_numeral, Numeral.value_trimmed,
    value_precisionNumeral hp hq]

/-! ## The characters -/

theorem units_signed (negative : Bool) (n : Numeral) :
    ∀ c ∈ signText negative ++ n.text, isNumeralUnit c = true := by
  intro c hc
  rcases List.mem_append.mp hc with hc | hc
  · cases negative with
    | false => cases hc
    | true =>
      rw [List.mem_singleton.mp hc]
      decide
  · exact n.units_text c hc

theorem text_ne_nil (n : Numeral) : n.text ≠ [] := by
  simp [Numeral.text, numeral, n.whole_ne_nil]

theorem units_numberToString (negative : Bool) (q : ℚ≥0) :
    numberToString (.finite negative q) ≠ [] ∧
      ∀ c ∈ numberToString (.finite negative q), isNumeralUnit c = true := by
  rw [numberToString]
  split_ifs
  · refine ⟨by simp, fun c hc => ?_⟩
    rw [List.mem_singleton.mp hc]
    decide
  · exact ⟨by simp [text_ne_nil], units_signed negative _⟩

theorem units_toPrecision (p : ℕ) (negative : Bool) (hq : 0 < q) :
    trimFraction (toPrecision p (.finite negative q)) ≠ [] ∧
      ∀ c ∈ trimFraction (toPrecision p (.finite negative q)), isNumeralUnit c = true := by
  rw [trimFraction_toPrecision p negative hq]
  exact ⟨by simp [text_ne_nil], units_signed negative _⟩

end ArduConfigurator.DecimalText
