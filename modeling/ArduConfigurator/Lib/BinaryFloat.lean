import Mathlib.Data.Int.Log
import Mathlib.Data.NNRat.Floor

/-! # Numbers and their binary interchange formats

A number is a signed magnitude, an infinity or not a number. A format stores numbers in bit
patterns of a sign, an exponent and a fraction field; a number is written to it by rounding to the
nearest pattern, ties to even, and a pattern that is read and written again comes back as it was. -/
namespace ArduConfigurator
open scoped NNRat
set_option autoImplicit false

/-- A JavaScript number. -/
inductive JsNumber
  | nan
  | infinite (negative : Bool)
  | finite (negative : Bool) (magnitude : ℚ≥0)
  deriving DecidableEq

/-- How many exponent and fraction bits a pattern has. -/
structure FloatFormat where
  exponentBits : ℕ
  fractionBits : ℕ

def roundHalfEven (q : ℚ≥0) : ℕ :=
  let n := ⌊q⌋₊
  let r := q - n
  if r < 1 / 2 ∨ (r = 1 / 2 ∧ n % 2 = 0) then n else n + 1

@[simp] theorem roundHalfEven_natCast (n : ℕ) : roundHalfEven (n : ℚ≥0) = n := by
  have h : (n : ℚ≥0) - n < 1 / 2 := by
    rw [tsub_self]
    norm_num
  simp only [roundHalfEven, Nat.floor_natCast]
  rw [if_pos (.inl h)]

theorem roundHalfEven_le {q : ℚ≥0} {n : ℕ} (h : q ≤ n) : roundHalfEven q ≤ n := by
  rcases h.eq_or_lt with rfl | hlt
  · rw [roundHalfEven_natCast]
  · have hfloor : ⌊q⌋₊ < n := (Nat.floor_lt zero_le).mpr hlt
    rw [roundHalfEven]
    split_ifs
    · omega
    · omega

namespace FloatFormat
variable (f : FloatFormat)

def bias : ℕ := 2 ^ (f.exponentBits - 1) - 1

def infinity : ℕ := (2 ^ f.exponentBits - 1) * 2 ^ f.fractionBits

def signBit : ℕ := 2 ^ (f.exponentBits + f.fractionBits)

/-- The step between the patterns of exponent field `e`. -/
def unit (e : ℕ) : ℚ≥0 := (2 : ℚ≥0) ^ ((e : ℤ) - f.bias - f.fractionBits)

def magnitude (m : ℕ) : ℚ≥0 :=
  let e := m / 2 ^ f.fractionBits
  if e = 0 then (m : ℚ≥0) * f.unit 1
  else ((2 ^ f.fractionBits + m % 2 ^ f.fractionBits : ℕ) : ℚ≥0) * f.unit e

def value (p : ℕ) : JsNumber :=
  let negative := decide (f.signBit ≤ p)
  let m := p % f.signBit
  if m < f.infinity then .finite negative (f.magnitude m)
  else if m = f.infinity then .infinite negative
  else .nan

def roundMagnitude (q : ℚ≥0) : ℕ :=
  if q = 0 then 0
  else
    let e := (max 1 (Int.log 2 q + f.bias)).toNat
    min f.infinity ((e - 1) * 2 ^ f.fractionBits + roundHalfEven (q / f.unit e))

def pattern : JsNumber → ℕ
  | .nan => f.infinity + 2 ^ (f.fractionBits - 1)
  | .infinite negative => negative.toNat * f.signBit + f.infinity
  | .finite negative q => negative.toNat * f.signBit + f.roundMagnitude q

/-- A number some pattern of the format stands for. -/
def Holds (x : JsNumber) : Prop := ∃ p < 2 * f.signBit, f.value p = x

variable {f}

theorem unit_pos (e : ℕ) : 0 < f.unit e := zpow_pos (by norm_num) _

theorem infinity_lt_signBit : f.infinity < f.signBit := by
  have he : 0 < 2 ^ f.exponentBits := Nat.two_pow_pos _
  have ht : 0 < 2 ^ f.fractionBits := Nat.two_pow_pos _
  rw [infinity, signBit, pow_add]
  exact Nat.mul_lt_mul_of_pos_right (by omega) ht

variable {m : ℕ}

theorem magnitude_of_lt (h : m < 2 ^ f.fractionBits) :
    f.magnitude m = (m : ℚ≥0) * f.unit 1 := by
  rw [magnitude, Nat.div_eq_of_lt h]
  exact if_pos rfl

theorem magnitude_of_le (h : 2 ^ f.fractionBits ≤ m) :
    f.magnitude m = ((2 ^ f.fractionBits + m % 2 ^ f.fractionBits : ℕ) : ℚ≥0) *
      f.unit (m / 2 ^ f.fractionBits) := by
  rw [magnitude]
  exact if_neg (Nat.div_pos h (Nat.two_pow_pos _)).ne'

variable {s e : ℕ}

theorem log_mul_unit (hlo : 2 ^ f.fractionBits ≤ s) (hhi : s < 2 ^ (f.fractionBits + 1)) :
    Int.log 2 ((s : ℚ≥0) * f.unit e) = (e : ℤ) - f.bias := by
  have hs : 0 < s := lt_of_lt_of_le (Nat.two_pow_pos _) hlo
  have hpos : 0 < (s : ℚ≥0) * f.unit e := mul_pos (by exact_mod_cast hs) (unit_pos e)
  have scale : ∀ k : ℕ, (2 : ℚ≥0) ^ ((e : ℤ) - f.bias - f.fractionBits + k) =
      ((2 ^ k : ℕ) : ℚ≥0) * f.unit e := by
    intro k
    rw [zpow_add₀ (by norm_num), mul_comm, zpow_natCast, unit]
    push_cast
    rfl
  apply le_antisymm
  · apply Int.lt_add_one_iff.mp
    apply (Int.lt_zpow_iff_log_lt (b := 2) (by norm_num) hpos).mp
    have hk := scale (f.fractionBits + 1)
    rw [show ((e : ℤ) - f.bias - f.fractionBits + (f.fractionBits + 1 : ℕ)) = e - f.bias + 1 by
      push_cast; ring] at hk
    rw [Nat.cast_ofNat, hk]
    exact mul_lt_mul_of_pos_right (by exact_mod_cast hhi) (unit_pos e)
  · apply (Int.zpow_le_iff_le_log (b := 2) (by norm_num) hpos).mp
    have hk := scale f.fractionBits
    rw [show ((e : ℤ) - f.bias - f.fractionBits + (f.fractionBits : ℕ)) = e - f.bias by ring] at hk
    rw [Nat.cast_ofNat, hk]
    exact mul_le_mul_of_nonneg_right (by exact_mod_cast hlo) (unit_pos e).le

/-- A whole number of units, with the leading bit where the exponent field says, is not rounded. -/
theorem roundMagnitude_unit (he : 1 ≤ e) (hhi : s < 2 ^ (f.fractionBits + 1))
    (hlo : 2 ^ f.fractionBits ≤ s ∨ e = 1) :
    f.roundMagnitude ((s : ℚ≥0) * f.unit e) =
      min f.infinity ((e - 1) * 2 ^ f.fractionBits + s) := by
  obtain rfl | hpos := Nat.eq_zero_or_pos s
  · obtain rfl : e = 1 := hlo.resolve_left (by have := Nat.two_pow_pos f.fractionBits; omega)
    simp [roundMagnitude]
  have hq : 0 < (s : ℚ≥0) * f.unit e := mul_pos (by exact_mod_cast hpos) (unit_pos e)
  have hexp : (max 1 (Int.log 2 ((s : ℚ≥0) * f.unit e) + f.bias)).toNat = e := by
    by_cases hs : 2 ^ f.fractionBits ≤ s
    · rw [log_mul_unit hs hhi]
      omega
    · obtain rfl : e = 1 := hlo.resolve_left hs
      have hle : (s : ℚ≥0) * f.unit 1 ≤ ((2 ^ f.fractionBits : ℕ) : ℚ≥0) * f.unit 1 :=
        mul_le_mul_of_nonneg_right (by exact_mod_cast (not_le.mp hs).le) (unit_pos 1).le
      have hmono := Int.log_mono_right (b := 2) hq hle
      rw [log_mul_unit le_rfl (Nat.pow_lt_pow_right (by norm_num) (by omega))] at hmono
      omega
  rw [roundMagnitude, if_neg hq.ne', hexp]
  simp only [mul_div_cancel_right₀ _ (unit_pos e).ne', roundHalfEven_natCast]

theorem roundMagnitude_magnitude (hm : m < f.infinity) :
    f.roundMagnitude (f.magnitude m) = m := by
  have ht : 0 < 2 ^ f.fractionBits := Nat.two_pow_pos _
  have hdiv := Nat.div_add_mod m (2 ^ f.fractionBits)
  have hmod := Nat.mod_lt m ht
  by_cases hlow : m < 2 ^ f.fractionBits
  · rw [magnitude_of_lt hlow, roundMagnitude_unit le_rfl (by rw [pow_succ]; omega) (.inr rfl)]
    omega
  · have hpos : 0 < m / 2 ^ f.fractionBits := Nat.div_pos (not_lt.mp hlow) ht
    rw [magnitude_of_le (not_lt.mp hlow), roundMagnitude_unit hpos (by rw [pow_succ]; omega)
      (.inl (Nat.le_add_right _ _)), Nat.sub_one_mul]
    rw [mul_comm] at hdiv
    have hle : 2 ^ f.fractionBits ≤ m / 2 ^ f.fractionBits * 2 ^ f.fractionBits :=
      Nat.le_mul_of_pos_left _ hpos
    omega

/-- Reading a pattern and writing it again gives the pattern, unless it was not a number. -/
theorem pattern_value {p : ℕ} (hp : p < 2 * f.signBit) (hn : f.value p ≠ .nan) :
    f.pattern (f.value p) = p := by
  have hinf := f.infinity_lt_signBit
  have hsign : (decide (f.signBit ≤ p)).toNat * f.signBit + p % f.signBit = p := by
    by_cases h : f.signBit ≤ p
    · have hmod : p % f.signBit = p - f.signBit := by
        rw [Nat.mod_eq_sub_mod h, Nat.mod_eq_of_lt (by omega)]
      rw [hmod, decide_eq_true h, Bool.toNat_true]
      omega
    · rw [decide_eq_false h, Nat.mod_eq_of_lt (by omega)]
      simp
  rw [value] at hn ⊢
  by_cases hlt : p % f.signBit < f.infinity
  · simp only [hlt, if_true]
    rw [pattern, roundMagnitude_magnitude hlt, hsign]
  · by_cases heq : p % f.signBit = f.infinity
    · simp only [heq, lt_irrefl, if_false, if_true]
      rw [pattern, ← heq, hsign]
    · simp [hlt, heq] at hn

theorem pattern_nan_lt (ht : 0 < f.fractionBits) : f.pattern .nan < f.signBit := by
  have hhalf : 2 ^ (f.fractionBits - 1) < 2 ^ f.fractionBits :=
    Nat.pow_lt_pow_right (by norm_num) (by omega)
  have hexp : 0 < 2 ^ f.exponentBits := Nat.two_pow_pos _
  have hle : 2 ^ f.fractionBits ≤ 2 ^ f.exponentBits * 2 ^ f.fractionBits :=
    Nat.le_mul_of_pos_left _ hexp
  rw [pattern, infinity, signBit, pow_add, Nat.sub_one_mul]
  omega

theorem roundMagnitude_le (q : ℚ≥0) : f.roundMagnitude q ≤ f.infinity := by
  rw [roundMagnitude]
  split
  · exact Nat.zero_le _
  · exact min_le_left _ _

variable {q : ℚ≥0}

theorem roundMagnitude_lt (hexp : 2 ≤ f.exponentBits) (hq : q < 2 ^ f.bias) :
    f.roundMagnitude q < f.infinity := by
  have hfraction : 0 < 2 ^ f.fractionBits := Nat.two_pow_pos _
  have hfour : 4 ≤ 2 ^ f.exponentBits := by
    calc 4 = 2 ^ 2 := rfl
      _ ≤ 2 ^ f.exponentBits := Nat.pow_le_pow_right (by norm_num) hexp
  have hbias : 2 * f.bias + 2 = 2 ^ f.exponentBits := by
    have hsplit : 2 ^ f.exponentBits = 2 * 2 ^ (f.exponentBits - 1) := by
      rw [← pow_succ', Nat.sub_add_cancel (by omega)]
    rw [bias]
    omega
  rw [roundMagnitude]
  split_ifs with hzero
  · exact Nat.mul_pos (by omega) hfraction
  have hpos : 0 < q := pos_iff_ne_zero.mpr hzero
  have hlog : Int.log 2 q < f.bias := by
    refine (Int.lt_zpow_iff_log_lt (b := 2) (by norm_num) hpos).mp ?_
    rw [zpow_natCast]
    exact_mod_cast hq
  generalize he : (max 1 (Int.log 2 q + f.bias)).toNat = e
  have hscaled : q / f.unit e ≤ ((2 ^ (f.fractionBits + 1) : ℕ) : ℚ≥0) := by
    rw [div_le_iff₀ (unit_pos e), unit]
    push_cast
    rw [← zpow_natCast, ← zpow_add₀ (by norm_num)]
    have hlt := Int.lt_zpow_succ_log_self (b := 2) (by norm_num) q
    rw [Nat.cast_ofNat] at hlt
    refine hlt.le.trans (zpow_le_zpow_right₀ (by norm_num) ?_)
    push_cast
    omega
  have hround := roundHalfEven_le hscaled
  have hsum : (e - 1) * 2 ^ f.fractionBits + 2 ^ (f.fractionBits + 1) =
      (e + 1) * 2 ^ f.fractionBits := by
    rw [pow_succ, mul_comm _ 2, ← Nat.add_mul]
    congr 1
    omega
  have hlt : (e + 1) * 2 ^ f.fractionBits < f.infinity :=
    Nat.mul_lt_mul_of_pos_right (by omega) hfraction
  refine (min_le_right _ _).trans_lt (lt_of_le_of_lt ?_ hlt)
  rw [← hsum]
  omega

theorem pattern_lt (ht : 0 < f.fractionBits) (x : JsNumber) : f.pattern x < 2 * f.signBit := by
  have hinf := f.infinity_lt_signBit
  cases x with
  | nan => exact lt_of_lt_of_le (pattern_nan_lt ht) (Nat.le_mul_of_pos_left _ (by norm_num))
  | infinite negative =>
    rw [pattern]
    have := Bool.toNat_le negative
    nlinarith
  | finite negative q =>
    have hq := roundMagnitude_le (f := f) q
    rw [pattern]
    have := Bool.toNat_le negative
    nlinarith

theorem value_pattern_nan (ht : 0 < f.fractionBits) :
    f.value (f.pattern .nan) = .nan := by
  have hpos : 0 < 2 ^ (f.fractionBits - 1) := Nat.two_pow_pos _
  have hlt := pattern_nan_lt ht
  rw [pattern] at hlt
  rw [pattern, value, Nat.mod_eq_of_lt hlt]
  simp only [Nat.not_lt.mpr (Nat.le_add_right _ _), if_false]
  rw [if_neg (by omega)]

theorem value_pattern (ht : 0 < f.fractionBits) {x : JsNumber}
    (hx : f.Holds x) : f.value (f.pattern x) = x := by
  obtain ⟨p, hp, rfl⟩ := hx
  by_cases hn : f.value p = .nan
  · rw [hn, value_pattern_nan ht]
  · rw [pattern_value hp hn]

/-! ## Exact results -/

theorem magnitude_fields (he : 1 ≤ e) (hlo : 2 ^ f.fractionBits ≤ s)
    (hhi : s < 2 ^ (f.fractionBits + 1)) :
    f.magnitude ((e - 1) * 2 ^ f.fractionBits + s) = (s : ℚ≥0) * f.unit e := by
  have ht : 0 < 2 ^ f.fractionBits := Nat.two_pow_pos _
  rw [pow_succ] at hhi
  have hsplit : (e - 1) * 2 ^ f.fractionBits + s =
      (s - 2 ^ f.fractionBits) + 2 ^ f.fractionBits * e := by
    obtain ⟨k, rfl⟩ : ∃ k, e = k + 1 := ⟨e - 1, by omega⟩
    rw [Nat.add_sub_cancel, mul_comm, Nat.mul_succ]
    omega
  have hlt : s - 2 ^ f.fractionBits < 2 ^ f.fractionBits := by omega
  have hdiv : ((s - 2 ^ f.fractionBits) + 2 ^ f.fractionBits * e) / 2 ^ f.fractionBits = e := by
    rw [Nat.add_mul_div_left _ _ ht, Nat.div_eq_of_lt hlt, zero_add]
  have hmod : ((s - 2 ^ f.fractionBits) + 2 ^ f.fractionBits * e) % 2 ^ f.fractionBits =
      s - 2 ^ f.fractionBits := by
    rw [Nat.add_mul_mod_self_left, Nat.mod_eq_of_lt hlt]
  have hge : 2 ^ f.fractionBits ≤ (s - 2 ^ f.fractionBits) + 2 ^ f.fractionBits * e :=
    Nat.le_add_left_of_le (Nat.le_mul_of_pos_right _ he)
  rw [hsplit, magnitude_of_le hge, hdiv, hmod, Nat.add_sub_cancel' hlo]

theorem fields_lt_infinity (he : 1 ≤ e) (hhi : s < 2 ^ (f.fractionBits + 1))
    (hmax : e + 2 ≤ 2 ^ f.exponentBits) :
    (e - 1) * 2 ^ f.fractionBits + s < f.infinity := by
  have hle : (e + 1) * 2 ^ f.fractionBits ≤ f.infinity :=
    Nat.mul_le_mul_right _ (by omega)
  rw [pow_succ] at hhi
  rw [Nat.sub_one_mul]
  rw [Nat.add_mul, one_mul] at hle
  have : 2 ^ f.fractionBits ≤ e * 2 ^ f.fractionBits := Nat.le_mul_of_pos_left _ he
  omega

theorem value_magnitude (hm : m < f.infinity) (negative : Bool) :
    f.value (negative.toNat * f.signBit + m) = .finite negative (f.magnitude m) := by
  have hinf := f.infinity_lt_signBit
  have hmod : (negative.toNat * f.signBit + m) % f.signBit = m := by
    rw [add_comm, Nat.add_mul_mod_self_right, Nat.mod_eq_of_lt (by omega)]
  have hneg : decide (f.signBit ≤ negative.toNat * f.signBit + m) = negative := by
    cases negative
    · rw [Bool.toNat_false, zero_mul, zero_add, decide_eq_false (by omega)]
    · rw [Bool.toNat_true, one_mul, decide_eq_true (by omega)]
  simp only [value, hmod, hneg, hm, if_true]

theorem value_infinity (negative : Bool) :
    f.value (negative.toNat * f.signBit + f.infinity) = .infinite negative := by
  have hinf := f.infinity_lt_signBit
  have hmod : (negative.toNat * f.signBit + f.infinity) % f.signBit = f.infinity := by
    rw [add_comm, Nat.add_mul_mod_self_right, Nat.mod_eq_of_lt hinf]
  have hneg : decide (f.signBit ≤ negative.toNat * f.signBit + f.infinity) = negative := by
    cases negative
    · rw [Bool.toNat_false, zero_mul, zero_add, decide_eq_false (by omega)]
    · rw [Bool.toNat_true, one_mul, decide_eq_true (by omega)]
  simp only [value, hmod, hneg, lt_irrefl, if_true, if_false]

theorem value_nan (hm : f.infinity < m) (hlt : m < f.signBit) (negative : Bool) :
    f.value (negative.toNat * f.signBit + m) = .nan := by
  have hmod : (negative.toNat * f.signBit + m) % f.signBit = m := by
    rw [add_comm, Nat.add_mul_mod_self_right, Nat.mod_eq_of_lt hlt]
  simp only [value, hmod, if_neg hm.not_gt, if_neg hm.ne']

theorem holds_magnitude (hm : m < f.infinity) (negative : Bool) :
    f.Holds (.finite negative (f.magnitude m)) := by
  refine ⟨negative.toNat * f.signBit + m, ?_, value_magnitude hm negative⟩
  have hinf := f.infinity_lt_signBit
  have := Bool.toNat_le negative
  nlinarith

/-- A short significand at an exponent well inside the range is held exactly. -/
theorem exists_magnitude {k : ℤ} (hm : 0 < m) (hlt : m < 2 ^ (f.fractionBits + 1))
    (hlo : 1 ≤ k + f.bias) (hhi : k + f.bias + f.fractionBits + 2 ≤ 2 ^ f.exponentBits) :
    ∃ u < f.infinity, f.magnitude u = (m : ℚ≥0) * 2 ^ k := by
  have hlog : m.log2 ≤ f.fractionBits :=
    Nat.lt_succ_iff.mp ((Nat.log2_lt hm.ne').mpr hlt)
  obtain ⟨j, hj⟩ : ∃ j, f.fractionBits = m.log2 + j := ⟨f.fractionBits - m.log2, by omega⟩
  obtain ⟨e, he⟩ : ∃ e : ℕ, (e : ℤ) = k - j + f.bias + f.fractionBits :=
    ⟨(k - j + f.bias + f.fractionBits).toNat, by omega⟩
  have hle : 2 ^ f.fractionBits ≤ m * 2 ^ j := by
    rw [hj, pow_add]
    exact Nat.mul_le_mul_right _ (Nat.log2_self_le hm.ne')
  have hgt : m * 2 ^ j < 2 ^ (f.fractionBits + 1) := by
    rw [hj, Nat.add_right_comm, pow_add]
    exact Nat.mul_lt_mul_of_pos_right Nat.lt_log2_self (Nat.two_pow_pos j)
  have he1 : 1 ≤ e := by omega
  have hmax : e + 2 ≤ 2 ^ f.exponentBits := by
    zify
    omega
  refine ⟨(e - 1) * 2 ^ f.fractionBits + m * 2 ^ j, fields_lt_infinity he1 hgt hmax, ?_⟩
  rw [magnitude_fields he1 hle hgt, unit, he]
  rw [show k - j + f.bias + f.fractionBits - f.bias - f.fractionBits = k - (j : ℤ) by ring]
  rw [zpow_sub₀ (by norm_num), zpow_natCast]
  push_cast
  field_simp

theorem magnitude_le (hexp : 2 ≤ f.exponentBits) (hm : m < f.infinity) :
    f.magnitude m ≤
      ((2 ^ (f.fractionBits + 1) - 1 : ℕ) : ℚ≥0) * f.unit (2 ^ f.exponentBits - 2) := by
  have ht : 0 < 2 ^ f.fractionBits := Nat.two_pow_pos _
  have hmod := Nat.mod_lt m ht
  have hdiv : m / 2 ^ f.fractionBits < 2 ^ f.exponentBits - 1 :=
    (Nat.div_lt_iff_lt_mul ht).mpr hm
  have unit_le : ∀ e : ℕ, e ≤ 2 ^ f.exponentBits - 2 → f.unit e ≤ f.unit (2 ^ f.exponentBits - 2) :=
    fun e he => zpow_le_zpow_right₀ (by norm_num) (by omega)
  have step : ∀ s e : ℕ, s ≤ 2 ^ (f.fractionBits + 1) - 1 → e ≤ 2 ^ f.exponentBits - 2 →
      (s : ℚ≥0) * f.unit e ≤
        ((2 ^ (f.fractionBits + 1) - 1 : ℕ) : ℚ≥0) * f.unit (2 ^ f.exponentBits - 2) := by
    intro s e hs he
    exact mul_le_mul (by exact_mod_cast hs) (unit_le e he) (unit_pos e).le zero_le
  by_cases hlow : m < 2 ^ f.fractionBits
  · have h4 : 2 ^ 2 ≤ 2 ^ f.exponentBits := Nat.pow_le_pow_right (by norm_num) hexp
    rw [magnitude_of_lt hlow]
    exact step m 1 (by rw [pow_succ]; omega) (by omega)
  · rw [magnitude_of_le (not_lt.mp hlow)]
    exact step _ _ (by rw [pow_succ]; omega) (by omega)

theorem Holds.magnitude_le (hexp : 2 ≤ f.exponentBits) {negative : Bool}
    (h : f.Holds (.finite negative q)) :
    q ≤ ((2 ^ (f.fractionBits + 1) - 1 : ℕ) : ℚ≥0) * f.unit (2 ^ f.exponentBits - 2) := by
  obtain ⟨p, -, hp⟩ := h
  rw [value] at hp
  by_cases hlt : p % f.signBit < f.infinity
  · simp only [hlt, if_true, JsNumber.finite.injEq] at hp
    rw [← hp.2]
    exact FloatFormat.magnitude_le hexp hlt
  · by_cases heq : p % f.signBit = f.infinity
    · simp [heq] at hp
    · simp [hlt, heq] at hp

end FloatFormat

def binary16 : FloatFormat := ⟨5, 10⟩

def binary32 : FloatFormat := ⟨8, 23⟩

def binary64 : FloatFormat := ⟨11, 52⟩

namespace JsNumber

def neg : JsNumber → JsNumber
  | .nan => .nan
  | .infinite negative => .infinite !negative
  | .finite negative q => .finite (!negative) q

def signed (negative : Bool) (q : ℚ≥0) : ℚ := if negative then -(q : ℚ) else q

/-- `x <= y`. -/
def le : JsNumber → JsNumber → Bool
  | .nan, _ => false
  | _, .nan => false
  | .infinite true, _ => true
  | _, .infinite false => true
  | .infinite false, _ => false
  | _, .infinite true => false
  | .finite n q, .finite m r => decide (signed n q ≤ signed m r)

/-- `x * y`, rounded to a double. -/
def mul : JsNumber → JsNumber → JsNumber
  | .nan, _ => .nan
  | _, .nan => .nan
  | .infinite n, .infinite m => .infinite (n != m)
  | .infinite n, .finite m r => if r = 0 then .nan else .infinite (n != m)
  | .finite n q, .infinite m => if q = 0 then .nan else .infinite (n != m)
  | .finite n q, .finite m r => binary64.value (binary64.pattern (.finite (n != m) (q * r)))

/-- `Number(i)`, rounded to a double. -/
def ofInt (i : ℤ) : JsNumber :=
  binary64.value (binary64.pattern (.finite (decide (i < 0)) i.natAbs))

theorem mul_exact {n m : Bool} {q r : ℚ≥0} (h : binary64.Holds (.finite (n != m) (q * r))) :
    mul (.finite n q) (.finite m r) = .finite (n != m) (q * r) :=
  FloatFormat.value_pattern (f := binary64) (by decide) h

theorem ofInt_eq {i : ℤ} (h : i.natAbs < 2 ^ 53) :
    ofInt i = .finite (decide (i < 0)) i.natAbs := by
  refine FloatFormat.value_pattern (f := binary64) (by decide) ?_
  obtain hz | hpos := Nat.eq_zero_or_pos i.natAbs
  · have h0 : binary64.magnitude 0 = 0 := by simp [FloatFormat.magnitude]
    rw [hz, Nat.cast_zero, ← h0]
    exact FloatFormat.holds_magnitude (by decide) _
  · obtain ⟨u, hu, hmag⟩ := FloatFormat.exists_magnitude (f := binary64) (k := 0) hpos h
      (by decide) (by decide)
    rw [zpow_zero, mul_one] at hmag
    rw [← hmag]
    exact FloatFormat.holds_magnitude hu _

end JsNumber
end ArduConfigurator
