import ArduConfigurator.Lib.BinaryFloat

/-! # float16

The half-precision conversions go through the bits of a single-precision number and one
multiplication that moves its exponent. Read back, every half-precision number is as it was. -/
namespace ArduConfigurator.Dronecan
open scoped NNRat
set_option autoImplicit false

def floatOfBits (bits : ℕ) : JsNumber := binary32.value bits

def bitsOfFloat (value : JsNumber) : ℕ := binary32.pattern value

def float16Bits (value : JsNumber) : ℕ :=
  let f32infty := 255 <<< 23
  let f16infty := 31 <<< 23
  let magic := floatOfBits (15 <<< 23)
  let u := bitsOfFloat value
  let sign := u &&& 0x80000000
  let u := u ^^^ sign
  let out :=
    if f32infty ≤ u then
      if f32infty < u then 0x7fff else 0x7c00
    else
      let u := u - u % 0x1000 -- clear the low 12 bits (round mask)
      let u := bitsOfFloat ((floatOfBits u).mul magic)
      let u := u + 0x1000
      let u := if f16infty < u then f16infty else u
      (u >>> 13) &&& 0xffff
  (out ||| ((sign >>> 16) &&& 0xffff)) &&& 0xffff

def float16Value (bits : ℕ) : JsNumber :=
  let magic := floatOfBits ((254 - 15) <<< 23)
  let wasInfNan := floatOfBits ((127 + 16) <<< 23)
  let u := (bits &&& 0x7fff) <<< 13
  let u := bitsOfFloat ((floatOfBits u).mul magic)
  let u := if wasInfNan.le (floatOfBits u) then u ||| (255 <<< 23) else u
  let u := u ||| ((bits &&& 0x8000) <<< 16)
  floatOfBits u

/-! ## The halves among the singles -/

theorem unit_binary16 (e : ℕ) : binary16.unit e = 2 ^ ((e : ℤ) - 25) := by
  rw [FloatFormat.unit]
  congr 1
  simp only [binary16, FloatFormat.bias]
  omega

theorem unit_binary32 (e : ℕ) : binary32.unit e = 2 ^ ((e : ℤ) - 150) := by
  rw [FloatFormat.unit]
  congr 1
  simp only [binary32, FloatFormat.bias]
  omega

theorem signBit_binary16 : binary16.signBit = 2 ^ 15 := rfl

variable {m : ℕ}

theorem half_value (hm : m < 31 * 2 ^ 10) (negative : Bool) :
    binary16.value (negative.toNat * 2 ^ 15 + m) = .finite negative (binary16.magnitude m) :=
  FloatFormat.value_magnitude (f := binary16) hm negative

theorem half_infinite (negative : Bool) :
    binary16.value (negative.toNat * 2 ^ 15 + 31 * 2 ^ 10) = .infinite negative :=
  FloatFormat.value_infinity (f := binary16) negative

theorem half_nan (hlo : 31 * 2 ^ 10 < m) (hhi : m < 2 ^ 15) (negative : Bool) :
    binary16.value (negative.toNat * 2 ^ 15 + m) = .nan :=
  FloatFormat.value_nan (f := binary16) hlo hhi negative

theorem single_infinite (negative : Bool) :
    binary32.value (negative.toNat * 2 ^ 31 + 255 * 2 ^ 23) = .infinite negative :=
  FloatFormat.value_infinity (f := binary32) negative

theorem single_nan (hlo : 255 * 2 ^ 23 < m) (hhi : m < 2 ^ 31) (negative : Bool) :
    binary32.value (negative.toNat * 2 ^ 31 + m) = .nan :=
  FloatFormat.value_nan (f := binary32) hlo hhi negative

theorem exists_single (hm : m < 2 ^ 15) :
    ∃ u, u < binary32.infinity ∧ binary32.magnitude u = binary16.magnitude m ∧ 2 ^ 13 ∣ u ∧
      (u = m * 2 ^ 13 + 112 * 2 ^ 23 ∨ (m < 2 ^ 10 ∧ u < 113 * 2 ^ 23)) := by
  by_cases hlow : m < 2 ^ 10
  · obtain rfl | hpos := Nat.eq_zero_or_pos m
    · exact ⟨0, by decide, by simp [FloatFormat.magnitude], by norm_num, .inr ⟨by norm_num, by norm_num⟩⟩
    · have hlog : m.log2 < 10 := (Nat.log2_lt hpos.ne').mpr hlow
      obtain ⟨j, hj⟩ : ∃ j, m.log2 + j = 9 := ⟨9 - m.log2, by omega⟩
      have hle : 2 ^ 23 ≤ m * 2 ^ (14 + j) := by
        calc 2 ^ 23 = 2 ^ m.log2 * 2 ^ (14 + j) := by rw [← pow_add]; congr 1; omega
          _ ≤ m * 2 ^ (14 + j) := Nat.mul_le_mul_right _ (Nat.log2_self_le hpos.ne')
      have hlt : m * 2 ^ (14 + j) < 2 ^ 24 := by
        calc m * 2 ^ (14 + j) < 2 ^ (m.log2 + 1) * 2 ^ (14 + j) :=
              Nat.mul_lt_mul_of_pos_right Nat.lt_log2_self (Nat.two_pow_pos _)
          _ = 2 ^ 24 := by rw [← pow_add]; congr 1; omega
      obtain ⟨e, he⟩ : ∃ e, e = 112 - j := ⟨_, rfl⟩
      have he1 : 1 ≤ e := by omega
      refine ⟨(e - 1) * 2 ^ 23 + m * 2 ^ (14 + j), ?_, ?_, ?_, .inr ⟨hlow, by omega⟩⟩
      · exact FloatFormat.fields_lt_infinity (f := binary32) he1 hlt (by simp only [binary32]; omega)
      · have hmag := FloatFormat.magnitude_fields (f := binary32) he1 hle hlt
        rw [FloatFormat.magnitude_of_lt (f := binary16) hlow, unit_binary16]
        refine hmag.trans ?_
        rw [unit_binary32, he]
        push_cast
        rw [mul_assoc, ← zpow_natCast, ← zpow_add₀ (by norm_num)]
        congr 2
        push_cast
        omega
      · exact Dvd.dvd.add (Dvd.dvd.mul_left (by norm_num) _)
          (Dvd.dvd.mul_left (Nat.pow_dvd_pow 2 (by omega)) _)
  · have hdiv := Nat.div_add_mod m (2 ^ 10)
    have hmod := Nat.mod_lt m (Nat.two_pow_pos 10)
    have he : m / 2 ^ 10 ≠ 0 := by omega
    have he32 : m / 2 ^ 10 < 32 := by omega
    have hsplit : (m / 2 ^ 10 + 112 - 1) * 2 ^ 23 + (2 ^ 10 + m % 2 ^ 10) * 2 ^ 13 =
        m * 2 ^ 13 + 112 * 2 ^ 23 := by omega
    refine ⟨m * 2 ^ 13 + 112 * 2 ^ 23, ?_, ?_, by omega, .inl rfl⟩
    · simp only [binary32, FloatFormat.infinity]
      omega
    · have hmag := FloatFormat.magnitude_fields (f := binary32) (e := m / 2 ^ 10 + 112)
        (s := (2 ^ 10 + m % 2 ^ 10) * 2 ^ 13) (by omega) (by simp only [binary32]; omega)
        (by simp only [binary32]; omega)
      rw [FloatFormat.magnitude_of_le (f := binary16) (not_lt.mp hlow), unit_binary16]
      rw [← hsplit]
      refine hmag.trans ?_
      rw [unit_binary32, Nat.cast_mul, Nat.cast_pow, Nat.cast_ofNat, mul_assoc, ← zpow_natCast,
        ← zpow_add₀ (by norm_num)]
      congr 2
      simp only [binary16]
      push_cast
      omega

theorem exists_significand (hm : m < 2 ^ 15) :
    ∃ (s : ℕ) (k : ℤ), s < 2 ^ 11 ∧ -24 ≤ k ∧ k ≤ 6 ∧ binary16.magnitude m = (s : ℚ≥0) * 2 ^ k := by
  by_cases hlow : m < 2 ^ 10
  · refine ⟨m, -24, by omega, le_rfl, by norm_num, ?_⟩
    rw [FloatFormat.magnitude_of_lt (f := binary16) hlow, unit_binary16]
    norm_num
  · have hmod := Nat.mod_lt m (Nat.two_pow_pos 10)
    have he : 0 < m / 2 ^ 10 := Nat.div_pos (not_lt.mp hlow) (Nat.two_pow_pos 10)
    have he32 : m / 2 ^ 10 < 32 := by omega
    refine ⟨2 ^ 10 + m % 2 ^ 10, (m / 2 ^ 10 : ℕ) - 25, by omega, by omega, by omega, ?_⟩
    rw [FloatFormat.magnitude_of_le (f := binary16) (not_lt.mp hlow), unit_binary16]
    rfl

theorem holds_scaled (hm : m < 2 ^ 15) {j : ℤ} (hlo : -200 ≤ j) (hhi : j ≤ 200) (negative : Bool) :
    binary64.Holds (.finite negative (binary16.magnitude m * 2 ^ j)) := by
  obtain ⟨s, k, hs, hk, hk', hmag⟩ := exists_significand hm
  rw [hmag, mul_assoc, ← zpow_add₀ (by norm_num)]
  obtain rfl | hpos := Nat.eq_zero_or_pos s
  · have h0 : binary64.magnitude 0 = 0 := by simp [FloatFormat.magnitude]
    rw [Nat.cast_zero, zero_mul, ← h0]
    exact FloatFormat.holds_magnitude (by decide) _
  · obtain ⟨u, hu, hval⟩ := FloatFormat.exists_magnitude (f := binary64) (k := k + j) hpos
      (by simp only [binary64]; omega) (by simp only [binary64, FloatFormat.bias]; omega)
      (by simp only [binary64, FloatFormat.bias]; omega)
    rw [← hval]
    exact FloatFormat.holds_magnitude hu _

theorem magnitude_shifted (m : ℕ) :
    binary32.magnitude (m * 2 ^ 13) = binary16.magnitude m * 2 ^ (-112 : ℤ) := by
  by_cases hlow : m < 2 ^ 10
  · have hlow' : m * 2 ^ 13 < 2 ^ binary32.fractionBits := by
      simp only [binary32]
      omega
    rw [FloatFormat.magnitude_of_lt (f := binary16) hlow, FloatFormat.magnitude_of_lt hlow',
      unit_binary16, unit_binary32, Nat.cast_mul, Nat.cast_pow, Nat.cast_ofNat, mul_assoc, mul_assoc,
      ← zpow_natCast, ← zpow_add₀ (by norm_num), ← zpow_add₀ (by norm_num)]
    congr 2
  · have hhigh : 2 ^ binary32.fractionBits ≤ m * 2 ^ 13 := by
      simp only [binary32]
      omega
    have hdiv : m * 2 ^ 13 / 2 ^ 23 = m / 2 ^ 10 := by omega
    have hmod : 2 ^ 23 + m * 2 ^ 13 % 2 ^ 23 = (2 ^ 10 + m % 2 ^ 10) * 2 ^ 13 := by omega
    rw [FloatFormat.magnitude_of_le (f := binary16) (not_lt.mp hlow),
      FloatFormat.magnitude_of_le hhigh]
    simp only [binary32, binary16]
    rw [show (⟨8, 23⟩ : FloatFormat) = binary32 from rfl,
      show (⟨5, 10⟩ : FloatFormat) = binary16 from rfl, unit_binary16, unit_binary32, hdiv, hmod,
      Nat.cast_mul, Nat.cast_pow, Nat.cast_ofNat, mul_assoc, mul_assoc, ← zpow_natCast,
      ← zpow_add₀ (by norm_num), ← zpow_add₀ (by norm_num)]
    congr 2
    push_cast
    ring

theorem floatOfBits_eq {u : ℕ} (hu : u < binary32.infinity) :
    floatOfBits u = .finite false (binary32.magnitude u) := by
  have h := FloatFormat.value_magnitude hu false
  rwa [Bool.toNat_false, zero_mul, zero_add] at h

theorem bitsOfFloat_eq {u : ℕ} (hu : u < binary32.infinity) (negative : Bool) :
    bitsOfFloat (.finite negative (binary32.magnitude u)) = negative.toNat * 2 ^ 31 + u := by
  rw [bitsOfFloat, FloatFormat.pattern, FloatFormat.roundMagnitude_magnitude hu]
  rfl

/-! ## The sign bit -/

variable {w v : ℕ}

theorem or_top (hv : v < 2 ^ w) (b : Bool) :
    v ||| (b.toNat * 2 ^ w) = b.toNat * 2 ^ w + v := by
  cases b
  · simp
  · rw [Bool.toNat_true, Nat.or_comm, mul_comm, ← Nat.two_pow_add_eq_or_of_lt hv]

theorem testBit_top (hv : v < 2 ^ w) (b : Bool) (i : ℕ) :
    (b.toNat * 2 ^ w + v).testBit i = (v.testBit i || (b && decide (w = i))) := by
  rw [← or_top hv, Nat.testBit_or]
  cases b
  · simp
  · rw [Bool.toNat_true, one_mul, Nat.testBit_two_pow, Bool.true_and]

theorem and_top (hv : v < 2 ^ w) (b : Bool) :
    (b.toNat * 2 ^ w + v) &&& 2 ^ w = b.toNat * 2 ^ w := by
  apply Nat.eq_of_testBit_eq
  intro i
  have hlow := testBit_top (Nat.two_pow_pos w) b i
  rw [Nat.testBit_and, testBit_top hv, Nat.testBit_two_pow]
  rw [add_zero, Nat.zero_testBit, Bool.false_or] at hlow
  rw [hlow]
  by_cases hi : w = i
  · simp [← hi, Nat.testBit_lt_two_pow hv]
  · simp [hi]

theorem xor_top (hv : v < 2 ^ w) (b : Bool) :
    (b.toNat * 2 ^ w + v) ^^^ (b.toNat * 2 ^ w) = v := by
  apply Nat.eq_of_testBit_eq
  intro i
  have hlow := testBit_top (Nat.two_pow_pos w) b i
  rw [add_zero, Nat.zero_testBit, Bool.false_or] at hlow
  rw [Nat.testBit_xor, testBit_top hv, hlow]
  by_cases hi : w = i
  · simp [← hi, Nat.testBit_lt_two_pow hv]
  · simp [hi]

/-! ## Reading a half and writing it again -/

theorem floatOfBits_power {e : ℕ} (he : 1 ≤ e) (hmax : e < 255) :
    floatOfBits (e <<< 23) = .finite false (2 ^ ((e : ℤ) - 127)) := by
  have hshift : e <<< 23 = (e - 1) * 2 ^ 23 + 2 ^ 23 := by
    rw [Nat.shiftLeft_eq]
    omega
  have hinf : (e - 1) * 2 ^ 23 + 2 ^ 23 < binary32.infinity := by
    simp only [binary32, FloatFormat.infinity]
    omega
  have hmag : binary32.magnitude ((e - 1) * 2 ^ 23 + 2 ^ 23) =
      ((2 ^ 23 : ℕ) : ℚ≥0) * binary32.unit e :=
    FloatFormat.magnitude_fields he (Nat.le_refl (2 ^ 23))
      (Nat.pow_lt_pow_right (by norm_num) (Nat.lt_succ_self 23))
  have hexp : ((23 : ℕ) : ℤ) + ((e : ℤ) - 150) = (e : ℤ) - 127 := by
    push_cast
    ring
  rw [hshift, floatOfBits_eq hinf, hmag, unit_binary32, Nat.cast_pow, Nat.cast_ofNat,
    ← zpow_natCast, ← zpow_add₀ (by norm_num), hexp]

theorem scaled_up (hm : m < 2 ^ 15) :
    (floatOfBits (m <<< 13)).mul (floatOfBits ((254 - 15) <<< 23)) =
      .finite false (binary16.magnitude m) := by
  have hinf : m * 2 ^ 13 < binary32.infinity := by
    simp only [binary32, FloatFormat.infinity]
    omega
  have hcancel : binary16.magnitude m * 2 ^ (-112 : ℤ) * 2 ^ (((254 - 15 : ℕ) : ℤ) - 127) =
      binary16.magnitude m := by
    rw [mul_assoc, ← zpow_add₀ (by norm_num)]
    norm_num
  have hexact := holds_scaled hm (j := 0) (by norm_num) (by norm_num) false
  rw [zpow_zero, mul_one] at hexact
  rw [Nat.shiftLeft_eq, floatOfBits_eq hinf, floatOfBits_power (by norm_num) (by norm_num),
    magnitude_shifted]
  refine (JsNumber.mul_exact ?_).trans ?_
  · rw [hcancel]
    exact hexact
  · rw [hcancel]
    rfl

theorem scaled_down (hm : m < 31 * 2 ^ 10) :
    bitsOfFloat ((JsNumber.finite false (binary16.magnitude m)).mul (floatOfBits (15 <<< 23))) =
      m * 2 ^ 13 := by
  have hinf : m * 2 ^ 13 < binary32.infinity := by
    simp only [binary32, FloatFormat.infinity]
    omega
  have hexact := holds_scaled (m := m) (by omega) (j := (15 : ℕ) - 127) (by norm_num) (by norm_num) false
  rw [floatOfBits_power (by norm_num) (by norm_num), JsNumber.mul_exact (n := false) (m := false) hexact]
  rw [show (((15 : ℕ) : ℤ) - 127) = -112 by norm_num, ← magnitude_shifted]
  have hbits := bitsOfFloat_eq hinf false
  rwa [Bool.toNat_false, zero_mul, zero_add] at hbits

theorem float16Bits_finite (hm : m < 31 * 2 ^ 10) (negative : Bool) :
    float16Bits (.finite negative (binary16.magnitude m)) = negative.toNat * 2 ^ 15 + m := by
  obtain ⟨u, hu, hmag, hdvd, hcase⟩ := exists_single (m := m) (by omega)
  have hinf : u < 255 * 2 ^ 23 := hu
  have hlt : u < 2 ^ 31 := by omega
  have hsign := and_top hlt negative
  have hrest := xor_top hlt negative
  have hround : u - u % 0x1000 = u := by
    obtain ⟨k, rfl⟩ := hdvd
    omega
  have hclamp : ¬ 31 * 2 ^ 23 < m * 2 ^ 13 + 0x1000 := by omega
  have hout : ((m * 2 ^ 13 + 0x1000) >>> 13) &&& 0xffff = m := by
    rw [Nat.shiftRight_eq_div_pow, show 0xffff = 2 ^ 16 - 1 by rfl, Nat.and_two_pow_sub_one_eq_mod]
    omega
  have hscaled := scaled_down hm
  rw [← hmag] at hscaled ⊢
  have hsignBit : ((negative.toNat * 2 ^ 31) >>> 16) &&& 0xffff = negative.toNat * 2 ^ 15 := by
    cases negative <;> rfl
  have hfinal : (negative.toNat * 2 ^ 15 + m) &&& 0xffff = negative.toNat * 2 ^ 15 + m := by
    have := Bool.toNat_le negative
    rw [show 0xffff = 2 ^ 16 - 1 by rfl, Nat.and_two_pow_sub_one_eq_mod]
    omega
  rw [float16Bits]
  simp only [bitsOfFloat_eq hu, show 0x80000000 = 2 ^ 31 by rfl, hsign, hrest,
    show 255 <<< 23 = 255 * 2 ^ 23 by rfl, show 31 <<< 23 = 31 * 2 ^ 23 by rfl, if_neg hinf.not_ge,
    hround, floatOfBits_eq hu, hscaled, if_neg hclamp, hout, hsignBit]
  rw [or_top (by omega), hfinal]

theorem le_magnitude_iff (hm : m < 2 ^ 15) :
    (2 : ℚ≥0) ^ (16 : ℤ) ≤ binary16.magnitude m ↔ 31 * 2 ^ 10 ≤ m := by
  constructor
  · intro h
    by_contra hlt
    have hle := FloatFormat.magnitude_le (f := binary16) (by decide) (not_le.mp hlt)
    rw [unit_binary16] at hle
    have hlargest := h.trans hle
    norm_num [binary16] at hlargest
  · intro h
    have hhigh : 2 ^ binary16.fractionBits ≤ m := le_trans (by decide) h
    have hexp : m / 2 ^ binary16.fractionBits = 31 := by
      simp only [binary16]
      omega
    rw [FloatFormat.magnitude_of_le hhigh, hexp, unit_binary16]
    calc (2 : ℚ≥0) ^ (16 : ℤ) = ((2 ^ binary16.fractionBits : ℕ) : ℚ≥0) * 2 ^ (((31 : ℕ) : ℤ) - 25) := by
          norm_num [binary16]
      _ ≤ _ := mul_le_mul_of_nonneg_right (by exact_mod_cast Nat.le_add_right _ _) zero_le

theorem or_exponent {r : ℕ} (hr : r < 2 ^ 23) :
    (143 * 2 ^ 23 + r) ||| (255 * 2 ^ 23) = 255 * 2 ^ 23 + r := by
  have h143 := Nat.two_pow_add_eq_or_of_lt hr 143
  have h255 := Nat.two_pow_add_eq_or_of_lt hr 255
  rw [mul_comm 143, mul_comm 255, h143, h255, Nat.or_assoc, Nat.or_comm r, ← Nat.or_assoc]
  rfl

theorem float16Value_eq (hm : m < 2 ^ 15) (negative : Bool) :
    float16Value (negative.toNat * 2 ^ 15 + m) = binary16.value (negative.toNat * 2 ^ 15 + m) := by
  obtain ⟨u, hu, hmag, -, hcase⟩ := exists_single hm
  have hlow : (negative.toNat * 2 ^ 15 + m) &&& 0x7fff = m := by
    rw [show 0x7fff = 2 ^ 15 - 1 by rfl, Nat.and_two_pow_sub_one_eq_mod]
    omega
  have hsign := and_top hm negative
  have hmoved : (negative.toNat * 2 ^ 15) <<< 16 = negative.toNat * 2 ^ 31 := by
    rw [Nat.shiftLeft_eq, mul_assoc, ← pow_add]
  have hu31 : u < 2 ^ 31 := lt_trans hu (by decide)
  have hbits := bitsOfFloat_eq hu false
  rw [Bool.toNat_false, zero_mul, zero_add, hmag] at hbits
  have hpow : floatOfBits ((127 + 16) <<< 23) = .finite false (2 ^ (16 : ℤ)) := by
    rw [floatOfBits_power (by norm_num) (by norm_num)]
    norm_num
  have hle : (JsNumber.finite false (2 ^ (16 : ℤ))).le (.finite false (binary16.magnitude m)) =
      decide (31 * 2 ^ 10 ≤ m) := by
    rw [JsNumber.le, JsNumber.signed, JsNumber.signed]
    simp only [Bool.false_eq_true, if_false, ← le_magnitude_iff hm, NNRat.cast_le]
  rw [float16Value]
  simp only [hlow, scaled_up hm, hbits, floatOfBits_eq hu, hmag, hpow, hle, show 0x8000 = 2 ^ 15 by rfl,
    hsign, hmoved, show 255 <<< 23 = 255 * 2 ^ 23 by rfl]
  by_cases htop : 31 * 2 ^ 10 ≤ m
  · have hm31 : m = 31 * 2 ^ 10 + m % 2 ^ 10 := by omega
    have hu_eq : u = 143 * 2 ^ 23 + m % 2 ^ 10 * 2 ^ 13 := by omega
    have hfrac : m % 2 ^ 10 * 2 ^ 13 < 2 ^ 23 := by omega
    have htop31 : 255 * 2 ^ 23 + m % 2 ^ 10 * 2 ^ 13 < 2 ^ 31 :=
      lt_of_lt_of_le (Nat.add_lt_add_left hfrac _) (by norm_num)
    rw [decide_eq_true htop, if_pos rfl, hu_eq, or_exponent hfrac, or_top htop31, floatOfBits]
    obtain hzero | hpos := Nat.eq_zero_or_pos (m % 2 ^ 10)
    · rw [hzero, zero_mul, add_zero, single_infinite, hm31, hzero, add_zero, half_infinite]
    · have hgt : 31 * 2 ^ 10 < m := lt_of_le_of_ne htop fun heq => by
        rw [← heq] at hpos
        exact absurd hpos (by decide)
      have hgt' : 255 * 2 ^ 23 < 255 * 2 ^ 23 + m % 2 ^ 10 * 2 ^ 13 :=
        Nat.lt_add_of_pos_right (Nat.mul_pos hpos (Nat.two_pow_pos _))
      rw [single_nan hgt' htop31, half_nan hgt hm]
  · rw [decide_eq_false htop, if_neg (by decide), or_top hu31, half_value (not_le.mp htop), ← hmag]
    exact FloatFormat.value_magnitude hu negative

theorem float16Bits_infinite (negative : Bool) :
    float16Bits (.infinite negative) = negative.toNat * 2 ^ 15 + 31 * 2 ^ 10 := by
  cases negative <;> rfl

theorem float16Bits_nan : float16Bits .nan = 0x7fff := rfl

theorem float16Value_float16Bits {x : JsNumber} (hx : binary16.Holds x) :
    float16Bits x < 2 ^ 16 ∧ float16Value (float16Bits x) = x := by
  obtain ⟨p, hp, rfl⟩ := hx
  rw [signBit_binary16] at hp
  obtain ⟨negative, m, hm, rfl⟩ : ∃ (negative : Bool) (m : ℕ), m < 2 ^ 15 ∧
      p = negative.toNat * 2 ^ 15 + m := by
    refine ⟨decide (2 ^ 15 ≤ p), p % 2 ^ 15, Nat.mod_lt _ (Nat.two_pow_pos _), ?_⟩
    by_cases h : 2 ^ 15 ≤ p
    · rw [decide_eq_true h, Bool.toNat_true]
      omega
    · rw [decide_eq_false h, Bool.toNat_false]
      omega
  have hvalue := float16Value_eq hm negative
  obtain hlt | rfl | hgt := lt_trichotomy m (31 * 2 ^ 10)
  · rw [half_value hlt] at hvalue ⊢
    rw [float16Bits_finite hlt]
    exact ⟨by omega, hvalue⟩
  · rw [half_infinite] at hvalue ⊢
    rw [float16Bits_infinite]
    exact ⟨by omega, hvalue⟩
  · have hnan := float16Value_eq (m := 2 ^ 15 - 1) (by norm_num) false
    rw [half_nan (by norm_num) (by norm_num), Bool.toNat_false, zero_mul, zero_add] at hnan
    rw [half_nan hgt hm, float16Bits_nan]
    exact ⟨by norm_num, hnan⟩

end ArduConfigurator.Dronecan
