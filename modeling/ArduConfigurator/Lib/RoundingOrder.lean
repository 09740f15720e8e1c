import ArduConfigurator.Lib.JsArithmetic

/-! # Rounding keeps the order

A larger rational is never rounded to a smaller number, so adding to the larger of two numbers never
gives the smaller sum. -/
namespace ArduConfigurator
open scoped NNRat
set_option autoImplicit false

theorem roundHalfEven_mono {q r : ℚ≥0} (h : q ≤ r) : roundHalfEven q ≤ roundHalfEven r := by
  have hfloor : ⌊q⌋₊ ≤ ⌊r⌋₊ := Nat.floor_mono h
  have hupper : roundHalfEven q ≤ ⌊q⌋₊ + 1 := by
    rw [roundHalfEven]
    split_ifs <;> omega
  have hlower : ⌊r⌋₊ ≤ roundHalfEven r := by
    rw [roundHalfEven]
    split_ifs <;> omega
  obtain heq | hlt := hfloor.eq_or_lt
  · have hrest : q - ⌊q⌋₊ ≤ r - ⌊r⌋₊ := by
      rw [heq]
      exact tsub_le_tsub_right h _
    rw [roundHalfEven, roundHalfEven]
    simp only [heq] at hrest ⊢
    by_cases hr : r - ⌊r⌋₊ < 1 / 2 ∨ (r - ⌊r⌋₊ = 1 / 2 ∧ ⌊r⌋₊ % 2 = 0)
    · have hq : q - ⌊r⌋₊ < 1 / 2 ∨ (q - ⌊r⌋₊ = 1 / 2 ∧ ⌊r⌋₊ % 2 = 0) := by
        obtain hr | ⟨hr, heven⟩ := hr
        · exact .inl (hrest.trans_lt hr)
        · obtain hq | hq := (hr ▸ hrest).lt_or_eq
          · exact .inl hq
          · exact .inr ⟨hq, heven⟩
      rw [if_pos hr, if_pos hq]
    · rw [if_neg hr]
      split_ifs <;> omega
  · omega

namespace FloatFormat
variable {f : FloatFormat}

theorem roundMagnitude_mono {q r : ℚ≥0} (h : q ≤ r) :
    f.roundMagnitude q ≤ f.roundMagnitude r := by
  by_cases hq : q = 0
  · rw [roundMagnitude, if_pos hq]
    exact Nat.zero_le _
  have hqpos : 0 < q := pos_iff_ne_zero.mpr hq
  have hrpos : 0 < r := hqpos.trans_le h
  have hlog : Int.log 2 q ≤ Int.log 2 r := Int.log_mono_right hqpos h
  rw [roundMagnitude, if_neg hq, roundMagnitude, if_neg hrpos.ne']
  apply min_le_min_left
  generalize hd : (max 1 (Int.log 2 q + f.bias)).toNat = d
  generalize he : (max 1 (Int.log 2 r + f.bias)).toNat = e
  obtain hde | hde : d = e ∨ d < e := by omega
  · subst hde
    have hscaled : q / f.unit d ≤ r / f.unit d := div_le_div_of_nonneg_right h (unit_pos d).le
    have hround := roundHalfEven_mono hscaled
    omega
  · have hlow : q / f.unit d ≤ ((2 ^ (f.fractionBits + 1) : ℕ) : ℚ≥0) := by
      rw [div_le_iff₀ (unit_pos d), unit]
      push_cast
      rw [← zpow_natCast, ← zpow_add₀ (by norm_num)]
      have hlt := Int.lt_zpow_succ_log_self (b := 2) (by norm_num) q
      rw [Nat.cast_ofNat] at hlt
      refine hlt.le.trans (zpow_le_zpow_right₀ (by norm_num) ?_)
      push_cast
      omega
    have hhigh : ((2 ^ f.fractionBits : ℕ) : ℚ≥0) ≤ r / f.unit e := by
      rw [le_div_iff₀ (unit_pos e), unit]
      push_cast
      rw [← zpow_natCast, ← zpow_add₀ (by norm_num)]
      have hle := Int.zpow_log_le_self (b := 2) (by norm_num) hrpos
      rw [Nat.cast_ofNat] at hle
      refine le_trans (zpow_le_zpow_right₀ (by norm_num) ?_) hle
      omega
    have hup := roundHalfEven_le hlow
    have hdown := roundHalfEven_mono hhigh
    rw [roundHalfEven_natCast] at hdown
    have hfields : (d - 1) * 2 ^ f.fractionBits + 2 ^ (f.fractionBits + 1) ≤
        (e - 1) * 2 ^ f.fractionBits + 2 ^ f.fractionBits := by
      have hd1 : 1 ≤ d := by omega
      calc (d - 1) * 2 ^ f.fractionBits + 2 ^ (f.fractionBits + 1)
          = (d - 1 + 2) * 2 ^ f.fractionBits := by ring
        _ ≤ (e - 1 + 1) * 2 ^ f.fractionBits := Nat.mul_le_mul_right _ (by omega)
        _ = (e - 1) * 2 ^ f.fractionBits + 2 ^ f.fractionBits := by ring
    omega

theorem magnitude_mono {m n : ℕ} (h : m ≤ n) (hn : n < f.infinity) :
    f.magnitude m ≤ f.magnitude n := by
  by_contra hlt
  have hback := roundMagnitude_mono (f := f) (le_of_lt (not_le.mp hlt))
  rw [roundMagnitude_magnitude hn, roundMagnitude_magnitude (h.trans_lt hn)] at hback
  obtain rfl : m = n := le_antisymm h hback
  exact hlt le_rfl

end FloatFormat

namespace JsNumber
open DecimalText

theorem le_trans {x y z : JsNumber} (hxy : x.le y = true) (hyz : y.le z = true) :
    x.le z = true := by
  rcases x with _ | (_ | _) | ⟨n, q⟩ <;> rcases y with _ | (_ | _) | ⟨m, r⟩ <;>
    rcases z with _ | (_ | _) | ⟨k, s⟩ <;>
      first
        | rfl
        | exact absurd hxy Bool.false_ne_true
        | exact absurd hyz Bool.false_ne_true
        | skip
  simp only [le, decide_eq_true_eq] at hxy hyz ⊢
  exact hxy.trans hyz

theorem le_nearestDouble {n m : Bool} {q r : ℚ≥0} (h : signed n q ≤ signed m r) :
    (nearestDouble n q).le (nearestDouble m r) = true := by
  have hmono {a b : ℚ≥0} (hab : a ≤ b) (hb : binary64.roundMagnitude b < binary64.infinity) :
      binary64.magnitude (binary64.roundMagnitude a) ≤
        binary64.magnitude (binary64.roundMagnitude b) :=
    FloatFormat.magnitude_mono (FloatFormat.roundMagnitude_mono hab) hb
  rw [nearestDouble_eq, nearestDouble_eq]
  cases n with
  | false =>
    cases m with
    | false =>
      have hqr : q ≤ r := NNRat.coe_le_coe.mp h
      have hround := FloatFormat.roundMagnitude_mono (f := binary64) hqr
      by_cases hr : binary64.roundMagnitude r < binary64.infinity
      · rw [if_pos (hround.trans_lt hr), if_pos hr]
        simpa [le, signed] using hmono hqr hr
      · rw [if_neg hr]
        split_ifs <;> rfl
    | true =>
      have hzero : q = 0 ∧ r = 0 := by
        simp only [signed, Bool.false_eq_true, if_false, if_true] at h
        have hq := q.coe_nonneg
        have hr := r.coe_nonneg
        exact ⟨NNRat.coe_inj.mp (by rw [NNRat.coe_zero]; linarith),
          NNRat.coe_inj.mp (by rw [NNRat.coe_zero]; linarith)⟩
      obtain ⟨rfl, rfl⟩ := hzero
      have hround : binary64.roundMagnitude 0 = 0 := if_pos rfl
      have hmagnitude : binary64.magnitude 0 = 0 := by simp [FloatFormat.magnitude]
      rw [hround, if_pos (by decide), if_pos (by decide), hmagnitude]
      simp [le, signed]
  | true =>
    cases m with
    | false =>
      split_ifs
      · simp only [le, signed, decide_eq_true_eq, if_true, Bool.false_eq_true, if_false]
        have hq := (binary64.magnitude (binary64.roundMagnitude q)).coe_nonneg
        have hr := (binary64.magnitude (binary64.roundMagnitude r)).coe_nonneg
        linarith
      · rfl
      · rfl
      · rfl
    | true =>
      have hrq : r ≤ q := NNRat.coe_le_coe.mp (neg_le_neg_iff.mp h)
      have hround := FloatFormat.roundMagnitude_mono (f := binary64) hrq
      by_cases hq : binary64.roundMagnitude q < binary64.infinity
      · rw [if_pos (hround.trans_lt hq), if_pos hq]
        simpa [le, signed] using hmono hrq hq
      · rw [if_neg hq]
        split_ifs <;> rfl

theorem round_mono {x y : ℚ} (h : x ≤ y) (b c : Bool) : (round b x).le (round c y) = true := by
  have hsigned (negativeZero : Bool) (z : ℚ) :
      signed (if z = 0 then negativeZero else decide (z < 0)) ⟨|z|, abs_nonneg z⟩ = z := by
    obtain hz | hz | hz := lt_trichotomy z 0
    · rw [if_neg hz.ne, decide_eq_true hz]
      simp [signed, abs_of_neg hz]
    · subst hz
      have habs : (⟨|(0 : ℚ)|, abs_nonneg 0⟩ : ℚ≥0) = 0 := NNRat.ext abs_zero
      rw [habs, if_pos rfl]
      cases negativeZero with
      | false => rfl
      | true => exact neg_zero
    · rw [if_neg hz.ne', decide_eq_false hz.not_gt]
      simp [signed, abs_of_pos hz]
  apply le_nearestDouble
  rw [hsigned, hsigned]
  exact h

variable {q p : JsNumber}

theorem add_le_add_left (n : Bool) (a : ℚ≥0) (h : p.le q = true) :
    (add (.finite n a) p).le (add (.finite n a) q) = true := by
  have hlow (b : Bool) (x : ℚ≥0) : (infinite true).le (nearestDouble b x) = true := by
    rw [nearestDouble_eq]
    split_ifs <;> rfl
  have hhigh (b : Bool) (x : ℚ≥0) : (nearestDouble b x).le (infinite false) = true := by
    rw [nearestDouble_eq]
    split_ifs
    · rfl
    · cases b <;> rfl
  rcases p with _ | (_ | _) | ⟨m, r⟩
  · exact absurd h Bool.false_ne_true
  · rcases q with _ | (_ | _) | ⟨l, v⟩
    · exact absurd h Bool.false_ne_true
    · rfl
    · exact absurd h Bool.false_ne_true
    · exact absurd h Bool.false_ne_true
  · rcases q with _ | (_ | _) | ⟨l, v⟩
    · exact absurd h Bool.false_ne_true
    · rfl
    · rfl
    · exact hlow _ _
  · rcases q with _ | (_ | _) | ⟨l, v⟩
    · exact absurd h Bool.false_ne_true
    · exact hhigh _ _
    · exact absurd h Bool.false_ne_true
    · apply round_mono
      simpa [le] using h

theorem le_add_of_le {s t : JsNumber} (hs : s ≠ .infinite true) (hpq : p.le q = true)
    (h : t.le (s + p) = true) : t.le (s + q) = true := by
  change t.le (add s p) = true at h
  change t.le (add s q) = true
  rcases s with _ | (_ | _) | ⟨n, a⟩
  · cases t <;> exact absurd h Bool.false_ne_true
  · rcases p with _ | (_ | _) | ⟨m, r⟩ <;> rcases q with _ | (_ | _) | ⟨l, v⟩ <;>
      first
        | exact h
        | exact absurd hpq Bool.false_ne_true
        | (cases t <;> exact absurd h Bool.false_ne_true)
  · exact absurd rfl hs
  · exact le_trans h (add_le_add_left n a hpq)

end JsNumber
end ArduConfigurator
