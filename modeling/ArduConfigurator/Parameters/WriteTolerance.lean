import ArduConfigurator.Lib.JsArithmetic

/-! # When two parameter values are one

The test by which a write is skipped, a draft is staged and a readback settles a write. -/
namespace ArduConfigurator.JsNumber
open DecimalText
set_option autoImplicit false

/-! ## Distances -/

theorem signed_neg (n : Bool) (q : ℚ≥0) : signed (!n) q = -signed n q := by
  cases n
  · rfl
  · exact (neg_neg _).symm

theorem nearestDouble_ne_nan (n : Bool) (q : ℚ≥0) : nearestDouble n q ≠ .nan := by
  rw [nearestDouble_eq]
  split_ifs <;> exact JsNumber.noConfusion

theorem abs_nearestDouble (n : Bool) (q : ℚ≥0) :
    (nearestDouble n q).abs = nearestDouble false q := by
  rw [nearestDouble_eq, nearestDouble_eq]
  split_ifs <;> rfl

theorem abs_sub_finite (n m : Bool) (q r : ℚ≥0) :
    (JsNumber.finite n q - .finite m r).abs =
      nearestDouble false (Rat.nnabs (signed n q - signed m r)) := by
  have hsub : JsNumber.finite n q - .finite m r =
      round (n && !m) (signed n q + signed (!m) r) := rfl
  rw [hsub, signed_neg, ← sub_eq_add_neg]
  exact abs_nearestDouble _ _

theorem abs_sub_comm_finite (n m : Bool) (q r : ℚ≥0) :
    (JsNumber.finite n q - .finite m r).abs = (JsNumber.finite m r - .finite n q).abs := by
  have habs : Rat.nnabs (signed n q - signed m r) = Rat.nnabs (signed m r - signed n q) :=
    NNRat.coe_injective (abs_sub_comm _ _)
  rw [abs_sub_finite, abs_sub_finite, habs]

theorem nearestDouble_zero (n : Bool) : nearestDouble n 0 = .finite n 0 := by
  have h0 : binary64.magnitude 0 = 0 := by simp [FloatFormat.magnitude]
  rw [← h0]
  exact nearestDouble_of_holds (FloatFormat.holds_magnitude (by decide) n)

theorem abs_sub_self (n : Bool) (q : ℚ≥0) :
    (JsNumber.finite n q - .finite n q).abs = .finite false 0 := by
  have habs : Rat.nnabs (signed n q - signed n q) = 0 :=
    NNRat.coe_injective (by rw [sub_self]; exact abs_zero)
  rw [abs_sub_finite, habs, nearestDouble_zero]

/-! ## The order -/

def extended : JsNumber → WithBot (WithTop ℚ)
  | .nan => ⊥
  | .infinite true => ⊥
  | .infinite false => (⊤ : WithTop ℚ)
  | .finite n q => (signed n q : WithTop ℚ)

variable {x y : JsNumber}

theorem le_iff_extended (hx : x ≠ .nan) (hy : y ≠ .nan) :
    x.le y = true ↔ x.extended ≤ y.extended := by
  cases x with
  | nan => exact absurd rfl hx
  | infinite n =>
    cases y with
    | nan => exact absurd rfl hy
    | infinite m => cases n <;> cases m <;> simp [le, extended]
    | finite m r => cases n <;> simp [le, extended]
  | finite n q =>
    cases y with
    | nan => exact absurd rfl hy
    | infinite m => cases m <;> simp [le, extended]
    | finite m r => simp [le, extended]

theorem extended_max (hx : x ≠ .nan) (hy : y ≠ .nan) :
    (max x y).extended = x.extended ⊔ y.extended := by
  have hxy := le_iff_extended hx hy
  have hyx := le_iff_extended hy hx
  rw [max, if_neg (by tauto)]
  by_cases h : x.le y = true <;> by_cases h' : y.le x = true
  · have heq := le_antisymm (hxy.mp h) (hyx.mp h')
    simp only [equal, h, h', Bool.and_self, if_true]
    split_ifs <;> simp [heq]
  · simp only [equal, lt, h, h', Bool.and_false, Bool.false_eq_true, if_false, Bool.not_false,
      Bool.and_true, if_true]
    exact (sup_eq_right.mpr (hxy.mp h)).symm
  · simp only [equal, lt, h, h', Bool.false_and, Bool.false_eq_true, if_false]
    exact (sup_eq_left.mpr (hyx.mp h')).symm
  · exact absurd (hyx.mpr (le_of_not_ge fun hle => h (hxy.mpr hle))) h'

theorem max_ne_nan (hx : x ≠ .nan) (hy : y ≠ .nan) : max x y ≠ .nan := by
  rw [max, if_neg (by tauto)]
  split_ifs <;> assumption

theorem le_max_iff {z : JsNumber} (hx : x ≠ .nan) (hy : y ≠ .nan) (hz : z ≠ .nan) :
    x.le (max y z) = true ↔ x.le y = true ∨ x.le z = true := by
  rw [le_iff_extended hx (max_ne_nan hy hz), extended_max hy hz, le_sup_iff, le_iff_extended hx hy,
    le_iff_extended hx hz]

end ArduConfigurator.JsNumber

namespace ArduConfigurator.Parameters
open DecimalText

def DEFAULT_PARAMETER_WRITE_TOLERANCE : JsNumber := nearestDouble false (1 / (10000 : ℕ))

/-- `1e-6`. -/
def MILLIONTH : JsNumber := nearestDouble false (1 / (1000000 : ℕ))

def approximatelyEqualParameterValue (left right tolerance : JsNumber) : Bool :=
  let relativeTolerance := JsNumber.max (right.abs * MILLIONTH) tolerance
  (left - right).abs.le relativeTolerance

theorem mul_millionth_ne_nan (n : Bool) (q : ℚ≥0) :
    (JsNumber.finite n q).abs * MILLIONTH ≠ .nan := by
  have hmillionth : MILLIONTH = nearestDouble false (1 / (1000000 : ℕ)) := rfl
  rw [nearestDouble_eq, if_pos (by decide +kernel)] at hmillionth
  rw [hmillionth]
  exact JsNumber.nearestDouble_ne_nan _ _

theorem approximatelyEqual_iff {n m : Bool} {q r : ℚ≥0} {tolerance : JsNumber}
    (ht : tolerance ≠ .nan) :
    approximatelyEqualParameterValue (.finite n q) (.finite m r) tolerance = true ↔
      (JsNumber.finite n q - .finite m r).abs.le tolerance = true ∨
        (JsNumber.finite n q - .finite m r).abs.le ((JsNumber.finite m r).abs * MILLIONTH) =
          true := by
  have hdistance : (JsNumber.finite n q - .finite m r).abs ≠ .nan := by
    rw [JsNumber.abs_sub_finite]
    exact JsNumber.nearestDouble_ne_nan _ _
  rw [approximatelyEqualParameterValue,
    JsNumber.le_max_iff hdistance (mul_millionth_ne_nan m r) ht, or_comm]

end ArduConfigurator.Parameters
