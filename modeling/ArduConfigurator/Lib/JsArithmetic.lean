import ArduConfigurator.Lib.DecimalText

/-! # Arithmetic of doubles

The operations of the language on its numbers: an exact result is rounded to the nearest double,
and zeros keep the signs that the standard gives them. -/
namespace ArduConfigurator.JsNumber
open DecimalText
open scoped NNRat
set_option autoImplicit false

def round (negativeZero : Bool) (q : ℚ) : JsNumber :=
  nearestDouble (if q = 0 then negativeZero else decide (q < 0)) ⟨|q|, abs_nonneg q⟩

def abs : JsNumber → JsNumber
  | .nan => .nan
  | .infinite _ => .infinite false
  | .finite _ q => .finite false q

def add : JsNumber → JsNumber → JsNumber
  | .nan, _ => .nan
  | _, .nan => .nan
  | .infinite n, .infinite m => if n = m then .infinite n else .nan
  | .infinite n, .finite _ _ => .infinite n
  | .finite _ _, .infinite m => .infinite m
  | .finite n q, .finite m r => round (n && m) (signed n q + signed m r)

def div : JsNumber → JsNumber → JsNumber
  | .nan, _ => .nan
  | _, .nan => .nan
  | .infinite _, .infinite _ => .nan
  | .infinite n, .finite m _ => .infinite (n != m)
  | .finite n _, .infinite m => .finite (n != m) 0
  | .finite n q, .finite m r =>
    if r = 0 then if q = 0 then .nan else .infinite (n != m)
    else nearestDouble (n != m) (q / r)

/-- `x % y`: what is left of `x` has its sign. -/
def rem : JsNumber → JsNumber → JsNumber
  | .nan, _ => .nan
  | _, .nan => .nan
  | .infinite _, _ => .nan
  | .finite n q, .infinite _ => .finite n q
  | .finite n q, .finite _ r =>
    if r = 0 then .nan else nearestDouble n (q - r * (⌊q / r⌋₊ : ℚ≥0))

instance : Neg JsNumber := ⟨neg⟩
instance : Add JsNumber := ⟨add⟩
instance : Sub JsNumber := ⟨fun x y => add x (neg y)⟩
instance : Mul JsNumber := ⟨mul⟩
instance : Div JsNumber := ⟨div⟩
instance : Mod JsNumber := ⟨rem⟩

instance (n : ℕ) : OfNat JsNumber n := ⟨ofInt n⟩

instance : OfScientific JsNumber :=
  ⟨fun mantissa below exponent => round false (OfScientific.ofScientific mantissa below exponent)⟩

/-- `x === y`. -/
def equal (x y : JsNumber) : Bool := le x y && le y x

/-- `x < y`. -/
def lt (x y : JsNumber) : Bool := le x y && !le y x

def isFinite : JsNumber → Bool
  | .finite _ _ => true
  | _ => false

def toInt? : JsNumber → Option ℤ
  | .finite n q => if q.den = 1 then some (if n then -q.num else q.num) else none
  | _ => none

def isInteger (x : JsNumber) : Bool := x.toInt?.isSome

/-- A number made integer by `f`, which keeps the sign of a zero. -/
def toIntegral (f : ℚ → ℤ) : JsNumber → JsNumber
  | .finite n q => round n (f (signed n q))
  | x => x

def floor : JsNumber → JsNumber := toIntegral Int.floor

def ceil : JsNumber → JsNumber := toIntegral Int.ceil

def trunc : JsNumber → JsNumber :=
  toIntegral fun q => if q < 0 then ⌈q⌉ else ⌊q⌋

/-- `Math.round`: a half goes up. -/
def roundHalfUp : JsNumber → JsNumber := toIntegral fun q => ⌊q + 1 / 2⌋

/-- `Math.min` of two. -/
def min (x y : JsNumber) : JsNumber :=
  if x = .nan ∨ y = .nan then .nan
  else if x.equal y then if x = .finite true 0 then x else y
  else if x.lt y then x else y

/-- `Math.max` of two. -/
def max (x y : JsNumber) : JsNumber :=
  if x = .nan ∨ y = .nan then .nan
  else if x.equal y then if x = .finite true 0 then y else x
  else if x.lt y then y else x

/-! ## Numbers as keys -/

def mapKey : JsNumber → JsNumber
  | .finite n q => .finite (n && q ≠ 0) q
  | x => x

/-- A number is a double. -/
def IsDouble : JsNumber → Prop
  | .finite _ q => binary64.Holds (.finite false q)
  | _ => True

variable {x : JsNumber}

theorem readLiteral_text (h : x.IsDouble) :
    readLiteral (numberToString x) = x.mapKey := by
  cases x with
  | nan => decide +kernel
  | infinite negative => cases negative <;> decide +kernel
  | finite negative q => exact readLiteral_numberToString h

theorem mapKey_of_text {y : JsNumber} (hx : x.IsDouble) (hy : y.IsDouble)
    (h : numberToString x = numberToString y) : x.mapKey = y.mapKey := by
  rw [← readLiteral_text hx, ← readLiteral_text hy, h]

theorem IsDouble.neg (h : x.IsDouble) : (JsNumber.neg x).IsDouble := by
  cases x <;> exact h

theorem isDouble_nearestDouble (negative : Bool) (q : ℚ≥0) :
    (nearestDouble negative q).IsDouble := by
  rw [nearestDouble_eq]
  split_ifs with hlt
  · exact FloatFormat.holds_magnitude hlt false
  · exact trivial

/-! ## Naturals -/

variable {n : ℕ}

theorem ofInt_natCast (h : n < 2 ^ 53) : ofInt n = .finite false (n : ℚ≥0) := by
  have hn : ((n : ℤ)).natAbs < 2 ^ 53 := h
  have hneg : decide ((n : ℤ) < 0) = false := by simp
  rw [ofInt_eq hn, hneg, Int.natAbs_natCast]

theorem holds_natCast (h : n < 2 ^ 53) : binary64.Holds (.finite false (n : ℚ≥0)) :=
  ⟨_, FloatFormat.pattern_lt (f := binary64) (by decide) _, ofInt_natCast h⟩

variable {m : ℕ}

theorem ofInt_add (h : m + n < 2 ^ 53) : ofInt m + ofInt n = ofInt (m + n : ℕ) := by
  rw [ofInt_natCast (by omega), ofInt_natCast (by omega), ofInt_natCast h]
  have hq : signed false (m : ℚ≥0) + signed false (n : ℚ≥0) = ((m + n : ℕ) : ℚ) := by
    simp [signed]
  change round (false && false) (signed false (m : ℚ≥0) + signed false (n : ℚ≥0)) = _
  rw [hq, round]
  have hsign : (if ((m + n : ℕ) : ℚ) = 0 then false && false else decide (((m + n : ℕ) : ℚ) < 0)) =
      false := by
    split
    · rfl
    · rw [decide_eq_false_iff_not, not_lt]
      exact Nat.cast_nonneg _
  have habs : (⟨|((m + n : ℕ) : ℚ)|, abs_nonneg _⟩ : ℚ≥0) = ((m + n : ℕ) : ℚ≥0) := by
    apply NNRat.ext
    rw [NNRat.coe_mk, abs_of_nonneg (Nat.cast_nonneg _), NNRat.cast_natCast]
  rw [hsign, habs]
  exact nearestDouble_of_holds (holds_natCast h)

theorem ofInt_mul (hm : m < 2 ^ 53) (hn : n < 2 ^ 53) (h : m * n < 2 ^ 53) :
    ofInt m * ofInt n = ofInt (m * n : ℕ) := by
  rw [ofInt_natCast hm, ofInt_natCast hn, ofInt_natCast h]
  change mul (.finite false (m : ℚ≥0)) (.finite false (n : ℚ≥0)) = _
  have hcast : (m : ℚ≥0) * n = ((m * n : ℕ) : ℚ≥0) := (Nat.cast_mul m n).symm
  rw [mul_exact (by rw [hcast]; exact holds_natCast h), hcast]
  rfl

theorem natCast_sub (hmn : m ≤ n) (h : n < 2 ^ 53) :
    (.finite false (n : ℚ≥0) - .finite false (m : ℚ≥0) : JsNumber) =
      .finite false ((n - m : ℕ) : ℚ≥0) := by
  have hq : signed false (n : ℚ≥0) + signed true (m : ℚ≥0) = ((n - m : ℕ) : ℚ) := by
    rw [Nat.cast_sub hmn]
    simp [signed, sub_eq_add_neg]
  change round (false && true) (signed false (n : ℚ≥0) + signed true (m : ℚ≥0)) = _
  rw [hq, round]
  have hsign : (if ((n - m : ℕ) : ℚ) = 0 then false && true else decide (((n - m : ℕ) : ℚ) < 0)) =
      false := by
    split
    · rfl
    · rw [decide_eq_false_iff_not, not_lt]
      exact Nat.cast_nonneg _
  have habs : (⟨|((n - m : ℕ) : ℚ)|, abs_nonneg _⟩ : ℚ≥0) = ((n - m : ℕ) : ℚ≥0) := by
    apply NNRat.ext
    rw [NNRat.coe_mk, abs_of_nonneg (Nat.cast_nonneg _), NNRat.cast_natCast]
  rw [hsign, habs]
  exact nearestDouble_of_holds (holds_natCast (by omega))

theorem natCast_lt :
    lt (.finite false (m : ℚ≥0)) (.finite false (n : ℚ≥0)) = decide (m < n) := by
  simp only [lt, le, signed, Bool.false_eq_true, ite_false, NNRat.cast_natCast, Nat.cast_le]
  by_cases h : m < n
  · simp [h, h.le]
  · simp [h, Nat.not_lt.mp h]

end ArduConfigurator.JsNumber
