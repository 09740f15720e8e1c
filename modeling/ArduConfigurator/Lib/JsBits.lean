import ArduConfigurator.Lib.RoundingOrder

/-! # Bit operations of the language

An operand is made an integer of 32 bits, towards zero and modulo `2^32`, and the result is a signed
number again. -/
namespace ArduConfigurator.JsNumber
set_option autoImplicit false

def truncate (q : ℚ) : ℤ := if q < 0 then ⌈q⌉ else ⌊q⌋

/-- `ToInt32`. -/
def toInt32 : JsNumber → BitVec 32
  | .finite negative q => BitVec.ofInt 32 (truncate (signed negative q))
  | _ => 0

def ofInt32 (b : BitVec 32) : JsNumber := ofInt b.toInt

theorem ofInt32_eq (b : BitVec 32) :
    ofInt32 b = .finite (decide (b.toInt < 0)) (b.toInt.natAbs : ℚ≥0) := by
  apply ofInt_eq
  have hlow := BitVec.le_toInt b
  have hhigh := BitVec.toInt_lt (x := b)
  omega

theorem truncate_intCast (i : ℤ) : truncate i = i := by
  unfold truncate
  split_ifs
  · exact Int.ceil_intCast i
  · exact Int.floor_intCast i

theorem signed_natAbs (i : ℤ) : signed (decide (i < 0)) (i.natAbs : ℚ≥0) = i := by
  have habs : (((i.natAbs : ℚ≥0)) : ℚ) = |(i : ℚ)| := by
    rw [NNRat.cast_natCast, Nat.cast_natAbs, Int.cast_abs]
  unfold signed
  rw [habs]
  by_cases h : i < 0
  · rw [if_pos (decide_eq_true h), abs_of_neg (by exact_mod_cast h), neg_neg]
  · rw [if_neg (by simpa using h), abs_of_nonneg (by exact_mod_cast not_lt.mp h)]

@[simp] theorem toInt32_ofInt32 (b : BitVec 32) : toInt32 (ofInt32 b) = b := by
  rw [ofInt32_eq, toInt32, signed_natAbs, truncate_intCast, BitVec.ofInt_toInt]

theorem isFinite_ofInt32 (b : BitVec 32) : (ofInt32 b).isFinite = true := by
  rw [ofInt32_eq]
  rfl

theorem isDouble_ofInt32 (b : BitVec 32) : (ofInt32 b).IsDouble := by
  rw [ofInt32_eq]
  have hlow := BitVec.le_toInt b
  have hhigh := BitVec.toInt_lt (x := b)
  exact holds_natCast (by omega)

theorem mapKey_ofInt32 (b : BitVec 32) : (ofInt32 b).mapKey = ofInt32 b := by
  rw [ofInt32_eq, mapKey]
  congr 1
  by_cases h : b.toInt < 0
  · have hne : (b.toInt.natAbs : ℚ≥0) ≠ 0 := by
      rw [Nat.cast_ne_zero]
      omega
    simp [h, hne]
  · simp [h]

theorem toInt32_of_equal {x y : JsNumber} (h : x.equal y = true) : toInt32 x = toInt32 y := by
  rw [equal, Bool.and_eq_true] at h
  cases x with
  | nan => simp [le] at h
  | infinite n => cases y <;> cases n <;> simp_all [le, toInt32]
  | finite n q =>
    cases y with
    | nan => simp [le] at h
    | infinite m => cases m <;> simp [le] at h
    | finite m r =>
      simp only [le, decide_eq_true_eq] at h
      rw [toInt32, toInt32, le_antisymm h.1 h.2]

end ArduConfigurator.JsNumber
