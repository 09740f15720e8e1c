import ArduConfigurator.Lib.DecimalText

/-! # Hexadecimal text

A natural number in hexadecimal, filled up with zeros on the left, and the number that a run of
hexadecimal digits stands for. -/
namespace ArduConfigurator.HexText
open DecimalText
set_option autoImplicit false

def upperUnit (d : ℕ) : UInt16 :=
  if d < 10 then UInt16.ofNat (0x30 + d) else UInt16.ofNat (0x37 + d)

/-- `n.toString(16).toUpperCase()`. -/
def hexDigits (n : ℕ) : Text :=
  if n = 0 then [ZERO] else (Nat.digits 16 n).reverse.map upperUnit

/-- `text.padStart(width, '0')`. -/
def padStart (width : ℕ) (t : Text) : Text := List.replicate (width - t.length) ZERO ++ t

def isHex (c : UInt16) : Bool := (radixDigit 16 c).isSome

def hexValue (c : UInt16) : ℕ := (radixDigit 16 c).getD 0

/-- `Number.parseInt(digits, 16)` for digits and nothing else. -/
def readHex (digits : Text) : ℕ := digits.foldl (fun v c => v * 16 + hexValue c) 0

/-! ## Digits -/

variable {d : ℕ}

theorem radixDigit_upperUnit (h : d < 16) : radixDigit 16 (upperUnit d) = some d := by
  have hall : ∀ d : Fin 16, radixDigit 16 (upperUnit d) = some (d : ℕ) := by decide
  exact hall ⟨d, h⟩

theorem isHex_upperUnit (h : d < 16) : isHex (upperUnit d) = true := by
  rw [isHex, radixDigit_upperUnit h]
  rfl

theorem hexValue_upperUnit (h : d < 16) : hexValue (upperUnit d) = d := by
  rw [hexValue, radixDigit_upperUnit h]
  rfl

theorem isHex_zero : isHex ZERO = true := by decide

variable {c : UInt16}

theorem isHex_range (h : isHex c = true) : 0x30 ≤ c.toNat ∧ c.toNat ≤ 0x66 := by
  by_contra hrange
  have hdigit : ¬isDigit c = true := by
    rw [isDigit_iff]
    omega
  have hupper : ¬(0x41 ≤ c ∧ c ≤ 0x46) := by
    simp only [UInt16.le_iff_toNat_le, UInt16.reduceToNat]
    omega
  have hlower : ¬(0x61 ≤ c ∧ c ≤ 0x66) := by
    simp only [UInt16.le_iff_toNat_le, UInt16.reduceToNat]
    omega
  simp [isHex, radixDigit, hdigit, hupper, hlower] at h

/-! ## Numbers -/

theorem foldl_hex (digits : Text) (v : ℕ) :
    digits.foldl (fun v c => v * 16 + hexValue c) v =
      v * 16 ^ digits.length + readHex digits := by
  induction digits generalizing v with
  | nil => simp [readHex]
  | cons c digits ih =>
    rw [readHex, List.foldl_cons, List.foldl_cons, ih, ih (0 * 16 + hexValue c),
      List.length_cons, pow_succ]
    ring

theorem readHex_append (a b : Text) :
    readHex (a ++ b) = readHex a * 16 ^ b.length + readHex b := by
  rw [readHex, List.foldl_append, foldl_hex]
  rfl

theorem readHex_zeros (k : ℕ) : readHex (List.replicate k ZERO) = 0 := by
  induction k with
  | zero => rfl
  | succ k ih =>
    rw [List.replicate_succ', readHex_append, ih]
    rfl

theorem readHex_hexDigits (n : ℕ) : readHex (hexDigits n) = n := by
  rw [hexDigits]
  split_ifs with h
  · rw [h]
    rfl
  have hread (ds : List ℕ) (hds : ∀ d ∈ ds, d < 16) :
      readHex (ds.reverse.map upperUnit) = Nat.ofDigits 16 ds := by
    induction ds with
    | nil => rfl
    | cons d ds ih =>
      have hd := hds d List.mem_cons_self
      rw [List.reverse_cons, List.map_append, readHex_append,
        ih fun e he => hds e (List.mem_cons_of_mem d he), Nat.ofDigits_cons]
      simp only [List.map_cons, List.map_nil, List.length_singleton, readHex, List.foldl_cons,
        List.foldl_nil, hexValue_upperUnit hd]
      push_cast
      ring
  rw [hread _ fun d hd => Nat.digits_lt_base (by norm_num) hd, Nat.ofDigits_digits]

variable {n : ℕ}

theorem isHex_hexDigits (hc : c ∈ hexDigits n) : isHex c = true := by
  rw [hexDigits] at hc
  split_ifs at hc
  · rw [List.mem_singleton.mp hc]
    exact isHex_zero
  · obtain ⟨d, hd, rfl⟩ := List.mem_map.mp hc
    exact isHex_upperUnit (Nat.digits_lt_base (by norm_num) (List.mem_reverse.mp hd))

variable {w : ℕ}

theorem hexDigits_length_le (hw : 0 < w) (h : n < 16 ^ w) :
    (hexDigits n).length ≤ w := by
  rw [hexDigits]
  split_ifs with hn
  · exact hw
  · rw [List.length_map, List.length_reverse]
    exact (Nat.digits_length_le_iff (by norm_num) n).mpr h

theorem hexDigits_of_lt (h : d < 16) : hexDigits d = [upperUnit d] := by
  rw [hexDigits]
  split_ifs with hd
  · rw [hd]
    rfl
  · rw [Nat.digits_of_lt 16 d hd h]
    rfl

/-! ## Numerals of a fixed width -/

theorem isHex_padStart (hc : c ∈ padStart w (hexDigits n)) :
    isHex c = true := by
  rcases List.mem_append.mp hc with h | h
  · rw [List.eq_of_mem_replicate h]
    exact isHex_zero
  · exact isHex_hexDigits h

theorem readHex_padStart (w n : ℕ) : readHex (padStart w (hexDigits n)) = n := by
  rw [padStart, readHex_append, readHex_zeros, readHex_hexDigits, Nat.zero_mul, Nat.zero_add]

theorem padStart_length (hw : 0 < w) (h : n < 16 ^ w) :
    (padStart w (hexDigits n)).length = w := by
  have hlen := hexDigits_length_le hw h
  rw [padStart, List.length_append, List.length_replicate]
  omega

end ArduConfigurator.HexText
