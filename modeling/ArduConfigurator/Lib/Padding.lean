import ArduConfigurator.Lib.LittleEndian

/-! # Trimming trailing zeros and padding them back

A MAVLink v2 sender leaves off the trailing zero bytes of a payload but keeps at least one byte; the
receiver fills the payload up to its full length again. -/
namespace ArduConfigurator
set_option autoImplicit false

/-- How many of the first `n` bytes are kept: `n` is lowered while it is above one and the byte
before it is zero. -/
def keptLength (bs : Bytes) : ℕ → ℕ
  | 0 => 0
  | 1 => 1
  | n + 2 => if bs[n + 1]? = some 0 then keptLength bs (n + 1) else n + 2

def trimZeros (bs : Bytes) : Bytes := bs.take (keptLength bs bs.length)

/-- Zeros up to `size` bytes; longer input is left alone. -/
def zeroPad (size : ℕ) (bs : Bytes) : Bytes := bs ++ List.replicate (size - bs.length) 0

theorem keptLength_le (bs : Bytes) (n : ℕ) : keptLength bs n ≤ n := by
  fun_induction keptLength bs n with
  | case1 => exact Nat.le_refl 0
  | case2 => exact Nat.le_refl 1
  | case3 n h ih => omega
  | case4 n h => exact Nat.le_refl _

variable {bs : Bytes} {n : ℕ}

theorem keptLength_pos (h : 0 < n) : 0 < keptLength bs n := by
  fun_induction keptLength bs n with
  | case1 => exact h
  | case2 => exact h
  | case3 n hz ih => exact ih (Nat.succ_pos n)
  | case4 n hz => exact h

theorem getElem?_of_keptLength_le {i : ℕ} (hn : n ≤ bs.length) (hlo : keptLength bs n ≤ i)
    (hhi : i < n) : bs[i]? = some 0 := by
  fun_induction keptLength bs n with
  | case1 => omega
  | case2 => omega
  | case3 n h ih =>
    by_cases hi : i = n + 1
    · rw [hi]; exact h
    · exact ih (by omega) hlo (by omega)
  | case4 n h => omega

theorem zeroPad_length {size : ℕ} (h : bs.length ≤ size) :
    (zeroPad size bs).length = size := by
  rw [zeroPad, List.length_append, List.length_replicate]
  omega

theorem getElem?_zeroPad (size : ℕ) (bs : Bytes) (i : ℕ) :
    (zeroPad size bs)[i]? =
      if i < bs.length then bs[i]? else if i < size then some 0 else none := by
  rw [zeroPad, List.getElem?_append]
  split
  · rfl
  · rw [List.getElem?_replicate]
    split
    · rw [if_pos (by omega)]
    · rw [if_neg (by omega)]

@[simp] theorem zeroPad_self (bs : Bytes) : zeroPad bs.length bs = bs := by
  rw [zeroPad, Nat.sub_self, List.replicate_zero, List.append_nil]

theorem zeroPad_zeroPad {m : ℕ} (bs : Bytes) (h : m ≤ n) :
    zeroPad n (zeroPad m bs) = zeroPad n bs := by
  rw [zeroPad, zeroPad, zeroPad, List.append_assoc, List.replicate_append_replicate,
    List.length_append, List.length_replicate]
  congr 2
  omega

theorem splice_zeros {P bytes : Bytes} {m : ℕ} (h : bytes.length ≤ n) (hle : n ≤ m) :
    splice (P ++ List.replicate m 0) P.length bytes =
      (P ++ zeroPad n bytes) ++ List.replicate (m - n) 0 := by
  have hzeros : List.replicate (m - bytes.length) (0 : UInt8) =
      List.replicate (n - bytes.length) 0 ++ List.replicate (m - n) 0 := by
    rw [List.replicate_append_replicate]
    congr 1
    omega
  rw [splice, List.take_left, ← List.drop_drop, List.drop_left, List.drop_replicate, hzeros, zeroPad]
  simp only [List.append_assoc]

theorem trimZeros_length_le (bs : Bytes) : (trimZeros bs).length ≤ bs.length := by
  rw [trimZeros, List.length_take]
  exact Nat.min_le_right _ _

theorem zeroPad_trimZeros (bs : Bytes) : zeroPad bs.length (trimZeros bs) = bs := by
  have hle := keptLength_le bs bs.length
  have hlen : (trimZeros bs).length = keptLength bs bs.length := by
    rw [trimZeros, List.length_take, Nat.min_eq_left hle]
  apply List.ext_getElem?
  intro i
  rw [getElem?_zeroPad, hlen]
  split
  · next hi => rw [trimZeros, List.getElem?_take_of_lt hi]
  · next hi =>
    split
    · next hi' => rw [getElem?_of_keptLength_le (Nat.le_refl _) (by omega) hi']
    · next hi' => rw [List.getElem?_eq_none (by omega)]

end ArduConfigurator
