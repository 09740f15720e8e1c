import Mathlib.Data.List.Basic
import Mathlib.Order.Lattice
import Mathlib.Tactic.Ring

/-! # Slices of a list, lists written over part of another, and little-endian numbers

`Uint8Array.subarray` and `Uint8Array.set` as list operations, over any element type. A receiver that
knows only pieces of a sequence and where they belong writes them into a buffer in whatever order
they come: `AgreesBelow src buf n` says that the buffer has the right element at every place below
the frontier `n`, and a genuine piece that starts at or below the frontier takes it to its own end.
`DataView.setUint16`, `setUint32` and `setBigUint64` with `littleEndian = true` write `leBytes`, and
the getters of the same names read `ofLE`. -/
namespace ArduConfigurator
set_option autoImplicit false

section Slices
variable {α : Type*}

/-- The elements at `off, …, off + len - 1`. -/
def slice (xs : List α) (off len : ℕ) : List α := (xs.drop off).take len

/-- `xs` with `ys` written over it from place `off` on. -/
def splice (xs : List α) (off : ℕ) (ys : List α) : List α :=
  xs.take off ++ ys ++ xs.drop (off + ys.length)

variable {xs : List α} {off len : ℕ}

theorem slice_length (h : off + len ≤ xs.length) :
    (slice xs off len).length = len := by
  rw [slice, List.length_take, List.length_drop]
  omega

theorem getElem?_slice (xs : List α) (off len i : ℕ) :
    (slice xs off len)[i]? = if i < len then xs[off + i]? else none := by
  rw [slice, List.getElem?_take, List.getElem?_drop]

theorem slice_append_right (xs ys : List α) (off len : ℕ) :
    slice (xs ++ ys) (xs.length + off) len = slice ys off len := by
  rw [slice, slice, ← List.drop_drop, List.drop_left]

theorem slice_zero_of_length (h : xs.length = len) :
    slice xs 0 len = xs := by
  rw [slice, List.drop_zero, List.take_of_length_le (by omega)]

theorem slice_add (xs : List α) (off m n : ℕ) :
    slice xs off (m + n) = slice xs off m ++ slice xs (off + m) n := by
  rw [slice, slice, slice, List.take_add, List.drop_drop]

theorem slice_append_left (ys : List α) (h : off + len ≤ xs.length) :
    slice (xs ++ ys) off len = slice xs off len := by
  rw [slice, slice, List.drop_append_of_le_length (by omega),
    List.take_append_of_le_length (by rw [List.length_drop]; omega)]

variable {ys : List α}

theorem splice_length (h : off + ys.length ≤ xs.length) :
    (splice xs off ys).length = xs.length := by
  simp only [splice, List.length_append, List.length_take, List.length_drop]
  omega

@[simp] theorem splice_nil (xs : List α) (off : ℕ) : splice xs off [] = xs := by
  simp [splice]

theorem getElem?_splice (h : off + ys.length ≤ xs.length) (i : ℕ) :
    (splice xs off ys)[i]? = if off ≤ i ∧ i < off + ys.length then ys[i - off]? else xs[i]? := by
  have htake : (xs.take off).length = off := by
    rw [List.length_take]; omega
  rw [splice, List.append_assoc, List.getElem?_append, htake]
  split
  · next hlt =>
    rw [if_neg (by omega), List.getElem?_take_of_lt hlt]
  · next hge =>
    rw [List.getElem?_append]
    split
    · next hin => rw [if_pos (by omega)]
    · next hout =>
      rw [if_neg (by omega), List.getElem?_drop]
      congr 1
      omega

theorem slice_splice_self (h : off + ys.length ≤ xs.length) :
    slice (splice xs off ys) off ys.length = ys := by
  apply List.ext_getElem?
  intro i
  rw [getElem?_slice]
  split
  · next hi =>
    rw [getElem?_splice h, if_pos (by omega), Nat.add_sub_cancel_left]
  · next hi => rw [List.getElem?_eq_none (by omega)]

theorem slice_splice_of_disjoint {o n : ℕ} (h : off + ys.length ≤ xs.length)
    (hd : o + n ≤ off ∨ off + ys.length ≤ o) :
    slice (splice xs off ys) o n = slice xs o n := by
  apply List.ext_getElem?
  intro i
  rw [getElem?_slice, getElem?_slice]
  split
  · next hi => rw [getElem?_splice h, if_neg (by omega)]
  · rfl

end Slices

/-! ## Reassembly -/

section Pieces
variable {α : Type*}

/-- `piece` is what `src` holds from place `off` on. -/
def Genuine (src : List α) (off : ℕ) (piece : List α) : Prop :=
  ∀ k < piece.length, piece[k]? = src[off + k]?

/-- The buffer is right at every place below `n`. -/
def AgreesBelow (src buf : List α) (n : ℕ) : Prop :=
  n ≤ buf.length ∧ ∀ i < n, buf[i]? = src[i]?

theorem genuine_nil (src : List α) (off : ℕ) : Genuine src off [] := by
  intro k hk
  exact absurd hk (Nat.not_lt_zero k)

theorem genuine_slice (src : List α) (off len : ℕ) : Genuine src off (slice src off len) := by
  intro k hk
  have hlen : k < len := by
    rw [slice, List.length_take] at hk
    omega
  rw [getElem?_slice, if_pos hlen]

variable {src piece : List α} {off : ℕ}

theorem Genuine.take (h : Genuine src off piece) (n : ℕ) :
    Genuine src off (piece.take n) := by
  intro k hk
  rw [List.length_take] at hk
  rw [List.getElem?_take_of_lt (by omega)]
  exact h k (by omega)

theorem agreesBelow_zero (src buf : List α) : AgreesBelow src buf 0 :=
  ⟨Nat.zero_le _, fun i hi => absurd hi (Nat.not_lt_zero i)⟩

variable {buf : List α} {n : ℕ}

theorem AgreesBelow.take_eq (h : AgreesBelow src buf n) :
    buf.take n = src.take n := by
  apply List.ext_getElem?
  intro i
  by_cases hi : i < n
  · rw [List.getElem?_take_of_lt hi, List.getElem?_take_of_lt hi, h.2 i hi]
  · rw [List.getElem?_take_eq_none (by omega), List.getElem?_take_eq_none (by omega)]

theorem AgreesBelow.le_length (h : AgreesBelow src buf n) :
    n ≤ src.length := by
  by_contra hlt
  have hi := h.2 (n - 1) (by omega)
  have hbuf : n - 1 < buf.length := by have := h.1; omega
  rw [List.getElem?_eq_getElem hbuf, List.getElem?_eq_none (by omega)] at hi
  cases hi

theorem AgreesBelow.eq (h : AgreesBelow src buf buf.length) (hlen : buf.length = src.length) :
    buf = src := by
  have := h.take_eq
  rwa [List.take_length, hlen, List.take_length] at this

theorem AgreesBelow.write (h : AgreesBelow src buf n) (hp : Genuine src off piece)
    (hfit : off + piece.length ≤ buf.length) :
    AgreesBelow src (splice buf off piece) n := by
  refine ⟨by rw [splice_length hfit]; exact h.1, fun i hi => ?_⟩
  rw [getElem?_splice hfit]
  split
  · next hin =>
    rw [hp (i - off) (by omega)]
    congr 1
    omega
  · exact h.2 i hi

/-- A genuine piece that starts at or below the frontier extends it to the end of the piece. -/
theorem AgreesBelow.extend (h : AgreesBelow src buf n) (hp : Genuine src off piece)
    (hfit : off + piece.length ≤ buf.length) (hoff : off ≤ n) :
    AgreesBelow src (splice buf off piece) (max n (off + piece.length)) := by
  refine ⟨by rw [splice_length hfit]; exact max_le h.1 hfit, fun i hi => ?_⟩
  rw [getElem?_splice hfit]
  split
  · next hin =>
    rw [hp (i - off) (by omega)]
    congr 1
    omega
  · next hout => exact h.2 i (by omega)

end Pieces

/-! ## Little-endian numbers -/

/-- The content of a `Uint8Array`. -/
abbrev Bytes := List UInt8

/-- The `w` low bytes of `n`, least significant first. -/
def leBytes : ℕ → ℕ → Bytes
  | 0, _ => []
  | w + 1, n => UInt8.ofNat n :: leBytes w (n / 256)

def ofLE : Bytes → ℕ
  | [] => 0
  | b :: bs => b.toNat + 256 * ofLE bs

@[simp] theorem leBytes_zero (n : ℕ) : leBytes 0 n = [] := rfl

@[simp] theorem ofLE_nil : ofLE [] = 0 := rfl

theorem ofLE_cons (b : UInt8) (bs : Bytes) : ofLE (b :: bs) = b.toNat + 256 * ofLE bs := rfl

@[simp] theorem leBytes_length (w n : ℕ) : (leBytes w n).length = w := by
  induction w generalizing n with
  | zero => rfl
  | succ w ih => rw [leBytes, List.length_cons, ih]

theorem ofLE_leBytes (w n : ℕ) : ofLE (leBytes w n) = n % 256 ^ w := by
  induction w generalizing n with
  | zero => rw [leBytes_zero, ofLE_nil, pow_zero, Nat.mod_one]
  | succ w ih =>
    rw [leBytes, ofLE_cons, ih, pow_succ', Nat.mod_mul, UInt8.toNat_ofNat']

theorem ofLE_leBytes_of_lt {w n : ℕ} (h : n < 256 ^ w) : ofLE (leBytes w n) = n := by
  rw [ofLE_leBytes, Nat.mod_eq_of_lt h]

theorem ofLE_lt (bs : Bytes) : ofLE bs < 256 ^ bs.length := by
  induction bs with
  | nil => exact Nat.one_pos
  | cons b bs ih =>
    have hb : b.toNat < 256 := b.toNat_lt
    rw [ofLE_cons, List.length_cons, pow_succ]
    omega

theorem leBytes_ofLE (bs : Bytes) : leBytes bs.length (ofLE bs) = bs := by
  induction bs with
  | nil => rfl
  | cons b bs ih =>
    have hb : b.toNat < 256 := b.toNat_lt
    rw [List.length_cons, ofLE_cons, leBytes]
    congr 1
    · rw [← UInt8.toNat_inj, UInt8.toNat_ofNat', Nat.add_mul_mod_self_left, Nat.mod_eq_of_lt hb]
    · rw [Nat.add_mul_div_left _ _ (by norm_num), Nat.div_eq_of_lt hb, Nat.zero_add, ih]

/-- The number in the `w` bytes from `off` on, provided the view has them. -/
def readLE (bs : Bytes) (off w : ℕ) : Option ℕ :=
  if off + w ≤ bs.length then some (ofLE (slice bs off w)) else none

end ArduConfigurator
