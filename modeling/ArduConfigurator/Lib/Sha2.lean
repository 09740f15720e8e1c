import Mathlib.Data.Nat.Prime.Basic
import Mathlib.Order.Bounds.Basic

/-! # SHA-256 as the Secure Hash Standard states it

A message is a string of bits. It is padded, cut into blocks of sixteen words, and every block is
compressed into the hash value so far. The constants are roots of primes. -/
namespace ArduConfigurator.Sha2
set_option autoImplicit false

abbrev Word := BitVec 32

/-! ## Constants -/

/-- The lower `k` bits of an `n`-th root of `m`, from the highest on, behind the bits of `r`. -/
def rootBits (n m : ℕ) : ℕ → ℕ → ℕ
  | 0, r => r
  | k + 1, r => rootBits n m k (if (r + 2 ^ k) ^ n ≤ m then r + 2 ^ k else r)

theorem rootBits_spec {n m k r : ℕ} (hlow : r ^ n ≤ m) (hhigh : m < (r + 2 ^ k) ^ n) :
    rootBits n m k r ^ n ≤ m ∧ m < (rootBits n m k r + 1) ^ n := by
  induction k generalizing r with
  | zero => exact ⟨hlow, hhigh⟩
  | succ k ih =>
    rw [rootBits]
    split
    · next h =>
      refine ih h ?_
      rwa [Nat.add_assoc, ← Nat.two_mul, ← Nat.pow_succ']
    · next h => exact ih hlow (Nat.not_le.1 h)

/-- The first 32 bits of the fractional part of the `n`-th root of `p`. -/
def fraction (n p : ℕ) : Word := BitVec.ofNat 32 (rootBits n (p * 2 ^ (32 * n)) 36 0)

theorem fraction_spec {n p : ℕ} (hn : n ≠ 0) (hp : p < 16 ^ n) :
    ∃ r, r ^ n ≤ p * 2 ^ (32 * n) ∧ p * 2 ^ (32 * n) < (r + 1) ^ n ∧
      fraction n p = BitVec.ofNat 32 r := by
  have hhigh : p * 2 ^ (32 * n) < (0 + 2 ^ 36) ^ n := by
    rw [Nat.zero_add, show 2 ^ 36 = 16 * 2 ^ 32 by rfl, Nat.mul_pow, ← Nat.pow_mul]
    exact Nat.mul_lt_mul_of_pos_right hp (Nat.two_pow_pos _)
  have hlow : 0 ^ n ≤ p * 2 ^ (32 * n) := by
    rw [Nat.zero_pow (Nat.pos_of_ne_zero hn)]
    exact Nat.zero_le _
  obtain ⟨hle, hlt⟩ := rootBits_spec hlow hhigh
  exact ⟨_, hle, hlt, rfl⟩

/-- The first 64 primes. -/
def primes : List ℕ := (List.range 312).filter Nat.Prime

theorem primes_length : primes.length = 64 := by decide +kernel

def K (t : ℕ) : Word := fraction 3 (primes.getD t 0)

/-! ## Functions -/

def Ch (x y z : Word) : Word := (x &&& y) ^^^ (~~~x &&& z)

def Maj (x y z : Word) : Word := (x &&& y) ^^^ (x &&& z) ^^^ (y &&& z)

def bigSigma0 (x : Word) : Word := x.rotateRight 2 ^^^ x.rotateRight 13 ^^^ x.rotateRight 22

def bigSigma1 (x : Word) : Word := x.rotateRight 6 ^^^ x.rotateRight 11 ^^^ x.rotateRight 25

def smallSigma0 (x : Word) : Word := x.rotateRight 7 ^^^ x.rotateRight 18 ^^^ (x >>> 3)

def smallSigma1 (x : Word) : Word := x.rotateRight 17 ^^^ x.rotateRight 19 ^^^ (x >>> 10)

/-! ## The message schedule -/

/-- Sixteen words of the schedule of a block from word `t` on. -/
def window (M : ℕ → Word) : ℕ → ℕ → Word
  | 0, i => M i
  | t + 1, i =>
    if i < 15 then window M t (i + 1)
    else smallSigma1 (window M t 14) + window M t 9 + smallSigma0 (window M t 1) + window M t 0

def W (M : ℕ → Word) (t : ℕ) : Word := window M t 0

variable {M : ℕ → Word}

theorem window_eq {i : ℕ} (hi : i < 16) (t : ℕ) : window M t i = W M (t + i) := by
  induction i generalizing t with
  | zero => rfl
  | succ i ih =>
    rw [← Nat.add_assoc, Nat.add_right_comm, ← ih (by omega), window, if_pos (by omega)]

theorem W_first {t : ℕ} (ht : t < 16) : W M t = M t := by
  rw [← Nat.zero_add t, ← window_eq ht, window, Nat.zero_add]

theorem W_next (t : ℕ) :
    W M (t + 16) =
      smallSigma1 (W M (t + 14)) + W M (t + 9) + smallSigma0 (W M (t + 1)) + W M t := by
  rw [show t + 16 = t + 1 + 15 by rfl, ← window_eq (by omega), window, if_neg (by omega),
    window_eq (by omega), window_eq (by omega), window_eq (by omega), window_eq (by omega)]
  rfl

/-! ## Compression -/

structure Value where
  a : Word
  b : Word
  c : Word
  d : Word
  e : Word
  f : Word
  g : Word
  h : Word
  deriving DecidableEq

def initial : Value :=
  let H := fun i => fraction 2 (primes.getD i 0)
  ⟨H 0, H 1, H 2, H 3, H 4, H 5, H 6, H 7⟩

def step (M : ℕ → Word) (v : Value) (t : ℕ) : Value :=
  let T1 := v.h + bigSigma1 v.e + Ch v.e v.f v.g + K t + W M t
  let T2 := bigSigma0 v.a + Maj v.a v.b v.c
  ⟨T1 + T2, v.a, v.b, v.c, v.d + T1, v.e, v.f, v.g⟩

def compress (H : Value) (M : ℕ → Word) : Value :=
  let v := (List.range 64).foldl (step M) H
  ⟨v.a + H.a, v.b + H.b, v.c + H.c, v.d + H.d, v.e + H.e, v.f + H.f, v.g + H.g, v.h + H.h⟩

/-! ## Padding and the digest -/

/-- The bits of a word or of a length, the most significant first. -/
def bits {n : ℕ} (x : BitVec n) : List Bool := (List.range n).map x.getMsbD

/-- The zeros after the one: the least number that leaves 64 bits of the last block. -/
def zeros (l : ℕ) : ℕ := (959 - l % 512) % 512

theorem zeros_isLeast (l : ℕ) : IsLeast {k | (l + 1 + k) % 512 = 448} (zeros l) := by
  refine ⟨?_, fun k hk => ?_⟩
  · simp only [Set.mem_ofPred_eq, zeros]
    omega
  · simp only [Set.mem_ofPred_eq] at hk
    simp only [zeros]
    omega

def pad (message : List Bool) : List Bool :=
  message ++ [true] ++ List.replicate (zeros message.length) false ++
    bits (BitVec.ofNat 64 message.length)

/-- The word of 32 bits from place `p` on. -/
def wordAt (padded : List Bool) (p : ℕ) : Word :=
  (BitVec.ofBoolListBE ((padded.drop p).take 32)).setWidth 32

def digest (message : List Bool) : List Bool :=
  let H := (List.range ((pad message).length / 512)).foldl
    (fun H i => compress H fun t => wordAt (pad message) (512 * i + 32 * t)) initial
  bits H.a ++ bits H.b ++ bits H.c ++ bits H.d ++ bits H.e ++ bits H.f ++ bits H.g ++ bits H.h

end ArduConfigurator.Sha2
