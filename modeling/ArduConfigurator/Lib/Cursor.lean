import Mathlib.Data.List.Induction
import Mathlib.Tactic.Ring

/-! # Strings of bits, and reading values off them

Numbers written in base two, most significant bit first, and a string of bits cut into bytes. A
reader moves a cursor along a stream. `Carries` says that the bits in front of a reader are a
value's own: wherever they stand and whatever follows, the reader yields the value and stops behind
them. A value at the tail of a stream has less than a byte behind it, and its reader may use that. -/
namespace ArduConfigurator
set_option autoImplicit false

abbrev Bits := List Bool

/-- `Number.parseInt(bits || '0', 2)`. -/
def ofBits (s : Bits) : ℕ := s.foldl (fun n b => 2 * n + b.toNat) 0

/-- The last `w` binary digits of `n`. -/
def lowBits : ℕ → ℕ → Bits
  | 0, _ => []
  | w + 1, n => lowBits w (n / 2) ++ [n.testBit 0]

/-- How many digits `n.toString(2)` has. -/
def binaryDigits (n : ℕ) : ℕ := if n = 0 then 1 else n.log2 + 1

/-- `n.toString(2).padStart(w, '0')`. -/
def binary (w n : ℕ) : Bits := lowBits (max w (binaryDigits n)) n

theorem ofBits_append_singleton (s : Bits) (b : Bool) :
    ofBits (s ++ [b]) = 2 * ofBits s + b.toNat := by
  rw [ofBits, List.foldl_append]
  rfl

@[simp] theorem length_lowBits (w n : ℕ) : (lowBits w n).length = w := by
  induction w generalizing n with
  | zero => rfl
  | succ w ih => rw [lowBits, List.length_append, ih, List.length_singleton]

theorem ofBits_lowBits (w n : ℕ) : ofBits (lowBits w n) = n % 2 ^ w := by
  induction w generalizing n with
  | zero => rw [lowBits, pow_zero, Nat.mod_one]; rfl
  | succ w ih =>
    have hbit : (n.testBit 0).toNat = n % 2 := by
      rw [Nat.testBit_zero]
      obtain h | h := Nat.mod_two_eq_zero_or_one n <;> simp [h]
    rw [lowBits, ofBits_append_singleton, ih, hbit, pow_succ, mul_comm (2 ^ w) 2, Nat.mod_mul]
    omega

theorem lowBits_ofBits (s : Bits) : lowBits s.length (ofBits s) = s := by
  induction s using List.reverseRecOn with
  | nil => rfl
  | append_singleton s b ih =>
    rw [List.length_append, List.length_singleton, lowBits, ofBits_append_singleton]
    have hdiv : (2 * ofBits s + b.toNat) / 2 = ofBits s := by
      cases b <;> simp only [Bool.toNat_false, Bool.toNat_true] <;> omega
    have hbit : (2 * ofBits s + b.toNat).testBit 0 = b := by
      rw [Nat.testBit_zero]
      cases b <;> simp
    rw [hdiv, hbit, ih]

theorem ofBits_lt (s : Bits) : ofBits s < 2 ^ s.length := by
  have h := ofBits_lowBits s.length (ofBits s)
  rw [lowBits_ofBits] at h
  rw [h]
  exact Nat.mod_lt _ (Nat.two_pow_pos _)

theorem lt_two_pow_binaryDigits (n : ℕ) : n < 2 ^ binaryDigits n := by
  rw [binaryDigits]
  split
  · omega
  · exact Nat.lt_log2_self

theorem binaryDigits_le {n w : ℕ} (hw : 0 < w) (h : n < 2 ^ w) : binaryDigits n ≤ w := by
  rw [binaryDigits]
  split
  · exact hw
  · next hn => exact (Nat.log2_lt hn).mpr h

theorem ofBits_binary (w n : ℕ) : ofBits (binary w n) = n := by
  have hle : 2 ^ binaryDigits n ≤ 2 ^ max w (binaryDigits n) :=
    Nat.pow_le_pow_right (by norm_num) (le_max_right _ _)
  rw [binary, ofBits_lowBits, Nat.mod_eq_of_lt (lt_of_lt_of_le (lt_two_pow_binaryDigits n) hle)]

theorem length_binary {w n : ℕ} (hw : 0 < w) (h : n < 2 ^ w) : (binary w n).length = w := by
  rw [binary, length_lowBits, max_eq_left (binaryDigits_le hw h)]

/-! ## Reading values off -/

structure Cursor where
  stream : Bits
  pos : ℕ

namespace Cursor

def remaining (c : Cursor) : ℕ := c.stream.length - c.pos

def ahead (c : Cursor) : Bits := c.stream.drop c.pos

theorem length_ahead (c : Cursor) : c.ahead.length = c.remaining := List.length_drop

variable {stream b : Bits} {pos : ℕ}

theorem ahead_add {a : Bits} (h : ahead ⟨stream, pos⟩ = a ++ b) :
    ahead ⟨stream, pos + a.length⟩ = b := by
  rw [ahead] at h ⊢
  rw [← List.drop_drop, h, List.drop_left]

theorem add_le_length {a : Bits} (hle : pos ≤ stream.length) (h : ahead ⟨stream, pos⟩ = a ++ b) :
    pos + a.length ≤ stream.length := by
  have hlen := congrArg List.length h
  simp only [ahead, List.length_drop, List.length_append] at hlen
  omega

end Cursor

variable {ε α β : Type*}

/-- A reader: a value and the cursor behind it, or an exception. -/
abbrev Reader (ε α : Type*) := Cursor → Except ε (α × Cursor)

def Reader.bind (read : Reader ε α) (next : α → Reader ε β) : Reader ε β := fun c =>
  match read c with
  | .error e => .error e
  | .ok (a, c) => next a c

def Reader.pure (a : α) : Reader ε α := fun c => .ok (a, c)

/-- `bits` are read as `a`, and exactly `bits` unless they are the tail of the stream. -/
def Carries (tail : Bool) (bits : Bits) (read : Reader ε α) (a : α) : Prop :=
  ∀ stream pos rest, pos ≤ stream.length → Cursor.ahead ⟨stream, pos⟩ = bits ++ rest →
    (tail = true → rest.length < 8) →
    ∃ next, read ⟨stream, pos⟩ = .ok (a, ⟨stream, next⟩) ∧ (tail = false → next = pos + bits.length)

variable {read : Reader ε α} {a : α} {bits : Bits}

theorem Carries.tail (h : Carries false bits read a) (tail : Bool) :
    Carries tail bits read a := by
  intro stream pos rest hle hahead _
  obtain ⟨next, hread, hnext⟩ := h stream pos rest hle hahead (by simp)
  exact ⟨next, hread, fun _ => hnext rfl⟩

theorem carries_pure (a : α) : Carries false [] (Reader.pure a : Reader ε α) a :=
  fun _ pos _ _ _ _ => ⟨pos, rfl, fun _ => rfl⟩

variable {tail : Bool}

theorem Carries.bind {first second : Bits} {next : α → Reader ε β} {b : β}
    (h : Carries false first read a) (h' : Carries tail second (next a) b) :
    Carries tail (first ++ second) (read.bind next) b := by
  intro stream pos rest hle hahead htail
  rw [List.append_assoc] at hahead
  obtain ⟨_, hread, hpos⟩ := h stream pos _ hle hahead (by simp)
  obtain rfl := hpos rfl
  obtain ⟨last, hlast, hend⟩ := h' stream _ rest (Cursor.add_le_length hle hahead)
    (Cursor.ahead_add hahead) htail
  refine ⟨last, by simp only [Reader.bind, hread, hlast], fun ht => ?_⟩
  rw [hend ht, List.length_append, Nat.add_assoc]

/-- What is made of a value when it has been read changes nothing about the reading. -/
theorem Carries.map (h : Carries tail bits read a) (f : α → β) :
    Carries tail bits (read.bind fun x => Reader.pure (f x)) (f a) := by
  intro stream pos rest hle hahead htail
  obtain ⟨next, hread, hnext⟩ := h stream pos rest hle hahead htail
  exact ⟨next, by simp only [Reader.bind, hread, Reader.pure], hnext⟩

/-! ## Two readers of one stream -/

/-- Two readers that fail together, or stop at the same place with values that `R` relates. -/
def Reader.Together (R : α → β → Prop) (read : Reader ε α) (other : Reader ε β) : Prop :=
  ∀ c, (∃ e, read c = .error e ∧ other c = .error e) ∨
    ∃ a b next, read c = .ok (a, next) ∧ other c = .ok (b, next) ∧ R a b

namespace Reader

variable {γ δ : Type*} {R : α → β → Prop} {S : γ → δ → Prop}

theorem together_refl (read : Reader ε α) : Together Eq read read := by
  intro c
  cases h : read c with
  | error e => exact .inl ⟨e, rfl, rfl⟩
  | ok r => exact .inr ⟨r.1, r.1, r.2, rfl, rfl, rfl⟩

theorem together_pure {b : β} (h : R a b) :
    Together R (pure a : Reader ε α) (pure b) := fun c => .inr ⟨a, b, c, rfl, rfl, h⟩

theorem together_error (e : ε) :
    Together R (fun _ => .error e : Reader ε α) (fun _ => .error e) := fun _ => .inl ⟨e, rfl, rfl⟩

variable {other : Reader ε β}

theorem Together.bind {next : α → Reader ε γ} {next' : β → Reader ε δ} (h : Together R read other)
    (h' : ∀ a b, R a b → Together S (next a) (next' b)) :
    Together S (read.bind next) (other.bind next') := by
  intro c
  simp only [Reader.bind]
  obtain ⟨e, hread, hother⟩ | ⟨a, b, c', hread, hother, hab⟩ := h c
  · rw [hread, hother]
    exact .inl ⟨e, rfl, rfl⟩
  · rw [hread, hother]
    exact h' a b hab c'

theorem Together.map (h : Together R read other) {f : α → γ} {g : β → δ}
    (hfg : ∀ a b, R a b → S (f a) (g b)) :
    Together S (read.bind fun a => pure (f a)) (other.bind fun b => pure (g b)) :=
  h.bind fun a b hab => together_pure (hfg a b hab)

end Reader

end ArduConfigurator
