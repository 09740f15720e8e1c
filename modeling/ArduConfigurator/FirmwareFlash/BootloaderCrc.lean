import ArduConfigurator.FirmwareFlash.Bootloader

/-! # The CRC of the serial bootloader

The table of `crc.ts` divides a byte at a time. Division is linear, so the low byte of the register
can be divided on its own and the rest of the register moved down. -/
namespace ArduConfigurator.FirmwareFlash.BootloaderCrc
set_option autoImplicit false
open BootloaderClient

/-! ## Division bit by bit -/

/-- The reflected polynomial is taken off a register whose last bit differs from the message's. -/
def divideBit (c : BitVec 32) (bit : Bool) : BitVec 32 :=
  if c.getLsbD 0 != bit then 0xedb88320#32 ^^^ (c >>> 1) else c >>> 1

/-- The bits of a byte, the least significant first. -/
def bitsOf (byte : UInt8) : List Bool := (List.range 8).map byte.toBitVec.getLsbD

def bitwiseCrc (bytes : List UInt8) (c : BitVec 32) : BitVec 32 :=
  (bytes.flatMap bitsOf).foldl divideBit c

def shift (c : BitVec 32) : BitVec 32 := divideBit c false

theorem shift_xor (a b : BitVec 32) : shift (a ^^^ b) = shift a ^^^ shift b := by
  have hcancel (x y p : BitVec 32) : p ^^^ x ^^^ (p ^^^ y) = x ^^^ y := by
    rw [BitVec.xor_comm p x, BitVec.xor_assoc, ← BitVec.xor_assoc p p, BitVec.xor_self,
      BitVec.zero_xor]
  simp only [shift, divideBit, BitVec.getLsbD_xor, BitVec.ushiftRight_xor_distrib]
  cases a.getLsbD 0 <;> cases b.getLsbD 0
  · rfl
  · rw [← BitVec.xor_assoc, BitVec.xor_comm _ (a >>> 1), BitVec.xor_assoc]
    rfl
  · exact (BitVec.xor_assoc ..).symm
  · exact (hcancel ..).symm

theorem shifts_xor (n : ℕ) (a b : BitVec 32) :
    shift^[n] (a ^^^ b) = shift^[n] a ^^^ shift^[n] b := by
  induction n generalizing a b with
  | zero => rfl
  | succ n ih => rw [Function.iterate_succ_apply, shift_xor, ih]; rfl

/-- Bits that the message does not reach are only moved down. -/
theorem shifts_high {n : ℕ} {y : BitVec 32} (h : ∀ i < n, y.getLsbD i = false) :
    shift^[n] y = y >>> n := by
  induction n generalizing y with
  | zero => rw [BitVec.ushiftRight_zero]; rfl
  | succ n ih =>
    have hshift : shift y = y >>> 1 := by
      rw [shift, divideBit, h 0 (Nat.succ_pos n)]
      rfl
    rw [Function.iterate_succ_apply, hshift, ih, ← BitVec.shiftRight_add, Nat.add_comm]
    intro i hi
    rw [BitVec.getLsbD_ushiftRight]
    exact h (1 + i) (by omega)

theorem divideBit_eq (c : BitVec 32) (bit : Bool) :
    divideBit c bit = shift (c ^^^ (BitVec.ofBool bit).setWidth 32) := by
  have hlow : (c ^^^ (BitVec.ofBool bit).setWidth 32).getLsbD 0 = (c.getLsbD 0 != bit) := by
    simp
  have hrest : (c ^^^ (BitVec.ofBool bit).setWidth 32) >>> 1 = c >>> 1 := by
    rw [BitVec.ushiftRight_xor_distrib]
    cases bit <;> exact BitVec.xor_zero
  rw [shift, divideBit, divideBit, hlow, hrest, Bool.bne_false]

/-- The first `k` bits divided one by one are those bits taken into the register and shifted out. -/
theorem divide_bits (c : BitVec 32) (byte : UInt8) {k : ℕ} (hk : k ≤ 8) :
    ((List.range k).map byte.toBitVec.getLsbD).foldl divideBit c =
      shift^[k] (c ^^^ (byte.toBitVec.setWidth k).setWidth 32) := by
  induction k with
  | zero =>
    rw [BitVec.of_length_zero (x := byte.toBitVec.setWidth 0)]
    exact BitVec.xor_zero.symm
  | succ k ih =>
    have hsplit : (byte.toBitVec.setWidth (k + 1)).setWidth 32 =
        (byte.toBitVec.setWidth k).setWidth 32 ^^^
          ((BitVec.ofBool (byte.toBitVec.getLsbD k)).setWidth 32 <<< k) := by
      ext i hi
      simp only [BitVec.getElem_setWidth, BitVec.getElem_xor, BitVec.getLsbD_setWidth,
        BitVec.getElem_shiftLeft, BitVec.getLsbD_ofBool]
      rcases lt_trichotomy i k with h | rfl | h
      · simp [h, Nat.lt_succ_of_lt h]
      · simp
      · simp [Nat.not_lt.2 h.le, show ¬ i < k + 1 by omega, show i - k ≠ 0 by omega]
    have hmoved : shift^[k] ((BitVec.ofBool (byte.toBitVec.getLsbD k)).setWidth 32 <<< k) =
        (BitVec.ofBool (byte.toBitVec.getLsbD k)).setWidth 32 := by
      rw [shifts_high]
      · ext i hi
        simp only [BitVec.getElem_ushiftRight, BitVec.getLsbD_shiftLeft, BitVec.getElem_setWidth,
          BitVec.getLsbD_setWidth, BitVec.getLsbD_ofBool]
        by_cases h : i = 0
        · simp [h, show k < 32 by omega]
        · simp [h]
      · intro i hi
        simp [BitVec.getLsbD_shiftLeft, hi]
    rw [List.range_succ, List.map_append, List.foldl_append, ih (by omega), List.map_singleton,
      List.foldl_cons, List.foldl_nil, divideBit_eq, Function.iterate_succ_apply', hsplit,
      ← BitVec.xor_assoc, shifts_xor k (c ^^^ _), hmoved]

/-! ## The table -/

/-- The byte is taken in, the low byte of the register is divided and the rest is moved down. -/
theorem divide_byte (c : BitVec 32) (byte : UInt8) :
    (bitsOf byte).foldl divideBit c =
      shift^[8] ((c ^^^ byte.toBitVec.setWidth 32) &&& 0xff#32) ^^^ (c >>> 8) := by
  have hsplit : c ^^^ byte.toBitVec.setWidth 32 =
      ((c ^^^ byte.toBitVec.setWidth 32) &&& 0xff#32) ^^^ ((c >>> 8) <<< 8) := by
    ext i hi
    have hmask : ∀ i < 32, (0xff#32).getLsbD i = decide (i < 8) := by decide
    simp only [BitVec.getElem_xor, BitVec.getElem_and, BitVec.getElem_setWidth,
      BitVec.getElem_shiftLeft]
    rw [← BitVec.getLsbD_eq_getElem (x := 0xff#32), hmask i hi]
    by_cases h : i < 8
    · simp [h]
    · simp [h, Nat.add_sub_cancel' (Nat.not_lt.1 h), BitVec.getLsbD_of_ge _ _ (Nat.not_lt.1 h),
        BitVec.getLsbD_eq_getElem hi]
  have hhigh : shift^[8] ((c >>> 8) <<< 8) = c >>> 8 := by
    rw [shifts_high]
    · ext i hi
      simp only [BitVec.getElem_ushiftRight, BitVec.getLsbD_shiftLeft, BitVec.getLsbD_ushiftRight]
      by_cases h : 8 + i < 32
      · simp [h]
      · simp [h, BitVec.getLsbD_of_ge _ _ (Nat.not_lt.1 h)]
    · intro i hi
      simp [BitVec.getLsbD_shiftLeft, hi]
  have hbits := divide_bits c byte (le_refl 8)
  rw [BitVec.setWidth_eq] at hbits
  calc (bitsOf byte).foldl divideBit c
      = shift^[8] (c ^^^ byte.toBitVec.setWidth 32) := hbits
    _ = shift^[8] (((c ^^^ byte.toBitVec.setWidth 32) &&& 0xff#32) ^^^ ((c >>> 8) <<< 8)) :=
      congrArg _ hsplit
    _ = _ := by rw [shifts_xor, hhigh]

theorem crcBit_toNat (c : BitVec 32) : crcBit c.toNat = (shift c).toNat := by
  have hlow : c.getLsbD 0 = decide (c.toNat % 2 = 1) := Nat.testBit_zero _
  rw [shift, divideBit, Bool.bne_false, hlow, crcBit]
  by_cases h : c.toNat % 2 = 1
  · rw [if_pos h, if_pos (decide_eq_true h), BitVec.toNat_xor, BitVec.toNat_ushiftRight]
    rfl
  · rw [if_neg h, if_neg (by simpa using h), BitVec.toNat_ushiftRight]

theorem crcEntry_toNat (c : BitVec 32) : crcEntry c.toNat = (shift^[8] c).toNat := by
  have hiter (n : ℕ) : crcBit^[n] c.toNat = (shift^[n] c).toNat := by
    induction n with
    | zero => rfl
    | succ n ih =>
      rw [Function.iterate_succ_apply', ih, crcBit_toNat, Function.iterate_succ_apply']
  exact hiter 8

theorem arduPilotCrc32_eq (bytes : List UInt8) (c : BitVec 32) :
    arduPilotCrc32 (bytes.map UInt8.toNat) c.toNat = (bitwiseCrc bytes c).toNat := by
  induction bytes generalizing c with
  | nil => rfl
  | cons byte bytes ih =>
    have hbyte : (byte.toBitVec.setWidth 32).toNat = byte.toNat :=
      BitVec.toNat_setWidth_of_le (by decide)
    have hstep : crcEntry ((c.toNat ^^^ byte.toNat) &&& 0xff) ^^^ (c.toNat >>> 8) =
        ((bitsOf byte).foldl divideBit c).toNat := by
      rw [divide_byte, BitVec.toNat_xor, ← crcEntry_toNat, BitVec.toNat_and, BitVec.toNat_xor,
        hbyte, BitVec.toNat_ushiftRight]
      rfl
    calc arduPilotCrc32 ((byte :: bytes).map UInt8.toNat) c.toNat
        = arduPilotCrc32 (bytes.map UInt8.toNat)
            (crcEntry ((c.toNat ^^^ byte.toNat) &&& 0xff) ^^^ (c.toNat >>> 8)) := rfl
      _ = (bitwiseCrc bytes ((bitsOf byte).foldl divideBit c)).toNat := by rw [hstep, ih]
      _ = (bitwiseCrc (byte :: bytes) c).toNat := by
        rw [bitwiseCrc, bitwiseCrc, List.flatMap_cons, List.foldl_append]

/-! ## Chunks and padding -/

theorem arduPilotCrc32_append (bytes rest : List ℕ) (state : ℕ) :
    arduPilotCrc32 (bytes ++ rest) state = arduPilotCrc32 rest (arduPilotCrc32 bytes state) :=
  List.foldl_append

theorem padded_words (bytes : List ℕ) (state k : ℕ) :
    (arduPilotCrc32 [0xff, 0xff, 0xff, 0xff])^[k] (arduPilotCrc32 bytes state) =
      arduPilotCrc32 (bytes ++ List.replicate (4 * k) 0xff) state := by
  induction k with
  | zero => rw [List.replicate_zero, List.append_nil, Function.iterate_zero_apply]
  | succ k ih =>
    rw [Function.iterate_succ_apply', ih, Nat.mul_succ, List.replicate_add, ← List.append_assoc,
      arduPilotCrc32_append (bytes ++ _)]
    rfl

theorem firmwareCrc_eq {image : List UInt8} {flashMaxSize : ℕ} (himage : 4 ∣ image.length)
    (hflash : 4 ∣ flashMaxSize) :
    firmwareCrc (image.map UInt8.toNat) flashMaxSize =
      (bitwiseCrc (image ++ List.replicate (flashMaxSize - image.length) 0xff) 0#32).toNat := by
  obtain ⟨k, hk⟩ := Nat.dvd_sub hflash himage
  have hcount : (flashMaxSize - (image.map UInt8.toNat).length + 3) / 4 = k := by
    rw [List.length_map]
    omega
  have hpad : (List.replicate (4 * k) (0xff : UInt8)).map UInt8.toNat =
      List.replicate (4 * k) 0xff := List.map_replicate
  rw [firmwareCrc, hcount, hk, ← arduPilotCrc32_eq, List.map_append, hpad]
  exact padded_words _ _ _

theorem crc_correct :
    (∀ (bytes : List UInt8) (state : BitVec 32),
      arduPilotCrc32 (bytes.map UInt8.toNat) state.toNat = (bitwiseCrc bytes state).toNat) ∧
    (∀ (bytes rest : List UInt8) (state : BitVec 32),
      arduPilotCrc32 (rest.map UInt8.toNat)
          (arduPilotCrc32 (bytes.map UInt8.toNat) state.toNat) =
        arduPilotCrc32 ((bytes ++ rest).map UInt8.toNat) state.toNat) ∧
    ∀ (image : List UInt8) (flashMaxSize : ℕ),
      4 ∣ image.length → 4 ∣ flashMaxSize → image.length ≤ flashMaxSize →
      firmwareCrc (image.map UInt8.toNat) flashMaxSize =
        (bitwiseCrc (image ++ List.replicate (flashMaxSize - image.length) 0xff) 0#32).toNat := by
  refine ⟨arduPilotCrc32_eq, fun bytes rest state => ?_,
    fun image flashMaxSize himage hflash _ => firmwareCrc_eq himage hflash⟩
  rw [List.map_append, arduPilotCrc32_append]

theorem crc_correct_word :
    firmwareCrc [1, 2, 3, 4] 8 =
      (bitwiseCrc [1, 2, 3, 4, 0xff, 0xff, 0xff, 0xff] 0#32).toNat :=
  crc_correct.2.2 [1, 2, 3, 4] 8 (by decide) (by decide) (by decide)

/-- The entries that `crc.ts` is locked against. -/
example : crcEntry 1 = 0x77073096 ∧ crcEntry 255 = 0x2d02ef8d := by decide

/-! ## Errors that the check sees -/

variable {a b : BitVec 32} {bit bit' : Bool} {bits bits' : List Bool}

/-- Only the polynomial has the top bit, so that bit tells whether it was added. -/
theorem divideBit_agree {n : ℕ} (hn : n < 32) (h : divideBit a bit >>> n = divideBit b bit' >>> n) :
    (a.getLsbD 0 != bit) = (b.getLsbD 0 != bit') ∧ a >>> (1 + n) = b >>> (1 + n) := by
  have htop (c : BitVec 32) (bit : Bool) :
      (divideBit c bit >>> n).getLsbD (31 - n) = (c.getLsbD 0 != bit) := by
    rw [BitVec.getLsbD_ushiftRight, Nat.add_sub_cancel' (by omega), divideBit]
    cases c.getLsbD 0 != bit <;> simp [BitVec.getLsbD_of_ge]
  have hsame : (a.getLsbD 0 != bit) = (b.getLsbD 0 != bit') := by rw [← htop a, h, htop]
  refine ⟨hsame, ?_⟩
  rw [divideBit, divideBit, hsame] at h
  rw [BitVec.shiftRight_add, BitVec.shiftRight_add]
  split at h
  · rwa [BitVec.ushiftRight_xor_distrib, BitVec.ushiftRight_xor_distrib, BitVec.xor_right_inj] at h
  · exact h

theorem divideBit_injective (bit : Bool) : Function.Injective (divideBit · bit) := by
  intro a b (h : divideBit a bit = divideBit b bit)
  obtain ⟨hlow, hhigh⟩ := @divideBit_agree a b bit bit 0 (by decide) (by rw [h])
  refine BitVec.eq_of_getLsbD_eq fun i _ => ?_
  cases i with
  | zero => exact Bool.bne_left_inj.mp hlow
  | succ i =>
    have hbit := congrArg (·.getLsbD i) hhigh
    simpa [Nat.add_comm] using hbit

/-- As many bits before two registers come out equal, they differ in that many low bits at most. -/
theorem divide_agree (hlength : bits.length = bits'.length) (hshort : bits.length ≤ 32)
    (h : bits.foldl divideBit a = bits'.foldl divideBit b) :
    a >>> bits.length = b >>> bits.length := by
  induction bits generalizing bits' a b with
  | nil =>
    cases List.length_eq_zero_iff.mp hlength.symm
    rw [show a = b from h]
  | cons bit bits ih =>
    cases bits' with
    | nil => cases hlength
    | cons bit' bits' =>
      rw [List.length_cons] at hshort ⊢
      rw [Nat.add_comm]
      exact (divideBit_agree hshort (ih (Nat.succ.inj hlength) (by omega) h)).2

theorem divide_injective (hlength : bits.length = bits'.length) (hshort : bits.length ≤ 32)
    (h : bits.foldl divideBit a = bits'.foldl divideBit a) : bits = bits' := by
  induction bits generalizing bits' a with
  | nil => exact (List.length_eq_zero_iff.mp hlength.symm).symm
  | cons bit bits ih =>
    cases bits' with
    | nil => cases hlength
    | cons bit' bits' =>
      have hrest := Nat.succ.inj hlength
      rw [List.length_cons] at hshort
      obtain ⟨hlow, -⟩ := divideBit_agree hshort (divide_agree hrest (by omega) h)
      cases Bool.bne_right_inj.mp hlow
      rw [ih hrest (by omega) h]

/-- An error within 32 bits in a row, wherever they lie, changes the check value. -/
theorem crc_sees_burst {bytes bytes' : List UInt8} {before error error' after : List Bool}
    (h : bytes.flatMap bitsOf = before ++ error ++ after)
    (h' : bytes'.flatMap bitsOf = before ++ error' ++ after)
    (hlength : error.length = error'.length) (hshort : error.length ≤ 32) (c : BitVec 32) :
    arduPilotCrc32 (bytes.map UInt8.toNat) c.toNat =
      arduPilotCrc32 (bytes'.map UInt8.toNat) c.toNat ↔ error = error' := by
  have hafter (bits : List Bool) : Function.Injective (bits.foldl divideBit) := by
    induction bits with
    | nil => exact Function.injective_id
    | cons bit bits ih => exact ih.comp (divideBit_injective bit)
  rw [arduPilotCrc32_eq, arduPilotCrc32_eq, BitVec.toNat_inj, bitwiseCrc, bitwiseCrc, h, h']
  simp only [List.foldl_append]
  exact ⟨fun heq => divide_injective hlength hshort (hafter _ heq), fun heq => by rw [heq]⟩

theorem crc_sees_burst_one :
    arduPilotCrc32 [1] 0 = arduPilotCrc32 [3] 0 ↔ [false] = [true] :=
  @crc_sees_burst [1] [3] [true] [false] [true] [false, false, false, false, false, false]
    (by decide) (by decide) rfl (by decide) 0#32

end ArduConfigurator.FirmwareFlash.BootloaderCrc
