import ArduConfigurator.Mavlink.Sha256
import ArduConfigurator.Lib.Sha2
import Mathlib.Tactic.IntervalCases

/-! # The digest of `sha256.ts`

Words and bytes of the code against words and bits of the standard: the padding, the message
schedule, the rounds of a block and the loop over the blocks. -/
namespace ArduConfigurator.Mavlink.Sha256
set_option autoImplicit false

def Words.toValue (v : Words) : Sha2.Value :=
  ⟨v.a.toBitVec, v.b.toBitVec, v.c.toBitVec, v.d.toBitVec, v.e.toBitVec, v.f.toBitVec,
    v.g.toBitVec, v.h.toBitVec⟩

def bitsOf (bytes : Bytes) : List Bool := bytes.flatMap fun byte => Sha2.bits byte.toBitVec

/-! ## Words -/

theorem rotr_toBitVec (x : UInt32) {n : UInt32} (hpos : 0 < n.toNat) (hn : n.toNat < 32) :
    (rotr x n).toBitVec = x.toBitVec.rotateRight n.toNat := by
  rw [rotr, UInt32.toBitVec_or, UInt32.toBitVec_shiftRight, UInt32.toBitVec_shiftLeft,
    BitVec.rotateRight_def, Nat.mod_eq_of_lt hn, BitVec.ushiftRight_eq', BitVec.shiftLeft_eq']
  congr 2
  · simp
    omega
  · simp
    omega

theorem K_eq : K.map UInt32.toBitVec = (List.range 64).map Sha2.K := by decide +kernel

theorem initial_eq : initial.toValue = Sha2.initial := by decide +kernel

theorem bitsOf_beBytes (x : UInt32) : bitsOf (beBytes x) = Sha2.bits x.toBitVec := by
  simp [bitsOf, beBytes, Sha2.bits, List.range_succ]

theorem word_of_bytes (b0 b1 b2 b3 : UInt8) (rest : List Bool) :
    Sha2.wordAt (bitsOf [b0, b1, b2, b3] ++ rest) 0 = (beWord b0 b1 b2 b3).toBitVec := by
  have hbits : ((bitsOf [b0, b1, b2, b3] ++ rest).drop 0).take 32 = bitsOf [b0, b1, b2, b3] := by
    rw [List.drop_zero]
    exact List.take_left' (by simp [bitsOf, Sha2.bits])
  rw [Sha2.wordAt, hbits]
  refine BitVec.eq_of_getMsbD_eq fun i hi => ?_
  simp only [BitVec.getMsbD_setWidth, BitVec.getMsbD_ofBoolListBE]
  interval_cases i <;> simp [bitsOf, Sha2.bits, List.range_succ, beWord]

/-! ## A block -/

variable {M : ℕ → Sha2.Word}

theorem getElem?_of_map {l : List UInt32} {f : ℕ → Sha2.Word} {n t : ℕ}
    (h : l.map UInt32.toBitVec = (List.range n).map f) (ht : t < n) :
    ∃ x, l[t]? = some x ∧ x.toBitVec = f t := by
  have := congrArg (·[t]?) h
  simp only [List.getElem?_map, List.getElem?_range ht, Option.map_some] at this
  exact Option.map_eq_some_iff.mp this

theorem schedule_eq {w : List UInt32} (hw : w.map UInt32.toBitVec = (List.range 16).map M)
    (n : ℕ) :
    (schedule w n).map UInt32.toBitVec = (List.range (16 + n)).map (Sha2.W M) := by
  induction n with
  | zero =>
    rw [schedule, hw]
    exact List.map_congr_left fun t ht => (Sha2.W_first (List.mem_range.mp ht)).symm
  | succ n ih =>
    have hlength : (schedule w n).length = 16 + n := by
      simpa using congrArg List.length ih
    have hback (back t : ℕ) (h : t + back = 16 + n) (hpos : 0 < back) :
        ((schedule w n)[(schedule w n).length - back]?.getD 0).toBitVec = Sha2.W M t := by
      obtain ⟨x, hx, hvalue⟩ := getElem?_of_map ih (show t < 16 + n by omega)
      rw [hlength, ← h, Nat.add_sub_cancel, hx]
      exact hvalue
    rw [← Nat.add_assoc, List.range_succ, List.map_append, ← ih, schedule, List.map_append,
      List.map_singleton, List.map_singleton, Nat.add_comm 16 n, Sha2.W_next]
    simp [rotr_toBitVec, Sha2.smallSigma0, Sha2.smallSigma1, hback 16 n (by omega) (by omega),
      hback 15 (n + 1) (by omega) (by omega), hback 7 (n + 9) (by omega) (by omega),
      hback 2 (n + 14) (by omega) (by omega)]
    ac_rfl

theorem round_toValue (v : Words) {k w : UInt32} {t : ℕ} (hk : k.toBitVec = Sha2.K t)
    (hw : w.toBitVec = Sha2.W M t) : (round v k w).toValue = Sha2.step M v.toValue t := by
  simp [round, Words.toValue, Sha2.step, Sha2.bigSigma0, Sha2.bigSigma1, Sha2.Ch, Sha2.Maj,
    rotr_toBitVec, hk, hw]

variable {chunk : Bytes}

theorem block_toValue (v : Words)
    (hchunk : (words chunk).map UInt32.toBitVec = (List.range 16).map M) :
    (block v chunk).toValue = Sha2.compress v.toValue M := by
  have hw := schedule_eq hchunk 48
  have hlength : (schedule (words chunk) 48).length = 64 := by
    simpa using congrArg List.length hw
  have hrounds {n : ℕ} (hn : n ≤ 64) :
      (((K.zip (schedule (words chunk) 48)).take n).foldl
          (fun v kw => round v kw.1 kw.2) v).toValue =
        (List.range n).foldl (Sha2.step M) v.toValue := by
    induction n with
    | zero => rfl
    | succ n ih =>
      obtain ⟨k, hk, hkt⟩ := getElem?_of_map K_eq hn
      obtain ⟨w, hw, hwt⟩ := getElem?_of_map hw hn
      have hkw : (K.zip (schedule (words chunk) 48))[n]? = some (k, w) :=
        List.getElem?_zip_eq_some.mpr ⟨hk, hw⟩
      rw [List.take_add_one, hkw, List.foldl_append, List.range_succ, List.foldl_append,
        ← ih (by omega)]
      exact round_toValue _ hkt hwt
  have hall := hrounds le_rfl
  have hK : K.length = 64 := rfl
  rw [List.take_of_length_le (by rw [List.length_zip, hlength, hK]; rfl)] at hall
  unfold block
  dsimp only
  generalize (K.zip (schedule (words chunk) 48)).foldl (fun v kw => round v kw.1 kw.2) v = z at hall
  rw [Sha2.compress, ← hall]
  simp only [Words.toValue, UInt32.toBitVec_add, BitVec.add_comm]

/-! ## The bits of the padded message -/

theorem bitsOf_append (a b : Bytes) : bitsOf (a ++ b) = bitsOf a ++ bitsOf b := List.flatMap_append

theorem bitsOf_length (bytes : Bytes) : (bitsOf bytes).length = 8 * bytes.length := by
  induction bytes with
  | nil => rfl
  | cons byte bytes ih =>
    rw [bitsOf, List.flatMap_cons, List.length_append, ← bitsOf, ih, List.length_cons, Sha2.bits,
      List.length_map, List.length_range]
    omega

theorem bitsOf_zeros (n : ℕ) :
    bitsOf (List.replicate n 0) = List.replicate (8 * n) false := by
  induction n with
  | zero => rfl
  | succ n ih =>
    rw [List.replicate_succ', bitsOf_append, ih, Nat.mul_succ, List.replicate_add]
    rfl

variable {message : Bytes}

/-- The length of a message in bits takes no more than the low word. -/
theorem bits_length (h : message.length < 2 ^ 29) :
    Sha2.bits (BitVec.ofNat 64 (8 * message.length)) =
      bitsOf (beBytes (UInt32.ofNat (message.length / 0x20000000)) ++
        beBytes (UInt32.ofNat (message.length * 8))) := by
  have hhigh : message.length / 0x20000000 = 0 := Nat.div_eq_of_lt h
  have hzero : Sha2.bits (UInt32.ofNat 0).toBitVec = (List.range 32).map fun _ => false := by decide
  rw [hhigh, bitsOf_append, bitsOf_beBytes, bitsOf_beBytes, hzero, Sha2.bits, Sha2.bits,
    show List.range 64 = List.range 32 ++ (List.range 32).map (32 + ·) by rfl, List.map_append,
    List.map_map, Nat.mul_comm 8]
  congr 1
  · refine List.map_congr_left fun i hi => ?_
    rw [BitVec.getMsbD_eq_getLsbD, BitVec.getLsbD_ofNat, Nat.testBit_lt_two_pow]
    · simp
    · have hplace := List.mem_range.mp hi
      calc message.length * 8 < 2 ^ 32 := by omega
        _ ≤ 2 ^ (64 - 1 - i) := Nat.pow_le_pow_right Nat.two_pos (by omega)
  · refine List.map_congr_left fun i hi => ?_
    have := List.mem_range.mp hi
    simp only [Function.comp_apply, BitVec.getMsbD_eq_getLsbD, BitVec.getLsbD_ofNat,
      UInt32.toBitVec_ofNat']
    rw [show 64 - 1 - (32 + i) = 32 - 1 - i by omega]
    simp [this, show 32 + i < 64 by omega, show 32 - 1 - i < 32 by omega,
      show 32 - 1 - i < 64 by omega]

theorem bitsOf_padded (h : message.length < 2 ^ 29) :
    bitsOf (padded message) = Sha2.pad (bitsOf message) := by
  have hzeros : 7 + 8 * ((message.length + 8) / 64 * 64 + 64 - 8 - (message.length + 1)) =
      Sha2.zeros (8 * message.length) := by
    rw [Sha2.zeros]
    omega
  have hone : bitsOf [0x80] = [true] ++ List.replicate 7 false := by decide
  rw [padded, Sha2.pad, List.append_assoc, bitsOf_append, ← bits_length h, bitsOf_append,
    bitsOf_append, hone, bitsOf_zeros, bitsOf_length, ← hzeros, List.replicate_add]
  simp only [List.append_assoc]

theorem words_eq {n : ℕ} (hchunk : chunk.length = 4 * n) (rest : List Bool) :
    (words chunk).map UInt32.toBitVec =
      (List.range n).map fun t => Sha2.wordAt (bitsOf chunk ++ rest) (32 * t) := by
  induction n generalizing chunk with
  | zero =>
    cases List.eq_nil_of_length_eq_zero hchunk
    rfl
  | succ n ih =>
    rcases chunk with - | ⟨b0, - | ⟨b1, - | ⟨b2, - | ⟨b3, chunk⟩⟩⟩⟩
    all_goals simp only [List.length_cons, List.length_nil] at hchunk
    iterate 4 omega
    have hbits : bitsOf (b0 :: b1 :: b2 :: b3 :: chunk) =
        bitsOf [b0, b1, b2, b3] ++ bitsOf chunk := bitsOf_append [b0, b1, b2, b3] chunk
    have hrest (t : ℕ) : Sha2.wordAt (bitsOf [b0, b1, b2, b3] ++ (bitsOf chunk ++ rest))
        (32 * (t + 1)) = Sha2.wordAt (bitsOf chunk ++ rest) (32 * t) := by
      rw [Sha2.wordAt, Sha2.wordAt, Nat.mul_succ, Nat.add_comm, ← List.drop_drop,
        List.drop_left' (by rw [bitsOf_length]; rfl)]
    rw [words, List.map_cons, ih (by omega), List.range_succ_eq_map, List.map_cons,
      hbits, List.append_assoc, Nat.mul_zero, word_of_bytes, List.map_map]
    exact congrArg _ (List.map_congr_left fun t _ => (hrest t).symm)

/-! ## The loop over the blocks -/

theorem blocks_toValue (v : Words) (bytes : Bytes) {n : ℕ} (hn : 64 * n ≤ bytes.length) :
    (blocks v bytes n).toValue = (List.range n).foldl
      (fun H i => Sha2.compress H fun t => Sha2.wordAt (bitsOf bytes) (512 * i + 32 * t))
      v.toValue := by
  induction n generalizing v bytes with
  | zero => rfl
  | succ n ih =>
    have hsplit : bitsOf bytes = bitsOf (bytes.take 64) ++ bitsOf (bytes.drop 64) := by
      rw [← bitsOf_append, List.take_append_drop]
    have hchunk : (bytes.take 64).length = 4 * 16 := by
      rw [List.length_take]
      omega
    have hrest (i t : ℕ) : Sha2.wordAt (bitsOf bytes) (512 * (i + 1) + 32 * t) =
        Sha2.wordAt (bitsOf (bytes.drop 64)) (512 * i + 32 * t) := by
      have hplace : 512 * (i + 1) + 32 * t = 512 + (512 * i + 32 * t) := by omega
      rw [Sha2.wordAt, hplace, ← List.drop_drop, hsplit,
        List.drop_left' (by rw [bitsOf_length, hchunk])]
      rfl
    rw [blocks, ih _ _ (by rw [List.length_drop]; omega),
      block_toValue v (words_eq hchunk (bitsOf (bytes.drop 64))), List.range_succ_eq_map,
      List.foldl_cons, List.foldl_map]
    simp only [hrest, Nat.mul_zero, Nat.zero_add, ← hsplit]

theorem bitsOf_bytes (v : Words) :
    bitsOf v.bytes = Sha2.bits v.toValue.a ++ Sha2.bits v.toValue.b ++ Sha2.bits v.toValue.c ++
      Sha2.bits v.toValue.d ++ Sha2.bits v.toValue.e ++ Sha2.bits v.toValue.f ++
      Sha2.bits v.toValue.g ++ Sha2.bits v.toValue.h := by
  simp only [Words.bytes, bitsOf_append, bitsOf_beBytes, Words.toValue]

/-- The padded message is a whole number of blocks that ends in the message's length in bits, and
the digest is the standard's. -/
theorem sha256_correct (message : Bytes) (h : message.length < 2 ^ 29) :
    64 ∣ (padded message).length ∧
      Sha2.bits (BitVec.ofNat 64 (8 * message.length)) <:+ bitsOf (padded message) ∧
      bitsOf (padded message) = Sha2.pad (bitsOf message) ∧
      bitsOf (sha256 message) = Sha2.digest (bitsOf message) := by
  have hpad := bitsOf_padded h
  have hlength : (Sha2.pad (bitsOf message)).length / 512 = (padded message).length / 64 := by
    rw [← hpad, bitsOf_length]
    omega
  refine ⟨?_, ?_, hpad, ?_⟩
  · simp only [padded, beBytes, List.length_append, List.length_replicate, List.length_cons,
      List.length_nil]
    omega
  · rw [hpad, Sha2.pad, bitsOf_length]
    exact List.suffix_append _ _
  · rw [sha256, Sha2.digest, bitsOf_bytes, blocks_toValue _ _ (by omega), initial_eq, hpad, hlength]

theorem sha256_correct_abc :
    64 ∣ (padded [0x61, 0x62, 0x63]).length ∧
      Sha2.bits (BitVec.ofNat 64 24) <:+ bitsOf (padded [0x61, 0x62, 0x63]) ∧
      bitsOf (padded [0x61, 0x62, 0x63]) = Sha2.pad (bitsOf [0x61, 0x62, 0x63]) ∧
      bitsOf (sha256 [0x61, 0x62, 0x63]) = Sha2.digest (bitsOf [0x61, 0x62, 0x63]) :=
  sha256_correct [0x61, 0x62, 0x63] (by decide)

end ArduConfigurator.Mavlink.Sha256
