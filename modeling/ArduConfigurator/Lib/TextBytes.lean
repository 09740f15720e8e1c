import ArduConfigurator.Lib.Strings
import ArduConfigurator.Lib.Utf8

/-! # Texts and their bytes

`TextEncoder.encode` and `TextDecoder.decode` on sequences of UTF-16 code units. A surrogate
without its partner is encoded as U+FFFD. A zero byte ends whatever character the bytes before it
began, and nothing but a zero byte decodes to the character NUL. -/
namespace ArduConfigurator
set_option autoImplicit false

def isHighSurrogate (u : UInt16) : Bool := 0xD800 ≤ u ∧ u ≤ 0xDBFF

def isLowSurrogate (u : UInt16) : Bool := 0xDC00 ≤ u ∧ u ≤ 0xDFFF

def isSurrogate (u : UInt16) : Bool := isHighSurrogate u || isLowSurrogate u

def pairedChar (u v : UInt16) : Char :=
  Char.ofNat (0x10000 + (u.toNat - 0xD800) * 0x400 + (v.toNat - 0xDC00))

def loneChar (u : UInt16) : Char :=
  if isSurrogate u then Utf8Pending.replacement else Char.ofNat u.toNat

def scalars : Text → List Char
  | [] => []
  | [u] => [loneChar u]
  | u :: v :: rest =>
    if isHighSurrogate u ∧ isLowSurrogate v then pairedChar u v :: scalars rest
    else loneChar u :: scalars (v :: rest)

/-- `new TextEncoder().encode(text)`. -/
def encodeText (text : Text) : Bytes := (scalars text).flatMap String.utf8EncodeChar

def utf16 (c : Char) : Text :=
  if c.toNat < 0x10000 then [UInt16.ofNat c.toNat]
  else [UInt16.ofNat (0xD800 + (c.toNat - 0x10000) / 0x400),
    UInt16.ofNat (0xDC00 + (c.toNat - 0x10000) % 0x400)]

def decodeUnits (bytes : Bytes) : Text := (Utf8Pending.decode .start bytes).flatMap utf16

/-- `new TextDecoder().decode(bytes)`. -/
def decodeText (bytes : Bytes) : Text :=
  decodeUnits (if byteOrderMark <+: bytes then bytes.drop 3 else bytes)

/-! ## Encoding -/

variable {c : UInt16}

theorem scalars_cons (hc : isSurrogate c = false) (rest : Text) :
    scalars (c :: rest) = loneChar c :: scalars rest := by
  have hhigh : isHighSurrogate c = false := (Bool.or_eq_false_iff.mp hc).1
  cases rest with
  | nil => rfl
  | cons v rest => rw [scalars, if_neg (by simp [hhigh])]

theorem utf8EncodeChar_ascii {n : ℕ} (h : n < 0x80) :
    String.utf8EncodeChar (Char.ofNat n) = [UInt8.ofNat n] := by
  have hall : ∀ n < 0x80, String.utf8EncodeChar (Char.ofNat n) = [UInt8.ofNat n] := by decide
  exact hall n h

theorem encodeText_ascii {t : Text} (h : ∀ c ∈ t, c.toNat < 0x80) :
    encodeText t = t.map UInt16.toUInt8 := by
  induction t with
  | nil => rfl
  | cons c t ih =>
    have hc := h c List.mem_cons_self
    have hplain : isSurrogate c = false := by
      simp only [isSurrogate, isHighSurrogate, isLowSurrogate, UInt16.le_iff_toNat_le,
        UInt16.reduceToNat, Bool.or_eq_false_iff, decide_eq_false_iff_not]
      omega
    rw [encodeText, scalars_cons hplain, loneChar, if_neg (by simp [hplain]), List.flatMap_cons,
      utf8EncodeChar_ascii hc]
    exact congrArg (c.toUInt8 :: ·) (ih fun d hd => h d (List.mem_cons_of_mem c hd))

/-- What stands before a code unit that is no surrogate does not pair with what follows. -/
theorem scalars_append_cons (hc : isSurrogate c = false) (before rest : Text) :
    scalars (before ++ c :: rest) = scalars before ++ scalars (c :: rest) := by
  have hlow : isLowSurrogate c = false := (Bool.or_eq_false_iff.mp hc).2
  induction before using scalars.induct with
  | case1 => rfl
  | case2 u => simp [scalars, hlow]
  | case3 u v before hpair ih => simp [scalars, hpair, ih]
  | case4 u v before hpair ih =>
    rw [List.cons_append] at ih
    rw [List.cons_append, List.cons_append, scalars, if_neg hpair, scalars, if_neg hpair, ih,
      List.cons_append]

variable {after : Text}

theorem scalars_append (h : ∀ c ∈ after, isSurrogate c = false) (before : Text) :
    scalars (before ++ after) = scalars before ++ scalars after := by
  cases after with
  | nil => rw [List.append_nil, scalars, List.append_nil]
  | cons c after => exact scalars_append_cons (h c List.mem_cons_self) before after

variable {before : Text}

theorem scalars_append_left (h : ∀ c ∈ before, isSurrogate c = false) (after : Text) :
    scalars (before ++ after) = scalars before ++ scalars after := by
  induction before with
  | nil => rw [List.nil_append, scalars, List.nil_append]
  | cons c before ih =>
    obtain ⟨hc, hbefore⟩ := List.forall_mem_cons.mp h
    rw [List.cons_append, scalars_cons hc, scalars_cons hc, ih hbefore, List.cons_append]

/-- Cutting code units that are no surrogates off the ends cuts their bytes off. -/
theorem encodeText_append (hbefore : ∀ c ∈ before, isSurrogate c = false)
    (hafter : ∀ c ∈ after, isSurrogate c = false) (text : Text) :
    encodeText (before ++ text ++ after) =
      encodeText before ++ encodeText text ++ encodeText after := by
  rw [encodeText, scalars_append hafter, scalars_append_left hbefore]
  simp only [List.flatMap_append, encodeText]

/-! ## Zero bytes -/

namespace Utf8Pending

/-- A code point that becomes a character once six more bits follow: no zero among them and no
surrogate. -/
def Nearly (codePoint : ℕ) : Prop :=
  2 ≤ codePoint ∧ (codePoint < 0x360 ∨ 0x380 ≤ codePoint ∧ codePoint < 0x4400)

/-- What the bytes read so far say of the character they began. -/
structure Begun (p : Utf8Pending) : Prop where
  lower : 0x80 ≤ p.lower
  upper : p.upper ≤ 0xbf
  one : p.needed = 1 → Nearly p.codePoint
  two : p.needed = 2 → ∀ b, p.lower ≤ b → b ≤ p.upper → Nearly (p.codePoint * 0x40 + b % 0x40)
  three : p.needed = 3 → ∀ b, p.lower ≤ b → b ≤ p.upper → ∀ b', 0x80 ≤ b' → b' ≤ 0xbf →
    Nearly ((p.codePoint * 0x40 + b % 0x40) * 0x40 + b' % 0x40)
  most : p.needed ≤ 3

theorem begun_start : Begun start := by
  constructor <;> simp [start]

theorem begun_lead (byte : ℕ) : Begun (lead byte).2 := by
  unfold lead
  split
  · exact begun_start
  split
  · next h =>
    refine ⟨le_rfl, le_rfl, fun _ => ?_, by simp, by simp, by simp⟩
    simp only [Nearly]
    omega
  split
  · next h =>
    refine ⟨by dsimp only; split <;> omega, by dsimp only; split <;> omega, by simp,
      fun _ b hlower hupper => ?_, by simp, by simp⟩
    dsimp only at hlower hupper
    simp only [Nearly]
    split at hlower <;> split at hupper <;> omega
  split
  · next h =>
    refine ⟨by dsimp only; split <;> omega, by dsimp only; split <;> omega, by simp, by simp,
      fun _ b hlower hupper b' hb' hb => ?_, by simp⟩
    dsimp only at hlower hupper
    simp only [Nearly]
    split at hlower <;> split at hupper <;> omega
  · exact begun_start

variable {p : Utf8Pending}

theorem begun_next (h : p.Begun) (byte : ℕ) : (p.next byte).2.Begun := by
  unfold next
  split
  · exact begun_lead byte
  split
  · next hbyte =>
    dsimp only
    split
    · exact begun_start
    · next hzero hone =>
      have hmost := h.most
      refine ⟨le_rfl, le_rfl, fun hneeded => ?_, fun hneeded b hlower hupper => ?_,
        fun hneeded => ?_, ?_⟩
      · exact h.two (by dsimp only at hneeded; omega) byte hbyte.1 hbyte.2
      · exact h.three (by dsimp only at hneeded; omega) byte hbyte.1 hbyte.2 b hlower hupper
      · dsimp only at hneeded
        omega
      · dsimp only
        omega
  · exact begun_lead byte

theorem decode_zero (h : p.Begun) (rest : Bytes) :
    decode p (0 :: rest) = decode p [] ++ Char.ofNat 0 :: decode start rest := by
  have hlower := h.lower
  rw [decode_cons]
  unfold next
  split
  · next hzero => simp [decode, hzero, lead]
  · next hzero =>
    rw [if_neg (by simp; omega)]
    simp [decode, hzero, lead]

theorem decode_append_zero (h : p.Begun) (bytes rest : Bytes) :
    decode p (bytes ++ 0 :: rest) = decode p bytes ++ Char.ofNat 0 :: decode start rest := by
  induction bytes generalizing p with
  | nil => exact decode_zero h rest
  | cons byte bytes ih =>
    rw [List.cons_append, decode_cons, decode_cons, ih (begun_next h _), List.append_assoc]

theorem ofNat_ne_nul {n : ℕ} (hne : n ≠ 0) (h : n < 0xd800 ∨ 0xdfff < n ∧ n < 0x110000) :
    Char.ofNat n ≠ Char.ofNat 0 := by
  intro heq
  have hvalid : n.isValidChar := h
  have hzero : Nat.isValidChar 0 := by decide
  have := congrArg Char.toNat heq
  unfold Char.ofNat at this
  rw [dif_pos hvalid, dif_pos hzero] at this
  exact hne this

theorem replacement_ne_nul : replacement ≠ Char.ofNat 0 := by decide

variable {byte : ℕ}

theorem nul_notMem_lead (hbyte : byte ≠ 0) : Char.ofNat 0 ∉ (lead byte).1 := by
  unfold lead
  split
  · next h =>
    rw [List.mem_singleton]
    exact (ofNat_ne_nul hbyte (by omega)).symm
  split
  · exact List.not_mem_nil
  split
  · exact List.not_mem_nil
  split
  · exact List.not_mem_nil
  · rw [List.mem_singleton]
    exact replacement_ne_nul.symm

theorem nul_notMem_next (h : p.Begun) (hbyte : byte ≠ 0) :
    Char.ofNat 0 ∉ (p.next byte).1 := by
  unfold next
  split
  · exact nul_notMem_lead hbyte
  split
  · dsimp only
    split
    · next hone =>
      obtain ⟨htwo, hrange⟩ := h.one hone
      rw [List.mem_singleton]
      exact (ofNat_ne_nul (by omega) (by omega)).symm
    · exact List.not_mem_nil
  · rw [List.mem_cons, not_or]
    exact ⟨replacement_ne_nul.symm, nul_notMem_lead hbyte⟩

theorem nul_notMem_decode (h : p.Begun) {bytes : Bytes} (hbytes : (0 : UInt8) ∉ bytes) :
    Char.ofNat 0 ∉ decode p bytes := by
  induction bytes generalizing p with
  | nil =>
    rw [decode]
    split
    · exact List.not_mem_nil
    · rw [List.mem_singleton]
      exact replacement_ne_nul.symm
  | cons byte bytes ih =>
    obtain ⟨hbyte, hbytes⟩ := not_or.mp (mt List.mem_cons.mpr hbytes)
    have hne : byte.toNat ≠ 0 := fun h0 => hbyte (UInt8.toNat_inj.mp (by simpa using h0.symm))
    rw [decode_cons, List.mem_append, not_or]
    exact ⟨nul_notMem_next h hne, ih (begun_next h _) hbytes⟩

end Utf8Pending

theorem utf16_nul : utf16 (Char.ofNat 0) = [0] := by decide

theorem zero_notMem_utf16 {c : Char} (hc : c ≠ Char.ofNat 0) : (0 : UInt16) ∉ utf16 c := by
  have hrange := c.valid
  have htoNat : c.val.toNat = c.toNat := rfl
  rw [UInt32.isValidChar, Nat.isValidChar, htoNat] at hrange
  have hofNat : ∀ n : ℕ, 0 < n → n < 0x10000 → (0 : UInt16) ≠ UInt16.ofNat n := by
    intro n hpos hlt heq
    have := congrArg UInt16.toNat heq
    rw [UInt16.toNat_ofNat_of_lt' hlt] at this
    simp at this
    omega
  unfold utf16
  split
  · next hlt =>
    rw [List.mem_singleton]
    refine hofNat _ (Nat.pos_of_ne_zero fun h0 => hc ?_) hlt
    rw [← h0, Char.ofNat_toNat]
  · simp only [List.mem_cons, List.not_mem_nil, or_false, not_or]
    exact ⟨hofNat _ (by omega) (by omega), hofNat _ (by omega) (by omega)⟩

theorem decodeUnits_append_zero (bytes rest : Bytes) :
    decodeUnits (bytes ++ 0 :: rest) = decodeUnits bytes ++ 0 :: decodeUnits rest := by
  rw [decodeUnits, Utf8Pending.decode_append_zero Utf8Pending.begun_start, List.flatMap_append,
    List.flatMap_cons, utf16_nul]
  rfl

theorem zero_notMem_decodeUnits {bytes : Bytes} (h : (0 : UInt8) ∉ bytes) :
    (0 : UInt16) ∉ decodeUnits bytes := by
  intro hmem
  obtain ⟨c, hc, hmem⟩ := List.mem_flatMap.mp hmem
  refine zero_notMem_utf16 (fun hnul => ?_) hmem
  exact Utf8Pending.nul_notMem_decode Utf8Pending.begun_start h (hnul ▸ hc)

end ArduConfigurator
