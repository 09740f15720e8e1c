import ArduConfigurator.Lib.LittleEndian

/-! # UTF-8 text

`TextEncoder.encode` and `TextDecoder.decode` with the default options: malformed input decodes to
U+FFFD and a leading byte order mark is dropped. -/
namespace ArduConfigurator
set_option autoImplicit false

/-- `TextEncoder.encode`. -/
def textEncode (text : String) : Bytes := text.toList.flatMap String.utf8EncodeChar

/-- The state of the decoder between two bytes: how many continuation bytes are still needed, the
bounds of the next one, and the code point so far. -/
structure Utf8Pending where
  needed : ℕ
  lower : ℕ
  upper : ℕ
  codePoint : ℕ

namespace Utf8Pending

def start : Utf8Pending := ⟨0, 0x80, 0xbf, 0⟩

def replacement : Char := Char.ofNat 0xfffd

def lead (byte : ℕ) : List Char × Utf8Pending :=
  if byte ≤ 0x7f then ([Char.ofNat byte], start)
  else if 0xc2 ≤ byte ∧ byte ≤ 0xdf then ([], ⟨1, 0x80, 0xbf, byte % 0x20⟩)
  else if 0xe0 ≤ byte ∧ byte ≤ 0xef then
    ([], ⟨2, if byte = 0xe0 then 0xa0 else 0x80, if byte = 0xed then 0x9f else 0xbf, byte % 0x10⟩)
  else if 0xf0 ≤ byte ∧ byte ≤ 0xf4 then
    ([], ⟨3, if byte = 0xf0 then 0x90 else 0x80, if byte = 0xf4 then 0x8f else 0xbf, byte % 0x08⟩)
  else ([replacement], start)

/-- One byte; a byte that does not continue the character ends it and is read again. -/
def next (p : Utf8Pending) (byte : ℕ) : List Char × Utf8Pending :=
  if p.needed = 0 then lead byte
  else if p.lower ≤ byte ∧ byte ≤ p.upper then
    let codePoint := p.codePoint * 0x40 + byte % 0x40
    if p.needed = 1 then ([Char.ofNat codePoint], start)
    else ([], ⟨p.needed - 1, 0x80, 0xbf, codePoint⟩)
  else (replacement :: (lead byte).1, (lead byte).2)

def decode : Utf8Pending → Bytes → List Char
  | p, [] => if p.needed = 0 then [] else [replacement]
  | p, byte :: bytes =>
      let (chars, p) := p.next byte.toNat
      chars ++ decode p bytes

end Utf8Pending

def byteOrderMark : Bytes := [0xef, 0xbb, 0xbf]

/-- `TextDecoder.decode`. -/
def textDecode (bytes : Bytes) : String :=
  String.ofList (Utf8Pending.decode .start (if byteOrderMark <+: bytes then bytes.drop 3 else bytes))

/-! ## Round trip -/

namespace Utf8Pending

theorem decode_cons (p : Utf8Pending) (byte : UInt8) (bytes : Bytes) :
    decode p (byte :: bytes) = (p.next byte.toNat).1 ++ decode (p.next byte.toNat).2 bytes := rfl

/-- A code point is below the surrogates or above them, and at most 0x10ffff. -/
theorem char_cases (c : Char) :
    c.val.toNat < 0xd800 ∨ (0xdfff < c.val.toNat ∧ c.val.toNat < 0x110000) := c.valid

theorem char_ofNat (c : Char) : Char.ofNat c.val.toNat = c := Char.ofNat_toNat c

theorem next_middle {n lower upper v w : ℕ} (hw : w = v / 64) (hl : lower ≤ v % 64 + 128)
    (hu : v % 64 + 128 ≤ upper) :
    next ⟨n + 2, lower, upper, w⟩ (v % 64 + 128) = ([], ⟨n + 1, 0x80, 0xbf, v⟩) := by
  simp only [next]
  rw [if_neg (by omega), if_pos ⟨hl, hu⟩, if_neg (by omega)]
  congr 2
  omega

theorem next_last (v : ℕ) :
    next ⟨1, 0x80, 0xbf, v / 64⟩ (v % 64 + 128) = ([Char.ofNat v], start) := by
  have hv : v / 64 * 0x40 + (v % 64 + 128) % 0x40 = v := by omega
  simp only [next, hv]
  rw [if_neg (by omega), if_pos (by omega)]
  rfl

theorem decode_char (c : Char) (rest : Bytes) :
    decode start (String.utf8EncodeChar c ++ rest) = c :: decode start rest := by
  have hvalid := char_cases c
  have hofNat := char_ofNat c
  generalize hv : c.val.toNat = v at hvalid hofNat
  have hbyte : ∀ n < 256, (UInt8.ofNat n).toNat = n := fun n hn => by
    rw [UInt8.toNat_ofNat', Nat.mod_eq_of_lt hn]
  unfold String.utf8EncodeChar
  dsimp only
  rw [hv]
  split
  · next h1 =>
    rw [List.cons_append, List.nil_append, decode_cons, hbyte v (by omega)]
    have hnext : start.next v = ([Char.ofNat v], start) := by
      rw [next, if_pos (by rfl), lead, if_pos h1]
    rw [hnext, hofNat]
    rfl
  · next h1 =>
    split
    · next h2 =>
      simp only [List.cons_append, List.nil_append, decode_cons]
      rw [hbyte _ (by omega), hbyte _ (by omega)]
      have hlead : start.next (v / 64 % 32 + 192) = ([], ⟨1, 0x80, 0xbf, v / 64⟩) := by
        rw [next, if_pos (by rfl), lead, if_neg (by omega), if_pos (by omega)]
        congr 2
        omega
      rw [hlead, next_last, hofNat]
      rfl
    · next h2 =>
      split
      · next h3 =>
        simp only [List.cons_append, List.nil_append, decode_cons]
        rw [hbyte _ (by omega), hbyte _ (by omega), hbyte _ (by omega)]
        -- the bounds of the second byte keep out overlong forms and surrogates
        have hlead : ∃ lower upper, start.next (v / 4096 % 16 + 224) =
            ([], ⟨2, lower, upper, v / 4096⟩) ∧
            lower ≤ v / 64 % 64 + 128 ∧ v / 64 % 64 + 128 ≤ upper := by
          refine ⟨if v / 4096 % 16 + 224 = 0xe0 then 0xa0 else 0x80,
            if v / 4096 % 16 + 224 = 0xed then 0x9f else 0xbf, ?_, ?_, ?_⟩
          · rw [next, if_pos (by rfl), lead, if_neg (by omega), if_neg (by omega),
              if_pos (by omega)]
            congr 2
            omega
          · split <;> omega
          · split <;> omega
        obtain ⟨lower, upper, hlead, hl, hu⟩ := hlead
        rw [hlead, next_middle (by omega) hl hu, next_last, hofNat]
        rfl
      · next h3 =>
        simp only [List.cons_append, List.nil_append, decode_cons]
        rw [hbyte _ (by omega), hbyte _ (by omega), hbyte _ (by omega), hbyte _ (by omega)]
        have hlead : ∃ lower upper, start.next (v / 262144 % 8 + 240) =
            ([], ⟨3, lower, upper, v / 262144⟩) ∧
            lower ≤ v / 4096 % 64 + 128 ∧ v / 4096 % 64 + 128 ≤ upper := by
          refine ⟨if v / 262144 % 8 + 240 = 0xf0 then 0x90 else 0x80,
            if v / 262144 % 8 + 240 = 0xf4 then 0x8f else 0xbf, ?_, ?_, ?_⟩
          · rw [next, if_pos (by rfl), lead, if_neg (by omega), if_neg (by omega),
              if_neg (by omega), if_pos (by omega)]
            congr 2
            omega
          · split <;> omega
          · split <;> omega
        obtain ⟨lower, upper, hlead, hl, hu⟩ := hlead
        rw [hlead, next_middle (by omega) hl hu,
          next_middle (v := v / 64) (by omega) (by omega) (by omega), next_last, hofNat]
        rfl

theorem decode_flatMap (chars : List Char) :
    decode start (chars.flatMap String.utf8EncodeChar) = chars := by
  induction chars with
  | nil => rfl
  | cons c chars ih => rw [List.flatMap_cons, decode_char, ih]

end Utf8Pending

variable {text : String}

/-- Text that does not start with a byte order mark comes back from its bytes. -/
theorem textDecode_textEncode (h : text.toList.head? ≠ some (Char.ofNat 0xfeff)) :
    textDecode (textEncode text) = text := by
  have hnot : ¬ byteOrderMark <+: textEncode text := by
    rintro ⟨rest, hrest⟩
    apply h
    have hbom : byteOrderMark = String.utf8EncodeChar (Char.ofNat 0xfeff) := by decide
    have hdecode := Utf8Pending.decode_flatMap text.toList
    rw [← textEncode, ← hrest, hbom, Utf8Pending.decode_char] at hdecode
    rw [← hdecode, List.head?_cons]
  rw [textDecode, if_neg hnot, textEncode, Utf8Pending.decode_flatMap, String.ofList_toList]

theorem zero_notMem_textEncode (h : Char.ofNat 0 ∉ text.toList) :
    (0 : UInt8) ∉ textEncode text := by
  intro hz
  obtain ⟨c, hc, hz⟩ := List.mem_flatMap.mp hz
  have hne : c.val.toNat ≠ 0 := by
    intro h0
    apply h
    rw [← h0, Utf8Pending.char_ofNat]
    exact hc
  have hbyte : ∀ n : ℕ, 0 < n % 256 → (0 : UInt8) ≠ UInt8.ofNat n := by
    intro n hn heq
    have := congrArg UInt8.toNat heq
    rw [UInt8.toNat_ofNat'] at this
    simp at this
    omega
  unfold String.utf8EncodeChar at hz
  dsimp only at hz
  split at hz
  · rw [List.mem_singleton] at hz
    exact hbyte _ (by omega) hz
  · split at hz
    · simp only [List.mem_cons, List.not_mem_nil, or_false] at hz
      obtain hz | hz := hz
      all_goals exact hbyte _ (by omega) hz
    · split at hz
      · simp only [List.mem_cons, List.not_mem_nil, or_false] at hz
        obtain hz | hz | hz := hz
        all_goals exact hbyte _ (by omega) hz
      · simp only [List.mem_cons, List.not_mem_nil, or_false] at hz
        obtain hz | hz | hz | hz := hz
        all_goals exact hbyte _ (by omega) hz

end ArduConfigurator
