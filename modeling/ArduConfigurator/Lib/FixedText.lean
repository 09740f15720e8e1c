import ArduConfigurator.Lib.Padding
import ArduConfigurator.Lib.Strings
import Mathlib.Data.List.DropRight

/-! # Texts in fields of a fixed width

A field holds one byte for each character and is filled up with zeros. A reader takes trailing zeros
and spaces for padding. -/
namespace ArduConfigurator
set_option autoImplicit false

/-- `String.fromCharCode` of each byte. -/
def charText (bytes : Bytes) : Text := bytes.map fun b => UInt16.ofNat b.toNat

def charBytes (text : Text) : Bytes := text.map fun c => UInt8.ofNat c.toNat

def isPadByte (b : UInt8) : Bool := b = 0 || b = 0x20

def fieldText (field : Bytes) : Text := charText (field.rdropWhile isPadByte)

/-- A field of `width` bytes with at most `room` characters of a text. -/
def textField (width room : ℕ) (text : Text) : Bytes := zeroPad width (charBytes (text.take room))

@[simp] theorem charText_length (bytes : Bytes) : (charText bytes).length = bytes.length :=
  List.length_map _

@[simp] theorem charBytes_length (text : Text) : (charBytes text).length = text.length :=
  List.length_map _

theorem toNat_ofNat_byte (b : UInt8) : (UInt16.ofNat b.toNat).toNat = b.toNat := by
  have hb : b.toNat < 256 := b.toNat_lt
  rw [UInt16.toNat_ofNat', Nat.mod_eq_of_lt (by omega)]

@[simp] theorem charBytes_charText (bytes : Bytes) : charBytes (charText bytes) = bytes := by
  rw [charBytes, charText, List.map_map]
  refine (List.map_congr_left fun b _ => ?_).trans (List.map_id _)
  rw [Function.comp_apply, toNat_ofNat_byte, UInt8.ofNat_toNat]
  rfl

theorem charText_take (bytes : Bytes) (n : ℕ) : (charText bytes).take n = charText (bytes.take n) :=
  List.map_take.symm

theorem mem_charText {bytes : Bytes} {c : UInt16} (h : c ∈ charText bytes) : c.toNat < 256 := by
  obtain ⟨b, -, rfl⟩ := List.mem_map.mp h
  rw [toNat_ofNat_byte]
  exact b.toNat_lt

variable {text : Text}

theorem charText_charBytes (h : ∀ c ∈ text, c.toNat < 256) :
    charText (charBytes text) = text := by
  rw [charText, charBytes, List.map_map]
  refine (List.map_congr_left fun c hc => ?_).trans (List.map_id _)
  rw [Function.comp_apply, UInt8.toNat_ofNat', Nat.mod_eq_of_lt (h c hc), UInt16.ofNat_toNat]
  rfl

variable {room width : ℕ}

theorem textField_length (h : room ≤ width) :
    (textField width room text).length = width := by
  refine zeroPad_length ?_
  rw [charBytes_length, List.length_take]
  omega

/-- A text that a field with `room` for it carries: its characters are bytes, and it does not end in
what is taken for padding. -/
structure FitsField (room : ℕ) (text : Text) : Prop where
  length : text.length ≤ room
  chars : ∀ c ∈ text, c.toNat < 256
  last : ∀ c ∈ text.getLast?, c ≠ 0 ∧ c ≠ 0x20

theorem rdropWhile_append_zeros (bytes : Bytes) (n : ℕ) :
    (bytes ++ List.replicate n 0).rdropWhile isPadByte = bytes.rdropWhile isPadByte := by
  induction n with
  | zero => rw [List.replicate_zero, List.append_nil]
  | succ n ih =>
    rw [List.replicate_succ', ← List.append_assoc, List.rdropWhile_concat_pos _ _ _ rfl, ih]

theorem fieldText_textField (h : FitsField room text) :
    fieldText (textField width room text) = text := by
  rw [fieldText, textField, List.take_of_length_le h.length, zeroPad, rdropWhile_append_zeros]
  have hlast : (charBytes text).rdropWhile isPadByte = charBytes text := by
    rw [List.rdropWhile_eq_self_iff]
    intro hne hpad
    have hne' : text ≠ [] := fun hnil => hne (by rw [hnil]; rfl)
    have hmem := List.getLast_mem hne'
    obtain ⟨hzero, hspace⟩ := h.last (text.getLast hne') (List.getLast?_eq_some_getLast hne')
    have hget : (charBytes text).getLast hne = UInt8.ofNat (text.getLast hne').toNat :=
      List.getLast_map _
    have hnat : (UInt8.ofNat (text.getLast hne').toNat).toNat = (text.getLast hne').toNat := by
      rw [UInt8.toNat_ofNat', Nat.mod_eq_of_lt (h.chars _ hmem)]
    rw [hget, isPadByte, Bool.or_eq_true, decide_eq_true_eq, decide_eq_true_eq] at hpad
    obtain hpad | hpad := hpad
    · rw [hpad] at hnat
      exact hzero (UInt16.toNat_inj.mp hnat.symm)
    · rw [hpad] at hnat
      exact hspace (UInt16.toNat_inj.mp hnat.symm)
  rw [hlast, charText_charBytes h.chars]

theorem fitsField_fieldText {field : Bytes} (h : field.length ≤ room) :
    FitsField room (fieldText field) := by
  refine ⟨?_, fun c hc => mem_charText hc, ?_⟩
  · rw [fieldText, charText_length]
    exact (List.rdropWhile_prefix _ _).length_le.trans h
  · intro c hc
    rw [fieldText, charText, List.getLast?_map, Option.mem_def, Option.map_eq_some_iff] at hc
    obtain ⟨b, hb, rfl⟩ := hc
    obtain ⟨hne, rfl⟩ := List.mem_getLast?_eq_getLast hb
    have hpad := List.rdropWhile_last_not _ _ hne
    rw [isPadByte, Bool.or_eq_true, not_or, decide_eq_true_eq, decide_eq_true_eq] at hpad
    generalize (field.rdropWhile isPadByte).getLast hne = b at hpad ⊢
    rw [← UInt16.toNat_inj.ne, ← UInt16.toNat_inj.ne, toNat_ofNat_byte]
    exact ⟨fun hzero => hpad.1 (UInt8.toNat_inj.mp hzero),
      fun hspace => hpad.2 (UInt8.toNat_inj.mp hspace)⟩

theorem textField_fieldText (width room : ℕ) (field : Bytes) :
    textField width room (fieldText field) =
      zeroPad width ((field.rdropWhile isPadByte).take room) := by
  rw [textField, fieldText, charText_take, charBytes_charText]

end ArduConfigurator
