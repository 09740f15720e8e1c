import ArduConfigurator.Mavlink.MessageLayouts
import Mathlib.Data.List.Nodup

/-! # The layouts of the generic messages

The fields of a definition follow one another without a gap, so a generic decoder never reads past
the payload, and gives back the fields the encoder has stored. -/
namespace ArduConfigurator.Mavlink
set_option autoImplicit false

/-! ## Definitions -/

/-- The fields lie one behind the other from `offset` to `length`. -/
def Consecutive : ℕ → List GenericMessageField → ℕ → Prop
  | offset, [], length => offset = length
  | offset, field :: fields, length =>
      field.offset = offset ∧ Consecutive (offset + field.width) fields length

variable {offset : ℕ} {field : GenericMessageField}

theorem parseEntry_offset {entry : List Char} {extension : Bool}
    (h : parseEntry entry extension offset = some field) :
    field.offset = offset := by
  rw [parseEntry] at h
  split at h
  · simp only [Option.bind_eq_bind, Option.bind_eq_some_iff] at h
    obtain ⟨type, -, arrayLength, -, h⟩ := h
    rw [← Option.some.inj h]
  · cases h

variable {length : ℕ} {fields : List GenericMessageField}

theorem parseEntries_consecutive {entries : List (List Char × Bool)}
    (h : parseEntries entries offset = some (fields, length)) :
    Consecutive offset fields length := by
  induction entries generalizing offset fields with
  | nil =>
    cases h
    rfl
  | cons entry entries ih =>
    simp only [parseEntries, Option.bind_eq_bind, Option.bind_eq_some_iff] at h
    obtain ⟨field, hfield, ⟨rest, length'⟩, hrest, h⟩ := h
    cases h
    exact ⟨parseEntry_offset hfield, ih hrest⟩

variable {d : GenericMessageDef} {row : MavlinkGenericRow}

theorem definition_consecutive (h : row.definition = some d) :
    Consecutive 0 d.fields d.length := by
  simp only [MavlinkGenericRow.definition, Option.bind_eq_bind, Option.bind_eq_some_iff] at h
  obtain ⟨⟨fields, length⟩, hparse, h⟩ := h
  cases h
  exact parseEntries_consecutive hparse

theorem Consecutive.bounds (h : Consecutive offset fields length) :
    offset ≤ length ∧
      ∀ field ∈ fields, offset ≤ field.offset ∧ field.offset + field.width ≤ length := by
  induction fields generalizing offset with
  | nil => exact ⟨Nat.le_of_eq h, fun field hfield => by cases hfield⟩
  | cons field fields ih =>
    obtain ⟨hle, hrest⟩ := ih h.2
    have hoff := h.1
    refine ⟨by omega, fun other hother => ?_⟩
    obtain rfl | hother := List.mem_cons.mp hother
    · exact ⟨by omega, by omega⟩
    · obtain ⟨hlo, hhi⟩ := hrest other hother
      exact ⟨by omega, hhi⟩

theorem Consecutive.apart (h : Consecutive offset fields length) {f g : GenericMessageField}
    (hf : f ∈ fields) (hg : g ∈ fields) :
    f = g ∨ f.offset + f.width ≤ g.offset ∨ g.offset + g.width ≤ f.offset := by
  induction fields generalizing offset with
  | nil => cases hf
  | cons field fields ih =>
    obtain ⟨hoff, hrest⟩ := h
    obtain rfl | hf' := List.mem_cons.mp hf
    · obtain rfl | hg' := List.mem_cons.mp hg
      · exact .inl rfl
      · exact .inr (.inl (by have := (hrest.bounds.2 g hg').1; omega))
    · obtain rfl | hg' := List.mem_cons.mp hg
      · exact .inr (.inr (by have := (hrest.bounds.2 f hf').1; omega))
      · exact ih hrest hf' hg'

theorem definition_heading (h : row.definition = some d) :
    d.id = row.id ∧ d.name = row.name := by
  simp only [MavlinkGenericRow.definition, Option.bind_eq_bind, Option.bind_eq_some_iff] at h
  obtain ⟨parsed, -, h⟩ := h
  cases h
  exact ⟨rfl, rfl⟩

variable {D : Dialect} {messageId : ℕ}

theorem Dialect.definitionFor_spec (h : D.definitionFor messageId = some d) :
    d.id = messageId ∧ d.WellFormed ∧ Consecutive 0 d.fields d.length := by
  rw [definitionFor, Option.bind_eq_some_iff] at h
  obtain ⟨row, hrow, hd⟩ := h
  have hid : row.id = messageId := by simpa using List.find?_some hrow
  obtain ⟨d', hd', hwf⟩ := D.parses row (List.mem_of_find?_eq_some hrow)
  cases hd.symm.trans hd'
  exact ⟨(definition_heading hd).1.trans hid, hwf, definition_consecutive hd⟩

theorem Dialect.exists_definitionFor {name : String}
    (h : D.MAVLINK_GENERIC_ID_BY_NAME name = some messageId) :
    ∃ d, D.definitionFor messageId = some d ∧ d.name = name := by
  rw [MAVLINK_GENERIC_ID_BY_NAME, Option.map_eq_some_iff] at h
  obtain ⟨row, hrow, rfl⟩ := h
  have hmem := List.mem_of_find?_eq_some hrow
  have hname : row.name = name := by simpa using List.find?_some hrow
  cases hfind : D.rows.find? fun other => other.id = row.id with
  | none => exact absurd (decide_eq_true rfl) (List.find?_eq_none.mp hfind row hmem)
  | some other =>
    have hother := List.mem_of_find?_eq_some hfind
    have hid : other.id = row.id := by simpa using List.find?_some hfind
    obtain rfl := List.inj_on_of_nodup_map D.ids hother hmem hid
    obtain ⟨d, hd, -⟩ := D.parses other hother
    refine ⟨d, ?_, (definition_heading hd).2.trans hname⟩
    rw [definitionFor, hfind, Option.bind_some, hd]

/-! ## Decoders succeed -/

variable {type : GenericFieldType} {view : Bytes}

theorem readScalar_isOk (h : offset + type.size ≤ view.length) :
    ∃ value, readScalar view type offset = .ok value := by
  rw [readScalar, readLE, if_pos h]
  exact ⟨_, rfl⟩

theorem readScalars_isOk {n : ℕ} (h : offset + type.size * n ≤ view.length) :
    ∃ values, readScalars view type offset n = .ok values := by
  induction n generalizing offset with
  | zero => exact ⟨[], rfl⟩
  | succ n ih =>
    rw [Nat.mul_succ] at h
    obtain ⟨head, hhead⟩ := readScalar_isOk (show offset + type.size ≤ view.length by omega)
    obtain ⟨tail, htail⟩ := ih (show offset + type.size + type.size * n ≤ view.length by omega)
    exact ⟨head :: tail, by rw [readScalars, hhead, ok_bind, htail, ok_bind]⟩

variable {bytes : Bytes}

theorem decodeField_isOk (h : field.offset + field.width ≤ bytes.length) :
    ∃ entry, decodeField bytes field = .ok entry := by
  rw [GenericMessageField.width] at h
  rw [decodeField]
  split
  · exact ⟨_, rfl⟩
  · split
    · next hpos =>
      rw [Nat.max_eq_right (show 1 ≤ field.arrayLength from hpos)] at h
      obtain ⟨values, hvalues⟩ := readScalars_isOk h
      exact ⟨_, by rw [hvalues, ok_bind]⟩
    · next hzero =>
      have h0 : field.arrayLength = 0 := by omega
      rw [h0, Nat.max_eq_left (Nat.zero_le 1), Nat.mul_one] at h
      obtain ⟨value, hvalue⟩ := readScalar_isOk h
      exact ⟨_, by rw [hvalue, ok_bind]⟩

theorem decodeFields_isOk (h : ∀ field ∈ fields, field.offset + field.width ≤ bytes.length) :
    ∃ entries, decodeFields bytes fields = .ok entries := by
  induction fields with
  | nil => exact ⟨[], rfl⟩
  | cons field fields ih =>
    obtain ⟨head, hhead⟩ := decodeField_isOk (h field List.mem_cons_self)
    obtain ⟨tail, htail⟩ := ih fun other hother => h other (List.mem_cons_of_mem field hother)
    exact ⟨head :: tail, by rw [decodeFields, hhead, ok_bind, htail, ok_bind]⟩

theorem decodeGenericPayload_isOk (h : D.definitionFor messageId = some d) (payload : Bytes) :
    ∃ message, decodeGenericPayload D messageId payload = .ok (some message) := by
  obtain ⟨-, -, hfields⟩ := D.definitionFor_spec h
  have hlen : (zeroPad d.length (payload.take d.length)).length = d.length :=
    zeroPad_length (by rw [List.length_take]; omega)
  have hfit : ∀ field ∈ d.fields,
      field.offset + field.width ≤ (zeroPad d.length (payload.take d.length)).length := by
    intro field hfield
    rw [hlen]
    exact (hfields.bounds.2 field hfield).2
  obtain ⟨entries, hentries⟩ := decodeFields_isOk hfit
  refine ⟨⟨d.name, d.id, entries⟩, ?_⟩
  rw [decodeGenericPayload, h]
  dsimp only
  rw [hentries, ok_bind]

/-! ## Values that fit -/

/-- The number is of the kind of the field and in its range; one in 64 bits is also a double. -/
def NumberFits (type : GenericFieldType) : GenericNumber → Prop
  | .double _ => type = .double
  | .float _ => type = .float
  | .integer value =>
      type ≠ .double ∧ type ≠ .float ∧
        (if type.signed then -(256 ^ type.size : ℕ) ≤ 2 * value ∧ 2 * value < (256 ^ type.size : ℕ)
          else 0 ≤ value ∧ value < (256 ^ type.size : ℕ)) ∧
        (type.size = 8 → numberOfInt value = value)

def FieldFits (field : GenericMessageField) : GenericValue → Prop
  | .text value => field.type = .char ∧ 0 < field.arrayLength ∧ FitsField field.arrayLength value
  | .numbers values =>
      field.type ≠ .char ∧ 0 < field.arrayLength ∧ values.length = field.arrayLength ∧
        ∀ value ∈ values, NumberFits field.type value
  | .number value => field.arrayLength = 0 ∧ NumberFits field.type value

def GenericValue.NoByteOrderMark : GenericValue → Prop
  | .text value => Mavlink.NoByteOrderMark value
  | _ => True

theorem integerOf_emod {signed : Bool} {w : ℕ} {value : ℤ}
    (h : if signed then -(256 ^ w : ℕ) ≤ 2 * value ∧ 2 * value < (256 ^ w : ℕ)
      else 0 ≤ value ∧ value < (256 ^ w : ℕ)) :
    integerOf signed w (value % (256 ^ w : ℕ)).toNat = value := by
  have hpos : 0 < 256 ^ w := Nat.pow_pos (by decide)
  generalize hM : 256 ^ w = M at h hpos
  rw [integerOf, hM]
  by_cases hneg : value < 0
  · have hsigned : signed = true := by
      by_contra hs
      rw [if_neg hs] at h
      omega
    rw [if_pos hsigned] at h
    have hmod : value % (M : ℤ) = value + M := by
      rw [← Int.add_emod_right, Int.emod_eq_of_lt (by omega) (by omega)]
    rw [hmod, if_pos ⟨hsigned, by omega⟩]
    omega
  · have hmod : value % (M : ℤ) = value := by
      refine Int.emod_eq_of_lt (by omega) ?_
      split at h
      all_goals omega
    rw [hmod, if_neg ?_]
    · omega
    · rintro ⟨hsigned, hle⟩
      rw [if_pos hsigned] at h
      omega

theorem toNat_emod_lt (value : ℤ) (w : ℕ) : (value % (256 ^ w : ℕ)).toNat < 256 ^ w := by
  have hpos : (0 : ℤ) < (256 ^ w : ℕ) := by exact_mod_cast Nat.pow_pos (by decide)
  have hnonneg := Int.emod_nonneg value (Int.ne_of_gt hpos)
  have hlt := Int.emod_lt_of_pos value hpos
  omega

theorem writeScalar_spec {value : GenericNumber} (h : NumberFits type value) :
    ∃ bytes, writeScalar type value = some bytes ∧ bytes.length = type.size ∧
      ∀ view offset, offset + type.size ≤ view.length → slice view offset type.size = bytes →
        readScalar view type offset = .ok value := by
  cases value with
  | double bits =>
    obtain rfl : type = .double := h
    refine ⟨leBytes 8 bits.toNat, rfl, leBytes_length _ _, fun view offset hfit hslice => ?_⟩
    rw [readScalar, readLE, if_pos hfit, hslice, ofLE_leBytes_of_lt bits.toNat_lt]
    exact congrArg (fun bits => Except.ok (GenericNumber.double bits)) UInt64.ofNat_toNat
  | float bits =>
    obtain rfl : type = .float := h
    refine ⟨leBytes 4 bits.toNat, rfl, leBytes_length _ _, fun view offset hfit hslice => ?_⟩
    rw [readScalar, readLE, if_pos hfit, hslice, ofLE_leBytes_of_lt bits.toNat_lt]
    exact congrArg (fun bits => Except.ok (GenericNumber.float bits)) UInt32.ofNat_toNat
  | integer value =>
    obtain ⟨hdouble, hfloat, hrange, hexact⟩ := h
    have hint := integerOf_emod hrange
    have hlt := toNat_emod_lt value type.size
    refine ⟨leBytes type.size (value % (256 ^ type.size : ℕ)).toNat, ?_, leBytes_length _ _,
      fun view offset hfit hslice => ?_⟩
    · cases type <;> first | rfl | exact absurd rfl hdouble | exact absurd rfl hfloat
    · rw [readScalar, readLE, if_pos hfit, hslice, ofLE_leBytes_of_lt hlt]
      cases type with
      | double => exact absurd rfl hdouble
      | float => exact absurd rfl hfloat
      | uint64_t | int64_t =>
        exact congrArg (fun value => Except.ok (GenericNumber.integer value))
          ((congrArg numberOfInt hint).trans (hexact rfl))
      | _ => exact congrArg (fun value => Except.ok (GenericNumber.integer value)) hint

theorem writeScalars_spec {values : List GenericNumber}
    (h : ∀ value ∈ values, NumberFits type value) :
    ∃ bytes, writeScalars type values = some bytes ∧ bytes.length = type.size * values.length ∧
      ∀ view offset, offset + type.size * values.length ≤ view.length →
        slice view offset (type.size * values.length) = bytes →
        readScalars view type offset values.length = .ok values := by
  induction values with
  | nil => exact ⟨[], rfl, rfl, fun view offset _ _ => rfl⟩
  | cons value values ih =>
    obtain ⟨head, hhead, hheadLength, hread⟩ := writeScalar_spec (h value List.mem_cons_self)
    obtain ⟨tail, htail, htailLength, hreads⟩ :=
      ih fun other hother => h other (List.mem_cons_of_mem value hother)
    have hsize : type.size * (value :: values).length =
        type.size + type.size * values.length := by
      rw [List.length_cons, Nat.mul_succ, Nat.add_comm]
    refine ⟨head ++ tail, ?_, ?_, fun view offset hfit hslice => ?_⟩
    · simp only [writeScalars, hhead, htail, Option.bind_eq_bind, Option.bind_some]
    · rw [List.length_append, hheadLength, htailLength, hsize]
    · rw [hsize] at hfit hslice
      rw [slice_add] at hslice
      obtain ⟨hslice₁, hslice₂⟩ := List.append_inj hslice
        ((slice_length (by omega)).trans hheadLength.symm)
      rw [List.length_cons, readScalars, hread view offset (by omega) hslice₁, ok_bind,
        hreads view _ (by omega) hslice₂, ok_bind]

theorem encodeField_spec {value : GenericValue} (h : FieldFits field value)
    (hbom : value.NoByteOrderMark) :
    ∃ bytes, encodeField field value = some bytes ∧ bytes.length ≤ field.width ∧
      ∀ view, field.offset + field.width ≤ view.length →
        slice view field.offset field.width = zeroPad field.width bytes →
        decodeField view field = .ok (field.name, value) := by
  cases value with
  | text value =>
    obtain ⟨htype, hpos, hzero, hlength⟩ := h
    have hmax : max 1 field.arrayLength = field.arrayLength := Nat.max_eq_right hpos
    have hwidth : field.width = field.arrayLength := by
      rw [GenericMessageField.width, htype, hmax, GenericFieldType.size, Nat.one_mul]
    refine ⟨textEncode value, ?_, by rw [hwidth]; exact hlength, fun view hfit hslice => ?_⟩
    · rw [encodeField, hmax, List.take_of_length_le hlength]
    · rw [hwidth] at hslice
      rw [decodeField, if_pos ⟨htype, hpos⟩, hslice, zeroPad, decodeFixedString_append hzero hbom]
  | numbers values =>
    obtain ⟨htype, hpos, hlength, hvalues⟩ := h
    obtain ⟨bytes, hwrite, hbytes, hread⟩ := writeScalars_spec hvalues
    have hwidth : field.width = field.type.size * values.length := by
      rw [GenericMessageField.width, Nat.max_eq_right hpos, hlength]
    refine ⟨bytes, ?_, by rw [hbytes, hwidth], fun view hfit hslice => ?_⟩
    · rw [encodeField, List.take_of_length_le (Nat.le_of_eq hlength), hwrite]
    · rw [hwidth, ← hbytes, zeroPad_self, hbytes] at hslice
      rw [hwidth] at hfit
      have hvaluesRead := hread view field.offset hfit hslice
      rw [hlength] at hvaluesRead
      rw [decodeField, if_neg fun hc => htype hc.1, if_pos hpos, hvaluesRead, ok_bind]
  | number value =>
    obtain ⟨hzero, hvalue⟩ := h
    obtain ⟨bytes, hwrite, hbytes, hread⟩ := writeScalar_spec hvalue
    have hwidth : field.width = field.type.size := by
      rw [GenericMessageField.width, hzero, Nat.max_eq_left (Nat.zero_le 1), Nat.mul_one]
    refine ⟨bytes, hwrite, by rw [hbytes, hwidth], fun view hfit hslice => ?_⟩
    rw [hwidth, ← hbytes, zeroPad_self, hbytes] at hslice
    rw [hwidth] at hfit
    rw [decodeField, if_neg (by omega), if_neg (by omega), hread view field.offset hfit hslice,
      ok_bind]

/-! ## Round trip -/

def EntryFits (field : GenericMessageField) (entry : String × GenericValue) : Prop :=
  entry.1 = field.name ∧ FieldFits field entry.2

variable {entries values : List (String × GenericValue)}

theorem fieldWrites_spec (hfields : Consecutive offset fields length)
    (hfit : List.Forall₂ EntryFits fields entries)
    (hbom : ∀ entry ∈ entries, entry.2.NoByteOrderMark)
    (hlookup : ∀ entry ∈ entries, values.lookup entry.1 = some entry.2) :
    ∃ ws, fieldWrites values fields = some ws ∧ (∀ w ∈ ws, w.Fits length) ∧
      ∀ P : Bytes, P.length = offset → ∃ R : Bytes,
        ws.foldl (fun buffer w => splice buffer w.off w.bytes)
          (P ++ List.replicate (length - offset) 0) = P ++ R ∧
        R.length = length - offset ∧ decodeFields (P ++ R) fields = .ok entries := by
  induction hfit generalizing offset with
  | nil =>
    refine ⟨[], rfl, ?_, fun P hP => ⟨List.replicate (length - offset) 0, rfl, ?_, rfl⟩⟩
    · intro w hw
      cases hw
    · exact List.length_replicate
  | @cons field entry fields entries hentry hrest ih =>
    obtain ⟨hoff, hrestFields⟩ := hfields
    obtain ⟨bytes, hencode, hlength, hdecode⟩ :=
      encodeField_spec hentry.2 (hbom entry List.mem_cons_self)
    obtain ⟨ws, hws, hfits, hfold⟩ := ih hrestFields
      (fun other hother => hbom other (List.mem_cons_of_mem entry hother))
      (fun other hother => hlookup other (List.mem_cons_of_mem entry hother))
    have hle := hrestFields.bounds.1
    have hvalue := hlookup entry List.mem_cons_self
    rw [hentry.1] at hvalue
    refine ⟨⟨field.offset, bytes⟩ :: ws, ?_, ?_, fun P hP => ?_⟩
    · simp only [fieldWrites, hws, hvalue, hencode, Option.bind_eq_bind, Option.bind_some]
    · intro w hw
      obtain rfl | hw := List.mem_cons.mp hw
      · rw [Write.Fits]
        dsimp only
        omega
      · exact hfits w hw
    · have hpad : (zeroPad field.width bytes).length = field.width := zeroPad_length hlength
      obtain ⟨R, hR, hRlength, hRdecode⟩ := hfold (P ++ zeroPad field.width bytes)
        (by rw [List.length_append, hP, hpad])
      have hstep : splice (P ++ List.replicate (length - offset) 0) field.offset bytes =
          (P ++ zeroPad field.width bytes) ++
            List.replicate (length - (offset + field.width)) 0 := by
        rw [hoff, ← hP, splice_zeros hlength (by omega), Nat.sub_sub, hP]
      refine ⟨zeroPad field.width bytes ++ R, ?_, ?_, ?_⟩
      · rw [List.foldl_cons, hstep, hR, List.append_assoc]
      · rw [List.length_append, hpad, hRlength]
        omega
      · have hslice : slice (P ++ (zeroPad field.width bytes ++ R)) field.offset field.width =
            zeroPad field.width bytes := by
          have hright := slice_append_right P (zeroPad field.width bytes ++ R) 0 field.width
          have hleft := slice_append_left R (Nat.le_of_eq ((Nat.zero_add _).trans hpad.symm))
          rw [Nat.add_zero, hP, ← hoff, hleft] at hright
          rw [hright, slice_zero_of_length hpad]
        have hfield := hdecode (P ++ (zeroPad field.width bytes ++ R))
          (by simp only [List.length_append, hpad, hP]; omega) hslice
        rw [List.append_assoc] at hRdecode
        rw [decodeFields, hfield, ok_bind, hRdecode, ok_bind, ← hentry.1]

theorem lookup_of_nodup (h : (values.map Prod.fst).Nodup) {entry : String × GenericValue}
    (hentry : entry ∈ values) :
    values.lookup entry.1 = some entry.2 := by
  induction values with
  | nil => cases hentry
  | cons head tail ih =>
    rw [List.map_cons, List.nodup_cons] at h
    obtain rfl | hmem := List.mem_cons.mp hentry
    · rw [List.lookup_cons, beq_self_eq_true]
    · have hne : (entry.1 == head.1) = false := by
        rw [beq_eq_false_iff_ne]
        exact fun heq => h.1 (heq ▸ List.mem_map_of_mem hmem)
      rw [List.lookup_cons, hne, ih h.2 hmem]

theorem map_fst_of_entryFits (h : List.Forall₂ EntryFits fields entries) :
    entries.map Prod.fst = fields.map GenericMessageField.name := by
  induction h with
  | nil => rfl
  | cons hentry hrest ih => rw [List.map_cons, List.map_cons, hentry.1, ih]

theorem encodeGenericPayload_spec {message : GenericMavlinkMessage}
    (hid : D.MAVLINK_GENERIC_ID_BY_NAME message.name = some message.messageId)
    (hd : D.definitionFor message.messageId = some d)
    (hfit : List.Forall₂ EntryFits d.fields message.fields)
    (hbom : ∀ entry ∈ message.fields, entry.2.NoByteOrderMark) :
    ∃ payload, encodeGenericPayload D message.name message.fields = .ok payload ∧
      0 < payload.length ∧ payload.length ≤ 255 ∧
      ∀ wire : Bytes, wire.length ≤ payload.length → zeroPad payload.length wire = payload →
        decodeGenericPayload D message.messageId wire = .ok (some message) := by
  obtain ⟨hdid, hwf, hfields⟩ := D.definitionFor_spec hd
  obtain ⟨d', hd', hname⟩ := D.exists_definitionFor hid
  obtain rfl : d = d' := Option.some.inj (hd.symm.trans hd')
  have hnodup : (message.fields.map Prod.fst).Nodup := by
    rw [map_fst_of_entryFits hfit]
    exact hwf.names
  obtain ⟨ws, hws, hfits, hfold⟩ := fieldWrites_spec hfields hfit hbom
    fun entry hentry => lookup_of_nodup hnodup hentry
  obtain ⟨buffer, hbuffer, hlength, hdecode⟩ := hfold [] rfl
  rw [List.nil_append] at hbuffer hdecode
  rw [Nat.sub_zero] at hbuffer hlength
  have hbuild : build d.length ws = .ok buffer := by
    rw [build, if_pos hfits, written]
    exact congrArg Except.ok hbuffer
  have htrim := trimZeros_length_le buffer
  have hpos : 0 < (trimZeros buffer).length := by
    rw [trimZeros, List.length_take, Nat.min_eq_left (keptLength_le _ _)]
    exact keptLength_pos (by rw [hlength]; exact hwf.length_pos)
  have hmax := hwf.length_le
  refine ⟨trimZeros buffer, ?_, hpos, by omega, fun wire hwire hpad => ?_⟩
  · rw [encodeGenericPayload, hid, Option.bind_some, hd]
    dsimp only
    rw [hws]
    dsimp only
    rw [hbuild]
    rfl
  · have hbytes : zeroPad d.length (wire.take d.length) = buffer := by
      rw [List.take_of_length_le (by omega), ← zeroPad_zeroPad wire (n := d.length)
        (m := (trimZeros buffer).length) (by omega), hpad, ← hlength, zeroPad_trimZeros]
    rw [decodeGenericPayload, hd]
    dsimp only
    rw [hbytes, hdecode, ok_bind, hname, hdid]

end ArduConfigurator.Mavlink
