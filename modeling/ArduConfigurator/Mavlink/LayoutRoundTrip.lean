import ArduConfigurator.Mavlink.GenericLayout

/-! # Any layout row

The bodies of `encodeGenericPayload` and `decodeGenericPayload` behind the lookup of the definition,
for a row of any fields: no bound on their number or on the length of the payload, and no table
around the row. -/
namespace ArduConfigurator.Mavlink
set_option autoImplicit false

namespace GenericMessageDef

variable (d : GenericMessageDef)

def encode (fields : List (String × GenericValue)) : Except Thrown Bytes :=
  match fieldWrites fields d.fields with
  | none => .error unmodelledNumber
  | some writes => (build d.length writes).map trimZeros

def decode (payload : Bytes) : Except Thrown (List (String × GenericValue)) :=
  decodeFields (zeroPad d.length (payload.take d.length)) d.fields

end GenericMessageDef

variable {D : Dialect} {messageId : ℕ} {d : GenericMessageDef}

theorem encodeGenericPayload_of_definition {name : String}
    (hid : D.MAVLINK_GENERIC_ID_BY_NAME name = some messageId)
    (hd : D.definitionFor messageId = some d) (fields : List (String × GenericValue)) :
    encodeGenericPayload D name fields = d.encode fields := by
  rw [encodeGenericPayload, hid, Option.bind_some, hd]
  rfl

theorem decodeGenericPayload_of_definition (hd : D.definitionFor messageId = some d)
    (payload : Bytes) :
    decodeGenericPayload D messageId payload =
      (d.decode payload).map fun fields => some ⟨d.name, d.id, fields⟩ := by
  rw [decodeGenericPayload, hd]
  rfl

/-! ## Zeros at the end -/

theorem zeroPad_take_append_zeros (length zeros : ℕ) (bytes : Bytes) :
    zeroPad length ((bytes ++ List.replicate zeros 0).take length) =
      zeroPad length (bytes.take length) := by
  rcases Nat.le_total length bytes.length with hlong | hshort
  · rw [List.take_append_of_le_length hlong]
  · rw [List.take_append, List.take_of_length_le hshort, List.take_replicate, zeroPad, zeroPad,
      List.append_assoc, List.replicate_append_replicate, List.length_append,
      List.length_replicate]
    congr 2
    omega

theorem GenericMessageDef.decode_append_zeros (d : GenericMessageDef) (payload : Bytes)
    (zeros : ℕ) : d.decode (payload ++ List.replicate zeros 0) = d.decode payload := by
  rw [decode, decode, zeroPad_take_append_zeros]

/-! ## The round trip -/

/-- The entries give each field of a definition, in its order, the value that it is looked up as,
and the value fits the field. -/
structure GenericMessageDef.Assigns (d : GenericMessageDef) (values : List (String × GenericValue))
    (entries : List (String × GenericValue)) : Prop where
  fits : List.Forall₂ EntryFits d.fields entries
  found : ∀ entry ∈ entries, values.lookup entry.1 = some entry.2

/-- The fields of a row come back from the payload they are encoded as, unless a text begins with a
byte order mark. Whether the zeros at the end of a payload are left off makes no difference to what
it is decoded as. With any table that the row stands in, this is what the two functions do. -/
theorem layout_roundTrip (row : MavlinkGenericRow) (d : GenericMessageDef)
    (hd : row.definition = some d) :
    (∀ values entries, d.Assigns values entries →
      (∀ entry ∈ entries, entry.2.NoByteOrderMark) →
      ∃ payload, d.encode values = .ok payload ∧ d.decode payload = .ok entries) ∧
    (∀ payload zeros, d.decode (payload ++ List.replicate zeros 0) = d.decode payload) ∧
    ∀ (D : Dialect) (name : String) (messageId : ℕ),
      D.MAVLINK_GENERIC_ID_BY_NAME name = some messageId → D.definitionFor messageId = some d →
        (∀ values, encodeGenericPayload D name values = d.encode values) ∧
        ∀ payload, decodeGenericPayload D messageId payload =
          (d.decode payload).map fun fields => some ⟨d.name, d.id, fields⟩ := by
  refine ⟨fun values entries hassigns hbom => ?_, d.decode_append_zeros,
    fun D name messageId hid hdef => ⟨encodeGenericPayload_of_definition hid hdef,
      decodeGenericPayload_of_definition hdef⟩⟩
  obtain ⟨ws, hws, hfits, hfold⟩ :=
    fieldWrites_spec (definition_consecutive hd) hassigns.fits hbom hassigns.found
  obtain ⟨buffer, hbuffer, hlength, hdecode⟩ := hfold [] rfl
  rw [List.nil_append] at hbuffer hdecode
  rw [Nat.sub_zero] at hbuffer hlength
  have hbuild : build d.length ws = .ok buffer := by
    rw [build, if_pos hfits, written]
    exact congrArg Except.ok hbuffer
  have htrim := trimZeros_length_le buffer
  refine ⟨trimZeros buffer, ?_, ?_⟩
  · rw [GenericMessageDef.encode, hws]
    dsimp only
    rw [hbuild]
    rfl
  · rw [GenericMessageDef.decode, List.take_of_length_le (by omega), ← hlength, zeroPad_trimZeros,
      hdecode]

def sampleRow : MavlinkGenericRow := ⟨9000, "SAMPLE", 1, "stamp:q,gain:f2,label:c4|flags:B"⟩

def sampleDefinition : GenericMessageDef where
  id := 9000
  name := "SAMPLE"
  crcExtra := 1
  fields := [⟨"stamp", .int64_t, 0, false, 0⟩, ⟨"gain", .float, 2, false, 8⟩,
    ⟨"label", .char, 4, false, 16⟩, ⟨"flags", .uint8_t, 0, true, 20⟩]
  length := 21

theorem sampleRow_definition : sampleRow.definition = some sampleDefinition := by decide

def sampleValues : List (String × GenericValue) :=
  [("stamp", .number (.integer (-5))),
    ("gain", .numbers [.float 0x3F800000, .float 0x80000000]), ("label", .text "ab"),
    ("flags", .number (.integer 0))]

theorem sampleRow_roundTrip :
    ∃ payload, sampleDefinition.encode sampleValues = .ok payload ∧
      sampleDefinition.decode payload = .ok sampleValues := by
  have hfits : List.Forall₂ EntryFits sampleDefinition.fields sampleValues := by
    refine .cons ⟨rfl, rfl, ?_⟩ (.cons ⟨rfl, by decide, by decide, rfl, ?_⟩
      (.cons ⟨rfl, rfl, by decide, ?_⟩ (.cons ⟨rfl, rfl, ?_⟩ .nil)))
    · exact ⟨by decide, by decide, by decide, by decide⟩
    · simp [NumberFits]
    · exact ⟨by decide, by decide⟩
    · exact ⟨by decide, by decide, by decide, by decide⟩
  exact (layout_roundTrip sampleRow sampleDefinition sampleRow_definition).1 sampleValues
    sampleValues ⟨hfits, by decide⟩ (by simp [sampleValues, GenericValue.NoByteOrderMark,
      Mavlink.NoByteOrderMark])

/-- A text that begins with a byte order mark comes back without it. -/
theorem byte_order_mark_lost :
    ¬ ∀ (row : MavlinkGenericRow) (d : GenericMessageDef)
        (values entries : List (String × GenericValue)), row.definition = some d →
      d.Assigns values entries →
        ∃ payload, d.encode values = .ok payload ∧ d.decode payload = .ok entries := by
  intro h
  let d : GenericMessageDef := ⟨7, "AUTH_KEY", 119, [⟨"key", .char, 8, false, 0⟩], 8⟩
  let values : List (String × GenericValue) := [("key", .text "\ufeffkey")]
  have hfits : List.Forall₂ EntryFits d.fields values :=
    .cons ⟨rfl, rfl, by decide, by decide, by decide⟩ .nil
  obtain ⟨payload, hencode, hdecode⟩ := h ⟨7, "AUTH_KEY", 119, "key:c8"⟩ d values values
    (by decide) ⟨hfits, by decide⟩
  have hpayload : d.encode values = .ok [0xEF, 0xBB, 0xBF, 0x6B, 0x65, 0x79] := by decide
  have hread : d.decode [0xEF, 0xBB, 0xBF, 0x6B, 0x65, 0x79] = .ok [("key", .text "key")] := by
    decide
  rw [hpayload] at hencode
  cases hencode
  rw [hread] at hdecode
  exact absurd (Except.ok.inj hdecode) (by decide)

end ArduConfigurator.Mavlink
