import ArduConfigurator.Dronecan.CodecRoundTrip

/-! # What a decoded value is

A value that a section decodes to belongs to the section just when the counts on the wire are
within the maxima of their arrays. A second reader follows the decoder over the wire and keeps
the counts only. -/
namespace ArduConfigurator.Dronecan
open Reader
set_option autoImplicit false

/-! ## The counts on the wire -/

/-- How many elements the wire has for a dynamic array, and how many it may have. -/
structure ArrayCount where
  count : ℕ
  max : ℕ

def ArrayCount.Fits (c : ArrayCount) : Prop := c.count ≤ c.max

abbrev CountReader := Decoder (List ArrayCount)

def countItems (item : Bool → CountReader) (tao : Bool) : ℕ → Decoder (List (List ArrayCount))
  | 0 => .pure []
  | left + 1 => (item (tao && left = 0)).bind fun c =>
      (countItems item tao left).bind fun cs => .pure (c :: cs)

def countTail (item : CountReader) : ℕ → Decoder (List (List ArrayCount))
  | 0, cursor =>
    if 8 ≤ cursor.remaining then .error .endless
    else .ok ([], ⟨cursor.stream, cursor.stream.length⟩)
  | turns + 1, cursor =>
    if 8 ≤ cursor.remaining then
      item.bind (fun c => (countTail item turns).bind fun cs => .pure (c :: cs)) cursor
    else .ok ([], ⟨cursor.stream, cursor.stream.length⟩)

abbrev NestedCounts := String → Bool → CountReader

def countType (nested : NestedCounts) : DronecanTypeDesc → Bool → CountReader
  | .primitive desc, _ => (take desc.bits).bind fun _ => .pure []
  | .void v, _ => fun cursor => .ok ([], ⟨cursor.stream, cursor.pos + v⟩)
  | .compound r, tao => nested r tao
  | .array a .s max _, tao =>
    (countItems (countType nested a) tao max).bind fun items => .pure items.flatten
  | .array a .d max eMin, tao =>
    if tao && 8 ≤ eMin then fun cursor =>
      (countTail (countType nested a false) cursor.remaining).bind
        (fun items => .pure (⟨items.length, max⟩ :: items.flatten)) cursor
    else
      (take (bitLength max)).bind fun bits =>
        (countItems (countType nested a) tao (ofBits bits)).bind fun items =>
          .pure (⟨ofBits bits, max⟩ :: items.flatten)

def countFields (nested : NestedCounts) (tao : Bool) : List DronecanFieldDesc → CountReader
  | [] => .pure []
  | field :: rest =>
    (countType nested field.t (tao && rest.isEmpty)).bind fun c =>
      (countFields nested tao rest).bind fun cs => .pure (c ++ cs)

def countSection (nested : NestedCounts) (sect : DronecanSectionDesc) (tao : Bool) : CountReader :=
  if sect.union then fun cursor =>
    let tagBits := unionTagBits sect.fields.length
    let tag := ofBits (cursor.ahead.take tagBits)
    if cursor.stream.length < cursor.pos + tagBits then
      .error (.codecError "Not enough bits for the union tag.")
    else
      match sect.fields[tag]? with
      | none => .error (.codecError ("Union tag " ++ toString tag ++ " is out of range."))
      | some field => countType nested field.t tao ⟨cursor.stream, cursor.pos + tagBits⟩
  else countFields nested tao sect.fields

def countNested (resolve : DronecanSectionResolver) : ℕ → NestedCounts
  | 0, _, _ => fun _ => .error .rangeError
  | stack + 1, r, tao => fun cursor =>
    match resolve r with
    | .error e => .error e
    | .ok sect => countSection (countNested resolve stack) sect tao cursor

/-- The counts of the dynamic arrays of a payload, in the order in which they are met. -/
def wireCounts (stack : ℕ) (sect : DronecanSectionDesc) (payload : Bytes)
    (resolve : DronecanSectionResolver) (tao : Bool) : Except CodecFailure (List ArrayCount) :=
  (countSection (countNested resolve stack) sect tao ⟨bitsFromBytes payload, 0⟩).map Prod.fst

/-! ## Schemas as they are declared -/

def DronecanTypeDesc.Declared : DronecanTypeDesc → Prop
  | .primitive desc => desc.WellFormed
  | .void _ => True
  | .compound _ => True
  | .array a _ _ _ => a.isVoid = false ∧ a.Declared

/-- Field names are distinct, the padding is what has none, and no union chooses padding. -/
structure SectionDeclared (sect : DronecanSectionDesc) : Prop where
  names : (sect.fields.filterMap DronecanFieldDesc.n).Nodup
  padding : ∀ field ∈ sect.fields, field.n = none ↔ field.t.isVoid = true
  types : ∀ field ∈ sect.fields, field.t.Declared
  union : sect.union = true → ∀ field ∈ sect.fields, field.n ≠ none

/-! ## Primitives -/

theorem length_flatten_frontChunks (turns : ℕ) (s : Bits) (h : s.length ≤ turns) :
    (frontChunks turns s).flatten.length = s.length := by
  induction turns generalizing s with
  | zero => simp [frontChunks, Nat.le_zero.mp h]
  | succ turns ih =>
    rw [frontChunks]
    by_cases hs : s = []
    · simp [hs]
    · have hpos := List.length_pos_iff.mpr hs
      have hrec := ih (s.drop 8) (by rw [List.length_drop]; omega)
      rw [if_neg hs, List.flatten_cons, List.length_append, hrec, List.length_take,
        List.length_drop]
      omega

variable {bits : Bits}

theorem length_beFromLeBits {stream : Bits} {bitlen : ℕ}
    (h : beFromLeBits stream bitlen = some bits) : bits.length = bitlen := by
  rw [beFromLeBits] at h
  split_ifs at h with hshort
  cases h
  have hflat := length_flatten_frontChunks _ (stream.take bitlen) le_rfl
  have htake : (stream.take bitlen).length = bitlen := List.length_take_of_le (not_lt.mp hshort)
  simp only [List.length_flatten, List.map_reverse, List.sum_reverse] at hflat ⊢
  exact hflat.trans htake

theorem denotes_ofInt {i : ℤ} (h : i.natAbs < 2 ^ 53) : Denotes i (.number (.ofInt i)) := by
  rw [JsNumber.ofInt_eq h]
  show JsNumber.signed (decide (i < 0)) _ = _
  rw [JsNumber.signed]
  have hcast : ((i.natAbs : ℕ) : ℚ) = |(i : ℚ)| := by
    rw [Nat.cast_natAbs, Int.cast_abs]
  by_cases hneg : i < 0
  · have hlt : (i : ℚ) < 0 := by exact_mod_cast hneg
    simp [hneg, hcast, abs_of_neg hlt]
  · have hle : (0 : ℚ) ≤ i := by exact_mod_cast not_lt.mp hneg
    simp [hneg, hcast, abs_of_nonneg hle]

theorem denotes_integerValue (i : ℤ) : Denotes i (integerValue i) := by
  rw [integerValue]
  by_cases h : -(MAX_SAFE_INTEGER : ℤ) ≤ i ∧ i ≤ MAX_SAFE_INTEGER
  · rw [if_pos h]
    refine denotes_ofInt ?_
    rw [MAX_SAFE_INTEGER] at h
    omega
  · rw [if_neg h]
    rfl

variable {desc : PrimitiveDesc}

theorem denotes_unsigned (hp : desc.p = .u) (bits : Bits) (h : ofBits bits < 2 ^ desc.bits) :
    Denotes (ofBits bits) (decodePrimitive desc bits) := by
  have hsmall : desc.bits ≤ 53 → (ofBits bits : ℤ).natAbs < 2 ^ 53 := by
    intro hle
    have : 2 ^ desc.bits ≤ 2 ^ 53 := Nat.pow_le_pow_right (by norm_num) hle
    omega
  simp only [decodePrimitive, hp]
  by_cases hwide : 32 < desc.bits
  · rw [if_pos hwide]
    by_cases hsafe : desc.bits ≤ 53 ∨ ofBits bits ≤ MAX_SAFE_INTEGER
    · rw [if_pos hsafe]
      refine denotes_ofInt ?_
      obtain hle | hle := hsafe
      · exact hsmall hle
      · rw [MAX_SAFE_INTEGER] at hle
        omega
    · rw [if_neg hsafe]
      rfl
  · rw [if_neg hwide]
    exact denotes_ofInt (hsmall (by omega))

theorem holds_float16Value {n : ℕ} (h : n < 2 ^ 16) : binary16.Holds (float16Value n) := by
  obtain ⟨negative, m, hm, rfl⟩ : ∃ (negative : Bool) (m : ℕ), m < 2 ^ 15 ∧
      n = negative.toNat * 2 ^ 15 + m := by
    refine ⟨decide (2 ^ 15 ≤ n), n % 2 ^ 15, Nat.mod_lt _ (Nat.two_pow_pos _), ?_⟩
    by_cases h15 : 2 ^ 15 ≤ n
    · rw [decide_eq_true h15, Bool.toNat_true]
      omega
    · rw [decide_eq_false h15, Bool.toNat_false]
      omega
  rw [float16Value_eq hm]
  exact ⟨_, by rw [signBit_binary16]; omega, rfl⟩

theorem decodePrimitive_typed (hw : desc.WellFormed) (hlength : bits.length = desc.bits) :
    PrimitiveTyped desc (decodePrimitive desc bits) := by
  have hlt : ofBits bits < 2 ^ desc.bits := hlength ▸ ofBits_lt bits
  rw [PrimitiveTyped]
  rw [PrimitiveDesc.WellFormed] at hw
  cases hp : desc.p with
  | b => exact ⟨_, by simp only [decodePrimitive, hp]; rfl⟩
  | u => exact ⟨ofBits bits, denotes_unsigned hp bits hlt, by omega, by exact_mod_cast hlt⟩
  | i =>
    simp only [hp] at hw
    have hpow : 2 ^ desc.bits = 2 * 2 ^ (desc.bits - 1) := by
      rw [← pow_succ', Nat.sub_add_cancel hw]
    have hpowZ : (2 : ℤ) ^ desc.bits = 2 * 2 ^ (desc.bits - 1) := by exact_mod_cast hpow
    have hltZ : (ofBits bits : ℤ) < 2 ^ desc.bits := by exact_mod_cast hlt
    refine ⟨if 2 ^ (desc.bits - 1) ≤ ofBits bits then (ofBits bits : ℤ) - 2 ^ desc.bits
      else ofBits bits, ?_, ?_, ?_⟩
    · simp only [decodePrimitive, hp]
      exact denotes_integerValue _
    · by_cases htop : 2 ^ (desc.bits - 1) ≤ ofBits bits
      · have htopZ : (2 : ℤ) ^ (desc.bits - 1) ≤ ofBits bits := by exact_mod_cast htop
        rw [if_pos htop]
        omega
      · rw [if_neg htop]
        have : (0 : ℤ) ≤ 2 ^ (desc.bits - 1) := by positivity
        omega
    · by_cases htop : 2 ^ (desc.bits - 1) ≤ ofBits bits
      · rw [if_pos htop]
        omega
      · rw [if_neg htop]
        exact_mod_cast not_le.mp htop
  | f =>
    simp only [hp] at hw
    obtain hb | hb | hb := hw
    · rw [hb] at hlt
      refine ⟨float16Value (ofBits bits), ?_, ?_⟩
      · simp only [decodePrimitive, hp, hb, if_true]
      · rw [floatFormat, if_pos hb]
        exact holds_float16Value hlt
    · refine ⟨binary32.value (ofBits bits % 2 ^ 32), ?_, ?_⟩
      · simp only [decodePrimitive, hp]
        rw [if_neg (by omega), if_pos hb]
      · rw [floatFormat, if_neg (by omega), if_pos hb]
        exact ⟨_, Nat.mod_lt _ (Nat.two_pow_pos 32), rfl⟩
    · refine ⟨binary64.value (ofBits bits % 2 ^ 64), ?_, ?_⟩
      · simp only [decodePrimitive, hp]
        rw [if_neg (by omega), if_neg (by omega)]
      · rw [floatFormat, if_neg (by omega), if_neg (by omega)]
        exact ⟨_, Nat.mod_lt _ (Nat.two_pow_pos 64), rfl⟩

/-! ## The decoder and the counts -/

/-- The counts fit just when the value is of the type; padding has neither. -/
def CountsType (typed : String → DronecanValue → Prop) (t : DronecanTypeDesc) (v : DronecanValue)
    (counts : List ArrayCount) : Prop :=
  if t.isVoid then counts = []
  else WellTyped PrimitiveTyped typed t v ↔ ∀ c ∈ counts, c.Fits

def NestedTogether (typed : String → DronecanValue → Prop) (dec : NestedDecoder)
    (cnt : NestedCounts) : Prop :=
  ∀ r tao, Together (fun v counts => typed r v ↔ ∀ c ∈ counts, c.Fits) (dec r tao) (cnt r tao)

def CountsItems (typed : String → DronecanValue → Prop) (t : DronecanTypeDesc)
    (items : List DronecanValue) (counts : List (List ArrayCount)) : Prop :=
  List.Forall₂ (CountsType typed t) items counts

section
variable {typed : String → DronecanValue → Prop} {dec : NestedDecoder} {cnt : NestedCounts}
  {t : DronecanTypeDesc}

theorem items_together {item : Bool → Decoder DronecanValue} {itemCounts : Bool → CountReader}
    (h : ∀ tao, Together (CountsType typed t) (item tao) (itemCounts tao)) (tao : Bool) (n : ℕ) :
    Together (fun items counts => CountsItems typed t items counts ∧ items.length = n)
      (decodeItems item tao n) (countItems itemCounts tao n) := by
  induction n with
  | zero => exact together_pure ⟨.nil, rfl⟩
  | succ n ih =>
    refine (h _).bind fun v c hvc => ih.map ?_
    rintro vs cs ⟨hcounts, hlength⟩
    exact ⟨.cons hvc hcounts, congrArg Nat.succ hlength⟩

theorem tail_together {item : Decoder DronecanValue} {itemCounts : CountReader}
    (h : Together (CountsType typed t) item itemCounts) (turns : ℕ) :
    Together (CountsItems typed t) (decodeTail item turns) (countTail itemCounts turns) := by
  induction turns with
  | zero =>
    intro c
    rw [decodeTail, countTail]
    by_cases h8 : 8 ≤ c.remaining
    · rw [if_pos h8, if_pos h8]
      exact .inl ⟨_, rfl, rfl⟩
    · rw [if_neg h8, if_neg h8]
      exact .inr ⟨_, _, _, rfl, rfl, .nil⟩
  | succ turns ih =>
    intro c
    rw [decodeTail, countTail]
    by_cases h8 : 8 ≤ c.remaining
    · rw [if_pos h8, if_pos h8]
      exact h.bind (fun v c hvc => ih.map fun vs cs hcounts => .cons hvc hcounts) c
    · rw [if_neg h8, if_neg h8]
      exact .inr ⟨_, _, _, rfl, rfl, .nil⟩

variable {counts : List ArrayCount} {v : DronecanValue}

theorem countsType_iff (ht : t.isVoid = false) : CountsType typed t v counts ↔
      (WellTyped PrimitiveTyped typed t v ↔ ∀ c ∈ counts, c.Fits) := by
  rw [CountsType, ht, if_neg Bool.false_ne_true]

theorem wellTyped_items_iff (ht : t.isVoid = false) {items : List DronecanValue}
    {counts : List (List ArrayCount)} (h : CountsItems typed t items counts) :
    (∀ item ∈ items, WellTyped PrimitiveTyped typed t item) ↔ ∀ c ∈ counts.flatten, c.Fits := by
  induction h with
  | nil => simp
  | cons hvc _ ih =>
    rw [countsType_iff ht] at hvc
    rw [List.forall_mem_cons, List.flatten_cons, List.forall_mem_append, hvc, ih]

theorem type_together (hn : NestedTogether typed dec cnt) (t : DronecanTypeDesc)
    (hw : t.Declared) (tao : Bool) :
    Together (CountsType typed t) (decodeType dec t tao) (countType cnt t tao) := by
  induction t generalizing tao with
  | primitive desc =>
    rw [decodeType, countType]
    intro c
    simp only [Reader.bind, take]
    cases hbits : beFromLeBits c.ahead desc.bits with
    | none => exact .inl ⟨_, rfl, rfl⟩
    | some bits =>
      refine .inr ⟨_, _, _, rfl, rfl, ?_⟩
      rw [countsType_iff rfl]
      exact iff_of_true (decodePrimitive_typed hw (length_beFromLeBits hbits)) (by simp)
  | void v => exact fun c => .inr ⟨_, _, _, rfl, rfl, rfl⟩
  | compound r => exact hn r tao
  | array a m max eMin ih =>
    have hitem := ih hw.2
    have hitems := fun tao => items_together (fun tao => hitem tao) tao
    cases m with
    | s =>
      rw [decodeType, countType]
      refine (hitems tao max).map ?_
      rintro items counts ⟨hcounts, hlength⟩
      rw [countsType_iff rfl, WellTyped,
        wellTyped_items_iff hw.1 hcounts]
      exact ⟨fun h => h.2.2, fun h => ⟨hlength.le, fun _ => hlength, h⟩⟩
    | d =>
      rw [decodeType, countType]
      by_cases htail : (tao && decide (8 ≤ eMin)) = true
      · rw [if_pos htail, if_pos htail]
        intro c
        refine (tail_together (hitem false) c.remaining).map ?_ c
        intro items counts hcounts
        rw [countsType_iff rfl, WellTyped,
          wellTyped_items_iff hw.1 hcounts, List.forall_mem_cons, ArrayCount.Fits,
          hcounts.length_eq]
        exact ⟨fun h => ⟨h.1, h.2.2⟩, fun h => ⟨h.1, fun hs => ArrayMode.noConfusion hs, h.2⟩⟩
      · rw [if_neg htail, if_neg htail]
        refine (together_refl (take (bitLength max))).bind ?_
        rintro bits _ rfl
        refine (hitems tao (ofBits bits)).map ?_
        rintro items counts ⟨hcounts, hlength⟩
        rw [countsType_iff rfl, WellTyped,
          wellTyped_items_iff hw.1 hcounts, List.forall_mem_cons, ArrayCount.Fits, hlength]
        exact ⟨fun h => ⟨h.1, h.2.2⟩, fun h => ⟨h.1, fun hs => ArrayMode.noConfusion hs, h.2⟩⟩

/-- What reading fields onto an object leaves, and when the values read are of their types. -/
structure FieldsCounted (typed : String → DronecanValue → Prop) (fields : List DronecanFieldDesc)
    (out final : DronecanRecord) (counts : List ArrayCount) : Prop where
  keys : final.keys = out.keys ++ fields.filterMap DronecanFieldDesc.n
  kept : ∀ n ∈ out.keys, final.get n = out.get n
  fits : (∀ field ∈ fields, ∀ n, field.n = some n → ∀ v, final.get n = some v →
    WellTyped PrimitiveTyped typed field.t v) ↔ ∀ c ∈ counts, c.Fits

variable {fields : List DronecanFieldDesc} {field : DronecanFieldDesc} {out final : DronecanRecord}

theorem fieldsCounted_padding (hname : field.n = none)
    (h : FieldsCounted typed fields out final counts) :
    FieldsCounted typed (field :: fields) out final counts := by
  refine ⟨?_, h.kept, ?_⟩
  · rw [h.keys, List.filterMap_cons, hname]
  · rw [← h.fits, List.forall_mem_cons]
    constructor
    · exact fun hall => hall.2
    · refine fun hall => ⟨?_, hall⟩
      intro n hn
      rw [hname] at hn
      cases hn

theorem fieldsCounted_cons {n : String} (hname : field.n = some n) {c : List ArrayCount}
    (hnew : n ∉ out.keys) (ht : field.t.isVoid = false) (hv : CountsType typed field.t v c)
    (h : FieldsCounted typed fields (out.set n v) final counts) :
    FieldsCounted typed (field :: fields) out final (c ++ counts) := by
  have hget : final.get n = some v := by
    rw [h.kept n (Entries.mem_keys_set.mpr (.inl rfl)), Entries.get_set_self]
  refine ⟨?_, ?_, ?_⟩
  · rw [h.keys, Entries.keys_set_of_notMem hnew, List.filterMap_cons, hname, List.append_assoc]
    rfl
  · intro m hm
    have hne : m ≠ n := fun he => hnew (he ▸ hm)
    rw [h.kept m (Entries.mem_keys_set.mpr (.inr hm)), Entries.get_set_ne hne]
  · rw [List.forall_mem_cons, List.forall_mem_append, h.fits]
    refine and_congr_left' ?_
    rw [← (countsType_iff ht).mp hv]
    constructor
    · exact fun hall => hall n hname v hget
    · intro htyped m hm w hw
      obtain rfl := Option.some.inj (hname.symm.trans hm)
      obtain rfl := Option.some.inj (hget.symm.trans hw)
      exact htyped

theorem fields_together (hn : NestedTogether typed dec cnt) (tao : Bool)
    (htypes : ∀ field ∈ fields, field.t.Declared)
    (hpadding : ∀ field ∈ fields, field.n = none ↔ field.t.isVoid = true) (out : DronecanRecord)
    (hnodup : (out.keys ++ fields.filterMap DronecanFieldDesc.n).Nodup) :
    Together (FieldsCounted typed fields out) (decodeFields dec tao fields out)
      (countFields cnt tao fields) := by
  induction fields generalizing out with
  | nil => exact together_pure ⟨(List.append_nil _).symm, fun _ _ => rfl, by simp⟩
  | cons field fields ih =>
    rw [List.forall_mem_cons] at htypes hpadding
    rw [decodeFields, countFields]
    refine (type_together hn field.t htypes.1 _).bind ?_
    intro v c hvc
    cases hname : field.n with
    | none =>
      rw [List.filterMap_cons, hname] at hnodup
      rw [CountsType, if_pos (hpadding.1.mp hname)] at hvc
      intro cursor
      obtain ⟨e, hd, hc⟩ | ⟨final, counts, next, hd, hc, hcounted⟩ :=
        ih htypes.2 hpadding.2 out hnodup cursor
      · exact .inl ⟨e, hd, by simp only [Reader.bind, hc]⟩
      · refine .inr ⟨final, counts, next, hd, ?_, fieldsCounted_padding hname hcounted⟩
        simp only [Reader.bind, hc, hvc, List.nil_append]
        rfl
    | some n =>
      rw [List.filterMap_cons, hname] at hnodup
      have hnew : n ∉ out.keys := by
        intro hmem
        exact (List.nodup_append.mp hnodup).2.2 n hmem n (List.mem_cons_self ..) rfl
      have ht : field.t.isVoid = false := by
        rw [← Bool.not_eq_true, ← hpadding.1, hname]
        exact Option.some_ne_none n
      have hnodup' : ((out.set n v).keys ++ fields.filterMap DronecanFieldDesc.n).Nodup := by
        rw [Entries.keys_set_of_notMem hnew, List.append_assoc]
        exact hnodup
      intro cursor
      obtain ⟨e, hd, hc⟩ | ⟨final, counts, next, hd, hc, hcounted⟩ :=
        ih htypes.2 hpadding.2 (out.set n v) hnodup' cursor
      · exact .inl ⟨e, hd, by simp only [Reader.bind, hc]⟩
      · refine .inr ⟨final, c ++ counts, next, hd, ?_,
          fieldsCounted_cons hname hnew ht hvc hcounted⟩
        simp only [Reader.bind, hc]
        rfl

variable {sect : DronecanSectionDesc}

theorem structure_together (hn : NestedTogether typed dec cnt) (hs : SectionDeclared sect)
    (hunion : sect.union = false) (tao : Bool) :
    Together (fun record counts =>
        RecordTyped PrimitiveTyped typed sect record ↔ ∀ c ∈ counts, c.Fits)
      (decodeSection dec sect tao) (countSection cnt sect tao) := by
  rw [decodeSection, countSection, hunion, if_neg Bool.false_ne_true, if_neg Bool.false_ne_true]
  intro cursor
  obtain herr | ⟨record, counts, next, hd, hc, hcounted⟩ :=
    fields_together hn tao hs.types hs.padding [] hs.names cursor
  · exact .inl herr
  · refine .inr ⟨record, counts, next, hd, hc, ?_⟩
    show RecordTyped PrimitiveTyped typed sect record ↔ _
    rw [RecordTyped, hunion, if_neg Bool.false_ne_true, hcounted.fits]
    exact and_iff_right (List.Perm.of_eq hcounted.keys)

theorem union_together (hn : NestedTogether typed dec cnt) (hs : SectionDeclared sect)
    (hunion : sect.union = true) (tao : Bool) :
    Together (fun record counts =>
        RecordTyped PrimitiveTyped typed sect record ↔ ∀ c ∈ counts, c.Fits)
      (decodeSection dec sect tao) (countSection cnt sect tao) := by
  rw [decodeSection, countSection, hunion, if_pos rfl, if_pos rfl]
  intro cursor
  by_cases hshort : cursor.stream.length < cursor.pos + unionTagBits sect.fields.length
  · simp only [if_pos hshort]
    exact .inl ⟨_, rfl, rfl⟩
  simp only [if_neg hshort]
  cases hfield : sect.fields[ofBits (cursor.ahead.take (unionTagBits sect.fields.length))]? with
  | none => exact .inl ⟨_, rfl, rfl⟩
  | some field =>
    have hmem : field ∈ sect.fields := List.mem_of_getElem? hfield
    obtain ⟨n, hname⟩ := Option.ne_none_iff_exists'.mp (hs.union hunion field hmem)
    have ht : field.t.isVoid = false := by
      rw [← Bool.not_eq_true, ← hs.padding field hmem, hname]
      exact Option.some_ne_none n
    obtain ⟨e, hd, hc⟩ | ⟨v, counts, next, hd, hc, hvc⟩ :=
      type_together hn field.t (hs.types field hmem) tao
        ⟨cursor.stream, cursor.pos + unionTagBits sect.fields.length⟩
    · exact .inl ⟨e, by simp only [Reader.bind, hd], hc⟩
    · refine .inr ⟨[(n, v)], counts, next, by simp only [Reader.bind, hd, hname]; rfl, hc, ?_⟩
      rw [countsType_iff ht] at hvc
      rw [RecordTyped, hunion, if_pos rfl, ← hvc]
      constructor
      · exact fun h => h.2 field hmem n hname v (by simp [Entries.get])
      · refine fun h => ⟨⟨field, hmem, n, v, hname, rfl⟩, ?_⟩
        intro other hother m hm w hw
        rw [Entries.get_cons] at hw
        split_ifs at hw with he
        · cases hw
          have hsame : other = field :=
            eq_of_nodup_filterMap hs.names hother hmem (he ▸ hm) hname
          rw [hsame]
          exact h
        · cases hw

end

/-! ## Whole sections -/

theorem section_together {typed : String → DronecanValue → Prop} {dec : NestedDecoder}
    {cnt : NestedCounts} (hn : NestedTogether typed dec cnt) {sect : DronecanSectionDesc}
    (hs : SectionDeclared sect) (tao : Bool) :
    Together (fun record counts =>
        RecordTyped PrimitiveTyped typed sect record ↔ ∀ c ∈ counts, c.Fits)
      (decodeSection dec sect tao) (countSection cnt sect tao) := by
  cases hunion : sect.union with
  | false => exact structure_together hn hs hunion tao
  | true => exact union_together hn hs hunion tao

theorem nested_together {resolve : DronecanSectionResolver}
    (hresolve : ∀ r sect, resolve r = .ok sect → SectionDeclared sect) (stack : ℕ) :
    NestedTogether (NestedTyped PrimitiveTyped resolve stack) (decodeNested resolve stack)
      (countNested resolve stack) := by
  induction stack with
  | zero => exact fun r tao => together_error CodecFailure.rangeError
  | succ stack ih =>
    intro r tao cursor
    simp only [decodeNested, countNested]
    cases hr : resolve r with
    | error e => exact .inl ⟨e, rfl, rfl⟩
    | ok sect =>
      obtain ⟨e, hd, hc⟩ | ⟨record, counts, next, hd, hc, htyped⟩ :=
        section_together ih (hresolve r sect hr) tao cursor
      · exact .inl ⟨e, by simp only [Reader.bind, hd], hc⟩
      · refine .inr ⟨.record record, counts, next, by simp only [Reader.bind, hd]; rfl, hc, ?_⟩
        rw [← htyped, NestedTyped]
        constructor
        · rintro ⟨sect', record', hr', hrecord, h⟩
          obtain rfl := Except.ok.inj (hr.symm.trans hr')
          obtain rfl := DronecanValue.record.inj hrecord
          exact h
        · exact fun h => ⟨sect, record, hr, rfl, h⟩

/-- Whatever a payload decodes to belongs to the section just when the counts on the wire are
within their maxima. -/
theorem decode_wellTyped_iff (resolve : DronecanSectionResolver)
    (hresolve : ∀ r sect, resolve r = .ok sect → SectionDeclared sect) (stack : ℕ)
    (sect : DronecanSectionDesc) (hs : SectionDeclared sect) (payload : Bytes) (tao : Bool) :
    (∀ record, decodeDronecanSection stack sect payload resolve tao = .ok record →
      RecordTyped PrimitiveTyped (NestedTyped PrimitiveTyped resolve stack) sect record) ↔
    ∀ counts, wireCounts stack sect payload resolve tao = .ok counts → ∀ c ∈ counts, c.Fits := by
  rw [decodeDronecanSection, wireCounts]
  obtain ⟨e, hd, hc⟩ | ⟨record, counts, next, hd, hc, htyped⟩ :=
    section_together (nested_together hresolve stack) hs tao ⟨bitsFromBytes payload, 0⟩
  · rw [hd, hc]
    constructor
    · intro _ counts hcounts
      cases hcounts
    · intro _ record hrecord
      cases hrecord
  · rw [hd, hc]
    constructor
    · intro h counts' hcounts
      cases hcounts
      exact htyped.mp (h record rfl)
    · intro h record' hrecord
      cases hrecord
      exact htyped.mpr (h counts rfl)

theorem itemTypes_declared (r : String) (sect : DronecanSectionDesc)
    (h : itemTypes r = .ok sect) : SectionDeclared sect := by
  rw [itemTypes] at h
  split_ifs at h
  cases h
  refine ⟨by decide, by simp [DronecanTypeDesc.isVoid], ?_, by simp⟩
  simp [DronecanTypeDesc.Declared, PrimitiveDesc.WellFormed, DronecanTypeDesc.isVoid]

theorem itemList_declared : SectionDeclared itemList := by
  refine ⟨by decide, by simp [itemList, DronecanTypeDesc.isVoid], ?_, by simp [itemList]⟩
  simp [itemList, DronecanTypeDesc.Declared, PrimitiveDesc.WellFormed, DronecanTypeDesc.isVoid]

theorem decode_wellTyped_items :
    (∀ record, decodeDronecanSection 1 itemList [1, 2, 3] itemTypes true = .ok record →
      RecordTyped PrimitiveTyped (NestedTyped PrimitiveTyped itemTypes 1) itemList record) ↔
    ∀ counts, wireCounts 1 itemList [1, 2, 3] itemTypes true = .ok counts →
      ∀ c ∈ counts, c.Fits :=
  decode_wellTyped_iff itemTypes itemTypes_declared 1 itemList itemList_declared [1, 2, 3] true

/-! ## Too many elements -/

def getEscId : DronecanSectionDesc :=
  ⟨false, [⟨some "payload", .array (.primitive ⟨.u, 8, some .s⟩) .d 3 8⟩]⟩

def setAngle : DronecanSectionDesc :=
  ⟨false, [⟨some "option", .primitive ⟨.u, 8, some .s⟩⟩,
    ⟨some "angle", .array (.primitive ⟨.u, 16, some .s⟩) .d 2 16⟩]⟩

def noTypes : DronecanSectionResolver := fun r => .error (.codecError ("Unknown type " ++ r))

/-- Four bytes are decoded as an array of at most three, and a count of three as one of at most
two. -/
theorem too_many_elements :
    ¬ (∀ record, decodeDronecanSection 0 getEscId [1, 2, 3, 4] noTypes true = .ok record →
      RecordTyped PrimitiveTyped (NestedTyped PrimitiveTyped noTypes 0) getEscId record) ∧
    ¬ (∀ record, decodeDronecanSection 0 setAngle [0, 0xC0, 0, 0, 0, 0, 0, 0] noTypes false =
        .ok record →
      RecordTyped PrimitiveTyped (NestedTyped PrimitiveTyped noTypes 0) setAngle record) := by
  constructor
  · intro h
    have htyped := (h _ rfl).2 _ (List.mem_cons_self ..) "payload" rfl _ rfl
    have hle := htyped.1
    revert hle
    decide +kernel
  · intro h
    have htyped := (h _ rfl).2 _ (List.mem_cons_of_mem _ (List.mem_cons_self ..)) "angle" rfl _ rfl
    have hle := htyped.1
    revert hle
    decide +kernel

end ArduConfigurator.Dronecan
