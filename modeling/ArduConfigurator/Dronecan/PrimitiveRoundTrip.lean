import ArduConfigurator.Dronecan.Codec

/-! # Schemas, their values, and primitives that come back from their bits

What a type description has to be for its bits to mean anything, which values belong to it, and in
what form a value comes back: an integer as a number when it is a safe one and as a bigint when it
is not, an object with its keys in field order. Nested types are followed as deep as they nest.
Primitives come back: integers of every width in either form, booleans, and the numbers a float of
the width holds, but for the infinities that a saturated float's cast makes finite. -/
namespace ArduConfigurator.Dronecan
open scoped NNRat
set_option autoImplicit false

/-! ## Schemas -/

def DronecanTypeDesc.isVoid : DronecanTypeDesc → Bool
  | .void _ => true
  | _ => false

/-- The fewest bits a value of a type takes: a dynamic array may be empty and drop its length. -/
def leastBits (nested : String → ℕ) : DronecanTypeDesc → ℕ
  | .primitive desc => desc.bits
  | .void v => v
  | .compound r => nested r
  | .array a .s max _ => max * leastBits nested a
  | .array _ .d _ _ => 0

def leastOf : List ℕ → ℕ
  | [] => 0
  | [n] => n
  | n :: rest => min n (leastOf rest)

def sectionLeastBits (nested : String → ℕ) (sect : DronecanSectionDesc) : ℕ :=
  let lengths := sect.fields.map fun field => leastBits nested field.t
  if sect.union then unionTagBits sect.fields.length + leastOf lengths else lengths.sum

def nestedLeastBits (resolve : DronecanSectionResolver) : ℕ → String → ℕ
  | 0, _ => 0
  | depth + 1, r =>
    match resolve r with
    | .error _ => 0
    | .ok sect => sectionLeastBits (nestedLeastBits resolve depth) sect

def PrimitiveDesc.WellFormed (desc : PrimitiveDesc) : Prop :=
  match desc.p with
  | .b => desc.bits = 1
  | .f => desc.bits = 16 ∨ desc.bits = 32 ∨ desc.bits = 64
  | _ => 1 ≤ desc.bits

/-- Names resolve, widths exist, and the declared least length of an element is one. -/
def WellFormed (nested : String → Prop) (least : String → ℕ) : DronecanTypeDesc → Prop
  | .primitive desc => desc.WellFormed
  | .void _ => True
  | .compound r => nested r
  | .array a m max eMin =>
    a.isVoid = false ∧ (m = .d → 0 < max) ∧ eMin ≤ leastBits least a ∧ WellFormed nested least a

/-- Field names are distinct, only padding has none, and a union has something to choose from. -/
structure SectionWellFormed (nested : String → Prop) (least : String → ℕ)
    (sect : DronecanSectionDesc) : Prop where
  names : (sect.fields.filterMap DronecanFieldDesc.n).Nodup
  padding : ∀ field ∈ sect.fields, field.n = none ↔ field.t.isVoid = true
  types : ∀ field ∈ sect.fields, WellFormed nested least field.t
  union : sect.union = true → sect.fields ≠ [] ∧ ∀ field ∈ sect.fields, field.n ≠ none

def NestedWellFormed (resolve : DronecanSectionResolver) : ℕ → String → Prop
  | 0, _ => False
  | depth + 1, r => ∃ sect, resolve r = .ok sect ∧
      SectionWellFormed (NestedWellFormed resolve depth) (nestedLeastBits resolve depth) sect

/-! ## Values -/

/-- A value that is the integer `i`. -/
def Denotes (i : ℤ) : DronecanValue → Prop
  | .number (.finite negative q) => JsNumber.signed negative q = i
  | .bigint j => j = i
  | _ => False

def floatFormat (bits : ℕ) : FloatFormat :=
  if bits = 16 then binary16 else if bits = 32 then binary32 else binary64

/-- A value of a primitive type: a boolean, an integer of its width, or a number that one of its bit
patterns stands for. -/
def PrimitiveTyped (desc : PrimitiveDesc) (v : DronecanValue) : Prop :=
  match desc.p with
  | .b => ∃ b, v = .boolean b
  | .u => ∃ i : ℤ, Denotes i v ∧ 0 ≤ i ∧ i < 2 ^ desc.bits
  | .i => ∃ i : ℤ, Denotes i v ∧ -2 ^ (desc.bits - 1) ≤ i ∧ i < 2 ^ (desc.bits - 1)
  | .f => ∃ x, v = .number x ∧ (floatFormat desc.bits).Holds x

/-- The values that belong to a type, `primitive` saying which belong to a primitive one. -/
def WellTyped (primitive : PrimitiveDesc → DronecanValue → Prop)
    (nested : String → DronecanValue → Prop) : DronecanTypeDesc → DronecanValue → Prop
  | .primitive desc, v => primitive desc v
  | .void _, _ => False
  | .compound r, v => nested r v
  | .array a m max _, .array items =>
    items.length ≤ max ∧ (m = .s → items.length = max) ∧
      ∀ item ∈ items, WellTyped primitive nested a item
  | .array _ _ _ _, _ => False

/-- An object with exactly the named fields, or with exactly the chosen one of a union. -/
def RecordTyped (primitive : PrimitiveDesc → DronecanValue → Prop)
    (nested : String → DronecanValue → Prop) (sect : DronecanSectionDesc) (record : DronecanRecord) :
    Prop :=
  (if sect.union then ∃ field ∈ sect.fields, ∃ n v, field.n = some n ∧ record = [(n, v)]
    else record.keys.Perm (sect.fields.filterMap DronecanFieldDesc.n)) ∧
  ∀ field ∈ sect.fields, ∀ n, field.n = some n → ∀ v, record.get n = some v →
    WellTyped primitive nested field.t v

def NestedTyped (primitive : PrimitiveDesc → DronecanValue → Prop)
    (resolve : DronecanSectionResolver) : ℕ → String → DronecanValue → Prop
  | 0, _, _ => False
  | depth + 1, r, v => ∃ sect record, resolve r = .ok sect ∧ v = .record record ∧
      RecordTyped primitive (NestedTyped primitive resolve depth) sect record

/-! ## Sameness -/

def SamePrimitive (desc : PrimitiveDesc) (v w : DronecanValue) : Prop :=
  match desc.p with
  | .u | .i => ∃ i, Denotes i v ∧ w = integerValue i
  | _ => w = v

/-- `w` is the form in which the value `v` comes back. -/
def Same (nested : String → DronecanValue → DronecanValue → Prop) :
    DronecanTypeDesc → DronecanValue → DronecanValue → Prop
  | .primitive desc, v, w => SamePrimitive desc v w
  | .void _, _, _ => True
  | .compound r, v, w => nested r v w
  | .array a _ _ _, .array vs, .array ws => List.Forall₂ (Same nested a) vs ws
  | .array _ _ _ _, _, _ => False

def SameRecord (nested : String → DronecanValue → DronecanValue → Prop)
    (sect : DronecanSectionDesc) (a b : DronecanRecord) : Prop :=
  b.keys.Perm a.keys ∧ ∀ field ∈ sect.fields, ∀ n, field.n = some n → ∀ v, a.get n = some v →
    ∃ w, b.get n = some w ∧ Same nested field.t v w

def NestedSame (resolve : DronecanSectionResolver) :
    ℕ → String → DronecanValue → DronecanValue → Prop
  | 0, _, _, _ => False
  | depth + 1, r, v, w => ∃ sect a b, resolve r = .ok sect ∧ v = .record a ∧ w = .record b ∧
      SameRecord (NestedSame resolve depth) sect a b

/-! ## Primitives -/

def PrimitiveStored (desc : PrimitiveDesc) (v : DronecanValue) : Prop :=
  PrimitiveTyped desc v ∧
    (desc.p = .f → desc.c = some .s → ∀ negative, v ≠ .number (.infinite negative))

variable {i : ℤ}

theorem truncate_of_denotes {negative : Bool} {q : ℚ≥0} (h : JsNumber.signed negative q = i) :
    truncate (.finite negative q) = .ok i := by
  rw [truncate]
  refine congrArg Except.ok ?_
  cases negative
  · have hq : ((q : ℚ≥0) : ℚ) = i := h
    have hi : 0 ≤ i := by
      have : (0 : ℚ) ≤ i := hq ▸ q.cast_nonneg
      exact_mod_cast this
    obtain ⟨n, rfl⟩ := Int.eq_ofNat_of_zero_le hi
    have hqn : q = (n : ℚ≥0) := by
      rw [Int.cast_natCast] at hq
      exact_mod_cast hq
    simp [hqn]
  · have hq : -((q : ℚ≥0) : ℚ) = i := h
    have hi : i ≤ 0 := by
      have : (i : ℚ) ≤ 0 := by
        rw [← hq]
        exact neg_nonpos.mpr q.cast_nonneg
      exact_mod_cast this
    obtain ⟨n, hn⟩ := Int.eq_ofNat_of_zero_le (Int.neg_nonneg.mpr hi)
    obtain rfl : i = -(n : ℤ) := by omega
    have hqn : q = (n : ℚ≥0) := by
      push_cast at hq
      exact_mod_cast neg_injective hq
    simp [hqn]

variable {desc : PrimitiveDesc} {v : DronecanValue}

theorem encodePrimitive_integer (hp : desc.p = .u ∨ desc.p = .i) (hv : Denotes i v) :
    encodePrimitive desc (some v) = .ok (binary desc.bits (castInteger desc i)) := by
  obtain ⟨p, bits, c⟩ := desc
  match v, hv with
  | .bigint j, hv =>
    obtain rfl : j = i := hv
    obtain rfl | rfl := hp <;> rfl
  | .number (.finite negative q), hv =>
    obtain rfl | rfl := hp <;> simp only [encodePrimitive, truncate_of_denotes hv, Except.map]

theorem castInteger_unsigned (hp : desc.p = .u) (h0 : 0 ≤ i) (hi : i < 2 ^ desc.bits) :
    castInteger desc i = i.toNat := by
  rw [castInteger, if_pos hp]
  by_cases hc : desc.c = some .s
  · simp only [hc, if_true, if_neg h0.not_gt]
    rw [if_neg (by omega)]
  · simp only [hc, if_false]
    rw [Int.emod_eq_of_lt h0 hi]

theorem castInteger_signed (hp : desc.p = .i) (hb : 1 ≤ desc.bits) (hlo : -2 ^ (desc.bits - 1) ≤ i)
    (hhi : i < 2 ^ (desc.bits - 1)) :
    castInteger desc i = (if i < 0 then i + 2 ^ desc.bits else i).toNat := by
  have hpow : (2 : ℤ) ^ desc.bits = 2 * 2 ^ (desc.bits - 1) := by
    rw [← pow_succ', Nat.sub_add_cancel hb]
  rw [castInteger, if_neg (by rw [hp]; decide)]
  by_cases hc : desc.c = some .s
  · simp only [hc, if_true, if_neg hlo.not_gt]
    rw [if_neg (by omega : ¬ (2 : ℤ) ^ (desc.bits - 1) - 1 < i)]
  · have hheld : (if (2 : ℤ) ^ (desc.bits - 1) - 1 < i % 2 ^ desc.bits
        then i % 2 ^ desc.bits - 2 ^ desc.bits else i % 2 ^ desc.bits) = i := by
      by_cases hneg : i < 0
      · have hmod : i % 2 ^ desc.bits = i + 2 ^ desc.bits := by
          rw [← Int.add_emod_right, Int.emod_eq_of_lt (by omega) (by omega)]
        rw [hmod, if_pos (by omega)]
        omega
      · rw [Int.emod_eq_of_lt (by omega) (by omega), if_neg (by omega)]
    simp only [hc, if_false, hheld]

theorem integerValue_unsigned (hp : desc.p = .u) {n : ℕ} (hn : n < 2 ^ desc.bits) :
    decodePrimitive desc (binary desc.bits n) = integerValue n := by
  have hwide : desc.bits ≤ 53 → n ≤ MAX_SAFE_INTEGER := by
    intro h
    have : 2 ^ desc.bits ≤ 2 ^ 53 := Nat.pow_le_pow_right (by norm_num) h
    simp only [MAX_SAFE_INTEGER]
    omega
  rw [integerValue]
  simp only [decodePrimitive, hp, ofBits_binary]
  by_cases hle : n ≤ MAX_SAFE_INTEGER
  · rw [if_pos (by omega : -(MAX_SAFE_INTEGER : ℤ) ≤ n ∧ (n : ℤ) ≤ MAX_SAFE_INTEGER)]
    split
    · rw [if_pos (.inr hle)]
    · rfl
  · have hgt : 53 < desc.bits := by
      by_contra h
      exact hle (hwide (by omega))
    rw [if_pos (by omega), if_neg (by omega), if_neg (by omega)]

theorem integerValue_signed (hp : desc.p = .i) (hb : 1 ≤ desc.bits) (hlo : -2 ^ (desc.bits - 1) ≤ i)
    (hhi : i < 2 ^ (desc.bits - 1)) :
    decodePrimitive desc (binary desc.bits (if i < 0 then i + 2 ^ desc.bits else i).toNat) =
      integerValue i := by
  have hpow : (2 : ℤ) ^ desc.bits = 2 * 2 ^ (desc.bits - 1) := by
    rw [← pow_succ', Nat.sub_add_cancel hb]
  simp only [decodePrimitive, hp, ofBits_binary]
  refine congrArg integerValue ?_
  by_cases hneg : i < 0
  · rw [if_pos hneg, if_pos (by zify; rw [Int.toNat_of_nonneg (by omega)]; omega),
      Int.toNat_of_nonneg (by omega)]
    omega
  · rw [if_neg hneg, if_neg (by zify; rw [Int.toNat_of_nonneg (by omega)]; omega),
      Int.toNat_of_nonneg (by omega)]

theorem limit_of_holds {bits : ℕ} (hb : bits = 16 ∨ bits = 32 ∨ bits = 64) :
    ∃ limit, FLOAT_LIMITS bits = some limit ∧
      ∀ negative q, (floatFormat bits).Holds (.finite negative q) → q ≤ limit := by
  obtain rfl | rfl | rfl := hb
  · refine ⟨65504, rfl, fun negative q h => ?_⟩
    have hle := FloatFormat.Holds.magnitude_le (f := binary16) (by decide) h
    rw [unit_binary16] at hle
    norm_num [binary16] at hle
    exact hle
  · refine ⟨(2 ^ 24 - 1 : ℕ) * 2 ^ 104, rfl, fun negative q h => ?_⟩
    have hle := FloatFormat.Holds.magnitude_le (f := binary32) (by decide) h
    rw [unit_binary32] at hle
    norm_num [binary32] at hle ⊢
    exact hle
  · refine ⟨(2 ^ 53 - 1 : ℕ) * 2 ^ 971, rfl, fun negative q h => ?_⟩
    have hle := FloatFormat.Holds.magnitude_le (f := binary64) (by decide) h
    rw [FloatFormat.unit] at hle
    norm_num [binary64, FloatFormat.bias] at hle ⊢
    exact hle

variable {x : JsNumber}

theorem castFloat_eq (hb : desc.bits = 16 ∨ desc.bits = 32 ∨ desc.bits = 64)
    (hx : (floatFormat desc.bits).Holds x)
    (hinf : desc.c = some .s → ∀ negative, x ≠ .infinite negative) : castFloat desc x = x := by
  obtain ⟨limit, hlimit, hle⟩ := limit_of_holds hb
  rw [castFloat, hlimit]
  cases x with
  | nan => rfl
  | infinite negative =>
    have hc : desc.c ≠ some .s := fun hc => hinf hc negative rfl
    cases negative <;> simp [hc, JsNumber.le]
  | finite negative q =>
    have hq : (q : ℚ) ≤ limit := by exact_mod_cast hle negative q hx
    have h0 : (0 : ℚ) ≤ q := q.cast_nonneg
    have habove : (JsNumber.finite negative q).le (.finite false limit) = true := by
      rw [JsNumber.le, decide_eq_true_iff]
      cases negative <;> simp only [JsNumber.signed, if_true, if_false, Bool.false_eq_true] <;>
        linarith
    have hbelow : (JsNumber.finite true limit).le (.finite negative q) = true := by
      rw [JsNumber.le, decide_eq_true_iff]
      cases negative <;> simp only [JsNumber.signed, if_true, if_false, Bool.false_eq_true] <;>
        linarith
    simp [habove, hbelow]

theorem float_roundTrip (hp : desc.p = .f) (hb : desc.bits = 16 ∨ desc.bits = 32 ∨ desc.bits = 64)
    (hx : (floatFormat desc.bits).Holds x)
    (hinf : desc.c = some .s → ∀ negative, x ≠ .infinite negative) :
    ∃ raw < 2 ^ desc.bits, encodePrimitive desc (some (.number x)) = .ok (binary desc.bits raw) ∧
      decodePrimitive desc (binary desc.bits raw) = .number x := by
  have hcast := castFloat_eq hb hx hinf
  obtain ⟨p, bits, c⟩ := desc
  obtain rfl : p = .f := hp
  simp only [encodePrimitive, decodePrimitive, hcast, ofBits_binary]
  obtain rfl | rfl | rfl := hb
  · obtain ⟨hlt, hvalue⟩ := float16Value_float16Bits hx
    exact ⟨_, hlt, rfl, congrArg DronecanValue.number hvalue⟩
  · have hlt : binary32.pattern x < 2 ^ 32 := FloatFormat.pattern_lt (by decide) x
    refine ⟨binary32.pattern x, hlt, rfl, ?_⟩
    rw [if_neg (by decide), if_pos rfl, Nat.mod_eq_of_lt hlt]
    exact congrArg DronecanValue.number (FloatFormat.value_pattern (f := binary32) (by decide) hx)
  · have hlt : binary64.pattern x < 2 ^ 64 := FloatFormat.pattern_lt (by decide) x
    refine ⟨binary64.pattern x, hlt, rfl, ?_⟩
    rw [if_neg (by decide), if_neg (by decide), Nat.mod_eq_of_lt hlt]
    exact congrArg DronecanValue.number (FloatFormat.value_pattern (f := binary64) (by decide) hx)

theorem primitive_roundTrip (hw : desc.WellFormed) (hv : PrimitiveStored desc v) :
    ∃ bits : Bits, bits.length = desc.bits ∧ encodePrimitive desc (some v) = .ok bits ∧
      SamePrimitive desc v (decodePrimitive desc bits) := by
  obtain ⟨htyped, hinf⟩ := hv
  rw [PrimitiveTyped] at htyped
  rw [PrimitiveDesc.WellFormed] at hw
  simp only [SamePrimitive]
  cases hp : desc.p with
  | b =>
    simp only [hp] at htyped hw ⊢
    obtain ⟨b, rfl⟩ := htyped
    refine ⟨[b], hw.symm, by simp only [encodePrimitive, hp, truthy], ?_⟩
    simp only [decodePrimitive, hp]
    cases b <;> rfl
  | u =>
    simp only [hp] at htyped hw ⊢
    obtain ⟨i, hi, h0, hlt⟩ := htyped
    obtain ⟨n, rfl⟩ := Int.eq_ofNat_of_zero_le h0
    have hn : n < 2 ^ desc.bits := by exact_mod_cast hlt
    refine ⟨binary desc.bits n, length_binary hw hn, ?_, n, hi, integerValue_unsigned hp hn⟩
    rw [encodePrimitive_integer (.inl hp) hi, castInteger_unsigned hp h0 hlt, Int.toNat_natCast]
  | i =>
    simp only [hp] at htyped hw ⊢
    obtain ⟨i, hi, hlo, hhi⟩ := htyped
    have hpow : (2 : ℤ) ^ desc.bits = 2 * 2 ^ (desc.bits - 1) := by
      rw [← pow_succ', Nat.sub_add_cancel hw]
    refine ⟨_, length_binary hw ?_, ?_, i, hi, integerValue_signed hp hw hlo hhi⟩
    · zify
      split
      · rw [Int.toNat_of_nonneg (by omega)]
        omega
      · rw [Int.toNat_of_nonneg (by omega)]
        omega
    · rw [encodePrimitive_integer (.inr hp) hi, castInteger_signed hp hw hlo hhi]
  | f =>
    simp only [hp] at htyped hw ⊢
    obtain ⟨x, rfl, hx⟩ := htyped
    have hinf' : desc.c = some .s → ∀ negative, x ≠ .infinite negative :=
      fun hc negative hn => hinf hp hc negative (congrArg DronecanValue.number hn)
    obtain ⟨raw, hraw, henc, hdec⟩ := float_roundTrip hp hw hx hinf'
    refine ⟨_, length_binary (by omega) hraw, henc, hdec⟩

end ArduConfigurator.Dronecan
