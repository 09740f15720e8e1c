import ArduConfigurator.Dronecan.PrimitiveRoundTrip

/-! # What is encoded decodes to the same value

First rows of elements, then types and sections by recursion on the type under the assumption that
nested types come back, and last nested types by recursion on their depth. -/
namespace ArduConfigurator.Dronecan
set_option autoImplicit false

/-! ## Rows of elements -/

/-- The encoder's bits for a value are read back as something of which `P` holds; off the tail there
are at least `least` of them. -/
def RoundTrip {α : Type} (encoded : Except CodecFailure Bits) (read : Decoder α) (tail : Bool)
    (least : ℕ) (P : α → Prop) : Prop :=
  ∃ bits a, encoded = .ok bits ∧ (tail = false → least ≤ bits.length) ∧ Carries tail bits read a ∧ P a

theorem carries_take {s : Bits} {bitlen : ℕ} (h : s.length = bitlen) :
    Carries false (leFromBeBits s bitlen) (take bitlen) s := by
  intro stream pos rest _ hahead _
  refine ⟨pos + bitlen, ?_, fun _ => by rw [length_leFromBeBits h]⟩
  rw [take, hahead, beFromLeBits_leFromBeBits h]

variable {α β : Type} {tail : Bool} {read : Decoder α} {Q : β → Prop}

theorem RoundTrip.map {encoded : Except CodecFailure Bits} {least : ℕ} {P : α → Prop}
    (h : RoundTrip encoded read tail least P) (f : α → β) (hf : ∀ a, P a → Q (f a)) :
    RoundTrip encoded (read.bind fun a => .pure (f a)) tail least Q := by
  obtain ⟨bits, a, henc, hleast, hcarries, ha⟩ := h
  exact ⟨bits, f a, henc, hleast, hcarries.map f, hf a ha⟩

variable {γ : Type}

theorem RoundTrip.cons {first rest : Except CodecFailure Bits} {D : α → Decoder β}
    {least least' : ℕ} {P : α → Prop} {R : γ → Prop} {f : α → β → γ}
    (h : RoundTrip first read false least P) (h' : ∀ a, P a → RoundTrip rest (D a) tail least' Q)
    (hf : ∀ a b, P a → Q b → R (f a b)) :
    RoundTrip (encodeThen first rest)
      (read.bind fun a => (D a).bind fun b => .pure (f a b)) tail (least + least') R := by
  obtain ⟨bits, a, henc, hleast, hcarries, ha⟩ := h
  obtain ⟨bits', b, henc', hleast', hcarries', hb⟩ := h' a ha
  refine ⟨bits ++ bits', f a b, ?_, fun ht => ?_, hcarries.bind (hcarries'.map _), hf a b ha hb⟩
  · rw [encodeThen, henc, henc']
    rfl
  · rw [List.length_append]
    exact Nat.add_le_add (hleast rfl) (hleast' ht)

variable {vs : List DronecanValue}

theorem encodeStatic_eq {item : Encoder} {tao : Bool} :
    encodeStatic item tao vs.length vs = encodeItems item tao vs := by
  induction vs with
  | nil => rfl
  | cons v vs ih =>
    rw [List.length_cons, encodeStatic, encodeItems, List.head?_cons, List.tail_cons, ih]
    cases vs <;> rfl

variable {P : DronecanValue → DronecanValue → Prop}

theorem items_roundTrip (item : Encoder) (read : Bool → Decoder DronecanValue) {least : ℕ}
    (tao : Bool)
    (h : ∀ v ∈ vs, ∀ tail, RoundTrip (item (some v) tail) (read tail) tail least (P v)) :
    RoundTrip (encodeItems item tao vs) (decodeItems read tao vs.length) tao (vs.length * least)
      (List.Forall₂ P vs) := by
  induction vs with
  | nil =>
    exact ⟨[], [], rfl, fun _ => by simp, (carries_pure []).tail tao, .nil⟩
  | cons v vs ih =>
    have hrest := ih fun w hw => h w (List.mem_cons_of_mem _ hw)
    rw [List.length_cons, encodeItems, decodeItems, Nat.succ_mul, Nat.add_comm]
    cases hlast : tao && vs.isEmpty with
    | false =>
      have hlast' : (tao && decide (vs.length = 0)) = false := by
        rw [← hlast]
        cases vs <;> rfl
      rw [hlast']
      exact (h v (List.mem_cons_self ..) false).cons (fun _ _ => hrest) fun _ _ ha hb => .cons ha hb
    | true =>
      obtain ⟨rfl, hnil⟩ := Bool.and_eq_true_iff.mp hlast
      obtain rfl := List.isEmpty_iff.mp hnil
      obtain ⟨bits, w, henc, -, hcarries, hw⟩ := h v (List.mem_cons_self ..) true
      refine ⟨bits, [w], ?_, by simp, ?_, .cons hw .nil⟩
      · rw [henc, encodeItems, encodeThen]
        simp [Except.bind, Except.map]
      · exact hcarries.map fun v => [v]

theorem tail_roundTrip (item : Encoder) (read : Decoder DronecanValue) {least : ℕ} (h8 : 8 ≤ least)
    (h : ∀ v ∈ vs, RoundTrip (item (some v) false) read false least (P v)) :
    ∃ bits ws, encodeItems item false vs = .ok bits ∧ List.Forall₂ P vs ws ∧
      ∀ stream pos rest turns, pos ≤ stream.length → Cursor.ahead ⟨stream, pos⟩ = bits ++ rest →
        rest.length < 8 → bits.length ≤ turns →
        decodeTail read turns ⟨stream, pos⟩ = .ok (ws, ⟨stream, stream.length⟩) := by
  induction vs with
  | nil =>
    refine ⟨[], [], rfl, .nil, fun stream pos rest turns _ hahead hrest _ => ?_⟩
    have hrem : ¬ 8 ≤ Cursor.remaining ⟨stream, pos⟩ := by
      rw [← Cursor.length_ahead, hahead]
      simpa using hrest
    cases turns <;> rw [decodeTail, if_neg hrem]
  | cons v vs ih =>
    obtain ⟨bits, w, henc, hleast, hcarries, hw⟩ := h v (List.mem_cons_self ..)
    obtain ⟨bits', ws, henc', hws, hloop⟩ := ih fun u hu => h u (List.mem_cons_of_mem _ hu)
    have hlen := hleast rfl
    refine ⟨bits ++ bits', w :: ws, ?_, .cons hw hws, ?_⟩
    · rw [encodeItems, Bool.false_and, henc, henc']
      rfl
    · intro stream pos rest turns hle hahead hrest hturns
      rw [List.length_append] at hturns
      obtain ⟨turns, rfl⟩ : ∃ k, turns = k + 1 := ⟨turns - 1, by omega⟩
      have hrem : 8 ≤ Cursor.remaining ⟨stream, pos⟩ := by
        rw [← Cursor.length_ahead, hahead]
        simp only [List.length_append]
        omega
      rw [List.append_assoc] at hahead
      obtain ⟨_, hread, hpos⟩ := hcarries stream pos _ hle hahead (by simp)
      obtain rfl := hpos rfl
      have hnext := hloop stream _ rest turns (Cursor.add_le_length hle hahead)
        (Cursor.ahead_add hahead) hrest (by omega)
      rw [decodeTail, if_pos hrem]
      simp only [Reader.bind, hread, hnext, Reader.pure]


/-! ## Types -/

/-- Nested types come back: what types and sections are proved from, and proved to have. -/
def NestedRoundTrip (enc : NestedEncoder) (dec : NestedDecoder) (wellFormed : String → Prop)
    (least : String → ℕ) (typed : String → DronecanValue → Prop)
    (same : String → DronecanValue → DronecanValue → Prop) : Prop :=
  ∀ r v tail, wellFormed r → typed r v →
    RoundTrip (enc r (some v) tail) (dec r tail) tail (least r) (same r v)

section
variable {enc : NestedEncoder} {dec : NestedDecoder} {wellFormed : String → Prop}
  {least : String → ℕ} {typed : String → DronecanValue → Prop}
  {same : String → DronecanValue → DronecanValue → Prop}

theorem lt_two_pow_bitLength (n : ℕ) : n < 2 ^ bitLength n := by
  rw [bitLength]
  split
  · omega
  · exact lt_two_pow_binaryDigits n

theorem bitLength_pos {n : ℕ} (h : 0 < n) : 0 < bitLength n := by
  rw [bitLength, if_neg h.ne', binaryDigits, if_neg h.ne']
  omega

variable {v : DronecanValue}

theorem primitive_typeRoundTrip {desc : PrimitiveDesc} (hw : desc.WellFormed)
    (hv : PrimitiveStored desc v) (tail : Bool) :
    RoundTrip (encodeType enc (.primitive desc) (some v) tail)
      (decodeType dec (.primitive desc) tail) tail desc.bits (SamePrimitive desc v) := by
  obtain ⟨bits, hlen, henc, hsame⟩ := primitive_roundTrip hw hv
  refine ⟨leFromBeBits bits desc.bits, decodePrimitive desc bits, ?_, fun _ => ?_, ?_, hsame⟩
  · rw [encodeType, henc]
    rfl
  · rw [length_leFromBeBits hlen]
  · exact ((carries_take hlen).tail tail).map _

theorem type_roundTrip (hn : NestedRoundTrip enc dec wellFormed least typed same)
    {t : DronecanTypeDesc} (hw : WellFormed wellFormed least t)
    (hv : WellTyped PrimitiveStored typed t v) (tail : Bool) :
    RoundTrip (encodeType enc t (some v) tail) (decodeType dec t tail) tail (leastBits least t)
      (Same same t v) := by
  induction t generalizing v tail with
  | primitive desc => exact primitive_typeRoundTrip hw hv tail
  | void n => exact hv.elim
  | compound r => exact hn r v tail hw hv
  | array a m max eMin ih =>
    obtain ⟨-, hmax, hmin, hwa⟩ := hw
    cases v with
    | number _ => exact hv.elim
    | bigint _ => exact hv.elim
    | boolean _ => exact hv.elim
    | record _ => exact hv.elim
    | array vs =>
      obtain ⟨hlen, hstatic, hitems⟩ := hv
      have hrow := fun v hv' tail => ih hwa (hitems v hv') tail
      have htake : vs.take max = vs := List.take_of_length_le hlen
      cases m with
      | s =>
        obtain rfl := hstatic rfl
        have h := items_roundTrip (encodeType enc a) (decodeType dec a) tail hrow
        rw [encodeType, decodeType, leastBits]
        simp only [htake, encodeStatic_eq]
        exact h.map _ fun ws hws => hws
      | d =>
        rw [encodeType, decodeType, leastBits]
        simp only [htake]
        by_cases htao : (tail && decide (8 ≤ eMin)) = true
        · obtain ⟨rfl, h8⟩ := Bool.and_eq_true_iff.mp htao
          have h8' : 8 ≤ leastBits least a := le_trans (of_decide_eq_true h8) hmin
          obtain ⟨bits, ws, henc, hws, hloop⟩ := tail_roundTrip (encodeType enc a)
            (decodeType dec a false) h8' fun v hv' => hrow v hv' false
          rw [if_pos htao, if_pos htao]
          refine ⟨bits, .array ws, henc, by simp, ?_, hws⟩
          intro stream pos rest hle hahead hrest
          refine ⟨stream.length, ?_, by simp⟩
          have hrem : bits.length ≤ Cursor.remaining ⟨stream, pos⟩ := by
            rw [← Cursor.length_ahead, hahead, List.length_append]
            omega
          simp only [Reader.bind, hloop stream pos rest _ hle hahead (hrest rfl) hrem, Reader.pure]
        · rw [if_neg htao, if_neg htao]
          have hcount : (binary (bitLength max) vs.length).length = bitLength max :=
            length_binary (bitLength_pos (hmax rfl))
              (lt_of_le_of_lt hlen (lt_two_pow_bitLength max))
          have hfirst : RoundTrip (.ok (leFromBeBits (binary (bitLength max) vs.length)
              (bitLength max))) (take (bitLength max)) false 0
              (· = binary (bitLength max) vs.length) :=
            ⟨_, _, rfl, by simp, carries_take hcount, rfl⟩
          have h := items_roundTrip (encodeType enc a) (decodeType dec a) tail hrow
          obtain ⟨bits, ws, henc, -, hcarries, hsame⟩ := hfirst.cons
            (D := fun bits => decodeItems (decodeType dec a) tail (ofBits bits))
            (f := fun _ items => DronecanValue.array items)
            (R := Same same (.array a .d max eMin) (.array vs))
            (fun s hs => by rw [hs, ofBits_binary]; exact h) (fun _ _ _ hws => hws)
          exact ⟨bits, ws, henc, by simp, hcarries, hsame⟩

end


/-! ## Sections -/

theorem encodeThen_ok {a b : Bits} : encodeThen (.ok a) (.ok b) = .ok (a ++ b) := rfl

theorem tail_of_isEmpty {rest : List γ} (h : (tail && rest.isEmpty) = true) :
    tail = true ∧ rest = [] := by
  obtain ⟨ht, hr⟩ := Bool.and_eq_true_iff.mp h
  exact ⟨ht, List.isEmpty_iff.mp hr⟩

section
variable {enc : NestedEncoder} {dec : NestedDecoder} {wellFormed : String → Prop}
  {least : String → ℕ} {typed : String → DronecanValue → Prop}
  {same : String → DronecanValue → DronecanValue → Prop} {record : DronecanRecord}
  {field : DronecanFieldDesc}

theorem field_roundTrip (hn : NestedRoundTrip enc dec wellFormed least typed same)
    (hw : WellFormed wellFormed least field.t) (hvoid : field.n = none ↔ field.t.isVoid = true)
    (hv : ∀ n, field.n = some n → ∃ v, record.get n = some v ∧ WellTyped PrimitiveStored typed field.t v)
    (tail : Bool) :
    RoundTrip (encodeType enc field.t (field.n.bind record.get) tail)
      (decodeType dec field.t tail) tail (leastBits least field.t)
      (fun w => ∀ n, field.n = some n → ∃ v, record.get n = some v ∧ Same same field.t v w) := by
  obtain ⟨n, t⟩ := field
  cases n with
  | none =>
    cases t with
    | void n =>
      refine ⟨List.replicate n false, .number (.finite false 0), rfl, fun _ => ?_, ?_, by simp⟩
      · exact le_of_eq List.length_replicate.symm
      · intro stream pos rest _ _ _
        exact ⟨pos + n, rfl, fun _ => by rw [List.length_replicate]⟩
    | primitive _ => exact absurd (hvoid.mp rfl) (by simp [DronecanTypeDesc.isVoid])
    | compound _ => exact absurd (hvoid.mp rfl) (by simp [DronecanTypeDesc.isVoid])
    | array _ _ _ _ => exact absurd (hvoid.mp rfl) (by simp [DronecanTypeDesc.isVoid])
  | some n =>
    obtain ⟨v, hget, htyped⟩ := hv n rfl
    have h := type_roundTrip hn hw htyped tail
    obtain ⟨bits, w, henc, hleast, hcarries, hsame⟩ := h
    rw [Option.bind_some, hget]
    refine ⟨bits, w, henc, hleast, hcarries, fun m hm => ⟨v, ?_, hsame⟩⟩
    cases hm
    exact hget

/-- The object after the fields `fields` have been read on top of `out`. -/
structure ReadOnto (same : String → DronecanValue → DronecanValue → Prop)
    (fields : List DronecanFieldDesc) (record out final : DronecanRecord) : Prop where
  keys : final.keys = out.keys ++ fields.filterMap DronecanFieldDesc.n
  kept : ∀ n, n ∈ out.keys → final.get n = out.get n
  read : ∀ field ∈ fields, ∀ n, field.n = some n → ∃ v w, record.get n = some v ∧
    final.get n = some w ∧ Same same field.t v w

theorem readOnto_nil (record out : DronecanRecord) : ReadOnto same [] record out out :=
  ⟨(List.append_nil _).symm, fun _ _ => rfl, by simp⟩

theorem readOnto_cons {rest : List DronecanFieldDesc} {out final : DronecanRecord}
    {w : DronecanValue} (hnodup : (out.keys ++ (field :: rest).filterMap DronecanFieldDesc.n).Nodup)
    (hw : ∀ n, field.n = some n → ∃ v, record.get n = some v ∧ Same same field.t v w)
    (h : ReadOnto same rest record (match field.n with | none => out | some n => out.set n w) final) :
    ReadOnto same (field :: rest) record out final := by
  obtain ⟨n, t⟩ := field
  cases n with
  | none =>
    refine ⟨h.keys, h.kept, fun f hf m hm => ?_⟩
    obtain rfl | hf := List.mem_cons.mp hf
    · cases hm
    · exact h.read f hf m hm
  | some n =>
    have hnot : n ∉ out.keys := by
      intro hmem
      exact (List.nodup_append.mp hnodup).2.2 n hmem n (by simp) rfl
    have hkeys := h.keys
    simp only [Entries.keys_set_of_notMem hnot] at hkeys
    refine ⟨?_, fun m hm => ?_, fun f hf m hm => ?_⟩
    · rw [hkeys, List.filterMap_cons]
      simp
    · have hne : m ≠ n := fun he => hnot (he ▸ hm)
      rw [h.kept m (Entries.mem_keys_set.mpr (.inr hm)), Entries.get_set_ne hne]
    · obtain rfl | hf := List.mem_cons.mp hf
      · cases hm
        obtain ⟨v, hget, hsame⟩ := hw n rfl
        refine ⟨v, w, hget, ?_, hsame⟩
        rw [h.kept n (Entries.mem_keys_set.mpr (.inl rfl)), Entries.get_set_self]
      · exact h.read f hf m hm

theorem fields_roundTrip (hn : NestedRoundTrip enc dec wellFormed least typed same) (tail : Bool)
    {fields : List DronecanFieldDesc} (hw : ∀ field ∈ fields, WellFormed wellFormed least field.t)
    (hvoid : ∀ field ∈ fields, field.n = none ↔ field.t.isVoid = true)
    (hv : ∀ field ∈ fields, ∀ n, field.n = some n → ∃ v, record.get n = some v ∧ WellTyped PrimitiveStored typed field.t v)
    (out : DronecanRecord) (hnodup : (out.keys ++ fields.filterMap DronecanFieldDesc.n).Nodup) :
    RoundTrip (encodeFields enc tail record fields) (decodeFields dec tail fields out) tail
      (fields.map fun field => leastBits least field.t).sum (ReadOnto same fields record out) := by
  induction fields generalizing out with
  | nil =>
    exact ⟨[], out, rfl, fun _ => le_rfl, (carries_pure out).tail tail, readOnto_nil record out⟩
  | cons field rest ih =>
    have hfield := field_roundTrip hn (hw field (List.mem_cons_self ..))
      (hvoid field (List.mem_cons_self ..)) (hv field (List.mem_cons_self ..))
    have hrest : ∀ w, RoundTrip (encodeFields enc tail record rest)
        (decodeFields dec tail rest (match field.n with | none => out | some n => out.set n w)) tail
        (rest.map fun field => leastBits least field.t).sum
        (ReadOnto same rest record (match field.n with | none => out | some n => out.set n w)) := by
      intro w
      refine ih (fun f hf => hw f (List.mem_cons_of_mem _ hf))
        (fun f hf => hvoid f (List.mem_cons_of_mem _ hf))
        (fun f hf => hv f (List.mem_cons_of_mem _ hf)) _ ?_
      obtain ⟨n, t⟩ := field
      cases n with
      | none => exact hnodup
      | some n =>
        have hnot : n ∉ out.keys := by
          intro hmem
          exact (List.nodup_append.mp hnodup).2.2 n hmem n (by simp) rfl
        simp only [Entries.keys_set_of_notMem hnot]
        simpa using hnodup
    rw [encodeFields, decodeFields, List.map_cons, List.sum_cons]
    cases hlast : tail && rest.isEmpty with
    | false =>
      obtain ⟨bits, w, henc, hleast, hcarries, hw'⟩ := hfield false
      obtain ⟨bits', final, henc', hleast', hcarries', hfinal⟩ := hrest w
      refine ⟨bits ++ bits', final, ?_, fun ht => ?_, hcarries.bind hcarries',
        readOnto_cons hnodup hw' hfinal⟩
      · rw [henc, henc', encodeThen_ok]
      · rw [List.length_append]
        exact Nat.add_le_add (hleast rfl) (hleast' ht)
    | true =>
      obtain ⟨rfl, rfl⟩ := tail_of_isEmpty hlast
      obtain ⟨bits, w, henc, -, hcarries, hw'⟩ := hfield true
      refine ⟨bits, _, ?_, by simp, hcarries.map _, readOnto_cons hnodup hw'
        (readOnto_nil record _)⟩
      rw [henc, encodeFields, encodeThen_ok, List.append_nil]

end


/-! ## Whole sections and nested types -/

theorem leastOf_le {l : List ℕ} {n : ℕ} (h : n ∈ l) : leastOf l ≤ n := by
  induction l with
  | nil => cases h
  | cons m l ih =>
    cases l with
    | nil => exact (List.mem_singleton.mp h).ge
    | cons k l =>
      rw [leastOf]
      obtain rfl | h := List.mem_cons.mp h
      · exact min_le_left _ _
      · exact le_trans (min_le_right _ _) (ih h)
      · simp

theorem eq_of_nodup_filterMap {f : α → Option β} {l : List α} (hl : (l.filterMap f).Nodup) {a b : α}
    (ha : a ∈ l) (hb : b ∈ l) {x : β} (hfa : f a = some x) (hfb : f b = some x) : a = b := by
  induction l with
  | nil => cases ha
  | cons c l ih =>
    have hmem : ∀ d ∈ l, f d = some x → f c = some x → False := by
      intro d hd hfd hfc
      rw [List.filterMap_cons, hfc] at hl
      exact (List.nodup_cons.mp hl).1 (List.mem_filterMap.mpr ⟨d, hd, hfd⟩)
    have hl' : (l.filterMap f).Nodup := by
      rw [List.filterMap_cons] at hl
      split at hl
      · exact hl
      · exact (List.nodup_cons.mp hl).2
    obtain rfl | hal := List.mem_cons.mp ha
    · obtain rfl | hbl := List.mem_cons.mp hb
      · rfl
      · exact (hmem b hbl hfb hfa).elim
    · obtain rfl | hbl := List.mem_cons.mp hb
      · exact (hmem a hal hfa hfb).elim
      · exact ih hl' hal hbl

theorem lt_two_pow_unionTagBits {i count : ℕ} (h : i < count) : i < 2 ^ unionTagBits count := by
  rw [unionTagBits]
  split
  · omega
  · have := lt_two_pow_bitLength (count - 1)
    omega

section
variable {enc : NestedEncoder} {dec : NestedDecoder} {wellFormed : String → Prop}
  {least : String → ℕ} {typed : String → DronecanValue → Prop}
  {same : String → DronecanValue → DronecanValue → Prop}
  {sect : DronecanSectionDesc} {record : DronecanRecord}

theorem structure_roundTrip (hn : NestedRoundTrip enc dec wellFormed least typed same)
    (hu : sect.union = false) (hw : SectionWellFormed wellFormed least sect)
    (hv : RecordTyped PrimitiveStored typed sect record) (tail : Bool) :
    RoundTrip (encodeSection enc sect record tail) (decodeSection dec sect tail) tail
      (sectionLeastBits least sect) (SameRecord same sect record) := by
  obtain ⟨hkeys, htyped⟩ := hv
  rw [hu, if_neg (by decide)] at hkeys
  have hfields : ∀ field ∈ sect.fields, ∀ n, field.n = some n → ∃ v, record.get n = some v ∧
      WellTyped PrimitiveStored typed field.t v := by
    intro field hfield n hname
    have hmem : n ∈ record.keys :=
      hkeys.mem_iff.mpr (List.mem_filterMap.mpr ⟨field, hfield, hname⟩)
    obtain ⟨v, hget⟩ := Option.isSome_iff_exists.mp (Entries.isSome_get_iff.mpr hmem)
    exact ⟨v, hget, htyped field hfield n hname v hget⟩
  obtain ⟨bits, final, henc, hleast, hcarries, hfinal⟩ :=
    fields_roundTrip hn tail hw.types hw.padding hfields [] (by simpa [Entries.keys] using hw.names)
  have hsame : SameRecord same sect record final := by
    refine ⟨?_, fun field hfield n hname v hget => ?_⟩
    · rw [hfinal.keys]
      exact hkeys.symm
    · obtain ⟨v', w, hget', hw', hsame⟩ := hfinal.read field hfield n hname
      obtain rfl := Option.some.inj (hget.symm.trans hget')
      exact ⟨w, hw', hsame⟩
  refine ⟨bits, final, ?_, ?_, ?_, hsame⟩
  · rw [encodeSection, hu, if_neg (by decide), henc]
  · simpa only [sectionLeastBits, hu, if_neg Bool.false_ne_true] using hleast
  · rw [decodeSection, hu, if_neg (by decide)]
    exact hcarries

theorem union_roundTrip (hn : NestedRoundTrip enc dec wellFormed least typed same)
    (hu : sect.union = true) (hw : SectionWellFormed wellFormed least sect)
    (hv : RecordTyped PrimitiveStored typed sect record) (tail : Bool) :
    RoundTrip (encodeSection enc sect record tail) (decodeSection dec sect tail) tail
      (sectionLeastBits least sect) (SameRecord same sect record) := by
  obtain ⟨hkeys, htyped⟩ := hv
  rw [hu, if_pos rfl] at hkeys
  obtain ⟨chosen, hchosen, n, v, hname, rfl⟩ := hkeys
  have hnamed : some n ∈ sect.fields.map DronecanFieldDesc.n :=
    List.mem_map.mpr ⟨chosen, hchosen, hname⟩
  obtain ⟨tag, htag⟩ : ∃ i, i = (sect.fields.map DronecanFieldDesc.n).idxOf (some n) := ⟨_, rfl⟩
  have hlt : tag < sect.fields.length := by
    rw [htag, ← List.length_map DronecanFieldDesc.n]
    exact List.idxOf_lt_length_iff.mpr hnamed
  have hfield : sect.fields[tag]? = some sect.fields[tag] := List.getElem?_eq_getElem hlt
  have hmem : sect.fields[tag] ∈ sect.fields := List.getElem_mem hlt
  have hfieldName : sect.fields[tag].n = some n := by
    have h := List.getElem_idxOf (List.idxOf_lt_length_iff.mpr hnamed)
    rw [List.getElem_map] at h
    simpa only [htag] using h
  have hget : Entries.get [(n, v)] n = some v := by simp [Entries.get]
  obtain ⟨bits, w, henc, hleast, hcarries, hsame⟩ := type_roundTrip hn (hw.types _ hmem)
    (htyped _ hmem n hfieldName v hget) tail
  obtain ⟨tagBits, htagBits⟩ : ∃ k, k = unionTagBits sect.fields.length := ⟨_, rfl⟩
  obtain ⟨tagged, htagged⟩ : ∃ s : Bits, s = if tagBits = 0 then [] else binary tagBits tag := ⟨_, rfl⟩
  have hpow := lt_two_pow_unionTagBits hlt
  rw [← htagBits] at hpow
  have hlen : tagged.length = tagBits := by
    by_cases h0 : tagBits = 0
    · simp [htagged, h0]
    · rw [htagged, if_neg h0, length_binary (Nat.pos_of_ne_zero h0) hpow]
  have hval : ofBits tagged = tag := by
    by_cases h0 : tagBits = 0
    · rw [h0, pow_zero] at hpow
      obtain rfl : tag = 0 := by omega
      rw [htagged, if_pos h0]
      rfl
    · rw [htagged, if_neg h0, ofBits_binary]
  refine ⟨tagged ++ bits, [(n, w)], ?_, fun ht => ?_, ?_, ?_⟩
  · have hfind : (Entries.keys [(n, v)]).find? (fun key =>
        (sect.fields.map DronecanFieldDesc.n).contains (some key)) = some n := by
      rw [Entries.keys, List.map_singleton, List.find?_cons, List.contains_iff_mem.mpr hnamed]
    rw [encodeSection, hu, if_pos rfl]
    simp only [hfind, ← htag, hfield, Option.bind_some, hget, henc, ← htagBits, ← htagged,
      encodeThen_ok]
  · rw [sectionLeastBits, hu, if_pos rfl, List.length_append, hlen, ← htagBits]
    exact Nat.add_le_add_left (le_trans (leastOf_le (List.mem_map.mpr ⟨_, hmem, rfl⟩)) (hleast ht)) _
  · intro stream pos rest hle hahead htail
    rw [List.append_assoc] at hahead
    have htake : (Cursor.ahead ⟨stream, pos⟩).take tagBits = tagged := by
      rw [hahead, List.take_left' hlen]
    have hpos := Cursor.add_le_length hle hahead
    rw [hlen] at hpos
    have hahead' := Cursor.ahead_add hahead
    rw [hlen] at hahead'
    obtain ⟨next, hread, hnext⟩ := hcarries stream _ rest hpos hahead' htail
    refine ⟨next, ?_, fun ht => ?_⟩
    · rw [decodeSection, hu, if_pos rfl]
      simp only [← htagBits, htake, hval, if_neg hpos.not_gt, hfield, Reader.bind, hread,
        hfieldName, Reader.pure]
    · rw [hnext ht, List.length_append, hlen, Nat.add_assoc]
  · refine ⟨List.Perm.refl _, fun field hf m hm u hu' => ?_⟩
    obtain rfl : m = n := by
      by_contra hne
      simp [Entries.get, Ne.symm hne] at hu'
    obtain rfl := Option.some.inj (hget.symm.trans hu')
    have hsameField : field = sect.fields[tag] :=
      eq_of_nodup_filterMap hw.names hf hmem hm hfieldName
    refine ⟨w, by simp [Entries.get], ?_⟩
    rw [hsameField]
    exact hsame

end


theorem section_roundTrip {enc : NestedEncoder} {dec : NestedDecoder} {wellFormed : String → Prop}
    {least : String → ℕ} {typed : String → DronecanValue → Prop}
    {same : String → DronecanValue → DronecanValue → Prop}
    (hn : NestedRoundTrip enc dec wellFormed least typed same) {sect : DronecanSectionDesc}
    (hw : SectionWellFormed wellFormed least sect) {record : DronecanRecord}
    (hv : RecordTyped PrimitiveStored typed sect record) (tail : Bool) :
    RoundTrip (encodeSection enc sect record tail) (decodeSection dec sect tail) tail
      (sectionLeastBits least sect) (SameRecord same sect record) := by
  cases hu : sect.union with
  | false => exact structure_roundTrip hn hu hw hv tail
  | true => exact union_roundTrip hn hu hw hv tail

theorem nested_roundTrip (resolve : DronecanSectionResolver) (depth : ℕ) :
    NestedRoundTrip (encodeNested resolve depth) (decodeNested resolve depth)
      (NestedWellFormed resolve depth) (nestedLeastBits resolve depth)
      (NestedTyped PrimitiveStored resolve depth) (NestedSame resolve depth) := by
  induction depth with
  | zero =>
    intro r v tail hw
    exact hw.elim
  | succ depth ih =>
    intro r v tail hw hv
    obtain ⟨sect, hsect, hwf⟩ := hw
    obtain ⟨sect', record, hsect', rfl, hrecord⟩ := hv
    obtain rfl := Except.ok.inj (hsect.symm.trans hsect')
    obtain ⟨bits, final, henc, hleast, hcarries, hsame⟩ := section_roundTrip ih hwf hrecord tail
    refine ⟨bits, .record final, ?_, ?_, ?_, ⟨sect, record, final, hsect, rfl, rfl, hsame⟩⟩
    · simp only [encodeNested, hsect, henc]
    · simpa only [nestedLeastBits, hsect] using hleast
    · have hmap := hcarries.map DronecanValue.record
      intro stream pos rest hle hahead htail
      obtain ⟨next, hread, hnext⟩ := hmap stream pos rest hle hahead htail
      exact ⟨next, by simp only [decodeNested, hsect, hread], hnext⟩

/-- Every value of a schema but an infinity in a saturated float encodes, and its bytes decode to
that value, with tail array optimisation and without. -/
theorem decode_encode (resolve : DronecanSectionResolver) (depth : ℕ) (sect : DronecanSectionDesc)
    (hw : SectionWellFormed (NestedWellFormed resolve depth) (nestedLeastBits resolve depth) sect)
    (record : DronecanRecord)
    (hv : RecordTyped PrimitiveStored (NestedTyped PrimitiveStored resolve depth) sect record)
    (tao : Bool) :
    ∃ payload decoded,
      encodeDronecanSection depth sect record resolve tao = .ok payload ∧
      decodeDronecanSection depth sect payload resolve tao = .ok decoded ∧
      SameRecord (NestedSame resolve depth) sect record decoded := by
  obtain ⟨bits, decoded, henc, -, hcarries, hsame⟩ :=
    section_roundTrip (nested_roundTrip resolve depth) hw hv tao
  obtain ⟨pad, hpad, hbytes⟩ := bitsFromBytes_bytesFromBits bits
  refine ⟨bytesFromBits bits, decoded, ?_, ?_, hsame⟩
  · rw [encodeDronecanSection, henc]
    rfl
  · obtain ⟨next, hread, -⟩ := hcarries (bitsFromBytes (bytesFromBits bits)) 0 pad (Nat.zero_le _)
      hbytes fun _ => hpad
    rw [decodeDronecanSection, hread]
    rfl


/-! ## A schema with everything in it, and an infinity that is lost -/

/-- A union of a short integer and a text, under the name `Item`. -/
def itemTypes : DronecanSectionResolver := fun r =>
  if r = "Item" then
    .ok ⟨true, [⟨some "level", .primitive ⟨.u, 7, some .s⟩⟩,
      ⟨some "text", .array (.primitive ⟨.u, 8, some .t⟩) .d 4 8⟩]⟩
  else .error (.codecError "no such type")

def itemList : DronecanSectionDesc :=
  ⟨false, [⟨some "id", .primitive ⟨.i, 12, some .s⟩⟩, ⟨none, .void 3⟩,
    ⟨some "scale", .primitive ⟨.f, 16, some .s⟩⟩, ⟨some "items", .array (.compound "Item") .d 5 1⟩]⟩

def itemValue : DronecanRecord :=
  [("items", .array [.record [("level", .number (.finite false 5))],
      .record [("text", .array [.number (.finite false 72), .bigint 105])]]),
    ("id", .number (.finite true 3)), ("scale", .number .nan)]

theorem itemList_wellFormed :
    SectionWellFormed (NestedWellFormed itemTypes 1) (nestedLeastBits itemTypes 1) itemList := by
  refine ⟨by decide, by simp [itemList, DronecanTypeDesc.isVoid], ?_, by simp [itemList]⟩
  simp only [itemList, List.forall_mem_cons, WellFormed,
    PrimitiveDesc.WellFormed, NestedWellFormed]
  refine ⟨by decide, trivial, by decide, ⟨rfl, by decide, by decide, _, rfl, ?_⟩, by simp⟩
  refine ⟨by decide, by simp [DronecanTypeDesc.isVoid], ?_, by simp⟩
  simp [WellFormed, PrimitiveDesc.WellFormed, leastBits, DronecanTypeDesc.isVoid]

theorem itemValue_typed :
    RecordTyped PrimitiveStored (NestedTyped PrimitiveStored itemTypes 1) itemList itemValue := by
  have hlevel : PrimitiveStored ⟨.u, 7, some .s⟩ (.number (.finite false 5)) :=
    ⟨⟨5, by norm_num [Denotes, JsNumber.signed], by norm_num, by norm_num⟩, by simp⟩
  have hletter : ∀ v ∈ [DronecanValue.number (.finite false 72), .bigint 105],
      PrimitiveStored ⟨.u, 8, some .t⟩ v := by
    rw [List.forall_mem_cons, List.forall_mem_singleton]
    exact ⟨⟨⟨72, by norm_num [Denotes, JsNumber.signed], by norm_num, by norm_num⟩, by simp⟩,
      ⟨⟨105, rfl, by norm_num, by norm_num⟩, by simp⟩⟩
  have hid : PrimitiveStored ⟨.i, 12, some .s⟩ (.number (.finite true 3)) :=
    ⟨⟨-3, by norm_num [Denotes, JsNumber.signed], by norm_num, by norm_num⟩, by simp⟩
  have hscale : PrimitiveStored ⟨.f, 16, some .s⟩ (.number .nan) :=
    ⟨⟨.nan, rfl, binary16.pattern .nan, by decide, FloatFormat.value_pattern_nan (by decide)⟩, by simp⟩
  refine ⟨?_, ?_⟩
  · rw [if_neg (by decide)]
    decide
  simp only [itemList, List.forall_mem_cons]
  refine ⟨?_, ?_, ?_, ?_, by simp⟩
  · rintro _ ⟨⟩ v hv
    cases hv
    exact hid
  · rintro _ ⟨⟩
  · rintro _ ⟨⟩ v hv
    cases hv
    exact hscale
  · rintro _ ⟨⟩ v hv
    cases hv
    refine ⟨by decide, by simp, ?_⟩
    rw [List.forall_mem_cons, List.forall_mem_singleton]
    refine ⟨⟨_, _, rfl, rfl, ⟨_, List.mem_cons_self .., _, _, rfl, rfl⟩, ?_⟩,
      ⟨_, _, rfl, rfl, ⟨_, List.mem_cons_of_mem _ (List.mem_cons_self ..), _, _, rfl, rfl⟩, ?_⟩⟩
    · simp only [List.forall_mem_cons]
      refine ⟨?_, ?_, by simp⟩
      · rintro _ ⟨⟩ v hv
        cases hv
        exact hlevel
      · rintro _ ⟨⟩ v hv
        cases hv
    · simp only [List.forall_mem_cons]
      refine ⟨?_, ?_, by simp⟩
      · rintro _ ⟨⟩ v hv
        cases hv
      · rintro _ ⟨⟩ v hv
        cases hv
        exact ⟨by decide, by simp, hletter⟩

theorem decode_encode_items :
    ∃ payload decoded,
      encodeDronecanSection 1 itemList itemValue itemTypes true = .ok payload ∧
      decodeDronecanSection 1 itemList payload itemTypes true = .ok decoded ∧
      SameRecord (NestedSame itemTypes 1) itemList itemValue decoded :=
  decode_encode itemTypes 1 itemList itemList_wellFormed itemValue itemValue_typed true

def halfSection : DronecanSectionDesc := ⟨false, [⟨some "value", .primitive ⟨.f, 16, some .s⟩⟩]⟩

theorem halfSection_wellFormed :
    SectionWellFormed (NestedWellFormed itemTypes 0) (nestedLeastBits itemTypes 0) halfSection := by
  refine ⟨by decide, by simp [halfSection, DronecanTypeDesc.isVoid], ?_, by simp [halfSection]⟩
  simp [halfSection, WellFormed, PrimitiveDesc.WellFormed]

theorem largest_half : binary16.magnitude (31 * 2 ^ 10 - 1) = 65504 := by
  rw [FloatFormat.magnitude_of_le (by decide), unit_binary16]
  norm_num [binary16]

theorem halfSection_typed {primitive : PrimitiveDesc → DronecanValue → Prop} {v : DronecanValue}
    (hv : primitive ⟨.f, 16, some .s⟩ v) :
    RecordTyped primitive (NestedTyped primitive itemTypes 0) halfSection [("value", v)] := by
  refine ⟨?_, ?_⟩
  · rw [if_neg (by decide)]
    exact List.Perm.refl _
  simp only [halfSection, List.forall_mem_singleton]
  rintro _ ⟨⟩ w hw
  cases hw
  exact hv

/-- Infinity is a half-precision number, and a saturated field turns it into the largest finite
one: it is encoded and decoded, and comes back as another value. -/
theorem saturated_infinity :
    SectionWellFormed (NestedWellFormed itemTypes 0) (nestedLeastBits itemTypes 0) halfSection ∧
    RecordTyped PrimitiveTyped (NestedTyped PrimitiveTyped itemTypes 0) halfSection
      [("value", .number (.infinite false))] ∧
    ∃ payload decoded,
      encodeDronecanSection 0 halfSection [("value", .number (.infinite false))] itemTypes true =
        .ok payload ∧
      decodeDronecanSection 0 halfSection payload itemTypes true = .ok decoded ∧
      decoded.get "value" = some (.number (.finite false 65504)) ∧
      ¬ SameRecord (NestedSame itemTypes 0) halfSection
        [("value", .number (.infinite false))] decoded := by
  have hinfinite : binary16.Holds (.infinite false) :=
    ⟨31 * 2 ^ 10, by decide, FloatFormat.value_infinity (f := binary16) false⟩
  have hlargest : PrimitiveStored ⟨.f, 16, some .s⟩ (.number (.finite false 65504)) := by
    refine ⟨⟨_, rfl, ?_⟩, by simp⟩
    rw [← largest_half]
    exact FloatFormat.holds_magnitude (by decide) false
  have hcast : encodePrimitive ⟨.f, 16, some .s⟩ (some (.number (.infinite false))) =
      encodePrimitive ⟨.f, 16, some .s⟩ (some (.number (.finite false 65504))) := by
    simp [encodePrimitive, castFloat, FLOAT_LIMITS, JsNumber.le, JsNumber.signed]
  have hencode : ∀ x, encodeDronecanSection 0 halfSection [("value", .number x)] itemTypes true =
      (encodeThen ((encodePrimitive ⟨.f, 16, some .s⟩ (some (.number x))).map
        fun bits => leFromBeBits bits 16) (.ok [])).map bytesFromBits := fun _ => rfl
  obtain ⟨payload, decoded, henc, hdec, hkeys, hfields⟩ := decode_encode itemTypes 0 halfSection
    halfSection_wellFormed _ (halfSection_typed hlargest) true
  obtain ⟨w, hw, rfl⟩ := hfields _ (List.mem_singleton.mpr rfl) "value" rfl _ rfl
  rw [hencode, ← hcast, ← hencode] at henc
  refine ⟨halfSection_wellFormed, halfSection_typed ⟨_, rfl, hinfinite⟩, payload, decoded, henc,
    hdec, hw, ?_⟩
  rintro ⟨-, hsame⟩
  obtain ⟨w, hw', rfl⟩ := hsame _ (List.mem_singleton.mpr rfl) "value" rfl _ rfl
  rw [hw] at hw'
  cases hw'

end ArduConfigurator.Dronecan
