import ArduConfigurator.DataFlash.Parser

/-! # Which bytes a message is read from

A field is read from the bytes its type code stands for and from no others, so that a message reads the
same in every view that holds these bytes; a view that ends before them makes the getter throw. -/
namespace ArduConfigurator.DataFlash
set_option autoImplicit false

/-! ## Views that share bytes -/

@[simp] theorem bytes_ofBytes (bytes : Bytes) : (DataView.ofBytes bytes).bytes = bytes := by
  rw [DataView.bytes, DataView.ofBytes, List.drop_zero, List.take_length]

/-- The `n` bytes of `v` from `o` on lie in `v`, and are those of `w` from `p` on. -/
structure Agrees (v w : DataView) (o p n : ℕ) : Prop where
  left : o + n ≤ v.byteLength
  right : p + n ≤ w.byteLength
  same : (v.bytes.drop o).take n = (w.bytes.drop p).take n

namespace Agrees

theorem skip {v w : DataView} {o p n : ℕ} (h : Agrees v w o p n) {k m : ℕ} (hk : k + m ≤ n) :
    Agrees v w (o + k) (p + k) m where
  left := by have := h.left; omega
  right := by have := h.right; omega
  same := by
    have hsame := congrArg (fun bs => (bs.drop k).take m) h.same
    simp only [List.drop_take, List.drop_drop, List.take_take] at hsame
    rwa [min_eq_left (by omega : m ≤ n - k)] at hsame

theorem getBytes {v w : DataView} {o p n : ℕ} (h : Agrees v w o p n) :
    ∃ bs, v.getBytes o n = some bs ∧ w.getBytes p n = some bs := by
  refine ⟨(v.bytes.drop o).take n, if_pos h.left, ?_⟩
  rw [h.same]
  exact if_pos h.right

theorem getUint {v w : DataView} {o p n : ℕ} (h : Agrees v w o p n) :
    ∃ i, v.getUint o n = some i ∧ w.getUint p n = some i := by
  obtain ⟨bs, hv, hw⟩ := h.getBytes
  exact ⟨ofLE bs, by rw [DataView.getUint, hv]; rfl, by rw [DataView.getUint, hw]; rfl⟩

theorem getInt {v w : DataView} {o p n : ℕ} (h : Agrees v w o p n) :
    ∃ i, v.getInt o n = some i ∧ w.getInt p n = some i := by
  obtain ⟨i, hv, hw⟩ := h.getUint
  exact ⟨_, by rw [DataView.getInt, hv]; rfl, by rw [DataView.getInt, hw]; rfl⟩

theorem readString {v w : DataView} {o p n : ℕ} (h : Agrees v w o p n) :
    ∃ text, DataFlash.readString v o n = some text ∧ DataFlash.readString w p n = some text := by
  have hwhole : ∀ (u : DataView) (i : ℕ), i + n ≤ u.byteLength →
      (u.buffer.drop (u.byteOffset + i)).take n = (u.bytes.drop i).take n := by
    intro u i hi
    rw [DataView.bytes, List.drop_take, List.drop_drop, List.take_take, min_eq_left (by omega)]
  have hfit : ∀ (u : DataView) (i : ℕ), i + n ≤ u.byteLength →
      u.byteOffset + i + n ≤ u.buffer.length := by
    intro u i hi
    have := u.within
    omega
  refine ⟨_, if_pos (hfit v o h.left), ?_⟩
  rw [DataFlash.readString, if_pos (hfit w p h.right), hwhole w p h.right, hwhole v o h.left, h.same]

end Agrees

/-! ## Fields -/

/-- A type code reads its `size` bytes and no others. -/
structure TypeCode.Local (code : TypeCode) : Prop where
  reads : ∀ {v w : DataView} {o p : ℕ}, Agrees v w o p code.size →
    ∃ value, code.read v o = some value ∧ code.read w p = some value
  bounded : ∀ {bytes : Bytes} {o : ℕ} {value : FieldValue},
    code.read (.ofBytes bytes) o = some value → o + code.size ≤ bytes.length

namespace TypeCode

theorem getUint_bounded {bytes : Bytes} {o n i : ℕ}
    (h : (DataView.ofBytes bytes).getUint o n = some i) : o + n ≤ bytes.length := by
  by_contra hlt
  have hnone : (DataView.ofBytes bytes).getBytes o n = none := if_neg hlt
  rw [DataView.getUint, hnone] at h
  cases h

theorem getInt_bounded {bytes : Bytes} {o n : ℕ} {i : ℤ}
    (h : (DataView.ofBytes bytes).getInt o n = some i) : o + n ≤ bytes.length := by
  rw [DataView.getInt, Option.map_eq_some_iff] at h
  obtain ⟨k, hk, -⟩ := h
  exact getUint_bounded hk

theorem readString_bounded {bytes : Bytes} {o n : ℕ} {text : String}
    (h : readString (DataView.ofBytes bytes) o n = some text) : o + n ≤ bytes.length := by
  by_contra hlt
  have hnone : readString (DataView.ofBytes bytes) o n = none := by
    refine if_neg fun hle => hlt ?_
    change 0 + o + n ≤ bytes.length at hle
    omega
  rw [hnone] at h
  cases h

theorem local_of_map {α : Type*} {size : ℕ} {get : DataView → ℕ → Option α} {f : α → FieldValue}
    (hget : ∀ {v w : DataView} {o p : ℕ}, Agrees v w o p size →
      ∃ a, get v o = some a ∧ get w p = some a)
    (hbound : ∀ {bytes : Bytes} {o : ℕ} {a : α},
      get (.ofBytes bytes) o = some a → o + size ≤ bytes.length) :
    Local ⟨size, fun view offset => (get view offset).map f⟩ where
  reads h := by
    obtain ⟨a, hv, hw⟩ := hget h
    refine ⟨f a, ?_, ?_⟩
    · change (get _ _).map f = _
      rw [hv, Option.map_some]
    · change (get _ _).map f = _
      rw [hw, Option.map_some]
  bounded h := by
    obtain ⟨a, ha, -⟩ := Option.map_eq_some_iff.mp h
    exact hbound ha

theorem signed_local (size : ℕ) : (signed size).Local :=
  local_of_map (fun h => h.getInt) getInt_bounded

theorem unsigned_local (size : ℕ) : (unsigned size).Local :=
  local_of_map (fun h => h.getUint) getUint_bounded

theorem Local.scaled {code : TypeCode} (h : code.Local) (scale : ℚ≥0) : (code.scaled scale).Local :=
  local_of_map h.reads h.bounded

theorem float_local (format : FloatFormat) (size : ℕ) : (float format size).Local := by
  refine local_of_map (fun h => ?_) (fun h => ?_)
  · obtain ⟨i, hv, hw⟩ := h.getUint
    exact ⟨format.value i, by rw [DataView.getFloat, hv]; rfl, by rw [DataView.getFloat, hw]; rfl⟩
  · obtain ⟨i, hi, -⟩ := Option.map_eq_some_iff.mp h
    exact getUint_bounded hi

theorem string_local (size : ℕ) : (string size).Local :=
  local_of_map (fun h => h.readString) readString_bounded

theorem batch_local : batch.Local := by
  refine local_of_map (fun {v w o p} h => ?_) (fun {bytes o a} h => ?_)
  · have hread : ∀ is : List ℕ, (∀ i ∈ is, i < 32) → ∃ values,
        (is.mapM fun i => v.getInt (o + i * 2) 2) = some values ∧
          (is.mapM fun i => w.getInt (p + i * 2) 2) = some values := by
      intro is his
      induction is with
      | nil => exact ⟨[], rfl, rfl⟩
      | cons i is ih =>
        obtain ⟨values, hv, hw⟩ := ih fun j hj => his j (List.mem_cons_of_mem _ hj)
        have hi := his i (List.mem_cons_self ..)
        obtain ⟨k, hkv, hkw⟩ := (h.skip (k := i * 2) (m := 2) (by omega)).getInt
        exact ⟨k :: values, by rw [List.mapM_cons, hkv, hv]; rfl,
          by rw [List.mapM_cons, hkw, hw]; rfl⟩
    exact hread (List.range 32) fun i hi => List.mem_range.mp hi
  · have hall : ∀ (is : List ℕ) (values : List ℤ),
        (is.mapM fun i => (DataView.ofBytes bytes).getInt (o + i * 2) 2) = some values →
          ∀ i ∈ is, o + i * 2 + 2 ≤ bytes.length := by
      intro is
      induction is with
      | nil => exact fun _ _ _ hi => absurd hi List.not_mem_nil
      | cons j is ih =>
        intro values hvalues i hi
        rw [List.mapM_cons] at hvalues
        obtain ⟨k, hk, hvalues⟩ := Option.bind_eq_some_iff.mp hvalues
        obtain ⟨rest, hrest, -⟩ := Option.bind_eq_some_iff.mp hvalues
        obtain rfl | hi := List.mem_cons.mp hi
        · exact getInt_bounded hk
        · exact ih rest hrest i hi
    exact hall (List.range 32) a h 31 (by decide)

end TypeCode

theorem typeCodes_local {ch : Char} {code : TypeCode} (h : TYPE_CODES ch = some code) :
    code.Local := by
  unfold TYPE_CODES at h
  split at h <;> first
    | (cases h
       first
         | exact TypeCode.signed_local _
         | exact TypeCode.unsigned_local _
         | exact TypeCode.float_local _ _
         | exact TypeCode.string_local _
         | exact (TypeCode.signed_local _).scaled _
         | exact (TypeCode.unsigned_local _).scaled _
         | exact TypeCode.batch_local)
    | cases h

/-! ## Messages -/

def sizes (chars : List Char) : Option (List ℕ) :=
  chars.mapM fun ch => (TYPE_CODES ch).map TypeCode.size

theorem sizes_cons {ch : Char} {rest : List Char} {ns : List ℕ} (h : sizes (ch :: rest) = some ns) :
    ∃ code ms, TYPE_CODES ch = some code ∧ sizes rest = some ms ∧ ns = code.size :: ms := by
  rw [sizes, List.mapM_cons] at h
  obtain ⟨n, hn, h⟩ := Option.bind_eq_some_iff.mp h
  obtain ⟨ms, hms, h⟩ := Option.bind_eq_some_iff.mp h
  obtain ⟨code, hcode, rfl⟩ := Option.map_eq_some_iff.mp hn
  exact ⟨code, ms, hcode, hms, (Option.some.inj h).symm⟩

theorem decodeFields_cons {view : DataView} {columns : List String} {ch : Char} {rest : List Char}
    {i offset : ℕ} {message : DataflashMessage} {code : TypeCode} (hcode : TYPE_CODES ch = some code) :
    decodeFields view columns (ch :: rest) i offset message =
      (code.read view offset).bind fun value =>
        decodeFields view columns rest (i + 1) (offset + code.size)
          (setColumn message (columns.getD i ("f" ++ toString i)) value) := by
  rw [decodeFields, hcode]
  rfl

theorem decodeFields_agrees {v w : DataView} {columns : List String} {chars : List Char} {ns : List ℕ}
    {i o p : ℕ} {message : DataflashMessage} (hsizes : sizes chars = some ns)
    (h : Agrees v w o p ns.sum) :
    ∃ m, decodeFields v columns chars i o message = some m ∧
      decodeFields w columns chars i p message = some m := by
  induction chars generalizing ns i o p message with
  | nil => exact ⟨message, rfl, rfl⟩
  | cons ch rest ih =>
    obtain ⟨code, ms, hcode, hms, rfl⟩ := sizes_cons hsizes
    rw [List.sum_cons] at h
    obtain ⟨value, hv, hw⟩ := (typeCodes_local hcode).reads
      (show Agrees v w o p code.size from h.skip (k := 0) (by omega))
    have hrest : Agrees v w (o + code.size) (p + code.size) ms.sum :=
      h.skip (k := code.size) (m := ms.sum) (by omega)
    obtain ⟨m, hmv, hmw⟩ := @ih ms (i + 1) (o + code.size) (p + code.size)
      (setColumn message (columns.getD i ("f" ++ toString i)) value) hms hrest
    refine ⟨m, ?_, ?_⟩
    · rw [decodeFields_cons hcode, hv]
      exact hmv
    · rw [decodeFields_cons hcode, hw]
      exact hmw

theorem decodeFields_bounded {bytes : Bytes} {columns : List String} {chars : List Char}
    {ns : List ℕ} {i o : ℕ} {message m : DataflashMessage} (hsizes : sizes chars = some ns)
    (ho : o ≤ bytes.length)
    (h : decodeFields (.ofBytes bytes) columns chars i o message = some m) :
    o + ns.sum ≤ bytes.length := by
  induction chars generalizing ns i o message with
  | nil =>
    cases hsizes
    exact ho
  | cons ch rest ih =>
    obtain ⟨code, ms, hcode, hms, rfl⟩ := sizes_cons hsizes
    rw [decodeFields_cons hcode] at h
    obtain ⟨value, hread, h⟩ := Option.bind_eq_some_iff.mp h
    have := ih hms ((typeCodes_local hcode).bounded hread) h
    rw [List.sum_cons]
    omega

end ArduConfigurator.DataFlash
