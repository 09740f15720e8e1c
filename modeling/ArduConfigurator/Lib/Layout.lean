import ArduConfigurator.Lib.LittleEndian
import Mathlib.Data.List.Pairwise

/-! # Fixed layouts of fields in a byte buffer

A writer allocates a zeroed buffer and stores fields at fixed offsets, in any order; a reader takes
them out again. Fields that fit and lie apart all read back as they were written, and everything
else stays zero. -/
namespace ArduConfigurator
set_option autoImplicit false

/-- What a JavaScript function can throw here. -/
inductive Thrown
  | rangeError
  | error (message : String)
  deriving DecidableEq

/-- A value a `DataView` stores in `width` little-endian bytes. -/
class Wire (α : Type) where
  width : ℕ
  toNat : α → ℕ
  ofNat : ℕ → α
  toNat_lt : ∀ a, toNat a < 256 ^ width
  ofNat_toNat : ∀ a, ofNat (toNat a) = a
  toNat_ofNat : ∀ n, n < 256 ^ width → toNat (ofNat n) = n

instance : Wire UInt8 where
  width := 1
  toNat := UInt8.toNat
  ofNat := UInt8.ofNat
  toNat_lt a := a.toNat_lt
  ofNat_toNat a := UInt8.ofNat_toNat
  toNat_ofNat n h := by rw [UInt8.toNat_ofNat', Nat.mod_eq_of_lt (by omega)]

instance : Wire UInt16 where
  width := 2
  toNat := UInt16.toNat
  ofNat := UInt16.ofNat
  toNat_lt a := a.toNat_lt
  ofNat_toNat a := UInt16.ofNat_toNat
  toNat_ofNat n h := by rw [UInt16.toNat_ofNat', Nat.mod_eq_of_lt (by omega)]

instance : Wire UInt32 where
  width := 4
  toNat := UInt32.toNat
  ofNat := UInt32.ofNat
  toNat_lt a := a.toNat_lt
  ofNat_toNat a := UInt32.ofNat_toNat
  toNat_ofNat n h := by rw [UInt32.toNat_ofNat', Nat.mod_eq_of_lt (by omega)]

instance : Wire UInt64 where
  width := 8
  toNat := UInt64.toNat
  ofNat := UInt64.ofNat
  toNat_lt a := a.toNat_lt
  ofNat_toNat a := UInt64.ofNat_toNat
  toNat_ofNat n h := by rw [UInt64.toNat_ofNat', Nat.mod_eq_of_lt (by omega)]

instance : Wire Int8 where
  width := 1
  toNat a := a.toUInt8.toNat
  ofNat n := (UInt8.ofNat n).toInt8
  toNat_lt a := a.toUInt8.toNat_lt
  ofNat_toNat a := by rw [UInt8.ofNat_toNat]; rfl
  toNat_ofNat n h := by
    show (UInt8.ofNat n).toNat = n
    rw [UInt8.toNat_ofNat', Nat.mod_eq_of_lt (by omega)]

instance : Wire Int16 where
  width := 2
  toNat a := a.toUInt16.toNat
  ofNat n := (UInt16.ofNat n).toInt16
  toNat_lt a := a.toUInt16.toNat_lt
  ofNat_toNat a := by rw [UInt16.ofNat_toNat]; rfl
  toNat_ofNat n h := by
    show (UInt16.ofNat n).toNat = n
    rw [UInt16.toNat_ofNat', Nat.mod_eq_of_lt (by omega)]

instance : Wire Int32 where
  width := 4
  toNat a := a.toUInt32.toNat
  ofNat n := (UInt32.ofNat n).toInt32
  toNat_lt a := a.toUInt32.toNat_lt
  ofNat_toNat a := by rw [UInt32.ofNat_toNat]; rfl
  toNat_ofNat n h := by
    show (UInt32.ofNat n).toNat = n
    rw [UInt32.toNat_ofNat', Nat.mod_eq_of_lt (by omega)]

@[simp] theorem width_uint8 : Wire.width UInt8 = 1 := rfl
@[simp] theorem width_uint16 : Wire.width UInt16 = 2 := rfl
@[simp] theorem width_uint32 : Wire.width UInt32 = 4 := rfl
@[simp] theorem width_uint64 : Wire.width UInt64 = 8 := rfl
@[simp] theorem width_int8 : Wire.width Int8 = 1 := rfl
@[simp] theorem width_int16 : Wire.width Int16 = 2 := rfl
@[simp] theorem width_int32 : Wire.width Int32 = 4 := rfl

/-! ## Reading -/

/-- A `DataView` getter. -/
def get (α : Type) [Wire α] (bs : Bytes) (off : ℕ) : Except Thrown α :=
  match readLE bs off (Wire.width α) with
  | some n => .ok (Wire.ofNat n)
  | none => .error .rangeError

/-- Getters at `off`, `off + width`, … -/
def getArray (α : Type) [Wire α] (bs : Bytes) (off : ℕ) : ℕ → Except Thrown (List α)
  | 0 => .ok []
  | n + 1 => do
      let head ← get α bs off
      let tail ← getArray α bs (off + Wire.width α) n
      .ok (head :: tail)

/-- The field at `off` of a buffer that is long enough. -/
def fieldAt (α : Type) [Wire α] (bs : Bytes) (off : ℕ) : α :=
  Wire.ofNat (ofLE (slice bs off (Wire.width α)))

def fieldsAt (α : Type) [Wire α] (bs : Bytes) (off : ℕ) : ℕ → List α
  | 0 => []
  | n + 1 => fieldAt α bs off :: fieldsAt α bs (off + Wire.width α) n

@[simp] theorem ok_bind {ε α β : Type} (a : α) (f : α → Except ε β) :
    (Except.ok a >>= f) = f a := rfl

variable {α : Type}

theorem bind_eq_ok {ε β : Type} {x : Except ε α} {f : α → Except ε β} {b : β} :
    (x >>= f) = .ok b ↔ ∃ a, x = .ok a ∧ f a = .ok b := by
  cases x with
  | error e =>
    constructor
    · rintro ⟨⟩
    · rintro ⟨a, ⟨⟩, -⟩
  | ok a =>
    constructor
    · exact fun h => ⟨a, rfl, h⟩
    · rintro ⟨a', ⟨⟩, h⟩
      exact h

variable {off : ℕ} {bs : Bytes}

/-- The bytes of a buffer read without an exception wherever it is long enough. -/
theorem get_eq_ok [Wire α] (h : off + Wire.width α ≤ bs.length) :
    get α bs off = .ok (fieldAt α bs off) := by
  rw [get, readLE, if_pos h, fieldAt]

theorem getArray_eq_ok [Wire α] {n : ℕ} (h : off + n * Wire.width α ≤ bs.length) :
    getArray α bs off n = .ok (fieldsAt α bs off n) := by
  induction n generalizing off with
  | zero => rfl
  | succ n ih =>
    rw [Nat.succ_mul] at h
    rw [getArray, get_eq_ok (by omega), ih (by omega)]
    rfl

/-! ## Writing -/

/-- Bytes, and where they go. -/
structure Write where
  off : ℕ
  bytes : Bytes

/-- A `DataView` setter. -/
def put {α : Type} [Wire α] (off : ℕ) (a : α) : Write :=
  ⟨off, leBytes (Wire.width α) (Wire.toNat a)⟩

/-- Setters at `off`, `off + width`, … -/
def putArray {α : Type} [Wire α] (off : ℕ) (as : List α) : Write :=
  ⟨off, as.flatMap fun a => leBytes (Wire.width α) (Wire.toNat a)⟩

/-- `payload.set(bytes, off)`. -/
def putBytes (off : ℕ) (bytes : Bytes) : Write := ⟨off, bytes⟩

/-- The write stays inside a buffer of `size` bytes. -/
def Write.Fits (size : ℕ) (w : Write) : Prop := w.off + w.bytes.length ≤ size

instance (size : ℕ) (w : Write) : Decidable (w.Fits size) :=
  inferInstanceAs (Decidable (_ ≤ _))

/-- The two writes touch no byte in common. -/
def Write.Apart (v w : Write) : Prop :=
  v.off + v.bytes.length ≤ w.off ∨ w.off + w.bytes.length ≤ v.off

/-- The buffer of `size` zeros after the writes. -/
def written (size : ℕ) (ws : List Write) : Bytes :=
  ws.foldl (fun buffer w => splice buffer w.off w.bytes) (List.replicate size 0)

/-- `new Uint8Array(size)` and the writes; one past the end throws. -/
def build (size : ℕ) (ws : List Write) : Except Thrown Bytes :=
  if ∀ w ∈ ws, w.Fits size then .ok (written size ws) else .error .rangeError

/-! ## Reading back -/

/-- The buffer holds what the write stored. -/
def Stored (buffer : Bytes) (w : Write) : Prop :=
  w.off + w.bytes.length ≤ buffer.length ∧ slice buffer w.off w.bytes.length = w.bytes

variable {ws : List Write} {buffer : Bytes}

theorem foldl_splice_length (h : ∀ w ∈ ws, w.Fits buffer.length) :
    (ws.foldl (fun buffer w => splice buffer w.off w.bytes) buffer).length = buffer.length := by
  induction ws generalizing buffer with
  | nil => rfl
  | cons w ws ih =>
    have hw := splice_length (h w List.mem_cons_self)
    rw [List.foldl_cons, ih (fun v hv => hw.symm ▸ h v (List.mem_cons_of_mem w hv)), hw]

variable {size : ℕ}

theorem written_length (h : ∀ w ∈ ws, w.Fits size) :
    (written size ws).length = size := by
  have hzero : (List.replicate size (0 : UInt8)).length = size := List.length_replicate
  rw [written, foldl_splice_length (by rwa [hzero]), hzero]

theorem slice_foldl_of_apart {n : ℕ} (h : ∀ w ∈ ws, w.Fits buffer.length)
    (hd : ∀ w ∈ ws, off + n ≤ w.off ∨ w.off + w.bytes.length ≤ off) :
    slice (ws.foldl (fun buffer w => splice buffer w.off w.bytes) buffer) off n =
      slice buffer off n := by
  induction ws generalizing buffer with
  | nil => rfl
  | cons w ws ih =>
    have hw := splice_length (h w List.mem_cons_self)
    rw [List.foldl_cons, ih (fun v hv => hw.symm ▸ h v (List.mem_cons_of_mem w hv))
      (fun v hv => hd v (List.mem_cons_of_mem w hv)),
      slice_splice_of_disjoint (h w List.mem_cons_self) (hd w List.mem_cons_self)]

theorem stored_foldl (h : ∀ w ∈ ws, w.Fits buffer.length) (hd : ws.Pairwise Write.Apart) {w : Write}
    (hw : w ∈ ws) :
    Stored (ws.foldl (fun buffer w => splice buffer w.off w.bytes) buffer) w := by
  refine ⟨by rw [foldl_splice_length h]; exact h w hw, ?_⟩
  induction ws generalizing buffer with
  | nil => cases hw
  | cons v ws ih =>
    have hv := splice_length (h v List.mem_cons_self)
    have hrest : ∀ u ∈ ws, u.Fits (splice buffer v.off v.bytes).length :=
      fun u hu => hv.symm ▸ h u (List.mem_cons_of_mem v hu)
    rw [List.pairwise_cons] at hd
    rw [List.foldl_cons]
    obtain rfl | hw := List.mem_cons.mp hw
    · rw [slice_foldl_of_apart hrest fun u hu => hd.1 u hu,
        slice_splice_self (h w List.mem_cons_self)]
    · exact ih hrest hd.2 hw

theorem build_spec (hfit : ∀ w ∈ ws, w.Fits size) (hd : ws.Pairwise Write.Apart) :
    ∃ buffer, build size ws = .ok buffer ∧ buffer.length = size ∧ ∀ w ∈ ws, Stored buffer w := by
  refine ⟨written size ws, if_pos hfit, written_length hfit, fun w hw => ?_⟩
  exact stored_foldl (by rwa [List.length_replicate]) hd hw

/-- From `lo` on, each write starts where the one before it has ended, and the last ends by
`size`. -/
def Laid (size : ℕ) : ℕ → List Write → Prop
  | lo, [] => lo ≤ size
  | lo, w :: ws => lo ≤ w.off ∧ Laid size (w.off + w.bytes.length) ws

@[simp] theorem laid_nil {size lo : ℕ} : Laid size lo [] ↔ lo ≤ size := Iff.rfl

@[simp] theorem laid_cons {size lo : ℕ} {w : Write} {ws : List Write} :
    Laid size lo (w :: ws) ↔ lo ≤ w.off ∧ Laid size (w.off + w.bytes.length) ws := Iff.rfl

variable {lo : ℕ}

theorem Laid.bounds (h : Laid size lo ws) :
    lo ≤ size ∧ ∀ w ∈ ws, lo ≤ w.off ∧ w.Fits size := by
  induction ws generalizing lo with
  | nil => exact ⟨h, fun w hw => by cases hw⟩
  | cons v ws ih =>
    obtain ⟨hle, hrest⟩ := ih h.2
    refine ⟨by have := h.1; omega, fun w hw => ?_⟩
    obtain rfl | hw := List.mem_cons.mp hw
    · exact ⟨h.1, hle⟩
    · have hv := h.1
      obtain ⟨hlo, hfit⟩ := hrest w hw
      exact ⟨by omega, hfit⟩

theorem Laid.pairwise (h : Laid size lo ws) :
    ws.Pairwise Write.Apart := by
  induction ws generalizing lo with
  | nil => exact List.Pairwise.nil
  | cons v ws ih => exact List.pairwise_cons.mpr ⟨fun w hw => .inl (h.2.bounds.2 w hw).1, ih h.2⟩

theorem build_laid (h : Laid size 0 ws) :
    ∃ buffer, build size ws = .ok buffer ∧ buffer.length = size ∧ ∀ w ∈ ws, Stored buffer w :=
  build_spec (fun w hw => (h.bounds.2 w hw).2) h.pairwise

@[simp] theorem put_off {α : Type} [Wire α] (off : ℕ) (a : α) : (put off a).off = off := rfl

@[simp] theorem put_length {α : Type} [Wire α] (off : ℕ) (a : α) :
    (put off a).bytes.length = Wire.width α := leBytes_length _ _

theorem flatMap_leBytes_length [Wire α] (as : List α) :
    (as.flatMap fun a => leBytes (Wire.width α) (Wire.toNat a)).length =
      as.length * Wire.width α := by
  induction as with
  | nil => simp
  | cons a as ih =>
    rw [List.flatMap_cons, List.length_append, ih, leBytes_length, List.length_cons, Nat.succ_mul,
      Nat.add_comm]

@[simp] theorem putArray_off {α : Type} [Wire α] (off : ℕ) (as : List α) :
    (putArray off as).off = off := rfl

@[simp] theorem putArray_length {α : Type} [Wire α] (off : ℕ) (as : List α) :
    (putArray off as).bytes.length = as.length * Wire.width α := flatMap_leBytes_length as

theorem get_of_stored [Wire α] {a : α} (h : Stored buffer (put off a)) :
    get α buffer off = .ok a := by
  obtain ⟨hfit, hslice⟩ := h
  rw [put_length, put_off] at hfit hslice
  have hread : readLE buffer off (Wire.width α) = some (Wire.toNat a) := by
    rw [readLE, if_pos hfit]
    exact congrArg some ((congrArg ofLE hslice).trans (ofLE_leBytes_of_lt (Wire.toNat_lt a)))
  rw [get, hread]
  exact congrArg Except.ok (Wire.ofNat_toNat a)

theorem stored_put [Wire α] {a : α} :
    Stored buffer (put off a) ↔ get α buffer off = .ok a := by
  refine ⟨get_of_stored, fun h => ?_⟩
  by_cases hfit : off + Wire.width α ≤ buffer.length
  · rw [get_eq_ok hfit, Except.ok.injEq] at h
    have hlt := ofLE_lt (slice buffer off (Wire.width α))
    rw [slice_length hfit] at hlt
    refine ⟨by rwa [put_length, put_off], ?_⟩
    have hle := leBytes_ofLE (slice buffer off (Wire.width α))
    rw [slice_length hfit] at hle
    rw [put_length, put_off, ← hle, ← Wire.toNat_ofNat _ hlt]
    exact congrArg (fun a => leBytes (Wire.width α) (Wire.toNat a)) h
  · rw [get, readLE, if_neg hfit] at h
    cases h

@[simp] theorem putBytes_off (off : ℕ) (bytes : Bytes) : (putBytes off bytes).off = off := rfl

@[simp] theorem putBytes_bytes (off : ℕ) (bytes : Bytes) : (putBytes off bytes).bytes = bytes := rfl

theorem stored_putBytes {bytes : Bytes} :
    Stored buffer (putBytes off bytes) ↔
      off + bytes.length ≤ buffer.length ∧ slice buffer off bytes.length = bytes := Iff.rfl

theorem getArray_of_stored [Wire α] {as : List α} (h : Stored buffer (putArray off as)) :
    getArray α buffer off as.length = .ok as := by
  induction as generalizing off with
  | nil => rfl
  | cons a as ih =>
    obtain ⟨hfit, hslice⟩ := h
    have hlen := putArray_length off (a :: as)
    rw [hlen] at hfit hslice
    rw [List.length_cons, Nat.succ_mul] at hfit hslice
    have hbytes : (putArray off (a :: as)).bytes =
        leBytes (Wire.width α) (Wire.toNat a) ++ (putArray (off + Wire.width α) as).bytes := rfl
    have hhead : Stored buffer (put off a) := by
      refine ⟨by rw [put_length, put_off]; rw [putArray_off] at hfit; omega, ?_⟩
      rw [put_length, put_off]
      have := congrArg (List.take (Wire.width α)) hslice
      rw [hbytes, List.take_left' (leBytes_length _ _), slice, List.take_take,
        Nat.min_eq_left (by omega)] at this
      exact this
    have htail : Stored buffer (putArray (off + Wire.width α) as) := by
      rw [putArray_off] at hfit
      refine ⟨by rw [putArray_length, putArray_off]; omega, ?_⟩
      rw [putArray_length, putArray_off]
      have := congrArg (List.drop (Wire.width α)) hslice
      rw [hbytes, List.drop_left' (leBytes_length _ _), slice, List.drop_take, List.drop_drop,
        putArray_off, Nat.add_sub_cancel] at this
      exact this
    rw [List.length_cons, getArray, get_of_stored hhead, ih htail]
    rfl

end ArduConfigurator
