import ArduConfigurator.DataFlash.Parser
import ArduConfigurator.Lib.Strings

/-! # The packed parameter file

`parseParamPck` of `param-pck.ts`, the reader of the autopilot's `@PARAM/param.pck`, and the format
that the head of that file describes. Names are texts of one-byte characters. -/
namespace ArduConfigurator.Parameters.ParamPck
set_option autoImplicit false
open DataFlash (DataView byteAt)

structure ParamPckEntry where
  name : Text
  value : JsNumber
  nonDefault : Bool
  defaultValue : Option JsNumber

structure ParamPckResult where
  withDefaults : Bool
  entries : List ParamPckEntry
  nonDefaultParamIds : List Text
  defaultsByParamId : JsMap Text JsNumber

def TYPE_SIZE : ℕ → Option ℕ
  | 1 => some 1
  | 2 => some 2
  | 3 => some 4
  | 4 => some 4
  | _ => none

def magicOf (view : DataView) : ℕ := byteAt view 0 ||| (byteAt view 1 <<< 8)

def isParamPck (view : DataView) : Bool :=
  if view.byteLength < 6 then false else magicOf view == 0x671b || magicOf view == 0x671c

/-- `none` where the getter throws a RangeError. -/
def readTypedValue (view : DataView) (ofs type : ℕ) : Option JsNumber :=
  match type with
  | 1 => (view.getInt ofs 1).map JsNumber.ofInt
  | 2 => (view.getInt ofs 2).map JsNumber.ofInt
  | 3 => (view.getInt ofs 4).map JsNumber.ofInt
  | 4 => view.getFloat binary32 ofs 4
  | _ => some .nan

/-- `String.fromCharCode` of each byte. -/
def charsOf (bytes : Bytes) : Text := bytes.map fun b => UInt16.ofNat b.toNat

/-! ## The loop -/

structure ParserState where
  entries : List ParamPckEntry
  nonDefaultParamIds : List Text
  defaultsByParamId : JsMap Text JsNumber
  lastName : Text
  ofs : ℕ

namespace ParserState

def initial : ParserState where
  entries := []
  nonDefaultParamIds := []
  defaultsByParamId := JsMap.empty
  lastName := []
  ofs := 6

def skip (s : ParserState) : ParserState := { s with ofs := s.ofs + 1 }

/-- `Set.add`: an element that is there keeps its place. -/
def addId (ids : List Text) (id : Text) : List Text := if id ∈ ids then ids else ids ++ [id]

def flagId (ids : List Text) (entry : ParamPckEntry) : List Text :=
  if entry.nonDefault then addId ids entry.name else ids

def setDefault (defaults : JsMap Text JsNumber) (entry : ParamPckEntry) : JsMap Text JsNumber :=
  match entry.defaultValue with
  | some value => defaults.set entry.name value
  | none => defaults

def push (s : ParserState) (entry : ParamPckEntry) (next : ℕ) : ParserState where
  entries := s.entries ++ [entry]
  nonDefaultParamIds := flagId s.nonDefaultParamIds entry
  defaultsByParamId := setDefault s.defaultsByParamId entry
  lastName := entry.name
  ofs := next

end ParserState

inductive Turn
  | next (s : ParserState)
  | stop
  | rangeError

/-- The turn at an entry whose type byte is `b0`. -/
def entryTurn (view : DataView) (withDefaults : Bool) (s : ParserState) (b0 typeSize : ℕ) : Turn :=
  if view.byteLength < s.ofs + 2 then .stop
  else
    let hasDefault := b0 &&& 0x10 != 0
    let b1 := byteAt view (s.ofs + 1)
    let commonLen := b1 &&& 0x0f
    let nameLen := (b1 >>> 4) + 1
    let suffixOfs := s.ofs + 2
    let valueOfs := suffixOfs + nameLen
    let next := valueOfs + typeSize + if hasDefault then typeSize else 0
    if view.byteLength < next then .stop
    else
      let suffix := charsOf ((view.bytes.drop suffixOfs).take nameLen)
      let name := s.lastName.take commonLen ++ suffix
      match readTypedValue view valueOfs (b0 &&& 0x0f) with
      | none => .rangeError
      | some value =>
        if withDefaults then
          if hasDefault then
            match readTypedValue view (valueOfs + typeSize) (b0 &&& 0x0f) with
            | none => .rangeError
            | some default => .next (s.push ⟨name, value, hasDefault, some default⟩ next)
          else .next (s.push ⟨name, value, hasDefault, some value⟩ next)
        else .next (s.push ⟨name, value, hasDefault, none⟩ next)

def turn (view : DataView) (withDefaults : Bool) (s : ParserState) : Turn :=
  if view.byteLength ≤ s.ofs then .stop
  else
    let b0 := byteAt view s.ofs
    if b0 &&& 0x0f = 0 then .next s.skip
    else
      match TYPE_SIZE (b0 &&& 0x0f) with
      | none => .stop
      | some typeSize => entryTurn view withDefaults s b0 typeSize

inductive Outcome
  | returned (s : ParserState)
  | thrown
  | unfinished (s : ParserState)

def loop (view : DataView) (withDefaults : Bool) : ℕ → ParserState → Outcome
  | 0, s => .unfinished s
  | turns + 1, s =>
    match turn view withDefaults s with
    | .stop => .returned s
    | .rangeError => .thrown
    | .next t => loop view withDefaults turns t

inductive ParamPckError
  | badMagic
  | rangeError
  | unfinished

/-- Every turn but the last takes a byte, so `byteLength + 1` turns are enough. -/
def parseParamPck (view : DataView) : Except ParamPckError ParamPckResult :=
  if isParamPck view then
    let withDefaults := magicOf view == 0x671c
    match loop view withDefaults (view.byteLength + 1) ParserState.initial with
    | .returned s =>
      .ok ⟨withDefaults, s.entries, s.nonDefaultParamIds, s.defaultsByParamId⟩
    | .thrown => .error .rangeError
    | .unfinished _ => .error .unfinished
  else .error .badMagic

/-! ## The format -/

inductive PckValue
  | int8 (v : Int8)
  | int16 (v : Int16)
  | int32 (v : Int32)
  | float (bits : UInt32)

namespace PckValue

def type : PckValue → ℕ
  | int8 _ => 1
  | int16 _ => 2
  | int32 _ => 3
  | float _ => 4

def size : PckValue → ℕ
  | int8 _ => 1
  | int16 _ => 2
  | int32 _ => 4
  | float _ => 4

def bits : PckValue → ℕ
  | int8 v => v.toBitVec.toNat
  | int16 v => v.toBitVec.toNat
  | int32 v => v.toBitVec.toNat
  | float bits => bits.toNat

def bytes (v : PckValue) : Bytes := leBytes v.size v.bits

def number : PckValue → JsNumber
  | int8 v => JsNumber.ofInt v.toInt
  | int16 v => JsNumber.ofInt v.toInt
  | int32 v => JsNumber.ofInt v.toInt
  | float bits => binary32.value bits.toNat

@[simp] theorem bytes_length (v : PckValue) : v.bytes.length = v.size := leBytes_length _ _

end PckValue

/-- A parameter of the vehicle; `changedFrom` is the default that its value differs from, and `none`
where the value is its default. -/
structure PckParam where
  name : Bytes
  value : PckValue
  changedFrom : Option PckValue
  name_ne_nil : name ≠ []
  name_le : name.length ≤ 16
  sameType : ∀ d ∈ changedFrom, d.type = value.type

namespace PckParam

def default (p : PckParam) : PckValue := p.changedFrom.getD p.value

def written (p : PckParam) (withDefaults : Bool) : Option PckValue :=
  if withDefaults then p.changedFrom else none

def entry (p : PckParam) (withDefaults : Bool) : ParamPckEntry where
  name := charsOf p.name
  value := p.value.number
  nonDefault := (p.written withDefaults).isSome
  defaultValue := if withDefaults then some p.default.number else none

end PckParam

/-- A parameter with what its encoding is free to choose: the zero bytes before the entry and how
many characters of the previous name it shares. -/
structure Coded where
  param : PckParam
  padding : ℕ
  shared : ℕ

namespace Coded

def suffix (e : Coded) : Bytes := e.param.name.drop e.shared

def typeByte (e : Coded) (withDefaults : Bool) : UInt8 :=
  UInt8.ofNat (e.param.value.type + if (e.param.written withDefaults).isSome then 0x10 else 0)

def lengthsByte (e : Coded) : UInt8 := UInt8.ofNat (e.shared + 0x10 * (e.suffix.length - 1))

def defaultBytes (e : Coded) (withDefaults : Bool) : Bytes :=
  ((e.param.written withDefaults).map PckValue.bytes).getD []

def body (e : Coded) (withDefaults : Bool) : Bytes :=
  [e.typeByte withDefaults, e.lengthsByte] ++ e.suffix ++ e.param.value.bytes ++
    e.defaultBytes withDefaults

def bytes (e : Coded) (withDefaults : Bool) : Bytes :=
  List.replicate e.padding 0 ++ e.body withDefaults

/-- What the format asks of an entry that follows the name `last`. -/
structure Fits (e : Coded) (last : Bytes) : Prop where
  shared_le : e.shared ≤ 15
  shared_lt : e.shared < e.param.name.length
  shared_last : e.shared ≤ last.length
  common : e.param.name.take e.shared = last.take e.shared

end Coded

/-- A choice at every entry that the format allows, from the name `last` on. -/
def Allowed : Bytes → List Coded → Prop
  | _, [] => True
  | last, e :: rest => e.Fits last ∧ Allowed e.param.name rest

def bodyOf (withDefaults : Bool) (coded : List Coded) : Bytes :=
  coded.flatMap fun e => e.bytes withDefaults

def fileOf (withDefaults : Bool) (numParams totalParams : UInt16) (coded : List Coded) : Bytes :=
  leBytes 2 (if withDefaults then 0x671c else 0x671b) ++ leBytes 2 numParams.toNat ++
    leBytes 2 totalParams.toNat ++ bodyOf withDefaults coded

/-- The entries that `room` bytes hold whole. -/
def wholeIn (withDefaults : Bool) : ℕ → List Coded → List Coded
  | _, [] => []
  | room, e :: rest =>
    if (e.bytes withDefaults).length ≤ room then
      e :: wholeIn withDefaults (room - (e.bytes withDefaults).length) rest
    else []

/-! ## Reading a value -/

section Reading
variable {view : DataView} {ofs : ℕ} {bytes : Bytes}

theorem byteLength_of_drop (h : view.bytes.drop ofs = bytes) :
    bytes.length = view.byteLength - ofs := by
  rw [← h, List.length_drop, DataView.bytes_length]

theorem byteAt_of_drop (h : view.bytes.drop ofs = bytes) (i : ℕ) :
    byteAt view (ofs + i) = (bytes.getD i 0).toNat := by
  rw [← h, byteAt, List.getD_eq_getElem?_getD, List.getD_eq_getElem?_getD, List.getElem?_drop]

theorem drop_of_drop {before after : Bytes} (h : view.bytes.drop ofs = before ++ after) :
    view.bytes.drop (ofs + before.length) = after := by
  rw [← List.drop_drop, h, List.drop_left]

variable {rest : Bytes}

theorem getUint_of_drop {w n : ℕ} (h : view.bytes.drop ofs = leBytes w n ++ rest) (hw : 0 < w)
    (hn : n < 256 ^ w) : view.getUint ofs w = some n := by
  have hlen := byteLength_of_drop h
  rw [List.length_append, leBytes_length] at hlen
  rw [DataView.getUint, DataView.getBytes, if_pos (by omega), h, Option.map_some,
    List.take_left' (leBytes_length w n), ofLE_leBytes_of_lt hn]

theorem getInt_of_drop {w : ℕ} {x : BitVec (8 * w)}
    (h : view.bytes.drop ofs = leBytes w x.toNat ++ rest) (hw : 0 < w) :
    view.getInt ofs w = some x.toInt := by
  have hpow : 256 ^ w = 2 ^ (8 * w) := by rw [pow_mul]; norm_num
  have hhalf : 2 ^ (8 * w) = 2 * 2 ^ (8 * w - 1) := by
    rw [← pow_succ', Nat.sub_add_cancel (by omega)]
  rw [DataView.getInt, getUint_of_drop h hw (hpow ▸ x.isLt), Option.map_some,
    BitVec.toInt_eq_toNat_cond]
  congr 1
  split_ifs with h1 h2 h2
  · rfl
  · omega
  · omega
  · push_cast
    rfl

theorem readTypedValue_of_drop {v : PckValue} (h : view.bytes.drop ofs = v.bytes ++ rest) :
    readTypedValue view ofs v.type = some v.number := by
  cases v with
  | int8 v => exact congrArg (Option.map JsNumber.ofInt) (getInt_of_drop h Nat.one_pos)
  | int16 v => exact congrArg (Option.map JsNumber.ofInt) (getInt_of_drop h Nat.two_pos)
  | int32 v => exact congrArg (Option.map JsNumber.ofInt) (getInt_of_drop h (Nat.succ_pos 3))
  | float bits =>
    exact congrArg (Option.map binary32.value)
      (getUint_of_drop h (Nat.succ_pos 3) bits.toNat_lt)

end Reading

/-! ## One entry -/

theorem typeSize_type (v : PckValue) : TYPE_SIZE v.type = some v.size := by cases v <;> rfl

theorem type_ne_zero (v : PckValue) : v.type ≠ 0 := by cases v <;> exact Nat.succ_ne_zero _

theorem size_eq_of_type {v w : PckValue} (h : v.type = w.type) : v.size = w.size :=
  Option.some.inj (by rw [← typeSize_type, ← typeSize_type, h])

theorem type_lt (v : PckValue) : v.type < 5 := by cases v <;> simp only [PckValue.type] <;> omega

theorem type_nibble (v : PckValue) (flag : Bool) :
    (UInt8.ofNat (v.type + if flag then 0x10 else 0)).toNat &&& 0x0f = v.type := by
  have h : ∀ type < 5, ∀ flag : Bool,
      (UInt8.ofNat (type + if flag then 0x10 else 0)).toNat &&& 0x0f = type := by decide
  exact h v.type (type_lt v) flag

theorem flag_bit (v : PckValue) (flag : Bool) :
    ((UInt8.ofNat (v.type + if flag then 0x10 else 0)).toNat &&& 0x10 != 0) = flag := by
  have h : ∀ type < 5, ∀ flag : Bool,
      ((UInt8.ofNat (type + if flag then 0x10 else 0)).toNat &&& 0x10 != 0) = flag := by decide
  exact h v.type (type_lt v) flag

variable {shared n : ℕ}

theorem lengths_toNat (hshared : shared ≤ 15) (hn : n ≤ 15) :
    (UInt8.ofNat (shared + 0x10 * n)).toNat = shared + 0x10 * n := by
  rw [UInt8.toNat_ofNat']
  exact Nat.mod_eq_of_lt (by omega)

theorem lengths_low (hshared : shared ≤ 15) :
    shared + 0x10 * n &&& 0x0f = shared := by
  rw [show (0x0f : ℕ) = 2 ^ 4 - 1 from rfl, Nat.and_two_pow_sub_one_eq_mod]
  omega

theorem lengths_high (hshared : shared ≤ 15) :
    (shared + 0x10 * n) >>> 4 = n := by
  rw [Nat.shiftRight_eq_div_pow]
  omega

theorem charsOf_append (a b : Bytes) : charsOf (a ++ b) = charsOf a ++ charsOf b := List.map_append

theorem charsOf_take (a : Bytes) (n : ℕ) : (charsOf a).take n = charsOf (a.take n) :=
  List.map_take.symm

theorem charsOf_injective : Function.Injective charsOf := by
  refine List.map_injective_iff.mpr ?_
  intro a b h
  rw [← UInt16.toNat_inj, UInt16.toNat_ofNat', UInt16.toNat_ofNat'] at h
  have ha := a.toNat_lt
  have hb := b.toNat_lt
  exact UInt8.toNat_inj.mp (by omega)

namespace Coded

theorem suffix_length (e : Coded) : e.suffix.length = e.param.name.length - e.shared :=
  List.length_drop

variable {e : Coded} {last : Bytes}

theorem Fits.suffix_pos (h : e.Fits last) : 1 ≤ e.suffix.length := by
  have := h.shared_lt
  rw [e.suffix_length]
  omega

theorem suffix_le (e : Coded) : e.suffix.length ≤ 16 := by
  have := e.param.name_le
  rw [e.suffix_length]
  omega

theorem Fits.rebuilt (h : e.Fits last) :
    (charsOf last).take e.shared ++ charsOf e.suffix = charsOf e.param.name := by
  rw [charsOf_take, ← h.common, ← charsOf_append, suffix, List.take_append_drop]

theorem written_type {p : PckParam} {withDefaults : Bool} {d : PckValue}
    (h : p.written withDefaults = some d) : d.type = p.value.type := by
  rw [PckParam.written] at h
  split at h
  · exact p.sameType d h
  · cases h

theorem defaultBytes_length (e : Coded) (withDefaults : Bool) :
    (e.defaultBytes withDefaults).length =
      if (e.param.written withDefaults).isSome then e.param.value.size else 0 := by
  rw [defaultBytes]
  cases h : e.param.written withDefaults with
  | none => rfl
  | some d =>
    rw [Option.map_some, Option.getD_some, PckValue.bytes_length, size_eq_of_type (written_type h)]
    rfl

theorem body_length (e : Coded) (withDefaults : Bool) :
    (e.body withDefaults).length = 2 + e.suffix.length + e.param.value.size +
      if (e.param.written withDefaults).isSome then e.param.value.size else 0 := by
  rw [body, List.length_append, List.length_append, List.length_append, PckValue.bytes_length,
    defaultBytes_length]
  rfl

theorem typeByte_nibble (e : Coded) (withDefaults : Bool) :
    (e.typeByte withDefaults).toNat &&& 0x0f = e.param.value.type := type_nibble _ _

theorem typeByte_flag (e : Coded) (withDefaults : Bool) :
    ((e.typeByte withDefaults).toNat &&& 0x10 != 0) = (e.param.written withDefaults).isSome :=
  flag_bit _ _

theorem Fits.lengthsByte_low (h : e.Fits last) :
    e.lengthsByte.toNat &&& 0x0f = e.shared := by
  have := e.suffix_le
  rw [lengthsByte, lengths_toNat h.shared_le (by omega), lengths_low h.shared_le]

theorem Fits.lengthsByte_high (h : e.Fits last) :
    (e.lengthsByte.toNat >>> 4) + 1 = e.suffix.length := by
  have hle := e.suffix_le
  have hpos := h.suffix_pos
  rw [lengthsByte, lengths_toNat h.shared_le (by omega), lengths_high h.shared_le]
  omega

end Coded

section Turns
variable {view : DataView} {withDefaults : Bool} {s : ParserState} {e : Coded} {rest : Bytes}

theorem byteAt_zero {ofs : ℕ} {b : UInt8} (h : view.bytes.drop ofs = b :: rest) :
    byteAt view ofs = b.toNat := byteAt_of_drop h 0

theorem turn_padding (h : view.bytes.drop s.ofs = 0 :: rest) :
    turn view withDefaults s = .next s.skip := by
  have hlen := byteLength_of_drop h
  rw [List.length_cons] at hlen
  rw [turn, if_neg (by omega), byteAt_zero h]
  exact if_pos rfl

theorem turn_end (h : view.bytes.drop s.ofs = []) : turn view withDefaults s = .stop := by
  have hlen := byteLength_of_drop h
  rw [List.length_nil] at hlen
  rw [turn, if_pos (by omega)]

theorem turn_typeByte (h : view.bytes.drop s.ofs = e.typeByte withDefaults :: rest) :
    turn view withDefaults s =
      entryTurn view withDefaults s (e.typeByte withDefaults).toNat e.param.value.size := by
  have hlen := byteLength_of_drop h
  rw [List.length_cons] at hlen
  rw [turn, if_neg (by omega), byteAt_zero h]
  simp only [e.typeByte_nibble, if_neg (type_ne_zero _), typeSize_type]

variable {last : Bytes}

theorem turn_entry (hfit : e.Fits last) (hlast : s.lastName = charsOf last)
    (h : view.bytes.drop s.ofs = e.body withDefaults ++ rest) :
    turn view withDefaults s = .next
      (s.push (e.param.entry withDefaults) (s.ofs + (e.body withDefaults).length)) := by
  have hlen := byteLength_of_drop h
  have hbody := e.body_length withDefaults
  rw [List.length_append] at hlen
  rw [Coded.body, List.append_assoc, List.append_assoc, List.append_assoc] at h
  have hsuffix := drop_of_drop h
  have hvalue := drop_of_drop hsuffix
  have hdefault := drop_of_drop hvalue
  rw [PckValue.bytes_length] at hdefault
  have hb1 : byteAt view (s.ofs + 1) = e.lengthsByte.toNat := byteAt_of_drop h 1
  have hname : s.lastName.take e.shared ++ charsOf ((view.bytes.drop (s.ofs + 2)).take
      e.suffix.length) = charsOf e.param.name := by
    rw [show view.bytes.drop (s.ofs + 2) = _ from hsuffix, List.take_left, hlast, hfit.rebuilt]
  have hread : readTypedValue view (s.ofs + 2 + e.suffix.length) e.param.value.type =
      some e.param.value.number := readTypedValue_of_drop hvalue
  rw [turn_typeByte h, entryTurn, if_neg (by omega)]
  simp only [hb1, hfit.lengthsByte_low, hfit.lengthsByte_high, e.typeByte_flag, hname,
    e.typeByte_nibble, hread]
  rw [if_neg (by omega)]
  have hnext : s.ofs + 2 + e.suffix.length + e.param.value.size +
      (if (e.param.written withDefaults).isSome then e.param.value.size else 0) =
      s.ofs + (e.body withDefaults).length := by omega
  rw [hnext]
  cases withDefaults with
  | false => rfl
  | true =>
    cases hchanged : e.param.changedFrom with
    | none =>
      simp only [PckParam.entry, PckParam.written, PckParam.default, hchanged, if_true]
      rfl
    | some d =>
      have hd : readTypedValue view (s.ofs + 2 + e.suffix.length + e.param.value.size)
          e.param.value.type = some d.number := by
        have hbytes : e.defaultBytes true = d.bytes := by
          rw [Coded.defaultBytes, PckParam.written, if_pos rfl, hchanged]
          rfl
        rw [hbytes] at hdefault
        rw [← e.param.sameType d hchanged]
        exact readTypedValue_of_drop hdefault
      simp only [PckParam.entry, PckParam.written, PckParam.default, hchanged, if_true, hd]
      rfl

theorem turn_cut (hfit : e.Fits last) (hn : n < (e.body withDefaults).length)
    (h : view.bytes.drop s.ofs = (e.body withDefaults).take n) :
    turn view withDefaults s = .stop := by
  cases n with
  | zero => exact turn_end h
  | succ n =>
    have hlen := byteLength_of_drop h
    have hbody := e.body_length withDefaults
    rw [List.length_take, min_eq_left hn.le] at hlen
    rw [turn_typeByte h, entryTurn]
    by_cases hshort : view.byteLength < s.ofs + 2
    · rw [if_pos hshort]
    · have hb1 : byteAt view (s.ofs + 1) = e.lengthsByte.toNat := by
        cases n with
        | zero => omega
        | succ n => exact byteAt_of_drop h 1
      simp only [if_neg hshort, hb1, hfit.lengthsByte_high, e.typeByte_flag]
      rw [if_pos (by omega)]

end Turns

/-! ## The whole file -/

variable {view : DataView} {withDefaults : Bool} {s : ParserState} {rest : Bytes}

theorem loop_padding {k : ℕ} (h : view.bytes.drop s.ofs = List.replicate k 0 ++ rest) (turns : ℕ) :
    loop view withDefaults (turns + k) s =
      loop view withDefaults turns { s with ofs := s.ofs + k } := by
  induction k generalizing s with
  | zero => rfl
  | succ k ih =>
    have hrest : view.bytes.drop (s.ofs + 1) = List.replicate k 0 ++ rest :=
      @drop_of_drop view s.ofs [0] _ h
    rw [← Nat.add_assoc, loop, turn_padding h]
    refine (ih (s := s.skip) hrest).trans ?_
    rw [ParserState.skip, Nat.add_comm k 1, ← Nat.add_assoc s.ofs]

structure Added (s t : ParserState) (l : List ParamPckEntry) : Prop where
  entries : t.entries = s.entries ++ l
  ids : t.nonDefaultParamIds = l.foldl ParserState.flagId s.nonDefaultParamIds
  defaults : t.defaultsByParamId = l.foldl ParserState.setDefault s.defaultsByParamId

theorem Added.nil (ofs : ℕ) : Added s { s with ofs := ofs } [] :=
  ⟨(List.append_nil _).symm, rfl, rfl⟩

variable {l : List ParamPckEntry}

theorem Added.cons {t : ParserState} {entry : ParamPckEntry} {ofs next : ℕ}
    (h : Added ({ s with ofs := ofs }.push entry next) t l) :
    Added s t (entry :: l) :=
  ⟨by rw [h.entries, ParserState.push, List.append_assoc]; rfl, h.ids, h.defaults⟩

theorem Coded.bytes_length (e : Coded) (withDefaults : Bool) :
    (e.bytes withDefaults).length = e.padding + (e.body withDefaults).length := by
  rw [Coded.bytes, List.length_append, List.length_replicate]

theorem Coded.body_pos (e : Coded) (withDefaults : Bool) : 0 < (e.body withDefaults).length := by
  rw [e.body_length]
  omega

variable {coded : List Coded} {room : ℕ}

theorem loop_coded {last : Bytes} (hallowed : Allowed last coded)
    (hlast : s.lastName = charsOf last)
    (h : view.bytes.drop s.ofs = (bodyOf withDefaults coded).take room) (turns : ℕ)
    (hturns : view.byteLength - s.ofs < turns) :
    ∃ t, loop view withDefaults turns s = .returned t ∧
      Added s t ((wholeIn withDefaults room coded).map fun e => e.param.entry withDefaults) := by
  induction coded generalizing last s room turns with
  | nil =>
    obtain ⟨turns, rfl⟩ := Nat.exists_eq_succ_of_ne_zero (Nat.ne_zero_of_lt hturns)
    refine ⟨s, ?_, Added.nil s.ofs⟩
    rw [loop, turn_end (h.trans List.take_nil)]
  | cons e coded ih =>
    obtain ⟨hfit, hallowed⟩ := hallowed
    have hlength := e.bytes_length withDefaults
    have hpos := e.body_pos withDefaults
    rw [bodyOf, List.flatMap_cons, ← bodyOf, List.take_append] at h
    rw [wholeIn]
    by_cases hroom : (e.bytes withDefaults).length ≤ room
    · rw [List.take_of_length_le hroom] at h
      have hlen := byteLength_of_drop h
      rw [List.length_append] at hlen
      rw [Coded.bytes, List.append_assoc] at h
      have hbody := drop_of_drop h
      rw [List.length_replicate] at hbody
      obtain ⟨more, rfl⟩ : ∃ more, turns = more + 1 + e.padding :=
        ⟨turns - 1 - e.padding, by omega⟩
      have hturn := turn_entry (s := { s with ofs := s.ofs + e.padding }) hfit hlast hbody
      obtain ⟨t, hrun, hadded⟩ := ih hallowed
        (s := { s with ofs := s.ofs + e.padding }.push (e.param.entry withDefaults)
          (s.ofs + e.padding + (e.body withDefaults).length)) rfl (drop_of_drop hbody)
        more (by simp only [ParserState.push]; omega)
      refine ⟨t, ?_, ?_⟩
      · rw [loop_padding h, loop, hturn]
        exact hrun
      · rw [if_pos hroom, List.map_cons]
        exact hadded.cons
    · rw [Nat.sub_eq_zero_of_le (by omega), List.take_zero, List.append_nil, Coded.bytes,
        List.take_append, List.take_replicate, List.length_replicate] at h
      have hlen := byteLength_of_drop h
      rw [List.length_append, List.length_replicate] at hlen
      have hcut := drop_of_drop h
      rw [List.length_replicate] at hcut
      obtain ⟨more, rfl⟩ : ∃ more, turns = more + 1 + min room e.padding :=
        ⟨turns - 1 - min room e.padding, by omega⟩
      refine ⟨{ s with ofs := s.ofs + min room e.padding }, ?_, ?_⟩
      · rw [loop_padding h, loop, turn_cut hfit (by omega) hcut]
      · rw [if_neg hroom]
        exact Added.nil _

/-! ## Sets and maps of distinct names -/

theorem foldl_flagId {ids : List Text} (h : (ids ++ l.map ParamPckEntry.name).Nodup) :
    l.foldl ParserState.flagId ids = ids ++ (l.filter (·.nonDefault)).map ParamPckEntry.name := by
  induction l generalizing ids with
  | nil => exact (List.append_nil _).symm
  | cons e l ih =>
    rw [List.map_cons, List.append_cons] at h
    rw [List.foldl_cons, List.filter_cons, ParserState.flagId]
    cases he : e.nonDefault with
    | false =>
      rw [if_neg Bool.false_ne_true, if_neg Bool.false_ne_true]
      exact ih (h.sublist ((List.sublist_append_left ids [e.name]).append_right _))
    | true =>
      have hnew : e.name ∉ ids := fun hmem =>
        (List.nodup_append.mp (List.nodup_append.mp h).1).2.2 _ hmem _ (List.mem_singleton_self _)
          rfl
      rw [if_pos rfl, if_pos rfl, ParserState.addId, if_neg hnew, ih h, List.map_cons,
        List.append_assoc, List.singleton_append]

theorem foldl_setDefault {m : JsMap Text JsNumber}
    (h : (m.keys ++ l.map ParamPckEntry.name).Nodup) :
    (l.foldl ParserState.setDefault m).entries =
      m.entries ++ l.filterMap fun e => e.defaultValue.map fun value => (e.name, value) := by
  induction l generalizing m with
  | nil => exact (List.append_nil _).symm
  | cons e l ih =>
    rw [List.map_cons, List.append_cons] at h
    rw [List.foldl_cons, List.filterMap_cons, ParserState.setDefault]
    cases he : e.defaultValue with
    | none => exact ih (h.sublist ((List.sublist_append_left m.keys [e.name]).append_right _))
    | some value =>
      have hnew : e.name ∉ m.entries.keys := fun hmem =>
        (List.nodup_append.mp (List.nodup_append.mp h).1).2.2 _ hmem _ (List.mem_singleton_self _)
          rfl
      have hkeys : (m.set e.name value).keys = m.keys ++ [e.name] :=
        Entries.keys_set_of_notMem hnew value
      have hset : (m.set e.name value).entries = m.entries ++ [(e.name, value)] :=
        Entries.set_of_notMem hnew value
      refine (ih (hkeys ▸ h)).trans ?_
      rw [hset, List.append_assoc]
      rfl

theorem wholeIn_sublist (withDefaults : Bool) (room : ℕ) (coded : List Coded) :
    (wholeIn withDefaults room coded).Sublist coded := by
  induction coded generalizing room with
  | nil => exact List.Sublist.refl _
  | cons e coded ih =>
    rw [wholeIn]
    split
    · exact (ih _).cons_cons e
    · exact List.nil_sublist _

theorem wholeIn_all (h : (bodyOf withDefaults coded).length ≤ room) :
    wholeIn withDefaults room coded = coded := by
  induction coded generalizing room with
  | nil => rfl
  | cons e coded ih =>
    rw [bodyOf, List.flatMap_cons, ← bodyOf, List.length_append] at h
    rw [wholeIn, if_pos (by omega), ih (by omega)]

/-! ## The header -/

variable {numParams totalParams : UInt16}

theorem fileOf_take (hn : 6 ≤ n) :
    (fileOf withDefaults numParams totalParams coded).take n =
      leBytes 2 (if withDefaults then 0x671c else 0x671b) ++
        ((leBytes 2 numParams.toNat ++ leBytes 2 totalParams.toNat) ++
          (bodyOf withDefaults coded).take (n - 6)) := by
  rw [fileOf, List.append_assoc (leBytes 2 _), List.append_assoc, List.take_append,
    List.take_of_length_le, List.take_append, List.take_of_length_le]
  · simp only [leBytes_length, List.length_append]
    rw [Nat.sub_sub]
  · simp only [leBytes_length, List.length_append]
    omega
  · rw [leBytes_length]
    omega

theorem magicOf_bytes {low high : UInt8} (h : view.bytes = low :: high :: rest) :
    magicOf view = low.toNat ||| (high.toNat <<< 8) := by
  have hdrop : view.bytes.drop 0 = low :: high :: rest := h
  rw [magicOf, show byteAt view 0 = low.toNat from byteAt_of_drop hdrop 0,
    show byteAt view 1 = high.toNat from byteAt_of_drop hdrop 1]

theorem magicOf_file
    (h : view.bytes = leBytes 2 (if withDefaults then 0x671c else 0x671b) ++ rest) :
    magicOf view = if withDefaults then 0x671c else 0x671b := by
  cases withDefaults with
  | false => exact (magicOf_bytes h).trans (by decide)
  | true => exact (magicOf_bytes h).trans (by decide)

structure Holds (withDefaults : Bool) (result : ParamPckResult) (coded : List Coded) : Prop where
  kind : result.withDefaults = withDefaults
  entries : result.entries = coded.map fun e => e.param.entry withDefaults
  ids : result.nonDefaultParamIds =
    (coded.filter fun e => (e.param.written withDefaults).isSome).map fun e => charsOf e.param.name
  defaults : result.defaultsByParamId.entries =
    if withDefaults then coded.map fun e => (charsOf e.param.name, e.param.default.number) else []

theorem parse_coded (hallowed : Allowed [] coded)
    (hdistinct : (coded.map fun e => e.param.name).Nodup) (hn : 6 ≤ n)
    (hview : view.bytes = (fileOf withDefaults numParams totalParams coded).take n) :
    ∃ result, parseParamPck view = .ok result ∧
      Holds withDefaults result (wholeIn withDefaults (n - 6) coded) := by
  rw [fileOf_take hn] at hview
  have hmagic := magicOf_file hview
  have hlength : view.byteLength = 6 + ((bodyOf withDefaults coded).take (n - 6)).length := by
    rw [← view.bytes_length, hview]
    simp only [List.length_append, leBytes_length]
    omega
  have hbody : view.bytes.drop ParserState.initial.ofs =
      (bodyOf withDefaults coded).take (n - 6) := by
    rw [hview, ← List.append_assoc]
    refine List.drop_left' ?_
    simp only [List.length_append, leBytes_length]
    rfl
  have his : isParamPck view = true := by
    rw [isParamPck, if_neg (by omega), hmagic]
    cases withDefaults <;> rfl
  have hwith : (magicOf view == 0x671c) = withDefaults := by
    rw [hmagic]
    cases withDefaults <;> rfl
  obtain ⟨t, hrun, hadded⟩ := loop_coded hallowed (s := ParserState.initial) rfl hbody
    (view.byteLength + 1) (by omega)
  have hnames : ((wholeIn withDefaults (n - 6) coded).map fun e => charsOf e.param.name).Nodup := by
    have h := (hdistinct.map charsOf_injective).sublist
      (((wholeIn_sublist withDefaults (n - 6) coded).map fun e => e.param.name).map charsOf)
    rwa [List.map_map] at h
  refine ⟨⟨withDefaults, t.entries, t.nonDefaultParamIds, t.defaultsByParamId⟩, ?_, ?_⟩
  · rw [parseParamPck, if_pos his]
    simp only [hwith, hrun]
  · have hentries : ((wholeIn withDefaults (n - 6) coded).map fun e =>
        e.param.entry withDefaults).map ParamPckEntry.name =
          (wholeIn withDefaults (n - 6) coded).map fun e => charsOf e.param.name := List.map_map
    constructor
    · rfl
    · exact hadded.entries
    · rw [hadded.ids, foldl_flagId (hentries ▸ hnames), List.filter_map, List.map_map]
      rfl
    · refine (congrArg JsMap.entries hadded.defaults).trans ?_
      refine (foldl_setDefault (m := JsMap.empty) (hentries ▸ hnames)).trans ?_
      rw [List.filterMap_map]
      cases withDefaults with
      | false => exact List.filterMap_eq_nil_iff.mpr (fun _ _ => rfl)
      | true => exact congrFun List.filterMap_eq_map _

/-- A file gives back exactly its parameters, and what is left of it after a cut past the header
exactly those whose entries it holds whole. -/
theorem parseParamPck_inverts {withDefaults : Bool} {numParams totalParams : UInt16}
    {coded : List Coded} (hallowed : Allowed [] coded)
    (hdistinct : (coded.map fun e => e.param.name).Nodup) :
    (∀ view : DataView, view.bytes = fileOf withDefaults numParams totalParams coded →
      ∃ result, parseParamPck view = .ok result ∧ Holds withDefaults result coded) ∧
    ∀ (view : DataView) (n : ℕ), 6 ≤ n →
      view.bytes = (fileOf withDefaults numParams totalParams coded).take n →
      ∃ result, parseParamPck view = .ok result ∧
        Holds withDefaults result (wholeIn withDefaults (n - 6) coded) := by
  refine ⟨?_, fun view n hn hview => parse_coded hallowed hdistinct hn hview⟩
  intro view hview
  have hlength : (fileOf withDefaults numParams totalParams coded).length =
      6 + (bodyOf withDefaults coded).length := by
    simp only [fileOf, List.length_append, leBytes_length]
  have h := parse_coded (n := 6 + (bodyOf withDefaults coded).length) hallowed hdistinct
    (Nat.le_add_right _ _) (hview.trans (List.take_of_length_le hlength.le).symm)
  rwa [Nat.add_sub_cancel_left, wholeIn_all (Nat.le_refl _)] at h

/-- `AB` at its default, and after a padding byte `AC`, which shares one character with it and
differs from its default. -/
def twoParams : List Coded :=
  [⟨⟨[65, 66], .int8 5, none, by decide, by decide, by decide⟩, 0, 0⟩,
    ⟨⟨[65, 67], .int16 300, some (.int16 (-1)), by decide, by decide, by decide⟩, 1, 1⟩]

theorem parseParamPck_inverts_two :
    (∃ result, parseParamPck (DataView.ofBytes (fileOf true 2 2 twoParams)) = .ok result ∧
      Holds true result twoParams) ∧
    ∃ result, parseParamPck (DataView.ofBytes ((fileOf true 2 2 twoParams).take 18)) = .ok result ∧
      Holds true result (wholeIn true 12 twoParams) := by
  have hallowed : Allowed [] twoParams :=
    ⟨⟨by decide, by decide, by decide, by decide⟩, ⟨by decide, by decide, by decide, by decide⟩,
      trivial⟩
  have h := @parseParamPck_inverts true 2 2 _ hallowed (by decide)
  exact ⟨h.1 _ List.take_length, h.2 _ 18 (by decide) List.take_length⟩

end ArduConfigurator.Parameters.ParamPck
