import ArduConfigurator.CanCore.Frame
import ArduConfigurator.Lib.HexText
import ArduConfigurator.Lib.Padding
import ArduConfigurator.Lib.TextBytes

/-! # CAN frames as lines of text

A serial adapter speaks of frames in lines of hexadecimal digits, each ended by a carriage
return. The splitter takes the bytes in whatever pieces they come and reads a line at its end; a
line that grows past two hundred characters is dropped, and what follows of it begins anew. -/
namespace ArduConfigurator.CanCore
open HexText
set_option autoImplicit false

/-! ## Writing -/

structure CanAdapterFrame where
  id : ℕ
  extended : Bool
  data : Bytes
  fd : Bool := false
  rtr : Bool := false

def hex (value digits : ℕ) : Text :=
  let t := padStart digits (hexDigits (value % 2 ^ 32))
  t.drop (t.length - digits)

def CanAdapterFrame.remote (frame : CanAdapterFrame) : Bool := !frame.fd && frame.rtr

def CanAdapterFrame.dlc (frame : CanAdapterFrame) : ℕ :=
  if frame.fd then canDlcForLength frame.data.length else frame.data.length

def CanAdapterFrame.length (frame : CanAdapterFrame) : ℕ :=
  if frame.fd then canLengthForDlc frame.dlc else frame.data.length

/-- The letter of a command: `R`, `r`, `D`, `d`, `T`, `t`. -/
def CanAdapterFrame.type (frame : CanAdapterFrame) : UInt16 :=
  if frame.remote then if frame.extended then 0x52 else 0x72
  else if frame.fd then if frame.extended then 0x44 else 0x64
  else if frame.extended then 0x54 else 0x74

def idDigits (extended : Bool) : ℕ := if extended then 8 else 3

def encodeSlcanFrame (frame : CanAdapterFrame) : Except String Text :=
  if frame.fd = false ∧ frame.data.length > 8 then
    .error "A classic frame carries at most 8 bytes."
  else if frame.data.length > 64 then .error "A CAN FD frame carries at most 64 bytes."
  else
    let line := frame.type ::
      ((if frame.extended then hex (frame.id &&& 0x1fffffff) 8 else hex (frame.id &&& 0x7ff) 3) ++
        hexDigits frame.dlc)
    let data := if frame.remote then []
      else (List.range frame.length).flatMap fun index => hex (frame.data.getD index 0).toNat 2
    .ok (line ++ data ++ [CARRIAGE_RETURN])

/-! ## Reading -/

inductive SlcanLine
  | frame (rawId : ℕ) (data : Bytes) (fd : Bool) (adapterTimestampMs : Option ℕ)
  | ok
  | error
  | reply (text : Text)
  deriving DecidableEq

def adapterTimestamp (rest : Text) : Option ℕ :=
  if (rest.take 4).length = 4 ∧ (rest.take 4).all isHex = true then some (readHex (rest.take 4))
  else none

/-- `rawId |= flag` for the flags of a line. -/
def lineRawId (id : ℕ) (extended rtr : Bool) : ℕ :=
  let rawId := if extended then id ||| CAN_EFF_FLAG else id
  let rawId := if rtr then rawId ||| CAN_RTR_FLAG else rawId
  rawId % 2 ^ 32

def parseFrameLine (type : UInt16) (rest : Text) : Option SlcanLine :=
  let extended : Bool := type = 0x54 ∨ type = 0x52 ∨ type = 0x44
  let idText := rest.take (idDigits extended)
  match rest[idDigits extended]? with
  | none => none
  | some dlcText =>
    if idText.length ≠ idDigits extended ∨ idText.all isHex = false ∨ isHex dlcText = false then
      none
    else
      let fd : Bool := type = 0x64 ∨ type = 0x44
      let rtr : Bool := type = 0x72 ∨ type = 0x52
      let dlc := readHex [dlcText]
      if fd = false ∧ dlc > 8 then none
      else
        let length := if fd then canLengthForDlc dlc else dlc
        let id := readHex idText
        if id > idMask extended then none
        else
          let body := rest.drop (idDigits extended + 1)
          if rtr then some (.frame (lineRawId id extended rtr) [] fd (adapterTimestamp body))
          else
            let dataText := body.take (length * 2)
            if dataText.length ≠ length * 2 ∨ dataText.all isHex = false then none
            else
              some (.frame (lineRawId id extended rtr)
                ((List.range length).map fun index =>
                  UInt8.ofNat (readHex ((dataText.drop (index * 2)).take 2)))
                fd (adapterTimestamp (body.drop (length * 2))))

def frameTypes : Text := units "tTrRdD"

def parseSlcanLine : Text → Option SlcanLine
  | [] => some .ok
  | type :: rest =>
    if (type = 0x7A ∨ type = 0x5A) ∧ rest = [] then some .ok
    else if type ∈ frameTypes then parseFrameLine type rest
    else some (.reply (type :: rest))

/-! ## Splitting -/

structure SlcanLineSplitter where
  buffer : Text := []
  short : buffer.length ≤ 200 := by decide

def SlcanLineSplitter.append (s : SlcanLineSplitter) (c : UInt16) : SlcanLineSplitter :=
  if h : (s.buffer ++ [c]).length > 200 then {} else ⟨s.buffer ++ [c], Nat.le_of_not_lt h⟩

def SlcanLineSplitter.step (s : SlcanLineSplitter) (byte : UInt8) :
    SlcanLineSplitter × List SlcanLine :=
  if byte = 0x0d then ({}, (parseSlcanLine s.buffer).toList)
  else if byte = 0x07 then ({}, [.error])
  else if byte = 0x0a then (s, [])
  else if 0x20 ≤ byte ∧ byte < 0x7f then (s.append byte.toUInt16, [])
  else (s, [])

@[simp] def SlcanLineSplitter.push (s : SlcanLineSplitter) :
    Bytes → SlcanLineSplitter × List SlcanLine
  | [] => (s, [])
  | byte :: bytes =>
    (((s.step byte).1.push bytes).1, (s.step byte).2 ++ ((s.step byte).1.push bytes).2)

@[simp] def SlcanLineSplitter.feed (s : SlcanLineSplitter) :
    List Bytes → SlcanLineSplitter × List SlcanLine
  | [] => (s, [])
  | chunk :: chunks =>
    (((s.push chunk).1.feed chunks).1, (s.push chunk).2 ++ ((s.push chunk).1.feed chunks).2)

/-! ## Chunks -/

theorem SlcanLineSplitter.push_append (s : SlcanLineSplitter) (a b : Bytes) :
    s.push (a ++ b) =
      (((s.push a).1.push b).1, (s.push a).2 ++ ((s.push a).1.push b).2) := by
  induction a generalizing s with
  | nil => rfl
  | cons byte a ih =>
    rw [List.cons_append, push, ih]
    simp only [push, List.append_assoc]

theorem SlcanLineSplitter.feed_eq_push (s : SlcanLineSplitter) (chunks : List Bytes) :
    s.feed chunks = s.push chunks.flatten := by
  induction chunks generalizing s with
  | nil => rfl
  | cons chunk chunks ih =>
    rw [List.flatten_cons, push_append, feed, ih]

/-! ## Lines in the splitter -/

def isPrintable (byte : UInt8) : Bool := 0x20 ≤ byte ∧ byte < 0x7f

def lineText (line : Bytes) : Text := (line.filter isPrintable).map UInt8.toUInt16

def remnant (t : Text) : Text := t.drop (t.length / 201 * 201)

theorem remnant_length (t : Text) : (remnant t).length = t.length % 201 := by
  rw [remnant, List.length_drop]
  omega

theorem remnant_of_short {t : Text} (h : t.length ≤ 200) : remnant t = t := by
  rw [remnant, Nat.div_eq_of_lt (by omega), Nat.zero_mul, List.drop_zero]

theorem remnant_append_full {full : Text} (h : full.length = 201) (t : Text) :
    remnant (full ++ t) = remnant t := by
  have hdiv : (full ++ t).length / 201 * 201 = full.length + t.length / 201 * 201 := by
    rw [List.length_append, h]
    omega
  rw [remnant, hdiv, List.drop_append, List.drop_eq_nil_of_le (by omega), List.nil_append,
    Nat.add_sub_cancel_left, remnant]

def SlcanLineSplitter.ofLine (t : Text) : SlcanLineSplitter :=
  ⟨remnant t, by rw [remnant_length]; omega⟩

theorem SlcanLineSplitter.ofLine_buffer (s : SlcanLineSplitter) : ofLine s.buffer = s := by
  cases s with
  | mk buffer short => simp only [ofLine, remnant_of_short short]

theorem SlcanLineSplitter.ofLine_append (s : SlcanLineSplitter) (c : UInt16) (t : Text) :
    ofLine ((s.append c).buffer ++ t) = ofLine (s.buffer ++ c :: t) := by
  have hshort := s.short
  rw [append]
  split_ifs with h
  · have hfull : (s.buffer ++ [c]).length = 201 := by
      rw [List.length_append, List.length_singleton] at h ⊢
      omega
    have hdrop := remnant_append_full hfull t
    rw [List.append_assoc, List.singleton_append] at hdrop
    simp only [ofLine, List.nil_append, hdrop]
  · rw [List.append_assoc, List.singleton_append]

variable {line : Bytes}

theorem SlcanLineSplitter.push_line (hend : 0x0d ∉ line) (hbell : 0x07 ∉ line)
    (s : SlcanLineSplitter) : s.push line = (ofLine (s.buffer ++ lineText line), []) := by
  induction line generalizing s with
  | nil =>
    rw [lineText, List.filter_nil, List.map_nil, List.append_nil, ofLine_buffer]
    rfl
  | cons byte line ih =>
    obtain ⟨hend0, hend⟩ := not_or.mp (mt List.mem_cons.mpr hend)
    obtain ⟨hbell0, hbell⟩ := not_or.mp (mt List.mem_cons.mpr hbell)
    rw [push, ih hend hbell, step, if_neg (Ne.symm hend0), if_neg (Ne.symm hbell0)]
    by_cases hfeed : byte = 0x0a
    · have hskip : lineText (byte :: line) = lineText line := by
        rw [lineText, List.filter_cons_of_neg (by rw [hfeed]; decide)]
        rfl
      rw [if_pos hfeed, hskip]
      rfl
    · rw [if_neg hfeed]
      by_cases hprint : 0x20 ≤ byte ∧ byte < 0x7f
      · have hkeep : lineText (byte :: line) = byte.toUInt16 :: lineText line := by
          rw [lineText, List.filter_cons_of_pos (by simpa [isPrintable] using hprint)]
          rfl
        rw [if_pos hprint, hkeep, ofLine_append]
        rfl
      · have hskip : lineText (byte :: line) = lineText line := by
          rw [lineText, List.filter_cons_of_neg (by simpa [isPrintable] using hprint)]
          rfl
        rw [if_neg hprint, hskip]
        rfl

theorem SlcanLineSplitter.push_whole_line (hend : 0x0d ∉ line) (hbell : 0x07 ∉ line) :
    push {} (line ++ [0x0d]) = ({}, (parseSlcanLine (remnant (lineText line))).toList) := by
  rw [push_append, push_line hend hbell]
  simp only [push, step, if_true, List.nil_append, List.append_nil, ofLine]

/-! ## Hexadecimal fields -/

theorem hex_eq {value digits : ℕ} (hdigits : 0 < digits) (hfits : value < 16 ^ digits)
    (hvalue : value < 2 ^ 32) : hex value digits = padStart digits (hexDigits value) := by
  simp only [hex, Nat.mod_eq_of_lt hvalue]
  rw [padStart_length hdigits hfits, Nat.sub_self, List.drop_zero]

theorem hex_byte (byte : UInt8) : hex byte.toNat 2 = padStart 2 (hexDigits byte.toNat) := by
  have h := byte.toNat_lt
  exact hex_eq (by decide) (by omega) (by omega)

theorem hex_byte_length (byte : UInt8) : (hex byte.toNat 2).length = 2 := by
  rw [hex_byte]
  exact padStart_length (by decide) byte.toNat_lt

def hexBytes (data : Bytes) : Text := data.flatMap fun byte => hex byte.toNat 2

theorem hexBytes_cons (byte : UInt8) (data : Bytes) :
    hexBytes (byte :: data) = hex byte.toNat 2 ++ hexBytes data := rfl

theorem hexBytes_length (data : Bytes) : (hexBytes data).length = data.length * 2 := by
  induction data with
  | nil => rfl
  | cons byte data ih =>
    rw [hexBytes_cons, List.length_append, hex_byte_length, ih, List.length_cons]
    omega

theorem isHex_hexBytes {data : Bytes} {c : UInt16} (hc : c ∈ hexBytes data) : isHex c = true := by
  obtain ⟨byte, -, hbyte⟩ := List.mem_flatMap.mp hc
  rw [hex_byte] at hbyte
  exact isHex_padStart hbyte

theorem read_hexBytes (data : Bytes) :
    ((List.range data.length).map fun index =>
      UInt8.ofNat (readHex (((hexBytes data).drop (index * 2)).take 2))) = data := by
  induction data with
  | nil => rfl
  | cons byte data ih =>
    have htake : (hex byte.toNat 2 ++ hexBytes data).take 2 = hex byte.toNat 2 :=
      List.take_left' (hex_byte_length byte)
    have hdrop (index : ℕ) : (hex byte.toNat 2 ++ hexBytes data).drop ((index + 1) * 2) =
        (hexBytes data).drop (index * 2) := by
      have h := @List.drop_length_add_append _ (hex byte.toNat 2) (hexBytes data) (index * 2)
      rwa [hex_byte_length, Nat.add_comm, ← Nat.add_one_mul] at h
    rw [List.length_cons, List.range_succ_eq_map, List.map_cons, List.map_map, hexBytes_cons]
    simp only [Function.comp_def, Nat.succ_eq_add_one, hdrop, Nat.zero_mul, List.drop_zero, htake]
    rw [ih, hex_byte, readHex_padStart, UInt8.ofNat_toNat]

end ArduConfigurator.CanCore
