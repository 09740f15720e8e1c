import ArduConfigurator.CanCore.Slcan

/-! # CAN frames read back from lines of text

The parser reads the line of a frame as that frame, an FD payload filled up to the length of its
code and a remote frame without data. The splitter empties at the end of every line, so the lines
of a stream are read one by one however the stream was cut. -/
namespace ArduConfigurator.CanCore
open HexText
set_option autoImplicit false

/-! ## A frame line read back -/

structure CanAdapterFrame.Sendable (frame : CanAdapterFrame) : Prop where
  id_le : frame.id ≤ idMask frame.extended
  data_le : frame.data.length ≤ if frame.fd then 64 else 8

/-- What the other side holds: an FD payload filled up to the length of its code, a remote frame
without data. -/
def CanAdapterFrame.received (frame : CanAdapterFrame) : SlcanLine :=
  .frame (canFrameRawId frame.id frame.extended frame.remote false)
    (if frame.remote then [] else zeroPad frame.length frame.data) frame.fd none

def CanAdapterFrame.digits (frame : CanAdapterFrame) : Text :=
  padStart (idDigits frame.extended) (hexDigits frame.id) ++
    upperUnit frame.dlc :: (if frame.remote then [] else hexBytes (zeroPad frame.length frame.data))

variable {frame : CanAdapterFrame}

theorem CanAdapterFrame.Sendable.id_lt (h : frame.Sendable) :
    frame.id < 16 ^ idDigits frame.extended ∧ frame.id < 2 ^ 29 := by
  have hid := h.id_le
  cases hextended : frame.extended with
  | true =>
    rw [hextended] at hid
    have hid : frame.id ≤ 0x1fffffff := hid
    exact ⟨Nat.lt_of_le_of_lt hid (by decide), Nat.lt_of_le_of_lt hid (by decide)⟩
  | false =>
    rw [hextended] at hid
    have hid : frame.id ≤ 0x7ff := hid
    exact ⟨Nat.lt_of_le_of_lt hid (by decide), Nat.lt_of_le_of_lt hid (by decide)⟩

theorem CanAdapterFrame.Sendable.dlc_lt (h : frame.Sendable) :
    frame.dlc < 16 ∧ (frame.fd = false → frame.dlc ≤ 8) := by
  have hdata := h.data_le
  rw [dlc]
  cases hfd : frame.fd with
  | true =>
    rw [hfd] at hdata
    exact ⟨canDlcForLength_lt hdata, nofun⟩
  | false =>
    rw [hfd] at hdata
    have hdata : frame.data.length ≤ 8 := hdata
    exact ⟨Nat.lt_of_le_of_lt hdata (by decide), fun _ => hdata⟩

theorem CanAdapterFrame.Sendable.length_eq (h : frame.Sendable) :
    (zeroPad frame.length frame.data).length = frame.length := by
  apply zeroPad_length
  have hdata := h.data_le
  rw [length, dlc]
  cases hfd : frame.fd with
  | true =>
    rw [hfd] at hdata
    exact (canLengthForDlc_least hdata).1
  | false => exact Nat.le_refl _

theorem hexBytes_zeroPad {data : Bytes} {n : ℕ} (h : data.length ≤ n) :
    ((List.range n).flatMap fun index => hex (data.getD index 0).toNat 2) =
      hexBytes (zeroPad n data) := by
  have hread : (List.range n).map (fun index => data.getD index 0) = zeroPad n data := by
    apply List.ext_getElem?
    intro i
    rw [getElem?_zeroPad]
    by_cases hi : i < n
    · rw [List.getElem?_map, List.getElem?_range hi, Option.map_some, List.getD_eq_getElem?_getD]
      by_cases hdata : i < data.length
      · rw [if_pos hdata, List.getElem?_eq_getElem hdata, Option.getD_some]
      · rw [if_neg hdata, if_pos hi, List.getElem?_eq_none (Nat.le_of_not_lt hdata),
          Option.getD_none]
    · rw [if_neg (by omega), if_neg hi, List.getElem?_eq_none]
      rw [List.length_map, List.length_range]
      exact Nat.le_of_not_lt hi
  rw [hexBytes, ← hread, List.flatMap_map]

theorem encodeSlcanFrame_eq (h : frame.Sendable) :
    encodeSlcanFrame frame = .ok (frame.type :: frame.digits ++ [CARRIAGE_RETURN]) := by
  obtain ⟨hfits, hlow⟩ := h.id_lt
  have hclassic : ¬(frame.fd = false ∧ frame.data.length > 8) := by
    rintro ⟨hfd, hlong⟩
    have hdata := h.data_le
    rw [hfd] at hdata
    exact absurd hdata (Nat.not_le_of_lt hlong)
  have hlong : ¬frame.data.length > 64 := by
    have hdata := h.data_le
    split_ifs at hdata <;> omega
  have hid : (if frame.extended then hex (frame.id &&& 0x1fffffff) 8
      else hex (frame.id &&& 0x7ff) 3) =
      padStart (idDigits frame.extended) (hexDigits frame.id) := by
    have hand := and_idMask_of_le h.id_le
    cases hextended : frame.extended with
    | true =>
      rw [hextended] at hand hfits
      have hand : frame.id &&& 0x1fffffff = frame.id := hand
      rw [if_pos rfl, hand]
      exact hex_eq (by decide) hfits (Nat.lt_trans hlow (by decide))
    | false =>
      rw [hextended] at hand hfits
      have hand : frame.id &&& 0x7ff = frame.id := hand
      rw [if_neg Bool.false_ne_true, hand]
      exact hex_eq (by decide) hfits (Nat.lt_trans hlow (by decide))
  have hdata : frame.data.length ≤ frame.length := by
    have hlength := h.length_eq
    rw [zeroPad, List.length_append] at hlength
    omega
  rw [encodeSlcanFrame, if_neg hclassic, if_neg hlong]
  simp only [hid, hexDigits_of_lt h.dlc_lt.1, hexBytes_zeroPad hdata, CanAdapterFrame.digits,
    List.cons_append, List.append_assoc, List.nil_append]

theorem readDlc (frame : CanAdapterFrame) (h : frame.Sendable) :
    isHex (upperUnit frame.dlc) = true ∧ readHex [upperUnit frame.dlc] = frame.dlc := by
  have hdlc := h.dlc_lt.1
  refine ⟨isHex_upperUnit hdlc, ?_⟩
  rw [← hexDigits_of_lt hdlc, readHex_hexDigits]

theorem CanAdapterFrame.type_mem (frame : CanAdapterFrame) : frame.type ∈ frameTypes := by
  rw [type]
  cases frame.remote <;> cases frame.fd <;> cases frame.extended <;> decide

theorem CanAdapterFrame.type_tells (frame : CanAdapterFrame) :
    decide (frame.type = 0x54 ∨ frame.type = 0x52 ∨ frame.type = 0x44) = frame.extended ∧
      decide (frame.type = 0x64 ∨ frame.type = 0x44) = frame.fd ∧
      decide (frame.type = 0x72 ∨ frame.type = 0x52) = frame.remote := by
  cases frame with
  | mk id extended data fd rtr =>
    simp only [type, remote]
    cases extended <;> cases fd <;> cases rtr <;> exact ⟨rfl, rfl, rfl⟩

theorem lineRawId_eq {id : ℕ} {extended : Bool} (h : id ≤ idMask extended) (rtr : Bool) :
    lineRawId id extended rtr = canFrameRawId id extended rtr false := by
  have hand := and_idMask_of_le h
  have hkept : (if extended then id &&& CAN_EFF_MASK else id &&& CAN_SFF_MASK) = id := by
    cases extended with
    | true => exact hand
    | false => exact hand
  simp only [lineRawId, canFrameRawId, hkept, Bool.false_eq_true, if_false]

theorem parse_digits (h : frame.Sendable) :
    parseSlcanLine (frame.type :: frame.digits) = some frame.received := by
  obtain ⟨hextended, hfd, hrtr⟩ := frame.type_tells
  obtain ⟨hdlcHex, hdlcRead⟩ := readDlc frame h
  have hwidth : 0 < idDigits frame.extended := by
    rw [idDigits]
    split <;> decide
  have hidLength := padStart_length hwidth h.id_lt.1
  have hidHex : (padStart (idDigits frame.extended) (hexDigits frame.id)).all isHex = true :=
    List.all_eq_true.mpr fun c hc => isHex_padStart hc
  have htake : frame.digits.take (idDigits frame.extended) =
      padStart (idDigits frame.extended) (hexDigits frame.id) := List.take_left' hidLength
  have hget : frame.digits[idDigits frame.extended]? = some (upperUnit frame.dlc) := by
    rw [CanAdapterFrame.digits, List.getElem?_append_right (Nat.le_of_eq hidLength), hidLength,
      Nat.sub_self]
    rfl
  have hdrop : frame.digits.drop (idDigits frame.extended + 1) =
      if frame.remote then [] else hexBytes (zeroPad frame.length frame.data) := by
    rw [← List.drop_drop, CanAdapterFrame.digits, List.drop_left' hidLength]
    rfl
  have hne : frame.digits ≠ [] := by
    intro hnil
    rw [hnil] at hget
    cases hget
  rw [parseSlcanLine, if_neg (fun hack => hne hack.2), if_pos frame.type_mem, parseFrameLine]
  simp only [hextended, hfd, hrtr, htake, hget, hidLength, hidHex, hdlcHex, hdlcRead, hdrop,
    readHex_padStart]
  rw [if_neg (by simp),
    if_neg (fun hlong => absurd (h.dlc_lt.2 hlong.1) (Nat.not_le_of_lt hlong.2)),
    if_neg (Nat.not_lt_of_le h.id_le), CanAdapterFrame.received, lineRawId_eq h.id_le]
  cases hremote : frame.remote with
  | true => rfl
  | false =>
    have hlength : (if frame.fd then canLengthForDlc frame.dlc else frame.dlc) = frame.length := by
      rw [CanAdapterFrame.length, CanAdapterFrame.dlc]
      cases frame.fd <;> rfl
    have hbytes : (hexBytes (zeroPad frame.length frame.data)).length = frame.length * 2 := by
      rw [hexBytes_length, h.length_eq]
    have hhex : (hexBytes (zeroPad frame.length frame.data)).all isHex = true :=
      List.all_eq_true.mpr fun c hc => isHex_hexBytes hc
    have hread := read_hexBytes (zeroPad frame.length frame.data)
    rw [h.length_eq] at hread
    simp only [Bool.false_eq_true, if_false, hlength]
    rw [List.take_of_length_le (Nat.le_of_eq hbytes), List.drop_eq_nil_of_le (Nat.le_of_eq hbytes),
      if_neg (by simp [hbytes, hhex]), hread]
    rfl

/-! ## Streams of lines -/

structure Malformed (line : Bytes) : Prop where
  no_end : 0x0d ∉ line
  no_bell : 0x07 ∉ line
  unread : parseSlcanLine (lineText line) = none

inductive Traffic
  | frame (f : CanAdapterFrame)
  | noise (line : Bytes)

def Traffic.bytes : Traffic → Bytes
  | .frame f =>
    match encodeSlcanFrame f with
    | .ok text => encodeText text
    | .error _ => []
  | .noise line => line ++ [0x0d]

def Traffic.received : Traffic → Option SlcanLine
  | .frame f => some f.received
  | .noise _ => none

def Traffic.heard : Traffic → List SlcanLine
  | .frame f => [f.received]
  | .noise line => (parseSlcanLine (remnant (lineText line))).toList

def Traffic.Fair : Traffic → Prop
  | .frame f => f.Sendable
  | .noise line => Malformed line

theorem isHex_printable {c : UInt16} (h : isHex c = true) : 0x20 ≤ c.toNat ∧ c.toNat < 0x7f := by
  have hrange := isHex_range h
  omega

theorem CanAdapterFrame.line_printable (h : frame.Sendable) :
    ∀ c ∈ frame.type :: frame.digits, 0x20 ≤ c.toNat ∧ c.toNat < 0x7f := by
  intro c hc
  rcases List.mem_cons.mp hc with rfl | hc
  · have hall : ∀ c ∈ frameTypes, 0x20 ≤ c.toNat ∧ c.toNat < 0x7f := by decide
    exact hall _ frame.type_mem
  · rcases List.mem_append.mp hc with hid | hrest
    · exact isHex_printable (isHex_padStart hid)
    rcases List.mem_cons.mp hrest with rfl | hdata
    · exact isHex_printable (readDlc frame h).1
    · split_ifs at hdata
      · cases hdata
      · exact isHex_printable (isHex_hexBytes hdata)

theorem CanAdapterFrame.line_short (h : frame.Sendable) :
    (frame.type :: frame.digits).length ≤ 200 := by
  have hwidth : 0 < idDigits frame.extended ∧ idDigits frame.extended ≤ 8 := by
    rw [idDigits]
    split <;> decide
  have hlength : frame.length ≤ 64 := by
    have hdata := h.data_le
    rw [length, dlc]
    cases hfd : frame.fd with
    | true =>
      rw [hfd] at hdata
      exact (canLengthForDlc_least hdata).2.2 64 (by decide) hdata
    | false =>
      rw [hfd] at hdata
      exact Nat.le_trans hdata (by decide)
  have hbody : (if frame.remote then [] else hexBytes (zeroPad frame.length frame.data)).length ≤
      128 := by
    split_ifs
    · exact Nat.zero_le _
    · rw [hexBytes_length, h.length_eq]
      omega
  rw [List.length_cons, digits, List.length_append, padStart_length hwidth.1 h.id_lt.1,
    List.length_cons]
  omega

theorem lineText_encoded {t : Text} (h : ∀ c ∈ t, 0x20 ≤ c.toNat ∧ c.toNat < 0x7f) :
    lineText (t.map UInt16.toUInt8) = t ∧ (0x0d : UInt8) ∉ t.map UInt16.toUInt8 ∧
      (0x07 : UInt8) ∉ t.map UInt16.toUInt8 := by
  have hkept : ∀ c ∈ t, c.toUInt8.toNat = c.toNat := by
    intro c hc
    rw [UInt16.toNat_toUInt8]
    exact Nat.mod_eq_of_lt (by have := h c hc; omega)
  have hprint : ∀ c ∈ t, isPrintable c.toUInt8 = true := by
    intro c hc
    have hrange := h c hc
    rw [← hkept c hc] at hrange
    simpa [isPrintable, UInt8.le_iff_toNat_le, UInt8.lt_iff_toNat_lt] using hrange
  refine ⟨?_, ?_, ?_⟩
  · have hfilter : (t.map UInt16.toUInt8).filter isPrintable = t.map UInt16.toUInt8 := by
      apply List.filter_eq_self.mpr
      intro byte hbyte
      obtain ⟨c, hc, rfl⟩ := List.mem_map.mp hbyte
      exact hprint c hc
    rw [lineText, hfilter, List.map_map]
    refine (List.map_congr_left fun c hc => ?_).trans (List.map_id t)
    rw [Function.comp_apply, id, ← UInt16.toNat_inj, UInt8.toNat_toUInt16, hkept c hc]
  · intro hend
    obtain ⟨c, hc, heq⟩ := List.mem_map.mp hend
    have hbad := hprint c hc
    rw [heq] at hbad
    revert hbad
    decide
  · intro hbell
    obtain ⟨c, hc, heq⟩ := List.mem_map.mp hbell
    have hbad := hprint c hc
    rw [heq] at hbad
    revert hbad
    decide

theorem Traffic.bytes_frame {f : CanAdapterFrame} (h : f.Sendable) :
    (Traffic.frame f).bytes = (f.type :: f.digits).map UInt16.toUInt8 ++ [0x0d] := by
  have hascii : ∀ c ∈ f.type :: f.digits ++ [CARRIAGE_RETURN], c.toNat < 0x80 := by
    intro c hc
    rcases List.mem_append.mp hc with hline | hend
    · have := CanAdapterFrame.line_printable h c hline
      omega
    · rw [List.mem_singleton.mp hend]
      decide
  rw [bytes, encodeSlcanFrame_eq h]
  dsimp only
  rw [encodeText_ascii hascii, List.map_append]
  rfl

theorem push_traffic {piece : Traffic} (h : piece.Fair) :
    SlcanLineSplitter.push {} piece.bytes = ({}, piece.heard) := by
  cases piece with
  | frame f =>
    have h : f.Sendable := h
    obtain ⟨htext, hend, hbell⟩ := lineText_encoded (CanAdapterFrame.line_printable h)
    rw [Traffic.bytes_frame h, SlcanLineSplitter.push_whole_line hend hbell, htext,
      remnant_of_short (CanAdapterFrame.line_short h), parse_digits h]
    rfl
  | noise line => exact SlcanLineSplitter.push_whole_line h.no_end h.no_bell

theorem push_stream {traffic : List Traffic} (h : ∀ piece ∈ traffic, piece.Fair) :
    SlcanLineSplitter.push {} (traffic.flatMap Traffic.bytes) =
      ({}, traffic.flatMap Traffic.heard) := by
  induction traffic with
  | nil => rfl
  | cons piece traffic ih =>
    rw [List.flatMap_cons, SlcanLineSplitter.push_append, push_traffic (h piece List.mem_cons_self),
      ih fun p hp => h p (List.mem_cons_of_mem piece hp), List.flatMap_cons]

theorem received_le_heard (traffic : List Traffic) :
    (traffic.filterMap Traffic.received).length ≤ (traffic.flatMap Traffic.heard).length := by
  induction traffic with
  | nil => exact Nat.le_refl 0
  | cons piece traffic ih =>
    cases piece with
    | frame f =>
      simp only [List.filterMap_cons, Traffic.received, List.flatMap_cons, Traffic.heard,
        List.length_cons, List.length_append, List.length_nil]
      omega
    | noise line =>
      simp only [List.filterMap_cons, Traffic.received, List.flatMap_cons, List.length_append]
      omega

theorem heard_eq_received_iff (traffic : List Traffic) :
    traffic.flatMap Traffic.heard = traffic.filterMap Traffic.received ↔
      ∀ line, .noise line ∈ traffic → parseSlcanLine (remnant (lineText line)) = none := by
  induction traffic with
  | nil => simp
  | cons piece traffic ih =>
    cases piece with
    | frame f =>
      simp only [List.flatMap_cons, Traffic.heard, List.filterMap_cons, Traffic.received,
        List.cons_append, List.nil_append, List.cons.injEq, true_and, List.mem_cons, reduceCtorEq,
        false_or]
      exact ih
    | noise line =>
      have hcount := received_le_heard traffic
      simp only [List.flatMap_cons, List.filterMap_cons, Traffic.received, List.mem_cons,
        Traffic.noise.injEq, forall_eq_or_imp, ← ih, Traffic.heard]
      cases hread : parseSlcanLine (remnant (lineText line)) with
      | none => simp
      | some out =>
        simp only [Option.toList_some, List.cons_append, List.nil_append, reduceCtorEq, false_and,
          iff_false]
        intro heq
        have hlen := congrArg List.length heq
        rw [List.length_cons] at hlen
        omega

/-- For every stream of frames and malformed lines and every cut into chunks, the splitter gives
back exactly the frames, in order, if and only if no malformed line of more than two hundred
characters ends in a remnant that reads. -/
theorem frames_read_back_iff {traffic : List Traffic} {chunks : List Bytes}
    (hfair : ∀ piece ∈ traffic, piece.Fair)
    (hchunks : chunks.flatten = traffic.flatMap Traffic.bytes) :
    (SlcanLineSplitter.feed {} chunks).2 = traffic.filterMap Traffic.received ↔
      ∀ line, .noise line ∈ traffic → 200 < (lineText line).length →
        parseSlcanLine (remnant (lineText line)) = none := by
  rw [SlcanLineSplitter.feed_eq_push, hchunks, push_stream hfair, heard_eq_received_iff]
  refine ⟨fun h line hmem _ => h line hmem, fun h line hmem => ?_⟩
  by_cases hlong : 200 < (lineText line).length
  · exact h line hmem hlong
  · rw [remnant_of_short (Nat.le_of_not_lt hlong)]
    exact (hfair _ hmem).unread

/-- An FD frame of nine bytes, a line that does not read and a remote frame, cut within a line. -/
theorem frames_read_back_cut :
    (SlcanLineSplitter.feed {}
        [[0x44, 0x31, 0x32, 0x33, 0x34, 0x35, 0x36, 0x37, 0x38, 0x39, 0x30],
          [0x31, 0x30, 0x32, 0x30, 0x33, 0x30, 0x34, 0x30, 0x35, 0x30, 0x36, 0x30, 0x37, 0x30, 0x38,
            0x30, 0x39, 0x30, 0x30, 0x30, 0x30, 0x30, 0x30, 0x0d, 0x74],
          [0x78, 0x0d, 0x72, 0x31, 0x32], [0x33, 0x32, 0x0d]]).2 =
      [.frame 0x92345678 [1, 2, 3, 4, 5, 6, 7, 8, 9, 0, 0, 0] true none,
        .frame 0x40000123 [] false none] := by
  have hframes : ([.frame ⟨0x12345678, true, [1, 2, 3, 4, 5, 6, 7, 8, 9], true, false⟩,
      .noise [0x74, 0x78], .frame ⟨0x123, false, [1, 2], false, true⟩] : List Traffic).filterMap
        Traffic.received = [.frame 0x92345678 [1, 2, 3, 4, 5, 6, 7, 8, 9, 0, 0, 0] true none,
          .frame 0x40000123 [] false none] := by decide
  rw [← hframes]
  refine (frames_read_back_iff ?_ (by decide)).mpr ?_
  · intro piece hpiece
    rcases List.mem_cons.mp hpiece with rfl | hpiece
    · exact ⟨by decide, by decide⟩
    rcases List.mem_cons.mp hpiece with rfl | hpiece
    · exact ⟨by decide, by decide, by decide⟩
    rw [List.mem_singleton.mp hpiece]
    exact ⟨by decide, by decide⟩
  · intro line hline hlong
    have hnoise : line = [0x74, 0x78] := by simpa using hline
    rw [hnoise] at hlong
    exact absurd hlong (by decide)

def runawayLine : Bytes := List.replicate 201 0x74 ++ [0x74, 0x31, 0x32, 0x33, 0x30]

/-- The end of a runaway line is read as a frame that nobody sent. -/
theorem runaway_line_reads :
    Malformed runawayLine ∧
      (SlcanLineSplitter.feed {} [(Traffic.noise runawayLine).bytes]).2 =
        [.frame 0x123 [] false none] ∧
      (SlcanLineSplitter.feed {} [(Traffic.noise runawayLine).bytes]).2 ≠
        [Traffic.noise runawayLine].filterMap Traffic.received := by
  have hend : (0x0d : UInt8) ∉ runawayLine := by decide
  have hbell : (0x07 : UInt8) ∉ runawayLine := by decide
  have htext : lineText runawayLine =
      List.replicate 201 0x74 ++ [0x74, 0x31, 0x32, 0x33, 0x30] := by
    rw [lineText, runawayLine, List.filter_append, List.filter_replicate_of_pos (by decide),
      List.map_append, List.map_replicate]
    rfl
  have hheard : (SlcanLineSplitter.feed {} [(Traffic.noise runawayLine).bytes]).2 =
      [.frame 0x123 [] false none] := by
    rw [SlcanLineSplitter.feed_eq_push, List.flatten_singleton, Traffic.bytes,
      SlcanLineSplitter.push_whole_line hend hbell, htext,
      remnant_append_full List.length_replicate]
    decide
  refine ⟨⟨hend, hbell, ?_⟩, hheard, ?_⟩
  · rw [htext]
    decide
  · rw [hheard]
    decide

end ArduConfigurator.CanCore
