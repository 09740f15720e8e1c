import ArduConfigurator.FirmwareFlash.IntelHexGrammar
import ArduConfigurator.FirmwareFlash.IntelHexSegments
import Mathlib.Data.List.Pairwise

/-! # What the Intel HEX parser accepts and what it makes of it

The parser takes two characters for a byte when `Number.parseInt` finds a number in them, and a
record without data for a write like any other. Apart from that it accepts the grammar, and it
puts the bytes where the data records say. -/
namespace ArduConfigurator.FirmwareFlash
set_option autoImplicit false

/-! ## What can be written -/

structure Writable (w : IntelHexSegment) : Prop where
  address : w.address < 2 ^ 32
  length : w.data.length < 256
  bytes : ∀ byte ∈ w.data, byte < 256

/-! ## Lines -/

def writeDigit (n : ℕ) : UInt16 := HEX_DIGITS.getD n 0x30

def writeByte (byte : ℕ) : List UInt16 := [writeDigit (byte / 16), writeDigit (byte % 16)]

theorem hexDigit_writeDigit {n : ℕ} (h : n < 16) : hexDigit (writeDigit n) = some n := by
  have hall : ∀ n < 16, hexDigit (writeDigit n) = some n := by decide +kernel
  exact hall n h

def frameBytes (recordType offset : ℕ) (payload : List ℕ) : List ℕ :=
  let head := payload.length :: offset / 256 :: offset % 256 :: recordType :: payload
  head ++ [(256 - head.sum % 256) % 256]

def writeLine (bytes : List ℕ) : List UInt16 := COLON :: bytes.flatMap writeByte

variable {bytes : List ℕ}

theorem readPairs_writeByte (h : ∀ byte ∈ bytes, byte < 256) :
    readPairs digitPair (bytes.flatMap writeByte) = some bytes := by
  induction bytes with
  | nil => rfl
  | cons byte bytes ih =>
    obtain ⟨hbyte, hrest⟩ := List.forall_mem_cons.mp h
    refine readPairs_cons_eq_some.mpr ⟨byte, bytes, ?_, ih hrest, rfl⟩
    rw [digitPair, hexDigit_writeDigit (by omega), hexDigit_writeDigit (by omega)]
    exact congrArg some (by omega)

theorem length_flatMap_writeByte (bytes : List ℕ) :
    (bytes.flatMap writeByte).length = 2 * bytes.length := by
  induction bytes with
  | nil => rfl
  | cons byte bytes ih =>
    rw [List.flatMap_cons, List.length_append, ih, List.length_cons]
    change 2 + _ = _
    omega

theorem frameBytes_isFrame (recordType offset : ℕ) (payload : List ℕ) :
    IsFrame (frameBytes recordType offset payload) recordType offset payload := by
  refine ⟨⟨offset / 256, offset % 256, _, ?_, rfl⟩, ?_⟩
  · omega
  · rw [frameBytes, List.sum_append, List.sum_singleton]
    omega

theorem frameBytes_lt {recordType offset : ℕ} {payload : List ℕ} (htype : recordType < 256)
    (hoffset : offset < 65536) (hlen : payload.length < 256)
    (hbytes : ∀ byte ∈ payload, byte < 256) :
    ∀ byte ∈ frameBytes recordType offset payload, byte < 256 := by
  intro byte hbyte
  rw [frameBytes] at hbyte
  simp only [List.cons_append, List.mem_cons, List.mem_append, List.not_mem_nil, or_false] at hbyte
  rcases hbyte with rfl | rfl | rfl | rfl | hbyte | rfl
  · exact hlen
  · omega
  · omega
  · exact htype
  · exact hbytes byte hbyte
  · exact Nat.mod_lt _ (by decide)

variable {record : HexRecord}

theorem writeLine_isRecord (hbytes : ∀ byte ∈ bytes, byte < 256) (h : record.Written bytes) :
    IsRecord digitPair (writeLine bytes) record :=
  ⟨bytes.flatMap writeByte, bytes, rfl, length_flatMap_writeByte bytes, readPairs_writeByte hbytes, h⟩

/-! ## Texts -/

def writeText (lines : List (List UInt16)) : List UInt16 := lines.flatMap (· ++ [LINE_FEED])

theorem recordLines_writeText {lines : List (List UInt16)} (h : ∀ line ∈ lines, Solid line) :
    recordLines (writeText lines) = lines := by
  induction lines with
  | nil => decide
  | cons line lines ih =>
    obtain ⟨hline, hlines⟩ := List.forall_mem_cons.mp h
    rw [writeText, List.flatMap_cons, List.append_assoc, recordLines]
    change ((splitLines (line ++ LINE_FEED :: writeText lines)).map trim).filter (· ≠ []) = _
    rw [splitLines_append hline.2, List.map_cons, trim_solid hline,
      List.filter_cons_of_pos (by simpa using hline.1)]
    exact congrArg (line :: ·) (ih hlines)

theorem isRecord_solid {line : List UInt16} (h : IsRecord digitPair line record) : Solid line := by
  have hdigits := (isRecord_digitPair.mp h).1
  obtain ⟨body, bytes, rfl, -⟩ := h
  refine ⟨List.cons_ne_nil _ _, List.forall_mem_cons.mpr ⟨by decide, fun c hc => ?_⟩⟩
  have hall : (HEX_DIGITS.all fun c => !isWhiteSpace c) = true := by decide
  simpa using List.all_eq_true.mp hall c (mem_HEX_DIGITS (hdigits c hc))

def writeRecords (w : IntelHexSegment) : List HexRecord :=
  [.extendedLinear (w.address / 65536), .data (w.address % 65536) w.data]

variable {writes : List IntelHexSegment}

theorem placeRecords_writeRecords (h : ∀ w ∈ writes, Writable w) (base : ℕ) :
    placeRecords base (writes.flatMap writeRecords) = writes := by
  induction writes generalizing base with
  | nil => rfl
  | cons w writes ih =>
    obtain ⟨hw, hwrites⟩ := List.forall_mem_cons.mp h
    have haddress : (w.address / 65536 * 0x10000 + w.address % 65536) % 2 ^ 32 = w.address := by
      have := hw.address
      omega
    rw [List.flatMap_cons]
    change ⟨(w.address / 65536 * 0x10000 + w.address % 65536) % 2 ^ 32, w.data⟩ ::
      placeRecords _ (writes.flatMap writeRecords) = w :: writes
    rw [ih hwrites, haddress]

theorem exists_text (h : ∀ w ∈ writes, Writable w) :
    ∃ text, Reads digitPair text writes := by
  have hline : ∀ record ∈ writes.flatMap writeRecords ++ [.endOfFile],
      ∃ line, IsRecord digitPair line record := by
    intro record hrecord
    rcases List.mem_append.mp hrecord with hrecord | hrecord
    · obtain ⟨w, hw, hrecord⟩ := List.mem_flatMap.mp hrecord
      obtain ⟨haddress, hlen, hbytes⟩ := h w hw
      simp only [writeRecords, List.mem_cons, List.not_mem_nil, or_false] at hrecord
      rcases hrecord with rfl | rfl
      · have hupper : w.address / 65536 / 256 * 256 + w.address / 65536 % 256 =
            w.address / 65536 := by omega
        refine ⟨writeLine (frameBytes RECORD_EXT_LINEAR 0
          [w.address / 65536 / 256, w.address / 65536 % 256]), writeLine_isRecord
            (frameBytes_lt (by decide) (by decide) (by simp) ?_) ?_⟩
        · intro byte hbyte
          simp only [List.mem_cons, List.not_mem_nil, or_false] at hbyte
          omega
        · have hwritten := HexRecord.Written.extendedLinear
            (frameBytes_isFrame RECORD_EXT_LINEAR 0
              [w.address / 65536 / 256, w.address / 65536 % 256])
          rwa [hupper] at hwritten
      · exact ⟨_, writeLine_isRecord (frameBytes_lt (by decide) (Nat.mod_lt _ (by decide)) hlen
          hbytes) (.data (frameBytes_isFrame _ _ _))⟩
    · rw [List.mem_singleton] at hrecord
      subst hrecord
      exact ⟨_, writeLine_isRecord (frameBytes_lt (by decide) (by decide) (by decide) (by simp))
        (.endOfFile (frameBytes_isFrame RECORD_EOF 0 []))⟩
  obtain ⟨lines, hlines⟩ : ∃ lines, List.Forall₂ (IsRecord digitPair) lines
      (writes.flatMap writeRecords ++ [.endOfFile]) := by
    generalize writes.flatMap writeRecords ++ [.endOfFile] = records at hline
    induction records with
    | nil => exact ⟨[], .nil⟩
    | cons record records ih =>
      obtain ⟨line, hrecord⟩ := hline record List.mem_cons_self
      obtain ⟨lines, hrest⟩ := ih fun r hr => hline r (List.mem_cons_of_mem _ hr)
      exact ⟨line :: lines, .cons hrecord hrest⟩
  have hsolid : ∀ line ∈ lines, Solid line := by
    have hand : List.Forall₂ (fun line record => Solid line ∧ IsRecord digitPair line record) lines
        (writes.flatMap writeRecords ++ [.endOfFile]) :=
      hlines.imp fun _ _ hrecord => ⟨isRecord_solid hrecord, hrecord⟩
    exact ((List.forall₂_and_left _ _).mp hand).1
  refine ⟨writeText lines, writes.flatMap writeRecords, ?_, ?_, placeRecords_writeRecords h 0⟩
  · rwa [recordLines_writeText hsolid]
  · intro hmem
    obtain ⟨w, -, hrecord⟩ := List.mem_flatMap.mp hmem
    simp [writeRecords] at hrecord

/-! ## What a text can write -/

theorem digitPair_lt {high low : UInt16} {byte : ℕ} (h : digitPair high low = some byte) :
    byte < 256 := by
  have hall : (HEX_DIGITS.all fun a => HEX_DIGITS.all fun b =>
      (digitPair a b).all fun byte => decide (byte < 256)) = true := by
    decide +kernel
  obtain ⟨hhigh, hlow⟩ := digitPair_eq_some h
  have hrow := List.all_eq_true.mp hall high (mem_HEX_DIGITS hhigh)
  have hpair := List.all_eq_true.mp hrow low (mem_HEX_DIGITS hlow)
  rw [h, Option.all_some] at hpair
  exact of_decide_eq_true hpair

theorem readPairs_lt : ∀ (body : List UInt16) {bytes : List ℕ},
    readPairs digitPair body = some bytes → ∀ byte ∈ bytes, byte < 256
  | [], _, h => by cases h; simp
  | [_], _, h => by cases h; simp
  | high :: low :: rest, _, h => by
    obtain ⟨byte, tail, hbyte, hrest, rfl⟩ := readPairs_cons_eq_some.mp h
    exact List.forall_mem_cons.mpr ⟨digitPair_lt hbyte, readPairs_lt rest hrest⟩

theorem mem_placeRecords {records : List HexRecord} {base : ℕ} {w : IntelHexSegment}
    (h : w ∈ placeRecords base records) :
    w.address < 2 ^ 32 ∧ ∃ offset, HexRecord.data offset w.data ∈ records := by
  induction records generalizing base with
  | nil => cases h
  | cons record records ih =>
    have htail : ∀ base, w ∈ placeRecords base records →
        w.address < 2 ^ 32 ∧ ∃ offset, HexRecord.data offset w.data ∈ record :: records :=
      fun base hw => (ih hw).imp_right fun ⟨offset, hmem⟩ => ⟨offset, List.mem_cons_of_mem _ hmem⟩
    cases record with
    | data offset bytes =>
      rcases List.mem_cons.mp h with rfl | h
      · exact ⟨Nat.mod_lt _ (by decide), offset, List.mem_cons_self⟩
      · exact htail _ h
    | _ => exact htail _ h

variable {text : List UInt16}

theorem reads_writable (h : Reads digitPair text writes) : ∀ w ∈ writes, Writable w := by
  obtain ⟨records, hall, -, rfl⟩ := h
  intro w hw
  obtain ⟨haddress, offset, hmem⟩ := mem_placeRecords hw
  have hand : List.Forall₂ (fun record line => (∃ l, IsRecord digitPair l record) ∧
      IsRecord digitPair line record) (records ++ [.endOfFile]) (recordLines text) :=
    hall.flip.imp fun record line hrecord => ⟨⟨line, hrecord⟩, hrecord⟩
  obtain ⟨line, body, bytes, -, -, hbytes, hwritten⟩ :=
    ((List.forall₂_and_left _ _).mp hand).1 _ (List.mem_append_left _ hmem)
  have hlt := readPairs_lt body hbytes
  cases hwritten with
  | data hframe =>
    obtain ⟨⟨high, low, checksum, -, hlayout⟩, -⟩ := hframe
    subst hlayout
    simp only [List.forall_mem_cons, List.forall_mem_append] at hlt
    exact ⟨haddress, hlt.1, hlt.2.2.2.2.1⟩

/-! ## What is accepted -/

/-- Records of digits, one end-of-file record, and no two data records on the same address. -/
def WellFormed (text : List UInt16) : Prop :=
  ∃ writes, Reads digitPair text writes ∧ writes.Pairwise Disjoint

/-- The segments are non-empty, ascending, apart and merged where they touch; they hold the bytes
of the data records; and a text with the data records in another order parses to the same. -/
structure Assembles (text : List UInt16) (parsed : ParsedIntelHex) : Prop where
  nonempty : ∀ s ∈ parsed.segments, s.data ≠ []
  apart : parsed.segments.Pairwise fun s t => s.endAddress < t.address
  bytes : ∀ writes, Reads digitPair text writes → ∀ x v,
    (∃ s ∈ parsed.segments, s.byteAt x = some v) ↔ ∃ w ∈ writes, w.byteAt x = some v
  order : ∀ writes, Reads digitPair text writes → ∀ other writes', Reads digitPair other writes' →
    writes.Perm writes' → parseIntelHex other = .ok parsed

/-- The parser accepts the text when it is well formed, and then assembles its data records. -/
def ParsesHex (text : List UInt16) : Prop :=
  ((∃ parsed, parseIntelHex text = .ok parsed) ↔ WellFormed text) ∧
    ∀ parsed, parseIntelHex text = .ok parsed → Assembles text parsed

/-- A write without bytes is out of the way: it lies at the end of a write with bytes, and within
none. -/
structure OutOfTheWay (writes : List IntelHexSegment) (z : IntelHexSegment) : Prop where
  after : ∃ a ∈ writes, a.data ≠ [] ∧ a.endAddress = z.address
  outside : ∀ a ∈ writes, z.address < a.address ∨ a.endAddress ≤ z.address

/-- The text is not even read as records, or it has only digits and every data record without data
is out of the way (unless two data records overlap), or it is refused for its overlaps. -/
def PlainHex (text : List UInt16) : Prop :=
  ∀ writes, Reads pairByte text writes →
    (HexOnly text ∧
      (writes.Pairwise Disjoint → ∀ z ∈ writes, z.data = [] → OutOfTheWay writes z)) ∨
    (¬ HexOnly text ∧ ¬ writes.Pairwise Clear)

/-! ## Disjoint writes that join -/

theorem Clear.disjoint {a b : IntelHexSegment} (h : Clear a b) : Disjoint a b := by
  rw [disjoint_iff]
  rcases Nat.lt_or_ge b.address a.address with hlt | hle
  · exact .inr (.inr (.inr (h.2 hlt)))
  · exact .inr (.inr (.inl (h.1 hle)))

theorem pairwise_clear {writes' : List IntelHexSegment} (hdisjoint : writes.Pairwise Disjoint)
    (hempty : ∀ z ∈ writes, z.data = [] → OutOfTheWay writes z) (hperm : writes.Perm writes') :
    writes'.Pairwise Clear := by
  have hsymm : ∀ {a b}, Disjoint a b → Disjoint b a := fun h x => (h x).symm
  refine ((hperm.pairwise_iff hsymm).mp hdisjoint).imp_of_mem fun {a b} ha hb hab => ?_
  rw [disjoint_iff] at hab
  rw [← hperm.mem_iff] at ha hb
  have haend := a.address_le_endAddress
  have hbend := b.address_le_endAddress
  by_cases hadata : a.data = []
  · have hout := (hempty a ha hadata).outside b hb
    have := IntelHexSegment.endAddress_eq_address.mpr hadata
    exact ⟨fun _ => by omega, fun _ => by omega⟩
  by_cases hbdata : b.data = []
  · have hout := (hempty b hb hbdata).outside a ha
    have := IntelHexSegment.endAddress_eq_address.mpr hbdata
    exact ⟨fun _ => by omega, fun _ => by omega⟩
  have hapos := IntelHexSegment.address_lt_endAddress hadata
  have hbpos := IntelHexSegment.address_lt_endAddress hbdata
  rcases hab with hab | hab | hab | hab
  · exact absurd hab hadata
  · exact absurd hab hbdata
  · exact ⟨fun _ => hab, fun _ => by omega⟩
  · exact ⟨fun _ => by omega, fun _ => hab⟩

variable {segments : List IntelHexSegment}

theorem Joins.apart_of_ne {s t : IntelHexSegment} (h : Joins segments writes) (hs : s ∈ segments)
    (ht : t ∈ segments) (hne : s ≠ t) :
    s.endAddress < t.address ∨ t.endAddress < s.address := by
  have hsymm : Std.Symm fun s t : IntelHexSegment =>
      s.endAddress < t.address ∨ t.endAddress < s.address := ⟨fun _ _ => Or.symm⟩
  have hpair : segments.Pairwise fun s t =>
      s.endAddress < t.address ∨ t.endAddress < s.address := h.apart.imp Or.inl
  exact hpair.forall hs ht hne

theorem Joins.nonempty (h : Joins segments writes)
    (hempty : ∀ z ∈ writes, z.data = [] → OutOfTheWay writes z) : ∀ s ∈ segments, s.data ≠ [] := by
  intro s hs hdata
  obtain ⟨z, hz, haddress, hzdata⟩ := h.origin s hs
  obtain ⟨⟨a, ha, hadata, hend⟩, -⟩ := hempty z hz (hzdata hdata)
  obtain ⟨t, ht, hle, hge⟩ := h.within a ha
  have hapos := IntelHexSegment.address_lt_endAddress hadata
  have hsend := IntelHexSegment.endAddress_eq_address.mpr hdata
  have hne : s ≠ t := by
    rintro rfl
    omega
  rcases h.apart_of_ne hs ht hne with hlt | hlt <;> omega

/-! ## The condition -/

theorem parse_of_clear (hreads : Reads pairByte text writes) (hclear : writes.Pairwise Clear) :
    ∃ parsed, coalesce writes = .ok parsed ∧ parseIntelHex text = .ok parsed := by
  obtain ⟨parsed, h⟩ := coalesce_isOk.mpr hclear
  exact ⟨parsed, h, parseIntelHex_eq_ok.mpr ⟨writes, hreads, h⟩⟩

variable {parsed : ParsedIntelHex}

theorem coalesce_of_parse (hreads : Reads pairByte text writes)
    (h : parseIntelHex text = .ok parsed) : coalesce writes = .ok parsed := by
  obtain ⟨writes', hreads', hcoalesce⟩ := parseIntelHex_eq_ok.mp h
  rwa [reads_unique hreads hreads']

variable {z : IntelHexSegment}

theorem Assembles.outside (h : Assembles text parsed) (hreads : Reads digitPair text writes)
    (hz : z ∈ writes) (hzdata : z.data = []) :
    ∀ a ∈ writes, z.address < a.address ∨ a.endAddress ≤ z.address := by
  intro a ha
  by_contra hin
  rw [not_or, not_lt, not_le] at hin
  have haz : z ≠ a := by
    rintro rfl
    have := IntelHexSegment.endAddress_eq_address.mpr hzdata
    omega
  have hperm : writes.Perm (a :: z :: (writes.erase a).erase z) :=
    (List.perm_cons_erase ha).trans
      ((List.perm_cons_erase ((List.mem_erase_of_ne haz).mpr hz)).cons a)
  obtain ⟨other, hother⟩ := exists_text fun w (hw : w ∈ a :: z :: (writes.erase a).erase z) =>
    reads_writable hreads w (hperm.mem_iff.mpr hw)
  have hparse := h.order writes hreads other _ hother hperm
  have hclear := coalesce_isOk.mp ⟨_, coalesce_of_parse (reads_digitPair.mp hother).1 hparse⟩
  have haz := (List.pairwise_cons.mp hclear).1 z List.mem_cons_self
  have := haz.1 hin.1
  omega

theorem Joins.after (h : Joins segments writes) (hnonempty : ∀ s ∈ segments, s.data ≠ [])
    (hz : z ∈ writes) (houtside : ∀ a ∈ writes, z.address < a.address ∨ a.endAddress ≤ z.address) :
    ∃ a ∈ writes, a.data ≠ [] ∧ a.endAddress = z.address := by
  obtain ⟨s, hs, hle, hge⟩ := h.within z hz
  have hzend := z.address_le_endAddress
  have hpos := IntelHexSegment.address_lt_endAddress (hnonempty s hs)
  have hcovered : ∀ x, s.address ≤ x → x < s.endAddress →
      ∃ a ∈ writes, a.address ≤ x ∧ x < a.endAddress := by
    intro x hx hxe
    obtain ⟨v, hv⟩ := IntelHexSegment.byteAt_isSome.mpr ⟨hx, hxe⟩
    obtain ⟨a, ha, hav⟩ := (h.bytes x v).mp ⟨s, hs, hv⟩
    exact ⟨a, ha, IntelHexSegment.byteAt_isSome.mp ⟨v, hav⟩⟩
  rcases Nat.eq_or_lt_of_le hle with heq | hlt
  · obtain ⟨a, ha, hale, hage⟩ := hcovered z.address hle (by omega)
    have := houtside a ha
    omega
  · obtain ⟨a, ha, hale, hage⟩ := hcovered (z.address - 1) (by omega) (by omega)
    have hout := houtside a ha
    refine ⟨a, ha, fun hdata => ?_, by omega⟩
    have := IntelHexSegment.endAddress_eq_address.mpr hdata
    omega

theorem plainHex_of_parsesHex (h : ParsesHex text) : PlainHex text := by
  obtain ⟨haccept, hassemble⟩ := h
  intro writes hreads
  by_cases hhex : HexOnly text
  · refine .inl ⟨hhex, fun hdisjoint z hz hzdata => ?_⟩
    have hstrict : Reads digitPair text writes := reads_digitPair.mpr ⟨hreads, hhex⟩
    obtain ⟨parsed, hparse⟩ := haccept.mpr ⟨writes, hstrict, hdisjoint⟩
    have hparsed := hassemble parsed hparse
    have houtside := hparsed.outside hstrict hz hzdata
    have hjoins := coalesce_joins (coalesce_of_parse hreads hparse)
    exact ⟨hjoins.after hparsed.nonempty hz houtside, houtside⟩
  · refine .inr ⟨hhex, fun hclear => ?_⟩
    obtain ⟨parsed, -, hparse⟩ := parse_of_clear hreads hclear
    obtain ⟨writes', hstrict, -⟩ := haccept.mp ⟨parsed, hparse⟩
    exact hhex (reads_digitPair.mp hstrict).2

theorem parsesHex_of_plainHex (h : PlainHex text) : ParsesHex text := by
  constructor
  · constructor
    · rintro ⟨parsed, hparse⟩
      obtain ⟨writes, hreads, hcoalesce⟩ := parseIntelHex_eq_ok.mp hparse
      have hclear := coalesce_isOk.mp ⟨parsed, hcoalesce⟩
      rcases h writes hreads with ⟨hhex, -⟩ | ⟨-, hoverlap⟩
      · exact ⟨writes, reads_digitPair.mpr ⟨hreads, hhex⟩, hclear.imp Clear.disjoint⟩
      · exact absurd hclear hoverlap
    · rintro ⟨writes, hstrict, hdisjoint⟩
      obtain ⟨hreads, hhex⟩ := reads_digitPair.mp hstrict
      rcases h writes hreads with ⟨-, hempty⟩ | ⟨hother, -⟩
      · obtain ⟨parsed, -, hparse⟩ :=
          parse_of_clear hreads (pairwise_clear hdisjoint (hempty hdisjoint) (.refl _))
        exact ⟨parsed, hparse⟩
      · exact absurd hhex hother
  · intro parsed hparse
    obtain ⟨writes, hreads, hcoalesce⟩ := parseIntelHex_eq_ok.mp hparse
    have hclear := coalesce_isOk.mp ⟨parsed, hcoalesce⟩
    rcases h writes hreads with ⟨hhex, hempty⟩ | ⟨-, hoverlap⟩
    case inr => exact absurd hclear hoverlap
    have hdisjoint := hclear.imp Clear.disjoint
    have hjoins := coalesce_joins hcoalesce
    have hsame : ∀ writes', Reads digitPair text writes' → writes' = writes := fun writes' h' =>
      reads_unique (reads_digitPair.mp h').1 hreads
    refine ⟨hjoins.nonempty (hempty hdisjoint), hjoins.apart, ?_, ?_⟩
    · intro writes' h'
      rw [hsame writes' h']
      exact hjoins.bytes
    · intro writes' h' other reordered hother hperm
      rw [hsame writes' h'] at hperm
      have hreordered := pairwise_clear hdisjoint (hempty hdisjoint) hperm
      obtain ⟨parsed', hcoalesce', hparse'⟩ := parse_of_clear (reads_digitPair.mp hother).1 hreordered
      rw [← coalesce_perm hperm hclear hreordered, hcoalesce] at hcoalesce'
      cases hcoalesce'
      exact hparse'

/-- The parser accepts the well-formed texts and assembles their data records exactly on the texts
that are plain. -/
theorem parses_hex (text : List UInt16) : ParsesHex text ↔ PlainHex text :=
  ⟨plainHex_of_parsesHex, parsesHex_of_plainHex⟩

/-- `:000000+1FF`. -/
def signedRecord : List UInt16 :=
  [0x3A, 0x30, 0x30, 0x30, 0x30, 0x30, 0x30, 0x2B, 0x31, 0x46, 0x46]

/-- A record with a sign in it is taken for the end-of-file record. -/
theorem signed_record_accepted : ¬ ParsesHex signedRecord := by
  intro h
  have hparse : parseIntelHex signedRecord = .ok ⟨[], 0, 0, 0⟩ := by decide +kernel
  obtain ⟨writes, hreads, -⟩ := h.1.mp ⟨_, hparse⟩
  have hdigits : ¬ HexOnly signedRecord := by decide +kernel
  exact hdigits (reads_digitPair.mp hreads).2

end ArduConfigurator.FirmwareFlash
