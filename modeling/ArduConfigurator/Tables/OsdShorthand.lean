import ArduConfigurator.Tables.VtxRoundTrip

/-! # The OSD shorthand blob

`parseOsdShorthand` and `serializeOsdShorthand` of `osd-shorthand.ts`: pairs of texts as they are kept
in @OSD/shorthand.dat. A field ends with a zero byte, which a writer leaves room for. -/
namespace ArduConfigurator.Tables
set_option autoImplicit false

def OSD_SHORTHAND_MAGIC : ℕ := 0x534f
def OSD_SHORTHAND_VERSION : ℕ := 1
def OSD_SHORTHAND_MAX_ENTRIES : ℕ := 16
def OSD_SHORTHAND_FROM_LEN : ℕ := 16
def OSD_SHORTHAND_TO_LEN : ℕ := 10
def ENTRY_LEN : ℕ := OSD_SHORTHAND_FROM_LEN + OSD_SHORTHAND_TO_LEN
def HEADER_LEN : ℕ := 4
def CRC_LEN : ℕ := 4

structure OsdShorthandEntry where
  fromText : Text
  toText : Text
  deriving DecidableEq

structure OsdShorthand where
  entries : List OsdShorthandEntry

def osdShorthandCrc32 (bytes : Bytes) : UInt32 := crc32 bytes

/-! ## Parsing -/

/-- `pastEnd` stands for a read that finds no byte. -/
inductive OsdShorthandParseError
  | tooShort
  | badMagic (magic : ℕ)
  | unsupportedVersion (version : ℕ)
  | overCount (count : ℕ)
  | truncated
  | crcMismatch
  | pastEnd

def OsdShorthandParseError.message : OsdShorthandParseError → String
  | .tooShort => "OSD shorthand blob too short for its header."
  | .badMagic magic => "OSD shorthand bad magic 0x" ++ String.ofList (Nat.toDigits 16 magic) ++ "."
  | .unsupportedVersion version =>
    "Unsupported OSD shorthand version " ++ toString version ++ "."
  | .overCount count =>
    "OSD shorthand count " ++ toString count ++ " exceeds " ++ toString OSD_SHORTHAND_MAX_ENTRIES
      ++ "."
  | .truncated => "OSD shorthand blob truncated."
  | .crcMismatch => "OSD shorthand CRC mismatch."
  | .pastEnd => ""

def readEntries (bytes : Bytes) : ℕ → ℕ → Option (List OsdShorthandEntry)
  | _, 0 => some []
  | offset, count + 1 =>
    (fieldAt bytes offset OSD_SHORTHAND_FROM_LEN).bind fun fromText =>
    (fieldAt bytes (offset + OSD_SHORTHAND_FROM_LEN) OSD_SHORTHAND_TO_LEN).bind fun toText =>
    (readEntries bytes (offset + ENTRY_LEN) count).map fun entries =>
      ⟨fieldText fromText, fieldText toText⟩ :: entries

def parseOsdShorthand (bytes : Bytes) : Except OsdShorthandParseError OsdShorthand :=
  if bytes.length < HEADER_LEN + CRC_LEN then .error .tooShort
  else
    match readLE bytes 0 2, bytes[2]?, bytes[3]? with
    | some magic, some version, some count =>
      let count := count.toNat
      let need := HEADER_LEN + count * ENTRY_LEN + CRC_LEN
      if magic ≠ OSD_SHORTHAND_MAGIC then .error (.badMagic magic)
      else if version.toNat ≠ OSD_SHORTHAND_VERSION then .error (.unsupportedVersion version.toNat)
      else if OSD_SHORTHAND_MAX_ENTRIES < count then .error (.overCount count)
      else if bytes.length < need then .error .truncated
      else
        match fieldAt bytes 0 (need - CRC_LEN), readLE bytes (need - 4) 4 with
        | some body, some stored =>
          if (osdShorthandCrc32 body).toNat ≠ stored then .error .crcMismatch
          else
            match readEntries bytes HEADER_LEN count with
            | some entries => .ok ⟨entries⟩
            | none => .error .pastEnd
        | _, _ => .error .pastEnd
    | _, _, _ => .error .pastEnd

/-! ## Serialising -/

structure RawEntry where
  fromText : Bytes
  toText : Bytes

def RawEntry.bytes (raw : RawEntry) : Bytes := raw.fromText ++ raw.toText

def OsdShorthandEntry.raw (entry : OsdShorthandEntry) : RawEntry where
  fromText := textField OSD_SHORTHAND_FROM_LEN (OSD_SHORTHAND_FROM_LEN - 1) entry.fromText
  toText := textField OSD_SHORTHAND_TO_LEN (OSD_SHORTHAND_TO_LEN - 1) entry.toText

def osdBody (raws : List RawEntry) : Bytes :=
  leBytes 2 OSD_SHORTHAND_MAGIC ++
    [UInt8.ofNat OSD_SHORTHAND_VERSION, UInt8.ofNat raws.length] ++ raws.flatMap RawEntry.bytes

def osdBlob (raws : List RawEntry) : Bytes :=
  osdBody raws ++ leBytes 4 (osdShorthandCrc32 (osdBody raws)).toNat

def serializeOsdShorthand (table : OsdShorthand) : Bytes :=
  osdBlob ((table.entries.take OSD_SHORTHAND_MAX_ENTRIES).map OsdShorthandEntry.raw)

/-! ## The entries of a blob -/

namespace RawEntry

structure Valid (raw : RawEntry) : Prop where
  fromText : raw.fromText.length = OSD_SHORTHAND_FROM_LEN
  toText : raw.toText.length = OSD_SHORTHAND_TO_LEN

def entry (raw : RawEntry) : OsdShorthandEntry := ⟨fieldText raw.fromText, fieldText raw.toText⟩

def canonical (raw : RawEntry) : RawEntry where
  fromText := zeroPad OSD_SHORTHAND_FROM_LEN
    ((raw.fromText.rdropWhile isPadByte).take (OSD_SHORTHAND_FROM_LEN - 1))
  toText := zeroPad OSD_SHORTHAND_TO_LEN
    ((raw.toText.rdropWhile isPadByte).take (OSD_SHORTHAND_TO_LEN - 1))

theorem raw_entry (raw : RawEntry) : raw.entry.raw = raw.canonical := by
  rw [OsdShorthandEntry.raw, entry, textField_fieldText, textField_fieldText]
  rfl

theorem Valid.length {raw : RawEntry} (h : raw.Valid) : raw.bytes.length = ENTRY_LEN := by
  rw [bytes, List.length_append, h.fromText, h.toText, ENTRY_LEN]

end RawEntry

structure OsdShorthandEntry.Fits (entry : OsdShorthandEntry) : Prop where
  fromText : FitsField (OSD_SHORTHAND_FROM_LEN - 1) entry.fromText
  toText : FitsField (OSD_SHORTHAND_TO_LEN - 1) entry.toText

theorem OsdShorthandEntry.raw_valid (entry : OsdShorthandEntry) : entry.raw.Valid :=
  ⟨textField_length (by decide), textField_length (by decide)⟩

theorem OsdShorthandEntry.Fits.entry_raw {entry : OsdShorthandEntry} (h : entry.Fits) :
    entry.raw.entry = entry := by
  rw [RawEntry.entry, raw]
  simp only [fieldText_textField h.fromText, fieldText_textField h.toText]

section
variable {raws : List RawEntry}

theorem fieldAt_append (pre field rest : Bytes) {width : ℕ} (h : field.length = width) :
    fieldAt (pre ++ field ++ rest) pre.length width = some field := by
  have hslice := slice_append_right pre (field ++ rest) 0 width
  rw [Nat.add_zero] at hslice
  rw [fieldAt, if_pos (by rw [List.length_append, List.length_append]; omega), List.append_assoc,
    hslice, slice_append_left _ (by omega), slice_zero_of_length h]

theorem readEntries_append (pre rest : Bytes) (h : ∀ raw ∈ raws, raw.Valid) :
    readEntries (pre ++ raws.flatMap RawEntry.bytes ++ rest) pre.length raws.length =
      some (raws.map RawEntry.entry) := by
  induction raws generalizing pre with
  | nil => rfl
  | cons raw raws ih =>
    obtain ⟨hraw, hraws⟩ := List.forall_mem_cons.mp h
    have hfrom := fieldAt_append pre raw.fromText (raw.toText ++ (raws.flatMap RawEntry.bytes ++ rest))
      hraw.fromText
    have hto := fieldAt_append (pre ++ raw.fromText) raw.toText (raws.flatMap RawEntry.bytes ++ rest) hraw.toText
    have hrest := ih (pre ++ raw.bytes) hraws
    rw [List.length_append, hraw.length] at hrest
    rw [List.length_append, hraw.fromText] at hto
    have hbytes : pre ++ (raw :: raws).flatMap RawEntry.bytes ++ rest =
        pre ++ raw.fromText ++ (raw.toText ++ (raws.flatMap RawEntry.bytes ++ rest)) := by
      simp [RawEntry.bytes]
    have hbytes' : pre ++ raw.fromText ++ (raw.toText ++ (raws.flatMap RawEntry.bytes ++ rest)) =
        pre ++ raw.fromText ++ raw.toText ++ (raws.flatMap RawEntry.bytes ++ rest) := by simp
    have hbytes'' : pre ++ raw.fromText ++ raw.toText ++ (raws.flatMap RawEntry.bytes ++ rest) =
        pre ++ raw.bytes ++ raws.flatMap RawEntry.bytes ++ rest := by simp [RawEntry.bytes]
    rw [hbytes, List.length_cons, readEntries, hfrom, Option.bind_some, hbytes', hto,
      Option.bind_some, hbytes'', hrest, Option.map_some, List.map_cons]
    rfl

theorem rawEntries_length (h : ∀ raw ∈ raws, raw.Valid) :
    (raws.flatMap RawEntry.bytes).length = raws.length * ENTRY_LEN := by
  induction raws with
  | nil => rw [List.flatMap_nil, List.length_nil, List.length_nil, Nat.zero_mul]
  | cons raw raws ih =>
    obtain ⟨hraw, hraws⟩ := List.forall_mem_cons.mp h
    rw [List.flatMap_cons, List.length_append, hraw.length, ih hraws, List.length_cons, Nat.succ_mul,
      Nat.add_comm]

theorem osdBody_length (h : ∀ raw ∈ raws, raw.Valid) :
    (osdBody raws).length = HEADER_LEN + raws.length * ENTRY_LEN := by
  rw [osdBody, List.length_append, rawEntries_length h]
  rfl

theorem exists_rawEntries {bytes : Bytes} {n : ℕ} (h : bytes.length = n * ENTRY_LEN) :
    ∃ raws : List RawEntry, raws.length = n ∧ (∀ raw ∈ raws, raw.Valid) ∧
      raws.flatMap RawEntry.bytes = bytes := by
  induction n generalizing bytes with
  | zero => exact ⟨[], rfl, by simp, (List.length_eq_zero_iff.mp (by omega)).symm⟩
  | succ n ih =>
    rw [Nat.succ_mul] at h
    have hrest : (bytes.drop ENTRY_LEN).length = n * ENTRY_LEN := by
      rw [List.length_drop]
      omega
    obtain ⟨raws, hlength, hvalid, hbytes⟩ := ih hrest
    have hlong : 26 ≤ bytes.length := by
      have hentry : ENTRY_LEN = 26 := rfl
      omega
    refine ⟨⟨bytes.take 16, slice bytes 16 10⟩ :: raws, by rw [List.length_cons, hlength], ?_, ?_⟩
    · refine List.forall_mem_cons.mpr ⟨⟨?_, slice_length (by omega)⟩, hvalid⟩
      rw [List.length_take, OSD_SHORTHAND_FROM_LEN]
      omega
    · rw [List.flatMap_cons, hbytes, RawEntry.bytes, slice, List.append_assoc]
      have hsplit : bytes.drop ENTRY_LEN = (bytes.drop 16).drop 10 := by
        rw [List.drop_drop]
        rfl
      rw [hsplit, List.take_append_drop, List.take_append_drop]

end

/-! ## Reading a blob -/

section
variable {raws : List RawEntry}

theorem parse_osdBlob (hcount : raws.length ≤ OSD_SHORTHAND_MAX_ENTRIES)
    (hvalid : ∀ raw ∈ raws, raw.Valid) (rest : Bytes) :
    parseOsdShorthand (osdBlob raws ++ rest) = .ok ⟨raws.map RawEntry.entry⟩ := by
  have hbody := osdBody_length hvalid
  have hneed : HEADER_LEN + raws.length * ENTRY_LEN + CRC_LEN - 4 = (osdBody raws).length := by
    rw [hbody]
    rfl
  have hlength : (osdBlob raws ++ rest).length = (osdBody raws).length + 4 + rest.length := by
    rw [osdBlob, List.length_append, List.length_append, leBytes_length]
  have hcountByte : (UInt8.ofNat raws.length).toNat = raws.length :=
    toNat_ofNat_small (by rw [OSD_SHORTHAND_MAX_ENTRIES] at hcount; omega)
  have hbytes : osdBlob raws ++ rest = leBytes 2 OSD_SHORTHAND_MAGIC ++
      (UInt8.ofNat OSD_SHORTHAND_VERSION :: UInt8.ofNat raws.length ::
      (raws.flatMap RawEntry.bytes ++
        (leBytes 4 (osdShorthandCrc32 (osdBody raws)).toNat ++ rest))) := by
    simp [osdBlob, osdBody]
  have hmagic : readLE (osdBlob raws ++ rest) 0 2 = some OSD_SHORTHAND_MAGIC := by
    rw [hbytes]
    exact readLE_append [] _ (by rw [OSD_SHORTHAND_MAGIC]; omega)
  have hat : ∀ i, (osdBlob raws ++ rest)[2 + i]? =
      (UInt8.ofNat OSD_SHORTHAND_VERSION :: UInt8.ofNat raws.length ::
      (raws.flatMap RawEntry.bytes ++
        (leBytes 4 (osdShorthandCrc32 (osdBody raws)).toNat ++ rest)))[i]? := by
    intro i
    rw [hbytes, List.getElem?_append_right (by rw [leBytes_length]; omega), leBytes_length,
      Nat.add_sub_cancel_left]
  have hfield : fieldAt (osdBlob raws ++ rest) 0
      (HEADER_LEN + raws.length * ENTRY_LEN + CRC_LEN - CRC_LEN) = some (osdBody raws) := by
    rw [Nat.add_sub_cancel, ← hbody, fieldAt, if_pos (by omega), osdBlob, List.append_assoc,
      slice_append_left _ (by omega), slice_zero_of_length rfl]
  have hstored : readLE (osdBlob raws ++ rest)
      (HEADER_LEN + raws.length * ENTRY_LEN + CRC_LEN - 4) 4 =
        some (osdShorthandCrc32 (osdBody raws)).toNat := by
    rw [hneed, osdBlob]
    exact readLE_append _ _ (UInt32.toNat_lt _)
  have hread : readEntries (osdBlob raws ++ rest) HEADER_LEN raws.length =
      some (raws.map RawEntry.entry) := by
    rw [osdBlob, osdBody, List.append_assoc]
    exact readEntries_append _ _ hvalid
  have hheader : HEADER_LEN + CRC_LEN = 8 := rfl
  have hcrc : CRC_LEN = 4 := rfl
  have hlong : HEADER_LEN ≤ (osdBody raws).length := by omega
  rw [parseOsdShorthand, if_neg (by omega), hmagic, hat 0, hat 1]
  simp only [List.getElem?_cons_zero, List.getElem?_cons_succ, hcountByte, hfield, hstored, hread]
  rw [if_neg (not_not.mpr rfl), if_neg (by decide), if_neg (by omega), if_neg (by omega),
    if_neg (not_not.mpr rfl)]

theorem osd_parse_moves (bytes : Bytes) :
    (∃ e, e ≠ OsdShorthandParseError.pastEnd ∧ parseOsdShorthand bytes = .error e) ∨
      ∃ raws rest, raws.length ≤ OSD_SHORTHAND_MAX_ENTRIES ∧
        (∀ raw ∈ raws, raw.Valid) ∧ bytes = osdBlob raws ++ rest := by
  rw [parseOsdShorthand]
  split
  · exact .inl ⟨_, OsdShorthandParseError.noConfusion, rfl⟩
  next hlength =>
  have hheader : HEADER_LEN + CRC_LEN = 8 := rfl
  obtain ⟨b₀, b₁, version, count, tail, rfl⟩ :
      ∃ b₀ b₁ version count tail, bytes = b₀ :: b₁ :: version :: count :: tail := by
    rcases bytes with _ | ⟨b₀, _ | ⟨b₁, _ | ⟨version, _ | ⟨count, tail⟩⟩⟩⟩
    case cons.cons.cons.cons => exact ⟨_, _, _, _, _, rfl⟩
    all_goals
      exfalso
      exact hlength (by rw [hheader]; simp)
  have hmagic : readLE (b₀ :: b₁ :: version :: count :: tail) 0 2 = some (ofLE [b₀, b₁]) := by
    rw [readLE, if_pos (by simp)]
    rfl
  simp only [hmagic, List.getElem?_cons_succ, List.getElem?_cons_zero]
  generalize hbytes : b₀ :: b₁ :: version :: count :: tail = bytes at *
  split
  · exact .inl ⟨_, OsdShorthandParseError.noConfusion, rfl⟩
  next hmagic =>
  split
  · exact .inl ⟨_, OsdShorthandParseError.noConfusion, rfl⟩
  next hversion =>
  split
  · exact .inl ⟨_, OsdShorthandParseError.noConfusion, rfl⟩
  next hmost =>
  split
  · exact .inl ⟨_, OsdShorthandParseError.noConfusion, rfl⟩
  next hneed =>
  have hlengths : HEADER_LEN + count.toNat * ENTRY_LEN + CRC_LEN =
      4 + count.toNat * ENTRY_LEN + 4 := rfl
  have hcrcLen : CRC_LEN = 4 := rfl
  have hfour : 8 ≤ HEADER_LEN + count.toNat * ENTRY_LEN + CRC_LEN := by omega
  generalize hn : HEADER_LEN + count.toNat * ENTRY_LEN + CRC_LEN = need at *
  obtain ⟨hbody, hstored⟩ := sealed_reads (by omega : 4 ≤ need) (Nat.not_lt.mp hneed)
  simp only [hcrcLen, hbody, hstored]
  split
  · exact .inl ⟨_, OsdShorthandParseError.noConfusion, rfl⟩
  next hcrc =>
  have hmiddle : (slice bytes 4 (need - 8)).length = count.toNat * ENTRY_LEN := by
    rw [slice_length (by omega)]
    omega
  obtain ⟨raws, hraws, hvalid, hentries⟩ := exists_rawEntries hmiddle
  right
  refine ⟨raws, bytes.drop need, hraws ▸ Nat.not_lt.mp hmost, hvalid, ?_⟩
  have hheader : bytes.take 4 = leBytes 2 OSD_SHORTHAND_MAGIC ++
      [UInt8.ofNat OSD_SHORTHAND_VERSION, UInt8.ofNat raws.length] := by
    have hfirst := leBytes_ofLE [b₀, b₁]
    rw [not_not.mp hmagic] at hfirst
    have hversion' : UInt8.ofNat OSD_SHORTHAND_VERSION = version := by
      rw [← not_not.mp hversion, UInt8.ofNat_toNat]
    rw [hversion', hraws, UInt8.ofNat_toNat, ← hbytes]
    exact congrArg (· ++ [version, count]) hfirst.symm
  have hbodyBytes : osdBody raws = bytes.take (need - 4) := by
    have hsplit : need - 4 = 4 + (need - 8) := by omega
    rw [osdBody, ← hheader, hentries, slice, hsplit, List.take_add]
  rw [osdBlob, hbodyBytes]
  exact (sealed_split (by omega) (Nat.not_lt.mp hneed) (not_not.mp hcrc)).symm

theorem osd_parse_ne_pastEnd (bytes : Bytes) : parseOsdShorthand bytes ≠ .error .pastEnd := by
  intro h
  obtain ⟨e, hne, herror⟩ | ⟨raws, rest, hcount, hvalid, rfl⟩ := osd_parse_moves bytes
  · rw [h] at herror
    exact hne (Except.error.inj herror).symm
  · rw [parse_osdBlob hcount hvalid rest] at h
    cases h

end

end ArduConfigurator.Tables
