import ArduConfigurator.Tables.VtxTable

/-! # VTX tables and their blobs -/
namespace ArduConfigurator.Tables
set_option autoImplicit false

/-! ## The bytes of a band -/

def FitsLetter (letter : Text) : Prop :=
  letter = [] ∨ ∃ c, letter = [c] ∧ c ≠ 0 ∧ c.toNat < 256

structure VtxTableBand.Fits (numChannels : ℕ) (band : VtxTableBand) : Prop where
  name : FitsField VTX_TABLE_BAND_NAME_LEN band.name
  letter : FitsLetter band.letter
  channels : band.frequencies.length = numChannels
  frequencies : ∀ f ∈ band.frequencies, f < 65536

def letterOf (b : UInt8) : Text := if b = 0 then [] else charText [b]

structure RawBand where
  name : Bytes
  letter : UInt8
  factory : UInt8
  frequencies : List ℕ

namespace RawBand

structure Valid (numChannels : ℕ) (raw : RawBand) : Prop where
  name : raw.name.length = VTX_TABLE_BAND_NAME_LEN
  channels : raw.frequencies.length = numChannels
  frequencies : ∀ f ∈ raw.frequencies, f < 65536

def bytes (raw : RawBand) : Bytes :=
  raw.name ++ raw.letter :: raw.factory :: raw.frequencies.flatMap (leBytes 2)

def band (raw : RawBand) : VtxTableBand where
  name := fieldText raw.name
  letter := letterOf raw.letter
  isFactory := raw.factory ≠ 0
  frequencies := raw.frequencies

def canonical (raw : RawBand) : RawBand :=
  { raw with
    name := zeroPad VTX_TABLE_BAND_NAME_LEN (raw.name.rdropWhile isPadByte)
    factory := if raw.factory = 0 then 0 else 1 }

end RawBand

def VtxTableBand.raw (band : VtxTableBand) : RawBand where
  name := textField VTX_TABLE_BAND_NAME_LEN VTX_TABLE_BAND_NAME_LEN band.name
  letter := letterByte band.letter
  factory := if band.isFactory then 1 else 0
  frequencies := band.frequencies

theorem letterOf_letterByte {letter : Text} (h : FitsLetter letter) :
    letterOf (letterByte letter) = letter := by
  obtain rfl | ⟨c, rfl, hne, hlt⟩ := h
  · rfl
  · have hnat : (UInt8.ofNat c.toNat).toNat = c.toNat := by
      rw [UInt8.toNat_ofNat', Nat.mod_eq_of_lt hlt]
    rw [letterByte, letterOf, if_neg]
    · have hchars : ∀ d ∈ [c], d.toNat < 256 := by simpa using hlt
      exact charText_charBytes hchars
    · intro hzero
      rw [hzero] at hnat
      exact hne (UInt16.toNat_inj.mp hnat.symm)

theorem fitsLetter_letterOf (b : UInt8) : FitsLetter (letterOf b) := by
  rw [letterOf]
  split
  · exact .inl rfl
  · next hne =>
    refine .inr ⟨_, rfl, ?_, ?_⟩
    · rw [← UInt16.toNat_inj.ne, toNat_ofNat_byte]
      exact fun h => hne (UInt8.toNat_inj.mp h)
    · rw [toNat_ofNat_byte]
      exact b.toNat_lt

theorem letterByte_letterOf (b : UInt8) : letterByte (letterOf b) = b := by
  rw [letterOf]
  split
  · next h => exact h.symm
  · rw [charText, List.map_singleton, letterByte, toNat_ofNat_byte, UInt8.ofNat_toNat]

theorem frequencyBytes_length (frequencies : List ℕ) :
    (frequencies.flatMap (leBytes 2)).length = frequencies.length * 2 := by
  induction frequencies with
  | nil => rfl
  | cons f frequencies ih =>
    rw [List.flatMap_cons, List.length_append, leBytes_length, ih, List.length_cons]
    omega

theorem frequencies_eq {numChannels : ℕ} {band : VtxTableBand}
    (h : band.frequencies.length = numChannels) :
    ((List.range numChannels).flatMap fun c => leBytes 2 (band.frequencies.getD c 0)) =
      band.frequencies.flatMap (leBytes 2) := by
  have hmap : (List.range numChannels).map (fun c => band.frequencies.getD c 0) = band.frequencies := by
    refine List.ext_getElem (by simp [h]) fun i hi hi' => ?_
    simp [hi']
  conv_rhs => rw [← hmap, List.flatMap_map]

/-! ## Reading a band -/

theorem readLE_append (pre rest : Bytes) {w n : ℕ} (h : n < 256 ^ w) :
    readLE (pre ++ leBytes w n ++ rest) pre.length w = some n := by
  have hslice := slice_append_right pre (leBytes w n ++ rest) 0 w
  rw [Nat.add_zero] at hslice
  rw [readLE, if_pos (by simp), List.append_assoc, hslice, slice_append_left _ (by simp),
    slice_zero_of_length (leBytes_length w n), ofLE_leBytes_of_lt h]

theorem readFrequencies_append (pre rest : Bytes) {frequencies : List ℕ}
    (h : ∀ f ∈ frequencies, f < 65536) :
    readFrequencies (pre ++ frequencies.flatMap (leBytes 2) ++ rest) pre.length frequencies.length =
      some frequencies := by
  induction frequencies generalizing pre with
  | nil => rfl
  | cons f frequencies ih =>
    obtain ⟨hf, hfrequencies⟩ := List.forall_mem_cons.mp h
    have hread := readLE_append pre (frequencies.flatMap (leBytes 2) ++ rest) (w := 2) hf
    have hbytes : pre ++ (f :: frequencies).flatMap (leBytes 2) ++ rest =
        pre ++ leBytes 2 f ++ (frequencies.flatMap (leBytes 2) ++ rest) := by simp
    have hlen : (pre ++ leBytes 2 f).length = pre.length + 2 := by simp
    rw [hbytes, List.length_cons, readFrequencies, hread, Option.bind_some, ← hlen,
      ← List.append_assoc, ih _ hfrequencies, Option.map_some]

section
variable {numChannels : ℕ} {raw : RawBand} {band : VtxTableBand}

theorem RawBand.Valid.length (h : raw.Valid numChannels) :
    raw.bytes.length = bandLength numChannels := by
  rw [RawBand.bytes, List.length_append, List.length_cons, List.length_cons,
    frequencyBytes_length, h.name, h.channels, bandLength]
  omega

theorem RawBand.Valid.fits (h : raw.Valid numChannels) : raw.band.Fits numChannels :=
  ⟨fitsField_fieldText h.name.le, fitsLetter_letterOf _, h.channels, h.frequencies⟩

theorem RawBand.raw_band (raw : RawBand) (h : raw.Valid numChannels) :
    raw.band.raw = raw.canonical := by
  rw [VtxTableBand.raw, RawBand.canonical, RawBand.band]
  simp only [textField_fieldText, letterByte_letterOf]
  have hlength : (raw.name.rdropWhile isPadByte).length ≤ VTX_TABLE_BAND_NAME_LEN :=
    (List.rdropWhile_prefix _ _).length_le.trans h.name.le
  rw [List.take_of_length_le hlength]
  by_cases hfactory : raw.factory = 0
  · simp [hfactory]
  · simp [hfactory]

theorem VtxTableBand.Fits.raw_valid (h : band.Fits numChannels) : band.raw.Valid numChannels :=
  ⟨textField_length (le_refl _), h.channels, h.frequencies⟩

theorem VtxTableBand.Fits.band_raw (h : band.Fits numChannels) : band.raw.band = band := by
  have hfactory : decide ((if band.isFactory then (1 : UInt8) else 0) ≠ 0) = band.isFactory := by
    cases band.isFactory with
    | false => rfl
    | true => rfl
  rw [RawBand.band, VtxTableBand.raw]
  simp only [fieldText_textField h.name, letterOf_letterByte h.letter, hfactory]

theorem readBand_append (pre rest : Bytes) (h : raw.Valid numChannels) :
    readBand (pre ++ raw.bytes ++ rest) numChannels pre.length = some raw.band := by
  have hname := h.name
  rw [VTX_TABLE_BAND_NAME_LEN] at hname
  have hfield : fieldAt (pre ++ raw.bytes ++ rest) pre.length VTX_TABLE_BAND_NAME_LEN =
      some raw.name := by
    have hslice := slice_append_right pre (raw.bytes ++ rest) 0 8
    rw [Nat.add_zero] at hslice
    rw [fieldAt, if_pos (by rw [List.length_append, List.length_append, h.length, bandLength]; omega),
      List.append_assoc, VTX_TABLE_BAND_NAME_LEN, hslice, RawBand.bytes, List.append_assoc,
      slice_append_left _ (by omega), slice_zero_of_length hname]
  have hletter : (pre ++ raw.bytes ++ rest)[pre.length + VTX_TABLE_BAND_NAME_LEN]? =
      some raw.letter := by
    rw [VTX_TABLE_BAND_NAME_LEN, ← hname, RawBand.bytes]
    simp
  have hfactory : (pre ++ raw.bytes ++ rest)[pre.length + VTX_TABLE_BAND_NAME_LEN + 1]? =
      some raw.factory := by
    rw [VTX_TABLE_BAND_NAME_LEN, ← hname, RawBand.bytes]
    simp [List.getElem?_append_right, Nat.add_assoc]
  have hfrequencies : readFrequencies (pre ++ raw.bytes ++ rest)
      (pre.length + VTX_TABLE_BAND_NAME_LEN + 2) numChannels = some raw.frequencies := by
    have hbytes : pre ++ raw.bytes ++ rest = (pre ++ raw.name ++ [raw.letter, raw.factory]) ++
        raw.frequencies.flatMap (leBytes 2) ++ rest := by simp [RawBand.bytes]
    have hlen : (pre ++ raw.name ++ [raw.letter, raw.factory]).length =
        pre.length + VTX_TABLE_BAND_NAME_LEN + 2 := by simp [h.name, Nat.add_assoc]
    rw [hbytes, ← hlen, ← h.channels]
    exact readFrequencies_append _ rest h.frequencies
  rw [readBand, hfield, Option.bind_some, hletter, Option.bind_some, hfactory, Option.bind_some,
    hfrequencies, Option.map_some]
  rfl

theorem readBands_append (pre rest : Bytes) {raws : List RawBand}
    (h : ∀ raw ∈ raws, raw.Valid numChannels) :
    readBands (pre ++ raws.flatMap RawBand.bytes ++ rest) numChannels pre.length raws.length =
      some (raws.map RawBand.band) := by
  induction raws generalizing pre with
  | nil => rfl
  | cons raw raws ih =>
    obtain ⟨hraw, hraws⟩ := List.forall_mem_cons.mp h
    have hbytes : pre ++ (raw :: raws).flatMap RawBand.bytes ++ rest =
        pre ++ raw.bytes ++ (raws.flatMap RawBand.bytes ++ rest) := by simp
    rw [hbytes, List.length_cons, readBands, readBand_append pre _ hraw, Option.bind_some,
      ← List.append_assoc]
    have hlen : (pre ++ raw.bytes).length = pre.length + bandLength numChannels := by
      rw [List.length_append, hraw.length]
    rw [← hlen, ih _ hraws, Option.map_some, List.map_cons]

variable {bytes : Bytes}

theorem exists_frequencies {n : ℕ} (h : bytes.length = n * 2) :
    ∃ frequencies : List ℕ, frequencies.length = n ∧ (∀ f ∈ frequencies, f < 65536) ∧
      frequencies.flatMap (leBytes 2) = bytes := by
  induction n generalizing bytes with
  | zero => exact ⟨[], rfl, by simp, (List.length_eq_zero_iff.mp (by omega)).symm⟩
  | succ n ih =>
    have hrest : (bytes.drop 2).length = n * 2 := by
      rw [List.length_drop]
      omega
    obtain ⟨frequencies, hlength, hlt, hbytes⟩ := ih hrest
    have htake : (bytes.take 2).length = 2 := by simp; omega
    have hfirst := leBytes_ofLE (bytes.take 2)
    have hbound := ofLE_lt (bytes.take 2)
    rw [htake] at hfirst hbound
    refine ⟨ofLE (bytes.take 2) :: frequencies, by rw [List.length_cons, hlength], ?_, ?_⟩
    · exact List.forall_mem_cons.mpr ⟨hbound, hlt⟩
    · rw [List.flatMap_cons, hbytes, hfirst, List.take_append_drop]

theorem exists_rawBand {chunk : Bytes} (h : chunk.length = bandLength numChannels) :
    ∃ raw : RawBand, raw.Valid numChannels ∧ raw.bytes = chunk := by
  rw [bandLength, VTX_TABLE_BAND_NAME_LEN] at h
  have htake : (chunk.take 8).length = 8 := by simp; omega
  obtain ⟨letter, hrest⟩ : ∃ letter, chunk.drop 8 = letter :: chunk.drop 9 :=
    ⟨_, List.drop_eq_getElem_cons (by omega)⟩
  obtain ⟨factory, hrest'⟩ : ∃ factory, chunk.drop 9 = factory :: chunk.drop 10 :=
    ⟨_, List.drop_eq_getElem_cons (by omega)⟩
  have hlast : (chunk.drop 10).length = numChannels * 2 := by
    rw [List.length_drop]
    omega
  obtain ⟨frequencies, hlength, hlt, hbytes⟩ := exists_frequencies hlast
  refine ⟨⟨chunk.take 8, letter, factory, frequencies⟩, ⟨htake, hlength, hlt⟩, ?_⟩
  rw [RawBand.bytes, hbytes, ← hrest', ← hrest, List.take_append_drop]

theorem exists_rawBands {n : ℕ} (h : bytes.length = n * bandLength numChannels) :
    ∃ raws : List RawBand, raws.length = n ∧ (∀ raw ∈ raws, raw.Valid numChannels) ∧
      raws.flatMap RawBand.bytes = bytes := by
  induction n generalizing bytes with
  | zero => exact ⟨[], rfl, by simp, (List.length_eq_zero_iff.mp (by omega)).symm⟩
  | succ n ih =>
    rw [Nat.succ_mul] at h
    have hfirst : (bytes.take (bandLength numChannels)).length = bandLength numChannels := by
      rw [List.length_take]
      omega
    have hrest : (bytes.drop (bandLength numChannels)).length = n * bandLength numChannels := by
      rw [List.length_drop]
      omega
    obtain ⟨raws, hlength, hvalid, hbytes⟩ := ih hrest
    obtain ⟨raw, hraw, hchunk⟩ := exists_rawBand hfirst
    refine ⟨raw :: raws, by rw [List.length_cons, hlength], ?_, ?_⟩
    · exact List.forall_mem_cons.mpr ⟨hraw, hvalid⟩
    · rw [List.flatMap_cons, hbytes, hchunk, List.take_append_drop]

end

/-! ## Blobs -/

def vtxHeader (numChannels numBands : ℕ) : Bytes :=
  leBytes 2 VTX_TABLE_MAGIC ++
    [UInt8.ofNat VTX_TABLE_VERSION, UInt8.ofNat numBands, UInt8.ofNat numChannels]

def vtxBody (numChannels : ℕ) (raws : List RawBand) : Bytes :=
  vtxHeader numChannels raws.length ++ raws.flatMap RawBand.bytes

def vtxBlob (numChannels : ℕ) (raws : List RawBand) : Bytes :=
  vtxBody numChannels raws ++ leBytes 4 (vtxTableCrc32 (vtxBody numChannels raws)).toNat

structure VtxCounts (numChannels numBands : ℕ) : Prop where
  bands : 1 ≤ numBands ∧ numBands ≤ VTX_TABLE_MAX_BANDS
  channels : 1 ≤ numChannels ∧ numChannels ≤ VTX_TABLE_MAX_CHANNELS

structure VtxTable.Fits (table : VtxTable) (n : ℕ) : Prop where
  version : table.version = VTX_TABLE_VERSION
  numChannels : table.numChannels = .ofInt n
  counts : VtxCounts n table.bands.length
  bands : ∀ band ∈ table.bands, band.Fits n

section
variable {numChannels : ℕ} {raws : List RawBand}

theorem rawBands_length (h : ∀ raw ∈ raws, raw.bytes.length = bandLength numChannels) :
    (raws.flatMap RawBand.bytes).length = raws.length * bandLength numChannels := by
  induction raws with
  | nil => rw [List.flatMap_nil, List.length_nil, List.length_nil, Nat.zero_mul]
  | cons raw raws ih =>
    obtain ⟨hraw, hraws⟩ := List.forall_mem_cons.mp h
    rw [List.flatMap_cons, List.length_append, hraw, ih hraws, List.length_cons, Nat.succ_mul,
      Nat.add_comm]

theorem vtxHeader_length (numBands : ℕ) :
    (vtxHeader numChannels numBands).length = VTX_TABLE_HEADER_LEN := by
  simp [vtxHeader, VTX_TABLE_HEADER_LEN]

theorem vtxBody_length (h : ∀ raw ∈ raws, raw.bytes.length = bandLength numChannels) :
    (vtxBody numChannels raws).length + 4 = vtxTableLength raws.length numChannels := by
  rw [vtxBody, List.length_append, vtxHeader_length, rawBands_length h, vtxTableLength]

theorem toNat_ofNat_small {n : ℕ} (h : n < 256) : (UInt8.ofNat n).toNat = n := by
  rw [UInt8.toNat_ofNat', Nat.mod_eq_of_lt h]

theorem parse_vtxBlob (hcounts : VtxCounts numChannels raws.length)
    (hvalid : ∀ raw ∈ raws, raw.Valid numChannels) (rest : Bytes) :
    parseVtxTable (vtxBlob numChannels raws ++ rest) =
      .ok ⟨VTX_TABLE_VERSION, .ofInt numChannels, raws.map RawBand.band⟩ := by
  obtain ⟨⟨hbands, hbands'⟩, hchannels, hchannels'⟩ := hcounts
  have hbody := vtxBody_length fun raw hraw => (hvalid raw hraw).length
  have hlength : vtxTableLength raws.length numChannels ≤ (vtxBlob numChannels raws ++ rest).length := by
    rw [vtxBlob, List.length_append, List.length_append, leBytes_length]
    omega
  have hheader : VTX_TABLE_HEADER_LEN + 4 ≤ vtxTableLength raws.length numChannels := by
    rw [vtxTableLength]
    omega
  have hnumBands : (UInt8.ofNat raws.length).toNat = raws.length :=
    toNat_ofNat_small (by rw [VTX_TABLE_MAX_BANDS] at hbands'; omega)
  have hnumChannels : (UInt8.ofNat numChannels).toNat = numChannels :=
    toNat_ofNat_small (by rw [VTX_TABLE_MAX_CHANNELS] at hchannels'; omega)
  have hbytes : vtxBlob numChannels raws ++ rest = leBytes 2 VTX_TABLE_MAGIC ++
      (UInt8.ofNat VTX_TABLE_VERSION :: UInt8.ofNat raws.length :: UInt8.ofNat numChannels ::
      (raws.flatMap RawBand.bytes ++
        (leBytes 4 (vtxTableCrc32 (vtxBody numChannels raws)).toNat ++ rest))) := by
    simp [vtxBlob, vtxBody, vtxHeader]
  have hmagic : readLE (vtxBlob numChannels raws ++ rest) 0 2 = some VTX_TABLE_MAGIC := by
    rw [hbytes]
    exact readLE_append [] _ (by rw [VTX_TABLE_MAGIC]; omega)
  have hat : ∀ i, (vtxBlob numChannels raws ++ rest)[2 + i]? =
      (UInt8.ofNat VTX_TABLE_VERSION :: UInt8.ofNat raws.length :: UInt8.ofNat numChannels ::
      (raws.flatMap RawBand.bytes ++
        (leBytes 4 (vtxTableCrc32 (vtxBody numChannels raws)).toNat ++ rest)))[i]? := by
    intro i
    rw [hbytes, List.getElem?_append_right (by rw [leBytes_length]; omega), leBytes_length,
      Nat.add_sub_cancel_left]
  have hbodyLength : vtxTableLength raws.length numChannels - 4 =
      (vtxBody numChannels raws).length := by omega
  have hfield : fieldAt (vtxBlob numChannels raws ++ rest) 0
      (vtxTableLength raws.length numChannels - 4) = some (vtxBody numChannels raws) := by
    rw [fieldAt, if_pos (by omega), hbodyLength, vtxBlob, List.append_assoc,
      slice_append_left _ (by omega), slice_zero_of_length rfl]
  have hstored : readLE (vtxBlob numChannels raws ++ rest)
      (vtxTableLength raws.length numChannels - 4) 4 =
        some (vtxTableCrc32 (vtxBody numChannels raws)).toNat := by
    rw [hbodyLength, vtxBlob]
    exact readLE_append _ _ (UInt32.toNat_lt _)
  have hread : readBands (vtxBlob numChannels raws ++ rest) numChannels VTX_TABLE_HEADER_LEN
      raws.length = some (raws.map RawBand.band) := by
    have hheader : (vtxHeader numChannels raws.length).length = VTX_TABLE_HEADER_LEN :=
      vtxHeader_length _
    rw [← hheader, vtxBlob, vtxBody, List.append_assoc]
    exact readBands_append _ _ hvalid
  rw [parseVtxTable, if_neg (by omega), hmagic, hat 0, hat 1, hat 2]
  simp only [List.getElem?_cons_zero, List.getElem?_cons_succ, hnumBands, hnumChannels, hfield,
    hstored, hread]
  rw [if_neg (not_not.mpr rfl), if_neg (by decide), if_neg (by decide), if_neg (by omega),
    if_neg (by omega), if_neg (by omega), if_neg (not_not.mpr rfl)]
  rfl

/-! A blob ends in the checksum of what stands before it. -/

section
variable {bytes : Bytes} {need : ℕ} (hfour : 4 ≤ need) (hneed : need ≤ bytes.length)
include hfour hneed

theorem sealed_reads : fieldAt bytes 0 (need - 4) = some (bytes.take (need - 4)) ∧
    readLE bytes (need - 4) 4 = some (ofLE (slice bytes (need - 4) 4)) := by
  constructor
  · rw [fieldAt, if_pos (by omega), slice, List.drop_zero]
  · rw [readLE, if_pos (by omega)]

theorem sealed_split
    (hcrc : (crc32 (bytes.take (need - 4))).toNat = ofLE (slice bytes (need - 4) 4)) :
    bytes.take (need - 4) ++ leBytes 4 (crc32 (bytes.take (need - 4))).toNat ++ bytes.drop need =
      bytes := by
  have hlength : (slice bytes (need - 4) 4).length = 4 := slice_length (by omega)
  have hseal := leBytes_ofLE (slice bytes (need - 4) 4)
  rw [hlength] at hseal
  have hend : bytes.drop need = (bytes.drop (need - 4)).drop 4 := by
    rw [List.drop_drop, Nat.sub_add_cancel hfour]
  rw [hcrc, hseal, hend, slice, List.append_assoc, List.take_append_drop, List.take_append_drop]

end

theorem parse_moves (bytes : Bytes) :
    (∃ e, e ≠ VtxTableParseError.pastEnd ∧ parseVtxTable bytes = .error e) ∨
      ∃ numChannels raws rest, VtxCounts numChannels raws.length ∧
        (∀ raw ∈ raws, raw.Valid numChannels) ∧ bytes = vtxBlob numChannels raws ++ rest := by
  rw [parseVtxTable]
  split
  · exact .inl ⟨_, VtxTableParseError.noConfusion, rfl⟩
  next hlength =>
  obtain ⟨b₀, b₁, version, numBands, numChannels, tail, rfl⟩ :
      ∃ b₀ b₁ version numBands numChannels tail,
        bytes = b₀ :: b₁ :: version :: numBands :: numChannels :: tail := by
    rw [VTX_TABLE_HEADER_LEN] at hlength
    rcases bytes with _ | ⟨b₀, _ | ⟨b₁, _ | ⟨version, _ | ⟨numBands, _ | ⟨numChannels, tail⟩⟩⟩⟩⟩
    case cons.cons.cons.cons.cons => exact ⟨_, _, _, _, _, _, rfl⟩
    all_goals
      exfalso
      exact hlength (by simp)
  have hmagic : readLE (b₀ :: b₁ :: version :: numBands :: numChannels :: tail) 0 2 =
      some (ofLE [b₀, b₁]) := by
    rw [readLE, if_pos (by simp)]
    rfl
  simp only [hmagic, List.getElem?_cons_succ, List.getElem?_cons_zero]
  generalize hbytes : b₀ :: b₁ :: version :: numBands :: numChannels :: tail = bytes at *
  split
  · exact .inl ⟨_, VtxTableParseError.noConfusion, rfl⟩
  next hmagic =>
  split
  · exact .inl ⟨_, VtxTableParseError.noConfusion, rfl⟩
  split
  · exact .inl ⟨_, VtxTableParseError.noConfusion, rfl⟩
  next hversion =>
  split
  · exact .inl ⟨_, VtxTableParseError.noConfusion, rfl⟩
  next hleast =>
  split
  · exact .inl ⟨_, VtxTableParseError.noConfusion, rfl⟩
  next hmost =>
  split
  · exact .inl ⟨_, VtxTableParseError.noConfusion, rfl⟩
  next hneed =>
  have hcounts : VtxCounts numChannels.toNat numBands.toNat := ⟨by omega, by omega⟩
  have hlengths : vtxTableLength numBands.toNat numChannels.toNat =
      5 + numBands.toNat * bandLength numChannels.toNat + 4 := rfl
  have hfour : 4 ≤ vtxTableLength numBands.toNat numChannels.toNat := by omega
  generalize hn : vtxTableLength numBands.toNat numChannels.toNat = need at *
  obtain ⟨hbody, hstored⟩ := sealed_reads hfour (Nat.not_lt.mp hneed)
  simp only [hbody, hstored]
  split
  · exact .inl ⟨_, VtxTableParseError.noConfusion, rfl⟩
  next hcrc =>
  have hmiddle : (slice bytes 5 (need - 9)).length =
      numBands.toNat * bandLength numChannels.toNat := by
    rw [slice_length (by omega)]
    omega
  obtain ⟨raws, hraws, hvalid, hbands⟩ := exists_rawBands hmiddle
  right
  refine ⟨numChannels.toNat, raws, bytes.drop need, hraws ▸ hcounts, hvalid, ?_⟩
  have hheader : bytes.take 5 = vtxHeader numChannels.toNat raws.length := by
    have hfirst := leBytes_ofLE [b₀, b₁]
    rw [not_not.mp hmagic] at hfirst
    have hversion' : UInt8.ofNat VTX_TABLE_VERSION = version := by
      rw [← not_not.mp hversion, UInt8.ofNat_toNat]
    rw [vtxHeader, hversion', hraws, UInt8.ofNat_toNat, UInt8.ofNat_toNat, ← hbytes]
    exact congrArg (· ++ [version, numBands, numChannels]) hfirst.symm
  have hbodyBytes : vtxBody numChannels.toNat raws = bytes.take (need - 4) := by
    have hsplit : need - 4 = 5 + (need - 9) := by omega
    rw [vtxBody, ← hheader, hbands, slice, hsplit, List.take_add]
  rw [vtxBlob, hbodyBytes]
  exact (sealed_split hfour (Nat.not_lt.mp hneed) (not_not.mp hcrc)).symm

theorem parse_ne_pastEnd (bytes : Bytes) : parseVtxTable bytes ≠ .error .pastEnd := by
  intro h
  obtain ⟨e, hne, herror⟩ | ⟨numChannels, raws, rest, hcounts, hvalid, rfl⟩ := parse_moves bytes
  · rw [h] at herror
    exact hne (Except.error.inj herror).symm
  · rw [parse_vtxBlob hcounts hvalid rest] at h
    cases h

end

/-! ## Writing -/

section
open JsNumber

variable {n : ℕ}

theorem toIndex_natCast (h : n < 2 ^ 53) : toIndex (.ofInt n) = some n := by
  rw [ofInt_natCast h, toIndex, if_neg (by simp), Nat.floor_natCast, if_neg (by omega)]

theorem toUint8_natCast (h : n < 2 ^ 53) : toUint8 (.ofInt n) = UInt8.ofNat n := by
  rw [ofInt_natCast h, toUint8, Nat.floor_natCast, if_neg Bool.false_ne_true]
  have hmod : ((n : ℤ) % 2 ^ 8).toNat = n % 2 ^ 8 := by omega
  rw [UInt8.ofInt, hmod, ← UInt8.toNat_inj, UInt8.toNat_ofNat', UInt8.toNat_ofNat', Nat.mod_mod]

theorem timesBelow_natCast (h : n < 2 ^ 53) : timesBelow (.ofInt n) = n := by
  rw [ofInt_natCast h, timesBelow, Nat.ceil_natCast]

theorem size_natCast {numBands numChannels : ℕ} (h : VtxCounts numChannels numBands) :
    (5 + .ofInt numBands * (8 + 2 + .ofInt numChannels * 2) + 4 : JsNumber) =
      .ofInt (vtxTableLength numBands numChannels : ℕ) := by
  obtain ⟨⟨-, hbands⟩, -, hchannels⟩ := h
  rw [VTX_TABLE_MAX_BANDS] at hbands
  rw [VTX_TABLE_MAX_CHANNELS] at hchannels
  have hproduct : numBands * (8 + 2 + numChannels * 2) ≤ 12 * 26 := Nat.mul_le_mul hbands (by omega)
  change ofInt (5 : ℕ) + ofInt numBands * (ofInt (8 : ℕ) + ofInt (2 : ℕ) +
    ofInt numChannels * ofInt (2 : ℕ)) + ofInt (4 : ℕ) = _
  rw [ofInt_add (by omega), ofInt_mul (by omega) (by omega) (by omega), ofInt_add (by omega),
    ofInt_mul (by omega) (by omega) (by omega), ofInt_add (by omega), ofInt_add (by omega)]
  rfl

variable {numChannels : ℕ} {band : VtxTableBand}

theorem putFrequencies (b : Buffer) (frequencies : ℕ → ℕ) (channels : List ℕ) :
    channels.foldl (fun b c => (b.put (UInt8.ofNat (frequencies c))).put
        (UInt8.ofNat (frequencies c / 256))) b =
      { b with written := b.written ++ channels.flatMap fun c => leBytes 2 (frequencies c) } := by
  induction channels generalizing b with
  | nil => simp
  | cons c channels ih =>
    rw [List.foldl_cons, ih]
    simp [Buffer.put, leBytes]

variable {b : Buffer}

theorem encodeBand_eq (hn : numChannels < 2 ^ 53)
    (hchannels : band.frequencies.length = numChannels)
    (hfits : b.written.length + bandLength numChannels ≤ b.size) :
    encodeBand (.ofInt numChannels) b band =
      some { b with written := b.written ++ band.raw.bytes } := by
  rw [bandLength, VTX_TABLE_BAND_NAME_LEN] at hfits
  have hname : (textField VTX_TABLE_BAND_NAME_LEN VTX_TABLE_BAND_NAME_LEN band.name).length =
      VTX_TABLE_BAND_NAME_LEN := textField_length (le_refl _)
  rw [VTX_TABLE_BAND_NAME_LEN] at hname
  have hset : b.set (textField VTX_TABLE_BAND_NAME_LEN VTX_TABLE_BAND_NAME_LEN band.name) =
      some { b with written := b.written ++ band.raw.name } := if_pos (by
    rw [VTX_TABLE_BAND_NAME_LEN, hname]
    omega)
  rw [encodeBand, hset, Option.map_some, timesBelow_natCast hn]
  simp only
  rw [putFrequencies _ (fun c => band.frequencies.getD c 0), frequencies_eq hchannels]
  simp [Buffer.put, RawBand.bytes, VtxTableBand.raw]

theorem raw_bytes_length (hchannels : band.frequencies.length = numChannels) :
    band.raw.bytes.length = bandLength numChannels := by
  have hname : band.raw.name.length = VTX_TABLE_BAND_NAME_LEN := textField_length (le_refl _)
  rw [RawBand.bytes, List.length_append, List.length_cons, List.length_cons, frequencyBytes_length,
    hname, bandLength, ← hchannels]
  change _ = _ + 2 + band.raw.frequencies.length * 2
  omega

theorem encodeBands_eq (hn : numChannels < 2 ^ 53) {bands : List VtxTableBand}
    (hchannels : ∀ band ∈ bands, band.frequencies.length = numChannels)
    (hfits : b.written.length + bands.length * bandLength numChannels ≤ b.size) :
    bands.foldlM (encodeBand (.ofInt numChannels)) b =
      some { b with written := b.written ++ (bands.map VtxTableBand.raw).flatMap RawBand.bytes } := by
  induction bands generalizing b with
  | nil => simp
  | cons band bands ih =>
    obtain ⟨hband, hbands⟩ := List.forall_mem_cons.mp hchannels
    rw [List.length_cons, Nat.succ_mul] at hfits
    have hlength := raw_bytes_length hband
    rw [List.foldlM_cons, encodeBand_eq hn hband (by omega)]
    rw [Option.bind_eq_bind, Option.bind_some, ih hbands (by
      simp only [List.length_append, hlength]
      omega)]
    simp

theorem Buffer.putCrc_content (h : b.written.length + 4 = b.size) :
    b.putCrc.content = b.written ++ leBytes 4 (vtxTableCrc32 b.written).toNat := by
  have htake : b.content.take b.written.length = b.written := by
    have hall : b.written.take b.size = b.written := List.take_of_length_le (by omega)
    rw [Buffer.content, hall, zeroPad, List.take_left]
  have hwritten : b.putCrc =
      { b with written := b.written ++ leBytes 4 (vtxTableCrc32 b.written).toNat } := by
    rw [Buffer.putCrc, htake]
    simp [Buffer.put, leBytes]
  have hlength : (b.written ++ leBytes 4 (vtxTableCrc32 b.written).toNat).length = b.size := by
    rw [List.length_append, leBytes_length, h]
  rw [hwritten, Buffer.content]
  simp only [← hlength, List.take_length, zeroPad_self]

theorem serialize_eq {table : VtxTable} (hn : table.numChannels = .ofInt numChannels)
    (hcounts : VtxCounts numChannels table.bands.length)
    (hchannels : ∀ band ∈ table.bands, band.frequencies.length = numChannels) :
    serializeVtxTable table = some (vtxBlob numChannels (table.bands.map VtxTableBand.raw)) := by
  have hsmall : vtxTableLength table.bands.length numChannels < 2 ^ 53 := by
    obtain ⟨⟨-, hbands⟩, -, hmost⟩ := hcounts
    rw [VTX_TABLE_MAX_BANDS] at hbands
    rw [VTX_TABLE_MAX_CHANNELS] at hmost
    have hproduct : table.bands.length * (8 + 2 + numChannels * 2) ≤ 12 * 26 :=
      Nat.mul_le_mul hbands (by omega)
    rw [vtxTableLength, bandLength, VTX_TABLE_BAND_NAME_LEN, VTX_TABLE_HEADER_LEN]
    omega
  have hchannelsSmall : numChannels < 2 ^ 53 := by
    have hmost := hcounts.channels.2
    rw [VTX_TABLE_MAX_CHANNELS] at hmost
    omega
  have hraws : ∀ raw ∈ table.bands.map VtxTableBand.raw,
      raw.bytes.length = bandLength numChannels := by
    intro raw hraw
    obtain ⟨band, hband, rfl⟩ := List.mem_map.mp hraw
    exact raw_bytes_length (hchannels band hband)
  have hbody := vtxBody_length hraws
  rw [List.length_map] at hbody
  have hwritten : UInt8.ofNat VTX_TABLE_MAGIC :: UInt8.ofNat (VTX_TABLE_MAGIC / 256) ::
      UInt8.ofNat VTX_TABLE_VERSION :: UInt8.ofNat table.bands.length :: UInt8.ofNat numChannels ::
      (table.bands.map VtxTableBand.raw).flatMap RawBand.bytes =
      vtxBody numChannels (table.bands.map VtxTableBand.raw) := by
    rw [vtxBody, vtxHeader, List.length_map]
    rfl
  rw [serializeVtxTable, hn, size_natCast hcounts, toIndex_natCast hsmall, Option.bind_some,
    toUint8_natCast hchannelsSmall]
  simp only [Buffer.put, List.nil_append, List.cons_append]
  rw [encodeBands_eq hchannelsSmall hchannels (by
    simp only [List.length_cons, List.length_nil, vtxTableLength, VTX_TABLE_HEADER_LEN]
    omega), Option.map_some]
  simp only [List.cons_append, List.nil_append, hwritten]
  rw [Buffer.putCrc_content hbody]
  rfl

end

end ArduConfigurator.Tables
