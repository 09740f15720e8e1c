import ArduConfigurator.Tables.OsdShorthand

/-! # Tables and their blobs

A table within the limits comes back from its blob. What is accepted begins with a blob; the blob that
is written for it differs in its padding, in factory flags other than zero and one, and in the last
byte of an OSD field, which is a zero. -/
namespace ArduConfigurator.Tables
set_option autoImplicit false

/-! ## VTX tables -/

section
variable {n : ℕ} {table : VtxTable} {raws : List RawBand}

theorem VtxTable.Fits.serialize (h : table.Fits n) :
    serializeVtxTable table = some (vtxBlob n (table.bands.map VtxTableBand.raw)) :=
  serialize_eq h.numChannels h.counts fun band hband => (h.bands band hband).channels

theorem VtxTable.Fits.parse (h : table.Fits n) :
    parseVtxTable (vtxBlob n (table.bands.map VtxTableBand.raw)) = .ok table := by
  have hcounts : VtxCounts n (table.bands.map VtxTableBand.raw).length := by
    rw [List.length_map]
    exact h.counts
  have hvalid : ∀ raw ∈ table.bands.map VtxTableBand.raw, raw.Valid n := by
    intro raw hraw
    obtain ⟨band, hband, rfl⟩ := List.mem_map.mp hraw
    exact (h.bands band hband).raw_valid
  have hparse := parse_vtxBlob hcounts hvalid []
  have hbands : (table.bands.map VtxTableBand.raw).map RawBand.band = table.bands := by
    rw [List.map_map]
    exact (List.map_congr_left fun band hband => (h.bands band hband).band_raw).trans
      (List.map_id _)
  rw [List.append_nil, hbands, ← h.numChannels, ← h.version] at hparse
  exact hparse

theorem fits_of_raws (hcounts : VtxCounts n raws.length) (hvalid : ∀ raw ∈ raws, raw.Valid n) :
    VtxTable.Fits ⟨VTX_TABLE_VERSION, .ofInt n, raws.map RawBand.band⟩ n := by
  refine ⟨rfl, rfl, ?_, ?_⟩
  · rw [List.length_map]
    exact hcounts
  · intro band hband
    obtain ⟨raw, hraw, rfl⟩ := List.mem_map.mp hband
    exact (hvalid raw hraw).fits

theorem parseVtxTable_ok {bytes : Bytes} (h : parseVtxTable bytes = .ok table) :
    ∃ n raws rest, table.Fits n ∧ (∀ raw ∈ raws, raw.Valid n) ∧ bytes = vtxBlob n raws ++ rest ∧
      table.bands = raws.map RawBand.band ∧
      serializeVtxTable table = some (vtxBlob n (raws.map RawBand.canonical)) := by
  obtain ⟨e, -, herror⟩ | ⟨n, raws, rest, hcounts, hvalid, rfl⟩ := parse_moves bytes
  · rw [herror] at h
    cases h
  rw [parse_vtxBlob hcounts hvalid rest] at h
  cases h
  have hfits := fits_of_raws hcounts hvalid
  refine ⟨n, raws, rest, hfits, hvalid, rfl, rfl, ?_⟩
  have hraws : (raws.map RawBand.band).map VtxTableBand.raw = raws.map RawBand.canonical := by
    rw [List.map_map]
    exact List.map_congr_left fun raw hraw => raw.raw_band (hvalid raw hraw)
  rw [hfits.serialize, hraws]

end

/-! ## OSD tables -/

structure OsdShorthand.Fits (table : OsdShorthand) : Prop where
  count : table.entries.length ≤ OSD_SHORTHAND_MAX_ENTRIES
  entries : ∀ entry ∈ table.entries, entry.Fits

section
variable {table : OsdShorthand}

theorem serializeOsdShorthand_eq (h : table.entries.length ≤ OSD_SHORTHAND_MAX_ENTRIES) :
    serializeOsdShorthand table = osdBlob (table.entries.map OsdShorthandEntry.raw) := by
  rw [serializeOsdShorthand, List.take_of_length_le h]

theorem OsdShorthand.Fits.round_trip (h : table.Fits) :
    parseOsdShorthand (serializeOsdShorthand table) = .ok table := by
  have hvalid : ∀ raw ∈ table.entries.map OsdShorthandEntry.raw, raw.Valid := by
    intro raw hraw
    obtain ⟨entry, -, rfl⟩ := List.mem_map.mp hraw
    exact entry.raw_valid
  have hparse := parse_osdBlob (by rw [List.length_map]; exact h.count) hvalid []
  have hentries : (table.entries.map OsdShorthandEntry.raw).map RawEntry.entry = table.entries := by
    rw [List.map_map]
    exact (List.map_congr_left fun entry hentry => (h.entries entry hentry).entry_raw).trans
      (List.map_id _)
  rw [List.append_nil, hentries] at hparse
  rw [serializeOsdShorthand_eq h.count]
  exact hparse

theorem parseOsdShorthand_ok {bytes : Bytes} (h : parseOsdShorthand bytes = .ok table) :
    ∃ raws rest, raws.length ≤ OSD_SHORTHAND_MAX_ENTRIES ∧ (∀ raw ∈ raws, raw.Valid) ∧
      bytes = osdBlob raws ++ rest ∧ table.entries = raws.map RawEntry.entry ∧
      serializeOsdShorthand table = osdBlob (raws.map RawEntry.canonical) := by
  obtain ⟨e, -, herror⟩ | ⟨raws, rest, hcount, hvalid, rfl⟩ := osd_parse_moves bytes
  · rw [herror] at h
    cases h
  rw [parse_osdBlob hcount hvalid rest] at h
  cases h
  refine ⟨raws, rest, hcount, hvalid, rfl, rfl, ?_⟩
  have hraws : (raws.map RawEntry.entry).map OsdShorthandEntry.raw = raws.map RawEntry.canonical := by
    rw [List.map_map]
    exact List.map_congr_left fun raw _ => raw.raw_entry
  rw [serializeOsdShorthand_eq (by rw [List.length_map]; exact hcount), hraws]

end

/-! ## Both codecs -/

theorem blobs_round_trip :
    (∀ (table : VtxTable) (n : ℕ), table.Fits n →
      ∃ bytes, serializeVtxTable table = some bytes ∧ parseVtxTable bytes = .ok table) ∧
    (∀ bytes, parseVtxTable bytes ≠ .error .pastEnd ∧
      ∀ table, parseVtxTable bytes = .ok table →
        ∃ n raws rest, table.Fits n ∧ (∀ raw ∈ raws, raw.Valid n) ∧
          bytes = vtxBlob n raws ++ rest ∧ table.bands = raws.map RawBand.band ∧
          serializeVtxTable table = some (vtxBlob n (raws.map RawBand.canonical))) ∧
    (∀ table : OsdShorthand, table.Fits →
      parseOsdShorthand (serializeOsdShorthand table) = .ok table) ∧
    (∀ bytes, parseOsdShorthand bytes ≠ .error .pastEnd ∧
      ∀ table, parseOsdShorthand bytes = .ok table →
        ∃ raws rest, raws.length ≤ OSD_SHORTHAND_MAX_ENTRIES ∧ (∀ raw ∈ raws, raw.Valid) ∧
          bytes = osdBlob raws ++ rest ∧ table.entries = raws.map RawEntry.entry ∧
          serializeOsdShorthand table = osdBlob (raws.map RawEntry.canonical)) := by
  refine ⟨fun table n h => ⟨_, h.serialize, h.parse⟩, fun bytes => ⟨parse_ne_pastEnd bytes, ?_⟩,
    fun table h => h.round_trip, fun bytes => ⟨osd_parse_ne_pastEnd bytes, ?_⟩⟩
  · intro table h
    exact parseVtxTable_ok h
  · intro table h
    exact parseOsdShorthand_ok h

def flaggedBand : RawBand where
  name := List.replicate 8 0x41
  letter := 0x41
  factory := 2
  frequencies := [5865]

/-- An accepted blob without any padding, which is not what is written for its table. -/
theorem factory_flag_normalised :
    flaggedBand.name.rdropWhile isPadByte = flaggedBand.name ∧
      ∃ table, parseVtxTable (vtxBlob 1 [flaggedBand]) = .ok table ∧
        serializeVtxTable table ≠ some (vtxBlob 1 [flaggedBand]) := by
  have hcounts : VtxCounts 1 [flaggedBand].length := ⟨by decide, by decide⟩
  have hvalid : ∀ raw ∈ [flaggedBand], raw.Valid 1 := by
    intro raw hraw
    rw [List.mem_singleton.mp hraw]
    exact ⟨rfl, rfl, by simp [flaggedBand]⟩
  have hparse := parse_vtxBlob hcounts hvalid []
  rw [List.append_nil] at hparse
  refine ⟨rfl, _, hparse, ?_⟩
  rw [(fits_of_raws hcounts hvalid).serialize]
  intro h
  have hflag := congrArg (fun bytes : Bytes => bytes[14]?) (Option.some.inj h)
  exact absurd hflag (by decide +kernel)

end ArduConfigurator.Tables
