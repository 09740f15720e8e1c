import ArduConfigurator.Tables.BlobCodecs
import ArduConfigurator.Tables.ImportedRows

/-! # Imported tables in the blob

The import checks the counts and the lengths of names from above. A table that passes fits the blob
when its rows keep to the other limits. -/
namespace ArduConfigurator.Tables
set_option autoImplicit false

/-! ## What the import makes -/

section
variable {channels : JsNumber} {bands : List VtxTableBand} {levels : List VtxTablePowerLevel}
  {rows : ImportRows} {r : BetaflightVtxTableImport}

theorem checkLimits_eq_ok : checkLimits channels bands levels = .ok r ↔
    bands.length ≤ VTX_TABLE_MAX_BANDS ∧
    (JsNumber.finite false VTX_TABLE_MAX_CHANNELS).lt channels = false ∧
    levels.length ≤ VTX_TABLE_MAX_POWER_LEVELS ∧
    (∀ band ∈ bands, band.name.length ≤ VTX_TABLE_BAND_NAME_LEN) ∧
    r = ⟨⟨VTX_TABLE_VERSION, channels, bands⟩, levels⟩ := by
  rw [checkLimits]
  constructor
  · intro h
    split at h
    · cases h
    next hbands =>
    split at h
    · cases h
    next hchannels =>
    split at h
    · cases h
    next hlevels =>
    split at h
    · cases h
    next hnames =>
    rw [List.find?_eq_none] at hnames
    exact ⟨by omega, by simpa using hchannels, by omega, by simpa using hnames,
      (Except.ok.inj h).symm⟩
  · rintro ⟨hbands, hchannels, hlevels, hnames, rfl⟩
    have hfind : bands.find? (fun band => VTX_TABLE_BAND_NAME_LEN < band.name.length) = none := by
      rw [List.find?_eq_none]
      simpa using hnames
    rw [if_neg (by omega), if_neg (by rw [hchannels]; exact Bool.false_ne_true), if_neg (by omega),
      hfind]

theorem assemble_eq_ok : assemble rows = .ok r ↔ rows.bandByIndex.size ≠ 0 ∧
    ∃ bands normalized,
      bandsFrom rows.bandByIndex 1 (rows.bandByIndex.keys.foldr max 0) = .ok bands ∧
      List.Forall₂ (fun band band' => normalizeBand (resolvedChannels rows bands) band = .ok band')
        bands normalized ∧
      checkLimits (resolvedChannels rows bands) normalized
        (powerLevels (rows.powerValues.getD []) (rows.powerLabels.getD [])) = .ok r := by
  rw [assemble]
  constructor
  · intro h
    split at h
    · cases h
    next hsize =>
    refine ⟨hsize, ?_⟩
    cases hbands : bandsFrom rows.bandByIndex 1 (rows.bandByIndex.keys.foldr max 0) with
    | error e =>
      rw [hbands] at h
      cases h
    | ok bands =>
      rw [hbands] at h
      cases hnormalized : bands.mapM (normalizeBand (resolvedChannels rows bands)) with
      | error e =>
        simp only [Except.bind, hnormalized] at h
        cases h
      | ok normalized =>
        simp only [Except.bind, hnormalized] at h
        exact ⟨bands, normalized, rfl, mapM_eq_ok.mp hnormalized, h⟩
  · rintro ⟨hsize, bands, normalized, hbands, hnormalized, hlimits⟩
    rw [if_neg hsize, hbands]
    simp only [Except.bind, mapM_eq_ok.mpr hnormalized, hlimits]

end

def textRows (text : Text) : List (List Text) := vtxRows (splitLines text)

def widestBand (bands : List VtxTableBand) : ℕ :=
  (bands.map fun band => band.frequencies.length).foldr max 0

variable {bands : List VtxTableBand}

theorem length_le_widestBand {band : VtxTableBand} (h : band ∈ bands) :
    band.frequencies.length ≤ widestBand bands := le_foldr_max (List.mem_map_of_mem h)

theorem exists_of_widestBand_pos (h : 1 ≤ widestBand bands) :
    ∃ band ∈ bands, band.frequencies ≠ [] := by
  by_contra hnone
  have hzero : widestBand bands ≤ 0 := by
    refine foldr_max_le fun k hk => ?_
    obtain ⟨band, hband, rfl⟩ := List.mem_map.mp hk
    by_contra hne
    exact hnone ⟨band, hband, fun hnil => hne (by rw [hnil]; exact Nat.le_refl 0)⟩
  omega

structure Imports (rows : List (List Text)) (bands : List VtxTableBand)
    (r : BetaflightVtxTableImport) : Prop where
  mem : ∀ band, band ∈ bands ↔ ∃ index, lastBand rows index = some band
  nonempty : bands ≠ []
  most : bands.length ≤ VTX_TABLE_MAX_BANDS
  version : r.table.version = VTX_TABLE_VERSION
  channels : r.table.numChannels =
    (lastChannels rows).getD (.finite false (widestBand bands : ℕ))
  few : (JsNumber.finite false VTX_TABLE_MAX_CHANNELS).lt r.table.numChannels = false
  bands : List.Forall₂ (fun band band' => normalizeBand r.table.numChannels band = .ok band')
    bands r.table.bands

theorem exists_imports {text : Text} {r : BetaflightVtxTableImport}
    (h : parseBetaflightVtxTable text = .ok r) : ∃ bands, Imports (textRows text) bands r := by
  rw [parseBetaflightVtxTable] at h
  cases hrows : (splitLines text).foldlM readLine .none with
  | error e =>
    rw [hrows] at h
    cases h
  | ok rows =>
    rw [hrows] at h
    obtain ⟨hsize, bands, normalized, hbands, hnormalized, hlimits⟩ := assemble_eq_ok.mp h
    obtain ⟨hmost, hfew, -, -, rfl⟩ := checkLimits_eq_ok.mp hlimits
    have hreads := foldlM_reads hrows
    have hget : ∀ index, rows.bandByIndex.get index = lastBand (textRows text) index := by
      intro index
      rw [hreads.bands index, ImportRows.none, JsMap.get_empty, Option.or_none]
      rfl
    have hchannels : rows.numChannels = lastChannels (textRows text) := by
      rw [hreads.channels, ImportRows.none, Option.or_none]
      rfl
    have hmem := mem_bands_iff (fun index band hband => lastBand_pos ((hget index).symm.trans hband))
      hbands
    refine ⟨bands, fun band => by simp only [hmem, hget], ?_, ?_, rfl, ?_, hfew, hnormalized⟩
    · rintro rfl
      obtain ⟨⟨k, band⟩, hentry⟩ := List.exists_mem_of_length_pos (Nat.pos_of_ne_zero hsize)
      exact absurd ((hmem band).mpr ⟨k, JsMap.mem_entries_iff.mp hentry⟩) List.not_mem_nil
    · rw [hnormalized.length_eq]
      exact hmost
    · rw [← hchannels]
      rfl

/-! ## Which imports fit the blob -/

def keptFrequencies (numChannels : Option JsNumber) (frequencies : List ℕ) : List ℕ :=
  match numChannels with
  | some (.finite false q) => frequencies.take ⌊q⌋₊
  | _ => frequencies

structure FitsBlob (rows : List (List Text)) : Prop where
  channels : ∀ x, lastChannels rows = some x →
    ∃ n : ℕ, 1 ≤ n ∧ n ≤ VTX_TABLE_MAX_CHANNELS ∧ x = .ofInt n
  widest : lastChannels rows = none →
    ∃ index band, lastBand rows index = some band ∧ band.frequencies ≠ []
  names : ∀ index band, lastBand rows index = some band →
    FitsField VTX_TABLE_BAND_NAME_LEN band.name
  letters : ∀ index band, lastBand rows index = some band → FitsLetter band.letter
  frequencies : ∀ index band, lastBand rows index = some band →
    ∀ f ∈ keptFrequencies (lastChannels rows) band.frequencies, f < 65536

section
variable {rows : List (List Text)} {r : BetaflightVtxTableImport}
  {n : ℕ}

theorem ofInt_channels (h : n ≤ VTX_TABLE_MAX_CHANNELS) :
    (.ofInt n : JsNumber) = .finite false (n : ℚ≥0) := by
  rw [VTX_TABLE_MAX_CHANNELS] at h
  exact JsNumber.ofInt_natCast (by omega)

theorem Imports.bands_eq (h : Imports rows bands r) (hn : r.table.numChannels = .ofInt n)
    (hmost : n ≤ VTX_TABLE_MAX_CHANNELS) :
    List.Forall₂ (fun band band' : VtxTableBand =>
      band' = { band with frequencies := fitChannels n band.frequencies }) bands r.table.bands := by
  refine h.bands.imp fun band band' hband => ?_
  rw [VTX_TABLE_MAX_CHANNELS] at hmost
  rw [hn, JsNumber.ofInt_natCast (by omega), normalizeBand_natCast (by omega)] at hband
  exact (Except.ok.inj hband).symm

theorem Imports.kept_eq (h : Imports rows bands r) (hn : r.table.numChannels = .ofInt n)
    (hmost : n ≤ VTX_TABLE_MAX_CHANNELS) {band : VtxTableBand} (hband : band ∈ bands) :
    keptFrequencies (lastChannels rows) band.frequencies = band.frequencies.take n := by
  have hchannels := h.channels
  rw [hn, ofInt_channels hmost] at hchannels
  cases hlast : lastChannels rows with
  | none =>
    rw [hlast, Option.getD_none, JsNumber.finite.injEq, Nat.cast_inj] at hchannels
    have hlength := length_le_widestBand hband
    rw [keptFrequencies, List.take_of_length_le (by omega)]
    simp
  | some x =>
    rw [hlast, Option.getD_some] at hchannels
    rw [← hchannels, keptFrequencies, Nat.floor_natCast]

theorem Imports.fits_iff (h : Imports rows bands r) : (∃ n, r.table.Fits n) ↔ FitsBlob rows := by
  constructor
  · rintro ⟨n, hfits⟩
    have hn := hfits.numChannels
    obtain ⟨hleast, hmost⟩ := hfits.counts.channels
    have hbands := h.bands_eq hn hmost
    have hband : ∀ index band, lastBand rows index = some band → band ∈ bands ∧
        VtxTableBand.Fits n { band with frequencies := fitChannels n band.frequencies } := by
      intro index band hindex
      have hmem := (h.mem band).mpr ⟨index, hindex⟩
      obtain ⟨i, hi, rfl⟩ := List.mem_iff_getElem.mp hmem
      have hget := hbands.get hi (by rw [← hbands.length_eq]; exact hi)
      refine ⟨hmem, ?_⟩
      rw [List.get_eq_getElem, List.get_eq_getElem] at hget
      rw [← hget]
      exact hfits.bands _ (List.getElem_mem _)
    have hchannels := h.channels
    refine ⟨?_, ?_, ?_, ?_, ?_⟩
    · intro x hx
      rw [hx, Option.getD_some] at hchannels
      exact ⟨n, hleast, hmost, hchannels.symm.trans hn⟩
    · intro hnone
      rw [hnone, Option.getD_none, hn, ofInt_channels hmost, JsNumber.finite.injEq,
        Nat.cast_inj] at hchannels
      have hwide : 1 ≤ widestBand bands := by omega
      obtain ⟨band, hmem, hne⟩ := exists_of_widestBand_pos hwide
      obtain ⟨index, hindex⟩ := (h.mem band).mp hmem
      exact ⟨index, band, hindex, hne⟩
    · exact fun index band hindex => (hband index band hindex).2.name
    · exact fun index band hindex => (hband index band hindex).2.letter
    · intro index band hindex f hf
      obtain ⟨hmem, hfit⟩ := hband index band hindex
      rw [h.kept_eq hn hmost hmem] at hf
      exact hfit.frequencies f (List.mem_append_left _ hf)
  · intro hfits
    obtain ⟨n, hleast, hmost, hn⟩ : ∃ n : ℕ, 1 ≤ n ∧ n ≤ VTX_TABLE_MAX_CHANNELS ∧
        r.table.numChannels = .ofInt n := by
      have hchannels := h.channels
      cases hlast : lastChannels rows with
      | none =>
        rw [hlast, Option.getD_none] at hchannels
        have hfew := h.few
        rw [hchannels, JsNumber.natCast_lt, decide_eq_false_iff_not, Nat.not_lt] at hfew
        obtain ⟨index, band, hindex, hne⟩ := hfits.widest hlast
        have hlength := length_le_widestBand ((h.mem band).mpr ⟨index, hindex⟩)
        have hpos := List.length_pos_iff.mpr hne
        exact ⟨widestBand bands, by omega, hfew, hchannels.trans (ofInt_channels hfew).symm⟩
      | some x =>
        obtain ⟨n, hleast, hmost, rfl⟩ := hfits.channels x hlast
        rw [hlast, Option.getD_some] at hchannels
        exact ⟨n, hleast, hmost, hchannels⟩
    have hbands := h.bands_eq hn hmost
    have hlength := h.bands.length_eq
    refine ⟨n, h.version, hn, ⟨⟨?_, ?_⟩, hleast, hmost⟩, ?_⟩
    · rw [← hlength]
      exact List.length_pos_iff.mpr h.nonempty
    · rw [← hlength]
      exact h.most
    · intro band' hband'
      obtain ⟨i, hi, rfl⟩ := List.mem_iff_getElem.mp hband'
      have hi' : i < bands.length := by omega
      have hget := hbands.get hi' hi
      rw [List.get_eq_getElem, List.get_eq_getElem] at hget
      have hmem : bands[i] ∈ bands := List.getElem_mem hi'
      obtain ⟨index, hindex⟩ := (h.mem bands[i]).mp hmem
      rw [hget]
      refine ⟨hfits.names index bands[i] hindex, hfits.letters index bands[i] hindex,
        fitChannels_length _, ?_⟩
      intro f hf
      obtain hf | hf := List.mem_append.mp hf
      · refine hfits.frequencies index bands[i] hindex f ?_
        rw [h.kept_eq hn hmost hmem]
        exact hf
      · rw [List.eq_of_mem_replicate hf]
        omega

end

theorem round_trips_iff (table : VtxTable) :
    (∃ bytes, serializeVtxTable table = some bytes ∧ parseVtxTable bytes = .ok table) ↔
      ∃ n, table.Fits n := by
  constructor
  · rintro ⟨bytes, -, hparse⟩
    obtain ⟨n, raws, rest, hfits, -⟩ := parseVtxTable_ok hparse
    exact ⟨n, hfits⟩
  · rintro ⟨n, hfits⟩
    exact ⟨_, hfits.serialize, hfits.parse⟩

theorem import_fits_iff {text : Text} {r : BetaflightVtxTableImport}
    (h : parseBetaflightVtxTable text = .ok r) :
    (∃ bytes, serializeVtxTable r.table = some bytes ∧ parseVtxTable bytes = .ok r.table) ↔
      FitsBlob (textRows text) := by
  obtain ⟨bands, himports⟩ := exists_imports h
  rw [round_trips_iff, himports.fits_iff]

def wideFrequency : Text := units "vtxtable band 1 A A CUSTOM 70000"

def wideTable : VtxTable := ⟨2, .ofInt 1, [⟨units "A", units "A", false, [70000]⟩]⟩

theorem parse_wideFrequency : parseBetaflightVtxTable wideFrequency = .ok ⟨wideTable, []⟩ := by
  decide +kernel

theorem wide_frequency_imported : ¬ ∀ (text : Text) (r : BetaflightVtxTableImport),
    parseBetaflightVtxTable text = .ok r →
      ∃ bytes, serializeVtxTable r.table = some bytes ∧ parseVtxTable bytes = .ok r.table := by
  intro hall
  have hround := hall wideFrequency ⟨wideTable, []⟩ parse_wideFrequency
  obtain ⟨n, hfits⟩ := (round_trips_iff wideTable).mp hround
  have hband : VtxTableBand.Fits n ⟨units "A", units "A", false, [70000]⟩ :=
    hfits.bands _ List.mem_cons_self
  have hlt : (70000 : ℕ) < 65536 := hband.frequencies 70000 List.mem_cons_self
  omega

def oneBand : Text := units "vtxtable band 1 A A CUSTOM 5865"

def oneBandTokens : List Text :=
  [units "vtxtable", units "band", units "1", units "A", units "A", units "CUSTOM", units "5865"]

def oneTable : VtxTable := ⟨2, .ofInt 1, [⟨units "A", units "A", false, [5865]⟩]⟩

theorem one_band_imported : ∃ bytes,
    serializeVtxTable oneTable = some bytes ∧ parseVtxTable bytes = .ok oneTable := by
  have himport : parseBetaflightVtxTable oneBand = .ok ⟨oneTable, []⟩ := by decide +kernel
  have hrows : textRows oneBand = [oneBandTokens] := by decide +kernel
  have hrow : rowBand oneBandTokens = ⟨units "A", units "A", false, [5865]⟩ := by decide +kernel
  have hchannels : lastChannels (textRows oneBand) = none := by
    rw [hrows]
    decide +kernel
  have hfirst : (lastBand (textRows oneBand) 1).isSome = true := by
    rw [hrows]
    decide +kernel
  have hband : ∀ index band, lastBand (textRows oneBand) index = some band →
      band = ⟨units "A", units "A", false, [5865]⟩ := by
    intro index band hindex
    obtain ⟨tokens, htokens, hof⟩ := List.exists_of_findSome?_eq_some hindex
    rw [hrows, List.mem_reverse, List.mem_singleton] at htokens
    rw [htokens, bandOf, hrow] at hof
    split at hof
    · exact (Option.some.inj hof).symm
    · cases hof
  have hiff := import_fits_iff himport
  refine hiff.mpr ⟨fun x hx => ?_, fun _ => ?_, fun index band hindex => ?_,
    fun index band hindex => ?_, fun index band hindex f hf => ?_⟩
  · rw [hchannels] at hx
    cases hx
  · obtain ⟨band, hindex⟩ := Option.isSome_iff_exists.mp hfirst
    refine ⟨1, band, hindex, ?_⟩
    rw [hband 1 band hindex]
    exact List.cons_ne_nil _ _
  · rw [hband index band hindex]
    exact ⟨by decide, by decide, by decide⟩
  · rw [hband index band hindex]
    exact .inr ⟨0x41, rfl, by decide, by decide⟩
  · rw [hchannels, hband index band hindex] at hf
    obtain rfl := List.mem_singleton.mp hf
    omega

end ArduConfigurator.Tables
