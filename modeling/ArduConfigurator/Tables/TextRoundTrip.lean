import ArduConfigurator.Tables.ImportValidity
import ArduConfigurator.Tables.PowerRows

/-! # Exported tables and their import

The lines of an export are read one after the other; the table comes back when each of its rows
does. -/
namespace ArduConfigurator.Tables
open DecimalText
set_option autoImplicit false

/-! ## Single lines -/

def plainLine (kind : Text) (words : List Text) : Text :=
  units "vtxtable" ++ SPACE :: (kind ++ SPACE :: joinWith SPACE words)

section
variable {kind : Text} {words : List Text} {c : UInt16}

theorem mem_plain_ne {word : Text} (h : Plain word) (hc : c ∈ word) :
    c ≠ LINE_FEED ∧ c ≠ CARRIAGE_RETURN ∧ c ≠ HASH := by
  obtain ⟨hspace, hhash, -⟩ := h.2 c hc
  refine ⟨?_, ?_, hhash⟩
  · rintro rfl
    exact absurd hspace (by decide)
  · rintro rfl
    exact absurd hspace (by decide)

theorem mem_plainLine (hkind : Plain kind) (hwords : ∀ word ∈ words, Plain word)
    (hc : c ∈ plainLine kind words) : c ≠ LINE_FEED ∧ c ≠ CARRIAGE_RETURN ∧ c ≠ HASH := by
  have hspace (h : c = SPACE) : c ≠ LINE_FEED ∧ c ≠ CARRIAGE_RETURN ∧ c ≠ HASH := by
    rw [h]
    decide
  have hword : Plain (units "vtxtable") := ⟨by decide, by decide⟩
  rw [plainLine, List.mem_append, List.mem_cons, List.mem_append, List.mem_cons] at hc
  obtain hc | hc | hc | hc | hc := hc
  · exact mem_plain_ne hword hc
  · exact hspace hc
  · exact mem_plain_ne hkind hc
  · exact hspace hc
  · obtain hc | ⟨word, hmem, hc⟩ := mem_joinWith hc
    · exact hspace hc
    · exact mem_plain_ne (hwords word hmem) hc

theorem pieces_plainLine (hkind : Plain kind) (hwords : ∀ word ∈ words, Plain word) :
    pieces (plainLine kind words) = [plainLine kind words] := by
  refine pieces_line (fun hmem => (mem_plainLine hkind hwords hmem).1 rfl) fun hlast => ?_
  exact (mem_plainLine hkind hwords (List.mem_of_getLast? hlast)).2.1 rfl

theorem lineTokens_plainLine (hkind : Plain kind) (hwords : ∀ word ∈ words, Plain word) :
    lineTokens (plainLine kind words) = units "vtxtable" :: kind :: words := by
  have hword : Plain (units "vtxtable") := ⟨by decide, by decide⟩
  rw [lineTokens_eq, stripComment_of_no_hash fun hmem => (mem_plainLine hkind hwords hmem).2.2 rfl,
    plainLine, scan_plain_cons hword, scan_plain_cons hkind, scan_plain hwords]

theorem isVtxRow_cons (kind : Text) (words : List Text) :
    isVtxRow (units "vtxtable" :: kind :: words) = true := by
  have hword : toLowerCase (units "vtxtable") = units "vtxtable" := by decide
  simp [isVtxRow, hword]

theorem readLine_plainLine (hkind : Plain kind) (hwords : ∀ word ∈ words, Plain word)
    (rows : ImportRows) : (pieces (plainLine kind words)).foldlM readLine rows =
      readVtxRow rows (units "vtxtable" :: kind :: words) := by
  rw [pieces_plainLine hkind hwords, List.foldlM_cons, readLine, lineTokens_plainLine hkind hwords,
    if_pos (isVtxRow_cons kind words)]
  cases readVtxRow rows (units "vtxtable" :: kind :: words) with
  | error e => rfl
  | ok rows' => rfl

end

/-! ## The line of a band -/

section
variable {n index : ℕ} {band : VtxTableBand}

theorem lineTokens_bandHead (rest : Text) :
    lineTokens (bandHead index ++ rest) = headTokens index ++ scan .between (stripComment rest) := by
  rw [lineTokens_eq, stripComment_append (uncommented_of_notMem (no_hash_bandHead index)),
    scan_bandHead]

theorem no_feed_bandHead (index : ℕ) : LINE_FEED ∉ bandHead index := by
  have hword : LINE_FEED ∉ units "vtxtable" := by decide
  have hkind : LINE_FEED ∉ units "band" := by decide
  have hspace : LINE_FEED ≠ SPACE := by decide
  have hcount : LINE_FEED ∉ countText index := fun hmem =>
    (mem_plain_ne (plain_countText index) hmem).1 rfl
  simp [bandHead, hword, hkind, hspace, hcount]

theorem foldlM_readLine_cons {piece : Text} {more : List Text} {rows : ImportRows}
    {tokens : List Text} (htokens : lineTokens piece = tokens) (hrow : isVtxRow tokens = true) :
    (piece :: more).foldlM readLine rows =
      (readVtxRow rows tokens).bind fun rows => more.foldlM readLine rows := by
  rw [List.foldlM_cons, readLine, htokens, if_pos hrow]
  rfl

theorem exists_piece (opening : Text) {text : Text} (hne : text ≠ [])
    (hfeed : LINE_FEED ∉ opening ++ text) : ∃ rest, pieces (opening ++ text) = [opening ++ rest] ∧
      (text = rest ∨ text = rest ++ [CARRIAGE_RETURN]) := by
  obtain ⟨piece, hpiece, hcut⟩ := pieces_of_no_feed hfeed
  obtain hcut | hcut := hcut
  · exact ⟨text, by rw [hpiece, ← hcut], .inl rfl⟩
  · obtain ⟨rest, c, rfl⟩ := (List.eq_nil_or_concat text).resolve_left hne
    rw [List.concat_eq_append, ← List.append_assoc] at hcut
    obtain ⟨rfl, hc⟩ := List.append_inj' hcut rfl
    refine ⟨rest, hpiece, .inr ?_⟩
    rw [List.concat_eq_append, hc]

theorem lineTokens_bandEnd : isVtxRow (lineTokens (bandEnd n band)) = false := by
  have hhash : HASH ∉ bandEnd n band := fun hmem => (mem_bandEnd hmem).2.1 rfl
  rw [lineTokens_eq, stripComment_of_no_hash hhash, scan_bandEnd]
  have hflag : toLowerCase (flagText band.isFactory) ≠ units "vtxtable" := by
    cases band.isFactory with
    | false => decide
    | true => decide
  exact decide_eq_false fun h => hflag (Option.some.inj h.1)

theorem no_feed_bandEnd : LINE_FEED ∉ bandEnd n band :=
  fun hmem => absurd (mem_bandEnd hmem).1 (by decide)

theorem getLast_bandEnd (opening : Text) :
    (opening ++ bandEnd n band).getLast? ≠ some CARRIAGE_RETURN := by
  intro hlast
  have hne : bandEnd n band ≠ [] := List.cons_ne_nil _ _
  rw [List.getLast?_append_of_ne_nil _ hne] at hlast
  exact absurd (mem_bandEnd (List.mem_of_getLast? hlast)).1 (by decide)

theorem byte_quote : QUOTE.toNat < 256 := by decide

theorem bandLine_reads (hfits : band.Fits n) (hpos : 1 ≤ index) (hindex : index < 2 ^ 53) :
    ∃ tokens, (∀ rows, (pieces (bandLine n index band)).foldlM readLine rows =
        readVtxRow rows (headTokens index ++ tokens)) ∧
      ((Flagged (headTokens index ++ tokens) ∧
        fitBand n (rowBand (headTokens index ++ tokens)) = band) ↔ band.Written) := by
  rw [bandLine_eq]
  by_cases hname : LINE_FEED ∈ band.name
  · -- the line is cut within the name, before any flag
    obtain ⟨a, b, hab, hfeed⟩ := List.eq_append_cons_of_mem hname
    have hany : band.name.any isWhiteSpace = true :=
      List.any_eq_true.mpr ⟨LINE_FEED, hname, by decide⟩
    have hline : bandHead index ++ bandRest n band = (bandHead index ++ QUOTE :: a) ++ LINE_FEED ::
        (b ++ QUOTE :: SPACE :: (letterText band.letter ++ bandEnd n band)) := by
      rw [bandRest, quote, if_pos hany, hab]
      simp
    have hno : LINE_FEED ∉ bandHead index ++ QUOTE :: a := by
      have hquote : LINE_FEED ≠ QUOTE := by decide
      simp [no_feed_bandHead, hquote, hfeed]
    obtain ⟨rest, hpiece, hcut⟩ := exists_piece (bandHead index) (List.cons_ne_nil _ _) hno
    have hstart : stripComment rest <+: QUOTE :: a := by
      obtain rfl | hreturn := hcut
      · exact stripComment_isStart _
      · rw [hreturn]
        exact (stripComment_isStart _).trans (List.prefix_append _ _)
    have hflag : ¬ Flagged (headTokens index ++ scan .between (stripComment rest)) := by
      refine not_flagged_of_short (fun c hc => ?_) ?_ index
      · obtain rfl | hc := List.mem_cons.mp (hstart.subset hc)
        · exact byte_quote
        · exact hfits.name.chars c (by rw [hab]; exact List.mem_append_left _ hc)
      · have hlength := hfits.name.length
        have hshort := hstart.length_le
        rw [hab, List.length_append, List.length_cons, VTX_TABLE_BAND_NAME_LEN] at hlength
        rw [List.length_cons] at hshort
        omega
    refine ⟨_, fun rows => ?_, ⟨fun h => absurd h.1 hflag, fun h => absurd hname h.oneLine⟩⟩
    rw [hline, pieces_append, hpiece, List.singleton_append,
      foldlM_readLine_cons (lineTokens_bandHead rest) (isVtxRow_headTokens index _),
      (readVtxRow_headTokens hpos hindex _ rows).2 hflag]
    rfl
  · have hfeed : LINE_FEED ∉ quote band.name := by
      have hquote : LINE_FEED ≠ QUOTE := by decide
      rw [quote]
      split
      · simp [hquote, hname]
      · exact hname
    by_cases hletter : band.letter = [LINE_FEED]
    · -- the line is cut at the letter, and what follows is no row
      have hrest : bandRest n band = (quote band.name ++ [SPACE]) ++ LINE_FEED :: bandEnd n band := by
        rw [bandRest, letterText_of_ne hletter]
        simp
      have hno : LINE_FEED ∉ bandHead index ++ (quote band.name ++ [SPACE]) := by
        have hspace : LINE_FEED ≠ SPACE := by decide
        simp [no_feed_bandHead, hspace, hfeed]
      have hlast : (bandHead index ++ (quote band.name ++ [SPACE])).getLast? ≠
          some CARRIAGE_RETURN := by
        rw [← List.append_assoc, List.getLast?_concat]
        decide
      have hend : pieces (bandEnd n band) = [bandEnd n band] :=
        pieces_line no_feed_bandEnd (getLast_bandEnd [])
      refine ⟨scan .between (stripComment (quote band.name ++ [SPACE])), fun rows => ?_,
        ⟨fun h => ?_, fun h => ?_⟩⟩
      · rw [hrest, ← List.append_assoc, pieces_append, pieces_line hno hlast, List.singleton_append,
          foldlM_readLine_cons (lineTokens_bandHead _) (isVtxRow_headTokens index _), hend]
        have hskip : ∀ rows, [bandEnd n band].foldlM readLine rows = .ok rows := by
          intro rows
          rw [List.foldlM_cons, readLine, lineTokens_bandEnd]
          rfl
        simp only [hskip]
        cases readVtxRow rows (headTokens index ++
            scan .between (stripComment (quote band.name ++ [SPACE]))) with
        | error e => rfl
        | ok rows' => rfl
      · exact written_of_read hfits hrest
          (fun hmem => hno (List.mem_append_right _ hmem)) h.1 h.2
      · obtain ⟨c, hc, hspace, -⟩ := h.letter
        rw [hletter] at hc
        obtain rfl := (List.cons.inj hc).1
        exact absurd hspace (by decide)
    · have hfeedRest : LINE_FEED ∉ bandRest n band := by
        obtain ⟨d, hd, hcases⟩ := letterText_singleton hfits.letter
        have hspace : LINE_FEED ≠ SPACE := by decide
        have hne : LINE_FEED ≠ d := by
          rintro rfl
          obtain hnil | hsingle := hcases
          · rw [hnil] at hd
            exact absurd hd (by decide)
          · exact hletter hsingle
        rw [bandRest, hd]
        simp [hfeed, hspace, hne, no_feed_bandEnd]
      have hno : LINE_FEED ∉ bandHead index ++ bandRest n band := by
        simp [no_feed_bandHead, hfeedRest]
      have hlast : (bandHead index ++ bandRest n band).getLast? ≠ some CARRIAGE_RETURN := by
        have hline : bandHead index ++ bandRest n band =
            (bandHead index ++ (quote band.name ++ SPACE :: letterText band.letter)) ++
              bandEnd n band := by
          rw [bandRest]
          simp
        rw [hline]
        exact getLast_bandEnd _
      refine ⟨scan .between (stripComment (bandRest n band)), fun rows => ?_, ⟨fun h => ?_,
        fun h => ?_⟩⟩
      · rw [pieces_line hno hlast,
          foldlM_readLine_cons (lineTokens_bandHead _) (isVtxRow_headTokens index _)]
        cases readVtxRow rows (headTokens index ++
            scan .between (stripComment (bandRest n band))) with
        | error e => rfl
        | ok rows' => rfl
      · exact written_of_read hfits (List.append_nil _).symm hfeedRest h.1 h.2
      · rw [stripComment_bandRest h]
        exact rowBand_written hfits h index

end

/-! ## All bands -/

/-- The bands under the indices from `index` on. -/
def setBands (m : JsMap ℕ VtxTableBand) (index : ℕ) : List VtxTableBand → JsMap ℕ VtxTableBand
  | [] => m
  | band :: bands => setBands (m.set index band) (index + 1) bands

theorem get_setBands (m : JsMap ℕ VtxTableBand) (index j : ℕ) (bands : List VtxTableBand) :
    (setBands m index bands).get j =
      if index ≤ j ∧ j < index + bands.length then bands[j - index]? else m.get j := by
  induction bands generalizing m index with
  | nil =>
    rw [setBands, if_neg]
    simp
  | cons band bands ih =>
    rw [setBands, ih, JsMap.get_set, List.length_cons]
    by_cases hj : j = index
    · subst hj
      rw [if_neg (by omega), if_pos rfl, if_pos (by omega), Nat.sub_self]
      rfl
    · rw [if_neg hj]
      by_cases hin : index + 1 ≤ j ∧ j < index + 1 + bands.length
      · have hsub : j - index = j - (index + 1) + 1 := by omega
        rw [if_pos hin, if_pos (by omega), hsub, List.getElem?_cons_succ]
      · rw [if_neg hin, if_neg (by omega)]

theorem bandsFrom_setBands {bands : List VtxTableBand} (hne : bands ≠ []) :
    (setBands .empty 1 bands).size ≠ 0 ∧
      bandsFrom (setBands .empty 1 bands) 1 ((setBands .empty 1 bands).keys.foldr max 0) =
        .ok bands := by
  have hpos := List.length_pos_iff.mpr hne
  have hkeys : ∀ j, j ∈ (setBands .empty 1 bands).keys ↔ 1 ≤ j ∧ j < 1 + bands.length := by
    intro j
    rw [JsMap.mem_keys_iff, get_setBands]
    split
    · next hj =>
      rw [List.getElem?_eq_getElem (by omega)]
      exact iff_of_true rfl hj
    · next hj => exact iff_of_false (by simp) hj
  have hmem : bands.length ∈ (setBands .empty 1 bands).keys := (hkeys _).mpr (by omega)
  have hmax : (setBands .empty 1 bands).keys.foldr max 0 = bands.length := by
    refine Nat.le_antisymm (foldr_max_le fun j hj => ?_) (le_foldr_max hmem)
    have hj' := (hkeys j).mp hj
    omega
  constructor
  · rw [JsMap.size_eq_length_keys]
    exact (List.length_pos_of_mem hmem).ne'
  · rw [hmax, bandsFrom_eq_ok]
    refine ⟨rfl, fun i hi => ?_⟩
    rw [get_setBands, if_pos (by omega), Nat.add_sub_cancel_left]

theorem bandLines_read {n : ℕ} (bands : List VtxTableBand) (index : ℕ)
    (hfits : ∀ band ∈ bands, band.Fits n) (hpos : 1 ≤ index)
    (hindex : index + bands.length < 2 ^ 53) :
    (∃ read : List VtxTableBand, read.length = bands.length ∧
      (∀ rows, ((bands.mapIdx fun i band => bandLine n (index + i) band).flatMap pieces).foldlM
        readLine rows = .ok { rows with bandByIndex := setBands rows.bandByIndex index read }) ∧
      (read.map (fitBand n) = bands ↔ ∀ band ∈ bands, band.Written)) ∨
    (∀ rows, ∃ e, ((bands.mapIdx fun i band => bandLine n (index + i) band).flatMap pieces).foldlM
        readLine rows = .error e) ∧ ¬ ∀ band ∈ bands, band.Written := by
  induction bands generalizing index with
  | nil => exact .inl ⟨[], rfl, fun rows => rfl, by simp⟩
  | cons band bands ih =>
    obtain ⟨hband, hbands⟩ := List.forall_mem_cons.mp hfits
    rw [List.length_cons] at hindex
    have hshift : (fun i band => bandLine n (index + (i + 1)) band) =
        fun i band => bandLine n (index + 1 + i) band := by
      funext i band
      congr 1
      omega
    obtain ⟨tokens, hread, hiff⟩ := bandLine_reads hband hpos (by omega)
    simp only [List.mapIdx_cons, List.flatMap_cons, List.foldlM_append, Nat.add_zero, hread, hshift,
      List.forall_mem_cons]
    by_cases hflag : Flagged (headTokens index ++ tokens)
    · have hset := fun rows => (readVtxRow_headTokens hpos (by omega) tokens rows).1 hflag
      simp only [hset]
      obtain ⟨read, hlength, hrest, hread⟩ | ⟨hrest, hnot⟩ := ih (index + 1) hbands (by omega)
        (by omega)
      · refine .inl ⟨rowBand (headTokens index ++ tokens) :: read, by simp [hlength],
          fun rows => hrest _, ?_⟩
        rw [List.map_cons, List.cons.injEq, hread, ← hiff]
        simp [hflag]
      · exact .inr ⟨fun rows => hrest _, fun h => hnot h.2⟩
    · have herror := fun rows => (readVtxRow_headTokens hpos (by omega) tokens rows).2 hflag
      simp only [herror]
      exact .inr ⟨fun rows => ⟨_, rfl⟩, fun h => hflag (hiff.mpr h.1).1⟩

/-! ## Line feeds in labels -/

variable {text : Text}

theorem no_feed_splitLines {line : Text} (h : line ∈ splitLines text) : LINE_FEED ∉ line := by
  induction text generalizing line with
  | nil =>
    rw [List.mem_singleton.mp h]
    simp
  | cons c text ih =>
    rw [splitLines] at h
    split at h
    · obtain rfl | h := List.mem_cons.mp h
      · simp
      · exact ih h
    next hfeed =>
    split at h
    · exact ih h
    split at h
    · rw [List.mem_singleton.mp h]
      simpa using Ne.symm hfeed
    · next first lines hlines =>
      obtain rfl | h := List.mem_cons.mp h
      · have hfirst : LINE_FEED ∉ first := ih (by rw [hlines]; exact List.mem_cons_self)
        simp [Ne.symm hfeed, hfirst]
      · exact ih (by rw [hlines]; exact List.mem_cons_of_mem _ h)

theorem no_feed_label {r : BetaflightVtxTableImport} (h : parseBetaflightVtxTable text = .ok r) :
    ∀ level ∈ r.powerLevels, LINE_FEED ∉ level.label := by
  rw [parseBetaflightVtxTable] at h
  cases hrows : (splitLines text).foldlM readLine .none with
  | error e =>
    rw [hrows] at h
    cases h
  | ok rows =>
    rw [hrows] at h
    obtain ⟨-, bands, normalized, -, -, hlimits⟩ := assemble_eq_ok.mp h
    obtain ⟨-, -, -, -, rfl⟩ := checkLimits_eq_ok.mp hlimits
    have hlabels := (foldlM_reads hrows).labels
    rw [ImportRows.none, Option.or_none] at hlabels
    have hfeed : ∀ label ∈ rows.powerLabels.getD [], LINE_FEED ∉ label := by
      intro label hlabel hmem
      rw [hlabels] at hlabel
      cases hlast : lastLabels (vtxRows (splitLines text)) with
      | none =>
        rw [hlast] at hlabel
        cases hlabel
      | some labels =>
        rw [hlast, Option.getD_some] at hlabel
        obtain ⟨tokens, htokens, hof⟩ := List.exists_of_findSome?_eq_some hlast
        rw [labelsOf] at hof
        split at hof
        · cases hof
          obtain ⟨line, hline, rfl⟩ :=
            List.mem_map.mp (List.mem_filter.mp (List.mem_reverse.mp htokens)).1
          rw [lineTokens_eq] at hlabel
          have hchar := mem_of_mem_scan rfl (List.mem_of_mem_drop hlabel) _ hmem
          exact no_feed_splitLines hline ((stripComment_isStart line).subset hchar)
        · cases hof
    intro level hlevel hmem
    obtain ⟨i, -, rfl⟩ := List.mem_map.mp hlevel
    have hmem' := List.mem_of_mem_take hmem
    rw [List.getD_eq_getElem?_getD] at hmem'
    cases hlabel : (rows.powerLabels.getD [])[i]? with
    | none =>
      rw [hlabel] at hmem'
      exact (mem_plain_ne (plain_numberToString _) hmem').1 rfl
    | some label =>
      rw [hlabel] at hmem'
      exact hfeed label (List.mem_of_getElem? hlabel) hmem'

/-! ## The whole text -/

section
variable {n : ℕ} {table : VtxTable} {levels : List VtxTablePowerLevel}

def labelsHead : Text := units "vtxtable" ++ SPACE :: (units "powerlabels" ++ [SPACE])

def exportLines (n : ℕ) (table : VtxTable) (levels : List VtxTablePowerLevel) : List Text :=
  plainLine (units "bands") [countText table.bands.length] ::
    plainLine (units "channels") [countText n] ::
    ((table.bands.mapIdx fun i band => bandLine n (1 + i) band) ++
    [plainLine (units "powerlevels") [countText levels.length],
      plainLine (units "powervalues") (levels.map fun level => numberToString level.value),
      labelsHead ++ labelsText levels])

theorem serializeBetaflight_eq (h : table.Fits n) : serializeBetaflightVtxTable table levels =
    some (joinWith LINE_FEED (exportLines n table levels) ++ [LINE_FEED]) := by
  obtain ⟨hbands, -⟩ := h.counts.bands
  obtain ⟨-, hmost⟩ := h.counts.channels
  rw [VTX_TABLE_MAX_CHANNELS] at hmost
  have hchannels : table.numChannels = .finite false n := by
    rw [h.numChannels, JsNumber.ofInt_natCast (by omega)]
  have hne : table.bands ≠ [] := List.length_pos_iff.mp hbands
  have hlength : lengthOf table.numChannels = some n := by
    have hsmall : ¬((2 ^ 32 : ℕ) : ℚ≥0) ≤ (n : ℕ) := by
      rw [not_le]
      exact Nat.cast_lt.mpr (by omega)
    rw [hchannels, lengthOf, if_neg hsmall, Nat.floor_natCast]
  have hindex : (fun i band => bandLine n (i + 1) band) = fun i band => bandLine n (1 + i) band := by
    funext i band
    rw [Nat.add_comm]
  have hbandsWord : units "vtxtable bands " =
      units "vtxtable" ++ SPACE :: (units "bands" ++ [SPACE]) := by decide
  have hchannelsWord : units "vtxtable channels " =
      units "vtxtable" ++ SPACE :: (units "channels" ++ [SPACE]) := by decide
  have hlevelsWord : units "vtxtable powerlevels " =
      units "vtxtable" ++ SPACE :: (units "powerlevels" ++ [SPACE]) := by decide
  have hvaluesWord : units "vtxtable powervalues " =
      units "vtxtable" ++ SPACE :: (units "powervalues" ++ [SPACE]) := by decide
  have hlabelsWord : units "vtxtable powerlabels " = labelsHead := by decide
  have hcount : numberToString table.numChannels = countText n := by rw [hchannels, countText]
  rw [serializeBetaflightVtxTable, if_neg hne, hlength, Option.map_some, hindex, hbandsWord,
    hchannelsWord, hlevelsWord, hvaluesWord, hlabelsWord, hcount]
  simp [exportLines, plainLine, joinWith, labelsText]

end

section
variable {n : ℕ} {table : VtxTable} {levels : List VtxTablePowerLevel}

theorem readVtxRow_other {kind : Text} (words : List Text) (rows : ImportRows)
    (hkind : kind = units "bands" ∨ kind = units "powerlevels") :
    readVtxRow rows (units "vtxtable" :: kind :: words) = .ok rows := by
  have hrow : rowKind (units "vtxtable" :: kind :: words) = toLowerCase kind := rfl
  have hne : toLowerCase kind ≠ units "channels" ∧ toLowerCase kind ≠ units "band" ∧
      toLowerCase kind ≠ units "powervalues" ∧ toLowerCase kind ≠ units "powerlabels" := by
    obtain rfl | rfl := hkind
    · decide
    · decide
  rw [readVtxRow, hrow, if_neg hne.1, if_neg hne.2.1, if_neg hne.2.2.1, if_neg hne.2.2.2]

theorem readVtxRow_channels (hn : n < 2 ^ 53) (rows : ImportRows) :
    readVtxRow rows [units "vtxtable", units "channels", countText n] =
      .ok { rows with numChannels := some (.finite false n) } := by
  have hkind : rowKind [units "vtxtable", units "channels", countText n] = units "channels" := by
    have hlower : toLowerCase (units "channels") = units "channels" := by decide
    exact hlower
  rw [readVtxRow, if_pos hkind]
  simp only [List.getElem?_cons_succ, List.getElem?_cons_zero, cliNumber_countText hn]

theorem readVtxRow_values (words : List Text) (rows : ImportRows) :
    readVtxRow rows (units "vtxtable" :: units "powervalues" :: words) =
      .ok { rows with
        powerValues := some (words.map fun token => roundPower (cliNumber (some token))) } := by
  have hkind : rowKind (units "vtxtable" :: units "powervalues" :: words) = units "powervalues" := by
    have hlower : toLowerCase (units "powervalues") = units "powervalues" := by decide
    exact hlower
  have hne : units "powervalues" ≠ units "channels" ∧ units "powervalues" ≠ units "band" := by decide
  rw [readVtxRow, hkind, if_neg hne.1, if_neg hne.2, if_pos rfl]
  rfl

theorem readVtxRow_labels (words : List Text) (rows : ImportRows) :
    readVtxRow rows (units "vtxtable" :: units "powerlabels" :: words) =
      .ok { rows with powerLabels := some words } := by
  have hkind : rowKind (units "vtxtable" :: units "powerlabels" :: words) = units "powerlabels" := by
    have hlower : toLowerCase (units "powerlabels") = units "powerlabels" := by decide
    exact hlower
  have hne : units "powerlabels" ≠ units "channels" ∧ units "powerlabels" ≠ units "band" ∧
      units "powerlabels" ≠ units "powervalues" := by decide
  rw [readVtxRow, hkind, if_neg hne.1, if_neg hne.2.1, if_neg hne.2.2, if_pos rfl]
  rfl

theorem lineTokens_labelsHead (rest : Text) : lineTokens (labelsHead ++ rest) =
    units "vtxtable" :: units "powerlabels" :: scan .between (stripComment rest) := by
  have hword : Plain (units "vtxtable") := ⟨by decide, by decide⟩
  have hkind : Plain (units "powerlabels") := ⟨by decide, by decide⟩
  have hhash : HASH ∉ labelsHead := by decide
  rw [lineTokens_eq, stripComment_append (uncommented_of_notMem hhash)]
  simp only [labelsHead, List.append_assoc, List.cons_append, List.nil_append]
  rw [scan_plain_cons hword, scan_plain_cons hkind]

theorem labelsLine_reads (hfeed : LINE_FEED ∉ labelsText levels) : ∃ line,
    (labelsText levels = line ∨ labelsText levels = line ++ [CARRIAGE_RETURN]) ∧
      ∀ rows, (pieces (labelsHead ++ labelsText levels)).foldlM readLine rows =
        .ok { rows with powerLabels := some (scan .between (stripComment line)) } := by
  have hhead : LINE_FEED ∉ labelsHead := by decide
  have hread : ∀ line rows, [labelsHead ++ line].foldlM readLine rows =
      .ok { rows with powerLabels := some (scan .between (stripComment line)) } := by
    intro line rows
    rw [foldlM_readLine_cons (lineTokens_labelsHead line) (isVtxRow_cons _ _), readVtxRow_labels]
    rfl
  cases htext : labelsText levels with
  | nil =>
    have hlast : labelsHead.getLast? ≠ some CARRIAGE_RETURN := by decide
    refine ⟨[], .inl rfl, fun rows => ?_⟩
    have hline := hread [] rows
    rw [List.append_nil] at hline
    rw [List.append_nil, pieces_line hhead hlast, hline]
  | cons c text =>
    rw [htext] at hfeed
    have hno : LINE_FEED ∉ labelsHead ++ c :: text := by
      rw [List.mem_append, not_or]
      exact ⟨hhead, hfeed⟩
    obtain ⟨line, hpiece, hcut⟩ := exists_piece labelsHead (List.cons_ne_nil c text) hno
    exact ⟨line, hcut, fun rows => by rw [hpiece, hread]⟩

theorem export_reads (hfits : table.Fits n) (hfeed : LINE_FEED ∉ labelsText levels) : ∃ line,
    (labelsText levels = line ∨ labelsText levels = line ++ [CARRIAGE_RETURN]) ∧
    ((∃ read : List VtxTableBand, read.length = table.bands.length ∧
      (splitLines (joinWith LINE_FEED (exportLines n table levels) ++ [LINE_FEED])).foldlM
        readLine .none = .ok ⟨some (.finite false n), setBands .empty 1 read,
          some (levels.map fun level => readPower level.value),
          some (scan .between (stripComment line))⟩ ∧
      (read.map (fitBand n) = table.bands ↔ ∀ band ∈ table.bands, band.Written)) ∨
    ((∃ e, (splitLines (joinWith LINE_FEED (exportLines n table levels) ++ [LINE_FEED])).foldlM
        readLine .none = .error e) ∧ ¬ ∀ band ∈ table.bands, band.Written)) := by
  obtain ⟨line, hline, hlabels⟩ := labelsLine_reads hfeed
  have hmost := hfits.counts.channels.2
  have hbandsMost := hfits.counts.bands.2
  rw [VTX_TABLE_MAX_CHANNELS] at hmost
  rw [VTX_TABLE_MAX_BANDS] at hbandsMost
  have hcountWords (k : ℕ) : ∀ word ∈ [countText k], Plain word := by
    intro word hword
    rw [List.mem_singleton.mp hword]
    exact plain_countText k
  have hvalueWords : ∀ word ∈ levels.map (fun level => numberToString level.value), Plain word := by
    intro word hword
    obtain ⟨level, -, rfl⟩ := List.mem_map.mp hword
    exact plain_numberToString _
  have hbandsKind : Plain (units "bands") := ⟨by decide, by decide⟩
  have hchannelsKind : Plain (units "channels") := ⟨by decide, by decide⟩
  have hlevelsKind : Plain (units "powerlevels") := ⟨by decide, by decide⟩
  have hvaluesKind : Plain (units "powervalues") := ⟨by decide, by decide⟩
  have hempty : ∀ rows, readLine rows [] = .ok rows := fun rows => rfl
  refine ⟨line, hline, ?_⟩
  rw [exportLines, splitLines_joinWith (List.cons_ne_nil _ _)]
  simp only [List.flatMap_cons, List.flatMap_append, List.flatMap_nil, List.foldlM_append,
    List.append_nil, readLine_plainLine hbandsKind (hcountWords _),
    readLine_plainLine hchannelsKind (hcountWords _), readLine_plainLine hlevelsKind (hcountWords _),
    readLine_plainLine hvaluesKind hvalueWords, readVtxRow_other _ _ (.inl rfl),
    readVtxRow_other _ _ (.inr rfl), readVtxRow_channels (show n < 2 ^ 53 by omega),
    readVtxRow_values, hlabels]
  obtain ⟨read, hlength, hread, hiff⟩ | ⟨herror, hnot⟩ := bandLines_read table.bands 1 hfits.bands
    (Nat.le_refl 1) (by omega)
  · refine .inl ⟨read, hlength, ?_, hiff⟩
    simp only [hread, List.map_map]
    rfl
  · refine .inr ⟨?_, hnot⟩
    obtain ⟨e, he⟩ := herror { ImportRows.none with numChannels := some (.finite false n) }
    refine ⟨e, ?_⟩
    change ((List.foldlM readLine _ _ : Except _ ImportRows).bind _).bind _ = _
    rw [he]
    rfl

end

section
variable {n : ℕ} {table : VtxTable} {levels : List VtxTablePowerLevel}

theorem assemble_export {read : List VtxTableBand} {values : List JsNumber} {labels : List Text}
    (hne : read ≠ []) (hn : n < 2 ^ 32) :
    assemble ⟨some (.finite false n), setBands .empty 1 read, some values, some labels⟩ =
      checkLimits (.finite false n) (read.map (fitBand n)) (powerLevels values labels) := by
  obtain ⟨hsize, hbands⟩ := bandsFrom_setBands hne
  have hnormalized : read.mapM (normalizeBand (.finite false (n : ℚ≥0))) =
      .ok (read.map (fitBand n)) := by
    rw [mapM_eq_ok, List.forall₂_map_right_iff, List.forall₂_same]
    exact fun band _ => normalizeBand_natCast hn band
  have hchannels : resolvedChannels
      ⟨some (.finite false n), setBands .empty 1 read, some values, some labels⟩ read =
        .finite false n := rfl
  rw [assemble, if_neg hsize, hbands]
  simp only [Except.bind, hchannels, hnormalized, Option.getD_some]

theorem export_comes_back_iff (hfits : table.Fits n)
    (hdouble : ∀ level ∈ levels, level.value.IsDouble) :
    (∃ text, serializeBetaflightVtxTable table levels = some text ∧
      parseBetaflightVtxTable text = .ok ⟨table, levels⟩) ↔
    (∀ band ∈ table.bands, band.Written) ∧ PowerLevelsWritten levels := by
  have hmost := hfits.counts.channels.2
  have hlt : n < 2 ^ 32 := by
    rw [VTX_TABLE_MAX_CHANNELS] at hmost
    omega
  have htable : table = ⟨VTX_TABLE_VERSION, .finite false n, table.bands⟩ := by
    rw [← ofInt_channels hmost, ← hfits.numChannels, ← hfits.version]
  have hexists : (∃ text, serializeBetaflightVtxTable table levels = some text ∧
      parseBetaflightVtxTable text = .ok ⟨table, levels⟩) ↔
      parseBetaflightVtxTable (joinWith LINE_FEED (exportLines n table levels) ++ [LINE_FEED]) =
        .ok ⟨table, levels⟩ := by
    rw [serializeBetaflight_eq hfits]
    simp
  rw [hexists]
  by_cases hfeed : LINE_FEED ∈ labelsText levels
  · obtain hspace | ⟨label, hlabel, hmem⟩ := mem_joinWith hfeed
    · exact absurd hspace (by decide)
    obtain ⟨level, hlevel, rfl⟩ := List.mem_map.mp hlabel
    rw [powerLabel] at hmem
    split at hmem
    · exact absurd rfl (mem_plain_ne (plain_numberToString _) hmem).1
    · refine ⟨fun h => absurd hmem (no_feed_label h level hlevel), fun h => ?_⟩
      have hsolid := (h.2.solid level hlevel).2 _ hmem
      exact absurd hsolid (by decide)
  · obtain ⟨line, hline, ⟨read, hlength, hread, hiff⟩ | ⟨⟨e, herror⟩, hnot⟩⟩ :=
      export_reads hfits hfeed
    · have hne : read ≠ [] := by
        have hpos := hfits.counts.bands.1
        exact List.length_pos_iff.mp (by omega)
      rw [parseBetaflightVtxTable, hread]
      change assemble _ = _ ↔ _
      rw [assemble_export hne hlt, checkLimits_eq_ok]
      constructor
      · rintro ⟨-, -, hfew, -, hresult⟩
        rw [BetaflightVtxTableImport.mk.injEq] at hresult
        obtain ⟨hsame, hlevels⟩ := hresult
        rw [htable, VtxTable.mk.injEq] at hsame
        rw [← hlevels] at hfew
        exact ⟨hiff.mp hsame.2.2.symm, written_of_powerLevels hdouble hline hlevels.symm hfew⟩
      · rintro ⟨hbands, hlevels⟩
        have hlineEq := line_eq_of_solid hlevels.solid hline
        rw [hiff.mpr hbands, hlineEq, powerLevels_written hdouble hlevels]
        refine ⟨hfits.counts.bands.2, ?_, hlevels.few, ?_, ?_⟩
        · rw [JsNumber.natCast_lt, decide_eq_false_iff_not, Nat.not_lt]
          exact hmost
        · exact fun band hband => (hfits.bands band hband).name.length
        · rw [← htable]
    · rw [parseBetaflightVtxTable, herror]
      constructor
      · intro heq
        cases heq
      · exact fun h => absurd h.1 hnot

theorem text_round_trips_iff {bytes : Bytes} (h : parseVtxTable bytes = .ok table)
    (hdouble : ∀ level ∈ levels, level.value.IsDouble) :
    (∃ text, serializeBetaflightVtxTable table levels = some text ∧
      parseBetaflightVtxTable text = .ok ⟨table, levels⟩) ↔
    (∀ band ∈ table.bands, band.Written) ∧ PowerLevelsWritten levels := by
  obtain ⟨n, raws, rest, hfits, -⟩ := parseVtxTable_ok h
  exact export_comes_back_iff hfits hdouble

end

/-! ## Two tables -/

def racingBand : VtxTableBand := ⟨units "RACE 1", units "R", true, [5658, 0]⟩

def racingTable : VtxTable := ⟨2, .ofInt 2, [racingBand]⟩

theorem racingTable_fits : racingTable.Fits 2 := by
  refine ⟨rfl, rfl, ⟨⟨by decide, by decide⟩, by decide, by decide⟩, ?_⟩
  intro band hband
  rw [List.mem_singleton.mp hband]
  refine ⟨⟨by decide, by decide, by decide⟩, .inr ⟨0x52, rfl, by decide, by decide⟩, rfl, ?_⟩
  intro f hf
  simp only [racingBand, List.mem_cons, List.not_mem_nil, or_false] at hf
  omega

def halfWatt : VtxTablePowerLevel := ⟨.ofInt 500, units "500"⟩

theorem racing_comes_back : ∃ text, serializeBetaflightVtxTable racingTable [halfWatt] = some text ∧
    parseBetaflightVtxTable text = .ok ⟨racingTable, [halfWatt]⟩ := by
  have hsmall : 500 < 2 ^ 53 := by omega
  have hvalue : halfWatt.value = .finite false (500 : ℕ) := JsNumber.ofInt_natCast hsmall
  have hdouble : ∀ level ∈ [halfWatt], level.value.IsDouble := by
    intro level hlevel
    rw [List.mem_singleton.mp hlevel, hvalue]
    exact JsNumber.holds_natCast hsmall
  have hlabel : Solid halfWatt.label := ⟨by decide, by decide⟩
  refine (text_round_trips_iff racingTable_fits.parse hdouble).mpr ⟨fun band hband => ?_, ?_⟩
  · rw [List.mem_singleton.mp hband]
    exact ⟨by decide, by decide, uncommented_of_notMem (by decide), fun _ => by decide,
      fun hnone => absurd hnone (by decide), 0x52, rfl, by decide, by decide⟩
  · refine ⟨by decide, ?_, ?_, ?_, ?_, ⟨fun hhead => absurd hhead (by decide), trivial⟩⟩
    · intro level hlevel
      rw [List.mem_singleton.mp hlevel]
      decide +kernel
    · intro level hlevel
      rw [List.mem_singleton.mp hlevel]
      exact hlabel
    · intro level hlevel
      rw [List.mem_singleton.mp hlevel]
      decide
    · intro level hlevel
      rw [List.mem_singleton.mp hlevel]
      decide

def namelessTable : VtxTable := ⟨2, .ofInt 1, [⟨[], units "A", false, [5865]⟩]⟩

theorem namelessTable_fits : namelessTable.Fits 1 := by
  refine ⟨rfl, rfl, ⟨⟨by decide, by decide⟩, by decide, by decide⟩, ?_⟩
  intro band hband
  rw [List.mem_singleton.mp hband]
  refine ⟨⟨by decide, by decide, by decide⟩, .inr ⟨0x41, rfl, by decide, by decide⟩, rfl, ?_⟩
  intro f hf
  rw [List.mem_singleton.mp hf]
  omega

theorem nameless_band_refused : ¬ ∀ (bytes : Bytes) (table : VtxTable),
    parseVtxTable bytes = .ok table → ∃ text, serializeBetaflightVtxTable table [] = some text ∧
      parseBetaflightVtxTable text = .ok ⟨table, []⟩ := by
  intro hall
  have hrefused : (serializeBetaflightVtxTable namelessTable []).map parseBetaflightVtxTable =
      some (.error (.flagMissing 1)) := by decide +kernel
  obtain ⟨text, htext, hparse⟩ := hall _ _ namelessTable_fits.parse
  rw [htext, Option.map_some, hparse] at hrefused
  cases hrefused

end ArduConfigurator.Tables
