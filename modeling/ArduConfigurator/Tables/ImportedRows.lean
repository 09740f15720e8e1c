import ArduConfigurator.Tables.BetaflightText

/-! # What the rows of a text give

A later row takes the place of an earlier one of its kind, and of its index. The table is made of the
rows that are left. -/
namespace ArduConfigurator.Tables
set_option autoImplicit false

/-! ## The last rows -/

def vtxRows (lines : List Text) : List (List Text) := (lines.map lineTokens).filter isVtxRow

def channelsOf (tokens : List Text) : Option JsNumber :=
  if rowKind tokens = units "channels" then some (cliNumber tokens[2]?) else none

def bandOf (index : ℕ) (tokens : List Text) : Option VtxTableBand :=
  if rowKind tokens = units "band" ∧ bandIndex tokens = some index then some (rowBand tokens)
  else none

def labelsOf (tokens : List Text) : Option (List Text) :=
  if rowKind tokens = units "powerlabels" then some (tokens.drop 2) else none

def lastChannels (rows : List (List Text)) : Option JsNumber := rows.reverse.findSome? channelsOf

def lastBand (rows : List (List Text)) (index : ℕ) : Option VtxTableBand :=
  rows.reverse.findSome? (bandOf index)

def lastLabels (rows : List (List Text)) : Option (List Text) := rows.reverse.findSome? labelsOf

theorem findSome_reverse_cons {α β : Type} (f : α → Option β) (a : α) (l : List α) :
    (a :: l).reverse.findSome? f = (l.reverse.findSome? f).or (f a) := by
  rw [List.reverse_cons, List.findSome?_append, List.findSome?_singleton]

structure Reads (lines : List Text) (rows rows' : ImportRows) : Prop where
  channels : rows'.numChannels = (lastChannels (vtxRows lines)).or rows.numChannels
  bands : ∀ index, rows'.bandByIndex.get index =
    (lastBand (vtxRows lines) index).or (rows.bandByIndex.get index)
  labels : rows'.powerLabels = (lastLabels (vtxRows lines)).or rows.powerLabels

variable {rows rows' : ImportRows} {tokens : List Text}

theorem readVtxRow_reads (h : readVtxRow rows tokens = .ok rows') :
    rows'.numChannels = (channelsOf tokens).or rows.numChannels ∧
      (∀ index, rows'.bandByIndex.get index =
        (bandOf index tokens).or (rows.bandByIndex.get index)) ∧
      rows'.powerLabels = (labelsOf tokens).or rows.powerLabels := by
  have hbandNe : units "channels" ≠ units "band" := by decide
  have hlabelsNe : units "channels" ≠ units "powerlabels" := by decide
  have hlabelsNe' : units "band" ≠ units "powerlabels" := by decide
  have hlabelsNe'' : units "powervalues" ≠ units "powerlabels" := by decide
  have hnoChannels (hkind : rowKind tokens ≠ units "channels") : channelsOf tokens = none :=
    if_neg hkind
  have hnoBand (hkind : rowKind tokens ≠ units "band") (i : ℕ) : bandOf i tokens = none :=
    if_neg fun h => hkind h.1
  have hnoLabels (hkind : rowKind tokens ≠ units "powerlabels") : labelsOf tokens = none :=
    if_neg hkind
  rw [readVtxRow] at h
  split at h
  · next hkind =>
    cases h
    rw [hnoLabels (by rw [hkind]; exact hlabelsNe), channelsOf, if_pos hkind]
    exact ⟨rfl, fun i => by rw [hnoBand (by rw [hkind]; exact hbandNe)]; rfl, rfl⟩
  next hchannels =>
  rw [hnoChannels hchannels]
  split at h
  · next hkind =>
    rw [hnoLabels (by rw [hkind]; exact hlabelsNe')]
    split at h
    · cases h
    next index hindex =>
    split at h
    · cases h
    cases h
    refine ⟨rfl, fun i => ?_, rfl⟩
    rw [JsMap.get_set, bandOf, hindex]
    by_cases hi : i = index
    · simp [hkind, hi]
    · simp [hi, Ne.symm hi]
  next hband =>
  simp only [hnoBand hband]
  split at h
  · next hkind =>
    cases h
    rw [hnoLabels (by rw [hkind]; exact hlabelsNe'')]
    exact ⟨rfl, fun _ => rfl, rfl⟩
  split at h
  · next hlabels =>
    cases h
    rw [labelsOf, if_pos hlabels]
    exact ⟨rfl, fun _ => rfl, rfl⟩
  · next hlabels =>
    cases h
    rw [hnoLabels hlabels]
    exact ⟨rfl, fun _ => rfl, rfl⟩

theorem foldlM_reads {lines : List Text} (h : lines.foldlM readLine rows = .ok rows') :
    Reads lines rows rows' := by
  induction lines generalizing rows with
  | nil =>
    cases h
    exact ⟨rfl, fun _ => rfl, rfl⟩
  | cons line lines ih =>
    rw [List.foldlM_cons] at h
    cases hline : readLine rows line with
    | error e =>
      rw [hline] at h
      cases h
    | ok rows₁ =>
      rw [hline] at h
      obtain ⟨hchannels, hbands, hlabels⟩ := ih h
      rw [readLine] at hline
      split at hline
      · next hrow =>
        obtain ⟨hchannels₁, hbands₁, hlabels₁⟩ := readVtxRow_reads hline
        have hrows : vtxRows (line :: lines) = lineTokens line :: vtxRows lines :=
          List.filter_cons_of_pos hrow
        rw [hchannels₁] at hchannels
        rw [hlabels₁] at hlabels
        refine ⟨?_, fun index => ?_, ?_⟩
        · rw [hrows, lastChannels, findSome_reverse_cons, Option.or_assoc]
          exact hchannels
        · rw [hrows, lastBand, findSome_reverse_cons, Option.or_assoc, ← hbands₁ index]
          exact hbands index
        · rw [hrows, lastLabels, findSome_reverse_cons, Option.or_assoc]
          exact hlabels
      · next hrow =>
        cases hline
        have hrows : vtxRows (line :: lines) = vtxRows lines := List.filter_cons_of_neg hrow
        rw [← hrows] at hchannels hbands hlabels
        exact ⟨hchannels, hbands, hlabels⟩

variable {index : ℕ} {band : VtxTableBand}

theorem bandOf_pos (h : bandOf index tokens = some band) : 1 ≤ index := by
  rw [bandOf] at h
  split at h
  · next hband =>
    obtain ⟨i, -, hi⟩ := Option.bind_eq_some_iff.mp hband.2
    split at hi
    · next hpos =>
      rw [Option.some.injEq] at hi
      omega
    · cases hi
  · cases h

theorem lastBand_pos {rows : List (List Text)} (h : lastBand rows index = some band) :
    1 ≤ index := by
  obtain ⟨tokens, -, htokens⟩ := List.exists_of_findSome?_eq_some h
  exact bandOf_pos htokens

/-! ## The bands in order -/

section
variable {bandByIndex : JsMap ℕ VtxTableBand} {bands : List VtxTableBand}

theorem bandsFrom_eq_ok {index left : ℕ} :
    bandsFrom bandByIndex index left = .ok bands ↔
      bands.length = left ∧ ∀ i < left, bandByIndex.get (index + i) = bands[i]? := by
  induction left generalizing index bands with
  | zero =>
    rw [bandsFrom, Except.ok.injEq, eq_comm, List.length_eq_zero_iff]
    simp
  | succ left ih =>
    rw [bandsFrom]
    constructor
    · intro h
      split at h
      · cases h
      next band hband =>
      cases hrest : bandsFrom bandByIndex (index + 1) left with
      | error e =>
        rw [hrest] at h
        cases h
      | ok rest =>
        rw [hrest] at h
        cases h
        obtain ⟨hlength, hget⟩ := ih.mp hrest
        refine ⟨by rw [List.length_cons, hlength], fun i hi => ?_⟩
        cases i with
        | zero => exact hband
        | succ i =>
          rw [List.getElem?_cons_succ, ← hget i (by omega)]
          congr 1
          omega
    · rintro ⟨hlength, hget⟩
      obtain ⟨band, rest, rfl⟩ := List.exists_cons_of_length_eq_add_one hlength
      have hband := hget 0 (by omega)
      rw [List.getElem?_cons_zero, Nat.add_zero] at hband
      have hrest : bandsFrom bandByIndex (index + 1) left = .ok rest := by
        refine ih.mpr ⟨by rw [List.length_cons] at hlength; omega, fun i hi => ?_⟩
        have hnext := hget (i + 1) (by omega)
        rw [List.getElem?_cons_succ] at hnext
        rw [← hnext]
        congr 1
        omega
      rw [hband, hrest]
      rfl

variable {l : List ℕ}

theorem le_foldr_max {k : ℕ} (h : k ∈ l) : k ≤ l.foldr max 0 := by
  induction l with
  | nil => cases h
  | cons j l ih =>
    rw [List.foldr_cons]
    obtain rfl | h := List.mem_cons.mp h
    · exact Nat.le_max_left _ _
    · exact (ih h).trans (Nat.le_max_right _ _)

theorem foldr_max_le {n : ℕ} (h : ∀ k ∈ l, k ≤ n) : l.foldr max 0 ≤ n := by
  induction l with
  | nil => exact Nat.zero_le n
  | cons j l ih =>
    obtain ⟨hj, hl⟩ := List.forall_mem_cons.mp h
    exact Nat.max_le.mpr ⟨hj, ih hl⟩

theorem mem_bands_iff (hpos : ∀ index band, bandByIndex.get index = some band → 1 ≤ index)
    (h : bandsFrom bandByIndex 1 (bandByIndex.keys.foldr max 0) = .ok bands) (band : VtxTableBand) :
    band ∈ bands ↔ ∃ index, bandByIndex.get index = some band := by
  obtain ⟨hlength, hget⟩ := bandsFrom_eq_ok.mp h
  constructor
  · intro hmem
    obtain ⟨i, hi, rfl⟩ := List.mem_iff_getElem.mp hmem
    exact ⟨1 + i, by rw [hget i (by omega), List.getElem?_eq_getElem hi]⟩
  · rintro ⟨index, hindex⟩
    have hleast := hpos index band hindex
    have hmost : index ≤ bandByIndex.keys.foldr max 0 :=
      le_foldr_max (JsMap.mem_keys_iff.mpr (by rw [hindex]; rfl))
    have hband := hget (index - 1) (by omega)
    rw [Nat.add_sub_cancel' hleast, hindex] at hband
    exact List.mem_of_getElem? hband.symm

end

/-! ## The frequencies of a band -/

section
variable {band' : VtxTableBand} {bands bands' : List VtxTableBand} {x : JsNumber} {n : ℕ}

theorem arrayLength_natCast (h : n < 2 ^ 32) : arrayLength (.finite false (n : ℚ≥0)) = some n := by
  have hlt : ¬((2 ^ 32 : ℕ) : ℚ≥0) ≤ n := by
    rw [not_le]
    exact Nat.cast_lt.mpr h
  have hwhole : ¬((false = true ∧ (n : ℚ≥0) ≠ 0) ∨ (n : ℚ≥0).den ≠ 1 ∨
      ((2 ^ 32 : ℕ) : ℚ≥0) ≤ n) := by
    rintro (hneg | hden | hle)
    · exact Bool.false_ne_true hneg.1
    · exact hden (NNRat.den_natCast n)
    · exact hlt hle
  rw [arrayLength, if_neg hwhole, Nat.floor_natCast]

def fitChannels (n : ℕ) (frequencies : List ℕ) : List ℕ :=
  frequencies.take n ++ List.replicate (n - frequencies.length) 0

theorem fitChannels_length (frequencies : List ℕ) : (fitChannels n frequencies).length = n := by
  rw [fitChannels, List.length_append, List.length_take, List.length_replicate]
  omega

theorem fitChannels_of_length {frequencies : List ℕ} (h : frequencies.length = n) :
    fitChannels n frequencies = frequencies := by
  rw [fitChannels, h, Nat.sub_self, List.replicate_zero, List.append_nil,
    List.take_of_length_le h.le]

theorem normalizeBand_natCast (hn : n < 2 ^ 32) (band : VtxTableBand) :
    normalizeBand (.finite false (n : ℚ≥0)) band =
      .ok { band with frequencies := fitChannels n band.frequencies } := by
  simp only [normalizeBand, JsNumber.natCast_lt, decide_eq_true_eq]
  split
  · next hshort =>
    rw [JsNumber.natCast_sub hshort.le (by omega), arrayLength_natCast (by omega)]
    rw [fitChannels, List.take_of_length_le hshort.le]
  · split
    · next hlong =>
      have hmissing : n - band.frequencies.length = 0 := by omega
      rw [fitChannels, sliceTo, Nat.floor_natCast, hmissing, List.replicate_zero, List.append_nil]
    · rw [fitChannels_of_length (by omega)]

theorem mapM_eq_ok {α β ε : Type} {f : α → Except ε β} {as : List α} {bs : List β} :
    as.mapM f = .ok bs ↔ List.Forall₂ (fun a b => f a = .ok b) as bs := by
  induction as generalizing bs with
  | nil =>
    rw [List.mapM_nil, List.forall₂_nil_left_iff]
    constructor
    · intro h
      exact (Except.ok.inj h).symm
    · rintro rfl
      rfl
  | cons a as ih =>
    rw [List.mapM_cons, List.forall₂_cons_left_iff]
    constructor
    · intro h
      cases ha : f a with
      | error e =>
        rw [ha] at h
        cases h
      | ok b =>
        rw [ha] at h
        cases has : as.mapM f with
        | error e =>
          rw [has] at h
          cases h
        | ok bs' =>
          rw [has] at h
          cases h
          exact ⟨b, bs', rfl, ih.mp has, rfl⟩
    · rintro ⟨b, bs', ha, has, rfl⟩
      rw [ha, ih.mpr has]
      rfl

end

end ArduConfigurator.Tables
