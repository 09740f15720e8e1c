import ArduConfigurator.Parameters.TextFormat

/-! # Text backups written and read again

A backup of the live parameters, written as a text, read and imported against the same parameters,
says nothing new exactly when it has entries, its ids are names, its header says nothing, and seven
significant digits are enough for its values. -/
namespace ArduConfigurator.Parameters
open DecimalText
set_option autoImplicit false

inductive TextFormat
  | parm
  | params

namespace TextFormat

def header : TextFormat → ParameterBackupFile → List Text
  | .parm, backup => buildBackupHeaderComments backup
  | .params, backup => paramsHeader backup

def line : TextFormat → ParameterBackupFile → ParameterBackupEntry → Text
  | .parm, _ => parmLine
  | .params, backup => paramsLine (backupSystemId backup) (backupComponentId backup)

def serialize : TextFormat → ParameterBackupFile → Text
  | .parm, backup => serializeParameterBackupAsParm backup
  | .params, backup => serializeParameterBackupAsParams backup

theorem serialize_eq (format : TextFormat) (backup : ParameterBackupFile) :
    format.serialize backup =
      joinLines (format.header backup ++ backup.parameters.map (format.line backup)) := by
  cases format <;> rfl

end TextFormat

/-- A number that its seven significant digits are read as, unless it is an integer. -/
def SevenDigits : JsNumber → Prop
  | .finite negative q => q.den = 1 ∨ nearestDouble negative (toDigits 7 q) = .finite negative q
  | _ => False

structure TextSafe (format : TextFormat) (backup : ParameterBackupFile) : Prop where
  header : textEntries (joinLines (format.header backup)) = []
  nonempty : backup.parameters ≠ []
  ids : ∀ e ∈ backup.parameters, isParameterId e.id = true
  values : ∀ e ∈ backup.parameters, SevenDigits e.value

/-- The entries read are those of the backup, and nothing is staged, unknown or new. -/
structure ReadsBack (localeCompare : Text → Text → ℤ) (parameters : List ParameterState)
    (backup imported : ParameterBackupFile) : Prop where
  all : ∀ e ∈ backup.parameters, ∃ e' ∈ imported.parameters,
    e'.id = e.id ∧ equal e'.value e.value = true
  only : ∀ e' ∈ imported.parameters, ∃ e ∈ backup.parameters,
    e.id = e'.id ∧ equal e'.value e.value = true
  drafts : (deriveDraftValuesFromParameterBackup localeCompare parameters imported
    []).draftValues.entries = []
  unknown : (deriveDraftValuesFromParameterBackup localeCompare parameters imported
    []).unknownParameterIds = []
  new : (deriveDraftValuesFromParameterBackup localeCompare parameters imported
    []).newParameterIds = []

/-! ## Values -/

variable {q : ℚ≥0} {negative : Bool}

theorem signed_inj {r : ℚ≥0} (h : JsNumber.signed negative q = JsNumber.signed negative r) :
    q = r := by
  cases negative with
  | false => exact NNRat.coe_injective h
  | true => exact NNRat.coe_injective (neg_injective h)

theorem equal_finite {n m : Bool} {r : ℚ≥0} :
    equal (.finite n q) (.finite m r) = true ↔ JsNumber.signed n q = JsNumber.signed m r := by
  simp only [equal, JsNumber.le, Bool.and_eq_true, decide_eq_true_eq]
  exact le_antisymm_iff.symm

theorem equal_nearestDouble {r : ℚ≥0} :
    equal (nearestDouble negative r) (.finite negative q) = true ↔
      nearestDouble negative r = .finite negative q := by
  rw [nearestDouble_eq]
  split_ifs
  · rw [equal_finite, JsNumber.finite.injEq]
    exact ⟨fun h => ⟨rfl, signed_inj h⟩, fun h => by rw [h.2]⟩
  · cases negative <;> simp [equal, JsNumber.le]

theorem equal_readBack_iff {value : JsNumber} (hfinite : isFinite value = true)
    (hsingle : binary32.Holds value) : equal (readBack value) value = true ↔ SevenDigits value := by
  cases value with
  | nan => cases hfinite
  | infinite negative => cases hfinite
  | finite negative q =>
    by_cases hint : q.den = 1
    · rw [readBack_integer hsingle hint, equal_finite]
      refine ⟨fun _ => .inl hint, fun _ => ?_⟩
      by_cases hzero : q = 0
      · subst hzero
        cases negative <;> simp [JsNumber.signed]
      · simp [hzero]
    · rw [readBack_fraction hint, equal_nearestDouble]
      exact ⟨.inr, fun h => h.resolve_left hint⟩

variable {x y : JsNumber}

theorem isFinite_of_equal (hy : isFinite y = true) (h : equal x y = true) :
    isFinite x = true := by
  cases y with
  | nan => cases hy
  | infinite negative => cases hy
  | finite m r =>
    cases x with
    | nan => simp [equal, JsNumber.le] at h
    | infinite negative => cases negative <;> simp [equal, JsNumber.le] at h
    | finite n q => rfl

theorem parameterValuesMatch_of_equal (hy : isFinite y = true) (h : equal x y = true) :
    parameterValuesMatch y x = true := by
  have hx := isFinite_of_equal hy h
  cases y with
  | nan => cases hy
  | infinite negative => cases hy
  | finite m r =>
    cases x with
    | nan => cases hx
    | infinite negative => cases hx
    | finite n q =>
      have hsame := equal_finite.mp h
      have hzero : absDifference (.finite m r) (.finite n q) = .finite false 0 := by
        rw [absDifference, hsame, sub_self]
        decide +kernel
      rw [parameterValuesMatch, hzero, decide_eq_true_eq]
      exact .inr (by decide +kernel)

/-! ## Lines and texts -/

variable {c : UInt16}

theorem joinLines_head {first : Text} {lines : List Text} :
    ∃ rest, joinLines ((c :: first) :: lines) = c :: rest := by
  cases lines with
  | nil => exact ⟨first ++ [LINE_FEED], by simp [joinLines, List.intercalate]⟩
  | cons next lines => exact ⟨_, by simp [joinLines, List.intercalate, List.intersperse]; rfl⟩

theorem serialize_head (format : TextFormat) (backup : ParameterBackupFile) :
    ∃ rest, format.serialize backup = HASH :: rest := by
  obtain ⟨first, lines, hheader⟩ :
      ∃ first lines, format.header backup = (HASH :: first) :: lines := by
    cases format with
    | parm => exact ⟨_, _, rfl⟩
    | params => exact ⟨_, _, rfl⟩
  rw [TextFormat.serialize_eq, hheader]
  exact joinLines_head

theorem parse_serialize (localeCompare : Text → Text → ℤ)
    (parseJson : Text → Except Text ParameterBackupFile) (format : TextFormat)
    (backup : ParameterBackupFile) (now : Text) :
    parseParameterBackup localeCompare parseJson (format.serialize backup) now =
      parseTextParameterBackup localeCompare (format.serialize backup) now := by
  obtain ⟨rest, hrest⟩ := serialize_head format backup
  have hhash : isWhiteSpace HASH = false := by decide
  rw [parseParameterBackup, hrest, List.dropWhile_cons_of_neg (by simp [hhash]), if_neg]
  rintro (h | h) <;> revert h <;> simp [units, HASH, List.isPrefixOf]

def IsLineUnit (c : UInt16) : Prop := IsWordUnit c ∨ c = COMMA ∨ c = TAB

theorem IsLineUnit.ne (h : IsLineUnit c) :
    (c ≠ LINE_FEED ∧ c ≠ CARRIAGE_RETURN) ∧ c ≠ HASH := by
  rcases h with ⟨hsep, hhash⟩ | rfl | rfl
  · refine ⟨⟨?_, ?_⟩, hhash⟩
    · rintro rfl
      exact absurd hsep (by decide)
    · rintro rfl
      exact absurd hsep (by decide)
  · decide
  · decide

variable {entry : ParameterBackupEntry}

theorem units_line (format : TextFormat) (backup : ParameterBackupFile)
    (hid : isParameterId entry.id = true) (hvalue : isFinite entry.value = true) :
    ∀ c ∈ format.line backup entry, IsLineUnit c := by
  have hword {t : Text} (h : IsWord t) : ∀ c ∈ t, IsLineUnit c := fun c hc => .inl (h.2 c hc)
  have hid := hword (isWord_parameterId hid)
  have hvalue := hword (isWord_formatBackupValue hvalue)
  have hdigits (n : ℕ) := hword (isWord_natDigits n)
  have hcomma : IsLineUnit COMMA := .inr (.inl rfl)
  have htab : IsLineUnit TAB := .inr (.inr rfl)
  have hnine : IsLineUnit 0x39 := .inl (isWordUnit_digit (by decide))
  cases format with
  | parm =>
    have hline : TextFormat.parm.line backup entry =
        entry.id ++ COMMA :: formatBackupValue entry.value := by
      simp [TextFormat.line, parmLine, units, COMMA]
    rw [hline, List.forall_mem_append, List.forall_mem_cons]
    exact ⟨hid, hcomma, hvalue⟩
  | params =>
    have hunits : units "9" = [0x39] := rfl
    rw [TextFormat.line, paramsLine_eq, hunits]
    simp only [List.forall_mem_append, List.forall_mem_cons, List.not_mem_nil, IsEmpty.forall_iff,
      implies_true, and_true]
    exact ⟨hdigits _, htab, hdigits _, htab, hid, htab, hvalue, htab, hnine⟩

theorem textEntries_entry (format : TextFormat) (backup : ParameterBackupFile)
    (hid : isParameterId entry.id = true) (hvalue : isFinite entry.value = true) :
    textEntries (format.line backup entry ++ [LINE_FEED]) =
      if isFinite (readBack entry.value) then [(entry.id, readBack entry.value)] else [] := by
  have hunits := units_line format backup hid hvalue
  rw [textEntries_line fun c hc => (hunits c hc).ne.1]
  have hhash : ∀ c ∈ format.line backup entry, c ≠ HASH := fun c hc => (hunits c hc).ne.2
  have hline : lineEntry (format.line backup entry) =
      if isFinite (readBack entry.value) then some (entry.id, readBack entry.value) else none := by
    cases format with
    | parm =>
      exact lineEntry_of_tokens [] [] hhash (tokensOf_parmLine hid hvalue) (by simp) hid
    | params =>
      refine lineEntry_of_tokens [natDigits (backupSystemId backup),
        natDigits (backupComponentId backup)] [units "9"] hhash
        (tokensOf_paramsLine _ _ hid hvalue) ?_ hid
      simp [not_parameterId_natDigits]
  rw [hline]
  split_ifs <;> rfl

theorem textEntries_serialize (format : TextFormat) (backup : ParameterBackupFile) :
    textEntries (format.serialize backup) =
      textEntries (joinLines (format.header backup)) ++
        backup.parameters.flatMap fun e => textEntries (format.line backup e ++ [LINE_FEED]) := by
  rw [TextFormat.serialize_eq, textEntries_joinLines, textEntries_joinLines, List.flatMap_append,
    List.flatMap_map]


/-! ## Import -/

theorem sortIds_eq_nil {localeCompare : Text → Text → ℤ} {ids : List Text} :
    sortIds localeCompare ids = [] ↔ ids = [] := by
  rw [← List.length_eq_zero_iff, sortIds, List.length_insertionSort, List.length_eq_zero_iff]

def Quiet (parameters : List ParameterState) (entry : ParameterBackupEntry) : Prop :=
  startsExcluded entry.id = true ∨ isInternalUseOnlyParameter entry.id = true ∨
    ∃ p, parameterById parameters entry.id = some p ∧
      parameterValuesMatch p.value entry.value = true

def Unchanged (r : ParameterBackupImportResult) : Prop :=
  r.draftValues.entries = [] ∧ r.unknownParameterIds = []

variable {parameters : List ParameterState} {r : ParameterBackupImportResult}

theorem unchanged_importEntry (hquiet : Quiet parameters entry) (h : Unchanged r) :
    Unchanged (importEntry parameters [] r entry) := by
  have hnone : inCategories [] entry.id = false := by
    rw [inCategories]
    split <;> rfl
  rw [importEntry, hnone]
  rcases hquiet with hstart | hinternal | ⟨p, hp, hmatch⟩
  · rw [if_pos (by simpa [isSnapshotExcludedBackupEntry] using hstart)]
    exact h
  · split_ifs
    · exact h
    · exact h
  · simp only [hp, hmatch, if_true, if_neg Bool.false_ne_true]
    split_ifs
    · exact h
    · exact h
    · exact h

theorem unchanged_import {entries : List ParameterBackupEntry}
    (hquiet : ∀ e ∈ entries, Quiet parameters e) (h : Unchanged r) :
    Unchanged (entries.foldl (importEntry parameters []) r) := by
  induction entries generalizing r with
  | nil => exact h
  | cons entry entries ih =>
    obtain ⟨hentry, hentries⟩ := List.forall_mem_cons.mp hquiet
    exact ih hentries (unchanged_importEntry hentry h)

theorem parameterById_eq (hdistinct : (parameters.map ParameterState.id).Nodup) {p : ParameterState}
    (hp : p ∈ parameters) : parameterById parameters p.id = some p := by
  rw [parameterById]
  cases hfind : parameters.reverse.find? fun p' => p'.id = p.id with
  | none =>
    have := List.find?_eq_none.mp hfind p (List.mem_reverse.mpr hp)
    simp at this
  | some p' =>
    have hid : p'.id = p.id := by simpa using List.find?_some hfind
    have hmem : p' ∈ parameters := List.mem_reverse.mp (List.mem_of_find?_eq_some hfind)
    rw [List.inj_on_of_nodup_map hdistinct hmem hp hid]

/-! ## Export -/

section
variable {localeCompare : Text → Text → ℤ} {snapshot : ConfiguratorSnapshot}
  {appInfo : ParameterBackupAppInfo} {now : Text}

def exported (localeCompare : Text → Text → ℤ) (snapshot : ConfiguratorSnapshot)
    (appInfo : ParameterBackupAppInfo) (now : Text) : ParameterBackupFile :=
  createParameterBackup localeCompare snapshot appInfo .none now

theorem exported_perm : (exported localeCompare snapshot appInfo now).parameters.Perm
    ((snapshot.table.parameters.filter fun p => !isSnapshotExcludedParameterState p).map
      ParameterState.entry) := by
  refine (List.perm_insertionSort _ _).trans (List.Perm.of_eq ?_)
  have hall : ∀ p : ParameterState, inCategories [] p.id = false := by
    intro p
    rw [inCategories]
    split <;> rfl
  simp [ParameterBackupExportOptions.none, hall]

variable {e : ParameterBackupEntry}

theorem mem_exported :
    e ∈ (exported localeCompare snapshot appInfo now).parameters ↔
      ∃ p ∈ snapshot.table.parameters, isSnapshotExcludedParameterState p = false ∧
        p.entry = e := by
  rw [exported_perm.mem_iff, List.mem_map]
  simp only [List.mem_filter, Bool.not_eq_true', and_assoc]

theorem nodup_exported :
    ((exported localeCompare snapshot appInfo now).parameters.map (·.id)).Nodup := by
  rw [(exported_perm.map _).nodup_iff, List.map_map]
  exact snapshot.table.distinct.sublist (List.filter_sublist.map _)

theorem single_of_mem_exported (he : e ∈ (exported localeCompare snapshot appInfo now).parameters) :
    isFinite e.value = true ∧ binary32.Holds e.value := by
  obtain ⟨p, hp, -, rfl⟩ := mem_exported.mp he
  exact snapshot.table.single p hp

/-! ## The round trip -/

variable {parseJson : Text → Except Text ParameterBackupFile} {format : TextFormat} {later : Text}

/-- The text of a backup, read and imported against the parameters it was made of. -/
def RoundTrips (localeCompare : Text → Text → ℤ)
    (parseJson : Text → Except Text ParameterBackupFile) (snapshot : ConfiguratorSnapshot)
    (backup : ParameterBackupFile) (format : TextFormat) (later : Text) : Prop :=
  ∃ imported, parseParameterBackup localeCompare parseJson (format.serialize backup) later =
      .ok imported ∧
    ReadsBack localeCompare snapshot.table.parameters backup imported

theorem roundTrips_of_textSafe (h : TextSafe format (exported localeCompare snapshot appInfo now)) :
    RoundTrips localeCompare parseJson snapshot (exported localeCompare snapshot appInfo now)
      format later := by
  set backup := exported localeCompare snapshot appInfo now with hbackup
  have hequal : ∀ e ∈ backup.parameters, equal (readBack e.value) e.value = true := by
    intro e he
    obtain ⟨hfinite, hsingle⟩ := single_of_mem_exported he
    exact (equal_readBack_iff hfinite hsingle).mpr (h.values e he)
  have hentries : textEntries (format.serialize backup) =
      backup.parameters.map fun e => (e.id, readBack e.value) := by
    rw [textEntries_serialize, h.header, List.nil_append, List.map_eq_flatMap]
    refine List.flatMap_congr fun e he => ?_
    obtain ⟨hfinite, -⟩ := single_of_mem_exported he
    rw [textEntries_entry format backup (h.ids e he) hfinite,
      if_pos (isFinite_of_equal hfinite (hequal e he))]
  have hids : ((textEntries (format.serialize backup)).map Prod.fst) =
      backup.parameters.map (·.id) := by
    rw [hentries, List.map_map]
    rfl
  obtain ⟨imported, hparse⟩ := parseText_isOk localeCompare later
    (by rw [hids]; exact nodup_exported) (by rw [hentries]; simpa using h.nonempty)
  have hmem : ∀ e', e' ∈ imported.parameters ↔
      ∃ e ∈ backup.parameters, textEntry e.id (readBack e.value) = e' := by
    intro e'
    rw [(parseText_eq_ok hparse).2.2.mem_iff, hentries, List.map_map, List.mem_map]
    rfl
  refine ⟨imported, by rw [parse_serialize, hparse], ?_⟩
  have hunchanged : Unchanged (imported.parameters.foldl
      (importEntry snapshot.table.parameters []) .empty) := by
    refine unchanged_import (fun e' he' => ?_) ⟨rfl, rfl⟩
    obtain ⟨e, he, rfl⟩ := (hmem e').mp he'
    obtain ⟨p, hp, -, rfl⟩ := mem_exported.mp he
    exact .inr (.inr ⟨p, parameterById_eq snapshot.table.distinct hp,
      parameterValuesMatch_of_equal (snapshot.table.single p hp).1 (hequal _ he)⟩)
  refine ⟨fun e he => ⟨_, (hmem _).mpr ⟨e, he, rfl⟩, rfl, hequal e he⟩, fun e' he' => ?_,
    hunchanged.1, sortIds_eq_nil.mpr hunchanged.2, sortIds_eq_nil.mpr ?_⟩
  · obtain ⟨e, he, rfl⟩ := (hmem e').mp he'
    exact ⟨e, he, rfl, hequal e he⟩
  · rw [newParameters, List.map_eq_nil_iff, List.filter_eq_nil_iff]
    intro p hp hnew
    simp only [Bool.and_eq_true, Bool.not_eq_true', Bool.or_eq_false_iff] at hnew
    obtain ⟨hnotmem, hexcluded, -⟩ := hnew
    have hexported : p.entry ∈ backup.parameters := mem_exported.mpr ⟨p, hp, hexcluded, rfl⟩
    have hin : p.id ∈ imported.parameters.map (·.id) :=
      List.mem_map.mpr ⟨_, (hmem _).mpr ⟨p.entry, hexported, rfl⟩, rfl⟩
    rw [List.contains_eq_mem, decide_eq_false_iff_not] at hnotmem
    exact hnotmem hin

theorem textSafe_of_roundTrips
    (h : RoundTrips localeCompare parseJson snapshot (exported localeCompare snapshot appInfo now)
      format later) : TextSafe format (exported localeCompare snapshot appInfo now) := by
  set backup := exported localeCompare snapshot appInfo now with hbackup
  obtain ⟨imported, hparse, hreads⟩ := h
  rw [parse_serialize] at hparse
  obtain ⟨hnodup, hne, hperm⟩ := parseText_eq_ok hparse
  have hmem : ∀ e' ∈ imported.parameters, ∃ entry ∈ textEntries (format.serialize backup),
      textEntry entry.1 entry.2 = e' := fun e' he' => List.mem_map.mp (hperm.mem_iff.mp he')
  have hids : ∀ e ∈ backup.parameters, isParameterId e.id = true := by
    intro e he
    obtain ⟨e', he', hid, -⟩ := hreads.all e he
    obtain ⟨entry, hentry, rfl⟩ := hmem e' he'
    rw [← hid]
    exact isParameterId_of_mem hentry
  -- The line of every parameter says its id and what its value is read as.
  have hown : ∀ e ∈ backup.parameters, (e.id, readBack e.value) ∈
      backup.parameters.flatMap fun e => textEntries (format.line backup e ++ [LINE_FEED]) := by
    intro e he
    obtain ⟨hfinite, hsingle⟩ := single_of_mem_exported he
    refine List.mem_flatMap.mpr ⟨e, he, ?_⟩
    rw [textEntries_entry format backup (hids e he) hfinite,
      if_pos (isFinite_readBack hfinite hsingle)]
    exact List.mem_singleton_self _
  have htext := textEntries_serialize format backup
  refine ⟨?_, ?_, hids, fun e he => ?_⟩
  · -- An entry of the header has the id of a parameter, and so comes twice.
    rw [List.eq_nil_iff_forall_not_mem]
    intro entry hentry
    have htextEntry : entry ∈ textEntries (format.serialize backup) := by
      rw [htext]
      exact List.mem_append_left _ hentry
    have hread : textEntry entry.1 entry.2 ∈ imported.parameters :=
      hperm.mem_iff.mpr (List.mem_map_of_mem htextEntry)
    obtain ⟨e, he, hid, -⟩ := hreads.only _ hread
    rw [htext, List.map_append] at hnodup
    exact (List.nodup_append.mp hnodup).2.2 entry.1 (List.mem_map_of_mem hentry) e.id
      (List.mem_map_of_mem (hown e he)) hid.symm
  · rintro hnil
    refine hne ?_
    rw [List.eq_nil_iff_forall_not_mem]
    intro entry hentry
    obtain ⟨e, he, -⟩ := hreads.only _ (hperm.mem_iff.mpr (List.mem_map_of_mem hentry))
    rw [hnil] at he
    cases he
  · obtain ⟨hfinite, hsingle⟩ := single_of_mem_exported he
    obtain ⟨e', he', hid, hequal⟩ := hreads.all e he
    obtain ⟨entry, hentry, rfl⟩ := hmem e' he'
    have hbody : (e.id, readBack e.value) ∈ textEntries (format.serialize backup) := by
      rw [htext]
      exact List.mem_append_right _ (hown e he)
    have hsame := List.inj_on_of_nodup_map hnodup hentry hbody hid
    rw [hsame] at hequal
    exact (equal_readBack_iff hfinite hsingle).mp hequal

/-- The round trip holds exactly of a backup whose text is safe. -/
theorem text_roundTrip (localeCompare : Text → Text → ℤ)
    (parseJson : Text → Except Text ParameterBackupFile) (snapshot : ConfiguratorSnapshot)
    (appInfo : ParameterBackupAppInfo) (format : TextFormat) (now later : Text) :
    RoundTrips localeCompare parseJson snapshot (exported localeCompare snapshot appInfo now)
        format later ↔
      TextSafe format (exported localeCompare snapshot appInfo now) :=
  ⟨textSafe_of_roundTrips, roundTrips_of_textSafe⟩

end


/-! ## A value of eight digits -/

def fineSpeed : ParameterState :=
  ⟨units "WPNAV_SPEED", .finite false (7901229 / 64), none, none⟩

theorem fineSpeed_single : isFinite fineSpeed.value = true ∧ binary32.Holds fineSpeed.value :=
  ⟨rfl, binary32.pattern fineSpeed.value, by decide +kernel, by decide +kernel⟩

def fineSnapshot : ConfiguratorSnapshot where
  vehicle := none
  board := none
  table :=
    { parameters := [fineSpeed]
      distinct := List.nodup_singleton _
      single := fun p hp => by rw [List.mem_singleton.mp hp]; exact fineSpeed_single }

/-- The backup of one parameter; an order of ids and a reader of JSON do not matter. -/
def fineBackup : ParameterBackupFile :=
  exported (fun _ _ => 0) fineSnapshot ⟨none, none, none⟩ (units "2026-05-28T15:20:00.000Z")

def fineDrafts : Option (List (Text × Text)) :=
  match parseParameterBackup (fun _ _ => 0) (fun _ => .error [])
      (TextFormat.parm.serialize fineBackup) (units "2026-05-29T15:20:00.000Z") with
  | .ok imported => some (deriveDraftValuesFromParameterBackup (fun _ _ => 0) [fineSpeed] imported
      []).draftValues.entries
  | .error _ => none

/-- Seven digits lose three thousandths, and the import stages the difference. -/
theorem eighth_digit_lost :
    ¬ RoundTrips (fun _ _ => 0) (fun _ => .error []) fineSnapshot fineBackup .parm
        (units "2026-05-29T15:20:00.000Z") ∧
      fineDrafts = some [(units "WPNAV_SPEED", units "123456.7")] := by
  constructor
  · intro h
    have hdigits := (textSafe_of_roundTrips h).values fineSpeed.entry
      (mem_exported.mpr ⟨fineSpeed, List.mem_singleton_self _, rfl, rfl⟩)
    rcases hdigits with hint | hdigits
    · revert hint
      decide +kernel
    · revert hdigits
      decide +kernel
  · decide +kernel

end ArduConfigurator.Parameters
