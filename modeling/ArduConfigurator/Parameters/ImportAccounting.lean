import ArduConfigurator.Parameters.Backup

/-! # What an import counts

Each entry of a backup has one outcome against the live parameters. The counters count the
outcomes, and the drafts are the last values of the changed ids. -/
namespace ArduConfigurator.Parameters
open DecimalText
set_option autoImplicit false

inductive ImportOutcome
  | excluded
  | unknown
  | unchanged
  | changed
  deriving DecidableEq

def excludedId (excludeCategories : List ParameterImportCategory) (id : Text) : Bool :=
  startsExcluded id || isInternalUseOnlyParameter id || inCategories excludeCategories id

variable {parameters : List ParameterState} {excludeCategories : List ParameterImportCategory}

section
variable (parameters excludeCategories)

def outcome (entry : ParameterBackupEntry) : ImportOutcome :=
  if excludedId excludeCategories entry.id then .excluded
  else
    match parameterById parameters entry.id with
    | none => .unknown
    | some current =>
      if parameterValuesMatch current.value entry.value then .unchanged else .changed

def withOutcome (o : ImportOutcome) (entries : List ParameterBackupEntry) :
    List ParameterBackupEntry :=
  entries.filter fun entry => outcome parameters excludeCategories entry = o

/-- The entries of each outcome are as many as the result says, the drafts are as many as the
changed entries, and no draft is for an id that is left out. The counter of excluded entries
leaves out the ids that no backup takes either. -/
structure Accounted (entries : List ParameterBackupEntry) (r : ParameterBackupImportResult) :
    Prop where
  all_entries : (withOutcome parameters excludeCategories .changed entries).length +
    (withOutcome parameters excludeCategories .unchanged entries).length +
    (withOutcome parameters excludeCategories .unknown entries).length +
    (withOutcome parameters excludeCategories .excluded entries).length = entries.length
  changed : r.changedCount = (withOutcome parameters excludeCategories .changed entries).length
  unchanged :
    r.unchangedCount = (withOutcome parameters excludeCategories .unchanged entries).length
  unknown : r.unknownParameterIds.Perm
    ((withOutcome parameters excludeCategories .unknown entries).map (·.id))
  excluded : r.excludedCount + (entries.filter isSnapshotExcludedBackupEntry).length =
    (withOutcome parameters excludeCategories .excluded entries).length
  matched : r.matchedCount = r.changedCount + r.unchangedCount
  staged : r.changedCount = r.draftValues.size
  none_excluded : ∀ id ∈ r.draftValues.keys, excludedId excludeCategories id = false

def NoRepeatedChange (entries : List ParameterBackupEntry) : Prop :=
  ((withOutcome parameters excludeCategories .changed entries).map (·.id)).Nodup

end

/-! ## One entry -/

@[simp] theorem withOutcome_append (o : ImportOutcome) (entries rest : List ParameterBackupEntry) :
    withOutcome parameters excludeCategories o (entries ++ rest) =
      withOutcome parameters excludeCategories o entries ++
        withOutcome parameters excludeCategories o rest :=
  List.filter_append entries rest

@[simp] theorem withOutcome_singleton (o : ImportOutcome) (entry : ParameterBackupEntry) :
    withOutcome parameters excludeCategories o [entry] =
      if outcome parameters excludeCategories entry = o then [entry] else [] := by
  rw [withOutcome, List.filter_singleton]
  simp

theorem importEntry_eq (r : ParameterBackupImportResult) (entry : ParameterBackupEntry) :
    importEntry parameters excludeCategories r entry =
      match outcome parameters excludeCategories entry with
      | .excluded => { r with
          excludedCount := r.excludedCount + if isSnapshotExcludedBackupEntry entry then 0 else 1 }
      | .unknown => { r with unknownParameterIds := r.unknownParameterIds ++ [entry.id] }
      | .unchanged => { r with
          matchedCount := r.matchedCount + 1
          unchangedCount := r.unchangedCount + 1 }
      | .changed => { r with
          matchedCount := r.matchedCount + 1
          draftValues := r.draftValues.set entry.id (numberToString entry.value)
          changedCount := r.changedCount + 1 } := by
  rw [importEntry, outcome, excludedId, isSnapshotExcludedBackupEntry]
  by_cases hstart : startsExcluded entry.id = true
  · simp [hstart]
  by_cases hinternal : isInternalUseOnlyParameter entry.id = true
  · simp [hstart, hinternal]
  by_cases hcategory : inCategories excludeCategories entry.id = true
  · simp [hstart, hinternal, hcategory]
  cases hlive : parameterById parameters entry.id with
  | none => simp [hstart, hinternal, hcategory]
  | some current =>
    by_cases hmatch : parameterValuesMatch current.value entry.value = true
    · simp [hstart, hinternal, hcategory, hmatch]
    · simp [hstart, hinternal, hcategory, hmatch]

theorem excludedId_of_outcome_ne {entry : ParameterBackupEntry}
    (h : outcome parameters excludeCategories entry ≠ .excluded) :
    excludedId excludeCategories entry.id = false := by
  rw [outcome] at h
  by_contra hexcluded
  rw [Bool.not_eq_false] at hexcluded
  exact h (if_pos hexcluded)

/-! ## The whole backup -/

theorem lengths_withOutcome (entries : List ParameterBackupEntry) :
    (withOutcome parameters excludeCategories .changed entries).length +
      (withOutcome parameters excludeCategories .unchanged entries).length +
      (withOutcome parameters excludeCategories .unknown entries).length +
      (withOutcome parameters excludeCategories .excluded entries).length = entries.length := by
  induction entries with
  | nil => rfl
  | cons entry entries ih =>
    simp only [withOutcome, List.filter_cons, List.length_cons] at ih ⊢
    cases outcome parameters excludeCategories entry <;> simp <;> omega

structure Tally (parameters : List ParameterState)
    (excludeCategories : List ParameterImportCategory) (entries : List ParameterBackupEntry)
    (r : ParameterBackupImportResult) : Prop where
  changed : r.changedCount = (withOutcome parameters excludeCategories .changed entries).length
  unchanged :
    r.unchangedCount = (withOutcome parameters excludeCategories .unchanged entries).length
  unknown : r.unknownParameterIds =
    (withOutcome parameters excludeCategories .unknown entries).map (·.id)
  excluded : r.excludedCount + (entries.filter isSnapshotExcludedBackupEntry).length =
    (withOutcome parameters excludeCategories .excluded entries).length
  matched : r.matchedCount = r.changedCount + r.unchangedCount
  drafts : ∀ id, id ∈ r.draftValues.keys ↔
    id ∈ (withOutcome parameters excludeCategories .changed entries).map (·.id)

theorem tally_empty : Tally parameters excludeCategories [] .empty where
  changed := rfl
  unchanged := rfl
  unknown := rfl
  excluded := rfl
  matched := rfl
  drafts := fun _ => Iff.rfl

variable {entries : List ParameterBackupEntry} {r : ParameterBackupImportResult}

theorem tally_importEntry (h : Tally parameters excludeCategories entries r)
    (entry : ParameterBackupEntry) :
    Tally parameters excludeCategories (entries ++ [entry])
      (importEntry parameters excludeCategories r entry) := by
  obtain ⟨hchanged, hunchanged, hunknown, hexcluded, hmatched, hdrafts⟩ := h
  have hstart : outcome parameters excludeCategories entry ≠ .excluded →
      isSnapshotExcludedBackupEntry entry = false := by
    intro hne
    have h := excludedId_of_outcome_ne hne
    rw [excludedId, Bool.or_assoc, Bool.or_eq_false_iff] at h
    exact h.1
  rw [importEntry_eq]
  cases ho : outcome parameters excludeCategories entry with
  | excluded =>
    refine ⟨by simpa [ho] using hchanged, by simpa [ho] using hunchanged,
      by simpa [ho] using hunknown, ?_, hmatched, by simpa [ho] using hdrafts⟩
    by_cases hs : isSnapshotExcludedBackupEntry entry = true
    · simp [ho, hs]
      omega
    · simp [ho, hs]
      omega
  | unknown =>
    have hs := hstart (by rw [ho]; exact ImportOutcome.noConfusion)
    exact ⟨by simpa [ho] using hchanged, by simpa [ho] using hunchanged,
      by simpa [ho] using hunknown, by simpa [ho, hs] using hexcluded, hmatched,
      by simpa [ho] using hdrafts⟩
  | unchanged =>
    have hs := hstart (by rw [ho]; exact ImportOutcome.noConfusion)
    refine ⟨by simpa [ho] using hchanged, by simpa [ho] using hunchanged,
      by simpa [ho] using hunknown, by simpa [ho, hs] using hexcluded, ?_,
      by simpa [ho] using hdrafts⟩
    simp
    omega
  | changed =>
    have hs := hstart (by rw [ho]; exact ImportOutcome.noConfusion)
    refine ⟨by simpa [ho] using hchanged, by simpa [ho] using hunchanged,
      by simpa [ho] using hunknown, by simpa [ho, hs] using hexcluded, ?_, ?_⟩
    · simp
      omega
    · intro id
      have hkeys : id ∈ (r.draftValues.set entry.id (numberToString entry.value)).keys ↔
          id = entry.id ∨ id ∈ r.draftValues.keys := Entries.mem_keys_set
      simp only [hkeys, hdrafts id, withOutcome_append, withOutcome_singleton, ho, if_pos,
        List.map_append, List.mem_append, List.map_singleton, List.mem_singleton]
      exact or_comm

theorem tally_foldl (entries : List ParameterBackupEntry) :
    Tally parameters excludeCategories entries
      (entries.foldl (importEntry parameters excludeCategories) .empty) := by
  induction entries using List.reverseRecOn with
  | nil => exact tally_empty
  | append_singleton entries entry ih =>
    rw [List.foldl_append]
    exact tally_importEntry ih entry

theorem size_drafts_iff (h : Tally parameters excludeCategories entries r) :
    r.changedCount = r.draftValues.size ↔
      NoRepeatedChange parameters excludeCategories entries := by
  have hperm : r.draftValues.keys.Perm
      ((withOutcome parameters excludeCategories .changed entries).map (·.id)).dedup := by
    refine (List.perm_ext_iff_of_nodup r.draftValues.nodup (List.nodup_dedup _)).mpr ?_
    intro id
    rw [List.mem_dedup]
    exact h.drafts id
  rw [h.changed, JsMap.size_eq_length_keys, hperm.length_eq, NoRepeatedChange,
    ← List.dedup_eq_self, ← List.length_map (·.id)]
  constructor
  · intro hlength
    exact (List.dedup_sublist _).eq_of_length hlength.symm
  · intro hself
    rw [hself]

theorem keys_not_excluded (h : Tally parameters excludeCategories entries r) :
    ∀ id ∈ r.draftValues.keys, excludedId excludeCategories id = false := by
  intro id hid
  obtain ⟨entry, hentry, rfl⟩ := List.mem_map.mp ((h.drafts id).mp hid)
  have ho := of_decide_eq_true (List.mem_filter.mp hentry).2
  exact excludedId_of_outcome_ne (by rw [ho]; exact ImportOutcome.noConfusion)

variable (parameters excludeCategories)

/-- An import accounts for the entries just when no id is listed twice with values that differ
from the live one. -/
theorem import_accounted_iff (localeCompare : Text → Text → ℤ) (backup : ParameterBackupFile) :
    Accounted parameters excludeCategories backup.parameters
      (deriveDraftValuesFromParameterBackup localeCompare parameters backup excludeCategories) ↔
      NoRepeatedChange parameters excludeCategories backup.parameters := by
  have h : Tally parameters excludeCategories backup.parameters _ := tally_foldl backup.parameters
  rw [← size_drafts_iff h]
  constructor
  · intro haccounted
    exact haccounted.staged
  · intro hstaged
    have hkeys := keys_not_excluded h
    refine ⟨lengths_withOutcome _, h.changed, h.unchanged, ?_, h.excluded, h.matched, hstaged,
      hkeys⟩
    rw [← h.unknown]
    exact List.perm_insertionSort _ _

/-! ## An id listed twice -/

def liveSpeed : ParameterState := ⟨units "WPNAV_SPEED", .finite false 1, none, none⟩

def speedTwice : ParameterBackupFile where
  appVersion := none
  appGitHash := none
  appGitBranch := none
  firmware := units "Unknown"
  firmwareVersion := none
  firmwareGitHash := none
  exportedAt := []
  parameterCount := 2
  vehicle := none
  hardware := none
  parameters :=
    [⟨units "WPNAV_SPEED", .finite false (2 : ℕ), none, none, none⟩,
      ⟨units "WPNAV_SPEED", .finite false (3 : ℕ), none, none, none⟩]

/-- Two values for one id are counted as two changes and staged as one draft. -/
theorem repeated_change_miscounted :
    ¬ Accounted [liveSpeed] [] speedTwice.parameters
      (deriveDraftValuesFromParameterBackup (fun _ _ => 0) [liveSpeed] speedTwice []) := by
  intro h
  have hstaged := h.staged
  revert hstaged
  decide +kernel

end ArduConfigurator.Parameters
