import ArduConfigurator.Parameters.Drafts
import ArduConfigurator.Runtime.ParameterWrites

/-! # The three tests for a change

A draft, a batch of writes and an import each ask whether a value differs from the live one. The
draft allows a millionth of the live value, the write a millionth of the value asked for, and no
such part stands in the test of an import. -/
namespace ArduConfigurator.Runtime
open Parameters
set_option autoImplicit false

/-! ## The three tests -/

/-- A value for a live parameter that no check of a draft refuses and no import leaves out. -/
structure Change where
  live : LiveParameter
  target : JsNumber
  rawValue : Text
  enumOverride : Bool
  excludeCategories : List ParameterImportCategory
  live_finite : live.value.isFinite = true
  target_finite : target.isFinite = true
  typed : trim rawValue ≠ []
  read : toNumber (trim rawValue) = target
  accepted : draftRefusal live live.id enumOverride target = none
  not_excluded : startsExcluded live.id = false
  not_internal : isInternalUseOnlyParameter live.id = false
  not_in_categories : inCategories excludeCategories live.id = false

theorem changedCount_importEntry {parameters : List ParameterState}
    {excludeCategories : List ParameterImportCategory} (r : ParameterBackupImportResult)
    (entry : ParameterBackupEntry) {current : ParameterState}
    (hexcluded : isSnapshotExcludedBackupEntry entry = false)
    (hinternal : isInternalUseOnlyParameter entry.id = false)
    (hcategories : inCategories excludeCategories entry.id = false)
    (hlive : parameterById parameters entry.id = some current) :
    (importEntry parameters excludeCategories r entry).changedCount =
      if parameterValuesMatch current.value entry.value then r.changedCount
      else r.changedCount + 1 := by
  rw [importEntry, if_neg (Bool.eq_false_iff.mp hexcluded), if_neg (Bool.eq_false_iff.mp hinternal),
    if_neg (Bool.eq_false_iff.mp hcategories), hlive]
  simp only
  split_ifs <;> rfl

namespace Change
variable (c : Change)

def draft : ParameterDraftEntry :=
  deriveParameterDraftEntry c.rawValue c.live.id c.enumOverride (some c.live)

def entry : ParameterBackupEntry := ⟨c.live.id, c.target, none, none, none⟩

/-- The import of the value against the live parameters counts it as changed. -/
def CountedAsChanged (parameters : List ParameterState) : Prop :=
  ∀ r : ParameterBackupImportResult,
    (importEntry parameters c.excludeCategories r c.entry).changedCount = r.changedCount + 1

def distance : JsNumber := (c.live.value - c.target).abs

def Near : Prop := c.distance.le DEFAULT_PARAMETER_WRITE_TOLERANCE = true

def NearFor (value : JsNumber) : Prop := c.distance.le (value.abs * MILLIONTH) = true

theorem finite_values : ∃ n q m r, c.live.value = .finite n q ∧ c.target = .finite m r := by
  have hlive := c.live_finite
  have htarget := c.target_finite
  cases hl : c.live.value with
  | nan => rw [hl] at hlive; cases hlive
  | infinite n => rw [hl] at hlive; cases hlive
  | finite n q =>
    cases ht : c.target with
    | nan => rw [ht] at htarget; cases htarget
    | infinite m => rw [ht] at htarget; cases htarget
    | finite m r => exact ⟨n, q, m, r, rfl, rfl⟩

theorem tolerance_ne_nan : DEFAULT_PARAMETER_WRITE_TOLERANCE ≠ .nan := by decide +kernel

theorem staged_iff : c.draft.status = .staged ↔ ¬ c.Near ∧ ¬ c.NearFor c.live.value := by
  obtain ⟨n, q, m, r, hlive, htarget⟩ := c.finite_values
  have htest : approximatelyEqualParameterValue c.target c.live.value
      DEFAULT_PARAMETER_WRITE_TOLERANCE = true ↔ c.Near ∨ c.NearFor c.live.value := by
    rw [Near, NearFor, distance, hlive, htarget, approximatelyEqual_iff tolerance_ne_nan,
      JsNumber.abs_sub_comm_finite]
  have hstatus : c.draft.status =
      if approximatelyEqualParameterValue c.target c.live.value DEFAULT_PARAMETER_WRITE_TOLERANCE
      then .unchanged else .staged := by
    rw [draft, deriveParameterDraftEntry]
    simp only [if_neg c.typed, c.read, c.accepted]
    rw [if_neg (by rw [c.target_finite]; exact Bool.noConfusion)]
    split_ifs <;> rfl
  rw [hstatus, ← not_or, ← htest]
  by_cases h : approximatelyEqualParameterValue c.target c.live.value
      DEFAULT_PARAMETER_WRITE_TOLERANCE = true
  · rw [if_pos h]
    exact iff_of_false (fun hstaged => by cases hstaged) (not_not_intro h)
  · rw [if_neg h]
    exact iff_of_true rfl h

theorem sent_iff {w : Writes} {known : TableParameter}
    (hknown : w.parameters.get c.live.id = some known) (hvalue : known.value = c.live.value) :
    w.skips c.live.id c.target none = false ↔ ¬ c.Near ∧ ¬ c.NearFor c.target := by
  obtain ⟨n, q, m, r, hlive, htarget⟩ := c.finite_values
  have htest : approximatelyEqualParameterValue c.live.value c.target
      DEFAULT_PARAMETER_WRITE_TOLERANCE = true ↔ c.Near ∨ c.NearFor c.target := by
    rw [Near, NearFor, distance, hlive, htarget, approximatelyEqual_iff tolerance_ne_nan]
  rw [← not_or, ← htest, Writes.skips, hknown, Option.any_some, hvalue, Option.getD_none,
    Bool.not_eq_true]

theorem parameterValuesMatch_iff :
    parameterValuesMatch c.live.value c.target = true ↔ c.Near := by
  obtain ⟨n, q, m, r, hlive, htarget⟩ := c.finite_values
  have hdistance : absDifference c.live.value c.target = c.distance := by
    rw [distance, hlive, htarget, JsNumber.abs_sub_finite]
    rfl
  have htolerance : SNAPSHOT_COMPARE_TOLERANCE = DEFAULT_PARAMETER_WRITE_TOLERANCE := by
    decide +kernel
  rw [parameterValuesMatch, decide_eq_true_iff, hdistance, htolerance]
  constructor
  · rintro (heq | h)
    · rw [Near, distance, ← heq, hlive, JsNumber.abs_sub_self]
      decide +kernel
    · exact h
  · exact .inr

theorem countedAsChanged_iff {parameters : List ParameterState}
    (hlive : parameterById parameters c.live.id = some c.live.toParameterState) :
    c.CountedAsChanged parameters ↔ ¬ c.Near := by
  have hentry := fun r => changedCount_importEntry r c.entry c.not_excluded
    c.not_internal c.not_in_categories hlive
  have hmatch : parameterValuesMatch c.live.value c.entry.value = true ↔ c.Near :=
    c.parameterValuesMatch_iff
  rw [CountedAsChanged, ← hmatch]
  constructor
  · intro hall heq
    have h := (hentry .empty).symm.trans (hall .empty)
    rw [if_pos heq] at h
    omega
  · intro hne r
    rw [hentry, if_neg hne]

/-- The draft, the batch and the import agree on a value just when it is near the live one, or
farther from it than a millionth of either. -/
theorem change_tests_agree_iff {w : Writes} {known : TableParameter}
    {parameters : List ParameterState}
    (hknown : w.parameters.get c.live.id = some known) (hvalue : known.value = c.live.value)
    (hlive : parameterById parameters c.live.id = some c.live.toParameterState) :
    ((c.draft.status = .staged ↔ w.skips c.live.id c.target none = false) ∧
      (w.skips c.live.id c.target none = false ↔ c.CountedAsChanged parameters)) ↔
      c.Near ∨ ¬ c.NearFor c.live.value ∧ ¬ c.NearFor c.target := by
  rw [c.staged_iff, c.sent_iff hknown hvalue, c.countedAsChanged_iff hlive]
  tauto

/-! ## A million over the number before it -/

def heapId : Text := units "SCR_HEAP_SIZE"

def heapState (value : JsNumber) : ParameterState := ⟨heapId, value, none, none⟩

def heapEntry (value : JsNumber) : TableParameter := ⟨heapState value, 0, 1, REAL32⟩

def heapTable (value : JsNumber) : Writes := Writes.initial.setEntry heapId (heapEntry value)

theorem million_accepted {live : LiveParameter} (hrange : live.range = none) :
    draftRefusal live live.id false (.finite false 1000000) = none := by
  have hsign : JsNumber.lt (.finite false 1000000) (JsNumber.ofInt 0) = false := by decide +kernel
  rw [draftRefusal, hrange, hsign]
  rfl

def million (value : JsNumber) (hvalue : value.isFinite = true) : Change where
  live := ⟨heapState value, none⟩
  target := .finite false 1000000
  rawValue := units "1000000"
  enumOverride := false
  excludeCategories := []
  live_finite := hvalue
  target_finite := rfl
  typed := by decide
  read := by decide +kernel
  accepted := million_accepted rfl
  not_excluded := (by decide : startsExcluded heapId = false)
  not_internal := (by decide : isInternalUseOnlyParameter heapId = false)
  not_in_categories := (by decide : inCategories [] heapId = false)

/-- The draft of a million over its predecessor is staged and the import counts it, and the batch
does not send it. -/
theorem million_staged_and_skipped :
    (million (.finite false 999999) rfl).draft.status = .staged ∧
      (heapTable (.finite false 999999)).skips heapId (.finite false 1000000) none = true ∧
      (million (.finite false 999999) rfl).CountedAsChanged
        [heapState (.finite false 999999)] := by
  refine ⟨(staged_iff _).mpr ⟨?_, ?_⟩, by decide +kernel, (countedAsChanged_iff _ ?_).mpr ?_⟩
  · show ¬ _ = true
    decide +kernel
  · show ¬ _ = true
    decide +kernel
  · rfl
  · show ¬ _ = true
    decide +kernel

/-- A million over one is far from either. -/
theorem million_over_one_agreed :
    ((million (.finite false 1) rfl).draft.status = .staged ↔
      (heapTable (.finite false 1)).skips heapId (.finite false 1000000) none = false) ∧
    ((heapTable (.finite false 1)).skips heapId (.finite false 1000000) none = false ↔
      (million (.finite false 1) rfl).CountedAsChanged [heapState (.finite false 1)]) := by
  refine ((million (.finite false 1) rfl).change_tests_agree_iff
    (w := heapTable (.finite false 1)) rfl rfl rfl).mpr (.inr ⟨?_, ?_⟩)
  · show ¬ _ = true
    decide +kernel
  · show ¬ _ = true
    decide +kernel

end Change
end ArduConfigurator.Runtime
