import ArduConfigurator.GuidedActions.CompassCalibration
import Mathlib.Data.List.Induction
import Mathlib.Data.List.Perm.Basic
import Mathlib.Data.List.Sort

/-! # The order of the compass reports

A run of the calibration has a report for each of its compasses. They arrive in any order, again and
again, with progress messages between them. -/
namespace ArduConfigurator.GuidedActions
open Runs
set_option autoImplicit false

/-! ## The masks of a run -/

theorem mem_compassIdsFromMask {mask : UInt8} {id : ℕ} :
    id ∈ compassIdsFromMask mask ↔ mask.toNat.testBit id = true := by
  rw [compassIdsFromMask, List.mem_filter, List.mem_range]
  refine ⟨fun h => h.2, fun h => ⟨?_, h⟩⟩
  by_contra hid
  have hlt : mask.toNat < 2 ^ id :=
    lt_of_lt_of_le mask.toNat_lt (Nat.pow_le_pow_right (by omega) (by omega))
  rw [Nat.testBit_lt_two_pow hlt] at h
  cases h

theorem mem_compassIdsFromMask_or {a b : UInt8} {id : ℕ} :
    id ∈ compassIdsFromMask (a ||| b) ↔ id ∈ compassIdsFromMask a ∨ id ∈ compassIdsFromMask b := by
  rw [mem_compassIdsFromMask, mem_compassIdsFromMask, mem_compassIdsFromMask, UInt8.toNat_or,
    Nat.testBit_or, Bool.or_eq_true]

theorem compassIdsFromMask_pairwise (mask : UInt8) : (compassIdsFromMask mask).Pairwise (· < ·) :=
  List.Pairwise.filter _ List.pairwise_lt_range

theorem mask_pos_iff {mask : UInt8} : 0 < mask ↔ ∃ id, id ∈ compassIdsFromMask mask := by
  rw [UInt8.lt_iff_toNat_lt, UInt8.toNat_zero]
  constructor
  · intro hpos
    by_contra hnone
    have hzero : mask.toNat = 0 := by
      refine Nat.eq_of_testBit_eq fun id => ?_
      rw [Nat.zero_testBit]
      by_contra hid
      exact hnone ⟨id, mem_compassIdsFromMask.mpr (by simpa using hid)⟩
    omega
  · rintro ⟨id, hid⟩
    rw [mem_compassIdsFromMask] at hid
    exact Nat.pos_of_ne_zero fun hzero => by simp [hzero] at hid

/-- The reports of a run, one for each compass, the compasses in their order. -/
structure MagCalRun where
  reports : List MagCalReportMessage
  ascending : (reports.map MagCalReportMessage.compassId).Pairwise (· < ·)

namespace MagCalRun

def compassIds (r : MagCalRun) : List ℕ := r.reports.map MagCalReportMessage.compassId

/-- The masks name compasses of the run only, and among any compasses, unless they are all, there is
one whose mask names a compass that is not among them. -/
structure Linked (r : MagCalRun) : Prop where
  named : ∀ m ∈ r.reports, ∀ id ∈ compassIdsFromMask m.calMask, id ∈ r.compassIds
  linked : ∀ ids : List ℕ, ids ≠ [] → (∀ id ∈ ids, id ∈ r.compassIds) →
    (∃ id ∈ r.compassIds, id ∉ ids) →
    ∃ m ∈ r.reports, m.compassId ∈ ids ∧ ∃ id ∈ compassIdsFromMask m.calMask, id ∉ ids

theorem linked_of_full {r : MagCalRun}
    (h : ∀ m ∈ r.reports, compassIdsFromMask m.calMask = r.compassIds) : r.Linked := by
  refine ⟨fun m hm id hid => h m hm ▸ hid, ?_⟩
  intro ids hne hsubset ⟨id, hid, hout⟩
  obtain ⟨i, hi⟩ := List.exists_mem_of_ne_nil ids hne
  obtain ⟨m, hm, rfl⟩ := List.mem_map.mp (hsubset i hi)
  exact ⟨m, hm, hi, id, h m hm ▸ hid, hout⟩

def results (r : MagCalRun) : List (ℕ × MagCalReport) :=
  r.reports.map fun m => (m.compassId, m.report)

variable {r : MagCalRun} {m m' : MagCalReportMessage}

theorem eq_of_compassId (hm : m ∈ r.reports) (hm' : m' ∈ r.reports)
    (h : m.compassId = m'.compassId) : m = m' := by
  have hnodup : r.compassIds.Nodup := r.ascending.imp fun h => Nat.ne_of_lt h
  exact List.inj_on_of_nodup_map hnodup hm hm' h

end MagCalRun

/-! ## The reports heard so far -/

def Event.reportedId : Event → Option ℕ
  | .report message => some message.compassId
  | _ => none

def reportedIds (es : List Event) : List ℕ := es.filterMap Event.reportedId

namespace CompassCalibration

/-- The calibration runs and has kept the reports of the compasses `ids`. -/
structure Heard (r : MagCalRun) (ids : List ℕ) (s : CompassCalibration) : Prop where
  running : s.status = .running
  subset : ∀ id ∈ ids, id ∈ r.compassIds
  kept : ∀ m ∈ r.reports, m.compassId ∈ ids → s.magCalReports.get m.compassId = some m.report
  others : ∀ id, id ∉ ids → s.magCalReports.get id = none
  masks : ∀ id, id ∈ compassIdsFromMask s.magCalExpectedMask ↔
    ∃ m ∈ r.reports, m.compassId ∈ ids ∧ id ∈ compassIdsFromMask m.calMask

variable {r : MagCalRun} {ids : List ℕ} {s : CompassCalibration}

theorem Heard.noteReport (h : Heard r ids s) {m : MagCalReportMessage} (hm : m ∈ r.reports) :
    Heard r (ids ++ [m.compassId]) (s.noteReport m) := by
  have hmem : ∀ id, id ∈ ids ++ [m.compassId] ↔ id ∈ ids ∨ id = m.compassId := by simp
  refine ⟨h.running, ?_, ?_, ?_, ?_⟩
  · intro id hid
    obtain hid | rfl := (hmem id).mp hid
    · exact h.subset id hid
    · exact List.mem_map_of_mem hm
  · intro m' hm' hid
    simp only [CompassCalibration.noteReport, JsMap.get_set]
    split
    · next heq => rw [MagCalRun.eq_of_compassId hm' hm heq]
    · next hne => exact h.kept m' hm' (((hmem _).mp hid).resolve_right hne)
  · intro id hid
    rw [hmem, not_or] at hid
    simp only [CompassCalibration.noteReport, JsMap.get_set, if_neg hid.2]
    exact h.others id hid.1
  · intro id
    simp only [CompassCalibration.noteReport, mem_compassIdsFromMask_or, h.masks id]
    constructor
    · rintro (⟨m', hm', hid', hmask⟩ | hmask)
      · exact ⟨m', hm', (hmem _).mpr (.inl hid'), hmask⟩
      · exact ⟨m, hm, (hmem _).mpr (.inr rfl), hmask⟩
    · rintro ⟨m', hm', hid', hmask⟩
      obtain hid' | heq := (hmem _).mp hid'
      · exact .inl ⟨m', hm', hid', hmask⟩
      · rw [MagCalRun.eq_of_compassId hm' hm heq] at hmask
        exact .inr hmask

theorem Heard.get_eq_none_iff (h : Heard r ids s) {id : ℕ} :
    s.magCalReports.get id = none ↔ id ∉ ids := by
  refine ⟨fun hnone hid => ?_, h.others id⟩
  obtain ⟨m, hm, rfl⟩ := List.mem_map.mp (h.subset id hid)
  cases hnone.symm.trans (h.kept m hm hid)

theorem Heard.mem_keys_iff (h : Heard r ids s) {id : ℕ} :
    id ∈ s.magCalReports.keys ↔ id ∈ ids := by
  rw [← not_iff_not, ← JsMap.get_eq_none_iff, h.get_eq_none_iff]

theorem Heard.pendingIds_iff (h : Heard r ids s) (hlinked : r.Linked) (hids : ids ≠ []) :
    s.pendingIds = [] ↔ ∀ id ∈ r.compassIds, id ∈ ids := by
  have hpending : s.pendingIds = [] ↔ ∀ id ∈ s.expectedIds, id ∈ ids := by
    rw [pendingIds, List.filter_eq_nil_iff]
    refine forall₂_congr fun id _ => ?_
    rw [Bool.not_eq_true', Bool.not_eq_false, JsMap.has, Option.isSome_iff_ne_none, ne_eq,
      h.get_eq_none_iff, not_not]
  rw [hpending]
  constructor
  · intro hall
    by_contra hmissing
    push Not at hmissing
    obtain ⟨m, hm, hid, id, hmask, hout⟩ := hlinked.linked ids hids h.subset hmissing
    have hnamed := (h.masks id).mpr ⟨m, hm, hid, hmask⟩
    rw [expectedIds, if_pos (mask_pos_iff.mpr ⟨id, hnamed⟩)] at hall
    exact hout (hall id hnamed)
  · intro hall id hid
    rw [expectedIds] at hid
    split at hid
    · obtain ⟨m, hm, -, hmask⟩ := (h.masks id).mp hid
      exact hall id (hlinked.named m hm id hmask)
    · exact h.mem_keys_iff.mp hid

end CompassCalibration

theorem MagCalRun.Linked.named_of_ne {r : MagCalRun} (hlinked : r.Linked) {id other : ℕ}
    (hid : id ∈ r.compassIds) (hother : other ∈ r.compassIds) (hne : other ≠ id) :
    ∃ m ∈ r.reports, id ∈ compassIdsFromMask m.calMask := by
  obtain ⟨m, hm, -, id', hmask, hout⟩ := hlinked.linked (r.compassIds.filter (· ≠ id))
    (List.ne_nil_of_mem (List.mem_filter.mpr ⟨hother, decide_eq_true hne⟩))
    (fun _ h => (List.mem_filter.mp h).1)
    ⟨id, hid, fun h => of_decide_eq_true (List.mem_filter.mp h).2 rfl⟩
  have hid' : id' = id := by
    by_contra hne'
    exact hout (List.mem_filter.mpr ⟨hlinked.named m hm id' hmask, decide_eq_true hne'⟩)
  exact ⟨m, hm, hid' ▸ hmask⟩

namespace CompassCalibration
variable {r : MagCalRun} {ids : List ℕ} {s : CompassCalibration}

theorem Heard.expectedIds_eq (h : Heard r ids s) (hlinked : r.Linked)
    (hall : ∀ id ∈ r.compassIds, id ∈ ids) : s.expectedIds = r.compassIds := by
  have hsorted : r.compassIds.Pairwise (· < ·) := r.ascending
  have hnodup : r.compassIds.Nodup := hsorted.imp fun h => Nat.ne_of_lt h
  by_cases hpositive : 0 < s.magCalExpectedMask
  · rw [expectedIds, if_pos hpositive]
    have hexpected := compassIdsFromMask_pairwise s.magCalExpectedMask
    have hperm : (compassIdsFromMask s.magCalExpectedMask).Perm r.compassIds := by
      rw [List.perm_ext_iff_of_nodup (hexpected.imp fun h => Nat.ne_of_lt h) hnodup]
      intro id
      rw [h.masks id]
      constructor
      · rintro ⟨m, hm, -, hmask⟩
        exact hlinked.named m hm id hmask
      · intro hid
        obtain ⟨other, hother⟩ := mask_pos_iff.mp hpositive
        obtain ⟨m, hm, hin, hmask⟩ := (h.masks other).mp hother
        by_cases hne : other = id
        · exact ⟨m, hm, hin, hne ▸ hmask⟩
        · obtain ⟨m', hm', hmask'⟩ := hlinked.named_of_ne hid (hlinked.named m hm other hmask) hne
          exact ⟨m', hm', hall _ (List.mem_map_of_mem hm'), hmask'⟩
    exact hperm.eq_of_pairwise (fun a b _ _ hab hba => absurd hab (Nat.lt_asymm hba)) hexpected
      hsorted
  · rw [expectedIds, if_neg hpositive]
    have hperm : s.magCalReports.keys.Perm r.compassIds :=
      (List.perm_ext_iff_of_nodup s.magCalReports.nodup hnodup).mpr fun id =>
        h.mem_keys_iff.trans ⟨h.subset id, hall id⟩
    -- without a mask there is one compass only
    have hsingle : ∀ id ∈ r.compassIds, ∀ other ∈ r.compassIds, other = id := by
      intro id hid other hother
      by_contra hne
      obtain ⟨m, hm, hmask⟩ := hlinked.named_of_ne hid hother hne
      exact hpositive (mask_pos_iff.mpr
        ⟨id, (h.masks id).mpr ⟨m, hm, hall _ (List.mem_map_of_mem hm), hmask⟩⟩)
    cases hids : r.compassIds with
    | nil =>
      rw [hids] at hperm
      exact List.perm_nil.mp hperm
    | cons id rest =>
      have hrest : rest = [] := by
        rw [List.eq_nil_iff_forall_not_mem]
        intro other hother
        rw [hids, List.nodup_cons] at hnodup
        have heq := hsingle id (by simp [hids]) other (by simp [hids, hother])
        exact hnodup.1 (heq ▸ hother)
      rw [hids, hrest] at hperm
      rw [hrest]
      exact List.perm_singleton.mp hperm

theorem Heard.results_eq (h : Heard r ids s) (hlinked : r.Linked)
    (hall : ∀ id ∈ r.compassIds, id ∈ ids) :
    (s.expectedIds.filterMap fun id => (s.magCalReports.get id).map fun report => (id, report)) =
      r.results := by
  rw [h.expectedIds_eq hlinked hall, MagCalRun.compassIds, MagCalRun.results, List.filterMap_map]
  have hget : ∀ m ∈ r.reports, (Option.map (fun report => (m.compassId, report))
      (s.magCalReports.get m.compassId)) = some (m.compassId, m.report) := by
    intro m hm
    rw [h.kept m hm (hall _ (List.mem_map_of_mem hm)), Option.map_some]
  rw [List.filterMap_congr (g := fun m => some (m.compassId, m.report)) hget]
  exact congrFun List.filterMap_eq_map r.reports

/-! ## The end of a run -/

structure Concluded (sent : List MagCalCommand) (reports : List (ℕ × MagCalReport))
    (t : CompassCalibration) : Prop where
  status : t.status = (initial.conclude reports).status
  summary : t.summary = (initial.conclude reports).summary
  sent : t.sent = sent ++ (initial.conclude reports).sent

theorem concluded_conclude (s : CompassCalibration) (reports : List (ℕ × MagCalReport)) :
    Concluded s.sent reports (s.conclude reports) := by
  by_cases hfailures : (reports.filter fun p => p.2.calStatus ≠ MAG_CAL_STATUS_SUCCESS) = []
  · constructor
    · simp only [conclude, hfailures, if_true]
    · simp only [conclude, hfailures, if_true]
    · simp only [conclude, hfailures, if_true]
      rfl
  · constructor
    · simp only [conclude, hfailures, if_false, failAction]
    · simp only [conclude, hfailures, if_false, failAction]
    · simp only [conclude, hfailures, if_false, failAction]
      exact (List.append_nil _).symm

theorem conclude_status (s : CompassCalibration) (reports : List (ℕ × MagCalReport)) :
    (s.conclude reports).status = if reports.all fun p => p.2.calStatus = MAG_CAL_STATUS_SUCCESS
      then .succeeded else .failed := by
  have hfailures : (reports.filter fun p => p.2.calStatus ≠ MAG_CAL_STATUS_SUCCESS) = [] ↔
      reports.all (fun p => p.2.calStatus = MAG_CAL_STATUS_SUCCESS) = true := by
    simp [List.filter_eq_nil_iff]
  by_cases hall : reports.all (fun p => p.2.calStatus = MAG_CAL_STATUS_SUCCESS) = true
  · simp only [conclude, hfailures.mpr hall, hall, if_true]
  · simp only [conclude, mt hfailures.mp hall, hall, if_false, failAction, Bool.false_eq_true]

theorem conclude_status_ne_running (s : CompassCalibration) (reports : List (ℕ × MagCalReport)) :
    (s.conclude reports).status ≠ .running := by
  rw [conclude_status]
  split
  · exact GuidedActionStatus.noConfusion
  · exact GuidedActionStatus.noConfusion

/-! ## Runs -/

/-- What comes in between: reports of the run's compasses, progress messages, and the call that
started the calibration goes on, while the calibration runs. -/
def Interim (r : MagCalRun) (s : CompassCalibration) : Event → Prop
  | .report message => message ∈ r.reports
  | .progress _ => True
  | .startReturned failure => failure = none ∧ s.status = .running
  | _ => False

/-- How far a run has come: some compass has not reported and the action waits, or all have and it
has come to its end. -/
inductive Stage (r : MagCalRun) (sent : List MagCalCommand) (ids : List ℕ)
    (s : CompassCalibration) : Prop
  | waiting (h : Heard r ids s) (hsent : s.sent = sent) (hmissing : ∃ id ∈ r.compassIds, id ∉ ids)
  | ended (hall : ∀ id ∈ r.compassIds, id ∈ ids) (h : Concluded sent r.results s)

theorem Concluded.not_running {sent : List MagCalCommand} {reports : List (ℕ × MagCalReport)}
    {t : CompassCalibration} (h : Concluded sent reports t) : t.status ≠ .running := by
  rw [h.status]
  exact conclude_status_ne_running _ _

variable {sent : List MagCalCommand} {t : CompassCalibration}

theorem stage_report (hlinked : r.Linked) (h : Stage r sent ids s) {m : MagCalReportMessage}
    (hm : m ∈ r.reports) : Stage r sent (ids ++ [m.compassId]) (s.handleMagCalReport m) := by
  cases h with
  | ended hall h =>
    rw [handleMagCalReport, if_pos h.not_running]
    exact .ended (fun id hid => List.mem_append_left _ (hall id hid)) h
  | waiting h hsent _ =>
    have hheard := h.noteReport hm
    have hpending := hheard.pendingIds_iff hlinked (List.append_ne_nil_of_right_ne_nil _ (List.cons_ne_nil _ _))
    rw [handleMagCalReport, if_neg (not_not.mpr h.running)]
    simp only
    split
    · next hwaits =>
      have hmissing := mt hpending.mpr hwaits
      push Not at hmissing
      exact .waiting ⟨rfl, hheard.subset, hheard.kept, hheard.others, hheard.masks⟩ hsent hmissing
    · next hdone =>
      have hall := hpending.mp (not_not.mp hdone)
      refine .ended hall ?_
      rw [hheard.results_eq hlinked hall, ← hsent]
      exact concluded_conclude (s.noteReport m) r.results

theorem stage_progress (h : Stage r sent ids s) (message : MagCalProgressMessage) :
    Stage r sent ids (s.handleMagCalProgress message) := by
  cases h with
  | ended hall h =>
    rw [handleMagCalProgress, if_pos h.not_running]
    exact .ended hall h
  | waiting h hsent hmissing =>
    rw [handleMagCalProgress, if_neg (not_not.mpr h.running)]
    exact .waiting ⟨rfl, h.subset, h.kept, h.others, h.masks⟩ hsent hmissing

theorem stage_step (hlinked : r.Linked) (h : Stage r sent ids s) {e : Event} (he : Interim r s e)
    (hstep : step s e = some t) : Stage r sent (ids ++ e.reportedId.toList) t := by
  cases e with
  | report message =>
    cases hstep
    exact stage_report hlinked h he
  | progress message =>
    cases hstep
    exact (List.append_nil ids).symm ▸ stage_progress h message
  | startReturned failure =>
    obtain ⟨rfl, hrunning⟩ := he
    rw [step] at hstep
    split at hstep
    case isFalse => cases hstep
    cases hstep
    have hids : ids ++ (Event.startReturned none).reportedId.toList = ids := List.append_nil ids
    rw [hids]
    cases h with
    | ended hall h => exact absurd hrunning h.not_running
    | waiting h hsent hmissing =>
      exact .waiting ⟨rfl, h.subset, h.kept, h.others, h.masks⟩ hsent hmissing
  | run | startAccepted | statusText | guidanceTimeout | reportWatchdog | missingCompass | cancel
  | cancelReturned | vehicleRestart | reset => exact he.elim

theorem stage_run (hlinked : r.Linked) (h : Stage r sent [] s) {es : List Event}
    (hinterim : Along step (Interim r) s es) (hrun : run step s es = some t) :
    Stage r sent (reportedIds es) t := by
  induction es using List.reverseRecOn generalizing t with
  | nil =>
    cases hrun
    exact h
  | append_singleton es e ih =>
    obtain ⟨u, hbefore, hlast⟩ := run_append_eq_some.mp hrun
    obtain ⟨v, hstep, hend⟩ := run_cons_eq_some.mp hlast
    cases hend
    rw [along_append _ hbefore] at hinterim
    have hids : reportedIds (es ++ [e]) = reportedIds es ++ e.reportedId.toList := by
      rw [reportedIds, List.filterMap_append]
      cases hid : e.reportedId <;> simp [reportedIds, hid]
    rw [hids]
    exact stage_step hlinked (ih hinterim.1 hbefore) hinterim.2.1 hstep

/-! ## From the start of the calibration -/

def Fresh (s : CompassCalibration) : Prop :=
  s.status = .requested → s.magCalReports = .empty ∧ s.magCalExpectedMask = 0

theorem fresh_of_ne (h : s.status ≠ .requested) : Fresh s := fun hrequested => absurd hrequested h

theorem fresh_step (h : Fresh s) {e : Event} (hstep : step s e = some t) : Fresh t := by
  cases e with
  | run missingCompass =>
    cases hstep
    cases missingCompass with
    | some message => exact fresh_of_ne GuidedActionStatus.noConfusion
    | none => exact fun _ => ⟨rfl, rfl⟩
  | startAccepted =>
    cases hstep
    rw [handleStartAccepted]
    split
    · exact fresh_of_ne GuidedActionStatus.noConfusion
    · exact h
  | startReturned failure =>
    rw [step] at hstep
    split at hstep
    case isFalse => cases hstep
    cases hstep
    cases failure with
    | none => exact fresh_of_ne GuidedActionStatus.noConfusion
    | some message => exact fresh_of_ne GuidedActionStatus.noConfusion
  | progress message =>
    cases hstep
    rw [handleMagCalProgress]
    split
    · exact h
    · exact fresh_of_ne GuidedActionStatus.noConfusion
  | report message =>
    cases hstep
    rw [handleMagCalReport]
    split
    · exact h
    simp only
    split
    · exact fresh_of_ne GuidedActionStatus.noConfusion
    · refine fresh_of_ne ?_
      rw [conclude_status]
      split
      · exact GuidedActionStatus.noConfusion
      · exact GuidedActionStatus.noConfusion
  | statusText result =>
    rw [step] at hstep
    cases hstatus : result.status <;> rw [hstatus] at hstep <;> cases hstep <;>
      exact fresh_of_ne (by simp [handleStatusText, hstatus])
  | guidanceTimeout isConnected =>
    rw [step] at hstep
    split at hstep
    case isFalse => cases hstep
    cases hstep
    rw [onGuidanceTimeout]
    simp only
    split
    · exact h
    · exact fresh_of_ne GuidedActionStatus.noConfusion
  | reportWatchdog isConnected seconds =>
    rw [step] at hstep
    split at hstep
    case isFalse => cases hstep
    cases hstep
    rw [onReportWatchdog]
    split
    · exact h
    · exact fresh_of_ne GuidedActionStatus.noConfusion
  | missingCompass message =>
    cases hstep
    rw [handleMissingCompass]
    split
    · exact fresh_of_ne GuidedActionStatus.noConfusion
    · exact h
  | cancel isConnected =>
    cases hstep
    rw [cancelCompassCalibration]
    split
    · exact h
    split
    · exact fresh_of_ne GuidedActionStatus.noConfusion
    · exact fresh_of_ne GuidedActionStatus.noConfusion
  | cancelReturned failure =>
    rw [step] at hstep
    split at hstep
    case isFalse => cases hstep
    cases hstep
    cases failure with
    | none => exact fresh_of_ne GuidedActionStatus.noConfusion
    | some reason => exact fresh_of_ne GuidedActionStatus.noConfusion
  | vehicleRestart =>
    cases hstep
    rw [handleVehicleRestart]
    split
    · exact fresh_of_ne GuidedActionStatus.noConfusion
    · exact h
  | reset isConnected =>
    cases hstep
    exact fresh_of_ne GuidedActionStatus.noConfusion

theorem stage_started (hfresh : Fresh s) (hrequested : s.status = .requested)
    (hreports : r.reports ≠ []) : Stage r s.sent [] s.handleStartAccepted := by
  obtain ⟨hkept, hmask⟩ := hfresh hrequested
  obtain ⟨m, hm⟩ := List.exists_mem_of_ne_nil _ hreports
  rw [handleStartAccepted, if_pos hrequested]
  refine .waiting ⟨rfl, fun id h => absurd h List.not_mem_nil, ?_, ?_, ?_⟩ rfl
    ⟨m.compassId, List.mem_map_of_mem hm, List.not_mem_nil⟩
  · intro m _ h
    exact absurd h List.not_mem_nil
  · intro id _
    rw [markCompassCalibrationStarted, hkept]
    rfl
  · intro id
    rw [markCompassCalibrationStarted, hmask, mem_compassIdsFromMask]
    simp

theorem linked_single {m : MagCalReportMessage} (hmask : m.calMask = 0) :
    MagCalRun.Linked ⟨[m], List.pairwise_singleton _ _⟩ := by
  refine ⟨?_, ?_⟩
  · intro m' hm' id hid
    rw [List.mem_singleton.mp hm', mem_compassIdsFromMask, hmask] at hid
    simp at hid
  · intro ids hne hsubset ⟨id, hid, hout⟩
    obtain ⟨i, hi⟩ := List.exists_mem_of_ne_nil ids hne
    have hi' : i = m.compassId := List.mem_singleton.mp (hsubset i hi)
    have hid' : id = m.compassId := List.mem_singleton.mp hid
    exact absurd (hid'.trans hi'.symm ▸ hi) hout

theorem interim_of_unreported {r' : MagCalRun} {es : List Event}
    (hinterim : Along step (Interim r) s es) (hnone : reportedIds es = []) :
    Along step (Interim r') s es := by
  have hsilent : Along step (fun _ e => Event.reportedId e = none) s es :=
    along_of_forall_mem s (List.filterMap_eq_nil_iff.mp hnone)
  refine (hinterim.and hsilent).mono fun s e he => ?_
  cases e with
  | report message => cases he.2
  | progress message => trivial
  | startReturned failure => exact he.1
  | run | startAccepted | statusText | guidanceTimeout | reportWatchdog | missingCompass | cancel
  | cancelReturned | vehicleRestart | reset => exact he.1

/-- Once a calibration has started, the reports of its compasses come to the same result in every
order, when their masks hang together: while a compass has not reported the action runs on, and when
the last has, it has succeeded if every report says so and failed otherwise. A report without a mask
is taken for the only one when it comes first. -/
theorem reports_in_any_order {es fs : List Event} (hreports : r.reports ≠ [])
    (hbefore : run step initial es = some s) (hrequested : s.status = .requested)
    (hrun : run step s.handleStartAccepted fs = some t)
    (hinterim : Along step (Interim r) s.handleStartAccepted fs) :
    (r.Linked → (∃ id ∈ r.compassIds, id ∉ reportedIds fs) → t.status = .running) ∧
    (r.Linked → (∀ id ∈ r.compassIds, id ∈ reportedIds fs) → Concluded s.sent r.results t ∧
      t.status = if r.reports.all fun m => m.calStatus = MAG_CAL_STATUS_SUCCESS
        then .succeeded else .failed) ∧
    (reportedIds fs = [] → ∀ m ∈ r.reports, m.calMask = 0 →
      Concluded s.sent [(m.compassId, m.report)] (t.handleMagCalReport m)) := by
  have hfresh : Fresh s := run_invariant (fun s e t h hstep => fresh_step h hstep)
    (fresh_of_ne GuidedActionStatus.noConfusion) hbefore
  refine ⟨?_, ?_, ?_⟩
  · intro hlinked hmissing
    cases stage_run hlinked (stage_started hfresh hrequested hreports) hinterim hrun with
    | waiting h _ _ => exact h.running
    | ended hall _ =>
      obtain ⟨id, hid, hout⟩ := hmissing
      exact absurd (hall id hid) hout
  · intro hlinked hall
    cases stage_run hlinked (stage_started hfresh hrequested hreports) hinterim hrun with
    | waiting _ _ hmissing =>
      obtain ⟨id, hid, hout⟩ := hmissing
      exact absurd (hall id hid) hout
    | ended _ h =>
      refine ⟨h, ?_⟩
      rw [h.status, conclude_status, MagCalRun.results, List.all_map]
      rfl
  · intro hnone m hm hmask
    have hlinked := linked_single hmask
    have hstage := stage_run hlinked (stage_started hfresh hrequested (List.cons_ne_nil _ _))
      (interim_of_unreported hinterim hnone) hrun
    cases stage_report hlinked hstage List.mem_cons_self with
    | ended _ h => exact h
    | waiting _ _ hmissing =>
      obtain ⟨id, hid, hout⟩ := hmissing
      exact absurd (List.mem_append_right _ hid) hout


instance (r : MagCalRun) (s : CompassCalibration) : DecidablePred (Interim r s)
  | .report message => inferInstanceAs (Decidable (message ∈ r.reports))
  | .progress _ => isTrue trivial
  | .startReturned failure => inferInstanceAs (Decidable (failure = none ∧ s.status = .running))
  | .run _ | .startAccepted | .statusText _ | .guidanceTimeout _ | .reportWatchdog ..
  | .missingCompass _ | .cancel _ | .cancelReturned _ | .vehicleRestart | .reset _ => isFalse id

/-- Two compasses, one of which cannot be calibrated; each report carries `mask`. -/
def twoCompasses (mask : UInt8) : MagCalRun where
  reports := [⟨0, mask, MAG_CAL_STATUS_SUCCESS, 1⟩, ⟨1, mask, MAG_CAL_STATUS_FAILED, 0⟩]
  ascending := by simp

def secondFirst : List Event :=
  [.startReturned none, .progress ⟨0, 40, 1⟩, .report ⟨1, 3, MAG_CAL_STATUS_FAILED, 0⟩,
    .report ⟨1, 3, MAG_CAL_STATUS_FAILED, 0⟩, .progress ⟨0, 80, 1⟩,
    .report ⟨0, 3, MAG_CAL_STATUS_SUCCESS, 1⟩]

theorem both_compasses_reported : ∃ t,
    run step (runAction initial none).handleStartAccepted secondFirst = some t ∧
      Concluded [.startMagCal] (twoCompasses 3).results t ∧ t.status = .failed := by
  have hlinked : (twoCompasses 3).Linked := MagCalRun.linked_of_full (by decide)
  have hsome : (run step (runAction initial none).handleStartAccepted secondFirst).isSome = true := by
    decide +kernel
  obtain ⟨t, ht⟩ := Option.isSome_iff_exists.mp hsome
  have hreports : (twoCompasses 3).reports ≠ [] := List.cons_ne_nil _ _
  have hbefore : run step initial [.run none] = some (runAction initial none) := rfl
  have h := (reports_in_any_order hreports hbefore rfl ht (by decide +kernel)).2.1 hlinked
    (by decide)
  exact ⟨t, ht, h.1, h.2⟩

/-- Without masks the report that comes first decides. -/
theorem unmasked_order_matters : ¬ ∀ (r : MagCalRun) (es : List Event) (s t t' : CompassCalibration)
    (first second : List MagCalReportMessage), first.Perm r.reports → second.Perm r.reports →
    run step initial es = some s → s.status = .requested →
    run step s.handleStartAccepted (first.map Event.report) = some t →
    run step s.handleStartAccepted (second.map Event.report) = some t' → t.status = t'.status := by
  intro h
  have heq := h (twoCompasses 0) [.run none] _ _ _ (twoCompasses 0).reports
    (twoCompasses 0).reports.reverse (List.Perm.refl _) (List.reverse_perm _) rfl rfl rfl rfl
  exact absurd heq (by decide +kernel)

end CompassCalibration
end ArduConfigurator.GuidedActions
