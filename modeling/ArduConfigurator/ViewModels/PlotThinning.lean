import ArduConfigurator.Lib.BinarySearch
import Mathlib.Data.Finset.Max
import Mathlib.Data.List.GetD
import Mathlib.Tactic.Linarith

/-! # Thinning a series for drawing

Of each bucket of a time range the first, the least, the greatest and the last point are kept. Times
and values are rational numbers, and what is kept is given by the indices. -/
namespace ArduConfigurator.ViewModels.PlotThinning
set_option autoImplicit false

/-! ## The loops -/

def lowerBound (t : List ℚ) (target : ℚ) : ℕ :=
  searchLoop (fun i => decide (t.getD i 0 < target)) t.length 0 t.length

structure Scan where
  index : ℕ
  minI : ℕ
  maxI : ℕ

section Buckets
variable (t v : ℕ → ℚ)

def scanBucket (bucketEnd : ℚ) (first : ℕ) : ℕ → Scan → Scan
  | 0, s => s
  | left + 1, s =>
    if t s.index < bucketEnd ∨ s.index = first then
      scanBucket bucketEnd first left
        { index := s.index + 1
          minI := if v s.index < v s.minI then s.index else s.minI
          maxI := if v s.maxI < v s.index then s.index else s.maxI }
    else s

def skipRepeats : Option ℕ → List ℕ → List ℕ
  | _, [] => []
  | previous, pick :: rest =>
    if previous = some pick then skipRepeats previous rest
    else pick :: skipRepeats (some pick) rest

def picksOf (first : ℕ) (s : Scan) : List ℕ :=
  skipRepeats none
    ([first, s.minI, s.maxI, s.index - 1].mergeSort fun a b => decide (a ≤ b))

variable (fromTime toTime width : ℚ)

def bucketOf (time : ℚ) : ℤ := ((time - fromTime) / width).floor

def bucketEndOf (time : ℚ) : ℚ :=
  if time < fromTime then fromTime
  else
    let next := fromTime + (bucketOf fromTime width time + 1 : ℤ) * width
    if toTime ≤ next then toTime else next

def bucketLoop (stop : ℕ) : ℕ → ℕ → List ℕ
  | 0, _ => []
  | fuel + 1, index =>
    if index < stop then
      let s := scanBucket t v (bucketEndOf fromTime toTime width (t index)) index (stop - index)
        ⟨index, index, index⟩
      picksOf index s ++ bucketLoop stop fuel s.index
    else []

end Buckets

def startOf (t : List ℚ) (fromTime : ℚ) : ℕ :=
  if 0 < lowerBound t fromTime then lowerBound t fromTime - 1 else lowerBound t fromTime

def stopOf (t : List ℚ) (toTime : ℚ) : ℕ :=
  if lowerBound t toTime < t.length then lowerBound t toTime + 1 else lowerBound t toTime

def widthOf (fromTime toTime : ℚ) (buckets : ℕ) : ℚ := (toTime - fromTime) / buckets

def picks (t v : List ℚ) (fromTime toTime : ℚ) (buckets : ℕ) : List ℕ :=
  if t.length = 0 ∨ ¬ fromTime < toTime then []
  else
    let start := startOf t fromTime
    let count := stopOf t toTime - start
    if count ≤ buckets * 4 then List.range' start count
    else
      bucketLoop (fun i => t.getD i 0) (fun i => v.getD i 0) fromTime toTime
        (widthOf fromTime toTime buckets) (stopOf t toTime) count start

structure Thinned where
  t : List ℚ
  v : List ℚ

def decimateMinMax (t v : List ℚ) (fromTime toTime : ℚ) (buckets : ℕ) : Thinned where
  t := (picks t v fromTime toTime buckets).map fun i => t.getD i 0
  v := (picks t v fromTime toTime buckets).map fun i => v.getD i 0

/-! ## The picks of a bucket -/

theorem skipRepeats_sublist (previous : Option ℕ) (l : List ℕ) :
    (skipRepeats previous l).Sublist l := by
  induction l generalizing previous with
  | nil => exact List.Sublist.refl []
  | cons pick rest ih =>
    rw [skipRepeats]
    split_ifs
    · exact (ih previous).cons pick
    · exact (ih (some pick)).cons_cons pick

theorem mem_skipRepeats (previous : Option ℕ) (l : List ℕ) {x : ℕ} (hx : x ∈ l)
    (hne : previous ≠ some x) : x ∈ skipRepeats previous l := by
  induction l generalizing previous with
  | nil => cases hx
  | cons pick rest ih =>
    rw [skipRepeats]
    by_cases heq : x = pick
    · subst heq
      rw [if_neg hne]
      exact List.mem_cons_self
    · have hrest := (List.mem_cons.mp hx).resolve_left heq
      split_ifs with hprevious
      · exact ih previous hrest hne
      · exact List.mem_cons_of_mem _ (ih _ hrest fun h => heq (Option.some.inj h).symm)

theorem skipRepeats_increasing {l : List ℕ} (hl : l.Pairwise (· ≤ ·)) (previous : Option ℕ)
    (hprevious : ∀ p ∈ previous, ∀ x ∈ l, p ≤ x) :
    (skipRepeats previous l).Pairwise (· < ·) ∧
      ∀ p ∈ previous, ∀ x ∈ skipRepeats previous l, p < x := by
  induction l generalizing previous with
  | nil => exact ⟨List.Pairwise.nil, by simp [skipRepeats]⟩
  | cons pick rest ih =>
    obtain ⟨hpick, hrest⟩ := List.pairwise_cons.mp hl
    rw [skipRepeats]
    split_ifs with hsame
    · exact ih hrest previous fun p hp x hx => hprevious p hp x (List.mem_cons_of_mem _ hx)
    · obtain ⟨hinc, habove⟩ := ih hrest (some pick) (by simpa using hpick)
      have habove := habove pick rfl
      refine ⟨List.pairwise_cons.mpr ⟨habove, hinc⟩, fun p hp x hx => ?_⟩
      have hle := hprevious p hp pick List.mem_cons_self
      have hne : p ≠ pick := fun heq => hsame (by rw [← heq]; exact hp)
      rcases List.mem_cons.mp hx with rfl | hx
      · exact lt_of_le_of_ne hle hne
      · exact lt_of_le_of_lt hle (habove x hx)

theorem picksOf_increasing (first : ℕ) (s : Scan) : (picksOf first s).Pairwise (· < ·) := by
  have hsorted := @List.pairwise_mergeSort ℕ (fun a b => decide (a ≤ b))
    (fun a b c hab hbc => by
      rw [decide_eq_true_eq] at hab hbc ⊢
      exact hab.trans hbc)
    (fun a b => by
      rw [Bool.or_eq_true, decide_eq_true_eq, decide_eq_true_eq]
      exact Nat.le_total a b) [first, s.minI, s.maxI, s.index - 1]
  exact (skipRepeats_increasing (hsorted.imp fun h => of_decide_eq_true h) none (by simp)).1

theorem mem_picksOf {first : ℕ} {s : Scan} {x : ℕ} :
    x ∈ picksOf first s ↔ x = first ∨ x = s.minI ∨ x = s.maxI ∨ x = s.index - 1 := by
  have hperm := List.mergeSort_perm [first, s.minI, s.maxI, s.index - 1]
    fun a b => decide (a ≤ b)
  constructor
  · intro hx
    have hmem := hperm.mem_iff.mp ((skipRepeats_sublist _ _).subset hx)
    simpa using hmem
  · intro hx
    exact mem_skipRepeats none _ (hperm.mem_iff.mpr (by simpa using hx)) (by simp)

theorem length_picksOf (first : ℕ) (s : Scan) : (picksOf first s).length ≤ 4 := by
  have hlength := (skipRepeats_sublist none
    ([first, s.minI, s.maxI, s.index - 1].mergeSort fun a b => decide (a ≤ b))).length_le
  rwa [(List.mergeSort_perm _ _).length_eq] at hlength

/-! ## One bucket -/

section Loop
variable {t v : ℕ → ℚ}

/-- What the scan from `first` knows: the points it has passed lie in the bucket, and two of them
are the least and the greatest. -/
structure Scanned (t v : ℕ → ℚ) (bucketEnd : ℚ) (first : ℕ) (s : Scan) : Prop where
  lt : first < s.index
  inside : ∀ i, first < i → i < s.index → t i < bucketEnd
  min_mem : first ≤ s.minI ∧ s.minI < s.index
  max_mem : first ≤ s.maxI ∧ s.maxI < s.index
  min_le : ∀ i, first ≤ i → i < s.index → v s.minI ≤ v i
  le_max : ∀ i, first ≤ i → i < s.index → v i ≤ v s.maxI

theorem Scanned.next {bucketEnd : ℚ} {first : ℕ} {s : Scan}
    (h : Scanned t v bucketEnd first s) (hinside : t s.index < bucketEnd) :
    Scanned t v bucketEnd first
      { index := s.index + 1
        minI := if v s.index < v s.minI then s.index else s.minI
        maxI := if v s.maxI < v s.index then s.index else s.maxI } where
  lt := by
    have hlt := h.lt
    dsimp only
    omega
  inside := by
    intro i hi hlt
    by_cases heq : i = s.index
    · rw [heq]
      exact hinside
    · exact h.inside i hi (by dsimp only at hlt; omega)
  min_mem := by
    have hlt := h.lt
    have hmem := h.min_mem
    dsimp only
    split_ifs <;> omega
  max_mem := by
    have hlt := h.lt
    have hmem := h.max_mem
    dsimp only
    split_ifs <;> omega
  min_le := by
    intro i hi hlt
    dsimp only at hlt ⊢
    by_cases heq : i = s.index
    · subst heq
      split_ifs with hless
      · exact le_rfl
      · exact not_lt.mp hless
    · have hle := h.min_le i hi (by omega)
      split_ifs with hless
      · exact hless.le.trans hle
      · exact hle
  le_max := by
    intro i hi hlt
    dsimp only at hlt ⊢
    by_cases heq : i = s.index
    · subst heq
      split_ifs with hless
      · exact le_rfl
      · exact not_lt.mp hless
    · have hle := h.le_max i hi (by omega)
      split_ifs with hless
      · exact hle.trans hless.le
      · exact hle

theorem scanBucket_scanned {bucketEnd : ℚ} {first left : ℕ} {s : Scan}
    (h : Scanned t v bucketEnd first s) :
    Scanned t v bucketEnd first (scanBucket t v bucketEnd first left s) ∧
      (scanBucket t v bucketEnd first left s).index ≤ s.index + left ∧
        ((scanBucket t v bucketEnd first left s).index < s.index + left →
          bucketEnd ≤ t (scanBucket t v bucketEnd first left s).index) := by
  induction left generalizing s with
  | zero => exact ⟨h, Nat.le_refl _, fun hlt => absurd hlt (Nat.lt_irrefl _)⟩
  | succ left ih =>
    have hlt := h.lt
    rw [scanBucket]
    by_cases hin : t s.index < bucketEnd ∨ s.index = first
    · rw [if_pos hin]
      obtain ⟨hscanned, hle, hend⟩ := ih (h.next (hin.resolve_right (by omega)))
      dsimp only at hle hend
      exact ⟨hscanned, by omega, fun h => hend (by omega)⟩
    · rw [if_neg hin]
      exact ⟨h, by omega, fun _ => not_lt.mp fun hless => hin (Or.inl hless)⟩

theorem scanBucket_first (bucketEnd : ℚ) {first stop : ℕ} (hlt : first < stop) :
    let s := scanBucket t v bucketEnd first (stop - first) ⟨first, first, first⟩
    Scanned t v bucketEnd first s ∧ s.index ≤ stop ∧
      (s.index < stop → bucketEnd ≤ t s.index) := by
  obtain ⟨left, hleft⟩ : ∃ left, stop - first = left + 1 := ⟨stop - first - 1, by omega⟩
  have hone : Scanned t v bucketEnd first ⟨first + 1, first, first⟩ := by
    constructor
    · exact Nat.lt_succ_self first
    · intro i hi hlt
      dsimp only at hlt
      omega
    · exact ⟨le_rfl, Nat.lt_succ_self first⟩
    · exact ⟨le_rfl, Nat.lt_succ_self first⟩
    · intro i hi hlt
      obtain rfl : i = first := by
        dsimp only at hlt
        omega
      exact le_rfl
    · intro i hi hlt
      obtain rfl : i = first := by
        dsimp only at hlt
        omega
      exact le_rfl
  have hscan := @scanBucket_scanned t v bucketEnd first left _ hone
  rw [hleft, scanBucket, if_pos (Or.inr rfl)]
  simp only [lt_self_iff_false, if_false]
  obtain ⟨hscanned, hle, hend⟩ := hscan
  dsimp only at hle hend
  exact ⟨hscanned, by omega, fun h => hend (by omega)⟩

variable {fromTime toTime width : ℚ} {stop : ℕ}

/-! ## All buckets -/

theorem bucketLoop_fuel {fuel more index : ℕ} (h : stop - index ≤ fuel) :
    bucketLoop t v fromTime toTime width stop (fuel + more) index =
      bucketLoop t v fromTime toTime width stop fuel index := by
  induction fuel generalizing index with
  | zero =>
    cases more with
    | zero => rfl
    | succ more =>
      rw [Nat.zero_add, bucketLoop, bucketLoop, if_neg (by omega)]
  | succ fuel ih =>
    rw [Nat.add_right_comm, bucketLoop, bucketLoop]
    split_ifs with hlt
    · have hscan := @scanBucket_first t v (bucketEndOf fromTime toTime width (t index)) _ _ hlt
      have hnext := hscan.1.lt
      dsimp only at hnext ⊢
      rw [ih (by omega)]
    · rfl

theorem bucketLoop_cons {fuel index : ℕ} (hlt : index < stop) (hfuel : stop - index ≤ fuel + 1) :
    ∃ s, Scanned t v (bucketEndOf fromTime toTime width (t index)) index s ∧ s.index ≤ stop ∧
      (s.index < stop → bucketEndOf fromTime toTime width (t index) ≤ t s.index) ∧
      stop - s.index ≤ fuel ∧
      bucketLoop t v fromTime toTime width stop (fuel + 1) index =
        picksOf index s ++ bucketLoop t v fromTime toTime width stop fuel s.index := by
  have hscan := @scanBucket_first t v (bucketEndOf fromTime toTime width (t index)) _ _ hlt
  refine ⟨_, hscan.1, hscan.2.1, hscan.2.2, ?_, ?_⟩
  · have hnext := hscan.1.lt
    omega
  · rw [bucketLoop, if_pos hlt]

theorem picksOf_mem_scanned {bucketEnd : ℚ} {first : ℕ} {s : Scan}
    (h : Scanned t v bucketEnd first s) {x : ℕ} (hx : x ∈ picksOf first s) :
    first ≤ x ∧ x < s.index := by
  have hlt := h.lt
  have hmin := h.min_mem
  have hmax := h.max_mem
  rcases mem_picksOf.mp hx with rfl | rfl | rfl | rfl <;> omega

theorem bucketLoop_increasing {fuel index : ℕ} (hfuel : stop - index ≤ fuel) :
    (bucketLoop t v fromTime toTime width stop fuel index).Pairwise (· < ·) ∧
      ∀ x ∈ bucketLoop t v fromTime toTime width stop fuel index, index ≤ x ∧ x < stop := by
  induction fuel generalizing index with
  | zero => exact ⟨List.Pairwise.nil, by simp [bucketLoop]⟩
  | succ fuel ih =>
    by_cases hlt : index < stop
    · obtain ⟨s, hs, hstop, -, hleft, heq⟩ := @bucketLoop_cons t v fromTime toTime width stop _ _
        hlt hfuel
      obtain ⟨hinc, hmem⟩ := ih hleft
      have hnext := hs.lt
      rw [heq]
      refine ⟨List.pairwise_append.mpr ⟨picksOf_increasing index s, hinc, fun a ha b hb => ?_⟩,
        fun x hx => ?_⟩
      · exact lt_of_lt_of_le (picksOf_mem_scanned hs ha).2 (hmem b hb).1
      · rcases List.mem_append.mp hx with hx | hx
        · have hx := picksOf_mem_scanned hs hx
          omega
        · have hx := hmem x hx
          omega
    · rw [bucketLoop, if_neg hlt]
      exact ⟨List.Pairwise.nil, by simp⟩

/-! ## What the picks keep -/

theorem bucketOf_lt_iff (hwidth : 0 < width) {time : ℚ} {z : ℤ} :
    bucketOf fromTime width time < z ↔ time < fromTime + z * width := by
  rw [bucketOf, Rat.floor_lt_iff, div_lt_iff₀ hwidth, sub_lt_iff_lt_add']

theorem bucketEndOf_of_before {time : ℚ} (h : time < fromTime) :
    bucketEndOf fromTime toTime width time = fromTime := if_pos h

theorem lt_of_lt_bucketEndOf {time x : ℚ} (htime : fromTime ≤ time)
    (hx : x < bucketEndOf fromTime toTime width time) :
    x < toTime ∧ x < fromTime + (bucketOf fromTime width time + 1 : ℤ) * width := by
  rw [bucketEndOf, if_neg (not_lt.mpr htime)] at hx
  dsimp only at hx
  split_ifs at hx with hend
  · exact ⟨hx, lt_of_lt_of_le hx hend⟩
  · exact ⟨hx.trans (not_le.mp hend), hx⟩

theorem le_of_bucketEndOf_le {time x : ℚ} (htime : fromTime ≤ time) (hx : x < toTime)
    (hend : bucketEndOf fromTime toTime width time ≤ x) :
    fromTime + (bucketOf fromTime width time + 1 : ℤ) * width ≤ x := by
  rw [bucketEndOf, if_neg (not_lt.mpr htime)] at hend
  dsimp only at hend
  split_ifs at hend
  · exact absurd hend (not_le.mpr hx)
  · exact hend

variable (hmono : ∀ i j, i ≤ j → j < stop → t i ≤ t j)
include hmono

theorem scanned_inRange {first : ℕ} {s : Scan}
    (hs : Scanned t v (bucketEndOf fromTime toTime width (t first)) first s)
    (hstop : s.index ≤ stop) {a p : ℕ} (ha : first ≤ a ∧ a < s.index)
    (hin : fromTime ≤ t a ∧ t a ≤ toTime)
    (hp : first ≤ p ∧ p < s.index) : fromTime ≤ t p ∧ t p ≤ toTime := by
  have hfirst : fromTime ≤ t first := by
    by_contra hbefore
    have hend := @bucketEndOf_of_before fromTime toTime width _ (not_le.mp hbefore)
    rcases Nat.eq_or_lt_of_le ha.1 with rfl | hlt
    · exact hbefore hin.1
    · have hinside := hs.inside a hlt ha.2
      rw [hend] at hinside
      exact absurd hin.1 (not_le.mpr hinside)
  refine ⟨hfirst.trans (hmono first p hp.1 (by omega)), ?_⟩
  rcases Nat.eq_or_lt_of_le hp.1 with rfl | hlt
  · exact (hmono first a ha.1 (by omega)).trans hin.2
  · exact (lt_of_lt_bucketEndOf hfirst (hs.inside p hlt hp.2)).1.le

theorem bucketLoop_extremes {fuel index : ℕ}
    (hfuel : stop - index ≤ fuel) {a : ℕ} (ha : index ≤ a) (hastop : a < stop)
    (hin : fromTime ≤ t a ∧ t a ≤ toTime) :
    (∃ p ∈ bucketLoop t v fromTime toTime width stop fuel index,
      (fromTime ≤ t p ∧ t p ≤ toTime) ∧ v p ≤ v a) ∧
    (∃ p ∈ bucketLoop t v fromTime toTime width stop fuel index,
      (fromTime ≤ t p ∧ t p ≤ toTime) ∧ v a ≤ v p) := by
  induction fuel generalizing index with
  | zero => omega
  | succ fuel ih =>
    have hlt : index < stop := by omega
    obtain ⟨s, hs, hstop, -, hleft, heq⟩ := @bucketLoop_cons t v fromTime toTime width stop _ _
      hlt hfuel
    rw [heq]
    by_cases hscan : a < s.index
    · have hall := @scanned_inRange t v fromTime toTime width stop hmono index s hs hstop a
      constructor
      · refine ⟨s.minI, List.mem_append_left _ (mem_picksOf.mpr (Or.inr (Or.inl rfl))), ?_⟩
        exact ⟨hall ⟨ha, hscan⟩ hin hs.min_mem, hs.min_le a ha hscan⟩
      · refine ⟨s.maxI, List.mem_append_left _ (mem_picksOf.mpr (Or.inr (Or.inr (Or.inl rfl)))), ?_⟩
        exact ⟨hall ⟨ha, hscan⟩ hin hs.max_mem, hs.le_max a ha hscan⟩
    · obtain ⟨⟨p, hp, hpr⟩, ⟨q, hq, hqr⟩⟩ := ih hleft (not_lt.mp hscan)
      exact ⟨⟨p, List.mem_append_right _ hp, hpr⟩, ⟨q, List.mem_append_right _ hq, hqr⟩⟩

theorem bucketLoop_count (hwidth : 0 < width) (k : ℤ) {fuel index : ℕ}
    (hfuel : stop - index ≤ fuel) :
    ((bucketLoop t v fromTime toTime width stop fuel index).filter fun p =>
      decide (fromTime ≤ t p ∧ t p < toTime ∧ bucketOf fromTime width (t p) = k)).length ≤ 4 := by
  induction fuel generalizing index with
  | zero => simp [bucketLoop]
  | succ fuel ih =>
    by_cases hlt : index < stop
    · obtain ⟨s, hs, hstop, hend, hleft, heq⟩ := @bucketLoop_cons t v fromTime toTime width stop
        _ _ hlt hfuel
      rw [heq, List.filter_append, List.length_append]
      by_cases hhere : fromTime ≤ t index ∧ bucketOf fromTime width (t index) = k
      · have hrest : (bucketLoop t v fromTime toTime width stop fuel s.index).filter (fun p =>
            decide (fromTime ≤ t p ∧ t p < toTime ∧ bucketOf fromTime width (t p) = k)) = [] := by
          rw [List.filter_eq_nil_iff]
          intro p hp hin
          obtain ⟨-, hbefore, hk⟩ := of_decide_eq_true hin
          obtain ⟨hle, hpstop⟩ := (bucketLoop_increasing hleft).2 p hp
          have hpast := (hend (by omega)).trans (hmono s.index p hle hpstop)
          have hpast := le_of_bucketEndOf_le hhere.1 hbefore hpast
          rw [hhere.2] at hpast
          have hnot := mt (bucketOf_lt_iff hwidth).mp (not_lt.mpr hpast)
          omega
        have hpicks := (List.length_filter_le (fun p =>
          decide (fromTime ≤ t p ∧ t p < toTime ∧ bucketOf fromTime width (t p) = k))
            (picksOf index s)).trans (length_picksOf index s)
        rw [hrest, List.length_nil]
        exact hpicks
      · have hpicks : (picksOf index s).filter (fun p =>
            decide (fromTime ≤ t p ∧ t p < toTime ∧ bucketOf fromTime width (t p) = k)) = [] := by
          rw [List.filter_eq_nil_iff]
          intro p hp hin
          obtain ⟨hfrom, -, hk⟩ := of_decide_eq_true hin
          obtain ⟨hle, hpindex⟩ := picksOf_mem_scanned hs hp
          rcases Nat.eq_or_lt_of_le hle with rfl | hafter
          · exact hhere ⟨hfrom, hk⟩
          · have hinside := hs.inside p hafter hpindex
            by_cases hfirst : fromTime ≤ t index
            · have hbelow := (bucketOf_lt_iff hwidth).mpr (lt_of_lt_bucketEndOf hfirst hinside).2
              have hmonotone :
                  bucketOf fromTime width (t index) ≤ bucketOf fromTime width (t p) := by
                apply Rat.floor_monotone
                apply div_le_div_of_nonneg_right _ hwidth.le
                exact sub_le_sub_right (hmono index p hle (by omega)) _
              exact hhere ⟨hfirst, by omega⟩
            · rw [bucketEndOf_of_before (not_le.mp hfirst)] at hinside
              exact absurd hfrom (not_le.mpr hinside)
        rw [hpicks, List.length_nil, Nat.zero_add]
        exact ih hleft
    · rw [bucketLoop, if_neg hlt]
      exact Nat.zero_le _

end Loop

/-! ## The whole series -/

section Series
variable {t : List ℚ} (v : List ℚ) {fromTime toTime : ℚ}

theorem getD_le (hmono : t.Pairwise (· ≤ ·)) {i j : ℕ} (hij : i ≤ j) (hj : j < t.length) :
    t.getD i 0 ≤ t.getD j 0 := by
  rw [List.getD_eq_getElem _ _ (hij.trans_lt hj), List.getD_eq_getElem _ _ hj]
  rcases Nat.eq_or_lt_of_le hij with rfl | hlt
  · exact le_rfl
  · exact List.pairwise_iff_getElem.mp hmono i j _ hj hlt

theorem lowerBound_boundary (hmono : t.Pairwise (· ≤ ·)) (target : ℚ) :
    Boundary (fun i => decide (t.getD i 0 < target)) t.length (lowerBound t target) := by
  apply search_boundary
  intro i j hij hj hless
  rw [decide_eq_true_eq] at hless ⊢
  exact lt_of_le_of_lt (getD_le hmono hij hj) hless

theorem lt_lowerBound_iff (hmono : t.Pairwise (· ≤ ·)) {target : ℚ} {i : ℕ} (hi : i < t.length) :
    i < lowerBound t target ↔ t.getD i 0 < target := by
  have h := lowerBound_boundary hmono target
  constructor
  · exact fun hlt => of_decide_eq_true (h.below i hlt)
  · intro hless
    by_contra hnot
    have habove := h.above i (not_lt.mp hnot) hi
    rw [decide_eq_false_iff_not] at habove
    exact habove hless

def InRange (t : List ℚ) (fromTime toTime : ℚ) (i : ℕ) : Prop :=
  i < t.length ∧ fromTime ≤ t.getD i 0 ∧ t.getD i 0 ≤ toTime

/-- Next to the range: the last point before it, or the first one behind it. -/
def NextToRange (t : List ℚ) (fromTime toTime : ℚ) (i : ℕ) : Prop :=
  i < t.length ∧
    (t.getD i 0 < fromTime ∧ (∀ j, i < j → j < t.length → fromTime ≤ t.getD j 0) ∨
      toTime < t.getD i 0 ∧ ∀ j, j < i → t.getD j 0 < toTime)

def window (t : List ℚ) (fromTime toTime : ℚ) : List ℕ :=
  List.range' (startOf t fromTime) (stopOf t toTime - startOf t fromTime)

theorem mem_window {i : ℕ} :
    i ∈ window t fromTime toTime ↔ startOf t fromTime ≤ i ∧ i < stopOf t toTime := by
  rw [window, List.mem_range'_1]
  omega

theorem stopOf_le (hmono : t.Pairwise (· ≤ ·)) : stopOf t toTime ≤ t.length := by
  have hle := (lowerBound_boundary hmono toTime).le
  unfold stopOf
  split_ifs <;> omega

theorem near_of_window (hmono : t.Pairwise (· ≤ ·)) {i : ℕ}
    (hi : i ∈ window t fromTime toTime) :
    InRange t fromTime toTime i ∨ NextToRange t fromTime toTime i := by
  rw [mem_window] at hi
  have hlt : i < t.length := hi.2.trans_le (stopOf_le hmono)
  have hfrom := @lt_lowerBound_iff t hmono fromTime
  have hto := @lt_lowerBound_iff t hmono toTime
  by_cases hbefore : t.getD i 0 < fromTime
  · refine Or.inr ⟨hlt, Or.inl ⟨hbefore, fun j hij hj => ?_⟩⟩
    have hbound := (hfrom hlt).mpr hbefore
    have hstart := hi.1
    unfold startOf at hstart
    rw [if_pos (by omega)] at hstart
    exact not_lt.mp (mt (hfrom hj).mpr (by omega))
  · by_cases hafter : toTime < t.getD i 0
    · refine Or.inr ⟨hlt, Or.inr ⟨hafter, fun j hji => ?_⟩⟩
      have hbound := mt (hto hlt).mp (not_lt.mpr hafter.le)
      have hstop := hi.2
      unfold stopOf at hstop
      split_ifs at hstop <;> exact (hto (by omega)).mp (by omega)
    · exact Or.inl ⟨hlt, not_lt.mp hbefore, not_lt.mp hafter⟩

theorem window_of_inRange (hmono : t.Pairwise (· ≤ ·)) {i : ℕ}
    (hi : InRange t fromTime toTime i) :
    i ∈ window t fromTime toTime ↔ i ≤ lowerBound t toTime := by
  have hnot := mt (lt_lowerBound_iff hmono hi.1).mp (not_lt.mpr hi.2.1)
  have hn := hi.1
  rw [mem_window]
  unfold startOf stopOf
  split_ifs <;> omega

/-- What the thinning promises: its points are those of the series at the indices it keeps. -/
structure Keeps (t v : List ℚ) (fromTime toTime : ℚ) (buckets : ℕ) : Prop where
  points : decimateMinMax t v fromTime toTime buckets =
    ⟨(picks t v fromTime toTime buckets).map fun i => t.getD i 0,
      (picks t v fromTime toTime buckets).map fun i => v.getD i 0⟩
  terminates : ∀ more, bucketLoop (fun i => t.getD i 0) (fun i => v.getD i 0) fromTime toTime
      (widthOf fromTime toTime buckets) (stopOf t toTime)
        (stopOf t toTime - startOf t fromTime + more) (startOf t fromTime) =
    bucketLoop (fun i => t.getD i 0) (fun i => v.getD i 0) fromTime toTime
      (widthOf fromTime toTime buckets) (stopOf t toTime)
        (stopOf t toTime - startOf t fromTime) (startOf t fromTime)
  increasing : (picks t v fromTime toTime buckets).Pairwise (· < ·)
  near : ∀ i ∈ picks t v fromTime toTime buckets,
    InRange t fromTime toTime i ∨ NextToRange t fromTime toTime i
  few : picks t v fromTime toTime buckets = window t fromTime toTime ∨
    ∀ k : ℤ, ((picks t v fromTime toTime buckets).filter fun p =>
      decide (fromTime ≤ t.getD p 0 ∧ t.getD p 0 < toTime ∧
        bucketOf fromTime (widthOf fromTime toTime buckets) (t.getD p 0) = k)).length ≤ 4
  numbered : ∀ time, fromTime ≤ time → time < toTime →
    0 ≤ bucketOf fromTime (widthOf fromTime toTime buckets) time ∧
      bucketOf fromTime (widthOf fromTime toTime buckets) time < buckets
  least : (∃ i, InRange t fromTime toTime i) →
    ∃ p ∈ picks t v fromTime toTime buckets, InRange t fromTime toTime p ∧
      ∀ i, InRange t fromTime toTime i → v.getD p 0 ≤ v.getD i 0
  greatest : (∃ i, InRange t fromTime toTime i) →
    ∃ p ∈ picks t v fromTime toTime buckets, InRange t fromTime toTime p ∧
      ∀ i, InRange t fromTime toTime i → v.getD i 0 ≤ v.getD p 0

/-- No point at the end of the range, behind the first one there, lies below or above all points of
the range up to that one. -/
def EndCovered (t v : List ℚ) (fromTime toTime : ℚ) : Prop :=
  ∀ i, lowerBound t toTime < i → InRange t fromTime toTime i →
    (∃ a, a ≤ lowerBound t toTime ∧ InRange t fromTime toTime a ∧ v.getD a 0 ≤ v.getD i 0) ∧
    (∃ b, b ≤ lowerBound t toTime ∧ InRange t fromTime toTime b ∧ v.getD i 0 ≤ v.getD b 0)

variable {v} {buckets : ℕ}

theorem picks_spec (hmono : t.Pairwise (· ≤ ·)) (hrange : fromTime < toTime) (hne : t ≠ []) :
    (picks t v fromTime toTime buckets).Pairwise (· < ·) ∧
      (∀ i ∈ picks t v fromTime toTime buckets, i ∈ window t fromTime toTime) ∧
      ∀ a, InRange t fromTime toTime a → a ∈ window t fromTime toTime →
        (∃ p ∈ picks t v fromTime toTime buckets, InRange t fromTime toTime p ∧
          v.getD p 0 ≤ v.getD a 0) ∧
        (∃ p ∈ picks t v fromTime toTime buckets, InRange t fromTime toTime p ∧
          v.getD a 0 ≤ v.getD p 0) := by
  have hopen : ¬ (t.length = 0 ∨ ¬ fromTime < toTime) := by
    rintro (hlength | hnot)
    · exact hne (List.length_eq_zero_iff.mp hlength)
    · exact hnot hrange
  rw [picks, if_neg hopen]
  dsimp only
  split_ifs with hfew
  · exact ⟨List.pairwise_lt_range', fun i hi => hi, fun a ha hwindow =>
      ⟨⟨a, hwindow, ha, le_rfl⟩, ⟨a, hwindow, ha, le_rfl⟩⟩⟩
  · have hstop := @stopOf_le t toTime hmono
    have hloop := @bucketLoop_increasing (fun i => t.getD i 0) (fun i => v.getD i 0) fromTime toTime
      (widthOf fromTime toTime buckets) (stopOf t toTime) _ (startOf t fromTime) le_rfl
    refine ⟨hloop.1, fun i hi => mem_window.mpr (hloop.2 i hi), fun a ha hwindow => ?_⟩
    rw [mem_window] at hwindow
    obtain ⟨⟨p, hp, hpin, hpv⟩, ⟨q, hq, hqin, hqv⟩⟩ :=
      @bucketLoop_extremes (fun i => t.getD i 0) (fun i => v.getD i 0) fromTime toTime
        (widthOf fromTime toTime buckets) (stopOf t toTime)
        (fun i j hij hj => getD_le hmono hij (hj.trans_le hstop)) _ (startOf t fromTime)
        le_rfl a hwindow.1 hwindow.2 ha.2
    exact ⟨⟨p, hp, ⟨(hloop.2 p hp).2.trans_le hstop, hpin⟩, hpv⟩,
      ⟨q, hq, ⟨(hloop.2 q hq).2.trans_le hstop, hqin⟩, hqv⟩⟩

theorem widthOf_pos (hrange : fromTime < toTime) (hbuckets : 0 < buckets) :
    0 < widthOf fromTime toTime buckets :=
  div_pos (sub_pos.mpr hrange) (by exact_mod_cast hbuckets)

theorem bucketOf_numbered (hrange : fromTime < toTime) (hbuckets : 0 < buckets) {time : ℚ}
    (hfrom : fromTime ≤ time) (hto : time < toTime) :
    0 ≤ bucketOf fromTime (widthOf fromTime toTime buckets) time ∧
      bucketOf fromTime (widthOf fromTime toTime buckets) time < buckets := by
  have hwidth := widthOf_pos hrange hbuckets
  have hpos : (buckets : ℚ) ≠ 0 := by exact_mod_cast hbuckets.ne'
  constructor
  · have hnot := mt (bucketOf_lt_iff hwidth).mp (not_lt.mpr (by simpa using hfrom) :
      ¬ time < fromTime + (0 : ℤ) * widthOf fromTime toTime buckets)
    omega
  · rw [bucketOf_lt_iff hwidth, widthOf, Int.cast_natCast, mul_div_cancel₀ _ hpos]
    linarith

theorem picks_few (hmono : t.Pairwise (· ≤ ·)) (hrange : fromTime < toTime)
    (hbuckets : 0 < buckets) (hne : t ≠ []) :
    picks t v fromTime toTime buckets = window t fromTime toTime ∨
      ∀ k : ℤ, ((picks t v fromTime toTime buckets).filter fun p =>
        decide (fromTime ≤ t.getD p 0 ∧ t.getD p 0 < toTime ∧
          bucketOf fromTime (widthOf fromTime toTime buckets) (t.getD p 0) = k)).length ≤ 4 := by
  have hopen : ¬ (t.length = 0 ∨ ¬ fromTime < toTime) := by
    rintro (hlength | hnot)
    · exact hne (List.length_eq_zero_iff.mp hlength)
    · exact hnot hrange
  rw [picks, if_neg hopen]
  dsimp only
  split_ifs with hfew
  · exact Or.inl rfl
  · have hstop := @stopOf_le t toTime hmono
    exact Or.inr fun k => @bucketLoop_count (fun i => t.getD i 0) (fun i => v.getD i 0) fromTime
      toTime (widthOf fromTime toTime buckets) (stopOf t toTime)
      (fun i j hij hj => getD_le hmono hij (hj.trans_le hstop)) (widthOf_pos hrange hbuckets) k _
      (startOf t fromTime) le_rfl

theorem exists_window_inRange (hmono : t.Pairwise (· ≤ ·))
    (h : ∃ i, InRange t fromTime toTime i) :
    ∃ i, InRange t fromTime toTime i ∧ i ∈ window t fromTime toTime := by
  obtain ⟨i, hi⟩ := h
  by_cases hle : i ≤ lowerBound t toTime
  · exact ⟨i, hi, (window_of_inRange hmono hi).mpr hle⟩
  · have hlt := not_le.mp hle
    have hin : InRange t fromTime toTime (lowerBound t toTime) := by
      have hn : lowerBound t toTime < t.length := hlt.trans hi.1
      have hend := not_lt.mp (mt (lt_lowerBound_iff hmono hn).mpr (lt_irrefl _))
      have hbelow := (getD_le hmono hlt.le hi.1).trans hi.2.2
      exact ⟨hn, hi.2.1.trans (hi.2.2.trans hend), hbelow⟩
    exact ⟨_, hin, (window_of_inRange hmono hin).mpr le_rfl⟩

open Classical in
theorem exists_extreme (hmono : t.Pairwise (· ≤ ·)) (f : ℕ → ℚ) {ps : List ℕ}
    (hpicks : ∀ a, InRange t fromTime toTime a → a ∈ window t fromTime toTime →
      ∃ p ∈ ps, InRange t fromTime toTime p ∧ f p ≤ f a)
    (h : ∃ i, InRange t fromTime toTime i)
    (hend : ∀ i, lowerBound t toTime < i → InRange t fromTime toTime i →
      ∃ a, a ≤ lowerBound t toTime ∧ InRange t fromTime toTime a ∧ f a ≤ f i) :
    ∃ p ∈ ps, InRange t fromTime toTime p ∧ ∀ i, InRange t fromTime toTime i → f p ≤ f i := by
  obtain ⟨i, hi, hwindow⟩ := exists_window_inRange hmono h
  obtain ⟨m, hm, hleast⟩ := ((window t fromTime toTime).toFinset.filter
    (InRange t fromTime toTime)).exists_min_image f ⟨i, by simp [hi, hwindow]⟩
  rw [Finset.mem_filter, List.mem_toFinset] at hm
  obtain ⟨p, hp, hpin, hle⟩ := hpicks m hm.2 hm.1
  have hdrawn : ∀ a, a ≤ lowerBound t toTime → InRange t fromTime toTime a → f p ≤ f a :=
    fun a ha hain => hle.trans (hleast a (by
      rw [Finset.mem_filter, List.mem_toFinset]
      exact ⟨(window_of_inRange hmono hain).mpr ha, hain⟩))
  refine ⟨p, hp, hpin, fun i hi => ?_⟩
  by_cases hbound : i ≤ lowerBound t toTime
  · exact hdrawn i hbound hi
  · obtain ⟨a, ha, hain, hai⟩ := hend i (not_le.mp hbound) hi
    exact (hdrawn a ha hain).trans hai

end Series

end ArduConfigurator.ViewModels.PlotThinning
