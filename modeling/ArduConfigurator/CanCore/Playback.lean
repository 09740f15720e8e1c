import ArduConfigurator.CanCore.Frame
import ArduConfigurator.Lib.BinarySearch
import ArduConfigurator.Lib.RoundingOrder

/-! # Log playback

The player advances a position in log time and asks for the frames between the old position and the
new one. A range leaves out the frames at its first position and has those at its last one, so that
ranges of successive positions meet without a gap or an overlap. -/
namespace ArduConfigurator.CanCore
set_option autoImplicit false

def timeAt (frames : List CanFrame) (test : JsNumber → Bool) (index : ℕ) : Bool :=
  (frames[index]?).any fun frame => test frame.timestampMs

def canFrameIndexAt (frames : List CanFrame) (timestampMs : JsNumber) : ℕ :=
  searchLoop (timeAt frames fun time => time.lt timestampMs) frames.length 0 frames.length

def upperBound (frames : List CanFrame) (timestampMs : JsNumber) : ℕ :=
  searchLoop (timeAt frames fun time => time.le timestampMs) frames.length 0 frames.length

structure CanLogTimeline where
  startMs : JsNumber
  endMs : JsNumber
  durationMs : JsNumber

def canLogTimeline (frames : List CanFrame) : CanLogTimeline :=
  match frames.head?, frames.getLast? with
  | some first, some last =>
    ⟨first.timestampMs, last.timestampMs, last.timestampMs - first.timestampMs⟩
  | _, _ => ⟨0, 0, 0⟩

structure FrameRange where
  fromIndex : ℕ
  toIndex : ℕ

def FrameRange.indices (range : FrameRange) : List ℕ :=
  List.range' range.fromIndex (range.toIndex - range.fromIndex)

def canFramesBetween (frames : List CanFrame) (timeline : CanLogTimeline)
    (fromPositionMs toPositionMs : JsNumber) : FrameRange :=
  let fromIndex :=
    if fromPositionMs.lt 0 then 0 else upperBound frames (timeline.startMs + fromPositionMs)
  let toIndex := upperBound frames (timeline.startMs + toPositionMs)
  ⟨fromIndex, max fromIndex toIndex⟩

def rangesBetween (frames : List CanFrame) (timeline : CanLogTimeline) :
    JsNumber → List JsNumber → List FrameRange
  | _, [] => []
  | position, next :: rest =>
    canFramesBetween frames timeline position next :: rangesBetween frames timeline next rest

/-! ## The searches -/

def InTimeOrder (frames : List CanFrame) : Prop :=
  frames.Pairwise fun f g => f.timestampMs.le g.timestampMs = true

variable {frames : List CanFrame}

theorem timeAt_downClosed (h : InTimeOrder frames) {test : JsNumber → Bool}
    (htest : ∀ t u : JsNumber, t.le u = true → test u = true → test t = true) :
    DownClosed (timeAt frames test) frames.length := by
  intro i j hij hj hvalue
  have hi : i < frames.length := by omega
  rw [timeAt, List.getElem?_eq_getElem hj] at hvalue
  rw [timeAt, List.getElem?_eq_getElem hi]
  obtain rfl | hlt := hij.eq_or_lt
  · exact hvalue
  · exact htest _ _ (List.pairwise_iff_getElem.mp h i j hi hj hlt) hvalue

theorem upperBound_boundary (h : InTimeOrder frames) (time : JsNumber) :
    Boundary (timeAt frames fun t => t.le time) frames.length (upperBound frames time) := by
  apply search_boundary
  apply timeAt_downClosed h
  intro t u htu hu
  exact JsNumber.le_trans htu hu

/-! ## Successive positions -/

/-- The frame at an index is not after a position; before the start none is passed. -/
def passed (frames : List CanFrame) (position : JsNumber) (index : ℕ) : Bool :=
  !position.lt 0 &&
    timeAt frames (fun time => time.le ((canLogTimeline frames).startMs + position)) index

def rangeStart (frames : List CanFrame) (position : JsNumber) : ℕ :=
  (canFramesBetween frames (canLogTimeline frames) position position).fromIndex

theorem rangeStart_boundary (h : InTimeOrder frames) (position : JsNumber) :
    Boundary (passed frames position) frames.length (rangeStart frames position) := by
  cases hbefore : position.lt 0 with
  | true =>
    simp only [rangeStart, canFramesBetween, hbefore, if_true]
    refine ⟨Nat.zero_le _, ?_, ?_⟩
    · intro i hi
      exact absurd hi (Nat.not_lt_zero _)
    · intro i _ _
      simp [passed, hbefore]
  | false =>
    have hbound := upperBound_boundary h ((canLogTimeline frames).startMs + position)
    have hpassed : passed frames position = timeAt frames fun time =>
        time.le ((canLogTimeline frames).startMs + position) := by
      funext i
      simp [passed, hbefore]
    simpa [rangeStart, canFramesBetween, hbefore, hpassed] using hbound

variable {p q : JsNumber}

theorem passed_mono (hstart : (canLogTimeline frames).startMs ≠ .infinite true)
    (hpq : p.le q = true) (hq : q.lt 0 = false) {i : ℕ} (h : passed frames p i = true) :
    passed frames q i = true := by
  simp only [passed, Bool.and_eq_true, timeAt, Option.any_eq_true] at h ⊢
  obtain ⟨-, frame, hframe, hle⟩ := h
  exact ⟨by rw [hq]; rfl, frame, hframe, JsNumber.le_add_of_le hstart hpq hle⟩

theorem rangeStart_mono (h : InTimeOrder frames)
    (hstart : (canLogTimeline frames).startMs ≠ .infinite true) (hpq : p.le q = true)
    (hq : q.lt 0 = false) : rangeStart frames p ≤ rangeStart frames q := by
  apply (rangeStart_boundary h p).mono (rangeStart_boundary h q)
  intro i _ hi
  exact passed_mono hstart hpq hq hi

theorem canFramesBetween_eq (h : InTimeOrder frames)
    (hstart : (canLogTimeline frames).startMs ≠ .infinite true) (hpq : p.le q = true)
    (hq : q.lt 0 = false) :
    canFramesBetween frames (canLogTimeline frames) p q =
      ⟨rangeStart frames p, rangeStart frames q⟩ := by
  have hle := rangeStart_mono h hstart hpq hq
  have hto : rangeStart frames q =
      upperBound frames ((canLogTimeline frames).startMs + q) := by
    simp [rangeStart, canFramesBetween, hq]
  have heq : canFramesBetween frames (canLogTimeline frames) p q =
      ⟨rangeStart frames p, max (rangeStart frames p) (rangeStart frames q)⟩ := by
    rw [hto]
    rfl
  rw [heq, max_eq_right hle]

theorem ranges_meet (h : InTimeOrder frames)
    (hstart : (canLogTimeline frames).startMs ≠ .infinite true) {first next : JsNumber}
    {rest : List JsNumber} (hsteps : (first :: next :: rest).IsChain fun p q => p.le q = true)
    (hplayed : ∀ p ∈ next :: rest, p.lt 0 = false) :
    let ranges := rangesBetween frames (canLogTimeline frames) first (next :: rest)
    ranges.IsChain (fun r s => r.toIndex = s.fromIndex) ∧
      ranges.head?.map FrameRange.fromIndex = some (rangeStart frames first) ∧
      rangeStart frames first ≤ rangeStart frames (rest.getLastD next) ∧
      ranges.flatMap FrameRange.indices = List.range' (rangeStart frames first)
        (rangeStart frames (rest.getLastD next) - rangeStart frames first) := by
  induction rest generalizing first next with
  | nil =>
    have hstep : first.le next = true := by simpa using hsteps
    have hnext := hplayed next List.mem_cons_self
    simp only [rangesBetween, canFramesBetween_eq h hstart hstep hnext]
    refine ⟨List.isChain_singleton _, rfl, rangeStart_mono h hstart hstep hnext, ?_⟩
    simp [FrameRange.indices]
  | cons later rest ih =>
    rw [List.isChain_cons_cons] at hsteps
    have hnext := hplayed next List.mem_cons_self
    obtain ⟨hchain, hhead, hle, hindices⟩ := ih hsteps.2 fun p hp =>
      hplayed p (List.mem_cons_of_mem _ hp)
    have hfirst := rangeStart_mono h hstart hsteps.1 hnext
    have hlast : (later :: rest).getLastD next = rest.getLastD later := List.getLastD_cons
    rw [rangesBetween, canFramesBetween_eq h hstart hsteps.1 hnext, hlast]
    refine ⟨?_, rfl, hfirst.trans hle, ?_⟩
    · rw [List.isChain_cons]
      refine ⟨?_, hchain⟩
      intro s hs
      rw [Option.mem_def] at hs
      rw [hs] at hhead
      exact (Option.some.inj hhead).symm
    · rw [List.flatMap_cons, hindices, FrameRange.indices]
      have hjoin : List.range' (rangeStart frames first)
            (rangeStart frames next - rangeStart frames first) ++
          List.range' (rangeStart frames first +
            1 * (rangeStart frames next - rangeStart frames first))
            (rangeStart frames (rest.getLastD later) - rangeStart frames next) =
          List.range' (rangeStart frames first)
            (rangeStart frames next - rangeStart frames first +
              (rangeStart frames (rest.getLastD later) - rangeStart frames next)) :=
        List.range'_append
      rw [Nat.one_mul, Nat.add_sub_of_le hfirst] at hjoin
      rw [hjoin]
      congr 1
      omega

/-- The ranges of successive positions are adjacent and deliver, once each and in order, the frames
that the last position has passed and the first one has not. From before the start to a position
that has passed them all, that is every frame. -/
theorem playback_partition {frames : List CanFrame} (h : InTimeOrder frames)
    (hstart : (canLogTimeline frames).startMs ≠ .infinite true) {first next : JsNumber}
    {rest : List JsNumber}
    (hsteps : (first :: next :: rest).IsChain fun p q => p.le q = true)
    (hplayed : ∀ p ∈ next :: rest, p.lt 0 = false) :
    let ranges := rangesBetween frames (canLogTimeline frames) first (next :: rest)
    let last := rest.getLastD next
    ranges.IsChain (fun r s => r.toIndex = s.fromIndex) ∧
      ranges.flatMap FrameRange.indices =
        (List.range frames.length).filter
          (fun i => !passed frames first i && passed frames last i) ∧
      (first.lt 0 = true →
        (∀ frame ∈ frames, frame.timestampMs.le ((canLogTimeline frames).startMs + last) = true) →
        ranges.flatMap FrameRange.indices = List.range frames.length) := by
  intro ranges last
  obtain ⟨hchain, -, hle, hindices⟩ := ranges_meet h hstart hsteps hplayed
  have hdelivered : ranges.flatMap FrameRange.indices =
      (List.range frames.length).filter fun i =>
        !passed frames first i && passed frames last i := by
    rw [filter_between (rangeStart_boundary h first) (rangeStart_boundary h last) hle]
    exact hindices
  refine ⟨hchain, hdelivered, ?_⟩
  intro hbefore hreached
  have hlast : last.lt 0 = false := hplayed last List.getLastD_mem_cons
  rw [hdelivered, List.filter_eq_self]
  intro i hi
  rw [List.mem_range] at hi
  have hframe := hreached _ (List.getElem_mem hi)
  simp [passed, hbefore, hlast, timeAt, List.getElem?_eq_getElem hi, hframe]


def frameAtTime (timestampMs : JsNumber) : CanFrame :=
  canFrameFromRawId ⟨timestampMs, 1, 0x10, [], false, .rx⟩

def shortLog : List CanFrame := [frameAtTime 10000, frameAtTime 10000, frameAtTime 10400]

theorem shortLog_inTimeOrder : InTimeOrder shortLog := by
  simp only [InTimeOrder, shortLog, List.pairwise_cons]
  decide +kernel

theorem shortLog_partition :
    (rangesBetween shortLog (canLogTimeline shortLog) (-1) [0, 400]).flatMap FrameRange.indices =
      List.range 3 := by
  obtain ⟨-, -, hevery⟩ := @playback_partition shortLog shortLog_inTimeOrder (by decide +kernel)
    (-1) 0 [400] (by decide +kernel) (by decide +kernel)
  exact hevery (by decide +kernel) (by decide +kernel)

/-- From the start of the log itself, the frames at its first time are not delivered. -/
theorem start_position_skips : InTimeOrder shortLog ∧
    ([0, 400] : List JsNumber).IsChain (fun p q => p.le q = true) ∧
    (canLogTimeline shortLog).durationMs = 400 ∧
    (rangesBetween shortLog (canLogTimeline shortLog) 0 [400]).flatMap FrameRange.indices = [2] ∧
    [2] ≠ List.range shortLog.length :=
  ⟨shortLog_inTimeOrder, by decide +kernel, by decide +kernel, by decide +kernel, by decide⟩

end ArduConfigurator.CanCore
