import ArduConfigurator.CanCore.Frame

/-! # The capture ring

The ring keeps the newest `capacity` frames and gives every frame a sequence number of its own. Seen
from outside it is the list of the frames pushed since the last clear, cut to its last `capacity`
entries. -/
namespace ArduConfigurator.CanCore
open scoped NNRat
set_option autoImplicit false

structure CanCaptureBuffer where
  capacity : ℕ
  ring : List (Option CanFrame)
  head : ℕ
  count : ℕ
  nextSeq : ℕ
  overwritten : ℕ
  capacity_pos : 0 < capacity
  ring_length : ring.length = capacity
  head_lt : head < capacity
  count_le : count ≤ capacity

inductive CaptureError
  /-- `CanCaptureBuffer capacity must be a positive integer.` -/
  | capacityNotPositive
  /-- `Invalid array length`. -/
  | invalidArrayLength

namespace CanCaptureBuffer

def empty (capacity : ℕ) (h : 0 < capacity) : CanCaptureBuffer where
  capacity := capacity
  ring := List.replicate capacity none
  head := 0
  count := 0
  nextSeq := 1
  overwritten := 0
  capacity_pos := h
  ring_length := List.length_replicate
  head_lt := h
  count_le := Nat.zero_le _

theorem toNat_pos_of_not_le {n : ℤ} (h : ¬n ≤ 0) : 0 < n.toNat := by omega

/-- `new CanCaptureBuffer(capacity)`. -/
def new (capacity : JsNumber) : Except CaptureError CanCaptureBuffer :=
  match capacity.toInt? with
  | none => .error .capacityNotPositive
  | some n =>
    if h : n ≤ 0 then .error .capacityNotPositive
    else if 2 ^ 32 ≤ n then .error .invalidArrayLength
    else .ok (empty n.toNat (toNat_pos_of_not_le h))

def push (buffer : CanCaptureBuffer) (frame : CanFrame) : CanCaptureBuffer × CanFrame :=
  let stored := { frame with seq := buffer.nextSeq }
  ({ capacity := buffer.capacity
     ring := buffer.ring.set buffer.head (some stored)
     head := (buffer.head + 1) % buffer.capacity
     count := if buffer.count < buffer.capacity then buffer.count + 1 else buffer.count
     nextSeq := buffer.nextSeq + 1
     overwritten :=
       if buffer.count < buffer.capacity then buffer.overwritten else buffer.overwritten + 1
     capacity_pos := buffer.capacity_pos
     ring_length := by rw [List.length_set, buffer.ring_length]
     head_lt := Nat.mod_lt _ buffer.capacity_pos
     count_le := by have h := buffer.count_le; split <;> omega }, stored)

def size (buffer : CanCaptureBuffer) : ℕ := buffer.count

def totalCaptured (buffer : CanCaptureBuffer) : ℕ := buffer.nextSeq - 1

def droppedOldest (buffer : CanCaptureBuffer) : ℕ := buffer.overwritten

def lastSeq (buffer : CanCaptureBuffer) : ℕ := if buffer.count = 0 then 0 else buffer.nextSeq - 1

def oldest (buffer : CanCaptureBuffer) : ℕ :=
  (buffer.head + buffer.capacity - buffer.count) % buffer.capacity

def «at» (buffer : CanCaptureBuffer) (index : ℤ) : Option CanFrame :=
  if index < 0 ∨ (buffer.count : ℤ) ≤ index then none
  else buffer.ring.getD ((buffer.oldest + index.toNat) % buffer.capacity) none

/-- What `forEach` visits; `undefined` where a cell is empty. -/
def toArray (buffer : CanCaptureBuffer) : List (Option CanFrame) :=
  (List.range buffer.count).map fun index : ℕ => buffer.at index

/-- `frame.seq <= afterSeq`. -/
def seqAtMost (frame : CanFrame) (afterSeq : JsNumber) : Bool :=
  JsNumber.le (.finite false (frame.seq : ℚ≥0)) afterSeq

/-- The loop of `since` with so many indices left; none where it reads the number of an empty
cell. -/
def sinceLoop (buffer : CanCaptureBuffer) (afterSeq : JsNumber) :
    ℕ → List CanFrame → Option (List CanFrame)
  | 0, out => some out.reverse
  | index + 1, out =>
    match buffer.at (index : ℤ) with
    | none => none
    | some frame =>
      if seqAtMost frame afterSeq then some out.reverse
      else sinceLoop buffer afterSeq index (out ++ [frame])

def since (buffer : CanCaptureBuffer) (afterSeq : JsNumber) : Option (List CanFrame) :=
  sinceLoop buffer afterSeq buffer.count []

def clear (buffer : CanCaptureBuffer) : CanCaptureBuffer :=
  empty buffer.capacity buffer.capacity_pos

end CanCaptureBuffer

/-! ## Runs -/

inductive CaptureEvent
  | push (frame : CanFrame)
  | clear

def CanCaptureBuffer.step (buffer : CanCaptureBuffer) : CaptureEvent → CanCaptureBuffer
  | .push frame => (buffer.push frame).1
  | .clear => buffer.clear

def CanCaptureBuffer.run (buffer : CanCaptureBuffer) (events : List CaptureEvent) :
    CanCaptureBuffer := events.foldl step buffer

/-! ## The list the ring stands for -/

def pushedStep (pushed : List CanFrame) : CaptureEvent → List CanFrame
  | .push frame => pushed ++ [frame]
  | .clear => []

def pushedSinceClear (events : List CaptureEvent) : List CanFrame := events.foldl pushedStep []

def numbered (pushed : List CanFrame) : List CanFrame :=
  pushed.mapIdx fun index frame => { frame with seq := index + 1 }

/-- The last `min n capacity` of the `n` pushed frames. -/
def held (capacity : ℕ) (pushed : List CanFrame) : List CanFrame :=
  (numbered pushed).drop (pushed.length - capacity)

@[simp] theorem numbered_length (pushed : List CanFrame) :
    (numbered pushed).length = pushed.length := List.length_mapIdx

theorem numbered_concat (pushed : List CanFrame) (frame : CanFrame) :
    numbered (pushed ++ [frame]) =
      numbered pushed ++ [{ frame with seq := pushed.length + 1 }] := List.mapIdx_concat

theorem held_length (capacity : ℕ) (pushed : List CanFrame) :
    (held capacity pushed).length = min pushed.length capacity := by
  rw [held, List.length_drop, numbered_length]
  omega

theorem held_getElem? (capacity : ℕ) (pushed : List CanFrame) (i : ℕ) :
    (held capacity pushed)[i]? = (numbered pushed)[pushed.length - capacity + i]? :=
  List.getElem?_drop

variable {pushed : List CanFrame} {capacity : ℕ}

theorem seq_of_held {i : ℕ} {frame : CanFrame} (h : (held capacity pushed)[i]? = some frame) :
    frame.seq = pushed.length - capacity + i + 1 := by
  rw [held_getElem?, numbered, List.getElem?_mapIdx, Option.map_eq_some_iff] at h
  obtain ⟨f, _, rfl⟩ := h
  rfl

/-! ## The ring refines the list -/

/-- The ring holds the last frames of the list, frame `j` in cell `j mod capacity`. -/
structure Refines (buffer : CanCaptureBuffer) (pushed : List CanFrame) : Prop where
  nextSeq : buffer.nextSeq = pushed.length + 1
  count : buffer.count = min pushed.length buffer.capacity
  head : buffer.head = pushed.length % buffer.capacity
  overwritten : buffer.overwritten = pushed.length - buffer.count
  cells : ∀ j < pushed.length, pushed.length ≤ j + buffer.capacity →
    buffer.ring.getD (j % buffer.capacity) none = (numbered pushed)[j]?

theorem refines_empty (capacity : ℕ) (h : 0 < capacity) :
    Refines (CanCaptureBuffer.empty capacity h) [] where
  nextSeq := rfl
  count := (Nat.zero_min _).symm
  head := (Nat.zero_mod _).symm
  overwritten := rfl
  cells := fun _ hj => absurd hj (Nat.not_lt_zero _)

theorem mod_ne_mod {j n : ℕ} (hj : j < n) (hn : n < j + capacity) :
    n % capacity ≠ j % capacity := by
  intro heq
  have hdvd : capacity ∣ n - j := (Nat.modEq_iff_dvd' hj.le).mp heq.symm
  have hle := Nat.le_of_dvd (by omega) hdvd
  omega

variable {buffer : CanCaptureBuffer}

theorem Refines.push (h : Refines buffer pushed) (frame : CanFrame) :
    Refines (buffer.push frame).1 (pushed ++ [frame]) where
  nextSeq := by
    rw [List.length_append, List.length_singleton]
    exact congrArg (· + 1) h.nextSeq
  count := by
    have hcount := h.count
    simp only [CanCaptureBuffer.push, List.length_append, List.length_singleton]
    split <;> omega
  head := by
    simp only [CanCaptureBuffer.push, List.length_append, List.length_singleton]
    rw [h.head, Nat.mod_add_mod]
  overwritten := by
    have hcount := h.count
    have hover := h.overwritten
    simp only [CanCaptureBuffer.push, List.length_append, List.length_singleton]
    split <;> omega
  cells := by
    intro j hj hlast
    simp only [CanCaptureBuffer.push, List.length_append, List.length_singleton] at hj hlast ⊢
    rw [numbered_concat, h.nextSeq, List.getD_eq_getElem?_getD]
    obtain hj | rfl := Nat.lt_succ_iff_lt_or_eq.mp hj
    · have hne : buffer.head ≠ j % buffer.capacity := by
        rw [h.head]
        exact mod_ne_mod hj (by omega)
      rw [List.getElem?_set_ne hne, List.getElem?_append_left (by rwa [numbered_length]),
        ← List.getD_eq_getElem?_getD]
      exact h.cells j hj (by omega)
    · have hlt : buffer.head < buffer.ring.length := buffer.ring_length.symm ▸ buffer.head_lt
      rw [← h.head, List.getElem?_set_self hlt, List.getElem?_append_right (by simp),
        numbered_length, Nat.sub_self]
      rfl

theorem Refines.step (h : Refines buffer pushed) (event : CaptureEvent) :
    Refines (buffer.step event) (pushedStep pushed event) := by
  cases event with
  | push frame => exact h.push frame
  | clear => exact refines_empty buffer.capacity buffer.capacity_pos

theorem Refines.run (h : Refines buffer pushed) (events : List CaptureEvent) :
    Refines (buffer.run events) (events.foldl pushedStep pushed) := by
  induction events generalizing buffer pushed with
  | nil => exact h
  | cons event events ih => exact ih (h.step event)

/-! ## Reading the ring -/

theorem Refines.oldest_eq (h : Refines buffer pushed) :
    buffer.oldest = (pushed.length - buffer.capacity) % buffer.capacity := by
  have hcount := h.count
  rw [CanCaptureBuffer.oldest, h.head]
  obtain hlt | hge := Nat.lt_or_ge pushed.length buffer.capacity
  · rw [Nat.mod_eq_of_lt hlt, hcount, Nat.min_eq_left hlt.le, Nat.add_sub_cancel_left,
      Nat.mod_self, Nat.sub_eq_zero_of_le hlt.le, Nat.zero_mod]
  · rw [hcount, Nat.min_eq_right hge, Nat.add_sub_cancel, Nat.mod_mod]
    exact (Nat.mod_eq_sub_mod hge)

theorem Refines.at_eq (h : Refines buffer pushed) (i : ℕ) :
    buffer.at (i : ℤ) = (held buffer.capacity pushed)[i]? := by
  have hcount := h.count
  rw [CanCaptureBuffer.at]
  split
  next hout =>
    refine (List.getElem?_eq_none ?_).symm
    rw [held_length]
    omega
  next hin =>
    rw [Int.toNat_natCast, h.oldest_eq, Nat.mod_add_mod, held_getElem?]
    exact h.cells _ (by omega) (by omega)

theorem Refines.toArray_eq (h : Refines buffer pushed) :
    buffer.toArray = (held buffer.capacity pushed).map some := by
  have hlength : (held buffer.capacity pushed).length = buffer.count := by
    rw [held_length, h.count]
  refine List.ext_getElem? fun i => ?_
  rw [CanCaptureBuffer.toArray, List.getElem?_map, List.getElem?_map]
  obtain hlt | hge := Nat.lt_or_ge i buffer.count
  · rw [List.getElem?_range hlt, Option.map_some, h.at_eq,
      List.getElem?_eq_getElem (hlength.symm ▸ hlt), Option.map_some]
  · rw [List.getElem?_eq_none (by rwa [List.length_range]),
      List.getElem?_eq_none (by rwa [hlength])]
    rfl

theorem seqAtMost_of_le {f g : CanFrame} {afterSeq : JsNumber} (hle : f.seq ≤ g.seq)
    (hg : CanCaptureBuffer.seqAtMost g afterSeq = true) :
    CanCaptureBuffer.seqAtMost f afterSeq = true := by
  have hcast : ((f.seq : ℚ≥0) : ℚ) ≤ ((g.seq : ℚ≥0) : ℚ) := by exact_mod_cast hle
  cases afterSeq with
  | nan => cases hg
  | infinite negative => cases negative <;> exact hg
  | finite negative q =>
    simp only [CanCaptureBuffer.seqAtMost, JsNumber.le, decide_eq_true_eq] at hg ⊢
    exact le_trans hcast hg

def newerThan (afterSeq : JsNumber) (frames : List CanFrame) : List CanFrame :=
  frames.filter fun frame => !CanCaptureBuffer.seqAtMost frame afterSeq

theorem Refines.sinceLoop_eq (h : Refines buffer pushed) (afterSeq : JsNumber) {index : ℕ}
    (hindex : index ≤ buffer.count) (out : List CanFrame) :
    buffer.sinceLoop afterSeq index out =
      some (newerThan afterSeq ((held buffer.capacity pushed).take index) ++ out.reverse) := by
  have hlength : (held buffer.capacity pushed).length = buffer.count := by
    rw [held_length, h.count]
  induction index generalizing out with
  | zero => rfl
  | succ index ih =>
    have hlt : index < (held buffer.capacity pushed).length := by omega
    have hget := List.getElem?_eq_getElem hlt
    rw [CanCaptureBuffer.sinceLoop, h.at_eq, hget]
    rw [List.take_add_one, hget, Option.toList_some]
    simp only [newerThan, List.filter_append]
    split
    next hold =>
      have hnone : newerThan afterSeq ((held buffer.capacity pushed).take index) = [] := by
        refine List.filter_eq_nil_iff.mpr fun f hf => ?_
        obtain ⟨i, hi⟩ := List.mem_iff_getElem?.mp hf
        rw [List.getElem?_take] at hi
        split at hi
        · have hfi := seq_of_held hi
          have hlast := seq_of_held hget
          rw [seqAtMost_of_le (by omega) hold]
          decide
        · cases hi
      rw [newerThan] at hnone
      rw [hnone, List.filter_cons_of_neg (by simp [hold])]
      rfl
    next hnew =>
      rw [ih (by omega), newerThan, List.filter_cons_of_pos (by simpa using hnew),
        List.reverse_append]
      simp only [List.filter_nil, List.reverse_cons, List.reverse_nil, List.append_assoc,
        List.nil_append]

theorem Refines.since_eq (h : Refines buffer pushed) (afterSeq : JsNumber) :
    buffer.since afterSeq = some (newerThan afterSeq (held buffer.capacity pushed)) := by
  have hlength : (held buffer.capacity pushed).length ≤ buffer.count := by
    rw [held_length, h.count]
  rw [CanCaptureBuffer.since, h.sinceLoop_eq afterSeq le_rfl, List.take_of_length_le hlength,
    List.reverse_nil, List.append_nil]

theorem run_capacity (buffer : CanCaptureBuffer) (events : List CaptureEvent) :
    (buffer.run events).capacity = buffer.capacity := by
  induction events generalizing buffer with
  | nil => rfl
  | cons event events ih =>
    refine (ih (buffer.step event)).trans ?_
    cases event <;> rfl

/-- Whatever is pushed and cleared, the ring reads as the last frames pushed since the last
clear. -/
theorem capture_refines_list (buffer : CanCaptureBuffer) {capacity : JsNumber}
    (hnew : CanCaptureBuffer.new capacity = .ok buffer) (events : List CaptureEvent) :
    let after := buffer.run events
    let pushed := pushedSinceClear events
    let frames := held buffer.capacity pushed
    capacity.toInt? = some (buffer.capacity : ℤ) ∧
    frames.length = min pushed.length buffer.capacity ∧
    after.toArray = frames.map some ∧
    (∀ i : ℕ, after.at (i : ℤ) = frames[i]?) ∧ (∀ i : ℤ, i < 0 → after.at i = none) ∧
    (∀ afterSeq, after.since afterSeq = some (newerThan afterSeq frames)) ∧
    after.size = frames.length ∧ after.droppedOldest + frames.length = pushed.length := by
  have hempty : Refines buffer [] ∧ capacity.toInt? = some (buffer.capacity : ℤ) := by
    rw [CanCaptureBuffer.new] at hnew
    cases hint : capacity.toInt? with
    | none =>
      rw [hint] at hnew
      cases hnew
    | some n =>
      rw [hint] at hnew
      simp only at hnew
      split at hnew
      next => cases hnew
      next hpos =>
        split at hnew
        next => cases hnew
        next =>
          cases hnew
          exact ⟨refines_empty _ _, congrArg some (Int.toNat_of_nonneg (by omega)).symm⟩
  have h : Refines (buffer.run events) (pushedSinceClear events) := hempty.1.run events
  have hcap := run_capacity buffer events
  have hlength := held_length buffer.capacity (pushedSinceClear events)
  have hcount := h.count
  have hover := h.overwritten
  rw [hcap] at hcount
  refine ⟨hempty.2, hlength, ?_, fun i => ?_, fun i hi => if_pos (.inl hi), fun afterSeq => ?_,
    hcount.trans hlength.symm, ?_⟩
  · rw [h.toArray_eq, hcap]
  · rw [h.at_eq, hcap]
  · rw [h.since_eq, hcap]
  · rw [CanCaptureBuffer.droppedOldest, hover]
    omega

def idleFrame : CanFrame := ⟨0, .nan, 1, 0x123, false, false, false, false, [], .rx⟩

/-- A ring of two cells after three frames. -/
theorem capture_refines_list_three : ∃ buffer,
    CanCaptureBuffer.new (.finite false (2 : ℕ)) = .ok buffer ∧
      (buffer.run [.push idleFrame, .push idleFrame, .push idleFrame]).toArray =
        [some { idleFrame with seq := 2 }, some { idleFrame with seq := 3 }] := by
  obtain ⟨buffer, hnew⟩ : ∃ buffer, CanCaptureBuffer.new (.finite false (2 : ℕ)) = .ok buffer :=
    ⟨_, rfl⟩
  obtain ⟨hcapacity, -, harray, -⟩ :=
    capture_refines_list buffer hnew [.push idleFrame, .push idleFrame, .push idleFrame]
  have htwo : buffer.capacity = 2 := Int.ofNat_inj.mp (Option.some.inj hcapacity).symm
  refine ⟨buffer, hnew, harray.trans ?_⟩
  rw [htwo]
  rfl

end ArduConfigurator.CanCore
