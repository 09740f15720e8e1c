import ArduConfigurator.FirmwareFlash.DfuErase
import Mathlib.Data.List.Pairwise

/-! # The writes that an image is cut into

The writes of an image of disjoint segments are disjoint and in ascending order, padding included,
and every byte of the image is in one of them. -/
namespace ArduConfigurator.FirmwareFlash
set_option autoImplicit false

def ImageByte (segments : List IntelHexSegment) (x v : ℕ) : Prop :=
  ∃ segment ∈ segments, segment.byteAt x = some v

/-! ## One segment -/

variable {length : ℕ}

theorem mem_chunkOffsets {transferSize : ℕ} {offsets : List ℕ}
    (h : chunkOffsets length transferSize = some offsets) (hlen : length ≠ 0) :
    0 < transferSize ∧
      offsets = (List.range ((length + transferSize - 1) / transferSize)).map (· * transferSize) := by
  rw [chunkOffsets, if_neg hlen] at h
  split_ifs at h with hzero
  cases h
  exact ⟨Nat.pos_of_ne_zero hzero, rfl⟩

theorem lt_turns_iff {transferSize k : ℕ} (hpos : 0 < transferSize) :
    k < (length + transferSize - 1) / transferSize ↔ k * transferSize < length := by
  rw [Nat.lt_div_iff_mul_lt hpos]
  have hcomm : transferSize * k = k * transferSize := Nat.mul_comm _ _
  constructor <;> intro h <;> omega

theorem chunkData_eq (transferSize : ℕ) (segment : IntelHexSegment) (next : Option IntelHexSegment)
    (offset : ℕ) : ∃ pad, chunkData transferSize segment next offset =
      (segment.data.drop offset).take transferSize ++ List.replicate pad 0xff := by
  rw [chunkData]
  simp only
  split_ifs
  · exact ⟨_, rfl⟩
  · exact ⟨0, by simp⟩

variable {segment : IntelHexSegment}

theorem chunkData_length {transferSize offset : ℕ} (next : Option IntelHexSegment)
    (hoffset : offset < segment.data.length) (hpos : 0 < transferSize) :
    0 < (chunkData transferSize segment next offset).length ∧
      (chunkData transferSize segment next offset).length ≤ transferSize ∧
      (offset + transferSize < segment.data.length →
        (chunkData transferSize segment next offset).length = transferSize) ∧
      (∀ following, next = some following →
        segment.address + offset + (chunkData transferSize segment next offset).length ≤
          max segment.endAddress following.address) := by
  have htake : ((segment.data.drop offset).take transferSize).length =
      min transferSize (segment.data.length - offset) := by
    rw [List.length_take, List.length_drop]
  rw [chunkData]
  simp only [IntelHexSegment.endAddress]
  split_ifs with hlast
  · rw [List.length_append, List.length_replicate, htake]
    refine ⟨by omega, ?_, by omega, ?_⟩
    · cases next <;> simp only <;> omega
    · rintro following rfl
      simp only
      omega
  · rw [htake]
    refine ⟨by omega, by omega, by omega, fun following _ => by omega⟩

variable {next : Option IntelHexSegment}

theorem segmentChunks_eq {transferSize : ℕ} {chunks : List DfuChunk}
    (h : segmentChunks transferSize segment next = some chunks) (hdata : segment.data ≠ []) :
    0 < transferSize ∧
      chunks = (List.range ((segment.data.length + transferSize - 1) / transferSize)).map fun k =>
        ⟨segment.address + k * transferSize,
          chunkData transferSize segment next (k * transferSize)⟩ := by
  obtain ⟨offsets, hoffsets, hchunks⟩ := Option.map_eq_some_iff.mp h
  obtain ⟨hpos, rfl⟩ := mem_chunkOffsets hoffsets fun hlen => hdata (List.length_eq_zero_iff.mp hlen)
  refine ⟨hpos, ?_⟩
  rw [← hchunks, List.map_map]
  rfl

theorem segmentChunks_nil {transferSize : ℕ} {chunks : List DfuChunk}
    (h : segmentChunks transferSize segment next = some chunks) (hdata : segment.data = []) :
    chunks = [] := by
  rw [segmentChunks, hdata] at h
  cases h
  rfl

variable {chunk : DfuChunk}

theorem mem_segmentChunks {transferSize : ℕ} {chunks : List DfuChunk}
    (h : segmentChunks transferSize segment next = some chunks) (hchunk : chunk ∈ chunks) :
    segment.data ≠ [] ∧ segment.address ≤ chunk.address ∧ chunk.address < chunk.stop ∧
      ∀ following, next = some following →
        chunk.stop ≤ max segment.endAddress following.address := by
  have hdata : segment.data ≠ [] := by
    intro hdata
    rw [segmentChunks_nil h hdata] at hchunk
    cases hchunk
  obtain ⟨hpos, rfl⟩ := segmentChunks_eq h hdata
  obtain ⟨k, hk, rfl⟩ := List.mem_map.mp hchunk
  rw [List.mem_range, lt_turns_iff hpos] at hk
  obtain ⟨hlen, -, -, hstop⟩ := chunkData_length next hk hpos
  refine ⟨hdata, Nat.le_add_right _ _, ?_, hstop⟩
  simp only [DfuChunk.stop]
  omega

theorem segmentChunks_pairwise {transferSize : ℕ} {chunks : List DfuChunk}
    (h : segmentChunks transferSize segment next = some chunks) :
    chunks.Pairwise fun a b => a.stop ≤ b.address := by
  by_cases hdata : segment.data = []
  · rw [segmentChunks_nil h hdata]
    exact List.Pairwise.nil
  obtain ⟨hpos, rfl⟩ := segmentChunks_eq h hdata
  rw [List.pairwise_map]
  refine List.Pairwise.imp_of_mem ?_ List.pairwise_lt_range
  intro j k hj _ hjk
  rw [List.mem_range, lt_turns_iff hpos] at hj
  obtain ⟨-, hlen, -⟩ := chunkData_length next hj hpos
  have hmul : (j + 1) * transferSize ≤ k * transferSize := Nat.mul_le_mul_right _ hjk
  rw [Nat.add_mul, Nat.one_mul] at hmul
  simp only [DfuChunk.stop]
  omega

variable {x v : ℕ}

theorem segmentChunks_byteAt {transferSize : ℕ} {chunks : List DfuChunk}
    (h : segmentChunks transferSize segment next = some chunks) (hv : segment.byteAt x = some v) :
    ∃ chunk ∈ chunks, chunk.segment.byteAt x = some v := by
  obtain ⟨hle, hget⟩ := IntelHexSegment.byteAt_eq_some.mp hv
  have hlt : x - segment.address < segment.data.length := (List.getElem?_eq_some_iff.mp hget).1
  have hdata : segment.data ≠ [] := List.ne_nil_of_length_pos (by omega)
  obtain ⟨hpos, rfl⟩ := segmentChunks_eq h hdata
  set i := x - segment.address with hi
  have hdiv := Nat.div_add_mod i transferSize
  have hmod := Nat.mod_lt i hpos
  rw [Nat.mul_comm] at hdiv
  have hk : i / transferSize * transferSize < segment.data.length := by omega
  refine ⟨_, List.mem_map_of_mem (List.mem_range.mpr ((lt_turns_iff hpos).mpr hk)), ?_⟩
  refine IntelHexSegment.byteAt_eq_some.mpr ⟨?_, ?_⟩
  · simp only [DfuChunk.segment]
    omega
  · obtain ⟨pad, hpad⟩ := chunkData_eq transferSize segment next (i / transferSize * transferSize)
    simp only [DfuChunk.segment]
    rw [hpad, show x - (segment.address + i / transferSize * transferSize) = i % transferSize by omega,
      List.getElem?_append_left, List.getElem?_take_of_lt hmod, List.getElem?_drop, hdiv]
    · exact hget
    · rw [List.length_take, List.length_drop]
      omega

/-! ## The whole image -/

theorem planSorted_cons {transferSize : ℕ} {rest : List IntelHexSegment} {chunks : List DfuChunk}
    (h : planSorted transferSize (segment :: rest) = some chunks) :
    ∃ own more, segmentChunks transferSize segment rest.head? = some own ∧
      planSorted transferSize rest = some more ∧ chunks = own ++ more := by
  rw [planSorted] at h
  cases hown : segmentChunks transferSize segment rest.head? with
  | none => rw [hown] at h; cases h
  | some own =>
    cases hmore : planSorted transferSize rest with
    | none => rw [hown, hmore] at h; cases h
    | some more =>
      rw [hown, hmore] at h
      cases h
      exact ⟨own, more, rfl, rfl, rfl⟩

theorem mem_planSorted {transferSize : ℕ} {segments : List IntelHexSegment} {chunks : List DfuChunk}
    (h : planSorted transferSize segments = some chunks) (hchunk : chunk ∈ chunks) :
    ∃ segment ∈ segments, segment.data ≠ [] ∧ segment.address ≤ chunk.address ∧
      chunk.address < chunk.stop := by
  induction segments generalizing chunks with
  | nil =>
    cases h
    cases hchunk
  | cons segment rest ih =>
    obtain ⟨own, more, hown, hmore, rfl⟩ := planSorted_cons h
    rcases List.mem_append.mp hchunk with hchunk | hchunk
    · obtain ⟨hdata, hle, hlt, -⟩ := mem_segmentChunks hown hchunk
      exact ⟨segment, List.mem_cons_self, hdata, hle, hlt⟩
    · obtain ⟨s, hs, h⟩ := ih hmore hchunk
      exact ⟨s, List.mem_cons_of_mem _ hs, h⟩

theorem planSorted_pairwise {transferSize : ℕ} {segments : List IntelHexSegment}
    {chunks : List DfuChunk} (h : planSorted transferSize segments = some chunks)
    (hsorted : segments.Pairwise byAddress) (hdisjoint : segments.Pairwise Disjoint) :
    chunks.Pairwise fun a b => a.stop ≤ b.address := by
  induction segments generalizing chunks with
  | nil =>
    cases h
    exact List.Pairwise.nil
  | cons segment rest ih =>
    obtain ⟨own, more, hown, hmore, rfl⟩ := planSorted_cons h
    obtain ⟨hle, hsorted⟩ := List.pairwise_cons.mp hsorted
    obtain ⟨hapart, hdisjoint⟩ := List.pairwise_cons.mp hdisjoint
    refine List.pairwise_append.mpr ⟨segmentChunks_pairwise hown, ih hmore hsorted hdisjoint, ?_⟩
    intro a ha b hb
    obtain ⟨hdata, -, -, hstop⟩ := mem_segmentChunks hown ha
    obtain ⟨other, hother, hodata, hole, -⟩ := mem_planSorted hmore hb
    obtain ⟨following, later, hrest⟩ := List.exists_cons_of_ne_nil (List.ne_nil_of_mem hother)
    have hfollowing := hstop following (by rw [hrest]; rfl)
    have hnext : following.address ≤ other.address := by
      rw [hrest] at hother hsorted
      rcases List.mem_cons.mp hother with rfl | hother
      · exact le_refl _
      · exact (List.pairwise_cons.mp hsorted).1 other hother
    have hsegment : segment.endAddress ≤ other.address := by
      have haddress : segment.address ≤ other.address := hle other hother
      have hpos := IntelHexSegment.address_lt_endAddress hodata
      rcases disjoint_iff.mp (hapart other hother) with h | h | h | h
      · exact absurd h hdata
      · exact absurd h hodata
      · exact h
      · omega
    omega

theorem planSorted_byteAt {transferSize : ℕ} {segments : List IntelHexSegment}
    {chunks : List DfuChunk} (h : planSorted transferSize segments = some chunks)
    (hv : ImageByte segments x v) : ∃ chunk ∈ chunks, chunk.segment.byteAt x = some v := by
  induction segments generalizing chunks with
  | nil =>
    obtain ⟨s, hs, -⟩ := hv
    cases hs
  | cons segment rest ih =>
    obtain ⟨own, more, hown, hmore, rfl⟩ := planSorted_cons h
    obtain ⟨s, hs, hbyte⟩ := hv
    rcases List.mem_cons.mp hs with rfl | hs
    · obtain ⟨chunk, hchunk, h⟩ := segmentChunks_byteAt hown hbyte
      exact ⟨chunk, List.mem_append_left _ hchunk, h⟩
    · obtain ⟨chunk, hchunk, h⟩ := ih hmore ⟨s, hs, hbyte⟩
      exact ⟨chunk, List.mem_append_right _ hchunk, h⟩

variable {segments : List IntelHexSegment} {transferSize : ℕ} {chunks : List DfuChunk}

theorem plan_pairwise (h : planDfuChunks segments transferSize = some chunks)
    (hdisjoint : segments.Pairwise Disjoint) : chunks.Pairwise fun a b => a.stop ≤ b.address := by
  have htotal : Std.Total byAddress := ⟨fun a b => Nat.le_total a.address b.address⟩
  have htrans : IsTrans _ byAddress := ⟨fun _ _ _ => Nat.le_trans⟩
  have hsymm : ∀ {a b}, Disjoint a b → Disjoint b a := fun h x => (h x).symm
  refine planSorted_pairwise h (List.pairwise_insertionSort _ _) ?_
  exact ((List.perm_insertionSort byAddress segments).pairwise_iff hsymm).mpr hdisjoint

theorem plan_byteAt (h : planDfuChunks segments transferSize = some chunks)
    (hv : ImageByte segments x v) : ∃ chunk ∈ chunks, chunk.segment.byteAt x = some v := by
  obtain ⟨segment, hsegment, hbyte⟩ := hv
  exact planSorted_byteAt h
    ⟨segment, (List.perm_insertionSort byAddress segments).mem_iff.mpr hsegment, hbyte⟩

theorem plan_nonempty (h : planDfuChunks segments transferSize = some chunks)
    (hchunk : chunk ∈ chunks) : chunk.address < chunk.stop := by
  obtain ⟨-, -, -, -, hlt⟩ := mem_planSorted h hchunk
  exact hlt

theorem plan_apart {a b : DfuChunk} (h : planDfuChunks segments transferSize = some chunks)
    (hdisjoint : segments.Pairwise Disjoint) (ha : a ∈ chunks) (hb : b ∈ chunks) (hne : a ≠ b) :
    a.stop ≤ b.address ∨ b.stop ≤ a.address := by
  have hsymm : Std.Symm fun a b : DfuChunk => a.stop ≤ b.address ∨ b.stop ≤ a.address :=
    ⟨fun _ _ => Or.symm⟩
  have hpair : chunks.Pairwise fun a b => a.stop ≤ b.address ∨ b.stop ≤ a.address :=
    (plan_pairwise h hdisjoint).imp Or.inl
  exact hpair.forall ha hb hne

/-! ## What the image puts at an address -/

theorem foldl_byteAt_none (h : ∀ s ∈ segments, s.byteAt x = none) (byte : ℕ) :
    segments.foldl (fun byte segment => (segment.byteAt x).getD byte) byte = byte := by
  induction segments with
  | nil => rfl
  | cons s segments ih =>
    obtain ⟨hs, hrest⟩ := List.forall_mem_cons.mp h
    rw [List.foldl_cons, hs, Option.getD_none]
    exact ih hrest

theorem expectedByte_foldl {byte : ℕ} (hdisjoint : segments.Pairwise Disjoint)
    (hv : ImageByte segments x v) :
    segments.foldl (fun byte segment => (segment.byteAt x).getD byte) byte = v := by
  induction segments generalizing byte with
  | nil =>
    obtain ⟨s, hs, -⟩ := hv
    cases hs
  | cons segment rest ih =>
    obtain ⟨hapart, hdisjoint⟩ := List.pairwise_cons.mp hdisjoint
    rw [List.foldl_cons]
    obtain ⟨s, hs, hbyte⟩ := hv
    rcases List.mem_cons.mp hs with rfl | hs
    · have hnone : ∀ t ∈ rest, t.byteAt x = none := fun t ht =>
        (hapart t ht x).resolve_left (by rw [hbyte]; simp)
      rw [hbyte, Option.getD_some]
      exact foldl_byteAt_none hnone v
    · exact ih hdisjoint ⟨s, hs, hbyte⟩

theorem expectedByte_eq (hdisjoint : segments.Pairwise Disjoint) (hv : ImageByte segments x v) :
    expectedByte segments x = v :=
  expectedByte_foldl hdisjoint hv

end ArduConfigurator.FirmwareFlash
