import ArduConfigurator.FirmwareFlash.DfuChunks

/-! # The plan of a download

What the writes of an image owe to the flash: they fit the transfer, follow one another, hold the
bytes of the image and erased flash around them, and the last one of a segment fills up its flash
word where the next segment leaves the room. -/
namespace ArduConfigurator.FirmwareFlash
set_option autoImplicit false

def IntelHexSegment.wordEnd (segment : IntelHexSegment) : ℕ :=
  (segment.endAddress + (FLASH_WORD_BYTES - 1)) / FLASH_WORD_BYTES * FLASH_WORD_BYTES

def DfuChunk.IsLastOf (chunk : DfuChunk) (segment : IntelHexSegment) : Prop :=
  chunk.address < segment.endAddress ∧ segment.endAddress ≤ chunk.stop

/-- The segment and the one that follows it in the order of addresses, if there is one. -/
def Follows (segments : List IntelHexSegment) (segment : IntelHexSegment)
    (next : Option IntelHexSegment) : Prop :=
  ∃ before after, segments.insertionSort byAddress = before ++ segment :: after ∧
    after.head? = next

def BeginsWithin (next : Option IntelHexSegment) (segment : IntelHexSegment) : Prop :=
  ∃ following ∈ next, following.address < segment.wordEnd

structure PlanSound (segments : List IntelHexSegment) (transferSize : ℕ)
    (chunks : List DfuChunk) : Prop where
  sizes : ∀ chunk ∈ chunks, chunk.data.length ≤ transferSize
  ascending : chunks.Pairwise fun a b => a.address < b.address ∧ a.stop ≤ b.address
  covers : ∀ x v, ImageByte segments x v → ∃ chunk ∈ chunks, chunk.segment.byteAt x = some v
  bytes : ∀ chunk ∈ chunks, ∀ x v, chunk.segment.byteAt x = some v →
    ImageByte segments x v ∨ v = 0xff ∧ ∀ v', ¬ ImageByte segments x v'

/-- The last write of every segment ends on a flash-word boundary, unless the next segment begins
before that boundary. -/
def LastWritesWhole (segments : List IntelHexSegment) (chunks : List DfuChunk) : Prop :=
  ∀ segment next, Follows segments segment next → segment.data ≠ [] →
    ∀ chunk ∈ chunks, chunk.IsLastOf segment →
      chunk.stop % FLASH_WORD_BYTES = 0 ∨ BeginsWithin next segment

def lastLength (transferSize : ℕ) (segment : IntelHexSegment) : ℕ :=
  (segment.data.length - 1) % transferSize + 1

/-- The padding of every segment that ends within a flash word, and needs the padding, fits the
transfer behind the bytes of the last write. -/
def PaddingFits (segments : List IntelHexSegment) (transferSize : ℕ) : Prop :=
  ∀ segment next, Follows segments segment next → segment.data ≠ [] →
    ¬ BeginsWithin next segment →
      segment.wordEnd - segment.endAddress ≤ transferSize - lastLength transferSize segment

/-! ## The writes of one segment -/

variable {transferSize : ℕ} {segment : IntelHexSegment} {chunks : List DfuChunk} {chunk : DfuChunk}
  {next : Option IntelHexSegment}

theorem segmentChunks_byte {x v : ℕ} (h : segmentChunks transferSize segment next = some chunks)
    (hchunk : chunk ∈ chunks) (hv : chunk.segment.byteAt x = some v) :
    segment.byteAt x = some v ∨ v = 0xff := by
  have hdata : segment.data ≠ [] := (mem_segmentChunks h hchunk).1
  obtain ⟨-, rfl⟩ := segmentChunks_eq h hdata
  obtain ⟨k, -, rfl⟩ := List.mem_map.mp hchunk
  obtain ⟨pad, hpad⟩ := chunkData_eq transferSize segment next (k * transferSize)
  rw [DfuChunk.segment, hpad, byteAt_append] at hv
  obtain hown | hpadding := hv
  · obtain ⟨hle, hget⟩ := IntelHexSegment.byteAt_eq_some.mp hown
    have hlt := (List.getElem?_eq_some_iff.mp hget).1
    rw [List.length_take] at hlt
    simp only at hle hget hlt
    rw [List.getElem?_take_of_lt (by omega), List.getElem?_drop] at hget
    have hoff : k * transferSize + (x - (segment.address + k * transferSize)) =
        x - segment.address := by omega
    rw [hoff] at hget
    exact .inl (IntelHexSegment.byteAt_eq_some.mpr ⟨by omega, hget⟩)
  · obtain ⟨-, hget⟩ := IntelHexSegment.byteAt_eq_some.mp hpadding
    exact .inr (List.eq_of_mem_replicate (List.mem_of_getElem? hget))

def lastOffset (transferSize : ℕ) (segment : IntelHexSegment) : ℕ :=
  (segment.data.length - 1) / transferSize * transferSize

theorem lastOffset_add (transferSize : ℕ) (hdata : segment.data ≠ []) :
    lastOffset transferSize segment + lastLength transferSize segment = segment.data.length := by
  have hpos := List.length_pos_of_ne_nil hdata
  have hdiv := Nat.div_add_mod' (segment.data.length - 1) transferSize
  rw [lastOffset, lastLength]
  omega

theorem last_mem (h : segmentChunks transferSize segment next = some chunks)
    (hdata : segment.data ≠ []) :
    ⟨segment.address + lastOffset transferSize segment,
      chunkData transferSize segment next (lastOffset transferSize segment)⟩ ∈ chunks := by
  obtain ⟨hpos, rfl⟩ := segmentChunks_eq h hdata
  refine List.mem_map.mpr ⟨(segment.data.length - 1) / transferSize, ?_, rfl⟩
  rw [List.mem_range, lt_turns_iff hpos]
  have hlength := lastOffset_add transferSize hdata
  rw [lastOffset, lastLength] at hlength
  omega

theorem last_length (next : Option IntelHexSegment) (hpos : 0 < transferSize)
    (hdata : segment.data ≠ []) :
    segment.address + lastOffset transferSize segment +
        (chunkData transferSize segment next (lastOffset transferSize segment)).length =
      segment.endAddress + (if segment.endAddress % FLASH_WORD_BYTES = 0 then 0 else
        let whole := min (FLASH_WORD_BYTES - segment.endAddress % FLASH_WORD_BYTES)
          (transferSize - lastLength transferSize segment)
        match next with
        | some following => min whole (following.address - segment.endAddress)
        | none => whole) := by
  have hlength := lastOffset_add transferSize hdata
  have hlast : lastLength transferSize segment ≤ transferSize := Nat.mod_lt _ hpos
  have htake : ((segment.data.drop (lastOffset transferSize segment)).take transferSize).length =
      lastLength transferSize segment := by
    rw [List.length_take, List.length_drop]
    omega
  have hstop : segment.address + lastOffset transferSize segment +
      lastLength transferSize segment = segment.endAddress := by
    rw [IntelHexSegment.endAddress]
    omega
  rw [chunkData]
  simp only [htake, hstop]
  split_ifs with hpad hshort hshort
  · exact absurd hshort hpad.2
  · rw [List.length_append, List.length_replicate, htake]
    cases next <;> simp only <;> omega
  · rw [htake]
    omega
  · exact absurd ⟨by omega, hshort⟩ hpad

theorem wordEnd_eq (segment : IntelHexSegment) : segment.wordEnd =
    segment.endAddress + (if segment.endAddress % FLASH_WORD_BYTES = 0 then 0
      else FLASH_WORD_BYTES - segment.endAddress % FLASH_WORD_BYTES) := by
  rw [IntelHexSegment.wordEnd, FLASH_WORD_BYTES]
  split <;> omega

theorem last_whole_iff (next : Option IntelHexSegment) (hpos : 0 < transferSize)
    (hdata : segment.data ≠ []) :
    ((segment.address + lastOffset transferSize segment +
        (chunkData transferSize segment next (lastOffset transferSize segment)).length) %
          FLASH_WORD_BYTES = 0 ∨ BeginsWithin next segment) ↔
      (¬ BeginsWithin next segment →
        segment.wordEnd - segment.endAddress ≤
          transferSize - lastLength transferSize segment) := by
  by_cases hnext : BeginsWithin next segment
  · exact iff_of_true (.inr hnext) fun h => absurd hnext h
  rw [last_length next hpos hdata, or_iff_left hnext, forall_prop_of_true hnext]
  have hroom : ∀ following, next = some following →
      segment.wordEnd ≤ following.address := by
    rintro following rfl
    by_contra hlt
    exact hnext ⟨following, rfl, not_le.mp hlt⟩
  have hmod := Nat.mod_lt segment.endAddress (by decide : 0 < FLASH_WORD_BYTES)
  have hword := wordEnd_eq segment
  rw [FLASH_WORD_BYTES] at hmod hword ⊢
  split_ifs at hword ⊢ with hshort
  · omega
  · cases next with
    | none =>
      simp only
      omega
    | some following =>
      have hfollowing := hroom following rfl
      simp only
      omega

/-! ## The writes of an image -/

theorem planSorted_append {before after : List IntelHexSegment}
    (h : planSorted transferSize (before ++ segment :: after) = some chunks) :
    ∃ own, segmentChunks transferSize segment after.head? = some own ∧
      ∀ chunk ∈ own, chunk ∈ chunks := by
  induction before generalizing chunks with
  | nil =>
    obtain ⟨own, more, hown, -, rfl⟩ := planSorted_cons h
    exact ⟨own, hown, fun chunk hchunk => List.mem_append_left _ hchunk⟩
  | cons first before ih =>
    obtain ⟨own, more, -, hmore, rfl⟩ := planSorted_cons h
    obtain ⟨own', hown', hmem⟩ := ih hmore
    exact ⟨own', hown', fun chunk hchunk => List.mem_append_right _ (hmem chunk hchunk)⟩

variable {segments : List IntelHexSegment}

theorem planSorted_byte {x v : ℕ} (h : planSorted transferSize segments = some chunks)
    (hchunk : chunk ∈ chunks) (hv : chunk.segment.byteAt x = some v) :
    ImageByte segments x v ∨ v = 0xff := by
  induction segments generalizing chunks with
  | nil =>
    cases h
    cases hchunk
  | cons segment rest ih =>
    obtain ⟨own, more, hown, hmore, rfl⟩ := planSorted_cons h
    obtain hchunk | hchunk := List.mem_append.mp hchunk
    · exact (segmentChunks_byte hown hchunk hv).imp_left fun hbyte =>
        ⟨segment, List.mem_cons_self, hbyte⟩
    · exact (ih hmore hchunk).imp_left fun ⟨s, hs, hbyte⟩ =>
        ⟨s, List.mem_cons_of_mem _ hs, hbyte⟩

theorem planSorted_sizes (h : planSorted transferSize segments = some chunks)
    (hchunk : chunk ∈ chunks) :
    chunk.data.length ≤ transferSize := by
  induction segments generalizing chunks with
  | nil =>
    cases h
    cases hchunk
  | cons segment rest ih =>
    obtain ⟨own, more, hown, hmore, rfl⟩ := planSorted_cons h
    obtain hchunk | hchunk := List.mem_append.mp hchunk
    · obtain ⟨hpos, rfl⟩ := segmentChunks_eq hown (mem_segmentChunks hown hchunk).1
      obtain ⟨k, hk, rfl⟩ := List.mem_map.mp hchunk
      rw [List.mem_range, lt_turns_iff hpos] at hk
      exact (chunkData_length rest.head? hk hpos).2.1
    · exact ih hmore hchunk

theorem exists_plan (segments : List IntelHexSegment) (hpos : 0 < transferSize) :
    ∃ chunks, planDfuChunks segments transferSize = some chunks := by
  rw [planDfuChunks]
  generalize segments.insertionSort byAddress = sorted
  induction sorted with
  | nil => exact ⟨[], rfl⟩
  | cons segment rest ih =>
    obtain ⟨more, hmore⟩ := ih
    obtain ⟨own, hown⟩ : ∃ own, segmentChunks transferSize segment rest.head? = some own := by
      rw [segmentChunks, chunkOffsets, if_neg hpos.ne']
      split_ifs
      · exact ⟨_, rfl⟩
      · exact ⟨_, rfl⟩
    rw [planSorted, hown, hmore]
    exact ⟨_, rfl⟩

theorem chunk_eq_of_byteAt {a b : DfuChunk} {x v w : ℕ}
    (h : planDfuChunks segments transferSize = some chunks)
    (hdisjoint : segments.Pairwise Disjoint) (ha : a ∈ chunks) (hb : b ∈ chunks)
    (hav : a.segment.byteAt x = some v) (hbw : b.segment.byteAt x = some w) : a = b := by
  have hain := IntelHexSegment.byteAt_isSome.mp ⟨v, hav⟩
  have hbin := IntelHexSegment.byteAt_isSome.mp ⟨w, hbw⟩
  by_contra hne
  simp only [DfuChunk.segment, IntelHexSegment.endAddress] at hain hbin
  obtain hle | hle := plan_apart h hdisjoint ha hb hne
  · rw [DfuChunk.stop] at hle
    omega
  · rw [DfuChunk.stop] at hle
    omega

theorem plan_sound (h : planDfuChunks segments transferSize = some chunks)
    (hdisjoint : segments.Pairwise Disjoint) : PlanSound segments transferSize chunks where
  sizes := fun _ hchunk => planSorted_sizes h hchunk
  ascending := by
    refine (plan_pairwise h hdisjoint).imp_of_mem fun {a b} ha _ hle => ⟨?_, hle⟩
    exact (plan_nonempty h ha).trans_le hle
  covers := fun _ _ hv => plan_byteAt h hv
  bytes := by
    intro chunk hchunk x v hv
    by_cases himage : ∃ v', ImageByte segments x v'
    · obtain ⟨v', hv'⟩ := himage
      obtain ⟨other, hother, hbyte⟩ := plan_byteAt h hv'
      obtain rfl := chunk_eq_of_byteAt h hdisjoint hchunk hother hv hbyte
      obtain rfl := Option.some.inj (hv.symm.trans hbyte)
      exact .inl hv'
    · refine .inr ⟨?_, fun v' hv' => himage ⟨v', hv'⟩⟩
      obtain ⟨segment, hsegment, hbyte⟩ | hpad := planSorted_byte h hchunk hv
      · exact absurd ⟨v, segment,
          (List.perm_insertionSort byAddress segments).mem_iff.mp hsegment, hbyte⟩ himage
      · exact hpad

theorem isLastOf_iff {next : Option IntelHexSegment}
    (h : planDfuChunks segments transferSize = some chunks) (hdisjoint : segments.Pairwise Disjoint)
    (hpos : 0 < transferSize) (hfollows : Follows segments segment next) (hdata : segment.data ≠ [])
    (chunk : DfuChunk) :
    chunk ∈ chunks ∧ chunk.IsLastOf segment ↔
      chunk = ⟨segment.address + lastOffset transferSize segment,
        chunkData transferSize segment next (lastOffset transferSize segment)⟩ := by
  obtain ⟨before, after, hsorted, rfl⟩ := hfollows
  rw [planDfuChunks, hsorted] at h
  obtain ⟨own, hown, hmem⟩ := planSorted_append h
  have hlast := hmem _ (last_mem hown hdata)
  have hlength := lastOffset_add transferSize hdata
  have hone : 0 < lastLength transferSize segment := Nat.succ_pos _
  have hstop := last_length after.head? hpos hdata
  have hisLast : DfuChunk.IsLastOf ⟨segment.address + lastOffset transferSize segment,
      chunkData transferSize segment after.head? (lastOffset transferSize segment)⟩ segment := by
    refine ⟨?_, ?_⟩
    · simp only [IntelHexSegment.endAddress]
      omega
    · rw [DfuChunk.stop]
      simp only
      omega
  constructor
  · rintro ⟨hchunk, hbegins, hends⟩
    by_contra hne
    rw [← hsorted] at h
    obtain hle | hle := plan_apart h hdisjoint hchunk hlast hne
    · exact absurd (hends.trans hle) (not_le.mpr hisLast.1)
    · exact absurd (hisLast.2.trans hle) (not_le.mpr hbegins)
  · rintro rfl
    exact ⟨hlast, hisLast⟩

/-- A plan of disjoint segments always exists and is sound, and the last writes end on flash-word
boundaries exactly when their padding fits the transfer. -/
theorem plan_whole_iff {segments : List IntelHexSegment} {transferSize : ℕ}
    (hpos : 0 < transferSize) (hdisjoint : segments.Pairwise Disjoint) :
    (∃ chunks, planDfuChunks segments transferSize = some chunks ∧
        PlanSound segments transferSize chunks ∧ LastWritesWhole segments chunks) ↔
      PaddingFits segments transferSize := by
  obtain ⟨chunks, hplan⟩ := exists_plan segments hpos
  constructor
  · rintro ⟨chunks', hplan', -, hwhole⟩ segment next hfollows hdata
    obtain ⟨hmem, hlast⟩ :=
      (isLastOf_iff hplan' hdisjoint hpos hfollows hdata _).mpr rfl
    exact (last_whole_iff next hpos hdata).mp (hwhole segment next hfollows hdata _ hmem hlast)
  · intro hfits
    refine ⟨chunks, hplan, plan_sound hplan hdisjoint, ?_⟩
    intro segment next hfollows hdata chunk hchunk hlast
    obtain rfl := (isLastOf_iff hplan hdisjoint hpos hfollows hdata chunk).mp ⟨hchunk, hlast⟩
    exact (last_whole_iff next hpos hdata).mpr (hfits segment next hfollows hdata)

/-! ## A full transfer that ends within a flash word -/

def unalignedSegment : IntelHexSegment := ⟨0x08000010, List.replicate 64 0xaa⟩

theorem unaligned_plan :
    planDfuChunks [unalignedSegment] 64 = some [⟨0x08000010, List.replicate 64 0xaa⟩] := by
  decide

theorem full_transfer_not_padded : ¬ ∀ (segments : List IntelHexSegment) (transferSize : ℕ),
    0 < transferSize → segments.Pairwise Disjoint →
      ∃ chunks, planDfuChunks segments transferSize = some chunks ∧
        PlanSound segments transferSize chunks ∧ LastWritesWhole segments chunks := by
  intro h
  obtain ⟨chunks, hplan, -, hwhole⟩ := h [unalignedSegment] 64 (by decide) (List.pairwise_singleton _ _)
  rw [unaligned_plan] at hplan
  cases hplan
  have hfollows : Follows [unalignedSegment] unalignedSegment none := ⟨[], [], rfl, rfl⟩
  obtain hend | ⟨following, hnone, -⟩ := hwhole unalignedSegment none hfollows (by decide) _
    List.mem_cons_self ⟨by decide, by decide⟩
  · exact absurd hend (by decide)
  · cases hnone

/-- A transfer of three flash words takes the padding. -/
theorem plan_whole_three : ∃ chunks, planDfuChunks [unalignedSegment] 96 = some chunks ∧
    PlanSound [unalignedSegment] 96 chunks ∧ LastWritesWhole [unalignedSegment] chunks := by
  refine (plan_whole_iff (by decide) (List.pairwise_singleton _ _)).mpr ?_
  rintro segment next ⟨before, after, hsorted, rfl⟩ - -
  have hmem : segment ∈ [unalignedSegment].insertionSort byAddress := by
    rw [hsorted]
    exact List.mem_append_right _ List.mem_cons_self
  rw [List.mem_singleton.mp ((List.perm_insertionSort byAddress _).mem_iff.mp hmem)]
  decide

end ArduConfigurator.FirmwareFlash
