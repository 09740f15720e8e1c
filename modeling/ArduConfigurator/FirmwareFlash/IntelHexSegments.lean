import ArduConfigurator.FirmwareFlash.IntelHex

/-! # Joining writes into segments

The writes in the order of their addresses join when each of them begins where the one before it
ends or after that. What comes out covers the same addresses with the same bytes. -/
namespace ArduConfigurator.FirmwareFlash
set_option autoImplicit false

/-! ## Bytes at addresses -/

variable {s : IntelHexSegment} {x v : ℕ}

theorem IntelHexSegment.byteAt_eq_some :
    s.byteAt x = some v ↔ s.address ≤ x ∧ s.data[x - s.address]? = some v := by
  rw [byteAt]
  split_ifs with h <;> simp [h]

theorem IntelHexSegment.byteAt_isSome :
    (∃ v, s.byteAt x = some v) ↔ s.address ≤ x ∧ x < s.endAddress := by
  simp only [byteAt_eq_some, endAddress]
  constructor
  · rintro ⟨v, hle, hget⟩
    obtain ⟨hlt, -⟩ := List.getElem?_eq_some_iff.mp hget
    omega
  · rintro ⟨hle, hlt⟩
    exact ⟨s.data[x - s.address], hle, List.getElem?_eq_getElem (by omega)⟩

theorem IntelHexSegment.address_le_endAddress (s : IntelHexSegment) : s.address ≤ s.endAddress :=
  Nat.le_add_right _ _

theorem IntelHexSegment.endAddress_eq_address :
    s.endAddress = s.address ↔ s.data = [] := by
  rw [endAddress, Nat.add_eq_left, List.length_eq_zero_iff]

theorem IntelHexSegment.address_lt_endAddress (h : s.data ≠ []) :
    s.address < s.endAddress :=
  lt_of_le_of_ne s.address_le_endAddress fun heq => h (endAddress_eq_address.mp heq.symm)

theorem byteAt_append {y : ℕ} {a b : List ℕ} :
    (IntelHexSegment.mk x (a ++ b)).byteAt y = some v ↔
      (IntelHexSegment.mk x a).byteAt y = some v ∨
        (IntelHexSegment.mk (x + a.length) b).byteAt y = some v := by
  simp only [IntelHexSegment.byteAt_eq_some]
  by_cases hlt : y - x < a.length
  · rw [List.getElem?_append_left hlt]
    constructor
    · exact .inl
    · rintro (h | ⟨hle, -⟩)
      · exact h
      · omega
  · rw [List.getElem?_append_right (not_lt.mp hlt)]
    have hnone : a[y - x]? = none := List.getElem?_eq_none (not_lt.mp hlt)
    have hsub : y - x - a.length = y - (x + a.length) := by omega
    rw [hnone, hsub]
    constructor
    · rintro ⟨hle, h⟩
      exact .inr ⟨by omega, h⟩
    · rintro (⟨-, h⟩ | ⟨hle, h⟩)
      · cases h
      · exact ⟨by omega, h⟩

def Disjoint (a b : IntelHexSegment) : Prop := ∀ x, a.byteAt x = none ∨ b.byteAt x = none

variable {a : IntelHexSegment}

theorem disjoint_iff {b : IntelHexSegment} :
    Disjoint a b ↔ a.data = [] ∨ b.data = [] ∨ a.endAddress ≤ b.address ∨
      b.endAddress ≤ a.address := by
  have hcover : ∀ (s : IntelHexSegment) x, s.byteAt x = none ↔ ¬ (s.address ≤ x ∧ x < s.endAddress) :=
    fun s x => by
      rw [← IntelHexSegment.byteAt_isSome, ← Option.isSome_iff_exists, Option.not_isSome_iff_eq_none]
  simp only [Disjoint, hcover]
  constructor
  · intro h
    by_contra hnone
    rw [not_or, not_or, not_or] at hnone
    obtain ⟨ha, hb, hab, hba⟩ := hnone
    have hapos := IntelHexSegment.address_lt_endAddress ha
    have hbpos := IntelHexSegment.address_lt_endAddress hb
    have := h (max a.address b.address)
    omega
  · rintro (h | h | h | h) x
    · have := IntelHexSegment.endAddress_eq_address.mpr h
      omega
    · have := IntelHexSegment.endAddress_eq_address.mpr h
      omega
    · omega
    · omega

/-! ## When the writes join -/

/-- Each write begins at `x` or after it, and the next one at its end or after that. -/
def Ascends : ℕ → List IntelHexSegment → Prop
  | _, [] => True
  | x, w :: ws => x ≤ w.address ∧ Ascends w.endAddress ws

def lastEnd : List PendingSegment → ℕ
  | [] => 0
  | current :: _ => current.address + current.length

variable {pending : List PendingSegment} {write : IntelHexSegment} {next : List PendingSegment}

theorem addWrite_eq_ok (h : addWrite pending write = .ok next) :
    lastEnd pending ≤ write.address ∧ lastEnd next = write.endAddress := by
  cases pending with
  | nil =>
    cases h
    exact ⟨Nat.zero_le _, rfl⟩
  | cons current earlier =>
    simp only [addWrite] at h
    rw [lastEnd]
    split_ifs at h with heq hlt
    · cases h
      refine ⟨heq.ge, ?_⟩
      rw [lastEnd, IntelHexSegment.endAddress, heq, Nat.add_assoc]
    · cases h
      exact ⟨not_lt.mp hlt, rfl⟩

theorem addWrite_isOk (h : lastEnd pending ≤ write.address) :
    ∃ next, addWrite pending write = .ok next := by
  cases pending with
  | nil => exact ⟨_, rfl⟩
  | cons current earlier =>
    rw [lastEnd] at h
    simp only [addWrite]
    by_cases heq : write.address = current.address + current.length
    · exact ⟨_, if_pos heq⟩
    · rw [if_neg heq, if_neg (not_lt.mpr h)]
      exact ⟨_, rfl⟩

variable {writes : List IntelHexSegment} {done : List PendingSegment}

theorem groupRuns_cons_eq_ok :
    groupRuns pending (write :: writes) = .ok done ↔
      ∃ next, addWrite pending write = .ok next ∧ groupRuns next writes = .ok done := by
  rw [groupRuns]
  cases addWrite pending write <;> simp [bind, Except.bind]

theorem groupRuns_isOk :
    (∃ done, groupRuns pending writes = .ok done) ↔ Ascends (lastEnd pending) writes := by
  induction writes generalizing pending with
  | nil => exact ⟨fun _ => trivial, fun _ => ⟨_, rfl⟩⟩
  | cons write writes ih =>
    constructor
    · rintro ⟨done, h⟩
      obtain ⟨next, hadd, hrest⟩ := groupRuns_cons_eq_ok.mp h
      obtain ⟨hle, hend⟩ := addWrite_eq_ok hadd
      refine ⟨hle, ?_⟩
      rw [← hend]
      exact ih.mp ⟨done, hrest⟩
    · rintro ⟨hle, hrest⟩
      obtain ⟨next, hadd⟩ := addWrite_isOk hle
      rw [← (addWrite_eq_ok hadd).2] at hrest
      obtain ⟨done, hdone⟩ := ih.mpr hrest
      exact ⟨done, groupRuns_cons_eq_ok.mpr ⟨next, hadd, hdone⟩⟩

theorem ascends_iff :
    Ascends x writes ↔ (∀ w ∈ writes, x ≤ w.address) ∧
      writes.Pairwise fun a b => a.endAddress ≤ b.address := by
  induction writes generalizing x with
  | nil => simp [Ascends]
  | cons write writes ih =>
    rw [Ascends, ih, List.pairwise_cons, List.forall_mem_cons]
    constructor
    · rintro ⟨hle, hall, hpair⟩
      exact ⟨⟨hle, fun w hw => hle.trans (write.address_le_endAddress.trans (hall w hw))⟩,
        hall, hpair⟩
    · rintro ⟨⟨hle, -⟩, hall, hpair⟩
      exact ⟨hle, hall, hpair⟩

/-- A write and a later one of the file do not meet: the one that the sort puts first ends before
the other begins. -/
def Clear (a b : IntelHexSegment) : Prop :=
  (a.address ≤ b.address → a.endAddress ≤ b.address) ∧
    (b.address < a.address → b.endAddress ≤ a.address)

theorem pairwise_orderedInsert (hsorted : writes.Pairwise byAddress) :
    (writes.orderedInsert byAddress a).Pairwise (fun a b => a.endAddress ≤ b.address) ↔
      (∀ b ∈ writes, Clear a b) ∧ writes.Pairwise fun a b => a.endAddress ≤ b.address := by
  induction writes with
  | nil => simp
  | cons b writes ih =>
    obtain ⟨hb, hsorted⟩ := List.pairwise_cons.mp hsorted
    by_cases hab : byAddress a b
    · rw [List.orderedInsert_cons_of_le _ _ hab, List.pairwise_cons]
      refine and_congr_left fun _ => forall₂_congr fun c hc => ?_
      have hac : a.address ≤ c.address := by
        rcases List.mem_cons.mp hc with rfl | hc
        · exact hab
        · exact le_trans hab (hb c hc)
      exact ⟨fun h => ⟨fun _ => h, fun hlt => absurd hac (not_le.mpr hlt)⟩, fun h => h.1 hac⟩
    · have hba : b.address < a.address := not_le.mp hab
      rw [List.orderedInsert_of_not_le _ _ hab, List.pairwise_cons, ih hsorted, List.forall_mem_cons,
        List.pairwise_cons]
      simp only [List.mem_orderedInsert, forall_eq_or_imp]
      have hclear : Clear a b ↔ b.endAddress ≤ a.address :=
        ⟨fun h => h.2 hba, fun h => ⟨fun hle => absurd hba (not_lt.mpr hle), fun _ => h⟩⟩
      rw [hclear]
      tauto

theorem pairwise_insertionSort_iff :
    (writes.insertionSort byAddress).Pairwise (fun a b => a.endAddress ≤ b.address) ↔
      writes.Pairwise Clear := by
  induction writes with
  | nil => simp
  | cons a writes ih =>
    have htotal : Std.Total byAddress := ⟨fun a b => Nat.le_total a.address b.address⟩
    have htrans : IsTrans _ byAddress := ⟨fun _ _ _ => Nat.le_trans⟩
    rw [List.insertionSort_cons, pairwise_orderedInsert (List.pairwise_insertionSort _ _), ih,
      List.pairwise_cons]
    simp only [List.mem_insertionSort]

/-! ## What the segments hold -/

def Contiguous : ℕ → List IntelHexSegment → Prop
  | _, [] => True
  | x, run :: runs => run.address = x ∧ Contiguous run.endAddress runs

variable {runs : List IntelHexSegment}

theorem Contiguous.append_singleton (h : Contiguous x runs)
    (hw : write.address = x + (runs.flatMap IntelHexSegment.data).length) :
    Contiguous x (runs ++ [write]) := by
  induction runs generalizing x with
  | nil => exact ⟨hw, trivial⟩
  | cons run runs ih =>
    obtain ⟨rfl, h⟩ := h
    refine ⟨rfl, ih h ?_⟩
    rw [hw, List.flatMap_cons, List.length_append, IntelHexSegment.endAddress, Nat.add_assoc]

theorem Contiguous.byteAt {y : ℕ} (h : Contiguous x runs) :
    (IntelHexSegment.mk x (runs.flatMap IntelHexSegment.data)).byteAt y = some v ↔
      ∃ run ∈ runs, run.byteAt y = some v := by
  induction runs generalizing x with
  | nil => simp [IntelHexSegment.byteAt_eq_some]
  | cons run runs ih =>
    obtain ⟨rfl, h⟩ := h
    rw [List.flatMap_cons, byteAt_append, List.exists_mem_cons_iff]
    exact or_congr Iff.rfl (ih h)

theorem Contiguous.within (h : Contiguous x runs) :
    ∀ run ∈ runs, x ≤ run.address ∧
      run.endAddress ≤ x + (runs.flatMap IntelHexSegment.data).length := by
  induction runs generalizing x with
  | nil => simp
  | cons run runs ih =>
    obtain ⟨rfl, h⟩ := h
    have hend : run.endAddress = run.address + run.data.length := rfl
    intro r hr
    rw [List.flatMap_cons, List.length_append]
    rcases List.mem_cons.mp hr with rfl | hr
    · omega
    · have := ih h r hr
      omega

/-- The invariant of the first pass: the pending segments hold the writes in their order, each as
one contiguous run of bytes, and no two of them touch. -/
structure Grouped (pending : List PendingSegment) (writes : List IntelHexSegment) : Prop where
  runs : pending.reverse.flatMap PendingSegment.runs = writes
  nonempty : ∀ p ∈ pending, p.runs ≠ []
  contiguous : ∀ p ∈ pending, Contiguous p.address p.runs
  length : ∀ p ∈ pending, p.length = (p.runs.flatMap IntelHexSegment.data).length
  apart : pending.Pairwise fun later earlier => earlier.address + earlier.length < later.address

theorem Grouped.nil : Grouped [] [] := by
  constructor <;> simp

theorem Grouped.addWrite (h : Grouped pending writes) (hadd : addWrite pending write = .ok next) :
    Grouped next (writes ++ [write]) := by
  have hsingle : Contiguous write.address [write] := ⟨rfl, trivial⟩
  have hlen : write.data.length = ([write].flatMap IntelHexSegment.data).length := by simp
  cases pending with
  | nil =>
    cases hadd
    have hwrites := h.runs
    constructor <;> simp_all
  | cons current earlier =>
    obtain ⟨hruns, hne, hcon, hlength, hapart⟩ := h
    rw [List.forall_mem_cons] at hne hcon hlength
    obtain ⟨hcur, hearlier⟩ := List.pairwise_cons.mp hapart
    simp only [FirmwareFlash.addWrite] at hadd
    rw [List.reverse_cons, List.flatMap_append, List.flatMap_singleton] at hruns
    split_ifs at hadd with heq hlt
    · cases hadd
      refine ⟨?_, ?_, ?_, ?_, List.pairwise_cons.mpr ⟨hcur, hearlier⟩⟩
      · rw [List.reverse_cons, List.flatMap_append, List.flatMap_singleton, ← hruns,
          List.append_assoc]
      · exact List.forall_mem_cons.mpr ⟨by simp, hne.2⟩
      · refine List.forall_mem_cons.mpr ⟨hcon.1.append_singleton ?_, hcon.2⟩
        rw [heq, hlength.1]
      · refine List.forall_mem_cons.mpr ⟨?_, hlength.2⟩
        simp [hlength.1]
    · cases hadd
      refine ⟨?_, ?_, ?_, ?_, List.pairwise_cons.mpr ⟨?_, hapart⟩⟩
      · rw [List.reverse_cons, List.flatMap_append, List.flatMap_singleton, List.reverse_cons,
          List.flatMap_append, List.flatMap_singleton, hruns]
      · exact List.forall_mem_cons.mpr ⟨by simp, List.forall_mem_cons.mpr hne⟩
      · exact List.forall_mem_cons.mpr ⟨hsingle, List.forall_mem_cons.mpr hcon⟩
      · exact List.forall_mem_cons.mpr ⟨hlen, List.forall_mem_cons.mpr hlength⟩
      · have hgt : current.address + current.length < write.address := by omega
        refine List.forall_mem_cons.mpr ⟨hgt, fun p hp => ?_⟩
        have := hcur p hp
        change p.address + p.length < write.address
        omega

theorem Grouped.groupRuns {more : List IntelHexSegment} (h : Grouped pending writes)
    (hgroup : groupRuns pending more = .ok done) :
    Grouped done (writes ++ more) := by
  induction more generalizing pending writes with
  | nil =>
    cases hgroup
    rwa [List.append_nil]
  | cons write more ih =>
    obtain ⟨next, hadd, hrest⟩ := groupRuns_cons_eq_ok.mp hgroup
    have := ih (h.addWrite hadd) hrest
    rwa [List.append_assoc] at this

structure Joins (segments writes : List IntelHexSegment) : Prop where
  apart : segments.Pairwise fun s t => s.endAddress < t.address
  bytes : ∀ x v, (∃ s ∈ segments, s.byteAt x = some v) ↔ ∃ w ∈ writes, w.byteAt x = some v
  within : ∀ w ∈ writes, ∃ s ∈ segments, s.address ≤ w.address ∧ w.endAddress ≤ s.endAddress
  origin : ∀ s ∈ segments, ∃ w ∈ writes, w.address = s.address ∧ (s.data = [] → w.data = [])

theorem Grouped.joins (h : Grouped pending writes) :
    Joins (pending.reverse.map PendingSegment.join) writes := by
  have hend : ∀ p ∈ pending, p.join.endAddress = p.address + p.length := fun p hp => by
    rw [h.length p hp]
    rfl
  have hmem : ∀ w, w ∈ writes ↔ ∃ p ∈ pending, w ∈ p.runs := fun w => by
    rw [← h.runs, List.mem_flatMap]
    simp
  refine ⟨?_, ?_, ?_, ?_⟩
  · rw [List.pairwise_map, List.pairwise_reverse]
    refine h.apart.imp_of_mem fun {later earlier} _ hearlier hlt => ?_
    rw [hend _ hearlier]
    exact hlt
  · intro x v
    simp only [List.mem_map, List.mem_reverse, exists_exists_and_eq_and, hmem]
    constructor
    · rintro ⟨p, hp, hbyte⟩
      obtain ⟨run, hrun, hv⟩ := (h.contiguous p hp).byteAt.mp hbyte
      exact ⟨run, ⟨p, hp, hrun⟩, hv⟩
    · rintro ⟨run, ⟨p, hp, hrun⟩, hv⟩
      exact ⟨p, hp, (h.contiguous p hp).byteAt.mpr ⟨run, hrun, hv⟩⟩
  · intro w hw
    obtain ⟨p, hp, hrun⟩ := (hmem w).mp hw
    exact ⟨p.join, List.mem_map_of_mem (List.mem_reverse.mpr hp),
      (h.contiguous p hp).within w hrun⟩
  · intro s hs
    obtain ⟨p, hp, rfl⟩ := List.mem_map.mp hs
    rw [List.mem_reverse] at hp
    obtain ⟨first, rest, hruns⟩ := List.exists_cons_of_ne_nil (h.nonempty p hp)
    have hcon := h.contiguous p hp
    rw [hruns] at hcon
    refine ⟨first, (hmem first).mpr ⟨p, hp, by rw [hruns]; exact List.mem_cons_self⟩, hcon.1, ?_⟩
    intro hnil
    change p.runs.flatMap IntelHexSegment.data = [] at hnil
    rw [hruns, List.flatMap_cons, List.append_eq_nil_iff] at hnil
    exact hnil.1

/-! ## The whole pass -/

variable {parsed : ParsedIntelHex}

theorem coalesce_eq_ok :
    coalesce writes = .ok parsed ↔ ∃ pending,
      groupRuns [] (writes.insertionSort byAddress) = .ok pending ∧
        parsed.segments = pending.reverse.map PendingSegment.join ∧
        parsed.minAddress = (parsed.segments.head?.map IntelHexSegment.address).getD 0 ∧
        parsed.endAddress = (parsed.segments.getLast?.map IntelHexSegment.endAddress).getD 0 ∧
        parsed.totalBytes = (parsed.segments.map fun s => s.data.length).sum := by
  rw [coalesce]
  cases groupRuns [] (writes.insertionSort byAddress) with
  | error e => simp [bind, Except.bind]
  | ok pending =>
    obtain ⟨segments, minAddress, endAddress, totalBytes⟩ := parsed
    simp only [bind, Except.bind, Except.ok.injEq, ParsedIntelHex.mk.injEq, exists_eq_left']
    constructor
    · rintro ⟨rfl, rfl, rfl, rfl⟩
      exact ⟨rfl, rfl, rfl, rfl⟩
    · rintro ⟨rfl, rfl, rfl, rfl⟩
      exact ⟨rfl, rfl, rfl, rfl⟩

theorem coalesce_isOk :
    (∃ parsed, coalesce writes = .ok parsed) ↔ writes.Pairwise Clear := by
  rw [← pairwise_insertionSort_iff]
  have hascends : Ascends 0 (writes.insertionSort byAddress) ↔
      (writes.insertionSort byAddress).Pairwise fun a b => a.endAddress ≤ b.address := by
    rw [ascends_iff]
    exact and_iff_right fun _ _ => Nat.zero_le _
  have hgroup : (∃ done, groupRuns [] (writes.insertionSort byAddress) = .ok done) ↔
      Ascends 0 (writes.insertionSort byAddress) := groupRuns_isOk
  rw [← hascends, ← hgroup]
  constructor
  · rintro ⟨parsed, h⟩
    obtain ⟨pending, hpending, -⟩ := coalesce_eq_ok.mp h
    exact ⟨pending, hpending⟩
  · rintro ⟨pending, hpending⟩
    rw [coalesce, hpending]
    exact ⟨_, rfl⟩

theorem coalesce_joins (h : coalesce writes = .ok parsed) :
    Joins parsed.segments writes := by
  obtain ⟨pending, hgroup, hsegments, -⟩ := coalesce_eq_ok.mp h
  have hjoins := (Grouped.nil.groupRuns hgroup).joins
  rw [← hsegments, List.nil_append] at hjoins
  have hperm := List.perm_insertionSort byAddress writes
  refine ⟨hjoins.apart, fun x v => ?_, fun w hw => ?_, fun s hs => ?_⟩
  · rw [hjoins.bytes]
    simp only [hperm.mem_iff]
  · exact hjoins.within w (hperm.mem_iff.mpr hw)
  · obtain ⟨w, hw, h⟩ := hjoins.origin s hs
    exact ⟨w, hperm.mem_iff.mp hw, h⟩

theorem coalesce_perm {writes' : List IntelHexSegment} (hperm : writes.Perm writes')
    (h : writes.Pairwise Clear) (h' : writes'.Pairwise Clear) :
    coalesce writes = coalesce writes' := by
  have hsorted : writes.insertionSort byAddress = writes'.insertionSort byAddress := by
    refine List.Perm.eq_of_pairwise ?_ (pairwise_insertionSort_iff.mpr h)
      (pairwise_insertionSort_iff.mpr h') ((List.perm_insertionSort _ _).trans
        (hperm.trans (List.perm_insertionSort _ _).symm))
    intro a b _ _ hab hba
    have ha := a.address_le_endAddress
    have hb := b.address_le_endAddress
    have hadata := IntelHexSegment.endAddress_eq_address.mp (le_antisymm (by omega) ha)
    have hbdata := IntelHexSegment.endAddress_eq_address.mp (le_antisymm (by omega) hb)
    have haddress : a.address = b.address := by omega
    cases a
    cases b
    simp_all
  rw [coalesce, coalesce, hsorted]

end ArduConfigurator.FirmwareFlash
