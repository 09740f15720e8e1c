import Mathlib.Data.Finset.Max
import Mathlib.Order.Interval.Finset.Nat
import Mathlib.Tactic.Linarith

/-! # Lost frames of one source, from the sequence byte

The link monitor sees only the low byte of a frame's number. It holds a skipped byte back
until the frame is more than `seqReorderWindow` places behind the next one it expects, and
counts it as dropped then. The source's own numbering, which never wraps, stands beside the
bytes, and the accounting is read back against it.
-/

namespace ArduConfigurator.ViewModels.SequenceLoss
set_option autoImplicit false

/-! ## The accounting -/

def seqReorderWindow : ℕ := 64

/-- `n & 0xff`. -/
def lowByte (n : ℤ) : ℕ := (n % 256).toNat

structure SourceSeqAccounting where
  expected : Option ℕ
  received : ℕ
  dropped : ℕ
  pending : Finset ℕ

def createSeqAccounting : SourceSeqAccounting where
  expected := none
  received := 0
  dropped := 0
  pending := ∅

/-- The `count` bytes from `expected` on, added to `pending`. -/
def holdSkipped (expected : ℕ) : ℕ → Finset ℕ → Finset ℕ
  | 0, pending => pending
  | count + 1, pending => insert (lowByte (expected + count)) (holdSkipped expected count pending)

def fallen (expected : ℕ) (pending : Finset ℕ) : Finset ℕ :=
  pending.filter fun p => seqReorderWindow < lowByte ((expected : ℤ) - p)

def finalise (state : SourceSeqAccounting) (expected : ℕ) : SourceSeqAccounting where
  expected := some expected
  received := state.received
  dropped := state.dropped + (fallen expected state.pending).card
  pending := state.pending \ fallen expected state.pending

def accountSequence (state : SourceSeqAccounting) (seq : ℕ) : SourceSeqAccounting :=
  let counted := { state with received := state.received + 1 }
  match state.expected with
  | none => { counted with expected := some (lowByte (seq + 1)) }
  | some expected =>
    let gap := lowByte ((seq : ℤ) - expected)
    if gap = 0 then
      finalise counted (lowByte (seq + 1))
    else if gap ≤ 0x7f then
      finalise { counted with pending := holdSkipped expected gap counted.pending }
        (lowByte (seq + 1))
    else
      finalise { counted with pending := counted.pending.erase seq } expected

/-- The accounting after the frames numbered `ms` have arrived in this order. -/
def account (ms : List ℕ) : SourceSeqAccounting :=
  (ms.map fun m : ℕ => lowByte m).foldl accountSequence createSeqAccounting

/-! ## The source's own numbers -/

def highest (ms : List ℕ) : ℕ := ms.foldr max 0

/-- A frame may arrive late by `behind` places of the next expected one, and may skip fewer
than 128 frames. -/
def WithinReach (behind : ℕ) (seen : List ℕ) (m : ℕ) : Prop :=
  seen = [] ∨ if m ≤ highest seen then highest seen + 1 - m ≤ behind
    else m - (highest seen + 1) < 128

instance (behind : ℕ) (seen : List ℕ) (m : ℕ) : Decidable (WithinReach behind seen m) :=
  inferInstanceAs (Decidable (seen = [] ∨ if m ≤ highest seen then highest seen + 1 - m ≤ behind
    else m - (highest seen + 1) < 128))

def Delivered (behind : ℕ) (ms : List ℕ) : Prop :=
  ∀ seen m later, ms = seen ++ m :: later → WithinReach behind seen m

/-- The frames after the first one seen that are more than the window behind the next
expected one and are not among `arrived`. -/
def lost (seen arrived : List ℕ) : Finset ℕ :=
  (Finset.Ioc (seen.headD 0) (highest seen)).filter fun p =>
    seqReorderWindow < highest seen + 1 - p ∧ p ∉ arrived

def awaited (seen : List ℕ) : Finset ℕ :=
  (Finset.Ioc (seen.headD 0) (highest seen)).filter fun p =>
    highest seen + 1 - p ≤ seqReorderWindow ∧ p ∉ seen

/-! ## Bytes of nearby numbers -/

theorem lowByte_nat (n : ℕ) : lowByte n = n % 256 := by
  unfold lowByte
  omega

theorem lowByte_lowByte_add (n : ℤ) (k : ℤ) : lowByte (lowByte n + k) = lowByte (n + k) := by
  unfold lowByte
  omega

variable {e : ℕ}

theorem lowByte_distance {p : ℕ} (hle : p ≤ e) (hlt : e - p < 256) :
    lowByte ((lowByte e : ℤ) - lowByte p) = e - p := by
  unfold lowByte
  omega

variable {m : ℕ}

theorem lowByte_ahead (hle : e ≤ m) (hlt : m - e < 256) :
    lowByte ((lowByte m : ℤ) - lowByte e) = m - e := by
  unfold lowByte
  omega

theorem lowByte_behind (hlt : m < e) (hle : e - m ≤ 128) :
    0x7f < lowByte ((lowByte m : ℤ) - lowByte e) := by
  unfold lowByte
  omega

/-- Numbers that lie less than 256 places below `e`. -/
def Near (e : ℕ) (w : Finset ℕ) : Prop := ∀ p ∈ w, p < e ∧ e - p < 256

/-- The bytes of the numbers in `w`. -/
def bytes (w : Finset ℕ) : Finset ℕ := w.image fun p : ℕ => lowByte p

variable {w : Finset ℕ}

theorem Near.injOn (h : Near e w) :
    Set.InjOn (fun p : ℕ => lowByte (p : ℤ)) w := by
  intro p hp q hq heq
  have hp' := h p hp
  have hq' := h q hq
  simp only [lowByte_nat] at heq
  omega

theorem holdSkipped_bytes (e : ℕ) (w : Finset ℕ) (count : ℕ) :
    holdSkipped (lowByte e) count (bytes w) = bytes (w ∪ Finset.Ico e (e + count)) := by
  induction count with
  | zero => simp [holdSkipped]
  | succ count ih =>
    have hIco : Finset.Ico e (e + (count + 1)) = insert (e + count) (Finset.Ico e (e + count)) := by
      ext p
      simp only [Finset.mem_Ico, Finset.mem_insert]
      omega
    rw [holdSkipped, ih, hIco, Finset.union_insert]
    unfold bytes
    rw [Finset.image_insert, lowByte_lowByte_add]
    push_cast
    rfl

theorem fallen_bytes (h : Near e w) :
    fallen (lowByte e) (bytes w) = bytes (w.filter fun p => seqReorderWindow < e - p) := by
  ext b
  simp only [fallen, bytes, Finset.mem_filter, Finset.mem_image]
  constructor
  · rintro ⟨⟨p, hp, rfl⟩, hwindow⟩
    have hnear := h p hp
    rw [lowByte_distance hnear.1.le hnear.2] at hwindow
    exact ⟨p, ⟨hp, hwindow⟩, rfl⟩
  · rintro ⟨p, ⟨hp, hwindow⟩, rfl⟩
    have hnear := h p hp
    rw [lowByte_distance hnear.1.le hnear.2]
    exact ⟨⟨p, hp, rfl⟩, hwindow⟩

theorem bytes_sdiff_fallen (h : Near e w) :
    bytes w \ fallen (lowByte e) (bytes w) =
      bytes (w.filter fun p => e - p ≤ seqReorderWindow) := by
  rw [fallen_bytes h]
  unfold bytes
  rw [← Finset.image_sdiff_of_injOn h.injOn (Finset.filter_subset _ _)]
  congr 1
  ext p
  simp only [Finset.mem_sdiff, Finset.mem_filter, not_and, not_lt]
  constructor
  · exact fun hp => ⟨hp.1, hp.2 hp.1⟩
  · exact fun hp => ⟨hp.1, fun _ => hp.2⟩

theorem card_fallen (h : Near e w) :
    (fallen (lowByte e) (bytes w)).card = (w.filter fun p => seqReorderWindow < e - p).card := by
  rw [fallen_bytes h]
  unfold bytes
  apply Finset.card_image_of_injOn
  exact h.injOn.mono (Finset.coe_subset.mpr (Finset.filter_subset _ _))

/-! ## One arrival -/

structure Agrees (ms : List ℕ) (state : SourceSeqAccounting) : Prop where
  expected : state.expected = some (lowByte (highest ms + 1 : ℕ))
  received : state.received = ms.length
  dropped : state.dropped = (lost ms ms).card
  pending : state.pending = bytes (awaited ms)

theorem highest_append (ms : List ℕ) (m : ℕ) : highest (ms ++ [m]) = max (highest ms) m := by
  induction ms with
  | nil => simp [highest]
  | cons first ms ih =>
    simp only [highest, List.cons_append, List.foldr_cons] at ih ⊢
    rw [ih, max_assoc]

variable {ms : List ℕ}

theorem le_highest {p : ℕ} (h : p ∈ ms) : p ≤ highest ms := by
  induction ms with
  | nil => simp at h
  | cons first ms ih =>
    simp only [highest, List.foldr_cons, le_max_iff]
    rcases List.mem_cons.mp h with rfl | h
    · exact Or.inl le_rfl
    · exact Or.inr (ih h)

theorem near_awaited (ms : List ℕ) : Near (highest ms + 1) (awaited ms) := by
  intro p hp
  simp only [awaited, Finset.mem_filter, Finset.mem_Ioc] at hp
  unfold seqReorderWindow at hp
  omega

theorem headD_append (hne : ms ≠ []) (m : ℕ) :
    (ms ++ [m]).headD 0 = ms.headD 0 := by
  cases ms with
  | nil => exact absurd rfl hne
  | cons first ms => rfl

theorem headD_le_highest (ms : List ℕ) : ms.headD 0 ≤ highest ms := by
  cases ms with
  | nil => exact Nat.zero_le _
  | cons first ms => exact le_highest List.mem_cons_self

/-- `w` holds what is pending just before the window closes over the arrival of `m`. -/
structure Skipped (ms : List ℕ) (m : ℕ) (w : Finset ℕ) : Prop where
  near : Near (highest (ms ++ [m]) + 1) w
  mem : ∀ p, p ∈ w ↔ ms.headD 0 < p ∧ p ≤ highest (ms ++ [m]) ∧ p ∉ ms ++ [m] ∧
    (highest ms < p ∨ highest ms + 1 - p ≤ seqReorderWindow)

theorem awaited_of_skipped (hne : ms ≠ []) (h : Skipped ms m w) :
    (w.filter fun p => highest (ms ++ [m]) + 1 - p ≤ seqReorderWindow) = awaited (ms ++ [m]) := by
  have hmax : highest ms ≤ highest (ms ++ [m]) := by
    rw [highest_append]
    exact le_max_left _ _
  ext p
  simp only [awaited, Finset.mem_filter, Finset.mem_Ioc, h.mem, headD_append hne]
  constructor
  · rintro ⟨⟨hlow, hhigh, hnew, -⟩, hwindow⟩
    exact ⟨⟨hlow, hhigh⟩, hwindow, hnew⟩
  · rintro ⟨⟨hlow, hhigh⟩, hwindow, hnew⟩
    exact ⟨⟨hlow, hhigh, hnew, by omega⟩, hwindow⟩

theorem card_lost_append (hne : ms ≠ []) (h : Skipped ms m w)
    (hlate : ∀ p, highest ms + 1 - p > seqReorderWindow → p < highest ms → p ≠ m) :
    (lost ms ms).card + (w.filter fun p => seqReorderWindow < highest (ms ++ [m]) + 1 - p).card =
      (lost (ms ++ [m]) (ms ++ [m])).card := by
  have hmax : highest ms ≤ highest (ms ++ [m]) := by
    rw [highest_append]
    exact le_max_left _ _
  rw [← Finset.card_union_of_disjoint]
  · congr 1
    ext p
    simp only [lost, Finset.mem_union, Finset.mem_filter, Finset.mem_Ioc, h.mem,
      headD_append hne, List.mem_append, List.mem_singleton, not_or]
    constructor
    · rintro (⟨⟨hlow, hhigh⟩, hwindow, hnew⟩ | ⟨⟨hlow, hhigh, hnew, -⟩, hwindow⟩)
      · refine ⟨⟨hlow, by omega⟩, by omega, hnew, hlate p hwindow ?_⟩
        unfold seqReorderWindow at hwindow
        omega
      · exact ⟨⟨hlow, hhigh⟩, hwindow, hnew⟩
    · rintro ⟨⟨hlow, hhigh⟩, hwindow, hnew, hm⟩
      by_cases hold : p ≤ highest ms ∧ seqReorderWindow < highest ms + 1 - p
      · exact Or.inl ⟨⟨hlow, hold.1⟩, hold.2, hnew⟩
      · exact Or.inr ⟨⟨hlow, hhigh, ⟨hnew, hm⟩, by omega⟩, hwindow⟩
  · rw [Finset.disjoint_left]
    intro p hp hq
    simp only [lost, Finset.mem_filter, Finset.mem_Ioc] at hp
    simp only [Finset.mem_filter, h.mem] at hq
    omega

theorem agrees_finalise (hne : ms ≠ []) {state : SourceSeqAccounting} (hsk : Skipped ms m w)
    (hw : state.pending = bytes w) (hreceived : state.received = ms.length + 1)
    (hdropped : state.dropped = (lost ms ms).card)
    (hlate : ∀ p, highest ms + 1 - p > seqReorderWindow → p < highest ms → p ≠ m) :
    Agrees (ms ++ [m]) (finalise state (lowByte (highest (ms ++ [m]) + 1 : ℕ))) where
  expected := rfl
  received := by simp [finalise, hreceived]
  dropped := by
    rw [← card_lost_append hne hsk hlate, ← hdropped, ← card_fallen hsk.near, ← hw]
    rfl
  pending := by
    rw [← awaited_of_skipped hne hsk, ← bytes_sdiff_fallen hsk.near, ← hw]
    rfl

theorem account_append (ms : List ℕ) (m : ℕ) :
    account (ms ++ [m]) = accountSequence (account ms) (lowByte m) := by
  simp [account]

theorem agrees_first (m : ℕ) : Agrees [m] (account [m]) where
  expected := by
    simp only [account, accountSequence, createSeqAccounting, highest, List.map_cons,
      List.map_nil, List.foldl_cons, List.foldl_nil, List.foldr_cons, List.foldr_nil,
      Nat.max_zero, lowByte_lowByte_add]
    norm_cast
  received := rfl
  dropped := by simp [account, accountSequence, createSeqAccounting, lost, highest]
  pending := by simp [account, accountSequence, createSeqAccounting, awaited, highest, bytes]

theorem highest_of_ahead (h : highest ms < m) : highest (ms ++ [m]) = m := by
  rw [highest_append]
  exact max_eq_right h.le

theorem highest_of_late (h : m ≤ highest ms) :
    highest (ms ++ [m]) = highest ms := by
  rw [highest_append]
  exact max_eq_left h

theorem skipped_ahead (hahead : highest ms < m) (hreach : m - (highest ms + 1) < 128) :
    Skipped ms m (awaited ms ∪ Finset.Ico (highest ms + 1) m) where
  near := by
    rw [highest_of_ahead hahead]
    intro p hp
    rcases Finset.mem_union.mp hp with hp | hp
    · have h := near_awaited ms p hp
      simp only [awaited, Finset.mem_filter] at hp
      have hwindow : highest ms + 1 - p ≤ 64 := hp.2.1
      omega
    · rw [Finset.mem_Ico] at hp
      omega
  mem := by
    intro p
    have hfirst := headD_le_highest ms
    rw [highest_of_ahead hahead]
    simp only [awaited, Finset.mem_union, Finset.mem_filter, Finset.mem_Ioc, Finset.mem_Ico,
      List.mem_append, List.mem_singleton, not_or]
    constructor
    · rintro (⟨⟨hlow, hhigh⟩, hwindow, hnew⟩ | ⟨hlow, hhigh⟩)
      · exact ⟨hlow, by omega, ⟨hnew, by omega⟩, Or.inr hwindow⟩
      · have hnew : p ∉ ms := fun hp => absurd (le_highest hp) (by omega)
        exact ⟨by omega, by omega, ⟨hnew, by omega⟩, Or.inl (by omega)⟩
    · rintro ⟨hlow, hhigh, ⟨hnew, hm⟩, hside⟩
      by_cases hp : p ≤ highest ms
      · exact Or.inl ⟨⟨hlow, hp⟩, hside.resolve_left (by omega), hnew⟩
      · exact Or.inr ⟨by omega, by omega⟩

theorem skipped_late (hlate : m ≤ highest ms) :
    Skipped ms m ((awaited ms).erase m) where
  near := by
    rw [highest_of_late hlate]
    exact fun p hp => near_awaited ms p (Finset.mem_of_mem_erase hp)
  mem := by
    intro p
    rw [highest_of_late hlate]
    simp only [awaited, Finset.mem_erase, Finset.mem_filter, Finset.mem_Ioc, List.mem_append,
      List.mem_singleton, not_or]
    constructor
    · rintro ⟨hm, ⟨hlow, hhigh⟩, hwindow, hnew⟩
      exact ⟨hlow, hhigh, ⟨hnew, hm⟩, Or.inr hwindow⟩
    · rintro ⟨hlow, hhigh, ⟨hnew, hm⟩, hside⟩
      exact ⟨hm, ⟨hlow, hhigh⟩, hside.resolve_left (by omega), hnew⟩

theorem bytes_erase (h : Near e w) (hlt : m < e) (hle : e - m < 256) :
    (bytes w).erase (lowByte m) = bytes (w.erase m) := by
  ext b
  simp only [bytes, Finset.mem_erase, Finset.mem_image]
  constructor
  · rintro ⟨hne, p, hp, rfl⟩
    refine ⟨p, ⟨?_, hp⟩, rfl⟩
    rintro rfl
    exact hne rfl
  · rintro ⟨p, ⟨hne, hp⟩, rfl⟩
    refine ⟨?_, p, hp, rfl⟩
    have hnear := h p hp
    simp only [lowByte_nat]
    omega

theorem agrees_append (hne : ms ≠ []) (hreach : WithinReach seqReorderWindow ms m)
    (h : Agrees ms (account ms)) :
    Agrees (ms ++ [m]) (account (ms ++ [m])) := by
  have hreach := hreach.resolve_left hne
  have hseq : lowByte (lowByte m + 1) = lowByte (m + 1 : ℕ) := by
    rw [lowByte_lowByte_add]
    norm_cast
  rw [account_append, accountSequence, h.expected]
  dsimp only
  by_cases hlate : m ≤ highest ms
  · rw [if_pos hlate] at hreach
    have hgap := lowByte_behind (Nat.lt_succ_of_le hlate) (le_trans hreach (by decide))
    rw [if_neg (Nat.pos_iff_ne_zero.mp (Nat.zero_lt_of_lt hgap)), if_neg (not_le.mpr hgap)]
    have hfinal := highest_of_late hlate
    rw [← hfinal]
    refine agrees_finalise hne (skipped_late hlate) ?_ ?_ h.dropped ?_
    · have hwindow : highest ms + 1 - m ≤ 64 := hreach
      rw [h.pending]
      exact bytes_erase (near_awaited ms) (Nat.lt_succ_of_le hlate) (by omega)
    · rw [h.received]
    · intro p hp hlt heq
      rw [heq] at hp
      exact absurd hreach (not_le.mpr hp)
  · rw [if_neg hlate] at hreach
    have hahead := not_le.mp hlate
    have hgap := lowByte_ahead (Nat.succ_le_of_lt hahead)
      (lt_trans hreach (by decide : 128 < 256))
    have hlost : ∀ p, highest ms + 1 - p > seqReorderWindow → p < highest ms → p ≠ m := by
      intro p hp hlt
      omega
    have hsk := skipped_ahead hahead hreach
    have hfinal := highest_of_ahead hahead
    have hexpected : lowByte (m + 1 : ℕ) = lowByte (highest (ms ++ [m]) + 1 : ℕ) := by
      rw [hfinal]
    rw [hgap, hseq, hexpected]
    by_cases hnext : m - (highest ms + 1) = 0
    · rw [if_pos hnext]
      refine agrees_finalise hne hsk ?_ ?_ h.dropped hlost
      · rw [h.pending, Finset.Ico_eq_empty (by omega), Finset.union_empty]
      · rw [h.received]
    · rw [if_neg hnext, if_pos (Nat.le_of_lt_succ hreach)]
      refine agrees_finalise hne hsk ?_ ?_ h.dropped hlost
      · rw [h.pending]
        dsimp only
        rw [holdSkipped_bytes, Nat.add_sub_cancel' (Nat.succ_le_of_lt hahead)]
      · rw [h.received]

/-! ## Whole runs -/

variable {seen : List ℕ} {behind : ℕ} {later : List ℕ}

theorem Delivered.of_append (h : Delivered behind (seen ++ later)) :
    Delivered behind seen := by
  intro before m rest hsplit
  apply h before m (rest ++ later)
  rw [hsplit, List.append_assoc, List.cons_append]

theorem delivered_nil (behind : ℕ) : Delivered behind [] := by
  intro seen m later hsplit
  simp at hsplit

theorem Delivered.concat (h : Delivered behind seen) (hm : WithinReach behind seen m) :
    Delivered behind (seen ++ [m]) := by
  intro before n rest hsplit
  rcases List.eq_nil_or_concat rest with rfl | ⟨between, last, rfl⟩
  · obtain ⟨rfl, hn⟩ := List.append_inj' hsplit rfl
    rw [← List.head_eq_of_cons_eq hn]
    exact hm
  · rw [List.concat_eq_append, ← List.cons_append, ← List.append_assoc] at hsplit
    exact h before n between (List.append_inj' hsplit rfl).1

theorem agrees_account (ms : List ℕ) (hne : ms ≠ []) (h : Delivered seqReorderWindow ms) :
    Agrees ms (account ms) := by
  induction ms using List.reverseRecOn with
  | nil => exact absurd rfl hne
  | append_singleton ms m ih =>
    rcases List.eq_nil_or_concat ms with rfl | ⟨before, last, hms⟩
    · exact agrees_first m
    · have hms : ms ≠ [] := by simp [hms]
      exact agrees_append hms (h ms m [] rfl) (ih hms h.of_append)

theorem highest_le_append (seen later : List ℕ) : highest seen ≤ highest (seen ++ later) := by
  induction seen with
  | nil => exact Nat.zero_le _
  | cons first seen ih =>
    simp only [highest, List.cons_append, List.foldr_cons] at ih ⊢
    exact max_le_max le_rfl ih

theorem lost_stays_lost (hne : seen ≠ []) (h : Delivered seqReorderWindow (seen ++ later)) :
    lost seen (seen ++ later) = lost seen seen := by
  ext p
  simp only [lost, Finset.mem_filter, Finset.mem_Ioc, List.mem_append, not_or]
  constructor
  · rintro ⟨hrange, hwindow, hseen, -⟩
    exact ⟨hrange, hwindow, hseen⟩
  · rintro ⟨hrange, hwindow, hseen⟩
    refine ⟨hrange, hwindow, hseen, fun hlater => ?_⟩
    obtain ⟨between, rest, rfl⟩ := List.append_of_mem hlater
    have hreach := h (seen ++ between) p rest (by rw [List.append_assoc])
    have hreach := hreach.resolve_left (by simp [hne])
    have hmono := highest_le_append seen between
    rw [if_pos (hrange.2.trans hmono)] at hreach
    omega

end ArduConfigurator.ViewModels.SequenceLoss
