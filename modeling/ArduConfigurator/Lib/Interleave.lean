import Mathlib.Data.List.Nodup
import Mathlib.Order.Lattice

/-! # Interleavings and merges

Several streams share a line: every element on the line is the next one of some stream, and in the
end all of them have been sent. When the elements tell which stream they belong to, each stream can
be picked out again. A merge takes the stream with the least head, and of several the first of them:
when every stream is in the order of the keys so is the line, and elements of one key come in the
order of their streams. -/
namespace ArduConfigurator
set_option autoImplicit false

section Streams
variable {α κ : Type*}

/-- `line` is an interleaving of the streams. -/
inductive Interleave : List (List α) → List α → Prop
  | done {streams : List (List α)} (h : ∀ s ∈ streams, s = []) : Interleave streams []
  | next (front : List (List α)) (x : α) (s : List α) (back : List (List α)) {line : List α}
      (h : Interleave (front ++ s :: back) line) : Interleave (front ++ (x :: s) :: back) (x :: line)

variable {line : List α} {streams : List (List α)}

theorem Interleave.mem (h : Interleave streams line) {x : α} (hx : x ∈ line) :
    ∃ s ∈ streams, x ∈ s := by
  induction h with
  | done _ => cases hx
  | next front y s back _ ih =>
    obtain rfl | hx := List.mem_cons.mp hx
    · exact ⟨x :: s, by simp, List.mem_cons_self ..⟩
    · obtain ⟨t, ht, hxt⟩ := ih hx
      obtain ht | ht := List.mem_append.mp ht
      · exact ⟨t, by simp [ht], hxt⟩
      · obtain rfl | ht := List.mem_cons.mp ht
        · exact ⟨y :: t, by simp, List.mem_cons_of_mem _ hxt⟩
        · exact ⟨t, by simp [ht], hxt⟩

theorem getElem?_append_cons_ne {front back : List α} {x y : α} {j : ℕ} (h : j ≠ front.length) :
    (front ++ x :: back)[j]? = (front ++ y :: back)[j]? := by
  obtain hlt | hge := Nat.lt_or_ge j front.length
  · rw [List.getElem?_append_left hlt, List.getElem?_append_left hlt]
  · obtain ⟨k, hk⟩ : ∃ k, j - front.length = k + 1 := ⟨j - front.length - 1, by omega⟩
    rw [List.getElem?_append_right hge, List.getElem?_append_right hge, hk,
      List.getElem?_cons_succ, List.getElem?_cons_succ]

theorem modify_append_cons (f : α → α) (front : List α) (x : α) (back : List α) :
    (front ++ x :: back).modify front.length f = front ++ f x :: back := by
  induction front with
  | nil => rfl
  | cons y front ih => rw [List.cons_append, List.length_cons, List.modify_succ_cons, ih]; rfl

/-- What a test picks off the line, when it holds of the elements of one stream and of no others,
is that stream. -/
theorem Interleave.filter_stream {p : α → Bool} (h : Interleave streams line) {i : ℕ} {s : List α}
    (hs : streams[i]? = some s)
    (hp : ∀ (j : ℕ) t, streams[j]? = some t → ∀ x ∈ t, (p x = true ↔ j = i)) :
    line.filter p = s := by
  induction h generalizing s with
  | done hnil =>
    rw [hnil s (List.mem_of_getElem? hs)]
    rfl
  | next front x t back _ ih =>
    have hself : ∀ t' : List α, (front ++ t' :: back)[front.length]? = some t' := by
      intro t'
      rw [List.getElem?_append_right (Nat.le_refl _), Nat.sub_self, List.getElem?_cons_zero]
    have hx := hp front.length (x :: t) (hself _) x (List.mem_cons_self ..)
    have hp' : ∀ (j : ℕ) u, (front ++ t :: back)[j]? = some u → ∀ y ∈ u, (p y = true ↔ j = i) := by
      intro j u hu y hy
      by_cases hj : j = front.length
      · subst hj
        obtain rfl := Option.some.inj ((hself t).symm.trans hu)
        exact hp front.length (x :: t) (hself _) y (List.mem_cons_of_mem _ hy)
      · rw [getElem?_append_cons_ne (y := x :: t) hj] at hu
        exact hp j u hu y hy
    by_cases hi : front.length = i
    · subst hi
      obtain rfl := Option.some.inj ((hself (x :: t)).symm.trans hs)
      rw [List.filter_cons_of_pos (hx.mpr rfl), ih (hself t) hp']
    · rw [List.filter_cons_of_neg (fun h => hi (hx.mp h))]
      refine ih ?_ hp'
      rwa [getElem?_append_cons_ne (y := x :: t) (Ne.symm hi)]

variable {γ : Type*}

/-- Streams of distinct keys, whose elements carry them, are picked out of the line by key. -/
theorem Interleave.filter_key [DecidableEq κ] {key : α → κ} {items : List γ} {stream : γ → List α}
    {keyOf : γ → κ} (h : Interleave (items.map stream) line)
    (hkey : ∀ c ∈ items, ∀ x ∈ stream c, key x = keyOf c) (hnodup : (items.map keyOf).Nodup) {c : γ}
    (hc : c ∈ items) :
    line.filter (fun x => key x = keyOf c) = stream c := by
  obtain ⟨i, hi, rfl⟩ := List.mem_iff_getElem.mp hc
  refine h.filter_stream (i := i) (by rw [List.getElem?_map, List.getElem?_eq_getElem hi]; rfl) ?_
  intro j t ht x hx
  rw [List.getElem?_map, Option.map_eq_some_iff] at ht
  obtain ⟨d, hd, rfl⟩ := ht
  obtain ⟨hj, rfl⟩ := List.getElem?_eq_some_iff.mp hd
  rw [decide_eq_true_iff, hkey _ (List.getElem_mem hj) x hx]
  constructor
  · intro heq
    have hj' : j < (items.map keyOf).length := by simpa using hj
    have hi' : i < (items.map keyOf).length := by simpa using hi
    have hmap : (items.map keyOf)[j] = (items.map keyOf)[i] := by
      rw [List.getElem_map, List.getElem_map, heq]
    exact hnodup.getElem_inj_iff.mp hmap
  · rintro rfl
    rfl

theorem filter_key_eq [DecidableEq κ] {keyOf : γ → κ} {items : List γ}
    (hnodup : (items.map keyOf).Nodup) {c : γ} (hc : c ∈ items) :
    items.filter (fun d => keyOf d = keyOf c) = [c] := by
  induction items with
  | nil => cases hc
  | cons d items ih =>
    rw [List.map_cons, List.nodup_cons] at hnodup
    obtain rfl | hc := List.mem_cons.mp hc
    · rw [List.filter_cons_of_pos (by simp), List.filter_eq_nil_iff.mpr]
      intro e he heq
      rw [decide_eq_true_iff] at heq
      exact hnodup.1 (List.mem_map.mpr ⟨e, he, heq⟩)
    · have hne : ¬ keyOf d = keyOf c := fun heq =>
        hnodup.1 (List.mem_map.mpr ⟨c, hc, heq.symm⟩)
      rw [List.filter_cons_of_neg (by simpa using hne), ih hnodup.2 hc]

end Streams

section Merges
variable {α κ : Type*} [LinearOrder κ]

/-- `line` is the merge of the streams. -/
inductive Merged (key : α → κ) : List (List α) → List α → Prop
  | done {streams : List (List α)} (h : ∀ s ∈ streams, s = []) : Merged key streams []
  | next (front : List (List α)) (x : α) (s : List α) (back : List (List α)) {line : List α}
      (hfront : ∀ t ∈ front, ∀ y ∈ t.head?, key x < key y)
      (hback : ∀ t ∈ back, ∀ y ∈ t.head?, key x ≤ key y)
      (h : Merged key (front ++ s :: back) line) :
      Merged key (front ++ (x :: s) :: back) (x :: line)

namespace Merged
variable {key : α → κ} {streams : List (List α)} {line : List α}

theorem interleave (h : Merged key streams line) : Interleave streams line := by
  induction h with
  | done h => exact .done h
  | next front x s back _ _ _ ih => exact .next front x s back ih

/-- What holds of the head's key and of every larger one holds of all of an ordered stream. -/
theorem forall_of_head {P : κ → Prop} (hP : ∀ {j k : κ}, P j → j ≤ k → P k) {s : List α}
    (hs : s.Pairwise fun a b => key a ≤ key b) (hhead : ∀ y ∈ s.head?, P (key y)) :
    ∀ y ∈ s, P (key y) := by
  cases s with
  | nil =>
    intro y hy
    cases hy
  | cons x s =>
    have hx := hhead x rfl
    intro y hy
    obtain rfl | hy := List.mem_cons.mp hy
    · exact hx
    · exact hP hx ((List.pairwise_cons.mp hs).1 y hy)

/-- Streams in the order of the keys, whose elements carry the place of their stream, give a line in
the order of the keys and, under one key, of the streams. -/
theorem pairwise {rank : α → ℕ} (h : Merged key streams line)
    (hsorted : ∀ s ∈ streams, s.Pairwise fun a b => key a ≤ key b)
    (hrank : ∀ (i : ℕ) s, streams[i]? = some s → ∀ x ∈ s, rank x = i) :
    line.Pairwise fun a b => key a < key b ∨ key a = key b ∧ rank a ≤ rank b := by
  induction h with
  | done => exact List.Pairwise.nil
  | next front x s back hfront hback h ih =>
    have hself : ∀ t : List α, (front ++ t :: back)[front.length]? = some t := by
      intro t
      rw [List.getElem?_append_right (Nat.le_refl _), Nat.sub_self, List.getElem?_cons_zero]
    have hx : rank x = front.length := hrank _ _ (hself (x :: s)) x (List.mem_cons_self ..)
    have hxs := hsorted (x :: s) (List.mem_append_right _ (List.mem_cons_self ..))
    refine List.pairwise_cons.mpr ⟨?_, ih ?_ ?_⟩
    · intro y hy
      obtain ⟨t, ht, hyt⟩ := h.interleave.mem hy
      obtain ⟨i, hi⟩ := List.getElem?_of_mem ht
      by_cases hif : i = front.length
      · obtain rfl := Option.some.inj ((hif ▸ hself s).symm.trans hi)
        have hy : rank y = front.length :=
          hrank _ _ (hself (x :: s)) y (List.mem_cons_of_mem _ hyt)
        rw [hx, hy]
        obtain hlt | heq := lt_or_eq_of_le ((List.pairwise_cons.mp hxs).1 y hyt)
        · exact .inl hlt
        · exact .inr ⟨heq, Nat.le_refl _⟩
      · rw [getElem?_append_cons_ne (y := x :: s) hif] at hi
        have hy : rank y = i := hrank i t hi y hyt
        have htsorted := hsorted t (List.mem_of_getElem? hi)
        obtain hlt | hge := Nat.lt_or_ge i front.length
        · rw [List.getElem?_append_left hlt] at hi
          exact .inl (forall_of_head (P := (key x < ·)) lt_of_lt_of_le htsorted
            (hfront t (List.mem_of_getElem? hi)) y hyt)
        · have hmem : t ∈ back := by
            obtain ⟨j, hj⟩ : ∃ j, i - front.length = j + 1 := ⟨i - front.length - 1, by omega⟩
            rw [List.getElem?_append_right hge, hj, List.getElem?_cons_succ] at hi
            exact List.mem_of_getElem? hi
          obtain hlt | heq := lt_or_eq_of_le (forall_of_head (P := (key x ≤ ·)) le_trans htsorted
            (hback t hmem) y hyt)
          · exact .inl hlt
          · exact .inr ⟨heq, by omega⟩
    · intro t ht
      obtain ht | ht := List.mem_append.mp ht
      · exact hsorted t (List.mem_append_left _ ht)
      · obtain rfl | ht := List.mem_cons.mp ht
        · exact (List.pairwise_cons.mp hxs).2
        · exact hsorted t (List.mem_append_right _ (List.mem_cons_of_mem _ ht))
    · intro i t hi y hy
      by_cases hif : i = front.length
      · subst hif
        obtain rfl := Option.some.inj ((hself s).symm.trans hi)
        exact hrank _ _ (hself (x :: s)) y (List.mem_cons_of_mem _ hy)
      · rw [getElem?_append_cons_ne (y := x :: s) hif] at hi
        exact hrank i t hi y hy

end Merged

end Merges

end ArduConfigurator
