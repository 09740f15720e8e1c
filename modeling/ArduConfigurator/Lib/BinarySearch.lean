import Mathlib.Data.List.Range

/-! # Binary search

The loop that halves a window of indices, and the index it ends at: the first one where a predicate
that holds of an initial segment no longer holds. -/
namespace ArduConfigurator
set_option autoImplicit false

/-- `while (low < high)`: the part above the middle where `p` holds of it, else the part below. -/
def searchLoop (p : ℕ → Bool) : ℕ → ℕ → ℕ → ℕ
  | 0, low, _ => low
  | fuel + 1, low, high =>
    if low < high then
      let middle := (low + high) / 2
      if p middle then searchLoop p fuel (middle + 1) high else searchLoop p fuel low middle
    else low

/-- Among the indices below `n`, those that satisfy `p` are the ones below `b`. -/
structure Boundary (p : ℕ → Bool) (n b : ℕ) : Prop where
  le : b ≤ n
  below : ∀ i < b, p i = true
  above : ∀ i, b ≤ i → i < n → p i = false

/-- What holds of an index below `n` holds of every one before it. -/
def DownClosed (p : ℕ → Bool) (n : ℕ) : Prop := ∀ i j, i ≤ j → j < n → p j = true → p i = true

variable {p : ℕ → Bool} {n : ℕ}

theorem searchLoop_boundary (hp : DownClosed p n) {fuel low high : ℕ} (hfuel : high - low ≤ fuel)
    (hle : low ≤ high) (hhigh : high ≤ n) (hbelow : ∀ i < low, p i = true)
    (habove : ∀ i, high ≤ i → i < n → p i = false) :
    Boundary p n (searchLoop p fuel low high) := by
  induction fuel generalizing low high with
  | zero =>
    obtain rfl : low = high := by omega
    exact ⟨hhigh, hbelow, habove⟩
  | succ fuel ih =>
    rw [searchLoop]
    by_cases hlt : low < high
    · simp only [if_pos hlt]
      have hmiddle : (low + high) / 2 < high := by omega
      cases hvalue : p ((low + high) / 2) with
      | true =>
        rw [if_pos rfl]
        apply ih (by omega) (by omega) hhigh _ habove
        intro i hi
        exact hp i _ (by omega) (by omega) hvalue
      | false =>
        rw [if_neg Bool.false_ne_true]
        apply ih (by omega) (by omega) (by omega) hbelow
        intro i hi hin
        cases hpi : p i with
        | false => rfl
        | true =>
          have hmid := hp _ i hi hin hpi
          rw [hvalue] at hmid
          exact hmid.symm
    · rw [if_neg hlt]
      obtain rfl : low = high := by omega
      exact ⟨hhigh, hbelow, habove⟩

theorem search_boundary (hp : DownClosed p n) :
    Boundary p n (searchLoop p n 0 n) := by
  apply searchLoop_boundary hp (by omega) (Nat.zero_le _) le_rfl
  · intro i hi
    exact absurd hi (Nat.not_lt_zero _)
  · intro i hni hin
    exact absurd hni (Nat.not_le_of_lt hin)

variable {q : ℕ → Bool}

theorem Boundary.mono {a b : ℕ} (ha : Boundary p n a) (hb : Boundary q n b)
    (h : ∀ i < n, p i = true → q i = true) : a ≤ b := by
  by_contra hab
  have hbn : b < n := by
    have hle := ha.le
    omega
  have hq := h b hbn (ha.below b (by omega))
  rw [hb.above b le_rfl hbn] at hq
  exact Bool.false_ne_true hq

/-- The indices between two boundaries are those that satisfy the second predicate alone. -/
theorem filter_between {a b : ℕ} (ha : Boundary p n a) (hb : Boundary q n b) (hab : a ≤ b) :
    (List.range n).filter (fun i => !p i && q i) = List.range' a (b - a) := by
  have hn : List.range n = List.range' 0 a ++ List.range' a (b - a) ++ List.range' b (n - b) := by
    have hle := hb.le
    have hab' : List.range' 0 a ++ List.range' (0 + 1 * a) (b - a) = List.range' 0 (a + (b - a)) :=
      List.range'_append
    have hbn : List.range' 0 b ++ List.range' (0 + 1 * b) (n - b) = List.range' 0 (b + (n - b)) :=
      List.range'_append
    rw [Nat.add_sub_of_le hab, Nat.one_mul, Nat.zero_add] at hab'
    rw [Nat.add_sub_of_le hle, Nat.one_mul, Nat.zero_add] at hbn
    rw [hab', hbn, List.range_eq_range']
  have hfirst : (List.range' 0 a).filter (fun i => !p i && q i) = [] := by
    rw [List.filter_eq_nil_iff]
    intro i hi
    rw [List.mem_range'_1] at hi
    simp [ha.below i (by omega)]
  have hmiddle : (List.range' a (b - a)).filter (fun i => !p i && q i) =
      List.range' a (b - a) := by
    rw [List.filter_eq_self]
    intro i hi
    rw [List.mem_range'_1] at hi
    have hle := hb.le
    simp [ha.above i (by omega) (by omega), hb.below i (by omega)]
  have hlast : (List.range' b (n - b)).filter (fun i => !p i && q i) = [] := by
    rw [List.filter_eq_nil_iff]
    intro i hi
    rw [List.mem_range'_1] at hi
    simp [hb.above i (by omega) (by omega)]
  rw [hn, List.filter_append, List.filter_append, hfirst, hmiddle, hlast]
  simp

end ArduConfigurator
