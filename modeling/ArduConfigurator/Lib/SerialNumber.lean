import Mathlib.Algebra.Order.Group.Int
import Mathlib.Tactic.Common

/-! # Serial numbers

A counter is known only by its remainders modulo `m`. `lift` reads a remainder as the integer
nearest to the counter, and `Unrolled` keeps the history of a counter that both ends of a
conversation move forward: this end by taking a number for each request, the other by the numbers of
its replies. -/
namespace ArduConfigurator.SerialNumber
set_option autoImplicit false

/-! ## The nearest integer -/

/-- The integer nearest to `u` among those the serial number `n` modulo `m` stands for. -/
def lift (m : ℕ) (u : ℤ) (n : ℕ) : ℤ := u + ((n : ℤ) - u).bmod m

theorem lift_emod (m : ℕ) (u : ℤ) (n : ℕ) : lift m u n % m = n % m := by
  rw [Int.emod_eq_emod_iff_emod_sub_eq_zero]
  have h : lift m u n - n = ((n : ℤ) - u).bmod m - ((n : ℤ) - u) := by
    unfold lift
    omega
  rw [h]
  exact Int.emod_eq_zero_of_dvd Int.dvd_bmod_sub_self

variable {m n : ℕ} {u : ℤ}

/-- The integers less than half the range below `u`, or less than half above, are their own lifts. -/
theorem lift_eq (hm : 0 < m) {v : ℤ} (hlow : u - m / 2 ≤ v) (hhigh : v < u + (m + 1) / 2)
    (hv : v % m = n % m) : lift m u n = v := by
  have h : ((n : ℤ) - u).bmod m = v - u := by
    refine (Int.bmod_eq_iff hm).mpr ⟨by omega, by omega, ?_⟩
    have e : v - u - ((n : ℤ) - u) = v - n := by omega
    rw [e]
    exact Int.dvd_of_emod_eq_zero (Int.emod_eq_emod_iff_emod_sub_eq_zero.mp hv)
  unfold lift
  omega

theorem lift_self (hm : 0 < m) (hu : u % m = n % m) : lift m u n = u :=
  lift_eq hm (by omega) (by omega) hu

/-- A number less than half the range ahead lies ahead, by the distance between the remainders. -/
theorem lift_of_ahead (h : ((n : ℤ) - u) % m < (m + 1) / 2) :
    lift m u n = u + ((n : ℤ) - u) % m := by
  rw [lift, Int.bmod_eq_emod_of_lt h]

theorem lift_lt_of_behind (hm : 0 < m) (h : ¬ ((n : ℤ) - u) % m < (m + 1) / 2) :
    lift m u n < u := by
  have hlt : ((n : ℤ) - u) % m < m := Int.emod_lt_of_pos _ (by omega)
  rw [lift, Int.bmod_neg _ _ (by omega)]
  omega

/-! ## The history of a counter -/

/-- A number the counter has been used for, unrolled. -/
inductive Use
  | request (u : ℤ)
  | reply (u : ℤ)

namespace Use

/-- A request lies behind a number that is above it, a reply also behind its own. -/
def Behind : Use → ℤ → Prop
  | request u, c => u < c
  | reply u, c => u ≤ c

theorem Behind.mono {x : Use} {c d : ℤ} (h : x.Behind c) (hcd : c ≤ d) : x.Behind d := by
  cases x with
  | request u => exact lt_of_lt_of_le h hcd
  | reply u => exact le_trans h hcd

def request? : Use → Option ℤ
  | request u => some u
  | reply _ => none

def reply? : Use → Option ℤ
  | request _ => none
  | reply u => some u

end Use

/-- The counter and everything it was used for, oldest first. -/
structure Unrolled where
  counter : ℤ
  uses : List Use

namespace Unrolled

def zero : Unrolled := ⟨0, []⟩

/-- The counter is seen to have the remainder `n`. -/
def observe (m : ℕ) (h : Unrolled) (n : ℕ) : Unrolled := { h with counter := lift m h.counter n }

/-- A reply that carries `n`. -/
def hear (m : ℕ) (h : Unrolled) (n : ℕ) : Unrolled :=
  { h with uses := h.uses ++ [.reply (lift m h.counter n)] }

/-- A request that carries `n`. -/
def ask (m : ℕ) (h : Unrolled) (n : ℕ) : Unrolled :=
  { h with uses := h.uses ++ [.request (lift m h.counter n)] }

/-- Every request is ahead of the requests before it and not behind the replies before it, and so is
the number the next one will take. -/
structure Ordered (h : Unrolled) : Prop where
  uses : h.uses.Pairwise fun x y => ∀ u, y = .request u → x.Behind u
  counter : ∀ x ∈ h.uses, x.Behind h.counter

theorem ordered_zero : zero.Ordered := ⟨List.Pairwise.nil, fun _ hx => nomatch hx⟩

variable {h : Unrolled}

/-- A reply keeps the order when the counter ends up at or past its number, and not behind. -/
theorem Ordered.reply (ho : h.Ordered) {c : ℤ} (hu : u ≤ c) (hc : h.counter ≤ c) :
    Ordered ⟨c, h.uses ++ [.reply u]⟩ where
  uses := by
    refine List.pairwise_append.mpr ⟨ho.uses, List.pairwise_singleton _ _, fun x _ y hy v hv => ?_⟩
    rw [List.mem_singleton.mp hy] at hv
    cases hv
  counter x hx := by
    rw [List.mem_append, List.mem_singleton] at hx
    obtain hx | rfl := hx
    · exact (ho.counter x hx).mono hc
    · exact hu

theorem Ordered.request (ho : h.Ordered) {c : ℤ} (hc : h.counter < c) :
    Ordered ⟨c, h.uses ++ [.request h.counter]⟩ where
  uses := by
    refine List.pairwise_append.mpr ⟨ho.uses, List.pairwise_singleton _ _, fun x hx y hy v hv => ?_⟩
    rw [List.mem_singleton.mp hy] at hv
    cases hv
    exact ho.counter x hx
  counter x hx := by
    rw [List.mem_append, List.mem_singleton] at hx
    obtain hx | rfl := hx
    · exact (ho.counter x hx).mono hc.le
    · exact hc

end Unrolled
end ArduConfigurator.SerialNumber
