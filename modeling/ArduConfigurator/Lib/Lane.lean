import Mathlib.Order.Basic
import Mathlib.Tactic.Common

/-! # A single-server lane

What a mutual-exclusion queue is for: customers join at the back, the one at the front is served
alone, and the next one is served only once it has left. Customers are numbered in the order they
joined, so a lane is three numbers and says nothing about how the turn is handed over. -/
namespace ArduConfigurator
set_option autoImplicit false

/-- `queued` customers have joined, the first `served` of them have left, and `busy` says whether
number `served` is being served. -/
structure Lane where
  queued : ℕ
  served : ℕ
  busy : Bool
  front : served + busy.toNat ≤ queued

namespace Lane

/-- What can happen to a lane. -/
inductive Step : Lane → Lane → Prop
  | join (l : Lane) :
      Step l ⟨l.queued + 1, l.served, l.busy, Nat.le_succ_of_le l.front⟩
  | enter {l : Lane} (h : l.served < l.queued) (hb : l.busy = false) :
      Step l ⟨l.queued, l.served, true, h⟩
  | leave {l : Lane} (h : l.served < l.queued) (hb : l.busy = true) :
      Step l ⟨l.queued, l.served + 1, false, h⟩

def empty : Lane := ⟨0, 0, false, Nat.le_refl 0⟩

/-- Customer `i` is being served. -/
def Serving (l : Lane) (i : ℕ) : Prop := l.busy = true ∧ i = l.served

variable {l : Lane}

theorem Serving.unique {i j : ℕ} (hi : l.Serving i) (hj : l.Serving j) : i = j :=
  hi.2.trans hj.2.symm

theorem served_lt (h : l.busy = true) : l.served < l.queued := by
  have hf := l.front
  rw [h] at hf
  exact hf

end Lane
end ArduConfigurator
