import ArduConfigurator.Lib.Entries
import Mathlib.Data.List.Count
import Mathlib.Data.List.Perm.Basic

/-! # A table of independent machines

Events carry a key. Every event first removes the slots it makes stale and then runs the machine of
its own key, which may leave a slot behind and may produce something. What comes out under one key
depends on the slot of that key alone, whatever the other keys do. -/
namespace ArduConfigurator
set_option autoImplicit false

/-- How one slot of a table is run. -/
structure SlotMachine (κ σ ε ο : Type*) where
  key : ε → κ
  survives : ε → σ → Bool
  act : ε → Option σ → Option σ × Option ο

namespace SlotMachine
variable {κ σ ε ο : Type*} [DecidableEq κ] (M : SlotMachine κ σ ε ο)

/-- One event as the slot of `k` sees it. -/
def slotStep (k : κ) (slot : Option σ) (e : ε) : Option σ × Option ο :=
  let slot := slot.filter (M.survives e)
  if M.key e = k then M.act e slot else (slot, none)

def slotOutputs (k : κ) : Option σ → List ε → List ο
  | _, [] => []
  | slot, e :: es =>
    let (next, out) := M.slotStep k slot e
    out.toList ++ slotOutputs k next es

/-- A step on the whole table that does to every slot what its machine does. -/
structure Runs (step : JsMap κ σ → ε → JsMap κ σ × Option ο) : Prop where
  slot : ∀ table e k, (step table e).1.get k = (M.slotStep k (table.get k) e).1
  output : ∀ table e, (step table e).2 = (M.slotStep (M.key e) (table.get (M.key e)) e).2

def outputs (step : JsMap κ σ → ε → JsMap κ σ × Option ο) : JsMap κ σ → List ε → List (κ × ο)
  | _, [] => []
  | table, e :: es =>
    let (next, out) := step table e
    (out.map fun o => (M.key e, o)).toList ++ outputs step next es

variable {M} {step : JsMap κ σ → ε → JsMap κ σ × Option ο}

theorem filter_outputs (hM : M.Runs step) (k : κ) (table : JsMap κ σ) (es : List ε) :
    ((M.outputs step table es).filter fun o => o.1 = k) =
      (M.slotOutputs k (table.get k) es).map fun o => (k, o) := by
  induction es generalizing table with
  | nil => rfl
  | cons e es ih =>
    have hrest := ih (step table e).1
    rw [hM.slot] at hrest
    rw [outputs, slotOutputs, List.filter_append, List.map_append]
    refine congrArg₂ _ ?_ hrest
    by_cases h : M.key e = k
    · subst h
      rw [hM.output]
      cases (M.slotStep (M.key e) (table.get (M.key e)) e).2 <;> simp
    · rw [slotStep, if_neg h]
      cases (step table e).2 <;> simp [h]

/-- Two lists of keyed products with the same products under every key have the same products. -/
theorem perm_of_filter_key {l l' : List (κ × ο)}
    (h : ∀ k, (l.filter fun o => o.1 = k) = l'.filter fun o => o.1 = k) : l.Perm l' := by
  classical
  rw [List.perm_iff_count]
  rintro ⟨k, o⟩
  have hcount : ∀ m : List (κ × ο),
      (m.filter fun o => decide (o.1 = k)).count (k, o) = m.count (k, o) := by
    intro m
    exact List.count_filter (by simp)
  rw [← hcount l, ← hcount l', h]

end SlotMachine
end ArduConfigurator
