import Mathlib.Data.List.Basic

/-! # Programs that act on a state

A program takes a state to a later one and resolves with a value, rejects with an error or is still
running when its loops have been followed as far as one cares to. The rules of pre- and
postconditions carry an assertion through sequencing, handling of errors, loops and retries. -/
namespace ArduConfigurator.Effects
set_option autoImplicit false

variable {σ ε α β : Type}

/-- How a program ends. -/
inductive Outcome (ε α : Type) where
  | resolved (value : α)
  | rejected (error : ε)
  | running
  deriving DecidableEq

def Prog (σ ε α : Type) : Type := σ → Outcome ε α × σ

namespace Prog

def ret (value : α) : Prog σ ε α := fun s => (.resolved value, s)

def throw (error : ε) : Prog σ ε α := fun s => (.rejected error, s)

def running : Prog σ ε α := fun s => (.running, s)

def bind (m : Prog σ ε α) (f : α → Prog σ ε β) : Prog σ ε β := fun s =>
  match m s with
  | (.resolved value, t) => f value t
  | (.rejected error, t) => (.rejected error, t)
  | (.running, t) => (.running, t)

/-- `try m catch handler`. -/
def catchError (m : Prog σ ε α) (handler : ε → Prog σ ε α) : Prog σ ε α := fun s =>
  match m s with
  | (.resolved value, t) => (.resolved value, t)
  | (.rejected error, t) => handler error t
  | (.running, t) => (.running, t)

instance : Monad (Prog σ ε) where
  pure := ret
  bind := bind

/-- `try m finally cleanup`; the cleanup is told whether `m` was rejected. -/
def tryFinally (m : Prog σ ε α) (cleanup : Bool → Prog σ ε Unit) : Prog σ ε α := do
  let value ← m.catchError fun error => do
    cleanup true
    throw error
  cleanup false
  return value

def forEach {ι : Type} (body : ι → Prog σ ε Unit) : List ι → Prog σ ε Unit
  | [] => pure ()
  | item :: items => do
    body item
    forEach body items

/-- An attempt, and up to `left` more of them after a recovery when the error is one to retry. -/
def retry (again : ε → Bool) (attempt : Prog σ ε α) (recover : Prog σ ε Unit) :
    ℕ → Prog σ ε α
  | 0 => attempt
  | left + 1 => attempt.catchError fun error =>
    if again error then do
      recover
      retry again attempt recover left
    else throw error

end Prog

variable {f : α → Prog σ ε β} {s t : σ}

theorem bind_of_resolved {m : Prog σ ε α} {value : α} (h : m s = (.resolved value, t)) :
    (m >>= f) s = f value t := by
  change Prog.bind m f s = f value t
  rw [Prog.bind, h]

variable {error : ε}

theorem bind_of_rejected {m : Prog σ ε α} (h : m s = (.rejected error, t)) :
    (m >>= f) s = (.rejected error, t) := by
  change Prog.bind m f s = _
  rw [Prog.bind, h]

theorem bind_of_running {m : Prog σ ε α} (h : m s = (.running, t)) :
    (m >>= f) s = (.running, t) := by
  change Prog.bind m f s = _
  rw [Prog.bind, h]

/-! ## Cleanups -/

section Cleanup

variable {m : Prog σ ε α} {cleanup : Bool → Prog σ ε Unit} {u : σ} {value : α}

theorem tryFinally_of_resolved (hm : m s = (.resolved value, t))
    (hcleanup : cleanup false t = (.resolved (), u)) :
    m.tryFinally cleanup s = (.resolved value, u) := by
  have hbody : (m.catchError fun error => do cleanup true; Prog.throw error) s =
      (.resolved value, t) := by
    rw [Prog.catchError, hm]
  rw [Prog.tryFinally, bind_of_resolved hbody, bind_of_resolved hcleanup]
  rfl

theorem tryFinally_of_cleanup_rejected (hm : m s = (.resolved value, t))
    (hcleanup : cleanup false t = (.rejected error, u)) :
    m.tryFinally cleanup s = (.rejected error, u) := by
  have hbody : (m.catchError fun error => do cleanup true; Prog.throw error) s =
      (.resolved value, t) := by
    rw [Prog.catchError, hm]
  rw [Prog.tryFinally, bind_of_resolved hbody, bind_of_rejected hcleanup]

theorem tryFinally_of_rejected (hm : m s = (.rejected error, t))
    (hcleanup : cleanup true t = (.resolved (), u)) :
    m.tryFinally cleanup s = (.rejected error, u) := by
  have hbody : (m.catchError fun error => do cleanup true; Prog.throw error) s =
      (.rejected error, u) := by
    rw [Prog.catchError, hm]
    exact bind_of_resolved hcleanup
  rw [Prog.tryFinally, bind_of_rejected hbody]

end Cleanup

/-! ## Pre- and postconditions -/

/-- From a state where `P` holds the program resolves in one where `Q` holds of its value, or stops
in one where `X` holds. -/
def Triple (P : σ → Prop) (m : Prog σ ε α) (Q : α → σ → Prop) (X : σ → Prop) : Prop :=
  ∀ s, P s →
    match m s with
    | (.resolved value, t) => Q value t
    | (.rejected _, t) => X t
    | (.running, t) => X t

variable {P P' X X' : σ → Prop} {Q Q' : α → σ → Prop} {m : Prog σ ε α}

theorem Triple.conseq (h : Triple P m Q X) (hpre : ∀ s, P' s → P s)
    (hpost : ∀ a s, Q a s → Q' a s) (hstop : ∀ s, X s → X' s) : Triple P' m Q' X' := by
  intro s hs
  have := h s (hpre s hs)
  revert this
  cases m s with
  | mk outcome t =>
    cases outcome with
    | resolved value => exact hpost value t
    | rejected error => exact hstop t
    | running => exact hstop t

theorem Triple.pre (h : Triple P m Q X) (hpre : ∀ s, P' s → P s) : Triple P' m Q X :=
  h.conseq hpre (fun _ _ => id) fun _ => id

theorem Triple.post (h : Triple P m Q X) (hpost : ∀ a s, Q a s → Q' a s) : Triple P m Q' X :=
  h.conseq (fun _ => id) hpost fun _ => id

theorem triple_ret {a : α} (h : ∀ s, P s → Q a s) : Triple P (pure a : Prog σ ε α) Q X := h

theorem triple_throw (h : ∀ s, P s → X s) :
    Triple P (Prog.throw error : Prog σ ε α) Q X := h

theorem triple_running (h : ∀ s, P s → X s) : Triple P (Prog.running : Prog σ ε α) Q X := h

theorem triple_of_pure {p : Prop} (h : p → Triple P m Q X) : Triple (fun s => p ∧ P s) m Q X :=
  fun s hs => h hs.1 s hs.2

variable {Y : σ → Prop}

theorem Triple.or {R : α → σ → Prop} (h : Triple P m Q X) (h' : Triple P' m R Y) :
    Triple (fun s => P s ∨ P' s) m (fun a s => Q a s ∨ R a s) fun s => X s ∨ Y s := by
  intro s hs
  rcases hs with hs | hs
  · have hrun := h s hs
    revert hrun
    cases m s with
    | mk outcome t => cases outcome <;> exact Or.inl
  · have hrun := h' s hs
    revert hrun
    cases m s with
    | mk outcome t => cases outcome <;> exact Or.inr

theorem Triple.bind {R : β → σ → Prop} (hm : Triple P m Q X) (hf : ∀ a, Triple (Q a) (f a) R X) :
    Triple P (m >>= f) R X := by
  intro s hs
  have h := hm s hs
  change match m.bind f s with
    | (.resolved value, t) => R value t
    | (.rejected _, t) => X t
    | (.running, t) => X t
  rw [Prog.bind]
  cases hrun : m s with
  | mk outcome t =>
    rw [hrun] at h
    cases outcome with
    | resolved value => exact hf value t h
    | rejected error => exact h
    | running => exact h

theorem Triple.catchError {handler : ε → Prog σ ε α} (hm : Triple P m Q Y)
    (hhandler : ∀ e, Triple Y (handler e) Q X) (hrunning : ∀ s, Y s → X s) :
    Triple P (m.catchError handler) Q X := by
  intro s hs
  have h := hm s hs
  rw [Prog.catchError]
  cases hrun : m s with
  | mk outcome t =>
    rw [hrun] at h
    cases outcome with
    | resolved value => exact h
    | rejected error => exact hhandler error t h
    | running => exact hrunning t h

/-- A cleanup that keeps both what the body ends with and what it stops with. -/
theorem Triple.tryFinally {cleanup : Bool → Prog σ ε Unit} (hm : Triple P m Q X)
    (hdone : ∀ a, Triple (Q a) (cleanup false) (fun _ => Q a) X)
    (hfailed : Triple X (cleanup true) (fun _ => X) X) : Triple P (m.tryFinally cleanup) Q X := by
  unfold Prog.tryFinally
  refine Triple.bind (Q := Q) ?_ fun a => (hdone a).bind fun _ => triple_ret fun _ => id
  exact hm.catchError (fun e => hfailed.bind fun _ => triple_throw fun _ => id) fun _ => id

variable {ι : Type}

/-- A loop over a list: each round takes the assertion about the items done to the next. -/
theorem triple_forEach {body : ι → Prog σ ε Unit} {I : List ι → σ → Prop} (items finished : List ι)
    (h : ∀ before item, before ++ [item] <+: items → Triple (I (finished ++ before)) (body item) (fun _ => I (finished ++ before ++ [item])) X) :
    Triple (I finished) (Prog.forEach body items) (fun _ => I (finished ++ items)) X := by
  induction items generalizing finished with
  | nil => exact triple_ret fun s hs => by rwa [List.append_nil]
  | cons item items ih =>
    have hfirst := h [] item (List.prefix_append [item] items)
    rw [List.append_nil] at hfirst
    refine hfirst.bind fun _ => ?_
    have hrest := ih (finished ++ [item]) fun before next hprefix => by
      have := h (item :: before) next (List.cons_prefix_cons.mpr ⟨rfl, hprefix⟩)
      simpa using this
    simpa using hrest

theorem triple_forEach_of_mem {body : ι → Prog σ ε Unit} {I : σ → Prop} {items : List ι}
    (h : ∀ item ∈ items, Triple I (body item) (fun _ => I) X) :
    Triple I (Prog.forEach body items) (fun _ => I) X := by
  induction items with
  | nil => exact triple_ret fun _ => id
  | cons item items ih =>
    obtain ⟨hitem, hitems⟩ := List.forall_mem_cons.mp h
    exact hitem.bind fun _ => ih hitems

theorem triple_retry {again : ε → Bool} {recover : Prog σ ε Unit} (hattempt : Triple P m Q X)
    (hrecover : Triple X recover (fun _ => P) X) (left : ℕ) :
    Triple P (Prog.retry again m recover left) Q X := by
  induction left with
  | zero => exact hattempt
  | succ left ih =>
    refine hattempt.catchError (fun e => ?_) fun _ => id
    by_cases hagain : again e = true
    · rw [if_pos hagain]
      exact hrecover.bind fun _ => ih
    · rw [if_neg hagain]
      exact triple_throw fun _ => id

end ArduConfigurator.Effects
