import Mathlib.Data.List.Basic
import Mathlib.Data.Option.Basic

/-! # Runs of an event-driven system

A system is a partial step function `step : σ → ε → Option σ`: an event that cannot happen in a
state has no successor there. `run` plays a list of events, `Along` says that every event of a run
meets a condition on the state it happens in, and the two induction rules carry an invariant from
one step to a whole run. -/
namespace ArduConfigurator.Runs
set_option autoImplicit false

variable {σ ε : Type*}

/-- The state after the events `es`, provided each of them can happen in its turn. -/
def run (step : σ → ε → Option σ) : σ → List ε → Option σ
  | s, [] => some s
  | s, e :: es => (step s e).bind fun t => run step t es

/-- Every event of the run of `es` from `s` meets `C` in the state it happens in. -/
def Along (step : σ → ε → Option σ) (C : σ → ε → Prop) : σ → List ε → Prop
  | _, [] => True
  | s, e :: es => C s e ∧ ∀ t, step s e = some t → Along step C t es

variable {step : σ → ε → Option σ}

@[simp] theorem run_nil (s : σ) : run step s [] = some s := rfl

theorem run_cons (s : σ) (e : ε) (es : List ε) :
    run step s (e :: es) = (step s e).bind fun t => run step t es := rfl

variable {s : σ} {e : ε} {es : List ε}

theorem run_cons_eq_some {u : σ} :
    run step s (e :: es) = some u ↔ ∃ t, step s e = some t ∧ run step t es = some u := by
  rw [run_cons, Option.bind_eq_some_iff]

theorem run_append (s : σ) (es fs : List ε) :
    run step s (es ++ fs) = (run step s es).bind fun t => run step t fs := by
  induction es generalizing s with
  | nil => rfl
  | cons e es ih =>
    rw [List.cons_append, run_cons, run_cons, Option.bind_assoc]
    exact congrArg (Option.bind (step s e)) (funext fun t => ih t)

theorem run_append_eq_some {u : σ} {fs : List ε} :
    run step s (es ++ fs) = some u ↔
      ∃ t, run step s es = some t ∧ run step t fs = some u := by
  rw [run_append, Option.bind_eq_some_iff]

variable {C : σ → ε → Prop} {t : σ}

/-- Along a run whose next event happens, the condition splits at that event. -/
theorem along_cons (es : List ε) (h : step s e = some t) :
    Along step C s (e :: es) ↔ C s e ∧ Along step C t es := by
  constructor
  · rintro ⟨hc, hall⟩
    exact ⟨hc, hall t h⟩
  · rintro ⟨hc, hall⟩
    refine ⟨hc, fun u hu => ?_⟩
    obtain rfl : t = u := Option.some.inj (h.symm.trans hu)
    exact hall

theorem along_cons_none (es : List ε) (h : step s e = none) :
    Along step C s (e :: es) ↔ C s e := by
  constructor
  · exact fun hall => hall.1
  · refine fun hc => ⟨hc, fun t ht => ?_⟩
    rw [h] at ht
    cases ht

theorem along_append (fs : List ε) (h : run step s es = some t) :
    Along step C s (es ++ fs) ↔ Along step C s es ∧ Along step C t fs := by
  induction es generalizing s with
  | nil =>
    cases h
    exact ⟨fun h => ⟨trivial, h⟩, fun h => h.2⟩
  | cons e es ih =>
    obtain ⟨u, hu, h⟩ := run_cons_eq_some.mp h
    rw [List.cons_append, along_cons _ hu, along_cons _ hu, ih h, and_assoc]

instance decidableAlong (C : σ → ε → Prop) [∀ s e, Decidable (C s e)] :
    ∀ (s : σ) (es : List ε), Decidable (Along step C s es)
  | _, [] => isTrue trivial
  | s, e :: es =>
      match h : step s e with
      | none => decidable_of_iff _ (along_cons_none es h).symm
      | some t =>
          have := decidableAlong C t es
          decidable_of_iff _ (along_cons es h).symm

variable {D : σ → ε → Prop}

theorem Along.mono (hCD : ∀ s e, C s e → D s e) (h : Along step C s es) :
    Along step D s es := by
  induction es generalizing s with
  | nil => trivial
  | cons e es ih => exact ⟨hCD s e h.1, fun t ht => ih (h.2 t ht)⟩

variable {I : σ → Prop}

/-- What one step preserves whenever its event meets `C`, a run along `C` preserves. -/
theorem run_invariant_along (hstep : ∀ s e t, I s → C s e → step s e = some t → I t) (hs : I s)
    (hC : Along step C s es) (h : run step s es = some t) : I t := by
  induction es generalizing s with
  | nil => cases h; exact hs
  | cons e es ih =>
    obtain ⟨u, hu, h⟩ := run_cons_eq_some.mp h
    exact ih (hstep s e u hs hC.1 hu) (hC.2 u hu) h

theorem Along.and (hC : Along step C s es) (hD : Along step D s es) :
    Along step (fun s e => C s e ∧ D s e) s es := by
  induction es generalizing s with
  | nil => trivial
  | cons e es ih => exact ⟨⟨hC.1, hD.1⟩, fun t ht => ih (hC.2 t ht) (hD.2 t ht)⟩

variable {Good : σ → Prop}

/-- A property that once lost never comes back, and that an event outside `C` would lose: when it
holds at the end of a run, every event of the run met `C`. -/
theorem along_of_final {A : σ → ε → Prop} (hinv : ∀ s e t, I s → A s e → step s e = some t → I t)
    (hback : ∀ s e t, I s → step s e = some t → Good t → Good s)
    (hgood : ∀ s e t, I s → A s e → step s e = some t → Good t → C s e) (hs : I s)
    (hA : Along step A s es) (h : run step s es = some t) (ht : Good t) :
    Along step C s es ∧ Good s := by
  induction es generalizing s with
  | nil => cases h; exact ⟨trivial, ht⟩
  | cons e es ih =>
    obtain ⟨u, hu, h⟩ := run_cons_eq_some.mp h
    obtain ⟨hes, hgu⟩ := ih (hinv s e u hs hA.1 hu) (hA.2 u hu) h
    exact ⟨(along_cons es hu).mpr ⟨hgood s e u hs hA.1 hu hgu, hes⟩, hback s e u hs hu hgu⟩

theorem along_of_forall (h : ∀ s e, C s e) (s : σ) (es : List ε) :
    Along step C s es := by
  induction es generalizing s with
  | nil => trivial
  | cons e es ih => exact ⟨h s e, fun t _ => ih t⟩

theorem along_of_forall_mem {C : ε → Prop} (s : σ) (h : ∀ e ∈ es, C e) :
    Along step (fun _ e => C e) s es := by
  induction es generalizing s with
  | nil => trivial
  | cons e es ih =>
    exact ⟨h e (List.mem_cons_self ..), fun t _ => ih t fun f hf => h f (List.mem_cons_of_mem _ hf)⟩

theorem run_invariant_of_mem {C : ε → Prop} (hstep : ∀ s e t, I s → C e → step s e = some t → I t)
    (hes : ∀ e ∈ es, C e) (hs : I s) (h : run step s es = some t) : I t :=
  run_invariant_along (C := fun _ e => C e) hstep hs (along_of_forall_mem s hes) h

theorem run_invariant (hstep : ∀ s e t, I s → step s e = some t → I t) (hs : I s)
    (h : run step s es = some t) : I t :=
  run_invariant_along (C := fun _ _ => True) (fun s e t hi _ => hstep s e t hi) hs
    (along_of_forall (fun _ _ => trivial) s es) h

/-- An invariant of a system holds in every system that it simulates. -/
theorem run_invariant_of_simulates {τ φ : Type*} {step' : τ → φ → Option τ} {J : τ → Prop} (f : σ → τ)
    (hsim : ∀ s e t, step s e = some t → ∃ es, run step' (f s) es = some (f t))
    (hstep : ∀ s e t, J s → step' s e = some t → J t) (hs : J (f s)) (h : run step s es = some t) :
    J (f t) := by
  refine run_invariant (I := fun s => J (f s)) (fun s e t hi ht => ?_) hs h
  obtain ⟨fs, hfs⟩ := hsim s e t ht
  exact run_invariant hstep hi hfs

/-- A property that every event meeting `C` keeps and every other event loses: the events of a run all
meet `C` exactly if the property holds in every state the run reaches. -/
theorem along_iff_forall_reached (hinv : ∀ s e t, I s → step s e = some t → I t)
    (hkeep : ∀ s e t, I s → Good s → C s e → step s e = some t → Good t)
    (hlose : ∀ s e t, I s → Good s → ¬ C s e → step s e = some t → ¬ Good t) (hI : I s)
    (hs : Good s) (h : run step s es = some t) :
    Along step C s es ↔ ∀ pre post u, es = pre ++ post → run step s pre = some u → Good u := by
  induction es generalizing s with
  | nil =>
    refine iff_of_true trivial fun pre post u hes hu => ?_
    obtain ⟨rfl, -⟩ := List.nil_eq_append_iff.mp hes
    cases hu
    exact hs
  | cons e es ih =>
    obtain ⟨v, hv, h⟩ := run_cons_eq_some.mp h
    rw [along_cons es hv]
    constructor
    · rintro ⟨hc, hall⟩ pre post u hes hu
      have hgood := hkeep s e v hI hs hc hv
      cases pre with
      | nil =>
        cases hu
        exact hs
      | cons f pre =>
        obtain ⟨rfl, htail⟩ := List.cons.inj hes
        obtain ⟨w, hw, hu⟩ := run_cons_eq_some.mp hu
        obtain rfl := Option.some.inj (hv.symm.trans hw)
        exact (ih (hinv s e v hI hv) hgood h).mp hall pre post u htail hu
    · intro hall
      have hgood : Good v := hall [e] es v rfl (run_cons_eq_some.mpr ⟨v, hv, rfl⟩)
      have hc : C s e := by
        by_contra hc
        exact hlose s e v hI hs hc hv hgood
      refine ⟨hc, (ih (hinv s e v hI hv) hgood h).mpr fun pre post u hes hu => ?_⟩
      exact hall (e :: pre) post u (by rw [hes]; rfl) (run_cons_eq_some.mpr ⟨v, hv, hu⟩)

end ArduConfigurator.Runs
