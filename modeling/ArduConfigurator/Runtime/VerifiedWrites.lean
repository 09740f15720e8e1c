import ArduConfigurator.Runtime.ParameterWrites

/-! # Verified writes

A write is verified by a readback that the write's tolerance does not tell from the value asked for,
and by no other. -/
namespace ArduConfigurator.Runtime
open Parameters Runs
set_option autoImplicit false

/-- The write's tolerance tells the two values apart: a batch sends the write of one over the
other. -/
def ToldApart (old new tolerance : JsNumber) : Prop :=
  approximatelyEqualParameterValue old new tolerance = false

instance (old new tolerance : JsNumber) : Decidable (ToldApart old new tolerance) :=
  inferInstanceAs (Decidable (_ = _))

namespace Writes
variable {metadata : Text → Option ParameterDefinition} {w : Writes}

def ReadBack (w : Writes) : Prop :=
  ∀ waiter readback, (waiter, .resolved readback) ∈ w.settled →
    waiter.paramId = readback.id ∧
      approximatelyEqualParameterValue readback.value waiter.expectedValue waiter.tolerance = true

/-! ## What each operation does to the settled writes -/

variable {settles : ParameterValueWaiter → Bool} {verification : Verification}
    {entry : ParameterValueWaiter × Verification}

theorem mem_settled_settle :
    entry ∈ (w.settle settles verification).settled ↔
      entry ∈ w.settled ∨
        entry.1 ∈ w.waiters ∧ settles entry.1 = true ∧ entry.2 = verification := by
  obtain ⟨waiter, outcome⟩ := entry
  simp only [settle, List.mem_append, List.mem_map, List.mem_filter, Prod.mk.injEq]
  constructor
  · rintro (h | ⟨x, ⟨hx, hs⟩, rfl, rfl⟩)
    · exact .inl h
    · exact .inr ⟨hx, hs, rfl⟩
  · rintro (h | ⟨hx, hs, rfl⟩)
    · exact .inl h
    · exact .inr ⟨waiter, ⟨hx, hs⟩, rfl, rfl⟩

variable {waiter : ParameterValueWaiter}

theorem mem_waiters_settle :
    waiter ∈ (w.settle settles verification).waiters ↔
      waiter ∈ w.waiters ∧ settles waiter = false := by
  simp [settle]

theorem reconcile_settled (paramCount : ℕ) :
    (w.reconcileResumedParameterTable paramCount).settled = w.settled := by
  unfold reconcileResumedParameterTable
  cases w.parameterSyncResumedTotal with
  | none => rfl
  | some total => simp only; split_ifs <;> rfl

theorem reconcile_waiters (paramCount : ℕ) :
    (w.reconcileResumedParameterTable paramCount).waiters = w.waiters := by
  unfold reconcileResumedParameterTable
  cases w.parameterSyncResumedTotal with
  | none => rfl
  | some total => simp only; split_ifs <;> rfl

theorem addReal_settled (id : Text) : (w.addReal id).settled = w.settled := by
  unfold addReal
  split_ifs <;> rfl

theorem addReal_waiters (id : Text) : (w.addReal id).waiters = w.waiters := by
  unfold addReal
  split_ifs <;> rfl

def stored (metadata : Text → Option ParameterDefinition) (w : Writes)
    (message : ParamValueMessage) : Writes :=
  ((w.reconcileResumedParameterTable message.paramCount).addReal message.paramId).setEntry
    message.paramId (entryOf metadata message message.paramId none)

theorem stored_settled (message : ParamValueMessage) :
    (w.stored metadata message).settled = w.settled :=
  (addReal_settled message.paramId).trans (reconcile_settled message.paramCount)

theorem stored_waiters (message : ParamValueMessage) :
    (w.stored metadata message).waiters = w.waiters :=
  (addReal_waiters message.paramId).trans (reconcile_waiters message.paramCount)

theorem processParamValue_settled (message : ParamValueMessage) :
    (w.processParamValue metadata message).settled =
      ((w.stored metadata message).resolve
        (entryOf metadata message message.paramId none)).settled := by
  unfold processParamValue
  cases aliasMirror message.paramId <;> rfl

theorem processParamValue_waiters (message : ParamValueMessage) :
    (w.processParamValue metadata message).waiters =
      ((w.stored metadata message).resolve
        (entryOf metadata message message.paramId none)).waiters := by
  unfold processParamValue
  cases aliasMirror message.paramId <;> rfl

variable {message : ParamValueMessage}

theorem mem_settled_processParamValue :
    entry ∈ (w.processParamValue metadata message).settled ↔
      entry ∈ w.settled ∨ entry.1 ∈ w.waiters ∧
        Matches (entryOf metadata message message.paramId none) entry.1 = true ∧
        entry.2 = .resolved (entryOf metadata message message.paramId none) := by
  rw [processParamValue_settled, resolve, mem_settled_settle, stored_settled, stored_waiters]

theorem mem_waiters_processParamValue :
    waiter ∈ (w.processParamValue metadata message).waiters ↔
      waiter ∈ w.waiters ∧
        Matches (entryOf metadata message message.paramId none) waiter = false := by
  rw [processParamValue_waiters, resolve, mem_waiters_settle, stored_waiters]

variable {reason : Text}

theorem ReadBack.reject {handle : ℕ} (h : w.ReadBack) :
    (w.reject handle reason).ReadBack := by
  intro waiter readback hmem
  obtain hmem | ⟨-, -, hne⟩ := mem_settled_settle.mp hmem
  · exact h waiter readback hmem
  · cases hne

theorem ReadBack.rejectAll (h : w.ReadBack) : (w.rejectAll reason).ReadBack := by
  intro waiter readback hmem
  obtain hmem | ⟨-, -, hne⟩ := mem_settled_settle.mp hmem
  · exact h waiter readback hmem
  · cases hne

theorem ReadBack.processParamValue (h : w.ReadBack) :
    (w.processParamValue metadata message).ReadBack := by
  intro waiter readback hmem
  obtain hmem | ⟨-, hmatches, hreadback⟩ := mem_settled_processParamValue.mp hmem
  · exact h waiter readback hmem
  · cases hreadback
    exact of_decide_eq_true hmatches

theorem ReadBack.step {event : WriteEvent} {v : Writes} (h : w.ReadBack)
    (hstep : w.step metadata event = some v) : v.ReadBack := by
  cases event with
  | paramValue message => cases hstep; exact h.processParamValue
  | setParameter paramId paramValue tolerance blockReason =>
    cases blockReason with
    | none => cases hstep; exact h
    | some reason => cases hstep; exact h
  | sendFailed handle reason => cases hstep; exact h.reject
  | timedOut handle reason => cases hstep; exact h.reject
  | rejectAll reason => cases hstep; exact h.rejectAll
  | heartbeat vehicle => cases hstep; exact h
  | discardStaleLink => cases hstep; exact h
  | resumed total => cases hstep; exact h
  | resetLiveState => cases hstep; exact h

theorem readBack_of_run {events : List WriteEvent}
    (h : run (step metadata) initial events = some w) : w.ReadBack :=
  run_invariant (fun _ _ _ hI hstep => hI.step hstep)
    (fun _ _ hmem => absurd hmem List.not_mem_nil) h

/-! ## Writes over an old value -/

def nextWaiter (w : Writes) (paramId : Text) (paramValue : JsNumber)
    (tolerance : Option JsNumber) : ParameterValueWaiter :=
  ⟨w.handle, w.onWireParamId paramId, paramValue,
    tolerance.getD DEFAULT_PARAMETER_WRITE_TOLERANCE⟩

theorem skips_eq_false_iff {paramId : Text} {paramValue : JsNumber} {tolerance : Option JsNumber}
    {known : TableParameter} (hknown : w.parameters.get paramId = some known) :
    w.skips paramId paramValue tolerance = false ↔
      ToldApart known.value paramValue (tolerance.getD DEFAULT_PARAMETER_WRITE_TOLERANCE) := by
  rw [skips, hknown]
  exact Iff.rfl

theorem mem_waiters_of_toldApart (hwaiter : waiter ∈ w.waiters)
    (htold : ToldApart message.paramValue waiter.expectedValue waiter.tolerance) :
    waiter ∈ (w.processParamValue metadata message).waiters := by
  refine mem_waiters_processParamValue.mpr ⟨hwaiter, decide_eq_false ?_⟩
  rintro ⟨-, happrox⟩
  exact Bool.false_ne_true (htold.symm.trans happrox)

theorem mem_settled_of_not_toldApart (hwaiter : waiter ∈ w.waiters)
    (hid : message.paramId = waiter.paramId)
    (htold : ¬ ToldApart message.paramValue waiter.expectedValue waiter.tolerance) :
    (waiter, .resolved (entryOf metadata message message.paramId none)) ∈
      (w.processParamValue metadata message).settled := by
  refine mem_settled_processParamValue.mpr (.inr ⟨hwaiter, decide_eq_true ⟨hid.symm, ?_⟩, rfl⟩)
  exact Bool.not_eq_false _ ▸ htold

/-- However the run goes on after a write, a readback of a value that the write's tolerance tells
from the value asked for does not verify the write; a value that it does not tell apart does; and a
batch sends a write over just the values that it tells apart. -/
theorem old_value_never_verifies {before after : List WriteEvent} {v : Writes} {paramId : Text}
    {new old : JsNumber} {tolerance : Option JsNumber}
    (hbefore : run (step metadata) initial before = some w)
    (hafter : run (step metadata) (w.setParameter paramId new tolerance) after = some v) :
    (∀ known, w.parameters.get paramId = some known → known.value = old →
      (w.skips paramId new tolerance = false ↔
        ToldApart old new (tolerance.getD DEFAULT_PARAMETER_WRITE_TOLERANCE))) ∧
    (ToldApart old new (tolerance.getD DEFAULT_PARAMETER_WRITE_TOLERANCE) →
      (∀ readback, (w.nextWaiter paramId new tolerance, .resolved readback) ∈ v.settled →
        readback.value ≠ old) ∧
      ∀ message : ParamValueMessage, message.paramValue = old →
        w.nextWaiter paramId new tolerance ∈ v.waiters →
          w.nextWaiter paramId new tolerance ∈ (v.processParamValue metadata message).waiters) ∧
    (¬ ToldApart old new (tolerance.getD DEFAULT_PARAMETER_WRITE_TOLERANCE) →
      ∀ message : ParamValueMessage, message.paramValue = old →
        message.paramId = w.onWireParamId paramId →
          w.nextWaiter paramId new tolerance ∈ v.waiters →
            (w.nextWaiter paramId new tolerance,
                .resolved (entryOf metadata message message.paramId none)) ∈
              (v.processParamValue metadata message).settled) := by
  have hwrite : run (step metadata) initial
      (before ++ .setParameter paramId new tolerance none :: after) = some v :=
    run_append_eq_some.mpr ⟨w, hbefore, run_cons_eq_some.mpr ⟨_, rfl, hafter⟩⟩
  have hread := readBack_of_run hwrite
  refine ⟨?_, ?_, ?_⟩
  · rintro known hknown rfl
    exact skips_eq_false_iff hknown
  · intro htold
    refine ⟨?_, ?_⟩
    · rintro readback hmem rfl
      obtain ⟨-, happrox⟩ := hread _ readback hmem
      exact Bool.false_ne_true (htold.symm.trans happrox)
    · rintro message rfl hwaiter
      exact mem_waiters_of_toldApart hwaiter htold
  · rintro htold message rfl hid hwaiter
    exact mem_settled_of_not_toldApart hwaiter hid htold

/-! ## A write near the old value -/

def zeroValue : JsNumber := binary32.value 0

def nearZero : JsNumber := binary32.value 939524096

def nearWrite : List WriteEvent :=
  [.paramValue ⟨units "ATC_RAT_RLL_D", zeroValue, 0, 1, REAL32⟩,
   .setParameter (units "ATC_RAT_RLL_D") nearZero none none,
   .paramValue ⟨units "ATC_RAT_RLL_D", zeroValue, 65535, 1, REAL32⟩]

/-- Two single precision values that are not one, and a write of one over the other that the old
value verifies. -/
theorem near_write_verified_by_old_value :
    binary32.Holds zeroValue ∧ binary32.Holds nearZero ∧ zeroValue ≠ nearZero ∧
      ∃ w waiter readback, run (step fun _ => none) initial nearWrite = some w ∧
        (waiter, .resolved readback) ∈ w.settled ∧ waiter.expectedValue = nearZero ∧
          readback.value = zeroValue := by
  refine ⟨⟨0, by decide, rfl⟩, ⟨939524096, by decide, rfl⟩, by decide +kernel, _,
    ⟨0, units "ATC_RAT_RLL_D", nearZero, DEFAULT_PARAMETER_WRITE_TOLERANCE⟩,
    entryOf (fun _ => none) ⟨units "ATC_RAT_RLL_D", zeroValue, 65535, 1, REAL32⟩
      (units "ATC_RAT_RLL_D") none, rfl, ?_, rfl, rfl⟩
  refine mem_settled_of_not_toldApart (List.mem_singleton.mpr rfl) rfl ?_
  decide +kernel

/-- One is written over zero and the autopilot answers with the old value. -/
theorem refused_write_not_verified :
    ∃ v, run (step fun _ => none) (initial.setParameter (units "ATC_RAT_RLL_P") (.finite false 1) none)
        [.paramValue ⟨units "ATC_RAT_RLL_P", zeroValue, 65535, 1, REAL32⟩] = some v ∧
      ∀ readback, (initial.nextWaiter (units "ATC_RAT_RLL_P") (.finite false 1) none,
        .resolved readback) ∈ v.settled → readback.value ≠ zeroValue := by
  refine ⟨_, rfl, ?_⟩
  have happly := @old_value_never_verifies (fun _ => none) initial []
    [.paramValue ⟨units "ATC_RAT_RLL_P", zeroValue, 65535, 1, REAL32⟩] _ (units "ATC_RAT_RLL_P")
    (.finite false 1) zeroValue none rfl rfl
  exact (happly.2.1 (by decide +kernel)).1

end Writes
end ArduConfigurator.Runtime
