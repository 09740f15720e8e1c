import ArduConfigurator.Runtime.AliasRouting

/-! # The fake GPS

A calibration without a GPS streams a synthetic position and switches the vehicle's GPS type for as
long; a stop writes the type back that the table showed at the start. -/
namespace ArduConfigurator.Runtime
open Parameters Runs
set_option autoImplicit false

def GPS1_TYPE : Text := units "GPS1_TYPE"

/-- The GPS type under which the autopilot takes the synthetic position. -/
def MAV_TYPE : JsNumber := .finite false 14

/-! ## The data -/

inductive Continuation
  | stream
  | restored (thenStart : Bool)

structure FakeGpsCall where
  handle : ℕ
  continuation : Continuation

def FakeGpsCall.restores (call : FakeGpsCall) : Bool :=
  match call.continuation with
  | .stream => false
  | .restored _ => true

def FakeGpsCall.thenStart (call : FakeGpsCall) : Bool :=
  match call.continuation with
  | .stream => false
  | .restored thenStart => thenStart

/-- The runtime, the vehicle's GPS type, and the link between them with the writes and the values
that are under way, the oldest first. -/
structure FakeGps where
  writes : Writes
  fakeGpsOriginalType : Option JsNumber
  fakeGpsTimer : Bool
  calls : List FakeGpsCall
  writeBlockReason : Option Text
  gpsType : JsNumber
  toVehicle : List (ℕ × JsNumber)
  toRuntime : List JsNumber

def FakeGps.initial (gpsType : JsNumber) : FakeGps :=
  ⟨Writes.initial, none, false, [], none, gpsType, [], []⟩

/-! ## Settled writes -/

namespace Writes
variable (w : Writes)

def waits (handle : ℕ) : Bool := (w.waiters.map (·.handle)).contains handle

def verified (handle : ℕ) : Bool :=
  w.settled.any fun
    | (waiter, .resolved _) => waiter.handle = handle
    | (_, .rejected _) => false

def gpsType : Option JsNumber := (w.parameters.get GPS1_TYPE).map fun entry => entry.value

end Writes

/-! ## Start and stop -/

namespace FakeGps
variable (metadata : Text → Option ParameterDefinition) (g : FakeGps)

def setGpsType (value : JsNumber) (continuation : Continuation) : FakeGps :=
  { g with
    writes := g.writes.setParameter GPS1_TYPE value none
    calls := g.calls ++ [⟨g.writes.handle, continuation⟩]
    toVehicle := g.toVehicle ++ [(g.writes.handle, value)] }

def switchType : FakeGps :=
  let g := { g with fakeGpsOriginalType := g.writes.gpsType }
  match g.writeBlockReason with
  | some _ => g
  | none => g.setGpsType MAV_TYPE .stream

def stopped (thenStart : Bool) : FakeGps := if thenStart then g.switchType else g

def forget : FakeGps := { g with fakeGpsOriginalType := none }

def stopFakeGps (thenStart : Bool) : FakeGps :=
  let g := { g with fakeGpsTimer := false }
  match g.fakeGpsOriginalType with
  | none => g.stopped thenStart
  | some originalType =>
    match g.writeBlockReason with
    | some _ => g.forget.stopped thenStart
    | none => g.setGpsType originalType (.restored thenStart)

def startFakeGps : FakeGps := if g.fakeGpsTimer then g.stopFakeGps true else g.switchType

/-- A call whose write settled: a start streams when it was verified, a stop forgets in any case. -/
def react (call : FakeGpsCall) : FakeGps :=
  match call.continuation with
  | .stream => if g.writes.verified call.handle then { g with fakeGpsTimer := true } else g
  | .restored _ => g.forget

/-- The calls go on whose writes the runtime settled; the starts that waited for a stop come last. -/
def turn (writes : Writes) : FakeGps :=
  let settled := g.calls.filter fun call => !writes.waits call.handle
  let g := { g with writes := writes, calls := g.calls.filter fun call => writes.waits call.handle }
  ((settled.filter (·.thenStart)).foldl fun g _ => g.switchType) (settled.foldl react g)

end FakeGps

/-! ## Runs -/

inductive FakeGpsEvent
  | startFakeGps
  | stopFakeGps
  | blocked (reason : Option Text)
  | rejected (handle : ℕ) (reason : Text)
  | taken
  | lost
  | streamed
  | echo (paramIndex paramCount paramType : ℕ)
  | echoLost

namespace FakeGps
variable (metadata : Text → Option ParameterDefinition) (g : FakeGps)

def gpsTypeMessage (value : JsNumber) (paramIndex paramCount paramType : ℕ) : ParamValueMessage :=
  ⟨GPS1_TYPE, value, paramIndex, paramCount, paramType⟩

/-- A write is rejected when its timer runs out or it cannot be sent. The vehicle answers a write it
takes with its value, and streams the value when it is asked. -/
def step : FakeGpsEvent → Option FakeGps
  | .startFakeGps => some g.startFakeGps
  | .stopFakeGps => some (g.stopFakeGps false)
  | .blocked reason => some { g with writeBlockReason := reason }
  | .rejected handle reason =>
    if g.writes.waits handle then some (g.turn (g.writes.reject handle reason)) else none
  | .taken =>
    match g.toVehicle with
    | [] => none
    | (_, value) :: toVehicle => some
      { g with gpsType := value, toVehicle := toVehicle, toRuntime := g.toRuntime ++ [value] }
  | .lost =>
    match g.toVehicle with
    | [] => none
    | _ :: toVehicle => some { g with toVehicle := toVehicle }
  | .streamed => some { g with toRuntime := g.toRuntime ++ [g.gpsType] }
  | .echo paramIndex paramCount paramType =>
    match g.toRuntime with
    | [] => none
    | value :: toRuntime => some ({ g with toRuntime := toRuntime }.turn
        (g.writes.processParamValue metadata
          (gpsTypeMessage value paramIndex paramCount paramType)))
  | .echoLost =>
    match g.toRuntime with
    | [] => none
    | _ :: toRuntime => some { g with toRuntime := toRuntime }

/-! ## Undisturbed runs -/

/-- No stop waits, and the table shows a type that is not the simulated one. -/
def StartsClean (writes : Writes) (calls : List FakeGpsCall) : Prop :=
  (∀ call ∈ calls, call.restores = false) ∧ ∃ value ∈ writes.gpsType, value ≠ MAV_TYPE

/-- When a stop goes on, its write is not under way any more; when a start goes on after it, it
starts clean. -/
def TurnsClean (writes : Writes) : Prop :=
  (∀ call ∈ g.calls, call.restores = true → writes.waits call.handle = false →
    call.handle ∉ g.toVehicle.map Prod.fst) ∧
  (∀ call ∈ g.calls, call.thenStart = true → writes.waits call.handle = false →
    StartsClean writes (g.calls.filter fun call => writes.waits call.handle))

/-- Starts are clean, and restoring writes are neither blocked nor lost, nor under way when their
wait ends. -/
def Undisturbed : FakeGpsEvent → Prop
  | .startFakeGps =>
    if g.fakeGpsTimer ∧ g.fakeGpsOriginalType.isSome then g.writeBlockReason = none
    else StartsClean g.writes g.calls
  | .stopFakeGps => g.fakeGpsOriginalType.isSome → g.writeBlockReason = none
  | .rejected handle reason => g.TurnsClean (g.writes.reject handle reason)
  | .lost => ∀ write ∈ g.toVehicle.head?, write.2 = MAV_TYPE
  | .echo paramIndex paramCount paramType =>
    ∀ value ∈ g.toRuntime.head?, g.TurnsClean (g.writes.processParamValue metadata
      (gpsTypeMessage value paramIndex paramCount paramType))
  | .blocked _ | .taken | .streamed | .echoLost => True

/-! ## The invariant -/

end FakeGps

def Genuine (before value : JsNumber) : Prop := value = before ∨ value = MAV_TYPE

namespace FakeGps
variable {metadata : Text → Option ParameterDefinition} {before : JsNumber} {g : FakeGps}

def Home (before : JsNumber) (g : FakeGps) : Prop :=
  g.gpsType = before ∧ ∀ write ∈ g.toVehicle, write.2 = before

/-- The write is under way to the vehicle, and none of another type behind it. -/
def UnderWay (before : JsNumber) (g : FakeGps) (handle : ℕ) : Prop :=
  ∃ earlier later, g.toVehicle = earlier ++ (handle, before) :: later ∧
    ∀ write ∈ later, write.2 = before

structure Kept (before : JsNumber) (g : FakeGps) : Prop where
  shown : ∀ value ∈ g.writes.gpsType, Genuine before value
  vehicle : Genuine before g.gpsType
  writes : ∀ write ∈ g.toVehicle, Genuine before write.2
  echoes : ∀ value ∈ g.toRuntime, Genuine before value
  saved : ∀ value ∈ g.fakeGpsOriginalType, value = before ∧ value ≠ MAV_TYPE
  restoring : ∀ call ∈ g.calls, call.restores = true →
    before ≠ MAV_TYPE ∧ (g.Home before ∨ g.UnderWay before call.handle)
  home : g.fakeGpsOriginalType = none → g.Home before


variable {value : JsNumber}

theorem Kept.original (h : g.Kept before) (hvalue : g.fakeGpsOriginalType = some value) :
    value = before ∧ before ≠ MAV_TYPE := by
  obtain ⟨rfl, hne⟩ := h.saved value hvalue
  exact ⟨rfl, hne⟩

theorem kept_initial : (initial before).Kept before where
  shown value hvalue := by cases hvalue
  vehicle := .inl rfl
  writes write hwrite := absurd hwrite List.not_mem_nil
  echoes value hvalue := absurd hvalue List.not_mem_nil
  saved value hvalue := by cases hvalue
  restoring call hcall := absurd hcall List.not_mem_nil
  home _ := ⟨rfl, fun write hwrite => absurd hwrite List.not_mem_nil⟩

/-! ## The vehicle and the link -/

variable {write : ℕ × JsNumber} {handle : ℕ} {writes : Writes} {calls : List FakeGpsCall}

theorem UnderWay.append (h : g.UnderWay before handle) (hwrite : write.2 = before) :
    UnderWay before { g with
      writes := writes, calls := calls, toVehicle := g.toVehicle ++ [write] } handle := by
  obtain ⟨earlier, later, hsplit, hlater⟩ := h
  refine ⟨earlier, later ++ [write], by rw [hsplit, List.append_assoc, List.cons_append], ?_⟩
  intro other hother
  obtain hother | hother := List.mem_append.mp hother
  · exact hlater other hother
  · rw [List.mem_singleton.mp hother]
    exact hwrite

variable {toVehicle : List (ℕ × JsNumber)}

theorem UnderWay.tail (h : g.UnderWay before handle) (hlink : g.toVehicle = write :: toVehicle) :
    (write = (handle, before) ∧ ∀ other ∈ toVehicle, other.2 = before) ∨
      ∃ earlier later, toVehicle = earlier ++ (handle, before) :: later ∧
        ∀ other ∈ later, other.2 = before := by
  obtain ⟨earlier, later, hsplit, hlater⟩ := h
  rw [hlink] at hsplit
  cases earlier with
  | nil =>
    obtain ⟨rfl, rfl⟩ := List.cons.inj hsplit
    exact .inl ⟨rfl, hlater⟩
  | cons first earlier =>
    obtain ⟨-, rfl⟩ := List.cons.inj hsplit
    exact .inr ⟨earlier, later, rfl, hlater⟩

theorem UnderWay.mem_handles (h : g.UnderWay before handle) :
    handle ∈ g.toVehicle.map Prod.fst := by
  obtain ⟨earlier, later, hsplit, -⟩ := h
  rw [hsplit, List.map_append, List.map_cons]
  exact List.mem_append_right _ List.mem_cons_self

theorem Kept.taken (h : g.Kept before) (hlink : g.toVehicle = (handle, value) :: toVehicle) :
    Kept before { g with
      gpsType := value, toVehicle := toVehicle, toRuntime := g.toRuntime ++ [value] } := by
  have hvalue : Genuine before value := h.writes (handle, value) (hlink ▸ List.mem_cons_self)
  have htail : ∀ write ∈ toVehicle, write ∈ g.toVehicle := fun write hwrite =>
    hlink ▸ List.mem_cons_of_mem _ hwrite
  have hhome : g.Home before → Home before { g with
      gpsType := value, toVehicle := toVehicle, toRuntime := g.toRuntime ++ [value] } := by
    rintro ⟨-, hall⟩
    exact ⟨hall (handle, value) (hlink ▸ List.mem_cons_self),
      fun write hwrite => hall write (htail write hwrite)⟩
  refine ⟨h.shown, hvalue, fun write hwrite => h.writes write (htail write hwrite), ?_, h.saved,
    fun call hcall hrestores => ?_, fun hnone => hhome (h.home hnone)⟩
  · intro echo hecho
    obtain hecho | hecho := List.mem_append.mp hecho
    · exact h.echoes echo hecho
    · rw [List.mem_singleton.mp hecho]
      exact hvalue
  · obtain ⟨hne, hcall | hcall⟩ := h.restoring call hcall hrestores
    · exact ⟨hne, .inl (hhome hcall)⟩
    · obtain ⟨hhead, hall⟩ | hcall := hcall.tail hlink
      · exact ⟨hne, .inl ⟨congrArg Prod.snd hhead, hall⟩⟩
      · exact ⟨hne, .inr hcall⟩

theorem Kept.lost (h : g.Kept before) (hlink : g.toVehicle = write :: toVehicle)
    (hwrite : write.2 = MAV_TYPE) :
    Kept before { g with toVehicle := toVehicle } := by
  have htail : ∀ other ∈ toVehicle, other ∈ g.toVehicle := fun other hother =>
    hlink ▸ List.mem_cons_of_mem _ hother
  have hhome : g.Home before → Home before { g with toVehicle := toVehicle } := fun hg =>
    ⟨hg.1, fun other hother => hg.2 other (htail other hother)⟩
  refine ⟨h.shown, h.vehicle, fun other hother => h.writes other (htail other hother), h.echoes,
    h.saved, fun call hcall hrestores => ?_, fun hnone => hhome (h.home hnone)⟩
  obtain ⟨hne, hcall | hcall⟩ := h.restoring call hcall hrestores
  · exact ⟨hne, .inl (hhome hcall)⟩
  · obtain ⟨hhead, -⟩ | hcall := hcall.tail hlink
    · exact absurd ((congrArg Prod.snd hhead).symm.trans hwrite) hne
    · exact ⟨hne, .inr hcall⟩

theorem Kept.streamed (h : g.Kept before) :
    Kept before { g with toRuntime := g.toRuntime ++ [g.gpsType] } := by
  refine ⟨h.shown, h.vehicle, h.writes, fun echo hecho => ?_, h.saved, h.restoring, h.home⟩
  obtain hecho | hecho := List.mem_append.mp hecho
  · exact h.echoes echo hecho
  · rw [List.mem_singleton.mp hecho]
    exact h.vehicle

theorem Kept.echoLost {toRuntime : List JsNumber} (h : g.Kept before)
    (hlink : g.toRuntime = value :: toRuntime) : Kept before { g with toRuntime := toRuntime } :=
  ⟨h.shown, h.vehicle, h.writes,
    fun echo hecho => h.echoes echo (hlink ▸ List.mem_cons_of_mem _ hecho),
    h.saved, h.restoring, h.home⟩

/-! ## Starts and stops -/

theorem Kept.timer (h : g.Kept before) (running : Bool) :
    Kept before { g with fakeGpsTimer := running } :=
  ⟨h.shown, h.vehicle, h.writes, h.echoes, h.saved, h.restoring, h.home⟩

theorem Kept.forget (h : g.Kept before) (hhome : g.Home before) : g.forget.Kept before :=
  ⟨h.shown, h.vehicle, h.writes, h.echoes, fun _ hvalue => absurd hvalue (Option.not_mem_none _),
    h.restoring, fun _ => hhome⟩

theorem Kept.restore (h : g.Kept before) (hsaved : g.fakeGpsOriginalType = some before)
    (thenStart : Bool) : (g.setGpsType before (.restored thenStart)).Kept before := by
  have hne := (h.original hsaved).2
  refine ⟨h.shown, h.vehicle, fun write hwrite => ?_, h.echoes, h.saved,
    fun call hcall hrestores => ?_,
    fun hnone => absurd (hsaved.symm.trans hnone) (Option.some_ne_none _)⟩
  · obtain hwrite | hwrite := List.mem_append.mp hwrite
    · exact h.writes write hwrite
    · rw [List.mem_singleton.mp hwrite]
      exact .inl rfl
  · refine ⟨hne, ?_⟩
    obtain hcall | hcall := List.mem_append.mp hcall
    · obtain ⟨-, ⟨htype, hall⟩ | hcall⟩ := h.restoring call hcall hrestores
      · refine .inl ⟨htype, fun write hwrite => ?_⟩
        obtain hwrite | hwrite := List.mem_append.mp hwrite
        · exact hall write hwrite
        · rw [List.mem_singleton.mp hwrite]
      · exact .inr (hcall.append rfl)
    · rw [List.mem_singleton.mp hcall]
      exact .inr ⟨g.toVehicle, [], rfl, fun write hwrite => absurd hwrite List.not_mem_nil⟩

theorem StartsClean.type (h : StartsClean g.writes g.calls) (hkept : g.Kept before) :
    g.writes.gpsType = some before ∧ before ≠ MAV_TYPE := by
  obtain ⟨value, hvalue, hne⟩ := h.2
  obtain rfl | hmav := hkept.shown value hvalue
  · exact ⟨hvalue, hne⟩
  · exact absurd hmav hne

theorem Kept.switchType (h : g.Kept before) (hclean : StartsClean g.writes g.calls) :
    g.switchType.Kept before := by
  obtain ⟨htype, hne⟩ := hclean.type h
  have hsaved : Kept before { g with fakeGpsOriginalType := g.writes.gpsType } := by
    refine ⟨h.shown, h.vehicle, h.writes, h.echoes, fun value hvalue => ?_, h.restoring,
      fun hnone => absurd (htype.symm.trans hnone) (Option.some_ne_none _)⟩
    obtain rfl := Option.some.inj (htype.symm.trans hvalue)
    exact ⟨rfl, hne⟩
  simp only [FakeGps.switchType]
  split
  · exact hsaved
  · refine ⟨hsaved.shown, hsaved.vehicle, fun write hwrite => ?_, hsaved.echoes, hsaved.saved,
      fun call hcall hrestores => ?_,
      fun hnone => absurd (htype.symm.trans hnone) (Option.some_ne_none _)⟩
    · obtain hwrite | hwrite := List.mem_append.mp hwrite
      · exact h.writes write hwrite
      · rw [List.mem_singleton.mp hwrite]
        exact .inr rfl
    · obtain hcall | hcall := List.mem_append.mp hcall
      · rw [hclean.1 call hcall] at hrestores
        cases hrestores
      · rw [List.mem_singleton.mp hcall] at hrestores
        cases hrestores

theorem StartsClean.switchType (h : StartsClean g.writes g.calls) :
    StartsClean g.switchType.writes g.switchType.calls := by
  simp only [FakeGps.switchType]
  split
  · exact h
  · refine ⟨fun call hcall => ?_, h.2⟩
    obtain hcall | hcall := List.mem_append.mp hcall
    · exact h.1 call hcall
    · rw [List.mem_singleton.mp hcall]
      rfl

variable {thenStart : Bool}

theorem Kept.stopped (h : g.Kept before)
    (hclean : thenStart = true → StartsClean g.writes g.calls) :
    (g.stopped thenStart).Kept before := by
  cases thenStart with
  | false => exact h
  | true => exact h.switchType (hclean rfl)

theorem Kept.stopFakeGps (h : g.Kept before)
    (hfree : g.fakeGpsOriginalType.isSome → g.writeBlockReason = none)
    (hclean : g.fakeGpsOriginalType = none → thenStart = true → StartsClean g.writes g.calls) :
    (g.stopFakeGps thenStart).Kept before := by
  have hstop := h.timer false
  simp only [FakeGps.stopFakeGps]
  split
  · rename_i hnone
    exact hstop.stopped (hclean hnone)
  · rename_i value hsaved
    have hunblocked := hfree (Option.isSome_iff_exists.mpr ⟨value, hsaved⟩)
    split
    · rename_i reason hblocked
      exact absurd (hunblocked.symm.trans hblocked) (Option.some_ne_none _).symm
    · obtain rfl := (h.original hsaved).1
      exact hstop.restore hsaved thenStart

theorem Kept.startFakeGps (h : g.Kept before) (hsound : Undisturbed metadata g .startFakeGps) :
    g.startFakeGps.Kept before := by
  unfold FakeGps.startFakeGps
  simp only [Undisturbed] at hsound
  by_cases htimer : g.fakeGpsTimer = true
  · rw [if_pos htimer]
    refine h.stopFakeGps (fun hsome => ?_) (fun hnone _ => ?_)
    · rwa [if_pos ⟨htimer, hsome⟩] at hsound
    · rwa [if_neg fun hboth => by rw [hnone] at hboth; exact Bool.false_ne_true hboth.2]
        at hsound
  · rw [if_neg htimer]
    rw [if_neg fun hboth => htimer hboth.1] at hsound
    exact h.switchType hsound

/-! ## Settled calls -/

theorem Kept.react (h : g.Kept before) {call : FakeGpsCall}
    (hhome : call.restores = true → g.Home before) : (react g call).Kept before := by
  unfold FakeGps.react
  cases hcontinuation : call.continuation with
  | stream =>
    simp only
    split_ifs
    · exact h.timer true
    · exact h
  | restored thenStart =>
    exact h.forget (hhome (by rw [FakeGpsCall.restores, hcontinuation]))

theorem react_link (call : FakeGpsCall) :
    (react g call).writes = g.writes ∧ (react g call).calls = g.calls ∧
      (Home before (react g call) ↔ g.Home before) := by
  unfold FakeGps.react
  cases call.continuation with
  | stream => simp only; split_ifs <;> exact ⟨rfl, rfl, Iff.rfl⟩
  | restored thenStart => exact ⟨rfl, rfl, Iff.rfl⟩

theorem Kept.foldl_react {settled : List FakeGpsCall} (h : g.Kept before)
    (hhome : ∀ call ∈ settled, call.restores = true → g.Home before) :
    (settled.foldl FakeGps.react g).Kept before := by
  induction settled generalizing g with
  | nil => exact h
  | cons call settled ih =>
    refine ih (h.react (hhome call List.mem_cons_self)) fun other hother hrestores => ?_
    exact (react_link call).2.2.mpr (hhome other (List.mem_cons_of_mem _ hother) hrestores)

theorem foldl_react_link (settled : List FakeGpsCall) :
    (settled.foldl react g).writes = g.writes ∧ (settled.foldl react g).calls = g.calls := by
  induction settled generalizing g with
  | nil => exact ⟨rfl, rfl⟩
  | cons call settled ih =>
    obtain ⟨hwrites, hcalls, -⟩ := @react_link g.gpsType g call
    exact ⟨(ih (g := react g call)).1.trans hwrites, (ih (g := react g call)).2.trans hcalls⟩

theorem Kept.foldl_switchType (h : g.Kept before)
    (hclean : ∀ call ∈ calls, StartsClean g.writes g.calls) :
    (calls.foldl (fun g _ => g.switchType) g).Kept before := by
  induction calls generalizing g with
  | nil => exact h
  | cons call calls ih =>
    have hg := hclean call List.mem_cons_self
    exact ih (h.switchType hg) fun _ _ => hg.switchType

theorem Kept.turn (h : g.Kept before) (hclean : g.TurnsClean writes)
    (hshown : ∀ value ∈ writes.gpsType, Genuine before value) :
    (g.turn writes).Kept before := by
  have hwrites : Kept before { g with
      writes := writes, calls := g.calls.filter fun call => writes.waits call.handle } :=
    ⟨hshown, h.vehicle, h.writes, h.echoes, h.saved,
      fun call hcall => h.restoring call (List.mem_of_mem_filter hcall), h.home⟩
  refine (hwrites.foldl_react fun call hcall hrestores => ?_).foldl_switchType fun call hcall => ?_
  · obtain ⟨hmem, hsettled⟩ := List.mem_filter.mp hcall
    obtain ⟨-, hhome | hway⟩ := h.restoring call hmem hrestores
    · exact hhome
    · exact absurd hway.mem_handles (hclean.1 call hmem hrestores (Bool.not_eq_true' _ ▸ hsettled))
  · obtain ⟨hcall, hstart⟩ := List.mem_filter.mp hcall
    obtain ⟨hmem, hsettled⟩ := List.mem_filter.mp hcall
    obtain ⟨hwrites, hcalls⟩ := foldl_react_link (g := { g with
      writes := writes, calls := g.calls.filter fun call => writes.waits call.handle })
      (g.calls.filter fun call => !writes.waits call.handle)
    rw [hwrites, hcalls]
    exact hclean.2 call hmem hstart (Bool.not_eq_true' _ ▸ hsettled)

theorem gpsType_processParamValue {w : Writes} {paramIndex paramCount paramType : ℕ} :
    (w.processParamValue metadata
      (gpsTypeMessage value paramIndex paramCount paramType)).gpsType = some value := by
  have hmirror : aliasMirror GPS1_TYPE = some (units "GPS_TYPE") := by decide +kernel
  have hother : units "GPS_TYPE" ≠ GPS1_TYPE := by decide +kernel
  rw [Writes.gpsType, Writes.processParamValue_get, gpsTypeMessage, hmirror,
    if_neg fun h => hother (Option.some.inj h), if_pos rfl]
  rfl

theorem Kept.step {d : FakeGps} {event : FakeGpsEvent} (h : g.Kept before)
    (hsound : Undisturbed metadata g event) (hstep : g.step metadata event = some d) :
    d.Kept before := by
  cases event with
  | startFakeGps => cases hstep; exact h.startFakeGps hsound
  | stopFakeGps => cases hstep; exact h.stopFakeGps hsound fun _ hfalse => by cases hfalse
  | blocked reason =>
    cases hstep
    exact ⟨h.shown, h.vehicle, h.writes, h.echoes, h.saved, h.restoring, h.home⟩
  | rejected handle reason =>
    simp only [FakeGps.step] at hstep
    split_ifs at hstep
    cases hstep
    exact h.turn hsound h.shown
  | taken =>
    simp only [FakeGps.step] at hstep
    split at hstep
    · cases hstep
    · rename_i handle value toVehicle hlink
      cases hstep
      exact h.taken hlink
  | lost =>
    simp only [FakeGps.step] at hstep
    split at hstep
    · cases hstep
    · rename_i write toVehicle hlink
      cases hstep
      refine h.lost hlink (hsound write ?_)
      rw [hlink]
      rfl
  | streamed => cases hstep; exact h.streamed
  | echo paramIndex paramCount paramType =>
    simp only [FakeGps.step] at hstep
    split at hstep
    · cases hstep
    · rename_i value toRuntime hlink
      cases hstep
      have hvalue : value ∈ g.toRuntime := hlink ▸ List.mem_cons_self
      have hclean := hsound value (by rw [hlink]; rfl)
      refine (h.echoLost hlink).turn hclean fun shown hshown => ?_
      rw [gpsType_processParamValue] at hshown
      cases hshown
      exact h.echoes _ hvalue
  | echoLost =>
    simp only [FakeGps.step] at hstep
    split at hstep
    · cases hstep
    · rename_i value toRuntime hlink
      cases hstep
      exact h.echoLost hlink

/-! ## Every run -/

/-- The saved type is the one before the first start and not the simulated one, and the vehicle has
it or the runtime remembers it. -/
def Restorable (before : JsNumber) (g : FakeGps) : Prop :=
  (∀ value ∈ g.fakeGpsOriginalType, value = before ∧ value ≠ MAV_TYPE) ∧
    (g.fakeGpsOriginalType = some before ∨ g.gpsType = before)

theorem Kept.restorable (h : g.Kept before) : g.Restorable before := by
  refine ⟨h.saved, ?_⟩
  cases hsaved : g.fakeGpsOriginalType with
  | none => exact .inr (h.home hsaved).1
  | some value => exact .inl (congrArg some (h.original hsaved).1)

/-- In a run that is undisturbed every state can be restored. -/
theorem gps_type_restorable {events : List FakeGpsEvent}
    (hrun : run (step metadata) (initial before) events = some g)
    (hsound : Along (step metadata) (Undisturbed metadata) (initial before) events) :
    ∀ earlier later u, events = earlier ++ later →
      run (step metadata) (initial before) earlier = some u → u.Restorable before := by
  rintro earlier later u rfl hearlier
  obtain ⟨hearly, -⟩ := (along_append later hearlier).mp hsound
  exact (run_invariant_along (fun _ _ _ hkept hC hstep => hkept.step hC hstep) kept_initial hearly
    hearlier).restorable

/-! ## A late echo -/

instance (writes : Writes) (calls : List FakeGpsCall) : Decidable (StartsClean writes calls) :=
  inferInstanceAs (Decidable (_ ∧ _))

instance (g : FakeGps) (writes : Writes) : Decidable (g.TurnsClean writes) :=
  inferInstanceAs (Decidable (_ ∧ _))

instance (g : FakeGps) : ∀ event, Decidable (Undisturbed metadata g event)
  | .startFakeGps => inferInstanceAs (Decidable (ite _ _ _))
  | .stopFakeGps => inferInstanceAs (Decidable (_ → _))
  | .rejected _ _ => inferInstanceAs (Decidable (TurnsClean _ _))
  | .lost => inferInstanceAs (Decidable (∀ _ ∈ _, _))
  | .echo _ _ _ => inferInstanceAs (Decidable (∀ _ ∈ _, _))
  | .blocked _ | .taken | .streamed | .echoLost => isTrue trivial

def AUTO_TYPE : JsNumber := .finite false 1

/-- A first start fails, its write is taken late and its echo shown, and a second start follows. -/
def lateEcho : List FakeGpsEvent :=
  [.streamed, .echo 0 1 2, .startFakeGps, .rejected 0 (units "timed out"), .taken, .echo 0 1 2,
    .startFakeGps]

def lostRestore : List FakeGpsEvent :=
  [.streamed, .echo 0 1 2, .startFakeGps, .taken, .echo 0 1 2, .stopFakeGps, .lost,
    .rejected 1 (units "timed out")]

/-- The first run remembers the simulated type, the second leaves it with the vehicle. -/
theorem simulated_type_kept :
    (run (step fun _ => none) (initial AUTO_TYPE) lateEcho).map (·.fakeGpsOriginalType) =
      some (some MAV_TYPE) ∧
    (run (step fun _ => none) (initial AUTO_TYPE) lostRestore).map (fun g =>
      (g.fakeGpsOriginalType, g.gpsType)) = some (none, MAV_TYPE) := by
  decide +kernel

def calibration : List FakeGpsEvent :=
  [.streamed, .echo 0 1 2, .startFakeGps, .taken, .echo 0 1 2, .startFakeGps, .taken, .echo 0 1 2,
    .taken, .echo 0 1 2, .stopFakeGps, .taken, .echo 0 1 2]

theorem calibration_restores :
    ∃ g, run (step fun _ => none) (initial AUTO_TYPE) calibration = some g ∧
      g.Restorable AUTO_TYPE ∧ g.fakeGpsOriginalType = none := by
  have hsound : Along (step fun _ => none) (Undisturbed fun _ => none) (initial AUTO_TYPE)
      calibration := by decide +kernel
  obtain ⟨g, hrun, hnone⟩ : ∃ g, run (step fun _ => none) (initial AUTO_TYPE) calibration = some g ∧
      g.fakeGpsOriginalType = none := by
    have hsome : ((run (step fun _ => none) (initial AUTO_TYPE) calibration).map
        (·.fakeGpsOriginalType)) = some none := by decide +kernel
    exact Option.map_eq_some_iff.mp hsome
  exact ⟨g, hrun, gps_type_restorable hrun hsound calibration [] g rfl hrun, hnone⟩

end FakeGps
end ArduConfigurator.Runtime
