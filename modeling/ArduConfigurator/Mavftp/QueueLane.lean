import ArduConfigurator.Lib.Lane
import ArduConfigurator.Lib.Runs
import Mathlib.Tactic.IntervalCases

/-! # The MAVFTP session queue

`withExclusiveSession` and `awaitPredecessor` of `runtime-mavftp-service.ts`. Every public MAVFTP
operation is one call of `withExclusiveSession`; calls are numbered in the order they were made.
Each call replaces `transferQueue` by a promise (its *link*) that resolves only when the call runs
its own `release`, and waits for the link of the call before it. As long as no waiting call is
rejected for silence the queue is a single-server lane. A rejected call leaves its link unresolved
for ever, so no call behind it is ever started. -/
namespace ArduConfigurator.Mavftp
set_option autoImplicit false

/-- How far one call of `withExclusiveSession` has come. -/
inductive Phase
  /-- inside `awaitPredecessor`, with the time its stall check is due while its timer is armed -/
  | waiting (checkDueMs : Option ℕ)
  /-- `operation()` has been called and has not settled -/
  | running
  /-- `operation()` returned or threw, and the `finally` block ran `release()` -/
  | returned
  | threw
  /-- `awaitPredecessor` rejected for silence, so the call rejected before its `try` block -/
  | stalled
  deriving DecidableEq

namespace Phase

def isWaiting : Phase → Bool
  | waiting _ => true
  | _ => false

def finished : Phase → Bool
  | returned | threw => true
  | _ => false

def settled : Phase → Bool
  | returned | threw | stalled => true
  | _ => false

end Phase

/-- One call of `withExclusiveSession`: its phase, and whether its link has resolved. -/
structure Call where
  phase : Phase
  linkResolved : Bool

/-- The calls made so far, oldest first, with the clock and the stamp their stall checks read. -/
structure TransferQueue where
  calls : List Call
  nowMs : ℕ
  lastTransferActivityAtMs : ℕ
  queueStallTimeoutMs : ℕ

inductive QueueEvent
  /-- a public operation is called -/
  | enqueue
  /-- the continuation of call `i` after its predecessor's link resolved -/
  | proceed (i : ℕ)
  /-- the operation of call `i` returns (`true`) or throws -/
  | settle (i : ℕ) (ok : Bool)
  /-- the stall timer of call `i` fires -/
  | check (i : ℕ)
  /-- `send` puts a request on the wire -/
  | send
  /-- `sendBurstReadRequest` puts a request on the wire; it leaves the stamp alone -/
  | burstSend
  | tick (ms : ℕ)

namespace TransferQueue

/-- The promise call `i` waits for: the link of the call before it, and for the first call the
`Promise.resolve()` the queue starts with. -/
def predecessorResolved (q : TransferQueue) : ℕ → Bool
  | 0 => true
  | i + 1 => (q.calls[i]?).any Call.linkResolved

/-- How long nothing has been sent. A service that never sent anything counts as not silent. -/
def silentForMs (q : TransferQueue) : ℕ :=
  if q.lastTransferActivityAtMs > 0 then q.nowMs - q.lastTransferActivityAtMs else 0

/-- The body of `check` in `awaitPredecessor`, for call `i`. The flag `settled` is set by the first
continuation of the predecessor's promise, which runs before any timer. -/
def check (q : TransferQueue) (i : ℕ) : Phase :=
  if q.predecessorResolved i then .waiting none
  else if q.queueStallTimeoutMs ≤ q.silentForMs then .stalled
  else .waiting (some (q.nowMs + (q.queueStallTimeoutMs - q.silentForMs)))

/-- Replace the phase of call `i`. -/
def setPhase (q : TransferQueue) (i : ℕ) (c : Call) (p : Phase) : TransferQueue :=
  { q with calls := q.calls.set i { c with phase := p } }

def step (q : TransferQueue) : QueueEvent → Option TransferQueue
  | .enqueue =>
      some { q with
        calls := q.calls ++ [⟨.waiting (some (q.nowMs + q.queueStallTimeoutMs)), false⟩] }
  | .proceed i => do
      let c ← q.calls[i]?
      if c.phase.isWaiting && q.predecessorResolved i then
        some (q.setPhase i c .running)
      else none
  | .settle i ok => do
      let c ← q.calls[i]?
      if c.phase = .running then
        some (q.setPhase i { c with linkResolved := true } (if ok then .returned else .threw))
      else none
  | .check i => do
      let c ← q.calls[i]?
      match c.phase with
      | .waiting (some due) =>
          if due ≤ q.nowMs then some (q.setPhase i c (q.check i)) else none
      | _ => none
  | .send => some { q with lastTransferActivityAtMs := q.nowMs }
  | .burstSend => some q
  | .tick ms => some { q with nowMs := q.nowMs + ms }

def idle (nowMs lastTransferActivityAtMs queueStallTimeoutMs : ℕ) : TransferQueue :=
  ⟨[], nowMs, lastTransferActivityAtMs, queueStallTimeoutMs⟩

def phaseAt (q : TransferQueue) (i : ℕ) : Option Phase := (q.calls[i]?).map Call.phase

def MutuallyExclusive (q : TransferQueue) : Prop :=
  ∀ i j, q.phaseAt i = some .running → q.phaseAt j = some .running → i = j

/-- Every call before `i` has settled. -/
def EarlierSettled (q : TransferQueue) (i : ℕ) : Prop :=
  ∀ j < i, ∃ p, q.phaseAt j = some p ∧ p.settled = true

/-- Call `i` is still waiting for its turn. -/
def Waits (q : TransferQueue) (i : ℕ) : Prop := ∃ p, q.phaseAt i = some p ∧ p.isWaiting = true

/-- A call all of whose predecessors have settled gets to run: the promise it waits for has
resolved, and its continuation is due before any other event. -/
def NextStarts (q : TransferQueue) : Prop :=
  ∀ i, q.Waits i → q.EarlierSettled i → (q.step (.proceed i)).isSome = true

/-- No stall check rejects: when the timer of call `i` fires, the call before it has handed over
the session or something was sent less than `queueStallTimeoutMs` ago. -/
def NoStall (q : TransferQueue) (e : QueueEvent) : Prop :=
  ∀ i, e = .check i → q.predecessorResolved i = true ∨ q.silentForMs < q.queueStallTimeoutMs

/-! ## What one event can do to the calls -/

inductive Move (q : TransferQueue) (i : ℕ) (c : Call) : Call → Prop
  | start (hw : c.phase.isWaiting = true) (hp : q.predecessorResolved i = true) :
      Move q i c { c with phase := .running }
  | finish {p : Phase} (hr : c.phase = .running) (hp : p.finished = true) :
      Move q i c ⟨p, true⟩
  | rearm {t : Option ℕ} (hw : c.phase.isWaiting = true) :
      Move q i c { c with phase := .waiting t }
  | stall (hw : c.phase.isWaiting = true) (hp : q.predecessorResolved i = false)
      (hs : q.queueStallTimeoutMs ≤ q.silentForMs) :
      Move q i c { c with phase := .stalled }

variable {q : TransferQueue}

theorem move_check {i : ℕ} {c : Call} (hw : c.phase.isWaiting = true) :
    Move q i c { c with phase := q.check i } := by
  unfold check
  split
  · exact .rearm hw
  · next hp =>
    split
    · next hs => exact .stall hw (by simpa using hp) hs
    · exact .rearm hw

theorem step_cases {q' : TransferQueue} {e : QueueEvent} (h : q.step e = some q') :
    q'.calls = q.calls ∨
    (∃ p : Phase, p.isWaiting = true ∧ q'.calls = q.calls ++ [⟨p, false⟩]) ∨
    ∃ i c c', q.calls[i]? = some c ∧ Move q i c c' ∧ q'.calls = q.calls.set i c' ∧
      (c'.phase = .stalled → e = .check i) := by
  cases e with
  | enqueue =>
    cases h
    exact .inr (.inl ⟨_, rfl, rfl⟩)
  | proceed i =>
    simp only [step, Option.bind_eq_bind, Option.bind_eq_some_iff] at h
    obtain ⟨c, hc, h⟩ := h
    split at h
    · next hg =>
      cases h
      rw [Bool.and_eq_true] at hg
      exact .inr (.inr ⟨i, c, _, hc, .start hg.1 hg.2, rfl, by simp⟩)
    · cases h
  | settle i ok =>
    simp only [step, Option.bind_eq_bind, Option.bind_eq_some_iff] at h
    obtain ⟨c, hc, h⟩ := h
    split at h
    · next hr =>
      cases h
      refine .inr (.inr ⟨i, c, _, hc, .finish hr (p := if ok then .returned else .threw) ?_, rfl, ?_⟩)
      · cases ok <;> rfl
      · cases ok <;> simp
    · cases h
  | check i =>
    simp only [step, Option.bind_eq_bind, Option.bind_eq_some_iff] at h
    obtain ⟨c, hc, h⟩ := h
    split at h
    · next due hw =>
      split at h
      · cases h
        exact .inr (.inr ⟨i, c, _, hc, move_check (by rw [hw]; rfl), rfl, fun _ => rfl⟩)
      · cases h
    · cases h
  | send => cases h; exact .inl rfl
  | burstSend => cases h; exact .inl rfl
  | tick ms => cases h; exact .inl rfl

open Runs

/-! ## The queue tracks a lane -/

/-- The queue `q` is at the point of the lane `l`: the calls before `l.served` have finished and
handed over, no other call has, and the one at `l.served` is running when the lane is busy. -/
structure Tracks (l : Lane) (q : TransferQueue) : Prop where
  length : q.calls.length = l.queued
  linked : ∀ i c, q.calls[i]? = some c → (c.linkResolved = true ↔ i < l.served)
  finished : ∀ i c, q.calls[i]? = some c → (c.phase.finished = true ↔ i < l.served)
  running : ∀ i c, q.calls[i]? = some c → (c.phase = .running ↔ l.Serving i)

theorem tracks_idle (nowMs last timeout : ℕ) : Tracks Lane.empty (idle nowMs last timeout) where
  length := rfl
  linked i c hc := by simp [idle] at hc
  finished i c hc := by simp [idle] at hc
  running i c hc := by simp [idle] at hc

variable {l : Lane} {i : ℕ} {c : Call}

theorem Tracks.predecessorResolved_iff (ht : Tracks l q) (hc : q.calls[i]? = some c) :
    q.predecessorResolved i = true ↔ i ≤ l.served := by
  cases i with
  | zero => simp [predecessorResolved]
  | succ i =>
    have hi : i < q.calls.length := by
      have := (List.getElem?_eq_some_iff.mp hc).1
      omega
    have hp : q.calls[i]? = some q.calls[i] := List.getElem?_eq_getElem hi
    rw [predecessorResolved, hp, Option.any_some, ht.linked i _ hp, Nat.succ_le_iff]

variable {q' : TransferQueue}

theorem Tracks.set {l' : Lane} {c' : Call} (ht : Tracks l q) (hc : q.calls[i]? = some c)
    (hq : q'.calls = q.calls.set i c') (hl : l'.queued = l.queued)
    (hlink : c'.linkResolved = true ↔ i < l'.served)
    (hfin : c'.phase.finished = true ↔ i < l'.served) (hrun : c'.phase = .running ↔ l'.Serving i)
    (hother : ∀ j, j ≠ i → (j < l'.served ↔ j < l.served) ∧ (l'.Serving j ↔ l.Serving j)) :
    Tracks l' q' := by
  have hi : i < q.calls.length := (List.getElem?_eq_some_iff.mp hc).1
  have at_i : ∀ d, q'.calls[i]? = some d → d = c' := by
    intro d hd
    rw [hq, List.getElem?_set_self hi] at hd
    exact (Option.some.inj hd).symm
  have at_other : ∀ j, j ≠ i → q'.calls[j]? = q.calls[j]? := by
    intro j hj
    rw [hq, List.getElem?_set_ne (Ne.symm hj)]
  refine ⟨by rw [hq, List.length_set, ht.length, hl], ?_, ?_, ?_⟩
  · intro j d hd
    by_cases hj : j = i
    · subst hj; rw [at_i d hd]; exact hlink
    · rw [at_other j hj] at hd
      rw [ht.linked j d hd, (hother j hj).1]
  · intro j d hd
    by_cases hj : j = i
    · subst hj; rw [at_i d hd]; exact hfin
    · rw [at_other j hj] at hd
      rw [ht.finished j d hd, (hother j hj).1]
  · intro j d hd
    by_cases hj : j = i
    · subst hj; rw [at_i d hd]; exact hrun
    · rw [at_other j hj] at hd
      rw [ht.running j d hd, (hother j hj).2]

variable {e : QueueEvent}

theorem Tracks.simulate (ht : Tracks l q) (h : q.step e = some q') :
    ∃ l', (l' = l ∨ Lane.Step l l') ∧ Tracks l' q' := by
  obtain hq | ⟨p, hp, hq⟩ | ⟨i, c, c', hc, hm, hq, -⟩ := step_cases h
  · exact ⟨l, .inl rfl, by rw [hq]; exact ht.length, by rw [hq]; exact ht.linked,
      by rw [hq]; exact ht.finished, by rw [hq]; exact ht.running⟩
  · refine ⟨_, .inr (.join l), ?_⟩
    have hlast : ∀ i c, q'.calls[i]? = some c →
        q.calls[i]? = some c ∨ (i = l.queued ∧ c = ⟨p, false⟩) := by
      intro i c hc
      rw [hq, List.getElem?_append] at hc
      split at hc
      · exact .inl hc
      · next hi =>
        obtain ⟨h0, rfl⟩ : i - q.calls.length = 0 ∧ c = ⟨p, false⟩ := by
          rw [List.getElem?_singleton] at hc
          split at hc
          · next h0 => exact ⟨h0, (Option.some.inj hc).symm⟩
          · cases hc
        exact .inr ⟨by rw [← ht.length]; omega, rfl⟩
    have hfront := l.front
    refine ⟨by rw [hq, List.length_append, ht.length]; rfl, ?_, ?_, ?_⟩
    · intro i c hc
      obtain hc | ⟨rfl, rfl⟩ := hlast i c hc
      · exact ht.linked i c hc
      · simp only [Bool.false_eq_true, false_iff]
        omega
    · intro i c hc
      obtain hc | ⟨rfl, rfl⟩ := hlast i c hc
      · exact ht.finished i c hc
      · cases p <;> simp_all [Phase.isWaiting, Phase.finished]
        omega
    · intro i c hc
      obtain hc | ⟨rfl, rfl⟩ := hlast i c hc
      · exact ht.running i c hc
      · have hno : ¬ Lane.Serving ⟨l.queued + 1, l.served, l.busy, Nat.le_succ_of_le hfront⟩
            l.queued := by
          rintro ⟨hb, hi⟩
          have := l.served_lt hb
          exact absurd hi (by simp only; omega)
        cases p <;> simp_all [Phase.isWaiting]
  · have hi : i < l.queued := ht.length ▸ (List.getElem?_eq_some_iff.mp hc).1
    cases hm with
    | start hw hp =>
      have hle : i ≤ l.served := (ht.predecessorResolved_iff hc).mp hp
      have hnf : ¬ i < l.served := by
        rw [← ht.finished i c hc]
        revert hw
        cases c.phase <;> simp [Phase.isWaiting, Phase.finished]
      obtain rfl : i = l.served := by omega
      have hb : l.busy = false := by
        by_contra hb
        have hr := (ht.running _ c hc).mpr ⟨by simpa using hb, rfl⟩
        rw [hr] at hw
        cases hw
      refine ⟨_, .inr (.enter hi hb), ht.set hc hq rfl ?_ ?_ ?_ ?_⟩
      · exact ht.linked _ c hc
      · simp [Phase.finished]
      · simp [Lane.Serving]
      · intro j hj
        exact ⟨Iff.rfl, by simp [Lane.Serving, hj]⟩
    | @finish p hr hp =>
      obtain ⟨hb, rfl⟩ := (ht.running _ c hc).mp hr
      refine ⟨_, .inr (.leave hi hb), ht.set hc hq rfl ?_ ?_ ?_ ?_⟩
      · simp
      · simp [hp]
      · cases p <;> simp_all [Phase.finished, Lane.Serving]
      · intro j hj
        refine ⟨?_, by simp [Lane.Serving, hj]⟩
        simp only
        omega
    | rearm hw =>
      refine ⟨l, .inl rfl, ht.set hc hq rfl (ht.linked i c hc) ?_ ?_ fun j _ => ⟨Iff.rfl, Iff.rfl⟩⟩
      · rw [← ht.finished i c hc]
        cases hph : c.phase <;> simp_all [Phase.isWaiting, Phase.finished]
      · rw [← ht.running i c hc]
        cases hph : c.phase <;> simp_all [Phase.isWaiting]
    | stall hw hp hs =>
      refine ⟨l, .inl rfl, ht.set hc hq rfl (ht.linked i c hc) ?_ ?_ fun j _ => ⟨Iff.rfl, Iff.rfl⟩⟩
      · rw [← ht.finished i c hc]
        cases hph : c.phase <;> simp_all [Phase.isWaiting, Phase.finished]
      · rw [← ht.running i c hc]
        cases hph : c.phase <;> simp_all [Phase.isWaiting]

variable {es : List QueueEvent}

theorem tracked {now last timeout : ℕ} (h : run step (idle now last timeout) es = some q) :
    ∃ l, Tracks l q := by
  refine run_invariant (I := fun q => ∃ l, Tracks l q) ?_ ⟨_, tracks_idle now last timeout⟩ h
  rintro q e q' ⟨l, ht⟩ hq
  obtain ⟨l', -, ht'⟩ := ht.simulate hq
  exact ⟨l', ht'⟩

theorem Tracks.exclusive (ht : Tracks l q) :
    q.MutuallyExclusive := by
  intro i j hi hj
  obtain ⟨c, hc, hci⟩ := Option.map_eq_some_iff.mp hi
  obtain ⟨d, hd, hdj⟩ := Option.map_eq_some_iff.mp hj
  exact ((ht.running i c hc).mp hci).unique ((ht.running j d hd).mp hdj)

/-! ## Who gets to start -/

/-- Some call before `i` was rejected while waiting. -/
def StalledBefore (q : TransferQueue) (i : ℕ) : Prop := ∃ j < i, q.phaseAt j = some .stalled

theorem proceed_isSome_iff (hw : q.Waits i) :
    (q.step (.proceed i)).isSome = true ↔ q.predecessorResolved i = true := by
  obtain ⟨p, hp, hpw⟩ := hw
  obtain ⟨c, hc, rfl⟩ := Option.map_eq_some_iff.mp hp
  simp only [step, Option.bind_eq_bind, hc, Option.bind_some, hpw, Bool.true_and]
  split <;> simp_all

theorem Tracks.proceed_iff (ht : Tracks l q) (hw : q.Waits i) (hs : q.EarlierSettled i) :
    (q.step (.proceed i)).isSome = true ↔ ¬ q.StalledBefore i := by
  rw [proceed_isSome_iff hw]
  obtain ⟨p, hp, -⟩ := hw
  obtain ⟨c, hc, -⟩ := Option.map_eq_some_iff.mp hp
  rw [ht.predecessorResolved_iff hc]
  constructor
  · rintro hle ⟨j, hj, hst⟩
    obtain ⟨d, hd, hds⟩ := Option.map_eq_some_iff.mp hst
    have hfin := (ht.finished j d hd).mpr (by omega)
    rw [hds] at hfin
    cases hfin
  · intro hno
    by_contra hlt
    -- the call the lane has reached has settled without finishing, so it was rejected
    obtain ⟨p, hp, hps⟩ := hs l.served (by omega)
    obtain ⟨d, hd, rfl⟩ := Option.map_eq_some_iff.mp hp
    refine hno ⟨l.served, by omega, ?_⟩
    have hnf := mt (ht.finished _ d hd).mp (Nat.lt_irrefl _)
    rw [hp]
    cases hph : d.phase <;> simp_all [Phase.settled, Phase.finished]

theorem phaseAt_of_move (h : q.step e = some q') {j : ℕ} (hj : q.phaseAt j = some .stalled) :
    q'.phaseAt j = some .stalled := by
  obtain ⟨d, hd, hds⟩ := Option.map_eq_some_iff.mp hj
  have hlt : j < q.calls.length := (List.getElem?_eq_some_iff.mp hd).1
  unfold phaseAt
  obtain hq | ⟨p, -, hq⟩ | ⟨i, c, c', hc, hm, hq, -⟩ := step_cases h
  · rw [hq]; exact hj
  · rw [hq, List.getElem?_append_left hlt]; exact hj
  · rw [hq]
    by_cases hij : i = j
    · -- a stalled call neither waits nor runs, so no event moves it
      subst hij
      obtain rfl : c = d := Option.some.inj (hc.symm.trans hd)
      cases hm <;> simp_all [Phase.isWaiting]
    · rw [List.getElem?_set_ne hij]; exact hj

theorem never_runs_behind_stalled (ht : Tracks l q) (hst : q.StalledBefore i)
    (h : run step q es = some q') :
    q'.phaseAt i ≠ some .running := by
  obtain ⟨j, hj, hst⟩ := hst
  obtain ⟨⟨l', ht'⟩, hst'⟩ := run_invariant
    (I := fun q => (∃ l, Tracks l q) ∧ q.phaseAt j = some .stalled)
    (fun q e q' hi hq =>
      ⟨let ⟨_, ht⟩ := hi.1; let ⟨l', _, ht'⟩ := ht.simulate hq; ⟨l', ht'⟩, phaseAt_of_move hq hi.2⟩)
    ⟨⟨l, ht⟩, hst⟩ h
  intro hrun
  obtain ⟨c, hc, hcr⟩ := Option.map_eq_some_iff.mp hrun
  obtain ⟨d, hd, hds⟩ := Option.map_eq_some_iff.mp hst'
  obtain ⟨-, rfl⟩ := (ht'.running i c hc).mp hcr
  have hfin := (ht'.finished j d hd).mpr hj
  rw [hds] at hfin
  cases hfin

theorem none_stalled_step (hq : ∀ j, q.phaseAt j ≠ some .stalled) (he : q.NoStall e)
    (h : q.step e = some q') (j : ℕ) :
    q'.phaseAt j ≠ some .stalled := by
  intro hj
  obtain ⟨d, hd, hds⟩ := Option.map_eq_some_iff.mp hj
  have old : q.calls[j]? = some d → False := fun hd' => hq j (by simp [phaseAt, hd', hds])
  obtain hc | ⟨p, hp, hc⟩ | ⟨i, c, c', hci, hm, hc, hche⟩ := step_cases h
  · exact old (hc ▸ hd)
  · rw [hc, List.getElem?_append] at hd
    split at hd
    · exact old hd
    · rw [List.getElem?_singleton] at hd
      split at hd
      · cases hd
        obtain rfl : p = .stalled := hds
        cases hp
      · cases hd
  · by_cases hij : i = j
    · subst hij
      have hi : i < q.calls.length := (List.getElem?_eq_some_iff.mp hci).1
      rw [hc, List.getElem?_set_self hi] at hd
      cases hd
      cases hm with
      | start => cases hds
      | @finish p _ hp =>
        obtain rfl : p = .stalled := hds
        cases hp
      | rearm => cases hds
      | stall _ hp hs =>
        obtain hr | hlt := he i (hche rfl)
        · rw [hp] at hr; cases hr
        · omega
    · rw [hc, List.getElem?_set_ne hij] at hd
      exact old hd

/-! ## The contract of the queue -/

/-- At most one operation executes in every reachable state. In a run in which no stall check
rejects, a call all of whose predecessors have settled starts; in any run, it starts exactly when
no call before it was rejected while waiting, and otherwise it never runs. -/
theorem exclusive_session {now last timeout : ℕ} {es : List QueueEvent} {q : TransferQueue}
    (h : run step (idle now last timeout) es = some q) :
    q.MutuallyExclusive ∧
    (Along step NoStall (idle now last timeout) es → q.NextStarts) ∧
    ∀ i, q.Waits i → q.EarlierSettled i →
      ((q.step (.proceed i)).isSome = true ↔ ¬ q.StalledBefore i) ∧
      (q.StalledBefore i → ∀ fs q', run step q fs = some q' → q'.phaseAt i ≠ some .running) := by
  obtain ⟨l, ht⟩ := tracked h
  refine ⟨ht.exclusive, ?_, fun i hw hs =>
    ⟨ht.proceed_iff hw hs, fun hst _ _ hf => never_runs_behind_stalled ht hst hf⟩⟩
  intro hcalm i hw hs
  have hnone := run_invariant_along (I := fun q => ∀ j, q.phaseAt j ≠ some .stalled)
    (fun q e q' hq he hs => none_stalled_step hq he hs) (by simp [phaseAt, idle]) hcalm h
  exact (ht.proceed_iff hw hs).mpr fun ⟨j, _, hj⟩ => hnone j hj

/-- Two calls: the first one runs and returns, the second one is next. -/
theorem exclusive_session_two_calls :
    ∃ q, run step (idle 1 0 30000) [.enqueue, .proceed 0, .send, .enqueue, .settle 0 true] = some q ∧
      q.MutuallyExclusive ∧ q.NextStarts := by
  refine ⟨_, rfl, ?_⟩
  have h := @exclusive_session 1 0 30000
    [.enqueue, .proceed 0, .send, .enqueue, .settle 0 true] _ rfl
  exact ⟨h.1, h.2.1 (by simp [Along, NoStall])⟩

/-- The first call runs and goes silent, the second one gives up after 30 s, the first one then
returns. A third call has only settled calls ahead of it and cannot start. -/
theorem stalled_waiter_blocks_queue :
    ¬ ∀ es q, run step (idle 1 0 30000) es = some q → q.MutuallyExclusive ∧ q.NextStarts := by
  intro hall
  have h := (hall [.enqueue, .proceed 0, .send, .enqueue, .tick 30000, .check 1, .settle 0 true,
    .enqueue] _ rfl).2 2 ⟨_, rfl, rfl⟩ (by
      intro j hj
      interval_cases j
      · exact ⟨_, rfl, rfl⟩
      · exact ⟨_, rfl, rfl⟩)
  revert h
  decide

end TransferQueue
end ArduConfigurator.Mavftp
