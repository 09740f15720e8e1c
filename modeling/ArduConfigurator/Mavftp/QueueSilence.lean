import ArduConfigurator.Mavftp.BurstRead
import ArduConfigurator.Mavftp.QueueLane
import ArduConfigurator.Mavftp.Wire

/-! # Rejections for silence, against what was on the wire

The session queue over the service whose requests its stall checks are about. The queue sees only
`lastTransferActivityAtMs`; `wire` records when each request, burst requests included, was sent. -/
namespace ArduConfigurator.Mavftp
open Runs
set_option autoImplicit false

structure QueuedService where
  calls : List Call
  service : MavftpService
  queueStallTimeoutMs : ℕ
  /-- the requests sent so far with their times -/
  wire : List (ℕ × SentRequest)

inductive QueuedEvent
  /-- a call joins the queue, goes on, settles, or its stall timer fires -/
  | enqueue
  | proceed (i : ℕ)
  | settle (i : ℕ) (ok : Bool)
  | check (i : ℕ)
  | service (e : MavftpService.ServiceEvent)

namespace QueuedService

def queue (q : QueuedService) : TransferQueue :=
  ⟨q.calls, q.service.nowMs, q.service.lastTransferActivityAtMs, q.queueStallTimeoutMs⟩

def withQueue (q : QueuedService) (e : QueueEvent) : Option QueuedService :=
  (q.queue.step e).map fun t => { q with calls := t.calls }

def step (q : QueuedService) : QueuedEvent → Option QueuedService
  | .enqueue => q.withQueue .enqueue
  | .proceed i => q.withQueue (.proceed i)
  | .settle i ok => q.withQueue (.settle i ok)
  | .check i => q.withQueue (.check i)
  | .service e => (q.service.step e).map fun s => { q with
      service := s
      wire := q.wire ++ (s.sent.drop q.service.sent.length).map fun r => (s.nowMs, r) }

def fresh (vehicle : Option VehicleIdentity) (requestTimeoutMs nowMs queueStallTimeoutMs : ℕ) :
    QueuedService :=
  ⟨[], MavftpService.fresh vehicle requestTimeoutMs nowMs, queueStallTimeoutMs, []⟩

/-- The stall check of call `i` rejects the call. -/
def rejects (q : QueuedService) (i : ℕ) : Bool :=
  (q.step (.check i)).any fun q' => q'.queue.phaseAt i = some .stalled

/-- No request at all has gone on the wire during the last `queueStallTimeoutMs`. -/
def Silent (q : QueuedService) : Prop :=
  ∀ x ∈ q.wire, x.1 + q.queueStallTimeoutMs ≤ q.service.nowMs

instance (q : QueuedService) : Decidable q.Silent :=
  inferInstanceAs (Decidable (∀ x ∈ q.wire, _))

instance decidableOnCheck {P : ℕ → Prop} [DecidablePred P] (e : QueuedEvent) :
    Decidable (∀ i, e = .check i → P i) :=
  match e with
  | .check i => decidable_of_iff (P i) ⟨fun h j hj => by cases hj; exact h, fun h => h i rfl⟩
  | .enqueue | .proceed _ | .settle _ _ | .service _ => isTrue fun _ hi => nomatch hi

def JustRejection (q : QueuedService) (e : QueuedEvent) : Prop :=
  ∀ i, e = .check i → q.rejects i = true → q.Silent

instance (q : QueuedService) (e : QueuedEvent) : Decidable (q.JustRejection e) :=
  inferInstanceAs (Decidable (∀ i, e = .check i → _))

/-- When a stall check fires behind a call that has not handed over, within `queueStallTimeoutMs` of a
burst request, an ordinary request has also been sent in that time. -/
def BurstsCovered (q : QueuedService) (e : QueuedEvent) : Prop :=
  ∀ i, e = .check i → q.queue.predecessorResolved i = false →
    (∃ x ∈ q.wire, x.2.burst ≠ none ∧ q.service.nowMs < x.1 + q.queueStallTimeoutMs) →
    q.queue.silentForMs < q.queueStallTimeoutMs

instance (q : QueuedService) (e : QueuedEvent) : Decidable (q.BurstsCovered e) :=
  inferInstanceAs (Decidable (∀ i, e = .check i → _ → _ → _))

/-! ## The queue of the service is the queue -/

variable {q q' : QueuedService} {e : QueuedEvent}

theorem queue_simulates (h : q.step e = some q') :
    ∃ es, run TransferQueue.step q.queue es = some q'.queue := by
  have queued : ∀ {e : QueueEvent}, (e = .enqueue ∨ (∃ i, e = .proceed i) ∨
      (∃ i ok, e = .settle i ok) ∨ ∃ i, e = .check i) → q.withQueue e = some q' →
      ∃ es, run TransferQueue.step q.queue es = some q'.queue := by
    intro e he h
    obtain ⟨t, ht, rfl⟩ := Option.map_eq_some_iff.mp h
    have hsame : t = { q.queue with calls := t.calls } := by
      obtain rfl | ⟨i, rfl⟩ | ⟨i, ok, rfl⟩ | ⟨i, rfl⟩ := he
      · cases ht
        rfl
      all_goals
        simp only [TransferQueue.step, Option.bind_eq_bind, Option.bind_eq_some_iff] at ht
        obtain ⟨c, -, ht⟩ := ht
      · split at ht <;> cases ht
        rfl
      · split at ht <;> cases ht
        rfl
      · split at ht
        · split at ht <;> cases ht
          rfl
        · cases ht
    refine ⟨[e], ?_⟩
    rw [run_cons, ht, Option.bind_some, run_nil]
    exact congrArg some hsame
  cases e with
  | enqueue => exact queued (.inl rfl) h
  | proceed i => exact queued (.inr (.inl ⟨i, rfl⟩)) h
  | settle i ok => exact queued (.inr (.inr (.inl ⟨i, ok, rfl⟩))) h
  | check i => exact queued (.inr (.inr (.inr ⟨i, rfl⟩))) h
  | service e =>
    obtain ⟨s, hs, rfl⟩ := Option.map_eq_some_iff.mp h
    have hnow : (q.service.heard e).nowMs = q.service.nowMs := MavftpService.nowMs_heard _ _
    have hlast : (q.service.heard e).lastTransferActivityAtMs =
      q.service.lastTransferActivityAtMs := MavftpService.last_heard _ _
    cases MavftpService.step_sends hs with
    | nothing hsent hseq hl hn =>
      refine ⟨[.tick (s.nowMs - q.service.nowMs)], ?_⟩
      rw [hnow] at hn
      simp only [run_cons, TransferQueue.step, queue, Option.bind_some, run_nil, hl, hlast]
      rw [Nat.add_sub_cancel' hn]
    | one r hr hsent hseq hl hn =>
      rw [hnow] at hn hl
      by_cases hb : r.burst = none
      · refine ⟨[.send], ?_⟩
        rw [if_pos hb] at hl
        simp only [run_cons, TransferQueue.step, queue, Option.bind_some, run_nil, hl, hn]
      · refine ⟨[.burstSend], ?_⟩
        rw [if_neg hb, hlast] at hl
        simp only [run_cons, TransferQueue.step, queue, Option.bind_some, run_nil, hl, hn]

/-- Whatever the service does meanwhile, one call at a time has the session, and a call whose
predecessors have settled can start unless one of them was rejected while it waited. -/
theorem service_serves_one {vehicle : Option VehicleIdentity}
    {requestTimeoutMs nowMs queueStallTimeoutMs : ℕ} {es : List QueuedEvent}
    (h : run step (fresh vehicle requestTimeoutMs nowMs queueStallTimeoutMs) es = some q) :
    q.queue.MutuallyExclusive ∧ ∀ i, q.queue.Waits i → q.queue.EarlierSettled i →
      ((q.step (.proceed i)).isSome = true ↔ ¬ q.queue.StalledBefore i) := by
  obtain ⟨l, ht⟩ : ∃ l, TransferQueue.Tracks l q.queue := by
    refine run_invariant_of_simulates (J := fun q => ∃ l, TransferQueue.Tracks l q) queue
      (fun _ _ _ => queue_simulates) ?_ ⟨_, TransferQueue.tracks_idle _ _ _⟩ h
    rintro q e q' ⟨l, ht⟩ hstep
    obtain ⟨l', -, ht'⟩ := ht.simulate hstep
    exact ⟨l', ht'⟩
  refine ⟨ht.exclusive, fun i hw hs => ?_⟩
  rw [← ht.proceed_iff hw hs, step, withQueue, Option.isSome_map]

theorem service_serves_one_reset :
    ∃ q, run step (fresh (some ⟨1, 1⟩) 3000 0 30000)
      [.enqueue, .proceed 0, .service (.request MavftpService.resetRequest none)] = some q ∧
        q.queue.MutuallyExclusive :=
  ⟨_, rfl, (@service_serves_one _ (some ⟨1, 1⟩) 3000 0 30000
    [.enqueue, .proceed 0, .service (.request MavftpService.resetRequest none)] rfl).1⟩

/-! ## One check -/

/-- The record is of the requests sent, none of them in the future, and the stamp is not older than
any ordinary one. -/
structure Stamped (q : QueuedService) : Prop where
  sent : q.wire.map Prod.snd = q.service.sent
  past : ∀ x ∈ q.wire, x.1 ≤ q.service.nowMs
  stamp : ∀ x ∈ q.wire, x.2.burst = none → x.1 ≤ q.service.lastTransferActivityAtMs

theorem stamped_fresh (vehicle : Option VehicleIdentity)
    (requestTimeoutMs nowMs queueStallTimeoutMs : ℕ) :
    Stamped (fresh vehicle requestTimeoutMs nowMs queueStallTimeoutMs) :=
  ⟨rfl, fun _ hx => (by cases hx), fun _ hx => (by cases hx)⟩

theorem stamped_step (hi : Stamped q) (hlast : q.service.lastTransferActivityAtMs ≤ q.service.nowMs)
    (h : q.step e = some q') :
    Stamped q' ∧ q'.service.lastTransferActivityAtMs ≤ q'.service.nowMs := by
  have queued : ∀ {e : QueueEvent}, q.withQueue e = some q' →
      Stamped q' ∧ q'.service.lastTransferActivityAtMs ≤ q'.service.nowMs := by
    intro e h
    obtain ⟨t, -, rfl⟩ := Option.map_eq_some_iff.mp h
    exact ⟨⟨hi.sent, hi.past, hi.stamp⟩, hlast⟩
  cases e with
  | enqueue => exact queued h
  | proceed i => exact queued h
  | settle i ok => exact queued h
  | check i => exact queued h
  | service e =>
    obtain ⟨s, hs, rfl⟩ := Option.map_eq_some_iff.mp h
    have hnow : (q.service.heard e).nowMs = q.service.nowMs := MavftpService.nowMs_heard _ _
    have hstamp : (q.service.heard e).lastTransferActivityAtMs =
      q.service.lastTransferActivityAtMs := MavftpService.last_heard _ _
    have hheard : (q.service.heard e).sent = q.service.sent := MavftpService.sent_heard _ _
    cases MavftpService.step_sends hs with
    | nothing hsent hseq hl hn =>
      rw [hheard] at hsent
      rw [hnow] at hn
      rw [hstamp] at hl
      simp only [hsent, List.drop_length, List.map_nil, List.append_nil]
      exact ⟨⟨hsent ▸ hi.sent, fun x hx => (hi.past x hx).trans hn,
        fun x hx hb => hl ▸ hi.stamp x hx hb⟩, by omega⟩
    | one r hr hsent hseq hl hn =>
      rw [hheard] at hsent
      rw [hnow] at hn hl
      rw [hstamp] at hl
      simp only [hsent, List.drop_left, List.map_cons, List.map_nil]
      refine ⟨⟨?_, fun x hx => ?_, fun x hx hb => ?_⟩, ?_⟩
      · rw [List.map_append, hi.sent, hsent]
        rfl
      · rw [List.mem_append, List.mem_singleton] at hx
        obtain hx | rfl := hx
        · exact hn ▸ hi.past x hx
        · exact le_rfl
      · rw [List.mem_append, List.mem_singleton] at hx
        obtain hx | rfl := hx
        · have := hi.stamp x hx hb
          change x.1 ≤ s.lastTransferActivityAtMs
          split at hl <;> omega
        · rw [if_pos hb] at hl
          rw [hl, ← hn]
      · split at hl <;> omega

theorem rejects_iff {i : ℕ} (h : q.step (.check i) = some q') :
    q.rejects i = true ↔ q.queue.predecessorResolved i = false ∧
      q.queueStallTimeoutMs ≤ q.queue.silentForMs := by
  obtain ⟨t, ht, rfl⟩ := Option.map_eq_some_iff.mp h
  have hrej : q.rejects i = decide ((t.calls[i]?).map Call.phase = some .stalled) := by
    rw [rejects, h]
    rfl
  simp only [TransferQueue.step, Option.bind_eq_bind, Option.bind_eq_some_iff] at ht
  obtain ⟨c, hc, ht⟩ := ht
  split at ht
  · split at ht <;> cases ht
    have hlt : i < q.queue.calls.length := (List.getElem?_eq_some_iff.mp hc).1
    have hphase : ((q.queue.setPhase i c (q.queue.check i)).calls[i]?).map Call.phase =
        some (q.queue.check i) := by
      rw [TransferQueue.setPhase, List.getElem?_set_self hlt, Option.map_some]
    rw [hrej, hphase, decide_eq_true_iff, Option.some.injEq, TransferQueue.check]
    split
    · next hp => simp [hp]
    · next hp =>
      rw [Bool.not_eq_true] at hp
      split
      · next hs => exact iff_of_true rfl ⟨hp, hs⟩
      · next hs => exact iff_of_false (by simp) (fun h => hs h.2)
  · cases ht

theorem justRejection_iff (hi : Stamped q) (h : q.step e = some q') :
    q.JustRejection e ↔ q.BurstsCovered e := by
  constructor
  · rintro hjust i rfl hp ⟨x, hx, -, hrecent⟩
    by_contra hs
    have hsilent := hjust i rfl ((rejects_iff h).mpr ⟨hp, Nat.not_lt.mp hs⟩) x hx
    omega
  · rintro hcov i rfl hrej x hx
    obtain ⟨hp, hs⟩ := (rejects_iff h).mp hrej
    by_contra hrecent
    rw [Nat.not_le] at hrecent
    by_cases hb : x.2.burst = none
    · have hstamp := hi.stamp x hx hb
      have hpast := hi.past x hx
      unfold TransferQueue.silentForMs at hs
      split at hs
      · change q.queueStallTimeoutMs ≤ q.service.nowMs - q.service.lastTransferActivityAtMs at hs
        omega
      · omega
    · have := hcov i rfl hp ⟨x, hx, hb, hrecent⟩
      omega

/-! ## Runs -/

/-- The stall checks of a run reject only in silence exactly when none of them that fires behind an
unfinished call finds a burst request in the time in which there was no ordinary one. The record of
what was on the wire is the service's own. -/
theorem queue_silence_iff {vehicle : Option VehicleIdentity}
    {requestTimeoutMs nowMs queueStallTimeoutMs : ℕ} {es : List QueuedEvent} {q : QueuedService}
    (h : run step (fresh vehicle requestTimeoutMs nowMs queueStallTimeoutMs) es = some q) :
    (Along step JustRejection (fresh vehicle requestTimeoutMs nowMs queueStallTimeoutMs) es ↔
      Along step BurstsCovered (fresh vehicle requestTimeoutMs nowMs queueStallTimeoutMs) es) ∧
    q.wire.map Prod.snd = q.service.sent := by
  have key : ∀ {es : List QueuedEvent} {p : QueuedService}, Stamped p →
      p.service.lastTransferActivityAtMs ≤ p.service.nowMs → run step p es = some q →
      (Along step JustRejection p es ↔ Along step BurstsCovered p es) ∧ Stamped q := by
    intro es
    induction es with
    | nil =>
      intro p hp _ hr
      cases hr
      exact ⟨Iff.rfl, hp⟩
    | cons e es ih =>
      intro p hp hl hr
      obtain ⟨p', hs, hr⟩ := run_cons_eq_some.mp hr
      obtain ⟨hp', hl'⟩ := stamped_step hp hl hs
      obtain ⟨hiff, hq⟩ := ih hp' hl' hr
      rw [along_cons es hs, along_cons es hs, justRejection_iff hp hs, hiff]
      exact ⟨Iff.rfl, hq⟩
  obtain ⟨hiff, hq⟩ := key (stamped_fresh _ _ _ _) (Nat.zero_le _) h
  exact ⟨hiff, hq.sent⟩

def stallingEvents : List QueuedEvent :=
  [.enqueue, .proceed 0, .service (.tick 1)] ++ (MavftpService.openingEvents 1).map .service ++
    [.enqueue] ++ (List.replicate 5 [.service (.tick 6000), .service .burstTimeout]).flatten ++
    [.check 1]

set_option maxRecDepth 4000 in
theorem queue_silence_after_one_request :
    Along step JustRejection (fresh (some ⟨1, 1⟩) 3000 0 30000)
      [.enqueue, .proceed 0, .service (.tick 1),
        .service (.request MavftpService.resetRequest none), .enqueue, .service (.tick 30000),
        .check 1] :=
  (@queue_silence_iff (some ⟨1, 1⟩) 3000 0 30000
    [.enqueue, .proceed 0, .service (.tick 1),
      .service (.request MavftpService.resetRequest none), .enqueue, .service (.tick 30000),
      .check 1] _ rfl).1.mpr (by decide)

set_option maxRecDepth 8000 in
/-- The burst asked again at the very time the call behind it is rejected for thirty seconds of
silence. -/
theorem busy_burst_rejected_as_silent :
    ¬ (∀ es q, run step (fresh (some ⟨1, 1⟩) 3000 0 30000) es = some q →
      Along step JustRejection (fresh (some ⟨1, 1⟩) 3000 0 30000) es) ∧
    (run step (fresh (some ⟨1, 1⟩) 3000 0 30000) stallingEvents).map (fun q => q.wire.map Prod.fst) =
      some [1, 1, 1, 6001, 12001, 18001, 24001, 30001] := by
  refine ⟨fun hall => ?_, rfl⟩
  have h := hall stallingEvents _ rfl
  revert h
  decide

end QueuedService
end ArduConfigurator.Mavftp
