import ArduConfigurator.Mavftp.Watchdog

/-! # How long a burst can last

Each time a watchdog is started or restarted is paid for: the start by the burst itself, a restart
on progress by the bytes gained, any other by one of the retries that only progress gives back. So
the number of restarts is bounded by the declared size. The requests are bounded with them, as long
as none is sent for a packet without progress. -/
namespace ArduConfigurator.Mavftp
open Runs
set_option autoImplicit false

/-- The most often the watchdog of a burst of `declaredSize` bytes can be set. -/
def burstBound (declaredSize : ℕ) : ℕ :=
  1 + declaredSize * (MAX_MAVFTP_BURST_RETRIES + 1) + MAX_MAVFTP_BURST_RETRIES

/-! ## What an operation has paid for -/

namespace BurstOperation

def paid (op : BurstOperation) : ℕ :=
  1 + op.received * (MAX_MAVFTP_BURST_RETRIES + 1) + op.retries

theorem paid_retry (op : BurstOperation) (nowMs : ℕ) : (op.retry nowMs).paid = op.paid + 1 := rfl

theorem heed_received (op : BurstOperation) (p : MavftpPayload) (nowMs : ℕ) :
    (op.heed p nowMs).received = (op.accept p).received :=
  (op.sameData_heed p nowMs).received

theorem heed_retries (op : BurstOperation) (p : MavftpPayload) (nowMs : ℕ) :
    (op.heed p nowMs).retries = if op.Rearms p then 0 else op.retries := by
  have h : (op.heed p nowMs).retries = (op.accept p).retries := by
    unfold heed
    split <;> rfl
  rw [h, accept_retries]
  by_cases hr : op.Rearms p
  · rw [if_pos hr, if_pos ((rearms_iff op p).mp hr)]
  · rw [if_neg hr, if_neg (fun h => hr ((rearms_iff op p).mpr h))]

theorem paid_heed {op : BurstOperation} (h : op.retries ≤ MAX_MAVFTP_BURST_RETRIES)
    (p : MavftpPayload) (nowMs : ℕ) :
    op.paid + (if op.Rearms p then 1 else 0) ≤ (op.heed p nowMs).paid := by
  unfold paid
  rw [heed_retries, heed_received]
  by_cases hr : op.Rearms p
  · have hlt := (rearms_iff op p).mp hr
    have hmul : (op.received + 1) * (MAX_MAVFTP_BURST_RETRIES + 1) ≤
        (op.accept p).received * (MAX_MAVFTP_BURST_RETRIES + 1) := Nat.mul_le_mul_right _ hlt
    rw [Nat.add_mul] at hmul
    rw [if_pos hr, if_pos hr]
    omega
  · have hle : op.received ≤ (op.accept p).received := by
      rw [accept_received]
      split <;> omega
    have hmul := Nat.mul_le_mul_right (MAX_MAVFTP_BURST_RETRIES + 1) hle
    rw [if_neg hr, if_neg hr]
    omega

end BurstOperation

namespace MavftpService

variable {op : BurstOperation}

theorem InBudget.paid_le (h : InBudget op) :
    op.paid ≤ burstBound op.declaredSize := by
  have hle : op.received ≤ op.declaredSize := h.cursors.received_le.trans h.cursors.highWater_le
  have hmul := Nat.mul_le_mul_right (MAX_MAVFTP_BURST_RETRIES + 1) hle
  have hr := h.retries
  unfold BurstOperation.paid burstBound
  omega

/-! ## Counting along a run -/

def armings : MavftpService → List ServiceEvent → List ℕ
  | _, [] => []
  | s, e :: es =>
      match s.step e with
      | none => []
      | some s' => (s.armed e).toList ++ armings s' es

/-- How many requests have been sent for burst `b`. -/
def requestsOf (s : MavftpService) (b : ℕ) : ℕ := s.sent.countP fun r => r.burst = some b

/-- Every entry of `log` is paid for. -/
structure Paid (log : List ℕ) (s : MavftpService) : Prop where
  active : ∀ op, s.activeBurst = some op →
    InBudget op ∧ log.count op.id ≤ op.paid ∧ op.id < s.bursts ∧ ∀ r ∈ s.finished, r.op.id ≠ op.id
  finished : ∀ r ∈ s.finished, log.count r.op.id ≤ burstBound r.op.declaredSize ∧
    r.op.id < s.bursts
  unused : ∀ b, s.bursts ≤ b → log.count b = 0

theorem paid_fresh (vehicle : Option VehicleIdentity) (requestTimeoutMs nowMs : ℕ) :
    Paid [] (fresh vehicle requestTimeoutMs nowMs) :=
  ⟨fun op h => (by cases h), fun r h => (by cases h), fun _ _ => rfl⟩

variable {log : List ℕ} {s s' : MavftpService}

theorem Paid.leaves {log' : List ℕ} (h : Paid log s) (hl : Leaves s op s')
    (hb : s.bursts ≤ s'.bursts) (hid : op.id < s'.bursts) (hbudget : InBudget op)
    (hpaid : log'.count op.id ≤ op.paid) (hothers : ∀ b, b ≠ op.id → log'.count b = log.count b)
    (hnew : ∀ r ∈ s.finished, r.op.id ≠ op.id) : Paid log' s' := by
  have hold : ∀ r ∈ s.finished, log'.count r.op.id ≤ burstBound r.op.declaredSize ∧
      r.op.id < s'.bursts := fun r hr => by
    rw [hothers _ (hnew r hr)]
    exact ⟨(h.finished r hr).1, (h.finished r hr).2.trans_le hb⟩
  have hunused : ∀ b, s'.bursts ≤ b → log'.count b = 0 := fun b hle => by
    rw [hothers b (by omega)]
    exact h.unused b (hb.trans hle)
  obtain ⟨ha, hf⟩ | ⟨ha, r, hr, hf⟩ := hl.burst
  · refine ⟨fun op' h' => ?_, fun r hr => hold r (hf ▸ hr), hunused⟩
    cases ha.symm.trans h'
    exact ⟨hbudget, hpaid, hid, fun r hr => hnew r (hf ▸ hr)⟩
  · refine ⟨fun op' h' => (by cases ha.symm.trans h'), fun q hq => ?_, hunused⟩
    rw [hf, List.mem_append, List.mem_singleton] at hq
    obtain hq | rfl := hq
    · exact hold q hq
    · rw [hr]
      exact ⟨hpaid.trans hbudget.paid_le, hid⟩

variable {e : ServiceEvent}

theorem paid_step (hi : Paid log s) (h : s.step e = some s') :
    Paid (log ++ (s.armed e).toList) s' := by
  have hbudget := inBudget_step (fun op hop => (hi.active op hop).1) h
  cases watchdog_turn h with
  | quiet hsame hb ha =>
    rw [ha, Option.toList_none, List.append_nil]
    refine ⟨fun op hop => ?_, fun r hr => ?_, fun b hle => hi.unused b (hb ▸ hle)⟩
    · rw [hb, hsame.finished]
      exact hi.active op (hsame.activeBurst ▸ hop)
    · rw [hb]
      exact hi.finished r (hsame.finished ▸ hr)
  | @started op hstart hretries hb ha hl =>
    have hid := hstart.id
    rw [ha, Option.toList_some]
    refine hi.leaves hl (by omega) (by omega) (hstart.inBudget hretries) ?_ (fun b hne => ?_)
      fun r hr => ?_
    · rw [List.count_append, hi.unused op.id (by omega), List.count_singleton_self]
      unfold BurstOperation.paid
      omega
    · rw [List.count_append, List.count_singleton, if_neg (by simpa using Ne.symm hne), Nat.add_zero]
    · have := (hi.finished r hr).2
      omega
  | @retried op hact hlt hwhy hb ha hl =>
    obtain ⟨hin, hpaid, hid, hnew⟩ := hi.active op hact
    rw [ha, Option.toList_some]
    refine hi.leaves hl (by omega) (hb ▸ hid)
      ⟨⟨hin.cursors.received_le, hin.cursors.highWater_le⟩, hlt⟩ ?_ (fun b hne => ?_) hnew
    · rw [List.count_append, BurstOperation.paid_retry]
      change log.count op.id + List.count op.id [op.id] ≤ _
      rw [List.count_singleton_self]
      omega
    · have hne : b ≠ op.id := hne
      rw [List.count_append, List.count_singleton, if_neg (by simpa using Ne.symm hne), Nat.add_zero]
  | @heeded op p hp hdata hb ha hl =>
    obtain ⟨hin, hpaid, hid, hnew⟩ := hi.active op (burstPacket_active hp)
    have hsame : (op.heed p s.nowMs).id = op.id := by
      rw [(op.sameData_heed p s.nowMs).id, BurstOperation.accept_id]
    have hpay := BurstOperation.paid_heed hin.retries p s.nowMs
    have hcount : ∀ b, (log ++ (s.armed e).toList).count b =
        log.count b + if b = op.id ∧ op.Rearms p then 1 else 0 := by
      intro b
      rw [List.count_append, ha]
      by_cases hr : op.Rearms p
      · rw [if_pos hr, Option.toList_some, List.count_singleton]
        by_cases hbo : b = op.id
        · rw [if_pos (by simp [hbo]), if_pos ⟨hbo, hr⟩]
        · rw [if_neg (by simpa using Ne.symm hbo), if_neg (fun h => hbo h.1)]
      · rw [if_neg hr, Option.toList_none, List.count_nil, if_neg (fun h => hr h.2)]
    refine hi.leaves hl (by omega) (by rw [hsame, hb]; exact hid) (hin.heed p _) ?_
      (fun b hne => ?_) (by rw [hsame]; exact hnew)
    · rw [hcount, hsame]
      simp only [true_and]
      omega
    · rw [hcount, if_neg (fun h => hne (h.1.trans hsame.symm)), Nat.add_zero]
  | @settled op hact hb ha hnone hfin hsent =>
    obtain ⟨hin, hpaid, hid, hnew⟩ := hi.active op hact
    rw [ha, Option.toList_none, List.append_nil]
    exact hi.leaves ⟨.inr ⟨hnone, hfin⟩, .inl hsent⟩ (by omega) (hb ▸ hid) hin hpaid
      (fun _ _ => rfl) hnew

variable {t : MavftpService} {es : List ServiceEvent}

theorem paid_run (hi : Paid log s) (h : run step s es = some t) : Paid (log ++ armings s es) t := by
  induction es generalizing s log with
  | nil =>
    cases h
    rw [armings, List.append_nil]
    exact hi
  | cons e es ih =>
    obtain ⟨u, hs, h⟩ := run_cons_eq_some.mp h
    simp only [armings, hs]
    rw [← List.append_assoc]
    exact ih (paid_step hi hs) h

/-! ## Requests -/

/-- A data packet of the active burst that ends a segment moves the contiguous frontier. -/
def SegmentsProgress (s : MavftpService) (e : ServiceEvent) : Prop :=
  ∀ hit ∈ s.burstPacket e, hit.2.opcode ≠ MAV_FTP_OPCODE.NAK → hit.2.burstComplete ≠ 0 →
    hit.2.offset ≤ hit.1.received ∧ hit.1.received < hit.2.offset + hit.1.writable hit.2

instance (s : MavftpService) (e : ServiceEvent) : Decidable (SegmentsProgress s e) :=
  inferInstanceAs (Decidable (∀ hit ∈ s.burstPacket e, hit.2.opcode ≠ MAV_FTP_OPCODE.NAK →
    hit.2.burstComplete ≠ 0 → _ ∧ _))

theorem rearms_of_progress {p : MavftpPayload}
    (h : p.offset ≤ op.received ∧ op.received < p.offset + op.writable p) : op.Rearms p := by
  have hw : 0 < op.writable p := by omega
  have hlt := (BurstOperation.offset_lt_of_writable hw).1
  rw [BurstOperation.rearms_iff, BurstOperation.accept_received, if_pos ⟨h.1, hlt⟩]
  omega

theorem requests_step (hc : s.SegmentsProgress e) (h : s.step e = some s') (b : ℕ) :
    s'.requestsOf b ≤ s.requestsOf b + (s.armed e).toList.count b := by
  have leaves : ∀ {op : BurstOperation}, Leaves s op s' → s.armed e = some op.id →
      s'.requestsOf b ≤ s.requestsOf b + (s.armed e).toList.count b := by
    intro op hl ha
    unfold requestsOf
    obtain hs | ⟨r, hr, hs⟩ := hl.sent
    · rw [hs]
      exact Nat.le_add_right _ _
    · rw [hs, ha, List.countP_append, Option.toList_some, List.countP_singleton,
        List.count_singleton, hr]
      simp
  cases watchdog_turn h with
  | quiet hsame hb ha hsent =>
    unfold requestsOf
    obtain hs | ⟨r, hr, hs⟩ := hsent
    · rw [hs]
      exact Nat.le_add_right _ _
    · rw [hs, List.countP_append, List.countP_singleton, hr]
      simp
  | started hstart hretries hb ha hl => exact leaves hl ha
  | retried hact hlt hwhy hb ha hl => exact leaves hl ha
  | @heeded op p hp hdata hb ha hl hask =>
    have hsame : (op.heed p s.nowMs).id = op.id := by
      rw [(op.sameData_heed p s.nowMs).id, BurstOperation.accept_id]
    by_cases hbc : p.burstComplete = 0
    · unfold requestsOf
      rw [hask hbc]
      exact Nat.le_add_right _ _
    · rw [if_pos (rearms_of_progress (hc (op, p) hp hdata hbc)), ← hsame] at ha
      exact leaves hl ha
  | settled hact hb ha hnone hfin hsent =>
    unfold requestsOf
    rw [hsent]
    exact Nat.le_add_right _ _

theorem requests_run (hc : Along step SegmentsProgress s es) (h : run step s es = some t) (b : ℕ) :
    t.requestsOf b ≤ s.requestsOf b + (armings s es).count b := by
  induction es generalizing s with
  | nil =>
    cases h
    exact Nat.le_add_right _ _
  | cons e es ih =>
    obtain ⟨u, hs, h⟩ := run_cons_eq_some.mp h
    have h1 := requests_step hc.1 hs b
    have h2 := ih (hc.2 u hs) h
    simp only [armings, hs]
    rw [List.count_append]
    omega

/-- In every run, a burst's watchdog is set at most `burstBound` times for its declared size; and in a
run in which every packet that ends a segment moves the contiguous frontier, so often at most is data
requested for it. -/
theorem burst_bounded {vehicle : Option VehicleIdentity} {requestTimeoutMs nowMs : ℕ}
    {es : List ServiceEvent} {s : MavftpService} {op : BurstOperation}
    (h : run step (fresh vehicle requestTimeoutMs nowMs) es = some s)
    (hop : s.activeBurst = some op ∨ ∃ r ∈ s.finished, r.op = op) :
    (armings (fresh vehicle requestTimeoutMs nowMs) es).count op.id ≤
        burstBound op.declaredSize ∧
      (Along step SegmentsProgress (fresh vehicle requestTimeoutMs nowMs) es →
        s.requestsOf op.id ≤ burstBound op.declaredSize) := by
  have hp := paid_run (paid_fresh vehicle requestTimeoutMs nowMs) h
  rw [List.nil_append] at hp
  have harm : (armings (fresh vehicle requestTimeoutMs nowMs) es).count op.id ≤
      burstBound op.declaredSize := by
    obtain hop | ⟨r, hr, rfl⟩ := hop
    · obtain ⟨hin, hpaid, -⟩ := hp.active op hop
      exact hpaid.trans hin.paid_le
    · exact (hp.finished r hr).1
  refine ⟨harm, fun hc => ?_⟩
  have hreq := requests_run hc h op.id
  rw [show (fresh vehicle requestTimeoutMs nowMs).requestsOf op.id = 0 from rfl,
    Nat.zero_add] at hreq
  exact hreq.trans harm

set_option maxRecDepth 4000 in
theorem burst_bounded_two_segments :
    ∃ s, run step (fresh (some ⟨1, 1⟩) 3000 0)
        (openingEvents 2 ++ [.deliver (encodeMavftpPayload ⟨3, 0, MAV_FTP_OPCODE.ACK, 1,
          MAV_FTP_OPCODE.BURST_READ_FILE, 1, 0, [7]⟩) 2, burstReply 4 1 [8]]) = some s ∧
      ∀ r ∈ s.finished, s.requestsOf r.op.id ≤ burstBound r.op.declaredSize := by
  refine ⟨_, rfl, fun r hr => ?_⟩
  exact (@burst_bounded (some ⟨1, 1⟩) 3000 0 (openingEvents 2 ++
    [.deliver (encodeMavftpPayload ⟨3, 0, MAV_FTP_OPCODE.ACK, 1,
      MAV_FTP_OPCODE.BURST_READ_FILE, 1, 0, [7]⟩) 2, burstReply 4 1 [8]]) _ r.op rfl
    (.inr ⟨r, hr, rfl⟩)).2 (by decide)

/-! ## Segments that end without progress -/

def emptySegment : ServiceEvent :=
  .deliver (encodeMavftpPayload ⟨3, 0, MAV_FTP_OPCODE.ACK, 0, MAV_FTP_OPCODE.BURST_READ_FILE,
    1, 0, []⟩) 2

variable {vehicle : VehicleIdentity}

theorem emptySegment_step (hact : s.activeBurst = some op) (hv : s.vehicle = some vehicle)
    (hsess : op.session = 0) (hrec : op.received = 0) (hsize : op.declaredSize = 1) :
    ∃ s', s.step emptySegment = some s' ∧ s'.activeBurst = some op ∧ s'.vehicle = some vehicle ∧
      s'.requestsOf op.id = s.requestsOf op.id + 1 := by
  obtain ⟨x, hx⟩ := adopt_eq s 3
  have hdec : decodeMavftpPayload (encodeMavftpPayload ⟨3, 0, MAV_FTP_OPCODE.ACK, 0,
      MAV_FTP_OPCODE.BURST_READ_FILE, 1, 0, []⟩) = some ⟨3, 0, MAV_FTP_OPCODE.ACK, 0,
      MAV_FTP_OPCODE.BURST_READ_FILE, 1, 0, []⟩ :=
    decode_encodeMavftpPayload (by constructor <;> decide)
  have hheed : op.heed ⟨3, 0, MAV_FTP_OPCODE.ACK, 0, MAV_FTP_OPCODE.BURST_READ_FILE, 1, 0, []⟩
      s.nowMs = op := by
    obtain ⟨id, session, declaredSize, buffer, received, highWater, retries, timeoutMs, timerDueMs,
      abortable⟩ := op
    obtain rfl : received = 0 := hrec
    obtain rfl : declaredSize = 1 := hsize
    simp [BurstOperation.heed, BurstOperation.Rearms, BurstOperation.accept, BurstOperation.advance,
      BurstOperation.place, BurstOperation.writable]
  refine ⟨_, rfl, ?_⟩
  simp only [handleFileTransferProtocol, hdec, handlePayload, hx, routesToBurst, hact,
    Option.isSome_some, Bool.true_and, beq_self_eq_true, if_true, handleBurstPacket, hsess,
    ne_eq, not_true, if_false, handleBurstData_eq, hheed]
  rw [if_neg (by decide), if_neg (by omega), if_pos (by decide)]
  simp [sendBurstReadRequest, hv, requestsOf]

theorem emptySegments_run (n : ℕ) (hact : s.activeBurst = some op) (hv : s.vehicle = some vehicle)
    (hsess : op.session = 0) (hrec : op.received = 0) (hsize : op.declaredSize = 1) :
    ∃ t, run step s (List.replicate n emptySegment) = some t ∧ t.activeBurst = some op ∧
      t.requestsOf op.id = s.requestsOf op.id + n := by
  induction n generalizing s with
  | zero => exact ⟨s, rfl, hact, rfl⟩
  | succ n ih =>
    obtain ⟨u, hs, hact', hv', hu⟩ := emptySegment_step hact hv hsess hrec hsize
    obtain ⟨t, ht, hactt, hreq⟩ := ih hact' hv'
    exact ⟨t, run_cons_eq_some.mpr ⟨u, hs, ht⟩, hactt, by omega⟩

set_option maxRecDepth 4000 in
/-- A server that ends every segment at once has the same byte requested without end: no function of
the declared size and the retries bounds the requests. -/
theorem empty_segments_unbounded :
    ¬ ∃ f : ℕ → ℕ → ℕ, ∀ es s op, run step (fresh (some ⟨1, 1⟩) 3000 0) es = some s →
      s.activeBurst = some op →
        s.requestsOf op.id ≤ f op.declaredSize MAX_MAVFTP_BURST_RETRIES := by
  rintro ⟨f, hf⟩
  obtain ⟨s, op, hrun, hact, hv, hsess, hrec, hsize⟩ : ∃ s op,
      run step (fresh (some ⟨1, 1⟩) 3000 0) (openingEvents 1) = some s ∧
      s.activeBurst = some op ∧ s.vehicle = some ⟨1, 1⟩ ∧ op.session = 0 ∧ op.received = 0 ∧
      op.declaredSize = 1 := ⟨_, _, rfl, rfl, rfl, rfl, rfl, rfl⟩
  obtain ⟨t, ht, hactt, hreq⟩ := emptySegments_run (f 1 MAX_MAVFTP_BURST_RETRIES + 1) hact hv hsess
    hrec hsize
  have hle := hf _ t op (run_append_eq_some.mpr ⟨s, hrun, ht⟩) hactt
  rw [hsize] at hle
  omega

end MavftpService
end ArduConfigurator.Mavftp
