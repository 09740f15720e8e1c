import ArduConfigurator.Mavftp.BurstRead
import ArduConfigurator.Mavftp.WatchdogTurns

/-! # The progress watchdog of a burst

What restarts it, what a stream without progress leaves of it, and how often it can be restarted
before the burst settles. -/
namespace ArduConfigurator.Mavftp
namespace MavftpService
open Runs
set_option autoImplicit false

/-! ## Every operation of a run -/

structure InBudget (op : BurstOperation) : Prop where
  cursors : op.Cursors
  retries : op.retries ≤ MAX_MAVFTP_BURST_RETRIES

variable {op : BurstOperation}

theorem InBudget.heed (h : InBudget op) (p : MavftpPayload) (nowMs : ℕ) :
    InBudget (op.heed p nowMs) := by
  refine ⟨(h.cursors.accept p).congr (op.sameData_heed p nowMs), ?_⟩
  have hr : (op.heed p nowMs).retries = (op.accept p).retries := by
    unfold BurstOperation.heed
    split <;> rfl
  rw [hr, BurstOperation.accept_retries]
  have := h.retries
  split <;> omega

variable {s : MavftpService} {e : ServiceEvent}

theorem StartsWith.inBudget (h : s.StartsWith e op) (hretries : op.retries = 0) : InBudget op :=
  ⟨⟨by rw [h.received]; exact Nat.zero_le _, by rw [h.highWater]; exact Nat.zero_le _⟩,
    by rw [hretries]; exact Nat.zero_le _⟩

variable {s' : MavftpService}

theorem inBudget_step (hi : ∀ op, s.activeBurst = some op → InBudget op) (h : s.step e = some s') :
    ∀ op, s'.activeBurst = some op → InBudget op := by
  intro op' hop'
  have leaves : ∀ {op : BurstOperation}, Leaves s op s' → InBudget op → InBudget op' := by
    intro op hl hb
    obtain ⟨ha, -⟩ | ⟨ha, -⟩ := hl.burst
    · cases ha.symm.trans hop'
      exact hb
    · cases ha.symm.trans hop'
  cases watchdog_turn h with
  | quiet hsame => exact hi op' (hsame.activeBurst ▸ hop')
  | started hstart hretries hb ha hl => exact leaves hl (hstart.inBudget hretries)
  | retried hact hlt hwhy hb ha hl =>
    exact leaves hl ⟨⟨(hi _ hact).cursors.received_le, (hi _ hact).cursors.highWater_le⟩, hlt⟩
  | heeded hp hdata hb ha hl => exact leaves hl ((hi _ (burstPacket_active hp)).heed _ _)
  | settled hact hb ha hnone => cases hnone.symm.trans hop'

variable {es : List ServiceEvent}

theorem inBudget_run {vehicle : Option VehicleIdentity} {requestTimeoutMs nowMs : ℕ}
    (h : run step (fresh vehicle requestTimeoutMs nowMs) es = some s) :
    ∀ op, s.activeBurst = some op → InBudget op :=
  run_invariant (I := fun s => ∀ op, s.activeBurst = some op → InBudget op)
    (fun _ _ _ hi hs => inBudget_step hi hs) (fun op hop => by cases hop) h

/-! ## What restarts the watchdog -/

variable {op' : BurstOperation}

theorem timer_follows (h : s.step e = some s') (hop : s.activeBurst = some op)
    (hop' : s'.activeBurst = some op') :
    op'.timerDueMs = if s.armed e = some op.id then s.nowMs + op.timeoutMs else op.timerDueMs := by
  have leaves : ∀ {o : BurstOperation}, Leaves s o s' → op' = o := by
    intro o hl
    obtain ⟨ha, -⟩ | ⟨ha, -⟩ := hl.burst
    · exact Option.some.inj (hop'.symm.trans ha)
    · cases ha.symm.trans hop'
  cases watchdog_turn h with
  | quiet hsame hb ha =>
    cases (hsame.activeBurst ▸ hop).symm.trans hop'
    rw [if_neg (by rw [ha]; simp)]
  | started hstart => cases hstart.idle.symm.trans hop
  | retried hact hlt hwhy hb ha hl =>
    cases hact.symm.trans hop
    rw [leaves hl, if_pos ha]
    rfl
  | @heeded o p hp hdata hb ha hl =>
    cases (burstPacket_active hp).symm.trans hop
    have ht := op.accept_timer p
    rw [leaves hl, ha, BurstOperation.heed]
    by_cases hr : op.Rearms p
    · rw [if_pos hr, if_pos hr, if_pos rfl, BurstOperation.bump, ht.2]
    · rw [if_neg hr, if_neg hr, if_neg (by simp), ht.1]
  | settled hact hb ha hnone => cases hnone.symm.trans hop'

/-- A data packet of the burst stream restarts the watchdog exactly when it belongs to the burst's
session and moves one of the two cursors. -/
def WatchdogExact (s : MavftpService) (e : ServiceEvent) : Prop :=
  ∀ op payload answers, s.activeBurst = some op → e.packet = some (payload, answers) →
    payload.reqOpcode = MAV_FTP_OPCODE.BURST_READ_FILE → payload.opcode ≠ MAV_FTP_OPCODE.NAK →
    (s.armed e = some op.id ↔ payload.session = op.session ∧
      (op.received < (op.accept payload).received ∨
        op.highWater < (op.accept payload).highWater))

/-- No data packet of the active burst raises its high-water mark from beyond its contiguous
frontier. -/
def NoJump (s : MavftpService) (e : ServiceEvent) : Prop :=
  ∀ hit ∈ s.burstPacket e, hit.2.opcode ≠ MAV_FTP_OPCODE.NAK →
    ¬ (hit.1.received < hit.2.offset ∧ 0 < hit.1.writable hit.2 ∧
      hit.1.highWater < hit.2.offset + hit.1.writable hit.2)

instance (s : MavftpService) (e : ServiceEvent) : Decidable (NoJump s e) :=
  inferInstanceAs (Decidable (∀ hit ∈ s.burstPacket e, hit.2.opcode ≠ MAV_FTP_OPCODE.NAK → _))

theorem armed_of_burstPacket {p : MavftpPayload} (hp : s.burstPacket e = some (op, p))
    (hdata : p.opcode ≠ MAV_FTP_OPCODE.NAK) : s.armed e = some op.id ↔ op.Rearms p := by
  obtain ⟨message, answers, rfl, -⟩ := burstPacket_eq_some.mp hp
  simp only [armed, hp, Option.bind_eq_bind, Option.bind_some, if_neg hdata]
  split
  · next hr => exact ⟨fun _ => hr, fun _ => rfl⟩
  · next hr => exact ⟨fun h => (by cases h), fun h => absurd h hr⟩

theorem jump_iff (hc : op.Cursors) (p : MavftpPayload) :
    (op.Rearms p ↔ op.received < (op.accept p).received ∨
        op.highWater < (op.accept p).highWater) ↔
      ¬ (op.received < p.offset ∧ 0 < op.writable p ∧
        op.highWater < p.offset + op.writable p) := by
  have hle := hc.received_le
  rw [BurstOperation.rearms_iff, BurstOperation.accept_highWater, BurstOperation.place_highWater,
    BurstOperation.accept_received]
  by_cases hw : 0 < op.writable p
  · have hlt := (BurstOperation.offset_lt_of_writable hw).1
    rw [if_pos hw]
    split <;> omega
  · rw [if_neg hw]
    omega

theorem watchdogExact_iff (e : ServiceEvent) (hi : ∀ op, s.activeBurst = some op → InBudget op) :
    s.WatchdogExact e ↔ s.NoJump e := by
  constructor
  · rintro hexact ⟨op, p⟩ hp hdata
    obtain ⟨message, answers, rfl, hact, hdec, hburst, hsess⟩ := burstPacket_eq_some.mp hp
    have hpacket : (ServiceEvent.deliver message answers).packet = some (p, answers) := by
      simp only [ServiceEvent.packet, hdec, Option.map_some]
    refine (jump_iff (hi op hact).cursors p).mp ?_
    rw [← armed_of_burstPacket hp hdata, hexact op p answers hact hpacket hburst hdata]
    exact ⟨fun h => h.2, fun h => ⟨hsess, h⟩⟩
  · intro hjump op p answers hact hpacket hburst hdata
    cases e with
    | deliver message answers' =>
      have hdec : decodeMavftpPayload message = some p := by
        simp only [ServiceEvent.packet, Option.map_eq_some_iff, Prod.mk.injEq] at hpacket
        obtain ⟨q, hq, rfl, -⟩ := hpacket
        exact hq
      by_cases hsess : p.session = op.session
      · have hp : s.burstPacket (.deliver message answers') = some (op, p) :=
          burstPacket_eq_some.mpr ⟨message, answers', rfl, hact, hdec, hburst, hsess⟩
        rw [armed_of_burstPacket hp hdata, (jump_iff (hi op hact).cursors p).mpr
          (hjump (op, p) hp hdata)]
        exact ⟨fun h => ⟨hsess, h⟩, fun h => h.2⟩
      · refine ⟨fun h => ?_, fun h => absurd h.1 hsess⟩
        simp [armed, burstPacket, hact, hdec, hburst, hsess] at h
    | _ => cases hpacket

theorem along_watchdogExact_iff (hi : ∀ op, s.activeBurst = some op → InBudget op) :
    Along step WatchdogExact s es ↔ Along step NoJump s es := by
  induction es generalizing s with
  | nil => exact Iff.rfl
  | cons e es ih =>
    refine and_congr (watchdogExact_iff e hi) (forall_congr' fun t => ?_)
    exact forall_congr' fun hs => ih (inBudget_step hi hs)

/-! ## A stream without progress -/

/-- Time passes, the watchdog fires, or a packet arrives that moves neither cursor of the active
burst. -/
def Stalled (s : MavftpService) : ServiceEvent → Prop
  | .tick _ => True
  | .burstTimeout => True
  | .deliver message answers => ∀ hit ∈ s.burstPacket (.deliver message answers),
      hit.2.opcode ≠ MAV_FTP_OPCODE.NAK ∧ (hit.1.accept hit.2).received = hit.1.received ∧
        (hit.1.accept hit.2).highWater = hit.1.highWater
  | _ => False

instance (s : MavftpService) (e : ServiceEvent) : Decidable (Stalled s e) :=
  match e with
  | .tick _ | .burstTimeout => isTrue trivial
  | .deliver message answers => inferInstanceAs (Decidable
      (∀ hit ∈ s.burstPacket (.deliver message answers), hit.2.opcode ≠ MAV_FTP_OPCODE.NAK ∧ _ ∧ _))
  | .request _ _ | .clearStaleSessionsOnce _ | .opened _ _ _ _ | .waiterTimeout _ | .abort
  | .burstSendFailed _ | .sendFailed _ _ | .cancelAll _ | .setVehicle _ => isFalse id

theorem stalled_step (h : s.step e = some s') (hstalled : s.Stalled e)
    (hop : s.activeBurst = some op) (hop' : s'.activeBurst = some op') :
    op'.retries = op.retries + (if e = .burstTimeout then 1 else 0) ∧
      (e ≠ .burstTimeout → op'.timerDueMs = op.timerDueMs) := by
  have leaves : ∀ {o : BurstOperation}, Leaves s o s' → op' = o := by
    intro o hl
    obtain ⟨ha, -⟩ | ⟨ha, -⟩ := hl.burst
    · exact Option.some.inj (hop'.symm.trans ha)
    · cases ha.symm.trans hop'
  cases watchdog_turn h with
  | quiet hsame hb ha =>
    cases (hsame.activeBurst ▸ hop).symm.trans hop'
    have hne : e ≠ .burstTimeout := by
      rintro rfl
      simp only [step, hop, Option.bind_eq_bind, Option.bind_some] at h
      split at h
      · cases h
        by_cases hr : op.retries < MAX_MAVFTP_BURST_RETRIES
        · simp [armed, hop, hr] at ha
        · have := hsame.activeBurst
          simp [onBurstTimeout, hop, hr, failBurst] at this
      · cases h
    rw [if_neg hne]
    exact ⟨rfl, fun _ => rfl⟩
  | started hstart => cases hstart.idle.symm.trans hop
  | retried hact hlt hwhy hb ha hl =>
    cases hact.symm.trans hop
    rw [leaves hl]
    obtain rfl | ⟨p, hp, hnak⟩ := hwhy
    · exact ⟨rfl, fun hne => absurd rfl hne⟩
    · obtain ⟨message, answers, rfl, -⟩ := burstPacket_eq_some.mp hp
      exact absurd hnak (hstalled (op, p) hp).1
  | @heeded o p hp hdata hb ha hl =>
    cases (burstPacket_active hp).symm.trans hop
    obtain ⟨message, answers, rfl, -⟩ := burstPacket_eq_some.mp hp
    obtain ⟨-, hrec, -⟩ := hstalled (op, p) hp
    have hno : ¬ op.Rearms p := by
      rw [BurstOperation.rearms_iff, hrec]
      exact lt_irrefl _
    have ht := op.accept_timer p
    rw [leaves hl, BurstOperation.heed, if_neg hno, BurstOperation.accept_retries, hrec,
      if_neg (lt_irrefl _), if_neg (by simp)]
    exact ⟨rfl, fun _ => ht.1⟩
  | settled hact hb ha hnone => cases hnone.symm.trans hop'

theorem stalled_none (h : s.step e = some s') (hstalled : s.Stalled e)
    (hnone : s.activeBurst = none) : s'.activeBurst = none := by
  cases watchdog_turn h with
  | quiet hsame => exact hsame.activeBurst.trans hnone
  | started hstart =>
    obtain ⟨reply, hr, -⟩ := hstart.reply
    cases e with
    | opened => exact hstalled.elim
    | _ => cases hr
  | retried hact => cases hact.symm.trans hnone
  | heeded hp => cases (burstPacket_active hp).symm.trans hnone
  | settled hact => cases hact.symm.trans hnone

variable {t : MavftpService}

theorem stalled_run_none (h : run step s es = some t) (hstalled : Along step Stalled s es)
    (hnone : s.activeBurst = none) : t.activeBurst = none :=
  run_invariant_along (C := Stalled) (I := fun s => s.activeBurst = none)
    (fun _ _ _ hn hc hs => stalled_none hs hc hn) hnone hstalled h

theorem stalled_run (h : run step s es = some t) (hstalled : Along step Stalled s es)
    (hop : s.activeBurst = some op) (hop' : t.activeBurst = some op') :
    op'.retries = op.retries + es.count .burstTimeout ∧
      (.burstTimeout ∉ es → op'.timerDueMs = op.timerDueMs) := by
  induction es generalizing s op with
  | nil =>
    cases h
    cases hop.symm.trans hop'
    exact ⟨rfl, fun _ => rfl⟩
  | cons e es ih =>
    obtain ⟨u, hs, h⟩ := run_cons_eq_some.mp h
    have hrest := hstalled.2 u hs
    cases hu : u.activeBurst with
    | none => cases (stalled_run_none h hrest hu).symm.trans hop'
    | some mid =>
      obtain ⟨hr, hd⟩ := stalled_step hs hstalled.1 hop hu
      obtain ⟨hr', hd'⟩ := ih h hrest hu
      refine ⟨?_, fun hmem => ?_⟩
      · rw [hr', hr, List.count_cons]
        simp only [beq_iff_eq]
        omega
      · rw [List.mem_cons, not_or] at hmem
        rw [hd' hmem.2, hd (Ne.symm hmem.1)]

/-! ## The watchdog over whole runs -/

/-- In a run, every data packet restarts the watchdog exactly as it should if and only if none raises
the high-water mark from beyond the contiguous frontier. Whatever happens, the timer of a burst moves
only when an event restarts it, and a stream without progress outlasts no more firings than the
retries left and never postpones one. -/
theorem burst_watchdog_iff {vehicle : Option VehicleIdentity} {requestTimeoutMs nowMs : ℕ}
    {es : List ServiceEvent} {s : MavftpService}
    (h : run step (fresh vehicle requestTimeoutMs nowMs) es = some s) :
    (Along step WatchdogExact (fresh vehicle requestTimeoutMs nowMs) es ↔
      Along step NoJump (fresh vehicle requestTimeoutMs nowMs) es) ∧
    (∀ e s' op op', s.step e = some s' → s.activeBurst = some op → s'.activeBurst = some op' →
      op'.timerDueMs = if s.armed e = some op.id then s.nowMs + op.timeoutMs else op.timerDueMs) ∧
    ∀ fs t op op', run step s fs = some t → Along step Stalled s fs → s.activeBurst = some op →
      t.activeBurst = some op' →
      op.retries + fs.count .burstTimeout ≤ MAX_MAVFTP_BURST_RETRIES ∧
        (.burstTimeout ∉ fs → op'.timerDueMs = op.timerDueMs) := by
  refine ⟨along_watchdogExact_iff fun op hop => (by cases hop), ?_, ?_⟩
  · exact fun e s' op op' hs hop hop' => timer_follows hs hop hop'
  · intro fs t op op' hfs hstalled hop hop'
    obtain ⟨hr, hd⟩ := stalled_run hfs hstalled hop hop'
    have ht : run step (fresh vehicle requestTimeoutMs nowMs) (es ++ fs) = some t :=
      run_append_eq_some.mpr ⟨s, h, hfs⟩
    exact ⟨hr ▸ (inBudget_run ht op' hop').retries, hd⟩

/-- The first byte of three is held back and the other two overtake it, after five seconds. -/
def overtakingEvents : List ServiceEvent :=
  openingEvents 3 ++ [.tick 5000, burstReply 4 1 [8, 9]]

set_option maxRecDepth 4000 in
theorem burst_watchdog_in_order :
    Along step WatchdogExact (fresh (some ⟨1, 1⟩) 3000 0)
      (openingEvents 3 ++ [.tick 5000, burstReply 3 0 [7]]) :=
  (@burst_watchdog_iff (some ⟨1, 1⟩) 3000 0
    (openingEvents 3 ++ [.tick 5000, burstReply 3 0 [7]]) _ rfl).1.mpr (by decide)

set_option maxRecDepth 4000 in
/-- The two bytes past the gap raise the high-water mark and the watchdog is not restarted: it stays due
six seconds after the burst began. -/
theorem gap_packet_leaves_watchdog :
    ¬ Along step WatchdogExact (fresh (some ⟨1, 1⟩) 3000 0) overtakingEvents ∧
      (run step (fresh (some ⟨1, 1⟩) 3000 0) overtakingEvents).bind
        (fun s => s.activeBurst.map fun op => (op.highWater, op.received, op.timerDueMs)) =
          some (3, 0, 6000) := by
  refine ⟨fun hall => ?_, rfl⟩
  rw [along_watchdogExact_iff fun op hop => (by cases hop)] at hall
  revert hall
  decide

end MavftpService
end ArduConfigurator.Mavftp
