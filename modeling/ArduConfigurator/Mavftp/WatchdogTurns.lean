import ArduConfigurator.Mavftp.BurstBuffer
import ArduConfigurator.Mavftp.Wire

/-! # What one event can do to the watchdog of a burst

`armed` says whose progress watchdog an event starts or restarts. `watchdog_turn` says once what an
event does to the burst, its timer, its retries and its requests. -/
namespace ArduConfigurator.Mavftp
set_option autoImplicit false

/-! ## The cursors -/

namespace BurstOperation

/-- `received` never runs ahead of `highWater`, nor `highWater` of the declared size. -/
structure Cursors (op : BurstOperation) : Prop where
  received_le : op.received ≤ op.highWater
  highWater_le : op.highWater ≤ op.declaredSize

theorem accept_received (op : BurstOperation) (p : MavftpPayload) :
    (op.accept p).received =
      if p.offset ≤ op.received ∧ p.offset < op.declaredSize then
        max op.received (p.offset + op.writable p)
      else op.received := by
  unfold accept advance
  rw [place_received, place_declaredSize, writable_place]
  split
  · rfl
  · exact place_received op p

theorem accept_highWater (op : BurstOperation) (p : MavftpPayload) :
    (op.accept p).highWater = (op.place p).highWater := by
  unfold accept advance
  split <;> rfl

theorem place_highWater (op : BurstOperation) (p : MavftpPayload) :
    (op.place p).highWater =
      if 0 < op.writable p then max op.highWater (p.offset + op.writable p) else op.highWater := by
  by_cases h : p.offset < op.declaredSize ∧ 0 < p.data.length
  · have hw : 0 < op.writable p := by
      rw [writable, if_pos h]
      omega
    rw [if_pos hw, place, if_pos h]
  · have hw : ¬ 0 < op.writable p := by
      rw [writable, if_neg h]
      exact lt_irrefl _
    rw [if_neg hw, place, if_neg h]

variable {op : BurstOperation}

theorem offset_lt_of_writable {p : MavftpPayload} (h : 0 < op.writable p) :
    p.offset < op.declaredSize ∧ p.offset + op.writable p ≤ op.declaredSize := by
  by_cases hg : p.offset < op.declaredSize ∧ 0 < p.data.length
  · exact ⟨hg.1, writable_fits hg⟩
  · rw [writable, if_neg hg] at h
    exact absurd h (lt_irrefl _)

theorem Cursors.accept (h : op.Cursors) (p : MavftpPayload) :
    (op.accept p).Cursors := by
  have h1 := h.received_le
  have h2 := h.highWater_le
  refine ⟨?_, ?_⟩
  · rw [accept_received, accept_highWater, place_highWater]
    split <;> split <;> omega
  · rw [accept_highWater, place_highWater, accept_declaredSize]
    split
    · next hw =>
      have := (offset_lt_of_writable hw).2
      omega
    · exact h2

theorem Cursors.congr {op' : BurstOperation} (h : op.Cursors) (hd : op.SameData op') :
    op'.Cursors :=
  ⟨by rw [hd.received, hd.highWater]; exact h.received_le,
    by rw [hd.highWater, hd.declaredSize]; exact h.highWater_le⟩

theorem rearms_iff (op : BurstOperation) (p : MavftpPayload) :
    op.Rearms p ↔ op.received < (op.accept p).received := by
  unfold Rearms
  rw [accept_highWater, place_received]
  omega

theorem accept_retries (op : BurstOperation) (p : MavftpPayload) :
    (op.accept p).retries = if op.received < (op.accept p).received then 0 else op.retries := by
  have hplace : (op.place p).retries = op.retries := by
    unfold place
    split <;> rfl
  rw [accept_received, accept, advance, place_received, place_declaredSize, writable_place, hplace]
  split
  · rfl
  · rw [if_neg (lt_irrefl _), hplace]

theorem accept_timer (op : BurstOperation) (p : MavftpPayload) :
    (op.accept p).timerDueMs = op.timerDueMs ∧ (op.accept p).timeoutMs = op.timeoutMs := by
  unfold accept advance place
  split <;> split <;> exact ⟨rfl, rfl⟩

def retry (op : BurstOperation) (nowMs : ℕ) : BurstOperation :=
  { op with retries := op.retries + 1 }.bump nowMs

end BurstOperation

namespace MavftpService

/-! ## Whose watchdog an event starts -/

/-- The burst whose `onBurstTimeout` timer the event sets: `runBurst` sets it first, `bumpBurstTimer`
and `onBurstTimeout` set it again. -/
def armed (s : MavftpService) : ServiceEvent → Option ℕ
  | .deliver message answers => do
      let (op, payload) ← s.burstPacket (.deliver message answers)
      if payload.opcode = MAV_FTP_OPCODE.NAK then
        if payload.errorCode = MAV_FTP_ERR.EOF ∧ op.received < op.highWater ∧
            op.retries < MAX_MAVFTP_BURST_RETRIES then some op.id
        else none
      else if op.Rearms payload then some op.id
      else none
  | .burstTimeout => do
      let op ← s.activeBurst
      if op.retries < MAX_MAVFTP_BURST_RETRIES then some op.id else none
  | .opened request maxBytes timeoutMs abortable =>
      (s.openReply (.opened request maxBytes timeoutMs abortable)).map fun _ => s.bursts
  | _ => none

/-! ## The turn of one event -/

/-- The burst goes on as `op`, or settles as `op`; at most one request was sent for it. -/
structure Leaves (s : MavftpService) (op : BurstOperation) (s' : MavftpService) : Prop where
  burst : (s'.activeBurst = some op ∧ s'.finished = s.finished) ∨
    (s'.activeBurst = none ∧ ∃ r : BurstResult, r.op = op ∧ s'.finished = s.finished ++ [r])
  sent : s'.sent = s.sent ∨
    ∃ r : SentRequest, r.burst = some op.id ∧ s'.sent = s.sent ++ [r]

inductive Turn (s : MavftpService) (e : ServiceEvent) (s' : MavftpService) : Prop
  | quiet (hsame : SameBurst s s') (hb : s'.bursts = s.bursts) (ha : s.armed e = none)
      (hsent : s'.sent = s.sent ∨ ∃ r : SentRequest, r.burst = none ∧ s'.sent = s.sent ++ [r])
  | started {op : BurstOperation} (hstart : s.StartsWith e op) (hretries : op.retries = 0)
      (hb : s'.bursts = s.bursts + 1) (ha : s.armed e = some op.id) (hl : Leaves s op s')
  | retried {op : BurstOperation} (hact : s.activeBurst = some op)
      (hlt : op.retries < MAX_MAVFTP_BURST_RETRIES)
      (hwhy : e = .burstTimeout ∨
        ∃ p, s.burstPacket e = some (op, p) ∧ p.opcode = MAV_FTP_OPCODE.NAK)
      (hb : s'.bursts = s.bursts) (ha : s.armed e = some op.id)
      (hl : Leaves s (op.retry s.nowMs) s')
  | heeded {op : BurstOperation} {p : MavftpPayload} (hp : s.burstPacket e = some (op, p))
      (hdata : p.opcode ≠ MAV_FTP_OPCODE.NAK) (hb : s'.bursts = s.bursts)
      (ha : s.armed e = if op.Rearms p then some op.id else none)
      (hl : Leaves s (op.heed p s.nowMs) s') (hask : p.burstComplete = 0 → s'.sent = s.sent)
  | settled {op : BurstOperation} (hact : s.activeBurst = some op) (hb : s'.bursts = s.bursts)
      (ha : s.armed e = none) (hnone : s'.activeBurst = none)
      (hfin : ∃ r : BurstResult, r.op = op ∧ s'.finished = s.finished ++ [r])
      (hsent : s'.sent = s.sent)

theorem leaves_rerequest (s : MavftpService) (op : BurstOperation) (offset : ℕ) :
    Leaves s op ({ s with activeBurst := some op }.sendBurstReadRequest op offset) ∧
      ({ s with activeBurst := some op }.sendBurstReadRequest op offset).bursts = s.bursts := by
  unfold sendBurstReadRequest
  split
  · rw [failBurst_of_active _ rfl]
    exact ⟨⟨.inr ⟨rfl, .rejected op _ _, rfl, rfl⟩, .inl rfl⟩, rfl⟩
  · exact ⟨⟨.inl ⟨rfl, rfl⟩, .inr ⟨_, rfl, rfl⟩⟩, rfl⟩

variable {s : MavftpService} {e : ServiceEvent}

theorem turn_failBurst (error : MavftpError) (ha : s.armed e = none) :
    Turn s e (s.failBurst error) := by
  cases h : s.activeBurst with
  | none =>
    rw [failBurst, h]
    exact .quiet (.refl s) rfl ha (.inl rfl)
  | some op =>
    rw [failBurst_of_active error h]
    exact .settled h rfl ha rfl ⟨.rejected op _ _, rfl, rfl⟩ rfl

theorem turn_send (request : Request) (timeoutMs : Option ℕ) (ha : s.armed e = none) :
    Turn s e (s.send request timeoutMs) := by
  unfold send
  split
  · exact .quiet (.refl s) rfl ha (.inl rfl)
  · exact .quiet ⟨rfl, rfl⟩ rfl ha (.inr ⟨_, rfl, rfl⟩)

theorem armed_of_plain (he : s.Plain e) : s.armed e = none := by
  cases e with
  | deliver message answers =>
    have hpacket := he.packet
    rw [ServiceEvent.packet, Option.map_eq_none_iff] at hpacket
    cases hact : s.activeBurst <;> simp [armed, burstPacket, hpacket, hact]
  | burstTimeout => exact absurd rfl he.timer
  | opened request maxBytes timeoutMs abortable => rw [armed, he.openReply, Option.map_none]
  | _ => rfl

theorem turn_deliver (s : MavftpService) (message : Bytes) (answers : ℕ) :
    Turn s (.deliver message answers) (s.handleFileTransferProtocol message answers) := by
  unfold handleFileTransferProtocol
  split
  · next hd =>
    refine .quiet (.refl s) rfl ?_ (.inl rfl)
    simp only [armed, burstPacket, hd, Option.bind_eq_bind, Option.bind_none, Option.bind_fun_none]
  · next p hd =>
    obtain ⟨x, hx⟩ := adopt_eq s p.seqNumber
    rw [handlePayload, hx]
    split
    · next hroute =>
      unfold handleBurstPacket
      split
      · next hact =>
        refine .quiet ⟨rfl, rfl⟩ rfl ?_ (.inl rfl)
        simp only [armed, burstPacket, show s.activeBurst = none from hact, Option.bind_eq_bind,
          Option.bind_none]
      · next op hact =>
        have hact : s.activeBurst = some op := hact
        have hburst : p.reqOpcode = MAV_FTP_OPCODE.BURST_READ_FILE := by
          simpa [routesToBurst, hact] using hroute
        split
        · next hsess =>
          refine .quiet ⟨rfl, rfl⟩ rfl ?_ (.inl rfl)
          simp only [armed, burstPacket, hact, hd, Option.bind_eq_bind, Option.bind_some, hburst,
            true_and, if_neg hsess, Option.bind_none]
        · next hsess =>
          have hpk : s.burstPacket (.deliver message answers) = some (op, p) :=
            burstPacket_eq_some.mpr
              ⟨message, answers, rfl, hact, hd, hburst, not_not.mp hsess⟩
          have harm : s.armed (.deliver message answers) =
              if p.opcode = MAV_FTP_OPCODE.NAK then
                if p.errorCode = MAV_FTP_ERR.EOF ∧ op.received < op.highWater ∧
                  op.retries < MAX_MAVFTP_BURST_RETRIES then some op.id else none
              else if op.Rearms p then some op.id else none := by
            simp only [armed, hpk, Option.bind_eq_bind, Option.bind_some]
          split
          · next hnak =>
            rw [if_pos hnak] at harm
            unfold handleBurstNak
            split
            · next heof =>
              split
              · next hge =>
                exact .settled hact rfl
                  (by rw [harm, if_neg (fun h => Nat.not_lt.mpr hge h.2.1)]) rfl
                  ⟨.resolved op _, rfl, rfl⟩ rfl
              · next hlt =>
                split
                · next hretry =>
                  have hl := leaves_rerequest { s with sequence := x } (op.retry s.nowMs)
                    (op.retry s.nowMs).received
                  exact .retried hact hretry (.inr ⟨p, hpk, hnak⟩) hl.2
                    (by rw [harm, if_pos ⟨heof, Nat.not_le.mp hlt, hretry⟩]) ⟨hl.1.burst, hl.1.sent⟩
                · next hretry =>
                  rw [@failBurst_of_active { s with sequence := x } op _ hact]
                  exact .settled hact rfl (by rw [harm, if_neg (fun h => hretry h.2.2)]) rfl
                    ⟨.rejected op _ _, rfl, rfl⟩ rfl
            · next heof =>
              rw [@failBurst_of_active { s with sequence := x } op _ hact]
              exact .settled hact rfl (by rw [harm, if_neg (fun h => heof h.1)]) rfl
                ⟨.rejected op _ _, rfl, rfl⟩ rfl
          · next hdata =>
            rw [if_neg hdata] at harm
            rw [handleBurstData_eq]
            split
            · exact .heeded hpk hdata rfl harm ⟨.inr ⟨rfl, .resolved _ _, rfl, rfl⟩, .inl rfl⟩
                fun _ => rfl
            · split
              · next hask =>
                have hl := leaves_rerequest { s with sequence := x } (op.heed p s.nowMs)
                  (op.heed p s.nowMs).received
                exact .heeded hpk hdata hl.2 harm ⟨hl.1.burst, hl.1.sent⟩ fun h => absurd h hask
              · exact .heeded hpk hdata rfl harm ⟨.inl ⟨rfl, rfl⟩, .inl rfl⟩ fun _ => rfl
    · next hroute =>
      refine .quiet ⟨rfl, rfl⟩ rfl ?_ (.inl rfl)
      cases hact : s.activeBurst with
      | none => simp only [armed, burstPacket, hact, Option.bind_eq_bind, Option.bind_none]
      | some op =>
        have hburst : p.reqOpcode ≠ MAV_FTP_OPCODE.BURST_READ_FILE := by
          simpa [routesToBurst, hact] using hroute
        simp only [armed, burstPacket, hact, hd, Option.bind_eq_bind, Option.bind_some, hburst,
          false_and, if_false, Option.bind_none]

theorem watchdog_turn {s' : MavftpService} (h : s.step e = some s') :
    Turn s e s' := by
  cases step_cases h with
  | deliver message answers => exact turn_deliver s message answers
  | send request timeoutMs he => exact turn_send _ _ (armed_of_plain he)
  | clear timeoutMs =>
    unfold clearStaleSessionsOnce
    split
    · exact .quiet (.refl s) rfl rfl (.inl rfl)
    · unfold send
      split
      · exact .quiet ⟨rfl, rfl⟩ rfl rfl (.inl rfl)
      · exact .quiet ⟨rfl, rfl⟩ rfl rfl (.inr ⟨_, rfl, rfl⟩)
  | @start request maxBytes timeoutMs abortable reply hidle hopen hpos =>
    unfold runBurst
    dsimp only
    generalize hop : BurstOperation.mk s.bursts reply.session reply.declaredSize _ 0 0 0 _ _ _ = op
    have hstart : s.StartsWith (.opened request maxBytes timeoutMs abortable) op := by
      subst hop
      exact ⟨hidle, ⟨reply, hopen, rfl, rfl⟩, hpos, rfl, rfl, rfl, rfl⟩
    have hretries : op.retries = 0 := by rw [← hop]
    have hl := leaves_rerequest { s with bursts := s.bursts + 1 } op 0
    exact .started hstart hretries hl.2 (by rw [armed, hopen, Option.map_some, hstart.id])
      ⟨hl.1.burst, hl.1.sent⟩
  | @timeout op hact =>
    have harm : s.armed .burstTimeout =
        if op.retries < MAX_MAVFTP_BURST_RETRIES then some op.id else none := by
      simp only [armed, hact, Option.bind_eq_bind, Option.bind_some]
    rw [onBurstTimeout, hact]
    dsimp only
    split
    · next hretry =>
      have hl := leaves_rerequest s (op.retry s.nowMs) (op.retry s.nowMs).received
      exact .retried hact hretry (.inl rfl) hl.2 (by rw [harm, if_pos hretry]) hl.1
    · next hretry => exact turn_failBurst _ (by rw [harm, if_neg hretry])
  | reject waiter error he => exact .quiet ⟨rfl, rfl⟩ rfl (armed_of_plain he) (.inl rfl)
  | fail error he => exact turn_failBurst error (armed_of_plain he)
  | cancelAll text =>
    cases hact : s.activeBurst with
    | none =>
      simp only [MavftpService.cancelAll, failBurst, hact]
      exact .quiet ⟨hact.symm ▸ rfl, rfl⟩ rfl rfl (.inl rfl)
    | some op =>
      simp only [MavftpService.cancelAll, failBurst_of_active _ hact]
      exact .settled hact rfl rfl rfl ⟨.rejected op _ _, rfl, rfl⟩ rfl
  | setVehicle vehicle => exact .quiet ⟨rfl, rfl⟩ rfl rfl (.inl rfl)
  | tick ms => exact .quiet ⟨rfl, rfl⟩ rfl rfl (.inl rfl)

end MavftpService
end ArduConfigurator.Mavftp
