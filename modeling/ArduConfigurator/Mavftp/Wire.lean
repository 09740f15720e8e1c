import ArduConfigurator.Mavftp.BurstMoves

/-! # What one event puts on the wire

At most one request, with the sequence number the counter stood at. Only the ordinary path stamps
`lastTransferActivityAtMs`. -/
namespace ArduConfigurator.Mavftp
set_option autoImplicit false

/-! ## A data packet and the watchdog -/

namespace BurstOperation

/-- The packet makes `handleBurstPacket` call `bumpBurstTimer`. `highWaterBefore` and
`receivedBefore` are those of the operation the data has already been written to. -/
def Rearms (op : BurstOperation) (payload : MavftpPayload) : Prop :=
  (op.accept payload).highWater > (op.place payload).highWater ∨
    (op.accept payload).received > (op.place payload).received

instance (op : BurstOperation) (payload : MavftpPayload) : Decidable (op.Rearms payload) :=
  inferInstanceAs (Decidable (_ ∨ _))

def heed (op : BurstOperation) (payload : MavftpPayload) (nowMs : ℕ) : BurstOperation :=
  if op.Rearms payload then (op.accept payload).bump nowMs else op.accept payload

theorem sameData_heed (op : BurstOperation) (payload : MavftpPayload) (nowMs : ℕ) :
    (op.accept payload).SameData (op.heed payload nowMs) := by
  unfold heed
  split
  · exact sameData_bump _ _
  · exact .refl _

end BurstOperation

namespace MavftpService

theorem handleBurstData_eq (s : MavftpService) (op : BurstOperation) (payload : MavftpPayload) :
    s.handleBurstData op payload =
      if (op.heed payload s.nowMs).received ≥ (op.heed payload s.nowMs).declaredSize then
        { s with activeBurst := some (op.heed payload s.nowMs) }.finishBurst
          (op.heed payload s.nowMs)
      else if payload.burstComplete ≠ 0 then
        { s with activeBurst := some (op.heed payload s.nowMs) }.sendBurstReadRequest
          (op.heed payload s.nowMs) (op.heed payload s.nowMs).received
      else { s with activeBurst := some (op.heed payload s.nowMs) } := rfl

/-! ## Requests -/

/-- The state the handlers run in: the sequence number of a delivered packet has been adopted. -/
def heard (s : MavftpService) (e : ServiceEvent) : MavftpService :=
  match e.packet with
  | some (payload, _) => s.adoptServerSequence payload.seqNumber
  | none => s

/-- How the counter, the requests and the stamp of `s'` come from those of `s`. -/
inductive Sends (s s' : MavftpService) : Prop
  | nothing (hsent : s'.sent = s.sent) (hseq : s'.sequence = s.sequence)
      (hlast : s'.lastTransferActivityAtMs = s.lastTransferActivityAtMs)
      (hnow : s.nowMs ≤ s'.nowMs)
  | one (r : SentRequest) (hr : r.payload.seqNumber = s.sequence) (hsent : s'.sent = s.sent ++ [r])
      (hseq : s'.sequence = s.nextSequence)
      (hlast : s'.lastTransferActivityAtMs =
        if r.burst = none then s.nowMs else s.lastTransferActivityAtMs)
      (hnow : s'.nowMs = s.nowMs)

theorem Sends.refl (s : MavftpService) : Sends s s := .nothing rfl rfl rfl le_rfl

theorem sends_send (s : MavftpService) (request : Request) (timeoutMs : Option ℕ) :
    Sends s (s.send request timeoutMs) := by
  unfold send
  split
  · exact .refl s
  · exact .one _ rfl rfl rfl rfl rfl

theorem sends_failBurst (s : MavftpService) (error : MavftpError) : Sends s (s.failBurst error) := by
  unfold failBurst
  split
  · exact .refl s
  · exact .nothing rfl rfl rfl le_rfl

variable {s : MavftpService}

theorem Sends.of_same {t u : MavftpService} (h : Sends t u) (hsent : t.sent = s.sent)
    (hseq : t.sequence = s.sequence)
    (hlast : t.lastTransferActivityAtMs = s.lastTransferActivityAtMs) (hnow : t.nowMs = s.nowMs) :
    Sends s u := by
  cases h with
  | nothing hsent' hseq' hlast' hnow' =>
    exact .nothing (hsent'.trans hsent) (hseq'.trans hseq) (hlast'.trans hlast) (hnow ▸ hnow')
  | one r hr hsent' hseq' hlast' hnow' =>
    rw [nextSequence, hseq] at hseq'
    rw [hlast, hnow] at hlast'
    exact .one r (hr.trans hseq) (hsent ▸ hsent') hseq' hlast' (hnow'.trans hnow)

theorem sends_sendBurst (s : MavftpService) (op : BurstOperation) (offset : ℕ) :
    Sends s (s.sendBurstReadRequest op offset) := by
  unfold sendBurstReadRequest
  split
  · exact sends_failBurst s _
  · exact .one _ rfl rfl rfl rfl rfl

theorem sends_rerequest (s : MavftpService) (op : BurstOperation) (offset : ℕ) :
    Sends s ({ s with activeBurst := some op }.sendBurstReadRequest op offset) :=
  (sends_sendBurst _ op offset).of_same rfl rfl rfl rfl

theorem sends_handleBurstPacket (s : MavftpService) (payload : MavftpPayload) :
    Sends s (s.handleBurstPacket payload) := by
  unfold handleBurstPacket
  split
  · exact .refl s
  · split
    · exact .refl s
    · split
      · unfold handleBurstNak
        split
        · split
          · exact .nothing rfl rfl rfl le_rfl
          · split
            · exact sends_rerequest s _ _
            · exact sends_failBurst s _
        · exact sends_failBurst s _
      · rw [handleBurstData_eq]
        split
        · exact .nothing rfl rfl rfl le_rfl
        · split
          · exact sends_rerequest s _ _
          · exact .nothing rfl rfl rfl le_rfl

theorem sends_onBurstTimeout (s : MavftpService) : Sends s s.onBurstTimeout := by
  unfold onBurstTimeout
  split
  · exact .refl s
  · split
    · exact sends_rerequest s _ _
    · exact sends_failBurst s _

theorem sends_runBurst (s : MavftpService) (session declaredSize : ℕ) (timeoutMs : Option ℕ)
    (abortable : Bool) : Sends s (s.runBurst session declaredSize timeoutMs abortable) := by
  unfold runBurst
  exact (sends_sendBurst _ _ _).of_same rfl rfl rfl rfl

variable {e : ServiceEvent}

theorem heard_of_packet {payload : MavftpPayload} {answers : ℕ}
    (h : e.packet = some (payload, answers)) :
    s.heard e = s.adoptServerSequence payload.seqNumber := by
  rw [heard, h]

theorem heard_of_plain {e : ServiceEvent} (he : s.Plain e) : s.heard e = s := by
  rw [heard, he.packet]

theorem sends_deliver (s : MavftpService) (message : Bytes) (answers : ℕ) :
    Sends (s.heard (.deliver message answers))
      (s.handleFileTransferProtocol message answers) := by
  unfold handleFileTransferProtocol
  cases hd : decodeMavftpPayload message with
  | none =>
    have h : s.heard (.deliver message answers) = s := by
      simp only [heard, ServiceEvent.packet, hd, Option.map_none]
    rw [h]
    exact .refl s
  | some payload =>
    have hp : (ServiceEvent.deliver message answers).packet = some (payload, answers) := by
      simp only [ServiceEvent.packet, hd, Option.map_some]
    rw [heard_of_packet hp]
    obtain ⟨x, hx⟩ := s.adopt_eq payload.seqNumber
    dsimp only
    rw [handlePayload, hx]
    split
    · exact sends_handleBurstPacket _ payload
    · exact .nothing rfl rfl rfl le_rfl

theorem heard_eq (s : MavftpService) (e : ServiceEvent) :
    ∃ x, s.heard e = { s with sequence := x } := by
  unfold heard
  split
  · exact s.adopt_eq _
  · exact ⟨s.sequence, rfl⟩

theorem sent_adopt (s : MavftpService) (n : ℕ) : (s.adoptServerSequence n).sent = s.sent := by
  obtain ⟨x, hx⟩ := s.adopt_eq n
  rw [hx]

theorem sent_heard (s : MavftpService) (e : ServiceEvent) : (s.heard e).sent = s.sent := by
  obtain ⟨x, hx⟩ := s.heard_eq e
  rw [hx]

theorem nowMs_heard (s : MavftpService) (e : ServiceEvent) : (s.heard e).nowMs = s.nowMs := by
  obtain ⟨x, hx⟩ := s.heard_eq e
  rw [hx]

theorem last_heard (s : MavftpService) (e : ServiceEvent) :
    (s.heard e).lastTransferActivityAtMs = s.lastTransferActivityAtMs := by
  obtain ⟨x, hx⟩ := s.heard_eq e
  rw [hx]

theorem step_sends {s' : MavftpService} (h : s.step e = some s') :
    Sends (s.heard e) s' := by
  cases step_cases h with
  | deliver message answers => exact sends_deliver s message answers
  | send request timeoutMs he =>
    rw [heard_of_plain he]
    exact sends_send s request timeoutMs
  | clear timeoutMs =>
    unfold clearStaleSessionsOnce
    split
    · exact .refl s
    · exact (sends_send { s with staleSessionsCleared := true } resetRequest timeoutMs).of_same
        rfl rfl rfl rfl
  | start hidle hopen hpos => exact sends_runBurst s _ _ _ _
  | timeout ha => exact sends_onBurstTimeout s
  | reject waiter error he =>
    rw [heard_of_plain he]
    exact .nothing rfl rfl rfl le_rfl
  | fail error he =>
    rw [heard_of_plain he]
    exact sends_failBurst s error
  | cancelAll text =>
    cases sends_failBurst s (.other text) with
    | nothing hsent hseq hlast hnow => exact .nothing hsent hseq hlast hnow
    | one r hr hsent hseq hlast hnow => exact .one r hr hsent hseq hlast hnow
  | setVehicle vehicle => exact .nothing rfl rfl rfl le_rfl
  | tick ms => exact .nothing rfl rfl rfl (Nat.le_add_right _ _)

end MavftpService
end ArduConfigurator.Mavftp
