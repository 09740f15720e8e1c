import ArduConfigurator.Mavftp.Service

/-! # What one event can do to the burst

`burst_move` says it once for every event; the results about bursts argue from its cases and never
unfold the handlers again. -/
namespace ArduConfigurator.Mavftp
set_option autoImplicit false

/-! ## Frame lemmas -/

namespace MavftpService

structure SameBurst (s s' : MavftpService) : Prop where
  activeBurst : s'.activeBurst = s.activeBurst
  finished : s'.finished = s.finished

theorem SameBurst.refl (s : MavftpService) : SameBurst s s := ⟨rfl, rfl⟩

theorem sameBurst_adopt (s : MavftpService) (n : ℕ) : SameBurst s (s.adoptServerSequence n) := by
  obtain ⟨x, hx⟩ := s.adopt_eq n
  rw [hx]
  exact ⟨rfl, rfl⟩

theorem sameBurst_send (s : MavftpService) (request : Request) (timeoutMs : Option ℕ) :
    SameBurst s (s.send request timeoutMs) := by
  unfold send
  split
  · exact .refl s
  · exact ⟨rfl, rfl⟩

theorem sameBurst_clear (s : MavftpService) (timeoutMs : Option ℕ) :
    SameBurst s (s.clearStaleSessionsOnce timeoutMs) := by
  unfold clearStaleSessionsOnce
  split
  · exact .refl s
  · have h := sameBurst_send { s with staleSessionsCleared := true } resetRequest timeoutMs
    exact ⟨h.activeBurst, h.finished⟩

theorem failBurst_of_active {s : MavftpService} {op : BurstOperation} (error : MavftpError)
    (h : s.activeBurst = some op) :
    s.failBurst error =
      { s with activeBurst := none, finished := s.finished ++ [.rejected op error op.salvage] } := by
  simp only [failBurst, h]

theorem sendBurstReadRequest_burst (s : MavftpService) (op : BurstOperation) (offset : ℕ)
    (h : s.activeBurst = some op) :
    SameBurst s (s.sendBurstReadRequest op offset) ∨
      (s.vehicle = none ∧ (s.sendBurstReadRequest op offset).activeBurst = none ∧
        (s.sendBurstReadRequest op offset).finished =
          s.finished ++ [.rejected op .noVehicle op.salvage]) := by
  unfold sendBurstReadRequest
  split
  · next hv =>
    rw [failBurst_of_active _ h]
    exact .inr ⟨hv, rfl, rfl⟩
  · exact .inl ⟨rfl, rfl⟩

/-! ## The packet an event hands to the active burst -/

def burstPacket (s : MavftpService) : ServiceEvent → Option (BurstOperation × MavftpPayload)
  | .deliver message _ => do
      let op ← s.activeBurst
      let payload ← decodeMavftpPayload message
      if payload.reqOpcode = MAV_FTP_OPCODE.BURST_READ_FILE ∧ payload.session = op.session then
        some (op, payload)
      else none
  | _ => none

def openReply (s : MavftpService) : ServiceEvent → Option MavftpPayload
  | .opened request maxBytes _ _ => do
      let reply ← s.replyTo request
      if reply.declaredSize = 0 ∨ reply.declaredSize > maxBytes.getD MAX_MAVFTP_FILE_BYTES then none
      else some reply
  | _ => none

/-! ## What a step is -/

/-- An event that neither is a message, nor starts a burst, nor is the timer of one. -/
structure Plain (s : MavftpService) (e : ServiceEvent) : Prop where
  packet : e.packet = none
  openReply : s.openReply e = none
  timer : e ≠ .burstTimeout

inductive Stepped (s : MavftpService) : ServiceEvent → MavftpService → Prop
  | deliver (message : Bytes) (answers : ℕ) :
      Stepped s (.deliver message answers) (s.handleFileTransferProtocol message answers)
  /-- an ordinary request, also the one that ends the session of a download that does not start -/
  | send {e : ServiceEvent} (request : Request) (timeoutMs : Option ℕ) (he : s.Plain e) :
      Stepped s e (s.send request timeoutMs)
  | clear (timeoutMs : Option ℕ) :
      Stepped s (.clearStaleSessionsOnce timeoutMs) (s.clearStaleSessionsOnce timeoutMs)
  | start {request : ℕ} {maxBytes timeoutMs : Option ℕ} {abortable : Bool} {reply : MavftpPayload}
      (hidle : s.activeBurst = none)
      (hopen : s.openReply (.opened request maxBytes timeoutMs abortable) = some reply)
      (hpos : 0 < reply.declaredSize) :
      Stepped s (.opened request maxBytes timeoutMs abortable)
        (s.runBurst reply.session reply.declaredSize timeoutMs abortable)
  | timeout {op : BurstOperation} (ha : s.activeBurst = some op) :
      Stepped s .burstTimeout s.onBurstTimeout
  | reject {e : ServiceEvent} (waiter : MavftpWaiter) (error : MavftpError) (he : s.Plain e) :
      Stepped s e (s.rejectWaiter waiter error)
  | fail {e : ServiceEvent} (error : MavftpError) (he : s.Plain e) : Stepped s e (s.failBurst error)
  | cancelAll (text : String) : Stepped s (.cancelAll text) (s.cancelAll (.other text))
  | setVehicle (vehicle : Option VehicleIdentity) :
      Stepped s (.setVehicle vehicle) { s with vehicle }
  | tick (ms : ℕ) : Stepped s (.tick ms) { s with nowMs := s.nowMs + ms }

theorem step_cases {s s' : MavftpService} {e : ServiceEvent} (h : s.step e = some s') :
    Stepped s e s' := by
  cases e with
  | deliver message answers =>
    cases h
    exact .deliver message answers
  | request request timeoutMs =>
    rw [step] at h
    split at h
    · cases h
    · cases h
      exact .send request timeoutMs ⟨rfl, rfl, ServiceEvent.noConfusion⟩
  | clearStaleSessionsOnce timeoutMs =>
    cases h
    exact .clear timeoutMs
  | opened request maxBytes timeoutMs abortable =>
    simp only [step, Option.bind_eq_bind, Option.bind_eq_some_iff] at h
    obtain ⟨sent, -, reply, hreply, h⟩ := h
    have hopen : s.openReply (.opened request maxBytes timeoutMs abortable) =
        if reply.declaredSize = 0 ∨ reply.declaredSize > maxBytes.getD MAX_MAVFTP_FILE_BYTES then
          none else some reply := by
      simp only [openReply, hreply, Option.bind_eq_bind, Option.bind_some]
    split at h
    · next hg =>
      cases h
      unfold startDownload
      split
      · next hzero =>
        exact .send _ _ ⟨rfl, hopen.trans (if_pos (.inl hzero)), ServiceEvent.noConfusion⟩
      · next hpos =>
        split
        · next hmax =>
          exact .send _ _ ⟨rfl, hopen.trans (if_pos (.inr hmax)), ServiceEvent.noConfusion⟩
        · next hmax =>
          exact .start hg.2.2 (hopen.trans (if_neg (not_or.mpr ⟨hpos, hmax⟩)))
            (Nat.pos_of_ne_zero hpos)
    · cases h
  | burstTimeout =>
    simp only [step, Option.bind_eq_bind, Option.bind_eq_some_iff] at h
    obtain ⟨op, ha, h⟩ := h
    split at h
    · cases h
      exact .timeout ha
    · cases h
  | waiterTimeout request =>
    simp only [step, Option.bind_eq_bind, Option.bind_eq_some_iff] at h
    obtain ⟨waiter, -, h⟩ := h
    split at h
    · cases h
      exact .reject _ _ ⟨rfl, rfl, ServiceEvent.noConfusion⟩
    · cases h
  | abort =>
    simp only [step, Option.bind_eq_bind, Option.bind_eq_some_iff] at h
    obtain ⟨op, -, h⟩ := h
    split at h
    · cases h
      exact .fail _ ⟨rfl, rfl, ServiceEvent.noConfusion⟩
    · cases h
  | burstSendFailed text =>
    cases h
    exact .fail _ ⟨rfl, rfl, ServiceEvent.noConfusion⟩
  | sendFailed request text =>
    simp only [step, Option.bind_eq_bind, Option.bind_eq_some_iff] at h
    obtain ⟨waiter, -, h⟩ := h
    cases h
    exact .reject _ _ ⟨rfl, rfl, ServiceEvent.noConfusion⟩
  | cancelAll text =>
    cases h
    exact .cancelAll text
  | setVehicle vehicle =>
    cases h
    exact .setVehicle vehicle
  | tick ms =>
    cases h
    exact .tick ms

end MavftpService

structure BurstOperation.SameData (op op' : BurstOperation) : Prop where
  id : op'.id = op.id
  session : op'.session = op.session
  declaredSize : op'.declaredSize = op.declaredSize
  buffer : op'.buffer = op.buffer
  received : op'.received = op.received
  highWater : op'.highWater = op.highWater

theorem BurstOperation.SameData.refl (op : BurstOperation) : SameData op op :=
  ⟨rfl, rfl, rfl, rfl, rfl, rfl⟩

theorem BurstOperation.sameData_bump (op : BurstOperation) (now : ℕ) : SameData op (op.bump now) :=
  ⟨rfl, rfl, rfl, rfl, rfl, rfl⟩

namespace MavftpService

/-- The operation `runBurst` starts with. -/
structure StartsWith (s : MavftpService) (e : ServiceEvent) (op : BurstOperation) : Prop where
  idle : s.activeBurst = none
  reply : ∃ reply, s.openReply e = some reply ∧ op.session = reply.session ∧
    op.declaredSize = reply.declaredSize
  positive : 0 < op.declaredSize
  id : op.id = s.bursts
  buffer : op.buffer = List.replicate op.declaredSize 0
  received : op.received = 0
  highWater : op.highWater = 0

open BurstOperation in
/-- The active burst and the log of finished ones after the event `e`. -/
inductive BurstMove (s : MavftpService) (e : ServiceEvent) :
    Option BurstOperation → List BurstResult → Prop
  | keep : BurstMove s e s.activeBurst s.finished
  | start {op : BurstOperation} (h : s.StartsWith e op) : BurstMove s e (some op) s.finished
  | startFailed {op : BurstOperation} (h : s.StartsWith e op) :
      BurstMove s e none (s.finished ++ [.rejected op .noVehicle op.salvage])
  | hold {op op' : BurstOperation} (ha : s.activeBurst = some op) (hd : SameData op op') :
      BurstMove s e (some op') s.finished
  | accept {op op' : BurstOperation} {p : MavftpPayload} (hp : s.burstPacket e = some (op, p))
      (hdata : p.opcode ≠ MAV_FTP_OPCODE.NAK) (hd : SameData (op.accept p) op')
      (hlt : op'.received < op'.declaredSize) : BurstMove s e (some op') s.finished
  | complete {op op' : BurstOperation} {p : MavftpPayload} (hp : s.burstPacket e = some (op, p))
      (hdata : p.opcode ≠ MAV_FTP_OPCODE.NAK) (hd : SameData (op.accept p) op')
      (hge : op'.declaredSize ≤ op'.received) :
      BurstMove s e none (s.finished ++ [.resolved op' op'.result])
  | eof {op : BurstOperation} {p : MavftpPayload} (hp : s.burstPacket e = some (op, p))
      (hnak : p.opcode = MAV_FTP_OPCODE.NAK) (heof : p.errorCode = MAV_FTP_ERR.EOF)
      (hge : op.highWater ≤ op.received) :
      BurstMove s e none (s.finished ++ [.resolved op op.result])
  | fail {op op' : BurstOperation} {error : MavftpError} (ha : s.activeBurst = some op)
      (hd : SameData op op') :
      BurstMove s e none (s.finished ++ [.rejected op' error op'.salvage])
  | failAfter {op op' : BurstOperation} {p : MavftpPayload} {error : MavftpError}
      (hp : s.burstPacket e = some (op, p)) (hdata : p.opcode ≠ MAV_FTP_OPCODE.NAK)
      (hd : SameData (op.accept p) op') (hlt : op'.received < op'.declaredSize) :
      BurstMove s e none (s.finished ++ [.rejected op' error op'.salvage])

/-- The move from `s` to `s'` on `e`. -/
def Moves (s : MavftpService) (e : ServiceEvent) (s' : MavftpService) : Prop :=
  BurstMove s e s'.activeBurst s'.finished

variable {s s' : MavftpService}

theorem moves_of_sameBurst (e : ServiceEvent) (h : SameBurst s s') :
    Moves s e s' := by
  rw [Moves, h.activeBurst, h.finished]
  exact .keep

theorem moves_failBurst (s : MavftpService) (e : ServiceEvent) (error : MavftpError) :
    Moves s e (s.failBurst error) := by
  cases h : s.activeBurst with
  | none =>
    rw [failBurst, h]
    exact moves_of_sameBurst e (.refl s)
  | some op =>
    rw [failBurst_of_active error h]
    exact .fail h (.refl op)

variable {e : ServiceEvent} {op : BurstOperation}

theorem moves_rerequest {op' : BurstOperation} (offset : ℕ) (ha : s.activeBurst = some op)
    (hd : op.SameData op') :
    Moves s e ({ s with activeBurst := some op' }.sendBurstReadRequest op' offset) := by
  obtain h | ⟨-, ha', hf⟩ :=
    sendBurstReadRequest_burst { s with activeBurst := some op' } op' offset rfl
  · rw [Moves, h.activeBurst, h.finished]
    exact .hold ha hd
  · rw [Moves, ha', hf]
    exact .fail ha hd

variable {p : MavftpPayload}

theorem moves_handleBurstNak (hp : s.burstPacket e = some (op, p)) (ha : s.activeBurst = some op)
    (hnak : p.opcode = MAV_FTP_OPCODE.NAK) : Moves s e (s.handleBurstNak op p) := by
  unfold handleBurstNak
  split
  · next heof =>
    split
    · next hge => exact .eof hp hnak heof hge
    · split
      · exact moves_rerequest _ ha ⟨rfl, rfl, rfl, rfl, rfl, rfl⟩
      · exact moves_failBurst s e _
  · exact moves_failBurst s e _

theorem moves_handleBurstData (hp : s.burstPacket e = some (op, p))
    (hdata : p.opcode ≠ MAV_FTP_OPCODE.NAK) : Moves s e (s.handleBurstData op p) := by
  unfold handleBurstData
  dsimp only
  generalize hop : (if ((op.place p).advance p).highWater > (op.place p).highWater ∨
    ((op.place p).advance p).received > (op.place p).received then
      ((op.place p).advance p).bump s.nowMs else (op.place p).advance p) = op'
  have hd : (op.accept p).SameData op' := by
    rw [← hop]
    split
    · exact BurstOperation.sameData_bump _ _
    · exact .refl _
  split
  · next hge => exact .complete hp hdata hd hge
  · next hlt =>
    have hlt : op'.received < op'.declaredSize := by omega
    split
    · obtain h | ⟨-, ha', hf⟩ :=
        sendBurstReadRequest_burst { s with activeBurst := some op' } op' op'.received rfl
      · rw [Moves, h.activeBurst, h.finished]
        exact .accept hp hdata hd hlt
      · rw [Moves, ha', hf]
        exact .failAfter hp hdata hd hlt
    · exact .accept hp hdata hd hlt

theorem moves_runBurst {reply : MavftpPayload} (timeoutMs : Option ℕ) (abortable : Bool)
    (hidle : s.activeBurst = none) (hreply : s.openReply e = some reply)
    (hpos : 0 < reply.declaredSize) :
    Moves s e (s.runBurst reply.session reply.declaredSize timeoutMs abortable) := by
  unfold runBurst
  dsimp only
  generalize hop : BurstOperation.mk s.bursts reply.session reply.declaredSize _ 0 0 0 _ _ _ = op
  have hstart : s.StartsWith e op := by
    subst hop
    exact ⟨hidle, ⟨reply, hreply, rfl, rfl⟩, hpos, rfl, rfl, rfl, rfl⟩
  obtain h | ⟨-, ha', hf⟩ := sendBurstReadRequest_burst
    { s with activeBurst := some op, bursts := s.bursts + 1 } op 0 rfl
  · rw [Moves, h.activeBurst, h.finished]
    exact .start hstart
  · rw [Moves, ha', hf]
    exact .startFailed hstart

theorem moves_deliver (s : MavftpService) (message : Bytes) (answers : ℕ) :
    Moves s (.deliver message answers) (s.handleFileTransferProtocol message answers) := by
  unfold handleFileTransferProtocol
  split
  · exact moves_of_sameBurst _ (.refl s)
  · next p hp =>
    obtain ⟨t, hs, hsame⟩ : ∃ t, s.adoptServerSequence p.seqNumber = t ∧ SameBurst s t :=
      ⟨_, rfl, sameBurst_adopt s p.seqNumber⟩
    -- the handlers run in the state that has adopted the sequence number
    have lift : ∀ u, Moves t (.deliver message answers) u → Moves s (.deliver message answers) u := by
      intro u hu
      have hpk : t.burstPacket (.deliver message answers) =
          s.burstPacket (.deliver message answers) := by
        simp only [burstPacket, hsame.activeBurst]
      unfold Moves at hu ⊢
      generalize u.activeBurst = a at hu
      generalize u.finished = f at hu
      cases hu with
      | keep =>
        rw [hsame.activeBurst, hsame.finished]
        exact .keep
      | start h => obtain ⟨reply, hr, -⟩ := h.reply; cases hr
      | startFailed h => obtain ⟨reply, hr, -⟩ := h.reply; cases hr
      | hold ha hd => rw [hsame.finished]; exact .hold (hsame.activeBurst ▸ ha) hd
      | accept hp hn hd hlt => rw [hsame.finished]; exact .accept (hpk ▸ hp) hn hd hlt
      | complete hp hn hd hge => rw [hsame.finished]; exact .complete (hpk ▸ hp) hn hd hge
      | eof hp hn he hge => rw [hsame.finished]; exact .eof (hpk ▸ hp) hn he hge
      | fail ha hd => rw [hsame.finished]; exact .fail (hsame.activeBurst ▸ ha) hd
      | failAfter hp hn hd hlt => rw [hsame.finished]; exact .failAfter (hpk ▸ hp) hn hd hlt
    refine lift _ ?_
    rw [handlePayload, hs]
    split
    · next hroute =>
      unfold handleBurstPacket
      split
      · exact moves_of_sameBurst _ (.refl t)
      · next op ha =>
        split
        · exact moves_of_sameBurst _ (.refl t)
        · next hsess =>
          have hburst : p.reqOpcode = MAV_FTP_OPCODE.BURST_READ_FILE := by
            simpa [routesToBurst, ha] using hroute
          have hpk : t.burstPacket (.deliver message answers) = some (op, p) := by
            simp only [burstPacket, ha, hp, Option.bind_eq_bind, Option.bind_some]
            exact if_pos ⟨hburst, not_not.mp hsess⟩
          split
          · next hnak => exact moves_handleBurstNak hpk ha hnak
          · next hdata => exact moves_handleBurstData hpk hdata
    · exact moves_of_sameBurst _ ⟨rfl, rfl⟩

theorem burst_move (h : s.step e = some s') :
    Moves s e s' := by
  cases step_cases h with
  | deliver message answers => exact moves_deliver s message answers
  | send request timeoutMs he => exact moves_of_sameBurst _ (sameBurst_send s request timeoutMs)
  | clear timeoutMs => exact moves_of_sameBurst _ (sameBurst_clear s timeoutMs)
  | start hidle hopen hpos => exact moves_runBurst _ _ hidle hopen hpos
  | timeout ha =>
    rw [onBurstTimeout, ha]
    dsimp only
    split
    · exact moves_rerequest _ ha ⟨rfl, rfl, rfl, rfl, rfl, rfl⟩
    · exact moves_failBurst s _ _
  | reject waiter error he => exact moves_of_sameBurst _ ⟨rfl, rfl⟩
  | fail error he => exact moves_failBurst s _ error
  | cancelAll text => exact moves_failBurst s _ (.other text)
  | setVehicle vehicle => exact moves_of_sameBurst _ ⟨rfl, rfl⟩
  | tick ms => exact moves_of_sameBurst _ ⟨rfl, rfl⟩

/-! ## What holds of every burst -/

theorem burstPacket_eq_some :
    s.burstPacket e = some (op, p) ↔
      ∃ message answers, e = .deliver message answers ∧ s.activeBurst = some op ∧
        decodeMavftpPayload message = some p ∧ p.reqOpcode = MAV_FTP_OPCODE.BURST_READ_FILE ∧
        p.session = op.session := by
  cases e with
  | deliver message answers =>
    simp only [burstPacket, Option.bind_eq_bind, Option.bind_eq_some_iff,
      Option.ite_none_right_eq_some, Option.some.injEq, Prod.mk.injEq, ServiceEvent.deliver.injEq]
    constructor
    · rintro ⟨_, ha, _, hp, hroute, rfl, rfl⟩
      exact ⟨message, answers, ⟨rfl, rfl⟩, ha, hp, hroute⟩
    · rintro ⟨_, _, ⟨rfl, rfl⟩, ha, hp, hroute⟩
      exact ⟨op, ha, p, hp, hroute, rfl, rfl⟩
  | _ => simp [burstPacket]

theorem burstPacket_active (h : s.burstPacket e = some (op, p)) : s.activeBurst = some op := by
  obtain ⟨_, _, -, ha, -⟩ := burstPacket_eq_some.mp h
  exact ha

theorem finished_of_eof (hp : s.burstPacket e = some (op, p)) (hnak : p.opcode = MAV_FTP_OPCODE.NAK)
    (heof : p.errorCode = MAV_FTP_ERR.EOF) (hge : op.highWater ≤ op.received)
    (h : s.step e = some s') :
    s'.finished = s.finished ++ [.resolved op op.result] := by
  obtain ⟨message, answers, rfl, ha, hdec, hburst, hsess⟩ := burstPacket_eq_some.mp hp
  have hsame := sameBurst_adopt s p.seqNumber
  have hroute : (s.adoptServerSequence p.seqNumber).routesToBurst p = true := by
    simp [routesToBurst, hsame.activeBurst, ha, hburst]
  cases h
  rw [handleFileTransferProtocol, hdec]
  dsimp only
  rw [handlePayload, if_pos hroute, handleBurstPacket, hsame.activeBurst, ha]
  dsimp only
  rw [if_neg (not_not.mpr hsess), if_pos hnak, handleBurstNak, if_pos heof, if_pos hge,
    finishBurst, hsame.finished]

/-- `P` holds of the active operation and of every one that has settled. -/
structure EveryBurst (P : BurstOperation → Prop) (s : MavftpService) : Prop where
  active : ∀ op, s.activeBurst = some op → P op
  finished : ∀ r ∈ s.finished, P r.op

theorem everyBurst_fresh (P : BurstOperation → Prop) (vehicle : Option VehicleIdentity)
    (requestTimeoutMs nowMs : ℕ) : EveryBurst P (fresh vehicle requestTimeoutMs nowMs) where
  active op h := by cases h
  finished r h := by cases h

theorem everyBurst_step {P : BurstOperation → Prop}
    (hsame : ∀ op op', P op → op.SameData op' → P op') (hstart : ∀ op, s.StartsWith e op → P op)
    (haccept : ∀ op p, s.burstPacket e = some (op, p) → p.opcode ≠ MAV_FTP_OPCODE.NAK → P op → P (op.accept p))
    (hi : EveryBurst P s) (h : s.step e = some s') : EveryBurst P s' := by
  have hm := burst_move h
  unfold Moves at hm
  obtain ⟨hactive, hfinished⟩ := hi
  have hlog : ∀ r : BurstResult, P r.op → ∀ q ∈ s.finished ++ [r], P q.op := by
    intro r hr q hq
    obtain hq | hq := List.mem_append.mp hq
    · exact hfinished q hq
    · rw [List.mem_singleton.mp hq]; exact hr
  have hdata : ∀ {op op' p}, s.burstPacket e = some (op, p) → p.opcode ≠ MAV_FTP_OPCODE.NAK →
      (op.accept p).SameData op' → P op' := fun hp hn hd =>
    hsame _ _ (haccept _ _ hp hn (hactive _ (burstPacket_active hp))) hd
  generalize ha' : s'.activeBurst = a at hm
  generalize hf' : s'.finished = f at hm
  cases hm with
  | keep => exact ⟨ha' ▸ hactive, hf' ▸ hfinished⟩
  | start hs =>
    refine ⟨fun op' h => ?_, hf' ▸ hfinished⟩
    cases ha'.symm.trans h
    exact hstart _ hs
  | startFailed hs =>
    exact ⟨fun op' h => (by cases ha'.symm.trans h), hf' ▸ hlog _ (hstart _ hs)⟩
  | hold ha hd =>
    refine ⟨fun op' h => ?_, hf' ▸ hfinished⟩
    cases ha'.symm.trans h
    exact hsame _ _ (hactive _ ha) hd
  | accept hp hn hd hlt =>
    refine ⟨fun op' h => ?_, hf' ▸ hfinished⟩
    cases ha'.symm.trans h
    exact hdata hp hn hd
  | complete hp hn hd hge =>
    exact ⟨fun op' h => (by cases ha'.symm.trans h), hf' ▸ hlog _ (hdata hp hn hd)⟩
  | eof hp hn he hge =>
    exact ⟨fun op' h => (by cases ha'.symm.trans h),
      hf' ▸ hlog _ (hactive _ (burstPacket_active hp))⟩
  | fail ha hd =>
    exact ⟨fun op' h => (by cases ha'.symm.trans h), hf' ▸ hlog _ (hsame _ _ (hactive _ ha) hd)⟩
  | failAfter hp hn hd hlt =>
    exact ⟨fun op' h => (by cases ha'.symm.trans h), hf' ▸ hlog _ (hdata hp hn hd)⟩

/-- The active burst is not complete, a resolved one hands over `result` and a rejected one
`salvage`. -/
structure Settles (s : MavftpService) : Prop where
  active : ∀ op, s.activeBurst = some op → op.received < op.declaredSize
  resolved : ∀ op bytes, .resolved op bytes ∈ s.finished → bytes = op.result
  rejected : ∀ op error salvaged, .rejected op error salvaged ∈ s.finished → salvaged = op.salvage

theorem settles_fresh (vehicle : Option VehicleIdentity) (requestTimeoutMs nowMs : ℕ) :
    Settles (fresh vehicle requestTimeoutMs nowMs) where
  active op h := by cases h
  resolved op bytes h := by cases h
  rejected op error salvaged h := by cases h

theorem settles_step (hi : Settles s) (h : s.step e = some s') : Settles s' := by
  have hm := burst_move h
  unfold Moves at hm
  generalize ha' : s'.activeBurst = a at hm
  generalize hf' : s'.finished = f at hm
  have hresolved : ∀ {op : BurstOperation}, s'.finished = s.finished ++ [.resolved op op.result] →
      s'.activeBurst = none → Settles s' := by
    intro op hf ha
    refine ⟨fun op' h => (by cases ha.symm.trans h), fun op' bytes h => ?_, fun op' er sv h => ?_⟩
    all_goals
      rw [hf, List.mem_append, List.mem_singleton] at h
      obtain h | h := h
    · exact hi.resolved _ _ h
    · cases h; rfl
    · exact hi.rejected _ _ _ h
    · cases h
  have hrejected : ∀ {op : BurstOperation} {error : MavftpError},
      s'.finished = s.finished ++ [.rejected op error op.salvage] →
      s'.activeBurst = none → Settles s' := by
    intro op error hf ha
    refine ⟨fun op' h => (by cases ha.symm.trans h), fun op' bytes h => ?_, fun op' er sv h => ?_⟩
    all_goals
      rw [hf, List.mem_append, List.mem_singleton] at h
      obtain h | h := h
    · exact hi.resolved _ _ h
    · cases h
    · exact hi.rejected _ _ _ h
    · cases h; rfl
  have hactive : ∀ {op : BurstOperation}, s'.finished = s.finished →
      s'.activeBurst = some op → op.received < op.declaredSize → Settles s' := by
    intro op hf ha hlt
    refine ⟨fun op' h => ?_, hf ▸ hi.resolved, hf ▸ hi.rejected⟩
    cases ha.symm.trans h
    exact hlt
  cases hm with
  | keep => exact ⟨ha' ▸ hi.active, hf' ▸ hi.resolved, hf' ▸ hi.rejected⟩
  | start hs => exact hactive hf' ha' (hs.received ▸ hs.positive)
  | startFailed hs => exact hrejected hf' ha'
  | hold ha hd =>
    refine hactive hf' ha' ?_
    rw [hd.received, hd.declaredSize]
    exact hi.active _ ha
  | accept hp hn hd hlt => exact hactive hf' ha' hlt
  | complete hp hn hd hge => exact hresolved hf' ha'
  | eof hp hn he hge => exact hresolved hf' ha'
  | fail ha hd => exact hrejected hf' ha'
  | failAfter hp hn hd hlt => exact hrejected hf' ha'

theorem finished_subset (h : s.step e = some s') :
    s.finished ⊆ s'.finished := by
  have hm := burst_move h
  unfold Moves at hm
  generalize s'.activeBurst = a at hm
  generalize s'.finished = f at hm
  cases hm
  all_goals first
    | exact List.Subset.refl _
    | exact List.subset_append_left _ _

end MavftpService
end ArduConfigurator.Mavftp
