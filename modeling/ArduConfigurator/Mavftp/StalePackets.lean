import ArduConfigurator.Mavftp.BurstRead

/-! # Packets of an earlier burst

The session guard of `handleBurstPacket` can only tell two bursts apart when their sessions differ,
and every OPEN asks for session 0. A late packet of an earlier burst is kept out of a later one by
its offset, or not at all. -/
namespace ArduConfigurator.Mavftp
namespace MavftpService
open Runs
set_option autoImplicit false

def origin (s : MavftpService) (e : ServiceEvent) : Option ℕ := do
  let packet ← e.packet
  let request ← s.sent[packet.2]?
  request.burst

/-- Every packet echoes the session and the opcode of the request it answers, and the data it sends
for a burst is the file of that burst. -/
def HonestServer (files : ℕ → Bytes) (s : MavftpService) (e : ServiceEvent) : Prop :=
  ∀ packet ∈ e.packet, ∃ request ∈ s.sent[packet.2]?,
    packet.1.session = request.payload.session ∧ packet.1.reqOpcode = request.payload.opcode ∧
      (packet.1.opcode ≠ MAV_FTP_OPCODE.NAK → ∀ burst ∈ request.burst,
        ∀ k < packet.1.data.length, packet.1.data[k]? = (files burst)[packet.1.offset + k]?)

instance (files : ℕ → Bytes) (s : MavftpService) (e : ServiceEvent) :
    Decidable (HonestServer files s e) :=
  inferInstanceAs (Decidable (∀ packet ∈ e.packet, ∃ request ∈ s.sent[packet.2]?, _ ∧ _ ∧ _))

/-- A packet of another burst that the session guard lets through is an error reply, lies past the
declared end, or carries up to that end the very bytes the active burst's file has there. -/
def StaleHarmless (files : ℕ → Bytes) (s : MavftpService) (e : ServiceEvent) : Prop :=
  ∀ hit ∈ s.burstPacket e, s.origin e ≠ some hit.1.id →
    hit.2.opcode = MAV_FTP_OPCODE.NAK ∨ hit.1.declaredSize ≤ hit.2.offset ∨
      ∀ k < hit.1.writable hit.2, hit.2.data[k]? = (files hit.1.id)[hit.2.offset + k]?

instance (files : ℕ → Bytes) (s : MavftpService) (e : ServiceEvent) :
    Decidable (StaleHarmless files s e) :=
  inferInstanceAs (Decidable (∀ hit ∈ s.burstPacket e, _ → _ ∨ _ ∨ _))

/-- Every burst that resolved has resolved with bytes of its own file only. -/
def OwnBytes (files : ℕ → Bytes) (s : MavftpService) : Prop :=
  ∀ op bytes, .resolved op bytes ∈ s.finished → bytes = (files op.id).take bytes.length

theorem cleanData_of_harmless {files : ℕ → Bytes} {s : MavftpService} {e : ServiceEvent}
    (hh : HonestServer files s e) (hs : StaleHarmless files s e) : CleanData files s e := by
  rintro ⟨op, p⟩ hp hn
  obtain ⟨message, answers, rfl, -, hdec, -⟩ := burstPacket_eq_some.mp hp
  have hpacket : ServiceEvent.packet (.deliver message answers) = some (p, answers) := by
    rw [ServiceEvent.packet, hdec, Option.map_some]
  by_cases ho : s.origin (.deliver message answers) = some op.id
  · obtain ⟨request, hreq, -, -, hdata⟩ := hh _ hpacket
    have hburst : request.burst = some op.id := by
      have hreq : s.sent[answers]? = some request := hreq
      simpa only [origin, hpacket, Option.bind_eq_bind, Option.bind_some, hreq] using ho
    exact Genuine.take (hdata hn _ hburst) _
  · obtain hnak | hpast | hsame := hs _ hp ho
    · exact absurd hnak hn
    · have hpast : op.declaredSize ≤ p.offset := hpast
      have hzero : op.writable p = 0 := if_neg fun h => by omega
      dsimp only
      rw [hzero, List.take_zero]
      exact genuine_nil _ _
    · intro k hk
      dsimp only at hk
      rw [op.take_writable_length] at hk
      rw [List.getElem?_take_of_lt hk]
      exact hsame k hk

/-- With a server that echoes sessions, a burst returns bytes of its own file only, in every run in
which the stale packets that reach it are harmless. -/
theorem burst_own_bytes {files : ℕ → Bytes} {vehicle : Option VehicleIdentity}
    {requestTimeoutMs nowMs : ℕ} {es : List ServiceEvent} {s : MavftpService}
    (h : run step (fresh vehicle requestTimeoutMs nowMs) es = some s)
    (hh : Along step (HonestServer files) (fresh vehicle requestTimeoutMs nowMs) es)
    (hs : Along step (StaleHarmless files) (fresh vehicle requestTimeoutMs nowMs) es) :
    OwnBytes files s := by
  have hi := assembled_run h ((hh.and hs).mono fun _ _ hc => cleanData_of_harmless hc.1 hc.2)
  intro op bytes hr
  have hsound : op.Sound (files op.id) := hi.sound.finished _ hr
  have hbytes : bytes = (files op.id).take op.received := by
    rw [hi.settles.resolved op bytes hr, hsound.result_prefix]
  have hlen : bytes.length = op.received := by
    rw [hbytes, List.length_take]
    exact Nat.min_eq_left hsound.agrees.le_length
  rw [hlen]
  exact hbytes

/-- After a burst of one byte: the session is closed, the next file opened with one byte as well,
and its burst requested. -/
def reopeningEvents : List ServiceEvent :=
  [.request (terminateRequest 0) none,
    .deliver (encodeMavftpPayload ⟨4, 0, MAV_FTP_OPCODE.ACK, 0, MAV_FTP_OPCODE.TERMINATE_SESSION,
      0, 0, []⟩) 3,
    .request (openRequest [98]) none,
    .deliver (encodeMavftpPayload ⟨5, 0, MAV_FTP_OPCODE.ACK, 4, MAV_FTP_OPCODE.OPEN_FILE_RO,
      0, 0, [1, 0, 0, 0]⟩) 4,
    .opened 4 none none false]

def secondBurstReply (data : Bytes) : ServiceEvent :=
  .deliver (encodeMavftpPayload ⟨6, 0, MAV_FTP_OPCODE.ACK, data.length,
    MAV_FTP_OPCODE.BURST_READ_FILE, 0, 0, data⟩) 5

set_option maxRecDepth 8000 in
/-- Two files of one byte each; the end-of-file NAK of the first burst arrives late and does no
harm. -/
theorem burst_own_bytes_late_eof :
    ∃ s, run step (fresh (some ⟨1, 1⟩) 3000 0) (openingEvents 1 ++ [burstReply 3 0 [7]] ++
        reopeningEvents ++ [secondBurstReply [8], burstEof 4]) = some s ∧
      OwnBytes (fun burst => if burst = 0 then [7] else [8]) s :=
  ⟨_, rfl, @burst_own_bytes (fun burst => if burst = 0 then [7] else [8]) (some ⟨1, 1⟩) 3000 0
    (openingEvents 1 ++ [burstReply 3 0 [7]] ++ reopeningEvents ++
      [secondBurstReply [8], burstEof 4]) _ rfl (by decide) (by decide)⟩

set_option maxRecDepth 8000 in
/-- A second copy of the first burst's packet arrives while the second burst is active, and the
second burst resolves with the byte of the first file. -/
theorem stale_packet_corrupts_burst :
    ¬ ∀ (files : ℕ → Bytes) es s, run step (fresh (some ⟨1, 1⟩) 3000 0) es = some s →
      Along step (HonestServer files) (fresh (some ⟨1, 1⟩) 3000 0) es → OwnBytes files s := by
  intro hall
  have h := hall (fun burst => if burst = 0 then [7] else [8]) (openingEvents 1 ++
    [burstReply 3 0 [7]] ++ reopeningEvents ++ [burstReply 4 0 [7]]) _ rfl (by decide)
    _ _ (List.mem_cons_of_mem _ (List.mem_singleton.mpr rfl))
  revert h
  decide

end MavftpService
end ArduConfigurator.Mavftp
