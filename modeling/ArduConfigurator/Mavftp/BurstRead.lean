import ArduConfigurator.Mavftp.BurstBuffer

/-! # Burst reads: what they return and what they salvage

The two contracts of `handleBurstPacket`, `finishBurst` and `failBurst`: the bytes below the
contiguous frontier are a prefix of the file at every moment and in every rejection, and a burst
resolves with the whole file unless an end-of-file NAK reaches it with nothing missing below its
high-water mark. -/
namespace ArduConfigurator.Mavftp
namespace MavftpService
open Runs
set_option autoImplicit false

/-- Every data packet of an active burst carries bytes of its file at their true offset. -/
def GenuineData (files : ℕ → Bytes) (s : MavftpService) (e : ServiceEvent) : Prop :=
  ∀ hit ∈ s.burstPacket e, hit.2.opcode ≠ MAV_FTP_OPCODE.NAK →
    Genuine (files hit.1.id) hit.2.offset hit.2.data

instance (files : ℕ → Bytes) (s : MavftpService) (e : ServiceEvent) :
    Decidable (GenuineData files s e) :=
  inferInstanceAs (Decidable (∀ hit ∈ s.burstPacket e, hit.2.opcode ≠ MAV_FTP_OPCODE.NAK →
    ∀ k < hit.2.data.length, hit.2.data[k]? = (files hit.1.id)[hit.2.offset + k]?))

variable {files : ℕ → Bytes} {s : MavftpService} {e : ServiceEvent}

theorem GenuineData.clean (h : GenuineData files s e) : CleanData files s e :=
  fun hit hh hn => (h hit hh hn).take _

/-! ## A burst on the wire -/

/-- The events up to the first burst request: RESET_SESSIONS and its reply, the OPEN of `a` and its
reply declaring `size` bytes. -/
def openingEvents (size : UInt8) : List ServiceEvent :=
  [.clearStaleSessionsOnce none,
    .deliver (encodeMavftpPayload ⟨1, 0, MAV_FTP_OPCODE.ACK, 0, MAV_FTP_OPCODE.RESET_SESSIONS,
      0, 0, []⟩) 0,
    .request (openRequest [97]) none,
    .deliver (encodeMavftpPayload ⟨2, 0, MAV_FTP_OPCODE.ACK, 4, MAV_FTP_OPCODE.OPEN_FILE_RO,
      0, 0, [size, 0, 0, 0]⟩) 1,
    .opened 1 none none false]

/-- A data packet of the burst that `openingEvents` starts. -/
def burstReply (seqNumber offset : ℕ) (data : Bytes) : ServiceEvent :=
  .deliver (encodeMavftpPayload ⟨seqNumber, 0, MAV_FTP_OPCODE.ACK, data.length,
    MAV_FTP_OPCODE.BURST_READ_FILE, 0, offset, data⟩) 2

def burstEof (seqNumber : ℕ) : ServiceEvent :=
  .deliver (encodeMavftpPayload ⟨seqNumber, 0, MAV_FTP_OPCODE.NAK, 1,
    MAV_FTP_OPCODE.BURST_READ_FILE, 0, 0, [UInt8.ofNat MAV_FTP_ERR.EOF]⟩) 2

/-! ## Prefixes -/

/-- At every moment the cursors are in order and the buffer holds the file's prefix up to the
contiguous one; a rejection attaches exactly that prefix, and nothing when it is empty. -/
theorem burst_buffer_genuine {files : ℕ → Bytes} {vehicle : Option VehicleIdentity}
    {requestTimeoutMs nowMs : ℕ} {es : List ServiceEvent} {s : MavftpService}
    (h : run step (fresh vehicle requestTimeoutMs nowMs) es = some s)
    (hg : Along step (GenuineData files) (fresh vehicle requestTimeoutMs nowMs) es) :
    (∀ op, s.activeBurst = some op →
      op.received ≤ op.highWater ∧ op.highWater ≤ op.declaredSize ∧
        op.received ≤ (files op.id).length ∧
        op.buffer.take op.received = (files op.id).take op.received) ∧
    ∀ op error salvaged, .rejected op error salvaged ∈ s.finished →
      op.received ≤ op.highWater ∧ op.highWater ≤ op.declaredSize ∧
        op.received ≤ (files op.id).length ∧
        salvaged = if 0 < op.received then
          some ⟨(files op.id).take op.received, op.declaredSize⟩ else none := by
  have hi := assembled_run h (hg.mono fun _ _ => GenuineData.clean)
  refine ⟨fun op ha => ?_, fun op error salvaged hr => ?_⟩
  · have hs := hi.sound.active op ha
    exact ⟨hs.received_le, hs.highWater_le, hs.agrees.le_length, hs.agrees.take_eq⟩
  · have hs : op.Sound (files op.id) := hi.sound.finished _ hr
    refine ⟨hs.received_le, hs.highWater_le, hs.agrees.le_length, ?_⟩
    rw [hi.settles.rejected op error salvaged hr, BurstOperation.salvage, hs.agrees.take_eq]

set_option maxRecDepth 4000 in
/-- Two of three bytes have arrived when the link drops: the rejection carries both. -/
theorem burst_buffer_genuine_two_of_three :
    ∃ s, run step (fresh (some ⟨1, 1⟩) 3000 0)
        (openingEvents 3 ++ [burstReply 3 0 [7, 8], .cancelAll "link lost"]) = some s ∧
      s.finished.length = 1 ∧ ∀ op error salvaged, .rejected op error salvaged ∈ s.finished →
        salvaged = some ⟨[7, 8], 3⟩ := by
  refine ⟨_, rfl, rfl, fun op error salvaged hr => ?_⟩
  have h := (@burst_buffer_genuine (fun _ => [7, 8, 9]) (some ⟨1, 1⟩) 3000 0
    (openingEvents 3 ++ [burstReply 3 0 [7, 8], .cancelAll "link lost"]) _ rfl
    (by decide)).2 op error salvaged hr
  cases List.mem_singleton.mp hr
  exact h.2.2.2

set_option maxRecDepth 4000 in
/-- The link drops before the first packet: the rejection carries no prefix, not even an empty
one. -/
theorem burst_rejected_without_salvage :
    ¬ ∀ (files : ℕ → Bytes) es s, run step (fresh (some ⟨1, 1⟩) 3000 0) es = some s →
      Along step (GenuineData files) (fresh (some ⟨1, 1⟩) 3000 0) es →
      ∀ op error salvaged, .rejected op error salvaged ∈ s.finished →
        ∃ n, salvaged = some ⟨(files op.id).take n, op.declaredSize⟩ := by
  intro hall
  obtain ⟨n, hn⟩ := hall (fun _ => [7]) (openingEvents 1 ++ [.cancelAll "link lost"]) _ rfl
    (by decide) _ _ _ (List.mem_singleton.mpr rfl)
  cases hn

/-! ## Completeness -/

/-- The size an OPEN declares is the length of the file the burst reads. -/
def DeclaresLength (files : ℕ → Bytes) (s : MavftpService) (e : ServiceEvent) : Prop :=
  ∀ reply ∈ s.openReply e, reply.declaredSize = (files s.bursts).length

instance (files : ℕ → Bytes) (s : MavftpService) (e : ServiceEvent) :
    Decidable (DeclaresLength files s e) :=
  inferInstanceAs (Decidable (∀ reply ∈ s.openReply e,
    reply.declaredSize = (files s.bursts).length))

/-- An end-of-file NAK reaches the active burst only while a hole is open below its high-water
mark. -/
def EofBelowHighWater (s : MavftpService) (e : ServiceEvent) : Prop :=
  ∀ hit ∈ s.burstPacket e, hit.2.opcode = MAV_FTP_OPCODE.NAK →
    hit.2.errorCode = MAV_FTP_ERR.EOF → hit.1.received < hit.1.highWater

instance (s : MavftpService) (e : ServiceEvent) : Decidable (EofBelowHighWater s e) :=
  inferInstanceAs (Decidable (∀ hit ∈ s.burstPacket e, hit.2.opcode = MAV_FTP_OPCODE.NAK →
    hit.2.errorCode = MAV_FTP_ERR.EOF → hit.1.received < hit.1.highWater))

def WholeFiles (files : ℕ → Bytes) (s : MavftpService) : Prop :=
  ∀ op bytes, .resolved op bytes ∈ s.finished → bytes = files op.id

/-- Every burst has the size of its file, and everything `Assembled` says. -/
structure Measured (files : ℕ → Bytes) (s : MavftpService) : Prop where
  assembled : Assembled files s
  size : EveryBurst (fun op => op.declaredSize = (files op.id).length) s

variable {s' : MavftpService}

theorem measured_step (hi : Measured files s)
    (hc : GenuineData files s e ∧ DeclaresLength files s e) (h : s.step e = some s') :
    Measured files s' := by
  refine ⟨assembled_step hi.assembled hc.1.clean h, everyBurst_step ?_ ?_ ?_ hi.size h⟩
  · intro op op' hs hd
    rw [hd.declaredSize, hd.id, hs]
  · intro op hs
    obtain ⟨reply, hr, -, hsize⟩ := hs.reply
    rw [hsize, hs.id]
    exact hc.2 reply hr
  · intro op p _ _ hs
    rw [op.accept_declaredSize, op.accept_id, hs]

theorem WholeFiles.back (h : s.step e = some s') (hw : WholeFiles files s') : WholeFiles files s :=
  fun op bytes hr => hw op bytes (finished_subset h hr)

theorem eofBelowHighWater_of_whole (hi : Measured files s) (h : s.step e = some s')
    (hw : WholeFiles files s') :
    EofBelowHighWater s e := by
  rintro ⟨op, p⟩ hp hnak heof
  by_contra hge
  rw [Nat.not_lt] at hge
  have ha := burstPacket_active hp
  have hs := hi.assembled.sound.active op ha
  have hlt := hi.assembled.settles.active op ha
  have hsize := hi.size.active op ha
  have hres : .resolved op op.result ∈ s'.finished := by
    rw [finished_of_eof hp hnak heof hge h]
    exact List.mem_append_right _ (List.mem_singleton.mpr rfl)
  have hwhole := congrArg List.length (hw op op.result hres)
  rw [hs.result_prefix, List.length_take] at hwhole
  omega

theorem whole_step (hi : Measured files s) (hc : GenuineData files s e ∧ DeclaresLength files s e)
    (heof : EofBelowHighWater s e) (hw : WholeFiles files s) (h : s.step e = some s') :
    WholeFiles files s' := by
  intro op bytes hr
  have hi' := measured_step hi hc h
  by_cases hold : .resolved op bytes ∈ s.finished
  · exact hw op bytes hold
  · have hm := burst_move h
    unfold Moves at hm
    generalize s'.activeBurst = a at hm
    generalize hf : s'.finished = f at hm hr
    have hs : op.Sound (files op.id) :=
      hi'.assembled.sound.finished (.resolved op bytes) (hf ▸ hr)
    have hsize : op.declaredSize = (files op.id).length :=
      hi'.size.finished (.resolved op bytes) (hf ▸ hr)
    cases hm with
    | keep | start | hold | accept => exact absurd hr hold
    | startFailed | fail | failAfter =>
      rw [List.mem_append, List.mem_singleton] at hr
      obtain hr | hr := hr
      · exact absurd hr hold
      · cases hr
    | complete hp hn hd hge =>
      rw [List.mem_append, List.mem_singleton] at hr
      obtain hr | hr := hr
      · exact absurd hr hold
      · cases hr
        exact hs.result_eq hsize hge
    | eof hp hn he hge => exact absurd (heof _ hp hn he) (Nat.not_lt.mpr hge)

/-- With genuine data and true sizes, the bursts that resolved all returned their whole file exactly
when no end-of-file NAK reached an active burst with nothing missing below its high-water mark. A
download that declares no bytes is read sequentially, and returns the empty file. -/
theorem burst_whole_iff {files : ℕ → Bytes} {vehicle : Option VehicleIdentity}
    {requestTimeoutMs nowMs : ℕ} {es : List ServiceEvent} {s : MavftpService}
    (h : run step (fresh vehicle requestTimeoutMs nowMs) es = some s)
    (hg : Along step (GenuineData files) (fresh vehicle requestTimeoutMs nowMs) es)
    (hd : Along step (DeclaresLength files) (fresh vehicle requestTimeoutMs nowMs) es) :
    (WholeFiles files s ↔
      Along step EofBelowHighWater (fresh vehicle requestTimeoutMs nowMs) es) ∧
    ∀ reply replies bytes, reply.declaredSize = 0 →
      (∀ p, .ok p ∈ replies → Genuine [] p.offset p.data) →
      (SequentialRead.opened reply none).loop replies = some (.ok bytes) → bytes = [] := by
  have hfresh : Measured files (fresh vehicle requestTimeoutMs nowMs) :=
    ⟨assembled_fresh _ _ _ _, everyBurst_fresh _ _ _ _⟩
  refine ⟨⟨fun hw => ?_, fun heof => ?_⟩, fun reply replies bytes _ hgen hl =>
    SequentialRead.loop_of_empty hgen hl⟩
  · exact (along_of_final (fun _ _ _ hi hc hs => measured_step hi hc hs)
      (fun _ _ _ _ hs => WholeFiles.back hs) (fun _ _ _ hi _ hs => eofBelowHighWater_of_whole hi hs)
      hfresh (hg.and hd) h hw).1
  · exact (run_invariant_along (I := fun s => Measured files s ∧ WholeFiles files s)
      (fun _ _ _ hi hc hs => ⟨measured_step hi.1 hc.1 hs, whole_step hi.1 hc.1 hc.2 hi.2 hs⟩)
      ⟨hfresh, fun op bytes hr => by cases hr⟩ ((hg.and hd).and heof) h).2

set_option maxRecDepth 4000 in
/-- A file of two bytes in two packets that overtake each other, then the end-of-file NAK. -/
theorem burst_whole_two_packets :
    ∃ s, run step (fresh (some ⟨1, 1⟩) 3000 0)
        (openingEvents 2 ++ [burstReply 4 1 [8], burstReply 3 0 [7], burstEof 5]) = some s ∧
      WholeFiles (fun _ => [7, 8]) s := by
  refine ⟨_, rfl, ?_⟩
  exact (@burst_whole_iff (fun _ => [7, 8]) (some ⟨1, 1⟩) 3000 0
    (openingEvents 2 ++ [burstReply 4 1 [8], burstReply 3 0 [7], burstEof 5]) _ rfl
    (by decide) (by decide)).1.mpr (by decide)

set_option maxRecDepth 4000 in
/-- The only data packet of a two-byte file is lost and the end-of-file NAK arrives: the burst
resolves with no bytes at all. -/
theorem lost_tail_truncates_burst :
    ¬ ∀ (files : ℕ → Bytes) es s, run step (fresh (some ⟨1, 1⟩) 3000 0) es = some s →
      Along step (GenuineData files) (fresh (some ⟨1, 1⟩) 3000 0) es →
      Along step (DeclaresLength files) (fresh (some ⟨1, 1⟩) 3000 0) es → WholeFiles files s := by
  intro hall
  have h := hall (fun _ => [7, 8]) (openingEvents 2 ++ [burstEof 4]) _ rfl (by decide) (by decide)
    _ _ (List.mem_singleton.mpr rfl)
  revert h
  decide

end MavftpService
end ArduConfigurator.Mavftp
