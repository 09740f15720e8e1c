import ArduConfigurator.LogDownload.Service

/-! # What a download returns

Every packet a download takes in lands in its buffer, and the frontier passes over received bytes only.
So a download that resolves has the log and nothing else, as far as the packets carry its bytes and
are short only where it ends. -/
namespace ArduConfigurator.LogDownload
open Mavftp (VehicleIdentity)
open Mavlink (LogDataMessage)
open Runs
set_option autoImplicit false

structure Honest (log : Bytes) (message : LogDataMessage) : Prop where
  valid : message.count.toNat ≤ message.data.length
  genuine : Genuine log message.ofs.toNat (message.data.take message.count.toNat)

def ShortAtEnd (log : Bytes) (message : LogDataMessage) : Prop :=
  message.count.toNat < LOG_DATA_CHUNK → log.length ≤ message.ofs.toNat + message.count.toNat

/-- One of the packets brought the byte at `i`. -/
def Received (heard : List LogDataMessage) (i : ℕ) : Prop :=
  ∃ message ∈ heard, message.ofs.toNat ≤ i ∧ i < message.ofs.toNat + message.count.toNat

theorem Received.mono {heard : List LogDataMessage} {i : ℕ} (h : Received heard i)
    (message : LogDataMessage) : Received (heard ++ [message]) i :=
  let ⟨m, hm, hi⟩ := h
  ⟨m, List.mem_append_left _ hm, hi⟩

namespace DataOperation

/-! ## One packet -/

theorem writable_le_count (op : DataOperation) (message : LogDataMessage) :
    op.writable message ≤ message.count.toNat := by
  rw [writable]
  split <;> omega

theorem writable_fits (op : DataOperation) (message : LogDataMessage)
    (h : message.ofs.toNat < op.total) : message.ofs.toNat + op.writable message ≤ op.total := by
  rw [writable, if_pos h]
  omega

theorem length_chunk_le (op : DataOperation) (message : LogDataMessage) :
    (op.chunk message).length ≤ op.writable message := by
  rw [chunk, List.length_take]
  omega

variable {op : DataOperation} {message : LogDataMessage}

theorem chunk_eq_nil (h : op.total ≤ message.ofs.toNat) : op.chunk message = [] := by
  rw [chunk, writable, if_neg (by omega), List.take_zero]

variable {log : Bytes}

theorem length_chunk (h : Honest log message) (op : DataOperation) :
    (op.chunk message).length = op.writable message := by
  have := op.writable_le_count message
  have := h.valid
  rw [chunk, List.length_take]
  omega

theorem genuine_chunk (h : Honest log message) (op : DataOperation) :
    Genuine log message.ofs.toNat (op.chunk message) := by
  have htake : op.chunk message =
      (message.data.take message.count.toNat).take (op.writable message) := by
    rw [chunk, List.take_take, Nat.min_eq_left (op.writable_le_count message)]
  rw [htake]
  exact h.genuine.take _

/-! ## The buffer -/

/-- The buffer has the size of the log as it was reported, and the frontier lies in it. -/
structure Bounded (op : DataOperation) : Prop where
  length : op.buffer.length = op.total
  received_le : op.received ≤ op.total

/-- As long as the packets are honest: below the frontier the buffer has the log, whose bytes there
were received, and behind the log it has zeros. -/
structure Sound (log : Bytes) (op : DataOperation) : Prop where
  agrees : AgreesBelow log op.buffer op.received
  zeros : ∀ i, log.length ≤ i → i < op.total → op.buffer[i]? = some 0
  received : ∀ i < op.received, Received op.heard i

theorem bounded_start (id total : ℕ) : (start id total).Bounded :=
  ⟨List.length_replicate, Nat.zero_le _⟩

theorem sound_start (log : Bytes) (id total : ℕ) : (start id total).Sound log where
  agrees := agreesBelow_zero log _
  zeros := fun i _ hi => by
    rw [start, List.getElem?_replicate, if_pos (show i < total from hi)]
  received := fun i hi => absurd hi (Nat.not_lt_zero i)

theorem chunk_fits (h : op.Bounded) (hofs : message.ofs.toNat < op.total) :
    message.ofs.toNat + (op.chunk message).length ≤ op.buffer.length := by
  have := op.writable_fits message hofs
  have := op.length_chunk_le message
  rw [h.length]
  omega

theorem bounded_place (h : op.Bounded) (message : LogDataMessage) :
    (op.place message).Bounded := by
  have hlength : (splice op.buffer message.ofs.toNat (op.chunk message)).length = op.total := by
    by_cases hofs : message.ofs.toNat < op.total
    · rw [splice_length (chunk_fits h hofs), h.length]
    · rw [chunk_eq_nil (by omega), splice_nil, h.length]
  refine ⟨hlength, ?_⟩
  have hle := h.received_le
  simp only [place, contiguous, Bool.and_eq_true, decide_eq_true_eq]
  split
  · next hc =>
    have := op.writable_fits message hc.2
    omega
  · exact hle

theorem sound_place (h : op.Sound log) (hb : op.Bounded) (hm : Honest log message) :
    (op.place message).Sound log := by
  have hgenuine := genuine_chunk hm op
  have hlen := length_chunk hm op
  by_cases hofs : message.ofs.toNat < op.total
  · have hfit := chunk_fits hb hofs
    refine ⟨?_, fun i hlo hhi => ?_, fun i hi => ?_⟩
    · simp only [place]
      split
      · next hc =>
        simp only [contiguous, Bool.and_eq_true, decide_eq_true_eq] at hc
        have hext := h.agrees.extend hgenuine hfit hc.1
        rwa [hlen] at hext
      · exact h.agrees.write hgenuine hfit
    · simp only [place]
      rw [getElem?_splice hfit]
      split
      · next hin =>
        have hget := hgenuine (i - message.ofs.toNat) (by omega)
        rw [List.getElem?_eq_getElem (by omega), List.getElem?_eq_none (by omega)] at hget
        cases hget
      · exact h.zeros i hlo hhi
    · simp only [place] at hi ⊢
      by_cases hold : i < op.received
      · exact (h.received i hold).mono message
      · split at hi
        · next hc =>
          simp only [contiguous, Bool.and_eq_true, decide_eq_true_eq] at hc
          have := op.writable_le_count message
          exact ⟨message, by simp, by omega, by omega⟩
        · exact absurd hi hold
  · have hnot : op.contiguous message = false := by
      simp only [contiguous, Bool.and_eq_false_iff, decide_eq_false_iff_not]
      exact .inr hofs
    have hplace : op.place message = { op with heard := op.heard ++ [message] } := by
      rw [place, chunk_eq_nil (by omega), splice_nil, hnot]
      rfl
    rw [hplace]
    exact ⟨h.agrees, h.zeros, fun i hi => (h.received i hi).mono message⟩

theorem length_le_of_completes (hlog : log.length ≤ op.total) (hshort : ShortAtEnd log message)
    (h : op.completes (op.place message) message = true) :
    log.length ≤ (op.place message).received := by
  simp only [completes, Bool.or_eq_true, Bool.and_eq_true, decide_eq_true_eq] at h
  obtain h | ⟨hcount, hc⟩ := h
  · exact hlog.trans h
  · have hend := hshort hcount
    simp only [place, hc, if_true]
    simp only [contiguous, Bool.and_eq_true, decide_eq_true_eq] at hc
    simp only [writable, if_pos hc.2]
    omega

theorem Sound.buffer_eq (h : op.Sound log) (hb : op.Bounded) (hlog : log.length ≤ op.total)
    (hend : log.length ≤ op.received) :
    op.buffer = log ++ List.replicate (op.total - log.length) 0 := by
  apply List.ext_getElem?
  intro i
  by_cases hi : i < log.length
  · rw [h.agrees.2 i (by omega), List.getElem?_append_left hi]
  · rw [List.getElem?_append_right (by omega), List.getElem?_replicate]
    split
    · next hin => exact h.zeros i (by omega) (by omega)
    · next hout => exact List.getElem?_eq_none (by rw [hb.length]; omega)

/-! ## A download under way, and one that resolved -/

/-- Every packet taken in so far carries bytes of the log and is short only where it ends. -/
def Served (op : DataOperation) (log : Bytes) : Prop :=
  ∀ message ∈ op.heard, Honest log message ∧ ShortAtEnd log message

structure UnderWay (op : DataOperation) : Prop where
  bounded : op.Bounded
  sound : ∀ log : Bytes, op.Served log → op.Sound log

structure Complete (op : DataOperation) : Prop extends op.UnderWay where
  end_le : ∀ log : Bytes, log.length ≤ op.total → op.Served log → log.length ≤ op.received

theorem underWay_start (id total : ℕ) : (start id total).UnderWay :=
  ⟨bounded_start id total, fun log _ => sound_start log id total⟩

theorem complete_start (id : ℕ) : (start id 0).Complete :=
  ⟨underWay_start id 0, fun _ h _ => h⟩

theorem UnderWay.retry (h : op.UnderWay) (retries : ℕ) :
    UnderWay { op with retries := retries } :=
  ⟨⟨h.bounded.length, h.bounded.received_le⟩, fun log hs =>
    let hsound := h.sound log hs
    ⟨hsound.agrees, hsound.zeros, hsound.received⟩⟩

theorem Served.of_place (h : (op.place message).Served log) :
    op.Served log ∧ Honest log message ∧ ShortAtEnd log message :=
  ⟨fun m hm => h m (List.mem_append_left _ hm), h message (List.mem_append_right _ (by simp))⟩

theorem UnderWay.place (h : op.UnderWay) (message : LogDataMessage) :
    (op.place message).UnderWay :=
  ⟨bounded_place h.bounded message, fun log hs =>
    sound_place (h.sound log hs.of_place.1) h.bounded hs.of_place.2.1⟩

theorem UnderWay.complete (h : op.UnderWay) (hc : op.completes (op.place message) message = true) :
    (op.place message).Complete :=
  ⟨h.place message, fun _ hlog hs => length_le_of_completes hlog hs.of_place.2.2 hc⟩

end DataOperation

/-! ## The service -/

namespace LogDownloadService

/-- No write went outside a buffer, and every download is as it should be. -/
structure Inv (s : LogDownloadService) : Prop where
  inside : s.rangeErrors = 0
  active : ∀ op, s.active = some (.data op) → op.UnderWay
  downloaded : ∀ op, .downloaded op ∈ s.outcomes → op.Complete

theorem inv_initial (vehicle : Option VehicleIdentity) (requestTimeoutMs : ℕ) :
    Inv (initial vehicle requestTimeoutMs) :=
  ⟨rfl, nofun, nofun⟩

variable {s : LogDownloadService} {outcome : LogOutcome}

theorem Inv.settle (h : Inv s) (ho : ∀ op, outcome = .downloaded op → op.Complete) :
    Inv (s.settle outcome) := by
  refine ⟨h.inside, h.active, fun op hop => ?_⟩
  obtain hop | hop := List.mem_append.mp hop
  · exact h.downloaded op hop
  · exact ho op (List.mem_singleton.mp hop).symm

theorem Inv.sendRequestEnd (h : Inv s) : Inv s.sendRequestEnd := by
  rw [LogDownloadService.sendRequestEnd]
  split
  · exact h
  · exact ⟨h.inside, h.active, h.downloaded⟩

variable {op : DataOperation}

theorem Inv.setActive (h : Inv s) (hop : op.UnderWay) :
    Inv { s with active := some (.data op) } :=
  ⟨h.inside, fun _ heq => ActiveOperation.data.inj (Option.some.inj heq) ▸ hop, h.downloaded⟩

theorem Inv.close (h : Inv s) (ho : ∀ op, outcome = .downloaded op → op.Complete) :
    Inv (s.clearActive.sendRequestEnd.settle outcome) :=
  (Inv.sendRequestEnd (s := s.clearActive) ⟨h.inside, nofun, h.downloaded⟩).settle ho

theorem Inv.failActive (h : Inv s) (error : String) : Inv (s.failActive error) := by
  rw [LogDownloadService.failActive]
  split
  · exact h
  · exact h.close nofun

theorem Inv.finishData (h : Inv s) (hop : op.Complete) :
    Inv (s.finishData op) := h.close fun _ heq => LogOutcome.downloaded.inj heq ▸ hop

theorem Inv.requestData (h : Inv s) (op : DataOperation) (offset : ℕ) :
    Inv (s.requestData op offset) := by
  rw [LogDownloadService.requestData]
  split
  · exact h.failActive _
  · exact ⟨h.inside, h.active, h.downloaded⟩

theorem Inv.listLogs (h : Inv s) : Inv s.listLogs := by
  rw [LogDownloadService.listLogs]
  split
  · exact h.settle nofun
  · exact ⟨h.inside, nofun, h.downloaded⟩

theorem Inv.downloadLog (h : Inv s) (id : ℕ) (sizeBytes : ℤ) : Inv (s.downloadLog id sizeBytes) := by
  rw [LogDownloadService.downloadLog]
  split
  · exact h.settle nofun
  split
  · exact h.settle nofun
  have hactive := h.setActive (DataOperation.underWay_start id sizeBytes.toNat)
  simp only
  split
  · next hzero =>
    subst hzero
    exact hactive.finishData (DataOperation.complete_start id)
  · exact hactive.requestData _ 0

theorem Inv.handleLogEntry (h : Inv s) (message : Mavlink.LogEntryMessage) :
    Inv (s.handleLogEntry message) := by
  have hlist : ∀ op : ListOperation, Inv { s with active := some (.list op) } := fun op =>
    ⟨h.inside, nofun, h.downloaded⟩
  rw [LogDownloadService.handleLogEntry]
  split
  · split
    · exact h.close nofun
    simp only
    split
    · exact (hlist _).close nofun
    · exact hlist _
  · exact h

theorem Inv.handleLogData (h : Inv s) (message : LogDataMessage) : Inv (s.handleLogData message) := by
  rw [LogDownloadService.handleLogData]
  split
  · next op hactive =>
    have hop := h.active op hactive
    split
    · exact h
    split
    · next houtside =>
      have := DataOperation.chunk_fits hop.bounded houtside.2
      omega
    simp only
    split
    · next hc => exact (h.setActive (hop.place message)).finishData (hop.complete hc)
    · exact h.setActive (hop.place message)
  · exact h

theorem Inv.onTimeout (h : Inv s) : Inv s.onTimeout := by
  rw [LogDownloadService.onTimeout]
  split
  · exact h
  · exact h.failActive _
  · next op hactive =>
    split
    · have hretry := h.setActive ((h.active op hactive).retry (op.retries + 1))
      simp only
      split
      · exact hretry.sendRequestEnd.requestData _ _
      · exact hretry.requestData _ _
    · exact h.failActive _

theorem inv_step {t : LogDownloadService} {e : Event} (h : Inv s) (hstep : step s e = some t) :
    Inv t := by
  cases e with
  | setVehicle vehicle =>
    cases hstep
    exact ⟨h.inside, h.active, h.downloaded⟩
  | listLogs =>
    cases hstep
    exact h.listLogs
  | downloadLog id sizeBytes =>
    cases hstep
    exact h.downloadLog id sizeBytes
  | logEntry message =>
    cases hstep
    exact h.handleLogEntry message
  | logData message =>
    cases hstep
    exact h.handleLogData message
  | timeout =>
    rw [step] at hstep
    split at hstep
    · cases hstep
      exact h.onTimeout
    · cases hstep
  | sendSettled failure =>
    have hsends : Inv { s with sends := s.sends - 1 } := ⟨h.inside, h.active, h.downloaded⟩
    rw [step] at hstep
    split at hstep
    · cases hstep
    cases failure with
    | none =>
      cases hstep
      exact hsends
    | some error =>
      cases hstep
      exact hsends.failActive error
  | cancelAll error =>
    cases hstep
    exact h.failActive error

/-- In every run of the service no packet is written outside a buffer, and a download that resolves,
of a log that is not longer than it was reported and whose packets carry its bytes and are short only
where it ends, returns the log followed by zeros, with every byte of it received. -/
theorem download_integrity {vehicle : Option VehicleIdentity} {requestTimeoutMs : ℕ} {es : List Event}
    {t : LogDownloadService} (h : run step (initial vehicle requestTimeoutMs) es = some t) :
    t.rangeErrors = 0 ∧ ∀ op, .downloaded op ∈ t.outcomes → ∀ log : Bytes, log.length ≤ op.total →
      (∀ message ∈ op.heard, Honest log message ∧ ShortAtEnd log message) →
        op.buffer = log ++ List.replicate (op.total - log.length) 0 ∧
          ∀ i < log.length, Received op.heard i := by
  have hinv := run_invariant (fun _ _ _ hs hstep => inv_step hs hstep)
    (inv_initial vehicle requestTimeoutMs) h
  refine ⟨hinv.inside, fun op hop log hlog hserved => ?_⟩
  have hcomplete := hinv.downloaded op hop
  have hsound := hcomplete.sound log hserved
  have hend := hcomplete.end_le log hlog hserved
  exact ⟨hsound.buffer_eq hcomplete.bounded hlog hend, fun i hi => hsound.received i (by omega)⟩
/-! ## Two downloads of a log of 100 bytes -/

def sampleLog : Bytes := (List.range 100).map fun i => UInt8.ofNat (i + 1)

/-- The packet with `count` bytes of the log at `ofs`, filled up to a chunk. -/
def packet (ofs count : ℕ) : LogDataMessage where
  id := 7
  ofs := UInt32.ofNat ofs
  count := UInt8.ofNat count
  data := slice sampleLog ofs count ++ List.replicate (LOG_DATA_CHUNK - count) 0

theorem honest_packet {ofs count : ℕ} (hcount : count ≤ LOG_DATA_CHUNK) (hend : ofs + count ≤ 100) :
    Honest sampleLog (packet ofs count) := by
  have hofs : (packet ofs count).ofs.toNat = ofs := by
    simp only [packet, UInt32.toNat_ofNat']
    omega
  have hc : (packet ofs count).count.toNat = count := by
    have : LOG_DATA_CHUNK = 90 := rfl
    simp only [packet, UInt8.toNat_ofNat']
    omega
  have hlen : (slice sampleLog ofs count).length = count := slice_length (by simpa [sampleLog])
  refine ⟨?_, ?_⟩
  · rw [hc, packet, List.length_append, hlen]
    omega
  · rw [hofs, hc, packet, List.take_left' hlen]
    exact genuine_slice _ _ _

/-- The download of the log, reported with `sizeBytes`, and the packets that arrive. -/
def downloading (sizeBytes : ℤ) (packets : List LogDataMessage) : List Event :=
  .downloadLog 7 sizeBytes :: packets.map .logData

def resolvesWith (sizeBytes : ℤ) (packets : List LogDataMessage) : Bool :=
  (run step (initial (some ⟨1, 1⟩) 0) (downloading sizeBytes packets)).any fun t =>
    t.outcomes.any fun
      | .downloaded op => decide (op.total = sizeBytes.toNat ∧ op.heard = packets)
      | _ => false

theorem exists_of_resolvesWith (sizeBytes : ℤ) (packets : List LogDataMessage)
    (h : resolvesWith sizeBytes packets = true) :
    ∃ t op, run step (initial (some ⟨1, 1⟩) 0) (downloading sizeBytes packets) = some t ∧
      .downloaded op ∈ t.outcomes ∧ op.total = sizeBytes.toNat ∧ op.heard = packets := by
  obtain ⟨t, hrun, h⟩ := (Option.any_eq_true _ _).mp h
  obtain ⟨outcome, hmem, h⟩ := List.any_eq_true.mp h
  cases outcome with
  | downloaded op =>
    have h := of_decide_eq_true h
    exact ⟨t, op, hrun, hmem, h.1, h.2⟩
  | listed | rejected => cases h

/-- Reported with 120 bytes, and with its last packet twice, the log is followed by zeros. -/
theorem download_integrity_reordered : ∃ t op,
    run step (initial (some ⟨1, 1⟩) 0) (downloading 120 [packet 90 10, packet 0 90, packet 90 10]) =
      some t ∧ .downloaded op ∈ t.outcomes ∧ op.buffer = sampleLog ++ List.replicate 20 0 := by
  obtain ⟨t, op, hrun, hmem, htotal, hheard⟩ :=
    exists_of_resolvesWith 120 [packet 90 10, packet 0 90, packet 90 10] (by decide +kernel)
  have hlast : Honest sampleLog (packet 90 10) ∧ ShortAtEnd sampleLog (packet 90 10) :=
    ⟨honest_packet (by decide) (by decide), fun _ => by decide⟩
  have hfirst : Honest sampleLog (packet 0 90) ∧ ShortAtEnd sampleLog (packet 0 90) :=
    ⟨honest_packet (by decide) (by decide), fun h => absurd h (by decide)⟩
  have hbuffer := ((download_integrity hrun).2 op hmem sampleLog (by rw [htotal]; decide) (by
    rw [hheard]
    simp only [List.forall_mem_cons]
    exact ⟨hlast, hfirst, hlast, nofun⟩)).1
  rw [htotal] at hbuffer
  exact ⟨t, op, hrun, hmem, hbuffer⟩

/-- A packet of 50 bytes at the start is taken for the end of the log. -/
theorem short_packet_completes : ¬ ∀ vehicle requestTimeoutMs es t,
    run step (initial vehicle requestTimeoutMs) es = some t →
      ∀ op, .downloaded op ∈ t.outcomes → ∀ log : Bytes, log.length ≤ op.total →
        (∀ message ∈ op.heard, Honest log message) →
          op.buffer = log ++ List.replicate (op.total - log.length) 0 ∧
            ∀ i < log.length, Received op.heard i := by
  intro h
  obtain ⟨t, op, hrun, hmem, htotal, hheard⟩ :=
    exists_of_resolvesWith 100 [packet 0 50] (by decide +kernel)
  obtain ⟨message, hin, hlo, hhi⟩ := (h _ 0 _ t hrun op hmem sampleLog (by rw [htotal]; decide) (by
    rw [hheard]
    simp only [List.forall_mem_cons]
    exact ⟨honest_packet (by decide) (by decide), nofun⟩)).2 60 (by decide)
  rw [hheard, List.mem_singleton] at hin
  subst hin
  exact absurd hhi (by decide)

end LogDownloadService
end ArduConfigurator.LogDownload
