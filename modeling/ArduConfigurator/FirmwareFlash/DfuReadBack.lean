import ArduConfigurator.FirmwareFlash.DfuFlash
import ArduConfigurator.FirmwareFlash.IntelHexSegments
import Mathlib.Data.List.GetD

/-! # Rules for the steps of a flash, and what the log says was read back

What the transfers without an effect of their own keep, the polling and the recoveries between the
commands keep as well. An address has been read back with a byte when a read returned the byte for
it and nothing was sent since that touches it. -/
namespace ArduConfigurator.FirmwareFlash
open Effects
set_option autoImplicit false

variable {δ : Type} {dev : DfuSeDevice δ} {A : Session δ → Prop}

/-- The transfers without an effect of their own keep the assertion, resolved or rejected. -/
structure Keeps (dev : DfuSeDevice δ) (A : Session δ → Prop) : Prop where
  out : ∀ request value data, request ≠ DFU_DNLOAD →
    Triple A (controlOut dev request value data) (fun _ => A) A
  status : Triple A (controlIn dev DFU_GETSTATUS 0 6) (fun _ => A) A
  sleep : ∀ ms, Triple A (sleep dev ms) (fun _ => A) A

theorem triple_now : Triple A (now dev) (fun _ => A) A := fun _ hs => hs

theorem Keeps.clearStatus (h : Keeps dev A) : Triple A (clearStatus dev) (fun _ => A) A :=
  h.out _ _ _ (by decide)

theorem Keeps.abort (h : Keeps dev A) : Triple A (abort dev) (fun _ => A) A :=
  h.out _ _ _ (by decide)

theorem Keeps.getStatus (h : Keeps dev A) : Triple A (getStatus dev) (fun _ => A) A := by
  refine h.status.bind fun bytes => ?_
  split_ifs
  · exact triple_throw fun _ => id
  · exact triple_ret fun _ => id

theorem Keeps.getStatusTolerant (h : Keeps dev A) :
    Triple A (getStatusTolerant dev) (fun _ => A) A :=
  triple_retry h.getStatus (h.sleep _) _

theorem Keeps.clearErrorState (h : Keeps dev A) : Triple A (clearErrorState dev) (fun _ => A) A := by
  refine h.getStatus.bind fun parked => ?_
  have hstatus : Triple A (if parked.state = STATE_DFU_ERROR then do
      FirmwareFlash.clearStatus dev
      FirmwareFlash.getStatus dev
    else pure parked) (fun _ => A) A := by
    split_ifs
    · exact h.clearStatus.bind fun _ => h.getStatus
    · exact triple_ret fun _ => id
  refine hstatus.bind fun status => ?_
  split_ifs
  · exact h.abort
  · exact triple_ret fun _ => id

theorem Keeps.recover (h : Keeps dev A) : Triple A (recover dev) (fun _ => A) A := by
  refine h.getStatusTolerant.bind fun status => ?_
  split_ifs
  · exact h.clearStatus
  · exact h.abort
  · exact triple_ret fun _ => id

/-! ## Polling -/

/-- What holds after a status response: `A` while the board is busy, `B` of the first response that
says otherwise. -/
def Answered (A : Session δ → Prop) (B : DfuStatus → Session δ → Prop) (status : DfuStatus)
    (s : Session δ) : Prop :=
  if isBusy status.state then A s else B status s

/-- What the polling needs: `A` holds while the board is busy, `B` of the first response that says
otherwise, and `X` wherever it stops. -/
structure Polls (dev : DfuSeDevice δ) (kind : PollKind) (A : Session δ → Prop)
    (B : DfuStatus → Session δ → Prop) (X : Session δ → Prop) : Prop where
  sleep : ∀ ms, Triple A (sleep dev ms) (fun _ => A) A
  status : Triple A (getStatus dev) (Answered A B) A
  clear : kind = .erase → Triple A (clearStatus dev) (fun _ => A) A
  again : kind = .erase → ∀ status s, B status s → A s
  stop : ∀ s, A s → X s
  stopped : ∀ status s, B status s → X s

/-- The status that ends the polling: it is no error, or it is idle after an erase that hung. -/
def Ends (kind : PollKind) (status : DfuStatus) : Prop :=
  status.isOk = true ∨ (kind = .erase ∧ status.state = STATE_DFU_IDLE)

section
variable {kind : PollKind} {B : DfuStatus → Session δ → Prop} {X : Session δ → Prop}

theorem Polls.getStatusTolerant (h : Polls dev kind A B X) :
    Triple A (getStatusTolerant dev) (Answered A B) A :=
  triple_retry h.status (h.sleep _) _

theorem Polls.unwedged (h : Polls dev kind A B X) (hkind : kind = .erase) (attempts : ℕ) :
    Triple A (unwedged dev attempts) (fun status s => Ends kind status ∧ B status s) X := by
  induction attempts with
  | zero => exact triple_throw h.stop
  | succ attempts ih =>
    refine ((h.clear hkind).conseq (fun _ => id) (fun _ _ => id) h.stop).bind fun _ => ?_
    refine (h.getStatusTolerant.conseq (fun _ => id) (fun _ _ => id) h.stop).bind fun status => ?_
    split_ifs with hidle
    · refine triple_ret fun s hs => ⟨.inr ⟨hkind, hidle⟩, ?_⟩
      rwa [Answered, hidle, if_neg (by decide)] at hs
    · refine ih.pre fun s hs => ?_
      rw [Answered] at hs
      split_ifs at hs
      · exact hs
      · exact h.again hkind status s hs

theorem Polls.settled (h : Polls dev kind A B X) (status : DfuStatus) :
    Triple (B status) (settled status) (fun status s => Ends kind status ∧ B status s) X := by
  rw [FirmwareFlash.settled]
  split_ifs with hok
  · exact triple_ret fun s hs => ⟨.inl hok, hs⟩
  · exact triple_throw (h.stopped status)

theorem Polls.pollLoop (h : Polls dev kind A B X) (started turns waitedMs : ℕ)
    (status : DfuStatus) :
    Triple (Answered A B status) (pollLoop dev kind started turns waitedMs status)
      (fun status s => Ends kind status ∧ B status s) X := by
  induction turns generalizing waitedMs status with
  | zero =>
    rw [FirmwareFlash.pollLoop]
    by_cases hbusy : isBusy status.state = true
    · rw [if_pos hbusy]
      exact triple_running fun s hs => h.stop s (by rwa [Answered, if_pos hbusy] at hs)
    · rw [if_neg hbusy]
      exact (h.settled status).pre fun s hs => by rwa [Answered, if_neg hbusy] at hs
  | succ turns ih =>
    rw [FirmwareFlash.pollLoop]
    by_cases hbusy : isBusy status.state = true
    · rw [if_pos hbusy]
      have hnow : Triple (Answered A B status) (now dev) (fun _ => A) X := fun s hs => by
        rwa [Answered, if_pos hbusy] at hs
      refine hnow.bind fun time => ?_
      simp only
      split_ifs with hwedged
      · exact h.unwedged hwedged.1 2
      · refine ((h.sleep _).conseq (fun _ => id) (fun _ _ => id) h.stop).bind fun _ => ?_
        exact (h.getStatusTolerant.conseq (fun _ => id) (fun _ _ => id) h.stop).bind fun next =>
          ih _ next
    · rw [if_neg hbusy]
      exact (h.settled status).pre fun s hs => by rwa [Answered, if_neg hbusy] at hs

theorem Polls.pollUntilIdle (h : Polls dev kind A B X) :
    Triple A (pollUntilIdle dev kind) (fun status s => Ends kind status ∧ B status s) X := by
  refine (h.getStatusTolerant.conseq (fun _ => id) (fun _ _ => id) h.stop).bind fun status => ?_
  have hnow : Triple (Answered A B status) (now dev) (fun _ => Answered A B status) X :=
    fun s hs => hs
  exact hnow.bind fun started => h.pollLoop started _ 0 status

end

theorem Keeps.pollUntilIdle (h : Keeps dev A) (kind : PollKind) :
    Triple A (pollUntilIdle dev kind) (fun _ => A) A := by
  have hpolls : Polls dev kind A (fun _ => A) A :=
    { sleep := h.sleep
      status := h.getStatus.post fun status s hs => by rwa [Answered, ite_self]
      clear := fun _ => h.clearStatus
      again := fun _ _ _ => id
      stop := fun _ => id
      stopped := fun _ _ => id }
  exact hpolls.pollUntilIdle.post fun _ _ hs => hs.2

/-! ## What the commands put in the log -/

variable {L M : List BusEvent → Prop}

theorem keeps_log (L : List BusEvent → Prop) : Keeps dev fun s => L s.log where
  out request value data hrequest := by
    intro s hs
    rw [controlOut]
    cases dev.usb.controlOut request value data s.device with
    | mk result device => cases result <;> simpa [outcomeOf, hrequest] using hs
  status := by
    intro s hs
    rw [controlIn]
    cases dev.usb.controlIn DFU_GETSTATUS 0 6 s.device with
    | mk result device => cases result <;> simpa [outcomeOf, Session.received] using hs
  sleep ms := fun s hs => hs

theorem wordOf_encode (command address : ℕ) :
    wordOf (encodeCommand command address).tail = address % 2 ^ 32 := by
  simp only [encodeCommand, List.tail_cons, wordOf]
  omega

theorem triple_download {block : ℕ} {data : List ℕ} {command : Command}
    (hcommand : decodeDownload block data = command) {P : Position → List BusEvent → Prop}
    (hlog : ∀ position log, P position log →
      M (log ++ (command.event dev.transferSize position.known).toList)) :
    Triple (fun s => P s.position s.log) (download dev block data)
      (fun _ s => M s.log ∧ s.position = command.position true) (fun s => M s.log) := by
  intro s hs
  have hsent := hlog s.position s.log hs
  rw [download, controlOut]
  cases dev.usb.controlOut DFU_DNLOAD block data s.device with
  | mk result device =>
    cases result with
    | error stall => simpa [outcomeOf, hcommand, Session.sent] using hsent
    | ok value => simpa [outcomeOf, hcommand, Session.sent, Except.toBool] using hsent

theorem triple_setAddress (L : List BusEvent → Prop) (address : ℕ) :
    Triple (fun s => L s.log) (setAddress dev address)
      (fun _ s => L s.log ∧ s.position = .taken (address % 2 ^ 32)) (fun s => L s.log) := by
  have hcommand : decodeDownload 0 (encodeCommand DFUSE_SET_ADDRESS address) =
      .setAddress (address % 2 ^ 32) := by
    rw [← wordOf_encode DFUSE_SET_ADDRESS address]
    rfl
  refine (triple_download (P := fun _ => L) (M := L) hcommand
    fun position log h => by simpa [Command.event] using h).bind fun _ => ?_
  have hpolls : Polls dev .command
      (fun s => L s.log ∧ s.position = .asked (address % 2 ^ 32))
      (fun status s => L s.log ∧ (status.isOk → s.position = .taken (address % 2 ^ 32)))
      (fun s => L s.log) := by
    refine ⟨fun ms s hs => hs, ?_, by simp, by simp, fun s hs => hs.1, fun _ s hs => hs.1⟩
    have hin : Triple (fun s => L s.log ∧ s.position = .asked (address % 2 ^ 32))
        (controlIn dev DFU_GETSTATUS 0 6)
        (fun bytes s => L s.log ∧
          s.position = (Position.asked (address % 2 ^ 32)).afterStatus bytes)
        (fun s => L s.log ∧ s.position = .asked (address % 2 ^ 32)) := by
      intro s hs
      rw [controlIn]
      cases dev.usb.controlIn DFU_GETSTATUS 0 6 s.device with
      | mk result device =>
        cases result with
        | error stall => exact hs
        | ok bytes => exact ⟨hs.1, by rw [← hs.2]; rfl⟩
    refine hin.bind fun bytes => ?_
    by_cases hshort : bytes.length < 6
    · rw [if_pos hshort]
      refine triple_throw fun s hs => ⟨hs.1, ?_⟩
      rw [hs.2, Position.afterStatus, if_pos (.inl hshort)]
    · rw [if_neg hshort]
      refine triple_ret fun s hs => ?_
      rw [Answered]
      by_cases hbusy : isBusy (statusOf bytes).state = true
      · rw [if_pos hbusy]
        exact ⟨hs.1, by rw [hs.2, Position.afterStatus, if_pos (.inr hbusy)]⟩
      · rw [if_neg hbusy]
        refine ⟨hs.1, fun hok => ?_⟩
        rw [hs.2, Position.afterStatus, if_neg (not_or.mpr ⟨hshort, hbusy⟩), if_pos hok]
  refine hpolls.pollUntilIdle.bind fun status => triple_ret fun s hs => ⟨hs.2.1, hs.2.2 ?_⟩
  rcases hs.1 with hok | ⟨hkind, -⟩
  · exact hok
  · cases hkind

/-! ## Events -/

/-- The event may change the byte at an address: an erase all of the sector it falls in. -/
def BusEvent.touches (memory : List DfuMemorySector) : BusEvent → ℕ → Prop
  | .erase address, x => ∃ sector ∈ memory, sector.contains address ∧ sector.contains x
  | .massErase, _ => True
  | .program none _, _ => True
  | .program (some address) data, x => address ≤ x ∧ x < address + data.length
  | .read _ _, _ => False

def ReadBack (memory : List DfuMemorySector) (log : List BusEvent) (x v : ℕ) : Prop :=
  ∃ before address bytes after, log = before ++ BusEvent.read address bytes :: after ∧
    (IntelHexSegment.mk address bytes).byteAt x = some v ∧
      ∀ e ∈ after, ¬ e.touches memory x

variable {memory : List DfuMemorySector} {log : List BusEvent} {x v : ℕ}

theorem ReadBack.append {more : List BusEvent} (h : ReadBack memory log x v)
    (hmore : ∀ e ∈ more, ¬ e.touches memory x) : ReadBack memory (log ++ more) x v := by
  obtain ⟨before, address, bytes, after, rfl, hbyte, hafter⟩ := h
  refine ⟨before, address, bytes, after ++ more, by simp, hbyte, ?_⟩
  intro e he
  rcases List.mem_append.mp he with he | he
  · exact hafter e he
  · exact hmore e he

variable {e : BusEvent}

theorem ReadBack.snoc (h : ReadBack memory log x v) (he : ¬ e.touches memory x) :
    ReadBack memory (log ++ [e]) x v :=
  h.append fun e' he' => by rwa [List.mem_singleton.mp he']

variable {address : ℕ} {bytes : List ℕ}

theorem readBack_read (h : (IntelHexSegment.mk address bytes).byteAt x = some v) :
    ReadBack memory (log ++ [.read address bytes]) x v :=
  ⟨log, address, bytes, [], rfl, h, by simp⟩

variable {α : Type}

theorem append_cons_eq_snoc {before after log : List α} {a b : α}
    (h : before ++ a :: after = log ++ [b]) :
    (before = log ∧ a = b) ∨ ∃ rest, log = before ++ a :: rest := by
  rcases List.eq_nil_or_concat after with rfl | ⟨rest, last, rfl⟩
  · obtain ⟨hlog, hb⟩ := List.append_inj' h rfl
    exact .inl ⟨hlog, List.singleton_inj.mp hb⟩
  · refine .inr ⟨rest, ?_⟩
    rw [List.concat_eq_append, ← List.cons_append, ← List.append_assoc] at h
    exact (List.append_inj' h rfl).1.symm

theorem ReadBack.of_snoc (h : ReadBack memory (log ++ [e]) x v) :
    (∃ address bytes, e = .read address bytes ∧
      (IntelHexSegment.mk address bytes).byteAt x = some v) ∨
        (ReadBack memory log x v ∧ ¬ e.touches memory x) := by
  obtain ⟨before, address, bytes, after, hlog, hbyte, hafter⟩ := h
  rcases append_cons_eq_snoc hlog.symm with ⟨-, he⟩ | ⟨rest, hlog'⟩
  · exact .inl ⟨address, bytes, he.symm, hbyte⟩
  · have hrest : after = rest ++ [e] := by
      rw [hlog', List.append_assoc, List.append_cancel_left_eq, List.cons_append] at hlog
      exact (List.cons.inj hlog).2.symm
    rw [hrest] at hafter
    exact .inr ⟨⟨before, address, bytes, rest, hlog', hbyte,
      fun e' he' => hafter e' (List.mem_append_left _ he')⟩,
      hafter e (List.mem_append_right _ (List.mem_singleton.mpr rfl))⟩

def ReadStable (L : List BusEvent → Prop) : Prop :=
  ∀ log address bytes, L log → L (log ++ [.read address bytes])

theorem readStable_readBack (memory : List DfuMemorySector) {ι : Type} {p : ι → Prop} {x v : ι → ℕ} :
    ReadStable fun log => ∀ i, p i → ReadBack memory log (x i) (v i) :=
  fun _ _ _ h i hi => (h i hi).snoc id

theorem ReadStable.and {L M : List BusEvent → Prop} (hL : ReadStable L) (hM : ReadStable M) :
    ReadStable fun log => L log ∧ M log :=
  fun log address bytes h => ⟨hL log address bytes h.1, hM log address bytes h.2⟩

/-! ## Commands -/

theorem triple_abort_at (L : List BusEvent → Prop) (p : ℕ) :
    Triple (fun s => L s.log ∧ s.position = .taken p) (abort dev)
      (fun _ s => L s.log ∧ s.position = .taken p) (fun s => L s.log) := by
  intro s hs
  rw [abort, controlOut]
  cases dev.usb.controlOut DFU_ABORT 0 [] s.device with
  | mk result device =>
    cases result with
    | error stall => exact hs.1
    | ok value => exact ⟨hs.1, by simp [DFU_ABORT, DFU_DNLOAD, hs.2, Position.afterOther]⟩

theorem triple_eraseSector (h : ∀ log, L log → L (log ++ [.erase (address % 2 ^ 32)])) :
    Triple (fun s => L s.log) (eraseSector dev address) (fun _ s => L s.log) (fun s => L s.log) := by
  have hcommand : decodeDownload 0 (encodeCommand DFUSE_ERASE address) =
      .erase (address % 2 ^ 32) := by
    rw [← wordOf_encode DFUSE_ERASE address]
    rfl
  refine triple_retry ?_ (keeps_log L).recover _
  refine (triple_download (P := fun _ => L) (M := L) hcommand fun _ log => h log).bind fun _ => ?_
  refine (((keeps_log L).pollUntilIdle .erase).pre fun s hs => hs.1).bind fun _ => ?_
  exact triple_ret fun _ => id

theorem triple_massErase (h : ∀ log, L log → L (log ++ [.massErase])) :
    Triple (fun s => L s.log) (massErase dev) (fun _ s => L s.log) (fun s => L s.log) := by
  have hcommand : decodeDownload 0 [DFUSE_ERASE] = .massErase := rfl
  refine (triple_download (P := fun _ => L) (M := L) hcommand fun _ log => h log).bind fun _ => ?_
  refine (((keeps_log L).pollUntilIdle .massErase).pre fun s hs => hs.1).bind fun _ => ?_
  exact triple_ret fun _ => id

variable {chunk : DfuChunk}

theorem triple_writeChunk
    (h : ∀ log, L log → L (log ++ [.program (some (chunk.address % 2 ^ 32)) chunk.data]) ∧ M (log ++ [.program (some (chunk.address % 2 ^ 32)) chunk.data])) :
    Triple (fun s => L s.log) (writeChunk dev chunk) (fun _ s => M s.log) (fun s => L s.log) := by
  refine triple_retry ?_ (keeps_log L).recover _
  refine (triple_setAddress L chunk.address).bind fun _ => ?_
  have hevent : ∀ position log,
      L log ∧ position = Position.taken (chunk.address % 2 ^ 32) → (fun log => L log ∧ M log)
        (log ++ ((Command.program 2 chunk.data).event dev.transferSize position.known).toList) := by
    rintro position log ⟨hL, rfl⟩
    simpa [Command.event, Position.known, blockAddress] using h log hL
  have hcommand : decodeDownload 2 chunk.data = .program 2 chunk.data := rfl
  have hdownload : Triple
      (fun s : Session δ => L s.log ∧ s.position = Position.taken (chunk.address % 2 ^ 32))
      (download dev 2 chunk.data) (fun _ s => L s.log ∧ M s.log) (fun s => L s.log) :=
    (triple_download (M := fun log => L log ∧ M log) hcommand hevent).conseq (fun _ => id)
      (fun _ _ hs => hs.1) fun _ hs => hs.1
  have hpoll : Triple (fun s : Session δ => L s.log ∧ M s.log) (pollUntilIdle dev .block)
      (fun _ s => L s.log ∧ M s.log) (fun s => L s.log) :=
    ((keeps_log fun log => L log ∧ M log).pollUntilIdle .block).conseq (fun _ => id)
      (fun _ _ => id) fun _ hs => hs.1
  refine hdownload.bind fun _ => hpoll.bind fun _ => ?_
  exact triple_ret fun _ hs => hs.2

/-! ## Reads -/

variable {p block length : ℕ}

theorem triple_upload {Q : List ℕ → List BusEvent → Prop}
    (h : ∀ log bytes, L log → Q bytes (log ++ [.read (blockAddress dev.transferSize p block) (bytes.take length)])) :
    Triple (fun s => L s.log ∧ s.position = .taken p) (controlIn dev DFU_UPLOAD block length)
      (fun bytes s => Q bytes s.log ∧ s.position = .taken p) (fun s => L s.log) := by
  intro s hs
  rw [controlIn]
  cases dev.usb.controlIn DFU_UPLOAD block length s.device with
  | mk result device =>
    cases result with
    | error stall => exact hs.1
    | ok bytes =>
      have hread := h s.log bytes hs.1
      simpa [outcomeOf, Session.received, DFU_UPLOAD, DFU_GETSTATUS, hs.2, Position.known,
        Position.afterOther] using hread

theorem byteAt_getD {i : ℕ} (h : i < bytes.length) :
    (IntelHexSegment.mk address bytes).byteAt (address + i) = some (bytes.getD i 0) := by
  rw [IntelHexSegment.byteAt_eq_some, Nat.add_sub_cancel_left]
  exact ⟨Nat.le_add_right _ _, by rw [List.getD_eq_getElem?_getD, List.getElem?_eq_getElem h]; rfl⟩

theorem triple_readBlocks (memory : List DfuMemorySector) {turns offset : ℕ}
    (hblock : offset = (block - 2) * dev.transferSize) (htwo : 2 ≤ block) (hL : ReadStable L) :
    Triple (fun s => L s.log ∧ s.position = .taken p)
      (readBlocks dev address length turns block offset)
      (fun bytes s => L s.log ∧ bytes.length = length - offset ∧
        ∀ i, i < bytes.length → ReadBack memory s.log (p + offset + i) (bytes.getD i 0))
      (fun s => L s.log) := by
  induction turns generalizing block offset L with
  | zero =>
    rw [readBlocks]
    split_ifs with hmore
    · exact triple_running fun s hs => hs.1
    · exact triple_ret fun s hs => ⟨hs.1, by simp; omega, by simp⟩
  | succ turns ih =>
    rw [readBlocks]
    split_ifs with hmore
    swap
    · exact triple_ret fun s hs => ⟨hs.1, by simp; omega, by simp⟩
    simp only
    set size := min dev.transferSize (length - offset) with hsize
    have hupload : Triple (fun s => L s.log ∧ s.position = .taken p)
        (controlIn dev DFU_UPLOAD block size)
        (fun bytes s => (L s.log ∧ ∀ i, i < (bytes.take size).length →
          ReadBack memory s.log (p + offset + i) ((bytes.take size).getD i 0)) ∧
            s.position = .taken p) (fun s => L s.log) :=
      triple_upload (Q := fun bytes log => L log ∧ ∀ i, i < (bytes.take size).length →
          ReadBack memory log (p + offset + i) ((bytes.take size).getD i 0))
        fun log bytes hlog => by
          refine ⟨hL _ _ _ hlog, fun i hi => readBack_read ?_⟩
          rw [blockAddress, ← hblock]
          exact byteAt_getD hi
    refine hupload.bind fun got => ?_
    split_ifs with hshort
    · exact triple_throw fun s hs => hs.1.1
    have hnext : offset + dev.transferSize = (block + 1 - 2) * dev.transferSize := by
      rw [hblock, show block + 1 - 2 = block - 2 + 1 by omega, Nat.add_mul, Nat.one_mul]
    have hrest := ih hnext (by omega) (hL.and (readStable_readBack memory
      (p := fun i => i < (got.take size).length) (x := fun i => p + offset + i)
      (v := fun i => (got.take size).getD i 0)))
    refine (hrest.conseq (fun s hs => hs) (fun _ _ hs => hs) fun s hs => hs.1).bind fun rest => ?_
    refine triple_ret fun s hs => ?_
    obtain ⟨⟨hlog, hfirst⟩, hlen, hback⟩ := hs
    have htake : (got.take size).length = size := by
      rw [List.length_take]
      omega
    refine ⟨hlog, by rw [List.length_append, htake, hlen]; omega, fun i hi => ?_⟩
    rw [List.length_append, htake] at hi
    by_cases hlt : i < size
    · rw [List.getD_append _ _ _ _ (by rwa [htake])]
      exact hfirst i (by rwa [htake])
    · rw [List.getD_append_right _ _ _ _ (by rw [htake]; omega), htake]
      have := hback (i - size) (by omega)
      rwa [show p + (offset + dev.transferSize) + (i - size) = p + offset + i by omega] at this

theorem triple_readRange (memory : List DfuMemorySector) (address length : ℕ) (hL : ReadStable L) :
    Triple (fun s => L s.log) (readRange dev address length)
      (fun bytes s => L s.log ∧ bytes.length = length ∧
        ∀ i, i < length → ReadBack memory s.log (address % 2 ^ 32 + i) (bytes.getD i 0))
      (fun s => L s.log) := by
  refine (keeps_log L).abort.bind fun _ => (triple_setAddress L address).bind fun _ => ?_
  refine (triple_abort_at L _).bind fun _ => ?_
  refine (triple_readBlocks memory (by simp) (le_refl 2) hL).bind fun bytes => ?_
  refine (((keeps_log fun log => L log ∧ bytes.length = length - 0 ∧ ∀ i, i < bytes.length →
    ReadBack memory log (address % 2 ^ 32 + 0 + i) (bytes.getD i 0)).abort).conseq
      (fun _ => id) (fun _ _ => id) fun _ hs => hs.1).bind fun _ => ?_
  refine triple_ret fun s hs => ⟨hs.1, hs.2.1, fun i hi => ?_⟩
  exact hs.2.2 i (by omega)

def DfuChunk.segment (chunk : DfuChunk) : IntelHexSegment := ⟨chunk.address, chunk.data⟩

def ChunkRead (memory : List DfuMemorySector) (log : List BusEvent) (chunk : DfuChunk) : Prop :=
  ∀ x v, chunk.segment.byteAt x = some v → ReadBack memory log x v

theorem readStable_chunkRead (memory : List DfuMemorySector) (chunks : List DfuChunk) :
    ReadStable fun log => ∀ c ∈ chunks, ChunkRead memory log c :=
  fun _ _ _ h c hc x v hv => (h c hc x v hv).snoc id

theorem bytesEqual_iff {got expected : List ℕ} :
    bytesEqual got expected = true ↔ got.take expected.length = expected := by
  simp only [bytesEqual, decide_eq_true_eq, and_iff_right_iff_imp]
  intro h
  have := congrArg List.length h
  rw [List.length_take] at this
  omega

theorem triple_uploadChunk (memory : List DfuMemorySector)
    (haddress : chunk.address = blockAddress dev.transferSize p block) (hL : ReadStable L) :
    Triple (fun s => L s.log ∧ s.position = .taken p)
      (controlIn dev DFU_UPLOAD block chunk.data.length)
      (fun bytes s => (L s.log ∧
        (bytesEqual bytes chunk.data = true → ChunkRead memory s.log chunk)) ∧
          s.position = .taken p)
      (fun s => L s.log) :=
  triple_upload (Q := fun bytes log => L log ∧
    (bytesEqual bytes chunk.data = true → ChunkRead memory log chunk)) fun log bytes hlog => by
      refine ⟨hL _ _ _ hlog, fun hequal x v hv => readBack_read ?_⟩
      rwa [← haddress, bytesEqual_iff.mp hequal]

variable {chunks : List DfuChunk}

theorem triple_verifyBlocks (memory : List DfuMemorySector)
    (haddress : chunk.address = blockAddress dev.transferSize p block) (htwo : 2 ≤ block)
    (hL : ReadStable L) :
    Triple (fun s => L s.log ∧ s.position = .taken p)
      (verifyBlocks dev block (chunk :: chunks))
      (fun rest s => ∃ run, chunk :: chunks = chunk :: run ++ rest ∧ L s.log ∧
        ∀ c ∈ chunk :: run, ChunkRead memory s.log c)
      (fun s => L s.log) := by
  induction chunks generalizing block chunk L with
  | nil =>
    rw [verifyBlocks]
    refine (triple_uploadChunk memory haddress hL).bind fun got => ?_
    split_ifs with hequal
    · exact triple_throw fun s hs => hs.1.1
    · have hequal' : bytesEqual got chunk.data = true := by simpa using hequal
      refine triple_ret fun s hs => ⟨[], rfl, hs.1.1, ?_⟩
      simpa using hs.1.2 hequal'
  | cons next chunks ih =>
    rw [verifyBlocks]
    refine (triple_uploadChunk memory haddress hL).bind fun got => ?_
    by_cases hequal : bytesEqual got chunk.data = false
    · rw [if_pos hequal]
      exact triple_throw fun s hs => hs.1.1
    rw [if_neg hequal]
    have hequal' : bytesEqual got chunk.data = true := by simpa using hequal
    split_ifs with hends
    · refine triple_ret fun s hs => ⟨[], rfl, hs.1.1, ?_⟩
      simpa using hs.1.2 hequal'
    · rw [not_or, not_not, not_not] at hends
      have hnext : next.address = blockAddress dev.transferSize p (block + 1) := by
        rw [hends.2, haddress, hends.1, blockAddress, blockAddress,
          show block + 1 - 2 = block - 2 + 1 by omega, Nat.add_mul, Nat.one_mul, Nat.add_assoc]
      have hstable : ReadStable fun log => L log ∧ ChunkRead memory log chunk :=
        hL.and fun _ _ _ h x v hv => (h x v hv).snoc id
      refine (ih hnext (by omega) hstable).conseq (fun s hs => ⟨⟨hs.1.1, hs.1.2 hequal'⟩, hs.2⟩)
        (fun rest s hs => ?_) fun s hs => hs.1
      obtain ⟨run, hrun, ⟨hlog, hchunk⟩, hall⟩ := hs
      exact ⟨next :: run, by rw [hrun]; rfl, hlog, List.forall_mem_cons.mpr ⟨hchunk, hall⟩⟩

theorem triple_retryReads {read : Flash δ α} {Q : α → Session δ → Prop}
    (h : Triple (fun s => L s.log) read Q (fun s => L s.log)) :
    Triple (fun s => L s.log) (retryReads dev read) Q (fun s => L s.log) :=
  triple_retry h (keeps_log L).recover _

theorem triple_verifyRun (memory : List DfuMemorySector) (haddress : chunk.address < 2 ^ 32)
    (hL : ReadStable L) :
    Triple (fun s => L s.log) (verifyRun dev (chunk :: chunks))
      (fun rest s => ∃ run, chunk :: chunks = chunk :: run ++ rest ∧ L s.log ∧
        ∀ c ∈ chunk :: run, ChunkRead memory s.log c)
      (fun s => L s.log) := by
  refine (keeps_log L).abort.bind fun _ => (triple_setAddress L chunk.address).bind fun _ => ?_
  refine (triple_abort_at L _).bind fun _ => ?_
  refine triple_verifyBlocks memory ?_ (le_refl 2) hL
  rw [Nat.mod_eq_of_lt haddress]
  simp [blockAddress]

theorem triple_verifyChunks (memory : List DfuMemorySector)
    (haddress : ∀ c ∈ chunks, c.address < 2 ^ 32) (hL : ReadStable L) :
    Triple (fun s => L s.log) (verifyChunks dev chunks)
      (fun _ s => L s.log ∧ ∀ c ∈ chunks, ChunkRead memory s.log c) (fun s => L s.log) := by
  rw [verifyChunks]
  generalize chunks.length = turns
  induction turns generalizing chunks L with
  | zero =>
    cases chunks with
    | nil => exact triple_ret fun s hs => ⟨hs, by simp⟩
    | cons chunk chunks => exact triple_running fun _ => id
  | succ turns ih =>
    cases chunks with
    | nil => exact triple_ret fun s hs => ⟨hs, by simp⟩
    | cons chunk chunks =>
      rw [verifyRuns]
      refine (triple_retryReads (triple_verifyRun memory (haddress chunk List.mem_cons_self) hL)).bind
        fun rest => ?_
      intro s hs
      obtain ⟨run, hchunks, hlog, hall⟩ := hs
      have hrest := ih (fun c (hc : c ∈ rest) => haddress c (by
        rw [hchunks]
        exact List.mem_append_right _ hc)) (hL.and (readStable_chunkRead memory (chunk :: run)))
      refine (hrest.conseq (fun _ => id) (fun _ s hs => ?_) fun s hs => hs.1) s ⟨hlog, hall⟩
      refine ⟨hs.1.1, fun c hc => ?_⟩
      rw [hchunks] at hc
      rcases List.mem_append.mp hc with hc | hc
      · exact hs.1.2 c hc
      · exact hs.2 c hc

end ArduConfigurator.FirmwareFlash
