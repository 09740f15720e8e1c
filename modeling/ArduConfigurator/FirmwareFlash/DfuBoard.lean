import ArduConfigurator.FirmwareFlash.DfuHeldWord

/-! # What a flash leaves on a board

A board is seen as its flash, its address pointer and the command it has under way. What has been
read back is then on the board, so that a flash that goes through has put the image there. -/
namespace ArduConfigurator.FirmwareFlash
open Effects
set_option autoImplicit false

/-! ## Boards -/

inductive Pending where
  | address (address : ℕ)
  | work (event : BusEvent)
  | other

structure BoardView where
  flash : ℕ → ℕ
  pointer : ℕ
  pending : Option Pending

def Command.pending (transferSize pointer : ℕ) : Command → Pending
  | .setAddress address => .address address
  | command =>
    match command.event transferSize (some pointer) with
    | some event => .work event
    | none => .other

def MayChange (memory : List DfuMemorySector) : Option Pending → ℕ → Prop
  | some (.work event), x => event.touches memory x
  | _, _ => False

def BoardView.pointerAfter (v : BoardView) : ℕ :=
  match v.pending with
  | some (.address address) => address
  | _ => v.pointer

def Steady (memory : List DfuMemorySector) (v w : BoardView) : Prop :=
  ∀ x, ¬ MayChange memory v.pending x → w.flash x = v.flash x

structure Works (memory : List DfuMemorySector) (v w : BoardView) : Prop where
  steady : Steady memory v w
  command : (w.pending = v.pending ∧ w.pointer = v.pointer) ∨
    (w.pending = none ∧ w.pointer = v.pointerAfter)

structure Drops (memory : List DfuMemorySector) (v w : BoardView) : Prop where
  steady : Steady memory v w
  pending : w.pending = v.pending ∨ w.pending = none
  pointer : w.pointer = v.pointer ∨ w.pointer = v.pointerAfter

/-- How a DfuSe board behaves, whatever it stalls or refuses. A command is carried out after its
download, until a status response that is not busy; one that is no error says that it was carried
out. An erase changes no sector but the one its address falls in, a write nothing but its range,
and an upload returns what the flash holds. -/
structure Conforms {δ : Type} (dev : DfuSeDevice δ) (view : δ → BoardView) : Prop where
  sleep : ∀ ms d, Works dev.memory (view d) (view (dev.usb.sleep ms d))
  out : ∀ request value data d, request ≠ DFU_DNLOAD →
    Drops dev.memory (view d) (view (dev.usb.controlOut request value data d).2)
  download : ∀ block data d,
    let command := (decodeDownload block data).pending dev.transferSize (view d).pointer
    let after := view (dev.usb.controlOut DFU_DNLOAD block data d).2
    (∀ x, ¬ MayChange dev.memory (view d).pending x → ¬ MayChange dev.memory (some command) x →
      after.flash x = (view d).flash x) ∧
    (after.pending = some command ∨
      ((dev.usb.controlOut DFU_DNLOAD block data d).1.toBool = false ∧ after.pending = none))
  statusLost : ∀ d stall, (dev.usb.controlIn DFU_GETSTATUS 0 6 d).1 = .error stall →
    Works dev.memory (view d) (view (dev.usb.controlIn DFU_GETSTATUS 0 6 d).2)
  statusBusy : ∀ d bytes, (dev.usb.controlIn DFU_GETSTATUS 0 6 d).1 = .ok bytes →
    bytes.length < 6 ∨ isBusy (statusOf bytes).state = true →
      Works dev.memory (view d) (view (dev.usb.controlIn DFU_GETSTATUS 0 6 d).2)
  statusDone : ∀ d bytes, (dev.usb.controlIn DFU_GETSTATUS 0 6 d).1 = .ok bytes →
    ¬ (bytes.length < 6 ∨ isBusy (statusOf bytes).state = true) →
      let after := view (dev.usb.controlIn DFU_GETSTATUS 0 6 d).2
      Drops dev.memory (view d) after ∧ after.pending = none ∧
        ((statusOf bytes).isOk = true → after.pointer = (view d).pointerAfter)
  upload : ∀ block length d,
    Drops dev.memory (view d) (view (dev.usb.controlIn DFU_UPLOAD block length d).2)
  uploaded : ∀ block length d bytes, 2 ≤ block →
    (dev.usb.controlIn DFU_UPLOAD block length d).1 = .ok bytes → (view d).pending = none →
      ∀ i, i < length → i < bytes.length →
        bytes[i]? = some ((view d).flash (blockAddress dev.transferSize (view d).pointer block + i))

/-! ## What has been read back is on the board -/

variable {δ : Type} {dev : DfuSeDevice δ} {view : δ → BoardView}

/-- What is known of the address pointer is so, and what has been read back is in the flash and is
not about to change. -/
structure Sound (memory : List DfuMemorySector) (view : δ → BoardView) (s : Session δ) : Prop where
  taken : ∀ a, s.position = .taken a → (view s.device).pending = none ∧ (view s.device).pointer = a
  asked : ∀ a, s.position = .asked a → (view s.device).pending = some (.address a) ∨
    ((view s.device).pending = none ∧ (view s.device).pointer = a)
  read : ∀ x v, ReadBack memory s.log x v →
    ¬ MayChange memory (view s.device).pending x ∧ (view s.device).flash x = v

theorem pointerAfter_of_none {v : BoardView} (h : v.pending = none) : v.pointerAfter = v.pointer := by
  rw [BoardView.pointerAfter, h]

theorem Works.drops {memory : List DfuMemorySector} {v w : BoardView} (h : Works memory v w) :
    Drops memory v w := by
  refine ⟨h.steady, ?_, ?_⟩
  · rcases h.command with ⟨hp, -⟩ | ⟨hp, -⟩
    · exact .inl hp
    · exact .inr hp
  · rcases h.command with ⟨-, hp⟩ | ⟨-, hp⟩
    · exact .inl hp
    · exact .inr hp

theorem Drops.mayChange {memory : List DfuMemorySector} {v w : BoardView} (h : Drops memory v w)
    {x : ℕ} (hx : ¬ MayChange memory v.pending x) : ¬ MayChange memory w.pending x := by
  rcases h.pending with hp | hp
  · rwa [hp]
  · rw [hp]
    exact id

theorem Drops.idle {memory : List DfuMemorySector} {v w : BoardView} (h : Drops memory v w)
    (hnone : v.pending = none) : w.pending = none ∧ w.pointer = v.pointer := by
  constructor
  · rcases h.pending with hp | hp
    · rw [hp, hnone]
    · exact hp
  · rcases h.pointer with hp | hp
    · exact hp
    · rw [hp, pointerAfter_of_none hnone]

theorem Sound.read_of_drops {memory : List DfuMemorySector} {s : Session δ} {device : δ}
    (h : Sound memory view s) (hdrops : Drops memory (view s.device) (view device)) :
    ∀ x v, ReadBack memory s.log x v →
      ¬ MayChange memory (view device).pending x ∧ (view device).flash x = v := by
  intro x v hback
  obtain ⟨hsafe, hflash⟩ := h.read x v hback
  exact ⟨hdrops.mayChange hsafe, by rw [hdrops.steady x hsafe, hflash]⟩

theorem Sound.works {memory : List DfuMemorySector} {s : Session δ} {device : δ}
    (h : Sound memory view s) (hworks : Works memory (view s.device) (view device)) :
    Sound memory view { s with device := device } := by
  refine ⟨fun a ha => ?_, fun a ha => ?_, h.read_of_drops hworks.drops⟩
  · obtain ⟨hpending, hpointer⟩ := h.taken a ha
    obtain ⟨hp, hq⟩ := hworks.drops.idle hpending
    exact ⟨hp, hq.trans hpointer⟩
  · rcases hworks.command with ⟨hp, hq⟩ | ⟨hp, hq⟩
    · rw [hp, hq]
      exact h.asked a ha
    · right
      refine ⟨hp, hq.trans ?_⟩
      rcases h.asked a ha with hpending | ⟨hpending, hpointer⟩
      · rw [BoardView.pointerAfter, hpending]
      · rw [pointerAfter_of_none hpending, hpointer]

theorem afterOther_eq_taken {position : Position} {a : ℕ} :
    position.afterOther = .taken a ↔ position = .taken a := by
  cases position <;> simp [Position.afterOther]

theorem afterOther_ne_asked {position : Position} {a : ℕ} : position.afterOther ≠ .asked a := by
  cases position <;> simp [Position.afterOther]

theorem Sound.drops {memory : List DfuMemorySector} {s : Session δ} {device : δ}
    (h : Sound memory view s) (hdrops : Drops memory (view s.device) (view device)) :
    Sound memory view { s with device := device, position := s.position.afterOther } := by
  refine ⟨fun a ha => ?_, fun a ha => absurd ha afterOther_ne_asked, h.read_of_drops hdrops⟩
  obtain ⟨hpending, hpointer⟩ := h.taken a (afterOther_eq_taken.mp ha)
  obtain ⟨hp, hq⟩ := hdrops.idle hpending
  exact ⟨hp, hq.trans hpointer⟩

theorem sound_controlOut (hconforms : Conforms dev view) (request value : ℕ) (data : List ℕ)
    (hrequest : request ≠ DFU_DNLOAD) :
    Triple (Sound dev.memory view) (controlOut dev request value data)
      (fun _ => Sound dev.memory view) (Sound dev.memory view) := by
  intro s hs
  have hdrops := hconforms.out request value data s.device hrequest
  rw [controlOut]
  cases hout : dev.usb.controlOut request value data s.device with
  | mk result device =>
    rw [hout] at hdrops
    have hnext := hs.drops hdrops
    cases result <;> simpa [outcomeOf, hrequest] using hnext

theorem pending_touches {s : Session δ} {command : Command} {x : ℕ}
    (hs : Sound dev.memory view s)
    (h : MayChange dev.memory
      (some (command.pending dev.transferSize (view s.device).pointer)) x) :
    ∃ e ∈ (command.event dev.transferSize s.position.known).toList,
      e.touches dev.memory x := by
  cases command with
  | setAddress address => cases h
  | erase address => exact ⟨_, List.mem_singleton.mpr rfl, h⟩
  | massErase => exact ⟨_, List.mem_singleton.mpr rfl, h⟩
  | other => cases h
  | program block data =>
    refine ⟨_, List.mem_singleton.mpr rfl, ?_⟩
    cases hposition : s.position with
    | unknown => trivial
    | asked a => trivial
    | taken a =>
      rw [(hs.taken a hposition).2] at h
      exact h

theorem position_ne_taken {command : Command} {resolved : Bool} {a : ℕ} :
    command.position resolved ≠ .taken a := by
  cases command with
  | setAddress address => cases resolved <;> simp [Command.position]
  | _ => simp [Command.position]

theorem position_eq_asked {command : Command} {resolved : Bool} {a : ℕ}
    (h : command.position resolved = .asked a) : resolved = true ∧ command = .setAddress a := by
  cases command with
  | setAddress address => cases resolved <;> simp_all [Command.position]
  | _ => simp [Command.position] at h

theorem readBack_of_command {memory : List DfuMemorySector} {log : List BusEvent}
    {command : Command} {transferSize x v : ℕ} {pointer : Option ℕ}
    (h : ReadBack memory (log ++ (command.event transferSize pointer).toList) x v) :
    ReadBack memory log x v ∧
      ∀ e ∈ (command.event transferSize pointer).toList, ¬ e.touches memory x := by
  cases hevent : command.event transferSize pointer with
  | none =>
    rw [hevent, Option.toList_none, List.append_nil] at h
    exact ⟨h, by simp⟩
  | some e =>
    rw [hevent, Option.toList_some] at h
    rcases h.of_snoc with ⟨address, bytes, rfl, -⟩ | ⟨hread, hnot⟩
    · cases command <;> simp [Command.event] at hevent
    · exact ⟨hread, by simpa using hnot⟩

theorem sound_download (hconforms : Conforms dev view) (block : ℕ) (data : List ℕ) :
    Triple (Sound dev.memory view) (download dev block data)
      (fun _ => Sound dev.memory view) (Sound dev.memory view) := by
  intro s hs
  obtain ⟨hflash, hpending⟩ := hconforms.download block data s.device
  set command := decodeDownload block data with hcommand
  rw [download, controlOut]
  cases hout : dev.usb.controlOut DFU_DNLOAD block data s.device with
  | mk result device =>
    rw [hout] at hflash hpending
    have hsent : Sound dev.memory view (s.sent dev.transferSize command result.toBool device) := by
      refine ⟨fun a ha => absurd ha position_ne_taken, fun a ha => ?_, fun x v hback => ?_⟩
      · obtain ⟨hresolved, hset⟩ := position_eq_asked ha
        rcases hpending with hp | ⟨hfailed, -⟩
        · rw [hset] at hp
          exact .inl hp
        · rw [hresolved] at hfailed
          cases hfailed
      · obtain ⟨hread, hnot⟩ := readBack_of_command hback
        obtain ⟨hsafe, hv⟩ := hs.read x v hread
        have hcommandSafe : ¬ MayChange dev.memory
            (some (command.pending dev.transferSize (view s.device).pointer)) x := by
          intro hmay
          obtain ⟨e, he, htouch⟩ := pending_touches hs hmay
          exact hnot e he htouch
        refine ⟨?_, (hflash x hsafe hcommandSafe).trans hv⟩
        rcases hpending with hp | ⟨-, hp⟩
        · change ¬ MayChange dev.memory (view device).pending x
          rwa [hp]
        · change ¬ MayChange dev.memory (view device).pending x
          rw [hp]
          exact id
    cases result <;> simpa [outcomeOf] using hsent

theorem sound_status (hconforms : Conforms dev view) :
    Triple (Sound dev.memory view) (controlIn dev DFU_GETSTATUS 0 6)
      (fun _ => Sound dev.memory view) (Sound dev.memory view) := by
  intro s hs
  have hlost := hconforms.statusLost s.device
  have hbusy := hconforms.statusBusy s.device
  have hdone := hconforms.statusDone s.device
  rw [controlIn]
  cases hin : dev.usb.controlIn DFU_GETSTATUS 0 6 s.device with
  | mk result device =>
    rw [hin] at hlost hbusy hdone
    cases result with
    | error stall => exact hs.works (hlost stall rfl)
    | ok bytes =>
      change Sound dev.memory view
        { s with device := device, position := s.position.afterStatus bytes }
      by_cases hcases : bytes.length < 6 ∨ isBusy (statusOf bytes).state = true
      · have hnext := hs.works (hbusy bytes rfl hcases)
        have hsame : s.position.afterStatus bytes = s.position := by
          cases hposition : s.position with
          | asked a => rw [Position.afterStatus, if_pos hcases]
          | _ => rfl
        rwa [hsame]
      · obtain ⟨hdrops, hnone, hpointer⟩ := hdone bytes rfl hcases
        refine ⟨fun a ha => ⟨hnone, ?_⟩, fun a ha => ?_, hs.read_of_drops hdrops⟩
        · cases hposition : s.position with
          | unknown => rw [hposition] at ha; cases ha
          | taken b =>
            rw [hposition] at ha
            cases ha
            obtain ⟨hpending, hp⟩ := hs.taken a hposition
            exact (hdrops.idle hpending).2.trans hp
          | asked b =>
            rw [hposition, Position.afterStatus, if_neg hcases] at ha
            split_ifs at ha with hok
            cases ha
            refine (hpointer hok).trans ?_
            rcases hs.asked a hposition with hpending | ⟨hpending, hp⟩
            · rw [BoardView.pointerAfter, hpending]
            · rw [pointerAfter_of_none hpending, hp]
        · cases hposition : s.position with
          | asked b =>
            rw [hposition, Position.afterStatus, if_neg hcases] at ha
            split_ifs at ha
          | _ => rw [hposition] at ha; cases ha

theorem sound_upload (hconforms : Conforms dev view) {block length : ℕ} (htwo : 2 ≤ block) :
    Triple (Sound dev.memory view) (controlIn dev DFU_UPLOAD block length)
      (fun _ => Sound dev.memory view) (Sound dev.memory view) := by
  intro s hs
  have hdrops := hconforms.upload block length s.device
  have huploaded := hconforms.uploaded block length s.device
  rw [controlIn]
  cases hin : dev.usb.controlIn DFU_UPLOAD block length s.device with
  | mk result device =>
    rw [hin] at hdrops huploaded
    cases result with
    | error stall => exact hs.drops hdrops
    | ok bytes =>
      have hnext := hs.drops hdrops
      refine ⟨hnext.taken, hnext.asked, fun x v hback => ?_⟩
      cases hposition : s.position with
      | taken a =>
        obtain ⟨hpending, hpointer⟩ := hs.taken a hposition
        have hlog : ReadBack dev.memory (s.log ++ [.read (blockAddress dev.transferSize a block)
            (bytes.take length)]) x v := by
          simpa [Session.received, DFU_UPLOAD, DFU_GETSTATUS, hposition, Position.known] using hback
        rcases hlog.of_snoc with ⟨address, got, heq, hbyte⟩ | ⟨hread, -⟩
        · cases heq
          obtain ⟨hle, hget⟩ := IntelHexSegment.byteAt_eq_some.mp hbyte
          simp only at hle hget
          have hlt : x - blockAddress dev.transferSize a block < (bytes.take length).length :=
            (List.getElem?_eq_some_iff.mp hget).1
          rw [List.length_take] at hlt
          have hvalue := huploaded bytes htwo rfl hpending
            (x - blockAddress dev.transferSize a block) (by omega) (by omega)
          rw [List.getElem?_take_of_lt (by omega), hvalue, hpointer, Nat.add_sub_cancel' hle] at hget
          have hnone := (hdrops.idle hpending).1
          change ¬ MayChange dev.memory (view device).pending x ∧ (view device).flash x = v
          rw [hnone]
          refine ⟨id, ?_⟩
          rw [hdrops.steady x (by rw [hpending]; exact id)]
          exact Option.some_inj.mp hget
        · exact hnext.read x v hread
      | unknown =>
        refine hnext.read x v ?_
        simpa [Session.received, DFU_UPLOAD, DFU_GETSTATUS, hposition, Position.known] using hback
      | asked a =>
        refine hnext.read x v ?_
        simpa [Session.received, DFU_UPLOAD, DFU_GETSTATUS, hposition, Position.known] using hback

/-! ## What every transfer keeps -/

/-- Every transfer of the client keeps the assertion, resolved or rejected. -/
structure Carries (dev : DfuSeDevice δ) (A : Session δ → Prop) : Prop extends Keeps dev A where
  download : ∀ block data, Triple A (download dev block data) (fun _ => A) A
  upload : ∀ block length, 2 ≤ block →
    Triple A (controlIn dev DFU_UPLOAD block length) (fun _ => A) A

section
variable {A : Session δ → Prop}

theorem Carries.command (h : Carries dev A) (block : ℕ) (data : List ℕ) (kind : PollKind) :
    Triple A (do
      FirmwareFlash.download dev block data
      let _ ← pollUntilIdle dev kind
      pure ()) (fun _ => A) A :=
  (h.download block data).bind fun _ => (h.pollUntilIdle kind).bind fun _ => triple_ret fun _ => id

theorem Carries.setAddress (h : Carries dev A) (address : ℕ) :
    Triple A (setAddress dev address) (fun _ => A) A :=
  h.command _ _ _

theorem Carries.eraseSector (h : Carries dev A) (address : ℕ) :
    Triple A (eraseSector dev address) (fun _ => A) A :=
  triple_retry (h.command _ _ _) h.recover _

theorem Carries.writeChunk (h : Carries dev A) (chunk : DfuChunk) :
    Triple A (writeChunk dev chunk) (fun _ => A) A :=
  triple_retry ((h.setAddress _).bind fun _ => h.command _ _ _) h.recover _

theorem Carries.retryReads (h : Carries dev A) {α : Type} {read : Flash δ α}
    (hread : Triple A read (fun _ => A) A) : Triple A (retryReads dev read) (fun _ => A) A :=
  triple_retry hread h.recover _

theorem Carries.verifyBlocks (h : Carries dev A) {block : ℕ} (htwo : 2 ≤ block)
    (chunks : List DfuChunk) : Triple A (verifyBlocks dev block chunks) (fun _ => A) A := by
  induction chunks generalizing block with
  | nil => exact triple_ret fun _ => id
  | cons chunk rest ih =>
    cases rest with
    | nil =>
      rw [FirmwareFlash.verifyBlocks]
      refine (h.upload _ _ htwo).bind fun got => ?_
      split_ifs
      · exact triple_throw fun _ => id
      · exact triple_ret fun _ => id
    | cons next rest =>
      rw [FirmwareFlash.verifyBlocks]
      refine (h.upload _ _ htwo).bind fun got => ?_
      split_ifs
      · exact triple_throw fun _ => id
      · exact triple_ret fun _ => id
      · exact ih (by omega)

theorem Carries.verifyRun (h : Carries dev A) (chunks : List DfuChunk) :
    Triple A (verifyRun dev chunks) (fun _ => A) A := by
  cases chunks with
  | nil => exact triple_throw fun _ => id
  | cons first rest =>
    refine h.abort.bind fun _ => (h.setAddress _).bind fun _ => h.abort.bind fun _ => ?_
    exact h.verifyBlocks (le_refl 2) _

theorem Carries.verifyChunks (h : Carries dev A) (chunks : List DfuChunk) :
    Triple A (verifyChunks dev chunks) (fun _ => A) A := by
  rw [FirmwareFlash.verifyChunks]
  generalize chunks.length = turns
  induction turns generalizing chunks with
  | zero =>
    cases chunks with
    | nil => exact triple_ret fun _ => id
    | cons chunk chunks => exact triple_running fun _ => id
  | succ turns ih =>
    cases chunks with
    | nil => exact triple_ret fun _ => id
    | cons chunk chunks => exact (h.retryReads (h.verifyRun _)).bind fun rest => ih rest

theorem Carries.readBlocks (h : Carries dev A) (address length turns : ℕ) {block : ℕ}
    (htwo : 2 ≤ block) (offset : ℕ) :
    Triple A (readBlocks dev address length turns block offset) (fun _ => A) A := by
  induction turns generalizing block offset with
  | zero =>
    rw [FirmwareFlash.readBlocks]
    split_ifs
    · exact triple_running fun _ => id
    · exact triple_ret fun _ => id
  | succ turns ih =>
    rw [FirmwareFlash.readBlocks]
    split_ifs
    swap
    · exact triple_ret fun _ => id
    refine (h.upload _ _ htwo).bind fun got => ?_
    split_ifs
    · exact triple_throw fun _ => id
    · exact (ih (by omega) _).bind fun _ => triple_ret fun _ => id

theorem Carries.readRange (h : Carries dev A) (address length : ℕ) :
    Triple A (readRange dev address length) (fun _ => A) A := by
  refine h.abort.bind fun _ => (h.setAddress _).bind fun _ => h.abort.bind fun _ => ?_
  refine (h.readBlocks _ _ _ (le_refl 2) _).bind fun _ => h.abort.bind fun _ => ?_
  exact triple_ret fun _ => id

theorem Carries.unchangedSectorsBelow (h : Carries dev A) (start : ℕ)
    (segments : List IntelHexSegment) (sectors : List DfuMemorySector) :
    Triple A (unchangedSectorsBelow dev start segments sectors) (fun _ => A) A := by
  induction sectors with
  | nil => exact triple_ret fun _ => id
  | cons sector sectors ih =>
    rw [FirmwareFlash.unchangedSectorsBelow]
    split_ifs
    swap
    · exact ih
    refine (h.retryReads (h.readRange _ _)).bind fun actual => ih.bind fun kept => ?_
    split_ifs
    · exact triple_ret fun _ => id
    · exact triple_ret fun _ => id

theorem Carries.keptStep (h : Carries dev A) (segments : List IntelHexSegment) :
    Triple A (keptStep dev segments) (fun _ => A) A := by
  rw [FirmwareFlash.keptStep]
  cases checkBootloader (findAppStart segments dev.memory) segments dev.memory with
  | none => exact triple_ret fun _ => id
  | some start => exact h.unchangedSectorsBelow start segments dev.memory

theorem Carries.eraseStep (h : Carries dev A) (segments : List IntelHexSegment)
    (options : FlashOptions) (kept : List ℕ) :
    Triple A (eraseStep dev segments options kept) (fun _ => A) A := by
  have hmass : Triple A (massErase dev) (fun _ => A) A := h.command _ _ _
  have hsectors (starts : List ℕ) : Triple A (eraseSectors dev starts) (fun _ => A) A :=
    triple_forEach_of_mem fun start _ => h.eraseSector start
  rw [FirmwareFlash.eraseStep]
  split_ifs
  · exact hsectors _
  · exact hmass
  · exact hmass
  · exact triple_throw fun _ => id
  · exact hsectors _

theorem Carries.programStep (h : Carries dev A) (chunks : List DfuChunk) (appStart : Option ℕ) :
    Triple A (programStep dev chunks appStart) (fun _ => A) A := by
  rw [FirmwareFlash.programStep]
  cases chunks[firstIndex chunks appStart]? with
  | none => exact triple_throw fun _ => id
  | some first =>
    refine (triple_forEach_of_mem fun chunk _ => h.writeChunk chunk).bind fun _ => ?_
    refine (h.verifyChunks _).bind fun _ => (h.writeChunk _).bind fun _ => ?_
    exact h.verifyChunks _

theorem Carries.leave (h : Carries dev A) (address : ℕ) :
    Triple A (leave dev address) (fun _ => A) A := by
  refine Triple.catchError ?_ (fun _ => triple_ret fun _ => id) fun _ => id
  refine (h.setAddress _).bind fun _ => (h.download _ _).bind fun _ => ?_
  exact h.getStatus.bind fun _ => triple_ret fun _ => id

theorem Carries.flash (h : Carries dev A) (segments : List IntelHexSegment)
    (options : FlashOptions) : Triple A (flash dev segments options) (fun _ => A) A := by
  refine triple_flash_of (fun _ => id) fun _ _ _ _ => ?_
  refine h.clearErrorState.bind fun _ => (h.keptStep _).bind fun kept => ?_
  refine (h.eraseStep _ _ _).bind fun _ => ?_
  cases planDfuChunks segments dev.transferSize with
  | none => exact triple_running fun _ => id
  | some chunks => exact (h.programStep _ _).bind fun _ => h.leave _

end

theorem carries_sound (hconforms : Conforms dev view) : Carries dev (Sound dev.memory view) where
  out request value data hrequest := sound_controlOut hconforms request value data hrequest
  status := sound_status hconforms
  sleep ms := fun s hs => hs.works (hconforms.sleep ms s.device)
  download block data := sound_download hconforms block data
  upload _ _ htwo := sound_upload hconforms htwo

end ArduConfigurator.FirmwareFlash
