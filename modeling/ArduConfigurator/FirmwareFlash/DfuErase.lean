import ArduConfigurator.FirmwareFlash.DfuReadBack

/-! # The phases of a flash, and what it erases and writes

What the comparison of the sectors, the erase and the programming put in the log, one rule for each
phase. A flash that is not told otherwise should touch no sector that the board reports as protected,
and should begin to erase only for an image that lies in the sectors of the board. -/
namespace ArduConfigurator.FirmwareFlash
open Effects
set_option autoImplicit false

section

variable {δ : Type} {dev : DfuSeDevice δ} {L : List BusEvent → Prop}

/-! ## Comparing sectors -/

def SectorRead (memory : List DfuMemorySector) (segments : List IntelHexSegment)
    (log : List BusEvent) (sector : DfuMemorySector) : Prop :=
  ∀ x, sector.contains x = true → ReadBack memory log x (expectedByte segments x)

variable {sector : DfuMemorySector}

theorem contains_iff {x : ℕ} :
    sector.contains x = true ↔ sector.start ≤ x ∧ x < sector.sectorEnd := by
  rw [DfuMemorySector.contains, decide_eq_true_eq]

variable {segments : List IntelHexSegment}

theorem expectedBytes_getD {i : ℕ} (h : i < sector.size) :
    (expectedBytes segments sector).getD i 0 = expectedByte segments (sector.start + i) := by
  rw [expectedBytes, List.getD_eq_getElem?_getD, List.getElem?_map, List.getElem?_range h]
  rfl

variable {start : ℕ}

theorem triple_unchangedSectorsBelow (memory : List DfuMemorySector)
    {sectors : List DfuMemorySector} (hL : ReadStable L) :
    Triple (fun s => L s.log) (unchangedSectorsBelow dev start segments sectors)
      (fun kept s => L s.log ∧ ∀ k ∈ kept, ∃ sector ∈ sectors, sector.start = k ∧
        comparedBelow start segments sector = true ∧
          (sector.start < 2 ^ 32 → SectorRead memory segments s.log sector))
      (fun s => L s.log) := by
  induction sectors generalizing L with
  | nil => exact triple_ret fun s hs => ⟨hs, by simp⟩
  | cons sector sectors ih =>
    rw [unchangedSectorsBelow]
    split_ifs with hcompared
    swap
    · refine (ih hL).post fun kept s hs => ⟨hs.1, fun k hk => ?_⟩
      obtain ⟨other, hother, h⟩ := hs.2 k hk
      exact ⟨other, List.mem_cons_of_mem _ hother, h⟩
    refine (triple_retryReads (triple_readRange memory sector.start sector.size hL)).bind
      fun actual => ?_
    have hread : ReadStable fun log => L log ∧ actual.length = sector.size ∧
        ∀ i, i < sector.size →
          ReadBack memory log (sector.start % 2 ^ 32 + i) (actual.getD i 0) := by
      intro log address bytes h
      exact ⟨hL _ _ _ h.1, h.2.1, fun i hi => (h.2.2 i hi).snoc id⟩
    refine ((ih hread).conseq (fun _ => id) (fun _ _ => id) fun s hs => hs.1).bind fun kept => ?_
    split_ifs with hequal
    · refine triple_ret fun s hs => ⟨hs.1.1, fun k hk => ?_⟩
      rcases List.mem_cons.mp hk with rfl | hk
      · refine ⟨sector, List.mem_cons_self, rfl, hcompared, fun hstart x hx => ?_⟩
        rw [contains_iff, DfuMemorySector.sectorEnd] at hx
        have hlen : (expectedBytes segments sector).length = sector.size := by simp [expectedBytes]
        have hactual := bytesEqual_iff.mp hequal
        rw [hlen, List.take_of_length_le hs.1.2.1.le] at hactual
        have hbyte := hs.1.2.2 (x - sector.start) (by omega)
        rw [hactual, expectedBytes_getD (by omega), Nat.mod_eq_of_lt hstart] at hbyte
        rwa [Nat.add_sub_cancel' hx.1] at hbyte
      · obtain ⟨other, hother, h⟩ := hs.2 k hk
        exact ⟨other, List.mem_cons_of_mem _ hother, h⟩
    · refine triple_ret fun s hs => ⟨hs.1.1, fun k hk => ?_⟩
      obtain ⟨other, hother, h⟩ := hs.2 k hk
      exact ⟨other, List.mem_cons_of_mem _ hother, h⟩

/-! ## Erasing -/

theorem triple_eraseSectors {starts : List ℕ}
    (h : ∀ start ∈ starts, ∀ log, L log → L (log ++ [.erase (start % 2 ^ 32)])) :
    Triple (fun s => L s.log) (eraseSectors dev starts) (fun _ s => L s.log) (fun s => L s.log) :=
  triple_forEach_of_mem fun start hstart => triple_eraseSector (h start hstart)

def eraseTargets (memory : List DfuMemorySector) (segments : List IntelHexSegment)
    (fullErase : Bool) (kept : List ℕ) : List ℕ :=
  if fullErase then fullEraseTargets memory segments kept else touchedTargets memory segments kept

variable {kept : List ℕ} {options : FlashOptions}

theorem triple_eraseStep (hmass : dev.memory = [] → ∀ log, L log → L (log ++ [.massErase]))
    (h : ∀ start ∈ eraseTargets dev.memory segments options.fullErase kept, ∀ log, L log → L (log ++ [.erase (start % 2 ^ 32)])) :
    Triple (fun s => L s.log) (eraseStep dev segments options kept) (fun _ s => L s.log)
      (fun s => L s.log) := by
  rw [eraseStep]
  rw [eraseTargets] at h
  by_cases hmemory : dev.memory = []
  · rw [if_neg (not_not.mpr hmemory), if_pos hmemory, ite_self]
    exact triple_massErase (hmass hmemory)
  rw [if_pos hmemory, if_neg hmemory]
  by_cases hfull : options.fullErase = true
  · rw [if_pos hfull]
    rw [if_pos hfull] at h
    exact triple_eraseSectors h
  · rw [if_neg hfull]
    rw [if_neg hfull] at h
    split_ifs
    · exact triple_throw fun _ => id
    · exact triple_eraseSectors h

variable {memory : List DfuMemorySector}

theorem mem_fullEraseTargets :
    start ∈ fullEraseTargets memory segments kept ↔
      (∃ sector ∈ memory, imageStart segments < sector.sectorEnd ∧ sector.start = start) ∧
        start ∉ kept := by
  simp only [fullEraseTargets, List.mem_map, List.mem_filter, Bool.and_eq_true, decide_eq_true_eq,
    Bool.not_eq_true', List.contains_eq_mem, decide_eq_false_iff_not]
  constructor
  · rintro ⟨sector, ⟨hsector, hend, hkept⟩, rfl⟩
    exact ⟨⟨sector, hsector, hend, rfl⟩, hkept⟩
  · rintro ⟨⟨sector, hsector, hend, rfl⟩, hkept⟩
    exact ⟨sector, ⟨hsector, hend, hkept⟩, rfl⟩

theorem mem_sectorsToErase :
    start ∈ sectorsToErase memory segments ↔
      ∃ sector ∈ memory, (∃ segment ∈ segments, touches sector segment = true) ∧
        sector.start = start := by
  simp only [sectorsToErase, List.mem_insertionSort, List.mem_dedup, List.mem_flatMap,
    List.mem_map, List.mem_filter]
  constructor
  · rintro ⟨segment, hsegment, sector, ⟨hsector, htouch⟩, hstart⟩
    exact ⟨sector, hsector, ⟨segment, hsegment, htouch⟩, hstart⟩
  · rintro ⟨sector, hsector, ⟨segment, hsegment, htouch⟩, hstart⟩
    exact ⟨segment, hsegment, sector, ⟨hsector, htouch⟩, hstart⟩

theorem mem_touchedTargets :
    start ∈ touchedTargets memory segments kept ↔
      start ∈ sectorsToErase memory segments ∧ start ∉ kept := by
  simp [touchedTargets]

/-! ## The bootloader on the board -/

def Kept (memory : List DfuMemorySector) (segments : List IntelHexSegment) (kept : List ℕ)
    (log : List BusEvent) : Prop :=
  ∀ k ∈ kept, ∃ start, checkBootloader (findAppStart segments memory) segments memory = some start ∧
    ∃ sector ∈ memory, sector.start = k ∧ comparedBelow start segments sector = true ∧
      (sector.start < 2 ^ 32 → SectorRead memory segments log sector)

theorem triple_keptStep (hL : ReadStable L) :
    Triple (fun s => L s.log) (keptStep dev segments)
      (fun kept s => L s.log ∧ Kept dev.memory segments kept s.log) (fun s => L s.log) := by
  rw [keptStep]
  cases hcheck : checkBootloader (findAppStart segments dev.memory) segments dev.memory with
  | none => exact triple_ret fun s hs => ⟨hs, fun k hk => by cases hk⟩
  | some start =>
    exact (triple_unchangedSectorsBelow dev.memory hL).post fun kept s hs =>
      ⟨hs.1, fun k hk => ⟨start, hcheck, hs.2 k hk⟩⟩

/-! ## Leaving -/

theorem triple_leave (L : List BusEvent → Prop) (address : ℕ) :
    Triple (fun s => L s.log) (leave dev address) (fun _ s => L s.log) (fun s => L s.log) := by
  have hcommand : decodeDownload 0 [] = .other := rfl
  have hleave : Triple (fun s => L s.log) (download dev 0 []) (fun _ s => L s.log)
      (fun s => L s.log) :=
    (triple_download (P := fun _ => L) (M := L) hcommand
      fun _ log h => by simpa [Command.event] using h).post fun _ _ hs => hs.1
  refine Triple.catchError ?_ (fun _ => triple_ret fun _ => id) fun _ => id
  refine ((triple_setAddress L address).post fun _ _ hs => hs.1).bind fun _ => ?_
  exact hleave.bind fun _ => (keeps_log L).getStatus.bind fun _ => triple_ret fun _ => id

/-! ## The whole flash -/

/-- A flash is refused before anything is sent, or clears the error state and goes through. -/
theorem triple_flash_of {P X : Session δ → Prop} {Q : Unit → Session δ → Prop}
    (hrefused : ∀ s, P s → X s)
    (h : ∀ segment more, segments = segment :: more → ¬ (options.allowProtectedSectors = false ∧
        0 < (findProtectedSectors dev.memory segments).length) →
      Triple P (do
        clearErrorState dev
        let kept ← keptStep dev segments
        eraseStep dev segments options kept
        match planDfuChunks segments dev.transferSize with
        | none => Prog.running
        | some chunks => do
          programStep dev (chunks.filter fun chunk => !inKeptSector dev.memory kept chunk.address)
            (findAppStart segments dev.memory)
          leave dev segment.address) Q X) : Triple P (flash dev segments options) Q X := by
  cases segments with
  | nil => exact triple_throw hrefused
  | cons segment more =>
    by_cases hblocked : options.allowProtectedSectors = false ∧
        0 < (findProtectedSectors dev.memory (segment :: more)).length
    · rw [flash, if_pos hblocked]
      exact triple_throw hrefused
    · rw [flash, if_neg hblocked]
      exact h segment more rfl hblocked

end

/-! ## Unlocked sectors -/

def DfuMemorySector.unlocked (sector : DfuMemorySector) : Bool := sector.erasable && sector.writable

def DfuChunk.stop (chunk : DfuChunk) : ℕ := chunk.address + chunk.data.length

def BusEvent.reaches (sector : DfuMemorySector) : BusEvent → Prop
  | .erase address => sector.contains address
  | .massErase => True
  | .program none _ => True
  | .program (some address) data =>
    ∃ x, address ≤ x ∧ x < address + data.length ∧ sector.contains x
  | .read _ _ => False

def BusEvent.isErase : BusEvent → Bool
  | .erase _ => true
  | .massErase => true
  | _ => false

def Mapped (memory : List DfuMemorySector) (segments : List IntelHexSegment) : Prop :=
  ∀ segment ∈ segments, ∀ x v, segment.byteAt x = some v →
    ∃ sector ∈ memory, sector.contains x = true

def OnlyUnlocked (memory : List DfuMemorySector) (log : List BusEvent) : Prop :=
  ∀ e ∈ log, ∀ sector ∈ memory, e.reaches sector → sector.unlocked = true

/-- Once anything is erased the image is mapped and no protected sector is erased or written, and
otherwise nothing is erased and the flash does not go through. -/
structure RefusesUnsafe (memory : List DfuMemorySector) (segments : List IntelHexSegment)
    (outcome : Outcome DfuError Unit) (log : List BusEvent) : Prop where
  erased : (∃ e ∈ log, e.isErase = true) →
    Mapped memory segments ∧ OnlyUnlocked memory log
  refused : ¬ (Mapped memory segments ∧ OnlyUnlocked memory log) →
    outcome ≠ .resolved () ∧ ∀ e ∈ log, e.isErase = false

/-! ## The condition -/

def RefusedFirst (memory : List DfuMemorySector) (segments : List IntelHexSegment)
    (options : FlashOptions) : Prop :=
  segments = [] ∨
    (options.allowProtectedSectors = false ∧ findProtectedSectors memory segments ≠ []) ∨
      (options.fullErase = false ∧ ∀ sector ∈ memory, ∀ segment ∈ segments,
        touches sector segment = false)

/-- The sectors that a flash may erase: with a full erase all that end past the image's start, else
the ones the image touches. -/
def MayErase (segments : List IntelHexSegment) (options : FlashOptions)
    (sector : DfuMemorySector) : Prop :=
  if options.fullErase then imageStart segments < sector.sectorEnd
  else ∃ segment ∈ segments, touches sector segment = true

/-- A chunk lies below the end of the addresses that a command can carry. -/
def Addressable (chunk : DfuChunk) : Prop := chunk.address < 2 ^ 32 ∧ chunk.stop ≤ 2 ^ 32

instance : DecidablePred Addressable := fun chunk =>
  inferInstanceAs (Decidable (chunk.address < 2 ^ 32 ∧ chunk.stop ≤ 2 ^ 32))

/-- The image lies in the sectors, and what is erased for it or written, the padding of the writes
included, is unlocked. -/
structure FitsSectors (memory : List DfuMemorySector) (segments : List IntelHexSegment)
    (transferSize : ℕ) (options : FlashOptions) : Prop where
  mapped : Mapped memory segments
  erased : ∀ target ∈ memory, MayErase segments options target →
    target.start < 2 ^ 32 ∧ ∀ sector ∈ memory, sector.contains target.start = true →
      sector.unlocked = true
  written : ∀ chunks, planDfuChunks segments transferSize = some chunks → ∀ chunk ∈ chunks,
    Addressable chunk ∧ ∀ sector ∈ memory, ∀ x, chunk.address ≤ x → x < chunk.stop →
      sector.contains x = true → sector.unlocked = true

/-! ## Programming -/

variable {δ : Type} {dev : DfuSeDevice δ} {L : List BusEvent → Prop}

structure Within (piece chunk : DfuChunk) : Prop where
  address : chunk.address ≤ piece.address
  stop : piece.stop ≤ chunk.stop
  below : chunk.address < 2 ^ 32 → chunk.stop ≤ 2 ^ 32 → piece.address < 2 ^ 32

theorem within_self (chunk : DfuChunk) : Within chunk chunk := ⟨le_refl _, le_refl _, fun h _ => h⟩

theorem within_heldChunk (chunk : DfuChunk) : Within (heldChunk chunk) chunk := by
  refine ⟨le_refl _, ?_, fun h _ => h⟩
  simp only [DfuChunk.stop, heldChunk, List.length_take]
  omega

variable {piece : DfuChunk}

theorem within_afterHeld {chunk : DfuChunk} (h : piece ∈ afterHeld chunk) :
    Within piece chunk := by
  rw [afterHeld] at h
  split_ifs at h with hlen
  · rw [List.mem_singleton] at h
    subst h
    rw [FLASH_WORD_BYTES] at hlen
    refine ⟨Nat.le_add_right _ _, ?_, fun _ hstop => ?_⟩
    · simp only [DfuChunk.stop, List.length_drop, FLASH_WORD_BYTES]
      omega
    · simp only [DfuChunk.stop, FLASH_WORD_BYTES] at hstop ⊢
      omega
  · cases h

variable {chunks : List DfuChunk}

theorem within_of_mem_restChunks {index : ℕ} {first : DfuChunk}
    (hfirst : chunks[index]? = some first) (h : piece ∈ restChunks chunks index first) :
    ∃ chunk ∈ chunks, Within piece chunk := by
  rw [restChunks, List.append_assoc, List.mem_append, List.mem_append] at h
  rcases h with h | h | h
  · exact ⟨piece, List.mem_of_mem_take h, within_self piece⟩
  · exact ⟨first, List.mem_of_getElem? hfirst, within_afterHeld h⟩
  · exact ⟨piece, List.mem_of_mem_drop h, within_self piece⟩

theorem triple_programStep {appStart : Option ℕ} (haddress : ∀ chunk ∈ chunks, Addressable chunk)
    (hL : ReadStable L)
    (h : ∀ chunk ∈ chunks, ∀ piece, Within piece chunk → ∀ log, L log → L (log ++ [.program (some piece.address) piece.data])) :
    Triple (fun s => L s.log) (programStep dev chunks appStart) (fun _ s => L s.log)
      (fun s => L s.log) := by
  rw [programStep]
  cases hfirst : chunks[firstIndex chunks appStart]? with
  | none => exact triple_throw fun _ => id
  | some first =>
    have hpiece : ∀ chunk ∈ chunks, ∀ piece, Within piece chunk →
        Triple (fun s => L s.log) (writeChunk dev piece) (fun _ s => L s.log) (fun s => L s.log) := by
      intro chunk hchunk piece hwithin
      have hbelow := hwithin.below (haddress chunk hchunk).1 (haddress chunk hchunk).2
      refine triple_writeChunk fun log hlog => ?_
      rw [Nat.mod_eq_of_lt hbelow]
      exact ⟨h chunk hchunk piece hwithin log hlog, h chunk hchunk piece hwithin log hlog⟩
    have hmem := List.mem_of_getElem? hfirst
    have hverify : ∀ pieces : List DfuChunk, (∀ piece ∈ pieces, ∃ chunk ∈ chunks,
        Within piece chunk) → Triple (fun s => L s.log) (verifyChunks dev pieces)
          (fun _ s => L s.log) (fun s => L s.log) := by
      intro pieces hpieces
      refine (triple_verifyChunks [] (fun piece hp => ?_) hL).post fun _ _ hs => hs.1
      obtain ⟨chunk, hchunk, hwithin⟩ := hpieces piece hp
      exact hwithin.below (haddress chunk hchunk).1 (haddress chunk hchunk).2
    refine (triple_forEach_of_mem fun piece hp => ?_).bind fun _ => ?_
    · obtain ⟨chunk, hchunk, hwithin⟩ := within_of_mem_restChunks hfirst hp
      exact hpiece chunk hchunk piece hwithin
    refine (hverify _ fun piece hp => within_of_mem_restChunks hfirst hp).bind fun _ => ?_
    refine (hpiece first hmem _ (within_heldChunk first)).bind fun _ => hverify _ fun piece hp => ?_
    rw [List.mem_singleton.mp hp]
    exact ⟨first, hmem, within_heldChunk first⟩

/-! ## Both ways a flash is safe -/

theorem readStable_onlyUnlocked (memory : List DfuMemorySector) :
    ReadStable (OnlyUnlocked memory) := by
  intro log address bytes h e he sector hsector hreach
  rcases List.mem_append.mp he with he | he
  · exact h e he sector hsector hreach
  · rw [List.mem_singleton.mp he] at hreach
    exact hreach.elim

variable {memory : List DfuMemorySector}

theorem OnlyUnlocked.snoc {log : List BusEvent} {e : BusEvent} (h : OnlyUnlocked memory log)
    (he : ∀ sector ∈ memory, e.reaches sector → sector.unlocked = true) :
    OnlyUnlocked memory (log ++ [e]) := by
  intro e' he' sector hsector hreach
  rcases List.mem_append.mp he' with he' | he'
  · exact h e' he' sector hsector hreach
  · rw [List.mem_singleton.mp he'] at hreach
    exact he sector hsector hreach

variable {segments : List IntelHexSegment} {options : FlashOptions}

theorem mayErase_of_mem {kept : List ℕ} {start : ℕ}
    (h : start ∈ eraseTargets memory segments options.fullErase kept) :
    ∃ sector ∈ memory, sector.start = start ∧ MayErase segments options sector := by
  rw [eraseTargets] at h
  simp only [MayErase]
  split_ifs at h ⊢ with hfull
  · obtain ⟨⟨sector, hsector, hend, hstart⟩, -⟩ := mem_fullEraseTargets.mp h
    exact ⟨sector, hsector, hstart, hend⟩
  · obtain ⟨htouched, -⟩ := mem_touchedTargets.mp h
    obtain ⟨sector, hsector, htouch, hstart⟩ := mem_sectorsToErase.mp htouched
    exact ⟨sector, hsector, hstart, htouch⟩

theorem triple_flash_fits (hmemory : dev.memory ≠ [])
    (hfits : FitsSectors dev.memory segments dev.transferSize options) :
    Triple (fun s => OnlyUnlocked dev.memory s.log) (flash dev segments options)
      (fun _ s => OnlyUnlocked dev.memory s.log) (fun s => OnlyUnlocked dev.memory s.log) := by
  have hread := readStable_onlyUnlocked dev.memory
  refine triple_flash_of (fun _ => id) fun _ _ _ _ => ?_
  refine (keeps_log _).clearErrorState.bind fun _ => ?_
  refine ((triple_keptStep hread).post fun _ _ hs => hs.1).bind fun kept => ?_
  refine (triple_eraseStep (absurd · hmemory) fun start hstart log hlog => ?_).bind fun _ => ?_
  · obtain ⟨target, htarget, rfl, hmay⟩ := mayErase_of_mem hstart
    obtain ⟨hbelow, hunlocked⟩ := hfits.erased target htarget hmay
    rw [Nat.mod_eq_of_lt hbelow]
    exact hlog.snoc fun sector hsector hreach => hunlocked sector hsector hreach
  cases hplan : planDfuChunks segments dev.transferSize with
  | none => exact triple_running fun _ => id
  | some chunks =>
    have hwritten := hfits.written chunks hplan
    refine (triple_programStep (fun chunk hchunk => ?_) hread ?_).bind fun _ => triple_leave _ _
    · exact (hwritten chunk (List.mem_of_mem_filter hchunk)).1
    · intro chunk hchunk piece hwithin log hlog
      refine hlog.snoc fun sector hsector hreach => ?_
      obtain ⟨x, hx, hxstop, hcontains⟩ := hreach
      refine (hwritten chunk (List.mem_of_mem_filter hchunk)).2 sector hsector x ?_ ?_ hcontains
      · exact hwithin.address.trans hx
      · exact lt_of_lt_of_le hxstop hwithin.stop

theorem triple_flash_refused (hmemory : dev.memory ≠ [])
    (hrefused : RefusedFirst dev.memory segments options) :
    Triple (fun s => ∀ e ∈ s.log, e.isErase = false) (flash dev segments options)
      (fun _ _ => False) (fun s => ∀ e ∈ s.log, e.isErase = false) := by
  have hread : ReadStable fun log => ∀ e ∈ log, e.isErase = false := by
    intro log address bytes h e he
    rcases List.mem_append.mp he with he | he
    · exact h e he
    · rw [List.mem_singleton.mp he]
      rfl
  refine triple_flash_of (fun _ => id) fun _ _ hsegments hblocked => ?_
  refine (keeps_log fun log => ∀ e ∈ log, e.isErase = false).clearErrorState.bind fun _ => ?_
  refine ((triple_keptStep hread).post fun _ _ hs => hs.1).bind fun kept => ?_
  rcases hrefused with hnone | ⟨hallow, hprotected⟩ | ⟨hfull, htouched⟩
  · rw [hnone] at hsegments
    cases hsegments
  · exact absurd ⟨hallow, List.length_pos_of_ne_nil hprotected⟩ hblocked
  · have hempty : sectorsToErase dev.memory segments = [] := by
      rw [List.eq_nil_iff_forall_not_mem]
      intro start hstart
      obtain ⟨sector, hsector, ⟨s, hs, htouch⟩, -⟩ := mem_sectorsToErase.mp hstart
      rw [htouched sector hsector s hs] at htouch
      cases htouch
    have herase : eraseStep dev segments options kept = Prog.throw (.error
        "Firmware image lies outside the device flash memory map — refusing to flash") := by
      rw [eraseStep, if_neg (by simp [hfull]), if_neg hmemory, if_pos hempty]
    rw [herase]
    exact Triple.bind (Q := fun _ _ => False) (triple_throw fun _ => id) fun _ _ h => h.elim

/-- The outcome of a flash of a board that nothing was sent to yet, and the log of it. -/
def flashRun (dev : DfuSeDevice δ) (segments : List IntelHexSegment) (options : FlashOptions)
    (device : δ) : Outcome DfuError Unit × Session δ :=
  flash dev segments options ⟨device, .unknown, []⟩

/-- On every board, a flash that is refused first or fits the sectors is refused or safe. -/
theorem refuses_unsafe (dev : DfuSeDevice δ) (segments : List IntelHexSegment)
    (options : FlashOptions) (device : δ) (hmemory : dev.memory ≠ [])
    (hcondition : RefusedFirst dev.memory segments options ∨
      FitsSectors dev.memory segments dev.transferSize options) :
    RefusesUnsafe dev.memory segments (flashRun dev segments options device).1
      (flashRun dev segments options device).2.log := by
  rcases hcondition with hrefused | hfits
  · have h := triple_flash_refused hmemory hrefused ⟨device, .unknown, []⟩ (by simp)
    rw [flashRun]
    revert h
    cases flash dev segments options ⟨device, .unknown, []⟩ with
    | mk outcome t =>
      cases outcome with
      | resolved value => exact False.elim
      | rejected error => exact fun h => ⟨fun ⟨e, he, herase⟩ => by simp [h e he] at herase,
          fun _ => ⟨by simp, h⟩⟩
      | running => exact fun h => ⟨fun ⟨e, he, herase⟩ => by simp [h e he] at herase,
          fun _ => ⟨by simp, h⟩⟩
  · have h := triple_flash_fits hmemory hfits ⟨device, .unknown, []⟩ (by simp [OnlyUnlocked])
    have hunlocked : OnlyUnlocked dev.memory (flashRun dev segments options device).2.log := by
      rw [flashRun]
      revert h
      cases flash dev segments options ⟨device, .unknown, []⟩ with
      | mk outcome t => cases outcome <;> exact id
    exact ⟨fun _ => ⟨hfits.mapped, hunlocked⟩, fun hnot => absurd ⟨hfits.mapped, hunlocked⟩ hnot⟩

/-! ## A protected sector erased -/

def willingBoard : DfuUsbInterface Unit where
  controlOut _ _ _ device := (.ok (), device)
  controlIn request _ length device :=
    (.ok (if request = DFU_GETSTATUS then [0, 0, 0, 0, 2, 0] else List.replicate length 0xff), device)
  sleep _ device := device
  now _ := 0

def lockedMemory : List DfuMemorySector :=
  [⟨0x08000000, 64, true, true, true⟩, ⟨0x08000040, 64, true, false, false⟩]

def lockedBoard : DfuSeDevice Unit := ⟨willingBoard, lockedMemory, 64, 8⟩

def smallImage : List IntelHexSegment := [⟨0x08000000, [1, 2, 3, 4, 5, 6, 7, 8]⟩]

theorem fitsSectors_small :
    FitsSectors lockedMemory smallImage lockedBoard.transferSize ⟨false, false⟩ := by
  have hplan : planDfuChunks smallImage lockedBoard.transferSize = some
      [⟨0x08000000, [1, 2, 3, 4, 5, 6, 7, 8] ++ List.replicate 24 0xff⟩] := by decide +kernel
  refine ⟨?_, ?_, ?_⟩
  · intro segment hsegment x v hv
    rw [List.mem_singleton.mp hsegment] at hv
    have hx := IntelHexSegment.byteAt_isSome.mp ⟨v, hv⟩
    change 0x08000000 ≤ x ∧ x < 0x08000008 at hx
    refine ⟨⟨0x08000000, 64, true, true, true⟩, by decide, contains_iff.mpr ?_⟩
    change 0x08000000 ≤ x ∧ x < 0x08000040
    omega
  · have htargets : ∀ target ∈ lockedMemory, ∀ segment ∈ smallImage,
        touches target segment = true → target.start < 2 ^ 32 ∧ ∀ sector ∈ lockedMemory,
          sector.contains target.start = true → sector.unlocked = true := by decide
    rintro target htarget ⟨segment, hsegment, htouch⟩
    exact htargets target htarget segment hsegment htouch
  · intro chunks hchunks chunk hchunk
    rw [hplan] at hchunks
    cases hchunks
    rw [List.mem_singleton.mp hchunk]
    refine ⟨by decide, fun sector hsector x _ hstop hcontains => ?_⟩
    change x < 0x08000020 at hstop
    simp only [lockedMemory, List.mem_cons, List.not_mem_nil, or_false] at hsector
    rcases hsector with rfl | rfl
    · rfl
    · rw [contains_iff] at hcontains
      change 0x08000040 ≤ x ∧ _ at hcontains
      omega

theorem small_image_safe :
    RefusesUnsafe lockedMemory smallImage (flashRun lockedBoard smallImage ⟨false, false⟩ ()).1
      (flashRun lockedBoard smallImage ⟨false, false⟩ ()).2.log :=
  refuses_unsafe lockedBoard smallImage ⟨false, false⟩ () (by decide) (.inr fitsSectors_small)

/-- A full erase for an image that has no part in it erases the protected sector. -/
theorem full_erase_protected :
    ¬ RefusesUnsafe lockedMemory smallImage (flashRun lockedBoard smallImage ⟨true, false⟩ ()).1
      (flashRun lockedBoard smallImage ⟨true, false⟩ ()).2.log := by
  intro h
  have herase : BusEvent.erase 0x08000040 ∈
      (flashRun lockedBoard smallImage ⟨true, false⟩ ()).2.log := by decide +kernel
  have hunlocked := (h.erased ⟨_, herase, rfl⟩).2 _ herase
    ⟨0x08000040, 64, true, false, false⟩ (by decide)
    (show DfuMemorySector.contains _ _ = true by decide)
  exact absurd hunlocked (by decide)

end ArduConfigurator.FirmwareFlash
