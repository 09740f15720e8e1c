import ArduConfigurator.FirmwareFlash.BootloaderReplies

/-! # The gate before the erase

A board whose flash has been erased has nothing to fall back on, so what can be refused should be
refused before: firmware of another board, an image that is too large and one that cannot be
programmed. -/
namespace ArduConfigurator.FirmwareFlash.BootloaderClient
open Effects
set_option autoImplicit false

/-! ## The board guard -/

structure BoardMatchResult where
  ok : Bool
  reason : Option String
  note : Option String

namespace BoardGuard

def PX4FMUv2_ID : ℕ := 9
def PX4FMUv3_ID : ℕ := 255
def AUAVX2_1_ID : ℕ := 33
def FMUV3_LARGE_FLASH_THRESHOLD : ℕ := 1032192
def FMUV3_LARGE_FLASH_MIN_BL_REV : ℕ := 5

def isLargeFlashFmuV2 (firmwareBoardId connectedBoardId : ℕ) (revision flashSize : Option ℕ) :
    Bool :=
  firmwareBoardId = PX4FMUv3_ID && connectedBoardId = PX4FMUv2_ID &&
    revision.any (FMUV3_LARGE_FLASH_MIN_BL_REV ≤ ·) &&
    flashSize.any (FMUV3_LARGE_FLASH_THRESHOLD < ·)

def checkBoardMatch (formatBoardId : ℕ → String) (firmwareBoardId connectedBoardId : ℕ)
    (connectedBootloaderRevision connectedFlashSize : Option ℕ) : BoardMatchResult :=
  if firmwareBoardId = connectedBoardId then ⟨true, none, none⟩
  else if (firmwareBoardId = AUAVX2_1_ID ∧ connectedBoardId = PX4FMUv2_ID) ∨
      (firmwareBoardId = PX4FMUv2_ID ∧ connectedBoardId = AUAVX2_1_ID) then
    ⟨true, none, some ("Allowing AUAV-X2.1 (33) ↔ PX4FMUv2 (9) compatibility (uploader.py compat " ++
      "table). If this is not the board you meant to flash, stop now.")⟩
  else if isLargeFlashFmuV2 firmwareBoardId connectedBoardId connectedBootloaderRevision
      connectedFlashSize then
    ⟨true, none, some ("Allowing PX4FMUv3 firmware (255) on a PX4FMUv2 board (9) with corrected " ++
      "bootloader (rev " ++ toString (connectedBootloaderRevision.getD 0) ++ " >= 5) and " ++
      toString (connectedFlashSize.getD 0) ++ "-byte flash (> " ++
      toString FMUV3_LARGE_FLASH_THRESHOLD ++ "). QGroundControl compat case.")⟩
  else
    ⟨false, some ("Refusing to flash: this firmware is built for board id " ++
      formatBoardId firmwareBoardId ++ ", but the connected board reports id " ++
      formatBoardId connectedBoardId ++ ". Download the .apj for your exact board."), none⟩

end BoardGuard

theorem checkBoardMatch_eq (formatBoardId : ℕ → String) (m : BoardMatch) :
    checkBoardMatch formatBoardId m = (BoardGuard.checkBoardMatch formatBoardId m.firmwareBoardId
      m.connectedBoardId none none).reason := by
  rw [checkBoardMatch, BoardGuard.checkBoardMatch]
  simp only [BoardGuard.isLargeFlashFmuV2, BoardGuard.AUAVX2_1_ID, BoardGuard.PX4FMUv2_ID,
    Option.any_none, Bool.and_false, Bool.false_eq_true, if_false]
  split_ifs <;> rfl

/-! ## What the gate should do -/

structure FlashCall where
  firmwareBoardId : ℕ
  connectedBoardId : ℕ
  bootloaderRevision : Option ℕ
  flashSize : ℕ
  image : List ℕ
  extfImage : List ℕ

namespace FlashCall

variable {δ : Type}

def boardMatch (call : FlashCall) : BoardMatch := ⟨call.firmwareBoardId, call.connectedBoardId⟩

/-- `flash` with these arguments, with the ids of the boards or without. -/
def flash (call : FlashCall) (io : BootloaderSerial δ) (formatBoardId : ℕ → String)
    (boardMatch : Option BoardMatch) : Client δ Unit :=
  BootloaderClient.flash io formatBoardId call.image call.flashSize call.extfImage
    call.bootloaderRevision boardMatch

/-- The guard allows the pair, with all that is known of the connected board. -/
def Allowed (call : FlashCall) (formatBoardId : ℕ → String) : Prop :=
  (BoardGuard.checkBoardMatch formatBoardId call.firmwareBoardId call.connectedBoardId
    call.bootloaderRevision (some call.flashSize)).ok = true

def Fits (call : FlashCall) : Prop := call.image.length ≤ call.flashSize

def Programmable (call : FlashCall) : Prop := call.image.length % 4 = 0

/-- The image of the external flash is not empty and cannot be programmed. -/
def ExternalUnaligned (call : FlashCall) : Prop :=
  0 < call.extfImage.length ∧ call.extfImage.length % 4 ≠ 0

def argumentErrors (call : FlashCall) (formatBoardId : ℕ → String) : List String :=
  (((refusal formatBoardId (some call.boardMatch) call.image.length call.flashSize).map
    (· ++ " No erase was performed; the board still has its firmware.")).toList) ++
  (if call.image.length % 4 ≠ 0 then
    ["bootloader: image must be 4-byte aligned before programming",
      "firmwareCrc: image must be 4-byte aligned before CRC",
      "bootloader: image must be 4-byte aligned before verify"] else []) ++
  (if 0 < call.extfImage.length ∧ call.extfImage.length % 4 ≠ 0 then
    ["bootloader: extflash size must be a positive 4-byte multiple",
      "bootloader: extflash image must be 4-byte aligned before programming"] else [])

end FlashCall

def LinkEvent.erases : LinkEvent → Prop
  | .wrote frame _ => frame = [CHIP_ERASE, EOC] ∨ frame = [EXTF_ERASE]
  | _ => False

def Erases (log : List LinkEvent) : Prop := ∃ e ∈ log, e.erases

/-- The gate on every line: an erase command only for what the guards allow, no rejection by the
arguments after one, and a pair that the board guard allows goes on as if it had not been asked. -/
structure GateHolds (formatBoardId : ℕ → String) (call : FlashCall) : Prop where
  guarded : ∀ (δ : Type) (io : BootloaderSerial δ) (line : δ) (stray : List ℕ),
    Erases (call.flash io formatBoardId (some call.boardMatch) (Link.start line stray)).2.log →
      call.Allowed formatBoardId ∧ call.Fits ∧ call.Programmable
  rejectedBefore : ∀ (δ : Type) (io : BootloaderSerial δ) (line : δ) (stray : List ℕ)
    (message : String),
    (call.flash io formatBoardId (some call.boardMatch) (Link.start line stray)).1 =
      .rejected (error message) → message ∈ call.argumentErrors formatBoardId →
      ¬ Erases (call.flash io formatBoardId (some call.boardMatch) (Link.start line stray)).2.log
  allowedPasses : call.Allowed formatBoardId → ∀ (δ : Type) (io : BootloaderSerial δ),
    call.flash io formatBoardId (some call.boardMatch) = call.flash io formatBoardId none

def FlashCall.Refused (call : FlashCall) : Prop :=
  (¬ (call.firmwareBoardId = call.connectedBoardId ∨
      (call.firmwareBoardId = 33 ∧ call.connectedBoardId = 9) ∨
      (call.firmwareBoardId = 9 ∧ call.connectedBoardId = 33))) ∨ ¬ call.Fits

/-- Firmware of an FMUv3 for an FMUv2 with a corrected bootloader and a large flash. -/
def FlashCall.LargeFlashFmuV2 (call : FlashCall) : Prop :=
  call.firmwareBoardId = 255 ∧ call.connectedBoardId = 9 ∧
    (∃ revision, call.bootloaderRevision = some revision ∧ 5 ≤ revision) ∧
    1032192 < call.flashSize

/-! ## Refusals -/

section
variable {δ : Type} {formatBoardId : ℕ → String} {call : FlashCall}

theorem checkBoardMatch_eq_none_iff : checkBoardMatch formatBoardId call.boardMatch = none ↔
    call.firmwareBoardId = call.connectedBoardId ∨
      (call.firmwareBoardId = 33 ∧ call.connectedBoardId = 9) ∨
      (call.firmwareBoardId = 9 ∧ call.connectedBoardId = 33) := by
  rw [checkBoardMatch, FlashCall.boardMatch]
  simp only
  split_ifs with hsame hcompatible
  · exact iff_of_true rfl (.inl hsame)
  · exact iff_of_true rfl (.inr hcompatible)
  · exact iff_of_false (fun h => nomatch h) fun h => h.elim hsame hcompatible

theorem refusal_eq_none_iff :
    refusal formatBoardId (some call.boardMatch) call.image.length call.flashSize = none ↔
      ¬ call.Refused := by
  rw [FlashCall.Refused, not_or, not_not, not_not, ← @checkBoardMatch_eq_none_iff formatBoardId,
    refusal, Option.bind_some]
  cases checkBoardMatch formatBoardId call.boardMatch with
  | some reason => exact iff_of_false (fun h => nomatch h) fun h => nomatch h.1
  | none =>
    rw [FlashCall.Fits]
    simp only [checkImageFitsFlash]
    split_ifs with hfits
    · exact iff_of_true rfl ⟨trivial, hfits⟩
    · exact iff_of_false (fun h => nomatch h) fun h => hfits h.2

theorem allowed_iff : call.Allowed formatBoardId ↔
    checkBoardMatch formatBoardId call.boardMatch = none ∨ call.LargeFlashFmuV2 := by
  have hlarge : BoardGuard.isLargeFlashFmuV2 call.firmwareBoardId call.connectedBoardId
      call.bootloaderRevision (some call.flashSize) = true ↔ call.LargeFlashFmuV2 := by
    simp only [BoardGuard.isLargeFlashFmuV2, Bool.and_eq_true, decide_eq_true_eq,
      Option.any_eq_true, Option.some.injEq, exists_eq_left', and_assoc]
    exact Iff.rfl
  rw [checkBoardMatch_eq_none_iff, FlashCall.Allowed, BoardGuard.checkBoardMatch]
  by_cases hsame : call.firmwareBoardId = call.connectedBoardId
  · rw [if_pos hsame]
    exact iff_of_true rfl (.inl (.inl hsame))
  rw [if_neg hsame]
  by_cases hcompatible : (call.firmwareBoardId = BoardGuard.AUAVX2_1_ID ∧
        call.connectedBoardId = BoardGuard.PX4FMUv2_ID) ∨
      (call.firmwareBoardId = BoardGuard.PX4FMUv2_ID ∧
        call.connectedBoardId = BoardGuard.AUAVX2_1_ID)
  · rw [if_pos hcompatible]
    exact iff_of_true rfl (.inl (.inr hcompatible))
  rw [if_neg hcompatible]
  by_cases hcorrected : BoardGuard.isLargeFlashFmuV2 call.firmwareBoardId call.connectedBoardId
      call.bootloaderRevision (some call.flashSize) = true
  · rw [if_pos hcorrected]
    exact iff_of_true rfl (.inr (hlarge.mp hcorrected))
  · rw [if_neg hcorrected]
    refine iff_of_false Bool.false_ne_true ?_
    rintro ((h | h) | h)
    · exact hsame h
    · exact hcompatible h
    · exact hcorrected (hlarge.mpr h)

variable {boardMatch : Option BoardMatch} {reason : String}

theorem flash_of_refusal
    (h : refusal formatBoardId boardMatch call.image.length call.flashSize = some reason)
    (io : BootloaderSerial δ) (s : Link δ) : call.flash io formatBoardId boardMatch s =
      (.rejected (error (reason ++ " No erase was performed; the board still has its firmware.")),
        s) := by
  rw [FlashCall.flash, BootloaderClient.flash, h]
  rfl

theorem flash_of_external
    (h : refusal formatBoardId boardMatch call.image.length call.flashSize = none)
    (hexternal : call.ExternalUnaligned) (io : BootloaderSerial δ) (s : Link δ) :
    call.flash io formatBoardId boardMatch s =
      (.rejected (error "bootloader: extflash size must be a positive 4-byte multiple"), s) := by
  have hfirst : flashExternal io call.extfImage s = (.rejected
      (error "bootloader: extflash size must be a positive 4-byte multiple"), s) := by
    rw [flashExternal, if_pos hexternal.1]
    refine bind_of_rejected ?_
    rw [eraseExtflash, if_pos (.inr hexternal.2)]
    rfl
  rw [FlashCall.flash, BootloaderClient.flash, h]
  exact bind_of_rejected hfirst

/-! ## A line that is gone -/

def deadSerial : BootloaderSerial Unit where
  write _ _ := ⟨.error (error "The device has been lost."), false, [], ()⟩
  wait _ _ _ := ⟨[], error "The device has been lost.", ()⟩
  flushInput := none
  now _ := 0
  turns := 0

theorem send_dead (frame : List ℕ) (frames : List (List ℕ)) (s : Link Unit) :
    ∃ t, send deadSerial (frame :: frames) s =
        (.rejected (error "The device has been lost."), t) ∧
      t.log = s.log ++ [.begins (s.input.map Inbound.byte) (frame :: frames),
        .wrote frame false] := by
  refine ⟨_, rfl, ?_⟩
  exact List.append_assoc _ _ _

theorem flash_dead (h : refusal formatBoardId boardMatch call.image.length call.flashSize = none)
    (hexternal : ¬ call.ExternalUnaligned) :
    Erases (call.flash deadSerial formatBoardId boardMatch (Link.start () [])).2.log := by
  rw [FlashCall.flash, BootloaderClient.flash, h]
  simp only
  by_cases hempty : 0 < call.extfImage.length
  · have haligned : ¬ (call.extfImage.length = 0 ∨ call.extfImage.length % 4 ≠ 0) :=
      fun hor => hor.elim (fun hzero => by omega) fun hne => hexternal ⟨hempty, hne⟩
    obtain ⟨t, hsend, hlog⟩ := send_dead [EXTF_ERASE] [le32 call.extfImage.length, [EOC]]
      (Link.start () [])
    have herase : eraseExtflash deadSerial call.extfImage.length (Link.start () []) =
        (.rejected (error "The device has been lost."), t) := by
      rw [eraseExtflash, if_neg haligned]
      exact (bind_of_resolved rfl).trans (bind_of_rejected hsend)
    have hfirst : flashExternal deadSerial call.extfImage (Link.start () []) =
        (.rejected (error "The device has been lost."), t) := by
      rw [flashExternal, if_pos hempty]
      exact bind_of_rejected herase
    rw [bind_of_rejected hfirst, hlog]
    exact ⟨_, List.mem_append_right _ (List.mem_cons_of_mem _ List.mem_cons_self), .inr rfl⟩
  · have hfirst : flashExternal deadSerial call.extfImage (Link.start () []) =
        (.resolved (), Link.start () []) := by
      rw [flashExternal, if_neg hempty]
      rfl
    obtain ⟨t, hsend, hlog⟩ := send_dead [CHIP_ERASE, EOC] [] (Link.start () [])
    have herase : erase deadSerial (some call.flashSize) (Link.start () []) =
        (.rejected (error "The device has been lost."), t) := bind_of_rejected hsend
    rw [bind_of_resolved hfirst, bind_of_rejected herase, hlog]
    exact ⟨_, List.mem_append_right _ (List.mem_cons_of_mem _ List.mem_cons_self), .inl rfl⟩

/-! ## The messages apart -/

theorem take_append_left {a : String} (b : String) {n : ℕ} (h : n ≤ a.toList.length) :
    (a ++ b).toList.take n = a.toList.take n := by
  rw [String.toList_append, List.take_append_of_le_length h]

theorem board_message (h : checkBoardMatch formatBoardId call.boardMatch = some reason)
    (more : String) :
    (reason ++ more).toList.take 22 = "Refusing to flash: thi".toList := by
  rw [checkBoardMatch] at h
  split_ifs at h
  cases h
  simp only [String.append_assoc]
  rw [take_append_left _ (by decide)]
  rfl

theorem size_message {imageBytes flashSize : ℕ}
    (h : checkImageFitsFlash imageBytes flashSize = some reason) (more : String) :
    (reason ++ more).toList.take 22 = "Refusing to flash: the".toList := by
  rw [checkImageFitsFlash] at h
  split_ifs at h
  cases h
  simp only [String.append_assoc]
  rw [take_append_left _ (by decide)]
  rfl

/-! ## The gate -/

theorem log_of_refused
    (h : refusal formatBoardId boardMatch call.image.length call.flashSize ≠ none ∨ call.ExternalUnaligned)
    (io : BootloaderSerial δ) (line : δ) (stray : List ℕ) :
    ¬ Erases (call.flash io formatBoardId boardMatch (Link.start line stray)).2.log := by
  have hsame : (call.flash io formatBoardId boardMatch (Link.start line stray)).2 =
      Link.start line stray := by
    cases hrefusal : refusal formatBoardId boardMatch call.image.length call.flashSize with
    | some reason => rw [flash_of_refusal hrefusal]
    | none =>
      rw [flash_of_external hrefusal (h.resolve_left fun hne => hne hrefusal)]
  rw [hsame]
  exact fun ⟨e, he, _⟩ => nomatch he

theorem large_refused (h : call.LargeFlashFmuV2) :
    call.flash deadSerial formatBoardId (some call.boardMatch) ≠
      call.flash deadSerial formatBoardId none := by
  intro heq
  obtain ⟨hfirmware, hconnected, -⟩ := h
  obtain ⟨reason, hreason⟩ : ∃ reason, checkBoardMatch formatBoardId call.boardMatch =
      some reason := by
    refine Option.ne_none_iff_exists'.mp fun hnone => ?_
    have hids := checkBoardMatch_eq_none_iff.mp hnone
    omega
  have hsome : refusal formatBoardId (some call.boardMatch) call.image.length call.flashSize =
      some reason := by
    rw [refusal, Option.bind_some, hreason]
  have hrun := (flash_of_refusal hsome deadSerial (Link.start () [])).symm.trans
    (congrFun heq (Link.start () []))
  have hboard := board_message hreason " No erase was performed; the board still has its firmware."
  cases hsize : checkImageFitsFlash call.image.length call.flashSize with
  | some sizeReason =>
    have hnone : refusal formatBoardId none call.image.length call.flashSize =
        some sizeReason := hsize
    rw [flash_of_refusal hnone, Prod.mk.injEq, Outcome.rejected.injEq, error, error,
      Thrown.mk.injEq] at hrun
    have hother := size_message hsize " No erase was performed; the board still has its firmware."
    rw [← hrun.1.2, hboard] at hother
    exact absurd hother (by decide)
  | none =>
    have hnone : refusal formatBoardId none call.image.length call.flashSize = none := hsize
    by_cases hexternal : call.ExternalUnaligned
    · rw [flash_of_external hnone hexternal, Prod.mk.injEq, Outcome.rejected.injEq, error, error,
        Thrown.mk.injEq] at hrun
      rw [hrun.1.2] at hboard
      exact absurd hboard (by decide)
    · obtain ⟨e, he, -⟩ := flash_dead hnone hexternal
      rw [← congrArg Prod.snd hrun] at he
      cases he

/-- The gate holds exactly when the image is programmable or something else stops the flash before
the erase, and the boards are not the pair that takes the revision and the size to allow. -/
theorem gate_holds_iff (formatBoardId : ℕ → String) (call : FlashCall) :
    GateHolds formatBoardId call ↔
      (call.Programmable ∨ call.Refused ∨ call.ExternalUnaligned) ∧ ¬ call.LargeFlashFmuV2 := by
  constructor
  · intro h
    refine ⟨?_, fun hlarge => ?_⟩
    · by_contra hnot
      rw [not_or, not_or] at hnot
      obtain ⟨hunaligned, hpassed, hexternal⟩ := hnot
      have herases := @flash_dead formatBoardId call _ (refusal_eq_none_iff.mpr hpassed) hexternal
      exact hunaligned (h.guarded Unit deadSerial () [] herases).2.2
    · exact large_refused hlarge (h.allowedPasses (allowed_iff.mpr (.inr hlarge)) Unit deadSerial)
  · rintro ⟨hstops, hlarge⟩
    have hquiet : ∀ (δ : Type) (io : BootloaderSerial δ) (line : δ) (stray : List ℕ),
        Erases (call.flash io formatBoardId (some call.boardMatch) (Link.start line stray)).2.log →
          ¬ call.Refused ∧ ¬ call.ExternalUnaligned := by
      intro δ io line stray herases
      by_contra hnot
      refine log_of_refused ?_ io line stray herases
      rw [← not_or, not_not] at hnot
      exact hnot.imp_left fun hrefused hnone => refusal_eq_none_iff.mp hnone hrefused
    refine ⟨?_, ?_, ?_⟩
    · intro δ io line stray herases
      obtain ⟨hpassed, hexternal⟩ := hquiet δ io line stray herases
      have hprogrammable := hstops.resolve_right fun h => h.elim hpassed hexternal
      rw [FlashCall.Refused, not_or, not_not, not_not] at hpassed
      exact ⟨allowed_iff.mpr (.inl (checkBoardMatch_eq_none_iff.mpr hpassed.1)), hpassed.2,
        hprogrammable⟩
    · intro δ io line stray message _ hmessage herases
      obtain ⟨hpassed, hexternal⟩ := hquiet δ io line stray herases
      have hprogrammable : call.image.length % 4 = 0 :=
        hstops.resolve_right fun h => h.elim hpassed hexternal
      rw [FlashCall.ExternalUnaligned] at hexternal
      rw [FlashCall.argumentErrors, refusal_eq_none_iff.mpr hpassed,
        if_neg (not_not.mpr hprogrammable), if_neg hexternal] at hmessage
      cases hmessage
    · intro hallowed δ io
      have hnone := (allowed_iff.mp hallowed).resolve_right hlarge
      rw [FlashCall.flash, FlashCall.flash, BootloaderClient.flash, BootloaderClient.flash, refusal,
        refusal, Option.bind_some, hnone, Option.bind_none]

end

/-! ## An image of six bytes -/

def unalignedCall : FlashCall := ⟨9, 9, some 5, 1024, List.replicate 6 0, []⟩

theorem unaligned_erases : ¬ ∀ (formatBoardId : ℕ → String) (call : FlashCall),
    GateHolds formatBoardId call := by
  intro h
  have hpassed : ¬ unalignedCall.Refused := by
    rintro (hids | hfits)
    · exact hids (.inl rfl)
    · exact hfits (by rw [FlashCall.Fits]; decide)
  have herases := @flash_dead toString unalignedCall _ (refusal_eq_none_iff.mpr hpassed)
    fun hexternal => absurd hexternal.1 (by decide)
  have hprogrammable := ((h toString unalignedCall).guarded Unit deadSerial () [] herases).2.2
  exact absurd hprogrammable (by rw [FlashCall.Programmable]; decide)

end ArduConfigurator.FirmwareFlash.BootloaderClient
