import ArduConfigurator.FirmwareFlash.DfuSe

/-! # The serial bootloader client

The client drives ArduPilot's serial bootloader over a byte stream. What comes in and what the
bootloader makes of a frame is left to the line; a session only keeps the bytes that were not read
yet, with the number of writes that had begun when they arrived, and the order of what was sent and
what was taken for a reply. -/
namespace ArduConfigurator.FirmwareFlash.BootloaderClient
open Effects
set_option autoImplicit false

def INSYNC : ℕ := 0x12
def EOC : ℕ := 0x20
def OK : ℕ := 0x10
def FAILED : ℕ := 0x11
def INVALID : ℕ := 0x13
def BAD_SILICON_REV : ℕ := 0x14

def GET_SYNC : ℕ := 0x21
def CHIP_ERASE : ℕ := 0x23
def CHIP_VERIFY : ℕ := 0x24
def PROG_MULTI : ℕ := 0x27
def READ_MULTI : ℕ := 0x28
def GET_CRC : ℕ := 0x29
def REBOOT : ℕ := 0x30
def EXTF_ERASE : ℕ := 0x34
def EXTF_PROG_MULTI : ℕ := 0x35
def EXTF_GET_CRC : ℕ := 0x37

def PROG_MULTI_MAX : ℕ := 252
def READ_MULTI_MAX : ℕ := 128
def BL_REV_READBACK_VERIFY : ℕ := 2

def SYNC_TIMEOUT_MS : ℕ := 3000
def CHUNK_RESYNC_SILENCE_MS : ℕ := 200
def CHUNK_RESYNC_MAX_MS : ℕ := 3000
def CHUNK_RESYNC_FILLER : List ℕ := List.replicate 256 0
def ERASE_FALLBACK_TIMEOUT_MS : ℕ := 40000
def EXTF_ERASE_TOTAL_TIMEOUT_MS : ℕ := 60000
def EXTF_VERIFY_TIMEOUT_MS : ℕ := 10000
def EXTF_ERASE_PCT_READ_TIMEOUT_MS : ℕ := 2000

def chipEraseTimeoutMs (flashSize : Option ℕ) : ℕ :=
  match flashSize with
  | none => ERASE_FALLBACK_TIMEOUT_MS
  | some size =>
    if size = 0 then ERASE_FALLBACK_TIMEOUT_MS
    else 20000 + ((size + 1048575) / 1048576 - 2) * 4000

/-! ## The line -/

/-- What a call rejects with, an `Error` or something else. -/
structure Thrown where
  isError : Bool
  message : String
  deriving DecidableEq

def error (message : String) : Thrown := ⟨true, message⟩

def Thrown.mentions (e : Thrown) (texts : List String) : Bool :=
  e.isError && texts.any fun text =>
    decide (text.toList.map Char.toLower <:+: e.message.toList.map Char.toLower)

/-- A byte that came in, and the number of writes that had begun by then. -/
structure Inbound where
  byte : ℕ
  writes : ℕ
  deriving DecidableEq

/-- What becomes of a write: whether it resolves, whether the bootloader accepts the frame, and what
comes in meanwhile. -/
structure Written (δ : Type) where
  result : Except Thrown Unit
  accepted : Bool
  arrived : List ℕ
  line : δ

/-- What comes in while a read waits, and what it rejects with if that is not enough. -/
structure Awaited (δ : Type) where
  arrived : List ℕ
  failure : Thrown
  line : δ

/-- The byte stream and the clock, as the line and the bootloader will have them. -/
structure BootloaderSerial (δ : Type) where
  write : List ℕ → δ → Written δ
  wait : ℕ → ℕ → δ → Awaited δ
  flushInput : Option (δ → Except Thrown Unit × δ)
  now : δ → ℕ
  /-- How many turns the loops that end with the clock are followed for. -/
  turns : ℕ

inductive LinkEvent where
  | begins (unread : List ℕ) (frames : List (List ℕ))
  | wrote (frame : List ℕ) (accepted : Bool)
  | took (reply : List Inbound) (since : ℕ)
  deriving DecidableEq

/-- The line, the bytes that were not read yet, the writes so far, the writes before the command
under way, and the log. -/
structure Link (δ : Type) where
  line : δ
  input : List Inbound
  writes : ℕ
  since : ℕ
  log : List LinkEvent

abbrev Client (δ α : Type) : Type := Prog (Link δ) Thrown α

variable {δ : Type} (io : BootloaderSerial δ)

def arrivals (bytes : List ℕ) (writes : ℕ) : List Inbound := bytes.map fun byte => ⟨byte, writes⟩

def outcomeOf {α : Type} : Except Thrown α → Outcome Thrown α
  | .ok value => .resolved value
  | .error thrown => .rejected thrown

def write (frame : List ℕ) : Client δ Unit := fun s =>
  let w := io.write frame s.line
  (outcomeOf w.result,
    { s with
      line := w.line
      input := s.input ++ arrivals w.arrived (s.writes + 1)
      writes := s.writes + 1
      log := s.log ++ [.wrote frame w.accepted] })

/-- Exactly `n` bytes, or a rejection when they do not come in time. -/
def read (n timeoutMs : ℕ) : Client δ (List Inbound) := fun s =>
  let w := io.wait n timeoutMs s.line
  let input := s.input ++ arrivals w.arrived s.writes
  if n ≤ input.length then
    (.resolved (input.take n), { s with line := w.line, input := input.drop n })
  else (.rejected w.failure, { s with line := w.line, input := input })

def flushInput : Client δ Unit := fun s =>
  match io.flushInput with
  | none => (.resolved (), s)
  | some discard =>
    match discard s.line with
    | (.ok (), line) => (.resolved (), { s with line := line, input := [] })
    | (.error thrown, line) => (.rejected thrown, { s with line := line })

/-- `Date.now()`. -/
def now : Client δ ℕ := fun s => (.resolved (io.now s.line), s)

def begins (frames : List (List ℕ)) : Client δ Unit := fun s =>
  (.resolved (), { s with
    since := s.writes
    log := s.log ++ [.begins (s.input.map Inbound.byte) frames] })

def took (reply : List Inbound) : Client δ Unit := fun s =>
  (.resolved (), { s with log := s.log ++ [.took reply s.since] })

def send (frames : List (List ℕ)) : Client δ Unit := do
  begins frames
  Prog.forEach (write io) frames

def readReply (n timeoutMs : ℕ) : Client δ (List ℕ) := do
  let reply ← read io n timeoutMs
  took reply
  pure (reply.map Inbound.byte)

/-- `try` it, and nothing of its value when it rejects. -/
def attempt {α : Type} (m : Client δ α) : Client δ (Option α) :=
  Prog.catchError (do
    let value ← m
    pure (some value)) fun _ => pure none

def firstByte (bytes : List Inbound) : ℕ := (bytes.head?.map Inbound.byte).getD 0

/-! ## Acknowledgements -/

def getSync (timeoutMs : ℕ) : Client δ Unit := do
  let head ← read io 1 timeoutMs
  if firstByte head ≠ INSYNC then
    Prog.throw (error ("bootloader: expected INSYNC (0x12), got 0x" ++ toHex (firstByte head)))
  else do
    let status ← read io 1 timeoutMs
    if firstByte status = INVALID then
      Prog.throw (error "bootloader reports INVALID OPERATION")
    else if firstByte status = FAILED then
      Prog.throw (error "bootloader reports OPERATION FAILED")
    else if firstByte status = BAD_SILICON_REV then
      Prog.throw (error "bootloader: programming not supported for this silicon revision")
    else if firstByte status ≠ OK then
      Prog.throw (error ("bootloader: expected OK (0x10), got 0x" ++ toHex (firstByte status)))
    else took (head ++ status)

def sync (timeoutMs : ℕ) : Client δ Unit := do
  flushInput io
  send io [[GET_SYNC, EOC]]
  getSync io timeoutMs

def trySync : Client δ Bool := do
  let head ← attempt (read io 1 1000)
  match head with
  | none => pure false
  | some head =>
    if firstByte head ≠ INSYNC then pure false
    else do
      let status ← attempt (read io 1 1000)
      match status with
      | none => pure false
      | some status =>
        if firstByte status = BAD_SILICON_REV then
          Prog.throw (error "bootloader: programming not supported for this silicon revision")
        else if firstByte status = INVALID then
          Prog.throw (error "bootloader reports INVALID OPERATION during chip erase")
        else if firstByte status = FAILED then
          Prog.throw (error "bootloader reports chip erase FAILED")
        else if firstByte status = OK then do
          took (head ++ status)
          pure true
        else pure false

/-! ## Erasing and programming -/

def eraseLoop (deadline : ℕ) : ℕ → Client δ Unit
  | 0 => Prog.running
  | turns + 1 => do
    let time ← now io
    if time < deadline then do
      let answered ← trySync io
      if answered then pure () else eraseLoop deadline turns
    else Prog.throw (error "bootloader: timed out waiting for chip erase")

def erase (flashSize : Option ℕ) : Client δ Unit := do
  send io [[CHIP_ERASE, EOC]]
  let time ← now io
  eraseLoop io (time + chipEraseTimeoutMs flashSize) io.turns

def drainLoop (silenceMs deadline : ℕ) : ℕ → Client δ Unit
  | 0 => Prog.running
  | turns + 1 => do
    let time ← now io
    if time < deadline then do
      flushInput io
      let byte ← attempt (read io 1 silenceMs)
      match byte with
      | none => pure ()
      | some _ => drainLoop silenceMs deadline turns
    else pure ()

def drainInput (silenceMs maxMs : ℕ) : Client δ Unit := do
  let time ← now io
  drainLoop io silenceMs (time + maxMs) io.turns

def programFrame (command : ℕ) (chunk : List ℕ) : List ℕ :=
  command :: chunk.length % 256 :: (chunk ++ [EOC])

/-- Send one frame and wait for its acknowledgement; a chunk that is refused, or not answered in
time, is sent once more after a resync. -/
def programChunk (command : ℕ) (chunk : List ℕ) : Client δ Unit := do
  flushInput io
  send io [programFrame command chunk]
  (getSync io SYNC_TIMEOUT_MS).catchError fun thrown =>
    if thrown.mentions ["INVALID OPERATION", "timed out", "timeout"] then do
      write io CHUNK_RESYNC_FILLER
      drainInput io CHUNK_RESYNC_SILENCE_MS CHUNK_RESYNC_MAX_MS
      sync io SYNC_TIMEOUT_MS
      send io [programFrame command chunk]
      (getSync io SYNC_TIMEOUT_MS).catchError fun _ => Prog.throw thrown
    else Prog.throw thrown

def piecesOf (size : ℕ) (image : List ℕ) : List (List ℕ) :=
  (List.range ((image.length + size - 1) / size)).map fun k => (image.drop (k * size)).take size

def program (alignedImage : List ℕ) : Client δ Unit :=
  if alignedImage.length % 4 ≠ 0 then
    Prog.throw (error "bootloader: image must be 4-byte aligned before programming")
  else Prog.forEach (programChunk io PROG_MULTI) (piecesOf PROG_MULTI_MAX alignedImage)

def programExtflash (extfImage : List ℕ) : Client δ Unit :=
  if extfImage.length % 4 ≠ 0 then
    Prog.throw (error "bootloader: extflash image must be 4-byte aligned before programming")
  else Prog.forEach (programChunk io EXTF_PROG_MULTI) (piecesOf PROG_MULTI_MAX extfImage)

/-! ## Verifying -/

def crcBit (c : ℕ) : ℕ := if c % 2 = 1 then 0xedb88320 ^^^ (c >>> 1) else c >>> 1

def crcEntry (n : ℕ) : ℕ := crcBit^[8] n

def arduPilotCrc32 (bytes : List ℕ) (state : ℕ) : ℕ :=
  bytes.foldl (fun crc byte => crcEntry ((crc ^^^ byte) &&& 0xff) ^^^ (crc >>> 8)) state

def firmwareCrc (alignedImage : List ℕ) (flashMaxSize : ℕ) : ℕ :=
  (fun state => arduPilotCrc32 [0xff, 0xff, 0xff, 0xff] state)^[
    (flashMaxSize - alignedImage.length + 3) / 4] (arduPilotCrc32 alignedImage 0)

def verify (alignedImage : List ℕ) (flashSize : ℕ) : Client δ Unit :=
  if alignedImage.length % 4 ≠ 0 then
    Prog.throw (error "firmwareCrc: image must be 4-byte aligned before CRC")
  else do
    let expected := firmwareCrc alignedImage flashSize
    flushInput io
    send io [[GET_CRC, EOC]]
    let raw ← readReply io 4 SYNC_TIMEOUT_MS
    getSync io SYNC_TIMEOUT_MS
    if wordOf raw ≠ expected then
      Prog.throw (error ("bootloader: CRC verify failed (expected 0x" ++ toHex expected ++
        ", got 0x" ++ toHex (wordOf raw) ++ ")"))
    else pure ()

def reboot : Client δ Unit := write io [REBOOT, EOC]

def le32 (value : ℕ) : List ℕ :=
  [value % 256, value / 256 % 256, value / 65536 % 256, value / 16777216 % 256]

def eraseExtflashLoop (deadline : ℕ) : ℕ → ℕ → Client δ Unit
  | 0, _ => Prog.running
  | turns + 1, lastPct => do
    let time ← now io
    if time < deadline then
      if lastPct < 90 then do
        let pctByte ← attempt (read io 1 EXTF_ERASE_PCT_READ_TIMEOUT_MS)
        eraseExtflashLoop deadline turns ((pctByte.map firstByte).getD lastPct)
      else do
        let answered ← trySync io
        if answered then pure () else eraseExtflashLoop deadline turns lastPct
    else Prog.throw (error "bootloader: timed out waiting for extflash erase")

def eraseExtflash (sizeBytes : ℕ) : Client δ Unit :=
  if sizeBytes = 0 ∨ sizeBytes % 4 ≠ 0 then
    Prog.throw (error "bootloader: extflash size must be a positive 4-byte multiple")
  else do
    flushInput io
    send io [[EXTF_ERASE], le32 sizeBytes, [EOC]]
    getSync io SYNC_TIMEOUT_MS
    let time ← now io
    eraseExtflashLoop io (time + EXTF_ERASE_TOTAL_TIMEOUT_MS) io.turns 0

def verifyExtflash (extfImage : List ℕ) : Client δ Unit := do
  let expected := arduPilotCrc32 extfImage 0
  flushInput io
  send io [[EXTF_GET_CRC], le32 extfImage.length, [EOC]]
  let raw ← readReply io 4 EXTF_VERIFY_TIMEOUT_MS
  getSync io SYNC_TIMEOUT_MS
  if wordOf raw ≠ expected then
    Prog.throw (error ("bootloader: extflash CRC verify failed (expected 0x" ++ toHex expected ++
      ", got 0x" ++ toHex (wordOf raw) ++ ")"))
  else pure ()

def readBackPiece (offset : ℕ) (expected : List ℕ) : Client δ Unit := do
  flushInput io
  send io [[READ_MULTI], [expected.length], [EOC]]
  let got ← readReply io expected.length SYNC_TIMEOUT_MS
  getSync io SYNC_TIMEOUT_MS
  match (List.range expected.length).find? fun i => got.getD i 0 ≠ expected.getD i 0 with
  | none => pure ()
  | some i =>
    Prog.throw (error ("bootloader: verify failed at offset 0x" ++ toHex (offset + i) ++
      " (expected 0x" ++ toHex (expected.getD i 0) ++ ", got 0x" ++ toHex (got.getD i 0) ++ ")"))

def verifyByReadback (alignedImage : List ℕ) : Client δ Unit :=
  if alignedImage.length % 4 ≠ 0 then
    Prog.throw (error "bootloader: image must be 4-byte aligned before verify")
  else do
    flushInput io
    send io [[CHIP_VERIFY], [EOC]]
    getSync io SYNC_TIMEOUT_MS
    Prog.forEach (fun piece => readBackPiece io (piece.2 * READ_MULTI_MAX) piece.1)
      (piecesOf READ_MULTI_MAX alignedImage).zipIdx

/-! ## The whole flash -/

structure BoardMatch where
  firmwareBoardId : ℕ
  connectedBoardId : ℕ

/-- The reason of the refusal, if the firmware is not for the board: as the flash asks, which knows
neither the bootloader's revision nor the size of the flash here. -/
def checkBoardMatch (formatBoardId : ℕ → String) (m : BoardMatch) : Option String :=
  if m.firmwareBoardId = m.connectedBoardId then none
  else if (m.firmwareBoardId = 33 ∧ m.connectedBoardId = 9) ∨
      (m.firmwareBoardId = 9 ∧ m.connectedBoardId = 33) then none
  else some ("Refusing to flash: this firmware is built for board id " ++
    formatBoardId m.firmwareBoardId ++ ", but the connected board reports id " ++
    formatBoardId m.connectedBoardId ++ ". Download the .apj for your exact board.")

def checkImageFitsFlash (imageBytes flashSize : ℕ) : Option String :=
  if imageBytes ≤ flashSize then none
  else some ("Refusing to flash: the firmware image is " ++ toString imageBytes ++
    " bytes but the connected board reports only " ++ toString flashSize ++
    " bytes of flash. This is the wrong build for this board — download the .apj for your " ++
    "exact board.")

def refusal (formatBoardId : ℕ → String) (boardMatch : Option BoardMatch)
    (imageBytes flashSize : ℕ) : Option String :=
  match boardMatch.bind (checkBoardMatch formatBoardId) with
  | some reason => some reason
  | none => checkImageFitsFlash imageBytes flashSize

def runVerify (image : List ℕ) (flashSize : ℕ) (bootloaderRevision : Option ℕ) : Client δ Unit :=
  if bootloaderRevision = some BL_REV_READBACK_VERIFY then verifyByReadback io image
  else verify io image flashSize

def flashExternal (extfImage : List ℕ) : Client δ Unit :=
  if 0 < extfImage.length then do
    eraseExtflash io extfImage.length
    programExtflash io extfImage
    verifyExtflash io extfImage
  else pure ()

/-- Erase, program, verify and reboot, with one more pass after a verify that fails. -/
def flash (formatBoardId : ℕ → String) (image : List ℕ) (flashSize : ℕ) (extfImage : List ℕ)
    (bootloaderRevision : Option ℕ) (boardMatch : Option BoardMatch) : Client δ Unit :=
  match refusal formatBoardId boardMatch image.length flashSize with
  | some reason =>
    Prog.throw (error (reason ++ " No erase was performed; the board still has its firmware."))
  | none => do
    flashExternal io extfImage
    erase io (some flashSize)
    program io image
    (runVerify io image flashSize bootloaderRevision).catchError fun first =>
      if first.mentions ["verify failed"] then do
        erase io (some flashSize)
        program io image
        runVerify io image flashSize bootloaderRevision
      else Prog.throw first
    let _ ← attempt (reboot io)
    pure ()

end ArduConfigurator.FirmwareFlash.BootloaderClient
