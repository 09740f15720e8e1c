import ArduConfigurator.FirmwareFlash.IntelHex
import ArduConfigurator.Lib.Effects

/-! # The DfuSe client of the firmware flasher

The client drives a system bootloader over class control transfers alone. What the transfers do to
the board is left to the board; a session only keeps the order of the commands that were sent, as
the DfuSe protocol places them in the flash. -/
namespace ArduConfigurator.FirmwareFlash
open Effects
set_option autoImplicit false

def DFU_DNLOAD : ℕ := 1
def DFU_UPLOAD : ℕ := 2
def DFU_GETSTATUS : ℕ := 3
def DFU_CLRSTATUS : ℕ := 4
def DFU_ABORT : ℕ := 6

def STATE_DFU_IDLE : ℕ := 2
def STATE_DFU_DNLOAD_SYNC : ℕ := 3
def STATE_DFU_DNBUSY : ℕ := 4
def STATE_DFU_DNLOAD_IDLE : ℕ := 5
def STATE_DFU_MANIFEST_SYNC : ℕ := 6
def STATE_DFU_MANIFEST : ℕ := 7
def STATE_DFU_ERROR : ℕ := 10

def STATUS_OK : ℕ := 0

def MAX_STATUS_STALLS : ℕ := 3
def STALL_BACKOFF_MS : ℕ := 5
def MAX_CHUNK_ATTEMPTS : ℕ := 3
def FLASH_WORD_BYTES : ℕ := 32
def ERASE_WEDGED_AFTER_MS : ℕ := 10000

def DFUSE_SET_ADDRESS : ℕ := 0x21
def DFUSE_ERASE : ℕ := 0x41

structure DfuStatus where
  status : ℕ
  pollTimeoutMs : ℕ
  state : ℕ
  deriving DecidableEq

structure DfuMemorySector where
  start : ℕ
  size : ℕ
  readable : Bool
  erasable : Bool
  writable : Bool
  deriving DecidableEq

def DfuMemorySector.sectorEnd (s : DfuMemorySector) : ℕ := s.start + s.size

def DfuMemorySector.contains (s : DfuMemorySector) (x : ℕ) : Bool := s.start ≤ x ∧ x < s.sectorEnd

/-- A sector the image needs to write but the device reports as protected. -/
structure DfuProtectedSector where
  start : ℕ
  size : ℕ
  erasable : Bool
  writable : Bool
  deriving DecidableEq

inductive DfuError where
  | transfer (stall : Bool)
  | dfuState (status : DfuStatus)
  | protectedSectors (sectors : List DfuProtectedSector) (message : String)
  | error (message : String)
  | typeError
  deriving DecidableEq

def isStall : DfuError → Bool
  | .transfer stall => stall
  | _ => false

def isDfuStateError : DfuError → Bool
  | .dfuState _ => true
  | _ => false

/-- The transport and the clock: each transfer resolves or rejects, with a stall or not, as the
board will have it. -/
structure DfuUsbInterface (δ : Type) where
  controlOut : ℕ → ℕ → List ℕ → δ → Except Bool Unit × δ
  controlIn : ℕ → ℕ → ℕ → δ → Except Bool (List ℕ) × δ
  sleep : ℕ → δ → δ
  now : δ → ℕ

/-! ## The session -/

/-- A command or a read as the protocol places it in the flash, the address of a write only where it
is known. -/
inductive BusEvent where
  | erase (address : ℕ)
  | massErase
  | program (address : Option ℕ) (data : List ℕ)
  | read (address : ℕ) (bytes : List ℕ)
  deriving DecidableEq

/-- What is known of the board's address pointer: nothing, that an address was sent, or that the
board has taken it and was asked for nothing since. -/
inductive Position where
  | unknown
  | asked (address : ℕ)
  | taken (address : ℕ)

def Position.known : Position → Option ℕ
  | .taken address => some address
  | _ => none

/-- The board, its address pointer as far as it is known, and what was sent so far. -/
structure Session (δ : Type) where
  device : δ
  position : Position
  log : List BusEvent

structure DfuSeDevice (δ : Type) where
  usb : DfuUsbInterface δ
  memory : List DfuMemorySector
  transferSize : ℕ
  /-- How many turns the loops without an end of their own are followed for. -/
  turns : ℕ

def wordOf : List ℕ → ℕ
  | [] => 0
  | byte :: bytes => byte + 256 * wordOf bytes

def encodeCommand (command address : ℕ) : List ℕ :=
  [command, address % 256, address / 256 % 256, address / 65536 % 256, address / 16777216 % 256]

/-- What a download asks of the board: a command in block 0, data in the blocks from 2 on. -/
inductive Command where
  | setAddress (address : ℕ)
  | erase (address : ℕ)
  | massErase
  | program (block : ℕ) (data : List ℕ)
  | other

def decodeDownload (block : ℕ) (data : List ℕ) : Command :=
  if block = 0 then
    match data with
    | [command] => if command = DFUSE_ERASE then .massErase else .other
    | command :: address =>
      if command = DFUSE_SET_ADDRESS then .setAddress (wordOf address)
      else if command = DFUSE_ERASE then .erase (wordOf address)
      else .other
    | [] => .other
  else if block = 1 then .other
  else .program block data

def blockAddress (transferSize pointer block : ℕ) : ℕ := pointer + (block - 2) * transferSize

def Command.event (transferSize : ℕ) (pointer : Option ℕ) : Command → Option BusEvent
  | .erase address => some (.erase address)
  | .massErase => some .massErase
  | .program block data => some (.program (pointer.map (blockAddress transferSize · block)) data)
  | .setAddress _ => none
  | .other => none

def Command.position (resolved : Bool) : Command → Position
  | .setAddress address => if resolved then .asked address else .unknown
  | _ => .unknown

def isBusy (state : ℕ) : Bool :=
  state = STATE_DFU_DNBUSY ∨ state = STATE_DFU_DNLOAD_SYNC ∨ state = STATE_DFU_MANIFEST_SYNC ∨
    state = STATE_DFU_MANIFEST

def DfuStatus.isOk (status : DfuStatus) : Bool :=
  status.status = STATUS_OK ∧ status.state ≠ STATE_DFU_ERROR

def statusOf (bytes : List ℕ) : DfuStatus where
  status := bytes.getD 0 0
  pollTimeoutMs := bytes.getD 1 0 ||| (bytes.getD 2 0 <<< 8) ||| (bytes.getD 3 0 <<< 16)
  state := bytes.getD 4 0

def Position.afterStatus (bytes : List ℕ) : Position → Position
  | .asked address =>
    if bytes.length < 6 ∨ isBusy (statusOf bytes).state then .asked address
    else if (statusOf bytes).isOk then .taken address
    else .unknown
  | position => position

def Position.afterOther : Position → Position
  | .taken address => .taken address
  | _ => .unknown

abbrev Flash (δ α : Type) : Type := Prog (Session δ) DfuError α

variable {δ : Type} (dev : DfuSeDevice δ)

def outcomeOf {α : Type} : Except Bool α → Outcome DfuError α
  | .ok value => .resolved value
  | .error stall => .rejected (.transfer stall)

def Session.sent (s : Session δ) (transferSize : ℕ) (command : Command) (resolved : Bool)
    (device : δ) : Session δ where
  device := device
  position := command.position resolved
  log := s.log ++ (command.event transferSize s.position.known).toList

def controlOut (request value : ℕ) (data : List ℕ) : Flash δ Unit := fun s =>
  let (result, device) := dev.usb.controlOut request value data s.device
  (outcomeOf result,
    if request = DFU_DNLOAD then
      s.sent dev.transferSize (decodeDownload value data) result.toBool device
    else { s with device := device, position := s.position.afterOther })

def Session.received (s : Session δ) (transferSize request value length : ℕ) (bytes : List ℕ)
    (device : δ) : Session δ :=
  if request = DFU_GETSTATUS then
    { s with device := device, position := s.position.afterStatus bytes }
  else if request = DFU_UPLOAD then
    { s with
      device := device
      position := s.position.afterOther
      log := s.log ++ (s.position.known.map fun pointer =>
        .read (blockAddress transferSize pointer value) (bytes.take length)).toList }
  else { s with device := device, position := s.position.afterOther }

def controlIn (request value length : ℕ) : Flash δ (List ℕ) := fun s =>
  let (result, device) := dev.usb.controlIn request value length s.device
  (outcomeOf result,
    match result with
    | .ok bytes => s.received dev.transferSize request value length bytes device
    | .error _ =>
      if request = DFU_GETSTATUS then { s with device := device }
      else { s with device := device, position := s.position.afterOther })

def sleep (ms : ℕ) : Flash δ Unit := fun s =>
  (.resolved (), { s with device := dev.usb.sleep ms s.device })

/-- `Date.now()`. -/
def now : Flash δ ℕ := fun s => (.resolved (dev.usb.now s.device), s)

/-! ## Status and recovery -/

def getStatus : Flash δ DfuStatus := do
  let bytes ← controlIn dev DFU_GETSTATUS 0 6
  if bytes.length < 6 then Prog.throw (.error "DFU GETSTATUS returned a short response")
  else pure (statusOf bytes)

def clearStatus : Flash δ Unit := controlOut dev DFU_CLRSTATUS 0 []

def abort : Flash δ Unit := controlOut dev DFU_ABORT 0 []

def clearErrorState : Flash δ Unit := do
  let parked ← getStatus dev
  let status ← (if parked.state = STATE_DFU_ERROR then do
      clearStatus dev
      getStatus dev
    else pure parked)
  if status.state ≠ STATE_DFU_IDLE ∧ status.state ≠ STATE_DFU_DNLOAD_IDLE then abort dev
  else pure ()

def download (blockNumber : ℕ) (data : List ℕ) : Flash δ Unit :=
  controlOut dev DFU_DNLOAD blockNumber data

def getStatusTolerant : Flash δ DfuStatus :=
  Prog.retry isStall (getStatus dev) (sleep dev STALL_BACKOFF_MS) MAX_STATUS_STALLS

inductive PollKind where
  | command | erase | massErase | block
  deriving DecidableEq

def unwedged : ℕ → Flash δ DfuStatus
  | 0 => Prog.throw (.error "The board stayed busy after a sector erase and did not recover")
  | attempts + 1 => do
    clearStatus dev
    let status ← getStatusTolerant dev
    if status.state = STATE_DFU_IDLE then pure status else unwedged attempts

def unwedgeAfterErase : Flash δ DfuStatus := unwedged dev 2

def settled (status : DfuStatus) : Flash δ DfuStatus :=
  if status.isOk then pure status else Prog.throw (.dfuState status)

def pollLoop (kind : PollKind) (started : ℕ) : ℕ → ℕ → DfuStatus → Flash δ DfuStatus
  | 0, _, status => if isBusy status.state then Prog.running else settled status
  | turns + 1, waitedMs, status =>
    if isBusy status.state then do
      let time ← now dev
      let busyMs := max waitedMs (time - started)
      if kind = .erase ∧ ERASE_WEDGED_AFTER_MS ≤ busyMs ∧ status.state = STATE_DFU_DNBUSY then
        unwedgeAfterErase dev
      else do
        let wait := max status.pollTimeoutMs 1
        sleep dev wait
        let next ← getStatusTolerant dev
        pollLoop kind started turns (waitedMs + wait) next
    else settled status

def pollUntilIdle (kind : PollKind) : Flash δ DfuStatus := do
  let status ← getStatusTolerant dev
  let started ← now dev
  pollLoop dev kind started dev.turns 0 status

def recover : Flash δ Unit := do
  let status ← getStatusTolerant dev
  if status.state = STATE_DFU_ERROR then clearStatus dev
  else if status.state ≠ STATE_DFU_IDLE then abort dev
  else pure ()

/-! ## Erasing, writing and reading back -/

def setAddress (address : ℕ) : Flash δ Unit := do
  download dev 0 (encodeCommand DFUSE_SET_ADDRESS address)
  let _ ← pollUntilIdle dev .command
  pure ()

def eraseSector (address : ℕ) : Flash δ Unit :=
  Prog.retry isStall
    (do
      download dev 0 (encodeCommand DFUSE_ERASE address)
      let _ ← pollUntilIdle dev .erase
      pure ())
    (recover dev) (MAX_CHUNK_ATTEMPTS - 1)

def massErase : Flash δ Unit := do
  download dev 0 [DFUSE_ERASE]
  let _ ← pollUntilIdle dev .massErase
  pure ()

structure DfuChunk where
  address : ℕ
  data : List ℕ
  deriving DecidableEq

/-- The first `expected.length` bytes of `got` match `expected`. -/
def bytesEqual (got expected : List ℕ) : Bool :=
  expected.length ≤ got.length ∧ got.take expected.length = expected

def retryReads {α : Type} (read : Flash δ α) : Flash δ α :=
  Prog.retry isStall read (recover dev) (MAX_CHUNK_ATTEMPTS - 1)

/-- The blocks of one run of back-to-back chunks; what is left of the chunks after it. -/
def verifyBlocks (block : ℕ) : List DfuChunk → Flash δ (List DfuChunk)
  | [] => pure []
  | chunk :: rest => do
    let got ← controlIn dev DFU_UPLOAD block chunk.data.length
    if bytesEqual got chunk.data = false then
      Prog.throw (.error ("Verification failed at 0x" ++ toHex chunk.address ++
        " — flash read-back does not match the firmware image"))
    else
      match rest with
      | [] => pure []
      | next :: _ =>
        if chunk.data.length ≠ dev.transferSize ∨
            next.address ≠ chunk.address + chunk.data.length then pure rest
        else verifyBlocks (block + 1) rest

def verifyRun (chunks : List DfuChunk) : Flash δ (List DfuChunk) :=
  match chunks with
  | [] => Prog.throw .typeError
  | first :: _ => do
    abort dev
    setAddress dev first.address
    abort dev
    verifyBlocks dev 2 chunks

def verifyRuns : ℕ → List DfuChunk → Flash δ Unit
  | _, [] => pure ()
  | 0, _ :: _ => Prog.running
  | turns + 1, chunk :: chunks => do
    let rest ← retryReads dev (verifyRun dev (chunk :: chunks))
    verifyRuns turns rest

def verifyChunks (chunks : List DfuChunk) : Flash δ Unit := verifyRuns dev chunks.length chunks

def eraseSectors (starts : List ℕ) : Flash δ Unit := Prog.forEach (eraseSector dev) starts

def readBlocks (address length : ℕ) : ℕ → ℕ → ℕ → Flash δ (List ℕ)
  | 0, _, offset => if offset < length then Prog.running else pure []
  | turns + 1, block, offset =>
    if offset < length then do
      let size := min dev.transferSize (length - offset)
      let got ← controlIn dev DFU_UPLOAD block size
      if got.length < size then
        Prog.throw (.error ("DFU UPLOAD returned " ++ toString got.length ++ " of " ++
          toString size ++ " bytes at 0x" ++ toHex (address + offset)))
      else do
        let rest ← readBlocks address length turns (block + 1) (offset + dev.transferSize)
        pure (got.take size ++ rest)
    else pure []

def readRange (address length : ℕ) : Flash δ (List ℕ) := do
  abort dev
  setAddress dev address
  abort dev
  let bytes ← readBlocks dev address length dev.turns 2 0
  abort dev
  pure bytes

def writeChunk (chunk : DfuChunk) : Flash δ Unit :=
  Prog.retry (fun caught => isStall caught || isDfuStateError caught)
    (do
      setAddress dev chunk.address
      download dev 2 chunk.data
      let _ ← pollUntilIdle dev .block
      pure ())
    (recover dev) (MAX_CHUNK_ATTEMPTS - 1)

end ArduConfigurator.FirmwareFlash
