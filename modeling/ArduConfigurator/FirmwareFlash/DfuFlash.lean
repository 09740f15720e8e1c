import ArduConfigurator.FirmwareFlash.DfuSe

/-! # Flashing an image over DfuSe

Which sectors an image needs, where its app starts, how it is cut into writes, and the flash itself:
erase, program, read back, and the app's first word last of all. -/
namespace ArduConfigurator.FirmwareFlash
open Effects
set_option autoImplicit false

/-! ## Sectors and protection -/

def touches (sector : DfuMemorySector) (segment : IntelHexSegment) : Bool :=
  sector.start < segment.endAddress ∧ segment.address < sector.sectorEnd

def findProtectedSectors (sectors : List DfuMemorySector) (segments : List IntelHexSegment) :
    List DfuProtectedSector :=
  ((sectors.filter fun sector =>
      !(sector.erasable && sector.writable) && segments.any (touches sector)).map fun sector =>
    ⟨sector.start, sector.size, sector.erasable, sector.writable⟩).insertionSort
      fun a b => a.start ≤ b.start

def toHexUpper (n : ℕ) : String := (toHex n).toUpper

def describeProtectedSectors (protectedSectors : List DfuProtectedSector) : String :=
  if protectedSectors.length = 0 then ""
  else
    toString protectedSectors.length ++
      " flash sector(s) this firmware needs are reported as protected by the board: " ++
      ", ".intercalate (protectedSectors.map fun sector =>
        "0x" ++ toHexUpper sector.start ++ " (" ++ toString ((sector.size + 512) / 1024) ++
          " KiB)") ++ ". " ++
      "This is normally STM32 option-byte write protection (nWRP) — some vendors ship boards " ++
      "with it set, which prevents writing the ArduPilot bootloader. Flashing anyway is expected " ++
      "to fail partway through the erase and can leave the board unable to boot what it had " ++
      "before. Clear the protection with the vendor tool (or STM32CubeProgrammer) before flashing."

def sectorsToErase (sectors : List DfuMemorySector) (segments : List IntelHexSegment) : List ℕ :=
  (segments.flatMap fun segment =>
    (sectors.filter fun sector => touches sector segment).map DfuMemorySector.start).dedup
    |>.insertionSort (· ≤ ·)

/-! ## The app in the image -/

def imageStart : List IntelHexSegment → ℕ
  | [] => 0
  | segment :: segments => segments.foldl (fun start s => min start s.address) segment.address

def imageEnd : List IntelHexSegment → ℕ
  | [] => 0
  | segment :: segments => segments.foldl (fun stop s => max stop s.endAddress) segment.endAddress

def readWord (segments : List IntelHexSegment) (address : ℕ) : Option ℕ :=
  (segments.find? fun segment => segment.address ≤ address ∧ address + 4 ≤ segment.endAddress).map
    fun segment => wordOf ((segment.data.drop (address - segment.address)).take 4)

def RAM_BASES : List ℕ := [0x10000000, 0x20000000, 0x24000000, 0x30000000]

def looksLikeVectorTable (segments : List IntelHexSegment) (address stop : ℕ) : Bool :=
  match readWord segments address, readWord segments (address + 4) with
  | some stack, some reset =>
    let ram := RAM_BASES.any fun base => base < stack ∧ stack ≤ base + 0x100000
    let target :=
      if 0x00200000 ≤ reset ∧ reset < 0x00400000 then reset - 0x00200000 + 0x08000000 else reset
    ram && (stack % 4 = 0) && (reset % 2 = 1) && (address < target) && (target < stop)
  | _, _ => false

/-- Where the app starts in this image: the first sector boundary past the image's start that holds
a vector table, else the image's start when that holds one. -/
def findAppStart (segments : List IntelHexSegment) (sectors : List DfuMemorySector) : Option ℕ :=
  if segments.length = 0 then none
  else
    match sectors.find? fun sector => imageStart segments < sector.start ∧
      sector.start < imageEnd segments ∧
        looksLikeVectorTable segments sector.start (imageEnd segments) with
    | some sector => some sector.start
    | none =>
      if looksLikeVectorTable segments (imageStart segments) (imageEnd segments) then
        some (imageStart segments)
      else none

/-! ## Cutting the image into writes -/

/-- Where the writes of a segment begin within it; a transfer size of zero never gets to its end. -/
def chunkOffsets (length transferSize : ℕ) : Option (List ℕ) :=
  if length = 0 then some []
  else if transferSize = 0 then none
  else some ((List.range ((length + transferSize - 1) / transferSize)).map (· * transferSize))

/-- The data of a segment's write at an offset, the last one padded with erased flash to a whole
flash word where the gap to the next segment allows. -/
def chunkData (transferSize : ℕ) (segment : IntelHexSegment) (next : Option IntelHexSegment)
    (offset : ℕ) : List ℕ :=
  let data := (segment.data.drop offset).take transferSize
  let stop := segment.address + offset + data.length
  let short := stop % FLASH_WORD_BYTES
  if segment.data.length ≤ offset + transferSize ∧ short ≠ 0 then
    let whole := min (FLASH_WORD_BYTES - short) (transferSize - data.length)
    let pad := match next with
      | some following => min whole (following.address - stop)
      | none => whole
    data ++ List.replicate pad 0xff
  else data

def segmentChunks (transferSize : ℕ) (segment : IntelHexSegment) (next : Option IntelHexSegment) :
    Option (List DfuChunk) :=
  (chunkOffsets segment.data.length transferSize).map fun offsets => offsets.map fun offset =>
    ⟨segment.address + offset, chunkData transferSize segment next offset⟩

def planSorted (transferSize : ℕ) : List IntelHexSegment → Option (List DfuChunk)
  | [] => some []
  | segment :: rest =>
    match segmentChunks transferSize segment rest.head?, planSorted transferSize rest with
    | some chunks, some more => some (chunks ++ more)
    | _, _ => none

def planDfuChunks (segments : List IntelHexSegment) (transferSize : ℕ) : Option (List DfuChunk) :=
  planSorted transferSize (segments.insertionSort byAddress)

/-! ## Sectors that already hold the image -/

def expectedByte (segments : List IntelHexSegment) (x : ℕ) : ℕ :=
  segments.foldl (fun byte segment => (segment.byteAt x).getD byte) 0xff

def expectedBytes (segments : List IntelHexSegment) (sector : DfuMemorySector) : List ℕ :=
  (List.range sector.size).map fun i => expectedByte segments (sector.start + i)

/-- The sectors whose contents are compared with the image: readable ones from the image's start up
to the app. -/
def comparedBelow (appStart : ℕ) (segments : List IntelHexSegment) (sector : DfuMemorySector) :
    Bool :=
  !(sector.start < imageStart segments ∨ appStart < sector.sectorEnd ∨ !sector.readable)

variable {δ : Type} (dev : DfuSeDevice δ)

/-- Sectors below the app that already hold exactly what the image would put there. -/
def unchangedSectorsBelow (appStart : ℕ) (segments : List IntelHexSegment) :
    List DfuMemorySector → Flash δ (List ℕ)
  | [] => pure []
  | sector :: sectors =>
    if comparedBelow appStart segments sector then do
      let actual ← retryReads dev (readRange dev sector.start sector.size)
      let kept ← unchangedSectorsBelow appStart segments sectors
      if bytesEqual actual (expectedBytes segments sector) then pure (sector.start :: kept)
      else pure kept
    else unchangedSectorsBelow appStart segments sectors

/-! ## The flash -/

structure FlashOptions where
  fullErase : Bool
  allowProtectedSectors : Bool

def checkBootloader (appStart : Option ℕ) (segments : List IntelHexSegment)
    (memory : List DfuMemorySector) : Option ℕ :=
  match appStart with
  | some start => if imageStart segments < start ∧ memory ≠ [] then some start else none
  | none => none

def keptStep (segments : List IntelHexSegment) : Flash δ (List ℕ) :=
  match checkBootloader (findAppStart segments dev.memory) segments dev.memory with
  | some start => unchangedSectorsBelow dev start segments dev.memory
  | none => pure []

def inKeptSector (memory : List DfuMemorySector) (kept : List ℕ) (address : ℕ) : Bool :=
  memory.any fun sector => kept.contains sector.start && sector.contains address

def fullEraseTargets (memory : List DfuMemorySector) (segments : List IntelHexSegment)
    (kept : List ℕ) : List ℕ :=
  (memory.filter fun sector =>
    imageStart segments < sector.sectorEnd && !kept.contains sector.start).map
      DfuMemorySector.start

def touchedTargets (memory : List DfuMemorySector) (segments : List IntelHexSegment)
    (kept : List ℕ) : List ℕ :=
  (sectorsToErase memory segments).filter fun start => !kept.contains start

def eraseStep (segments : List IntelHexSegment) (options : FlashOptions) (kept : List ℕ) :
    Flash δ Unit :=
  if options.fullErase then
    if dev.memory ≠ [] then eraseSectors dev (fullEraseTargets dev.memory segments kept)
    else massErase dev
  else if dev.memory = [] then massErase dev
  else if sectorsToErase dev.memory segments = [] then
    Prog.throw (.error
      "Firmware image lies outside the device flash memory map — refusing to flash")
  else eraseSectors dev (touchedTargets dev.memory segments kept)

/-- Which of the chunks holds the first word: the one at the app's start, or else the first. -/
def firstIndex (chunks : List DfuChunk) (appStart : Option ℕ) : ℕ :=
  (chunks.findIdx? fun chunk => some chunk.address = appStart).getD 0

def heldChunk (first : DfuChunk) : DfuChunk := ⟨first.address, first.data.take FLASH_WORD_BYTES⟩

def afterHeld (first : DfuChunk) : List DfuChunk :=
  if FLASH_WORD_BYTES < first.data.length then
    [⟨first.address + FLASH_WORD_BYTES, first.data.drop FLASH_WORD_BYTES⟩]
  else []

def restChunks (chunks : List DfuChunk) (index : ℕ) (first : DfuChunk) : List DfuChunk :=
  chunks.take index ++ afterHeld first ++ chunks.drop (index + 1)

/-- Everything but the app's first word is written and read back, and then that word. -/
def programStep (chunks : List DfuChunk) (appStart : Option ℕ) : Flash δ Unit :=
  match chunks[firstIndex chunks appStart]? with
  | none => Prog.throw .typeError
  | some first => do
    let rest := restChunks chunks (firstIndex chunks appStart) first
    Prog.forEach (writeChunk dev) rest
    verifyChunks dev rest
    writeChunk dev (heldChunk first)
    verifyChunks dev [heldChunk first]

def leave (address : ℕ) : Flash δ Unit :=
  Prog.catchError
    (do
      setAddress dev address
      download dev 0 []
      let _ ← getStatus dev
      pure ())
    fun _ => pure ()

def flash (segments : List IntelHexSegment) (options : FlashOptions) : Flash δ Unit :=
  match segments with
  | [] => Prog.throw (.error "Nothing to flash: the firmware image is empty")
  | segment :: _ =>
    let blocked := findProtectedSectors dev.memory segments
    if options.allowProtectedSectors = false ∧ 0 < blocked.length then
      Prog.throw (.protectedSectors blocked (describeProtectedSectors blocked))
    else do
      clearErrorState dev
      let kept ← keptStep dev segments
      eraseStep dev segments options kept
      match planDfuChunks segments dev.transferSize with
      | none => Prog.running
      | some chunks =>
        programStep dev (chunks.filter fun chunk => !inKeptSector dev.memory kept chunk.address)
          (findAppStart segments dev.memory)
        leave dev segment.address

end ArduConfigurator.FirmwareFlash
