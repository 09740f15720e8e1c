import ArduConfigurator.FirmwareFlash.DfuBoard
import ArduConfigurator.FirmwareFlash.IntelHexParses

/-! # A flash that goes through puts the image on the board

A flash reads back all that it writes. A byte that it does not write lies in a sector that was
compared, and such a sector is left alone only when it holds what the image puts there. -/
namespace ArduConfigurator.FirmwareFlash
open Effects
set_option autoImplicit false

/-! ## Every byte is read back -/

variable {memory : List DfuMemorySector} {segments : List IntelHexSegment} {transferSize : ℕ}
  {chunks : List DfuChunk} {δ : Type} {dev : DfuSeDevice δ} {view : δ → BoardView}
  {first : DfuChunk}

theorem byteAt_held {x v : ℕ} (hplan : planDfuChunks segments transferSize = some chunks)
    (hdisjoint : segments.Pairwise Disjoint) (hfirst : first ∈ chunks) (hv : ImageByte segments x v)
    (hcovers : (heldChunk first).covers x) :
    (heldChunk first).segment.byteAt x = some v := by
  obtain ⟨chunk, hchunk, hbyte⟩ := plan_byteAt hplan hv
  have hx := (within_heldChunk first).covers hcovers
  have hother := covers_of_byteAt hbyte
  have hsame : chunk = first := by
    by_contra hne
    rw [DfuChunk.covers] at hx hother
    rcases plan_apart hplan hdisjoint hchunk hfirst hne with h | h <;> omega
  subst hsame
  rcases byteAt_pieces hbyte with hheld | ⟨piece, hpiece, h⟩
  · exact hheld
  · have hafter := covers_of_byteAt h
    rw [afterHeld] at hpiece
    split_ifs at hpiece with hlong
    · rw [List.mem_singleton] at hpiece
      subst hpiece
      have hlen : (heldChunk chunk).data.length ≤ FLASH_WORD_BYTES := List.length_take_le _ _
      simp only [DfuChunk.covers, DfuChunk.stop] at hcovers hafter
      have haddress : (heldChunk chunk).address = chunk.address := rfl
      omega
    · cases hpiece

theorem triple_heldRead (hplan : planDfuChunks segments transferSize = some chunks)
    (hdisjoint : segments.Pairwise Disjoint) (hfirst : first ∈ chunks)
    (hbelow : first.address < 2 ^ 32) :
    Triple (fun s : Session δ => RestBacked memory segments (heldChunk first) s.log ∧ True)
      (do
        writeChunk dev (heldChunk first)
        verifyChunks dev [heldChunk first])
      (fun _ s => ∀ x v, ImageByte segments x v → ReadBack memory s.log x v) (fun _ => True) := by
  let L : List BusEvent → Prop := RestBacked memory segments (heldChunk first)
  have hL : ReadStable L := fun log address bytes h x v hv hnot => (h x v hv hnot).snoc id
  have hstep : ∀ log, L log → L (log ++
      [.program (some ((heldChunk first).address % 2 ^ 32)) (heldChunk first).data]) := by
    intro log h x v hv hnot
    rw [show (heldChunk first).address % 2 ^ 32 = (heldChunk first).address from
      Nat.mod_eq_of_lt hbelow]
    exact (h x v hv hnot).snoc (by rwa [touches_program])
  have hwrite : Triple (fun s => L s.log) (writeChunk dev (heldChunk first)) (fun _ s => L s.log)
      (fun s => L s.log) :=
    triple_writeChunk fun log h => ⟨hstep log h, hstep log h⟩
  have hverify : Triple _ (verifyChunks dev [heldChunk first]) _ _ :=
    triple_verifyChunks memory (fun c hc => by rwa [List.mem_singleton.mp hc]) hL
  refine (hwrite.bind fun _ => hverify).conseq (fun s hs => hs.1) (fun _ s hs x v hv => ?_)
    fun _ _ => trivial
  by_cases hcovers : (heldChunk first).covers x
  · exact hs.2 _ (List.mem_singleton.mpr rfl) x v
      (byteAt_held hplan hdisjoint hfirst hv hcovers)
  · exact (hs.1 x v hv hcovers).1

theorem triple_flash_read (options : FlashOptions)
    (hplaces : PlacesImage dev.memory segments dev.transferSize)
    (hdisjoint : segments.Pairwise Disjoint) :
    Triple (fun s => s.log = []) (flash dev segments options)
      (fun _ s => ∀ x v, ImageByte segments x v → ReadBack dev.memory s.log x v)
      (fun _ => True) := by
  refine triple_flash_staged (N := fun _ => True)
    (F := fun log => ∀ x v, ImageByte segments x v → ReadBack dev.memory log x v)
    (G := fun _ => True) hplaces hdisjoint trivial (fun _ _ _ _ => trivial) (fun _ _ _ => trivial)
    (fun _ _ => trivial) (fun _ _ => trivial) ?_ fun _ _ => trivial
  intro chunks kept first hplan hkept hfirst
  have hmem := List.mem_of_mem_filter (List.mem_of_getElem? hfirst)
  exact ⟨fun _ _ _ _ => trivial,
    triple_heldRead hplan hdisjoint hmem (hplaces.addressable chunks hplan first hmem).1⟩

def HoldsImage (segments : List IntelHexSegment) (flash : ℕ → ℕ) : Prop :=
  ∀ x v, ImageByte segments x v → flash x = v

/-- On every board that behaves as DfuSe boards do, a flash of an image that is well placed in the
sectors leaves the whole image on the board when it goes through. -/
theorem flash_correct (dev : DfuSeDevice δ) (view : δ → BoardView) (image : FlashImage)
    (options : FlashOptions) (device : δ) (hconforms : Conforms dev view)
    (hplaces : PlacesImage dev.memory image.segments dev.transferSize)
    (hresolved : (flashRun dev image.segments options device).1 = .resolved ()) :
    HoldsImage image.segments
      (view (flashRun dev image.segments options device).2.device).flash := by
  have hread := triple_flash_read options hplaces image.disjoint
    ⟨device, .unknown, []⟩ rfl
  have hsound := (carries_sound hconforms).flash image.segments options ⟨device, .unknown, []⟩
    ⟨nofun, nofun, fun x v ⟨before, address, bytes, after, h, _⟩ => by simp at h⟩
  rw [flashRun] at hresolved ⊢
  revert hread hsound hresolved
  cases flash dev image.segments options ⟨device, .unknown, []⟩ with
  | mk outcome t =>
    cases outcome with
    | resolved value => exact fun _ hread hsound x v hv => (hsound.read x v (hread x v hv)).2
    | rejected error => exact fun h => by cases h
    | running => exact fun h => by cases h

/-! ## A board that does what it is told -/

def BusEvent.apply (memory : List DfuMemorySector) (flash : ℕ → ℕ) : BusEvent → ℕ → ℕ
  | .erase address, x =>
    if memory.any fun sector => sector.contains address && sector.contains x then 0xff else flash x
  | .massErase, _ => 0xff
  | .program (some address) data, x => ((IntelHexSegment.mk address data).byteAt x).getD (flash x)
  | .program none _, x => flash x
  | .read _ _, x => flash x

theorem apply_of_not_touches {flash : ℕ → ℕ} {e : BusEvent} {x : ℕ}
    (h : ¬ e.touches memory x) : e.apply memory flash x = flash x := by
  cases e with
  | erase address =>
    rw [BusEvent.apply, if_neg]
    intro hany
    obtain ⟨sector, hsector, hcontains⟩ := List.any_eq_true.mp hany
    rw [Bool.and_eq_true] at hcontains
    exact h ⟨sector, hsector, hcontains.1, hcontains.2⟩
  | massErase => exact absurd trivial h
  | read address bytes => rfl
  | program address data =>
    cases address with
    | none => exact absurd trivial h
    | some address =>
      have hnone : (IntelHexSegment.mk address data).byteAt x = none := by
        rw [← Option.not_isSome_iff_eq_none, Option.isSome_iff_exists]
        intro hsome
        exact h (IntelHexSegment.byteAt_isSome.mp hsome)
      rw [BusEvent.apply, hnone, Option.getD_none]

def BoardView.carryOut (memory : List DfuMemorySector) (v : BoardView) : BoardView where
  flash := match v.pending with
    | some (.work event) => event.apply memory v.flash
    | _ => v.flash
  pointer := v.pointerAfter
  pending := none

theorem drops_carryOut (v : BoardView) : Drops memory v (v.carryOut memory) := by
  refine ⟨fun x hx => ?_, .inr rfl, .inr rfl⟩
  rw [BoardView.carryOut]
  cases hpending : v.pending with
  | none => rfl
  | some pending =>
    cases pending with
    | work event =>
      rw [hpending] at hx
      exact apply_of_not_touches hx
    | address address => rfl
    | other => rfl

theorem drops_self (v : BoardView) : Drops memory v v := ⟨fun _ _ => rfl, .inl rfl, .inl rfl⟩

def promptBoard (memory : List DfuMemorySector) (transferSize : ℕ) : DfuUsbInterface BoardView where
  controlOut request block data v :=
    (.ok (), if request = DFU_DNLOAD then
      { v with pending := some ((decodeDownload block data).pending transferSize v.pointer) }
    else v)
  controlIn request block length v :=
    if request = DFU_GETSTATUS then (.ok [0, 0, 0, 0, 2, 0], v.carryOut memory)
    else (.ok ((List.range length).map fun i =>
      v.flash (blockAddress transferSize v.pointer block + i)), v)
  sleep _ v := v
  now _ := 0

def promptDevice (memory : List DfuMemorySector) (transferSize : ℕ) : DfuSeDevice BoardView :=
  ⟨promptBoard memory transferSize, memory, transferSize, 8⟩

theorem promptDevice_conforms (memory : List DfuMemorySector) (transferSize : ℕ) :
    Conforms (promptDevice memory transferSize) id where
  sleep _ v := ⟨fun _ _ => rfl, .inl ⟨rfl, rfl⟩⟩
  out request block data v hrequest := by
    have hsame : (if request = DFU_DNLOAD then
        { v with pending := some ((decodeDownload block data).pending transferSize v.pointer) }
      else v) = v := if_neg hrequest
    simp only [promptDevice, promptBoard, id, hsame]
    exact drops_self v
  download block data v := ⟨fun _ _ _ => rfl, .inl rfl⟩
  statusLost v stall h := by cases h
  statusBusy v bytes h hbusy := by
    cases h
    exact absurd hbusy (by decide)
  statusDone v bytes h hdone := ⟨drops_carryOut v, rfl, fun _ => rfl⟩
  upload block length v := drops_self v
  uploaded block length v bytes htwo h hnone i hi hlen := by
    cases h
    simp [hi, promptDevice]

/-! ## An image that arrives, and one that does not -/

theorem appImage_places :
    PlacesImage (promptDevice appBoard.memory 64).memory appImage.segments
      (promptDevice appBoard.memory 64).transferSize :=
  appImage_holds.places

theorem app_image_arrives :
    HoldsImage appImage.segments (id (flashRun (promptDevice appBoard.memory 64) appImage.segments
      ⟨false, false⟩ ⟨fun _ => 0xff, 0, none⟩).2.device).flash := by
  have hresolved : (flashRun (promptDevice appBoard.memory 64) appImage.segments ⟨false, false⟩
      ⟨fun _ => 0xff, 0, none⟩).1 = .resolved () := by decide +kernel
  exact flash_correct (promptDevice appBoard.memory 64) id appImage ⟨false, false⟩
    ⟨fun _ => 0xff, 0, none⟩ (promptDevice_conforms _ _) appImage_places hresolved

/-! ## From the text of a file to the board -/

/-- What the data records of an Intel HEX text write is on the board when the flash of the parsed
image goes through. -/
theorem hex_arrives {text : List UInt16} {writes : List IntelHexSegment} {parsed : ParsedIntelHex}
    (options : FlashOptions) (device : δ) (hreads : Reads digitPair text writes)
    (hparse : parseIntelHex text = .ok parsed) (hconforms : Conforms dev view)
    (hplaces : PlacesImage dev.memory parsed.segments dev.transferSize)
    (hresolved : (flashRun dev parsed.segments options device).1 = .resolved ()) :
    HoldsImage writes (view (flashRun dev parsed.segments options device).2.device).flash := by
  have hjoins := coalesce_joins (coalesce_of_parse (reads_digitPair.mp hreads).1 hparse)
  have hdisjoint : parsed.segments.Pairwise Disjoint := hjoins.apart.imp fun h =>
    disjoint_iff.mpr (.inr (.inr (.inl (Nat.le_of_lt h))))
  have hread := triple_flash_read options hplaces hdisjoint ⟨device, .unknown, []⟩ rfl
  have hsound := (carries_sound hconforms).flash parsed.segments options ⟨device, .unknown, []⟩
    ⟨nofun, nofun, fun x v ⟨before, address, bytes, after, h, _⟩ => by simp at h⟩
  rw [flashRun] at hresolved ⊢
  revert hread hsound hresolved
  cases flash dev parsed.segments options ⟨device, .unknown, []⟩ with
  | mk outcome t =>
    cases outcome with
    | resolved value =>
      intro _ hread hsound x v hwritten
      exact (hsound.read x v (hread x v ((hjoins.bytes x v).mpr hwritten))).2
    | rejected error => exact fun h => by cases h
    | running => exact fun h => by cases h

theorem hex_arrives_app : ∃ text parsed, Reads digitPair text appImage.segments ∧
    parseIntelHex text = .ok parsed ∧
      HoldsImage appImage.segments (id (flashRun (promptDevice appBoard.memory 64) parsed.segments
        ⟨false, false⟩ ⟨fun _ => 0xff, 0, none⟩).2.device).flash := by
  have hwritable : ∀ w ∈ appImage.segments, Writable w := fun w hw => by
    rw [List.mem_singleton.mp hw]
    exact ⟨by decide, by decide, by decide⟩
  obtain ⟨text, hreads⟩ := exists_text hwritable
  obtain ⟨parsed, hcoalesce, hparse⟩ :=
    parse_of_clear (reads_digitPair.mp hreads).1 (List.pairwise_singleton _ _)
  have himage : coalesce appImage.segments =
    .ok ⟨appImage.segments, 0x08000000, 0x08000028, 40⟩ := by decide +kernel
  have hsegments : parsed.segments = appImage.segments := by
    rw [← Except.ok.inj (himage.symm.trans hcoalesce)]
  refine ⟨text, parsed, hreads, hparse, hex_arrives ⟨false, false⟩ ⟨fun _ => 0xff, 0, none⟩ hreads
    hparse (promptDevice_conforms appBoard.memory 64) ?_ ?_⟩
  · rw [hsegments]
    exact appImage_places
  · rw [hsegments]
    decide +kernel

/-- A bootloader and an app in one segment: the second write begins in the bootloader's sector and
ends in the app's. -/
def longImage : FlashImage where
  segments := [⟨0x08000000, List.replicate 64 0 ++ vectorTable 0x49 ++ List.replicate 56 7⟩]
  disjoint := List.pairwise_singleton _ _

def longDevice : DfuSeDevice BoardView := promptDevice cutBoard.memory 48

def bootloaderOnly : BoardView := ⟨fun x => if x < 0x08000040 then 0 else 0xff, 0, none⟩

/-- The write that begins in the kept bootloader is skipped with the app's first bytes in it. -/
theorem skipped_app_lost :
    Conforms longDevice id ∧
      (flashRun longDevice longImage.segments ⟨false, false⟩ bootloaderOnly).1 = .resolved () ∧
        ¬ HoldsImage longImage.segments
          (flashRun longDevice longImage.segments ⟨false, false⟩ bootloaderOnly).2.device.flash := by
  refine ⟨promptDevice_conforms _ _, by decide +kernel, fun h => ?_⟩
  have hbyte := h 0x08000040 0 ⟨_, List.mem_singleton.mpr rfl, by decide⟩
  revert hbyte
  decide +kernel

end ArduConfigurator.FirmwareFlash
