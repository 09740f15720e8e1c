import ArduConfigurator.FirmwareFlash.DfuStages

/-! # The app's first word comes last

A flash that is cut off should leave the app's first word blank unless all the rest of the image is
on the board. It does when one of the writes begins with that word and no other reaches into it. -/
namespace ArduConfigurator.FirmwareFlash
open Effects
set_option autoImplicit false

/-- An image as the parser hands it on, without two segments on one address. -/
structure FlashImage where
  segments : List IntelHexSegment
  disjoint : segments.Pairwise Disjoint

def InFirstWord (appStart x : ℕ) : Prop := appStart ≤ x ∧ x < appStart + FLASH_WORD_BYTES

def BusEvent.programsWord (appStart : ℕ) : BusEvent → Prop
  | .program none _ => True
  | .program (some address) data =>
    ∃ x, address ≤ x ∧ x < address + data.length ∧ InFirstWord appStart x
  | _ => False

/-- Whenever the first word was written, all the rest of the image was on the board before. -/
def FirstWordLast (memory : List DfuMemorySector) (segments : List IntelHexSegment)
    (appStart : ℕ) (log : List BusEvent) : Prop :=
  ∀ before e after, log = before ++ e :: after → e.programsWord appStart →
    ∀ x v, ImageByte segments x v → ¬ InFirstWord appStart x → Backed memory before x v

def Beside (appStart : ℕ) (chunk : DfuChunk) : Prop :=
  chunk.stop ≤ appStart ∨ appStart + FLASH_WORD_BYTES ≤ chunk.address

/-- One of the writes begins with the first word, and the others lie beside it. -/
structure HoldsFirstWord (memory : List DfuMemorySector) (segments : List IntelHexSegment)
    (transferSize appStart : ℕ) : Prop where
  places : PlacesImage memory segments transferSize
  first : ∀ chunks, planDfuChunks segments transferSize = some chunks →
    ∃ first ∈ chunks, first.address = appStart ∧
      ∀ chunk ∈ chunks, chunk ≠ first → Beside appStart chunk

/-! ## The held chunk -/

variable {memory : List DfuMemorySector} {segments : List IntelHexSegment} {transferSize : ℕ}
  {chunks : List DfuChunk} {kept : List ℕ} {appStart : ℕ}

theorem app_not_skipped (hplaces : PlacesImage memory segments transferSize)
    (hkept : KeptSectors memory segments kept) (happ : findAppStart segments memory = some appStart) :
    inKeptSector memory kept appStart = false := by
  by_contra hskipped
  obtain ⟨sector, hsector, hstart, hcontains⟩ :=
    inKeptSector_iff.mp (Bool.eq_true_of_not_eq_false hskipped)
  obtain ⟨start, hcheck, compared, hcompared, heq, hbelow⟩ := hkept _ hstart
  have hsame : sector = compared := by
    by_contra hne
    exact (((hplaces.apart start hcheck compared hcompared hbelow) sector hsector).2 hne).start
      heq.symm
  subst hsame
  have hstart : start = appStart := by
    rw [happ, checkBootloader] at hcheck
    split_ifs at hcheck
    cases hcheck
    rfl
  subst hstart
  rw [contains_iff] at hcontains
  simp only [comparedBelow, Bool.not_eq_true', decide_eq_false_iff_not, not_or, not_lt] at hbelow
  omega

variable {found : DfuChunk}

theorem firstIndex_spec {written : List DfuChunk} {first : DfuChunk} (hmem : first ∈ written)
    (haddress : first.address = appStart)
    (hfound : written[firstIndex written (some appStart)]? = some found) :
    found.address = appStart := by
  rw [firstIndex] at hfound
  cases hidx : written.findIdx? fun chunk => decide (some chunk.address = some appStart) with
  | none =>
    have hnone := List.findIdx?_eq_none_iff.mp hidx first hmem
    simp [haddress] at hnone
  | some i =>
    rw [hidx, Option.getD_some] at hfound
    obtain ⟨hlt, hget, -⟩ := List.findIdx?_eq_some_iff_getElem.mp hidx
    obtain ⟨-, rfl⟩ := List.getElem?_eq_some_iff.mp hfound
    simpa using hget

theorem held_spec (hholds : HoldsFirstWord memory segments transferSize appStart)
    (hdisjoint : segments.Pairwise Disjoint)
    (hplan : planDfuChunks segments transferSize = some chunks)
    (hkept : KeptSectors memory segments kept) (happ : findAppStart segments memory = some appStart)
    (hfound : (writtenChunks memory kept chunks)[firstIndex (writtenChunks memory kept chunks) (some appStart)]? = some found) :
    found.address = appStart ∧
      ∀ piece ∈ restChunks (writtenChunks memory kept chunks)
        (firstIndex (writtenChunks memory kept chunks) (some appStart)) found,
          Beside appStart piece := by
  obtain ⟨first, hfirst, haddress, hbeside⟩ := hholds.first chunks hplan
  have hmem : first ∈ writtenChunks memory kept chunks :=
    List.mem_filter.mpr ⟨hfirst, by
      rw [haddress, app_not_skipped hholds.places hkept happ]
      rfl⟩
  have hat := firstIndex_spec hmem haddress hfound
  have hfoundmem := List.mem_of_mem_filter (List.mem_of_getElem? hfound)
  have hsame : found = first := by
    by_contra hne
    have hlt := plan_nonempty hplan hfoundmem
    have hpos : 0 < FLASH_WORD_BYTES := by decide
    rcases hbeside found hfoundmem hne with h | h <;> omega
  subst hsame
  refine ⟨hat, fun piece hpiece => ?_⟩
  set written := writtenChunks memory kept chunks with hwritten
  set index := firstIndex written (some appStart) with hindex
  have hpair : written.Pairwise fun a b => a.stop ≤ b.address :=
    (plan_pairwise hplan hdisjoint).sublist List.filter_sublist
  have hsplit : written = written.take index ++ found :: written.drop (index + 1) := by
    obtain ⟨hlt, hget⟩ := List.getElem?_eq_some_iff.mp hfound
    conv_lhs => rw [← List.take_append_drop index written, List.drop_eq_getElem_cons hlt, hget]
  rw [hsplit, List.pairwise_append, List.pairwise_cons] at hpair
  obtain ⟨-, ⟨hafter, -⟩, hbefore⟩ := hpair
  have hother : ∀ other ∈ written, other ≠ found → Beside appStart other := fun other ho hne =>
    hbeside other (List.mem_of_mem_filter ho) hne
  have hpos := plan_nonempty hplan hfoundmem
  rw [restChunks, List.append_assoc, List.mem_append, List.mem_append] at hpiece
  rcases hpiece with h | h | h
  · refine hother piece (List.mem_of_mem_take h) ?_
    rintro rfl
    have := hbefore piece h piece List.mem_cons_self
    omega
  · rw [afterHeld] at h
    split_ifs at h
    · rw [List.mem_singleton.mp h]
      exact .inr (by rw [hat])
    · cases h
  · refine hother piece (List.mem_of_mem_drop h) ?_
    rintro rfl
    have := hafter piece h
    omega

/-! ## The log of the first word -/

variable {log : List BusEvent}

theorem FirstWordLast.snoc {e : BusEvent} (h : FirstWordLast memory segments appStart log)
    (he : e.programsWord appStart → ∀ x v, ImageByte segments x v → ¬ InFirstWord appStart x → Backed memory log x v) :
    FirstWordLast memory segments appStart (log ++ [e]) := by
  intro before e' after heq hword x v hv hx
  rcases append_cons_eq_snoc heq.symm with ⟨rfl, rfl⟩ | ⟨rest, hlog⟩
  · exact he hword x v hv hx
  · exact h before e' rest hlog hword x v hv hx

theorem firstWordLast_of_none (h : ∀ e ∈ log, ¬ e.programsWord appStart) :
    FirstWordLast memory segments appStart log := by
  intro before e after heq hword
  exact absurd hword (h e (by rw [heq]; simp))

variable {δ : Type} {dev : DfuSeDevice δ}

theorem triple_held {held : DfuChunk} (hbelow : held.address < 2 ^ 32)
    (hheld : ∀ x, held.covers x → InFirstWord appStart x) :
    Triple (fun s => RestBacked memory segments held s.log ∧
        ∀ e ∈ s.log, ¬ e.programsWord appStart)
      (do
        writeChunk dev held
        verifyChunks dev [held])
      (fun _ s => FirstWordLast memory segments appStart s.log)
      (fun s => FirstWordLast memory segments appStart s.log) := by
  let L : List BusEvent → Prop := fun log => FirstWordLast memory segments appStart log ∧
    ∀ x v, ImageByte segments x v → ¬ InFirstWord appStart x → Backed memory log x v
  have hL : ReadStable L := fun log address bytes h =>
    ⟨h.1.snoc fun _ => h.2, fun x v hv hx => (h.2 x v hv hx).snoc id⟩
  have hstep : ∀ log, L log → L (log ++ [.program (some (held.address % 2 ^ 32)) held.data]) := by
    intro log h
    rw [Nat.mod_eq_of_lt hbelow]
    refine ⟨h.1.snoc fun _ => h.2, fun x v hv hx => (h.2 x v hv hx).snoc ?_⟩
    rw [touches_program]
    exact fun hcovers => hx (hheld x hcovers)
  have hwrite : Triple (fun s => L s.log) (writeChunk dev held) (fun _ s => L s.log)
      (fun s => L s.log) :=
    triple_writeChunk fun log h => ⟨hstep log h, hstep log h⟩
  have hverify : Triple (fun s => L s.log) (verifyChunks dev [held]) (fun _ s => L s.log)
      (fun s => L s.log) :=
    (triple_verifyChunks memory (fun c hc => by rwa [List.mem_singleton.mp hc]) hL).post
      fun _ _ hs => hs.1
  refine ((hwrite.bind fun _ => hverify).conseq (fun s hs => ?_) (fun _ s hs => hs.1)
    fun s hs => hs.1)
  exact ⟨firstWordLast_of_none hs.2, fun x v hv hx =>
    hs.1 x v hv fun hcovers => hx (hheld x hcovers)⟩

/-- On every board, and wherever it is cut off, the flash of an image whose first word is a write of
its own keeps that word for the end. -/
theorem first_word_last (dev : DfuSeDevice δ) (image : FlashImage) (options : FlashOptions)
    (device : δ) (appStart : ℕ) (happ : findAppStart image.segments dev.memory = some appStart)
    (hholds : HoldsFirstWord dev.memory image.segments dev.transferSize appStart) :
    FirstWordLast dev.memory image.segments appStart
      (flashRun dev image.segments options device).2.log := by
  have hN : ReadStable fun log => ∀ e ∈ log, ¬ e.programsWord appStart := by
    intro log address bytes h e he
    rcases List.mem_append.mp he with he | he
    · exact h e he
    · rw [List.mem_singleton.mp he]
      exact id
  have hsnoc : ∀ (log : List BusEvent) (e : BusEvent), ¬ e.programsWord appStart →
      (∀ e ∈ log, ¬ e.programsWord appStart) → ∀ e' ∈ log ++ [e], ¬ e'.programsWord appStart := by
    intro log e he h e' he'
    rcases List.mem_append.mp he' with he' | he'
    · exact h e' he'
    · rwa [List.mem_singleton.mp he']
  have hflash : Triple (fun s : Session δ => s.log = []) (flash dev image.segments options)
      (fun _ s => FirstWordLast dev.memory image.segments appStart s.log)
      (fun s => FirstWordLast dev.memory image.segments appStart s.log) := by
    refine triple_flash_staged (F := FirstWordLast dev.memory image.segments appStart)
      (G := FirstWordLast dev.memory image.segments appStart)
      (N := fun log => ∀ e ∈ log, ¬ e.programsWord appStart) hholds.places image.disjoint (by simp)
      hN (fun log address => hsnoc log _ id) (fun log => hsnoc log _ id)
      (fun log => firstWordLast_of_none) ?_ fun log => id
    intro chunks kept first hplan hkept hfirst
    rw [happ] at hfirst ⊢
    obtain ⟨hat, hpieces⟩ := held_spec hholds image.disjoint hplan hkept happ hfirst
    refine ⟨fun piece hpiece log => hsnoc log _ ?_, triple_held ?_ fun x hx => ?_⟩
    · rintro ⟨x, hx, hxstop, hword⟩
      have hstop : x < piece.stop := hxstop
      rw [InFirstWord] at hword
      rcases hpieces piece hpiece with h | h <;> omega
    · exact (hholds.places.addressable chunks hplan first
        (List.mem_of_mem_filter (List.mem_of_getElem? hfirst))).1
    · have hlen : (heldChunk first).data.length ≤ FLASH_WORD_BYTES := List.length_take_le _ _
      have hheld : (heldChunk first).address = appStart := hat
      obtain ⟨hle, hlt⟩ := hx
      rw [DfuChunk.stop] at hlt
      exact ⟨by omega, by omega⟩
  have h := hflash ⟨device, .unknown, []⟩ rfl
  rw [flashRun]
  revert h
  cases flash dev image.segments options ⟨device, .unknown, []⟩ with
  | mk outcome t => cases outcome <;> exact id

/-! ## A first word that is held, and one that is not -/

def vectorTable (reset : ℕ) : List ℕ := [0x00, 0x10, 0x00, 0x20, reset % 256, 0x00, 0x00, 0x08]

def appImage : FlashImage where
  segments := [⟨0x08000000, vectorTable 0x09 ++ List.replicate 32 7⟩]
  disjoint := List.pairwise_singleton _ _

def appBoard : DfuSeDevice Unit := ⟨willingBoard, [⟨0x08000000, 128, true, true, true⟩], 64, 8⟩

theorem appImage_holds :
    HoldsFirstWord appBoard.memory appImage.segments appBoard.transferSize 0x08000000 := by
  have hplan : planDfuChunks appImage.segments appBoard.transferSize = some
      [⟨0x08000000, vectorTable 0x09 ++ List.replicate 32 7 ++ List.replicate 24 0xff⟩] := by
    decide +kernel
  have hcheck : checkBootloader (findAppStart appImage.segments appBoard.memory) appImage.segments
      appBoard.memory = none := by decide +kernel
  refine ⟨⟨fun chunks h chunk hchunk => ?_, fun start h => ?_, fun start h => ?_⟩, fun chunks h => ?_⟩
  · rw [hplan] at h
    cases h
    rw [List.mem_singleton.mp hchunk]
    decide
  · rw [hcheck] at h
    cases h
  · rw [hcheck] at h
    cases h
  · rw [hplan] at h
    cases h
    refine ⟨_, List.mem_singleton.mpr rfl, rfl, fun chunk hchunk hne => ?_⟩
    exact absurd (List.mem_singleton.mp hchunk) hne

theorem appImage_word_last :
    FirstWordLast appBoard.memory appImage.segments 0x08000000
      (flashRun appBoard appImage.segments ⟨false, false⟩ ()).2.log :=
  first_word_last appBoard appImage ⟨false, false⟩ () 0x08000000 (by decide +kernel)
    appImage_holds

def cutImage : FlashImage where
  segments := [⟨0x08000000, List.replicate 64 0 ++ vectorTable 0x49 ++ List.replicate 8 7⟩]
  disjoint := List.pairwise_singleton _ _

def cutBoard : DfuSeDevice Unit :=
  ⟨willingBoard, [⟨0x08000000, 64, true, true, true⟩, ⟨0x08000040, 64, true, true, true⟩], 48, 8⟩

def BusEvent.reads (x v : ℕ) : BusEvent → Bool
  | .read address bytes => (IntelHexSegment.mk address bytes).byteAt x = some v
  | _ => false

theorem ReadBack.exists_reads {x v : ℕ} (h : ReadBack memory log x v) :
    ∃ e ∈ log, e.reads x v = true := by
  obtain ⟨before, address, bytes, after, rfl, hbyte, -⟩ := h
  exact ⟨.read address bytes, by simp, by simpa [BusEvent.reads] using hbyte⟩

/-- The app's first word is written while the bootloader is not yet on the board. -/
theorem cut_word_early :
    findAppStart cutImage.segments cutBoard.memory = some 0x08000040 ∧
      ¬ FirstWordLast cutBoard.memory cutImage.segments 0x08000040
        (flashRun cutBoard cutImage.segments ⟨false, false⟩ ()).2.log := by
  refine ⟨by decide +kernel, fun h => ?_⟩
  set log := (flashRun cutBoard cutImage.segments ⟨false, false⟩ ()).2.log with hlog
  have hevent : log = log.take 5 ++ BusEvent.program (some 0x08000030)
      (List.replicate 16 0 ++ vectorTable 0x49 ++ List.replicate 8 7 ++ List.replicate 16 0xff) ::
        log.drop 6 := by
    rw [hlog]
    decide +kernel
  have hbacked := h _ _ _ hevent ⟨0x08000040, by decide, by decide, by unfold InFirstWord; decide⟩
    0x08000000 0 ⟨_, List.mem_singleton.mpr rfl, by decide⟩ (by unfold InFirstWord; decide)
  obtain ⟨e, he, hreads⟩ := hbacked.1.exists_reads
  have hnone : ∀ e ∈ log.take 5, e.reads 0x08000000 0 = false := by
    rw [hlog]
    decide +kernel
  rw [hnone e he] at hreads
  cases hreads

end ArduConfigurator.FirmwareFlash
