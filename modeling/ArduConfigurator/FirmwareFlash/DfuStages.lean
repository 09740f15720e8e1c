import ArduConfigurator.FirmwareFlash.DfuChunks

/-! # The stages of a flash

Before the app's first word is written, every other byte of the image has been read back: it was
written before that, or it lies in a sector that was left alone. -/
namespace ArduConfigurator.FirmwareFlash
open Effects
set_option autoImplicit false

/-! ## Bytes that are on the board -/

def BusEvent.writes : BusEvent → ℕ → ℕ → Prop
  | .program (some address) data, x, v => (IntelHexSegment.mk address data).byteAt x = some v
  | _, _, _ => False

def Untouched (memory : List DfuMemorySector) (log : List BusEvent) (x : ℕ) : Prop :=
  ∀ e ∈ log, ¬ e.touches memory x

/-- The byte has been read back, and was written before that or never touched. -/
def Backed (memory : List DfuMemorySector) (log : List BusEvent) (x v : ℕ) : Prop :=
  ReadBack memory log x v ∧ ((∃ e ∈ log, e.writes x v) ∨ Untouched memory log x)

variable {memory : List DfuMemorySector}

theorem Untouched.snoc {log : List BusEvent} {x : ℕ} {e : BusEvent} (h : Untouched memory log x)
    (he : ¬ e.touches memory x) : Untouched memory (log ++ [e]) x := by
  intro e' he'
  rcases List.mem_append.mp he' with he' | he'
  · exact h e' he'
  · rwa [List.mem_singleton.mp he']

theorem Backed.snoc {log : List BusEvent} {x v : ℕ} {e : BusEvent} (h : Backed memory log x v)
    (he : ¬ e.touches memory x) : Backed memory (log ++ [e]) x v := by
  refine ⟨h.1.snoc he, ?_⟩
  rcases h.2 with ⟨w, hw, hwrites⟩ | huntouched
  · exact .inl ⟨w, List.mem_append_left _ hw, hwrites⟩
  · exact .inr (huntouched.snoc he)

def DfuChunk.covers (chunk : DfuChunk) (x : ℕ) : Prop := chunk.address ≤ x ∧ x < chunk.stop

theorem covers_of_byteAt {chunk : DfuChunk} {x v : ℕ} (h : chunk.segment.byteAt x = some v) :
    chunk.covers x :=
  IntelHexSegment.byteAt_isSome.mp ⟨v, h⟩

theorem Within.covers {piece chunk : DfuChunk} {x : ℕ} (h : Within piece chunk)
    (hx : piece.covers x) : chunk.covers x :=
  ⟨h.address.trans hx.1, lt_of_lt_of_le hx.2 h.stop⟩

theorem byteAt_pieces {chunk : DfuChunk} {x v : ℕ} (h : chunk.segment.byteAt x = some v) :
    (heldChunk chunk).segment.byteAt x = some v ∨
      ∃ piece ∈ afterHeld chunk, piece.segment.byteAt x = some v := by
  have hsplit : chunk.segment = ⟨chunk.address, chunk.data.take FLASH_WORD_BYTES ++
      chunk.data.drop FLASH_WORD_BYTES⟩ := by
    rw [List.take_append_drop]
    rfl
  rw [hsplit, byteAt_append] at h
  rcases h with h | h
  · exact .inl h
  · right
    obtain ⟨hle, hget⟩ := IntelHexSegment.byteAt_eq_some.mp h
    have hlen := (List.getElem?_eq_some_iff.mp hget).1
    rw [List.length_drop] at hlen
    have hlong : FLASH_WORD_BYTES < chunk.data.length := by omega
    rw [List.length_take, Nat.min_eq_left hlong.le] at h
    refine ⟨⟨chunk.address + FLASH_WORD_BYTES, chunk.data.drop FLASH_WORD_BYTES⟩, ?_, h⟩
    rw [afterHeld, if_pos hlong]
    exact List.mem_singleton.mpr rfl

/-! ## Sectors left alone -/

/-- A sector that is compared with the image shares no address with another one, and no other
sector begins in it. -/
structure ApartFrom (compared other : DfuMemorySector) : Prop where
  start : other.start ≠ compared.start
  outside : compared.contains other.start = false
  disjoint : ∀ x, compared.contains x = true → other.contains x = false

/-- The image and the sectors lie below the addresses a command can carry, the sectors that are
compared with the image stand apart, and no write begins in one of them with a byte of the image
beyond it. -/
structure PlacesImage (memory : List DfuMemorySector) (segments : List IntelHexSegment)
    (transferSize : ℕ) : Prop where
  addressable : ∀ chunks, planDfuChunks segments transferSize = some chunks →
    ∀ chunk ∈ chunks, Addressable chunk
  apart : ∀ start, checkBootloader (findAppStart segments memory) segments memory = some start →
    ∀ compared ∈ memory, comparedBelow start segments compared = true → ∀ other ∈ memory,
      other.start < 2 ^ 32 ∧ (other ≠ compared → ApartFrom compared other)
  whole : ∀ start, checkBootloader (findAppStart segments memory) segments memory = some start →
    ∀ compared ∈ memory, comparedBelow start segments compared = true →
      ∀ chunks, planDfuChunks segments transferSize = some chunks → ∀ chunk ∈ chunks,
        compared.contains chunk.address = true → ∀ x v, ImageByte segments x v → chunk.covers x →
          compared.contains x = true

def KeptSectors (memory : List DfuMemorySector) (segments : List IntelHexSegment)
    (kept : List ℕ) : Prop :=
  ∀ k ∈ kept, ∃ start, checkBootloader (findAppStart segments memory) segments memory = some start ∧
    ∃ sector ∈ memory, sector.start = k ∧ comparedBelow start segments sector = true

def Skipped (memory : List DfuMemorySector) (chunks : List DfuChunk) (kept : List ℕ) (x : ℕ) :
    Prop :=
  ∃ chunk ∈ chunks, inKeptSector memory kept chunk.address = true ∧ chunk.covers x

variable {segments : List IntelHexSegment} {transferSize : ℕ} {chunks : List DfuChunk}
  {kept : List ℕ}

theorem inKeptSector_iff {address : ℕ} :
    inKeptSector memory kept address = true ↔
      ∃ sector ∈ memory, sector.start ∈ kept ∧ sector.contains address = true := by
  simp [inKeptSector]

theorem Skipped.sector {x v : ℕ} (h : Skipped memory chunks kept x)
    (hplaces : PlacesImage memory segments transferSize)
    (hplan : planDfuChunks segments transferSize = some chunks)
    (hkept : KeptSectors memory segments kept) (hv : ImageByte segments x v) :
    ∃ sector ∈ memory, sector.start ∈ kept ∧ sector.start < 2 ^ 32 ∧ sector.contains x = true ∧
      ∀ other ∈ memory, other.start < 2 ^ 32 ∧ (other ≠ sector → ApartFrom sector other) := by
  obtain ⟨chunk, hchunk, hskipped, hx⟩ := h
  obtain ⟨sector, hsector, hstart, hcontains⟩ := inKeptSector_iff.mp hskipped
  obtain ⟨start, hcheck, compared, hcompared, heq, hbelow⟩ := hkept _ hstart
  have hapart := hplaces.apart start hcheck compared hcompared hbelow
  have hsame : sector = compared := by
    by_contra hne
    exact ((hapart sector hsector).2 hne).start heq.symm
  subst hsame
  exact ⟨sector, hsector, hstart, (hapart sector hsector).1,
    hplaces.whole start hcheck sector hsector hbelow chunks hplan chunk hchunk hcontains x v hv hx,
    hapart⟩

theorem Skipped.not_touched {x v target : ℕ} {fullErase : Bool}
    (h : Skipped memory chunks kept x) (hplaces : PlacesImage memory segments transferSize)
    (hplan : planDfuChunks segments transferSize = some chunks)
    (hkept : KeptSectors memory segments kept) (hv : ImageByte segments x v)
    (htarget : target ∈ eraseTargets memory segments fullErase kept) :
    ¬ (BusEvent.erase (target % 2 ^ 32)).touches memory x := by
  obtain ⟨sector, hsector, hstart, -, hx, hapart⟩ := h.sector hplaces hplan hkept hv
  obtain ⟨origin, horigin, rfl, hnot⟩ : ∃ origin ∈ memory, origin.start = target ∧
      target ∉ kept := by
    rw [eraseTargets] at htarget
    split_ifs at htarget
    · obtain ⟨⟨origin, horigin, -, heq⟩, hnot⟩ := mem_fullEraseTargets.mp htarget
      exact ⟨origin, horigin, heq, hnot⟩
    · obtain ⟨htouched, hnot⟩ := mem_touchedTargets.mp htarget
      obtain ⟨origin, horigin, -, heq⟩ := mem_sectorsToErase.mp htouched
      exact ⟨origin, horigin, heq, hnot⟩
  have horigin' : origin ≠ sector := by
    rintro rfl
    exact hnot hstart
  rw [Nat.mod_eq_of_lt (hapart origin horigin).1]
  rintro ⟨other, hother, hcontains, hxother⟩
  by_cases heq : other = sector
  · subst heq
    rw [((hapart origin horigin).2 horigin').outside] at hcontains
    cases hcontains
  · rw [((hapart other hother).2 heq).disjoint x hx] at hxother
    cases hxother

theorem Skipped.not_covered {x : ℕ} {chunk piece : DfuChunk} (h : Skipped memory chunks kept x)
    (hplan : planDfuChunks segments transferSize = some chunks)
    (hdisjoint : segments.Pairwise Disjoint)
    (hchunk : chunk ∈ chunks.filter fun chunk => !inKeptSector memory kept chunk.address)
    (hwithin : Within piece chunk) : ¬ piece.covers x := by
  intro hx
  have hcovers := hwithin.covers hx
  obtain ⟨skipped, hskipped, hin, hxskipped⟩ := h
  obtain ⟨hmem, hout⟩ := List.mem_filter.mp hchunk
  have hne : chunk ≠ skipped := by
    rintro rfl
    simp [hin] at hout
  rcases plan_apart hplan hdisjoint hmem hskipped hne with hle | hle
  · exact absurd (lt_of_lt_of_le hcovers.2 hle) (not_lt.mpr hxskipped.1)
  · exact absurd (lt_of_lt_of_le hxskipped.2 hle) (not_lt.mpr hcovers.1)

/-- Every skipped byte of the image has been read back and was not touched. -/
def KeptBacked (memory : List DfuMemorySector) (segments : List IntelHexSegment)
    (chunks : List DfuChunk) (kept : List ℕ) (log : List BusEvent) : Prop :=
  ∀ x v, ImageByte segments x v → Skipped memory chunks kept x →
    ReadBack memory log x v ∧ Untouched memory log x

theorem KeptBacked.snoc {log : List BusEvent} {e : BusEvent}
    (h : KeptBacked memory segments chunks kept log)
    (he : ∀ x v, ImageByte segments x v → Skipped memory chunks kept x → ¬ e.touches memory x) :
    KeptBacked memory segments chunks kept (log ++ [e]) :=
  fun x v hv hskipped => ⟨(h x v hv hskipped).1.snoc (he x v hv hskipped),
    (h x v hv hskipped).2.snoc (he x v hv hskipped)⟩

/-! ## Everything but the first word -/

/-- Every byte of the image that is not in the held word is on the board. -/
def RestBacked (memory : List DfuMemorySector) (segments : List IntelHexSegment)
    (held : DfuChunk) (log : List BusEvent) : Prop :=
  ∀ x v, ImageByte segments x v → ¬ held.covers x → Backed memory log x v

theorem mem_restChunks {index : ℕ} {first chunk : DfuChunk}
    (hfirst : chunks[index]? = some first) (hchunk : chunk ∈ chunks) :
    chunk = first ∨ chunk ∈ restChunks chunks index first := by
  have hsplit : chunks = chunks.take index ++ first :: chunks.drop (index + 1) := by
    obtain ⟨hlt, hget⟩ := List.getElem?_eq_some_iff.mp hfirst
    conv_lhs => rw [← List.take_append_drop index chunks, List.drop_eq_getElem_cons hlt, hget]
  rw [hsplit] at hchunk
  rcases List.mem_append.mp hchunk with h | h
  · exact .inr (by simp [restChunks, h])
  · rcases List.mem_cons.mp h with h | h
    · exact .inl h
    · exact .inr (by simp [restChunks, h])

variable {δ : Type} {dev : DfuSeDevice δ} {N F G : List BusEvent → Prop}

def writtenChunks (memory : List DfuMemorySector) (kept : List ℕ) (chunks : List DfuChunk) :
    List DfuChunk :=
  chunks.filter fun chunk => !inKeptSector memory kept chunk.address

theorem restBacked_of_pieces {first : DfuChunk} {index : ℕ} {log : List BusEvent}
    (hplan : planDfuChunks segments transferSize = some chunks)
    (hfirst : (writtenChunks memory kept chunks)[index]? = some first)
    (hkept : KeptBacked memory segments chunks kept log)
    (hwritten : ∀ piece ∈ restChunks (writtenChunks memory kept chunks) index first,
      ∀ x v, piece.segment.byteAt x = some v → ∃ e ∈ log, e.writes x v)
    (hread : ∀ piece ∈ restChunks (writtenChunks memory kept chunks) index first,
      ChunkRead memory log piece) :
    RestBacked memory segments (heldChunk first) log := by
  intro x v hv hnot
  obtain ⟨chunk, hchunk, hbyte⟩ := plan_byteAt hplan hv
  by_cases hskipped : inKeptSector memory kept chunk.address = true
  · obtain ⟨hback, huntouched⟩ := hkept x v hv ⟨chunk, hchunk, hskipped, covers_of_byteAt hbyte⟩
    exact ⟨hback, .inr huntouched⟩
  have hmem : chunk ∈ writtenChunks memory kept chunks :=
    List.mem_filter.mpr ⟨hchunk, by simpa using hskipped⟩
  have hpiece : ∃ piece ∈ restChunks (writtenChunks memory kept chunks) index first,
      piece.segment.byteAt x = some v := by
    rcases mem_restChunks hfirst hmem with rfl | hrest
    · rcases byteAt_pieces hbyte with hheld | ⟨piece, hpiece, h⟩
      · exact absurd (covers_of_byteAt hheld) hnot
      · exact ⟨piece, by simp [restChunks, hpiece], h⟩
    · exact ⟨chunk, hrest, hbyte⟩
  obtain ⟨piece, hpiece, hv'⟩ := hpiece
  exact ⟨hread piece hpiece x v hv', .inl (hwritten piece hpiece x v hv')⟩

theorem touches_program {piece : DfuChunk} {x : ℕ} :
    (BusEvent.program (some piece.address) piece.data).touches memory x ↔ piece.covers x := Iff.rfl

structure RestWritten (memory : List DfuMemorySector) (segments : List IntelHexSegment)
    (chunks : List DfuChunk) (kept : List ℕ) (pieces : List DfuChunk) (log : List BusEvent) :
    Prop where
  backed : KeptBacked memory segments chunks kept log
  written : ∀ piece ∈ pieces, ∀ x v, piece.segment.byteAt x = some v → ∃ e ∈ log, e.writes x v

theorem RestWritten.snoc {pieces : List DfuChunk} {log : List BusEvent} {e : BusEvent}
    (h : RestWritten memory segments chunks kept pieces log)
    (he : ∀ x v, ImageByte segments x v → Skipped memory chunks kept x → ¬ e.touches memory x) :
    RestWritten memory segments chunks kept pieces (log ++ [e]) := by
  refine ⟨h.backed.snoc he, fun p hp x v hv => ?_⟩
  obtain ⟨w, hw, hwrites⟩ := h.written p hp x v hv
  exact ⟨w, List.mem_append_left _ hw, hwrites⟩

section
variable {first : DfuChunk} {index : ℕ}

theorem piece_below (haddressable : ∀ chunk ∈ chunks, Addressable chunk)
    (hfirst : (writtenChunks memory kept chunks)[index]? = some first) {piece : DfuChunk}
    (hpiece : piece ∈ restChunks (writtenChunks memory kept chunks) index first) :
    piece.address < 2 ^ 32 := by
  obtain ⟨chunk, hchunk, h⟩ := within_of_mem_restChunks hfirst hpiece
  have haddress := haddressable chunk (List.mem_of_mem_filter hchunk)
  exact h.below haddress.1 haddress.2

theorem triple_writeRest (hplan : planDfuChunks segments transferSize = some chunks)
    (hdisjoint : segments.Pairwise Disjoint)
    (haddressable : ∀ chunk ∈ chunks, Addressable chunk)
    (hfirst : (writtenChunks memory kept chunks)[index]? = some first)
    (hpieces : ∀ piece ∈ restChunks (writtenChunks memory kept chunks) index first, ∀ log,
      N log → N (log ++ [.program (some piece.address) piece.data])) :
    Triple (fun s => KeptBacked memory segments chunks kept s.log ∧ N s.log)
      (Prog.forEach (writeChunk dev) (restChunks (writtenChunks memory kept chunks) index first))
      (fun _ s => RestWritten memory segments chunks kept
        (restChunks (writtenChunks memory kept chunks) index first) s.log ∧ N s.log)
      (fun s => N s.log) := by
  set rest := restChunks (writtenChunks memory kept chunks) index first with hrest
  let I : List DfuChunk → List BusEvent → Prop := fun done log =>
    RestWritten memory segments chunks kept done log ∧ N log
  have hwrite : Triple (fun s : Session δ => I [] s.log) (Prog.forEach (writeChunk dev) rest)
      (fun _ s => I rest s.log) (fun s => N s.log) := by
    refine triple_forEach (I := fun done (s : Session δ) => I done s.log) rest []
      fun before piece hprefix => ?_
    have hpiece : piece ∈ rest := hprefix.subset (by simp)
    obtain ⟨chunk, hchunk, hin⟩ := within_of_mem_restChunks hfirst hpiece
    rw [List.nil_append]
    refine (triple_writeChunk (L := I before) (M := I (before ++ [piece])) fun log hlog => ?_).conseq
      (fun _ => id) (fun _ _ => id) fun s hs => hs.2
    rw [Nat.mod_eq_of_lt (piece_below haddressable hfirst hpiece)]
    obtain ⟨hdone, hNlog⟩ := hlog
    have hkeep := hdone.snoc (e := .program (some piece.address) piece.data)
      fun x v hv hskipped => by
        rw [touches_program]
        exact hskipped.not_covered hplan hdisjoint hchunk hin
    have hNnext := hpieces piece hpiece log hNlog
    refine ⟨⟨hkeep, hNnext⟩, ⟨hkeep.backed, fun p hp x v hv => ?_⟩, hNnext⟩
    rcases List.mem_append.mp hp with hp | hp
    · exact hkeep.written p hp x v hv
    · rw [List.mem_singleton.mp hp] at hv
      exact ⟨_, List.mem_append_right _ (List.mem_singleton.mpr rfl), hv⟩
  exact hwrite.pre fun s hs => ⟨⟨hs.1, by simp⟩, hs.2⟩

theorem triple_readRest (hplan : planDfuChunks segments transferSize = some chunks)
    (haddressable : ∀ chunk ∈ chunks, Addressable chunk)
    (hfirst : (writtenChunks memory kept chunks)[index]? = some first) (hN : ReadStable N) :
    Triple (fun s => RestWritten memory segments chunks kept
        (restChunks (writtenChunks memory kept chunks) index first) s.log ∧ N s.log)
      (verifyChunks dev (restChunks (writtenChunks memory kept chunks) index first))
      (fun _ s => RestBacked memory segments (heldChunk first) s.log ∧ N s.log)
      (fun s => N s.log) := by
  have hstable : ReadStable fun log => RestWritten memory segments chunks kept
      (restChunks (writtenChunks memory kept chunks) index first) log ∧ N log :=
    fun log address bytes h => ⟨h.1.snoc fun _ _ _ _ => id, hN _ _ _ h.2⟩
  refine (triple_verifyChunks memory (fun piece hpiece => piece_below haddressable hfirst hpiece)
    hstable).conseq (fun _ => id) (fun _ s hs => ?_) fun s hs => hs.2
  exact ⟨restBacked_of_pieces hplan hfirst hs.1.1.backed hs.1.1.written hs.2, hs.1.2⟩

end

/-! ## A flash up to its last write -/

theorem triple_kept (hplaces : PlacesImage dev.memory segments dev.transferSize)
    (hplan : planDfuChunks segments dev.transferSize = some chunks)
    (hdisjoint : segments.Pairwise Disjoint) (hnil : N []) (hN : ReadStable N) :
    Triple (fun s => s.log = []) (keptStep dev segments)
      (fun kept s => KeptSectors dev.memory segments kept ∧
        KeptBacked dev.memory segments chunks kept s.log ∧ N s.log)
      (fun s => N s.log) := by
  have hstable : ReadStable fun log => (∀ x, Untouched dev.memory log x) ∧ N log :=
    fun log address bytes h => ⟨fun x => (h.1 x).snoc id, hN _ _ _ h.2⟩
  refine (triple_keptStep hstable).conseq (fun s hs => ?_) (fun kept s hs => ?_) fun s hs => hs.2
  · rw [hs]
    exact ⟨fun x e he => (List.not_mem_nil he).elim, hnil⟩
  · obtain ⟨⟨huntouched, hNlog⟩, hkept⟩ := hs
    have hsectors : KeptSectors dev.memory segments kept := fun k hk => by
      obtain ⟨start, hcheck, sector, hsector, heq, hbelow, -⟩ := hkept k hk
      exact ⟨start, hcheck, sector, hsector, heq, hbelow⟩
    refine ⟨hsectors, fun x v hv hskipped => ⟨?_, huntouched x⟩, hNlog⟩
    obtain ⟨sector, hsector, hstart, hbelow, hx, hapart⟩ :=
      hskipped.sector hplaces hplan hsectors hv
    obtain ⟨start, hcheck, compared, hcompared, heq, -, hread⟩ := hkept _ hstart
    have hsame : compared = sector := by
      by_contra hne
      exact ((hapart compared hcompared).2 hne).start heq
    subst hsame
    rw [← expectedByte_eq hdisjoint hv]
    exact hread hbelow x hx

theorem triple_programStep_cases {P X : Session δ → Prop} {Q : Unit → Session δ → Prop}
    {chunks : List DfuChunk} {appStart : Option ℕ}
    (hnone : Triple P (Prog.throw DfuError.typeError) Q X)
    (hsome : ∀ first, chunks[firstIndex chunks appStart]? = some first →
      Triple P
        (do
          Prog.forEach (writeChunk dev) (restChunks chunks (firstIndex chunks appStart) first)
          verifyChunks dev (restChunks chunks (firstIndex chunks appStart) first)
          writeChunk dev (heldChunk first)
          verifyChunks dev [heldChunk first]) Q X) :
    Triple P (programStep dev chunks appStart) Q X := by
  unfold programStep
  cases hfirst : chunks[firstIndex chunks appStart]? with
  | none => exact hnone
  | some first => exact hsome first hfirst

/-- A flash by its stages: `N` holds until the first word is about to be written, when all the
other bytes of the image are on the board; `F` holds of a flash that goes through, and `G` wherever
it stops. -/
theorem triple_flash_staged {options : FlashOptions}
    (hplaces : PlacesImage dev.memory segments dev.transferSize)
    (hdisjoint : segments.Pairwise Disjoint) (hnil : N []) (hN : ReadStable N)
    (herase : ∀ log address, N log → N (log ++ [.erase address]))
    (hmass : ∀ log, N log → N (log ++ [.massErase])) (hstop : ∀ log, N log → G log)
    (hlast : ∀ chunks kept first, planDfuChunks segments dev.transferSize = some chunks →
      KeptSectors dev.memory segments kept →
      (writtenChunks dev.memory kept chunks)[firstIndex (writtenChunks dev.memory kept chunks)
        (findAppStart segments dev.memory)]? = some first →
      (∀ piece ∈ restChunks (writtenChunks dev.memory kept chunks)
          (firstIndex (writtenChunks dev.memory kept chunks) (findAppStart segments dev.memory))
          first, ∀ log, N log → N (log ++ [.program (some piece.address) piece.data])) ∧
        Triple (fun s => RestBacked dev.memory segments (heldChunk first) s.log ∧ N s.log)
          (do
            writeChunk dev (heldChunk first)
            verifyChunks dev [heldChunk first])
          (fun _ s => F s.log) (fun s => G s.log))
    (hleave : ∀ log, F log → G log) :
    Triple (fun s => s.log = []) (flash dev segments options) (fun _ s => F s.log)
      (fun s => G s.log) := by
  have hempty : ∀ s : Session δ, s.log = [] → G s.log := fun s hs => by
    rw [hs]
    exact hstop [] hnil
  refine triple_flash_of hempty fun segment _ _ _ => ?_
  refine ((keeps_log fun log => log = []).clearErrorState.conseq (fun _ => id) (fun _ _ => id)
    hempty).bind fun _ => ?_
  cases hplan : planDfuChunks segments dev.transferSize with
  | none =>
    have hkept : Triple (fun s : Session δ => N s.log) (keptStep dev segments)
        (fun _ s => N s.log) (fun s => N s.log) :=
      (triple_keptStep hN).post fun _ _ hs => hs.1
    refine (hkept.conseq (fun s hs => by rw [hs]; exact hnil) (fun _ _ => id)
      fun s => hstop s.log).bind fun kept => ?_
    refine ((triple_eraseStep (fun _ => hmass) fun start _ log => herase log _).conseq
      (fun _ => id) (fun _ _ => id) fun s => hstop s.log).bind fun _ => ?_
    exact triple_running fun s => hstop s.log
  | some chunks =>
    refine ((triple_kept hplaces hplan hdisjoint hnil hN).conseq (fun _ => id) (fun _ _ => id)
      fun s => hstop s.log).bind fun kept => triple_of_pure fun hkept => ?_
    have heraseStep : Triple
        (fun s : Session δ => KeptBacked dev.memory segments chunks kept s.log ∧ N s.log)
        (eraseStep dev segments options kept)
        (fun _ s => KeptBacked dev.memory segments chunks kept s.log ∧ N s.log)
        (fun s => KeptBacked dev.memory segments chunks kept s.log ∧ N s.log) := by
      refine triple_eraseStep
        (L := fun log => KeptBacked dev.memory segments chunks kept log ∧ N log)
        (fun hmemory log hlog => ⟨hlog.1.snoc fun x v _ hskipped => ?_, hmass log hlog.2⟩)
        fun start hstart log hlog => ⟨hlog.1.snoc fun x v hv hskipped => ?_, herase log _ hlog.2⟩
      · obtain ⟨chunk, -, hin, -⟩ := hskipped
        obtain ⟨sector, hsector, -⟩ := inKeptSector_iff.mp hin
        rw [hmemory] at hsector
        cases hsector
      · exact hskipped.not_touched hplaces hplan hkept hv hstart
    refine (heraseStep.conseq (fun _ => id) (fun _ _ => id) fun s hs => hstop s.log hs.2).bind
      fun _ => ?_
    refine Triple.bind (Q := fun _ s => F s.log) ?_ fun _ => (triple_leave F segment.address).conseq
      (fun _ => id) (fun _ _ => id) fun s => hleave s.log
    refine triple_programStep_cases (triple_throw fun s hs => hstop s.log hs.2) fun first hfirst => ?_
    obtain ⟨hpieces, hheld⟩ := hlast chunks kept first hplan hkept hfirst
    have haddressable := hplaces.addressable chunks hplan
    refine ((triple_writeRest hplan hdisjoint haddressable hfirst hpieces).conseq
      (fun _ => id) (fun _ _ => id) fun s => hstop s.log).bind fun _ => ?_
    exact ((triple_readRest hplan haddressable hfirst hN).conseq (fun _ => id) (fun _ _ => id)
      fun s => hstop s.log).bind fun _ => hheld

end ArduConfigurator.FirmwareFlash
