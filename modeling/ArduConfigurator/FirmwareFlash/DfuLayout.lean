import ArduConfigurator.FirmwareFlash.DfuSe
import ArduConfigurator.Lib.DecimalText

/-! # The memory layout of a DfuSe device

A device describes its memory in the name of an interface: regions of a start address and of groups
of equal sectors. The sectors of a region follow each other, so the address of each is the sum of all
before it. -/
namespace ArduConfigurator.FirmwareFlash
set_option autoImplicit false
open DecimalText

def AT_SIGN : UInt16 := 0x40
def SLASH : UInt16 := 0x2F
def STAR : UInt16 := 0x2A

/-! ## The parser -/

/-- A sector of the parsed list, at whatever number stands for its address. -/
structure LayoutSector where
  start : ℤ
  size : ℕ
  readable : Bool
  erasable : Bool
  writable : Bool
  deriving DecidableEq

def LayoutSector.ofMemory (sector : DfuMemorySector) : LayoutSector :=
  ⟨sector.start, sector.size, sector.readable, sector.erasable, sector.writable⟩

/-- `[\sKMkm]`. -/
def isUnit (c : UInt16) : Bool :=
  isWhiteSpace c || c = 0x4B || c = 0x4D || c = 0x6B || c = 0x6D

/-- `[a-gA-G]`. -/
def isPermissionLetter (c : UInt16) : Bool := (0x61 ≤ c ∧ c ≤ 0x67) ∨ (0x41 ≤ c ∧ c ≤ 0x47)

structure SectorsMatch where
  count : Text
  size : Text
  unit : UInt16
  letter : Option UInt16

/-- `text.match(/^(\d+)\*(\d+)([\sKMkm])([a-gA-G])?/)`. -/
def matchSectors (text : Text) : Option SectorsMatch :=
  let count := text.takeWhile isDigit
  match text.dropWhile isDigit with
  | [] => none
  | star :: afterStar =>
    let size := afterStar.takeWhile isDigit
    match afterStar.dropWhile isDigit with
    | [] => none
    | unit :: rest =>
      if count ≠ [] ∧ star = STAR ∧ size ≠ [] ∧ isUnit unit = true then
        some ⟨count, size, unit, rest.head?.filter isPermissionLetter⟩
      else none

def unitFactor (unit : UInt16) : ℕ :=
  if unit = 0x4D ∨ unit = 0x6D then 0x100000
  else if unit = 0x4B ∨ unit = 0x6B then 0x400
  else 1

def permissionMask : Option UInt16 → ℕ
  | some letter =>
    let lower := if letter ≤ 0x47 then letter.toNat + 0x20 else letter.toNat
    (lower - 0x60) &&& 0x07
  | none => 0x07

structure LayoutState where
  address : ℤ
  sectors : List LayoutSector

def addSector (size mask : ℕ) (s : LayoutState) : LayoutState where
  address := s.address + size
  sectors := s.sectors ++
    [⟨s.address, size, mask &&& 0x01 ≠ 0, mask &&& 0x02 ≠ 0, mask &&& 0x04 ≠ 0⟩]

def readDefinition (s : LayoutState) (definition : Text) : LayoutState :=
  match matchSectors (trim definition) with
  | none => s
  | some found =>
    (addSector (readDigits found.size * unitFactor found.unit) (permissionMask found.letter))^[
      readDigits found.count] s

def readRegions : List Text → List LayoutSector → List LayoutSector
  | addressText :: definitions :: tokens, sectors =>
    match parseIntHex addressText with
    | none => readRegions tokens sectors
    | some address =>
      readRegions tokens
        ((definitions.splitOn COMMA).foldl readDefinition ⟨address, sectors⟩).sectors
  | _, sectors => sectors

def parseDfuSeMemoryLayout (name : Text) : List LayoutSector :=
  if name.head? ≠ some AT_SIGN then []
  else if SLASH ∉ name then []
  else
    let tokens := (((name.dropWhile (· ≠ SLASH)).splitOn SLASH).map trim).filter (· ≠ [])
    readRegions tokens []

/-! ## Descriptors -/

inductive SizeUnit
  | blank
  | byte
  | kilo
  | mega
  deriving DecidableEq

def SizeUnit.char : SizeUnit → UInt16
  | .blank => 0x20
  | .byte => 0x42
  | .kilo => 0x4B
  | .mega => 0x4D

def SizeUnit.factor : SizeUnit → ℕ
  | .blank => 1
  | .byte => 1
  | .kilo => 1024
  | .mega => 1024 * 1024

/-- So many sectors of one size: `04*016Kg`. The permissions are `a` to `g`, bits 1 to 7. -/
structure SectorGroup where
  count : Text
  size : Text
  unit : SizeUnit
  permission : Fin 7
  count_ne : count ≠ []
  count_digits : Digits count
  size_ne : size ≠ []
  size_digits : Digits size

namespace SectorGroup

def letter (g : SectorGroup) : UInt16 := UInt16.ofNat (0x61 + g.permission)

def text (g : SectorGroup) : Text := g.count ++ STAR :: (g.size ++ [g.unit.char, g.letter])

def sectorCount (g : SectorGroup) : ℕ := readDigits g.count

def sectorSize (g : SectorGroup) : ℕ := readDigits g.size * g.unit.factor

def sectors (g : SectorGroup) (address : ℕ) : List DfuMemorySector :=
  (List.range g.sectorCount).map fun i =>
    { start := address + i * g.sectorSize
      size := g.sectorSize
      readable := (g.permission + 1 : ℕ).testBit 0
      erasable := (g.permission + 1 : ℕ).testBit 1
      writable := (g.permission + 1 : ℕ).testBit 2 }

end SectorGroup

/-- What stands between two commas: a group of sectors, or something else that the parser does not
understand either. -/
inductive Definition
  | group (g : SectorGroup)
  | foreign (text : Text) (begins : ∃ c ∈ text.head?, isWhiteSpace c = false)
      (ends : ∀ c ∈ text.getLast?, isWhiteSpace c = false) (noSlash : SLASH ∉ text)
      (noComma : COMMA ∉ text) (unmatched : matchSectors text = none)
      (noGroup : ∀ g : SectorGroup, text ≠ g.text)

def Definition.text : Definition → Text
  | .group g => g.text
  | .foreign text .. => text

/-- The sectors of the definitions of a region, from an address on. What is no group takes no
room. -/
def definedSectors (address : ℕ) : List Definition → List DfuMemorySector
  | [] => []
  | .group g :: definitions =>
    g.sectors address ++ definedSectors (address + g.sectorCount * g.sectorSize) definitions
  | .foreign .. :: definitions => definedSectors address definitions

structure Region where
  address : Text
  definitions : List Definition
  address_ne : address ≠ []
  address_digits : ∀ c ∈ address, (hexDigit c).isSome = true
  definitions_ne : definitions ≠ []

namespace Region

def start (region : Region) : ℕ :=
  region.address.foldl (fun value c => value * 16 + (hexDigit c).getD 0) 0

/-- `/0x08000000/04*016Kg,01*064Kg`. -/
def text (region : Region) : Text :=
  SLASH :: 0x30 :: 0x78 :: (region.address ++
    SLASH :: [COMMA].intercalate (region.definitions.map Definition.text))

def sectors (region : Region) : List DfuMemorySector :=
  definedSectors region.start region.definitions

end Region

structure MemoryDescriptor where
  target : Text
  regions : List Region
  target_noSlash : SLASH ∉ target

namespace MemoryDescriptor

def text (d : MemoryDescriptor) : Text := AT_SIGN :: (d.target ++ d.regions.flatMap Region.text)

def sectors (d : MemoryDescriptor) : List DfuMemorySector := d.regions.flatMap Region.sectors

end MemoryDescriptor

/-! ## Tokens of a descriptor -/

def Edged (text : Text) : Prop :=
  (∃ c ∈ text.head?, isWhiteSpace c = false) ∧ ∀ c ∈ text.getLast?, isWhiteSpace c = false

variable {text : Text}

theorem Edged.ne_nil (h : Edged text) : text ≠ [] := by
  rintro rfl
  obtain ⟨⟨c, hc, _⟩, _⟩ := h
  cases hc

theorem Edged.trim (h : Edged text) : trim text = text := by
  obtain ⟨⟨c, hc, hwhite⟩, hlast⟩ := h
  refine trim_of_ends (fun c' hc' => ?_) hlast
  obtain rfl := Option.some.inj (hc.symm.trans hc')
  exact hwhite

variable {a : Text}

theorem Edged.append {b : Text} (ha : Edged a) (hb : Edged b) (c : UInt16) :
    Edged (a ++ c :: b) := by
  refine ⟨?_, ?_⟩
  · rw [List.head?_append_of_ne_nil _ ha.ne_nil]
    exact ha.1
  · rw [List.getLast?_append_cons, List.getLast?_cons_of_ne_nil hb.ne_nil]
    exact hb.2

variable {parts : List Text}

theorem edged_intercalate (c : UInt16) (hne : parts ≠ []) (h : ∀ part ∈ parts, Edged part) :
    Edged ([c].intercalate parts) := by
  induction parts with
  | nil => exact absurd rfl hne
  | cons part parts ih =>
    obtain ⟨hpart, hparts⟩ := List.forall_mem_cons.mp h
    cases parts with
    | nil => rwa [List.intercalate_singleton]
    | cons next parts =>
      rw [List.intercalate_cons_cons, List.append_assoc]
      exact hpart.append (ih (List.cons_ne_nil _ _) hparts) c

variable {c : UInt16}

theorem notMem_intercalate {d : UInt16} (hne : d ≠ c) (h : ∀ part ∈ parts, d ∉ part) :
    d ∉ [c].intercalate parts := by
  induction parts with
  | nil => exact List.not_mem_nil
  | cons part parts ih =>
    obtain ⟨hpart, hparts⟩ := List.forall_mem_cons.mp h
    cases parts with
    | nil => rwa [List.intercalate_singleton]
    | cons next parts =>
      rw [List.intercalate_cons_cons, List.mem_append, List.mem_append, List.mem_singleton]
      exact fun hmem => hmem.elim (·.elim hpart hne) (ih hparts)

theorem isWhiteSpace_of_isDigit (h : isDigit c = true) : isWhiteSpace c = false := by
  rw [isDigit_iff] at h
  exact isWhiteSpace_of_graph (by omega) (by omega)

theorem isWhiteSpace_of_hexDigit (h : (hexDigit c).isSome = true) :
    isWhiteSpace c = false := by
  rw [hexDigit] at h
  simp only [UInt16.le_iff_toNat_le] at h
  split_ifs at h with h1 h2 h3
  · exact isWhiteSpace_of_graph (lt_of_lt_of_le (by decide) h1.1) (lt_of_le_of_lt h1.2 (by decide))
  · exact isWhiteSpace_of_graph (lt_of_lt_of_le (by decide) h2.1) (lt_of_le_of_lt h2.2 (by decide))
  · exact isWhiteSpace_of_graph (lt_of_lt_of_le (by decide) h3.1) (lt_of_le_of_lt h3.2 (by decide))
  · cases h

/-! ## One group -/

theorem digits_head {rest : Text} (hne : text ≠ []) (hdigits : Digits text) :
    ∃ c ∈ (text ++ rest).head?, isWhiteSpace c = false := by
  obtain ⟨c, text, rfl⟩ := List.exists_cons_of_ne_nil hne
  exact ⟨c, rfl, isWhiteSpace_of_isDigit (hdigits c List.mem_cons_self)⟩

namespace SectorGroup

theorem letter_facts (g : SectorGroup) : isWhiteSpace g.letter = false ∧
    isPermissionLetter g.letter = true ∧ permissionMask (some g.letter) = g.permission + 1 := by
  have hall : ∀ p : Fin 7, isWhiteSpace (UInt16.ofNat (0x61 + p)) = false ∧
      isPermissionLetter (UInt16.ofNat (0x61 + p)) = true ∧
      permissionMask (some (UInt16.ofNat (0x61 + p))) = p + 1 := by decide
  exact hall g.permission

theorem edged_text (g : SectorGroup) : Edged g.text := by
  refine ⟨digits_head g.count_ne g.count_digits, fun c hc => ?_⟩
  rw [text, List.getLast?_append_cons] at hc
  have hlast : (STAR :: (g.size ++ [g.unit.char, g.letter])).getLast? = some g.letter := by
    rw [List.append_cons g.size, ← List.cons_append]
    exact List.getLast?_concat
  obtain rfl := Option.some.inj (hlast.symm.trans hc)
  exact g.letter_facts.1

theorem matchSectors_text (g : SectorGroup) : matchSectors g.text =
    if g.unit = .byte then none else some ⟨g.count, g.size, g.unit.char, some g.letter⟩ := by
  have hcount := takeWhile_digits (b := STAR :: (g.size ++ [g.unit.char, g.letter]))
    g.count_digits fun c hc => by
      cases hc
      rfl
  have hunit : isDigit g.unit.char = false := by cases g.unit <;> rfl
  have hsize := takeWhile_digits (b := [g.unit.char, g.letter]) g.size_digits fun c hc => by
    cases hc
    exact hunit
  rw [matchSectors, text, hcount.1, hcount.2]
  simp only [hsize.1, hsize.2]
  obtain heq | hne := eq_or_ne g.unit .byte
  · rw [if_pos heq, if_neg]
    rw [heq]
    exact fun h => absurd h.2.2.2 (by decide)
  · have hread : isUnit g.unit.char = true := by
      cases hchar : g.unit with
      | blank => rfl
      | byte => exact absurd hchar hne
      | kilo => rfl
      | mega => rfl
    rw [if_neg hne, if_pos ⟨g.count_ne, trivial, g.size_ne, hread⟩, List.head?_cons, Option.filter_some,
      if_pos g.letter_facts.2.1]

theorem unitFactor_char {g : SectorGroup} (h : g.unit ≠ .byte) :
    unitFactor g.unit.char = g.unit.factor := by
  cases hunit : g.unit with
  | blank => rfl
  | byte => exact absurd hunit h
  | kilo => rfl
  | mega => rfl

theorem sectors_length (g : SectorGroup) (address : ℕ) :
    (g.sectors address).length = g.sectorCount := by
  rw [sectors, List.length_map, List.length_range]

end SectorGroup

theorem addSector_iterate (size mask n : ℕ) (s : LayoutState) :
    (addSector size mask)^[n] s = ⟨s.address + n * size, s.sectors ++ (List.range n).map fun i =>
      ⟨s.address + i * size, size, mask &&& 0x01 ≠ 0, mask &&& 0x02 ≠ 0, mask &&& 0x04 ≠ 0⟩⟩ := by
  induction n with
  | zero => simp
  | succ n ih =>
    rw [Function.iterate_succ_apply', ih, addSector, List.range_succ, List.map_append,
      List.append_assoc]
    simp only [List.map_cons, List.map_nil, LayoutState.mk.injEq, and_true]
    push_cast
    ring

theorem mask_bits (p : Fin 7) : (((p + 1 : ℕ) &&& 0x01 ≠ 0) = ((p + 1 : ℕ).testBit 0 = true)) ∧
    (((p + 1 : ℕ) &&& 0x02 ≠ 0) = ((p + 1 : ℕ).testBit 1 = true)) ∧
    (((p + 1 : ℕ) &&& 0x04 ≠ 0) = ((p + 1 : ℕ).testBit 2 = true)) := by
  simp only [eq_iff_iff]
  revert p
  decide

theorem readDefinition_group (g : SectorGroup) (address : ℕ) (sectors : List LayoutSector) :
    readDefinition ⟨address, sectors⟩ g.text =
      if g.unit = .byte then ⟨address, sectors⟩
      else ⟨(address + g.sectorCount * g.sectorSize : ℕ),
        sectors ++ (g.sectors address).map LayoutSector.ofMemory⟩ := by
  rw [readDefinition, g.edged_text.trim, g.matchSectors_text]
  split_ifs with hbyte
  · rfl
  · simp only
    rw [addSector_iterate, g.letter_facts.2.2, SectorGroup.unitFactor_char hbyte,
      SectorGroup.sectors, List.map_map]
    obtain ⟨h1, h2, h4⟩ := mask_bits g.permission
    simp only [h1, h2, h4, Bool.decide_eq_true, LayoutState.mk.injEq]
    refine ⟨?_, congrArg _ (List.map_congr_left fun i _ => ?_)⟩
    · rw [SectorGroup.sectorCount, SectorGroup.sectorSize]
      push_cast
      rfl
    · simp only [Function.comp_apply, LayoutSector.ofMemory, SectorGroup.sectorSize]
      push_cast
      rfl

/-! ## The definitions of a region -/

/-- The sectors that the parser finds: a group of bytes that says so takes no room. -/
def understoodSectors (address : ℕ) : List Definition → List DfuMemorySector
  | [] => []
  | .group g :: definitions =>
    if g.unit = .byte then understoodSectors address definitions
    else g.sectors address ++ understoodSectors (address + g.sectorCount * g.sectorSize) definitions
  | .foreign .. :: definitions => understoodSectors address definitions

theorem Definition.edged_text (definition : Definition) : Edged definition.text := by
  cases definition with
  | group g => exact g.edged_text
  | foreign text begins ends => exact ⟨begins, ends⟩

theorem SectorGroup.text_notMem {g : SectorGroup} (hdigit : isDigit c = false) (hstar : c ≠ STAR)
    (hunit : ∀ unit : SizeUnit, c ≠ unit.char) (hletter : isPermissionLetter c = false) :
    c ∉ g.text := by
  intro hmem
  rw [SectorGroup.text, List.mem_append, List.mem_cons, List.mem_append, List.mem_cons,
    List.mem_singleton] at hmem
  rcases hmem with h | h | h | h | h
  · exact absurd (g.count_digits c h) (by simp [hdigit])
  · exact hstar h
  · exact absurd (g.size_digits c h) (by simp [hdigit])
  · exact hunit _ h
  · rw [h, g.letter_facts.2.1] at hletter
    cases hletter

theorem Definition.comma_notMem (definition : Definition) : COMMA ∉ definition.text := by
  cases definition with
  | group g =>
    exact SectorGroup.text_notMem rfl (by decide) (fun unit => by cases unit <;> decide) rfl
  | foreign text begins ends noSlash noComma => exact noComma

theorem Definition.slash_notMem (definition : Definition) : SLASH ∉ definition.text := by
  cases definition with
  | group g =>
    exact SectorGroup.text_notMem rfl (by decide) (fun unit => by cases unit <;> decide) rfl
  | foreign text begins ends noSlash => exact noSlash

theorem foldl_readDefinition (definitions : List Definition) (address : ℕ)
    (sectors : List LayoutSector) :
    ((definitions.map Definition.text).foldl readDefinition ⟨address, sectors⟩).sectors =
      sectors ++ (understoodSectors address definitions).map LayoutSector.ofMemory := by
  induction definitions generalizing address sectors with
  | nil => exact (List.append_nil _).symm
  | cons definition definitions ih =>
    rw [List.map_cons, List.foldl_cons]
    cases definition with
    | group g =>
      rw [Definition.text, readDefinition_group, understoodSectors]
      split_ifs
      · exact ih address sectors
      · rw [ih, List.map_append, List.append_assoc]
    | foreign text begins ends noSlash noComma unmatched =>
      have hedged : Edged text := ⟨begins, ends⟩
      rw [Definition.text, readDefinition, hedged.trim, unmatched, understoodSectors]
      exact ih address sectors

/-! ## The regions of a descriptor -/

namespace Region

def addressToken (region : Region) : Text := 0x30 :: 0x78 :: region.address

def definitionsToken (region : Region) : Text :=
  [COMMA].intercalate (region.definitions.map Definition.text)

theorem text_eq (region : Region) :
    region.text = SLASH :: (region.addressToken ++ SLASH :: region.definitionsToken) := rfl

theorem edged_addressToken (region : Region) : Edged region.addressToken := by
  have hsolid : ∀ c ∈ region.addressToken, isWhiteSpace c = false := by
    intro c hc
    rw [addressToken, List.mem_cons, List.mem_cons] at hc
    rcases hc with rfl | rfl | hc
    · rfl
    · rfl
    · exact isWhiteSpace_of_hexDigit (region.address_digits c hc)
  exact ⟨⟨0x30, rfl, rfl⟩, fun c hc => hsolid c (List.mem_of_getLast? hc)⟩

theorem edged_definitionsToken (region : Region) : Edged region.definitionsToken := by
  refine edged_intercalate COMMA (by simpa using region.definitions_ne) fun part hpart => ?_
  obtain ⟨definition, _, rfl⟩ := List.mem_map.mp hpart
  exact definition.edged_text

theorem slash_notMem_address (region : Region) : SLASH ∉ region.addressToken := by
  intro h
  rw [addressToken, List.mem_cons, List.mem_cons] at h
  rcases h with h | h | h
  · exact absurd h (by decide)
  · exact absurd h (by decide)
  · exact absurd (region.address_digits _ h) (by decide)

theorem slash_notMem_definitions (region : Region) : SLASH ∉ region.definitionsToken := by
  refine notMem_intercalate (by decide) fun part hpart => ?_
  obtain ⟨definition, _, rfl⟩ := List.mem_map.mp hpart
  exact definition.slash_notMem

theorem parseIntHex_addressToken (region : Region) :
    parseIntHex region.addressToken = some (region.start : ℤ) := by
  have htake : region.address.takeWhile (fun c => (hexDigit c).isSome) = region.address :=
    List.takeWhile_eq_self_iff.mpr region.address_digits
  have hleading : leadingHex region.address = some region.start := by
    rw [leadingHex, htake]
    split
    next h => exact absurd h region.address_ne
    next => rfl
  change (leadingHex region.address).map _ = _
  rw [hleading]
  rfl

end Region

theorem splitOn_append_cons (h : c ∉ a) (b : Text) :
    (a ++ c :: b).splitOn c = a :: b.splitOn c := by
  have hsingle : a.splitOnP (· == c) = [a] :=
    List.splitOnP_eq_singleton fun d hd => by
      rw [beq_eq_false_iff_ne]
      rintro rfl
      exact h hd
  have hsplit := List.splitOnP_append_cons (p := (· == c)) a b (beq_self_eq_true c)
  rw [hsingle] at hsplit
  exact hsplit

theorem splitOn_regions (regions : List Region) {token : Text} (h : SLASH ∉ token) :
    (token ++ regions.flatMap Region.text).splitOn SLASH =
      token :: regions.flatMap fun region => [region.addressToken, region.definitionsToken] := by
  induction regions generalizing token with
  | nil =>
    rw [List.flatMap_nil, List.append_nil, List.flatMap_nil]
    refine List.splitOnP_eq_singleton fun d hd => ?_
    rw [beq_eq_false_iff_ne]
    rintro rfl
    exact h hd
  | cons region regions ih =>
    rw [List.flatMap_cons, region.text_eq, List.cons_append, splitOn_append_cons h,
      List.append_assoc, List.cons_append, splitOn_append_cons region.slash_notMem_address,
      ih region.slash_notMem_definitions]
    rfl

theorem readRegions_tokens (regions : List Region) (sectors : List LayoutSector) :
    readRegions (regions.flatMap fun region => [region.addressToken, region.definitionsToken])
        sectors =
      sectors ++ (regions.flatMap fun region =>
        understoodSectors region.start region.definitions).map LayoutSector.ofMemory := by
  induction regions generalizing sectors with
  | nil => exact (List.append_nil _).symm
  | cons region regions ih =>
    have hsplit : region.definitionsToken.splitOn COMMA = region.definitions.map Definition.text :=
      List.splitOn_intercalate COMMA (by
        intro part hpart
        obtain ⟨definition, _, rfl⟩ := List.mem_map.mp hpart
        exact definition.comma_notMem) (by simpa using region.definitions_ne)
    rw [List.flatMap_cons, List.flatMap_cons, List.cons_append, List.cons_append, List.nil_append,
      readRegions, region.parseIntHex_addressToken]
    simp only
    rw [hsplit, foldl_readDefinition, ih, List.map_append, List.append_assoc]

theorem parse_text (d : MemoryDescriptor) : parseDfuSeMemoryLayout d.text =
    (d.regions.flatMap fun region =>
      understoodSectors region.start region.definitions).map LayoutSector.ofMemory := by
  rw [parseDfuSeMemoryLayout, if_neg (fun h => h rfl)]
  cases hregions : d.regions with
  | nil =>
    rw [if_pos]
    · rfl
    · rw [MemoryDescriptor.text, hregions, List.flatMap_nil, List.append_nil, List.mem_cons]
      exact fun h => h.elim (fun h => absurd h (by decide)) d.target_noSlash
  | cons region regions =>
    have htext : d.text = (AT_SIGN :: d.target) ++ ([] ++ d.regions.flatMap Region.text) := rfl
    have hslash : SLASH ∉ AT_SIGN :: d.target := by
      rw [List.mem_cons]
      exact fun h => h.elim (fun h => absurd h (by decide)) d.target_noSlash
    have hhead : ([] ++ d.regions.flatMap Region.text).head? = some SLASH := by
      rw [hregions]
      rfl
    have hdrop : d.text.dropWhile (· ≠ SLASH) = [] ++ d.regions.flatMap Region.text := by
      rw [htext, List.dropWhile_append_of_pos]
      · obtain ⟨rest, hrest⟩ := List.head?_eq_some_iff.mp hhead
        rw [hrest, List.dropWhile_cons_of_neg (by simp)]
      · intro c hc
        rw [decide_eq_true_eq]
        rintro rfl
        exact hslash hc
    have hmem : SLASH ∈ d.text := by
      rw [htext]
      exact List.mem_append_right _ (List.mem_of_mem_head? hhead)
    have htokens : ∀ token ∈ d.regions.flatMap fun region =>
        [region.addressToken, region.definitionsToken], Edged token := by
      intro token htoken
      obtain ⟨region, _, hin⟩ := List.mem_flatMap.mp htoken
      rw [List.mem_cons, List.mem_singleton] at hin
      rcases hin with rfl | rfl
      · exact region.edged_addressToken
      · exact region.edged_definitionsToken
    rw [if_neg (fun h => h hmem)]
    simp only
    rw [hdrop, splitOn_regions d.regions List.not_mem_nil, List.map_cons,
      List.map_congr_left (fun token h => (htokens token h).trim), List.map_id',
      List.filter_cons_of_neg (by decide),
      List.filter_eq_self.mpr fun token h => by simpa using (htokens token h).ne_nil,
      readRegions_tokens, List.nil_append, hregions]

/-! ## What is missing -/

def missingCount : List Definition → ℕ
  | [] => 0
  | .group g :: definitions =>
    (if g.unit = .byte then g.sectorCount else 0) + missingCount definitions
  | .foreign .. :: definitions => missingCount definitions

theorem length_definedSectors (definitions : List Definition) (a b : ℕ) :
    (definedSectors a definitions).length =
      (understoodSectors b definitions).length + missingCount definitions := by
  induction definitions generalizing a b with
  | nil => rfl
  | cons definition definitions ih =>
    cases definition with
    | group g =>
      rw [definedSectors, understoodSectors, missingCount, List.length_append, g.sectors_length]
      split_ifs with hbyte
      · rw [ih _ b]
        omega
      · rw [List.length_append, g.sectors_length, ih _ (b + g.sectorCount * g.sectorSize)]
        omega
    | foreign => exact ih a b

variable {definitions : List Definition}

theorem missingCount_eq_zero : missingCount definitions = 0 ↔
    ∀ g : SectorGroup, .group g ∈ definitions → g.unit = .byte → g.sectorCount = 0 := by
  induction definitions with
  | nil => exact ⟨fun _ g hg => (nomatch hg), fun _ => rfl⟩
  | cons definition definitions ih =>
    cases definition with
    | group g =>
      rw [missingCount, Nat.add_eq_zero_iff, ih]
      constructor
      · rintro ⟨hhead, htail⟩ g' hg' hbyte
        obtain heq | hmem := List.mem_cons.mp hg'
        · cases heq
          rwa [if_pos hbyte] at hhead
        · exact htail g' hmem hbyte
      · intro h
        refine ⟨?_, fun g' hg' => h g' (List.mem_cons_of_mem _ hg')⟩
        split_ifs with hbyte
        · exact h g List.mem_cons_self hbyte
        · rfl
    | foreign =>
      rw [missingCount, ih]
      constructor
      · intro h g' hg'
        obtain heq | hmem := List.mem_cons.mp hg'
        · cases heq
        · exact h g' hmem
      · exact fun h g' hg' => h g' (List.mem_cons_of_mem _ hg')

theorem understood_of_missing (h : missingCount definitions = 0) (address : ℕ) :
    understoodSectors address definitions = definedSectors address definitions := by
  induction definitions generalizing address with
  | nil => rfl
  | cons definition definitions ih =>
    cases definition with
    | group g =>
      rw [missingCount, Nat.add_eq_zero_iff] at h
      rw [understoodSectors, definedSectors, ih h.2, ih h.2]
      split_ifs at h ⊢ with hbyte
      · rw [h.1, Nat.zero_mul, Nat.add_zero, SectorGroup.sectors, h.1]
        rfl
      · rfl
    | foreign => exact ih h address

theorem ofMemory_injective : Function.Injective LayoutSector.ofMemory := by
  intro a b h
  cases a
  cases b
  simpa [LayoutSector.ofMemory] using h

/-- A descriptor is read as the sectors it describes exactly when no group counts sectors in bytes
with the letter for it. -/
theorem parse_describes_iff (d : MemoryDescriptor) :
    parseDfuSeMemoryLayout d.text = d.sectors.map LayoutSector.ofMemory ↔
      ∀ region ∈ d.regions, ∀ g : SectorGroup, .group g ∈ region.definitions →
        g.unit = .byte → g.sectorCount = 0 := by
  rw [parse_text, (List.map_injective_iff.mpr ofMemory_injective).eq_iff, MemoryDescriptor.sectors]
  generalize d.regions = regions
  constructor
  · intro h
    have hlength := congrArg List.length h
    clear h
    induction regions with
    | nil => exact fun region hregion => nomatch hregion
    | cons region regions ih =>
      have hle : ∀ regions : List Region,
          (regions.flatMap fun region =>
            understoodSectors region.start region.definitions).length ≤
          (regions.flatMap Region.sectors).length := by
        intro regions
        induction regions with
        | nil => exact le_rfl
        | cons region regions ih =>
          rw [List.flatMap_cons, List.flatMap_cons, List.length_append, List.length_append,
            Region.sectors, length_definedSectors _ _ region.start]
          omega
      have hrest := hle regions
      rw [List.flatMap_cons, List.flatMap_cons, List.length_append, List.length_append,
        Region.sectors, length_definedSectors _ _ region.start] at hlength
      refine List.forall_mem_cons.mpr ⟨missingCount_eq_zero.mp (by omega), ih (by omega)⟩
  · intro h
    refine List.flatMap_congr fun region hregion => ?_
    exact understood_of_missing (missingCount_eq_zero.mpr (h region hregion)) _

/-! ## A group of bytes -/

instance (text : Text) : Decidable (Digits text) :=
  inferInstanceAs (Decidable (∀ c ∈ text, isDigit c = true))

/-- `/0x08000000/01*128Be,02*016Kg`. -/
def byteGroup : SectorGroup :=
  ⟨units "01", units "128", .byte, 4, by decide, by decide, by decide, by decide⟩

def kiloGroup : SectorGroup :=
  ⟨units "02", units "016", .kilo, 6, by decide, by decide, by decide, by decide⟩

def byteDescriptor : MemoryDescriptor :=
  ⟨units "Internal Flash  ", [⟨units "08000000", [.group byteGroup, .group kiloGroup], by decide,
    by decide, by decide⟩], by decide⟩

/-- The sectors after the group of bytes are found 128 bytes too low. -/
theorem sectors_displaced : ¬ ∀ d : MemoryDescriptor,
    parseDfuSeMemoryLayout d.text = d.sectors.map LayoutSector.ofMemory := by
  intro h
  have hbyte := h byteDescriptor
  revert hbyte
  decide

end ArduConfigurator.FirmwareFlash
