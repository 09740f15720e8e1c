import ArduConfigurator.Mavftp.Payload
import ArduConfigurator.Lib.DecimalText
import ArduConfigurator.Lib.TextBytes
import Mathlib.Data.List.DropRight

/-! # Remote paths and directory entries

`mavftp.ts`: how a path is normalised before its bytes go on the wire, and what the entries of a
directory reply are read as. -/
namespace ArduConfigurator.Mavftp
open DecimalText
set_option autoImplicit false

def SLASH : UInt16 := 0x2F
def BACKSLASH : UInt16 := 0x5C
def AT_SIGN : UInt16 := 0x40
def TABULATOR : UInt16 := 0x09
def DIRECTORY_PREFIX : UInt16 := 0x44
def FILE_PREFIX : UInt16 := 0x46

/-! ## Paths -/

/-- `text.replace(/\/+/g, '/')`. -/
def collapseSlashes : Text → Text
  | [] => []
  | c :: rest =>
    if c = SLASH ∧ rest.head? = some SLASH then collapseSlashes rest else c :: collapseSlashes rest

/-- `text.replace(/\/+$/, '')`. -/
def stripTrailingSlashes (text : Text) : Text := text.rdropWhile (· = SLASH)

/-- The class `[A-Za-z0-9_-]`. -/
def isMountUnit (c : UInt16) : Bool :=
  (0x41 ≤ c ∧ c ≤ 0x5A) ∨ (0x61 ≤ c ∧ c ≤ 0x7A) ∨ (0x30 ≤ c ∧ c ≤ 0x39) ∨ c = 0x5F ∨ c = 0x2D

/-- `/^@[A-Za-z0-9_-]+$/.test(text)`. -/
def isMountPoint : Text → Bool
  | [] => false
  | c :: rest => c = AT_SIGN ∧ rest ≠ [] ∧ rest.all isMountUnit

def normalizeMavftpPath (path : Text) : Text :=
  let trimmed := trim path
  if trimmed = [] then units "@SYS"
  else if trimmed = [SLASH] then trimmed
  else
    let collapsed := collapseSlashes trimmed
    if isMountPoint collapsed then collapsed else stripTrailingSlashes collapsed

def joinMavftpPath (parentPath name : Text) : Text :=
  let normalizedParent := normalizeMavftpPath parentPath
  let normalizedName := stripTrailingSlashes (name.dropWhile (· = SLASH))
  if normalizedName = [] then normalizedParent
  else if normalizedParent = [SLASH] then SLASH :: normalizedName
  else normalizedParent ++ SLASH :: normalizedName

/-! ## Directory entries -/

inductive MavftpDirectoryEntryKind
  | file
  | directory
  deriving DecidableEq

structure MavftpDirectoryEntry where
  name : Text
  path : Text
  kind : MavftpDirectoryEntryKind
  sizeBytes : Option JsNumber

def isSafeMavftpEntryName (name : Text) : Bool :=
  name ≠ units "." ∧ name ≠ units ".." ∧ SLASH ∉ name ∧ BACKSLASH ∉ name

/-- `Number(sizePart.trim())` when there is one and it is finite. -/
def parsedSize : Option Text → Option JsNumber
  | none => none
  | some sizePart =>
    match readLiteral (trim sizePart) with
    | .finite negative magnitude => some (.finite negative magnitude)
    | _ => none

def parseMavftpDirectoryEntry (directoryPath rawEntry : Text) : Option MavftpDirectoryEntry :=
  match trim rawEntry with
  | [] => none
  | kindPrefix :: rest =>
    if kindPrefix = DIRECTORY_PREFIX then
      let name := trim rest
      if name = [] ∨ isSafeMavftpEntryName name = false then none
      else some ⟨name, joinMavftpPath directoryPath name, .directory, none⟩
    else if kindPrefix = FILE_PREFIX then
      let parts := rest.splitOn TABULATOR
      let name := trim (parts.headD [])
      if name = [] ∨ isSafeMavftpEntryName name = false then none
      else some ⟨name, joinMavftpPath directoryPath name, .file, parsedSize parts[1]?⟩
    else none

def parseMavftpDirectoryEntries (directoryPath : Text) (data : Bytes) :
    List MavftpDirectoryEntry :=
  let decoded := (decodeText data).rdropWhile (· = 0)
  if decoded = [] then []
  else
    let normalizedDirectoryPath := normalizeMavftpPath directoryPath
    (decoded.splitOn 0).filterMap (parseMavftpDirectoryEntry normalizedDirectoryPath)

/-! ## Normalising a path again -/

def Collapsed (text : Text) : Prop := ¬ [SLASH, SLASH] <:+: text

variable {a b : Text}

theorem Collapsed.of_isInfix (hb : Collapsed b) (h : a <:+: b) : Collapsed a :=
  fun hslashes => hb (hslashes.trans h)

theorem head?_collapseSlashes (text : Text) : (collapseSlashes text).head? = text.head? := by
  induction text with
  | nil => rfl
  | cons c rest ih =>
    rw [collapseSlashes]
    split
    · next h => rw [ih, h.2, List.head?_cons, h.1]
    · rfl

variable {c : UInt16}

theorem collapsed_cons {rest : Text} (h : ¬ (c = SLASH ∧ rest.head? = some SLASH))
    (hrest : Collapsed rest) :
    Collapsed (c :: rest) := by
  intro hslashes
  rcases List.infix_cons_iff.mp hslashes with hprefix | hinfix
  · obtain ⟨tail, htail⟩ := hprefix
    cases htail
    exact h ⟨rfl, rfl⟩
  · exact hrest hinfix

theorem collapsed_collapseSlashes (text : Text) : Collapsed (collapseSlashes text) := by
  induction text with
  | nil => exact fun h => absurd h.length_le (by decide)
  | cons c rest ih =>
    rw [collapseSlashes]
    split
    · exact ih
    · next h => exact collapsed_cons (by rwa [head?_collapseSlashes]) ih

theorem collapseSlashes_of_collapsed {text : Text} (h : Collapsed text) :
    collapseSlashes text = text := by
  induction text with
  | nil => rfl
  | cons c rest ih =>
    rw [collapseSlashes, if_neg, ih (h.of_isInfix (List.suffix_cons c rest).isInfix)]
    rintro ⟨rfl, hhead⟩
    obtain ⟨tail, rfl⟩ := List.head?_eq_some_iff.mp hhead
    exact h ⟨[], tail, rfl⟩

theorem stripTrailingSlashes_isPrefix (text : Text) : stripTrailingSlashes text <+: text :=
  List.rdropWhile_prefix _ _

theorem collapsed_normalize (path : Text) : Collapsed (normalizeMavftpPath path) := by
  unfold normalizeMavftpPath
  dsimp only
  split
  · unfold Collapsed
    decide
  split
  · next h =>
    rw [h]
    exact fun h => absurd h.length_le (by decide)
  split
  · exact collapsed_collapseSlashes _
  · exact (collapsed_collapseSlashes _).of_isInfix (stripTrailingSlashes_isPrefix _).isInfix

/-- `text` with white space or slashes cut off its ends. -/
def CutFrom (part text : Text) : Prop :=
  ∃ before after, text = before ++ part ++ after ∧
    (∀ c ∈ before, isWhiteSpace c = true ∨ c = SLASH) ∧
    ∀ c ∈ after, isWhiteSpace c = true ∨ c = SLASH

theorem trim_cutFrom (text : Text) : CutFrom (trim text) text := by
  refine ⟨text.takeWhile isWhiteSpace,
    ((text.dropWhile isWhiteSpace).reverse.takeWhile isWhiteSpace).reverse, ?_, ?_, ?_⟩
  · rw [trim, List.append_assoc, ← List.reverse_append, List.takeWhile_append_dropWhile,
      List.reverse_reverse, List.takeWhile_append_dropWhile]
  · exact fun c hc => .inl (List.mem_takeWhile_imp hc)
  · exact fun c hc => .inl (List.mem_takeWhile_imp (List.mem_reverse.mp hc))

theorem stripTrailingSlashes_cutFrom (text : Text) : CutFrom (stripTrailingSlashes text) text := by
  refine ⟨[], text.rtakeWhile (· = SLASH), ?_, by simp, fun c hc => .inr ?_⟩
  · exact (List.rdropWhile_append_rtakeWhile ..).symm
  · simpa using List.mem_rtakeWhile_imp hc

theorem CutFrom.trans {c : Text} (hab : CutFrom a b) (hbc : CutFrom b c) : CutFrom a c := by
  obtain ⟨before, after, rfl, hbefore, hafter⟩ := hab
  obtain ⟨before', after', rfl, hbefore', hafter'⟩ := hbc
  refine ⟨before' ++ before, after ++ after', by simp only [List.append_assoc], ?_, ?_⟩
  · exact fun x hx => (List.mem_append.mp hx).elim (hbefore' x) (hbefore x)
  · exact fun x hx => (List.mem_append.mp hx).elim (hafter x) (hafter' x)

theorem CutFrom.isInfix (h : CutFrom a b) : a <:+: b := by
  obtain ⟨before, after, rfl, -, -⟩ := h
  exact ⟨before, after, rfl⟩

theorem normalize_again (path : Text) :
    normalizeMavftpPath (normalizeMavftpPath path) = units "@SYS" ∨
      CutFrom (normalizeMavftpPath (normalizeMavftpPath path)) (normalizeMavftpPath path) := by
  have hcollapsed := collapsed_normalize path
  generalize normalizeMavftpPath path = text at hcollapsed
  have htrim := trim_cutFrom text
  have hsame := collapseSlashes_of_collapsed (hcollapsed.of_isInfix htrim.isInfix)
  unfold normalizeMavftpPath
  dsimp only
  rw [hsame]
  split
  · exact .inl rfl
  split
  · exact .inr htrim
  split
  · exact .inr htrim
  · exact .inr ((stripTrailingSlashes_cutFrom _).trans htrim)

theorem isSurrogate_of_white (h : isWhiteSpace c = true ∨ c = SLASH) :
    isSurrogate c = false := by
  have hsurrogate (hlow : 0xD800 ≤ c.toNat) (hhigh : c.toNat ≤ 0xDFFF) : False := by
    rcases h with h | rfl
    · simp only [isWhiteSpace, UInt16.le_iff_toNat_le, ← UInt16.toNat_inj, UInt16.reduceToNat,
        decide_eq_true_eq, Bool.decide_or, Bool.decide_and, Bool.or_eq_true,
        Bool.and_eq_true] at h
      omega
    · exact absurd hlow (by decide)
  simp only [isSurrogate, isHighSurrogate, isLowSurrogate, UInt16.le_iff_toNat_le,
    UInt16.reduceToNat, Bool.or_eq_false_iff, decide_eq_false_iff_not]
  exact ⟨fun h => hsurrogate h.1 (by omega), fun h => hsurrogate (by omega) h.2⟩

theorem CutFrom.encodeText (h : CutFrom a b) :
    ∃ before after, encodeText b = before ++ encodeText a ++ after := by
  obtain ⟨before, after, rfl, hbefore, hafter⟩ := h
  exact ⟨_, _, encodeText_append (fun c hc => isSurrogate_of_white (hbefore c hc))
    (fun c hc => isSurrogate_of_white (hafter c hc)) a⟩

theorem length_encode_again (path : Text) :
    (encodeText (normalizeMavftpPath (normalizeMavftpPath path))).length ≤
      max 4 (encodeText (normalizeMavftpPath path)).length := by
  rcases normalize_again path with h | h
  · rw [h]
    exact le_max_of_le_left (by decide)
  · obtain ⟨before, after, h⟩ := h.encodeText
    rw [h, List.length_append, List.length_append]
    omega

end ArduConfigurator.Mavftp
