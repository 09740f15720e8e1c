import ArduConfigurator.FirmwareFlash.IntelHex
import ArduConfigurator.Lib.Runs

/-! # The grammar of Intel HEX

The records of the format and the texts that write them, over any way to read two characters as a
byte. The parser reads the grammar with its own way to read two characters. -/
namespace ArduConfigurator.FirmwareFlash
open Runs
set_option autoImplicit false

/-! ## Records -/

inductive HexRecord where
  | data (offset : ℕ) (bytes : List ℕ)
  | endOfFile
  | extendedLinear (upper : ℕ)
  | extendedSegment (segment : ℕ)
  | startAddress
  deriving DecidableEq

/-- The bytes of one record: a count, an offset, a type, the payload and a checksum. -/
structure IsFrame (bytes : List ℕ) (recordType offset : ℕ) (payload : List ℕ) : Prop where
  layout : ∃ high low checksum, offset = high * 256 + low ∧
    bytes = payload.length :: high :: low :: recordType :: (payload ++ [checksum])
  sum : bytes.sum % 256 = 0

inductive HexRecord.Written (bytes : List ℕ) : HexRecord → Prop
  | data {offset : ℕ} {payload : List ℕ} :
      IsFrame bytes RECORD_DATA offset payload → Written bytes (.data offset payload)
  | endOfFile {offset : ℕ} : IsFrame bytes RECORD_EOF offset [] → Written bytes .endOfFile
  | extendedLinear {offset high low : ℕ} : IsFrame bytes RECORD_EXT_LINEAR offset [high, low] →
      Written bytes (.extendedLinear (high * 256 + low))
  | extendedSegment {offset high low : ℕ} : IsFrame bytes RECORD_EXT_SEGMENT offset [high, low] →
      Written bytes (.extendedSegment (high * 256 + low))
  | startSegment {offset : ℕ} {payload : List ℕ} :
      IsFrame bytes RECORD_START_SEGMENT offset payload → Written bytes .startAddress
  | startLinear {offset : ℕ} {payload : List ℕ} :
      IsFrame bytes RECORD_START_LINEAR offset payload → Written bytes .startAddress

def IsRecord (pair : UInt16 → UInt16 → Option ℕ) (line : List UInt16) (record : HexRecord) :
    Prop :=
  ∃ body bytes, line = COLON :: body ∧ body.length = 2 * bytes.length ∧
    readPairs pair body = some bytes ∧ record.Written bytes

/-! ## Texts -/

def recordLines (text : List UInt16) : List (List UInt16) :=
  ((splitLines text).map trim).filter (· ≠ [])

/-- What the data records write, each at the base that the address records before it set. -/
def placeRecords : ℕ → List HexRecord → List IntelHexSegment
  | _, [] => []
  | base, .data offset bytes :: rest =>
    ⟨(base + offset) % 2 ^ 32, bytes⟩ :: placeRecords base rest
  | base, .endOfFile :: rest => placeRecords base rest
  | _, .extendedLinear upper :: rest => placeRecords (upper * 0x10000) rest
  | _, .extendedSegment segment :: rest => placeRecords (segment * 0x10) rest
  | base, .startAddress :: rest => placeRecords base rest

/-- The non-blank lines of the text are records, the last one is the one end-of-file record, and
these are its data records. -/
def Reads (pair : UInt16 → UInt16 → Option ℕ) (text : List UInt16)
    (writes : List IntelHexSegment) : Prop :=
  ∃ records, List.Forall₂ (IsRecord pair) (recordLines text) (records ++ [.endOfFile]) ∧
    HexRecord.endOfFile ∉ records ∧ placeRecords 0 records = writes

def digitPair (high low : UInt16) : Option ℕ :=
  match hexDigit high, hexDigit low with
  | some h, some l => some (h * 16 + l)
  | _, _ => none

/-- Every character after the first one of a non-blank line is a hexadecimal digit. -/
def HexOnly (text : List UInt16) : Prop :=
  ∀ line ∈ recordLines text, ∀ c ∈ line.tail, (hexDigit c).isSome

instance (text : List UInt16) : Decidable (HexOnly text) :=
  inferInstanceAs (Decidable (∀ line ∈ recordLines text, ∀ c ∈ line.tail, (hexDigit c).isSome))

/-! ## The parser reads the grammar -/

variable {high low : UInt16} {bytes : List ℕ} {pair : UInt16 → UInt16 → Option ℕ}

theorem readPairs_cons_eq_some {rest : List UInt16} :
    readPairs pair (high :: low :: rest) = some bytes ↔
      ∃ byte tail, pair high low = some byte ∧ readPairs pair rest = some tail ∧
        bytes = byte :: tail := by
  rw [readPairs]
  cases pair high low with
  | none => simp
  | some byte =>
    cases readPairs pair rest with
    | none => simp
    | some tail => simp [eq_comm]

theorem readPairs_length :
    ∀ (body : List UInt16) {bytes : List ℕ}, readPairs pair body = some bytes →
      bytes.length = body.length / 2
  | [], _, h => by cases h; rfl
  | [_], _, h => by cases h; simp
  | high :: low :: rest, bytes, h => by
    obtain ⟨byte, tail, -, hrest, rfl⟩ := readPairs_cons_eq_some.mp h
    rw [List.length_cons, readPairs_length rest hrest, List.length_cons, List.length_cons]
    omega

theorem foldl_mod (bytes : List ℕ) (acc : ℕ) :
    bytes.foldl (fun acc value => (acc + value) % 256) (acc % 256) = (acc + bytes.sum) % 256 := by
  induction bytes generalizing acc with
  | nil => rfl
  | cons byte bytes ih =>
    rw [List.foldl_cons, Nat.mod_add_mod, ih, List.sum_cons]
    congr 1
    omega

def HexState.take (s : HexState) : HexRecord → HexState
  | .data offset bytes =>
    { s with writes := s.writes ++ [⟨(s.upperBase + offset) % 2 ^ 32, bytes⟩] }
  | .endOfFile => { s with sawEof := true }
  | .extendedLinear upper => { s with upperBase := upper * 0x10000 }
  | .extendedSegment segment => { s with upperBase := segment * 0x10 }
  | .startAddress => s

def HexState.next (s : HexState) (record : HexRecord) : Option HexState :=
  if s.sawEof then none else some (s.take record)

theorem isFrame_of_checks (hlen : bytes.length = bytes.getD 0 0 + 5) (hsum : bytes.sum % 256 = 0) :
    IsFrame bytes (bytes.getD 3 0) (bytes.getD 1 0 * 256 + bytes.getD 2 0)
      ((bytes.drop 4).take (bytes.getD 0 0)) := by
  match bytes, hlen, hsum with
  | count :: high :: low :: recordType :: rest, hlen, hsum =>
    have hrest : rest.length = count + 1 := by simpa using hlen
    refine ⟨⟨high, low, rest.getD count 0, rfl, ?_⟩, hsum⟩
    have hsplit : rest = rest.take count ++ [rest.getD count 0] := by
      conv_lhs => rw [← List.take_append_drop count rest]
      have hdrop : rest.drop count = [rest.getD count 0] := by
        rw [List.drop_eq_getElem_cons (by omega), List.drop_eq_nil_of_le (by omega),
          ← List.getElem_eq_getD (h := by omega) 0]
      rw [hdrop]
    have hcount : (rest.take count).length = count := by
      rw [List.length_take]
      omega
    change count :: high :: low :: recordType :: rest =
      (rest.take count).length :: high :: low :: recordType :: (rest.take count ++ _)
    rw [hcount, ← hsplit]

variable {payload : List ℕ} {recordType offset : ℕ}

theorem IsFrame.checks (h : IsFrame bytes recordType offset payload) :
    bytes.length = bytes.getD 0 0 + 5 ∧ bytes.getD 0 0 = payload.length ∧
      bytes.getD 3 0 = recordType ∧ bytes.getD 1 0 * 256 + bytes.getD 2 0 = offset ∧
      (bytes.drop 4).take (bytes.getD 0 0) = payload := by
  obtain ⟨⟨high, low, checksum, hoffset, hbytes⟩, -⟩ := h
  subst hbytes hoffset
  simp

theorem IsFrame.sum_foldl (h : IsFrame bytes recordType offset payload) :
    bytes.foldl (fun acc value => (acc + value) % 256) 0 = 0 := by
  have hfold := foldl_mod bytes 0
  rw [Nat.zero_mod, Nat.zero_add, h.sum] at hfold
  exact hfold

variable {place : String} {s t : HexState}

theorem applyRecord_eq_ok (hframe : IsFrame bytes recordType offset payload) (hs : s.sawEof = false)
    (h : applyRecord place s recordType offset payload.length payload = .ok t) :
    ∃ record : HexRecord, record.Written bytes ∧ s.next record = some t := by
  have hnext : ∀ record, s.next record = some (s.take record) := fun record => by
    rw [HexState.next, hs]
    rfl
  have hpair : payload.length = 2 → payload = [payload.getD 0 0, payload.getD 1 0] := by
    intro hlen
    match payload, hlen with
    | [high, low], _ => rfl
  rw [applyRecord] at h
  split_ifs at h with hdata heof hempty hlinear htwo hsegment htwo' hstart
  · cases h
    exact ⟨_, .data (hdata ▸ hframe), hnext _⟩
  · cases h
    rw [not_ne_iff, List.length_eq_zero_iff] at hempty
    exact ⟨_, .endOfFile (heof ▸ hempty ▸ hframe), hnext _⟩
  · cases h
    rw [not_ne_iff] at htwo
    rw [hlinear, hpair htwo] at hframe
    exact ⟨_, .extendedLinear hframe, hnext _⟩
  · cases h
    rw [not_ne_iff] at htwo'
    rw [hsegment, hpair htwo'] at hframe
    exact ⟨_, .extendedSegment hframe, hnext _⟩
  · cases h
    obtain rfl | rfl := hstart
    · exact ⟨_, .startSegment hframe, hnext _⟩
    · exact ⟨_, .startLinear hframe, hnext _⟩

theorem IsFrame.readBytes (h : IsFrame bytes recordType offset payload) (place : String)
    (hs : s.sawEof = false) :
    readBytes place s bytes = applyRecord place s recordType offset payload.length payload := by
  obtain ⟨hlen, hcount, htype, hoffset, hpayload⟩ := h.checks
  simp only [FirmwareFlash.readBytes]
  rw [if_neg (not_not.mpr hlen), if_neg (not_not.mpr h.sum_foldl), if_neg (by simp [hs]), htype,
    hoffset, hpayload, hcount]

variable {record : HexRecord}

theorem HexState.next_eq_some :
    s.next record = some t ↔ s.sawEof = false ∧ t = s.take record := by
  rw [HexState.next]
  cases s.sawEof <;> simp [eq_comm]

theorem readBytes_eq_ok :
    readBytes place s bytes = .ok t ↔
      ∃ record : HexRecord, record.Written bytes ∧ s.next record = some t := by
  constructor
  · intro h
    simp only [readBytes] at h
    by_cases hlen : bytes.length = bytes.getD 0 0 + 5
    case neg => rw [if_pos hlen] at h; cases h
    by_cases hfold : bytes.foldl (fun acc value => (acc + value) % 256) 0 = 0
    case neg => rw [if_neg (not_not.mpr hlen), if_pos hfold] at h; cases h
    rw [if_neg (not_not.mpr hlen), if_neg (not_not.mpr hfold)] at h
    have hsum := foldl_mod bytes 0
    rw [Nat.zero_mod, Nat.zero_add, hfold] at hsum
    have hframe := isFrame_of_checks hlen hsum.symm
    cases hs : s.sawEof with
    | true => rw [if_pos hs] at h; cases h
    | false =>
      rw [if_neg (by simp [hs])] at h
      refine applyRecord_eq_ok hframe hs (?_ : applyRecord place s _ _ _ _ = _)
      rw [← hframe.checks.2.1]
      exact h
  · rintro ⟨record, hwritten, hnext⟩
    obtain ⟨hs, rfl⟩ := HexState.next_eq_some.mp hnext
    cases hwritten with
    | data hframe => rw [hframe.readBytes place hs]; rfl
    | endOfFile hframe => rw [hframe.readBytes place hs]; rfl
    | extendedLinear hframe => rw [hframe.readBytes place hs]; rfl
    | extendedSegment hframe => rw [hframe.readBytes place hs]; rfl
    | startSegment hframe => rw [hframe.readBytes place hs]; rfl
    | startLinear hframe => rw [hframe.readBytes place hs]; rfl

theorem hexToBytes_eq_ok {hex : List UInt16} :
    hexToBytes hex place = .ok bytes ↔ readPairs pairByte hex = some bytes := by
  rw [hexToBytes]
  cases readPairs pairByte hex <;> simp

theorem HexRecord.Written.length (h : record.Written bytes) : 5 ≤ bytes.length := by
  cases h with
  | data h => have := h.checks.1; omega
  | endOfFile h => have := h.checks.1; omega
  | extendedLinear h => have := h.checks.1; omega
  | extendedSegment h => have := h.checks.1; omega
  | startSegment h => have := h.checks.1; omega
  | startLinear h => have := h.checks.1; omega

variable {lineIndex : ℕ} {line : List UInt16}

theorem readLine_eq_ok (hline : trim line ≠ []) :
    readLine lineIndex s line = .ok t ↔
      ∃ record, IsRecord pairByte (trim line) record ∧ s.next record = some t := by
  obtain ⟨first, body, hcons⟩ := List.exists_cons_of_ne_nil hline
  rw [readLine, hcons]
  constructor
  · intro h
    by_cases hfirst : first = COLON
    case neg => simp [hfirst] at h
    by_cases hshort : body.length % 2 ≠ 0 ∨ body.length < 10
    case pos => simp only [hfirst, hshort, if_true, ne_eq, not_true, if_false] at h; cases h
    simp only [hfirst, hshort, ne_eq, not_true, if_false] at h
    cases hbytes : hexToBytes body (lineName lineIndex) with
    | error e => rw [hbytes] at h; cases h
    | ok bytes =>
      rw [hbytes] at h
      obtain ⟨record, hwritten, hnext⟩ := readBytes_eq_ok.mp h
      rw [hexToBytes_eq_ok] at hbytes
      have hlen := readPairs_length body hbytes
      exact ⟨record, ⟨body, bytes, by rw [hfirst], by omega, hbytes, hwritten⟩, hnext⟩
  · rintro ⟨record, ⟨body', bytes, hbody, hlen, hbytes, hwritten⟩, hnext⟩
    obtain ⟨rfl, rfl⟩ := List.cons.inj hbody
    have hfive := hwritten.length
    have hshort : ¬ (body.length % 2 ≠ 0 ∨ body.length < 10) := by omega
    simp only [hshort, ne_eq, not_true, if_false]
    rw [hexToBytes_eq_ok.mpr hbytes]
    exact readBytes_eq_ok.mpr ⟨record, hwritten, hnext⟩

theorem readLines_eq_ok {lines : List (List UInt16)} :
    readLines lineIndex s lines = .ok t ↔
      ∃ records, List.Forall₂ (IsRecord pairByte) ((lines.map trim).filter (· ≠ [])) records ∧
        run HexState.next s records = some t := by
  induction lines generalizing lineIndex s with
  | nil => simp [readLines, eq_comm]
  | cons line lines ih =>
    have hbind : readLines lineIndex s (line :: lines) = .ok t ↔
        ∃ u, readLine lineIndex s line = .ok u ∧ readLines (lineIndex + 1) u lines = .ok t := by
      rw [readLines]
      cases readLine lineIndex s line <;> simp [bind, Except.bind]
    rw [hbind]
    by_cases hline : trim line = []
    · have hskip : ∀ u, readLine lineIndex s line = .ok u ↔ s = u := fun u => by
        rw [readLine, hline]
        simp
      simp [hskip, hline, ih]
    · rw [List.map_cons, List.filter_cons_of_pos (by simpa using hline)]
      constructor
      · rintro ⟨u, hfirst, hrest⟩
        obtain ⟨record, hrecord, hnext⟩ := (readLine_eq_ok hline).mp hfirst
        obtain ⟨records, hall, hrun⟩ := ih.mp hrest
        exact ⟨record :: records, .cons hrecord hall,
          run_cons_eq_some.mpr ⟨u, hnext, hrun⟩⟩
      · rintro ⟨records, hall, hrun⟩
        cases hall with
        | cons hrecord hall =>
          obtain ⟨u, hnext, hrun⟩ := run_cons_eq_some.mp hrun
          exact ⟨u, (readLine_eq_ok hline).mpr ⟨_, hrecord, hnext⟩, ih.mpr ⟨_, hall, hrun⟩⟩

theorem HexState.take_sawEof (h : record ≠ .endOfFile) :
    (s.take record).sawEof = s.sawEof := by
  cases record with
  | endOfFile => exact absurd rfl h
  | _ => rfl

theorem run_next {records : List HexRecord} (hs : s.sawEof = false)
    (writes : List IntelHexSegment) :
    (∃ t, run HexState.next s records = some t ∧ t.sawEof = true ∧ t.writes = writes) ↔
      ∃ body, records = body ++ [.endOfFile] ∧ HexRecord.endOfFile ∉ body ∧
        s.writes ++ placeRecords s.upperBase body = writes := by
  induction records generalizing s with
  | nil =>
    constructor
    · rintro ⟨t, hrun, heof, -⟩
      cases hrun
      rw [hs] at heof
      cases heof
    · rintro ⟨body, hbody, -⟩
      exact absurd hbody.symm (List.append_ne_nil_of_right_ne_nil _ (List.cons_ne_nil _ _))
  | cons record records ih =>
    have hnext : s.next record = some (s.take record) := HexState.next_eq_some.mpr ⟨hs, rfl⟩
    simp only [run_cons, hnext, Option.bind_some]
    by_cases hrecord : record = .endOfFile
    · subst hrecord
      cases records with
      | nil =>
        constructor
        · rintro ⟨t, hrun, -, hwrites⟩
          cases hrun
          refine ⟨[], rfl, List.not_mem_nil, ?_⟩
          rw [← hwrites, placeRecords, List.append_nil]
          rfl
        · rintro ⟨body, hbody, hmem, hwrites⟩
          obtain rfl : body = [] := by
            cases body with
            | nil => rfl
            | cons first rest => simp at hbody
          refine ⟨_, rfl, rfl, ?_⟩
          rw [← hwrites, placeRecords, List.append_nil]
          rfl
      | cons after rest =>
        constructor
        · rintro ⟨t, hrun, -⟩
          cases hrun
        · rintro ⟨body, hbody, hmem, -⟩
          cases body with
          | nil => simp at hbody
          | cons first body =>
            exact absurd (List.mem_cons.mpr (.inl (List.cons.inj hbody).1)) hmem
    · rw [ih ((HexState.take_sawEof hrecord).trans hs)]
      have hplace : ∀ body, (s.take record).writes ++ placeRecords (s.take record).upperBase body =
          s.writes ++ placeRecords s.upperBase (record :: body) := by
        intro body
        cases record with
        | data offset bytes => exact List.append_assoc _ _ _
        | _ => rfl
      constructor
      · rintro ⟨body, rfl, hmem, hwrites⟩
        refine ⟨record :: body, rfl, ?_, ?_⟩
        · exact List.not_mem_cons_of_ne_of_not_mem (Ne.symm hrecord) hmem
        · rw [← hplace, hwrites]
      · rintro ⟨body, hbody, hmem, hwrites⟩
        cases body with
        | nil => exact absurd (List.cons.inj hbody).1 hrecord
        | cons first body =>
          obtain ⟨rfl, rfl⟩ := List.cons.inj hbody
          exact ⟨body, rfl, List.not_mem_of_not_mem_cons hmem, by rw [hplace, hwrites]⟩

variable {text : List UInt16} {writes : List IntelHexSegment}

theorem reads_iff :
    Reads pairByte text writes ↔
      ∃ t, readLines 0 HexState.initial (splitLines text) = .ok t ∧ t.sawEof = true ∧
        t.writes = writes := by
  simp only [readLines_eq_ok]
  constructor
  · rintro ⟨body, hall, hmem, hwrites⟩
    obtain ⟨t, hrun, heof⟩ := (run_next (s := HexState.initial) rfl writes).mpr
      ⟨body, rfl, hmem, hwrites⟩
    exact ⟨t, ⟨_, hall, hrun⟩, heof⟩
  · rintro ⟨t, ⟨records, hall, hrun⟩, heof⟩
    obtain ⟨body, rfl, hmem, hwrites⟩ := (run_next (s := HexState.initial) rfl writes).mp
      ⟨t, hrun, heof⟩
    exact ⟨body, hall, hmem, hwrites⟩

theorem reads_unique {writes' : List IntelHexSegment} (h : Reads pairByte text writes)
    (h' : Reads pairByte text writes') : writes = writes' := by
  obtain ⟨t, hread, -, rfl⟩ := reads_iff.mp h
  obtain ⟨t', hread', -, rfl⟩ := reads_iff.mp h'
  rw [hread] at hread'
  cases hread'
  rfl

theorem parseIntelHex_eq_ok {parsed : ParsedIntelHex} :
    parseIntelHex text = .ok parsed ↔
      ∃ writes, Reads pairByte text writes ∧ coalesce writes = .ok parsed := by
  simp only [reads_iff]
  rw [parseIntelHex]
  cases readLines 0 HexState.initial (splitLines text) with
  | error e => simp [bind, Except.bind]
  | ok t =>
    cases heof : t.sawEof <;> simp [bind, Except.bind, heof]

/-! ## Hexadecimal digits -/

def HEX_DIGITS : List UInt16 :=
  [0x30, 0x31, 0x32, 0x33, 0x34, 0x35, 0x36, 0x37, 0x38, 0x39, 0x41, 0x42, 0x43, 0x44, 0x45, 0x46,
    0x61, 0x62, 0x63, 0x64, 0x65, 0x66]

theorem mem_HEX_DIGITS {c : UInt16} (h : (hexDigit c).isSome) : c ∈ HEX_DIGITS := by
  have hrange : (0x30 ≤ c.toNat ∧ c.toNat ≤ 0x39) ∨ (0x41 ≤ c.toNat ∧ c.toNat ≤ 0x46) ∨
      (0x61 ≤ c.toNat ∧ c.toNat ≤ 0x66) := by
    rw [hexDigit] at h
    split_ifs at h with hdigit hupper hlower
    · exact .inl hdigit
    · exact .inr (.inl hupper)
    · exact .inr (.inr hlower)
    · cases h
  have hmem : c.toNat ∈ HEX_DIGITS.map UInt16.toNat := by
    change c.toNat ∈ [48, 49, 50, 51, 52, 53, 54, 55, 56, 57, 65, 66, 67, 68, 69, 70, 97, 98, 99, 100,
      101, 102]
    simp only [List.mem_cons, List.not_mem_nil, or_false]
    omega
  obtain ⟨d, hd, hdc⟩ := List.mem_map.mp hmem
  rwa [← UInt16.toNat_inj.mp hdc]

theorem pairByte_of_digits (hhigh : (hexDigit high).isSome) (hlow : (hexDigit low).isSome) :
    pairByte high low = digitPair high low := by
  have hall : (HEX_DIGITS.all fun a => HEX_DIGITS.all fun b =>
      decide (pairByte a b = digitPair a b)) = true := by
    decide +kernel
  have hrow := List.all_eq_true.mp hall high (mem_HEX_DIGITS hhigh)
  exact of_decide_eq_true (List.all_eq_true.mp hrow low (mem_HEX_DIGITS hlow))

theorem digitPair_eq_some {byte : ℕ} (h : digitPair high low = some byte) :
    (hexDigit high).isSome ∧ (hexDigit low).isSome := by
  rw [digitPair] at h
  cases hhigh : hexDigit high with
  | none => rw [hhigh] at h; cases h
  | some a =>
    cases hlow : hexDigit low with
    | none => rw [hhigh, hlow] at h; cases h
    | some b => exact ⟨rfl, rfl⟩

theorem readPairs_of_digits : ∀ (body : List UInt16), (∀ c ∈ body, (hexDigit c).isSome) →
    readPairs pairByte body = readPairs digitPair body
  | [], _ => rfl
  | [_], _ => rfl
  | high :: low :: rest, h => by
    rw [readPairs, readPairs, pairByte_of_digits (h high (by simp)) (h low (by simp)),
      readPairs_of_digits rest fun c hc => h c (by simp [hc])]

theorem digits_of_readPairs : ∀ (body : List UInt16) {bytes : List ℕ},
    body.length = 2 * bytes.length → readPairs digitPair body = some bytes →
      ∀ c ∈ body, (hexDigit c).isSome
  | [], _, _, _ => by simp
  | [_], bytes, hlen, _ => by
    rw [List.length_singleton] at hlen
    omega
  | high :: low :: rest, bytes, hlen, h => by
    obtain ⟨byte, tail, hbyte, hrest, rfl⟩ := readPairs_cons_eq_some.mp h
    simp only [List.length_cons] at hlen
    have hdigits := digits_of_readPairs rest (by omega) hrest
    obtain ⟨hhigh, hlow⟩ := digitPair_eq_some hbyte
    intro c hc
    rcases List.mem_cons.mp hc with rfl | hc
    · exact hhigh
    · rcases List.mem_cons.mp hc with rfl | hc
      · exact hlow
      · exact hdigits c hc

theorem isRecord_digitPair :
    IsRecord digitPair line record ↔
      (∀ c ∈ line.tail, (hexDigit c).isSome) ∧ IsRecord pairByte line record := by
  constructor
  · rintro ⟨body, bytes, rfl, hlen, hbytes, hwritten⟩
    have hdigits := digits_of_readPairs body hlen hbytes
    exact ⟨hdigits,
      ⟨body, bytes, rfl, hlen, (readPairs_of_digits body hdigits).trans hbytes, hwritten⟩⟩
  · rintro ⟨hdigits, body, bytes, rfl, hlen, hbytes, hwritten⟩
    exact ⟨body, bytes, rfl, hlen, (readPairs_of_digits body hdigits).symm.trans hbytes, hwritten⟩

theorem reads_digitPair :
    Reads digitPair text writes ↔ Reads pairByte text writes ∧ HexOnly text := by
  have hsplit : ∀ records, List.Forall₂ (IsRecord digitPair) (recordLines text) records ↔
      HexOnly text ∧ List.Forall₂ (IsRecord pairByte) (recordLines text) records := fun records =>
    Iff.trans ⟨fun h => h.imp fun _ _ => isRecord_digitPair.mp,
      fun h => h.imp fun _ _ => isRecord_digitPair.mpr⟩ (List.forall₂_and_left _ _)
  constructor
  · rintro ⟨records, hall, hmem, hwrites⟩
    obtain ⟨hdigits, hall⟩ := (hsplit _).mp hall
    exact ⟨⟨records, hall, hmem, hwrites⟩, hdigits⟩
  · rintro ⟨⟨records, hall, hmem, hwrites⟩, hdigits⟩
    exact ⟨records, (hsplit _).mpr ⟨hdigits, hall⟩, hmem, hwrites⟩

end ArduConfigurator.FirmwareFlash
