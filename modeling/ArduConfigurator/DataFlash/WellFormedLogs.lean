import ArduConfigurator.DataFlash.LoggedFields
import ArduConfigurator.DataFlash.Robustness

/-! # Well-formed logs

A log as a logger writes it: format records that declare the length of their layout, and messages
each of the format that its type was last given. The parser skips nothing of such a log, and gives
back every record wherever its columns can be told apart. -/
namespace ArduConfigurator.DataFlash
set_option autoImplicit false

/-! ## Records -/

structure FormatRecord where
  type : UInt8
  length : UInt8
  name : PaddedText 4
  format : PaddedText 16
  columns : PaddedText 64
  kinds : List FieldKind
  kinds_eq : format.string.toList.mapM kindOf = some kinds
  length_eq : length.toNat = 3 + (kinds.map FieldKind.size).sum

structure MessageRecord where
  format : FormatRecord
  fields : List Logged
  fits : Fields format.kinds fields

inductive LogRecord
  | format (record : FormatRecord)
  | message (record : MessageRecord)

def columnNames (raw : String) : List String :=
  if raw.toList = [] then [] else (raw.toList.splitOn ',').map String.ofList

def FormatRecord.schema (r : FormatRecord) : DataflashFormat :=
  ⟨r.type.toNat, r.length.toNat, r.name.string, r.format.string, columnNames r.columns.string⟩

def FormatRecord.body (r : FormatRecord) : Bytes :=
  [r.type] ++ ([r.length] ++ (r.name.bytes ++ (r.format.bytes ++ r.columns.bytes)))

def MessageRecord.body (r : MessageRecord) : Bytes := fieldBytes r.format.kinds r.fields

def LogRecord.wire : LogRecord → Bytes
  | .format r => 0xa3 :: 0x95 :: 0x80 :: r.body
  | .message r => 0xa3 :: 0x95 :: r.format.type :: r.body

def logBytes (log : List LogRecord) : Bytes := log.flatMap LogRecord.wire

/-- Every message is of the format that its type was last given, and none is of the type of format
records. -/
def Declared : (UInt8 → Option FormatRecord) → List LogRecord → Prop
  | _, [] => True
  | latest, .format r :: log => Declared (Function.update latest r.type (some r)) log
  | latest, .message r :: log =>
    r.format.type ≠ 0x80 ∧ latest r.format.type = some r.format ∧ Declared latest log

/-! ## What was logged -/

structure Shown where
  name : String
  values : List (String × FieldValue)

def FormatRecord.shown (r : FormatRecord) : Shown where
  name := "FMT"
  values := [("Type", .number (JsNumber.ofInt r.type.toNat)),
    ("Length", .number (JsNumber.ofInt r.length.toNat)), ("Name", .text r.name.string),
    ("Format", .text r.format.string), ("Columns", .text r.columns.string)]

def MessageRecord.shown (r : MessageRecord) : Shown where
  name := r.format.name.string
  values := columnValues r.format.schema.columns 0 r.format.kinds r.fields

def LogRecord.shown : LogRecord → Shown
  | .format r => r.shown
  | .message r => r.shown

namespace Shown

/-- The message has the name and in every column its value, and nothing else. -/
structure IsIn (e : Shown) (message : DataflashMessage) : Prop where
  name : message.get "name" = some (.text e.name)
  column : ∀ entry ∈ e.values, message.get entry.1 = some entry.2
  keys : ∀ key ∈ message.keys, key = "name" ∨ ∃ entry ∈ e.values, entry.1 = key

/-- The columns can be told apart from each other, from the name, and from the accessor that every
object has. -/
structure Distinct (e : Shown) : Prop where
  name : ∀ entry ∈ e.values, entry.1 = "name" → entry.2 = .text e.name
  proto : ∀ entry ∈ e.values, entry.1 ≠ "__proto__"
  column : ∀ entry ∈ e.values, ∀ other ∈ e.values, entry.1 = other.1 → entry.2 = other.2

def message (e : Shown) : DataflashMessage := setColumns [("name", .text e.name)] e.values

end Shown

theorem get_setColumn (message : DataflashMessage) (column key : String) (value : FieldValue) :
    (setColumn message column value).get key =
      if key = column ∧ column ≠ "__proto__" then some value else message.get key := by
  unfold setColumn
  by_cases hproto : column = "__proto__"
  · rw [if_pos hproto, if_neg fun h => h.2 hproto]
  · rw [if_neg hproto, Entries.get_set]
    simp [hproto]

variable {message : DataflashMessage} {key : String} {value : FieldValue}

theorem keys_setColumn {column : String} (h : key ∈ Entries.keys (setColumn message column value)) :
    key ∈ message.keys ∨ key = column ∧ column ≠ "__proto__" := by
  unfold setColumn at h
  split_ifs at h with hproto
  · exact .inl h
  · obtain rfl | h := Entries.mem_keys_set.mp h
    · exact .inr ⟨rfl, hproto⟩
    · exact .inl h

variable {values : List (String × FieldValue)}

theorem get_setColumns_of_all (hmessage : message.get key = some value)
    (h : ∀ entry ∈ values, entry.1 = key → entry.2 = value) :
    (setColumns message values).get key = some value := by
  induction values generalizing message with
  | nil => exact hmessage
  | cons entry values ih =>
    refine ih ?_ fun other hother => h other (List.mem_cons_of_mem _ hother)
    rw [get_setColumn]
    split_ifs with heq
    · rw [h entry (List.mem_cons_self ..) heq.1.symm]
    · exact hmessage

theorem get_setColumns_of_mem {entry : String × FieldValue} (hentry : entry ∈ values)
    (hproto : entry.1 ≠ "__proto__") (h : ∀ other ∈ values, other.1 = entry.1 → other.2 = entry.2) :
    (setColumns message values).get entry.1 = some entry.2 := by
  induction values generalizing message with
  | nil => cases hentry
  | cons first values ih =>
    have hrest : ∀ other ∈ values, other.1 = entry.1 → other.2 = entry.2 :=
      fun other hother => h other (List.mem_cons_of_mem _ hother)
    obtain rfl | hentry := List.mem_cons.mp hentry
    · have hset : (setColumn message entry.1 entry.2).get entry.1 = some entry.2 := by
        rw [get_setColumn, if_pos ⟨rfl, hproto⟩]
      have hlast := get_setColumns_of_all hset hrest
      exact hlast
    · exact ih hentry hrest

theorem keys_setColumns (h : key ∈ Entries.keys (setColumns message values)) :
    key ∈ message.keys ∨ key ≠ "__proto__" ∧ ∃ entry ∈ values, entry.1 = key := by
  induction values generalizing message with
  | nil => exact .inl h
  | cons entry values ih =>
    obtain h | ⟨hproto, other, hother, rfl⟩ := ih h
    · obtain h | ⟨rfl, hproto⟩ := keys_setColumn h
      · exact .inl h
      · exact .inr ⟨hproto, entry, List.mem_cons_self .., rfl⟩
    · exact .inr ⟨hproto, other, List.mem_cons_of_mem _ hother, rfl⟩

variable {e : Shown}

theorem Shown.isIn_message (h : e.Distinct) : e.IsIn e.message where
  name := get_setColumns_of_all rfl h.name
  column entry hentry := get_setColumns_of_mem hentry (h.proto entry hentry)
    fun other hother heq => h.column other hother entry hentry heq
  keys key hkey := by
    obtain hkey | ⟨_, hkey⟩ := keys_setColumns hkey
    · exact .inl (List.mem_singleton.mp hkey)
    · exact .inr hkey

theorem Shown.distinct_of_isIn (h : e.IsIn message) (hproto : "__proto__" ∉ message.keys) :
    e.Distinct where
  name entry hentry heq := by
    have hcolumn := h.column entry hentry
    rw [heq, h.name] at hcolumn
    exact (Option.some.inj hcolumn).symm
  proto entry hentry heq := by
    have hcolumn := h.column entry hentry
    rw [heq] at hcolumn
    exact hproto (Entries.isSome_get_iff.mp (by rw [hcolumn]; rfl))
  column entry hentry other hother heq := by
    have hcolumn := h.column entry hentry
    rw [heq, h.column other hother] at hcolumn
    exact (Option.some.inj hcolumn).symm

theorem FormatRecord.distinct (r : FormatRecord) : r.shown.Distinct := by
  constructor <;> simp [FormatRecord.shown]

/-! ## The parser at a record -/

section Turns

variable {view : DataView} {s : ParserState} {rest : Bytes} {o : ℕ} {bytes : Bytes}

theorem le_of_drop {n : ℕ} (ho : o ≤ view.byteLength) (h : view.bytes.drop o = bytes ++ rest)
    (hn : bytes.length = n) : o + n ≤ view.byteLength :=
  hn ▸ (agrees_of_drop ho h).left

theorem drop_of_drop {n : ℕ} (h : view.bytes.drop o = bytes ++ rest) (hn : bytes.length = n) :
    view.bytes.drop (o + n) = rest := by
  rw [← List.drop_drop, h, List.drop_left' hn]

variable {b : UInt8}

theorem drop_of_drop_cons (h : view.bytes.drop o = b :: rest) :
    view.bytes.drop (o + 1) = rest := by
  rw [← List.drop_drop, h, List.drop_one, List.tail_cons]

theorem byteAt_of_drop (h : view.bytes.drop o = b :: rest) :
    byteAt view o = b.toNat := by
  have hget : view.bytes[o]? = some b := by
    rw [← Nat.add_zero o, ← List.getElem?_drop, h]
    rfl
  rw [byteAt, List.getD_eq_getElem?_getD, hget]
  rfl

theorem getUint_of_drop (ho : o ≤ view.byteLength) (h : view.bytes.drop o = [b] ++ rest) :
    view.getUint o 1 = some b.toNat := by
  obtain ⟨n, hview, hbyte⟩ := (agrees_of_drop ho h).getUint
  have hread : (DataView.ofBytes [b]).getUint 0 1 = some (ofLE [b]) := getUint_ofBytes [b]
  have hvalue : n = b.toNat := by
    rw [List.length_singleton, hread] at hbyte
    rw [← Option.some.inj hbyte]
    exact Nat.add_zero _
  rw [← hvalue]
  exact hview

theorem readString_of_drop {size : ℕ} {t : PaddedText size} (ho : o ≤ view.byteLength)
    (h : view.bytes.drop o = t.bytes ++ rest) : readString view o size = some t.string := by
  obtain ⟨text, hview, hbytes⟩ := (agrees_of_drop ho h).readString
  rw [t.length_bytes] at hview hbytes
  rw [hview, ← hbytes, readString_padded]

theorem FormatRecord.length_body (r : FormatRecord) : r.body.length = FMT_BODY_LENGTH := by
  simp only [FormatRecord.body, List.length_append, List.length_singleton, r.name.length_bytes,
    r.format.length_bytes, r.columns.length_bytes]
  rfl

theorem FormatRecord.message_eq (r : FormatRecord) : r.shown.message =
    [("name", .text "FMT"), ("Type", .number (JsNumber.ofInt r.type.toNat)),
      ("Length", .number (JsNumber.ofInt r.length.toNat)), ("Name", .text r.name.string),
      ("Format", .text r.format.string), ("Columns", .text r.columns.string)] := by
  simp [Shown.message, FormatRecord.shown, setColumns, setColumn, Entries.set]

theorem readFormat_logged (r : FormatRecord) (ho : o ≤ view.byteLength)
    (h : view.bytes.drop o = r.body ++ rest) :
    readFormat view o = some (r.schema, r.shown.message) := by
  simp only [FormatRecord.body, List.append_assoc] at h
  have h1 := drop_of_drop h (List.length_singleton)
  have h2 := drop_of_drop h1 (List.length_singleton)
  have h6 := drop_of_drop h2 r.name.length_bytes
  have h22 := drop_of_drop h6 r.format.length_bytes
  have ho1 := le_of_drop ho h List.length_singleton
  have ho2 := le_of_drop ho1 h1 List.length_singleton
  have ho6 := le_of_drop ho2 h2 r.name.length_bytes
  have ho22 := le_of_drop ho6 h6 r.format.length_bytes
  have hname := readString_of_drop ho2 h2
  have hformat := readString_of_drop ho6 h6
  have hcolumns := readString_of_drop ho22 h22
  simp only [Nat.add_assoc, Nat.reduceAdd] at hname hformat hcolumns
  rw [readFormat, getUint_of_drop ho h, getUint_of_drop ho1 h1, hname, hformat, hcolumns,
    r.message_eq]
  rfl

theorem turn_format (r : FormatRecord) (hpos : s.pos ≤ view.byteLength)
    (h : view.bytes.drop s.pos = (LogRecord.format r).wire ++ rest) :
    turn view s = .next ((s.defineFormat r.schema).takeFrame FMT_MESSAGE_LENGTH none
      r.shown.message) := by
  have hlength : (LogRecord.format r).wire.length = FMT_MESSAGE_LENGTH := by
    rw [LogRecord.wire, List.length_cons, List.length_cons, List.length_cons, r.length_body]
    rfl
  have hwhole := le_of_drop hpos h hlength
  have h1 : view.bytes.drop (s.pos + 1) = 0x95 :: 0x80 :: (r.body ++ rest) :=
    drop_of_drop_cons h
  have h2 : view.bytes.drop (s.pos + 2) = 0x80 :: (r.body ++ rest) :=
    drop_of_drop_cons h1
  have h3 : view.bytes.drop (s.pos + 3) = r.body ++ rest :=
    drop_of_drop_cons h2
  have hhead : ¬(byteAt view s.pos ≠ HEAD_BYTE1 ∨ byteAt view (s.pos + 1) ≠ HEAD_BYTE2) := by
    rw [byteAt_of_drop h, byteAt_of_drop h1]
    decide
  have htype : byteAt view (s.pos + 2) = FMT_TYPE := by
    rw [byteAt_of_drop h2]
    rfl
  have hthree : s.pos + 3 ≤ view.byteLength := by
    rw [FMT_MESSAGE_LENGTH] at hwhole
    omega
  rw [turn, if_neg (not_lt.mpr hthree), if_neg hhead, if_pos htype, formatTurn,
    if_neg (not_lt.mpr hwhole), readFormat_logged r hthree h3]

theorem MessageRecord.length_body (r : MessageRecord) :
    3 + r.body.length = r.format.length.toNat := by
  rw [MessageRecord.body, length_fieldBytes r.format.kinds_eq r.fits, r.format.length_eq]

theorem turn_message (r : MessageRecord) (hpos : s.pos ≤ view.byteLength)
    (hformat : s.formats.get r.format.type.toNat = some r.format.schema)
    (htype : r.format.type ≠ 0x80)
    (h : view.bytes.drop s.pos = (LogRecord.message r).wire ++ rest) :
    turn view s = .next (s.takeFrame r.format.length.toNat (some r.format.schema)
      r.shown.message) := by
  have hlength : (LogRecord.message r).wire.length = r.format.length.toNat := by
    rw [← r.length_body, LogRecord.wire, List.length_cons, List.length_cons, List.length_cons]
    omega
  have hwhole := le_of_drop hpos h hlength
  have h1 : view.bytes.drop (s.pos + 1) = 0x95 :: r.format.type :: (r.body ++ rest) :=
    drop_of_drop_cons h
  have h2 : view.bytes.drop (s.pos + 2) = r.format.type :: (r.body ++ rest) :=
    drop_of_drop_cons h1
  have h3 : view.bytes.drop (s.pos + 3) = r.body ++ rest :=
    drop_of_drop_cons h2
  have hthree : s.pos + 3 ≤ view.byteLength := by
    have hbody := r.length_body
    omega
  have hschema : s.schema (byteAt view (s.pos + 2)) = some r.format.schema := by
    have hsizes : (bodyLength r.format.schema.format).isSome = true := by
      have hsizes := sizes_of_kinds r.format.kinds_eq
      rw [sizes] at hsizes
      rw [bodyLength, FormatRecord.schema, hsizes]
      rfl
    have hthree : 3 ≤ r.format.schema.length := by
      rw [FormatRecord.schema, ← r.length_body]
      exact Nat.le_add_right _ _
    rw [byteAt_of_drop h2, ParserState.schema, hformat, Option.filter_some_pos]
    rw [hsizes, Bool.true_and]
    exact decide_eq_true hthree
  have htakes : TakesMessage view s r.format.schema :=
    { head := hthree
      head1 := by rw [byteAt_of_drop h]; rfl
      head2 := by rw [byteAt_of_drop h1]; rfl
      type := by
        rw [byteAt_of_drop h2]
        exact fun heq => htype (UInt8.toNat_inj.mp heq)
      schema := hschema
      whole := hwhole }
  have hdecode : decodeBody r.format.schema view (s.pos + 3) = some r.shown.message :=
    decodeFields_logged r.format.kinds_eq r.fits hthree h3
  rw [htakes.turn, hdecode]
  rfl

end Turns

/-! ## The parser on a whole log -/

def Follows (latest : UInt8 → Option FormatRecord) (s : ParserState) : Prop :=
  ∀ type : UInt8, s.formats.get type.toNat = (latest type).map FormatRecord.schema

variable {s : ParserState} {latest : UInt8 → Option FormatRecord}

theorem Follows.define (h : Follows latest s) (r : FormatRecord) (message : DataflashMessage) :
    Follows (Function.update latest r.type (some r))
      ((s.defineFormat r.schema).takeFrame FMT_MESSAGE_LENGTH none message) := by
  intro type
  change (s.formats.set r.type.toNat r.schema).get type.toNat = _
  rw [JsMap.get_set, Function.update_apply]
  by_cases htype : type = r.type
  · rw [if_pos (congrArg UInt8.toNat htype), if_pos htype]
    rfl
  · rw [if_neg fun heq => htype (UInt8.toNat_inj.mp heq), if_neg htype]
    exact h type

def filed (log : List LogRecord) (key : MapKey) : List Shown :=
  (log.map LogRecord.shown).filter fun e => MapKey.text e.name = key

theorem messages_takeFrame (s : ParserState) (length : ℕ) (format : Option DataflashFormat)
    (h : e.Distinct) (key : MapKey) :
    ((s.takeFrame length format e.message).messagesByType.get key).getD [] =
      (s.messagesByType.get key).getD [] ++
        ([e].filter fun e => MapKey.text e.name = key).map Shown.message := by
  have hkey : MapKey.of ((e.message.get "name").getD (.text "")) s.frames.length =
      .text e.name := by
    rw [(Shown.isIn_message h).name]
    rfl
  change ((s.recordMessage e.message).messagesByType.get key).getD [] = _
  rw [ParserState.recordMessage]
  dsimp only
  rw [hkey, JsMap.get_set]
  by_cases heq : key = .text e.name
  · rw [if_pos heq, List.filter_cons_of_pos (by simp [heq]), heq]
    rfl
  · rw [if_neg heq, List.filter_cons_of_neg (by simpa using fun h => heq h.symm)]
    exact (List.append_nil _).symm

variable {view : DataView} {log : List LogRecord}

theorem loop_logged {turns : ℕ} (hdeclared : Declared latest log) (hfollows : Follows latest s)
    (hdistinct : ∀ r ∈ log, r.shown.Distinct) (hpos : s.pos ≤ view.byteLength)
    (hbytes : view.bytes.drop s.pos = logBytes log) (hturns : log.length < turns) :
    ∃ t, loop view turns s = .returned t ∧ t.skippedBytes = s.skippedBytes ∧
      ∀ key, (t.messagesByType.get key).getD [] =
        (s.messagesByType.get key).getD [] ++ (filed log key).map Shown.message := by
  induction log generalizing latest s turns with
  | nil =>
    obtain ⟨turns, rfl⟩ : ∃ n, turns = n + 1 := ⟨turns - 1, by omega⟩
    have hend : view.byteLength < s.pos + 3 := by
      have hlength := congrArg List.length hbytes
      rw [List.length_drop, DataView.bytes_length] at hlength
      have hnil : (logBytes []).length = 0 := rfl
      omega
    have hstop : turn view s = .stop := if_pos hend
    refine ⟨s, by rw [loop, hstop], rfl, fun key => ?_⟩
    exact (List.append_nil _).symm
  | cons r log ih =>
    obtain ⟨turns, rfl⟩ : ∃ n, turns = n + 1 := ⟨turns - 1, by omega⟩
    have hrest : ∀ r ∈ log, r.shown.Distinct := fun r hr => hdistinct r (List.mem_cons_of_mem _ hr)
    have hturns : log.length < turns := Nat.lt_of_succ_lt_succ hturns
    have hbytes : view.bytes.drop s.pos = r.wire ++ logBytes log := hbytes
    have hfiled : ∀ key, filed (r :: log) key =
        ([r.shown].filter fun e => MapKey.text e.name = key) ++ filed log key := by
      intro key
      rw [filed, List.map_cons, ← List.singleton_append, List.filter_append]
      rfl
    -- Both kinds of records lead to a state that has filed the record.
    have hgoal : ∀ {next : UInt8 → Option FormatRecord} {t : ParserState} (length : ℕ)
        (format : Option DataflashFormat) (u : ParserState), turn view s = .next t →
        t = u.takeFrame length format r.shown.message → u.skippedBytes = s.skippedBytes →
        u.messagesByType = s.messagesByType → u.pos = s.pos → Declared next log →
        Follows next t → r.wire.length = length →
        ∃ t, loop view (turns + 1) s = .returned t ∧ t.skippedBytes = s.skippedBytes ∧
          ∀ key, (t.messagesByType.get key).getD [] =
            (s.messagesByType.get key).getD [] ++ (filed (r :: log) key).map Shown.message := by
      rintro next t length format u hturn rfl hskipped hmessages hupos hnext hfollows hlength
      have htpos : (u.takeFrame length format r.shown.message).pos = s.pos + length := by
        rw [← hupos]
        rfl
      have hle := le_of_drop hpos hbytes hlength
      have hdrop := drop_of_drop hbytes hlength
      rw [← htpos] at hle hdrop
      obtain ⟨v, hloop, hv, hkeys⟩ := ih hnext hfollows hrest hle hdrop hturns
      refine ⟨v, by rw [loop, hturn]; exact hloop, hv.trans hskipped, fun key => ?_⟩
      have hr := hdistinct r (List.mem_cons_self ..)
      rw [hkeys, messages_takeFrame u length format hr, hmessages, hfiled, List.map_append, List.append_assoc]
    cases r with
    | format r =>
      have hlength : (LogRecord.format r).wire.length = FMT_MESSAGE_LENGTH := by
        rw [LogRecord.wire, List.length_cons, List.length_cons, List.length_cons, r.length_body]
        rfl
      exact hgoal FMT_MESSAGE_LENGTH none (s.defineFormat r.schema) (turn_format r hpos hbytes) rfl
        rfl rfl rfl hdeclared (hfollows.define r _) hlength
    | message r =>
      obtain ⟨htype, hlatest, hdeclared⟩ := hdeclared
      have hformat : s.formats.get r.format.type.toNat = some r.format.schema := by
        rw [hfollows, hlatest]
        rfl
      have hlength : (LogRecord.message r).wire.length = r.format.length.toNat := by
        rw [← r.length_body, LogRecord.wire, List.length_cons, List.length_cons, List.length_cons]
        omega
      exact hgoal r.format.length.toNat (some r.format.schema) s
        (turn_message r hpos hformat htype hbytes) rfl rfl rfl rfl hdeclared hfollows hlength

/-! ## The accessor is no column -/

theorem keys_decodeFields {columns : List String} {chars : List Char} {i o : ℕ}
    {m : DataflashMessage} (hmessage : "__proto__" ∉ message.keys)
    (h : decodeFields view columns chars i o message = some m) : "__proto__" ∉ m.keys := by
  induction chars generalizing i o message with
  | nil =>
    cases h
    exact hmessage
  | cons ch chars ih =>
    cases hcode : TYPE_CODES ch with
    | none =>
      rw [decodeFields, hcode] at h
      cases h
      exact hmessage
    | some code =>
      rw [decodeFields_cons hcode] at h
      obtain ⟨value, _, h⟩ := Option.bind_eq_some_iff.mp h
      refine ih ?_ h
      intro hkey
      obtain hkey | ⟨heq, hne⟩ := keys_setColumn hkey
      · exact hmessage hkey
      · exact hne heq.symm

theorem keys_readFormat {o : ℕ} {format : DataflashFormat}
    (h : readFormat view o = some (format, message)) :
    "__proto__" ∉ message.keys := by
  rw [readFormat] at h
  obtain ⟨type, _, h⟩ := Option.bind_eq_some_iff.mp h
  obtain ⟨length, _, h⟩ := Option.bind_eq_some_iff.mp h
  obtain ⟨name, _, h⟩ := Option.bind_eq_some_iff.mp h
  obtain ⟨codes, _, h⟩ := Option.bind_eq_some_iff.mp h
  obtain ⟨columns, _, h⟩ := Option.bind_eq_some_iff.mp h
  obtain ⟨-, rfl⟩ := Prod.mk.inj (Option.some.inj h)
  simp [Entries.keys]

theorem keys_recordMessage
    (h : ∀ key, ∀ m ∈ (s.messagesByType.get key).getD [], "__proto__" ∉ Entries.keys m)
    (hmessage : "__proto__" ∉ message.keys) :
    ∀ key, ∀ m ∈ ((s.recordMessage message).messagesByType.get key).getD [],
      "__proto__" ∉ Entries.keys m := by
  intro key m hm
  rw [ParserState.recordMessage] at hm
  dsimp only at hm
  rw [JsMap.get_set] at hm
  split_ifs at hm with heq
  · obtain hm | hm := List.mem_append.mp hm
    · exact h _ m hm
    · rwa [List.mem_singleton.mp hm]
  · exact h key m hm

theorem keys_reached (h : Reached view s) :
    ∀ key, ∀ m ∈ (s.messagesByType.get key).getD [], "__proto__" ∉ Entries.keys m := by
  induction h with
  | initial =>
    intro key m hm
    cases hm
  | @turn s t _ ht ih =>
    cases step_of_next ht with
    | skip _ => exact ih
    | format format message _ hread =>
      exact keys_recordMessage (s := s.defineFormat format) ih (keys_readFormat hread)
    | message format message _ hread =>
      refine keys_recordMessage (s := s) ih (keys_decodeFields ?_ hread)
      simp [Entries.keys]

/-! ## What the parser gives back -/

/-- The parser skips no byte, and under every name it has the records of that name in order. -/
def GivesBack (log : List LogRecord) (outcome : Outcome) : Prop :=
  ∃ s, outcome = .returned s ∧ s.skippedBytes = 0 ∧
    ∀ key, List.Forall₂ Shown.IsIn (filed log key) ((s.messagesByType.get key).getD [])

theorem LogRecord.length_wire (r : LogRecord) : 1 ≤ r.wire.length := by
  cases r <;> simp [LogRecord.wire]

theorem length_le_logBytes (log : List LogRecord) : log.length ≤ (logBytes log).length := by
  induction log with
  | nil => exact Nat.le_refl _
  | cons r log ih =>
    have hwire := r.length_wire
    rw [logBytes, List.flatMap_cons, List.length_append, ← logBytes, List.length_cons]
    omega

theorem forall₂_message {es : List Shown} (h : ∀ e ∈ es, e.Distinct) :
    List.Forall₂ Shown.IsIn es (es.map Shown.message) := by
  rw [List.forall₂_map_right_iff, List.forall₂_same]
  exact fun e he => Shown.isIn_message (h e he)

theorem givesBack_of_distinct (h : Declared (fun _ => none) log) (hview : view.bytes = logBytes log)
    (hdistinct : ∀ r ∈ log, r.shown.Distinct) : GivesBack log (parseDataflashLog view) := by
  have hfollows : Follows (fun _ => none) ParserState.initial := fun _ => rfl
  have hlength : log.length < view.byteLength + 1 := by
    rw [← view.bytes_length, hview]
    exact Nat.lt_succ_of_le (length_le_logBytes log)
  obtain ⟨s, hloop, hskipped, hmessages⟩ := loop_logged h hfollows hdistinct (Nat.zero_le _)
    (by rw [ParserState.initial, List.drop_zero]; exact hview) hlength
  refine ⟨s, hloop, hskipped, fun key => ?_⟩
  rw [hmessages key]
  refine forall₂_message fun e he => ?_
  obtain ⟨r, hr, rfl⟩ := List.mem_map.mp (List.mem_filter.mp he).1
  exact hdistinct r hr

theorem distinct_of_givesBack (h : GivesBack log (parseDataflashLog view)) {r : LogRecord}
    (hr : r ∈ log) :
    r.shown.Distinct := by
  obtain ⟨s, hparse, -, hmessages⟩ := h
  have hkeys := keys_reached (reached_of_returned Reached.initial hparse)
  have hfiled : r.shown ∈ filed log (.text r.shown.name) :=
    List.mem_filter.mpr ⟨List.mem_map_of_mem hr, decide_eq_true rfl⟩
  obtain ⟨i, hi, hget⟩ := List.mem_iff_getElem.mp hfiled
  have hforall := hmessages (.text r.shown.name)
  have hi' := hforall.length_eq ▸ hi
  have hin := (List.forall₂_iff_get.mp hforall).2 i hi hi'
  rw [List.get_eq_getElem, hget] at hin
  exact Shown.distinct_of_isIn hin (hkeys _ _ (List.get_mem _ _))

/-- The parser gives a well-formed log back just when the columns of its messages can be told
apart. -/
theorem parse_givesBack_iff {log : List LogRecord} (h : Declared (fun _ => none) log)
    {view : DataView} (hview : view.bytes = logBytes log) :
    GivesBack log (parseDataflashLog view) ↔
      ∀ r : MessageRecord, LogRecord.message r ∈ log → r.shown.Distinct := by
  refine ⟨fun hback r hr => distinct_of_givesBack hback hr, fun hmessages => ?_⟩
  refine givesBack_of_distinct h hview fun r hr => ?_
  cases r with
  | format r => exact r.distinct
  | message r => exact hmessages r hr

/-! ## A count -/

theorem one_letter_fits (size : ℕ) (letter : UInt8) (h : 1 ≤ size ∧ letter ≠ 0) :
    [letter].length ≤ size ∧ ∀ b ∈ [letter], b ≠ 0 :=
  ⟨h.1, List.forall_mem_singleton.mpr h.2⟩

def oneLetter (size : ℕ) (letter : UInt8) (h : 1 ≤ size ∧ letter ≠ 0) : PaddedText size :=
  .ofText size [letter] (one_letter_fits size letter h)

theorem count_name : 1 ≤ 4 ∧ (0x41 : UInt8) ≠ 0 := by decide

theorem count_format : 1 ≤ 16 ∧ (0x42 : UInt8) ≠ 0 := by decide

theorem count_kinds : (oneLetter 16 0x42 count_format).string.toList.mapM kindOf =
    some [.integer 1 false none] := by rfl

theorem count_length : (4 : UInt8).toNat =
    3 + (([.integer 1 false none] : List FieldKind).map FieldKind.size).sum := rfl

/-- The format of messages `A` with one byte. -/
def countFormat (columns : PaddedText 64) : FormatRecord where
  type := 1
  length := 4
  name := oneLetter 4 0x41 count_name
  format := oneLetter 16 0x42 count_format
  columns := columns
  kinds := [.integer 1 false none]
  kinds_eq := count_kinds
  length_eq := count_length

theorem count_fits (columns : PaddedText 64) :
    Fields (countFormat columns).kinds [.integer 5] := by
  have hfits : 0 ≤ (5 : ℤ) ∧ (5 : ℤ) < 2 ^ (8 * 1) := by norm_num
  exact .cons hfits .nil

def countLog (columns : PaddedText 64) : List LogRecord :=
  [.format (countFormat columns), .message ⟨countFormat columns, [.integer 5], count_fits columns⟩]

theorem declared_countLog (columns : PaddedText 64) :
    Declared (fun _ => none) (countLog columns) := by
  have htype : (1 : UInt8) ≠ 0x80 := by decide
  exact ⟨htype, rfl, trivial⟩

theorem name_fits : [0x6E, 0x61, 0x6D, 0x65].length ≤ 64 ∧
    ∀ b ∈ [0x6E, 0x61, 0x6D, (0x65 : UInt8)], b ≠ 0 := by
  refine ⟨Nat.le_of_ble_eq_true rfl, ?_⟩
  intro b hb
  simp only [List.mem_cons, List.not_mem_nil, or_false] at hb
  obtain rfl | rfl | rfl | rfl := hb <;> decide

/-- A list of columns whose only one is `name`. -/
def nameColumn : PaddedText 64 := .ofText 64 [0x6E, 0x61, 0x6D, 0x65] name_fits

theorem name_column_lost : Declared (fun _ => none) (countLog nameColumn) ∧
    ¬GivesBack (countLog nameColumn)
      (parseDataflashLog (.ofBytes (logBytes (countLog nameColumn)))) := by
  refine ⟨declared_countLog nameColumn, fun h => ?_⟩
  have hdistinct := distinct_of_givesBack h
    (r := .message ⟨countFormat nameColumn, [.integer 5], count_fits nameColumn⟩) (by
      rw [countLog]
      exact List.mem_cons_of_mem _ (List.mem_singleton_self _))
  have hvalues : (LogRecord.message ⟨countFormat nameColumn, [.integer 5],
      count_fits nameColumn⟩).shown.values = [("name", .number (JsNumber.ofInt 5))] := by
    rfl
  have hname := hdistinct.name ("name", .number (JsNumber.ofInt 5))
    (by rw [hvalues]; exact List.mem_singleton_self _) rfl
  cases hname

theorem letter_column : 1 ≤ 64 ∧ (0x4E : UInt8) ≠ 0 := by decide

theorem letter_column_kept : GivesBack (countLog (oneLetter 64 0x4E letter_column))
    (parseDataflashLog (.ofBytes (logBytes (countLog (oneLetter 64 0x4E letter_column))))) := by
  refine (parse_givesBack_iff (declared_countLog _) (bytes_ofBytes _)).mpr fun r hr => ?_
  rw [countLog, List.mem_cons, List.mem_singleton] at hr
  obtain hr | hr := hr
  · cases hr
  · obtain rfl := LogRecord.message.inj hr
    have hvalues : (MessageRecord.mk (countFormat (oneLetter 64 0x4E letter_column)) [.integer 5]
        (count_fits _)).shown.values = [("N", .number (JsNumber.ofInt 5))] := by
      rfl
    constructor <;> rw [hvalues] <;> simp

end ArduConfigurator.DataFlash
