import ArduConfigurator.DataFlash.Fields

/-! # What the parser makes of any log

The loop ends on every log, and on every log whose schemas keep to the length they declare it throws
nothing, reads each message from the bytes of its own frame, and accounts for every byte. -/
namespace ArduConfigurator.DataFlash
set_option autoImplicit false

/-! ## The turns of the loop -/

inductive Reached (view : DataView) : ParserState → Prop
  | initial : Reached view ParserState.initial
  | turn {s t : ParserState} : Reached view s → turn view s = .next t → Reached view t

def frameView (view : DataView) (start length : ℕ) : DataView :=
  .ofBytes ((view.bytes.drop start).take length)

structure TakesMessage (view : DataView) (s : ParserState) (format : DataflashFormat) : Prop where
  head : s.pos + 3 ≤ view.byteLength
  head1 : byteAt view s.pos = HEAD_BYTE1
  head2 : byteAt view (s.pos + 1) = HEAD_BYTE2
  type : byteAt view (s.pos + 2) ≠ FMT_TYPE
  schema : s.schema (byteAt view (s.pos + 2)) = some format
  whole : s.pos + format.length ≤ view.byteLength

structure TakesFormat (view : DataView) (s : ParserState) : Prop where
  whole : s.pos + FMT_MESSAGE_LENGTH ≤ view.byteLength

theorem turn_cases (view : DataView) (s : ParserState) :
    (turn view s = .stop) ∨
    (s.pos + 3 ≤ view.byteLength ∧ turn view s = .next s.skip) ∨
    (TakesFormat view s ∧ turn view s =
      match readFormat view (s.pos + 3) with
      | none => .rangeError
      | some (format, message) =>
        .next ((s.defineFormat format).takeFrame FMT_MESSAGE_LENGTH none message)) ∨
    (∃ format, TakesMessage view s format ∧ turn view s =
      match decodeBody format view (s.pos + 3) with
      | none => .rangeError
      | some message => .next (s.takeFrame format.length (some format) message)) := by
  by_cases hhead : view.byteLength < s.pos + 3
  · exact .inl (if_pos hhead)
  rw [turn, if_neg hhead]
  by_cases hbytes : byteAt view s.pos ≠ HEAD_BYTE1 ∨ byteAt view (s.pos + 1) ≠ HEAD_BYTE2
  · exact .inr (.inl ⟨not_lt.mp hhead, if_pos hbytes⟩)
  rw [if_neg hbytes]
  by_cases htype : byteAt view (s.pos + 2) = FMT_TYPE
  · rw [if_pos htype, formatTurn]
    by_cases hwhole : view.byteLength < s.pos + FMT_MESSAGE_LENGTH
    · exact .inl (if_pos hwhole)
    · rw [if_neg hwhole]
      exact .inr (.inr (.inl ⟨⟨not_lt.mp hwhole⟩, rfl⟩))
  rw [if_neg htype]
  rw [not_or, not_not, not_not] at hbytes
  cases hschema : s.schema (byteAt view (s.pos + 2)) with
  | none => exact .inr (.inl ⟨not_lt.mp hhead, rfl⟩)
  | some format =>
    by_cases hwhole : view.byteLength < s.pos + format.length
    · exact .inl (if_pos hwhole)
    · exact .inr (.inr (.inr ⟨format,
        ⟨not_lt.mp hhead, hbytes.1, hbytes.2, htype, hschema, not_lt.mp hwhole⟩, if_neg hwhole⟩))

variable {view : DataView} {s : ParserState} {format : DataflashFormat}

theorem TakesMessage.turn (h : TakesMessage view s format) :
    turn view s =
      match decodeBody format view (s.pos + 3) with
      | none => .rangeError
      | some message => .next (s.takeFrame format.length (some format) message) := by
  have hbytes : ¬ (byteAt view s.pos ≠ HEAD_BYTE1 ∨ byteAt view (s.pos + 1) ≠ HEAD_BYTE2) := by
    rw [not_or, not_not, not_not]
    exact ⟨h.head1, h.head2⟩
  rw [DataFlash.turn, if_neg (not_lt.mpr h.head), if_neg hbytes, if_neg h.type, h.schema]
  exact if_neg (not_lt.mpr h.whole)

def Fits (format : DataflashFormat) : Prop :=
  ∀ n, bodyLength format.format = some n → 3 + n ≤ format.length

instance (format : DataflashFormat) : Decidable (Fits format) :=
  decidable_of_iff (∀ n ∈ bodyLength format.format, 3 + n ≤ format.length) Iff.rfl
/-! ## Every turn takes a byte -/

theorem three_le_of_schema {type : ℕ} (h : s.schema type = some format) :
    (∃ n, bodyLength format.format = some n) ∧ 3 ≤ format.length := by
  rw [ParserState.schema, Option.filter_eq_some_iff, Bool.and_eq_true, decide_eq_true_eq] at h
  exact ⟨Option.isSome_iff_exists.mp h.2.1, h.2.2⟩

/-- A turn that goes on skipped a byte, took a FMT record, or took a message. -/
inductive Step (view : DataView) (s : ParserState) : ParserState → Prop
  | skip : s.pos + 3 ≤ view.byteLength → Step view s s.skip
  | format (format : DataflashFormat) (message : DataflashMessage) : TakesFormat view s →
      readFormat view (s.pos + 3) = some (format, message) →
      Step view s ((s.defineFormat format).takeFrame FMT_MESSAGE_LENGTH none message)
  | message (format : DataflashFormat) (message : DataflashMessage) : TakesMessage view s format →
      decodeBody format view (s.pos + 3) = some message →
      Step view s (s.takeFrame format.length (some format) message)

variable {t : ParserState}

theorem step_of_next (h : turn view s = .next t) :
    Step view s t := by
  obtain hstop | ⟨hhead, hskip⟩ | ⟨htakes, hformat⟩ | ⟨format, htakes, hmessage⟩ := turn_cases view s
  · cases hstop.symm.trans h
  · cases hskip.symm.trans h
    exact .skip hhead
  · cases hread : readFormat view (s.pos + 3) with
    | none =>
      rw [hread] at hformat
      cases hformat.symm.trans h
    | some record =>
      rw [hread] at hformat
      cases hformat.symm.trans h
      exact .format record.1 record.2 htakes hread
  · cases hread : decodeBody format view (s.pos + 3) with
    | none =>
      rw [hread] at hmessage
      cases hmessage.symm.trans h
    | some message =>
      rw [hread] at hmessage
      cases hmessage.symm.trans h
      exact .message format message htakes hread

theorem Step.pos (h : Step view s t) :
    s.pos < t.pos ∧ t.pos ≤ view.byteLength := by
  cases h with
  | skip hhead =>
    change s.pos < s.pos + 1 ∧ s.pos + 1 ≤ _
    omega
  | format format message htakes hread =>
    have := htakes.whole
    change s.pos < s.pos + FMT_MESSAGE_LENGTH ∧ s.pos + FMT_MESSAGE_LENGTH ≤ _
    rw [FMT_MESSAGE_LENGTH, FMT_BODY_LENGTH] at *
    omega
  | message format message htakes hread =>
    have := htakes.whole
    have := (three_le_of_schema htakes.schema).2
    change s.pos < s.pos + format.length ∧ s.pos + format.length ≤ _
    omega

theorem Reached.parse (h : Reached view s) :
    ∃ turns, parseDataflashLog view = loop view (turns + 1) s ∧ view.byteLength - s.pos ≤ turns := by
  induction h with
  | initial => exact ⟨view.byteLength, rfl, Nat.sub_le ..⟩
  | @turn s t hs ht ih =>
    obtain ⟨turns, hparse, hturns⟩ := ih
    have hpos := (step_of_next ht).pos
    obtain ⟨k, rfl⟩ : ∃ k, turns = k + 1 := ⟨turns - 1, by omega⟩
    refine ⟨k, ?_, by omega⟩
    rw [hparse, loop, ht]

variable {turns : ℕ}

theorem loop_ne_unfinished (h : view.byteLength - s.pos ≤ turns) (u : ParserState) :
    loop view (turns + 1) s ≠ .unfinished u := by
  induction turns generalizing s with
  | zero =>
    cases ht : turn view s with
    | next t =>
      have := (step_of_next ht).pos
      omega
    | stop => simp [loop, ht]
    | rangeError => simp [loop, ht]
  | succ turns ih =>
    cases ht : turn view s with
    | next t =>
      have := (step_of_next ht).pos
      rw [loop, ht]
      exact ih (by omega)
    | stop => simp [loop, ht]
    | rangeError => simp [loop, ht]

theorem parse_ne_unfinished (view : DataView) (s : ParserState) :
    parseDataflashLog view ≠ .unfinished s :=
  loop_ne_unfinished (Nat.sub_le ..) s

variable {u : ParserState}

theorem reached_of_returned (hs : Reached view s) (h : loop view turns s = .returned u) :
    Reached view u := by
  induction turns generalizing s with
  | zero => cases h
  | succ turns ih =>
    cases ht : turn view s with
    | next t =>
      rw [loop, ht] at h
      exact ih (hs.turn ht) h
    | stop =>
      rw [loop, ht] at h
      cases h
      exact hs
    | rangeError =>
      rw [loop, ht] at h
      cases h

theorem reached_of_thrown (hs : Reached view s) (h : loop view turns s = .thrown) :
    ∃ u, Reached view u ∧ turn view u = .rangeError := by
  induction turns generalizing s with
  | zero => cases h
  | succ turns ih =>
    cases ht : turn view s with
    | next t =>
      rw [loop, ht] at h
      exact ih (hs.turn ht) h
    | stop =>
      rw [loop, ht] at h
      cases h
    | rangeError => exact ⟨s, hs, ht⟩

/-! ## Frames -/

theorem Step.frames (h : Step view s t) :
    s.frames ⊆ t.frames := by
  cases h with
  | skip hhead => exact List.Subset.refl _
  | format format message htakes hread => exact List.subset_append_left ..
  | message format message htakes hread => exact List.subset_append_left ..

theorem frames_of_returned (h : loop view turns s = .returned u) :
    s.frames ⊆ u.frames := by
  induction turns generalizing s with
  | zero => cases h
  | succ turns ih =>
    cases ht : turn view s with
    | next t =>
      rw [loop, ht] at h
      exact List.Subset.trans (step_of_next ht).frames (ih h)
    | stop =>
      rw [loop, ht] at h
      cases h
      exact List.Subset.refl _
    | rangeError =>
      rw [loop, ht] at h
      cases h

/-- The message of a frame is what the bytes of the frame give on their own. -/
def ReadsWithin (view : DataView) (f : Frame) : Prop :=
  match f.format with
  | some format => decodeBody format (frameView view f.start f.length) 3 = some f.message
  | none => ∃ format, readFormat (frameView view f.start f.length) 3 = some (format, f.message)

variable {start length : ℕ}

theorem frameView_length (h : start + length ≤ view.byteLength) :
    (frameView view start length).byteLength = length := by
  change ((view.bytes.drop start).take length).length = length
  rw [List.length_take, List.length_drop, DataView.bytes_length]
  omega

theorem agrees_frameView {o n : ℕ} (h : start + length ≤ view.byteLength) (hn : o + n ≤ length) :
    Agrees view (frameView view start length) (start + o) o n where
  left := by omega
  right := by rwa [frameView_length h]
  same := by
    rw [frameView, bytes_ofBytes, List.drop_take, List.drop_drop, List.take_take,
      min_eq_left (by omega)]

theorem decodeBody_frameView (hfits : Fits format) (hbody : ∃ n, bodyLength format.format = some n)
    (h : start + format.length ≤ view.byteLength) :
    ∃ m, decodeBody format view (start + 3) = some m ∧
      decodeBody format (frameView view start format.length) 3 = some m := by
  obtain ⟨n, hn⟩ := hbody
  have hlength := hfits n hn
  obtain ⟨ns, hns, rfl⟩ := Option.map_eq_some_iff.mp hn
  exact decodeFields_agrees hns (agrees_frameView h hlength)

theorem fits_of_readsWithin {m : DataflashMessage} (h : start + format.length ≤ view.byteLength)
    (hthree : 3 ≤ format.length)
    (hread : decodeBody format (frameView view start format.length) 3 = some m) : Fits format := by
  intro n hn
  obtain ⟨ns, hns, rfl⟩ := Option.map_eq_some_iff.mp hn
  have hlength := frameView_length h
  change ((view.bytes.drop start).take format.length).length = format.length at hlength
  have := decodeFields_bounded hns (by omega) hread
  omega

theorem readFormat_agrees {v w : DataView} {o p : ℕ} (h : Agrees v w o p FMT_BODY_LENGTH) :
    ∃ record, readFormat v o = some record ∧ readFormat w p = some record := by
  obtain ⟨type, hv1, hw1⟩ :=
    (show Agrees v w o p 1 from h.skip (k := 0) (m := 1) (by decide)).getUint
  obtain ⟨length, hv2, hw2⟩ := (h.skip (k := 1) (m := 1) (by decide)).getUint
  obtain ⟨name, hv3, hw3⟩ := (h.skip (k := 2) (m := 4) (by decide)).readString
  obtain ⟨format, hv4, hw4⟩ := (h.skip (k := 6) (m := 16) (by decide)).readString
  obtain ⟨columnsRaw, hv5, hw5⟩ := (h.skip (k := 22) (m := 64) (by decide)).readString
  simp only [readFormat, hv1, hv2, hv3, hv4, hv5, hw1, hw2, hw3, hw4, hw5, Option.bind_eq_bind,
    Option.bind_some]
  exact ⟨_, rfl, rfl⟩

theorem readFormat_frameView (h : start + FMT_MESSAGE_LENGTH ≤ view.byteLength) :
    ∃ record, readFormat view (start + 3) = some record ∧
      readFormat (frameView view start FMT_MESSAGE_LENGTH) 3 = some record :=
  readFormat_agrees (agrees_frameView h (n := FMT_BODY_LENGTH) (by decide))

/-! ## Accounts -/

/-- What holds of the frames and the messages of a state whatever the log is. -/
structure Accounts (view : DataView) (s : ParserState) : Prop where
  pos_le : s.pos ≤ view.byteLength
  total : s.skippedBytes + (s.frames.map Frame.length).sum = s.pos
  before : ∀ f ∈ s.frames, f.start + f.length ≤ s.pos
  ordered : s.frames.Pairwise fun f g => f.start + f.length ≤ g.start
  recorded : ∀ key bucket, s.messagesByType.get key = some bucket →
    ∀ message ∈ bucket, ∃ f ∈ s.frames, f.message = message

theorem accounts_initial (view : DataView) : Accounts view ParserState.initial where
  pos_le := Nat.zero_le _
  total := rfl
  before _ hf := absurd hf List.not_mem_nil
  ordered := List.Pairwise.nil
  recorded _ _ h := by cases h

theorem Accounts.skip (h : Accounts view s) (hpos : s.pos + 1 ≤ view.byteLength) :
    Accounts view s.skip where
  pos_le := hpos
  total := by
    have := h.total
    change s.skippedBytes + 1 + (s.frames.map Frame.length).sum = s.pos + 1
    omega
  before f hf := Nat.le_succ_of_le (h.before f hf)
  ordered := h.ordered
  recorded := h.recorded

theorem Accounts.takeFrame (h : Accounts view s) (hpos : s.pos + length ≤ view.byteLength)
    (format : Option DataflashFormat) (message : DataflashMessage) :
    Accounts view (s.takeFrame length format message) where
  pos_le := hpos
  total := by
    have := h.total
    change s.skippedBytes + ((s.frames ++ [_]).map Frame.length).sum = s.pos + length
    rw [List.map_append, List.sum_append, List.map_singleton, List.sum_singleton]
    change s.skippedBytes + ((s.frames.map Frame.length).sum + length) = s.pos + length
    omega
  before f hf := by
    change f.start + f.length ≤ s.pos + length
    obtain hf | hf := List.mem_append.mp hf
    · exact Nat.le_add_right_of_le (h.before f hf)
    · obtain rfl := List.mem_singleton.mp hf
      exact le_rfl
  ordered := by
    refine List.pairwise_append.mpr ⟨h.ordered, List.pairwise_singleton .., fun f hf g hg => ?_⟩
    obtain rfl := List.mem_singleton.mp hg
    exact h.before f hf
  recorded key bucket hget m hm := by
    change ((s.recordMessage message).messagesByType).get key = some bucket at hget
    rw [ParserState.recordMessage, JsMap.get_set] at hget
    have hold : ∀ k b, s.messagesByType.get k = some b → ∀ m ∈ b,
        ∃ f ∈ s.frames ++ [⟨s.pos, length, format, message⟩], f.message = m := by
      intro k b hk m hm
      obtain ⟨f, hf, hfm⟩ := h.recorded k b hk m hm
      exact ⟨f, List.mem_append_left _ hf, hfm⟩
    split at hget
    · cases hget
      obtain hm | hm := List.mem_append.mp hm
      · cases hb : s.messagesByType.get _ with
        | none =>
          rw [hb] at hm
          cases hm
        | some b =>
          rw [hb] at hm
          exact hold _ b hb m hm
      · obtain rfl := List.mem_singleton.mp hm
        exact ⟨_, List.mem_append_right _ (List.mem_singleton_self _), rfl⟩
    · exact hold key bucket hget m hm

theorem Step.accounts (h : Step view s t) (hs : Accounts view s) : Accounts view t := by
  cases h with
  | skip hhead => exact hs.skip (by omega)
  | format format message htakes hread =>
    have hdefined : Accounts view (s.defineFormat format) :=
      ⟨hs.pos_le, hs.total, hs.before, hs.ordered, hs.recorded⟩
    exact hdefined.takeFrame htakes.whole none message
  | message format message htakes hread => exact hs.takeFrame htakes.whole (some format) message

theorem Reached.accounts (h : Reached view s) :
    Accounts view s := by
  induction h with
  | initial => exact accounts_initial view
  | turn hs ht ih => exact (step_of_next ht).accounts ih

/-! ## Logs whose schemas fit -/

/-- Every message that the parser takes by a schema of the log fits the length it declares. -/
def SchemasFit (view : DataView) : Prop :=
  ∀ s format, Reached view s → TakesMessage view s format → Fits format

theorem turn_ne_rangeError (hfit : SchemasFit view) (hs : Reached view s) :
    turn view s ≠ .rangeError := by
  obtain hturn | ⟨-, hturn⟩ | ⟨htakes, hturn⟩ | ⟨format, htakes, hturn⟩ := turn_cases view s
  · simp [hturn]
  · simp [hturn]
  · obtain ⟨record, hread, -⟩ := readFormat_frameView htakes.whole
    rw [hturn, hread]
    exact Turn.noConfusion
  · obtain ⟨m, hread, -⟩ := decodeBody_frameView (hfit s format hs htakes)
      (three_le_of_schema htakes.schema).1 htakes.whole
    rw [hturn, hread]
    exact Turn.noConfusion

theorem reached_readsWithin (hfit : SchemasFit view) (hs : Reached view s) :
    ∀ f ∈ s.frames, ReadsWithin view f := by
  induction hs with
  | initial => exact fun f hf => absurd hf List.not_mem_nil
  | @turn s t hs ht ih =>
    intro f hf
    cases step_of_next ht with
    | skip hhead => exact ih f hf
    | format format message htakes hread =>
      obtain hf | hf := List.mem_append.mp hf
      · exact ih f hf
      · obtain rfl := List.mem_singleton.mp hf
        obtain ⟨record, hview, hframe⟩ := readFormat_frameView htakes.whole
        obtain rfl := Option.some.inj (hread.symm.trans hview)
        exact ⟨format, hframe⟩
    | message format message htakes hread =>
      obtain hf | hf := List.mem_append.mp hf
      · exact ih f hf
      · obtain rfl := List.mem_singleton.mp hf
        obtain ⟨m, hview, hframe⟩ := decodeBody_frameView (hfit s format hs htakes)
          (three_le_of_schema htakes.schema).1 htakes.whole
        obtain rfl := Option.some.inj (hread.symm.trans hview)
        exact hframe

/-- The log is parsed to `s`: every message is that of a frame, read from the bytes of the frame alone,
the frames lie in the log, in order and apart, and with what was skipped and the tail that was not
parsed they are all of its bytes. -/
structure Parsed (view : DataView) (s : ParserState) : Prop where
  returned : parseDataflashLog view = .returned s
  recorded : ∀ key bucket, s.messagesByType.get key = some bucket →
    ∀ message ∈ bucket, ∃ f ∈ s.frames, f.message = message
  reads : ∀ f ∈ s.frames, ReadsWithin view f
  inside : ∀ f ∈ s.frames, f.start + f.length ≤ view.byteLength
  ordered : s.frames.Pairwise fun f g => f.start + f.length ≤ g.start
  total : s.skippedBytes + (s.frames.map Frame.length).sum + (view.byteLength - s.pos) =
    view.byteLength

theorem parsed_of_schemasFit (hfit : SchemasFit view) :
    ∃ s, Parsed view s := by
  cases hparse : parseDataflashLog view with
  | returned s =>
    have hs := reached_of_returned Reached.initial hparse
    have hacc := hs.accounts
    refine ⟨s, hparse, hacc.recorded, reached_readsWithin hfit hs,
      fun f hf => (hacc.before f hf).trans hacc.pos_le, hacc.ordered, ?_⟩
    have := hacc.pos_le
    rw [hacc.total]
    omega
  | thrown =>
    obtain ⟨s, hs, herror⟩ := reached_of_thrown Reached.initial hparse
    exact absurd herror (turn_ne_rangeError hfit hs)
  | unfinished s => exact absurd hparse (parse_ne_unfinished view s)

theorem schemasFit_of_parsed (h : Parsed view s) :
    SchemasFit view := by
  intro u format hu htakes
  obtain ⟨turns, hloop, -⟩ := hu.parse
  rw [h.returned, loop, htakes.turn] at hloop
  cases hread : decodeBody format view (u.pos + 3) with
  | none =>
    rw [hread] at hloop
    cases hloop
  | some message =>
    rw [hread] at hloop
    have hframes := frames_of_returned hloop.symm
    have hmem : (⟨u.pos, format.length, some format, message⟩ : Frame) ∈ s.frames :=
      hframes (List.mem_append_right u.frames (List.mem_singleton_self _))
    exact fits_of_readsWithin htakes.whole (three_le_of_schema htakes.schema).2 (h.reads _ hmem)

/-- A log is parsed, whatever its bytes are, exactly if no message comes by a schema whose fields
are longer than the length it declares. -/
theorem parse_robust (view : DataView) : (∃ s, Parsed view s) ↔ SchemasFit view :=
  ⟨fun ⟨_, h⟩ => schemasFit_of_parsed h, parsed_of_schemasFit⟩

/-- A schema of length 3 with one byte field, and at the end of the log a message of its type. -/
def truncatedLog : Bytes :=
  [0xa3, 0x95, 0x80, 1, 3, 65, 0, 0, 0, 66] ++ List.replicate 79 0 ++ [0xa3, 0x95, 1]

theorem truncated_log_throws :
    parseDataflashLog (.ofBytes truncatedLog) = .thrown ∧
      ¬ ∃ s, Parsed (.ofBytes truncatedLog) s := by
  have h : parseDataflashLog (.ofBytes truncatedLog) = .thrown := by rfl
  exact ⟨h, fun ⟨s, hs⟩ => by cases h.symm.trans hs.returned⟩

end ArduConfigurator.DataFlash
