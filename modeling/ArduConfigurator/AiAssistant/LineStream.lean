import ArduConfigurator.Lib.TextBytes

/-! # Lines of a streamed response

`stream.ts`: `iterateLines` decodes a response chunk by chunk and yields its lines. A part of a
character is held by the decoder and a part of a line by the buffer. -/
namespace ArduConfigurator.AiAssistant
set_option autoImplicit false

/-- A `TextDecoder` that is used with `stream: true`. -/
structure TextDecoder where
  pending : Utf8Pending
  bomSeen : Bool

def TextDecoder.new : TextDecoder := ⟨.start, false⟩

def feed : Utf8Pending → Bytes → List Char × Utf8Pending
  | p, [] => ([], p)
  | p, byte :: bytes =>
    let rest := feed (p.next byte.toNat).2 bytes
    ((p.next byte.toNat).1 ++ rest.1, rest.2)

def BYTE_ORDER_MARK : Char := Char.ofNat 0xfeff

/-- Only the first character of a stream is dropped when it is the mark. -/
def dropMark (bomSeen : Bool) (chars : List Char) : List Char :=
  if bomSeen = false ∧ chars.head? = some BYTE_ORDER_MARK then chars.tail else chars

/-- `decoder.decode(chunk, { stream: true })`. -/
def TextDecoder.decode (decoder : TextDecoder) (chunk : Bytes) : Text × TextDecoder :=
  let fed := feed decoder.pending chunk
  ((dropMark decoder.bomSeen fed.1).flatMap utf16, ⟨fed.2, decoder.bomSeen || !fed.1.isEmpty⟩)

/-- `line.replace(/\r$/, '')`. -/
def withoutReturn (line : Text) : Text :=
  if line.getLast? = some CARRIAGE_RETURN then line.dropLast else line

/-- The loop over the line ends of the buffer: the lines that are yielded and what is left. -/
def takeLines : ℕ → Text → List Text × Text
  | 0, buffer => ([], buffer)
  | fuel + 1, buffer =>
    match buffer.findIdx? (· = LINE_FEED) with
    | none => ([], buffer)
    | some newlineIndex =>
      let line := withoutReturn (buffer.take newlineIndex)
      let rest := takeLines fuel (buffer.drop (newlineIndex + 1))
      (if line = [] then rest.1 else line :: rest.1, rest.2)

/-- The last line, which has no line end. -/
def tailLine (buffer : Text) : List Text := if trim buffer = [] then [] else [trim buffer]

def readChunks : TextDecoder → Text → List Bytes → List Text
  | _, buffer, [] => tailLine buffer
  | decoder, buffer, chunk :: chunks =>
    let decoded := decoder.decode chunk
    let taken := takeLines (buffer ++ decoded.1).length (buffer ++ decoded.1)
    taken.1 ++ readChunks decoded.2 taken.2 chunks

/-- The lines of a response, whose body is `null` or is read in chunks. -/
def iterateLines : Option (List Bytes) → List Text
  | none => []
  | some chunks => readChunks .new [] chunks

/-! ## Lines of a whole text -/

/-- The lines of a text that have an end, without it, and what stands behind them. -/
def linesOf : Text → List Text × Text
  | [] => ([], [])
  | c :: text =>
    if c = LINE_FEED then ([] :: (linesOf text).1, (linesOf text).2)
    else
      match (linesOf text).1 with
      | [] => ([], c :: (linesOf text).2)
      | line :: lines => ((c :: line) :: lines, (linesOf text).2)

def kept (lines : List Text) : List Text := (lines.map withoutReturn).filter (· ≠ [])

/-- The lines that are not empty; only the last one, without an end, is trimmed. -/
def bodyLines (text : Text) : List Text := kept (linesOf text).1 ++ tailLine (linesOf text).2

theorem linesOf_append (a b : Text) :
    linesOf (a ++ b) =
      ((linesOf a).1 ++ (linesOf ((linesOf a).2 ++ b)).1, (linesOf ((linesOf a).2 ++ b)).2) := by
  induction a with
  | nil => rfl
  | cons c a ih =>
    rw [List.cons_append, linesOf, linesOf, ih]
    split
    · rfl
    · next hc =>
      cases hlines : (linesOf a).1 with
      | nil =>
        dsimp only
        rw [List.nil_append, List.nil_append, List.cons_append, linesOf, if_neg hc]
      | cons line lines => rfl

theorem linesOf_rest (a : Text) : linesOf (linesOf a).2 = ([], (linesOf a).2) := by
  have h := linesOf_append a []
  rw [List.append_nil, List.append_nil, Prod.ext_iff] at h
  exact Prod.ext (List.self_eq_append_right.mp h.1) h.2.symm

theorem linesOf_of_notMem {text : Text} (h : LINE_FEED ∉ text) : linesOf text = ([], text) := by
  induction text with
  | nil => rfl
  | cons c text ih =>
    rw [List.mem_cons, not_or] at h
    rw [linesOf, if_neg (Ne.symm h.1), ih h.2]

theorem linesOf_line {line : Text} (h : LINE_FEED ∉ line) (rest : Text) :
    linesOf (line ++ LINE_FEED :: rest) = (line :: (linesOf rest).1, (linesOf rest).2) := by
  induction line with
  | nil => rw [List.nil_append, linesOf, if_pos rfl]
  | cons c line ih =>
    rw [List.mem_cons, not_or] at h
    rw [List.cons_append, linesOf, if_neg (Ne.symm h.1), ih h.2]

theorem kept_cons (line : Text) (lines : List Text) :
    kept (line :: lines) =
      if withoutReturn line = [] then kept lines else withoutReturn line :: kept lines := by
  rw [kept, List.map_cons, List.filter_cons]
  by_cases h : withoutReturn line = [] <;> simp [h, kept]

variable {buffer : Text}

theorem takeLines_eq {fuel : ℕ} (hfuel : buffer.length ≤ fuel) :
    takeLines fuel buffer = (kept (linesOf buffer).1, (linesOf buffer).2) := by
  induction fuel generalizing buffer with
  | zero =>
    rw [List.eq_nil_of_length_eq_zero (Nat.le_zero.mp hfuel)]
    rfl
  | succ fuel ih =>
    rw [takeLines]
    cases hindex : buffer.findIdx? (· = LINE_FEED) with
    | none =>
      have hnone : LINE_FEED ∉ buffer := fun hmem => by
        simpa using List.findIdx?_eq_none_iff.mp hindex _ hmem
      rw [linesOf_of_notMem hnone]
      rfl
    | some newlineIndex =>
      obtain ⟨hlt, hfeed, hbefore⟩ := List.findIdx?_eq_some_iff_getElem.mp hindex
      have hline : LINE_FEED ∉ buffer.take newlineIndex := by
        intro hmem
        obtain ⟨i, hi, hget⟩ := List.getElem_of_mem hmem
        rw [List.length_take] at hi
        rw [List.getElem_take] at hget
        simpa [hget] using hbefore i (by omega)
      have hsplit : buffer = buffer.take newlineIndex ++
          LINE_FEED :: buffer.drop (newlineIndex + 1) := by
        conv_lhs => rw [← List.take_append_drop newlineIndex buffer, List.drop_eq_getElem_cons hlt,
          of_decide_eq_true hfeed]
      have hlines := linesOf_line hline (buffer.drop (newlineIndex + 1))
      rw [← hsplit] at hlines
      dsimp only
      rw [ih (by rw [List.length_drop]; omega), hlines]
      dsimp only
      rw [kept_cons]

/-! ## Chunks -/

theorem feed_append (p : Utf8Pending) (a b : Bytes) :
    feed p (a ++ b) = ((feed p a).1 ++ (feed (feed p a).2 b).1, (feed (feed p a).2 b).2) := by
  induction a generalizing p with
  | nil => rfl
  | cons byte a ih => rw [List.cons_append, feed, feed, ih, List.append_assoc]

/-- Decoding goes on behind a chunk as if there had been no cut. -/
theorem decode_append (decoder : TextDecoder) (a b : Bytes) :
    (decoder.decode (a ++ b)).1 =
      (decoder.decode a).1 ++ ((decoder.decode a).2.decode b).1 := by
  have hmark (seen : Bool) (front back : List Char) : dropMark seen (front ++ back) =
      dropMark seen front ++ dropMark (seen || !front.isEmpty) back := by
    cases front with
    | nil => cases seen <;> simp [dropMark]
    | cons c front => by_cases hc : c = BYTE_ORDER_MARK <;> cases seen <;> simp [dropMark, hc]
  simp only [TextDecoder.decode, feed_append, hmark, List.flatMap_append]

theorem decode_nil (decoder : TextDecoder) : (decoder.decode []).1 = [] := by
  simp [TextDecoder.decode, feed, dropMark]

theorem readChunks_eq (decoder : TextDecoder) (hbuffer : linesOf buffer = ([], buffer))
    (chunks : List Bytes) :
    readChunks decoder buffer chunks =
      bodyLines (buffer ++ (decoder.decode chunks.flatten).1) := by
  induction chunks generalizing decoder buffer with
  | nil =>
    rw [List.flatten_nil, decode_nil, List.append_nil, bodyLines, hbuffer]
    rfl
  | cons chunk chunks ih =>
    rw [readChunks, takeLines_eq le_rfl]
    dsimp only
    rw [ih _ (linesOf_rest _), List.flatten_cons, decode_append, bodyLines, bodyLines,
      ← List.append_assoc buffer, linesOf_append (buffer ++ _), kept, kept, kept, List.map_append,
      List.filter_append, List.append_assoc]

end ArduConfigurator.AiAssistant
