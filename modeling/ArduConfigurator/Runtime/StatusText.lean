import ArduConfigurator.Lib.Entries
import ArduConfigurator.Lib.Runs
import ArduConfigurator.Lib.TextBytes

/-! # Status texts

Texts of the autopilot that are longer than one message come in chunks. The runtime keeps the chunks
of a text in a buffer until a chunk that is not full completes it, the buffer grows stale, or room
is needed for another. -/
namespace ArduConfigurator.Runtime
open Runs
set_option autoImplicit false

def STATUS_TEXT_HISTORY_LIMIT : ℕ := 500
def STATUSTEXT_CHUNK_SIZE : ℕ := 50
def STATUSTEXT_CHUNK_TIMEOUT_MS : ℕ := 2000
def STATUSTEXT_MAX_IN_FLIGHT_BUFFERS : ℕ := 16
def STATUSTEXT_MAX_CHUNKS_PER_BUFFER : ℕ := 32

/-! ## Severities and reasons not to arm -/

inductive StatusSeverity
  | info
  | warning
  | error

def severityName (severity : ℕ) : StatusSeverity :=
  if severity ≤ 3 then .error else if severity = 4 then .warning else .info

def isWordUnit (c : UInt16) : Bool :=
  (0x30 ≤ c ∧ c ≤ 0x39) ∨ (0x41 ≤ c ∧ c ≤ 0x5A) ∨ c = 0x5F ∨ (0x61 ≤ c ∧ c ≤ 0x7A)

def lowerUnit (c : UInt16) : UInt16 := if 0x41 ≤ c ∧ c ≤ 0x5A then c + 0x20 else c

def isLineTerminator (c : UInt16) : Bool := c = 0x0A ∨ c = 0x0D ∨ c = 0x2028 ∨ c = 0x2029

/-- `[:\s-]` -/
def isReasonSeparator (c : UInt16) : Bool := c = 0x3A ∨ c = 0x2D ∨ isWhiteSpace c

/-- `[:\s-]*(.+)$` -/
def isReason (rest : Text) : Bool :=
  (List.range rest.length).any fun k =>
    (rest.take k).all isReasonSeparator && (rest.drop k).all fun c => !isLineTerminator c

/-- `normalizePreArmIssueText(text)` gives a text. -/
def isPreArmIssueText (text : Text) : Bool :=
  let normalized := trim text
  (List.range normalized.length).any fun k =>
    !((normalized.take k).getLast?.any isWordUnit) &&
      (((normalized.drop k).take 6).map lowerUnit == units "prearm") &&
      isReason (normalized.drop (k + 6))

/-! ## The data -/

structure StatusTextMessage where
  severity : ℕ
  text : Text
  statusId : ℕ
  chunkSequence : ℕ

structure StatusTextEntry where
  severity : StatusSeverity
  text : Text
  receivedAtMs : ℕ

structure ChunkBuffer where
  severity : ℕ
  chunks : JsMap ℕ Text
  startedAtMs : ℕ

/-- `recorded` keeps every text that was recorded, with the id it came under. -/
structure StatusFeed where
  statusTextChunkBuffers : JsMap ℕ ChunkBuffer
  statusTexts : List StatusTextEntry
  recorded : List (ℕ × Text)

def StatusFeed.initial : StatusFeed := ⟨JsMap.empty, [], []⟩

namespace ChunkBuffer

def text (buffer : ChunkBuffer) : Text :=
  (buffer.chunks.keys.insertionSort (· ≤ ·)).flatMap fun seq => (buffer.chunks.get seq).getD []

end ChunkBuffer

namespace StatusFeed
variable (f : StatusFeed)

/-! ## Recording a text -/

def emitStatusText (statusId severityCode : ℕ) (text : Text) (now : ℕ) : StatusFeed :=
  let entry : StatusTextEntry := ⟨severityName severityCode, text, now⟩
  let recorded := f.recorded ++ [(statusId, text)]
  match if isPreArmIssueText text then f.statusTexts.findIdx? (·.text == text) else none with
  | some existingPreArmIndex =>
    { f with statusTexts := entry :: f.statusTexts.eraseIdx existingPreArmIndex, recorded }
  | none =>
    { f with
      statusTexts := (entry :: f.statusTexts).take STATUS_TEXT_HISTORY_LIMIT
      recorded }

def flushStatusTextChunkBuffer (now statusId : ℕ) : StatusFeed :=
  match f.statusTextChunkBuffers.get statusId with
  | none => f
  | some buffer =>
    let f := { f with statusTextChunkBuffers := f.statusTextChunkBuffers.delete statusId }
    if buffer.text = [] then f else f.emitStatusText statusId buffer.severity buffer.text now

def isStale (now : ℕ) (entry : ℕ × ChunkBuffer) : Bool :=
  entry.2.startedAtMs + STATUSTEXT_CHUNK_TIMEOUT_MS < now

def flushStaleStatusTextChunks (now : ℕ) : StatusFeed :=
  ((f.statusTextChunkBuffers.entries.filter (isStale now)).map Prod.fst).foldl
    (fun f id => f.flushStatusTextChunkBuffer now id) f

/-! ## Buffers -/

def earlier (best : Option (ℕ × ChunkBuffer)) (entry : ℕ × ChunkBuffer) :
    Option (ℕ × ChunkBuffer) :=
  match best with
  | none => some entry
  | some oldest => if entry.2.startedAtMs < oldest.2.startedAtMs then some entry else some oldest

def oldestId : Option ℕ := (f.statusTextChunkBuffers.entries.foldl earlier none).map Prod.fst

def makeRoom (now : ℕ) : StatusFeed :=
  if STATUSTEXT_MAX_IN_FLIGHT_BUFFERS ≤ f.statusTextChunkBuffers.size then
    match f.oldestId with
    | some id => f.flushStatusTextChunkBuffer now id
    | none => f
  else f

def openBuffer (message : StatusTextMessage) (now : ℕ) : StatusFeed × ChunkBuffer :=
  match f.statusTextChunkBuffers.get message.statusId with
  | some buffer => (f, buffer)
  | none => (f.makeRoom now, ⟨message.severity, JsMap.empty, now⟩)

def setBuffer (statusId : ℕ) (buffer : ChunkBuffer) : StatusFeed :=
  { f with statusTextChunkBuffers := f.statusTextChunkBuffers.set statusId buffer }

def addChunk (message : StatusTextMessage) (now : ℕ) : StatusFeed :=
  let (f, buffer) := f.openBuffer message now
  let buffer := { buffer with chunks := buffer.chunks.set message.chunkSequence message.text }
  let f := f.setBuffer message.statusId buffer
  if STATUSTEXT_MAX_CHUNKS_PER_BUFFER < buffer.chunks.size then
    f.flushStatusTextChunkBuffer now message.statusId
  else if message.text.length < STATUSTEXT_CHUNK_SIZE then
    f.flushStatusTextChunkBuffer now message.statusId
  else f

def processStatusText (message : StatusTextMessage) (now : ℕ) : StatusFeed :=
  let f := f.flushStaleStatusTextChunks now
  if message.statusId = 0 then f.emitStatusText 0 message.severity message.text now
  else f.addChunk message now

def clearStatusTexts : StatusFeed :=
  if f.statusTexts = [] then f
  else { f with statusTexts := [], statusTextChunkBuffers := JsMap.empty }

end StatusFeed

/-! ## Runs -/

inductive StatusEvent
  | statusText (message : StatusTextMessage) (now : ℕ)
  | clearStatusTexts
  | resetLiveState

def StatusFeed.step (f : StatusFeed) : StatusEvent → Option StatusFeed
  | .statusText message now => some (f.processStatusText message now)
  | .clearStatusTexts => some f.clearStatusTexts
  | .resetLiveState => some { f with statusTexts := [], statusTextChunkBuffers := JsMap.empty }

namespace StatusFeed
variable {f : StatusFeed}

/-! ## What each operation leaves of the buffers -/

@[simp] theorem emitStatusText_buffers (statusId severityCode : ℕ) (text : Text) (now : ℕ) :
    (f.emitStatusText statusId severityCode text now).statusTextChunkBuffers =
      f.statusTextChunkBuffers := by
  unfold emitStatusText
  simp only
  split <;> rfl

@[simp] theorem emitStatusText_recorded (statusId severityCode : ℕ) (text : Text) (now : ℕ) :
    (f.emitStatusText statusId severityCode text now).recorded =
      f.recorded ++ [(statusId, text)] := by
  unfold emitStatusText
  simp only
  split <;> rfl

theorem flush_get (now statusId id : ℕ) :
    (f.flushStatusTextChunkBuffer now statusId).statusTextChunkBuffers.get id =
      if id = statusId then none else f.statusTextChunkBuffers.get id := by
  unfold flushStatusTextChunkBuffer
  cases hget : f.statusTextChunkBuffers.get statusId with
  | none =>
    simp only
    split_ifs with h
    · rw [h, hget]
    · rfl
  | some buffer =>
    simp only
    split_ifs <;> simp_all

theorem flush_recorded (now statusId : ℕ) :
    (f.flushStatusTextChunkBuffer now statusId).recorded =
      f.recorded ++ ((f.statusTextChunkBuffers.get statusId).toList.filter
        (·.text ≠ [])).map fun buffer => (statusId, buffer.text) := by
  unfold flushStatusTextChunkBuffer
  cases f.statusTextChunkBuffers.get statusId with
  | none => simp
  | some buffer =>
    simp only
    split_ifs with h
    · simp [h]
    · simp [h]

/-! ## The limits -/

structure Limited (f : StatusFeed) : Prop where
  buffers : f.statusTextChunkBuffers.size ≤ STATUSTEXT_MAX_IN_FLIGHT_BUFFERS
  chunks : ∀ id buffer, f.statusTextChunkBuffers.get id = some buffer →
    buffer.chunks.size ≤ STATUSTEXT_MAX_CHUNKS_PER_BUFFER

theorem flush_size_le (now statusId : ℕ) :
    (f.flushStatusTextChunkBuffer now statusId).statusTextChunkBuffers.size ≤
      f.statusTextChunkBuffers.size := by
  unfold flushStatusTextChunkBuffer
  cases f.statusTextChunkBuffers.get statusId with
  | none => exact Nat.le_refl _
  | some buffer =>
    simp only
    split_ifs
    · exact JsMap.size_delete_le _ _
    · rw [emitStatusText_buffers]
      exact JsMap.size_delete_le _ _

theorem flush_size_lt {now statusId : ℕ} (h : f.statusTextChunkBuffers.has statusId = true) :
    (f.flushStatusTextChunkBuffer now statusId).statusTextChunkBuffers.size <
      f.statusTextChunkBuffers.size := by
  obtain ⟨buffer, hbuffer⟩ := Option.isSome_iff_exists.mp h
  unfold flushStatusTextChunkBuffer
  rw [hbuffer]
  simp only
  split_ifs
  · exact JsMap.size_delete_lt h
  · rw [emitStatusText_buffers]
    exact JsMap.size_delete_lt h

theorem Limited.flush (h : f.Limited) (now statusId : ℕ) :
    (f.flushStatusTextChunkBuffer now statusId).Limited := by
  refine ⟨(flush_size_le now statusId).trans h.buffers, fun id buffer hget => ?_⟩
  rw [flush_get] at hget
  split_ifs at hget
  exact h.chunks id buffer hget

theorem Limited.flushAll (h : f.Limited) (now : ℕ) (ids : List ℕ) :
    (ids.foldl (fun f id => f.flushStatusTextChunkBuffer now id) f).Limited := by
  induction ids generalizing f with
  | nil => exact h
  | cons id ids ih => exact ih (h.flush now id)

theorem earlier_isSome (entries : List (ℕ × ChunkBuffer)) (entry : ℕ × ChunkBuffer) :
    ∃ oldest ∈ entry :: entries, (entries.foldl earlier (some entry)) = some oldest := by
  induction entries generalizing entry with
  | nil => exact ⟨entry, List.mem_singleton.mpr rfl, rfl⟩
  | cons next entries ih =>
    rw [List.foldl_cons, earlier]
    split_ifs
    · obtain ⟨oldest, hmem, heq⟩ := ih next
      exact ⟨oldest, List.mem_cons_of_mem _ hmem, heq⟩
    · obtain ⟨oldest, hmem, heq⟩ := ih entry
      refine ⟨oldest, ?_, heq⟩
      obtain rfl | hmem := List.mem_cons.mp hmem
      · exact List.mem_cons_self
      · exact List.mem_cons_of_mem _ (List.mem_cons_of_mem _ hmem)

theorem oldestId_of_size_pos (h : 0 < f.statusTextChunkBuffers.size) :
    ∃ id, f.oldestId = some id ∧ f.statusTextChunkBuffers.has id = true := by
  obtain ⟨entry, entries, hentries⟩ := List.exists_cons_of_length_pos h
  obtain ⟨oldest, hmem, heq⟩ := earlier_isSome entries entry
  refine ⟨oldest.1, ?_, ?_⟩
  · rw [oldestId, hentries, List.foldl_cons, earlier, heq]
    rfl
  · rw [← hentries] at hmem
    rw [JsMap.has, JsMap.mem_entries_iff.mp hmem]
    rfl

theorem makeRoom_size_lt (h : f.statusTextChunkBuffers.size ≤ STATUSTEXT_MAX_IN_FLIGHT_BUFFERS)
    (now : ℕ) :
    (f.makeRoom now).statusTextChunkBuffers.size < STATUSTEXT_MAX_IN_FLIGHT_BUFFERS := by
  unfold makeRoom
  split_ifs with hfull
  · obtain ⟨id, hid, hhas⟩ := f.oldestId_of_size_pos (Nat.lt_of_lt_of_le (by decide) hfull)
    rw [hid]
    exact (flush_size_lt hhas).trans_le h
  · exact Nat.lt_of_not_le hfull

theorem Limited.makeRoom (h : f.Limited) (now : ℕ) : (f.makeRoom now).Limited := by
  unfold StatusFeed.makeRoom
  split_ifs
  · cases f.oldestId with
    | none => exact h
    | some id => exact h.flush now id
  · exact h

theorem Limited.openBuffer (h : f.Limited) (message : StatusTextMessage) (now : ℕ) :
    (f.openBuffer message now).1.Limited ∧
      (f.openBuffer message now).2.chunks.size ≤ STATUSTEXT_MAX_CHUNKS_PER_BUFFER ∧
      ((f.openBuffer message now).1.statusTextChunkBuffers.has message.statusId = true ∨
        (f.openBuffer message now).1.statusTextChunkBuffers.size <
          STATUSTEXT_MAX_IN_FLIGHT_BUFFERS) := by
  unfold StatusFeed.openBuffer
  cases hget : f.statusTextChunkBuffers.get message.statusId with
  | none => exact ⟨h.makeRoom now, Nat.zero_le _, .inr (makeRoom_size_lt h.buffers now)⟩
  | some buffer =>
    exact ⟨h, h.chunks _ _ hget, .inl (Option.isSome_iff_exists.mpr ⟨buffer, hget⟩)⟩

theorem Limited.addChunk (h : f.Limited) (message : StatusTextMessage) (now : ℕ) :
    (f.addChunk message now).Limited := by
  obtain ⟨hopen, hchunks, hroom⟩ := h.openBuffer message now
  unfold StatusFeed.addChunk
  generalize f.openBuffer message now = opened at hopen hchunks hroom ⊢
  obtain ⟨g, buffer⟩ := opened
  simp only at hopen hchunks hroom ⊢
  have hsize (b : ChunkBuffer) :
      (g.setBuffer message.statusId b).statusTextChunkBuffers.size ≤
        STATUSTEXT_MAX_IN_FLIGHT_BUFFERS := by
    obtain hhas | hlt := hroom
    · exact (JsMap.size_set_of_has hhas b).trans_le hopen.buffers
    · exact (JsMap.size_set_le _ _ b).trans hlt
  have hset (b : ChunkBuffer) (hb : b.chunks.size ≤ STATUSTEXT_MAX_CHUNKS_PER_BUFFER) :
      (g.setBuffer message.statusId b).Limited := by
    refine ⟨hsize b, fun id buffer hget => ?_⟩
    rw [setBuffer, JsMap.get_set] at hget
    split_ifs at hget
    · cases hget
      exact hb
    · exact hopen.chunks id buffer hget
  split_ifs with hmany hshort
  · refine ⟨(flush_size_le _ _).trans (hsize _), fun id b hget => ?_⟩
    rw [flush_get] at hget
    split_ifs at hget with hid
    rw [setBuffer, JsMap.get_set, if_neg hid] at hget
    exact hopen.chunks id b hget
  · exact (hset _ (Nat.le_of_not_lt hmany)).flush _ _
  · exact hset _ (Nat.le_of_not_lt hmany)

theorem Limited.processStatusText (h : f.Limited) (message : StatusTextMessage) (now : ℕ) :
    (f.processStatusText message now).Limited := by
  have hfresh : (f.flushStaleStatusTextChunks now).Limited := h.flushAll now _
  unfold StatusFeed.processStatusText
  simp only
  split_ifs
  · exact ⟨by rw [emitStatusText_buffers]; exact hfresh.buffers,
      by rw [emitStatusText_buffers]; exact hfresh.chunks⟩
  · exact hfresh.addChunk message now

theorem limited_empty (statusTexts : List StatusTextEntry) (recorded : List (ℕ × Text)) :
    (⟨JsMap.empty, statusTexts, recorded⟩ : StatusFeed).Limited :=
  ⟨Nat.zero_le _, fun _ _ hget => by cases hget⟩

theorem Limited.step {g : StatusFeed} {event : StatusEvent} (h : f.Limited)
    (hstep : f.step event = some g) : g.Limited := by
  cases event with
  | statusText message now => cases hstep; exact h.processStatusText message now
  | clearStatusTexts =>
    cases hstep
    unfold StatusFeed.clearStatusTexts
    split_ifs
    · exact h
    · exact limited_empty _ _
  | resetLiveState => cases hstep; exact limited_empty _ _

theorem limited_of_run {events : List StatusEvent} (h : run step initial events = some f) :
    f.Limited :=
  run_invariant (fun _ _ _ hI hstep => hI.step hstep) (limited_empty _ _) h

end StatusFeed
end ArduConfigurator.Runtime
