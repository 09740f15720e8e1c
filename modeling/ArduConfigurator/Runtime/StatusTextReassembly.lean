import ArduConfigurator.Runtime.StatusText

/-! # Reassembly of status texts

For one text the runtime's buffers come down to a receiver that sees the chunks of this text only. It
joins the chunks that are there when one arrives that is not full, so a text comes out whole just
when its last chunk arrives last. -/
namespace ArduConfigurator.Runtime
set_option autoImplicit false

abbrev SequencedChunk := ℕ × Text

def joinChunks (chunks : List SequencedChunk) : Text :=
  ((Entries.keys chunks).insertionSort (· ≤ ·)).flatMap fun seq =>
    (Entries.get chunks seq).getD []

/-! ## Joining chunks -/

section Join
variable {chunks arrivals : List SequencedChunk}

theorem insertionSort_perm_eq {l m : List ℕ} (h : l.Perm m) :
    l.insertionSort (· ≤ ·) = m.insertionSort (· ≤ ·) :=
  (((List.perm_insertionSort _ l).trans h).trans (List.perm_insertionSort _ m).symm).eq_of_pairwise
    (fun _ _ _ _ => Nat.le_antisymm) (List.pairwise_insertionSort _ l)
    (List.pairwise_insertionSort _ m)

theorem get_perm (h : arrivals.Perm chunks) (hchunks : (Entries.keys chunks).Nodup) (seq : ℕ) :
    Entries.get arrivals seq = Entries.get chunks seq := by
  have hkeys : (Entries.keys arrivals).Perm (Entries.keys chunks) := h.map _
  have harrivals : (Entries.keys arrivals).Nodup := hkeys.nodup_iff.mpr hchunks
  cases hget : Entries.get chunks seq with
  | none =>
    rw [Entries.get_eq_none_iff] at hget ⊢
    exact fun hmem => hget (hkeys.mem_iff.mp hmem)
  | some text =>
    exact Entries.get_of_mem harrivals (h.mem_iff.mpr (Entries.mem_of_get hget))

theorem joinChunks_perm (h : arrivals.Perm chunks) (hchunks : (Entries.keys chunks).Nodup) :
    joinChunks arrivals = joinChunks chunks := by
  have hkeys : (Entries.keys arrivals).Perm (Entries.keys chunks) := h.map _
  rw [joinChunks, insertionSort_perm_eq hkeys, joinChunks]
  simp only [get_perm h hchunks]

theorem flatMap_get (hchunks : (Entries.keys chunks).Nodup) :
    (Entries.keys chunks).flatMap (fun seq => (Entries.get chunks seq).getD []) =
      chunks.flatMap Prod.snd := by
  rw [Entries.keys, List.flatMap_map]
  refine List.flatMap_congr fun chunk hmem => ?_
  rw [Entries.get_of_mem hchunks hmem]
  rfl

theorem joinChunks_of_sorted (hsorted : (Entries.keys chunks).Pairwise (· < ·)) :
    joinChunks chunks = chunks.flatMap Prod.snd := by
  have hle : (Entries.keys chunks).Pairwise (· ≤ ·) := hsorted.imp Nat.le_of_lt
  rw [joinChunks, hle.insertionSort_eq]
  exact flatMap_get (hsorted.imp Nat.ne_of_lt)

theorem length_joinChunks (hchunks : (Entries.keys chunks).Nodup) :
    (joinChunks chunks).length = (chunks.flatMap Prod.snd).length := by
  rw [← flatMap_get hchunks, joinChunks]
  exact ((List.perm_insertionSort _ _).flatMap_right _).length_eq

end Join

/-! ## The receiver of one text -/

structure Receiver where
  waiting : List SequencedChunk
  out : List Text

def isFull (chunk : SequencedChunk) : Prop := STATUSTEXT_CHUNK_SIZE ≤ chunk.2.length

instance (chunk : SequencedChunk) : Decidable (isFull chunk) :=
  inferInstanceAs (Decidable (_ ≤ _))

def recordedText (text : Text) : List Text := if text = [] then [] else [text]

namespace Receiver

def receive (r : Receiver) (chunk : SequencedChunk) : Receiver :=
  if isFull chunk then { r with waiting := r.waiting ++ [chunk] }
  else ⟨[], r.out ++ recordedText (joinChunks (r.waiting ++ [chunk]))⟩

def receiveAll (r : Receiver) (chunks : List SequencedChunk) : Receiver := chunks.foldl receive r

theorem receiveAll_append (r : Receiver) (chunks more : List SequencedChunk) :
    r.receiveAll (chunks ++ more) = (r.receiveAll chunks).receiveAll more :=
  List.foldl_append

theorem receiveAll_full (r : Receiver) {chunks : List SequencedChunk}
    (hfull : ∀ chunk ∈ chunks, isFull chunk) :
    r.receiveAll chunks = ⟨r.waiting ++ chunks, r.out⟩ := by
  induction chunks generalizing r with
  | nil => rw [List.append_nil]; rfl
  | cons chunk chunks ih =>
    obtain ⟨hchunk, hchunks⟩ := List.forall_mem_cons.mp hfull
    have hreceive : r.receive chunk = ⟨r.waiting ++ [chunk], r.out⟩ := if_pos hchunk
    rw [receiveAll, List.foldl_cons, hreceive]
    refine (ih _ hchunks).trans ?_
    rw [List.append_assoc]
    rfl

theorem receive_short (r : Receiver) {chunk : SequencedChunk} (hshort : ¬ isFull chunk) :
    r.receive chunk = ⟨[], r.out ++ recordedText (joinChunks (r.waiting ++ [chunk]))⟩ :=
  if_neg hshort

theorem receiveAll_behind (waiting : List SequencedChunk) (base out : List Text)
    (chunks : List SequencedChunk) :
    Receiver.receiveAll ⟨waiting, base ++ out⟩ chunks =
      ⟨(Receiver.receiveAll ⟨waiting, out⟩ chunks).waiting,
        base ++ (Receiver.receiveAll ⟨waiting, out⟩ chunks).out⟩ := by
  induction chunks generalizing waiting out with
  | nil => rfl
  | cons chunk chunks ih =>
    simp only [receiveAll, List.foldl_cons] at ih ⊢
    by_cases hfull : isFull chunk
    · rw [receive, receive, if_pos hfull, if_pos hfull]
      exact ih _ out
    · rw [receive_short _ hfull, receive_short _ hfull, List.append_assoc]
      exact ih [] _

end Receiver

/-- Chunks in the order of their numbers: full ones, and one behind them that is not full. -/
structure Chunked (sent : List SequencedChunk) (last : SequencedChunk) : Prop where
  sorted : (Entries.keys (sent ++ [last])).Pairwise (· < ·)
  full : ∀ chunk ∈ sent, isFull chunk
  short : ¬ isFull last

section Arrivals
variable {sent arrivals : List SequencedChunk} {last : SequencedChunk}

theorem Chunked.nodup (h : Chunked sent last) : (Entries.keys (sent ++ [last])).Nodup :=
  h.sorted.imp Nat.ne_of_lt

theorem exists_split (harrivals : arrivals.Perm (sent ++ [last])) :
    ∃ before after, arrivals = before ++ last :: after ∧ (before ++ after).Perm sent := by
  have hmem : last ∈ arrivals :=
    harrivals.mem_iff.mpr (List.mem_append_right _ (List.mem_singleton.mpr rfl))
  obtain ⟨before, after, rfl⟩ := List.append_of_mem hmem
  refine ⟨before, after, rfl, ?_⟩
  have hperm : (last :: (before ++ after)).Perm (last :: sent) :=
    (List.perm_middle.symm.trans harrivals).trans (List.perm_append_singleton last sent)
  exact hperm.cons_inv

variable {before after : List SequencedChunk}

theorem Chunked.receiveAll_eq (h : Chunked sent last) (hperm : (before ++ after).Perm sent) :
    Receiver.receiveAll ⟨[], []⟩ (before ++ last :: after) =
      ⟨after, recordedText (joinChunks (before ++ [last]))⟩ := by
  have hfull : ∀ chunk ∈ before ++ after, isFull chunk :=
    fun chunk hmem => h.full chunk (hperm.mem_iff.mp hmem)
  obtain ⟨hbefore, hafter⟩ := List.forall_mem_append.mp hfull
  have hlast : Receiver.receive ⟨before, []⟩ last =
      ⟨[], recordedText (joinChunks (before ++ [last]))⟩ := Receiver.receive_short _ h.short
  have hsplit : before ++ last :: after = before ++ ([last] ++ after) := rfl
  rw [hsplit, Receiver.receiveAll_append, Receiver.receiveAll_full _ hbefore,
    Receiver.receiveAll_append]
  have hone : Receiver.receiveAll ⟨[] ++ before, []⟩ [last] =
      ⟨[], recordedText (joinChunks (before ++ [last]))⟩ := hlast
  rw [hone, Receiver.receiveAll_full _ hafter]
  rfl

theorem Chunked.after_eq_nil (h : Chunked sent last) (hperm : (before ++ after).Perm sent)
    (hlast : (before ++ last :: after).getLast? = some last) : after = [] := by
  cases after with
  | nil => rfl
  | cons chunk after =>
    exfalso
    rw [List.getLast?_append_cons, List.getLast?_cons_cons] at hlast
    have hmem : last ∈ before ++ chunk :: after :=
      List.mem_append_right _ (List.mem_of_getLast? hlast)
    exact h.short (h.full last (hperm.mem_iff.mp hmem))

theorem Chunked.nothing_waits (h : Chunked sent last)
    (harrivals : arrivals.Perm (sent ++ [last])) (hlast : arrivals.getLast? = some last) :
    (Receiver.receiveAll ⟨[], []⟩ arrivals).waiting = [] := by
  obtain ⟨before, after, rfl, hperm⟩ := exists_split harrivals
  rw [h.receiveAll_eq hperm]
  exact h.after_eq_nil hperm hlast

theorem Chunked.received_iff (h : Chunked sent last)
    (harrivals : arrivals.Perm (sent ++ [last]))
    (htext : (sent ++ [last]).flatMap Prod.snd ≠ []) :
    (Receiver.receiveAll ⟨[], []⟩ arrivals).out = [(sent ++ [last]).flatMap Prod.snd] ↔
      arrivals.getLast? = some last := by
  obtain ⟨before, after, rfl, hperm⟩ := exists_split harrivals
  rw [h.receiveAll_eq hperm]
  constructor
  · intro hout
    cases after with
    | nil => rw [List.getLast?_append_cons]; rfl
    | cons chunk after =>
      exfalso
      have hjoin : joinChunks (before ++ [last]) = (sent ++ [last]).flatMap Prod.snd := by
        simp only [recordedText] at hout
        split_ifs at hout
        exact List.singleton_inj.mp hout
      have hnodup : (Entries.keys (before ++ [last])).Nodup := by
        have hall := (harrivals.map Prod.fst).nodup_iff.mpr h.nodup
        refine hall.sublist (List.Sublist.map _ ?_)
        exact List.Sublist.append_left (List.Sublist.cons_cons _ (List.nil_sublist _)) before
      have hlength := congrArg List.length hjoin
      rw [length_joinChunks hnodup, ← (harrivals.flatMap_right Prod.snd).length_eq] at hlength
      have hchunk : isFull chunk :=
        h.full chunk (hperm.mem_iff.mp (List.mem_append_right _ List.mem_cons_self))
      simp only [isFull, STATUSTEXT_CHUNK_SIZE] at hchunk
      simp only [List.flatMap_append, List.flatMap_cons, List.length_append, List.flatMap_nil,
        List.length_nil] at hlength
      omega
  · intro hlast
    obtain rfl := h.after_eq_nil hperm hlast
    have hjoin : joinChunks (before ++ [last]) = (sent ++ [last]).flatMap Prod.snd := by
      rw [joinChunks_perm harrivals h.nodup, joinChunks_of_sorted h.sorted]
    rw [hjoin, recordedText, if_neg htext]

end Arrivals

/-! ## One id among the buffers -/

namespace StatusFeed
variable {f : StatusFeed} {id : ℕ}

def recordedUnder (f : StatusFeed) (id : ℕ) : List Text :=
  (f.recorded.filter (·.1 = id)).map Prod.snd

def waitingUnder (f : StatusFeed) (id : ℕ) : List SequencedChunk :=
  (f.statusTextChunkBuffers.get id).elim [] (·.chunks.entries)

def SameUnder (id : ℕ) (f g : StatusFeed) : Prop :=
  g.statusTextChunkBuffers.get id = f.statusTextChunkBuffers.get id ∧
    g.recordedUnder id = f.recordedUnder id

variable {g : StatusFeed}

theorem SameUnder.trans {k : StatusFeed} (h : SameUnder id f g) (h' : SameUnder id g k) :
    SameUnder id f k := ⟨h'.1.trans h.1, h'.2.trans h.2⟩

variable {statusId : ℕ}

theorem sameUnder_emit (hne : statusId ≠ id) (severity : ℕ) (text : Text) (now : ℕ) :
    SameUnder id f (f.emitStatusText statusId severity text now) := by
  refine ⟨by rw [emitStatusText_buffers], ?_⟩
  rw [recordedUnder, emitStatusText_recorded, List.filter_append, List.map_append, recordedUnder]
  simp [hne]

theorem sameUnder_flush (hne : statusId ≠ id) (now : ℕ) :
    SameUnder id f (f.flushStatusTextChunkBuffer now statusId) := by
  refine ⟨by rw [flush_get, if_neg hne.symm], ?_⟩
  rw [recordedUnder, flush_recorded, List.filter_append, List.map_append, recordedUnder]
  cases f.statusTextChunkBuffers.get statusId with
  | none => simp
  | some buffer => by_cases h : buffer.text = [] <;> simp [h, hne]

variable {ids : List ℕ}

theorem sameUnder_flushAll (hids : id ∉ ids) (now : ℕ) :
    SameUnder id f (ids.foldl (fun f id => f.flushStatusTextChunkBuffer now id) f) := by
  induction ids generalizing f with
  | nil => exact ⟨rfl, rfl⟩
  | cons statusId ids ih =>
    obtain ⟨hne, hids⟩ := not_or.mp (List.mem_cons.not.mp hids)
    exact (sameUnder_flush (Ne.symm hne) now).trans (ih hids)

theorem sameUnder_flushStale {now : ℕ}
    (hfresh : ∀ buffer, f.statusTextChunkBuffers.get id = some buffer →
      now ≤ buffer.startedAtMs + STATUSTEXT_CHUNK_TIMEOUT_MS) :
    SameUnder id f (f.flushStaleStatusTextChunks now) := by
  refine sameUnder_flushAll (fun hmem => ?_) now
  obtain ⟨⟨seq, buffer⟩, hentry, rfl⟩ := List.mem_map.mp hmem
  obtain ⟨hentry, hstale⟩ := List.mem_filter.mp hentry
  have hle := hfresh buffer (JsMap.mem_entries_iff.mp hentry)
  have hlt : buffer.startedAtMs + STATUSTEXT_CHUNK_TIMEOUT_MS < now := of_decide_eq_true hstale
  omega

theorem sameUnder_makeRoom {now : ℕ}
    (hroom : f.statusTextChunkBuffers.get id = none ∨
      f.statusTextChunkBuffers.size < STATUSTEXT_MAX_IN_FLIGHT_BUFFERS) :
    SameUnder id f (f.makeRoom now) := by
  unfold makeRoom
  split_ifs with hfull
  · obtain ⟨oldest, holdest, hhas⟩ := f.oldestId_of_size_pos (Nat.lt_of_lt_of_le (by decide) hfull)
    rw [holdest]
    refine sameUnder_flush ?_ now
    rintro rfl
    obtain hnone | hlt := hroom
    · rw [JsMap.has, hnone] at hhas
      cases hhas
    · exact absurd hlt (Nat.not_lt_of_le hfull)
  · exact ⟨rfl, rfl⟩

theorem sameUnder_addChunk {message : StatusTextMessage} {now : ℕ}
    (hne : message.statusId ≠ id)
    (hroom : f.statusTextChunkBuffers.has message.statusId = true ∨
      f.statusTextChunkBuffers.get id = none ∨
        f.statusTextChunkBuffers.size < STATUSTEXT_MAX_IN_FLIGHT_BUFFERS) :
    SameUnder id f (f.addChunk message now) := by
  have hopen : SameUnder id f (f.openBuffer message now).1 := by
    unfold openBuffer
    cases hget : f.statusTextChunkBuffers.get message.statusId with
    | some buffer => exact ⟨rfl, rfl⟩
    | none =>
      refine sameUnder_makeRoom (hroom.resolve_left fun hhas => ?_)
      rw [JsMap.has, hget] at hhas
      cases hhas
  refine hopen.trans ?_
  unfold addChunk
  generalize f.openBuffer message now = opened
  obtain ⟨g, buffer⟩ := opened
  simp only
  have hset (b : ChunkBuffer) : SameUnder id g (g.setBuffer message.statusId b) :=
    ⟨by rw [setBuffer, JsMap.get_set, if_neg hne.symm], rfl⟩
  split_ifs
  · exact (hset _).trans (sameUnder_flush hne now)
  · exact (hset _).trans (sameUnder_flush hne now)
  · exact hset _

/-! ## A chunk of the text -/

variable {buffer : ChunkBuffer}

theorem waitingUnder_setBuffer :
    (f.setBuffer id buffer).waitingUnder id = buffer.chunks.entries := by
  rw [waitingUnder, setBuffer, JsMap.get_set, if_pos rfl]
  rfl

theorem flush_own (now : ℕ) :
    (f.flushStatusTextChunkBuffer now id).waitingUnder id = [] ∧
      (f.flushStatusTextChunkBuffer now id).recordedUnder id =
        f.recordedUnder id ++ recordedText (joinChunks (f.waitingUnder id)) := by
  refine ⟨by rw [waitingUnder, flush_get, if_pos rfl]; rfl, ?_⟩
  rw [recordedUnder, flush_recorded, List.filter_append, List.map_append, recordedUnder,
    waitingUnder]
  cases f.statusTextChunkBuffers.get id with
  | none => simp [recordedText, joinChunks]
  | some buffer =>
    have htext : joinChunks buffer.chunks.entries = buffer.text := rfl
    by_cases h : buffer.text = [] <;> simp [h, recordedText, htext]

def receiver (f : StatusFeed) (id : ℕ) : Receiver := ⟨f.waitingUnder id, f.recordedUnder id⟩

theorem receiver_of_same (h : SameUnder id f g) : g.receiver id = f.receiver id := by
  rw [receiver, waitingUnder, h.1, h.2]
  rfl

theorem openBuffer_own (message : StatusTextMessage) (now : ℕ) :
    SameUnder message.statusId f (f.openBuffer message now).1 ∧
      (f.openBuffer message now).2.chunks.entries = f.waitingUnder message.statusId := by
  unfold openBuffer waitingUnder
  cases hget : f.statusTextChunkBuffers.get message.statusId with
  | some buffer => exact ⟨⟨rfl, rfl⟩, rfl⟩
  | none => exact ⟨sameUnder_makeRoom (.inl hget), rfl⟩

theorem receiver_addChunk {message : StatusTextMessage} {now : ℕ}
    (hnew : message.chunkSequence ∉ Entries.keys (f.waitingUnder message.statusId))
    (hfew : (f.waitingUnder message.statusId).length < STATUSTEXT_MAX_CHUNKS_PER_BUFFER) :
    (f.addChunk message now).receiver message.statusId =
      (f.receiver message.statusId).receive (message.chunkSequence, message.text) := by
  obtain ⟨hsame, hentries⟩ := f.openBuffer_own message now
  have hreceiver := receiver_of_same hsame
  rw [← hreceiver]
  have hwaiting := congrArg Receiver.waiting hreceiver
  simp only [receiver] at hwaiting
  rw [← hwaiting] at hnew hfew hentries
  unfold addChunk
  generalize f.openBuffer message now = opened at hentries hnew hfew ⊢
  obtain ⟨g, buffer⟩ := opened
  simp only at hentries hnew hfew ⊢
  have hset : (buffer.chunks.set message.chunkSequence message.text).entries =
      g.waitingUnder message.statusId ++ [(message.chunkSequence, message.text)] := by
    rw [← hentries] at hnew ⊢
    exact Entries.set_of_notMem hnew _
  have hsize : ¬ STATUSTEXT_MAX_CHUNKS_PER_BUFFER <
      (buffer.chunks.set message.chunkSequence message.text).size := by
    rw [JsMap.size, hset, List.length_append, List.length_singleton]
    omega
  rw [if_neg hsize]
  split_ifs with hshort
  · have hnot : ¬ isFull (message.chunkSequence, message.text) := Nat.not_le_of_lt hshort
    obtain ⟨hwait, hout⟩ := @flush_own (g.setBuffer message.statusId { buffer with
      chunks := buffer.chunks.set message.chunkSequence message.text }) message.statusId now
    rw [waitingUnder_setBuffer] at hout
    rw [receiver, hwait, hout, Receiver.receive_short _ hnot, hset]
    rfl
  · have hfull : isFull (message.chunkSequence, message.text) := Nat.le_of_not_lt hshort
    rw [Receiver.receive, if_pos hfull, receiver, waitingUnder_setBuffer, hset]
    rfl

/-! ## Which buffers are open -/

theorem has_flush {now k : ℕ}
    (h : (f.flushStatusTextChunkBuffer now statusId).statusTextChunkBuffers.has k = true) :
    f.statusTextChunkBuffers.has k = true := by
  rw [JsMap.has, flush_get] at h
  split_ifs at h with hk
  · cases h
  · exact h

theorem has_flushAll {now k : ℕ}
    (h : (ids.foldl (fun f id => f.flushStatusTextChunkBuffer now id) f).statusTextChunkBuffers.has k = true) :
    f.statusTextChunkBuffers.has k = true := by
  induction ids generalizing f with
  | nil => exact h
  | cons statusId ids ih => exact has_flush (ih h)

theorem has_makeRoom {now k : ℕ} (h : (f.makeRoom now).statusTextChunkBuffers.has k = true) :
    f.statusTextChunkBuffers.has k = true := by
  unfold makeRoom at h
  split_ifs at h
  · cases hid : f.oldestId with
    | none => rw [hid] at h; exact h
    | some statusId => rw [hid] at h; exact has_flush h
  · exact h

theorem has_addChunk {message : StatusTextMessage} {now k : ℕ}
    (h : (f.addChunk message now).statusTextChunkBuffers.has k = true) :
    k = message.statusId ∨ f.statusTextChunkBuffers.has k = true := by
  have hopen : (f.openBuffer message now).1.statusTextChunkBuffers.has k = true →
      f.statusTextChunkBuffers.has k = true := by
    unfold openBuffer
    cases f.statusTextChunkBuffers.get message.statusId with
    | some buffer => exact id
    | none => exact has_makeRoom
  unfold addChunk at h
  generalize f.openBuffer message now = opened at hopen h
  obtain ⟨g, buffer⟩ := opened
  simp only at hopen h
  have hset (b : ChunkBuffer)
      (hb : (g.setBuffer message.statusId b).statusTextChunkBuffers.has k = true) :
      k = message.statusId ∨ f.statusTextChunkBuffers.has k = true := by
    rw [JsMap.has, setBuffer, JsMap.get_set] at hb
    split_ifs at hb with hk
    · exact .inl hk
    · exact .inr (hopen hb)
  split_ifs at h
  · exact hset _ (has_flush h)
  · exact hset _ (has_flush h)
  · exact hset _ h

theorem get_addChunk {message : StatusTextMessage} {now : ℕ}
    (h : (f.addChunk message now).statusTextChunkBuffers.get message.statusId = some buffer) :
    buffer = { (f.openBuffer message now).2 with
      chunks := (f.openBuffer message now).2.chunks.set message.chunkSequence message.text } := by
  unfold addChunk at h
  generalize f.openBuffer message now = opened at h
  obtain ⟨g, opened⟩ := opened
  simp only at h ⊢
  split_ifs at h
  · rw [flush_get, if_pos rfl] at h
    cases h
  · rw [flush_get, if_pos rfl] at h
    cases h
  · rw [setBuffer, JsMap.get_set, if_pos rfl] at h
    exact (Option.some.inj h).symm

theorem started_openBuffer (message : StatusTextMessage) (now : ℕ) :
    (f.openBuffer message now).2.startedAtMs = now ∨
      ∃ old, f.statusTextChunkBuffers.get message.statusId = some old ∧
        (f.openBuffer message now).2.startedAtMs = old.startedAtMs := by
  unfold openBuffer
  cases f.statusTextChunkBuffers.get message.statusId with
  | some old => exact .inr ⟨old, rfl, rfl⟩
  | none => exact .inl rfl

/-! ## Following one text -/

/-- What is known of the feed while the chunks of one text come in: what its receiver is, that a buffer
has chunks, when the first of them came at the earliest, and which other buffers may be open. -/
structure Tracks (id t₀ : ℕ) (others : Finset ℕ) (r : Receiver) (f : StatusFeed) : Prop where
  receiver : f.receiver id = r
  waits : ∀ buffer, f.statusTextChunkBuffers.get id = some buffer → buffer.chunks.entries ≠ []
  started : ∀ buffer, f.statusTextChunkBuffers.get id = some buffer → t₀ ≤ buffer.startedAtMs
  openIds : ∀ k, f.statusTextChunkBuffers.has k = true → k = id ∨ k ∈ others

variable {t₀ now : ℕ} {others : Finset ℕ} {r : Receiver} {message : StatusTextMessage}

theorem Tracks.of_same (h : Tracks id t₀ others r f) (hsame : SameUnder id f g)
    (hopen : ∀ k, g.statusTextChunkBuffers.has k = true → f.statusTextChunkBuffers.has k = true ∨ k ∈ others) :
    Tracks id t₀ others r g where
  receiver := (receiver_of_same hsame).trans h.receiver
  waits := by rw [hsame.1]; exact h.waits
  started := by rw [hsame.1]; exact h.started
  openIds k hk := (hopen k hk).elim (h.openIds k) .inr

theorem Tracks.flushStale (h : Tracks id t₀ others r f)
    (hnow : now ≤ t₀ + STATUSTEXT_CHUNK_TIMEOUT_MS) :
    Tracks id t₀ others r (f.flushStaleStatusTextChunks now) := by
  refine h.of_same (sameUnder_flushStale fun buffer hbuffer => ?_) fun k hk =>
    .inl (has_flushAll hk)
  have hstarted := h.started buffer hbuffer
  omega

theorem Tracks.room (h : Tracks id t₀ others r f)
    (hothers : others.card < STATUSTEXT_MAX_IN_FLIGHT_BUFFERS) {k : ℕ} (hne : k ≠ id)
    (hk : k ∈ others) :
    f.statusTextChunkBuffers.has k = true ∨
      f.statusTextChunkBuffers.size < STATUSTEXT_MAX_IN_FLIGHT_BUFFERS := by
  by_cases hhas : f.statusTextChunkBuffers.has k = true
  · exact .inl hhas
  refine .inr (Nat.lt_of_le_of_lt ?_ hothers)
  have hsubset : f.statusTextChunkBuffers.keys.toFinset ⊆ insert id (others.erase k) := by
    intro j hj
    have hhasj : f.statusTextChunkBuffers.has j = true :=
      JsMap.mem_keys_iff.mp (List.mem_toFinset.mp hj)
    obtain rfl | hmem := h.openIds j hhasj
    · exact Finset.mem_insert_self _ _
    · refine Finset.mem_insert_of_mem (Finset.mem_erase.mpr ⟨?_, hmem⟩)
      rintro rfl
      exact hhas hhasj
  have hcard := Finset.card_le_card hsubset
  have hinsert := Finset.card_insert_le id (others.erase k)
  have herase := Finset.card_erase_of_mem hk
  have hpos := Finset.card_pos.mpr ⟨k, hk⟩
  have hkeys : f.statusTextChunkBuffers.keys.toFinset.card = f.statusTextChunkBuffers.size :=
    (List.toFinset_card_of_nodup f.statusTextChunkBuffers.nodup).trans
      f.statusTextChunkBuffers.size_eq_length_keys.symm
  omega

theorem Tracks.other (h : Tracks id t₀ others r f) (hid : id ≠ 0)
    (hothers : others.card < STATUSTEXT_MAX_IN_FLIGHT_BUFFERS)
    (hnow : now ≤ t₀ + STATUSTEXT_CHUNK_TIMEOUT_MS) (hne : message.statusId ≠ id)
    (hmessage : message.statusId = 0 ∨ message.statusId ∈ others) :
    Tracks id t₀ others r (f.processStatusText message now) := by
  have hfresh := h.flushStale hnow
  unfold processStatusText
  simp only
  split_ifs with hzero
  · exact hfresh.of_same (sameUnder_emit hid.symm _ _ _) fun k hk => .inl (by
      rwa [emitStatusText_buffers] at hk)
  · have hmem := hmessage.resolve_left hzero
    refine hfresh.of_same (sameUnder_addChunk hne
      ((hfresh.room hothers hne hmem).imp_right Or.inr)) fun k hk => ?_
    obtain rfl | hk := has_addChunk hk
    · exact .inr hmem
    · exact .inl hk

theorem Tracks.own (h : Tracks id t₀ others r f) (hid : id ≠ 0)
    (hnow : now ≤ t₀ + STATUSTEXT_CHUNK_TIMEOUT_MS) (hlate : t₀ ≤ now)
    (hmessage : message.statusId = id)
    (hnew : message.chunkSequence ∉ Entries.keys r.waiting)
    (hfew : r.waiting.length < STATUSTEXT_MAX_CHUNKS_PER_BUFFER) :
    Tracks id t₀ others (r.receive (message.chunkSequence, message.text))
      (f.processStatusText message now) := by
  subst hmessage
  have hfresh := h.flushStale hnow
  have hwaiting : (f.flushStaleStatusTextChunks now).waitingUnder message.statusId = r.waiting :=
    congrArg Receiver.waiting hfresh.receiver
  unfold processStatusText
  simp only
  rw [if_neg hid]
  refine ⟨?_, fun buffer hbuffer => ?_, fun buffer hbuffer => ?_, fun k hk => ?_⟩
  · rw [receiver_addChunk (hwaiting ▸ hnew) (hwaiting ▸ hfew), hfresh.receiver]
  · rw [get_addChunk hbuffer]
    exact Entries.set_ne_nil _ _ _
  · rw [get_addChunk hbuffer]
    obtain hstarted | ⟨old, hold, hstarted⟩ := started_openBuffer message now
    · exact hlate.trans hstarted.ge
    · exact (hfresh.started old hold).trans hstarted.ge
  · obtain rfl | hk := has_addChunk hk
    · exact .inl rfl
    · exact hfresh.openIds k hk

/-! ## A run of messages -/

abbrev TimedMessage := StatusTextMessage × ℕ

def processAll (f : StatusFeed) (messages : List TimedMessage) : StatusFeed :=
  messages.foldl (fun f message => f.processStatusText message.1 message.2) f

def chunksUnder (id : ℕ) (messages : List TimedMessage) : List SequencedChunk :=
  (messages.filter (·.1.statusId = id)).map fun message =>
    (message.1.chunkSequence, message.1.text)

theorem chunksUnder_cons (id : ℕ) (message : TimedMessage) (messages : List TimedMessage) :
    chunksUnder id (message :: messages) =
      if message.1.statusId = id then
        (message.1.chunkSequence, message.1.text) :: chunksUnder id messages
      else chunksUnder id messages := by
  unfold chunksUnder
  rw [List.filter_cons]
  by_cases h : message.1.statusId = id <;> simp [h]

/-- The messages come in while the text may still wait: every one at most the timeout behind the
first chunk of the text, and those of other texts under the given ids. -/
structure InWindow (id t₀ : ℕ) (others : Finset ℕ) (messages : List TimedMessage) : Prop where
  early : ∀ message ∈ messages, message.2 ≤ t₀ + STATUSTEXT_CHUNK_TIMEOUT_MS
  late : ∀ message ∈ messages, message.1.statusId = id → t₀ ≤ message.2
  ids : ∀ message ∈ messages, message.1.statusId ≠ id →
    message.1.statusId = 0 ∨ message.1.statusId ∈ others

variable {messages : List TimedMessage}

theorem Tracks.processAll (h : Tracks id t₀ others r f) (hid : id ≠ 0)
    (hothers : others.card < STATUSTEXT_MAX_IN_FLIGHT_BUFFERS)
    (hwindow : InWindow id t₀ others messages)
    (hnew : (Entries.keys (r.waiting ++ chunksUnder id messages)).Nodup)
    (hfew : (r.waiting ++ chunksUnder id messages).length ≤ STATUSTEXT_MAX_CHUNKS_PER_BUFFER) :
    Tracks id t₀ others (r.receiveAll (chunksUnder id messages)) (f.processAll messages) := by
  induction messages generalizing f r with
  | nil => exact h
  | cons message messages ih =>
    have hrest : InWindow id t₀ others messages :=
      ⟨fun m hm => hwindow.early m (List.mem_cons_of_mem _ hm),
        fun m hm => hwindow.late m (List.mem_cons_of_mem _ hm),
        fun m hm => hwindow.ids m (List.mem_cons_of_mem _ hm)⟩
    have hnow := hwindow.early message List.mem_cons_self
    rw [chunksUnder_cons] at hnew hfew ⊢
    by_cases hown : message.1.statusId = id
    · rw [if_pos hown] at hnew hfew ⊢
      have hlate := hwindow.late message List.mem_cons_self hown
      rw [Entries.keys, List.map_append, List.map_cons] at hnew
      obtain ⟨hwait, hchunks, hdisjoint⟩ := List.nodup_append.mp hnew
      obtain ⟨hnotLater, hlater⟩ := List.nodup_cons.mp hchunks
      have hnotWaiting : message.1.chunkSequence ∉ Entries.keys r.waiting := fun hmem =>
        hdisjoint _ hmem _ List.mem_cons_self rfl
      rw [List.length_append, List.length_cons] at hfew
      have hstep := h.own hid hnow hlate hown hnotWaiting (by omega)
      have hsplit : ((r.receive (message.1.chunkSequence, message.1.text)).waiting ++
          chunksUnder id messages).Sublist
            (r.waiting ++ (message.1.chunkSequence, message.1.text) :: chunksUnder id messages) := by
        unfold Receiver.receive
        split_ifs
        · simp
        · simp only [List.nil_append]
          exact (List.sublist_cons_self _ _).trans (List.sublist_append_right _ _)
      refine ih hstep hrest (List.Nodup.sublist (hsplit.map Prod.fst) ?_)
        (hsplit.length_le.trans ?_)
      · rw [List.map_append, List.map_cons]
        exact hnew
      · rw [List.length_append, List.length_cons]
        omega
    · rw [if_neg hown] at hnew hfew ⊢
      have hids := hwindow.ids message List.mem_cons_self hown
      exact ih (h.other hid hothers hnow hown hids) hrest hnew hfew

theorem Tracks.get_eq_none (h : Tracks id t₀ others r f) (hnone : r.waiting = []) :
    f.statusTextChunkBuffers.get id = none := by
  cases hget : f.statusTextChunkBuffers.get id with
  | none => rfl
  | some buffer =>
    have hwaiting := congrArg Receiver.waiting h.receiver
    simp only [StatusFeed.receiver, waitingUnder, hget, hnone, Option.elim_some] at hwaiting
    exact absurd hwaiting (h.waits buffer hget)

theorem recordedUnder_of_others (hid : id ≠ 0) (hnone : f.statusTextChunkBuffers.get id = none)
    (hothers : ∀ message ∈ messages, message.1.statusId ≠ id) :
    (f.processAll messages).recordedUnder id = f.recordedUnder id := by
  induction messages generalizing f with
  | nil => rfl
  | cons message messages ih =>
    obtain ⟨hne, hrest⟩ := List.forall_mem_cons.mp hothers
    have hfresh : SameUnder id f (f.flushStaleStatusTextChunks message.2) :=
      sameUnder_flushStale fun buffer hbuffer => by cases hnone.symm.trans hbuffer
    have hsame : SameUnder id f (f.processStatusText message.1 message.2) := by
      unfold processStatusText
      simp only
      split_ifs
      · exact hfresh.trans (sameUnder_emit hid.symm _ _ _)
      · exact hfresh.trans (sameUnder_addChunk hne (.inr (.inl (hfresh.1.trans hnone))))
    exact (ih (hsame.1.trans hnone) hrest).trans hsame.2

end StatusFeed
end ArduConfigurator.Runtime
