import ArduConfigurator.Runtime.StatusTextReassembly

/-! # Chunked status texts

A sender cuts the bytes of a text into fields of fifty bytes. The text is recorded whole when its
bytes before the last field are plain ASCII and the last field arrives last. -/
namespace ArduConfigurator.Runtime
open Runs
set_option autoImplicit false

/-! ## The sender -/

def lastChunk (bytes : Bytes) : ℕ := bytes.length / STATUSTEXT_CHUNK_SIZE

def chunkBytes (bytes : Bytes) (k : ℕ) : Bytes :=
  (bytes.drop (STATUSTEXT_CHUNK_SIZE * k)).take STATUSTEXT_CHUNK_SIZE

def chunkField (bytes : Bytes) (k : ℕ) : Bytes :=
  chunkBytes bytes k ++
    List.replicate (STATUSTEXT_CHUNK_SIZE - (chunkBytes bytes k).length) 0

def decodeFixedString (field : Bytes) : Text := decodeText (field.takeWhile (· ≠ 0))

def sentMessage (severity id : ℕ) (bytes : Bytes) (k : ℕ) : StatusTextMessage where
  severity := severity
  text := decodeFixedString (chunkField bytes k)
  statusId := id
  chunkSequence := k % 256

def sentMessages (severity id : ℕ) (text : String) : List StatusTextMessage :=
  (List.range (lastChunk (textEncode text) + 1)).map (sentMessage severity id (textEncode text))

def lastMessage (severity id : ℕ) (text : String) : StatusTextMessage :=
  sentMessage severity id (textEncode text) (lastChunk (textEncode text))

def textUnits (text : String) : Text := text.toList.flatMap utf16

/-- A text that the chunks keep: no character before the last field takes more than a byte, the last
field does not begin with a byte order mark, and there are not too many fields. -/
structure Plain (text : String) : Prop where
  nonempty : text ≠ ""
  no_zero : Char.ofNat 0 ∉ text.toList
  ascii : ∀ b ∈ (textEncode text).take (STATUSTEXT_CHUNK_SIZE * lastChunk (textEncode text)),
    b < 128
  no_mark : ¬ byteOrderMark <+:
    (textEncode text).drop (STATUSTEXT_CHUNK_SIZE * lastChunk (textEncode text))
  few : lastChunk (textEncode text) < STATUSTEXT_MAX_CHUNKS_PER_BUFFER

/-! ## ASCII -/

def asciiUnits (bytes : Bytes) : Text := bytes.map fun b => UInt16.ofNat b.toNat

variable {bytes : Bytes}

theorem decode_ascii_append (h : ∀ b ∈ bytes, b < 128) (rest : Bytes) :
    Utf8Pending.decode .start (bytes ++ rest) =
      bytes.map (fun b => Char.ofNat b.toNat) ++ Utf8Pending.decode .start rest := by
  induction bytes with
  | nil => rfl
  | cons b bytes ih =>
    obtain ⟨hb, hbytes⟩ := List.forall_mem_cons.mp h
    have hlt : b.toNat < 128 := hb
    have hnext : Utf8Pending.next .start b.toNat = ([Char.ofNat b.toNat], .start) := by
      rw [Utf8Pending.next, if_pos (show Utf8Pending.start.needed = 0 from rfl), Utf8Pending.lead,
        if_pos (by omega)]
    rw [List.cons_append, Utf8Pending.decode_cons, hnext, ih hbytes]
    rfl

theorem utf16_ascii {n : ℕ} (h : n < 128) : utf16 (Char.ofNat n) = [UInt16.ofNat n] := by
  have hall : ∀ n < 128, (Char.ofNat n).toNat = n := by decide
  rw [utf16, hall n h, if_pos (by omega)]

theorem decodeUnits_ascii_append (h : ∀ b ∈ bytes, b < 128) (rest : Bytes) :
    decodeUnits (bytes ++ rest) = asciiUnits bytes ++ decodeUnits rest := by
  rw [decodeUnits, decode_ascii_append h, List.flatMap_append, List.flatMap_map, asciiUnits,
    List.map_eq_flatMap]
  congr 1
  refine List.flatMap_congr fun b hb => ?_
  exact utf16_ascii (h b hb)

theorem decodeText_ascii (h : ∀ b ∈ bytes, b < 128) :
    decodeText bytes = asciiUnits bytes := by
  have hmark : ¬ byteOrderMark <+: bytes := by
    intro hbegins
    exact absurd (h 0xef (hbegins.subset (by decide))) (by decide)
  rw [decodeText, if_neg hmark]
  have happend := decodeUnits_ascii_append h []
  rw [List.append_nil] at happend
  rw [happend]
  exact List.append_nil _

/-! ## What the fields hold -/

theorem flatMap_chunks (bytes : Bytes) (m : ℕ) :
    (List.range m).flatMap (chunkBytes bytes) = bytes.take (STATUSTEXT_CHUNK_SIZE * m) := by
  induction m with
  | zero => simp
  | succ m ih =>
    rw [List.range_succ, List.flatMap_append, ih, List.flatMap_singleton, Nat.mul_succ, List.take_add]
    rfl

theorem chunkBytes_subset (bytes : Bytes) (k : ℕ) : ∀ b ∈ chunkBytes bytes k, b ∈ bytes :=
  fun _ hb => List.mem_of_mem_drop (List.mem_of_mem_take hb)

theorem decodeFixedString_chunkField (hzero : (0 : UInt8) ∉ bytes) (k : ℕ) :
    decodeFixedString (chunkField bytes k) = decodeText (chunkBytes bytes k) := by
  have hnonzero : ∀ b ∈ chunkBytes bytes k, decide (b ≠ 0) = true := by
    intro b hb
    refine decide_eq_true ?_
    rintro rfl
    exact hzero (chunkBytes_subset bytes k 0 hb)
  rw [decodeFixedString, chunkField, List.takeWhile_append_of_pos hnonzero]
  have hpad : (List.replicate (STATUSTEXT_CHUNK_SIZE - (chunkBytes bytes k).length)
      (0 : UInt8)).takeWhile (· ≠ 0) = [] := by
    cases STATUSTEXT_CHUNK_SIZE - (chunkBytes bytes k).length with
    | zero => rfl
    | succ n => rfl
  rw [hpad, List.append_nil]

theorem length_chunkBytes_full {k : ℕ} (h : k < lastChunk bytes) :
    (chunkBytes bytes k).length = STATUSTEXT_CHUNK_SIZE := by
  have hle : STATUSTEXT_CHUNK_SIZE * lastChunk bytes ≤ bytes.length := Nat.mul_div_le _ _
  have hmul : STATUSTEXT_CHUNK_SIZE * (k + 1) ≤ STATUSTEXT_CHUNK_SIZE * lastChunk bytes :=
    Nat.mul_le_mul_left _ h
  rw [chunkBytes, List.length_take, List.length_drop]
  rw [Nat.mul_succ] at hmul
  omega

theorem chunkBytes_last (bytes : Bytes) :
    chunkBytes bytes (lastChunk bytes) = bytes.drop (STATUSTEXT_CHUNK_SIZE * lastChunk bytes) ∧
      (chunkBytes bytes (lastChunk bytes)).length < STATUSTEXT_CHUNK_SIZE := by
  have hmod := Nat.mod_add_div bytes.length STATUSTEXT_CHUNK_SIZE
  have hlt : bytes.length % STATUSTEXT_CHUNK_SIZE < STATUSTEXT_CHUNK_SIZE :=
    Nat.mod_lt _ (by decide)
  have hlength : (bytes.drop (STATUSTEXT_CHUNK_SIZE * lastChunk bytes)).length <
      STATUSTEXT_CHUNK_SIZE := by
    rw [List.length_drop, lastChunk]
    omega
  have htake : chunkBytes bytes (lastChunk bytes) =
      bytes.drop (STATUSTEXT_CHUNK_SIZE * lastChunk bytes) :=
    List.take_of_length_le hlength.le
  exact ⟨htake, htake ▸ hlength⟩

/-! ## Bytes and code units -/

def owed (p : Utf8Pending) : ℕ := if p.needed = 0 then 0 else 1

def unitCount (chars : List Char) : ℕ := (chars.flatMap utf16).length

theorem unitCount_append (chars more : List Char) :
    unitCount (chars ++ more) = unitCount chars + unitCount more := by
  rw [unitCount, List.flatMap_append, List.length_append]
  rfl

theorem length_utf16_le (c : Char) : (utf16 c).length ≤ 2 := by
  unfold utf16
  split_ifs <;> simp

theorem unitCount_lead (byte : ℕ) :
    unitCount (Utf8Pending.lead byte).1 + owed (Utf8Pending.lead byte).2 ≤ 1 := by
  unfold Utf8Pending.lead
  split
  · have hunits : utf16 (Char.ofNat byte) = [UInt16.ofNat byte] := utf16_ascii (by omega)
    simp [unitCount, hunits, owed, Utf8Pending.start]
  split
  · simp [unitCount, owed]
  split
  · simp [unitCount, owed]
  split
  · simp [unitCount, owed]
  · exact (by decide : unitCount [Utf8Pending.replacement] + owed .start ≤ 1)

theorem unitCount_next (p : Utf8Pending) (byte : ℕ) :
    unitCount (p.next byte).1 + owed (p.next byte).2 ≤ 1 + owed p := by
  have hlead := unitCount_lead byte
  unfold Utf8Pending.next
  by_cases hstart : p.needed = 0
  · rw [if_pos hstart]
    omega
  · have howed : owed p = 1 := if_neg hstart
    rw [if_neg hstart, howed]
    split_ifs with hcontinues hone
    · have htwo := length_utf16_le (Char.ofNat (p.codePoint * 64 + byte % 64))
      simpa [unitCount, owed, Utf8Pending.start] using htwo
    · simp only [unitCount, List.flatMap_nil, List.length_nil, owed]
      split_ifs <;> omega
    · have hreplacement : unitCount [Utf8Pending.replacement] = 1 := by decide
      have happend := unitCount_append [Utf8Pending.replacement] (Utf8Pending.lead byte).1
      rw [List.singleton_append] at happend
      simp only [happend, hreplacement]
      omega

theorem unitCount_decode (p : Utf8Pending) (bytes : Bytes) :
    unitCount (Utf8Pending.decode p bytes) ≤ bytes.length + owed p := by
  induction bytes generalizing p with
  | nil =>
    rw [Utf8Pending.decode, owed]
    split_ifs
    · exact Nat.le_refl _
    · exact (by decide : unitCount [Utf8Pending.replacement] ≤ 0 + 1)
  | cons byte bytes ih =>
    have hnext := unitCount_next p byte.toNat
    have hrest := ih (p.next byte.toNat).2
    rw [Utf8Pending.decode_cons, unitCount_append, List.length_cons]
    omega

theorem length_decodeText_le (bytes : Bytes) : (decodeText bytes).length ≤ bytes.length := by
  unfold decodeText
  split_ifs
  · exact (unitCount_decode .start (bytes.drop 3)).trans
      ((Nat.add_zero _).le.trans (List.drop_sublist 3 bytes).length_le)
  · exact unitCount_decode .start bytes

/-! ## A plain text in chunks -/

section Plain
variable {text : String}

def fullChunks (text : String) : List SequencedChunk :=
  (List.range (lastChunk (textEncode text))).map fun k =>
    (k, asciiUnits (chunkBytes (textEncode text) k))

def shortChunk (text : String) : SequencedChunk :=
  (lastChunk (textEncode text),
    decodeUnits (chunkBytes (textEncode text) (lastChunk (textEncode text))))

theorem Plain.zero_notMem (h : Plain text) : (0 : UInt8) ∉ textEncode text :=
  zero_notMem_textEncode h.no_zero

theorem Plain.full_text (h : Plain text) {k : ℕ} (hk : k < lastChunk (textEncode text)) :
    decodeFixedString (chunkField (textEncode text) k) =
      asciiUnits (chunkBytes (textEncode text) k) := by
  rw [decodeFixedString_chunkField h.zero_notMem, decodeText_ascii]
  intro b hb
  refine h.ascii b ?_
  rw [← flatMap_chunks]
  exact List.mem_flatMap.mpr ⟨k, List.mem_range.mpr hk, hb⟩

theorem Plain.last_text (h : Plain text) :
    decodeFixedString (chunkField (textEncode text) (lastChunk (textEncode text))) =
      decodeUnits (chunkBytes (textEncode text) (lastChunk (textEncode text))) := by
  rw [decodeFixedString_chunkField h.zero_notMem, decodeText, if_neg]
  rw [(chunkBytes_last (textEncode text)).1]
  exact h.no_mark

theorem Plain.sent_chunks (h : Plain text) (severity id : ℕ) :
    (sentMessages severity id text).map (fun message => (message.chunkSequence, message.text)) =
      fullChunks text ++ [shortChunk text] := by
  have hfew := h.few
  simp only [STATUSTEXT_MAX_CHUNKS_PER_BUFFER] at hfew
  rw [sentMessages, List.map_map, List.range_succ, List.map_append, List.map_singleton, fullChunks]
  congr 1
  · refine List.map_congr_left fun k hk => ?_
    have hlt := List.mem_range.mp hk
    rw [Function.comp_apply, sentMessage, h.full_text hlt, Nat.mod_eq_of_lt (by omega)]
  · rw [Function.comp_apply, sentMessage, h.last_text, Nat.mod_eq_of_lt (by omega)]
    rfl

theorem Plain.chunked (h : Plain text) : Chunked (fullChunks text) (shortChunk text) where
  sorted := by
    have hkeys : Entries.keys (fullChunks text ++ [shortChunk text]) =
        List.range (lastChunk (textEncode text) + 1) := by
      rw [Entries.keys, List.map_append, fullChunks, List.map_map, List.range_succ]
      congr 1
      exact List.map_id _
    rw [hkeys]
    exact List.pairwise_lt_range
  full := by
    intro chunk hmem
    obtain ⟨k, hk, rfl⟩ := List.mem_map.mp hmem
    rw [isFull, asciiUnits, List.length_map, length_chunkBytes_full (List.mem_range.mp hk)]
  short := by
    have hlast := chunkBytes_last (textEncode text)
    have hle := length_decodeText_le (chunkBytes (textEncode text) (lastChunk (textEncode text)))
    rw [← decodeFixedString_chunkField h.zero_notMem, h.last_text] at hle
    exact Nat.not_le_of_lt (hle.trans_lt hlast.2)

theorem Plain.text_eq (h : Plain text) :
    (fullChunks text ++ [shortChunk text]).flatMap Prod.snd = textUnits text := by
  have hsplit := List.take_append_drop
    (STATUSTEXT_CHUNK_SIZE * lastChunk (textEncode text)) (textEncode text)
  have hdecode : textUnits text = decodeUnits (textEncode text) := by
    rw [decodeUnits, textEncode, Utf8Pending.decode_flatMap]
    rfl
  rw [hdecode, ← hsplit, decodeUnits_ascii_append h.ascii, List.flatMap_append,
    List.flatMap_singleton, shortChunk, (chunkBytes_last (textEncode text)).1]
  congr 1
  rw [fullChunks, List.flatMap_map, ← flatMap_chunks, asciiUnits, List.map_flatMap]
  rfl

theorem Plain.text_ne_nil (h : Plain text) : textUnits text ≠ [] := by
  intro hnil
  refine h.nonempty (String.toList_inj.mp ?_)
  rw [textUnits, List.flatMap_eq_nil_iff] at hnil
  refine List.eq_nil_iff_forall_not_mem.mpr fun c hc => ?_
  have hc := hnil c hc
  unfold utf16 at hc
  split_ifs at hc

end Plain

/-! ## Recorded once and whole -/

namespace StatusFeed
variable {f : StatusFeed} {severity id t₀ : ℕ} {text : String} {messages : List TimedMessage}
  {others : Finset ℕ}

def arrivals (id : ℕ) (messages : List TimedMessage) : List StatusTextMessage :=
  (messages.filter (·.1.statusId = id)).map Prod.fst

theorem chunksUnder_eq_arrivals (id : ℕ) (messages : List TimedMessage) :
    chunksUnder id messages =
      (arrivals id messages).map fun message => (message.chunkSequence, message.text) := by
  rw [chunksUnder, arrivals, List.map_map]
  rfl

theorem getLast?_chunks_iff (h : Plain text)
    (hsent : (arrivals id messages).Perm (sentMessages severity id text)) :
    (chunksUnder id messages).getLast? = some (shortChunk text) ↔
      (arrivals id messages).getLast? = some (lastMessage severity id text) := by
  have hfew := h.few
  simp only [STATUSTEXT_MAX_CHUNKS_PER_BUFFER] at hfew
  have hlast : (lastMessage severity id text).chunkSequence = lastChunk (textEncode text) :=
    Nat.mod_eq_of_lt (by omega)
  rw [chunksUnder_eq_arrivals, List.getLast?_map]
  constructor
  · intro heq
    obtain ⟨message, hmessage, hpair⟩ := Option.map_eq_some_iff.mp heq
    have hmem := hsent.mem_iff.mp (List.mem_of_getLast? hmessage)
    obtain ⟨k, hk, rfl⟩ := List.mem_map.mp hmem
    have hk := List.mem_range.mp hk
    have hseq : k % 256 = lastChunk (textEncode text) := congrArg Prod.fst hpair
    rw [Nat.mod_eq_of_lt (by omega)] at hseq
    rw [hmessage, hseq]
    rfl
  · intro heq
    rw [heq, Option.map_some, hlast]
    have htext : (lastMessage severity id text).text = (shortChunk text).2 := h.last_text
    rw [htext]
    rfl

/-- In the window, with room for every other text, a plain text is recorded once and whole just when
its last chunk comes in last, and nothing is recorded of it later. In every run the buffers and
their chunks keep to their limits. -/
theorem status_text_reassembled {before : List StatusEvent}
    (hrun : run step initial before = some f) (hid : id ≠ 0)
    (hfree : f.statusTextChunkBuffers.get id = none)
    (hopen : ∀ k, f.statusTextChunkBuffers.has k = true → k ∈ others)
    (hothers : others.card < STATUSTEXT_MAX_IN_FLIGHT_BUFFERS)
    (hwindow : InWindow id t₀ others messages) (hplain : Plain text)
    (hsent : (arrivals id messages).Perm (sentMessages severity id text)) :
    (∀ events g, run step f events = some g → g.Limited) ∧
    ((f.processAll messages).recordedUnder id = f.recordedUnder id ++ [textUnits text] ↔
      (arrivals id messages).getLast? = some (lastMessage severity id text)) ∧
    ((arrivals id messages).getLast? = some (lastMessage severity id text) →
      ∀ later : List TimedMessage, (∀ message ∈ later, message.1.statusId ≠ id) →
        ((f.processAll messages).processAll later).recordedUnder id =
          f.recordedUnder id ++ [textUnits text]) := by
  have hperm : (chunksUnder id messages).Perm (fullChunks text ++ [shortChunk text]) := by
    rw [chunksUnder_eq_arrivals, ← hplain.sent_chunks severity id]
    exact hsent.map _
  have htracks : Tracks id t₀ others ⟨[], f.recordedUnder id⟩ f := by
    refine ⟨?_, fun buffer hbuffer => ?_, fun buffer hbuffer => ?_, fun k hk => .inr (hopen k hk)⟩
    · rw [receiver, waitingUnder, hfree]
      rfl
    · cases hfree.symm.trans hbuffer
    · cases hfree.symm.trans hbuffer
  have hlength : (chunksUnder id messages).length ≤ STATUSTEXT_MAX_CHUNKS_PER_BUFFER := by
    rw [hperm.length_eq, fullChunks, List.length_append, List.length_map, List.length_range]
    exact hplain.few
  have hnodup : (Entries.keys (chunksUnder id messages)).Nodup :=
    (hperm.map Prod.fst).nodup_iff.mpr hplain.chunked.nodup
  have hall := htracks.processAll hid hothers hwindow hnodup hlength
  have hreceived := hall.receiver
  have hbehind := Receiver.receiveAll_behind [] (f.recordedUnder id) [] (chunksUnder id messages)
  rw [List.append_nil] at hbehind
  rw [hbehind] at hall hreceived
  have hout : (f.processAll messages).recordedUnder id = f.recordedUnder id ++
      (Receiver.receiveAll ⟨[], []⟩ (chunksUnder id messages)).out :=
    congrArg Receiver.out hreceived
  have htext := hplain.text_eq
  have hiff := hplain.chunked.received_iff hperm (htext ▸ hplain.text_ne_nil)
  rw [htext] at hiff
  have hwhole : (f.processAll messages).recordedUnder id =
      f.recordedUnder id ++ [textUnits text] ↔
        (arrivals id messages).getLast? = some (lastMessage severity id text) := by
    rw [hout, List.append_cancel_left_eq, hiff]
    exact getLast?_chunks_iff hplain hsent
  refine ⟨fun events g hg => ?_, hwhole, fun hlast later hlater => ?_⟩
  · exact limited_of_run (run_append_eq_some.mpr ⟨f, hrun, hg⟩)
  · have hnone := hall.get_eq_none (hplain.chunked.nothing_waits hperm
      ((getLast?_chunks_iff hplain hsent).mpr hlast))
    rw [recordedUnder_of_others hid hnone hlater, hwhole.mpr hlast]

/-! ## A text of two chunks -/

def longText : String := String.ofList (List.replicate 50 'a' ++ ['b'])

theorem longText_plain : Plain longText where
  nonempty := by decide +kernel
  no_zero := by decide +kernel
  ascii := by decide +kernel
  no_mark := by decide +kernel
  few := by decide +kernel

def chunk (k : ℕ) : StatusTextMessage := sentMessage 6 7 (textEncode longText) k

/-- The second chunk comes first, and alone it is recorded as a text. -/
theorem last_chunk_first :
    (arrivals 7 [(chunk 1, 0), (chunk 0, 1)]).Perm (sentMessages 6 7 longText) ∧
      (initial.processAll [(chunk 1, 0), (chunk 0, 1)]).recordedUnder 7 = [textUnits "b"] ∧
      textUnits longText ≠ textUnits "b" := by
  refine ⟨?_, by decide +kernel, by decide +kernel⟩
  have hsent : sentMessages 6 7 longText = [chunk 0, chunk 1] := rfl
  rw [hsent]
  exact List.Perm.swap _ _ _

/-- The two chunks in their order. -/
theorem two_chunks_recorded :
    (initial.processAll [(chunk 0, 0), (chunk 1, 1)]).recordedUnder 7 = [textUnits longText] := by
  have hwindow : InWindow 7 0 ∅ [(chunk 0, 0), (chunk 1, 1)] := by
    refine ⟨fun message hmem => ?_, fun message hmem _ => Nat.zero_le _, fun message hmem hne => ?_⟩
    · obtain rfl | hmem := List.mem_cons.mp hmem
      · exact Nat.zero_le _
      · obtain rfl := List.mem_singleton.mp hmem
        decide
    · obtain rfl | hmem := List.mem_cons.mp hmem
      · exact absurd rfl hne
      · obtain rfl := List.mem_singleton.mp hmem
        exact absurd rfl hne
  have hiff := (@status_text_reassembled initial 6 7 0 longText [(chunk 0, 0), (chunk 1, 1)] ∅ [] rfl
    (by decide) rfl (fun k hk => by cases hk) (by decide) hwindow longText_plain
    (List.Perm.refl _)).2.1
  exact hiff.mpr rfl

end StatusFeed
end ArduConfigurator.Runtime
