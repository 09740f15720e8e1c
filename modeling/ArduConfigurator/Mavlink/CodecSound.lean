import ArduConfigurator.Mavlink.PushLoop

/-! # Soundness of the decoder on arbitrary input

Whatever the chunks, `push` ends without an error, retains less than a frame, and every envelope
comes out of a frame of its own in the stream, in the order of the stream. -/
namespace ArduConfigurator.Mavlink.MavlinkV2Codec
set_option autoImplicit false

/-! ## Progress -/

theorem dropWhile_eq_drop (p : UInt8 → Bool) (b : Bytes) :
    ∃ n, n ≤ b.length ∧ b.dropWhile p = b.drop n := by
  have hsplit := List.takeWhile_append_dropWhile (p := p) (l := b)
  refine ⟨(b.takeWhile p).length, ?_, ?_⟩
  · rw [← hsplit, List.length_append, hsplit]
    omega
  · have hdrop := @List.drop_left _ (b.takeWhile p) (b.dropWhile p)
    rw [hsplit] at hdrop
    exact hdrop.symm

/-- The envelopes found in the stream `input` between two places, each in a frame of its own. -/
inductive Scanned (D : Dialect) (input : Bytes) : ℕ → List MavlinkEnvelope → ℕ → Prop
  | done {pos : ℕ} : Scanned D input pos [] pos
  | skip {pos pos' last : ℕ} {envelopes : List MavlinkEnvelope} : pos ≤ pos' →
      Scanned D input pos' envelopes last → Scanned D input pos envelopes last
  | emit {pos start len last : ℕ} {envelope : MavlinkEnvelope} {envelopes : List MavlinkEnvelope} :
      pos ≤ start → start + len ≤ input.length → IsFrame D (slice input start len) →
      Carries D (slice input start len) envelope → Scanned D input (start + len) envelopes last →
      Scanned D input pos (envelope :: envelopes) last

theorem Scanned.trans {D : Dialect} {input : Bytes} {pos mid last : ℕ}
    {es fs : List MavlinkEnvelope} (h : Scanned D input pos es mid)
    (h' : Scanned D input mid fs last) : Scanned D input pos (es ++ fs) last := by
  induction h with
  | done => exact h'
  | skip hle _ ih => exact .skip hle (ih h')
  | emit hle hfit hframe hcarries _ ih => exact .emit hle hfit hframe hcarries (ih h')

theorem Scanned.append {D : Dialect} {input : Bytes} {pos last : ℕ} {es : List MavlinkEnvelope}
    (h : Scanned D input pos es last) (more : Bytes) : Scanned D (input ++ more) pos es last := by
  induction h with
  | done => exact .done
  | skip hle _ ih => exact .skip hle ih
  | emit hle hfit hframe hcarries _ ih =>
    refine .emit hle (by rw [List.length_append]; omega) ?_ ?_ ih
    · rwa [slice_append_left more hfit]
    · rwa [slice_append_left more hfit]

theorem turn_next {D : Dialect} {codec codec' : MavlinkV2Codec} {e : Option MavlinkEnvelope}
    {input : Bytes} {pos : ℕ} (hpos : pos ≤ input.length)
    (hbuffer : codec.buffer = input.drop pos) (hturn : turn D codec = .ok (.next e codec')) :
    ∃ pos', pos' ≤ input.length ∧ codec'.buffer = input.drop pos' ∧
      codec'.buffer.length < codec.buffer.length ∧ Scanned D input pos e.toList pos' := by
  obtain ⟨t, ht, hspec⟩ := turn_spec D codec
  obtain ⟨n, hn, hrest⟩ := dropWhile_eq_drop (· ≠ MAVLINK_V2_STX) codec.buffer
  rw [hrest] at hspec
  cases ht.symm.trans hturn
  have hlen : (codec.buffer.drop n).length = codec.buffer.length - n := List.length_drop
  have hdrop : ∀ m, (codec.buffer.drop n).drop m = input.drop (pos + n + m) := fun m => by
    rw [hbuffer, List.drop_drop, List.drop_drop, Nat.add_assoc]
  have hinput : codec.buffer.length = input.length - pos := by rw [hbuffer, List.length_drop]
  have hshorter : ∀ m, 1 ≤ m → 12 ≤ (codec.buffer.drop n).length →
      ((codec.buffer.drop n).drop m).length < codec.buffer.length := fun m hm h12 => by
    rw [List.length_drop]
    omega
  cases hspec with
  | resync i h12 hwait hi hstarts _ =>
    have hroom := hstarts.2.1
    rw [List.length_drop] at hroom
    exact ⟨pos + n + i, by omega, hdrop i, hshorter i hi h12, .skip (by omega) .done⟩
  | junk h12 _ _ =>
    exact ⟨pos + n + 1, by omega, hdrop 1, hshorter 1 (Nat.le_refl 1) h12, .skip (by omega) .done⟩
  | frame message hstarts hdecode =>
    have h12 := hstarts.2.1
    have hfit := hstarts.2.2.1
    have hbounds := (frameLength_bounds (codec.buffer.drop n)).1
    generalize hL : frameLength (codec.buffer.drop n) = L at hdecode hfit hbounds ⊢
    refine ⟨pos + n + L, by omega, hdrop L, hshorter L (by omega) h12, ?_⟩
    have hslice : (codec.buffer.drop n).take L = slice input (pos + n) L := by
      rw [hbuffer, List.drop_drop, slice]
    cases he : (codec.receivedAs ((codec.buffer.drop n).take L) message).1 with
    | none => exact .skip (by omega) .done
    | some envelope =>
      have hcarries := carries_of_receivedAs hdecode he
      have hframe := hstarts.isFrame
      rw [hL, hslice] at hframe
      rw [hslice] at hcarries
      exact .emit (by omega) (by omega) hframe hcarries .done

theorem turn_stop {D : Dialect} {codec codec' : MavlinkV2Codec} {input : Bytes} {pos : ℕ}
    (hpos : pos ≤ input.length) (hbuffer : codec.buffer = input.drop pos)
    (hturn : turn D codec = .ok (.stop codec')) :
    ∃ pos', pos ≤ pos' ∧ pos' ≤ input.length ∧ codec'.buffer = input.drop pos' ∧ codec'.buffer.length < 280 := by
  obtain ⟨t, ht, hspec⟩ := turn_spec D codec
  obtain ⟨n, hn, hrest⟩ := dropWhile_eq_drop (· ≠ MAVLINK_V2_STX) codec.buffer
  rw [hrest] at hspec
  cases ht.symm.trans hturn
  have hdrop : codec.buffer.drop n = input.drop (pos + n) := by rw [hbuffer, List.drop_drop]
  have hinput : codec.buffer.length = input.length - pos := by rw [hbuffer, List.length_drop]
  cases hspec with
  | short hshort => exact ⟨pos, Nat.le_refl pos, hpos, hbuffer, by omega⟩
  | few _ hfew => exact ⟨pos + n, by omega, by omega, hdrop, by rw [withBuffer_buffer]; omega⟩
  | wait _ hwait _ =>
    have hbounds := (frameLength_bounds (codec.buffer.drop n)).2
    exact ⟨pos + n, by omega, by omega, hdrop, by rw [withBuffer_buffer]; omega⟩

/-! ## The loop and the calls -/

/-- A call has taken the codec to a place of the stream, over the envelopes it has emitted. -/
def Reached (D : Dialect) (input : Bytes) (pos : ℕ) (envelopes : List MavlinkEnvelope)
    (codec : MavlinkV2Codec) : Prop :=
  codec.buffer.length < 280 ∧ ∃ pos', pos' ≤ input.length ∧ codec.buffer = input.drop pos' ∧
    Scanned D input pos envelopes pos'

theorem drain_spec {D : Dialect} {fuel : ℕ} {codec : MavlinkV2Codec} {input : Bytes} {pos : ℕ}
    (hfuel : codec.buffer.length < fuel) (hpos : pos ≤ input.length)
    (hbuffer : codec.buffer = input.drop pos) :
    ∃ envelopes codec', drain D fuel codec = .ok (envelopes, codec') ∧
      Reached D input pos envelopes codec' := by
  induction fuel generalizing codec pos with
  | zero => omega
  | succ fuel ih =>
    obtain ⟨t, hturn, -⟩ := turn_spec D codec
    rw [drain, hturn, ok_bind]
    cases t with
    | stop codec' =>
      obtain ⟨pos', hle, hpos', hbuffer', hsmall⟩ := turn_stop hpos hbuffer hturn
      exact ⟨[], codec', rfl, hsmall, pos', hpos', hbuffer', .skip hle .done⟩
    | next e codec' =>
      obtain ⟨mid, hmidle, hmid, hshorter, hscan⟩ := turn_next hpos hbuffer hturn
      obtain ⟨envelopes, codec'', hdrain, hsmall, pos', hpos', hbuffer', hrest⟩ :=
        ih (by omega) hmidle hmid
      refine ⟨e.toList ++ envelopes, codec'', ?_, hsmall, pos', hpos', hbuffer', hscan.trans hrest⟩
      dsimp only
      rw [hdrain, ok_bind]

theorem capped_of_small {b : Bytes} (h : b.length < 280) : capped b = b := by
  rw [capped, if_neg (by rw [MAX_BUFFER_BYTES]; omega)]

theorem push_of_drain {D : Dialect} {codec codec' : MavlinkV2Codec} {chunk : Bytes}
    {envelopes : List MavlinkEnvelope}
    (h : drain D ((codec.buffer ++ chunk).length + 1) (codec.withBuffer (codec.buffer ++ chunk)) =
      .ok (envelopes, codec')) (hsmall : codec'.buffer.length < 280) :
    push D codec chunk = .ok (envelopes, codec') := by
  rw [withBuffer] at h
  rw [push, h, ok_bind]
  dsimp only
  rw [capped_of_small hsmall]

theorem push_spec {D : Dialect} {codec : MavlinkV2Codec} {input : Bytes} {pos : ℕ} (chunk : Bytes)
    (hpos : pos ≤ input.length) (hbuffer : codec.buffer = input.drop pos) :
    ∃ envelopes codec', push D codec chunk = .ok (envelopes, codec') ∧
      Reached D (input ++ chunk) pos envelopes codec' := by
  have happend : (codec.withBuffer (codec.buffer ++ chunk)).buffer = (input ++ chunk).drop pos := by
    rw [withBuffer_buffer, hbuffer, List.drop_append_of_le_length hpos]
  obtain ⟨envelopes, codec', hdrain, hreached⟩ :=
    drain_spec (D := D) (Nat.lt_succ_self _) (by rw [List.length_append]; omega) happend
  exact ⟨envelopes, codec', push_of_drain hdrain hreached.1, hreached⟩

theorem pushAll_spec {D : Dialect} {codec : MavlinkV2Codec} {input : Bytes} {pos : ℕ}
    (chunks : List Bytes) (hpos : pos ≤ input.length) (hbuffer : codec.buffer = input.drop pos)
    (hsmall : codec.buffer.length < 280) :
    ∃ envelopes codec', pushAll D codec chunks = .ok (envelopes, codec') ∧
      Reached D (input ++ chunks.flatten) pos envelopes codec' := by
  induction chunks generalizing codec input pos with
  | nil =>
    rw [List.flatten_nil, List.append_nil]
    exact ⟨[], codec, rfl, hsmall, pos, hpos, hbuffer, .done⟩
  | cons chunk chunks ih =>
    obtain ⟨es, codec₁, hpush, hsmall₁, pos₁, hpos₁, hbuffer₁, hscan₁⟩ :=
      push_spec (D := D) chunk hpos hbuffer
    obtain ⟨fs, codec₂, hrest, hsmall₂, pos₂, hpos₂, hbuffer₂, hscan₂⟩ := ih hpos₁ hbuffer₁ hsmall₁
    rw [List.append_assoc, ← List.flatten_cons] at hpos₂ hbuffer₂ hscan₂
    have hscan := (hscan₁.append chunks.flatten)
    rw [List.append_assoc, ← List.flatten_cons] at hscan
    refine ⟨es ++ fs, codec₂, ?_, hsmall₂, pos₂, hpos₂, hbuffer₂, hscan.trans hscan₂⟩
    rw [pushAll, hpush, ok_bind]
    dsimp only
    rw [hrest, ok_bind]

/-! ## Segments -/

/-- The envelope comes out of the segment `(start, length)` of the stream. -/
def ComesFrom (D : Dialect) (input : Bytes) (envelope : MavlinkEnvelope) (segment : ℕ × ℕ) : Prop :=
  segment.1 + segment.2 ≤ input.length ∧ IsFrame D (slice input segment.1 segment.2) ∧
    Carries D (slice input segment.1 segment.2) envelope

theorem Scanned.segments {D : Dialect} {input : Bytes} {pos last : ℕ}
    {envelopes : List MavlinkEnvelope} (h : Scanned D input pos envelopes last) :
    ∃ segments, List.Forall₂ (ComesFrom D input) envelopes segments ∧
      segments.Pairwise (fun s t => s.1 + s.2 ≤ t.1) ∧ ∀ s ∈ segments, pos ≤ s.1 := by
  induction h with
  | done => exact ⟨[], .nil, .nil, fun s hs => by cases hs⟩
  | skip hle _ ih =>
    obtain ⟨segments, hfrom, hordered, hlo⟩ := ih
    exact ⟨segments, hfrom, hordered, fun s hs => Nat.le_trans hle (hlo s hs)⟩
  | @emit pos start len last envelope envelopes hle hfit hframe hcarries _ ih =>
    obtain ⟨segments, hfrom, hordered, hlo⟩ := ih
    refine ⟨(start, len) :: segments, .cons ⟨hfit, hframe, hcarries⟩ hfrom,
      List.pairwise_cons.mpr ⟨hlo, hordered⟩, fun s hs => ?_⟩
    obtain rfl | hs := List.mem_cons.mp hs
    · exact hle
    · have := hlo s hs
      omega

/-- From a codec with an empty buffer, any chunks are taken without an error and with no more than
the cap retained, and the envelopes come out of ordered, disjoint frames of the stream. -/
theorem push_sound (D : Dialect) (codec : MavlinkV2Codec) (chunks : List Bytes) :
    ∃ envelopes codec', pushAll D codec.reset chunks = .ok (envelopes, codec') ∧
      codec'.buffer.length ≤ MAX_BUFFER_BYTES ∧
      ∃ segments, List.Forall₂ (ComesFrom D chunks.flatten) envelopes segments ∧
        segments.Pairwise fun s t => s.1 + s.2 ≤ t.1 := by
  obtain ⟨envelopes, codec', hpush, hsmall, pos, -, -, hscan⟩ :=
    @pushAll_spec D codec.reset [] 0 chunks (Nat.le_refl 0) rfl
      (by show 0 < 280; decide)
  rw [List.nil_append] at hscan
  obtain ⟨segments, hfrom, hordered, -⟩ := hscan.segments
  exact ⟨envelopes, codec', hpush, by rw [MAX_BUFFER_BYTES]; omega, segments, hfrom, hordered⟩

end ArduConfigurator.Mavlink.MavlinkV2Codec
