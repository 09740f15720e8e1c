import ArduConfigurator.Mavlink.Frames

/-! # Splitting a stream of frames into chunks

When a chunk ends inside a frame, the codec looks for a frame behind the first byte of what it has.
Where there is none it waits, and the chunks make no difference; where there is one, it drops the
frame it was receiving. -/
namespace ArduConfigurator.Mavlink
set_option autoImplicit false

/-! ## Cuts -/

/-- The part of a frame that the first `n` bytes of the frames end in. -/
def unfinished : List Bytes → ℕ → Bytes
  | [], _ => []
  | f :: fs, n => if f.length ≤ n then unfinished fs (n - f.length) else f.take n

/-- The frames not whole in the first `n` bytes. -/
def remaining : List Bytes → ℕ → List Bytes
  | [], _ => []
  | f :: fs, n => if f.length ≤ n then remaining fs (n - f.length) else f :: fs

def NoInnerFrame (D : Dialect) (p : Bytes) : Prop :=
  ∀ i < p.length, 1 ≤ i → ¬ StartsFrame D (p.drop i)

instance (D : Dialect) (p : Bytes) : Decidable (NoInnerFrame D p) :=
  inferInstanceAs (Decidable (∀ i < p.length, 1 ≤ i → ¬ StartsFrame D (p.drop i)))

/-- Where a chunk ends, what has come of the frame it cuts holds no frame of its own. -/
def CutsClear (D : Dialect) (frames chunks : List Bytes) : Prop :=
  ∀ n < chunks.length + 1, NoInnerFrame D (unfinished frames (chunks.take n).flatten.length)

instance (D : Dialect) (frames chunks : List Bytes) : Decidable (CutsClear D frames chunks) :=
  inferInstanceAs (Decidable (∀ n < chunks.length + 1, NoInnerFrame D _))

variable {D : Dialect}

theorem NoInnerFrame.spec {p : Bytes} (h : NoInnerFrame D p) {i : ℕ} (hi : 1 ≤ i) :
    ¬ StartsFrame D (p.drop i) := by
  by_cases hlt : i < p.length
  · exact h i hlt hi
  · intro hstarts
    have h12 := hstarts.2.1
    rw [List.length_drop] at h12
    omega

variable {fs : List Bytes}

theorem eq_nil_of_flatten (hframes : ∀ f ∈ fs, IsFrame D f) (h : fs.flatten = []) : fs = [] := by
  cases fs with
  | nil => rfl
  | cons f fs =>
    have h12 := (hframes f List.mem_cons_self).1.2.1
    rw [List.flatten_cons, List.append_eq_nil_iff] at h
    rw [h.1] at h12
    exact absurd h12 (by decide)

theorem unfinished_flatten (fs : List Bytes) : unfinished fs fs.flatten.length = [] := by
  induction fs with
  | nil => rfl
  | cons f fs ih =>
    rw [List.flatten_cons, List.length_append, unfinished, if_pos (Nat.le_add_right _ _),
      Nat.add_sub_cancel_left, ih]

theorem unfinished_remaining {n : ℕ} (h : n ≤ fs.flatten.length) (k : ℕ) :
    unfinished (remaining fs n) ((unfinished fs n).length + k) = unfinished fs (n + k) := by
  induction fs generalizing n with
  | nil => rfl
  | cons f fs ih =>
    rw [List.flatten_cons, List.length_append] at h
    rw [remaining, unfinished]
    split
    · next hle =>
      rw [ih (by omega), unfinished, if_pos (by omega)]
      congr 1
      omega
    · next hlt => rw [List.length_take, Nat.min_eq_left (by omega)]

variable {b later f rest : Bytes}

theorem append_eq_of_le (h : b ++ later = f ++ rest) (hle : f.length ≤ b.length) :
    ∃ tail, b = f ++ tail ∧ tail ++ later = rest := by
  obtain ⟨mid, rfl, rfl⟩ | ⟨tail, rfl, hrest⟩ := List.append_eq_append_iff.mp h
  · have hmid : mid = [] := List.eq_nil_of_length_eq_zero (by rw [List.length_append] at hle; omega)
    subst hmid
    exact ⟨[], by rw [List.append_nil, List.append_nil], rfl⟩
  · exact ⟨tail, rfl, hrest.symm⟩

theorem append_eq_of_lt (h : b ++ later = f ++ rest) (hlt : b.length < f.length) :
    f.take b.length = b := by
  have htake := congrArg (List.take b.length) h
  rw [List.take_left, List.take_append_of_le_length (by omega)] at htake
  exact htake.symm

theorem unfinished_append (h : b ++ later = fs.flatten) :
    unfinished fs b.length ++ later = (remaining fs b.length).flatten := by
  induction fs generalizing b with
  | nil =>
    rw [List.flatten_nil, List.append_eq_nil_iff] at h
    rw [h.2]
    rfl
  | cons f fs ih =>
    rw [List.flatten_cons] at h
    rw [unfinished, remaining]
    split
    · next hle =>
      obtain ⟨tail, rfl, htail⟩ := append_eq_of_le h hle
      rw [List.length_append, Nat.add_sub_cancel_left, ih htail]
    · next hlt =>
      rw [append_eq_of_lt h (by omega), h, List.flatten_cons]

theorem remaining_subset (n : ℕ) (h : ∀ f ∈ fs, IsFrame D f) :
    ∀ f ∈ remaining fs n, IsFrame D f := by
  induction fs generalizing n with
  | nil => exact h
  | cons f fs ih =>
    rw [remaining]
    split
    · exact ih _ fun g hg => h g (List.mem_cons_of_mem f hg)
    · exact h

namespace MavlinkV2Codec

/-! ## Frames that arrive whole -/

def arriveAll (D : Dialect) :
    MavlinkV2Codec → List Bytes → List MavlinkEnvelope × MavlinkV2Codec
  | codec, [] => ([], codec)
  | codec, f :: fs =>
      let (envelope, codec) := arrive D codec f
      let (envelopes, codec) := arriveAll D codec fs
      (envelope.toList ++ envelopes, codec)

theorem arriveAll_cons (D : Dialect) (codec : MavlinkV2Codec) (f : Bytes) (fs : List Bytes) :
    arriveAll D codec (f :: fs) =
      ((arrive D codec f).1.toList ++ (arriveAll D (arrive D codec f).2 fs).1,
        (arriveAll D (arrive D codec f).2 fs).2) := rfl

/-- The frames whole in the first `n` bytes. -/
def whole : List Bytes → ℕ → List Bytes
  | [], _ => []
  | f :: fs, n => if f.length ≤ n then f :: whole fs (n - f.length) else []

theorem arriveAll_whole (D : Dialect) (codec : MavlinkV2Codec) (fs : List Bytes) (n : ℕ) :
    arriveAll D codec fs =
      ((arriveAll D codec (whole fs n)).1 ++
          (arriveAll D (arriveAll D codec (whole fs n)).2 (remaining fs n)).1,
        (arriveAll D (arriveAll D codec (whole fs n)).2 (remaining fs n)).2) := by
  induction fs generalizing codec n with
  | nil => rfl
  | cons f fs ih =>
    rw [whole, remaining]
    split
    · next hle =>
      rw [arriveAll_cons, ih _ (n - f.length), arriveAll_cons]
      simp only [List.append_assoc]
    · rfl

/-! ## Clear cuts -/

variable {D : Dialect} {f : Bytes}

theorem turn_of_unfinished (hframe : IsFrame D f) (codec : MavlinkV2Codec) {n : ℕ}
    (hn : n < f.length) (hclear : NoInnerFrame D (f.take n)) :
    turn D (codec.withBuffer (f.take n)) = .ok (.stop (codec.withBuffer (f.take n))) := by
  have hlen : (f.take n).length = n := by rw [List.length_take, Nat.min_eq_left (by omega)]
  by_cases hshort : n < 12
  · rw [turn, if_pos]
    rwa [withBuffer_buffer, hlen]
  have hhead : (f.take n).head? = some MAVLINK_V2_STX := by
    rw [List.head?_take, if_neg (by omega), hframe.1.1]
  have hlength : frameLength (f.take n) = f.length := by
    rw [frameLength_take (by omega), hframe.2]
  obtain ⟨t, hturn, hspec⟩ := turn_spec D (codec.withBuffer (f.take n))
  rw [withBuffer_buffer, dropWhile_of_head hhead] at hspec
  rw [hturn]
  cases hspec with
  | short _ => rfl
  | few _ _ => rfl
  | wait _ _ _ => rfl
  | resync i _ _ hi hstarts _ => exact absurd hstarts (hclear.spec hi)
  | junk _ hfit _ => omega
  | frame message hstarts _ =>
    have hfit := hstarts.2.2.1
    omega

variable {fs : List Bytes} {later : Bytes} {fuel : ℕ}

theorem drain_of_clear (hframes : ∀ f ∈ fs, IsFrame D f) (hb : b ++ later = fs.flatten)
    (hclear : NoInnerFrame D (unfinished fs b.length)) (codec : MavlinkV2Codec)
    (hfuel : b.length < fuel) :
    drain D fuel (codec.withBuffer b) =
      .ok ((arriveAll D codec (whole fs b.length)).1,
        (arriveAll D codec (whole fs b.length)).2.withBuffer (unfinished fs b.length)) := by
  induction fs generalizing b codec fuel with
  | nil =>
    rw [List.flatten_nil, List.append_eq_nil_iff] at hb
    obtain ⟨fuel, rfl⟩ : ∃ k, fuel = k + 1 := ⟨fuel - 1, by omega⟩
    have hturn : turn D (codec.withBuffer b) = .ok (.stop (codec.withBuffer b)) := by
      rw [turn, if_pos]
      rw [withBuffer_buffer, hb.1]
      decide
    rw [drain, hturn, hb.1]
    rfl
  | cons f fs ih =>
    obtain ⟨fuel, rfl⟩ : ∃ k, fuel = k + 1 := ⟨fuel - 1, by omega⟩
    have hf := hframes f List.mem_cons_self
    have hflen := hf.1.2.1
    rw [List.flatten_cons] at hb
    rw [unfinished] at hclear ⊢
    rw [whole]
    by_cases hle : f.length ≤ b.length
    · rw [if_pos hle] at hclear ⊢
      obtain ⟨tail, rfl, htail⟩ := append_eq_of_le hb hle
      rw [List.length_append] at hfuel hclear ⊢
      rw [Nat.add_sub_cancel_left] at hclear ⊢
      rw [drain, turn_of_frame hf, ok_bind]
      dsimp only
      rw [ih (fun g hg => hframes g (List.mem_cons_of_mem f hg)) htail hclear _ (by omega), ok_bind,
        if_pos (Nat.le_add_right _ _), arriveAll_cons]
    · rw [if_neg hle] at hclear ⊢
      have hturn := turn_of_unfinished hf codec (Nat.lt_of_not_le hle) hclear
      rw [append_eq_of_lt hb (by omega)] at hturn ⊢
      rw [drain, hturn, ok_bind, if_neg hle]
      rfl

theorem unfinished_length_le (hframes : ∀ f ∈ fs, IsFrame D f) (n : ℕ) :
    (unfinished fs n).length < 280 := by
  induction fs generalizing n with
  | nil => exact (by decide : 0 < 280)
  | cons f fs ih =>
    rw [unfinished]
    split
    · exact ih (fun g hg => hframes g (List.mem_cons_of_mem f hg)) _
    · have hf := (hframes f List.mem_cons_self).2
      have hbounds := (frameLength_bounds f).2
      rw [List.length_take]
      omega

variable {p chunk : Bytes}

theorem push_of_clear (hframes : ∀ f ∈ fs, IsFrame D f) (hb : p ++ chunk ++ later = fs.flatten)
    (hclear : NoInnerFrame D (unfinished fs (p ++ chunk).length)) (codec : MavlinkV2Codec) :
    push D (codec.withBuffer p) chunk =
      .ok ((arriveAll D codec (whole fs (p ++ chunk).length)).1,
        (arriveAll D codec (whole fs (p ++ chunk).length)).2.withBuffer
          (unfinished fs (p ++ chunk).length)) :=
  push_of_drain (drain_of_clear hframes hb hclear codec (Nat.lt_succ_self _))
    (unfinished_length_le hframes _)

variable {chunks : List Bytes}

theorem pushAll_of_clear (hframes : ∀ f ∈ fs, IsFrame D f) (hb : p ++ chunks.flatten = fs.flatten)
    (hp : unfinished fs p.length = p)
    (hclear : ∀ n < chunks.length + 1, NoInnerFrame D (unfinished fs (p.length + (chunks.take n).flatten.length)))
    (codec : MavlinkV2Codec) :
    pushAll D (codec.withBuffer p) chunks =
      .ok ((arriveAll D codec fs).1, (arriveAll D codec fs).2.withBuffer []) := by
  induction chunks generalizing fs p codec with
  | nil =>
    rw [List.flatten_nil, List.append_nil] at hb
    rw [hb, unfinished_flatten] at hp
    have hfs := eq_nil_of_flatten hframes (hb.symm.trans (hb.trans hp.symm))
    subst hfs
    rw [hb]
    rfl
  | cons chunk chunks ih =>
    rw [List.flatten_cons, ← List.append_assoc] at hb
    have hlen : (p ++ chunk).length = p.length + chunk.length := List.length_append
    have hle : (p ++ chunk).length ≤ fs.flatten.length := by
      have hlength := congrArg List.length hb
      rw [List.length_append] at hlength
      omega
    have hfirst : NoInnerFrame D (unfinished fs (p ++ chunk).length) := by
      have h1 := hclear 1 (by rw [List.length_cons]; omega)
      rwa [List.take_succ_cons, List.take_zero, List.flatten_cons, List.flatten_nil,
        List.append_nil, ← hlen] at h1
    have hrest : ∀ n < chunks.length + 1, NoInnerFrame D
        (unfinished (remaining fs (p ++ chunk).length)
          ((unfinished fs (p ++ chunk).length).length + (chunks.take n).flatten.length)) := by
      intro n hn
      have hnext := hclear (n + 1) (by rw [List.length_cons]; omega)
      rw [List.take_succ_cons, List.flatten_cons, List.length_append, ← Nat.add_assoc,
        ← hlen] at hnext
      rwa [unfinished_remaining hle]
    have hheld : unfinished (remaining fs (p ++ chunk).length)
        (unfinished fs (p ++ chunk).length).length = unfinished fs (p ++ chunk).length :=
      unfinished_remaining hle 0
    rw [pushAll, push_of_clear hframes hb hfirst, ok_bind]
    dsimp only
    rw [ih (remaining_subset _ hframes) (unfinished_append hb) hheld hrest, ok_bind,
      arriveAll_whole D codec fs (p ++ chunk).length]

/-! ## Bytes lost -/

def bytesOf (envelopes : List MavlinkEnvelope) : ℕ :=
  (envelopes.map MavlinkEnvelope.byteLength).sum

theorem bytesOf_append (es fs : List MavlinkEnvelope) :
    bytesOf (es ++ fs) = bytesOf es + bytesOf fs := by
  rw [bytesOf, List.map_append, List.sum_append, bytesOf, bytesOf]

variable {codec : MavlinkV2Codec}

theorem exists_receivedAs {envelope : MavlinkEnvelope} (h : (arrive D codec f).1 = some envelope) :
    ∃ message, decodePayload D (messageIdOf f) (payloadOf f) = .ok message ∧
      (codec.receivedAs f message).1 = some envelope := by
  rw [arrive] at h
  split at h
  · next message hdecode => exact ⟨message, hdecode, h⟩
  · cases h

theorem bytesOf_arrive_le (D : Dialect) (codec : MavlinkV2Codec) (f : Bytes) :
    bytesOf (arrive D codec f).1.toList ≤ f.length := by
  cases he : (arrive D codec f).1 with
  | none => exact Nat.zero_le _
  | some envelope =>
    obtain ⟨message, hdecode, hreceived⟩ := exists_receivedAs he
    obtain ⟨-, m, -, rfl⟩ := carries_of_receivedAs hdecode hreceived
    exact Nat.le_refl _

variable {codec' : MavlinkV2Codec}

theorem turn_bytes {e : Option MavlinkEnvelope} (h : turn D codec = .ok (.next e codec')) :
    bytesOf e.toList + codec'.buffer.length ≤ codec.buffer.length := by
  obtain ⟨t, hturn, hspec⟩ := turn_spec D codec
  obtain ⟨n, hn, hrest⟩ := dropWhile_eq_drop (· ≠ MAVLINK_V2_STX) codec.buffer
  rw [hrest] at hspec
  cases hturn.symm.trans h
  have hlen : (codec.buffer.drop n).length = codec.buffer.length - n := List.length_drop
  cases hspec with
  | resync i _ _ _ _ _ =>
    rw [withBuffer_buffer, List.length_drop]
    exact (Nat.zero_add _).le.trans (by omega)
  | junk _ _ _ =>
    rw [withBuffer_buffer, List.length_drop]
    exact (Nat.zero_add _).le.trans (by omega)
  | frame message hstarts hdecode =>
    have hfit := hstarts.2.2.1
    have hbytes := bytesOf_arrive_le D codec
      ((codec.buffer.drop n).take (frameLength (codec.buffer.drop n)))
    rw [arrive_of_decode hdecode, List.length_take, Nat.min_eq_left hfit] at hbytes
    rw [withBuffer_buffer, List.length_drop]
    omega

theorem turn_stop_bytes (h : turn D codec = .ok (.stop codec')) :
    codec'.buffer.length ≤ codec.buffer.length := by
  obtain ⟨pos, -, -, hbuffer, -⟩ := turn_stop (Nat.zero_le codec.buffer.length) rfl h
  rw [hbuffer, List.length_drop]
  omega

variable {envelopes : List MavlinkEnvelope}

theorem drain_bytes (h : drain D fuel codec = .ok (envelopes, codec')) :
    bytesOf envelopes + codec'.buffer.length ≤ codec.buffer.length := by
  induction fuel generalizing codec envelopes with
  | zero => cases h
  | succ fuel ih =>
    obtain ⟨t, hturn, -⟩ := turn_spec D codec
    rw [drain, hturn, ok_bind] at h
    cases t with
    | stop codec₁ =>
      cases h
      exact (Nat.zero_add _).le.trans (turn_stop_bytes hturn)
    | next e codec₁ =>
      have hbytes := turn_bytes hturn
      obtain ⟨rest, hrest, h⟩ := bind_eq_ok.mp h
      cases h
      have hih := ih hrest
      rw [bytesOf_append]
      omega

theorem drain_call (D : Dialect) (codec : MavlinkV2Codec) (buffer : Bytes) :
    ∃ envelopes codec', drain D (buffer.length + 1) (codec.withBuffer buffer) =
      .ok (envelopes, codec') ∧ codec'.buffer.length < 280 := by
  obtain ⟨es, codec₁, hdrain, hsmall, -⟩ := @drain_spec D _ (codec.withBuffer buffer) buffer 0
    (Nat.lt_succ_self _) (Nat.zero_le _) rfl
  exact ⟨es, codec₁, hdrain, hsmall⟩

theorem push_bytes (h : push D codec chunk = .ok (envelopes, codec')) :
    bytesOf envelopes + codec'.buffer.length ≤ codec.buffer.length + chunk.length := by
  obtain ⟨es, codec₁, hdrain, hsmall⟩ := drain_call D codec (codec.buffer ++ chunk)
  cases (push_of_drain hdrain hsmall).symm.trans h
  have hbytes := drain_bytes hdrain
  rwa [withBuffer_buffer, List.length_append] at hbytes

theorem pushAll_bytes (h : pushAll D codec chunks = .ok (envelopes, codec')) :
    bytesOf envelopes + codec'.buffer.length ≤ codec.buffer.length + chunks.flatten.length := by
  induction chunks generalizing codec envelopes with
  | nil =>
    cases h
    exact (Nat.zero_add _).le
  | cons chunk chunks ih =>
    obtain ⟨first, hpush, h⟩ := bind_eq_ok.mp h
    obtain ⟨rest, hrest, h⟩ := bind_eq_ok.mp h
    cases h
    have hbytes := push_bytes hpush
    have hih := ih hrest
    rw [bytesOf_append, List.flatten_cons, List.length_append]
    omega

theorem turn_of_inner (hframe : IsFrame D f) (codec : MavlinkV2Codec) {n : ℕ} (hn : n < f.length)
    (hinner : ¬ NoInnerFrame D (f.take n)) :
    ∃ i, 1 ≤ i ∧ turn D (codec.withBuffer (f.take n)) =
      .ok (.next none (codec.withBuffer ((f.take n).drop i))) ∧ i < n := by
  have hlen : (f.take n).length = n := by rw [List.length_take, Nat.min_eq_left (by omega)]
  have hfound : ∃ i, i < n ∧ 1 ≤ i ∧ StartsFrame D ((f.take n).drop i) := by
    by_contra hnone
    apply hinner
    intro i hi h1 hstarts
    exact hnone ⟨i, by omega, h1, hstarts⟩
  obtain ⟨j, hj, hj1, hjstarts⟩ := hfound
  have hroom := hjstarts.2.1
  rw [List.length_drop, hlen] at hroom
  have hhead : (f.take n).head? = some MAVLINK_V2_STX := by
    rw [List.head?_take, if_neg (by omega), hframe.1.1]
  have hlength : frameLength (f.take n) = f.length := by
    rw [frameLength_take (by omega), hframe.2]
  obtain ⟨t, hturn, hspec⟩ := turn_spec D (codec.withBuffer (f.take n))
  rw [withBuffer_buffer, dropWhile_of_head hhead] at hspec
  rw [hturn]
  cases hspec with
  | short hshort => rw [withBuffer_buffer] at hshort; omega
  | few _ hfew => omega
  | wait _ _ hnone => exact absurd hjstarts (hnone j hj1)
  | resync i _ _ hi hstarts _ =>
    refine ⟨i, hi, rfl, ?_⟩
    have h12 := hstarts.2.1
    rw [List.length_drop] at h12
    omega
  | junk _ hfit _ => omega
  | frame message hstarts _ =>
    have hfit := hstarts.2.2.1
    omega

theorem drain_of_inner (hframes : ∀ f ∈ fs, IsFrame D f) (hb : b ++ later = fs.flatten)
    (hinner : ¬ NoInnerFrame D (unfinished fs b.length))
    (h : drain D fuel (codec.withBuffer b) = .ok (envelopes, codec')) :
    bytesOf envelopes + codec'.buffer.length < b.length := by
  induction fs generalizing b codec envelopes fuel with
  | nil => exact absurd (fun i hi => by cases hi) hinner
  | cons f fs ih =>
    cases fuel with
    | zero => cases h
    | succ fuel =>
      have hf := hframes f List.mem_cons_self
      rw [List.flatten_cons] at hb
      rw [unfinished] at hinner
      by_cases hle : f.length ≤ b.length
      · rw [if_pos hle] at hinner
        obtain ⟨tail, rfl, htail⟩ := append_eq_of_le hb hle
        rw [List.length_append] at hinner ⊢
        rw [Nat.add_sub_cancel_left] at hinner
        rw [drain, turn_of_frame hf, ok_bind] at h
        obtain ⟨rest, hrest, h⟩ := bind_eq_ok.mp h
        cases h
        have hih := ih (fun g hg => hframes g (List.mem_cons_of_mem f hg)) htail hinner hrest
        have hbytes := bytesOf_arrive_le D codec f
        rw [bytesOf_append]
        omega
      · rw [if_neg hle] at hinner
        obtain ⟨i, hi, hturn, hin⟩ := turn_of_inner hf codec (Nat.lt_of_not_le hle) hinner
        rw [append_eq_of_lt hb (by omega)] at hturn
        rw [drain, hturn, ok_bind] at h
        obtain ⟨rest, hrest, h⟩ := bind_eq_ok.mp h
        cases h
        have hbytes := drain_bytes hrest
        rw [withBuffer_buffer, List.length_drop] at hbytes
        have hnone : bytesOf (none : Option MavlinkEnvelope).toList = 0 := rfl
        rw [bytesOf_append, hnone]
        omega

theorem pushAll_of_inner (hframes : ∀ f ∈ fs, IsFrame D f) (hb : p ++ chunks.flatten = fs.flatten)
    (hp : unfinished fs p.length = p) (hpclear : NoInnerFrame D p)
    (hinner : ¬ ∀ n < chunks.length + 1, NoInnerFrame D (unfinished fs (p.length + (chunks.take n).flatten.length)))
    (h : pushAll D (codec.withBuffer p) chunks = .ok (envelopes, codec')) :
    bytesOf envelopes < p.length + chunks.flatten.length := by
  induction chunks generalizing fs p codec envelopes with
  | nil =>
    refine absurd (fun n _ => ?_) hinner
    rw [List.take_nil, List.flatten_nil, List.length_nil, Nat.add_zero, hp]
    exact hpclear
  | cons chunk chunks ih =>
    rw [List.flatten_cons, ← List.append_assoc] at hb
    have hlen : (p ++ chunk).length = p.length + chunk.length := List.length_append
    have hle : (p ++ chunk).length ≤ fs.flatten.length := by
      have hlength := congrArg List.length hb
      rw [List.length_append] at hlength
      omega
    rw [List.flatten_cons, List.length_append]
    obtain ⟨first, hpush, h⟩ := bind_eq_ok.mp h
    obtain ⟨rest, hrest, h⟩ := bind_eq_ok.mp h
    cases h
    rw [bytesOf_append]
    by_cases hclear : NoInnerFrame D (unfinished fs (p ++ chunk).length)
    · have hbytes := push_bytes hpush
      rw [push_of_clear hframes hb hclear] at hpush
      cases hpush
      rw [withBuffer_buffer, withBuffer_buffer] at hbytes
      have hheld : unfinished (remaining fs (p ++ chunk).length)
          (unfinished fs (p ++ chunk).length).length = unfinished fs (p ++ chunk).length :=
        unfinished_remaining hle 0
      have hih := ih (remaining_subset _ hframes) (unfinished_append hb) hheld hclear ?_ hrest
      · omega
      · intro hall
        refine hinner fun n hn => ?_
        cases n with
        | zero =>
          rw [List.take_zero, List.flatten_nil, List.length_nil, Nat.add_zero, hp]
          exact hpclear
        | succ n =>
          rw [List.length_cons] at hn
          have hnext := hall n (by omega)
          rwa [unfinished_remaining hle, hlen, Nat.add_assoc, ← List.length_append,
            ← List.flatten_cons, ← List.take_succ_cons] at hnext
    · obtain ⟨es, codec₁, hdrain, hsmall⟩ := drain_call D codec (p ++ chunk)
      have hcall : push D (codec.withBuffer p) chunk = .ok (es, codec₁) :=
        push_of_drain hdrain hsmall
      cases hcall.symm.trans hpush
      have hlost := drain_of_inner hframes hb hclear hdrain
      have hbytes := pushAll_bytes hrest
      dsimp only at hbytes ⊢
      omega

/-! ## Frames of an encoder -/

def EncodedAs (D : Dialect) (message : MavlinkMessage) (f : Bytes) : Prop :=
  ∃ sender header sender', encode D sender header message = .ok (f, sender')

/-- Frames of the message are decoded; the codec only encodes the two types left out. -/
def HasDecoder (D : Dialect) (message : MavlinkMessage) : Prop :=
  ∃ messageId, messageIdFor D message = .ok messageId ∧
    messageId ≠ MAVLINK_MESSAGE_IDS.GPS_INPUT ∧ messageId ≠ MAVLINK_MESSAGE_IDS.SETUP_SIGNING

theorem handEntered_decoded : ∀ entry ∈ handEntered,
    entry.1 ∈ payloadDecoders.map Prod.fst ∨ entry.1 = MAVLINK_MESSAGE_IDS.GPS_INPUT ∨
      entry.1 = MAVLINK_MESSAGE_IDS.SETUP_SIGNING := by decide

theorem decodePayload_isSome {messageId : ℕ} {payload : Bytes} {message : Option MavlinkMessage}
    (hcrc : (crcExtraFor D messageId).isSome) (hgps : messageId ≠ MAVLINK_MESSAGE_IDS.GPS_INPUT)
    (hsetup : messageId ≠ MAVLINK_MESSAGE_IDS.SETUP_SIGNING)
    (h : decodePayload D messageId payload = .ok message) : message.isSome := by
  rw [decodePayload] at h
  cases hlookup : payloadDecoders.lookup messageId with
  | some decode =>
    rw [hlookup] at h
    dsimp only at h
    cases hdecode : decode payload with
    | error thrown =>
      rw [hdecode] at h
      cases h
    | ok m =>
      rw [hdecode] at h
      cases h
      rfl
  | none =>
    rw [hlookup] at h
    dsimp only at h
    cases hhand : MAVLINK_MESSAGE_CRCS messageId with
    | some crcExtra =>
      obtain ⟨entry, hentry, -⟩ := Option.map_eq_some_iff.mp hhand
      obtain ⟨l₁, l₂, hsplit, -⟩ := List.lookup_eq_some_iff.mp hentry
      have hmem : (messageId, entry) ∈ handEntered := by
        rw [hsplit]
        exact List.mem_append_right _ List.mem_cons_self
      obtain hdecoded | h232 | h256 := handEntered_decoded _ hmem
      · obtain ⟨⟨id, decode⟩, hin, rfl⟩ := List.mem_map.mp hdecoded
        have hnone := List.lookup_eq_none_iff.mp hlookup _ hin
        exact absurd hnone (by simp)
      · exact absurd h232 hgps
      · exact absurd h256 hsetup
    | none =>
      rw [hhand] at h
      rw [crcExtraFor, hhand, Dialect.mavlinkGenericCrcExtra, Option.isSome_map] at hcrc
      obtain ⟨d, hd⟩ := Option.isSome_iff_exists.mp hcrc
      dsimp only at h
      rw [decodeGenericPayload, hd] at h
      obtain ⟨generic, hgeneric, h⟩ := bind_eq_ok.mp h
      obtain ⟨fields, -, hfields⟩ := bind_eq_ok.mp hgeneric
      cases hfields
      cases h
      rfl

theorem arrive_encoded {message : MavlinkMessage} (hsigning : codec.activeSigning = none)
    (hencoded : EncodedAs D message f) (hdecoder : HasDecoder D message) :
    ∃ envelope, arrive D codec f = (some envelope, codec) ∧ Carries D f envelope := by
  obtain ⟨sender, header, sender', hencode⟩ := hencoded
  obtain ⟨messageId, hid, hgps, hsetup⟩ := hdecoder
  have hframe := encode_isFrame hencode
  obtain ⟨id, payload, flags, trailer, hid', hpayload, hf, htrailer, hflags⟩ := encode_spec hencode
  cases hid.symm.trans hid'
  obtain ⟨hlt, hcrc⟩ := messageIdFor_spec hid
  obtain ⟨decoded, hdecode, -⟩ := receive_eq_ok codec hframe
  have hidOf : messageIdOf f = messageId := by rw [hf, messageIdOf_frameBytes trailer hlt]
  have hsome := decodePayload_isSome hcrc hgps hsetup (hidOf ▸ hdecode)
  obtain ⟨m, rfl⟩ := Option.isSome_iff_exists.mp hsome
  have hbyte : byteOr f 2 &&& ~~~MAVLINK_V2_INCOMPAT_FLAG_SIGNED = 0 := by
    rw [hf]
    exact hflags
  refine ⟨envelopeOf f m, ?_, hbyte, m, hdecode, rfl⟩
  rw [arrive_of_decode hdecode, receivedAs, if_neg (not_not_intro hbyte), checked, hsigning]
  rfl

variable {frames : List Bytes} {messages : List MavlinkMessage}

theorem arriveAll_encoded (hsigning : codec.activeSigning = none)
    (hencoded : List.Forall₂ (EncodedAs D) messages frames)
    (hdecoder : ∀ message ∈ messages, HasDecoder D message) :
    List.Forall₂ (Carries D) frames (arriveAll D codec frames).1 := by
  induction hencoded with
  | nil => exact .nil
  | cons hf _ ih =>
    obtain ⟨envelope, harrive, hcarries⟩ :=
      arrive_encoded hsigning hf (hdecoder _ List.mem_cons_self)
    rw [arriveAll_cons, harrive]
    exact .cons hcarries (ih fun m hm => hdecoder m (List.mem_cons_of_mem _ hm))

theorem encoded_isFrame (h : List.Forall₂ (EncodedAs D) messages frames) :
    ∀ f ∈ frames, IsFrame D f := by
  induction h with
  | nil => exact fun _ hf => absurd hf List.not_mem_nil
  | cons hencoded _ ih =>
    obtain ⟨_, _, _, hencode⟩ := hencoded
    exact List.forall_mem_cons.mpr ⟨encode_isFrame hencode, ih⟩

theorem receivedAs_buffer (codec : MavlinkV2Codec) (f : Bytes) (message : Option MavlinkMessage) :
    (codec.receivedAs f message).2.buffer = codec.buffer := by
  have hkept := receivedAs_withBuffer codec f codec.buffer message
  rw [withBuffer_self] at hkept
  rw [hkept, withBuffer_buffer]

theorem arrive_buffer (D : Dialect) (codec : MavlinkV2Codec) (f : Bytes) :
    (arrive D codec f).2.buffer = codec.buffer := by
  rw [arrive]
  split
  · exact receivedAs_buffer codec f _
  · rfl

theorem arriveAll_length_le (D : Dialect) (codec : MavlinkV2Codec) (frames : List Bytes) :
    (arriveAll D codec frames).1.length ≤ frames.length := by
  induction frames generalizing codec with
  | nil => exact Nat.le_refl 0
  | cons f fs ih =>
    have hone : (arrive D codec f).1.toList.length ≤ 1 := by
      cases (arrive D codec f).1 with
      | none => exact Nat.zero_le 1
      | some envelope => exact Nat.le_refl 1
    have hih := ih (arrive D codec f).2
    rw [arriveAll_cons, List.length_append, List.length_cons]
    omega

theorem bytesOf_arriveAll (h : (arriveAll D codec frames).1.length = frames.length) :
    bytesOf (arriveAll D codec frames).1 = frames.flatten.length := by
  induction frames generalizing codec with
  | nil => rfl
  | cons f fs ih =>
    have hle := arriveAll_length_le D (arrive D codec f).2 fs
    rw [arriveAll_cons, List.length_append, List.length_cons] at h
    rw [arriveAll_cons, bytesOf_append, List.flatten_cons, List.length_append]
    cases he : (arrive D codec f).1 with
    | none =>
      rw [he] at h
      simp only [Option.toList_none, List.length_nil] at h
      omega
    | some envelope =>
      rw [he] at h
      rw [ih (by simp only [Option.toList_some, List.length_singleton] at h; omega)]
      obtain ⟨message, hdecode, hreceived⟩ := exists_receivedAs he
      obtain ⟨-, m, -, rfl⟩ := carries_of_receivedAs hdecode hreceived
      rfl

theorem arriveAll_buffer (D : Dialect) (codec : MavlinkV2Codec) (frames : List Bytes) :
    (arriveAll D codec frames).2.buffer = codec.buffer := by
  induction frames generalizing codec with
  | nil => rfl
  | cons f fs ih => rw [arriveAll_cons, ih, arrive_buffer]

/-- The chunks of a stream of encoded frames do what the frames do one after the other, if no cut
leaves a frame of its own in what has come of the frame it cuts. Where each frame brings an envelope
there is no other way. -/
theorem pushAll_encoded {D : Dialect} {messages : List MavlinkMessage} {frames chunks : List Bytes}
    (hencoded : List.Forall₂ (EncodedAs D) messages frames)
    (hsplit : chunks.flatten = frames.flatten) (codec : MavlinkV2Codec) :
    (CutsClear D frames chunks →
      pushAll D codec.reset chunks = .ok (arriveAll D codec.reset frames)) ∧
    ((arriveAll D codec.reset frames).1.length = frames.length →
      ((∃ codec', pushAll D codec.reset chunks = .ok ((arriveAll D codec.reset frames).1, codec')) ↔
        CutsClear D frames chunks)) ∧
    (codec.activeSigning = none → (∀ message ∈ messages, HasDecoder D message) →
      List.Forall₂ (Carries D) frames (arriveAll D codec.reset frames).1) := by
  have hframes := encoded_isFrame hencoded
  have hb : [] ++ chunks.flatten = frames.flatten := hsplit
  have hreset : codec.reset = codec.reset.withBuffer [] := rfl
  have hp : ∀ fs : List Bytes, (∀ f ∈ fs, IsFrame D f) → unfinished fs 0 = [] := by
    intro fs hfs
    cases fs with
    | nil => rfl
    | cons f fs =>
      rw [unfinished]
      split
      · next hle =>
        have h12 := (hfs f List.mem_cons_self).1.2.1
        omega
      · rfl
  have hclearly : CutsClear D frames chunks ↔ ∀ n < chunks.length + 1,
      NoInnerFrame D (unfinished frames (([] : Bytes).length + (chunks.take n).flatten.length)) := by
    simp only [List.length_nil, Nat.zero_add]
    rfl
  have hclear : CutsClear D frames chunks →
      pushAll D codec.reset chunks = .ok (arriveAll D codec.reset frames) := by
    intro hcuts
    rw [hreset, pushAll_of_clear hframes hb (hp frames hframes) (hclearly.mp hcuts), ← hreset]
    have hempty : (arriveAll D codec.reset frames).2.buffer = [] := arriveAll_buffer _ _ _
    rw [← hempty, withBuffer_self]
  refine ⟨hclear, fun hall => ⟨?_, fun hcuts => ⟨_, hclear hcuts⟩⟩, fun hsigning hdecoder =>
    arriveAll_encoded hsigning hencoded hdecoder⟩
  rintro ⟨codec', hpush⟩
  by_contra hcuts
  have hlost := pushAll_of_inner hframes hb (hp frames hframes) (fun i hi => by cases hi)
    (fun h => hcuts (hclearly.mpr h)) hpush
  rw [bytesOf_arriveAll hall, hsplit, List.length_nil] at hlost
  omega

/-- A CAN frame whose payload begins with the bytes of a heartbeat frame without a payload. -/
def heartbeatInside : CanFrameMessage :=
  { id := 0xfd, targetSystem := 7, targetComponent := 1, bus := 1, len := 0,
    data := [0, 0, 97, 70, 1, 2, 3, 4] }

def heartbeatInsideFrame : Bytes :=
  frameBytes .excerpt 0 ⟨1, 1, 0⟩ MAVLINK_MESSAGE_IDS.CAN_FRAME
    ([0xfd, 0, 0, 0, 7, 1, 1, 0] ++ heartbeatInside.data)

theorem heartbeatInside_encoded :
    List.Forall₂ (EncodedAs .excerpt) [.CAN_FRAME heartbeatInside] [heartbeatInsideFrame] :=
  .cons ⟨fresh, ⟨1, 1, 0⟩, fresh, rfl⟩ .nil

set_option maxRecDepth 4000 in
theorem pushAll_encoded_heartbeatInside :
    pushAll .excerpt fresh.reset [heartbeatInsideFrame.take 21, heartbeatInsideFrame.drop 21] =
        .ok (arriveAll .excerpt fresh.reset [heartbeatInsideFrame]) ∧
      ¬ ∃ codec', pushAll .excerpt fresh.reset
          [heartbeatInsideFrame.take 22, heartbeatInsideFrame.drop 22] =
        .ok ((arriveAll .excerpt fresh.reset [heartbeatInsideFrame]).1, codec') := by
  have before := @pushAll_encoded .excerpt _ _
    [heartbeatInsideFrame.take 21, heartbeatInsideFrame.drop 21] heartbeatInside_encoded rfl fresh
  have behind := @pushAll_encoded .excerpt _ _
    [heartbeatInsideFrame.take 22, heartbeatInsideFrame.drop 22] heartbeatInside_encoded rfl fresh
  exact ⟨before.1 (by decide), fun h => absurd ((behind.2.1 rfl).mp h) (by decide)⟩

set_option maxRecDepth 4000 in
/-- Cut behind the heartbeat, the CAN frame is lost and the heartbeat received in its place. -/
theorem heartbeat_replaces_can_frame :
    List.Forall₂ (EncodedAs .excerpt) [.CAN_FRAME heartbeatInside] [heartbeatInsideFrame] ∧
      (pushAll .excerpt fresh.reset [heartbeatInsideFrame]).map Prod.fst =
        .ok [⟨⟨1, 1, 0⟩, .CAN_FRAME heartbeatInside, 28⟩] ∧
      (pushAll .excerpt fresh.reset
          [heartbeatInsideFrame.take 22, heartbeatInsideFrame.drop 22]).map Prod.fst =
        .ok [⟨⟨1, 1, 7⟩, .HEARTBEAT ⟨0, 0, 0, 0, 0, 0⟩, 12⟩] :=
  ⟨heartbeatInside_encoded, rfl, rfl⟩

end MavlinkV2Codec

end ArduConfigurator.Mavlink
