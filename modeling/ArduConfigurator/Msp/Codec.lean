import ArduConfigurator.Lib.LittleEndian
import ArduConfigurator.Lib.Rescan
import Mathlib.Data.List.Forall2
import Mathlib.Data.List.GetD

/-! # MSP v1 frames

`msp-v1-codec.ts`: the encoder of requests and the incremental decoder. -/
namespace ArduConfigurator.Msp
set_option autoImplicit false

def MSP_V1_MAGIC : Bytes := [0x24, 0x4d]

namespace MSP_DIRECTION

def REQUEST : UInt8 := 0x3c
def RESPONSE : UInt8 := 0x3e
def ERROR : UInt8 := 0x21

end MSP_DIRECTION

def MSP_V1_MAX_PAYLOAD : ℕ := 255

structure MspFrame where
  command : ℕ
  payload : Bytes
  isError : Bool

def mspV1Checksum (command : ℕ) (payload : Bytes) : ℕ :=
  payload.foldl (fun checksum byte => checksum ^^^ byte.toNat) (payload.length ^^^ command) &&& 0xff

/-- `none` where the payload is too large to be framed. -/
def encodeMspV1Request (command : ℕ) (payload : Bytes) : Option Bytes :=
  if MSP_V1_MAX_PAYLOAD < payload.length then none
  else
    some (MSP_V1_MAGIC ++ [MSP_DIRECTION.REQUEST, UInt8.ofNat payload.length, UInt8.ofNat command] ++
      payload ++ [UInt8.ofNat (mspV1Checksum command payload)])

/-! ## The decoder -/

/-- The buffer from the first `$M` on, or its last byte. -/
def resync : Bytes → Bytes
  | a :: b :: rest => if [a, b] = MSP_V1_MAGIC then a :: b :: rest else resync (b :: rest)
  | buffer => buffer

/-- What the loop does with a buffer that begins with `$M`: it waits, or it takes a frame, or after a
bad checksum the magic only. -/
def takeFrame (buffer : Bytes) : Option (Option MspFrame × Bytes) :=
  if buffer.length < 6 then none
  else
    let size := (buffer.getD 3 0).toNat
    let total := 6 + size
    if buffer.length < total then none
    else
      let direction := buffer.getD 2 0
      let command := (buffer.getD 4 0).toNat
      let payload := slice buffer 5 size
      let checksum := (buffer.getD (total - 1) 0).toNat
      if mspV1Checksum command payload = checksum then
        some (some ⟨command, payload, direction = MSP_DIRECTION.ERROR⟩, buffer.drop total)
      else some (none, buffer.drop 2)

variable {b r : Bytes} {o : Option MspFrame}

theorem takeFrame_length (h : takeFrame b = some (o, r)) :
    r.length < b.length := by
  simp only [takeFrame] at h
  split_ifs at h
  · cases h
    rw [List.length_drop]
    omega
  · cases h
    rw [List.length_drop]
    omega

theorem takeFrame_length_le (h : takeFrame b ≠ none) : 6 ≤ b.length := by
  rw [takeFrame] at h
  by_contra hlen
  exact h (if_pos (by omega))

theorem takeFrame_append (c : Bytes) (h : takeFrame b = some (o, r)) :
    takeFrame (b ++ c) = some (o, r ++ c) := by
  simp only [takeFrame] at h ⊢
  split_ifs at h with h6 htotal hsum
  all_goals
    have hget : ∀ i < b.length, (b ++ c).getD i 0 = b.getD i 0 := fun i hi =>
      List.getD_append _ _ _ _ hi
    rw [List.length_append, if_neg (by omega), hget 3 (by omega), if_neg (by omega),
      hget 4 (by omega), hget 2 (by omega), hget _ (by omega), slice_append_left c (by omega)]
  · cases h
    rw [if_pos hsum, List.drop_append_of_le_length (by omega)]
  · cases h
    rw [if_neg hsum, List.drop_append_of_le_length (by omega)]

/-! ## Finding the magic -/

variable {a : UInt8}

theorem resync_of_magic {b : UInt8} (h : [a, b] = MSP_V1_MAGIC) (rest : Bytes) :
    resync (a :: b :: rest) = a :: b :: rest := if_pos h

theorem resync_of_ne {b : UInt8} (h : [a, b] ≠ MSP_V1_MAGIC) (rest : Bytes) :
    resync (a :: b :: rest) = resync (b :: rest) := if_neg h

theorem resync_length (b : Bytes) : (resync b).length ≤ b.length := by
  induction b with
  | nil => exact Nat.le_refl _
  | cons a tail ih =>
    cases tail with
    | nil => exact Nat.le_refl _
    | cons b rest =>
      by_cases h : [a, b] = MSP_V1_MAGIC
      · rw [resync_of_magic h]
      · rw [resync_of_ne h]
        exact ih.trans (Nat.le_succ _)

theorem resync_append (b c : Bytes) : resync (resync b ++ c) = resync (b ++ c) := by
  induction b with
  | nil => rfl
  | cons a tail ih =>
    cases tail with
    | nil => rfl
    | cons b rest =>
      by_cases h : [a, b] = MSP_V1_MAGIC
      · rw [resync_of_magic h]
      · rw [resync_of_ne h, ih]
        exact (resync_of_ne h (rest ++ c)).symm

theorem resync_kept (h : 2 ≤ (resync b).length) :
    ∃ rest, resync b = MSP_V1_MAGIC ++ rest := by
  induction b with
  | nil => exact absurd h (by decide)
  | cons a tail ih =>
    cases tail with
    | nil => exact absurd h (Nat.not_succ_le_self 1)
    | cons b rest =>
      by_cases hm : [a, b] = MSP_V1_MAGIC
      · rw [resync_of_magic hm]
        exact ⟨rest, by rw [← hm]; rfl⟩
      · rw [resync_of_ne hm] at h ⊢
        exact ih h

theorem resync_magic (rest : Bytes) : resync (MSP_V1_MAGIC ++ rest) = MSP_V1_MAGIC ++ rest := if_pos rfl

theorem exists_gap (b : Bytes) : ∃ gap, b = gap ++ resync b := by
  induction b with
  | nil => exact ⟨[], rfl⟩
  | cons a tail ih =>
    cases tail with
    | nil => exact ⟨[], rfl⟩
    | cons b rest =>
      by_cases h : [a, b] = MSP_V1_MAGIC
      · exact ⟨[], by rw [resync_of_magic h]; rfl⟩
      · obtain ⟨gap, hgap⟩ := ih
        refine ⟨a :: gap, ?_⟩
        rw [resync_of_ne h, List.cons_append, ← hgap]

def turn (b : Bytes) : Option (Option MspFrame × Bytes) := takeFrame (resync b)

theorem turn_length (h : turn b = some (o, r)) :
    r.length < b.length := (takeFrame_length h).trans_le (resync_length b)

theorem turn_kept (h : turn b = some (o, r)) :
    ∃ rest, resync b = MSP_V1_MAGIC ++ rest := by
  have hlen := takeFrame_length_le (b := resync b) (fun hnone => by
    rw [turn, hnone] at h
    cases h)
  exact resync_kept (by omega)

theorem turn_append (c : Bytes) (h : turn b = some (o, r)) :
    turn (b ++ c) = some (o, r ++ c) := by
  obtain ⟨rest, hrest⟩ := turn_kept h
  rw [turn, ← resync_append, hrest, List.append_assoc, resync_magic, ← List.append_assoc, ← hrest]
  exact takeFrame_append c h

theorem turn_resync (b c : Bytes) : turn (resync b ++ c) = turn (b ++ c) :=
  congrArg takeFrame (resync_append b c)

def scanner : Scanner UInt8 MspFrame where
  turn := turn
  keep := resync
  turn_length := turn_length
  turn_append := turn_append
  turn_keep c _ := turn_resync _ c
  keep_append c _ := resync_append _ c

structure MspV1Decoder where
  buffer : Bytes

namespace MspV1Decoder

def new : MspV1Decoder := ⟨[]⟩

def push (d : MspV1Decoder) (chunk : Bytes) : List MspFrame × MspV1Decoder :=
  ((scanner.drain (d.buffer ++ chunk)).1, ⟨(scanner.drain (d.buffer ++ chunk)).2⟩)

def reset (_ : MspV1Decoder) : MspV1Decoder := new

def pushAll : MspV1Decoder → List Bytes → List MspFrame
  | _, [] => []
  | d, chunk :: chunks => (d.push chunk).1 ++ pushAll (d.push chunk).2 chunks

theorem pushAll_eq_feed (d : MspV1Decoder) (chunks : List Bytes) :
    d.pushAll chunks = scanner.feed d.buffer chunks := by
  induction chunks generalizing d with
  | nil => rfl
  | cons chunk chunks ih => rw [pushAll, ih, push, Scanner.feed]

theorem pushAll_new (chunks : List Bytes) :
    new.pushAll chunks = (scanner.drain chunks.flatten).1 := by
  rw [pushAll_eq_feed, scanner.feed_eq rfl]
  rfl

end MspV1Decoder

/-! ## Frames in the stream -/

/-- The bytes of a frame, with the length and the checksum that they declare. -/
structure IsSegment (segment : Bytes) (direction : UInt8) (f : MspFrame) : Prop where
  bytes : segment = MSP_V1_MAGIC ++ [direction, UInt8.ofNat f.payload.length,
    UInt8.ofNat f.command] ++ f.payload ++ [UInt8.ofNat (mspV1Checksum f.command f.payload)]
  payload_le : f.payload.length ≤ MSP_V1_MAX_PAYLOAD
  command_lt : f.command < 256
  isError : f.isError = decide (direction = MSP_DIRECTION.ERROR)

inductive Carries : Bytes → List MspFrame → Prop
  | none (stream : Bytes) : Carries stream []
  | frame (gap segment : Bytes) (direction : UInt8) (f : MspFrame) (rest : Bytes)
      (fs : List MspFrame) : IsSegment segment direction f → Carries rest fs →
      Carries (gap ++ segment ++ rest) (f :: fs)

theorem mspV1Checksum_lt (command : ℕ) (payload : Bytes) : mspV1Checksum command payload < 256 :=
  Nat.lt_succ_of_le Nat.and_le_right

variable {fs : List MspFrame}

theorem Carries.gap {stream : Bytes} (h : Carries stream fs) (gap : Bytes) :
    Carries (gap ++ stream) fs := by
  cases h with
  | none => exact .none _
  | frame gap' segment direction f rest fs hsegment hrest =>
    have h := Carries.frame (gap ++ gap') segment direction f rest fs hsegment hrest
    rwa [List.append_assoc gap, List.append_assoc gap] at h

theorem takeFrame_fields (direction size command : UInt8) (rest : Bytes) :
    takeFrame (MSP_V1_MAGIC ++ direction :: size :: command :: rest) =
      if rest.length < size.toNat + 1 then none
      else if mspV1Checksum command.toNat (rest.take size.toNat) =
          (rest.getD size.toNat 0).toNat then
        some (some ⟨command.toNat, rest.take size.toNat, direction = MSP_DIRECTION.ERROR⟩,
          rest.drop (size.toNat + 1))
      else some (none, direction :: size :: command :: rest) := by
  have hlength : (MSP_V1_MAGIC ++ direction :: size :: command :: rest).length =
      5 + rest.length := by
    simp only [MSP_V1_MAGIC, List.cons_append, List.nil_append, List.length_cons]
    omega
  have hsize : (MSP_V1_MAGIC ++ direction :: size :: command :: rest).getD 3 0 = size := rfl
  have hlast : (MSP_V1_MAGIC ++ direction :: size :: command :: rest).getD (6 + size.toNat - 1) 0 =
      rest.getD size.toNat 0 := by
    rw [show 6 + size.toNat - 1 = size.toNat + 5 by omega]
    rfl
  have hdrop : (MSP_V1_MAGIC ++ direction :: size :: command :: rest).drop (6 + size.toNat) =
      rest.drop (size.toNat + 1) := by
    rw [show 6 + size.toNat = size.toNat + 1 + 5 by omega]
    rfl
  rw [takeFrame, hlength]
  simp only [hsize, hlast, hdrop]
  by_cases hshort : rest.length < size.toNat + 1
  · rw [if_pos hshort]
    split_ifs
    · rfl
    · rfl
    · omega
    · omega
  · rw [if_neg hshort, if_neg (by omega), if_neg (by omega)]
    rfl

variable {f : MspFrame}

theorem takeFrame_frame (h : takeFrame (MSP_V1_MAGIC ++ b) = some (some f, r)) :
    ∃ segment direction, IsSegment segment direction f ∧ MSP_V1_MAGIC ++ b = segment ++ r := by
  have hlen := takeFrame_length_le (b := MSP_V1_MAGIC ++ b) (fun hnone => by
    rw [hnone] at h
    cases h)
  obtain ⟨direction, size, command, rest, rfl⟩ : ∃ direction size command rest,
      b = direction :: size :: command :: rest := by
    match b, hlen with
    | direction :: size :: command :: rest, _ => exact ⟨direction, size, command, rest, rfl⟩
  rw [takeFrame_fields] at h
  split_ifs at h with hshort hsum
  · rw [Option.some.injEq, Prod.mk.injEq, Option.some.injEq] at h
    obtain ⟨rfl, rfl⟩ := h
    have hpayload : (rest.take size.toNat).length = size.toNat :=
      List.length_take_of_le (by omega)
    have hsplit : rest = rest.take size.toNat ++
        rest.getD size.toNat 0 :: rest.drop (size.toNat + 1) := by
      rw [List.getD_eq_getElem _ _ (show size.toNat < rest.length by omega),
        ← List.drop_eq_getElem_cons, List.take_append_drop]
    refine ⟨_, direction, ⟨rfl, ?_, command.toNat_lt, rfl⟩, ?_⟩
    · rw [hpayload]
      exact Nat.le_of_lt_succ size.toNat_lt
    · rw [hpayload, hsum, UInt8.ofNat_toNat, UInt8.ofNat_toNat, UInt8.ofNat_toNat,
        List.append_assoc, List.append_assoc, List.append_assoc]
      exact congrArg (fun bytes => MSP_V1_MAGIC ++ direction :: size :: command :: bytes) hsplit
  · cases h

theorem takeFrame_suspect (h : takeFrame b = some (none, r)) : r = b.drop 2 := by
  simp only [takeFrame] at h
  split_ifs at h
  · cases h
  · rw [Option.some.injEq, Prod.mk.injEq] at h
    exact h.2.symm

theorem carries_drain (b : Bytes) : Carries b (scanner.drain b).1 := by
  induction b using scanner.induction with
  | waits b h =>
    rw [scanner.drain_of_none h]
    exact .none b
  | takes b r o h ih =>
    rw [scanner.drain_of_some h]
    obtain ⟨gap, hgap⟩ := exists_gap b
    obtain ⟨rest, hrest⟩ := turn_kept h
    have htake : takeFrame (resync b) = some (o, r) := h
    cases o with
    | none =>
      have hr := takeFrame_suspect htake
      have hb : b = (gap ++ (resync b).take 2) ++ r := by
        rw [hr, List.append_assoc, List.take_append_drop, ← hgap]
      rw [hb]
      exact ih.gap _
    | some f =>
      rw [hrest] at htake
      obtain ⟨segment, direction, hsegment, hsplit⟩ := takeFrame_frame htake
      have hb : b = gap ++ segment ++ r := by
        rw [List.append_assoc, ← hsplit, ← hrest, ← hgap]
      rw [hb]
      exact .frame gap segment direction f r _ hsegment ih

theorem mspV1Checksum_toNat (command : ℕ) (payload : Bytes) :
    (UInt8.ofNat (mspV1Checksum command payload)).toNat = mspV1Checksum command payload := by
  rw [UInt8.toNat_ofNat', Nat.mod_eq_of_lt (mspV1Checksum_lt command payload)]

theorem turn_segment {segment : Bytes} {direction : UInt8} (h : IsSegment segment direction f) :
    turn segment = some (some f, []) := by
  have hlt : f.payload.length < 256 := Nat.lt_succ_of_le h.payload_le
  have hsize : (UInt8.ofNat f.payload.length).toNat = f.payload.length := by
    rw [UInt8.toNat_ofNat', Nat.mod_eq_of_lt hlt]
  have hcommand : (UInt8.ofNat f.command).toNat = f.command := by
    rw [UInt8.toNat_ofNat', Nat.mod_eq_of_lt h.command_lt]
  have hbytes : segment = MSP_V1_MAGIC ++ direction :: UInt8.ofNat f.payload.length ::
      UInt8.ofNat f.command ::
        (f.payload ++ [UInt8.ofNat (mspV1Checksum f.command f.payload)]) := by
    rw [h.bytes, List.append_assoc, List.append_assoc]
    rfl
  rw [turn, hbytes, resync_magic, takeFrame_fields, hsize, hcommand, List.length_append, if_neg,
    List.take_left, List.getD_append_right _ _ _ _ (Nat.le_refl _), Nat.sub_self,
    List.getD_cons_zero, mspV1Checksum_toNat, if_pos rfl, ← h.isError,
    List.drop_of_length_le]
  · rw [List.length_append]
    exact Nat.le_refl _
  · exact Nat.lt_irrefl _

theorem drain_segments {segments : List Bytes}
    (h : List.Forall₂ (fun segment f => ∃ direction, IsSegment segment direction f) segments fs) :
    (scanner.drain segments.flatten).1 = fs := by
  induction h with
  | nil => rfl
  | cons hsegment _ ih =>
    obtain ⟨direction, hsegment⟩ := hsegment
    rw [List.flatten_cons, scanner.drain_of_some (turn_append _ (turn_segment hsegment)),
      List.nil_append, ih]
    rfl

theorem encode_isSegment {command : ℕ} (hcommand : command < 256) {payload bytes : Bytes}
    (h : encodeMspV1Request command payload = some bytes) :
    IsSegment bytes MSP_DIRECTION.REQUEST ⟨command, payload, false⟩ := by
  rw [encodeMspV1Request] at h
  split_ifs at h with hlong
  cases h
  exact ⟨rfl, Nat.le_of_not_lt hlong, hcommand, rfl⟩

/-- The frames do not depend on how the stream was cut, they lie in it as segments, disjoint and in
order, and a stream of encoded requests yields exactly these, as does a stream of any frames. -/
theorem decoder_yields (chunks : List Bytes) :
    (∀ others : List Bytes, others.flatten = chunks.flatten →
      MspV1Decoder.new.pushAll others = MspV1Decoder.new.pushAll chunks) ∧
    Carries chunks.flatten (MspV1Decoder.new.pushAll chunks) ∧
    (∀ (segments : List Bytes) (fs : List MspFrame),
      List.Forall₂ (fun segment f => ∃ direction, IsSegment segment direction f) segments fs →
      chunks.flatten = segments.flatten → MspV1Decoder.new.pushAll chunks = fs) ∧
    ∀ (requests : List (UInt8 × Bytes)) (encoded : List Bytes),
      List.Forall₂ (fun request bytes =>
        encodeMspV1Request request.1.toNat request.2 = some bytes) requests encoded →
      chunks.flatten = encoded.flatten →
      MspV1Decoder.new.pushAll chunks =
        requests.map fun request => ⟨request.1.toNat, request.2, false⟩ := by
  simp only [MspV1Decoder.pushAll_new]
  refine ⟨?_, carries_drain _, ?_, ?_⟩
  · intro others h
    rw [h]
  · intro segments fs hsegments h
    rw [h, drain_segments hsegments]
  · intro requests encoded hencoded h
    rw [h]
    refine drain_segments (List.forall₂_map_right_iff.mpr ?_)
    refine hencoded.flip.imp ?_
    intro bytes request hbytes
    exact ⟨_, encode_isSegment request.1.toNat_lt hbytes⟩

end ArduConfigurator.Msp
