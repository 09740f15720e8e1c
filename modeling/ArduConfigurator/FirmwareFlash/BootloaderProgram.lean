import ArduConfigurator.FirmwareFlash.BootloaderReplies
import ArduConfigurator.FirmwareFlash.IntelHexSegments
import Mathlib.Data.List.Chain

/-! # Every chunk written once

The bootloader writes each frame that it accepts at its current address and then advances. A frame
carries no address, so the image arrives whole only if each chunk is accepted once: the client has
to go on after the frames that were accepted, and to send again only the ones that were not. -/
namespace ArduConfigurator.FirmwareFlash.BootloaderClient
open Effects
set_option autoImplicit false

/-! ## What the bootloader writes -/

def payloadOf (command : ℕ) : List ℕ → Option (List ℕ)
  | head :: length :: rest =>
    if head = command ∧ rest.length = length + 1 ∧ rest.getLast? = some EOC then some rest.dropLast
    else none
  | _ => none

def LinkEvent.accepted? (command : ℕ) : LinkEvent → Option (List ℕ)
  | .wrote frame true => payloadOf command frame
  | _ => none

def acceptedChunks (command : ℕ) (log : List LinkEvent) : List (List ℕ) :=
  log.filterMap (LinkEvent.accepted? command)

def placed (address : ℕ) : List (List ℕ) → List (ℕ × List ℕ)
  | [] => []
  | chunk :: chunks => (address, chunk) :: placed (address + chunk.length) chunks

def flashed (base : ℕ → ℕ) (writes : List (ℕ × List ℕ)) : ℕ → ℕ :=
  writes.foldl (fun contents w x => ((IntelHexSegment.mk w.1 w.2).byteAt x).getD (contents x)) base

/-- Each chunk of the image was written once and at its own offset, and the flash holds the image
and is otherwise as it was. -/
structure ProgramsExactly (image : List ℕ) (writes : List (ℕ × List ℕ)) : Prop where
  once : writes = (List.range ((image.length + PROG_MULTI_MAX - 1) / PROG_MULTI_MAX)).map fun k =>
    (k * PROG_MULTI_MAX, (image.drop (k * PROG_MULTI_MAX)).take PROG_MULTI_MAX)
  holds : ∀ base x, flashed base writes x = (image[x]?).getD (base x)

def LinkEvent.isTook : LinkEvent → Bool
  | .took _ _ => true
  | _ => false

/-- What follows a frame of the command is its acknowledgement if and only if the bootloader
accepted it. -/
def Answered (command : ℕ) : LinkEvent → LinkEvent → Prop
  | .wrote frame accepted, next =>
    (payloadOf command frame).isSome = true → (accepted = true ↔ next.isTook = true)
  | _, _ => True

instance (command : ℕ) : DecidableRel (Answered command)
  | .wrote frame accepted, next => inferInstanceAs (Decidable ((payloadOf command frame).isSome = true →
      (accepted = true ↔ next.isTook = true)))
  | .begins _ _, _ => isTrue trivial
  | .took _ _, _ => isTrue trivial

def RightAnswers (command : ℕ) (log : List LinkEvent) : Prop := log.IsChain (Answered command)

/-! ## Pieces of an image -/

theorem flatten_pieces (size : ℕ) (image : List ℕ) (m : ℕ) :
    ((List.range m).map fun k => (image.drop (k * size)).take size).flatten =
      image.take (m * size) := by
  induction m with
  | zero => simp
  | succ m ih =>
    rw [List.range_succ, List.map_append, List.flatten_append, ih, Nat.add_mul, Nat.one_mul,
      List.take_add]
    simp

variable {size : ℕ}

theorem flatten_piecesOf (hsize : 0 < size) (image : List ℕ) :
    (piecesOf size image).flatten = image := by
  rw [piecesOf, flatten_pieces, List.take_of_length_le]
  have hlt := Nat.lt_div_mul_add (a := image.length + size - 1) hsize
  omega

theorem placed_pieces (size : ℕ) (image : List ℕ) (m j : ℕ)
    (hfull : ∀ k, k + 1 < j + m → (k + 1) * size ≤ image.length) :
    placed (j * size) ((List.range' j m).map fun k => (image.drop (k * size)).take size) =
      (List.range' j m).map fun k => (k * size, (image.drop (k * size)).take size) := by
  induction m generalizing j with
  | zero => rfl
  | succ m ih =>
    rw [List.range'_succ, List.map_cons, List.map_cons, placed]
    cases m with
    | zero => rfl
    | succ m =>
      have hlen : ((image.drop (j * size)).take size).length = size := by
        have hle := hfull j (by omega)
        rw [Nat.add_mul, Nat.one_mul] at hle
        rw [List.length_take, List.length_drop]
        omega
      have hnext := ih (j + 1) fun k hk => hfull k (by omega)
      rw [Nat.add_mul, Nat.one_mul] at hnext
      rw [hlen, hnext]

theorem placed_piecesOf (hsize : 0 < size) (image : List ℕ) :
    placed 0 (piecesOf size image) = (List.range ((image.length + size - 1) / size)).map fun k =>
      (k * size, (image.drop (k * size)).take size) := by
  have hplaced := placed_pieces size image ((image.length + size - 1) / size) 0
    fun k hk => by
      rw [Nat.zero_add, Nat.lt_div_iff_mul_lt hsize] at hk
      have hcomm : size * (k + 1) = (k + 1) * size := Nat.mul_comm _ _
      omega
  rwa [Nat.zero_mul, ← List.range_eq_range'] at hplaced

theorem flashed_placed (chunks : List (List ℕ)) (address : ℕ) (base : ℕ → ℕ) (x : ℕ) :
    flashed base (placed address chunks) x =
      ((IntelHexSegment.mk address chunks.flatten).byteAt x).getD (base x) := by
  induction chunks generalizing address base with
  | nil => simp [placed, flashed, IntelHexSegment.byteAt]
  | cons chunk chunks ih =>
    have hstep : flashed base (placed address (chunk :: chunks)) x = flashed (fun y =>
        ((IntelHexSegment.mk address chunk).byteAt y).getD (base y))
          (placed (address + chunk.length) chunks) x := rfl
    rw [hstep, ih, List.flatten_cons]
    simp only [IntelHexSegment.byteAt]
    by_cases hle : address ≤ x
    swap
    · rw [if_neg hle, if_neg (by omega), if_neg hle]
      rfl
    rw [if_pos hle, if_pos hle]
    by_cases hlt : x - address < chunk.length
    · rw [if_neg (by omega), List.getElem?_append_left hlt, List.getElem?_eq_getElem hlt]
      rfl
    · rw [if_pos (by omega), List.getElem?_append_right (by omega),
        List.getElem?_eq_none (l := chunk) (by omega), Option.getD_none, Nat.sub_add_eq]

variable {image : List ℕ}

theorem programsExactly_of {chunks : List (List ℕ)} (h : chunks = piecesOf PROG_MULTI_MAX image) :
    ProgramsExactly image (placed 0 chunks) := by
  have hsize : 0 < PROG_MULTI_MAX := by decide
  refine ⟨by rw [h, placed_piecesOf hsize], fun base x => ?_⟩
  rw [flashed_placed, h, flatten_piecesOf hsize, IntelHexSegment.byteAt, if_pos (Nat.zero_le x),
    Nat.sub_zero]

/-! ## One chunk -/

variable {δ : Type} {io : BootloaderSerial δ} {command : ℕ} {finished : List (List ℕ)}
  {chunk : List ℕ}

theorem payloadOf_programFrame (command : ℕ) (hlen : chunk.length < 256) :
    payloadOf command (programFrame command chunk) = some chunk := by
  rw [programFrame, payloadOf, if_pos, List.dropLast_concat]
  exact ⟨rfl, by rw [Nat.mod_eq_of_lt hlen]; simp, by simp⟩

def Taken (command : ℕ) (finished : List (List ℕ)) (log : List LinkEvent) : Prop :=
  RightAnswers command log → acceptedChunks command log = finished

variable {log : List LinkEvent}

theorem Taken.snoc {e : LinkEvent} (h : Taken command finished log)
    (he : e.accepted? command = none) : Taken command finished (log ++ [e]) := by
  intro hright
  rw [acceptedChunks, List.filterMap_append, List.filterMap_cons_none he, List.filterMap_nil,
    List.append_nil]
  have hbefore : RightAnswers command log := hright.left_of_append
  exact h hbefore

def Sent (command : ℕ) (finished : List (List ℕ)) (frame : List ℕ) (log : List LinkEvent) : Prop :=
  ∃ before accepted, log = before ++ [.wrote frame accepted] ∧ Taken command finished before

theorem triple_begins (frames : List (List ℕ)) :
    Triple (fun s => Taken command finished s.log) (begins frames : Client δ Unit)
      (fun _ s => Taken command finished s.log) fun _ => True :=
  fun _ hs => hs.snoc rfl

theorem triple_write_sent (frame : List ℕ) :
    Triple (fun s => Taken command finished s.log) (write io frame)
      (fun _ s => Sent command finished frame s.log) fun _ => True := by
  intro s hs
  rw [write]
  simp only
  cases (io.write frame s.line).result with
  | error thrown => exact trivial
  | ok value => exact ⟨s.log, _, rfl, hs⟩

theorem triple_send_sent (frame : List ℕ) :
    Triple (fun s => Taken command finished s.log) (send io [frame])
      (fun _ s => Sent command finished frame s.log) fun _ => True :=
  (triple_begins _).bind fun _ => (triple_write_sent frame).bind fun _ => triple_ret fun _ => id

variable {frame : List ℕ}

theorem Sent.taken (h : Sent command finished frame log) (hframe : payloadOf command frame = none) :
    Taken command finished log := by
  obtain ⟨before, accepted, rfl, htaken⟩ := h
  refine htaken.snoc ?_
  cases accepted
  · rfl
  · exact hframe

theorem triple_flush_log (L : List LinkEvent → Prop) :
    Triple (fun s => L s.log) (flushInput io) (fun _ s => L s.log) fun s => L s.log := by
  intro s hs
  rw [flushInput]
  cases io.flushInput with
  | none => exact hs
  | some discard =>
    simp only
    cases discard s.line with
    | mk result line => cases result <;> exact hs

theorem triple_read_log (L : List LinkEvent → Prop) (n timeoutMs : ℕ) :
    Triple (fun s => L s.log) (read io n timeoutMs) (fun _ s => L s.log) fun s => L s.log := by
  intro s hs
  rw [read]
  simp only
  split_ifs
  · exact hs
  · exact hs

theorem triple_getSync_log {L M : List LinkEvent → Prop} (timeoutMs : ℕ)
    (h : ∀ log reply since, L log → M (log ++ [.took reply since])) :
    Triple (fun s => L s.log) (getSync io timeoutMs) (fun _ s => M s.log) fun s => L s.log := by
  refine (triple_read_log L 1 timeoutMs).bind fun head => ?_
  split_ifs
  · exact triple_throw fun _ => id
  refine (triple_read_log L 1 timeoutMs).bind fun status => ?_
  split_ifs
  · exact triple_throw fun _ => id
  · exact triple_throw fun _ => id
  · exact triple_throw fun _ => id
  · exact triple_throw fun _ => id
  · exact fun s hs => h s.log _ s.since hs

theorem triple_drain_log (L : List LinkEvent → Prop) (silenceMs maxMs : ℕ) :
    Triple (fun s => L s.log) (drainInput io silenceMs maxMs) (fun _ s => L s.log)
      fun s => L s.log := by
  refine triple_now.bind fun time => ?_
  generalize time + maxMs = deadline
  induction io.turns with
  | zero => exact triple_running fun _ => id
  | succ turns ih =>
    rw [drainLoop]
    refine triple_now.bind fun time => ?_
    split_ifs
    swap
    · exact triple_ret fun _ => id
    have hread : Triple (fun s => L s.log) (attempt (read io 1 silenceMs)) (fun _ s => L s.log)
        fun s => L s.log :=
      Triple.catchError ((triple_read_log L 1 silenceMs).bind fun _ => triple_ret fun _ => id)
        (fun _ => triple_ret fun _ => id) fun _ => id
    refine (triple_flush_log L).bind fun _ => hread.bind fun byte => ?_
    cases byte with
    | none => exact triple_ret fun _ => id
    | some byte => exact ih

theorem Sent.took {reply : List Inbound} {since : ℕ}
    (h : Sent command finished (programFrame command chunk) log) (hlen : chunk.length < 256) :
    Taken command (finished ++ [chunk]) (log ++ [.took reply since]) := by
  obtain ⟨before, accepted, rfl, htaken⟩ := h
  intro hright
  rw [List.append_assoc, List.singleton_append] at hright
  obtain ⟨hbefore, hpair, -⟩ := List.isChain_append.mp hright
  have hpayload := payloadOf_programFrame command hlen
  have haccepted : accepted = true :=
    ((List.isChain_pair.mp hpair) (by rw [hpayload]; rfl)).mpr rfl
  subst haccepted
  rw [acceptedChunks, List.append_assoc, List.filterMap_append]
  rw [show List.filterMap (LinkEvent.accepted? command) before = finished from htaken hbefore]
  simp [LinkEvent.accepted?, hpayload]

theorem Sent.resent {accepted : Bool} (h : Sent command finished (programFrame command chunk) log)
    (hlen : chunk.length < 256) (hframe : payloadOf command frame = none) :
    Taken command finished (log ++ [.wrote frame accepted]) := by
  obtain ⟨before, taken, rfl, htaken⟩ := h
  intro hright
  have hright' := hright
  rw [List.append_assoc, List.singleton_append] at hright'
  obtain ⟨hbefore, hpair, -⟩ := List.isChain_append.mp hright'
  have hpayload := payloadOf_programFrame command hlen
  have hnot : taken = false := by
    have hiff := (List.isChain_pair.mp hpair) (by rw [hpayload]; rfl)
    simpa [LinkEvent.isTook] using hiff
  subst hnot
  rw [List.append_assoc, acceptedChunks, List.filterMap_append]
  rw [show List.filterMap (LinkEvent.accepted? command) before = finished from htaken hbefore]
  cases accepted <;> simp [LinkEvent.accepted?, hframe]

theorem payloadOf_filler : payloadOf command CHUNK_RESYNC_FILLER = none := by
  have hfiller : CHUNK_RESYNC_FILLER = 0 :: 0 :: List.replicate 254 0 := rfl
  rw [hfiller, payloadOf, if_neg]
  rintro ⟨-, hlen, -⟩
  rw [List.length_replicate] at hlen
  cases hlen

theorem payloadOf_getSync : payloadOf command [GET_SYNC, EOC] = none := by
  simp [payloadOf]

theorem triple_resync_write (hlen : chunk.length < 256) :
    Triple (fun s => Sent command finished (programFrame command chunk) s.log)
      (write io CHUNK_RESYNC_FILLER) (fun _ s => Taken command finished s.log) fun _ => True := by
  intro s hs
  rw [write]
  simp only
  cases (io.write CHUNK_RESYNC_FILLER s.line).result with
  | error thrown => exact trivial
  | ok value => exact hs.resent hlen payloadOf_filler

theorem triple_sync_taken (timeoutMs : ℕ) :
    Triple (fun s => Taken command finished s.log) (sync io timeoutMs)
      (fun _ s => Taken command finished s.log) fun _ => True := by
  refine ((triple_flush_log (Taken command finished)).conseq (fun _ => id) (fun _ _ => id)
    fun _ _ => trivial).bind fun _ => (triple_send_sent [GET_SYNC, EOC]).bind fun _ => ?_
  have hsync : Triple _ (getSync io timeoutMs) _ _ :=
    triple_getSync_log (L := Taken command finished) (M := Taken command finished) timeoutMs
      fun log reply since h => h.snoc rfl
  exact hsync.conseq (fun s hs => hs.taken payloadOf_getSync) (fun _ _ => id) fun _ _ => trivial

theorem triple_ack_taken (hlen : chunk.length < 256) (timeoutMs : ℕ) :
    Triple (fun s => Sent command finished (programFrame command chunk) s.log)
      (getSync io timeoutMs) (fun _ s => Taken command (finished ++ [chunk]) s.log)
      fun s => Sent command finished (programFrame command chunk) s.log :=
  triple_getSync_log timeoutMs fun _ _ _ h => h.took hlen

theorem triple_programChunk_taken (hlen : chunk.length < 256) :
    Triple (fun s => Taken command finished s.log) (programChunk io command chunk)
      (fun _ s => Taken command (finished ++ [chunk]) s.log) fun _ => True := by
  refine ((triple_flush_log (Taken command finished)).conseq (fun _ => id) (fun _ _ => id)
    fun _ _ => trivial).bind fun _ => (triple_send_sent _).bind fun _ => ?_
  refine (triple_ack_taken hlen _).catchError (fun thrown => ?_) fun _ _ => trivial
  split_ifs
  swap
  · exact triple_throw fun _ _ => trivial
  refine (triple_resync_write hlen).bind fun _ => ?_
  refine ((triple_drain_log (Taken command finished) _ _).conseq (fun _ => id) (fun _ _ => id)
    fun _ _ => trivial).bind fun _ => (triple_sync_taken _).bind fun _ => ?_
  refine (triple_send_sent _).bind fun _ => (triple_ack_taken hlen _).catchError
    (fun _ => triple_throw fun _ _ => trivial) fun _ _ => trivial

/-! ## A whole image -/

inductive FlashTarget where
  | internal | external

def FlashTarget.opcode : FlashTarget → ℕ
  | .internal => PROG_MULTI
  | .external => EXTF_PROG_MULTI

def FlashTarget.program (io : BootloaderSerial δ) (target : FlashTarget) (image : List ℕ) :
    Client δ Unit :=
  match target with
  | .internal => BootloaderClient.program io image
  | .external => programExtflash io image

theorem length_of_mem_piecesOf {piece : List ℕ} (h : piece ∈ piecesOf size image) :
    piece.length ≤ size := by
  obtain ⟨k, -, rfl⟩ := List.mem_map.mp h
  exact List.length_take_le _ _

theorem triple_pieces (image : List ℕ) :
    Triple (fun s => Taken command [] s.log)
      (Prog.forEach (programChunk io command) (piecesOf PROG_MULTI_MAX image))
      (fun _ s => Taken command (piecesOf PROG_MULTI_MAX image) s.log) fun _ => True := by
  refine triple_forEach (I := fun finished (s : Link δ) => Taken command finished s.log) _ []
    fun before piece hprefix => ?_
  have hmem : piece ∈ piecesOf PROG_MULTI_MAX image := hprefix.subset (by simp)
  exact triple_programChunk_taken (lt_of_le_of_lt (length_of_mem_piecesOf hmem) (by decide))

instance (command : ℕ) : DecidablePred (RightAnswers command) := fun log =>
  inferInstanceAs (Decidable (log.IsChain (Answered command)))

end ArduConfigurator.FirmwareFlash.BootloaderClient
