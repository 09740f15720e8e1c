import ArduConfigurator.Mavftp.BurstMoves

/-! # The buffer of a burst

`files` gives the remote file each burst reads, by the identity of its operation. As long as the
packets an active burst takes in carry bytes of its file, everything below its contiguous frontier
is a prefix of that file, in the buffer as well as in what its promise settles with. -/
namespace ArduConfigurator.Mavftp
open Runs
set_option autoImplicit false

/-! ## One operation -/

namespace BurstOperation

/-- The cursors are in order and everything below the contiguous one is right. -/
structure Sound (file : Bytes) (op : BurstOperation) : Prop where
  length : op.buffer.length = op.declaredSize
  received_le : op.received ≤ op.highWater
  highWater_le : op.highWater ≤ op.declaredSize
  agrees : AgreesBelow file op.buffer op.received

variable {file : Bytes} {op : BurstOperation}

theorem Sound.congr {op' : BurstOperation} (h : op.Sound file) (hd : op.SameData op') :
    op'.Sound file where
  length := by rw [hd.buffer, hd.declaredSize, h.length]
  received_le := by rw [hd.received, hd.highWater]; exact h.received_le
  highWater_le := by rw [hd.highWater, hd.declaredSize]; exact h.highWater_le
  agrees := by rw [hd.buffer, hd.received]; exact h.agrees

theorem writable_le_length (op : BurstOperation) (p : MavftpPayload) :
    op.writable p ≤ p.data.length := by
  unfold writable
  split
  · exact Nat.min_le_left _ _
  · exact Nat.zero_le _

theorem take_writable_length (op : BurstOperation) (p : MavftpPayload) :
    (p.data.take (op.writable p)).length = op.writable p := by
  rw [List.length_take, Nat.min_eq_left (op.writable_le_length p)]

variable {p : MavftpPayload}

theorem writable_fits (h : p.offset < op.declaredSize ∧ 0 < p.data.length) :
    p.offset + op.writable p ≤ op.declaredSize := by
  have := Nat.min_le_right p.data.length (op.declaredSize - p.offset)
  rw [writable, if_pos h]
  omega

theorem writable_place (op : BurstOperation) (p : MavftpPayload) :
    (op.place p).writable p = op.writable p := by
  unfold place
  split <;> rfl

@[simp] theorem place_id (op : BurstOperation) (p : MavftpPayload) : (op.place p).id = op.id := by
  unfold place
  split <;> rfl

@[simp] theorem place_declaredSize (op : BurstOperation) (p : MavftpPayload) :
    (op.place p).declaredSize = op.declaredSize := by
  unfold place
  split <;> rfl

@[simp] theorem place_received (op : BurstOperation) (p : MavftpPayload) :
    (op.place p).received = op.received := by
  unfold place
  split <;> rfl

@[simp] theorem advance_id (op : BurstOperation) (p : MavftpPayload) :
    (op.advance p).id = op.id := by
  unfold advance
  split <;> rfl

@[simp] theorem advance_declaredSize (op : BurstOperation) (p : MavftpPayload) :
    (op.advance p).declaredSize = op.declaredSize := by
  unfold advance
  split <;> rfl

@[simp] theorem accept_id (op : BurstOperation) (p : MavftpPayload) :
    (op.accept p).id = op.id := by
  rw [accept, advance_id, place_id]

@[simp] theorem accept_declaredSize (op : BurstOperation) (p : MavftpPayload) :
    (op.accept p).declaredSize = op.declaredSize := by
  rw [accept, advance_declaredSize, place_declaredSize]

theorem Sound.place (h : op.Sound file) (hp : Genuine file p.offset (p.data.take (op.writable p))) :
    (op.place p).Sound file ∧
      (p.offset ≤ op.received → p.offset + op.writable p ≤ (op.place p).highWater ∨
        op.writable p = 0) ∧
      (p.offset ≤ op.received →
        AgreesBelow file (op.place p).buffer (max op.received (p.offset + op.writable p))) := by
  unfold BurstOperation.place
  split
  · next hin =>
    have hfit : p.offset + (p.data.take (op.writable p)).length ≤ op.buffer.length := by
      rw [take_writable_length, h.length]
      exact writable_fits hin
    refine ⟨⟨?_, ?_, ?_, ?_⟩, fun _ => .inl (le_max_right _ _), fun hoff => ?_⟩
    · exact (splice_length hfit).trans h.length
    · exact le_trans h.received_le (le_max_left _ _)
    · exact max_le h.highWater_le (writable_fits hin)
    · exact h.agrees.write hp hfit
    · have := h.agrees.extend hp hfit hoff
      rwa [take_writable_length] at this
  · next hout =>
    have hzero : op.writable p = 0 := if_neg hout
    refine ⟨h, fun _ => .inr hzero, fun hoff => ?_⟩
    rw [hzero, Nat.add_zero, Nat.max_eq_left hoff]
    exact h.agrees

theorem Sound.accept (h : op.Sound file)
    (hp : Genuine file p.offset (p.data.take (op.writable p))) : (op.accept p).Sound file := by
  obtain ⟨hs, hhigh, hagree⟩ := h.place hp
  unfold BurstOperation.accept BurstOperation.advance
  split
  · next hoff =>
    rw [place_received, place_declaredSize] at hoff
    refine ⟨hs.length, ?_, hs.highWater_le, ?_⟩
    · dsimp only
      rw [place_received, writable_place]
      have hreceived := hs.received_le
      rw [place_received] at hreceived
      obtain hw | hw := hhigh hoff.1
      · exact max_le hreceived hw
      · rw [hw, Nat.add_zero]
        exact max_le hreceived (le_trans hoff.1 hreceived)
    · dsimp only
      rw [place_received, writable_place]
      exact hagree hoff.1
  · exact hs

theorem Sound.result_eq (h : op.Sound file) (hsize : op.declaredSize = file.length)
    (hdone : op.declaredSize ≤ op.received) :
    op.result = file := by
  have hreceived : op.received = op.buffer.length := by
    have := h.received_le; have := h.highWater_le; have := h.length
    omega
  have hagree := h.agrees
  rw [hreceived] at hagree
  rw [result, if_pos hdone]
  exact hagree.eq (h.length.trans hsize)

theorem Sound.result_prefix (h : op.Sound file) :
    op.result = file.take op.received := by
  have htake := h.agrees.take_eq
  rw [result]
  split
  · next hdone =>
    have : op.buffer.length ≤ op.received := by have := h.length; omega
    rwa [List.take_of_length_le this] at htake
  · exact htake

end BurstOperation

/-! ## Every operation of a run -/

namespace MavftpService

def CleanData (files : ℕ → Bytes) (s : MavftpService) (e : ServiceEvent) : Prop :=
  ∀ hit ∈ s.burstPacket e, hit.2.opcode ≠ MAV_FTP_OPCODE.NAK →
    Genuine (files hit.1.id) hit.2.offset (hit.2.data.take (hit.1.writable hit.2))

variable {s : MavftpService} {e : ServiceEvent}

theorem StartsWith.sound {op : BurstOperation} (h : s.StartsWith e op) (file : Bytes) :
    op.Sound file where
  length := by rw [h.buffer, List.length_replicate]
  received_le := by rw [h.received]; exact Nat.zero_le _
  highWater_le := by rw [h.highWater]; exact Nat.zero_le _
  agrees := by rw [h.received]; exact agreesBelow_zero _ _

/-- Every burst so far is sound, and the promises of the finished ones settled accordingly. -/
structure Assembled (files : ℕ → Bytes) (s : MavftpService) : Prop where
  sound : EveryBurst (fun op => op.Sound (files op.id)) s
  settles : Settles s

theorem assembled_fresh (files : ℕ → Bytes) (vehicle : Option VehicleIdentity)
    (requestTimeoutMs nowMs : ℕ) : Assembled files (fresh vehicle requestTimeoutMs nowMs) :=
  ⟨everyBurst_fresh _ _ _ _, settles_fresh _ _ _⟩

variable {files : ℕ → Bytes}

theorem assembled_step {s' : MavftpService} (hi : Assembled files s) (hc : CleanData files s e)
    (h : s.step e = some s') :
    Assembled files s' := by
  refine ⟨everyBurst_step ?_ ?_ ?_ hi.sound h, settles_step hi.settles h⟩
  · intro op op' hs hd
    rw [hd.id]
    exact hs.congr hd
  · exact fun op hs => hs.sound _
  · intro op p hp hn hs
    rw [op.accept_id]
    exact hs.accept (hc _ hp hn)

theorem assembled_run {vehicle : Option VehicleIdentity} {requestTimeoutMs nowMs : ℕ}
    {es : List ServiceEvent} (h : run step (fresh vehicle requestTimeoutMs nowMs) es = some s)
    (hc : Along step (CleanData files) (fresh vehicle requestTimeoutMs nowMs) es) :
    Assembled files s :=
  run_invariant_along (fun _ _ _ hi hc hs => assembled_step hi hc hs)
    (assembled_fresh files vehicle requestTimeoutMs nowMs) hc h

end MavftpService
end ArduConfigurator.Mavftp
