import ArduConfigurator.Lib.SerialNumber
import ArduConfigurator.Mavftp.Wire

/-! # The sequence counter, unrolled

`nextSequence` and `adoptServerSequence` move a 16-bit counter. Every number seen on the wire, and the
counter after each of its moves, is read as the integer nearest to where the counter stood. -/
namespace ArduConfigurator.Mavftp
namespace MavftpService
open Runs SerialNumber
set_option autoImplicit false

/-! ## Reading a run -/

def hearing (s : MavftpService) (e : ServiceEvent) (u : Unrolled) : Unrolled :=
  match e.packet with
  | some (payload, _) => (u.hear 65536 payload.seqNumber).observe 65536 (s.heard e).sequence
  | none => u

def asking (s s' : MavftpService) (u : Unrolled) : Unrolled :=
  ((s'.sent.drop s.sent.length).foldl (fun v r => v.ask 65536 r.payload.seqNumber) u).observe 65536
    s'.sequence

/-- The run of `es` from `s`, read on from `u`. -/
def unrolled : MavftpService → List ServiceEvent → Unrolled → Unrolled
  | _, [], u => u
  | s, e :: es, u =>
      match s.step e with
      | none => u
      | some s' => unrolled s' es (asking s s' (hearing s e u))

/-! ## One event -/

/-- `u` is an unrolling of the counter and the requests of `s`. -/
structure Unrolls (u : Unrolled) (s : MavftpService) : Prop where
  bound : s.sequence < 65536
  counter : u.counter % 65536 = s.sequence
  requests : (u.uses.filterMap Use.request?).map (· % 65536) =
    s.sent.map fun r => (r.payload.seqNumber : ℤ)
  ordered : u.Ordered

theorem unrolls_fresh (vehicle : Option VehicleIdentity) (requestTimeoutMs nowMs : ℕ) :
    Unrolls .zero (fresh vehicle requestTimeoutMs nowMs) :=
  ⟨Nat.zero_lt_succ _, rfl, rfl, Unrolled.ordered_zero⟩

variable {u : Unrolled} {s : MavftpService}

/-- Adopting a number moves the counter to it when it lies less than half the range ahead, and leaves
the counter when it lies behind: either way not below the number, and never back. -/
theorem unrolls_adopt (h : Unrolls u s) (n : ℕ) :
    Unrolls ((u.hear 65536 n).observe 65536 (s.adoptServerSequence n).sequence)
        (s.adoptServerSequence n) ∧
      u.counter ≤ lift 65536 u.counter (s.adoptServerSequence n).sequence := by
  have hb := h.bound
  have hc := h.counter
  have hdist : ((n % 65536 + 65536 - s.sequence) % 65536 : ℕ) = ((n : ℤ) - u.counter) % 65536 := by
    omega
  by_cases hahead : (n % 65536 + 65536 - s.sequence) % 65536 < 0x8000
  · have hseq : (s.adoptServerSequence n).sequence = n % 65536 := by
      simp only [adoptServerSequence, if_pos hahead]
    have hlift : lift 65536 u.counter n = u.counter + ((n : ℤ) - u.counter) % 65536 :=
      lift_of_ahead (by omega)
    have hsame : lift 65536 u.counter (n % 65536) = lift 65536 u.counter n := by
      refine lift_eq (by decide) ?_ ?_ ?_
      · omega
      · omega
      · rw [show (((65536 : ℕ) : ℤ)) = 65536 from rfl, hlift]
        omega
    rw [hseq, hsame]
    refine ⟨⟨by omega, ?_, ?_, ?_⟩, by omega⟩
    · rw [hseq]
      change lift 65536 u.counter (n % 65536) % 65536 = _
      have := lift_emod 65536 u.counter (n % 65536)
      omega
    · rw [sent_adopt, ← h.requests]
      simp [Unrolled.observe, Unrolled.hear, Use.request?]
    · change Unrolled.Ordered ⟨lift 65536 u.counter (n % 65536), _⟩
      rw [hsame]
      exact h.ordered.reply le_rfl (by omega)
  · have hseq : (s.adoptServerSequence n).sequence = s.sequence := by
      simp only [adoptServerSequence, if_neg hahead]
    have hself : lift 65536 u.counter s.sequence = u.counter := by
      refine lift_self (by decide) ?_
      rw [show (((65536 : ℕ) : ℤ)) = 65536 from rfl]
      omega
    have hbehind : lift 65536 u.counter n < u.counter := by
      refine lift_lt_of_behind (by decide) ?_
      rw [show (((65536 : ℕ) : ℤ)) = 65536 from rfl]
      omega
    rw [hseq, hself]
    refine ⟨⟨by omega, ?_, ?_, ?_⟩, le_rfl⟩
    · change lift 65536 u.counter s.sequence % 65536 = _
      rw [hseq, hself, hc]
    · rw [sent_adopt, ← h.requests]
      simp [Unrolled.observe, Unrolled.hear, Use.request?]
    · change Unrolled.Ordered ⟨lift 65536 u.counter s.sequence, _⟩
      rw [hself]
      exact h.ordered.reply hbehind.le le_rfl

theorem unrolls_hearing (h : Unrolls u s) (e : ServiceEvent) :
    Unrolls (hearing s e u) (s.heard e) ∧ u.counter ≤ (hearing s e u).counter := by
  unfold hearing
  split
  · next payload answers hp =>
    rw [heard_of_packet hp]
    exact unrolls_adopt h payload.seqNumber
  · next hp =>
    have hs : s.heard e = s := by rw [heard, hp]
    rw [hs]
    exact ⟨h, le_rfl⟩

variable {s' : MavftpService}

theorem unrolls_sends (h : Unrolls u s) (hs : Sends s s') :
    Unrolls (asking s s' u) s' ∧ u.counter ≤ (asking s s' u).counter := by
  have hb := h.bound
  have hc := h.counter
  have hself : lift 65536 u.counter s.sequence = u.counter := by
    refine lift_self (by decide) ?_
    rw [show (((65536 : ℕ) : ℤ)) = 65536 from rfl]
    omega
  cases hs with
  | nothing hsent hseq =>
    have e : asking s s' u = u := by
      simp only [asking, hsent, List.drop_length, List.foldl_nil, hseq, Unrolled.observe, hself]
    rw [e]
    exact ⟨⟨hseq ▸ hb, hseq ▸ hc, hsent ▸ h.requests, h.ordered⟩, le_rfl⟩
  | one r hr hsent hseq =>
    have hnext : lift 65536 u.counter s'.sequence = u.counter + 1 := by
      rw [hseq, nextSequence]
      refine lift_eq (by decide) (by omega) (by omega) ?_
      rw [show (((65536 : ℕ) : ℤ)) = 65536 from rfl]
      omega
    have e : asking s s' u = ⟨u.counter + 1, u.uses ++ [.request u.counter]⟩ := by
      simp only [asking, hsent, List.drop_left, List.foldl_cons, List.foldl_nil, Unrolled.ask,
        Unrolled.observe, hr, hself, hnext]
    rw [e]
    refine ⟨⟨?_, ?_, ?_, h.ordered.request (lt_add_one _)⟩, (lt_add_one _).le⟩
    · rw [hseq, nextSequence]
      exact Nat.mod_lt _ (by decide)
    · change (u.counter + 1) % 65536 = _
      rw [hseq, nextSequence]
      omega
    · rw [List.filterMap_append, List.map_append, h.requests, hsent, List.map_append]
      simp [Use.request?, hr, hc]

/-! ## Runs -/

theorem unrolls_step {e : ServiceEvent} (h : Unrolls u s) (hs : s.step e = some s') :
    Unrolls (asking s s' (hearing s e u)) s' ∧
      u.counter ≤ (asking s s' (hearing s e u)).counter := by
  obtain ⟨h1, hle1⟩ := unrolls_hearing h e
  obtain ⟨h2, hle2⟩ := unrolls_sends h1 (step_sends hs)
  have e : asking (s.heard e) s' (hearing s e u) = asking s s' (hearing s e u) := by
    simp only [asking, sent_heard]
  rw [e] at h2 hle2
  exact ⟨h2, hle1.trans hle2⟩

variable {t : MavftpService} {es : List ServiceEvent}

theorem unrolls_run (h : Unrolls u s) (hr : run step s es = some t) :
    Unrolls (unrolled s es u) t ∧ u.counter ≤ (unrolled s es u).counter := by
  induction es generalizing s u with
  | nil =>
    cases hr
    exact ⟨h, le_rfl⟩
  | cons e es ih =>
    obtain ⟨s', hs, hr⟩ := run_cons_eq_some.mp hr
    obtain ⟨h', hle⟩ := unrolls_step h hs
    obtain ⟨h'', hle'⟩ := ih h' hr
    simp only [unrolled, hs]
    exact ⟨h'', hle.trans hle'⟩

theorem unrolled_append {fs : List ServiceEvent} (hr : run step s es = some t) :
    unrolled s (es ++ fs) u = unrolled t fs (unrolled s es u) := by
  induction es generalizing s u with
  | nil =>
    cases hr
    rfl
  | cons e es ih =>
    obtain ⟨s', hs, hr⟩ := run_cons_eq_some.mp hr
    simp only [List.cons_append, unrolled, hs]
    exact ih hr

theorem replies_step (s s' : MavftpService) (e : ServiceEvent) (u : Unrolled) :
    ((asking s s' (hearing s e u)).uses.filterMap Use.reply?).map (· % 65536) =
      (u.uses.filterMap Use.reply?).map (· % 65536) ++
        (e.packet.toList.map fun p => (p.1.seqNumber : ℤ) % 65536) := by
  have hask : ∀ (rs : List SentRequest) (v : Unrolled),
      (rs.foldl (fun v r => v.ask 65536 r.payload.seqNumber) v).uses.filterMap Use.reply? =
        v.uses.filterMap Use.reply? := by
    intro rs
    induction rs with
    | nil => exact fun v => rfl
    | cons r rs ih =>
      intro v
      rw [List.foldl_cons, ih]
      simp [Unrolled.ask, Use.reply?]
  change ((List.foldl _ (hearing s e u) _).uses.filterMap Use.reply?).map _ = _
  rw [hask]
  unfold hearing
  cases hp : e.packet with
  | none => simp
  | some p =>
    have h := lift_emod 65536 u.counter p.1.seqNumber
    simp [Unrolled.observe, Unrolled.hear, Use.reply?, List.filterMap_append] at h ⊢
    exact h

theorem replies_run (hr : run step s es = some t) :
    ((unrolled s es u).uses.filterMap Use.reply?).map (· % 65536) =
      (u.uses.filterMap Use.reply?).map (· % 65536) ++
        ((es.filterMap ServiceEvent.packet).map fun p => (p.1.seqNumber : ℤ) % 65536) := by
  induction es generalizing s u with
  | nil => simp [unrolled]
  | cons e es ih =>
    obtain ⟨s', hs, hr⟩ := run_cons_eq_some.mp hr
    simp only [unrolled, hs]
    rw [ih hr, replies_step, List.append_assoc, ← List.map_append]
    cases hp : e.packet <;> simp [hp]

/-- The unrolled counter is the counter modulo 65536 and never goes back; the numbers of the requests
and of the replies unroll, in the order in which they went over the wire, so that each request is
ahead of every earlier request and not behind any earlier reply. -/
theorem sequence_never_back {vehicle : Option VehicleIdentity} {requestTimeoutMs nowMs : ℕ}
    {es : List ServiceEvent} {s : MavftpService}
    (h : run step (fresh vehicle requestTimeoutMs nowMs) es = some s) :
    (unrolled (fresh vehicle requestTimeoutMs nowMs) es .zero).counter % 65536 = s.sequence ∧
    (∀ pre post, es = pre ++ post →
      (unrolled (fresh vehicle requestTimeoutMs nowMs) pre .zero).counter ≤
        (unrolled (fresh vehicle requestTimeoutMs nowMs) es .zero).counter) ∧
    ((unrolled (fresh vehicle requestTimeoutMs nowMs) es .zero).uses.filterMap Use.request?).map
      (· % 65536) = (s.sent.map fun r => (r.payload.seqNumber : ℤ)) ∧
    ((unrolled (fresh vehicle requestTimeoutMs nowMs) es .zero).uses.filterMap Use.reply?).map
      (· % 65536) =
        ((es.filterMap ServiceEvent.packet).map fun p => (p.1.seqNumber : ℤ) % 65536) ∧
    (unrolled (fresh vehicle requestTimeoutMs nowMs) es .zero).uses.Pairwise
      fun x y => ∀ n, y = .request n → x.Behind n := by
  obtain ⟨hu, -⟩ := unrolls_run (unrolls_fresh vehicle requestTimeoutMs nowMs) h
  refine ⟨hu.counter, fun pre post he => ?_, hu.requests, ?_, hu.ordered.uses⟩
  · subst he
    obtain ⟨t, hpre, hpost⟩ := run_append_eq_some.mp h
    rw [unrolled_append hpre]
    exact (unrolls_run (unrolls_run (unrolls_fresh _ _ _) hpre).1 hpost).2
  · rw [replies_run h]
    rfl

def wrappingEvents : List ServiceEvent :=
  [30000, 60000].map (fun n => .deliver (encodeMavftpPayload ⟨n, 0, MAV_FTP_OPCODE.ACK, 0, 0, 0, 0,
      []⟩) 0) ++
    [.request resetRequest none] ++
    [20000, 50000, 65535].map (fun n => .deliver (encodeMavftpPayload ⟨n, 0, MAV_FTP_OPCODE.ACK, 0, 0,
      0, 0, []⟩) 0) ++
    [.request resetRequest none, .request resetRequest none]

set_option maxRecDepth 4000 in
theorem sequence_never_back_wrapping :
    ∃ s, run step (fresh (some ⟨1, 1⟩) 3000 0) wrappingEvents = some s ∧ s.sequence = 1 ∧
      ((unrolled (fresh (some ⟨1, 1⟩) 3000 0) wrappingEvents .zero).uses.filterMap
        Use.request?).map (· % 65536) = [60000, 65535, 0] ∧
      (unrolled (fresh (some ⟨1, 1⟩) 3000 0) wrappingEvents .zero).counter = 131073 := by
  refine ⟨_, rfl, rfl, ?_, by decide⟩
  exact (@sequence_never_back (some ⟨1, 1⟩) 3000 0 wrappingEvents _ rfl).2.2.1

end MavftpService
end ArduConfigurator.Mavftp
