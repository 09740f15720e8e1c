import ArduConfigurator.Mavftp.BurstRead

/-! # Which packet settles which request

`resolveWaiters` compares sequence numbers and nothing else. A waiter is settled by the reply to its
own request as long as no other packet outside an active burst carries the number it expects. -/
namespace ArduConfigurator.Mavftp
open Runs
set_option autoImplicit false

def MavftpWaiter.Matches (sent : List SentRequest) (waiter : MavftpWaiter) : Prop :=
  ∃ request, sent[waiter.request]? = some request ∧
    waiter.seqNumber = (request.payload.seqNumber + 1) % 65536

theorem getElem?_of_earlier {α : Type*} {xs ys : List α} (h : xs <+: ys) {i : ℕ} {x : α}
    (hx : xs[i]? = some x) : ys[i]? = some x := by
  obtain ⟨hi, rfl⟩ := List.getElem?_eq_some_iff.mp hx
  rw [h.getElem hi, List.getElem?_eq_getElem]

theorem MavftpWaiter.Matches.mono {sent sent' : List SentRequest} {waiter : MavftpWaiter}
    (h : waiter.Matches sent) (hs : sent <+: sent') : waiter.Matches sent' := by
  obtain ⟨request, hr, hseq⟩ := h
  exact ⟨request, getElem?_of_earlier hs hr, hseq⟩

namespace MavftpService

/-! ## What one event can do to the waiters -/

structure SameWaiters (s s' : MavftpService) : Prop where
  waiters : s'.waiters = s.waiters
  settled : s'.settled = s.settled
  sent : s.sent <+: s'.sent

theorem SameWaiters.refl (s : MavftpService) : SameWaiters s s := ⟨rfl, rfl, List.prefix_refl _⟩

variable {s : MavftpService}

theorem SameWaiters.trans {t u : MavftpService} (h : SameWaiters s t) (h' : SameWaiters t u) :
    SameWaiters s u :=
  ⟨h'.waiters.trans h.waiters, h'.settled.trans h.settled, h.sent.trans h'.sent⟩

theorem sameWaiters_adopt (s : MavftpService) (n : ℕ) :
    SameWaiters s (s.adoptServerSequence n) := by
  obtain ⟨x, hx⟩ := s.adopt_eq n
  rw [hx]
  exact ⟨rfl, rfl, List.prefix_refl _⟩

theorem sameWaiters_failBurst (s : MavftpService) (error : MavftpError) :
    SameWaiters s (s.failBurst error) := by
  unfold failBurst
  split
  · exact .refl s
  · exact ⟨rfl, rfl, List.prefix_refl _⟩

theorem sameWaiters_sendBurst (s : MavftpService) (op : BurstOperation) (offset : ℕ) :
    SameWaiters s (s.sendBurstReadRequest op offset) := by
  unfold sendBurstReadRequest
  split
  · exact sameWaiters_failBurst s _
  · exact ⟨rfl, rfl, List.prefix_append _ _⟩

theorem sameWaiters_rerequest (s : MavftpService) (op : BurstOperation) (offset : ℕ) :
    SameWaiters s ({ s with activeBurst := some op }.sendBurstReadRequest op offset) := by
  have h := sameWaiters_sendBurst { s with activeBurst := some op } op offset
  exact ⟨h.waiters, h.settled, h.sent⟩

theorem sameWaiters_handleBurstPacket (s : MavftpService) (payload : MavftpPayload) :
    SameWaiters s (s.handleBurstPacket payload) := by
  unfold handleBurstPacket
  split
  · exact .refl s
  · next op ha =>
    split
    · exact .refl s
    · split
      · unfold handleBurstNak
        split
        · split
          · exact ⟨rfl, rfl, List.prefix_refl _⟩
          · split
            · exact sameWaiters_rerequest s _ _
            · exact sameWaiters_failBurst s _
        · exact sameWaiters_failBurst s _
      · unfold handleBurstData
        dsimp only
        split
        all_goals
          split
          · exact ⟨rfl, rfl, List.prefix_refl _⟩
          · split
            · exact sameWaiters_rerequest s _ _
            · exact ⟨rfl, rfl, List.prefix_refl _⟩

theorem sameWaiters_onBurstTimeout (s : MavftpService) : SameWaiters s s.onBurstTimeout := by
  unfold onBurstTimeout
  split
  · exact .refl s
  · split
    · exact sameWaiters_rerequest s _ _
    · exact sameWaiters_failBurst s _

/-- What happens to the waiters and their log on `e`. -/
inductive WaiterMove (s : MavftpService) (e : ServiceEvent) (s' : MavftpService) : Prop
  | quiet (hw : s'.waiters ⊆ s.waiters) (hs : s.sent <+: s'.sent)
      (hl : ∃ rejections : List (ℕ × MavftpError), s'.settled =
        s.settled ++ rejections.map fun r => .rejected r.1 r.2)
  | ask {waiter : MavftpWaiter} (hw : s'.waiters = s.waiters ++ [waiter])
      (hs : s.sent <+: s'.sent) (hm : waiter.Matches s'.sent) (hl : s'.settled = s.settled)
  | reply {payload : MavftpPayload} {answers : ℕ} (hp : e.packet = some (payload, answers))
      (hr : s.routesToBurst payload = false) (hw : s'.waiters ⊆ s.waiters)
      (hs : s'.sent = s.sent) (hl : s'.settled = s.settled ++
        (s.expecting payload.seqNumber).map fun waiter => .replied waiter.request payload answers)

variable {s' : MavftpService}

theorem SameWaiters.move (e : ServiceEvent) (h : SameWaiters s s') :
    WaiterMove s e s' :=
  .quiet (h.waiters ▸ List.Subset.refl _) h.sent ⟨[], by rw [h.settled]; simp⟩

theorem send_move (s : MavftpService) (e : ServiceEvent) (request : Request)
    (timeoutMs : Option ℕ) : WaiterMove s e (s.send request timeoutMs) := by
  unfold send
  split
  · exact (SameWaiters.refl s).move e
  · refine .ask rfl (List.prefix_append _ _) ?_ rfl
    exact ⟨_, List.getElem?_concat_length, rfl⟩

theorem rejectWaiter_move (s : MavftpService) (e : ServiceEvent) (waiter : MavftpWaiter)
    (error : MavftpError) : WaiterMove s e (s.rejectWaiter waiter error) :=
  .quiet (List.filter_subset_self _) (List.prefix_refl _) ⟨[(waiter.request, error)], rfl⟩

variable {e : ServiceEvent} {payload : MavftpPayload} {answers : ℕ}

theorem resolves_of_packet (hp : e.packet = some (payload, answers))
    (hr : s.routesToBurst payload = false) (h : s.step e = some s') :
    s'.waiters ⊆ s.waiters ∧ s'.sent = s.sent ∧ s'.settled = s.settled ++
      (s.expecting payload.seqNumber).map fun waiter =>
        .replied waiter.request payload answers := by
  cases e with
  | deliver message n =>
    rw [ServiceEvent.packet, Option.map_eq_some_iff] at hp
    obtain ⟨p, hdec, hp⟩ := hp
    cases hp
    cases h
    obtain ⟨x, hx⟩ := s.adopt_eq payload.seqNumber
    have hroute : ¬ routesToBurst { s with sequence := x } payload = true :=
      Bool.eq_false_iff.mp hr
    rw [handleFileTransferProtocol, hdec]
    dsimp only
    rw [handlePayload, hx, if_neg hroute]
    exact ⟨List.filter_subset_self _, rfl, rfl⟩
  | _ => cases hp

theorem deliver_move (s : MavftpService) (message : Bytes) (answers : ℕ) :
    WaiterMove s (.deliver message answers) (s.handleFileTransferProtocol message answers) := by
  cases hdec : decodeMavftpPayload message with
  | none =>
    rw [handleFileTransferProtocol, hdec]
    exact (SameWaiters.refl s).move _
  | some p =>
    by_cases hroute : s.routesToBurst p = true
    · have hsame := sameWaiters_adopt s p.seqNumber
      have hroute' : (s.adoptServerSequence p.seqNumber).routesToBurst p = true := by
        rw [routesToBurst, (sameBurst_adopt s p.seqNumber).activeBurst]
        exact hroute
      simp only [handleFileTransferProtocol, hdec, handlePayload, hroute', if_true]
      exact (hsame.trans (sameWaiters_handleBurstPacket _ p)).move _
    · have hp : ServiceEvent.packet (.deliver message answers) = some (p, answers) := by
        rw [ServiceEvent.packet, hdec, Option.map_some]
      have hroute : s.routesToBurst p = false := by simpa using hroute
      obtain ⟨hw, hs, hl⟩ := resolves_of_packet hp hroute rfl
      exact .reply hp hroute hw hs hl

theorem waiter_move (h : s.step e = some s') :
    WaiterMove s e s' := by
  cases step_cases h with
  | deliver message answers => exact deliver_move s message answers
  | send request timeoutMs he => exact send_move s _ request timeoutMs
  | clear timeoutMs =>
    unfold clearStaleSessionsOnce
    split
    · exact (SameWaiters.refl s).move _
    · obtain ⟨hw, hs, hl⟩ | ⟨hw, hs, hm, hl⟩ | ⟨hp, -⟩ :=
        send_move { s with staleSessionsCleared := true } (.clearStaleSessionsOnce timeoutMs)
          resetRequest timeoutMs
      · exact .quiet hw hs hl
      · exact .ask hw hs hm hl
      · cases hp
  | start hidle hopen hpos =>
    unfold runBurst
    dsimp only
    generalize BurstOperation.mk s.bursts _ _ _ _ _ _ _ _ _ = op
    have h := sameWaiters_sendBurst { s with activeBurst := some op, bursts := s.bursts + 1 } op 0
    exact SameWaiters.move _ ⟨h.waiters, h.settled, h.sent⟩
  | timeout ha => exact (sameWaiters_onBurstTimeout s).move _
  | reject waiter error he => exact rejectWaiter_move s _ waiter error
  | fail error he => exact (sameWaiters_failBurst s error).move _
  | cancelAll text =>
    have hsame := sameWaiters_failBurst s (.other text)
    refine .quiet (List.nil_subset _) hsame.sent ⟨s.waiters.map fun w => (w.request, .other text), ?_⟩
    rw [List.map_map]
    simp only [MavftpService.cancelAll, hsame.settled, hsame.waiters]
    rfl
  | setVehicle vehicle => exact SameWaiters.move _ ⟨rfl, rfl, List.prefix_refl _⟩
  | tick ms => exact SameWaiters.move _ ⟨rfl, rfl, List.prefix_refl _⟩

/-! ## Correlation -/

/-- Every packet answers a request that was sent, and echoes its opcode. -/
def EchoesRequest (s : MavftpService) (e : ServiceEvent) : Prop :=
  ∀ packet ∈ e.packet, ∃ request ∈ s.sent[packet.2]?,
    packet.1.reqOpcode = request.payload.opcode

instance (s : MavftpService) (e : ServiceEvent) : Decidable (EchoesRequest s e) :=
  inferInstanceAs (Decidable (∀ packet ∈ e.packet, ∃ request ∈ s.sent[packet.2]?, _ = _))

/-- A packet that does not go to an active burst and answers something else does not carry the
sequence number a pending request expects. -/
def NoCollision (s : MavftpService) (e : ServiceEvent) : Prop :=
  ∀ packet ∈ e.packet, s.routesToBurst packet.1 = false →
    ∀ waiter ∈ s.waiters, waiter.request ≠ packet.2 → waiter.seqNumber ≠ packet.1.seqNumber

instance (s : MavftpService) (e : ServiceEvent) : Decidable (NoCollision s e) :=
  inferInstanceAs (Decidable (∀ packet ∈ e.packet, s.routesToBurst packet.1 = false →
    ∀ waiter ∈ s.waiters, waiter.request ≠ packet.2 → waiter.seqNumber ≠ packet.1.seqNumber))

/-- Every request that was answered was answered by the server's reply to it, with its opcode and
the sequence number that follows its own. -/
def OwnReplies (s : MavftpService) : Prop :=
  ∀ request payload answers, .replied request payload answers ∈ s.settled →
    answers = request ∧ ∃ sent, s.sent[request]? = some sent ∧
      payload.reqOpcode = sent.payload.opcode ∧
        payload.seqNumber = (sent.payload.seqNumber + 1) % 65536

/-- Every waiter waits for the reply to its own request, and the log speaks of requests that were
sent. -/
structure Correlated (s : MavftpService) : Prop where
  waiters : ∀ waiter ∈ s.waiters, waiter.Matches s.sent
  logged : ∀ request payload answers, .replied request payload answers ∈ s.settled →
    request < s.sent.length

theorem correlated_fresh (vehicle : Option VehicleIdentity) (requestTimeoutMs nowMs : ℕ) :
    Correlated (fresh vehicle requestTimeoutMs nowMs) where
  waiters waiter hw := by cases hw
  logged request payload answers h := by cases h

theorem replied_cases (h : s.step e = some s') {request : ℕ}
    (hr : .replied request payload answers ∈ s'.settled) :
    .replied request payload answers ∈ s.settled ∨
      (e.packet = some (payload, answers) ∧ s.routesToBurst payload = false ∧ s'.sent = s.sent ∧
        ∃ waiter ∈ s.waiters, waiter.request = request ∧
          waiter.seqNumber = payload.seqNumber) := by
  cases waiter_move h with
  | quiet hw hs hl =>
    obtain ⟨rejections, hl⟩ := hl
    rw [hl, List.mem_append, List.mem_map] at hr
    obtain hr | ⟨r, -, hr⟩ := hr
    · exact .inl hr
    · cases hr
  | ask hw hs hm hl => exact .inl (hl ▸ hr)
  | reply hp hroute hw hs hl =>
    rw [hl, List.mem_append, List.mem_map] at hr
    obtain hr | ⟨waiter, hmem, hr⟩ := hr
    · exact .inl hr
    · cases hr
      rw [expecting, List.mem_filter, decide_eq_true_iff] at hmem
      exact .inr ⟨hp, hroute, hs, waiter, hmem.1, rfl, hmem.2⟩

theorem sent_grows (h : s.step e = some s') :
    s.sent <+: s'.sent := by
  cases waiter_move h with
  | quiet hw hs hl => exact hs
  | ask hw hs hm hl => exact hs
  | reply hp hr hw hs hl => exact hs ▸ List.prefix_refl _

theorem correlated_step (hi : Correlated s) (h : s.step e = some s') : Correlated s' := by
  have hs := sent_grows h
  refine ⟨fun waiter hmem => ?_, fun request payload answers hr => ?_⟩
  · cases waiter_move h with
    | quiet hw => exact (hi.waiters waiter (hw hmem)).mono hs
    | ask hw _ hm =>
      rw [hw, List.mem_append, List.mem_singleton] at hmem
      obtain hmem | rfl := hmem
      · exact (hi.waiters waiter hmem).mono hs
      · exact hm
    | reply _ _ hw => exact (hi.waiters waiter (hw hmem)).mono hs
  · obtain hr | ⟨-, -, -, waiter, hmem, rfl, -⟩ := replied_cases h hr
    · exact lt_of_lt_of_le (hi.logged request payload answers hr) hs.length_le
    · obtain ⟨sent, hsent, -⟩ := (hi.waiters waiter hmem).mono hs
      exact (List.getElem?_eq_some_iff.mp hsent).1

theorem settled_subset (h : s.step e = some s') :
    s.settled ⊆ s'.settled := by
  cases waiter_move h with
  | quiet hw hs hl =>
    obtain ⟨rejections, hl⟩ := hl
    exact hl ▸ List.subset_append_left _ _
  | ask hw hs hm hl => exact hl ▸ List.Subset.refl _
  | reply hp hr hw hs hl => exact hl ▸ List.subset_append_left _ _

theorem OwnReplies.back (hi : Correlated s) (h : s.step e = some s') (ho : OwnReplies s') :
    OwnReplies s := by
  intro request payload answers hr
  obtain ⟨hown, sent, hsent, hecho⟩ := ho request payload answers (settled_subset h hr)
  have hlt := hi.logged request payload answers hr
  have hold := List.getElem?_eq_getElem hlt
  obtain rfl : s.sent[request] = sent :=
    Option.some.inj ((getElem?_of_earlier (sent_grows h) hold).symm.trans hsent)
  exact ⟨hown, _, hold, hecho⟩

theorem noCollision_of_own (h : s.step e = some s') (ho : OwnReplies s') : NoCollision s e := by
  rintro ⟨payload, answers⟩ hp hroute waiter hmem hne hseq
  have hlogged : .replied waiter.request payload answers ∈ s'.settled := by
    rw [(resolves_of_packet hp hroute h).2.2, List.mem_append, List.mem_map]
    refine .inr ⟨waiter, ?_, rfl⟩
    rw [expecting, List.mem_filter, decide_eq_true_iff]
    exact ⟨hmem, hseq⟩
  exact hne (ho _ _ _ hlogged).1.symm

theorem ownReplies_step (hi : Correlated s) (hecho : EchoesRequest s e) (hc : NoCollision s e)
    (ho : OwnReplies s) (h : s.step e = some s') : OwnReplies s' := by
  intro request payload answers hr
  obtain hr | ⟨hp, hroute, hs, waiter, hmem, rfl, hseq⟩ := replied_cases h hr
  · obtain ⟨hown, sent, hsent, hrest⟩ := ho request payload answers hr
    exact ⟨hown, sent, getElem?_of_earlier (sent_grows h) hsent, hrest⟩
  · obtain rfl : waiter.request = answers := by
      by_contra hne
      exact hc _ hp hroute waiter hmem hne hseq
    obtain ⟨sent, hsent, hexpects⟩ := hi.waiters waiter hmem
    obtain ⟨answered, hanswered, hopcode⟩ := hecho _ hp
    obtain rfl : sent = answered := Option.some.inj (hsent.symm.trans hanswered)
    exact ⟨rfl, sent, hs ▸ hsent, hopcode, hseq ▸ hexpects⟩

/-- Every answered request was answered by its own reply exactly when no other packet outside an
active burst carried the sequence number a pending request expected. -/
theorem own_replies_iff {vehicle : Option VehicleIdentity} {requestTimeoutMs nowMs : ℕ}
    {es : List ServiceEvent} {s : MavftpService}
    (h : run step (fresh vehicle requestTimeoutMs nowMs) es = some s)
    (hecho : Along step EchoesRequest (fresh vehicle requestTimeoutMs nowMs) es) :
    OwnReplies s ↔ Along step NoCollision (fresh vehicle requestTimeoutMs nowMs) es := by
  constructor
  · intro ho
    exact (along_of_final (I := Correlated) (fun _ _ _ hi _ hs => correlated_step hi hs)
      (fun _ _ _ hi hs => OwnReplies.back hi hs) (fun _ _ _ _ _ hs => noCollision_of_own hs)
      (correlated_fresh _ _ _) hecho h ho).1
  · intro hc
    exact (run_invariant_along (I := fun s => Correlated s ∧ OwnReplies s)
      (fun _ _ _ hi hc hs => ⟨correlated_step hi.1 hs, ownReplies_step hi.1 hc.1 hc.2 hi.2 hs⟩)
      ⟨correlated_fresh _ _ _, fun request payload answers hr => by cases hr⟩
      (hecho.and hc) h).2

/-- After a burst of one byte the session is closed, and the burst's end-of-file NAK arrives once the
TERMINATE_SESSION has been answered. -/
def closingEvents : List ServiceEvent :=
  [.request (terminateRequest 0) none,
    .deliver (encodeMavftpPayload ⟨4, 0, MAV_FTP_OPCODE.ACK, 0, MAV_FTP_OPCODE.TERMINATE_SESSION,
      0, 0, []⟩) 3]

set_option maxRecDepth 8000 in
theorem own_replies_late_eof :
    ∃ s, run step (fresh (some ⟨1, 1⟩) 3000 0)
        (openingEvents 1 ++ [burstReply 3 0 [7]] ++ closingEvents ++ [burstEof 4]) = some s ∧
      OwnReplies s :=
  ⟨_, rfl, (@own_replies_iff (some ⟨1, 1⟩) 3000 0
    (openingEvents 1 ++ [burstReply 3 0 [7]] ++ closingEvents ++ [burstEof 4]) _ rfl
    (by decide)).mpr (by decide)⟩

set_option maxRecDepth 8000 in
/-- The one packet of a burst completes it, TERMINATE_SESSION goes out, and the end-of-file NAK of
the burst, two behind the burst request, settles it. -/
theorem eof_nak_settles_terminate :
    ¬ ∀ es s, run step (fresh (some ⟨1, 1⟩) 3000 0) es = some s →
      Along step EchoesRequest (fresh (some ⟨1, 1⟩) 3000 0) es → OwnReplies s := by
  intro hall
  have h := hall (openingEvents 1 ++ [burstReply 3 0 [7], .request (terminateRequest 0) none,
    burstEof 4]) _ rfl (by decide) 3 _ 2
    (List.mem_cons_of_mem _ (List.mem_cons_of_mem _ (List.mem_singleton.mpr rfl)))
  exact absurd h.1 (by decide)

end MavftpService
end ArduConfigurator.Mavftp
