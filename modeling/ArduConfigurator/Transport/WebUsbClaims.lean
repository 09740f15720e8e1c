import ArduConfigurator.Lib.Runs
import ArduConfigurator.Transport.WebUsbSerial

/-! # The interfaces that the WebUSB transport claims

While an attempt to connect looks for its port, it alone answers for what it has claimed. From the
moment at which no disconnect can abort it any more, the port and the control interface of the
transport are all that is claimed, and every `disconnect()` that is under way still has to release
them. -/
namespace ArduConfigurator.Transport.WebUsb
set_option autoImplicit false

def Stage.interfaces : Stage → List ℕ
  | .claimingData _ claimedComm _ => claimedComm.toList
  | .releasingControl _ claimedComm _ _ => [claimedComm]
  | .selecting port claimedComm => port.interfaceNumber :: claimedComm.toList
  | .abandoning interfaceNumber _ => [interfaceNumber]
  | _ => []

def Stage.claimedComm : Stage → Option ℕ
  | .claimingData _ claimedComm _ => claimedComm
  | .selecting _ claimedComm => claimedComm
  | _ => none

def Stage.chosen : Stage → Option CdcSerialPort
  | .selecting port _ => some port
  | _ => none

namespace WebUsbSerialTransport

/-- After a `connect()` has rejected or a `disconnect()` has resolved, with no attempt pending,
nothing is claimed and the status is not connected. A connected transport has its read loop, or a
`disconnect()` under way that is about to report the end. -/
structure Hygienic (s : WebUsbSerialTransport) : Prop where
  released : s.ended = true → s.attempt = none → s.claims = [] ∧ s.status ≠ .connected
  listening : s.status = .connected →
    (∃ loop reading, s.readLoopPromise = some loop ∧ s.loops[loop]? = some (some reading)) ∨
      s.disconnects ≠ []

/-- Where the operation that an attempt waits for settles, the attempt does not fail with a control
interface claimed, and is not connected after a `disconnect()` has resolved. -/
def SettlesWell (s : WebUsbSerialTransport) (failure : Option String) (a : Attempt) : Prop :=
  match a.stage with
  | .claimingData candidate claimedComm _ =>
    failure = none → s.intentionalDisconnect = true →
      s.needsAlternate a.device candidate = false → claimedComm = none
  | .selecting _ claimedComm =>
    failure ≠ none ∨ s.intentionalDisconnect = true → claimedComm = none
  | .controlLines _ => s.ended = false
  | _ => True

/-- An attempt begins with no `disconnect()` under way and nothing claimed, and settles well. -/
def Allowed (s : WebUsbSerialTransport) : Event → Prop
  | .connect _ => s.connectPromise = false → s.disconnects = [] ∧ s.claims = []
  | .attemptSettles failure => ∀ a ∈ s.attempt, s.SettlesWell failure a
  | _ => True

instance (s : WebUsbSerialTransport) (failure : Option String) :
    (a : Attempt) → Decidable (s.SettlesWell failure a)
  | ⟨_, _, .opening⟩ => isTrue trivial
  | ⟨_, _, .configuring _⟩ => isTrue trivial
  | ⟨_, _, .claimingControl _ _ _⟩ => isTrue trivial
  | ⟨device, _, .claimingData candidate claimedComm _⟩ => inferInstanceAs <| Decidable <|
      failure = none → s.intentionalDisconnect = true →
        s.needsAlternate device candidate = false → claimedComm = none
  | ⟨_, _, .releasingControl _ _ _ _⟩ => isTrue trivial
  | ⟨_, _, .selecting _ claimedComm⟩ => inferInstanceAs <| Decidable <|
      failure ≠ none ∨ s.intentionalDisconnect = true → claimedComm = none
  | ⟨_, _, .lineCoding _⟩ => isTrue trivial
  | ⟨_, _, .controlLines _⟩ => inferInstanceAs (Decidable (s.ended = false))
  | ⟨_, _, .abandoning _ _⟩ => isTrue trivial

instance (s : WebUsbSerialTransport) : (e : Event) → Decidable (s.Allowed e)
  | .connect _ => inferInstanceAs <| Decidable <|
      s.connectPromise = false → s.disconnects = [] ∧ s.claims = []
  | .attemptSettles failure =>
    inferInstanceAs (Decidable (∀ a ∈ s.attempt, s.SettlesWell failure a))
  | .connectSettled => isTrue trivial
  | .disconnect => isTrue trivial
  | .disconnectSettles _ _ => isTrue trivial
  | .transferSettles _ _ => isTrue trivial

/-! ## Once the port is chosen -/

/-- What the call of `disconnect()` still has to release. -/
def Covers (s : WebUsbSerialTransport) (x : Disconnect) (c : ℕ × ℕ) : Prop :=
  ∃ d p, x.device = some d ∧ x.port = some p ∧ s.device = some d ∧ s.port = some p ∧
    match x.stage with
    | .draining => True
    | .releasingControl control => c = (d, p.interfaceNumber) ∨ c = (d, control)
    | .releasingData => c = (d, p.interfaceNumber)
    | .closing => False

structure Settled (s : WebUsbSerialTransport) : Prop where
  held : ∀ c ∈ s.claims, ∃ d p, s.device = some d ∧ s.port = some p ∧
    (c = (d, p.interfaceNumber) ∨ ∃ k, s.claimedControlInterface = some k ∧ c = (d, k))
  control : ∀ k, s.claimedControlInterface = some k →
    ∃ d, s.device = some d ∧ (d, k) ∈ s.claims
  covers : ∀ x ∈ s.disconnects, ∀ c ∈ s.claims, s.Covers x c
  past : ∀ x ∈ s.disconnects, x.stage = .releasingData ∨ x.stage = .closing →
    s.claimedControlInterface = none

namespace Settled
variable {s : WebUsbSerialTransport}

theorem control_of_nil (h : s.Settled) (hclaims : s.claims = []) :
    s.claimedControlInterface = none := by
  cases hcontrol : s.claimedControlInterface with
  | none => rfl
  | some k =>
    obtain ⟨d, _, hmem⟩ := h.control k hcontrol
    rw [hclaims] at hmem
    cases hmem

theorem of_nil (hclaims : s.claims = []) (hcontrol : s.claimedControlInterface = none) :
    s.Settled where
  held c hc := by
    rw [hclaims] at hc
    cases hc
  control k hk := by
    rw [hcontrol] at hk
    cases hk
  covers x _ c hc := by
    rw [hclaims] at hc
    cases hc
  past _ _ _ := hcontrol

variable {x : Disconnect}

theorem park (h : s.Settled) (hcovers : ∀ c ∈ s.claims, s.Covers x c)
    (hpast : x.stage = .releasingData ∨ x.stage = .closing → s.claimedControlInterface = none) :
    (s.park x).Settled := by
  refine ⟨h.held, h.control, fun y hy => ?_, fun y hy => ?_⟩
  · rcases List.mem_append.mp hy with hy | hy
    · exact h.covers y hy
    · rw [List.mem_singleton.mp hy]
      exact hcovers
  · rcases List.mem_append.mp hy with hy | hy
    · exact h.past y hy
    · rw [List.mem_singleton.mp hy]
      exact hpast

theorem releaseData (h : s.Settled)
    (hdata : ∀ c ∈ s.claims, ∃ d p, x.device = some d ∧ x.port = some p ∧ s.device = some d ∧ s.port = some p ∧ c = (d, p.interfaceNumber))
    (hcontrol : s.claimedControlInterface = none) :
    (s.releaseData x).Settled ∧
      ((s.releaseData x).ended = true → s.ended = true ∨ (s.releaseData x).claims = []) := by
  rw [WebUsbSerialTransport.releaseData]
  split_ifs with hsome
  · refine ⟨h.park (fun c hc => ?_) fun _ => hcontrol, fun hended => .inl hended⟩
    obtain ⟨d, p, hd, hp, hdevice, hport, rfl⟩ := hdata c hc
    exact ⟨d, p, hd, hp, hdevice, hport, rfl⟩
  · have hclaims : s.claims = [] := by
      refine List.eq_nil_iff_forall_not_mem.mpr fun c hc => hsome ?_
      obtain ⟨d, p, hd, hp, _⟩ := hdata c hc
      rw [hd, hp]
      exact ⟨rfl, rfl⟩
    exact ⟨of_nil hclaims hcontrol, fun _ => .inr hclaims⟩

theorem releaseControl (h : s.Settled)
    (hcovers : ∀ c ∈ s.claims, ∃ d p, x.device = some d ∧ x.port = some p ∧ s.device = some d ∧ s.port = some p) :
    (s.releaseControl x).Settled ∧
      ((s.releaseControl x).ended = true → s.ended = true ∨ (s.releaseControl x).claims = []) := by
  have hheld : ∀ c ∈ s.claims, ∃ d p, x.device = some d ∧ x.port = some p ∧ s.device = some d ∧
      s.port = some p ∧ (c = (d, p.interfaceNumber) ∨
        ∃ k, s.claimedControlInterface = some k ∧ c = (d, k)) := by
    intro c hc
    obtain ⟨d, p, hd, hp, hdevice, hport⟩ := hcovers c hc
    obtain ⟨e, q, he, hq, hc⟩ := h.held c hc
    cases hdevice.symm.trans he
    cases hport.symm.trans hq
    exact ⟨d, p, hd, hp, hdevice, hport, hc⟩
  rw [WebUsbSerialTransport.releaseControl]
  cases hcontrol : s.claimedControlInterface with
  | none =>
    refine h.releaseData (fun c hc => ?_) hcontrol
    obtain ⟨d, p, hd, hp, hdevice, hport, hdata | ⟨k, hk, _⟩⟩ := hheld c hc
    · exact ⟨d, p, hd, hp, hdevice, hport, hdata⟩
    · rw [hcontrol] at hk
      cases hk
  | some k =>
    dsimp only
    obtain ⟨e, he, hmem⟩ := h.control k hcontrol
    obtain ⟨d, p, hd, -⟩ := hcovers _ hmem
    rw [if_pos (Option.isSome_iff_exists.mpr ⟨d, hd⟩)]
    refine ⟨h.park (fun c hc => ?_) (by simp), fun hended => .inl hended⟩
    obtain ⟨d, p, hd, hp, hdevice, hport, hc⟩ := hheld c hc
    refine ⟨d, p, hd, hp, hdevice, hport, ?_⟩
    obtain hdata | ⟨j, hj, hc⟩ := hc
    · exact .inl hdata
    · rw [hcontrol] at hj
      cases hj
      exact .inr hc

theorem mem_release {device interfaceNumber : ℕ} {c : ℕ × ℕ} :
    c ∈ (s.release device interfaceNumber).claims ↔
      c ∈ s.claims ∧ c ≠ (device, interfaceNumber) := by
  simp [release]

theorem advanceDisconnect (h : s.Settled) (failure : Option String)
    (hcovers : ∀ c ∈ s.claims, s.Covers x c)
    (hpast : x.stage = .releasingData ∨ x.stage = .closing → s.claimedControlInterface = none) :
    (s.advanceDisconnect x failure).Settled ∧
      ((s.advanceDisconnect x failure).ended = true →
        s.ended = true ∨ (s.advanceDisconnect x failure).claims = []) := by
  obtain ⟨device, port, stage, reason⟩ := x
  cases stage with
  | draining =>
    have hdrained : Settled { s with readLoopPromise := none } :=
      ⟨h.held, h.control, h.covers, h.past⟩
    refine hdrained.releaseControl fun c hc => ?_
    obtain ⟨d, p, hd, hp, hdevice, hport, _⟩ := hcovers c hc
    exact ⟨d, p, hd, hp, hdevice, hport⟩
  | releasingControl k =>
    cases device with
    | none =>
      have hclaims : s.claims = [] := by
        refine List.eq_nil_iff_forall_not_mem.mpr fun c hc => ?_
        obtain ⟨d, p, hd, _⟩ := hcovers c hc
        cases hd
      refine (of_nil (s := { s with claimedControlInterface := none }) hclaims rfl).releaseData
        (fun c hc => ?_) rfl
      rw [hclaims] at hc
      cases hc
    | some e =>
      have hdata : ∀ c ∈ (s.release e k).claims, ∃ d p, some e = some d ∧ port = some p ∧
          s.device = some d ∧ s.port = some p ∧ c = (d, p.interfaceNumber) := by
        intro c hc
        obtain ⟨hc, hne⟩ := mem_release.mp hc
        obtain ⟨d, p, hd, hp, hdevice, hport, hdata | hcontrol⟩ := hcovers c hc
        · exact ⟨d, p, hd, hp, hdevice, hport, hdata⟩
        · cases hd
          exact absurd hcontrol hne
      have hreleased : Settled { s.release e k with claimedControlInterface := none } := by
        refine ⟨fun c hc => ?_, by simp, fun y hy c hc => ?_, fun _ _ _ => rfl⟩
        · obtain ⟨d, p, _, _, hdevice, hport, hc⟩ := hdata c hc
          exact ⟨d, p, hdevice, hport, .inl hc⟩
        · exact h.covers y hy c (mem_release.mp hc).1
      exact hreleased.releaseData hdata rfl
  | releasingData =>
    have hcontrol := hpast (.inl rfl)
    have hnil : (device.elim s fun device => port.elim s fun port =>
        s.release device port.interfaceNumber).claims = [] := by
      refine List.eq_nil_iff_forall_not_mem.mpr fun c hc => ?_
      cases device with
      | none =>
        obtain ⟨d, p, hd, _⟩ := hcovers c hc
        cases hd
      | some e =>
        cases port with
        | none =>
          obtain ⟨d, p, _, hp, _⟩ := hcovers c hc
          cases hp
        | some q =>
          obtain ⟨hc, hne⟩ := mem_release.mp hc
          obtain ⟨d, p, hd, hp, _, _, hdata⟩ := hcovers c hc
          cases hd
          cases hp
          exact hne hdata
    have hkept : (device.elim s fun device => port.elim s fun port =>
        s.release device port.interfaceNumber).claimedControlInterface = none := by
      cases device with
      | none => exact hcontrol
      | some e => cases port <;> exact hcontrol
    exact ⟨of_nil hnil hkept, fun _ => .inr hnil⟩
  | closing =>
    have hcontrol := hpast (.inr rfl)
    have hclaims : s.claims = [] := by
      refine List.eq_nil_iff_forall_not_mem.mpr fun c hc => ?_
      obtain ⟨d, p, _, _, _, _, hfalse⟩ := hcovers c hc
      exact hfalse
    cases failure with
    | some message => exact ⟨of_nil hclaims hcontrol, fun _ => .inr hclaims⟩
    | none =>
      cases device with
      | none => exact ⟨of_nil hclaims hcontrol, fun _ => .inr hclaims⟩
      | some e =>
        have hnil : (s.claims.filter fun c => c.1 ≠ e) = [] := by
          rw [hclaims]
          rfl
        exact ⟨of_nil hnil hcontrol, fun _ => .inr hnil⟩

end Settled

/-! ## While an attempt looks for its port -/

/-- What holds while `doConnect` runs. -/
structure Pending (s : WebUsbSerialTransport) : Prop where
  latched : s.connectPromise = true
  unconnected : s.status ≠ .connected
  asked : s.intentionalDisconnect = true → s.ended = false → s.disconnects ≠ []

structure Trying (s : WebUsbSerialTransport) (a : Attempt) : Prop where
  claimed : ∀ c ∈ s.claims, c.1 = a.device ∧ c.2 ∈ a.stage.interfaces
  control : s.claimedControlInterface = none ∨
    a.stage.chosen.isSome ∧ s.claimedControlInterface = a.stage.claimedComm
  undisturbed : s.intentionalDisconnect = false → s.device = some a.device ∧
    (∀ k ∈ a.stage.claimedComm, (a.device, k) ∈ s.claims) ∧
    ∀ port ∈ a.stage.chosen, s.port = some port ∧
      s.claimedControlInterface = a.stage.claimedComm

inductive Phase (s : WebUsbSerialTransport) : Prop
  | idle (hattempt : s.attempt = none) (hsettled : s.Settled)
  | trying (a : Attempt) (hattempt : s.attempt = some a) (htrying : s.Trying a)
    (hcoding : ∀ port, a.stage ≠ .lineCoding port) (hlines : ∀ port, a.stage ≠ .controlLines port)
  | line (a : Attempt) (port : CdcSerialPort) (hattempt : s.attempt = some a)
    (hstage : a.stage = .lineCoding port ∨ a.stage = .controlLines port) (hsettled : s.Settled)

structure Sound (s : WebUsbSerialTransport) : Prop where
  phase : s.Phase
  pending : ∀ a ∈ s.attempt, s.Pending
  undisturbed : s.intentionalDisconnect = false → s.disconnects = []
  released : s.ended = true → s.attempt = none → s.claims = [] ∧ s.status ≠ .connected
  listening : s.status = .connected →
    (s.intentionalDisconnect = false ∧
      ∃ loop reading, s.readLoopPromise = some loop ∧ s.loops[loop]? = some (some reading)) ∨
        s.disconnects ≠ []

structure Ready (s : WebUsbSerialTransport) (device : ℕ) : Prop where
  pending : s.Pending
  undisturbed : s.intentionalDisconnect = false → s.disconnects = []
  claims : s.claims = []
  control : s.claimedControlInterface = none
  device : s.intentionalDisconnect = false → s.device = some device

theorem Ready.trying {s : WebUsbSerialTransport} {a : Attempt} (h : s.Ready a.device)
    {stage : Stage} (hcomm : stage.claimedComm = none)
    (hchosen : stage.chosen = none) : s.Trying { a with stage := stage } := by
  refine ⟨fun c hc => ?_, .inl h.control, fun hquiet => ⟨h.device hquiet, ?_, ?_⟩⟩
  · rw [h.claims] at hc
    cases hc
  · rw [hcomm]
    simp
  · rw [hchosen]
    simp

namespace Sound
variable {s : WebUsbSerialTransport} {a : Attempt}

theorem hygienic (h : s.Sound) : s.Hygienic where
  released := h.released
  listening hconnected := (h.listening hconnected).imp And.right id

/-! ## The steps of an attempt -/

theorem wait (hpending : s.Pending)
    (hundisturbed : s.intentionalDisconnect = false → s.disconnects = []) {stage : Stage}
    (htrying : s.Trying { a with stage := stage }) (hcoding : ∀ port, stage ≠ .lineCoding port)
    (hlines : ∀ port, stage ≠ .controlLines port) :
    (s.wait a stage).Sound where
  phase := .trying _ rfl ⟨htrying.claimed, htrying.control, htrying.undisturbed⟩ hcoding hlines
  pending _ _ := ⟨hpending.latched, hpending.unconnected, hpending.asked⟩
  undisturbed := hundisturbed
  released _ hattempt := by cases hattempt
  listening hconnected := absurd hconnected hpending.unconnected

theorem reject (hpending : s.Pending)
    (hundisturbed : s.intentionalDisconnect = false → s.disconnects = [])
    (hclaims : s.claims = []) (hcontrol : s.claimedControlInterface = none) (failure : String) :
    (s.reject failure).Sound := by
  have hstatus : (s.reject failure).status ≠ .connected := by
    rw [WebUsbSerialTransport.reject]
    dsimp only
    split_ifs
    · exact hpending.unconnected
    · exact TransportStatus.noConfusion
  refine ⟨.idle rfl (Settled.of_nil hclaims hcontrol), fun a ha => ?_, hundisturbed,
    fun _ _ => ⟨hclaims, hstatus⟩, fun hconnected => absurd hconnected hstatus⟩
  cases ha

theorem tryCandidates (h : s.Ready a.device) (rest : List CdcSerialPort) :
    (s.tryCandidates a rest).Sound := by
  cases rest with
  | nil => exact reject h.pending h.undisturbed h.claims h.control _
  | cons candidate rest =>
    rw [WebUsbSerialTransport.tryCandidates]
    cases candidate.controlInterfaceNumber with
    | some control =>
      exact wait h.pending h.undisturbed (h.trying rfl rfl) (by simp) (by simp)
    | none => exact wait h.pending h.undisturbed (h.trying rfl rfl) (by simp) (by simp)

theorem nextCandidate (h : s.Ready a.device) (candidate : CdcSerialPort) (failure : String)
    (rest : List CdcSerialPort) : (s.nextCandidate a candidate failure rest).Sound := by
  rw [WebUsbSerialTransport.nextCandidate]
  apply tryCandidates
  exact h

theorem findPort (h : s.Ready a.device) (configuration : UsbConfiguration) :
    (s.findPort a configuration).Sound := by
  rw [WebUsbSerialTransport.findPort]
  split
  · exact reject h.pending h.undisturbed h.claims h.control _
  · exact tryCandidates h _

theorem configure (h : s.Ready a.device) : (s.configure a).Sound := by
  rw [WebUsbSerialTransport.configure]
  split
  · exact findPort h _
  · split
    · exact reject h.pending h.undisturbed h.claims h.control _
    · exact wait h.pending h.undisturbed (h.trying rfl rfl) (by simp) (by simp)

structure Chosen (s : WebUsbSerialTransport) (device : ℕ) (port : CdcSerialPort)
    (claimedComm : Option ℕ) : Prop where
  pending : s.Pending
  undisturbed : s.intentionalDisconnect = false → s.disconnects = []
  claims : ∀ c ∈ s.claims, c.1 = device ∧ (c.2 = port.interfaceNumber ∨ c.2 ∈ claimedComm)
  control : s.claimedControlInterface = none ∨ s.claimedControlInterface = claimedComm
  quiet : s.intentionalDisconnect = false → s.device = some device ∧ s.port = some port ∧
    s.claimedControlInterface = claimedComm ∧ ∀ k ∈ claimedComm, (device, k) ∈ s.claims

variable {port : CdcSerialPort} {claimedComm : Option ℕ}

theorem abandon (h : Chosen s a.device port claimedComm) (hcomm : claimedComm = none)
    (failure : String) : (s.wait a (.abandoning port.interfaceNumber failure)).Sound := by
  subst hcomm
  refine wait h.pending h.undisturbed ⟨fun c hc => ?_, .inl ?_, fun hquiet => ?_⟩ (by simp)
    (by simp)
  · obtain ⟨hdevice, hdata | hcontrol⟩ := h.claims c hc
    · exact ⟨hdevice, List.mem_singleton.mpr hdata⟩
    · cases hcontrol
  · exact h.control.elim id id
  · exact ⟨(h.quiet hquiet).1, by simp [Stage.claimedComm], by simp [Stage.chosen]⟩

theorem checkAborted (h : Chosen s a.device port claimedComm)
    (hallowed : s.intentionalDisconnect = true → claimedComm = none) :
    (s.checkAborted a port).Sound := by
  rw [WebUsbSerialTransport.checkAborted]
  split_ifs with hasked
  · exact abandon h (hallowed hasked) _
  · have hquiet : s.intentionalDisconnect = false := Bool.not_eq_true _ ▸ hasked
    obtain ⟨hdevice, hport, hcontrol, hcomm⟩ := h.quiet hquiet
    have hnone := h.undisturbed hquiet
    refine ⟨.line _ port rfl (.inl rfl) ⟨fun c hc => ?_, fun k hk => ?_, fun x hx => ?_,
      fun x hx => ?_⟩, fun _ _ => ⟨h.pending.latched, h.pending.unconnected, h.pending.asked⟩,
      h.undisturbed, fun _ hattempt => ?_,
      fun hconnected => absurd hconnected h.pending.unconnected⟩
    · obtain ⟨hfirst, hdata | hmem⟩ := h.claims c hc
      · exact ⟨a.device, port, hdevice, hport, .inl (Prod.ext hfirst hdata)⟩
      · exact ⟨a.device, port, hdevice, hport,
          .inr ⟨c.2, hcontrol.trans hmem, Prod.ext hfirst rfl⟩⟩
    · exact ⟨a.device, hdevice, hcomm k (hcontrol.symm.trans hk)⟩
    · have hx : x ∈ s.disconnects := hx
      rw [hnone] at hx
      cases hx
    · have hx : x ∈ s.disconnects := hx
      rw [hnone] at hx
      cases hx
    · cases hattempt

theorem succeed (h : s.Settled) (hpending : s.Pending)
    (hundisturbed : s.intentionalDisconnect = false → s.disconnects = [])
    (hended : s.ended = false) (port : CdcSerialPort) : (s.succeed a port).Sound := by
  refine ⟨.idle rfl ⟨h.held, h.control, h.covers, h.past⟩, fun b hb => ?_, hundisturbed,
    fun hsome => ?_, fun _ => ?_⟩
  · cases hb
  · have hsome : s.ended = true := hsome
    rw [hended] at hsome
    cases hsome
  · cases hasked : s.intentionalDisconnect with
    | true => exact .inr (hpending.asked hasked hended)
    | false =>
      refine .inl ⟨hasked, s.loops.length, ⟨a.device, port⟩, rfl, ?_⟩
      rw [WebUsbSerialTransport.succeed, hasked]
      exact List.getElem?_concat_length

theorem choosePort (hpending : s.Pending)
    (hundisturbed : s.intentionalDisconnect = false → s.disconnects = [])
    (hclaims : ∀ c ∈ s.claims, c.1 = a.device ∧ (c.2 = port.interfaceNumber ∨ c.2 ∈ claimedComm))
    (hquiet : s.intentionalDisconnect = false → s.device = some a.device ∧ ∀ k ∈ claimedComm, (a.device, k) ∈ s.claims)
    (hallowed : s.intentionalDisconnect = true → s.needsAlternate a.device port = false → claimedComm = none) :
    (s.choosePort a port claimedComm).Sound := by
  have hchosen : Chosen { s with port := some port, claimedControlInterface := claimedComm }
      a.device port claimedComm := by
    refine ⟨⟨hpending.latched, hpending.unconnected, hpending.asked⟩, hundisturbed, hclaims,
      .inr rfl, fun hq => ?_⟩
    exact ⟨(hquiet hq).1, rfl, rfl, (hquiet hq).2⟩
  rw [WebUsbSerialTransport.choosePort]
  split_ifs with halternate
  · refine wait hchosen.pending hundisturbed ⟨fun c hc => ?_, .inr ⟨rfl, rfl⟩, fun hq => ?_⟩
      (by simp) (by simp)
    · obtain ⟨hdevice, hdata | hcomm⟩ := hclaims c hc
      · exact ⟨hdevice, List.mem_cons.mpr (.inl hdata)⟩
      · exact ⟨hdevice, List.mem_cons.mpr (.inr (Option.mem_toList.mpr hcomm))⟩
    · refine ⟨(hquiet hq).1, (hquiet hq).2, fun other hother => ?_⟩
      cases hother
      exact ⟨rfl, rfl⟩
  · exact checkAborted hchosen fun hasked => hallowed hasked (Bool.not_eq_true _ ▸ halternate)

variable {device interfaceNumber : ℕ}

theorem mem_claim {c : ℕ × ℕ} :
    c ∈ (s.claim device interfaceNumber).claims ↔
      c = (device, interfaceNumber) ∨ c ∈ s.claims :=
  List.mem_cons

theorem release_nil (h : ∀ c ∈ s.claims, c.1 = device ∧ c.2 ∈ [interfaceNumber]) :
    (s.release device interfaceNumber).claims = [] := by
  refine List.eq_nil_iff_forall_not_mem.mpr fun c hc => ?_
  obtain ⟨hmem, hne⟩ := Settled.mem_release.mp hc
  obtain ⟨hdevice, hinterface⟩ := h c hmem
  exact hne (Prod.ext hdevice (List.mem_singleton.mp hinterface))

theorem control_of_trying (htrying : s.Trying a) (hchosen : a.stage.chosen = none) :
    s.claimedControlInterface = none := by
  obtain hcontrol | ⟨hsome, _⟩ := htrying.control
  · exact hcontrol
  · rw [hchosen] at hsome
    cases hsome

theorem ready_of_trying (htrying : s.Trying a) (hpending : s.Pending)
    (hundisturbed : s.intentionalDisconnect = false → s.disconnects = [])
    (hinterfaces : a.stage.interfaces = []) (hchosen : a.stage.chosen = none) :
    s.Ready a.device := by
  refine ⟨hpending, hundisturbed, ?_, control_of_trying htrying hchosen,
    fun hquiet => (htrying.undisturbed hquiet).1⟩
  refine List.eq_nil_iff_forall_not_mem.mpr fun c hc => ?_
  have hmem := (htrying.claimed c hc).2
  rw [hinterfaces] at hmem
  cases hmem

variable {failure : Option String}

theorem advance_trying (htrying : s.Trying a) (hpending : s.Pending)
    (hundisturbed : s.intentionalDisconnect = false → s.disconnects = [])
    (hattempt : s.attempt = some a) (hcoding : ∀ port, a.stage ≠ .lineCoding port)
    (hlines : ∀ port, a.stage ≠ .controlLines port)
    (hallowed : s.Allowed (.attemptSettles failure)) : (s.advance a failure).Sound := by
  obtain ⟨device, attempts, stage⟩ := a
  cases stage with
  | opening =>
    have hready := ready_of_trying htrying hpending hundisturbed rfl rfl
    cases failure with
    | some message =>
      exact reject hpending hundisturbed hready.claims hready.control message
    | none =>
      exact configure ⟨⟨hpending.latched, hpending.unconnected, hpending.asked⟩, hundisturbed,
        hready.claims, hready.control, hready.device⟩
  | configuring configuration =>
    have hready := ready_of_trying htrying hpending hundisturbed rfl rfl
    cases failure with
    | some message =>
      exact reject hpending hundisturbed hready.claims hready.control message
    | none =>
      exact findPort (s := s.modifyDevice device fun it =>
          { it with configuration := some configuration })
        ⟨⟨hpending.latched, hpending.unconnected, hpending.asked⟩, hundisturbed, hready.claims,
          hready.control, hready.device⟩ configuration
  | claimingControl candidate control rest =>
    have hready := ready_of_trying htrying hpending hundisturbed rfl rfl
    cases failure with
    | some message => exact wait hpending hundisturbed (hready.trying rfl rfl) (by simp) (by simp)
    | none =>
      refine wait (s := s.claim device control)
        ⟨hpending.latched, hpending.unconnected, hpending.asked⟩ hundisturbed
        ⟨fun c hc => ?_, .inl hready.control, fun hquiet => ⟨hready.device hquiet, fun k hk => ?_,
          by simp [Stage.chosen]⟩⟩ (by simp) (by simp)
      · obtain rfl | hc := mem_claim.mp hc
        · exact ⟨rfl, List.mem_singleton_self control⟩
        · rw [hready.claims] at hc
          cases hc
      · cases hk
        exact mem_claim.mpr (.inl rfl)
  | claimingData candidate claimedComm rest =>
    have hcontrol := control_of_trying htrying rfl
    cases failure with
    | none =>
      refine choosePort (s := s.claim device candidate.interfaceNumber)
        ⟨hpending.latched, hpending.unconnected, hpending.asked⟩ hundisturbed (fun c hc => ?_)
        (fun hquiet => ?_) (fun hasked halternate => ?_)
      · obtain rfl | hc := mem_claim.mp hc
        · exact ⟨rfl, .inl rfl⟩
        · obtain ⟨hdevice, hcomm⟩ := htrying.claimed c hc
          exact ⟨hdevice, .inr (Option.mem_toList.mp hcomm)⟩
      · obtain ⟨hdevice, hcomm, _⟩ := htrying.undisturbed hquiet
        exact ⟨hdevice, fun k hk => mem_claim.mpr (.inr (hcomm k hk))⟩
      · exact hallowed _ hattempt rfl hasked halternate
    | some message =>
      cases claimedComm with
      | none =>
        refine nextCandidate ⟨hpending, hundisturbed, ?_, hcontrol,
          fun hquiet => (htrying.undisturbed hquiet).1⟩ candidate message rest
        refine List.eq_nil_iff_forall_not_mem.mpr fun c hc => ?_
        cases (htrying.claimed c hc).2
      | some control =>
        exact wait hpending hundisturbed ⟨htrying.claimed, .inl hcontrol, fun hquiet =>
          ⟨(htrying.undisturbed hquiet).1, by simp [Stage.claimedComm], by simp [Stage.chosen]⟩⟩
          (by simp) (by simp)
  | releasingControl candidate control message rest =>
    have hcontrol := control_of_trying htrying rfl
    exact nextCandidate (s := s.release device control)
      ⟨⟨hpending.latched, hpending.unconnected, hpending.asked⟩, hundisturbed,
        release_nil htrying.claimed, hcontrol, fun hquiet => (htrying.undisturbed hquiet).1⟩
      candidate message rest
  | selecting port claimedComm =>
    have hchosen : Chosen s device port claimedComm := by
      refine ⟨hpending, hundisturbed, fun c hc => ?_, ?_, fun hquiet => ?_⟩
      · obtain ⟨hdevice, hmem⟩ := htrying.claimed c hc
        exact ⟨hdevice, (List.mem_cons.mp hmem).imp id Option.mem_toList.mp⟩
      · exact htrying.control.imp id And.right
      · obtain ⟨hdevice, hcomm, hport⟩ := htrying.undisturbed hquiet
        obtain ⟨hport, hcontrol⟩ := hport port rfl
        exact ⟨hdevice, hport, hcontrol, hcomm⟩
    cases failure with
    | none => exact checkAborted hchosen fun hasked => hallowed _ hattempt (.inr hasked)
    | some message => exact abandon hchosen (hallowed _ hattempt (.inl (by simp))) message
  | lineCoding port => exact absurd rfl (hcoding port)
  | controlLines port => exact absurd rfl (hlines port)
  | abandoning interfaceNumber message =>
    have hcontrol := control_of_trying htrying rfl
    exact reject (s := s.release device interfaceNumber)
      ⟨hpending.latched, hpending.unconnected, hpending.asked⟩ hundisturbed
      (release_nil htrying.claimed) hcontrol message

theorem advance (h : s.Sound) (hattempt : s.attempt = some a)
    (hallowed : s.Allowed (.attemptSettles failure)) : (s.advance a failure).Sound := by
  have hpending := h.pending a hattempt
  cases h.phase with
  | idle hnone =>
    rw [hattempt] at hnone
    cases hnone
  | trying b hb htrying hcoding hlines =>
    cases hattempt.symm.trans hb
    exact advance_trying htrying hpending h.undisturbed hattempt hcoding hlines hallowed
  | line b port hb hstage hsettled =>
    cases hattempt.symm.trans hb
    obtain ⟨device, attempts, stage⟩ := a
    obtain rfl | rfl := hstage
    · refine ⟨.line _ port rfl (.inr rfl)
        ⟨hsettled.held, hsettled.control, hsettled.covers, hsettled.past⟩,
        fun _ _ => ⟨hpending.latched, hpending.unconnected, hpending.asked⟩, h.undisturbed,
        fun _ hnone => ?_, fun hconnected => absurd hconnected hpending.unconnected⟩
      cases hnone
    · exact succeed hsettled hpending h.undisturbed (hallowed _ hattempt) port

theorem idle_of_unlatched (h : s.Sound) (hlatch : s.connectPromise = false) :
    s.attempt = none ∧ s.Settled := by
  have hbusy {a : Attempt} (hattempt : s.attempt = some a) : False := by
    have hlatched := (h.pending a hattempt).latched
    rw [hlatch] at hlatched
    cases hlatched
  cases h.phase with
  | idle hattempt hsettled => exact ⟨hattempt, hsettled⟩
  | trying a hattempt => exact (hbusy hattempt).elim
  | line a port hattempt => exact (hbusy hattempt).elim

theorem start (h : s.Sound) (hlatch : s.connectPromise = false) (hnone : s.disconnects = [])
    (hclaims : s.claims = []) (resolved : Option ℕ) : (s.start resolved).Sound := by
  obtain ⟨hattempt, hsettled⟩ := h.idle_of_unlatched hlatch
  have hcontrol := hsettled.control_of_nil hclaims
  rw [WebUsbSerialTransport.start]
  dsimp only
  split
  · refine ⟨.idle hattempt (Settled.of_nil hclaims hcontrol), fun a ha => ?_, fun _ => hnone,
      fun _ _ => ⟨hclaims, TransportStatus.noConfusion⟩, fun hconnected => ?_⟩
    · cases hattempt.symm.trans ha
    · cases hconnected
  · next d _ =>
    have hready : Ready
        { s with
          device := some d
          status := .connecting
          intentionalDisconnect := false
          connectPromise := true
          ended := false } d :=
      ⟨⟨rfl, TransportStatus.noConfusion, fun hasked => by cases hasked⟩, fun _ => hnone, hclaims,
        hcontrol, fun _ => rfl⟩
    split_ifs
    · exact configure (a := ⟨d, [], .opening⟩) hready
    · exact wait hready.pending hready.undisturbed (Ready.trying (a := ⟨d, [], .opening⟩) hready
        rfl rfl) (by simp) (by simp)

theorem connect (h : s.Sound) {resolved : Option ℕ} (hallowed : s.Allowed (.connect resolved)) :
    (s.connect resolved).Sound := by
  rw [WebUsbSerialTransport.connect]
  split_ifs with hlatch
  · exact h
  · have hunlatched : s.connectPromise = false := Bool.not_eq_true _ ▸ hlatch
    obtain ⟨hnone, hclaims⟩ := hallowed hunlatched
    exact h.start hunlatched hnone hclaims resolved

end Sound

/-! ## The calls of `disconnect()` -/

/-- What a step of a `disconnect()` may change: it waits for something, or it has resolved. -/
structure Closes (s t : WebUsbSerialTransport) : Prop where
  attempt : t.attempt = s.attempt
  latched : t.connectPromise = s.connectPromise
  asked : t.intentionalDisconnect = s.intentionalDisconnect
  claims : ∀ c ∈ t.claims, c ∈ s.claims
  control : t.claimedControlInterface = none ∨
    t.claimedControlInterface = s.claimedControlInterface
  outcome : t.disconnects ≠ [] ∧ t.status = s.status ∧ t.ended = s.ended ∨
    (∃ reason, t.status = .disconnected reason) ∧ t.ended = true

namespace Closes
variable {s : WebUsbSerialTransport}

theorem park (s : WebUsbSerialTransport) (x : Disconnect) : Closes s (s.park x) :=
  ⟨rfl, rfl, rfl, fun _ hc => hc, .inr rfl,
    .inl ⟨List.append_ne_nil_of_right_ne_nil _ (List.cons_ne_nil _ _), rfl, rfl⟩⟩

theorem resolve (s : WebUsbSerialTransport) (x : Disconnect) : Closes s (s.resolve x) :=
  ⟨rfl, rfl, rfl, fun _ hc => hc, .inr rfl, .inr ⟨⟨_, rfl⟩, rfl⟩⟩

theorem releaseData (s : WebUsbSerialTransport) (x : Disconnect) : Closes s (s.releaseData x) := by
  rw [WebUsbSerialTransport.releaseData]
  split_ifs
  · exact park s _
  · exact resolve s x

theorem releaseControl (s : WebUsbSerialTransport) (x : Disconnect) :
    Closes s (s.releaseControl x) := by
  rw [WebUsbSerialTransport.releaseControl]
  split
  · split_ifs
    · exact park s _
    · exact releaseData s x
  · exact releaseData s x

theorem after {r t : WebUsbSerialTransport} (h : Closes r t) (hattempt : r.attempt = s.attempt)
    (hlatched : r.connectPromise = s.connectPromise)
    (hasked : r.intentionalDisconnect = s.intentionalDisconnect)
    (hclaims : ∀ c ∈ r.claims, c ∈ s.claims)
    (hcontrol : r.claimedControlInterface = none ∨ r.claimedControlInterface = s.claimedControlInterface)
    (hstatus : r.status = s.status) (hended : r.ended = s.ended) : Closes s t where
  attempt := h.attempt.trans hattempt
  latched := h.latched.trans hlatched
  asked := h.asked.trans hasked
  claims c hc := hclaims c (h.claims c hc)
  control := by
    obtain hnone | hsame := h.control
    · exact .inl hnone
    · rw [hsame]
      exact hcontrol
  outcome := by
    rw [← hstatus, ← hended]
    exact h.outcome

theorem advanceDisconnect (s : WebUsbSerialTransport) (x : Disconnect) (failure : Option String) :
    Closes s (s.advanceDisconnect x failure) := by
  obtain ⟨device, port, stage, reason⟩ := x
  cases stage with
  | draining =>
    exact (releaseControl _ _).after rfl rfl rfl (fun _ hc => hc) (.inr rfl) rfl rfl
  | releasingControl k =>
    cases device with
    | none => exact (releaseData _ _).after rfl rfl rfl (fun _ hc => hc) (.inl rfl) rfl rfl
    | some e =>
      exact (releaseData _ _).after rfl rfl rfl (fun c hc => (Settled.mem_release.mp hc).1)
        (.inl rfl) rfl rfl
  | releasingData =>
    cases device with
    | none => exact (park _ _).after rfl rfl rfl (fun _ hc => hc) (.inr rfl) rfl rfl
    | some e =>
      cases port with
      | none => exact (park _ _).after rfl rfl rfl (fun _ hc => hc) (.inr rfl) rfl rfl
      | some p =>
        exact (park _ _).after rfl rfl rfl (fun c hc => (Settled.mem_release.mp hc).1) (.inr rfl)
          rfl rfl
  | closing =>
    cases failure with
    | some message => exact (resolve _ _).after rfl rfl rfl (fun _ hc => hc) (.inr rfl) rfl rfl
    | none =>
      cases device with
      | none => exact resolve s _
      | some e =>
        exact (resolve _ _).after rfl rfl rfl (fun c hc => List.mem_of_mem_filter hc) (.inr rfl) rfl
          rfl

end Closes

namespace Sound
variable {s t : WebUsbSerialTransport}

theorem close (h : s.Sound) {r : WebUsbSerialTransport} (hcloses : Closes r t)
    (hasked : r.intentionalDisconnect = true) (hattempt : r.attempt = s.attempt)
    (hlatched : r.connectPromise = s.connectPromise) (hclaims : r.claims = s.claims)
    (hcontrol : r.claimedControlInterface = s.claimedControlInterface)
    (hstatus : r.status = s.status) (hended : r.ended = s.ended)
    (hsettled : s.Settled → t.Settled ∧ (t.ended = true → r.ended = true ∨ t.claims = [])) :
    t.Sound := by
  have hsubset : s.claims = [] → t.claims = [] := by
    intro hnil
    refine List.eq_nil_iff_forall_not_mem.mpr fun c hc => ?_
    have hmem := hcloses.claims c hc
    rw [hclaims, hnil] at hmem
    cases hmem
  have htasked : t.intentionalDisconnect = true := hcloses.asked.trans hasked
  have htattempt : t.attempt = s.attempt := hcloses.attempt.trans hattempt
  have houtcome := hcloses.outcome
  rw [hstatus, hended] at houtcome
  refine ⟨?_, fun a ha => ⟨?_, ?_, fun _ hunended => ?_⟩, fun hquiet => ?_, fun htended hnone => ?_,
    fun hconnected => ?_⟩
  · cases h.phase with
    | idle hnone hs => exact .idle (htattempt.trans hnone) (hsettled hs).1
    | line a port hsome hstage hs =>
      exact .line a port (htattempt.trans hsome) hstage (hsettled hs).1
    | trying a hsome htrying hcoding hlines =>
      refine .trying a (htattempt.trans hsome) ⟨fun c hc => ?_, ?_, fun hquiet => ?_⟩ hcoding hlines
      · exact htrying.claimed c (hclaims ▸ hcloses.claims c hc)
      · obtain hnone | hsame := hcloses.control
        · exact .inl hnone
        · rw [hsame, hcontrol]
          exact htrying.control
      · rw [htasked] at hquiet
        cases hquiet
  · exact (hcloses.latched.trans hlatched).trans (h.pending a (htattempt.symm.trans ha)).latched
  · obtain ⟨_, hsame, _⟩ | ⟨⟨reason, hreason⟩, _⟩ := houtcome
    · rw [hsame]
      exact (h.pending a (htattempt.symm.trans ha)).unconnected
    · rw [hreason]
      exact TransportStatus.noConfusion
  · obtain ⟨hwaits, _⟩ | ⟨_, hyes⟩ := houtcome
    · exact hwaits
    · rw [hunended] at hyes
      cases hyes
  · rw [htasked] at hquiet
    cases hquiet
  · obtain ⟨hidle, hs⟩ : s.attempt = none ∧ s.Settled := by
      cases h.phase with
      | idle hidle hs => exact ⟨hidle, hs⟩
      | line a port hsome => cases (hnone.symm.trans htattempt).trans hsome
      | trying a hsome => cases (hnone.symm.trans htattempt).trans hsome
    obtain ⟨_, hsame, hkept⟩ | ⟨⟨reason, hreason⟩, _⟩ := houtcome
    · obtain ⟨hnil, hunconnected⟩ := h.released (hkept.symm.trans htended) hidle
      exact ⟨hsubset hnil, hsame ▸ hunconnected⟩
    · refine ⟨?_, hreason ▸ TransportStatus.noConfusion⟩
      obtain hyes | hnil := (hsettled hs).2 htended
      · exact hsubset (h.released (hended.symm.trans hyes) hidle).1
      · exact hnil
  · obtain ⟨hwaits, _⟩ | ⟨⟨reason, hreason⟩, _⟩ := houtcome
    · exact .inr hwaits
    · rw [hreason] at hconnected
      cases hconnected

theorem asked (h : s.Settled) : Settled { s with intentionalDisconnect := true } :=
  ⟨h.held, h.control, h.covers, h.past⟩

theorem disconnect (h : s.Sound) : s.disconnect.Sound := by
  rw [WebUsbSerialTransport.disconnect]
  have hcovers (hs : s.Settled) : ∀ c ∈ s.claims, ∃ d p, s.device = some d ∧ s.port = some p ∧
      s.device = some d ∧ s.port = some p := by
    intro c hc
    obtain ⟨d, p, hdevice, hport, _⟩ := hs.held c hc
    exact ⟨d, p, hdevice, hport, hdevice, hport⟩
  split_ifs
  · refine h.close (Closes.park { s with intentionalDisconnect := true } _) rfl rfl rfl rfl rfl rfl
      rfl fun hs => ⟨(asked hs).park (fun c hc => ?_) (by simp), .inl⟩
    obtain ⟨d, p, hdevice, hport, _⟩ := hcovers hs c hc
    exact ⟨d, p, hdevice, hport, hdevice, hport, trivial⟩
  · exact h.close (Closes.releaseControl { s with intentionalDisconnect := true } _) rfl rfl rfl rfl
      rfl rfl rfl fun hs => (asked hs).releaseControl (hcovers hs)

theorem disconnectSettles (h : s.Sound) {place : ℕ} {x : Disconnect}
    (hget : s.disconnects[place]? = some x) (failure : Option String) :
    ({ s with disconnects := s.disconnects.eraseIdx place }.advanceDisconnect x failure).Sound := by
  have hmem : x ∈ s.disconnects := List.mem_of_getElem? hget
  have hasked : s.intentionalDisconnect = true := by
    cases hquiet : s.intentionalDisconnect with
    | true => rfl
    | false =>
      rw [h.undisturbed hquiet] at hmem
      cases hmem
  refine h.close (Closes.advanceDisconnect _ x failure) hasked rfl rfl rfl rfl rfl rfl fun hs => ?_
  have hrest : Settled { s with disconnects := s.disconnects.eraseIdx place } :=
    ⟨hs.held, hs.control, fun y hy => hs.covers y (List.mem_of_mem_eraseIdx hy),
      fun y hy => hs.past y (List.mem_of_mem_eraseIdx hy)⟩
  exact hrest.advanceDisconnect failure (hs.covers x hmem) (hs.past x hmem)

/-! ## The read loops -/

theorem loop (h : s.Sound) {status : TransportStatus} {loops : List (Option ReadLoop)}
    {delivered : List Bytes} (hstatus : status = s.status ∨ status ≠ .connected)
    (hloops : status = .connected → s.intentionalDisconnect = false → loops = s.loops) :
    Sound { s with status := status, loops := loops, delivered := delivered } := by
  have hunconnected : s.status ≠ .connected → status ≠ .connected := by
    intro hne
    obtain rfl | hother := hstatus
    · exact hne
    · exact hother
  refine ⟨?_, fun a ha => ?_, h.undisturbed, fun hended hnone => ?_, fun hconnected => ?_⟩
  · cases h.phase with
    | idle hnone hs => exact .idle hnone ⟨hs.held, hs.control, hs.covers, hs.past⟩
    | line a port hsome hstage hs =>
      exact .line a port hsome hstage ⟨hs.held, hs.control, hs.covers, hs.past⟩
    | trying a hsome ht hcoding hlines =>
      exact .trying a hsome ⟨ht.claimed, ht.control, ht.undisturbed⟩ hcoding hlines
  · have hpending := h.pending a ha
    exact ⟨hpending.latched, hunconnected hpending.unconnected, hpending.asked⟩
  · obtain ⟨hnil, hne⟩ := h.released hended hnone
    exact ⟨hnil, hunconnected hne⟩
  · have hconnected : status = .connected := hconnected
    have hbefore : s.status = .connected := by
      obtain rfl | hother := hstatus
      · exact hconnected
      · exact absurd hconnected hother
    obtain ⟨hquiet, hreading⟩ | hwaits := h.listening hbefore
    · rw [← hloops hconnected hquiet] at hreading
      exact .inl ⟨hquiet, hreading⟩
    · exact .inr hwaits

theorem advanceLoop (h : s.Sound) (i : ℕ) (result : TransferResult) :
    (s.advanceLoop i result).Sound := by
  unfold WebUsbSerialTransport.advanceLoop
  split_ifs with hasked
  · refine h.loop (.inl rfl) fun _ hquiet => ?_
    rw [hasked] at hquiet
    cases hquiet
  · cases result with
    | data bytes =>
      dsimp only
      split_ifs
      · exact h
      · exact h.loop (.inl rfl) fun _ _ => rfl
    | stall => exact h.loop (.inr TransportStatus.noConfusion) fun hconnected => by cases hconnected
    | failed message =>
      exact h.loop (.inr TransportStatus.noConfusion) fun hconnected => by cases hconnected

theorem step (h : s.Sound) {e : Event} (hallowed : s.Allowed e) (hstep : s.step e = some t) :
    t.Sound := by
  cases e with
  | connect resolved =>
    cases hstep
    exact h.connect hallowed
  | attemptSettles failure =>
    obtain ⟨a, hattempt, rfl⟩ := Option.map_eq_some_iff.mp hstep
    exact h.advance hattempt hallowed
  | connectSettled =>
    rw [WebUsbSerialTransport.step] at hstep
    split_ifs at hstep with hdone
    cases hstep
    have hnone := Option.isNone_iff_eq_none.mp hdone.2
    refine ⟨?_, fun a ha => ?_, h.undisturbed, h.released, h.listening⟩
    · cases h.phase with
      | idle hidle hs => exact .idle hidle ⟨hs.held, hs.control, hs.covers, hs.past⟩
      | line a port hsome => cases hnone.symm.trans hsome
      | trying a hsome => cases hnone.symm.trans hsome
    · cases hnone.symm.trans ha
  | disconnect =>
    cases hstep
    exact h.disconnect
  | disconnectSettles place failure =>
    obtain ⟨x, hget, rfl⟩ := Option.map_eq_some_iff.mp hstep
    exact h.disconnectSettles hget failure
  | transferSettles loop result =>
    obtain ⟨reading, _, rfl⟩ := Option.map_eq_some_iff.mp hstep
    exact h.advanceLoop loop result

end Sound

theorem sound_new (deviceOption : DeviceOption) (portIndex : ℤ) (devices : ℕ → UsbDevice) :
    (new deviceOption portIndex devices).Sound := by
  refine ⟨.idle rfl (Settled.of_nil rfl rfl), fun a ha => ?_, fun _ => rfl, fun hended => ?_,
    fun hconnected => ?_⟩
  · cases ha
  · cases hended
  · cases hconnected

/-- In a run whose steps are all allowed, what the transport claims is released and a connected
transport listens. -/
theorem claims_hygienic {deviceOption : DeviceOption} {portIndex : ℤ} {devices : ℕ → UsbDevice}
    {events : List Event} {s : WebUsbSerialTransport}
    (hallowed : Runs.Along step Allowed (new deviceOption portIndex devices) events)
    (hrun : Runs.run step (new deviceOption portIndex devices) events = some s) : s.Hygienic :=
  (Runs.run_invariant_along (fun _ _ _ h hallowed hstep => h.step hallowed hstep)
    (sound_new deviceOption portIndex devices) hallowed hrun).hygienic

/-! ## A board -/

/-- A board with one serial port: interface 0 controls it, interface 1 carries its data. -/
def board : UsbDevice where
  opened := false
  configuration := some ⟨1, [⟨0, ⟨0, USB_CLASS_CDC, []⟩, none⟩,
    ⟨1, ⟨0, USB_CLASS_CDC_DATA, [⟨1, .input, .bulk⟩, ⟨1, .output, .bulk⟩]⟩, none⟩]⟩
  configurations := []
  selectsAlternates := true

def session : List Event :=
  [.connect none, .attemptSettles none, .attemptSettles none, .attemptSettles none,
    .attemptSettles none, .attemptSettles none, .connectSettled, .transferSettles 0 (.data [0xFD]),
    .disconnect, .disconnectSettles 0 none, .disconnectSettles 0 none, .disconnectSettles 0 none,
    .disconnectSettles 0 none]

theorem session_hygienic :
    ∃ s, Runs.run step (new (.fixed (some 0)) 0 fun _ => board) session = some s ∧ s.Hygienic := by
  have hallowed : Runs.Along step Allowed (new (.fixed (some 0)) 0 fun _ => board) session := by
    decide
  exact ⟨_, rfl, claims_hygienic hallowed rfl⟩

/-- A `disconnect()` while the device is opened leaves the control interface claimed, and one while
the line is configured a transport that is connected but does not read. -/
theorem disconnect_leaves_claim :
    (∃ s, Runs.run step (new (.fixed (some 0)) 0 fun _ => board)
        [.connect none, .disconnect, .attemptSettles none, .attemptSettles none,
          .attemptSettles none, .attemptSettles none] = some s ∧
      s.attempt.isNone ∧ s.claims = [(0, 0)] ∧ ¬ s.Hygienic) ∧
    ∃ s, Runs.run step (new (.fixed (some 0)) 0 fun _ => board)
        [.connect none, .attemptSettles none, .attemptSettles none, .attemptSettles none,
          .disconnect, .disconnectSettles 0 none, .disconnectSettles 0 none,
          .disconnectSettles 0 none, .attemptSettles none, .attemptSettles none] = some s ∧
      s.status = .connected ∧ s.disconnects = [] ∧ s.loops = [none] ∧ ¬ s.Hygienic := by
  refine ⟨⟨_, rfl, rfl, rfl, fun h => ?_⟩, ⟨_, rfl, rfl, rfl, rfl, fun h => ?_⟩⟩
  · cases (h.released rfl rfl).1
  · exact (h.released rfl rfl).2 rfl

end WebUsbSerialTransport

end ArduConfigurator.Transport.WebUsb
