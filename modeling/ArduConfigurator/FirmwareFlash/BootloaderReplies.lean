import ArduConfigurator.FirmwareFlash.Bootloader

/-! # Whose reply a command is completed by

The replies of the bootloader carry no name of their command, so a command should take for its reply
only what arrives after it was written. A command that discards the unread bytes first does; the
chip erase and a chunk that is sent again do not discard them, nor does any command over a serial
that cannot. -/
namespace ArduConfigurator.FirmwareFlash.BootloaderClient
open Effects
set_option autoImplicit false

/-! ## Replies and stray bytes -/

def LinkEvent.own : LinkEvent → Prop
  | .took reply since => ∀ b ∈ reply, since < b.writes
  | _ => True

def OwnReplies (log : List LinkEvent) : Prop := ∀ e ∈ log, e.own

/-- The bytes hold an acknowledgement, or the first byte of one at their end, as the polling of the
chip erase reads them. -/
def ackIn : List ℕ → Bool
  | [] => false
  | [head] => head = INSYNC
  | head :: status :: rest =>
    if head = INSYNC then
      if status = OK then true
      else if status = BAD_SILICON_REV ∨ status = INVALID ∨ status = FAILED then false
      else ackIn rest
    else ackIn (status :: rest)

def beginsAck : List ℕ → Bool
  | [] => false
  | [head] => head = INSYNC
  | head :: status :: _ => head = INSYNC ∧ status = OK

def repliesWithData (frames : List (List ℕ)) : Bool :=
  frames.flatten.head? = some GET_CRC ∨ frames.flatten.head? = some EXTF_GET_CRC ∨
    frames.flatten.head? = some READ_MULTI

def strayReply (unread : List ℕ) (frames : List (List ℕ)) : Bool :=
  if frames = [[CHIP_ERASE, EOC]] then ackIn unread
  else if repliesWithData frames then unread ≠ []
  else beginsAck unread

def LinkEvent.unstrayed : LinkEvent → Prop
  | .begins unread frames => strayReply unread frames = false
  | _ => True

instance : DecidablePred LinkEvent.unstrayed
  | .begins unread frames => inferInstanceAs (Decidable (strayReply unread frames = false))
  | .wrote _ _ => isTrue trivial
  | .took _ _ => isTrue trivial

/-- No command was begun over unread bytes that could pass for its reply. -/
def Unstrayed (log : List LinkEvent) : Prop := ∀ e ∈ log, e.unstrayed

variable {log : List LinkEvent} {e : LinkEvent}

theorem OwnReplies.snoc (h : OwnReplies log) (he : e.own) :
    OwnReplies (log ++ [e]) := by
  intro e' he'
  rcases List.mem_append.mp he' with he' | he'
  · exact h e' he'
  · rwa [List.mem_singleton.mp he']

theorem unstrayed_snoc :
    Unstrayed (log ++ [e]) ↔ Unstrayed log ∧ e.unstrayed := by
  simp [Unstrayed, or_imp, forall_and]

/-! ## Rules for the line -/

variable {δ : Type} {io : BootloaderSerial δ} {α : Type} {P X : Link δ → Prop}
  {Q : α → Link δ → Prop} {q : List ℕ → Prop}

/-- The assertion holds unless a command was begun over bytes that could pass for its reply. -/
def Under (P : Link δ → Prop) (s : Link δ) : Prop := Unstrayed s.log → P s

variable {s : Link δ}

theorem Under.mono {P' : Link δ → Prop} (h : Under P s) (himp : P s → P' s) :
    Under P' s := fun hlog => himp (h hlog)

variable {m : Client δ α}

theorem triple_under (h : Triple P m Q X) (hlog : ∀ s, Unstrayed (m s).2.log → Unstrayed s.log) :
    Triple (Under P) m (fun a => Under (Q a)) (Under X) := by
  intro s hs
  have hbefore := hlog s
  have hrun := h s
  revert hbefore hrun
  cases m s with
  | mk outcome t =>
    intro hbefore hrun
    cases outcome <;> exact fun hafter => hrun (hs (hbefore hafter))

def Own (s : Link δ) : Prop := OwnReplies s.log

/-- The unread bytes are old ones, of which `q` is said, and after them bytes that arrived since the
command was begun. -/
structure Strays (q : List ℕ → Prop) (s : Link δ) : Prop where
  own : Own s
  began : s.since < s.writes
  split : ∃ old new, s.input = old ++ new ∧ q (old.map Inbound.byte) ∧
    ∀ b ∈ new, s.since < b.writes

abbrev Fresh : Link δ → Prop := Strays (· = [])

def Recent (reply : List Inbound) (s : Link δ) : Prop := ∀ b ∈ reply, s.since < b.writes

theorem Strays.mono {q' : List ℕ → Prop} (h : Strays q s) (himp : ∀ l, q l → q' l) :
    Strays q' s := by
  obtain ⟨old, new, hinput, hold, hnew⟩ := h.split
  exact ⟨h.own, h.began, old, new, hinput, himp _ hold, hnew⟩

theorem Strays.fresh_input (h : Fresh s) : ∀ b ∈ s.input, s.since < b.writes := by
  obtain ⟨old, new, hinput, hold, hnew⟩ := h.split
  rw [List.map_eq_nil_iff] at hold
  rwa [hinput, hold, List.nil_append]

theorem fresh_of (hown : Own s) (hbegan : s.since < s.writes)
    (hinput : ∀ b ∈ s.input, s.since < b.writes) : Fresh s :=
  ⟨hown, hbegan, [], s.input, rfl, rfl, hinput⟩

theorem mem_arrivals {bytes : List ℕ} {writes : ℕ} {b : Inbound} (h : b ∈ arrivals bytes writes) :
    b.writes = writes := by
  obtain ⟨byte, -, rfl⟩ := List.mem_map.mp h
  rfl

theorem triple_read_fresh (reply : List Inbound) (n timeoutMs : ℕ) :
    Triple (fun s => Fresh s ∧ Recent reply s) (read io n timeoutMs)
      (fun more s => Fresh s ∧ Recent (reply ++ more) s) fun s => Fresh s ∧ Recent reply s := by
  rintro s ⟨hfresh, hreply⟩
  have hall : ∀ b ∈ s.input ++ arrivals (io.wait n timeoutMs s.line).arrived s.writes,
      s.since < b.writes := by
    intro b hb
    rcases List.mem_append.mp hb with hb | hb
    · exact hfresh.fresh_input b hb
    · rw [mem_arrivals hb]
      exact hfresh.began
  rw [read]
  simp only
  split_ifs with hlen
  · refine ⟨fresh_of hfresh.own hfresh.began fun b hb => hall b (List.mem_of_mem_drop hb), ?_⟩
    intro b hb
    rcases List.mem_append.mp hb with hb | hb
    · exact hreply b hb
    · exact hall b (List.mem_of_mem_take hb)
  · exact ⟨fresh_of hfresh.own hfresh.began hall, hreply⟩

theorem triple_read_byte (timeoutMs : ℕ) :
    Triple (Strays q) (read io 1 timeoutMs)
      (fun head s => (q [] ∧ Fresh s ∧ Recent head s) ∨
        Strays (fun rest => q (firstByte head :: rest)) s)
      fun s => q [] ∧ Fresh s := by
  intro s hs
  obtain ⟨old, new, hinput, hold, hnew⟩ := hs.split
  have hall : ∀ b ∈ new ++ arrivals (io.wait 1 timeoutMs s.line).arrived s.writes,
      s.since < b.writes := by
    intro b hb
    rcases List.mem_append.mp hb with hb | hb
    · exact hnew b hb
    · rw [mem_arrivals hb]
      exact hs.began
  rw [read, hinput, List.append_assoc]
  generalize new ++ arrivals (io.wait 1 timeoutMs s.line).arrived s.writes = fresh at hall
  cases old with
  | nil =>
    simp only [List.nil_append]
    split_ifs with hlen
    · exact .inl ⟨hold, fresh_of hs.own hs.began fun b hb => hall b (List.mem_of_mem_drop hb),
        fun b hb => hall b (List.mem_of_mem_take hb)⟩
    · exact ⟨hold, fresh_of hs.own hs.began hall⟩
  | cons a old =>
    rw [if_pos (by simp)]
    exact .inr ⟨hs.own, hs.began, old, fresh, rfl, hold, hall⟩

theorem triple_took (reply : List Inbound) :
    Triple (fun s : Link δ => Fresh s ∧ Recent reply s) (took reply) (fun _ => Fresh) X := by
  rintro s ⟨hfresh, hreply⟩
  exact fresh_of (hfresh.own.snoc hreply) hfresh.began hfresh.fresh_input

/-! ## Acknowledgements -/

def Grows (m : Client δ α) : Prop :=
  ∀ l, Triple (fun s => l <+: s.log) m (fun _ s => l <+: s.log) fun s => l <+: s.log

theorem Unstrayed.of_prefix {l : List LinkEvent} (h : Unstrayed log) (hlog : l <+: log) :
    Unstrayed l :=
  fun e he => h e (hlog.subset he)

theorem Grows.under (hgrows : Grows m) (h : Triple P m Q X) :
    Triple (Under P) m (fun a => Under (Q a)) (Under X) := by
  refine triple_under h fun s hs => ?_
  have hprefix := hgrows s.log s List.prefix_rfl
  revert hprefix hs
  cases m s with
  | mk outcome t => cases outcome <;> exact fun hs hprefix => hs.of_prefix hprefix

theorem grows_read (n timeoutMs : ℕ) : Grows (read io n timeoutMs) := by
  intro l s hs
  rw [read]
  simp only
  split_ifs
  · exact hs
  · exact hs

theorem grows_took (reply : List Inbound) : Grows (took reply : Client δ Unit) :=
  fun _ _ hs => hs.trans (List.prefix_append _ _)

theorem grows_getSync (timeoutMs : ℕ) : Grows (getSync io timeoutMs) := by
  intro l
  refine (grows_read 1 timeoutMs l).bind fun head => ?_
  split_ifs
  · exact triple_throw fun _ => id
  refine (grows_read 1 timeoutMs l).bind fun status => ?_
  split_ifs
  · exact triple_throw fun _ => id
  · exact triple_throw fun _ => id
  · exact triple_throw fun _ => id
  · exact triple_throw fun _ => id
  · exact grows_took _ l

theorem Grows.attempt (h : Grows m) : Grows (attempt m) := fun l =>
  Triple.catchError ((h l).bind fun _ => triple_ret fun _ => id) (fun _ => triple_ret fun _ => id)
    fun _ => id

theorem grows_trySync : Grows (trySync io) := by
  intro l
  refine ((grows_read 1 1000).attempt l).bind fun head => ?_
  cases head with
  | none => exact triple_ret fun _ => id
  | some head =>
    simp only
    split_ifs
    · exact triple_ret fun _ => id
    refine ((grows_read 1 1000).attempt l).bind fun status => ?_
    cases status with
    | none => exact triple_ret fun _ => id
    | some status =>
      simp only
      split_ifs
      · exact triple_throw fun _ => id
      · exact triple_throw fun _ => id
      · exact triple_throw fun _ => id
      · exact (grows_took _ l).bind fun _ => triple_ret fun _ => id
      · exact triple_ret fun _ => id

theorem triple_read_status (head : List Inbound) (timeoutMs : ℕ) (hq : ¬ q []) :
    Triple (fun s => (Fresh s ∧ Recent head s) ∨ Strays q s) (read io 1 timeoutMs)
      (fun status s => (Fresh s ∧ Recent (head ++ status) s) ∨
        Strays (fun rest => q (firstByte status :: rest)) s) Fresh := by
  refine ((triple_read_fresh head 1 timeoutMs).or (triple_read_byte timeoutMs)).conseq
    (fun _ => id) (fun status s hs => ?_) fun s hs => ?_
  · rcases hs with hs | ⟨hnil, -⟩ | hs
    · exact .inl hs
    · exact absurd hnil hq
    · exact .inr hs
  · rcases hs with hs | hs
    · exact hs.1
    · exact hs.2

theorem triple_getSync_strays (timeoutMs : ℕ) :
    Triple (Strays (beginsAck · = false)) (getSync io timeoutMs) (fun _ => Fresh) Own := by
  refine ((triple_read_byte timeoutMs).conseq (fun _ => id) (fun _ _ => id)
    fun s hs => hs.2.own).bind fun head => ?_
  by_cases hhead : firstByte head = INSYNC
  swap
  · rw [if_pos hhead]
    exact triple_throw fun s hs => hs.elim (·.2.1.own) (·.own)
  rw [if_neg (not_not.mpr hhead), hhead]
  have hstatus : Triple _ (read io 1 timeoutMs) _ _ :=
    triple_read_status (q := fun rest => beginsAck (INSYNC :: rest) = false) head timeoutMs
      (by decide)
  refine (hstatus.conseq (fun s hs => hs.imp_left And.right) (fun _ _ => id)
    fun s hs => hs.own).bind fun status => ?_
  have hown (s : Link δ) (hs : (Fresh s ∧ Recent (head ++ status) s) ∨
      Strays (fun rest => beginsAck (INSYNC :: firstByte status :: rest) = false) s) : Own s :=
    hs.elim (·.1.own) (·.own)
  split_ifs with hinvalid hfailed hbad hok
  · exact triple_throw hown
  · exact triple_throw hown
  · exact triple_throw hown
  · exact triple_throw hown
  refine (triple_took (head ++ status)).pre fun s hs => ?_
  rcases hs with hs | hs
  · exact hs
  · obtain ⟨old, new, -, hold, -⟩ := hs.split
    rw [not_not] at hok
    simp [beginsAck, hok] at hold

theorem triple_trySync_strays (io : BootloaderSerial δ) :
    Triple (Strays (ackIn · = false)) (trySync io)
      (fun answered s => Own s ∧ (answered = false → Strays (ackIn · = false) s)) Own := by
  have hfresh {s : Link δ} (hs : Fresh s) : Strays (ackIn · = false) s := hs.mono fun l hl => by
    rw [hl]
    rfl
  have hread : Triple (Strays (ackIn · = false)) (attempt (read io 1 1000))
      (fun head s => (head = none → Fresh s) ∧ ∀ b, head = some b →
        (Fresh s ∧ Recent b s) ∨ Strays (fun rest => ackIn (firstByte b :: rest) = false) s) Own := by
    refine Triple.catchError (Y := Fresh) (((triple_read_byte 1000).conseq (fun _ => id)
      (fun _ _ => id) fun s hs => hs.2).bind fun head => triple_ret fun s hs => ?_)
      (fun _ => triple_ret fun s hs => ⟨fun _ => hs, nofun⟩) fun s hs => hs.own
    refine ⟨nofun, ?_⟩
    rintro b ⟨⟩
    exact hs.imp_left And.right
  refine hread.bind fun head => ?_
  cases head with
  | none => exact triple_ret fun s hs => ⟨(hs.1 rfl).own, fun _ => hfresh (hs.1 rfl)⟩
  | some head =>
    simp only
    by_cases hhead : firstByte head = INSYNC
    swap
    · rw [if_pos hhead]
      refine triple_ret fun s hs => ?_
      rcases hs.2 head rfl with ⟨hs, -⟩ | hs
      · exact ⟨hs.own, fun _ => hfresh hs⟩
      · refine ⟨hs.own, fun _ => hs.mono fun rest hrest => ?_⟩
        cases rest with
        | nil => rfl
        | cons status rest => rwa [ackIn, if_neg hhead] at hrest
    rw [if_neg (not_not.mpr hhead)]
    have hstatus : Triple (fun s => (Fresh s ∧ Recent head s) ∨
          Strays (fun rest => ackIn (INSYNC :: rest) = false) s) (attempt (read io 1 1000))
        (fun status s => (status = none → Fresh s) ∧ ∀ b, status = some b →
          (Fresh s ∧ Recent (head ++ b) s) ∨
            Strays (fun rest => ackIn (INSYNC :: firstByte b :: rest) = false) s) Own := by
      refine Triple.catchError (Y := Fresh) ((triple_read_status head 1000 (by decide)).bind
        fun status => triple_ret fun s hs => ⟨nofun, ?_⟩)
        (fun _ => triple_ret fun s hs => ⟨fun _ => hs, nofun⟩) fun s hs => hs.own
      rintro b ⟨⟩
      exact hs
    refine (hstatus.pre fun s hs => by simpa only [hhead] using hs.2 head rfl).bind fun status => ?_
    cases status with
    | none => exact triple_ret fun s hs => ⟨(hs.1 rfl).own, fun _ => hfresh (hs.1 rfl)⟩
    | some status =>
      refine Triple.pre (P := fun s => (Fresh s ∧ Recent (head ++ status) s) ∨
        Strays (fun rest => ackIn (INSYNC :: firstByte status :: rest) = false) s) ?_
          fun s hs => hs.2 status rfl
      have hown (s : Link δ) (hs : (Fresh s ∧ Recent (head ++ status) s) ∨
          Strays (fun rest => ackIn (INSYNC :: firstByte status :: rest) = false) s) : Own s :=
        hs.elim (·.1.own) (·.own)
      simp only
      split_ifs with hbad hinvalid hfailed hok
      · exact triple_throw hown
      · exact triple_throw hown
      · exact triple_throw hown
      · refine Triple.bind (Q := fun _ => Fresh) ((triple_took (head ++ status)).pre fun s hs => ?_)
          fun _ => triple_ret fun s hs => ⟨hs.own, nofun⟩
        rcases hs with hs | hs
        · exact hs
        · obtain ⟨old, new, -, hold, -⟩ := hs.split
          simp [ackIn, hok] at hold
      · refine triple_ret fun s hs => ⟨hown s hs, fun _ => ?_⟩
        rcases hs with ⟨hs, -⟩ | hs
        · exact hfresh hs
        · refine hs.mono fun rest hrest => ?_
          rw [ackIn, if_pos rfl, if_neg hok, if_neg (by tauto)] at hrest
          exact hrest

/-! ## Sending -/

theorem Fresh.strays (h : Fresh s) (hnil : q []) : Strays q s :=
  Strays.mono h fun l hl => by rwa [hl]

theorem under_own (h : Under (Strays q) s) : Under Own s := h.mono Strays.own

theorem unstrayed_wrote {frame : List ℕ} {accepted : Bool} :
    Unstrayed (log ++ [.wrote frame accepted]) ↔ Unstrayed log :=
  unstrayed_snoc.trans (and_iff_left trivial)

theorem triple_write_own (frame : List ℕ) :
    Triple (Under Own) (write io frame) (fun _ => Under Own) (Under Own) := by
  intro s hs
  have hnext : Under Own (write io frame s).2 := fun hlog =>
    (hs (unstrayed_wrote.mp hlog)).snoc trivial
  rw [write] at hnext ⊢
  simp only at hnext ⊢
  cases (io.write frame s.line).result <;> exact hnext

structure Sending (q : List ℕ → Prop) (finished : ℕ) (s : Link δ) : Prop where
  own : Own s
  writes : s.since + finished = s.writes
  split : ∃ old new, s.input = old ++ new ∧ q (old.map Inbound.byte) ∧
    ∀ b ∈ new, s.since < b.writes

theorem triple_write_sending (frame : List ℕ) (finished : ℕ) :
    Triple (Under (Sending q finished)) (write io frame)
      (fun _ => Under (Sending q (finished + 1))) (Under Own) := by
  intro s hs
  have hnext : Under (Sending q (finished + 1)) (write io frame s).2 := fun hlog => by
    obtain ⟨hown, hwrites, old, new, hinput, hold, hnew⟩ := hs (unstrayed_wrote.mp hlog)
    refine ⟨hown.snoc trivial, by simp only [write]; omega, old,
      new ++ arrivals (io.write frame s.line).arrived (s.writes + 1), ?_, hold, fun b hb => ?_⟩
    · simp only [write]
      rw [hinput, List.append_assoc]
    · rcases List.mem_append.mp hb with hb | hb
      · exact hnew b hb
      · rw [mem_arrivals hb]
        simp only [write]
        omega
  have hown := hnext.mono Sending.own
  rw [write] at hnext hown ⊢
  simp only at hnext hown ⊢
  cases (io.write frame s.line).result
  · exact hown
  · exact hnext

variable {frames : List (List ℕ)}

theorem triple_send (hframes : frames ≠ []) :
    Triple (Under Own) (send io frames)
      (fun _ => Under (Strays (strayReply · frames = false))) (Under Own) := by
  have hbegins : Triple (Under Own) (begins frames : Client δ Unit)
      (fun _ => Under (Sending (strayReply · frames = false) 0)) (Under Own) := by
    intro s hs hlog
    obtain ⟨hbefore, hevent⟩ := unstrayed_snoc.mp hlog
    exact ⟨(hs hbefore).snoc trivial, rfl, s.input, [], by simp, hevent, by simp⟩
  refine hbegins.bind fun _ => ?_
  have hwrites : Triple _ (Prog.forEach (write io) frames) _ _ := triple_forEach (X := Under Own)
    (I := fun finished => Under (Sending (strayReply · frames = false) finished.length)) frames []
      fun before frame _ => by simpa using triple_write_sending frame before.length
  refine hwrites.post fun _ s hs => hs.mono fun h => ?_
  have hpos := List.length_pos_of_ne_nil hframes
  exact ⟨h.own, by have := h.writes; simp only [List.nil_append] at this; omega, h.split⟩

theorem triple_flushInput : Triple (Under Own) (flushInput io) (fun _ => Under Own) (Under Own) := by
  intro s hs
  rw [flushInput]
  cases io.flushInput with
  | none => exact hs
  | some discard =>
    simp only
    cases discard s.line with
    | mk result line => cases result <;> exact hs

/-! ## The commands -/

theorem triple_getSync_own (timeoutMs : ℕ) :
    Triple (Under (Strays (beginsAck · = false))) (getSync io timeoutMs) (fun _ => Under Fresh)
      (Under Own) :=
  (grows_getSync timeoutMs).under (triple_getSync_strays timeoutMs)

theorem triple_getSync_fresh (timeoutMs : ℕ) :
    Triple (Under Fresh) (getSync io timeoutMs) (fun _ => Under Own) (Under Own) :=
  (triple_getSync_own timeoutMs).conseq (fun _ hs => hs.mono fun h => h.strays rfl)
    (fun _ _ => under_own) fun _ => id

theorem triple_readReply (n timeoutMs : ℕ) :
    Triple (Under Fresh) (readReply io n timeoutMs) (fun _ => Under Fresh) (Under Own) := by
  have hread : Triple Fresh (read io n timeoutMs) (fun reply s => Fresh s ∧ Recent reply s) Own :=
    (triple_read_fresh [] n timeoutMs).conseq (fun _ hs => ⟨hs, nofun⟩) (fun _ _ hs => hs)
      fun _ hs => hs.1.own
  refine ((grows_read n timeoutMs).under hread).bind fun reply => ?_
  have htook : Triple (fun s => Fresh s ∧ Recent reply s) (took reply : Client δ Unit)
      (fun _ => Fresh) Own := triple_took reply
  exact ((grows_took reply).under htook).bind fun _ => triple_ret fun _ => id

theorem triple_now : Triple P (now io) (fun _ => P) X := fun _ hs => hs

theorem triple_read_own (n timeoutMs : ℕ) :
    Triple (Under Own) (read io n timeoutMs) (fun _ => Under Own) (Under Own) := by
  intro s hs
  rw [read]
  simp only
  split_ifs
  · exact hs
  · exact hs

theorem triple_acked (hframes : frames ≠ []) (hdata : repliesWithData frames = false)
    (herase : frames ≠ [[CHIP_ERASE, EOC]]) {f : Client δ α} (timeoutMs : ℕ)
    (h : Triple (Under Fresh) f Q (Under Own)) :
    Triple (Under Own) (do
      flushInput io
      send io frames
      getSync io timeoutMs
      f) Q (Under Own) := by
  refine triple_flushInput.bind fun _ => (triple_send hframes).bind fun _ => ?_
  refine ((triple_getSync_own timeoutMs).pre fun _ hs => hs.mono fun h => h.mono fun l hl => ?_).bind
    fun _ => h
  rwa [strayReply, if_neg herase, hdata, if_neg (by simp)] at hl

theorem triple_query (hframes : frames ≠ []) (hdata : repliesWithData frames = true)
    (herase : frames ≠ [[CHIP_ERASE, EOC]]) (n timeoutMs : ℕ) {f : List ℕ → Client δ Unit}
    (h : ∀ raw, Triple (Under Own) (f raw) (fun _ => Under Own) (Under Own)) :
    Triple (Under Own) (do
      flushInput io
      send io frames
      let raw ← readReply io n timeoutMs
      getSync io SYNC_TIMEOUT_MS
      f raw) (fun _ => Under Own) (Under Own) := by
  refine triple_flushInput.bind fun _ => (triple_send hframes).bind fun _ => ?_
  refine Triple.pre (P := Under Fresh) ?_ fun _ hs => hs.mono fun h => h.mono fun l hl => ?_
  · exact (triple_readReply n timeoutMs).bind fun raw =>
      (triple_getSync_fresh _).bind fun _ => h raw
  · simpa [strayReply, herase, hdata] using hl

theorem triple_sync (timeoutMs : ℕ) :
    Triple (Under Own) (sync io timeoutMs) (fun _ => Under Own) (Under Own) := by
  refine triple_flushInput.bind fun _ => (triple_send (by simp)).bind fun _ => ?_
  refine (triple_getSync_own timeoutMs).conseq (fun _ hs => hs.mono fun h => h.mono fun l hl => ?_)
    (fun _ _ => under_own) fun _ => id
  rwa [strayReply, if_neg (by decide), if_neg (by decide)] at hl

theorem triple_drainInput (silenceMs maxMs : ℕ) :
    Triple (Under Own) (drainInput io silenceMs maxMs) (fun _ => Under Own) (Under Own) := by
  refine triple_now.bind fun time => ?_
  generalize time + maxMs = deadline
  induction io.turns with
  | zero => exact triple_running fun _ => id
  | succ turns ih =>
    rw [drainLoop]
    refine triple_now.bind fun time => ?_
    split_ifs
    swap
    · exact triple_ret fun _ => id
    refine triple_flushInput.bind fun _ => ?_
    have hread : Triple (Under Own) (attempt (read io 1 silenceMs)) (fun _ => Under Own)
        (Under Own) :=
      Triple.catchError ((triple_read_own 1 silenceMs).bind fun _ => triple_ret fun _ => id)
        (fun _ => triple_ret fun _ => id) fun _ => id
    refine hread.bind fun byte => ?_
    cases byte with
    | none => exact triple_ret fun _ => id
    | some byte => exact ih

theorem programFrame_ne_erase (command : ℕ) (chunk : List ℕ) :
    [programFrame command chunk] ≠ [[CHIP_ERASE, EOC]] := by
  intro h
  have hlen := congrArg List.length (List.singleton_inj.mp h)
  simp [programFrame] at hlen

variable {command : ℕ}

theorem triple_ackChunk (hcommand : repliesWithData [[command]] = false) (chunk : List ℕ)
    (timeoutMs : ℕ) :
    Triple (Under (Strays (strayReply · [programFrame command chunk] = false)))
      (getSync io timeoutMs) (fun _ => Under Own) (Under Own) := by
  refine (triple_getSync_own timeoutMs).conseq (fun _ hs => hs.mono fun h => h.mono fun l hl => ?_)
    (fun _ _ => under_own) fun _ => id
  have hdata : repliesWithData [programFrame command chunk] = false := hcommand
  rwa [strayReply, if_neg (programFrame_ne_erase command chunk), hdata, if_neg (by simp)] at hl

theorem triple_programChunk (hcommand : repliesWithData [[command]] = false) (chunk : List ℕ) :
    Triple (Under Own) (programChunk io command chunk) (fun _ => Under Own) (Under Own) := by
  refine triple_flushInput.bind fun _ => (triple_send (by simp)).bind fun _ => ?_
  refine (triple_ackChunk hcommand chunk _).catchError (fun thrown => ?_) fun _ => id
  split_ifs
  swap
  · exact triple_throw fun _ => id
  refine (triple_write_own _).bind fun _ => (triple_drainInput _ _).bind fun _ => ?_
  refine (triple_sync _).bind fun _ => (triple_send (by simp)).bind fun _ => ?_
  exact (triple_ackChunk hcommand chunk _).catchError (fun _ => triple_throw fun _ => id) fun _ => id

theorem triple_program (alignedImage : List ℕ) :
    Triple (Under Own) (program io alignedImage) (fun _ => Under Own) (Under Own) := by
  rw [program]
  split_ifs
  · exact triple_throw fun _ => id
  · exact triple_forEach_of_mem fun chunk _ => triple_programChunk (by decide) chunk

theorem triple_programExtflash (extfImage : List ℕ) :
    Triple (Under Own) (programExtflash io extfImage) (fun _ => Under Own) (Under Own) := by
  rw [programExtflash]
  split_ifs
  · exact triple_throw fun _ => id
  · exact triple_forEach_of_mem fun chunk _ => triple_programChunk (by decide) chunk

theorem triple_erase (flashSize : Option ℕ) :
    Triple (Under Own) (erase io flashSize) (fun _ => Under Own) (Under Own) := by
  refine (triple_send (by simp)).bind fun _ => ?_
  refine triple_now.bind fun time => ?_
  generalize time + chipEraseTimeoutMs flashSize = deadline
  refine Triple.pre (P := Under (Strays (ackIn · = false))) ?_ fun _ hs => hs.mono fun h =>
    h.mono fun l hl => by rwa [strayReply, if_pos rfl] at hl
  induction io.turns with
  | zero => exact triple_running fun _ => under_own
  | succ turns ih =>
    rw [eraseLoop]
    refine triple_now.bind fun time => ?_
    split_ifs
    swap
    · exact triple_throw fun _ => under_own
    refine (grows_trySync.under (triple_trySync_strays io)).bind fun answered => ?_
    cases answered with
    | true => exact triple_ret fun _ hs => hs.mono And.left
    | false => exact ih.pre fun _ hs => hs.mono fun h => h.2 rfl

theorem triple_eraseExtflashLoop (deadline turns lastPct : ℕ) :
    Triple (Under fun s => Strays (ackIn · = false) s ∧ (lastPct < 90 → Fresh s))
      (eraseExtflashLoop io deadline turns lastPct) (fun _ => Under Own) (Under Own) := by
  induction turns generalizing lastPct with
  | zero => exact triple_running fun _ hs => hs.mono fun h => h.1.own
  | succ turns ih =>
    rw [eraseExtflashLoop]
    refine triple_now.bind fun time => ?_
    split_ifs with htime hpct
    · have hread : Triple Fresh (attempt (read io 1 EXTF_ERASE_PCT_READ_TIMEOUT_MS))
          (fun _ => Fresh) Own := by
        have h : Triple _ (read io 1 EXTF_ERASE_PCT_READ_TIMEOUT_MS) _ _ :=
          triple_read_fresh [] 1 EXTF_ERASE_PCT_READ_TIMEOUT_MS
        refine Triple.catchError ((h.conseq (fun s hs => ⟨hs, nofun⟩) (fun _ _ hs => hs.1)
          fun s hs => hs.1).bind fun _ => triple_ret fun _ => id) (fun _ => triple_ret fun _ => id)
          fun _ => Strays.own
      have hunder := (grows_read 1 EXTF_ERASE_PCT_READ_TIMEOUT_MS).attempt.under hread
      refine (hunder.pre fun _ hs => hs.mono fun h => h.2 hpct).bind fun pctByte => ?_
      exact (ih _).pre fun _ hs => hs.mono fun h => ⟨h.strays rfl, fun _ => h⟩
    · have htry := grows_trySync.under (triple_trySync_strays io)
      refine (htry.pre fun _ hs => hs.mono And.left).bind fun answered => ?_
      cases answered with
      | true => exact triple_ret fun _ hs => hs.mono And.left
      | false => exact (ih lastPct).pre fun _ hs => hs.mono fun h =>
          ⟨h.2 rfl, fun h' => absurd h' hpct⟩
    · exact triple_throw fun _ hs => hs.mono fun h => h.1.own

theorem triple_eraseExtflash (sizeBytes : ℕ) :
    Triple (Under Own) (eraseExtflash io sizeBytes) (fun _ => Under Own) (Under Own) := by
  rw [eraseExtflash]
  split_ifs
  · exact triple_throw fun _ => id
  refine triple_acked (by simp) rfl (by simp) _ ?_
  refine triple_now.bind fun time => ?_
  exact (triple_eraseExtflashLoop _ _ 0).pre fun _ hs => hs.mono fun h =>
    ⟨h.strays rfl, fun _ => h⟩

theorem triple_verify (alignedImage : List ℕ)
    (flashSize : ℕ) :
    Triple (Under Own) (verify io alignedImage flashSize) (fun _ => Under Own) (Under Own) := by
  rw [verify]
  split_ifs
  · exact triple_throw fun _ => id
  refine triple_query (by simp) rfl (by decide) _ _ fun raw => ?_
  split_ifs
  · exact triple_throw fun _ => id
  · exact triple_ret fun _ => id

theorem triple_verifyExtflash (extfImage : List ℕ) :
    Triple (Under Own) (verifyExtflash io extfImage) (fun _ => Under Own) (Under Own) := by
  refine triple_query (by simp) rfl (by simp) _ _ fun raw => ?_
  split_ifs
  · exact triple_throw fun _ => id
  · exact triple_ret fun _ => id

theorem triple_verifyByReadback (alignedImage : List ℕ) :
    Triple (Under Own) (verifyByReadback io alignedImage) (fun _ => Under Own) (Under Own) := by
  rw [verifyByReadback]
  split_ifs
  · exact triple_throw fun _ => id
  refine triple_acked (by simp) rfl (by simp) _ (Triple.pre (P := Under Own) ?_
    fun _ => under_own)
  refine triple_forEach_of_mem fun piece _ =>
    triple_query (by simp) rfl (by simp) _ _ fun raw => ?_
  cases (List.range piece.1.length).find? fun i => raw.getD i 0 ≠ piece.1.getD i 0 with
  | none => exact triple_ret fun _ => id
  | some i => exact triple_throw fun _ => id

theorem triple_runVerify (image : List ℕ) (flashSize : ℕ)
    (bootloaderRevision : Option ℕ) :
    Triple (Under Own) (runVerify io image flashSize bootloaderRevision) (fun _ => Under Own)
      (Under Own) := by
  rw [runVerify]
  split_ifs
  · exact triple_verifyByReadback image
  · exact triple_verify image flashSize

theorem triple_flashExternal (extfImage : List ℕ) :
    Triple (Under Own) (flashExternal io extfImage) (fun _ => Under Own) (Under Own) := by
  rw [flashExternal]
  split_ifs
  · exact (triple_eraseExtflash _).bind fun _ =>
      (triple_programExtflash _).bind fun _ => triple_verifyExtflash _
  · exact triple_ret fun _ => id

theorem triple_flash (io : BootloaderSerial δ) (formatBoardId : ℕ → String)
    (image : List ℕ) (flashSize : ℕ) (extfImage : List ℕ) (bootloaderRevision : Option ℕ)
    (boardMatch : Option BoardMatch) :
    Triple (Under Own)
      (flash io formatBoardId image flashSize extfImage bootloaderRevision boardMatch)
      (fun _ => Under Own) (Under Own) := by
  rw [flash]
  cases refusal formatBoardId boardMatch image.length flashSize with
  | some reason => exact triple_throw fun _ => id
  | none =>
    have hpass : Triple (Under Own) (do
        erase io (some flashSize)
        program io image
        runVerify io image flashSize bootloaderRevision) (fun _ => Under Own) (Under Own) :=
      (triple_erase _).bind fun _ => (triple_program _).bind fun _ =>
        triple_runVerify _ _ _
    refine (triple_flashExternal _).bind fun _ => (triple_erase _).bind fun _ => ?_
    refine (triple_program _).bind fun _ => Triple.bind (Q := fun _ => Under Own) ?_ fun _ => ?_
    · refine (triple_runVerify _ _ _).catchError (fun first => ?_) fun _ => id
      split_ifs
      · exact hpass
      · exact triple_throw fun _ => id
    · have hreboot : Triple (Under Own) (attempt (reboot io)) (fun _ => Under Own) (Under Own) :=
        Triple.catchError ((triple_write_own _).bind fun _ => triple_ret fun _ => id)
          (fun _ => triple_ret fun _ => id) fun _ => id
      exact hreboot.bind fun _ => triple_ret fun _ => id

/-! ## The whole flash -/

def Link.start (line : δ) (stray : List ℕ) : Link δ where
  line := line
  input := arrivals stray 0
  writes := 0
  since := 0
  log := []

instance : DecidablePred Unstrayed := fun log =>
  inferInstanceAs (Decidable (∀ e ∈ log, e.unstrayed))

def scriptedSerial : BootloaderSerial (List (List ℕ)) where
  write _ script := ⟨.ok (), true, script.headD [], script.tail⟩
  wait _ _ script := ⟨[], error "serial read timed out", script⟩
  flushInput := some fun script => (.ok (), script)
  now _ := 0
  turns := 8

end ArduConfigurator.FirmwareFlash.BootloaderClient
