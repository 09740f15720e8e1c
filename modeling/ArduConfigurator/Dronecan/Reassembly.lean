import ArduConfigurator.Dronecan.Transfer
import ArduConfigurator.Lib.Interleave

/-! # Transfers come out of any interleaving of their frames

The decoder is a table of independent slots, one for each transfer key, so what it makes of the
frames of one transfer does not depend on the frames of the others between them. -/
namespace ArduConfigurator.Dronecan
namespace DronecanTransferDecoder
set_option autoImplicit false

variable (catalogue : DronecanCatalogue)

/-! ## The decoder as a table of slots -/

def slotAct (frame : CanFrame) (slot : Option Partial) : Option Partial × Option DronecanTransfer :=
  let header := parseId frame.id
  if frame.usable = false then (slot, none)
  else if frame.tail.sot && frame.tail.eot then
    if frame.tail.toggle then (slot, none)
    else (slot, some (finish catalogue header frame [frame] frame.body frame.tail.transferId none))
  else if frame.tail.sot then
    if frame.tail.toggle || frame.body.length < 2 then (slot, none)
    else
      (some ⟨[frame], frame.body.drop 2, true, frame.timestampMs, some (bodyCrc frame.body)⟩, none)
  else
    match slot with
    | none => (none, none)
    | some p =>
      if p.expectedToggle ≠ frame.tail.toggle then (none, none)
      else if frame.tail.eot = false then
        (some { p with
          frames := p.frames ++ [frame]
          bytes := p.bytes ++ frame.body
          expectedToggle := !p.expectedToggle }, none)
      else
        (none, some (finish catalogue header frame (p.frames ++ [frame]) (p.bytes ++ frame.body)
          frame.tail.transferId p.crc))

def slots : SlotMachine TransferKey Partial CanFrame DronecanTransfer where
  key := CanFrame.key
  survives frame p := !frame.usable || ¬ TRANSFER_TIMEOUT_MS < frame.timestampMs - p.startedAtMs
  act := slotAct catalogue

variable {frame : CanFrame}

theorem push_usable (partials : Partials) (hu : frame.usable = true) :
    let live := expire partials frame.timestampMs
    let acted := slotAct catalogue frame (live.get frame.key)
    (push catalogue partials frame).2 = acted.2 ∧
      ∀ k, (push catalogue partials frame).1.get k =
        if k = frame.key then acted.1 else live.get k := by
  intro live acted
  have hsame : ∀ k, live.get k = if k = frame.key then live.get frame.key else live.get k := by
    intro k
    split
    · next h => rw [h]
    · rfl
  rw [push, if_neg (by simp [hu])]
  simp only [acted, slotAct, hu, Bool.true_eq_false, if_false]
  by_cases hse : (frame.tail.sot && frame.tail.eot) = true
  · simp only [hse, if_true]
    split
    · exact ⟨rfl, hsame⟩
    · exact ⟨rfl, hsame⟩
  · simp only [hse, if_false, Bool.false_eq_true]
    by_cases hs : frame.tail.sot = true
    · simp only [hs, if_true]
      split
      · exact ⟨rfl, hsame⟩
      · exact ⟨rfl, fun k => JsMap.get_set _ _ _ _⟩
    · simp only [hs, if_false, Bool.false_eq_true]
      cases hp : live.get frame.key with
      | none =>
        refine ⟨rfl, fun k => ?_⟩
        have hk := hsame k
        rw [hp] at hk
        exact hk
      | some p =>
        simp only
        split
        · exact ⟨rfl, fun k => JsMap.get_delete _ _ _⟩
        · split
          · exact ⟨rfl, fun k => JsMap.get_set _ _ _ _⟩
          · exact ⟨rfl, fun k => JsMap.get_delete _ _ _⟩

theorem slots_runs : (slots catalogue).Runs (push catalogue) := by
  have hexpire : ∀ (partials : Partials) (frame : CanFrame) k, frame.usable = true →
      (expire partials frame.timestampMs).get k =
        (partials.get k).filter ((slots catalogue).survives frame) := by
    intro partials frame k hu
    rw [expire, JsMap.get_filter]
    congr 1
    funext p
    simp [slots, hu]
  have hidle : ∀ (slot : Option Partial) (frame : CanFrame), frame.usable = false →
      slot.filter ((slots catalogue).survives frame) = slot := by
    intro slot frame hu
    cases slot with
    | none => rfl
    | some p => exact Option.filter_some_pos (by simp [slots, hu])
  constructor
  · intro partials frame k
    rw [SlotMachine.slotStep]
    cases hu : frame.usable with
    | false =>
      rw [push, if_pos hu, hidle _ _ hu]
      split
      · simp only [slots, slotAct, hu, if_true]
      · rfl
    | true =>
      rw [(push_usable catalogue partials hu).2 k, ← hexpire partials frame k hu]
      by_cases hk : k = frame.key
      · subst hk
        rw [if_pos rfl, if_pos (show (slots catalogue).key frame = frame.key from rfl)]
        rfl
      · rw [if_neg hk, if_neg (show ¬ (slots catalogue).key frame = k from Ne.symm hk)]
  · intro partials frame
    rw [SlotMachine.slotStep, if_pos rfl]
    cases hu : frame.usable with
    | false =>
      rw [push, if_pos hu]
      simp only [slots, slotAct, hu, if_true]
    | true =>
      rw [(push_usable catalogue partials hu).1, hexpire partials frame _ hu]
      rfl

/-! ## Transfers on the wire -/

/-- A usable frame of the transfer `key` with this place in it and this body. -/
structure Carrier (key : TransferKey) (sot eot toggle : Bool) (body : Bytes) (frame : CanFrame) :
    Prop where
  usable : frame.usable = true
  key_eq : frame.key = key
  sot_eq : frame.tail.sot = sot
  eot_eq : frame.tail.eot = eot
  toggle_eq : frame.tail.toggle = toggle
  body_eq : frame.body = body

/-- The frames of a transfer after its first, from the toggle bit that comes next. -/
inductive Continues (key : TransferKey) : Bool → List CanFrame → Bytes → Prop
  | last {toggle : Bool} {body : Bytes} {frame : CanFrame}
      (h : Carrier key false true toggle body frame) : Continues key toggle [frame] body
  | more {toggle : Bool} {body payload : Bytes} {frame : CanFrame} {rest : List CanFrame}
      (h : Carrier key false false toggle body frame) (hrest : Continues key (!toggle) rest payload) :
      Continues key toggle (frame :: rest) (body ++ payload)

/-- The frames of a whole transfer with its CRC, if it has one, and its payload: one frame, or a first
frame that begins with the CRC and then the others. -/
inductive Delivers (key : TransferKey) :
    CanFrame → List CanFrame → Option (BitVec 16) → Bytes → Prop
  | single {payload : Bytes} {frame : CanFrame} (h : Carrier key true true false payload frame) :
      Delivers key frame [] none payload
  | multi {lo hi : UInt8} {body payload : Bytes} {frame : CanFrame} {rest : List CanFrame}
      (h : Carrier key true false false (lo :: hi :: body) frame)
      (hrest : Continues key true rest payload) :
      Delivers key frame rest (some (bodyCrc [lo, hi])) (body ++ payload)

structure Delivery where
  key : TransferKey
  first : CanFrame
  rest : List CanFrame
  crc : Option (BitVec 16)
  payload : Bytes
  delivers : Delivers key first rest crc payload

namespace Delivery

def frames (d : Delivery) : List CanFrame := d.first :: d.rest

def last (d : Delivery) : CanFrame := d.rest.getLastD d.first

def transfer (d : Delivery) : DronecanTransfer :=
  finish catalogue (parseId d.last.id) d.last d.frames d.payload d.key.transferId d.crc

/-- While the transfer is under way no frame on the bus is more than the timeout later than its
first. -/
def InTime (d : Delivery) (line : List CanFrame) : Prop :=
  ∀ before frame after, line = before ++ frame :: after → d.first ∈ before →
    d.last ∈ frame :: after → frame.timestampMs - d.first.timestampMs ≤ TRANSFER_TIMEOUT_MS

end Delivery

variable {key : TransferKey} {rest : List CanFrame} {payload : Bytes} {toggle : Bool}

theorem Continues.ne_nil (h : Continues key toggle rest payload) : rest ≠ [] := by
  cases h <;> simp

theorem Continues.key_eq (h : Continues key toggle rest payload) :
    ∀ f ∈ rest, f.key = key := by
  induction h with
  | last h => simpa using h.key_eq
  | more h _ ih => exact List.forall_mem_cons.mpr ⟨h.key_eq, ih⟩

theorem Delivery.key_eq (d : Delivery) : ∀ f ∈ d.frames, f.key = d.key := by
  obtain ⟨key, first, rest, crc, payload, h⟩ := d
  cases h with
  | single h => simpa [Delivery.frames] using h.key_eq
  | multi h hrest => exact List.forall_mem_cons.mpr ⟨h.key_eq, hrest.key_eq⟩

/-! ## One slot -/

variable {catalogue} {p : Partial}

theorem survives_iff (hu : frame.usable = true) :
    (slots catalogue).survives frame p = true ↔
      frame.timestampMs - p.startedAtMs ≤ TRANSFER_TIMEOUT_MS := by
  simp [slots, hu, not_lt]

variable {k : TransferKey}

theorem slotStep_other (hk : frame.key ≠ k) (slot : Option Partial) :
    (slots catalogue).slotStep k slot frame =
      (slot.filter ((slots catalogue).survives frame), none) := by
  rw [SlotMachine.slotStep, if_neg (show ¬ (slots catalogue).key frame = k from hk)]

theorem slotStep_own (hk : frame.key = k) (slot : Option Partial) :
    (slots catalogue).slotStep k slot frame =
      slotAct catalogue frame (slot.filter ((slots catalogue).survives frame)) := by
  rw [SlotMachine.slotStep, if_pos (show (slots catalogue).key frame = k from hk)]
  rfl

variable {line : List CanFrame}

theorem slotOutputs_other (hline : line.filter (fun f => f.key = k) = []) (slot : Option Partial) :
    (slots catalogue).slotOutputs k slot line = [] := by
  induction line generalizing slot with
  | nil => rfl
  | cons frame line ih =>
    rw [List.filter_eq_nil_iff] at hline
    have hk : frame.key ≠ k := by simpa using hline frame (List.mem_cons_self ..)
    rw [SlotMachine.slotOutputs, slotStep_other hk]
    exact ih (List.filter_eq_nil_iff.mpr fun f hf => hline f (List.mem_cons_of_mem _ hf)) _

variable {last : CanFrame}

theorem slotOutputs_continues (hc : Continues k p.expectedToggle rest payload)
    (hlast : rest.getLast? = some last) (hline : line.filter (fun f => f.key = k) = rest)
    (husable : ∀ f ∈ line, f.usable = true)
    (htime : ∀ before frame after, line = before ++ frame :: after → last ∈ frame :: after → frame.timestampMs - p.startedAtMs ≤ TRANSFER_TIMEOUT_MS) :
    (slots catalogue).slotOutputs k (some p) line =
      [finish catalogue (parseId last.id) last (p.frames ++ rest) (p.bytes ++ payload) k.transferId
        p.crc] := by
  induction line generalizing p rest payload with
  | nil => exact absurd hline.symm hc.ne_nil
  | cons frame line ih =>
    have hmem : last ∈ frame :: line := by
      have hrest := List.mem_of_getLast? hlast
      rw [← hline] at hrest
      exact (List.mem_filter.mp hrest).1
    have hlive : (some p).filter ((slots catalogue).survives frame) = some p := by
      refine Option.filter_some_pos ((survives_iff (husable frame (List.mem_cons_self ..))).mpr ?_)
      exact htime [] frame line rfl hmem
    have husable' : ∀ f ∈ line, f.usable = true := fun f hf => husable f (List.mem_cons_of_mem _ hf)
    by_cases hk : frame.key = k
    · rw [List.filter_cons_of_pos (by simpa using hk)] at hline
      rw [SlotMachine.slotOutputs, slotStep_own hk, hlive]
      cases hc with
      | last h =>
        obtain ⟨rfl, hnil⟩ := List.cons.inj hline
        cases hlast
        rw [slotAct, h.usable, h.sot_eq, h.eot_eq, h.toggle_eq, h.body_eq]
        simp only [Bool.true_eq_false, if_false, Bool.false_and, Bool.false_eq_true, ne_eq,
          not_true_eq_false, Option.toList_some]
        rw [slotOutputs_other hnil, List.append_nil]
        rw [← h.key_eq]
        rfl
      | more h hrest =>
        obtain ⟨rfl, htail⟩ := List.cons.inj hline
        have hlast' := hlast
        rw [List.getLast?_cons_of_ne_nil hrest.ne_nil] at hlast'
        rw [slotAct, h.usable, h.sot_eq, h.eot_eq, h.toggle_eq, h.body_eq]
        simp only [Bool.true_eq_false, if_false, Bool.false_and, Bool.false_eq_true, ne_eq,
          not_true_eq_false, if_true, Option.toList_none, List.nil_append]
        refine (ih hrest hlast' htail husable' fun before g after hsplit hg => ?_).trans ?_
        · exact htime (frame :: before) g after (by rw [hsplit]; rfl) hg
        · rw [List.append_assoc, List.append_assoc]
          rfl
    · rw [List.filter_cons_of_neg (by simpa using hk)] at hline
      rw [SlotMachine.slotOutputs, slotStep_other hk, hlive]
      refine ih hc hlast hline husable' fun before g after hsplit hg => ?_
      exact htime (frame :: before) g after (by rw [hsplit]; rfl) hg

theorem slotOutputs_delivery (d : Delivery)
    (hline : line.filter (fun f => f.key = d.key) = d.frames)
    (husable : ∀ f ∈ line, f.usable = true) (htime : d.InTime line) (slot : Option Partial) :
    (slots catalogue).slotOutputs d.key slot line = [d.transfer catalogue] := by
  induction line generalizing slot with
  | nil => cases hline
  | cons frame line ih =>
    have husable' : ∀ f ∈ line, f.usable = true := fun f hf => husable f (List.mem_cons_of_mem _ hf)
    by_cases hk : frame.key = d.key
    · rw [List.filter_cons_of_pos (by simpa using hk)] at hline
      obtain ⟨hfirst, hrest⟩ := List.cons.inj hline
      rw [SlotMachine.slotOutputs, slotStep_own hk]
      obtain ⟨key, first, rest, crc, payload, hd⟩ := d
      subst hfirst
      cases hd with
      | single h =>
        simp only [slotAct, h.usable, h.sot_eq, h.eot_eq, h.toggle_eq, h.body_eq, Bool.true_eq_false,
          if_false, Bool.and_self, if_true, Bool.false_eq_true, Option.toList_some]
        have hid : frame.tail.transferId = key.transferId := by
          rw [← h.key_eq]
          rfl
        rw [slotOutputs_other hrest, List.append_nil, hid]
        rfl
      | multi h hc =>
        obtain ⟨last, hlast⟩ : ∃ last, rest.getLast? = some last :=
          ⟨_, List.getLast?_eq_some_getLast hc.ne_nil⟩
        have hlastD : rest.getLastD frame = last := by rw [List.getLastD_eq_getLast?, hlast]; rfl
        simp only [slotAct, h.usable, h.sot_eq, h.eot_eq, h.toggle_eq, h.body_eq, Bool.true_eq_false,
          if_false, Bool.and_false, if_true, Bool.false_eq_true, Bool.false_or, List.length_cons]
        rw [if_neg (by simp)]
        refine (slotOutputs_continues hc hlast hrest husable' ?_).trans ?_
        · intro before g after hsplit hg
          refine htime (frame :: before) g after (by rw [hsplit]; rfl) (List.mem_cons_self ..) ?_
          rw [← hlastD] at hg
          exact hg
        · rw [Delivery.transfer, Delivery.last]
          simp only [hlastD]
          rfl
    · rw [List.filter_cons_of_neg (by simpa using hk)] at hline
      rw [SlotMachine.slotOutputs, slotStep_other hk]
      refine ih hline husable' (fun before g after hsplit hfirst hlast => ?_) _
      exact htime (frame :: before) g after (by rw [hsplit]; rfl) (List.mem_cons_of_mem _ hfirst) hlast

/-! ## All the transfers -/

theorem pushAll_eq (partials : Partials) (line : List CanFrame) :
    pushAll catalogue partials line =
      ((slots catalogue).outputs (push catalogue) partials line).map Prod.snd := by
  induction line generalizing partials with
  | nil => rfl
  | cons frame line ih =>
    rw [pushAll, SlotMachine.outputs, List.map_append, ← ih]
    obtain ⟨next, transfer⟩ := push catalogue partials frame
    cases transfer <;> rfl

variable {crc : Option (BitVec 16)}

theorem Delivers.usable {first : CanFrame} (h : Delivers key first rest crc payload) :
    ∀ f ∈ first :: rest, f.usable = true := by
  have hc : ∀ {toggle : Bool} {rest : List CanFrame} {payload : Bytes},
      Continues key toggle rest payload → ∀ f ∈ rest, f.usable = true := by
    intro toggle rest payload hc
    induction hc with
    | last h => simpa using h.usable
    | more h _ ih => exact List.forall_mem_cons.mpr ⟨h.usable, ih⟩
  cases h with
  | single h => simpa using h.usable
  | multi h hrest => exact List.forall_mem_cons.mpr ⟨h.usable, hc hrest⟩

/-- Whatever was under way before, the frames of transfers of distinct keys in any order that keeps
each transfer's own, within the timeout, complete each of the transfers once and nothing else. -/
theorem pushAll_interleaved {ds : List Delivery} (hkeys : (ds.map Delivery.key).Nodup)
    (hline : Interleave (ds.map Delivery.frames) line) (htime : ∀ d ∈ ds, d.InTime line)
    (partials : Partials) :
    (pushAll catalogue partials line).Perm (ds.map (Delivery.transfer catalogue)) := by
  have husable : ∀ f ∈ line, f.usable = true := by
    intro f hf
    obtain ⟨s, hs, hfs⟩ := hline.mem hf
    obtain ⟨d, -, rfl⟩ := List.mem_map.mp hs
    exact d.delivers.usable f hfs
  have hkeyed : ((slots catalogue).outputs (push catalogue) partials line).Perm
      (ds.map fun d => (d.key, d.transfer catalogue)) := by
    apply SlotMachine.perm_of_filter_key
    intro k
    rw [SlotMachine.filter_outputs (slots_runs catalogue), List.filter_map]
    by_cases hk : k ∈ ds.map Delivery.key
    · obtain ⟨d, hd, rfl⟩ := List.mem_map.mp hk
      have hown := hline.filter_key (fun c _ => c.key_eq) hkeys hd
      rw [slotOutputs_delivery d hown husable (htime d hd)]
      have hone : ds.filter ((fun o : TransferKey × DronecanTransfer => decide (o.1 = d.key)) ∘
          fun c => (c.key, c.transfer catalogue)) = [d] := filter_key_eq hkeys hd
      rw [hone]
      rfl
    · have hnone : line.filter (fun f => f.key = k) = [] := by
        rw [List.filter_eq_nil_iff]
        intro f hf
        obtain ⟨s, hs, hfs⟩ := hline.mem hf
        obtain ⟨d, hd, rfl⟩ := List.mem_map.mp hs
        rw [decide_eq_true_iff, d.key_eq f hfs]
        rintro rfl
        exact hk (List.mem_map.mpr ⟨d, hd, rfl⟩)
      have hds : ds.filter ((fun o : TransferKey × DronecanTransfer => decide (o.1 = k)) ∘
          fun c => (c.key, c.transfer catalogue)) = [] := by
        rw [List.filter_eq_nil_iff]
        intro d hd
        rw [Function.comp_apply, decide_eq_true_iff]
        rintro rfl
        exact hk (List.mem_map.mpr ⟨d, hd, rfl⟩)
      rw [slotOutputs_other hnone, hds]
      rfl
  have hmap := hkeyed.map Prod.snd
  rw [List.map_map] at hmap
  rw [pushAll_eq]
  exact hmap

variable {header : ParsedId} {frames : List CanFrame} {transferId : ℕ}

theorem finish_payload :
    (finish catalogue header last frames payload transferId crc).payload = payload ∧
      (finish catalogue header last frames payload transferId crc).frameSeqs =
        frames.map CanFrame.seq := by
  rw [finish]
  simp only
  split
  · exact ⟨rfl, rfl⟩
  · split
    · exact ⟨rfl, rfl⟩
    · split
      · exact ⟨rfl, rfl⟩
      · split <;> exact ⟨rfl, rfl⟩

theorem finish_value {crc : BitVec 16} {v : DronecanRecord}
    (h : (finish catalogue header last frames payload transferId (some crc)).value = some v) :
    ∃ type, (finish catalogue header last frames payload transferId (some crc)).type = some type ∧
      dronecanTransferCrc type.signature payload = crc := by
  rw [finish] at h ⊢
  simp only at h ⊢
  split at h
  · cases h
  · next hanonymous =>
    rw [if_neg hanonymous]
    split at h
    · cases h
    · next type htype =>
      split at h
      · cases h
      · next hcrc =>
        rw [if_neg hcrc]
        refine ⟨type, ?_, ?_⟩
        · split <;> rfl
        · simpa using hcrc

/-! ## No value past a wrong CRC -/

/-- A transfer under way is made of frames that came, in their order, and of their bytes. -/
structure PartialOf (seen : List CanFrame) (p : Partial) : Prop where
  came : p.frames.Sublist seen
  bytes_eq : p.bytes = (p.frames.flatMap CanFrame.body).drop 2
  crc_eq : ∃ first rest, p.frames = first :: rest ∧ 2 ≤ first.body.length ∧
    p.crc = some (bodyCrc first.body)

/-- The transfer is made of frames that came, in their order; when there are several, its payload is
their bytes behind the CRC, and it has a value only when that CRC is the right one. -/
def MadeOf (seen : List CanFrame) (t : DronecanTransfer) : Prop :=
  ∃ first rest, (first :: rest).Sublist seen ∧ t.frameSeqs = (first :: rest).map CanFrame.seq ∧
    (rest = [] → t.payload = first.body) ∧
    (rest ≠ [] → t.payload = ((first :: rest).flatMap CanFrame.body).drop 2 ∧
      ∀ v, t.value = some v → ∃ type, t.type = some type ∧
        dronecanTransferCrc type.signature t.payload = bodyCrc first.body)

variable {seen : List CanFrame}

theorem PartialOf.mono (h : PartialOf seen p) (frame : CanFrame) : PartialOf (seen ++ [frame]) p :=
  ⟨h.came.trans (List.sublist_append_left _ _), h.bytes_eq, h.crc_eq⟩

theorem PartialOf.append_bytes (h : PartialOf seen p) (frame : CanFrame) :
    p.bytes ++ frame.body = ((p.frames ++ [frame]).flatMap CanFrame.body).drop 2 := by
  obtain ⟨first, rest, hframes, hlen, -⟩ := h.crc_eq
  rw [h.bytes_eq, List.flatMap_append, List.drop_append_of_le_length, List.flatMap_singleton]
  rw [hframes, List.flatMap_cons, List.length_append]
  omega

theorem slotAct_partialOf {slot : Option Partial} (hslot : ∀ p, slot = some p → PartialOf seen p) :
    (∀ p, (slotAct catalogue frame slot).1 = some p → PartialOf (seen ++ [frame]) p) ∧
      ∀ t, (slotAct catalogue frame slot).2 = some t → MadeOf (seen ++ [frame]) t := by
  have hkeep : ∀ p, slot = some p → PartialOf (seen ++ [frame]) p := fun p hp => (hslot p hp).mono frame
  have hself : [frame].Sublist (seen ++ [frame]) := List.sublist_append_right _ _
  simp only [slotAct]
  split
  · exact ⟨hkeep, by simp⟩
  split
  · split
    · exact ⟨hkeep, by simp⟩
    · refine ⟨hkeep, fun t ht => ?_⟩
      cases ht
      exact ⟨frame, [], hself, finish_payload.2, fun _ => finish_payload.1, by simp⟩
  split
  · split
    · exact ⟨hkeep, by simp⟩
    · next hstart =>
      refine ⟨fun p hp => ?_, by simp⟩
      cases hp
      refine ⟨hself, by simp, frame, [], rfl, ?_, rfl⟩
      simp only [Bool.or_eq_true, decide_eq_true_eq, not_or] at hstart
      omega
  cases slot with
  | none => exact ⟨by simp, by simp⟩
  | some p =>
    have hp := hslot p rfl
    have hcame : (p.frames ++ [frame]).Sublist (seen ++ [frame]) :=
      hp.came.append (List.Sublist.refl _)
    obtain ⟨first, rest, hframes, hlen, hcrc⟩ := hp.crc_eq
    simp only
    split
    · exact ⟨by simp, by simp⟩
    split
    · refine ⟨fun q hq => ?_, by simp⟩
      cases hq
      exact ⟨hcame, hp.append_bytes frame, first, rest ++ [frame], by rw [hframes]; rfl, hlen, hcrc⟩
    · refine ⟨by simp, fun t ht => ?_⟩
      cases ht
      have hall : p.frames ++ [frame] = first :: (rest ++ [frame]) := by rw [hframes]; rfl
      refine ⟨first, rest ++ [frame], hall ▸ hcame, ?_, by simp, fun _ => ⟨?_, fun v hv => ?_⟩⟩
      · rw [finish_payload.2, hall]
      · rw [finish_payload.1, hp.append_bytes, hall]
      · rw [hcrc] at hv ⊢
        obtain ⟨type, htype, hmatch⟩ := finish_value hv
        exact ⟨type, htype, by rw [finish_payload.1]; exact hmatch⟩

variable {partials : Partials}

theorem push_partialOf (catalogue : DronecanCatalogue) (frame : CanFrame)
    (hpartials : ∀ k p, partials.get k = some p → PartialOf seen p) :
    (∀ k p, (push catalogue partials frame).1.get k = some p → PartialOf (seen ++ [frame]) p) ∧
      ∀ t, (push catalogue partials frame).2 = some t → MadeOf (seen ++ [frame]) t := by
  have hlive : ∀ k p, (partials.get k).filter ((slots catalogue).survives frame) = some p →
      PartialOf seen p := fun k p hp => hpartials k p (Option.filter_eq_some_iff.mp hp).1
  constructor
  · intro k p hp
    rw [(slots_runs catalogue).slot] at hp
    by_cases hk : frame.key = k
    · rw [slotStep_own hk] at hp
      exact (slotAct_partialOf (hlive k)).1 p hp
    · rw [slotStep_other hk] at hp
      exact (hlive k p hp).mono frame
  · intro t ht
    rw [(slots_runs catalogue).output, show (slots catalogue).key frame = frame.key from rfl,
      slotStep_own rfl] at ht
    exact (slotAct_partialOf (hlive _)).2 t ht

theorem pushAll_madeOf (line : List CanFrame)
    (hpartials : ∀ k p, partials.get k = some p → PartialOf seen p) :
    ∀ t ∈ pushAll catalogue partials line, MadeOf (seen ++ line) t := by
  induction line generalizing seen partials with
  | nil => simp [pushAll]
  | cons frame line ih =>
    obtain ⟨hnext, hout⟩ := push_partialOf catalogue frame hpartials
    intro t ht
    rw [pushAll] at ht
    obtain ht | ht := List.mem_append.mp ht
    · obtain ⟨first, rest, hsub, hrest⟩ := hout t (Option.mem_toList.mp ht)
      refine ⟨first, rest, hsub.trans ?_, hrest⟩
      exact (List.Sublist.refl seen).append (List.singleton_sublist.mpr (List.mem_cons_self ..))
    · have h := ih hnext t ht
      rwa [List.append_assoc] at h

/-! ## The decoder's contract -/

theorem Delivery.inTime_of_pairwise (d : Delivery)
    (hline : line.Pairwise fun f g => f.timestampMs ≤ g.timestampMs)
    (hlast : d.last.timestampMs - d.first.timestampMs ≤ TRANSFER_TIMEOUT_MS) : d.InTime line := by
  rintro before frame after rfl - hmem
  have hle : frame.timestampMs ≤ d.last.timestampMs := by
    obtain h | h := List.mem_cons.mp hmem
    · rw [h]
    · exact (List.pairwise_cons.mp (List.pairwise_append.mp hline).2.1).1 _ h
  exact (sub_le_sub_right hle _).trans hlast

/-- Transfers of distinct keys, each in its order and in time, come out of any interleaving of their
frames, each once and with its payload, whatever was under way before. In no run at all is a value
given for a transfer of several frames whose CRC is wrong. -/
theorem reassembles (catalogue : DronecanCatalogue) :
    (∀ (ds : List Delivery) (line : List CanFrame) (partials : Partials),
      (ds.map Delivery.key).Nodup → Interleave (ds.map Delivery.frames) line →
      (∀ d ∈ ds, d.InTime line) →
        (pushAll catalogue partials line).Perm (ds.map (Delivery.transfer catalogue))) ∧
    (∀ d : Delivery, (d.transfer catalogue).payload = d.payload ∧
      (d.transfer catalogue).frameSeqs = d.frames.map CanFrame.seq) ∧
    ∀ frames, ∀ t ∈ pushAll catalogue JsMap.empty frames, MadeOf frames t := by
  refine ⟨fun ds line partials hkeys hline htime => ?_, fun d => ?_, fun frames t ht => ?_⟩
  · exact pushAll_interleaved hkeys hline htime partials
  · exact finish_payload
  · have hnone : ∀ k p, (JsMap.empty : Partials).get k = some p → PartialOf [] p := by
      intro k p hp
      rw [JsMap.get_empty] at hp
      cases hp
    have h := pushAll_madeOf frames hnone t ht
    rwa [List.nil_append] at h

/-- A message frame of type 1000 from the node `source`. -/
def sampleFrame (seq source : ℕ) (data : Bytes) : CanFrame where
  seq := seq
  timestampMs := seq
  bus := 0
  id := 1000 * 256 + source
  extended := true
  rtr := false
  error := false
  fd := false
  data := data
  direction := .rx

def sampleKey (source transferId : ℕ) : TransferKey :=
  ⟨0, .rx, .message, 1000, source, none, transferId⟩

def sampleDeliveries : List Delivery :=
  [{ key := sampleKey 10 3
     first := sampleFrame 0 10 [0x12, 0x34, 1, 2, 3, 4, 5, 0x83]
     rest := [sampleFrame 2 10 [6, 7, 8, 9, 10, 11, 12, 0x23], sampleFrame 3 10 [13, 0x43]]
     crc := some (bodyCrc [0x12, 0x34])
     payload := [1, 2, 3, 4, 5] ++ ([6, 7, 8, 9, 10, 11, 12] ++ [13])
     delivers := .multi ⟨rfl, by decide, by decide, by decide, by decide, rfl⟩
       (.more ⟨rfl, by decide, by decide, by decide, by decide, rfl⟩
         (.last ⟨rfl, by decide, by decide, by decide, by decide, rfl⟩)) },
   { key := sampleKey 11 5
     first := sampleFrame 1 11 [42, 0xc5]
     rest := []
     crc := none
     payload := [42]
     delivers := .single ⟨rfl, by decide, by decide, by decide, by decide, rfl⟩ }]

def sampleLine : List CanFrame :=
  [sampleFrame 0 10 [0x12, 0x34, 1, 2, 3, 4, 5, 0x83], sampleFrame 1 11 [42, 0xc5],
    sampleFrame 2 10 [6, 7, 8, 9, 10, 11, 12, 0x23], sampleFrame 3 10 [13, 0x43]]

/-- The two come out of their frames, the single frame within the other transfer. -/
theorem reassembles_two : (pushAll ⟨[], 0⟩ JsMap.empty sampleLine).Perm
    (sampleDeliveries.map (Delivery.transfer ⟨[], 0⟩)) := by
  refine (reassembles ⟨[], 0⟩).1 sampleDeliveries sampleLine JsMap.empty (by decide) ?_ ?_
  · refine .next [] _ _ [_] (.next [_] _ _ [] (.next [] _ _ [_] (.next [] _ _ [_] (.done ?_))))
    simp
  · have hline : sampleLine.Pairwise fun f g => f.timestampMs ≤ g.timestampMs := by decide +kernel
    intro d hd
    refine d.inTime_of_pairwise hline ?_
    revert d
    decide +kernel

end DronecanTransferDecoder
end ArduConfigurator.Dronecan
