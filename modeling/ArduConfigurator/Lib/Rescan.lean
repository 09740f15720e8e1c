import Mathlib.Data.List.Basic

/-! # Decoders that keep what they have not taken

A turn of the decoder takes from the front of its buffer and may give something out; what it takes does
not depend on what comes later. Then what is given out does not depend on how the input was cut. -/
namespace ArduConfigurator
set_option autoImplicit false

/-- `turn` takes from the buffer or waits; a decoder that waits keeps `keep` of it. -/
structure Scanner (α β : Type*) where
  turn : List α → Option (Option β × List α)
  keep : List α → List α
  turn_length : ∀ {b r : List α} {o : Option β}, turn b = some (o, r) → r.length < b.length
  turn_append : ∀ {b r : List α} {o : Option β} (c : List α), turn b = some (o, r) →
    turn (b ++ c) = some (o, r ++ c)
  turn_keep : ∀ {b : List α} (c : List α), turn b = none → turn (keep b ++ c) = turn (b ++ c)
  keep_append : ∀ {b : List α} (c : List α), turn b = none → keep (keep b ++ c) = keep (b ++ c)

namespace Scanner
variable {α β : Type*} (s : Scanner α β)

/-- At most `n` turns, until the decoder waits. -/
def turns : ℕ → List α → List β × List α
  | 0, b => ([], s.keep b)
  | n + 1, b =>
    match s.turn b with
    | none => ([], s.keep b)
    | some (o, r) => (o.toList ++ (turns n r).1, (turns n r).2)

def drain (b : List α) : List β × List α := s.turns b.length b

variable {b : List α}

theorem turns_of_none (h : s.turn b = none) (n : ℕ) : s.turns n b = ([], s.keep b) := by
  cases n with
  | zero => rfl
  | succ n => rw [turns, h]

theorem turns_of_le {n m : ℕ} (hn : b.length ≤ n) (hm : b.length ≤ m) :
    s.turns n b = s.turns m b := by
  induction n generalizing m b with
  | zero =>
    have hnone : s.turn b = none := by
      cases h : s.turn b with
      | none => rfl
      | some p => exact absurd (s.turn_length (o := p.1) (r := p.2) h) (by omega)
    rw [s.turns_of_none hnone, s.turns_of_none hnone]
  | succ n ih =>
    cases h : s.turn b with
    | none => rw [s.turns_of_none h, s.turns_of_none h]
    | some p =>
      have hlt := s.turn_length (o := p.1) (r := p.2) h
      obtain ⟨m, rfl⟩ := Nat.exists_eq_succ_of_ne_zero (show m ≠ 0 by omega)
      rw [turns, turns, h]
      simp only [ih (m := m) (b := p.2) (by omega) (by omega)]

theorem drain_of_none (h : s.turn b = none) : s.drain b = ([], s.keep b) :=
  s.turns_of_none h _

theorem drain_of_some {r : List α} {o : Option β} (h : s.turn b = some (o, r)) :
    s.drain b = (o.toList ++ (s.drain r).1, (s.drain r).2) := by
  have hlt := s.turn_length h
  obtain ⟨n, hn⟩ := Nat.exists_eq_succ_of_ne_zero (show b.length ≠ 0 by omega)
  have hturns := s.turns_of_le (n := n) (b := r) (by omega) (Nat.le_refl _)
  rw [drain, hn, turns, h, drain, ← hturns]

theorem induction {P : List α → Prop} (waits : ∀ b, s.turn b = none → P b)
    (takes : ∀ b r o, s.turn b = some (o, r) → P r → P b) (b : List α) : P b := by
  induction hn : b.length using Nat.strongRecOn generalizing b with
  | ind n ih =>
    cases h : s.turn b with
    | none => exact waits b h
    | some p => exact takes b p.2 p.1 h (ih _ (hn ▸ s.turn_length (o := p.1) (r := p.2) h) p.2 rfl)

theorem drain_congr {c : List α} (hturn : s.turn b = s.turn c) (hkeep : s.keep b = s.keep c) :
    s.drain b = s.drain c := by
  cases h : s.turn b with
  | none => rw [s.drain_of_none h, s.drain_of_none (hturn ▸ h), hkeep]
  | some p =>
    have hc : s.turn c = some (p.1, p.2) := hturn ▸ h
    rw [s.drain_of_some (o := p.1) (r := p.2) h, s.drain_of_some hc]

theorem drain_append (b c : List α) : s.drain (b ++ c) =
    ((s.drain b).1 ++ (s.drain ((s.drain b).2 ++ c)).1, (s.drain ((s.drain b).2 ++ c)).2) := by
  induction b using s.induction with
  | waits b h =>
    rw [s.drain_of_none h, List.nil_append]
    exact s.drain_congr (s.turn_keep c h).symm (s.keep_append c h).symm
  | takes b r o h ih =>
    rw [s.drain_of_some h, s.drain_of_some (s.turn_append c h), ih, List.append_assoc]

theorem drain_kept (b : List α) : (s.drain (s.drain b).2).1 = [] := by
  have h := congrArg Prod.fst (s.drain_append b [])
  rw [List.append_nil, List.append_nil] at h
  exact List.self_eq_append_right.mp h

/-- What is given out of a list of chunks, with `b` kept from before. -/
def feed : List α → List (List α) → List β
  | _, [] => []
  | b, c :: cs => (s.drain (b ++ c)).1 ++ feed (s.drain (b ++ c)).2 cs

theorem feed_eq (hb : (s.drain b).1 = []) (cs : List (List α)) :
    s.feed b cs = (s.drain (b ++ cs.flatten)).1 := by
  induction cs generalizing b with
  | nil => rw [List.flatten_nil, List.append_nil, hb, feed]
  | cons c cs ih =>
    rw [feed, ih (s.drain_kept (b ++ c)), List.flatten_cons, ← List.append_assoc,
      s.drain_append (b ++ c)]

end Scanner

end ArduConfigurator
