import Mathlib.Data.List.Nodup

/-! # Insertion-ordered maps

The entries of a JavaScript map or object in the order in which their keys were first set: setting a
key that is there keeps its place. -/
namespace ArduConfigurator
set_option autoImplicit false

variable {κ α : Type*}

abbrev Entries (κ α : Type*) := List (κ × α)

namespace Entries

def keys (l : Entries κ α) : List κ := l.map Prod.fst

def values (l : Entries κ α) : List α := l.map Prod.snd

variable {l : Entries κ α}

theorem nodup_keys_filter (hl : l.keys.Nodup) (p : κ × α → Bool) :
    (keys (l.filter p)).Nodup :=
  hl.sublist (List.filter_sublist.map Prod.fst)

variable [DecidableEq κ]

def get (l : Entries κ α) (k : κ) : Option α :=
  match l with
  | [] => none
  | (j, v) :: rest => if j = k then some v else get rest k

def set (l : Entries κ α) (k : κ) (v : α) : Entries κ α :=
  match l with
  | [] => [(k, v)]
  | (j, w) :: rest => if j = k then (k, v) :: rest else (j, w) :: set rest k v

def erase (l : Entries κ α) (k : κ) : Entries κ α := l.filter fun e => e.1 ≠ k

def has (l : Entries κ α) (k : κ) : Bool := (l.get k).isSome

@[simp] theorem get_nil (k : κ) : get ([] : Entries κ α) k = none := rfl

theorem get_cons (j k : κ) (v : α) (l : Entries κ α) :
    get ((j, v) :: l) k = if j = k then some v else get l k := rfl

theorem set_ne_nil (l : Entries κ α) (k : κ) (v : α) : l.set k v ≠ [] := by
  cases l with
  | nil => exact List.cons_ne_nil _ _
  | cons e l =>
    rw [set]
    split_ifs <;> exact List.cons_ne_nil _ _

@[simp] theorem get_set_self (l : Entries κ α) (k : κ) (v : α) : (l.set k v).get k = some v := by
  induction l with
  | nil => simp [set, get]
  | cons e l ih =>
    rw [set]
    by_cases hj : e.1 = k
    · simp [hj, get_cons]
    · rw [if_neg hj, get_cons, if_neg hj, ih]

variable {k : κ}

theorem get_set_ne {j : κ} (h : j ≠ k) (l : Entries κ α) (v : α) :
    (l.set k v).get j = l.get j := by
  induction l with
  | nil => simp [set, get, h.symm]
  | cons e l ih =>
    rw [set]
    by_cases hj : e.1 = k
    · rw [if_pos hj, get_cons, if_neg h.symm, get_cons, if_neg (fun he => h (he.symm.trans hj))]
    · rw [if_neg hj, get_cons, get_cons, ih]

theorem get_set (l : Entries κ α) (j k : κ) (v : α) :
    (l.set k v).get j = if j = k then some v else l.get j := by
  by_cases h : j = k
  · rw [if_pos h, h, get_set_self]
  · rw [if_neg h, get_set_ne h]

theorem get_filter {p : κ → Bool} (l : Entries κ α) (k : κ) :
    get (l.filter fun e => p e.1) k = if p k then l.get k else none := by
  induction l with
  | nil => simp
  | cons e l ih =>
    rw [List.filter_cons]
    by_cases hk : e.1 = k
    · by_cases hp : p k
      · rw [if_pos (hk ▸ hp), get_cons, get_cons, if_pos hk, if_pos hk, if_pos hp]
      · simp [hk, hp, ih]
    · by_cases hp : p e.1
      · rw [if_pos hp, get_cons, get_cons, if_neg hk, if_neg hk, ih]
      · rw [if_neg hp, get_cons, if_neg hk, ih]

theorem get_erase (l : Entries κ α) (j k : κ) :
    (l.erase k).get j = if j = k then none else l.get j := by
  have h := get_filter (p := fun i => decide (i ≠ k)) l j
  rw [erase, h]
  by_cases hj : j = k <;> simp [hj]

theorem get_eq_none_iff : l.get k = none ↔ k ∉ l.keys := by
  induction l with
  | nil => simp [keys]
  | cons e l ih =>
    rw [get_cons, keys, List.map_cons, List.mem_cons, not_or, ← keys, ← ih]
    by_cases hk : e.1 = k
    · simp [hk]
    · simp [hk, Ne.symm hk]

theorem isSome_get_iff : (l.get k).isSome ↔ k ∈ l.keys := by
  rw [Option.isSome_iff_ne_none, ne_eq, get_eq_none_iff, not_not]

variable {v : α}

theorem mem_of_get (h : l.get k = some v) : (k, v) ∈ l := by
  induction l with
  | nil => cases h
  | cons e l ih =>
    rw [get_cons] at h
    by_cases hk : e.1 = k
    · rw [if_pos hk] at h
      cases h
      exact List.mem_cons.mpr (.inl (by rw [← hk]))
    · rw [if_neg hk] at h
      exact List.mem_cons_of_mem _ (ih h)

theorem get_of_mem (hl : l.keys.Nodup) (h : (k, v) ∈ l) :
    l.get k = some v := by
  induction l with
  | nil => cases h
  | cons e l ih =>
    rw [keys, List.map_cons, List.nodup_cons] at hl
    rw [get_cons]
    obtain rfl | h := List.mem_cons.mp h
    · rw [if_pos rfl]
    · have hne : e.1 ≠ k := by
        rintro rfl
        exact hl.1 (List.mem_map.mpr ⟨_, h, rfl⟩)
      rw [if_neg hne, ih hl.2 h]

theorem keys_set_of_mem (h : k ∈ l.keys) (v : α) :
    (l.set k v).keys = l.keys := by
  induction l with
  | nil => cases h
  | cons e l ih =>
    rw [set]
    by_cases hk : e.1 = k
    · rw [if_pos hk, keys, keys, List.map_cons, List.map_cons, hk]
    · rw [keys, List.map_cons, List.mem_cons] at h
      rw [if_neg hk, keys, List.map_cons, ← keys, ih (h.resolve_left (Ne.symm hk))]
      rfl

theorem set_of_notMem (h : k ∉ l.keys) (v : α) :
    l.set k v = l ++ [(k, v)] := by
  induction l with
  | nil => rfl
  | cons e l ih =>
    rw [keys, List.map_cons, List.mem_cons, not_or] at h
    rw [set, if_neg (Ne.symm h.1), ih h.2]
    rfl

theorem keys_set_of_notMem (h : k ∉ l.keys) (v : α) :
    (l.set k v).keys = l.keys ++ [k] := by
  rw [set_of_notMem h, keys, keys, List.map_append]
  rfl

theorem mem_keys_set {j : κ} :
    j ∈ (l.set k v).keys ↔ j = k ∨ j ∈ l.keys := by
  by_cases h : k ∈ l.keys
  · rw [keys_set_of_mem h]
    constructor
    · exact .inr
    · rintro (rfl | hj)
      · exact h
      · exact hj
  · rw [keys_set_of_notMem h, List.mem_append, List.mem_singleton, or_comm]

theorem nodup_keys_set (hl : l.keys.Nodup) (k : κ) (v : α) :
    (l.set k v).keys.Nodup := by
  by_cases h : k ∈ l.keys
  · rwa [keys_set_of_mem h]
  · rw [keys_set_of_notMem h]
    exact List.nodup_append.mpr ⟨hl, List.nodup_singleton k, by
      rintro j hj _ hk rfl
      exact h (List.mem_singleton.mp hk ▸ hj)⟩

/-- Setting a key to a value that `f` does not tell from the old one keeps the entries up to `f`. -/
theorem map_set_of_get {β : Type*} {f : α → β} {w : α} (h : l.get k = some w) (hf : f v = f w) :
    (l.set k v).map (fun e => (e.1, f e.2)) = l.map fun e => (e.1, f e.2) := by
  induction l with
  | nil => cases h
  | cons e l ih =>
    rw [get_cons] at h
    rw [set]
    by_cases hk : e.1 = k
    · rw [if_pos hk] at h ⊢
      cases h
      rw [List.map_cons, List.map_cons, hf, hk]
    · rw [if_neg hk] at h ⊢
      rw [List.map_cons, List.map_cons, ih h]

end Entries

/-- A JavaScript `Map`: entries whose keys are distinct. -/
structure JsMap (κ α : Type*) where
  entries : Entries κ α
  nodup : entries.keys.Nodup

namespace JsMap

def empty : JsMap κ α := ⟨[], List.nodup_nil⟩

def size (m : JsMap κ α) : ℕ := m.entries.length

def keys (m : JsMap κ α) : List κ := m.entries.keys

def values (m : JsMap κ α) : List α := m.entries.values

theorem size_eq_length_keys (m : JsMap κ α) : m.size = m.keys.length := (List.length_map _).symm

/-- The map without the entries that fail `p`. -/
def filter (m : JsMap κ α) (p : κ → α → Bool) : JsMap κ α :=
  ⟨m.entries.filter fun e => p e.1 e.2, Entries.nodup_keys_filter m.nodup _⟩

variable [DecidableEq κ]

def get (m : JsMap κ α) (k : κ) : Option α := m.entries.get k

def has (m : JsMap κ α) (k : κ) : Bool := (m.get k).isSome

def set (m : JsMap κ α) (k : κ) (v : α) : JsMap κ α :=
  ⟨m.entries.set k v, Entries.nodup_keys_set m.nodup k v⟩

def delete (m : JsMap κ α) (k : κ) : JsMap κ α :=
  ⟨m.entries.erase k, Entries.nodup_keys_filter m.nodup _⟩

@[simp] theorem get_empty (k : κ) : (empty : JsMap κ α).get k = none := rfl

@[simp] theorem get_set (m : JsMap κ α) (j k : κ) (v : α) :
    (m.set k v).get j = if j = k then some v else m.get j := Entries.get_set _ _ _ _

@[simp] theorem get_delete (m : JsMap κ α) (j k : κ) :
    (m.delete k).get j = if j = k then none else m.get j := Entries.get_erase _ _ _

variable {m : JsMap κ α} {k : κ}

theorem size_set_of_has (h : m.has k = true) (v : α) :
    (m.set k v).size = m.size := by
  rw [size_eq_length_keys, size_eq_length_keys]
  exact congrArg List.length (Entries.keys_set_of_mem (Entries.isSome_get_iff.mp h) v)

theorem size_set_le (m : JsMap κ α) (k : κ) (v : α) : (m.set k v).size ≤ m.size + 1 := by
  cases h : m.has k with
  | true =>
    rw [size_set_of_has h]
    exact Nat.le_succ _
  | false =>
    have hk : k ∉ m.entries.keys := fun hk => by
      rw [has, Option.isSome_eq_false_iff, Option.isNone_iff_eq_none] at h
      exact Entries.get_eq_none_iff.mp h hk
    have hkeys : (m.set k v).keys = m.keys ++ [k] := Entries.keys_set_of_notMem hk v
    rw [size_eq_length_keys, size_eq_length_keys, hkeys, List.length_append]
    exact Nat.le_refl _

theorem size_delete_le (m : JsMap κ α) (k : κ) : (m.delete k).size ≤ m.size :=
  List.length_filter_le _ _

theorem size_delete_lt (h : m.has k = true) :
    (m.delete k).size < m.size := by
  obtain ⟨v, hv⟩ := Option.isSome_iff_exists.mp h
  exact List.length_filter_lt_length_iff_exists.mpr
    ⟨(k, v), Entries.mem_of_get hv, by simp⟩

theorem mem_entries_iff {v : α} :
    (k, v) ∈ m.entries ↔ m.get k = some v :=
  ⟨Entries.get_of_mem m.nodup, Entries.mem_of_get⟩

theorem mem_keys_iff : k ∈ m.keys ↔ (m.get k).isSome :=
  Entries.isSome_get_iff.symm

theorem get_eq_none_iff : m.get k = none ↔ k ∉ m.keys :=
  Entries.get_eq_none_iff

@[simp] theorem get_filter (m : JsMap κ α) (p : κ → α → Bool) (k : κ) :
    (m.filter p).get k = (m.get k).filter (p k) := by
  cases hk : m.get k with
  | none =>
    rw [Option.filter_none, get_eq_none_iff, keys, filter, Entries.keys, List.mem_map]
    rintro ⟨e, he, rfl⟩
    exact get_eq_none_iff.mp hk (List.mem_map.mpr ⟨e, (List.mem_filter.mp he).1, rfl⟩)
  | some v =>
    have hmem := mem_entries_iff.mpr hk
    by_cases hp : p k v = true
    · rw [Option.filter_some_pos hp]
      exact mem_entries_iff.mp (List.mem_filter.mpr ⟨hmem, hp⟩)
    · rw [Option.filter_some_neg (Bool.eq_false_iff.mpr hp), get_eq_none_iff, keys, filter, Entries.keys, List.mem_map]
      rintro ⟨⟨j, w⟩, he, rfl⟩
      obtain ⟨he, hpw⟩ := List.mem_filter.mp he
      obtain rfl := Option.some.inj (hk.symm.trans (mem_entries_iff.mp he))
      exact hp hpw

end JsMap
end ArduConfigurator
