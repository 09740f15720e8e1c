import ArduConfigurator.Lib.Entries
import Mathlib.Data.List.Infix

/-! # The write order of drafts with enable gates

A draft whose definition marks it as an enable gate is written before the drafts that share its
group prefix. Each draft gets a key of three numbers, and the batch is sorted by it. -/
namespace ArduConfigurator.ViewModels
set_option autoImplicit false

/-! ## The order of the batch -/

structure ParameterDraftEntry where
  id : String
  enableGate : Bool

def groupPrefixOf (id : String) : Option (List Char) :=
  let group := (id.toList.reverse.dropWhile fun c => c ≠ '_').reverse
  if 1 < group.length then some group else none

def isMaster (id : String) : Bool := "_ENABLE".toList.isSuffixOf id.toList

def gateIndexByPrefix (drafts : List ParameterDraftEntry) : JsMap (List Char) ℕ :=
  drafts.zipIdx.foldl
    (fun gates entry =>
      if entry.1.enableGate then
        match groupPrefixOf entry.1.id with
        | some group => gates.set group entry.2
        | none => gates
      else gates)
    JsMap.empty

structure Keyed where
  draft : ParameterDraftEntry
  sortPos : ℤ
  rank : ℕ
  index : ℕ

def keyOf (gates : JsMap (List Char) ℕ) (draft : ParameterDraftEntry) (index : ℕ) : Keyed :=
  if draft.enableGate then
    { draft, sortPos := if isMaster draft.id then -1 else index, rank := 0, index }
  else
    match (groupPrefixOf draft.id).bind fun group => gates.get group with
    | some gateIndex => { draft, sortPos := gateIndex, rank := 1, index }
    | none => { draft, sortPos := index, rank := 0, index }

/-- `a.sortPos - b.sortPos || a.rank - b.rank || a.index - b.index`. -/
def compareKeys (a b : Keyed) : ℤ :=
  if a.sortPos - b.sortPos ≠ 0 then a.sortPos - b.sortPos
  else if (a.rank : ℤ) - b.rank ≠ 0 then (a.rank : ℤ) - b.rank
  else (a.index : ℤ) - b.index

def keysOf (drafts : List ParameterDraftEntry) : List Keyed :=
  drafts.zipIdx.map fun entry => keyOf (gateIndexByPrefix drafts) entry.1 entry.2

def orderDraftsByEnableGate (drafts : List ParameterDraftEntry) : List ParameterDraftEntry :=
  if (gateIndexByPrefix drafts).size = 0 then drafts
  else ((keysOf drafts).mergeSort fun a b => compareKeys a b ≤ 0).map Keyed.draft

/-! ## The keys -/

theorem compareKeys_le {a b : Keyed} :
    compareKeys a b ≤ 0 ↔ a.sortPos < b.sortPos ∨ a.sortPos = b.sortPos ∧
      (a.rank < b.rank ∨ a.rank = b.rank ∧ a.index ≤ b.index) := by
  unfold compareKeys
  split_ifs <;> omega

theorem compareKeys_trans (a b c : Keyed) :
    decide (compareKeys a b ≤ 0) → decide (compareKeys b c ≤ 0) →
      decide (compareKeys a c ≤ 0) := by
  simp only [decide_eq_true_eq, compareKeys_le]
  omega

theorem compareKeys_total (a b : Keyed) :
    decide (compareKeys a b ≤ 0) || decide (compareKeys b a ≤ 0) := by
  simp only [Bool.or_eq_true, decide_eq_true_eq, compareKeys_le]
  omega

theorem gateIndexByPrefix_concat (drafts : List ParameterDraftEntry) (d : ParameterDraftEntry) :
    gateIndexByPrefix (drafts ++ [d]) =
      if d.enableGate then
        match groupPrefixOf d.id with
        | some group => (gateIndexByPrefix drafts).set group drafts.length
        | none => gateIndexByPrefix drafts
      else gateIndexByPrefix drafts := by
  simp [gateIndexByPrefix, List.zipIdx_append]

variable {drafts : List ParameterDraftEntry} {group : List Char}

theorem gate_of_get {i : ℕ} (h : (gateIndexByPrefix drafts).get group = some i) :
    ∃ g, drafts[i]? = some g ∧ g.enableGate = true ∧ groupPrefixOf g.id = some group := by
  induction drafts using List.reverseRecOn with
  | nil => cases h
  | append_singleton drafts d ih =>
    have hold : (gateIndexByPrefix drafts).get group = some i →
        ∃ g, (drafts ++ [d])[i]? = some g ∧ g.enableGate = true ∧
          groupPrefixOf g.id = some group := by
      intro hget
      obtain ⟨g, hg, hgate, hgroup⟩ := ih hget
      have hlt := (List.getElem?_eq_some_iff.mp hg).1
      exact ⟨g, by rw [List.getElem?_append_left hlt, hg], hgate, hgroup⟩
    rw [gateIndexByPrefix_concat] at h
    split_ifs at h with hd
    · cases hgroup : groupPrefixOf d.id with
      | none =>
        rw [hgroup] at h
        exact hold h
      | some group' =>
        simp only [hgroup, JsMap.get_set] at h
        split_ifs at h with heq
        · cases h
          exact ⟨d, by simp, hd, by rw [hgroup, heq]⟩
        · exact hold h
    · exact hold h

variable {g : ParameterDraftEntry}

theorem get_of_gate {j : ℕ} (hg : drafts[j]? = some g) (hgate : g.enableGate = true)
    (hgroup : groupPrefixOf g.id = some group) :
    ∃ i, (gateIndexByPrefix drafts).get group = some i ∧ j ≤ i := by
  induction drafts using List.reverseRecOn with
  | nil => cases hg
  | append_singleton drafts d ih =>
    have hj := (List.getElem?_eq_some_iff.mp hg).1
    rw [List.length_append, List.length_singleton] at hj
    rw [gateIndexByPrefix_concat]
    by_cases hlast : j = drafts.length
    · have hd : d = g := by simpa [hlast] using hg
      subst hd
      simp only [hgate, if_true, hgroup, JsMap.get_set]
      exact ⟨drafts.length, rfl, hlast.le⟩
    · obtain ⟨i, hi, hle⟩ := ih (by rwa [List.getElem?_append_left (by omega)] at hg)
      split_ifs with hd
      · cases groupPrefixOf d.id with
        | none => exact ⟨i, hi, hle⟩
        | some group' =>
          simp only [JsMap.get_set]
          split_ifs with heq
          · exact ⟨drafts.length, rfl, by omega⟩
          · exact ⟨i, hi, hle⟩
      · exact ⟨i, hi, hle⟩

theorem mem_keysOf {k : Keyed} :
    k ∈ keysOf drafts ↔
      ∃ d i, drafts[i]? = some d ∧ k = keyOf (gateIndexByPrefix drafts) d i := by
  simp only [keysOf, List.mem_map, Prod.exists, List.mem_zipIdx_iff_getElem?]
  constructor
  · rintro ⟨d, i, hd, rfl⟩
    exact ⟨d, i, hd, rfl⟩
  · rintro ⟨d, i, hd, rfl⟩
    exact ⟨d, i, hd, rfl⟩

@[simp] theorem keyOf_draft (gates : JsMap (List Char) ℕ) (d : ParameterDraftEntry) (i : ℕ) :
    (keyOf gates d i).draft = d := by
  unfold keyOf
  split_ifs
  · rfl
  · rfl
  · split <;> rfl

@[simp] theorem keyOf_index (gates : JsMap (List Char) ℕ) (d : ParameterDraftEntry) (i : ℕ) :
    (keyOf gates d i).index = i := by
  unfold keyOf
  split_ifs
  · rfl
  · rfl
  · split <;> rfl

theorem map_draft_keysOf (drafts : List ParameterDraftEntry) :
    (keysOf drafts).map Keyed.draft = drafts := by
  rw [keysOf, List.map_map]
  have hfst : (Keyed.draft ∘ fun entry : ParameterDraftEntry × ℕ =>
      keyOf (gateIndexByPrefix drafts) entry.1 entry.2) = Prod.fst :=
    funext fun entry => keyOf_draft _ _ _
  rw [hfst, List.zipIdx_map_fst]

theorem keysOf_index_lt (drafts : List ParameterDraftEntry) :
    (keysOf drafts).Pairwise fun a b => a.index < b.index := by
  rw [keysOf, List.pairwise_map]
  simp only [keyOf_index]
  rw [← List.pairwise_map (f := Prod.snd), List.zipIdx_map_snd]
  exact List.pairwise_lt_range'

/-! ## Two drafts whose keys differ -/

theorem pair_sublist_of_pairwise {α : Type*} {r : α → α → Prop} {l : List α}
    (hl : l.Pairwise r) {a b : α} (ha : a ∈ l) (hb : b ∈ l) (hne : a ≠ b) (hr : ¬ r b a) :
    [a, b].Sublist l := by
  induction l with
  | nil => cases ha
  | cons x l ih =>
    obtain ⟨hx, hl⟩ := List.pairwise_cons.mp hl
    rcases List.mem_cons.mp ha with rfl | hal
    · rcases List.mem_cons.mp hb with rfl | hbl
      · exact absurd rfl hne
      · exact (List.singleton_sublist.mpr hbl).cons_cons a
    · rcases List.mem_cons.mp hb with rfl | hbl
      · exact absurd (hx a hal) hr
      · exact (ih hl hal hbl).cons x

theorem pair_sublist_order (hsize : (gateIndexByPrefix drafts).size ≠ 0) {d : ParameterDraftEntry}
    {j i : ℕ} (hg : drafts[j]? = some g) (hd : drafts[i]? = some d)
    (h : ¬ compareKeys (keyOf (gateIndexByPrefix drafts) d i) (keyOf (gateIndexByPrefix drafts) g j) ≤ 0) :
    [g, d].Sublist (orderDraftsByEnableGate drafts) := by
  rw [orderDraftsByEnableGate, if_neg hsize]
  have hsorted := List.pairwise_mergeSort compareKeys_trans compareKeys_total (keysOf drafts)
  have hmem : ∀ {e : ParameterDraftEntry} {k : ℕ}, drafts[k]? = some e →
      keyOf (gateIndexByPrefix drafts) e k ∈
        (keysOf drafts).mergeSort fun a b => compareKeys a b ≤ 0 :=
    fun he => (List.mergeSort_perm _ _).mem_iff.mpr (mem_keysOf.mpr ⟨_, _, he, rfl⟩)
  have hpair := pair_sublist_of_pairwise hsorted (hmem hg) (hmem hd)
    (fun heq => h (by rw [heq, compareKeys_le]; omega)) (by simpa using h)
  have hmap := hpair.map Keyed.draft
  simpa using hmap

/-! ## The order -/

section Order
variable {d : ParameterDraftEntry}

def IsMasterGate (d : ParameterDraftEntry) : Prop := d.enableGate = true ∧ isMaster d.id = true

def Gated (drafts : List ParameterDraftEntry) (d : ParameterDraftEntry) : Prop :=
  ∃ g ∈ drafts, g.enableGate = true ∧
    ∃ group, groupPrefixOf g.id = some group ∧ groupPrefixOf d.id = some group

def Stays (drafts : List ParameterDraftEntry) (d : ParameterDraftEntry) : Prop :=
  (d.enableGate = true ∧ isMaster d.id = false) ∨ (d.enableGate = false ∧ ¬ Gated drafts d)

structure WellOrdered (drafts ordered : List ParameterDraftEntry) : Prop where
  perm : ordered.Perm drafts
  gateFirst : ∀ g ∈ drafts, ∀ d ∈ drafts, g.enableGate = true → d.enableGate = false →
    ∀ group, groupPrefixOf g.id = some group → groupPrefixOf d.id = some group →
      [g, d].Sublist ordered
  masterFirst : ∀ g ∈ drafts, ∀ d ∈ drafts, IsMasterGate g → ¬ IsMasterGate d →
    [g, d].Sublist ordered
  stays : ∀ (i j : ℕ) (a b : ParameterDraftEntry), i < j → drafts[i]? = some a →
    drafts[j]? = some b → Stays drafts a → Stays drafts b → [a, b].Sublist ordered

theorem keyOf_gate_le (gates : JsMap (List Char) ℕ) (hgate : d.enableGate = true) (i : ℕ) :
    (keyOf gates d i).sortPos ≤ i ∧ (keyOf gates d i).rank = 0 := by
  rw [keyOf, if_pos hgate]
  dsimp only
  split_ifs
  · exact ⟨by omega, rfl⟩
  · exact ⟨Int.le_refl _, rfl⟩

theorem keyOf_master (gates : JsMap (List Char) ℕ) (h : IsMasterGate d) (i : ℕ) :
    (keyOf gates d i).sortPos = -1 := by
  rw [keyOf, if_pos h.1]
  exact if_pos h.2

theorem sortPos_nonneg (gates : JsMap (List Char) ℕ) (h : ¬ IsMasterGate d) (i : ℕ) :
    0 ≤ (keyOf gates d i).sortPos := by
  unfold keyOf
  split_ifs with hgate hmaster
  · exact absurd ⟨hgate, hmaster⟩ h
  · exact Int.natCast_nonneg i
  · split
    · exact Int.natCast_nonneg _
    · exact Int.natCast_nonneg i

theorem keyOf_stays (h : Stays drafts d) (i : ℕ) :
    (keyOf (gateIndexByPrefix drafts) d i).sortPos = i ∧
      (keyOf (gateIndexByPrefix drafts) d i).rank = 0 := by
  rcases h with ⟨hgate, hmaster⟩ | ⟨hgate, hfree⟩
  · simp [keyOf, hgate, hmaster]
  · have hnone : ((groupPrefixOf d.id).bind fun group => (gateIndexByPrefix drafts).get group) =
        none := by
      rw [Option.eq_none_iff_forall_not_mem]
      intro k hk
      obtain ⟨group, hgroup, hget⟩ := Option.bind_eq_some_iff.mp hk
      obtain ⟨g, hg, hgate', hprefix⟩ := gate_of_get hget
      exact hfree ⟨g, List.mem_of_getElem? hg, hgate', group, hprefix, hgroup⟩
    simp [keyOf, hgate, hnone]

theorem size_ne_zero_of_get {group : List Char} {i : ℕ}
    (h : (gateIndexByPrefix drafts).get group = some i) : (gateIndexByPrefix drafts).size ≠ 0 := by
  intro hsize
  have hmem := JsMap.mem_entries_iff.mpr h
  rw [List.length_eq_zero_iff.mp hsize] at hmem
  cases hmem

theorem orderDraftsByEnableGate_perm (drafts : List ParameterDraftEntry) :
    (orderDraftsByEnableGate drafts).Perm drafts := by
  unfold orderDraftsByEnableGate
  split_ifs with hsize
  · exact List.Perm.refl drafts
  · have hsorted := (List.mergeSort_perm (keysOf drafts)
      fun a b => decide (compareKeys a b ≤ 0)).map Keyed.draft
    rwa [map_draft_keysOf] at hsorted

end Order

/-- The batch is only reordered: gates come before the drafts of their group, master gates before
everything else, and the drafts that no gate concerns keep their order. -/
theorem orderDraftsByEnableGate_correct (drafts : List ParameterDraftEntry)
    (hgroups : ∀ d ∈ drafts, d.enableGate = true → (groupPrefixOf d.id).isSome = true) :
    WellOrdered drafts (orderDraftsByEnableGate drafts) where
  perm := orderDraftsByEnableGate_perm drafts
  gateFirst g hg d hd hgate hplain group hgroup hsame := by
    obtain ⟨j, hj⟩ := List.getElem?_of_mem hg
    obtain ⟨i, hi⟩ := List.getElem?_of_mem hd
    obtain ⟨k, hk, hle⟩ := get_of_gate hj hgate hgroup
    obtain ⟨hpos, hrank⟩ := keyOf_gate_le (gateIndexByPrefix drafts) hgate j
    have hkey : (keyOf (gateIndexByPrefix drafts) d i).sortPos = k ∧
        (keyOf (gateIndexByPrefix drafts) d i).rank = 1 := by
      simp [keyOf, hplain, hsame, hk]
    apply pair_sublist_order (size_ne_zero_of_get hk) hj hi
    rw [compareKeys_le]
    omega
  masterFirst g hg d hd hmaster hother := by
    obtain ⟨j, hj⟩ := List.getElem?_of_mem hg
    obtain ⟨i, hi⟩ := List.getElem?_of_mem hd
    obtain ⟨group, hgroup⟩ := Option.isSome_iff_exists.mp (hgroups g hg hmaster.1)
    obtain ⟨k, hk, -⟩ := get_of_gate hj hmaster.1 hgroup
    have hpos := keyOf_master (gateIndexByPrefix drafts) hmaster j
    have hnonneg := sortPos_nonneg (gateIndexByPrefix drafts) hother i
    apply pair_sublist_order (size_ne_zero_of_get hk) hj hi
    rw [compareKeys_le]
    omega
  stays i j a b hij ha hb hsa hsb := by
    obtain ⟨hposa, hranka⟩ := keyOf_stays hsa i
    obtain ⟨hposb, hrankb⟩ := keyOf_stays hsb j
    by_cases hsize : (gateIndexByPrefix drafts).size = 0
    · have hpair := pair_sublist_of_pairwise (keysOf_index_lt drafts)
        (mem_keysOf.mpr ⟨a, i, ha, rfl⟩) (mem_keysOf.mpr ⟨b, j, hb, rfl⟩)
        (fun heq => by
          have hindex := congrArg Keyed.index heq
          rw [keyOf_index, keyOf_index] at hindex
          omega) (by rw [keyOf_index, keyOf_index]; omega)
      have hmap := hpair.map Keyed.draft
      rw [map_draft_keysOf] at hmap
      rw [orderDraftsByEnableGate, if_pos hsize]
      simpa using hmap
    · apply pair_sublist_order hsize ha hb
      rw [compareKeys_le, hposa, hranka, hposb, hrankb, keyOf_index, keyOf_index]
      omega

theorem orderDraftsByEnableGate_mixer :
    [⟨"FOLL_ENABLE", true⟩, ⟨"FOLL_DIST", false⟩].Sublist (orderDraftsByEnableGate
      [⟨"FOLL_DIST", false⟩, ⟨"RATE", false⟩, ⟨"FOLL_ENABLE", true⟩]) := by
  have hordered := orderDraftsByEnableGate_correct
    [⟨"FOLL_DIST", false⟩, ⟨"RATE", false⟩, ⟨"FOLL_ENABLE", true⟩] (by decide +kernel)
  exact hordered.gateFirst _ (by simp) _ (by simp) rfl rfl "FOLL_".toList (by decide +kernel)
    (by decide +kernel)

end ArduConfigurator.ViewModels
