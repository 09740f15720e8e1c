import ArduConfigurator.Lib.Entries
import Mathlib.Data.List.Induction

/-! # The panes of the plot workspace

A series is drawn on the pane that the map gives for its key, or on the one named after the key.
A pane keeps the name of one of its series when that series moves out of it by an assignment to
another pane, and only a series that moves out to a pane of its own hands its name on. -/
namespace ArduConfigurator.ViewModels
set_option autoImplicit false

variable {κ τ : Type*} [DecidableEq κ]

/-! ## The panes -/

structure PlotPaneGroup (κ τ : Type*) where
  id : κ
  series : List τ

/-- `paneOf.get(key) ?? key`. -/
def paneIdOf (paneOf : JsMap κ κ) (key : κ) : κ := (paneOf.get key).getD key

def pushOnto (id : κ) (entry : τ) (panes : List (PlotPaneGroup κ τ)) :
    List (PlotPaneGroup κ τ) :=
  if panes.any fun pane => pane.id = id then
    panes.map fun pane => if pane.id = id then { pane with series := pane.series ++ [entry] }
      else pane
  else panes ++ [⟨id, [entry]⟩]

def groupIntoPanes (series : List τ) (keyOf : τ → κ) (paneOf : JsMap κ κ) :
    List (PlotPaneGroup κ τ) :=
  series.foldl (fun panes entry => pushOnto (paneIdOf paneOf (keyOf entry)) entry panes) []

/-- The members of the pane named after `key`, in the order of the map. -/
def orphanedBy (paneOf : JsMap κ κ) (key : κ) : List κ :=
  (paneOf.entries.filter fun entry => entry.2 = key).map Prod.fst

def assignPane (paneOf : JsMap κ κ) (key : κ) : Option κ → JsMap κ κ
  | some paneId => if paneId = key then paneOf.delete key else paneOf.set key paneId
  | none =>
    let next := paneOf.delete key
    match orphanedBy next key with
    | [] => next
    | heir :: rest => rest.foldl (fun next member => next.set member heir) (next.delete heir)

def overlayAll : List κ → JsMap κ κ
  | [] => JsMap.empty
  | first :: rest => rest.foldl (fun panes key => panes.set key first) JsMap.empty

def prunePanes (paneOf : JsMap κ κ) (keys : List κ) : JsMap κ κ :=
  paneOf.filter fun key _ => decide (key ∈ keys)

inductive Operation (κ : Type*)
  | assign (key : κ) (paneId : Option κ)
  | overlay (keys : List κ)
  | prune (keys : List κ)

def Operation.apply (paneOf : JsMap κ κ) : Operation κ → JsMap κ κ
  | assign key paneId => assignPane paneOf key paneId
  | overlay keys => overlayAll keys
  | prune keys => prunePanes paneOf keys

def arranged (ops : List (Operation κ)) : JsMap κ κ := ops.foldl Operation.apply JsMap.empty

/-! ## The grouping -/

/-- What the panes of a list of series are: one pane an id, with the series of this id. -/
structure Groups (paneId : τ → κ) (series : List τ) (panes : List (PlotPaneGroup κ τ)) :
    Prop where
  members : ∀ pane ∈ panes, ∀ entry, entry ∈ pane.series ↔ entry ∈ series ∧ paneId entry = pane.id
  covered : ∀ entry ∈ series, ∃ pane ∈ panes, pane.id = paneId entry

variable {series : List τ}

theorem Groups.push {paneId : τ → κ} {panes : List (PlotPaneGroup κ τ)}
    (h : Groups paneId series panes) (entry : τ) :
    Groups paneId (series ++ [entry]) (pushOnto (paneId entry) entry panes) := by
  unfold pushOnto
  split_ifs with hany
  · obtain ⟨known, hknown, hid⟩ := List.any_eq_true.mp hany
    rw [decide_eq_true_eq] at hid
    constructor
    · intro pane hpane e
      obtain ⟨old, hold, rfl⟩ := List.mem_map.mp hpane
      split_ifs with heq
      · simp only [List.mem_append, List.mem_singleton, h.members old hold]
        constructor
        · rintro (⟨he, hp⟩ | rfl)
          · exact ⟨Or.inl he, hp⟩
          · exact ⟨Or.inr rfl, heq.symm⟩
        · rintro ⟨he | rfl, hp⟩
          · exact Or.inl ⟨he, hp⟩
          · exact Or.inr rfl
      · simp only [List.mem_append, List.mem_singleton, h.members old hold]
        constructor
        · rintro ⟨he, hp⟩
          exact ⟨Or.inl he, hp⟩
        · rintro ⟨he | rfl, hp⟩
          · exact ⟨he, hp⟩
          · exact absurd hp.symm heq
    · intro e he
      have hold : ∃ pane ∈ panes, pane.id = paneId e := by
        rcases List.mem_append.mp he with he | he
        · exact h.covered e he
        · rw [List.mem_singleton.mp he]
          exact ⟨known, hknown, hid⟩
      obtain ⟨pane, hpane, hp⟩ := hold
      refine ⟨_, List.mem_map_of_mem hpane, ?_⟩
      split_ifs <;> exact hp
  · have hnew : ∀ pane ∈ panes, pane.id ≠ paneId entry := by
      intro pane hpane heq
      exact hany (List.any_eq_true.mpr ⟨pane, hpane, by simpa using heq⟩)
    constructor
    · intro pane hpane e
      rcases List.mem_append.mp hpane with hold | hlast
      · simp only [List.mem_append, List.mem_singleton, h.members pane hold]
        constructor
        · rintro ⟨he, hp⟩
          exact ⟨Or.inl he, hp⟩
        · rintro ⟨he | rfl, hp⟩
          · exact ⟨he, hp⟩
          · exact absurd hp.symm (hnew pane hold)
      · rw [List.mem_singleton.mp hlast]
        simp only [List.mem_append, List.mem_singleton]
        constructor
        · rintro rfl
          exact ⟨Or.inr rfl, rfl⟩
        · rintro ⟨he | rfl, hp⟩
          · obtain ⟨pane, hpane, hid⟩ := h.covered e he
            exact absurd (hid.trans hp) (hnew pane hpane)
          · rfl
    · intro e he
      rcases List.mem_append.mp he with he | he
      · obtain ⟨pane, hpane, hp⟩ := h.covered e he
        exact ⟨pane, List.mem_append_left _ hpane, hp⟩
      · rw [List.mem_singleton.mp he]
        exact ⟨_, List.mem_append_right _ (List.mem_singleton_self _), rfl⟩

theorem groups_groupIntoPanes (series : List τ) (keyOf : τ → κ) (paneOf : JsMap κ κ) :
    Groups (fun entry => paneIdOf paneOf (keyOf entry)) series
      (groupIntoPanes series keyOf paneOf) := by
  induction series using List.reverseRecOn with
  | nil => exact ⟨by simp [groupIntoPanes], by simp⟩
  | append_singleton series entry ih =>
    rw [groupIntoPanes, List.foldl_append]
    exact ih.push entry

def Together (panes : List (PlotPaneGroup κ τ)) (a b : τ) : Prop :=
  ∃ pane ∈ panes, a ∈ pane.series ∧ b ∈ pane.series

variable {paneOf : JsMap κ κ}

theorem together_iff {keyOf : τ → κ} {a b : τ} (ha : a ∈ series) (hb : b ∈ series) :
    Together (groupIntoPanes series keyOf paneOf) a b ↔
      paneIdOf paneOf (keyOf a) = paneIdOf paneOf (keyOf b) := by
  have h := groups_groupIntoPanes series keyOf paneOf
  constructor
  · rintro ⟨pane, hpane, hap, hbp⟩
    exact ((h.members pane hpane a).mp hap).2.trans ((h.members pane hpane b).mp hbp).2.symm
  · intro heq
    obtain ⟨pane, hpane, hid⟩ := h.covered a ha
    exact ⟨pane, hpane, (h.members pane hpane a).mpr ⟨ha, hid.symm⟩,
      (h.members pane hpane b).mpr ⟨hb, heq.symm.trans hid.symm⟩⟩

/-! ## Moves -/

theorem get_foldl_set (members : List κ) (v : κ) (m : JsMap κ κ) (k : κ) :
    (members.foldl (fun m member => m.set member v) m).get k =
      if k ∈ members then some v else m.get k := by
  induction members generalizing m with
  | nil => simp
  | cons member members ih =>
    rw [List.foldl_cons, ih, JsMap.get_set]
    by_cases hk : k ∈ members
    · simp [hk]
    · by_cases heq : k = member
      · simp [heq]
      · simp [hk, heq]

variable {key k : κ}

theorem mem_orphanedBy :
    k ∈ orphanedBy paneOf key ↔ paneOf.get k = some key := by
  simp only [orphanedBy, List.mem_map, List.mem_filter, decide_eq_true_eq]
  constructor
  · rintro ⟨entry, ⟨hmem, hpane⟩, rfl⟩
    rw [← hpane]
    exact JsMap.mem_entries_iff.mp hmem
  · intro hget
    exact ⟨(k, key), ⟨JsMap.mem_entries_iff.mpr hget, rfl⟩, rfl⟩

/-- The series whose own pane takes the members of the pane that `key` leaves. -/
def heirOf (paneOf : JsMap κ κ) (key : κ) : Option κ := (orphanedBy (paneOf.delete key) key).head?

variable {heir : κ}

theorem get_heir (h : heirOf paneOf key = some heir) :
    heir ≠ key ∧ paneOf.get heir = some key := by
  have hmem := mem_orphanedBy.mp (List.mem_of_head? h)
  rw [JsMap.get_delete] at hmem
  split_ifs at hmem with heq
  exact ⟨heq, hmem⟩

theorem assignPane_of_nil (h : orphanedBy (paneOf.delete key) key = []) :
    assignPane paneOf key none = paneOf.delete key := by
  simp only [assignPane, h]

theorem assignPane_of_cons {rest : List κ} (h : orphanedBy (paneOf.delete key) key = heir :: rest) :
    assignPane paneOf key none =
      rest.foldl (fun next member => next.set member heir) ((paneOf.delete key).delete heir) := by
  simp only [assignPane, h]

theorem paneIdOf_moved_out (paneOf : JsMap κ κ) (hk : k ≠ key) :
    paneIdOf (assignPane paneOf key none) k =
      if paneOf.get k = some key then (heirOf paneOf key).getD k else paneIdOf paneOf k := by
  have hmem : k ∈ orphanedBy (paneOf.delete key) key ↔ paneOf.get k = some key := by
    rw [mem_orphanedBy, JsMap.get_delete, if_neg hk]
  unfold paneIdOf heirOf
  cases horphaned : orphanedBy (paneOf.delete key) key with
  | nil =>
    rw [horphaned] at hmem
    rw [assignPane_of_nil horphaned, if_neg (fun hget => absurd (hmem.mpr hget) List.not_mem_nil)]
    simp [hk]
  | cons heir rest =>
    rw [horphaned, List.mem_cons] at hmem
    rw [assignPane_of_cons horphaned]
    simp only [get_foldl_set, JsMap.get_delete, if_neg hk, List.head?_cons, Option.getD_some]
    by_cases hget : paneOf.get k = some key
    · rw [if_pos hget]
      rcases hmem.mpr hget with rfl | hrest
      · rw [if_pos rfl]
        split_ifs <;> rfl
      · rw [if_pos hrest]
        rfl
    · have hnot := not_or.mp (mt hmem.mp hget)
      rw [if_neg hget, if_neg hnot.2, if_neg hnot.1]

theorem get_moved_out (paneOf : JsMap κ κ) (key : κ) :
    (assignPane paneOf key none).get key = none := by
  have hkey : (paneOf.delete key).get key = none := by simp
  cases horphaned : orphanedBy (paneOf.delete key) key with
  | nil => rw [assignPane_of_nil horphaned, hkey]
  | cons heir rest =>
    have hnot : key ∉ rest := by
      intro hrest
      have hmem : key ∈ orphanedBy (paneOf.delete key) key := by
        rw [horphaned]
        exact List.mem_cons_of_mem _ hrest
      rw [mem_orphanedBy, hkey] at hmem
      cases hmem
    rw [assignPane_of_cons horphaned]
    simp only [get_foldl_set, if_neg hnot, JsMap.get_delete]
    split_ifs <;> rfl

theorem paneIdOf_moved_onto (paneOf : JsMap κ κ) (hk : k ≠ key) (paneId : κ) :
    paneIdOf (assignPane paneOf key (some paneId)) k = paneIdOf paneOf k := by
  rw [paneIdOf, paneIdOf, assignPane]
  split_ifs <;> simp [hk]

theorem moved_out_alone (paneOf : JsMap κ κ) (hk : k ≠ key) :
    paneIdOf (assignPane paneOf key none) k ≠ paneIdOf (assignPane paneOf key none) key := by
  have hown : paneIdOf (assignPane paneOf key none) key = key := by
    rw [paneIdOf, get_moved_out]
    rfl
  rw [hown, paneIdOf_moved_out paneOf hk]
  split_ifs with hget
  · cases hheir : heirOf paneOf key with
    | none => exact hk
    | some heir => exact (get_heir hheir).1
  · rw [paneIdOf]
    cases hpane : paneOf.get k with
    | none => exact hk
    | some pane =>
      rintro rfl
      exact hget hpane

/-- Other than by the members of the pane that the series leaves, nothing is drawn on the pane
named after their heir. -/
def LeavesHeirFree (paneOf : JsMap κ κ) (key : κ) (target : Option κ) : Prop :=
  target = none → ∀ heir, heirOf paneOf key = some heir →
    ∀ other, other ≠ key → paneOf.get other ≠ some heir

theorem paneIdOf_eq_iff_of_free (h : LeavesHeirFree paneOf key none) {a b : κ} (ha : a ≠ key)
    (hb : b ≠ key) :
    paneIdOf (assignPane paneOf key none) a = paneIdOf (assignPane paneOf key none) b ↔
      paneIdOf paneOf a = paneIdOf paneOf b := by
  have hmember : ∀ {k : κ}, paneOf.get k = some key → paneIdOf paneOf k = key := by
    intro k hk
    rw [paneIdOf, hk]
    rfl
  -- nobody else is on the pane that the series leaves, nor on the one of the heir
  have hother : ∀ {k : κ}, k ≠ key → paneOf.get k ≠ some key → paneIdOf paneOf k ≠ key ∧
      ∀ heir, heirOf paneOf key = some heir → paneIdOf paneOf k ≠ heir := by
    intro k hk hget
    rw [paneIdOf]
    cases hpane : paneOf.get k with
    | none =>
      refine ⟨hk, fun heir hheir heq => ?_⟩
      rw [Option.getD_none] at heq
      rw [heq, (get_heir hheir).2] at hpane
      cases hpane
    | some pane =>
      refine ⟨fun heq => hget (hpane.trans (congrArg some heq)), fun heir hheir heq => ?_⟩
      exact h rfl heir hheir k hk (hpane.trans (congrArg some heq))
  rw [paneIdOf_moved_out paneOf ha, paneIdOf_moved_out paneOf hb]
  have hheir : ∀ {k : κ}, k ≠ key → paneOf.get k = some key →
      ∃ heir, heirOf paneOf key = some heir := by
    intro k hk hget
    have hmem : k ∈ orphanedBy (paneOf.delete key) key := by
      rw [mem_orphanedBy, JsMap.get_delete, if_neg hk, hget]
    exact ⟨_, List.head?_eq_some_head (List.ne_nil_of_mem hmem)⟩
  split_ifs with hga hgb hgb
  · obtain ⟨heir, hsome⟩ := hheir ha hga
    rw [hsome, hmember hga, hmember hgb]
    exact iff_of_true rfl rfl
  · obtain ⟨heir, hsome⟩ := hheir ha hga
    rw [hsome, hmember hga]
    exact iff_of_false (fun heq => (hother hb hgb).2 heir hsome heq.symm)
      fun heq => (hother hb hgb).1 heq.symm
  · obtain ⟨heir, hsome⟩ := hheir hb hgb
    rw [hsome, hmember hgb]
    exact iff_of_false (fun heq => (hother ha hga).2 heir hsome heq) fun heq =>
      (hother ha hga).1 heq
  · exact Iff.rfl

/-! ## Every arrangement -/

/-- What a move promises: the other series stay together as they were, and one that moves out is
alone. -/
def KeepsRest (paneOf : JsMap κ κ) (key : κ) (target : Option κ) : Prop :=
  ∀ series : List κ,
    (∀ a ∈ series, ∀ b ∈ series, a ≠ key → b ≠ key →
      (Together (groupIntoPanes series id (assignPane paneOf key target)) a b ↔
        Together (groupIntoPanes series id paneOf) a b)) ∧
    (target = none → ∀ a ∈ series, key ∈ series →
      Together (groupIntoPanes series id (assignPane paneOf key target)) a key → a = key)

theorem not_keepsRest_of_taken {other : κ} (hheir : heirOf paneOf key = some heir)
    (hother : other ≠ key) (htaken : paneOf.get other = some heir) :
    ¬ KeepsRest paneOf key none := by
  intro h
  obtain ⟨hne, hget⟩ := get_heir hheir
  have hiff := (h [heir, other]).1 heir (by simp) other (by simp) hne hother
  rw [together_iff (by simp) (by simp), together_iff (by simp) (by simp), id, id,
    paneIdOf_moved_out paneOf hne, paneIdOf_moved_out paneOf hother, if_pos hget, hheir,
    if_neg (by rw [htaken]; exact fun heq => hne (Option.some.inj heq)), paneIdOf, paneIdOf, hget,
    htaken] at hiff
  exact hne (hiff.mp rfl).symm

/-- In every arrangement, a move keeps the rest together exactly if the pane that its heir opens
is free. -/
theorem arranged_keepsRest_iff (ops : List (Operation κ)) (key : κ) (target : Option κ) :
    KeepsRest (arranged ops) key target ↔ LeavesHeirFree (arranged ops) key target := by
  generalize arranged ops = paneOf
  constructor
  · rintro h rfl heir hheir other hother htaken
    exact not_keepsRest_of_taken hheir hother htaken h
  · intro h series
    constructor
    · intro a ha b hb hak hbk
      rw [together_iff ha hb, together_iff ha hb]
      cases target with
      | none => exact paneIdOf_eq_iff_of_free h hak hbk
      | some paneId =>
        rw [id, id, paneIdOf_moved_onto paneOf hak, paneIdOf_moved_onto paneOf hbk]
    · rintro rfl a ha hkey htogether
      by_contra hak
      exact moved_out_alone paneOf hak ((together_iff ha hkey).mp htogether)

/-- `X` is dropped onto the pane of `B`, `B` onto the one of `A`, and `A` moves out: `B` goes back
to its own pane, where `X` still is. -/
theorem move_out_merges_panes :
    ¬ ∀ (ops : List (Operation String)) (key : String) (target : Option String),
      KeepsRest (arranged ops) key target := by
  intro h
  have hfree := (h [.assign "X" (some "B"), .assign "B" (some "A")] "A" none ["X", "B"]).1
    "X" (by decide) "B" (by decide) (by decide) (by decide)
  rw [together_iff (by decide) (by decide), together_iff (by decide) (by decide)] at hfree
  revert hfree
  decide

end ArduConfigurator.ViewModels
