import ArduConfigurator.Mavftp.Paths

/-! # Parents of remote paths

`normalizeMavftpPath`, `joinMavftpPath` and `parentMavftpPath` of `mavftp.ts` against each other: on
which paths normalising is settled after one turn, and when a joined path leads back. -/
namespace ArduConfigurator.Mavftp
set_option autoImplicit false

/-- `text.lastIndexOf(c)`, with `none` for -1. -/
def lastIndexOf (c : UInt16) : Text → Option ℕ
  | [] => none
  | x :: rest =>
    match lastIndexOf c rest with
    | some i => some (i + 1)
    | none => if x = c then some 0 else none

def parentMavftpPath (path : Text) : Option Text :=
  let normalizedPath := normalizeMavftpPath path
  if normalizedPath = [SLASH] ∨ isMountPoint normalizedPath = true then none
  else
    match lastIndexOf SLASH normalizedPath with
    | none => none
    | some lastSeparatorIndex =>
      if lastSeparatorIndex = 0 then none else some (normalizedPath.take lastSeparatorIndex)

/-- What stands after the last slash of a path. -/
def lastComponent (path : Text) : Text := path.rtakeWhile (· ≠ SLASH)

/-- What is left of the trimmed path without the slashes at its end is not empty and does not end in
white space; an empty path and the root do not get that far. -/
def Settled (path : Text) : Prop :=
  trim path = [] ∨ trim path = [SLASH] ∨
    ∃ c, (stripTrailingSlashes (trim path)).getLast? = some c ∧ isWhiteSpace c = false

/-! ## The parts of a text -/

theorem slashes_or_split (text : Text) :
    (∀ c ∈ text, c = SLASH) ∨
      ∃ u c r, text = u ++ c :: r ∧ c ≠ SLASH ∧ ∀ x ∈ r, x = SLASH := by
  induction text using List.reverseRecOn with
  | nil => exact .inl fun c hc => absurd hc List.not_mem_nil
  | append_singleton text c ih =>
    by_cases hc : c = SLASH
    · rcases ih with hslashes | ⟨u, d, r, rfl, hd, hr⟩
      · refine .inl fun x hx => (List.mem_append.mp hx).elim (hslashes x) fun hx => ?_
        rw [List.mem_singleton.mp hx, hc]
      · refine .inr ⟨u, d, r ++ [c], by simp, hd, fun x hx => ?_⟩
        refine (List.mem_append.mp hx).elim (hr x) fun hx => ?_
        rw [List.mem_singleton.mp hx, hc]
    · exact .inr ⟨text, c, [], rfl, hc, fun x hx => absurd hx List.not_mem_nil⟩

variable {c : UInt16}

theorem collapseSlashes_append (hc : c ≠ SLASH) (u v : Text) :
    collapseSlashes (u ++ c :: v) = collapseSlashes u ++ c :: collapseSlashes v := by
  induction u with
  | nil => exact if_neg fun h => hc h.1
  | cons x u ih =>
    have hhead : (u ++ c :: v).head? = some SLASH ↔ u.head? = some SLASH := by
      cases u with
      | nil => simp [hc]
      | cons y u => rfl
    simp only [List.cons_append, collapseSlashes, ih, hhead]
    split <;> rfl

variable {text : Text}

theorem mem_collapseSlashes {x : UInt16} (h : x ∈ collapseSlashes text) :
    x ∈ text := by
  induction text with
  | nil => exact h
  | cons c rest ih =>
    rw [collapseSlashes] at h
    split at h
    · exact List.mem_cons_of_mem _ (ih h)
    · exact (List.mem_cons.mp h).elim (fun h => h ▸ List.mem_cons_self)
        fun h => List.mem_cons_of_mem _ (ih h)

variable {r : Text}

theorem stripTrailingSlashes_append (hc : c ≠ SLASH) (u : Text) (hr : ∀ x ∈ r, x = SLASH) :
    stripTrailingSlashes (u ++ c :: r) = u ++ [c] := by
  rw [stripTrailingSlashes, List.rdropWhile, List.reverse_append, List.reverse_cons,
    List.append_assoc, List.dropWhile_append_of_pos fun x hx => by simp [hr x (by simpa using hx)],
    List.singleton_append, List.dropWhile_cons_of_neg (by simpa using hc), List.reverse_cons,
    List.reverse_reverse]

theorem stripTrailingSlashes_slashes (h : ∀ c ∈ text, c = SLASH) :
    stripTrailingSlashes text = [] :=
  List.rdropWhile_eq_nil_iff.mpr fun c hc => decide_eq_true (h c hc)

theorem head?_trim (text : Text) : ∀ c ∈ (trim text).head?, isWhiteSpace c = false := by
  intro c hc
  have hprefix : trim text <+: text.dropWhile isWhiteSpace := List.rdropWhile_prefix _ _
  obtain ⟨rest, hrest⟩ := hprefix
  have hhead : (text.dropWhile isWhiteSpace).head? = some c := by
    rw [← hrest, List.head?_append, Option.mem_def.mp hc]
    rfl
  simpa [hhead] using List.head?_dropWhile_not isWhiteSpace text

theorem getLast?_trim (text : Text) : ∀ c ∈ (trim text).getLast?, isWhiteSpace c = false := by
  intro c hc
  rw [trim, List.getLast?_reverse] at hc
  have := List.head?_dropWhile_not isWhiteSpace (text.dropWhile isWhiteSpace).reverse
  simpa [Option.mem_def.mp hc] using this

variable {u : Text}

/-- White space at the end goes, back to a character that is none. -/
theorem trim_append (hhead : ∀ x ∈ (u ++ [c]).head?, isWhiteSpace x = false)
    (hc : isWhiteSpace c = false) (v : Text) :
    trim (u ++ c :: v) = u ++ c :: v.rdropWhile isWhiteSpace := by
  have hstart : (u ++ c :: v).dropWhile isWhiteSpace = u ++ c :: v := by
    cases u with
    | nil => exact List.dropWhile_cons_of_neg (by simp [hc])
    | cons x u => exact List.dropWhile_cons_of_neg (by simp [hhead x rfl])
  have hend : (c :: u.reverse).dropWhile isWhiteSpace = c :: u.reverse :=
    List.dropWhile_cons_of_neg (by simp [hc])
  have hsplit : (u ++ c :: v).reverse = v.reverse ++ c :: u.reverse := by simp
  rw [trim, hstart, hsplit, List.dropWhile_append, hend]
  split
  · next h =>
    have hnil : v.rdropWhile isWhiteSpace = [] := by
      rw [List.rdropWhile, List.isEmpty_iff.mp h]
      rfl
    rw [hnil]
    simp
  · simp [List.rdropWhile]

/-! ## Normalising -/

theorem slash_notMem_of_mount (h : isMountPoint text = true) : SLASH ∉ text := by
  cases text with
  | nil => exact List.not_mem_nil
  | cons c rest =>
    simp only [isMountPoint, decide_eq_true_eq, Bool.decide_and, Bool.and_eq_true] at h
    intro hmem
    rcases List.mem_cons.mp hmem with hslash | hslash
    · exact absurd (hslash.trans h.1) (by decide)
    · exact absurd (List.all_eq_true.mp (by simpa using h.2.2) SLASH hslash) (by decide)

variable {path : Text}

theorem normalize_eq (hempty : trim path ≠ []) (hroot : trim path ≠ [SLASH]) :
    normalizeMavftpPath path = stripTrailingSlashes (collapseSlashes (trim path)) := by
  rw [normalizeMavftpPath, if_neg hempty, if_neg hroot]
  dsimp only
  split
  · next h =>
    refine (List.rdropWhile_eq_self_iff.mpr fun hne hlast => ?_).symm
    exact slash_notMem_of_mount h (of_decide_eq_true hlast ▸ List.getLast_mem hne)
  · rfl

theorem normalize_of_slashes (h : ∀ c ∈ trim path, c = SLASH) (hempty : trim path ≠ [])
    (hroot : trim path ≠ [SLASH]) : normalizeMavftpPath path = [] := by
  rw [normalize_eq hempty hroot]
  exact stripTrailingSlashes_slashes fun c hc => h c (mem_collapseSlashes hc)

theorem normalize_of_split (h : trim path = u ++ c :: r) (hc : c ≠ SLASH)
    (hr : ∀ x ∈ r, x = SLASH) :
    normalizeMavftpPath path = collapseSlashes u ++ [c] := by
  rw [normalize_eq (by simp [h]), h, collapseSlashes_append hc]
  · exact stripTrailingSlashes_append hc _ fun x hx => hr x (mem_collapseSlashes hx)
  · intro hroot
    have hmem : c ∈ trim path := by simp [h]
    exact hc (List.mem_singleton.mp (hroot ▸ hmem))

/-- A path normalises to the root, to nothing (from slashes only) or to a text whose last character
is no slash; whether normalising is settled then depends on that character. -/
theorem normalize_cases (path : Text) :
    (normalizeMavftpPath path = [SLASH] ∧ trim path = [SLASH]) ∨
      (normalizeMavftpPath path = [] ∧ ¬ Collapsed path ∧ ¬ Settled path) ∨
      ∃ u c, normalizeMavftpPath path = u ++ [c] ∧ c ≠ SLASH ∧
        (∀ x ∈ (u ++ [c]).head?, isWhiteSpace x = false) ∧ trim path ≠ [SLASH] ∧
        (Settled path ↔ isWhiteSpace c = false) := by
  by_cases hempty : trim path = []
  · refine .inr (.inr ⟨units "@SY", 0x53, ?_, by decide, by decide, by simp [hempty], ?_⟩)
    · rw [normalizeMavftpPath, if_pos hempty]
      rfl
    · exact iff_of_true (.inl hempty) (by decide)
  by_cases hroot : trim path = [SLASH]
  · refine .inl ⟨?_, hroot⟩
    rw [normalizeMavftpPath, if_neg hempty, if_pos hroot, hroot]
  have hsettled : Settled path ↔
      ∃ c, (stripTrailingSlashes (trim path)).getLast? = some c ∧ isWhiteSpace c = false :=
    ⟨fun h => (h.resolve_left hempty).resolve_left hroot, fun h => .inr (.inr h)⟩
  rcases slashes_or_split (trim path) with hslashes | ⟨u, c, r, hsplit, hc, hr⟩
  · refine .inr (.inl ⟨normalize_of_slashes hslashes hempty hroot, fun hcollapsed => ?_, ?_⟩)
    · obtain ⟨n, hn⟩ : ∃ n, trim path = List.replicate n SLASH :=
        ⟨_, List.eq_replicate_iff.mpr ⟨rfl, hslashes⟩⟩
      refine hcollapsed (List.IsInfix.trans ?_ (trim_cutFrom path).isInfix)
      rcases n with - | - | n
      · exact absurd hn hempty
      · exact absurd hn hroot
      · exact hn ▸ ⟨[], List.replicate n SLASH, rfl⟩
    · rw [hsettled, stripTrailingSlashes_slashes hslashes]
      rintro ⟨c, h, -⟩
      exact absurd h (by simp)
  · have hnormal := normalize_of_split hsplit hc hr
    refine .inr (.inr ⟨_, c, hnormal, hc, ?_, hroot, ?_⟩)
    · have hcollapse : collapseSlashes (u ++ [c]) = collapseSlashes u ++ [c] :=
        collapseSlashes_append hc u []
      have hhead : (u ++ [c]).head? = (trim path).head? := by
        rw [hsplit]
        cases u <;> rfl
      rw [← hcollapse, head?_collapseSlashes, hhead]
      exact head?_trim path
    · rw [hsettled, hsplit, stripTrailingSlashes_append hc u hr]
      simp

theorem collapsed_settles (hc : c ≠ SLASH) (h : Collapsed (u ++ [c])) :
    collapseSlashes u = u := by
  have := (collapseSlashes_append hc u []).symm.trans (collapseSlashes_of_collapsed h)
  exact List.append_cancel_right this

theorem normalize_again_iff (path : Text) :
    normalizeMavftpPath (normalizeMavftpPath path) = normalizeMavftpPath path ↔
      Settled path := by
  have hcollapsed := collapsed_normalize path
  rcases normalize_cases path with ⟨h, hroot⟩ | ⟨h, -, hnot⟩ | ⟨u, c, h, hc, hhead, -, hsettled⟩
  · rw [h]
    exact iff_of_true (by decide) (.inr (.inl hroot))
  · rw [h]
    exact iff_of_false (by decide) hnot
  rw [h] at hcollapsed ⊢
  rw [hsettled]
  constructor
  · intro hagain
    by_contra hwhite
    rw [Bool.not_eq_false] at hwhite
    have hlastUnit (text : Text) (htext : text = u ++ [c]) : text.getLast? = some c := by
      rw [htext, List.getLast?_concat]
    have hempty : trim (u ++ [c]) ≠ [] := by
      intro hempty
      rw [normalizeMavftpPath, if_pos hempty] at hagain
      cases hlastUnit _ hagain
      exact absurd hwhite (by decide)
    have hroot : trim (u ++ [c]) ≠ [SLASH] := by
      intro hroot
      rw [normalizeMavftpPath, if_neg hempty, if_pos hroot, hroot] at hagain
      exact hc (Option.some.inj (hlastUnit _ hagain)).symm
    have hinfix := (trim_cutFrom (u ++ [c])).isInfix
    rw [normalize_eq hempty hroot,
      collapseSlashes_of_collapsed (hcollapsed.of_isInfix hinfix)] at hagain
    have htrim : trim (u ++ [c]) = u ++ [c] := by
      refine hinfix.eq_of_length (le_antisymm hinfix.length_le ?_)
      have hprefix := stripTrailingSlashes_isPrefix (trim (u ++ [c]))
      rw [hagain] at hprefix
      exact hprefix.length_le
    have hlast := getLast?_trim (u ++ [c]) c (by rw [htrim, List.getLast?_concat]; rfl)
    rw [hwhite] at hlast
    exact Bool.noConfusion hlast
  · intro hwhite
    have htrim : trim (u ++ [c]) = u ++ [c] := trim_append hhead hwhite []
    rw [normalize_of_split htrim hc fun x hx => absurd hx List.not_mem_nil,
      collapsed_settles hc hcollapsed]

/-! ## Parents -/

theorem lastIndexOf_eq_none (h : c ∉ text) :
    lastIndexOf c text = none := by
  induction text with
  | nil => rfl
  | cons x rest ih =>
    rw [List.mem_cons, not_or] at h
    rw [lastIndexOf, ih h.2]
    exact if_neg (Ne.symm h.1)

variable {b : Text}

theorem lastIndexOf_append (a : Text) (h : c ∉ b) :
    lastIndexOf c (a ++ c :: b) = some a.length := by
  induction a with
  | nil =>
    rw [List.nil_append, lastIndexOf, lastIndexOf_eq_none h]
    exact if_pos rfl
  | cons x a ih =>
    rw [List.cons_append, lastIndexOf, ih]
    rfl

theorem eq_of_lastIndexOf {i : ℕ} (h : lastIndexOf c text = some i) :
    ∃ b, text = text.take i ++ c :: b := by
  induction text generalizing i with
  | nil => cases h
  | cons x rest ih =>
    rw [lastIndexOf] at h
    split at h
    · next j hj =>
      cases h
      obtain ⟨b, hb⟩ := ih hj
      exact ⟨b, congrArg (x :: ·) hb⟩
    · split at h
      · next hx =>
        cases h
        exact ⟨rest, by rw [hx]; rfl⟩
      · cases h

variable {parent : Text}

theorem parent_eq_some (h : parentMavftpPath path = some parent) :
    ∃ b, normalizeMavftpPath path = parent ++ SLASH :: b ∧ parent ≠ [] := by
  rw [parentMavftpPath] at h
  split at h
  · cases h
  split at h
  · cases h
  next i hi =>
  split at h
  · cases h
  next hne =>
  cases h
  obtain ⟨b, hb⟩ := eq_of_lastIndexOf hi
  refine ⟨b, hb, fun hnil => ?_⟩
  rw [List.take_eq_nil_iff, or_iff_right hne] at hnil
  rw [hnil] at hb
  simp at hb

theorem parent_of_normalize {kept : Text} (h : normalizeMavftpPath path = parent ++ SLASH :: kept)
    (hkept : SLASH ∉ kept) (hparent : parent ≠ []) : parentMavftpPath path = some parent := by
  have hroot : parent ++ SLASH :: kept ≠ [SLASH] := by
    intro hroot
    have := congrArg List.length hroot
    have := List.length_pos_of_ne_nil hparent
    simp only [List.length_append, List.length_cons, List.length_nil] at *
    omega
  have hmount : ¬ isMountPoint (parent ++ SLASH :: kept) = true :=
    fun hmount => slash_notMem_of_mount hmount (by simp)
  rw [parentMavftpPath, h, if_neg (not_or.mpr ⟨hroot, hmount⟩), lastIndexOf_append parent hkept]
  dsimp only
  rw [if_neg (by simpa using hparent), List.take_left]

/-! ## Joining -/

variable {name : Text}

theorem notMem_kept (h : SLASH ∉ name) : SLASH ∉ name.rdropWhile isWhiteSpace :=
  fun hmem => h ((List.rdropWhile_prefix _ _).subset hmem)

theorem collapsed_of_notMem (h : SLASH ∉ text) : Collapsed text :=
  fun hslashes => h (hslashes.subset List.mem_cons_self)

/-- A directory that can be joined to: what stands before a slash when it is put in front. -/
structure Joins (base : Text) : Prop where
  collapsed : Collapsed (base ++ [SLASH])
  head : ∀ x ∈ (base ++ [SLASH]).head?, isWhiteSpace x = false

variable {base : Text}

theorem normalize_child (hbase : Joins base) (hname : SLASH ∉ name)
    (hsolid : ∃ c ∈ name, isWhiteSpace c = false) :
    normalizeMavftpPath (base ++ SLASH :: name) =
      base ++ SLASH :: name.rdropWhile isWhiteSpace := by
  have hkept := notMem_kept hname
  have htrim := trim_append hbase.head (by decide) name
  obtain ⟨c, hc, hwhite⟩ := hsolid
  have hne : name.rdropWhile isWhiteSpace ≠ [] := fun hnil => by
    rw [List.rdropWhile_eq_nil_iff.mp hnil c hc] at hwhite
    exact Bool.noConfusion hwhite
  obtain ⟨w, x, hw⟩ : ∃ w x, name.rdropWhile isWhiteSpace = w ++ [x] :=
    ⟨_, _, (List.dropLast_append_getLast hne).symm⟩
  rw [hw] at hkept htrim ⊢
  rw [List.mem_append, not_or, List.mem_singleton] at hkept
  have hcollapse : collapseSlashes (base ++ SLASH :: w) = base ++ SLASH :: w := by
    cases w with
    | nil => exact collapseSlashes_of_collapsed hbase.collapsed
    | cons y w =>
      rw [List.mem_cons, not_or] at hkept
      have := collapseSlashes_append (Ne.symm hkept.1.1) (base ++ [SLASH]) w
      rwa [collapseSlashes_of_collapsed hbase.collapsed,
        collapseSlashes_of_collapsed (collapsed_of_notMem hkept.1.2), List.append_assoc] at this
  rw [normalize_of_split (u := base ++ SLASH :: w) (r := []) (by simpa using htrim)
    (Ne.symm hkept.2) (fun x hx => absurd hx List.not_mem_nil), hcollapse]
  simp

theorem rdropWhile_blank (h : ¬ ∃ c ∈ name, isWhiteSpace c = false) :
    name.rdropWhile isWhiteSpace = [] :=
  List.rdropWhile_eq_nil_iff.mpr fun c hc => by
    by_contra hwhite
    exact h ⟨c, hc, Bool.eq_false_of_not_eq_true hwhite⟩

theorem joinMavftpPath_eq {parentPath : Text} (hname : SLASH ∉ name) (hne : name ≠ []) :
    joinMavftpPath parentPath name =
      if normalizeMavftpPath parentPath = [SLASH] then SLASH :: name
      else normalizeMavftpPath parentPath ++ SLASH :: name := by
  have hdrop : name.dropWhile (· = SLASH) = name := by
    cases name with
    | nil => rfl
    | cons c name =>
      refine List.dropWhile_cons_of_neg fun hc => hname ?_
      exact of_decide_eq_true hc ▸ List.mem_cons_self
  have hstrip : stripTrailingSlashes name = name :=
    List.rdropWhile_eq_self_iff.mpr fun hne hlast =>
      hname (of_decide_eq_true hlast ▸ List.getLast_mem hne)
  rw [joinMavftpPath, hdrop, hstrip]
  exact if_neg hne

theorem lastComponent_append (base : Text) (hname : SLASH ∉ name) :
    lastComponent (base ++ SLASH :: name) = name := by
  have hall : ∀ x ∈ name.reverse, decide (x ≠ SLASH) = true := by
    intro x hx
    rw [decide_eq_true_eq]
    rintro rfl
    exact hname (List.mem_reverse.mp hx)
  rw [lastComponent, List.rtakeWhile, List.reverse_append, List.reverse_cons, List.append_assoc,
    List.takeWhile_append_of_pos hall, List.singleton_append,
    List.takeWhile_cons_of_neg (by simp), List.append_nil, List.reverse_reverse]

/-- Nothing that normalising a normalised path again leaves goes on beyond that path. -/
theorem ne_child_of_infix {q : Text} (hq : q <:+: normalizeMavftpPath (normalizeMavftpPath path)) :
    q ≠ normalizeMavftpPath path ++ SLASH :: b := by
  rintro rfl
  rcases normalize_again path with h | h
  · rw [h] at hq
    exact absurd (hq.subset (by simp) : SLASH ∈ units "@SYS") (by decide)
  · have := (hq.trans h.isInfix).length_le
    simp only [List.length_append, List.length_cons] at this
    omega

theorem joins_nil : Joins [] := ⟨by unfold Collapsed; decide, by decide⟩

theorem joins_of_split (hc : c ≠ SLASH) (hcollapsed : Collapsed (u ++ [c]))
    (hhead : ∀ x ∈ (u ++ [c]).head?, isWhiteSpace x = false) : Joins (u ++ [c]) := by
  refine ⟨?_, by cases u <;> exact hhead⟩
  have hslash := collapseSlashes_append hc u [SLASH]
  rw [collapsed_settles hc hcollapsed] at hslash
  have := collapsed_collapseSlashes (u ++ c :: [SLASH])
  rw [hslash] at this
  rwa [List.append_assoc]

theorem trim_blank_child (hbase : Joins base) (hblank : ¬ ∃ c ∈ name, isWhiteSpace c = false) :
    trim (base ++ SLASH :: name) = base ++ [SLASH] := by
  rw [trim_append hbase.head (by decide), rdropWhile_blank hblank]

theorem parent_under_root (hname : SLASH ∉ name) :
    parentMavftpPath (SLASH :: name) = none := by
  cases hparent : parentMavftpPath (SLASH :: name) with
  | none => rfl
  | some parent =>
    exfalso
    obtain ⟨b, hchild, hne⟩ := parent_eq_some hparent
    obtain ⟨y, parent, rfl⟩ := List.exists_cons_of_ne_nil hne
    by_cases hsolid : ∃ c ∈ name, isWhiteSpace c = false
    · have hkept := (normalize_child joins_nil hname hsolid).symm.trans hchild
      rw [List.nil_append, List.cons_append, List.cons.injEq] at hkept
      exact notMem_kept hname (hkept.2 ▸ by simp)
    · have htrim : trim (SLASH :: name) = [SLASH] := trim_blank_child joins_nil hsolid
      rw [normalizeMavftpPath, htrim] at hchild
      exact absurd (congrArg List.length hchild) (by simp)

/-- Only a name that is no blank leads back. -/
theorem solid_of_parent (hname : SLASH ∉ name)
    (h : parentMavftpPath (joinMavftpPath (normalizeMavftpPath path) name) =
      some (normalizeMavftpPath path)) :
    normalizeMavftpPath (normalizeMavftpPath path) ≠ [SLASH] ∧
      ∃ c ∈ name, isWhiteSpace c = false := by
  obtain ⟨b, hchild, -⟩ := parent_eq_some h
  by_cases hempty : name = []
  · exfalso
    have hjoin : joinMavftpPath (normalizeMavftpPath path) name =
        normalizeMavftpPath (normalizeMavftpPath path) := by
      rw [hempty]
      rfl
    rw [hjoin] at hchild
    rcases normalize_again (normalizeMavftpPath path) with hsys | hcut
    · rw [hsys] at hchild
      have hslash : SLASH ∈ units "@SYS" := by simp [hchild]
      exact absurd hslash (by decide)
    · exact ne_child_of_infix hcut.isInfix hchild
  rw [joinMavftpPath_eq hname hempty] at h hchild
  have hroot : normalizeMavftpPath (normalizeMavftpPath path) ≠ [SLASH] := by
    intro hroot
    rw [if_pos hroot, parent_under_root hname] at h
    cases h
  refine ⟨hroot, by_contra fun hblank => ?_⟩
  rw [if_neg hroot] at hchild
  have hcollapsed := collapsed_normalize (normalizeMavftpPath path)
  rcases normalize_cases (normalizeMavftpPath path) with
    ⟨h, -⟩ | ⟨-, hnot, -⟩ | ⟨u, c, hd, hc, hhead, -, -⟩
  · exact hroot h
  · exact hnot (collapsed_normalize path)
  · rw [hd] at hchild hcollapsed
    have htrim := trim_blank_child (joins_of_split hc hcollapsed hhead) hblank
    have hsame : normalizeMavftpPath ((u ++ [c]) ++ SLASH :: name) = u ++ [c] := by
      rw [normalize_of_split (u := u) (r := [SLASH]) (by simpa using htrim) hc (by simp),
        collapsed_settles hc hcollapsed]
    exact ne_child_of_infix (hd ▸ List.infix_rfl) (hsame.symm.trans hchild)

theorem parent_join_iff (hname : SLASH ∉ name) :
    (parentMavftpPath (joinMavftpPath (normalizeMavftpPath path) name) =
          some (normalizeMavftpPath path) ∧
        lastComponent (joinMavftpPath (normalizeMavftpPath path) name) = name) ↔
      Settled path ∧ trim path ≠ [SLASH] ∧ ∃ c ∈ name, isWhiteSpace c = false := by
  have hchild (hsolid : ∃ c ∈ name, isWhiteSpace c = false)
      (hroot : normalizeMavftpPath (normalizeMavftpPath path) ≠ [SLASH]) :
      parentMavftpPath (joinMavftpPath (normalizeMavftpPath path) name) =
          some (normalizeMavftpPath (normalizeMavftpPath path)) ∧
        lastComponent (joinMavftpPath (normalizeMavftpPath path) name) = name := by
    have hempty : name ≠ [] := by
      rintro rfl
      exact absurd hsolid (by simp)
    rw [joinMavftpPath_eq hname hempty, if_neg hroot]
    refine ⟨?_, lastComponent_append _ hname⟩
    have hcollapsed := collapsed_normalize (normalizeMavftpPath path)
    rcases normalize_cases (normalizeMavftpPath path) with
      ⟨h, -⟩ | ⟨-, hnot, -⟩ | ⟨u, c, hd, hc, hhead, -, -⟩
    · exact absurd h hroot
    · exact absurd (collapsed_normalize path) hnot
    · rw [hd] at hcollapsed ⊢
      exact parent_of_normalize
        (normalize_child (joins_of_split hc hcollapsed hhead) hname hsolid) (notMem_kept hname)
        (by simp)
  constructor
  · rintro ⟨hparent, -⟩
    obtain ⟨hroot, hsolid⟩ := solid_of_parent hname hparent
    have hagain := Option.some.inj ((hchild hsolid hroot).1.symm.trans hparent)
    refine ⟨(normalize_again_iff path).mp hagain, fun htrim => ?_, hsolid⟩
    rw [hagain, normalizeMavftpPath, htrim] at hroot
    exact hroot rfl
  · rintro ⟨hsettled, hroot, hsolid⟩
    have hagain := (normalize_again_iff path).mpr hsettled
    have hne : normalizeMavftpPath (normalizeMavftpPath path) ≠ [SLASH] := by
      rw [hagain]
      intro h
      rcases normalize_cases path with ⟨-, htrim⟩ | ⟨hnil, -, -⟩ | ⟨u, c, hd, hc, -, -, -⟩
      · exact hroot htrim
      · exact absurd (hnil.symm.trans h) (by simp)
      · have := congrArg List.getLast? (hd.symm.trans h)
        rw [List.getLast?_concat] at this
        exact hc (Option.some.inj this)
    have := hchild hsolid hne
    rwa [hagain] at this

/-- Normalising is idempotent, and a joined entry leads back to its directory, on just these paths
and names. -/
theorem pathHelpers_iff (path name : Text) (hsafe : isSafeMavftpEntryName name = true) :
    (normalizeMavftpPath (normalizeMavftpPath path) = normalizeMavftpPath path ↔
        Settled path) ∧
      ((parentMavftpPath (joinMavftpPath (normalizeMavftpPath path) name) =
            some (normalizeMavftpPath path) ∧
          lastComponent (joinMavftpPath (normalizeMavftpPath path) name) = name) ↔
        Settled path ∧ trim path ≠ [SLASH] ∧ ∃ c ∈ name, isWhiteSpace c = false) := by
  simp only [isSafeMavftpEntryName, decide_eq_true_eq, Bool.decide_and, Bool.and_eq_true] at hsafe
  exact ⟨normalize_again_iff path, parent_join_iff hsafe.2.2.1⟩

theorem pathHelpers_sys :
    parentMavftpPath (joinMavftpPath (normalizeMavftpPath (units "@SYS/")) (units "uarts.txt")) =
        some (normalizeMavftpPath (units "@SYS/")) ∧
      lastComponent (joinMavftpPath (normalizeMavftpPath (units "@SYS/")) (units "uarts.txt")) =
        units "uarts.txt" :=
  (pathHelpers_iff (units "@SYS/") (units "uarts.txt") (by decide)).2.mpr
    ⟨.inr (.inr ⟨0x53, by decide, by decide⟩), by decide, ⟨0x75, by decide, by decide⟩⟩

/-- Two slashes normalise to nothing and nothing to `@SYS`; an entry of the root has no parent. -/
theorem slashes_normalize_away :
    normalizeMavftpPath (normalizeMavftpPath (units "//")) ≠ normalizeMavftpPath (units "//") ∧
      parentMavftpPath (joinMavftpPath (normalizeMavftpPath (units "/")) (units "logs")) ≠
        some (normalizeMavftpPath (units "/")) := by
  decide

end ArduConfigurator.Mavftp
