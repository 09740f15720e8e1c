import Mathlib.Data.UInt

/-! # Texts of the language

A text is a sequence of UTF-16 code units. Lines end at a line feed, perhaps after a carriage
return; words stand between white space and commas. -/
namespace ArduConfigurator
set_option autoImplicit false

abbrev Text : Type := List UInt16

instance lawfulBEq_text : LawfulBEq Text := inferInstance

def units (s : String) : Text := s.toList.map fun c => UInt16.ofNat c.toNat

/-- What all units of a text satisfy is decided along the text, not along all 2^16 units. -/
instance (priority := 2000) decidableForallMem {α : Type} (p : α → Prop) [DecidablePred p]
    (l : List α) : Decidable (∀ x ∈ l, p x) := List.decidableBAll p l

instance (priority := 2000) decidableForallOption {α : Type} (p : α → Prop) [DecidablePred p]
    (o : Option α) : Decidable (∀ x ∈ o, p x) :=
  decidable_of_iff (∀ x ∈ o.toList, p x) (by simp only [Option.mem_toList, Option.mem_def])

def LINE_FEED : UInt16 := 0x0A
def CARRIAGE_RETURN : UInt16 := 0x0D
def COMMA : UInt16 := 0x2C

/-! ## Lines -/

/-- `text.split(/\r?\n/)`. -/
def splitLines : List UInt16 → List (List UInt16)
  | [] => [[]]
  | c :: rest =>
    if c = LINE_FEED then [] :: splitLines rest
    else if c = CARRIAGE_RETURN ∧ rest.head? = some LINE_FEED then splitLines rest
    else
      match splitLines rest with
      | [] => [[c]]
      | line :: lines => (c :: line) :: lines

def isWhiteSpace (c : UInt16) : Bool :=
  (0x09 ≤ c ∧ c ≤ 0x0D) ∨ c = 0x20 ∨ c = 0xA0 ∨ c = 0x1680 ∨ (0x2000 ≤ c ∧ c ≤ 0x200A) ∨
    c = 0x2028 ∨ c = 0x2029 ∨ c = 0x202F ∨ c = 0x205F ∨ c = 0x3000 ∨ c = 0xFEFF

/-- `text.trim()`. -/
def trim (text : List UInt16) : List UInt16 :=
  ((text.dropWhile isWhiteSpace).reverse.dropWhile isWhiteSpace).reverse

/-- A line of characters that are no white space, and so no line ends. -/
def Solid (line : List UInt16) : Prop := line ≠ [] ∧ ∀ c ∈ line, isWhiteSpace c = false

variable {line : List UInt16}

theorem trim_solid (h : Solid line) : trim line = line := by
  obtain ⟨hne, hsolid⟩ := h
  have hdrop : ∀ l : List UInt16, (∀ c ∈ l, isWhiteSpace c = false) →
      l.dropWhile isWhiteSpace = l := by
    intro l hl
    cases l with
    | nil => rfl
    | cons c l => rw [List.dropWhile_cons_of_neg]; simp [hl c List.mem_cons_self]
  rw [trim, hdrop line hsolid, hdrop, List.reverse_reverse]
  exact fun c hc => hsolid c (List.mem_reverse.mp hc)

/-- Trimming leaves a text alone that neither begins nor ends with white space. -/
theorem trim_of_ends {text : Text} (hhead : ∀ c ∈ text.head?, isWhiteSpace c = false)
    (hlast : ∀ c ∈ text.getLast?, isWhiteSpace c = false) : trim text = text := by
  have hdrop : ∀ l : Text, (∀ c ∈ l.head?, isWhiteSpace c = false) →
      l.dropWhile isWhiteSpace = l := by
    intro l hl
    cases l with
    | nil => rfl
    | cons c l => exact List.dropWhile_cons_of_neg (by simp [hl c rfl])
  rw [trim, hdrop text hhead, hdrop, List.reverse_reverse]
  rwa [List.head?_reverse]

variable {c : UInt16}

/-- The characters between the space and the end of the seven-bit ones are no white space. -/
theorem isWhiteSpace_of_graph (hlow : 0x20 < c.toNat) (hhigh : c.toNat < 0x80) :
    isWhiteSpace c = false := by
  simp only [isWhiteSpace, decide_eq_false_iff_not, UInt16.le_iff_toNat_le, ← UInt16.toNat_inj]
  change ¬ ((0x09 ≤ c.toNat ∧ c.toNat ≤ 0x0D) ∨ c.toNat = 0x20 ∨ c.toNat = 0xA0 ∨
    c.toNat = 0x1680 ∨ (0x2000 ≤ c.toNat ∧ c.toNat ≤ 0x200A) ∨ c.toNat = 0x2028 ∨
    c.toNat = 0x2029 ∨ c.toNat = 0x202F ∨ c.toNat = 0x205F ∨ c.toNat = 0x3000 ∨
    c.toNat = 0xFEFF)
  omega

theorem splitLines_append_feed (a b : Text) :
    ∃ lines, lines ≠ [] ∧ splitLines (a ++ [LINE_FEED]) = lines ++ [[]] ∧
      splitLines (a ++ LINE_FEED :: b) = lines ++ splitLines b := by
  induction a with
  | nil => exact ⟨[[]], by simp, rfl, by rw [List.nil_append, splitLines, if_pos rfl]; rfl⟩
  | cons c a ih =>
    obtain ⟨lines, hne, hend, hsplit⟩ := ih
    have hhead : (a ++ LINE_FEED :: b).head? = (a ++ [LINE_FEED]).head? := by cases a <;> rfl
    rw [List.cons_append, List.cons_append, splitLines, splitLines, hhead, hend, hsplit]
    split_ifs
    · exact ⟨[] :: lines, by simp, rfl, rfl⟩
    · exact ⟨lines, hne, rfl, rfl⟩
    · obtain ⟨line, lines, rfl⟩ := List.exists_cons_of_ne_nil hne
      exact ⟨(c :: line) :: lines, by simp, rfl, rfl⟩

theorem splitLines_line {line rest : Text}
    (h : ∀ c ∈ line, c ≠ LINE_FEED ∧ c ≠ CARRIAGE_RETURN) :
    splitLines (line ++ LINE_FEED :: rest) = line :: splitLines rest := by
  induction line with
  | nil => rw [List.nil_append, splitLines, if_pos rfl]
  | cons c line ih =>
    obtain ⟨⟨hfeed, hreturn⟩, hline⟩ := List.forall_mem_cons.mp h
    rw [List.cons_append, splitLines, if_neg hfeed, if_neg (fun hcr => hreturn hcr.1), ih hline]

theorem splitLines_append {rest : List UInt16} (h : ∀ c ∈ line, isWhiteSpace c = false) :
    splitLines (line ++ LINE_FEED :: rest) = line :: splitLines rest := by
  refine splitLines_line fun c hc => ⟨?_, ?_⟩
  · rintro rfl
    exact absurd (h _ hc) (by decide)
  · rintro rfl
    exact absurd (h _ hc) (by decide)

/-! ## Words -/

def isSeparator (c : UInt16) : Bool := isWhiteSpace c || c = COMMA

/-- `text.split(/[\s,]+/).filter((token) => token.length > 0)`. -/
def tokensOf (t : Text) : List Text := (t.splitOnP isSeparator).filter (· ≠ [])

theorem tokensOf_append_cons (hc : isSeparator c = true) (a b : Text) :
    tokensOf (a ++ c :: b) = tokensOf a ++ tokensOf b := by
  rw [tokensOf, List.splitOnP_append_cons a b hc, List.filter_append]
  rfl

theorem tokensOf_nil : tokensOf [] = [] := by simp [tokensOf, List.splitOnP_nil]

theorem tokensOf_cons (hc : isSeparator c = true) (t : Text) :
    tokensOf (c :: t) = tokensOf t := by
  simpa [tokensOf_nil] using tokensOf_append_cons hc [] t

theorem tokensOf_word {t : Text} (hne : t ≠ []) (h : ∀ c ∈ t, isSeparator c = false) :
    tokensOf t = [t] := by
  have hsplit : t.splitOnP isSeparator = [t] :=
    List.splitOnP_eq_singleton fun c hc => by simp [h c hc]
  rw [tokensOf, hsplit, List.filter_cons_of_pos (by simpa using hne), List.filter_nil]

theorem tokensOf_dropWhile (t : Text) : tokensOf (t.dropWhile isWhiteSpace) = tokensOf t := by
  induction t with
  | nil => rfl
  | cons c t ih =>
    by_cases hc : isWhiteSpace c = true
    · rw [List.dropWhile_cons_of_pos hc, ih, tokensOf_cons (by simp [isSeparator, hc])]
    · rw [List.dropWhile_cons_of_neg hc]

theorem tokensOf_reverse_dropWhile (t : Text) :
    tokensOf (t.dropWhile isWhiteSpace).reverse = tokensOf t.reverse := by
  induction t with
  | nil => rfl
  | cons c t ih =>
    by_cases hc : isWhiteSpace c = true
    · rw [List.dropWhile_cons_of_pos hc, ih, List.reverse_cons,
        tokensOf_append_cons (by simp [isSeparator, hc]), tokensOf_nil, List.append_nil]
    · rw [List.dropWhile_cons_of_neg hc]

theorem tokensOf_trim (t : Text) : tokensOf (trim t) = tokensOf t := by
  rw [trim, tokensOf_reverse_dropWhile, List.reverse_reverse, tokensOf_dropWhile]

end ArduConfigurator
