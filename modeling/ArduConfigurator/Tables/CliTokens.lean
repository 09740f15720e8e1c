import ArduConfigurator.Tables.ImportedRows

/-! # Lines and their tokens

How a line is cut, where a comment begins, and which words and quoted names the tokenizer gives. -/
namespace ArduConfigurator.Tables
set_option autoImplicit false

/-! ## Lines of a text -/

def pieces (line : Text) : List Text := (splitLines (line ++ [LINE_FEED])).dropLast

theorem pieces_spec (line : Text) : splitLines (line ++ [LINE_FEED]) = pieces line ++ [[]] ∧
    ∀ rest, splitLines (line ++ LINE_FEED :: rest) = pieces line ++ splitLines rest := by
  have hpieces : ∀ rest, splitLines (line ++ [LINE_FEED]) = pieces line ++ [[]] ∧
      splitLines (line ++ LINE_FEED :: rest) = pieces line ++ splitLines rest := by
    intro rest
    obtain ⟨lines, -, hend, hsplit⟩ := splitLines_append_feed line rest
    have hlines : pieces line = lines := by rw [pieces, hend, List.dropLast_concat]
    rw [hlines]
    exact ⟨hend, hsplit⟩
  exact ⟨(hpieces []).1, fun rest => (hpieces rest).2⟩

theorem pieces_append (a b : Text) : pieces (a ++ LINE_FEED :: b) = pieces a ++ pieces b := by
  have hboth := (pieces_spec a).2 (b ++ [LINE_FEED])
  rw [(pieces_spec b).1] at hboth
  rw [pieces, List.append_assoc, List.cons_append, hboth, ← List.append_assoc,
    List.dropLast_concat]

variable {line : Text}

theorem pieces_of_no_feed (h : LINE_FEED ∉ line) :
    ∃ piece, pieces line = [piece] ∧ (line = piece ∨ line = piece ++ [CARRIAGE_RETURN]) := by
  induction line with
  | nil => exact ⟨[], rfl, .inl rfl⟩
  | cons c line ih =>
    rw [List.mem_cons, not_or] at h
    obtain ⟨piece, hpiece, hline⟩ := ih h.2
    have hsplit := (pieces_spec line).1
    rw [hpiece] at hsplit
    rw [pieces, List.cons_append, splitLines, if_neg (Ne.symm h.1), hsplit]
    split
    · next hreturn =>
      obtain ⟨rfl, hhead⟩ := hreturn
      cases line with
      | nil =>
        obtain rfl | hline := hline
        · exact ⟨[], rfl, .inr rfl⟩
        · cases piece <;> cases hline
      | cons d line =>
        rw [List.cons_append, List.head?_cons, Option.some.injEq] at hhead
        exact absurd (hhead ▸ List.mem_cons_self) h.2
    · refine ⟨c :: piece, rfl, ?_⟩
      obtain rfl | rfl := hline
      · exact .inl rfl
      · exact .inr rfl

theorem pieces_line (h : LINE_FEED ∉ line) (hlast : line.getLast? ≠ some CARRIAGE_RETURN) :
    pieces line = [line] := by
  obtain ⟨piece, hpiece, rfl | rfl⟩ := pieces_of_no_feed h
  · exact hpiece
  · rw [List.getLast?_concat] at hlast
    exact absurd rfl hlast

@[simp] theorem joinWith_cons_cons (c : UInt16) (text text' : Text) (texts : List Text) :
    joinWith c (text :: text' :: texts) = text ++ c :: joinWith c (text' :: texts) := rfl

theorem splitLines_joinWith {lines : List Text} (h : lines ≠ []) :
    splitLines (joinWith LINE_FEED lines ++ [LINE_FEED]) = lines.flatMap pieces ++ [[]] := by
  induction lines with
  | nil => exact absurd rfl h
  | cons line lines ih =>
    cases lines with
    | nil =>
      rw [joinWith, (pieces_spec line).1, List.flatMap_singleton]
    | cons line' lines =>
      rw [joinWith_cons_cons, List.append_assoc, List.cons_append, (pieces_spec line).2,
        ih (List.cons_ne_nil _ _), ← List.append_assoc, ← List.flatMap_cons]

/-! ## Comments -/

/-- No comment begins in the text, whatever follows without line terminators. -/
def Uncommented (text : Text) : Prop :=
  ∀ a b, text = a ++ HASH :: b → ∃ d ∈ b, isLineTerminator d = true

variable {text : Text}

theorem uncommented_of_notMem (h : HASH ∉ text) : Uncommented text := by
  rintro a b rfl
  exact absurd (List.mem_append_right a List.mem_cons_self) h

theorem stripComment_append (h : Uncommented text) (rest : Text) :
    stripComment (text ++ rest) = text ++ stripComment rest := by
  induction text with
  | nil => rfl
  | cons c text ih =>
    have htext : Uncommented text := fun a b hab => h (c :: a) b (by rw [hab]; rfl)
    have hno : ¬ (c = HASH ∧ ∀ d ∈ text ++ rest, isLineTerminator d = false) := by
      rintro ⟨rfl, hall⟩
      obtain ⟨d, hd, hterminator⟩ := h [] text rfl
      rw [hall d (List.mem_append_left _ hd)] at hterminator
      cases hterminator
    rw [List.cons_append, stripComment, if_neg hno, ih htext, List.cons_append]

theorem stripComment_isStart (text : Text) : stripComment text <+: text := by
  induction text with
  | nil => exact List.nil_prefix
  | cons c text ih =>
    rw [stripComment]
    split
    · exact List.nil_prefix
    · exact List.cons_prefix_cons.mpr ⟨rfl, ih⟩

variable {rest : Text}

theorem terminator_of_stripComment {a b : Text} (hstrip : stripComment text = a ++ HASH :: b)
    (htext : text = a ++ HASH :: b ++ rest) : ∃ d ∈ b ++ rest, isLineTerminator d = true := by
  induction a generalizing text with
  | nil =>
    rw [htext, List.nil_append, List.cons_append, stripComment] at hstrip
    split at hstrip
    · cases hstrip
    next hcomment =>
    by_contra hnone
    refine hcomment ⟨rfl, fun d hd => ?_⟩
    rw [Bool.eq_false_iff]
    exact fun hterminator => hnone ⟨d, hd, hterminator⟩
  | cons c a ih =>
    rw [htext, List.cons_append, List.cons_append, stripComment] at hstrip
    split at hstrip
    · cases hstrip
    · exact ih (List.cons.inj hstrip).2 (by simp)

theorem stripComment_of_no_hash (h : HASH ∉ text) : stripComment text = text := by
  have happend := stripComment_append (uncommented_of_notMem h) []
  rw [List.append_nil, stripComment, List.append_nil] at happend
  exact happend

/-! ## Tokens -/

theorem isWhiteSpace_quote : isWhiteSpace QUOTE = false := by decide

theorem isWhiteSpace_space : isWhiteSpace SPACE = true := by decide

variable {c : UInt16}

theorem scan_word (h : ∀ c ∈ text, isWhiteSpace c = false) (word rest : Text)
    (hc : isWhiteSpace c = true) :
    scan (.word word) (text ++ c :: rest) = (word ++ text) :: scan .between rest := by
  induction text generalizing word with
  | nil => rw [List.nil_append, scan, if_pos hc, List.append_nil]
  | cons d text ih =>
    obtain ⟨hd, htext⟩ := List.forall_mem_cons.mp h
    rw [List.cons_append, scan, if_neg (by rw [hd]; exact Bool.false_ne_true), ih htext,
      List.append_assoc, List.singleton_append]

theorem scan_word_end (h : ∀ c ∈ text, isWhiteSpace c = false) (word : Text) :
    scan (.word word) text = [word ++ text] := by
  induction text generalizing word with
  | nil => rw [scan, List.append_nil]
  | cons d text ih =>
    obtain ⟨hd, htext⟩ := List.forall_mem_cons.mp h
    rw [scan, if_neg (by rw [hd]; exact Bool.false_ne_true), ih htext, List.append_assoc,
      List.singleton_append]

theorem scan_quoted (h : QUOTE ∉ text) (token rest : Text) :
    scan (.quoted token) (text ++ QUOTE :: rest) = (token ++ text) :: scan .between rest := by
  induction text generalizing token with
  | nil => rw [List.nil_append, scan, if_pos rfl, List.append_nil]
  | cons d text ih =>
    rw [List.mem_cons, not_or] at h
    rw [List.cons_append, scan, if_neg (Ne.symm h.1), ih h.2, List.append_assoc,
      List.singleton_append]

theorem scan_quote (h : QUOTE ∉ text) (rest : Text) :
    scan .between (QUOTE :: (text ++ QUOTE :: rest)) = text :: scan .between rest := by
  have hmem : QUOTE ∈ text ++ QUOTE :: rest := List.mem_append_right _ List.mem_cons_self
  rw [scan, if_pos ⟨rfl, hmem⟩, scan_quoted h, List.nil_append]

theorem scan_space (hc : isWhiteSpace c = true) (rest : Text) :
    scan .between (c :: rest) = scan .between rest := by
  have hquote : c ≠ QUOTE := by
    rintro rfl
    exact absurd hc (by decide)
  rw [scan, if_neg (fun h => hquote h.1), if_pos hc]

theorem scan_solid (h : Solid text) (hquote : text.head? = some QUOTE → QUOTE ∉ text.tail ++ rest)
    (hc : isWhiteSpace c = true) :
    scan .between (text ++ c :: rest) = text :: scan .between rest := by
  obtain ⟨hne, hsolid⟩ := h
  obtain ⟨d, text, rfl⟩ := List.exists_cons_of_ne_nil hne
  obtain ⟨hd, htext⟩ := List.forall_mem_cons.mp hsolid
  have hno : ¬ (d = QUOTE ∧ QUOTE ∈ text ++ c :: rest) := by
    rintro ⟨rfl, hmem⟩
    have hmem' := hquote rfl
    rw [List.mem_append, List.mem_cons] at hmem
    rw [List.tail_cons, List.mem_append, not_or] at hmem'
    obtain hmem | rfl | hmem := hmem
    · exact hmem'.1 hmem
    · exact absurd hc (by decide)
    · exact hmem'.2 hmem
  rw [List.cons_append, scan, if_neg hno, if_neg (by rw [hd]; exact Bool.false_ne_true),
    scan_word htext _ _ hc, List.singleton_append]

theorem scan_solid_end (h : Solid text) (hquote : text.head? = some QUOTE → QUOTE ∉ text.tail) :
    scan .between text = [text] := by
  obtain ⟨hne, hsolid⟩ := h
  obtain ⟨d, text, rfl⟩ := List.exists_cons_of_ne_nil hne
  obtain ⟨hd, htext⟩ := List.forall_mem_cons.mp hsolid
  have hno : ¬ (d = QUOTE ∧ QUOTE ∈ text) := by
    rintro ⟨rfl, hmem⟩
    exact hquote rfl hmem
  rw [scan, if_neg hno, if_neg (by rw [hd]; exact Bool.false_ne_true), scan_word_end htext,
    List.singleton_append]

theorem scan_concat_space (hc : isWhiteSpace c = true) (mode : Reading) (text : Text) :
    scan mode (text ++ [c]) = scan mode text := by
  have hquote : c ≠ QUOTE := by
    rintro rfl
    exact absurd hc (by decide)
  induction text generalizing mode with
  | nil =>
    cases mode with
    | between => rw [List.nil_append, scan_space hc]
    | quoted token => simp [scan, hquote]
    | word token => simp [scan, hc]
  | cons d text ih =>
    have hmem : QUOTE ∈ text ++ [c] ↔ QUOTE ∈ text := by
      rw [List.mem_append, List.mem_singleton]
      exact or_iff_left (Ne.symm hquote)
    cases mode with
    | between => simp only [List.cons_append, scan, hmem, ih]
    | quoted token => simp only [List.cons_append, scan, ih]
    | word token => simp only [List.cons_append, scan, ih]

theorem scan_dropWhile (text : Text) :
    scan .between (text.dropWhile isWhiteSpace) = scan .between text := by
  induction text with
  | nil => rfl
  | cons c text ih =>
    by_cases hc : isWhiteSpace c = true
    · rw [List.dropWhile_cons_of_pos hc, ih, scan_space hc]
    · rw [List.dropWhile_cons_of_neg hc]

theorem scan_reverse_dropWhile (text : Text) :
    scan .between (text.dropWhile isWhiteSpace).reverse = scan .between text.reverse := by
  induction text with
  | nil => rfl
  | cons c text ih =>
    by_cases hc : isWhiteSpace c = true
    · rw [List.dropWhile_cons_of_pos hc, ih, List.reverse_cons, scan_concat_space hc]
    · rw [List.dropWhile_cons_of_neg hc]

theorem lineTokens_eq (rawLine : Text) : lineTokens rawLine = scan .between (stripComment rawLine) := by
  rw [lineTokens, tokenizeCliLine, trim, scan_reverse_dropWhile, List.reverse_reverse,
    scan_dropWhile]

variable {token : Text} {tokens : List Text}

theorem scan_eq_cons (h : scan .between text = token :: tokens) : ∃ space rest,
      (∀ c ∈ space, isWhiteSpace c = true) ∧ tokens = scan .between rest ∧
      ((QUOTE ∉ token ∧ text = space ++ QUOTE :: (token ++ QUOTE :: rest)) ∨
        (Solid token ∧ text = space ++ token ++ rest ∧
          (rest = [] ∨ ∃ c rest', rest = c :: rest' ∧ isWhiteSpace c = true) ∧
          (token.head? = some QUOTE → QUOTE ∉ token.tail ++ rest))) := by
  induction text with
  | nil => cases h
  | cons c text ih =>
    rw [scan] at h
    split at h
    · next hquote =>
      obtain ⟨rfl, hmem⟩ := hquote
      obtain ⟨token', rest, rfl, hno⟩ := List.eq_append_cons_of_mem hmem
      rw [scan_quoted hno, List.nil_append] at h
      obtain ⟨rfl, rfl⟩ := List.cons.inj h
      exact ⟨[], rest, by simp, rfl, .inl ⟨hno, rfl⟩⟩
    next hquote =>
    split at h
    · next hspace =>
      obtain ⟨space, rest, hspaces, hrest, hcases⟩ := ih h
      refine ⟨c :: space, rest, List.forall_mem_cons.mpr ⟨hspace, hspaces⟩, hrest, ?_⟩
      obtain ⟨hno, rfl⟩ | ⟨hsolid, rfl, hend, hhead⟩ := hcases
      · exact .inl ⟨hno, rfl⟩
      · exact .inr ⟨hsolid, rfl, hend, hhead⟩
    next hspace =>
    have hsolid : ∀ d ∈ text.takeWhile (fun d => !isWhiteSpace d), isWhiteSpace d = false := by
      intro d hd
      simpa using List.mem_takeWhile_imp hd
    have hword : Solid (c :: text.takeWhile fun d => !isWhiteSpace d) :=
      ⟨List.cons_ne_nil _ _, List.forall_mem_cons.mpr ⟨by simpa using hspace, hsolid⟩⟩
    have hsplit : text.takeWhile (fun d => !isWhiteSpace d) ++
        text.dropWhile (fun d => !isWhiteSpace d) = text := List.takeWhile_append_dropWhile
    have hhead : (c :: text.takeWhile fun d => !isWhiteSpace d).head? = some QUOTE →
        QUOTE ∉ (c :: text.takeWhile fun d => !isWhiteSpace d).tail ++
          text.dropWhile fun d => !isWhiteSpace d := by
      intro hc hmem
      rw [List.tail_cons, hsplit] at hmem
      rw [List.head?_cons, Option.some.injEq] at hc
      exact hquote ⟨hc, hmem⟩
    cases hrest : text.dropWhile fun d => !isWhiteSpace d with
    | nil =>
      rw [hrest, List.append_nil] at hsplit
      rw [← hsplit, scan_word_end hsolid, List.singleton_append] at h
      obtain ⟨rfl, rfl⟩ := List.cons.inj h
      rw [hrest] at hhead
      exact ⟨[], [], by simp, rfl, .inr ⟨hword, by simp [hsplit], .inl rfl, hhead⟩⟩
    | cons d rest =>
      have hd : isWhiteSpace d = true := by
        have hnot := List.head?_dropWhile_not (fun d => !isWhiteSpace d) text
        rw [hrest, List.head?_cons] at hnot
        simpa using hnot
      rw [hrest] at hsplit hhead
      rw [← hsplit, scan_word hsolid _ _ hd, List.singleton_append] at h
      obtain ⟨rfl, rfl⟩ := List.cons.inj h
      refine ⟨[], d :: rest, by simp, (scan_space hd rest).symm, .inr ⟨hword, ?_, ?_, hhead⟩⟩
      · simp [hsplit]
      · exact .inr ⟨d, rest, rfl, hd⟩

theorem length_of_scan (h : scan .between text = token :: tokens) : token.length ≤ text.length ∧
      ∀ next more, tokens = next :: more →
        ∃ rest, scan .between rest = next :: more ∧ rest.length + 2 ≤ text.length := by
  obtain ⟨space, rest, -, hrest, ⟨-, rfl⟩ | ⟨⟨hne, -⟩, rfl, hend, -⟩⟩ := scan_eq_cons h
  · refine ⟨by simp; omega, fun next more hnext => ⟨rest, hrest.symm.trans hnext, ?_⟩⟩
    simp
    omega
  · refine ⟨by simp; omega, fun next more hnext => ?_⟩
    obtain rfl | ⟨c, rest', rfl, hc⟩ := hend
    · rw [hnext, scan] at hrest
      cases hrest
    · refine ⟨rest', ?_, ?_⟩
      · rw [← hnext, hrest, scan_space hc]
      · have hpos := List.length_pos_iff.mpr hne
        simp
        omega

theorem mem_of_mem_scan (h : scan .between text = tokens) (htoken : token ∈ tokens) :
    ∀ c ∈ token, c ∈ text := by
  induction tokens generalizing text with
  | nil => cases htoken
  | cons first tokens ih =>
    obtain ⟨space, rest, -, hrest, ⟨-, rfl⟩ | ⟨-, rfl, -, -⟩⟩ := scan_eq_cons h
    · obtain rfl | htoken := List.mem_cons.mp htoken
      · intro c hc
        simp [hc]
      · intro c hc
        have hmem := ih hrest.symm htoken c hc
        simp [hmem]
    · obtain rfl | htoken := List.mem_cons.mp htoken
      · intro c hc
        simp [hc]
      · intro c hc
        have hmem := ih hrest.symm htoken c hc
        simp [hmem]

/-! ## Quotes -/

def Reading.held : Reading → Text
  | .between => []
  | .quoted token => token
  | .word token => token

theorem count_scan_le (mode : Reading) (text : Text) :
    (scan mode text).flatten.count QUOTE ≤ mode.held.count QUOTE + text.count QUOTE := by
  induction text generalizing mode with
  | nil => cases mode <;> simp [scan, Reading.held]
  | cons c text ih =>
    have hbetween := ih .between
    have hquoted (token : Text) := ih (.quoted token)
    have hword (token : Text) := ih (.word token)
    simp only [Reading.held, List.count_nil] at hbetween hquoted hword
    cases mode with
    | between =>
      rw [scan, Reading.held, List.count_nil, List.count_cons]
      have hstart := hquoted []
      have hfirst := hword [c]
      rw [List.count_nil] at hstart
      rw [List.count_singleton] at hfirst
      generalize (if (c == QUOTE) = true then 1 else 0) = here at *
      split_ifs
      · omega
      · omega
      · omega
    | quoted token =>
      rw [scan, Reading.held, List.count_cons]
      have hnext := hquoted (token ++ [c])
      rw [List.count_append, List.count_singleton] at hnext
      split
      · rw [List.flatten_cons, List.count_append]
        omega
      · omega
    | word token =>
      rw [scan, Reading.held, List.count_cons]
      have hnext := hword (token ++ [c])
      rw [List.count_append, List.count_singleton] at hnext
      split
      · rw [List.flatten_cons, List.count_append]
        omega
      · omega

theorem solid_or_count_scan_lt (mode : Reading) (text : Text)
    (hword : ∀ word, mode = .word word → Solid word) (hquoted : ∀ token, mode ≠ .quoted token) :
    (∀ token ∈ scan mode text, Solid token) ∨
      (scan mode text).flatten.count QUOTE < mode.held.count QUOTE + text.count QUOTE := by
  induction text generalizing mode with
  | nil =>
    left
    cases mode with
    | between => simp [scan]
    | quoted token => exact absurd rfl (hquoted token)
    | word word => simpa [scan] using hword word rfl
  | cons c text ih =>
    have hbetween := ih .between (fun _ h => nomatch h) (fun _ => Reading.noConfusion)
    have hsolid {word : Text} (h : Solid word) := ih (.word word)
      (fun _ heq => Reading.word.inj heq ▸ h) (fun _ => Reading.noConfusion)
    simp only [Reading.held, List.count_nil] at hbetween hsolid
    cases mode with
    | between =>
      rw [scan, Reading.held, List.count_nil, List.count_cons]
      split
      · next hquote =>
        have hstart := count_scan_le (.quoted []) text
        rw [Reading.held, List.count_nil] at hstart
        right
        rw [if_pos (by rw [hquote.1]; rfl)]
        omega
      split
      · next hspace =>
        refine hbetween.imp_right fun hlt => ?_
        omega
      · next hspace =>
        have hfirst : Solid [c] := ⟨List.cons_ne_nil _ _, by simpa using hspace⟩
        have hrest := hsolid hfirst
        rw [List.count_singleton] at hrest
        refine hrest.imp_right fun hlt => ?_
        omega
    | quoted token => exact absurd rfl (hquoted token)
    | word word =>
      obtain ⟨hne, hall⟩ := hword word rfl
      rw [scan, Reading.held, List.count_cons]
      split
      · obtain hbetween | hlt := hbetween
        · left
          exact List.forall_mem_cons.mpr ⟨⟨hne, hall⟩, hbetween⟩
        · right
          rw [List.flatten_cons, List.count_append]
          omega
      · next hspace =>
        have hnext : Solid (word ++ [c]) := by
          refine ⟨by simp, fun d hd => ?_⟩
          obtain hd | hd := List.mem_append.mp hd
          · exact hall d hd
          · rw [List.mem_singleton.mp hd]
            simpa using hspace
        have hrest := hsolid hnext
        rw [List.count_append, List.count_singleton] at hrest
        refine hrest.imp_right fun hlt => ?_
        omega

/-! ## Words in a row -/

def QuotesLast : List Text → Prop
  | [] => True
  | word :: words =>
    (word.head? = some QUOTE → QUOTE ∉ word.tail ∧ ∀ w ∈ words, QUOTE ∉ w) ∧ QuotesLast words

variable {words : List Text} {d : UInt16}

theorem mem_joinWith (h : c ∈ joinWith d words) :
    c = d ∨ ∃ word ∈ words, c ∈ word := by
  induction words with
  | nil => cases h
  | cons word words ih =>
    cases words with
    | nil => exact .inr ⟨word, List.mem_cons_self, h⟩
    | cons word' words =>
      rw [joinWith_cons_cons, List.mem_append, List.mem_cons] at h
      obtain h | rfl | h := h
      · exact .inr ⟨word, List.mem_cons_self, h⟩
      · exact .inl rfl
      · exact (ih h).imp_right fun ⟨w, hw, hc⟩ => ⟨w, List.mem_cons_of_mem _ hw, hc⟩

theorem mem_joinWith_of_mem {word : Text} (hword : word ∈ words) (hc : c ∈ word) :
    c ∈ joinWith d words := by
  induction words with
  | nil => cases hword
  | cons first words ih =>
    cases words with
    | nil =>
      obtain rfl := List.mem_singleton.mp hword
      exact hc
    | cons word' words =>
      rw [joinWith_cons_cons, List.mem_append, List.mem_cons]
      obtain rfl | hword := List.mem_cons.mp hword
      · exact .inl hc
      · exact .inr (.inr (ih hword))

theorem scan_joinWith (h : ∀ word ∈ words, Solid word) (hquotes : QuotesLast words) :
    scan .between (joinWith SPACE words) = words := by
  induction words with
  | nil => rfl
  | cons word words ih =>
    obtain ⟨hword, hwords⟩ := List.forall_mem_cons.mp h
    obtain ⟨hhead, hrest⟩ := hquotes
    cases words with
    | nil => exact scan_solid_end hword fun hquote => (hhead hquote).1
    | cons word' words =>
      rw [joinWith_cons_cons, scan_solid hword _ isWhiteSpace_space, ih hwords hrest]
      intro hquote hmem
      obtain ⟨htail, hnone⟩ := hhead hquote
      obtain hmem | hmem := List.mem_append.mp hmem
      · exact htail hmem
      · obtain hspace | ⟨w, hw, hmem⟩ := mem_joinWith hmem
        · exact absurd hspace (by decide)
        · exact hnone w hw hmem

theorem count_scan_quote_lt (h : QUOTE ∈ rest) :
    (scan .between (QUOTE :: rest)).flatten.count QUOTE < (QUOTE :: rest).count QUOTE := by
  have hstart := count_scan_le (.quoted []) rest
  rw [Reading.held, List.count_nil] at hstart
  rw [scan, if_pos ⟨rfl, h⟩, List.count_cons_self]
  omega

theorem quotesLast_or_count_scan_lt (h : ∀ word ∈ words, Solid word) :
    QuotesLast words ∨
      (scan .between (joinWith SPACE words)).flatten.count QUOTE <
        (joinWith SPACE words).count QUOTE := by
  induction words with
  | nil => exact .inl trivial
  | cons word words ih =>
    obtain ⟨hword, hwords⟩ := List.forall_mem_cons.mp h
    obtain ⟨c, tail, rfl⟩ := List.exists_cons_of_ne_nil hword.1
    cases words with
    | nil =>
      by_cases hquote : c = QUOTE ∧ QUOTE ∈ tail
      · obtain ⟨rfl, hmem⟩ := hquote
        exact .inr (count_scan_quote_lt hmem)
      · refine .inl ⟨fun hhead => ⟨fun hmem => hquote ⟨?_, hmem⟩, by simp⟩, trivial⟩
        simpa using hhead
    | cons word' words =>
      rw [joinWith_cons_cons]
      by_cases hquote : c = QUOTE ∧ QUOTE ∈ tail ++ SPACE :: joinWith SPACE (word' :: words)
      · obtain ⟨rfl, hmem⟩ := hquote
        exact .inr (count_scan_quote_lt hmem)
      · have hno (hc : c = QUOTE) : QUOTE ∉ tail ∧ QUOTE ∉ joinWith SPACE (word' :: words) := by
          constructor
          · exact fun hmem => hquote ⟨hc, List.mem_append_left _ hmem⟩
          · exact fun hmem => hquote ⟨hc, List.mem_append_right _ (List.mem_cons_of_mem _ hmem)⟩
        have hhead : (c :: tail).head? = some QUOTE →
            QUOTE ∉ (c :: tail).tail ++ joinWith SPACE (word' :: words) := by
          intro hc hmem
          obtain ⟨htail, hrest⟩ := hno (by simpa using hc)
          exact (List.mem_append.mp hmem).elim htail hrest
        rw [scan_solid hword hhead isWhiteSpace_space]
        refine (ih hwords).imp (fun hlast => ⟨fun hc => ?_, hlast⟩) fun hlt => ?_
        · obtain ⟨htail, hrest⟩ := hno (by simpa using hc)
          exact ⟨htail, fun w hw hmem => hrest (mem_joinWith_of_mem hw hmem)⟩
        · have hspace : (SPACE :: joinWith SPACE (word' :: words)).count QUOTE =
              (joinWith SPACE (word' :: words)).count QUOTE := List.count_cons_of_ne (by decide)
          rw [List.flatten_cons, List.count_append, List.count_append, hspace]
          omega

end ArduConfigurator.Tables
