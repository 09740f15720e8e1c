import ArduConfigurator.ViewModels.RcLogic

/-! # Edits of RC logic terms

Source type, negation and level are read from disjoint bits of a term's options, and each edit of
the options writes its own bits alone. The drafts of an edit stage the numbers of its own term: once
they are merged the numbers of the other terms are read as before. -/
namespace ArduConfigurator.ViewModels.RcLogic
set_option autoImplicit false
open Parameters DecimalText JsNumber

/-! ## Fields of bits -/

theorem and_congr_of_bits {a b mask : BitVec 32}
    (h : ∀ k, mask.getLsbD k = true → a.getLsbD k = b.getLsbD k) : a &&& mask = b &&& mask := by
  apply BitVec.eq_of_getLsbD_eq
  intro k _
  rw [BitVec.getLsbD_and, BitVec.getLsbD_and]
  cases hk : mask.getLsbD k with
  | false => rw [Bool.and_false, Bool.and_false]
  | true => rw [h k hk]

theorem mask_bit (mask : BitVec 32) (p : ℕ → Prop) [DecidablePred p]
    (h : ∀ j : Fin 32, mask.getLsbD j = decide (p j)) (hp : ∀ k, p k → k < 32) (k : ℕ) :
    mask.getLsbD k = decide (p k) := by
  by_cases hk : k < 32
  · exact h ⟨k, hk⟩
  · rw [BitVec.getLsbD_of_ge _ _ (not_lt.mp hk), decide_eq_false (mt (hp k) hk)]

theorem negateMask_bit (k : ℕ) : NEGATE_MASK.getLsbD k = decide (k = 3) :=
  mask_bit _ (fun k => k = 3) (by decide) (fun k hk => by omega) k

theorem sourceMask_bit (k : ℕ) : RC_LOGIC_OPT_SOURCE_TYPE_MASK.getLsbD k = decide (k < 2) :=
  mask_bit _ (fun k => k < 2) (by decide) (fun k hk => by omega) k

theorem modeMask_bit (k : ℕ) : RC_LOGIC_OPT_LEVEL_MODE_MASK.getLsbD k = decide (k = 4) :=
  mask_bit _ (fun k => k = 4) (by decide) (fun k hk => by omega) k

theorem levelMask_bit (k : ℕ) : LEVEL_FIELD_MASK.getLsbD k = decide (4 ≤ k ∧ k < 8) :=
  mask_bit _ (fun k => 4 ≤ k ∧ k < 8) (by decide) (fun k hk => by omega) k

theorem indexMask_bit (k : ℕ) : RC_LOGIC_OPT_LEVEL_INDEX_MASK.getLsbD k = decide (k < 3) :=
  mask_bit _ (fun k => k < 3) (by decide) (fun k hk => by omega) k

theorem and_ne_zero_iff {mask : BitVec 32} {n : ℕ} (hmask : ∀ k, mask.getLsbD k = decide (k = n))
    (a : BitVec 32) : a &&& mask ≠ 0#32 ↔ a.getLsbD n = true := by
  constructor
  · intro hne
    by_contra hn
    apply hne
    apply BitVec.eq_of_getLsbD_eq
    intro k _
    rw [BitVec.getLsbD_and, hmask, BitVec.getLsbD_zero]
    by_cases hk : k = n
    · rw [hk, Bool.eq_false_iff.mpr hn, Bool.false_and]
    · rw [decide_eq_false hk, Bool.and_false]
  · intro hn hzero
    have hbit := congrArg (fun b : BitVec 32 => b.getLsbD n) hzero
    simp [hmask, hn] at hbit

theorem inverted_eq (opt : JsNumber) :
    decide (opt.toInt32 &&& NEGATE_MASK ≠ 0) = opt.toInt32.getLsbD 3 := by
  rw [Bool.eq_iff_iff, decide_eq_true_eq]
  exact and_ne_zero_iff negateMask_bit _

theorem levelMode_eq (opt : JsNumber) : (decodeLevel opt).levelMode = opt.toInt32.getLsbD 4 := by
  rw [decodeLevel, Bool.eq_iff_iff, decide_eq_true_eq]
  exact and_ne_zero_iff modeMask_bit _

/-! ## Level indices -/

theorem zero_eq_finite : (0 : JsNumber) = .finite false 0 :=
  (ofInt_natCast (n := 0) (by norm_num)).trans (by rw [Nat.cast_zero])

theorem min_seven (n : Bool) (q : ℚ≥0) : JsNumber.min (.finite false 7) (.finite n q) =
    if signed n q ≤ 7 then .finite n q else .finite false 7 := by
  have hseven : signed false 7 = 7 := by simp [signed]
  by_cases hle : signed n q ≤ 7
  · by_cases hge : 7 ≤ signed n q <;>
      simp [JsNumber.min, JsNumber.equal, lt, le, hseven, hle, hge]
  · have hge : 7 ≤ signed n q := (not_le.mp hle).le
    simp [JsNumber.min, JsNumber.equal, lt, le, hseven, hle, hge]

theorem max_zero (n : Bool) (q : ℚ≥0) : JsNumber.max (.finite false 0) (.finite n q) =
    if 0 < signed n q then .finite n q else .finite false 0 := by
  have hzero : signed false 0 = 0 := by simp [signed]
  by_cases hle : signed n q ≤ 0
  · by_cases hge : 0 ≤ signed n q <;>
      simp [JsNumber.max, JsNumber.equal, lt, le, hzero, hle, hge]
  · have hge : 0 < signed n q := not_le.mp hle
    simp [JsNumber.max, JsNumber.equal, lt, le, hzero, hle, hge, hge.le]

theorem clamped_cases (y : JsNumber) :
    JsNumber.max 0 (JsNumber.min (.finite false 7) y) = .nan ∨
      ∃ q : ℚ≥0, q ≤ 7 ∧ JsNumber.max 0 (JsNumber.min (.finite false 7) y) = .finite false q := by
  rw [zero_eq_finite]
  cases y with
  | nan => exact Or.inl (by simp [JsNumber.min, JsNumber.max])
  | infinite negative =>
    cases negative with
    | true =>
      exact Or.inr ⟨0, by norm_num, by
        simp [JsNumber.min, JsNumber.max, lt, JsNumber.equal, le]⟩
    | false =>
      exact Or.inr ⟨7, by norm_num, by
        simp [JsNumber.min, JsNumber.max, lt, JsNumber.equal, le, signed]⟩
  | finite n q =>
    have hseven : (0 : ℚ) < signed false 7 := by simp [signed]
    rw [min_seven]
    by_cases hle : signed n q ≤ 7
    · rw [if_pos hle, max_zero]
      by_cases hpos : 0 < signed n q
      · rw [if_pos hpos]
        cases n with
        | true =>
          have hneg : signed true q ≤ 0 := by simp [signed]
          exact absurd hpos (not_lt.mpr hneg)
        | false =>
          refine Or.inr ⟨q, ?_, rfl⟩
          rw [signed, if_neg Bool.false_ne_true] at hle
          exact_mod_cast hle
      · rw [if_neg hpos]
        exact Or.inr ⟨0, by norm_num, rfl⟩
    · rw [if_neg hle, max_zero, if_pos hseven]
      exact Or.inr ⟨7, le_rfl, rfl⟩

theorem levelMask_eq : ofInt32 RC_LOGIC_OPT_LEVEL_INDEX_MASK = .finite false 7 := by
  rw [ofInt32_eq]
  rfl

theorem levelIndex_lt (outputLevel : JsNumber) : (levelIndex outputLevel).toInt32.toNat < 8 := by
  rw [levelIndex, levelMask_eq]
  rcases clamped_cases outputLevel.roundHalfUp with h | ⟨q, hq, h⟩
  · rw [h]
    decide
  · rw [h, toInt32, signed, if_neg Bool.false_ne_true, truncate,
      if_neg (not_lt.mpr (NNRat.cast_nonneg q))]
    have hlow : 0 ≤ ⌊(q : ℚ)⌋ := Int.floor_nonneg.mpr (NNRat.cast_nonneg q)
    have hhigh : ⌊(q : ℚ)⌋ < 8 := by
      rw [Int.floor_lt]
      have hcast : (q : ℚ) ≤ 7 := by exact_mod_cast hq
      push_cast
      linarith
    rw [BitVec.toNat_ofInt]
    omega

theorem levelIndex_bit (outputLevel : JsNumber) {k : ℕ} (hk : 3 ≤ k) :
    (levelIndex outputLevel).toInt32.getLsbD k = false := by
  have hpow : 2 ^ 3 ≤ 2 ^ k := Nat.pow_le_pow_right (by decide) hk
  exact Nat.testBit_lt_two_pow (lt_of_lt_of_le (levelIndex_lt outputLevel) hpow)

/-- The level that is shown after `outputLevel` was written. -/
def shownLevel (outputLevel : JsNumber) : JsNumber := ofInt32 (levelIndex outputLevel).toInt32

theorem roundHalfUp_natCast {n : ℕ} (h : n < 2 ^ 53) :
    roundHalfUp (.finite false (n : ℚ≥0)) = .finite false (n : ℚ≥0) := by
  have hsigned : signed false (n : ℚ≥0) = (n : ℚ) := by simp [signed]
  have hfloor : ⌊(n : ℚ) + 1 / 2⌋ = (n : ℤ) := by
    rw [Int.floor_eq_iff]
    constructor <;> push_cast <;> linarith
  have habs : (⟨|((n : ℤ) : ℚ)|, abs_nonneg _⟩ : ℚ≥0) = (n : ℚ≥0) := by
    apply NNRat.coe_injective
    change |((n : ℤ) : ℚ)| = (n : ℚ)
    rw [Int.cast_natCast, abs_of_nonneg (Nat.cast_nonneg n)]
  have hsign : (if ((n : ℤ) : ℚ) = 0 then false else decide (((n : ℤ) : ℚ) < 0)) = false := by
    simp
  rw [roundHalfUp, toIntegral, hsigned, hfloor, JsNumber.round, habs, hsign]
  exact nearestDouble_of_holds (holds_natCast h)

theorem shownLevel_natCast {n : ℕ} (h : n < 8) :
    shownLevel (.finite false (n : ℚ≥0)) = .finite false (n : ℚ≥0) := by
  have hsigned : signed false (n : ℚ≥0) = (n : ℚ) := by simp [signed]
  have hle : (n : ℚ) ≤ 7 := by exact_mod_cast Nat.le_of_lt_succ h
  have hindex : levelIndex (.finite false (n : ℚ≥0)) = .finite false (n : ℚ≥0) := by
    rw [levelIndex, roundHalfUp_natCast (by omega), levelMask_eq, zero_eq_finite, min_seven,
      hsigned, if_pos hle, max_zero, hsigned]
    obtain rfl | hpos := Nat.eq_zero_or_pos n
    · simp
    · rw [if_pos (by exact_mod_cast hpos)]
  have htruncate : truncate (n : ℚ) = n := truncate_intCast n
  have htoInt : (BitVec.ofInt 32 (n : ℤ)).toInt = n := by
    rw [BitVec.toInt_ofInt]
    exact Int.bmod_eq_of_le (by omega) (by omega)
  rw [shownLevel, hindex, toInt32, hsigned, htruncate, ofInt32, htoInt]
  exact ofInt_natCast (by omega)

theorem shownLevel_decodeLevel (opt : JsNumber) :
    shownLevel (decodeLevel opt).outputLevel = (decodeLevel opt).outputLevel := by
  have hlt : (opt.toInt32.sshiftRight RC_LOGIC_OPT_LEVEL_INDEX_SHIFT &&&
      RC_LOGIC_OPT_LEVEL_INDEX_MASK).toNat < 8 := by
    rw [BitVec.toNat_and]
    exact Nat.lt_succ_of_le Nat.and_le_right
  have hread : (decodeLevel opt).outputLevel = .finite false
      ((opt.toInt32.sshiftRight RC_LOGIC_OPT_LEVEL_INDEX_SHIFT &&&
        RC_LOGIC_OPT_LEVEL_INDEX_MASK).toNat : ℚ≥0) := by
    rw [decodeLevel, ofInt32, BitVec.toInt_eq_toNat_of_lt (by omega)]
    exact ofInt_natCast (by omega)
  rw [hread]
  exact shownLevel_natCast hlt

/-! ## What an edit writes -/

theorem encodeLevel_bit (opt : JsNumber) (levelMode : Bool) (outputLevel : JsNumber) {k : ℕ}
    (hk : k < 32) : (encodeLevel opt levelMode outputLevel).toInt32.getLsbD k =
      if 4 ≤ k ∧ k < 8 then
        levelMode && (decide (k = 4) ||
          (decide (5 ≤ k) && (levelIndex outputLevel).toInt32.getLsbD (k - 5)))
      else opt.toInt32.getLsbD k := by
  have hhigh : 8 ≤ k → (levelIndex outputLevel).toInt32.getLsbD (k - 5) = false :=
    fun h => levelIndex_bit outputLevel (by omega)
  have hlow : (!decide (k < 5)) = decide (5 ≤ k) := by
    rw [← decide_not]
    exact decide_eq_decide.mpr not_lt
  cases levelMode with
  | false =>
    rw [encodeLevel, if_neg Bool.false_ne_true, toInt32_ofInt32, BitVec.getLsbD_and,
      BitVec.getLsbD_not, levelMask_bit, decide_eq_true hk]
    by_cases hfield : 4 ≤ k ∧ k < 8 <;> simp [hfield]
  | true =>
    rw [encodeLevel, if_pos rfl, toInt32_ofInt32, BitVec.getLsbD_or, BitVec.getLsbD_or,
      BitVec.getLsbD_and, BitVec.getLsbD_not, levelMask_bit, modeMask_bit, BitVec.getLsbD_shiftLeft,
      decide_eq_true hk, RC_LOGIC_OPT_LEVEL_INDEX_SHIFT, hlow]
    by_cases hfield : 4 ≤ k ∧ k < 8
    · rw [if_pos hfield, decide_eq_true hfield]
      simp
    · have hne : k ≠ 4 := by omega
      rw [if_neg hfield, decide_eq_false hfield, decide_eq_false hne]
      rcases lt_or_ge k 5 with h | h
      · simp [not_le.mpr h]
      · rw [hhigh (by omega)]
        simp

theorem negated_bit (opt : JsNumber) (inverted : Option Bool) {k : ℕ} (hk : k < 32) :
    (negated opt inverted).toInt32.getLsbD k =
      if k = 3 then inverted.getD (opt.toInt32.getLsbD 3) else opt.toInt32.getLsbD k := by
  cases inverted with
  | none => by_cases h : k = 3 <;> simp [negated, h]
  | some value =>
    cases value with
    | false =>
      rw [negated, toInt32_ofInt32, BitVec.getLsbD_and, BitVec.getLsbD_not, negateMask_bit,
        decide_eq_true hk]
      by_cases h : k = 3
      · simp [h]
      · rw [if_neg h, decide_eq_false h]
        simp
    | true =>
      rw [negated, toInt32_ofInt32, BitVec.getLsbD_or, negateMask_bit]
      by_cases h : k = 3
      · simp [h]
      · rw [if_neg h, decide_eq_false h, Bool.or_false]

theorem retyped_bit (opt : JsNumber) (kind : Option SourceKind) {k : ℕ} (hk : k < 32) :
    (retyped opt kind).toInt32.getLsbD k =
      if k < 2 then (kind.map fun kind => kind.bits.getLsbD k).getD (opt.toInt32.getLsbD k)
      else opt.toInt32.getLsbD k := by
  cases kind with
  | none => simp [retyped]
  | some kind =>
    have hbits : ∀ j : ℕ, 2 ≤ j → kind.bits.getLsbD j = false := by
      intro j hj
      have hlt : kind.bits.toNat < 2 ^ 2 := by cases kind <;> decide
      exact Nat.testBit_lt_two_pow (lt_of_lt_of_le hlt (Nat.pow_le_pow_right (by decide) hj))
    rw [retyped, toInt32_ofInt32, BitVec.getLsbD_or, BitVec.getLsbD_and, BitVec.getLsbD_not,
      sourceMask_bit, decide_eq_true hk]
    by_cases h : k < 2
    · rw [if_pos h, decide_eq_true h]
      simp
    · rw [if_neg h, decide_eq_false h, hbits k (not_lt.mp h)]
      simp

theorem levelled_bit (current opt : JsNumber) (levelMode : Option Bool)
    (outputLevel : Option JsNumber) (clears : Bool) {k : ℕ} (hk : k < 32)
    (houtside : ¬(4 ≤ k ∧ k < 8) ∨
      (levelMode.isSome || outputLevel.isSome || clears) = false) :
    (levelled current opt levelMode outputLevel clears).toInt32.getLsbD k =
      opt.toInt32.getLsbD k := by
  unfold levelled
  dsimp only
  split_ifs with htouched hclears
  · rw [encodeLevel_bit _ _ _ hk, if_neg]
    exact houtside.resolve_right (by simp [htouched])
  · rw [encodeLevel_bit _ _ _ hk, if_neg]
    exact houtside.resolve_right (by simp [hclears])
  · rfl

/-! ## What is read back -/

theorem level_bit (opt : JsNumber) {k : ℕ} (hk : k < 3) :
    (opt.toInt32.sshiftRight RC_LOGIC_OPT_LEVEL_INDEX_SHIFT).getLsbD k =
      opt.toInt32.getLsbD (5 + k) := by
  have hwidth : ¬32 ≤ k := by omega
  have hshift : 5 + k < 32 := by omega
  rw [BitVec.getLsbD_sshiftRight, RC_LOGIC_OPT_LEVEL_INDEX_SHIFT, if_pos hshift,
    decide_eq_false hwidth, Bool.not_false, Bool.true_and]

theorem decodeLevel_congr {x y : JsNumber}
    (h : ∀ k, 4 ≤ k → k < 8 → x.toInt32.getLsbD k = y.toInt32.getLsbD k) :
    decodeLevel x = decodeLevel y := by
  have hmode : (decodeLevel x).levelMode = (decodeLevel y).levelMode := by
    rw [levelMode_eq, levelMode_eq]
    exact h 4 le_rfl (by omega)
  have hindex : (decodeLevel x).outputLevel = (decodeLevel y).outputLevel := by
    apply congrArg ofInt32
    apply and_congr_of_bits
    intro k hk
    rw [indexMask_bit, decide_eq_true_eq] at hk
    rw [level_bit x hk, level_bit y hk]
    exact h (5 + k) (by omega) (by omega)
  rw [RcLogicLevelSelection.mk.injEq]
  exact ⟨hmode, hindex⟩

theorem ofInt32_zero : ofInt32 0#32 = 0 := rfl

theorem decodeLevel_encodeLevel (opt : JsNumber) (levelMode : Bool) (outputLevel : JsNumber) :
    decodeLevel (encodeLevel opt levelMode outputLevel) =
      if levelMode then ⟨true, shownLevel outputLevel⟩ else ⟨false, 0⟩ := by
  have hmode : (decodeLevel (encodeLevel opt levelMode outputLevel)).levelMode = levelMode := by
    rw [levelMode_eq, encodeLevel_bit _ _ _ (by omega)]
    simp
  have hindex : (encodeLevel opt levelMode outputLevel).toInt32.sshiftRight
      RC_LOGIC_OPT_LEVEL_INDEX_SHIFT &&& RC_LOGIC_OPT_LEVEL_INDEX_MASK =
        if levelMode then (levelIndex outputLevel).toInt32 else 0#32 := by
    apply BitVec.eq_of_getLsbD_eq
    intro k _
    rw [BitVec.getLsbD_and, indexMask_bit]
    by_cases hk : k < 3
    · have hfield : 4 ≤ 5 + k ∧ 5 + k < 8 := by omega
      rw [level_bit _ hk, encodeLevel_bit _ _ _ (by omega), if_pos hfield, Nat.add_sub_cancel_left,
        decide_eq_true hk]
      have hne : 5 + k ≠ 4 := by omega
      have hge : 5 ≤ 5 + k := Nat.le_add_right 5 k
      rw [decide_eq_false hne, decide_eq_true hge]
      cases levelMode <;> simp
    · rw [decide_eq_false hk, Bool.and_false]
      cases levelMode with
      | false => simp
      | true => rw [if_pos rfl, levelIndex_bit _ (not_lt.mp hk)]
  have houtput := congrArg ofInt32 hindex
  cases levelMode with
  | false =>
    rw [if_neg Bool.false_ne_true, ofInt32_zero] at houtput
    rw [if_neg Bool.false_ne_true, RcLogicLevelSelection.mk.injEq]
    exact ⟨hmode, houtput⟩
  | true =>
    rw [if_pos rfl] at houtput
    rw [if_pos rfl, RcLogicLevelSelection.mk.injEq]
    exact ⟨hmode, houtput⟩

/-- The level after an edit: the fields that are named, none without a level mode, and none where
the new function has no levels. -/
def RcLogicLevelSelection.patched (old : RcLogicLevelSelection) (levelMode : Option Bool)
    (outputLevel functionId : Option JsNumber) : RcLogicLevelSelection :=
  if levelMode.isSome || outputLevel.isSome then
    if levelMode.getD old.levelMode then ⟨true, (outputLevel.map shownLevel).getD old.outputLevel⟩
    else ⟨false, 0⟩
  else if clearsLevel functionId then ⟨false, 0⟩
  else old

theorem decodeLevel_levelled {current opt : JsNumber}
    (hsame : decodeLevel opt = decodeLevel current) (levelMode : Option Bool)
    (outputLevel functionId : Option JsNumber) :
    decodeLevel (levelled current opt levelMode outputLevel (clearsLevel functionId)) =
      (decodeLevel current).patched levelMode outputLevel functionId := by
  have hshown : shownLevel (outputLevel.getD (decodeLevel current).outputLevel) =
      (outputLevel.map shownLevel).getD (decodeLevel current).outputLevel := by
    cases outputLevel with
    | none =>
      rw [Option.getD_none, Option.map_none, Option.getD_none]
      exact shownLevel_decodeLevel current
    | some x => rw [Option.getD_some, Option.map_some, Option.getD_some]
  unfold levelled RcLogicLevelSelection.patched
  dsimp only
  split_ifs with htouched hmode hclears
  · rw [decodeLevel_encodeLevel, if_pos hmode, hshown]
  · rw [decodeLevel_encodeLevel, if_neg hmode]
  · rw [decodeLevel_encodeLevel, if_neg Bool.false_ne_true]
  · exact hsame

/-! ## Staged numbers -/

/-- The number that is shown once `x` is staged. -/
def shown (fallback x : JsNumber) : JsNumber := if x.isFinite then x.mapKey else fallback

theorem isFinite_mapKey (x : JsNumber) : x.mapKey.isFinite = x.isFinite := by
  cases x <;> rfl

theorem shown_ofInt32 (fallback : JsNumber) (b : BitVec 32) :
    shown fallback (ofInt32 b) = ofInt32 b := by
  rw [shown, if_pos (isFinite_ofInt32 b), mapKey_ofInt32]

theorem toNumber_numberToString {x : JsNumber} (h : x.IsDouble) :
    toNumber (numberToString x) = x.mapKey := by
  cases x with
  | nan => decide +kernel
  | infinite negative => cases negative <;> decide +kernel
  | finite negative q =>
    obtain ⟨hne, hunits⟩ := units_numberToString negative q
    rw [toNumber_word ⟨hne, fun c hc => isWordUnit_numeral (hunits c hc)⟩]
    exact readLiteral_text h

theorem numberToString_ne_nil (x : JsNumber) : numberToString x ≠ [] := by
  cases x with
  | nan => decide
  | infinite negative => cases negative <;> decide
  | finite negative q => exact (units_numberToString negative q).1

theorem isDouble_roundHalfUp (x : JsNumber) : x.roundHalfUp.IsDouble := by
  cases x with
  | nan => trivial
  | infinite negative => trivial
  | finite negative q => exact isDouble_nearestDouble _ _

/-! ## Merged drafts -/

theorem get_foldl_set {l : Entries Text Text} (hl : l.keys.Nodup) (drafts : ParameterDraftValues)
    (id : Text) : (l.foldl (fun merged entry => merged.set entry.1 entry.2) drafts).get id =
      (l.get id).or (drafts.get id) := by
  induction l generalizing drafts with
  | nil => rfl
  | cons entry l ih =>
    rw [Entries.keys, List.map_cons, List.nodup_cons] at hl
    rw [List.foldl_cons, ih hl.2, JsMap.get_set, Entries.get_cons]
    by_cases hid : entry.1 = id
    · have hrest : Entries.get l id = none := Entries.get_eq_none_iff.mpr (hid ▸ hl.1)
      rw [hrest, if_pos hid.symm, if_pos hid]
      rfl
    · rw [if_neg (Ne.symm hid), if_neg hid]

theorem get_mergeDrafts (drafts next : ParameterDraftValues) (id : Text) :
    (mergeDrafts drafts next).get id = (next.get id).or (drafts.get id) :=
  get_foldl_set next.nodup drafts id

section Merged
variable {parameters : ParameterValues} {drafts next : ParameterDraftValues} {id : Text}

theorem effective_congr {drafts' : ParameterDraftValues} (h : drafts'.get id = drafts.get id)
    (fallback : JsNumber) :
    effective parameters drafts' id fallback = effective parameters drafts id fallback := by
  rw [effective, effective, h]

theorem effective_staged {x : JsNumber} (hx : x.IsDouble)
    (h : drafts.get id = some (numberToString x)) (fallback : JsNumber) :
    effective parameters drafts id fallback = shown fallback x := by
  rw [effective, h]
  dsimp only
  rw [if_neg (numberToString_ne_nil x), toNumber_numberToString hx, isFinite_mapKey, shown]

variable (parameters drafts) in
theorem effective_merged {value : Option JsNumber} (hvalue : ∀ x ∈ value, x.IsDouble)
    (h : next.get id = value.map numberToString) (fallback : JsNumber) :
    effective parameters (mergeDrafts drafts next) id fallback =
      (value.map (shown fallback)).getD (effective parameters drafts id fallback) := by
  have hget := get_mergeDrafts drafts next id
  cases value with
  | none =>
    rw [h, Option.map_none, Option.none_or] at hget
    exact effective_congr hget fallback
  | some x =>
    rw [h, Option.map_some, Option.some_or] at hget
    exact effective_staged (hvalue x rfl) hget fallback

theorem has_merged : (mergeDrafts drafts next).has id = (next.has id || drafts.has id) := by
  rw [JsMap.has, get_mergeDrafts, Option.isSome_or, JsMap.has, JsMap.has]

end Merged

/-! ## Parameters of a term -/

inductive TermParam
  | func
  | opt
  | src
  | min
  | max
  deriving DecidableEq

def RcLogicTermParamIds.id (ids : RcLogicTermParamIds) : TermParam → Text
  | .func => ids.func
  | .opt => ids.opt
  | .src => ids.src
  | .min => ids.min
  | .max => ids.max

def TermParam.suffix : TermParam → Text
  | func => units "FUNC"
  | opt => units "OPT"
  | src => units "SRC"
  | min => units "MIN"
  | max => units "MAX"

theorem id_eq (term : ℕ) (param : TermParam) : (rcLogicTermParamIds term).id param =
    units "RCL" ++ (natDigits term ++ (units "_" ++ param.suffix)) := by
  cases param <;> simp [rcLogicTermParamIds, RcLogicTermParamIds.id, TermParam.suffix]

theorem id_inj {term other : ℕ} {param param' : TermParam}
    (h : (rcLogicTermParamIds term).id param = (rcLogicTermParamIds other).id param') :
    term = other ∧ param = param' := by
  rw [id_eq, id_eq, List.append_cancel_left_eq] at h
  have hhead : ∀ rest : Text, ∀ c ∈ (units "_" ++ rest).head?, isDigit c = false := by
    intro rest c hc
    cases hc
    decide
  obtain ⟨htake, hdrop⟩ := takeWhile_digits (digits_natDigits term) (hhead param.suffix)
  obtain ⟨htake', hdrop'⟩ := takeWhile_digits (digits_natDigits other) (hhead param'.suffix)
  rw [h, htake'] at htake
  rw [h, hdrop', List.append_cancel_left_eq] at hdrop
  refine ⟨?_, ?_⟩
  · rw [← readDigits_natDigits term, ← htake, readDigits_natDigits]
  · revert hdrop
    cases param <;> cases param' <;> decide

theorem id_ne_enable (term : ℕ) (param : TermParam) :
    units "RCL_ENABLE" ≠ (rcLogicTermParamIds term).id param := by
  have henable : units "RCL_ENABLE" = units "RCL" ++ units "_ENABLE" := by decide
  rw [id_eq, henable, Ne, List.append_cancel_left_eq]
  intro h
  obtain ⟨c, digits, hdigits⟩ := List.exists_cons_of_ne_nil (natDigits_ne_nil term)
  have hc : isDigit c = true := digits_natDigits term c (hdigits ▸ List.mem_cons_self ..)
  rw [hdigits, List.cons_append] at h
  have hunit : isDigit c = false := by
    rw [← (List.cons.inj h).1]
    decide
  exact Bool.false_ne_true (hunit.symm.trans hc)

theorem rcLogicAssignmentId_inj {term other : ℕ}
    (h : rcLogicAssignmentId term = rcLogicAssignmentId other) : term = other := by
  rw [rcLogicAssignmentId, rcLogicAssignmentId, List.append_cancel_left_eq] at h
  rw [← readDigits_natDigits term, h, readDigits_natDigits]

/-! ## Drafts of one term -/

structure Stages (next : ParameterDraftValues) (term : ℕ)
    (values : TermParam → Option JsNumber) : Prop where
  own : ∀ param, next.get ((rcLogicTermParamIds term).id param) =
    (values param).map numberToString
  rest : ∀ id, (∀ param, id ≠ (rcLogicTermParamIds term).id param) → next.get id = none

theorem Stages.empty (term : ℕ) : Stages JsMap.empty term fun _ => none where
  own _ := rfl
  rest _ _ := rfl

theorem get_stage (next : ParameterDraftValues) (id other : Text) (value : Option JsNumber) :
    (stage next id value).get other =
      if other = id then (value.map numberToString).or (next.get other) else next.get other := by
  cases value with
  | none => simp [stage]
  | some x => simp [stage]

theorem Stages.stage {next : ParameterDraftValues} {term : ℕ}
    {values : TermParam → Option JsNumber} (h : Stages next term values) (param : TermParam)
    (value : Option JsNumber) :
    Stages (stage next ((rcLogicTermParamIds term).id param) value) term
      (Function.update values param (value.or (values param))) where
  own other := by
    rw [get_stage, h.own]
    by_cases hparam : other = param
    · subst hparam
      rw [if_pos rfl, Function.update_self]
      cases value <;> rfl
    · rw [if_neg fun hid => hparam (id_inj hid).2, Function.update_of_ne hparam]
  rest id hid := by
    rw [get_stage, if_neg (hid param)]
    exact h.rest id hid

/-! ## Slots -/

def shownSlot (term : ℕ) (func opt src low high : JsNumber) : Slot :=
  if opt.toInt32 &&& RC_LOGIC_OPT_SOURCE_TYPE_MASK = sourceRange then
    .range
      { id := rcLogicAssignmentId term
        channel := src
        functionId := func
        lowPwm := low
        highPwm := high
        inverted := opt.toInt32.getLsbD 3
        levelMode := (decodeLevel opt).levelMode
        outputLevel := (decodeLevel opt).outputLevel }
  else
    .logic
      { id := rcLogicAssignmentId term
        sourceType :=
          if opt.toInt32 &&& RC_LOGIC_OPT_SOURCE_TYPE_MASK = sourceLink then .link else .condition
        functionId := func
        sourceValue := src
        inverted := opt.toInt32.getLsbD 3
        levelMode := (decodeLevel opt).levelMode
        outputLevel := (decodeLevel opt).outputLevel }

section Slots
variable {parameters : ParameterValues} {drafts next : ParameterDraftValues} {term : ℕ}
  {values : TermParam → Option JsNumber}

theorem Stages.other (h : Stages next term values) {other : ℕ} (hne : other ≠ term)
    (param : TermParam) (fallback : JsNumber) :
    effective parameters (mergeDrafts drafts next) ((rcLogicTermParamIds other).id param) fallback =
      effective parameters drafts ((rcLogicTermParamIds other).id param) fallback := by
  have hnone := h.rest ((rcLogicTermParamIds other).id param) fun _ hid => hne (id_inj hid).1
  apply effective_congr
  rw [get_mergeDrafts, hnone, Option.none_or]

theorem Stages.has_other (h : Stages next term values) {other : ℕ} (hne : other ≠ term)
    (param : TermParam) :
    (mergeDrafts drafts next).has ((rcLogicTermParamIds other).id param) =
      drafts.has ((rcLogicTermParamIds other).id param) := by
  have hnone := h.rest ((rcLogicTermParamIds other).id param) fun _ hid => hne (id_inj hid).1
  rw [has_merged, JsMap.has, hnone, Option.isSome_none, Bool.false_or]

theorem readTerm_eq (parameters : ParameterValues) (drafts : ParameterDraftValues) (term : ℕ) :
    readTerm parameters drafts term =
      if touched parameters drafts term then
        shownSlot term (effective parameters drafts (rcLogicTermParamIds term).func 0)
          (effective parameters drafts (rcLogicTermParamIds term).opt 0)
          (effective parameters drafts (rcLogicTermParamIds term).src 0)
          (effective parameters drafts (rcLogicTermParamIds term).min ADD_DEFAULT_LOW)
          (effective parameters drafts (rcLogicTermParamIds term).max ADD_DEFAULT_HIGH)
      else .free := by
  rw [shownSlot, ← inverted_eq]
  rfl

theorem readTerm_congr {drafts' : ParameterDraftValues}
    (heffective : ∀ param fallback,
      effective parameters drafts' ((rcLogicTermParamIds term).id param) fallback =
        effective parameters drafts ((rcLogicTermParamIds term).id param) fallback)
    (hhas : ∀ param, drafts'.has ((rcLogicTermParamIds term).id param) =
      drafts.has ((rcLogicTermParamIds term).id param)) :
    readTerm parameters drafts' term = readTerm parameters drafts term := by
  have hfunc := heffective .func 0
  have hopt := heffective .opt 0
  have hsrc := heffective .src 0
  have hmin := heffective .min ADD_DEFAULT_LOW
  have hmax := heffective .max ADD_DEFAULT_HIGH
  have dfunc := hhas .func
  have dopt := hhas .opt
  have dsrc := hhas .src
  have dmin := hhas .min
  have dmax := hhas .max
  simp only [RcLogicTermParamIds.id] at hfunc hopt hsrc hmin hmax dfunc dopt dsrc dmin dmax
  rw [readTerm_eq, readTerm_eq, touched, touched, hfunc, hopt, hsrc, hmin, hmax,
    dfunc, dopt, dsrc, dmin, dmax]

theorem Stages.readTerm_other (h : Stages next term values) {other : ℕ} (hne : other ≠ term) :
    readTerm parameters (mergeDrafts drafts next) other = readTerm parameters drafts other :=
  readTerm_congr (h.other hne) (h.has_other hne)

variable (parameters drafts) in
theorem Stages.effective_own (h : Stages next term values)
    (hvalues : ∀ param, ∀ x ∈ values param, x.IsDouble) (param : TermParam) (fallback : JsNumber) :
    effective parameters (mergeDrafts drafts next) ((rcLogicTermParamIds term).id param) fallback =
      ((values param).map (shown fallback)).getD
        (effective parameters drafts ((rcLogicTermParamIds term).id param) fallback) :=
  effective_merged _ _ (hvalues param) (h.own param) fallback

theorem Stages.enabled (h : Stages next term values) (fallback : JsNumber) :
    effective parameters (mergeDrafts drafts next) (units "RCL_ENABLE") fallback =
      effective parameters drafts (units "RCL_ENABLE") fallback := by
  have hnone := h.rest (units "RCL_ENABLE") (id_ne_enable term)
  apply effective_congr
  rw [get_mergeDrafts, hnone, Option.none_or]

theorem Stages.touched (h : Stages next term values)
    (hused : touched parameters drafts term = true) :
    RcLogic.touched parameters (mergeDrafts drafts next) term = true := by
  have hfunc := h.own .func
  simp only [RcLogicTermParamIds.id] at hfunc
  simp only [RcLogic.touched, has_merged, Bool.or_eq_true] at hused ⊢
  cases hvalue : values .func with
  | none =>
    rw [hvalue, Option.map_none] at hfunc
    have hget : (mergeDrafts drafts next).get (rcLogicTermParamIds term).func =
        drafts.get (rcLogicTermParamIds term).func := by
      rw [get_mergeDrafts, hfunc, Option.none_or]
    rw [effective_congr hget]
    tauto
  | some x =>
    have hhas : next.has (rcLogicTermParamIds term).func = true := by
      rw [JsMap.has, hfunc, hvalue]
      rfl
    tauto

end Slots

/-! ## Options after an edit -/

section Options
variable (current : JsNumber) (sourceType : Option SourceKind) (inverted levelMode : Option Bool)
  (outputLevel functionId : Option JsNumber)

def editedOpt : JsNumber :=
  levelled current (negated (retyped current sourceType) inverted) levelMode outputLevel
    (clearsLevel functionId)

def editsOpt : Bool :=
  sourceType.isSome || inverted.isSome || (levelMode.isSome || outputLevel.isSome) ||
    clearsLevel functionId

def stagedOpt : Option JsNumber :=
  if editsOpt sourceType inverted levelMode outputLevel functionId then
    let opt := editedOpt current sourceType inverted levelMode outputLevel functionId
    if opt.equal current then none else some opt
  else none

theorem editedOpt_eq_ofInt32
    (h : editsOpt sourceType inverted levelMode outputLevel functionId = true) :
    ∃ b, editedOpt current sourceType inverted levelMode outputLevel functionId = ofInt32 b := by
  have hencode : ∀ opt mode level, ∃ b, encodeLevel opt mode level = ofInt32 b := by
    intro opt mode level
    unfold encodeLevel
    dsimp only
    split_ifs
    · exact ⟨_, rfl⟩
    · exact ⟨_, rfl⟩
  unfold editedOpt levelled
  dsimp only
  split_ifs with htouched hclears
  · exact hencode _ _ _
  · exact hencode _ _ _
  · cases inverted with
    | some value =>
      cases value
      · exact ⟨_, rfl⟩
      · exact ⟨_, rfl⟩
    | none =>
      cases sourceType with
      | some kind => exact ⟨_, rfl⟩
      | none => simp [editsOpt, htouched, hclears] at h

theorem editedOpt_of_not_editsOpt
    (h : editsOpt sourceType inverted levelMode outputLevel functionId = false) :
    editedOpt current sourceType inverted levelMode outputLevel functionId = current := by
  rw [editsOpt, Bool.or_eq_false_iff, Bool.or_eq_false_iff, Bool.or_eq_false_iff] at h
  obtain ⟨⟨⟨hsource, hinverted⟩, hlevel⟩, hclears⟩ := h
  rw [Option.isSome_eq_false_iff, Option.isNone_iff_eq_none] at hsource hinverted
  subst hsource hinverted
  simp [editedOpt, levelled, hlevel, hclears, negated, retyped]

theorem isDouble_stagedOpt :
    ∀ x ∈ stagedOpt current sourceType inverted levelMode outputLevel functionId, x.IsDouble := by
  intro x hx
  unfold stagedOpt at hx
  dsimp only at hx
  split_ifs at hx with hedits hequal
  · cases hx
  · obtain ⟨b, hb⟩ := editedOpt_eq_ofInt32 current sourceType inverted levelMode outputLevel
      functionId hedits
    cases hx
    rw [hb]
    exact isDouble_ofInt32 b
  · cases hx

theorem toInt32_stagedOpt :
    (((stagedOpt current sourceType inverted levelMode outputLevel functionId).map
      (shown 0)).getD current).toInt32 =
        (editedOpt current sourceType inverted levelMode outputLevel functionId).toInt32 := by
  unfold stagedOpt
  dsimp only
  split_ifs with hedits hequal
  · exact (toInt32_of_equal hequal).symm
  · obtain ⟨b, hb⟩ := editedOpt_eq_ofInt32 current sourceType inverted levelMode outputLevel
      functionId hedits
    rw [hb, Option.map_some, Option.getD_some, shown_ofInt32]
  · rw [editedOpt_of_not_editsOpt _ _ _ _ _ _ (Bool.eq_false_iff.mpr hedits)]
    rfl

def NamesBit (k : ℕ) : Prop :=
  k < 2 ∧ sourceType.isSome = true ∨ k = 3 ∧ inverted.isSome = true ∨
    (4 ≤ k ∧ k < 8) ∧ (levelMode.isSome || outputLevel.isSome || clearsLevel functionId) = true

theorem editedOpt_bit {k : ℕ} (hk : k < 32)
    (h : ¬NamesBit sourceType inverted levelMode outputLevel functionId k) :
    (editedOpt current sourceType inverted levelMode outputLevel functionId).toInt32.getLsbD k =
      current.toInt32.getLsbD k := by
  rw [NamesBit, not_or, not_or, not_and_or, not_and_or, not_and_or] at h
  obtain ⟨hsource, hinverted, hlevel⟩ := h
  rw [Bool.not_eq_true] at hlevel
  rw [editedOpt, levelled_bit _ _ _ _ _ hk hlevel, negated_bit _ _ hk, retyped_bit _ _ hk,
    retyped_bit _ _ (by omega : 3 < 32)]
  have hthree : ¬3 < 2 := by omega
  rw [if_neg hthree]
  have hkept : (if k < 2 then (sourceType.map fun kind => kind.bits.getLsbD k).getD
      (current.toInt32.getLsbD k) else current.toInt32.getLsbD k) = current.toInt32.getLsbD k := by
    cases sourceType with
    | none => simp
    | some kind =>
      rw [if_neg]
      exact hsource.resolve_right (by simp)
  rw [hkept]
  cases inverted with
  | none =>
    by_cases hthree : k = 3
    · rw [if_pos hthree, hthree]
      rfl
    · rw [if_neg hthree]
  | some value =>
    rw [if_neg]
    exact hinverted.resolve_right (by simp)

theorem editedOpt_inverted :
    (editedOpt current sourceType inverted levelMode outputLevel functionId).toInt32.getLsbD 3 =
      inverted.getD (current.toInt32.getLsbD 3) := by
  have hthree : ¬3 < 2 := by omega
  rw [editedOpt, levelled_bit _ _ _ _ _ (by omega) (Or.inl (by omega)), negated_bit _ _ (by omega),
    if_pos rfl, retyped_bit _ _ (by omega), if_neg hthree]

theorem editedOpt_sourceType :
    (editedOpt current sourceType inverted levelMode outputLevel functionId).toInt32 &&&
      RC_LOGIC_OPT_SOURCE_TYPE_MASK =
        (sourceType.map SourceKind.bits).getD
          (current.toInt32 &&& RC_LOGIC_OPT_SOURCE_TYPE_MASK) := by
  apply BitVec.eq_of_getLsbD_eq
  intro k hk
  rw [BitVec.getLsbD_and, sourceMask_bit]
  by_cases hlow : k < 2
  · have hthree : k ≠ 3 := by omega
    rw [decide_eq_true hlow, Bool.and_true, editedOpt,
      levelled_bit _ _ _ _ _ hk (Or.inl (by omega)), negated_bit _ _ hk, if_neg hthree,
      retyped_bit _ _ hk, if_pos hlow]
    cases sourceType with
    | none => simp [sourceMask_bit, hlow]
    | some kind => rfl
  · rw [decide_eq_false hlow, Bool.and_false]
    cases sourceType with
    | none => simp [sourceMask_bit, hlow]
    | some kind =>
      have hlt : kind.bits.toNat < 2 ^ 2 := by cases kind <;> decide
      exact (Nat.testBit_lt_two_pow
        (lt_of_lt_of_le hlt (Nat.pow_le_pow_right (by decide) (not_lt.mp hlow)))).symm

theorem decodeLevel_editedOpt :
    decodeLevel (editedOpt current sourceType inverted levelMode outputLevel functionId) =
      (decodeLevel current).patched levelMode outputLevel functionId := by
  apply decodeLevel_levelled
  apply decodeLevel_congr
  intro k hlow hhigh
  have hthree : k ≠ 3 := by omega
  have htwo : ¬k < 2 := by omega
  rw [negated_bit _ _ (by omega), if_neg hthree, retyped_bit _ _ (by omega), if_neg htwo]

end Options

end ArduConfigurator.ViewModels.RcLogic
