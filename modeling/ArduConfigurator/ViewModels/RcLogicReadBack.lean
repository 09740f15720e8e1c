import ArduConfigurator.ViewModels.RcLogicEdits

/-! # The table after an edit

An edit shows the patch on its own term. A new term takes a slot that nothing uses. -/
namespace ArduConfigurator.ViewModels.RcLogic
set_option autoImplicit false
open Parameters DecimalText JsNumber

/-! ## Patches -/

section Assignment
variable (patch : AssignmentPatch)

/-- The numbers that a patch stages for a term whose options were `current`. -/
def AssignmentPatch.staged (current : JsNumber) : TermParam → Option JsNumber
  | .func => patch.functionId
  | .opt => stagedOpt current none patch.inverted patch.levelMode patch.outputLevel patch.functionId
  | .src => patch.channel
  | .min => patch.lowPwm.map roundHalfUp
  | .max => patch.highPwm.map roundHalfUp

def AssignmentPatch.apply (a : RcMixerAssignment) : RcMixerAssignment :=
  let level := RcLogicLevelSelection.patched ⟨a.levelMode, a.outputLevel⟩ patch.levelMode
    patch.outputLevel patch.functionId
  { id := a.id
    channel := (patch.channel.map (shown 0)).getD a.channel
    functionId := (patch.functionId.map (shown 0)).getD a.functionId
    lowPwm := ((patch.lowPwm.map roundHalfUp).map (shown ADD_DEFAULT_LOW)).getD a.lowPwm
    highPwm := ((patch.highPwm.map roundHalfUp).map (shown ADD_DEFAULT_HIGH)).getD a.highPwm
    inverted := patch.inverted.getD a.inverted
    levelMode := level.levelMode
    outputLevel := level.outputLevel }

structure AssignmentPatch.Doubles : Prop where
  channel : ∀ x ∈ patch.channel, x.IsDouble
  functionId : ∀ x ∈ patch.functionId, x.IsDouble

def AssignmentPatch.NamesBit (k : ℕ) : Prop :=
  RcLogic.NamesBit none patch.inverted patch.levelMode patch.outputLevel patch.functionId k

end Assignment

section LogicTerm
variable (patch : LogicTermPatch)

def LogicTermPatch.source : Option JsNumber :=
  if patch.sourceValue.isSome then patch.sourceValue else patch.sourceType.map fun _ => 0

def LogicTermPatch.staged (current : JsNumber) : TermParam → Option JsNumber
  | .func => patch.functionId
  | .opt => stagedOpt current patch.sourceType patch.inverted patch.levelMode patch.outputLevel
      patch.functionId
  | .src => patch.source
  | .min => none
  | .max => none

def LogicTermPatch.apply (t : RcLogicLogicTerm) : RcLogicLogicTerm :=
  let level := RcLogicLevelSelection.patched ⟨t.levelMode, t.outputLevel⟩ patch.levelMode
    patch.outputLevel patch.functionId
  { id := t.id
    sourceType := patch.sourceType.getD t.sourceType
    functionId := (patch.functionId.map (shown 0)).getD t.functionId
    sourceValue := (patch.source.map (shown 0)).getD t.sourceValue
    inverted := patch.inverted.getD t.inverted
    levelMode := level.levelMode
    outputLevel := level.outputLevel }

structure LogicTermPatch.Doubles : Prop where
  functionId : ∀ x ∈ patch.functionId, x.IsDouble
  sourceValue : ∀ x ∈ patch.sourceValue, x.IsDouble

def LogicTermPatch.NamesBit (k : ℕ) : Prop :=
  RcLogic.NamesBit patch.sourceType patch.inverted patch.levelMode patch.outputLevel
    patch.functionId k

end LogicTerm

/-! ## What the edits stage -/

section Edits
variable {parameters : ParameterValues} {drafts : ParameterDraftValues} {term : ℕ}

theorem stage_stagedOpt (next : ParameterDraftValues) (id : Text) (current : JsNumber)
    (sourceType : Option SourceKind) (inverted levelMode : Option Bool)
    (outputLevel functionId : Option JsNumber) :
    stage next id (stagedOpt current sourceType inverted levelMode outputLevel functionId) =
      if editsOpt sourceType inverted levelMode outputLevel functionId then
        stageOpt next id current
          (editedOpt current sourceType inverted levelMode outputLevel functionId)
      else next := by
  unfold stagedOpt stageOpt
  dsimp only
  split_ifs
  · rfl
  · rfl
  · rfl

theorem Stages.congr {next : ParameterDraftValues} {values values' : TermParam → Option JsNumber}
    (h : Stages next term values) (hvalues : ∀ param, values param = values' param) :
    Stages next term values' := by
  have heq : values = values' := funext hvalues
  exact heq ▸ h

variable (parameters drafts term) in
theorem stages_rcLogicUpdateDrafts (patch : AssignmentPatch) :
    Stages (rcLogicUpdateDrafts parameters drafts term patch) term
      (patch.staged (effective parameters drafts (rcLogicTermParamIds term).opt 0)) := by
  have hnext := (((((Stages.empty term).stage .func patch.functionId).stage .src
    patch.channel).stage .min (patch.lowPwm.map roundHalfUp)).stage .max
      (patch.highPwm.map roundHalfUp)).stage .opt (stagedOpt
        (effective parameters drafts (rcLogicTermParamIds term).opt 0) none patch.inverted
          patch.levelMode patch.outputLevel patch.functionId)
  rw [stage_stagedOpt] at hnext
  have hedits : editsOpt none patch.inverted patch.levelMode patch.outputLevel patch.functionId =
      (patch.inverted.isSome || (patch.levelMode.isSome || patch.outputLevel.isSome) ||
        clearsLevel patch.functionId) := rfl
  rw [hedits] at hnext
  apply Stages.congr hnext
  intro param
  cases param <;> simp [Function.update, AssignmentPatch.staged]

variable (parameters drafts term) in
theorem stages_rcLogicUpdateLogicTermDrafts (patch : LogicTermPatch) :
    Stages (rcLogicUpdateLogicTermDrafts parameters drafts term patch) term
      (patch.staged (effective parameters drafts (rcLogicTermParamIds term).opt
        (ofInt32 sourceCondition))) := by
  have hnext := (((Stages.empty term).stage .func patch.functionId).stage .src
    patch.source).stage .opt (stagedOpt (effective parameters drafts
      (rcLogicTermParamIds term).opt (ofInt32 sourceCondition)) patch.sourceType patch.inverted
        patch.levelMode patch.outputLevel patch.functionId)
  rw [stage_stagedOpt] at hnext
  have hedits : editsOpt patch.sourceType patch.inverted patch.levelMode patch.outputLevel
      patch.functionId = (patch.sourceType.isSome || patch.inverted.isSome ||
        patch.levelMode.isSome || patch.outputLevel.isSome || clearsLevel patch.functionId) := by
    simp only [editsOpt, Bool.or_assoc]
  rw [hedits] at hnext
  apply Stages.congr hnext
  intro param
  cases param <;> simp [Function.update, LogicTermPatch.staged]

/-! ## The edited term -/

def optionBits (parameters : ParameterValues) (drafts : ParameterDraftValues) (term : ℕ) :
    BitVec 32 :=
  (effective parameters drafts (rcLogicTermParamIds term).opt 0).toInt32

variable {a : RcMixerAssignment}

theorem readTerm_range :
    readTerm parameters drafts term = .range a ↔ touched parameters drafts term = true ∧
      optionBits parameters drafts term &&& RC_LOGIC_OPT_SOURCE_TYPE_MASK = sourceRange ∧
      a =
        { id := rcLogicAssignmentId term
          channel := effective parameters drafts (rcLogicTermParamIds term).src 0
          functionId := effective parameters drafts (rcLogicTermParamIds term).func 0
          lowPwm := effective parameters drafts (rcLogicTermParamIds term).min ADD_DEFAULT_LOW
          highPwm := effective parameters drafts (rcLogicTermParamIds term).max ADD_DEFAULT_HIGH
          inverted := (optionBits parameters drafts term).getLsbD 3
          levelMode := (decodeLevel (effective parameters drafts
            (rcLogicTermParamIds term).opt 0)).levelMode
          outputLevel := (decodeLevel (effective parameters drafts
            (rcLogicTermParamIds term).opt 0)).outputLevel } := by
  rw [readTerm_eq, optionBits, shownSlot]
  split_ifs with hused hsource
  · simp [hused, hsource, eq_comm]
  · simp [hsource]
  · simp [hused]

variable {t : RcLogicLogicTerm}

theorem readTerm_logic :
    readTerm parameters drafts term = .logic t ↔ touched parameters drafts term = true ∧
      optionBits parameters drafts term &&& RC_LOGIC_OPT_SOURCE_TYPE_MASK ≠ sourceRange ∧
      t =
        { id := rcLogicAssignmentId term
          sourceType := if optionBits parameters drafts term &&& RC_LOGIC_OPT_SOURCE_TYPE_MASK =
            sourceLink then .link else .condition
          functionId := effective parameters drafts (rcLogicTermParamIds term).func 0
          sourceValue := effective parameters drafts (rcLogicTermParamIds term).src 0
          inverted := (optionBits parameters drafts term).getLsbD 3
          levelMode := (decodeLevel (effective parameters drafts
            (rcLogicTermParamIds term).opt 0)).levelMode
          outputLevel := (decodeLevel (effective parameters drafts
            (rcLogicTermParamIds term).opt 0)).outputLevel } := by
  rw [readTerm_eq, optionBits, shownSlot]
  by_cases hused : touched parameters drafts term = true
  · rw [if_pos hused]
    by_cases hsource : (effective parameters drafts (rcLogicTermParamIds term).opt 0).toInt32 &&&
        RC_LOGIC_OPT_SOURCE_TYPE_MASK = sourceRange
    · rw [if_pos hsource]
      simp [hsource]
    · rw [if_neg hsource, Slot.logic.injEq]
      refine ⟨fun h => ⟨hused, hsource, h.symm⟩, fun h => h.2.2.symm⟩
  · rw [if_neg hused]
    simp [hused]

theorem effective_of_ne {id : Text} {fallback : JsNumber}
    (h : effective parameters drafts id fallback ≠ fallback) (other : JsNumber) :
    effective parameters drafts id other = effective parameters drafts id fallback := by
  have hlive : ((liveById parameters).get id).getD fallback ≠ fallback →
      ((liveById parameters).get id).getD other = ((liveById parameters).get id).getD fallback := by
    intro hne
    cases hget : (liveById parameters).get id with
    | none => exact absurd (by rw [hget]; rfl) hne
    | some x => rfl
  unfold effective at h ⊢
  dsimp only at h ⊢
  split at h
  · exact hlive h
  · split_ifs at h ⊢ with hempty hfinite
    · exact hlive h
    · rfl
    · exact absurd rfl h

theorem effective_ne_zero
    (h : optionBits parameters drafts term &&& RC_LOGIC_OPT_SOURCE_TYPE_MASK ≠ sourceRange) :
    effective parameters drafts (rcLogicTermParamIds term).opt 0 ≠ 0 := by
  intro hzero
  apply h
  rw [optionBits, hzero, ← ofInt32_zero, toInt32_ofInt32]
  rfl

theorem isDouble_zero : (0 : JsNumber).IsDouble := ofInt32_zero ▸ isDouble_ofInt32 0#32

section Staged
variable {next : ParameterDraftValues} {sourceType : Option SourceKind}
  {inverted levelMode : Option Bool} {outputLevel functionId : Option JsNumber}
  {values : TermParam → Option JsNumber}

variable (parameters drafts) in
theorem optionBits_merged (h : Stages next term values)
    (hopt : values .opt = stagedOpt (effective parameters drafts (rcLogicTermParamIds term).opt 0)
      sourceType inverted levelMode outputLevel functionId) :
    optionBits parameters (mergeDrafts drafts next) term =
      (editedOpt (effective parameters drafts (rcLogicTermParamIds term).opt 0) sourceType inverted
        levelMode outputLevel functionId).toInt32 := by
  have hget := h.own .opt
  rw [hopt] at hget
  have hread := effective_merged parameters drafts
    (isDouble_stagedOpt _ _ _ _ _ _) hget 0
  simp only [RcLogicTermParamIds.id] at hread
  rw [optionBits, hread]
  exact toInt32_stagedOpt _ _ _ _ _ _

variable (parameters drafts) in
theorem decodeLevel_merged (h : Stages next term values)
    (hopt : values .opt = stagedOpt (effective parameters drafts (rcLogicTermParamIds term).opt 0)
      sourceType inverted levelMode outputLevel functionId) :
    decodeLevel (effective parameters (mergeDrafts drafts next) (rcLogicTermParamIds term).opt 0) =
      (decodeLevel (effective parameters drafts (rcLogicTermParamIds term).opt 0)).patched levelMode
        outputLevel functionId := by
  rw [← decodeLevel_editedOpt _ sourceType inverted]
  apply decodeLevel_congr
  intro k _ _
  exact congrArg (fun b : BitVec 32 => b.getLsbD k) (optionBits_merged _ _ h hopt)

theorem optionBits_kept (h : Stages next term values)
    (hopt : values .opt = stagedOpt (effective parameters drafts (rcLogicTermParamIds term).opt 0)
      sourceType inverted levelMode outputLevel functionId) {k : ℕ} (hk : k < 32)
    (hnames : ¬NamesBit sourceType inverted levelMode outputLevel functionId k) :
    (optionBits parameters (mergeDrafts drafts next) term).getLsbD k =
      (optionBits parameters drafts term).getLsbD k := by
  rw [optionBits_merged _ _ h hopt, editedOpt_bit _ _ _ _ _ _ hk hnames]
  rfl

end Staged

theorem readTerm_rcLogicUpdateDrafts {patch : AssignmentPatch} (hpatch : patch.Doubles)
    (ha : readTerm parameters drafts term = .range a) :
    readTerm parameters (mergeDrafts drafts (rcLogicUpdateDrafts parameters drafts term patch))
      term = .range (patch.apply a) := by
  obtain ⟨hused, hsource, rfl⟩ := readTerm_range.mp ha
  have hstages := stages_rcLogicUpdateDrafts parameters drafts term patch
  have hdoubles : ∀ values : Option JsNumber, ∀ x ∈ values.map roundHalfUp, x.IsDouble := by
    intro values x hx
    obtain ⟨y, -, rfl⟩ := Option.map_eq_some_iff.mp hx
    exact isDouble_roundHalfUp y
  have hfunc := effective_merged parameters drafts hpatch.functionId
    (hstages.own .func) 0
  have hsrc := effective_merged parameters drafts hpatch.channel
    (hstages.own .src) 0
  have hmin := effective_merged parameters drafts
    (hdoubles patch.lowPwm) (hstages.own .min) ADD_DEFAULT_LOW
  have hmax := effective_merged parameters drafts
    (hdoubles patch.highPwm) (hstages.own .max) ADD_DEFAULT_HIGH
  simp only [RcLogicTermParamIds.id] at hfunc hsrc hmin hmax
  have hbits := optionBits_merged parameters drafts hstages rfl
  have hlevel := decodeLevel_merged parameters drafts hstages rfl
  rw [readTerm_range]
  refine ⟨hstages.touched hused, ?_, ?_⟩
  · rw [hbits, editedOpt_sourceType]
    exact hsource
  · rw [hbits, editedOpt_inverted, hlevel, hfunc, hsrc, hmin, hmax]
    rfl

theorem readTerm_rcLogicUpdateLogicTermDrafts {patch : LogicTermPatch} (hpatch : patch.Doubles)
    (ht : readTerm parameters drafts term = .logic t) :
    readTerm parameters (mergeDrafts drafts
      (rcLogicUpdateLogicTermDrafts parameters drafts term patch)) term =
        .logic (patch.apply t) := by
  obtain ⟨hused, hsource, rfl⟩ := readTerm_logic.mp ht
  -- a term of the logic has options, so what is read without them is of no account
  have hcurrent := effective_of_ne (effective_ne_zero hsource)
    (ofInt32 sourceCondition)
  have hstages := stages_rcLogicUpdateLogicTermDrafts parameters drafts term patch
  rw [hcurrent] at hstages
  have hsourceDouble : ∀ x ∈ patch.source, x.IsDouble := by
    intro x hx
    unfold LogicTermPatch.source at hx
    split_ifs at hx with hnamed
    · exact hpatch.sourceValue x hx
    · obtain ⟨_, -, rfl⟩ := Option.map_eq_some_iff.mp hx
      exact isDouble_zero
  have hfunc := effective_merged parameters drafts hpatch.functionId (hstages.own .func) 0
  have hsrc := effective_merged parameters drafts hsourceDouble (hstages.own .src) 0
  simp only [RcLogicTermParamIds.id] at hfunc hsrc
  have hbits := optionBits_merged parameters drafts hstages rfl
  have hlevel := decodeLevel_merged parameters drafts hstages rfl
  rw [readTerm_logic]
  refine ⟨hstages.touched hused, ?_, ?_⟩
  · rw [hbits, editedOpt_sourceType]
    cases patch.sourceType with
    | none => exact hsource
    | some kind =>
      rw [Option.map_some, Option.getD_some]
      cases kind <;> decide
  · have hkind : (if optionBits parameters (mergeDrafts drafts
        (rcLogicUpdateLogicTermDrafts parameters drafts term patch)) term &&&
          RC_LOGIC_OPT_SOURCE_TYPE_MASK = sourceLink then SourceKind.link else .condition) =
        patch.sourceType.getD (if optionBits parameters drafts term &&&
          RC_LOGIC_OPT_SOURCE_TYPE_MASK = sourceLink then .link else .condition) := by
      rw [hbits, editedOpt_sourceType]
      cases patch.sourceType with
      | none => rfl
      | some kind => cases kind <;> rfl
    rw [hkind, hbits, editedOpt_inverted, hlevel, hfunc, hsrc]
    rfl

end Edits

/-! ## The model -/

def Slot.mapRange (f : RcMixerAssignment → RcMixerAssignment) : Slot → Slot
  | range assignment => range (f assignment)
  | slot => slot

def Slot.mapLogic (g : RcLogicLogicTerm → RcLogicLogicTerm) : Slot → Slot
  | logic term => logic (g term)
  | slot => slot

def RcLogicModel.editAssignment (model : RcLogicModel) (id : Text)
    (f : RcMixerAssignment → RcMixerAssignment) : RcLogicModel :=
  { model with assignments := model.assignments.map fun a => if a.id = id then f a else a }

def RcLogicModel.editLogicTerm (model : RcLogicModel) (id : Text)
    (g : RcLogicLogicTerm → RcLogicLogicTerm) : RcLogicModel :=
  { model with logicTerms := model.logicTerms.map fun t => if t.id = id then g t else t }

section Lists
variable {r r' : ℕ → Slot} {α : Type} (pick : Slot → Option α) (l : List ℕ)

theorem filterMap_edit {f : α → α} (h : ∀ term, pick (r' term) = (pick (r term)).map f) :
    (l.map r').filterMap pick = ((l.map r).filterMap pick).map f := by
  rw [List.filterMap_map, List.filterMap_map, List.map_filterMap]
  exact List.filterMap_congr fun term _ => h term

theorem filterMap_same (h : ∀ term, pick (r' term) = pick (r term)) :
    (l.map r').filterMap pick = (l.map r).filterMap pick := by
  rw [List.filterMap_map, List.filterMap_map]
  exact List.filterMap_congr fun term _ => h term

/-- One more slot is taken, by an entry with a new key. -/
theorem filterMap_new (key : α → Text) {id : Text} {term : ℕ} {a : α}
    (hnew : pick (r' term) = some a) (hid : key a = id) (hfree : pick (r term) = none)
    (hother : ∀ other, other ≠ term → r' other = r other)
    (hids : ∀ other b, pick (r other) = some b → key b ≠ id) :
    ((l.map r').filterMap pick).filter (fun b => decide (key b ≠ id)) =
      (l.map r).filterMap pick := by
  induction l with
  | nil => rfl
  | cons other l ih =>
    simp only [List.map_cons, List.filterMap_cons]
    by_cases heq : other = term
    · rw [heq, hnew, hfree]
      simpa [hid] using ih
    · rw [hother other heq]
      cases hslot : pick (r other) with
      | none => exact ih
      | some b =>
        dsimp only
        rw [List.filter_cons_of_pos (by simpa using hids other b hslot), ih]

variable {slot : Slot}

theorem Slot.range?_eq_some {a : RcMixerAssignment} :
    slot.range? = some a ↔ slot = .range a := by
  cases slot <;> simp [Slot.range?]

theorem Slot.logic?_eq_some {t : RcLogicLogicTerm} :
    slot.logic? = some t ↔ slot = .logic t := by
  cases slot <;> simp [Slot.logic?]

variable (r r') in
theorem find_free_congr (h : ∀ term, r' term = .free ↔ r term = .free) :
    (l.find? fun term => decide (r' term = .free)) =
      l.find? fun term => decide (r term = .free) := by
  congr 1
  funext term
  exact decide_eq_decide.mpr (h term)

end Lists

section Model
variable {parameters : ParameterValues} {drafts next : ParameterDraftValues} {term : ℕ}
  {values : TermParam → Option JsNumber} {a : RcMixerAssignment}

theorem id_of_readTerm_range (h : readTerm parameters drafts term = .range a) :
    a.id = rcLogicAssignmentId term := by
  obtain ⟨-, -, rfl⟩ := readTerm_range.mp h
  rfl

variable {t : RcLogicLogicTerm}

theorem id_of_readTerm_logic (h : readTerm parameters drafts term = .logic t) :
    t.id = rcLogicAssignmentId term := by
  obtain ⟨-, -, rfl⟩ := readTerm_logic.mp h
  rfl

theorem mem_assignments :
    a ∈ (readRcLogicModel parameters drafts).assignments ↔
      ∃ other ∈ terms, readTerm parameters drafts other = .range a := by
  simp [readRcLogicModel, Slot.range?_eq_some]

theorem mem_logicTerms :
    t ∈ (readRcLogicModel parameters drafts).logicTerms ↔
      ∃ other ∈ terms, readTerm parameters drafts other = .logic t := by
  simp [readRcLogicModel, Slot.logic?_eq_some]

variable {id : Text}

theorem readRcLogicModel_range (h : Stages next term values)
    {f : RcMixerAssignment → RcMixerAssignment}
    (hslots : ∀ other, readTerm parameters (mergeDrafts drafts next) other = (readTerm parameters drafts other).mapRange fun a => if a.id = id then f a else a) :
    readRcLogicModel parameters (mergeDrafts drafts next) =
      (readRcLogicModel parameters drafts).editAssignment id f := by
  rw [readRcLogicModel, readRcLogicModel, RcLogicModel.editAssignment, RcLogicModel.mk.injEq]
  refine ⟨by rw [h.enabled], filterMap_edit _ _ fun other => ?_, filterMap_same _ _ fun other => ?_,
    find_free_congr _ _ _ fun other => ?_⟩ <;> rw [hslots] <;>
      cases readTerm parameters drafts other <;> simp [Slot.mapRange, Slot.range?, Slot.logic?]

theorem readRcLogicModel_logic (h : Stages next term values)
    {g : RcLogicLogicTerm → RcLogicLogicTerm}
    (hslots : ∀ other, readTerm parameters (mergeDrafts drafts next) other = (readTerm parameters drafts other).mapLogic fun t => if t.id = id then g t else t) :
    readRcLogicModel parameters (mergeDrafts drafts next) =
      (readRcLogicModel parameters drafts).editLogicTerm id g := by
  rw [readRcLogicModel, readRcLogicModel, RcLogicModel.editLogicTerm, RcLogicModel.mk.injEq]
  refine ⟨by rw [h.enabled], filterMap_same _ _ fun other => ?_, filterMap_edit _ _ fun other => ?_,
    find_free_congr _ _ _ fun other => ?_⟩ <;> rw [hslots] <;>
      cases readTerm parameters drafts other <;> simp [Slot.mapLogic, Slot.range?, Slot.logic?]

theorem readRcLogicModel_rcLogicUpdateDrafts {patch : AssignmentPatch} (hpatch : patch.Doubles)
    (ha : readTerm parameters drafts term = .range a) :
    readRcLogicModel parameters
        (mergeDrafts drafts (rcLogicUpdateDrafts parameters drafts term patch)) =
      (readRcLogicModel parameters drafts).editAssignment (rcLogicAssignmentId term)
        patch.apply := by
  have hstages := stages_rcLogicUpdateDrafts parameters drafts term patch
  apply readRcLogicModel_range hstages
  intro other
  by_cases hother : other = term
  · subst hother
    rw [readTerm_rcLogicUpdateDrafts hpatch ha, ha, Slot.mapRange,
      if_pos (id_of_readTerm_range ha)]
  · rw [hstages.readTerm_other hother]
    cases hslot : readTerm parameters drafts other with
    | free => rfl
    | logic t => rfl
    | range b =>
      have hid : b.id ≠ rcLogicAssignmentId term := by
        rw [id_of_readTerm_range hslot]
        exact fun h => hother (rcLogicAssignmentId_inj h)
      rw [Slot.mapRange, if_neg hid]

theorem readRcLogicModel_rcLogicUpdateLogicTermDrafts {patch : LogicTermPatch}
    (hpatch : patch.Doubles) (ht : readTerm parameters drafts term = .logic t) :
    readRcLogicModel parameters
        (mergeDrafts drafts (rcLogicUpdateLogicTermDrafts parameters drafts term patch)) =
      (readRcLogicModel parameters drafts).editLogicTerm (rcLogicAssignmentId term)
        patch.apply := by
  have hstages := stages_rcLogicUpdateLogicTermDrafts parameters drafts term patch
  apply readRcLogicModel_logic hstages
  intro other
  by_cases hother : other = term
  · subst hother
    rw [readTerm_rcLogicUpdateLogicTermDrafts hpatch ht, ht, Slot.mapLogic,
      if_pos (id_of_readTerm_logic ht)]
  · rw [hstages.readTerm_other hother]
    cases hslot : readTerm parameters drafts other with
    | free => rfl
    | range a => rfl
    | logic b =>
      have hid : b.id ≠ rcLogicAssignmentId term := by
        rw [id_of_readTerm_logic hslot]
        exact fun h => hother (rcLogicAssignmentId_inj h)
      rw [Slot.mapLogic, if_neg hid]

end Model

/-! ## New terms -/

section Added
variable {parameters : ParameterValues} {drafts next : ParameterDraftValues} {term : ℕ}
  {values : TermParam → Option JsNumber}

theorem text_zero : numberToString 0 = units "0" := by
  rw [← ofInt32_zero, ofInt32_eq]
  rfl

def addedValues (channel : JsNumber) : TermParam → Option JsNumber
  | .func => some 0
  | .opt => some 0
  | .src => some channel
  | .min => some ADD_DEFAULT_LOW
  | .max => some ADD_DEFAULT_HIGH

def addedLogicValues : TermParam → Option JsNumber
  | .func => some 0
  | .opt => some (ofInt32 sourceCondition)
  | .src => some 0
  | .min => none
  | .max => none

variable {model : RcLogicModel} {channel : JsNumber}

theorem stages_rcLogicAddDrafts (hadd : rcLogicAddDrafts model channel = some next) :
    ∃ term, model.freeTermIndex = some term ∧ Stages next term (addedValues channel) := by
  obtain ⟨term, hfree, rfl⟩ := Option.map_eq_some_iff.mp hadd
  refine ⟨term, hfree, ?_⟩
  have hnext := (((((Stages.empty term).stage .func (some 0)).stage .opt (some 0)).stage .src
    (some channel)).stage .min (some ADD_DEFAULT_LOW)).stage .max (some ADD_DEFAULT_HIGH)
  simp only [stage, text_zero] at hnext
  apply Stages.congr hnext
  intro param
  cases param <;> simp [Function.update, addedValues]

theorem stages_rcLogicAddLogicTermDrafts (hadd : rcLogicAddLogicTermDrafts model = some next) :
    ∃ term, model.freeTermIndex = some term ∧ Stages next term addedLogicValues := by
  obtain ⟨term, hfree, rfl⟩ := Option.map_eq_some_iff.mp hadd
  refine ⟨term, hfree, ?_⟩
  have hnext := (((Stages.empty term).stage .func (some 0)).stage .opt
    (some (ofInt32 sourceCondition))).stage .src (some 0)
  simp only [stage, text_zero] at hnext
  apply Stages.congr hnext
  intro param
  cases param <;> simp [Function.update, addedLogicValues]

theorem shown_natCast {n : ℕ} (h : n < 2 ^ 53) (fallback : JsNumber) :
    shown fallback (ofInt n) = ofInt n := by
  rw [ofInt_natCast h]
  simp [shown, JsNumber.isFinite, mapKey]

theorem Stages.touched_of_func (h : Stages next term values) {x : JsNumber}
    (hfunc : values .func = some x) :
    RcLogic.touched parameters (mergeDrafts drafts next) term = true := by
  have hown := h.own .func
  rw [hfunc] at hown
  simp only [RcLogicTermParamIds.id] at hown
  have hhas : next.has (rcLogicTermParamIds term).func = true := by
    rw [JsMap.has, hown]
    rfl
  simp [RcLogic.touched, has_merged, hhas]

theorem decodeLevel_sourceOnly {b : BitVec 32} (h : ∀ k, 4 ≤ k → k < 8 → b.getLsbD k = false) :
    decodeLevel (ofInt32 b) = ⟨false, 0⟩ := by
  have hclear := decodeLevel_encodeLevel 0 false 0
  rw [if_neg Bool.false_ne_true] at hclear
  rw [← hclear]
  apply decodeLevel_congr
  intro k hlow hhigh
  have hfield : 4 ≤ k ∧ k < 8 := ⟨hlow, hhigh⟩
  rw [toInt32_ofInt32, h k hlow hhigh, encodeLevel_bit _ _ _ (by omega), if_pos hfield,
    Bool.false_and]

def addedAssignment (term : ℕ) (channel : JsNumber) : RcMixerAssignment where
  id := rcLogicAssignmentId term
  channel := shown 0 channel
  functionId := 0
  lowPwm := ADD_DEFAULT_LOW
  highPwm := ADD_DEFAULT_HIGH
  inverted := false
  levelMode := false
  outputLevel := 0

def addedLogicTerm (term : ℕ) : RcLogicLogicTerm where
  id := rcLogicAssignmentId term
  sourceType := .condition
  functionId := 0
  sourceValue := 0
  inverted := false
  levelMode := false
  outputLevel := 0

theorem shown_zero (fallback : JsNumber) : shown fallback 0 = 0 := by
  rw [← ofInt32_zero, shown_ofInt32]

variable (parameters drafts) in
theorem readTerm_added (hchannel : channel.IsDouble) (h : Stages next term (addedValues channel)) :
    readTerm parameters (mergeDrafts drafts next) term = .range (addedAssignment term channel) := by
  have hdoubles : ∀ param, ∀ x ∈ addedValues channel param, x.IsDouble := by
    intro param x hx
    cases param with
    | func => exact Option.some.inj hx ▸ isDouble_zero
    | opt => exact Option.some.inj hx ▸ isDouble_zero
    | src => exact Option.some.inj hx ▸ hchannel
    | min => exact Option.some.inj hx ▸ isDouble_nearestDouble _ _
    | max => exact Option.some.inj hx ▸ isDouble_nearestDouble _ _
  have hread := h.effective_own parameters drafts hdoubles
  have hfunc := (hread .func 0).trans (shown_zero 0)
  have hopt := (hread .opt 0).trans (shown_zero 0)
  have hsrc := hread .src 0
  have hmin := (hread .min ADD_DEFAULT_LOW).trans (shown_natCast (n := 1700) (by norm_num) _)
  have hmax := (hread .max ADD_DEFAULT_HIGH).trans (shown_natCast (n := 2100) (by norm_num) _)
  simp only [RcLogicTermParamIds.id] at hfunc hopt hsrc hmin hmax
  have hlevel : decodeLevel 0 = ⟨false, 0⟩ := by
    rw [← ofInt32_zero]
    exact decodeLevel_sourceOnly (by simp)
  have hzero : (0 : JsNumber).toInt32 = 0#32 := by rw [← ofInt32_zero, toInt32_ofInt32]
  rw [readTerm_range]
  refine ⟨h.touched_of_func rfl, ?_, ?_⟩
  · rw [optionBits, hopt, hzero]
    rfl
  · rw [optionBits, hfunc, hopt, hsrc, hmin, hmax, hlevel, hzero]
    rfl

variable (parameters drafts) in
theorem readTerm_addedLogic (h : Stages next term addedLogicValues) :
    readTerm parameters (mergeDrafts drafts next) term = .logic (addedLogicTerm term) := by
  have hdoubles : ∀ param, ∀ x ∈ addedLogicValues param, x.IsDouble := by
    intro param x hx
    cases param with
    | func => exact Option.some.inj hx ▸ isDouble_zero
    | opt => exact Option.some.inj hx ▸ isDouble_ofInt32 _
    | src => exact Option.some.inj hx ▸ isDouble_zero
    | min => cases hx
    | max => cases hx
  have hread := h.effective_own parameters drafts hdoubles
  have hfunc := (hread .func 0).trans (shown_zero 0)
  have hopt := (hread .opt 0).trans (shown_ofInt32 0 sourceCondition)
  have hsrc := (hread .src 0).trans (shown_zero 0)
  simp only [RcLogicTermParamIds.id] at hfunc hopt hsrc
  have hlevel : decodeLevel (ofInt32 sourceCondition) = ⟨false, 0⟩ := by
    apply decodeLevel_sourceOnly
    intro k hlow _
    have hsource : sourceCondition.toNat < 2 ^ k :=
      lt_of_lt_of_le (by decide) (Nat.pow_le_pow_right (by decide) hlow)
    exact Nat.testBit_lt_two_pow hsource
  rw [readTerm_logic]
  refine ⟨h.touched_of_func rfl, ?_, ?_⟩
  · rw [optionBits, hopt, toInt32_ofInt32]
    decide
  · rw [optionBits, hfunc, hopt, hsrc, hlevel, toInt32_ofInt32]
    rfl

end Added

/-! ## Edits read back -/

def RcLogicModel.Uses (model : RcLogicModel) (id : Text) : Prop :=
  (∃ a ∈ model.assignments, a.id = id) ∨ ∃ t ∈ model.logicTerms, t.id = id

def StagesOnly (next : ParameterDraftValues) (term : ℕ) : Prop :=
  ∀ id, next.has id = true → ∃ param, id = (rcLogicTermParamIds term).id param

section FreeSlots
variable {parameters : ParameterValues} {drafts : ParameterDraftValues} {term : ℕ}

theorem readTerm_freeTermIndex
    (h : (readRcLogicModel parameters drafts).freeTermIndex = some term) :
    term ∈ terms ∧ readTerm parameters drafts term = .free := by
  have hfind : (terms.find? fun other => decide (readTerm parameters drafts other = .free)) =
      some term := h
  have hfree := List.find?_some hfind
  rw [decide_eq_true_eq] at hfree
  exact ⟨List.mem_of_find?_eq_some hfind, hfree⟩

theorem ne_of_free (hfree : readTerm parameters drafts term = .free) {other : ℕ}
    (h : readTerm parameters drafts other ≠ .free) :
    rcLogicAssignmentId other ≠ rcLogicAssignmentId term :=
  fun hid => h (rcLogicAssignmentId_inj hid ▸ hfree)

theorem not_uses_of_free (hfree : readTerm parameters drafts term = .free) :
    ¬(readRcLogicModel parameters drafts).Uses (rcLogicAssignmentId term) := by
  rintro (⟨a, ha, hid⟩ | ⟨t, ht, hid⟩)
  · obtain ⟨other, -, hread⟩ := mem_assignments.mp ha
    refine ne_of_free hfree (fun h => ?_) ((id_of_readTerm_range hread).symm.trans hid)
    rw [hread] at h
    cases h
  · obtain ⟨other, -, hread⟩ := mem_logicTerms.mp ht
    refine ne_of_free hfree (fun h => ?_) ((id_of_readTerm_logic hread).symm.trans hid)
    rw [hread] at h
    cases h

theorem Stages.only {next : ParameterDraftValues} {values : TermParam → Option JsNumber}
    (h : Stages next term values) : StagesOnly next term := by
  intro id hid
  by_contra hnone
  rw [not_exists] at hnone
  rw [JsMap.has, h.rest id hnone] at hid
  exact Bool.false_ne_true hid

end FreeSlots

/-- What the table shows once the drafts of each kind of edit are merged. -/
structure EditsReadBack (parameters : ParameterValues) (drafts : ParameterDraftValues) : Prop where
  update : ∀ (term : ℕ) (patch : AssignmentPatch), patch.Doubles →
    ∀ a ∈ (readRcLogicModel parameters drafts).assignments, a.id = rcLogicAssignmentId term →
      let after := mergeDrafts drafts (rcLogicUpdateDrafts parameters drafts term patch)
      readRcLogicModel parameters after =
          (readRcLogicModel parameters drafts).editAssignment a.id patch.apply ∧
        ∀ k < 32, ¬patch.NamesBit k → (optionBits parameters after term).getLsbD k =
          (optionBits parameters drafts term).getLsbD k
  updateLogic : ∀ (term : ℕ) (patch : LogicTermPatch), patch.Doubles →
    ∀ t ∈ (readRcLogicModel parameters drafts).logicTerms, t.id = rcLogicAssignmentId term →
      let after := mergeDrafts drafts (rcLogicUpdateLogicTermDrafts parameters drafts term patch)
      readRcLogicModel parameters after =
          (readRcLogicModel parameters drafts).editLogicTerm t.id patch.apply ∧
        ∀ k < 32, ¬patch.NamesBit k → (optionBits parameters after term).getLsbD k =
          (optionBits parameters drafts term).getLsbD k
  add : ∀ (channel : JsNumber) (next : ParameterDraftValues), channel.IsDouble →
    rcLogicAddDrafts (readRcLogicModel parameters drafts) channel = some next →
      let before := readRcLogicModel parameters drafts
      let after := readRcLogicModel parameters (mergeDrafts drafts next)
      ∃ term, ¬before.Uses (rcLogicAssignmentId term) ∧ StagesOnly next term ∧
        addedAssignment term channel ∈ after.assignments ∧
        after.assignments.filter (fun a => decide (a.id ≠ rcLogicAssignmentId term)) =
          before.assignments ∧
        after.logicTerms = before.logicTerms ∧ after.enabled = before.enabled
  addLogic : ∀ next : ParameterDraftValues,
    rcLogicAddLogicTermDrafts (readRcLogicModel parameters drafts) = some next →
      let before := readRcLogicModel parameters drafts
      let after := readRcLogicModel parameters (mergeDrafts drafts next)
      ∃ term, ¬before.Uses (rcLogicAssignmentId term) ∧ StagesOnly next term ∧
        addedLogicTerm term ∈ after.logicTerms ∧ after.assignments = before.assignments ∧
        after.logicTerms.filter (fun t => decide (t.id ≠ rcLogicAssignmentId term)) =
          before.logicTerms ∧ after.enabled = before.enabled

theorem editsReadBack (parameters : ParameterValues) (drafts : ParameterDraftValues) :
    EditsReadBack parameters drafts where
  update term patch hpatch a ha hid := by
    obtain ⟨other, -, hread⟩ := mem_assignments.mp ha
    obtain rfl := rcLogicAssignmentId_inj ((id_of_readTerm_range hread).symm.trans hid)
    have hstages := stages_rcLogicUpdateDrafts parameters drafts other patch
    rw [hid]
    exact ⟨readRcLogicModel_rcLogicUpdateDrafts hpatch hread,
      fun k hk hnames => optionBits_kept hstages rfl hk hnames⟩
  updateLogic term patch hpatch t ht hid := by
    obtain ⟨other, -, hread⟩ := mem_logicTerms.mp ht
    obtain rfl := rcLogicAssignmentId_inj ((id_of_readTerm_logic hread).symm.trans hid)
    have hcurrent := effective_of_ne (effective_ne_zero (readTerm_logic.mp hread).2.1)
      (ofInt32 sourceCondition)
    have hstages := stages_rcLogicUpdateLogicTermDrafts parameters drafts other patch
    rw [hcurrent] at hstages
    rw [hid]
    exact ⟨readRcLogicModel_rcLogicUpdateLogicTermDrafts hpatch hread,
      fun k hk hnames => optionBits_kept hstages rfl hk hnames⟩
  add channel next hchannel hadd := by
    obtain ⟨term, hindex, hstages⟩ := stages_rcLogicAddDrafts hadd
    obtain ⟨hterm, hfree⟩ := readTerm_freeTermIndex hindex
    have hnew := readTerm_added parameters drafts hchannel hstages
    refine ⟨term, not_uses_of_free hfree, hstages.only, mem_assignments.mpr ⟨term, hterm, hnew⟩,
      filterMap_new Slot.range? terms RcMixerAssignment.id (Slot.range?_eq_some.mpr hnew) rfl
        (by rw [hfree]; rfl) (fun other hne => hstages.readTerm_other hne) fun other b hread => ?_,
      filterMap_same _ _ fun other => ?_, by rw [readRcLogicModel, readRcLogicModel, hstages.enabled]⟩
    · have hslot := Slot.range?_eq_some.mp hread
      rw [id_of_readTerm_range hslot]
      exact ne_of_free hfree (by rw [hslot]; exact Slot.noConfusion)
    · by_cases hne : other = term
      · rw [hne, hnew, hfree]
        rfl
      · rw [hstages.readTerm_other hne]
  addLogic next hadd := by
    obtain ⟨term, hindex, hstages⟩ := stages_rcLogicAddLogicTermDrafts hadd
    obtain ⟨hterm, hfree⟩ := readTerm_freeTermIndex hindex
    have hnew := readTerm_addedLogic parameters drafts hstages
    refine ⟨term, not_uses_of_free hfree, hstages.only, mem_logicTerms.mpr ⟨term, hterm, hnew⟩,
      filterMap_same _ _ fun other => ?_, filterMap_new Slot.logic? terms RcLogicLogicTerm.id
        (Slot.logic?_eq_some.mpr hnew) rfl (by rw [hfree]; rfl)
        (fun other hne => hstages.readTerm_other hne) fun other b hread => ?_,
      by rw [readRcLogicModel, readRcLogicModel, hstages.enabled]⟩
    · by_cases hne : other = term
      · rw [hne, hnew, hfree]
        rfl
      · rw [hstages.readTerm_other hne]
    · have hslot := Slot.logic?_eq_some.mp hread
      rw [id_of_readTerm_logic hslot]
      exact ne_of_free hfree (by rw [hslot]; exact Slot.noConfusion)


def levelParameters : ParameterValues :=
  [(units "RCL1_FUNC", 94), (units "RCL1_OPT", 120), (units "RCL1_SRC", 7),
    (units "RCL1_MIN", 1200), (units "RCL1_MAX", 1800)]

def levelAssignment : RcMixerAssignment where
  id := rcLogicAssignmentId 1
  channel := 7
  functionId := 94
  lowPwm := 1200
  highPwm := 1800
  inverted := true
  levelMode := true
  outputLevel := 3

def plainPatch : AssignmentPatch where
  channel := none
  functionId := some 41
  lowPwm := some 1250.5
  highPwm := none
  inverted := none
  levelMode := none
  outputLevel := none

theorem level_cleared_with_function :
    (readRcLogicModel levelParameters (mergeDrafts JsMap.empty
      (rcLogicUpdateDrafts levelParameters JsMap.empty 1 plainPatch))).assignments =
        [{ id := rcLogicAssignmentId 1, channel := 7, functionId := 41, lowPwm := 1251,
           highPwm := 1800, inverted := true, levelMode := false, outputLevel := 0 }] := by
  have hread : (readRcLogicModel levelParameters JsMap.empty).assignments = [levelAssignment] := by
    decide +kernel
  have hpatch : plainPatch.Doubles :=
    ⟨by simp [plainPatch], fun x hx => Option.some.inj hx ▸ isDouble_nearestDouble _ _⟩
  rw [((editsReadBack levelParameters JsMap.empty).update 1 plainPatch hpatch levelAssignment
    (hread ▸ List.mem_singleton_self _) rfl).1, RcLogicModel.editAssignment, hread]
  decide +kernel

end ArduConfigurator.ViewModels.RcLogic
