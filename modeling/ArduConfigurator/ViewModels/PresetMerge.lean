import ArduConfigurator.Lib.Json

/-! # Merging imported presets into the library

An imported preset is filed under its id, dropped where the preset of this id says the same, and
filed under a fresh id where it says something else. The ids that are created, the comparison of
texts and the reading of dates are parameters. -/
namespace ArduConfigurator.ViewModels.PresetMerge
set_option autoImplicit false
open Json

/-! ## What a preset says -/

mutual

/-- `JSON.stringify(value)`. -/
def compact : Json → Text
  | .null => units "null"
  | .bool b => units (if b then "true" else "false")
  | .number x => writeNumber x
  | .string t => quote t
  | .array [] => [LBRACKET, RBRACKET]
  | .array (j :: items) => LBRACKET :: (compact j ++ (compactItems items ++ [RBRACKET]))
  | .object [] => [LBRACE, RBRACE]
  | .object ((k, j) :: fields) =>
    LBRACE :: (quote k ++ (COLON :: (compact j ++ (compactFields fields ++ [RBRACE]))))

def compactItems : List Json → Text
  | [] => []
  | j :: items => COMMA :: (compact j ++ compactItems items)

def compactFields : List (Text × Json) → Text
  | [] => []
  | (k, j) :: fields => COMMA :: (quote k ++ (COLON :: (compact j ++ compactFields fields)))

end

structure UserPresetRecord where
  id : Text
  label : Text
  description : Option Text
  createdAt : Text
  sourceFirmware : Option Text
  note : Option Text
  tags : List Text
  values : List (Text × JsNumber)
  dependencies : List Json

/-- `localeCompare` and `Date.parse`, which is `none` for `NaN`. -/
structure Host where
  localeCompare : Text → Text → ℤ
  parseDate : Text → Option ℤ

variable (host : Host)

/-- The order of `sort()` on texts. -/
def unitsLe : Text → Text → Bool
  | [], _ => true
  | _ :: _, [] => false
  | a :: s, b :: t => decide (a.toNat < b.toNat) || (decide (a = b) && unitsLe s t)

def field (name : String) (value : Json) : List (Text × Json) := [(units name, value)]

def shape (preset : UserPresetRecord) : Text :=
  let values := preset.values.mergeSort fun a b => host.localeCompare a.1 b.1 ≤ 0
  let dependencies := (preset.dependencies.map compact).mergeSort unitsLe
  compact (.object
    (field "label" (.string preset.label) ++
      ((preset.description.map fun t => (units "description", Json.string t)).toList ++
        (field "note" (.string (preset.note.getD [])) ++
          (field "tags" (.array ((preset.tags.mergeSort unitsLe).map Json.string)) ++
            (field "values" (.array (values.map fun v => .array [.string v.1, .number v.2])) ++
              field "dependencies" (.array (dependencies.map Json.string))))))))

def isSameUserPresetContent (left right : UserPresetRecord) : Bool :=
  decide (shape host left = shape host right)

/-! ## The merge -/

def compareUserPresets (left right : UserPresetRecord) : ℤ :=
  match host.parseDate left.createdAt, host.parseDate right.createdAt with
  | some leftTime, some rightTime =>
    if leftTime ≠ rightTime then rightTime - leftTime
    else host.localeCompare left.label right.label
  | _, _ => host.localeCompare left.label right.label

def sortUserPresets (presets : List UserPresetRecord) : List UserPresetRecord :=
  presets.mergeSort fun left right => compareUserPresets host left right ≤ 0

structure Merging where
  byId : JsMap Text UserPresetRecord
  added : ℕ
  unchanged : ℕ
  renamed : ℕ

/-- One turn of the loop; `fresh k` is the id that is created for the renamed preset `k`. -/
def mergeOne (fresh : ℕ → Text) (s : Merging) (preset : UserPresetRecord) : Merging :=
  match s.byId.get preset.id with
  | none => { s with byId := s.byId.set preset.id preset, added := s.added + 1 }
  | some clash =>
    if isSameUserPresetContent host clash preset then { s with unchanged := s.unchanged + 1 }
    else
      { s with
        byId := s.byId.set (fresh s.renamed) { preset with id := fresh s.renamed }
        renamed := s.renamed + 1 }

def mapById (presets : List UserPresetRecord) : JsMap Text UserPresetRecord :=
  presets.foldl (fun byId preset => byId.set preset.id preset) JsMap.empty

def mergeAll (fresh : ℕ → Text) (existing imported : List UserPresetRecord) : Merging :=
  imported.foldl (mergeOne host fresh) ⟨mapById existing, 0, 0, 0⟩

structure UserPresetMergeResult where
  presets : List UserPresetRecord
  added : ℕ
  unchanged : ℕ
  renamed : ℕ

def mergeImportedUserPresets (fresh : ℕ → Text) (existing imported : List UserPresetRecord) :
    UserPresetMergeResult :=
  let s := mergeAll host fresh existing imported
  { presets := sortUserPresets host s.byId.values
    added := s.added
    unchanged := s.unchanged
    renamed := s.renamed }

structure Fresh (fresh : ℕ → Text) (presets : List UserPresetRecord) : Prop where
  injective : Function.Injective fresh
  unused : ∀ k, ∀ preset ∈ presets, preset.id ≠ fresh k

def holderOf (presets : List UserPresetRecord) (id : Text) : Option UserPresetRecord :=
  presets.find? fun preset => preset.id = id

/-! ## The library by id -/

def Keyed (byId : JsMap Text UserPresetRecord) : Prop :=
  ∀ id preset, byId.get id = some preset → preset.id = id

theorem Keyed.set {byId : JsMap Text UserPresetRecord} (h : Keyed byId)
    (preset : UserPresetRecord) : Keyed (byId.set preset.id preset) := by
  intro id held hheld
  rw [JsMap.get_set] at hheld
  split_ifs at hheld with heq
  · rw [← Option.some.inj hheld, heq]
  · exact h id held hheld

theorem keyed_mapById (presets : List UserPresetRecord) : Keyed (mapById presets) := by
  induction presets using List.reverseRecOn with
  | nil =>
    intro id preset hget
    cases hget
  | append_singleton presets preset ih =>
    rw [mapById, List.foldl_append]
    exact ih.set preset

theorem holderOf_append (front back : List UserPresetRecord) (id : Text) :
    holderOf (front ++ back) id = (holderOf front id).or (holderOf back id) :=
  List.find?_append

theorem holderOf_single (preset : UserPresetRecord) (id : Text) :
    holderOf [preset] id = if preset.id = id then some preset else none := by
  simp [holderOf, List.find?_cons]
  split_ifs <;> simp_all

theorem holderOf_eq_none {presets : List UserPresetRecord} {id : Text}
    (h : id ∉ presets.map UserPresetRecord.id) : holderOf presets id = none := by
  rw [holderOf, List.find?_eq_none]
  intro preset hmem hid
  exact h (List.mem_map.mpr ⟨preset, hmem, of_decide_eq_true hid⟩)

theorem get_mapById {presets : List UserPresetRecord}
    (h : (presets.map UserPresetRecord.id).Nodup) (id : Text) :
    (mapById presets).get id = holderOf presets id := by
  induction presets using List.reverseRecOn with
  | nil => rfl
  | append_singleton presets preset ih =>
    rw [List.map_append, List.nodup_append] at h
    obtain ⟨hold, -, hnew⟩ := h
    have hnew : preset.id ∉ presets.map UserPresetRecord.id := by
      intro hmem
      exact hnew _ hmem preset.id (by simp) rfl
    rw [mapById, List.foldl_append, holderOf_append, holderOf_single]
    change ((mapById presets).set preset.id preset).get id = _
    rw [JsMap.get_set, ih hold]
    by_cases heq : id = preset.id
    · subst heq
      rw [if_pos rfl, if_pos rfl, holderOf_eq_none hnew]
      rfl
    · rw [if_neg heq, if_neg (Ne.symm heq), Option.or_none]

theorem id_of_holderOf {presets : List UserPresetRecord} {id : Text} {preset : UserPresetRecord}
    (h : holderOf presets id = some preset) : preset.id = id := by
  rw [holderOf] at h
  simpa using List.find?_some h

theorem holderOf_eq_some_iff {presets : List UserPresetRecord}
    (h : (presets.map UserPresetRecord.id).Nodup) {id : Text} {preset : UserPresetRecord} :
    holderOf presets id = some preset ↔ preset ∈ presets ∧ preset.id = id := by
  constructor
  · intro hfound
    exact ⟨List.mem_of_find?_eq_some hfound, id_of_holderOf hfound⟩
  · rintro ⟨hmem, rfl⟩
    cases hfound : holderOf presets preset.id with
    | none =>
      rw [holderOf, List.find?_eq_none] at hfound
      exact absurd (by simp) (hfound preset hmem)
    | some held =>
      rw [List.inj_on_of_nodup_map h (List.mem_of_find?_eq_some hfound) hmem
        (id_of_holderOf hfound)]

theorem mem_values_iff {byId : JsMap Text UserPresetRecord} (h : Keyed byId)
    {preset : UserPresetRecord} : preset ∈ byId.values ↔ byId.get preset.id = some preset := by
  rw [← JsMap.mem_entries_iff]
  constructor
  · intro hmem
    obtain ⟨entry, hentry, rfl⟩ := List.mem_map.mp hmem
    have hid := h entry.1 entry.2 (JsMap.mem_entries_iff.mp hentry)
    rwa [hid]
  · exact fun hentry => List.mem_map.mpr ⟨_, hentry, rfl⟩

theorem map_id_values {byId : JsMap Text UserPresetRecord} (h : Keyed byId) :
    byId.values.map UserPresetRecord.id = byId.keys := by
  rw [JsMap.values, Entries.values, List.map_map, JsMap.keys, Entries.keys]
  exact List.map_congr_left fun entry hentry =>
    h entry.1 entry.2 (JsMap.mem_entries_iff.mp hentry)

/-! ## One import -/

variable {host} {fresh : ℕ → Text}

theorem keyed_mergeOne {s : Merging} (h : Keyed s.byId) (preset : UserPresetRecord) :
    Keyed (mergeOne host fresh s preset).byId := by
  unfold mergeOne
  cases s.byId.get preset.id with
  | none => exact h.set preset
  | some clash =>
    dsimp only
    split_ifs
    · exact h
    · exact h.set { preset with id := fresh s.renamed }

theorem get_mergeOne (s : Merging) (preset : UserPresetRecord) {id : Text}
    (hid : ∀ k, id ≠ fresh k) :
    (mergeOne host fresh s preset).byId.get id = (s.byId.get id).or (holderOf [preset] id) := by
  rw [holderOf_single]
  unfold mergeOne
  cases hclash : s.byId.get preset.id with
  | none =>
    rw [JsMap.get_set]
    by_cases heq : id = preset.id
    · subst heq
      rw [if_pos rfl, if_pos rfl, hclash]
      rfl
    · rw [if_neg heq, if_neg (Ne.symm heq), Option.or_none]
  | some clash =>
    have hheld : s.byId.get id = (s.byId.get id).or
        (if preset.id = id then some preset else none) := by
      split_ifs with heq
      · rw [← heq, hclash]
        rfl
      · exact Option.or_none.symm
    dsimp only
    split_ifs at hheld ⊢
    all_goals first
      | exact hheld
      | (rw [JsMap.get_set, if_neg (hid _)]; exact hheld)

theorem get_foldl_mergeOne (s : Merging) (imported : List UserPresetRecord) {id : Text}
    (hid : ∀ k, id ≠ fresh k) :
    (imported.foldl (mergeOne host fresh) s).byId.get id =
      (s.byId.get id).or (holderOf imported id) := by
  induction imported generalizing s with
  | nil => exact Option.or_none.symm
  | cons preset imported ih =>
    have hcons : holderOf (preset :: imported) id =
        (holderOf [preset] id).or (holderOf imported id) := holderOf_append [preset] imported id
    rw [List.foldl_cons, ih, get_mergeOne s preset hid, hcons, Option.or_assoc]

theorem keyed_foldl_mergeOne {s : Merging} (h : Keyed s.byId) (imported : List UserPresetRecord) :
    Keyed (imported.foldl (mergeOne host fresh) s).byId := by
  induction imported generalizing s with
  | nil => exact h
  | cons preset imported ih => exact ih (keyed_mergeOne h preset)

theorem count_mergeOne (s : Merging) (preset : UserPresetRecord) :
    (mergeOne host fresh s preset).added + (mergeOne host fresh s preset).unchanged +
      (mergeOne host fresh s preset).renamed = s.added + s.unchanged + s.renamed + 1 := by
  unfold mergeOne
  split
  · dsimp only
    omega
  · split_ifs <;> (dsimp only; omega)

theorem count_foldl_mergeOne (s : Merging) (imported : List UserPresetRecord) :
    let t := imported.foldl (mergeOne host fresh) s
    t.added + t.unchanged + t.renamed = s.added + s.unchanged + s.renamed + imported.length := by
  induction imported generalizing s with
  | nil => rfl
  | cons preset imported ih =>
    have hone := @count_mergeOne host fresh s preset
    have hall := ih (mergeOne host fresh s preset)
    simp only [List.foldl_cons, List.length_cons] at hall ⊢
    omega


/-! ## The same import again -/

/-- The result keeps the library, names every preset once and counts every imported one; the same
list changes nothing when it is imported again. -/
structure MergesOnce (host : Host) (fresh again : ℕ → Text)
    (existing imported : List UserPresetRecord) : Prop where
  kept : ∀ preset ∈ existing,
    preset ∈ (mergeImportedUserPresets host fresh existing imported).presets
  distinct :
    ((mergeImportedUserPresets host fresh existing imported).presets.map UserPresetRecord.id).Nodup
  counted : (mergeImportedUserPresets host fresh existing imported).added +
    (mergeImportedUserPresets host fresh existing imported).unchanged +
      (mergeImportedUserPresets host fresh existing imported).renamed = imported.length
  nothingNew :
    let result := mergeImportedUserPresets host fresh existing imported
    (mergeImportedUserPresets host again result.presets imported).added = 0 ∧
      (mergeImportedUserPresets host again result.presets imported).renamed = 0

/-- Every imported preset says what the preset that holds its id says: the library's, else the
first of the list. -/
def SaysWhatHolderSays (host : Host) (existing imported : List UserPresetRecord) : Prop :=
  ∀ preset ∈ imported, ∀ held,
    (holderOf existing preset.id).or (holderOf imported preset.id) = some held →
      isSameUserPresetContent host held preset = true

theorem foldl_mergeOne_held {s : Merging} {imported : List UserPresetRecord}
    (hheld : ∀ preset ∈ imported, (s.byId.get preset.id).isSome = true)
    (hnew : ∀ preset ∈ imported, ∀ k, preset.id ≠ fresh k) :
    (imported.foldl (mergeOne host fresh) s).added = s.added ∧
      s.renamed ≤ (imported.foldl (mergeOne host fresh) s).renamed ∧
      ((imported.foldl (mergeOne host fresh) s).renamed = s.renamed ↔
        ∀ preset ∈ imported, ∀ held, s.byId.get preset.id = some held →
          isSameUserPresetContent host held preset = true) := by
  induction imported generalizing s with
  | nil => exact ⟨rfl, le_rfl, by simp⟩
  | cons preset imported ih =>
    obtain ⟨clash, hclash⟩ := Option.isSome_iff_exists.mp (hheld preset List.mem_cons_self)
    have hget : ∀ p ∈ imported,
        (mergeOne host fresh s preset).byId.get p.id = s.byId.get p.id := by
      intro p hp
      obtain ⟨held, hp'⟩ := Option.isSome_iff_exists.mp (hheld p (List.mem_cons_of_mem _ hp))
      rw [get_mergeOne s preset (hnew p (List.mem_cons_of_mem _ hp)), hp', Option.some_or]
    obtain ⟨hadded, hle, hiff⟩ := @ih (mergeOne host fresh s preset)
      (fun p hp => by rw [hget p hp]; exact hheld p (List.mem_cons_of_mem _ hp))
      (fun p hp => hnew p (List.mem_cons_of_mem _ hp))
    have hiff' : (imported.foldl (mergeOne host fresh) (mergeOne host fresh s preset)).renamed =
        (mergeOne host fresh s preset).renamed ↔ ∀ p ∈ imported, ∀ held,
          s.byId.get p.id = some held → isSameUserPresetContent host held p = true := by
      rw [hiff]
      constructor
      · intro h p hp held hgot
        exact h p hp held (by rw [hget p hp, hgot])
      · intro h p hp held hgot
        exact h p hp held (by rw [← hget p hp, hgot])
    rw [List.foldl_cons, List.forall_mem_cons, hclash]
    have hone : mergeOne host fresh s preset =
        if isSameUserPresetContent host clash preset then
          { s with unchanged := s.unchanged + 1 }
        else
          { s with
            byId := s.byId.set (fresh s.renamed) { preset with id := fresh s.renamed }
            renamed := s.renamed + 1 } := by
      rw [mergeOne, hclash]
    by_cases hsame : isSameUserPresetContent host clash preset = true
    · rw [if_pos hsame] at hone
      rw [hone] at hadded hle hiff' ⊢
      exact ⟨hadded, hle, hiff'.trans ⟨fun h => ⟨fun held hgot => Option.some.inj hgot ▸ hsame, h⟩,
        fun h => h.2⟩⟩
    · rw [if_neg hsame] at hone
      rw [hone] at hadded hle ⊢
      dsimp only at hadded hle ⊢
      exact ⟨hadded, by omega, iff_of_false (by omega) fun h => hsame (h.1 clash rfl)⟩

section Import
variable {again : ℕ → Text} {existing imported : List UserPresetRecord}

theorem keyed_mergeAll : Keyed (mergeAll host fresh existing imported).byId :=
  keyed_foldl_mergeOne (keyed_mapById existing) imported

theorem mem_merged {preset : UserPresetRecord} :
    preset ∈ (mergeImportedUserPresets host fresh existing imported).presets ↔
      (mergeAll host fresh existing imported).byId.get preset.id = some preset := by
  rw [← mem_values_iff keyed_mergeAll]
  exact (List.mergeSort_perm _ _).mem_iff

theorem nodup_merged :
    ((mergeImportedUserPresets host fresh existing imported).presets.map
      UserPresetRecord.id).Nodup := by
  have hperm : ((mergeImportedUserPresets host fresh existing imported).presets.map
      UserPresetRecord.id).Perm (mergeAll host fresh existing imported).byId.keys := by
    rw [← map_id_values keyed_mergeAll]
    exact (List.mergeSort_perm _ _).map _
  exact hperm.nodup_iff.mpr (mergeAll host fresh existing imported).byId.nodup

variable (hids : (existing.map UserPresetRecord.id).Nodup)
  (hfresh : Fresh fresh (existing ++ imported))
include hids

theorem get_mergeAll {id : Text} (hid : ∀ k, id ≠ fresh k) :
    (mergeAll host fresh existing imported).byId.get id =
      (holderOf existing id).or (holderOf imported id) := by
  rw [mergeAll, get_foldl_mergeOne _ imported hid]
  dsimp only
  rw [get_mapById hids]

include hfresh

theorem holder_merged {preset : UserPresetRecord} (hmem : preset ∈ imported) :
    holderOf (mergeImportedUserPresets host fresh existing imported).presets preset.id =
      (holderOf existing preset.id).or (holderOf imported preset.id) ∧
    ((holderOf existing preset.id).or (holderOf imported preset.id)).isSome = true := by
  have hid : ∀ k, preset.id ≠ fresh k :=
    fun k => hfresh.unused k preset (List.mem_append_right _ hmem)
  have hget := @get_mergeAll host fresh existing imported hids preset.id hid
  have hsome : (holderOf imported preset.id).isSome = true :=
    List.find?_isSome.mpr ⟨preset, hmem, decide_eq_true rfl⟩
  obtain ⟨held, hheld⟩ := Option.isSome_iff_exists.mp
    (show ((holderOf existing preset.id).or (holderOf imported preset.id)).isSome = true by
      rw [Option.isSome_or, hsome, Bool.or_true])
  rw [hheld] at hget ⊢
  have hkey := keyed_mergeAll _ _ hget
  refine ⟨(holderOf_eq_some_iff nodup_merged).mpr ⟨mem_merged.mpr ?_, hkey⟩, rfl⟩
  rw [hkey, hget]

theorem again_iff (hagain : Fresh again
    (mergeImportedUserPresets host fresh existing imported).presets) :
    (mergeImportedUserPresets host again
        (mergeImportedUserPresets host fresh existing imported).presets imported).added = 0 ∧
      ((mergeImportedUserPresets host again
          (mergeImportedUserPresets host fresh existing imported).presets imported).renamed = 0 ↔
        SaysWhatHolderSays host existing imported) := by
  have hget : ∀ preset ∈ imported,
      (mapById (mergeImportedUserPresets host fresh existing imported).presets).get preset.id =
        (holderOf existing preset.id).or (holderOf imported preset.id) := by
    intro preset hmem
    rw [get_mapById nodup_merged, (holder_merged hids hfresh hmem).1]
  have hnew : ∀ preset ∈ imported, ∀ k, preset.id ≠ again k := by
    intro preset hmem k
    obtain ⟨heq, hsome⟩ := @holder_merged host fresh existing imported hids hfresh preset hmem
    obtain ⟨held, hheld⟩ := Option.isSome_iff_exists.mp hsome
    rw [hheld] at heq
    rw [← id_of_holderOf heq]
    exact hagain.unused k held (List.mem_of_find?_eq_some heq)
  obtain ⟨hadded, -, hiff⟩ := @foldl_mergeOne_held host again
    ⟨mapById (mergeImportedUserPresets host fresh existing imported).presets, 0, 0, 0⟩ imported
    (fun preset hmem => by
      dsimp only
      rw [hget preset hmem]
      exact (@holder_merged host fresh existing imported hids hfresh preset hmem).2) hnew
  refine ⟨hadded, hiff.trans ?_⟩
  constructor
  · intro h preset hmem held hheld
    exact h preset hmem held ((hget preset hmem).trans hheld)
  · intro h preset hmem held hheld
    exact h preset hmem held ((hget preset hmem).symm.trans hheld)

/-- The merge does what it promises exactly if no imported preset clashes with a different one. -/
theorem mergesOnce_iff (hagain : Fresh again
    (mergeImportedUserPresets host fresh existing imported).presets) :
    MergesOnce host fresh again existing imported ↔ SaysWhatHolderSays host existing imported := by
  obtain ⟨hadded, hiff⟩ := again_iff hids hfresh hagain
  constructor
  · exact fun h => hiff.mp h.nothingNew.2
  · intro h
    refine ⟨?_, nodup_merged, ?_, hadded, hiff.mpr h⟩
    · intro preset hmem
      have hid : ∀ k, preset.id ≠ fresh k :=
        fun k => hfresh.unused k preset (List.mem_append_left _ hmem)
      rw [mem_merged, get_mergeAll hids hid,
        (holderOf_eq_some_iff hids).mpr ⟨hmem, rfl⟩, Option.some_or]
    · have hcount := @count_foldl_mergeOne host fresh ⟨mapById existing, 0, 0, 0⟩ imported
      exact hcount.trans (Nat.zero_add _)

end Import

/-! ## A preset of three cells and one of four -/

def plainHost : Host where
  localeCompare _ _ := 0
  parseDate _ := none

def cellPreset (label : String) : UserPresetRecord where
  id := units "user:cells"
  label := units label
  description := none
  createdAt := []
  sourceFirmware := none
  note := none
  tags := []
  values := []
  dependencies := []

def longIds (n k : ℕ) : Text := List.replicate (n + k) 0x78

theorem fresh_longIds {n : ℕ} {presets : List UserPresetRecord}
    (h : ∀ preset ∈ presets, preset.id.length < n) : Fresh (longIds n) presets where
  injective a b hab := by
    have hlength := congrArg List.length hab
    simp only [longIds, List.length_replicate] at hlength
    omega
  unused k preset hmem hid := by
    have hlength := congrArg List.length hid
    have hlt := h preset hmem
    simp only [longIds, List.length_replicate] at hlength
    omega

theorem exists_fresh (presets : List UserPresetRecord) : ∃ fresh, Fresh fresh presets := by
  have hbound : ∃ n, ∀ preset ∈ presets, preset.id.length < n := by
    induction presets with
    | nil => exact ⟨0, by simp⟩
    | cons preset presets ih =>
      obtain ⟨n, hn⟩ := ih
      refine ⟨n + preset.id.length + 1, List.forall_mem_cons.mpr ⟨by omega, ?_⟩⟩
      intro other hmem
      have hlt := hn other hmem
      omega
  obtain ⟨n, hn⟩ := hbound
  exact ⟨longIds n, fresh_longIds hn⟩

theorem mergesOnce_same : ∃ again, MergesOnce plainHost (longIds 20) again [cellPreset "6S"]
    [cellPreset "6S"] := by
  obtain ⟨again, hagain⟩ := exists_fresh (mergeImportedUserPresets plainHost (longIds 20)
    [cellPreset "6S"] [cellPreset "6S"]).presets
  have hids : ([cellPreset "6S"].map UserPresetRecord.id).Nodup := List.nodup_singleton _
  have hfresh : Fresh (longIds 20) ([cellPreset "6S"] ++ [cellPreset "6S"]) :=
    fresh_longIds (by decide)
  refine ⟨again, (mergesOnce_iff hids hfresh hagain).mpr ?_⟩
  intro preset hmem held hheld
  have hfirst : holderOf [cellPreset "6S"] (cellPreset "6S").id = some (cellPreset "6S") := by
    rw [holderOf_single, if_pos rfl]
  rw [List.mem_singleton.mp hmem, hfirst, Option.some_or] at hheld
  rw [List.mem_singleton.mp hmem, ← Option.some.inj hheld]
  exact decide_eq_true rfl

/-- An id that two different presets share is renamed again by every import. -/
theorem reimport_renames_again :
    ¬ ∀ (host : Host) (existing imported : List UserPresetRecord) (fresh again : ℕ → Text),
      (existing.map UserPresetRecord.id).Nodup → Fresh fresh (existing ++ imported) →
        Fresh again (mergeImportedUserPresets host fresh existing imported).presets →
          MergesOnce host fresh again existing imported := by
  intro h
  have hids : ([cellPreset "6S"].map UserPresetRecord.id).Nodup := List.nodup_singleton _
  have hfresh : Fresh (longIds 20) ([cellPreset "6S"] ++ [cellPreset "4S"]) :=
    fresh_longIds (by decide)
  obtain ⟨again, hagain⟩ := exists_fresh (mergeImportedUserPresets plainHost (longIds 20)
    [cellPreset "6S"] [cellPreset "4S"]).presets
  have hmerges := h plainHost [cellPreset "6S"] [cellPreset "4S"] (longIds 20) again hids hfresh
    hagain
  have hsays := (again_iff hids hfresh hagain).2.mp hmerges.nothingNew.2
  have hheld : (holderOf [cellPreset "6S"] (cellPreset "4S").id).or
      (holderOf [cellPreset "4S"] (cellPreset "4S").id) = some (cellPreset "6S") := by
    have hid : (cellPreset "6S").id = (cellPreset "4S").id := rfl
    rw [holderOf_single, if_pos hid, Option.some_or]
  have hsame := hsays (cellPreset "4S") (List.mem_singleton_self _) _ hheld
  rw [isSameUserPresetContent, decide_eq_true_eq, shape, shape] at hsame
  simp [cellPreset, field] at hsame
  revert hsame
  decide +kernel

end ArduConfigurator.ViewModels.PresetMerge
