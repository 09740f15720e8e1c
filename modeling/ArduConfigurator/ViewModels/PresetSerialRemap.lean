import ArduConfigurator.Lib.DecimalText

/-! # Moving a preset to another serial port

The remap rewrites, entry by entry, the ids of one port into those of another. -/
namespace ArduConfigurator.ViewModels.SerialRemap
set_option autoImplicit false
open DecimalText

variable {α : Type*}

/-! ## The remap -/

def SERIAL : Text := units "SERIAL"

def UNDERSCORE : UInt16 := 0x5F

/-- What `/^SERIAL(\d+)_/` finds: the digits, and what follows the underscore. -/
def serialPortPattern (paramId : Text) : Option (Text × Text) :=
  if SERIAL.isPrefixOf paramId then
    let rest := paramId.drop SERIAL.length
    let digits := rest.takeWhile isDigit
    let after := rest.dropWhile isDigit
    if digits ≠ [] ∧ after.head? = some UNDERSCORE then some (digits, after.tail) else none
  else none

def serialPortIndexOf (paramId : Text) : Option ℕ :=
  (serialPortPattern paramId).map fun found => readDigits found.1

/-- The id of the port `port` that ends like this one. -/
def portId (port : ℕ) (tail : Text) : Text := SERIAL ++ (natDigits port ++ UNDERSCORE :: tail)

/-- `paramId.replace(SERIAL_PORT_PATTERN, …)`. -/
def renamed (toPort : ℕ) (paramId : Text) : Text :=
  match serialPortPattern paramId with
  | some found => portId toPort found.2
  | none => paramId

@[ext] structure Entry (α : Type*) where
  paramId : Text
  value : α
  deriving DecidableEq

structure PresetSerialRemapResult (α : Type*) where
  values : List (Entry α)
  remapped : List (Text × Text)
  missingOnTarget : List Text

def onPort (port : ℕ) (entry : Entry α) : Bool := serialPortIndexOf entry.paramId = some port

def remapEntry (fromPort toPort : ℕ) (entry : Entry α) : Entry α :=
  if onPort fromPort entry then { entry with paramId := renamed toPort entry.paramId } else entry

def remapPresetSerialPort (values : List (Entry α)) (fromPort toPort : ℕ)
    (knownParamIds : Option (List Text)) : PresetSerialRemapResult α :=
  if fromPort = toPort then { values, remapped := [], missingOnTarget := [] }
  else
    let moved := values.filter (onPort fromPort)
    { values := values.map (remapEntry fromPort toPort)
      remapped := moved.map fun entry => (entry.paramId, renamed toPort entry.paramId)
      missingOnTarget := match knownParamIds with
        | none => []
        | some known => (moved.map fun entry => renamed toPort entry.paramId).filter (· ∉ known) }

/-! ## Ids of a port -/

variable {paramId : Text}

theorem serialPortPattern_eq_some {digits tail : Text} :
    serialPortPattern paramId = some (digits, tail) ↔
      paramId = SERIAL ++ (digits ++ UNDERSCORE :: tail) ∧ digits ≠ [] ∧ Digits digits := by
  have hend : ∀ c ∈ (UNDERSCORE :: tail).head?, isDigit c = false := by
    intro c hc
    cases hc
    decide
  unfold serialPortPattern
  constructor
  · intro h
    split_ifs at h with hprefix
    dsimp only at h
    split_ifs at h with hfound
    obtain ⟨rest, rfl⟩ := List.isPrefixOf_iff_prefix.mp hprefix
    rw [List.drop_left] at h hfound
    obtain ⟨hdigits, htail⟩ := Prod.mk.inj (Option.some.inj h)
    rw [hdigits] at hfound
    obtain ⟨after, hafter⟩ := List.head?_eq_some_iff.mp hfound.2
    rw [hafter, List.tail_cons] at htail
    rw [htail] at hafter
    refine ⟨?_, hfound.1, fun c hc => List.mem_takeWhile_imp (hdigits ▸ hc)⟩
    rw [← hdigits, ← hafter, List.takeWhile_append_dropWhile]
  · rintro ⟨rfl, hne, hdigits⟩
    have hsplit := takeWhile_digits hdigits hend
    rw [if_pos (List.isPrefixOf_iff_prefix.mpr (List.prefix_append _ _)), List.drop_left]
    simp only [hsplit.1, hsplit.2, List.head?_cons, List.tail_cons]
    rw [if_pos ⟨hne, trivial⟩]

theorem serialPortPattern_portId (port : ℕ) (tail : Text) :
    serialPortPattern (portId port tail) = some (natDigits port, tail) :=
  serialPortPattern_eq_some.mpr ⟨rfl, natDigits_ne_nil port, digits_natDigits port⟩

theorem serialPortIndexOf_portId (port : ℕ) (tail : Text) :
    serialPortIndexOf (portId port tail) = some port := by
  rw [serialPortIndexOf, serialPortPattern_portId, Option.map_some, readDigits_natDigits]

theorem renamed_portId (toPort port : ℕ) (tail : Text) :
    renamed toPort (portId port tail) = portId toPort tail := by
  rw [renamed, serialPortPattern_portId]

variable {port : ℕ}

theorem exists_tail (h : serialPortIndexOf paramId = some port) :
    ∃ digits tail, serialPortPattern paramId = some (digits, tail) ∧ readDigits digits = port := by
  obtain ⟨found, hfound, hdigits⟩ := Option.map_eq_some_iff.mp h
  exact ⟨found.1, found.2, hfound, hdigits⟩

theorem serialPortIndexOf_renamed (h : serialPortIndexOf paramId = some port) (toPort : ℕ) :
    serialPortIndexOf (renamed toPort paramId) = some toPort := by
  obtain ⟨digits, tail, hfound, -⟩ := exists_tail h
  rw [renamed, hfound]
  exact serialPortIndexOf_portId toPort tail

theorem renamed_renamed (h : serialPortIndexOf paramId = some port) (first second : ℕ) :
    renamed second (renamed first paramId) = renamed second paramId := by
  obtain ⟨digits, tail, hfound, -⟩ := exists_tail h
  have hname : ∀ p, renamed p paramId = portId p tail := by
    intro p
    rw [renamed, hfound]
  rw [hname, hname, renamed_portId]

/-! ## The ids of a list -/

def remapId (fromPort toPort : ℕ) (paramId : Text) : Text :=
  if serialPortIndexOf paramId = some fromPort then renamed toPort paramId else paramId

theorem remapEntry_paramId (fromPort toPort : ℕ) (entry : Entry α) :
    (remapEntry fromPort toPort entry).paramId = remapId fromPort toPort entry.paramId := by
  unfold remapEntry remapId onPort
  split_ifs with h h' h'
  · rfl
  · exact absurd (of_decide_eq_true h) h'
  · exact absurd (decide_eq_true h') h
  · rfl

theorem remapEntry_value (fromPort toPort : ℕ) (entry : Entry α) :
    (remapEntry fromPort toPort entry).value = entry.value := by
  unfold remapEntry
  split_ifs <;> rfl

variable {fromPort toPort : ℕ}

theorem values_remap (hne : fromPort ≠ toPort) (values : List (Entry α))
    (known : Option (List Text)) :
    (remapPresetSerialPort values fromPort toPort known).values =
      values.map (remapEntry fromPort toPort) := by
  rw [remapPresetSerialPort, if_neg hne]

structure NoClash (ids : List Text) (fromPort toPort : ℕ) : Prop where
  kept : ∀ a ∈ ids, serialPortIndexOf a = some fromPort → renamed toPort a ∉ ids
  moved : ∀ a ∈ ids, ∀ b ∈ ids, serialPortIndexOf a = some fromPort →
    serialPortIndexOf b = some fromPort → renamed toPort a = renamed toPort b → a = b

theorem nodup_remapId_iff {ids : List Text} (hids : ids.Nodup) (hne : fromPort ≠ toPort) :
    (ids.map (remapId fromPort toPort)).Nodup ↔ NoClash ids fromPort toPort := by
  rw [List.nodup_map_iff_inj_on hids]
  have hother : ∀ {a : Text}, serialPortIndexOf a = some fromPort →
      serialPortIndexOf (renamed toPort a) ≠ some fromPort := by
    intro a ha heq
    rw [serialPortIndexOf_renamed ha] at heq
    exact hne (Option.some.inj heq).symm
  constructor
  · intro hinj
    constructor
    · intro a ha hport hmem
      have heq := hinj a ha _ hmem (by
        rw [remapId, if_pos hport, remapId, if_neg (hother hport)])
      exact hother hport (heq ▸ hport)
    · intro a ha b hb hporta hportb heq
      exact hinj a ha b hb (by rw [remapId, if_pos hporta, remapId, if_pos hportb, heq])
  · intro h a ha b hb heq
    unfold remapId at heq
    split_ifs at heq with hporta hportb hportb
    · exact h.moved a ha b hb hporta hportb heq
    · exact absurd (heq ▸ hb) (h.kept a ha hporta)
    · exact absurd (heq ▸ ha) (h.kept b hb hportb)
    · exact heq

/-! ## There and back -/

def ids (values : List (Entry α)) : List Text := values.map Entry.paramId

theorem ids_map_remapEntry (values : List (Entry α)) (fromPort toPort : ℕ) :
    ids (values.map (remapEntry fromPort toPort)) = (ids values).map (remapId fromPort toPort) := by
  simp only [ids, List.map_map]
  exact List.map_congr_left fun entry _ => remapEntry_paramId fromPort toPort entry

theorem remapId_back {a : Text} (ha : serialPortIndexOf a ≠ some toPort) :
    remapId toPort fromPort (remapId fromPort toPort a) =
      if serialPortIndexOf a = some fromPort then renamed fromPort a else a := by
  unfold remapId
  by_cases hport : serialPortIndexOf a = some fromPort
  · rw [if_pos hport, if_pos hport, if_pos (serialPortIndexOf_renamed hport toPort)]
    exact renamed_renamed hport toPort fromPort
  · rw [if_neg hport, if_neg hport, if_neg ha]

/-- The ids of the port are written as the remap writes them, without leading zeros. -/
def Canonical (values : List (Entry α)) (port : ℕ) : Prop :=
  ∀ a ∈ ids values, serialPortIndexOf a = some port → renamed port a = a

theorem restored_iff {values : List (Entry α)}
    (hfree : ∀ a ∈ ids values, serialPortIndexOf a ≠ some toPort) :
    (values.map (remapEntry fromPort toPort)).map (remapEntry toPort fromPort) = values ↔
      Canonical values fromPort := by
  have hid : ∀ entry ∈ values,
      (remapEntry toPort fromPort (remapEntry fromPort toPort entry)).paramId =
        if serialPortIndexOf entry.paramId = some fromPort then renamed fromPort entry.paramId
        else entry.paramId := by
    intro entry hentry
    rw [remapEntry_paramId, remapEntry_paramId]
    exact remapId_back (hfree _ (List.mem_map_of_mem hentry))
  rw [List.map_map]
  constructor
  · intro heq a ha hport
    obtain ⟨entry, hentry, rfl⟩ := List.mem_map.mp ha
    have hself := List.map_inj_left.mp (heq.trans (List.map_id values).symm) entry hentry
    have hself := congrArg Entry.paramId hself
    rw [Function.comp_apply, hid entry hentry, if_pos hport] at hself
    exact hself
  · intro hcanonical
    have hself : ∀ entry ∈ values,
        (remapEntry toPort fromPort ∘ remapEntry fromPort toPort) entry = id entry := by
      intro entry hentry
      have hparam := hid entry hentry
      have hvalue : (remapEntry toPort fromPort (remapEntry fromPort toPort entry)).value =
          entry.value := by
        rw [remapEntry_value, remapEntry_value]
      split_ifs at hparam with hport
      · rw [hcanonical _ (List.mem_map_of_mem hentry) hport] at hparam
        exact Entry.ext hparam hvalue
      · exact Entry.ext hparam hvalue
    exact (List.map_congr_left hself).trans (List.map_id values)

structure RemapsExactly (values : List (Entry α)) (fromPort toPort : ℕ)
    (known : Option (List Text)) : Prop where
  distinct : (ids (remapPresetSerialPort values fromPort toPort known).values).Nodup
  payload : (remapPresetSerialPort values fromPort toPort known).values.map Entry.value =
    values.map Entry.value
  kept : ∀ (i : ℕ) entry, values[i]? = some entry →
    serialPortIndexOf entry.paramId ≠ some fromPort →
      (remapPresetSerialPort values fromPort toPort known).values[i]? = some entry
  restored : (∀ a ∈ ids values, serialPortIndexOf a ≠ some toPort) →
    (remapPresetSerialPort (remapPresetSerialPort values fromPort toPort known).values
      toPort fromPort none).values = values

/-- No new name is taken, and where the remap can be undone the names are canonical. -/
def CanRemap (values : List (Entry α)) (fromPort toPort : ℕ) : Prop :=
  fromPort = toPort ∨ NoClash (ids values) fromPort toPort ∧
    ((∀ a ∈ ids values, serialPortIndexOf a ≠ some toPort) → Canonical values fromPort)

/-- A remap does what it promises exactly if no id takes a name that another one has or gets, and,
where nothing is on the target port, the ids of the source port have no leading zeros. -/
theorem remapsExactly_iff {values : List (Entry α)} (hids : (ids values).Nodup)
    (fromPort toPort : ℕ) (known : Option (List Text)) :
    RemapsExactly values fromPort toPort known ↔ CanRemap values fromPort toPort := by
  by_cases hne : fromPort = toPort
  · refine iff_of_true ?_ (Or.inl hne)
    have hsame : ∀ known, (remapPresetSerialPort values fromPort toPort known).values = values := by
      intro known
      rw [remapPresetSerialPort, if_pos hne]
    constructor
    · rw [hsame]
      exact hids
    · rw [hsame]
    · intro i entry hentry _
      rw [hsame, hentry]
    · intro _
      rw [hsame, remapPresetSerialPort, if_pos hne.symm]
  · have hvalues := values_remap hne values known
    constructor
    · intro h
      refine Or.inr ⟨?_, fun hfree => ?_⟩
      · rw [← nodup_remapId_iff hids hne, ← ids_map_remapEntry, ← hvalues]
        exact h.distinct
      · rw [← restored_iff hfree, ← hvalues]
        exact (values_remap (Ne.symm hne) _ none).symm.trans (h.restored hfree)
    · intro h
      obtain ⟨hclash, hcanonical⟩ := h.resolve_left hne
      constructor
      · rw [hvalues, ids_map_remapEntry, nodup_remapId_iff hids hne]
        exact hclash
      · rw [hvalues, List.map_map]
        exact List.map_congr_left fun entry _ => remapEntry_value fromPort toPort entry
      · intro i entry hentry hport
        rw [hvalues, List.getElem?_map, hentry, Option.map_some, remapEntry, onPort,
          if_neg (by simpa using hport)]
      · intro hfree
        rw [values_remap (Ne.symm hne), hvalues]
        exact (restored_iff hfree).mpr (hcanonical hfree)

theorem remapsExactly_single :
    RemapsExactly [⟨units "SERIAL3_BAUD", 57⟩] 3 4 none ↔
      CanRemap [⟨units "SERIAL3_BAUD", 57⟩] 3 4 := by
  have hids : (ids [⟨units "SERIAL3_BAUD", 57⟩]).Nodup := List.nodup_singleton _
  exact remapsExactly_iff hids 3 4 none

/-- A preset that holds both ports: the ids of the first become those of the second. -/
theorem remap_duplicates_ids :
    ¬ ∀ (values : List (Entry ℕ)) (fromPort toPort : ℕ) (known : Option (List Text)),
      (ids values).Nodup → RemapsExactly values fromPort toPort known := by
  intro h
  have hexact := h [⟨units "SERIAL3_BAUD", 57⟩, ⟨units "SERIAL4_BAUD", 115⟩] 3 4 none (by decide)
  have hdistinct := hexact.distinct
  revert hdistinct
  decide +kernel

end ArduConfigurator.ViewModels.SerialRemap
