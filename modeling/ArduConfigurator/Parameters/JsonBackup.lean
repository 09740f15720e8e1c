import ArduConfigurator.Lib.JsonRoundTrip
import ArduConfigurator.Parameters.TextRoundTrip

/-! # Backups in JSON

A backup written as JSON and read again. The values of the parameters are any numbers, as a vehicle
may report them; the format has no text for the ones that are infinite or not a number, and a
backup with one of those is refused. -/
namespace ArduConfigurator.Parameters
set_option autoImplicit false

/-! ## The file -/

def valued : List (String × Option Json) → List (Text × Json)
  | [] => []
  | (_, none) :: fields => valued fields
  | (name, some j) :: fields => (units name, j) :: valued fields

def ofFields (fields : List (String × Option Json)) : Json := .object (valued fields)

def textJson (t : Option Text) : Option Json := t.map .string

def natJson (n : Option ℕ) : Option Json := n.map fun k : ℕ => .number (JsNumber.ofInt k)

def ParameterBackupEntry.toJson (entry : ParameterBackupEntry) : Json :=
  ofFields
    [("id", some (.string entry.id)),
     ("value", some (.number entry.value)),
     ("category", textJson entry.category),
     ("label", textJson entry.label),
     ("unit", textJson entry.unit)]

def BackupVehicle.toJson (vehicle : BackupVehicle) : Json :=
  ofFields
    [("firmware", textJson vehicle.firmware),
     ("vehicle", textJson vehicle.vehicle),
     ("systemId", natJson vehicle.systemId),
     ("componentId", natJson vehicle.componentId),
     ("flightMode", textJson vehicle.flightMode)]

def BackupHardware.toJson (hardware : BackupHardware) : Json :=
  ofFields
    [("boardVersion", natJson hardware.boardVersion),
     ("boardType", natJson hardware.boardType),
     ("vendorId", natJson hardware.vendorId),
     ("productId", natJson hardware.productId),
     ("uid", textJson hardware.uid)]

def ParameterBackupFile.fields (backup : ParameterBackupFile) : List (String × Option Json) :=
  [("schemaVersion", natJson (some 1)),
   ("application", textJson (some (units "ArduConfigurator"))),
   ("appVersion", textJson backup.appVersion),
   ("appGitHash", textJson backup.appGitHash),
   ("appGitBranch", textJson backup.appGitBranch),
   ("firmware", textJson backup.firmware),
   ("firmwareVersion", textJson backup.firmwareVersion),
   ("firmwareGitHash", textJson backup.firmwareGitHash),
   ("exportedAt", textJson backup.exportedAt),
   ("parameterCount", natJson backup.parameterCount),
   ("vehicle", backup.vehicle.map BackupVehicle.toJson),
   ("hardware", backup.hardware.map BackupHardware.toJson),
   ("parameters", some (.array (backup.parameters.map ParameterBackupEntry.toJson)))]

def ParameterBackupFile.toJson (backup : ParameterBackupFile) : Json := ofFields backup.fields

def serializeParameterBackup (backup : ParameterBackupFile) : Text :=
  Json.stringify backup.toJson

/-! ## The schema -/

def textField (value : Json) (key : String) : Option Text := (value.get key).bind Json.text?

def numberField (value : Json) (key : String) : Option JsNumber :=
  (value.get key).bind Json.number?

def itemsField (value : Json) (key : String) : Option (List Json) :=
  (value.get key).bind Json.items?

def isParameterBackupEntry (entry : Json) : Bool :=
  entry.isObject && (textField entry "id").isSome && (numberField entry "value").isSome

def isParameterBackupFile (value : Json) : Bool :=
  value.isObject && (numberField value "schemaVersion").any (equal 1) &&
    textField value "application" = some (units "ArduConfigurator") &&
    (itemsField value "parameters").any (·.all isParameterBackupEntry)

/-! ## Reading

A field of another kind than its type says, which the schema does not look at, is left out. -/

def natField (value : Json) (key : String) : Option ℕ :=
  (numberField value key).bind fun x => x.toInt?.map Int.toNat

def readEntry (entry : Json) : Option ParameterBackupEntry :=
  match textField entry "id", numberField entry "value" with
  | some id, some value => some
    { id := id
      value := value
      category := textField entry "category"
      label := textField entry "label"
      unit := textField entry "unit" }
  | _, _ => none

def readVehicle (value : Json) : BackupVehicle where
  firmware := (textField value "firmware").getD []
  vehicle := (textField value "vehicle").getD []
  systemId := (natField value "systemId").getD 0
  componentId := (natField value "componentId").getD 0
  flightMode := (textField value "flightMode").getD []

def readHardware (value : Json) : BackupHardware where
  boardVersion := natField value "boardVersion"
  boardType := natField value "boardType"
  vendorId := natField value "vendorId"
  productId := natField value "productId"
  uid := textField value "uid"

def readBackup (value : Json) : ParameterBackupFile where
  appVersion := textField value "appVersion"
  appGitHash := textField value "appGitHash"
  appGitBranch := textField value "appGitBranch"
  firmware := (textField value "firmware").getD []
  firmwareVersion := textField value "firmwareVersion"
  firmwareGitHash := textField value "firmwareGitHash"
  exportedAt := (textField value "exportedAt").getD []
  parameterCount := (natField value "parameterCount").getD 0
  vehicle := (value.get "vehicle").map readVehicle
  hardware := (value.get "hardware").map readHardware
  parameters := ((itemsField value "parameters").getD []).filterMap readEntry

def JSON_SCHEMA_MESSAGE : Text :=
  units "Backup file does not match the expected ArduConfigurator parameter backup schema."

/-- The part of `parseParameterBackup` that reads JSON, up to the sort. What the engine says of a
text that is no JSON is a parameter. -/
def parseJsonBackup (syntaxMessage : Text → Text) (input : Text) :
    Except Text ParameterBackupFile :=
  match Json.parse input with
  | none => .error (units "Backup file is not valid JSON: " ++ syntaxMessage input)
  | some parsed =>
    if isParameterBackupFile parsed then .ok (readBackup parsed) else .error JSON_SCHEMA_MESSAGE

/-! ## Live values -/

structure LiveSnapshot where
  vehicle : Option BackupVehicle
  board : Option SnapshotBoard
  parameters : List ParameterState
  doubles : ∀ p ∈ parameters, p.value.IsDouble

def isExportable (options : ParameterBackupExportOptions) (p : ParameterState) : Bool :=
  !isSnapshotExcludedParameterState p && options.includeParamIds.all (fun ids => ids.contains p.id) &&
    !inCategories options.excludeCategories p.id

section
variable (localeCompare : Text → Text → ℤ)

def LiveSnapshot.createParameterBackup (snapshot : LiveSnapshot) (appInfo : ParameterBackupAppInfo)
    (options : ParameterBackupExportOptions) (now : Text) : ParameterBackupFile :=
  let exportableParameters := sortEntries localeCompare
    ((snapshot.parameters.filter (isExportable options)).map ParameterState.entry)
  { appVersion := appInfo.appVersion
    appGitHash := appInfo.appGitHash
    appGitBranch := appInfo.appGitBranch
    firmware := (snapshot.vehicle.map (·.vehicle)).getD (units "Unknown")
    firmwareVersion := snapshot.board.bind (·.firmwareVersion)
    firmwareGitHash := snapshot.board.bind (·.firmwareGitHash)
    exportedAt := now
    parameterCount := exportableParameters.length
    vehicle := snapshot.vehicle
    hardware := snapshot.board.map (·.toBackupHardware)
    parameters := exportableParameters }

end

/-- The entries that are read are, in some order, those that were written, with the same ids and
values. -/
def SameValues (written back : List ParameterBackupEntry) : Prop :=
  ∃ entries, back.Perm entries ∧
    List.Forall₂ (fun e e' => e'.id = e.id ∧ equal e'.value e.value = true) written entries

/-- The text of a backup is read as a backup with the same ids and values. -/
def JsonRoundTrips (localeCompare : Text → Text → ℤ) (syntaxMessage : Text → Text)
    (backup : ParameterBackupFile) (later : Text) : Prop :=
  ∃ back, parseParameterBackup localeCompare (parseJsonBackup syntaxMessage)
      (serializeParameterBackup backup) later = .ok back ∧
    SameValues backup.parameters back.parameters

/-! ## What is written -/

theorem get_ofFields_self (key : String) (j : Json) (fields : List (String × Option Json)) :
    (ofFields ((key, some j) :: fields)).get key = some j := by
  rw [ofFields, valued, Json.get, Entries.get_cons, if_pos rfl]

theorem get_ofFields_of_ne (name key : String) (h : units name ≠ units key) (j : Option Json)
    (fields : List (String × Option Json)) :
    (ofFields ((name, j) :: fields)).get key = (ofFields fields).get key := by
  cases j with
  | none => rw [ofFields, valued, ofFields]
  | some j =>
    rw [ofFields, valued, Json.get, Entries.get_cons, if_neg h]
    rfl

theorem keys_valued (fields : List (String × Option Json)) :
    (Entries.keys (valued fields)).Sublist (fields.map fun f => units f.1) := by
  induction fields with
  | nil => exact List.Sublist.slnil
  | cons f fields ih =>
    obtain ⟨name, j⟩ := f
    cases j with
    | none => exact ih.cons _
    | some j => exact ih.cons_cons _

theorem sound_ofFields {fields : List (String × Option Json)}
    (hkeys : (fields.map fun f => units f.1).Nodup)
    (h : ∀ f ∈ fields, ∀ j ∈ f.2, j.Sound) : (ofFields fields).Sound := by
  refine .object (hkeys.sublist (keys_valued fields)) ?_
  clear hkeys
  induction fields with
  | nil =>
    intro f hf
    cases hf
  | cons f fields ih =>
    obtain ⟨hf, hfields⟩ := List.forall_mem_cons.mp h
    obtain ⟨name, j⟩ := f
    cases j with
    | none => exact ih hfields
    | some j => exact List.forall_mem_cons.mpr ⟨hf j rfl, ih hfields⟩

theorem sound_textJson (t : Option Text) : ∀ j ∈ textJson t, j.Sound := by
  intro j hj
  obtain ⟨t, -, rfl⟩ := Option.map_eq_some_iff.mp hj
  exact .string t

theorem isDouble_ofInt (i : ℤ) : (JsNumber.ofInt i).IsDouble :=
  JsNumber.isDouble_nearestDouble _ _

theorem sound_natJson (n : Option ℕ) : ∀ j ∈ natJson n, j.Sound := by
  intro j hj
  obtain ⟨n, -, rfl⟩ := Option.map_eq_some_iff.mp hj
  exact .number (isDouble_ofInt n)

theorem sound_some {j : Json} (h : j.Sound) : ∀ i ∈ some j, i.Sound := by
  intro i hi
  rw [← Option.some_inj.mp hi]
  exact h

theorem sound_entry {entry : ParameterBackupEntry} (h : entry.value.IsDouble) :
    entry.toJson.Sound := by
  have hkeys : (["id", "value", "category", "label", "unit"].map units).Nodup := by decide
  refine sound_ofFields hkeys ?_
  simp only [List.forall_mem_cons]
  exact ⟨sound_some (.string _), sound_some (.number h), sound_textJson _, sound_textJson _,
    sound_textJson _, by simp⟩

theorem sound_vehicle (vehicle : BackupVehicle) : vehicle.toJson.Sound := by
  have hkeys :
      (["firmware", "vehicle", "systemId", "componentId", "flightMode"].map units).Nodup := by
    decide
  refine sound_ofFields hkeys ?_
  simp only [List.forall_mem_cons]
  exact ⟨sound_textJson _, sound_textJson _, sound_natJson _, sound_natJson _, sound_textJson _,
    by simp⟩

theorem sound_hardware (hardware : BackupHardware) : hardware.toJson.Sound := by
  have hkeys :
      (["boardVersion", "boardType", "vendorId", "productId", "uid"].map units).Nodup := by
    decide
  refine sound_ofFields hkeys ?_
  simp only [List.forall_mem_cons]
  exact ⟨sound_natJson _, sound_natJson _, sound_natJson _, sound_natJson _, sound_textJson _,
    by simp⟩

theorem sound_backup {backup : ParameterBackupFile}
    (h : ∀ e ∈ backup.parameters, e.value.IsDouble) : backup.toJson.Sound := by
  have hkeys : (["schemaVersion", "application", "appVersion", "appGitHash", "appGitBranch",
      "firmware", "firmwareVersion", "firmwareGitHash", "exportedAt", "parameterCount", "vehicle",
      "hardware", "parameters"].map units).Nodup := by
    decide
  have hvehicle : ∀ j ∈ backup.vehicle.map BackupVehicle.toJson, j.Sound := by
    intro j hj
    obtain ⟨vehicle, -, rfl⟩ := Option.map_eq_some_iff.mp hj
    exact sound_vehicle vehicle
  have hhardware : ∀ j ∈ backup.hardware.map BackupHardware.toJson, j.Sound := by
    intro j hj
    obtain ⟨hardware, -, rfl⟩ := Option.map_eq_some_iff.mp hj
    exact sound_hardware hardware
  have hparameters : (Json.array (backup.parameters.map ParameterBackupEntry.toJson)).Sound := by
    refine .array fun j hj => ?_
    obtain ⟨e, he, rfl⟩ := List.mem_map.mp hj
    exact sound_entry (h e he)
  refine sound_ofFields hkeys ?_
  simp only [ParameterBackupFile.fields, List.forall_mem_cons]
  exact ⟨sound_natJson _, sound_textJson _, sound_textJson _, sound_textJson _, sound_textJson _,
    sound_textJson _, sound_textJson _, sound_textJson _, sound_textJson _, sound_natJson _,
    hvehicle, hhardware, sound_some hparameters, by simp⟩

/-! ## What is read -/

theorem textField_norm (j : Json) (key : String) : textField j.norm key = textField j key := by
  rw [textField, Json.get_norm, textField]
  cases j.get key with
  | none => rfl
  | some v => exact Json.text?_norm v

theorem numberField_norm (j : Json) (key : String) :
    numberField j.norm key =
      ((numberField j key).filter fun x => x.isFinite).map JsNumber.mapKey := by
  rw [numberField, Json.get_norm, numberField]
  cases j.get key with
  | none => rfl
  | some v => exact Json.number?_norm v

theorem itemsField_norm (j : Json) (key : String) :
    itemsField j.norm key = (itemsField j key).map (·.map Json.norm) := by
  rw [itemsField, Json.get_norm, itemsField]
  cases j.get key with
  | none => rfl
  | some v => exact Json.items?_norm v

theorem textField_id (entry : ParameterBackupEntry) :
    textField entry.toJson "id" = some entry.id := by
  rw [textField, ParameterBackupEntry.toJson, get_ofFields_self]
  rfl

theorem numberField_value (entry : ParameterBackupEntry) :
    numberField entry.toJson "value" = some entry.value := by
  rw [numberField, ParameterBackupEntry.toJson, get_ofFields_of_ne _ _ (by decide), get_ofFields_self]
  rfl

theorem isParameterBackupEntry_norm (entry : ParameterBackupEntry) :
    isParameterBackupEntry entry.toJson.norm = isFinite entry.value := by
  rw [isParameterBackupEntry, Json.isObject_norm, textField_norm, numberField_norm, textField_id,
    numberField_value]
  cases entry.value <;> rfl

theorem numberField_schemaVersion (backup : ParameterBackupFile) :
    numberField backup.toJson "schemaVersion" = some (JsNumber.ofInt 1) := by
  rw [numberField, ParameterBackupFile.toJson, ParameterBackupFile.fields, natJson, Option.map_some,
    get_ofFields_self]
  rfl

theorem textField_application (backup : ParameterBackupFile) :
    textField backup.toJson "application" = some (units "ArduConfigurator") := by
  rw [textField, ParameterBackupFile.toJson, ParameterBackupFile.fields,
    get_ofFields_of_ne _ _ (by decide), textJson, Option.map_some, get_ofFields_self]
  rfl

theorem itemsField_parameters (backup : ParameterBackupFile) :
    itemsField backup.toJson "parameters" =
      some (backup.parameters.map ParameterBackupEntry.toJson) := by
  rw [itemsField, ParameterBackupFile.toJson, ParameterBackupFile.fields]
  simp only [get_ofFields_of_ne "schemaVersion" "parameters" (by decide),
    get_ofFields_of_ne "application" "parameters" (by decide),
    get_ofFields_of_ne "appVersion" "parameters" (by decide),
    get_ofFields_of_ne "appGitHash" "parameters" (by decide),
    get_ofFields_of_ne "appGitBranch" "parameters" (by decide),
    get_ofFields_of_ne "firmware" "parameters" (by decide),
    get_ofFields_of_ne "firmwareVersion" "parameters" (by decide),
    get_ofFields_of_ne "firmwareGitHash" "parameters" (by decide),
    get_ofFields_of_ne "exportedAt" "parameters" (by decide),
    get_ofFields_of_ne "parameterCount" "parameters" (by decide),
    get_ofFields_of_ne "vehicle" "parameters" (by decide),
    get_ofFields_of_ne "hardware" "parameters" (by decide), get_ofFields_self]
  rfl

theorem equal_version : equal 1 (JsNumber.mapKey (JsNumber.ofInt 1)) = true := by decide +kernel

theorem isFinite_version : (JsNumber.ofInt 1).isFinite = true := by decide +kernel

theorem isParameterBackupFile_norm (backup : ParameterBackupFile) :
    isParameterBackupFile backup.toJson.norm =
      backup.parameters.all fun entry => isFinite entry.value := by
  have hobject : backup.toJson.norm.isObject = true := by rw [Json.isObject_norm]; rfl
  have hversion : (numberField backup.toJson.norm "schemaVersion").any (equal 1) = true := by
    rw [numberField_norm, numberField_schemaVersion, Option.filter_some, if_pos isFinite_version]
    exact equal_version
  have happlication : textField backup.toJson.norm "application" =
      some (units "ArduConfigurator") := by
    rw [textField_norm, textField_application]
  have hentries : (itemsField backup.toJson.norm "parameters").any
      (·.all isParameterBackupEntry) = backup.parameters.all fun e => isFinite e.value := by
    rw [itemsField_norm, itemsField_parameters, Option.map_some, Option.any_some, List.map_map,
      List.all_map]
    congr 1
    funext entry
    exact isParameterBackupEntry_norm entry
  rw [isParameterBackupFile, hobject, hversion, happlication, hentries]
  simp

theorem mapKey_equal {x : JsNumber} (h : isFinite x = true) : equal x.mapKey x = true := by
  cases x with
  | nan => cases h
  | infinite n => cases h
  | finite n q =>
    refine equal_finite.mpr ?_
    by_cases hzero : q = 0
    · subst hzero
      cases n <;> simp [JsNumber.signed]
    · simp [hzero]

theorem readBackup_entries (backup : ParameterBackupFile)
    (h : ∀ e ∈ backup.parameters, isFinite e.value = true) :
    List.Forall₂ (fun e e' => e'.id = e.id ∧ equal e'.value e.value = true) backup.parameters
      (readBackup backup.toJson.norm).parameters := by
  have hread : (readBackup backup.toJson.norm).parameters =
      (backup.parameters.map fun e => e.toJson.norm).filterMap readEntry := by
    simp only [readBackup]
    rw [itemsField_norm, itemsField_parameters, Option.map_some, Option.getD_some, List.map_map]
    rfl
  rw [hread]
  clear hread
  revert h
  generalize backup.parameters = entries
  intro h
  induction entries with
  | nil => exact .nil
  | cons e entries ih =>
    obtain ⟨he, hentries⟩ := List.forall_mem_cons.mp h
    have hid : textField e.toJson.norm "id" = some e.id := by rw [textField_norm, textField_id]
    have hvalue : numberField e.toJson.norm "value" = some e.value.mapKey := by
      have hfinite : e.value.isFinite = true := by
        cases hv : e.value <;> simp_all [isFinite, JsNumber.isFinite]
      rw [numberField_norm, numberField_value, Option.filter_some, if_pos hfinite]
      rfl
    rw [List.map_cons, List.filterMap_cons, readEntry, hid, hvalue]
    exact .cons ⟨rfl, mapKey_equal he⟩ (ih hentries)

/-! ## The round trip -/

section
variable {localeCompare : Text → Text → ℤ} {syntaxMessage : Text → Text}
  {backup : ParameterBackupFile} {later : Text}

theorem sortEntries_perm (entries : List ParameterBackupEntry) :
    (sortEntries localeCompare entries).Perm entries := List.perm_insertionSort _ _

theorem parse_serialized (h : ∀ e ∈ backup.parameters, e.value.IsDouble) :
    parseParameterBackup localeCompare (parseJsonBackup syntaxMessage)
        (serializeParameterBackup backup) later =
      if isParameterBackupFile backup.toJson.norm then
        .ok { readBackup backup.toJson.norm with
          parameters := sortEntries localeCompare (readBackup backup.toJson.norm).parameters }
      else .error JSON_SCHEMA_MESSAGE := by
  obtain ⟨rest, hrest⟩ : ∃ rest, serializeParameterBackup backup = Json.LBRACE :: rest := by
    refine ⟨(serializeParameterBackup backup).tail, ?_⟩
    rw [serializeParameterBackup, ParameterBackupFile.toJson, ParameterBackupFile.fields, ofFields,
      natJson, Option.map_some, valued, Json.stringify, Json.write]
    rfl
  have hbrace : (units "\x7b").isPrefixOf
      ((serializeParameterBackup backup).dropWhile isWhiteSpace) = true := by
    rw [hrest, List.dropWhile_cons_of_neg (by decide)]
    rfl
  have hparse : Json.parse (serializeParameterBackup backup) = some backup.toJson.norm :=
    Json.parse_stringify (sound_backup h)
  rw [parseParameterBackup, if_pos (.inl hbrace), parseJsonBackup, hparse]
  simp only
  split_ifs <;> rfl

theorem jsonRoundTrips_iff (h : ∀ e ∈ backup.parameters, e.value.IsDouble) :
    JsonRoundTrips localeCompare syntaxMessage backup later ↔
      ∀ e ∈ backup.parameters, isFinite e.value = true := by
  rw [JsonRoundTrips, parse_serialized h, isParameterBackupFile_norm]
  constructor
  · rintro ⟨back, hback, -⟩
    split_ifs at hback with hall
    exact List.all_eq_true.mp hall
  · intro hfinite
    rw [if_pos (List.all_eq_true.mpr hfinite)]
    exact ⟨_, rfl, _, sortEntries_perm _, readBackup_entries backup hfinite⟩

end

/-! ## Live values exported -/

section
variable {localeCompare : Text → Text → ℤ} {snapshot : LiveSnapshot}
  {appInfo : ParameterBackupAppInfo} {options : ParameterBackupExportOptions} {now : Text}

def ConfiguratorSnapshot.live (snapshot : ConfiguratorSnapshot)
    (h : ∀ p ∈ snapshot.table.parameters, p.value.IsDouble) : LiveSnapshot where
  vehicle := snapshot.vehicle
  board := snapshot.board
  parameters := snapshot.table.parameters
  doubles := h

theorem mem_createParameterBackup {e : ParameterBackupEntry} :
    e ∈ (snapshot.createParameterBackup localeCompare appInfo options now).parameters ↔
      ∃ p ∈ snapshot.parameters, isExportable options p = true ∧ p.entry = e := by
  rw [LiveSnapshot.createParameterBackup, (sortEntries_perm _).mem_iff, List.mem_map]
  simp only [List.mem_filter, and_assoc]

end

/-- The exported backup comes back just when every exported value is finite. -/
theorem json_round_trips_iff (localeCompare : Text → Text → ℤ) (syntaxMessage : Text → Text)
    (snapshot : LiveSnapshot) (appInfo : ParameterBackupAppInfo)
    (options : ParameterBackupExportOptions) (now later : Text) :
    JsonRoundTrips localeCompare syntaxMessage
        (snapshot.createParameterBackup localeCompare appInfo options now) later ↔
      ∀ p ∈ snapshot.parameters, isExportable options p = true → isFinite p.value = true := by
  have hdouble : ∀ e ∈ (snapshot.createParameterBackup localeCompare appInfo options
      now).parameters, e.value.IsDouble := by
    intro e he
    obtain ⟨p, hp, -, rfl⟩ := mem_createParameterBackup.mp he
    exact snapshot.doubles p hp
  rw [jsonRoundTrips_iff hdouble]
  constructor
  · intro h p hp hexported
    exact h p.entry (mem_createParameterBackup.mpr ⟨p, hp, hexported, rfl⟩)
  · intro h e he
    obtain ⟨p, hp, hexported, rfl⟩ := mem_createParameterBackup.mp he
    exact h p hp hexported

def nanSnapshot : LiveSnapshot where
  vehicle := none
  board := none
  parameters := [⟨units "ARMING_CHECK", JsNumber.ofInt 1, none, none⟩,
    ⟨units "INS_TCAL1_TMIN", .nan, none, none⟩]
  doubles := by
    simp only [List.forall_mem_cons]
    exact ⟨isDouble_ofInt 1, trivial, by simp⟩

/-- Its backup is refused. -/
theorem nan_backup_refused :
    ¬ ∀ (localeCompare : Text → Text → ℤ) (syntaxMessage : Text → Text) (snapshot : LiveSnapshot)
      (appInfo : ParameterBackupAppInfo) (options : ParameterBackupExportOptions)
      (now later : Text), JsonRoundTrips localeCompare syntaxMessage
        (snapshot.createParameterBackup localeCompare appInfo options now) later := by
  intro hall
  have hround := hall (fun _ _ => 0) (fun _ => []) nanSnapshot ⟨none, none, none⟩ .none [] []
  have hmem {p : ParameterState} (hp : p ∈ nanSnapshot.parameters)
      (hexported : isExportable .none p = true) : p.entry ∈
        (nanSnapshot.createParameterBackup (fun _ _ => 0) ⟨none, none, none⟩ .none []).parameters :=
    mem_createParameterBackup.mpr ⟨p, hp, hexported, rfl⟩
  have hfinite := (jsonRoundTrips_iff fun e he => by
    obtain ⟨p, hp, -, rfl⟩ := mem_createParameterBackup.mp he
    exact nanSnapshot.doubles p hp).mp hround _
      (hmem (List.mem_cons_of_mem _ List.mem_cons_self) (by decide))
  cases hfinite

end ArduConfigurator.Parameters
