import HamZaboon.Library.Table
import HamZaboon.Library.Ranking
import HamZaboon.Library.Runs
import Mathlib.Data.Rat.Defs
import Mathlib.Data.Prod.Lex
import Mathlib.Data.String.Basic

/-! # The preset registry

`services/db/preset_registry.py`: the table `ai_presets`, the shared keys of
`preset_groups`, and the two settings that name a preset.  A preset is renamed
by inserting a row under the new name and deleting the old one.  Every function
is one transaction: one that raises leaves the database as it was.
-/

namespace HamZaboon
open Library

/-- The columns an edit always overwrites, with their write defaults. -/
structure PresetColumns where
  baseUrl : String := ""
  model : String := ""
  apiKey : String := ""
  dailyBatchSize : Int := 6
  maxConcurrency : Int := 2
  maxRpm : Int := 30
  maxTpm : Int := 0
  maxDailyReq : Int := 0
  timeoutSeconds : Rat := 30
  temperature : Rat := 6 / 10
  maxOutputTokens : Int := 4096
  isEmergency : Bool := false
  inFallbackChain : Bool := true
  groupLabel : String := ""
  reasoningEffort : String := "none"
  deriving DecidableEq, Repr

/-- A row of `ai_presets`. -/
structure PresetRow extends PresetColumns where
  name : String
  priority : Int
  enabled : Bool
  inputCostPerMillion : Option Rat
  outputCostPerMillion : Option Rat
  deriving DecidableEq, Repr

/-- A row of `preset_groups`. -/
structure GroupKey where
  groupLabel : String
  apiKey : String
  deriving DecidableEq, Repr

/-- The tables and settings of the registry.  A setting without a row is `none`. -/
structure PresetStore where
  presets : KeyedTable String PresetRow (·.name)
  presetGroups : KeyedTable String GroupKey (·.groupLabel)
  aiPrimaryPreset : Option String
  aiFallbackPreset : Option String

/-- What the functions of the registry raise. -/
inductive PresetError
  | presetNameExists (name : String)
  | masterKeyRequired
  | lastEnabledPreset
  | rankOutOfRange (rank low high : Int)
  | notInGroup (name : String)
  deriving DecidableEq, Repr

/-- The text of the `ValueError`; `MasterKeyRequiredError` has its own. -/
def PresetError.message : PresetError → Option String
  | .presetNameExists name => some s!"preset name already exists: {name}"
  | .masterKeyRequired => none
  | .lastEnabledPreset => some "cannot disable the last enabled preset"
  | .rankOutOfRange rank low high => some s!"target_rank {rank} out of range [{low}, {high}]"
  | .notInGroup name => some s!"preset {name} not found in group"

/-- `VERSION_PREFIX`. -/
def versionTag : String := "v1:"

/-- `encrypt_for_storage`, under the master key's cipher where there is one. -/
def encryptForStorage (fernet : Option (String → String)) (value : String) :
    Except PresetError String :=
  if value = "" then .ok ""
  else if versionTag.toList.isPrefixOf value.toList then .ok value
  else
    match fernet with
    | none => .error .masterKeyRequired
    | some encrypt => .ok (versionTag ++ encrypt value)

/-- The arguments of `set_preset`. -/
structure SetPreset extends PresetColumns where
  name : String
  priority : Option Int := none
  enabled : Option Bool := none
  inputCostPerMillion : Option Rat := none
  outputCostPerMillion : Option Rat := none
  previousName : Option String := none
  removeOrphanedGroupKey : Bool := false
  deriving DecidableEq, Repr

namespace SetPreset

/-- `previous_name or name`. -/
def sourceName (call : SetPreset) : String :=
  match call.previousName with
  | none => call.name
  | some previous => if previous = "" then call.name else previous

/-- The name a call moves a preset away from: `previous_name and previous_name != name`. -/
def movesFrom (call : SetPreset) : Option String :=
  call.previousName.filter fun previous => previous ≠ "" && previous ≠ call.name

/-- The row that `INSERT` would add. -/
def newRow (call : SetPreset) (storedKey : String) : PresetRow :=
  { call.toPresetColumns with
    apiKey := storedKey
    name := call.name
    priority := call.priority.getD 0
    enabled := call.enabled.getD true
    inputCostPerMillion := call.inputCostPerMillion
    outputCostPerMillion := call.outputCostPerMillion }

/-- `DO UPDATE SET`: a value the caller does not give stays as it is. -/
def overwrite (call : SetPreset) (storedKey : String) (row : PresetRow) : PresetRow :=
  { call.toPresetColumns with
    apiKey := storedKey
    name := row.name
    priority := call.priority.getD row.priority
    enabled := call.enabled.getD row.enabled
    inputCostPerMillion := call.inputCostPerMillion.or row.inputCostPerMillion
    outputCostPerMillion := call.outputCostPerMillion.or row.outputCostPerMillion }

@[simp] theorem name_newRow (call : SetPreset) (key : String) :
    (call.newRow key).name = call.name := rfl

@[simp] theorem name_overwrite (call : SetPreset) (key : String) (row : PresetRow) :
    (call.overwrite key row).name = row.name := rfl

end SetPreset

namespace PresetStore

/-- The upsert and the `DELETE` of the old name. -/
def writeRow (s : PresetStore) (call : SetPreset) (storedKey : String) :
    KeyedTable String PresetRow (·.name) :=
  let presets := s.presets.upsert (call.newRow storedKey) (call.overwrite storedKey)
    (call.name_overwrite storedKey)
  match call.movesFrom with
  | none => presets
  | some previous => presets.deleteWhere fun row => row.name = previous

/-- The shared keys after an edit: that of a group the preset was the last member of goes. -/
def keptGroups (s : PresetStore) (call : SetPreset)
    (presets : KeyedTable String PresetRow (·.name)) :
    KeyedTable String GroupKey (·.groupLabel) :=
  let oldLabel := ((s.presets.lookup call.sourceName).map (·.groupLabel)).getD ""
  if call.removeOrphanedGroupKey && oldLabel ≠ "" && oldLabel ≠ call.groupLabel &&
      !presets.rows.any (fun row => row.groupLabel = oldLabel) then
    s.presetGroups.deleteWhere fun group => group.groupLabel = oldLabel
  else s.presetGroups

def setPreset (fernet : Option (String → String)) (s : PresetStore) (call : SetPreset) :
    Except PresetError PresetStore :=
  if call.movesFrom.isSome && s.presets.has call.name then
    .error (.presetNameExists call.name)
  else
    match encryptForStorage fernet call.apiKey with
    | .error e => .error e
    | .ok storedKey =>
      let presets := s.writeRow call storedKey
      .ok { s with presets := presets, presetGroups := s.keptGroups call presets }

/-- The setting after `UPDATE settings SET value='' WHERE value=name`. -/
def clearReference (name : String) (value : Option String) : Option String :=
  if value = some name then some "" else value

/-- `delete_preset`, with its result. -/
def deletePreset (s : PresetStore) (name : String) : PresetStore × Bool :=
  ({ s with
      presets := s.presets.deleteWhere fun row => row.name = name
      aiFallbackPreset := clearReference name s.aiFallbackPreset
      aiPrimaryPreset := clearReference name s.aiPrimaryPreset },
    s.presets.has name)

/-- The `UPDATE` of `set_preset_enabled`. -/
def writeEnabled (s : PresetStore) (name : String) (enabled : Bool) : PresetStore :=
  { s with
    presets := s.presets.updateWhere (fun row => row.name = name)
      (fun row => { row with enabled := enabled }) fun _ => rfl }

/-- `set_preset_enabled`: the last enabled preset is not disabled. -/
def setPresetEnabled (s : PresetStore) (name : String) (enabled : Bool) :
    Except PresetError PresetStore :=
  if !enabled && !s.presets.rows.any (fun row => row.enabled && row.name ≠ name) then
    .error .lastEnabledPreset
  else .ok (s.writeEnabled name enabled)

end PresetStore

end HamZaboon
