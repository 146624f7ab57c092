import PrintAgent.Lib.JsonCut

/-!
# The configuration file

`config.py`.  A dataclass does not check its fields, so they are what the file says.

* `LoadedConfig`             the fields as they are in the file;
* `LoadedConfig.load_save`   what is saved is loaded, and `LoadedConfig.load_cut`: a file that is cut has no id;
* `AgentConfig`              the fields where each is a text or `None`, as they are declared (`ofValues`).
-/

namespace PrintAgent

open PyJson (Str Value Limits LoadError)

/-- what `load_config` returns -/
structure LoadedConfig where
  agentId : Value
  hubUrl : Value
  logLevel : Value
  allowedDocumentHost : Value

inductive ConfigExc where
  | loads (e : LoadError)
  /-- the file holds something that has no `items` -/
  | attributeError
  /-- a field is neither a text nor `None` -/
  | illTyped
  deriving DecidableEq, Repr

namespace LoadedConfig

/-- `AgentConfig()` -/
def unpaired : LoadedConfig where
  agentId := .null
  hubUrl := .null
  logLevel := .str (Str.ofString "INFO")
  allowedDocumentHost := .null

def asdict (config : LoadedConfig) : List (Str × Value) :=
  [(Str.ofString "agentId", config.agentId), (Str.ofString "hubUrl", config.hubUrl),
    (Str.ofString "logLevel", config.logLevel),
    (Str.ofString "allowedDocumentHost", config.allowedDocumentHost)]

/-- the text that `save_config` writes -/
def save (config : LoadedConfig) : Str := (Value.obj config.asdict).encode (.indent 2) 0

/-- a field: its default where the file does not have it -/
def field (members : List (Str × Value)) (name : String) (default : Value) : Value :=
  (Value.getItem members (Str.ofString name)).getD default

/-- `AgentConfig(**known)` -/
def ofMembers (members : List (Str × Value)) : LoadedConfig where
  agentId := field members "agentId" unpaired.agentId
  hubUrl := field members "hubUrl" unpaired.hubUrl
  logLevel := field members "logLevel" unpaired.logLevel
  allowedDocumentHost := field members "allowedDocumentHost" unpaired.allowedDocumentHost

/-- `load_config`, from the text of the file if there is one -/
def load (limits : Limits) : Option Str → Except ConfigExc LoadedConfig
  | none => .ok unpaired
  | some text =>
    match PyJson.loads limits (.text text) with
    | .error .jsonDecodeError => .ok unpaired
    | .error e => .error (.loads e)
    | .ok (.obj members) => .ok (ofMembers members)
    | .ok _ => .error .attributeError

/-- the reader joins surrogates that are a pair -/
def joined (config : LoadedConfig) : LoadedConfig where
  agentId := config.agentId.joined
  hubUrl := config.hubUrl.joined
  logLevel := config.logLevel.joined
  allowedDocumentHost := config.allowedDocumentHost.joined

structure Fits (limits : Limits) (config : LoadedConfig) : Prop where
  agentId : config.agentId.Fits limits 1
  hubUrl : config.hubUrl.Fits limits 1
  logLevel : config.logLevel.Fits limits 1
  allowedDocumentHost : config.allowedDocumentHost.Fits limits 1

section Saved
variable {limits : Limits} {config : LoadedConfig}

theorem Fits.asdict (hlimit : 0 < limits.recursionLimit) (h : config.Fits limits) :
    (Value.obj config.asdict).Fits limits 0 := by
  refine ⟨hlimit, ?_, h.agentId, h.hubUrl, h.logLevel, h.allowedDocumentHost, trivial⟩
  show [(Str.ofString "agentId").joined, (Str.ofString "hubUrl").joined,
    (Str.ofString "logLevel").joined, (Str.ofString "allowedDocumentHost").joined].Nodup
  decide

/-- **What is saved is loaded.** -/
theorem load_save (hlimit : 0 < limits.recursionLimit) (h : config.Fits limits) :
    load limits (some config.save) = .ok config.joined := by
  rw [load, save, PyJson.loads_encode (.indent 2) (h.asdict hlimit)]
  rfl

/-- **A file that is cut is no JSON**: if anything is loaded, it has no id. -/
theorem load_cut (hlimit : 0 < limits.recursionLimit) (h : config.Fits limits) {written : Nat}
    (hcut : written < config.save.length) {loaded : LoadedConfig}
    (hload : load limits (some (config.save.take written)) = .ok loaded) : loaded.agentId = .null := by
  have hne : config.save.take written ≠ config.save := by
    intro he
    have hlength := congrArg List.length he
    rw [List.length_take] at hlength
    omega
  rw [load] at hload
  cases hloads : PyJson.loads limits (.text (config.save.take written)) with
  | ok value => exact absurd hloads (PyJson.loads_cut (.indent 2) (h.asdict hlimit) (List.take_prefix _ _) hne value)
  | error e =>
    simp only [hloads] at hload
    cases e with
    | jsonDecodeError =>
      cases hload
      rfl
    | _ => cases hload

end Saved

end LoadedConfig

structure AgentConfig where
  agentId : Option Str := none
  hubUrl : Option Str := none
  logLevel : Option Str := some (Str.ofString "INFO")
  allowedDocumentHost : Option Str := none
  deriving DecidableEq, Repr

/-- `is_paired`: `bool(self.agentId and self.hubUrl)` -/
def AgentConfig.isPaired (config : AgentConfig) : Bool := (config.agentId.getD []) ≠ [] && (config.hubUrl.getD []) ≠ []

/-- `None` is `null` -/
def fieldValue (v : Option Str) : Value := v.elim .null .str

def textOrNone : Value → Except ConfigExc (Option Str)
  | .null => .ok none
  | .str s => .ok (some s)
  | _ => .error .illTyped

namespace AgentConfig

/-- `AgentConfig()` -/
def unpaired : AgentConfig := {}

def values (config : AgentConfig) : LoadedConfig where
  agentId := fieldValue config.agentId
  hubUrl := fieldValue config.hubUrl
  logLevel := fieldValue config.logLevel
  allowedDocumentHost := fieldValue config.allowedDocumentHost

/-- the fields that are declared, if they are of the types that are declared -/
def ofValues (loaded : LoadedConfig) : Except ConfigExc AgentConfig := do
  return {
    agentId := ← textOrNone loaded.agentId
    hubUrl := ← textOrNone loaded.hubUrl
    logLevel := ← textOrNone loaded.logLevel
    allowedDocumentHost := ← textOrNone loaded.allowedDocumentHost }

def save (config : AgentConfig) : Str := config.values.save

/-- `load_config` of a file whose fields are texts -/
def load (limits : Limits) (file : Option Str) : Except ConfigExc AgentConfig := do
  ofValues (← LoadedConfig.load limits file)

/-- the reader joins surrogates that are a pair -/
def joined (config : AgentConfig) : AgentConfig where
  agentId := config.agentId.map Str.joined
  hubUrl := config.hubUrl.map Str.joined
  logLevel := config.logLevel.map Str.joined
  allowedDocumentHost := config.allowedDocumentHost.map Str.joined

theorem fits_fieldValue (limits : Limits) (v : Option Str) : (fieldValue v).Fits limits 1 := by
  cases v <;> trivial

theorem joined_fieldValue (v : Option Str) : (fieldValue v).joined = fieldValue (v.map Str.joined) := by
  cases v <;> rfl

theorem textOrNone_fieldValue (v : Option Str) : textOrNone (fieldValue v) = .ok v := by
  cases v <;> rfl

theorem fits_values (limits : Limits) (config : AgentConfig) : config.values.Fits limits where
  agentId := fits_fieldValue limits config.agentId
  hubUrl := fits_fieldValue limits config.hubUrl
  logLevel := fits_fieldValue limits config.logLevel
  allowedDocumentHost := fits_fieldValue limits config.allowedDocumentHost

theorem joined_values (config : AgentConfig) : config.values.joined = config.joined.values := by
  unfold values LoadedConfig.joined
  rw [joined_fieldValue, joined_fieldValue, joined_fieldValue, joined_fieldValue]
  rfl

theorem ofValues_values (config : AgentConfig) : ofValues config.values = .ok config := by
  unfold ofValues values
  rw [textOrNone_fieldValue, textOrNone_fieldValue, textOrNone_fieldValue, textOrNone_fieldValue]
  rfl

theorem load_save {limits : Limits} (hlimit : 0 < limits.recursionLimit) (config : AgentConfig) :
    load limits (some config.save) = .ok config.joined := by
  rw [load, save, LoadedConfig.load_save hlimit (fits_values limits config), joined_values]
  exact ofValues_values config.joined

end AgentConfig

end PrintAgent
