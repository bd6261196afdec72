import YangPartition.Error
import YangPartition.Settings.Basic
import YangPartition.Text.Casing
import YangPartition.Toml.Basic

/-!
# Reading settings

Settings stand in a table with one table for each section. Values are read with
goodwill: a number or truth value can be a text, a word or number a truth value,
and names may have any case. What has no meaning here is passed over.
-/

namespace YangPartition

/-! ### Values -/

namespace Toml

/-- The lower case of a text. -/
def lowered (s : String) : String := String.ofList (Text.lower s.toList)

mutual

/-- A value with all names in lower case. -/
def withLowNames : Toml → Toml
  | table members => table (lowNamed members)
  | v => v
termination_by structural v => v

/-- Members with all names in lower case. -/
def lowNamed : List (String × Toml) → NameMap Toml
  | [] => []
  | (name, v) :: rest => NameMap.insert (lowered name) v.withLowNames (lowNamed rest)
termination_by structural ms => ms

end

/-- A value as a text. -/
def asText? : Toml → Option String
  | text s => some s
  | integer n => some (toString n)
  | number x => some x.text
  | truth b => some (if b then "true" else "false")
  | array _ | table _ => none

/-- A value as a truth value. -/
def asTruth? : Toml → Option Bool
  | truth b => some b
  | integer n => some (n != 0)
  | number x => some !x.isZero
  | text s =>
    if ["true", "on", "yes", "1"].contains (lowered s) then some true
    else if ["false", "off", "no", "0"].contains (lowered s) then some false
    else none
  | array _ | table _ => none

/-- A value as texts. -/
def asTexts? : Toml → Option (List String)
  | array items => items.mapM asText?
  | _ => none

/-- The mode of a name. -/
def modeNamed? (name : String) : Option Mode :=
  if lowered name = Mode.declared.text then some .declared
  else if lowered name = Mode.full.text then some .full
  else none

/-- A value as a mode. -/
def asMode? : Toml → Option Mode
  | text s => modeNamed? s
  | table [(name, _)] => modeNamed? name
  | _ => none

end Toml

/-! ### Sections -/

/-- Reading gives a result or the reason why there is none. -/
abbrev SettingsReading := Except Error

/-- The value of a name in a section, or else what it is without one. -/
def Toml.setting {α : Type} (t : Toml) (name : String) (read : Toml → Option α) (default : α) :
    SettingsReading α :=
  match t.member? name with
  | none => .ok default
  | some v =>
    match read v with
    | some a => .ok a
    | none => .error (.settings s!"wrong value for {name}")

/-- The section of a name. -/
def Toml.section (t : Toml) (name : String) : SettingsReading Toml :=
  t.setting name (fun v => match v with | .table _ => some v | _ => none) (.table [])

/-- The settings of the output in a section. -/
def OutputSettings.read (t : Toml) : SettingsReading OutputSettings := do
  let d : OutputSettings := {}
  return {
    directory := ← t.setting "dir" Toml.asText? d.directory
    package := ← t.setting "package_name" Toml.asText? d.package
    version := ← t.setting "version" Toml.asText? d.version
    apiGroup := ← t.setting "api_group" Toml.asText? d.apiGroup
    leading := ← t.setting "prefix" Toml.asText? d.leading
    templateDirectory? := ← t.setting "template_dir" (·.asText?.map some) none
    emitsSchema := ← t.setting "emit_schema" Toml.asTruth? d.emitsSchema
    emitsApi := ← t.setting "emit_api" Toml.asTruth? d.emitsApi }

/-- The settings in a table. -/
def Settings.read (t : Toml) : SettingsReading Settings := do
  let schema ← t.section "schema"
  let resources ← t.section "resources"
  return {
    importLocations := ← schema.setting "import_dirs" Toml.asTexts? []
    moduleLocations := ← schema.setting "module_dirs" Toml.asTexts? []
    mapFile? := ← resources.setting "map_file" (·.asText?.map some) none
    mode := ← resources.setting "mode" Toml.asMode? .declared
    includeState? := ← resources.setting "include_state" (·.asTruth?.map some) none
    output := ← OutputSettings.read (← t.section "output") }

end YangPartition
