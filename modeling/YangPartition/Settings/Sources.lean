import YangPartition.Files.Disk
import YangPartition.Settings.Reading
import YangPartition.Toml.Parser
import YangPartition.Toml.Printer

/-!
# Sources of settings

Settings come in layers, each laid over the ones before: files in fixed places
of the working directory, the user's file, a file that is asked for, and
variables of the environment.
-/

namespace YangPartition

/-- Variables of the environment, under their names. -/
abbrev Environment := NameMap String

namespace Settings

/-! ### Files -/

/-- The files of the working directory that may hold settings. -/
def files : List String := ["ygen.toml", ".ygen.toml", "config/ygen.toml"]

/-- The extension of a file that holds settings. -/
def fileExtension : String := "toml"

/-- The file that a path means: the one there or, if there is none, the one with
the extension behind the path. -/
def fileAt? (d : Disk) (path : String) : Option String :=
  if d.isFile path then
    if FileName.extension? path = some fileExtension then some path else none
  else
    let extended := path ++ "." ++ fileExtension
    if d.isFile extended then some extended else none

/-- The settings that a file holds. -/
def readFile (file text : String) : Except Error Toml :=
  match Toml.parse? text with
  | some t => .ok t.withLowNames
  | none => .error (.settings s!"{file} is not well formed")

/-- The settings of a file that need not be there. -/
def readOptional (d : Disk) (path : String) : Except Error Toml :=
  match fileAt? d path with
  | none => .ok (.table [])
  | some file =>
    match d.readText file with
    | .ok text => readFile file text
    | .error _ => .ok (.table [])

/-- The settings of a file that is asked for. -/
def readRequired (d : Disk) (path : String) : Except Error Toml :=
  match fileAt? d path with
  | none => .error (.settings s!"{path} is not a file of settings")
  | some file =>
    match d.readText file with
    | .ok text => readFile file text
    | .error cause => .error (.settings s!"{file}: {cause.message}")

/-- The file of settings of the user, in the directory for such files. -/
def userFile? (env : Environment) : Option String :=
  let below (directory : String) : String :=
    FileName.join (FileName.join directory "ygen") "ygen.toml"
  match (env.find? "XDG_CONFIG_HOME").filter FileName.isAbsolute, env.find? "HOME" with
  | some directory, _ => some (below directory)
  | none, some home => if home.isEmpty then none else some (below (FileName.join home ".config"))
  | none, none => none

/-! ### The environment -/

/-- What the names of variables that hold settings start with, in lower case. -/
def variableStart : String := "ygen__"

/-- The value that the text of a variable is read as. -/
def variableValue (text : String) : Toml :=
  let whole (cs : List Char) : Option Int :=
    if cs.isEmpty ∨ !cs.all Char.isDigit then none else some (Decimal.valueOfDigits cs)
  let (negative, digits) := Decimal.signed text.toList
  let integer? := ((whole digits).map fun n => if negative then -n else n).filter Toml.isInRange
  let name := Toml.lowered (String.ofList digits)
  if Toml.lowered text = "true" then .truth true
  else if Toml.lowered text = "false" then .truth false
  else
    match integer?, Decimal.ofText? text with
    | some n, _ => .integer n
    | none, some x => .number (.ofDecimal x)
    | none, none =>
      if name = "inf" ∨ name = "infinity" then .number (.infinite negative)
      else if name = "nan" then .number .none
      else .text text

/-- Whether a text is a part of the name of a variable. -/
def isVariablePart (s : String) : Bool :=
  !s.isEmpty && s.toList.all fun c => c.isAlphanum || c == '_' || c == '-'

/-- The names of the sections and settings that a variable means. -/
def variableNames? (name : String) : Option (List String) :=
  let name := Toml.lowered name
  if variableStart.toList.isPrefixOf name.toList then
    let parts := (String.ofList (name.toList.drop variableStart.length)).splitOn "__"
    if parts.all isVariablePart then some parts else none
  else none

/-- The settings that the environment holds. -/
def readEnvironment (env : Environment) : Toml :=
  env.foldl (fun t (name, text) =>
    match variableNames? name with
    | some names => t.overlaid ((variableValue text).under names)
    | none => t) (.table [])

/-! ### All together -/

/-- The settings that files and the environment give, with a file that may be asked for. -/
def load (d : Disk) (env : Environment) (file? : Option String) : Except Error Settings := do
  let optional := files ++ ((userFile? env).filter d.isThere).toList
  let layers ← optional.mapM (readOptional d)
  let asked ← file?.toList.mapM (readRequired d)
  let all := layers ++ asked ++ [readEnvironment env]
  Settings.read (all.foldl Toml.overlaid (.table []))

/-! ### Writing -/

/-- A member of a table, if it has a value. -/
def optionalMember (name : String) (value? : Option String) : List (String × String) :=
  value?.toList.map (name, ·)

/-- The text of settings. -/
def text (s : Settings) : String :=
  let o := s.output
  let schema := Toml.writeTable "schema" [
    ("import_dirs", Toml.writeTexts s.importLocations),
    ("module_dirs", Toml.writeTexts s.moduleLocations)]
  let resources := Toml.writeTable "resources" (
    optionalMember "map_file" (s.mapFile?.map Toml.writeText) ++
    [("mode", Toml.writeText s.mode.text)] ++
    optionalMember "include_state" (s.includeState?.map Toml.writeTruth))
  let output := Toml.writeTable "output" (
    [("dir", Toml.writeText o.directory), ("package_name", Toml.writeText o.package),
      ("version", Toml.writeText o.version), ("api_group", Toml.writeText o.apiGroup),
      ("prefix", Toml.writeText o.leading)] ++
    optionalMember "template_dir" (o.templateDirectory?.map Toml.writeText) ++
    [("emit_schema", Toml.writeTruth o.emitsSchema), ("emit_api", Toml.writeTruth o.emitsApi)])
  "\n".intercalate [schema, resources, output]

/-- Writes settings to a file. -/
def save (s : Settings) (d : Disk) (file : String) : Except Error Disk :=
  (d.writeText file s.text).mapError .fileAccess

end Settings

end YangPartition
