import YangPartition.Files.Error
import YangPartition.Text.Quoted

/-!
# Errors

Every cause for which reading, compiling or writing stops, and the text that
reports it. All but failures to render and to write come from the declared
input: the map, the schema, the templates or the settings.
-/

namespace YangPartition

/-- Why the program stops. -/
inductive Error where
  /-- The resource map is not a file. -/
  | mapNotFound (file : String)
  /-- The resource map cannot be read. -/
  | mapUnreadable (file : String) (cause : FileError)
  /-- The resource map is not a map. -/
  | mapMalformed (file : String) (reason : String)
  /-- A text is not a path or a reference expression. -/
  | invalidPath (text : String)
  /-- Two declarations name one resource. -/
  | ambiguousResource (path : String)
  /-- A schema location cannot be read. -/
  | schemaUnreadable (file : String) (cause : FileError)
  /-- A schema file does not hold a module. -/
  | schemaMalformed (file : String) (reason : String)
  /-- Two modules have one name. -/
  | duplicateModule (name : String)
  /-- A schema file holds a module without a name. -/
  | unnamedModule (file : String)
  /-- A node has a name that no path can hold. -/
  | invalidNodeName (module name below : String)
  /-- A second node stands where a resource is rooted. -/
  | rootDefinedAgain (module path : String)
  /-- A template is not well formed. -/
  | templateMalformed (name : String) (reason : String)
  /-- A template cannot be rendered. -/
  | renderFailed (name : String) (reason : String)
  /-- The settings cannot be read. -/
  | settings (reason : String)
  /-- A file cannot be written. -/
  | fileAccess (cause : FileError)
  deriving DecidableEq, Repr

namespace Error

/-- Whether the cause lies in the declared input. -/
def isConfiguration : Error → Bool
  | renderFailed .. | fileAccess .. => false
  | _ => true

/-- The text of an error about a schema module. -/
def moduleMessage (module text : String) : String :=
  s!"schema module {module} failed processing: {text}"

/-- The text of an error. -/
def message : Error → String
  | mapNotFound file => s!"resource map input file does not exist: {file}"
  | mapUnreadable file cause =>
    s!"cannot read resource map input file {file}: {cause.message}"
  | mapMalformed file reason => s!"cannot parse resource map input file {file}: {reason}"
  | invalidPath text => s!"invalid path expression: {text}"
  | ambiguousResource path =>
    s!"ambiguous resource declaration: {path} is declared more than once"
  | schemaUnreadable file cause => s!"cannot read schema location {file}: {cause.message}"
  | schemaMalformed file reason => s!"cannot parse schema file {file}: {reason}"
  | duplicateModule name => s!"schema module {name} is defined more than once"
  | unnamedModule file => moduleMessage file "module has no name"
  | invalidNodeName module name below =>
    moduleMessage module ("invalid node name " ++ Text.quoted name ++ " below " ++ below)
  | rootDefinedAgain module path =>
    moduleMessage module s!"{path} is defined again; resource root already compiled"
  | templateMalformed name reason => s!"cannot parse template {name}: {reason}"
  | renderFailed name reason => s!"cannot render {name}: {reason}"
  | settings reason => s!"configuration error: {reason}"
  | fileAccess cause => s!"IO error: {cause.message}"

/-- The text of the cause that an error holds, where it holds one. -/
def causeMessage? : Error → Option String
  | mapUnreadable _ cause | schemaUnreadable _ cause | fileAccess cause => some cause.message
  | mapMalformed _ reason => some reason
  | settings _ => none
  | _ => none

end Error

end YangPartition
