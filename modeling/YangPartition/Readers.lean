import YangPartition.Generation
import YangPartition.Json.Parser
import YangPartition.Schema.Reading
import YangPartition.Yaml.Parser

/-!
# Readers of the input

The readers that the program is run with. A text is read as a document, and the
document as a module or as a resource map. Of YAML they read the part without
anchors, aliases, tags and directives. Nothing else depends on them: what is
stated about loading holds for readers of any kind.
-/

namespace YangPartition

/-- Reads what the document of a text holds. -/
def Document.readingOf {α : Type} (language : String) (parse : String → Option Document)
    (read : Document → Document.Reading α) (text : String) : Document.Reading α :=
  match parse text with
  | some d => read d
  | none => .error s!"invalid {language}"

/-- The readers of schema files. -/
def SchemaReaders.standard : SchemaReaders where
  json := Document.readingOf "JSON" Json.document? Module.read
  yaml := Document.readingOf "YAML" Yaml.parse? Module.read

/-- The readers of input files. -/
def Readers.standard : Readers where
  toSchemaReaders := .standard
  map := Document.readingOf "YAML" Yaml.parse? ResourceMap.read

/-- Loads the modules of locations with the standard readers. -/
def Forest.load (d : Disk) (imports modules : List String) : Except Error Forest :=
  loadWith .standard d imports modules

/-- Reads, compiles and writes with the standard readers. -/
def Settings.generate (s : Settings) : Writing GenerationReport := s.generateWith .standard

end YangPartition
