import YangPartition.Compile.Finish
import YangPartition.Json.Printer
import YangPartition.Manifest.Rendering
import YangPartition.Resource.Declare
import YangPartition.Schema.Load

/-!
# Generation

A run reads the resource map and the schema, compiles them and writes files: one
for each container, one for each resource, and the manifest. All input is read
before anything is written; what has been written before a failure stays.
How the notations of the input are read is left to readers.
-/

namespace YangPartition

/-! ### Reading and compiling -/

/-- Readers of the notations of input files. -/
structure Readers extends SchemaReaders where
  /-- Reads the resource map that a text holds. -/
  map : String → Document.Reading ResourceMap

/-- Reads a resource map. -/
def ResourceMap.loadWith (read : String → Document.Reading ResourceMap) (d : Disk)
    (file : String) : Except Error ResourceMap := do
  if !d.isFile file then .error (.mapNotFound file)
  let text ← (d.readText file).mapError (.mapUnreadable file)
  (read text).mapError (.mapMalformed file)

/-- What compiling gives. -/
structure Compiled where
  /-- The compiled resources. -/
  resources : ResourceSet
  /-- What has been done. -/
  stats : Stats
  /-- What finishing has found. -/
  report : FinishReport

namespace Settings

/-- The declared resources and what the map states about references. Without a
map there is only the root resource. -/
def loadResources (s : Settings) (r : Readers) (d : Disk) :
    Except Error (ResourceSet × Overrides) := do
  let m ← match s.mapFile? with
    | some file => ResourceMap.loadWith r.map d file
    | none => .ok {}
  let set ← ResourceSet.ofMap m s.mode
  .ok (set, ← Overrides.ofPairs m.overrides)

/-- Reads all input and compiles it. -/
def compile (s : Settings) (r : Readers) (d : Disk) : Except Error Compiled := do
  let (set, overrides) ← s.loadResources r d
  let forest ← Forest.loadWith r.toSchemaReaders d s.importLocations s.moduleLocations
  let (set, result) := set.build { includeState := s.includesState, overrides } forest
  let (stats, report) ← result
  .ok ⟨set, stats, report⟩

end Settings

/-! ### Writing -/

/-- Steps that change a disk until one fails. -/
abbrev Writing := ExceptT Error (StateM Disk)

namespace Writing

/-- A step that cannot fail halfway. -/
def step (f : Disk → Except FileError Disk) : Writing Unit := do
  match f (← get) with
  | .ok d => set d
  | .error e => throw (.fileAccess e)

/-- Makes a directory and those above it, where they are not there yet. -/
def makeDirectories (path : String) : Writing Unit :=
  step (·.makeDirectories path)

/-- Writes the text that an attempt gives to a file; gives the file's path. -/
def writeText (path : String) (text : Except Error String) : Writing String := do
  let text ← text
  step (·.writeText path text)
  return path

end Writing

namespace Manifest

/-- The directory of the files for containers. -/
def schemaDirectory : String := "yangschema"

/-- The directory of the files for resources. -/
def apiDirectory : String := "api"

/-- The file of the manifest. -/
def fileName : String := "resources.json"

/-- The name of the file for a container. -/
def containerFile (v : ContainerView) : String := v.fileStem ++ ".go"

/-- The name of the file for a resource. -/
def resourceFile (v : ResourceView) : String := Text.snakeCase v.prefixedName ++ "_types.go"

/-- Writes the files for containers below a directory; gives their paths. -/
def writeContainers (m : Manifest) (t : Templates) (s : OutputSettings) (out : String) :
    Writing (List String) := do
  let directory := FileName.join out schemaDirectory
  Writing.makeDirectories directory
  (m.resources.flatMap (·.containers)).mapM fun v =>
    Writing.writeText (FileName.join directory (containerFile v)) (t.renderContainer s v)

/-- Writes the files for resources below a directory; gives their paths. -/
def writeResources (m : Manifest) (t : Templates) (s : OutputSettings) (out : String) :
    Writing (List String) := do
  let directory := FileName.join (FileName.join out apiDirectory) s.version
  Writing.makeDirectories directory
  m.resources.mapM fun v =>
    Writing.writeText (FileName.join directory (resourceFile v)) (t.renderResource s v)

/-- Writes all files of a manifest below a directory; gives their paths. -/
def write (m : Manifest) (t : Templates) (s : OutputSettings) (out : String) :
    Writing (List String) := do
  let containers ← if s.emitsSchema then m.writeContainers t s out else pure []
  let resources ← if s.emitsApi then m.writeResources t s out else pure []
  Writing.makeDirectories out
  let manifest ← Writing.writeText (FileName.join out fileName) (.ok m.data.pretty)
  return containers ++ resources ++ [manifest]

end Manifest

/-! ### The run -/

/-- What a run has done. -/
structure GenerationReport where
  /-- What compiling has done. -/
  stats : Stats
  /-- What finishing has found. -/
  report : FinishReport
  /-- The digest of the compiled resources. -/
  fingerprint : String
  /-- The paths of the written files. -/
  files : List String

/-- Reads, compiles and writes. The templates are read first. -/
def Settings.generateWith (r : Readers) (s : Settings) : Writing GenerationReport := do
  let d ← get
  let templates ← Templates.load d s.output.templateDirectory?
  let c ← s.compile r d
  let files ← (c.resources.manifest s.output.leading).write templates s.output
    (s.outputPath d.workingPath)
  return ⟨c.stats, c.report, c.resources.fingerprint, files⟩

end YangPartition
