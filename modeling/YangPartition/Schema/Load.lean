import YangPartition.Digest.Sha256
import YangPartition.Document.Basic
import YangPartition.Error
import YangPartition.Files.Disk
import YangPartition.Schema.Forest

/-!
# Loading schema files

A schema location is a file or a directory; of a directory all files below
count that have the extension of a notation. First come the locations of
imported modules, then those of modules to compile. Modules of either sort have
different names; a module to compile hides an imported one of its name.

How a text is read as a module is left to a reader for each notation.
-/

namespace YangPartition

/-! ### Readers -/

/-- Readers of the notations of schema files. -/
structure SchemaReaders where
  /-- Reads the module that a JSON text holds. -/
  json : String → Document.Reading Module
  /-- Reads the module that a YAML text holds. -/
  yaml : String → Document.Reading Module

/-- Reads the module that the text of a file holds; the extension of the file
tells the notation. -/
def SchemaReaders.read (r : SchemaReaders) (file text : String) : Document.Reading Module :=
  if FileName.extension? file = some "json" then r.json text else r.yaml text

/-! ### Files -/

/-- The extensions of schema files. -/
def schemaExtensions : List String := ["json", "yaml", "yml"]

/-- The schema files of a location. -/
def Disk.schemaFiles (d : Disk) (location : String) : Except Error (List String) :=
  match d.walk location with
  | .error cause => .error (.schemaUnreadable location cause)
  | .ok found =>
    if d.isFile location then .ok [location]
    else .ok ((found.map (·.1)).filter fun file =>
      d.isFile file && (FileName.extension? file).any schemaExtensions.contains)

/-- Reads the module of a schema file; also gives the bytes of the file. -/
def Disk.readModule (d : Disk) (r : SchemaReaders) (file : String) :
    Except Error (Module × Array UInt8) := do
  let bytes ← (d.readBytes file).mapError (.schemaUnreadable file)
  let text ← (Disk.textOfBytes bytes).mapError (.schemaUnreadable file)
  let m ← (r.read file text).mapError (.schemaMalformed file)
  if m.name.isEmpty then .error (.unnamedModule file)
  .ok (m, bytes)

/-! ### Loading -/

/-- What has been loaded so far. -/
structure Loading where
  /-- The modules to compile, by name. -/
  modules : NameMap Module := []
  /-- All modules, by name. -/
  index : NameMap ModuleInfo := []
  /-- The bytes of the files. -/
  bytes : Array UInt8 := #[]

namespace Loading

/-- Adds an imported module. -/
def addImport (s : Loading) (m : Module) (file : String) : Except Error Loading :=
  if s.index.contains m.name then .error (.duplicateModule m.name)
  else .ok { s with index := s.index.insert m.name (m.info .imported (some file)) }

/-- Adds a module to compile. -/
def addModule (s : Loading) (m : Module) (file : String) : Except Error Loading :=
  if s.modules.contains m.name then .error (.duplicateModule m.name)
  else .ok { s with
    modules := s.modules.insert m.name m.inherited
    index := s.index.insert m.name (m.info .compiled (some file)) }

/-- Loads the files of a location. -/
def addLocation (d : Disk) (r : SchemaReaders)
    (add : Loading → Module → String → Except Error Loading) (s : Loading) (location : String) :
    Except Error Loading := do
  (← d.schemaFiles location).foldlM (fun s file => do
    let (m, bytes) ← d.readModule r file
    add { s with bytes := s.bytes ++ bytes } m file) s

end Loading

/-- Loads the modules of locations: imported ones and those to compile. -/
def Forest.loadWith (r : SchemaReaders) (d : Disk) (imports modules : List String) :
    Except Error Forest := do
  let s ← imports.foldlM (Loading.addLocation d r Loading.addImport) {}
  let s ← modules.foldlM (Loading.addLocation d r Loading.addModule) s
  return {
    modules := s.modules.map (·.2)
    index := s.index
    digest := Sha256.hex s.bytes }

end YangPartition
