import YangPartition.Files.Name
import YangPartition.Resource.Basic

/-!
# Settings

What a run of the program reads and writes: the locations of the schema, the
resource map, and the output with the names that stand in it.
-/

namespace YangPartition

/-- What is written, and where. -/
structure OutputSettings where
  /-- The directory of all output. -/
  directory : String := "./out"
  /-- The package of the files for containers. -/
  package : String := "yangschema"
  /-- The version of the files for resources. -/
  version : String := "v1alpha1"
  /-- The group of the resources. -/
  apiGroup : String := "example.ndd.yndd.io"
  /-- What stands before the names of resources. -/
  leading : String := ""
  /-- The directory of templates that replace the standard ones. -/
  templateDirectory? : Option String := none
  /-- Files for containers are written. -/
  emitsSchema : Bool := true
  /-- Files for resources are written. -/
  emitsApi : Bool := true
  deriving DecidableEq, Repr

/-- The settings of a run. -/
structure Settings where
  /-- The locations of imported modules. -/
  importLocations : List String := []
  /-- The locations of the modules to compile. -/
  moduleLocations : List String := []
  /-- The file of the resource map. -/
  mapFile? : Option String := none
  /-- Which resources are compiled. -/
  mode : Mode := .declared
  /-- Whether read-only nodes are placed, where that is set. -/
  includeState? : Option Bool := none
  /-- The output. -/
  output : OutputSettings := {}
  deriving DecidableEq, Repr

namespace Settings

/-- Whether read-only nodes are placed: as set, or else for the whole schema only. -/
def includesState (s : Settings) : Bool :=
  s.includeState?.getD (s.mode = .full)

/-- The directory of all output, seen from a working directory. -/
def outputPath (s : Settings) (workingPath : String) : String :=
  FileName.join workingPath s.output.directory

end Settings

end YangPartition
