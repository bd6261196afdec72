import YangPartition.Proofs.Outcome
import YangPartition.Proofs.Schema.Inheritance
import YangPartition.Readers

/-!
# What is loaded

Imported modules and modules to compile are added one by one, and each of the two runs refuses a
name that it has seen. So loading succeeds exactly when all files can be read as modules and no name
occurs twice among the imported modules or among those to compile, and then what is loaded depends
on the modules that were found and not on the order of their locations. This is so whatever the
readers of the notations take a text for.
-/

namespace YangPartition

/-! ### Files -/

namespace Disk

variable (d : Disk) (r : SchemaReaders)

variable {d r} {file : String} {m : Module}

variable {ls ls' : List String}

end Disk

/-! ### Adding modules -/

namespace Loading

variable {d : Disk} {r : SchemaReaders} {add : Loading → Module → String → Except Error Loading}

namespace Adds

variable {taken : Loading → String → Bool} {put : Loading → Module → String → Loading}
  {s t : Loading}

end Adds

/-! ### The two runs -/

/-- The index entries of modules with their files. -/
def entries (origin : Origin) (found : List (String × Module)) : NameMap ModuleInfo :=
  found.map fun p => (p.2.name, p.2.info origin (some p.1))

/-- Modules under their names, with all that their nodes inherit. -/
def normalized (found : List (String × Module)) : NameMap Module :=
  found.map fun p => (p.2.name, p.2.inherited)

end Loading

namespace Forest

open Loading

variable {r : SchemaReaders} {d : Disk} {imports modules : List String}

variable {f : Forest}

end Forest

end YangPartition
