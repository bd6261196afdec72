import YangPartition.Schema.Node

/-!
# Modules

A module has an identity, which its nodes inherit, and top-level nodes under
their names. The modules of a device make up a forest, in ascending order of
the module names, with an index of all modules that were seen.
-/

namespace YangPartition

/-! ### Modules -/

/-- A schema module. -/
structure Module where
  /-- The name of the module. -/
  name : String
  /-- The namespace. -/
  namespaceUri : String := ""
  /-- The prefix. -/
  shortName : String := ""
  /-- The top-level nodes, under their names. -/
  nodes : List (String × Node) := []

namespace Module

/-- The identity that the nodes inherit. -/
def identity (m : Module) : Identity := ⟨m.name, m.namespaceUri, m.shortName⟩

/-- The module with all that its nodes inherit. -/
def inherited (m : Module) : Module :=
  { m with nodes := Node.inheritAll m.identity false m.nodes }

/-- The module with one more top-level node, which replaces a node of its name. -/
def withNode (m : Module) (n : Node) : Module :=
  inherited { m with nodes := NameMap.insert n.decl.name n m.nodes }

end Module

/-! ### Forests -/

/-- What a module is read for. -/
inductive Origin where
  /-- It is compiled. -/
  | compiled
  /-- It is only looked up. -/
  | imported
  deriving DecidableEq, Repr

/-- What the index says of a module. -/
structure ModuleInfo where
  /-- The name. -/
  name : String
  /-- The namespace. -/
  namespaceUri : String
  /-- The prefix. -/
  shortName : String
  /-- What it is read for. -/
  origin : Origin
  /-- The file it was read from. -/
  file? : Option String
  deriving DecidableEq, Repr

/-- The index entry of a module. -/
def Module.info (m : Module) (origin : Origin) (file? : Option String) : ModuleInfo :=
  ⟨m.name, m.namespaceUri, m.shortName, origin, file?⟩

/-- The modules of a device. -/
structure Forest where
  /-- The modules to compile, by name. -/
  modules : List Module := []
  /-- All modules, by name. -/
  index : NameMap ModuleInfo := []
  /-- A digest of the files read. -/
  digest : String := ""

/-- The forest of given modules, by name; modules of one name keep their order. -/
def Forest.ofModules (modules : List Module) : Forest :=
  let modules := (modules.map Module.inherited).mergeSort fun a b => a.name ≤ b.name
  { modules
    index := .ofPairs (modules.map fun m => (m.name, m.info .compiled none)) }

end YangPartition
