import YangPartition.Path.Basic
import YangPartition.Schema.Node

/-!
# Containers and entries

What a resource is compiled to: containers, one for each container and list of
the schema and for each leaf-list, with entries for the nodes right below. An
entry that stands for more than a value points to the container of its node.
A leaf that refers to another leaf leaves a reference with its container.
-/

namespace YangPartition

/-! ### Entries -/

/-- What an entry stands for. -/
inductive EntryKind where
  /-- A value. -/
  | leaf
  /-- The container that holds one value of a leaf-list. -/
  | leafList
  /-- A container. -/
  | container
  /-- A list. -/
  | list
  deriving DecidableEq, Repr

namespace EntryKind

/-- The name of an entry kind. -/
def text : EntryKind → String
  | leaf => "leaf"
  | leafList => "leaf-list"
  | container => "container"
  | list => "list"

/-- Whether an entry of the kind points to a container. -/
def isStructural : EntryKind → Bool
  | leaf => false
  | _ => true

/-- The kind of the entry for a node. -/
def ofKind : Kind → EntryKind
  | .leafList => leafList
  | .list => list
  | .container => container
  | _ => leaf

end EntryKind

/-- A value of a container, or a pointer to a container below. -/
structure Entry where
  /-- The name of the node. -/
  name : String
  /-- The type of a value. -/
  typeName : String
  /-- What the entry stands for. -/
  kind : EntryKind
  /-- A key of the list. -/
  key : Bool
  /-- A value that has to be given. -/
  mandatory : Bool
  /-- State. -/
  readOnly : Bool
  /-- The default value. -/
  default? : Option String
  /-- The container that the entry points to. -/
  next? : Option Nat := none
  /-- The path that the value refers to. -/
  target? : Option Path := none
  /-- A description for readers. -/
  description? : Option String
  deriving DecidableEq, Repr

namespace Entry

/-- The entry for a node in the container of a list with the given keys. -/
def ofDeclaration (d : Declaration) (listKeys : List String) : Entry where
  name := d.name
  typeName := d.typeName
  kind := .ofKind d.kind
  key := listKeys.contains d.name
  mandatory := listKeys.contains d.name
  readOnly := d.readOnly
  default? := d.default?
  description? := d.description?

/-- The entry for one value of a node. -/
def value (d : Declaration) : Entry :=
  { ofDeclaration d [] with kind := .leaf }

/-- The entry that points to a container. -/
def pointingTo (e : Entry) (id : Nat) : Entry :=
  { e with next? := some id }

end Entry

/-! ### References -/

/-- Whether a reference stays inside the resource of its leaf. -/
inductive Scope where
  /-- It stays inside. -/
  | within
  /-- It leads to another resource, or to none. -/
  | outside (owner? : Option Nat)
  deriving DecidableEq, Repr

/-- Whether a reference stays inside the resource. -/
def Scope.isWithin : Scope → Bool
  | .within => true
  | .outside _ => false

/-- A reference from a leaf to a path. -/
structure Reference where
  /-- The path of the leaf. -/
  leaf : Path
  /-- The path that it refers to. -/
  target : Path
  /-- Whether the path stays inside the resource. -/
  scope : Scope
  /-- The type found at the path, once it has been looked up. -/
  resolvedType? : Option String := none
  deriving DecidableEq, Repr

/-! ### Containers -/

/-- A container of a resource. -/
structure Container where
  /-- The name of the node. -/
  name : String
  /-- The path of the node, with the keys of the lists on the way. -/
  path : Path
  /-- The module of the node. -/
  identity : Identity
  /-- State. -/
  readOnly : Bool
  /-- The container or one below holds state. -/
  hasState : Bool := false
  /-- Another resource is rooted here. -/
  boundary : Bool := false
  /-- No container or list of the schema stands behind it. -/
  synthetic : Bool := false
  /-- The entries, in the order of the schema. -/
  entries : List Entry := []
  /-- The container above. -/
  parent? : Option Nat
  /-- The containers below, in order. -/
  children : List Nat := []
  /-- The names of the keys of a list. -/
  keys : List String
  /-- The default values of the entries that have one. -/
  defaults : NameMap String := []
  /-- The references of the entries. -/
  references : List Reference := []
  deriving DecidableEq, Repr

namespace Container

/-- The container of a node at a path, below another container or none. -/
def ofDeclaration (d : Declaration) (path : Path) (parent? : Option Nat) : Container where
  name := d.name
  path
  identity := d.identity
  readOnly := d.readOnly
  parent?
  keys := d.keyNames

/-- A container without a node. -/
def ofName (name : String) (parent? : Option Nat) : Container where
  name
  path := .root
  identity := ⟨"", "", ""⟩
  readOnly := false
  synthetic := true
  parent?
  keys := []

/-- The first entry of a name. -/
def entryNamed? (c : Container) (name : String) : Option Entry :=
  c.entries.find? (·.name == name)

/-- The container with one more entry. -/
def push (c : Container) (e : Entry) : Container :=
  { c with entries := c.entries ++ [e] }

/-- The container with one more value, whose default it records. -/
def pushValue (c : Container) (e : Entry) : Container :=
  let defaults := match e.default? with
    | some value => c.defaults.insert e.name value
    | none => c.defaults
  { c with entries := c.entries ++ [e], defaults }

/-- Whether the container holds state of its own, or has been marked. -/
def isStateful (c : Container) : Bool :=
  c.hasState || c.entries.any (·.readOnly)

end Container

end YangPartition
