import YangPartition.NameMap
import YangPartition.Text.Blank

/-!
# Schema nodes

A schema is a tree of typed nodes. What a node states about itself is its
declaration; below it stand its children under their names, in ascending order
of the names. A node inherits from the nodes above: it is read-only below a
read-only node, and where it does not state its module, namespace or prefix the
nearest node above that does decides.
-/

namespace YangPartition

/-! ### Kinds -/

/-- The kind of a schema node. -/
inductive Kind where
  | leaf | leafList | container | list | choice | case | rpc
  deriving DecidableEq, Repr

namespace Kind

/-- The names of the kinds in schema files. -/
def text : Kind → String
  | leaf => "leaf"
  | leafList => "leaf-list"
  | container => "container"
  | list => "list"
  | choice => "choice"
  | case => "case"
  | rpc => "rpc"

/-- The kind of a name. -/
def ofText? (s : String) : Option Kind :=
  [leaf, leafList, container, list, choice, case, rpc].find? (·.text = s)

/-- A choice or a case groups nodes and is no level of the data. -/
def isTransparent : Kind → Bool
  | choice | case => true
  | _ => false

/-- A node that holds values and no other nodes. -/
def isScalar : Kind → Bool
  | leaf | leafList => true
  | _ => false

/-- A node that holds the nodes below it. -/
def isBranch : Kind → Bool
  | container | list => true
  | _ => false

end Kind

/-! ### Identity -/

/-- The module that a node belongs to. -/
structure Identity where
  /-- The name of the module. -/
  moduleName : String
  /-- The namespace of the module. -/
  namespaceUri : String
  /-- The prefix of the module. -/
  shortName : String
  deriving DecidableEq, Repr

/-! ### Declarations -/

/-- What a node states about itself. -/
structure Declaration where
  /-- The name, once inherited the one the node stands under. -/
  name : String
  /-- The kind. -/
  kind : Kind
  /-- State, which cannot be configured. -/
  readOnly : Bool := false
  /-- The type of a leaf or leaf-list. -/
  typeName : String := ""
  /-- The key leaves of a list, with blanks between. -/
  key? : Option String := none
  /-- The default value. -/
  default? : Option String := none
  /-- The expression of the leaf that a leaf refers to. -/
  reference? : Option String := none
  /-- A description for readers. -/
  description? : Option String := none
  /-- The module, where stated. -/
  moduleName? : Option String := none
  /-- The namespace, where stated. -/
  namespaceUri? : Option String := none
  /-- The prefix, where stated. -/
  shortName? : Option String := none
  deriving DecidableEq, Repr

namespace Declaration

/-- The names of the key leaves, in the order of the declaration. -/
def keyNames (d : Declaration) : List String :=
  match d.key? with
  | some keys => Text.words keys
  | none => []

/-- The identity that the declaration states, empty where it states none. -/
def identity (d : Declaration) : Identity :=
  ⟨d.moduleName?.getD "", d.namespaceUri?.getD "", d.shortName?.getD ""⟩

/-- The declaration of the node that stands under a name below a node of the
given identity, which is read-only or not. -/
def inherit (d : Declaration) (name : String) (outer : Identity) (readOnly : Bool) : Declaration :=
  { d with
    name
    readOnly := d.readOnly || readOnly
    moduleName? := some (d.moduleName?.getD outer.moduleName)
    namespaceUri? := some (d.namespaceUri?.getD outer.namespaceUri)
    shortName? := some (d.shortName?.getD outer.shortName) }

/-- The declaration of a reference to the leaf of an expression. -/
def withReference (d : Declaration) (expr : String) : Declaration :=
  { d with typeName := "leafref", reference? := some expr }

end Declaration

/-! ### Nodes -/

/-- A schema node: its declaration and the nodes below it, under their names. -/
structure Node where
  /-- What the node states about itself. -/
  decl : Declaration
  /-- The nodes below, under their names. -/
  children : List (String × Node)

namespace Node

/-- A node without children. -/
def ofKind (kind : Kind) (name : String) : Node := ⟨{ name, kind }, []⟩

/-- A list with the given key leaves. -/
def ofList (name key : String) : Node := ⟨{ name, kind := .list, key? := some key }, []⟩

/-- A leaf of the given type. -/
def ofLeaf (name typeName : String) : Node := ⟨{ name, kind := .leaf, typeName }, []⟩

/-- A leaf-list of the given type. -/
def ofLeafList (name typeName : String) : Node := ⟨{ name, kind := .leafList, typeName }, []⟩

/-- The node with one more child, which replaces a child of its name. -/
def withChild (n child : Node) : Node :=
  { n with children := NameMap.insert child.decl.name child n.children }

mutual

/-- The node that stands under a name, with all it inherits passed on below. -/
def inherit (name : String) (outer : Identity) (readOnly : Bool) : Node → Node
  | ⟨decl, children⟩ =>
    let decl := decl.inherit name outer readOnly
    ⟨decl, inheritAll decl.identity decl.readOnly children⟩
termination_by structural n => n

/-- Nodes under their names, with all they inherit. -/
def inheritAll (outer : Identity) (readOnly : Bool) : List (String × Node) → List (String × Node)
  | [] => []
  | (name, n) :: rest => (name, n.inherit name outer readOnly) :: inheritAll outer readOnly rest
termination_by structural ns => ns

end

end Node

end YangPartition
