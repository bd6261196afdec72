import YangPartition.Path.Basic
import YangPartition.Schema.Forest

/-!
# Visits

The nodes of a forest are visited one by one: the modules by name, each node
before the nodes below it, and those in the order of their names. A visit knows
the path above the node and the keys of the list around it. Choices and cases
add no level, so what is below them is visited as if it stood beside them.
-/

namespace YangPartition

/-! ### Declarations in paths -/

/-- The path element of a node; that of a list has its keys with any value. -/
def Declaration.elem (d : Declaration) : Elem :=
  if d.kind = .list then .wild d.name d.keyNames else .named d.name

/-- Whether a path can hold the name: it is not empty and has no slash or bracket. -/
def Declaration.hasPathName (d : Declaration) : Bool :=
  !d.name.isEmpty && !d.name.toList.any fun c => c == '/' || c == '[' || c == ']'

/-- The keys for the nodes right below, when the node is a list. -/
def Declaration.keysBelow (d : Declaration) : List String :=
  if d.kind = .list then d.keyNames else []

/-! ### Visits -/

/-- The visit of one node. -/
structure Visit where
  /-- The path above the node. -/
  below : Path
  /-- The keys of the list around the node. -/
  listKeys : List String
  /-- What the node states. -/
  decl : Declaration
  deriving DecidableEq, Repr

/-- The path of the visited node. -/
def Visit.path (v : Visit) : Path := v.below.push v.decl.elem

namespace Node

mutual

/-- The visits of a node and of the nodes below it. -/
def visits (below : Path) (listKeys : List String) : Node → List Visit
  | ⟨decl, children⟩ =>
    let v : Visit := ⟨below, listKeys, decl⟩
    if decl.kind.isTransparent then v :: visitsAll below listKeys children
    else v :: visitsAll v.path decl.keysBelow children
termination_by structural n => n

/-- The visits of nodes that stand beside each other. -/
def visitsAll (below : Path) (listKeys : List String) : List (String × Node) → List Visit
  | [] => []
  | (_, n) :: rest => n.visits below listKeys ++ visitsAll below listKeys rest
termination_by structural ns => ns

end

end Node

/-- The visits of all nodes of a forest. -/
def Forest.visits (f : Forest) : List Visit :=
  f.modules.flatMap fun m => Node.visitsAll .root [] m.nodes

end YangPartition
