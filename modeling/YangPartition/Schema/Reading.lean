import YangPartition.Document.Basic
import YangPartition.Schema.Forest

/-!
# Reading modules

A module in a document is a record with a name and nodes; a node is a record
with a kind. Members that are no fields do not count.
-/

namespace YangPartition

open Document (Reading Field Record)

/-! ### Nodes -/

namespace Node

/-- The fields of a node. -/
def fields : List Field :=
  [⟨"name", none⟩, ⟨"kind", none⟩, ⟨"read_only", some "config-false"⟩, ⟨"type", none⟩,
    ⟨"key", none⟩, ⟨"default", none⟩, ⟨"leafref", none⟩, ⟨"description", none⟩,
    ⟨"module", none⟩, ⟨"namespace", none⟩, ⟨"prefix", none⟩, ⟨"children", none⟩]

/-- The place of the children among the fields. -/
def childrenPlace : Nat := 11

/-- Reads the kind of a node. -/
def readKind (d : Document) : Reading Kind := do
  let name ← d.variant
  match Kind.ofText? name with
  | some kind => .ok kind
  | none => .error s!"unknown variant `{name}`"

/-- Reads what a node states about itself. -/
def readDeclaration (r : Record) : Reading Declaration := do
  return {
    name := ← r.text "name"
    kind := ← readKind (← r.required "kind")
    readOnly := ← r.truth "read_only"
    typeName := ← r.text "type"
    key? := ← r.optionalText "key"
    default? := ← r.optionalText "default"
    reference? := ← r.optionalText "leafref"
    description? := ← r.optionalText "description"
    moduleName? := ← r.optionalText "module"
    namespaceUri? := ← r.optionalText "namespace"
    shortName? := ← r.optionalText "prefix" }

mutual

/-- Reads a node. -/
def read : Document → Reading Node
  | .mapping _ members => do
    let decl ← readDeclaration (← Document.recordOfMembers fields members)
    return ⟨decl, ← readChildren members⟩
  | .sequence true items => do
    let decl ← readDeclaration (← Document.recordOfItems fields items)
    return ⟨decl, ← readChildrenAt childrenPlace items⟩
  | _ => .error "expected a map"
termination_by structural d => d

/-- Reads nodes under their names; of nodes with one name the last counts. -/
def readAll : Document → Reading (List (String × Node))
  | .mapping _ members => do return NameMap.ofPairs (← readMembers members)
  | .scalar ⟨_, _, _, true⟩ => .ok []
  | _ => .error "expected a map"
termination_by structural d => d

/-- Reads the nodes of members. -/
def readMembers : List (String × Document) → Reading (List (String × Node))
  | [] => .ok []
  | (name, d) :: rest => do
    let n ← read d
    return (name, n) :: (← readMembers rest)
termination_by structural ds => ds

/-- Reads the children among the members of a node. -/
def readChildren : List (String × Document) → Reading (List (String × Node))
  | [] => .ok []
  | (name, d) :: rest => if name = "children" then readAll d else readChildren rest
termination_by structural ds => ds

/-- Reads the children at a place among the items of a node. -/
def readChildrenAt : Nat → List Document → Reading (List (String × Node))
  | _, [] => .ok []
  | 0, d :: _ => readAll d
  | n + 1, _ :: rest => readChildrenAt n rest
termination_by structural _ ds => ds

end

end Node

/-! ### Modules -/

namespace Module

/-- The fields of a module. -/
def fields : List Field :=
  [⟨"name", none⟩, ⟨"namespace", none⟩, ⟨"prefix", none⟩, ⟨"nodes", none⟩]

/-- Reads a module; its nodes stay as they are stated. -/
def read (d : Document) : Reading Module := do
  let r ← d.record fields
  return {
    name := ← (← r.required "name").text
    namespaceUri := ← r.text "namespace"
    shortName := ← r.text "prefix"
    nodes := ← r.withDefault "nodes" Node.readAll [] }

end Module

end YangPartition
