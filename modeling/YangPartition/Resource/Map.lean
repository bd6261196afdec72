import YangPartition.Document.Basic

/-!
# Resource maps

A resource map declares which subtrees of the schema become resources. A
declaration stands under the path of its resource, relative to the resource
above, and may exclude paths, name sub-resources and hold further declarations.
Besides, a map may state what a leaf refers to, against the schema.
-/

namespace YangPartition

open Document (Reading Field Record)

/-! ### Declarations -/

/-- The declaration of a resource. -/
structure Declared where
  /-- Paths below the resource that it leaves out. -/
  excludes : List String := []
  /-- Declarations of resources below, under their relative paths. -/
  hierarchy? : Option (List (String × Declared)) := none
  /-- Paths of sub-resources. -/
  subResources : List String := []

/-- A resource map. -/
structure ResourceMap where
  /-- A label of the schema. -/
  schema? : Option String := none
  /-- The declarations, under the paths of their resources. -/
  declared : List (String × Declared) := []
  /-- Paths of leaves and of the leaves they refer to. -/
  overrides : NameMap String := []

/-! ### Size -/

namespace Declared

mutual

/-- The number of resources that a declaration declares, its own included. -/
def count : Declared → Nat
  | ⟨_, none, _⟩ => 1
  | ⟨_, some hierarchy, _⟩ => 1 + countAll hierarchy
termination_by structural d => d

/-- The number of resources that declarations declare. -/
def countAll : List (String × Declared) → Nat
  | [] => 0
  | (_, d) :: rest => d.count + countAll rest
termination_by structural ds => ds

end

end Declared

/-- The number of declared resources. -/
def ResourceMap.declaredCount (m : ResourceMap) : Nat :=
  Declared.countAll m.declared

/-! ### Reading -/

namespace Declared

/-- The fields of a declaration. -/
def fields : List Field :=
  [⟨"excludes", none⟩, ⟨"hierarchy", none⟩, ⟨"sub-resources", none⟩]

/-- The place of the hierarchy among the fields. -/
def hierarchyPlace : Nat := 1

mutual

/-- Reads a declaration. -/
def read : Document → Reading Declared
  | .mapping _ members => do
    let r ← Document.recordOfMembers fields members
    return ⟨← r.texts "excludes", ← readHierarchy members, ← r.texts "sub-resources"⟩
  | .sequence true items => do
    let r ← Document.recordOfItems fields items
    return ⟨← r.texts "excludes", ← readHierarchyAt hierarchyPlace items,
      ← r.texts "sub-resources"⟩
  | .scalar ⟨_, _, _, true⟩ => .ok {}
  | _ => .error "expected a map"
termination_by structural d => d

/-- Reads the declarations of members. -/
def readMembers : List (String × Document) → Reading (List (String × Declared))
  | [] => .ok []
  | (path, d) :: rest => do
    let declared ← read d
    return (path, declared) :: (← readMembers rest)
termination_by structural ds => ds

/-- Reads declarations that may be missing. -/
def readOptional : Document → Reading (Option (List (String × Declared)))
  | .mapping _ members => do return some (NameMap.ofPairs (← readMembers members))
  | .scalar ⟨_, _, true, _⟩ => .ok none
  | _ => .error "expected a map"
termination_by structural d => d

/-- Reads the hierarchy among the members of a declaration. -/
def readHierarchy : List (String × Document) → Reading (Option (List (String × Declared)))
  | [] => .ok none
  | (name, d) :: rest => if name = "hierarchy" then readOptional d else readHierarchy rest
termination_by structural ds => ds

/-- Reads the hierarchy at a place among the items of a declaration. -/
def readHierarchyAt : Nat → List Document → Reading (Option (List (String × Declared)))
  | _, [] => .ok none
  | 0, d :: _ => readOptional d
  | n + 1, _ :: rest => readHierarchyAt n rest
termination_by structural _ ds => ds

end

/-- Reads declarations under their paths; of those under one path the last counts. -/
def readAll : Document → Reading (List (String × Declared))
  | .mapping _ members => do return NameMap.ofPairs (← readMembers members)
  | .scalar ⟨_, _, _, true⟩ => .ok []
  | _ => .error "expected a map"

end Declared

namespace ResourceMap

/-- The fields of a resource map. -/
def fields : List Field :=
  [⟨"schema", none⟩, ⟨"path", none⟩, ⟨"static-leafref", none⟩]

/-- Reads a resource map. -/
def read (d : Document) : Reading ResourceMap := do
  let r ← d.record fields
  return {
    schema? := ← r.optionalText "schema"
    declared := ← r.withDefault "path" Declared.readAll []
    overrides := ← r.withDefault "static-leafref" Document.textMap [] }

end ResourceMap

end YangPartition
