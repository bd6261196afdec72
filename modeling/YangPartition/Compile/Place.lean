import YangPartition.Compile.Visit
import YangPartition.Resource.Basic

/-!
# Placing nodes in a resource

A node that a resource owns becomes its root container, a container or list
below another one, a leaf-list with a container of its own for one value, or a
value. A node is placed in the container at the depth above its own.
-/

namespace YangPartition.Resource

/-- The depth of a path in the resource, 0 for its own. -/
def depthOf (r : Resource) (p : Path) : Nat := p.length - r.path.length

/-- The container for a visited node. -/
def parentFor? (r : Resource) (v : Visit) : Option Nat :=
  r.levels.parentFor? (r.depthOf v.path)

/-! ### Containers and entries -/

/-- Makes the root container. -/
def openRoot (r : Resource) (v : Visit) (boundary : Bool) : Resource :=
  let (arena, id) := r.arena.alloc { Container.ofDeclaration v.decl v.path none with boundary }
  { r with arena, root? := some id }

/-- Makes the container that stands for the top of the whole schema. -/
def openTop (r : Resource) : Resource :=
  let (arena, id) := r.arena.alloc (.ofName "root" none)
  { r with arena, root? := some id }

/-- Makes the container of a container or list, and the entry that points to it. -/
def putBranch (r : Resource) (v : Visit) (parent : Nat) (boundary : Bool) : Resource :=
  { r with
    arena := r.arena.hang parent
      { Container.ofDeclaration v.decl v.path (some parent) with boundary }
      (.ofDeclaration v.decl v.listKeys) }

/-- Makes the container of a leaf-list, with one value, and the entry that points to it. -/
def putLeafList (r : Resource) (v : Visit) (parent : Nat) (target? : Option Path) : Resource :=
  let container := { Container.ofDeclaration v.decl v.path (some parent) with synthetic := true }
  { r with
    arena := r.arena.hang parent (container.pushValue { Entry.value v.decl with target? })
      (.ofDeclaration v.decl v.listKeys) }

/-- Makes the entry of a leaf. -/
def putLeaf (r : Resource) (v : Visit) (parent : Nat) (target? : Option Path) : Resource :=
  { r with
    arena := r.arena.modify parent
      (·.pushValue { Entry.ofDeclaration v.decl v.listKeys with target? }) }

/-- Records a reference with the resource and with the container of its leaf. -/
def record (r : Resource) (parent : Nat) (ref : Reference) : Resource :=
  { r with
    arena := r.arena.modify parent fun c => { c with references := c.references ++ [ref] }
    innerReferences :=
      if ref.scope.isWithin then r.innerReferences ++ [ref] else r.innerReferences
    outerReferences :=
      if ref.scope.isWithin then r.outerReferences else r.outerReferences ++ [ref] }

/-- Makes what a node becomes in the container above it; its values refer to the target. -/
def putNode (r : Resource) (v : Visit) (parent : Nat) (boundary : Bool) (target? : Option Path) :
    Resource :=
  match v.decl.kind with
  | .container | .list => r.putBranch v parent boundary
  | .leafList => r.putLeafList v parent target?
  | _ => r.putLeaf v parent target?

/-- Makes what a node becomes in the container above it, and records its reference. -/
def put (r : Resource) (v : Visit) (parent : Nat) (boundary : Bool) (ref? : Option Reference) :
    Resource :=
  let placed := r.putNode v parent boundary (ref?.map (·.target))
  match ref? with
  | some ref => placed.record parent ref
  | none => placed

/-! ### Levels -/

/-- A node that is not placed must not have nodes placed below it; one with
values only leaves the branch as it is. -/
def abandon (r : Resource) (v : Visit) : Resource :=
  if v.decl.kind.isScalar then r
  else { r with levels := r.levels.truncate (r.depthOf v.path) }

/-- Places the node of the resource's own path, for the nodes below it to come. -/
def placeRoot (r : Resource) (v : Visit) (boundary : Bool) : Resource :=
  { r.openRoot v boundary with levels := r.levels.reset r.arena.size }

/-- Places the top of the whole schema, for the nodes below it to come. -/
def placeTop (r : Resource) : Resource :=
  { r.openTop with levels := r.levels.reset r.arena.size }

/-- Places a node in the container above it; a container or list also for the
nodes below it to come. -/
def placeBelow (r : Resource) (v : Visit) (parent : Nat) (boundary : Bool)
    (ref? : Option Reference) : Resource :=
  { r.put v parent boundary ref? with
    levels :=
      if v.decl.kind.isBranch then r.levels.enter (r.depthOf v.path) r.arena.size
      else r.levels }

end YangPartition.Resource
