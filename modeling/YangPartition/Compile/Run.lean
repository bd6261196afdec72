import YangPartition.Compile.Place
import YangPartition.Compile.Reference

/-!
# Compilation

Compilation visits the nodes of a forest in order. A node goes to the resource
that owns its path, unless it is excluded, a procedure or unwanted state. Every
node is counted under what became of it. Compilation stops at a node whose name
no path can hold and at a second node for the root of a resource, and leaves the
resources as they were before that node.
-/

namespace YangPartition

/-! ### Accounts -/

/-- How many nodes were visited and what became of them. -/
structure Stats where
  /-- Visited nodes. -/
  nodes : Nat := 0
  /-- Containers made. -/
  containers : Nat := 0
  /-- Entries made. -/
  entries : Nat := 0
  /-- Nodes that their resource excludes. -/
  excluded : Nat := 0
  /-- Read-only nodes left out. -/
  skippedState : Nat := 0
  /-- Procedures left out. -/
  skippedRpc : Nat := 0
  /-- Owned nodes without a container to be placed in. -/
  unplaced : Nat := 0
  /-- References found. -/
  references : Nat := 0
  deriving DecidableEq, Repr

/-- What a compilation goes by. -/
structure Options where
  /-- Read-only nodes are placed too. -/
  includeState : Bool := false
  /-- What the map states about references. -/
  overrides : Overrides := {}

/-- The state of a compilation. -/
structure Run where
  /-- The resources and what has been compiled into them. -/
  set : ResourceSet
  /-- The accounts. -/
  stats : Stats := {}
  deriving DecidableEq, Repr

namespace Run

/-! ### One visit -/

/-- Leaves a node of a resource out. -/
def abandon (r : Run) (id : Nat) (v : Visit) : Run :=
  { r with set := r.set.modify id (·.abandon v) }

/-- Places a node in the container above it; counts its containers and entries. -/
def placeBelow (r : Run) (id : Nat) (v : Visit) (parent : Nat) (boundary : Bool)
    (ref? : Option Reference) : Run :=
  let (containers, entries) : Nat × Nat :=
    match v.decl.kind with
    | .container | .list => (1, 1)
    | .leafList => (1, 2)
    | _ => (0, 1)
  { set := r.set.modify id (·.placeBelow v parent boundary ref?)
    stats := { r.stats with
      containers := r.stats.containers + containers
      entries := r.stats.entries + entries
      references := r.stats.references + if ref?.isSome then 1 else 0 } }

/-- Places a node that a resource owns. -/
def place (o : Options) (r : Run) (x : Resource) (v : Visit) : Except Error Run :=
  let boundary := r.set.isBoundary x.id v.path
  if x.depthOf v.path = 0 then
    if v.decl.kind.isScalar then
      .ok { r with stats := { r.stats with unplaced := r.stats.unplaced + 1 } }
    else if x.root?.isSome then
      .error (.rootDefinedAgain (v.decl.moduleName?.getD "") v.path.nameText)
    else
      .ok { set := r.set.modify x.id (·.placeRoot v boundary)
            stats := { r.stats with containers := r.stats.containers + 1 } }
  else
    match x.parentFor? v with
    | none =>
      .ok ({ r with stats := { r.stats with unplaced := r.stats.unplaced + 1 } }.abandon x.id v)
    | some parent =>
      let ref? :=
        if v.decl.kind.isScalar then Reference.of? r.set o.overrides x.id v.path v.decl else none
      .ok (r.placeBelow x.id v parent boundary ref?)

/-- Takes a node that a resource owns: procedures and unwanted state are left out. -/
def take (o : Options) (r : Run) (x : Resource) (v : Visit) : Except Error Run :=
  if v.decl.kind = .rpc then
    .ok ({ r with stats := { r.stats with skippedRpc := r.stats.skippedRpc + 1 } }.abandon x.id v)
  else if v.decl.readOnly && !o.includeState then
    .ok ({ r with
      stats := { r.stats with skippedState := r.stats.skippedState + 1 } }.abandon x.id v)
  else r.place o x v

/-- Visits one node. -/
def visit (o : Options) (r : Run) (v : Visit) : Except Error Run :=
  let r := { r with stats := { r.stats with nodes := r.stats.nodes + 1 } }
  if v.decl.kind.isTransparent then .ok r
  else if !v.decl.hasPathName then
    .error (.invalidNodeName (v.decl.moduleName?.getD "") v.decl.name v.below.nameText)
  else
    match r.set.bestMatch? v.path with
    | none => .ok r
    | some x =>
      if x.excludes.any (·.isAbove v.path) then
        .ok ({ r with
          stats := { r.stats with excluded := r.stats.excluded + 1 } }.abandon x.id v)
      else r.take o x v

/-! ### All visits -/

/-- Visits nodes in order, up to the first that cannot be visited. -/
def visitAll (o : Options) : Run → List Visit → Run × Option Error
  | r, [] => (r, none)
  | r, v :: vs =>
    match r.visit o v with
    | .ok r => visitAll o r vs
    | .error e => (r, some e)

end Run

namespace ResourceSet

/-- The set as it stands before compilation. -/
def prepared (s : ResourceSet) : ResourceSet :=
  match s.mode with
  | .full => s.modify Resource.rootId (·.placeTop)
  | .declared => s

/-- The set with all level stacks empty. -/
def settled (s : ResourceSet) : ResourceSet :=
  { s with resources := s.resources.map fun r => { r with levels := r.levels.clear } }

/-- Compiles a forest into the resources; also gives the resources when it stops. -/
def compile (o : Options) (f : Forest) (s : ResourceSet) : ResourceSet × Except Error Stats :=
  match Run.visitAll o { set := s.prepared } f.visits with
  | (r, none) => (r.set.settled, .ok r.stats)
  | (r, some e) => (r.set, .error e)

end ResourceSet

end YangPartition
