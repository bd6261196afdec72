import YangPartition.Container.Arena
import YangPartition.Container.Levels

/-!
# Resources

A resource is a subtree of the schema that is generated as one unit. The
resources of a map are numbered; number 0 is the root resource, which stands
for the whole schema, and the declared ones follow. Either the declared
resources are compiled, each with what it owns, or the whole schema into the
root resource.
-/

namespace YangPartition

/-! ### Resources -/

/-- A resource and what has been compiled into it. -/
structure Resource where
  /-- The number of the resource. -/
  id : Nat
  /-- The path of the resource, without keys. -/
  path : Path
  /-- The first name of the path. -/
  topName : String
  /-- The resource above. -/
  parent? : Option Nat
  /-- Paths that the resource leaves out, from the top. -/
  excludes : List Path := []
  /-- Paths of sub-resources, from the top. -/
  subResources : List Path := []
  /-- The resources below, in order. -/
  children : List Nat := []
  /-- The containers. -/
  arena : Arena := {}
  /-- The container of the resource's own node. -/
  root? : Option Nat := none
  /-- References that stay inside the resource. -/
  innerReferences : List Reference := []
  /-- References that lead out of the resource. -/
  outerReferences : List Reference := []
  /-- The containers of the branch that is being walked. -/
  levels : LevelStack := {}
  deriving DecidableEq, Repr

namespace Resource

/-- The number of the root resource. -/
def rootId : Nat := 0

/-- The root resource before compilation. -/
def top : Resource where
  id := rootId
  path := .root
  topName := ""
  parent? := none

/-- Whether the resource stands for the whole schema. -/
def isRoot (r : Resource) : Bool := r.id == rootId

/-- The written form of the path. -/
def pathText (r : Resource) : String := r.path.nameText

/-- The last name of the path, `root` for the root resource. -/
def name (r : Resource) : String := ((r.path.last?).map (·.name)).getD "root"

/-- The names of the path joined by `-`, behind a prefix if there is one. -/
def prefixedName (r : Resource) (leading : String) : String :=
  let joined := if r.path.isEmpty then "root" else "-".intercalate r.path.names
  if leading.isEmpty then joined else leading ++ "-" ++ joined

/-- The container of the resource's own node. -/
def rootContainer? (r : Resource) : Option Container := r.root?.bind r.arena.get?

end Resource

/-! ### Sets of resources -/

/-- Which resources are compiled. -/
inductive Mode where
  /-- The declared resources. -/
  | declared
  /-- The root resource. -/
  | full
  deriving DecidableEq, Repr

/-- The name of a mode. -/
def Mode.text : Mode → String
  | .declared => "declared"
  | .full => "full"

/-- The resources of a map. -/
structure ResourceSet where
  /-- The resources by their numbers, the root resource first. -/
  resources : Array Resource
  /-- Which of them are compiled. -/
  mode : Mode
  deriving DecidableEq, Repr

namespace ResourceSet

/-- The set with the root resource only. -/
def ofMode (mode : Mode) : ResourceSet := ⟨#[.top], mode⟩

/-- The number of resources. -/
def size (s : ResourceSet) : Nat := s.resources.size

/-- The resource of a number. -/
def get? (s : ResourceSet) (id : Nat) : Option Resource := s.resources[id]?

/-- All resources, the root resource first. -/
def toList (s : ResourceSet) : List Resource := s.resources.toList

/-- The declared resources. -/
def declared (s : ResourceSet) : List Resource := s.toList.drop 1

/-- The resources that are compiled. -/
def active (s : ResourceSet) : List Resource :=
  match s.mode with
  | .full => s.toList.take 1
  | .declared => s.declared

/-- The set with a resource changed. -/
def modify (s : ResourceSet) (id : Nat) (f : Resource → Resource) : ResourceSet :=
  { s with resources := s.resources.modify id f }

/-- The written form of the path of a resource. -/
def pathTextOf (s : ResourceSet) (id : Nat) : String :=
  ((s.get? id).map (·.pathText)).getD ""

end ResourceSet

end YangPartition
