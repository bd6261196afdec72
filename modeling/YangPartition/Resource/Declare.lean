import YangPartition.Path.Parser
import YangPartition.Resource.Basic
import YangPartition.Resource.Map

/-!
# Resources of a map

The declarations of a map become resources in the order in which they are
found: a declaration, then those in its hierarchy. The path of a resource is
that of the resource above it and then its own; keys do not count. No two
declared resources have one written path.
-/

namespace YangPartition

namespace ResourceSet

/-- Reads paths below a resource. -/
def readBelow (above : Path) (texts : List String) : Except Error (List Path) :=
  texts.mapM fun text => return above.join (← Path.parse text).bare

/-- Adds one resource to a set. -/
def add (s : ResourceSet) (r : Resource) (parent : Nat) : ResourceSet :=
  { s with resources := s.resources.push r }.modify parent fun above =>
    { above with children := above.children ++ [r.id] }

/-- The resource of a declaration below another resource, whose first name it has unless that is the
root resource. -/
def declaredResource (s : ResourceSet) (parent : Resource) (text : String) (d : Declared) :
    Except Error Resource := do
  let relative := (← Path.parse text).bare
  if relative.isEmpty then .error (.invalidPath text)
  let path := parent.path.join relative
  if s.declared.any (·.pathText == path.nameText) then .error (.ambiguousResource path.nameText)
  return {
    id := s.size
    path
    topName := if parent.isRoot then relative.names.headD "" else parent.topName
    parent? := some parent.id
    excludes := ← readBelow path d.excludes
    subResources := ← readBelow path d.subResources }

mutual

/-- Adds the resources of a declaration that stands under a path. -/
def declare (s : ResourceSet) (parent : Resource) (text : String) :
    Declared → Except Error ResourceSet
  | ⟨excludes, hierarchy?, subResources⟩ => do
    let r ← s.declaredResource parent text ⟨excludes, none, subResources⟩
    declareOptional (s.add r parent.id) r hierarchy?
termination_by structural d => d

/-- Adds the resources of a hierarchy that may be missing. -/
def declareOptional (s : ResourceSet) (parent : Resource) :
    Option (List (String × Declared)) → Except Error ResourceSet
  | none => .ok s
  | some hierarchy => declareAll s parent hierarchy
termination_by structural h => h

/-- Adds the resources of declarations under their paths. -/
def declareAll (s : ResourceSet) (parent : Resource) :
    List (String × Declared) → Except Error ResourceSet
  | [] => .ok s
  | (text, d) :: rest => do declareAll (← s.declare parent text d) parent rest
termination_by structural ds => ds

end

/-- The resources of a map. -/
def ofMap (m : ResourceMap) (mode : Mode) : Except Error ResourceSet :=
  declareAll (ofMode mode) .top m.declared

end ResourceSet

end YangPartition
