import YangPartition.Json.Basic
import YangPartition.Resource.Basic
import YangPartition.Text.Words

/-!
# Manifests

A manifest describes the compiled resources for readers outside: everything is
given by names and written paths. Each container has a file stem, the name of
its file without extension: the names from the top of the schema down to it, in
camel case.
-/

namespace YangPartition

/-! ### File names -/

/-- The names of the path above a resource, joined by `-`. -/
def Resource.qualifier (r : Resource) : String :=
  "-".intercalate r.path.parent.names

/-- The file stem of the container at a place, in a resource with a qualifier. -/
def Arena.fileStem (a : Arena) (qualifier : String) (id : Nat) : String :=
  let name := a.rootedName id
  Text.camelCase (if qualifier.isEmpty then name else qualifier ++ "-" ++ name)

/-! ### Views -/

/-- What a manifest says of an entry. -/
structure EntryView where
  /-- The entry. -/
  entry : Entry
  /-- The file stem of the container it points to. -/
  next? : Option String
  /-- The full name of the container it points to. -/
  nextName? : Option String

/-- What a manifest says of a reference. -/
structure ReferenceView where
  /-- The reference. -/
  reference : Reference
  /-- The written path of the resource it leads to. -/
  resource? : Option String

/-- What a manifest says of a container. -/
structure ContainerView where
  /-- The container. -/
  container : Container
  /-- Its full name. -/
  fullName : String
  /-- Its file stem. -/
  fileStem : String
  /-- The names and file stems of the containers below. -/
  children : List (String × String)
  /-- Its references. -/
  references : List ReferenceView
  /-- Its entries. -/
  entries : List EntryView

/-- What a manifest says of a resource. -/
structure ResourceView where
  /-- The resource. -/
  resource : Resource
  /-- Its name behind the prefix. -/
  prefixedName : String
  /-- The written path of the declared resource above. -/
  parent? : Option String
  /-- The written paths of the resources below. -/
  children : List String
  /-- Its root container holds state. -/
  hasState : Bool
  /-- References that stay inside. -/
  innerReferences : List ReferenceView
  /-- References that lead out. -/
  outerReferences : List ReferenceView
  /-- Its containers. -/
  containers : List ContainerView

/-- What is said of the compiled resources. -/
structure Manifest where
  /-- Which resources are compiled. -/
  mode : Mode
  /-- The compiled resources. -/
  resources : List ResourceView

/-! ### Making views -/

/-- The view of an entry. -/
def EntryView.of (a : Arena) (qualifier : String) (e : Entry) : EntryView where
  entry := e
  next? := e.next?.map (a.fileStem qualifier)
  nextName? := e.next?.map a.fullName

/-- The view of a reference. -/
def ReferenceView.of (s : ResourceSet) (r : Reference) : ReferenceView where
  reference := r
  resource? := match r.scope with
    | .outside (some id) => some (s.pathTextOf id)
    | _ => none

/-- The view of the container at a place. -/
def ContainerView.of (s : ResourceSet) (a : Arena) (qualifier : String) (c : Container)
    (id : Nat) : ContainerView where
  container := c
  fullName := a.fullName id
  fileStem := a.fileStem qualifier id
  children := c.children.map fun child => (a.nameAt child, a.fileStem qualifier child)
  references := c.references.map (.of s)
  entries := c.entries.map (.of a qualifier)

/-- The view of a resource whose name gets a prefix. -/
def ResourceView.of (s : ResourceSet) (leading : String) (r : Resource) : ResourceView where
  resource := r
  prefixedName := r.prefixedName leading
  parent? := (r.parent?.filter (· != Resource.rootId)).map s.pathTextOf
  children := r.children.map s.pathTextOf
  hasState := r.rootContainer?.any (·.hasState)
  innerReferences := r.innerReferences.map (.of s)
  outerReferences := r.outerReferences.map (.of s)
  containers := r.arena.toList.zipIdx.map fun (c, id) => .of s r.arena r.qualifier c id

/-- The manifest of the compiled resources, whose names get a prefix. -/
def ResourceSet.manifest (s : ResourceSet) (leading : String) : Manifest :=
  ⟨s.mode, s.active.map (.of s leading)⟩

end YangPartition
