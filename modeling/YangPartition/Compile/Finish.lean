import YangPartition.Compile.Run
import YangPartition.Container.State
import YangPartition.Container.Types

/-!
# Finishing

When all nodes have been placed, references get the types of the leaves they
refer to, in the resource of the whole schema, and the containers of declared
resources are marked up to the root where they hold state. Types are looked up
before any is written, so a reference to a reference gets the type that its
target had.
-/

namespace YangPartition

/-- The type of a reference whose target has not been found. -/
def typeNotFound : String := "not found"

/-- A reference whose target has not been found. -/
structure Unresolved where
  /-- The resource of the reference. -/
  resource : Nat
  /-- The full name of the container. -/
  container : String
  /-- The name of the entry. -/
  entry : String
  /-- The written target. -/
  target : String
  deriving DecidableEq, Repr

/-- What finishing has found. -/
structure FinishReport where
  /-- The number of references whose targets have been found. -/
  resolved : Nat := 0
  /-- The references whose targets have not been found. -/
  unresolved : List Unresolved := []
  /-- The number of marked containers of declared resources. -/
  stateful : Nat := 0
  deriving DecidableEq, Repr

/-- Whether all targets have been found. -/
def FinishReport.isClean (r : FinishReport) : Bool := r.unresolved.isEmpty

/-! ### Types of references -/

/-- The types found, under the written targets. -/
abbrev Findings := NameMap (Option String)

namespace Findings

/-- What is found about a target. -/
def get? (f : Findings) (target : Path) : Option (Option String) := f.find? target.text

/-- The type that is written for a target. -/
def typeFor (f : Findings) (target : Path) : String :=
  ((f.get? target).getD none).getD typeNotFound

/-- Looks the types of targets up, each written target once. -/
def ofTargets (a : Arena) (root : Nat) (targets : List Path) : Findings :=
  targets.foldl (fun f target =>
    if f.contains target.text then f
    else NameMap.insert target.text (a.typeAt? root target) f) []

end Findings

/-- The entries of an arena that refer to a path, each with the place of its
container and its target. -/
def Arena.referring (a : Arena) : List (Nat × Entry × Path) :=
  (a.toList.zipIdx).flatMap fun (c, id) =>
    c.entries.filterMap fun e => e.target?.map fun target => (id, e, target)

namespace Resource

/-- An entry with the type of its target. -/
def typedEntry (f : Findings) (e : Entry) : Entry :=
  match e.target? with
  | some target => { e with typeName := f.typeFor target }
  | none => e

/-- A reference with the type of its target, where it has been looked up. -/
def typedReference (f : Findings) (r : Reference) : Reference :=
  match f.get? r.target with
  | some found => { r with resolvedType? := some (found.getD typeNotFound) }
  | none => r

/-- Writes the types found to all entries and references. -/
def withTypes (r : Resource) (f : Findings) : Resource :=
  { r with
    arena := ⟨r.arena.containers.map fun c =>
      { c with
        entries := c.entries.map (typedEntry f)
        references := c.references.map (typedReference f) }⟩
    innerReferences := r.innerReferences.map (typedReference f)
    outerReferences := r.outerReferences.map (typedReference f) }

/-- Gives all references of a resource the types of their targets. -/
def resolveTypes (r : Resource) : Resource × FinishReport :=
  match r.root? with
  | none => (r, {})
  | some root =>
    let referring := r.arena.referring
    let f := Findings.ofTargets r.arena root (referring.map fun (_, _, target) => target)
    let found (target : Path) : Bool := ((f.get? target).getD none).isSome
    (r.withTypes f,
      { resolved := referring.countP fun (_, _, target) => found target
        unresolved := (referring.filter fun (_, _, target) => !found target).map
          fun (id, e, target) => ⟨r.id, r.arena.fullName id, e.name, target.text⟩ })

end Resource

/-! ### Finishing -/

namespace ResourceSet

/-- Marks the containers that hold state, of every resource but the root resource. -/
def closeState (s : ResourceSet) : ResourceSet :=
  { s with
    resources := s.resources.map fun r =>
      if r.isRoot then r else { r with arena := r.arena.closeState } }

/-- The number of marked containers of declared resources. -/
def markedCount (s : ResourceSet) : Nat :=
  ((s.toList.filter fun r => !r.isRoot).map (·.arena.markedCount)).foldl (· + ·) 0

/-- Gives the references of the whole schema their types. -/
def resolveTypes (s : ResourceSet) : ResourceSet × FinishReport :=
  match s.mode, s.get? Resource.rootId with
  | .full, some top =>
    let (top, report) := top.resolveTypes
    (s.modify Resource.rootId fun _ => top, report)
  | _, _ => (s, {})

/-- Finishes compiled resources. -/
def finish (s : ResourceSet) : ResourceSet × FinishReport :=
  let (s, report) := s.resolveTypes
  let s := s.closeState
  (s, { report with stateful := s.markedCount })

/-- Compiles a forest and finishes the resources. -/
def build (o : Options) (f : Forest) (s : ResourceSet) :
    ResourceSet × Except Error (Stats × FinishReport) :=
  match s.compile o f with
  | (s, .ok stats) =>
    let (s, report) := s.finish
    (s, .ok (stats, report))
  | (s, .error e) => (s, .error e)

end ResourceSet

end YangPartition
