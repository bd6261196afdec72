import YangPartition.Resource.Basic

/-!
# Ownership

A path belongs to the compiled resource with the longest path above it, unless
that resource excludes it. Only names take part.
-/

namespace YangPartition

/-- What becomes of a path. -/
inductive Match where
  /-- No compiled resource is above the path. -/
  | unowned
  /-- The resource above it leaves it out. -/
  | excluded (id : Nat)
  /-- The resource owns it. -/
  | owned (id : Nat)
  deriving DecidableEq, Repr

namespace Match

/-- The name of an outcome. -/
def text : Match → String
  | unowned => "none"
  | excluded _ => "excluded"
  | owned _ => "matched"

/-- The resource that owns the path. -/
def owner? : Match → Option Nat
  | owned id => some id
  | _ => none

/-- The resource above the path, whether it leaves it out or not. -/
def resource? : Match → Option Nat
  | unowned => none
  | excluded id | owned id => some id

end Match

namespace ResourceSet

/-- Of the resources above a path, one that `beats` those before it. -/
def longest (beats : Nat → Nat → Bool) (p : Path) (resources : List Resource) :
    Option Resource :=
  resources.foldl (fun best r =>
    if r.path.isAbove p && best.all fun b => beats r.path.length b.path.length then some r
    else best) none

/-- The compiled resource with the longest path above a path, the first of several. -/
def bestMatch? (s : ResourceSet) (p : Path) : Option Resource :=
  longest (fun new old => old < new) p s.active

/-- The declared resource with the longest path above a path, the last of several. -/
def owner? (s : ResourceSet) (p : Path) : Option Resource :=
  longest (fun new old => old ≤ new) p s.declared

/-- Whether a resource leaves a path out. -/
def excludes (s : ResourceSet) (id : Nat) (p : Path) : Bool :=
  (s.get? id).any fun r => r.excludes.any (·.isAbove p)

/-- What becomes of a path. -/
def matchPath (s : ResourceSet) (p : Path) : Match :=
  match s.bestMatch? p with
  | none => .unowned
  | some r => if r.excludes.any (·.isAbove p) then .excluded r.id else .owned r.id

/-- The first declared resource that is rooted at a path. -/
def rootedAt? (s : ResourceSet) (p : Path) : Option Resource :=
  s.declared.find? (·.path.sameNames p)

/-- Whether a declared resource other than `owner` is rooted at a path. -/
def isBoundary (s : ResourceSet) (owner : Nat) (p : Path) : Bool :=
  s.declared.any fun r => r.id != owner && r.path.sameNames p

end ResourceSet

end YangPartition
