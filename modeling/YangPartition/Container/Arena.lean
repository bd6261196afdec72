import YangPartition.Container.Basic

/-!
# Arenas

The containers of a resource, in the order in which they were made. A container
is known by its place. It is made after the container above it, so the chain of
containers above goes down in places and ends.
-/

namespace YangPartition

/-- The containers of a resource. -/
structure Arena where
  /-- The containers, in the order in which they were made. -/
  containers : Array Container := #[]
  deriving DecidableEq, Repr

namespace Arena

/-! ### Access -/

/-- The number of containers. -/
def size (a : Arena) : Nat := a.containers.size

/-- The container at a place. -/
def get? (a : Arena) (id : Nat) : Option Container := a.containers[id]?

/-- The places of all containers. -/
def ids (a : Arena) : List Nat := List.range a.size

/-- The containers, in the order in which they were made. -/
def toList (a : Arena) : List Container := a.containers.toList

/-- The arena with the container at a place changed. -/
def modify (a : Arena) (id : Nat) (f : Container → Container) : Arena :=
  ⟨a.containers.modify id f⟩

/-- The arena with one more container, which becomes the last child of the
container above it; and its place. -/
def alloc (a : Arena) (c : Container) : Arena × Nat :=
  let linked := match c.parent? with
    | some p => a.modify p fun above => { above with children := above.children ++ [a.size] }
    | none => a
  (⟨linked.containers.push c⟩, a.size)

/-- The arena with one more container below another one, and the entry there that
points to it. -/
def hang (a : Arena) (parent : Nat) (c : Container) (e : Entry) : Arena :=
  let (a, id) := a.alloc { c with parent? := some parent }
  a.modify parent (·.push (e.pointingTo id))

/-! ### The tree -/

/-- The container above the one at a place. -/
def parent? (a : Arena) (id : Nat) : Option Nat := (a.get? id).bind (·.parent?)

/-- The first `n` containers above the one at a place, nearest first. -/
def above (a : Arena) : Nat → Nat → List Nat
  | 0, _ => []
  | n + 1, id =>
    match a.parent? id with
    | some p => p :: a.above n p
    | none => []

/-- The containers above the one at a place, nearest first. A container stands
behind all of them, so there are no more of them than its place. -/
def ancestors (a : Arena) (id : Nat) : List Nat := a.above id id

/-- The first child of a name. -/
def childNamed? (a : Arena) (id : Nat) (name : String) : Option Nat :=
  ((a.get? id).map (·.children)).getD [] |>.find? fun c => (a.get? c).any (·.name == name)

/-! ### Names -/

/-- The name of the container at a place. -/
def nameAt (a : Arena) (id : Nat) : String := ((a.get? id).map (·.name)).getD ""

/-- Whether the container at a place stands on top and has no node. -/
def isSyntheticTop (a : Arena) (id : Nat) : Bool :=
  (a.get? id).any fun c => c.synthetic && c.parent?.isNone

/-- The names of the containers from the top down to a place, joined by `-`;
containers above without a node on top are left out. -/
def fullName (a : Arena) (id : Nat) : String :=
  "-".intercalate
    ((((a.ancestors id).filter fun i => !a.isSyntheticTop i).reverse ++ [id]).map a.nameAt)

/-- The names of the containers from the top down to a place, joined by `-`. -/
def rootedName (a : Arena) (id : Nat) : String :=
  "-".intercalate (((a.ancestors id).reverse ++ [id]).map a.nameAt)

end Arena

end YangPartition
