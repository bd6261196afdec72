import YangPartition.Container.Arena

/-!
# Types of referenced leaves

The path of a reference leads through the containers below a root container to
the entry of a leaf. The leaf of a folded path is the first key of its last
element.
-/

namespace YangPartition.Arena

/-- The container reached along names from the one at a place. -/
def descend? (a : Arena) (id : Nat) : List String → Option Nat
  | [] => some id
  | name :: names => (a.childNamed? id name).bind fun child => a.descend? child names

/-- The entry at a path below a container: that of the first key of the last
element in its container, or else that of the last name in the container above. -/
def entryAt? (a : Arena) (root : Nat) (p : Path) : Option Entry := do
  let last ← p.last?
  let above ← a.descend? root p.parent.names
  match last.keys with
  | (key, _) :: _ => (← a.get? (← a.childNamed? above last.name)).entryNamed? key
  | [] => (← a.get? above).entryNamed? last.name

/-- The type of the entry at a path below a container. -/
def typeAt? (a : Arena) (root : Nat) (p : Path) : Option String :=
  (a.entryAt? root p).map (·.typeName)

end YangPartition.Arena
