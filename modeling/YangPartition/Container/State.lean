import YangPartition.Container.Arena

/-!
# State marks

A container is marked when it or a container below it holds state: an entry
that is read-only, or a mark that was there before.
-/

namespace YangPartition.Arena

/-- Marks the container at a place. -/
def mark (a : Arena) (id : Nat) : Arena :=
  a.modify id fun c => { c with hasState := true }

/-- Marks the container at a place and those above it. -/
def markUp (a : Arena) (id : Nat) : Arena :=
  (id :: a.ancestors id).foldl mark a

/-- The places of the containers that hold state of their own or are marked. -/
def statefulIds (a : Arena) : List Nat :=
  a.ids.filter fun id => (a.get? id).any (·.isStateful)

/-- Marks every container that holds state, and those above it. -/
def closeState (a : Arena) : Arena :=
  a.statefulIds.foldl markUp a

/-- The number of marked containers. -/
def markedCount (a : Arena) : Nat :=
  a.toList.countP (·.hasState)

end YangPartition.Arena
