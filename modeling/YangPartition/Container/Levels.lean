/-!
# Level stacks

While a branch of the schema is walked, the level stack of a resource holds the
container last made at each depth, from the root of the resource down.
-/

namespace YangPartition

/-- The container last made at each depth. -/
structure LevelStack where
  /-- The containers, that of depth 0 first. -/
  levels : List Nat := []
  deriving DecidableEq, Repr

namespace LevelStack

/-- The number of depths that have a container. -/
def depth (s : LevelStack) : Nat := s.levels.length

/-- Starts over with a container at depth 0. -/
def reset (_ : LevelStack) (id : Nat) : LevelStack := ⟨[id]⟩

/-- The container for nodes at a depth: the one at the depth above. -/
def parentFor? (s : LevelStack) : Nat → Option Nat
  | 0 => none
  | d + 1 => s.levels[d]?

/-- Forgets the containers from a depth on. -/
def truncate (s : LevelStack) (depth : Nat) : LevelStack := ⟨s.levels.take depth⟩

/-- Puts a container at a depth and forgets those further down; nothing when
the depth above has none. -/
def enter? (s : LevelStack) (depth id : Nat) : Option LevelStack :=
  if s.depth < depth then none else some ⟨s.levels.take depth ++ [id]⟩

/-- Puts a container at a depth where the depth above has one. -/
def enter (s : LevelStack) (depth id : Nat) : LevelStack :=
  (s.enter? depth id).getD s

/-- Forgets all containers. -/
def clear (_ : LevelStack) : LevelStack := ⟨[]⟩

end LevelStack

end YangPartition
