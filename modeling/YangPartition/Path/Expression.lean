import YangPartition.Error
import YangPartition.Path.Basic

/-!
# Reference expressions

A leaf may name another leaf by an expression: steps between slashes, read from
the top of the schema when the expression starts with a slash and from the leaf
itself otherwise. Predicates do not count. The steps work on the names of the
path so far, and the leaf reached becomes a key of the node above it.
-/

namespace YangPartition

open Text

/-- A step of a reference expression. -/
inductive Expression.Step where
  /-- Stays where it is. -/
  | stay
  /-- Goes one level up. -/
  | up
  /-- Goes down to the node of the name. -/
  | down (name : String)
  deriving DecidableEq, Repr

namespace Expression

/-- A text without what stands in brackets. Behind an opening bracket `held` is
the text since, backwards; it stays when no closing bracket follows. -/
def dropPredicates (held : Option (List Char)) : List Char → List Char
  | [] => (held.getD []).reverse
  | c :: cs =>
    match held with
    | none => if c = '[' then dropPredicates (some [c]) cs else c :: dropPredicates none cs
    | some inside =>
      if c = ']' then dropPredicates none cs else dropPredicates (some (c :: inside)) cs

/-- The step that a text between slashes stands for. -/
def Step.ofText (cs : List Char) : Step :=
  let cs := trim cs
  let s := String.ofList cs
  if s = "" ∨ s = "." ∨ s = "current()" then .stay
  else if s = ".." then .up
  else .down (String.ofList (afterLast ':' cs))

/-- The names after the steps; nothing when a step goes above the top. -/
def walk : List String → List Step → Option (List String)
  | names, [] => some names
  | names, .stay :: steps => walk names steps
  | names, .up :: steps => if names.isEmpty then none else walk names.dropLast steps
  | names, .down name :: steps => walk (names ++ [name]) steps

/-- The path that an expression of the leaf at the given path refers to. -/
def resolve (expr : String) (leaf : Path) : Except Error Path :=
  let cs := dropPredicates none (trim expr.toList)
  let start := if cs.head? = some '/' then [] else leaf.names
  if cs.isEmpty then .error (.invalidPath expr)
  else
    match walk start ((pieces (· == '/') cs).map Step.ofText) with
    | none => .error (.invalidPath expr)
    | some [] => .error (.invalidPath expr)
    | some names => .ok (Path.ofNames names).foldKey

end Expression

end YangPartition
