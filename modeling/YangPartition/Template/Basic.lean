import YangPartition.Json.Basic

/-!
# Templates

A template is text with expressions, blocks and other templates in it. It is
filled in from data: the data as a whole, and the value that the block around
an expression has chosen.
-/

namespace YangPartition.Template

/-- Where a reference starts. -/
inductive Origin where
  /-- At the value that many blocks further out. -/
  | value (up : Nat)
  /-- At the data as a whole. -/
  | data
  /-- At a variable of the block that many blocks further out. -/
  | variable (up : Nat)
  deriving DecidableEq, Repr

/-- A reference to a part of the data. -/
structure DataRef where
  /-- The reference as it is written. -/
  text : String
  /-- Where it starts. -/
  origin : Origin
  /-- The names of the members to go on to. -/
  names : List String
  deriving DecidableEq, Repr

/-- An expression of a template. -/
inductive Expr where
  /-- A value that is written out. -/
  | literal (value : Json)
  /-- A part of the data. -/
  | ref (r : DataRef)
  /-- A function of values. -/
  | call (name : String) (args : List Expr) (named : List (String × Expr))
  deriving Inhabited

/-- What a block does: its function, the values for it, and the names that it
gives to what it chooses. -/
structure BlockHead where
  /-- The function. -/
  name : String
  /-- Its values. -/
  args : List Expr
  /-- Its named values. -/
  named : List (String × Expr)
  /-- The names given to what it chooses. -/
  binders : List String
  deriving Inhabited

/-- A part of a template. -/
inductive Element where
  /-- Text. -/
  | text (s : String)
  /-- A comment, which leaves nothing behind. -/
  | comment
  /-- The text of a value. -/
  | output (e : Expr)
  /-- A part that is filled in as often as the head says, and another one in its place. -/
  | block (head : BlockHead) (body : List Element) (instead : Option (List Element))
  /-- Another template, with the value it is filled in from, in lines that start
  with an indent; `ownLine` if its first line starts with it too. -/
  | include (name : Expr) (value? : Option Expr) (named : List (String × Expr))
      (indent : String) (ownLine : Bool)
  deriving Inhabited

end YangPartition.Template

namespace YangPartition

/-- A template: its parts in order. -/
abbrev Template := List Template.Element

end YangPartition
