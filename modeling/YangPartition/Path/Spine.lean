import YangPartition.Path.Basic

/-!
# Spines

A path may be held by its spine: the last element first and each followed by the
one above it, so that paths share the elements that they have in common. Their
number is kept beside them and counted along. A path is left by going up one
element, and two paths are compared from their ends, once the longer one has been
climbed as far as the counts differ.
-/

namespace YangPartition.Path

/-- The elements of a path from its end up, with their number. -/
structure Spine where
  /-- The elements, the last one first. -/
  upward : List Elem
  /-- The number of elements, as it was counted. -/
  count : Nat
  deriving DecidableEq, Repr

namespace Spine

/-! ### Building -/

/-- The spine of the top, which has no elements. -/
def root : Spine := ⟨[], 0⟩

/-- The spine one step further down. -/
def push (t : Spine) (e : Elem) : Spine := ⟨e :: t.upward, t.count + 1⟩

/-- The spine of the given elements, the topmost first. -/
def ofElems (es : List Elem) : Spine := es.foldl push root

/-- The spine of elements without keys. -/
def ofNames (names : List String) : Spine := ofElems (names.map Elem.named)

/-- The spine without its last element. -/
def parent (t : Spine) : Spine :=
  match t.upward with
  | _ :: above => ⟨above, t.count - 1⟩
  | [] => root

/-- The elements, the topmost first. -/
def elems (t : Spine) : List Elem := t.upward.reverse

/-- The names of the elements. -/
def names (t : Spine) : List String := t.elems.map (·.name)

/-- The last element. -/
def last? (t : Spine) : Option Elem := t.upward.head?

/-- The spine that goes on along another one. -/
def join (t u : Spine) : Spine := u.elems.foldl push t

/-- The spine without its first `n` elements. -/
def drop (n : Nat) (t : Spine) : Spine := ofElems (t.elems.drop n)

/-- A spine whose last name has become a key of the element before, with any
value unless that element has a value for it. Shorter spines stay as they are. -/
def foldKey (t : Spine) : Spine :=
  if t.count < 2 then t
  else
    match t.last?, t.parent.last? with
    | some leaf, some owner =>
      t.parent.parent.push
        (if owner.keys.contains leaf.name then owner else owner.withKey leaf.name wildcard)
    | _, _ => t

/-! ### Comparison by names -/

/-- Whether the second spine goes through the end of the first or below. The second
is climbed as far as its count is greater, and then both until one of them ends. -/
def isAbove (t u : Spine) : Bool :=
  t.count ≤ u.count && agree t.upward (u.upward.drop (u.count - t.count))

/-- Whether two spines lead to the same node. -/
def sameNames (t u : Spine) : Bool := t.count == u.count && t.isAbove u

end Spine

end YangPartition.Path
