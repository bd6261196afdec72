import YangPartition.NameMap
import YangPartition.Text.Blank

/-!
# Paths

A path leads from the top of a schema to one of its nodes. Each of its elements
has a name and, for the entries of a list, keys with their values; the keys
ascend. Only the names decide where a path leads, so comparison of paths by
names ignores the keys; they are carried for the written form and for finding
the type of a referenced leaf.
-/

namespace YangPartition

/-! ### Elements -/

/-- The value of a key that may have any value. -/
def wildcard : String := "*"

/-- One step of a path: a name and the keys of a list entry. -/
structure Elem where
  /-- The name of the node. -/
  name : String
  /-- The keys and their values, in ascending order of the keys. -/
  keys : NameMap String
  /-- Each key occurs once, in its place. -/
  ascending : keys.Ascending := by simp [NameMap.Ascending]
  deriving DecidableEq, Repr

namespace Elem

/-- An element without keys. -/
def named (name : String) : Elem where
  name
  keys := []

/-- The element with one more key, or with a new value for a key it has. -/
def withKey (e : Elem) (key value : String) : Elem where
  name := e.name
  keys := e.keys.insert key value
  ascending := e.ascending.insert key value

/-- An element whose keys may have any value. -/
def wild (name : String) (keys : List String) : Elem :=
  keys.foldl (fun e key => e.withKey key wildcard) (named name)

/-- The written form: the name, then each key with its value in brackets. -/
def text (e : Elem) : String :=
  e.keys.foldl (fun s (key, value) => s ++ "[" ++ key ++ "=" ++ value ++ "]") e.name

end Elem

/-! ### Paths -/

/-- A path, from the top of the schema down. -/
structure Path where
  /-- The elements, the topmost first. -/
  elems : List Elem
  deriving DecidableEq, Repr

namespace Path

/-- The path of the top, which has no elements. -/
def root : Path := ⟨[]⟩

/-- The path of elements without keys. -/
def ofNames (names : List String) : Path := ⟨names.map Elem.named⟩

/-- The path one step further down. -/
def push (p : Path) (e : Elem) : Path := ⟨p.elems ++ [e]⟩

/-- The path one step further down, to a node without keys. -/
def pushName (p : Path) (name : String) : Path := p.push (.named name)

/-- The path without its last element. -/
def parent (p : Path) : Path := ⟨p.elems.dropLast⟩

/-- The path that goes on along another one. -/
def join (p q : Path) : Path := ⟨p.elems ++ q.elems⟩

/-- The path without its first `n` elements. -/
def drop (n : Nat) (p : Path) : Path := ⟨p.elems.drop n⟩

/-- The number of elements. -/
def length (p : Path) : Nat := p.elems.length

/-- Whether the path has no elements. -/
def isEmpty (p : Path) : Bool := p.elems.isEmpty

/-- The last element. -/
def last? (p : Path) : Option Elem := p.elems.getLast?

/-- The names of the elements. -/
def names (p : Path) : List String := p.elems.map (·.name)

/-- The path with all keys dropped. -/
def bare (p : Path) : Path := ofNames p.names

/-! ### Comparison by names -/

/-- Whether two lists of elements have the same names, as far as both go. -/
def agree : List Elem → List Elem → Bool
  | a :: as, b :: bs => a.name == b.name && agree as bs
  | _, _ => true

/-- Whether the second path goes through the end of the first or below. The second
is cut to the length of the first, and both are compared from their ends up. -/
def isAbove (p q : Path) : Bool :=
  p.length ≤ q.length && agree p.elems.reverse (q.elems.reverse.drop (q.length - p.length))

/-- Whether two paths lead to the same node. -/
def sameNames (p q : Path) : Bool := p.length == q.length && p.isAbove q

/-! ### Written form -/

/-- The written form of a path, `/` for the path of the top. -/
def textBy (f : Elem → String) (p : Path) : String :=
  if p.isEmpty then "/" else p.elems.foldl (fun s e => s ++ "/" ++ f e) ""

/-- The written form with the keys. -/
def text (p : Path) : String := p.textBy Elem.text

/-- The written form without the keys. -/
def nameText (p : Path) : String := p.textBy (·.name)

/-! ### Folding -/

/-- A path whose last name has become a key of the element before, with any
value unless that element has a value for it. Shorter paths stay as they are. -/
def foldKey (p : Path) : Path :=
  match p.elems.reverse with
  | leaf :: owner :: above =>
    let folded :=
      if owner.keys.contains leaf.name then owner else owner.withKey leaf.name wildcard
    ⟨(folded :: above).reverse⟩
  | _ => p

end Path

end YangPartition
