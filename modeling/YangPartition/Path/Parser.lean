import YangPartition.Error
import YangPartition.Path.Basic

/-!
# Reading paths

A path is written as segments between slashes; slashes inside brackets belong
to their segment. A segment is a name, maybe with a module prefix, and
predicates in brackets that give keys their values. Brackets have to balance
and each segment that is not empty needs a name.
-/

namespace YangPartition.Path

open Text

/-! ### Segments -/

/-- A character in front of the first segment. -/
def startWith (c : Char) : List (List Char) → List (List Char)
  | [] => [[c]]
  | s :: more => (c :: s) :: more

/-- The segments of a text that starts inside `depth` brackets; nothing when
the brackets do not balance. -/
def segments (depth : Nat) : List Char → Option (List (List Char))
  | [] => if depth = 0 then some [[]] else none
  | c :: cs =>
    if c = '/' ∧ depth = 0 then (segments 0 cs).map ([] :: ·)
    else
      let rest :=
        if c = '[' then segments (depth + 1) cs
        else if c = ']' then if depth = 0 then none else segments (depth - 1) cs
        else segments depth cs
      rest.map (startWith c)

/-! ### Predicates -/

/-- What stands between each opening bracket and the next closing one; nothing
when an opening bracket has no closing one. Inside a predicate `held` is its
text so far, backwards. -/
def predicates (held : Option (List Char)) : List Char → Option (List (List Char))
  | [] => if held.isNone then some [] else none
  | c :: cs =>
    match held with
    | none => if c = '[' then predicates (some []) cs else predicates none cs
    | some inside =>
      if c = ']' then (predicates none cs).map (inside.reverse :: ·)
      else predicates (some (c :: inside)) cs

/-- The key and the value of a predicate; without `=` any value. -/
def keyOfPredicate (predicate : List Char) : String × String :=
  let (key, value) := (cutAt '=' predicate).getD (predicate, wildcard.toList)
  (String.ofList (afterLast ':' (trim key)),
    String.ofList (trimBy (fun c => c = '\'' || c = '"') (trim value)))

/-! ### Elements and paths -/

/-- An element with the key that a predicate gives. -/
def withPredicate (e : Elem) (predicate : List Char) : Elem :=
  let (key, value) := keyOfPredicate predicate
  e.withKey key value

/-- The element that a segment stands for. -/
def elemOfSegment (segment : List Char) : Except Error Elem :=
  let name := String.ofList (afterLast ':' (trim (segment.takeWhile (· != '['))))
  if name.isEmpty then .error (.invalidPath (String.ofList segment))
  else
    match predicates none segment with
    | none => .error (.invalidPath (String.ofList segment))
    | some ps => .ok (ps.foldl withPredicate (.named name))

/-- The elements of the segments that are not empty. -/
def elemsOfSegments (segments : List (List Char)) : Except Error (List Elem) :=
  (segments.filter (!·.isEmpty)).mapM elemOfSegment

/-- The path that a text stands for. -/
def parse (s : String) : Except Error Path :=
  let cs := trim s.toList
  match segments 0 cs with
  | none => .error (.invalidPath (String.ofList cs))
  | some ss => (elemsOfSegments ss).map Path.mk

end YangPartition.Path
