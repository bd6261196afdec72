import YangPartition.Text.Blank

/-!
# File names

File paths are texts of names with slashes between. They are joined and taken
apart as texts, without a look at the disk.
-/

namespace YangPartition.FileName

open Text

/-- Whether a path starts at the top of the disk. -/
def isAbsolute (path : String) : Bool := path.toList.head? == some '/'

/-- A path that goes on from another one; an absolute one stands for itself. -/
def join (a b : String) : String :=
  if isAbsolute b then b
  else if a.isEmpty || a.toList.getLast? == some '/' then a ++ b
  else a ++ "/" ++ b

/-- The names between the slashes, without empty ones. -/
def names (path : String) : List String :=
  ((pieces (· == '/') path.toList).filter (!·.isEmpty)).map String.ofList

/-- Whether something has to be a directory since a slash ends its path. -/
def endsInSlash (path : String) : Bool := path.toList.getLast? == some '/'

/-- The names that lead along a path; a slash at the end leads into the directory. -/
def steps (path : String) : List String :=
  names path ++ if endsInSlash path then ["."] else []

/-- The last name, unless it leads up. -/
def last? (path : String) : Option String :=
  match ((names path).filter (· != ".")).getLast? with
  | some ".." => none
  | name? => name?

/-- The stem and the extension of a name: they are parted by its last dot, which
does not stand in front. -/
def parts (name : String) : String × Option String :=
  let cs := name.toList
  let extension := (cs.reverse.takeWhile (· != '.')).reverse
  let stem := cs.take (cs.length - extension.length - 1)
  if stem.isEmpty || name == ".." then (name, none)
  else (String.ofList stem, some (String.ofList extension))

/-- The extension of the last name. -/
def extension? (path : String) : Option String :=
  (last? path).bind fun name => (parts name).2

/-- Names with the extension of the last one dropped. -/
def withoutExtension : List String → List String
  | [] => []
  | [name] => [(parts name).1]
  | name :: names => name :: withoutExtension names

end YangPartition.FileName
