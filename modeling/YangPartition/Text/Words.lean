import YangPartition.Text.Casing
import YangPartition.Text.Cluster

/-!
# Words of an identifier

An identifier falls into words at `_`, `-` and spaces, which are dropped, and
where its clusters change between lower case, upper case and digits. The words
are written again in one of the usual spellings.
-/

namespace YangPartition.Text

/-! ### Kinds of clusters -/

/-- A cluster that is in upper case and would change in lower case. -/
def isUpperCluster (g : List Char) : Bool :=
  let u := upper g
  u != lower g && g == u

/-- A cluster that is in lower case and would change in upper case. -/
def isLowerCluster (g : List Char) : Bool :=
  let l := lower g
  upper g != l && g == l

/-- A cluster of decimal digits. -/
def isDigitCluster (g : List Char) : Bool :=
  g.all Char.isDigit

/-- A cluster that separates words and belongs to none. -/
def isSeparator (g : List Char) : Bool :=
  g == ['_'] || g == ['-'] || g == [' ']

/-- Whether a word ends between the cluster `a` and the cluster `b`, which
`rest` follows. -/
def endsWord (a b : List Char) (rest : List (List Char)) : Bool :=
  (isLowerCluster a && (isUpperCluster b || isDigitCluster b)) ||
  (isUpperCluster a && isDigitCluster b) ||
  (isDigitCluster a && (isLowerCluster b || isUpperCluster b)) ||
  (isUpperCluster a && isUpperCluster b &&
    match rest with
    | c :: _ => isLowerCluster c
    | [] => false)

/-! ### Words -/

/-- The words of a list of clusters, each as the text of its clusters; empty words are kept. -/
def wordsOfClusters : List (List Char) → List (List Char)
  | [] => [[]]
  | g :: gs =>
    if isSeparator g then [] :: wordsOfClusters gs
    else
      let ends := match gs with
        | [] => false
        | h :: rest => endsWord g h rest
      match wordsOfClusters gs with
      | [] => [g]
      | w :: ws => if ends then g :: w :: ws else (g ++ w) :: ws

/-- The words of an identifier. -/
def identifierWords (s : String) : List (List Char) :=
  wordsOfClusters (clusters s.toList)

/-! ### Spellings -/

/-- The words in a row, the first in lower case and the others capital. -/
def camelCase (s : String) : String :=
  match identifierWords s with
  | [] => ""
  | w :: ws => String.ofList (lower w ++ ws.flatMap capital)

/-- The words in a row, all capital. -/
def pascalCase (s : String) : String :=
  String.ofList ((identifierWords s).flatMap capital)

/-- The words in lower case, a separator between neighbours. -/
def joinedLower (sep : String) (s : String) : String :=
  sep.intercalate ((identifierWords s).map fun w => String.ofList (lower w))

/-- The words in lower case, joined by `-`. -/
def kebabCase (s : String) : String :=
  joinedLower "-" s

/-- The words in lower case, joined by `_`. -/
def snakeCase (s : String) : String :=
  joinedLower "_" s

end YangPartition.Text
