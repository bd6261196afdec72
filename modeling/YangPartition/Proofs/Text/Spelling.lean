import Mathlib.Data.List.Basic
import YangPartition.Text.Words

/-!
# Identifiers told apart by their spellings

Camel case and snake case drop the separators of an identifier, so different identifiers may be
spelled the same. Plain identifiers are not: their words are in lower case, digits come last in a
word and a single `-` stands between words, so where a word begins can be seen in the spelling.
-/

namespace YangPartition.Text

/-! ### Plain identifiers -/

/-- Whether a character may stand in a word of a plain identifier. -/
def isWordChar (c : Char) : Bool := c.isLower || c.isDigit || c == '.'

/-- Whether a character may stand behind another one in a plain identifier. A `-` is followed by a
letter, and no letter follows a digit. -/
def mayFollow (a b : Char) : Bool :=
  if a = '-' then b.isLower else b == '-' || isWordChar b && !(a.isDigit && b.isLower)

/-- Whether a text may stand behind a character in a plain identifier. -/
def isPlainAfter (a : Char) : List Char → Bool
  | [] => a != '-'
  | c :: cs => mayFollow a c && isPlainAfter c cs

/-- Whether an identifier is plain. It begins as if a `-` stood before it. -/
def isPlain (s : String) : Bool := isPlainAfter '-' s.toList

/-- A word that stands behind others: a `-` comes before it, unless it begins with a digit, as it
then stands right behind a letter. -/
def behind : List Char → List Char
  | [] => ['-']
  | c :: cs => if c.isDigit then c :: cs else '-' :: c :: cs

example : camelCase "ipv4-address" = "ipv4Address" := by decide +kernel

end YangPartition.Text
