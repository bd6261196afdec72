/-!
# Blank space and splitting

Texts are handled as lists of characters. Blank characters are those with the
Unicode property `White_Space`. A text is trimmed at both ends by a test on
characters, and split at a separator into the pieces between its occurrences.
-/

namespace YangPartition.Text

/-! ### Blank characters -/

/-- The characters with the Unicode property `White_Space`. -/
def isBlank (c : Char) : Bool :=
  let n := c.toNat
  (9 ≤ n && n ≤ 13) || n == 0x20 || n == 0x85 || n == 0xA0 || n == 0x1680 ||
    (0x2000 ≤ n && n ≤ 0x200A) || n == 0x2028 || n == 0x2029 || n == 0x202F ||
    n == 0x205F || n == 0x3000

/-! ### Trimming -/

/-- Drops the characters that pass the test from the end of a text. -/
def trimEnd (p : Char → Bool) (cs : List Char) : List Char :=
  (cs.reverse.dropWhile p).reverse

/-- Drops the characters that pass the test from both ends of a text. -/
def trimBy (p : Char → Bool) (cs : List Char) : List Char :=
  trimEnd p (cs.dropWhile p)

/-- Drops blank characters from both ends of a text. -/
def trim (cs : List Char) : List Char :=
  trimBy isBlank cs

/-! ### Splitting -/

/-- The pieces of a text between the characters that pass the test; one more
than there are such characters. -/
def pieces (p : Char → Bool) : List Char → List (List Char)
  | [] => [[]]
  | c :: cs =>
    if p c then [] :: pieces p cs
    else
      match pieces p cs with
      | [] => [[c]]
      | piece :: more => (c :: piece) :: more

/-- The non-empty pieces between blank characters. -/
def words (s : String) : List String :=
  ((pieces isBlank s.toList).filter (!·.isEmpty)).map String.ofList

/-- The text before the first occurrence of a character and the text after it. -/
def cutAt (c : Char) : List Char → Option (List Char × List Char)
  | [] => none
  | d :: ds => if d = c then some ([], ds) else (cutAt c ds).map fun (a, b) => (d :: a, b)

/-- What follows the last occurrence of a character; the whole text if it does not occur. -/
def afterLast (c : Char) (cs : List Char) : List Char :=
  (cs.reverse.takeWhile (· != c)).reverse

end YangPartition.Text
