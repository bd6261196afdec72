import YangPartition.Text.Property

/-!
# Quoted texts

A text in double quotes for messages, on one line and without invisible
characters: quotes and backslashes are escaped, control and other unprintable
characters and combining marks are written by their code points.
-/

namespace YangPartition.Text

/-- Whether a character is written by its code point inside quotes. -/
def isHidden (c : Char) : Bool :=
  let n := c.toNat
  if n < 0x7F then n < 0x20
  else Property.inRanges Property.unprintable n || Property.inRanges Property.graphemeExtend n

/-- A character inside quotes; `apostrophe` tells whether `'` is escaped. -/
def quotedChar (apostrophe : Bool) (c : Char) : List Char :=
  if c = '\x00' then ['\\', '0']
  else if c = '\t' then ['\\', 't']
  else if c = '\n' then ['\\', 'n']
  else if c = '\r' then ['\\', 'r']
  else if c = '"' ∨ c = '\\' ∨ (apostrophe ∧ c = '\'') then ['\\', c]
  else if isHidden c then ['\\', 'u', '\x7b'] ++ Nat.toDigits 16 c.toNat ++ ['\x7d']
  else [c]

/-- A text in quotes. -/
def quoted (s : String) : String :=
  String.ofList ('"' :: s.toList.flatMap (quotedChar false) ++ ['"'])

/-- A file name in quotes: apostrophes are escaped too. -/
def quotedFile (s : String) : String :=
  String.ofList ('"' :: s.toList.flatMap (quotedChar true) ++ ['"'])

end YangPartition.Text
