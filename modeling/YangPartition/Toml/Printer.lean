import YangPartition.Json.Printer
import YangPartition.Toml.Basic

/-!
# Writing TOML

A text is written in the plainest quotes that can hold it: double ones without
an escape, single ones, three of either, and double ones with escapes at last. A
text with several lines starts on a line of its own. Arrays of more than one
item have one on each line.
-/

namespace YangPartition.Toml

/-! ### Texts -/

/-- The longest row of a character in a text. -/
def longestRow (c : Char) (cs : List Char) : Nat :=
  (cs.foldl (fun (best, row) d =>
    let row := if d = c then row + 1 else 0
    (max best row, row)) (0, 0)).1

/-- Whether a character can be written only as an escape. -/
def needsEscape (c : Char) : Bool :=
  (c.toNat < 0x20 && c != '\t' && c != '\n') || c.toNat == 0x7F

/-- A character in double quotes; a quote is escaped behind a number of others,
and an end of a line unless it is `long`. -/
def writeChar (long : Bool) (c : Char) : List Char :=
  let hex (n : Nat) : Char := (Json.hexDigit n).toUpper
  if c = '\\' then ['\\', '\\']
  else if c = '\x08' then ['\\', 'b']
  else if c = '\t' then ['\\', 't']
  else if c = '\n' then if long then [c] else ['\\', 'n']
  else if c = '\x0c' then ['\\', 'f']
  else if c = '\r' then ['\\', 'r']
  else if c.toNat < 0x20 ∨ c.toNat = 0x7F then
    ['\\', 'u', '0', '0', hex (c.toNat / 16), hex (c.toNat % 16)]
  else [c]

/-- A text in double quotes, without these; in a row of quotes, as many as a
number may stand, and the next one is escaped. -/
def writeChars (long : Bool) (most row : Nat) : List Char → List Char
  | [] => []
  | c :: cs =>
    if c = '"' then
      if row = most then '\\' :: '"' :: writeChars long most 0 cs
      else '"' :: writeChars long most (row + 1) cs
    else writeChar long c ++ writeChars long most 0 cs

/-- A text in quotes. -/
def writeText (s : String) : String :=
  let cs := s.toList
  let hasLines := cs.contains '\n'
  let escapes := cs.any needsEscape
  let backslash := cs.contains '\\'
  let doubles := longestRow '"' cs
  let singles := longestRow '\'' cs
  let start := if hasLines then "\n" else ""
  let short := "\"" ++ String.ofList (writeChars false 0 0 cs) ++ "\""
  let long := "\"\"\"" ++ start ++ String.ofList (writeChars true 2 0 cs) ++ "\"\"\""
  if !escapes && !backslash && doubles = 0 && !hasLines then short
  else if !escapes && singles = 0 && !hasLines then "'" ++ s ++ "'"
  else if !escapes && !backslash && doubles ≤ 2 then long
  else if !escapes && singles ≤ 2 then "'''" ++ start ++ s ++ "'''"
  else if hasLines then long else short

/-! ### Members -/

/-- An array of texts. -/
def writeTexts : List String → String
  | [] => "[]"
  | [s] => "[" ++ writeText s ++ "]"
  | l => "[\n" ++ String.join (l.map fun s => "    " ++ writeText s ++ ",\n") ++ "]"

/-- A truth value. -/
def writeTruth (b : Bool) : String := if b then "true" else "false"

/-- A line of a name and a written value. -/
def writeMember (name value : String) : String := name ++ " = " ++ value ++ "\n"

/-- A table with a name, and its lines. -/
def writeTable (name : String) (members : List (String × String)) : String :=
  "[" ++ name ++ "]\n" ++ String.join (members.map fun (name, value) => writeMember name value)

end YangPartition.Toml
