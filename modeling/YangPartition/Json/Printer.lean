import YangPartition.Json.Basic

/-!
# Writing JSON

A value is written on one line without blanks, or over several lines with two
blanks for each level. In texts only quotes, backslashes and control characters
are escaped.
-/

namespace YangPartition.Json

/-! ### Texts -/

/-- A hexadecimal digit. -/
def hexDigit (n : Nat) : Char := (Nat.digitChar n)

/-- A character inside quotes. -/
def writeChar (c : Char) : List Char :=
  if c = '"' ∨ c = '\\' then ['\\', c]
  else if c = '\x08' then ['\\', 'b']
  else if c = '\x0c' then ['\\', 'f']
  else if c = '\n' then ['\\', 'n']
  else if c = '\r' then ['\\', 'r']
  else if c = '\t' then ['\\', 't']
  else if c.toNat < 0x20 then
    ['\\', 'u', '0', '0', hexDigit (c.toNat / 16), hexDigit (c.toNat % 16)]
  else [c]

/-- A text in quotes. -/
def writeText (s : String) : String :=
  String.ofList ('"' :: s.toList.flatMap writeChar ++ ['"'])

/-! ### One line -/

mutual

/-- A value on one line. -/
def text : Json → String
  | null => "null"
  | bool b => if b then "true" else "false"
  | num literal => literal
  | str s => writeText s
  | arr items => "[" ++ ",".intercalate (itemTexts items) ++ "]"
  | obj members => "\x7b" ++ ",".intercalate (memberTexts members) ++ "\x7d"
termination_by structural j => j

/-- Values on one line each. -/
def itemTexts : List Json → List String
  | [] => []
  | item :: items => item.text :: itemTexts items
termination_by structural js => js

/-- Named values on one line each. -/
def memberTexts : List (String × Json) → List String
  | [] => []
  | (name, value) :: members => (writeText name ++ ":" ++ value.text) :: memberTexts members
termination_by structural js => js

end

/-! ### Several lines -/

/-- A line break and the blanks of a level. -/
def newline (level : Nat) : String := "\n" ++ String.ofList (List.replicate (2 * level) ' ')

/-- Parts between brackets, each on a line of its own. -/
def spread (opening closing : String) (level : Nat) (parts : List String) : String :=
  if parts.isEmpty then opening ++ closing
  else
    opening ++ ",".intercalate (parts.map fun part => newline (level + 1) ++ part) ++
      newline level ++ closing

mutual

/-- A value over several lines, as part of a given level. -/
def lines (level : Nat) : Json → String
  | arr items => spread "[" "]" level (itemLines (level + 1) items)
  | obj members => spread "\x7b" "\x7d" level (memberLines (level + 1) members)
  | null => "null"
  | bool b => if b then "true" else "false"
  | num literal => literal
  | str s => writeText s
termination_by structural j => j

/-- Values over several lines. -/
def itemLines (level : Nat) : List Json → List String
  | [] => []
  | item :: items => item.lines level :: itemLines level items
termination_by structural js => js

/-- Named values over several lines. -/
def memberLines (level : Nat) : List (String × Json) → List String
  | [] => []
  | (name, value) :: members =>
    (writeText name ++ ": " ++ value.lines level) :: memberLines level members
termination_by structural js => js

end

/-- A value over several lines. -/
def pretty (j : Json) : String := j.lines 0

end YangPartition.Json
