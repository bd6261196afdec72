import YangPartition.Text.CaseTable
import YangPartition.Text.Property

/-!
# Upper and lower case

Full case conversion of texts: a character may become several, and a capital
sigma becomes a final sigma at the end of a word. A word ends where a cased
character stands before and none stands after, case-ignorable characters
skipped on both sides.
-/

namespace YangPartition.Text

/-! ### Characters -/

/-- The mapping of a character by a table of expansions and one of runs. -/
def mapCase (expansions : Array (Nat × List Nat)) (runs : Array CaseRun) (c : Char) : List Char :=
  let n := c.toNat
  match expansions.find? (·.1 == n) with
  | some (_, image) => image.map Char.ofNat
  | none => [Char.ofNat ((runs.findSome? (·.image? n)).getD n)]

/-- The upper case of a character. -/
def upperChar (c : Char) : List Char :=
  if c.toNat < 128 then [c.toUpper] else mapCase upperExpansions upperRuns c

/-- The lower case of a character that stands alone. -/
def lowerChar (c : Char) : List Char :=
  if c.toNat < 128 then [c.toLower] else mapCase lowerExpansions lowerRuns c

/-- Whether a character has or is in a case. -/
def isCased (c : Char) : Bool :=
  Property.inRanges Property.cased c.toNat

/-- Whether a character is skipped in the search for the end of a word. -/
def isCaseIgnorable (c : Char) : Bool :=
  Property.inRanges Property.caseIgnorable c.toNat

/-! ### Texts -/

/-- The upper case of a text. -/
def upper (cs : List Char) : List Char :=
  cs.flatMap upperChar

/-- Whether the first character that is not ignorable is cased. -/
def meetsCased (cs : List Char) : Bool :=
  match cs.dropWhile isCaseIgnorable with
  | [] => false
  | c :: _ => isCased c

/-- The lower case of a text that follows `before`, nearest character first. -/
def lowerAfter (before : List Char) : List Char → List Char
  | [] => []
  | c :: cs =>
    let image :=
      if c = 'Σ' then
        if meetsCased before && !meetsCased cs then ['ς'] else ['σ']
      else lowerChar c
    image ++ lowerAfter (c :: before) cs

/-- The lower case of a text. -/
def lower (cs : List Char) : List Char :=
  lowerAfter [] cs

/-- A text with its first character in upper and the rest in lower case. -/
def capital : List Char → List Char
  | [] => []
  | c :: cs => upperChar c ++ lower cs

end YangPartition.Text
