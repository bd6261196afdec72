import YangPartition.Template.Tag
import YangPartition.Text.Blank

/-!
# Reading templates

Texts and tags are put together to the parts of a template, with a stack of the
blocks that are open. A tag that stands alone on its line, and leaves no text,
takes the line with it: the blanks before it and the end of the line behind it.
-/

namespace YangPartition

namespace Template

open Text

/-! ### Lines -/

/-- Whether a character is a blank within a line. -/
def isLineBlank (c : Char) : Bool := c == ' ' || c == '\t'

/-- Whether a character ends a line. -/
def isLineEnd (c : Char) : Bool := c == '\n' || c == '\r'

/-- The blanks at the end of a text. -/
def indentOf (text : String) : String :=
  String.ofList (text.toList.reverse.takeWhile isLineBlank).reverse

/-- Whether only blanks stand in a line before the end of a text; `first` if
nothing stands before the text. -/
def endsAtLineStart (first : Bool) (text : String) : Bool :=
  match (trimEnd isLineBlank text.toList).getLast? with
  | some c => isLineEnd c
  | none => first

/-- Whether the first line of a text is blank and has an end. -/
def startsAtLineEnd (text : String) : Bool :=
  (text.toList.dropWhile isLineBlank).head?.any isLineEnd

/-- A text without the blanks it starts with and the end of the line behind them. -/
def afterLineEnd (cs : List Char) : List Char :=
  match cs.dropWhile isLineBlank with
  | '\r' :: '\n' :: cs | '\n' :: cs => cs
  | cs => cs

/-! ### Parts in the making -/

/-- A block that is open. -/
structure OpenBlock where
  /-- Its head. -/
  head : BlockHead
  /-- It stands in place of the body of the block around it, and ends with it. -/
  chained : Bool
  /-- The parts before it, last first. -/
  before : List Element
  /-- Its body, once that is complete. -/
  body? : Option (List Element) := none

/-- The state of the reader. -/
structure Builder where
  /-- The parts read of the innermost open block, last first. -/
  parts : List Element := []
  /-- The open blocks, innermost first. -/
  blocks : List OpenBlock := []
  /-- The next text is trimmed in front. -/
  trimsNext : Bool := false
  /-- The next text loses the rest of its first line. -/
  dropsLine : Bool := false

namespace Builder

/-- Adds a part. -/
def push (b : Builder) (e : Element) : Builder := { b with parts := e :: b.parts }

/-- Drops characters from the end of the text that is the last part. -/
def trimLast (b : Builder) (p : Char → Bool) : Builder :=
  match b.parts with
  | .text s :: parts => { b with parts := .text (String.ofList (trimEnd p s.toList)) :: parts }
  | _ => b

/-- Adds the text between two tags. -/
def pushText (b : Builder) (text : String) : Builder :=
  let cs := text.toList
  if cs.isEmpty then b
  else if b.trimsNext ∧ cs.all isGap then b
  else
    let cs :=
      if b.trimsNext then cs.dropWhile isBlank
      else if b.dropsLine then afterLineEnd cs
      else cs
    { b.push (.text (String.ofList cs)) with dropsLine := false }

/-- The state behind a tag that takes its line with it if it is `alone`. -/
def takeLine (b : Builder) (alone : Bool) : Builder :=
  { if alone then b.trimLast isLineBlank else b with dropsLine := alone }

/-- Opens a block. -/
def openBlock (b : Builder) (head : BlockHead) (chained : Bool) : Builder :=
  { b with parts := [], blocks := ⟨head, chained, b.parts, none⟩ :: b.blocks }

/-- Ends the body of the innermost block. -/
def endBody (b : Builder) : Option Builder :=
  match b.blocks with
  | ⟨head, chained, before, none⟩ :: blocks =>
    some { b with parts := [], blocks := ⟨head, chained, before, some b.parts.reverse⟩ :: blocks }
  | _ => none

/-- Ends the innermost block and those that end with it; all are taken from a
list of open blocks. Gives the head of the outermost of them, the parts with
it, and the blocks that stay open. -/
def close (parts : List Element) : List OpenBlock →
    Option (BlockHead × List Element × List OpenBlock)
  | [] => none
  | block :: blocks =>
    let element : Element :=
      match block.body? with
      | none => .block block.head parts.reverse none
      | some body => .block block.head body (some parts.reverse)
    if block.chained then close (element :: block.before) blocks
    else some (block.head, element :: block.before, blocks)

/-- Takes a tag; `alone` if it stands alone on its line, behind an indent. -/
def take (b : Builder) (alone : Bool) (indent : String) (t : TrimmingTag) : Option Builder :=
  let b := if t.trimsBefore then b.trimLast isBlank else b
  let behind (b : Builder) : Builder := { b with trimsNext := t.trimsBehind }
  match t.tag with
  | .comment => some ((b.takeLine alone).push .comment)
  | .output e => some ((behind b).push (.output e))
  | .include name value? named =>
    let indent := if t.trimsBefore then "" else indent
    some (((behind b).takeLine alone).push (.include name value? named indent alone))
  | .opening head => some (((behind b).takeLine alone).openBlock head false)
  | .instead head? =>
    ((behind b).takeLine alone).endBody.map fun b =>
      match head? with
      | none => b
      | some head => b.openBlock head true
  | .closing name =>
    let b := (behind b).takeLine alone
    match close b.parts b.blocks with
    | some (head, parts, blocks) =>
      if head.name = name then some { b with parts, blocks } else none
    | none => none

/-- Takes the tags and the texts behind them; `text` is the text before the
first of them, and `first` tells that it is the first of all. -/
def takeAll (b : Builder) (first : Bool) (text : String) :
    List (List Token × String) → Option Builder
  | [] => some b
  | (tokens, next) :: rest => do
    let alone := endsAtLineStart first text && startsAtLineEnd next
    let b ← b.take alone (indentOf text) (← TrimmingTag.ofTokens? tokens)
    (b.pushText next).takeAll false next rest

end Builder

end Template

/-- The template of a text. -/
def Template.parse? (source : String) : Option Template := do
  let pieces ← Template.piecesOf? source
  let b ← (({} : Template.Builder).pushText pieces.lead).takeAll true pieces.lead pieces.tags
  if b.blocks.isEmpty then some b.parts.reverse else none

end YangPartition
