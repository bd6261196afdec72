import YangPartition.Json.Token

/-!
# Tokens of templates

A template is cut into text and tags, and each tag into tokens, one character at
a time. A tag starts at two open braces and ends at two closing ones. In front
of a tag a backslash makes the braces text, and more than one of them stand for
one less.
-/

namespace YangPartition.Template

/-! ### Tokens -/

/-- A token of a tag. -/
inductive Token where
  /-- A sign. -/
  | sign (c : Char)
  /-- A number, a name or a reference. -/
  | word (s : String)
  /-- A text in quotes. -/
  | quoted (s : String)
  /-- The sign and the text of a comment. -/
  | comment
  deriving DecidableEq, Repr

/-- A template in pieces: a text, and tags, each with the text behind it. -/
structure Pieces where
  /-- The text before the first tag. -/
  lead : String
  /-- The tags and the texts behind them. -/
  tags : List (List Token × String)

/-- Whether a character may stand in a name. -/
def isNameChar (c : Char) : Bool :=
  c.isAlphanum || c == '-' || c == '_' || c == '$' || 0x80 ≤ c.toNat

/-- Whether a text is a name. -/
def isName (s : String) : Bool :=
  !s.isEmpty && s.toList.all isNameChar

/-- Whether a character may stand in a reference outside brackets. -/
def isWordChar (c : Char) : Bool :=
  isNameChar c || c == '.' || c == '/' || c == '@'

/-- Whether a character may part tokens. -/
def isGap (c : Char) : Bool :=
  c == ' ' || c == '\t' || c == '\n' || c == '\r'

/-- Whether a character is a token. -/
def isSign (c : Char) : Bool :=
  "~#/^>&{}()=|".toList.contains c

/-! ### Quoted texts -/

/-- Text in single quotes as it stands in double quotes. -/
def requoted : List Char → List Char
  | '\\' :: '\'' :: cs => '\'' :: requoted cs
  | '"' :: cs => '\\' :: '"' :: requoted cs
  | c :: cs => c :: requoted cs
  | [] => []

/-- The text between quotes, whose escapes are those of JSON. -/
def unquoted? (quote : Char) (cs : List Char) : Option String :=
  let cs := if quote = '\'' then requoted cs else cs
  match Json.tokens ('"' :: cs ++ ['"']) with
  | some [.text s] => s
  | _ => none

/-! ### The scanner -/

/-- Where the scanner stands; what it holds is held backwards. -/
inductive ScanState where
  /-- In text. -/
  | inText (held : List Char)
  /-- In a tag between tokens; `braced` behind an open brace in it. -/
  | inTag (braced : Bool)
  /-- In a word. -/
  | inWord (braced : Bool) (held : List Char)
  /-- In a word, in brackets. -/
  | inBrackets (braced : Bool) (held : List Char)
  /-- In quotes; `escaped` behind a backslash. -/
  | inQuotes (braced : Bool) (quote : Char) (escaped : Bool) (held : List Char)
  /-- Behind the first of the braces that end a tag. -/
  | closing
  /-- In a comment; a long one ends at dashes. -/
  | inComment (long : Bool)

/-- Whether a text occurs in another one. -/
def occursIn (part : List Char) : List Char → Bool
  | [] => part.isEmpty
  | c :: cs => part.isPrefixOf (c :: cs) || occursIn part cs

/-- The end of a long comment. -/
def longCommentEnd : List Char := ['-', '-', '}', '}']

/-- What has been scanned; the tags and the tokens of the last one are held backwards. -/
structure Scanned where
  /-- The text before the first tag, once it is complete. -/
  lead? : Option String := none
  /-- The tokens of the last tag. -/
  tokens : List Token := []
  /-- The tags that the text behind is known of. -/
  tags : List (List Token × String) := []

namespace Scanned

/-- Takes a token. -/
def push (s : Scanned) (t : Token) : Scanned := { s with tokens := t :: s.tokens }

/-- Takes a word, given backwards. -/
def pushWord (s : Scanned) (held : List Char) : Scanned :=
  s.push (.word (String.ofList held.reverse))

/-- Takes the text between two tags, given backwards. -/
def pushText (s : Scanned) (held : List Char) : Scanned :=
  let text := String.ofList held.reverse
  match s.lead? with
  | none => { s with lead? := some text }
  | some _ => { s with tokens := [], tags := (s.tokens.reverse, text) :: s.tags }

/-- The pieces, with what is held of the last text. -/
def pieces (s : Scanned) (held : List Char) : Pieces :=
  let s := s.pushText held
  ⟨s.lead?.getD "", s.tags.reverse⟩

/-- Whether nothing but a trimming sign has been read of the last tag. -/
def atStart (s : Scanned) : Bool :=
  s.tokens.isEmpty || s.tokens = [.sign '~']

end Scanned

/-- Takes a character between tokens of a tag. -/
def betweenTokens (s : Scanned) (braced : Bool) (c : Char) : Option (Scanned × ScanState) :=
  if isGap c then some (s, .inTag braced)
  else if c = '"' ∨ c = '\'' then some (s, .inQuotes braced c false [])
  else if c = '[' then some (s, .inBrackets braced [c])
  else if c = '}' ∧ braced = false then some (s, .closing)
  else if isSign c ∧ (c != '/' ∨ s.atStart) then
    some (s.push (.sign c), .inTag (c = '{' || braced && c != '}'))
  else if isWordChar c then some (s, .inWord braced [c])
  else none

/-- Takes a character of a tag that is no comment. -/
def tagStep (s : Scanned) (state : ScanState) (c : Char) : Option (Scanned × ScanState) :=
  match state with
  | .inTag braced => betweenTokens s braced c
  | .inWord braced held =>
    if isWordChar c then some (s, .inWord braced (c :: held))
    else if c = '[' then some (s, .inBrackets braced (c :: held))
    else betweenTokens (s.pushWord held) braced c
  | .inBrackets braced held =>
    some (s, if c = ']' then .inWord braced (c :: held) else .inBrackets braced (c :: held))
  | .inQuotes braced quote escaped held =>
    if c = quote ∧ escaped = false then
      (unquoted? quote held.reverse).map fun text => (s.push (.quoted text), .inTag braced)
    else some (s, .inQuotes braced quote (c = '\\' && !escaped) (c :: held))
  | .closing => if c = '}' then some (s, .inText []) else none
  | .inText _ | .inComment _ => none

/-- The pieces of a template whose rest is to be scanned. -/
def scan (s : Scanned) (state : ScanState) (rest : List Char) : Option Pieces :=
  match state, rest with
  | .inText held, [] => some (s.pieces held)
  | .inText held, '{' :: '{' :: cs =>
    match held, cs with
    | '\\' :: '\\' :: held, cs => scan (s.pushText ('\\' :: held)) (.inTag false) cs
    | '\\' :: held, '{' :: '{' :: cs => scan s (.inText ('{' :: '{' :: '{' :: '{' :: held)) cs
    | '\\' :: held, cs => scan s (.inText ('{' :: '{' :: held)) cs
    | held, cs => scan (s.pushText held) (.inTag false) cs
  | .inText held, c :: cs => scan s (.inText (c :: held)) cs
  | .inComment true, '-' :: '-' :: '}' :: '}' :: cs => scan s (.inText []) cs
  | .inComment false, '}' :: '}' :: cs => scan s (.inText []) cs
  | .inComment long, _ :: cs => scan s (.inComment long) cs
  | .inTag false, '!' :: '-' :: '-' :: cs =>
    if s.atStart then scan (s.push .comment) (.inComment (occursIn longCommentEnd cs)) cs
    else none
  | .inTag false, '!' :: cs =>
    if s.atStart then scan (s.push .comment) (.inComment false) cs else none
  | state, c :: cs =>
    match tagStep s state c with
    | some (s, state) => scan s state cs
    | none => none
  | _, [] => none
termination_by structural rest

/-- The pieces of a template. -/
def piecesOf? (source : String) : Option Pieces :=
  scan {} (.inText []) source.toList

end YangPartition.Template
