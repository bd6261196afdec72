/-!
# YAML tokens

YAML text is cut into tokens. Block structure is given by indentation: the
scanner keeps the columns of the open blocks and says where blocks start and
end. A scalar or flow collection may turn out to be a key when a colon follows;
its place among the tokens is remembered until then. Line breaks are one
character each when scanning starts.

Anchors, aliases, tags and directives are not read.
-/

namespace YangPartition.Yaml

/-- A token of YAML text. -/
inductive Token where
  | sequenceStart | mappingStart | blockEnd
  | flowSequenceStart | flowSequenceEnd | flowMappingStart | flowMappingEnd
  | blockEntry | flowEntry | key | value
  | documentStart | documentEnd
  /-- A scalar, plain or not, and its text. -/
  | scalar (plain : Bool) (text : String)
  deriving DecidableEq, Repr

/-! ### Characters -/

/-- A space or tab. -/
def isSpace (c : Char) : Bool := c == ' ' || c == '\t'

/-- The end of a line. -/
def isBreak (c : Char) : Bool := c == '\n' || c == '\u2028' || c == '\u2029'

/-- Whether a text starts with a space, ends its line or ends. -/
def atBlank : List Char → Bool
  | [] => true
  | c :: _ => isSpace c || isBreak c

/-- Whether a character may stand in YAML text. -/
def isAllowed (c : Char) : Bool :=
  let n := c.toNat
  n == 0x9 || n == 0xA || n == 0xD || (0x20 ≤ n && n ≤ 0x7E) || n == 0x85 ||
    (0xA0 ≤ n && n ≤ 0xFFFD && n != 0xFEFF) || 0x10000 ≤ n

/-- A text with every line break of ASCII and Latin-1 as one character. -/
def unifyBreaks : List Char → List Char
  | '\r' :: '\n' :: cs => '\n' :: unifyBreaks cs
  | c :: cs => (if c = '\r' ∨ c = '\u0085' then '\n' else c) :: unifyBreaks cs
  | [] => []

/-! ### Places -/

/-- A place in the text: what is left from it on, its line, column and distance
from the start. -/
structure Place where
  /-- What is left. -/
  rest : List Char
  /-- The line, from 0. -/
  line : Nat := 0
  /-- The column, from 0. -/
  column : Nat := 0
  /-- The distance from the start. -/
  offset : Nat := 0

namespace Place

/-- The place behind the next character. -/
def next (p : Place) : Place :=
  match p.rest with
  | [] => p
  | c :: rest =>
    if isBreak c then ⟨rest, p.line + 1, 0, p.offset + 1⟩
    else ⟨rest, p.line, p.column + 1, p.offset + 1⟩

/-- The place `n` characters further on. -/
def skip : Nat → Place → Place
  | 0, p => p
  | n + 1, p => p.next.skip n

/-- The place behind the characters that pass the test, and these characters. -/
def span (test : Char → Bool) (p : Place) : List Char × Place :=
  let taken := p.rest.takeWhile test
  (taken, p.skip taken.length)

/-- Whether a line starts here with three marks and a blank. -/
def atMarker (p : Place) (mark : Char) : Bool :=
  p.column == 0 &&
    match p.rest with
    | a :: b :: c :: rest => a == mark && b == mark && c == mark && atBlank rest
    | _ => false

/-- Whether a document starts or ends here. -/
def atDocumentMarker (p : Place) : Bool := p.atMarker '-' || p.atMarker '.'

end Place

/-! ### Blank space inside scalars -/

/-- The spaces and line breaks between two parts of a scalar: the spaces if
there is no break, the first break, and the breaks after it. -/
structure Gap where
  /-- The spaces when there is no break. -/
  spaces : List Char := []
  /-- The first break. -/
  first? : Option Char := none
  /-- The further breaks. -/
  more : List Char := []
  /-- A break has been seen or escaped. -/
  broken : Bool := false

/-- What a gap contributes to the text: one break becomes a space, of several
all but the first stay. -/
def Gap.text (g : Gap) : List Char :=
  if g.broken then
    match g.first? with
    | some '\n' => if g.more.isEmpty then [' '] else g.more
    | some c => c :: g.more
    | none => g.more
  else g.spaces

/-- Reads a gap, from `fuel` characters at most. In a plain scalar no tab may
stand left of the column `tabLimit`. -/
def Gap.read (tabLimit : Nat) : Nat → Gap → Place → Option (Gap × Place)
  | 0, g, p => some (g, p)
  | fuel + 1, g, p =>
    match p.rest with
    | [] => some (g, p)
    | c :: _ =>
      if isSpace c then
        if g.broken then
          if c = '\t' ∧ p.column < tabLimit then none else Gap.read tabLimit fuel g p.next
        else Gap.read tabLimit fuel { g with spaces := g.spaces ++ [c] } p.next
      else if isBreak c then
        if g.broken then Gap.read tabLimit fuel { g with more := g.more ++ [c] } p.next
        else Gap.read tabLimit fuel { g with spaces := [], first? := some c, broken := true } p.next
      else some (g, p)

/-! ### Plain scalars -/

/-- Whether a plain scalar ends here. -/
def endsPlain (flow : Bool) : List Char → Bool
  | [] => true
  | c :: rest =>
    isSpace c || isBreak c || (c == ':' && atBlank rest) ||
      (flow && (c == ',' || c == '[' || c == ']' || c == '{' || c == '}'))

/-- Whether a colon stands in a flow collection where none may stand. -/
def isStrayColon : List Char → Bool
  | ':' :: c :: _ => c == ',' || c == '?' || c == '[' || c == ']' || c == '{' || c == '}'
  | _ => false

/-- The part of a plain scalar up to a blank or its end. -/
def plainPart (flow : Bool) : List Char → Option (List Char)
  | [] => some []
  | c :: rest =>
    if isSpace c || isBreak c then some []
    else if flow && isStrayColon (c :: rest) then none
    else if endsPlain flow (c :: rest) then some []
    else (plainPart flow rest).map (c :: ·)

/-- Reads a plain scalar in a block of the given column; tells whether it ends
behind a line break. -/
def readPlain (flow : Bool) (indent : Nat) : Nat → Gap → Place →
    Option (List Char × Bool × Place)
  | 0, _, _ => none
  | fuel + 1, g, p =>
    if p.atDocumentMarker || p.rest.head? == some '#' then some ([], g.broken, p)
    else do
      let part ← plainPart flow p.rest
      let q := p.skip part.length
      let leading := if part.isEmpty then [] else g.text
      let g := if part.isEmpty then g else {}
      if !atBlank q.rest || q.rest.isEmpty then some (leading ++ part, g.broken, q)
      else
        let (g, q) ← g.read indent (q.rest.length + 1) q
        if !flow && q.column < indent then some (leading ++ part, g.broken, q)
        else
          let (more, broken, q) ← readPlain flow indent fuel g q
          some (leading ++ part ++ more, broken, q)

/-! ### Quoted scalars -/

/-- The value of a hexadecimal digit. -/
def hexValue? (c : Char) : Option Nat :=
  if c.isDigit then some (c.toNat - '0'.toNat)
  else if 'a' ≤ c ∧ c ≤ 'f' then some (c.toNat - 'a'.toNat + 10)
  else if 'A' ≤ c ∧ c ≤ 'F' then some (c.toNat - 'A'.toNat + 10)
  else none

/-- The character of an escape with one letter. -/
def simpleEscape? (c : Char) : Option Char :=
  match c with
  | '0' => some '\x00'
  | 'a' => some '\x07'
  | 'b' => some '\x08'
  | 't' | '\t' => some '\t'
  | 'n' => some '\n'
  | 'v' => some '\x0b'
  | 'f' => some '\x0c'
  | 'r' => some '\r'
  | 'e' => some '\x1b'
  | ' ' => some ' '
  | '"' => some '"'
  | '/' => some '/'
  | '\\' => some '\\'
  | 'N' => some '\u0085'
  | '_' => some '\u00a0'
  | 'L' => some '\u2028'
  | 'P' => some '\u2029'
  | _ => none

/-- The number of digits of an escape by code point. -/
def digitCount? (c : Char) : Option Nat :=
  match c with
  | 'x' => some 2
  | 'u' => some 4
  | 'U' => some 8
  | _ => none

/-- The character of an escape behind its backslash, and the characters it takes. -/
def escape? : List Char → Option (Char × Nat)
  | [] => none
  | c :: rest =>
    match digitCount? c with
    | some n => do
      let digits := rest.take n
      if digits.length < n then none
      let value ← digits.foldlM (fun v d => (hexValue? d).map (v * 16 + ·)) 0
      if value < 0xD800 ∨ (0xDFFF < value ∧ value < 0x110000) then
        some (Char.ofNat value, n + 1)
      else none
    | none => (simpleEscape? c).map fun d => (d, 1)

/-- Reads a quoted scalar behind its opening quote. -/
def readQuoted (double : Bool) : Nat → Place → Option (List Char × Place)
  | 0, _ => none
  | fuel + 1, p =>
    if p.atDocumentMarker then none
    else
      match p.rest with
      | [] => none
      | c :: rest =>
        if isSpace c || isBreak c then do
          let (g, q) ← ({} : Gap).read 0 (p.rest.length + 1) p
          let (more, q) ← readQuoted double fuel q
          some (g.text ++ more, q)
        else if c = '\'' ∧ ¬ double then
          if rest.head? = some '\'' then
            (readQuoted double fuel (p.skip 2)).map fun (more, q) => ('\'' :: more, q)
          else some ([], p.next)
        else if c = '"' ∧ double then some ([], p.next)
        else if c = '\\' ∧ double then
          match rest with
          | d :: _ =>
            if isBreak d then do
              let (g, q) ← ({ broken := true } : Gap).read 0 (p.rest.length + 1) (p.skip 2)
              let (more, q) ← readQuoted double fuel q
              some (g.text ++ more, q)
            else do
              let (e, n) ← escape? rest
              let (more, q) ← readQuoted double fuel (p.skip (n + 1))
              some (e :: more, q)
          | [] => none
        else (readQuoted double fuel p.next).map fun (more, q) => (c :: more, q)

/-! ### Block scalars -/

/-- What becomes of the line breaks at the end of a block scalar. -/
inductive Chomping where
  /-- All are dropped. -/
  | strip
  /-- One stays. -/
  | clip
  /-- All stay. -/
  | keep
  deriving DecidableEq

/-- The header of a block scalar: how its end is chomped, and the indentation
stated, 0 if none. -/
def blockHeader (p : Place) : Option (Chomping × Nat × Place) :=
  let chomping? (c : Char) : Option Chomping :=
    if c = '-' then some .strip else if c = '+' then some .keep else none
  let digit? (c : Char) : Option Nat :=
    if c.isDigit && c != '0' then some (c.toNat - '0'.toNat) else none
  let taken : Chomping × Nat × Nat :=
    match p.rest with
    | a :: b :: _ =>
      match chomping? a, digit? a, chomping? b, digit? b with
      | some k, _, _, some n => (k, n, 2)
      | some k, _, _, none => (k, 0, 1)
      | none, some n, some k, _ => (k, n, 2)
      | none, some n, none, _ => (.clip, n, 1)
      | none, none, _, _ => (.clip, 0, 0)
    | [a] =>
      match chomping? a, digit? a with
      | some k, _ => (k, 0, 1)
      | none, some n => (.clip, n, 1)
      | none, none => (.clip, 0, 0)
    | [] => (.clip, 0, 0)
  let (k, n, count) := taken
  let q := ((p.skip count).span isSpace).2
  let q := if q.rest.head? = some '#' then (q.span fun c => !isBreak c).2 else q
  match q.rest with
  | [] => some (k, n, q)
  | c :: _ => if isBreak c then some (k, n, q.next) else none

/-- Reads the empty lines before a line of a block scalar. While the
indentation is not known (0) all leading spaces are taken and the widest column
is found. -/
def blockBreaks (indent : Nat) : Nat → Nat → Place → Option (List Char × Nat × Place)
  | 0, widest, p => some ([], widest, p)
  | fuel + 1, widest, p =>
    let width := (p.rest.takeWhile (· == ' ')).length
    let q := p.skip (if indent = 0 then width else min width (indent - p.column))
    let widest := max widest q.column
    match q.rest with
    | [] => some ([], widest, q)
    | c :: _ =>
      if c = '\t' ∧ (indent = 0 ∨ q.column < indent) then none
      else if isBreak c then
        (blockBreaks indent fuel widest q.next).map fun (more, w, q) => (c :: more, w, q)
      else some ([], widest, q)

/-- What stands between two lines of a block scalar: the break after the first
and the empty lines. In a folded scalar the break of two lines that start with
no blank becomes a space, or nothing where empty lines follow. -/
def blockGap (literal leading trailing : Bool) (first : List Char) (breaks : List Char) :
    List Char :=
  if !literal && first == ['\n'] && !leading && !trailing then
    if breaks.isEmpty then [' '] else breaks
  else first ++ breaks

/-- Reads the lines of a block scalar of known indentation. `first` is the break
after the line before, `leading` whether that line started with a blank. -/
def blockLines (literal : Bool) (chomping : Chomping) (indent : Nat) :
    Nat → Bool → List Char → List Char → Place → Option (List Char × Place)
  | 0, _, _, _, _ => none
  | fuel + 1, leading, first, breaks, p =>
    if p.column = indent ∧ ¬ p.rest.isEmpty then do
      let blank := (p.rest.head?.map isSpace).getD false
      let (line, q) := p.span fun c => !isBreak c
      let after := q.rest.take 1
      let (more, _, r) ← blockBreaks indent (q.rest.length + 1) 0 q.next
      let (text, r) ← blockLines literal chomping indent fuel blank after more r
      some (blockGap literal leading blank first breaks ++ line ++ text, r)
    else
      match chomping with
      | .strip => some ([], p)
      | .clip => some (first, p)
      | .keep => some (first ++ breaks, p)

/-- Reads a block scalar behind its mark, in a block of the given column, if any. -/
def readBlock (literal : Bool) (outer? : Option Nat) (p : Place) : Option (List Char × Place) := do
  let (chomping, stated, p) ← blockHeader p
  let least := (outer?.map (· + 1)).getD 1
  let known := if stated = 0 then 0 else (outer?.getD 0) + stated
  let (breaks, widest, p) ← blockBreaks known (p.rest.length + 1) 0 p
  let indent := if known = 0 then max least widest else known
  blockLines literal chomping indent (p.rest.length + 1) false [] breaks p

end YangPartition.Yaml
