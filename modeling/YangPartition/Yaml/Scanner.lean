import YangPartition.Yaml.Token

/-!
# Scanning YAML

The scanner goes through a text token by token. Open blocks are known by their
columns, the innermost first; where a line starts further left, blocks end. A
place where a key may start is remembered; when a colon follows on the same line
the key, and the block it opens if it is the first, are put in front of it.
-/

namespace YangPartition.Yaml

/-- A place where a key may have started. -/
structure KeyPlace where
  /-- The number of tokens before it. -/
  index : Nat
  /-- The place in the text. -/
  place : Place
  /-- A key has to start there, since it stands at the column of its block. -/
  required : Bool

/-- The state of the scanner. -/
structure Scanner where
  /-- The place in the text. -/
  place : Place
  /-- The columns of the open blocks, innermost first. -/
  blocks : List Nat := []
  /-- The places where keys may have started, one for the block level and each
  open flow collection, innermost first. -/
  keys : List (Option KeyPlace) := [none]
  /-- A key may start here. -/
  keyAllowed : Bool := true
  /-- The tokens so far. -/
  tokens : Array Token := #[]

namespace Scanner

/-! ### Parts of a step -/

/-- Whether a flow collection is open. -/
def inFlow (s : Scanner) : Bool := 1 < s.keys.length

/-- The least column of a continued scalar in the innermost block. -/
def innerColumn (s : Scanner) : Nat := (s.blocks.head?.map (· + 1)).getD 0

/-- Adds a token. -/
def emit (s : Scanner) (t : Token) : Scanner := { s with tokens := s.tokens.push t }

/-- Puts a token in front of the one at an index. -/
def insert (s : Scanner) (index : Nat) (t : Token) : Scanner :=
  { s with tokens := (s.tokens.toList.take index ++ t :: s.tokens.toList.drop index).toArray }

/-- Moves `n` characters on. -/
def skip (s : Scanner) (n : Nat) : Scanner := { s with place := s.place.skip n }

/-- Goes on to the next token: past blank space, comments and line breaks. -/
def toToken (fuel : Nat) (s : Scanner) : Scanner :=
  match fuel with
  | 0 => s
  | fuel + 1 =>
    match s.place.rest with
    | c :: _ =>
      if c = ' ' ∨ (c = '\t' ∧ (s.inFlow ∨ ¬ s.keyAllowed)) then (s.skip 1).toToken fuel
      else if c = '#' then
        { s with place := (s.place.span fun c => !isBreak c).2 }.toToken fuel
      else if isBreak c then
        { s.skip 1 with keyAllowed := s.keyAllowed || !s.inFlow }.toToken fuel
      else s
    | [] => s

/-- Forgets the places that a key can no longer have started at, because their
line has ended; nothing when a key had to start there. -/
def dropStale (s : Scanner) : Option Scanner := do
  let keys ← s.keys.mapM fun
    | none => some none
    | some k =>
      if k.place.line < s.place.line ∨ k.place.offset + 1024 < s.place.offset then
        if k.required then none else some none
      else some (some k)
  some { s with keys }

/-- Forgets the place on the innermost level; nothing when a key had to start there. -/
def dropKey (s : Scanner) : Option Scanner :=
  match s.keys with
  | some k :: keys => if k.required then none else some { s with keys := none :: keys }
  | _ => some s

/-- Remembers that a key may start here. -/
def markKey (s : Scanner) : Option Scanner :=
  if s.keyAllowed then do
    let required := !s.inFlow && s.blocks.head? == some s.place.column
    let s ← s.dropKey
    some { s with keys := some ⟨s.tokens.size, s.place, required⟩ :: s.keys.drop 1 }
  else some s

/-- Ends the blocks that stand further right than a column. -/
def endBlocks (s : Scanner) (column : Nat) : List Nat → Scanner
  | [] => { s with blocks := [] }
  | b :: blocks =>
    if column < b then (s.emit .blockEnd).endBlocks column blocks
    else { s with blocks := b :: blocks }

/-- Ends the blocks that stand further right than this place. -/
def unroll (s : Scanner) : Scanner :=
  if s.inFlow then s else s.endBlocks s.place.column s.blocks

/-- Ends all blocks. -/
def unrollAll (s : Scanner) : Scanner :=
  if s.inFlow then s else { s.blocks.foldl (fun s _ => s.emit .blockEnd) s with blocks := [] }

/-- Opens a block at a column where none is open so far right; its token goes
in front of the token at the index. -/
def roll (s : Scanner) (column index : Nat) (t : Token) : Scanner :=
  if s.inFlow || s.blocks.head?.any (column ≤ ·) then s
  else { s.insert index t with blocks := column :: s.blocks }

/-! ### Tokens -/

/-- Takes the start of a flow collection. -/
def openFlow (s : Scanner) (t : Token) : Option Scanner := do
  let s ← s.markKey
  some ({ s with keys := none :: s.keys, keyAllowed := true }.skip 1 |>.emit t)

/-- Takes the end of a flow collection. -/
def closeFlow (s : Scanner) (t : Token) : Option Scanner := do
  let s ← s.dropKey
  let keys := if s.inFlow then s.keys.drop 1 else s.keys
  some ({ s with keys, keyAllowed := false }.skip 1 |>.emit t)

/-- Takes a comma in a flow collection. -/
def flowEntry (s : Scanner) : Option Scanner := do
  let s ← s.dropKey
  some ({ s with keyAllowed := true }.skip 1 |>.emit .flowEntry)

/-- Takes the dash of a sequence entry. -/
def blockEntry (s : Scanner) : Option Scanner := do
  if !s.inFlow && !s.keyAllowed then none
  let s ← (s.roll s.place.column s.tokens.size .sequenceStart).dropKey
  some ({ s with keyAllowed := true }.skip 1 |>.emit .blockEntry)

/-- Takes the mark of a key. -/
def keyMark (s : Scanner) : Option Scanner := do
  if !s.inFlow && !s.keyAllowed then none
  let s ← (s.roll s.place.column s.tokens.size .mappingStart).dropKey
  some ({ s with keyAllowed := !s.inFlow }.skip 1 |>.emit .key)

/-- Takes the colon of a value. -/
def valueMark (s : Scanner) : Option Scanner :=
  match s.keys with
  | some k :: keys =>
    let s := (s.insert k.index .key).roll k.place.column k.index .mappingStart
    some ({ s with keys := none :: keys, keyAllowed := false }.skip 1 |>.emit .value)
  | _ => do
    if !s.inFlow && !s.keyAllowed then none
    let s := s.roll s.place.column s.tokens.size .mappingStart
    some ({ s with keyAllowed := !s.inFlow }.skip 1 |>.emit .value)

/-- Takes the start or end of a document. -/
def documentMark (s : Scanner) (t : Token) : Option Scanner := do
  let s ← s.unrollAll.dropKey
  some ({ s with keyAllowed := false }.skip 3 |>.emit t)

/-- Takes a block scalar. -/
def blockScalar (s : Scanner) (literal : Bool) : Option Scanner := do
  let s ← s.dropKey
  let (text, place) ← readBlock literal s.blocks.head? s.place.next
  some ({ s with keyAllowed := true, place }.emit (.scalar false (String.ofList text)))

/-- Takes a quoted scalar. -/
def quotedScalar (s : Scanner) (double : Bool) : Option Scanner := do
  let s ← s.markKey
  let (text, place) ← readQuoted double (s.place.rest.length + 1) s.place.next
  some ({ s with keyAllowed := false, place }.emit (.scalar false (String.ofList text)))

/-- Takes a plain scalar. -/
def plainScalar (s : Scanner) : Option Scanner := do
  let s ← s.markKey
  let (text, broken, place) ←
    readPlain s.inFlow s.innerColumn (s.place.rest.length + 1) {} s.place
  some ({ s with keyAllowed := broken, place }.emit (.scalar true (String.ofList text)))

/-- Whether a plain scalar may start with the first of the given characters. -/
def startsPlain (flow : Bool) : List Char → Bool
  | [] => false
  | c :: rest =>
    if isSpace c || isBreak c then false
    else if c = '-' then !(rest.head?.any isSpace)
    else if c = '?' || c = ':' then !flow && !atBlank rest
    else !(",[]{}#&*!|>'\"%@".toList.contains c || c.toNat == 0x60)

/-- Takes one token; nothing when none can start here. -/
def token (s : Scanner) : Option Scanner :=
  match s.place.rest with
  | [] => none
  | c :: rest =>
    if s.place.column = 0 ∧ c = '%' then none
    else if s.place.atMarker '-' then s.documentMark .documentStart
    else if s.place.atMarker '.' then s.documentMark .documentEnd
    else if c = '[' then s.openFlow .flowSequenceStart
    else if c = '{' then s.openFlow .flowMappingStart
    else if c = ']' then s.closeFlow .flowSequenceEnd
    else if c = '}' then s.closeFlow .flowMappingEnd
    else if c = ',' then s.flowEntry
    else if c = '-' ∧ atBlank rest then s.blockEntry
    else if c = '?' ∧ (s.inFlow ∨ atBlank rest) then s.keyMark
    else if c = ':' ∧ (s.inFlow ∨ atBlank rest) then s.valueMark
    else if c = '|' ∧ ¬ s.inFlow then s.blockScalar true
    else if c = '>' ∧ ¬ s.inFlow then s.blockScalar false
    else if c = '\'' then s.quotedScalar false
    else if c = '"' then s.quotedScalar true
    else if startsPlain s.inFlow (c :: rest) then s.plainScalar
    else none

/-- Ends the text: no key may be missing, and all blocks end. -/
def finish (s : Scanner) : Option (List Token) := do
  let s ← s.unrollAll.dropKey
  some s.tokens.toList

/-- Takes tokens to the end of the text, `fuel` at most. -/
def run (fuel : Nat) (s : Scanner) : Option (List Token) :=
  match fuel with
  | 0 => none
  | fuel + 1 => do
    let s ← (s.toToken (s.place.rest.length + 1)).dropStale
    let s := s.unroll
    if s.place.rest.isEmpty then s.finish
    else (← s.token).run fuel

end Scanner

/-- The tokens of a text. Every token takes a character. -/
def tokens (s : String) : Option (List Token) :=
  let cs := match s.toList with
    | '\uFEFF' :: cs => cs
    | cs => cs
  if cs.all isAllowed then
    let cs := unifyBreaks cs
    ({ place := { rest := cs } } : Scanner).run (cs.length + 1)
  else none

end YangPartition.Yaml
