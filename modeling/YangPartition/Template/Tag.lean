import YangPartition.Json.Parser
import YangPartition.Template.Basic
import YangPartition.Template.Token

/-!
# Tags

What the tokens of a tag mean: an expression, the start, the middle or the end
of a block, another template, or a comment. The sign `~` at an end of a tag trims
the text on that side.
-/

namespace YangPartition.Template

/-! ### References -/

/-- Where the reader of names stands. -/
inductive NameState where
  /-- Before a name. -/
  | start
  /-- In a name, held backwards. -/
  | inName (held : List Char)
  /-- In a name in brackets, held backwards. -/
  | inBrackets (held : List Char)
  /-- Behind a name in brackets. -/
  | ended

/-- The names so far, last first, with one more; `this` leads nowhere. -/
def withName (done : List String) (held : List Char) : List String :=
  let name := String.ofList held.reverse
  if name = "this" then done else name :: done

/-- The names of the rest of a reference, parted by points or slashes. -/
def names? (state : NameState) (done : List String) : List Char → Option (List String)
  | [] =>
    match state with
    | .inName held => some (withName done held).reverse
    | .ended => some done.reverse
    | _ => none
  | c :: cs =>
    match state with
    | .start =>
      if c = '[' then names? (.inBrackets []) done cs
      else if isNameChar c then names? (.inName [c]) done cs
      else none
    | .inName held =>
      if isNameChar c then names? (.inName (c :: held)) done cs
      else if c = '.' ∨ c = '/' then names? .start (withName done held) cs
      else none
    | .inBrackets held =>
      if c = ']' then names? .ended (withName done held) cs
      else names? (.inBrackets (c :: held)) done cs
    | .ended => if c = '.' ∨ c = '/' then names? .start done cs else none

/-- A text behind a beginning and a point or slash, if it starts with these. -/
def behind? (start : String) (cs : List Char) : Option (List Char) :=
  match cs.drop start.length with
  | c :: rest => if start.toList.isPrefixOf cs ∧ (c = '.' ∨ c = '/') then some rest else none
  | [] => none

/-- How often a text leads up, and what follows. -/
def ups : List Char → Nat × List Char
  | '.' :: '.' :: '/' :: cs | '.' :: '.' :: '.' :: cs =>
    let (n, cs) := ups cs
    (n + 1, cs)
  | cs => (0, cs)

/-- The reference that a text is. -/
def DataRef.ofText? (text : String) : Option DataRef :=
  let cs := match text.toList with
    | '.' :: '/' :: cs => cs
    | cs => (behind? "this" cs).getD cs
  match behind? "@root" cs with
  | some cs => (names? .start [] (ups cs).2).map (⟨text, .data, ·⟩)
  | none =>
    match cs with
    | '@' :: cs =>
      let (n, cs) := ups cs
      (names? .start [] cs).map (⟨text, .variable n, ·⟩)
    | cs =>
      let (n, cs) := ups cs
      (names? .start [] cs).map (⟨text, .value n, ·⟩)

/-! ### Values in tags -/

/-- Whether a word is meant as a number: digits, a point and an exponent behind `E`. -/
def isNumeral (word : String) : Bool :=
  let afterDigits (cs : List Char) : List Char := cs.dropWhile Char.isDigit
  let unsigned (cs : List Char) : List Char :=
    match cs with
    | '-' :: cs => cs
    | cs => cs
  let cs := unsigned word.toList
  match afterDigits cs with
  | [] => !cs.isEmpty
  | rest =>
    (cs.head?.any Char.isDigit) &&
      match (match rest with | '.' :: rest => afterDigits rest | rest => rest) with
      | [] => true
      | 'E' :: rest => !(unsigned rest).isEmpty && (unsigned rest).all Char.isDigit
      | _ => false

/-- The value that a word stands for. The words `as` and `else` stand for none. -/
def Expr.ofWord? (word : String) : Option Expr :=
  if word = "as" ∨ word = "else" then none
  else if word = "null" then some (.literal .null)
  else if word = "true" then some (.literal (.bool true))
  else if word = "false" then some (.literal (.bool false))
  else if isNumeral word then if Json.isNumber word then some (.literal (.num word)) else none
  else (DataRef.ofText? word).map .ref

/-- The values for a function, and its named values. -/
structure Args where
  /-- The values; backwards while they are read. -/
  values : List Expr := []
  /-- The named values. -/
  named : NameMap Expr := []
  deriving Inhabited

namespace Args

/-- One more value, named if a name stands before it. -/
def push (a : Args) (name? : Option String) (e : Expr) : Args :=
  match name? with
  | none => { a with values := e :: a.values }
  | some name => { a with named := NameMap.insert name e a.named }

/-- Whether there are none. -/
def isEmpty (a : Args) : Bool := a.values.isEmpty && a.named.isEmpty

end Args

/-- The function call in parentheses; one without values may have any reference as its name. -/
def Expr.ofCall? (name : String) (args : Args) : Option Expr :=
  if isName name ∨ (args.isEmpty ∧ (DataRef.ofText? name).isSome) then
    some (.call name args.values.reverse args.named)
  else none

/-- A call that is being read. -/
structure OpenCall where
  /-- Its function. -/
  name : String
  /-- The values of the call around it. -/
  around : Args
  /-- The name under which the call around it takes its value. -/
  name? : Option String

/-- The values that tokens give, with the ones read so far, the calls around
them, innermost first, and the name that stands before the next value. -/
def Args.read (calls : List OpenCall) (args : Args) (name? : Option String) :
    List Token → Option Args
  | [] =>
    if calls.isEmpty ∧ name?.isNone then some { args with values := args.values.reverse } else none
  | .word name :: .sign '=' :: ts =>
    if name?.isNone ∧ isName name then read calls args (some name) ts else none
  | .word word :: ts => (Expr.ofWord? word).bind fun e => read calls (args.push name? e) none ts
  | .quoted s :: ts => read calls (args.push name? (.literal (.str s))) none ts
  | .sign '(' :: .word name :: ts => read (⟨name, args, name?⟩ :: calls) {} none ts
  | .sign ')' :: ts =>
    match calls with
    | [] => none
    | call :: calls =>
      if name?.isSome then none
      else
        (Expr.ofCall? call.name args).bind fun e =>
          read calls (call.around.push call.name? e) none ts
  | _ => none

/-- The values that tokens give. -/
def Args.ofTokens? (ts : List Token) : Option Args :=
  read [] {} none ts

/-! ### Tags -/

/-- What a tag means. -/
inductive Tag where
  /-- A comment. -/
  | comment
  /-- The text of a value. -/
  | output (e : Expr)
  /-- Another template. -/
  | include (name : Expr) (value? : Option Expr) (named : NameMap Expr)
  /-- The start of a block. -/
  | opening (head : BlockHead)
  /-- The start of the part in place of a block's body; with a head, that part
  is a block itself, which ends where the one around it ends. -/
  | instead (head? : Option BlockHead)
  /-- The end of a block. -/
  | closing (name : String)

/-- The tokens before the names that a block gives, and these names. -/
def binders? : List Token → Option (List Token × List String)
  | [] => some ([], [])
  | .word "as" :: .sign '|' :: ts =>
    match ts with
    | [.word a, .sign '|'] => if isName a then some ([], [a]) else none
    | [.word a, .word b, .sign '|'] => if isName a ∧ isName b then some ([], [a, b]) else none
    | _ => none
  | t :: ts => (binders? ts).map fun (before, names) => (t :: before, names)

/-- The head of a block. -/
def BlockHead.ofTokens? : List Token → Option BlockHead
  | .word name :: ts => do
    let (ts, binders) ← binders? ts
    let args ← Args.ofTokens? ts
    if isName name then some ⟨name, args.values, args.named, binders⟩ else none
  | _ => none

/-- The value whose text stands for a tag: a function with values, or a name. -/
def Expr.ofTokens? : List Token → Option Expr
  | [.word word] => (DataRef.ofText? word).map .ref
  | .word name :: ts => do
    let args ← Args.ofTokens? ts
    if isName name then some (.call name args.values args.named) else none
  | ts =>
    match ts.head?, Args.ofTokens? ts with
    | some (.sign '('), some ⟨[e], []⟩ => some e
    | _, _ => none

/-- The tag of another template. -/
def Tag.includeOf? (name : Expr) (args : Args) : Option Tag :=
  some (.include name args.values.head? args.named)

/-- The tag of tokens that no trimming sign stands around. -/
def Tag.ofTokens? : List Token → Option Tag
  | [.comment] => some .comment
  | .sign '#' :: ts => (BlockHead.ofTokens? ts).map .opening
  | [.sign '/', .word name] => if isName name then some (.closing name) else none
  | [.sign '^'] | [.word "else"] => some (.instead none)
  | .sign '^' :: ts | .word "else" :: ts => (BlockHead.ofTokens? ts).map fun h => .instead (some h)
  | .sign '>' :: .word name :: ts | .sign '>' :: .quoted name :: ts =>
    (Args.ofTokens? ts).bind (includeOf? (.literal (.str name)))
  | .sign '>' :: ts =>
    match Args.ofTokens? ts with
    | some ⟨name :: values, named⟩ => includeOf? name ⟨values, named⟩
    | _ => none
  | .sign '&' :: ts => (Expr.ofTokens? ts).map .output
  | ts => (Expr.ofTokens? ts).map .output

/-- A tag and the sides on which it trims text. -/
structure TrimmingTag where
  /-- What it means. -/
  tag : Tag
  /-- It trims the text before it. -/
  trimsBefore : Bool
  /-- It trims the text behind it. -/
  trimsBehind : Bool

/-- Tokens without a token in front and at the end, and whether it stood there. -/
def withoutEnds (t : Token) (ts : List Token) : Bool × List Token × Bool :=
  let before := ts.head? == some t
  let ts := if before then ts.tail else ts
  let behind := ts.getLast? == some t
  (before, if behind then ts.dropLast else ts, behind)

/-- The tag of tokens. A value in braces stands for itself. -/
def TrimmingTag.ofTokens? (ts : List Token) : Option TrimmingTag :=
  let (before, ts, behind) := withoutEnds (.sign '~') ts
  match ts.head?, ts.getLast? with
  | some (.sign '{'), some (.sign '}') =>
    let (innerBefore, ts, innerBehind) := withoutEnds (.sign '~') ts.tail.dropLast
    (Expr.ofTokens? ts).map (⟨.output ·, before || innerBefore, behind || innerBehind⟩)
  | _, _ => (Tag.ofTokens? ts).map (⟨·, before, behind⟩)

end YangPartition.Template
