/-!
# JSON tokens

JSON text is cut into tokens one character at a time. Inside a string no raw
control characters may stand, and code points beyond the first plane are given
by two escapes; a text with half a pair is a token all the same, but has no value.
-/

namespace YangPartition.Json

/-- A token of JSON text. -/
inductive Token where
  | openBracket | closeBracket | openBrace | closeBrace | comma | colon
  /-- A text in quotes; one with half a pair of escapes has no value. -/
  | text (s? : Option String)
  /-- A number or a name. -/
  | word (s : String)
  deriving DecidableEq, Repr

/-- The text in quotes so far, backwards; none once half a pair stands in it. -/
abbrev Held := Option (List Char)

/-- Where the scanner stands; what it holds is held backwards. -/
inductive ScanState where
  /-- Between tokens. -/
  | between
  /-- In a number or a name. -/
  | inWord (held : List Char)
  /-- In quotes; after the first half of a pair, with its value. -/
  | inText (held : Held) (half : Option Nat)
  /-- Behind a backslash. -/
  | escape (held : Held) (half : Option Nat)
  /-- In the digits of a code point: how many are to come, and the value so far. -/
  | digits (held : Held) (half : Option Nat) (left value : Nat)

/-- The value of a hexadecimal digit. -/
def hexDigit? (c : Char) : Option Nat :=
  if c.isDigit then some (c.toNat - '0'.toNat)
  else if 'a' ≤ c ∧ c ≤ 'f' then some (c.toNat - 'a'.toNat + 10)
  else if 'A' ≤ c ∧ c ≤ 'F' then some (c.toNat - 'A'.toNat + 10)
  else none

/-- The character of an escape with one letter. -/
def escaped? (c : Char) : Option Char :=
  match c with
  | '"' => some '"'
  | '\\' => some '\\'
  | '/' => some '/'
  | 'b' => some '\x08'
  | 'f' => some '\x0c'
  | 'n' => some '\n'
  | 'r' => some '\r'
  | 't' => some '\t'
  | _ => none

/-- The token of a character that is one, or none for blank space. -/
def punctuation? (c : Char) : Option (Option Token) :=
  match c with
  | '[' => some (some .openBracket)
  | ']' => some (some .closeBracket)
  | '{' => some (some .openBrace)
  | '}' => some (some .closeBrace)
  | ',' => some (some .comma)
  | ':' => some (some .colon)
  | ' ' | '\n' | '\r' | '\t' => some none
  | _ => none

/-- Whether a character may stand in a number or a name. -/
def isWordChar (c : Char) : Bool :=
  c.isAlphanum || c == '-' || c == '+' || c == '.'

/-- A text that a first half of a pair stands in, when no second half follows it. -/
def withoutHalf (held : Held) (half : Option Nat) : Held :=
  if half.isSome then none else held

/-- The state after the value of an escaped code point. -/
def afterCodePoint (held : Held) (half : Option Nat) (n : Nat) : ScanState :=
  match half with
  | some h =>
    if 0xDC00 ≤ n ∧ n < 0xE000 then
      .inText (held.map (Char.ofNat (0x10000 + (h - 0xD800) * 0x400 + (n - 0xDC00)) :: ·)) none
    else .inText none none
  | none =>
    if 0xD800 ≤ n ∧ n < 0xDC00 then .inText held (some n)
    else if 0xDC00 ≤ n ∧ n < 0xE000 then .inText none none
    else .inText (held.map (Char.ofNat n :: ·)) none

/-- The tokens that one character completes, and the next state; nothing when
the character may not stand here. -/
def step : ScanState → Char → Option (List Token × ScanState)
  | .between, c =>
    if c = '"' then some ([], .inText (some []) none)
    else
      match punctuation? c with
      | some token => some (token.toList, .between)
      | none => if isWordChar c then some ([], .inWord [c]) else none
  | .inWord held, c =>
    let word := Token.word (String.ofList held.reverse)
    if c = '"' then some ([word], .inText (some []) none)
    else
      match punctuation? c with
      | some token => some (word :: token.toList, .between)
      | none => if isWordChar c then some ([], .inWord (c :: held)) else none
  | .inText held half, c =>
    let held' := withoutHalf held half
    if c = '"' then some ([.text (held'.map fun cs => String.ofList cs.reverse)], .between)
    else if c = '\\' then some ([], .escape held half)
    else if c.toNat < 0x20 then none
    else some ([], .inText (held'.map (c :: ·)) none)
  | .escape held half, c =>
    if c = 'u' then some ([], .digits held half 4 0)
    else (escaped? c).map fun d => ([], .inText ((withoutHalf held half).map (d :: ·)) none)
  | .digits held half left value, c =>
    (hexDigit? c).map fun d =>
      let value := value * 16 + d
      if left ≤ 1 then ([], afterCodePoint held half value)
      else ([], .digits held half (left - 1) value)

/-- The tokens of the rest of a text, after the ones in `done`, last token first. -/
def scan (state : ScanState) (done : List Token) : List Char → Option (List Token)
  | [] =>
    match state with
    | .between => some done.reverse
    | .inWord held => some ((.word (String.ofList held.reverse) :: done).reverse)
    | _ => none
  | c :: cs =>
    match step state c with
    | none => none
    | some (new, state) => scan state (new.reverse ++ done) cs

/-- The tokens of a text. -/
def tokens (cs : List Char) : Option (List Token) :=
  scan .between [] cs

end YangPartition.Json
