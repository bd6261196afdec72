import YangPartition.Json.Token

/-!
# TOML tokens

TOML text is cut into tokens one character at a time. Comments leave nothing
behind. Texts stand in single quotes, as they are, or in double quotes, with
escapes; in three quotes they may have several lines.
-/

namespace YangPartition.Toml

/-- A token of TOML text. -/
inductive Token where
  /-- A sign. -/
  | sign (c : Char)
  /-- A text in quotes; `long` if it stands in three quotes. -/
  | text (s : String) (long : Bool)
  /-- A number, a name, or names with points between. -/
  | word (s : String)
  /-- The end of a line. -/
  | lineEnd
  deriving DecidableEq, Repr

/-- Where the scanner stands; texts so far are held backwards. -/
inductive ScanState where
  /-- Between tokens. -/
  | between
  /-- In a number or a name. -/
  | inWord (held : List Char)
  /-- In a comment. -/
  | inComment
  /-- In single quotes. -/
  | plain (long : Bool) (held : List Char)
  /-- In double quotes. -/
  | escaping (long : Bool) (held : List Char)
  /-- In the digits of a code point: how many are to come, and the value so far. -/
  | digits (long : Bool) (held : List Char) (left value : Nat)
  /-- Behind a backslash at the end of a line. -/
  | joining (held : List Char)

/-- Whether a character may stand in a number or a name. -/
def isWordChar (c : Char) : Bool :=
  c.isAlphanum || c == '-' || c == '_' || c == '+' || c == '.' || c == ':'

/-- Whether a character is a token. -/
def isSign (c : Char) : Bool := "[]{}=,".toList.contains c

/-- Whether a character may stand in a text or a comment. -/
def isPlain (c : Char) : Bool := c == '\t' || (0x20 ≤ c.toNat && c.toNat != 0x7F)

/-- The character of an escape with one letter. -/
def escaped? (c : Char) : Option Char :=
  if c = '/' then none else Json.escaped? c

/-- The state behind the digits of a code point. -/
def afterCodePoint (long : Bool) (held : List Char) (n : Nat) : Option ScanState :=
  if n < 0xD800 ∨ (0xE000 ≤ n ∧ n < 0x110000) then some (.escaping long (Char.ofNat n :: held))
  else none

/-- The tokens read so far, last first, with a word. -/
def withWord (done : List Token) (held : List Char) : List Token :=
  .word (String.ofList held.reverse) :: done

/-- Takes a character between tokens. -/
def betweenStep (done : List Token) (c : Char) : Option (List Token × ScanState) :=
  if c = ' ' ∨ c = '\t' then some (done, .between)
  else if c = '\n' then some (.lineEnd :: done, .between)
  else if c = '#' then some (done, .inComment)
  else if c = '"' then some (done, .escaping false [])
  else if c = '\'' then some (done, .plain false [])
  else if isSign c then some (.sign c :: done, .between)
  else if isWordChar c then some (done, .inWord [c])
  else none

/-- Takes a character that no other ones decide about. -/
def step (done : List Token) (state : ScanState) (c : Char) : Option (List Token × ScanState) :=
  match state with
  | .between => betweenStep done c
  | .inWord held =>
    if isWordChar c then some (done, .inWord (c :: held)) else betweenStep (withWord done held) c
  | .inComment =>
    if c = '\n' then betweenStep done c else if isPlain c then some (done, .inComment) else none
  | .plain long held =>
    if c = '\'' ∧ long = false then
      some (.text (String.ofList held.reverse) false :: done, .between)
    else if isPlain c ∨ (long ∧ c = '\n') then some (done, .plain long (c :: held))
    else none
  | .escaping long held =>
    if c = '"' ∧ long = false then
      some (.text (String.ofList held.reverse) false :: done, .between)
    else if c ≠ '\\' ∧ (isPlain c ∨ (long ∧ c = '\n')) then some (done, .escaping long (c :: held))
    else none
  | .digits long held left value =>
    (Json.hexDigit? c).bind fun d =>
      let value := value * 16 + d
      if left ≤ 1 then (afterCodePoint long held value).map (done, ·)
      else some (done, .digits long held (left - 1) value)
  | .joining held =>
    if c = ' ' ∨ c = '\t' ∨ c = '\n' then some (done, .joining held)
    else if c ≠ '\\' ∧ isPlain c then some (done, .escaping true (c :: held))
    else none

/-- Whether nothing but blanks stands before the next end of a line. -/
def endsLine (cs : List Char) : Bool :=
  (cs.dropWhile fun c => c == ' ' || c == '\t' || c == '\r').head? == some '\n'

/-- The tokens of the rest of a text, after the ones in `done`, last token first. -/
def scan (done : List Token) (state : ScanState) (rest : List Char) : Option (List Token) :=
  match state, rest with
  | .between, [] | .inComment, [] => some done.reverse
  | .inWord held, [] => some (withWord done held).reverse
  | .between, '"' :: '"' :: '"' :: '\r' :: '\n' :: cs
  | .between, '"' :: '"' :: '"' :: '\n' :: cs
  | .between, '"' :: '"' :: '"' :: cs => scan done (.escaping true []) cs
  | .between, '\'' :: '\'' :: '\'' :: '\r' :: '\n' :: cs
  | .between, '\'' :: '\'' :: '\'' :: '\n' :: cs
  | .between, '\'' :: '\'' :: '\'' :: cs => scan done (.plain true []) cs
  | .plain true held, '\'' :: '\'' :: '\'' :: '\'' :: '\'' :: cs =>
    scan (.text (String.ofList ('\'' :: '\'' :: held).reverse) true :: done) .between cs
  | .plain true held, '\'' :: '\'' :: '\'' :: '\'' :: cs =>
    scan (.text (String.ofList ('\'' :: held).reverse) true :: done) .between cs
  | .plain true held, '\'' :: '\'' :: '\'' :: cs =>
    scan (.text (String.ofList held.reverse) true :: done) .between cs
  | .escaping true held, '"' :: '"' :: '"' :: '"' :: '"' :: cs =>
    scan (.text (String.ofList ('"' :: '"' :: held).reverse) true :: done) .between cs
  | .escaping true held, '"' :: '"' :: '"' :: '"' :: cs =>
    scan (.text (String.ofList ('"' :: held).reverse) true :: done) .between cs
  | .escaping true held, '"' :: '"' :: '"' :: cs | .joining held, '"' :: '"' :: '"' :: cs =>
    scan (.text (String.ofList held.reverse) true :: done) .between cs
  | .escaping long held, '\\' :: 'u' :: cs => scan done (.digits long held 4 0) cs
  | .escaping long held, '\\' :: 'U' :: cs => scan done (.digits long held 8 0) cs
  | .escaping long held, '\\' :: c :: cs =>
    if long ∧ endsLine (c :: cs) then scan done (.joining held) cs
    else
      match escaped? c with
      | some d => scan done (.escaping long (d :: held)) cs
      | none => none
  | .joining held, '\\' :: 'u' :: cs => scan done (.digits true held 4 0) cs
  | .joining held, '\\' :: 'U' :: cs => scan done (.digits true held 8 0) cs
  | .joining held, '\\' :: c :: cs =>
    if endsLine (c :: cs) then scan done (.joining held) cs
    else
      match escaped? c with
      | some d => scan done (.escaping true (d :: held)) cs
      | none => none
  | state, '\r' :: '\n' :: cs =>
    match step done state '\n' with
    | some (done, state) => scan done state cs
    | none => none
  | state, c :: cs =>
    match step done state c with
    | some (done, state) => scan done state cs
    | none => none
  | _, [] => none
termination_by structural rest

/-- The tokens of a text, which may start with a byte order mark. -/
def tokens? (cs : List Char) : Option (List Token) :=
  match cs with
  | '\uFEFF' :: cs => scan [] .between cs
  | cs => scan [] .between cs

end YangPartition.Toml
