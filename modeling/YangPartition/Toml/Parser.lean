import YangPartition.Text.Blank
import YangPartition.Toml.Basic
import YangPartition.Toml.Token

/-!
# Reading TOML

A text has lines of three kinds: the name of a table, the name of an array of
tables that gets one more, and a name with its value. Values go to the table
named last. No name gets two values, and no table is named twice.
-/

namespace YangPartition.Toml

open Text

/-! ### Names -/

/-- A part of a name: a name, or a point. -/
abbrev NamePart := Option String

/-- Whether a text may stand as a name without quotes. -/
def isBareName (s : String) : Bool :=
  s.toList.all fun c => c.isAlphanum || c == '-' || c == '_'

/-- The parts of names that stand in a word. -/
def partsOfWord (word : String) : List NamePart :=
  (((pieces (· == '.') word.toList).map fun cs => some (String.ofList cs)).intersperse none).filter
    (· != some "")

/-- The parts of names that stand in a token. -/
def partsOfToken? : Token → Option (List NamePart)
  | .text s false => some [some s]
  | .word w => if (partsOfWord w).all fun p => p.all isBareName then some (partsOfWord w) else none
  | _ => none

/-- The names that have a point between each other. -/
def namesOfParts? : List NamePart → Option (List String)
  | [some name] => some [name]
  | some name :: none :: rest => (namesOfParts? rest).map (name :: ·)
  | _ => none

/-- The names that tokens give. -/
def namesOf? (ts : List Token) : Option (List String) :=
  (ts.mapM partsOfToken?).bind fun parts => namesOfParts? parts.flatten

/-! ### Numbers -/

/-- Digits without the underscores that stand between them. -/
def digitsOf? (isDigit : Char → Bool) (cs : List Char) : Option (List Char) :=
  let groups := pieces (· == '_') cs
  if groups.all fun g => !g.isEmpty && g.all isDigit then some groups.flatten else none

/-- Digits of a whole decimal number, without a zero in front. -/
def wholeOf? (cs : List Char) : Option (List Char) :=
  (digitsOf? Char.isDigit cs).filter fun ds => ds.length = 1 || ds.head? != some '0'

/-- The value of digits to a base. -/
def valueOf (base : Nat) (ds : List Char) : Int :=
  ds.foldl (fun n c => base * n + ((Json.hexDigit? c).getD 0 : Nat)) 0

/-- The whole number that a text is. -/
def integerOf? (word : String) : Option Int :=
  let based (base : Nat) (cs : List Char) : Option Int :=
    (digitsOf? (fun c => (Json.hexDigit? c).any (· < base)) cs).map (valueOf base)
  match word.toList with
  | '0' :: 'x' :: cs => based 16 cs
  | '0' :: 'o' :: cs => based 8 cs
  | '0' :: 'b' :: cs => based 2 cs
  | '-' :: cs => (wholeOf? cs).map fun ds => -valueOf 10 ds
  | '+' :: cs => (wholeOf? cs).map (valueOf 10)
  | cs => (wholeOf? cs).map (valueOf 10)

/-- Whether a text is a number with a point or an exponent, without sign and underscores. -/
def isFractional (cs : List Char) : Bool :=
  let whole := cs.takeWhile fun c => c != '.' && c != 'e' && c != 'E'
  let fraction (cs : List Char) : Bool :=
    (digitsOf? Char.isDigit (cs.takeWhile fun c => c != 'e' && c != 'E')).isSome
  let exponent (cs : List Char) : Bool := (digitsOf? Char.isDigit (Decimal.signed cs).2).isSome
  (wholeOf? whole).isSome &&
    match cs.drop whole.length with
    | '.' :: rest =>
      fraction rest &&
        match rest.dropWhile fun c => c != 'e' && c != 'E' with
        | [] => true
        | _ :: rest => exponent rest
    | _ :: rest => exponent rest
    | [] => false

/-- The number that a text is. -/
def numberOf? (word : String) : Option Binary :=
  let (negative, cs) := Decimal.signed word.toList
  if cs = "inf".toList then some (.infinite negative)
  else if cs = "nan".toList then some .none
  else if isFractional cs then
    (Decimal.ofText? (String.ofList (word.toList.filter (· != '_')))).map .ofDecimal
  else none

/-- The value that a word is. -/
def ofWord? (word : String) : Option Toml :=
  if word = "true" then some (.truth true)
  else if word = "false" then some (.truth false)
  else
    match integerOf? word with
    | some n => if isInRange n then some (.integer n) else none
    | none => (numberOf? word).map .number

/-! ### Values -/

/-- An array or table that is not closed yet. -/
inductive OpenValue where
  /-- An array; its items are held backwards. -/
  | array (items : List Toml)
  /-- A table. -/
  | table (t : Toml)
  /-- A table behind names and the sign that a value follows. -/
  | member (t : Toml) (names : List String)

/-- What may come next. -/
inductive Expects where
  /-- A value. -/
  | value
  /-- A value, or the end of the array. -/
  | valueOrEnd
  /-- The rest of the names of a member, with the tokens so far, last first. -/
  | names (held : List Token)
  /-- A comma or the end of the innermost open value. -/
  | separator

/-- The state of the reader of a value: the open values, innermost first, what
comes next, and the value once it is complete. -/
structure Reader where
  /-- The open values, innermost first. -/
  stack : List OpenValue := []
  /-- What may come next. -/
  expects : Expects := .value
  /-- The complete value. -/
  result : Option Toml := none

namespace Reader

/-- Puts a complete value in its place. -/
def complete (stack : List OpenValue) (v : Toml) : Option Reader :=
  match stack with
  | [] => some ⟨[], .separator, some v⟩
  | .array items :: stack => some ⟨.array (v :: items) :: stack, .separator, none⟩
  | .member t names :: stack => (put? v names t).map fun t => ⟨.table t :: stack, .separator, none⟩
  | _ => none

/-- Takes a token where a value may stand. -/
def value (r : Reader) (t : Token) : Option Reader :=
  match t with
  | .sign '[' => some ⟨.array [] :: r.stack, .valueOrEnd, none⟩
  | .sign '\x7b' => some ⟨.table (.table []) :: r.stack, .names [], none⟩
  | .text s _ => complete r.stack (.text s)
  | .word w => (ofWord? w).bind (complete r.stack)
  | _ => none

/-- Takes one token. -/
def take (r : Reader) (t : Token) : Option Reader :=
  match r.expects, t, r.stack with
  | _, .lineEnd, _ => some r
  | .value, t, _ => r.value t
  | .valueOrEnd, .sign ']', .array items :: stack => complete stack (.array items.reverse)
  | .valueOrEnd, t, _ => r.value t
  | .names [], .sign '\x7d', .table (.table []) :: stack => complete stack (.table [])
  | .names held, .sign '=', .table t :: stack =>
    (namesOf? held.reverse).map fun names => ⟨.member t names :: stack, .value, none⟩
  | .names held, t, stack => some ⟨stack, .names (t :: held), none⟩
  | .separator, .sign ',', .array items :: stack => some ⟨.array items :: stack, .valueOrEnd, none⟩
  | .separator, .sign ']', .array items :: stack => complete stack (.array items.reverse)
  | .separator, .sign ',', .table t :: stack => some ⟨.table t :: stack, .names [], none⟩
  | .separator, .sign '\x7d', .table t :: stack => complete stack t
  | _, _, _ => none

end Reader

/-- The value that tokens give. -/
def ofTokens? (ts : List Token) : Option Toml :=
  (ts.foldlM Reader.take ({} : Reader)).bind (·.result)

/-! ### Lines -/

/-- Lines of tokens: the ends of lines part them, except in brackets. -/
def lines : Nat → List Token → List (List Token)
  | _, [] => [[]]
  | depth, t :: ts =>
    if t = .lineEnd ∧ depth = 0 then [] :: lines 0 ts
    else
      let depth := match t with
        | .sign '[' | .sign '\x7b' => depth + 1
        | .sign ']' | .sign '\x7d' => depth - 1
        | _ => depth
      match lines depth ts with
      | [] => [[t]]
      | line :: rest => (t :: line) :: rest

/-- What has been read. -/
structure Contents where
  /-- The values so far. -/
  top : Toml := .table []
  /-- The names of the table that values go to. -/
  here : List String := []
  /-- The tables that have been named. -/
  named : List (List String) := []
  /-- The arrays and tables that have been written in full, and stay as they are. -/
  closed : List (List String) := []

namespace Contents

/-- The value at the end of names, in the last table of each array on the way. -/
def valueAt? (t : Toml) : List String → Option Toml
  | [] => some t
  | name :: names =>
    match t.member? name with
    | some (.array items) =>
      match names, items.getLast? with
      | [], _ => some (.array items)
      | names, some last => valueAt? last names
      | _, none => none
    | some v => valueAt? v names
    | none => none

/-- Whether names lead into something that has been written in full. -/
def isClosed (c : Contents) (names : List String) : Bool :=
  c.closed.any (·.isPrefixOf names)

/-- Names a table, which values go to from now on. -/
def nameTable (c : Contents) (names : List String) : Option Contents :=
  if c.named.contains names ∨ c.isClosed names then none
  else
    let c := { c with here := names, named := names :: c.named }
    match valueAt? c.top names with
    | some (.table _) => some c
    | some _ => none
    | none => (put? (.table []) names c.top).map fun top => { c with top }

/-- The value with one more table in the array at the end of names. -/
def pushTable? : List String → Toml → Option Toml
  | [], .array items => some (.array (items ++ [.table []]))
  | name :: names, .table members =>
    match NameMap.find? name members with
    | some (.array items) =>
      if names.isEmpty then
        some (.table (NameMap.insert name (.array (items ++ [.table []])) members))
      else
        match items.getLast? with
        | some last => (pushTable? names last).map fun last =>
            .table (NameMap.insert name (.array (items.dropLast ++ [last])) members)
        | none => none
    | some v => (pushTable? names v).map fun v => .table (NameMap.insert name v members)
    | none => none
  | _, _ => none

/-- Adds a table to the array of a name, which values go to from now on. -/
def addTable (c : Contents) (names : List String) : Option Contents :=
  let others (l : List (List String)) : List (List String) := l.filter (!names.isPrefixOf ·)
  let top? := match valueAt? c.top names with
    | none => put? (.array [.table []]) names c.top
    | some _ => pushTable? names c.top
  if c.isClosed names then none
  else top?.map fun top => ⟨top, names, others c.named, others c.closed⟩

/-- Takes a line. -/
def takeLine (c : Contents) (line : List Token) : Option Contents :=
  match line with
  | [] => some c
  | .sign '[' :: .sign '[' :: rest =>
    match rest.reverse with
    | .sign ']' :: .sign ']' :: names => (namesOf? names.reverse).bind c.addTable
    | _ => none
  | .sign '[' :: rest =>
    match rest.reverse with
    | .sign ']' :: names => (namesOf? names.reverse).bind c.nameTable
    | _ => none
  | line => do
    let names ← namesOf? (line.takeWhile (· != .sign '='))
    let v ← ofTokens? (line.dropWhile (· != .sign '=')).tail
    let names := c.here ++ names
    let top ← if c.isClosed names then none else put? v names c.top
    some { c with top, closed := if v.isWhole then c.closed else names :: c.closed }

end Contents

/-- The value that a text holds. -/
def parse? (s : String) : Option Toml := do
  let c ← (lines 0 (← tokens? s.toList)).foldlM Contents.takeLine ({} : Contents)
  c.top

end YangPartition.Toml
