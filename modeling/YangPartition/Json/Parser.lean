import YangPartition.Json.Basic
import YangPartition.Json.Token

/-!
# Reading JSON

A stack of open arrays and objects takes the tokens of a text one by one. A
text holds one value, with nothing after it. What a reader of the document never
asks for may be nested at any depth and hold texts without a value; both are
unreadable parts of the document.
-/

namespace YangPartition.Json

/-! ### Numbers and names -/

/-- Whether a text is digits without a leading zero. -/
def isWhole (cs : List Char) : Bool :=
  match cs with
  | [] => false
  | ['0'] => true
  | c :: cs => c != '0' && c.isDigit && cs.all Char.isDigit

/-- Whether a text is a non-empty row of digits. -/
def isDigits (cs : List Char) : Bool :=
  !cs.isEmpty && cs.all Char.isDigit

/-- Whether a text is the part of a number from its point or exponent on. -/
def isNumberTail (cs : List Char) : Bool :=
  let exponent (cs : List Char) : Bool :=
    match cs with
    | [] => true
    | e :: '+' :: ds | e :: '-' :: ds => (e == 'e' || e == 'E') && isDigits ds
    | e :: ds => (e == 'e' || e == 'E') && isDigits ds
  match cs with
  | '.' :: ds =>
    let fraction := ds.takeWhile Char.isDigit
    !fraction.isEmpty && exponent (ds.dropWhile Char.isDigit)
  | cs => exponent cs

/-- Whether a text is a number. -/
def isNumber (s : String) : Bool :=
  let cs := match s.toList with
    | '-' :: cs => cs
    | cs => cs
  isWhole (cs.takeWhile Char.isDigit) && isNumberTail (cs.dropWhile Char.isDigit)

/-- The value of a number or a name in a text. -/
def ofWord? (s : String) : Option Json :=
  if s = "null" then some .null
  else if s = "true" then some (.bool true)
  else if s = "false" then some (.bool false)
  else if isNumber s then some (.num s)
  else none

/-! ### Open values -/

/-- The members of an object, with no name where the name has no value. -/
abbrev OpenMembers := List (Option String × Document)

/-- An array or object that is not closed yet; its parts are held backwards. -/
inductive OpenValue where
  /-- An array. -/
  | array (items : List Document)
  /-- An object. -/
  | object (members : OpenMembers)
  /-- An object behind a name. -/
  | named (members : OpenMembers) (name : Option String)
  /-- An object behind a name and a colon. -/
  | member (members : OpenMembers) (name : Option String)

/-- What may come next. -/
inductive Expects where
  /-- A value. -/
  | value
  /-- A value, or the end of the array that has just been opened. -/
  | valueOrEnd
  /-- A name, or the end of the object that has just been opened. -/
  | nameOrEnd
  /-- A name. -/
  | name
  /-- A colon. -/
  | colon
  /-- A comma or the end of the innermost open value. -/
  | separator
  deriving DecidableEq

/-- The state of the reader: the open values, innermost first, what comes next,
and the whole value once it is complete. -/
structure Reader where
  /-- The open values, innermost first. -/
  stack : List OpenValue := []
  /-- What may come next. -/
  expects : Expects := .value
  /-- The complete value. -/
  result : Option Document := none

/-- How deep values that are read may be nested. -/
def maxDepth : Nat := 127

/-- The document of an array or object below a number of open ones. -/
def nested (depth : Nat) (d : Document) : Document :=
  if depth < maxDepth then d else .unreadable

/-- The document of an object, which is read only if all its names are. -/
def ofMembers (members : OpenMembers) : Document :=
  match members.reverse.mapM fun (name, value) => name.map (·, value) with
  | some members => .mapping true members
  | none => .unreadable

namespace Reader

/-- Puts a complete value in its place. -/
def complete (stack : List OpenValue) (v : Document) : Option Reader :=
  match stack with
  | [] => some ⟨[], .separator, some v⟩
  | .array items :: stack => some ⟨.array (v :: items) :: stack, .separator, none⟩
  | .member members name :: stack =>
    some ⟨.object ((name, v) :: members) :: stack, .separator, none⟩
  | _ => none

/-- Closes an array. -/
def closeArray (stack : List OpenValue) (items : List Document) : Option Reader :=
  complete stack (nested stack.length (.sequence true items.reverse))

/-- Closes an object. -/
def closeObject (stack : List OpenValue) (members : OpenMembers) : Option Reader :=
  complete stack (nested stack.length (ofMembers members))

/-- Takes a token where a value may stand. -/
def value (r : Reader) (t : Token) : Option Reader :=
  match t with
  | .openBracket => some ⟨.array [] :: r.stack, .valueOrEnd, none⟩
  | .openBrace => some ⟨.object [] :: r.stack, .nameOrEnd, none⟩
  | .text s => complete r.stack (s.elim .unreadable fun s => (str s).toDocument)
  | .word s => (ofWord? s).bind fun v => complete r.stack v.toDocument
  | _ => none

/-- Takes a token where a name may stand. -/
def name (r : Reader) (t : Token) : Option Reader :=
  match t, r.stack with
  | .text s, .object members :: stack => some ⟨.named members s :: stack, .colon, none⟩
  | _, _ => none

/-- Takes one token. -/
def take (r : Reader) (t : Token) : Option Reader :=
  match r.expects, t, r.stack with
  | .value, t, _ => r.value t
  | .valueOrEnd, .closeBracket, .array items :: stack => closeArray stack items
  | .valueOrEnd, t, _ => r.value t
  | .nameOrEnd, .closeBrace, .object members :: stack => closeObject stack members
  | .nameOrEnd, t, _ | .name, t, _ => r.name t
  | .colon, .colon, .named members s :: stack => some ⟨.member members s :: stack, .value, none⟩
  | .separator, .comma, .array items :: stack => some ⟨.array items :: stack, .value, none⟩
  | .separator, .comma, .object members :: stack => some ⟨.object members :: stack, .name, none⟩
  | .separator, .closeBracket, .array items :: stack => closeArray stack items
  | .separator, .closeBrace, .object members :: stack => closeObject stack members
  | _, _, _ => none

end Reader

/-- The document that a text holds. -/
def document? (s : String) : Option Document := do
  let r ← (← tokens s.toList).foldlM Reader.take ({} : Reader)
  r.result

end YangPartition.Json
