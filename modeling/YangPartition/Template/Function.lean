import YangPartition.Json.Basic
import YangPartition.NameMap
import YangPartition.Text.Casing
import YangPartition.Text.Words

/-!
# Functions of templates

What a template can compute: cases of texts, neighbours of whole numbers,
comparisons, truth, sizes and look-ups. A function refuses a value that is not
there or that it is not made for.
-/

namespace YangPartition.Template

/-! ### Failures -/

/-- Why a template cannot be filled in. -/
inductive Failure where
  /-- A value that is needed is not there. -/
  | missing (what : String)
  /-- An array is asked for a member that is no number. -/
  | badIndex (name : String)
  /-- A function has no value, or one that it is not made for. -/
  | badValue (function : String)
  /-- There is no function of the name. -/
  | unknownFunction (name : String)
  /-- There is no template of the name. -/
  | unknownTemplate (name : String)
  /-- Templates stand in each other too deep. -/
  | tooDeep
  deriving DecidableEq, Repr

/-- The text of a failure. -/
def Failure.message : Failure → String
  | missing what => s!"no value for {what}"
  | badIndex name => s!"an array has no member {name}"
  | badValue function => s!"wrong value for {function}"
  | unknownFunction name => s!"no function {name}"
  | unknownTemplate name => s!"no template {name}"
  | tooDeep => "templates stand in each other too deep"

/-! ### Values as texts and truths -/

mutual

/-- The text of a value in a filled-in template. -/
def textOf : Json → String
  | .null => ""
  | .bool b => if b then "true" else "false"
  | .num literal => literal
  | .str s => s
  | .arr items => "[" ++ ", ".intercalate (textsOf items) ++ "]"
  | .obj _ => "[object]"
termination_by structural j => j

/-- The texts of values in a filled-in template. -/
def textsOf : List Json → List String
  | [] => []
  | item :: items => textOf item :: textsOf items
termination_by structural js => js

end

/-- Whether a written number is zero. -/
def isZero (literal : String) : Bool :=
  (literal.toList.takeWhile fun c => c != 'e' && c != 'E').all fun c => !c.isDigit || c == '0'

/-- Whether a value counts as true: nothing, zero and what is empty do not. -/
def isTruthy (zeroCounts : Bool) : Json → Bool
  | .null => false
  | .bool b => b
  | .num literal => zeroCounts || !isZero literal
  | .str s => !s.isEmpty
  | .arr items => !items.isEmpty
  | .obj members => !members.isEmpty

/-- The whole number that a value is, if it has at most 64 bits. -/
def wholeNumber? : Json → Option Int
  | .num literal => literal.toInt?.filter fun n => Int64.minValue.toInt ≤ n ∧ n ≤ Int64.maxValue.toInt
  | _ => none

/-- The size of a value: of arrays and objects the members, of texts the bytes. -/
def sizeOf : Json → Nat
  | .str s => s.utf8ByteSize
  | .arr items => items.length
  | .obj members => members.length
  | _ => 0

/-! ### Members -/

/-- The number that a text of digits is. -/
def index? (s : String) : Option Nat :=
  if s.isEmpty ∨ !s.toList.all Char.isDigit then none else s.toNat?

/-- The member of a value, if there is one. -/
def memberOf (v : Json) (name : String) : Except Failure (Option Json) :=
  match v with
  | .arr items =>
    match index? name with
    | some n => .ok items[n]?
    | none => .error (.badIndex name)
  | .obj members => .ok (members.lookup name)
  | _ => .ok none

/-- The value at the end of names, if there is one. -/
def follow (v : Json) : List String → Except Failure (Option Json)
  | [] => .ok (some v)
  | name :: names => do
    match ← memberOf v name with
    | some v => follow v names
    | none => .ok none

/-- The member of an array at a number, or of an object at a name. -/
def lookUp (v key : Json) : Option Json :=
  match v, key with
  | .arr items, .num literal => (index? literal).bind (items[·]?)
  | .obj members, .str name => members.lookup name
  | _, _ => none

/-! ### Functions -/

/-- A function of values. -/
inductive Function where
  /-- Of a text. -/
  | ofText (f : String → String)
  /-- Of a whole number. -/
  | ofNumber (f : Int → Int)
  /-- Of one value. -/
  | ofValue (f : Json → Json)
  /-- Of two values. -/
  | ofValues (f : Json → Json → Option Json)

/-- A function of two values that always has a result. -/
def Function.ofTruths (f : Json → Json → Bool) : Function :=
  .ofValues fun a b => some (.bool (f a b))

/-- The function of a name. -/
def Function.named? (name : String) : Option Function :=
  match name with
  | "upper_camel" => some (.ofText Text.pascalCase)
  | "lower_camel" => some (.ofText Text.camelCase)
  | "kebab" => some (.ofText Text.kebabCase)
  | "lower" => some (.ofText fun s => String.ofList (Text.lower s.toList))
  | "upper" => some (.ofText fun s => String.ofList (Text.upper s.toList))
  | "inc" => some (.ofNumber (· + 1))
  | "dec" => some (.ofNumber (· - 1))
  | "not" => some (.ofValue fun v => .bool !(isTruthy false v))
  | "len" => some (.ofValue fun v => .ofNat (sizeOf v))
  | "eq" => some (.ofTruths fun a b => a == b)
  | "ne" => some (.ofTruths fun a b => !(a == b))
  | "and" => some (.ofTruths fun a b => isTruthy false a && isTruthy false b)
  | "or" => some (.ofTruths fun a b => isTruthy false a || isTruthy false b)
  | "lookup" => some (.ofValues fun a b => (lookUp a b).filter fun v => !(v == .null))
  | _ => none

/-- The value of a function, of which `name` is the name, for the values that
are there; further values are left aside. -/
def Function.call (name : String) (f : Function) (args : List (Option Json)) :
    Except Failure Json :=
  match f, args with
  | .ofText f, some (.str s) :: _ => .ok (.str (f s))
  | .ofNumber f, some v :: _ =>
    match wholeNumber? v with
    | some n => .ok (.num (toString (f n)))
    | none => .error (.badValue name)
  | .ofValue f, some v :: _ => .ok (f v)
  | .ofValues f, some a :: some b :: _ =>
    match f a b with
    | some v => .ok v
    | none => .error (.missing name)
  | _, _ => .error (.badValue name)

end YangPartition.Template
