import YangPartition.NameMap

/-!
# Documents

What a data file holds, whatever its notation: scalars, sequences and mappings.
A scalar carries what its notation lets it be read as, so a reader of a record
asks for a text, a truth value or an optional text and need not know the
notation. Readers give a reason when a document has the wrong shape.
-/

namespace YangPartition

/-- What a scalar can be read as. -/
structure Scalar where
  /-- The text it is read as where a text is wanted. -/
  text? : Option String
  /-- The truth value it is read as. -/
  truth? : Option Bool := none
  /-- It stands for no value where a value may be missing. -/
  absent : Bool := false
  /-- It stands for an empty collection where a collection is wanted. -/
  blank : Bool := false
  deriving DecidableEq, Repr

/-- A data document. In a `compact` one a record may be a sequence of its
fields, and a variant a mapping of its name to no value. -/
inductive Document where
  /-- A value without parts. -/
  | scalar (value : Scalar)
  /-- Values in order. -/
  | sequence (compact : Bool) (items : List Document)
  /-- Named values in order; a name may occur again. -/
  | mapping (compact : Bool) (members : List (String × Document))

namespace Document

/-- A reading with a reason when it fails. -/
abbrev Reading (α : Type) := Except String α

/-- A document that cannot be read as anything. -/
def unreadable : Document := .scalar ⟨none, none, false, false⟩

/-! ### Scalars -/

/-- Reads a text. -/
def text : Document → Reading String
  | scalar ⟨some s, _, _, _⟩ => .ok s
  | _ => .error "expected a string"

/-- Reads a truth value. -/
def truth : Document → Reading Bool
  | scalar ⟨_, some b, _, _⟩ => .ok b
  | _ => .error "expected a boolean"

/-- Reads a text that may be missing. -/
def optionalText (d : Document) : Reading (Option String) :=
  match d with
  | scalar ⟨_, _, true, _⟩ => .ok none
  | d => d.text.map some

/-- Reads the name of a variant. -/
def variant : Document → Reading String
  | mapping true [(name, scalar ⟨_, _, true, _⟩)] => .ok name
  | d => d.text

/-! ### Collections -/

/-- Reads the items of a sequence. -/
def items : Document → Reading (List Document)
  | sequence _ items => .ok items
  | scalar ⟨_, _, _, true⟩ => .ok []
  | _ => .error "expected a sequence"

/-- Reads a sequence of texts. -/
def texts (d : Document) : Reading (List String) := do
  (← d.items).mapM text

/-- Reads the members of a mapping. -/
def members : Document → Reading (List (String × Document))
  | mapping _ members => .ok members
  | scalar ⟨_, _, _, true⟩ => .ok []
  | _ => .error "expected a map"

/-- Reads a map to texts; of members with one name the last counts. -/
def textMap (d : Document) : Reading (NameMap String) := do
  return .ofPairs (← (← d.members).mapM fun (name, value) => return (name, ← value.text))

/-! ### Records -/

/-- A field of a record: its name, and another name that means the same. -/
structure Field where
  /-- The name. -/
  name : String
  /-- The other name. -/
  alias? : Option String := none

/-- The values of the fields of a record that are given. -/
abbrev Record := List (String × Document)

/-- The values of the fields in a mapping; a field may be given once, and
members that are no fields do not count. -/
def recordOfMembers (fields : List Field) (members : List (String × Document)) : Reading Record :=
  fields.foldrM (fun field record =>
    match members.filter fun (name, _) => name = field.name ∨ some name = field.alias? with
    | [] => .ok record
    | [(_, value)] => .ok ((field.name, value) :: record)
    | _ => .error s!"duplicate field `{field.name}`") []

/-- The values of the fields in a sequence, in the order of the fields. -/
def recordOfItems (fields : List Field) (items : List Document) : Reading Record :=
  if fields.length < items.length then .error "too many elements"
  else .ok ((fields.map (·.name)).zip items)

/-- Reads the fields of a record. -/
def record (fields : List Field) : Document → Reading Record
  | mapping _ members => recordOfMembers fields members
  | sequence true items => recordOfItems fields items
  | scalar ⟨_, _, _, true⟩ => .ok []
  | _ => .error "expected a map"

namespace Record

/-- The value of a field that has to be given. -/
def required (r : Record) (name : String) : Reading Document :=
  match r.lookup name with
  | some d => .ok d
  | none => .error s!"missing field `{name}`"

/-- The reading of a field, or the value it has when it is not given. -/
def withDefault {α : Type} (r : Record) (name : String) (read : Document → Reading α)
    (value : α) : Reading α :=
  match r.lookup name with
  | some d => read d
  | none => .ok value

/-- The text of a field, empty when it is not given. -/
def text (r : Record) (name : String) : Reading String :=
  r.withDefault name Document.text ""

/-- The truth value of a field, false when it is not given. -/
def truth (r : Record) (name : String) : Reading Bool :=
  r.withDefault name Document.truth false

/-- The text of a field that may be missing. -/
def optionalText (r : Record) (name : String) : Reading (Option String) :=
  r.withDefault name Document.optionalText none

/-- The texts of a field, none when it is not given. -/
def texts (r : Record) (name : String) : Reading (List String) :=
  r.withDefault name Document.texts []

end Record

end Document

end YangPartition
