import YangPartition.Document.Basic

/-!
# JSON values

The values of JSON and what they can be read as. A number is kept as it is
written; members of an object keep their order.
-/

namespace YangPartition

/-- A JSON value. -/
inductive Json where
  /-- No value. -/
  | null
  /-- A truth value. -/
  | bool (b : Bool)
  /-- A number, as it is written. -/
  | num (literal : String)
  /-- A text. -/
  | str (s : String)
  /-- Values in order. -/
  | arr (items : List Json)
  /-- Named values in order. -/
  | obj (members : List (String × Json))
  deriving BEq, Inhabited

namespace Json

/-- The number of a natural number. -/
def ofNat (n : Nat) : Json := num (toString n)

/-- A text, or null. -/
def ofText? : Option String → Json
  | some s => str s
  | none => null

/-- An array of texts. -/
def ofTexts (l : List String) : Json := arr (l.map str)

/-! ### Reading a value as a document -/

mutual

/-- A value as a document. Only texts are read as texts, and only null stands for no value. -/
def toDocument : Json → Document
  | null => .scalar ⟨none, none, true, false⟩
  | bool b => .scalar ⟨none, some b, false, false⟩
  | num _ => .unreadable
  | str s => .scalar ⟨some s, none, false, false⟩
  | arr items => .sequence true (itemsToDocuments items)
  | obj members => .mapping true (membersToDocuments members)

/-- The items of an array as documents. -/
def itemsToDocuments : List Json → List Document
  | [] => []
  | item :: items => item.toDocument :: itemsToDocuments items

/-- The members of an object as documents. -/
def membersToDocuments : List (String × Json) → List (String × Document)
  | [] => []
  | (name, value) :: members => (name, value.toDocument) :: membersToDocuments members

end

end Json

end YangPartition
