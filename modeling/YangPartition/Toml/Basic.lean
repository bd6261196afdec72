import YangPartition.Decimal.Shortest
import YangPartition.NameMap

/-!
# TOML values

The values of TOML, how one table is laid over another, and how a value is put
under names.
-/

namespace YangPartition

/-- A TOML value. -/
inductive Toml where
  /-- A text. -/
  | text (s : String)
  /-- A whole number. -/
  | integer (n : Int)
  /-- Any other number. -/
  | number (x : Binary)
  /-- A truth value. -/
  | truth (b : Bool)
  /-- Values in order. -/
  | array (items : List Toml)
  /-- Values under ascending names. -/
  | table (members : List (String × Toml))
  deriving Inhabited

namespace Toml

/-- The members of a table. -/
def members : Toml → NameMap Toml
  | table members => members
  | _ => []

/-- The value of a name in a table. -/
def member? (t : Toml) (name : String) : Option Toml := t.members.find? name

/-- The whole numbers that there are. -/
def isInRange (n : Int) : Bool := Int64.minValue.toInt ≤ n && n ≤ Int64.maxValue.toInt

/-- Whether a value has no parts. -/
def isWhole : Toml → Bool
  | array _ | table _ => false
  | _ => true

/-! ### Layers -/

mutual

/-- A value with another one laid over it, which replaces it; but of a table
stays what is not named in the one above. -/
def overlaid (below : Toml) : Toml → Toml
  | table members => table (membersOverlaid below.members members)
  | v => v
termination_by structural v => v

/-- Members with others laid over them. -/
def membersOverlaid (below : NameMap Toml) : List (String × Toml) → NameMap Toml
  | [] => below
  | (name, v) :: rest =>
    let inner := (below.find? name).getD (table [])
    membersOverlaid (NameMap.insert name (inner.overlaid v) below) rest
termination_by structural ms => ms

end

/-- A value that stands under names, one in the other. -/
def under (v : Toml) : List String → Toml
  | [] => v
  | name :: names => table [(name, v.under names)]

/-! ### Growing tables -/

/-- A value put under names where nothing stands. On the way stand tables, or
arrays of tables, of which the last counts. -/
def put? (v : Toml) : List String → Toml → Option Toml
  | [], _ => none
  | [name], table members =>
    if NameMap.contains name members then none else some (table (NameMap.insert name v members))
  | name :: names, table members =>
    match NameMap.find? name members with
    | some (array items) =>
      match items.getLast? with
      | some last => (put? v names last).map fun last =>
          table (NameMap.insert name (array (items.dropLast ++ [last])) members)
      | none => none
    | inner? => (put? v names (inner?.getD (table []))).map fun inner =>
        table (NameMap.insert name inner members)
  | _, _ => none

end Toml

end YangPartition
