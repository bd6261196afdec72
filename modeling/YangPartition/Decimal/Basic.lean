/-!
# Decimal numbers

A decimal number is a whole number times a power of ten. It is read from digits
with an optional sign, point and exponent, and written without an exponent.
-/

namespace YangPartition

/-- A number that digits can write: a whole number times a power of ten. -/
structure Decimal where
  /-- It is below zero, or zero with a sign. -/
  negative : Bool
  /-- The digits as one number. -/
  digits : Nat
  /-- The power of ten. -/
  exponent : Int
  deriving DecidableEq, Repr

namespace Decimal

/-- The value of digits. -/
def valueOfDigits (cs : List Char) : Nat :=
  cs.foldl (fun n c => 10 * n + (c.toNat - '0'.toNat)) 0

/-- The sign in front of a text, and the rest. -/
def signed : List Char → Bool × List Char
  | '-' :: cs => (true, cs)
  | '+' :: cs => (false, cs)
  | cs => (false, cs)

/-- The exponent that a text is; none is zero. -/
def exponentOf? : List Char → Option Int
  | [] => some 0
  | e :: cs =>
    let (negative, ds) := signed cs
    if (e = 'e' ∨ e = 'E') ∧ !ds.isEmpty ∧ ds.all Char.isDigit then
      let n : Int := valueOfDigits ds
      some (if negative then -n else n)
    else none

/-- The number that a text is: digits, of which some may follow a point, and an exponent. -/
def ofText? (text : String) : Option Decimal :=
  let (negative, cs) := signed text.toList
  let whole := cs.takeWhile Char.isDigit
  let rest := cs.dropWhile Char.isDigit
  let (fraction, rest) := match rest with
    | '.' :: cs => (cs.takeWhile Char.isDigit, cs.dropWhile Char.isDigit)
    | cs => ([], cs)
  if whole.isEmpty ∧ fraction.isEmpty then none
  else
    (exponentOf? rest).map fun e =>
      ⟨negative, valueOfDigits (whole ++ fraction), e - fraction.length⟩

/-- The text of a number without an exponent. -/
def text (d : Decimal) : String :=
  let sign := if d.negative then "-" else ""
  let ds := (toString d.digits).toList
  if d.digits = 0 then sign ++ "0"
  else if 0 ≤ d.exponent then
    sign ++ String.ofList (ds ++ List.replicate d.exponent.toNat '0')
  else
    let places := (-d.exponent).toNat
    let ds := List.replicate (places + 1 - ds.length) '0' ++ ds
    sign ++ String.ofList (ds.take (ds.length - places) ++ '.' :: ds.drop (ds.length - places))

end Decimal

end YangPartition
