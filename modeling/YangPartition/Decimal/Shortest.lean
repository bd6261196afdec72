import YangPartition.Decimal.Basic

/-!
# Binary numbers and their shortest decimals

A binary number has 53 bits and a power of two. A decimal number is rounded to
the nearest binary number, a tie to the one with an even last bit. The shortest
decimal of a binary number has the fewest digits that are rounded to it, and
among these is the nearest.
-/

namespace YangPartition

/-- A number of 53 bits with a power of two, or what is beyond these numbers. -/
inductive Binary where
  /-- A whole number times a power of two, perhaps with a sign. -/
  | finite (negative : Bool) (mantissa : Nat) (exponent : Int)
  /-- Beyond all finite numbers. -/
  | infinite (negative : Bool)
  /-- No number. -/
  | none
  deriving DecidableEq, Repr

namespace Binary

/-- The number of bits of a mantissa. -/
def bits : Nat := 53

/-- The least power of two. -/
def minExponent : Int := -1074

/-- The greatest power of two. -/
def maxExponent : Int := 971

/-- A quotient rounded to the nearest whole number, a tie to the even one. -/
def roundDiv (num den : Nat) : Nat :=
  let q := num / den
  let r := num % den
  if 2 * r < den then q else if den < 2 * r then q + 1 else q + q % 2

/-- A numerator and a denominator divided by a power of a base. -/
def scaled (base : Nat) (e : Int) (num den : Nat) : Nat × Nat :=
  if 0 ≤ e then (num, den * base.pow e.toNat) else (num * base.pow (-e).toNat, den)

/-- The nearest mantissa for a power of two. -/
def mantissaFor (e : Int) (num den : Nat) : Nat :=
  let (num, den) := scaled 2 e num den
  roundDiv num den

/-- The binary number nearest to a positive quotient. -/
def nearest (negative : Bool) (num den : Nat) : Binary :=
  let e : Int := max minExponent ((num.log2 : Int) - den.log2 - bits)
  let m := mantissaFor e num den
  let (m, e) := if m < Nat.pow 2 bits then (m, e) else (mantissaFor (e + 1) num den, e + 1)
  let (m, e) := if m < Nat.pow 2 bits then (m, e) else (m / 2, e + 1)
  if maxExponent < e then .infinite negative else .finite negative m e

/-- The most digits before the point that are looked at, and behind it. -/
def maxPlaces : Int := 400

/-- The binary number nearest to a decimal one. -/
def ofDecimal (d : Decimal) : Binary :=
  let places : Int := (toString d.digits).length + d.exponent
  if d.digits = 0 ∨ places < -maxPlaces then .finite d.negative 0 minExponent
  else if maxPlaces < places then .infinite d.negative
  else
    let (num, den) := Binary.scaled 10 (-d.exponent) d.digits 1
    nearest d.negative num den

/-- Whether a number is zero. -/
def isZero : Binary → Bool
  | finite _ m _ => m = 0
  | _ => false

/-! ### Shortest decimals -/

/-- A positive binary number on the decimal grid of an exponent: the multiple of
the power of ten nearest to it among those that are rounded to it. The bounds of
these are halfway to the neighbours, and belong to them if the mantissa is even. -/
def onGrid (m : Nat) (e : Int) (grid : Int) : Option Nat :=
  let below := if m = Nat.pow 2 (bits - 1) ∧ minExponent < e then 1 else 2
  let unit := scaled 2 (2 - e) 1 1
  let (num, den) := scaled 10 grid unit.1 unit.2
  let holds (n : Nat) : Bool :=
    let low := (4 * m - below) * num
    let high := (4 * m + 2) * num
    if m % 2 = 0 then low ≤ n * den && n * den ≤ high else low < n * den && n * den < high
  let floor := 4 * m * num / den
  let near := roundDiv (4 * m * num) den
  let far := if near = floor then floor + 1 else floor
  if near ≠ 0 ∧ holds near then some near
  else if far ≠ 0 ∧ holds far then some far
  else Option.none

/-- The exponents of the decimal grids on which a number has few digits, coarsest first. -/
def grids (m : Nat) (e : Int) : List Int :=
  let (num, den) := scaled 2 (-e) m 1
  let places : Int :=
    if den ≤ num then (toString (num / den)).length
    else 1 - (((List.range 400).find? fun j => den ≤ num * Nat.pow 10 j).getD 0 : Nat)
  (List.range 19).map fun (n : Nat) => places + 1 - (n : Int)

/-- The shortest decimal of a positive binary number. -/
def shortest (negative : Bool) (m : Nat) (e : Int) : Decimal :=
  match (grids m e).findSome? fun grid => (onGrid m e grid).map fun n => (n, grid) with
  | some (n, grid) => ⟨negative, n, grid⟩
  | Option.none => ⟨negative, 0, 0⟩

/-- The text of a number, without an exponent. -/
def text : Binary → String
  | finite negative m e =>
    if m = 0 then (if negative then "-0" else "0") else (shortest negative m e).text
  | infinite negative => if negative then "-inf" else "inf"
  | none => "NaN"

end Binary

end YangPartition
