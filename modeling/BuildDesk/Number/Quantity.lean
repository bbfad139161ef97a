/-
Numbers as documents give them: whole, or as a double.

Main definitions:
* `Quantity`, `Quantity.ofJson?` — a number in a document; yes counts as one;
* `Quantity.reachedBy` — comparison with a double, without rounding;
* `thousandths` — a quotient by a thousand, as the nearest double;
* `wholeThousands` — the whole thousands in a double, worked out in doubles.
-/
import BuildDesk.Json.Basic
import BuildDesk.Number.Decompose

namespace BuildDesk

/-- A number: whole, or a double. -/
inductive Quantity
  | whole (n : Int)
  | real (x : Float)

namespace Quantity

/-- The number that a value is. -/
def ofJson? : Json → Option Quantity
  | .bool b => some (whole (if b then 1 else 0))
  | .int n => some (whole n)
  | .float x => some (real x)
  | _ => none

/-- The number is greater than zero. -/
def isPositive : Quantity → Bool
  | whole n => 0 < n
  | real x => 0 < x

/-- A double has come up to the number. -/
def reachedBy (x : Float) : Quantity → Bool
  | whole n =>
    if x.isNaN then false else if x.isInf then 0 < x else n ≤ Number.floorOf x
  | real y => y ≤ x

/-- The nearest double, if there is one. -/
def toFloat? : Quantity → Option Float
  | whole n =>
    let x := Number.scaled n 0
    if x.isInf then none else some x
  | real x => some x

/-- A thousandth of the number as the nearest double. -/
def thousandths : Quantity → Float
  | whole n => Number.scaled n 3
  | real x => x / 1000.0

end Quantity

namespace Number

/-- The whole thousands in a finite double that is not negative.  The remainder is
exact, the difference and the quotient are rounded to doubles, so a quotient just below
a whole number stands for that number. -/
def wholeThousands (x : Float) : Nat :=
  let quotient := (x - remainder x 1000) / 1000.0
  let below := floorOf quotient
  (if 0.5 < quotient - scaled below 0 then below + 1 else below).toNat

end Number
end BuildDesk
