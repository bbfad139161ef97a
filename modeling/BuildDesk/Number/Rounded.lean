/-
Numbers rounded to a given count of digits.

A number is a quotient of whole numbers, so rounding is exact; a half goes to the
even neighbour.  Digits are counted either behind the point or from the first one
that is not zero, and an exponent is written where the positional form would hide
the size.

Main definitions:
* `fixed` — a given number of places behind the point;
* `significant` — a given number of digits in all;
* `scientific` — those digits with an exponent;
* `general` — positional or with an exponent, whichever suits.
-/
import BuildDesk.Number.Shortest

namespace BuildDesk.Number

/-- A point and what follows it; the point goes when nothing follows it, unless it
is to be kept. -/
def tail (keepPoint : Bool) (digits : List Char) : List Char :=
  if digits.isEmpty && !keepPoint then [] else '.' :: digits

/-- `num / den` with a number of places behind the point. -/
def fixed (num den places : Nat) (keepPoint : Bool) : List Char :=
  let n := (roundHalfEven (num * tenTo places : Nat) den).toNat
  let digits := Nat.toDigits 10 n
  let digits := List.replicate (places + 1 - digits.length) '0' ++ digits
  let whole := digits.length - places
  digits.take whole ++ tail keepPoint (digits.drop whole)

/-- `num / den` to a number of digits, which is at least one.  Rounding may carry into
a further digit, which is a one with zeros behind it. -/
def significant (num den count : Nat) : Decimal :=
  if num == 0 then ⟨List.replicate count '0', 1⟩
  else
    let point := magnitude num den
    let scale := (count : Int) - point
    let n := (roundHalfEven (num * tenTo scale.toNat : Nat) (den * tenTo (-scale).toNat)).toNat
    let digits := Nat.toDigits 10 n
    ⟨digits.take count, point + (digits.length - count)⟩

/-- Digits with a point behind the first one and an exponent. -/
def Decimal.scientific (d : Decimal) (keepPoint : Bool) : List Char :=
  d.digits.take 1 ++ tail keepPoint (d.digits.drop 1) ++ 'e' :: exponentText (d.point - 1)

/-- `num / den` with an exponent and a number of digits behind the point. -/
def scientific (num den places : Nat) (keepPoint : Bool) : List Char :=
  (significant num den (places + 1)).scientific keepPoint

/-- How the general form treats what positional notation could leave out. -/
structure GeneralForm where
  /-- Zeros at the end and the point before them stay. -/
  keepZeros : Bool := false
  /-- A point and at least one digit behind it stay in positional notation, which ends
  one digit earlier. -/
  pointed : Bool := false

/-- Digits in positional notation; as many stand before the point as its place says. -/
def Decimal.positional (d : Decimal) (form : GeneralForm) : List Char :=
  let digits := List.replicate (1 - d.point).toNat '0' ++ d.digits
  let whole := max d.point.toNat 1
  let rest := digits.drop whole
  let rest := if form.keepZeros then rest else dropZeros rest
  let rest := if form.pointed && rest.isEmpty then ['0'] else rest
  digits.take whole ++ tail form.keepZeros rest

/-- `num / den` to a number of digits, positional unless the number is below 0.0001 or
has more digits before the point than are asked for. -/
def general (num den count : Nat) (form : GeneralForm) : List Char :=
  let count := max count 1
  let d := significant num den count
  let most := if form.pointed then count - 1 else count
  if -4 < d.point && d.point ≤ most then d.positional form
  else
    let d := if form.keepZeros then d else { d with digits := d.digits.take 1 ++ dropZeros (d.digits.drop 1) }
    d.scientific form.keepZeros

end BuildDesk.Number
