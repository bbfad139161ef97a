/-
Binary fractions, taken apart.

A finite double is a sign, a whole number and a power of two.  Rounding to whole
numbers and the choice of shortest digits work on these parts, in exact
arithmetic.

Main definitions:
* `twoTo`, `tenTo` — powers of two and of ten;
* `Parts`, `parts` — sign, significand and exponent;
* `roundHalfEven` — a quotient rounded to the nearest whole number, a half to
  the even neighbour;
* `floorOf`, `truncated`, `nearest` — whole numbers at a finite double.
-/

namespace BuildDesk.Number

/-- A power of two. -/
def twoTo (n : Nat) : Nat := Nat.pow 2 n

/-- A power of ten. -/
def tenTo (n : Nat) : Nat := Nat.pow 10 n

/-- A finite double: `significand · 2 ^ exponent`, negative or not. -/
structure Parts where
  negative : Bool
  significand : Nat
  exponent : Int
  deriving DecidableEq, Repr

/-- The parts of a double; those of an infinity or of no number at all mean nothing. -/
def parts (x : Float) : Parts :=
  let bits : Nat := x.toBits.toNat
  let fraction : Nat := bits % twoTo 52
  let biased : Nat := bits / twoTo 52 % twoTo 11
  let negative := bits / twoTo 63 == 1
  if biased == 0 then ⟨negative, fraction, -1074⟩
  else ⟨negative, fraction + twoTo 52, (biased : Int) - 1075⟩

/-- `num / den` rounded to the nearest whole number, a half to the even one. -/
def roundHalfEven (num : Int) (den : Nat) : Int :=
  let floor := num.fdiv den
  let rest := num - floor * den
  if 2 * rest < den then floor
  else if (den : Int) < 2 * rest then floor + 1
  else if floor % 2 = 0 then floor else floor + 1

/-- A finite double as a quotient of whole numbers. -/
def Parts.quotient (p : Parts) : Int × Nat :=
  let signed : Int := if p.negative then -p.significand else p.significand
  if 0 ≤ p.exponent then (signed * twoTo p.exponent.toNat, 1)
  else (signed, twoTo (-p.exponent).toNat)

/-- The greatest whole number below a finite double. -/
def floorOf (x : Float) : Int :=
  let (num, den) := (parts x).quotient
  num.fdiv den

/-- A finite double without what follows its point. -/
def truncated (x : Float) : Int :=
  let (num, den) := (parts x).quotient
  num.tdiv den

/-- The whole number nearest to a finite double, a half going to the even one. -/
def nearest (x : Float) : Int :=
  let (num, den) := (parts x).quotient
  roundHalfEven num den

/-- The remainder of a finite double by a positive whole number, with the sign of
the double. -/
def remainder (x : Float) (n : Nat) : Float :=
  let (num, den) := (parts x).quotient
  let rest := num.tmod (n * den : Nat)
  let size := Float.ofScientific rest.natAbs false 0 / Float.ofScientific den false 0
  if (parts x).negative then -size else size

/-- `n / 10 ^ places` as the nearest double. -/
def scaled (n : Int) (places : Nat) : Float :=
  let size := Float.ofScientific n.natAbs true places
  if n < 0 then -size else size

end BuildDesk.Number
