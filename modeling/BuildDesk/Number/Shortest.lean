/-
The shortest decimal that reads back as a given double.

The doubles nearest to a decimal form an interval of reals.  For one digit, two
digits, and so on, the two neighbours of the value on that decimal grid are
tested against the interval; the first grid with a hit wins, and of two hits the
nearer one.

Main definitions:
* `Decimal` — digits and the place of the point;
* `shortest` — the shortest decimal of a positive double;
* `format` — its text: positional from 0.0001 up to sixteen whole digits, with
  an exponent beyond.
-/
import BuildDesk.Number.Decompose

namespace BuildDesk.Number

/-- The decimal `0.d₁d₂… · 10 ^ point`. -/
structure Decimal where
  digits : List Char
  point : Int
  deriving DecidableEq, Repr

/-- The reals that round to one double: everything between `low / den` and
`high / den`, the ends included when `closed`. -/
structure Interval where
  low : Nat
  value : Nat
  high : Nat
  den : Nat
  closed : Bool

/-- The interval of a positive double. -/
def interval (p : Parts) : Interval :=
  let below := if p.significand == twoTo 52 && p.exponent != -1074 then 1 else 2
  let up := twoTo (p.exponent - 2).toNat
  let down := twoTo (2 - p.exponent).toNat
  let m := 4 * p.significand
  ⟨(m - below) * up, m * up, (m + 2) * up, down, p.significand % 2 == 0⟩

/-- A grid point `n · 10 ^ scale` lies in an interval. -/
def Interval.contains (i : Interval) (n : Nat) (scale : Int) : Bool :=
  let point := n * tenTo scale.toNat * i.den
  let unit := tenTo (-scale).toNat
  let (low, high) := (i.low * unit, i.high * unit)
  if i.closed then low ≤ point && point ≤ high else low < point && point < high

/-- The grid point at or just below the value, and whether the next one is nearer. -/
def Interval.neighbours (i : Interval) (scale : Int) : Nat × Bool :=
  let num := i.value * tenTo (-scale).toNat
  let den := i.den * tenTo scale.toNat
  let floor := num / den
  let rest := num % den
  (floor, den < 2 * rest || (den == 2 * rest && floor % 2 == 1))

/-- The hit on one grid, if there is one. -/
def Interval.hit (i : Interval) (scale : Int) : Option Nat :=
  let (floor, upper) := i.neighbours scale
  let order := if upper then [floor + 1, floor] else [floor, floor + 1]
  order.find? fun n => 0 < n && i.contains n scale

/-- The least `k` with `num / den` below `10 ^ k`, found from the binary logarithm. -/
def magnitude (num den : Nat) : Int :=
  let guess := ((num.log2 : Int) - (den.log2 : Int)) * 1233 / 4096 - 1
  let below (k : Int) : Bool := num * tenTo (-k).toNat < den * tenTo k.toNat
  ([guess, guess + 1, guess + 2].find? below).getD (guess + 3)

/-- Drops the zeros at the end of a list of digits. -/
def dropZeros (digits : List Char) : List Char := (digits.reverse.dropWhile (· == '0')).reverse

/-- The shortest decimal of a positive double. -/
def shortest (p : Parts) : Decimal :=
  let i := interval p
  let size := magnitude i.value i.den
  let tried := (List.range 17).findSome? fun (k : Nat) =>
    let scale := size - (k : Int) - 1
    (i.hit scale).map fun n => (n, scale)
  let (n, scale) := tried.getD (i.value / i.den, 0)
  let digits := Nat.toDigits 10 n
  ⟨dropZeros digits, scale + digits.length⟩

/-- The text of an exponent: a sign and at least two digits. -/
def exponentText (e : Int) : List Char :=
  let digits := Nat.toDigits 10 e.natAbs
  (if e < 0 then '-' else '+') :: (if digits.length < 2 then '0' :: digits else digits)

/-- The text of a decimal. -/
def Decimal.text (d : Decimal) : List Char :=
  if -4 < d.point && d.point ≤ 16 then
    if d.point ≤ 0 then
      ['0', '.'] ++ List.replicate (-d.point).toNat '0' ++ d.digits
    else
      let whole := d.digits.take d.point.toNat
      let zeros := List.replicate (d.point.toNat - whole.length) '0'
      let rest := d.digits.drop d.point.toNat
      whole ++ zeros ++ '.' :: (if rest.isEmpty then ['0'] else rest)
  else
    match d.digits with
    | [] => []
    | lead :: rest =>
      lead :: (if rest.isEmpty then [] else '.' :: rest) ++ 'e' :: exponentText (d.point - 1)

/-- The text of a double. -/
def format (x : Float) : String :=
  if x.isNaN then "nan"
  else if x.isInf then (if x < 0 then "-inf" else "inf")
  else
    let p := parts x
    let size := if p.significand == 0 then ['0', '.', '0'] else (shortest p).text
    String.ofList (if p.negative then '-' :: size else size)

end BuildDesk.Number
