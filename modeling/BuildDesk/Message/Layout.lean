/-
Laying values out in fields of a given width.

A layout is written as fill and alignment, sign, a mark against a negative zero,
`#`, `0`, width, grouping mark, precision and kind, each of which may be left out.
Texts are aligned to the left and cut at the precision, numbers are aligned to the
right.

Main definitions:
* `Layout`, `Layout.parse?` — the parts of a layout;
* `Layout.Misfit` — why a value cannot be laid out;
* `Layout.ofText`, `Layout.ofInt`, `Layout.ofFloat` — a value laid out.
-/
import BuildDesk.Number.Rounded
import BuildDesk.Text.Digit

namespace BuildDesk

/-- The parts of a layout. -/
structure Layout where
  fill : Char := ' '
  align : Option Char := none
  sign : Option Char := none
  /-- A zero has no sign after rounding. -/
  plainZero : Bool := false
  alternate : Bool := false
  width : Nat := 0
  grouping : Option Char := none
  precision : Option Nat := none
  kind : Option Char := none

namespace Layout

/-- Why a value cannot be laid out. -/
inductive Misfit
  /-- The layout is malformed or does not suit the value. -/
  | malformed
  /-- The value is beyond what the kind can show. -/
  | tooLarge
  /-- The text is longer than the memory holds. -/
  | tooLong
  deriving DecidableEq, Repr

/-- The marks of alignment. -/
def isAlign (c : Char) : Bool := c == '<' || c == '>' || c == '^' || c == '='

/-- Numbers from this on are too large for a width, a precision or a position. -/
def numberBound : Nat := 9223372036854775808

/-- From this on a precision is too large for a double. -/
def precisionBound : Nat := 2147483648

/-- Texts that are longer do not fit into the memory. -/
def longest : Nat := 100000000

/-- Reads a decimal number, none when no digit stands there; fails when the number is
too large. -/
def number? (s : List Char) : Option (Option Nat × List Char) :=
  let digits := s.takeWhile Text.isDigit
  let n := Text.natOfDigits 0 digits
  if digits.isEmpty then some (none, s)
  else if n < numberBound then some (some n, s.dropWhile Text.isDigit) else none

/-- Takes the first character when it is one of those given. -/
def oneOf (cs : List Char) (s : List Char) : Option Char × List Char :=
  match s with
  | c :: rest => if cs.contains c then (some c, rest) else (none, s)
  | [] => (none, [])

/-- Fill and alignment in front of a layout. -/
def alignment (s : List Char) : Option Char × Option Char × List Char :=
  match s with
  | c :: a :: rest =>
    if isAlign a then (some c, some a, rest)
    else if isAlign c then (none, some c, a :: rest) else (none, none, s)
  | [c] => if isAlign c then (none, some c, []) else (none, none, s)
  | [] => (none, none, [])

/-- The parts of a written layout; nothing when it is malformed.  A zero in front
of the width fills with zeros, after the sign where `numeric`. -/
def parse? (numeric : Bool) (s : List Char) : Option Layout := do
  let (fill, align, s) := alignment s
  let (sign, s) := oneOf ['+', '-', ' '] s
  let (plainZero, s) := oneOf ['z'] s
  let (alternate, s) := oneOf ['#'] s
  let (fill, align, s) := match s, fill with
    | '0' :: rest, none => (some '0', if numeric then align.or (some '=') else align, rest)
    | _, _ => (fill, align, s)
  let (width, s) ← number? s
  let (grouping, s) := oneOf [',', '_'] s
  let (precision, s) ← match s with
    | '.' :: rest =>
      match number? rest with
      | some (some n, rest) => some (some n, rest)
      | _ => none
    | _ => some (none, s)
  let kind ← match s with
    | [] => some none
    | [c] => some (some c)
    | _ => none
  pure { fill := fill.getD ' ', align, sign, plainZero := plainZero.isSome,
         alternate := alternate.isSome, width := width.getD 0, grouping, precision, kind }

/-- Pads to the width: `lead` stays in front of the fill under the alignment `=`. -/
def pad (l : Layout) (standard : Char) (lead body : List Char) : Except Misfit String :=
  if longest < l.width then .error .tooLong
  else
    let missing := l.width - (lead.length + body.length)
    let fillers (n : Nat) := List.replicate n l.fill
    let align := l.align.getD standard
    .ok <| String.ofList <|
      if align == '<' then lead ++ body ++ fillers missing
      else if align == '^' then
        fillers (missing / 2) ++ lead ++ body ++ fillers (missing - missing / 2)
      else if align == '=' then lead ++ fillers missing ++ body
      else fillers missing ++ lead ++ body

/-- A text laid out. -/
def ofText (spec : List Char) (s : String) : Except Misfit String :=
  match parse? false spec with
  | none => .error .malformed
  | some l =>
    if l.sign.isSome || l.plainZero || l.alternate || l.align == some '=' || l.grouping.isSome
        || (l.kind.isSome && l.kind != some 's') then .error .malformed
    else
      let chars := match l.precision with
        | some n => s.toList.take n
        | none => s.toList
      l.pad '<' [] chars

/-- Digits in groups, counted from the right. -/
def grouped (mark : Char) (size : Nat) (digits : List Char) : List Char :=
  (digits.foldr (fun c (count, done) =>
    if count == size then (1, c :: mark :: done) else (count + 1, c :: done)) (0, [])).2

/-- The least number of digits that takes a number of columns when it is grouped. -/
def digitsFor (size columns : Nat) : Nat := columns - (columns - 1) / (size + 1)

/-- The sign in front of a number. -/
def signOf (l : Layout) (negative : Bool) : List Char :=
  if negative then ['-'] else match l.sign with
    | some '+' => ['+']
    | some ' ' => [' ']
    | _ => []

/-- A number laid out: sign and base in front, the whole part, and the rest.  Zeros
that fill the width are grouped like all digits. -/
def padNumber (l : Layout) (size : Nat) (lead whole rest : List Char) :
    Except Misfit String :=
  match l.grouping with
  | none => l.pad '>' lead (whole ++ rest)
  | some mark =>
    let zeros :=
      if l.fill == '0' && l.align == some '=' && l.width ≤ longest then
        digitsFor size (l.width - (lead.length + rest.length)) - whole.length
      else 0
    l.pad '>' lead (grouped mark size (List.replicate zeros '0' ++ whole) ++ rest)

/-- The text of a double without its sign. -/
def unsigned (x : Float) : List Char := (Number.format x).toList.dropWhile (· == '-')

/-- The shortest text of the size of a finite double; a point stands in front of the
exponent, too, where it is to be kept. -/
def shortText (keepPoint : Bool) (x : Float) : List Char :=
  let text := unsigned x
  if keepPoint && !text.contains '.' then
    text.takeWhile Char.isDigit ++ '.' :: text.dropWhile Char.isDigit
  else text

/-- Letters are written large. -/
def isLarge (l : Layout) : Bool := ['E', 'F', 'G', 'X'].any (l.kind == some ·)

/-- A text with its letters large where the layout says so. -/
def cased (l : Layout) (text : List Char) : List Char :=
  if l.isLarge then text.map Char.toUpper else text

/-- The kinds that lay out a double; the kind `n` has groups of its own. -/
def isReal (l : Layout) : Bool :=
  match l.kind with
  | none => true
  | some 'n' => l.grouping.isNone
  | some c => ['e', 'E', 'f', 'F', 'g', 'G', '%'].contains c

/-- Every double has only zeros beyond this many places, and beyond this many digits. -/
def mostPlaces : Nat := 1100

/-- A text of digits with further zeros in front of its exponent. -/
def extended (zeros : Nat) (text : List Char) : List Char :=
  text.takeWhile (· != 'e') ++ List.replicate zeros '0' ++ text.dropWhile (· != 'e')

/-- The text of the size of a finite double. -/
def sizeText (l : Layout) (x : Float) : List Char :=
  let p := Number.parts x
  let (num, den) := (⟨false, p.significand, p.exponent⟩ : Number.Parts).quotient
  let asked := l.precision.getD 6
  let (num, places, zeros) := (num.toNat, min asked mostPlaces, asked - mostPlaces)
  let general (form : Number.GeneralForm) :=
    extended (if l.alternate then zeros else 0)
      (Number.general num den places { form with keepZeros := l.alternate })
  match l.kind with
  | none =>
    if l.precision.isSome then general { pointed := true } else shortText l.alternate x
  | some 'e' | some 'E' => extended zeros (Number.scientific num den places l.alternate)
  | some 'f' | some 'F' | some '%' => extended zeros (Number.fixed num den places l.alternate)
  | _ => general {}

/-- The places that a text of a double has to show even where they are zeros. -/
def placesKept (l : Layout) : Nat :=
  match l.kind with
  | none | some 'g' | some 'G' | some 'n' => if l.alternate then l.precision.getD 0 else 0
  | _ => l.precision.getD 0

/-- A double laid out as the parts of a layout say.  A percentage is the double a
hundred times as large, with its mark behind it. -/
def float (l : Layout) (x : Float) : Except Misfit String :=
  let percent := l.kind == some '%'
  let x := if percent then x * 100.0 else x
  let finite := !x.isNaN && !x.isInf
  if !l.isReal || precisionBound ≤ l.precision.getD 0 then .error .malformed
  else if finite && longest < l.placesKept then .error .tooLong
  else
    let text := l.cased (if finite then l.sizeText x else unsigned x)
    let isZero := text.all fun c => !c.isDigit || c == '0'
    let negative := (Number.parts x).negative && !x.isNaN && !(l.plainZero && finite && isZero)
    let rest := text.dropWhile Char.isDigit ++ if percent then ['%'] else []
    l.padNumber 3 (l.signOf negative) (text.takeWhile Char.isDigit) rest

/-- A double laid out. -/
def ofFloat (spec : List Char) (x : Float) : Except Misfit String :=
  match parse? true spec with
  | none => .error .malformed
  | some l => l.float x

/-- Digits of a whole number in a base, with a mark of the base where it is asked for. -/
def inBase (l : Layout) (base : Nat) (mark : List Char) (n : Int) : Except Misfit String :=
  let groups := if base == 10 then 3 else 4
  let lead := l.signOf (n < 0) ++ if l.alternate then l.cased mark else []
  l.padNumber groups lead (l.cased (Nat.toDigits base n.natAbs)) []

/-- The character of a code. -/
def character (l : Layout) (n : Int) : Except Misfit String :=
  if l.sign.isSome || l.alternate || l.grouping.isSome then .error .malformed
  else if n < 0 || 0x110000 ≤ n then .error .tooLarge
  else l.pad '>' [] [Char.ofNat n.toNat]

/-- A whole number laid out as the parts of a layout say. -/
def whole (l : Layout) (n : Int) : Except Misfit String :=
  let exact (text : Except Misfit String) : Except Misfit String :=
    if l.precision.isSome || l.plainZero then .error .malformed else text
  let based (base : Nat) (mark : List Char) : Except Misfit String :=
    exact (if l.grouping == some ',' then .error .malformed else l.inBase base mark n)
  match l.kind with
  | none | some 'd' => exact (l.inBase 10 [] n)
  | some 'n' => exact (if l.grouping.isSome then .error .malformed else l.inBase 10 [] n)
  | some 'x' | some 'X' => based 16 ['0', 'x']
  | some 'o' => based 8 ['0', 'o']
  | some 'b' => based 2 ['0', 'b']
  | some 'c' => exact (l.character n)
  | _ =>
    let x := Number.scaled n 0
    if x.isInf && l.isReal then .error .tooLarge else l.float x

/-- A whole number laid out. -/
def ofInt (spec : List Char) (n : Int) : Except Misfit String :=
  match parse? true spec with
  | none => .error .malformed
  | some l => l.whole n

end Layout
end BuildDesk
