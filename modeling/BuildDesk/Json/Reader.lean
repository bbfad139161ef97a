/-
Reading JSON texts.

The grammar is that of the JSON standard with three additions: the numbers NaN,
Infinity and -Infinity are read, the last of several members with one name
counts, and a whole number may not have more than 4300 digits.  Values may nest up
to a fixed depth.  A text is read from the left, so of two faults the one further
left is reported.

Main definitions:
* `Json.ReadError` — why a text is not read;
* `readString`, `readNumber`, `readValue` — the scanner for what stands at the
  head of a list of characters, with what is left after it;
* `Json.read` — a whole text.
-/
import BuildDesk.Json.Basic
import BuildDesk.Text.Digit
import BuildDesk.Text.Surrogate

namespace BuildDesk.Json

/-- Why a text is not read. -/
inductive ReadError
  | malformed
  | tooManyDigits
  | tooDeep
  deriving DecidableEq, Repr

/-- The white space of JSON. -/
def isSpace (c : Char) : Bool := c == ' ' || c == '\t' || c == '\n' || c == '\r'

/-- What is left after white space. -/
def skip (s : List Char) : List Char := s.dropWhile isSpace

/-- The decimal digits of JSON. -/
def isDigit (c : Char) : Bool := '0' ≤ c && c ≤ '9'

/-- The value of a hexadecimal digit. -/
def hexValue? (c : Char) : Option Nat :=
  if '0' ≤ c && c ≤ '9' then some (c.toNat - 48)
  else if 'a' ≤ c && c ≤ 'f' then some (c.toNat - 87)
  else if 'A' ≤ c && c ≤ 'F' then some (c.toNat - 55)
  else none

/-- The value of four hexadecimal digits. -/
def unit? (a b c d : Char) : Option Nat := do
  pure ((((← hexValue? a) * 16 + (← hexValue? b)) * 16 + (← hexValue? c)) * 16 + (← hexValue? d))

/-- What a pending first half of a surrogate pair leaves when no second half follows. -/
def unpaired (high : Option Nat) : List Char :=
  match high with
  | some h => [Text.ofHalf h]
  | none => []

/-- The character of a surrogate pair. -/
def paired (high low : Nat) : Char :=
  Char.ofNat (0x10000 + (high - 0xD800) * 0x400 + (low - 0xDC00))

/-- The character of an escape other than `u`. -/
def escaped? (c : Char) : Option Char :=
  match c with
  | '"' => some '"'
  | '\\' => some '\\'
  | '/' => some '/'
  | 'b' => some (Char.ofNat 8)
  | 'f' => some (Char.ofNat 12)
  | 'n' => some '\n'
  | 'r' => some '\r'
  | 't' => some '\t'
  | _ => none

/-- Puts characters before those of a string that was read. -/
def before (head : List Char) (r : Except ReadError (List Char × List Char)) :
    Except ReadError (List Char × List Char) :=
  r.map fun (chars, rest) => (head ++ chars, rest)

/-- Reads a string after its opening quote; `high` is the first half of a
surrogate pair when one was just read. -/
def readString (high : Option Nat) : List Char → Except ReadError (List Char × List Char)
  | [] => .error .malformed
  | '"' :: rest => .ok (unpaired high, rest)
  | '\\' :: 'u' :: a :: b :: c :: d :: rest =>
    match unit? a b c d, high with
    | none, _ => .error .malformed
    | some n, some h =>
      if 0xDC00 ≤ n && n ≤ 0xDFFF then before [paired h n] (readString none rest)
      else if 0xD800 ≤ n && n ≤ 0xDBFF then before [Text.ofHalf h] (readString (some n) rest)
      else before [Text.ofHalf h, Char.ofNat n] (readString none rest)
    | some n, none =>
      if 0xD800 ≤ n && n ≤ 0xDBFF then readString (some n) rest
      else if 0xDC00 ≤ n && n ≤ 0xDFFF then before [Text.ofHalf n] (readString none rest)
      else before [Char.ofNat n] (readString none rest)
  | '\\' :: e :: rest =>
    match escaped? e with
    | some c => before (unpaired high ++ [c]) (readString none rest)
    | none => .error .malformed
  | c :: rest =>
    if c == '\\' || c.toNat < 32 then .error .malformed
    else before (unpaired high ++ [c]) (readString none rest)

/-- The value of a list of ASCII digits. -/
def natOf (digits : List Char) : Nat := digits.foldl (fun n c => 10 * n + (c.toNat - 48)) 0

/-- The double `± digits · 10 ^ exponent`, whose size is settled by the exponent
alone when that is far out of range. -/
def floatOf (negative : Bool) (digits : List Char) (exponent : Int) : Float :=
  let mantissa := natOf digits
  let reach := exponent + digits.length
  let size :=
    if mantissa == 0 || reach < -400 then 0.0
    else if 400 < reach - (digits.takeWhile (· == '0')).length then 1.0 / 0.0
    else if exponent < 0 then Float.ofScientific mantissa true exponent.natAbs
    else Float.ofScientific mantissa false exponent.natAbs
  if negative then -size else size

/-- The digits of a number after its sign: a single zero, or no zero at the front. -/
def wholePart : List Char → Option (List Char × List Char)
  | '0' :: rest => some (['0'], rest)
  | s =>
    let digits := s.takeWhile isDigit
    if digits.isEmpty then none else some (digits, s.dropWhile isDigit)

/-- The digits after a point, none when no digit follows the point. -/
def fractionPart : List Char → List Char × List Char
  | '.' :: rest =>
    let digits := rest.takeWhile isDigit
    if digits.isEmpty then ([], '.' :: rest) else (digits, rest.dropWhile isDigit)
  | s => ([], s)

/-- The exponent, when a letter, a sign or none, and a digit stand there. -/
def exponentPart (s : List Char) : Option Int × List Char :=
  match s with
  | [] => (none, s)
  | e :: tail =>
    if e == 'e' || e == 'E' then
      let (negative, rest) := match tail with
        | '-' :: rest => (true, rest)
        | '+' :: rest => (false, rest)
        | rest => (false, rest)
      let digits := rest.takeWhile isDigit
      if digits.isEmpty then (none, s)
      else
        let n : Int := natOf digits
        (some (if negative then -n else n), rest.dropWhile isDigit)
    else (none, s)

/-- Reads a number after its sign. -/
def readNumber (negative : Bool) (s : List Char) : Except ReadError (Json × List Char) :=
  match wholePart s with
  | none => .error .malformed
  | some (whole, afterWhole) =>
    let (fraction, afterFraction) := fractionPart afterWhole
    let (exponent, rest) := exponentPart afterFraction
    if fraction.isEmpty && exponent.isNone then
      if Text.maxDigits < whole.length then .error .tooManyDigits
      else
        let n : Int := natOf whole
        .ok (.int (if negative then -n else n), rest)
    else
      .ok (.float (floatOf negative (whole ++ fraction) (exponent.getD 0 - fraction.length)), rest)

/-- What is left after a word. -/
def after? (word s : List Char) : Option (List Char) :=
  if word.isPrefixOf s then some (s.drop word.length) else none

/-- Reads a word that stands for a value, or else a number. -/
def readScalar (s : List Char) : Except ReadError (Json × List Char) :=
  let literals : List (String × Json) :=
    [("null", .null), ("true", .bool true), ("false", .bool false), ("NaN", .float (0.0 / 0.0)),
      ("Infinity", .float (1.0 / 0.0)), ("-Infinity", .float (-1.0 / 0.0))]
  match literals.findSome? fun (word, v) => (after? word.toList s).map fun rest => (v, rest) with
  | some read => .ok read
  | none =>
    match s with
    | '-' :: rest => readNumber true rest
    | _ => readNumber false s

/-- How many lists and objects may stand inside each other. -/
def mostNested : Nat := 988

mutual

/-- Reads the value at the head of a list of characters, which may nest to the depth
`room`.  Every step down takes at least one character, so `fuel` above the number of
characters suffices. -/
def readValue : Nat → Nat → List Char → Except ReadError (Json × List Char)
  | 0, _, _ => .error .malformed
  | fuel + 1, room, s =>
    match s with
    | '"' :: rest => (readString none rest).map fun (chars, rest) => (.str (String.ofList chars), rest)
    | '[' :: rest =>
      if room == 0 then .error .tooDeep
      else match skip rest with
        | ']' :: rest => .ok (.list [], rest)
        | rest => (readItems fuel (room - 1) rest).map fun (items, rest) => (.list items, rest)
    | '{' :: rest =>
      if room == 0 then .error .tooDeep
      else match skip rest with
        | '}' :: rest => .ok (.object [], rest)
        | rest =>
          (readMembers fuel (room - 1) rest).map fun (members, rest) =>
            (.object (ofEntries members), rest)
    | _ => readScalar s

/-- Reads the items of a list up to its closing bracket. -/
def readItems : Nat → Nat → List Char → Except ReadError (List Json × List Char)
  | 0, _, _ => .error .malformed
  | fuel + 1, room, s =>
    match readValue fuel room s with
    | .error e => .error e
    | .ok (item, rest) =>
      match skip rest with
      | ']' :: rest => .ok ([item], rest)
      | ',' :: rest =>
        (readItems fuel room (skip rest)).map fun (items, rest) => (item :: items, rest)
      | _ => .error .malformed

/-- Reads the members of an object up to its closing brace. -/
def readMembers : Nat → Nat → List Char → Except ReadError (List (String × Json) × List Char)
  | 0, _, _ => .error .malformed
  | fuel + 1, room, s =>
    match s with
    | '"' :: rest =>
      match readString none rest with
      | .error e => .error e
      | .ok (name, rest) =>
        match skip rest with
        | ':' :: rest =>
          match readValue fuel room (skip rest) with
          | .error e => .error e
          | .ok (value, rest) =>
            let member := (String.ofList name, value)
            match skip rest with
            | '}' :: rest => .ok ([member], rest)
            | ',' :: rest =>
              (readMembers fuel room (skip rest)).map fun (members, rest) =>
                (member :: members, rest)
            | _ => .error .malformed
        | _ => .error .malformed
    | _ => .error .malformed

end

/-- Reads a text that holds one value and white space around it. -/
def read (s : String) : Except ReadError Json :=
  match readValue (2 * s.length + 2) mostNested (skip s.toList) with
  | .error e => .error e
  | .ok (v, rest) => if (skip rest).isEmpty then .ok v else .error .malformed

end BuildDesk.Json
