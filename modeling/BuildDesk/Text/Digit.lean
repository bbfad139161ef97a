/-
Decimal digits and whole numbers in texts.

Every decimal digit of Unicode counts, whatever its script.  A number may carry
a sign and single underscores between digits, and has at most 4300 digits: a
longer one is refused, not read.

Main definitions:
* `digitValue?` — the value of a digit;
* `natOfDigits?` — the value of a text of digits only;
* `int?` — the value of a signed number.
-/
import BuildDesk.Text.Blank

namespace BuildDesk.Text

/-- The zeros of the decimal digit blocks; each block counts up from its zero. -/
def digitZeros : List Nat := [
  0x30, 0x660, 0x6F0, 0x7C0, 0x966, 0x9E6, 0xA66, 0xAE6, 0xB66, 0xBE6, 0xC66, 0xCE6, 0xD66,
  0xDE6, 0xE50, 0xED0, 0xF20, 0x1040, 0x1090, 0x17E0, 0x1810, 0x1946, 0x19D0, 0x1A80, 0x1A90,
  0x1B50, 0x1BB0, 0x1C40, 0x1C50, 0xA620, 0xA8D0, 0xA900, 0xA9D0, 0xA9F0, 0xAA50, 0xABF0,
  0xFF10, 0x104A0, 0x10D30, 0x11066, 0x110F0, 0x11136, 0x111D0, 0x112F0, 0x11450, 0x114D0,
  0x11650, 0x116C0, 0x11730, 0x118E0, 0x11950, 0x11C50, 0x11D50, 0x11DA0, 0x16A60, 0x16AC0,
  0x16B50, 0x1D7CE, 0x1D7D8, 0x1D7E2, 0x1D7EC, 0x1D7F6, 0x1E140, 0x1E2F0, 0x1E950, 0x1FBF0]

/-- The value of a decimal digit. -/
def digitValue? (c : Char) : Option Nat :=
  (digitZeros.find? fun first => first ≤ c.toNat && c.toNat < first + 10).map (c.toNat - ·)

/-- Decimal digits of any script. -/
def isDigit (c : Char) : Bool := (digitValue? c).isSome

/-- Numbers with more digits than this are not read. -/
def maxDigits : Nat := 4300

/-- The value of a list of digits, read from the left onto `acc`. -/
def natOfDigits (acc : Nat) : List Char → Nat
  | [] => acc
  | c :: rest => natOfDigits (10 * acc + (digitValue? c).getD 0) rest

/-- Why a text is not read as a number. -/
inductive NumberError
  | malformed
  | tooManyDigits
  deriving DecidableEq, Repr

/-- The value of a text that consists of digits. -/
def natOfDigits? (digits : List Char) : Except NumberError Nat :=
  if digits.isEmpty || !digits.all isDigit then .error .malformed
  else if maxDigits < digits.length then .error .tooManyDigits
  else .ok (natOfDigits 0 digits)

/-- Takes single underscores out from between digits; fails on any other. -/
def joinGroups? : List Char → Option (List Char)
  | [] => some []
  | [c] => if c == '_' then none else some [c]
  | c :: '_' :: d :: rest =>
    if isDigit c && isDigit d then (joinGroups? (d :: rest)).map (c :: ·) else none
  | c :: rest => if c == '_' then none else (joinGroups? rest).map (c :: ·)

/-- The value of a signed number with outer blanks allowed. -/
def int? (s : String) : Except NumberError Int :=
  let unsigned (digits : List Char) : Except NumberError Nat :=
    match joinGroups? digits with
    | some joined => natOfDigits? joined
    | none => .error .malformed
  match trimChars s.toList with
  | '-' :: digits => (unsigned digits).map fun n => -(n : Int)
  | '+' :: digits => (unsigned digits).map fun n => (n : Int)
  | digits => (unsigned digits).map fun n => (n : Int)

end BuildDesk.Text
