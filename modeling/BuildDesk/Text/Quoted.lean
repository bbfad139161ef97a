/-
Quoted texts, as they stand inside the text of a list or a record.

A text is put between single quotes, or between double quotes when it holds a
single quote and no double quote.  Backslash, the quote in use, and whatever is
not printable are escaped.

Main definitions:
* `isPrintable` — characters that stand for themselves;
* `quoted` — the quoted form.
-/
import BuildDesk.Text.Case
import BuildDesk.Text.PrintableTable
import BuildDesk.Text.Surrogate

namespace BuildDesk.Text

/-- Characters that a quoted text shows as they are. -/
def isPrintable (c : Char) : Bool :=
  if c.toNat < 128 then 32 ≤ c.toNat && c.toNat < 127
  else !inRanges unprintableRanges c.toNat

/-- The lower-case hexadecimal digits of a number, at least `width` of them. -/
def hex (width n : Nat) : List Char :=
  let digits := Nat.toDigits 16 n
  List.replicate (width - digits.length) '0' ++ digits

/-- One character of a quoted text. -/
def quotedChar (quote c : Char) : List Char :=
  if c == quote || c == '\\' then ['\\', c]
  else if c == '\t' then ['\\', 't']
  else if c == '\n' then ['\\', 'n']
  else if c == '\r' then ['\\', 'r']
  else if isPrintable c then [c]
  else if c.toNat < 0x100 then '\\' :: 'x' :: hex 2 c.toNat
  else if c.toNat < 0x10000 then '\\' :: 'u' :: hex 4 c.toNat
  else if let some half := half? c then '\\' :: 'u' :: hex 4 half
  else '\\' :: 'U' :: hex 8 c.toNat

/-- The quote that a text is put between. -/
def quoteOf (s : List Char) : Char :=
  if s.contains '\'' && !s.contains '"' then '"' else '\''

/-- A text between quotes. -/
def quoted (s : String) : String :=
  let quote := quoteOf s.toList
  String.ofList (quote :: s.toList.flatMap (quotedChar quote) ++ [quote])

end BuildDesk.Text
