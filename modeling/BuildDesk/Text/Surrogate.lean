/-
Halves of surrogate pairs that stand alone.

An escape in a JSON text can name half of a surrogate pair without the other half.  No
character is such a half, so a character of the private plane 15 stands in for it.  A
text with a stand-in is shown like any other, but it cannot be encoded.

Main definitions:
* `ofHalf`, `half?` — the stand-in of a half, and the half of a stand-in;
* `isEncodable` — texts without stand-ins.
-/

namespace BuildDesk.Text

/-- The distance from a half to its stand-in. -/
def halfShift : Nat := 0xEE000

/-- The character that stands in for half of a surrogate pair. -/
def ofHalf (n : Nat) : Char := Char.ofNat (n + halfShift)

/-- The half that a character stands in for. -/
def half? (c : Char) : Option Nat :=
  if 0xFB800 ≤ c.toNat && c.toNat < 0xFC000 then some (c.toNat - halfShift) else none

/-- No half of a surrogate pair stands alone in the text. -/
def isEncodable (s : String) : Bool := s.toList.all fun c => (half? c).isNone

end BuildDesk.Text
