/-
Characters of names: letters and numerals of all scripts, and the underscore.

Main definitions:
* `isNameChar` — the characters of names.
-/
import BuildDesk.Text.LetterTable
import BuildDesk.Text.Quoted

namespace BuildDesk.Text

/-- The characters of names. -/
def isNameChar (c : Char) : Bool :=
  if c.toNat < 128 then c.isAlphanum || c == '_'
  else inRanges letterRanges c.toNat && isPrintable c

end BuildDesk.Text
