/-
Columns that a text takes on a terminal, and tab stops.

Wide characters take two columns, combining and control characters none, all others
one.  In a text with joiners or emoji selectors a joiner hides the character behind it,
and a selector widens the character in front of it where that one has a wide form.  Tab
stops stand at every eighth column.

Main definitions:
* `columns` — the columns of a list of characters;
* `expandTabs` — every tab becomes spaces up to the next tab stop.
-/
import BuildDesk.Text.Case
import BuildDesk.Text.WidthTable
import BuildDesk.Text.Words

namespace BuildDesk.Text

/-- The columns of one character. -/
def charColumns (c : Char) : Nat :=
  let n := c.toNat
  if n < 32 then 0
  else if n < 127 then 1
  else if n < 160 then 0
  else if inRanges zeroWidthRanges n then 0
  else if inRanges wideRanges n then 2
  else 1

/-- The character that joins its neighbours to one sign. -/
def joiner : Char := '\u200d'

/-- The character that asks for the emoji form of the one in front of it. -/
def selector : Char := '\ufe0f'

/-- The columns of a list of characters; `last` is the last one before it that took any,
unless a selector has followed it. -/
def columnsFrom (last : Option Char) : List Char → Nat
  | [] => 0
  | [c] => if c == joiner then 0 else columnsOf c
  | c :: d :: rest =>
    if c == joiner then columnsFrom last rest
    else columnsOf c + columnsFrom (nextLast c) (d :: rest)
where
  /-- The columns that a character adds. -/
  columnsOf (c : Char) : Nat :=
    if c == selector then
      if last.any fun c => inRanges widenedRanges c.toNat then 1 else 0
    else charColumns c
  /-- The last character that took a column, after one more. -/
  nextLast (c : Char) : Option Char :=
    if c == selector then none else if charColumns c == 0 then last else some c

/-- The columns of a list of characters. -/
def columns (s : List Char) : Nat := columnsFrom none s

/-- The distance between tab stops. -/
def tabStop : Nat := 8

/-- Replaces tabs on a line that is cut at its tabs; `column` is the column reached.  A tab
takes a space and as many more as lead to a tab stop. -/
def joinAtStops (column : Nat) : List (List Char) → List Char
  | [] => []
  | [piece] => piece
  | piece :: pieces =>
    let spaced := piece ++ [' ']
    let reached := column + columns spaced
    let gap := (tabStop - reached % tabStop) % tabStop
    spaced ++ List.replicate gap ' ' ++ joinAtStops (reached + gap) pieces

/-- A text with spaces in place of its tabs. -/
def expandTabs (s : String) : String :=
  let lines := (cut '\n' s.toList).map fun line => joinAtStops 0 (cut '\t' line)
  String.ofList (['\n'].intercalate lines)

end BuildDesk.Text
