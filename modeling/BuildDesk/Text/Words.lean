/-
Words of a search text.

A word is a run of the characters a to z and 0 to 9 in the lower-case text.
`searchForm` writes the words with single spaces between them; `words` lists
them directly.  The two describe the same thing, and everything that compares
names for a search works on the search form.

Main definitions:
* `isWordChar`, `words` — the maximal runs of word characters;
* `searchForm` — lower case, all else squeezed into single spaces, trimmed;
* `tokens` — a text cut at its spaces, empty pieces left out.
-/
import BuildDesk.Text.Blank
import BuildDesk.Text.Case

namespace BuildDesk.Text

/-- The characters of words. -/
def isWordChar (c : Char) : Bool := ('a' ≤ c && c ≤ 'z') || ('0' ≤ c && c ≤ '9')

/-- Writes one space for every run of other characters; `inGap` says that the
space for the present run is written. -/
def spaceOut (inGap : Bool) : List Char → List Char
  | [] => []
  | c :: rest =>
    if isWordChar c then c :: spaceOut false rest
    else if inGap then spaceOut true rest
    else ' ' :: spaceOut true rest

/-- A text as it is compared in searches. -/
def searchForm (s : String) : String :=
  String.ofList (trimChars (spaceOut false (lower s).toList))

/-- The pieces between the occurrences of a character, empty ones included. -/
def cut (sep : Char) : List Char → List (List Char)
  | [] => [[]]
  | c :: rest =>
    if c == sep then [] :: cut sep rest
    else match cut sep rest with
      | piece :: pieces => (c :: piece) :: pieces
      | [] => [[c]]

/-- The pieces of a text between single spaces, empty ones included. -/
def pieces (s : String) : List String := (cut ' ' s.toList).map String.ofList

/-- The pieces of a text between spaces, empty ones left out. -/
def tokens (s : String) : List String := (pieces s).filter (· != "")

/-- The maximal runs of word characters in a list of characters. -/
def runs : List Char → List (List Char)
  | [] => []
  | c :: rest =>
    if isWordChar c then
      match rest, runs rest with
      | d :: _, run :: more => if isWordChar d then (c :: run) :: more else [c] :: run :: more
      | _, more => [c] :: more
    else runs rest

/-- The words of a text. -/
def words (s : String) : List String := (runs (lower s).toList).map String.ofList

/-- A text begins with another. -/
def beginsWith (start s : String) : Bool := start.toList.isPrefixOf s.toList

/-- A text occurs somewhere in a list of characters. -/
def occursInChars (needle : List Char) : List Char → Bool
  | [] => needle.isEmpty
  | c :: rest => needle.isPrefixOf (c :: rest) || occursInChars needle rest

/-- A text occurs somewhere in another. -/
def occursIn (needle s : String) : Bool := occursInChars needle.toList s.toList

/-- A text without a given beginning, or the whole text when it begins otherwise. -/
def dropStart (start s : String) : String :=
  if beginsWith start s then String.ofList (s.toList.drop start.toList.length) else s

end BuildDesk.Text
