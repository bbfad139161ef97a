/-
Values as people read them.

A string shows as it is.  Every other value shows as in a program: `None`,
`True`, `False`, numbers with the fewest digits that read back, lists between
brackets and objects between braces, with the strings inside them quoted.

Main definitions:
* `Json.inside` — a value inside a list or an object;
* `Json.text` — a value on its own.
-/
import BuildDesk.Json.Basic
import BuildDesk.Number.Shortest
import BuildDesk.Text.Quoted

namespace BuildDesk.Json

mutual

/-- A value as it shows inside another one. -/
def inside : Json → String
  | null => "None"
  | bool b => if b then "True" else "False"
  | int n => toString n
  | float x => Number.format x
  | str s => Text.quoted s
  | list items => "[" ++ insideItems items ++ "]"
  | object members => "\x7b" ++ insideMembers members ++ "\x7d"

/-- The items of a list, with commas between them. -/
def insideItems : List Json → String
  | [] => ""
  | [item] => inside item
  | item :: items => inside item ++ ", " ++ insideItems items

/-- The members of an object, with commas between them. -/
def insideMembers : List (String × Json) → String
  | [] => ""
  | [(name, value)] => Text.quoted name ++ ": " ++ inside value
  | (name, value) :: members =>
    Text.quoted name ++ ": " ++ inside value ++ ", " ++ insideMembers members

end

/-- A value on its own. -/
def text : Json → String
  | str s => s
  | v => inside v

/-- A list of texts as it shows inside a sentence. -/
def quotedList (names : List String) : String := inside (list (names.map str))

end BuildDesk.Json
