/-
Styles of text, as tags name them.

A style is written as words: attributes, which `not` turns off, the color of the text,
`on` and the color behind it, `link` and an address.  What is said twice counts as said
last.  Two writings with the same effect have the same normal form; a text that is no
style stands for itself, in lower case.

Main definitions:
* `Style`, `Style.read` — styles, and reading one from words;
* `Style.name` — the writing of a style in which every part has its place;
* `normalName` — the normal form of a name in a tag.
-/
import BuildDesk.Console.ColorTable
import BuildDesk.Json.Basic
import BuildDesk.Text.Digit
import BuildDesk.Text.Words

namespace BuildDesk.Console

/-- Why words are no style. -/
inductive StyleError
  /-- A word says nothing about style. -/
  | unknown
  /-- A part of a color is no number. -/
  | badNumber
  deriving DecidableEq, Repr

/-- The three parts of a color, as red, green and blue from 0 to 255. -/
def isMixture (parts : List (List Char)) : Except StyleError Bool := do
  if parts.length != 3 then pure false
  else
    let values ← parts.mapM fun part =>
      (Text.int? (String.ofList part)).mapError fun _ => .badNumber
    pure (values.all (· ≤ 255))

/-- What stands between a word with an opening bracket and the bracket that closes it. -/
def between? (word : String) (s : List Char) : Option (List Char) :=
  let rest := s.drop word.length
  if word.toList.isPrefixOf s && rest.getLast? == some ')' then some rest.dropLast else none

/-- A text in lower case is a color. -/
def isColor (name : String) : Except StyleError Bool :=
  let s := name.toList
  if name == "default" || colorNames.contains name then pure true
  else if s.head? == some '#' then
    pure (s.length == 7 && s.tail.all fun c => c.isDigit || ('a' ≤ c && c ≤ 'f'))
  else match between? "color(" s, between? "rgb(" s with
    | some digits, _ =>
      pure (digits.all Char.isDigit && 1 ≤ digits.length && digits.length ≤ 3
        && Text.natOfDigits 0 digits ≤ 255)
    | none, some parts =>
      if parts.all (fun c => Text.isDigit c || c == ',') && !parts.isEmpty then
        isMixture (Text.cut ',' parts)
      else pure false
    | none, none => pure false

/-- The color that a word names. -/
def color (word : String) : Except StyleError String := do
  let name := Text.lower word
  if ← isColor name then pure name else throw .unknown

/-- The attributes of text, in the order in which a style names them. -/
def attributeNames : List String := [
  "bold", "dim", "italic", "underline", "blink", "blink2", "reverse", "conceal", "strike",
  "underline2", "frame", "encircle", "overline"]

/-- The short names of attributes. -/
def shortNames : List (String × String) := [
  ("b", "bold"), ("d", "dim"), ("i", "italic"), ("u", "underline"), ("r", "reverse"),
  ("c", "conceal"), ("s", "strike"), ("uu", "underline2"), ("o", "overline")]

/-- The attribute that a word names. -/
def attributeName? (word : String) : Option String :=
  if attributeNames.contains word then some word else shortNames.lookup word

/-- A style of text. -/
structure Style where
  /-- Attributes that are turned on or off. -/
  switches : List (String × Bool) := []
  color : Option String := none
  background : Option String := none
  link : Option String := none

namespace Style

/-- Adds what words say to a style. -/
def read (style : Style) : List String → Except StyleError Style
  | [] => .ok style
  | word :: rest =>
    let plain := Text.lower word
    if plain == "on" then
      match rest with
      | [] => .error .unknown
      | name :: rest => do
        let background ← Console.color name
        read { style with background := some background } rest
    else if plain == "not" then
      match rest with
      | [] => .error .unknown
      | name :: rest =>
        match attributeName? name with
        | some a => read { style with switches := Json.put style.switches a false } rest
        | none => .error .unknown
    else if plain == "link" then
      match rest with
      | [] => .error .unknown
      | address :: rest => read { style with link := some address } rest
    else match attributeName? plain with
      | some a => read { style with switches := Json.put style.switches a true } rest
      | none => do
        let color ← Console.color plain
        read { style with color := some color } rest

/-- The words of a style in their order. -/
def words (style : Style) : List String :=
  let switched := attributeNames.flatMap fun a =>
    match style.switches.lookup a with
    | some true => [a]
    | some false => ["not", a]
    | none => []
  let labelled (label : String) (value : Option String) := value.toList.flatMap fun v => [label, v]
  switched ++ style.color.toList ++ labelled "on" style.background ++ labelled "link" style.link

/-- The name of a style. -/
def name (style : Style) : String :=
  let words := style.words
  if words.isEmpty then "none" else " ".intercalate words

end Style

/-- The words of a text between blanks. -/
def blankWords (s : String) : List String := Text.tokens (Text.squash s)

/-- The normal form of a name in a tag; fails on a color whose part is no number. -/
def normalName (s : String) : Except StyleError String :=
  let plain := Text.trim s
  if plain == "none" then .ok plain
  else match ({} : Style).read (blankWords s) with
    | .ok style => .ok style.name
    | .error .unknown => .ok (Text.lower plain)
    | .error .badNumber => .error .badNumber

end BuildDesk.Console
