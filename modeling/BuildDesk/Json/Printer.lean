/-
Writing JSON texts.

Two layouts are in use.  The document layout puts every item on a line of its
own, two spaces further in for every level, and keeps all characters above
U+001F as they are; it is the layout of files.  The inline layout stays on one
line and escapes everything outside ASCII; it is the layout of messages.

Main definitions:
* `escapedString`, `asciiString` — a string between quotes;
* `Json.document` — the document layout;
* `Json.inline` — the inline layout.
-/
import BuildDesk.Json.Basic
import BuildDesk.Number.Shortest
import BuildDesk.Text.Quoted

namespace BuildDesk.Json

/-- The short escapes. -/
def shortEscape? (c : Char) : Option Char :=
  match c with
  | '"' => some '"'
  | '\\' => some '\\'
  | '\n' => some 'n'
  | '\r' => some 'r'
  | '\t' => some 't'
  | _ => if c.toNat == 8 then some 'b' else if c.toNat == 12 then some 'f' else none

/-- A code unit as an escape. -/
def unitEscape (n : Nat) : List Char := '\\' :: 'u' :: Text.hex 4 n

/-- One character of a string in a document. -/
def escapedChar (c : Char) : List Char :=
  match shortEscape? c with
  | some e => ['\\', e]
  | none => if c.toNat < 32 then unitEscape c.toNat else [c]

/-- One character of a string in ASCII. -/
def asciiChar (c : Char) : List Char :=
  let n := c.toNat
  if n < 127 then escapedChar c
  else if n < 0x10000 then unitEscape n
  else if let some half := Text.half? c then unitEscape half
  else
    unitEscape (0xD800 + (n - 0x10000) / 0x400) ++ unitEscape (0xDC00 + (n - 0x10000) % 0x400)

/-- A string of a document. -/
def escapedString (s : String) : List Char := '"' :: s.toList.flatMap escapedChar ++ ['"']

/-- A string in ASCII. -/
def asciiString (s : String) : List Char := '"' :: s.toList.flatMap asciiChar ++ ['"']

/-- A number that is no whole number. -/
def floatText (x : Float) : String :=
  if x.isNaN then "NaN"
  else if x.isInf then (if x < 0 then "-Infinity" else "Infinity")
  else Number.format x

/-- A value that is neither a string nor made of others. -/
def scalarChars : Json → List Char
  | null => "null".toList
  | bool b => (if b then "true" else "false").toList
  | int n => (toString n).toList
  | float x => (floatText x).toList
  | _ => []

/-- A new line, indented. -/
def newLine (depth : Nat) : List Char := '\n' :: List.replicate (2 * depth) ' '

mutual

/-- A value in the document layout, at a depth of indentation. -/
def documentChars (depth : Nat) : Json → List Char
  | str s => escapedString s
  | list [] => ['[', ']']
  | list (item :: items) =>
    '[' :: newLine (depth + 1) ++ documentChars (depth + 1) item
      ++ documentItems (depth + 1) items ++ newLine depth ++ [']']
  | object [] => ['\x7b', '\x7d']
  | object ((name, value) :: members) =>
    '\x7b' :: newLine (depth + 1) ++ escapedString name ++ [':', ' ']
      ++ documentChars (depth + 1) value
      ++ documentMembers (depth + 1) members ++ newLine depth ++ ['\x7d']
  | v => scalarChars v

/-- The items of a list after the first. -/
def documentItems (depth : Nat) : List Json → List Char
  | [] => []
  | item :: items =>
    ',' :: newLine depth ++ documentChars depth item ++ documentItems depth items

/-- The members of an object after the first. -/
def documentMembers (depth : Nat) : List (String × Json) → List Char
  | [] => []
  | (name, value) :: members =>
    ',' :: newLine depth ++ escapedString name ++ [':', ' '] ++ documentChars depth value
      ++ documentMembers depth members

end

/-- A value as a document. -/
def document (v : Json) : String := String.ofList (documentChars 0 v)

mutual

/-- A value on one line. -/
def inlineChars : Json → List Char
  | str s => asciiString s
  | list [] => ['[', ']']
  | list (item :: items) => '[' :: inlineChars item ++ inlineItems items ++ [']']
  | object [] => ['\x7b', '\x7d']
  | object ((name, value) :: members) =>
    '\x7b' :: asciiString name ++ [':', ' '] ++ inlineChars value
      ++ inlineMembers members ++ ['\x7d']
  | v => scalarChars v

/-- The items of a list after the first. -/
def inlineItems : List Json → List Char
  | [] => []
  | item :: items => ',' :: ' ' :: inlineChars item ++ inlineItems items

/-- The members of an object after the first. -/
def inlineMembers : List (String × Json) → List Char
  | [] => []
  | (name, value) :: members =>
    ',' :: ' ' :: asciiString name ++ [':', ' '] ++ inlineChars value ++ inlineMembers members

end

/-- A value on one line, in ASCII. -/
def inline (v : Json) : String := String.ofList (inlineChars v)

end BuildDesk.Json
