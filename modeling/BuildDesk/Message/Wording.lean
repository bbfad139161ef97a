/-
Languages and wordings.

A wording is plain text with named slots; its template writes a slot as the name
between braces.  Plain text never holds a brace, so the template determines the
wording.

Main definitions:
* `Lang` — the languages of the program;
* `Fragment`, `Wording` — text and slots;
* `Wording.template` — the text that is filled in;
* `Wording.fill` — all slots filled at once, straight from the fragments.
-/

namespace BuildDesk

/-- The languages that the program speaks. -/
inductive Lang
  | en
  | ko
  deriving DecidableEq, Repr

namespace Lang

/-- The code of a language. -/
def code : Lang → String
  | en => "en"
  | ko => "ko"

/-- The language with a given code. -/
def ofCode? (code : String) : Option Lang :=
  if code == "en" then some en else if code == "ko" then some ko else none

end Lang

/-- A part of a wording. -/
inductive Fragment
  | plain (text : String)
  | named (slot : String)
  deriving DecidableEq, Repr

instance : Coe String Fragment := ⟨Fragment.plain⟩

/-- Text with named slots. -/
abbrev Wording := List Fragment

namespace Wording

/-- A slot in a wording. -/
def slot (name : String) : Fragment := .named name

/-- A fragment as a template writes it. -/
def fragmentTemplate : Fragment → String
  | .plain text => text
  | .named name => "\x7b" ++ name ++ "\x7d"

/-- The template of a wording. -/
def template (w : Wording) : String := String.join (w.map fragmentTemplate)

/-- The wording with every slot replaced by its value, verbatim and at once. -/
def fill (value : String → String) (w : Wording) : String :=
  String.join (w.map fun
    | .plain text => text
    | .named name => value name)

/-- The names of the slots. -/
def slots (w : Wording) : List String :=
  w.filterMap fun
    | .plain _ => none
    | .named name => some name

/-- A message: its key within the group and its wordings. -/
structure Entry where
  key : String
  english : Wording
  korean : Wording

/-- The wording of a message in a language. -/
def Entry.wording (e : Entry) : Lang → Wording
  | .en => e.english
  | .ko => e.korean

end Wording
end BuildDesk
