/-
Prompts as the terminal shows them.

A terminal always shows an answer that is preset: a yes or no for a confirmation and
some text for a typed answer.  A placeholder is left out when it is empty.

Main definitions:
* `Shown`, `Shown.ofEvent?` — what the terminal shows for a prompt;
* `isCancelled` — the answer that cancels a prompt.
-/
import BuildDesk.Session

namespace BuildDesk.Console

/-- A prompt as the terminal shows it. -/
inductive Shown
  | select (message : Json) (choices : List (Json × Json))
  | confirm (message : Json) (preset : Bool)
  | text (message preset : Json) (placeholder : Option Json)

/-- What the terminal shows for a prompt; nothing for an event of another kind. -/
def Shown.ofEvent? : Event → Option Shown
  | .select message choices => some (select message choices)
  | .confirm message initial => some (confirm message initial.truthy)
  | .text message placeholder initial =>
    some (text message (initial.orElse (.str "")) placeholder.present?)
  | _ => none

/-- The answer cancels the prompt. -/
def isCancelled (answer : Json) : Bool := answer.isNull

end BuildDesk.Console
