/-
Marked-up console text.

A tag is an opening bracket, a lower-case letter or one of `#`, `/`, `@`, then
anything but an opening bracket, up to the closing bracket.  Backslashes in front
of a tag stand for half their number; an odd one makes the tag plain text.  A
closing tag has to close an open one, which it names by its style, or else closes the
latest one.  A tag that begins with `@` names a handler and the values that it is called
with.  Other brackets are plain text.

Main definitions:
* `Token`, `tokens` — a text cut at its tags;
* `Opened`, `applyTag` — open tags, and what a tag makes of them;
* `render` — what the text shows as;
* `escape` — a text written so that its tags are plain.
-/
import BuildDesk.Console.Literal
import BuildDesk.Console.Style

namespace BuildDesk.Console

/-- A part of a marked-up text. -/
inductive Token
  | char (c : Char)
  | tag (slashes : Nat) (body : List Char)
  deriving DecidableEq, Repr

/-- The characters that begin a tag. -/
def beginsTag (c : Char) : Bool := ('a' ≤ c && c ≤ 'z') || c == '#' || c == '/' || c == '@'

/-- The body of the tag whose opening bracket stands before a list of characters. -/
def tagBody? (s : List Char) : Option (List Char) :=
  let body := s.takeWhile fun c => c != ']' && c != '['
  match body, s.drop body.length with
  | c :: _, ']' :: _ => if beginsTag c then some body else none
  | _, _ => none

/-- Backslashes as tokens. -/
def slashTokens (n : Nat) : List Token := List.replicate n (.char '\\')

/-- Cuts a text at its tags.  The next `skip` characters belong to a tag that was
cut already, and `slashes` backslashes stand before the present character. -/
def tokensFrom (skip slashes : Nat) : List Char → List Token
  | [] => slashTokens slashes
  | c :: rest =>
    if 0 < skip then tokensFrom (skip - 1) 0 rest
    else if c == '\\' then tokensFrom 0 (slashes + 1) rest
    else if c == '[' then
      match tagBody? rest with
      | some body => .tag slashes body :: tokensFrom (body.length + 1) 0 rest
      | none => slashTokens slashes ++ .char c :: tokensFrom 0 0 rest
    else slashTokens slashes ++ .char c :: tokensFrom 0 0 rest

/-- A text cut at its tags. -/
def tokens (s : List Char) : List Token := tokensFrom 0 0 s

/-- Takes one backslash out from before every opening bracket. -/
def dropEscapes : List Char → List Char
  | [] => []
  | [c] => [c]
  | c :: d :: rest => if c == '\\' && d == '[' then d :: dropEscapes rest else c :: dropEscapes (d :: rest)

/-- Why a marked-up text cannot be shown. -/
inductive Misfit
  /-- A closing tag closes nothing, or a handler has no values to be called with. -/
  | badTag
  /-- A part of a color is no number. -/
  | badNumber
  deriving DecidableEq, Repr

/-- A tag that is open: the normal form of its name, and what follows an equals sign. -/
structure Opened where
  name : String
  parameters : List Char

/-- The name in a tag. -/
def tagName (body : List Char) : List Char := body.takeWhile (· != '=')

/-- The normal form of the name in a tag. -/
def tagStyle (name : List Char) : Except Misfit String :=
  (normalName (String.ofList name)).mapError fun _ => .badNumber

/-- The values that a handler is called with, as a tag writes them: behind a name they
stand between brackets, and with nothing but a name there are none. -/
def handlerValues (parameters : List Char) : List Char :=
  let rest := parameters.dropWhile fun c => Text.isNameChar c || c == '.'
  if rest.isEmpty then ['(', ')']
  else if rest.head? == some '(' && rest.getLast? == some ')' && !rest.contains '\n' then rest
  else parameters

/-- A tag can be closed: a handler with parameters has values to be called with. -/
def Opened.canClose (tag : Opened) : Bool :=
  !Text.beginsWith "@" tag.name || tag.parameters.isEmpty
    || Literal.isLiteral (handlerValues (Text.trimChars tag.parameters))

/-- Closes the first of the open tags that is meant. -/
def close (isMeant : Opened → Bool) (opened : List Opened) : Except Misfit (List Opened) :=
  match opened.find? isMeant with
  | none => .error .badTag
  | some tag => if tag.canClose then .ok (opened.eraseP isMeant) else .error .badTag

/-- The open tags after a tag. -/
def applyTag (opened : List Opened) (body : List Char) : Except Misfit (List Opened) := do
  match tagName body with
  | '/' :: name =>
    let closed := Text.trimChars name
    if closed.isEmpty then close (fun _ => true) opened
    else
      let style ← tagStyle closed
      close (·.name == style) opened
  | name => pure (⟨← tagStyle name, body.drop (name.length + 1)⟩ :: opened)

/-- Shows tokens; `opened` are the open tags, the latest first, and `plain` is the
text since the last tag, in reverse. -/
def showTokens (opened : List Opened) (plain : List Char) :
    List Token → Except Misfit (List Char)
  | [] => .ok (dropEscapes plain.reverse)
  | .char c :: rest => showTokens opened (c :: plain) rest
  | .tag slashes body :: rest => do
    let before := dropEscapes plain.reverse
    let opened' ← if slashes % 2 == 1 then pure opened else applyTag opened body
    let shown := if slashes % 2 == 1 then '[' :: body ++ [']'] else []
    let after ← showTokens opened' [] rest
    pure (before ++ List.replicate (slashes / 2) '\\' ++ shown ++ after)

/-- Control characters that the console never shows. -/
def isHidden (c : Char) : Bool :=
  let n := c.toNat
  n == 7 || n == 8 || n == 11 || n == 12 || n == 13

/-- A text without the control characters that are never shown. -/
def visible (s : String) : String := String.ofList (s.toList.filter fun c => !isHidden c)

/-- What a marked-up text shows as. -/
def render (s : String) : Except Misfit String :=
  (showTokens [] [] (tokens s.toList)).map fun shown => visible (String.ofList shown)

/-- A token written so that it is plain. -/
def escapedToken : Token → List Char
  | .char c => [c]
  | .tag slashes body => List.replicate (2 * slashes + 1) '\\' ++ '[' :: body ++ [']']

/-- A text written so that its tags are plain; a single backslash at its end is
doubled. -/
def escape (s : String) : String :=
  let written := (tokens s.toList).flatMap escapedToken
  match written.reverse with
  | '\\' :: '\\' :: _ => String.ofList written
  | '\\' :: _ => String.ofList (written ++ ['\\'])
  | _ => String.ofList written

/-- What a marked-up text shows as; a text whose tags do not fit shows as it is. -/
def shown (s : String) : String :=
  match render s with
  | .ok text => text
  | .error _ => visible s

end BuildDesk.Console
