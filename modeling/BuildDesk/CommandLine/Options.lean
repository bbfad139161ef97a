/-
Options on a command line.

A long option begins with two dashes and may carry its value after an equals sign;
short options are single letters behind one dash, and the last of them may carry its
value at once.  A value that is not carried is the next argument, whatever that looks
like.  Two dashes alone end the options.

Main definitions:
* `Switch` — an option that a command knows;
* `readOption` — what one argument gives;
* `Parsed`, `parse` — options and positional arguments of a command line.
-/
import BuildDesk.Text.Words

namespace BuildDesk.CommandLine

/-- An option that a command knows. -/
structure Switch where
  long : String
  short : Option Char := none
  takesValue : Bool := false

/-- What is wrong with a command line. -/
inductive UsageError
  | unknownOption
  | missingValue
  | unexpectedValue
  | extraArgument
  | unknownLanguage
  | noCommand
  | unknownCommand
  deriving DecidableEq, Repr

/-- What is wrong in words. -/
def UsageError.message : UsageError → String
  | unknownOption => "No such option."
  | missingValue => "Option requires a value."
  | unexpectedValue => "Option does not take a value."
  | extraArgument => "Got an unexpected extra argument."
  | unknownLanguage => "Unknown language; use en or ko."
  | noCommand => "Missing command."
  | unknownCommand => "No such command."

/-- Options in order of mention, under their long names, with their values. -/
abbrev Given := List (String × String)

/-- What one argument gives: options that are complete, and perhaps one whose value is
the next argument. -/
structure Reading where
  given : Given
  pending : Option String := none
  deriving DecidableEq, Repr

/-- The option with a short name. -/
def short? (switches : List Switch) (c : Char) : Option Switch :=
  switches.find? fun s => s.short == some c

/-- Reads the letters behind one dash. -/
def readLetters (switches : List Switch) : List Char → Except UsageError Reading
  | [] => .ok ⟨[], none⟩
  | c :: rest =>
    match short? switches c with
    | none => .error .unknownOption
    | some s =>
      if s.takesValue then
        if rest.isEmpty then .ok ⟨[], some s.long⟩
        else .ok ⟨[(s.long, String.ofList rest)], none⟩
      else (readLetters switches rest).map fun r => { r with given := (s.long, "") :: r.given }

/-- A name and the value behind the first equals sign. -/
def splitValue (chars : List Char) : List Char × Option (List Char) :=
  match chars.dropWhile (· != '=') with
  | [] => (chars, none)
  | _ :: value => (chars.takeWhile (· != '='), some value)

/-- Reads an argument that begins with a dash. -/
def readOption (switches : List Switch) (argument : String) : Except UsageError Reading :=
  let (name, value) := splitValue argument.toList
  match switches.find? fun s => s.long.toList == name with
  | some s =>
    match s.takesValue, value with
    | true, some value => .ok ⟨[(s.long, String.ofList value)], none⟩
    | true, none => .ok ⟨[], some s.long⟩
    | false, none => .ok ⟨[(s.long, "")], none⟩
    | false, some _ => .error .unexpectedValue
  | none =>
    match argument.toList with
    | '-' :: '-' :: _ => .error .unknownOption
    | _ :: letters => readLetters switches letters
    | [] => .error .unknownOption

/-- Options and positional arguments. -/
structure Parsed where
  given : Given := []
  positional : List String := []
  deriving DecidableEq, Repr

/-- The same with options in front. -/
def Parsed.after (p : Parsed) (given : Given) : Parsed := { p with given := given ++ p.given }

/-- An argument looks like an option. -/
def looksLikeOption (argument : String) : Bool :=
  Text.beginsWith "-" argument && argument != "-"

/-- Reads arguments.  Positional arguments end the options unless the two may be mixed. -/
def parse (switches : List Switch) (mixed : Bool) : List String → Except UsageError Parsed
  | [] => .ok {}
  | argument :: rest =>
    if argument == "--" then .ok { positional := rest }
    else if looksLikeOption argument then
      match readOption switches argument, rest with
      | .error e, _ => .error e
      | .ok ⟨given, none⟩, rest => (parse switches mixed rest).map (·.after given)
      | .ok ⟨_, some _⟩, [] => .error .missingValue
      | .ok ⟨given, some name⟩, value :: rest =>
        (parse switches mixed rest).map (·.after (given ++ [(name, value)]))
    else if mixed then
      (parse switches mixed rest).map fun p => { p with positional := argument :: p.positional }
    else .ok { positional := argument :: rest }

namespace Parsed

/-- The value of an option, the last one given. -/
def value? (p : Parsed) (name : String) : Option String :=
  (p.given.reverse.find? fun (other, _) => other == name).map (·.2)

/-- An option is given. -/
def has (p : Parsed) (name : String) : Bool := (p.value? name).isSome

end Parsed
end BuildDesk.CommandLine
