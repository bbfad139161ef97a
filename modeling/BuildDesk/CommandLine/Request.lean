/-
What a command line asks for.

Options that concern all commands stand before the name of the command, its own behind
it.  Help and version are given before anything else is looked at, as long as the
options before the command can be read at all.

Main definitions:
* `Command` — the commands with their options;
* `Request` — what is asked for;
* `interpret` — the request of a command line.
-/
import BuildDesk.Command.List
import BuildDesk.Command.Operate
import BuildDesk.CommandLine.Options

namespace BuildDesk.CommandLine

/-- The commands, with what is said about them. -/
inductive Command
  | list (search : Option String) (anew : Bool)
  | build (options : BuildDesk.Command.BuildOptions)
  | status (wish : BuildDesk.Command.Wish)
  | wait (wish : BuildDesk.Command.BuildWish) (interval limit : Option String)
  | logs (wish : BuildDesk.Command.BuildWish)
  | cancel (wish : BuildDesk.Command.Wish)
  | rerun (wish : BuildDesk.Command.Wish)

/-- The names of the commands. -/
inductive CommandName
  | list | build | status | wait | logs | cancel | rerun
  deriving DecidableEq, Repr

namespace CommandName

/-- The word for a command. -/
def word : CommandName → String
  | list => "list"
  | build => "build"
  | status => "status"
  | wait => "wait"
  | logs => "logs"
  | cancel => "cancel"
  | rerun => "rerun"

/-- All commands. -/
def all : List CommandName := [list, build, status, wait, logs, cancel, rerun]

/-- The command of a word. -/
def ofWord? (word : String) : Option CommandName := all.find? (·.word == word)

/-- What a command is for. -/
def help : CommandName → Notice
  | list => .listHelp
  | build => .buildHelp
  | status => .statusHelp
  | wait => .waitHelp
  | logs => .logsHelp
  | cancel => .cancelHelp
  | rerun => .rerunHelp

end CommandName

/-- What a command line asks for. -/
inductive Request
  | help (about : Option CommandName)
  | version
  | run (lang : Option Lang) (nonInteractive : Bool) (command : Command)

/-! ### Options of the commands -/

/-- The option that asks for help. -/
def helpSwitch : Switch := { long := "--help", short := some 'h' }

/-- The option that forbids questions. -/
def silentSwitch : Switch := { long := "--non-interactive" }

/-- Options that stand before the command. -/
def generalSwitches : List Switch := [
  { long := "--version" }, { long := "--lang", takesValue := true }, { long := "--debug" },
  silentSwitch, helpSwitch]

/-- Options that say which job is meant. -/
def jobSwitches : List Switch := [
  { long := "--job", short := some 'j', takesValue := true },
  { long := "--job-url", takesValue := true }]

/-- The options of a command apart from those that all commands have. -/
def ownSwitches : CommandName → List Switch
  | .list => [{ long := "--refresh" }]
  | .build => jobSwitches ++ [{ long := "--branch", short := some 'b', takesValue := true },
      { long := "--branch-param", takesValue := true }, { long := "--default-branch" }]
  | .wait => jobSwitches ++ [{ long := "--build-url", takesValue := true },
      { long := "--queue-url", takesValue := true }, { long := "--interval", takesValue := true },
      { long := "--timeout", takesValue := true }]
  | .logs => jobSwitches ++ [{ long := "--build-url", takesValue := true }]
  | .status | .cancel | .rerun => jobSwitches

/-- The options of a command. -/
def switchesOf (name : CommandName) : List Switch :=
  ownSwitches name ++ [silentSwitch, helpSwitch]

/-- The job that options mean. -/
def wishOf (p : Parsed) : BuildDesk.Command.Wish :=
  { search := p.value? "--job", url := p.value? "--job-url" }

/-- The build that options mean. -/
def buildWishOf (p : Parsed) : BuildDesk.Command.BuildWish :=
  { wish := wishOf p, build := p.value? "--build-url", queue := p.value? "--queue-url" }

/-- A command with its options. -/
def commandOf (name : CommandName) (p : Parsed) (nonInteractive : Bool) : Command :=
  match name with
  | .list => .list p.positional.head? (p.has "--refresh")
  | .build => .build {
      wish := wishOf p, branch := p.value? "--branch", branchParam := p.value? "--branch-param"
      defaultBranch := p.has "--default-branch", nonInteractive }
  | .status => .status (wishOf p)
  | .wait => .wait (buildWishOf p) (p.value? "--interval") (p.value? "--timeout")
  | .logs => .logs (buildWishOf p)
  | .cancel => .cancel (wishOf p)
  | .rerun => .rerun (wishOf p)

/-- The number of positional arguments that a command takes. -/
def positionals : CommandName → Nat
  | .list => 1
  | _ => 0

/-! ### Reading a command line -/

/-- Help or the version, when one is asked for; what is mentioned first counts. -/
def early (p : Parsed) (about : Option CommandName) : Option Request :=
  p.given.findSome? fun (name, _) =>
    if name == "--help" then some (.help about)
    else if name == "--version" then some .version
    else none

/-- The language that options ask for. -/
def langOf (p : Parsed) : Except UsageError (Option Lang) :=
  match p.value? "--lang" with
  | none => .ok none
  | some code =>
    match Lang.ofCode? code with
    | some lang => .ok (some lang)
    | none => .error .unknownLanguage

/-- The request of the arguments behind the name of a command. -/
def interpretCommand (name : CommandName) (lang : Option Lang) (nonInteractive : Bool)
    (arguments : List String) : Except UsageError Request := do
  let p ← parse (switchesOf name) true arguments
  match early p (some name) with
  | some request => pure request
  | none =>
    if p.positional.length > positionals name then throw .extraArgument
    let silent := nonInteractive || p.has "--non-interactive"
    pure (.run lang silent (commandOf name p silent))

/-- An unknown command; one that looks like an option is read as one, so that help and
version are given. -/
def interpretUnknown (arguments : List String) : Except UsageError Request := do
  let p ← parse generalSwitches false arguments
  match early p none with
  | some request => pure request
  | none => throw .unknownCommand

/-- The request of a command line. -/
def interpret (arguments : List String) : Except UsageError Request := do
  let p ← parse generalSwitches false arguments
  match early p none with
  | some request => pure request
  | none =>
    let lang ← langOf p
    match p.positional with
    | [] => throw .noCommand
    | word :: rest =>
      match CommandName.ofWord? word with
      | some name => interpretCommand name lang (p.has "--non-interactive") rest
      | none => interpretUnknown (word :: rest)

end BuildDesk.CommandLine
