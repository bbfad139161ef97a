/-
Running a command line.

Complaints are printed and give exit code 1, wrong usage gives 2, an interruption 130;
waiting for a build has exit codes of its own.

Main definitions:
* `Result` — exit code and what is printed apart from the console;
* `execute` — a command as a run;
* `run` — a command line as a run.
-/
import BuildDesk.CommandLine.Request

namespace BuildDesk.CommandLine

open Console

/-- What a command line comes to. -/
structure Result where
  exitCode : Nat
  /-- Version or help. -/
  text : String := ""
  /-- What is wrong with the command line. -/
  misuse : Option UsageError := none
  /-- What ended the run when nothing expected it. -/
  fault : Option Fault := none

/-- A command as a run; its exit code. -/
def Command.perform (server : Server) (interactive : Bool) : Command → Desk Nat
  | .list search anew => do BuildDesk.Command.list server interactive anew search; pure 0
  | .build options => do let _ ← BuildDesk.Command.build server interactive options; pure 0
  | .status wish => do
    BuildDesk.Command.status server interactive (!interactive) wish
    pure 0
  | .wait wish interval limit => do
    let waited ← BuildDesk.Command.waitFor server interactive wish interval limit
    pure ((waited.map (·.exitCode)).getD 0)
  | .logs wish => do BuildDesk.Command.log server interactive wish; pure 0
  | .cancel wish => do BuildDesk.Command.stop server interactive wish; pure 0
  | .rerun wish => do BuildDesk.Command.rerun server interactive wish; pure 0

/-- A command with the settings of the environment and the settings file; its exit
code. -/
def execute (env : Environment) (file : Entry) (nonInteractive : Bool)
    (command : Command) : Desk Nat := do
  let part : Desk Nat := do
    let settings ← Desk.ofExcept (Settings.gather env file)
    command.perform (Server.ofSettings settings .null) (!nonInteractive)
  tryCatch part fun
    | .complaint c => do printComplaint c; pure 1
    | .interrupted => do printMarkupError (← Desk.say Notice.aborted []); pure 130
    | f => throw f

/-- The version of the program in a line. -/
def versionText : String := "jenkins-cli, version " ++ Settings.version ++ "\n"

/-- A line of help about a command. -/
def helpLine (lang : Lang) (name : CommandName) : String :=
  "  " ++ name.word ++ "  " ++ Phrase.say lang name.help [] ++ "\n"

/-- Help about the program or about one command. -/
def helpText (lang : Lang) : Option CommandName → String
  | none =>
    Phrase.say lang Notice.appHelp [] ++ "\n\n"
      ++ String.join (CommandName.all.map (helpLine lang))
  | some name => helpLine lang name

/-- A command line as a run. -/
def run (env : Environment) (file : Entry) (arguments : List String) :
    StateM Session Result := do
  match interpret arguments with
  | .error misuse => pure { exitCode := 2, misuse := some misuse }
  | .ok .version => pure { exitCode := 0, text := versionText }
  | .ok (.help about) => return { exitCode := 0, text := helpText (← get).lang about }
  | .ok (.run lang nonInteractive command) =>
    modify fun s => { s with lang := lang.getD s.lang }
    match ← (execute env file nonInteractive command).run with
    | .ok code => pure { exitCode := code }
    | .error fault => pure { exitCode := 1, fault := some fault }

end BuildDesk.CommandLine
