/-
The program.

Settings come from the environment and from a settings file below the home directory.
The job file is read before the run and written behind it when the run has changed
it.  The answers of the user and the replies of the server are a script, which is read
as one line from standard input.

Main definitions:
* `Setup` — what the program starts from;
* `main` — reads, runs and writes.
-/
import BuildDesk.CommandLine.Run
import BuildDesk.Console.Transcript
import BuildDesk.Session.Script

namespace BuildDesk.Program

/-- The environment variables that the settings look at. -/
def settingNames : List String := [
  "JENKINS_URL", "JENKINS_USER", "JENKINS_API_TOKEN", "JENKINS_BRANCH_PARAM",
  "JENKINS_USE_CRUMB", "JENKINS_PROFILE"]

/-- Those of them that are set. -/
def currentEnvironment : IO Environment := do
  let values ← settingNames.mapM fun name => return (name, ← IO.getEnv name)
  return values.filterMap fun (name, value) => value.map fun text => (name, text)

/-- What stands under a path. -/
def entryAt (path : String) : IO Entry := do
  try
    let content ← IO.FS.readBinFile path
    return ((String.fromUTF8? content).map Entry.text).getD .binary
  catch
    | .noFileOrDirectory .. => return .absent
    | _ => return .directory

/-- The text of an entry, when it is one. -/
def textOf? : Entry → Option String
  | .text content => some content
  | _ => none

/-- What the program starts from. -/
structure Setup where
  environment : Environment
  /-- What stands under the name of the settings file. -/
  file : Entry
  /-- The directory of the job file. -/
  root : String
  session : Session

/-- The path of the job file. -/
def Setup.jobFile (setup : Setup) : String := setup.root ++ "/" ++ Folder.jobsName

/-- The script on standard input; an empty one when none can be read. -/
def script : IO Json := do
  let line ← (← IO.getStdin).getLine
  return match Json.read line with
    | .ok v => v
    | .error _ => .null

/-- Reads what the program starts from. -/
def Setup.read : IO Setup := do
  let home := (← IO.getEnv "HOME").getD ""
  let file ← entryAt (home ++ "/.config/jenkins-cli/jenkins-cli-config.json")
  let root := cacheRoot (toString (← IO.currentDir)) (← IO.getEnv "JENKINS_CLI_CACHE_DIR")
  let jobs ← entryAt (root ++ "/" ++ Folder.jobsName)
  let session := Session.ofScript (← script)
  let lang := language (← IO.getEnv "JENKINS_CLI_LANG")
  return {
    environment := ← currentEnvironment, file, root
    session := { session with lang, folder := { jobs } } }

/-- Writes the job file when the run has changed it. -/
def Setup.write (setup : Setup) (after : Folder) : IO Unit := do
  if after.jobs ≠ setup.session.folder.jobs then
    if let some content := textOf? after.jobs then
      IO.FS.createDirAll setup.root
      IO.FS.writeFile setup.jobFile content

/-- Shows a line. -/
def showLine (line : Console.Line) : IO Unit :=
  match line.stream with
  | .out => IO.println line.text
  | .err => IO.eprintln line.text

end BuildDesk.Program

open BuildDesk BuildDesk.Program in
/-- Runs a command line; the exit code tells how it went. -/
def main (arguments : List String) : IO UInt32 := do
  let setup ← Setup.read
  let (result, after) :=
    (CommandLine.run setup.environment setup.file arguments).run setup.session
  (Console.transcript after).forM showLine
  IO.print result.text
  if let some misuse := result.misuse then IO.eprintln misuse.message
  setup.write after.folder
  if result.fault.isSome then IO.eprintln "The run ended unexpectedly."
  return result.exitCode.toUInt32
