/-
Settings: who talks to which server.

A setting comes from the environment, or else from the settings file, or else it
has a fixed value.  The file is a JSON object and may hold values of any kind, so
each use says what becomes of values that are no text.

Main definitions:
* `Settings` — the connection;
* `Environment`, `flag`, `wholeNumber?`, `language` — environment variables and their
  values;
* `Settings.gather` — the settings of a run;
* `Settings.target` — how prompts name the server.
-/
import BuildDesk.Folder
import BuildDesk.Json.Reader
import BuildDesk.Url

namespace BuildDesk

/-- The connection to one server. -/
structure Settings where
  url : String
  user : String
  token : String
  branchParam : String := "BRANCH"
  useCrumb : Bool := false
  profile : Json := .null

/-- Environment variables with their values. -/
abbrev Environment := List (String × String)

namespace Settings

/-- The parameter that receives the branch unless another one is set. -/
def standardBranchParam : String := "BRANCH"

/-- Seconds to wait for an answer of the server. -/
def standardTimeout : Nat := 30

/-- Seconds between two looks at a running build. -/
def pollSeconds : Float := 3.0

/-- The number of jobs remembered as used. -/
def maxRecent : Nat := 15

/-- The number of branches remembered for a job. -/
def maxBranches : Nat := 10

/-- Branches that are always offered. -/
def defaultBranches : List String := ["development", "staging", "master"]

/-- The least score of a match. -/
def minScore : Int := 20

/-- Matches this close to the best one are as good. -/
def ambiguityGap : Int := 10

/-- The number of matches offered. -/
def maxOptions : Nat := 10

/-- The version of the program. -/
def version : String := "0.9.0"

end Settings

/-- The yes or no that a word stands for. -/
def flag? (raw : String) : Option Bool :=
  let word := Text.lower (Text.trim raw)
  if ["true", "1", "yes", "on"].contains word then some true
  else if ["false", "0", "no", "off"].contains word then some false
  else none

/-- A yes or no in the environment; anything else means what is standard. -/
def flag (value : Option String) (standard : Bool) : Bool := (value.bind flag?).getD standard

/-- The whole number that a text stands for. -/
def wholeNumber? (raw : String) : Option Int := (Text.int? raw).toOption

/-- The language that the environment asks for; English unless it names another one. -/
def language (value : Option String) : Lang :=
  (Lang.ofCode? (Text.lower (Text.trim (value.getD "")))).getD .en

/-- How log lines are written. -/
structure LogStyle where
  level : String
  format : String
  dateFormat : String
  deriving DecidableEq, Repr

/-- The log style that the environment asks for. -/
def LogStyle.load (env : Environment) : LogStyle where
  level := Text.upper ((env.lookup "LOG_LEVEL").getD "WARNING")
  format := (env.lookup "LOG_FORMAT").getD "%(asctime)s - %(levelname)s - %(message)s"
  dateFormat := "%Y-%m-%d %H:%M:%S"

/-- A path without empty and one-point parts; two slashes at the front stay two. -/
def cleanPath (path : String) : String :=
  let slashes := (path.toList.takeWhile (· == '/')).length
  let root := if slashes == 0 then "" else if slashes == 2 then "//" else "/"
  let parts := ((Text.cut '/' path.toList).map String.ofList).filter fun p => p != "" && p != "."
  let body := "/".intercalate parts
  if root == "" && body == "" then "." else root ++ body

/-- The directory of the job file, in or below the given working directory unless
the environment names another one. -/
def cacheRoot (workingDirectory : String) (override : Option String) : String :=
  let named := Text.trim (override.getD "")
  if named == "" then workingDirectory ++ "/.jenkins-cli" else cleanPath named

namespace Settings

/-- The member of the settings file that holds a required setting. -/
def fileKey : Required → String
  | .url => "jenkinsUrl"
  | .user => "jenkinsUser"
  | .token => "jenkinsApiToken"

/-- What the environment or the file says; null when neither says anything. -/
def choose (env : Environment) (file : Json) (name key : String) : Json :=
  (Json.ofOption ((env.lookup name).map Json.str)).orElse (file.field key)

/-- A required setting, trimmed. -/
def require (env : Environment) (file : Json) (setting : Required) : Except Fault String :=
  let raw := (choose env file setting.variable (fileKey setting)).orElse (.str "")
  let value := Text.trim raw.text
  if value == "" then .error (.complaint (.setting (.missing setting))) else .ok value

/-- The settings file as an object.  A file that holds none counts as empty, and so does what
cannot be opened; a file that is no text is refused. -/
def fileObject : Entry → Except Fault Json
  | .absent | .directory => .ok (.object [])
  | .binary => .error .notText
  | .text s =>
    match Json.read s with
    | .ok (.object members) => .ok (.object members)
    | .ok _ => .ok (.object [])
    | .error .malformed => .ok (.object [])
    | .error .tooManyDigits => .error .badValue
    | .error .tooDeep => .error .tooDeep

/-- The parameter that receives the branch, from what is said about it, trimmed.  A blank text
means the standard one, and what is no text cannot be trimmed. -/
def paramName (said : Json) : Except Fault String :=
  match said.orElse (.str standardBranchParam) with
  | .str s => .ok (if Text.trim s == "" then standardBranchParam else Text.trim s)
  | _ => .error .noAttribute

/-- The settings of a run, from the environment and the object of the settings file. -/
def load (env : Environment) (file : Json) : Except Fault Settings := do
  let url ← require env file .url
  let user ← require env file .user
  let token ← require env file .token
  let branchParam ← paramName (choose env file "JENKINS_BRANCH_PARAM" "branchParam")
  let url ← Url.normalize url
  pure {
    url, user, token, branchParam
    useCrumb := flag (env.lookup "JENKINS_USE_CRUMB") (file.field "useCrumb").truthy
    profile := choose env file "JENKINS_PROFILE" "profileName" }

/-- The settings of a run, from the environment and from what stands under the name of the
settings file. -/
def gather (env : Environment) (file : Entry) : Except Fault Settings := do
  load env (← fileObject file)

/-- The host of a server as prompts show it. -/
def host (url : String) : String :=
  let trimmed := Text.trim url
  if trimmed == "" then "unknown"
  else match Url.split trimmed with
    | some parts => if parts.host == "" then trimmed else parts.host
    | none => trimmed

/-- The profile as prompts show it. -/
def profileLabel (profile : Json) : Except Fault String :=
  match profile.orElse (.str "") with
  | .str s => .ok (if Text.trim s == "" then "env/direct" else Text.trim s)
  | _ => .error .noAttribute

/-- How prompts name the server and the profile. -/
def target (settings : Settings) : Except Fault String := do
  let profile ← profileLabel settings.profile
  pure ("host: " ++ host settings.url ++ " | profile: " ++ profile)

/-- A question with the server it is about. -/
def addressed (settings : Settings) (lang : Lang) (question : String) : Except Fault String := do
  let target ← settings.target
  pure (Phrase.say lang Dialog.targetSuffix [("message", .str question), ("target", .str target)])

end Settings
end BuildDesk
