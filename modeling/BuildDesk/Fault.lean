/-
What can go wrong.

A complaint is an error that is reported to the user: it has a message, hints on
what to do next, perhaps the text of its cause, and details.  A fault is either
a complaint or something that no command expects and that ends the run: a script
that holds too little, an interruption, a refused file operation, or data of a
kind that cannot be worked with.

Main definitions:
* `Complaint`, with `message`, `hints`, `cause`, `details` and `text`;
* `FlowFault` — a flow whose definition and handlers do not fit;
* `Fault` — everything that ends a run.
-/
import BuildDesk.Calendar
import BuildDesk.Json.Order
import BuildDesk.Message.Catalog

namespace BuildDesk

/-- A flow whose definition and handlers do not fit together. -/
inductive FlowFault
  | other (flow : String) (message : String) (state : Option String) (cause : Option String)
  | malformed (flow : String) (problems : List String) (state : Option String)
  | unknownState (flow state : String)
  | unhandled (flow : String) (state : Option String) (event : Json)

namespace FlowFault

/-- The flow at fault. -/
def flow : FlowFault → String
  | other flow _ _ _ | malformed flow _ _ | unknownState flow _ | unhandled flow _ _ => flow

/-- The state at fault. -/
def state : FlowFault → Option String
  | other _ _ state _ | malformed _ _ state | unhandled _ state _ => state
  | unknownState _ state => some state

/-- The problems of a malformed definition. -/
def problems : FlowFault → List String
  | malformed _ problems _ => problems
  | unknownState _ state => ["unknown state '" ++ state ++ "'"]
  | _ => []

/-- A flow and, when one is known, a state in it. -/
def place (f : FlowFault) : String :=
  match f.state with
  | some state => if state == "" then f.flow else f.flow ++ "." ++ state
  | none => f.flow

/-- What is wrong. -/
def complaint : FlowFault → String
  | other _ message _ _ => message
  | unhandled _ _ event => "unhandled event '" ++ event.text ++ "'"
  | f => "; ".intercalate f.problems

/-- The message of a fault of a flow. -/
def message (f : FlowFault) : String := "Flow error [" ++ f.place ++ "]: " ++ f.complaint

/-- The details of a fault of a flow. -/
def details (f : FlowFault) : List (String × Json) :=
  let place : List (String × Json) := match f.state with
    | some state => if state == "" then [("flow_id", f.flow)] else [("flow_id", f.flow), ("state_id", state)]
    | none => [("flow_id", f.flow)]
  match f with
  | other .. => place
  | unhandled _ _ event => place ++ [("event", event)]
  | _ => place ++ [("problems", .list (f.problems.map .str))]

end FlowFault

/-- The settings that must be given. -/
inductive Required
  | url
  | user
  | token
  deriving DecidableEq, Repr

/-- The environment variable of a required setting. -/
def Required.variable : Required → String
  | url => "JENKINS_URL"
  | user => "JENKINS_USER"
  | token => "JENKINS_API_TOKEN"

/-- How to give a required setting. -/
def Required.hint : Required → String
  | url => "Set JENKINS_URL to your Jenkins base URL (e.g., https://jenkins.example.com)."
  | user => "Set JENKINS_USER to your Jenkins username or service account."
  | token => "Set JENKINS_API_TOKEN to your Jenkins API token."

/-- A setting that is missing or cannot be used. -/
inductive SettingFault
  | missing (setting : Required)
  | notAbsolute
  | wrongScheme
  | other (key message : String) (hints : List String) (cause : Option String)

namespace SettingFault

/-- The setting at fault. -/
def key : SettingFault → String
  | missing setting => setting.variable
  | notAbsolute | wrongScheme => Required.url.variable
  | other key _ _ _ => key

/-- What is wrong with a setting. -/
def message : SettingFault → String
  | missing setting => "Missing " ++ setting.variable ++ "."
  | notAbsolute => "Invalid JENKINS_URL."
  | wrongScheme => "Invalid JENKINS_URL protocol."
  | other _ message _ _ => message

/-- How to mend a setting. -/
def hints : SettingFault → List String
  | missing setting => [setting.hint]
  | notAbsolute => ["Use a full URL like https://jenkins.example.com."]
  | wrongScheme => ["Use http:// or https:// for JENKINS_URL."]
  | other _ _ hints _ => hints

end SettingFault

/-- A request that the server did not serve, with the status of its answer; null when
there was none. -/
structure CallFault where
  method : String
  url : String
  status : Json := .null
  hints : List String := []
  cause : Option String := none

namespace CallFault

/-- The server could not be reached. -/
def unreachable (method url cause : String) : CallFault :=
  { method, url, hints := ["Check JENKINS_URL and your network connection."], cause := some cause }

/-- The server answered with this very status. -/
def hasStatus (c : CallFault) (n : Int) : Bool := c.status.same (.int n)

/-- The server refuses who is asking. -/
def isAuth (c : CallFault) : Bool := c.hasStatus 401 || c.hasStatus 403

/-- The server knows no such thing. -/
def isNotFound (c : CallFault) : Bool := c.hasStatus 404

/-- The server answered with a status that means failure. -/
def refused (method url : String) (status : Json) : CallFault :=
  let c : CallFault := { method, url, status }
  if c.isAuth then { c with hints := ["Check JENKINS_USER and JENKINS_API_TOKEN."] } else c

/-- A build was withdrawn while it waited in the queue. -/
def withdrawn (url : String) : CallFault :=
  { method := "GET", url, hints := ["The queued build was cancelled."] }

/-- The message of a failed request. -/
def message (c : CallFault) : String :=
  "Jenkins request failed: " ++ c.method ++ " " ++ c.url ++
    if c.status.isNull then "" else " -> HTTP " ++ c.status.text

end CallFault

/-- An error that is reported to the user. -/
inductive Complaint
  | jobNameRequired
  | noJobsMatch (query : String)
  | ambiguous (query : String) (names : List String)
  | rosterMissing
  | rosterForeign
  | spoken (lang : Lang) (message : Notice) (args : Arguments) (hint : Option Notice)
  | other (message : String) (hints : List String) (cause : Option String)
      (details : List (String × Json))
  | setting (fault : SettingFault)
  | call (fault : CallFault)
  | flow (fault : FlowFault)

namespace Complaint

/-- The message of a complaint. -/
def message : Complaint → String
  | jobNameRequired => "Job name is required."
  | noJobsMatch query => "No jobs match \"" ++ query ++ "\"."
  | ambiguous query _ => "Job name is ambiguous for \"" ++ query ++ "\"."
  | rosterMissing => "Job cache is missing."
  | rosterForeign => "Job cache does not match the current Jenkins URL or user."
  | spoken lang message args _ => Phrase.say lang message args
  | other message _ _ _ => message
  | setting fault => fault.message
  | call fault => fault.message
  | flow fault => fault.message

/-- What the user can do about it. -/
def hints : Complaint → List String
  | jobNameRequired => ["Pass --job <name> or use --job-url <url>."]
  | noJobsMatch _ =>
    ["Try a different description or run `jenkins-cli list --refresh`.",
      "Or pass `--job-url` to skip cache matching."]
  | ambiguous _ names =>
    ["Options: " ++ ", ".intercalate names, "Pass `--job <exact name>` or `--job-url <url>`."]
  | rosterMissing | rosterForeign =>
    ["Run `jenkins-cli list --refresh` to rebuild the cache.",
      "Or pass `--job-url` to skip cache matching."]
  | spoken lang _ _ hint => hint.toList.map fun n => Phrase.say lang (.notice n) []
  | other _ hints _ _ => hints
  | setting fault => fault.hints
  | call fault => fault.hints
  | flow _ => []

/-- The text of what caused it. -/
def cause : Complaint → Option String
  | other _ _ cause _ => cause
  | setting (.other _ _ _ cause) => cause
  | call fault => fault.cause
  | flow (.other _ _ _ cause) => cause
  | _ => none

/-- Further particulars. -/
def details : Complaint → List (String × Json)
  | other _ _ _ details => details
  | setting fault => [("config_key", fault.key)]
  | call fault =>
    [("method", fault.method), ("url", fault.url), ("status_code", fault.status)]
  | flow fault => fault.details
  | _ => []

/-- The message with its cause. -/
def text (c : Complaint) : String :=
  match c.cause with
  | some cause => c.message ++ ": " ++ cause
  | none => c.message

/-- A search that the user can mend by typing something else. -/
def isRetryable (c : Complaint) : Bool :=
  c.message == "Job name is required." || Text.beginsWith "No jobs match " c.message

/-- The complaint is about a flow and not about what the user or the server did. -/
def isFlow : Complaint → Bool
  | flow _ => true
  | _ => false

end Complaint

/-- The parts of a script. -/
inductive ScriptPart
  | answers
  | replies
  | actions
  | handlers
  deriving DecidableEq, Repr

/-- Everything that ends a run. -/
inductive Fault
  | complaint (c : Complaint)
  /-- The run asks for more than its script holds. -/
  | scriptEnd (part : ScriptPart)
  /-- The user stopped the program. -/
  | interrupted
  /-- A file operation was refused. -/
  | storage
  /-- A reply is no JSON. -/
  | notJson
  /-- A file is not UTF-8. -/
  | notText
  /-- A text cannot be written as UTF-8. -/
  | notEncodable
  /-- Values stand inside each other too deeply. -/
  | tooDeep
  /-- A text is longer than the memory holds. -/
  | outOfMemory
  /-- A value is outside of what an operation takes. -/
  | badValue
  /-- A number is too large. -/
  | tooLarge
  /-- A record has no such member. -/
  | noMember
  /-- A value is of a kind that has no such part. -/
  | noAttribute
  /-- A value is of a kind that an operation does not take. -/
  | wrongKind
  /-- A closing tag closes nothing. -/
  | badMarkup
  /-- A handler failed on purpose. -/
  | failed (message : String)
  /-- A handler of that name is registered already. -/
  | registered (name : String)
  /-- A loop was given too few steps; no run of a command ends so. -/
  | stalled

/-- The fault of a count of seconds that has no moment. -/
def Fault.ofUndated : Calendar.Undated → Fault
  | .uncounted => tooLarge
  | .unknown => storage
  | .outside => badValue

/-- The fault of a template that cannot be filled. -/
def Fault.ofTemplate : Template.Problem → Fault
  | .noAttribute => noAttribute
  | .wrongKind => wrongKind
  | .tooLarge => tooLarge
  | .tooLong => outOfMemory
  | .missing | .outOfRange | .malformed => badValue

end BuildDesk
