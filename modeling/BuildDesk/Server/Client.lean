/-
Talking to the server.

Every request goes through `exchange`, which turns network failures and statuses
from 400 on into complaints.  Where the settings ask for it, a changing request
carries a crumb header; the crumb is fetched before the first such request and
kept for the session.

Main definitions:
* `Server` — settings and patience;
* `Server.exchange`, `Server.post`, `Server.fetch` — requests;
* `Server.listJobs`, `Server.trigger`, `Server.queuedBuild`, `Server.lastBuild`,
  `Server.build`, `Server.lastFailed`, `Server.stop`, `Server.consoleText`.
-/
import BuildDesk.Json.Reader
import BuildDesk.Json.Printer
import BuildDesk.Server.Build
import BuildDesk.Server.Listing
import BuildDesk.Session
import BuildDesk.Settings

namespace BuildDesk

/-- A server with the seconds to wait for its answers. -/
structure Server where
  settings : Settings
  patience : Json := .int Settings.standardTimeout

namespace Server

/-- The server of the settings; a patience that counts as absent is the standard one. -/
def ofSettings (settings : Settings) (patience : Json) : Server :=
  ⟨settings, patience.orElse (.int Settings.standardTimeout)⟩

/-- Parts of a job that a listing asks for. -/
def jobFields : String := "name,fullName,url"

/-- What a listing asks for: jobs in folders of three levels. -/
def jobsTree : String :=
  "jobs[" ++ jobFields ++ ",jobs[" ++ jobFields ++ ",jobs[" ++ jobFields ++ "]]]"

/-- Parts of a build that are asked for. -/
def buildFields : String :=
  "number,url,result,building,timestamp,duration,estimatedDuration,"
    ++ "actions[parameters[name,value],queuingDurationMillis,lastBuiltRevision[branch[name]]]"

/-- The JSON of a reply. -/
def jsonOf (reply : Reply) : Except Fault Json :=
  match reply.body with
  | .json v => .ok v
  | .text s =>
    match Json.read s with
    | .ok v => .ok v
    | .error .malformed => .error .notJson
    | .error .tooManyDigits => .error .badValue
    | .error .tooDeep => .error .tooDeep

/-- The text of a reply. -/
def textOf (reply : Reply) : String :=
  match reply.body with
  | .json v => v.inline
  | .text s => s

/-- A header of a reply, whatever the case of its name; the last one of that name. -/
def headerOf (reply : Reply) (name : String) : Json :=
  ((reply.headers.reverse.find? fun (other, _) => Text.sameName other name).map (·.2)).getD .null

/-- A status that means failure; it has to be a number. -/
def isFailure (status : Json) : Except Fault Bool :=
  match Quantity.ofJson? status with
  | none => .error .wrongKind
  | some n => .ok ((n.compare? (.whole 400)).any (· != .lt))

/-- Sends a request; a status from 400 on is a complaint. -/
def exchange (r : Request) : Desk Reply := do
  let reply ← Desk.exchange r
  if ← Desk.ofExcept (isFailure reply.status) then
    Desk.complain (.call (.refused r.method r.url reply.status))
  else pure reply

/-- A value that can stand as the name of a header. -/
def isName : Json → Bool
  | .list _ | .object _ => false
  | _ => true

/-- The header that a crumb reply names. -/
def crumbOf (reply : Json) : Except Fault (Json × Json) := do
  let field ← demand reply "crumbRequestField"
  let crumb ← demand reply "crumb"
  if isName field then pure (field, crumb) else throw .wrongKind

/-- The crumb of the session; it is fetched when there is none yet. -/
def crumb (server : Server) : Desk (Json × Json) := do
  match (← get).crumb with
  | some header => pure header
  | none =>
    let reply ← exchange {
      method := "GET", url := joinText server.settings.url "crumbIssuer/api/json"
      timeout := server.patience }
    let header ← Desk.ofExcept (do crumbOf (← jsonOf reply))
    modify fun s => { s with crumb := some header }
    pure header

/-- Sends a request that changes something, with the crumb where it is asked for. -/
def post (server : Server) (url : String) (data : List (String × Json)) : Desk Reply := do
  let headers ← if server.settings.useCrumb then do pure [← server.crumb] else pure []
  exchange { method := "POST", url, timeout := server.patience, headers, data }

/-- Sends a request that only reads. -/
def fetch (server : Server) (url : String) (params : List (String × Json)) : Desk Reply :=
  exchange { method := "GET", url, timeout := server.patience, params }

/-- The JSON at an address, restricted to a tree when one is given. -/
def fetchJson (server : Server) (url : Json) (tree : Option String) : Desk Json := do
  let address ← Desk.ofExcept (join url "api/json")
  let reply ← server.fetch address (tree.toList.map fun t => ("tree", .str t))
  Desk.ofExcept (jsonOf reply)

/-- All jobs of the server. -/
def listJobs (server : Server) : Desk (List Job) := do
  let data ← server.fetchJson (.str server.settings.url) (some jobsTree)
  Desk.ofExcept (do jobsIn (← member data "jobs"))

/-- Queues a build; the address of its place in the queue, null when the server does not
name it. -/
def trigger (server : Server) (job : Json) (params : List (String × Json)) : Desk Json := do
  let path := if params.isEmpty then "build" else "buildWithParameters"
  let reply ← server.post (← Desk.ofExcept (join job path)) params
  pure (headerOf reply "Location")

/-- The address of a queued build once it runs.  A build that was withdrawn is a
complaint. -/
def queuedBuild (server : Server) (queue : Json) : Desk (Option Json) := do
  let data ← server.fetchJson queue none
  let withdrawn ← Desk.ofExcept (member data "cancelled")
  if withdrawn.truthy then Desk.complain (.call (.withdrawn queue.text))
  let running := (data.field "executable").orElse (.object [])
  let url ← Desk.ofExcept (member running "url")
  pure url.present?

/-- The last build of a job. -/
def lastBuild (server : Server) (job : Json) : Desk LastBuild := do
  let data ← server.fetchJson job (some ("lastBuild[" ++ buildFields ++ "]"))
  Desk.ofExcept (LastBuild.ofReply data)

/-- A build. -/
def build (server : Server) (url : Json) : Desk Build := do
  let data ← server.fetchJson url (some buildFields)
  Desk.ofExcept (Build.ofReply url data)

/-- The last failed build of a job, if there is one. -/
def lastFailed (server : Server) (job : Json) : Desk (Option Build) := do
  let url ← Desk.ofExcept (join job "lastFailedBuild")
  Desk.rescue (some <$> server.build (.str url)) fun c =>
    match c with
    | .call fault => if fault.isNotFound then pure none else Desk.complain c
    | _ => Desk.complain c

/-- Stops a build. -/
def stop (server : Server) (url : Json) : Desk Unit := do
  let address ← Desk.ofExcept (join url "stop")
  let _ ← server.post address []

/-- The console output of a build. -/
def consoleText (server : Server) (url : Json) : Desk String := do
  let address ← Desk.ofExcept (join url "consoleText")
  return textOf (← server.fetch address [])

end Server
end BuildDesk
