/-
The roster: the jobs of a server as last listed, with what was used lately.

A roster belongs to one server and one user.  It is kept in the job file as a
JSON record; a file that holds anything else counts as no roster.

Main definitions:
* `Roster`, `Roster.belongsTo`, `Roster.find?`;
* `Roster.toJson`, `Roster.ofJson?` — the record;
* `Roster.load`, `Roster.save` — reading and writing the job file;
* `Roster.revise` — reads, changes and writes the roster of the present settings.
-/
import BuildDesk.Job
import BuildDesk.Json.Printer
import BuildDesk.Session
import BuildDesk.Settings

namespace BuildDesk

/-- The jobs of a server for a user. -/
structure Roster where
  server : String
  user : String
  fetchedAt : String
  jobs : List Job
  /-- Addresses of the jobs used lately, the latest first. -/
  recent : List String := []

namespace Roster

/-- The roster is about the server and the user of the settings. -/
def belongsTo (r : Roster) (settings : Settings) : Bool :=
  r.server == settings.url && r.user == settings.user

/-- The first job with an address. -/
def find? (r : Roster) (url : String) : Option Job := Job.find? r.jobs url

/-- The roster as a record. -/
def toJson (r : Roster) : Json :=
  .object [("jenkinsUrl", .str r.server), ("user", .str r.user), ("fetchedAt", .str r.fetchedAt),
    ("jobs", .list (r.jobs.map Job.toJson)), ("recentJobs", .list (r.recent.map .str))]

/-- The members of a record; nothing in any other value. -/
def membersOf? : Json → Option (List (String × Json))
  | .object members => some members
  | _ => none

/-- The roster of a record, when server, user, time and jobs are there. -/
def ofJson? (v : Json) : Option Roster :=
  match v.field "jenkinsUrl", v.field "user", v.field "fetchedAt", v.field "jobs" with
  | .str server, .str user, .str fetchedAt, .list jobs =>
    some ⟨server, user, fetchedAt, (jobs.filterMap membersOf?).map Job.ofMembers,
      Job.textsOf (v.field "recentJobs")⟩
  | _, _, _, _ => none

/-- The text of the job file. -/
def document (r : Roster) : String := r.toJson.document

/-- The roster that a text holds, if it holds one. -/
def ofText? (text : String) : Except Fault (Option Roster) :=
  match Json.read text with
  | .ok v => .ok (ofJson? v)
  | .error .malformed => .ok none
  | .error .tooManyDigits => .error .badValue
  | .error .tooDeep => .error .tooDeep

/-- The roster in a folder, if there is one. -/
def ofFolder (f : Folder) : Except Fault (Option Roster) :=
  if !f.reachable then .error .storage
  else match f.jobs with
    | .absent | .directory => .ok none
    | .binary => .error .notText
    | .text content => ofText? content

/-- The roster in the job file, if there is one. -/
def load : Desk (Option Roster) := do Desk.ofExcept (ofFolder (← get).folder)

/-- Writes the job file; it is left alone when the text cannot be encoded and when it
cannot be replaced. -/
def save (r : Roster) : Desk Unit := do
  let folder := (← get).folder
  if !folder.reachable then throw .storage
  if !Text.isEncodable r.document then throw .notEncodable
  let (folder, done) := folder.replace r.document
  modify fun s => { s with folder := folder }
  if !done then throw .storage

/-- The roster in the job file when it belongs to the settings. -/
def loadFor (settings : Settings) : Desk (Option Roster) := do
  match ← load with
  | some r => return if r.belongsTo settings then some r else none
  | none => return none

/-- Changes the roster of the settings; says whether there was anything to write. -/
def revise (settings : Settings) (change : Roster → Option Roster) : Desk Bool := do
  match ← loadFor settings with
  | none => pure false
  | some r =>
    match change r with
    | none => pure false
    | some changed => save changed; pure true

/-- A fresh roster of listed jobs, without a history; the clock has to show a date. -/
def fresh (settings : Settings) (now : Int) (jobs : List Job) : Except Fault Roster :=
  match Calendar.moment Calendar.firstSecond now with
  | .ok moment => .ok ⟨settings.url, settings.user, moment.stamp, jobs, []⟩
  | .error undated => .error (.ofUndated undated)

/-- Changes the first job with an address. -/
def changeFirst (url : String) (f : Job → Job) : List Job → List Job
  | [] => []
  | job :: rest => if job.url == url then f job :: rest else job :: changeFirst url f rest

end Roster
end BuildDesk
