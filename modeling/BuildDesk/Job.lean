/-
Jobs of the build server.

A job has a name and an address.  Its full name, with the folders around it, is
what the server reports and need not be text; a job is shown by its full name
when it has one.

Main definitions:
* `Job`, `Job.displayName`;
* `Job.toJson`, `Job.ofMembers` — a job in the job file;
* `Job.find?` — the first job with an address.
-/
import BuildDesk.Json.Display

namespace BuildDesk

/-- A job, with the branches that were built lately. -/
structure Job where
  name : String
  url : String
  fullName : Json := .null
  branches : List String := []

namespace Job

/-- What a job is shown as. -/
def displayName (job : Job) : Json := job.fullName.orElse (.str job.name)

/-- A job as a record of the job file: absent parts are left out. -/
def toJson (job : Job) : Json :=
  .object ([("name", .str job.name), ("url", .str job.url)]
    ++ (if job.fullName.truthy then [("fullName", job.fullName)] else [])
    ++ (if job.branches.isEmpty then [] else [("branches", .list (job.branches.map .str))]))

/-- The texts in a list; none in anything else. -/
def textsOf : Json → List String
  | .list items => items.filterMap Json.asString?
  | _ => []

/-- The text of a member, empty when it is missing. -/
def memberText (members : List (String × Json)) (name : String) : String :=
  ((members.lookup name).map Json.text).getD ""

/-- A job from a record. -/
def ofMembers (members : List (String × Json)) : Job where
  name := memberText members "name"
  url := memberText members "url"
  fullName := (((members.lookup "fullName").getD .null).orElse .null)
  branches := textsOf ((members.lookup "branches").getD .null)

/-- The first job with an address. -/
def find? (jobs : List Job) (url : String) : Option Job := jobs.find? (·.url == url)

/-- What the job with an address is shown as: its display name, or the address
when no job has it. -/
def labelOf (jobs : List Job) (url : String) : Json :=
  match find? jobs url with
  | some job => job.displayName
  | none => .str url

end Job
end BuildDesk
