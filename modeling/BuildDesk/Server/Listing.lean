/-
Listings of jobs.

A listing is a list of entries.  An entry with jobs of its own is a folder and
stands for those; another one is a job when it has a name and an address.  Jobs
are given in the order of the listing, and entries that are no objects are left
out.

Main definitions:
* `leaf` — the job of an entry without jobs of its own;
* `jobsIn` — all jobs of a listing, folders opened to any depth.
-/
import BuildDesk.Fault
import BuildDesk.Job

namespace BuildDesk.Server

/-- The job of an entry that is no folder: it needs a name and an address. -/
def leaf (members : List (String × Json)) : List Job :=
  let url := (members.lookup "url").getD .null
  let name := (members.lookup "name").getD .null
  if url.truthy && name.truthy then
    [{ name := name.text, url := url.text,
       fullName := ((members.lookup "fullName").getD .null).orElse .null }]
  else []

mutual

/-- The jobs of a listing. -/
def jobsIn : Json → Except Fault (List Job)
  | .list entries => jobsOfEntries entries
  | .bool true => .error .wrongKind
  | .int n => if n != 0 then .error .wrongKind else .ok []
  | .float x => if x != 0 then .error .wrongKind else .ok []
  | _ => .ok []

/-- The jobs of a list of entries. -/
def jobsOfEntries : List Json → Except Fault (List Job)
  | [] => .ok []
  | entry :: rest => do
    let here ← jobsOfEntry entry
    let others ← jobsOfEntries rest
    pure (here ++ others)

/-- The jobs of an entry. -/
def jobsOfEntry : Json → Except Fault (List Job)
  | .object members => (folderJobs members).getD (.ok (leaf members))
  | _ => .ok []

/-- The jobs of a folder; nothing when the members name no jobs. -/
def folderJobs : List (String × Json) → Option (Except Fault (List Job))
  | [] => none
  | (name, value) :: rest =>
    if name == "jobs" then (if value.isNull then none else some (jobsIn value))
    else folderJobs rest

end

end BuildDesk.Server
