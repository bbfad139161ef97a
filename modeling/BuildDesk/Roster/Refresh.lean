/-
Listing the jobs of a server anew.

A fresh listing keeps what the roster of the same server and user remembers: the
branches of each job that is still listed, and the jobs used lately.

Main definitions:
* `Roster.inherit` — a fresh roster with what an older one remembers;
* `Roster.refresh` — lists the jobs and writes the job file;
* `Roster.jobsOf` — the jobs in the job file, or a fresh listing.
-/
import BuildDesk.Roster.Basic
import BuildDesk.Server.Client

namespace BuildDesk.Roster

/-- A job with the branches that an older roster remembers for it. -/
def remember (older : Roster) (job : Job) : Job :=
  match older.find? job.url with
  | some known => if known.branches.isEmpty then job else { job with branches := known.branches }
  | none => job

/-- A fresh roster with what an older one remembers. -/
def inherit (older : Option Roster) (r : Roster) : Roster :=
  match older with
  | some older => { r with jobs := r.jobs.map older.remember, recent := older.recent }
  | none => r

/-- Lists the jobs of the server and writes the job file. -/
def refresh (server : Server) : Desk (List Job) := do
  let jobs ← server.listJobs
  let older ← loadFor server.settings
  let r := inherit older (← Desk.ofExcept (fresh server.settings (← get).now jobs))
  save r
  pure r.jobs

/-- Why the job file cannot be used. -/
def reason (found : Option Roster) : Complaint :=
  if found.isSome then .rosterForeign else .rosterMissing

/-- The jobs in the job file.  They are listed anew when that is wanted, and when the
file cannot be used and the user agrees. -/
def jobsOf (server : Server) (anew : Bool) (agree : Option (String → Desk Bool)) :
    Desk (List Job) := do
  if anew then refresh server
  else
    let found ← load
    match found.filter (·.belongsTo server.settings) with
    | some r => pure r.jobs
    | none =>
      let c := reason found
      match agree with
      | none => Desk.complain c
      | some agree => if ← agree c.message then refresh server else Desk.complain c

end BuildDesk.Roster
