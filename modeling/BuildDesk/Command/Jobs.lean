/-
What the commands have in common: the jobs that they work on, and questions that
belong to no flow.

Main definitions:
* `confirm` — a yes or no; a cancelled question means no;
* `jobsFor` — the jobs that a command works on;
* `showStatus` — the status of a job.
-/
import BuildDesk.Console.Output
import BuildDesk.Flow.Basic
import BuildDesk.Report.Status
import BuildDesk.Roster.Refresh

namespace BuildDesk.Command

open Console

/-- A text is given: it is there and not empty. -/
def given (text : Option String) : Option String := text.filter (· != "")

/-- A question with the server that it is about. -/
def addressed (settings : Settings) (text : String) : Desk String := do
  Desk.ofExcept (settings.addressed (← Desk.lang) text)

/-- Asks for a yes or no. -/
def confirm (settings : Settings) (text : String) (standard : Bool) : Desk Bool := do
  let message ← addressed settings text
  let answer ← Desk.ask (.confirm (.str message) (.bool standard))
  pure answer.truthy

/-- Asks whether to list the jobs anew. -/
def agreeToRefresh (settings : Settings) (reason : String) : Desk Bool := do
  confirm settings (← Desk.say Notice.refreshConfirm [("reason", .str reason)]) true

/-- The jobs that a command works on.  When the address of a job is given, the jobs
serve for labels only, so it is no error to have none. -/
def jobsFor (server : Server) (interactive anew : Bool) (jobUrl : Option String) :
    Desk (List Job) := do
  if (given jobUrl).isSome then
    Desk.rescue (Roster.jobsOf server anew none) fun _ => pure []
  else
    let agree := if interactive then some (agreeToRefresh server.settings) else none
    let jobs ← Roster.jobsOf server anew agree
    if jobs.isEmpty then Desk.refuse .noJobsInCache [] (some .noJobsInCacheHint)
    pure jobs

/-- Shows the status of a job. -/
def showStatus (server : Server) (job : Json) (label : Json) : Desk Flow.ActionResult := do
  let last ← server.lastBuild job
  if last.number.isNull then
    printMarkup (← Desk.say Notice.noBuilds [("label", label)])
  else
    printPlain (Report.summary label last)
    let now := Quantity.whole ((← get).now * 1000)
    printPlain (← Desk.ofExcept (Report.details last (last.url.orElse job) now))
  pure .ok

end BuildDesk.Command
