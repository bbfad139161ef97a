/-
Listing jobs and acting on one of them.

Main definitions:
* `printJobs` — the jobs as a table;
* `askSearch` — the search that the user types;
* `browse` — picking one of the jobs found and acting on it;
* `list` — the command.
-/
import BuildDesk.Command.Status
import BuildDesk.Flow.Browse

namespace BuildDesk.Command

open Console BuildDesk.Flow

/-- The jobs as a table. -/
def printJobs (jobs : List Job) : Desk Unit := do
  if jobs.isEmpty then printMarkup (← Desk.say Notice.noJobsToShow [])
  else
    let title ← Desk.say Notice.jobsTitle [("count", .int jobs.length)]
    let header := [← Desk.say Notice.columnJob [], ← Desk.say Notice.columnUrl []]
    printTable title header (jobs.map fun job => [job.displayName.text, job.url])

/-- What users type when they want to leave. -/
def quitWords : List String := ["q", "quit", "exit"]

/-- The search that the user types; none when the user wants to leave. -/
def askSearch (settings : Settings) : Desk (Option String) := do
  let message ← addressed settings (← Desk.say Notice.listSearchPrompt [])
  let placeholder ← Desk.say Notice.listSearchPlaceholder []
  let answer ← Desk.ask (.text (.str message) (.str placeholder) .null)
  let search := Text.trim answer.text
  pure (if answer.isNull || quitWords.contains (Text.lower search) then none else some search)

/-- Browses from a state on.  A run that ends away from the jobs goes back to them.  Each
run takes an answer, so the number of runs is bounded by the answers that are left and
one more. -/
def browseFrom (server : Server) (jobs : List Job) :
    Nat → Browse.Context → Option String → Desk Outcome
  | 0, _, _ => throw .stalled
  | more + 1, ctx, start => do
    let perform (action : String) (job : Job) : Desk Json := do
      return .str (← performOn server job.url job.displayName (some jobs) action).word
    let (ending, ctx) ← Browse.table.runOn (Browse.handlers perform) ctx start
    if ending.outcome == .root && ending.state != "select_job" then
      browseFrom server jobs more ctx (some "select_job")
    else pure ending.outcome

/-- Browses the jobs found; says whether the user wants to leave the command. -/
def browse (server : Server) (found jobs : List Job) : Desk Bool := do
  let outcome ← browseFrom server jobs ((← get).answers.length + 1)
    { settings := server.settings, jobs := found } none
  pure (outcome == .exitCommand)

/-- Searches and browses until the user wants to leave.  Each round but perhaps the first
takes an answer, so the number of rounds is bounded by the answers that are left and two
more. -/
def searches (server : Server) (jobs : List Job) : Nat → Option String → Desk Unit
  | 0, _ => throw .stalled
  | more + 1, search => do
    let wanted ← match search with
      | some text => pure (some text)
      | none => askSearch server.settings
    match wanted with
    | none => pure ()
    | some text =>
      let found ← Desk.ofExcept (Search.filter jobs text)
      if found.isEmpty then
        printError (← Desk.say Notice.noJobsMatch [("query", .str text)])
        printHint (← Desk.say Notice.listTryAgainHint [])
        searches server jobs more none
      else
        printJobs found
        if !(← browse server found jobs) then searches server jobs more none

/-- The command. -/
def list (server : Server) (interactive anew : Bool) (search : Option String) : Desk Unit := do
  let text := Text.trim (search.getD "")
  let jobs ← jobsFor server interactive anew none
  if interactive then
    searches server jobs ((← get).answers.length + 2) (given (some text))
  else printJobs (← Desk.ofExcept (Search.filter jobs text))

end BuildDesk.Command
