/-
Which job a command is about.

A job is given by its address or by a search; without either an interactive command
asks.  A search that may mean several jobs is an error where nobody can be asked.

Main definitions:
* `Wish` — what the user says about the job;
* `Wish.preset` — the beginning of the flow that such a wish allows;
* `Wish.single` — the one job that is meant;
* `Wish.pick` — the job that the user picks;
* `Wish.target` — either of them.
-/
import BuildDesk.Command.Jobs
import BuildDesk.Flow.Prepare.Table
import BuildDesk.Flow.Run

namespace BuildDesk.Command

open Console BuildDesk.Flow

/-- What the user says about the job: a search or an address. -/
structure Wish where
  search : Option String := none
  url : Option String := none

namespace Wish

/-- Search and address exclude each other. -/
def check (wish : Wish) : Desk Unit := do
  if (given wish.search).isSome && (given wish.url).isSome then
    Desk.refuse .jobAndJobUrl [] none

/-- Without a way to ask, the job has to be given. -/
def demand (wish : Wish) : Desk Unit := do
  if (given wish.search).isNone && (given wish.url).isNone then
    Desk.refuse .jobNameRequired [] (some .jobNameRequiredHint)

/-- The context with the jobs that a search may mean, and the state that asks which
of them is meant when there are several. -/
def takeFound (ctx : Prepare.Context) : List Job → Option String × Prepare.Context
  | [job] => (some "prepare_branch", { ctx with url := some job.url, label := some job.displayName })
  | jobs => (some "results_direct", { ctx with candidates := jobs })

/-- Begins the flow with what is known about the job: the state to start in, none for
the beginning, and the context.  A search that finds nothing is reported. -/
def preset (wish : Wish) (ctx : Prepare.Context) : Desk (Option String × Prepare.Context) := do
  match given wish.url, given wish.search with
  | some url, _ =>
    pure (some "prepare_branch",
      { ctx with url := some url, label := some (Job.labelOf ctx.jobs url) })
  | none, none => pure (none, ctx)
  | none, some search =>
    let ctx := { ctx with query := Text.trim search }
    match Search.resolve search ctx.jobs with
    | .ok jobs => pure (takeFound ctx jobs)
    | .error (.complaint c) =>
      if c.isRetryable then
        printComplaint c
        pure (none, ctx)
      else throw (.complaint c)
    | .error f => throw f

/-- The one job that is meant, with its label. -/
def single (wish : Wish) (jobs : List Job) : Desk (String × Json) := do
  match given wish.url with
  | some url => pure (url, Job.labelOf jobs url)
  | none =>
    let search := wish.search.getD ""
    let job ← Desk.ofExcept (do Search.unique search (← Search.resolve search jobs))
    pure (job.url, job.displayName)

/-- The job of a context, with its label. -/
def chosen (ctx : Prepare.Context) : Option (String × Json) :=
  (given ctx.url).map fun url => (url, (Json.ofOption ctx.label).orElse (.str url))

/-- Runs the flow that prepares a build from a context; the context it leaves when the
run is complete and a job is chosen. -/
def prepare (wish : Wish) (ctx : Prepare.Context) : Desk (Option Prepare.Context) := do
  let (start, ctx) ← wish.preset ctx
  let (ending, ctx) ← Prepare.table.runOn Prepare.handlers ctx start
  pure (if ending.outcome == .complete && (chosen ctx).isSome then some ctx else none)

/-- The job that the user picks; none when the user leaves the flow. -/
def pick (wish : Wish) (settings : Settings) (jobs : List Job) :
    Desk (Option (String × Json)) := do
  let recent ← Recent.load settings
  let found ← wish.prepare { settings, jobs, recent, mode := some .without }
  pure (found.bind chosen)

/-- The job that a command is about; none when the user leaves the flow. -/
def target (wish : Wish) (server : Server) (interactive : Bool) :
    Desk (Option (String × Json)) := do
  wish.check
  if interactive then
    wish.pick server.settings (← jobsFor server true false wish.url)
  else
    wish.demand
    return some (← wish.single (← jobsFor server false false wish.url))

end Wish
end BuildDesk.Command
