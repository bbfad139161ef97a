/-
Browsing: pick one of the jobs found and act on it.

The menu of a job comes back after each action that went well; other endings lead
back to the jobs or out of the flow.

Main definitions:
* `Browse.Context` — what a run knows;
* `Browse.selectJob`, `Browse.selectAction`, `Browse.runAction` — the handlers;
* `Browse.table`, `Browse.handlers` — the flow.
-/
import BuildDesk.Flow.Question

namespace BuildDesk.Flow.Browse

/-- What a run knows: the jobs to pick from, and what was picked. -/
structure Context where
  settings : Settings
  jobs : List Job
  job : Option Job := none
  action : Option String := none

instance : Addressed Context := ⟨Context.settings⟩

/-- The choices among the jobs that are none. -/
def noJob : Json → Option (Desk String) :=
  settled [(searchAgain, "select:search_again"), (leave, "select:exit")]

/-- Takes the choice of a job; an address that no job has is a wish to search. -/
def selectJob (value : Json) (ctx : Context) : String × Context :=
  match Job.find? ctx.jobs value.text with
  | none => ("select:search_again", ctx)
  | some job => ("select:job", { ctx with job := some job })

/-- Takes the choice of an action. -/
def selectAction (value : Json) (ctx : Context) : String × Context :=
  (selected value.text, { ctx with action := some value.text })

/-- Performs the chosen action on the chosen job; it is an error to have chosen none. -/
def runAction (perform : String → Job → Desk Json) : Step Context Json := do
  let ctx ← Step.context
  match ctx.job, ctx.action with
  | some job, some action =>
    if action == "" then pure (.str ActionResult.error.word)
    else Step.ofDesk (perform action job)
  | _, _ => pure (.str ActionResult.error.word)

/-- The handlers, for a way to perform actions. -/
def handlers (perform : String → Job → Desk Json) : Registry Context := [
  ("list.select_job", .settling noJob
    (.ofChange (some ["select:search_again", "select:exit", "select:job"]) selectJob)),
  ("list.select_action", .settling leaving (.ofChange none selectAction)),
  ("list.run_action", .ofStep (some ActionResult.words) fun _ => runAction perform)]

/-- The jobs to pick from, and two ways out. -/
def jobOptions : Projection Context (List Choice) := fun lang ctx =>
  .ok (jobChoices ctx.jobs ++ [choice lang searchAgain .searchAgain, choice lang leave .exit])

/-- The question for an action, which names the chosen job. -/
def actionQuestion (lang : Lang) (ctx : Context) : String :=
  let label := match ctx.job with
    | some job => job.displayName
    | none => .str (Phrase.say lang Dialog.jobFallback [])
  Phrase.say lang Dialog.actionFor [("label", label)]

/-- Picking a job. -/
def pickJob : State Context where
  root := true
  prompt := some (.select (question .selectJobToOperate) jobOptions)
  onSelect := some "list.select_job"
  transitions := [("esc", Outcome.root.word), ("select:search_again", Outcome.root.word),
    ("select:exit", Outcome.exitCommand.word), ("select:job", "action_menu")]

/-- Picking an action. -/
def pickAction : State Context where
  prompt := some (.select (addressed actionQuestion) (menu [("build", .actionBuild),
    ("status", .actionStatus), ("watch", .actionWatch), ("logs", .actionLogs),
    ("cancel", .actionCancel), ("rerun", .actionRerunFailed), ("search", .backToSearch),
    ("exit", .exit)]))
  onSelect := some "list.select_action"
  transitions := [("esc", "select_job"), ("select:search", Outcome.root.word),
    ("select:exit", Outcome.exitCommand.word), ("select:build", "run_action"),
    ("select:status", "run_action"), ("select:watch", "run_action"),
    ("select:logs", "run_action"), ("select:cancel", "run_action"),
    ("select:rerun", "run_action")]

/-- Performing the action. -/
def perform : State Context where
  onEnter := some "list.run_action"
  transitions := [(ActionResult.ok.word, "action_menu"),
    (ActionResult.watchCancelled.word, Outcome.root.word),
    (ActionResult.error.word, Outcome.root.word), (ActionResult.root.word, Outcome.root.word),
    (ActionResult.exit.word, Outcome.exitCommand.word)]

/-- The flow. -/
def table : Definition Context where
  id := "list_interactive"
  initial := "select_job"
  states := [("select_job", pickJob), ("action_menu", pickAction), ("run_action", perform)]

end BuildDesk.Flow.Browse
