/-
Reviewing: what to do about a job whose status was just shown.

The menu comes back after each action that went well.  In the end the run asks
whether to look at another job.

Main definitions:
* `Review.Context` — what a run knows;
* `Review.handlers`, `Review.table` — the flow.
-/
import BuildDesk.Flow.Question

namespace BuildDesk.Flow.Review

/-- What a run knows. -/
structure Context where
  settings : Settings
  label : Json
  action : Option String := none

instance : Addressed Context := ⟨Context.settings⟩

/-- Takes the choice of an action. -/
def selectAction (value : Json) (ctx : Context) : String × Context :=
  (selected value.text, { ctx with action := some value.text })

/-- Performs the chosen action; it is an error to have chosen none. -/
def runAction (perform : String → Desk Json) : Step Context Json := do
  match (← Step.context).action with
  | some action =>
    if action == "" then pure (.str ActionResult.error.word) else Step.ofDesk (perform action)
  | none => pure (.str ActionResult.error.word)

/-- The handlers, for a way to perform actions. -/
def handlers (perform : String → Desk Json) : Registry Context := [
  ("status_post.select_action", .settling leaving (.ofChange none selectAction)),
  ("status_post.run_action", .ofStep (some ActionResult.words) fun _ => runAction perform),
  ("status_post.repeat_confirm", .confirming)]

/-- The question for an action, which names the job. -/
def actionQuestion (lang : Lang) (ctx : Context) : String :=
  Phrase.say lang Dialog.actionFor [("label", ctx.label)]

/-- Picking an action. -/
def pickAction : State Context where
  prompt := some (.select (addressed actionQuestion) (menu [("watch", .actionWatch),
    ("logs", .actionLogs), ("cancel", .actionCancelRunning), ("rerun", .actionRerunLastFailed),
    ("build", .actionBuildNow), (done, .actionDone)]))
  onSelect := some "status_post.select_action"
  transitions := [("esc", "again_confirm"), (done, "again_confirm"),
    ("select:watch", "run_action"), ("select:logs", "run_action"),
    ("select:cancel", "run_action"), ("select:rerun", "run_action"),
    ("select:build", "run_action")]

/-- Performing the action. -/
def perform : State Context where
  onEnter := some "status_post.run_action"
  transitions := [(ActionResult.ok.word, "action_menu"),
    (ActionResult.watchCancelled.word, "again_confirm"),
    (ActionResult.error.word, "again_confirm"), (ActionResult.root.word, "again_confirm"),
    (ActionResult.exit.word, Outcome.exitCommand.word)]

/-- Asking for another job. -/
def askAnother : State Context where
  root := true
  prompt := some (.confirm (question .checkAnotherJob) (fixed (.bool false)))
  onSelect := some "status_post.repeat_confirm"
  transitions := [("esc", Outcome.exitCommand.word), ("confirm:yes", Outcome.again.word),
    ("confirm:no", Outcome.exitCommand.word)]

/-- The flow. -/
def table : Definition Context where
  id := "status_post"
  initial := "action_menu"
  states := [("action_menu", pickAction), ("run_action", perform),
    ("again_confirm", askAnother)]

end BuildDesk.Flow.Review
