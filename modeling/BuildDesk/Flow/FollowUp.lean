/-
Following up on a build that was just triggered.

The menu comes back after each action that went well.  In the end the run asks
whether to trigger another build, unless it is part of a larger run; then it
returns there.

Main definitions:
* `FollowUp.Whereabouts` — where the build is;
* `FollowUp.Context` — what a run knows;
* `FollowUp.handlers`, `FollowUp.table` — the flow.
-/
import BuildDesk.Flow.Question

namespace BuildDesk.Flow.FollowUp

/-- Where a build is: its place in the queue, and its own address once it is known. -/
structure Whereabouts where
  queue : Json := .null
  url : Option Json := none

/-- What a run knows. -/
structure Context where
  settings : Settings
  label : Json
  /-- The run is part of a larger one. -/
  returns : Bool := false
  action : Option String := none
  build : Whereabouts := {}

instance : Addressed Context := ⟨Context.settings⟩

/-- Takes the choice of an action. -/
def selectAction (value : Json) (ctx : Context) : String × Context :=
  (selected value.text, { ctx with action := some value.text })

/-- Performs the chosen action; it is an error to have chosen none. -/
def runAction (perform : String → Step Context Json) : Step Context Json := do
  match (← Step.context).action with
  | some action =>
    if action == "" then pure (.str ActionResult.error.word) else perform action
  | none => pure (.str ActionResult.error.word)

/-- What follows the menu. -/
def afterMenu (_ : Json) (ctx : Context) : String × Context :=
  (if ctx.returns then "return_to_caller" else "ask_repeat", ctx)

/-- What follows an action that did not end well. -/
def afterRoot (_ : Json) (ctx : Context) : String × Context :=
  (if ctx.returns then "return_to_caller_root" else "ask_repeat", ctx)

/-- The handlers, for a way to perform actions; an action may find out where the build
is. -/
def handlers (perform : String → Step Context Json) : Registry Context := [
  ("build_post.select_action", .settling leaving (.ofChange none selectAction)),
  ("build_post.run_action", .ofStep (some ActionResult.words) fun _ => runAction perform),
  ("build_post.after_menu", .ofChange (some ["return_to_caller", "ask_repeat"]) afterMenu),
  ("build_post.after_root", .ofChange (some ["return_to_caller_root", "ask_repeat"]) afterRoot),
  ("build_post.repeat_confirm", .confirming)]

/-- The question for an action, which names the job. -/
def actionQuestion (lang : Lang) (ctx : Context) : String :=
  Phrase.say lang Dialog.nextActionFor [("label", ctx.label)]

/-- Picking an action. -/
def pickAction : State Context where
  prompt := some (.select (addressed actionQuestion) (menu [("watch", .actionWatch),
    ("logs", .actionLogs), ("cancel", .actionCancel), ("rerun", .actionRerunSame),
    (done, .actionDone)]))
  onSelect := some "build_post.select_action"
  transitions := [("esc", "after_menu"), (done, "after_menu"), ("select:watch", "run_action"),
    ("select:logs", "run_action"), ("select:cancel", "run_action"),
    ("select:rerun", "run_action")]

/-- Performing the action. -/
def perform : State Context where
  onEnter := some "build_post.run_action"
  transitions := [(ActionResult.ok.word, "action_menu"),
    (ActionResult.watchCancelled.word, "after_root"), (ActionResult.error.word, "after_root"),
    (ActionResult.root.word, "after_root"),
    (ActionResult.exit.word, Outcome.exitCommand.word)]

/-- Leaving the menu. -/
def leaveMenu : State Context where
  onEnter := some "build_post.after_menu"
  transitions := [("ask_repeat", "repeat_confirm"),
    ("return_to_caller", Outcome.returnToCaller.word)]

/-- Leaving after an action that did not end well. -/
def leaveAction : State Context where
  onEnter := some "build_post.after_root"
  transitions := [("ask_repeat", "repeat_confirm"),
    ("return_to_caller_root", Outcome.returnToCallerRoot.word)]

/-- Asking for another build. -/
def askAnother : State Context where
  root := true
  prompt := some (.confirm (question .triggerAnotherBuild) (fixed (.bool false)))
  onSelect := some "build_post.repeat_confirm"
  transitions := [("esc", Outcome.exitCommand.word), ("confirm:yes", Outcome.again.word),
    ("confirm:no", Outcome.exitCommand.word)]

/-- The flow. -/
def table : Definition Context where
  id := "build_post"
  initial := "action_menu"
  states := [("action_menu", pickAction), ("run_action", perform), ("after_menu", leaveMenu),
    ("after_root", leaveAction), ("repeat_confirm", askAnother)]

end BuildDesk.Flow.FollowUp
