/-
What can be done about a job: build it, build it again, watch it, read its log, stop
it.

Main definitions:
* `remember` — records what was built in the job file;
* `Order`, `Order.place` — a build with its inputs, and triggering it;
* `rerunLastFailed`, `watch`, `showLog`, `cancel` — the actions;
* `asMenuAction` — an action in a menu: complaints are shown there.
-/
import BuildDesk.Command.Wait
import BuildDesk.Roster.Branches
import BuildDesk.Roster.Recent

namespace BuildDesk.Command

open Console BuildDesk.Flow Server

/-- An action in a menu.  Complaints are shown and the menu learns that the action
failed; a flow that does not fit together is no matter for the user. -/
def asMenuAction {m : Type → Type} [Monad m] (report : Complaint → ExceptT Fault m Unit)
    (action : ExceptT Fault m ActionResult) : ExceptT Fault m ActionResult :=
  tryCatch action fun
    | .complaint c =>
      if c.isFlow then throw (.complaint c)
      else do
        report c
        pure .error
    | f => throw f

/-- Records a build in the job file: its branch and its job.  The build stands when
the file cannot be written. -/
def remember (settings : Settings) (job : String) (branch : Option String) : Desk Unit := do
  let part : Desk Unit := do
    if let some branch := given branch then Branches.record settings job branch
    Recent.record settings job
  tryCatch part fun
    | .storage => pure ()
    | f => throw f

/-- A build with its inputs. -/
structure Order where
  job : String
  label : Json
  params : List (String × String) := []
  /-- The branch that is recorded. -/
  branch : Option String := none

/-- Triggers a build and records it; the address of its place in the queue, null when
the server does not name it. -/
def Order.place (server : Server) (order : Order) : Desk Json := do
  let params := order.params.map fun (name, value) => (name, Json.str value)
  let queue ← server.trigger (.str order.job) params
  remember server.settings order.job order.branch
  match queue.present? with
  | some url => printOk (← Desk.say Notice.buildQueued [("url", url)])
  | none => printOk (← Desk.say Notice.buildTriggered [("label", order.label)])
  pure queue

/-- The inputs of a build, each name once; names that are blank are left out. -/
def inputsOf (build : Build) : List (String × String) :=
  Json.ofEntries ((build.parameters.map fun p => (Text.trim p.name, p.value)).filter
    fun (name, _) => name != "")

/-- The first input that is given and has a name that speaks of a branch. -/
def branchAmong (inputs : List (String × String)) : Option String :=
  (inputs.find? fun (name, value) =>
    Text.occursIn "branch" (Text.lower name) && value != "").map (·.2)

/-- How a build is called: by its number, or else by its address. -/
def buildName (build : Build) : Json :=
  if build.number.isNull then build.url else .str ("#" ++ build.number.text)

/-- Builds a job once more with the inputs of its last failed build. -/
def rerunLastFailed (server : Server) (job : String) (label : Json) : Desk ActionResult := do
  match ← server.lastFailed (.str job) with
  | none => Desk.refuse .noFailedBuild [("label", label)] (some .noFailedBuildHint)
  | some build =>
    let params := inputsOf build
    printOk (← Desk.say Notice.rerunning [("label", label), ("number", buildName build)])
    let _ ← Order.place server { job, label, params, branch := branchAmong params }
    pure .ok

/-- Watches a build until it has finished. -/
def watch (server : Server) (target : Target) : Desk ActionResult := do
  match ← wait server target none none with
  | .cancelled _ => pure .watchCancelled
  | _ => pure .ok

/-- Shows the console output of a build, or of the last build of the job. -/
def showLog (server : Server) (job : String) (label : Json) (build : Option Json) :
    Desk ActionResult := do
  let url ← match build.bind Json.present? with
    | some url => pure url
    | none => lastBuildUrl server job label
  let text ← server.consoleText url
  printRule (← Desk.say Notice.consoleOutput [("url", url)])
  printPlain text
  printRule ""
  pure .ok

/-- The last build of a job, which has to be running. -/
def runningBuild (server : Server) (job : String) (label : Json) : Desk LastBuild := do
  let last ← server.lastBuild (.str job)
  if !last.building || !last.url.truthy then
    Desk.refuse .noRunningBuild [("label", label)] (some .noRunningBuildHint)
  pure last

/-- Stops the running build of a job, after a question when there is one to ask. -/
def cancel (server : Server) (job : String) (label : Json)
    (agree : Option (String → Desk Bool)) : Desk ActionResult := do
  let last ← runningBuild server job label
  let agreed ← match agree with
    | none => pure true
    | some agree =>
      agree (← Desk.say Notice.cancelConfirm [("label", label), ("number", last.number)])
  if agreed then
    server.stop last.url
    printOk (← Desk.say Notice.buildCancelled [("url", last.url)])
  else printOk (← Desk.say Notice.cancelSkipped [])
  pure .ok

end BuildDesk.Command
