/-
The status of a job, and what can be done about it.

Main definitions:
* `performOn` — the actions of the menus about a job;
* `status` — the command: pick a job, show its status, act on it.
-/
import BuildDesk.Command.Build
import BuildDesk.Flow.Review

namespace BuildDesk.Command

open Console BuildDesk.Flow

/-- An action on a job.  Building runs the flows of a build inside the present run. -/
def actOn (server : Server) (job : String) (label : Json) (jobs : Option (List Job))
    (action : String) : Desk ActionResult := do
  if action == "build" then
    return (← build server true { wish := { url := some job }, returns := true, jobs }).asAction
  else if action == "status" then showStatus server (.str job) label
  else if action == "watch" then watch server { job, label }
  else if action == "logs" then showLog server job label none
  else if action == "cancel" then
    cancel server job label (some fun text => confirm server.settings text false)
  else if action == "rerun" then rerunLastFailed server job label
  else Desk.refuse .unknownAction [("action", .str action)] none

/-- An action on a job as its menu sees it. -/
def performOn (server : Server) (job : String) (label : Json) (jobs : Option (List Job))
    (action : String) : Desk ActionResult :=
  asMenuAction printComplaint (actOn server job label jobs action)

/-- Shows the status of a job and offers what can be done about it. -/
def review (server : Server) (job : String) (label : Json) (jobs : List Job) : Desk Ending := do
  let _ ← asMenuAction printComplaint (showStatus server (.str job) label)
  let perform (action : String) : Desk Json := do
    return .str (← performOn server job label (some jobs) action).word
  let (ending, _) ← Review.table.runOn (Review.handlers perform)
    { settings := server.settings, label } none
  pure ending

/-- Reviews jobs until the user wants no further one.  Each round but the last takes an
answer, so the number of rounds is bounded by the answers that are left and one more. -/
def reviews (server : Server) : Nat → Wish → List Job → Desk Unit
  | 0, _, _ => throw .stalled
  | more + 1, wish, jobs => do
    match ← wish.pick server.settings jobs with
    | none => pure ()
    | some (job, label) =>
      let ending ← review server job label jobs
      if ending.outcome == .again then
        let jobs ← if jobs.isEmpty then jobsFor server true false none else pure jobs
        reviews server more {} jobs

/-- The command. -/
def status (server : Server) (interactive nonInteractive : Bool) (wish : Wish) : Desk Unit := do
  if nonInteractive then
    if let some (job, label) ← wish.target server false then
      let _ ← showStatus server (.str job) label
  else
    wish.check
    if !interactive then
      Desk.refuse .requiresTerminal [("command", .str "status")] (some .requiresTerminalHint)
    let jobs ← jobsFor server true false wish.url
    reviews server ((← get).answers.length + 1) wish jobs

end BuildDesk.Command
