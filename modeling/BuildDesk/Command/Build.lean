/-
Building a job.

The job and the inputs of the build are given as options or gathered by a flow; then
the build is triggered, and a second flow follows up on it.  From there the user may
trigger another build, which starts without the options.

Main definitions:
* `BuildOptions`, `BuildOptions.check` — what the user says, and what is wrong with it;
* `BuildOptions.context` — the context in which a build is prepared;
* `perform` — the actions of the follow-up;
* `Built`, `Built.asAction` — what a run comes to, and what that means for the menu
  that it was started from;
* `build` — the command.
-/
import BuildDesk.Command.Action
import BuildDesk.Command.Target
import BuildDesk.Flow.FollowUp

namespace BuildDesk.Command

open Console BuildDesk.Flow

/-- What the user says about a build. -/
structure BuildOptions where
  wish : Wish := {}
  branch : Option String := none
  /-- The parameter that receives the branch. -/
  branchParam : Option String := none
  /-- Build the default branch of the job, without parameters. -/
  defaultBranch : Bool := false
  nonInteractive : Bool := false
  /-- The command is part of a larger run. -/
  returns : Bool := false
  /-- Jobs that are known already. -/
  jobs : Option (List Job) := none

namespace BuildOptions

/-- The branch without blanks around it; none when it is blank. -/
def branchName (o : BuildOptions) : Option String := given (o.branch.map Text.trim)

/-- Options that exclude each other or that are missing. -/
def check (o : BuildOptions) : Desk Unit := do
  o.wish.check
  if (given o.branch).isSome && o.defaultBranch then Desk.refuse .branchAndDefaultBranch [] none
  if let some name := o.branchParam then
    if Text.trim name == "" then
      Desk.refuse .invalidBranchParam [] (some .invalidBranchParamHint)
  if o.nonInteractive then
    o.wish.demand
    if o.branchName.isNone && !o.defaultBranch then
      Desk.refuse .missingBranch [] (some .missingBranchHint)

/-- The parameter that receives the branch: the one asked for, that of the settings, or
the standard one. -/
def parameter (o : BuildOptions) (settings : Settings) : String :=
  let name := (given o.branchParam).orElse fun _ => given (some settings.branchParam)
  Text.trim (name.getD Settings.standardBranchParam)

/-- What is known when the preparation of the build begins, before its job is looked for. -/
def context (o : BuildOptions) (settings : Settings) (param : String) (jobs : List Job)
    (recent : List RecentJob) : Prepare.Context where
  settings := settings
  jobs := jobs
  recent := recent
  branchParam := param
  branch := o.branchName
  defaultBranch := o.defaultBranch

/-- The options of a further build: none of those about the job and its inputs. -/
def again (o : BuildOptions) : BuildOptions :=
  { o with wish := {}, branch := none, defaultBranch := false }

end BuildOptions

/-- What a run comes to. -/
structure Built where
  /-- A build was triggered. -/
  triggered : Bool := false
  /-- The larger run goes on from its beginning. -/
  toRoot : Bool := false
  /-- The larger run ends. -/
  toExit : Bool := false
  deriving DecidableEq, Repr

/-- What a run means for the menu that it was started from. -/
def Built.asAction (b : Built) : ActionResult :=
  if b.toExit then .exit else if b.toRoot then .root else .ok

/-! ### Following up -/

/-- Triggers the build; where it is shows in the queue again. -/
def place (server : Server) (order : Order) : Step FollowUp.Context Unit := do
  let queue ← Step.ofDesk (order.place server)
  Step.change fun ctx => { ctx with build := ⟨queue, none⟩ }

/-- The address of the build: the server is asked for it as long as it is not known. -/
def buildUrl (server : Server) : Step FollowUp.Context (Option Json) := do
  let build := (← Step.context).build
  match build.url, build.queue.present? with
  | none, some queue =>
    let url ← Step.ofDesk (server.queuedBuild queue)
    Step.change fun ctx => { ctx with build := { build with url := url } }
    pure url
  | url, _ => pure url

/-- An action of the follow-up. -/
def act (server : Server) (order : Order) (action : String) :
    Step FollowUp.Context ActionResult := do
  if action == "watch" then
    let url ← buildUrl server
    let build := (← Step.context).build
    let queue := if url.isSome then .null else build.queue
    Step.ofDesk (watch server { job := order.job, label := order.label, queue, build := url })
  else if action == "logs" then
    let url ← buildUrl server
    Step.ofDesk (showLog server order.job order.label url)
  else if action == "cancel" then
    let agree (text : String) := confirm server.settings text false
    Step.ofDesk (cancel server order.job order.label (some agree))
  else if action == "rerun" then
    place server order
    pure .ok
  else Step.ofDesk (Desk.refuse .unknownAction [("action", .str action)] none)

/-- An action of the follow-up as its menu sees it. -/
def perform (server : Server) (order : Order) (action : String) :
    Step FollowUp.Context ActionResult :=
  asMenuAction (fun c => Step.ofDesk (printComplaint c)) (act server order action)

/-- Triggers a build and follows up on it. -/
def placeAndFollow (server : Server) (order : Order) : Step FollowUp.Context Ending := do
  place server order
  FollowUp.table.run (FollowUp.handlers fun action => do
    return .str (← perform server order action).word) none

/-- Triggers a build and follows up on it, as a part of a command. -/
def follow (server : Server) (order : Order) (returns : Bool) : Desk Ending :=
  ExceptT.mk do
    let ctx := { settings := server.settings, label := order.label, returns }
    return (← (placeAndFollow server order).runFrom ctx).1

/-! ### The command -/

/-- The build that a finished preparation describes. -/
def orderOf (ctx : Prepare.Context) (url : String) (label : Json) : Order where
  job := url
  label := label
  params := ctx.parameters
  branch := if ctx.defaultBranch then none else ctx.branch

/-- What a run comes to when its follow-up has ended. -/
def builtAfter (ending : Ending) (returns : Bool) : Built where
  triggered := true
  toRoot := ending.outcome == .returnToCallerRoot
  toExit := ending.outcome == .exitCommand && returns

/-- Builds until the user wants no further build.  Each round but the last takes an
answer, so the number of rounds is bounded by the answers that are left and one more. -/
def rounds (server : Server) (param : String) : Nat → BuildOptions → List Job → Built → Desk Built
  | 0, _, _, _ => throw .stalled
  | more + 1, o, jobs, sofar => do
    let recent ← Recent.load server.settings
    let found ← o.wish.prepare (o.context server.settings param jobs recent)
    match found, found.bind Wish.chosen with
    | some ctx, some (url, label) =>
      let ending ← follow server (orderOf ctx url label) o.returns
      if ending.outcome == .again then
        let jobs ← if jobs.isEmpty then jobsFor server true false none else pure jobs
        rounds server param more o.again jobs { sofar with triggered := true }
      else pure (builtAfter ending o.returns)
    | _, _ => pure sofar

/-- Builds without asking anything. -/
def buildAtOnce (server : Server) (o : BuildOptions) : Desk Built := do
  let jobs ← jobsFor server false false o.wish.url
  let (job, label) ← o.wish.single jobs
  let branch := if o.defaultBranch then none else o.branchName
  let params := branch.toList.map fun b => (o.parameter server.settings, b)
  let _ ← Order.place server { job, label, params, branch }
  pure { triggered := true }

/-- The command. -/
def build (server : Server) (interactive : Bool) (o : BuildOptions) : Desk Built := do
  o.check
  if o.nonInteractive then buildAtOnce server o
  else
    if !interactive then
      Desk.refuse .requiresTerminal [("command", .str "build")] (some .requiresTerminalHint)
    let jobs ← match o.jobs with
      | some jobs => pure jobs
      | none => jobsFor server true false o.wish.url
    rounds server (o.parameter server.settings) ((← get).answers.length + 1) o jobs {}

end BuildDesk.Command
