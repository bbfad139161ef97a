/-
The handlers of the flow that prepares a build.

Each takes an answer and the context and gives the event that follows.  Those that
need nothing but the context are functions; the others print, or use the job file.
Answers that stand for no job and no branch are settled before the context is looked
at.

Main definitions:
* `enter`, `selectRecent`, `submitSearch`, `selectCandidate` — finding the job;
* `selectMode`, `prepareBranch` — the mode;
* `selectBranch`, `selectRemoval`, `remove`, `submitBranch` — the branch;
* `submitKey`, `submitValue`, `cancelKey` — parameters of one's own;
* `handlers` — all of them.
-/
import BuildDesk.Console.Output
import BuildDesk.Flow.Prepare.Context
import BuildDesk.Roster.Branches
import BuildDesk.Search.Resolve

namespace BuildDesk.Flow.Prepare

open Console

/-- Begins with the jobs used lately when there are any. -/
def enter (_ : Json) (ctx : Context) : String × Context :=
  (if ctx.recent.isEmpty then "search_direct" else "show_recent", ctx)

/-- What a job used lately is shown as, once it is chosen. -/
def recentLabel (ctx : Context) (job : RecentJob) : Json :=
  match Job.find? ctx.jobs job.url with
  | some listed => listed.displayName
  | none => job.label

/-- The choice among the jobs used lately that is none of them. -/
def noRecent : Json → Option (Desk String) := settled [(searchAll, "select:search_all")]

/-- Takes the choice among the jobs used lately. -/
def selectRecent (value : Json) (ctx : Context) : String × Context :=
  match ctx.recent.find? (·.url == value.text) with
  | none => ("select:search_all", ctx)
  | some job =>
    ("select:recent",
      { ctx.select job.url (recentLabel ctx job) with query := "", candidates := [] })

/-- What a search comes to when jobs are found: a single one is chosen at once. -/
def takeFound (ctx : Context) : List Job → String × Context
  | [job] => ("search:auto", { ctx.selectJob job with candidates := [] })
  | jobs => ("search:candidates", { ctx with candidates := jobs })

/-- What is asked for again, with a report, when nothing is typed. -/
def demanded (event : String) (missing hint : Dialog) (value : Json) : Option (Desk String) :=
  if typed value != "" then none
  else some do
    printError (← Desk.say missing [])
    printHint (← Desk.say hint [])
    pure event

/-- Searches among the jobs.  Nothing found is reported, and the search is asked for
again. -/
def search (query : String) : Step Context Json := do
  let ctx ← Step.context
  match Search.resolve query ctx.jobs with
  | .ok jobs =>
    let (event, ctx) := takeFound ctx jobs
    Step.change fun _ => ctx
    pure (.str event)
  | .error (.complaint c) =>
    if c.isRetryable then
      Step.ofDesk (printComplaint c)
      pure (.str "search:retry")
    else throw (.complaint c)
  | .error f => throw f

/-- Takes a search; the context keeps what was typed. -/
def submitSearch (value : Json) : Step Context Json := do
  Step.change fun ctx => { ctx with query := typed value }
  match demanded "search:retry" .jobNameRequired .jobNameRequiredHint value with
  | some event => Json.str <$> Step.ofDesk event
  | none => search (typed value)

/-- Takes the choice among the jobs found. -/
def selectCandidate (value : Json) (ctx : Context) : String × Context :=
  match Job.find? ctx.candidates value.text with
  | none => ("select:search_again", ctx)
  | some job => ("select:job", { ctx.selectJob job with candidates := [] })

/-- Takes the choice of the mode. -/
def selectMode (value : Json) (ctx : Context) : String × Context :=
  let choice := value.text
  let ctx := { ctx with modeAsked := true }
  if choice == withoutParams then
    ("mode:without_params", { ctx with mode := some .without, branch := none, customParams := [] })
  else if choice == withCustom then
    ("mode:with_custom", { ctx with mode := some .custom, branch := none })
  else ("mode:with_branch", { ctx with mode := some .branch })

/-- What is needed next for a build of the chosen job. -/
inductive Need
  /-- Nothing: all inputs are given. -/
  | nothing
  | key
  | job
  | mode
  | branch

/-- What is needed next. -/
def need (ctx : Context) : Need :=
  if ctx.mode == some .without || ctx.defaultBranch || Text.trim ctx.branchText != "" then .nothing
  else if ctx.mode == some .custom then .key
  else if ctx.address == "" then .job
  else if !ctx.modeAsked && ctx.mode == none then .mode
  else .branch

/-- Finds out what is needed next, and reads the branches to offer. -/
def prepareBranch (_ : Json) : Step Context Json := do
  let ctx ← Step.context
  match need ctx with
  | .nothing =>
    let branch := Text.trim ctx.branchText
    Step.change fun ctx => { ctx with branch := if branch == "" then none else some branch }
    pure (.str "branch:ready")
  | .key => pure (.str "custom:key")
  | .job => pure (.str "branch:error")
  | .mode =>
    Step.change fun ctx => { ctx with modeAsked := true }
    pure (.str "branch:mode")
  | .branch =>
    let choices ← Step.ofDesk (Branches.offered ctx.settings ctx.address)
    Step.change fun ctx => { ctx with branchChoices := Text.distinct choices }
    let removable ← Step.ofDesk (Branches.history ctx.settings ctx.address)
    Step.change fun ctx => { ctx with removable := Text.distinct removable }
    pure (.str (if choices.isEmpty then "branch:entry" else "branch:select"))

/-- The choices among the branches that are none of them. -/
def noBranch (value : Json) : Option (Desk String) :=
  if value.text == customBranch || Text.trim value.text == "" then some (pure "branch:entry")
  else none

/-- Takes the choice among the branches. -/
def selectBranch (value : Json) (ctx : Context) : String × Context :=
  if value.text == removeBranch then
    (if ctx.removable.isEmpty then "branch:entry" else "branch:remove", ctx)
  else ("branch:selected", { ctx with branch := some (Text.trim value.text) })

/-- A blank choice of the branch to remove. -/
def noRemoval (value : Json) : Option (Desk String) :=
  if Text.trim value.text == "" then some (pure "remove:selected") else none

/-- Takes the choice of the branch to remove. -/
def selectRemoval (value : Json) (ctx : Context) : String × Context :=
  ("remove:selected", { ctx with pendingRemoval := some (Text.trim value.text) })

/-- The context without a branch among those offered. -/
def withoutBranch (branch : String) (ctx : Context) : Context :=
  { ctx with
    removable := Text.without branch ctx.removable
    branchChoices := Text.without branch ctx.branchChoices }

/-- Removes the branch that was chosen for it. -/
def remove (_ : Json) : Step Context Json := do
  let ctx ← Step.context
  let branch := Text.trim (ctx.pendingRemoval.getD "")
  Step.change fun ctx => { ctx with pendingRemoval := none }
  if ctx.address != "" && branch != "" then
    if ← Step.ofDesk (Branches.forget ctx.settings ctx.address branch) then
      Step.change (withoutBranch branch)
      Step.ofDesk do printOk (← Desk.say Dialog.branchRemoved [("branch", .str branch)])
  pure (.str "remove:done")

/-- Nothing typed for a branch. -/
def branchDemanded : Json → Option (Desk String) :=
  demanded "branch:retry" .branchRequired .branchRequiredHint

/-- Takes a branch that was typed. -/
def submitBranch (value : Json) (ctx : Context) : String × Context :=
  ("branch:selected", { ctx with branch := some (typed value) })

/-- Nothing typed for the name of a parameter. -/
def keyDemanded : Json → Option (Desk String) :=
  demanded "param:key_retry" .paramNameRequired .paramNameRequiredHint

/-- Takes the name of a parameter; a name that is taken is asked for again. -/
def submitKey (value : Json) : Step Context Json := do
  let key := typed value
  let ctx ← Step.context
  if ctx.taken.contains (Text.lower key) then
    Step.ofDesk do
      printError (← Desk.say Dialog.paramAlreadySet [("param", .str key)])
      printHint (← Desk.say Dialog.paramAlreadySetHint [])
    pure (.str "param:key_retry")
  else
    Step.change fun ctx => { ctx with pendingKey := some key }
    pure (.str "param:key_ready")

/-- Takes the value of the parameter whose name was typed before. -/
def submitValue (value : Json) (ctx : Context) : String × Context :=
  let key := ctx.pendingKey.getD ""
  if key == "" then ("param:value_retry", ctx)
  else
    ("param:added",
      { ctx with customParams := Json.put ctx.customParams key (typed value), pendingKey := none })

/-- Gives up on a further parameter: the build goes ahead with the inputs that are
given, and without any the mode is asked for again. -/
def cancelKey (_ : Json) (ctx : Context) : String × Context :=
  let ctx := { ctx with pendingKey := none }
  if !ctx.customParams.isEmpty || ctx.branchText != "" then ("custom:done", ctx)
  else ("custom:mode", { ctx with mode := none })

/-- All handlers of the flow. -/
def handlers : Registry Context := [
  ("build_pre.entry", .ofChange (some ["show_recent", "search_direct"]) enter),
  ("build_pre.select_recent_job", .settling noRecent
    (.ofChange (some ["select:search_all", "select:recent"]) selectRecent)),
  ("build_pre.submit_search",
    .ofStep (some ["search:retry", "search:auto", "search:candidates"]) submitSearch),
  ("build_pre.select_search_candidate",
    .ofChange (some ["select:search_again", "select:job"]) selectCandidate),
  ("build_pre.select_build_mode",
    .ofChange (some ["mode:with_branch", "mode:with_custom", "mode:without_params"]) selectMode),
  ("build_pre.prepare_branch",
    .ofStep (some ["branch:ready", "branch:mode", "branch:select", "branch:entry", "custom:key",
      "branch:error"]) prepareBranch),
  ("build_pre.select_branch", .settling noBranch
    (.ofChange (some ["branch:remove", "branch:entry", "branch:selected"]) selectBranch)),
  ("build_pre.select_branch_to_remove", .settling noRemoval
    (.ofChange (some ["remove:selected"]) selectRemoval)),
  ("build_pre.remove_branch", .ofStep (some ["remove:done"]) remove),
  ("build_pre.submit_branch", .settling branchDemanded
    (.ofChange (some ["branch:retry", "branch:selected"]) submitBranch)),
  ("build_pre.submit_custom_param_key", .settling keyDemanded
    (.ofStep (some ["param:key_retry", "param:key_ready"]) submitKey)),
  ("build_pre.submit_custom_param_value",
    .ofChange (some ["param:value_retry", "param:added"]) submitValue),
  ("build_pre.cancel_custom_param_entry",
    .ofChange (some ["custom:done", "custom:mode"]) cancelKey)]

end BuildDesk.Flow.Prepare
