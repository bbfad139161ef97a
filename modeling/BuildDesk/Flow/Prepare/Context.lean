/-
What is known while a build is prepared.

A build needs a job and its inputs: a branch, parameters of one's own, both, or
neither.  How the inputs are given is the mode of the build.

Main definitions:
* `Mode` — how the inputs of a build are given;
* `Prepare.Context` — what a run knows;
* `Context.parameters` — the parameters of the build;
* `Context.select` — the context with a job chosen.
-/
import BuildDesk.Flow.Question
import BuildDesk.Roster.Recent

namespace BuildDesk.Flow.Prepare

/-- How the inputs of a build are given. -/
inductive Mode
  | branch
  | custom
  | without
  /-- A mode of another name, which asks for a branch as well. -/
  | other (name : String)
  deriving DecidableEq, Repr

/-- The name of a mode. -/
def Mode.name : Mode → String
  | branch => "branch"
  | custom => "custom"
  | without => "without"
  | other name => name

/-- The mode with a name. -/
def Mode.ofName (name : String) : Mode :=
  if name == "branch" then branch
  else if name == "custom" then custom
  else if name == "without" then without
  else other name

/-- What a run knows. -/
structure Context where
  settings : Settings
  jobs : List Job
  recent : List RecentJob := []
  query : String := ""
  /-- The jobs that a search may mean. -/
  candidates : List Job := []
  url : Option String := none
  label : Option Json := none
  /-- The parameter that receives the branch. -/
  branchParam : String := Settings.standardBranchParam
  branch : Option String := none
  customParams : List (String × String) := []
  /-- The job is built with its own default branch. -/
  defaultBranch : Bool := false
  mode : Option Mode := none
  /-- The run has asked for the mode. -/
  modeAsked : Bool := false
  branchChoices : List String := []
  removable : List String := []
  pendingRemoval : Option String := none
  pendingKey : Option String := none

instance : Addressed Context := ⟨Context.settings⟩

namespace Context

/-- The branch, empty for none. -/
def branchText (ctx : Context) : String := ctx.branch.getD ""

/-- The address of the chosen job without blanks around it, empty for none. -/
def address (ctx : Context) : String := Text.trim (ctx.url.getD "")

/-- The parameters of the build: the branch and those of one's own. -/
def parameters (ctx : Context) : List (String × String) :=
  if ctx.mode == some .without || ctx.defaultBranch then ctx.customParams
  else
    let branch := if ctx.branchText == "" then [] else [(ctx.branchParam, ctx.branchText)]
    ctx.customParams.foldl (fun done (name, value) => Json.put done name value) branch

/-- Forgets the inputs of the build that were asked for. -/
def forget (ctx : Context) : Context :=
  { ctx with
    modeAsked := false, mode := none, branch := none, customParams := []
    branchChoices := [], removable := [], pendingKey := none }

/-- Chooses a job.  When the mode was asked for, inputs given for another job are
forgotten; what was fixed from the start stays. -/
def select (ctx : Context) (url : String) (label : Json) : Context :=
  { (if ctx.modeAsked then ctx.forget else ctx) with url := some url, label := some label }

/-- Chooses a job that was listed. -/
def selectJob (ctx : Context) (job : Job) : Context := ctx.select job.url job.displayName

/-- The names that parameters of one's own may not have, in lower case. -/
def taken (ctx : Context) : List String :=
  ctx.customParams.map (fun (name, _) => Text.lower name)
    ++ (if ctx.branchText == "" then [] else [Text.lower ctx.branchParam])

end Context
end BuildDesk.Flow.Prepare
