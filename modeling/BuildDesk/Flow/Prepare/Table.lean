/-
The flow that prepares a build: which job, which branch, which parameters.

The job is found among those used lately or by a search.  The mode is asked for
unless the inputs are fixed from the start; a prompt that is cancelled leads one
step back, out of the flow at its beginning, and at its end to a build with the
inputs that are given.

Main definitions:
* `findStates` — finding the job;
* `branchStates` — mode and branch;
* `customStates` — parameters of one's own;
* `table` — the flow.
-/
import BuildDesk.Flow.Prepare.Handlers

namespace BuildDesk.Flow.Prepare

/-- The jobs used lately, after the way to all jobs. -/
def recentOptions : Projection Context (List Choice) := fun lang ctx =>
  .ok (choice lang searchAll .searchAllJobs
    :: ctx.recent.map fun job => (.str job.url, job.label))

/-- Asking for a search; the last one is there to be changed. -/
def searchPrompt : Prompt Context :=
  .text (question .jobSearchPrompt) (hint .jobSearchPlaceholder) fun _ ctx => .ok (.str ctx.query)

/-- Asking which of the jobs found is meant. -/
def candidatePrompt : Prompt Context :=
  .select (question .selectCandidate) fun _ ctx => .ok (jobChoices ctx.candidates)

/-- The branches to pick from, with the ways to remove one and to type another. -/
def branchOptions : Projection Context (List Choice) := fun lang ctx =>
  .ok ((if ctx.removable.isEmpty then [] else [choice lang removeBranch .removeCachedBranch])
    ++ textChoices ctx.branchChoices ++ [choice lang customBranch .typeDifferentBranch])

/-- The question for the value of a parameter, which names it. -/
def valueQuestion (lang : Lang) (ctx : Context) : String :=
  let key := ctx.pendingKey.getD ""
  if key == "" then Phrase.say lang Dialog.paramValue []
  else Phrase.say lang Dialog.paramValueFor [("param", .str key)]

/-- The beginning: jobs used lately or a search. -/
def entry : State Context where
  onEnter := some "build_pre.entry"
  transitions := [("show_recent", "recent_menu"), ("search_direct", "search_direct")]

/-- Picking one of the jobs used lately. -/
def recentMenu : State Context where
  root := true
  prompt := some (.select (question .recentJobs) recentOptions)
  onSelect := some "build_pre.select_recent_job"
  transitions := [("esc", Outcome.exitCommand.word),
    ("select:search_all", "search_from_recent"), ("select:recent", "prepare_branch")]

/-- A search from the jobs used lately. -/
def searchFromRecent : State Context where
  prompt := some searchPrompt
  onSelect := some "build_pre.submit_search"
  transitions := [("esc", "recent_menu"), ("search:retry", "search_from_recent"),
    ("search:candidates", "results_from_recent"), ("search:auto", "prepare_branch")]

/-- A search from the beginning. -/
def searchDirect : State Context where
  root := true
  prompt := some searchPrompt
  onSelect := some "build_pre.submit_search"
  transitions := [("esc", Outcome.exitCommand.word), ("search:retry", "search_direct"),
    ("search:candidates", "results_direct"), ("search:auto", "prepare_branch")]

/-- Picking one of the jobs found, after a search in a given state. -/
def results (search : String) : State Context where
  prompt := some candidatePrompt
  onSelect := some "build_pre.select_search_candidate"
  transitions := [("esc", search), ("select:search_again", search),
    ("select:job", "prepare_branch")]

/-- Finding the job. -/
def findStates : List (String × State Context) := [
  ("entry", entry), ("recent_menu", recentMenu), ("search_from_recent", searchFromRecent),
  ("search_direct", searchDirect), ("results_from_recent", results "search_from_recent"),
  ("results_direct", results "search_direct")]

/-- Picking the mode. -/
def pickMode : State Context where
  prompt := some (.select (question .buildMode) (menu [(withBranch, .buildWithBranch),
    (withCustom, .buildWithCustom), (withoutParams, .buildWithoutParams)]))
  onSelect := some "build_pre.select_build_mode"
  transitions := [("esc", "entry"), ("mode:with_branch", "prepare_branch"),
    ("mode:with_custom", "custom_key"), ("mode:without_params", Outcome.complete.word)]

/-- Finding out what is needed. -/
def prepare : State Context where
  onEnter := some "build_pre.prepare_branch"
  transitions := [("branch:ready", Outcome.complete.word), ("branch:mode", "branch_mode"),
    ("branch:select", "branch_select"), ("branch:entry", "branch_entry"),
    ("custom:key", "custom_key"), ("branch:error", "entry")]

/-- Picking a branch. -/
def pickBranch : State Context where
  prompt := some (.select (question .branchSelect) branchOptions)
  onSelect := some "build_pre.select_branch"
  transitions := [("esc", "branch_mode"), ("branch:selected", "custom_confirm"),
    ("branch:entry", "branch_entry"), ("branch:remove", "branch_remove"),
    ("branch:retry", "branch_select")]

/-- Picking a branch to remove. -/
def pickRemoval : State Context where
  prompt := some (.select (question .removeCachedBranch) fun _ ctx =>
    .ok (textChoices ctx.removable))
  onSelect := some "build_pre.select_branch_to_remove"
  transitions := [("esc", "branch_select"), ("remove:selected", "branch_remove_apply")]

/-- Removing the branch. -/
def applyRemoval : State Context where
  onEnter := some "build_pre.remove_branch"
  transitions := [("remove:done", "branch_select")]

/-- Typing a branch. -/
def typeBranch : State Context where
  prompt := some (.text (question .branchName) (hint .branchPlaceholder) (fixed .null))
  onSelect := some "build_pre.submit_branch"
  transitions := [("esc", "branch_mode"), ("branch:retry", "branch_entry"),
    ("branch:selected", "custom_confirm")]

/-- Mode and branch. -/
def branchStates : List (String × State Context) := [
  ("branch_mode", pickMode), ("prepare_branch", prepare), ("branch_select", pickBranch),
  ("branch_remove", pickRemoval), ("branch_remove_apply", applyRemoval),
  ("branch_entry", typeBranch)]

/-- Asking whether there are further parameters; the answer itself is the event. -/
def askCustom : State Context where
  prompt := some (.confirm (question .addCustomParams) (fixed (.bool false)))
  transitions := [("esc", Outcome.complete.word), ("confirm:yes", "custom_key"),
    ("confirm:no", Outcome.complete.word)]

/-- Typing the name of a parameter. -/
def typeKey : State Context where
  prompt := some (.text (question .paramName) (hint .paramNamePlaceholder) (fixed .null))
  onSelect := some "build_pre.submit_custom_param_key"
  transitions := [("esc", "custom_cancel"), ("param:key_retry", "custom_key"),
    ("param:key_ready", "custom_value")]

/-- Typing the value of a parameter. -/
def typeValue : State Context where
  prompt := some (.text (addressed valueQuestion) (fixed .null) (fixed .null))
  onSelect := some "build_pre.submit_custom_param_value"
  transitions := [("esc", "custom_key"), ("param:value_retry", "custom_key"),
    ("param:added", "custom_more")]

/-- Asking whether there is one more parameter. -/
def askMore : State Context where
  prompt := some (.confirm (question .addAnotherParam) (fixed (.bool false)))
  transitions := [("esc", "custom_cancel"), ("confirm:yes", "custom_key"),
    ("confirm:no", Outcome.complete.word)]

/-- Giving up on a further parameter. -/
def cancelCustom : State Context where
  onEnter := some "build_pre.cancel_custom_param_entry"
  transitions := [("custom:mode", "branch_mode"), ("custom:done", Outcome.complete.word)]

/-- Parameters of one's own. -/
def customStates : List (String × State Context) := [
  ("custom_confirm", askCustom), ("custom_key", typeKey), ("custom_value", typeValue),
  ("custom_more", askMore), ("custom_cancel", cancelCustom)]

/-- The flow. -/
def table : Definition Context where
  id := "build_pre"
  initial := "entry"
  states := findStates ++ branchStates ++ customStates

end BuildDesk.Flow.Prepare
