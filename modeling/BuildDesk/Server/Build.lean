/-
Builds as the server reports them.

Most parts of a report are passed on as they are, whatever their kind.  The
parameters of a build are gathered from all its actions; its branch is the first
named by the last built revision, or else a parameter that names a branch.

Main definitions:
* `Parameter`, `parametersOf`, `branchOf`;
* `LastBuild`, `LastBuild.ofReply` — the last build of a job;
* `Build`, `Build.ofReply` — one build.
-/
import BuildDesk.Server.Access

namespace BuildDesk.Server

/-- A parameter of a build. -/
structure Parameter where
  name : String
  value : String
  deriving DecidableEq, Repr

/-- The parameter of an entry; entries without a name are left out. -/
def parameterOf (entry : Json) : Except Fault (Option Parameter) := do
  let name ← member entry "name"
  if !name.truthy then pure none
  else
    let value ← member entry "value"
    pure (some ⟨name.text, if value.isNull then "" else value.text⟩)

/-- The parameters of one action; actions that are no objects have none. -/
def actionParameters (action : Json) : Except Fault (List Parameter) := do
  match action with
  | .object _ =>
    let entries ← items (← member action "parameters")
    pure ((← entries.mapM parameterOf).filterMap id)
  | _ => pure []

/-- The parameters of all actions. -/
def parametersOf (actions : Json) : Except Fault (List Parameter) := do
  pure (← (← items actions).mapM actionParameters).flatten

/-- The first value under a name among the actions. -/
def actionValue (actions : Json) (name : String) : Except Fault Json := do
  pure (((← items actions).findSome? (·.field? name)).getD .null)

/-- Parameters that name a branch. -/
def branchParameters : List String := ["BRANCH", "BRANCH_NAME", "GIT_BRANCH"]

/-- The name of a branch without what names the remote. -/
def localBranch (name : String) : String :=
  Text.dropStart "origin/" (Text.dropStart "refs/remotes/" name)

/-- The first branch with a name. -/
def firstNamed : List Json → Except Fault (Option String)
  | [] => .ok none
  | entry :: rest => do
    let name ← member entry "name"
    if name.truthy then pure (some (localBranch name.text)) else firstNamed rest

/-- The branch that a revision names. -/
def revisionBranch (revision : Json) : Except Fault (Option String) := do
  match revision with
  | .object _ => firstNamed (← items (← member revision "branch"))
  | _ => pure none

/-- The branch that a parameter names. -/
def parameterBranch (parameters : List Parameter) : Option String :=
  (parameters.find? fun p =>
    branchParameters.contains (Text.upper p.name) && p.value != "").map (·.value)

/-- The branch of a build. -/
def branchOf (actions : Json) (parameters : List Parameter) : Except Fault Json := do
  match ← revisionBranch (← actionValue actions "lastBuiltRevision") with
  | some name => pure (.str name)
  | none => pure (Json.ofOption ((parameterBranch parameters).map .str))

/-- The last build of a job. -/
structure LastBuild where
  number : Json := .null
  url : Json := .null
  result : Json := .null
  building : Bool := false
  startedAt : Json := .null
  duration : Json := .null
  estimate : Json := .null
  queueTime : Json := .null
  parameters : List Parameter := []
  branch : Json := .null

/-- The last build in the reply about a job; all parts are null when there is none. -/
def LastBuild.ofReply (reply : Json) : Except Fault LastBuild := do
  let last ← member reply "lastBuild"
  if !last.truthy then pure {}
  else
    let actions ← member last "actions"
    let parameters ← parametersOf actions
    let queueTime ← actionValue actions "queuingDurationMillis"
    let branch ← branchOf actions parameters
    pure {
      number := last.field "number"
      url := last.field "url"
      result := last.field "result"
      building := (last.field "building").truthy
      startedAt := last.field "timestamp"
      duration := last.field "duration"
      estimate := last.field "estimatedDuration"
      queueTime, parameters, branch }

/-- One build. -/
structure Build where
  number : Json := .null
  url : Json := .null
  result : Json := .null
  building : Bool := false
  startedAt : Json := .null
  duration : Json := .null
  parameters : List Parameter := []

/-- The build in the reply about it; its address is the one asked for unless the
reply says otherwise. -/
def Build.ofReply (asked : Json) (reply : Json) : Except Fault Build := do
  let number ← member reply "number"
  let parameters ← parametersOf (reply.field "actions")
  pure {
    number
    url := (reply.field "url").orElse asked
    result := reply.field "result"
    building := (reply.field "building").truthy
    startedAt := reply.field "timestamp"
    duration := reply.field "duration"
    parameters }

end BuildDesk.Server
