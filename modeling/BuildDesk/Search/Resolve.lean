/-
From a search to jobs.

Main definitions:
* `resolve` — the jobs that a search may mean: the best match and all as good;
* `sortByName` — jobs in the order of their display names;
* `filter` — the jobs to list for a search;
* `unique` — the one job of a list, or a complaint.
-/
import BuildDesk.Json.Order
import BuildDesk.Search.Rank

namespace BuildDesk.Search

/-- The matches that a score makes worth showing. -/
def isMatch (m : Ranked) : Bool := Settings.minScore ≤ m.score

/-- A match that is about as good as the best one. -/
def isClose (best : Nat) (m : Ranked) : Bool :=
  isMatch m && (best : Int) - m.score ≤ Settings.ambiguityGap

/-- The jobs that a search may mean.  A single job is meant without doubt. -/
def resolve (query : String) (jobs : List Job) : Except Fault (List Job) := do
  let trimmed := Text.trim query
  if trimmed == "" then throw (.complaint .jobNameRequired)
  match ← rank trimmed jobs with
  | [] => throw (.complaint (.noJobsMatch trimmed))
  | best :: others =>
    if !isMatch best then throw (.complaint (.noJobsMatch trimmed))
    else
      let close := (best :: others).filter (isClose best.score)
      pure ((close.map (·.job)).take Settings.maxOptions)

/-- The display name of a job stands before that of another. -/
def isNamedBefore (a b : Job) : Except Fault Bool :=
  (a.displayName.below? b.displayName).elim (.error .wrongKind) .ok

/-- The jobs in the order of their display names.  Names that are no text have to have
an order. -/
def sortByName (jobs : List Job) : Except Fault (List Job) :=
  if jobs.all fun j => j.displayName.asString?.isSome then
    .ok (jobs.mergeSort fun a b => Text.noLater a.displayName.text b.displayName.text)
  else Order.sort isNamedBefore jobs

/-- The jobs to list: all of them without a search, and else the matches. -/
def filter (jobs : List Job) (search : String) : Except Fault (List Job) :=
  if search == "" then sortByName jobs
  else (rank search jobs).map fun ranked => (ranked.filter isMatch).map (·.job)

/-- The one job of a list. -/
def unique (query : String) : List Job → Except Fault Job
  | [job] => .ok job
  | jobs =>
    match jobs.mapM fun j => j.displayName.asString? with
    | some names => .error (.complaint (.ambiguous (Text.trim query) names))
    | none => .error .wrongKind

end BuildDesk.Search
