/-
Branches that were built lately.

Each job of the roster remembers up to ten branches, the latest first, no two of
them the same up to case.  Three branches are always offered after those; they
are not offered for removal.

Main definitions:
* `Branches.push`, `Branches.removable` — the history of one job;
* `Branches.offered` — history and default branches;
* `Branches.record`, `Branches.forget` — changes to the job file.
-/
import BuildDesk.Roster.Basic
import BuildDesk.Text.Distinct

namespace BuildDesk.Branches

/-- One of the branches that are always offered. -/
def isDefault (branch : String) : Bool :=
  (Settings.defaultBranches.map Text.lower).contains (Text.lower branch)

/-- Names without blanks around them, and without those that are nothing but blanks. -/
def cleaned (names : List String) : List String := (names.map Text.trim).filter (· != "")

/-- A history with a branch moved or put to its front. -/
def push (branch : String) (history : List String) : List String :=
  (branch :: Text.without branch (cleaned history)).take Settings.maxBranches

/-- The branches of a history that may be removed. -/
def removable (history : List String) : List String :=
  Text.distinct ((cleaned history).filter fun b => !isDefault b)

/-- The branches that are offered for a history. -/
def withDefaults (history : List String) : List String :=
  Text.distinct (history ++ Settings.defaultBranches)

/-- The roster with a branch recorded for a job it knows. -/
def recorded (url branch : String) (r : Roster) : Option Roster :=
  (r.find? url).map fun _ =>
    { r with jobs := Roster.changeFirst url (fun j => { j with branches := push branch j.branches }) r.jobs }

/-- The roster with a branch forgotten, when the job has it. -/
def forgotten (url branch : String) (r : Roster) : Option Roster :=
  match r.find? url with
  | none => none
  | some job =>
    let kept := Text.without branch job.branches
    if kept.length == job.branches.length then none
    else some { r with jobs := Roster.changeFirst url (fun j => { j with branches := kept }) r.jobs }

/-- The branches of a job that may be removed, the latest first. -/
def history (settings : Settings) (url : String) : Desk (List String) := do
  match ← Roster.loadFor settings with
  | none => pure []
  | some r =>
    match r.find? url with
    | none => pure []
    | some job => pure (removable job.branches)

/-- The branches that are offered for a job. -/
def offered (settings : Settings) (url : String) : Desk (List String) := do
  return withDefaults (← history settings url)

/-- Moves a branch to the front of the history of a job. -/
def record (settings : Settings) (url branch : String) : Desk Unit := do
  let name := Text.trim branch
  if name != "" then
    let _ ← Roster.revise settings (recorded url name)

/-- Takes a branch out of the history of a job; says whether it was there. -/
def forget (settings : Settings) (url branch : String) : Desk Bool := do
  let name := Text.trim branch
  if name == "" || isDefault name then pure false
  else Roster.revise settings (forgotten url name)

end BuildDesk.Branches
