/-
Jobs that were used lately.

The roster remembers the addresses of up to fifteen jobs, the latest first, no
two of them the same up to case.

Main definitions:
* `RecentJob` — an address with what it is shown as;
* `Recent.push`, `Recent.list` — the addresses;
* `Recent.record`, `Recent.load` — writing and reading the job file.
-/
import BuildDesk.Roster.Basic
import BuildDesk.Text.Distinct

namespace BuildDesk

/-- A job that was used lately. -/
structure RecentJob where
  url : String
  label : Json

namespace Recent

/-- The addresses with one moved or put to their front. -/
def push (url : String) (recent : List String) : List String :=
  let others := Text.without url (recent.filter fun u => Text.trim u != "")
  (Text.distinct (url :: others)).take Settings.maxRecent

/-- The addresses without blanks around them, each once. -/
def list (recent : List String) : List String :=
  Text.distinct ((recent.map Text.trim).filter (· != ""))

/-- The jobs used lately, each with what the roster shows it as. -/
def load (settings : Settings) : Desk (List RecentJob) := do
  match ← Roster.loadFor settings with
  | none => pure []
  | some r => pure ((list r.recent).map fun url => ⟨url, Job.labelOf r.jobs url⟩)

/-- Moves a job to the front of those used lately. -/
def record (settings : Settings) (url : String) : Desk Unit := do
  let address := Text.trim url
  if address != "" then
    let _ ← Roster.revise settings fun r => some { r with recent := push address r.recent }

end Recent
end BuildDesk
