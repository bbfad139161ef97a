/-
The status of a job: its last build in a few lines.

The server may report values of any kind.  Texts are shown as they are; times and
durations have to be numbers.

Main definitions:
* `parameterLines` — parameters, four on a line;
* `elapsed` — how long a build runs or took;
* `summary`, `details` — the lines about the last build.
-/
import BuildDesk.Json.Display
import BuildDesk.Report.Duration
import BuildDesk.Server.Build

namespace BuildDesk.Report

open Server (LastBuild Parameter)

/-- The number of parameters on a line. -/
def perLine : Nat := 4

/-- Groups of at most `n + 1` items, in order. -/
def groups {α : Type} (n : Nat) : List α → List (List α)
  | [] => []
  | x :: rest => (x :: rest.take n) :: groups n (rest.drop n)
  termination_by items => items.length
  decreasing_by simp only [List.length_cons, List.length_drop]; omega

/-- A parameter; runs of blanks in its value become one space. -/
def parameterText (p : Parameter) : String := p.name ++ "=" ++ Text.trim (Text.squash p.value)

/-- The lines about parameters. -/
def parameterLines (parameters : List Parameter) : List String :=
  let label := "Params: "
  let indent := String.ofList (List.replicate label.length ' ')
  let lines := (groups (perLine - 1) (parameters.map parameterText)).map (", ".intercalate ·)
  match lines with
  | [] => []
  | first :: others => (label ++ first) :: others.map (indent ++ ·)

/-- The number that a part of a report is. -/
def quantity (v : Json) : Except Fault Quantity := (Quantity.ofJson? v).elim (.error .wrongKind) .ok

/-- The milliseconds from a point in time to the present one, none when it lies ahead. -/
def since (start now : Quantity) : Except Fault Quantity :=
  match start, now with
  | .whole m, .whole n => .ok (.whole (max 0 (n - m)))
  | start, now =>
    match start.toFloat?, now.toFloat? with
    | some past, some present =>
      let passed := present - past
      .ok (if 0 < passed then .real passed else .whole 0)
    | _, _ => .error .tooLarge

/-- How long a build has been running, or how long it took. -/
def elapsed (last : LastBuild) (now : Quantity) : Except Fault Quantity := do
  if last.building && last.startedAt.truthy then
    let start ← quantity last.startedAt
    if start.isPositive then return ← since start now
  quantity (last.duration.orElse (.int 0))

/-- The first line about the last build of a job. -/
def summary (label : Json) (last : LastBuild) : String :=
  let result := if last.building then "RUNNING" else (last.result.orElse (.str "UNKNOWN")).text
  "Last build for " ++ label.text ++ ": #" ++ last.number.text ++ " " ++ result

/-- When the build started. -/
def startedPart (last : LastBuild) : Except Fault (List String) := do
  if last.startedAt.isNull then return []
  return ["Started: " ++ (← localTime (← quantity last.startedAt))]

/-- How long the build was queued. -/
def queuePart (last : LastBuild) : Except Fault (List String) := do
  if !last.queueTime.truthy then return []
  return ["Queue: " ++ (← duration (← quantity last.queueTime))]

/-- How long the build took or runs; with an estimate when it runs. -/
def elapsedPart (last : LastBuild) (now : Quantity) : Except Fault (List String) := do
  let time ← elapsed last now
  if !time.isPositive then return []
  let shown := (if last.building then "Elapsed: " else "Duration: ") ++ (← duration time)
  if !(last.building && last.estimate.truthy) then return [shown]
  return [shown ++ " (est " ++ (← duration (← quantity last.estimate)) ++ ")"]

/-- The lines about the last build, with its address. -/
def details (last : LastBuild) (url : Json) (now : Quantity) : Except Fault String := do
  let timing := (← startedPart last) ++ (← queuePart last) ++ (← elapsedPart last now)
  let timingLines := if timing.isEmpty then [] else [" | ".intercalate timing]
  let branchLines := if last.branch.truthy then ["Branch: " ++ last.branch.text] else []
  pure ("\n".intercalate
    (("URL: " ++ url.text) :: timingLines ++ branchLines ++ parameterLines last.parameters))

end BuildDesk.Report
