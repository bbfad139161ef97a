/-
Waiting for a build.

A build is looked at again and again, with a pause between two looks, until it has
finished or the time is up.  A build in the queue is waited for first; without an
address or a place in the queue the last build of the job is meant.

Main definitions:
* `Target` — what is waited for;
* `Pace` — the pause between two looks, and when to give up;
* `untilFinished` — the finished build, or nothing when the time is up;
* `Waited`, `Waited.result`, `Waited.exitCode` — what waiting comes to;
* `wait` — waits and reports.
-/
import BuildDesk.Command.Jobs

namespace BuildDesk.Command

open Console Server

/-- What is waited for: a build of a job, by its own address or its place in the
queue when they are known. -/
structure Target where
  job : String
  label : Json
  queue : Json := .null
  build : Option Json := none

/-- The pause between two looks, and when to give up. -/
structure Pace where
  pause : Quantity := .real Settings.pollSeconds
  limit : Option Quantity := none
  started : Float

/-- The time is up. -/
def Pace.isOver (pace : Pace) : Desk Bool := do
  match pace.limit with
  | none => pure false
  | some limit => return limit.reachedBy ((← Desk.clock) - pace.started)

/-- Pauses between two looks. -/
def Pace.rest (pace : Pace) : Desk Unit := do
  match pace.pause.toFloat? with
  | some seconds => Desk.pause seconds
  | none => throw .tooLarge

/-- Looks again and again for something.  Every look takes a reply of the script, so
the number of looks is bounded by the replies that are left and one more. -/
def lookFor {α : Type} (pace : Pace) (look : Desk (Option α)) : Nat → Desk (Option α)
  | 0 => throw .stalled
  | looks + 1 => do
    match ← look with
    | some found => pure (some found)
    | none =>
      if ← pace.isOver then pure none
      else
        pace.rest
        lookFor pace look looks

/-- Looks for something until it is there or the time is up. -/
def await {α : Type} (pace : Pace) (look : Desk (Option α)) : Desk (Option α) := do
  lookFor pace look ((← get).responses.length + 1)

/-- The address of the last build of a job, which has to have one. -/
def lastBuildUrl (server : Server) (job : String) (label : Json) : Desk Json := do
  let last ← server.lastBuild (.str job)
  if !last.url.truthy then Desk.refuse .noBuilds [("label", label)] none
  pure last.url

/-- The address of the build that is waited for, once it is known. -/
def locate (server : Server) (target : Target) (pace : Pace) : Desk (Option Json) := do
  match target.build.bind Json.present?, target.queue.present? with
  | some url, _ => pure (some url)
  | none, some queue => await pace (server.queuedBuild queue)
  | none, none => return some (← lastBuildUrl server target.job target.label)

/-- The build at an address when it has finished. -/
def finished (server : Server) (url : Json) : Desk (Option Build) := do
  let build ← server.build url
  pure (if build.building then none else some build)

/-- The finished build that was waited for; nothing when the time is up. -/
def untilFinished (server : Server) (target : Target) (pace : Pace) : Desk (Option Build) := do
  match ← locate server target pace with
  | none => pure none
  | some url => await pace (finished server url)

/-- What waiting comes to. -/
inductive Waited
  | finished (result number url : Json)
  | timedOut (url : Json)
  | cancelled (url : Json)

/-- The result of waiting in a word, or the result of the build. -/
def Waited.result : Waited → Json
  | finished result _ _ => result
  | timedOut _ => "TIMEOUT"
  | cancelled _ => "CANCELLED"

/-- The number of the build, known once it has finished. -/
def Waited.number : Waited → Json
  | finished _ number _ => number
  | _ => .null

/-- The address of the build. -/
def Waited.url : Waited → Json
  | finished _ _ url => url
  | timedOut url => url
  | cancelled url => url

/-- The time was up. -/
def Waited.isTimedOut : Waited → Bool
  | timedOut _ => true
  | _ => false

/-- The user interrupted the wait. -/
def Waited.isCancelled : Waited → Bool
  | cancelled _ => true
  | _ => false

/-- The exit code of waiting. -/
def Waited.exitCode : Waited → Nat
  | finished result _ _ => if result.isText "SUCCESS" then 0 else 1
  | timedOut _ => 124
  | cancelled _ => 130

/-- Shows that a build is waited for, and waits. -/
def watchClosely (server : Server) (target : Target) (pace : Pace) : Desk (Option Build) := do
  Console.showStatus (← Desk.say Notice.watchWaiting [("label", target.label)])
  untilFinished server target pace

/-- Reports a finished build. -/
def reportFinished (label : Json) (build : Build) : Desk Waited := do
  let result := build.result.orElse (.str "UNKNOWN")
  let message ← Desk.say Notice.buildFinished
    [("label", label), ("number", build.number), ("result", result)]
  if result.isText "SUCCESS" then printOk message else printError message
  pure (.finished result build.number build.url)

/-- Reports that the time is up. -/
def reportTimeout (target : Target) (pace : Pace) : Desk Waited := do
  let passed := ((← Desk.clock) - pace.started) * 1000.0
  let text ← Desk.ofExcept (Report.duration (.real passed))
  printError (← Desk.say Notice.watchTimedOut [("label", target.label), ("elapsed", .str text)])
  pure (.timedOut (Json.ofOption target.build))

/-- Waits for a build and reports how it ended.  When the user interrupts the wait, the
build goes on. -/
def wait (server : Server) (target : Target) (pause : Option Quantity)
    (limit : Option Quantity) : Desk Waited := do
  let pace : Pace :=
    { pause := pause.getD (.real Settings.pollSeconds), limit, started := ← Desk.clock }
  try
    match ← watchClosely server target pace with
    | some build => reportFinished target.label build
    | none => reportTimeout target pace
  catch
    | .interrupted =>
      printWarning (← Desk.say Notice.watchCancelled [])
      pure (.cancelled (Json.ofOption target.build))
    | f => throw f

end BuildDesk.Command
