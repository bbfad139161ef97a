/-
Single actions as commands: wait for a build, show its log, stop it, build again.

Main definitions:
* `patience` — a duration that the user gives, in seconds;
* `waitFor`, `log`, `stop`, `rerun` — the commands.
-/
import BuildDesk.Command.Action
import BuildDesk.Command.Target
import BuildDesk.Text.Digit

namespace BuildDesk.Command

open Console BuildDesk.Flow

/-! ### Durations -/

/-- The units of a duration: a name in lower case and the seconds in it. -/
inductive TimeUnit
  | millisecond
  | second
  | minute
  | hour
  deriving DecidableEq, Repr

/-- The letters that units are written with, in either case; one of them stands for no
unit. -/
def isUnitLetter (c : Char) : Bool :=
  ['m', 's', 'h', 'M', 'S', 'H', '\u017f'].contains c

/-- The unit that a text names, when it is written with the letters of units; none of a
text that only looks like one. -/
def unitOf (text : String) : Except Fault TimeUnit :=
  match Text.lower text with
  | "" | "ms" => .ok .millisecond
  | "s" => .ok .second
  | "m" => .ok .minute
  | "h" => .ok .hour
  | _ => .error .noMember

/-- The letters behind the digits of a duration are shaped like a unit: one letter, or
the two of milliseconds. -/
def isUnitShaped (letters : List Char) : Bool :=
  match letters with
  | [] => true
  | [c] => isUnitLetter c
  | [c, d] => ['m', 'M'].contains c && ['s', 'S', '\u017f'].contains d
  | _ => false

/-- A duration in some unit, in seconds. -/
def inSeconds (n : Nat) : TimeUnit → Except Fault Quantity
  | .millisecond =>
    let x := Number.scaled n 0
    if x.isInf then .error .tooLarge else .ok (.real (x * 0.001))
  | .second => .ok (.whole n)
  | .minute => .ok (.whole (n * 60))
  | .hour => .ok (.whole (n * 3600))

/-- The number that digits stand for. -/
def countOf (digits : List Char) : Except Fault Nat :=
  match Text.natOfDigits? digits with
  | .ok n => .ok n
  | .error _ => .error .badValue

/-- A duration that the user gives, in seconds; a blank one means the standard. -/
def patience (value : Option String) (option : String) (standard : Option Quantity) :
    Desk (Option Quantity) := do
  let text := Text.trim (value.getD "")
  if text == "" then return standard
  let digits := text.toList.takeWhile Text.isDigit
  let letters := text.toList.dropWhile Text.isDigit
  let refuse : Desk (Option Quantity) :=
    Desk.refuse .invalidDuration [("option", .str option), ("value", .str text)]
      (some .invalidDurationHint)
  if digits.isEmpty || !isUnitShaped letters then refuse
  else
    let n ← Desk.ofExcept (countOf digits)
    if n == 0 then refuse
    else return some (← Desk.ofExcept (do inSeconds n (← unitOf (String.ofList letters))))

/-! ### The commands -/

/-- What the user says about a build: a job, or the build itself. -/
structure BuildWish where
  wish : Wish := {}
  build : Option String := none
  queue : Option String := none

/-- A build and a job exclude each other. -/
def BuildWish.check (w : BuildWish) : Desk Unit := do
  if (given w.build).isSome
      && ((given w.wish.search).isSome || (given w.wish.url).isSome || (given w.queue).isSome) then
    Desk.refuse .buildUrlAndTarget [] (some .buildUrlAndTargetHint)

/-- Waits for a build; nothing when the user picks no job. -/
def waitFor (server : Server) (interactive : Bool) (w : BuildWish)
    (interval limit : Option String) : Desk (Option Waited) := do
  w.wish.check
  w.check
  let pause ← patience interval "interval" (some (.real Settings.pollSeconds))
  let limit ← patience limit "timeout" none
  match (given w.build).orElse fun _ => given w.queue with
  | some address =>
    let label := Text.trim address
    let target : Target := {
      job := label, label := .str label, queue := (w.queue.map .str).getD .null
      build := w.build.map .str }
    return some (← wait server target pause limit)
  | none =>
    match ← w.wish.target server interactive with
    | none => pure none
    | some (job, label) => return some (← wait server { job, label } pause limit)

/-- Shows the console output of a build or of the last build of a job. -/
def log (server : Server) (interactive : Bool) (w : BuildWish) : Desk Unit := do
  w.check
  match given w.build with
  | some address =>
    let url := Text.trim address
    let _ ← showLog server url (.str url) (some (.str url))
  | none =>
    if let some (job, label) ← w.wish.target server interactive then
      let _ ← showLog server job label none

/-- Stops the running build of a job; where somebody can be asked, after a question. -/
def stop (server : Server) (interactive : Bool) (wish : Wish) : Desk Unit := do
  if let some (job, label) ← wish.target server interactive then
    let agree (text : String) := confirm server.settings text true
    let _ ← cancel server job label (if interactive then some agree else none)

/-- Builds a job once more with the inputs of its last failed build. -/
def rerun (server : Server) (interactive : Bool) (wish : Wish) : Desk Unit := do
  if let some (job, label) ← wish.target server interactive then
    let _ ← rerunLastFailed server job label

end BuildDesk.Command
