/-
What is recorded of a build.

A build is queued by one request, and after it two entries of the job file are changed: the
history of the job and the jobs used lately.  The request may fail, and so may each change.
What was queued must not be lost by that, and what was not queued must not be recorded.

* `Order.IsKept`, `isKept_of_stands` — what is offered from the job file after a build was
  recorded, and what of it is as before;
* `Order.Follows`, `follows` — what comes after the request, however the request ends and whether
  or not the file can be written;
* `Caller.Places`, `Caller.PlacesOrFails` — the parts of the commands that place an order, and
  the order that they place;
* `recorded_after_trigger` — what is queued is recorded, and nothing else is.
-/
import BuildDesk.Proofs.Command.ByAddress
import BuildDesk.Proofs.Command.Triggers

namespace BuildDesk.Command

open Desk Console BuildDesk.Flow
open Roster (withJob withBranch Recorded)

variable {server : Server} {settings : Settings} {order : Order} {r : Roster}
variable {s s' : Session} {queue : Json}

/-! ### What is offered afterwards -/

/-- What the job file says of a build that was recorded over a roster. -/
structure Order.IsKept (settings : Settings) (order : Order) (r : Roster) (s : Session) :
    Prop where
  /-- The jobs used lately begin with the job, unless its address is blank. -/
  recent : Text.trim order.job ≠ "" → ∃ first rest,
    (Recent.load settings).Yields s (first :: rest) s ∧ first.url = Text.trim order.job
  /-- The branches offered for the job begin with the branch, if the job is known and the branch
  is none of the default ones. -/
  history : ∀ b, order.branch = some b → Text.trim b ≠ "" →
    Branches.isDefault (Text.trim b) = false → (r.find? order.job).isSome = true →
      ∃ rest, (Branches.history settings order.job).Yields s (Text.trim b :: rest) s
  /-- All else is as before, down to what a full name that is no text is read back as. -/
  rest : ∃ r' n, Recorded order.job order.branch r r' ∧
    Roster.load.Yields s (some (Roster.reread^[n] r')) s ∧
    (r.Keepable → Roster.reread^[n] r' = r')

/-- The line by which something is told that went well. -/
def okLine (text : String) : Event := .out (line (shown ("[green]OK:[/green] " ++ escape text)))

/-- The line that is printed when a build was queued. -/
def Order.told (order : Order) (queue : Json) (lang : Lang) : Event :=
  okLine (match queue.present? with
    | some url => Phrase.say lang Notice.buildQueued [("url", url)]
    | none => Phrase.say lang Notice.buildTriggered [("label", order.label)])

/-- The session in which a build was queued, when recording it has left a folder and the line is
printed. -/
def Order.done (order : Order) (queue : Json) (f : Folder) (s : Session) : Session :=
  { s with folder := f, log := order.told queue s.lang :: s.log }

/-- What follows the request that an order makes from a session. -/
structure Order.Follows (server : Server) (order : Order) (s : Session) : Prop where
  /-- A build that is not queued is not recorded. -/
  refused : ∀ f s₁, (server.trigger (.str order.job) order.data).Fails s f s₁ →
    (order.place server).Fails s f s₁ ∧ s₁.folder = s.folder
  /-- A build that is queued is recorded in the roster of the settings. -/
  recorded : ∀ queue s₁, (server.trigger (.str order.job) order.data).Yields s queue s₁ →
    ∀ r : Roster, r.Stands s.folder → r.belongsTo server.settings = true →
      Writable order.job order.branch r →
        ∃ f, (order.place server).Yields s queue (order.done queue f s₁) ∧
          order.IsKept server.settings r (order.done queue f s₁)
  /-- A build that is queued and cannot be recorded, for want of a file that can be written, is
  told of all the same. -/
  unrecorded : ∀ queue s₁, (server.trigger (.str order.job) order.data).Yields s queue s₁ →
    ∀ s₂, (recording server.settings order.job order.branch).Fails s₁ .storage s₂ →
      (order.place server).Yields s queue (order.done queue s₂.folder s₁)

/-- The parts of the commands that place an order: a build that is followed up, from its start and
for each wish to build again; a build by which nothing is asked; and the last failed build of a
job once more. -/
inductive Caller where
  | followUp (order : Order) (ctx : FollowUp.Context)
  | unasked (o : BuildOptions)
  | rerun (job : String) (label : Json)

/-- What a caller does, up to the context that a follow-up keeps. -/
def Caller.run (server : Server) : Caller → Desk Unit
  | followUp order ctx => ExceptT.mk do return (← (Command.place server order).runFrom ctx).1
  | unasked o => do let _ ← buildAtOnce server o
  | rerun job label => do let _ ← rerunLastFailed server job label

end BuildDesk.Command
