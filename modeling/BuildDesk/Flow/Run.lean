/-
Running flows.

A run visits one state after the other.  A router is left by the event that its
handler gives; a prompt is left by `esc` when it is cancelled, by the event of
its handler when it has one, and else by the event that the answer stands for.
The run ends when a transition leads out of the flow.

Main definitions:
* `Ending` — outcome and last state of a run;
* `eventAt` — the event that leaves a state;
* `Definition.go` — the run from a state, for a number of visits;
* `Definition.run` — a checked run whose number of visits is set by the script.
-/
import BuildDesk.Flow.Check

namespace BuildDesk.Flow

/-- How a run ended, and where. -/
structure Ending where
  outcome : Outcome
  state : String
  deriving DecidableEq, Repr

variable {κ : Type}

/-- Ends the run with a fault of the flow. -/
def Step.blame {α : Type} (f : FlowFault) : Step κ α := throw (.complaint (.flow f))

/-- A part of a prompt, computed from the present context. -/
def Step.project {α : Type} (p : Projection κ α) : Step κ α := do
  let ctx ← Step.context
  let lang ← Step.ofDesk Desk.lang
  Step.ofDesk (Desk.ofExcept (p lang ctx))

/-- The event that a handler gives. -/
def callHandler (d : Definition κ) (r : Registry κ) (state handler : String)
    (value : Option Json) : Step κ Json :=
  match r.find? handler with
  | some h => h.run value
  | none => Step.blame (.malformed d.id ["handler not registered: " ++ handler] (some state))

/-- Shows a prompt and takes its answer. -/
def showPrompt (d : Definition κ) (name : String) : Prompt κ → Step κ Json
  | .select message options => do
    let message ← Step.project message
    let options ← Step.project options
    Step.ofDesk (Desk.ask (.select message options))
  | .confirm message initial => do
    let message ← Step.project message
    let initial ← Step.project initial
    Step.ofDesk (Desk.ask (.confirm message initial))
  | .text message placeholder initial => do
    let message ← Step.project message
    let placeholder ← Step.project placeholder
    let initial ← Step.project initial
    Step.ofDesk (Desk.ask (.text message placeholder initial))
  | .odd kind message => do
    let _ ← Step.project message
    Step.blame (.malformed d.id ["unknown prompt type: " ++ kind] (some name))

/-- The event that an answer stands for when no handler takes it. -/
def defaultEvent (d : Definition κ) (name : String) (prompt : Prompt κ) (value : Json) :
    Step κ Json :=
  match prompt with
  | .confirm .. => pure (.str (if value.truthy then "confirm:yes" else "confirm:no"))
  | .select .. => pure (.str ("select:" ++ value.text))
  | .text .. => Step.blame (.malformed d.id ["text prompt requires on_select"] (some name))
  | .odd kind _ => Step.blame (.malformed d.id [kind ++ " prompt requires on_select"] (some name))

/-- The event that leaves a state with a prompt. -/
def promptEvent (d : Definition κ) (r : Registry κ) (name : String) (state : State κ)
    (prompt : Prompt κ) : Step κ Json := do
  let value ← showPrompt d name prompt
  if value.isNull then pure (.str "esc")
  else match state.onSelect with
    | some handler => callHandler d r name handler (some value)
    | none => defaultEvent d name prompt value

/-- The event that leaves a state. -/
def eventAt (d : Definition κ) (r : Registry κ) (name : String) (state : State κ) :
    Step κ Json :=
  match state.onEnter, state.prompt with
  | some handler, _ => callHandler d r name handler none
  | none, some prompt => promptEvent d r name state prompt
  | none, none =>
    Step.blame (.malformed d.id ["state has neither prompt nor on_enter"] (some name))

/-- Where an event leads from a state. -/
def follow (d : Definition κ) (name : String) (state : State κ) (event : Json) :
    Step κ String :=
  match event.asString? with
  | none => Step.blame (.unhandled d.id (some name) event)
  | some word =>
    match state.target? word with
    | none => Step.blame (.unhandled d.id (some name) event)
    | some target => do
      Step.ofDesk (Desk.emit (.step d.id name word target))
      pure target

/-- One visit: enters a state and gives what its event leads to. -/
def visit (d : Definition κ) (r : Registry κ) (name : String) : Step κ String :=
  match d.state? name with
  | none => Step.blame (.unknownState d.id name)
  | some state => do
    let event ← eventAt d r name state
    follow d name state event

/-- The run from a state.  It makes at most `visits` visits. -/
def Definition.go (d : Definition κ) (r : Registry κ) : Nat → String → Step κ Ending
  | 0, _ => throw .stalled
  | visits + 1, name => do
    let target ← visit d r name
    match Outcome.ofWord? target with
    | some outcome => pure ⟨outcome, name⟩
    | none => d.go r visits target

/-- The state in which a run starts. -/
def Definition.startState (d : Definition κ) (start : Option String) : String :=
  match start with
  | some name => if name == "" then d.initial else name
  | none => d.initial

/-- A run of a given number of visits. -/
def Definition.runFor (d : Definition κ) (r : Registry κ) (visits : Nat)
    (start : Option String) : Step κ Ending := do
  let name := d.startState start
  Step.ofDesk (Desk.emit (.start d.id name))
  d.go r visits name

/-- The number of visits that a run needs at most when no more than two routers
stand between two prompts. -/
def visitsFor (s : Session) : Nat := 3 * s.answers.length + 3

/-- A run of a checked flow.  Every third visit at least takes an answer from the
script, so the answers that are left bound the number of visits. -/
def Definition.run (d : Definition κ) (r : Registry κ) (start : Option String) :
    Step κ Ending := do
  Step.ofDesk (Desk.ofExcept (check d r))
  let session ← getThe Session
  d.runFor r (visitsFor session) start

/-- A run from a context, as a part of a command; the context it leaves comes with
its ending. -/
def Definition.runOn (d : Definition κ) (r : Registry κ) (ctx : κ) (start : Option String) :
    Desk (Ending × κ) :=
  ExceptT.mk do
    let (result, ctx) ← (d.run r start).runFrom ctx
    pure (result.map fun ending => (ending, ctx))

end BuildDesk.Flow
