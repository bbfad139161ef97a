/-
Interactive flows: tables of states.

A state either shows a prompt or is a router that a handler leaves at once.  What
happens in a state is named by an event, and the transitions of the state say
where each event leads: to another state or out of the flow, with one of six
outcomes.  The texts of prompts are projections of the context of the run.

Main definitions:
* `Outcome`, `ActionResult` — how runs and menu actions end;
* `Prompt`, `State`, `Definition` — the tables;
* `Step` — a part of a run with its context;
* `Handler`, `Registry` — the named handlers of a flow.
-/
import BuildDesk.Session

namespace BuildDesk.Flow

/-- How the run of a flow ends.  The words are reserved: no state may have one of
them as its name. -/
inductive Outcome
  | exitCommand
  | returnToCaller
  | returnToCallerRoot
  | again
  | root
  | complete
  deriving DecidableEq, Repr

/-- The word for an outcome. -/
def Outcome.word : Outcome → String
  | exitCommand => "exit_command"
  | returnToCaller => "return_to_caller"
  | returnToCallerRoot => "return_to_caller_root"
  | again => "repeat"
  | root => "root"
  | complete => "complete"

/-- All outcomes. -/
def Outcome.all : List Outcome :=
  [.exitCommand, .returnToCaller, .returnToCallerRoot, .again, .root, .complete]

/-- The outcome with a given word. -/
def Outcome.ofWord? (word : String) : Option Outcome := Outcome.all.find? (·.word == word)

/-- The word of an outcome. -/
def isReserved (word : String) : Bool := (Outcome.ofWord? word).isSome

theorem Outcome.ofWord?_word (o : Outcome) : Outcome.ofWord? o.word = some o := by
  cases o <;> rfl

/-- How a menu action ends; the word is the event that follows. -/
inductive ActionResult
  | ok
  | watchCancelled
  | error
  | root
  | exit
  deriving DecidableEq, Repr

/-- The word for the result of an action. -/
def ActionResult.word : ActionResult → String
  | ok => "action_ok"
  | watchCancelled => "watch_cancelled"
  | error => "action_error"
  | root => "root"
  | exit => "exit"

/-- The words of all results of actions. -/
def ActionResult.words : List String :=
  [ok, watchCancelled, error, root, exit].map ActionResult.word

/-- A text or another part of a prompt, computed from the context of the run in the
language of the session. -/
abbrev Projection (κ α : Type) := Lang → κ → Except Fault α

/-- An option of a select prompt: its value and its label. -/
abbrev Choice := Json × Json

/-- A prompt. -/
inductive Prompt (κ : Type)
  | select (message : Projection κ Json) (options : Projection κ (List Choice))
  | confirm (message initial : Projection κ Json)
  | text (message placeholder initial : Projection κ Json)
  /-- A prompt of a kind that cannot be shown. -/
  | odd (kind : String) (message : Projection κ Json)

/-- A state: a prompt, with or without a handler for its answers, or a router. -/
structure State (κ : Type) where
  prompt : Option (Prompt κ) := none
  onEnter : Option String := none
  onSelect : Option String := none
  root : Bool := false
  transitions : List (String × String)

/-- Where an event leads from a state. -/
def State.target? {κ : Type} (state : State κ) (event : String) : Option String :=
  state.transitions.lookup event

/-- A flow: its states in order. -/
structure Definition (κ : Type) where
  id : String
  initial : String
  states : List (String × State κ)

namespace Definition

variable {κ : Type}

/-- The state with a given name. -/
def state? (d : Definition κ) (name : String) : Option (State κ) := d.states.lookup name

/-- The names of the states where a run may be taken up again. -/
def roots (d : Definition κ) : List String := (d.states.filter (·.2.root)).map (·.1)

end Definition

/-- A part of a run: it may change the context of the run, use the session, and
end in a fault, which keeps both as they are. -/
abbrev Step (κ α : Type) := ExceptT Fault (StateT κ (StateM Session)) α

namespace Step

variable {κ α : Type}

/-- A part that leaves the context alone. -/
def ofDesk (part : Desk α) : Step κ α := ExceptT.mk (StateT.lift part.run)

/-- The context of the run. -/
def context : Step κ κ := getThe κ

/-- Changes the context of the run. -/
def change (f : κ → κ) : Step κ Unit := modifyThe κ f

/-- Runs a part from a context; the context it leaves comes with its result. -/
def runFrom (part : Step κ α) (ctx : κ) : StateM Session (Except Fault α × κ) := part.run.run ctx

end Step

/-- A handler: it takes the answer to a prompt, or nothing when its state is entered as
a router, and gives the event that follows.  Some answers, where none counts as null,
settle the event at once, whatever the context is; for others the context is looked at.
A handler may declare the only events that it gives. -/
structure Handler (κ : Type) where
  emits : Option (List String) := none
  atOnce : Json → Option (Desk String) := fun _ => none
  otherwise : Option Json → Step κ Json

/-- The event that a handler gives. -/
def Handler.run {κ : Type} (h : Handler κ) (value : Option Json) : Step κ Json :=
  match h.atOnce (value.getD .null) with
  | some event => Step.ofDesk (Json.str <$> event)
  | none => h.otherwise value

/-- Named handlers. -/
abbrev Registry (κ : Type) := List (String × Handler κ)

namespace Registry

variable {κ : Type}

/-- The handler with a given name. -/
def find? (r : Registry κ) (name : String) : Option (Handler κ) := r.lookup name

/-- A name is taken. -/
def contains (r : Registry κ) (name : String) : Bool := (r.find? name).isSome

/-- The names, in order of registration. -/
def names (r : Registry κ) : List String := r.map (·.1)

/-- The events that a handler declares. -/
def emits? (r : Registry κ) (name : String) : Option (List String) :=
  (r.find? name).bind Handler.emits

/-- Adds a handler under a name that is not taken. -/
def register (r : Registry κ) (name : String) (h : Handler κ) : Except Fault (Registry κ) :=
  if r.contains name then .error (.registered name) else .ok (r ++ [(name, h)])

end Registry
end BuildDesk.Flow
