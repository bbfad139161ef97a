/-
A session: a run of the program against a script of the outside.

The script holds the answers to prompts, the replies of the server and the
results of actions, each in order, and says which sleep is interrupted.  A run
takes from the script, changes the job file and the clock, and logs all it does.
Whatever a run does is a function of the session it starts from, so a statement
about all scripts is a statement about all users and all servers.

Main definitions:
* `Event` — what a run does to the outside;
* `Answer`, `Response`, `ActionScript` — what the outside gives;
* `Session`, `Desk` — the state of a run, and runs that may end in a fault; the
  state stays as it is when they do;
* `Desk.emit`, `Desk.ask`, `Desk.exchange`, `Desk.pause` — the steps.
-/
import BuildDesk.Fault
import BuildDesk.Folder

namespace BuildDesk

/-- A request to the server. -/
structure Request where
  method : String
  url : String
  timeout : Json
  headers : List (Json × Json) := []
  params : List (String × Json) := []
  data : List (String × Json) := []

/-- What a run does to the outside. -/
inductive Event
  | select (message : Json) (options : List (Json × Json))
  | confirm (message initial : Json)
  | text (message placeholder initial : Json)
  | http (request : Request)
  | sleep (seconds : Float)
  | out (text : String)
  | err (text : String)
  | table (title : String) (header : List String) (rows : List (List String))
  | rule (title : String)
  | status (text : String)
  | start (flow state : String)
  | step (flow state event target : String)
  | action (name : String) (url : Option String)
  | handler (name : String) (value : Option Json)

/-- An answer to a prompt; null cancels the prompt. -/
inductive Answer
  | value (v : Json)
  | interrupt

/-- The body of a reply. -/
inductive Body
  | json (v : Json)
  | text (s : String)

/-- A reply of the server. -/
structure Reply where
  status : Json := .int 200
  body : Body := .json (.object [])
  headers : List (String × Json) := []

/-- What happens to a request, and how long it takes. -/
inductive Response
  | reply (r : Reply) (seconds : Float)
  | unreachable (message : String) (seconds : Float)
  | interrupt (seconds : Float)

/-- What an action of a script comes to. -/
inductive ActionScript
  | result (v : Json)
  | fault (f : Fault)

/-- The state of a run. -/
structure Session where
  lang : Lang := .en
  /-- Wall clock in seconds since 1970. -/
  now : Int := 0
  /-- Seconds since the start of the run. -/
  clock : Float := 0.0
  answers : List Answer := []
  responses : List Response := []
  results : List ActionScript := []
  /-- The sleep that is interrupted, counted from the next one as 1; 0 for none. -/
  interruptedSleep : Nat := 0
  /-- The header that changing requests carry, once the server has named it. -/
  crumb : Option (Json × Json) := none
  folder : Folder := {}
  /-- Events, the latest first. -/
  log : List Event := []

/-- A run that takes from a session and may end in a fault. -/
abbrev Desk (α : Type) := ExceptT Fault (StateM Session) α

namespace Desk

/-- Ends the run with a complaint. -/
def complain {α : Type} (c : Complaint) : Desk α := throw (.complaint c)

/-- A pure computation as a step of a run. -/
def ofExcept {α : Type} (e : Except Fault α) : Desk α := ExceptT.mk (pure e)

/-- Logs an event. -/
def emit (e : Event) : Desk Unit := modify fun s => { s with log := e :: s.log }

/-- The language of the session. -/
def lang : Desk Lang := do return (← get).lang

/-- A message in the language of the session. -/
def say (p : Phrase) (args : Arguments) : Desk String := do
  return Phrase.say (← lang) p args

/-- Ends the run with a message in the language of the session. -/
def refuse {α : Type} (message : Notice) (args : Arguments) (hint : Option Notice) : Desk α := do
  complain (.spoken (← lang) message args hint)

/-- Shows a prompt and takes the answer to it. -/
def ask (prompt : Event) : Desk Json := do
  emit prompt
  match (← get).answers with
  | [] => throw (.scriptEnd .answers)
  | answer :: rest =>
    modify fun s => { s with answers := rest }
    match answer with
    | .value v => pure v
    | .interrupt => throw .interrupted

/-- Moves the clock on. -/
def advance (seconds : Float) : Desk Unit := modify fun s => { s with clock := s.clock + seconds }

/-- Sends a request and takes the reply to it. -/
def exchange (r : Request) : Desk Reply := do
  emit (.http r)
  match (← get).responses with
  | [] => throw (.scriptEnd .replies)
  | response :: rest =>
    modify fun s => { s with responses := rest }
    match response with
    | .reply reply seconds => advance seconds; pure reply
    | .unreachable message seconds =>
      advance seconds
      complain (.call (.unreachable r.method r.url message))
    | .interrupt seconds => advance seconds; throw .interrupted

/-- Sleeps; an interrupted sleep ends the run and takes no time. -/
def pause (seconds : Float) : Desk Unit := do
  emit (.sleep seconds)
  let left := (← get).interruptedSleep
  modify fun s => { s with interruptedSleep := left - 1 }
  if left == 1 then throw .interrupted
  advance seconds

/-- Takes the result of the next action of the script. -/
def act (name : String) (url : Option String) : Desk Json := do
  emit (.action name url)
  match (← get).results with
  | [] => throw (.scriptEnd .actions)
  | result :: rest =>
    modify fun s => { s with results := rest }
    match result with
    | .result v => pure v
    | .fault f => throw f

/-- The clock of the run. -/
def clock : Desk Float := do return (← get).clock

/-- Runs a part and, when it complains, goes on with what `handle` makes of the
complaint; other faults end the run. -/
def rescue {α : Type} (part : Desk α) (handle : Complaint → Desk α) : Desk α :=
  tryCatch part fun
    | .complaint c => handle c
    | f => throw f

end Desk
end BuildDesk
