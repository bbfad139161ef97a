/-
Checking flows.

A flow is checked before it runs: all its transitions lead somewhere, every state
is either a prompt or a router, a prompt can be left, and every event that can
arise has a transition.  All problems are found in one pass, in the order of the
states.

Main definitions:
* `Problem`, `Problem.text` — what can be wrong with a flow;
* `stateProblems`, `problems` — the problems of a state and of a flow.
-/
import BuildDesk.Flow.Basic
import BuildDesk.Text.Order

namespace BuildDesk.Flow

/-- What can be wrong with a flow. -/
inductive Problem
  | initialUndefined (state : String)
  | reserved (state : String)
  | unknownTarget (state event target : String)
  | neither (state : String)
  | both (state : String)
  | routerSelects (state : String)
  | unregistered (state handler : String)
  | undeclared (state handler : String)
  | uncovered (state event handler : String)
  | noEscape (state : String)
  | textNeedsHandler (state : String)
  | confirmEvents (state : String) (events : List String)
  | selectEvents (state : String) (events : List String)
  deriving DecidableEq, Repr

/-- A problem in words. -/
def Problem.text : Problem → String
  | initialUndefined state => "initial state '" ++ state ++ "' is not defined"
  | reserved state => "state id '" ++ state ++ "' is a reserved terminal outcome"
  | unknownTarget state event target =>
    state ++ ": transition '" ++ event ++ "' targets unknown state '" ++ target ++ "'"
  | neither state => state ++ ": state has neither prompt nor on_enter"
  | both state => state ++ ": state has both prompt and on_enter"
  | routerSelects state => state ++ ": router state cannot have on_select"
  | unregistered state handler => state ++ ": handler not registered: " ++ handler
  | undeclared state handler =>
    state ++ ": router handler " ++ handler ++ " does not declare its events"
  | uncovered state event handler =>
    state ++ ": no transition for event '" ++ event ++ "' emitted by " ++ handler
  | noEscape state => state ++ ": prompt state has no 'esc' transition"
  | textNeedsHandler state => state ++ ": text prompt requires on_select"
  | confirmEvents state events =>
    state ++ ": confirm prompt without on_select uses non-default events "
      ++ Json.quotedList events
  | selectEvents state events =>
    state ++ ": select prompt without on_select uses non-default events "
      ++ Json.quotedList events

/-- Names in order. -/
def sorted (names : List String) : List String := names.mergeSort Text.noLater

/-- The events of a confirm prompt without a handler. -/
def confirmDefaults : List String := ["esc", "confirm:yes", "confirm:no"]

variable {κ : Type}

/-- A state has a transition for an event. -/
def State.handles (state : State κ) (event : String) : Bool := (state.target? event).isSome

/-- What is wrong with the use of a handler in a state; a router's handler has to
declare its events. -/
def handlerProblems (r : Registry κ) (name : String) (state : State κ) (handler : String)
    (isRouter : Bool) : List Problem :=
  match r.find? handler with
  | none => [.unregistered name handler]
  | some h =>
    match h.emits with
    | none => if isRouter then [.undeclared name handler] else []
    | some events =>
      (sorted (events.eraseDups.filter fun e => !state.handles e)).map fun e =>
        .uncovered name e handler

/-- What is wrong with the events of a prompt without a handler. -/
def defaultProblems (name : String) (state : State κ) : Prompt κ → List Problem
  | .text .. => [.textNeedsHandler name]
  | .confirm .. =>
    let extra := sorted ((state.transitions.map (·.1)).filter fun e => !confirmDefaults.contains e)
    if extra.isEmpty then [] else [.confirmEvents name extra]
  | .select .. =>
    let extra := sorted ((state.transitions.map (·.1)).filter fun e =>
      e != "esc" && !Text.beginsWith "select:" e)
    if extra.isEmpty then [] else [.selectEvents name extra]
  | .odd .. => []

/-- Transitions that lead nowhere. -/
def targetProblems (d : Definition κ) (name : String) (state : State κ) : List Problem :=
  state.transitions.filterMap fun (event, target) =>
    if isReserved target || (d.state? target).isSome then none
    else some (.unknownTarget name event target)

/-- What is wrong with the kind of a state and the events that can arise in it.
Handlers are looked at only when they are given. -/
def kindProblems (r : Option (Registry κ)) (name : String) (state : State κ) : List Problem :=
  let use (handler : String) (isRouter : Bool) : List Problem :=
    match r with
    | some r => handlerProblems r name state handler isRouter
    | none => []
  match state.prompt, state.onEnter with
  | none, none => [.neither name]
  | some _, some _ => [.both name]
  | none, some handler =>
    (if state.onSelect.isSome then [.routerSelects name] else []) ++ use handler true
  | some prompt, none =>
    (if state.handles "esc" then [] else [.noEscape name]) ++
      match state.onSelect with
      | some handler => use handler false
      | none => defaultProblems name state prompt

/-- What is wrong with a state. -/
def stateProblems (d : Definition κ) (r : Option (Registry κ)) (name : String)
    (state : State κ) : List Problem :=
  (if isReserved name then [.reserved name] else [])
    ++ targetProblems d name state ++ kindProblems r name state

/-- Everything that is wrong with a flow. -/
def problems (d : Definition κ) (r : Option (Registry κ)) : List Problem :=
  (if (d.state? d.initial).isSome then [] else [.initialUndefined d.initial])
    ++ d.states.flatMap fun (name, state) => stateProblems d r name state

/-- Complains about a flow with problems. -/
def check (d : Definition κ) (r : Registry κ) : Except Fault Unit :=
  match problems d (some r) with
  | [] => .ok ()
  | found => .error (.complaint (.flow (.malformed d.id (found.map Problem.text) none)))

end BuildDesk.Flow
