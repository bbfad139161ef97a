/-
Scripts as JSON records.

An answer stands for itself; a record whose member `interrupt` says yes stands for a
user who stops the program.  A reply has a status, headers, a body as JSON or as text,
and the seconds that it takes; a record with a member `network_error` stands for a
server that is not reached.

Main definitions:
* `Answer.ofJson`, `Response.ofJson` — one answer and one reply;
* `Session.ofScript` — the session at the start of a script.
-/
import BuildDesk.Number.Quantity
import BuildDesk.Session

namespace BuildDesk

/-- A record stands for a user who stops the program. -/
def isInterrupt (v : Json) : Bool := (v.field "interrupt").truthy

/-- The answer that a value stands for. -/
def Answer.ofJson (v : Json) : Answer := if isInterrupt v then .interrupt else .value v

/-- The reply that a record stands for. -/
def Reply.ofJson (v : Json) : Reply where
  status := (v.field? "status").getD (.int 200)
  body := match (v.field "text").asString? with
    | some text => .text text
    | none => .json ((v.field? "json").getD (.object []))
  headers := (v.field "headers").members

/-- What a record says about a request. -/
def Response.ofJson (v : Json) : Response :=
  let seconds := ((Quantity.ofJson? (v.field "advance")).bind (·.toFloat?)).getD 0.0
  match isInterrupt v, (v.field "network_error").asString? with
  | true, _ => .interrupt seconds
  | false, some message => .unreachable message seconds
  | false, none => .reply (Reply.ofJson v) seconds

/-- The session at the start of a script, with its answers, its replies and the time. -/
def Session.ofScript (script : Json) : Session where
  now := ((script.field "now").asInt?).getD 0
  answers := (script.field "answers").items.map Answer.ofJson
  responses := (script.field "replies").items.map Response.ofJson

end BuildDesk
