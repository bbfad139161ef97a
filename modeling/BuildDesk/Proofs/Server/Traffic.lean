/-
What goes over the wire.

A run sends its requests one by one, and each takes the next response of the script as long as
there is one.  This file says what was exchanged between two sessions, and what one call of
the server exchanges when nothing is known yet about crumbs:

* `Exchange`, `Session.sent` — the requests since an earlier session, each with its response;
* `Session.after` — the session that one request leaves;
* `Desk.IsStill` — parts that leave the session as it is, such as reading a reply;
* `Server.Call`, `Call.request?` — the calls of a server, and the one request that each of them
  is for, without a crumb;
* `Call.session_run_of_reads`, `Call.session_run_of_changes` — a call that reads comes to its
  request and no other, and a call that changes something is a post.
-/
import BuildDesk.Proofs.Frame
import BuildDesk.Proofs.Session.Since

namespace BuildDesk

variable {α β : Type}

/-- A request and the response to it; there is none when the script was at its end. -/
structure Exchange where
  request : Request
  response : Option Response

/-- The request that an event is. -/
def Event.request? : Event → Option Request
  | .http r => some r
  | _ => none

/-- The requests that were sent, in order. -/
def Session.requests (s : Session) : List Request := s.log.reverse.filterMap Event.request?

/-- Requests with the responses that they take, one after another. -/
def answered : List Request → List Response → List Exchange
  | [], _ => []
  | r :: rest, responses => ⟨r, responses.head?⟩ :: answered rest responses.tail

namespace Session

/-- What was exchanged since, in order. -/
def sent (s s' : Session) : List Exchange :=
  answered ((s.news s').reverse.filterMap Event.request?) s.responses

/-- The session after a request. -/
def after (r : Request) (s : Session) : Session := ((Desk.exchange r).outcome s).2

variable {s s₁ : Session} {q r : Request}

theorem sent_of_log (new : List Event) (h : s₁.log = new ++ s.log) :
    s.sent s₁ = answered (new.reverse.filterMap Event.request?) s.responses := by
  rw [sent, news, h, List.length_append, Nat.add_sub_cancel, List.take_left]

theorem sent_self (s : Session) : s.sent s = [] := sent_of_log [] rfl

@[simp] theorem after_log (r : Request) (s : Session) : (s.after r).log = .http r :: s.log := by
  rw [after, Desk.outcome_exchange]
  split <;> rfl

@[simp] theorem after_responses (r : Request) (s : Session) :
    (s.after r).responses = s.responses.tail := by
  rw [after, Desk.outcome_exchange]
  split <;> simp_all

@[simp] theorem after_crumb (r : Request) (s : Session) : (s.after r).crumb = s.crumb := by
  rw [after, Desk.outcome_exchange]
  split <;> rfl

theorem sent_after (r : Request) (s : Session) : s.sent (s.after r) = [⟨r, s.responses.head?⟩] :=
  sent_of_log [.http r] (after_log r s)

/-- What is exchanged in two requests, when nothing but the crumb has changed in between. -/
theorem sent_after_after (q r : Request) (s : Session) (crumb : Option (Json × Json)) :
    s.sent (({ s.after q with crumb := crumb } : Session).after r)
      = [⟨q, s.responses.head?⟩, ⟨r, s.responses.tail.head?⟩] := by
  refine sent_of_log [.http r, .http q] ?_
  rw [after_log]
  exact congrArg (Event.http r :: ·) (after_log q s)

end Session

/-! ### Parts that leave the session as it is -/

namespace Desk

/-- The session stays as it is. -/
def IsStill (part : Desk α) : Prop := ∀ s, (part.outcome s).2 = s

theorem isStill_pure (a : α) : (pure a : Desk α).IsStill := fun _ => rfl

theorem isStill_throw (f : Fault) : (throw f : Desk α).IsStill := fun _ => rfl

theorem isStill_ofExcept (e : Except Fault α) : (ofExcept e).IsStill := fun _ => rfl

/-- What leaves the session as it is may come after anything. -/
theorem session_bind (part : Desk α) {next : α → Desk β} (hnext : ∀ a, (next a).IsStill)
    (s : Session) : ((part >>= next).outcome s).2 = (part.outcome s).2 := by
  rw [outcome_bind]
  rcases part.outcome s with ⟨f | a, s₁⟩
  · rfl
  · exact hnext a s₁

theorem isStill_bind {part : Desk α} {next : α → Desk β} (h : part.IsStill)
    (hnext : ∀ a, (next a).IsStill) : (part >>= next).IsStill :=
  fun s => (session_bind part hnext s).trans (h s)

theorem session_rescue (part : Desk α) {handle : Complaint → Desk α}
    (hhandle : ∀ c, (handle c).IsStill) (s : Session) :
    ((rescue part handle).outcome s).2 = (part.outcome s).2 := by
  rw [rescue, outcome_tryCatch]
  rcases part.outcome s with ⟨f | a, s₁⟩
  · cases f with
    | complaint c => exact hhandle c s₁
    | _ => rfl
  · rfl

/-- What is sent depends on an address, and nothing is sent without one. -/
theorem session_ofExcept_bind (e : Except Fault α) (next : α → Desk β) (s : Session) :
    ((ofExcept e >>= next).outcome s).2 =
      match e.toOption with
      | some a => ((next a).outcome s).2
      | none => s := by
  rw [outcome_bind]
  cases e with
  | ok a => rfl
  | error f => rfl

end Desk

/-! ### Calls of a server -/

namespace Server

open Desk

/-- What can be asked of a server. -/
inductive Call
  | listJobs
  | trigger (job : Json) (params : List (String × Json))
  | queuedBuild (queue : Json)
  | lastBuild (job : Json)
  | build (url : Json)
  | lastFailed (job : Json)
  | stop (url : Json)
  | consoleText (url : Json)

/-- The request for the JSON at an address; there is none when the address is no text. -/
def reading? (server : Server) (url : Json) (tree : Option String) : Option Request :=
  (join url "api/json").toOption.map fun address =>
    { method := "GET", url := address, timeout := server.patience
      params := tree.toList.map fun t => ("tree", .str t) }

/-- The request that changes something at an address. -/
def changing? (server : Server) (url : Json) (path : String) (data : List (String × Json)) :
    Option Request :=
  (join url path).toOption.map fun address =>
    { method := "POST", url := address, timeout := server.patience, data }

namespace Call

/-- The call, for what it does and not for what it gives. -/
def run (server : Server) : Call → Desk Unit
  | listJobs => do let _ ← server.listJobs
  | trigger job params => do let _ ← server.trigger job params
  | queuedBuild queue => do let _ ← server.queuedBuild queue
  | lastBuild job => do let _ ← server.lastBuild job
  | build url => do let _ ← server.build url
  | lastFailed job => do let _ ← server.lastFailed job
  | stop url => server.stop url
  | consoleText url => do let _ ← server.consoleText url

/-- The call changes something on the server. -/
def changes : Call → Bool
  | trigger .. | stop .. => true
  | _ => false

/-- The request that a call is for, without a crumb; there is none when an address is no
text. -/
def request? (server : Server) : Call → Option Request
  | listJobs => server.reading? (.str server.settings.url) (some jobsTree)
  | trigger job params =>
    server.changing? job (if params.isEmpty then "build" else "buildWithParameters") params
  | queuedBuild queue => server.reading? queue none
  | lastBuild job => server.reading? job (some ("lastBuild[" ++ buildFields ++ "]"))
  | build url => server.reading? url (some buildFields)
  | lastFailed job =>
    (join job "lastFailedBuild").toOption.bind fun url =>
      server.reading? (.str url) (some buildFields)
  | stop url => server.changing? url "stop" []
  | consoleText url =>
    (join url "consoleText").toOption.map fun address =>
      { method := "GET", url := address, timeout := server.patience }

end Call

/-- The session after a request, if there is one. -/
def sessionAfter (request : Option Request) (s : Session) : Session :=
  match request with
  | some r => s.after r
  | none => s

/-- After the request nothing else is sent. -/
theorem session_exchange (r : Request) (s : Session) : ((exchange r).outcome s).2 = s.after r := by
  refine session_bind _ (fun reply => isStill_bind (isStill_ofExcept _) fun failed => ?_) s
  split
  · exact isStill_throw _
  · exact isStill_pure _

theorem session_fetchJson (server : Server) (url : Json) (tree : Option String) (s : Session) :
    ((server.fetchJson url tree).outcome s).2 = sessionAfter (server.reading? url tree) s := by
  rw [fetchJson, session_ofExcept_bind, reading?]
  cases (join url "api/json").toOption with
  | none => rfl
  | some address =>
    exact (session_bind _ (fun _ => isStill_ofExcept _) s).trans (session_exchange _ s)

theorem session_build (server : Server) (url : Json) (s : Session) :
    ((server.build url).outcome s).2 = sessionAfter (server.reading? url (some buildFields)) s :=
  (session_bind _ (fun _ => isStill_ofExcept _) s).trans (server.session_fetchJson _ _ s)

namespace Call

variable {server : Server} {call : Call}

/-- A call that reads sends its request and no other. -/
theorem session_run_of_reads (h : call.changes = false) (s : Session) :
    ((call.run server).outcome s).2 = sessionAfter (call.request? server) s := by
  have hdone : ∀ {α : Type} (part : Desk α),
      ((do let _ ← part : Desk Unit).outcome s).2 = (part.outcome s).2 :=
    fun part => session_bind part (fun _ => isStill_pure _) s
  cases call with
  | trigger | stop => cases h
  | listJobs =>
    rw [run, hdone, Server.listJobs, session_bind _ fun _ => isStill_ofExcept _]
    exact server.session_fetchJson _ _ s
  | queuedBuild queue =>
    rw [run, hdone, Server.queuedBuild, session_bind _ fun data => ?_]
    · exact server.session_fetchJson _ _ s
    · refine isStill_bind (isStill_ofExcept _) fun withdrawn => ?_
      split
      · exact isStill_bind (isStill_throw _) fun _ =>
          isStill_bind (isStill_ofExcept _) fun _ => isStill_pure _
      · exact isStill_bind (isStill_ofExcept _) fun _ => isStill_pure _
  | lastBuild job =>
    rw [run, hdone, Server.lastBuild, session_bind _ fun _ => isStill_ofExcept _]
    exact server.session_fetchJson _ _ s
  | build url =>
    rw [run, hdone]
    exact server.session_build url s
  | lastFailed job =>
    rw [run, hdone, Server.lastFailed, session_ofExcept_bind, request?]
    rcases (join job "lastFailedBuild").toOption with _ | url
    · rfl
    · dsimp only [Option.bind_some]
      rw [session_rescue _ fun c => ?_]
      · exact (session_bind _ (fun _ => isStill_pure _) s).trans (server.session_build _ s)
      · split
        · split
          · exact isStill_pure _
          · exact isStill_throw _
        · exact isStill_throw _
  | consoleText url =>
    rw [run, hdone, Server.consoleText, session_ofExcept_bind, request?]
    rcases (join url "consoleText").toOption with _ | address
    · rfl
    · exact (session_bind _ (fun _ => isStill_pure _) s).trans (session_exchange _ s)

/-- A call that changes something is a post to its address, if it has one. -/
theorem session_run_of_changes (h : call.changes = true) (s : Session) :
    ((call.run server).outcome s).2 =
      match call.request? server with
      | some r => ((server.post r.url r.data).outcome s).2
      | none => s := by
  cases call with
  | trigger job params =>
    show ((do let _ ← server.trigger job params : Desk Unit).outcome s).2 = _
    rw [session_bind _ fun _ => isStill_pure _, Server.trigger, session_ofExcept_bind, request?,
      changing?]
    rcases (join job _).toOption with _ | address
    · rfl
    · exact session_bind _ (fun _ => isStill_pure _) s
  | stop url =>
    rw [run, Server.stop, session_ofExcept_bind, request?, changing?]
    rcases (join url "stop").toOption with _ | address
    · rfl
    · exact session_bind _ (fun _ => isStill_pure _) s
  | _ => cases h

end Call
end Server
end BuildDesk
