/-
The courses of calls.

A call that reads sends one request, and what it comes to is made of the reply.  A call that
changes something may ask for a crumb first.  Either sends nothing when there is no address.

* `Reads`, `courses_fetchJson`, `courses_lastBuild`, … — calls that read;
* `Told` — what the server said on a course;
* `Changes`, `courses_trigger`, `courses_stop` — calls that change something.
-/
import BuildDesk.Proofs.Session.Course

namespace BuildDesk

open Desk

variable {α β : Type}

namespace Server

variable {server : Server}

/-! ### Calls that read -/

/-- A call that reads: nothing is sent when there is no request for it, and what it comes to is
made of the reply that serves its request. -/
inductive Reads (request : Option Request) (value : Reply → Except Fault α) :
    Except Fault α → List Moment → Prop
  | nowhere {f} (hrequest : request = none) : Reads request value (.error f) []
  | failed {f r response} (hrequest : request = some r) :
      Reads request value (.error f) [.sent ⟨r, response⟩]
  | served {result r reply seconds} (hrequest : request = some r)
      (hserved : isFailure reply.status = .ok false) (hresult : value reply = result) :
      Reads request value result [.sent ⟨r, some (.reply reply seconds)⟩]

section
variable {request : Option Request} {value : Reply → Except Fault α}

/-- A reading that comes to something was served. -/
theorem Reads.of_ok {a : α} {c : List Moment} (h : Reads request value (.ok a) c) :
    ∃ r reply seconds, request = some r ∧ isFailure reply.status = .ok false ∧
      value reply = .ok a ∧ c = [.sent ⟨r, some (.reply reply seconds)⟩] := by
  cases h with
  | served hrequest hserved hresult => exact ⟨_, _, _, hrequest, hserved, hresult, rfl⟩

/-- A request that reads was served on the course, and this was made of the reply. -/
def Told (request : Option Request) (value : Reply → Except Fault α) (a : α)
    (c : List Moment) : Prop :=
  ∃ r reply seconds, request = some r ∧ isFailure reply.status = .ok false ∧
    value reply = .ok a ∧ .sent ⟨r, some (.reply reply seconds)⟩ ∈ c

theorem Told.of_subset {a : α} {c c' : List Moment} (h : Told request value a c)
    (hsub : c ⊆ c') : Told request value a c' := by
  obtain ⟨r, reply, seconds, hrequest, hserved, hvalue, hmem⟩ := h
  exact ⟨r, reply, seconds, hrequest, hserved, hvalue, hsub hmem⟩

theorem Reads.told {a : α} {c : List Moment} (h : Reads request value (.ok a) c) :
    Told request value a c := by
  obtain ⟨r, reply, seconds, hrequest, hserved, hvalue, rfl⟩ := h.of_ok
  exact ⟨r, reply, seconds, hrequest, hserved, hvalue, List.mem_singleton_self _⟩

/-- Nothing is sent but the request. -/
theorem Reads.sent {result : Except Fault α} {c : List Moment} (h : Reads request value result c)
    {x : Exchange} (hx : .sent x ∈ c) : request = some x.request := by
  cases h with
  | nowhere => cases hx
  | failed hrequest | served hrequest =>
    obtain rfl := Moment.sent.inj (List.mem_singleton.mp hx)
    exact hrequest

/-- Something is made of what a reading comes to. -/
theorem courses_reads_bind {part : Desk α} (h : part.Courses (Reads request value))
    (g : α → Except Fault β) :
    (part >>= fun a => Desk.ofExcept (g a)).Courses
      (Reads request fun reply => value reply >>= g) := by
  refine courses_bind h (fun a => courses_ofExcept (D := fun r c => r = g a ∧ c = []) ⟨rfl, rfl⟩)
    (fun {f c} hc => ?_) ?_
  · cases hc with
    | nowhere hrequest => exact .nowhere hrequest
    | failed hrequest => exact .failed hrequest
    | served hrequest hserved hresult =>
      exact .served hrequest hserved (by rw [hresult]; rfl)
  · rintro a _ c _ hc ⟨rfl, rfl⟩
    obtain ⟨r, reply, seconds, hrequest, hserved, hresult, rfl⟩ := hc.of_ok
    exact .served hrequest hserved (by rw [hresult]; rfl)

end

theorem courses_exchange (r : Request) : (Server.exchange r).Courses (Reads (some r) .ok) := by
  refine courses_bind (Desk.courses_exchange r) (N := fun reply result c => c = [] ∧
    ((isFailure reply.status = .ok false ∧ result = .ok reply) ∨ ∃ f, result = .error f))
    (fun reply s => ?_) ?_ ?_
  · cases hstatus : isFailure reply.status with
    | error f => exact Session.runs_of_eq ⟨rfl, .inr ⟨f, rfl⟩⟩ rfl rfl rfl
    | ok failed =>
      cases failed with
      | true => exact Session.runs_of_eq ⟨rfl, .inr ⟨_, rfl⟩⟩ rfl rfl rfl
      | false => exact Session.runs_of_eq ⟨rfl, .inl ⟨rfl, rfl⟩⟩ rfl rfl rfl
  · rintro f _ ⟨response, rfl, -⟩
    exact .failed rfl
  · rintro reply result _ _ ⟨response, rfl, hreply⟩ ⟨rfl, ⟨hstatus, rfl⟩ | ⟨f, rfl⟩⟩
    · obtain ⟨seconds, rfl⟩ := hreply reply rfl
      exact .served rfl hstatus rfl
    · exact .failed rfl

/-- Nothing is sent without an address. -/
theorem courses_address {address : Except Fault String} {request : String → Request}
    {part : String → Desk α} {value : Reply → Except Fault α}
    (h : ∀ url, (part url).Courses (Reads (some (request url)) value)) :
    (Desk.ofExcept address >>= part).Courses (Reads (address.toOption.map request) value) := by
  cases address with
  | error f => exact fun _ => Session.runs_of_eq (.nowhere rfl) rfl rfl rfl
  | ok url => exact h url

theorem courses_fetchJson (server : Server) (url : Json) (tree : Option String) :
    (server.fetchJson url tree).Courses (Reads (server.reading? url tree) jsonOf) :=
  courses_address fun _ => courses_reads_bind (courses_exchange _) jsonOf

/-- The request for the last build of a job. -/
def lastBuildRequest? (server : Server) (job : String) : Option Request :=
  server.reading? (.str job) (some ("lastBuild[" ++ buildFields ++ "]"))

/-- The last build that a reply about a job tells of. -/
def lastBuildIn (reply : Reply) : Except Fault LastBuild := do
  LastBuild.ofReply (← jsonOf reply)

theorem courses_lastBuild (server : Server) (job : String) :
    (server.lastBuild (.str job)).Courses (Reads (server.lastBuildRequest? job) lastBuildIn) :=
  courses_reads_bind (courses_fetchJson _ _ _) LastBuild.ofReply

/-- Where the data on a place in the queue say that the build is; nothing as long as it has not
started. -/
def queuedAt (queue data : Json) : Except Fault (Option Json) := do
  let withdrawn ← member data "cancelled"
  if withdrawn.truthy then throw (.complaint (.call (.withdrawn queue.text)))
  let url ← member ((data.field "executable").orElse (.object [])) "url"
  pure url.present?

/-- Where a reply about a place in the queue says that the build is. -/
def queuedIn (queue : Json) (reply : Reply) : Except Fault (Option Json) := do
  queuedAt queue (← jsonOf reply)

theorem queuedBuild_eq (server : Server) (queue : Json) : server.queuedBuild queue =
    server.fetchJson queue none >>= fun data => Desk.ofExcept (queuedAt queue data) := by
  refine bind_congr fun data => ?_
  unfold queuedAt
  cases member data "cancelled" with
  | error f => rfl
  | ok withdrawn =>
    show (if withdrawn.truthy then _ else _) = Desk.ofExcept (if withdrawn.truthy then _ else _)
    cases withdrawn.truthy with
    | true => rfl
    | false =>
      rw [if_neg Bool.false_ne_true, if_neg Bool.false_ne_true]
      cases member ((data.field "executable").orElse (.object [])) "url" <;> rfl

theorem courses_queuedBuild (server : Server) (queue : Json) :
    (server.queuedBuild queue).Courses
      (Reads ((Call.queuedBuild queue).request? server) (queuedIn queue)) := by
  rw [queuedBuild_eq]
  exact courses_reads_bind (courses_fetchJson _ _ _) _

theorem courses_build (server : Server) (url : Json) :
    (server.build url).Courses (Reads ((Call.build url).request? server)
      fun reply => jsonOf reply >>= Build.ofReply url) :=
  courses_reads_bind (courses_fetchJson _ _ _) _

theorem courses_consoleText (server : Server) (url : Json) :
    (server.consoleText url).Courses (Reads ((Call.consoleText url).request? server)
      fun reply => .ok (textOf reply)) :=
  courses_address fun _ => courses_reads_bind (courses_exchange _) fun reply => .ok (textOf reply)

/-! ### Calls that change something -/

/-- A crumb is asked for, or nothing happens. -/
def Crumbs (server : Server) (c : List Moment) : Prop :=
  c = [] ∨ ∃ response, c = [.sent ⟨server.crumbRequest, response⟩]

/-- A call that changes something: a crumb may be asked for, and then the request is sent to its
address; when it is served, the call comes to what is made of the reply. -/
inductive Changes (server : Server) (address : Except Fault String) (data : List (String × Json))
    (value : Reply → α) : Except Fault α → List Moment → Prop
  | unsent {f crumbs} (hcrumbs : server.Crumbs crumbs) :
      Changes server address data value (.error f) crumbs
  | failed {f crumbs r response} (hcrumbs : server.Crumbs crumbs) (hmethod : r.method = "POST")
      (haddress : address = .ok r.url) (hdata : r.data = data) :
      Changes server address data value (.error f) (crumbs ++ [.sent ⟨r, response⟩])
  | served {a crumbs r reply seconds} (hcrumbs : server.Crumbs crumbs) (hmethod : r.method = "POST")
      (haddress : address = .ok r.url) (hdata : r.data = data) (hvalue : value reply = a) :
      Changes server address data value (.ok a)
        (crumbs ++ [.sent ⟨r, some (.reply reply seconds)⟩])

theorem courses_crumb (server : Server) :
    server.crumb.Courses fun _ c => server.Crumbs c := by
  refine courses_get_bind fun s => ?_
  split
  · exact courses_pure (.inl rfl)
  · have hkeep : ∀ reply, (do
        let header ← Desk.ofExcept (do crumbOf (← jsonOf reply))
        modify fun s => { s with crumb := some header }
        pure header : Desk (Json × Json)).Courses fun _ c => c = [] := by
      refine fun reply => courses_bind (D := fun _ c => c = []) (courses_ofExcept rfl)
        (N := fun _ _ c => c = []) (fun header _ => ?_) id ?_
      · exact ⟨[], rfl, rfl, rfl, rfl⟩
      · rintro a r c c' rfl rfl
        rfl
    refine courses_bind (courses_exchange _) hkeep (fun {f c} hc => ?_) ?_
    · cases hc with
      | nowhere => exact .inl rfl
      | failed hrequest | served hrequest =>
        obtain rfl := Option.some.inj hrequest
        exact .inr ⟨_, rfl⟩
    · rintro reply r c _ hc rfl
      obtain ⟨q, reply, seconds, hrequest, -, -, rfl⟩ := hc.of_ok
      obtain rfl := Option.some.inj hrequest
      exact .inr ⟨_, rfl⟩

theorem courses_post (server : Server) (url : String) (data : List (String × Json)) :
    (server.post url data).Courses (Changes server (.ok url) data id) := by
  have hsend : ∀ q : Request, q.method = "POST" → q.url = url → q.data = data →
      (exchange q).Courses fun result c => ∃ r response, r.method = "POST" ∧ r.url = url ∧
        r.data = data ∧ c = [.sent ⟨r, response⟩] ∧
        ∀ reply, result = .ok reply → ∃ seconds, response = some (.reply reply seconds) := by
    refine fun q hmethod hurl hdata => (courses_exchange _).mono fun {result c} hc => ?_
    cases hc with
    | nowhere hrequest => cases hrequest
    | failed hrequest =>
      obtain rfl := Option.some.inj hrequest
      exact ⟨_, _, hmethod, hurl, hdata, rfl, nofun⟩
    | served hrequest hserved hresult =>
      obtain rfl := Option.some.inj hrequest
      refine ⟨_, _, hmethod, hurl, hdata, rfl, ?_⟩
      rintro _ ⟨⟩
      exact ⟨_, by rw [Except.ok.inj hresult]⟩
  have hdone : ∀ {crumbs : List Moment} {result c}, server.Crumbs crumbs →
      (∃ r response, r.method = "POST" ∧ r.url = url ∧ r.data = data ∧ c = [.sent ⟨r, response⟩] ∧
        ∀ reply, result = .ok reply → ∃ seconds, response = some (.reply reply seconds)) →
      Changes server (.ok url) data id result (crumbs ++ c) := by
    rintro crumbs result _ hcrumbs ⟨r, response, hmethod, rfl, hdata, rfl, hreply⟩
    cases result with
    | error f => exact .failed hcrumbs hmethod rfl hdata
    | ok reply =>
      obtain ⟨seconds, rfl⟩ := hreply reply rfl
      exact .served hcrumbs hmethod rfl hdata rfl
  unfold post
  split
  · exact courses_bind (courses_crumb server) (fun _ => hsend _ rfl rfl rfl) .unsent hdone
  · exact (hsend _ rfl rfl rfl).mono (hdone (.inl rfl))

/-- A call sends nothing without an address, and makes something of the reply. -/
theorem courses_changes (server : Server) (address : Except Fault String)
    (data : List (String × Json)) (value : Reply → α) :
    (do
      let reply ← server.post (← Desk.ofExcept address) data
      pure (value reply) : Desk α).Courses (Changes server address data value) := by
  cases address with
  | error f => exact fun _ => Session.runs_of_eq (.unsent (.inl rfl)) rfl rfl rfl
  | ok url =>
    show (server.post url data >>= fun reply => pure (value reply) : Desk α).Courses _
    refine courses_bind (courses_post server url data)
      (fun reply => courses_pure (D := fun r c => r = .ok (value reply) ∧ c = []) ⟨rfl, rfl⟩)
      (fun {f c} hc => ?_) ?_
    · cases hc with
      | unsent hcrumbs => exact .unsent hcrumbs
      | failed hcrumbs hmethod haddress hdata => exact .failed hcrumbs hmethod haddress hdata
    · rintro reply _ c _ hc ⟨rfl, rfl⟩
      rw [List.append_nil]
      cases hc with
      | served hcrumbs hmethod haddress hdata hvalue =>
        exact .served hcrumbs hmethod haddress hdata (congrArg value hvalue)

/-- Where a build of a job is queued. -/
def triggerAddress (job : Json) (params : List (String × Json)) : Except Fault String :=
  join job (if params.isEmpty then "build" else "buildWithParameters")

theorem courses_trigger (server : Server) (job : Json) (params : List (String × Json)) :
    (server.trigger job params).Courses
      (Changes server (triggerAddress job params) params fun reply => headerOf reply "Location") :=
  courses_changes server _ params _

theorem courses_stop (server : Server) (url : Json) :
    (server.stop url).Courses (Changes server (join url "stop") [] fun _ => ()) :=
  courses_changes server _ [] fun _ => ()

end Server
end BuildDesk
