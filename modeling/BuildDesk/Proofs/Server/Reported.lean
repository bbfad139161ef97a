/-
What calls report of the server.

The server may make anything of a request: it may be out of reach, refuse, or serve it with a
reply that says nothing of what was asked for.  A call reports the first two as complaints about
a call.  A served reply is another matter: one that is no JSON, or not of the shape that the call
reads, ends the call in a fault of another kind.

* `ReportsWhen` — a computation comes to a value or to a complaint about a call when a condition
  holds, and otherwise it strays;
* `Call.shape?`, `Call.IsClear` — what the replies to a call have to look like, and exchanges
  that come to something;
* `answerTo`, `reportsWhen_answer` — what one request comes to;
* `reportsWhen_of_reads`, `reportsWhen_post` — calls that read, and posts with their crumbs;
* `reportsWhen_run` — a call reports just when all its exchanges are clear.
-/
import BuildDesk.Proofs.Server.Courses
import BuildDesk.Proofs.Server.Legible

namespace BuildDesk

variable {α β : Type}

/-- The faults that are no complaints about a call: a reply is misread, the script is at its end,
or the user stops the program. -/
inductive Fault.IsStray : Fault → Prop
  | misread {f : Fault} (h : f.IsMisread) : IsStray f
  | unanswered : IsStray (.scriptEnd .replies)
  | interrupted : IsStray .interrupted

/-- The result is a value or a complaint about a call. -/
def IsReported (result : Except Fault α) : Prop :=
  (∃ a, result = .ok a) ∨ ∃ c : CallFault, result = .error (.complaint (.call c))

/-- When the condition holds the result is a value or a complaint about a call, and else it is
a fault that strays. -/
inductive ReportsWhen (p : Prop) : Except Fault α → Prop
  | value (hp : p) (a : α) : ReportsWhen p (.ok a)
  | complaint (hp : p) (c : CallFault) : ReportsWhen p (.error (.complaint (.call c)))
  | strays (hp : ¬ p) {f : Fault} (hf : f.IsStray) : ReportsWhen p (.error f)

section ReportsWhen

variable {e : Except Fault α} {p q : Prop}

theorem ReadsWhen.reports (h : ReadsWhen e p) : ReportsWhen p e := by
  cases e with
  | ok a => exact .value h a
  | error f => exact .strays h.1 (.misread h.2)

theorem ReportsWhen.congr (h : ReportsWhen p e) (hpq : p ↔ q) : ReportsWhen q e := by
  rwa [propext hpq] at h

theorem not_isStray_call (c : CallFault) : ¬ (Fault.complaint (.call c)).IsStray := by
  rintro (⟨⟨⟩⟩ | _ | _)

theorem ReportsWhen.isReported_iff (h : ReportsWhen p e) : IsReported e ↔ p := by
  cases h with
  | value hp a => exact ⟨fun _ => hp, fun _ => .inl ⟨a, rfl⟩⟩
  | complaint hp c => exact ⟨fun _ => hp, fun _ => .inr ⟨c, rfl⟩⟩
  | strays hp hf =>
    refine ⟨?_, fun hp' => absurd hp' hp⟩
    -- a stray fault is no complaint about a call
    rintro (⟨a, ⟨⟩⟩ | ⟨c, ⟨⟩⟩)
    exact absurd hf (not_isStray_call c)

theorem ReportsWhen.isStray {f : Fault} (h : ReportsWhen p e) (hf : e = .error f)
    (hno : ¬ IsReported e) : f.IsStray := by
  cases h with
  | value => cases hf
  | complaint hp c => exact absurd (.inr ⟨c, rfl⟩) hno
  | strays hp hstray => exact Except.error.inj hf ▸ hstray

/-- A fault ends what it is in. -/
theorem ReportsWhen.error {f : Fault} (h : ReportsWhen p (.error f : Except Fault α)) :
    ReportsWhen p (.error f : Except Fault β) := by
  cases h with
  | complaint hp c => exact .complaint hp c
  | strays hp hf => exact .strays hp hf

/-- What is read first is misread or goes on. -/
theorem ReadsWhen.reports_bind {next : α → Except Fault β} {q : α → Prop} (h : ReadsWhen e p)
    (hnext : ∀ a, e = .ok a → ReportsWhen (q a) (next a)) :
    ReportsWhen (∃ a, e = .ok a ∧ q a) (e >>= next) := by
  cases e with
  | ok a =>
    refine (hnext a rfl).congr ⟨fun hq => ⟨a, rfl, hq⟩, ?_⟩
    rintro ⟨_, ⟨⟩, hq⟩
    exact hq
  | error f => exact .strays nofun (.misread h.2)

/-- Nothing strays that goes on from a value. -/
theorem ReportsWhen.map {next : α → Except Fault β} (h : ReportsWhen p e)
    (hnext : ∀ a, ∃ b, next a = .ok b) : ReportsWhen p (e >>= next) := by
  cases h with
  | value hp a =>
    obtain ⟨b, hb⟩ := hnext a
    show ReportsWhen p (next a)
    rw [hb]
    exact .value hp b
  | complaint hp c => exact .complaint hp c
  | strays hp hf => exact .strays hp hf

end ReportsWhen

namespace Server

open Desk

variable {server : Server} {call : Call} {s s' : Session} {header : Header}

/-! ### Clear exchanges -/

/-- The reply has JSON of the shape, if any shape is needed. -/
def HasShape (shape? : Option (Json → Prop)) (reply : Reply) : Prop :=
  ∀ shape, shape? = some shape → ∃ v, jsonOf reply = .ok v ∧ shape v

/-- The value tells of a place in the queue: that the build was withdrawn, or where it runs, if
it does. -/
def IsQueued (v : Json) : Prop :=
  v.IsObject ∧ ((v.field "cancelled").truthy = true ∨ (v.field "executable").truthy = false ∨
    (v.field "executable").IsObject)

/-- The shape that the JSON of a reply to a request of the call needs; any reply will do when
there is none.  What a call that changes something gets is the crumb. -/
def Call.shape? (call : Call) (r : Request) : Option (Json → Prop) :=
  match call with
  | .listJobs => some fun v => v.IsObject ∧ IsListing (v.field "jobs")
  | .queuedBuild _ => some IsQueued
  | .lastBuild _ => some fun v => v.IsObject ∧ IsLastBuild (v.field "lastBuild")
  | .build _ | .lastFailed _ => some fun v => v.IsObject ∧ IsActions (v.field "actions")
  | .trigger .. | .stop _ => if r.method = "GET" then some IsCrumb else none
  | .consoleText _ => none

/-- The server is out of reach, or it replies with a status that means failure, or with one that
does not and the shape that is needed. -/
def IsClearOf (shape? : Option (Json → Prop)) : Option Response → Prop
  | some (.reply reply _) => isFailure reply.status = .ok true ∨
      isFailure reply.status = .ok false ∧ HasShape shape? reply
  | some (.unreachable ..) => True
  | some (.interrupt _) | none => False

/-- The exchange comes to what the call can report. -/
def Call.IsClear (call : Call) (x : Exchange) : Prop :=
  IsClearOf (call.shape? x.request) x.response

/-! ### One request -/

/-- A reply serves the request, unless its status means failure. -/
def served (r : Request) (reply : Reply) : Except Fault Reply := do
  if ← isFailure reply.status then
    throw (.complaint (.call (.refused r.method r.url reply.status)))
  else pure reply

/-- What a request comes to by its response. -/
def answerTo (r : Request) : Option Response → Except Fault Reply
  | some (.reply reply _) => served r reply
  | some (.unreachable message _) =>
    .error (.complaint (.call (.unreachable r.method r.url message)))
  | some (.interrupt _) => .error .interrupted
  | none => .error (.scriptEnd .replies)

theorem result_bind_ofExcept (part : Desk α) (next : α → Except Fault β) (s : Session) :
    ((part >>= fun a => Desk.ofExcept (next a)).outcome s).1 = (part.outcome s).1 >>= next := by
  rw [outcome_bind]
  rcases part.outcome s with ⟨f | a, s₁⟩ <;> rfl

theorem exchange_eq (r : Request) :
    exchange r = Desk.exchange r >>= fun reply => Desk.ofExcept (served r reply) := by
  refine bind_congr fun reply => ?_
  unfold served
  rcases isFailure reply.status with f | failed
  · rfl
  · cases failed <;> rfl

theorem result_exchange (r : Request) (s : Session) :
    ((exchange r).outcome s).1 = answerTo r s.responses.head? := by
  rw [exchange_eq, result_bind_ofExcept, outcome_exchange]
  rcases s.responses with _ | ⟨_ | _ | _, rest⟩ <;> rfl

theorem reportsWhen_served {next : Reply → Except Fault β} {p : Prop} (r : Request) (reply : Reply)
    (hnext : ReportsWhen p (next reply)) :
    ReportsWhen (isFailure reply.status = .ok true ∨ isFailure reply.status = .ok false ∧ p)
      (served r reply >>= next) := by
  unfold served
  rcases hstatus : isFailure reply.status with f | failed
  · -- only a status that is no number cannot be compared
    have hread : f = .wrongKind := by
      unfold isFailure at hstatus
      split at hstatus
      · exact (Except.error.inj hstatus).symm
      · cases hstatus
    rw [hread]
    exact .strays (by simp) (.misread .wrongKind)
  · cases failed with
    | true => exact .complaint (.inl rfl) _
    | false => exact hnext.congr (by simp)

/-- A served reply is read, and anything else is reported as far as it is clear. -/
theorem reportsWhen_answer {next : Reply → Except Fault β} (shape? : Option (Json → Prop))
    (r : Request) (response : Option Response)
    (hnext : ∀ reply, ReportsWhen (HasShape shape? reply) (next reply)) :
    ReportsWhen (IsClearOf shape? response) (answerTo r response >>= next) := by
  rcases response with _ | ⟨reply, seconds⟩ | ⟨message, seconds⟩ | seconds
  · exact .strays id .unanswered
  · exact reportsWhen_served r reply (hnext reply)
  · exact .complaint trivial _
  · exact .strays id .interrupted

/-! ### Calls that read -/

theorem result_fetch_bind (url : String) (params : List (String × Json))
    (next : Reply → Except Fault α) (s : Session) :
    ((server.fetch url params >>= fun reply => Desk.ofExcept (next reply)).outcome s).1 =
      answerTo { method := "GET", url, timeout := server.patience, params } s.responses.head?
        >>= next := by
  rw [result_bind_ofExcept, fetch, result_exchange]

theorem result_of_done (part : Desk α) (s : Session) :
    ((do let _ ← part : Desk Unit).outcome s).1 = (part.outcome s).1 >>= fun _ => .ok () :=
  result_bind_ofExcept part (fun _ => .ok ()) s

/-- Without an address nothing is asked for, and nothing is reported. -/
theorem reportsWhen_nowhere {request : Option Request} {q : Request → Prop}
    (h : request = none) : ReportsWhen (∃ r, request = some r ∧ q r)
      (.error .noAttribute : Except Fault α) := by
  refine .strays ?_ (.misread .noAttribute)
  rintro ⟨r, hr, -⟩
  cases h.symm.trans hr

/-- What is made of the JSON at an address is reported when the exchange is clear, with the shape
that is read. -/
theorem reportsWhen_fetchJson {next : Json → Except Fault α} {shape : Json → Prop} (url : Json)
    (tree : Option String) (hnext : ∀ v, ReportsWhen (shape v) (next v)) (s : Session) :
    ReportsWhen (∃ r, server.reading? url tree = some r ∧
        IsClearOf (some shape) s.responses.head?)
      ((server.fetchJson url tree >>= fun v => Desk.ofExcept (next v)).outcome s).1 := by
  rw [result_bind_ofExcept]
  cases url with
  | str text =>
    have hresult : ((server.fetchJson (.str text) tree).outcome s).1
        = answerTo _ s.responses.head? >>= jsonOf := result_fetch_bind _ _ jsonOf s
    rw [hresult, bind_assoc]
    refine (reportsWhen_answer (some shape) _ _ fun reply => ?_).congr
      ⟨fun h => ⟨_, rfl, h⟩, fun ⟨_, _, h⟩ => h⟩
    refine ((readsWhen_jsonOf reply).reports_bind fun v _ => hnext v).congr ?_
    simp [HasShape]
  | _ => exact reportsWhen_nowhere rfl

theorem isObject_orElse {v : Json} :
    (v.orElse (.object [])).IsObject ↔ v.truthy = false ∨ v.IsObject := by
  unfold Json.orElse
  cases htruthy : v.truthy with
  | true => simp
  | false => simpa using ⟨[], rfl⟩

theorem reportsWhen_queuedAt (queue v : Json) : ReportsWhen (IsQueued v) (queuedAt queue v) := by
  cases v with
  | object members =>
    have hmember : member (.object members) "cancelled"
        = pure (Json.field (.object members) "cancelled") := rfl
    rw [queuedAt, hmember, pure_bind]
    cases hwithdrawn : (Json.field (.object members) "cancelled").truthy with
    | true => exact .complaint ⟨⟨members, rfl⟩, .inl hwithdrawn⟩ _
    | false =>
      refine ((readsWhen_member _ "url").reports.map fun url => ⟨_, rfl⟩).congr ?_
      rw [isObject_orElse, IsQueued, hwithdrawn]
      simp [Json.IsObject]
  | _ => exact .strays (by rintro ⟨⟨members, ⟨⟩⟩, -⟩) (.misread .noAttribute)

theorem readsWhen_listing (v : Json) : ReadsWhen (do jobsIn (← member v "jobs"))
    (v.IsObject ∧ IsListing (v.field "jobs")) := by
  refine readsWhen_bind (readsWhen_member v "jobs") fun jobs hjobs => ?_
  rw [← eq_field_of_member hjobs]
  exact readsWhen_jobsIn jobs

theorem reportsWhen_build (server : Server) (url : Json) (s : Session) :
    ReportsWhen (∃ r, (Call.build url).request? server = some r ∧
      (Call.build url).IsClear ⟨r, s.responses.head?⟩) ((server.build url).outcome s).1 :=
  reportsWhen_fetchJson _ _ (fun v => (readsWhen_build url v).reports) s

/-- What is made of the value of a part is reported as the part is. -/
theorem reportsWhen_map {part : Desk α} {p : Prop} {s : Session} (g : α → β)
    (h : ReportsWhen p (part.outcome s).1) : ReportsWhen p ((g <$> part).outcome s).1 := by
  rw [← bind_pure_comp]
  refine (result_bind_ofExcept part (fun a => .ok (g a)) s).symm ▸ ?_
  exact h.map fun a => ⟨g a, rfl⟩

/-- A complaint about a call is reported or made a value of, and a stray fault strays. -/
theorem reportsWhen_rescue {part : Desk α} {handle : Complaint → Desk α} {p : Prop} {s : Session}
    (h : ReportsWhen p (part.outcome s).1)
    (hhandle : ∀ c s', p → ReportsWhen p ((handle (.call c)).outcome s').1) :
    ReportsWhen p ((Desk.rescue part handle).outcome s).1 := by
  rw [Desk.rescue, outcome_tryCatch]
  generalize part.outcome s = out at h ⊢
  obtain ⟨result, s₁⟩ := out
  cases h with
  | value hp a => exact .value hp a
  | complaint hp c => exact hhandle c s₁ hp
  | strays hp hf =>
    cases hf with
    | misread hmisread => cases hmisread <;> exact .strays hp (.misread (by constructor))
    | unanswered => exact .strays hp .unanswered
    | interrupted => exact .strays hp .interrupted

/-- A call that reads reports when its one exchange is clear. -/
theorem reportsWhen_of_reads (hreads : call.changes = false) (s : Session) :
    ReportsWhen (∃ r, call.request? server = some r ∧ call.IsClear ⟨r, s.responses.head?⟩)
      ((call.run server).outcome s).1 := by
  cases call with
  | trigger | stop => cases hreads
  | listJobs =>
    rw [Call.run, result_of_done]
    refine (reportsWhen_fetchJson _ _ (fun v => (readsWhen_listing v).reports) s).map ?_
    exact fun _ => ⟨_, rfl⟩
  | queuedBuild queue =>
    rw [Call.run, result_of_done, queuedBuild_eq]
    exact (reportsWhen_fetchJson _ _ (reportsWhen_queuedAt queue) s).map fun _ => ⟨_, rfl⟩
  | lastBuild job =>
    rw [Call.run, result_of_done]
    refine (reportsWhen_fetchJson _ _ (fun v => (readsWhen_lastBuild v).reports) s).map ?_
    exact fun _ => ⟨_, rfl⟩
  | build url =>
    rw [Call.run, result_of_done]
    exact (reportsWhen_build server url s).map fun _ => ⟨_, rfl⟩
  | lastFailed job =>
    rw [Call.run, result_of_done]
    refine ReportsWhen.map ?_ fun _ => ⟨_, rfl⟩
    cases job with
    | str text =>
      -- a build that is not found is taken for none, and other complaints are passed on
      have hbuild := reportsWhen_build server (.str (joinText text "lastFailedBuild")) s
      refine reportsWhen_rescue (reportsWhen_map some hbuild) fun c s' hp => ?_
      dsimp only
      split
      · exact .value hp none
      · exact .complaint hp c
    | _ => exact reportsWhen_nowhere rfl
  | consoleText url =>
    rw [Call.run, result_of_done]
    refine ReportsWhen.map ?_ fun _ => ⟨_, rfl⟩
    cases url with
    | str text =>
      have hresult : ((server.consoleText (.str text)).outcome s).1
          = answerTo _ s.responses.head? >>= fun reply => .ok (textOf reply) :=
        result_fetch_bind _ _ (fun reply => .ok (textOf reply)) s
      rw [hresult]
      refine (reportsWhen_answer none _ _ fun reply => .value (by rintro _ ⟨⟩) _).congr ?_
      refine ⟨fun h => ⟨_, rfl, h⟩, ?_⟩
      rintro ⟨_, _, h⟩
      exact h
    | _ => exact reportsWhen_nowhere rfl

/-! ### Calls that change something -/

/-- What is kept of a value changes nothing about it. -/
theorem result_bind_keep (part : Desk α) (next : α → Except Fault β)
    (keep : β → Session → Session) (s : Session) :
    ((do
      let a ← part
      let b ← Desk.ofExcept (next a)
      modify (keep b)
      pure b : Desk β).outcome s).1 = (part.outcome s).1 >>= next := by
  rw [outcome_bind]
  rcases part.outcome s with ⟨f | a, s₁⟩
  · rfl
  · show _ = next a
    dsimp only
    rcases next a with f | b <;> rfl

theorem result_crumb (hs : s.crumb = none) : (server.crumb.outcome s).1 =
    answerTo server.crumbRequest s.responses.head? >>= fun reply => jsonOf reply >>= crumbOf := by
  rw [crumb, outcome_get_bind, hs, ← result_exchange]
  exact result_bind_keep _ (fun reply => jsonOf reply >>= crumbOf)
    (fun header s => { s with crumb := some header }) s

/-- A crumb is come by or a complaint is made when the exchange is clear. -/
theorem reportsWhen_crumb (server : Server) (hs : s.crumb = none) :
    ReportsWhen (IsClearOf (some IsCrumb) s.responses.head?) (server.crumb.outcome s).1 := by
  rw [result_crumb hs]
  refine reportsWhen_answer _ _ _ fun reply => ?_
  refine ((readsWhen_jsonOf reply).reports_bind fun v _ => (readsWhen_crumbOf v).reports).congr ?_
  simp [HasShape]

theorem result_post_plain (url : String) (data : List (String × Json))
    (huse : server.settings.useCrumb = false) (s : Session) :
    ((server.post url data).outcome s).1 =
      answerTo { method := "POST", url, timeout := server.patience, data } s.responses.head? := by
  rw [post, huse]
  exact result_exchange _ s

theorem result_post_of_yields (url : String) (data : List (String × Json))
    (huse : server.settings.useCrumb = true) (h : server.crumb.Yields s header s') :
    ((server.post url data).outcome s).1 =
      answerTo { method := "POST", url, timeout := server.patience, headers := [header], data }
        s'.responses.head? := by
  rw [post, huse, if_pos rfl, outcome_bind, h]
  exact result_exchange _ s'

theorem result_post_of_fails (url : String) (data : List (String × Json)) {f : Fault}
    (huse : server.settings.useCrumb = true) (h : server.crumb.Fails s f s') :
    ((server.post url data).outcome s).1 = .error f := by
  rw [post, huse, if_pos rfl, outcome_bind, h]

/-- Any reply to a post will do. -/
theorem reportsWhen_posted {q : Request} (hchanges : call.changes = true)
    (hpost : q.method = "POST") (response : Option Response) :
    ReportsWhen (call.IsClear ⟨q, response⟩) (answerTo q response) := by
  have hshape : call.shape? q = none := by
    have hno : q.method ≠ "GET" := by
      rw [hpost]
      exact show "POST" ≠ "GET" by decide
    cases call with
    | trigger | stop => exact if_neg hno
    | _ => cases hchanges
  rw [Call.IsClear, hshape, ← bind_pure (answerTo q response)]
  exact reportsWhen_answer none q response fun reply => .value nofun reply

/-- A post reports when the exchanges are clear: the one for the crumb, if there is one, and its
own, if it comes to that. -/
theorem reportsWhen_post {r : Request} (hchanges : call.changes = true)
    (hown : call.request? server = some r) (s : Session) :
    ReportsWhen (∀ x ∈ s.sent ((server.post r.url r.data).outcome s).2, call.IsClear x)
      ((server.post r.url r.data).outcome s).1 := by
  have hcrumb (response : Option Response) :
      call.IsClear ⟨server.crumbRequest, response⟩ ↔ IsClearOf (some IsCrumb) response := by
    cases call with
    | trigger | stop => exact Iff.rfl
    | _ => cases hchanges
  -- the crumb is asked for only when the settings want one and none is held yet
  rcases huse : server.settings.useCrumb with _ | _
  · rw [result_post_plain _ _ huse, session_post_plain _ _ huse, s.sent_after,
      List.forall_mem_singleton]
    exact reportsWhen_posted hchanges rfl _
  rcases hheld : s.crumb with _ | h
  · have hfirst := reportsWhen_crumb server hheld
    rw [← hcrumb] at hfirst
    by_cases hnames : ∃ h, Names s.responses.head? h
    · obtain ⟨h, hnames⟩ := hnames
      have hyields : server.crumb.Yields s h
          { s.after server.crumbRequest with crumb := some h } :=
        (crumb_yields hheld).mpr ⟨hnames, rfl⟩
      rw [result_post_of_yields _ _ huse hyields, session_post_of_yields _ _ huse hyields,
        s.sent_after_after]
      -- the exchange for the crumb is clear, since it came by one
      have hclear : call.IsClear ⟨server.crumbRequest, s.responses.head?⟩ :=
        hfirst.isReported_iff.mp (.inl ⟨h, congrArg Prod.fst hyields⟩)
      rw [Session.after_responses]
      refine (reportsWhen_posted hchanges ?_ _).congr ?_
      · rfl
      · simp [hclear]
    · obtain ⟨f, hfails⟩ : ∃ f, server.crumb.Fails s f (s.after server.crumbRequest) :=
        crumb_fails hheld (not_exists.mp hnames)
      rw [result_post_of_fails _ _ huse hfails, session_post_of_fails _ _ huse hfails,
        s.sent_after, List.forall_mem_singleton]
      rw [congrArg Prod.fst hfails] at hfirst
      exact hfirst.error
  · have hyields : server.crumb.Yields s h s := outcome_crumb_of_held hheld
    rw [result_post_of_yields _ _ huse hyields, session_post_of_yields _ _ huse hyields,
      s.sent_after, List.forall_mem_singleton]
    exact reportsWhen_posted hchanges rfl _

/-- A call that changes something comes to what its post comes to. -/
theorem result_run_of_changes (hchanges : call.changes = true) (s : Session) :
    ((call.run server).outcome s).1 = match call.request? server with
      | some r => ((server.post r.url r.data).outcome s).1 >>= fun _ => .ok ()
      | none => .error .noAttribute := by
  cases call with
  | trigger job params =>
    cases job with
    | str text =>
      rw [Call.run, result_of_done]
      have hpost : ((server.trigger (.str text) params).outcome s).1
          = ((server.post _ params).outcome s).1 >>= fun reply => .ok (headerOf reply "Location") :=
        result_bind_ofExcept (server.post _ params) (fun reply => .ok (headerOf reply "Location")) s
      rw [hpost, bind_assoc]
      rfl
    | _ => rfl
  | stop url =>
    cases url with
    | str text => exact result_of_done (server.post _ []) s
    | _ => rfl
  | _ => cases hchanges

/-- A call reports when there is an address for its request and all it exchanges is clear. -/
theorem reportsWhen_run (server : Server) (call : Call) (s : Session) :
    ReportsWhen ((call.request? server).isSome ∧
        ∀ x ∈ s.sent ((call.run server).outcome s).2, call.IsClear x)
      ((call.run server).outcome s).1 := by
  rcases hchanges : call.changes with _ | _
  · rw [Call.session_run_of_reads hchanges]
    refine (reportsWhen_of_reads hchanges s).congr ?_
    rcases call.request? server with _ | r
    · simp
    · simp [sessionAfter, s.sent_after]
  · rw [Call.session_run_of_changes hchanges, result_run_of_changes hchanges]
    rcases hown : call.request? server with _ | r
    · exact .strays (by simp) (.misread .noAttribute)
    · refine ((reportsWhen_post hchanges hown s).map fun _ => ⟨_, rfl⟩).congr ?_
      simp

end Server
end BuildDesk
