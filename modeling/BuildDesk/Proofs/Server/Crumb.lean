/-
Crumbs.

A server may ask that requests which change something carry a crumb, a header that the server
names itself.  A client fetches it when it first needs it and keeps it from then on, so that
what a call sends depends on the calls before it, and on nothing of them but the crumb that
one of them came by:

* `Names`, `crumbRequest` — a response names a header, and the request that asks for one;
* `Sends`, `sends_run` — what a call sends from a crumb that is held or from none, and what
  is held afterwards;
* `runAll`, `CameBy`, `crumb_runAll` — after any calls the crumb that is held is the one that
  a call among them came by, and none is held when no call came by one;
* `CrumbLaw`, `crumbLaw_of_calls` — the law of crumbs, for a call after any calls.
-/
import BuildDesk.Proofs.Server.Listed
import BuildDesk.Proofs.Server.Traffic

namespace BuildDesk.Server

open Desk

/-- A header of a request. -/
abbrev Header := Json × Json

/-- The request for a crumb. -/
def crumbRequest (server : Server) : Request where
  method := "GET"
  url := joinText server.settings.url "crumbIssuer/api/json"
  timeout := server.patience

/-- The response names a header: it is a reply that serves the request, and its JSON is an
object that has both parts of the header. -/
def Names (response : Option Response) (header : Header) : Prop :=
  ∃ reply seconds members, response = some (.reply reply seconds) ∧
    isFailure reply.status = .ok false ∧ jsonOf reply = .ok (.object members) ∧
    members.lookup "crumbRequestField" = some header.1 ∧
    members.lookup "crumb" = some header.2 ∧ isName header.1 = true

variable {server : Server} {call : Call} {s s' : Session} {header : Header}

/-! ### Coming by a crumb -/

/-- A request is served by a reply whose status means no failure. -/
theorem exchange_yields {r : Request} {reply : Reply} : (exchange r).Yields s reply s' ↔
    ∃ seconds, s.responses.head? = some (.reply reply seconds) ∧
      isFailure reply.status = .ok false ∧ s' = s.after r := by
  have hafter : ∀ {seconds rest}, s.responses = .reply reply seconds :: rest →
      s.after r = { s with
        clock := s.clock + seconds, responses := rest, log := .http r :: s.log } := by
    intro seconds rest hs
    rw [Session.after, outcome_exchange, hs]
  rw [exchange, yields_bind]
  constructor
  · rintro ⟨first, s₁, hfirst, hrest⟩
    obtain ⟨seconds, rest, hs, rfl⟩ := yields_exchange.mp hfirst
    obtain ⟨failed, s₂, hfailed, hlast⟩ := yields_bind.mp hrest
    obtain ⟨hstatus, rfl⟩ := yields_ofExcept.mp hfailed
    cases failed with
    | true => exact absurd hlast yields_throw
    | false =>
      obtain ⟨rfl, rfl⟩ := yields_pure.mp hlast
      exact ⟨seconds, by rw [hs]; rfl, hstatus, (hafter hs).symm⟩
  · rintro ⟨seconds, hhead, hstatus, rfl⟩
    obtain ⟨rest, hs⟩ : ∃ rest, s.responses = .reply reply seconds :: rest := by
      cases hs : s.responses with
      | nil => rw [hs] at hhead; cases hhead
      | cons first rest => rw [hs] at hhead; exact ⟨rest, by rw [Option.some.inj hhead]⟩
    refine ⟨reply, _, yields_exchange.mpr ⟨seconds, rest, hs, hafter hs⟩, ?_⟩
    exact yields_bind.mpr ⟨false, _, yields_ofExcept.mpr ⟨hstatus, rfl⟩, yields_pure.mpr ⟨rfl, rfl⟩⟩

/-- What is demanded is there. -/
theorem demand_eq_ok {v w : Json} {name : String} : demand v name = .ok w ↔
    ∃ members, v = .object members ∧ members.lookup name = some w := by
  cases v with
  | object members =>
    cases hfound : members.lookup name <;> simp [demand, hfound]
  | _ => simp [demand]

/-- A crumb is made of two members of an object. -/
theorem crumbOf_eq_ok {body : Json} : crumbOf body = .ok header ↔
    ∃ members, body = .object members ∧ members.lookup "crumbRequestField" = some header.1 ∧
      members.lookup "crumb" = some header.2 ∧ isName header.1 = true := by
  constructor
  · intro h
    obtain ⟨field, hdemanded, hrest⟩ := exists_of_bind_eq_ok h
    obtain ⟨value, hdemanded', hlast⟩ := exists_of_bind_eq_ok hrest
    obtain ⟨members, rfl, hfield⟩ := demand_eq_ok.mp hdemanded
    obtain ⟨_, hmembers, hvalue⟩ := demand_eq_ok.mp hdemanded'
    obtain rfl := Json.object.inj hmembers
    cases hname : isName field with
    | false => rw [hname] at hlast; cases hlast
    | true =>
      rw [hname] at hlast
      obtain rfl := Except.ok.inj hlast
      exact ⟨members, rfl, hfield, hvalue, hname⟩
  · rintro ⟨members, rfl, hfield, hvalue, hname⟩
    rw [crumbOf, demand_eq_ok.mpr ⟨members, rfl, hfield⟩, demand_eq_ok.mpr ⟨members, rfl, hvalue⟩]
    exact if_pos hname

theorem names_iff {response : Option Response} : Names response header ↔
    ∃ reply seconds, response = some (.reply reply seconds) ∧
      isFailure reply.status = .ok false ∧
      (do crumbOf (← jsonOf reply) : Except Fault Header) = .ok header := by
  constructor
  · rintro ⟨reply, seconds, members, hresponse, hstatus, hbody, hparts⟩
    refine ⟨reply, seconds, hresponse, hstatus, ?_⟩
    rw [hbody]
    exact crumbOf_eq_ok.mpr ⟨members, rfl, hparts⟩
  · rintro ⟨reply, seconds, hresponse, hstatus, hcrumb⟩
    obtain ⟨body, hbody, hcrumb⟩ := exists_of_bind_eq_ok hcrumb
    obtain ⟨members, rfl, hparts⟩ := crumbOf_eq_ok.mp hcrumb
    exact ⟨reply, seconds, members, hresponse, hstatus, hbody, hparts⟩

/-- A response names one header. -/
theorem Names.unique {response : Option Response} {h₁ h₂ : Header} (h : Names response h₁)
    (h' : Names response h₂) : h₁ = h₂ := by
  obtain ⟨reply, seconds, hresponse, -, hbody⟩ := names_iff.mp h
  obtain ⟨reply', seconds', hresponse', -, hbody'⟩ := names_iff.mp h'
  obtain ⟨rfl, rfl⟩ := Response.reply.inj (Option.some.inj (hresponse.symm.trans hresponse'))
  exact Except.ok.inj (hbody.symm.trans hbody')

theorem outcome_crumb_of_held (hs : s.crumb = some header) :
    server.crumb.outcome s = (.ok header, s) := by
  rw [crumb, outcome_get_bind, hs]
  rfl

/-- Without a crumb one is asked for, and the response names it or not. -/
theorem crumb_yields (hs : s.crumb = none) : server.crumb.Yields s header s' ↔
    Names s.responses.head? header ∧
      s' = { s.after server.crumbRequest with crumb := some header } := by
  rw [crumb, yields_get_bind, hs, names_iff]
  constructor
  · intro h
    obtain ⟨reply, s₁, hreply, hrest⟩ := yields_bind.mp h
    obtain ⟨seconds, hhead, hstatus, rfl⟩ := exchange_yields.mp hreply
    obtain ⟨found, s₂, hfound, hlast⟩ := yields_bind.mp hrest
    obtain ⟨hbody, rfl⟩ := yields_ofExcept.mp hfound
    obtain ⟨u, s₃, hheld, hdone⟩ := yields_bind.mp hlast
    obtain ⟨rfl, rfl⟩ := yields_pure.mp hdone
    exact ⟨⟨reply, seconds, hhead, hstatus, hbody⟩, yields_modify.mp hheld⟩
  · rintro ⟨⟨reply, seconds, hhead, hstatus, hbody⟩, rfl⟩
    refine yields_bind.mpr ⟨reply, _, exchange_yields.mpr ⟨seconds, hhead, hstatus, rfl⟩, ?_⟩
    refine yields_bind.mpr ⟨header, _, yields_ofExcept.mpr ⟨hbody, rfl⟩, ?_⟩
    exact yields_bind.mpr ⟨(), _, yields_modify.mpr rfl, yields_pure.mpr ⟨rfl, rfl⟩⟩

/-- When no crumb is come by, the request for one is all that happens. -/
theorem crumb_fails (hs : s.crumb = none) (hno : ∀ h, ¬ Names s.responses.head? h) :
    ∃ f, server.crumb.Fails s f (s.after server.crumbRequest) := by
  cases hout : server.crumb.outcome s with | mk result s₁ =>
  cases result with
  | ok found => exact absurd ((crumb_yields hs).mp hout).1 (hno found)
  | error f =>
    refine ⟨f, ?_⟩
    suffices hs₁ : s₁ = s.after server.crumbRequest from hs₁ ▸ hout
    rw [crumb, outcome_get_bind, hs] at hout
    rcases fails_bind.mp hout with hfirst | ⟨reply, s₂, hfirst, hrest⟩
    · exact (congrArg Prod.snd hfirst).symm.trans (session_exchange _ s)
    · obtain rfl : s₂ = s.after server.crumbRequest :=
        (congrArg Prod.snd hfirst).symm.trans (session_exchange _ s)
      rcases fails_bind.mp hrest with hbody | ⟨found, s₃, -, hlast⟩
      · exact (fails_ofExcept.mp hbody).2
      · -- holding the crumb does not fail
        cases congrArg Prod.fst hlast

/-! ### What a call sends -/

/-- What a call sends from a crumb that is held, or from none, and what is held afterwards. -/
inductive Sends (server : Server) (call : Call) :
    Option Header → List Exchange → Option Header → Prop
  /-- Without an address nothing is sent. -/
  | nothing {held : Option Header} (hnone : call.request? server = none) :
      Sends server call held [] held
  | bare {held : Option Header} {r : Request} (response : Option Response)
      (hown : call.request? server = some r)
      (hbare : server.settings.useCrumb = false ∨ call.changes = false) :
      Sends server call held [⟨r, response⟩] held
  | carrying {h : Header} {r : Request} (response : Option Response)
      (hown : call.request? server = some r) (huse : server.settings.useCrumb = true)
      (hchanges : call.changes = true) :
      Sends server call (some h) [⟨{ r with headers := [h] }, response⟩] (some h)
  | refused {r : Request} {response : Option Response} (hown : call.request? server = some r)
      (huse : server.settings.useCrumb = true) (hchanges : call.changes = true)
      (hno : ∀ h, ¬ Names response h) :
      Sends server call none [⟨server.crumbRequest, response⟩] none
  | fetching {h : Header} {r : Request} {first : Option Response} (response : Option Response)
      (hown : call.request? server = some r) (huse : server.settings.useCrumb = true)
      (hchanges : call.changes = true) (hnames : Names first h) :
      Sends server call none
        [⟨server.crumbRequest, first⟩, ⟨{ r with headers := [h] }, response⟩] (some h)

/-- A call that reads is for a get without headers. -/
theorem request?_of_reads {r : Request} (hreads : call.changes = false)
    (hown : call.request? server = some r) : r.method = "GET" ∧ r.headers = [] := by
  have hreading : ∀ {url tree}, server.reading? url tree = some r →
      r.method = "GET" ∧ r.headers = [] := by
    intro url tree h
    obtain ⟨address, -, rfl⟩ := Option.map_eq_some_iff.mp h
    exact ⟨rfl, rfl⟩
  cases call with
  | trigger | stop => cases hreads
  | listJobs | queuedBuild | lastBuild | build => exact hreading hown
  | lastFailed job =>
    obtain ⟨url, -, h⟩ := Option.bind_eq_some_iff.mp hown
    exact hreading h
  | consoleText url =>
    obtain ⟨address, -, rfl⟩ := Option.map_eq_some_iff.mp hown
    exact ⟨rfl, rfl⟩

/-- A call that changes something is for a post, and nothing of the post but its address and
its data is the call's. -/
theorem request?_of_changes {r : Request} (hchanges : call.changes = true)
    (hown : call.request? server = some r) :
    r = { method := "POST", url := r.url, timeout := server.patience, data := r.data } := by
  have hchanging : ∀ {url path data}, server.changing? url path data = some r →
      r = { method := "POST", url := r.url, timeout := server.patience, data := r.data } := by
    intro url path data h
    obtain ⟨address, -, rfl⟩ := Option.map_eq_some_iff.mp h
    rfl
  cases call with
  | trigger | stop => exact hchanging hown
  | _ => cases hchanges

theorem session_post_plain (url : String) (data : List (String × Json))
    (huse : server.settings.useCrumb = false) (s : Session) :
    ((server.post url data).outcome s).2 =
      s.after { method := "POST", url, timeout := server.patience, data } := by
  rw [post, huse]
  exact session_exchange _ s

/-- With a crumb at hand the post carries it. -/
theorem session_post_of_yields (url : String) (data : List (String × Json))
    (huse : server.settings.useCrumb = true) (h : server.crumb.Yields s header s') :
    ((server.post url data).outcome s).2 =
      s'.after { method := "POST", url, timeout := server.patience, headers := [header], data } := by
  rw [post, huse, if_pos rfl, outcome_bind, h]
  exact session_exchange _ s'

/-- Without one nothing is posted. -/
theorem session_post_of_fails (url : String) (data : List (String × Json)) {f : Fault}
    (huse : server.settings.useCrumb = true) (h : server.crumb.Fails s f s') :
    ((server.post url data).outcome s).2 = s' := by
  rw [post, huse, if_pos rfl, outcome_bind, h]

/-- A call sends what the law of crumbs says, and holds the crumb afterwards that it says. -/
theorem sends_run (server : Server) (call : Call) (s : Session) :
    Sends server call s.crumb (s.sent ((call.run server).outcome s).2)
      ((call.run server).outcome s).2.crumb := by
  -- only a call that changes something looks at the crumb, and only when the settings ask for one
  rcases hchanges : call.changes with _ | _
  · rw [Call.session_run_of_reads hchanges]
    rcases hown : call.request? server with _ | r
    · rw [sessionAfter, s.sent_self]
      exact .nothing hown
    · rw [sessionAfter, s.sent_after, s.after_crumb]
      exact .bare _ hown (.inr hchanges)
  rw [Call.session_run_of_changes hchanges]
  rcases hown : call.request? server with _ | r
  · rw [s.sent_self]
    exact .nothing hown
  dsimp only
  have hr := request?_of_changes hchanges hown
  rcases huse : server.settings.useCrumb with _ | _
  · rw [session_post_plain _ _ huse, ← hr, s.sent_after, s.after_crumb]
    exact .bare _ hown (.inl huse)
  -- the post that is sent is the request of the call with a header added
  have hcarried : ∀ h : Header,
      { method := "POST", url := r.url, timeout := server.patience, headers := [h], data := r.data }
        = { r with headers := [h] } := fun h => by rw [hr]
  rcases hheld : s.crumb with _ | h
  · by_cases hnames : ∃ h, Names s.responses.head? h
    · obtain ⟨h, hnames⟩ := hnames
      rw [session_post_of_yields _ _ huse ((crumb_yields hheld).mpr ⟨hnames, rfl⟩), hcarried,
        s.sent_after_after, Session.after_crumb]
      exact .fetching _ hown huse hchanges hnames
    · have hno := not_exists.mp hnames
      obtain ⟨f, hfails⟩ : ∃ f, server.crumb.Fails s f (s.after server.crumbRequest) :=
        crumb_fails hheld hno
      rw [session_post_of_fails _ _ huse hfails, s.sent_after, s.after_crumb, hheld]
      exact .refused hown huse hchanges hno
  · rw [session_post_of_yields _ _ huse (outcome_crumb_of_held hheld), hcarried, s.sent_after,
      s.after_crumb, hheld]
    exact .carrying _ hown huse hchanges

/-! ### Any calls -/

/-- A call with what it exchanged. -/
abbrev Entry := Call × List Exchange

/-- The session after calls, whatever each of them comes to, and what each exchanged. -/
def runAll (server : Server) : List Call → Session → List Entry × Session
  | [], s => ([], s)
  | call :: rest, s =>
    let s₁ := ((call.run server).outcome s).2
    ((call, s.sent s₁) :: (runAll server rest s₁).1, (runAll server rest s₁).2)

/-- One of the calls came by a crumb: it changes something, and asked for the crumb with a
request whose response names it. -/
def CameBy (server : Server) (entries : List Entry) (header : Header) : Prop :=
  ∃ entry ∈ entries, entry.1.changes = true ∧
    ∃ response, ⟨server.crumbRequest, response⟩ ∈ entry.2 ∧ Names response header

theorem not_cameBy_nil : ¬ CameBy server [] header := fun ⟨_, hmem, _⟩ => nomatch hmem

theorem cameBy_cons {entry : Entry} {rest : List Entry} :
    CameBy server (entry :: rest) header ↔
      CameBy server [entry] header ∨ CameBy server rest header := by
  simp only [CameBy, List.mem_cons, List.not_mem_nil, or_false, or_and_right, exists_or,
    exists_eq_left]

/-- The request for a crumb is a get, and a post is none. -/
theorem ne_crumbRequest {r : Request} (hchanges : call.changes = true)
    (hown : call.request? server = some r) (headers : List Header) :
    server.crumbRequest ≠ { r with headers } := by
  intro h
  have hmethod : "GET" = r.method := congrArg Request.method h
  rw [request?_of_changes hchanges hown] at hmethod
  exact absurd hmethod (show "GET" ≠ "POST" by decide)

/-- A crumb that is held after a call was held before, or the call came by it. -/
theorem Sends.held_iff {held held' : Option Header} {sent : List Exchange}
    (h : Sends server call held sent held') :
    held' = some header ↔ held = some header ∨ CameBy server [(call, sent)] header := by
  have hcame : CameBy server [(call, sent)] header ↔ call.changes = true ∧
      ∃ response, ⟨server.crumbRequest, response⟩ ∈ sent ∧ Names response header := by
    simp only [CameBy, List.mem_singleton, exists_eq_left]
  rw [hcame]
  cases h with
  | nothing hnone => simp
  | bare response hown hbare =>
    refine ⟨.inl, Or.rec id ?_⟩
    rintro ⟨hchanges, response, hmem, -⟩
    have hrequest := congrArg Exchange.request (List.mem_singleton.mp hmem)
    exact absurd hrequest (ne_crumbRequest hchanges hown _)
  | carrying response hown huse hchanges =>
    refine ⟨.inl, Or.rec id ?_⟩
    rintro ⟨-, response, hmem, -⟩
    have hrequest := congrArg Exchange.request (List.mem_singleton.mp hmem)
    exact absurd hrequest (ne_crumbRequest hchanges hown _)
  | refused hown huse hchanges hno =>
    refine ⟨.inl, Or.rec id ?_⟩
    rintro ⟨-, response, hmem, hnames⟩
    obtain rfl := congrArg Exchange.response (List.mem_singleton.mp hmem)
    exact absurd hnames (hno header)
  | fetching response hown huse hchanges hnames =>
    constructor
    · intro h
      exact .inr ⟨hchanges, _, .head _, Option.some.inj h ▸ hnames⟩
    · rintro (h | ⟨-, response', hmem, hnames'⟩)
      · cases h
      · rcases List.mem_cons.mp hmem with hfirst | hsecond
        · obtain rfl := congrArg Exchange.response hfirst
          exact congrArg some (hnames.unique hnames')
        · have hrequest := congrArg Exchange.request (List.mem_singleton.mp hsecond)
          exact absurd hrequest (ne_crumbRequest hchanges hown _)

/-- The crumb that is held after calls is the one that was held before or that a call among
them came by. -/
theorem crumb_runAll (server : Server) (calls : List Call) (s : Session) :
    (runAll server calls s).2.crumb = some header ↔
      s.crumb = some header ∨ CameBy server (runAll server calls s).1 header := by
  induction calls generalizing s with
  | nil => simp [runAll, not_cameBy_nil]
  | cons call rest ih =>
    rw [runAll, ih, (sends_run server call s).held_iff, or_assoc, ← cameBy_cons]

/-! ### The law of crumbs -/

/-- The law of crumbs, for what a call sends after what earlier calls exchanged. -/
structure CrumbLaw (server : Server) (earlier : List Entry) (call : Call)
    (sent : List Exchange) : Prop where
  /-- What only reads carries no header. -/
  bare : ∀ e ∈ sent, e.request.method = "GET" → e.request.headers = []
  /-- Where no crumb is wanted, nothing but the request of the call is sent, without a
  header. -/
  unwanted : server.settings.useCrumb = false →
    sent.map (·.request) = (call.request? server).toList ∧ ∀ e ∈ sent, e.request.headers = []
  /-- A call that reads asks for no crumb. -/
  reading : call.changes = false → sent.map (·.request) = (call.request? server).toList
  /-- Where a crumb is wanted, what changes something carries one header, which the response
  to an earlier request for a crumb has named. -/
  carried : server.settings.useCrumb = true → ∀ front e back, sent = front ++ e :: back →
    e.request.method ≠ "GET" → ∃ header, e.request.headers = [header] ∧
      ∃ x ∈ earlier.flatMap (·.2) ++ front,
        x.request = server.crumbRequest ∧ Names x.response header
  /-- After a crumb was come by, none is asked for: a call that changes something sends its
  request with that crumb and nothing else. -/
  kept : server.settings.useCrumb = true → call.changes = true → ∀ header,
    CameBy server earlier header → sent.map (·.request) =
      (call.request? server).toList.map ({ · with headers := [header] })
  /-- As long as no crumb was come by, a call that changes something asks for one first.  Its
  own request follows with the header that is named, and when none is named it does not. -/
  tried : server.settings.useCrumb = true → call.changes = true →
    (∀ header, ¬ CameBy server earlier header) → ∀ r, call.request? server = some r →
      ∃ response back, sent = ⟨server.crumbRequest, response⟩ :: back ∧
        ((∀ header, ¬ Names response header) → back = []) ∧
        ∀ header, Names response header →
          ∃ response', back = [⟨{ r with headers := [header] }, response'⟩]

/-- What came by a crumb is among what was exchanged. -/
theorem CameBy.exchanged {entries : List Entry} (h : CameBy server entries header) :
    ∃ x ∈ entries.flatMap (·.2), x.request = server.crumbRequest ∧ Names x.response header := by
  obtain ⟨entry, hmem, -, response, hsent, hnames⟩ := h
  exact ⟨_, List.mem_flatMap.mpr ⟨entry, hmem, hsent⟩, rfl, hnames⟩

theorem headers_of_own {r : Request} (hown : call.request? server = some r) : r.headers = [] := by
  rcases hchanges : call.changes with _ | _
  · exact (request?_of_reads hchanges hown).2
  · rw [request?_of_changes hchanges hown]

theorem eq_of_singleton {α : Type} {a e : α} {front back : List α}
    (h : [a] = front ++ e :: back) : front = [] ∧ a = e := by
  rcases front with _ | ⟨x, front⟩
  · exact ⟨rfl, (List.cons.inj h).1⟩
  · simp at h

namespace Sends

variable {held held' : Option Header} {sent : List Exchange}

theorem headers_of_get (h : Sends server call held sent held') :
    ∀ e ∈ sent, e.request.method = "GET" → e.request.headers = [] := by
  have hpost : ∀ {r}, call.changes = true → call.request? server = some r → r.method ≠ "GET" := by
    intro r hchanges hown
    rw [request?_of_changes hchanges hown]
    exact show "POST" ≠ "GET" by decide
  cases h with
  | nothing => simp
  | bare response hown => simpa using fun _ => headers_of_own hown
  | carrying response hown huse hchanges => simpa using hpost hchanges hown
  | refused => simp [crumbRequest]
  | fetching response hown huse hchanges => simpa [crumbRequest] using hpost hchanges hown

/-- Where no crumb is wanted and in a call that reads, the request of the call is sent as it
is. -/
theorem requests_of_bare (h : Sends server call held sent held')
    (hbare : server.settings.useCrumb = false ∨ call.changes = false) :
    sent.map (·.request) = (call.request? server).toList := by
  cases h with
  | nothing hnone => rw [hnone]; rfl
  | bare response hown => rw [hown]; rfl
  | carrying response hown huse hchanges | refused hown huse hchanges
  | fetching response hown huse hchanges => simp [huse, hchanges] at hbare

/-- With a crumb that is held, the request of a call that changes something carries it. -/
theorem requests_of_held (h : Sends server call (some header) sent held')
    (huse : server.settings.useCrumb = true) (hchanges : call.changes = true) :
    sent.map (·.request) = (call.request? server).toList.map ({ · with headers := [header] }) := by
  cases h with
  | nothing hnone => rw [hnone]; rfl
  | bare response hown hbare => simp [huse, hchanges] at hbare
  | carrying response hown => rw [hown]; rfl

/-- Without a crumb, a call that changes something asks for one first. -/
theorem tries {r : Request} (h : Sends server call none sent held')
    (huse : server.settings.useCrumb = true) (hchanges : call.changes = true)
    (hr : call.request? server = some r) :
    ∃ response back, sent = ⟨server.crumbRequest, response⟩ :: back ∧
      ((∀ header, ¬ Names response header) → back = []) ∧
      ∀ header, Names response header →
        ∃ response', back = [⟨{ r with headers := [header] }, response'⟩] := by
  cases h with
  | nothing hnone => rw [hr] at hnone; cases hnone
  | bare response hown hbare => simp [huse, hchanges] at hbare
  | refused hown _ _ hno =>
    exact ⟨_, [], rfl, fun _ => rfl, fun header hnames => absurd hnames (hno header)⟩
  | @fetching found _ _ response hown _ _ hnames =>
    obtain rfl := Option.some.inj (hr.symm.trans hown)
    refine ⟨_, _, rfl, fun hno => absurd hnames (hno found), fun header hnames' => ?_⟩
    rw [hnames.unique hnames']
    exact ⟨response, rfl⟩

/-- Where a crumb is wanted, what is no get carries the crumb that was held, or the one that
the request before it came by. -/
theorem carries (h : Sends server call held sent held')
    (huse : server.settings.useCrumb = true) {front back : List Exchange} {e : Exchange}
    (hsplit : sent = front ++ e :: back) (hmethod : e.request.method ≠ "GET") :
    ∃ header, e.request.headers = [header] ∧ (held = some header ∨
      ∃ x ∈ front, x.request = server.crumbRequest ∧ Names x.response header) := by
  cases h with
  | nothing => simp at hsplit
  | bare response hown hbare =>
    obtain ⟨-, rfl⟩ := eq_of_singleton hsplit
    have hreads := hbare.resolve_left (by rw [huse]; exact Bool.noConfusion)
    exact absurd (request?_of_reads hreads hown).1 hmethod
  | @carrying header _ response hown =>
    obtain ⟨-, rfl⟩ := eq_of_singleton hsplit
    exact ⟨header, rfl, .inl rfl⟩
  | refused =>
    obtain ⟨-, rfl⟩ := eq_of_singleton hsplit
    exact absurd rfl hmethod
  | @fetching header _ first response hown _ _ hnames =>
    rcases front with _ | ⟨x, front⟩
    · obtain ⟨rfl, -⟩ := List.cons.inj hsplit
      exact absurd rfl hmethod
    · obtain ⟨rfl, hrest⟩ := List.cons.inj hsplit
      obtain ⟨-, rfl⟩ := eq_of_singleton hrest
      exact ⟨header, rfl, .inr ⟨_, .head _, rfl, hnames⟩⟩

end Sends

/-- A call keeps the law of crumbs when it starts from the crumb that an earlier call came by,
or from none when none did. -/
theorem crumbLaw_of_sends {earlier : List Entry} {held held' : Option Header}
    {sent : List Exchange} (hheld : ∀ h, held = some h ↔ CameBy server earlier h)
    (h : Sends server call held sent held') : CrumbLaw server earlier call sent where
  bare := h.headers_of_get
  unwanted hno := by
    refine ⟨h.requests_of_bare (.inl hno), fun e he => ?_⟩
    have hmem : e.request ∈ sent.map (·.request) := List.mem_map_of_mem he
    rw [h.requests_of_bare (.inl hno), Option.mem_toList] at hmem
    exact headers_of_own hmem
  reading hreads := h.requests_of_bare (.inr hreads)
  carried huse front e back hsplit hmethod := by
    obtain ⟨header, hheaders, hcame | ⟨x, hx, hnames⟩⟩ := h.carries huse hsplit hmethod
    · obtain ⟨x, hx, hnames⟩ := ((hheld header).mp hcame).exchanged
      exact ⟨header, hheaders, x, List.mem_append_left _ hx, hnames⟩
    · exact ⟨header, hheaders, x, List.mem_append_right _ hx, hnames⟩
  kept huse hchanges header hcame := by
    rw [(hheld header).mpr hcame] at h
    exact h.requests_of_held huse hchanges
  tried huse hchanges hnone r hr := by
    obtain rfl : held = none :=
      Option.eq_none_iff_forall_ne_some.mpr fun header h => hnone header ((hheld header).mp h)
    exact h.tries huse hchanges hr

/-- Whatever was called before and whatever the server made of it, a call sends what the law of
crumbs says. -/
theorem crumbLaw_of_calls (server : Server) (calls : List Call) (call : Call) (s : Session)
    (hs : s.crumb = none) :
    CrumbLaw server (runAll server calls s).1 call
      ((runAll server calls s).2.sent
        ((call.run server).outcome (runAll server calls s).2).2) := by
  refine crumbLaw_of_sends (fun h => ?_) (sends_run server call _)
  rw [crumb_runAll, hs]
  simp

/-- A server that wants crumbs. -/
def guarded : Server := ⟨⟨"http://j", "u", "t", "BRANCH", true, .null⟩, .int 30⟩

/-- A job of that server. -/
def guardedJob : Json := .str "http://j/job/a"

/-- The server fails once, then names the header, and from then on serves every request. -/
def failingOnce : Session where
  responses :=
    [.reply { status := .int 500 } 0.0,
      .reply { body := .json (.object [("crumbRequestField", .str "X"), ("crumb", .str "c")]) } 0.0,
      .reply { status := .int 201 } 0.0, .reply { body := .text "done" } 0.0, .reply {} 0.0]

/-- A build is asked for twice, since the first time no crumb is come by. -/
def twiceAsked : List Call :=
  [.trigger guardedJob [], .trigger guardedJob [], .consoleText guardedJob]

/-- The output is read without a header, and the build is stopped with the crumb that the
second request for it came by. -/
theorem crumbLaw_of_guarded :
    failingOnce.crumb = none ∧
      (runAll guarded (twiceAsked ++ [.stop guardedJob]) failingOnce).1.map
        (fun entry => entry.2.map fun e => (e.request.method, e.request.headers)) =
        [[("GET", [])], [("GET", []), ("POST", [(.str "X", .str "c")])], [("GET", [])],
          [("POST", [(.str "X", .str "c")])]] ∧
      CrumbLaw guarded (runAll guarded twiceAsked failingOnce).1 (.stop guardedJob)
        ((runAll guarded twiceAsked failingOnce).2.sent
          (((Call.stop guardedJob).run guarded).outcome
            (runAll guarded twiceAsked failingOnce).2).2) :=
  ⟨rfl, rfl, crumbLaw_of_calls guarded twiceAsked (.stop guardedJob) failingOnce rfl⟩

end BuildDesk.Server
