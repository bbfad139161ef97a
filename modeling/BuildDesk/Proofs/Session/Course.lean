/-
The course of a run.

What a run does is logged, and what the script gives to it is taken in order.  Put together, these
say what happened from one session to another: a prompt with its answer, a request with its
response, anything else by itself.

* `Moment`, `Session.course` — what happened since an earlier session, in order;
* `Session.Runs` — the later session comes of the earlier one, and what happened is of a given
  kind; `Runs.trans` — one run after another;
* `Moment.Simple`, `Moment.Reading`, `Moment.Listing` — what the kinds of courses allow: words only,
  requests that read, listings of jobs;
* `Desk.Courses` — what a part comes to, together with the course that it takes;
  `Desk.courses_after`, `Desk.courses_bind` — one part after another;
* `Step.Courses` — the same inside a flow.
-/
import BuildDesk.Proofs.Server.Crumb

namespace BuildDesk

variable {α β κ : Type}

/-! ### What happens -/

/-- Something that happened, with what the script gave to it. -/
inductive Moment
  | did (e : Event)
  | asked (prompt : Event) (answer : Option Answer)
  | sent (x : Exchange)

/-- An event of a run that neither asks nor sends. -/
def Event.isMere (e : Event) : Bool := !e.isPrompt && e.request?.isNone

/-- Events with what they take from the script, one after another. -/
def momentsOf : List Event → List Answer → List Response → List Moment
  | [], _, _ => []
  | e :: rest, answers, responses =>
    match e.request? with
    | some r => .sent ⟨r, responses.head?⟩ :: momentsOf rest answers responses.tail
    | none =>
      if e.isPrompt then .asked e answers.head? :: momentsOf rest answers.tail responses
      else .did e :: momentsOf rest answers responses

/-- The events that ask. -/
def askings (events : List Event) : Nat := events.countP Event.isPrompt

/-- The events that send. -/
def sendings (events : List Event) : Nat := events.countP fun e => e.request?.isSome

theorem Event.not_isPrompt_of_request {e : Event} {r : Request} (h : e.request? = some r) :
    e.isPrompt = false := by
  cases e with
  | http => rfl
  | _ => cases h

theorem momentsOf_append (events more : List Event) (answers : List Answer)
    (responses : List Response) : momentsOf (events ++ more) answers responses =
      momentsOf events answers responses ++
        momentsOf more (answers.drop (askings events)) (responses.drop (sendings events)) := by
  induction events generalizing answers responses with
  | nil => rfl
  | cons e events ih =>
    rw [List.cons_append, momentsOf, momentsOf, askings, sendings, List.countP_cons,
      List.countP_cons]
    cases hrequest : e.request? with
    | some r =>
      simp [ih, Event.not_isPrompt_of_request hrequest, List.drop_tail, askings, sendings]
    | none =>
      cases hprompt : e.isPrompt with
      | true => simp [ih, List.drop_tail, askings, sendings]
      | false => simp [ih, askings, sendings]

namespace Session

/-- What happened since, in order. -/
def course (s s' : Session) : List Moment :=
  momentsOf (s.news s').reverse s.answers s.responses

/-- The later session comes of the earlier one, and what happened is of the kind `P`. -/
def Runs (P : List Moment → Prop) (s s' : Session) : Prop :=
  ∃ new, s'.log = new ++ s.log ∧ s'.answers = s.answers.drop (askings new) ∧
    s'.responses = s.responses.drop (sendings new) ∧
    P (momentsOf new.reverse s.answers s.responses)

variable {P P' : List Moment → Prop} {s s₁ s₂ : Session}

theorem course_of_log {new : List Event} (h : s₁.log = new ++ s.log) :
    s.course s₁ = momentsOf new.reverse s.answers s.responses := by
  rw [course, news, h, List.length_append, Nat.add_sub_cancel, List.take_left]

theorem Runs.course (h : s.Runs P s₁) : P (s.course s₁) := by
  obtain ⟨new, hlog, -, -, hP⟩ := h
  rwa [course_of_log hlog]

theorem Runs.mono (h : s.Runs P s₁) (hP : ∀ c, P c → P' c) : s.Runs P' s₁ := by
  obtain ⟨new, hlog, hanswers, hresponses, hcourse⟩ := h
  exact ⟨new, hlog, hanswers, hresponses, hP _ hcourse⟩

/-- The course that a run takes is known when its end is. -/
theorem Runs.known (h : s.Runs P s₁) : s.Runs (· = s.course s₁) s₁ := by
  obtain ⟨new, hlog, hanswers, hresponses, -⟩ := h
  exact ⟨new, hlog, hanswers, hresponses, (course_of_log hlog).symm⟩

theorem course_self (s : Session) : s.course s = [] :=
  course_of_log (show s.log = [] ++ s.log from rfl)

/-- One run after another. -/
theorem Runs.course_eq (h : s.Runs P s₁) (h' : s₁.Runs P' s₂) :
    s.course s₂ = s.course s₁ ++ s₁.course s₂ := by
  obtain ⟨new, hlog, hanswers, hresponses, -⟩ := h
  obtain ⟨new', hlog', -⟩ := h'
  have htwo : s₂.log = (new' ++ new) ++ s.log := by rw [hlog', hlog, List.append_assoc]
  have hcount : ∀ p : Event → Bool, new.reverse.countP p = new.countP p := fun p =>
    (List.reverse_perm new).countP_eq p
  rw [course_of_log hlog, course_of_log hlog', course_of_log htwo, List.reverse_append,
    momentsOf_append, hanswers, hresponses, askings, sendings, hcount, hcount, askings, sendings]

theorem Runs.append {P'' : List Moment → Prop} (h : s.Runs P s₁) (h' : s₁.Runs P' s₂)
    (happend : ∀ {c c'}, P c → P' c' → P'' (c ++ c')) : s.Runs P'' s₂ := by
  have hcourse := happend h.course h'.course
  rw [← h.course_eq h'] at hcourse
  obtain ⟨new, hlog, hanswers, hresponses, -⟩ := h
  obtain ⟨new', hlog', hanswers', hresponses', -⟩ := h'
  have htwo : s₂.log = (new' ++ new) ++ s.log := by rw [hlog', hlog, List.append_assoc]
  have hcount : ∀ p : Event → Bool,
      (new' ++ new).countP p = new.countP p + new'.countP p := fun p => by
    rw [List.countP_append, Nat.add_comm]
  refine ⟨new' ++ new, htwo, ?_, ?_, course_of_log htwo ▸ hcourse⟩
  · rw [hanswers', hanswers, List.drop_drop, askings, askings, askings, hcount]
  · rw [hresponses', hresponses, List.drop_drop, sendings, sendings, sendings, hcount]

end Session

/-! ### Kinds of courses -/

namespace Moment

/-- Where two courses meet, an event of the whole is one of either. -/
theorem append_eq_split {c c' before after : List Moment} {m : Moment}
    (h : c ++ c' = before ++ m :: after) :
    (∃ rest, c = before ++ m :: rest) ∨
      ∃ front, before = c ++ front ∧ c' = front ++ m :: after := by
  rcases List.append_eq_append_iff.mp h with ⟨front, hbefore, hrest⟩ | ⟨back, hc, hrest⟩
  · exact .inr ⟨front, hbefore, hrest⟩
  · cases back with
    | nil => exact .inr ⟨[], by rw [hc, List.append_nil, List.append_nil], hrest.symm⟩
    | cons n back =>
      obtain ⟨rfl, -⟩ := List.cons.inj hrest
      exact .inl ⟨back, hc⟩

/-- The kind allows mere events, and one course after another. -/
class Simple (P : List Moment → Prop) : Prop where
  nil : P []
  append : ∀ {c c'}, P c → P c' → P (c ++ c')
  mere : ∀ {e : Event}, e.isMere = true → P [.did e]

/-- A request for the jobs of a server. -/
def isListing (r : Request) : Bool :=
  r.params.any fun param => param.2.asString? == some Server.jobsTree

/-- The kind allows requests that only read, but for listings of the jobs. -/
class Reading (P : List Moment → Prop) : Prop extends Simple P where
  reads : ∀ {r : Request} {response}, r.method = "GET" → isListing r = false →
    P [.sent ⟨r, response⟩]

/-- The kind allows all requests that only read. -/
class Listing (P : List Moment → Prop) : Prop extends Reading P where
  lists : ∀ {r : Request} {response}, r.method = "GET" → P [.sent ⟨r, response⟩]

/-- Any course. -/
def Any (_ : List Moment) : Prop := True

instance : Listing Any where
  nil := trivial
  append _ _ := trivial
  mere _ := trivial
  reads _ _ := trivial
  lists _ := trivial

end Moment

namespace Session

open Moment

variable {P : List Moment → Prop} [Simple P] {s s₁ s₂ : Session}

theorem Runs.refl (s : Session) : s.Runs P s := ⟨[], rfl, rfl, rfl, Simple.nil⟩

theorem Runs.trans (h : s.Runs P s₁) (h' : s₁.Runs P s₂) : s.Runs P s₂ :=
  h.append h' Simple.append

end Session

namespace Session

variable {P : List Moment → Prop} {s s₁ : Session}

/-- Nothing happened that is logged. -/
theorem runs_of_eq (hP : P []) (hlog : s₁.log = s.log) (hanswers : s₁.answers = s.answers)
    (hresponses : s₁.responses = s.responses) : s.Runs P s₁ :=
  ⟨[], hlog, hanswers, hresponses, hP⟩

/-- One mere event happened. -/
theorem runs_of_mere {e : Event} (h : e.isMere = true) (hP : P [.did e])
    (hlog : s₁.log = e :: s.log) (hanswers : s₁.answers = s.answers)
    (hresponses : s₁.responses = s.responses) : s.Runs P s₁ := by
  have hmere : e.isPrompt = false ∧ e.request? = none := by
    simpa [Event.isMere] using h
  refine ⟨[e], hlog, ?_, ?_, ?_⟩
  · simpa [askings, hmere.1] using hanswers
  · simpa [sendings, hmere.2] using hresponses
  · simpa [momentsOf, hmere.1, hmere.2] using hP

/-- One prompt was shown, and took the next answer. -/
theorem runs_of_prompt {prompt : Event} (h : prompt.isPrompt = true)
    (hP : P [.asked prompt s.answers.head?]) (hlog : s₁.log = prompt :: s.log)
    (hanswers : s₁.answers = s.answers.tail) (hresponses : s₁.responses = s.responses) :
    s.Runs P s₁ := by
  have hno : prompt.request? = none := by
    cases prompt with
    | http => cases h
    | _ => rfl
  refine ⟨[prompt], hlog, ?_, ?_, ?_⟩
  · simpa [askings, h] using hanswers
  · simpa [sendings, hno] using hresponses
  · simpa [momentsOf, h, hno] using hP

/-- One request was sent, and took the next response. -/
theorem runs_of_request {r : Request} (hP : P [.sent ⟨r, s.responses.head?⟩])
    (hlog : s₁.log = .http r :: s.log) (hanswers : s₁.answers = s.answers)
    (hresponses : s₁.responses = s.responses.tail) : s.Runs P s₁ :=
  ⟨[.http r], hlog, hanswers, by rw [hresponses, ← List.drop_one]; rfl, hP⟩

end Session

/-! ### Parts with their courses -/

namespace Desk

/-- Whatever the part comes to, it takes a course as that result says. -/
def Courses (part : Desk α) (D : Except Fault α → List Moment → Prop) : Prop :=
  ∀ s : Session, s.Runs (D (part.outcome s).1) (part.outcome s).2

variable {part : Desk α} {next : α → Desk β} {D D' : Except Fault α → List Moment → Prop}

theorem Courses.mono (h : part.Courses D) (hD : ∀ {r c}, D r c → D' r c) : part.Courses D' :=
  fun s => (h s).mono fun _ => hD

theorem courses_pure {a : α} (h : D (.ok a) []) : (pure a : Desk α).Courses D :=
  fun _ => Session.runs_of_eq h rfl rfl rfl

theorem courses_throw {f : Fault} (h : D (.error f) []) : (throw f : Desk α).Courses D :=
  fun _ => Session.runs_of_eq h rfl rfl rfl

theorem courses_ofExcept {e : Except Fault α} (h : D e []) : (ofExcept e).Courses D :=
  fun _ => Session.runs_of_eq h rfl rfl rfl

/-- One part after another, which is known to come after it. -/
theorem courses_after {R : Except Fault β → List Moment → Prop} (h : part.Courses D)
    (herror : ∀ {f c}, D (.error f) c → R (.error f) c)
    (hnext : ∀ {a c}, D (.ok a) c → (next a).Courses fun r c' => R r (c ++ c')) :
    (part >>= next).Courses R := by
  intro s
  have hpart := h s
  rw [outcome_bind]
  generalize part.outcome s = out at hpart ⊢
  obtain ⟨f | a, s₁⟩ := out
  · exact hpart.mono fun _ => herror
  · exact hpart.known.append (hnext hpart.course s₁)
      fun hc hc' => hc ▸ hc'

/-- One part after another. -/
theorem courses_bind {N : α → Except Fault β → List Moment → Prop}
    {R : Except Fault β → List Moment → Prop} (h : part.Courses D)
    (hnext : ∀ a, (next a).Courses (N a)) (herror : ∀ {f c}, D (.error f) c → R (.error f) c)
    (hok : ∀ {a r c c'}, D (.ok a) c → N a r c' → R r (c ++ c')) :
    (part >>= next).Courses R :=
  courses_after h herror fun hc => (hnext _).mono (hok hc)

/-- One part after another, all of a kind. -/
theorem courses_then {P : List Moment → Prop} [Moment.Simple P] (h : part.Courses fun _ c => P c)
    (hnext : ∀ a, (next a).Courses fun _ c => P c) : (part >>= next).Courses fun _ c => P c :=
  courses_bind h hnext id Moment.Simple.append

/-- A part, and what is done about its faults. -/
theorem courses_tryCatch {handle : Fault → Desk α}
    {N : Fault → Except Fault α → List Moment → Prop} {R : Except Fault α → List Moment → Prop}
    (h : part.Courses D) (hhandle : ∀ f, (handle f).Courses (N f))
    (hok : ∀ {a c}, D (.ok a) c → R (.ok a) c)
    (herror : ∀ {f r c c'}, D (.error f) c → N f r c' → R r (c ++ c')) :
    (tryCatch part handle).Courses R := by
  intro s
  have hpart := h s
  rw [outcome_tryCatch]
  generalize part.outcome s = out at hpart ⊢
  obtain ⟨f | a, s₁⟩ := out
  · exact hpart.append (hhandle f s₁) herror
  · exact hpart.mono fun _ => hok

/-- The session may be looked at. -/
theorem courses_get_bind {next : Session → Desk α} (h : ∀ s, (next s).Courses D) :
    (get >>= next : Desk α).Courses D := by
  intro s
  rw [outcome_get_bind]
  exact h s s

/-- A mere event happens. -/
theorem courses_emit {e : Event} (h : e.isMere = true) :
    (emit e).Courses fun _ c => c = [.did e] :=
  fun _ => Session.runs_of_mere h rfl rfl rfl rfl

/-- A prompt takes an answer, and comes to it unless it is an interruption. -/
theorem courses_ask {prompt : Event} (hprompt : prompt.isPrompt = true) :
    (ask prompt).Courses fun r c => ∃ answer, c = [.asked prompt answer] ∧
      ∀ v, r = .ok v → answer = some (.value v) := by
  intro s
  rw [outcome_ask]
  rcases hs : s.answers with _ | ⟨v | _, rest⟩
  · exact Session.runs_of_prompt hprompt ⟨_, rfl, nofun⟩ rfl (by rw [hs]; rfl) rfl
  · refine Session.runs_of_prompt hprompt ⟨_, rfl, ?_⟩ rfl (by rw [hs]; rfl) rfl
    rintro _ ⟨⟩
    rw [hs]
    rfl
  · exact Session.runs_of_prompt hprompt ⟨_, rfl, nofun⟩ rfl (by rw [hs]; rfl) rfl

/-- A request takes a response, and comes to the reply in it. -/
theorem courses_exchange (r : Request) : (exchange r).Courses fun result c =>
    ∃ response, c = [.sent ⟨r, response⟩] ∧
      ∀ reply, result = .ok reply → ∃ seconds, response = some (.reply reply seconds) := by
  intro s
  rw [outcome_exchange]
  rcases hs : s.responses with _ | ⟨⟨reply, seconds⟩ | ⟨message, seconds⟩ | seconds, rest⟩
  · exact Session.runs_of_request ⟨_, rfl, nofun⟩ rfl rfl (by rw [hs]; rfl)
  · refine Session.runs_of_request ⟨_, rfl, ?_⟩ rfl rfl (by rw [hs]; rfl)
    rintro _ ⟨⟩
    exact ⟨seconds, by rw [hs]; rfl⟩
  · exact Session.runs_of_request ⟨_, rfl, nofun⟩ rfl rfl (by rw [hs]; rfl)
  · exact Session.runs_of_request ⟨_, rfl, nofun⟩ rfl rfl (by rw [hs]; rfl)

end Desk

namespace Flow.Step

/-- Whatever the part comes to from a context, it takes a course as the result and the context that
it leaves say. -/
def Courses (part : Step κ α) (ctx : κ) (D : Except Fault α → κ → List Moment → Prop) : Prop :=
  ∀ s : Session, s.Runs (D (part.outcome ctx s).1.1 (part.outcome ctx s).1.2) (part.outcome ctx s).2

variable {part : Step κ α} {next : α → Step κ β} {ctx : κ}
variable {D D' : Except Fault α → κ → List Moment → Prop}

theorem Courses.mono (h : part.Courses ctx D) (hD : ∀ {r ctx' c}, D r ctx' c → D' r ctx' c) :
    part.Courses ctx D' := fun s => (h s).mono fun _ => hD

theorem courses_pure {a : α} (h : D (.ok a) ctx []) : (pure a : Step κ α).Courses ctx D :=
  fun _ => Session.runs_of_eq h rfl rfl rfl

theorem courses_throw {f : Fault} (h : D (.error f) ctx []) :
    (throw f : Step κ α).Courses ctx D := fun _ => Session.runs_of_eq h rfl rfl rfl

theorem courses_change {g : κ → κ} {D : Except Fault Unit → κ → List Moment → Prop}
    (h : D (.ok ()) (g ctx) []) : (change g).Courses ctx D :=
  fun _ => Session.runs_of_eq h rfl rfl rfl

/-- A part that leaves the context alone takes its own courses. -/
theorem courses_ofDesk {part : Desk α} {D : Except Fault α → List Moment → Prop}
    (h : part.Courses D) : (ofDesk part).Courses ctx fun r ctx' c => ctx' = ctx ∧ D r c :=
  fun s => (h s).mono fun _ hc => ⟨rfl, hc⟩

/-- The context may be looked at. -/
theorem courses_context_bind {next : κ → Step κ α} (h : (next ctx).Courses ctx D) :
    (context >>= next).Courses ctx D := h

/-- One part after another, which is known to come after it. -/
theorem courses_after {R : Except Fault β → κ → List Moment → Prop} (h : part.Courses ctx D)
    (herror : ∀ {f ctx' c}, D (.error f) ctx' c → R (.error f) ctx' c)
    (hnext : ∀ {a ctx' c}, D (.ok a) ctx' c →
      (next a).Courses ctx' fun r ctx'' c' => R r ctx'' (c ++ c')) :
    (part >>= next).Courses ctx R := by
  intro s
  have hpart := h s
  rw [outcome_bind]
  generalize part.outcome ctx s = out at hpart ⊢
  obtain ⟨⟨f | a, ctx'⟩, s₁⟩ := out
  · exact hpart.mono fun _ => herror
  · exact hpart.known.append (hnext hpart.course s₁)
      fun hc hc' => hc ▸ hc'

/-- A part, and what is done about its faults. -/
theorem runs_tryCatch {handle : Fault → Step κ α}
    {N : Fault → κ → Except Fault α → κ → List Moment → Prop}
    {R : Except Fault α → κ → List Moment → Prop} {s : Session}
    (h : s.Runs (D (part.outcome ctx s).1.1 (part.outcome ctx s).1.2) (part.outcome ctx s).2)
    (hhandle : ∀ f ctx', (handle f).Courses ctx' (N f ctx'))
    (hok : ∀ {a ctx' c}, D (.ok a) ctx' c → R (.ok a) ctx' c)
    (herror : ∀ {f ctx' r ctx'' c c'}, D (.error f) ctx' c → N f ctx' r ctx'' c' →
      R r ctx'' (c ++ c')) :
    s.Runs (R ((tryCatch part handle).outcome ctx s).1.1 ((tryCatch part handle).outcome ctx s).1.2)
      ((tryCatch part handle).outcome ctx s).2 := by
  rw [outcome_tryCatch]
  generalize part.outcome ctx s = out at h ⊢
  obtain ⟨⟨f | a, ctx'⟩, s₁⟩ := out
  · exact h.append (hhandle f ctx' s₁) herror
  · exact h.mono fun _ => hok

end Flow.Step
end BuildDesk
